/-
What becomes of a call of `exchange`, as far as its result and its write are concerned.

* `ExchangeStep` — what a step of a call can do to it: move on, start to write, decide its
  result, or unwind with the result it has;
* `ExchangeKept` — what never changes again: a started write, a decided result, a return;
* `stepCall_unwind` — a call whose result is decided returns without waiting;
* `SentInv` — the invariant: a frame on the wire belongs to a call that knows that it may
  have sent, and a call that reports that it has not sent does not know of a write.
-/
import DbProxy.ClientStream

namespace DbProxy

open StepMachine

/-- The result is decided; what is left are the guards to drop. -/
def ExchangePhase.isDecided : ExchangePhase → Bool
  | aborting _ | closing _ | leaving _ | returned _ => true
  | _ => false

/-- `ClientError::Protocol`. -/
def ClientError.isProtocol : ClientError → Bool
  | protocolIo .. | protocolFrameLength .. => true
  | _ => false

/-- A write fails with an error of the protocol. -/
def CallEvent.fromProtocol : CallEvent → Bool
  | .writeFailed error => error.isProtocol
  | _ => true

/-- A guard of the call is dropped. -/
def CallEvent.unwinds : CallEvent → Bool
  | markUnusable | closeWriter | forget => true
  | _ => false

/-- The guards that are left to drop. -/
def ExchangePhase.guards : ExchangePhase → ℕ
  | aborting _ => 3
  | closing _ => 2
  | leaving _ => 1
  | _ => 0

/-- What a step of a call can do to it. -/
inductive ExchangeStep (x : Exchange) : Exchange → Prop
  | move (rpcId : UInt64) (phase : ExchangePhase) (hold : x.phase.isDecided = false)
      (hphase : phase.isDecided = false) (hwriting : phase.isWriting = false) :
      ExchangeStep x { x with rpcId, phase }
  | write (hold : x.phase.isDecided = false) :
      ExchangeStep x { x with mayHaveSent := true, phase := .writing }
  | decide (phase : ExchangePhase) (hold : x.phase.isDecided = false)
      (hphase : phase.isDecided = true)
      (htruth : phase.result = some (.error .requestNotSentTimeout) → x.mayHaveSent = false) :
      ExchangeStep x { x with phase }
  | unwind (phase : ExchangePhase) (hold : x.phase.isDecided = true)
      (hopen : ∀ result, x.phase ≠ .returned result) (hphase : phase.isDecided = true)
      (hresult : phase.result = x.phase.result) : ExchangeStep x { x with phase }

/-- What is kept of a call. -/
structure ExchangeKept (x y : Exchange) : Prop where
  sent : x.mayHaveSent = true → y.mayHaveSent = true
  decided : x.phase.isDecided = true → y.phase.isDecided = true ∧
    y.phase.result = x.phase.result ∧ y.mayHaveSent = x.mayHaveSent
  returned : ∀ result, x.phase = .returned result → y.phase = .returned result

theorem ExchangeKept.refl (x : Exchange) : ExchangeKept x x :=
  ⟨id, fun h => ⟨h, rfl, rfl⟩, fun _ h => h⟩

theorem ExchangeKept.received (x : Exchange) (received : Option Delivery) :
    ExchangeKept x { x with received } :=
  ⟨id, fun h => ⟨h, rfl, rfl⟩, fun _ h => h⟩

theorem ExchangeStep.kept {x y : Exchange} (h : ExchangeStep x y) : ExchangeKept x y := by
  -- a call that moves on has not decided its result
  have hundecided : x.phase.isDecided = false → ∀ {y : Exchange},
      (x.mayHaveSent = true → y.mayHaveSent = true) → ExchangeKept x y := by
    intro hold y hsent
    refine ⟨hsent, fun h => ?_, fun result h => ?_⟩
    · rw [hold] at h
      cases h
    · rw [h] at hold
      cases hold
  cases h with
  | move rpcId phase hold => exact hundecided hold id
  | write hold => exact hundecided hold fun _ => rfl
  | decide phase hold => exact hundecided hold id
  | unwind phase hold hopen hphase hresult =>
    exact ⟨id, fun _ => ⟨hphase, hresult, rfl⟩, fun result h => absurd h (hopen result)⟩

/-- A write that goes on has started. -/
theorem ExchangeStep.sent_of_writing {x y : Exchange} (h : ExchangeStep x y)
    (hy : y.phase = .writing) : y.mayHaveSent = true := by
  cases h with
  | move rpcId phase hold hphase hwriting =>
    obtain rfl : phase = .writing := hy
    cases hwriting
  | write hold => rfl
  | decide phase hold hphase =>
    obtain rfl : phase = .writing := hy
    cases hphase
  | unwind phase hold hopen hphase =>
    obtain rfl : phase = .writing := hy
    cases hphase

theorem ExchangePhase.result_of_undecided {phase : ExchangePhase}
    (h : phase.isDecided = false) : phase.result = none := by
  cases phase <;> first | rfl | cases h

/-- A call that reports that it has not sent does not know of a write. -/
theorem ExchangeStep.truth {x y : Exchange} (h : ExchangeStep x y)
    (hx : x.phase.result = some (.error .requestNotSentTimeout) → x.mayHaveSent = false)
    (hy : y.phase.result = some (.error .requestNotSentTimeout)) : y.mayHaveSent = false := by
  cases h with
  | move rpcId phase hold hphase =>
    have hy' : phase.result = some (.error .requestNotSentTimeout) := hy
    rw [ExchangePhase.result_of_undecided hphase] at hy'
    cases hy'
  | write hold => cases hy
  | decide phase hold hphase htruth => exact htruth hy
  | unwind phase hold hopen hphase hresult => exact hx (hresult.symm.trans hy)

theorem Exchange.timeoutError_truth (x : Exchange)
    (h : x.timeoutError = .requestNotSentTimeout) : x.mayHaveSent = false := by
  rw [Exchange.timeoutError] at h
  split at h
  · cases h
  · rename_i hsent
    exact Bool.eq_false_of_not_eq_true hsent

/-- Nothing that a waiter is sent is a timeout. -/
theorem Delivery.outcome_ne (message : Delivery) :
    message.outcome ≠ .error .requestNotSentTimeout := by
  cases message with
  | response n r =>
    rw [Delivery.outcome]
    split
    · simp
    · simp
  | failed failure =>
    rw [Delivery.outcome]
    cases failure <;> simp [ConnectionFailure.error]

namespace ClientConnection

variable {s t : ClientConnection} {e : CallEvent} {i : ℕ}

/-! ### One step of a call -/

/-- The call moves, and the other calls do not. -/
structure CallMoves (s t : ClientConnection) (i : ℕ) : Prop where
  move : ExchangeStep (s.exchanges i) (t.exchanges i)
  others : ∀ j, j ≠ i → t.exchanges j = s.exchanges j
  count : t.count = s.count

theorem CallMoves.kept (h : CallMoves s t i) (j : ℕ) :
    ExchangeKept (s.exchanges j) (t.exchanges j) := by
  by_cases hj : j = i
  · subst hj
    exact h.move.kept
  · rw [h.others j hj]
    exact .refl _

theorem callMoves_of_update {x : Exchange} (hx : ExchangeStep (s.exchanges i) x)
    (hexchanges : t.exchanges = Function.update s.exchanges i x) (hcount : t.count = s.count) :
    CallMoves s t i := by
  refine ⟨?_, fun j hj => ?_, hcount⟩
  · rw [hexchanges, Function.update_self]
    exact hx
  · rw [hexchanges, Function.update_of_ne hj]

/-- A move to another phase before the result is decided. -/
theorem callMoves_phase {old : ExchangePhase} (phase : ExchangePhase)
    (hold : (s.exchanges i).phase = old) (hdecided : old.isDecided = false)
    (hphase : phase.isDecided = false) (hwriting : phase.isWriting = false)
    (hexchanges : t.exchanges = Function.update s.exchanges i { s.exchanges i with phase })
    (hcount : t.count = s.count) : CallMoves s t i := by
  subst hold
  exact callMoves_of_update (.move _ phase hdecided hphase hwriting) hexchanges hcount

theorem callMoves_decide {old phase : ExchangePhase} (hold : (s.exchanges i).phase = old)
    (hdecided : old.isDecided = false) (hphase : phase.isDecided = true)
    (htruth : phase.result = some (.error .requestNotSentTimeout) →
      (s.exchanges i).mayHaveSent = false)
    (hexchanges : t.exchanges = Function.update s.exchanges i { s.exchanges i with phase })
    (hcount : t.count = s.count) : CallMoves s t i := by
  subst hold
  exact callMoves_of_update (.decide phase hdecided hphase htruth) hexchanges hcount

/-- A guard is dropped. -/
theorem callMoves_unwind {old : ExchangePhase} (phase : ExchangePhase)
    (hold : (s.exchanges i).phase = old)
    (hdecided : old.isDecided = true) (hopen : ∀ result, old ≠ .returned result)
    (hphase : phase.isDecided = true) (hresult : phase.result = old.result)
    (hexchanges : t.exchanges = Function.update s.exchanges i { s.exchanges i with phase })
    (hcount : t.count = s.count) : CallMoves s t i := by
  subst hold
  exact callMoves_of_update (.unwind phase hdecided hopen hphase hresult) hexchanges hcount

/-- The deadline decides the result where a call is queued, and after it has written. -/
theorem expire_moves (h : s.expire i = some t) : CallMoves s t i := by
  rw [expire] at h
  split at h
  -- the phases that no deadline ends
  all_goals try (cases h; done)
  all_goals
    rename_i hphase
    obtain rfl := Option.some.inj h
    refine callMoves_decide hphase rfl rfl (fun hresult => ?_) rfl rfl
  · exact (s.exchanges i).timeoutError_truth (Except.error.inj (Option.some.inj hresult))
  · exact (s.exchanges i).timeoutError_truth (Except.error.inj (Option.some.inj hresult))
  · exact (s.exchanges i).timeoutError_truth (Except.error.inj (Option.some.inj hresult))
  · exact (s.exchanges i).timeoutError_truth (Except.error.inj (Option.some.inj hresult))
  · exact (s.exchanges i).timeoutError_truth (Except.error.inj (Option.some.inj hresult))
  · cases hresult
  · cases hresult

/-- A call that may have sent reports that. -/
theorem expire_sent (h : s.expire i = some t) (hsent : (s.exchanges i).mayHaveSent = true) :
    (t.exchanges i).phase.isDecided = true ∧
      (t.exchanges i).phase.result = some (.error .requestTimeout) := by
  have htimeout : (s.exchanges i).timeoutError = .requestTimeout := by
    rw [Exchange.timeoutError, if_pos hsent]
  have hself : ∀ {phase : ExchangePhase},
      t.exchanges = Function.update s.exchanges i { s.exchanges i with phase } →
      phase.isDecided = true → phase.result = some (.error .requestTimeout) →
      (t.exchanges i).phase.isDecided = true ∧
        (t.exchanges i).phase.result = some (.error .requestTimeout) := by
    intro phase hexchanges hdecided hresult
    rw [hexchanges, Function.update_self]
    exact ⟨hdecided, hresult⟩
  rw [expire] at h
  split at h
  all_goals try (cases h; done)
  all_goals
    obtain rfl := Option.some.inj h
    refine hself rfl rfl ?_
    first
    | rfl
    | exact congrArg (fun error => some (Except.error error)) htimeout

/-- A dropped call returns nothing. -/
theorem cancel_moves (h : s.cancel i = some t) : CallMoves s t i := by
  rw [cancel] at h
  split at h
  all_goals try (cases h; done)
  all_goals
    rename_i hphase
    obtain rfl := Option.some.inj h
    refine callMoves_decide hphase rfl rfl (fun hresult => ?_) rfl rfl
    cases hresult

theorem checkUsable_moves (h : s.checkUsable i = some t) : CallMoves s t i := by
  rw [checkUsable] at h
  split at h
  · next hphase =>
    split at h <;> obtain rfl := Option.some.inj h
    · exact callMoves_phase .queued hphase rfl rfl rfl rfl rfl
    · exact callMoves_decide hphase rfl rfl (fun hresult => by cases hresult) rfl rfl
  · next hphase =>
    split at h <;> obtain rfl := Option.some.inj h
    · exact callMoves_phase .validated hphase rfl rfl rfl rfl rfl
    · exact callMoves_decide hphase rfl rfl (fun hresult => by cases hresult) rfl rfl
  · cases h

theorem register_moves (h : s.register i = some t) : CallMoves s t i := by
  rw [register] at h
  split at h
  · next hphase =>
    split at h <;> obtain rfl := Option.some.inj h
    · next failure _ =>
      refine callMoves_decide hphase rfl rfl (fun hresult => ?_) rfl rfl
      exact absurd (Option.some.inj hresult) (Delivery.failed failure).outcome_ne
    · exact callMoves_phase .registered hphase rfl rfl rfl rfl rfl
  · cases h

theorem startWrite_moves (h : s.startWrite i = some t) : CallMoves s t i := by
  rw [startWrite] at h
  split at h
  · next hphase =>
    split at h <;> obtain rfl := Option.some.inj h
    · refine callMoves_of_update (.write ?_) rfl rfl
      rw [hphase]
      rfl
    · exact callMoves_decide hphase rfl rfl (fun hresult => by cases hresult) rfl rfl
  · cases h

theorem acquire_moves (h : s.acquire i = some t) : CallMoves s t i := by
  rw [acquire] at h
  split at h
  · next hphase =>
    split at h <;> cases h
    exact callMoves_phase .slotted hphase rfl rfl rfl rfl rfl
  · cases h

theorem lockWriter_moves (h : s.lockWriter i = some t) : CallMoves s t i := by
  rw [lockWriter] at h
  split at h
  · next hphase =>
    split at h <;> cases h
    exact callMoves_phase .locked hphase rfl rfl rfl rfl rfl
  · cases h

theorem number_moves (h : s.number i = some t) : CallMoves s t i := by
  rw [number] at h
  split at h
  · next hphase =>
    cases h
    refine callMoves_of_update (.move s.nextRpcId .numbered ?_ rfl rfl) rfl rfl
    rw [hphase]
    rfl
  · cases h

theorem writeDone_moves (h : s.writeDone i = some t) : CallMoves s t i := by
  rw [writeDone] at h
  split at h
  · next hphase =>
    cases h
    exact callMoves_phase .sent hphase rfl rfl rfl rfl rfl
  · cases h

theorem writeFailed_moves {error : ClientError} (herror : error.isProtocol = true)
    (h : s.writeFailed i error = some t) : CallMoves s t i := by
  rw [writeFailed] at h
  split at h
  · next hphase =>
    cases h
    refine callMoves_decide hphase rfl rfl (fun hresult => ?_) rfl rfl
    obtain rfl := Except.error.inj (Option.some.inj hresult)
    cases herror
  · cases h

theorem markUnusable_moves (h : s.markUnusable i = some t) : CallMoves s t i := by
  rw [markUnusable] at h
  split at h
  · next result hphase =>
    cases h
    exact callMoves_unwind (.closing result) hphase rfl (by simp) rfl rfl rfl rfl
  · cases h

theorem closeWriter_moves (h : s.closeWriter i = some t) : CallMoves s t i := by
  rw [closeWriter] at h
  split at h
  · next result hphase =>
    cases h
    exact callMoves_unwind (.leaving result) hphase rfl (by simp) rfl rfl rfl rfl
  · cases h

theorem stamp_moves {now : ℕ} (h : s.stamp i now = some t) : CallMoves s t i := by
  rw [stamp] at h
  split at h
  · next hphase =>
    cases h
    exact callMoves_phase (.waiting now) hphase rfl rfl rfl rfl rfl
  · cases h

theorem receive_moves (h : s.receive i = some t) : CallMoves s t i := by
  rw [receive] at h
  split at h
  · next hphase =>
    obtain ⟨message, -, rfl⟩ := Option.map_eq_some_iff.mp h
    refine callMoves_decide hphase rfl rfl (fun hresult => ?_) rfl rfl
    exact absurd (Option.some.inj hresult) message.outcome_ne
  · cases h

theorem senderDropped_moves (h : s.senderDropped i = some t) : CallMoves s t i := by
  rw [senderDropped] at h
  split at h
  · next hphase =>
    split at h <;> cases h
    exact callMoves_decide hphase rfl rfl (fun hresult => by cases hresult) rfl rfl
  · cases h

theorem forget_moves (h : s.forget i = some t) : CallMoves s t i := by
  rw [forget] at h
  split at h
  · next result hphase =>
    cases h
    exact callMoves_unwind (.returned result) hphase rfl (by simp) rfl rfl rfl rfl
  · cases h

/-- **What a step of a call can do.** -/
theorem stepCall_moves (he : e.fromProtocol = true) (h : s.stepCall i e = some t) :
    CallMoves s t i := by
  cases e with
  | checkUsable => exact checkUsable_moves h
  | acquire => exact acquire_moves h
  | lockWriter => exact lockWriter_moves h
  | number => exact number_moves h
  | register => exact register_moves h
  | startWrite => exact startWrite_moves h
  | writeDone => exact writeDone_moves h
  | writeFailed error => exact writeFailed_moves he h
  | markUnusable => exact markUnusable_moves h
  | closeWriter => exact closeWriter_moves h
  | stamp now => exact stamp_moves h
  | receive => exact receive_moves h
  | senderDropped => exact senderDropped_moves h
  | forget => exact forget_moves h
  | expire => exact expire_moves h
  | cancel => exact cancel_moves h

/-! ### The guards of a call -/

/-- A call whose result is decided goes on without waiting until it has returned. -/
theorem stepCall_unwind (hdecided : (s.exchanges i).phase.isDecided = true) :
    (∃ result, (s.exchanges i).phase = .returned result) ∨
      ∃ e t, e.unwinds = true ∧ s.stepCall i e = some t ∧
        (t.exchanges i).phase.guards < (s.exchanges i).phase.guards := by
  have hset : ∀ {t : ClientConnection} (phase : ExchangePhase),
      t.exchanges = Function.update s.exchanges i { s.exchanges i with phase } →
      (t.exchanges i).phase.guards = phase.guards := by
    intro t phase hexchanges
    rw [hexchanges, Function.update_self]
  cases hphase : (s.exchanges i).phase with
  | aborting result =>
    refine Or.inr ⟨.markUnusable, _, rfl, by rw [stepCall, markUnusable, hphase], ?_⟩
    rw [hset (.closing result) rfl]
    exact Nat.lt_succ_self 2
  | closing result =>
    refine Or.inr ⟨.closeWriter, _, rfl, by rw [stepCall, closeWriter, hphase], ?_⟩
    rw [hset (.leaving result) rfl]
    exact Nat.lt_succ_self 1
  | leaving result =>
    refine Or.inr ⟨.forget, _, rfl, by rw [stepCall, forget, hphase], ?_⟩
    rw [hset (.returned result) rfl]
    exact Nat.lt_succ_self 0
  | returned result => exact Or.inl ⟨result, rfl⟩
  | _ =>
    rw [hphase] at hdecided
    cases hdecided

/-! ### One step of the reader -/

/-- The reader hands out messages, and does nothing else to a call. -/
structure OnlyReceived (s t : ClientConnection) : Prop where
  exchanges : ∀ j, ∃ received, t.exchanges j = { s.exchanges j with received }
  count : t.count = s.count

theorem OnlyReceived.kept (h : OnlyReceived s t) (j : ℕ) :
    ExchangeKept (s.exchanges j) (t.exchanges j) := by
  obtain ⟨received, hx⟩ := h.exchanges j
  rw [hx]
  exact .received _ received

theorem OnlyReceived.of_eq (hexchanges : t.exchanges = s.exchanges) (hcount : t.count = s.count) :
    OnlyReceived s t := by
  refine ⟨fun j => ⟨(s.exchanges j).received, ?_⟩, hcount⟩
  rw [hexchanges]

theorem send_onlyReceived (s : ClientConnection) (call : ℕ) (message : Delivery)
    (hexchanges : t.exchanges = (s.send call message).exchanges) (hcount : t.count = s.count) :
    OnlyReceived s t := by
  refine ⟨fun j => ?_, hcount⟩
  rw [hexchanges, send]
  split
  · by_cases hj : j = call
    · subst hj
      exact ⟨some message, setExchange_self ..⟩
    · exact ⟨(s.exchanges j).received, setExchange_other s _ hj⟩
  · exact ⟨(s.exchanges j).received, rfl⟩

theorem count_send (s : ClientConnection) (call : ℕ) (message : Delivery) :
    (s.send call message).count = s.count := by
  rw [send]
  split <;> rfl

theorem stepReader_received {e : ReaderEvent} (h : s.stepReader e = some t) :
    OnlyReceived s t := by
  cases e with
  | arrive response now =>
    rw [stepReader, arrive] at h
    split at h <;> cases h
    exact .of_eq rfl rfl
  | route =>
    rw [stepReader, route] at h
    split at h
    · split at h <;> cases h <;> exact .of_eq rfl rfl
    · cases h
  | deliver =>
    rw [stepReader, deliver] at h
    split at h <;> cases h
    exact send_onlyReceived s _ _ rfl (count_send s _ _)
  | lose failure =>
    rw [stepReader, lose] at h
    split at h <;> cases h
    exact .of_eq rfl rfl
  | takeWaiters =>
    rw [stepReader, takeWaiters] at h
    split at h <;> cases h
    exact .of_eq rfl rfl
  | failWaiter rpcId =>
    rw [stepReader, failWaiter] at h
    split at h
    · obtain ⟨call, -, rfl⟩ := Option.map_eq_some_iff.mp h
      exact send_onlyReceived s _ _ rfl (count_send s _ _)
    · cases h
  | endReader =>
    rw [stepReader, endReader] at h
    split at h <;> cases h
    exact .of_eq rfl rfl

/-! ### The invariant -/

/-- A frame on the wire is one of a call that may have sent. -/
structure SentInv (s : ClientConnection) : Prop where
  frames : ∀ frame ∈ s.wire, frame.call < s.count ∧
    (s.exchanges frame.call).mayHaveSent = true
  writing : ∀ i, (s.exchanges i).phase = .writing → (s.exchanges i).mayHaveSent = true
  truth : ∀ i, (s.exchanges i).phase.result = some (.error .requestNotSentTimeout) →
    (s.exchanges i).mayHaveSent = false
  absent : ∀ i, s.count ≤ i → (s.exchanges i).phase = .absent

theorem opened_sentInv (maxInFlight : ℕ) : (opened maxInFlight).SentInv := by
  refine ⟨?_, ?_, ?_, fun _ _ => rfl⟩
  all_goals intro x h
  all_goals cases h

theorem SentInv.begin (inv : s.SentInv) {x : Exchange} (hphase : x.phase = .started)
    (hexchanges : t.exchanges = Function.update s.exchanges s.count x)
    (hcount : t.count = s.count + 1) (hwire : t.wire = s.wire) : t.SentInv := by
  have hold : ∀ i, i ≠ s.count → t.exchanges i = s.exchanges i := by
    intro i hi
    rw [hexchanges, Function.update_of_ne hi]
  have hnew : (t.exchanges s.count).phase = .started := by
    rw [hexchanges, Function.update_self]
    exact hphase
  refine ⟨fun frame hmem => ?_, fun i hi => ?_, fun i hi => ?_, fun i hi => ?_⟩
  · rw [hwire] at hmem
    obtain ⟨hlt, hsent⟩ := inv.frames frame hmem
    rw [hcount, hold _ (by omega)]
    exact ⟨by omega, hsent⟩
  · have hne : i ≠ s.count := by
      rintro rfl
      rw [hnew] at hi
      cases hi
    rw [hold i hne] at hi ⊢
    exact inv.writing i hi
  · have hne : i ≠ s.count := by
      rintro rfl
      rw [hnew] at hi
      cases hi
    rw [hold i hne] at hi ⊢
    exact inv.truth i hi
  · rw [hcount] at hi
    rw [hold i (by omega)]
    exact inv.absent i (by omega)

theorem SentInv.reader (inv : s.SentInv) {e : ReaderEvent} (h : s.stepReader e = some t) :
    t.SentInv := by
  obtain ⟨hphase, -, -, hwire⟩ := reader_writer h
  obtain ⟨hexchanges, hcount⟩ := stepReader_received h
  have hsent : ∀ i, (t.exchanges i).mayHaveSent = (s.exchanges i).mayHaveSent := by
    intro i
    obtain ⟨received, hx⟩ := hexchanges i
    rw [hx]
  refine ⟨fun frame hmem => ?_, fun i hi => ?_, fun i hi => ?_, fun i hi => ?_⟩
  · rw [hwire] at hmem
    rw [hcount, hsent]
    exact inv.frames frame hmem
  · rw [hphase] at hi
    rw [hsent]
    exact inv.writing i hi
  · rw [hphase] at hi
    rw [hsent]
    exact inv.truth i hi
  · rw [hphase]
    exact inv.absent i (hcount ▸ hi)

/-- What a step of a call does to the wire. -/
theorem wire_cases {e : ClientEvent} (h : s.step e = some t) : t.wire = s.wire ∨
    (∃ i, t.wire = s.wire ++ [⟨i, false⟩] ∧ (t.exchanges i).phase = .writing) ∨
    (∃ i, t.wire = s.wire.dropLast ++ [⟨i, true⟩] ∧ (s.exchanges i).phase = .writing) := by
  have hmove : ∀ {i : ℕ} {x : Exchange}, Moved s t i x → t.wire = s.wire ∨
      (∃ i, t.wire = s.wire ++ [⟨i, false⟩] ∧ (t.exchanges i).phase = .writing) ∨
      (∃ i, t.wire = s.wire.dropLast ++ [⟨i, true⟩] ∧ (s.exchanges i).phase = .writing) := by
    intro i x hmoved
    cases hmoved.writer with
    | same _ _ _ _ _ hwire => exact Or.inl hwire
    | lock _ _ _ _ _ _ hwire => exact Or.inl hwire
    | unlock _ _ _ _ _ _ hwire => exact Or.inl hwire
    | start _ _ hphase _ _ _ hwire =>
      refine Or.inr (Or.inl ⟨i, hwire, ?_⟩)
      rw [hmoved.exchanges, Function.update_self]
      exact hphase
    | done hphase _ _ _ hwire => exact Or.inr (Or.inr ⟨i, hwire, hphase⟩)
    | close _ _ _ _ _ _ hwire => exact Or.inl hwire
  cases step_routing h with
  | begin _ _ _ _ _ _ _ _ _ _ _ hwire => exact Or.inl hwire
  | quiet i x hmoved => exact hmove hmoved
  | register i _ hmoved => exact hmove hmoved
  | forget i result hmoved => exact hmove hmoved
  | reader e' h => exact Or.inl (reader_writer h).2.2.2

theorem stepCall_absent (h : (s.exchanges i).phase = .absent) : s.stepCall i e = none := by
  cases e <;> simp [stepCall, checkUsable, acquire, lockWriter, number, register, startWrite,
    writeDone, writeFailed, markUnusable, closeWriter, stamp, receive, senderDropped, forget,
    expire, cancel, h]

theorem SentInv.call (inv : s.SentInv) (he : e.fromProtocol = true)
    (h : s.stepCall i e = some t) : t.SentInv := by
  have hmoves := stepCall_moves he h
  have hcount := hmoves.count
  have hpresent : ∀ j, (s.exchanges j).phase ≠ .absent → j < t.count := by
    intro j hj
    by_contra hge
    exact hj (inv.absent j (by omega))
  have hlt : i < t.count := hpresent i fun habsent => by
    rw [stepCall_absent habsent] at h
    cases h
  have hkept : ∀ j, (s.exchanges j).mayHaveSent = true → (t.exchanges j).mayHaveSent = true :=
    fun j => (hmoves.kept j).sent
  have hwriting : ∀ j, (t.exchanges j).phase = .writing →
      (t.exchanges j).mayHaveSent = true := by
    intro j hj
    by_cases hji : j = i
    · subst hji
      exact hmoves.move.sent_of_writing hj
    · rw [hmoves.others j hji] at hj ⊢
      exact inv.writing j hj
  have habsent : ∀ j, t.count ≤ j → (t.exchanges j).phase = .absent := by
    intro j hj
    rw [hmoves.others j (by omega)]
    exact inv.absent j (by omega)
  refine ⟨fun frame hmem => ?_, hwriting, fun j hj => ?_, habsent⟩
  · rcases wire_cases (e := .call i e) h with
      hwire | ⟨j, hwire, hphase⟩ | ⟨j, hwire, hphase⟩
    · rw [hwire] at hmem
      obtain ⟨hlt', hsent⟩ := inv.frames frame hmem
      exact ⟨by omega, hkept _ hsent⟩
    · rw [hwire, List.mem_append, List.mem_singleton] at hmem
      rcases hmem with hmem | rfl
      · obtain ⟨hlt', hsent⟩ := inv.frames frame hmem
        exact ⟨by omega, hkept _ hsent⟩
      · -- the frame of a write that has just started
        refine ⟨?_, hwriting j hphase⟩
        show j < t.count
        by_contra hge
        rw [habsent j (by omega)] at hphase
        cases hphase
    · rw [hwire, List.mem_append, List.mem_singleton] at hmem
      rcases hmem with hmem | rfl
      · obtain ⟨hlt', hsent⟩ := inv.frames frame ((List.dropLast_sublist _).subset hmem)
        exact ⟨by omega, hkept _ hsent⟩
      · refine ⟨hpresent j ?_, hkept j (inv.writing j hphase)⟩
        rw [hphase]
        simp
  · by_cases hji : j = i
    · subst hji
      exact hmoves.move.truth (inv.truth j) hj
    · rw [hmoves.others j hji] at hj ⊢
      exact inv.truth j hj

end ClientConnection

end DbProxy
