/-
What one step of a client connection does.

`RoutingStep` lists the kinds of steps: what may happen to the calls, to the map of
waiters and to the writer.  `step_routing` sorts all events into them, and every
invariant of the connection is proved from it.
-/
import DbProxy.ClientConnection

namespace DbProxy

open StepMachine

/-- The call has not registered. -/
def ExchangePhase.isEarly : ExchangePhase → Bool
  | absent | started | queued | slotted | locked | validated | numbered => true
  | _ => false

/-- A `WriteAttempt` is there. -/
def ExchangePhase.inAttempt : ExchangePhase → Bool
  | writing | aborting _ | closing _ => true
  | _ => false

namespace ClientConnection

variable {s t : ClientConnection} {e : ClientEvent} {i : ℕ}

/-! ### What a step does to the calls -/

/-- What the move of a call from `old` to `phase` does to the writer. -/
inductive WriterMove (s t : ClientConnection) (i : ℕ) (old phase : ExchangePhase) : Prop
  | same (hholds : phase.holdsWriter = old.holdsWriter) (hattempt : phase.inAttempt = old.inAttempt)
      (hwriting : phase.isWriting = true → old.isWriting = true) (hholder : t.holder = s.holder)
      (hwriter : t.writer = s.writer) (hwire : t.wire = s.wire)
  | lock (hfree : s.holder = none) (hholds : phase.holdsWriter = true)
      (hattempt : phase.inAttempt = false) (hattempt' : old.inAttempt = false)
      (hholder : t.holder = some i) (hwriter : t.writer = s.writer) (hwire : t.wire = s.wire)
  | unlock (hholds : old.holdsWriter = true) (hattempt : old.inAttempt = false)
      (hholds' : phase.holdsWriter = false) (hattempt' : phase.inAttempt = false)
      (hholder : t.holder = none) (hwriter : t.writer = s.writer) (hwire : t.wire = s.wire)
  | start (hholds : old.holdsWriter = true) (hattempt : old.inAttempt = false)
      (hphase : phase = .writing) (hopen : s.writer = true) (hholder : t.holder = s.holder)
      (hwriter : t.writer = s.writer) (hwire : t.wire = s.wire ++ [⟨i, false⟩])
  | done (hphase : old = .writing) (hphase' : phase = .sent) (hholder : t.holder = none)
      (hwriter : t.writer = s.writer) (hwire : t.wire = s.wire.dropLast ++ [⟨i, true⟩])
  | close (hattempt : old.inAttempt = true) (hwriting : old.isWriting = false)
      (hholds : phase.holdsWriter = false) (hattempt' : phase.inAttempt = false)
      (hholder : t.holder = none) (hwriter : t.writer = false) (hwire : t.wire = s.wire)

/-- One call moves. -/
structure Moved (s t : ClientConnection) (i : ℕ) (x : Exchange) : Prop where
  exchanges : t.exchanges = Function.update s.exchanges i x
  count : t.count = s.count
  failure : t.failure = s.failure
  arrivals : t.arrivals = s.arrivals
  reader : t.reader = s.reader
  writer : WriterMove s t i (s.exchanges i).phase x.phase

/-- A move that neither registers nor forgets a waiter. -/
structure QuietMove (old x : Exchange) : Prop where
  present : old.phase ≠ .absent
  registered : x.phase.isRegistered = old.phase.isRegistered
  early : x.phase.isEarly = true → old.phase.isEarly = true
  received : x.received = old.received
  rpcId : old.phase.isEarly = false → x.rpcId = old.rpcId
  result : ∀ r, x.phase.result = some (.ok r) →
    old.phase.result = some (.ok r) ∨ ∃ n, old.received = some (.response n r)

/-- What a step does. -/
inductive RoutingStep (s t : ClientConnection) (e : ClientEvent) : Prop
  | begin (x : Exchange) (hphase : x.phase = .started) (hreceived : x.received = none)
      (hexchanges : t.exchanges = Function.update s.exchanges s.count x)
      (hcount : t.count = s.count + 1) (hwaiters : t.waiters = s.waiters)
      (hfailure : t.failure = s.failure) (harrivals : t.arrivals = s.arrivals)
      (hreader : t.reader = s.reader) (hholder : t.holder = s.holder)
      (hwriter : t.writer = s.writer) (hwire : t.wire = s.wire)
  | quiet (i : ℕ) (x : Exchange) (hmoved : Moved s t i x) (hwaiters : t.waiters = s.waiters)
      (hmove : QuietMove (s.exchanges i) x)
  | register (i : ℕ) (hevent : e = .call i .register)
      (hmoved : Moved s t i { s.exchanges i with phase := .registered })
      (hphase : (s.exchanges i).phase = .numbered) (hfailure : s.failure = none)
      (hwaiters : t.waiters =
        ((s.exchanges i).rpcId, i) :: removeWaiter s.waiters (s.exchanges i).rpcId)
  | forget (i : ℕ) (result : ExchangeResult)
      (hmoved : Moved s t i { s.exchanges i with phase := .returned result })
      (hphase : (s.exchanges i).phase = .leaving result)
      (hwaiters : t.waiters = removeWaiter s.waiters (s.exchanges i).rpcId)
  | reader (e' : ReaderEvent) (h : s.stepReader e' = some t)

/-- A guard that is dropped when the call moves on is one of a call outside an attempt. -/
theorem writerMove_drop {old phase : ExchangePhase} (hattempt : old.inAttempt = false)
    (hholds : phase.holdsWriter = false) (hattempt' : phase.inAttempt = false)
    (hwriting : phase.isWriting = false)
    (hholder : t.holder = if old.holdsWriter then none else s.holder)
    (hwriter : t.writer = s.writer) (hwire : t.wire = s.wire) : WriterMove s t i old phase := by
  cases hold : old.holdsWriter with
  | true =>
    rw [hold] at hholder
    exact .unlock hold hattempt hholds hattempt' hholder hwriter hwire
  | false =>
    rw [hold] at hholder
    exact .same (hholds.trans hold.symm) (hattempt'.trans hattempt.symm)
      (fun h => by rw [hwriting] at h; cases h) hholder hwriter hwire

/-- A move that only changes the phase, to one with the same standing. -/
theorem quiet_of_phase (phase : ExchangePhase) {old : ExchangePhase}
    (hold : (s.exchanges i).phase = old)
    (hexchanges : t.exchanges = Function.update s.exchanges i { s.exchanges i with phase })
    (hcount : t.count = s.count) (hfailure : t.failure = s.failure)
    (harrivals : t.arrivals = s.arrivals) (hreader : t.reader = s.reader)
    (hwaiters : t.waiters = s.waiters) (hwriter : WriterMove s t i old phase)
    (hpresent : old ≠ .absent) (hregistered : phase.isRegistered = old.isRegistered)
    (hearly : phase.isEarly = true → old.isEarly = true)
    (hresult : ∀ r, phase.result = some (.ok r) →
      old.result = some (.ok r) ∨ ∃ n, (s.exchanges i).received = some (.response n r)) :
    RoutingStep s t e := by
  subst hold
  exact .quiet i _ ⟨hexchanges, hcount, hfailure, harrivals, hreader, hwriter⟩ hwaiters
    ⟨hpresent, hregistered, hearly, rfl, fun _ => rfl, hresult⟩

/-- A call that ends before it has registered. -/
theorem quiet_finish {old : ExchangePhase} {result : ExchangeResult}
    (hold : (s.exchanges i).phase = old) (hpresent : old ≠ .absent)
    (hregistered : old.isRegistered = false) (hattempt : old.inAttempt = false)
    (hresult : ∀ r, result ≠ some (.ok r)) : RoutingStep s (s.finish i result) e := by
  refine quiet_of_phase (.returned result) hold rfl rfl rfl rfl rfl rfl ?_ hpresent
    hregistered.symm (fun h => by cases h) (fun r h => absurd h (hresult r))
  exact writerMove_drop hattempt rfl rfl rfl (by rw [← hold]; rfl) rfl rfl

/-- The result of a registered call is decided. -/
theorem quiet_leave {old : ExchangePhase} {result : ExchangeResult}
    (hold : (s.exchanges i).phase = old) (hregistered : old.isRegistered = true)
    (hwriter : WriterMove s t i old (.leaving result))
    (hexchanges : t.exchanges = (s.leave i result).exchanges) (hcount : t.count = s.count)
    (hfailure : t.failure = s.failure) (harrivals : t.arrivals = s.arrivals)
    (hreader : t.reader = s.reader) (hwaiters : t.waiters = s.waiters)
    (hresult : ∀ r, result = some (.ok r) → old.result = some (.ok r) ∨
      ∃ n, (s.exchanges i).received = some (.response n r)) :
    RoutingStep s t e := by
  have hpresent : old ≠ .absent := by
    rintro rfl
    cases hregistered
  exact quiet_of_phase (.leaving result) hold hexchanges hcount hfailure harrivals hreader
    hwaiters hwriter hpresent hregistered.symm (fun h => by cases h) hresult

theorem outcome_eq_ok {message : Delivery} {r : ResponseEnvelope}
    (h : message.outcome = .ok r) : ∃ n, message = .response n r := by
  cases message with
  | failed failure => cases h
  | response n r' =>
    rw [Delivery.outcome] at h
    split at h
    · cases h
    · rw [Except.ok.injEq] at h
      exact ⟨n, by rw [h]⟩

theorem checkUsable_routing (h : s.checkUsable i = some t) : RoutingStep s t e := by
  rw [checkUsable] at h
  split at h
  · next hphase =>
    split at h <;> cases h
    · exact quiet_of_phase .queued hphase rfl rfl rfl rfl rfl rfl
        (.same rfl rfl (fun h => by cases h) rfl rfl rfl) (by simp) rfl (fun _ => rfl)
        (fun _ h => by cases h)
    · exact quiet_finish hphase (by simp) rfl rfl (fun _ h => by cases h)
  · next hphase =>
    split at h <;> cases h
    · exact quiet_of_phase .validated hphase rfl rfl rfl rfl rfl rfl
        (.same rfl rfl (fun h => by cases h) rfl rfl rfl) (by simp) rfl (fun _ => rfl)
        (fun _ h => by cases h)
    · exact quiet_finish hphase (by simp) rfl rfl (fun _ h => by cases h)
  · cases h

theorem acquire_routing (h : s.acquire i = some t) : RoutingStep s t e := by
  rw [acquire] at h
  split at h
  · next hphase =>
    split at h <;> cases h
    exact quiet_of_phase .slotted hphase rfl rfl rfl rfl rfl rfl
      (.same rfl rfl (fun h => by cases h) rfl rfl rfl) (by simp) rfl (fun _ => rfl)
      (fun _ h => by cases h)
  · cases h

theorem lockWriter_routing (h : s.lockWriter i = some t) : RoutingStep s t e := by
  rw [lockWriter] at h
  split at h
  · next hphase =>
    split at h <;> cases h
    next hfree =>
    rw [Bool.not_eq_true, Option.isSome_eq_false_iff, Option.isNone_iff_eq_none] at hfree
    exact quiet_of_phase .locked hphase rfl rfl rfl rfl rfl rfl
      (.lock hfree rfl rfl rfl rfl rfl rfl) (by simp) rfl (fun _ => rfl) (fun _ h => by cases h)
  · cases h

theorem number_routing (h : s.number i = some t) : RoutingStep s t e := by
  rw [number] at h
  split at h
  · next hphase =>
    cases h
    refine .quiet i _ ⟨rfl, rfl, rfl, rfl, rfl, ?_⟩ rfl
      ⟨?_, ?_, ?_, rfl, ?_, fun _ h => by cases h⟩
    all_goals rw [hphase]
    · exact .same rfl rfl (fun h => by cases h) rfl rfl rfl
    · simp
    · rfl
    · exact fun _ => rfl
    · exact fun h => by cases h
  · cases h

theorem register_routing (h : s.register i = some t) :
    RoutingStep s t (.call i .register) := by
  rw [register] at h
  split at h
  · next hphase =>
    split at h <;> cases h
    · exact quiet_finish hphase (by simp) rfl rfl (fun _ h => by cases h)
    · next hfailure =>
      refine .register i rfl ⟨rfl, rfl, rfl, rfl, rfl, ?_⟩ hphase hfailure rfl
      rw [hphase]
      exact .same rfl rfl (fun h => by cases h) rfl rfl rfl
  · cases h

theorem startWrite_routing (h : s.startWrite i = some t) : RoutingStep s t e := by
  rw [startWrite] at h
  split at h
  · next hphase =>
    split at h <;> cases h
    · next hopen =>
      refine .quiet i _ ⟨rfl, rfl, rfl, rfl, rfl, ?_⟩ rfl ⟨?_, ?_, ?_, rfl, fun _ => rfl,
        fun _ h => by cases h⟩
      all_goals rw [hphase]
      · exact .start rfl rfl rfl hopen rfl rfl rfl
      · simp
      · rfl
      · exact fun h => by cases h
    · exact quiet_leave hphase rfl
        (writerMove_drop rfl rfl rfl rfl (by rw [leave, hphase]) rfl rfl) rfl rfl rfl rfl rfl rfl
        (fun _ h => by cases h)
  · cases h

theorem writeDone_routing (h : s.writeDone i = some t) : RoutingStep s t e := by
  rw [writeDone] at h
  split at h
  · next hphase =>
    cases h
    exact quiet_of_phase .sent hphase rfl rfl rfl rfl rfl rfl (.done rfl rfl rfl rfl rfl) (by simp)
      rfl (fun h => by cases h) (fun _ h => by cases h)
  · cases h

/-- A write that ends without its frame. -/
theorem aborting_routing {result : ExchangeResult} (hphase : (s.exchanges i).phase = .writing)
    (hresult : ∀ r, result ≠ some (.ok r)) : RoutingStep s (s.setPhase i (.aborting result)) e :=
  quiet_of_phase (.aborting result) hphase rfl rfl rfl rfl rfl rfl
    (.same rfl rfl (fun h => by cases h) rfl rfl rfl) (by simp) rfl (fun h => by cases h)
    (fun r h => absurd h (hresult r))

theorem writeFailed_routing {error : ClientError} (h : s.writeFailed i error = some t) :
    RoutingStep s t e := by
  rw [writeFailed] at h
  split at h
  · next hphase =>
    cases h
    exact aborting_routing hphase (fun _ h => by cases h)
  · cases h

theorem markUnusable_routing (h : s.markUnusable i = some t) : RoutingStep s t e := by
  rw [markUnusable] at h
  split at h
  · next hphase =>
    cases h
    exact quiet_of_phase (.closing _) hphase rfl rfl rfl rfl rfl rfl
      (.same rfl rfl (fun h => by cases h) rfl rfl rfl) (by simp) rfl (fun h => by cases h)
      (fun _ h => Or.inl h)
  · cases h

theorem closeWriter_routing (h : s.closeWriter i = some t) : RoutingStep s t e := by
  rw [closeWriter] at h
  split at h
  · next hphase =>
    cases h
    exact quiet_leave hphase rfl (.close rfl rfl rfl rfl (by rw [leave, hphase]; rfl) rfl rfl)
      rfl rfl rfl rfl rfl rfl (fun _ h => Or.inl h)
  · cases h

theorem stamp_routing {now : ℕ} (h : s.stamp i now = some t) : RoutingStep s t e := by
  rw [stamp] at h
  split at h
  · next hphase =>
    cases h
    exact quiet_of_phase (.waiting now) hphase rfl rfl rfl rfl rfl rfl
      (.same rfl rfl (fun h => by cases h) rfl rfl rfl) (by simp) rfl (fun h => by cases h)
      (fun _ h => by cases h)
  · cases h

/-- The wait for the response ends. -/
theorem waiting_routing {sentAt : ℕ} {result : ExchangeResult} {usable : Bool}
    (hphase : (s.exchanges i).phase = .waiting sentAt)
    (hresult : ∀ r, result = some (.ok r) →
      ∃ n, (s.exchanges i).received = some (.response n r)) :
    RoutingStep s { s.leave i result with usable } e :=
  quiet_leave hphase rfl (writerMove_drop rfl rfl rfl rfl (by rw [leave, hphase]) rfl rfl)
    rfl rfl rfl rfl rfl rfl (fun r h => Or.inr (hresult r h))

theorem receive_routing (h : s.receive i = some t) : RoutingStep s t e := by
  rw [receive] at h
  split at h
  · next hphase =>
    obtain ⟨message, hreceived, rfl⟩ := Option.map_eq_some_iff.mp h
    refine waiting_routing hphase (fun r hr => ?_)
    obtain ⟨n, rfl⟩ := outcome_eq_ok (Option.some_inj.mp hr)
    exact ⟨n, hreceived⟩
  · cases h

theorem senderDropped_routing (h : s.senderDropped i = some t) : RoutingStep s t e := by
  rw [senderDropped] at h
  split at h
  · next hphase =>
    split at h <;> cases h
    exact waiting_routing hphase (fun _ h => by cases h)
  · cases h

theorem forget_routing (h : s.forget i = some t) : RoutingStep s t e := by
  rw [forget] at h
  split at h
  · next result hphase =>
    cases h
    refine .forget i result ⟨rfl, rfl, rfl, rfl, rfl, ?_⟩ hphase rfl
    rw [hphase]
    exact writerMove_drop rfl rfl rfl rfl (by rw [finish, hphase]) rfl rfl
  · cases h

theorem expire_routing (h : s.expire i = some t) : RoutingStep s t e := by
  rw [expire] at h
  split at h
  all_goals try (cases h; done)
  all_goals rename_i hphase; cases h
  · exact quiet_finish hphase (by simp) rfl rfl (fun _ h => by cases h)
  · exact quiet_finish hphase (by simp) rfl rfl (fun _ h => by cases h)
  · exact quiet_finish hphase (by simp) rfl rfl (fun _ h => by cases h)
  · exact quiet_finish hphase (by simp) rfl rfl (fun _ h => by cases h)
  · exact quiet_leave hphase rfl
      (writerMove_drop rfl rfl rfl rfl (by rw [leave, hphase]) rfl rfl) rfl rfl rfl rfl rfl rfl
      (fun _ h => by cases h)
  · exact aborting_routing hphase (fun _ h => by cases h)
  · exact waiting_routing hphase (fun _ h => by cases h)

theorem cancel_routing (h : s.cancel i = some t) : RoutingStep s t e := by
  rw [cancel] at h
  split at h
  all_goals try (cases h; done)
  all_goals rename_i hphase; cases h
  · exact quiet_finish hphase (by simp) rfl rfl (fun _ h => by cases h)
  · exact quiet_finish hphase (by simp) rfl rfl (fun _ h => by cases h)
  · exact quiet_finish hphase (by simp) rfl rfl (fun _ h => by cases h)
  · exact aborting_routing hphase (fun _ h => by cases h)
  · exact waiting_routing hphase (fun _ h => by cases h)

theorem step_routing (h : s.step e = some t) : RoutingStep s t e := by
  cases e with
  | begin mayHaveSent =>
    cases h
    exact .begin _ rfl rfl rfl rfl rfl rfl rfl rfl rfl rfl rfl
  | reader e => exact .reader e h
  | call i e =>
    cases e with
    | checkUsable => exact checkUsable_routing h
    | acquire => exact acquire_routing h
    | lockWriter => exact lockWriter_routing h
    | number => exact number_routing h
    | register => exact register_routing h
    | startWrite => exact startWrite_routing h
    | writeDone => exact writeDone_routing h
    | writeFailed error => exact writeFailed_routing h
    | markUnusable => exact markUnusable_routing h
    | closeWriter => exact closeWriter_routing h
    | stamp now => exact stamp_routing h
    | receive => exact receive_routing h
    | senderDropped => exact senderDropped_routing h
    | forget => exact forget_routing h
    | expire => exact expire_routing h
    | cancel => exact cancel_routing h

end ClientConnection

end DbProxy
