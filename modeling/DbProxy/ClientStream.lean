/-
The guarantees of one client connection.

`WriterInv` says what the stream has to do with the calls: a write that ended without
its whole frame, by an error, a timeout or a cancellation, keeps the lock of the writer
until it has closed it, so that nothing follows the broken frame.

* `response_routing` — responses, failure and stream, over every run;
* `id_reuse_drops_waiter` — a call still waits when the counter has gone round once, and
  the call that gets its id displaces it.
-/
import DbProxy.ResponseRouting

namespace DbProxy

open StepMachine

/-- `read_responses` has returned. -/
def ReaderPhase.isEnded : ReaderPhase → Bool
  | ended => true
  | _ => false

theorem ReaderPhase.eq_ended {phase : ReaderPhase} (h : phase.isEnded = true) : phase = .ended := by
  cases phase <;> first | rfl | cases h

namespace ClientConnection

variable {s t : ClientConnection} {e : ClientEvent} {i : ℕ}

/-! ### The stream -/

/-- An attempt to write has ended without the whole frame. -/
def Broken (s : ClientConnection) : Prop :=
  ∃ i, ⟨i, false⟩ ∈ s.wire ∧ (s.exchanges i).phase.isWriting = false

structure WriterInv (s : ClientConnection) : Prop where
  holder : ∀ i, (s.exchanges i).phase.holdsWriter = true → s.holder = some i
  writing : ∀ i, (s.exchanges i).phase.isWriting = true → s.writer = true
  /-- all frames are whole, but for the last one during and after a failed attempt -/
  wire : ∃ done : List WrittenFrame, (∀ f ∈ done, f.complete = true) ∧
    (s.wire = done ∧ (∀ i, (s.exchanges i).phase.inAttempt = false) ∨
      ∃ i, s.wire = done ++ [⟨i, false⟩] ∧
        (∀ j, (s.exchanges j).phase.inAttempt = true → j = i) ∧
        ((s.exchanges i).phase.inAttempt = true ∨ s.writer = false))

/-- Nothing more is written: the writer is closed, or is about to be. -/
def Stopped (s : ClientConnection) : Prop :=
  s.writer = false ∨
    ∃ i, (s.exchanges i).phase.inAttempt = true ∧ (s.exchanges i).phase.isWriting = false

theorem holdsWriter_of_inAttempt {phase : ExchangePhase} (h : phase.inAttempt = true) :
    phase.holdsWriter = true := by
  cases phase <;> first | rfl | cases h

theorem inAttempt_of_isWriting {phase : ExchangePhase} (h : phase.isWriting = true) :
    phase.inAttempt = true := by
  cases phase <;> first | rfl | cases h

theorem WriterInv.alone (inv : s.WriterInv) {j : ℕ}
    (hi : (s.exchanges i).phase.holdsWriter = true)
    (hj : (s.exchanges j).phase.holdsWriter = true) : i = j :=
  Option.some_inj.mp ((inv.holder i hi).symm.trans (inv.holder j hj))

/-- Whether a call holds the writer, and for what. -/
structure SameWriter (p q : ExchangePhase) : Prop where
  holds : p.holdsWriter = q.holdsWriter
  attempt : p.inAttempt = q.inAttempt
  writing : p.isWriting = true → q.isWriting = true

theorem SameWriter.refl (p : ExchangePhase) : SameWriter p p := ⟨rfl, rfl, fun h => h⟩

/-- A step that does not touch the writer. -/
theorem WriterInv.of_same (inv : s.WriterInv)
    (hsame : ∀ j, SameWriter (t.exchanges j).phase (s.exchanges j).phase)
    (hholder : t.holder = s.holder) (hwriter : t.writer = s.writer) (hwire : t.wire = s.wire) :
    t.WriterInv := by
  refine ⟨fun j hj => ?_, fun j hj => ?_, ?_⟩
  · rw [hholder]
    exact inv.holder j ((hsame j).holds ▸ hj)
  · rw [hwriter]
    exact inv.writing j ((hsame j).writing hj)
  · obtain ⟨done, hdone, ⟨hall, hnone⟩ | ⟨k, hlast, honly, hk⟩⟩ := inv.wire
    · exact ⟨done, hdone, Or.inl ⟨hwire.trans hall, fun j => (hsame j).attempt.trans (hnone j)⟩⟩
    · refine ⟨done, hdone, Or.inr ⟨k, hwire.trans hlast, fun j hj => ?_, ?_⟩⟩
      · exact honly j ((hsame j).attempt ▸ hj)
      · rw [(hsame k).attempt, hwriter]
        exact hk

theorem Stopped.of_same (h : s.Stopped)
    (hsame : ∀ j, SameWriter (t.exchanges j).phase (s.exchanges j).phase)
    (hwriter : t.writer = s.writer) : t.Stopped := by
  rcases h with h | ⟨j, hattempt, hwriting⟩
  · exact Or.inl (hwriter.trans h)
  · refine Or.inr ⟨j, (hsame j).attempt.trans hattempt, ?_⟩
    by_contra hw
    rw [(hsame j).writing (by simpa using hw)] at hwriting
    cases hwriting

/-- The steps in which no call moves. -/
theorem reader_writer {e : ReaderEvent} (h : s.stepReader e = some t) :
    (∀ j, (t.exchanges j).phase = (s.exchanges j).phase) ∧ t.holder = s.holder ∧
      t.writer = s.writer ∧ t.wire = s.wire := by
  have hsend : ∀ {call : ℕ} {message : Delivery}, (s.send call message).holder = s.holder ∧
      (s.send call message).writer = s.writer ∧ (s.send call message).wire = s.wire := by
    intro call message
    rw [send]
    split <;> exact ⟨rfl, rfl, rfl⟩
  cases e with
  | arrive response now =>
    rw [stepReader, arrive] at h
    split at h <;> cases h
    exact ⟨fun _ => rfl, rfl, rfl, rfl⟩
  | route =>
    rw [stepReader, route] at h
    split at h
    · split at h <;> cases h <;> exact ⟨fun _ => rfl, rfl, rfl, rfl⟩
    · cases h
  | deliver =>
    rw [stepReader, deliver] at h
    split at h <;> cases h
    exact ⟨send_phase, hsend⟩
  | lose failure =>
    rw [stepReader, lose] at h
    split at h <;> cases h
    exact ⟨fun _ => rfl, rfl, rfl, rfl⟩
  | takeWaiters =>
    rw [stepReader, takeWaiters] at h
    split at h <;> cases h
    exact ⟨fun _ => rfl, rfl, rfl, rfl⟩
  | failWaiter rpcId =>
    rw [stepReader, failWaiter] at h
    split at h
    · obtain ⟨call, -, rfl⟩ := Option.map_eq_some_iff.mp h
      exact ⟨send_phase, hsend⟩
    · cases h
  | endReader =>
    rw [stepReader, endReader] at h
    split at h <;> cases h
    exact ⟨fun _ => rfl, rfl, rfl, rfl⟩

/-- The lock is given back, outside an attempt or after it: no call has it then. -/
theorem WriterInv.holder_none (inv : s.WriterInv) {x : Exchange} (hmoved : Moved s t i x)
    (hholds : (s.exchanges i).phase.holdsWriter = true) (hholds' : x.phase.holdsWriter = false) :
    ∀ j, (t.exchanges j).phase.holdsWriter = false := by
  refine hmoved.all (p := fun _ x => x.phase.holdsWriter = false) hholds' fun j hj => ?_
  by_contra hholdsj
  exact hj (inv.alone (by simpa using hholdsj) hholds)

theorem inAttempt_of_not_holds {phase : ExchangePhase} (h : phase.holdsWriter = false) :
    phase.inAttempt = false := by
  cases phase <;> first | rfl | cases h

/-- No call is in an attempt after the step. -/
theorem WriterInv.of_idle
    (hholder : ∀ j, (t.exchanges j).phase.holdsWriter = true → t.holder = some j)
    (hnone : ∀ j, (t.exchanges j).phase.inAttempt = false)
    (hwire : ∃ done : List WrittenFrame, (∀ f ∈ done, f.complete = true) ∧
      (t.wire = done ∨ t.writer = false ∧ ∃ k, t.wire = done ++ [⟨k, false⟩])) :
    t.WriterInv := by
  have hattempt : ∀ {j}, (t.exchanges j).phase.inAttempt ≠ true := by
    intro j h
    rw [hnone j] at h
    cases h
  refine ⟨hholder, fun j hj => absurd (inAttempt_of_isWriting hj) hattempt, ?_⟩
  obtain ⟨done, hdone, hall | ⟨hclosed, k, hlast⟩⟩ := hwire
  · exact ⟨done, hdone, Or.inl ⟨hall, hnone⟩⟩
  · exact ⟨done, hdone, Or.inr ⟨k, hlast, fun j hj => absurd hj hattempt, Or.inr hclosed⟩⟩

/-- The frames on the stream while no call is in an attempt. -/
theorem WriterInv.wire_idle (inv : s.WriterInv)
    (hnone : ∀ j, (s.exchanges j).phase.inAttempt = false) :
    ∃ done : List WrittenFrame, (∀ f ∈ done, f.complete = true) ∧
      (s.wire = done ∨ s.writer = false ∧ ∃ k, s.wire = done ++ [⟨k, false⟩]) := by
  obtain ⟨done, hdone, ⟨hall, -⟩ | ⟨k, hlast, -, hk | hk⟩⟩ := inv.wire
  · exact ⟨done, hdone, Or.inl hall⟩
  · rw [hnone k] at hk
    cases hk
  · exact ⟨done, hdone, Or.inr ⟨hk, k, hlast⟩⟩

/-- A call that has the lock outside an attempt: no call is in one. -/
theorem WriterInv.no_attempt (inv : s.WriterInv)
    (hholds : (s.exchanges i).phase.holdsWriter = true)
    (hattempt : (s.exchanges i).phase.inAttempt = false) :
    ∀ j, (s.exchanges j).phase.inAttempt = false := by
  intro j
  by_contra hj
  have hji := inv.alone (holdsWriter_of_inAttempt (by simpa using hj)) hholds
  rw [hji] at hj
  exact hj hattempt

theorem Stopped.closed (h : s.Stopped)
    (hnone : ∀ j, (s.exchanges j).phase.inAttempt = false) : s.writer = false := by
  rcases h with h | ⟨j, hj, -⟩
  · exact h
  · rw [hnone j] at hj
    cases hj

/-- The move of a call keeps the invariant; behind a broken frame it writes nothing. -/
theorem WriterInv.move (inv : s.WriterInv) {x : Exchange} (hmoved : Moved s t i x) :
    t.WriterInv ∧ (s.Stopped → t.Stopped ∧ t.wire = s.wire) := by
  cases hmoved.writer with
  | same hholds hattempt hwriting hholder hwriter hwire =>
    have hsame : ∀ j, SameWriter (t.exchanges j).phase (s.exchanges j).phase :=
      hmoved.all (p := fun j x => SameWriter x.phase (s.exchanges j).phase)
        ⟨hholds, hattempt, hwriting⟩ fun _ _ => .refl _
    exact ⟨inv.of_same hsame hholder hwriter hwire, fun h => ⟨h.of_same hsame hwriter, hwire⟩⟩
  | lock hfree hholds hattempt hattempt' hholder hwriter hwire =>
    -- a free lock has no holder, so nobody is in an attempt
    have hnoHolder : ∀ j, (s.exchanges j).phase.holdsWriter = false := by
      intro j
      by_contra hj
      have hheld := inv.holder j (by simpa using hj)
      rw [hfree] at hheld
      cases hheld
    have hnone : ∀ j, (t.exchanges j).phase.inAttempt = false :=
      hmoved.all (p := fun _ x => x.phase.inAttempt = false) hattempt
        fun j _ => inAttempt_of_not_holds (hnoHolder j)
    have hidle : ∀ j, (s.exchanges j).phase.inAttempt = false :=
      fun j => inAttempt_of_not_holds (hnoHolder j)
    refine ⟨.of_idle ?_ hnone ?_, fun h => ⟨Or.inl (hwriter.trans (h.closed hidle)), hwire⟩⟩
    · rw [hholder]
      refine hmoved.all (p := fun j x => x.phase.holdsWriter = true → some i = some j)
        (fun _ => rfl) fun j _ hj => ?_
      rw [hnoHolder j] at hj
      cases hj
    · rw [hwire, hwriter]
      exact inv.wire_idle hidle
  | unlock hholds hattempt hholds' hattempt' hholder hwriter hwire =>
    -- the only holder gives the lock up between two attempts
    have hfree := inv.holder_none hmoved hholds hholds'
    have hidle := inv.no_attempt hholds hattempt
    refine ⟨.of_idle (fun j hj => ?_) (fun j => inAttempt_of_not_holds (hfree j)) ?_,
      fun h => ⟨Or.inl (hwriter.trans (h.closed hidle)), hwire⟩⟩
    · rw [hfree j] at hj
      cases hj
    · rw [hwire, hwriter]
      exact inv.wire_idle hidle
  | start hholds hattempt hphase hopen hholder hwriter hwire =>
    have hidle := inv.no_attempt hholds hattempt
    -- the one that starts is the only one in an attempt
    have honly : ∀ j, (t.exchanges j).phase.inAttempt = true → j = i := by
      refine hmoved.all (p := fun j x => x.phase.inAttempt = true → j = i) (fun _ => rfl)
        fun j _ hj => ?_
      rw [hidle j] at hj
      cases hj
    refine ⟨⟨?_, fun _ _ => hwriter.trans hopen, ?_⟩, fun h => ?_⟩
    · rw [hholder]
      exact hmoved.all (p := fun j x => x.phase.holdsWriter = true → s.holder = some j)
        (fun _ => inv.holder i hholds) fun j _ => inv.holder j
    · obtain ⟨done, hdone, hall | ⟨hclosed, -⟩⟩ := inv.wire_idle hidle
      · refine ⟨done, hdone, Or.inr ⟨i, by rw [hwire, hall], honly, Or.inl ?_⟩⟩
        rw [hmoved.self, hphase]
        rfl
      · rw [hopen] at hclosed
        cases hclosed
    · have hclosed := h.closed hidle
      rw [hopen] at hclosed
      cases hclosed
  | done hphase hphase' hholder hwriter hwire =>
    have hholds : (s.exchanges i).phase.holdsWriter = true := by
      rw [hphase]
      rfl
    have hattempt : (s.exchanges i).phase.inAttempt = true := by
      rw [hphase]
      rfl
    have hfree := inv.holder_none hmoved hholds (by rw [hphase']; rfl)
    have hopen := inv.writing i (by rw [hphase]; rfl)
    refine ⟨.of_idle (fun j hj => ?_) (fun j => inAttempt_of_not_holds (hfree j)) ?_, fun h => ?_⟩
    · rw [hfree j] at hj
      cases hj
    · -- the frame of the attempt was the last one
      obtain ⟨done, hdone, ⟨-, hnone⟩ | ⟨k, hlast, honly, -⟩⟩ := inv.wire
      · rw [hnone i] at hattempt
        cases hattempt
      · rw [hwire, hlast, List.dropLast_concat]
        refine ⟨done ++ [⟨i, true⟩], fun f hf => ?_, Or.inl rfl⟩
        rcases List.mem_append.mp hf with hf | hf
        · exact hdone f hf
        · rw [List.mem_singleton.mp hf]
    · rcases h with h | ⟨j, hj, hwriting⟩
      · rw [hopen] at h
        cases h
      · rw [inv.alone (holdsWriter_of_inAttempt hj) hholds, hphase] at hwriting
        cases hwriting
  | close hattempt hwriting hholds' hattempt' hholder hwriter hwire =>
    have hfree := inv.holder_none hmoved (holdsWriter_of_inAttempt hattempt) hholds'
    refine ⟨.of_idle (fun j hj => ?_) (fun j => inAttempt_of_not_holds (hfree j)) ?_,
      fun _ => ⟨Or.inl hwriter, hwire⟩⟩
    · rw [hfree j] at hj
      cases hj
    · -- the frame may be cut off, but the writer is closed behind it
      obtain ⟨done, hdone, ⟨hall, -⟩ | ⟨k, hlast, -⟩⟩ := inv.wire
      · exact ⟨done, hdone, Or.inl (hwire.trans hall)⟩
      · exact ⟨done, hdone, Or.inr ⟨hwriter, k, hwire.trans hlast⟩⟩

/-- Every step keeps the invariant; behind a broken frame it writes nothing. -/
theorem step_writer (inv : s.WriterInv) (routing : s.RoutingInv) (h : s.step e = some t) :
    t.WriterInv ∧ (s.Stopped → t.Stopped ∧ t.wire = s.wire) := by
  cases step_routing h with
  | begin x hphase hreceived hexchanges hcount hwaiters hfailure harrivals hreader hholder hwriter
      hwire =>
    have hsame : ∀ j, SameWriter (t.exchanges j).phase (s.exchanges j).phase := by
      intro j
      rw [hexchanges]
      by_cases hj : j = s.count
      · rw [hj, Function.update_self, hphase, routing.absent s.count le_rfl]
        exact ⟨rfl, rfl, fun h => by cases h⟩
      · rw [Function.update_of_ne hj]
        exact .refl _
    exact ⟨inv.of_same hsame hholder hwriter hwire, fun h => ⟨h.of_same hsame hwriter, hwire⟩⟩
  | quiet i x hmoved hwaiters hmove => exact inv.move hmoved
  | register i hevent hmoved hphase hfailure hwaiters => exact inv.move hmoved
  | forget i result hmoved hphase hwaiters => exact inv.move hmoved
  | reader e' h =>
    obtain ⟨hphases, hholder, hwriter, hwire⟩ := reader_writer h
    have hsame : ∀ j, SameWriter (t.exchanges j).phase (s.exchanges j).phase := by
      intro j
      rw [hphases j]
      exact .refl _
    exact ⟨inv.of_same hsame hholder hwriter hwire, fun h => ⟨h.of_same hsame hwriter, hwire⟩⟩

theorem opened_writerInv (maxInFlight : ℕ) : (opened maxInFlight).WriterInv :=
  ⟨(fun _ h => by cases h), (fun _ h => by cases h), [], (fun _ h => by cases h),
    Or.inl ⟨rfl, fun _ => rfl⟩⟩

theorem WriterInv.stopped (inv : s.WriterInv) (h : s.Broken) : s.Stopped := by
  obtain ⟨i, hmem, hwriting⟩ := h
  obtain ⟨done, hdone, ⟨hall, -⟩ | ⟨k, hlast, -, hk⟩⟩ := inv.wire
  · rw [hall] at hmem
    cases hdone _ hmem
  · rw [hlast] at hmem
    rcases List.mem_append.mp hmem with hmem | hmem
    · cases hdone _ hmem
    · cases List.mem_singleton.mp hmem
      rcases hk with hk | hk
      · exact Or.inr ⟨i, hk, hwriting⟩
      · exact Or.inl hk

/-- What holds in every reachable state. -/
structure Inv (s : ClientConnection) : Prop where
  routing : s.RoutingInv
  writer : s.WriterInv

theorem step_inv (inv : s.Inv) (h : s.step e = some t) : t.Inv :=
  ⟨step_routingInv inv.routing h, (step_writer inv.writer inv.routing h).1⟩

theorem run_connectionInv {maxInFlight : ℕ} {events : List ClientEvent}
    (hrun : run step (opened maxInFlight) events = some s) : s.Inv :=
  run_invariant (fun _ _ _ inv h => step_inv inv h)
    ⟨opened_routingInv maxInFlight, opened_writerInv maxInFlight⟩ hrun

theorem opened_tracked (maxInFlight i : ℕ) : (opened maxInFlight).Tracked i :=
  ⟨(fun h => by cases h), (fun h => by cases h)⟩

/-- When the reader has ended, the waiter was sent its response or the failure. -/
theorem Tracked.settled (htracked : s.Tracked i) (inv : s.RoutingInv) (hended : s.reader = .ended)
    (hregistered : (s.exchanges i).phase.isRegistered = true) :
    (∃ n r, (s.exchanges i).received = some (.response n r) ∧ (s.exchanges i).rpcId = r.rpcId) ∨
      ∃ failure, s.failure = some failure ∧
        (s.exchanges i).received = some (.failed failure) := by
  have hfailure : s.failure.isSome = true := by
    have hview := inv.reader
    rwa [ReaderView, hended] at hview
  cases hreceived : (s.exchanges i).received with
  | none =>
    rcases htracked.held hregistered hreceived with h | ⟨n, r, h⟩ | ⟨failure, rest, h, -⟩
    · rw [inv.failure hfailure] at h
      cases h
    all_goals rw [hended] at h; cases h
  | some message =>
    cases message with
    | response n r => exact Or.inl ⟨n, r, rfl, (inv.response i n r hreceived).1⟩
    | failed failure => exact Or.inr ⟨failure, inv.failed i failure hreceived, rfl⟩

/-- Behind a broken frame nothing is written. -/
theorem run_wire_of_broken (inv : s.Inv) (hbroken : s.Broken) {after : List ClientEvent}
    (hrun : run step s after = some t) : t.wire = s.wire := by
  have hfinal : t.Inv ∧ t.Stopped ∧ t.wire = s.wire := by
    refine run_invariant (P := fun t => t.Inv ∧ t.Stopped ∧ t.wire = s.wire) ?_
      ⟨inv, inv.writer.stopped hbroken, rfl⟩ hrun
    rintro m e m' ⟨inv, hstopped, hwire⟩ h
    obtain ⟨hstopped', hwire'⟩ := (step_writer inv.writer inv.routing h).2 hstopped
    exact ⟨step_inv inv h, hstopped', hwire'.trans hwire⟩
  exact hfinal.2.2

/-! ### A counter that goes round -/

/-- A call that sends its frame. -/
def sentCall (n : ℕ) : List ClientEvent :=
  .begin false :: [CallEvent.checkUsable, .acquire, .lockWriter, .checkUsable, .number, .register,
    .startWrite, .writeDone, .stamp 0].map (.call n)

/-- Nothing keeps the next call from being sent. -/
structure Ready (s : ClientConnection) : Prop where
  slots : s.slots ≠ 0
  holder : s.holder = none
  writer : s.writer = true
  usable : s.usable = true
  failure : s.failure = none

theorem run_sentCall (h : s.Ready) :
    run step s (sentCall s.count) = some { s with
      exchanges := Function.update s.exchanges s.count
        { rpcId := s.nextRpcId, mayHaveSent := true, phase := .waiting 0 }
      count := s.count + 1
      slots := s.slots - 1
      wire := s.wire ++ [⟨s.count, true⟩]
      nextRpcId := s.nextRpcId + 1
      waiters := (s.nextRpcId, s.count) :: removeWaiter s.waiters s.nextRpcId } := by
  obtain ⟨hslots, hholder, hwriter, husable, hfailure⟩ := h
  simp [sentCall, run, step, stepCall, checkUsable, acquire, lockWriter, number, register,
    startWrite, writeDone, stamp, setPhase, setExchange, hslots, hholder, hwriter, husable,
    hfailure]

/-- A call that is cancelled while it waits. -/
def droppedCall (n : ℕ) : List ClientEvent :=
  sentCall n ++ [.call n .cancel, .call n .forget]

/-- The first call waits, and `n` further ones were cancelled. -/
def droppedCalls : ℕ → List ClientEvent
  | 0 => sentCall 0
  | n + 1 => droppedCalls n ++ droppedCall (n + 1)

/-- The first call still waits under its id. -/
structure FirstWaits (n : ℕ) (s : ClientConnection) : Prop where
  ready : s.Ready
  count : s.count = n + 1
  nextRpcId : s.nextRpcId = UInt64.ofNat (n + 2)
  waiters : s.waiters = [(1, 0)]
  reader : s.reader = .reading
  phase : (s.exchanges 0).phase = .waiting 0
  received : (s.exchanges 0).received = none

theorem run_droppedCall (h : s.Ready) :
    run step s (droppedCall s.count) = some { s with
      exchanges := Function.update s.exchanges s.count
        { rpcId := s.nextRpcId, mayHaveSent := true, phase := .returned none }
      count := s.count + 1
      slots := s.slots - 1 + 1
      wire := s.wire ++ [⟨s.count, true⟩]
      nextRpcId := s.nextRpcId + 1
      waiters := removeWaiter s.waiters s.nextRpcId } := by
  refine run_append.mpr ⟨_, run_sentCall h, ?_⟩
  simp [run, step, stepCall, cancel, forget, leave, finish, setPhase, setExchange, removeWaiter,
    ExchangePhase.holdsSlot, ExchangePhase.holdsWriter]

theorem FirstWaits.drop {n : ℕ} (h : s.FirstWaits n) (hid : UInt64.ofNat (n + 2) ≠ 1) :
    ∃ t, run step s (droppedCall (n + 1)) = some t ∧ t.FirstWaits (n + 1) := by
  have hrun := run_droppedCall h.ready
  rw [h.count] at hrun
  have hfirst : ∀ x, Function.update s.exchanges (n + 1) x 0 = s.exchanges 0 :=
    fun _ => Function.update_of_ne (Nat.succ_ne_zero n).symm ..
  refine ⟨_, hrun, ⟨Nat.succ_ne_zero _, h.ready.holder, h.ready.writer, h.ready.usable,
    h.ready.failure⟩, rfl, ?_, ?_, h.reader, ?_, ?_⟩
  · show s.nextRpcId + 1 = _
    rw [h.nextRpcId]
    exact (UInt64.ofNat_add (n + 2) 1).symm
  · show removeWaiter s.waiters s.nextRpcId = _
    rw [h.waiters, h.nextRpcId, removeWaiter, List.filter_cons_of_pos (by simpa using hid.symm)]
    rfl
  · simp only [hfirst]
    exact h.phase
  · simp only [hfirst]
    exact h.received

theorem run_droppedCalls : ∀ n, n + 1 < 2 ^ 64 + 1 →
    ∃ s, run step (opened 2) (droppedCalls n) = some s ∧ s.FirstWaits n := by
  intro n
  induction n with
  | zero =>
    intro _
    have hready : (opened 2).Ready := ⟨Nat.succ_ne_zero 1, rfl, rfl, rfl, rfl⟩
    exact ⟨_, run_sentCall hready, ⟨Nat.succ_ne_zero 0, rfl, rfl, rfl, rfl⟩, rfl, rfl, rfl, rfl,
      rfl, rfl⟩
  | succ n ih =>
    intro hn
    obtain ⟨s, hrun, hs⟩ := ih (by omega)
    have hid : UInt64.ofNat (n + 2) ≠ 1 := by
      intro h
      have hmod : (n + 2) % 2 ^ 64 = 1 := by
        simpa using congrArg UInt64.toNat h
      omega
    obtain ⟨t, ht, hnext⟩ := hs.drop hid
    exact ⟨t, run_append.mpr ⟨s, hrun, ht⟩, hnext⟩

/-- The reader loses the connection and tells the waiter under an id. -/
def lostUnder (rpcId : UInt64) : List ClientEvent :=
  [ReaderEvent.lose .closed, .takeWaiters, .failWaiter rpcId, .endReader].map .reader

theorem run_lostUnder {rpcId : UInt64} {call : ℕ} (hreader : s.reader = .reading)
    (hwaiters : s.waiters = [(rpcId, call)]) :
    ∃ t, run step s (lostUnder rpcId) = some t ∧ t.reader = .ended ∧
      ∀ j, j ≠ call → t.exchanges j = s.exchanges j := by
  let m : ClientConnection := { s with
    usable := false
    failure := s.failure.or (some .closed)
    waiters := []
    reader := .failing .closed [(rpcId, call)] }
  refine ⟨{ m.send call (.failed .closed) with reader := .ended }, ?_, rfl, fun j hj => ?_⟩
  · simp [lostUnder, run, step, stepReader, lose, takeWaiters, failWaiter, endReader, hreader,
      hwaiters, findWaiter, removeWaiter, m]
  · exact (send_other hj).trans rfl

/-- A call that gets the id of the first one displaces it. -/
theorem FirstWaits.displaced {n : ℕ} (h : s.FirstWaits n) (hid : UInt64.ofNat (n + 2) = 1) :
    ∃ t, run step s (sentCall (n + 1) ++ lostUnder 1) = some t ∧ t.reader = .ended ∧
      (t.exchanges 0).phase.isRegistered = true ∧ (t.exchanges 0).received = none := by
  have hsent := run_sentCall h.ready
  rw [h.count, h.nextRpcId, hid, h.waiters] at hsent
  have hne : (0 : ℕ) ≠ n + 1 := (Nat.succ_ne_zero n).symm
  obtain ⟨m, hm, hreader, hwaiters, hfirst⟩ : ∃ m, run step s (sentCall (n + 1)) = some m ∧
      m.reader = .reading ∧ m.waiters = [(1, n + 1)] ∧ m.exchanges 0 = s.exchanges 0 :=
    ⟨_, hsent, h.reader, rfl, by simp only [Function.update_of_ne hne]⟩
  obtain ⟨t, ht, hended, hothers⟩ := run_lostUnder hreader hwaiters
  refine ⟨t, run_append.mpr ⟨m, hm, ht⟩, hended, ?_⟩
  rw [hothers 0 hne, hfirst, h.phase, h.received]
  exact ⟨rfl, rfl⟩

end ClientConnection

open ClientConnection

/-- **Response routing.**  In every run of the calls and the reader of one connection:

* a call that returns a response returns one with the id that it registered, and no
  response is delivered to two calls;
* after the failure no waiter is registered and every later registration fails;
* when the reader has ended, every waiter that is not forgotten was sent its own response
  or the failure, unless another call was registered under its id;
* after a write that ended without its whole frame, nothing is written any more. -/
theorem response_routing (maxInFlight : ℕ) (events : List ClientEvent) (s : ClientConnection)
    (hrun : run ClientConnection.step (opened maxInFlight) events = some s) :
    (∀ i r, (s.exchanges i).phase.result = some (.ok r) → (s.exchanges i).rpcId = r.rpcId) ∧
    (∀ i j n r r', (s.exchanges i).received = some (.response n r) →
      (s.exchanges j).received = some (.response n r') → i = j) ∧
    (∀ failure, s.failure = some failure → s.waiters = [] ∧
      ∀ i t, s.step (.call i .register) = some t →
        t.waiters = [] ∧ (t.exchanges i).phase = .returned (some (.error failure.error))) ∧
    (∀ i, StepsMeet ClientConnection.step (fun s e => s.soleId i e = true) (opened maxInFlight)
        events →
      s.reader = .ended → (s.exchanges i).phase.isRegistered = true →
      (∃ n r, (s.exchanges i).received = some (.response n r) ∧ (s.exchanges i).rpcId = r.rpcId) ∨
        ∃ failure, s.failure = some failure ∧
          (s.exchanges i).received = some (.failed failure)) ∧
    (s.Broken → ∀ after t, run ClientConnection.step s after = some t → t.wire = s.wire) := by
  have inv := run_connectionInv hrun
  refine ⟨fun i r hr => ?_, inv.routing.once, fun failure hfailure => ⟨?_, fun i t ht => ?_⟩,
    fun i hsole hended hregistered => ?_, fun hbroken after t ht => ?_⟩
  · obtain ⟨n, hn⟩ := inv.routing.result i r hr
    exact (inv.routing.response i n r hn).1
  · exact inv.routing.failure (by rw [hfailure]; rfl)
  · have hempty := inv.routing.failure (by rw [hfailure]; rfl)
    rw [ClientConnection.step, stepCall, register] at ht
    split at ht
    · rw [hfailure] at ht
      cases ht
      exact ⟨hempty, by rw [finish, setPhase, setExchange_self]⟩
    · cases ht
  · have htracked := run_invariant_when (P := fun s => s.RoutingInv ∧ s.Tracked i)
      (fun _ _ _ hsole h hstep => ⟨step_routingInv h.1 hstep, step_tracked hsole h.1 h.2 hstep⟩)
      hsole ⟨opened_routingInv maxInFlight, opened_tracked maxInFlight i⟩ hrun
    exact htracked.2.settled inv.routing hended hregistered
  · exact run_wire_of_broken inv hbroken ht

/-- Two calls: the first is answered under its id, the second is told of the failure. -/
def sampleExchanges : List ClientEvent :=
  sentCall 0 ++ sentCall 1 ++
    [.reader (.arrive ⟨1, none, none⟩ 5), .reader .route, .reader .deliver, .call 0 .receive,
      .call 0 .forget] ++ lostUnder 2

theorem response_routing_sample :
    ∃ s, run ClientConnection.step (opened 2) sampleExchanges = some s ∧
      (s.exchanges 0).phase.result.isSome = true ∧
      ((∃ n r, (s.exchanges 1).received = some (.response n r) ∧
          (s.exchanges 1).rpcId = r.rpcId) ∨
        ∃ failure, s.failure = some failure ∧
          (s.exchanges 1).received = some (.failed failure)) := by
  obtain ⟨s, hrun, hresult, hended, hregistered⟩ := exists_of_any
    (o := run ClientConnection.step (opened 2) sampleExchanges)
    (p := fun s => (s.exchanges 0).phase.result.isSome = true ∧ s.reader.isEnded = true ∧
      (s.exchanges 1).phase.isRegistered = true) (by decide +kernel)
  exact ⟨s, hrun, hresult, (response_routing 2 _ s hrun).2.2.2.1 1
    (stepsMeet_of_check (by decide +kernel)) (ReaderPhase.eq_ended hended) hregistered⟩

/-- The ids have gone round: the first call is still registered when the call that got its
id is told of the failure, and is sent nothing. -/
theorem id_reuse_drops_waiter :
    ∃ events s, run ClientConnection.step (opened 2) events = some s ∧ s.reader = .ended ∧
      (s.exchanges 0).phase.isRegistered = true ∧
      ¬ ((∃ n r, (s.exchanges 0).received = some (.response n r) ∧
          (s.exchanges 0).rpcId = r.rpcId) ∨
        ∃ failure, s.failure = some failure ∧
          (s.exchanges 0).received = some (.failed failure)) := by
  obtain ⟨s, hrun, hfirst⟩ := run_droppedCalls (2 ^ 64 - 1) (by omega)
  obtain ⟨t, ht, hended, hregistered, hnone⟩ := hfirst.displaced (by decide)
  refine ⟨_, t, run_append.mpr ⟨s, hrun, ht⟩, hended, hregistered, ?_⟩
  rw [hnone]
  rintro (⟨n, r, h, -⟩ | ⟨failure, -, h⟩) <;> cases h

end DbProxy
