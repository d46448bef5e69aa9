/-
Dropping a flush of the coalescing queue (`flush.rs`).

`flush` and `flush_until_empty` are futures that borrow the queue, and a caller may
drop them wherever they wait for `store.save`, for instance with a timeout around a
shutdown.  `flushFuture` and `flushUntilEmptyFuture` are the same programs with the
queue shown at every call, since that is the queue the caller gets back.

* `mapCalls_flushFuture` — without the queues the futures are `flush` and
  `flushUntilEmpty`;
* `Dropped` — what the queue is at any point at which the futures wait;
* `flush_dropped_keeps_iff` — exactly when a dropped flush loses no request.
-/
import DbProxy.FlushQueue

namespace DbProxy

namespace SnapshotFlushQueue

variable {ε : Type}

/-- A flush with the queue as it stands while each `save` is awaited. -/
abbrev FlushFuture (ε : Type) : Type :=
  Interaction (SnapshotFlushQueue × SnapshotWrite) (fun _ => Except ε SnapshotWriteOutcome)
    (Option (Except (SnapshotFlushError ε) SnapshotFlushReport × SnapshotFlushQueue))

def flushLoopFuture (q : SnapshotFlushQueue) (report : SnapshotFlushReport) : ℕ → FlushFuture ε
  | 0 => .done (some (.ok { report with remaining := q.len }, q))
  | budget + 1 =>
    match q.order with
    | [] => .done (some (.ok { report with remaining := q.len }, q))
    | record :: order =>
      match q.get record with
      | none => .done none
      | some request =>
        let q := q.popped record order
        let report := { report with attempted := report.attempted + 1 }
        -- the request is in neither container while its save is awaited
        .call (q, request) fun
          | .ok (.applied _) =>
            flushLoopFuture q { report with applied := report.applied + 1 } budget
          | .ok (.duplicate _) =>
            flushLoopFuture q { report with duplicate := report.duplicate + 1 } budget
          | .error error =>
            let q := q.pushedFront record request
            .done (some (.error ⟨error, { report with remaining := q.len }⟩, q))

def flushFuture (q : SnapshotFlushQueue) (maxItems : ℕ) : FlushFuture ε :=
  flushLoopFuture q {} maxItems

def flushRoundsFuture (q : SnapshotFlushQueue) (maxItemsPerRound : ℕ)
    (total : SnapshotFlushReport) : ℕ → FlushFuture ε
  | 0 => .done (some (.ok { total with remaining := q.len }, q))
  | rounds + 1 =>
    if q.isEmpty then .done (some (.ok { total with remaining := q.len }, q))
    else
      (q.flushFuture maxItemsPerRound).bind fun
        | none => .done none
        | some (.ok report, q) =>
          flushRoundsFuture q maxItemsPerRound (total.merge report) rounds
        | some (.error error, q) =>
          .done (some (.error { error with report := total.merge error.report }, q))

def flushUntilEmptyFuture (q : SnapshotFlushQueue) (maxItemsPerRound maxRounds : ℕ) :
    FlushFuture ε :=
  let total : SnapshotFlushReport := { remaining := q.len }
  if maxItemsPerRound = 0 ∨ maxRounds = 0 then .done (some (.ok total, q))
  else flushRoundsFuture q maxItemsPerRound total maxRounds

/-! ### The futures are the programs -/

theorem mapCalls_flushLoopFuture (budget : ℕ) (q : SnapshotFlushQueue)
    (report : SnapshotFlushReport) :
    (flushLoopFuture q report budget : FlushFuture ε).mapCalls Prod.snd =
      flushLoop q report budget := by
  induction budget generalizing q report with
  | zero => rfl
  | succ budget ih =>
    rw [flushLoopFuture, flushLoop]
    cases horder : q.order with
    | nil => rfl
    | cons record order =>
      cases hget : q.get record with
      | none => simp only [hget, Interaction.mapCalls]
      | some request =>
        simp only [hget, Interaction.mapCalls]
        refine congrArg (Interaction.call request) (funext fun reply => ?_)
        rcases reply with error | revision | revision
        · rfl
        · exact ih _ _
        · exact ih _ _

theorem mapCalls_flushFuture (q : SnapshotFlushQueue) (maxItems : ℕ) :
    (q.flushFuture maxItems : FlushFuture ε).mapCalls Prod.snd = q.flush maxItems :=
  mapCalls_flushLoopFuture maxItems q {}

theorem mapCalls_flushRoundsFuture (rounds : ℕ) (q : SnapshotFlushQueue) (maxItemsPerRound : ℕ)
    (total : SnapshotFlushReport) :
    (flushRoundsFuture q maxItemsPerRound total rounds : FlushFuture ε).mapCalls Prod.snd =
      flushRounds q maxItemsPerRound total rounds := by
  induction rounds generalizing q total with
  | zero => rfl
  | succ rounds ih =>
    rw [flushRoundsFuture, flushRounds]
    split
    · rfl
    · rw [Interaction.mapCalls_bind, mapCalls_flushFuture]
      refine congrArg _ (funext fun out => ?_)
      rcases out with _ | ⟨error | report, q⟩
      · rfl
      · rfl
      · exact ih _ _

theorem mapCalls_flushUntilEmptyFuture (q : SnapshotFlushQueue)
    (maxItemsPerRound maxRounds : ℕ) :
    (q.flushUntilEmptyFuture maxItemsPerRound maxRounds : FlushFuture ε).mapCalls Prod.snd =
      q.flushUntilEmpty maxItemsPerRound maxRounds := by
  rw [flushUntilEmptyFuture, flushUntilEmpty]
  split
  · rfl
  · exact mapCalls_flushRoundsFuture _ _ _ _

/-! ### What a dropped flush leaves -/

/-- The calls of `save` behind the suspensions of a future. -/
def savesOf (calls : List ((_ : SnapshotFlushQueue × SnapshotWrite) ×
    Except ε SnapshotWriteOutcome)) : List (SaveCall ε) :=
  calls.map fun call => ⟨call.1.2, call.2⟩

/-- A flush of `q` that waits for the save of `request`, after the calls `saves`, holds
the queue `q'`: the calls drained the queue, and the next record was taken out. -/
def Dropped (q : SnapshotFlushQueue) (saves : List (SaveCall ε)) (request : SnapshotWrite)
    (q' : SnapshotFlushQueue) : Prop :=
  ∃ q₁ record order, Drained q saves none q₁ ∧ q₁.order = record :: order ∧
    q₁.get record = some request ∧ q' = q₁.popped record order

theorem Dropped.saved {q q' : SnapshotFlushQueue} {record : RecordKey} {order : List RecordKey}
    {request inFlight : SnapshotWrite} {outcome : SnapshotWriteOutcome}
    {saves : List (SaveCall ε)} (horder : q.order = record :: order)
    (hget : q.get record = some request)
    (h : Dropped (q.popped record order) saves inFlight q') :
    Dropped q (⟨request, .ok outcome⟩ :: saves) inFlight q' := by
  obtain ⟨q₁, next, rest, hdrained, hnext, hinFlight, rfl⟩ := h
  exact ⟨q₁, next, rest, .saved horder hget hdrained, hnext, hinFlight, rfl⟩

theorem flushLoopFuture_waits {budget : ℕ} {q q' : SnapshotFlushQueue}
    {report : SnapshotFlushReport} {request : SnapshotWrite}
    {calls : List ((_ : SnapshotFlushQueue × SnapshotWrite) × Except ε SnapshotWriteOutcome)}
    (h : (flushLoopFuture q report budget).Waits calls (q', request)) :
    Dropped q (savesOf calls) request q' := by
  induction budget generalizing q report calls with
  | zero => exact h.elim
  | succ budget ih =>
    rw [flushLoopFuture] at h
    split at h
    · exact h.elim
    · rename_i record order horder
      split at h
      · exact h.elim
      · rename_i request' hget
        rcases h with ⟨rfl, hcall⟩ | ⟨reply, rest, rfl, h⟩
        · -- the future waits for the save of the record at the front
          obtain ⟨rfl, rfl⟩ := Prod.mk.inj hcall
          exact ⟨q, record, order, .stop q, horder, hget, rfl⟩
        · rcases reply with error | revision | revision
          · exact h.elim
          · exact (ih h).saved horder hget
          · exact (ih h).saved horder hget

theorem flushRoundsFuture_waits {rounds maxItemsPerRound : ℕ} {q q' : SnapshotFlushQueue}
    {total : SnapshotFlushReport} {request : SnapshotWrite}
    {calls : List ((_ : SnapshotFlushQueue × SnapshotWrite) × Except ε SnapshotWriteOutcome)}
    (hq : q.InSync)
    (h : (flushRoundsFuture q maxItemsPerRound total rounds).Waits calls (q', request)) :
    Dropped q (savesOf calls) request q' := by
  induction rounds generalizing q total calls with
  | zero => exact h.elim
  | succ rounds ih =>
    rw [flushRoundsFuture] at h
    split at h
    · exact h.elim
    · rcases Interaction.waits_bind.mp h with h | ⟨first, out, second, rfl, hfirst, h⟩
      · exact flushLoopFuture_waits h
      · -- an earlier round ended, and this is a later one
        have hruns := Interaction.runs_mapCalls
          (S := fun _ => Except ε SnapshotWriteOutcome) (f := Prod.snd) hfirst
        rw [mapCalls_flushFuture] at hruns
        obtain ⟨result, q₁, rfl, hdrained, -⟩ := flushLoop_spec hq hruns
        cases result with
        | ok report =>
          obtain ⟨q₂, record, order, hrest, horder, hget, rfl⟩ := ih (hdrained.inSync hq) h
          refine ⟨q₂, record, order, ?_, horder, hget, rfl⟩
          rw [savesOf, List.map_append]
          exact hdrained.trans rfl hrest
        | error e => exact h.elim

theorem flushUntilEmptyFuture_waits {maxItemsPerRound maxRounds : ℕ}
    {q q' : SnapshotFlushQueue} {request : SnapshotWrite}
    {calls : List ((_ : SnapshotFlushQueue × SnapshotWrite) × Except ε SnapshotWriteOutcome)}
    (hq : q.InSync)
    (h : (q.flushUntilEmptyFuture maxItemsPerRound maxRounds).Waits calls (q', request)) :
    Dropped q (savesOf calls) request q' := by
  rw [flushUntilEmptyFuture] at h
  split at h
  · exact h.elim
  · exact flushRoundsFuture_waits hq h

theorem Dropped.inSync {q q' : SnapshotFlushQueue} {saves : List (SaveCall ε)}
    {request : SnapshotWrite} (hq : q.InSync) (h : Dropped q saves request q') : q'.InSync := by
  obtain ⟨q₁, record, order, hdrained, horder, -, rfl⟩ := h
  exact (hdrained.inSync hq).popped horder

/-- Every request that was pending is still pending or was saved. -/
theorem Drained.pending_or_saved {q q₁ : SnapshotFlushQueue} {saves : List (SaveCall ε)}
    {failure : Option ε} (h : Drained q saves failure q₁) : q.InSync →
      ∀ record request, q.get record = some request →
        q₁.get record = some request ∨ ∃ outcome, ⟨request, .ok outcome⟩ ∈ saves := by
  induction h with
  | stop q =>
    intro _ record request hpending
    exact Or.inl hpending
  | @saved q q₁ front order saved outcome saves failure horder hget rest ih =>
    intro hq record request hpending
    by_cases hk : record = front
    · subst hk
      rw [hget] at hpending
      obtain rfl := Option.some.inj hpending
      exact Or.inr ⟨outcome, List.mem_cons_self ..⟩
    · have hpopped : (q.popped front order).get record = some request := by
        rw [get_popped, if_neg hk]
        exact hpending
      rcases ih (hq.popped horder) record request hpopped with h | ⟨outcome', h⟩
      · exact Or.inl h
      · exact Or.inr ⟨outcome', List.mem_cons_of_mem _ h⟩
  | failed horder hget =>
    intro _ record request hpending
    exact Or.inl (by rw [get_pushedFront_popped hget]; exact hpending)

/-- A record that was saved is pending no more. -/
theorem Drained.get_saved {q q₁ : SnapshotFlushQueue} {saves : List (SaveCall ε)}
    {failure : Option ε} (h : Drained q saves failure q₁) : q.InSync →
      ∀ call ∈ saves, call.accepted = true → q₁.get call.1.record = none := by
  intro hq call hcall haccepted
  rw [h.get_eq hq]
  -- a replay of saves alone never makes a record pending again
  have hnone : ∀ (later : List (SaveCall ε)) (m : RecordKey → Option SnapshotWrite)
      (record : RecordKey), m record = none →
        (later.map QueueEvent.save).foldl QueueEvent.replay m record = none := by
    intro later
    induction later with
    | nil =>
      intro m record hm
      exact hm
    | cons next later ih =>
      intro m record hm
      refine ih _ record ?_
      simp only [QueueEvent.replay]
      split
      · rw [Function.update_apply]
        split
        · rfl
        · exact hm
      · exact hm
  obtain ⟨before, after, rfl⟩ := List.append_of_mem hcall
  rw [List.map_append, List.foldl_append, List.map_cons, List.foldl_cons]
  refine hnone after _ _ ?_
  rw [QueueEvent.replay, if_pos haccepted, Function.update_self]

/-- The request is pending in `q'` as it was, or the store completed its save: one that
was answered, or the one in flight when the future was dropped (`landed`). -/
def KeptOrSaved (q : SnapshotFlushQueue) (saves : List (SaveCall ε)) (inFlight : SnapshotWrite)
    (landed : Bool) (q' : SnapshotFlushQueue) : Prop :=
  ∀ record request, q.get record = some request →
    q'.get record = some request ∨ (∃ outcome, ⟨request, .ok outcome⟩ ∈ saves) ∨
      (landed = true ∧ inFlight = request)

theorem Dropped.keptOrSaved_iff {q q' : SnapshotFlushQueue} {saves : List (SaveCall ε)}
    {inFlight : SnapshotWrite} {landed : Bool} (hq : q.InSync)
    (h : Dropped q saves inFlight q') : KeptOrSaved q saves inFlight landed q' ↔ landed = true := by
  obtain ⟨q₁, front, order, hdrained, horder, hget, rfl⟩ := h
  have hq₁ : q₁.InSync := hdrained.inSync hq
  have hown : inFlight.record = front := hq₁.own front inFlight hget
  constructor
  · intro hkept
    -- the record in flight was pending before the call
    have hpending : q.get front = some inFlight := by
      rw [← hdrained.kept hq front (horder ▸ List.mem_cons_self ..)]
      exact hget
    rcases hkept front inFlight hpending with hstill | ⟨outcome, hsaved⟩ | ⟨hlanded, -⟩
    · rw [get_popped, if_pos rfl] at hstill
      cases hstill
    · have hnone := hdrained.get_saved hq _ hsaved rfl
      rw [hown, hget] at hnone
      cases hnone
    · exact hlanded
  · intro hlanded record request hpending
    rcases hdrained.pending_or_saved hq record request hpending with hstill | hsaved
    · by_cases hk : record = front
      · subst hk
        exact Or.inr (Or.inr ⟨hlanded, Option.some.inj (hget.symm.trans hstill)⟩)
      · refine Or.inl ?_
        rw [get_popped, if_neg hk]
        exact hstill
    · exact Or.inr (Or.inl hsaved)

/-! ### Queues whose flushes may be dropped -/

/-- The queues a caller can hold: new, after an `enqueue`, after a flush that ended and
after a flush that was dropped while it waited for a save. -/
inductive Live (ε : Type) : SnapshotFlushQueue → Prop
  | new : Live ε {}
  | enqueued {q q' : SnapshotFlushQueue} {request : SnapshotWrite} {replaced : Bool}
      (h : Live ε q) (hq : q.enqueue request = .ok (replaced, q')) : Live ε q'
  | flushed {q q' : SnapshotFlushQueue} {maxItems : ℕ} {saves : List (SaveCall ε)}
      {result : Except (SnapshotFlushError ε) SnapshotFlushReport} (h : Live ε q)
      (hq : (q.flush maxItems).Runs saves (some (result, q'))) : Live ε q'
  | flushedUntilEmpty {q q' : SnapshotFlushQueue} {maxItemsPerRound maxRounds : ℕ}
      {saves : List (SaveCall ε)} {result : Except (SnapshotFlushError ε) SnapshotFlushReport}
      (h : Live ε q)
      (hq : (q.flushUntilEmpty maxItemsPerRound maxRounds).Runs saves (some (result, q'))) :
      Live ε q'
  | flushDropped {q q' : SnapshotFlushQueue} {maxItems : ℕ} {request : SnapshotWrite}
      {calls : List ((_ : SnapshotFlushQueue × SnapshotWrite) × Except ε SnapshotWriteOutcome)}
      (h : Live ε q) (hq : (q.flushFuture maxItems).Waits calls (q', request)) : Live ε q'
  | flushUntilEmptyDropped {q q' : SnapshotFlushQueue} {maxItemsPerRound maxRounds : ℕ}
      {request : SnapshotWrite}
      {calls : List ((_ : SnapshotFlushQueue × SnapshotWrite) × Except ε SnapshotWriteOutcome)}
      (h : Live ε q)
      (hq : (q.flushUntilEmptyFuture maxItemsPerRound maxRounds).Waits calls (q', request)) :
      Live ε q'

theorem Live.inSync {q : SnapshotFlushQueue} (h : Live ε q) : q.InSync := by
  induction h with
  | new => exact inSync_empty
  | enqueued _ hq ih => exact (ih.enqueue hq).1
  | flushed _ hq ih =>
    obtain ⟨result, q', hout, -, heffect⟩ := flush_spec ih hq
    obtain ⟨rfl, rfl⟩ := Prod.mk.inj (Option.some.inj hout)
    exact heffect.inSync
  | flushedUntilEmpty _ hq ih =>
    obtain ⟨result, q', hout, -, heffect⟩ := flushUntilEmpty_spec ih hq
    obtain ⟨rfl, rfl⟩ := Prod.mk.inj (Option.some.inj hout)
    exact heffect.inSync
  | flushDropped _ hq ih => exact (flushLoopFuture_waits hq).inSync ih
  | flushUntilEmptyDropped _ hq ih => exact (flushUntilEmptyFuture_waits ih hq).inSync ih

/-- **A dropped flush loses exactly the request in flight.**  Wherever `flush` or
`flush_until_empty` is dropped while it waits for `store.save`, every request that was
pending before the call is still pending or saved if and only if the store completed
the save it was waiting for. -/
theorem flush_dropped_keeps_iff {q : SnapshotFlushQueue} (h : Live ε q) :
    (∀ maxItems calls q' inFlight landed,
      (q.flushFuture maxItems : FlushFuture ε).Waits calls (q', inFlight) →
        (KeptOrSaved q (savesOf calls) inFlight landed q' ↔ landed = true)) ∧
      ∀ maxItemsPerRound maxRounds calls q' inFlight landed,
        (q.flushUntilEmptyFuture maxItemsPerRound maxRounds : FlushFuture ε).Waits calls
            (q', inFlight) →
          (KeptOrSaved q (savesOf calls) inFlight landed q' ↔ landed = true) := by
  refine ⟨fun maxItems calls q' inFlight landed hwaits => ?_,
    fun maxItemsPerRound maxRounds calls q' inFlight landed hwaits => ?_⟩
  · exact (flushLoopFuture_waits hwaits).keptOrSaved_iff h.inSync
  · exact (flushUntilEmptyFuture_waits h.inSync hwaits).keptOrSaved_iff h.inSync

/-- The queue of one request waits for its save. -/
theorem refusedQueue_waits :
    (refusedQueue.flushFuture 1 : FlushFuture String).Waits []
      (refusedQueue.popped refusedWrite.record [], refusedWrite) := Or.inl ⟨rfl, rfl⟩

theorem refusedQueue_live : Live String refusedQueue := by
  have henqueue : enqueue {} refusedWrite = .ok (false, refusedQueue) := rfl
  exact .enqueued .new henqueue

theorem flush_dropped_keeps_landed :
    KeptOrSaved refusedQueue (savesOf ([] : List ((_ : SnapshotFlushQueue × SnapshotWrite) ×
      Except String SnapshotWriteOutcome))) refusedWrite true
      (refusedQueue.popped refusedWrite.record []) :=
  ((flush_dropped_keeps_iff refusedQueue_live).1 1 _ _ _ true refusedQueue_waits).mpr rfl

/-- Dropped before the store completed the save, the request is gone. -/
theorem flush_dropped_loses :
    ¬ ∀ q, Live String q → ∀ maxItems calls q' inFlight landed,
      (q.flushFuture maxItems : FlushFuture String).Waits calls (q', inFlight) →
        KeptOrSaved q (savesOf calls) inFlight landed q' := by
  intro h
  have hkept := h _ refusedQueue_live 1 _ _ _ false refusedQueue_waits
  rcases hkept refusedWrite.record refusedWrite (by decide) with
    hstill | ⟨outcome, hsaved⟩ | hlanded
  · rw [get_popped, if_pos rfl] at hstill
    cases hstill
  · exact absurd hsaved (List.not_mem_nil)
  · exact absurd hlanded.1 (by decide)

end SnapshotFlushQueue

end DbProxy
