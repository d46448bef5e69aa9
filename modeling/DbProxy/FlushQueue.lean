/-
The coalescing flush queue for ordinary snapshots (`flush.rs`).

`SnapshotFlushQueue` keeps the order of the records in a deque and their latest
requests in a map.  `flush` and `flushUntilEmpty` are programs that call the
store's `save`, one call per attempt; the store may answer anything.  `none`
stands for the failed `expect` on a record without a pending request.

* `InSync` — the two containers hold the same records, none of them twice;
* `Drained` — what a flush does to the queue, save by save;
* `flushQueue_exact` — what every sequence of calls leaves in the queue, passes
  to the store and reports.
-/
import DbProxy.CoreTypes
import DbProxy.Interaction
import DbProxy.KeyedTable
import Mathlib.Data.List.Induction

namespace DbProxy

open Text

/-- `SnapshotFlushReport`. -/
structure SnapshotFlushReport where
  attempted : ℕ := 0
  applied : ℕ := 0
  duplicate : ℕ := 0
  remaining : ℕ := 0
deriving DecidableEq, Repr

def SnapshotFlushReport.merge (self other : SnapshotFlushReport) : SnapshotFlushReport where
  attempted := self.attempted + other.attempted
  applied := self.applied + other.applied
  duplicate := self.duplicate + other.duplicate
  remaining := other.remaining

structure SnapshotFlushError (ε : Type) where
  error : ε
  report : SnapshotFlushReport

structure SnapshotFlushQueue where
  order : List RecordKey := []
  pending : KeyedTable (Prod.fst : RecordKey × SnapshotWrite → RecordKey) := .empty

namespace SnapshotFlushQueue

/-- `HashMap::get`. -/
def get (q : SnapshotFlushQueue) (record : RecordKey) : Option SnapshotWrite :=
  (q.pending.lookup record).map Prod.snd

/-- `HashMap::insert`, which replaces the request of a record that is there. -/
def insertPending (pending : KeyedTable (Prod.fst : RecordKey × SnapshotWrite → RecordKey))
    (record : RecordKey) (request : SnapshotWrite) :
    KeyedTable (Prod.fst : RecordKey × SnapshotWrite → RecordKey) :=
  pending.upsert (record, request) (fun old => (old.1, request)) fun _ => rfl

def len (q : SnapshotFlushQueue) : ℕ := q.pending.rows.length

def isEmpty (q : SnapshotFlushQueue) : Bool := q.pending.rows.isEmpty

def enqueue (q : SnapshotFlushQueue) (request : SnapshotWrite) :
    Except StoreError (Bool × SnapshotFlushQueue) :=
  if blank request.requestId then .error .emptyRequestId
  else if blank request.record.ns then .error (.invalidKey "namespace is empty")
  else if blank request.record.key then .error (.invalidKey "key is empty")
  else if request.expectedRevision.isSome then
    .error (.queuedSnapshotRequiresUnconditionalWrite request.record)
  else
    let replaced := (q.get request.record).isSome
    .ok (replaced,
      { order := if replaced then q.order else q.order ++ [request.record]
        pending := insertPending q.pending request.record request })

/-- The queue without its first record, whose `pending.remove` found `request`. -/
def popped (q : SnapshotFlushQueue) (record : RecordKey) (order : List RecordKey) :
    SnapshotFlushQueue where
  order := order
  pending := q.pending.delete (·.1 = record)

/-- The queue with a failed request back at its front. -/
def pushedFront (q : SnapshotFlushQueue) (record : RecordKey) (request : SnapshotWrite) :
    SnapshotFlushQueue where
  order := record :: q.order
  pending := insertPending q.pending record request

variable {ε : Type}

/-- A flush calls `save`; `none` is the panic of its `expect`. -/
abbrev FlushProgram (ε : Type) : Type :=
  Interaction SnapshotWrite (fun _ => Except ε SnapshotWriteOutcome)
    (Option (Except (SnapshotFlushError ε) SnapshotFlushReport × SnapshotFlushQueue))

/-- The `while` loop of `flush`, with `budget` attempts left. -/
def flushLoop (q : SnapshotFlushQueue) (report : SnapshotFlushReport) : ℕ → FlushProgram ε
  | 0 => .done (some (.ok { report with remaining := q.len }, q))
  | budget + 1 =>
    match q.order with
    | [] => .done (some (.ok { report with remaining := q.len }, q))
    | record :: order =>
      match q.get record with
      | none => .done none
      | some request =>
        let q := q.popped record order
        let report := { report with attempted := report.attempted + 1 }
        .call request fun
          | .ok (.applied _) => flushLoop q { report with applied := report.applied + 1 } budget
          | .ok (.duplicate _) =>
            flushLoop q { report with duplicate := report.duplicate + 1 } budget
          | .error error =>
            let q := q.pushedFront record request
            .done (some (.error ⟨error, { report with remaining := q.len }⟩, q))

def flush (q : SnapshotFlushQueue) (maxItems : ℕ) : FlushProgram ε := flushLoop q {} maxItems

/-- The `for` loop of `flush_until_empty`, with `rounds` rounds left. -/
def flushRounds (q : SnapshotFlushQueue) (maxItemsPerRound : ℕ) (total : SnapshotFlushReport) :
    ℕ → FlushProgram ε
  | 0 => .done (some (.ok { total with remaining := q.len }, q))
  | rounds + 1 =>
    if q.isEmpty then .done (some (.ok { total with remaining := q.len }, q))
    else
      (q.flush maxItemsPerRound).bind fun
        | none => .done none
        | some (.ok report, q) => flushRounds q maxItemsPerRound (total.merge report) rounds
        | some (.error error, q) =>
          .done (some (.error { error with report := total.merge error.report }, q))

def flushUntilEmpty (q : SnapshotFlushQueue) (maxItemsPerRound maxRounds : ℕ) : FlushProgram ε :=
  let total : SnapshotFlushReport := { remaining := q.len }
  if maxItemsPerRound = 0 ∨ maxRounds = 0 then .done (some (.ok total, q))
  else flushRounds q maxItemsPerRound total maxRounds

/-! ### The two containers -/

/-- The deque and the map hold the same records, without repetition, and every
request is kept under its own record. -/
structure InSync (q : SnapshotFlushQueue) : Prop where
  nodup : q.order.Nodup
  same : ∀ record, record ∈ q.order ↔ (q.get record).isSome
  own : ∀ record request, q.get record = some request → request.record = record

theorem get_insertPending {q : SnapshotFlushQueue} {order : List RecordKey} {record k : RecordKey}
    {request : SnapshotWrite} :
    get ⟨order, insertPending q.pending record request⟩ k =
      if k = record then some request else q.get k := by
  rw [get, insertPending, KeyedTable.lookup_upsert]
  by_cases hk : k = record
  · rw [if_pos hk, if_pos hk]
    cases q.pending.lookup k <;> rfl
  · rw [if_neg hk, if_neg hk]
    rfl

theorem get_popped {q : SnapshotFlushQueue} {order : List RecordKey} {record k : RecordKey} :
    (q.popped record order).get k = if k = record then none else q.get k := by
  rw [get, popped, KeyedTable.lookup_delete, get]
  cases hrow : q.pending.lookup k with
  | none => simp
  | some row =>
    have hkey : row.1 = k := KeyedTable.key_of_lookup hrow
    by_cases hk : k = record <;> simp [Option.filter, hkey, hk]

theorem get_pushedFront {q : SnapshotFlushQueue} {record k : RecordKey} {request : SnapshotWrite} :
    (q.pushedFront record request).get k = if k = record then some request else q.get k :=
  get_insertPending

/-- The map has as many entries as the deque. -/
theorem InSync.len_eq {q : SnapshotFlushQueue} (h : q.InSync) : q.len = q.order.length := by
  have hkeys : ∀ record, record ∈ q.pending.rows.map Prod.fst ↔ record ∈ q.order := by
    intro record
    rw [h.same, get, Option.isSome_map, Option.isSome_iff_exists]
    constructor
    · intro hmem
      obtain ⟨row, hrow, rfl⟩ := List.mem_map.mp hmem
      exact ⟨row, KeyedTable.lookup_of_mem hrow⟩
    · rintro ⟨row, hrow⟩
      obtain ⟨hmem, hkey⟩ := KeyedTable.lookup_eq_some.mp hrow
      exact List.mem_map.mpr ⟨row, hmem, hkey⟩
  have hperm := (List.perm_ext_iff_of_nodup q.pending.nodup h.nodup).mpr hkeys
  rw [len, ← hperm.length_eq, List.length_map]

theorem inSync_empty : InSync {} where
  nodup := List.nodup_nil
  same record := by simp [get]
  own record request h := by simp [get] at h

theorem InSync.enqueue {q q' : SnapshotFlushQueue} {request : SnapshotWrite} {replaced : Bool}
    (h : q.InSync) (hq : q.enqueue request = .ok (replaced, q')) : q'.InSync ∧
      q'.get = Function.update q.get request.record (some request) := by
  have hget : q'.get = Function.update q.get request.record (some request) ∧
      q'.order = if (q.get request.record).isSome then q.order
        else q.order ++ [request.record] := by
    rw [SnapshotFlushQueue.enqueue] at hq
    iterate 4
      split at hq
      · cases hq
    obtain ⟨rfl, rfl⟩ := Prod.mk.inj (Except.ok.inj hq)
    refine ⟨funext fun k => ?_, rfl⟩
    rw [get_insertPending, Function.update_apply]
  obtain ⟨hget, horder⟩ := hget
  refine ⟨⟨?_, ?_, ?_⟩, hget⟩
  · rw [horder]
    split
    · exact h.nodup
    · rename_i hnew
      refine List.nodup_append.mpr ⟨h.nodup, List.nodup_singleton _, ?_⟩
      rintro a ha b hb rfl
      rw [List.mem_singleton] at hb
      exact hnew ((h.same _).mp (hb ▸ ha))
  · intro k
    rw [horder, hget, Function.update_apply]
    by_cases hk : k = request.record
    · subst hk
      split
      · rename_i hold
        simpa using (h.same _).mpr hold
      · simp
    · have := h.same k
      split <;> simp [hk, this]
  · intro k r hr
    rw [hget, Function.update_apply] at hr
    split at hr
    · rename_i hk
      rw [← Option.some.inj hr, hk]
    · exact h.own k r hr

theorem InSync.popped {q : SnapshotFlushQueue} {record : RecordKey} {order : List RecordKey}
    (h : q.InSync) (horder : q.order = record :: order) : (q.popped record order).InSync := by
  have hnodup := h.nodup
  rw [horder, List.nodup_cons] at hnodup
  refine ⟨hnodup.2, fun k => ?_, fun k r hr => ?_⟩
  · show k ∈ order ↔ _
    rw [get_popped]
    have hsame := h.same k
    rw [horder, List.mem_cons] at hsame
    by_cases hk : k = record
    · subst hk
      simpa using hnodup.1
    · simpa [hk] using hsame
  · rw [get_popped] at hr
    split at hr
    · cases hr
    · exact h.own k r hr

/-- A failed request goes back where it was. -/
theorem get_pushedFront_popped {q : SnapshotFlushQueue} {record : RecordKey}
    {order : List RecordKey} {request : SnapshotWrite} (hget : q.get record = some request) :
    ((q.popped record order).pushedFront record request).get = q.get := by
  funext k
  rw [get_pushedFront, get_popped]
  split
  · rename_i hk
    rw [hk, hget]
  · rfl

theorem InSync.of_same {q q' : SnapshotFlushQueue} (h : q.InSync) (horder : q'.order = q.order)
    (hget : q'.get = q.get) : q'.InSync where
  nodup := by rw [horder]; exact h.nodup
  same := by rw [horder, hget]; exact h.same
  own := by rw [hget]; exact h.own

/-! ### What a flush does -/

/-- One call of `save` with its answer. -/
abbrev SaveCall (ε : Type) : Type := (_ : SnapshotWrite) × Except ε SnapshotWriteOutcome

def SaveCall.accepted (call : SaveCall ε) : Bool := call.2.isOk

def SaveCall.applied (call : SaveCall ε) : Bool :=
  match call.2 with
  | .ok (.applied _) => true
  | _ => false

def SaveCall.duplicate (call : SaveCall ε) : Bool :=
  match call.2 with
  | .ok (.duplicate _) => true
  | _ => false

/-- The report of some save calls. -/
def counted (saves : List (SaveCall ε)) (remaining : ℕ) : SnapshotFlushReport where
  attempted := saves.length
  applied := saves.countP SaveCall.applied
  duplicate := saves.countP SaveCall.duplicate
  remaining := remaining

/-- The queue `q` was drained by `saves` down to `q'`, from the front and one record
at a time, until a save failed or the loop ended. -/
inductive Drained : SnapshotFlushQueue → List (SaveCall ε) → Option ε → SnapshotFlushQueue → Prop
  | stop (q : SnapshotFlushQueue) : Drained q [] none q
  | saved {q q' : SnapshotFlushQueue} {record : RecordKey} {order : List RecordKey}
      {request : SnapshotWrite} {outcome : SnapshotWriteOutcome} {saves : List (SaveCall ε)}
      {failure : Option ε} (horder : q.order = record :: order)
      (hget : q.get record = some request)
      (rest : Drained (q.popped record order) saves failure q') :
      Drained q (⟨request, .ok outcome⟩ :: saves) failure q'
  | failed {q : SnapshotFlushQueue} {record : RecordKey} {order : List RecordKey}
      {request : SnapshotWrite} {error : ε} (horder : q.order = record :: order)
      (hget : q.get record = some request) :
      Drained q [⟨request, .error error⟩] (some error)
        ((q.popped record order).pushedFront record request)

theorem Drained.inSync {q q' : SnapshotFlushQueue} {saves : List (SaveCall ε)}
    {failure : Option ε} (h : Drained q saves failure q') : q.InSync → q'.InSync := by
  induction h with
  | stop q => exact id
  | saved horder hget rest ih =>
    intro hq
    exact ih (hq.popped horder)
  | failed horder hget =>
    intro hq
    exact hq.of_same horder.symm (get_pushedFront_popped hget)

theorem Drained.trans {q q₁ q₂ : SnapshotFlushQueue} {first : List (SaveCall ε)}
    {failed : Option ε} (h : Drained q first failed q₁) :
    failed = none → ∀ {second failure}, Drained q₁ second failure q₂ →
      Drained q (first ++ second) failure q₂ := by
  induction h with
  | stop q =>
    intro _ second failure h
    exact h
  | saved horder hget rest ih =>
    intro hnone second failure h
    exact .saved horder hget (ih hnone h)
  | failed horder hget =>
    intro hnone
    cases hnone

/-- How a flush ended. -/
def failureOf (result : Except (SnapshotFlushError ε) SnapshotFlushReport) : Option ε :=
  match result with
  | .ok _ => none
  | .error e => some e.error

def reportOf (result : Except (SnapshotFlushError ε) SnapshotFlushReport) : SnapshotFlushReport :=
  match result with
  | .ok report => report
  | .error e => e.report

theorem merge_counted_cons (report : SnapshotFlushReport) (call : SaveCall ε)
    (saves : List (SaveCall ε)) (n : ℕ) :
    report.merge (counted (call :: saves) n) =
      (report.merge (counted [call] 0)).merge (counted saves n) := by
  rw [counted, counted, counted, SnapshotFlushReport.merge, SnapshotFlushReport.merge,
    SnapshotFlushReport.merge, List.countP_cons, List.countP_cons, List.countP_singleton,
    List.countP_singleton]
  simp only [List.length_cons, List.length_nil]
  congr 1 <;> omega

theorem merge_counted_append (report : SnapshotFlushReport) (first second : List (SaveCall ε))
    (n m : ℕ) :
    (report.merge (counted first n)).merge (counted second m) =
      report.merge (counted (first ++ second) m) := by
  simp only [counted, SnapshotFlushReport.merge, List.countP_append, List.length_append]
  congr 1 <;> omega

theorem flushLoop_spec {budget : ℕ} {q : SnapshotFlushQueue} {report : SnapshotFlushReport}
    {saves : List (SaveCall ε)}
    {out : Option (Except (SnapshotFlushError ε) SnapshotFlushReport × SnapshotFlushQueue)}
    (hq : q.InSync) (h : (flushLoop q report budget).Runs saves out) :
    ∃ result q', out = some (result, q') ∧ Drained q saves (failureOf result) q' ∧
      reportOf result = report.merge (counted saves q'.len) := by
  induction budget generalizing q report saves with
  | zero =>
    obtain ⟨rfl, rfl⟩ := h
    exact ⟨_, _, rfl, .stop q, by simp [reportOf, counted, SnapshotFlushReport.merge]⟩
  | succ budget ih =>
    rw [flushLoop] at h
    split at h
    · obtain ⟨rfl, rfl⟩ := h
      exact ⟨_, _, rfl, .stop q, by simp [reportOf, counted, SnapshotFlushReport.merge]⟩
    · rename_i record order horder
      -- the record at the front has a pending request
      obtain ⟨request, hget⟩ := Option.isSome_iff_exists.mp
        ((hq.same record).mp (horder ▸ List.mem_cons_self ..))
      simp only [hget] at h
      obtain ⟨reply, rest, rfl, h⟩ := h
      rcases reply with error | revision | revision
      · obtain ⟨rfl, rfl⟩ := h
        exact ⟨_, _, rfl, .failed horder hget, rfl⟩
      · obtain ⟨result, q', rfl, hdrained, hreport⟩ := ih (hq.popped horder) h
        refine ⟨result, q', rfl, .saved horder hget hdrained, ?_⟩
        rw [hreport, merge_counted_cons]
        rfl
      · obtain ⟨result, q', rfl, hdrained, hreport⟩ := ih (hq.popped horder) h
        refine ⟨result, q', rfl, .saved horder hget hdrained, ?_⟩
        rw [hreport, merge_counted_cons]
        rfl

theorem flushRounds_spec {rounds maxItemsPerRound : ℕ} {q : SnapshotFlushQueue}
    {total : SnapshotFlushReport} {saves : List (SaveCall ε)}
    {out : Option (Except (SnapshotFlushError ε) SnapshotFlushReport × SnapshotFlushQueue)}
    (hq : q.InSync) (h : (flushRounds q maxItemsPerRound total rounds).Runs saves out) :
    ∃ result q', out = some (result, q') ∧ Drained q saves (failureOf result) q' ∧
      reportOf result = total.merge (counted saves q'.len) := by
  induction rounds generalizing q total saves with
  | zero =>
    obtain ⟨rfl, rfl⟩ := h
    exact ⟨_, _, rfl, .stop q, by simp [reportOf, counted, SnapshotFlushReport.merge]⟩
  | succ rounds ih =>
    rw [flushRounds] at h
    split at h
    · obtain ⟨rfl, rfl⟩ := h
      exact ⟨_, _, rfl, .stop q, by simp [reportOf, counted, SnapshotFlushReport.merge]⟩
    · obtain ⟨first, out₁, second, rfl, hfirst, h⟩ := Interaction.runs_bind.mp h
      obtain ⟨result, q₁, rfl, hdrained, hreport⟩ := flushLoop_spec hq hfirst
      have hzero : ∀ r : SnapshotFlushReport, SnapshotFlushReport.merge {} r = r := by
        intro r
        simp [SnapshotFlushReport.merge]
      cases result with
      | ok report =>
        obtain ⟨result, q', rfl, hrest, htotal⟩ := ih (hdrained.inSync hq) h
        refine ⟨result, q', rfl, hdrained.trans rfl hrest, ?_⟩
        rw [htotal, show report = counted first q₁.len from hreport.trans (hzero _),
          merge_counted_append]
      | error e =>
        obtain ⟨rfl, rfl⟩ := h
        refine ⟨_, q₁, rfl, by rw [List.append_nil]; exact hdrained, ?_⟩
        show total.merge e.report = _
        rw [show e.report = counted first q₁.len from hreport.trans (hzero _), List.append_nil]

/-- The effect of one flush call with the given saves on a queue, and what it reports. -/
structure FlushEffect (q : SnapshotFlushQueue) (saves : List (SaveCall ε))
    (result : Except (SnapshotFlushError ε) SnapshotFlushReport) (q' : SnapshotFlushQueue) :
    Prop where
  inSync : q'.InSync
  /-- The saves got the pending requests of the first records, each of them once. -/
  requests : saves.map (fun call => some call.1) = (q.order.take saves.length).map q.get
  /-- The saved records left the queue, the others kept their places. -/
  order : q'.order = q.order.drop (saves.countP SaveCall.accepted)
  kept : ∀ record ∈ q'.order, q'.get record = q.get record
  /-- A failed request is at the front again, and was the last one tried. -/
  failed : ∀ e, failureOf result = some e → ∃ before request,
    saves = before ++ [⟨request, .error e⟩] ∧ (∀ call ∈ before, call.accepted = true) ∧
      q'.order.head? = some request.record ∧ q'.get request.record = some request
  succeeded : failureOf result = none → ∀ call ∈ saves, call.accepted = true
  attempted : (reportOf result).attempted = saves.length
  balance : (reportOf result).attempted = (reportOf result).applied +
    (reportOf result).duplicate + if (failureOf result).isSome then 1 else 0
  remaining : (reportOf result).remaining = q'.len

theorem Drained.requests {q q' : SnapshotFlushQueue} {saves : List (SaveCall ε)}
    {failure : Option ε} (h : Drained q saves failure q') : q.InSync →
      saves.map (fun call => some call.1) = (q.order.take saves.length).map q.get := by
  induction h with
  | stop q =>
    intro _
    rfl
  | @saved q q' record order request outcome saves failure horder hget rest ih =>
    intro hq
    have hnodup := hq.nodup
    rw [horder, List.nodup_cons] at hnodup
    rw [List.map_cons, List.length_cons, horder, List.take_succ_cons, List.map_cons, hget,
      ih (hq.popped horder)]
    refine congrArg _ (List.map_congr_left fun k hk => ?_)
    have hk : k ∈ order := List.mem_of_mem_take hk
    rw [get_popped, if_neg (ne_of_mem_of_not_mem hk hnodup.1)]
  | failed horder hget =>
    intro hq
    simp [horder, hget]

theorem Drained.order_eq {q q' : SnapshotFlushQueue} {saves : List (SaveCall ε)}
    {failure : Option ε} (h : Drained q saves failure q') :
    q'.order = q.order.drop (saves.countP SaveCall.accepted) := by
  induction h with
  | stop q => rfl
  | saved horder hget rest ih =>
    rw [ih, horder, List.countP_cons_of_pos rfl, List.drop_succ_cons]
    rfl
  | failed horder hget =>
    rw [horder]
    rfl

/-- What happens to a queue: an accepted request or a call of `save`. -/
inductive QueueEvent (ε : Type)
  | enqueued (request : SnapshotWrite)
  | save (call : SaveCall ε)

/-- The effect of one event on the pending requests. -/
def QueueEvent.replay (m : RecordKey → Option SnapshotWrite) :
    QueueEvent ε → RecordKey → Option SnapshotWrite
  | .enqueued request => Function.update m request.record (some request)
  | .save call => if call.accepted then Function.update m call.1.record none else m

theorem Drained.get_eq {q q' : SnapshotFlushQueue} {saves : List (SaveCall ε)}
    {failure : Option ε} (h : Drained q saves failure q') : q.InSync →
      q'.get = (saves.map QueueEvent.save).foldl QueueEvent.replay q.get := by
  induction h with
  | stop q =>
    intro _
    rfl
  | @saved q q' record order request outcome saves failure horder hget rest ih =>
    intro hq
    have hpop : (q.popped record order).get = Function.update q.get request.record none := by
      funext k
      rw [get_popped, Function.update_apply, hq.own record request hget]
    rw [ih (hq.popped horder), hpop]
    rfl
  | failed horder hget =>
    intro hq
    exact get_pushedFront_popped hget

theorem Drained.kept {q q' : SnapshotFlushQueue} {saves : List (SaveCall ε)}
    {failure : Option ε} (h : Drained q saves failure q') : q.InSync →
      ∀ record ∈ q'.order, q'.get record = q.get record := by
  induction h with
  | stop q =>
    intro _ record _
    rfl
  | @saved q q' record order request outcome saves failure horder hget rest ih =>
    intro hq k hk
    have hnodup := hq.nodup
    rw [horder, List.nodup_cons] at hnodup
    have hmem : k ∈ order := by
      rw [rest.order_eq] at hk
      exact List.mem_of_mem_drop hk
    rw [ih (hq.popped horder) k hk, get_popped, if_neg (ne_of_mem_of_not_mem hmem hnodup.1)]
  | failed horder hget =>
    intro hq k _
    rw [get_pushedFront_popped hget]

theorem Drained.failed_front {q q' : SnapshotFlushQueue} {saves : List (SaveCall ε)}
    {failure : Option ε} (h : Drained q saves failure q') : q.InSync →
      ∀ e, failure = some e → ∃ before request,
        saves = before ++ [⟨request, .error e⟩] ∧ (∀ call ∈ before, call.accepted = true) ∧
          q'.order.head? = some request.record ∧ q'.get request.record = some request := by
  induction h with
  | stop q =>
    intro _ e he
    cases he
  | @saved q q' record order request outcome saves failure horder hget rest ih =>
    intro hq e he
    obtain ⟨before, request', rfl, hbefore, hfront⟩ := ih (hq.popped horder) e he
    refine ⟨⟨request, .ok outcome⟩ :: before, request', rfl, ?_, hfront⟩
    exact List.forall_mem_cons.mpr ⟨rfl, hbefore⟩
  | @failed q record order request error horder hget =>
    intro hq e he
    obtain rfl := Option.some.inj he
    have hown : request.record = record := hq.own record request hget
    refine ⟨[], request, rfl, List.forall_mem_nil _, ?_, ?_⟩
    · rw [hown]
      rfl
    · rw [get_pushedFront_popped hget, hown, hget]

theorem Drained.succeeded {q q' : SnapshotFlushQueue} {saves : List (SaveCall ε)}
    {failure : Option ε} (h : Drained q saves failure q') : failure = none →
      ∀ call ∈ saves, call.accepted = true := by
  induction h with
  | stop q =>
    intro _ call hcall
    cases hcall
  | saved horder hget rest ih =>
    intro hnone
    exact List.forall_mem_cons.mpr ⟨rfl, ih hnone⟩
  | failed horder hget =>
    intro hnone
    cases hnone

theorem Drained.balance {q q' : SnapshotFlushQueue} {saves : List (SaveCall ε)}
    {failure : Option ε} (h : Drained q saves failure q') :
    saves.length = saves.countP SaveCall.applied + saves.countP SaveCall.duplicate +
      if failure.isSome then 1 else 0 := by
  induction h with
  | stop q => rfl
  | @saved q q' record order request outcome saves failure horder hget rest ih =>
    rw [List.length_cons, List.countP_cons, List.countP_cons, ih]
    cases outcome <;> simp only [SaveCall.applied, SaveCall.duplicate] <;> simp <;> omega
  | failed horder hget => simp [SaveCall.applied, SaveCall.duplicate]

/-- **Effect of a flush**, from what its loop does. -/
theorem Drained.effect {q q' : SnapshotFlushQueue} {saves : List (SaveCall ε)}
    {result : Except (SnapshotFlushError ε) SnapshotFlushReport} (hq : q.InSync)
    (h : Drained q saves (failureOf result) q')
    (hreport : reportOf result = counted saves q'.len) : FlushEffect q saves result q' where
  inSync := h.inSync hq
  requests := h.requests hq
  order := h.order_eq
  kept := h.kept hq
  failed := h.failed_front hq
  succeeded := h.succeeded
  attempted := by rw [hreport]; rfl
  balance := by
    rw [hreport]
    exact h.balance
  remaining := by rw [hreport]; rfl

theorem flush_spec {maxItems : ℕ} {q : SnapshotFlushQueue} {saves : List (SaveCall ε)}
    {out : Option (Except (SnapshotFlushError ε) SnapshotFlushReport × SnapshotFlushQueue)}
    (hq : q.InSync) (h : (q.flush maxItems).Runs saves out) :
    ∃ result q', out = some (result, q') ∧ Drained q saves (failureOf result) q' ∧
      FlushEffect q saves result q' := by
  obtain ⟨result, q', rfl, hdrained, hreport⟩ := flushLoop_spec hq h
  refine ⟨result, q', rfl, hdrained, hdrained.effect hq ?_⟩
  rw [hreport]
  simp [SnapshotFlushReport.merge, counted]

theorem flushUntilEmpty_spec {maxItemsPerRound maxRounds : ℕ} {q : SnapshotFlushQueue}
    {saves : List (SaveCall ε)}
    {out : Option (Except (SnapshotFlushError ε) SnapshotFlushReport × SnapshotFlushQueue)}
    (hq : q.InSync) (h : (q.flushUntilEmpty maxItemsPerRound maxRounds).Runs saves out) :
    ∃ result q', out = some (result, q') ∧ Drained q saves (failureOf result) q' ∧
      FlushEffect q saves result q' := by
  rw [flushUntilEmpty] at h
  split at h
  · obtain ⟨rfl, rfl⟩ := h
    exact ⟨_, _, rfl, .stop q, (Drained.stop q).effect hq rfl⟩
  · obtain ⟨result, q', rfl, hdrained, hreport⟩ := flushRounds_spec hq h
    refine ⟨result, q', rfl, hdrained, hdrained.effect hq ?_⟩
    rw [hreport]
    simp [SnapshotFlushReport.merge, counted]

/-! ### Sequences of calls -/

/-- The queue that a sequence of calls leaves, with the accepted requests and the
calls of `save` in the order in which they happened. -/
inductive Reaches : List (QueueEvent ε) → SnapshotFlushQueue → Prop
  | new : Reaches [] {}
  | enqueued {history : List (QueueEvent ε)} {q q' : SnapshotFlushQueue} {request : SnapshotWrite}
      {replaced : Bool} (h : Reaches history q) (hq : q.enqueue request = .ok (replaced, q')) :
      Reaches (history ++ [.enqueued request]) q'
  | flushed {history : List (QueueEvent ε)} {q q' : SnapshotFlushQueue} {maxItems : ℕ}
      {saves : List (SaveCall ε)} {result : Except (SnapshotFlushError ε) SnapshotFlushReport}
      (h : Reaches history q) (hq : (q.flush maxItems).Runs saves (some (result, q'))) :
      Reaches (history ++ saves.map .save) q'
  | flushedUntilEmpty {history : List (QueueEvent ε)} {q q' : SnapshotFlushQueue}
      {maxItemsPerRound maxRounds : ℕ} {saves : List (SaveCall ε)}
      {result : Except (SnapshotFlushError ε) SnapshotFlushReport} (h : Reaches history q)
      (hq : (q.flushUntilEmpty maxItemsPerRound maxRounds).Runs saves (some (result, q'))) :
      Reaches (history ++ saves.map .save) q'

/-- The event enqueues a request for the record or saves its request. -/
def QueueEvent.settles (record : RecordKey) : QueueEvent ε → Prop
  | .enqueued request => request.record = record
  | .save call => call.accepted = true ∧ call.1.record = record

/-- The last request enqueued for the record, not saved since. -/
def LastUnsaved (history : List (QueueEvent ε)) (record : RecordKey) (request : SnapshotWrite) :
    Prop :=
  ∃ before after, history = before ++ .enqueued request :: after ∧ request.record = record ∧
    ∀ event ∈ after, ¬ event.settles record

theorem lastUnsaved_concat {history : List (QueueEvent ε)} {event : QueueEvent ε}
    {record : RecordKey} {request : SnapshotWrite} :
    LastUnsaved (history ++ [event]) record request ↔
      event = .enqueued request ∧ request.record = record ∨
        ¬ event.settles record ∧ LastUnsaved history record request := by
  constructor
  · rintro ⟨before, after, heq, hrecord, hafter⟩
    rcases List.eq_nil_or_concat after with rfl | ⟨after, last, rfl⟩
    · obtain ⟨-, hlast⟩ := List.append_inj' heq rfl
      exact Or.inl ⟨List.head_eq_of_cons_eq hlast, hrecord⟩
    · rw [List.concat_eq_append] at heq hafter
      rw [← List.cons_append, ← List.append_assoc] at heq
      obtain ⟨rfl, hlast⟩ := List.append_inj' heq rfl
      obtain rfl := List.head_eq_of_cons_eq hlast
      refine Or.inr ⟨hafter event (by simp), before, after, rfl, hrecord, fun e he => ?_⟩
      exact hafter e (List.mem_append_left _ he)
  · rintro (⟨rfl, hrecord⟩ | ⟨hevent, before, after, rfl, hrecord, hafter⟩)
    · exact ⟨history, [], rfl, hrecord, fun e he => by cases he⟩
    · refine ⟨before, after ++ [event], by simp, hrecord, fun e he => ?_⟩
      rcases List.mem_append.mp he with he | he
      · exact hafter e he
      · rw [List.mem_singleton.mp he]
        exact hevent

/-- Replaying the events keeps the last unsaved request of every record. -/
theorem replay_eq_some {history : List (QueueEvent ε)} {record : RecordKey}
    {request : SnapshotWrite} :
    history.foldl QueueEvent.replay (fun _ => none) record = some request ↔
      LastUnsaved history record request := by
  induction history using List.reverseRecOn with
  | nil => simp [LastUnsaved]
  | append_singleton history event ih =>
    rw [List.foldl_append, List.foldl_cons, List.foldl_nil, lastUnsaved_concat, ← ih]
    cases event with
    | enqueued r =>
      rw [QueueEvent.replay, Function.update_apply]
      by_cases hk : record = r.record
      · rw [if_pos hk]
        simp only [QueueEvent.settles, hk, not_true, false_and, or_false, Option.some_inj,
          QueueEvent.enqueued.injEq]
        constructor
        · rintro rfl
          exact ⟨rfl, rfl⟩
        · rintro ⟨rfl, -⟩
          rfl
      · rw [if_neg hk]
        have hne : ¬ r.record = record := fun h => hk h.symm
        simp only [QueueEvent.settles, hne, not_false_eq_true, true_and,
          QueueEvent.enqueued.injEq]
        constructor
        · exact Or.inr
        · rintro (⟨rfl, h⟩ | h)
          · exact absurd h hne
          · exact h
    | save call =>
      rw [QueueEvent.replay]
      split
      · rename_i haccepted
        rw [Function.update_apply]
        by_cases hk : record = call.1.record
        · simp [QueueEvent.settles, haccepted, hk]
        · have hne : ¬ call.1.record = record := fun h => hk h.symm
          simp [QueueEvent.settles, hk, hne]
      · rename_i hrejected
        simp [QueueEvent.settles, hrejected]

theorem Reaches.spec {history : List (QueueEvent ε)} {q : SnapshotFlushQueue}
    (h : Reaches history q) :
    q.InSync ∧ q.get = history.foldl QueueEvent.replay fun _ => none := by
  induction h with
  | new => exact ⟨inSync_empty, rfl⟩
  | enqueued _ hq ih =>
    obtain ⟨hsync, hget⟩ := ih
    obtain ⟨hsync', hget'⟩ := hsync.enqueue hq
    refine ⟨hsync', ?_⟩
    rw [List.foldl_append, ← hget, hget']
    rfl
  | flushed _ hq ih =>
    obtain ⟨hsync, hget⟩ := ih
    obtain ⟨result, q', hout, hdrained, heffect⟩ := flush_spec hsync hq
    obtain ⟨rfl, rfl⟩ := Prod.mk.inj (Option.some.inj hout)
    exact ⟨heffect.inSync, by rw [List.foldl_append, ← hget, hdrained.get_eq hsync]⟩
  | flushedUntilEmpty _ hq ih =>
    obtain ⟨hsync, hget⟩ := ih
    obtain ⟨result, q', hout, hdrained, heffect⟩ := flushUntilEmpty_spec hsync hq
    obtain ⟨rfl, rfl⟩ := Prod.mk.inj (Option.some.inj hout)
    exact ⟨heffect.inSync, by rw [List.foldl_append, ← hget, hdrained.get_eq hsync]⟩

/-- **The flush queue never loses, duplicates or reorders work.**  After any sequence
of calls the containers are in sync, the pending request of a record is the last one
enqueued for it that was not saved, and the next flush of either kind, whatever the
store answers, ends without a panic, with the effect and the report of `FlushEffect`. -/
theorem flushQueue_exact {history : List (QueueEvent ε)} {q : SnapshotFlushQueue}
    (h : Reaches history q) :
    q.InSync ∧ q.len = q.order.length ∧
      (∀ record request, q.get record = some request ↔ LastUnsaved history record request) ∧
      (∀ maxItems (saves : List (SaveCall ε)) out, (q.flush maxItems).Runs saves out →
        ∃ result q', out = some (result, q') ∧ FlushEffect q saves result q') ∧
      ∀ maxItemsPerRound maxRounds (saves : List (SaveCall ε)) out,
        (q.flushUntilEmpty maxItemsPerRound maxRounds).Runs saves out →
          ∃ result q', out = some (result, q') ∧ FlushEffect q saves result q' := by
  obtain ⟨hsync, hget⟩ := h.spec
  refine ⟨hsync, hsync.len_eq, fun record request => ?_, fun maxItems saves out hrun => ?_,
    fun maxItemsPerRound maxRounds saves out hrun => ?_⟩
  · rw [hget]
    exact replay_eq_some
  · obtain ⟨result, q', hout, -, heffect⟩ := flush_spec hsync hrun
    exact ⟨result, q', hout, heffect⟩
  · obtain ⟨result, q', hout, -, heffect⟩ := flushUntilEmpty_spec hsync hrun
    exact ⟨result, q', hout, heffect⟩

/-- A request whose save failed. -/
def refusedWrite : SnapshotWrite :=
  ⟨"req-1", ⟨"player", "1001"⟩, "player.runtime", 1, [118], none, 1⟩

def refusedQueue : SnapshotFlushQueue where
  order := [refusedWrite.record]
  pending := ⟨[(refusedWrite.record, refusedWrite)], List.nodup_singleton _⟩

theorem flushQueue_exact_refused :
    ∃ q, Reaches [QueueEvent.enqueued refusedWrite, .save ⟨refusedWrite, .error "injected"⟩] q ∧
      q.get refusedWrite.record = some refusedWrite ∧ q.len = q.order.length := by
  have hone : Reaches ([.enqueued refusedWrite] : List (QueueEvent String)) refusedQueue :=
    .enqueued .new rfl
  have hrun : ∃ q', (refusedQueue.flush 1).Runs [⟨refusedWrite, .error "injected"⟩]
      (some (.error ⟨"injected", ⟨1, 0, 0, 1⟩⟩, q')) := ⟨_, _, _, rfl, rfl, rfl⟩
  obtain ⟨q', hrun⟩ := hrun
  have hreaches := hone.flushed hrun
  obtain ⟨-, hlen, hlast, -⟩ := flushQueue_exact hreaches
  refine ⟨_, hreaches, (hlast _ _).mpr ⟨[], _, rfl, rfl, ?_⟩, hlen⟩
  simp [QueueEvent.settles, SaveCall.accepted, Except.isOk, Except.toBool]

end SnapshotFlushQueue

end DbProxy
