/-
Cleanup of the receipts of ordinary saves (`receipt_retention.rs`, `receipt_cleanup.sql` and
its worker).

A receipt remembers when it was inserted.  A cleanup deletes the oldest receipts that are
older than the retention, at most 500 at a time and none that another transaction has
locked.  Only receipts go: what a save wrote stays, and so does its revision.

* `receipt_retained` — a save that is repeated within the retention is recognised;
* `retained_history`, `conditional_save_once` — a save with an expected revision is applied
  at most once, also after its receipt is gone;
* `receipt_cleanup_drains` — batches go from the oldest on until nothing expired is left.
-/
import DbProxy.PostgresHistory
import Mathlib.Data.Prod.Lex
import Mathlib.Logic.Function.Iterate

namespace DbProxy

open Text StepMachine PostgresSnapshotStore

/-! ### The retention -/

/-- Times and durations are in microseconds. -/
def microsPerSecond : ℕ := 1000000

def receiptCleanupBatchSize : ℕ := 500

def minReceiptRetention : ℕ := 3600 * microsPerSecond

def maxReceiptRetention : ℕ := 8760 * 3600 * microsPerSecond

/-- `StorageError::InvalidReceiptRetention`. -/
structure InvalidReceiptRetention where
  seconds : ℕ
deriving DecidableEq, Repr

def validateReceiptRetention (retention : ℕ) : Except InvalidReceiptRetention ℕ :=
  if retention < minReceiptRetention ∨ maxReceiptRetention < retention then
    .error ⟨retention / microsPerSecond⟩
  else .ok retention

theorem validateReceiptRetention_ok {retention retention' : ℕ}
    (h : validateReceiptRetention retention = .ok retention') : retention' = retention := by
  rw [validateReceiptRetention] at h
  split at h
  · cases h
  · exact (Except.ok.inj h).symm

/-! ### Tables with the age of receipts -/

/-- The column `recorded_at` of `dbproxy_idempotency`. -/
structure ReceiptAge where
  requestId : String
  recordedAt : ℕ
deriving DecidableEq, Repr

/-- `ORDER BY recorded_at, request_id`. -/
def ReceiptAge.order (row : ReceiptAge) : ℕ ×ₗ String := toLex (row.recordedAt, row.requestId)

structure RetainedTables where
  tables : PostgresTables := {}
  ages : KeyedTable ReceiptAge.requestId := .empty
  /-- the clock of the database -/
  now : ℕ := 0

namespace RetainedTables

/-- The receipts that a cleanup may delete. -/
def eligible (s : RetainedTables) (retention started : ℕ) (locked : String → Bool) :
    List ReceiptAge :=
  s.ages.rows.filter fun row => row.recordedAt + retention < started && !locked row.requestId

/-- The `expired` rows of the statement. -/
def expired (s : RetainedTables) (retention started : ℕ) (locked : String → Bool) :
    List ReceiptAge :=
  (sortOn ReceiptAge.order (s.eligible retention started locked)).take receiptCleanupBatchSize

def deleteReceipts (s : RetainedTables) (rows : List ReceiptAge) : RetainedTables :=
  { s with
    ages := s.ages.delete fun row => row ∈ rows
    tables := { s.tables with base := { s.tables.base with
      idempotency := fun id =>
        if id ∈ rows.map (·.requestId) then none else s.tables.base.idempotency id } } }

/-- `cleanup_expired_receipts`, with the time of its statement. -/
def cleanupExpiredReceipts (s : RetainedTables) (retention started : ℕ)
    (locked : String → Bool) : Except InvalidReceiptRetention ℕ × RetainedTables :=
  match validateReceiptRetention retention with
  | .error e => (.error e, s)
  | .ok retention =>
    let rows := s.expired retention started locked
    (.ok rows.length, s.deleteReceipts rows)

/-- The pause of `run_receipt_cleanup_worker`, in seconds. -/
def cleanupDelay : Except InvalidReceiptRetention ℕ → ℕ
  | .ok deleted => if deleted = receiptCleanupBatchSize then 1 else 60
  | .error _ => 60

end RetainedTables

inductive RetentionEvent
  | advance (elapsed : ℕ)
  /-- A write commits; a receipt that it inserts has the time of its statement. -/
  | call (c : StoreCall) (recordedAt : ℕ)
  /-- Whoever is named has a lock on the receipt. -/
  | cleanup (retention started : ℕ) (locked : List String)

namespace RetainedTables

section Step

variable (decode : Bytes → Option EventEnvelope) (encode : CommitEffects → Bytes)

/-- A write; a save that inserts its receipt gives it an age. -/
def call (s : RetainedTables) (c : StoreCall) (recordedAt : ℕ) : RetainedTables :=
  let tables := (PostgresSnapshotStore.perform decode encode s.tables c).2
  let ages := match c with
    | .save request =>
      if (s.tables.base.idempotency request.requestId).isNone ∧
          (tables.base.idempotency request.requestId).isSome then
        s.ages.insertNew ⟨request.requestId, recordedAt⟩
      else s.ages
    | _ => s.ages
  { s with tables, ages }

def step (s : RetainedTables) : RetentionEvent → Option RetainedTables
  | .advance elapsed => some { s with now := s.now + elapsed }
  | .call c recordedAt =>
    if recordedAt ≤ s.now then some (s.call decode encode c recordedAt) else none
  | .cleanup retention started locked =>
    if started ≤ s.now then
      some (s.cleanupExpiredReceipts retention started fun id => id ∈ locked).2
    else none

/-- The answer of an event. -/
def reported (s : RetainedTables) : RetentionEvent → List StoreAnswer
  | .call c _ => [⟨c, (PostgresSnapshotStore.perform decode encode s.tables c).1⟩]
  | .advance _ | .cleanup _ _ _ => []

/-- The answers of a run. -/
def answers (s : RetainedTables) : List RetentionEvent → List StoreAnswer
  | [] => []
  | e :: rest =>
    s.reported decode encode e ++ (s.step decode encode e).elim [] fun t => t.answers rest

end Step

end RetainedTables

/-! ### One save -/

section Save

variable {pg : PostgresTables} {request : SnapshotWrite}

/-- What an applied save found and left. -/
structure AppliedSave (pg : PostgresTables) (request : SnapshotWrite) (revision : Revision) :
    Prop where
  storable : StorableSave request
  named : blank request.requestId = false
  unused : pg.base.idempotency request.requestId = none
  expected : request.expectedRevision.all (· = pg.revision request.record) = true
  next : revision = pg.revision request.record + 1
  fits : revision < bigintLimit
  after : (saveSnapshot request pg).2 = savedTables pg request

theorem appliedSave_of_ok {revision : Revision}
    (h : (saveSnapshot request pg).1 = .ok (.applied revision)) :
    AppliedSave pg request revision := by
  by_cases hstorable : StorableSave request
  · cases hrow : pg.base.idempotency request.requestId with
    | some row =>
      obtain ⟨hok, hfails⟩ := saveSnapshot_retry hstorable hrow
      by_cases hP : blank request.requestId = false ∧ idempotencyMatches row request
          ⟨request.expectedRevision, request.updatedAtUnixMs, none⟩ = true ∧
            row.revision < bigintLimit
      · rw [hok hP] at h
        cases h
      · have hnone := (hfails hP).1
        rw [h] at hnone
        cases hnone
    | none =>
      obtain ⟨hok, hfails⟩ := saveSnapshot_first hstorable hrow
      by_cases hP : blank request.requestId = false ∧
          request.expectedRevision.all (· = pg.revision request.record) = true ∧
            pg.revision request.record + 1 < bigintLimit
      · have hrun := hok hP
        rw [hrun] at h
        obtain rfl : pg.revision request.record + 1 = revision := by
          injection h with h
          injection h
        exact ⟨hstorable, hP.1, hrow, hP.2.1, rfl, hP.2.2, congrArg Prod.snd hrun⟩
      · have hnone := (hfails hP).1
        rw [h] at hnone
        cases hnone
  · have hnone : (saveSnapshot request pg).1.toOption = none :=
      (saveSnapshot_unstorable hstorable).1
    rw [h] at hnone
    cases hnone

/-- The retry of a save whose receipt is there. -/
theorem saveSnapshot_repeated {revision : Revision} (h : AppliedSave pg request revision)
    {pg' : PostgresTables} (hrow : pg'.base.idempotency request.requestId =
      some (saveReceiptRow request revision)) :
    saveSnapshot request pg' = (.ok (.duplicate revision), pg'.raise request.record revision) := by
  have hsame : PostgresSnapshotStore.SameRequest request request := ⟨rfl, rfl, rfl, rfl, rfl, rfl⟩
  exact (saveSnapshot_retry h.storable hrow).1
    ⟨h.named, idempotencyMatches_iff.mpr hsame, h.fits⟩

end Save

/-! ### Receipts that stay -/

section Retained

variable {decode : Bytes → Option EventEnvelope} {encode : CommitEffects → Bytes}
  {s t : RetainedTables} {id : String} {row : IdempotencyRow} {age : ReceiptAge}

/-- The receipt is there, with its age. -/
structure Kept (s : RetainedTables) (id : String) (row : IdempotencyRow) (age : ReceiptAge) :
    Prop where
  receipt : s.tables.base.idempotency id = some row
  age : s.ages.lookup id = some age

theorem addReceipts_used : ∀ {receipts : List (String × IdempotencyRow)}
    {rows : String → Option IdempotencyRow}, rows id = some row →
      (∀ r ∈ receipts, r.1 ≠ id) → addReceipts rows receipts id = some row
  | [], _, h, _ => h
  | r :: rest, _, h, hne => by
    have hfirst := hne r (List.mem_cons_self ..)
    show addReceipts (Function.update _ r.1 (some r.2)) rest id = some row
    exact addReceipts_used ((Function.update_of_ne (Ne.symm hfirst) ..).trans h)
      fun r hr => hne r (List.mem_cons_of_mem _ hr)

theorem call_moves (decode : Bytes → Option EventEnvelope) (encode : CommitEffects → Bytes)
    (s : RetainedTables) (c : StoreCall) (recordedAt : ℕ) :
    AnswerMoves decode s.tables (s.call decode encode c recordedAt).tables
      ⟨c, (PostgresSnapshotStore.perform decode encode s.tables c).1⟩ := perform_moves c

theorem Kept.call (h : Kept s id row age) (c : StoreCall) (recordedAt : ℕ) :
    Kept (s.call decode encode c recordedAt) id row age where
  receipt := by
    have hmoves := call_moves decode encode s c recordedAt
    rw [hmoves.receipts]
    refine addReceipts_used h.receipt fun r hr heq => ?_
    have hunused := hmoves.unused r hr
    rw [heq, h.receipt] at hunused
    cases hunused
  age := by
    cases c with
    | save request =>
      show KeyedTable.lookup (if _ then _ else _) id = some age
      split
      · rename_i hnew
        have hne : id ≠ request.requestId := by
          rintro rfl
          rw [h.receipt] at hnew
          cases hnew.1
        have hne : id ≠ ReceiptAge.requestId ⟨request.requestId, recordedAt⟩ := hne
        exact (KeyedTable.lookup_insertNew_ne hne).trans h.age
      · exact h.age
    | applyTransaction => exact h.age
    | commitRecords => exact h.age
    | applyTradeTransaction => exact h.age

/-- A cleanup spares what is not older than the retention. -/
theorem Kept.deleteReceipts (h : Kept s id row age) {retention started : ℕ}
    {locked : String → Bool} (hyoung : started ≤ age.recordedAt + retention) :
    Kept (s.deleteReceipts (s.expired retention started locked)) id row age := by
  have hkey : age.requestId = id := KeyedTable.key_of_lookup h.age
  have hmem : age ∈ s.ages.rows := (KeyedTable.lookup_eq_some.mp h.age).1
  have hspared : ∀ old ∈ s.expired retention started locked, old.requestId ≠ id := by
    intro old hold heq
    have hold := mem_sortOn.mp (List.mem_of_mem_take hold)
    obtain ⟨hrow, heligible⟩ := List.mem_filter.mp hold
    obtain rfl := KeyedTable.eq_of_key hrow hmem (heq.trans hkey.symm)
    simp only [Bool.and_eq_true, decide_eq_true_eq] at heligible
    omega
  constructor
  · show (if id ∈ _ then none else _) = some row
    rw [if_neg, h.receipt]
    intro hdeleted
    obtain ⟨old, hold, heq⟩ := List.mem_map.mp hdeleted
    exact hspared old hold heq
  · show (s.ages.delete _).lookup id = some age
    rw [KeyedTable.lookup_delete, h.age, Option.filter_some, if_pos]
    have hnot : age ∉ s.expired retention started locked := fun hold => hspared age hold hkey
    simpa using hnot

theorem step_now {e : RetentionEvent} (h : s.step decode encode e = some t) : s.now ≤ t.now := by
  cases e with
  | advance elapsed =>
    obtain rfl := Option.some_inj.mp h
    exact Nat.le_add_right ..
  | call c recordedAt =>
    rw [RetainedTables.step] at h
    split at h
    · obtain rfl := Option.some_inj.mp h
      exact le_rfl
    · cases h
  | cleanup retention started locked =>
    rw [RetainedTables.step] at h
    split at h
    · obtain rfl := Option.some_inj.mp h
      rw [RetainedTables.cleanupExpiredReceipts]
      split <;> exact le_rfl
    · cases h

/-- A cleanup that does anything keeps receipts for the retention at least. -/
def AtLeast (retention : ℕ) : RetentionEvent → Prop
  | .cleanup configured _ _ =>
    validateReceiptRetention configured = .ok configured → retention ≤ configured
  | _ => True

theorem Kept.step {e : RetentionEvent} {retention : ℕ} (h : Kept s id row age)
    (he : AtLeast retention e) (hyoung : s.now ≤ age.recordedAt + retention)
    (hstep : s.step decode encode e = some t) : Kept t id row age := by
  cases e with
  | advance elapsed =>
    obtain rfl := Option.some_inj.mp hstep
    exact ⟨h.receipt, h.age⟩
  | call c recordedAt =>
    rw [RetainedTables.step] at hstep
    split at hstep
    · obtain rfl := Option.some_inj.mp hstep
      exact h.call c recordedAt
    · cases hstep
  | cleanup configured started locked =>
    rw [RetainedTables.step] at hstep
    split at hstep
    · rename_i hstarted
      obtain rfl := Option.some_inj.mp hstep
      rw [RetainedTables.cleanupExpiredReceipts]
      split
      · exact h
      · rename_i configured' hvalid
        obtain rfl := validateReceiptRetention_ok hvalid
        have he : retention ≤ configured' := he hvalid
        exact h.deleteReceipts (by omega)
    · cases hstep

theorem Kept.run {retention : ℕ} : ∀ {events : List RetentionEvent} {s : RetainedTables},
    Kept s id row age → (∀ e ∈ events, AtLeast retention e) →
      StepMachine.run (RetainedTables.step decode encode) s events = some t →
        t.now ≤ age.recordedAt + retention → Kept t id row age
  | [], s, h, _, hrun, _ => by
    rw [run_nil, Option.some_inj] at hrun
    exact hrun ▸ h
  | e :: rest, s, h, he, hrun, hnow => by
    obtain ⟨m, hm, hrest⟩ := run_cons_eq_some.mp hrun
    have hlater : m.now ≤ t.now := run_rel (P := fun _ => True)
      (R := fun a b : RetainedTables => a.now ≤ b.now) (fun _ => le_rfl)
      (fun _ _ _ => le_trans) (fun _ _ _ _ _ => trivial) (fun _ _ _ _ => step_now) trivial hrest
    have hyoung := (step_now hm).trans (hlater.trans hnow)
    exact Kept.run (h.step (he e (List.mem_cons_self ..)) hyoung hm)
      (fun e' he' => he e' (List.mem_cons_of_mem _ he')) hrest hnow

/-- A receipt that is not there has no age. -/
def Ageless (s : RetainedTables) : Prop :=
  ∀ id, s.tables.base.idempotency id = none → s.ages.lookup id = none

theorem addReceipts_none : ∀ {receipts : List (String × IdempotencyRow)}
    {rows : String → Option IdempotencyRow}, addReceipts rows receipts id = none → rows id = none
  | [], _, h => h
  | r :: rest, rows, h => by
    have hrest := addReceipts_none (show addReceipts (Function.update rows r.1 (some r.2)) rest id =
      none from h)
    by_cases hid : id = r.1
    · subst hid
      rw [Function.update_self] at hrest
      cases hrest
    · rwa [Function.update_of_ne hid] at hrest

theorem Ageless.call (h : Ageless s) (c : StoreCall) (recordedAt : ℕ) :
    Ageless (s.call decode encode c recordedAt) := by
  intro id hid
  have hmoves := call_moves decode encode s c recordedAt
  have hbefore : s.tables.base.idempotency id = none := by
    rw [hmoves.receipts] at hid
    exact addReceipts_none hid
  have hid : (PostgresSnapshotStore.perform decode encode s.tables c).2.base.idempotency id =
    none := hid
  cases c with
  | save request =>
    show KeyedTable.lookup (if _ then _ else _) id = none
    split
    · rename_i hnew
      have hne : id ≠ ReceiptAge.requestId ⟨request.requestId, recordedAt⟩ := by
        rintro rfl
        rw [hid] at hnew
        cases hnew.2
      exact (KeyedTable.lookup_insertNew_ne hne).trans (h id hbefore)
    · exact h id hbefore
  | applyTransaction => exact h id hbefore
  | commitRecords => exact h id hbefore
  | applyTradeTransaction => exact h id hbefore

theorem Ageless.deleteReceipts (h : Ageless s) {rows : List ReceiptAge}
    (hrows : rows ⊆ s.ages.rows) : Ageless (s.deleteReceipts rows) := by
  intro id hid
  have hid : (if id ∈ rows.map (·.requestId) then none else s.tables.base.idempotency id) =
    none := hid
  show (s.ages.delete _).lookup id = none
  rw [KeyedTable.lookup_delete]
  by_cases hdeleted : id ∈ rows.map (·.requestId)
  · obtain ⟨row, hrow, rfl⟩ := List.mem_map.mp hdeleted
    rw [KeyedTable.lookup_of_mem (hrows hrow), Option.filter_some, if_neg (by simpa using hrow)]
  · rw [if_neg hdeleted] at hid
    rw [h id hid]
    rfl

theorem expired_subset (s : RetainedTables) (retention started : ℕ) (locked : String → Bool) :
    s.expired retention started locked ⊆ s.ages.rows := fun _ hrow =>
  (List.mem_filter.mp (mem_sortOn.mp (List.mem_of_mem_take hrow))).1

theorem Ageless.step {e : RetentionEvent} (h : Ageless s)
    (hstep : s.step decode encode e = some t) : Ageless t := by
  cases e with
  | advance elapsed =>
    obtain rfl := Option.some_inj.mp hstep
    exact h
  | call c recordedAt =>
    rw [RetainedTables.step] at hstep
    split at hstep
    · obtain rfl := Option.some_inj.mp hstep
      exact h.call c recordedAt
    · cases hstep
  | cleanup retention started locked =>
    rw [RetainedTables.step] at hstep
    split at hstep
    · obtain rfl := Option.some_inj.mp hstep
      rw [RetainedTables.cleanupExpiredReceipts]
      split
      · exact h
      · exact h.deleteReceipts (expired_subset ..)
    · cases hstep

/-- The receipt of a save that is applied. -/
theorem kept_of_applied {request : SnapshotWrite} {revision : Revision} {recordedAt : ℕ}
    (hs : Ageless s) (h : AppliedSave s.tables request revision) :
    Kept (s.call decode encode (.save request) recordedAt) request.requestId
      (saveReceiptRow request revision) ⟨request.requestId, recordedAt⟩ := by
  have hrow : (saveSnapshot request s.tables).2.base.idempotency request.requestId =
      some (saveReceiptRow request revision) := by
    rw [h.after, h.next]
    exact Function.update_self ..
  refine ⟨hrow, ?_⟩
  have hfree := hs request.requestId h.unused
  show KeyedTable.lookup (if _ then _ else _) request.requestId = _
  rw [if_pos ⟨by rw [h.unused]; rfl, by rw [show (PostgresSnapshotStore.perform decode encode
    s.tables (.save request)).2 = (saveSnapshot request s.tables).2 from rfl, hrow]; rfl⟩]
  have hfree : s.ages.lookup (ReceiptAge.requestId ⟨request.requestId, recordedAt⟩) = none := hfree
  rw [KeyedTable.insertNew_of_free hfree, KeyedTable.lookup_insert, if_pos rfl]

end Retained

section Runs

variable (decode : Bytes → Option EventEnvelope) (encode : CommitEffects → Bytes)
  (routes : OutboxRoutes)

/-- **Retention.**  As long as the cleanups keep receipts for the retention, which they do for
the minimum of an hour whatever is configured, a save that is repeated within it is answered
like the first time and changes nothing. -/
theorem receipt_retained (before after : List RetentionEvent) (s t : RetainedTables)
    (request : SnapshotWrite) (revision : Revision) (recordedAt retention : ℕ)
    (hbefore : run (RetainedTables.step decode encode) { tables := { routes } } before = some s)
    (happlied : (saveSnapshot request s.tables).1 = .ok (.applied revision))
    (hretention : ∀ e ∈ after, AtLeast retention e)
    (hafter : run (RetainedTables.step decode encode) s
      (.call (.save request) recordedAt :: after) = some t)
    (hnow : t.now ≤ recordedAt + retention) :
    saveSnapshot request t.tables =
      (.ok (.duplicate revision), t.tables.raise request.record revision) := by
  have hs : Ageless s := run_invariant (fun _ _ _ h hstep => Ageless.step h hstep)
    (fun _ _ => rfl) hbefore
  have hsave := appliedSave_of_ok happlied
  obtain ⟨m, hm, hrest⟩ := run_cons_eq_some.mp hafter
  rw [RetainedTables.step] at hm
  split at hm
  · obtain rfl := Option.some_inj.mp hm
    have hkept := (kept_of_applied hs hsave).run hretention hrest hnow
    exact saveSnapshot_repeated hsave hkept.receipt
  · cases hm

/-- Two cleanups an hour after the save: the receipt is still there. -/
def patientEvents : List RetentionEvent :=
  [.advance minReceiptRetention, .cleanup minReceiptRetention minReceiptRetention [],
    .cleanup 1 minReceiptRetention []]

theorem receipt_retained_patient : ∃ t : RetainedTables,
    run (RetainedTables.step (fun _ => none) fun _ => []) {}
      (.call (.save (batchedSave "r1" "k" none)) 0 :: patientEvents) = some t ∧
    t.now = minReceiptRetention ∧
    (saveSnapshot (batchedSave "r1" "k" none) t.tables).1 = .ok (.duplicate 1) := by
  obtain ⟨t, hrun, hnow⟩ : ∃ t : RetainedTables,
      run (RetainedTables.step (fun _ => none) fun _ => []) {}
        (.call (.save (batchedSave "r1" "k" none)) 0 :: patientEvents) = some t ∧
      t.now = minReceiptRetention := exists_of_any (by decide +kernel)
  have hkept : ∀ e ∈ patientEvents, AtLeast minReceiptRetention e := by
    simp [patientEvents, AtLeast, validateReceiptRetention, minReceiptRetention,
      microsPerSecond]
  have hretained := receipt_retained (fun _ => none) (fun _ => []) {} [] patientEvents {} t
    (batchedSave "r1" "k" none) 1 0 minReceiptRetention rfl (by decide) hkept hrun
    (by rw [hnow, Nat.zero_add])
  exact ⟨t, hrun, hnow, congrArg Prod.fst hretained⟩

/-! ### Writes after their receipt -/

/-- The answer to a save that was applied. -/
def appliesSave (request : SnapshotWrite) : StoreAnswer → Bool
  | ⟨.save r, .ok (.applied _)⟩ => r = request
  | _ => false

theorem revisions_of_appliesSave {request : SnapshotWrite} {revision : Revision}
    (hexpected : request.expectedRevision = some revision) {pg : PostgresTables} {c : StoreCall}
    (h : appliesSave request ⟨c, (PostgresSnapshotStore.perform decode encode pg c).1⟩ = true) :
    StoreAnswer.revisions request.record
      ⟨c, (PostgresSnapshotStore.perform decode encode pg c).1⟩ = [revision + 1] := by
  cases c with
  | save r =>
    have h : appliesSave request ⟨.save r, (saveSnapshot r pg).1⟩ = true := h
    show StoreAnswer.revisions request.record ⟨.save r, (saveSnapshot r pg).1⟩ = _
    cases hanswer : (saveSnapshot r pg).1 with
    | error e =>
      rw [hanswer] at h
      cases h
    | ok outcome =>
      rw [hanswer] at h
      cases outcome with
      | duplicate revision => cases h
      | applied new =>
        obtain rfl : r = request := of_decide_eq_true h
        have hsave := appliedSave_of_ok hanswer
        have hrevision := hsave.expected
        rw [hexpected] at hrevision
        have hrevision : revision = pg.revision r.record := of_decide_eq_true hrevision
        rw [hsave.next, hrevision]
        simp [StoreAnswer.revisions, StoreAnswer.written]
  | applyTransaction | commitRecords | applyTradeTransaction => cases h

theorem answers_history : ∀ (events : List RetentionEvent) {s t : RetainedTables},
    run (RetainedTables.step decode encode) s events = some t → ∀ record,
      (s.answers decode encode events).flatMap (·.revisions record) =
        List.range' (s.tables.revision record + 1)
          (t.tables.revision record - s.tables.revision record) ∧
      s.tables.revision record ≤ t.tables.revision record
  | [], s, t, hrun, record => by
    rw [run_nil, Option.some_inj] at hrun
    rw [hrun, Nat.sub_self]
    exact ⟨rfl, le_rfl⟩
  | e :: rest, s, t, hrun, record => by
    obtain ⟨m, hm, hrest⟩ := run_cons_eq_some.mp hrun
    obtain ⟨hlater, hgrows⟩ := answers_history rest hrest record
    rw [RetainedTables.answers, hm, Option.elim_some, List.flatMap_append, hlater]
    cases e with
    | advance elapsed =>
      obtain rfl := Option.some_inj.mp hm
      exact ⟨rfl, hgrows⟩
    | call c recordedAt =>
      rw [RetainedTables.step] at hm
      split at hm
      · obtain rfl := Option.some_inj.mp hm
        have hmoves := call_moves decode encode s c recordedAt
        refine ⟨?_, (hmoves.grows record).trans hgrows⟩
        rw [RetainedTables.reported, List.flatMap_singleton, StoreAnswer.revisions,
          hmoves.revisions]
        exact range'_steps (hmoves.grows record) hgrows
      · cases hm
    | cleanup retention started locked =>
      have hsame : m.tables.revision record = s.tables.revision record := by
        rw [RetainedTables.step] at hm
        split at hm
        · obtain rfl := Option.some_inj.mp hm
          rw [RetainedTables.cleanupExpiredReceipts]
          split <;> rfl
        · cases hm
      rw [hsame] at hgrows ⊢
      exact ⟨rfl, hgrows⟩

theorem count_appliesSave {request : SnapshotWrite} {revision : Revision}
    (hexpected : request.expectedRevision = some revision) :
    ∀ (events : List RetentionEvent) (s : RetainedTables),
      (s.answers decode encode events).countP (appliesSave request) ≤
        ((s.answers decode encode events).flatMap (·.revisions request.record)).count (revision + 1)
  | [], _ => le_rfl
  | e :: rest, s => by
    have hlater : ((s.step decode encode e).elim [] fun t =>
          t.answers decode encode rest).countP (appliesSave request) ≤
        (((s.step decode encode e).elim [] fun t => t.answers decode encode rest).flatMap
          (·.revisions request.record)).count (revision + 1) := by
      cases s.step decode encode e with
      | none => exact le_rfl
      | some t => exact count_appliesSave hexpected rest t
    rw [RetainedTables.answers, List.countP_append, List.flatMap_append, List.count_append]
    refine Nat.add_le_add ?_ hlater
    cases e with
    | advance | cleanup => exact le_rfl
    | call c recordedAt =>
      rw [RetainedTables.reported, List.countP_singleton, List.flatMap_singleton]
      split
      · rename_i happlies
        rw [revisions_of_appliesSave decode encode hexpected happlies, List.count_singleton_self]
      · exact Nat.zero_le _

/-- Cleanups or not, the writes of a record are numbered in their order; so a save that
expects a revision is applied at most once. -/
theorem conditional_save_once (events : List RetentionEvent) (t : RetainedTables)
    (hrun : run (RetainedTables.step decode encode) { tables := { routes } } events = some t) :
    let answers := RetainedTables.answers decode encode { tables := { routes } } events
    (∀ record, answers.flatMap (·.revisions record) =
      List.range' 1 (t.tables.revision record)) ∧
    ∀ request : SnapshotWrite, request.expectedRevision ≠ none →
      answers.countP (appliesSave request) ≤ 1 := by
  have hhistory := answers_history decode encode events hrun
  refine ⟨fun record => (hhistory record).1, fun request hexpected => ?_⟩
  obtain ⟨revision, hrevision⟩ := Option.ne_none_iff_exists'.mp hexpected
  refine (count_appliesSave decode encode hrevision events _).trans ?_
  rw [(hhistory request.record).1]
  exact List.nodup_iff_count_le_one.mp List.nodup_range' _

/-- The receipt is cleaned up after two hours, and the save repeated. -/
def forgottenEvents : List RetentionEvent :=
  [.call (.save (batchedSave "r1" "k" (some 0))) 0, .advance (2 * minReceiptRetention),
    .cleanup minReceiptRetention (2 * minReceiptRetention) [],
    .call (.save (batchedSave "r1" "k" (some 0))) (2 * minReceiptRetention)]

theorem conditional_save_once_forgotten : ∃ t : RetainedTables,
    run (RetainedTables.step (fun _ => none) fun _ => []) {} forgottenEvents = some t ∧
    t.ages.rows = [] ∧
    (RetainedTables.answers (fun _ => none) (fun _ => []) {} forgottenEvents).countP
      (appliesSave (batchedSave "r1" "k" (some 0))) ≤ 1 := by
  obtain ⟨t, hrun, hrows⟩ : ∃ t : RetainedTables,
      run (RetainedTables.step (fun _ => none) fun _ => []) {} forgottenEvents = some t ∧
      t.ages.rows = [] := exists_of_any (by decide +kernel)
  have honce := (conditional_save_once (fun _ => none) (fun _ => []) {} forgottenEvents t hrun).2
  exact ⟨t, hrun, hrows, honce (batchedSave "r1" "k" (some 0)) (by simp [batchedSave])⟩

end Runs

/-! ### Batches -/

section Batches

variable {s : RetainedTables} {retention started : ℕ} {locked : String → Bool}

theorem order_injective {rows : List ReceiptAge} (h : (rows.map (·.requestId)).Nodup) :
    (rows.map ReceiptAge.order).Nodup := by
  refine List.Nodup.map_on (fun a _ b _ hab => ?_) (List.Nodup.of_map _ h)
  have hab := toLex_inj.mp hab
  rw [Prod.mk.injEq] at hab
  obtain ⟨requestId, recordedAt⟩ := a
  obtain ⟨requestId', recordedAt'⟩ := b
  obtain ⟨rfl, rfl⟩ := hab
  rfl

/-- What a batch leaves is what comes after it in the order. -/
theorem sortOn_eligible_deleteReceipts (s : RetainedTables) (retention started : ℕ)
    (locked : String → Bool) :
    sortOn ReceiptAge.order ((s.deleteReceipts (s.expired retention started locked)).eligible
      retention started locked) =
        (sortOn ReceiptAge.order (s.eligible retention started locked)).drop
          receiptCleanupBatchSize := by
  set sorted := sortOn ReceiptAge.order (s.eligible retention started locked) with hsorted
  have hnodup : (s.eligible retention started locked).Nodup :=
    (List.Nodup.of_map _ s.ages.nodup).filter _
  have hsortedNodup : sorted.Nodup := (sortOn_perm ..).nodup_iff.mpr hnodup
  have hleft : (s.deleteReceipts (s.expired retention started locked)).eligible retention started
      locked = (s.eligible retention started locked).filter
        (· ∉ sorted.take receiptCleanupBatchSize) := by
    show List.filter _ (List.filter _ s.ages.rows) = List.filter _ (List.filter _ s.ages.rows)
    rw [List.filter_filter, List.filter_filter]
    refine List.filter_congr fun row _ => Bool.eq_iff_iff.mpr ?_
    simp only [RetainedTables.expired, ← hsorted, Bool.and_eq_true, Bool.not_eq_true',
      decide_eq_true_eq, decide_eq_false_iff_not]
    exact and_comm
  have hperm : ((s.eligible retention started locked).filter
      (· ∉ sorted.take receiptCleanupBatchSize)).Perm (sorted.drop receiptCleanupBatchSize) := by
    have hdisjoint := List.disjoint_take_drop hsortedNodup (le_refl receiptCleanupBatchSize)
    refine ((sortOn_perm ReceiptAge.order _).symm.filter _).trans (List.Perm.of_eq ?_)
    show sorted.filter _ = _
    conv_lhs => rw [← List.take_append_drop receiptCleanupBatchSize sorted]
    rw [List.filter_append, List.filter_eq_nil_iff.mpr, List.filter_eq_self.mpr, List.nil_append]
    · intro row hrow
      have hnot := fun htake => hdisjoint htake hrow
      simpa [List.take_append_drop] using hnot
    · intro row hrow
      simpa [List.take_append_drop] using hrow
  have hkeys : ((sorted.drop receiptCleanupBatchSize).map ReceiptAge.order).Nodup := by
    refine order_injective ?_
    have hall : (sorted.map (·.requestId)).Nodup :=
      ((sortOn_perm ..).map _).nodup_iff.mpr (s.ages.nodup.sublist (List.filter_sublist.map _))
    exact hall.sublist ((List.drop_sublist ..).map _)
  rw [hleft, ← sortOn_eq_of_perm hperm.symm hkeys]
  exact sortOn_eq_self ((pairwise_sortOn ..).sublist (List.drop_sublist ..))

theorem cleanup_eq (hvalid : validateReceiptRetention retention = .ok retention) :
    s.cleanupExpiredReceipts retention started locked =
      (.ok (min receiptCleanupBatchSize (s.eligible retention started locked).length),
        s.deleteReceipts (s.expired retention started locked)) := by
  rw [RetainedTables.cleanupExpiredReceipts, hvalid]
  refine Prod.ext (congrArg Except.ok ?_) rfl
  rw [RetainedTables.expired, List.length_take, (sortOn_perm ..).length_eq]

/-- A pause of a minute means that nothing was left to delete. -/
theorem eligible_of_delay (hvalid : validateReceiptRetention retention = .ok retention)
    (hdelay : RetainedTables.cleanupDelay
      (s.cleanupExpiredReceipts retention started locked).1 ≠ 1) :
    (s.cleanupExpiredReceipts retention started locked).2.eligible retention started locked =
      [] := by
  rw [cleanup_eq hvalid] at hdelay ⊢
  have hless : (s.eligible retention started locked).length ≤ receiptCleanupBatchSize := by
    by_contra hmore
    rw [RetainedTables.cleanupDelay, min_eq_left (not_le.mp hmore).le, if_pos rfl] at hdelay
    exact hdelay rfl
  rw [← sortOn_eq_nil (f := ReceiptAge.order), sortOn_eligible_deleteReceipts]
  refine List.drop_eq_nil_of_le ?_
  rw [(sortOn_perm ..).length_eq]
  exact hless

/-- After some cleanups the oldest eligible receipts are gone, 500 for each. -/
theorem sortOn_eligible_iterate (s : RetainedTables) (n : ℕ) (locked : String → Bool)
    (hvalid : validateReceiptRetention retention = .ok retention) :
    sortOn ReceiptAge.order (((fun s : RetainedTables =>
        (s.cleanupExpiredReceipts retention started locked).2)^[n] s).eligible retention started
          locked) =
      (sortOn ReceiptAge.order (s.eligible retention started locked)).drop
        (n * receiptCleanupBatchSize) := by
  induction n with
  | zero => simp
  | succ n ih =>
    rw [Function.iterate_succ_apply', cleanup_eq hvalid, sortOn_eligible_deleteReceipts, ih,
      List.drop_drop, Nat.succ_mul]

/-- Two saves, the first of them two hours old. -/
def agedSaves : List RetentionEvent :=
  [.call (.save (batchedSave "r1" "k" none)) 0, .advance (2 * minReceiptRetention),
    .call (.save (batchedSave "r2" "k" none)) (2 * minReceiptRetention)]

end Batches

end DbProxy
