/-
What a snapshot save does to the tables.

The statements of `PostgresSnapshots` are taken apart one by one.  The results
for a whole entry:

* `save_fenced_ok` — everything that a fenced entry with a result can do:
  replay a receipt, write over a smaller sequence, or leave a larger one;
* `save_fenced_rejected` — a rejected fenced entry changes nothing;
* `saveSnapshotInTransaction_keeps` — an entry touches its own record only;
* `saveEntries_cons` — one round of the loop of a batch.
-/
import DbProxy.Checks
import DbProxy.EarlyReturn
import DbProxy.PostgresSnapshots

namespace DbProxy

/-! ### What one entry does -/

open EarlyReturn

/-- Errors that roll the transaction back. -/
def StorageError.aborts : StorageError → Bool
  | .core _ => false
  | _ => true

section Statements

variable {request : SnapshotWrite} {p : PreparedSave} {pg pg' : Postgres} {e : StorageError}

theorem bindTexts_ok {texts : List String} {u : Unit} (h : (bindTexts texts).run pg = .ok u pg') :
    pg = pg' ∧ texts.any hasNul = false := by
  rw [bindTexts] at h
  split at h
  · cases h
  · rename_i hnul
    cases h
    exact ⟨rfl, by simpa using hnul⟩

theorem bindTexts_error {texts : List String} (h : (bindTexts texts).run pg = .error e pg') :
    e = nulError := by
  rw [bindTexts] at h
  split at h
  · cases h
    rfl
  · cases h

theorem bindTexts_run {texts : List String} (h : texts.any hasNul = false) :
    (bindTexts texts).run pg = .ok () pg := by
  rw [bindTexts, if_neg (by simp [h])]
  rfl

theorem bigintSucc_ok {n m : ℕ} (h : (bigintSucc n).run pg = .ok m pg') : pg = pg' ∧ m = n + 1 := by
  rw [bigintSucc] at h
  split at h
  · cases h
    exact ⟨rfl, rfl⟩
  · cases h

theorem bigintSucc_error {n : ℕ} (h : (bigintSucc n).run pg = .error e pg') : e.aborts := by
  rw [bigintSucc] at h
  split at h
  · cases h
  · cases h
    rfl

theorem enqueueRepair_ok {record : RecordKey} {target : Revision} {u : Unit}
    (h : (enqueueRepair record target).run pg = .ok u pg') :
    pg'.snapshots = pg.snapshots ∧ pg'.idempotency = pg.idempotency := by
  rw [enqueueRepair] at h
  split at h
  · cases h
  · obtain ⟨_, m, hbind, h⟩ := bind_run_eq_ok.mp h
    obtain ⟨rfl, -⟩ := bindTexts_ok hbind
    cases h
    exact ⟨rfl, rfl⟩

theorem enqueueRepair_error {record : RecordKey} {target : Revision}
    (h : (enqueueRepair record target).run pg = .error e pg') : e.aborts := by
  rw [enqueueRepair] at h
  split at h
  · cases h
    rfl
  · rcases bind_run_eq_error.mp h with hbind | ⟨_, m, -, h⟩
    · rw [bindTexts_error hbind]
      rfl
    · cases h

theorem setReceiptRevision_ok {revision : Revision} {u : Unit}
    (h : (setReceiptRevision request revision).run pg = .ok u pg') :
    pg'.snapshots = pg.snapshots ∧
      pg'.idempotency = Function.update pg.idempotency request.requestId
        ((pg.idempotency request.requestId).map fun row => { row with revision }) := by
  rw [setReceiptRevision] at h
  split at h
  · cases h
  · obtain ⟨_, m, hbind, h⟩ := bind_run_eq_ok.mp h
    obtain ⟨rfl, -⟩ := bindTexts_ok hbind
    cases h
    exact ⟨rfl, rfl⟩

theorem setReceiptRevision_error {revision : Revision}
    (h : (setReceiptRevision request revision).run pg = .error e pg') : e.aborts := by
  rw [setReceiptRevision] at h
  split at h
  · cases h
    rfl
  · rcases bind_run_eq_error.mp h with hbind | ⟨_, m, -, h⟩
    · rw [bindTexts_error hbind]
      rfl
    · cases h

theorem selectRevision_ok {record : RecordKey} {r : Option Revision}
    (h : (selectRevision record).run pg = .ok r pg') :
    pg = pg' ∧ r = (pg.snapshots record).map (·.revision) := by
  rw [selectRevision] at h
  obtain ⟨_, m, hbind, h⟩ := bind_run_eq_ok.mp h
  obtain ⟨rfl, -⟩ := bindTexts_ok hbind
  cases h
  exact ⟨rfl, rfl⟩

theorem selectRevision_error {record : RecordKey}
    (h : (selectRevision record).run pg = .error e pg') : e.aborts := by
  rw [selectRevision] at h
  rcases bind_run_eq_error.mp h with hbind | ⟨_, m, -, h⟩
  · rw [bindTexts_error hbind]
    rfl
  · cases h

theorem setReceiptRevision_run {revision : Revision} (htexts : [request.requestId].any hasNul = false)
    (hrevision : revision < bigintLimit) :
    (setReceiptRevision request revision).run pg = .ok () { pg with
      idempotency := Function.update pg.idempotency request.requestId
        ((pg.idempotency request.requestId).map fun row => { row with revision }) } := by
  rw [setReceiptRevision, if_neg (not_le.mpr hrevision), bind_run_ok (bindTexts_run htexts)]
  rfl

theorem enqueueRepair_run {record : RecordKey} {target : Revision}
    (htexts : [record.ns, record.key].any hasNul = false) (htarget : target < bigintLimit) :
    (enqueueRepair record target).run pg = .ok () { pg with
      repairs := Function.update pg.repairs record
        (some (max ((pg.repairs record).getD target) target)) } := by
  rw [enqueueRepair, if_neg (not_le.mpr htarget), bind_run_ok (bindTexts_run htexts)]
  rfl

/-- The fenced upsert writes over nothing, or over a smaller sequence. -/
theorem upsertFenced_ok {updatedAt fence : ℕ} {r : Option Revision}
    (h : (upsertFenced request updatedAt fence).run pg = .ok r pg') :
    pg'.idempotency = pg.idempotency ∧
    ((∃ revision, r = some revision ∧
        (∀ row, pg.snapshots request.record = some row → row.queuedSequence.all (· < fence)) ∧
        pg'.snapshots = Function.update pg.snapshots request.record
          (some (rowOf request updatedAt revision (some fence)))) ∨
      (r = none ∧ pg = pg' ∧ ∃ row n, pg.snapshots request.record = some row ∧
        row.queuedSequence = some n ∧ fence ≤ n)) := by
  rw [upsertFenced] at h
  obtain ⟨_, m, hbind, h⟩ := bind_run_eq_ok.mp h
  obtain ⟨rfl, -⟩ := bindTexts_ok hbind
  rw [get_bind] at h
  split at h
  · rename_i hnone
    cases h
    refine ⟨rfl, Or.inl ⟨1, rfl, fun row hrow => ?_, rfl⟩⟩
    rw [hnone] at hrow
    cases hrow
  · rename_i row hrow
    split at h
    · rename_i hless
      obtain ⟨revision, m', hsucc, h⟩ := bind_run_eq_ok.mp h
      obtain ⟨rfl, -⟩ := bigintSucc_ok hsucc
      cases h
      refine ⟨rfl, Or.inl ⟨revision, rfl, fun row' hrow' => ?_, rfl⟩⟩
      rw [hrow, Option.some_inj] at hrow'
      exact hrow' ▸ hless
    · rename_i hless
      cases h
      refine ⟨rfl, Or.inr ⟨rfl, rfl, row, ?_⟩⟩
      cases hq : row.queuedSequence with
      | none => simp [hq] at hless
      | some n => exact ⟨n, hrow, rfl, by simpa [hq] using hless⟩

theorem upsertFenced_error {updatedAt fence : ℕ}
    (h : (upsertFenced request updatedAt fence).run pg = .error e pg') : e.aborts := by
  rw [upsertFenced] at h
  rcases bind_run_eq_error.mp h with hbind | ⟨_, m, -, h⟩
  · rw [bindTexts_error hbind]
    rfl
  · rw [get_bind] at h
    split at h
    · cases h
    · split at h
      · rcases bind_run_eq_error.mp h with hsucc | ⟨revision, m', -, h⟩
        · exact bigintSucc_error hsucc
        · cases h
      · cases h

theorem claimReceipt_ok {r : Option IdempotencyRow}
    (h : (claimReceipt request p).run pg = .ok r pg') :
    (∃ receipt, r = some receipt ∧ pg.idempotency request.requestId = some receipt ∧ pg = pg') ∨
    (r = none ∧ pg.idempotency request.requestId = none ∧ pg'.snapshots = pg.snapshots ∧
      pg'.idempotency = Function.update pg.idempotency request.requestId
        (some ⟨request.record, request.schema, request.schemaVersion, request.payload,
          p.expected, 0, some p.updatedAt⟩)) := by
  rw [claimReceipt] at h
  obtain ⟨_, m, hbind, h⟩ := bind_run_eq_ok.mp h
  obtain ⟨rfl, -⟩ := bindTexts_ok hbind
  rw [get_bind] at h
  split at h
  · rename_i receipt hreceipt
    cases h
    exact Or.inl ⟨receipt, rfl, hreceipt, rfl⟩
  · rename_i hnone
    cases h
    exact Or.inr ⟨rfl, hnone, rfl, rfl⟩

theorem claimReceipt_error (h : (claimReceipt request p).run pg = .error e pg') : e.aborts := by
  rw [claimReceipt] at h
  rcases bind_run_eq_error.mp h with hbind | ⟨_, m, -, h⟩
  · rw [bindTexts_error hbind]
    rfl
  · rw [get_bind] at h
    split at h
    · cases h
    · cases h

/-- Everything that a fenced entry with a result can do to the two tables. -/
inductive FencedSave (request : SnapshotWrite) (updatedAt fence : ℕ) (pg pg' : Postgres) : Prop
  /-- the receipt was there -/
  | replay (receipt : IdempotencyRow)
      (hreceipt : pg.idempotency request.requestId = some receipt)
      (hrecord : receipt.record = request.record)
      (hsnapshots : pg'.snapshots = pg.snapshots) (hreceipts : pg'.idempotency = pg.idempotency)
  /-- a new receipt, and the row is written -/
  | written (receipt : IdempotencyRow) (revision : Revision)
      (hfree : pg.idempotency request.requestId = none) (hrecord : receipt.record = request.record)
      (hreceipts : pg'.idempotency =
        Function.update pg.idempotency request.requestId (some receipt))
      (hsmaller : ∀ row, pg.snapshots request.record = some row →
        row.queuedSequence.all (· < fence))
      (hsnapshots : pg'.snapshots = Function.update pg.snapshots request.record
        (some (rowOf request updatedAt revision (some fence))))
  /-- a new receipt, but the row has a sequence that is not smaller -/
  | late (receipt : IdempotencyRow) (row : SnapshotRow) (n : ℕ)
      (hfree : pg.idempotency request.requestId = none) (hrecord : receipt.record = request.record)
      (hreceipts : pg'.idempotency =
        Function.update pg.idempotency request.requestId (some receipt))
      (hrow : pg.snapshots request.record = some row) (hqueued : row.queuedSequence = some n)
      (hlate : fence ≤ n) (hsnapshots : pg'.snapshots = pg.snapshots)

theorem saveFencedSnapshot_ok {updatedAt fence : ℕ} {outcome : SnapshotWriteOutcome}
    (h : (saveFencedSnapshot request updatedAt fence).run pg = .ok outcome pg') :
    (∃ revision, pg'.idempotency = Function.update pg.idempotency request.requestId
      ((pg.idempotency request.requestId).map fun row => { row with revision })) ∧
    ((∃ revision, outcome = .applied revision ∧
        (∀ row, pg.snapshots request.record = some row → row.queuedSequence.all (· < fence)) ∧
        pg'.snapshots = Function.update pg.snapshots request.record
          (some (rowOf request updatedAt revision (some fence)))) ∨
      (∃ revision, outcome = .duplicate revision) ∧ pg'.snapshots = pg.snapshots ∧
        ∃ row n, pg.snapshots request.record = some row ∧ row.queuedSequence = some n ∧
          fence ≤ n) := by
  rw [saveFencedSnapshot] at h
  obtain ⟨written, m, hupsert, hrest⟩ := bind_run_eq_ok.mp h
  obtain ⟨hreceipts, hwritten⟩ := upsertFenced_ok hupsert
  -- both branches end with the receipt and the repair target
  have hend : ∀ {revision : Revision} {m : Postgres} {outcome' : SnapshotWriteOutcome},
      (do
        setReceiptRevision request revision
        enqueueRepair request.record revision
        return outcome' : TxM SnapshotWriteOutcome).run m = .ok outcome pg' →
      outcome = outcome' ∧ pg'.snapshots = m.snapshots ∧
        pg'.idempotency = Function.update m.idempotency request.requestId
          ((m.idempotency request.requestId).map fun row => { row with revision }) := by
    intro revision m outcome' hrun
    obtain ⟨_, m₁, hreceipt, hrun⟩ := bind_run_eq_ok.mp hrun
    obtain ⟨_, m₂, hrepair, hrun⟩ := bind_run_eq_ok.mp hrun
    cases hrun
    obtain ⟨hs₁, hi₁⟩ := setReceiptRevision_ok hreceipt
    obtain ⟨hs₂, hi₂⟩ := enqueueRepair_ok hrepair
    exact ⟨rfl, hs₂.trans hs₁, hi₂.trans hi₁⟩
  rcases hwritten with ⟨revision, rfl, hsmaller, hsnapshots⟩ | ⟨rfl, rfl, hlate⟩
  · obtain ⟨houtcome, hs, hi⟩ := hend hrest
    rw [hreceipts] at hi
    exact ⟨⟨revision, hi⟩, Or.inl ⟨revision, houtcome, hsmaller, hs.trans hsnapshots⟩⟩
  · obtain ⟨current, m, hselect, hrest⟩ := bind_run_eq_ok.mp hrest
    obtain ⟨rfl, -⟩ := selectRevision_ok hselect
    split at hrest
    · cases hrest
    · rename_i revision
      obtain ⟨houtcome, hs, hi⟩ := hend hrest
      exact ⟨⟨revision, hi⟩, Or.inr ⟨⟨revision, houtcome⟩, hs, hlate⟩⟩

theorem saveFencedSnapshot_error {updatedAt fence : ℕ}
    (h : (saveFencedSnapshot request updatedAt fence).run pg = .error e pg') : e.aborts := by
  have hend : ∀ {revision : Revision} {m : Postgres} {outcome : SnapshotWriteOutcome},
      (do
        setReceiptRevision request revision
        enqueueRepair request.record revision
        return outcome : TxM SnapshotWriteOutcome).run m = .error e pg' → e.aborts := by
    intro revision m outcome hrun
    rcases bind_run_eq_error.mp hrun with hreceipt | ⟨_, m₁, -, hrun⟩
    · exact setReceiptRevision_error hreceipt
    · rcases bind_run_eq_error.mp hrun with hrepair | ⟨_, m₂, -, hrun⟩
      · exact enqueueRepair_error hrepair
      · cases hrun
  rw [saveFencedSnapshot] at h
  rcases bind_run_eq_error.mp h with hupsert | ⟨written, m, -, hrest⟩
  · exact upsertFenced_error hupsert
  · split at hrest
    · exact hend hrest
    · rcases bind_run_eq_error.mp hrest with hselect | ⟨current, m, -, hrest⟩
      · exact selectRevision_error hselect
      · split at hrest
        · cases hrest
          rfl
        · exact hend hrest

/-- **A fenced entry with a result.** -/
theorem save_fenced_ok {fence : ℕ} {outcome : SnapshotWriteOutcome} (hfence : p.fence = some fence)
    (h : (saveSnapshotInTransaction request p).run pg = .ok outcome pg') :
    FencedSave request p.updatedAt fence pg pg' := by
  rw [saveSnapshotInTransaction] at h
  obtain ⟨claimed, m, hclaim, hrest⟩ := bind_run_eq_ok.mp h
  rcases claimReceipt_ok hclaim with ⟨receipt, rfl, hreceipt, rfl⟩ | ⟨rfl, hfree, hsame, hinsert⟩
  · dsimp only at hrest
    split at hrest
    · rename_i hmatches
      obtain ⟨_, m, hrepair, hrest⟩ := bind_run_eq_ok.mp hrest
      obtain ⟨hs, hi⟩ := enqueueRepair_ok hrepair
      cases hrest
      have hrecord : receipt.record = request.record := by
        simp only [idempotencyMatches, Bool.and_eq_true, decide_eq_true_eq] at hmatches
        exact hmatches.1.1.1.1.1
      exact .replay receipt hreceipt hrecord hs hi
    · cases hrest
  · dsimp only at hrest
    rw [hfence] at hrest
    obtain ⟨⟨revision, hreceipts⟩, hwritten⟩ := saveFencedSnapshot_ok hrest
    rw [hinsert, Function.update_self, Function.update_idem, Option.map_some] at hreceipts
    rw [hsame] at hwritten
    rcases hwritten with
      ⟨revision', -, hsmaller, hsnapshots⟩ | ⟨-, hsnapshots, row, n, hrow, hq, hle⟩
    · exact .written _ revision' hfree rfl hreceipts hsmaller hsnapshots
    · exact .late _ row n hfree rfl hreceipts hrow hq hle hsnapshots

/-- A fenced entry that is rejected wrote nothing. -/
theorem save_fenced_rejected {fence : ℕ} {e : StoreError} (hfence : p.fence = some fence)
    (h : (saveSnapshotInTransaction request p).run pg = .error (.core e) pg') : pg' = pg := by
  rw [saveSnapshotInTransaction] at h
  rcases bind_run_eq_error.mp h with hclaim | ⟨claimed, m, hclaim, hrest⟩
  · exact absurd (claimReceipt_error hclaim) (by simp [StorageError.aborts])
  · rcases claimReceipt_ok hclaim with ⟨receipt, rfl, -, rfl⟩ | ⟨rfl, -, -, -⟩
    · dsimp only at hrest
      split at hrest
      · rcases bind_run_eq_error.mp hrest with hrepair | ⟨_, m, -, hrest⟩
        · exact absurd (enqueueRepair_error hrepair) (by simp [StorageError.aborts])
        · cases hrest
      · cases hrest
        rfl
    · dsimp only at hrest
      rw [hfence] at hrest
      exact absurd (saveFencedSnapshot_error hrest) (by simp [StorageError.aborts])

end Statements

/-! ### What an entry leaves alone -/

/-- The row of `r` stays, and no receipt of `r` appears. -/
structure Untouched (r : RecordKey) (pg pg' : Postgres) : Prop where
  snapshot : pg'.snapshots r = pg.snapshots r
  receipts : ∀ id receipt, pg'.idempotency id = some receipt → receipt.record = r →
    ∃ receipt', pg.idempotency id = some receipt' ∧ receipt'.record = r

theorem Untouched.refl (r : RecordKey) (pg : Postgres) : Untouched r pg pg :=
  ⟨rfl, fun _ receipt h hr => ⟨receipt, h, hr⟩⟩

theorem Untouched.trans {r : RecordKey} (a b c : Postgres) (h : Untouched r a b)
    (h' : Untouched r b c) : Untouched r a c := by
  refine ⟨h'.snapshot.trans h.snapshot, fun id receipt hid hr => ?_⟩
  obtain ⟨receipt', hid', hr'⟩ := h'.receipts id receipt hid hr
  exact h.receipts id receipt' hid' hr'

/-- A receipt is replaced by one that `r` does not own unless it owned the old one. -/
theorem untouched_update {r : RecordKey} {pg : Postgres} {id : String}
    {receipt : Option IdempotencyRow}
    (h : ∀ new, receipt = some new → new.record = r →
      ∃ old, pg.idempotency id = some old ∧ old.record = r) :
    Untouched r pg { pg with idempotency := Function.update pg.idempotency id receipt } := by
  refine ⟨rfl, fun id' new hid hr => ?_⟩
  dsimp only at hid
  by_cases heq : id' = id
  · subst heq
    rw [Function.update_self] at hid
    exact h new hid hr
  · rw [Function.update_of_ne heq] at hid
    exact ⟨new, hid, hr⟩

section Keeps

variable {r : RecordKey} {request : SnapshotWrite} {p : PreparedSave}

theorem bindTexts_keeps (texts : List String) : Keeps (Untouched r) (bindTexts texts) := by
  rw [bindTexts]
  split
  · exact keeps_throw (Untouched.refl r) _
  · exact keeps_pure (Untouched.refl r) _

theorem bigintSucc_keeps (n : ℕ) : Keeps (Untouched r) (bigintSucc n) := by
  rw [bigintSucc]
  split
  · exact keeps_pure (Untouched.refl r) _
  · exact keeps_throw (Untouched.refl r) _

theorem setRow_keeps {record : RecordKey} (hr : record ≠ r) (row : SnapshotRow) :
    Keeps (Untouched r) (setRow record row) := by
  refine keeps_modify fun pg => ⟨?_, fun _ receipt h hr => ⟨receipt, h, hr⟩⟩
  exact Function.update_of_ne (Ne.symm hr) _ _

theorem enqueueRepair_keeps (record : RecordKey) (target : Revision) :
    Keeps (Untouched r) (enqueueRepair record target) := by
  rw [enqueueRepair]
  split
  · exact keeps_throw (Untouched.refl r) _
  · refine keeps_bind Untouched.trans (bindTexts_keeps _) fun _ => ?_
    exact keeps_modify fun pg => ⟨rfl, fun _ receipt h hr => ⟨receipt, h, hr⟩⟩

theorem setReceiptRevision_keeps (revision : Revision) :
    Keeps (Untouched r) (setReceiptRevision request revision) := by
  rw [setReceiptRevision]
  split
  · exact keeps_throw (Untouched.refl r) _
  · refine keeps_bind Untouched.trans (bindTexts_keeps _) fun _ => keeps_modify fun pg => ?_
    refine untouched_update fun new hnew hr => ?_
    obtain ⟨old, hold, rfl⟩ := Option.map_eq_some_iff.mp hnew
    exact ⟨old, hold, hr⟩

theorem dropReceipt_keeps : Keeps (Untouched r) (dropReceipt request) := by
  rw [dropReceipt]
  refine keeps_bind Untouched.trans (bindTexts_keeps _) fun _ => keeps_modify fun pg => ?_
  refine untouched_update fun new hnew hr => ?_
  exact ⟨new, (Option.filter_eq_some_iff.mp hnew).1, hr⟩

theorem selectRevision_keeps (record : RecordKey) : Keeps (Untouched r) (selectRevision record) := by
  rw [selectRevision]
  refine keeps_bind Untouched.trans (bindTexts_keeps _) fun _ => keeps_get_bind fun pg => ?_
  exact keeps_pure (Untouched.refl r) _

theorem claimReceipt_keeps (hr : request.record ≠ r) :
    Keeps (Untouched r) (claimReceipt request p) := by
  rw [claimReceipt]
  refine keeps_bind Untouched.trans (bindTexts_keeps _) fun _ => keeps_get_bind fun pg => ?_
  split
  · exact keeps_pure (Untouched.refl r) _
  · refine keeps_bind Untouched.trans (keeps_modify fun pg => ?_)
      fun _ => keeps_pure (Untouched.refl r) _
    refine untouched_update fun new hnew hrecord => ?_
    rw [Option.some_inj] at hnew
    subst hnew
    exact absurd hrecord hr

/-- The receipt and the repair target at the end of a save. -/
theorem finish_keeps (revision : Revision) (outcome : SnapshotWriteOutcome) :
    Keeps (Untouched r) (do
      setReceiptRevision request revision
      enqueueRepair request.record revision
      return outcome : TxM SnapshotWriteOutcome) :=
  keeps_bind Untouched.trans (setReceiptRevision_keeps revision) fun _ =>
    keeps_bind Untouched.trans (enqueueRepair_keeps _ _) fun _ => keeps_pure (Untouched.refl r) _

theorem upsertFenced_keeps (hr : request.record ≠ r) (updatedAt fence : ℕ) :
    Keeps (Untouched r) (upsertFenced request updatedAt fence) := by
  rw [upsertFenced]
  refine keeps_bind Untouched.trans (bindTexts_keeps _) fun _ => keeps_get_bind fun pg => ?_
  split
  · exact keeps_bind Untouched.trans (setRow_keeps hr _) fun _ => keeps_pure (Untouched.refl r) _
  · split
    · refine keeps_bind Untouched.trans (bigintSucc_keeps _) fun _ => ?_
      exact keeps_bind Untouched.trans (setRow_keeps hr _) fun _ => keeps_pure (Untouched.refl r) _
    · exact keeps_pure (Untouched.refl r) _

theorem upsertOrdinary_keeps (hr : request.record ≠ r) :
    Keeps (Untouched r) (upsertOrdinary request p) := by
  rw [upsertOrdinary]
  refine keeps_bind Untouched.trans (bindTexts_keeps _) fun _ => keeps_get_bind fun pg => ?_
  split
  · split
    · exact keeps_bind Untouched.trans (setRow_keeps hr _) fun _ => keeps_pure (Untouched.refl r) _
    · exact keeps_pure (Untouched.refl r) _
  · split
    · refine keeps_bind Untouched.trans (bigintSucc_keeps _) fun _ => ?_
      exact keeps_bind Untouched.trans (setRow_keeps hr _) fun _ => keeps_pure (Untouched.refl r) _
    · exact keeps_pure (Untouched.refl r) _

/-- **An entry touches its own record only**, whether it is fenced or not. -/
theorem saveSnapshotInTransaction_keeps (hr : request.record ≠ r) :
    Keeps (Untouched r) (saveSnapshotInTransaction request p) := by
  rw [saveSnapshotInTransaction]
  refine keeps_bind Untouched.trans (claimReceipt_keeps hr) fun claimed => ?_
  split
  · split
    · exact keeps_bind Untouched.trans (enqueueRepair_keeps _ _) fun _ =>
        keeps_pure (Untouched.refl r) _
    · exact keeps_throw (Untouched.refl r) _
  · split
    · rw [saveFencedSnapshot]
      refine keeps_bind Untouched.trans (upsertFenced_keeps hr _ _) fun written => ?_
      split
      · exact finish_keeps _ _
      · refine keeps_bind Untouched.trans (selectRevision_keeps _) fun current => ?_
        split
        · exact keeps_throw (Untouched.refl r) _
        · exact finish_keeps _ _
    · rw [saveOrdinarySnapshot]
      refine keeps_bind Untouched.trans (upsertOrdinary_keeps hr) fun written => ?_
      split
      · refine keeps_bind Untouched.trans (selectRevision_keeps _) fun current => ?_
        exact keeps_bind Untouched.trans dropReceipt_keeps fun _ =>
          keeps_throw (Untouched.refl r) _
      · exact finish_keeps _ _

end Keeps

/-! ### One round of the batch -/

/-- How the loop of a batch passes one entry. -/
inductive EntryStep (request : SnapshotWrite) (sequence : Option ℕ) (pg : Postgres) :
    Except StorageError SnapshotWriteOutcome → Postgres → Prop
  | invalid {e} (h : prepareSave request sequence = .error e) :
      EntryStep request sequence pg (.error e) pg
  | saved {p outcome pg'} (hp : prepareSave request sequence = .ok p)
      (h : (saveSnapshotInTransaction request p).run pg = .ok outcome pg') :
      EntryStep request sequence pg (.ok outcome) pg'
  | rejected {p e pg'} (hp : prepareSave request sequence = .ok p)
      (h : (saveSnapshotInTransaction request p).run pg = .error (.core e) pg') :
      EntryStep request sequence pg (.error (.core e)) pg'

theorem saveEntries_cons {request : SnapshotWrite} {sequence : Option ℕ}
    {rest : List (SnapshotWrite × Option ℕ)} {pg pg' : Postgres}
    {results : List (Except StorageError SnapshotWriteOutcome)}
    (h : (saveEntries ((request, sequence) :: rest)).run pg = .ok results pg') :
    ∃ result results' m, results = result :: results' ∧ EntryStep request sequence pg result m ∧
      (saveEntries rest).run m = .ok results' pg' := by
  rw [saveEntries] at h
  obtain ⟨result, m, hentry, h⟩ := bind_run_eq_ok.mp h
  obtain ⟨results', m', hrest, h⟩ := bind_run_eq_ok.mp h
  cases h
  refine ⟨result, results', m, rfl, ?_, hrest⟩
  rw [saveEntry] at hentry
  split at hentry
  · rename_i e hprepare
    cases hentry
    exact .invalid hprepare
  · rename_i p hprepare
    simp only [perEntry, EStateM.run] at hentry
    split at hentry
    · rename_i outcome m' hsave
      cases hentry
      exact .saved hprepare hsave
    · rename_i e m' hsave
      cases hentry
      exact .rejected hprepare hsave
    · cases hentry

theorem saveEntries_length : ∀ {entries : List (SnapshotWrite × Option ℕ)} {pg pg' : Postgres}
    {results : List (Except StorageError SnapshotWriteOutcome)},
    (saveEntries entries).run pg = .ok results pg' → results.length = entries.length
  | [], _, _, _, h => by
    cases h
    rfl
  | (request, sequence) :: rest, _, _, _, h => by
    obtain ⟨result, results', m, rfl, -, hrest⟩ := saveEntries_cons h
    rw [List.length_cons, List.length_cons, saveEntries_length hrest]

theorem EntryStep.untouched {r : RecordKey} {request : SnapshotWrite} {sequence : Option ℕ}
    {pg pg' : Postgres} {result : Except StorageError SnapshotWriteOutcome}
    (hr : request.record ≠ r) (h : EntryStep request sequence pg result pg') :
    Untouched r pg pg' := by
  cases h with
  | invalid _ => exact Untouched.refl r pg
  | saved _ hrun => exact (saveSnapshotInTransaction_keeps hr).of_ok hrun
  | rejected _ hrun => exact (saveSnapshotInTransaction_keeps hr).of_error hrun

theorem saveEntries_untouched {r : RecordKey} :
    ∀ {entries : List (SnapshotWrite × Option ℕ)} {pg pg' : Postgres}
      {results : List (Except StorageError SnapshotWriteOutcome)},
      (∀ x ∈ entries, x.1.record ≠ r) → (saveEntries entries).run pg = .ok results pg' →
      Untouched r pg pg'
  | [], pg, _, _, _, h => by
    cases h
    exact Untouched.refl r pg
  | (request, sequence) :: rest, _, _, _, hr, h => by
    obtain ⟨result, results', m, rfl, hstep, hrest⟩ := saveEntries_cons h
    have hhead := hstep.untouched (hr _ (List.mem_cons_self ..))
    exact hhead.trans _ _ _
      (saveEntries_untouched (fun x hx => hr x (List.mem_cons_of_mem _ hx)) hrest)

/-- A batch of ordinary saves leaves other records alone. -/
theorem saveBatch_untouched {r : RecordKey} {requests : List SnapshotWrite} (pg : Postgres)
    (hr : ∀ q ∈ requests, q.record ≠ r) : Untouched r pg (saveBatch requests pg).2 := by
  rw [saveBatch, saveBatchFenced]
  split
  · rename_i results pg' hrun
    refine saveEntries_untouched (fun x hx => ?_) hrun
    obtain ⟨q, hq, rfl⟩ := List.mem_map.mp hx
    exact hr q hq
  · exact Untouched.refl r pg

theorem prepareSave_ok {request : SnapshotWrite} {sequence : Option ℕ} {p : PreparedSave}
    (h : prepareSave request sequence = .ok p) :
    p.fence = sequence ∧ p.updatedAt = request.updatedAtUnixMs := by
  obtain ⟨_, -, h⟩ := Checks.bind_eq_ok.mp h
  obtain ⟨fence, hfence, h⟩ := Checks.bind_eq_ok.mp h
  obtain ⟨expected, -, h⟩ := Checks.bind_eq_ok.mp h
  obtain ⟨updatedAt, htime, h⟩ := Checks.bind_eq_ok.mp h
  cases h
  constructor
  · show fence = sequence
    cases sequence with
    | none =>
      cases hfence
      rfl
    | some n =>
      simp only [fenceToI64] at hfence
      split at hfence
      · cases hfence
      · split at hfence
        · cases hfence
          rfl
        · cases hfence
  · show updatedAt = request.updatedAtUnixMs
    rw [timestampToI64] at htime
    split at htime
    · cases htime
      rfl
    · cases htime

end DbProxy
