/-
The receipts of multi-record transactions in PostgreSQL: what `commit_records`
stores for a retry and how a retry is recognised.

* `checkI64` — the conversions to `BIGINT` on the way to the tables;
* `multiTransactionRowMatches` — the row comparison of a retry;
* `rowsOf_matches` — a request matches the rows that it stored.
-/
import DbProxy.CommitEffects
import DbProxy.PostgresSnapshots

namespace DbProxy

open Text

/-! ### Rows -/

/-- `dbproxy_multi_transactions`. -/
structure MultiTransactionRow where
  result : Bytes
  recordCount : ℕ
  updatedAtUnixMs : ℕ
deriving DecidableEq

/-- `dbproxy_multi_transaction_records`. -/
structure MultiRecordRow where
  record : RecordKey
  schema : String
  schemaVersion : ℕ
  expectedRevision : ℕ
  payload : Bytes
  updatedAtUnixMs : ℕ
  newRevision : Revision
deriving DecidableEq

def MultiRecordRow.ofWrite (write : TransactionalRecordWrite) (newRevision : Revision) :
    MultiRecordRow :=
  ⟨write.record, write.schema, write.schemaVersion, write.expectedRevision, write.payload,
    write.updatedAtUnixMs, newRevision⟩

def MultiRecordRow.receipt (row : MultiRecordRow) : TransactionRecordReceipt :=
  ⟨row.record, row.newRevision⟩

/-- The header row of a request. -/
def MultiRecordTransactionalWrite.header (request : MultiRecordTransactionalWrite) :
    MultiTransactionRow :=
  ⟨request.result, request.writes.length, (request.writes.head?).elim 0 (·.updatedAtUnixMs)⟩

/-- The record rows of a request. -/
def MultiRecordTransactionalWrite.rows (request : MultiRecordTransactionalWrite)
    (revisions : List Revision) : List MultiRecordRow :=
  request.writes.zipWith MultiRecordRow.ofWrite revisions

/-! ### Checks before the transaction -/

/-- `validate_multi_transaction_request`. -/
def validateMultiTransactionRequest (request : MultiRecordTransactionalWrite) :
    Except StoreError Unit := do
  if blank request.operationId then .error .emptyOperationId
  else if request.writes.isEmpty then .error .emptyTransactionRecords
  else
    checkDistinctRecords ((sortOn (·.record) request.writes).map (·.record))
    request.writes.forM fun write =>
      if blank write.record.ns then .error (.invalidKey "namespace is empty")
      else if blank write.record.key then .error (.invalidKey "key is empty")
      else if blank write.schema then .error (.invalidKey "schema is empty")
      else .ok ()

/-- What `commit_records` works on: checked effects and the writes in the order of their
records. -/
def prepareCommit (decode : Bytes → Option EventEnvelope) (request : MultiRecordTransactionalWrite)
    (effects : CommitEffects) :
    Except StorageError (MultiRecordTransactionalWrite × CommitEffects) := do
  let effects ← (effects.normalize decode).mapError .core
  (validateMultiTransactionRequest request).mapError .core
  return ({ request with writes := sortOn (·.record) request.writes }, effects)

/-- What the checks leave. -/
structure MultiRecordTransactionalWrite.Prepared (request : MultiRecordTransactionalWrite) :
    Prop where
  named : blank request.operationId = false
  nonempty : request.writes ≠ []
  sorted : request.writes.Pairwise fun a b => a.record ≤ b.record
  nodup : (request.writes.map (·.record)).Nodup
  keys : ∀ write ∈ request.writes, blank write.record.ns = false ∧ blank write.record.key = false

theorem prepared_of_prepareCommit {decode : Bytes → Option EventEnvelope}
    {request request' : MultiRecordTransactionalWrite} {effects effects' : CommitEffects}
    (h : prepareCommit decode request effects = .ok (request', effects')) : request'.Prepared := by
  obtain ⟨_, -, h⟩ := Checks.bind_eq_ok.mp h
  obtain ⟨_, hvalidate, h⟩ := Checks.bind_eq_ok.mp h
  obtain ⟨rfl, -⟩ := Prod.mk.inj (Except.ok.inj h)
  have hvalid : validateMultiTransactionRequest request = .ok () := by
    cases hv : validateMultiTransactionRequest request with
    | error e =>
      rw [hv] at hvalidate
      cases hvalidate
    | ok u => rfl
  simp only [validateMultiTransactionRequest] at hvalid
  split at hvalid
  · cases hvalid
  · rename_i hnamed
    split at hvalid
    · cases hvalid
    · rename_i hnonempty
      obtain ⟨_, hdistinct, hkeys⟩ := Checks.bind_eq_ok.mp hvalid
      refine ⟨by simpa using hnamed, by simpa using hnonempty, pairwise_sortOn .., ?_, ?_⟩
      · exact map_sortOn_nodup.mpr (checkDistinctRecords_ok.mp hdistinct)
      · intro write hwrite
        have hcheck := Checks.forM_eq_ok.mp hkeys write (mem_sortOn.mp hwrite)
        split at hcheck
        · cases hcheck
        · rename_i hns
          split at hcheck
          · cases hcheck
          · rename_i hkey
            exact ⟨by simpa using hns, by simpa using hkey⟩

/-! ### Conversions to `BIGINT` -/

/-- `timestamp_to_i64` of the first write, bound with the header. -/
def checkHeaderI64 (request : MultiRecordTransactionalWrite) : Except StorageError Unit :=
  match request.writes.head? with
  | none => .ok ()
  | some write => (timestampToI64 write.record write.updatedAtUnixMs).map fun _ => ()

/-- The conversions of `persist_transactional_snapshot`. -/
def checkI64 (write : TransactionalRecordWrite) (revision : Revision) : Except StorageError Unit :=
  if bigintLimit ≤ write.expectedRevision then .error (.revisionTooLarge write.record)
  else if bigintLimit ≤ revision then .error (.revisionTooLarge write.record)
  else if bigintLimit ≤ write.updatedAtUnixMs then .error (.timestampTooLarge write.record)
  else .ok ()

/-! ### Recognising a retry -/

/-- `multi_transaction_row_matches`. -/
def multiTransactionRowMatches (row : MultiRecordRow) (write : TransactionalRecordWrite) : Bool :=
  write.expectedRevision < bigintLimit && write.updatedAtUnixMs < bigintLimit &&
    row.record = write.record && row.schema = write.schema &&
    row.schemaVersion = write.schemaVersion && row.expectedRevision = write.expectedRevision &&
    row.payload = write.payload && row.updatedAtUnixMs = write.updatedAtUnixMs

/-- Header and rows of a retry. -/
def receiptMatches (header : MultiTransactionRow) (rows : List MultiRecordRow)
    (request : MultiRecordTransactionalWrite) : Bool :=
  header.recordCount = request.writes.length && header.result = request.result &&
    rows.length = request.writes.length &&
    (rows.zip request.writes).all fun (row, write) => multiTransactionRowMatches row write

/-- The stored effects of a retry: `commit::verify_retry`. -/
def effectsMatch (encode : CommitEffects → Bytes) (stored : Option Bytes) (effects : CommitEffects) :
    Bool :=
  match stored with
  | some bytes => bytes = encode effects
  | none => effects.isEmpty

/-- The effects row of a commit: `commit::persist` stores none for empty effects. -/
def effectsRow (encode : CommitEffects → Bytes) (effects : CommitEffects) : Option Bytes :=
  if effects.isEmpty then none else some (encode effects)

theorem effectsMatch_effectsRow (encode : CommitEffects → Bytes) (effects : CommitEffects) :
    effectsMatch encode (effectsRow encode effects) effects := by
  rw [effectsRow]
  split <;> simp_all [effectsMatch]

/-- The writes of the request fit the columns. -/
def MultiRecordTransactionalWrite.Fits (request : MultiRecordTransactionalWrite) : Prop :=
  ∀ write ∈ request.writes,
    write.expectedRevision < bigintLimit ∧ write.updatedAtUnixMs < bigintLimit

theorem MultiRecordTransactionalWrite.Fits.checkHeaderI64_eq {request : MultiRecordTransactionalWrite}
    (h : request.Fits) : checkHeaderI64 request = .ok () := by
  rw [checkHeaderI64]
  cases hwrites : request.writes.head? with
  | none => rfl
  | some write =>
    have := (h write (List.mem_of_head? hwrites)).2
    simp [timestampToI64, this, Except.map]

theorem multiTransactionRowMatches_ofWrite {write : TransactionalRecordWrite}
    (hrevision : write.expectedRevision < bigintLimit)
    (htime : write.updatedAtUnixMs < bigintLimit) (revision : Revision) :
    multiTransactionRowMatches (.ofWrite write revision) write := by
  simp [multiTransactionRowMatches, MultiRecordRow.ofWrite, hrevision, htime]

/-- A request matches what it stored. -/
theorem receiptMatches_rows {request : MultiRecordTransactionalWrite} {revisions : List Revision}
    (hfits : request.Fits) (hlength : revisions.length = request.writes.length) :
    receiptMatches request.header (request.rows revisions) request := by
  have hrows : ∀ {writes : List TransactionalRecordWrite} {revisions : List Revision},
      (∀ write ∈ writes,
        write.expectedRevision < bigintLimit ∧ write.updatedAtUnixMs < bigintLimit) →
      ((writes.zipWith MultiRecordRow.ofWrite revisions).zip writes).all
        (fun (row, write) => multiTransactionRowMatches row write) = true := by
    intro writes
    induction writes with
    | nil => simp
    | cons write writes ih =>
      intro revisions hfits
      cases revisions with
      | nil => simp
      | cons revision revisions =>
        have hwrite := hfits write (List.mem_cons_self ..)
        simp only [List.zipWith_cons_cons, List.zip_cons_cons, List.all_cons, Bool.and_eq_true]
        exact ⟨multiTransactionRowMatches_ofWrite hwrite.1 hwrite.2 revision,
          ih fun w hw => hfits w (List.mem_cons_of_mem _ hw)⟩
  simp only [receiptMatches, MultiRecordTransactionalWrite.header,
    MultiRecordTransactionalWrite.rows, Bool.and_eq_true, decide_eq_true_eq,
    List.length_zipWith, hlength, min_self, true_and]
  exact hrows hfits

theorem exists_write_of_mem_zipWith {row : MultiRecordRow} :
    ∀ {writes : List TransactionalRecordWrite} {revisions : List Revision},
      row ∈ writes.zipWith MultiRecordRow.ofWrite revisions →
      ∃ write ∈ writes, row.record = write.record := by
  intro writes revisions h
  obtain ⟨n, hn, rfl⟩ := List.mem_iff_getElem.mp h
  rw [List.length_zipWith] at hn
  refine ⟨writes[n], List.getElem_mem _, ?_⟩
  rw [List.getElem_zipWith]
  rfl

/-- The rows are stored in the order of the writes. -/
theorem MultiRecordTransactionalWrite.rows_pairwise {request : MultiRecordTransactionalWrite}
    (h : request.writes.Pairwise fun a b => a.record ≤ b.record) (revisions : List Revision) :
    (request.rows revisions).Pairwise fun a b => a.record ≤ b.record := by
  rw [MultiRecordTransactionalWrite.rows]
  generalize request.writes = writes at h
  induction writes generalizing revisions with
  | nil => simp
  | cons write writes ih =>
    cases revisions with
    | nil => simp
    | cons revision revisions =>
      obtain ⟨hhead, htail⟩ := List.pairwise_cons.mp h
      refine List.pairwise_cons.mpr ⟨fun row hrow => ?_, ih revisions htail⟩
      obtain ⟨write', hwrite', heq⟩ := exists_write_of_mem_zipWith hrow
      rw [heq]
      exact hhead write' hwrite'

end DbProxy
