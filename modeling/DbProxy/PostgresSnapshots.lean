/-
Snapshot saves in PostgreSQL: `save_batch` and `save_queued_batch`.

`Postgres` holds the tables that a save touches.  A statement is an action of
`TxM`; an error other than a rejected entry ends the transaction and rolls it
back.  A batch takes row locks until it commits, so it is modelled as one
atomic transaction.  What PostgreSQL itself refuses is here too: a text with
U+0000 fails the statement that binds it, and a `BIGINT` has the range of `i64`.
Of a cache repair row only the target revision is kept.

* `saveSnapshotInTransaction` — one entry: receipt, fenced or ordinary write,
  repair target;
* `saveBatchFenced` — the shared transaction of a batch;
* `rereadDuplicates` — the check that a duplicate's record is there.
-/
import DbProxy.CoreTypes
import DbProxy.Text

namespace DbProxy

open Text

/-! ### Tables -/

structure SnapshotRow where
  schema : String
  schemaVersion : ℕ
  revision : Revision
  payload : Bytes
  updatedAtUnixMs : ℕ
  queuedSequence : Option ℕ
deriving DecidableEq, Repr

structure IdempotencyRow where
  record : RecordKey
  schema : String
  schemaVersion : ℕ
  payload : Bytes
  expectedRevision : Option Revision
  revision : Revision
  updatedAtUnixMs : Option ℕ
deriving DecidableEq, Repr

/-- `dbproxy_snapshots`, `dbproxy_idempotency` and the targets of `dbproxy_cache_repairs`. -/
structure Postgres where
  snapshots : RecordKey → Option SnapshotRow := fun _ => none
  idempotency : String → Option IdempotencyRow := fun _ => none
  repairs : RecordKey → Option Revision := fun _ => none

/-- The variants of `StorageError` that these paths produce. -/
inductive StorageError
  | core (e : StoreError)
  | postgres (message : String)
  | codec (message : String)
  | backlogProtocol (message : String)
  | invalidBacklogLease
  | backlogLeaseTooLarge (leaseMs : ℕ)
  | persistenceProtocol (message : String)
  | revisionTooLarge (record : RecordKey)
  | timestampTooLarge (record : RecordKey)
  | missingAfterWrite (record : RecordKey)
  | queueProtocol (message : String)
  | invalidQueueWorker
  | invalidQueueLease
  | tradeProtocol (message : String)
  | tradeVersionTooLarge (tradeId : String)
deriving DecidableEq, Repr

inductive BackendError
  | invalidConfig (message : String)
  | core (e : StoreError)
  | storage (e : StorageError)
  | worker (message : String)
deriving DecidableEq, Repr

/-- The statements of one transaction. -/
abbrev TxM := EStateM StorageError Postgres

/-! ### What PostgreSQL refuses -/

/-- A text that contains U+0000. -/
def hasNul (t : String) : Bool := t.toList.any (·.toNat = 0)

def nulError : StorageError := .postgres "invalid byte sequence for encoding \"UTF8\": 0x00"

/-- Bind the text parameters of a statement. -/
def bindTexts (texts : List String) : TxM Unit :=
  if texts.any hasNul then throw nulError else pure ()

/-- The bound of `i64`. -/
def bigintLimit : ℕ := 2 ^ 63

/-- `revision + 1` in a statement. -/
def bigintSucc (n : ℕ) : TxM ℕ :=
  if n + 1 < bigintLimit then pure (n + 1) else throw (.postgres "bigint out of range")

/-! ### Checks before the transaction -/

def validateRequest (request : SnapshotWrite) : Except StorageError Unit :=
  if blank request.requestId then .error (.core .emptyRequestId)
  else if blank request.record.ns then .error (.core (.invalidKey "namespace is empty"))
  else if blank request.record.key then .error (.core (.invalidKey "key is empty"))
  else .ok ()

def revisionToI64 (record : RecordKey) : Option Revision → Except StorageError (Option ℕ)
  | none => .ok none
  | some r => if r < bigintLimit then .ok (some r) else .error (.revisionTooLarge record)

def timestampToI64 (record : RecordKey) (t : ℕ) : Except StorageError ℕ :=
  if t < bigintLimit then .ok t else .error (.timestampTooLarge record)

/-- The fence sequence of a queued write, which must be unconditional. -/
def fenceToI64 (request : SnapshotWrite) : Option ℕ → Except StorageError (Option ℕ)
  | none => .ok none
  | some sequence =>
    if request.expectedRevision.isSome then
      .error (.core (.queuedSnapshotRequiresUnconditionalWrite request.record))
    else if sequence < bigintLimit then .ok (some sequence)
    else .error (.persistenceProtocol "queued fence sequence is too large")

/-- The parameters of the statements of one entry. -/
structure PreparedSave where
  expected : Option ℕ
  updatedAt : ℕ
  fence : Option ℕ

def prepareSave (request : SnapshotWrite) (sequence : Option ℕ) :
    Except StorageError PreparedSave := do
  validateRequest request
  let fence ← fenceToI64 request sequence
  let expected ← revisionToI64 request.record request.expectedRevision
  let updatedAt ← timestampToI64 request.record request.updatedAtUnixMs
  return ⟨expected, updatedAt, fence⟩

/-! ### The statements of one entry -/

/-- The claim loop: `INSERT INTO dbproxy_idempotency … ON CONFLICT DO NOTHING`, and the
receipt that was there already.  Nothing can remove it between the two statements of an
atomic transaction, so the loop ends in its first round. -/
def claimReceipt (request : SnapshotWrite) (p : PreparedSave) : TxM (Option IdempotencyRow) := do
  bindTexts [request.requestId, request.record.ns, request.record.key, request.schema]
  let pg ← get
  match pg.idempotency request.requestId with
  | some receipt => return some receipt
  | none =>
    modify fun pg => { pg with
      idempotency := Function.update pg.idempotency request.requestId
        (some ⟨request.record, request.schema, request.schemaVersion, request.payload,
          p.expected, 0, some p.updatedAt⟩) }
    return none

def idempotencyMatches (row : IdempotencyRow) (request : SnapshotWrite) (p : PreparedSave) :
    Bool :=
  row.record = request.record && row.schema = request.schema &&
    row.schemaVersion = request.schemaVersion && row.payload = request.payload &&
    row.expectedRevision = p.expected && row.updatedAtUnixMs.all (· = p.updatedAt)

/-- `cache_repair::enqueue_in_transaction`. -/
def enqueueRepair (record : RecordKey) (target : Revision) : TxM Unit :=
  if bigintLimit ≤ target then throw (.revisionTooLarge record)
  else do
    bindTexts [record.ns, record.key]
    modify fun pg => { pg with
      repairs := Function.update pg.repairs record
        (some (max ((pg.repairs record).getD target) target)) }

/-- `UPDATE dbproxy_idempotency SET revision = $2 WHERE request_id = $1`. -/
def setReceiptRevision (request : SnapshotWrite) (revision : Revision) : TxM Unit :=
  if bigintLimit ≤ revision then throw (.revisionTooLarge request.record)
  else do
    bindTexts [request.requestId]
    modify fun pg => { pg with
      idempotency := Function.update pg.idempotency request.requestId
        ((pg.idempotency request.requestId).map fun row => { row with revision }) }

/-- The row that a write of `request` stores. -/
def rowOf (request : SnapshotWrite) (updatedAt revision : ℕ) (queuedSequence : Option ℕ) :
    SnapshotRow :=
  ⟨request.schema, request.schemaVersion, revision, request.payload, updatedAt, queuedSequence⟩

def setRow (record : RecordKey) (row : SnapshotRow) : TxM Unit :=
  modify fun pg => { pg with snapshots := Function.update pg.snapshots record (some row) }

/-- The fenced `INSERT … ON CONFLICT DO UPDATE … WHERE`: only a larger sequence, or a row
without one, is overwritten. -/
def upsertFenced (request : SnapshotWrite) (updatedAt fence : ℕ) : TxM (Option Revision) := do
  bindTexts [request.record.ns, request.record.key, request.schema]
  let pg ← get
  match pg.snapshots request.record with
  | none =>
    setRow request.record (rowOf request updatedAt 1 (some fence))
    return some 1
  | some row =>
    if row.queuedSequence.all (· < fence) then
      let revision ← bigintSucc row.revision
      setRow request.record (rowOf request updatedAt revision (some fence))
      return some revision
    else return none

/-- `SELECT revision FROM dbproxy_snapshots`. -/
def selectRevision (record : RecordKey) : TxM (Option Revision) := do
  bindTexts [record.ns, record.key]
  let pg ← get
  return (pg.snapshots record).map (·.revision)

def saveFencedSnapshot (request : SnapshotWrite) (updatedAt fence : ℕ) :
    TxM SnapshotWriteOutcome := do
  match ← upsertFenced request updatedAt fence with
  | some revision =>
    setReceiptRevision request revision
    enqueueRepair request.record revision
    return .applied revision
  | none =>
    match ← selectRevision request.record with
    | none => throw (.postgres "query returned an unexpected number of rows")
    | some revision =>
      setReceiptRevision request revision
      enqueueRepair request.record revision
      return .duplicate revision

/-- The `updated` and `inserted` statements of an ordinary write, which keep the queued
sequence of the row.  The unconditional upsert that follows a lost race finds nothing to
do in an atomic transaction. -/
def upsertOrdinary (request : SnapshotWrite) (p : PreparedSave) : TxM (Option Revision) := do
  bindTexts [request.record.ns, request.record.key, request.schema]
  let pg ← get
  match pg.snapshots request.record with
  | none =>
    if p.expected.all (· = 0) then
      setRow request.record (rowOf request p.updatedAt 1 none)
      return some 1
    else return none
  | some row =>
    if p.expected.all (· = row.revision) then
      let revision ← bigintSucc row.revision
      setRow request.record (rowOf request p.updatedAt revision row.queuedSequence)
      return some revision
    else return none

/-- `DELETE FROM dbproxy_idempotency WHERE request_id = $1 AND revision = 0`. -/
def dropReceipt (request : SnapshotWrite) : TxM Unit := do
  bindTexts [request.requestId]
  modify fun pg => { pg with
    idempotency := Function.update pg.idempotency request.requestId
      ((pg.idempotency request.requestId).filter (·.revision ≠ 0)) }

def saveOrdinarySnapshot (request : SnapshotWrite) (p : PreparedSave) :
    TxM SnapshotWriteOutcome := do
  match ← upsertOrdinary request p with
  | none =>
    let actual := (← selectRevision request.record).getD 0
    dropReceipt request
    throw (.core (.revisionConflict request.record request.expectedRevision actual))
  | some revision =>
    setReceiptRevision request revision
    enqueueRepair request.record revision
    return .applied revision

def saveSnapshotInTransaction (request : SnapshotWrite) (p : PreparedSave) :
    TxM SnapshotWriteOutcome := do
  match ← claimReceipt request p with
  | some receipt =>
    if idempotencyMatches receipt request p then
      enqueueRepair request.record receipt.revision
      return .duplicate receipt.revision
    else throw (.core (.idempotencyConflict request.requestId))
  | none =>
    match p.fence with
    | some fence => saveFencedSnapshot request p.updatedAt fence
    | none => saveOrdinarySnapshot request p

/-! ### The shared transaction -/

/-- A rejected entry (`StorageError::Core`) keeps the transaction going. -/
def perEntry {α : Type} (x : TxM α) : TxM (Except StorageError α) := fun pg =>
  match x pg with
  | .ok a pg => .ok (.ok a) pg
  | .error (.core e) pg => .ok (.error (.core e)) pg
  | .error e pg => .error e pg

/-- One entry of a batch; an entry that the checks refuse runs no statement. -/
def saveEntry (request : SnapshotWrite) (sequence : Option ℕ) :
    TxM (Except StorageError SnapshotWriteOutcome) :=
  match prepareSave request sequence with
  | .error e => pure (.error e)
  | .ok p => perEntry (saveSnapshotInTransaction request p)

def saveEntries : List (SnapshotWrite × Option ℕ) →
    TxM (List (Except StorageError SnapshotWriteOutcome))
  | [] => return []
  | (request, sequence) :: rest => do
    let result ← saveEntry request sequence
    let results ← saveEntries rest
    return result :: results

/-- `save_batch_fenced`: the results of a committed batch, or the error that rolled it
back.  A batch of invalid entries opens no transaction; here it runs no statement. -/
def saveBatchFenced (entries : List (SnapshotWrite × Option ℕ)) (pg : Postgres) :
    Except StorageError (List (Except StorageError SnapshotWriteOutcome)) × Postgres :=
  match (saveEntries entries).run pg with
  | .ok results pg' => (.ok results, pg')
  | .error e _ => (.error e, pg)

def saveBatch (requests : List SnapshotWrite) (pg : Postgres) :
    Except StorageError (List (Except StorageError SnapshotWriteOutcome)) × Postgres :=
  saveBatchFenced (requests.map fun request => (request, none)) pg

def saveQueuedBatch (requests : List SnapshotWrite) (sequences : List ℕ) (pg : Postgres) :
    Except StorageError (List (Except StorageError SnapshotWriteOutcome)) × Postgres :=
  if sequences.length ≠ requests.length then
    (.error (.persistenceProtocol "queued batch fence sequences do not match its writes"), pg)
  else saveBatchFenced (requests.zip (sequences.map some)) pg

/-- The re-read of duplicates after the commit (`load_multi`): every record found is
handed out once. -/
def rereadDuplicates (rows : RecordKey → Option SnapshotRow) :
    List (SnapshotWrite × Except StorageError SnapshotWriteOutcome) →
    List (Except StorageError SnapshotWriteOutcome)
  | [] => []
  | (request, .ok (.duplicate revision)) :: rest =>
    (if (rows request.record).isSome then .ok (.duplicate revision)
      else .error (.missingAfterWrite request.record)) ::
      rereadDuplicates (Function.update rows request.record none) rest
  | (_, outcome) :: rest => outcome :: rereadDuplicates rows rest

/-- `TieredSnapshotStore::save_queued_batch`, without the cache it synchronizes. -/
def TieredSnapshotStore.saveQueuedBatch (requests : List SnapshotWrite) (sequences : List ℕ)
    (pg : Postgres) :
    Except StorageError (List (Except StorageError SnapshotWriteOutcome)) × Postgres :=
  match DbProxy.saveQueuedBatch requests sequences pg with
  | (.error e, pg) => (.error e, pg)
  | (.ok outcomes, pg) => (.ok (rereadDuplicates pg.snapshots (requests.zip outcomes)), pg)

end DbProxy
