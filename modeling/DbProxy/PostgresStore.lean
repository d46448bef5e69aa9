/-
The transactional writes of `PostgresSnapshotStore`: `apply`, `commit_records` and the
receipt lookups.

`PostgresTables` adds the tables of operations to those of `Postgres`.  A method is an
action of `PgM`; `committed` runs it as the one transaction that it is, so an error
leaves the tables as they were.  Rows that a foreign key ties to a header live inside
the header's entry.  Row and advisory locks order transactions that run side by side;
here they come one after the other.

Outside the repository, hence parameters: the JSON decoder of relay envelopes and the
bincode encoding of effects.

* `claimOperation` — the claim of an operation id by one kind of operation;
* `compareRevisions`, `persistWrite` — the two loops over the records;
* `persistEffects` — appends and outbox events of a commit;
* `applyTransaction`, `commitRecords` — the methods.
-/
import DbProxy.Dispatch
import DbProxy.EarlyReturn
import DbProxy.KeyedTable
import DbProxy.OutboxQueue
import DbProxy.ReceiptLookup

namespace DbProxy

open Text

/-! ### Tables -/

/-- `dbproxy_operation_claims`; of `retired_at` only whether it is set. -/
structure OperationClaim where
  kind : OperationKind
  retired : Bool := false
deriving DecidableEq, Repr

/-- `dbproxy_transactions`. -/
structure TransactionRow where
  record : RecordKey
  schema : String
  schemaVersion : ℕ
  expectedRevision : ℕ
  payload : Bytes
  result : Bytes
  newRevision : Revision
  updatedAtUnixMs : ℕ
deriving DecidableEq

/-- A row of `dbproxy_multi_transactions` with the rows that reference it: its records and
its effects. -/
structure MultiTransaction where
  header : MultiTransactionRow
  records : List MultiRecordRow := []
  effects : Option Bytes := none
deriving DecidableEq

/-- `dbproxy_append_records`. -/
structure AppendRow where
  record : RecordKey
  operationId : String
  schema : String
  schemaVersion : ℕ
  payload : Bytes
  occurredAtUnixMs : ℕ
deriving DecidableEq

/-- The content of a row of `dbproxy_outbox`; its delivery is the subject of `OutboxQueue`. -/
structure OutboxContentRow where
  eventId : String
  operationId : String
  tradeId : Option String
  topic : String
  partitionKey : String
  payload : Bytes
  occurredAtUnixMs : ℕ
deriving DecidableEq

/-- `dbproxy_trades`; the state is a `SMALLINT`. -/
structure TradeRow where
  version : ℕ
  state : ℕ
  payload : Bytes
  updatedAtUnixMs : ℕ
deriving DecidableEq

structure TradeOperationRow where
  tradeId : String
  expectedVersion : ℕ
  expectedState : Option ℕ
  nextState : ℕ
  tradePayload : Bytes
  result : Bytes
  recordCount : ℕ
  ledgerCount : ℕ
  outboxCount : ℕ
  newTradeVersion : ℕ
  updatedAtUnixMs : ℕ
deriving DecidableEq

/-- A row of `dbproxy_trade_operations` with its `dbproxy_trade_operation_records`. -/
structure TradeOperation where
  header : TradeOperationRow
  records : List MultiRecordRow := []
deriving DecidableEq

/-- `dbproxy_ledger_postings`. -/
structure LedgerRow where
  postingId : String
  operationId : String
  tradeId : String
  accountId : String
  asset : String
  amount : ℤ
  metadata : Bytes
  createdAtUnixMs : ℕ
deriving DecidableEq

structure PostgresTables where
  base : Postgres := {}
  claims : String → Option OperationClaim := fun _ => none
  transactions : String → Option TransactionRow := fun _ => none
  multiTransactions : String → Option MultiTransaction := fun _ => none
  appends : RecordKey → Option AppendRow := fun _ => none
  trades : String → Option TradeRow := fun _ => none
  tradeOperations : String → Option TradeOperation := fun _ => none
  ledger : KeyedTable LedgerRow.postingId := .empty
  outbox : KeyedTable OutboxContentRow.eventId := .empty
  routes : OutboxRoutes := {}

/-- The statements of one method. -/
abbrev PgM := EStateM StorageError PostgresTables

/-- Run a method as one transaction. -/
def committed {α : Type} (x : PgM α) (pg : PostgresTables) :
    Except StorageError α × PostgresTables :=
  match x.run pg with
  | .ok a pg' => (.ok a, pg')
  | .error e _ => (.error e, pg)

namespace PostgresSnapshotStore

/-- A statement on the snapshot tables. -/
def onBase {α : Type} (x : TxM α) : PgM α := fun pg =>
  match x pg.base with
  | .ok a base => .ok a { pg with base }
  | .error e base => .error e { pg with base }

def bindParams (texts : List String) : PgM Unit := onBase (bindTexts texts)

/-- `required_revision_to_i64`. -/
def requiredRevisionToI64 (record : RecordKey) (revision : Revision) : Except StorageError ℕ :=
  if revision < bigintLimit then .ok revision else .error (.revisionTooLarge record)

/-! ### Claims -/

/-- The claim is inserted, if there is none, and then read. -/
def claimOperation (operationId : String) (kind : OperationKind) : PgM Unit := do
  bindParams [operationId]
  let pg ← get
  match pg.claims operationId with
  | none =>
    set { pg with claims := Function.update pg.claims operationId (some { kind }) }
  | some claim =>
    if claim.kind ≠ kind then throw (.core (.operationIdConflict operationId))
    if claim.retired then throw (.core (.operationExpired operationId))

/-! ### Transactions of one record -/

def validateTransactionRequest (request : TransactionalWrite) : Except StorageError Unit :=
  if blank request.operationId then .error (.core .emptyOperationId)
  else if blank request.record.ns then .error (.core (.invalidKey "namespace is empty"))
  else if blank request.record.key then .error (.core (.invalidKey "key is empty"))
  else .ok ()

def transactionRow (request : TransactionalWrite) (newRevision : Revision) : TransactionRow where
  record := request.record
  schema := request.schema
  schemaVersion := request.schemaVersion
  expectedRevision := request.expectedRevision
  payload := request.payload
  result := request.result
  newRevision := newRevision
  updatedAtUnixMs := request.updatedAtUnixMs

def transactionMatches (row : TransactionRow) (request : TransactionalWrite) : Bool :=
  row.record = request.record && row.schema = request.schema &&
    row.schemaVersion = request.schemaVersion &&
    row.expectedRevision = request.expectedRevision && row.payload = request.payload &&
    row.result = request.result && row.updatedAtUnixMs = request.updatedAtUnixMs

/-- `INSERT INTO dbproxy_transactions … ON CONFLICT DO NOTHING`, and the receipt that was
there already. -/
def claimTransaction (request : TransactionalWrite) : PgM (Option TransactionRow) := do
  bindParams [request.operationId, request.record.ns, request.record.key, request.schema]
  let pg ← get
  match pg.transactions request.operationId with
  | some row => return some row
  | none =>
    set { pg with
      transactions := Function.update pg.transactions request.operationId
        (some (transactionRow request 0)) }
    return none

/-- The snapshot row; `queued_sequence` is not written. -/
def storeSnapshot (record : RecordKey) (schema : String) (schemaVersion : ℕ) (revision : Revision)
    (payload : Bytes) (updatedAtUnixMs : ℕ) : PgM Unit := do
  bindParams [record.ns, record.key, schema]
  let pg ← get
  onBase (setRow record ⟨schema, schemaVersion, revision, payload, updatedAtUnixMs,
    (pg.base.snapshots record).bind (·.queuedSequence)⟩)

/-- `UPDATE dbproxy_transactions SET new_revision = $2 WHERE operation_id = $1`. -/
def setNewRevision (operationId : String) (newRevision : Revision) : PgM Unit :=
  modify fun pg => { pg with
    transactions := Function.update pg.transactions operationId
      ((pg.transactions operationId).map fun row => { row with newRevision }) }

/-- `apply`.  The row is there or not for the whole transaction, so neither the first insert
nor the update comes back without a row. -/
def applyTransaction (request : TransactionalWrite) : PgM TransactionalWriteOutcome := do
  MonadExcept.ofExcept (validateTransactionRequest request)
  let _ ← MonadExcept.ofExcept (requiredRevisionToI64 request.record request.expectedRevision)
  let _ ← MonadExcept.ofExcept (timestampToI64 request.record request.updatedAtUnixMs)
  claimOperation request.operationId .single
  match ← claimTransaction request with
  | some row =>
    if !transactionMatches row request then
      throw (.core (.operationIdConflict request.operationId))
    onBase (enqueueRepair request.record row.newRevision)
    return .duplicate row.newRevision row.result
  | none =>
    let actual := (← onBase (selectRevision request.record)).getD 0
    if actual ≠ request.expectedRevision then
      throw (.core (.revisionConflict request.record (some request.expectedRevision) actual))
    match actual.next with
    | none => throw (.core (.revisionExhausted request.record))
    | some newRevision =>
      let _ ← MonadExcept.ofExcept (requiredRevisionToI64 request.record newRevision)
      storeSnapshot request.record request.schema request.schemaVersion newRevision
        request.payload request.updatedAtUnixMs
      setNewRevision request.operationId newRevision
      onBase (enqueueRepair request.record newRevision)
      return .applied newRevision request.result

/-! ### The records of a transaction -/

/-- The comparison of every record with its expectation. -/
def compareRevisions : List TransactionalRecordWrite → PgM (List Revision)
  | [] => return []
  | write :: rest => do
    let actual := (← onBase (selectRevision write.record)).getD 0
    if actual ≠ write.expectedRevision then
      throw (.core (.revisionConflict write.record (some write.expectedRevision) actual))
    match actual.next with
    | none => throw (.core (.revisionExhausted write.record))
    | some next =>
      let revisions ← compareRevisions rest
      return next :: revisions

/-- The upsert repeats the comparison. -/
def persistTransactionalSnapshot (write : TransactionalRecordWrite) (revision : Revision) :
    PgM Unit := do
  MonadExcept.ofExcept (checkI64 write revision)
  bindParams [write.record.ns, write.record.key, write.schema]
  let pg ← get
  let current := (pg.base.snapshots write.record).map (·.revision)
  if current.any (· ≠ write.expectedRevision) then
    throw (.core (.revisionConflict write.record (some write.expectedRevision) (current.getD 0)))
  onBase (setRow write.record
    (ClaimSystem.snapshotRow (pg.base.snapshots write.record) write revision))

/-- The record rows of the receipts of one kind; they leave the snapshot tables alone. -/
structure RecordTable where
  records : PostgresTables → String → Option (List MultiRecordRow)
  setRecords : PostgresTables → String → List MultiRecordRow → PostgresTables
  records_set : ∀ {pg id rows} rows', records pg id = some rows →
    records (setRecords pg id rows') id = some rows'
  records_base : ∀ pg base id, records { pg with base } id = records pg id
  set_base : ∀ pg base id rows,
    setRecords { pg with base } id rows = { setRecords pg id rows with base }
  set_set : ∀ pg id rows rows', setRecords (setRecords pg id rows) id rows' = setRecords pg id rows'
  set_self : ∀ {pg id rows}, records pg id = some rows → setRecords pg id rows = pg
  base_set : ∀ pg id rows, (setRecords pg id rows).base = pg.base

/-- `dbproxy_multi_transaction_records`. -/
def multiRecords : RecordTable where
  records pg id := (pg.multiTransactions id).map (·.records)
  setRecords pg id records := { pg with
    multiTransactions := Function.update pg.multiTransactions id
      ((pg.multiTransactions id).map fun stored => { stored with records }) }
  records_set rows' h := by
    obtain ⟨stored, hstored, -⟩ := Option.map_eq_some_iff.mp h
    simp [hstored]
  records_base _ _ _ := rfl
  set_base _ _ _ _ := rfl
  set_set pg id rows rows' := by
    simp [Function.comp_def]
  set_self h := by
    obtain ⟨stored, hstored, rfl⟩ := Option.map_eq_some_iff.mp h
    rw [hstored, Option.map_some, ← hstored, Function.update_eq_self]
  base_set _ _ _ := rfl

/-- `INSERT` of a record row: the primary key is the operation and the record, and the
header must be there. -/
def insertRecord (table : RecordTable) (operationId : String) (row : MultiRecordRow) :
    PgM Unit := do
  bindParams [operationId, row.record.ns, row.record.key, row.schema]
  let pg ← get
  match table.records pg operationId with
  | none => throw (.postgres "insert violates foreign key constraint")
  | some rows =>
    if rows.any (·.record = row.record) then
      throw (.postgres "duplicate key value violates unique constraint")
    set (table.setRecords pg operationId (rows ++ [row]))

/-- One round of the loop that stores the snapshots; `insert` is the row in the table of the
receipt. -/
def persistWrite (insert : MultiRecordRow → PgM Unit)
    (x : TransactionalRecordWrite × Revision) : PgM Unit := do
  persistTransactionalSnapshot x.1 x.2
  insert (.ofWrite x.1 x.2)
  onBase (enqueueRepair x.1.record x.2)

/-- The repair targets of a retry. -/
def enqueueRepairs (records : List TransactionRecordReceipt) : PgM Unit :=
  records.forM fun receipt => onBase (enqueueRepair receipt.record receipt.newRevision)

/-! ### Effects -/

section Effects

variable (decode : Bytes → Option EventEnvelope) (encode : CommitEffects → Bytes)

/-- The first loop of `commit::lock_partitions`: a relay topic must have a route. -/
def lookupRoute (event : OutboxEvent) : PgM Unit := do
  let envelope ← MonadExcept.ofExcept ((EventEnvelope.fromOutbox decode event).mapError .core)
  if envelope.isSome then
    bindParams [event.topic]
    let pg ← get
    if (pg.routes.routes event.topic).isNone then
      throw (.core (.invalidOutboxEvent "unknown outbox source or route version"))

/-- The second loop: the key holds the topic, or the destination of its route, and the
partition.  Every key that fails does so with one error, so the order of the keys is left out. -/
def lockPartition (event : OutboxEvent) : PgM Unit :=
  bindParams [event.topic, event.partitionKey]

def lockPartitions (effects : CommitEffects) : PgM Unit := do
  effects.outboxEvents.forM (lookupRoute decode)
  effects.outboxEvents.forM lockPartition

def insertAppend (operationId : String) (append : AppendRecord) : PgM Unit := do
  let occurredAt ← MonadExcept.ofExcept (timestampToI64 append.record append.occurredAtUnixMs)
  bindParams [append.record.ns, append.record.key, operationId, append.schema]
  let pg ← get
  if (pg.appends append.record).isSome then throw (.core (.appendRecordConflict append.record))
  set { pg with
    appends := Function.update pg.appends append.record (some ⟨append.record, operationId,
      append.schema, append.schemaVersion, append.payload, occurredAt⟩) }

def outboxRow (operationId : String) (tradeId : Option String) (event : OutboxEvent) :
    OutboxContentRow :=
  ⟨event.eventId, operationId, tradeId, event.topic, event.partitionKey, event.payload,
    event.occurredAtUnixMs⟩

/-- `INSERT INTO dbproxy_outbox … ON CONFLICT DO NOTHING`, with the trigger that looks the
route up. -/
def insertOutboxEvent (operationId : String) (tradeId : Option String) (tooLarge : StorageError)
    (event : OutboxEvent) : PgM Unit := do
  if bigintLimit ≤ event.occurredAtUnixMs then throw tooLarge
  bindParams [event.eventId, operationId, event.topic, event.partitionKey]
  let pg ← get
  let _ ← MonadExcept.ofExcept (PostgresOutboxQueue.resolveOutboxRoute pg.routes event.topic)
  let row := outboxRow operationId tradeId event
  if h : pg.outbox.lookup (OutboxContentRow.eventId row) = none then
    set { pg with outbox := pg.outbox.insert row h }
  else throw (.core (.outboxEventConflict event.eventId))

/-- `commit::persist`. -/
def persistEffects (operationId : String) (effects : CommitEffects) : PgM Unit :=
  if effects.isEmpty then return ()
  else do
    bindParams [operationId]
    modify fun pg => { pg with
      multiTransactions := Function.update pg.multiTransactions operationId
        ((pg.multiTransactions operationId).map fun t =>
          { t with effects := some (encode effects) }) }
    effects.appends.forM (insertAppend operationId)
    effects.outboxEvents.forM (insertOutboxEvent operationId none
      (.persistenceProtocol "event timestamp exceeds i64"))

/-! ### Transactions of several records -/

/-- `INSERT INTO dbproxy_multi_transactions … ON CONFLICT DO NOTHING`, and what was there. -/
def claimMultiTransaction (request : MultiRecordTransactionalWrite) :
    PgM (Option MultiTransaction) := do
  bindParams [request.operationId]
  let pg ← get
  match pg.multiTransactions request.operationId with
  | some stored => return some stored
  | none =>
    set { pg with
      multiTransactions := Function.update pg.multiTransactions request.operationId
        (some { header := request.header }) }
    return none

/-- A retry: the effects, the header and the rows are compared, and the repairs armed. -/
def retryMulti (request : MultiRecordTransactionalWrite) (effects : CommitEffects)
    (stored : MultiTransaction) : PgM MultiRecordTransactionalWriteOutcome := do
  if !effectsMatch encode stored.effects effects then
    throw (.core (.operationIdConflict request.operationId))
  let rows := sortOn (·.record) stored.records
  if !receiptMatches stored.header rows request then
    throw (.core (.operationIdConflict request.operationId))
  let records := (rows.zip request.writes).map fun x => ⟨x.2.record, x.1.newRevision⟩
  enqueueRepairs records
  return .duplicate records stored.header.result

/-- A first attempt. -/
def commitMulti (request : MultiRecordTransactionalWrite) (effects : CommitEffects) :
    PgM MultiRecordTransactionalWriteOutcome := do
  lockPartitions decode effects
  let revisions ← compareRevisions request.writes
  (request.writes.zip revisions).forM (persistWrite (insertRecord multiRecords request.operationId))
  persistEffects encode request.operationId effects
  return .applied ((request.writes.zip revisions).map fun x => ⟨x.1.record, x.2⟩) request.result

def commitRecords (request : MultiRecordTransactionalWrite) (effects : CommitEffects) :
    PgM MultiRecordTransactionalWriteOutcome := do
  let (request, effects) ← MonadExcept.ofExcept (prepareCommit decode request effects)
  claimOperation request.operationId .multi
  MonadExcept.ofExcept (checkHeaderI64 request)
  match ← claimMultiTransaction request with
  | some stored => retryMulti encode request effects stored
  | none => commitMulti decode encode request effects

end Effects

/-! ### Lookups -/

/-- `snapshot_from_row`. -/
def snapshotFromRow (record : RecordKey) (row : SnapshotRow) : SnapshotEnvelope :=
  ⟨record, row.schema, row.schemaVersion, row.revision, row.payload, row.updatedAtUnixMs⟩

def load (record : RecordKey) : PgM (Option SnapshotEnvelope) := do
  bindParams [record.ns, record.key]
  let pg ← get
  return (pg.base.snapshots record).map (snapshotFromRow record)

def validateReceiptLookup (operationId : String) (record : RecordKey) : Except StorageError Unit :=
  if blank operationId then .error (.core .emptyOperationId)
  else if blank record.ns then .error (.core (.invalidKey "namespace is empty"))
  else if blank record.key then .error (.core (.invalidKey "key is empty"))
  else .ok ()

def loadReceipt (operationId : String) (record : RecordKey) : PgM (Option TransactionReceipt) := do
  MonadExcept.ofExcept (validateReceiptLookup operationId record)
  bindParams [operationId]
  let pg ← get
  match pg.transactions operationId with
  | none => return none
  | some row =>
    if row.record ≠ record then throw (.core (.operationIdConflict operationId))
    return some ⟨operationId, record, row.newRevision, row.result⟩

/-- `load_multi_receipt`; a receipt that was retired has expired. -/
def loadMultiReceipt (operationId : String) (records : List RecordKey) :
    PgM (Option MultiRecordTransactionReceipt) := do
  let expected ← MonadExcept.ofExcept ((prepareLookup operationId records).mapError .core)
  bindParams [operationId]
  let pg ← get
  match pg.multiTransactions operationId with
  | none =>
    if (pg.claims operationId).any fun claim => claim.kind = .multi && claim.retired then
      throw (.core (.operationExpired operationId))
    return none
  | some stored =>
    MonadExcept.ofExcept (receiptFromRows operationId expected stored.header
      (sortOn (·.record) stored.records))

end PostgresSnapshotStore

end DbProxy
