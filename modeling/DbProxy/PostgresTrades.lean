/-
Trades in PostgreSQL (`trade.rs`): `apply_trade`, `load_trade` and
`load_trade_receipt`.

A trade is one transaction over the claim, the trade row, the records, the ledger and
the outbox.  Its retry is recognised row by row, in the order of the bytes.

* `receiptMatches`, `receiptFromParts` — the comparison of a retry and its receipt;
* `applyTrade` — the transaction;
* `StoreCall`, `performAll` — sequences of writes of all kinds.
-/
import DbProxy.BatchSaves
import DbProxy.PostgresStore
import DbProxy.TradeTransaction

namespace DbProxy

open Text

/-! ### Numbers and states -/

def TradeState.toI16 : TradeState → ℕ
  | .proposed => 1
  | .escrowed => 2
  | .settled => 3
  | .cancelled => 4

def TradeState.fromI16 (value : ℕ) : Except StorageError TradeState :=
  match value with
  | 1 => .ok .proposed
  | 2 => .ok .escrowed
  | 3 => .ok .settled
  | 4 => .ok .cancelled
  | _ => .error (.tradeProtocol ("persisted trade state is invalid: " ++ toString value))

theorem TradeState.fromI16_toI16 (state : TradeState) : fromI16 state.toI16 = .ok state := by
  cases state <;> rfl

theorem TradeState.toI16_injective : Function.Injective TradeState.toI16 := by
  intro a b h
  cases a <;> cases b <;> first | rfl | cases h

namespace PostgresSnapshotStore

/-- `trade_version_to_i64`. -/
def tradeVersionToI64 (tradeId : String) (version : Revision) : Except StorageError ℕ :=
  if version < bigintLimit then .ok version
  else .error (.tradeVersionTooLarge tradeId)

/-! ### Rows -/

def tradeOperationRow (request : TradeTransaction) : TradeOperationRow where
  tradeId := request.transition.tradeId
  expectedVersion := request.transition.expectedVersion
  expectedState := request.transition.expectedState.map (·.toI16)
  nextState := request.transition.nextState.toI16
  tradePayload := request.transition.payload
  result := request.result
  recordCount := request.writes.length
  ledgerCount := request.ledgerPostings.length
  outboxCount := request.outboxEvents.length
  newTradeVersion := request.transition.expectedVersion + 1
  updatedAtUnixMs := request.transition.updatedAtUnixMs

def ledgerRow (request : TradeTransaction) (posting : LedgerPosting) : LedgerRow :=
  ⟨posting.postingId, request.operationId, request.transition.tradeId, posting.accountId,
    posting.asset, posting.amount, posting.metadata, request.transition.updatedAtUnixMs⟩

/-- What `load_receipt_parts` reads, in the order of the bytes. -/
structure ReceiptParts where
  header : TradeOperationRow
  records : List MultiRecordRow
  ledger : List LedgerRow
  outbox : List OutboxContentRow

def receiptParts (pg : PostgresTables) (operationId : String) : Option ReceiptParts :=
  (pg.tradeOperations operationId).map fun stored =>
    ⟨stored.header, sortOn (·.record) stored.records,
      sortOn (·.postingId) (pg.ledger.rows.filter (·.operationId = operationId)),
      sortOn (·.eventId) (pg.outbox.rows.filter (·.operationId = operationId))⟩

/-! ### Recognising a retry -/

/-- A version or revision whose successor fits a `BIGINT`, too. -/
def hasSuccessor (revision : Revision) : Bool := revision + 1 < bigintLimit

def tradeRecordMatches (row : MultiRecordRow) (write : TransactionalRecordWrite) : Bool :=
  hasSuccessor write.expectedRevision && write.updatedAtUnixMs < bigintLimit &&
    row.record = write.record && row.newRevision = write.expectedRevision + 1 &&
    row.schema = write.schema && row.schemaVersion = write.schemaVersion &&
    row.expectedRevision = write.expectedRevision && row.payload = write.payload &&
    row.updatedAtUnixMs = write.updatedAtUnixMs

def ledgerRowMatches (row : LedgerRow) (posting : LedgerPosting) : Bool :=
  row.postingId = posting.postingId && row.accountId = posting.accountId &&
    row.asset = posting.asset && row.amount = posting.amount && row.metadata = posting.metadata

def outboxRowMatches (row : OutboxContentRow) (event : OutboxEvent) : Bool :=
  event.occurredAtUnixMs < bigintLimit && row.eventId = event.eventId &&
    row.topic = event.topic && row.partitionKey = event.partitionKey &&
    row.payload = event.payload && row.occurredAtUnixMs = event.occurredAtUnixMs

/-- The comparison by position of two lists. -/
def rowsMatch {ρ κ : Type} (rowMatches : ρ → κ → Bool) (rows : List ρ) (requested : List κ) :
    Bool :=
  rows.length = requested.length && (rows.zip requested).all fun x => rowMatches x.1 x.2

def headerMatches (header : TradeOperationRow) (request : TradeTransaction) : Bool :=
  let transition := request.transition
  header.tradeId = transition.tradeId &&
    (transition.expectedVersion < bigintLimit &&
      header.expectedVersion = transition.expectedVersion) &&
    header.expectedState = transition.expectedState.map (·.toI16) &&
    header.nextState = transition.nextState.toI16 && header.tradePayload = transition.payload &&
    header.result = request.result && header.recordCount = request.writes.length &&
    header.ledgerCount = request.ledgerPostings.length &&
    header.outboxCount = request.outboxEvents.length &&
    (hasSuccessor transition.expectedVersion &&
      header.newTradeVersion = transition.expectedVersion + 1) &&
    (transition.updatedAtUnixMs < bigintLimit &&
      header.updatedAtUnixMs = transition.updatedAtUnixMs)

/-- `receipt_matches` of `trade.rs`. -/
def tradeReceiptMatches (parts : ReceiptParts) (request : TradeTransaction) : Bool :=
  headerMatches parts.header request &&
    rowsMatch tradeRecordMatches parts.records request.writes &&
    rowsMatch ledgerRowMatches parts.ledger request.ledgerPostings &&
    rowsMatch outboxRowMatches parts.outbox request.outboxEvents

def checkCount (operationId name : String) (expected actual : ℕ) : Except StorageError Unit :=
  if expected ≠ actual then
    .error (.tradeProtocol ("trade operation " ++ operationId ++ " has inconsistent " ++ name ++
      " count"))
  else .ok ()

/-- `receipt_from_parts`. -/
def receiptFromParts (operationId tradeId : String) (parts : ReceiptParts) :
    Except StorageError TradeReceipt := do
  checkCount operationId "record" parts.header.recordCount parts.records.length
  checkCount operationId "ledger" parts.header.ledgerCount parts.ledger.length
  checkCount operationId "outbox" parts.header.outboxCount parts.outbox.length
  let records ← parts.records.mapM fun row => do
    let record ← (RecordKey.new row.record.ns row.record.key).mapError StorageError.core
    return (⟨record, row.newRevision⟩ : TransactionRecordReceipt)
  let state ← TradeState.fromI16 parts.header.nextState
  return {
    operationId
    tradeId
    newTradeVersion := parts.header.newTradeVersion
    state
    records
    ledgerPostingIds := parts.ledger.map (·.postingId)
    outboxEventIds := parts.outbox.map (·.eventId)
    result := parts.header.result }

/-! ### The statements of a trade -/

/-- `INSERT INTO dbproxy_trade_operations … ON CONFLICT DO NOTHING`; `false` when the
operation was there. -/
def claimTrade (request : TradeTransaction) : PgM Bool := do
  bindParams [request.operationId, request.transition.tradeId]
  let pg ← get
  match pg.tradeOperations request.operationId with
  | some _ => return false
  | none =>
    set { pg with
      tradeOperations := Function.update pg.tradeOperations request.operationId
        (some { header := tradeOperationRow request }) }
    return true

/-- The stored version and state. -/
def tradeState : Option TradeRow → Except StorageError (Revision × Option TradeState)
  | none => .ok (0, none)
  | some row => do
    let state ← TradeState.fromI16 row.state
    return (row.version, some state)

def checkStoredTrade (transition : TradeTransition) : PgM Unit := do
  bindParams [transition.tradeId]
  let pg ← get
  let (version, state) ← MonadExcept.ofExcept (tradeState (pg.trades transition.tradeId))
  if version ≠ transition.expectedVersion then
    throw (.core (.tradeVersionConflict transition.tradeId transition.expectedVersion version))
  if state ≠ transition.expectedState then
    throw (.core (.tradeStateConflict transition.tradeId transition.expectedState state))

def tradeRow (transition : TradeTransition) : TradeRow :=
  ⟨transition.expectedVersion + 1, transition.nextState.toI16, transition.payload,
    transition.updatedAtUnixMs⟩

def upsertTrade (transition : TradeTransition) : PgM Unit := do
  bindParams [transition.tradeId]
  modify fun pg => { pg with
    trades := Function.update pg.trades transition.tradeId (some (tradeRow transition)) }

/-- `dbproxy_trade_operation_records`. -/
def tradeRecords : RecordTable where
  records pg id := (pg.tradeOperations id).map (·.records)
  setRecords pg id records := { pg with
    tradeOperations := Function.update pg.tradeOperations id
      ((pg.tradeOperations id).map fun stored => { stored with records }) }
  records_set rows' h := by
    obtain ⟨stored, hstored, -⟩ := Option.map_eq_some_iff.mp h
    simp [hstored]
  records_base _ _ _ := rfl
  set_base _ _ _ _ := rfl
  set_set pg id rows rows' := by
    simp [Function.comp_def]
  set_self h := by
    obtain ⟨stored, hstored, rfl⟩ := Option.map_eq_some_iff.mp h
    rw [hstored, Option.map_some, ← hstored, Function.update_eq_self]
  base_set _ _ _ := rfl

def insertPosting (request : TradeTransaction) (posting : LedgerPosting) : PgM Unit := do
  bindParams [posting.postingId, request.operationId, request.transition.tradeId,
    posting.accountId, posting.asset]
  let pg ← get
  let row := ledgerRow request posting
  if h : pg.ledger.lookup (LedgerRow.postingId row) = none then
    set { pg with ledger := pg.ledger.insert row h }
  else throw (.core (.ledgerPostingConflict posting.postingId))

/-- A retry of a trade. -/
def retryTrade (request : TradeTransaction) : PgM TradeTransactionOutcome := do
  let pg ← get
  match receiptParts pg request.operationId with
  | none => throw (.tradeProtocol "trade operation disappeared after idempotency conflict")
  | some parts =>
    if !tradeReceiptMatches parts request then
      throw (.core (.operationIdConflict request.operationId))
    let receipt ← MonadExcept.ofExcept
      (receiptFromParts request.operationId request.transition.tradeId parts)
    enqueueRepairs receipt.records
    return .duplicate receipt

/-- A first attempt. -/
def commitTrade (request : TradeTransaction) : PgM TradeTransactionOutcome := do
  checkStoredTrade request.transition
  request.outboxEvents.forM fun event => bindParams [event.topic, event.partitionKey]
  let revisions ← compareRevisions request.writes
  upsertTrade request.transition
  (request.writes.zip revisions).forM (persistWrite (insertRecord tradeRecords request.operationId))
  request.ledgerPostings.forM (insertPosting request)
  request.outboxEvents.forM (insertOutboxEvent request.operationId
    (some request.transition.tradeId) (.tradeProtocol "outbox timestamp is too large"))
  return .applied {
    operationId := request.operationId
    tradeId := request.transition.tradeId
    newTradeVersion := request.transition.expectedVersion + 1
    state := request.transition.nextState
    records := (request.writes.zip revisions).map fun x => ⟨x.1.record, x.2⟩
    ledgerPostingIds := request.ledgerPostings.map (·.postingId)
    outboxEventIds := request.outboxEvents.map (·.eventId)
    result := request.result }

/-- The conversions before the transaction. -/
def checkTradeI64 (transition : TradeTransition) : Except StorageError Unit := do
  let _ ← tradeVersionToI64 transition.tradeId transition.expectedVersion
  match Revision.next transition.expectedVersion with
  | none => .error (.core (.tradeVersionExhausted transition.tradeId))
  | some version =>
    let _ ← tradeVersionToI64 transition.tradeId version
    if bigintLimit ≤ transition.updatedAtUnixMs then
      .error (.tradeProtocol "trade timestamp is too large")
    else .ok ()

def applyTrade (request : TradeTransaction) : PgM TradeTransactionOutcome := do
  let request ← MonadExcept.ofExcept ((normalizeTradeTransaction request).mapError .core)
  MonadExcept.ofExcept (checkTradeI64 request.transition)
  claimOperation request.operationId .trade
  if ← claimTrade request then commitTrade request else retryTrade request

/-! ### Lookups -/

def loadTrade (tradeId : String) : PgM (Option TradeEnvelope) := do
  if blank tradeId then throw (.core .emptyTradeId)
  bindParams [tradeId]
  let pg ← get
  match pg.trades tradeId with
  | none => return none
  | some row =>
    let state ← MonadExcept.ofExcept (TradeState.fromI16 row.state)
    return some ⟨tradeId, row.version, state, row.payload, row.updatedAtUnixMs⟩

def loadTradeReceipt (operationId tradeId : String) : PgM (Option TradeReceipt) := do
  if blank operationId then throw (.core .emptyOperationId)
  if blank tradeId then throw (.core .emptyTradeId)
  bindParams [operationId]
  let pg ← get
  match receiptParts pg operationId with
  | none => return none
  | some parts =>
    if parts.header.tradeId ≠ tradeId then throw (.core (.operationIdConflict operationId))
    let receipt ← MonadExcept.ofExcept (receiptFromParts operationId tradeId parts)
    return some receipt

/-! ### Sequences of writes -/

/-- `save` on the tables of snapshots. -/
def saveSnapshot (request : SnapshotWrite) (pg : PostgresTables) :
    Except StorageError SnapshotWriteOutcome × PostgresTables :=
  match PostgresSnapshotStore.save request pg.base with
  | (outcome, base) => (outcome, { pg with base })

end PostgresSnapshotStore

/-- The writes of the store. -/
inductive StoreCall
  | save (request : SnapshotWrite)
  | applyTransaction (request : TransactionalWrite)
  | commitRecords (request : MultiRecordTransactionalWrite) (effects : CommitEffects)
  | applyTradeTransaction (request : TradeTransaction)
deriving DecidableEq

/-- The method of the backend. -/
def StoreCall.backend : StoreCall → BackendCall
  | save request => .save request
  | applyTransaction request => .applyTransaction request
  | commitRecords request effects => .commitRecords request effects
  | applyTradeTransaction request => .applyTradeTransaction request

namespace PostgresSnapshotStore

variable (decode : Bytes → Option EventEnvelope) (encode : CommitEffects → Bytes)

def perform (pg : PostgresTables) :
    (c : StoreCall) → Except StorageError c.backend.Value × PostgresTables
  | .save request => saveSnapshot request pg
  | .applyTransaction request => committed (applyTransaction request) pg
  | .commitRecords request effects => committed (commitRecords decode encode request effects) pg
  | .applyTradeTransaction request => committed (applyTrade request) pg

/-- A write with its answer. -/
abbrev StoreAnswer := (c : StoreCall) × Except StorageError c.backend.Value

def performAll (pg : PostgresTables) : List StoreCall → List StoreAnswer × PostgresTables
  | [] => ([], pg)
  | c :: rest =>
    let (answer, pg) := perform decode encode pg c
    let (answers, pg) := performAll pg rest
    (⟨c, answer⟩ :: answers, pg)

end PostgresSnapshotStore

end DbProxy
