/-
The dispatch of one request to the backend (`dispatch`, `dispatch_body` of
`dbproxy-server`).

A handler is an interaction with the backend: `BackendCall` lists the methods of
`DbProxyBackend` with the values they are passed, and a handler goes on with
whatever the backend replies.  Failures carry the public texts of the source.

* `dispatchBody_calls` — every record, operation and trade that a handler passes
  to the backend was named by its request.
-/
import DbProxy.Interaction
import DbProxy.PostgresSnapshots
import DbProxy.WireRequests
import Mathlib.Data.Finset.Dedup

namespace DbProxy

open Text

/-! ### The backend -/

structure TransactionReceipt where
  operationId : String
  record : RecordKey
  newRevision : Revision
  result : Bytes
deriving DecidableEq, Repr

/-- The methods of `DbProxyBackend`. -/
inductive BackendCall
  | load (record : RecordKey)
  | loadCached (record : RecordKey)
  | loadMulti (records : List RecordKey)
  | loadCachedMulti (records : List RecordKey)
  | save (request : SnapshotWrite)
  | saveMulti (requests : List SnapshotWrite)
  | enqueueSnapshot (request : SnapshotWrite)
  | enqueueMultiSnapshot (requests : List SnapshotWrite)
  | applyTransaction (request : TransactionalWrite)
  | loadTransaction (operationId : String) (record : RecordKey)
  | commitRecords (request : MultiRecordTransactionalWrite) (effects : CommitEffects)
  | applyMultiTransaction (request : MultiRecordTransactionalWrite)
  | loadMultiTransaction (operationId : String) (records : List RecordKey)
  | applyTradeTransaction (request : TradeTransaction)
  | loadTrade (tradeId : String)
  | loadTradeTransaction (operationId tradeId : String)

/-- What a method returns when it succeeds. -/
@[reducible] def BackendCall.Value : BackendCall → Type
  | load _ | loadCached _ => Option SnapshotEnvelope
  | loadMulti _ | loadCachedMulti _ => List (Option SnapshotEnvelope)
  | save _ => SnapshotWriteOutcome
  | saveMulti _ => List (Except BackendError SnapshotWriteOutcome)
  | enqueueSnapshot _ => Unit
  | enqueueMultiSnapshot _ => List (Except BackendError Unit)
  | applyTransaction _ => TransactionalWriteOutcome
  | loadTransaction _ _ => Option TransactionReceipt
  | commitRecords _ _ | applyMultiTransaction _ => MultiRecordTransactionalWriteOutcome
  | loadMultiTransaction _ _ => Option MultiRecordTransactionReceipt
  | applyTradeTransaction _ => TradeTransactionOutcome
  | loadTrade _ => Option TradeEnvelope
  | loadTradeTransaction _ _ => Option TradeReceipt

@[reducible] def BackendCall.Reply (c : BackendCall) : Type := Except BackendError c.Value

/-! ### Responses -/

inductive ErrorCode
  | invalidRequest
  | revisionConflict
  | idempotencyConflict
  | operationConflict
  | tradeConflict
  | ledgerConflict
  | outboxConflict
  | operationExpired
  | storageUnavailable
  | internal
deriving DecidableEq, Repr

/-- The numbers of the schema. -/
def ErrorCode.toNat : ErrorCode → ℕ
  | invalidRequest => 1001
  | revisionConflict => 2001
  | idempotencyConflict => 2002
  | operationConflict => 2003
  | tradeConflict => 2004
  | ledgerConflict => 2005
  | outboxConflict => 2006
  | operationExpired => 2007
  | storageUnavailable => 3001
  | internal => 9000

structure RpcFailure where
  code : ErrorCode
  publicMessage : String
  actualRevision : Option ℕ
deriving DecidableEq, Repr

/-- `wire::RpcError`, built from a failure by `into_wire`. -/
abbrev WireRpcError := RpcFailure

inductive WriteDisposition
  | applied
  | duplicate
deriving DecidableEq, Repr

structure WireSnapshotEnvelope where
  record : Option WireRecordKey
  schema : String
  schemaVersion : ℕ
  revision : ℕ
  payload : Bytes
  updatedAtUnixMs : ℕ

structure SaveSnapshotResponse where
  disposition : WriteDisposition
  revision : ℕ

structure SaveMultiSnapshotEntry where
  result : Option SaveSnapshotResponse
  error : Option WireRpcError

structure EnqueueMultiSnapshotEntry where
  accepted : Bool
  error : Option WireRpcError

structure ApplyTransactionResponse where
  disposition : WriteDisposition
  newRevision : ℕ
  result : Bytes

structure WireTransactionReceipt where
  operationId : String
  record : Option WireRecordKey
  newRevision : ℕ
  result : Bytes

structure MultiTransactionRecordReceipt where
  record : Option WireRecordKey
  newRevision : ℕ

structure ApplyMultiTransactionResponse where
  disposition : WriteDisposition
  records : List MultiTransactionRecordReceipt
  result : Bytes

structure MultiTransactionReceipt where
  operationId : String
  records : List MultiTransactionRecordReceipt
  result : Bytes

structure WireTradeEnvelope where
  tradeId : String
  version : ℕ
  state : TradeState
  payload : Bytes
  updatedAtUnixMs : ℕ

structure WireTradeReceipt where
  operationId : String
  tradeId : String
  newTradeVersion : ℕ
  state : TradeState
  records : List MultiTransactionRecordReceipt
  ledgerPostingIds : List String
  outboxEventIds : List String
  result : Bytes

/-- `wire::response_envelope::Body`; an entry of `loadMultiSnapshot` holds one
optional snapshot. -/
inductive ResponseBody
  | loadSnapshot (snapshot : Option WireSnapshotEnvelope)
  | saveSnapshot (response : SaveSnapshotResponse)
  | enqueueSnapshot (accepted : Bool)
  | applyTransaction (response : ApplyTransactionResponse)
  | loadTransaction (receipt : Option WireTransactionReceipt)
  | applyMultiTransaction (response : ApplyMultiTransactionResponse)
  | loadMultiTransaction (receipt : Option MultiTransactionReceipt)
  | loadMultiSnapshot (entries : List (Option WireSnapshotEnvelope))
  | saveMultiSnapshot (entries : List SaveMultiSnapshotEntry)
  | enqueueMultiSnapshot (entries : List EnqueueMultiSnapshotEntry)
  | applyTradeTransaction (disposition : WriteDisposition) (receipt : Option WireTradeReceipt)
  | loadTrade (trade : Option WireTradeEnvelope)
  | loadTradeTransaction (receipt : Option WireTradeReceipt)
  | commitRecords (response : ApplyMultiTransactionResponse)

/-- `wire::ResponseEnvelope`, the body of the server frame. -/
structure ResponseEnvelope where
  rpcId : UInt64
  error : Option WireRpcError
  body : Option ResponseBody

def RecordKey.toWire (value : RecordKey) : WireRecordKey := ⟨value.ns, value.key⟩

def SnapshotEnvelope.toWire (value : SnapshotEnvelope) : WireSnapshotEnvelope :=
  ⟨some value.record.toWire, value.schema, value.schemaVersion, value.revision, value.payload,
    value.updatedAtUnixMs⟩

def TradeEnvelope.toWire (value : TradeEnvelope) : WireTradeEnvelope :=
  ⟨value.tradeId, value.version, value.state, value.payload, value.updatedAtUnixMs⟩

def multiTransactionRecordReceipt (receipt : TransactionRecordReceipt) :
    MultiTransactionRecordReceipt :=
  ⟨some receipt.record.toWire, receipt.newRevision⟩

def TradeReceipt.toWire (value : TradeReceipt) : WireTradeReceipt :=
  ⟨value.operationId, value.tradeId, value.newTradeVersion, value.state,
    value.records.map multiTransactionRecordReceipt, value.ledgerPostingIds,
    value.outboxEventIds, value.result⟩

def multiTransactionReceipt (receipt : MultiRecordTransactionReceipt) : MultiTransactionReceipt :=
  ⟨receipt.operationId, receipt.records.map multiTransactionRecordReceipt, receipt.result⟩

def transactionReceipt (receipt : TransactionReceipt) : WireTransactionReceipt :=
  ⟨receipt.operationId, some receipt.record.toWire, receipt.newRevision, receipt.result⟩

def multiTransactionOutcome : MultiRecordTransactionalWriteOutcome → ApplyMultiTransactionResponse
  | .applied records result => ⟨.applied, records.map multiTransactionRecordReceipt, result⟩
  | .duplicate records result => ⟨.duplicate, records.map multiTransactionRecordReceipt, result⟩

def snapshotOutcome : SnapshotWriteOutcome → SaveSnapshotResponse
  | .applied revision => ⟨.applied, revision⟩
  | .duplicate revision => ⟨.duplicate, revision⟩

def transactionOutcome : TransactionalWriteOutcome → ApplyTransactionResponse
  | .applied newRevision result => ⟨.applied, newRevision, result⟩
  | .duplicate newRevision result => ⟨.duplicate, newRevision, result⟩

def tradeTransactionOutcome : TradeTransactionOutcome → ResponseBody
  | .applied receipt => .applyTradeTransaction .applied (some receipt.toWire)
  | .duplicate receipt => .applyTradeTransaction .duplicate (some receipt.toWire)

/-! ### Texts of errors

`{:?}` of a string escapes what `char::escape_debug` does.  Which of the other
characters are printed as they are is a table of the standard library and the
parameter `plain`. -/

section Texts

variable (plain : Char → Bool)

def debugChar (c : Char) : List Char :=
  if c = '\x00' then ['\\', '0']
  else if c = '\t' then ['\\', 't']
  else if c = '\r' then ['\\', 'r']
  else if c = '\n' then ['\\', 'n']
  else if c = '"' then ['\\', '"']
  else if c = '\\' then ['\\', '\\']
  else if plain c then [c]
  else ['\\', 'u', '\x7b'] ++ Nat.toDigits 16 c.toNat ++ ['\x7d']

/-- `{:?}` of a string. -/
def debugText (text : String) : String :=
  "\"" ++ String.ofList (text.toList.flatMap (debugChar plain)) ++ "\""

def RecordKey.debug (record : RecordKey) : String :=
  "RecordKey \x7b namespace: " ++ debugText plain record.ns ++ ", key: " ++
    debugText plain record.key ++ " \x7d"

def Revision.debug (revision : Revision) : String := "Revision(" ++ toString revision ++ ")"

def TradeState.debug : TradeState → String
  | proposed => "Proposed"
  | escrowed => "Escrowed"
  | settled => "Settled"
  | cancelled => "Cancelled"

def debugOption {α : Type} (debug : α → String) : Option α → String
  | none => "None"
  | some a => "Some(" ++ debug a ++ ")"

/-- `to_string` of a `StoreError`. -/
def StoreError.message : StoreError → String
  | appendRecordConflict record => "append record already exists: " ++ record.debug plain
  | invalidKey reason => "invalid record key: " ++ reason
  | emptyRequestId => "idempotency request is empty"
  | emptyOperationId => "transaction operation id is empty"
  | idempotencyConflict requestId =>
    "idempotency request " ++ requestId ++ " was already used for another record"
  | operationIdConflict operationId =>
    "transaction operation " ++ operationId ++ " was already used for another request"
  | operationExpired operationId =>
    "transaction operation " ++ operationId ++
      " receipt has expired; its outcome can no longer be read or replayed"
  | queuedSnapshotRequiresUnconditionalWrite record =>
    "queued snapshot " ++ record.debug plain ++ " must not carry an expected revision"
  | revisionConflict record expected actual =>
    "revision conflict for " ++ record.debug plain ++ ": expected " ++
      debugOption Revision.debug expected ++ ", actual " ++ Revision.debug actual
  | revisionExhausted record => "revision exhausted for " ++ record.debug plain
  | emptyTransactionRecords => "multi-record transaction must contain at least one record"
  | duplicateTransactionRecord record =>
    "multi-record transaction contains duplicate record " ++ record.debug plain
  | emptyTradeId => "trade id is empty"
  | emptyTradeRecords => "trade transaction has no snapshot records"
  | tradeVersionConflict tradeId expected actual =>
    "trade " ++ tradeId ++ " version conflict: expected " ++ Revision.debug expected ++
      ", actual " ++ Revision.debug actual
  | tradeStateConflict tradeId expected actual =>
    "trade " ++ tradeId ++ " state conflict: expected " ++ debugOption TradeState.debug expected ++
      ", actual " ++ debugOption TradeState.debug actual
  | tradeVersionExhausted tradeId => "trade version exhausted for " ++ tradeId
  | invalidTradeStateTransition source target =>
    "invalid trade state transition from " ++ debugOption TradeState.debug source ++ " to " ++
      target.debug
  | invalidLedgerPosting reason => "invalid ledger posting: " ++ reason
  | duplicateLedgerPosting postingId => "duplicate ledger posting id: " ++ postingId
  | ledgerPostingConflict postingId => "ledger posting id was already used: " ++ postingId
  | unbalancedLedger asset => "ledger postings for asset " ++ asset ++ " are not balanced"
  | invalidOutboxEvent reason => "invalid outbox event: " ++ reason
  | duplicateOutboxEvent eventId => "duplicate outbox event id: " ++ eventId
  | outboxEventConflict eventId => "outbox event id was already used: " ++ eventId

namespace RpcFailure

def invalid (message : String) : RpcFailure := ⟨.invalidRequest, message, none⟩

def internal (message : String) : RpcFailure := ⟨.internal, message, none⟩

def fromStore (error : StoreError) : RpcFailure :=
  match error with
  | .invalidKey _ | .emptyRequestId | .emptyOperationId | .emptyTransactionRecords
  | .emptyTradeId | .emptyTradeRecords | .duplicateTransactionRecord _
  | .invalidTradeStateTransition _ _ | .invalidLedgerPosting _ | .duplicateLedgerPosting _
  | .unbalancedLedger _ | .invalidOutboxEvent _ | .duplicateOutboxEvent _
  | .queuedSnapshotRequiresUnconditionalWrite _ => invalid (error.message plain)
  | .idempotencyConflict _ => ⟨.idempotencyConflict, error.message plain, none⟩
  | .operationIdConflict _ | .appendRecordConflict _ =>
    ⟨.operationConflict, error.message plain, none⟩
  | .operationExpired _ => ⟨.operationExpired, error.message plain, none⟩
  | .revisionConflict _ _ actual => ⟨.revisionConflict, error.message plain, some actual⟩
  | .tradeVersionConflict _ _ actual => ⟨.tradeConflict, error.message plain, some actual⟩
  | .tradeStateConflict _ _ _ => ⟨.tradeConflict, error.message plain, none⟩
  | .ledgerPostingConflict _ => ⟨.ledgerConflict, error.message plain, none⟩
  | .outboxEventConflict _ => ⟨.outboxConflict, error.message plain, none⟩
  | .revisionExhausted _ | .tradeVersionExhausted _ => ⟨.internal, "revision exhausted", none⟩

def fromProtocol : ProtocolError → RpcFailure
  | .core error => fromStore plain error
  | .missingField field => invalid ("missing field: " ++ field)
  | .invalidField field => invalid ("invalid field: " ++ field)
  | .invalidFrameLength _ _ => ⟨.internal, "request conversion failed", none⟩

def fromBackend : BackendError → RpcFailure
  | .invalidConfig _ => ⟨.internal, "DBProxy backend is misconfigured", none⟩
  | .core error | .storage (.core error) => fromStore plain error
  | .storage _ =>
    ⟨.storageUnavailable, "storage operation failed; retry with the same idempotency key", none⟩
  | .worker _ => internal "DBProxy backend worker failed"

end RpcFailure

end Texts

/-! ### Checks -/

def validateTextField (field value : String) (maximum : ℕ) : Except RpcFailure Unit :=
  if blank value || maximum < value.utf8ByteSize then
    .error (.invalid (field ++ " is empty or exceeds " ++ toString maximum ++ " bytes"))
  else .ok ()

def validatePayloadSize (field : String) (length maximum : ℕ) : Except RpcFailure Unit :=
  if maximum < length then
    .error (.invalid (field ++ " exceeds maxPayloadBytes (" ++ toString length ++ " > " ++
      toString maximum ++ ")"))
  else .ok ()

def validateSnapshotWriteBatch (writes : List SnapshotWrite) : Except RpcFailure Unit :=
  if ¬ (writes.map (·.record)).Nodup then
    .error (.invalid "snapshot batch contains duplicate records")
  else if ¬ (writes.map (·.requestId)).Nodup then
    .error (.invalid "snapshot batch contains duplicate request ids")
  else .ok ()

def validateSnapshotPayloads (writes : List SnapshotWrite) (maximum : ℕ) :
    Except RpcFailure Unit :=
  writes.forM fun write => validatePayloadSize "snapshot payload" write.payload.length maximum

def validateTransactionPayloads (writes : List TransactionalRecordWrite) (maximum : ℕ) :
    Except RpcFailure Unit :=
  writes.forM fun write => validatePayloadSize "transaction payload" write.payload.length maximum

def meetsReadFence (snapshot : Option SnapshotEnvelope) (minimum : ℕ) : Bool :=
  minimum == 0 || snapshot.any fun s => minimum ≤ s.revision

def requireReadFence (snapshot : Option SnapshotEnvelope) (minimum : ℕ) :
    Except RpcFailure Unit :=
  if meetsReadFence snapshot minimum then .ok ()
  else
    .error ⟨.storageUnavailable,
      "committed snapshot has not reached the requested revision; retry the read",
      snapshot.map (·.revision)⟩

/-- A condition that refuses the request with a public text. -/
def refuseIf (refused : Prop) [Decidable refused] (message : String) : Except RpcFailure Unit :=
  if refused then .error (.invalid message) else .ok ()

/-! ### Handlers -/

/-- A handler under construction. -/
abbrev Handler (α : Type) := ExceptT RpcFailure (Interaction BackendCall BackendCall.Reply) α

def ensure {α : Type} (x : Except RpcFailure α) : Handler α := Interaction.ofResult x

section Handlers

variable (plain : Char → Bool) (maxPayloadBytes : ℕ)

def convert {α : Type} (x : Except ProtocolError α) : Handler α :=
  ensure (x.mapError (RpcFailure.fromProtocol plain))

/-- Call the backend. -/
def ask (c : BackendCall) : Handler c.Value :=
  Interaction.query c id (RpcFailure.fromBackend plain)

/-- A message field that must be there. -/
def present {α : Type} (message : String) (field : Option α) : Handler α :=
  ensure (field.elim (.error (.invalid message)) .ok)

def dispatchLoadSnapshot (request : WireLoadSnapshotRequest) : Handler ResponseBody := do
  let record ← present "load_snapshot.record is missing" request.record
  let record ← convert plain record.toCore
  let first ←
    (if request.allowStale then ask plain (.loadCached record) else ask plain (.load record) :
      Handler (Option SnapshotEnvelope))
  let minimum := (request.minRevision.map (·.toNat)).getD 0
  let snapshot ←
    (if request.allowStale && !meetsReadFence first minimum then ask plain (.load record)
      else pure first : Handler (Option SnapshotEnvelope))
  ensure (requireReadFence snapshot minimum)
  return .loadSnapshot (snapshot.map (·.toWire))

/-- An empty list of fences asks for none. -/
def readFences (minRevisions : List UInt64) (count : ℕ) : List ℕ :=
  if minRevisions = [] then List.replicate count 0 else minRevisions.map (·.toNat)

def dispatchLoadMultiSnapshot (request : WireLoadMultiSnapshotRequest) :
    Handler ResponseBody := do
  ensure (refuseIf (request.records = []) "load_multi_snapshot.records is empty")
  ensure (refuseIf (maxBatchLoadRecords < request.records.length)
    "load_multi_snapshot.records exceeds the record limit")
  let records ← convert plain (request.records.mapM WireRecordKey.toCore)
  ensure (refuseIf (¬ records.Nodup) "load_multi_snapshot.records contains duplicates")
  ensure (refuseIf (request.minRevisions ≠ [] ∧ request.minRevisions.length ≠ records.length)
    "min_revisions must be empty or match records")
  let minima := readFences request.minRevisions records.length
  let first ←
    (if request.allowStale then ask plain (.loadCachedMulti records)
      else ask plain (.loadMulti records) : Handler (List (Option SnapshotEnvelope)))
  -- a fence that one snapshot misses sends the whole batch to the authority
  let snapshots ←
    (if request.allowStale && (first.zip minima).any (fun x => !meetsReadFence x.1 x.2) then
        ask plain (.loadMulti records)
      else pure first : Handler (List (Option SnapshotEnvelope)))
  ensure ((snapshots.zip minima).forM fun x => requireReadFence x.1 x.2)
  if snapshots.length ≠ records.length then
    throw (.internal "backend returned a mismatched batch load result")
  else return .loadMultiSnapshot (snapshots.map (Option.map (·.toWire)))

def dispatchSaveSnapshot (request : WireSaveSnapshotRequest) : Handler ResponseBody := do
  ensure (validatePayloadSize "save_snapshot.payload" request.payload.length maxPayloadBytes)
  let request ← convert plain request.toSnapshotWrite
  let outcome ← ask plain (.save request)
  return .saveSnapshot (snapshotOutcome outcome)

/-- What `SaveMultiSnapshot` and `EnqueueMultiSnapshot` check of their writes. -/
def checkBatch (rpc : String) (writes : List WireSaveSnapshotRequest) :
    Handler (List SnapshotWrite) := do
  ensure (refuseIf (writes = []) (rpc ++ ".writes is empty"))
  ensure (refuseIf (maxBatchSnapshotWrites < writes.length)
    (rpc ++ ".writes exceeds the record limit"))
  let writes ← convert plain (writes.mapM WireSaveSnapshotRequest.toSnapshotWrite)
  ensure (validateSnapshotWriteBatch writes)
  ensure (validateSnapshotPayloads writes maxPayloadBytes)
  return writes

def saveEntryResponse : Except BackendError SnapshotWriteOutcome → SaveMultiSnapshotEntry
  | .ok outcome => ⟨some (snapshotOutcome outcome), none⟩
  | .error error => ⟨none, some (RpcFailure.fromBackend plain error)⟩

def enqueueEntryResponse : Except BackendError Unit → EnqueueMultiSnapshotEntry
  | .ok () => ⟨true, none⟩
  | .error error => ⟨false, some (RpcFailure.fromBackend plain error)⟩

def dispatchSaveMultiSnapshot (request : WireSaveMultiSnapshotRequest) :
    Handler ResponseBody := do
  let writes ← checkBatch plain maxPayloadBytes "save_multi_snapshot" request.writes
  let outcomes ← ask plain (.saveMulti writes)
  if outcomes.length ≠ writes.length then
    throw (.internal "backend returned a mismatched batch save result")
  else return .saveMultiSnapshot (outcomes.map (saveEntryResponse plain))

def dispatchEnqueueSnapshot (request : WireEnqueueSnapshotRequest) : Handler ResponseBody := do
  let write ← present "enqueue_snapshot.write is missing" request.write
  let write ← convert plain write.toSnapshotWrite
  ensure (validatePayloadSize "enqueue_snapshot.payload" write.payload.length maxPayloadBytes)
  ask plain (.enqueueSnapshot write)
  return .enqueueSnapshot true

def dispatchEnqueueMultiSnapshot (request : WireEnqueueMultiSnapshotRequest) :
    Handler ResponseBody := do
  let writes ← checkBatch plain maxPayloadBytes "enqueue_multi_snapshot" request.writes
  let outcomes ← ask plain (.enqueueMultiSnapshot writes)
  if outcomes.length ≠ writes.length then
    throw (.internal "backend returned a mismatched batch enqueue result")
  else return .enqueueMultiSnapshot (outcomes.map (enqueueEntryResponse plain))

def dispatchApplyTransaction (request : WireApplyTransactionRequest) : Handler ResponseBody := do
  ensure (validatePayloadSize "apply_transaction.payload" request.payload.length maxPayloadBytes)
  ensure (validatePayloadSize "apply_transaction.result" request.result.length maxPayloadBytes)
  let request ← convert plain request.toTransactionalWrite
  let outcome ← ask plain (.applyTransaction request)
  return .applyTransaction (transactionOutcome outcome)

def dispatchLoadTransaction (request : WireLoadTransactionRequest) : Handler ResponseBody := do
  ensure (validateTextField "load_transaction.operation_id" request.operationId
    maxIdempotencyKeyBytes)
  let record ← present "load_transaction.record is missing" request.record
  let record ← convert plain record.toCore
  let receipt ← ask plain (.loadTransaction request.operationId record)
  return .loadTransaction (receipt.map transactionReceipt)

def dispatchCommitRecords (request : WireCommitRecordsRequest) : Handler ResponseBody := do
  ensure (validateTextField "commit.operation_id" request.operationId maxIdempotencyKeyBytes)
  ensure (refuseIf (request.writes = [] ∨ maxTransactionRecords < request.writes.length ∨
      maxTransactionRecords < request.appends.length ∨
      maxOutboxEvents < request.outboxEvents.length)
    "commit collection size exceeds limits")
  let writes ← convert plain (request.writes.mapM WireTransactionalRecordWrite.toCore)
  ensure (validateTransactionPayloads writes maxPayloadBytes)
  ensure (validatePayloadSize "commit.result" request.result.length maxPayloadBytes)
  let appends ← convert plain (request.appends.mapM WireAppendRecord.toCore)
  let events ← convert plain (request.outboxEvents.mapM WireOutboxEvent.toCore)
  ensure (appends.forM fun append =>
    validatePayloadSize "commit.append" append.payload.length maxPayloadBytes)
  ensure (events.forM fun event =>
    validatePayloadSize "commit.event" event.payload.length maxPayloadBytes)
  let outcome ← ask plain
    (.commitRecords ⟨request.operationId, writes, request.result⟩ ⟨appends, events⟩)
  return .commitRecords (multiTransactionOutcome outcome)

def dispatchApplyMultiTransaction (request : WireApplyMultiTransactionRequest) :
    Handler ResponseBody := do
  ensure (validateTextField "apply_multi_transaction.operation_id" request.operationId
    maxIdempotencyKeyBytes)
  ensure (refuseIf (request.writes = []) "apply_multi_transaction.writes is empty")
  ensure (refuseIf (maxTransactionRecords < request.writes.length)
    "apply_multi_transaction.writes exceeds the record limit")
  let writes ← convert plain (request.writes.mapM WireTransactionalRecordWrite.toCore)
  ensure (validateTransactionPayloads writes maxPayloadBytes)
  ensure (validatePayloadSize "apply_multi_transaction.result" request.result.length
    maxPayloadBytes)
  let outcome ← ask plain
    (.applyMultiTransaction ⟨request.operationId, writes, request.result⟩)
  return .applyMultiTransaction (multiTransactionOutcome outcome)

def dispatchLoadMultiTransaction (request : WireLoadMultiTransactionRequest) :
    Handler ResponseBody := do
  ensure (validateTextField "load_multi_transaction.operation_id" request.operationId
    maxIdempotencyKeyBytes)
  ensure (refuseIf (request.records = []) "load_multi_transaction.records is empty")
  ensure (refuseIf (maxTransactionRecords < request.records.length)
    "load_multi_transaction.records exceeds the record limit")
  let records ← convert plain (request.records.mapM WireRecordKey.toCore)
  let receipt ← ask plain (.loadMultiTransaction request.operationId records)
  return .loadMultiTransaction (receipt.map multiTransactionReceipt)

def dispatchApplyTradeTransaction (request : WireApplyTradeTransactionRequest) :
    Handler ResponseBody := do
  ensure (request.transition.elim (.ok ()) fun transition =>
    validatePayloadSize "apply_trade_transaction.transition.payload" transition.payload.length
      maxPayloadBytes)
  ensure (request.writes.forM fun write =>
    validatePayloadSize "apply_trade_transaction.write.payload" write.payload.length
      maxPayloadBytes)
  ensure (request.ledgerPostings.forM fun posting =>
    validatePayloadSize "apply_trade_transaction.ledger_posting.metadata" posting.metadata.length
      maxPayloadBytes)
  ensure (request.outboxEvents.forM fun event =>
    validatePayloadSize "apply_trade_transaction.outbox_event.payload" event.payload.length
      maxPayloadBytes)
  ensure (validatePayloadSize "apply_trade_transaction.result" request.result.length
    maxPayloadBytes)
  let request ← convert plain request.toCore
  let outcome ← ask plain (.applyTradeTransaction request)
  return tradeTransactionOutcome outcome

def dispatchLoadTrade (request : WireLoadTradeRequest) : Handler ResponseBody := do
  ensure (validateTextField "load_trade.trade_id" request.tradeId maxTradeIdBytes)
  let trade ← ask plain (.loadTrade request.tradeId)
  return .loadTrade (trade.map (·.toWire))

def dispatchLoadTradeTransaction (request : WireLoadTradeTransactionRequest) :
    Handler ResponseBody := do
  ensure (validateTextField "load_trade_transaction.operation_id" request.operationId
    maxIdempotencyKeyBytes)
  ensure (validateTextField "load_trade_transaction.trade_id" request.tradeId maxTradeIdBytes)
  let receipt ← ask plain (.loadTradeTransaction request.operationId request.tradeId)
  return .loadTradeTransaction (receipt.map (·.toWire))

def dispatchBody : Option RequestBody → Handler ResponseBody
  | none => throw (.invalid "request body is missing")
  | some (.loadSnapshot request) => dispatchLoadSnapshot plain request
  | some (.loadMultiSnapshot request) => dispatchLoadMultiSnapshot plain request
  | some (.saveSnapshot request) => dispatchSaveSnapshot plain maxPayloadBytes request
  | some (.saveMultiSnapshot request) => dispatchSaveMultiSnapshot plain maxPayloadBytes request
  | some (.enqueueSnapshot request) => dispatchEnqueueSnapshot plain maxPayloadBytes request
  | some (.enqueueMultiSnapshot request) =>
    dispatchEnqueueMultiSnapshot plain maxPayloadBytes request
  | some (.applyTransaction request) => dispatchApplyTransaction plain maxPayloadBytes request
  | some (.loadTransaction request) => dispatchLoadTransaction plain request
  | some (.commitRecords request) => dispatchCommitRecords plain maxPayloadBytes request
  | some (.applyMultiTransaction request) =>
    dispatchApplyMultiTransaction plain maxPayloadBytes request
  | some (.loadMultiTransaction request) => dispatchLoadMultiTransaction plain request
  | some (.applyTradeTransaction request) =>
    dispatchApplyTradeTransaction plain maxPayloadBytes request
  | some (.loadTrade request) => dispatchLoadTrade plain request
  | some (.loadTradeTransaction request) => dispatchLoadTradeTransaction plain request

/-- The response envelope that `dispatch` builds from the result of `dispatch_body`. -/
def responseEnvelope (rpcId : UInt64) : Except RpcFailure ResponseBody → ResponseEnvelope
  | .ok body => ⟨rpcId, none, some body⟩
  | .error failure => ⟨rpcId, some failure, none⟩

end Handlers

/-! ### What a request names -/

/-- Requests of one connection that share any key run in arrival order. -/
inductive OrderKey
  | record (ns key : String)
  | operation (operationId : String)
  | trade (tradeId : String)
deriving DecidableEq, Repr

def WireRecordKey.orderKey (record : WireRecordKey) : OrderKey := .record record.ns record.key

/-- The keys of `order_keys`, before they are put into a hash set. -/
def orderKeyList : Option RequestBody → List OrderKey
  | none => []
  | some (.loadSnapshot request) => request.record.toList.map (·.orderKey)
  | some (.loadMultiSnapshot request) => request.records.map (·.orderKey)
  | some (.saveSnapshot request) => request.record.toList.map (·.orderKey)
  | some (.saveMultiSnapshot request) =>
    request.writes.flatMap fun write => write.record.toList.map (·.orderKey)
  | some (.enqueueSnapshot request) =>
    (request.write.bind (·.record)).toList.map (·.orderKey)
  | some (.enqueueMultiSnapshot request) =>
    request.writes.flatMap fun write => write.record.toList.map (·.orderKey)
  | some (.applyTransaction request) =>
    .operation request.operationId :: request.record.toList.map (·.orderKey)
  | some (.loadTransaction request) =>
    .operation request.operationId :: request.record.toList.map (·.orderKey)
  | some (.applyMultiTransaction request) =>
    .operation request.operationId ::
      request.writes.flatMap fun write => write.record.toList.map (·.orderKey)
  | some (.commitRecords request) =>
    .operation request.operationId ::
      request.writes.flatMap fun write => write.record.toList.map (·.orderKey)
  | some (.loadMultiTransaction request) =>
    .operation request.operationId :: request.records.map (·.orderKey)
  | some (.applyTradeTransaction request) =>
    .operation request.operationId ::
      (request.transition.toList.map fun transition => .trade transition.tradeId) ++
      request.writes.flatMap fun write => write.record.toList.map (·.orderKey)
  | some (.loadTrade request) => [.trade request.tradeId]
  | some (.loadTradeTransaction request) =>
    [.operation request.operationId, .trade request.tradeId]

def RecordKey.orderKey (record : RecordKey) : OrderKey := .record record.ns record.key

/-- The snapshot records, operation ids and trade ids that a call passes to the
backend.  The addresses of appended facts are identities of their own. -/
def BackendCall.touches : BackendCall → List OrderKey
  | load record | loadCached record => [record.orderKey]
  | loadMulti records | loadCachedMulti records => records.map (·.orderKey)
  | save request | enqueueSnapshot request => [request.record.orderKey]
  | saveMulti requests | enqueueMultiSnapshot requests => requests.map (·.record.orderKey)
  | applyTransaction request => [.operation request.operationId, request.record.orderKey]
  | loadTransaction operationId record => [.operation operationId, record.orderKey]
  | commitRecords request _ | applyMultiTransaction request =>
    .operation request.operationId :: request.writes.map (·.record.orderKey)
  | loadMultiTransaction operationId records =>
    .operation operationId :: records.map (·.orderKey)
  | applyTradeTransaction request =>
    .operation request.operationId :: .trade request.transition.tradeId ::
      request.writes.map (·.record.orderKey)
  | loadTrade tradeId => [.trade tradeId]
  | loadTradeTransaction operationId tradeId => [.operation operationId, .trade tradeId]

def orderKeys (body : Option RequestBody) : Finset OrderKey := (orderKeyList body).toFinset

theorem WireRecordKey.toCore_orderKey {value : WireRecordKey} {record : RecordKey}
    (h : value.toCore = .ok record) : record.orderKey = value.orderKey := by
  rw [(toCore_ok h).1]
  rfl

theorem mapM_toCore_orderKey {values : List WireRecordKey} {records : List RecordKey}
    (h : values.mapM WireRecordKey.toCore = .ok records) :
    records.map (·.orderKey) = values.map (·.orderKey) := by
  have hall := Checks.mapM_eq_ok.mp h
  induction hall with
  | nil => rfl
  | cons hrecord _ ih =>
    rw [List.map_cons, List.map_cons, WireRecordKey.toCore_orderKey hrecord, ih]
    exact Checks.mapM_eq_ok.mpr ‹_›

/-- A record that a converted list names was named by the request. -/
theorem mem_orderKeys_of_mapM {α β : Type} {convert : α → Except ProtocolError β}
    {field : α → Option WireRecordKey} {record : β → RecordKey}
    (hconvert : ∀ a b, convert a = .ok b →
      ∃ w, field a = some w ∧ w.toCore = .ok (record b))
    {values : List α} {converted : List β} (h : values.mapM convert = .ok converted)
    {k : OrderKey} (hk : k ∈ converted.map fun b => (record b).orderKey) :
    k ∈ values.flatMap fun a => (field a).toList.map (·.orderKey) := by
  obtain ⟨b, hb, rfl⟩ := List.mem_map.mp hk
  obtain ⟨a, ha, hab⟩ := Checks.exists_of_forall₂_right (Checks.mapM_eq_ok.mp h) hb
  obtain ⟨w, hw, hcore⟩ := hconvert a b hab
  refine List.mem_flatMap.mpr ⟨a, ha, ?_⟩
  simp [hw, WireRecordKey.toCore_orderKey hcore]

/-! ### What a handler passes to the backend -/

/-- Every record, operation and trade of the call is one of `keys`. -/
def BackendCall.Names (keys : List OrderKey) (c : BackendCall) : Prop :=
  ∀ k ∈ c.touches, k ∈ keys

section Calls

open Interaction

variable {plain : Char → Bool} {maxPayloadBytes : ℕ} {p : BackendCall → Prop}

theorem allCalls_ensure_bind {α β : Type} {x : Except RpcFailure α} {f : α → Handler β} :
    AllCalls p (ensure x >>= f).run ↔ ∀ a, x = .ok a → AllCalls p (f a).run :=
  allCalls_ofResult_bind

theorem allCalls_convert_bind {α β : Type} {x : Except ProtocolError α} {f : α → Handler β} :
    AllCalls p (convert plain x >>= f).run ↔ ∀ a, x = .ok a → AllCalls p (f a).run := by
  rw [convert, allCalls_ensure_bind]
  simp only [Checks.mapError_eq_ok]

theorem allCalls_present_bind {α β : Type} {message : String} {field : Option α}
    {f : α → Handler β} :
    AllCalls p (present message field >>= f).run ↔ ∀ a, field = some a → AllCalls p (f a).run := by
  rw [present, allCalls_ensure_bind]
  cases field <;> simp

theorem allCalls_ask {c : BackendCall} (hc : p c) : AllCalls p (ask plain c).run :=
  allCalls_query.mpr hc

theorem allCalls_ask_bind {β : Type} {c : BackendCall} {f : c.Value → Handler β} (hc : p c)
    (hf : ∀ a, AllCalls p (f a).run) : AllCalls p (ask plain c >>= f).run :=
  allCalls_exceptT_bind (allCalls_ask hc) hf

theorem dispatchLoadSnapshot_calls (request : WireLoadSnapshotRequest) :
    AllCalls (BackendCall.Names (orderKeyList (some (.loadSnapshot request))))
      (dispatchLoadSnapshot plain request).run := by
  refine allCalls_present_bind.mpr fun w hw => allCalls_convert_bind.mpr fun record hrecord => ?_
  have hkey : ∀ k ∈ [record.orderKey], k ∈ orderKeyList (some (.loadSnapshot request)) := by
    simp [orderKeyList, hw, WireRecordKey.toCore_orderKey hrecord]
  refine allCalls_exceptT_bind ?_ fun first => allCalls_exceptT_bind ?_ fun snapshot =>
    allCalls_ensure_bind.mpr fun _ _ => allCalls_pure
  · split
    · exact allCalls_ask hkey
    · exact allCalls_ask hkey
  · split
    · exact allCalls_ask hkey
    · exact allCalls_pure

theorem dispatchLoadMultiSnapshot_calls (request : WireLoadMultiSnapshotRequest) :
    AllCalls (BackendCall.Names (orderKeyList (some (.loadMultiSnapshot request))))
      (dispatchLoadMultiSnapshot plain request).run := by
  refine allCalls_ensure_bind.mpr fun _ _ => allCalls_ensure_bind.mpr fun _ _ =>
    allCalls_convert_bind.mpr fun records hrecords => allCalls_ensure_bind.mpr fun _ _ =>
    allCalls_ensure_bind.mpr fun _ _ => ?_
  have hkeys : ∀ k ∈ records.map (·.orderKey),
      k ∈ orderKeyList (some (.loadMultiSnapshot request)) := by
    rw [mapM_toCore_orderKey hrecords]
    exact fun k hk => hk
  refine allCalls_exceptT_bind ?_ fun first => allCalls_exceptT_bind ?_ fun snapshots =>
    allCalls_ensure_bind.mpr fun _ _ => ?_
  · split
    · exact allCalls_ask hkeys
    · exact allCalls_ask hkeys
  · split
    · exact allCalls_ask hkeys
    · exact allCalls_pure
  · split
    · exact allCalls_throw
    · exact allCalls_pure

theorem dispatchSaveSnapshot_calls (request : WireSaveSnapshotRequest) :
    AllCalls (BackendCall.Names (orderKeyList (some (.saveSnapshot request))))
      (dispatchSaveSnapshot plain maxPayloadBytes request).run := by
  refine allCalls_ensure_bind.mpr fun _ _ => allCalls_convert_bind.mpr fun write hwrite =>
    allCalls_ask_bind ?_ fun _ => allCalls_pure
  obtain ⟨⟨w, hw, hcore⟩, -⟩ := request.toSnapshotWrite_ok hwrite
  intro k hk
  simp_all [BackendCall.touches, orderKeyList, WireRecordKey.toCore_orderKey hcore]

/-- The records of an accepted batch are those of its writes. -/
theorem allCalls_checkBatch_bind {β : Type} {rpc : String}
    {wires : List WireSaveSnapshotRequest} {f : List SnapshotWrite → Handler β}
    (hf : ∀ writes : List SnapshotWrite,
      (∀ k ∈ writes.map (·.record.orderKey),
        k ∈ wires.flatMap fun write => write.record.toList.map (·.orderKey)) →
      AllCalls p (f writes).run) :
    AllCalls p (checkBatch plain maxPayloadBytes rpc wires >>= f).run := by
  simp only [checkBatch, bind_assoc, pure_bind]
  refine allCalls_ensure_bind.mpr fun _ _ => allCalls_ensure_bind.mpr fun _ _ =>
    allCalls_convert_bind.mpr fun writes hwrites => allCalls_ensure_bind.mpr fun _ _ =>
    allCalls_ensure_bind.mpr fun _ _ => hf writes fun k hk => ?_
  exact mem_orderKeys_of_mapM (fun _ _ h => (WireSaveSnapshotRequest.toSnapshotWrite_ok h).1)
    hwrites hk

theorem dispatchSaveMultiSnapshot_calls (request : WireSaveMultiSnapshotRequest) :
    AllCalls (BackendCall.Names (orderKeyList (some (.saveMultiSnapshot request))))
      (dispatchSaveMultiSnapshot plain maxPayloadBytes request).run := by
  refine allCalls_checkBatch_bind fun writes hkeys => allCalls_ask_bind hkeys fun outcomes => ?_
  split
  · exact allCalls_throw
  · exact allCalls_pure

theorem dispatchEnqueueSnapshot_calls (request : WireEnqueueSnapshotRequest) :
    AllCalls (BackendCall.Names (orderKeyList (some (.enqueueSnapshot request))))
      (dispatchEnqueueSnapshot plain maxPayloadBytes request).run := by
  refine allCalls_present_bind.mpr fun wire hwire =>
    allCalls_convert_bind.mpr fun write hwrite => allCalls_ensure_bind.mpr fun _ _ =>
    allCalls_ask_bind ?_ fun _ => allCalls_pure
  obtain ⟨⟨w, hw, hcore⟩, -⟩ := wire.toSnapshotWrite_ok hwrite
  intro k hk
  simp_all [BackendCall.touches, orderKeyList, WireRecordKey.toCore_orderKey hcore]

theorem dispatchEnqueueMultiSnapshot_calls (request : WireEnqueueMultiSnapshotRequest) :
    AllCalls (BackendCall.Names (orderKeyList (some (.enqueueMultiSnapshot request))))
      (dispatchEnqueueMultiSnapshot plain maxPayloadBytes request).run := by
  refine allCalls_checkBatch_bind fun writes hkeys => allCalls_ask_bind hkeys fun outcomes => ?_
  split
  · exact allCalls_throw
  · exact allCalls_pure

theorem dispatchApplyTransaction_calls (request : WireApplyTransactionRequest) :
    AllCalls (BackendCall.Names (orderKeyList (some (.applyTransaction request))))
      (dispatchApplyTransaction plain maxPayloadBytes request).run := by
  refine allCalls_ensure_bind.mpr fun _ _ => allCalls_ensure_bind.mpr fun _ _ =>
    allCalls_convert_bind.mpr fun write hwrite => allCalls_ask_bind ?_ fun _ => allCalls_pure
  obtain ⟨⟨w, hw, hcore⟩, hid, -⟩ := request.toTransactionalWrite_ok hwrite
  intro k hk
  simp_all [BackendCall.touches, orderKeyList, WireRecordKey.toCore_orderKey hcore]

theorem dispatchLoadTransaction_calls (request : WireLoadTransactionRequest) :
    AllCalls (BackendCall.Names (orderKeyList (some (.loadTransaction request))))
      (dispatchLoadTransaction plain request).run := by
  refine allCalls_ensure_bind.mpr fun _ _ => allCalls_present_bind.mpr fun w hw =>
    allCalls_convert_bind.mpr fun record hrecord => allCalls_ask_bind ?_ fun _ => allCalls_pure
  intro k hk
  simp_all [BackendCall.touches, orderKeyList, WireRecordKey.toCore_orderKey hrecord]

/-- The records of converted transactional writes are those of the request. -/
theorem mem_orderKeys_of_writes {wires : List WireTransactionalRecordWrite}
    {writes : List TransactionalRecordWrite}
    (h : wires.mapM WireTransactionalRecordWrite.toCore = .ok writes) {k : OrderKey}
    (hk : k ∈ writes.map (·.record.orderKey)) :
    k ∈ wires.flatMap fun write => write.record.toList.map (·.orderKey) :=
  mem_orderKeys_of_mapM (fun _ _ h => (WireTransactionalRecordWrite.toCore_ok h).1) h hk

theorem dispatchCommitRecords_calls (request : WireCommitRecordsRequest) :
    AllCalls (BackendCall.Names (orderKeyList (some (.commitRecords request))))
      (dispatchCommitRecords plain maxPayloadBytes request).run := by
  refine allCalls_ensure_bind.mpr fun _ _ => allCalls_ensure_bind.mpr fun _ _ =>
    allCalls_convert_bind.mpr fun writes hwrites => allCalls_ensure_bind.mpr fun _ _ =>
    allCalls_ensure_bind.mpr fun _ _ => allCalls_convert_bind.mpr fun appends _ =>
    allCalls_convert_bind.mpr fun events _ => allCalls_ensure_bind.mpr fun _ _ =>
    allCalls_ensure_bind.mpr fun _ _ => allCalls_ask_bind ?_ fun _ => allCalls_pure
  intro k hk
  rcases List.mem_cons.mp hk with rfl | hk
  · exact List.mem_cons_self ..
  · exact List.mem_cons_of_mem _ (mem_orderKeys_of_writes hwrites hk)

theorem dispatchApplyMultiTransaction_calls (request : WireApplyMultiTransactionRequest) :
    AllCalls (BackendCall.Names (orderKeyList (some (.applyMultiTransaction request))))
      (dispatchApplyMultiTransaction plain maxPayloadBytes request).run := by
  refine allCalls_ensure_bind.mpr fun _ _ => allCalls_ensure_bind.mpr fun _ _ =>
    allCalls_ensure_bind.mpr fun _ _ => allCalls_convert_bind.mpr fun writes hwrites =>
    allCalls_ensure_bind.mpr fun _ _ => allCalls_ensure_bind.mpr fun _ _ =>
    allCalls_ask_bind ?_ fun _ => allCalls_pure
  intro k hk
  rcases List.mem_cons.mp hk with rfl | hk
  · exact List.mem_cons_self ..
  · exact List.mem_cons_of_mem _ (mem_orderKeys_of_writes hwrites hk)

theorem dispatchLoadMultiTransaction_calls (request : WireLoadMultiTransactionRequest) :
    AllCalls (BackendCall.Names (orderKeyList (some (.loadMultiTransaction request))))
      (dispatchLoadMultiTransaction plain request).run := by
  refine allCalls_ensure_bind.mpr fun _ _ => allCalls_ensure_bind.mpr fun _ _ =>
    allCalls_ensure_bind.mpr fun _ _ => allCalls_convert_bind.mpr fun records hrecords =>
    allCalls_ask_bind ?_ fun _ => allCalls_pure
  intro k hk
  rcases List.mem_cons.mp hk with rfl | hk
  · exact List.mem_cons_self ..
  · rw [mapM_toCore_orderKey hrecords] at hk
    exact List.mem_cons_of_mem _ hk

theorem dispatchApplyTradeTransaction_calls (request : WireApplyTradeTransactionRequest) :
    AllCalls (BackendCall.Names (orderKeyList (some (.applyTradeTransaction request))))
      (dispatchApplyTradeTransaction plain maxPayloadBytes request).run := by
  refine allCalls_ensure_bind.mpr fun _ _ => allCalls_ensure_bind.mpr fun _ _ =>
    allCalls_ensure_bind.mpr fun _ _ => allCalls_ensure_bind.mpr fun _ _ =>
    allCalls_ensure_bind.mpr fun _ _ => allCalls_convert_bind.mpr fun trade htrade =>
    allCalls_ask_bind ?_ fun _ => allCalls_pure
  obtain ⟨hid, -, ⟨transition, htransition, hcore⟩, hwrites, -⟩ := request.toCore_ok htrade
  intro k hk
  show k ∈ _ :: (_ ++ _)
  rcases List.mem_cons.mp hk with rfl | hk
  · rw [hid]
    exact List.mem_cons_self ..
  refine List.mem_cons_of_mem _ (List.mem_append.mpr ?_)
  rcases List.mem_cons.mp hk with rfl | hk
  · left
    simp [htransition, (transition.toCore_ok hcore).1]
  · exact Or.inr (mem_orderKeys_of_writes hwrites hk)

theorem dispatchLoadTrade_calls (request : WireLoadTradeRequest) :
    AllCalls (BackendCall.Names (orderKeyList (some (.loadTrade request))))
      (dispatchLoadTrade plain request).run :=
  allCalls_ensure_bind.mpr fun _ _ => allCalls_ask_bind (fun _ hk => hk) fun _ => allCalls_pure

theorem dispatchLoadTradeTransaction_calls (request : WireLoadTradeTransactionRequest) :
    AllCalls (BackendCall.Names (orderKeyList (some (.loadTradeTransaction request))))
      (dispatchLoadTradeTransaction plain request).run :=
  allCalls_ensure_bind.mpr fun _ _ => allCalls_ensure_bind.mpr fun _ _ =>
    allCalls_ask_bind (fun _ hk => hk) fun _ => allCalls_pure

/-- **Order keys cover the backend calls.** -/
theorem dispatchBody_calls (body : Option RequestBody) :
    AllCalls (BackendCall.Names (orderKeyList body)) (dispatchBody plain maxPayloadBytes body).run
    := by
  rcases body with _ | request
  · exact allCalls_throw
  cases request with
  | loadSnapshot request => exact dispatchLoadSnapshot_calls request
  | saveSnapshot request => exact dispatchSaveSnapshot_calls request
  | enqueueSnapshot request => exact dispatchEnqueueSnapshot_calls request
  | applyTransaction request => exact dispatchApplyTransaction_calls request
  | loadTransaction request => exact dispatchLoadTransaction_calls request
  | applyMultiTransaction request => exact dispatchApplyMultiTransaction_calls request
  | loadMultiTransaction request => exact dispatchLoadMultiTransaction_calls request
  | loadMultiSnapshot request => exact dispatchLoadMultiSnapshot_calls request
  | saveMultiSnapshot request => exact dispatchSaveMultiSnapshot_calls request
  | enqueueMultiSnapshot request => exact dispatchEnqueueMultiSnapshot_calls request
  | applyTradeTransaction request => exact dispatchApplyTradeTransaction_calls request
  | loadTrade request => exact dispatchLoadTrade_calls request
  | loadTradeTransaction request => exact dispatchLoadTradeTransaction_calls request
  | commitRecords request => exact dispatchCommitRecords_calls request

end Calls

end DbProxy
