/-
Requests as they arrive from the network (`dbproxy.proto`, the conversions of
`dbproxy-protocol`).

The numbers of a request have the widths of the schema, an absent message field
is `none`, and an enumeration is the `i32` that was sent.  A conversion checks the
texts and the collection sizes and names the field it refuses.
-/
import DbProxy.CommitEffects

namespace DbProxy

open Text

/-! ### Messages -/

/-- `wire::RecordKey`. -/
structure WireRecordKey where
  ns : String
  key : String

/-- `wire::SaveSnapshotRequest`, with the widths of its numbers. -/
structure WireSaveSnapshotRequest where
  requestId : String
  record : Option WireRecordKey
  schema : String
  schemaVersion : UInt32
  payload : Bytes
  expectedRevision : Option UInt64
  updatedAtUnixMs : UInt64

structure WireLoadSnapshotRequest where
  record : Option WireRecordKey
  allowStale : Bool
  minRevision : Option UInt64

structure WireLoadMultiSnapshotRequest where
  records : List WireRecordKey
  allowStale : Bool
  minRevisions : List UInt64

structure WireSaveMultiSnapshotRequest where
  writes : List WireSaveSnapshotRequest

structure WireEnqueueSnapshotRequest where
  write : Option WireSaveSnapshotRequest

structure WireEnqueueMultiSnapshotRequest where
  writes : List WireSaveSnapshotRequest

structure WireApplyTransactionRequest where
  operationId : String
  record : Option WireRecordKey
  schema : String
  schemaVersion : UInt32
  expectedRevision : UInt64
  payload : Bytes
  result : Bytes
  updatedAtUnixMs : UInt64

structure WireLoadTransactionRequest where
  operationId : String
  record : Option WireRecordKey

structure WireTransactionalRecordWrite where
  record : Option WireRecordKey
  schema : String
  schemaVersion : UInt32
  expectedRevision : UInt64
  payload : Bytes
  updatedAtUnixMs : UInt64

structure WireApplyMultiTransactionRequest where
  operationId : String
  writes : List WireTransactionalRecordWrite
  result : Bytes

structure WireLoadMultiTransactionRequest where
  operationId : String
  records : List WireRecordKey

structure WireAppendRecord where
  record : Option WireRecordKey
  schema : String
  schemaVersion : UInt32
  payload : Bytes
  occurredAtUnixMs : UInt64

structure WireOutboxEvent where
  eventId : String
  topic : String
  partitionKey : String
  payload : Bytes
  occurredAtUnixMs : UInt64

structure WireCommitRecordsRequest where
  operationId : String
  writes : List WireTransactionalRecordWrite
  result : Bytes
  appends : List WireAppendRecord
  outboxEvents : List WireOutboxEvent

structure WireTradeTransition where
  tradeId : String
  expectedVersion : UInt64
  expectedState : Option Int32
  nextState : Int32
  payload : Bytes
  updatedAtUnixMs : UInt64

structure WireLedgerPosting where
  postingId : String
  accountId : String
  asset : String
  amount : Int64
  metadata : Bytes

structure WireApplyTradeTransactionRequest where
  operationId : String
  transition : Option WireTradeTransition
  writes : List WireTransactionalRecordWrite
  ledgerPostings : List WireLedgerPosting
  outboxEvents : List WireOutboxEvent
  result : Bytes

structure WireLoadTradeRequest where
  tradeId : String

structure WireLoadTradeTransactionRequest where
  operationId : String
  tradeId : String

/-- `wire::request_envelope::Body`. -/
inductive RequestBody
  | loadSnapshot (request : WireLoadSnapshotRequest)
  | saveSnapshot (request : WireSaveSnapshotRequest)
  | enqueueSnapshot (request : WireEnqueueSnapshotRequest)
  | applyTransaction (request : WireApplyTransactionRequest)
  | loadTransaction (request : WireLoadTransactionRequest)
  | applyMultiTransaction (request : WireApplyMultiTransactionRequest)
  | loadMultiTransaction (request : WireLoadMultiTransactionRequest)
  | loadMultiSnapshot (request : WireLoadMultiSnapshotRequest)
  | saveMultiSnapshot (request : WireSaveMultiSnapshotRequest)
  | enqueueMultiSnapshot (request : WireEnqueueMultiSnapshotRequest)
  | applyTradeTransaction (request : WireApplyTradeTransactionRequest)
  | loadTrade (request : WireLoadTradeRequest)
  | loadTradeTransaction (request : WireLoadTradeTransactionRequest)
  | commitRecords (request : WireCommitRecordsRequest)

/-! ### Limits -/

def maxNamespaceBytes : ℕ := 128
def maxRecordKeyBytes : ℕ := 512
def maxSchemaBytes : ℕ := 256
def maxIdempotencyKeyBytes : ℕ := 256
def maxTransactionRecords : ℕ := 256
def maxBatchLoadRecords : ℕ := 64
def maxBatchSnapshotWrites : ℕ := 64
def maxTradeIdBytes : ℕ := 256
def maxLedgerPostings : ℕ := 512
def maxLedgerFieldBytes : ℕ := 256
def maxOutboxEvents : ℕ := 64
def maxOutboxTopicBytes : ℕ := 128
def maxOutboxPartitionKeyBytes : ℕ := 512

/-! ### Conversions -/

/-- The variants of `ProtocolError` without the I/O and decode errors of the
libraries. -/
inductive ProtocolError
  | invalidFrameLength (length maximum : ℕ)
  | invalidField (field : String)
  | missingField (field : String)
  | core (e : StoreError)
deriving DecidableEq, Repr

def validateText (value field : String) (maximum : ℕ) : Except ProtocolError Unit :=
  if blank value || maximum < value.utf8ByteSize then .error (.invalidField field) else .ok ()

def WireRecordKey.toCore (value : WireRecordKey) : Except ProtocolError RecordKey := do
  validateText value.ns "record.namespace" maxNamespaceBytes
  validateText value.key "record.key" maxRecordKeyBytes
  (RecordKey.new value.ns value.key).mapError .core

/-- A message field that must be there, converted. -/
def requireField {α β : Type} (field : String) (convert : α → Except ProtocolError β) :
    Option α → Except ProtocolError β
  | none => .error (.missingField field)
  | some value => convert value

/-- `TryFrom<wire::SaveSnapshotRequest> for SnapshotWrite`. -/
def WireSaveSnapshotRequest.toSnapshotWrite (value : WireSaveSnapshotRequest) :
    Except ProtocolError SnapshotWrite := do
  validateText value.requestId "save_snapshot.request_id" maxIdempotencyKeyBytes
  validateText value.schema "save_snapshot.schema" maxSchemaBytes
  match value.record with
  | none => .error (.missingField "save_snapshot.record")
  | some record => do
    let record ← record.toCore
    return ⟨value.requestId, record, value.schema, value.schemaVersion.toNat, value.payload,
      value.expectedRevision.map (·.toNat), value.updatedAtUnixMs.toNat⟩

/-- `TryFrom<wire::ApplyTransactionRequest> for TransactionalWrite`. -/
def WireApplyTransactionRequest.toTransactionalWrite (value : WireApplyTransactionRequest) :
    Except ProtocolError TransactionalWrite := do
  validateText value.operationId "apply_transaction.operation_id" maxIdempotencyKeyBytes
  validateText value.schema "apply_transaction.schema" maxSchemaBytes
  let record ← requireField "apply_transaction.record" WireRecordKey.toCore value.record
  return ⟨value.operationId, record, value.schema, value.schemaVersion.toNat,
    value.expectedRevision.toNat, value.payload, value.result, value.updatedAtUnixMs.toNat⟩

/-- `TryFrom<wire::TransactionalRecordWrite>`. -/
def WireTransactionalRecordWrite.toCore (value : WireTransactionalRecordWrite) :
    Except ProtocolError TransactionalRecordWrite := do
  validateText value.schema "transactional_record.schema" maxSchemaBytes
  let record ← requireField "transactional_record.record" WireRecordKey.toCore value.record
  return ⟨record, value.schema, value.schemaVersion.toNat, value.expectedRevision.toNat,
    value.payload, value.updatedAtUnixMs.toNat⟩

/-- `TryFrom<wire::AppendRecord>`; the same check as `validateText`. -/
def WireAppendRecord.toCore (value : WireAppendRecord) : Except ProtocolError AppendRecord := do
  validateText value.schema "append.schema" maxSchemaBytes
  let record ← requireField "append.record" WireRecordKey.toCore value.record
  return ⟨record, value.schema, value.schemaVersion.toNat, value.payload,
    value.occurredAtUnixMs.toNat⟩

/-- A byte that may stand in a topic. -/
def isTopicChar (c : Char) : Bool :=
  isAsciiAlphanumeric c || c == '.' || c == '_' || c == '-'

/-- `TryFrom<wire::OutboxEvent>`. -/
def WireOutboxEvent.toCore (value : WireOutboxEvent) : Except ProtocolError OutboxEvent := do
  validateText value.eventId "outbox_event.event_id" maxIdempotencyKeyBytes
  validateText value.topic "outbox_event.topic" maxOutboxTopicBytes
  validateText value.partitionKey "outbox_event.partition_key" maxOutboxPartitionKeyBytes
  if !value.topic.toList.all isTopicChar then .error (.invalidField "outbox_event.topic")
  else
    return ⟨value.eventId, value.topic, value.partitionKey, value.payload,
      value.occurredAtUnixMs.toNat⟩

def coreTradeState (value : Int32) : Except ProtocolError TradeState :=
  if value = 1 then .ok .proposed
  else if value = 2 then .ok .escrowed
  else if value = 3 then .ok .settled
  else if value = 4 then .ok .cancelled
  else .error (.invalidField "trade.state")

/-- `TryFrom<wire::TradeTransition>`. -/
def WireTradeTransition.toCore (value : WireTradeTransition) :
    Except ProtocolError TradeTransition := do
  validateText value.tradeId "trade_transition.trade_id" maxTradeIdBytes
  let expectedState ← value.expectedState.mapM coreTradeState
  let nextState ← coreTradeState value.nextState
  return ⟨value.tradeId, value.expectedVersion.toNat, expectedState, nextState, value.payload,
    value.updatedAtUnixMs.toNat⟩

/-- `TryFrom<wire::LedgerPosting>`. -/
def WireLedgerPosting.toCore (value : WireLedgerPosting) :
    Except ProtocolError LedgerPosting := do
  validateText value.postingId "ledger_posting.posting_id" maxLedgerFieldBytes
  validateText value.accountId "ledger_posting.account_id" maxLedgerFieldBytes
  validateText value.asset "ledger_posting.asset" maxLedgerFieldBytes
  return ⟨value.postingId, value.accountId, value.asset, value.amount.toInt, value.metadata⟩

/-- A collection that must not be longer than `maximum`. -/
def boundedField {α : Type} (field : String) (maximum : ℕ) (l : List α) :
    Except ProtocolError Unit :=
  if maximum < l.length then .error (.invalidField field) else .ok ()

/-- A field that is refused when `bad` holds. -/
def refuseField (bad : Prop) [Decidable bad] (field : String) : Except ProtocolError Unit :=
  if bad then .error (.invalidField field) else .ok ()

/-- `TryFrom<wire::ApplyTradeTransactionRequest> for TradeTransaction`. -/
def WireApplyTradeTransactionRequest.toCore (value : WireApplyTradeTransactionRequest) :
    Except ProtocolError TradeTransaction := do
  validateText value.operationId "apply_trade_transaction.operation_id" maxIdempotencyKeyBytes
  boundedField "apply_trade_transaction.writes" maxTransactionRecords value.writes
  boundedField "apply_trade_transaction.ledger_postings" maxLedgerPostings value.ledgerPostings
  boundedField "apply_trade_transaction.outbox_events" maxOutboxEvents value.outboxEvents
  let transition ←
    requireField "apply_trade_transaction.transition" WireTradeTransition.toCore value.transition
  let writes ← value.writes.mapM WireTransactionalRecordWrite.toCore
  let ledgerPostings ← value.ledgerPostings.mapM WireLedgerPosting.toCore
  let outboxEvents ← value.outboxEvents.mapM WireOutboxEvent.toCore
  return ⟨value.operationId, transition, writes, ledgerPostings, outboxEvents, value.result⟩

/-! ### What a conversion accepts -/

theorem validateText_eq_ok {value field : String} {maximum : ℕ} :
    validateText value field maximum = .ok () ↔
      blank value = false ∧ value.utf8ByteSize ≤ maximum := by
  rw [validateText]
  split
  · rename_i h
    simp only [Bool.or_eq_true, decide_eq_true_eq] at h
    constructor
    · intro hfalse
      cases hfalse
    · rintro ⟨hblank, hsize⟩
      rcases h with h | h
      · rw [hblank] at h
        cases h
      · omega
  · rename_i h
    simp only [Bool.or_eq_true, decide_eq_true_eq, not_or, Bool.not_eq_true, not_lt] at h
    simpa using h

theorem requireField_eq_ok {α β : Type} {field : String} {convert : α → Except ProtocolError β}
    {value : Option α} {b : β} :
    requireField field convert value = .ok b ↔ ∃ a, value = some a ∧ convert a = .ok b := by
  cases value with
  | none => simp [requireField]
  | some a => simp [requireField]

theorem boundedField_eq_ok {α : Type} {field : String} {maximum : ℕ} {l : List α} :
    boundedField field maximum l = .ok () ↔ l.length ≤ maximum := by
  rw [boundedField]
  split
  · simp
    omega
  · simp
    omega

theorem refuseField_eq_ok {bad : Prop} [Decidable bad] {field : String} :
    refuseField bad field = .ok () ↔ ¬ bad := by
  by_cases h : bad <;> simp [refuseField, h]

/-- A record address that the protocol accepts. -/
structure RecordKey.Bounded (record : RecordKey) : Prop where
  ns : record.ns.utf8ByteSize ≤ maxNamespaceBytes
  key : record.key.utf8ByteSize ≤ maxRecordKeyBytes

theorem WireRecordKey.toCore_ok {value : WireRecordKey} {record : RecordKey}
    (h : value.toCore = .ok record) : record = ⟨value.ns, value.key⟩ ∧ record.Bounded := by
  obtain ⟨_, hns, h⟩ := Checks.bind_eq_ok.mp h
  obtain ⟨_, hkey, h⟩ := Checks.bind_eq_ok.mp h
  have hnew : RecordKey.new value.ns value.key = .ok record := Checks.mapError_eq_ok.mp h
  rw [RecordKey.new, if_neg, if_neg] at hnew
  · obtain rfl := Except.ok.inj hnew
    exact ⟨rfl, (validateText_eq_ok.mp hns).2, (validateText_eq_ok.mp hkey).2⟩
  · simp [(validateText_eq_ok.mp hkey).1]
  · simp [(validateText_eq_ok.mp hns).1]

theorem WireSaveSnapshotRequest.toSnapshotWrite_ok {value : WireSaveSnapshotRequest}
    {write : SnapshotWrite} (h : value.toSnapshotWrite = .ok write) :
    (∃ record, value.record = some record ∧ record.toCore = .ok write.record) ∧
      write.requestId = value.requestId ∧ write.payload = value.payload ∧
      write.schemaVersion = value.schemaVersion.toNat ∧
      write.updatedAtUnixMs = value.updatedAtUnixMs.toNat ∧
      write.requestId.utf8ByteSize ≤ maxIdempotencyKeyBytes ∧
      write.schema.utf8ByteSize ≤ maxSchemaBytes := by
  obtain ⟨_, hid, h⟩ := Checks.bind_eq_ok.mp h
  obtain ⟨_, hschema, h⟩ := Checks.bind_eq_ok.mp h
  cases hrecord : value.record with
  | none =>
    rw [hrecord] at h
    cases h
  | some record =>
    rw [hrecord] at h
    obtain ⟨converted, hconverted, h⟩ := Checks.bind_eq_ok.mp h
    obtain rfl := Except.ok.inj h
    exact ⟨⟨record, rfl, hconverted⟩, rfl, rfl, rfl, rfl, (validateText_eq_ok.mp hid).2,
      (validateText_eq_ok.mp hschema).2⟩

theorem WireApplyTransactionRequest.toTransactionalWrite_ok
    {value : WireApplyTransactionRequest} {write : TransactionalWrite}
    (h : value.toTransactionalWrite = .ok write) :
    (∃ record, value.record = some record ∧ record.toCore = .ok write.record) ∧
      write.operationId = value.operationId ∧ write.payload = value.payload ∧
      write.result = value.result ∧ write.schemaVersion = value.schemaVersion.toNat ∧
      write.updatedAtUnixMs = value.updatedAtUnixMs.toNat ∧
      write.operationId.utf8ByteSize ≤ maxIdempotencyKeyBytes ∧
      write.schema.utf8ByteSize ≤ maxSchemaBytes := by
  obtain ⟨_, hid, h⟩ := Checks.bind_eq_ok.mp h
  obtain ⟨_, hschema, h⟩ := Checks.bind_eq_ok.mp h
  obtain ⟨record, hrecord, h⟩ := Checks.bind_eq_ok.mp h
  obtain rfl := Except.ok.inj h
  exact ⟨requireField_eq_ok.mp hrecord, rfl, rfl, rfl, rfl, rfl, (validateText_eq_ok.mp hid).2,
    (validateText_eq_ok.mp hschema).2⟩

theorem WireTransactionalRecordWrite.toCore_ok {value : WireTransactionalRecordWrite}
    {write : TransactionalRecordWrite} (h : value.toCore = .ok write) :
    (∃ record, value.record = some record ∧ record.toCore = .ok write.record) ∧
      write.payload = value.payload ∧ write.schemaVersion = value.schemaVersion.toNat ∧
      write.updatedAtUnixMs = value.updatedAtUnixMs.toNat ∧
      write.schema.utf8ByteSize ≤ maxSchemaBytes := by
  obtain ⟨_, hschema, h⟩ := Checks.bind_eq_ok.mp h
  obtain ⟨record, hrecord, h⟩ := Checks.bind_eq_ok.mp h
  obtain rfl := Except.ok.inj h
  exact ⟨requireField_eq_ok.mp hrecord, rfl, rfl, rfl, (validateText_eq_ok.mp hschema).2⟩

theorem WireTradeTransition.toCore_ok {value : WireTradeTransition}
    {transition : TradeTransition} (h : value.toCore = .ok transition) :
    transition.tradeId = value.tradeId ∧ transition.payload = value.payload ∧
      transition.updatedAtUnixMs = value.updatedAtUnixMs.toNat ∧
      transition.tradeId.utf8ByteSize ≤ maxTradeIdBytes := by
  obtain ⟨_, hid, h⟩ := Checks.bind_eq_ok.mp h
  obtain ⟨_, -, h⟩ := Checks.bind_eq_ok.mp h
  obtain ⟨_, -, h⟩ := Checks.bind_eq_ok.mp h
  obtain rfl := Except.ok.inj h
  exact ⟨rfl, rfl, rfl, (validateText_eq_ok.mp hid).2⟩

/-- The converted parts of a trade request. -/
theorem WireApplyTradeTransactionRequest.toCore_ok {value : WireApplyTradeTransactionRequest}
    {trade : TradeTransaction} (h : value.toCore = .ok trade) :
    trade.operationId = value.operationId ∧
      trade.operationId.utf8ByteSize ≤ maxIdempotencyKeyBytes ∧
      (∃ transition, value.transition = some transition ∧
        transition.toCore = .ok trade.transition) ∧
      value.writes.mapM WireTransactionalRecordWrite.toCore = .ok trade.writes ∧
      value.ledgerPostings.mapM WireLedgerPosting.toCore = .ok trade.ledgerPostings ∧
      value.outboxEvents.mapM WireOutboxEvent.toCore = .ok trade.outboxEvents ∧
      trade.result = value.result ∧ value.writes.length ≤ maxTransactionRecords ∧
      value.ledgerPostings.length ≤ maxLedgerPostings ∧
      value.outboxEvents.length ≤ maxOutboxEvents := by
  obtain ⟨_, hid, h⟩ := Checks.bind_eq_ok.mp h
  obtain ⟨_, hwrites, h⟩ := Checks.bind_eq_ok.mp h
  obtain ⟨_, hpostings, h⟩ := Checks.bind_eq_ok.mp h
  obtain ⟨_, hevents, h⟩ := Checks.bind_eq_ok.mp h
  obtain ⟨transition, htransition, h⟩ := Checks.bind_eq_ok.mp h
  obtain ⟨writes, hw, h⟩ := Checks.bind_eq_ok.mp h
  obtain ⟨postings, hp, h⟩ := Checks.bind_eq_ok.mp h
  obtain ⟨events, he, h⟩ := Checks.bind_eq_ok.mp h
  obtain rfl := Except.ok.inj h
  exact ⟨rfl, (validateText_eq_ok.mp hid).2, requireField_eq_ok.mp htransition, hw, hp, he, rfl,
    boundedField_eq_ok.mp hwrites, boundedField_eq_ok.mp hpostings, boundedField_eq_ok.mp hevents⟩

end DbProxy
