/-
The conversions between core values and messages (`dbproxy-protocol`).

Every conversion to a message is total and every conversion back checks texts,
counts and codes.  `RoundTrips` says both: an encoded value is read back when it
is valid and refused otherwise, and a message that is read is the encoding of
what was read.  Numbers of the core have the widths of the schema, which is
`InRange`.

* `RoundTrips.mapM_decode`, `RoundTrips.requireField_decode` — lists and parts;
* `tradeReceipt_roundTrips` — the receipt of a trade;
* `wireConversions_roundTrip` — the eleven conversions.
-/
import DbProxy.SdkTradeAgreement

namespace DbProxy

open Text

/-! ### Two directions -/

/-- `decode` inverts `encode` on the valid values, refuses the others, and accepts nothing but
encodings. -/
structure RoundTrips {α ω : Type} (encode : α → ω) (decode : ω → Except ProtocolError α)
    (InRange Valid : α → Prop) : Prop where
  decode_encode : ∀ value, InRange value →
    Checks.Returns (decode (encode value)) (Valid value) value
  encode_decode : ∀ wire value, decode wire = .ok value → encode value = wire ∧ InRange value

namespace RoundTrips

variable {α ω : Type} {encode : α → ω} {decode : ω → Except ProtocolError α}
  {InRange Valid : α → Prop}

/-- Which messages are read, and as what. -/
theorem decode_iff (h : RoundTrips encode decode InRange Valid) {wire : ω} {value : α} :
    decode wire = .ok value ↔ encode value = wire ∧ InRange value ∧ Valid value := by
  constructor
  · intro hdecode
    obtain ⟨rfl, hrange⟩ := h.encode_decode wire value hdecode
    exact ⟨rfl, hrange, ((h.decode_encode value hrange value).mp hdecode).1⟩
  · rintro ⟨rfl, hrange, hvalid⟩
    exact (h.decode_encode value hrange value).mpr ⟨hvalid, rfl⟩

theorem mapM_decode (h : RoundTrips encode decode InRange Valid) {wires : List ω}
    {values : List α} (hdecode : wires.mapM decode = .ok values) :
    values.map encode = wires ∧ ∀ value ∈ values, InRange value := by
  have hpairs := Checks.mapM_eq_ok.mp hdecode
  induction hpairs with
  | nil => simp
  | cons hhead htail ih =>
    obtain ⟨rfl, hrange⟩ := h.encode_decode _ _ hhead
    obtain ⟨rfl, hranges⟩ := ih (Checks.mapM_eq_ok.mpr htail)
    exact ⟨rfl, List.forall_mem_cons.mpr ⟨hrange, hranges⟩⟩

theorem requireField_decode (h : RoundTrips encode decode InRange Valid) {field : String}
    {wire : Option ω} {value : α} (hdecode : requireField field decode wire = .ok value) :
    wire = some (encode value) ∧ InRange value := by
  obtain ⟨w, rfl, hw⟩ := requireField_eq_ok.mp hdecode
  obtain ⟨rfl, hrange⟩ := h.encode_decode w value hw
  exact ⟨rfl, hrange⟩

end RoundTrips

/-! ### Records -/

/-- The texts of a record address, with their limits in bytes. -/
def RecordKey.texts (value : RecordKey) : List (String × ℕ) :=
  [(value.ns, maxNamespaceBytes), (value.key, maxRecordKeyBytes)]

theorem RecordKey.forall_mem_texts (value : RecordKey) {P : String × ℕ → Prop} :
    (∀ text ∈ value.texts, P text) ↔
      P (value.ns, maxNamespaceBytes) ∧ P (value.key, maxRecordKeyBytes) := by
  simp [texts]

theorem recordKey_roundTrips : RoundTrips RecordKey.toWire WireRecordKey.toCore (fun _ => True)
    fun value => ∀ text ∈ value.texts, Fits blank text where
  decode_encode value _ :=
    (WireRecordKey.toCore_returns value).congr value.forall_mem_texts.symm
  encode_decode wire value h := by
    obtain ⟨rfl, -⟩ := WireRecordKey.toCore_ok h
    exact ⟨rfl, trivial⟩

/-! ### Writes -/

def SnapshotWrite.toWire (value : SnapshotWrite) : WireSaveSnapshotRequest :=
  ⟨value.requestId, some value.record.toWire, value.schema, UInt32.ofNat value.schemaVersion,
    value.payload, value.expectedRevision.map UInt64.ofNat, UInt64.ofNat value.updatedAtUnixMs⟩

structure SnapshotWrite.InRange (value : SnapshotWrite) : Prop where
  schemaVersion : value.schemaVersion < 2 ^ 32
  expectedRevision : ∀ revision ∈ value.expectedRevision, revision < 2 ^ 64
  updatedAtUnixMs : value.updatedAtUnixMs < 2 ^ 64

def SnapshotWrite.texts (value : SnapshotWrite) : List (String × ℕ) :=
  [(value.requestId, maxIdempotencyKeyBytes), (value.schema, maxSchemaBytes)] ++
    value.record.texts

theorem SnapshotWrite.forall_mem_texts (value : SnapshotWrite) {P : String × ℕ → Prop} :
    (∀ text ∈ value.texts, P text) ↔ P (value.requestId, maxIdempotencyKeyBytes) ∧
      P (value.schema, maxSchemaBytes) ∧
      P (value.record.ns, maxNamespaceBytes) ∧ P (value.record.key, maxRecordKeyBytes) := by
  simp [texts, RecordKey.texts]

theorem snapshotWrite_roundTrips : RoundTrips SnapshotWrite.toWire
    WireSaveSnapshotRequest.toSnapshotWrite SnapshotWrite.InRange
    fun value => ∀ text ∈ value.texts, Fits blank text where
  decode_encode value h := by
    have hrevision : (value.expectedRevision.map UInt64.ofNat).map (·.toNat) =
        value.expectedRevision := by
      cases hr : value.expectedRevision with
      | none => rfl
      | some revision =>
        have hlt : revision < 2 ^ 64 := h.expectedRevision revision (by rw [hr]; rfl)
        rw [Option.map_some, Option.map_some, UInt64.toNat_ofNat_of_lt' hlt]
    simp only [value.forall_mem_texts]
    refine (validateText_returns value.requestId _ _).bind ?_
    refine (validateText_returns value.schema _ _).bind ?_
    refine (WireRecordKey.toCore_returns value.record).map.cast ?_
    simp only [SnapshotWrite.toWire, hrevision, UInt32.toNat_ofNat_of_lt' h.schemaVersion,
      UInt64.toNat_ofNat_of_lt' h.updatedAtUnixMs]
  encode_decode wire value h := by
    obtain ⟨_, -, h⟩ := Checks.bind_eq_ok.mp h
    obtain ⟨_, -, h⟩ := Checks.bind_eq_ok.mp h
    obtain ⟨requestId, record, schema, schemaVersion, payload, expectedRevision, time⟩ := wire
    cases record with
    | none => cases h
    | some record =>
      obtain ⟨core, hcore, h⟩ := Checks.bind_eq_ok.mp h
      obtain ⟨rfl, -⟩ := recordKey_roundTrips.encode_decode _ _ hcore
      obtain rfl := Except.ok.inj h
      refine ⟨?_, schemaVersion.toNat_lt, ?_, time.toNat_lt⟩
      · cases expectedRevision <;> simp [SnapshotWrite.toWire]
      · intro revision hrevision
        obtain ⟨sent, -, rfl⟩ := Option.map_eq_some_iff.mp hrevision
        exact sent.toNat_lt

def TransactionalWrite.toWire (value : TransactionalWrite) : WireApplyTransactionRequest :=
  ⟨value.operationId, some value.record.toWire, value.schema, UInt32.ofNat value.schemaVersion,
    UInt64.ofNat value.expectedRevision, value.payload, value.result,
    UInt64.ofNat value.updatedAtUnixMs⟩

structure TransactionalWrite.InRange (value : TransactionalWrite) : Prop where
  schemaVersion : value.schemaVersion < 2 ^ 32
  expectedRevision : value.expectedRevision < 2 ^ 64
  updatedAtUnixMs : value.updatedAtUnixMs < 2 ^ 64

def TransactionalWrite.texts (value : TransactionalWrite) : List (String × ℕ) :=
  [(value.operationId, maxIdempotencyKeyBytes), (value.schema, maxSchemaBytes)] ++
    value.record.texts

theorem TransactionalWrite.forall_mem_texts (value : TransactionalWrite)
    {P : String × ℕ → Prop} :
    (∀ text ∈ value.texts, P text) ↔ P (value.operationId, maxIdempotencyKeyBytes) ∧
      P (value.schema, maxSchemaBytes) ∧
      P (value.record.ns, maxNamespaceBytes) ∧ P (value.record.key, maxRecordKeyBytes) := by
  simp [texts, RecordKey.texts]

theorem transactionalWrite_roundTrips : RoundTrips TransactionalWrite.toWire
    WireApplyTransactionRequest.toTransactionalWrite TransactionalWrite.InRange
    fun value => ∀ text ∈ value.texts, Fits blank text where
  decode_encode value h := by
    simp only [value.forall_mem_texts]
    refine (validateText_returns value.operationId _ _).bind ?_
    refine (validateText_returns value.schema _ _).bind ?_
    refine (WireRecordKey.toCore_returns value.record).map.cast ?_
    simp only [TransactionalWrite.toWire, UInt32.toNat_ofNat_of_lt' h.schemaVersion,
      UInt64.toNat_ofNat_of_lt' h.expectedRevision, UInt64.toNat_ofNat_of_lt' h.updatedAtUnixMs]
  encode_decode wire value h := by
    obtain ⟨_, -, h⟩ := Checks.bind_eq_ok.mp h
    obtain ⟨_, -, h⟩ := Checks.bind_eq_ok.mp h
    obtain ⟨core, hcore, h⟩ := Checks.bind_eq_ok.mp h
    obtain ⟨hrecord, -⟩ := recordKey_roundTrips.requireField_decode hcore
    obtain rfl := Except.ok.inj h
    refine ⟨?_, UInt32.toNat_lt _, UInt64.toNat_lt _, UInt64.toNat_lt _⟩
    simp [TransactionalWrite.toWire, ← hrecord]

theorem transactionalRecordWrite_roundTrips : RoundTrips TransactionalRecordWrite.toWire
    WireTransactionalRecordWrite.toCore TransactionalRecordWrite.InRange
    fun value => ∀ text ∈ value.texts, Fits blank text where
  decode_encode value h := WireTransactionalRecordWrite.toCore_returns h
  encode_decode wire value h := by
    obtain ⟨_, -, h⟩ := Checks.bind_eq_ok.mp h
    obtain ⟨core, hcore, h⟩ := Checks.bind_eq_ok.mp h
    obtain ⟨hrecord, -⟩ := recordKey_roundTrips.requireField_decode hcore
    obtain rfl := Except.ok.inj h
    refine ⟨?_, UInt32.toNat_lt _, UInt64.toNat_lt _, UInt64.toNat_lt _⟩
    simp [TransactionalRecordWrite.toWire, ← hrecord]

def AppendRecord.toWire (value : AppendRecord) : WireAppendRecord :=
  ⟨some value.record.toWire, value.schema, UInt32.ofNat value.schemaVersion, value.payload,
    UInt64.ofNat value.occurredAtUnixMs⟩

structure AppendRecord.InRange (value : AppendRecord) : Prop where
  schemaVersion : value.schemaVersion < 2 ^ 32
  occurredAtUnixMs : value.occurredAtUnixMs < 2 ^ 64

def AppendRecord.texts (value : AppendRecord) : List (String × ℕ) :=
  (value.schema, maxSchemaBytes) :: value.record.texts

theorem AppendRecord.forall_mem_texts (value : AppendRecord) {P : String × ℕ → Prop} :
    (∀ text ∈ value.texts, P text) ↔ P (value.schema, maxSchemaBytes) ∧
      P (value.record.ns, maxNamespaceBytes) ∧ P (value.record.key, maxRecordKeyBytes) := by
  simp [texts, RecordKey.texts]

theorem appendRecord_roundTrips : RoundTrips AppendRecord.toWire WireAppendRecord.toCore
    AppendRecord.InRange fun value => ∀ text ∈ value.texts, Fits blank text where
  decode_encode value h := by
    simp only [value.forall_mem_texts]
    refine (validateText_returns value.schema _ _).bind ?_
    refine (WireRecordKey.toCore_returns value.record).map.cast ?_
    simp only [AppendRecord.toWire, UInt32.toNat_ofNat_of_lt' h.schemaVersion,
      UInt64.toNat_ofNat_of_lt' h.occurredAtUnixMs]
  encode_decode wire value h := by
    obtain ⟨_, -, h⟩ := Checks.bind_eq_ok.mp h
    obtain ⟨core, hcore, h⟩ := Checks.bind_eq_ok.mp h
    obtain ⟨hrecord, -⟩ := recordKey_roundTrips.requireField_decode hcore
    obtain rfl := Except.ok.inj h
    refine ⟨?_, UInt32.toNat_lt _, UInt64.toNat_lt _⟩
    simp [AppendRecord.toWire, ← hrecord]

/-! ### Trades -/

theorem outboxEvent_roundTrips : RoundTrips OutboxEvent.toWire WireOutboxEvent.toCore
    (fun value => value.occurredAtUnixMs < 2 ^ 64)
    fun value => (∀ text ∈ value.texts, Fits blank text) ∧
      value.topic.toList.all isTopicChar = true where
  decode_encode value h := WireOutboxEvent.toCore_returns h
  encode_decode wire value h := by
    obtain ⟨_, -, h⟩ := Checks.bind_eq_ok.mp h
    obtain ⟨_, -, h⟩ := Checks.bind_eq_ok.mp h
    obtain ⟨_, -, h⟩ := Checks.bind_eq_ok.mp h
    split at h
    · cases h
    · obtain rfl := Except.ok.inj h
      exact ⟨by simp [OutboxEvent.toWire], UInt64.toNat_lt _⟩

def LedgerPosting.InRange (value : LedgerPosting) : Prop :=
  -2 ^ 63 ≤ value.amount ∧ value.amount < 2 ^ 63

theorem ledgerPosting_roundTrips : RoundTrips LedgerPosting.toWire WireLedgerPosting.toCore
    LedgerPosting.InRange fun value => ∀ text ∈ value.texts, Fits blank text where
  decode_encode value h := WireLedgerPosting.toCore_returns h
  encode_decode wire value h := by
    obtain ⟨_, -, h⟩ := Checks.bind_eq_ok.mp h
    obtain ⟨_, -, h⟩ := Checks.bind_eq_ok.mp h
    obtain ⟨_, -, h⟩ := Checks.bind_eq_ok.mp h
    obtain rfl := Except.ok.inj h
    refine ⟨?_, Int64.le_toInt _, Int64.toInt_lt _⟩
    simp [LedgerPosting.toWire]

theorem tradeState_roundTrips : RoundTrips TradeState.toWire coreTradeState (fun _ => True)
    fun _ => True where
  decode_encode value _ := coreTradeState_returns value
  encode_decode wire value h := by
    refine ⟨?_, trivial⟩
    simp only [coreTradeState] at h
    split_ifs at h with h1 h2 h3 h4
    · exact Except.ok.inj h ▸ h1.symm
    · exact Except.ok.inj h ▸ h2.symm
    · exact Except.ok.inj h ▸ h3.symm
    · exact Except.ok.inj h ▸ h4.symm

structure TradeTransition.InRange (value : TradeTransition) : Prop where
  expectedVersion : value.expectedVersion < 2 ^ 64
  updatedAtUnixMs : value.updatedAtUnixMs < 2 ^ 64

theorem tradeTransition_roundTrips : RoundTrips TradeTransition.toWire WireTradeTransition.toCore
    TradeTransition.InRange fun value => Fits blank (value.tradeId, maxTradeIdBytes) where
  decode_encode value h :=
    WireTradeTransition.toCore_returns h.expectedVersion h.updatedAtUnixMs
  encode_decode wire value h := by
    obtain ⟨_, -, h⟩ := Checks.bind_eq_ok.mp h
    obtain ⟨expected, hexpected, h⟩ := Checks.bind_eq_ok.mp h
    obtain ⟨next, hnext, h⟩ := Checks.bind_eq_ok.mp h
    obtain ⟨hnext, -⟩ := tradeState_roundTrips.encode_decode _ _ hnext
    have hexpected : expected.map (·.toWire) = wire.expectedState := by
      cases hstate : wire.expectedState with
      | none =>
        rw [hstate] at hexpected
        obtain rfl := Except.ok.inj hexpected
        rfl
      | some code =>
        rw [hstate] at hexpected
        obtain ⟨state, hcode, hexpected⟩ := Checks.bind_eq_ok.mp hexpected
        obtain rfl := Except.ok.inj hexpected
        rw [Option.map_some, (tradeState_roundTrips.encode_decode _ _ hcode).1]
    obtain rfl := Except.ok.inj h
    refine ⟨?_, UInt64.toNat_lt _, UInt64.toNat_lt _⟩
    simp [TradeTransition.toWire, hexpected, hnext]

/-- The counts and topics of a trade request. -/
structure TradeTransaction.WireValid (value : TradeTransaction) : Prop where
  texts : ∀ text ∈ value.texts, Fits blank text
  writes : value.writes.length ≤ maxTransactionRecords
  postings : value.ledgerPostings.length ≤ maxLedgerPostings
  events : value.outboxEvents.length ≤ maxOutboxEvents
  topics : ∀ event ∈ value.outboxEvents, event.topic.toList.all isTopicChar = true

theorem tradeTransaction_roundTrips : RoundTrips TradeTransaction.toWire
    WireApplyTradeTransactionRequest.toCore TradeTransaction.InRange
    TradeTransaction.WireValid where
  decode_encode value h := by
    refine (WireApplyTradeTransactionRequest.toCore_returns h).congr ⟨?_, fun hvalid => ?_⟩
    · rintro ⟨hid, hwrites, hpostings, hevents, htrade, hw, hp, he⟩
      exact ⟨TradeTransaction.forall_mem_texts.mpr
        ⟨hid, htrade, hw, hp, fun event hmem => (he event hmem).1⟩, hwrites, hpostings, hevents,
        fun event hmem => (he event hmem).2⟩
    · obtain ⟨hid, htrade, hw, hp, he⟩ := TradeTransaction.forall_mem_texts.mp hvalid.texts
      exact ⟨hid, hvalid.writes, hvalid.postings, hvalid.events, htrade, hw, hp,
        fun event hmem => ⟨he event hmem, hvalid.topics event hmem⟩⟩
  encode_decode wire value h := by
    obtain ⟨_, -, h⟩ := Checks.bind_eq_ok.mp h
    obtain ⟨_, -, h⟩ := Checks.bind_eq_ok.mp h
    obtain ⟨_, -, h⟩ := Checks.bind_eq_ok.mp h
    obtain ⟨_, -, h⟩ := Checks.bind_eq_ok.mp h
    obtain ⟨transition, htransition, h⟩ := Checks.bind_eq_ok.mp h
    obtain ⟨writes, hwrites, h⟩ := Checks.bind_eq_ok.mp h
    obtain ⟨postings, hpostings, h⟩ := Checks.bind_eq_ok.mp h
    obtain ⟨events, hevents, h⟩ := Checks.bind_eq_ok.mp h
    obtain rfl := Except.ok.inj h
    obtain ⟨htransition, hrange⟩ := tradeTransition_roundTrips.requireField_decode htransition
    obtain ⟨hwrites, hwritesRange⟩ := transactionalRecordWrite_roundTrips.mapM_decode hwrites
    obtain ⟨hpostings, hamounts⟩ := ledgerPosting_roundTrips.mapM_decode hpostings
    obtain ⟨hevents, htimes⟩ := outboxEvent_roundTrips.mapM_decode hevents
    refine ⟨?_, hrange.expectedVersion, hrange.updatedAtUnixMs, hwritesRange, hamounts, htimes⟩
    simp [TradeTransaction.toWire, hwrites, hpostings, hevents, ← htransition]

/-! ### Answers

`WireSnapshotEnvelope`, `WireTradeEnvelope` and `WireTradeReceipt` are what the server puts
into an answer; here they have the widths and codes of the schema. -/

/-- `wire::SnapshotEnvelope`. -/
structure SnapshotEnvelopeMessage where
  record : Option WireRecordKey
  schema : String
  schemaVersion : UInt32
  revision : UInt64
  payload : Bytes
  updatedAtUnixMs : UInt64

/-- `wire::TradeEnvelope`. -/
structure TradeEnvelopeMessage where
  tradeId : String
  version : UInt64
  state : Int32
  payload : Bytes
  updatedAtUnixMs : UInt64

/-- `wire::MultiTransactionRecordReceipt`. -/
structure RecordReceiptMessage where
  record : Option WireRecordKey
  newRevision : UInt64

/-- `wire::TradeReceipt`. -/
structure TradeReceiptMessage where
  operationId : String
  tradeId : String
  newTradeVersion : UInt64
  state : Int32
  records : List RecordReceiptMessage
  ledgerPostingIds : List String
  outboxEventIds : List String
  result : Bytes

def WireSnapshotEnvelope.toMessage (value : WireSnapshotEnvelope) : SnapshotEnvelopeMessage :=
  ⟨value.record, value.schema, UInt32.ofNat value.schemaVersion, UInt64.ofNat value.revision,
    value.payload, UInt64.ofNat value.updatedAtUnixMs⟩

def WireTradeEnvelope.toMessage (value : WireTradeEnvelope) : TradeEnvelopeMessage :=
  ⟨value.tradeId, UInt64.ofNat value.version, value.state.toWire, value.payload,
    UInt64.ofNat value.updatedAtUnixMs⟩

def MultiTransactionRecordReceipt.toMessage (value : MultiTransactionRecordReceipt) :
    RecordReceiptMessage :=
  ⟨value.record, UInt64.ofNat value.newRevision⟩

def WireTradeReceipt.toMessage (value : WireTradeReceipt) : TradeReceiptMessage :=
  ⟨value.operationId, value.tradeId, UInt64.ofNat value.newTradeVersion, value.state.toWire,
    value.records.map (·.toMessage), value.ledgerPostingIds, value.outboxEventIds, value.result⟩

/-- `From<&SnapshotEnvelope> for wire::SnapshotEnvelope`. -/
def SnapshotEnvelope.toMessage (value : SnapshotEnvelope) : SnapshotEnvelopeMessage :=
  value.toWire.toMessage

/-- `From<&TradeEnvelope> for wire::TradeEnvelope`. -/
def TradeEnvelope.toMessage (value : TradeEnvelope) : TradeEnvelopeMessage :=
  value.toWire.toMessage

/-- `From<&TradeReceipt> for wire::TradeReceipt`. -/
def TradeReceipt.toMessage (value : TradeReceipt) : TradeReceiptMessage :=
  value.toWire.toMessage

/-- `TryFrom<wire::SnapshotEnvelope>`. -/
def SnapshotEnvelopeMessage.toCore (value : SnapshotEnvelopeMessage) :
    Except ProtocolError SnapshotEnvelope := do
  validateText value.schema "snapshot.schema" maxSchemaBytes
  let record ← requireField "snapshot.record" WireRecordKey.toCore value.record
  return ⟨record, value.schema, value.schemaVersion.toNat, value.revision.toNat, value.payload,
    value.updatedAtUnixMs.toNat⟩

/-- `TryFrom<wire::TradeEnvelope>`. -/
def TradeEnvelopeMessage.toCore (value : TradeEnvelopeMessage) :
    Except ProtocolError TradeEnvelope := do
  validateText value.tradeId "trade.trade_id" maxTradeIdBytes
  let state ← coreTradeState value.state
  return ⟨value.tradeId, value.version.toNat, state, value.payload, value.updatedAtUnixMs.toNat⟩

/-- One record of a receipt. -/
def RecordReceiptMessage.toCore (value : RecordReceiptMessage) :
    Except ProtocolError TransactionRecordReceipt := do
  refuseField (value.newRevision = 0) "trade_receipt.record.new_revision"
  let record ← requireField "trade_receipt.record" WireRecordKey.toCore value.record
  return ⟨record, value.newRevision.toNat⟩

/-- `TryFrom<wire::TradeReceipt>`. -/
def TradeReceiptMessage.toCore (value : TradeReceiptMessage) :
    Except ProtocolError TradeReceipt := do
  validateText value.operationId "trade_receipt.operation_id" maxIdempotencyKeyBytes
  validateText value.tradeId "trade_receipt.trade_id" maxTradeIdBytes
  refuseField (value.newTradeVersion = 0) "trade_receipt.new_trade_version"
  refuseField (value.records.isEmpty ∨ maxTransactionRecords < value.records.length)
    "trade_receipt.records"
  boundedField "trade_receipt.ledger_posting_ids" maxLedgerPostings value.ledgerPostingIds
  boundedField "trade_receipt.outbox_event_ids" maxOutboxEvents value.outboxEventIds
  value.ledgerPostingIds.forM fun id =>
    validateText id "trade_receipt.ledger_posting_id" maxLedgerFieldBytes
  value.outboxEventIds.forM fun id =>
    validateText id "trade_receipt.outbox_event_id" maxIdempotencyKeyBytes
  refuseField (value.ledgerPostingIds.dedup.length ≠ value.ledgerPostingIds.length ∨
    value.outboxEventIds.dedup.length ≠ value.outboxEventIds.length) "trade_receipt.identifiers"
  let records ← value.records.mapM RecordReceiptMessage.toCore
  refuseField ((records.map (·.record)).dedup.length ≠ records.length) "trade_receipt.records"
  let state ← coreTradeState value.state
  return ⟨value.operationId, value.tradeId, value.newTradeVersion.toNat, state, records,
    value.ledgerPostingIds, value.outboxEventIds, value.result⟩

structure SnapshotEnvelope.InRange (value : SnapshotEnvelope) : Prop where
  schemaVersion : value.schemaVersion < 2 ^ 32
  revision : value.revision < 2 ^ 64
  updatedAtUnixMs : value.updatedAtUnixMs < 2 ^ 64

structure TradeEnvelope.InRange (value : TradeEnvelope) : Prop where
  version : value.version < 2 ^ 64
  updatedAtUnixMs : value.updatedAtUnixMs < 2 ^ 64

structure TradeReceipt.InRange (value : TradeReceipt) : Prop where
  version : value.newTradeVersion < 2 ^ 64
  revisions : ∀ receipt ∈ value.records, receipt.newRevision < 2 ^ 64

def SnapshotEnvelope.texts (value : SnapshotEnvelope) : List (String × ℕ) :=
  (value.schema, maxSchemaBytes) :: value.record.texts

theorem SnapshotEnvelope.forall_mem_texts (value : SnapshotEnvelope) {P : String × ℕ → Prop} :
    (∀ text ∈ value.texts, P text) ↔ P (value.schema, maxSchemaBytes) ∧
      P (value.record.ns, maxNamespaceBytes) ∧ P (value.record.key, maxRecordKeyBytes) := by
  simp [texts, RecordKey.texts]

theorem snapshotEnvelope_roundTrips : RoundTrips SnapshotEnvelope.toMessage
    SnapshotEnvelopeMessage.toCore SnapshotEnvelope.InRange
    fun value => ∀ text ∈ value.texts, Fits blank text where
  decode_encode value h := by
    simp only [value.forall_mem_texts]
    refine (validateText_returns value.schema _ _).bind ?_
    refine (WireRecordKey.toCore_returns value.record).map.cast ?_
    simp only [SnapshotEnvelope.toMessage, WireSnapshotEnvelope.toMessage, SnapshotEnvelope.toWire,
      UInt32.toNat_ofNat_of_lt' h.schemaVersion, UInt64.toNat_ofNat_of_lt' h.revision,
      UInt64.toNat_ofNat_of_lt' h.updatedAtUnixMs]
  encode_decode wire value h := by
    obtain ⟨_, -, h⟩ := Checks.bind_eq_ok.mp h
    obtain ⟨core, hcore, h⟩ := Checks.bind_eq_ok.mp h
    obtain ⟨hrecord, -⟩ := recordKey_roundTrips.requireField_decode hcore
    obtain rfl := Except.ok.inj h
    refine ⟨?_, UInt32.toNat_lt _, UInt64.toNat_lt _, UInt64.toNat_lt _⟩
    simp [SnapshotEnvelope.toMessage, WireSnapshotEnvelope.toMessage, SnapshotEnvelope.toWire,
      ← hrecord]

theorem tradeEnvelope_roundTrips : RoundTrips TradeEnvelope.toMessage TradeEnvelopeMessage.toCore
    TradeEnvelope.InRange fun value => Fits blank (value.tradeId, maxTradeIdBytes) where
  decode_encode value h := by
    refine ((validateText_returns value.tradeId _ _).bind
      ((coreTradeState_returns value.state).map.cast ?_)).congr (and_iff_left trivial)
    simp only [TradeEnvelope.toMessage, WireTradeEnvelope.toMessage, TradeEnvelope.toWire,
      UInt64.toNat_ofNat_of_lt' h.version, UInt64.toNat_ofNat_of_lt' h.updatedAtUnixMs]
  encode_decode wire value h := by
    obtain ⟨_, -, h⟩ := Checks.bind_eq_ok.mp h
    obtain ⟨state, hstate, h⟩ := Checks.bind_eq_ok.mp h
    obtain ⟨hstate, -⟩ := tradeState_roundTrips.encode_decode _ _ hstate
    obtain rfl := Except.ok.inj h
    refine ⟨?_, UInt64.toNat_lt _, UInt64.toNat_lt _⟩
    simp [TradeEnvelope.toMessage, WireTradeEnvelope.toMessage, TradeEnvelope.toWire, hstate]

/-! ### Receipts -/

/-- The texts of a receipt, with their limits in bytes. -/
def TradeReceipt.texts (value : TradeReceipt) : List (String × ℕ) :=
  [(value.operationId, maxIdempotencyKeyBytes), (value.tradeId, maxTradeIdBytes)] ++
    value.ledgerPostingIds.map (·, maxLedgerFieldBytes) ++
    value.outboxEventIds.map (·, maxIdempotencyKeyBytes) ++
    value.records.flatMap (·.record.texts)

/-- What the conversion asks of a receipt. -/
structure TradeReceipt.WireValid (value : TradeReceipt) : Prop where
  texts : ∀ text ∈ value.texts, Fits blank text
  version : value.newTradeVersion ≠ 0
  records : value.records ≠ [] ∧ value.records.length ≤ maxTransactionRecords
  postings : value.ledgerPostingIds.length ≤ maxLedgerPostings
  events : value.outboxEventIds.length ≤ maxOutboxEvents
  revisions : ∀ receipt ∈ value.records, receipt.newRevision ≠ 0
  postingIds : value.ledgerPostingIds.Nodup
  eventIds : value.outboxEventIds.Nodup
  recordKeys : (value.records.map (·.record)).Nodup

theorem TradeReceipt.forall_mem_texts (value : TradeReceipt) {P : String × ℕ → Prop} :
    (∀ text ∈ value.texts, P text) ↔ P (value.operationId, maxIdempotencyKeyBytes) ∧
      P (value.tradeId, maxTradeIdBytes) ∧
      (∀ id ∈ value.ledgerPostingIds, P (id, maxLedgerFieldBytes)) ∧
      (∀ id ∈ value.outboxEventIds, P (id, maxIdempotencyKeyBytes)) ∧
      ∀ receipt ∈ value.records, P (receipt.record.ns, maxNamespaceBytes) ∧
        P (receipt.record.key, maxRecordKeyBytes) := by
  simp only [texts, List.forall_mem_append, List.forall_mem_cons, List.forall_mem_map,
    List.forall_mem_flatMap, RecordKey.forall_mem_texts, List.not_mem_nil, false_implies,
    implies_true, and_true, and_assoc]

theorem refuseField_returns (bad : Prop) [Decidable bad] (field : String) :
    Checks.Returns (refuseField bad field) (¬ bad) () := by
  intro u
  rw [refuseField_eq_ok, and_iff_left rfl]

theorem forM_validateText_returns (ids : List String) (field : String) (maximum : ℕ) :
    Checks.Returns (ids.forM fun id => validateText id field maximum)
      (∀ id ∈ ids, Fits blank (id, maximum)) () := by
  intro u
  rw [Checks.forM_eq_ok, and_iff_left rfl]
  exact forall₂_congr fun id _ => validateText_eq_ok

theorem dedup_length_iff {α : Type} [DecidableEq α] {l : List α} :
    l.dedup.length = l.length ↔ l.Nodup := by
  constructor
  · intro h
    have heq : l.dedup = l := l.dedup_sublist.eq_of_length h
    exact List.dedup_eq_self.mp heq
  · intro h
    rw [List.Nodup.dedup h]

theorem RecordReceiptMessage.toCore_returns {receipt : TransactionRecordReceipt}
    (h : receipt.newRevision < 2 ^ 64) :
    Checks.Returns (multiTransactionRecordReceipt receipt).toMessage.toCore
      (receipt.newRevision ≠ 0 ∧ Fits blank (receipt.record.ns, maxNamespaceBytes) ∧
        Fits blank (receipt.record.key, maxRecordKeyBytes)) receipt := by
  have hzero : UInt64.ofNat receipt.newRevision = 0 ↔ receipt.newRevision = 0 := by
    rw [← UInt64.toNat_inj, UInt64.toNat_ofNat_of_lt' h]
    rfl
  refine ((refuseField_returns _ _).congr (not_congr hzero)).bind ?_
  refine (WireRecordKey.toCore_returns receipt.record).map.cast ?_
  simp only [multiTransactionRecordReceipt, MultiTransactionRecordReceipt.toMessage,
    UInt64.toNat_ofNat_of_lt' h]

theorem recordReceipt_roundTrips : RoundTrips
    (fun receipt => (multiTransactionRecordReceipt receipt).toMessage) RecordReceiptMessage.toCore
    (fun receipt => receipt.newRevision < 2 ^ 64)
    fun receipt => receipt.newRevision ≠ 0 ∧ Fits blank (receipt.record.ns, maxNamespaceBytes) ∧
      Fits blank (receipt.record.key, maxRecordKeyBytes) where
  decode_encode value h := RecordReceiptMessage.toCore_returns h
  encode_decode wire value h := by
    obtain ⟨_, -, h⟩ := Checks.bind_eq_ok.mp h
    obtain ⟨core, hcore, h⟩ := Checks.bind_eq_ok.mp h
    obtain ⟨hrecord, -⟩ := recordKey_roundTrips.requireField_decode hcore
    obtain rfl := Except.ok.inj h
    refine ⟨?_, UInt64.toNat_lt _⟩
    simp [multiTransactionRecordReceipt, MultiTransactionRecordReceipt.toMessage, ← hrecord]

/-- The checks of the conversion, in the order of the source. -/
theorem TradeReceiptMessage.toCore_returns {value : TradeReceipt} (h : value.InRange) :
    Checks.Returns value.toMessage.toCore
      (Fits blank (value.operationId, maxIdempotencyKeyBytes) ∧
        Fits blank (value.tradeId, maxTradeIdBytes) ∧
        value.newTradeVersion ≠ 0 ∧
        (value.records ≠ [] ∧ value.records.length ≤ maxTransactionRecords) ∧
        value.ledgerPostingIds.length ≤ maxLedgerPostings ∧
        value.outboxEventIds.length ≤ maxOutboxEvents ∧
        (∀ id ∈ value.ledgerPostingIds, Fits blank (id, maxLedgerFieldBytes)) ∧
        (∀ id ∈ value.outboxEventIds, Fits blank (id, maxIdempotencyKeyBytes)) ∧
        (value.ledgerPostingIds.Nodup ∧ value.outboxEventIds.Nodup) ∧
        (∀ receipt ∈ value.records, receipt.newRevision ≠ 0 ∧
          Fits blank (receipt.record.ns, maxNamespaceBytes) ∧
          Fits blank (receipt.record.key, maxRecordKeyBytes)) ∧
        (value.records.map (·.record)).Nodup) value := by
  have hzero : UInt64.ofNat value.newTradeVersion = 0 ↔ value.newTradeVersion = 0 := by
    rw [← UInt64.toNat_inj, UInt64.toNat_ofNat_of_lt' h.version]
    rfl
  have hrecords : value.toMessage.records =
      value.records.map fun receipt => (multiTransactionRecordReceipt receipt).toMessage := by
    rw [TradeReceipt.toMessage, WireTradeReceipt.toMessage, TradeReceipt.toWire, List.map_map]
    rfl
  refine (validateText_returns value.operationId _ _).bind ?_
  refine (validateText_returns value.tradeId _ _).bind ?_
  refine ((refuseField_returns _ _).congr (not_congr hzero)).bind ?_
  refine ((refuseField_returns _ _).congr ?_).bind ?_
  · rw [hrecords, List.length_map, not_or, not_lt]
    simp
  refine (boundedField_returns _ _ _).bind ?_
  refine (boundedField_returns _ _ _).bind ?_
  refine (forM_validateText_returns _ _ _).bind ?_
  refine (forM_validateText_returns _ _ _).bind ?_
  refine ((refuseField_returns _ _).congr ?_).bind ?_
  · rw [not_or, not_ne_iff, not_ne_iff, dedup_length_iff, dedup_length_iff]
    rfl
  rw [hrecords]
  refine (Checks.returns_mapM_map fun receipt hmem =>
    RecordReceiptMessage.toCore_returns (h.revisions receipt hmem)).bind ?_
  rw [List.map_id']
  refine (((refuseField_returns _ _).congr ?_).bind
    ((coreTradeState_returns value.state).map.cast ?_)).congr (and_iff_left trivial)
  · have hlength : (value.records.map (·.record)).length = value.records.length :=
      List.length_map _
    rw [not_ne_iff, ← hlength, dedup_length_iff]
  · simp [TradeReceipt.toMessage, WireTradeReceipt.toMessage, TradeReceipt.toWire,
      UInt64.toNat_ofNat_of_lt' h.version]

theorem tradeReceipt_roundTrips : RoundTrips TradeReceipt.toMessage TradeReceiptMessage.toCore
    TradeReceipt.InRange TradeReceipt.WireValid where
  decode_encode value h := by
    refine (TradeReceiptMessage.toCore_returns h).congr ⟨?_, fun hvalid => ?_⟩
    · rintro ⟨hid, htrade, hversion, hrecords, hpostings, hevents, hpids, heids, ⟨hpnodup, henodup⟩,
        hreceipts, hkeys⟩
      exact ⟨value.forall_mem_texts.mpr
        ⟨hid, htrade, hpids, heids, fun receipt hmem => (hreceipts receipt hmem).2⟩, hversion,
        hrecords, hpostings, hevents, fun receipt hmem => (hreceipts receipt hmem).1, hpnodup,
        henodup, hkeys⟩
    · obtain ⟨hid, htrade, hpids, heids, hrecords⟩ := value.forall_mem_texts.mp hvalid.texts
      exact ⟨hid, htrade, hvalid.version, hvalid.records, hvalid.postings, hvalid.events, hpids,
        heids, ⟨hvalid.postingIds, hvalid.eventIds⟩,
        fun receipt hmem => ⟨hvalid.revisions receipt hmem, hrecords receipt hmem⟩,
        hvalid.recordKeys⟩
  encode_decode wire value h := by
    obtain ⟨_, -, h⟩ := Checks.bind_eq_ok.mp h
    obtain ⟨_, -, h⟩ := Checks.bind_eq_ok.mp h
    obtain ⟨_, -, h⟩ := Checks.bind_eq_ok.mp h
    obtain ⟨_, -, h⟩ := Checks.bind_eq_ok.mp h
    obtain ⟨_, -, h⟩ := Checks.bind_eq_ok.mp h
    obtain ⟨_, -, h⟩ := Checks.bind_eq_ok.mp h
    obtain ⟨_, -, h⟩ := Checks.bind_eq_ok.mp h
    obtain ⟨_, -, h⟩ := Checks.bind_eq_ok.mp h
    obtain ⟨_, -, h⟩ := Checks.bind_eq_ok.mp h
    obtain ⟨records, hrecords, h⟩ := Checks.bind_eq_ok.mp h
    obtain ⟨_, -, h⟩ := Checks.bind_eq_ok.mp h
    obtain ⟨state, hstate, h⟩ := Checks.bind_eq_ok.mp h
    obtain rfl := Except.ok.inj h
    obtain ⟨hrecords, hrevisions⟩ := recordReceipt_roundTrips.mapM_decode hrecords
    obtain ⟨hstate, -⟩ := tradeState_roundTrips.encode_decode _ _ hstate
    refine ⟨?_, UInt64.toNat_lt _, hrevisions⟩
    have hmap : (records.map multiTransactionRecordReceipt).map (·.toMessage) = wire.records := by
      rw [List.map_map]
      exact hrecords
    simp only [TradeReceipt.toMessage, WireTradeReceipt.toMessage, TradeReceipt.toWire, hmap,
      hstate, UInt64.ofNat_toNat]

/-! ### All conversions -/

/-- **Conversions round-trip.**  An encoded value is read back exactly when its texts, counts and
topics are within the limits and, for a receipt, its numbers are positive and its lists distinct;
otherwise reading fails.  A message that is read is the encoding of what was read. -/
theorem wireConversions_roundTrip :
    RoundTrips SnapshotWrite.toWire WireSaveSnapshotRequest.toSnapshotWrite SnapshotWrite.InRange
      (fun value => ∀ text ∈ value.texts, Fits blank text) ∧
    RoundTrips TransactionalWrite.toWire WireApplyTransactionRequest.toTransactionalWrite
      TransactionalWrite.InRange (fun value => ∀ text ∈ value.texts, Fits blank text) ∧
    RoundTrips TransactionalRecordWrite.toWire WireTransactionalRecordWrite.toCore
      TransactionalRecordWrite.InRange (fun value => ∀ text ∈ value.texts, Fits blank text) ∧
    RoundTrips AppendRecord.toWire WireAppendRecord.toCore AppendRecord.InRange
      (fun value => ∀ text ∈ value.texts, Fits blank text) ∧
    RoundTrips OutboxEvent.toWire WireOutboxEvent.toCore
      (fun value => value.occurredAtUnixMs < 2 ^ 64)
      (fun value => (∀ text ∈ value.texts, Fits blank text) ∧
        value.topic.toList.all isTopicChar = true) ∧
    RoundTrips LedgerPosting.toWire WireLedgerPosting.toCore LedgerPosting.InRange
      (fun value => ∀ text ∈ value.texts, Fits blank text) ∧
    RoundTrips TradeTransition.toWire WireTradeTransition.toCore TradeTransition.InRange
      (fun value => Fits blank (value.tradeId, maxTradeIdBytes)) ∧
    RoundTrips TradeTransaction.toWire WireApplyTradeTransactionRequest.toCore
      TradeTransaction.InRange TradeTransaction.WireValid ∧
    RoundTrips SnapshotEnvelope.toMessage SnapshotEnvelopeMessage.toCore SnapshotEnvelope.InRange
      (fun value => ∀ text ∈ value.texts, Fits blank text) ∧
    RoundTrips TradeEnvelope.toMessage TradeEnvelopeMessage.toCore TradeEnvelope.InRange
      (fun value => Fits blank (value.tradeId, maxTradeIdBytes)) ∧
    RoundTrips TradeReceipt.toMessage TradeReceiptMessage.toCore TradeReceipt.InRange
      TradeReceipt.WireValid :=
  ⟨snapshotWrite_roundTrips, transactionalWrite_roundTrips, transactionalRecordWrite_roundTrips,
    appendRecord_roundTrips, outboxEvent_roundTrips, ledgerPosting_roundTrips,
    tradeTransition_roundTrips, tradeTransaction_roundTrips, snapshotEnvelope_roundTrips,
    tradeEnvelope_roundTrips, tradeReceipt_roundTrips⟩

end DbProxy
