/-
The two validators of a trade.

The TypeScript SDK checks a trade before it sends it, the server when it converts
and normalises it.  Both are applied here to the same values, `toSdk` and `toWire`
of one `TradeTransaction`:

* `sdk_accepts_iff` — the trades `cloneTradeTransaction` returns;
* `server_accepts_iff` — the trades that are converted and normalised;
* `trade_validators_agree_iff` — the trades on which they agree.
-/
import DbProxy.CanonicalForms
import DbProxy.Dispatch
import DbProxy.SdkTrades

namespace DbProxy

open Text Utf16

/-! ### One trade on both sides -/

def RecordKey.toSdk (value : RecordKey) : Sdk.DbProxyRecordKey :=
  ⟨codeUnits value.ns, codeUnits value.key⟩

def TransactionalRecordWrite.toSdk (value : TransactionalRecordWrite) :
    Sdk.DbProxyTransactionalRecordWrite :=
  ⟨value.record.toSdk, codeUnits value.schema, value.schemaVersion, value.expectedRevision,
    value.payload, value.updatedAtUnixMs⟩

def TradeTransition.toSdk (value : TradeTransition) : Sdk.DbProxyTradeTransition :=
  ⟨codeUnits value.tradeId, value.expectedVersion, value.expectedState.map Sdk.stateText,
    Sdk.stateText value.nextState, value.payload, value.updatedAtUnixMs⟩

def LedgerPosting.toSdk (value : LedgerPosting) : Sdk.DbProxyLedgerPosting :=
  ⟨codeUnits value.postingId, codeUnits value.accountId, codeUnits value.asset, value.amount,
    value.metadata⟩

def OutboxEvent.toSdk (value : OutboxEvent) : Sdk.DbProxyOutboxEvent :=
  ⟨codeUnits value.eventId, codeUnits value.topic, codeUnits value.partitionKey, value.payload,
    value.occurredAtUnixMs⟩

/-- The trade in the runtime of the SDK. -/
def TradeTransaction.toSdk (value : TradeTransaction) : Sdk.DbProxyTradeTransaction :=
  ⟨codeUnits value.operationId, value.transition.toSdk, value.writes.map (·.toSdk),
    value.ledgerPostings.map (·.toSdk), value.outboxEvents.map (·.toSdk), value.result⟩

/-- `wire::TradeState::from(value) as i32`. -/
def TradeState.toWire : TradeState → Int32
  | .proposed => 1
  | .escrowed => 2
  | .settled => 3
  | .cancelled => 4

def TransactionalRecordWrite.toWire (value : TransactionalRecordWrite) :
    WireTransactionalRecordWrite :=
  ⟨some value.record.toWire, value.schema, UInt32.ofNat value.schemaVersion,
    UInt64.ofNat value.expectedRevision, value.payload, UInt64.ofNat value.updatedAtUnixMs⟩

def TradeTransition.toWire (value : TradeTransition) : WireTradeTransition :=
  ⟨value.tradeId, UInt64.ofNat value.expectedVersion, value.expectedState.map (·.toWire),
    value.nextState.toWire, value.payload, UInt64.ofNat value.updatedAtUnixMs⟩

def LedgerPosting.toWire (value : LedgerPosting) : WireLedgerPosting :=
  ⟨value.postingId, value.accountId, value.asset, Int64.ofInt value.amount, value.metadata⟩

def OutboxEvent.toWire (value : OutboxEvent) : WireOutboxEvent :=
  ⟨value.eventId, value.topic, value.partitionKey, value.payload,
    UInt64.ofNat value.occurredAtUnixMs⟩

/-- `From<&TradeTransaction> for wire::ApplyTradeTransactionRequest`. -/
def TradeTransaction.toWire (value : TradeTransaction) : WireApplyTradeTransactionRequest :=
  ⟨value.operationId, some value.transition.toWire, value.writes.map (·.toWire),
    value.ledgerPostings.map (·.toWire), value.outboxEvents.map (·.toWire), value.result⟩

def TransactionalRecordWrite.InRange (value : TransactionalRecordWrite) : Prop :=
  value.schemaVersion < 2 ^ 32 ∧ value.expectedRevision < 2 ^ 64 ∧ value.updatedAtUnixMs < 2 ^ 64

/-- The numbers of a trade have the widths of the schema. -/
structure TradeTransaction.InRange (value : TradeTransaction) : Prop where
  expectedVersion : value.transition.expectedVersion < 2 ^ 64
  updatedAtUnixMs : value.transition.updatedAtUnixMs < 2 ^ 64
  writes : ∀ write ∈ value.writes, write.InRange
  amounts : ∀ posting ∈ value.ledgerPostings, -2 ^ 63 ≤ posting.amount ∧ posting.amount < 2 ^ 63
  events : ∀ event ∈ value.outboxEvents, event.occurredAtUnixMs < 2 ^ 64

/-! ### Texts -/

/-- The texts of a write, with their limits in bytes. -/
def TransactionalRecordWrite.texts (value : TransactionalRecordWrite) : List (String × ℕ) :=
  [(value.record.ns, maxNamespaceBytes), (value.record.key, maxRecordKeyBytes),
    (value.schema, maxSchemaBytes)]

def LedgerPosting.texts (value : LedgerPosting) : List (String × ℕ) :=
  [(value.postingId, maxLedgerFieldBytes), (value.accountId, maxLedgerFieldBytes),
    (value.asset, maxLedgerFieldBytes)]

def OutboxEvent.texts (value : OutboxEvent) : List (String × ℕ) :=
  [(value.eventId, maxIdempotencyKeyBytes), (value.topic, maxOutboxTopicBytes),
    (value.partitionKey, maxOutboxPartitionKeyBytes)]

/-- Every text that both sides require. -/
def TradeTransaction.texts (value : TradeTransaction) : List (String × ℕ) :=
  [(value.operationId, maxIdempotencyKeyBytes), (value.transition.tradeId, maxTradeIdBytes)] ++
    value.writes.flatMap (·.texts) ++ value.ledgerPostings.flatMap (·.texts) ++
    value.outboxEvents.flatMap (·.texts)

theorem TransactionalRecordWrite.forall_mem_texts (value : TransactionalRecordWrite)
    {P : String × ℕ → Prop} : (∀ text ∈ value.texts, P text) ↔
      (P (value.record.ns, maxNamespaceBytes) ∧ P (value.record.key, maxRecordKeyBytes)) ∧
        P (value.schema, maxSchemaBytes) := by
  simp [texts, and_assoc]

theorem LedgerPosting.forall_mem_texts (value : LedgerPosting) {P : String × ℕ → Prop} :
    (∀ text ∈ value.texts, P text) ↔ P (value.postingId, maxLedgerFieldBytes) ∧
      P (value.accountId, maxLedgerFieldBytes) ∧ P (value.asset, maxLedgerFieldBytes) := by
  simp [texts]

theorem OutboxEvent.forall_mem_texts (value : OutboxEvent) {P : String × ℕ → Prop} :
    (∀ text ∈ value.texts, P text) ↔ P (value.eventId, maxIdempotencyKeyBytes) ∧
      P (value.topic, maxOutboxTopicBytes) ∧
      P (value.partitionKey, maxOutboxPartitionKeyBytes) := by
  simp [texts]

theorem TradeTransaction.forall_mem_texts {value : TradeTransaction} {P : String × ℕ → Prop} :
    (∀ text ∈ value.texts, P text) ↔ P (value.operationId, maxIdempotencyKeyBytes) ∧
      P (value.transition.tradeId, maxTradeIdBytes) ∧
      (∀ write ∈ value.writes, ∀ text ∈ write.texts, P text) ∧
      (∀ posting ∈ value.ledgerPostings, ∀ text ∈ posting.texts, P text) ∧
      ∀ event ∈ value.outboxEvents, ∀ text ∈ event.texts, P text := by
  simp only [texts, List.mem_append, List.mem_cons, List.not_mem_nil, or_false,
    List.mem_flatMap]
  constructor
  · intro h
    refine ⟨h _ (by simp), h _ (by simp), fun write hw text ht => ?_, fun p hp text ht => ?_,
      fun e he text ht => ?_⟩
    · exact h text (Or.inl (Or.inl (Or.inr ⟨write, hw, ht⟩)))
    · exact h text (Or.inl (Or.inr ⟨p, hp, ht⟩))
    · exact h text (Or.inr ⟨e, he, ht⟩)
  · rintro ⟨hid, htrade, hwrites, hpostings, hevents⟩ text
    rintro ((((rfl | rfl) | ⟨write, hw, ht⟩) | ⟨p, hp, ht⟩) | ⟨e, he, ht⟩)
    · exact hid
    · exact htrade
    · exact hwrites write hw text ht
    · exact hpostings p hp text ht
    · exact hevents e he text ht

/-! ### The SDK -/

/-- The namespace and the key as the SDK joins them. -/
def RecordKey.joinedName (record : RecordKey) : String := record.ns ++ "\x00" ++ record.key

/-- The rules that both sides check in the same way. -/
structure TradeRules (value : TradeTransaction) : Prop where
  writes : value.writes.length ≠ 0 ∧ value.writes.length ≤ maxTransactionRecords
  postings : value.ledgerPostings.length ≤ maxLedgerPostings
  events : value.outboxEvents.length ≤ maxOutboxEvents
  create_iff : value.transition.expectedVersion = 0 ↔ value.transition.expectedState = none
  transition : isValidTransition value.transition.expectedState value.transition.nextState = true
  amounts : ∀ posting ∈ value.ledgerPostings, posting.amount ≠ 0
  postingIds : (value.ledgerPostings.map (·.postingId)).Nodup
  balanced : ∀ asset, assetBalance asset value.ledgerPostings = 0
  topics : ∀ event ∈ value.outboxEvents, event.topic.toList.all isTopicChar = true
  eventIds : (value.outboxEvents.map (·.eventId)).Nodup

namespace Sdk

theorem cloneRecordKey_returns (record : RecordKey) :
    Checks.Returns (cloneRecordKey record.toSdk)
      (Fits jsBlank (record.ns, maxNamespaceBytes) ∧ Fits jsBlank (record.key, maxRecordKeyBytes))
      record.toSdk := by
  refine (requireText_returns record.ns _ _).bind ?_
  exact (requireText_returns record.key _ _).map

theorem cloneMultiTransactionalRecordWrite_returns {write : TransactionalRecordWrite}
    (h : write.InRange) : Checks.Returns (cloneMultiTransactionalRecordWrite write.toSdk)
      (∀ text ∈ write.texts, Fits jsBlank text) write.toSdk := by
  obtain ⟨hversion, hrevision, htime⟩ := h
  rw [write.forall_mem_texts]
  refine (cloneRecordKey_returns write.record).bind ?_
  refine ((requireText_returns write.schema _ _).bind ?_).congr (and_iff_left trivial)
  refine (requireUint32_returns hversion).andThen ?_
  refine (requireUint64_returns hrevision).andThen ?_
  exact (requireUint64_returns htime).map

theorem cloneTradeTransition_returns {transition : TradeTransition}
    (hversion : transition.expectedVersion < 2 ^ 64) (htime : transition.updatedAtUnixMs < 2 ^ 64) :
    Checks.Returns (cloneTradeTransition transition.toSdk)
      (((transition.expectedVersion = 0 ↔ transition.expectedState = none) ∧
        isValidTransition transition.expectedState transition.nextState = true) ∧
        Fits jsBlank (transition.tradeId, maxTradeIdBytes)) transition.toSdk := by
  have hstate : Checks.Returns (transition.toSdk.expectedState.mapM
      (requireTradeState · "tradeTransition.expectedState")) True
      transition.toSdk.expectedState := by
    rw [TradeTransition.toSdk]
    cases transition.expectedState with
    | none => exact Checks.returns_pure none
    | some state => exact (requireTradeState_returns state _).map
  have hlegal : (((transition.expectedVersion : ℤ) == 0) ==
      (transition.toSdk.expectedState == none) &&
      isValidTradeTransition transition.toSdk.expectedState transition.toSdk.nextState) = true ↔
      (transition.expectedVersion = 0 ↔ transition.expectedState = none) ∧
        isValidTransition transition.expectedState transition.nextState = true := by
    rw [TradeTransition.toSdk, isValidTradeTransition_eq, Bool.and_eq_true, beq_iff_eq,
      Bool.eq_iff_iff, beq_iff_eq, beq_iff_eq, Int.natCast_eq_zero, Option.map_eq_none_iff]
  rw [← hlegal]
  refine (requireUint64_returns hversion).andThen (hstate.andThen ?_)
  refine (requireTradeState_returns transition.nextState _).andThen ((ensure_returns _ _).bind ?_)
  exact ((requireText_returns transition.tradeId _ _).bind (requireUint64_returns htime).map).congr
    (and_iff_left trivial)

theorem cloneLedgerPosting_returns {posting : LedgerPosting}
    (h : -2 ^ 63 ≤ posting.amount ∧ posting.amount < 2 ^ 63) :
    Checks.Returns (cloneLedgerPosting posting.toSdk)
      (posting.amount ≠ 0 ∧ ∀ text ∈ posting.texts, Fits jsBlank text) posting.toSdk := by
  rw [posting.forall_mem_texts]
  refine (requireInt64_returns h).andThen ?_
  refine ((ensure_returns _ _).bind ?_).congr (and_congr bne_iff_ne Iff.rfl)
  refine (requireText_returns posting.postingId _ _).bind ?_
  refine (requireText_returns posting.accountId _ _).bind ?_
  exact (requireText_returns posting.asset _ _).map

theorem cloneOutboxEvent_returns {event : OutboxEvent} (h : event.occurredAtUnixMs < 2 ^ 64) :
    Checks.Returns (cloneOutboxEvent event.toSdk)
      (event.topic.toList.all isTopicChar = true ∧ ∀ text ∈ event.texts, Fits jsBlank text)
      event.toSdk := by
  have hpattern : Fits jsBlank (event.topic, maxOutboxTopicBytes) →
      (((codeUnits event.topic).length != 0 && (codeUnits event.topic).all isTopicUnit) = true ↔
        event.topic.toList.all isTopicChar = true) := by
    rintro ⟨hblank, -⟩
    rw [all_isTopicUnit, Bool.and_eq_true, bne_iff_ne]
    refine and_iff_right fun hlength => ?_
    -- an empty topic would be blank
    rw [List.length_eq_zero_iff, codeUnits_eq_nil] at hlength
    simp only at hblank
    rw [hlength] at hblank
    cases hblank
  have hiff : (Fits jsBlank (event.topic, maxOutboxTopicBytes) ∧
      ((codeUnits event.topic).length != 0 && (codeUnits event.topic).all isTopicUnit) = true ∧
      Fits jsBlank (event.eventId, maxIdempotencyKeyBytes) ∧
      Fits jsBlank (event.partitionKey, maxOutboxPartitionKeyBytes)) ↔
      event.topic.toList.all isTopicChar = true ∧ ∀ text ∈ event.texts, Fits jsBlank text := by
    rw [event.forall_mem_texts]
    constructor
    · rintro ⟨htopic, hall, hid, hkey⟩
      exact ⟨(hpattern htopic).mp hall, hid, htopic, hkey⟩
    · rintro ⟨hall, hid, htopic, hkey⟩
      exact ⟨htopic, (hpattern htopic).mpr hall, hid, hkey⟩
  refine Checks.Returns.congr ?_ hiff
  refine (requireText_returns event.topic _ _).bind ((ensure_returns _ _).bind ?_)
  refine (requireText_returns event.eventId _ _).bind ?_
  exact ((requireText_returns event.partitionKey _ _).bind (requireUint64_returns h).map).congr
    (and_iff_left trivial)

theorem recordName_toSdk (record : RecordKey) :
    recordName record.toSdk = codeUnits record.joinedName := by
  rw [RecordKey.joinedName, codeUnits_append, codeUnits_append]
  rfl

theorem balanceOf_toSdk (postings : List LedgerPosting) :
    (∀ asset, balanceOf ((postings.map (·.toSdk)).foldl addBalance KeyedTable.empty) asset = 0) ↔
      ∀ asset, assetBalance asset postings = 0 := by
  have hsum : ∀ asset, ((postings.map (·.toSdk)).filter (·.asset == asset)).map (·.amount) =
      (postings.filter (codeUnits ·.asset == asset)).map (·.amount) := by
    intro asset
    rw [List.filter_map, List.map_map]
    rfl
  have hzero : ∀ asset, balanceOf KeyedTable.empty asset = 0 := fun asset => rfl
  constructor
  · intro h asset
    have := h (codeUnits asset)
    rw [balanceOf_foldl, hzero, zero_add, hsum] at this
    rw [assetBalance, ← this]
    congr 3
    funext posting
    rw [Bool.eq_iff_iff, beq_iff_eq, beq_iff_eq, codeUnits_inj]
  · intro h asset
    rw [balanceOf_foldl, hzero, zero_add, hsum]
    by_cases hasset : ∃ posting ∈ postings, codeUnits posting.asset = asset
    · obtain ⟨posting, -, rfl⟩ := hasset
      rw [← h posting.asset, assetBalance]
      congr 3
      funext other
      rw [Bool.eq_iff_iff, beq_iff_eq, beq_iff_eq, codeUnits_inj]
    · -- no posting has this asset
      have hnil : postings.filter (codeUnits ·.asset == asset) = [] := by
        rw [List.filter_eq_nil_iff]
        intro posting hmem heq
        exact hasset ⟨posting, hmem, beq_iff_eq.mp heq⟩
      rw [hnil]
      rfl

/-- The checks of a trade, in the order of the source. -/
theorem cloneTradeTransaction_checks {value : TradeTransaction} (h : value.InRange) :
    Checks.Returns (cloneTradeTransaction value.toSdk)
      (Fits jsBlank (value.operationId, maxIdempotencyKeyBytes) ∧
        (((value.transition.expectedVersion = 0 ↔ value.transition.expectedState = none) ∧
          isValidTransition value.transition.expectedState value.transition.nextState = true) ∧
          Fits jsBlank (value.transition.tradeId, maxTradeIdBytes)) ∧
        (value.writes.length ≠ 0 ∧ value.writes.length ≤ maxTransactionRecords) ∧
        (∀ write ∈ value.writes, ∀ text ∈ write.texts, Fits jsBlank text) ∧
        (value.writes.map (·.record.joinedName)).Nodup ∧
        value.ledgerPostings.length ≤ maxLedgerPostings ∧
        (∀ posting ∈ value.ledgerPostings,
          posting.amount ≠ 0 ∧ ∀ text ∈ posting.texts, Fits jsBlank text) ∧
        (value.ledgerPostings.map (·.postingId)).Nodup ∧
        (∀ asset, assetBalance asset value.ledgerPostings = 0) ∧
        value.outboxEvents.length ≤ maxOutboxEvents ∧
        (∀ event ∈ value.outboxEvents, event.topic.toList.all isTopicChar = true ∧
          ∀ text ∈ event.texts, Fits jsBlank text) ∧
        (value.outboxEvents.map (·.eventId)).Nodup) value.toSdk := by
  refine (requireText_returns value.operationId _ _).bind ?_
  refine (cloneTradeTransition_returns h.expectedVersion h.updatedAtUnixMs).bind ?_
  refine ((ensure_returns _ _).congr ?_).bind ?_
  · rw [Bool.and_eq_true, bne_iff_ne, decide_eq_true_eq, TradeTransaction.toSdk, List.length_map]
  refine (Checks.returns_mapM_map fun write hmem =>
    cloneMultiTransactionalRecordWrite_returns (h.writes write hmem)).bind ?_
  refine ((ensure_returns _ _).congr ?_).bind ?_
  · refine setSize_map_eq_length (fun write : TransactionalRecordWrite => write.record.joinedName)
      ?_ value.writes
    exact fun write => recordName_toSdk write.record
  refine ((ensure_returns _ _).congr ?_).bind ?_
  · rw [decide_eq_true_eq, TradeTransaction.toSdk, List.length_map]
  refine (Checks.returns_mapM_map fun posting hmem =>
    cloneLedgerPosting_returns (h.amounts posting hmem)).bind ?_
  refine ((ensure_returns _ _).congr ?_).bind ?_
  · refine setSize_map_eq_length LedgerPosting.postingId ?_ value.ledgerPostings
    exact fun posting => rfl
  refine ((checkBalances_returns _).congr (balanceOf_toSdk _)).bind ?_
  refine ((ensure_returns _ _).congr ?_).bind ?_
  · rw [decide_eq_true_eq, TradeTransaction.toSdk, List.length_map]
  refine (Checks.returns_mapM_map fun event hmem =>
    cloneOutboxEvent_returns (h.events event hmem)).bind ?_
  refine ((ensure_returns _ _).congr ?_).map
  refine setSize_map_eq_length OutboxEvent.eventId ?_ value.outboxEvents
  exact fun event => rfl

end Sdk

/-- What the SDK sends. -/
theorem sdk_accepts_iff {value : TradeTransaction} (h : value.InRange) :
    (∃ copy, Sdk.cloneTradeTransaction value.toSdk = .ok copy) ↔
      (∀ text ∈ value.texts, Fits Sdk.jsBlank text) ∧ TradeRules value ∧
        (value.writes.map (·.record.joinedName)).Nodup := by
  rw [(Sdk.cloneTradeTransaction_checks h).exists_ok, TradeTransaction.forall_mem_texts]
  constructor
  · rintro ⟨hid, ⟨⟨hcreate, hvalid⟩, htrade⟩, hlength, hwrites, hnames, hmany, hpostings, hids,
      hbalanced, hfew, hevents, heventIds⟩
    exact ⟨⟨hid, htrade, hwrites, fun p hp => (hpostings p hp).2, fun e he => (hevents e he).2⟩,
      ⟨hlength, hmany, hfew, hcreate, hvalid, fun p hp => (hpostings p hp).1, hids, hbalanced,
        fun e he => (hevents e he).1, heventIds⟩, hnames⟩
  · rintro ⟨⟨hid, htrade, hwrites, hpostings, hevents⟩, hrules, hnames⟩
    exact ⟨hid, ⟨⟨hrules.create_iff, hrules.transition⟩, htrade⟩, hrules.writes, hwrites, hnames,
      hrules.postings, fun p hp => ⟨hrules.amounts p hp, hpostings p hp⟩, hrules.postingIds,
      hrules.balanced, hrules.events, fun e he => ⟨hrules.topics e he, hevents e he⟩,
      hrules.eventIds⟩

/-! ### The server -/

theorem validateText_returns (value field : String) (maximum : ℕ) :
    Checks.Returns (validateText value field maximum) (Fits blank (value, maximum)) () := by
  intro u
  rw [validateText_eq_ok, and_iff_left rfl]
  rfl

theorem boundedField_returns {α : Type} (field : String) (maximum : ℕ) (l : List α) :
    Checks.Returns (boundedField field maximum l) (l.length ≤ maximum) () := by
  intro u
  rw [boundedField_eq_ok, and_iff_left rfl]

theorem WireRecordKey.toCore_returns (record : RecordKey) :
    Checks.Returns record.toWire.toCore
      (Fits blank (record.ns, maxNamespaceBytes) ∧ Fits blank (record.key, maxRecordKeyBytes))
      record := by
  have hnew : Checks.Returns ((RecordKey.new record.ns record.key).mapError ProtocolError.core)
      (blank record.ns = false ∧ blank record.key = false) record := by
    intro result
    rw [Checks.mapError_eq_ok, RecordKey.new]
    cases blank record.ns <;> cases blank record.key <;> simp
    exact eq_comm
  refine ((validateText_returns record.ns _ _).bind
    ((validateText_returns record.key _ _).bind hnew)).congr ?_
  constructor
  · rintro ⟨hns, hkey, -⟩
    exact ⟨hns, hkey⟩
  · rintro ⟨hns, hkey⟩
    exact ⟨hns, hkey, hns.1, hkey.1⟩

theorem WireTransactionalRecordWrite.toCore_returns {write : TransactionalRecordWrite}
    (h : write.InRange) : Checks.Returns write.toWire.toCore
      (∀ text ∈ write.texts, Fits blank text) write := by
  obtain ⟨hversion, hrevision, htime⟩ := h
  rw [write.forall_mem_texts, and_comm]
  refine (validateText_returns write.schema _ _).bind ?_
  refine (WireRecordKey.toCore_returns write.record).map.cast ?_
  simp only [TransactionalRecordWrite.toWire, UInt32.toNat_ofNat_of_lt' hversion,
    UInt64.toNat_ofNat_of_lt' hrevision, UInt64.toNat_ofNat_of_lt' htime]

theorem coreTradeState_returns (state : TradeState) :
    Checks.Returns (coreTradeState state.toWire) True state := by
  have hok : coreTradeState state.toWire = .ok state := by cases state <;> rfl
  rw [hok]
  exact Checks.returns_pure state

theorem WireTradeTransition.toCore_returns {transition : TradeTransition}
    (hversion : transition.expectedVersion < 2 ^ 64) (htime : transition.updatedAtUnixMs < 2 ^ 64) :
    Checks.Returns transition.toWire.toCore (Fits blank (transition.tradeId, maxTradeIdBytes))
      transition := by
  have hstate : Checks.Returns (transition.toWire.expectedState.mapM coreTradeState) True
      transition.expectedState := by
    rw [TradeTransition.toWire]
    cases transition.expectedState with
    | none => exact Checks.returns_pure none
    | some state => exact (coreTradeState_returns state).map
  refine ((validateText_returns transition.tradeId _ _).bind
    (hstate.andThen ((coreTradeState_returns transition.nextState).map.cast ?_))).congr
    (and_iff_left trivial)
  simp only [TradeTransition.toWire, UInt64.toNat_ofNat_of_lt' hversion,
    UInt64.toNat_ofNat_of_lt' htime]

theorem WireLedgerPosting.toCore_returns {posting : LedgerPosting}
    (h : -2 ^ 63 ≤ posting.amount ∧ posting.amount < 2 ^ 63) :
    Checks.Returns posting.toWire.toCore (∀ text ∈ posting.texts, Fits blank text) posting := by
  rw [posting.forall_mem_texts]
  refine (validateText_returns posting.postingId _ _).bind ?_
  refine (validateText_returns posting.accountId _ _).bind ?_
  refine (validateText_returns posting.asset _ _).map.cast ?_
  simp [LedgerPosting.toWire, Int64.toInt_ofInt_of_le h.1 h.2]

theorem WireOutboxEvent.toCore_returns {event : OutboxEvent}
    (h : event.occurredAtUnixMs < 2 ^ 64) : Checks.Returns event.toWire.toCore
      ((∀ text ∈ event.texts, Fits blank text) ∧ event.topic.toList.all isTopicChar = true)
      event := by
  rw [event.forall_mem_texts, and_assoc, and_assoc]
  refine (validateText_returns event.eventId _ _).bind ?_
  refine (validateText_returns event.topic _ _).bind ?_
  refine (validateText_returns event.partitionKey _ _).bind ?_
  show Checks.Returns (if !event.topic.toList.all isTopicChar then _ else _) _ _
  intro result
  cases hall : event.topic.toList.all isTopicChar with
  | false => simp
  | true =>
    rw [Bool.not_true, if_neg (by simp), Checks.returns_pure _ result, true_and, and_iff_right rfl]
    simp only [OutboxEvent.toWire, UInt64.toNat_ofNat_of_lt' h]

/-- The checks of the conversion, in the order of the source. -/
theorem WireApplyTradeTransactionRequest.toCore_returns {value : TradeTransaction}
    (h : value.InRange) : Checks.Returns value.toWire.toCore
      (Fits blank (value.operationId, maxIdempotencyKeyBytes) ∧
        value.writes.length ≤ maxTransactionRecords ∧
        value.ledgerPostings.length ≤ maxLedgerPostings ∧
        value.outboxEvents.length ≤ maxOutboxEvents ∧
        Fits blank (value.transition.tradeId, maxTradeIdBytes) ∧
        (∀ write ∈ value.writes, ∀ text ∈ write.texts, Fits blank text) ∧
        (∀ posting ∈ value.ledgerPostings, ∀ text ∈ posting.texts, Fits blank text) ∧
        ∀ event ∈ value.outboxEvents, (∀ text ∈ event.texts, Fits blank text) ∧
          event.topic.toList.all isTopicChar = true) value := by
  have hlength : ∀ {α β : Type} (f : α → β) (l : List α) (n : ℕ),
      (l.map f).length ≤ n ↔ l.length ≤ n := by
    intro α β f l n
    rw [List.length_map]
  refine (validateText_returns value.operationId _ _).bind ?_
  refine ((boundedField_returns _ _ _).congr (hlength _ _ _)).bind ?_
  refine ((boundedField_returns _ _ _).congr (hlength _ _ _)).bind ?_
  refine ((boundedField_returns _ _ _).congr (hlength _ _ _)).bind ?_
  refine (WireTradeTransition.toCore_returns h.expectedVersion h.updatedAtUnixMs).bind ?_
  refine (Checks.returns_mapM_map fun write hmem =>
    WireTransactionalRecordWrite.toCore_returns (h.writes write hmem)).bind ?_
  refine (Checks.returns_mapM_map fun posting hmem =>
    WireLedgerPosting.toCore_returns (h.amounts posting hmem)).bind ?_
  refine (Checks.returns_mapM_map fun event hmem =>
    WireOutboxEvent.toCore_returns (h.events event hmem)).map.cast ?_
  simp [TradeTransaction.toWire]

/-- What the server converts and normalises. -/
theorem server_accepts_iff {value : TradeTransaction} (h : value.InRange) :
    (∃ request normal, value.toWire.toCore = .ok request ∧
      normalizeTradeTransaction request = .ok normal) ↔
      (∀ text ∈ value.texts, Fits blank text) ∧ TradeRules value ∧
        (value.writes.map (·.record)).Nodup ∧
        ∀ event ∈ value.outboxEvents, isRelayTopic event.topic = false := by
  have hcore := WireApplyTradeTransactionRequest.toCore_returns h
  rw [TradeTransaction.forall_mem_texts]
  constructor
  · rintro ⟨request, normal, hrequest, hnormal⟩
    obtain ⟨⟨hid, hwrites, hpostings, hevents, htrade, hw, hp, he⟩, hsame⟩ :=
      (hcore request).mp hrequest
    rw [hsame] at hnormal
    have hwf := normalizeTrade_isOk.mp ⟨normal, hnormal⟩
    refine ⟨⟨hid, htrade, hw, hp, fun e hmem => (he e hmem).1⟩, ?_, hwf.recordKeys,
      fun e hmem => (hwf.events e hmem).2.2.2⟩
    have hnonempty : value.writes.length ≠ 0 := fun hzero =>
      hwf.writes (List.length_eq_zero_iff.mp hzero)
    exact ⟨⟨hnonempty, hwrites⟩, hpostings, hevents, hwf.create_iff, hwf.transition,
      fun p hmem => (hwf.postings p hmem).2.2.2, hwf.postingIds, hwf.balanced,
      fun e hmem => (he e hmem).2, hwf.eventIds⟩
  · rintro ⟨⟨hid, htrade, hw, hp, he⟩, hrules, hrecords, hrelay⟩
    have hconverted := (hcore value).mpr ⟨⟨hid, hrules.writes.2, hrules.postings, hrules.events,
      htrade, hw, hp, fun e hmem => ⟨he e hmem, hrules.topics e hmem⟩⟩, rfl⟩
    have hwf : WellFormedTrade value := by
      refine ⟨hid.1, htrade.1, ?_, hrules.create_iff, hrules.transition, fun w hmem => ?_, hrecords,
        fun p hmem => ?_, hrules.postingIds, hrules.balanced, fun e hmem => ?_, hrules.eventIds⟩
      · intro hnil
        exact hrules.writes.1 (List.length_eq_zero_iff.mpr hnil)
      · obtain ⟨⟨hns, hkey⟩, -⟩ := w.forall_mem_texts.mp (hw w hmem)
        exact ⟨hns.1, hkey.1⟩
      · obtain ⟨hpid, haccount, hasset⟩ := p.forall_mem_texts.mp (hp p hmem)
        exact ⟨hpid.1, haccount.1, hasset.1, hrules.amounts p hmem⟩
      · obtain ⟨heid, htopic, hkey⟩ := e.forall_mem_texts.mp (he e hmem)
        exact ⟨heid.1, hkey.1, htopic.1, hrelay e hmem⟩
    obtain ⟨normal, hnormal⟩ := normalizeTrade_isOk.mpr hwf
    exact ⟨value, normal, hconverted, hnormal⟩

/-! ### Where they differ -/

/-- Only white space that both sides trim. -/
def BlankOnBoth (s : String) : Prop := ∀ c ∈ s.toList, isWhiteSpace c = true ∧ c ≠ '\u0085'

instance (s : String) : Decidable (BlankOnBoth s) :=
  List.decidableBAll (fun c => isWhiteSpace c = true ∧ c ≠ '\u0085') s.toList

/-- Blank for the SDK alone: `String.prototype.trim` strips `U+FEFF`. -/
def BlankInSdk (s : String) : Prop :=
  '\uFEFF' ∈ s.toList ∧
    ∀ c ∈ s.toList, c = '\uFEFF' ∨ (isWhiteSpace c = true ∧ c ≠ '\u0085')

instance (s : String) : Decidable (BlankInSdk s) :=
  @instDecidableAnd _ _ (inferInstanceAs (Decidable ('\uFEFF' ∈ s.toList)))
    (List.decidableBAll (fun c => c = '\uFEFF' ∨ (isWhiteSpace c = true ∧ c ≠ '\u0085')) s.toList)

/-- Blank for the server alone: `str::trim` strips `U+0085`. -/
def BlankOnServer (s : String) : Prop :=
  '\u0085' ∈ s.toList ∧ ∀ c ∈ s.toList, isWhiteSpace c = true

instance (s : String) : Decidable (BlankOnServer s) :=
  @instDecidableAnd _ _ (inferInstanceAs (Decidable ('\u0085' ∈ s.toList)))
    (List.decidableBAll (fun c => isWhiteSpace c = true) s.toList)

theorem ecmaWhiteSpace_iff (c : Char) : Sdk.ecmaWhiteSpace c.toNat = true ↔
    c = '\uFEFF' ∨ (isWhiteSpace c = true ∧ c ≠ '\u0085') := by
  have hbom : c = '\uFEFF' ↔ c.toNat = 0xFEFF := Char.toNat_inj.symm
  have hnel : c = '\u0085' ↔ c.toNat = 0x85 := Char.toNat_inj.symm
  rw [Sdk.ecmaWhiteSpace_eq_true, ne_eq, hbom, hnel]
  simp only [isWhiteSpace, Bool.or_eq_true, Bool.and_eq_true, decide_eq_true_eq, beq_iff_eq]
  omega

theorem jsBlank_eq_false_iff {s : String} :
    Sdk.jsBlank s = false ↔ ¬ BlankOnBoth s ∧ ¬ BlankInSdk s := by
  rw [← Bool.not_eq_true, Sdk.jsBlank, List.all_eq_true, ← not_or]
  refine not_congr ⟨fun h => ?_, ?_⟩
  · have hall : ∀ c ∈ s.toList, c = '\uFEFF' ∨ (isWhiteSpace c = true ∧ c ≠ '\u0085') :=
      fun c hc => (ecmaWhiteSpace_iff c).mp (h c hc)
    by_cases hbom : '\uFEFF' ∈ s.toList
    · exact Or.inr ⟨hbom, hall⟩
    · exact Or.inl fun c hc => (hall c hc).resolve_left fun heq => hbom (heq ▸ hc)
  · rintro (hboth | ⟨-, hall⟩) c hc
    · exact (ecmaWhiteSpace_iff c).mpr (Or.inr (hboth c hc))
    · exact (ecmaWhiteSpace_iff c).mpr (hall c hc)

theorem blank_eq_false_iff {s : String} :
    blank s = false ↔ ¬ BlankOnBoth s ∧ ¬ BlankOnServer s := by
  rw [← Bool.not_eq_true, blank, List.all_eq_true, ← not_or]
  refine not_congr ⟨fun h => ?_, ?_⟩
  · by_cases hnel : '\u0085' ∈ s.toList
    · exact Or.inr ⟨hnel, h⟩
    · exact Or.inl fun c hc => ⟨h c hc, fun heq => hnel (heq ▸ hc)⟩
  · rintro (hboth | ⟨-, hall⟩) c hc
    · exact (hboth c hc).1
    · exact hall c hc

/-- Everything both sides demand: the rules, distinct records, and texts within
their limits that are not blank for both. -/
structure SharedRules (value : TradeTransaction) : Prop where
  rules : TradeRules value
  records : (value.writes.map (·.record)).Nodup
  texts : ∀ text ∈ value.texts, ¬ BlankOnBoth text.1 ∧ text.1.utf8ByteSize ≤ text.2

/-- Two different records that the SDK joins to one name. -/
def NamesCollide (value : TradeTransaction) : Prop :=
  ∃ w₁ ∈ value.writes, ∃ w₂ ∈ value.writes,
    w₁.record ≠ w₂.record ∧ w₁.record.joinedName = w₂.record.joinedName

/-- What only the SDK refuses. -/
def SdkOnlyDefect (value : TradeTransaction) : Prop :=
  (∃ text ∈ value.texts, BlankInSdk text.1) ∨ NamesCollide value

/-- What only the server refuses. -/
def ServerOnlyDefect (value : TradeTransaction) : Prop :=
  (∃ text ∈ value.texts, BlankOnServer text.1) ∨
    ∃ event ∈ value.outboxEvents, isRelayTopic event.topic = true

theorem nodup_joinedName_iff {value : TradeTransaction} :
    (value.writes.map (·.record.joinedName)).Nodup ↔
      (value.writes.map (·.record)).Nodup ∧ ¬ NamesCollide value := by
  have hmap : value.writes.map (·.record.joinedName) =
      (value.writes.map (·.record)).map RecordKey.joinedName := by
    rw [List.map_map]
    rfl
  rw [hmap]
  constructor
  · intro h
    have hrecords := h.of_map
    refine ⟨hrecords, ?_⟩
    rintro ⟨w₁, h₁, w₂, h₂, hne, heq⟩
    exact hne ((List.nodup_map_iff_inj_on hrecords).mp h _ (List.mem_map_of_mem h₁) _
      (List.mem_map_of_mem h₂) heq)
  · rintro ⟨hrecords, hno⟩
    refine (List.nodup_map_iff_inj_on hrecords).mpr fun r₁ h₁ r₂ h₂ heq => ?_
    obtain ⟨w₁, hw₁, rfl⟩ := List.mem_map.mp h₁
    obtain ⟨w₂, hw₂, rfl⟩ := List.mem_map.mp h₂
    by_contra hne
    exact hno ⟨w₁, hw₁, w₂, hw₂, hne, heq⟩

/-- The texts of one side: within their limits, not blank for both, not blank for this
side alone. -/
theorem forall_fits_iff {isBlank : String → Bool} {BlankHere : String → Prop}
    (h : ∀ {s}, isBlank s = false ↔ ¬ BlankOnBoth s ∧ ¬ BlankHere s) {texts : List (String × ℕ)} :
    (∀ text ∈ texts, Fits isBlank text) ↔
      (∀ text ∈ texts, ¬ BlankOnBoth text.1 ∧ text.1.utf8ByteSize ≤ text.2) ∧
        ¬ ∃ text ∈ texts, BlankHere text.1 := by
  constructor
  · intro hfits
    refine ⟨fun text hmem => ⟨(h.mp (hfits text hmem).1).1, (hfits text hmem).2⟩, ?_⟩
    rintro ⟨text, hmem, hblank⟩
    exact (h.mp (hfits text hmem).1).2 hblank
  · rintro ⟨hshared, hnone⟩ text hmem
    obtain ⟨hboth, hsize⟩ := hshared text hmem
    exact ⟨h.mpr ⟨hboth, fun hblank => hnone ⟨text, hmem, hblank⟩⟩, hsize⟩

theorem sdk_accepts_iff_no_defect {value : TradeTransaction} (h : value.InRange) :
    (∃ copy, Sdk.cloneTradeTransaction value.toSdk = .ok copy) ↔
      SharedRules value ∧ ¬ SdkOnlyDefect value := by
  rw [sdk_accepts_iff h, nodup_joinedName_iff, forall_fits_iff jsBlank_eq_false_iff, SdkOnlyDefect,
    not_or]
  constructor
  · rintro ⟨⟨htexts, hblank⟩, hrules, hrecords, hnames⟩
    exact ⟨⟨hrules, hrecords, htexts⟩, hblank, hnames⟩
  · rintro ⟨⟨hrules, hrecords, htexts⟩, hblank, hnames⟩
    exact ⟨⟨htexts, hblank⟩, hrules, hrecords, hnames⟩

theorem server_accepts_iff_no_defect {value : TradeTransaction} (h : value.InRange) :
    (∃ request normal, value.toWire.toCore = .ok request ∧
      normalizeTradeTransaction request = .ok normal) ↔
      SharedRules value ∧ ¬ ServerOnlyDefect value := by
  have htopics : (∀ event ∈ value.outboxEvents, isRelayTopic event.topic = false) ↔
      ¬ ∃ event ∈ value.outboxEvents, isRelayTopic event.topic = true := by
    simp
  rw [server_accepts_iff h, htopics, forall_fits_iff blank_eq_false_iff, ServerOnlyDefect, not_or]
  constructor
  · rintro ⟨⟨htexts, hblank⟩, hrules, hrecords, hrelay⟩
    exact ⟨⟨hrules, hrecords, htexts⟩, hblank, hrelay⟩
  · rintro ⟨⟨hrules, hrecords, htexts⟩, hblank, hrelay⟩
    exact ⟨⟨htexts, hblank⟩, hrules, hrecords, hrelay⟩

/-- **The validators agree** on a trade exactly when it breaks a rule that both
check, or when it has something only the SDK refuses exactly when it has something
only the server refuses. -/
theorem trade_validators_agree_iff (value : TradeTransaction) (h : value.InRange) :
    ((∃ copy, Sdk.cloneTradeTransaction value.toSdk = .ok copy) ↔
      ∃ request normal, value.toWire.toCore = .ok request ∧
        normalizeTradeTransaction request = .ok normal) ↔
      (SharedRules value → (SdkOnlyDefect value ↔ ServerOnlyDefect value)) := by
  rw [sdk_accepts_iff_no_defect h, server_accepts_iff_no_defect h]
  rw [and_congr_right_iff, not_iff_not]

/-- An offer with one event. -/
def smallOffer (topic : String) : TradeTransaction where
  operationId := "offer-1"
  transition := ⟨"trade-1", 0, none, .proposed, [], 0⟩
  writes := [⟨⟨"player", "1"⟩, "player.v1", 1, 0, [7], 0⟩]
  ledgerPostings := []
  outboxEvents := [⟨"event-1", topic, "player-1", [], 0⟩]
  result := []

theorem smallOffer_inRange (topic : String) : (smallOffer topic).InRange := by
  constructor <;> simp [smallOffer, TransactionalRecordWrite.InRange]

theorem smallOffer_shared {topic : String} (htopic : topic.toList.all isTopicChar = true)
    (htexts : ∀ text ∈ (smallOffer topic).texts,
      ¬ BlankOnBoth text.1 ∧ text.1.utf8ByteSize ≤ text.2) : SharedRules (smallOffer topic) := by
  refine ⟨⟨by simp [smallOffer, maxTransactionRecords], by simp [smallOffer],
    by simp [smallOffer, maxOutboxEvents], by simp [smallOffer], rfl, by simp [smallOffer],
    by simp [smallOffer], fun asset => rfl, ?_, by simp [smallOffer]⟩, by simp [smallOffer], htexts⟩
  intro event hmem
  obtain rfl := List.mem_singleton.mp hmem
  exact htopic

/-- An offer with a topic of its own is sent and accepted. -/
theorem trade_validators_agree_iff_plain :
    (smallOffer "market.offers").InRange ∧ SharedRules (smallOffer "market.offers") ∧
      ((∃ copy, Sdk.cloneTradeTransaction (smallOffer "market.offers").toSdk = .ok copy) ↔
        ∃ request normal, (smallOffer "market.offers").toWire.toCore = .ok request ∧
          normalizeTradeTransaction request = .ok normal) := by
  have hrange := smallOffer_inRange "market.offers"
  have hshared : SharedRules (smallOffer "market.offers") :=
    smallOffer_shared (by decide) (by decide)
  refine ⟨hrange, hshared, (trade_validators_agree_iff _ hrange).mpr fun _ => ?_⟩
  refine iff_of_false ?_ ?_
  · rintro (⟨text, hmem, hblank⟩ | ⟨w₁, h₁, w₂, h₂, hne, -⟩)
    · have hnone : ∀ text ∈ (smallOffer "market.offers").texts, ¬ BlankInSdk text.1 := by decide
      exact hnone text hmem hblank
    · obtain rfl := List.mem_singleton.mp h₁
      obtain rfl := List.mem_singleton.mp h₂
      exact hne rfl
  · rintro (⟨text, hmem, hblank⟩ | ⟨event, hmem, hrelay⟩)
    · have hnone : ∀ text ∈ (smallOffer "market.offers").texts, ¬ BlankOnServer text.1 := by decide
      exact hnone text hmem hblank
    · obtain rfl := List.mem_singleton.mp hmem
      exact absurd hrelay (by decide)

/-- An offer whose event has a topic of the relay: the SDK sends it and the server
refuses it. -/
theorem trade_validators_differ_on_relay :
    ¬ ∀ value : TradeTransaction, value.InRange →
      ((∃ copy, Sdk.cloneTradeTransaction value.toSdk = .ok copy) ↔
        ∃ request normal, value.toWire.toCore = .ok request ∧
          normalizeTradeTransaction request = .ok normal) := by
  intro hagree
  have hrange := smallOffer_inRange "dbproxy.relay.v1.game.1"
  have hsdk : ∃ copy, Sdk.cloneTradeTransaction (smallOffer "dbproxy.relay.v1.game.1").toSdk =
      .ok copy := by
    have hshared : SharedRules (smallOffer "dbproxy.relay.v1.game.1") :=
      smallOffer_shared (by decide) (by decide)
    refine (sdk_accepts_iff hrange).mpr ⟨?_, hshared.rules, ?_⟩
    · decide
    · exact List.nodup_singleton _
  obtain ⟨-, -, -, hrelay⟩ := (server_accepts_iff hrange).mp ((hagree _ hrange).mp hsdk)
  exact absurd (hrelay _ (List.mem_singleton_self _)) (by decide)

end DbProxy
