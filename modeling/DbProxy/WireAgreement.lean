/-
Writes that arrive from the network, on PostgreSQL and on the volatile backend.

The conversions refuse blank names and schemas, so of what the tables ask only three
things are left: that no text contains U+0000, that the numbers fit a `BIGINT` and that
no event is for the relay.  Then both stores accept the same writes with the same answers
and end with the same snapshots and the same trades (`wire_writes_agree`).  The
conversions let U+0000 through, and there the stores differ (`nul_key_disagrees`).
-/
import DbProxy.PostgresAgreement
import DbProxy.WireRequests

namespace DbProxy

open Text Checks

/-! ### Calls that a conversion yields -/

/-- The call comes out of the conversions of a request. -/
def StoreCall.FromWire : StoreCall → Prop
  | save request => ∃ value : WireSaveSnapshotRequest, value.toSnapshotWrite = .ok request
  | applyTransaction request =>
    ∃ value : WireApplyTransactionRequest, value.toTransactionalWrite = .ok request
  | commitRecords request effects => ∃ value : WireCommitRecordsRequest,
    request.operationId = value.operationId ∧ request.result = value.result ∧
      value.writes.mapM WireTransactionalRecordWrite.toCore = .ok request.writes ∧
      value.appends.mapM WireAppendRecord.toCore = .ok effects.appends ∧
      value.outboxEvents.mapM WireOutboxEvent.toCore = .ok effects.outboxEvents
  | applyTradeTransaction request =>
    ∃ value : WireApplyTradeTransactionRequest, value.toCore = .ok request

def TransactionalRecordWrite.boundTexts (w : TransactionalRecordWrite) : List String :=
  [w.record.ns, w.record.key, w.schema]

def AppendRecord.boundTexts (append : AppendRecord) : List String :=
  [append.record.ns, append.record.key, append.schema]

def OutboxEvent.boundTexts (event : OutboxEvent) : List String :=
  [event.eventId, event.topic, event.partitionKey]

def LedgerPosting.boundTexts (posting : LedgerPosting) : List String :=
  [posting.postingId, posting.accountId, posting.asset]

/-- The texts of a call. -/
def StoreCall.boundTexts : StoreCall → List String
  | save request => [request.requestId, request.record.ns, request.record.key, request.schema]
  | applyTransaction request =>
    [request.operationId, request.record.ns, request.record.key, request.schema]
  | commitRecords request effects => request.operationId ::
    (request.writes.flatMap (·.boundTexts) ++ effects.appends.flatMap (·.boundTexts) ++
      effects.outboxEvents.flatMap (·.boundTexts))
  | applyTradeTransaction request => request.operationId :: request.transition.tradeId ::
    (request.writes.flatMap (·.boundTexts) ++ request.ledgerPostings.flatMap (·.boundTexts) ++
      request.outboxEvents.flatMap (·.boundTexts))

/-- The expected revisions and versions and the times of a call. -/
def StoreCall.numbers : StoreCall → List ℕ
  | save request => request.updatedAtUnixMs :: request.expectedRevision.toList
  | applyTransaction request => [request.expectedRevision, request.updatedAtUnixMs]
  | commitRecords request effects =>
    request.writes.flatMap (fun w => [w.expectedRevision, w.updatedAtUnixMs]) ++
      effects.appends.map (·.occurredAtUnixMs) ++ effects.outboxEvents.map (·.occurredAtUnixMs)
  | applyTradeTransaction request =>
    request.transition.expectedVersion :: request.transition.updatedAtUnixMs ::
      (request.writes.flatMap (fun w => [w.expectedRevision, w.updatedAtUnixMs]) ++
        request.outboxEvents.map (·.occurredAtUnixMs))

/-- The topics of the events of a call. -/
def StoreCall.topics : StoreCall → List String
  | save _ | applyTransaction _ => []
  | commitRecords _ effects => effects.outboxEvents.map (·.topic)
  | applyTradeTransaction request => request.outboxEvents.map (·.topic)

/-! ### What the conversions check -/

theorem WireRecordKey.toCore_named {value : WireRecordKey} {record : RecordKey}
    (h : value.toCore = .ok record) : record.Named := by
  have hrecord := (toCore_ok h).1
  obtain ⟨_, hns, h⟩ := bind_eq_ok.mp h
  obtain ⟨_, hkey, -⟩ := bind_eq_ok.mp h
  rw [hrecord]
  exact ⟨(validateText_eq_ok.mp hns).1, (validateText_eq_ok.mp hkey).1⟩

theorem WireTransactionalRecordWrite.toCore_named {value : WireTransactionalRecordWrite}
    {w : TransactionalRecordWrite} (h : value.toCore = .ok w) :
    w.record.Named ∧ blank w.schema = false := by
  obtain ⟨_, hschema, h⟩ := bind_eq_ok.mp h
  obtain ⟨record, hrecord, h⟩ := bind_eq_ok.mp h
  obtain rfl := Except.ok.inj h
  obtain ⟨_, -, hcore⟩ := requireField_eq_ok.mp hrecord
  exact ⟨WireRecordKey.toCore_named hcore, (validateText_eq_ok.mp hschema).1⟩

theorem toCore_writes_named {values : List WireTransactionalRecordWrite}
    {writes : List TransactionalRecordWrite}
    (h : values.mapM WireTransactionalRecordWrite.toCore = .ok writes) :
    ∀ w ∈ writes, w.record.Named ∧ blank w.schema = false := by
  intro w hw
  obtain ⟨_, -, hvalue⟩ := exists_of_forall₂_right (mapM_eq_ok.mp h) hw
  exact WireTransactionalRecordWrite.toCore_named hvalue

/-- What is left of the conditions of the tables. -/
structure StoreCall.Plain (c : StoreCall) : Prop where
  texts : Bindable c.boundTexts
  numbers : ∀ n ∈ c.numbers, n < bigintLimit
  topics : ∀ topic ∈ c.topics, isRelayTopic topic = false

theorem bindable_iff {texts : List String} :
    Bindable texts ↔ ∀ text ∈ texts, hasNul text = false := by
  rw [Bindable, List.any_eq_false]
  simp only [Bool.not_eq_true]

section Parts

variable {routes : OutboxRoutes} {operationId : String}

theorem storableWrite_of_wire {w : TransactionalRecordWrite} (hid : hasNul operationId = false)
    (hnamed : w.record.Named ∧ blank w.schema = false)
    (htexts : ∀ text ∈ w.boundTexts, hasNul text = false)
    (hnumbers : ∀ n ∈ [w.expectedRevision, w.updatedAtUnixMs], n < bigintLimit) :
    StorableWrite operationId w where
  keys := hnamed.1
  schema := hnamed.2
  texts := bindable_iff.mpr (List.forall_mem_cons.mpr ⟨hid, htexts⟩)
  expected := hnumbers _ (List.mem_cons_self ..)
  time := hnumbers _ (by simp)

theorem storableAppend_of_wire {append : AppendRecord} (hid : hasNul operationId = false)
    (htexts : ∀ text ∈ append.boundTexts, hasNul text = false)
    (htime : append.occurredAtUnixMs < bigintLimit) : StorableAppend operationId append where
  texts := by
    simp only [AppendRecord.boundTexts, bindable_iff, List.forall_mem_cons] at htexts ⊢
    exact ⟨htexts.1, htexts.2.1, hid, htexts.2.2⟩
  time := htime

theorem storableEvent_of_wire {event : OutboxEvent} (hid : hasNul operationId = false)
    (htexts : ∀ text ∈ event.boundTexts, hasNul text = false)
    (htime : event.occurredAtUnixMs < bigintLimit) (htopic : isRelayTopic event.topic = false) :
    StorableEvent routes operationId event where
  texts := by
    simp only [OutboxEvent.boundTexts, bindable_iff, List.forall_mem_cons] at htexts ⊢
    exact ⟨htexts.1, hid, htexts.2⟩
  time := htime
  routed hrelay := by
    rw [htopic] at hrelay
    cases hrelay

theorem storablePosting_of_wire {posting : LedgerPosting} {tradeId : String}
    (hid : hasNul operationId = false) (htrade : hasNul tradeId = false)
    (htexts : ∀ text ∈ posting.boundTexts, hasNul text = false) :
    Bindable [posting.postingId, operationId, tradeId, posting.accountId, posting.asset] := by
  simp only [LedgerPosting.boundTexts, bindable_iff, List.forall_mem_cons] at htexts ⊢
  exact ⟨htexts.1, hid, htrade, htexts.2⟩

end Parts

/-- A plain call from the network can be stored, whatever the routes are. -/
theorem storable_of_wire (routes : OutboxRoutes) {c : StoreCall} (hwire : c.FromWire)
    (hplain : c.Plain) : c.Storable routes := by
  obtain ⟨htexts, hnumbers, htopics⟩ := hplain
  cases c with
  | save request =>
    obtain ⟨value, hvalue⟩ := hwire
    obtain ⟨⟨record, -, hcore⟩, -⟩ := WireSaveSnapshotRequest.toSnapshotWrite_ok hvalue
    refine ⟨WireRecordKey.toCore_named hcore, htexts, fun revision hrevision => ?_,
      hnumbers _ (List.mem_cons_self ..)⟩
    exact hnumbers revision (List.mem_cons_of_mem _ (by simp [hrevision]))
  | applyTransaction request =>
    obtain ⟨value, hvalue⟩ := hwire
    obtain ⟨⟨record, -, hcore⟩, -⟩ := WireApplyTransactionRequest.toTransactionalWrite_ok hvalue
    exact ⟨WireRecordKey.toCore_named hcore, htexts, hnumbers _ (by simp [StoreCall.numbers]),
      hnumbers _ (by simp [StoreCall.numbers])⟩
  | commitRecords request effects =>
    obtain ⟨value, -, -, hwrites, -⟩ := hwire
    simp only [StoreCall.boundTexts, bindable_iff, List.forall_mem_cons, List.forall_mem_append,
      List.forall_mem_flatMap] at htexts
    simp only [StoreCall.numbers, List.forall_mem_append, List.forall_mem_flatMap,
      List.forall_mem_map] at hnumbers
    obtain ⟨hid, ⟨hwriteTexts, happendTexts⟩, heventTexts⟩ := htexts
    obtain ⟨⟨hwriteNumbers, happendTimes⟩, heventTimes⟩ := hnumbers
    have hnamed := toCore_writes_named hwrites
    exact {
      id := bindable_iff.mpr (List.forall_mem_singleton.mpr hid)
      writes := fun w hw =>
        storableWrite_of_wire hid (hnamed w hw) (hwriteTexts w hw) (hwriteNumbers w hw)
      appends := fun append hmem =>
        storableAppend_of_wire hid (happendTexts append hmem) (happendTimes append hmem)
      events := fun event hmem => storableEvent_of_wire hid (heventTexts event hmem)
        (heventTimes event hmem) (htopics _ (List.mem_map_of_mem hmem)) }
  | applyTradeTransaction request =>
    obtain ⟨value, hvalue⟩ := hwire
    obtain ⟨-, -, -, hwrites, -⟩ := WireApplyTradeTransactionRequest.toCore_ok hvalue
    simp only [StoreCall.boundTexts, bindable_iff, List.forall_mem_cons, List.forall_mem_append,
      List.forall_mem_flatMap] at htexts
    obtain ⟨hid, htrade, ⟨hwriteTexts, hpostingTexts⟩, heventTexts⟩ := htexts
    obtain ⟨hversion, hnumbers⟩ := List.forall_mem_cons.mp hnumbers
    obtain ⟨htime, hnumbers⟩ := List.forall_mem_cons.mp hnumbers
    simp only [List.forall_mem_append, List.forall_mem_flatMap, List.forall_mem_map] at hnumbers
    obtain ⟨hwriteNumbers, heventTimes⟩ := hnumbers
    have hnamed := toCore_writes_named hwrites
    exact {
      texts := bindable_iff.mpr
        (List.forall_mem_cons.mpr ⟨hid, List.forall_mem_singleton.mpr htrade⟩)
      version := hversion
      time := htime
      writes := fun w hw =>
        storableWrite_of_wire hid (hnamed w hw) (hwriteTexts w hw) (hwriteNumbers w hw)
      postings := fun posting hmem =>
        storablePosting_of_wire hid htrade (hpostingTexts posting hmem)
      events := fun event hmem => storableEvent_of_wire hid (heventTexts event hmem)
        (heventTimes event hmem) (htopics _ (List.mem_map_of_mem hmem)) }

/-! ### Agreement -/

/-- The row that holds a trade. -/
def TradeEnvelope.row (trade : TradeEnvelope) : TradeRow :=
  ⟨trade.version, trade.state.toI16, trade.payload, trade.updatedAtUnixMs⟩

theorem trade_row_eq {row : Option TradeRow} {stored : Option TradeEnvelope} {tradeId : String}
    (h : Option.Rel (fun row trade => PostgresSnapshotStore.SameTradeState row trade ∧
      trade.tradeId = tradeId) row stored) :
    row = stored.map (·.row) ∧ ∀ trade, stored = some trade → trade.tradeId = tradeId := by
  cases h with
  | none => exact ⟨rfl, fun _ htrade => by cases htrade⟩
  | some hsame =>
    refine ⟨congrArg some hsame.1, ?_⟩
    rintro _ ⟨⟩
    exact hsame.2

section Agreement

variable {D : Type} [DecidableEq D] (cfg : MemoryConfig D) (encode : CommitEffects → Bytes)
  (routes : OutboxRoutes) (calls : List StoreCall)

/-- Both stores start empty and run the same writes from the network one after the other.
Every write gets the same answer, and the snapshots and trades at the end are the same.
The condition `hbelow` says that the revisions and versions at the end fit a `BIGINT`. -/
theorem wire_writes_agree (hwire : ∀ c ∈ calls, c.FromWire) (hplain : ∀ c ∈ calls, c.Plain)
    (hbelow : (performAll ({} : MemoryBackend cfg)
      (calls.map (·.backend))).2.view.Below bigintLimit)
    (hdigest : TellsApart cfg.digest (calls.flatMap (·.inputs)))
    (hencode : Set.InjOn encode (committedEffects cfg.decodeEnvelope calls)) :
    let postgres := PostgresSnapshotStore.performAll cfg.decodeEnvelope encode { routes } calls
    let memory := performAll ({} : MemoryBackend cfg) (calls.map (·.backend))
    postgres.1.map (fun answer => accepted answer.backend) = memory.1.map accepted ∧
      (∀ record, (postgres.2.base.snapshots record).map
        (PostgresSnapshotStore.snapshotFromRow record) = memory.2.view.snapshots record) ∧
      (∀ tradeId, postgres.2.trades tradeId = (memory.2.view.trades tradeId).map (·.row)) ∧
      ∀ tradeId trade, memory.2.view.trades tradeId = some trade → trade.tradeId = tradeId := by
  intro postgres memory
  have hstorable : ∀ c ∈ calls, c.Storable routes := fun c hc =>
    storable_of_wire routes (hwire c hc) (hplain c hc)
  obtain ⟨hanswers, hfollows⟩ :=
    performAll_follows cfg encode routes calls hstorable hbelow hdigest hencode
  exact ⟨hanswers, fun record => (hfollows.snapshots record).symm,
    fun tradeId => (trade_row_eq (hfollows.states tradeId)).1,
    fun tradeId => (trade_row_eq (hfollows.states tradeId)).2⟩

end Agreement

/-! ### Runs on both stores -/

/-- A save and its retry, a save that expects another revision, a commit with an append and
an event, and a trade with two postings. -/
def networkCalls : List StoreCall :=
  [.save ⟨"r-1", ⟨"player", "a"⟩, "bag", 1, [3], none, 10⟩,
    .save ⟨"r-1", ⟨"player", "a"⟩, "bag", 1, [3], none, 10⟩,
    .save ⟨"r-2", ⟨"player", "a"⟩, "bag", 1, [4], some 5, 10⟩,
    .commitRecords ⟨"op-1", [⟨⟨"player", "b"⟩, "bag", 1, 0, [2], 10⟩,
        ⟨⟨"player", "a"⟩, "bag", 1, 1, [4], 10⟩], [8]⟩
      ⟨[⟨⟨"log", "1"⟩, "entry", 1, [5], 10⟩], [⟨"event-1", "game.bag", "a", [6], 10⟩]⟩,
    .applyTradeTransaction ⟨"op-2", ⟨"trade-1", 0, none, .escrowed, [5], 10⟩,
      [⟨⟨"player", "a"⟩, "bag", 1, 2, [6], 10⟩],
      [⟨"posting-1", "a", "gold", -3, []⟩, ⟨"posting-2", "b", "gold", 3, []⟩], [], [9]⟩]

theorem networkCalls_fromWire : ∀ c ∈ networkCalls, c.FromWire := by
  rw [networkCalls]
  refine List.forall_mem_cons.mpr ⟨?_, ?_⟩
  · exact ⟨⟨"r-1", some ⟨"player", "a"⟩, "bag", 1, [3], none, 10⟩, by rfl⟩
  refine List.forall_mem_cons.mpr ⟨?_, ?_⟩
  · exact ⟨⟨"r-1", some ⟨"player", "a"⟩, "bag", 1, [3], none, 10⟩, by rfl⟩
  refine List.forall_mem_cons.mpr ⟨?_, ?_⟩
  · exact ⟨⟨"r-2", some ⟨"player", "a"⟩, "bag", 1, [4], some 5, 10⟩, by rfl⟩
  refine List.forall_mem_cons.mpr ⟨?_, ?_⟩
  · exact ⟨⟨"op-1", [⟨some ⟨"player", "b"⟩, "bag", 1, 0, [2], 10⟩,
      ⟨some ⟨"player", "a"⟩, "bag", 1, 1, [4], 10⟩], [8],
      [⟨some ⟨"log", "1"⟩, "entry", 1, [5], 10⟩], [⟨"event-1", "game.bag", "a", [6], 10⟩]⟩,
      by rfl, by rfl, by rfl, by rfl, by rfl⟩
  · refine List.forall_mem_singleton.mpr ⟨⟨"op-2", some ⟨"trade-1", 0, none, 2, [5], 10⟩,
      [⟨some ⟨"player", "a"⟩, "bag", 1, 2, [6], 10⟩],
      [⟨"posting-1", "a", "gold", -3, []⟩, ⟨"posting-2", "b", "gold", 3, []⟩], [], [9]⟩, by rfl⟩

theorem networkCalls_plain : ∀ c ∈ networkCalls, c.Plain := by
  have hplain : ∀ c ∈ networkCalls, Bindable c.boundTexts ∧
      (∀ n ∈ c.numbers, n < bigintLimit) ∧ ∀ topic ∈ c.topics, isRelayTopic topic = false := by
    decide +kernel
  exact fun c hc => ⟨(hplain c hc).1, (hplain c hc).2.1, (hplain c hc).2.2⟩

theorem networkCalls_effects {decode : Bytes → Option EventEnvelope} :
    (committedEffects decode networkCalls).Subsingleton := by
  rintro normal ⟨request, effects, hmem, hnormal⟩ normal' ⟨request', effects', hmem', hnormal'⟩
  simp only [networkCalls, List.mem_cons, reduceCtorEq, false_or, List.not_mem_nil, or_false,
    StoreCall.commitRecords.injEq] at hmem hmem'
  rw [hmem.2] at hnormal
  rw [hmem'.2, hnormal] at hnormal'
  exact Except.ok.inj hnormal'

theorem wire_writes_agree_network :
    let postgres := PostgresSnapshotStore.performAll plainConfig.decodeEnvelope sampleEncode {}
      networkCalls
    let memory := performAll ({} : MemoryBackend plainConfig) (networkCalls.map (·.backend))
    postgres.1.map (fun answer => accepted answer.backend) = memory.1.map accepted ∧
      (∀ record, (postgres.2.base.snapshots record).map
        (PostgresSnapshotStore.snapshotFromRow record) = memory.2.view.snapshots record) ∧
      (∀ tradeId, postgres.2.trades tradeId = (memory.2.view.trades tradeId).map (·.row)) ∧
      ∀ tradeId trade, memory.2.view.trades tradeId = some trade → trade.tradeId = tradeId :=
  wire_writes_agree plainConfig sampleEncode {} networkCalls networkCalls_fromWire
    networkCalls_plain (performAll_below plainConfig networkCalls (by decide))
    (fun _ _ _ _ h => h) (networkCalls_effects.injOn _)

/-- A save of a record whose key contains U+0000. -/
def nulKeyCalls : List StoreCall :=
  [.save ⟨"r-1", ⟨"player", "a\x00"⟩, "bag", 1, [3], none, 10⟩]

/-- The conversions and the volatile backend accept the save, PostgreSQL refuses the key. -/
theorem nul_key_disagrees :
    ¬ ∀ calls : List StoreCall, (∀ c ∈ calls, c.FromWire) →
      (∀ c ∈ calls, ∀ n ∈ c.numbers, n < bigintLimit) →
      (∀ c ∈ calls, ∀ topic ∈ c.topics, isRelayTopic topic = false) →
      (performAll ({} : MemoryBackend plainConfig)
        (calls.map (·.backend))).2.view.Below bigintLimit →
      TellsApart plainConfig.digest (calls.flatMap (·.inputs)) →
      Set.InjOn sampleEncode (committedEffects plainConfig.decodeEnvelope calls) →
      (PostgresSnapshotStore.performAll plainConfig.decodeEnvelope sampleEncode {} calls).1.map
          (fun answer => accepted answer.backend) =
        (performAll ({} : MemoryBackend plainConfig) (calls.map (·.backend))).1.map accepted := by
  intro hagree
  have hwire : ∀ c ∈ nulKeyCalls, c.FromWire := List.forall_mem_singleton.mpr
    ⟨⟨"r-1", some ⟨"player", "a\x00"⟩, "bag", 1, [3], none, 10⟩, by rfl⟩
  have heffects : committedEffects plainConfig.decodeEnvelope nulKeyCalls = ∅ := by
    refine Set.eq_empty_of_forall_notMem ?_
    rintro normal ⟨request, effects, hmem, -⟩
    cases List.mem_singleton.mp hmem
  have hanswers := hagree nulKeyCalls hwire (by decide +kernel) (by decide)
    (performAll_below plainConfig nulKeyCalls (by decide)) (fun _ _ _ _ h => h)
    (heffects ▸ Set.injOn_empty _)
  have haccepted := congrArg (List.map fun answer => answer.2.isSome) hanswers
  exact absurd haccepted (by decide +kernel)

end DbProxy
