/-
Runs of the volatile backend.

A run is a list of completed calls, each with the reply it got.  `Applied` says
what an applied call does to the content of the store, field by field: what it
requires, what it writes, and that everything it does not name stays.  From one
case analysis (`exec_cases`) the run lemmas follow; `memory_all_or_nothing`
collects them.
-/
import DbProxy.MemoryOperations
import DbProxy.StepMachine
import Mathlib.Algebra.Ring.Nat

namespace DbProxy

open Text EarlyReturn KeyedMap MemoryBackend StepMachine

/-! ### Calls -/

/-- The calls that can change the backend. -/
inductive Call
  | save (request : SnapshotWrite)
  | applyTransaction (request : TransactionalWrite)
  | commitRecords (request : MultiRecordTransactionalWrite) (effects : CommitEffects)
  | applyTradeTransaction (request : TradeTransaction)
deriving DecidableEq

inductive Outcome
  | snapshot (outcome : SnapshotWriteOutcome)
  | transaction (outcome : TransactionalWriteOutcome)
  | records (outcome : MultiRecordTransactionalWriteOutcome)
  | trade (outcome : TradeTransactionOutcome)
deriving DecidableEq

/-- The call was applied now; otherwise it replays an earlier one. -/
def Outcome.isApplied : Outcome → Bool
  | .snapshot (.applied _) => true
  | .transaction (.applied _ _) => true
  | .records (.applied _ _) => true
  | .trade (.applied _) => true
  | _ => false

/-- What a call wants to write to one record. -/
structure RecordWrite where
  record : RecordKey
  schema : String
  schemaVersion : ℕ
  payload : Bytes
  updatedAtUnixMs : ℕ
  expectedRevision : Option Revision
deriving DecidableEq

def RecordWrite.envelope (w : RecordWrite) (revision : Revision) : SnapshotEnvelope :=
  ⟨w.record, w.schema, w.schemaVersion, revision, w.payload, w.updatedAtUnixMs⟩

def TransactionalRecordWrite.recordWrite (w : TransactionalRecordWrite) : RecordWrite :=
  ⟨w.record, w.schema, w.schemaVersion, w.payload, w.updatedAtUnixMs, some w.expectedRevision⟩

namespace Call

def writes : Call → List RecordWrite
  | .save r => [⟨r.record, r.schema, r.schemaVersion, r.payload, r.updatedAtUnixMs,
      r.expectedRevision⟩]
  | .applyTransaction r => [⟨r.record, r.schema, r.schemaVersion, r.payload, r.updatedAtUnixMs,
      some r.expectedRevision⟩]
  | .commitRecords r _ => r.writes.map (·.recordWrite)
  | .applyTradeTransaction r => r.writes.map (·.recordWrite)

def appends : Call → List AppendRecord
  | .commitRecords _ effects => effects.appends
  | _ => []

def ledgerPostings : Call → List LedgerPosting
  | .applyTradeTransaction r => r.ledgerPostings
  | _ => []

def outboxEvents : Call → List OutboxEvent
  | .commitRecords _ effects => effects.outboxEvents
  | .applyTradeTransaction r => r.outboxEvents
  | _ => []

def transition : Call → Option TradeTransition
  | .applyTradeTransaction r => some r.transition
  | _ => none

/-- Saves have a request id of their own and claim no operation id. -/
def operationId : Call → Option String
  | .save _ => none
  | .applyTransaction r => some r.operationId
  | .commitRecords r _ => some r.operationId
  | .applyTradeTransaction r => some r.operationId

def requestId : Call → Option String
  | .save r => some r.requestId
  | _ => none

section

variable {D : Type} [DecidableEq D] {cfg : MemoryConfig D}

def exec : Call → MemoryM cfg Outcome
  | .save r => do return .snapshot (← DbProxy.save r)
  | .applyTransaction r => do return .transaction (← DbProxy.applyTransaction r)
  | .commitRecords r effects => do return .records (← DbProxy.commitRecords r effects)
  | .applyTradeTransaction r => do return .trade (← DbProxy.applyTradeTransaction r)

end

end Call

section Runs

variable {D : Type} (cfg : MemoryConfig D)

/-- A call and the reply it got. -/
structure Completed where
  call : Call
  reply : Except Failure Outcome

def Completed.isApplied (e : Completed) : Bool :=
  match e.reply with
  | .ok o => o.isApplied
  | .error _ => false

/-- The receipt that an applied call leaves under its own id. -/
def StoredReceipt (v : StoreView D) : Call → Outcome → Prop
  | .save r, .snapshot (.applied revision) =>
    v.snapshotReceipts r.requestId =
      some ⟨r.record, SnapshotFingerprint.fromRequest cfg r, revision⟩
  | .applyTransaction r, .transaction (.applied revision result) =>
    v.operationKinds r.operationId = some .single ∧
      v.transactions r.operationId =
        some ⟨TransactionFingerprint.fromRequest cfg r, revision, result⟩
  | .commitRecords r effects, .records (.applied records result) =>
    ∃ normal normalEffects, normalizeMulti r = .ok normal ∧
      effects.normalize cfg.decodeEnvelope = .ok normalEffects ∧
      v.operationKinds r.operationId = some .multi ∧
      v.multiTransactions r.operationId =
        some ⟨normalEffects, MultiTransactionFingerprint.fromRequest cfg normal, records, result⟩
  | .applyTradeTransaction r, .trade (.applied receipt) =>
    ∃ normal, normalizeTradeTransaction r = .ok normal ∧
      v.operationKinds r.operationId = some .trade ∧
      v.tradeTransactions r.operationId = some ⟨normal, receipt⟩
  | _, _ => False

/-- The record writes of an applied call. -/
structure WritesRecords (c : Call) (v v' : StoreView D) : Prop where
  expected : ∀ w ∈ c.writes, ∀ e, w.expectedRevision = some e → v.revision w.record = e
  distinct : (c.writes.map (·.record)).Nodup
  /-- the new snapshot has the next revision and the new content -/
  written : ∀ w ∈ c.writes,
    v'.snapshots w.record = some (w.envelope (v.revision w.record + 1))
  otherRecords : ∀ record, record ∉ c.writes.map (·.record) →
    v'.snapshots record = v.snapshots record

/-- The append records, postings and events of an applied call. -/
structure CommitsEffects (c : Call) (v v' : StoreView D) : Prop where
  appendsFresh : ∀ a ∈ c.appends, v.identifiers.appends a.record = none
  appendsDistinct : (c.appends.map (·.record)).Nodup
  appended : ∀ a ∈ c.appends, v'.identifiers.appends a.record = some a
  otherAppends : ∀ record, record ∉ c.appends.map (·.record) →
    v'.identifiers.appends record = v.identifiers.appends record
  postingsFresh : ∀ p ∈ c.ledgerPostings, p.postingId ∉ v.identifiers.ledgerPostingIds
  postingsDistinct : (c.ledgerPostings.map (·.postingId)).Nodup
  balanced : ∀ asset, assetBalance asset c.ledgerPostings = 0
  posted : v'.identifiers.ledgerPostingIds =
    v.identifiers.ledgerPostingIds ∪ (c.ledgerPostings.map (·.postingId)).toFinset
  eventsFresh : ∀ e ∈ c.outboxEvents, e.eventId ∉ v.identifiers.outboxEventIds
  eventsDistinct : (c.outboxEvents.map (·.eventId)).Nodup
  emitted : v'.identifiers.outboxEventIds =
    v.identifiers.outboxEventIds ∪ (c.outboxEvents.map (·.eventId)).toFinset

/-- The trade transition of an applied call, if it has one. -/
structure MovesTrade (c : Call) (v v' : StoreView D) : Prop where
  expectedTrade : ∀ t, c.transition = some t →
    ((v.trades t.tradeId).map (·.version)).getD 0 = t.expectedVersion ∧
    (v.trades t.tradeId).map (·.state) = t.expectedState ∧
    isValidTransition t.expectedState t.nextState = true
  moved : ∀ t, c.transition = some t →
    v'.trades t.tradeId = some (t.envelope (t.expectedVersion + 1))
  otherTrades : ∀ tradeId, (∀ t, c.transition = some t → t.tradeId ≠ tradeId) →
    v'.trades tradeId = v.trades tradeId

/-- The claim and the receipt of an applied call. -/
structure StoresReceipt (c : Call) (o : Outcome) (v v' : StoreView D) : Prop where
  receipt : StoredReceipt cfg v' c o
  otherRequests : ∀ id, c.requestId ≠ some id → v'.snapshotReceipts id = v.snapshotReceipts id
  otherOperations : ∀ id, c.operationId ≠ some id →
    v'.operationKinds id = v.operationKinds id ∧ v'.transactions id = v.transactions id ∧
    v'.multiTransactions id = v.multiTransactions id ∧
    v'.tradeTransactions id = v.tradeTransactions id
  /-- under its own id the receipts of the other kinds stay as well -/
  otherKinds : ∀ id, c.operationId = some id →
    (v'.operationKinds id = some .single ∨ v'.transactions id = v.transactions id) ∧
    (v'.operationKinds id = some .multi ∨ v'.multiTransactions id = v.multiTransactions id) ∧
    (v'.operationKinds id = some .trade ∨ v'.tradeTransactions id = v.tradeTransactions id)
  /-- an id that is claimed with its receipt is not claimed again -/
  unclaimed : ∀ id, c.operationId = some id →
    (v.operationKinds id = some .single → v.transactions id = none) ∧
    (v.operationKinds id = some .multi → v.multiTransactions id = none) ∧
    (v.operationKinds id = some .trade → v.tradeTransactions id = none)

/-- **What an applied call does**: `v` and `v'` are the contents before and after. -/
structure Applied (c : Call) (o : Outcome) (v v' : StoreView D) : Prop where
  records : WritesRecords c v v'
  effects : CommitsEffects c v v'
  trade : MovesTrade c v v'
  receipts : StoresReceipt cfg c o v v'

variable {cfg}

/-! ### Each call, part by part -/

theorem writesRecords_single {c : Call} {w : RecordWrite} {v v' : StoreView D}
    (hwrites : c.writes = [w])
    (hexpected : ∀ e, w.expectedRevision = some e → v.revision w.record = e)
    (hsnapshots : v'.snapshots = Function.update v.snapshots w.record
      (some (w.envelope (v.revision w.record + 1)))) : WritesRecords c v v' where
  expected := by
    rw [hwrites]
    intro w' hw'
    rw [List.mem_singleton.mp hw']
    exact hexpected
  distinct := by simp [hwrites]
  written := by
    rw [hwrites]
    intro w' hw'
    rw [List.mem_singleton.mp hw', hsnapshots, Function.update_self]
  otherRecords := by
    intro record hrecord
    rw [hwrites, List.map_singleton, List.mem_singleton] at hrecord
    rw [hsnapshots, Function.update_of_ne hrecord]

/-- The multi-record loops, for writes that were sorted before. -/
theorem writesRecords_sorted {c : Call} {writes sorted : List TransactionalRecordWrite}
    {v v' : StoreView D} (hwrites : c.writes = writes.map (·.recordWrite))
    (hperm : sorted.Perm writes) (hnodup : (sorted.map (·.record)).Nodup)
    (hexpected : ∀ w ∈ sorted, v.revision w.record = w.expectedRevision)
    (hsnapshots : v'.snapshots = insertAll (·.record) v.snapshots (sorted.map (·.committed))) :
    WritesRecords c v v' := by
  have hkeys : (sorted.map (·.committed)).map (·.record) = sorted.map (·.record) := by
    rw [List.map_map]
    rfl
  have hmem : ∀ w ∈ c.writes, ∃ t ∈ sorted, t.recordWrite = w := by
    intro w hw
    rw [hwrites] at hw
    obtain ⟨t, ht, rfl⟩ := List.mem_map.mp hw
    exact ⟨t, hperm.mem_iff.mpr ht, rfl⟩
  have hrecords : c.writes.map (·.record) = writes.map (·.record) := by
    rw [hwrites, List.map_map]
    rfl
  refine ⟨?_, ?_, ?_, ?_⟩
  · intro w hw e he
    obtain ⟨t, ht, rfl⟩ := hmem w hw
    have : t.expectedRevision = e := Option.some.inj he
    rw [← this]
    exact hexpected t ht
  · rw [hrecords]
    exact (hperm.map _).nodup_iff.mp hnodup
  · intro w hw
    obtain ⟨t, ht, rfl⟩ := hmem w hw
    have hput : insertAll (·.record) v.snapshots (sorted.map (·.committed)) t.committed.record
        = some t.committed :=
      insertAll_of_mem (hkeys ▸ hnodup) (List.mem_map.mpr ⟨t, ht, rfl⟩)
    rw [hsnapshots]
    refine hput.trans ?_
    show some (t.envelope (t.expectedRevision + 1)) =
      some (t.envelope (v.revision t.record + 1))
    rw [hexpected t ht]
  · intro record hrecord
    rw [hsnapshots, insertAll_of_not_mem]
    rw [hkeys]
    intro hin
    exact hrecord (hrecords ▸ (hperm.map _).mem_iff.mp hin)

/-- A call without effects keeps the identifiers. -/
theorem commitsEffects_none {c : Call} {v v' : StoreView D} (happends : c.appends = [])
    (hpostings : c.ledgerPostings = []) (hevents : c.outboxEvents = [])
    (hids : v'.identifiers = v.identifiers) : CommitsEffects c v v' := by
  constructor <;> simp [happends, hpostings, hevents, hids, assetBalance]

theorem applied_save {r : SnapshotWrite} {v v' : StoreView D} (hv' : v' = v.save cfg r)
    (hexpected : ∀ e, r.expectedRevision = some e → v.revision r.record = e) :
    Applied cfg (.save r) (.snapshot (.applied (v.revision r.record + 1))) v v' := by
  subst hv'
  refine ⟨writesRecords_single rfl hexpected rfl, commitsEffects_none rfl rfl rfl rfl, ?_, ?_⟩
  · exact ⟨by simp [Call.transition], by simp [Call.transition], fun _ _ => rfl⟩
  · refine ⟨Function.update_self .., ?_, fun _ _ => ⟨rfl, rfl, rfl, rfl⟩, ?_, ?_⟩
    · intro id hid
      have hne : id ≠ r.requestId := fun h => hid (h ▸ rfl)
      exact Function.update_of_ne hne ..
    · simp [Call.operationId]
    · simp [Call.operationId]

theorem applied_transaction {r : TransactionalWrite} {v v' : StoreView D}
    (hv' : v' = v.applyTransaction cfg r)
    (hexpected : v.revision r.record = r.expectedRevision)
    (hkind : ∀ kind, v.operationKinds r.operationId = some kind → kind = .single)
    (hnone : v.transactions r.operationId = none) :
    Applied cfg (.applyTransaction r)
      (.transaction (.applied (r.expectedRevision + 1) r.result)) v v' := by
  subst hv'
  refine ⟨writesRecords_single rfl ?_ ?_, commitsEffects_none rfl rfl rfl rfl, ?_, ?_⟩
  · rintro e ⟨⟩
    exact hexpected
  · rw [hexpected]
    rfl
  · exact ⟨by simp [Call.transition], by simp [Call.transition], fun _ _ => rfl⟩
  · refine ⟨⟨Function.update_self .., Function.update_self ..⟩, fun _ _ => rfl, ?_, ?_, ?_⟩
    · intro id hid
      have hne : id ≠ r.operationId := fun h => hid (h ▸ rfl)
      exact ⟨Function.update_of_ne hne .., Function.update_of_ne hne .., rfl, rfl⟩
    · rintro id ⟨⟩
      exact ⟨Or.inl (Function.update_self ..), Or.inr rfl, Or.inr rfl⟩
    · rintro id ⟨⟩
      exact ⟨fun _ => hnone, fun h => absurd (hkind _ h) (by simp),
        fun h => absurd (hkind _ h) (by simp)⟩

theorem commitsEffects_insertEffects {r : MultiRecordTransactionalWrite}
    {effects normal : CommitEffects} {v v' : StoreView D}
    (hnormal : effects.normalize cfg.decodeEnvelope = .ok normal)
    (hids : v'.identifiers = v.identifiers.insertEffects normal)
    (happends : ∀ a ∈ normal.appends, v.identifiers.appends a.record = none)
    (hevents : ∀ e ∈ normal.outboxEvents, e.eventId ∉ v.identifiers.outboxEventIds) :
    CommitsEffects (.commitRecords r effects) v v' := by
  obtain ⟨rfl, hnd, hnd'⟩ := CommitEffects.normalize_ok hnormal
  have hmem : ∀ a ∈ effects.appends, a ∈ sortOn (·.record) effects.appends :=
    fun a ha => mem_sortOn.mpr ha
  refine ⟨fun a ha => happends a (hmem a ha), hnd, ?_, ?_, by simp [Call.ledgerPostings],
    by simp [Call.ledgerPostings], by simp [Call.ledgerPostings, assetBalance], ?_,
    fun e he => hevents e (mem_sortOn.mpr he), hnd', ?_⟩
  · intro a ha
    rw [hids]
    exact insertAll_of_mem (map_sortOn_nodup.mpr hnd) (hmem a ha)
  · intro record hrecord
    rw [hids]
    refine insertAll_of_not_mem fun hin => hrecord ?_
    exact (map_sortOn_perm _ _ _).mem_iff.mp hin
  · rw [hids]
    simp [TradeIdentifiers.insertEffects, Call.ledgerPostings]
  · rw [hids]
    simp only [TradeIdentifiers.insertEffects, Call.outboxEvents]
    rw [List.toFinset_eq_of_perm _ _ (map_sortOn_perm _ _ _)]

theorem applied_records {r normal : MultiRecordTransactionalWrite}
    {effects normalEffects : CommitEffects} {v v' : StoreView D}
    (hnormal : normalizeMulti r = .ok normal)
    (heffects : effects.normalize cfg.decodeEnvelope = .ok normalEffects)
    (hv' : v' = v.commitRecords cfg normal normalEffects)
    (hexpected : ∀ w ∈ normal.writes, v.revision w.record = w.expectedRevision)
    (happends : ∀ a ∈ normalEffects.appends, v.identifiers.appends a.record = none)
    (hevents : ∀ e ∈ normalEffects.outboxEvents, e.eventId ∉ v.identifiers.outboxEventIds)
    (hkind : ∀ kind, v.operationKinds normal.operationId = some kind → kind = .multi)
    (hnone : v.multiTransactions normal.operationId = none) :
    Applied cfg (.commitRecords r effects)
      (.records (.applied (normal.writes.map (·.receipt)) normal.result)) v v' := by
  obtain ⟨-, -, hdistinct, rfl⟩ := normalizeMulti_ok hnormal
  subst hv'
  refine ⟨writesRecords_sorted rfl (sortOn_perm _ _) (map_sortOn_nodup.mpr hdistinct) hexpected
    rfl, commitsEffects_insertEffects heffects rfl happends hevents, ?_, ?_⟩
  · exact ⟨by simp [Call.transition], by simp [Call.transition], fun _ _ => rfl⟩
  · refine ⟨⟨_, _, hnormal, heffects, Function.update_self .., Function.update_self ..⟩,
      fun _ _ => rfl, ?_, ?_, ?_⟩
    · intro id hid
      have hne : id ≠ r.operationId := fun h => hid (h ▸ rfl)
      exact ⟨Function.update_of_ne hne .., rfl, Function.update_of_ne hne .., rfl⟩
    · rintro id ⟨⟩
      exact ⟨Or.inr rfl, Or.inl (Function.update_self ..), Or.inr rfl⟩
    · rintro id ⟨⟩
      exact ⟨fun h => absurd (hkind _ h) (by simp), fun _ => hnone,
        fun h => absurd (hkind _ h) (by simp)⟩

theorem commitsEffects_insertTrade {r normal : TradeTransaction} {v v' : StoreView D}
    (hnormal : normalizeTradeTransaction r = .ok normal)
    (hids : v'.identifiers = v.identifiers.insertTrade normal)
    (hpostings : ∀ p ∈ normal.ledgerPostings, p.postingId ∉ v.identifiers.ledgerPostingIds)
    (hevents : ∀ e ∈ normal.outboxEvents, e.eventId ∉ v.identifiers.outboxEventIds) :
    CommitsEffects (.applyTradeTransaction r) v v' := by
  obtain ⟨hacc, rfl⟩ := normalizeTrade_ok hnormal
  refine ⟨by simp [Call.appends], by simp [Call.appends], by simp [Call.appends],
    fun _ _ => by rw [hids]; rfl, fun p hp => hpostings p (mem_sortOn.mpr hp),
    map_sortOn_nodup.mp hacc.postings, fun asset => ?_, ?_,
    fun e he => hevents e (mem_sortOn.mpr he), map_sortOn_nodup.mp hacc.events, ?_⟩
  · rw [← hacc.balanced asset]
    exact assetBalance_perm (sortOn_perm _ _).symm
  · rw [hids]
    simp only [TradeIdentifiers.insertTrade, Call.ledgerPostings]
    rw [List.toFinset_eq_of_perm _ _ (map_sortOn_perm _ _ _)]
  · rw [hids]
    simp only [TradeIdentifiers.insertTrade, Call.outboxEvents]
    rw [List.toFinset_eq_of_perm _ _ (map_sortOn_perm _ _ _)]

theorem applied_trade {r normal : TradeTransaction} {v v' : StoreView D}
    (hnormal : normalizeTradeTransaction r = .ok normal) (hv' : v' = v.applyTrade normal)
    (hexpected : ∀ w ∈ normal.writes, v.revision w.record = w.expectedRevision)
    (hversion : ((v.trades normal.transition.tradeId).map (·.version)).getD 0
      = normal.transition.expectedVersion)
    (hstate : (v.trades normal.transition.tradeId).map (·.state)
      = normal.transition.expectedState)
    (hpostings : ∀ p ∈ normal.ledgerPostings, p.postingId ∉ v.identifiers.ledgerPostingIds)
    (hevents : ∀ e ∈ normal.outboxEvents, e.eventId ∉ v.identifiers.outboxEventIds)
    (hkind : ∀ kind, v.operationKinds normal.operationId = some kind → kind = .trade)
    (hnone : v.tradeTransactions normal.operationId = none) :
    Applied cfg (.applyTradeTransaction r) (.trade (.applied normal.appliedReceipt)) v v' := by
  have heffects : CommitsEffects (.applyTradeTransaction r) v v' :=
    commitsEffects_insertTrade hnormal (by rw [hv']; rfl) hpostings hevents
  obtain ⟨hacc, rfl⟩ := normalizeTrade_ok hnormal
  subst hv'
  refine ⟨writesRecords_sorted rfl (sortOn_perm _ _) hacc.records hexpected rfl, heffects, ?_, ?_⟩
  · refine ⟨?_, ?_, ?_⟩
    · rintro t ⟨⟩
      exact ⟨hversion, hstate, hacc.transition⟩
    · rintro t ⟨⟩
      exact Function.update_self ..
    · intro tradeId hother
      exact Function.update_of_ne (hother _ rfl).symm ..
  · refine ⟨⟨_, hnormal, Function.update_self .., Function.update_self ..⟩, fun _ _ => rfl, ?_, ?_,
      ?_⟩
    · intro id hid
      have hne : id ≠ r.operationId := fun h => hid (h ▸ rfl)
      exact ⟨Function.update_of_ne hne .., rfl, rfl, Function.update_of_ne hne ..⟩
    · rintro id ⟨⟩
      exact ⟨Or.inr rfl, Or.inr rfl, Or.inl (Function.update_self ..)⟩
    · rintro id ⟨⟩
      exact ⟨fun h => absurd (hkind _ h) (by simp), fun h => absurd (hkind _ h) (by simp),
        fun _ => hnone⟩

/-! ### Runs -/

variable [DecidableEq D]

/-- **One call**: an error or a duplicate keeps the state, anything else is `Applied`. -/
theorem exec_cases (b : MemoryBackend cfg) (c : Call) :
    (∃ e, c.exec.run b = .error (.store e) b) ∨
    (∃ o, c.exec.run b = .ok o b ∧ o.isApplied = false) ∨
    (∃ o b', c.exec.run b = .ok o b' ∧ o.isApplied = true ∧ Applied cfg c o b.view b'.view) := by
  cases c with
  | save r =>
    rcases save_cases b r with ⟨e, he⟩ | ⟨revision, hdup⟩ | ⟨b', hrun, hexpected, -, hview⟩
    · exact Or.inl ⟨e, bind_run_error he⟩
    · exact Or.inr (Or.inl ⟨_, bind_run_ok hdup, rfl⟩)
    · exact Or.inr (Or.inr ⟨_, b', bind_run_ok hrun, rfl, applied_save hview hexpected⟩)
  | applyTransaction r =>
    rcases applyTransaction_cases b r with
      ⟨e, he⟩ | ⟨revision, result, hdup⟩ | ⟨b', hrun, hexpected, hkind, hnone, hview⟩
    · exact Or.inl ⟨e, bind_run_error he⟩
    · exact Or.inr (Or.inl ⟨_, bind_run_ok hdup, rfl⟩)
    · exact Or.inr (Or.inr ⟨_, b', bind_run_ok hrun, rfl,
        applied_transaction hview hexpected hkind hnone⟩)
  | commitRecords r effects =>
    rcases commitRecords_cases b r effects with ⟨e, he⟩ | ⟨records, result, hdup⟩ |
      ⟨b', normal, normalEffects, hnormal, heffects, hrun, hexpected, happends, hevents, hkind,
        hnone, hview⟩
    · exact Or.inl ⟨e, bind_run_error he⟩
    · exact Or.inr (Or.inl ⟨_, bind_run_ok hdup, rfl⟩)
    · exact Or.inr (Or.inr ⟨_, b', bind_run_ok hrun, rfl,
        applied_records hnormal heffects hview hexpected happends hevents hkind hnone⟩)
  | applyTradeTransaction r =>
    rcases applyTradeTransaction_cases b r with ⟨e, he⟩ | ⟨receipt, hdup⟩ |
      ⟨b', normal, hnormal, hrun, hexpected, hversion, hstate, hpostings, hevents, hkind, hnone,
        hview⟩
    · exact Or.inl ⟨e, bind_run_error he⟩
    · exact Or.inr (Or.inl ⟨_, bind_run_ok hdup, rfl⟩)
    · exact Or.inr (Or.inr ⟨_, b', bind_run_ok hrun, rfl,
        applied_trade hnormal hview hexpected hversion hstate hpostings hevents hkind hnone⟩)

/-- A completed call as an event: the state after it, if the reply is the one the
backend gives. -/
def step (b : MemoryBackend cfg) (e : Completed) : Option (MemoryBackend cfg) :=
  match e.call.exec.run b with
  | .ok o b' => if e.reply = .ok o then some b' else none
  | .error f b' => if e.reply = .error f then some b' else none

/-- Every step either keeps the state or applies its call. -/
theorem step_cases {b b' : MemoryBackend cfg} {e : Completed} (h : step b e = some b') :
    (e.isApplied = false ∧ b' = b) ∨
    (∃ o, e.reply = .ok o ∧ e.isApplied = true ∧ e.call.exec.run b = .ok o b' ∧
      Applied cfg e.call o b.view b'.view) := by
  rw [step] at h
  rcases exec_cases b e.call with ⟨f, hf⟩ | ⟨o, ho, hdup⟩ | ⟨o, b₁, ho, happ, hspec⟩
  · rw [hf] at h
    simp only [Option.ite_none_right_eq_some, Option.some.injEq] at h
    exact Or.inl ⟨by rw [Completed.isApplied, h.1], h.2.symm⟩
  · rw [ho] at h
    simp only [Option.ite_none_right_eq_some, Option.some.injEq] at h
    exact Or.inl ⟨by rw [Completed.isApplied, h.1]; exact hdup, h.2.symm⟩
  · rw [ho] at h
    simp only [Option.ite_none_right_eq_some, Option.some.injEq] at h
    obtain ⟨hreply, rfl⟩ := h
    exact Or.inr ⟨o, hreply, by rw [Completed.isApplied, hreply]; exact happ, ho, hspec⟩

/-- The writes of one completed call to one record. -/
def Completed.writesTo (record : RecordKey) (e : Completed) : ℕ :=
  if e.isApplied then (e.call.writes.map (·.record)).count record else 0

/-- The applied writes to one record in a run. -/
def appliedWrites (record : RecordKey) (trace : List Completed) : ℕ :=
  (trace.map (Completed.writesTo record)).sum

theorem step_revision {b b' : MemoryBackend cfg} {e : Completed} (h : step b e = some b')
    (record : RecordKey) :
    b'.view.revision record = b.view.revision record + e.writesTo record := by
  rcases step_cases h with ⟨hskip, rfl⟩ | ⟨o, -, happ, -, hspec⟩
  · rw [Completed.writesTo, if_neg (by simp [hskip])]
    rfl
  · rw [Completed.writesTo, if_pos happ]
    by_cases hin : record ∈ e.call.writes.map (·.record)
    · rw [List.count_eq_one_of_mem hspec.records.distinct hin]
      obtain ⟨w, hw, rfl⟩ := List.mem_map.mp hin
      rw [StoreView.revision, hspec.records.written w hw]
      rfl
    · rw [List.count_eq_zero_of_not_mem hin, StoreView.revision,
        hspec.records.otherRecords record hin]
      rfl

theorem run_revision {trace : List Completed} {b b' : MemoryBackend cfg}
    (h : run step b trace = some b') (record : RecordKey) :
    b'.view.revision record = b.view.revision record + appliedWrites record trace := by
  induction trace generalizing b with
  | nil =>
    rw [run_nil, Option.some_inj] at h
    rw [h]
    rfl
  | cons e trace ih =>
    obtain ⟨m, hm, hrest⟩ := run_cons_eq_some.mp h
    rw [ih hrest, step_revision hm record, appliedWrites, appliedWrites, List.map_cons,
      List.sum_cons, Nat.add_assoc]

/-- **All or nothing.**  In every state a run reaches, every call either fails or is
a duplicate and changes nothing, or does exactly what `Applied` says; and the
revision of every record is the number of writes applied to it. -/
theorem memory_all_or_nothing (trace : List Completed) (b : MemoryBackend cfg)
    (hrun : run step {} trace = some b) :
    (∀ (c : Call) (f : Failure) (b' : MemoryBackend cfg),
      c.exec.run b = .error f b' → b' = b) ∧
    (∀ (c : Call) (o : Outcome) (b' : MemoryBackend cfg),
      c.exec.run b = .ok o b' → o.isApplied = false → b' = b) ∧
    (∀ (c : Call) (o : Outcome) (b' : MemoryBackend cfg),
      c.exec.run b = .ok o b' → o.isApplied = true → Applied cfg c o b.view b'.view) ∧
    ∀ record, b.view.revision record = appliedWrites record trace := by
  refine ⟨?_, ?_, ?_, ?_⟩
  · intro c f b' hc
    rcases exec_cases b c with ⟨e, he⟩ | ⟨o, ho, -⟩ | ⟨o, b₁, ho, -, -⟩
    · rw [he] at hc
      injection hc with _ hb
      exact hb.symm
    · rw [ho] at hc
      exact absurd hc (by simp)
    · rw [ho] at hc
      exact absurd hc (by simp)
  · intro c o b' hc hdup
    rcases exec_cases b c with ⟨e, he⟩ | ⟨o₁, ho, -⟩ | ⟨o₁, b₁, ho, happ, -⟩
    · rw [he] at hc
      exact absurd hc (by simp)
    · rw [ho] at hc
      injection hc with _ hb
      exact hb.symm
    · rw [ho] at hc
      injection hc with hout _
      rw [hout, hdup] at happ
      exact absurd happ (by simp)
  · intro c o b' hc happ
    rcases exec_cases b c with ⟨e, he⟩ | ⟨o₁, ho, hdup⟩ | ⟨o₁, b₁, ho, -, hspec⟩
    · rw [he] at hc
      exact absurd hc (by simp)
    · rw [ho] at hc
      injection hc with hout _
      rw [hout, happ] at hdup
      exact absurd hdup (by simp)
    · rw [ho] at hc
      injection hc with hout hb
      rw [← hout, ← hb]
      exact hspec
  · intro record
    have h := run_revision hrun record
    simpa [view, StoreView.revision] using h

end Runs

/-! ### A small run -/

/-- Two shards, and payloads stand for their own digests. -/
def sampleConfig : MemoryConfig Bytes where
  shards := 2
  shards_pos := by decide
  hashRecord record := record.key.length
  hashText text := text.length
  digest := id
  decodeEnvelope _ := none

def sampleWrite (key : String) (expectedRevision : Revision) : TransactionalRecordWrite :=
  ⟨⟨"player", key⟩, "profile", 1, expectedRevision, [1, 2], 10⟩

def sampleEffects : CommitEffects where
  appends := [⟨⟨"audit", "1"⟩, "entry", 1, [3], 10⟩]
  outboxEvents := [⟨"event-1", "orders", "p1", [4], 10⟩]

/-- A commit of two records with effects, then a save of one of them. -/
def sampleTrace : List Completed :=
  [⟨.commitRecords ⟨"op-1", [sampleWrite "a" 0, sampleWrite "bb" 0], [7]⟩ sampleEffects,
    .ok (.records (.applied [⟨⟨"player", "a"⟩, 1⟩, ⟨⟨"player", "bb"⟩, 1⟩] [7]))⟩,
   ⟨.save ⟨"r-1", ⟨"player", "a"⟩, "profile", 1, [9], none, 11⟩, .ok (.snapshot (.applied 2))⟩]

theorem memory_all_or_nothing_sample :
    ∃ b : MemoryBackend sampleConfig, run step {} sampleTrace = some b ∧
      b.view.revision ⟨"player", "a"⟩ = 2 := by
  have hsome : (run step ({} : MemoryBackend sampleConfig) sampleTrace).isSome = true := by decide
  obtain ⟨b, hb⟩ := Option.isSome_iff_exists.mp hsome
  refine ⟨b, hb, ?_⟩
  rw [(memory_all_or_nothing sampleTrace b hb).2.2.2 ⟨"player", "a"⟩]
  decide

end DbProxy
