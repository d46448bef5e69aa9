/-
The trade state machine and the canonical trade transaction (`trade.rs`).

`normalizeTradeTransaction` checks one request in the order of the source and
returns it with writes, postings and events sorted.  The facts the stores rely
on:

* `normalizeTrade_ok` — an accepted request is the sorted input, its
  transition is in the table, its identifiers are distinct and its postings
  balance (`AcceptedTrade`);
* `normalizeTrade_perm` — a permutation of an accepted request is accepted
  with the same result.
-/
import Mathlib.Algebra.BigOperators.Group.List.Basic
import Mathlib.Algebra.Ring.Int.Defs
import Mathlib.Data.List.Dedup
import DbProxy.CommitEffects

namespace DbProxy

open Text

/-- The escrow state machine; `settled` and `cancelled` are final. -/
def isValidTransition : Option TradeState → TradeState → Bool
  | none, .proposed => true
  | none, .escrowed => true
  | some .proposed, .escrowed => true
  | some .proposed, .cancelled => true
  | some .escrowed, .settled => true
  | some .escrowed, .cancelled => true
  | _, _ => false

/-- No transition leaves a final state. -/
def TradeState.final : TradeState → Bool
  | .settled => true
  | .cancelled => true
  | _ => false

theorem isValidTransition_of_final {s t : TradeState} (h : s.final = true) :
    isValidTransition (some s) t = false := by
  cases s <;> cases t <;> simp_all [TradeState.final, isValidTransition]

/-! ### Normalisation -/

def checkWriteRecord (write : TransactionalRecordWrite) : Except StoreError Unit :=
  if blank write.record.ns then .error (.invalidKey "namespace is empty")
  else if blank write.record.key then .error (.invalidKey "key is empty")
  else .ok ()

def checkPostingId (posting : LedgerPosting) : Except StoreError Unit :=
  if blank posting.postingId then .error (.invalidLedgerPosting "posting id is empty")
  else .ok ()

def checkPostingFields (posting : LedgerPosting) : Except StoreError Unit :=
  if blank posting.accountId then .error (.invalidLedgerPosting "account id is empty")
  else if blank posting.asset then .error (.invalidLedgerPosting "asset is empty")
  else if posting.amount = 0 then .error (.invalidLedgerPosting "amount is zero")
  else .ok ()

/-- The loop over the postings; the id is looked up between the two groups of checks. -/
def checkPostings (postings : List LedgerPosting) : Except StoreError Unit :=
  Checks.scanDistinct (·.postingId) checkPostingId .duplicateLedgerPosting checkPostingFields []
    postings

/-- The signed sum of the postings of one asset. -/
def assetBalance (asset : String) (postings : List LedgerPosting) : ℤ :=
  ((postings.filter (·.asset == asset)).map (·.amount)).sum

theorem assetBalance_perm {asset : String} {l₁ l₂ : List LedgerPosting} (h : l₁.Perm l₂) :
    assetBalance asset l₁ = assetBalance asset l₂ :=
  ((h.filter _).map _).sum_eq

theorem assetBalance_append (asset : String) (l₁ l₂ : List LedgerPosting) :
    assetBalance asset (l₁ ++ l₂) = assetBalance asset l₁ + assetBalance asset l₂ := by
  rw [assetBalance, List.filter_append, List.map_append, List.sum_append]
  rfl

/-- The first asset, in key order, whose balance is not zero. -/
def unbalancedAsset (postings : List LedgerPosting) : Option String :=
  (sortOn id (postings.map (·.asset)).dedup).find? fun asset => assetBalance asset postings ≠ 0

def checkBalances (postings : List LedgerPosting) : Except StoreError Unit :=
  match unbalancedAsset postings with
  | some asset => .error (.unbalancedLedger asset)
  | none => .ok ()

def checkTradeEventId (event : OutboxEvent) : Except StoreError Unit :=
  if isRelayTopic event.topic then
    .error (.invalidOutboxEvent "relay envelopes require CommitRecords")
  else if blank event.eventId then .error (.invalidOutboxEvent "event id is empty")
  else .ok ()

def checkTradeEventRoute (event : OutboxEvent) : Except StoreError Unit :=
  if blank event.topic then .error (.invalidOutboxEvent "topic is empty")
  else if blank event.partitionKey then .error (.invalidOutboxEvent "partition key is empty")
  else .ok ()

/-- The loop over the events; trades may not use the reserved relay topics. -/
def checkTradeEvents (events : List OutboxEvent) : Except StoreError Unit :=
  Checks.scanDistinct (·.eventId) checkTradeEventId .duplicateOutboxEvent checkTradeEventRoute []
    events

/-- Identity, version and transition checks, before anything is sorted. -/
def checkTradeHeader (request : TradeTransaction) : Except StoreError Unit :=
  if blank request.operationId then .error .emptyOperationId
  else if blank request.transition.tradeId then .error .emptyTradeId
  else if request.writes.isEmpty then .error .emptyTradeRecords
  else if (request.transition.expectedVersion == 0) !=
      request.transition.expectedState.isNone then
    .error (.invalidTradeStateTransition request.transition.expectedState
      request.transition.nextState)
  else if !isValidTransition request.transition.expectedState request.transition.nextState then
    .error (.invalidTradeStateTransition request.transition.expectedState
      request.transition.nextState)
  else .ok ()

def normalizeTradeTransaction (request : TradeTransaction) : Except StoreError TradeTransaction :=
  do
  checkTradeHeader request
  let writes := sortOn (·.record) request.writes
  writes.forM checkWriteRecord
  checkDistinctRecords (writes.map (·.record))
  let ledgerPostings := sortOn (·.postingId) request.ledgerPostings
  checkPostings ledgerPostings
  checkBalances ledgerPostings
  let outboxEvents := sortOn (·.eventId) request.outboxEvents
  checkTradeEvents outboxEvents
  .ok { request with writes, ledgerPostings, outboxEvents }

/-! ### What an accepted request looks like -/

theorem checkTradeHeader_eq_ok {request : TradeTransaction} :
    checkTradeHeader request = .ok () ↔ blank request.operationId = false ∧
      blank request.transition.tradeId = false ∧ request.writes ≠ [] ∧
      (request.transition.expectedVersion = 0 ↔ request.transition.expectedState = none) ∧
      isValidTransition request.transition.expectedState request.transition.nextState = true := by
  have hversion : ((request.transition.expectedVersion == 0) !=
      request.transition.expectedState.isNone) = false ↔
      (request.transition.expectedVersion = 0 ↔ request.transition.expectedState = none) := by
    cases request.transition.expectedState <;> simp
  rw [checkTradeHeader, ← hversion, ne_eq, ← List.isEmpty_iff]
  cases blank request.operationId <;> cases blank request.transition.tradeId <;>
    cases request.writes.isEmpty <;>
    cases ((request.transition.expectedVersion == 0) !=
      request.transition.expectedState.isNone) <;>
    cases isValidTransition request.transition.expectedState request.transition.nextState <;> simp

theorem checkWriteRecord_eq_ok {write : TransactionalRecordWrite} :
    checkWriteRecord write = .ok () ↔
      blank write.record.ns = false ∧ blank write.record.key = false := by
  rw [checkWriteRecord]
  cases blank write.record.ns <;> cases blank write.record.key <;> simp

theorem checkPostingId_eq_ok {posting : LedgerPosting} :
    checkPostingId posting = .ok () ↔ blank posting.postingId = false := by
  rw [checkPostingId]
  cases blank posting.postingId <;> simp

theorem checkPostingFields_eq_ok {posting : LedgerPosting} :
    checkPostingFields posting = .ok () ↔ blank posting.accountId = false ∧
      blank posting.asset = false ∧ posting.amount ≠ 0 := by
  rw [checkPostingFields]
  by_cases hamount : posting.amount = 0 <;> cases blank posting.accountId <;>
    cases blank posting.asset <;> simp [hamount]

theorem checkBalances_eq_ok {postings : List LedgerPosting} :
    checkBalances postings = .ok () ↔ ∀ asset, assetBalance asset postings = 0 := by
  constructor
  · intro h asset
    by_cases hin : asset ∈ postings.map (·.asset)
    · have hnone : unbalancedAsset postings = none := by
        rw [checkBalances] at h
        cases hu : unbalancedAsset postings with
        | none => rfl
        | some a => rw [hu] at h; exact absurd h (by simp)
      have := List.find?_eq_none.mp hnone asset (mem_sortOn.mpr (List.mem_dedup.mpr hin))
      simpa using this
    · -- an asset no posting mentions has an empty sum
      have hnil : postings.filter (·.asset == asset) = [] := by
        rw [List.filter_eq_nil_iff]
        intro posting hposting heq
        exact hin (List.mem_map.mpr ⟨posting, hposting, by simpa using heq⟩)
      rw [assetBalance, hnil]
      rfl
  · intro h
    have hnone : unbalancedAsset postings = none := by
      refine List.find?_eq_none.mpr fun asset _ => ?_
      simp [h asset]
    rw [checkBalances, hnone]

theorem checkTradeEventId_eq_ok {event : OutboxEvent} :
    checkTradeEventId event = .ok () ↔
      isRelayTopic event.topic = false ∧ blank event.eventId = false := by
  rw [checkTradeEventId]
  cases isRelayTopic event.topic <;> cases blank event.eventId <;> simp

theorem checkTradeEventRoute_eq_ok {event : OutboxEvent} :
    checkTradeEventRoute event = .ok () ↔
      blank event.topic = false ∧ blank event.partitionKey = false := by
  rw [checkTradeEventRoute]
  cases blank event.topic <;> cases blank event.partitionKey <;> simp

/-- Everything an accepted and normalised trade satisfies. -/
structure AcceptedTrade (request : TradeTransaction) : Prop where
  operationId : blank request.operationId = false
  create_iff : request.transition.expectedVersion = 0 ↔ request.transition.expectedState = none
  transition :
    isValidTransition request.transition.expectedState request.transition.nextState = true
  records : (request.writes.map (·.record)).Nodup
  postings : (request.ledgerPostings.map (·.postingId)).Nodup
  balanced : ∀ asset, assetBalance asset request.ledgerPostings = 0
  events : (request.outboxEvents.map (·.eventId)).Nodup
  topics : ∀ event ∈ request.outboxEvents, isRelayTopic event.topic = false

/-- An accepted request is the sorted input. -/
theorem normalizeTrade_ok {request normal : TradeTransaction}
    (h : normalizeTradeTransaction request = .ok normal) :
    AcceptedTrade normal ∧
      normal = { request with
        writes := sortOn (·.record) request.writes
        ledgerPostings := sortOn (·.postingId) request.ledgerPostings
        outboxEvents := sortOn (·.eventId) request.outboxEvents } := by
  rw [normalizeTradeTransaction] at h
  obtain ⟨_, hheader, h⟩ := Checks.bind_eq_ok.mp h
  obtain ⟨_, _, h⟩ := Checks.bind_eq_ok.mp h
  obtain ⟨_, hrecords, h⟩ := Checks.bind_eq_ok.mp h
  obtain ⟨_, hpostings, h⟩ := Checks.bind_eq_ok.mp h
  obtain ⟨_, hbalances, h⟩ := Checks.bind_eq_ok.mp h
  obtain ⟨_, hevents, h⟩ := Checks.bind_eq_ok.mp h
  obtain rfl := Except.ok.inj h
  obtain ⟨hid, -, -, hcreate, hvalid⟩ := checkTradeHeader_eq_ok.mp hheader
  exact ⟨⟨hid, hcreate, hvalid, map_sortOn_nodup.mpr (checkDistinctRecords_ok.mp hrecords),
    (Checks.scanDistinct_eq_ok.mp hpostings).2, checkBalances_eq_ok.mp hbalances,
    (Checks.scanDistinct_eq_ok.mp hevents).2, fun event hmem =>
      (checkTradeEventId_eq_ok.mp ((Checks.scanDistinct_eq_ok.mp hevents).1 event hmem).1).1⟩, rfl⟩

/-- A permutation of an accepted request is accepted, with the same result. -/
theorem normalizeTrade_perm {request normal : TradeTransaction}
    {writes : List TransactionalRecordWrite} {ledgerPostings : List LedgerPosting}
    {outboxEvents : List OutboxEvent}
    (h : normalizeTradeTransaction request = .ok normal)
    (hw : writes.Perm request.writes) (hp : ledgerPostings.Perm request.ledgerPostings)
    (he : outboxEvents.Perm request.outboxEvents) :
    normalizeTradeTransaction { request with writes, ledgerPostings, outboxEvents }
      = .ok normal := by
  obtain ⟨hacc, hnormal⟩ := normalizeTrade_ok h
  have hrecords : (request.writes.map (·.record)).Nodup := by
    have := hacc.records
    rw [hnormal] at this
    exact map_sortOn_nodup.mp this
  have hpostings : (request.ledgerPostings.map (·.postingId)).Nodup := by
    have := hacc.postings
    rw [hnormal] at this
    exact map_sortOn_nodup.mp this
  have hevents : (request.outboxEvents.map (·.eventId)).Nodup := by
    have := hacc.events
    rw [hnormal] at this
    exact map_sortOn_nodup.mp this
  have hheader : checkTradeHeader { request with writes, ledgerPostings, outboxEvents }
      = checkTradeHeader request := by
    have hempty : writes.isEmpty = request.writes.isEmpty := by
      rw [Bool.eq_iff_iff, List.isEmpty_iff, List.isEmpty_iff, ← List.length_eq_zero_iff,
        hw.length_eq, List.length_eq_zero_iff]
    simp only [checkTradeHeader, hempty]
  rw [normalizeTradeTransaction, hheader, ← sortOn_eq_of_perm hw.symm hrecords,
    ← sortOn_eq_of_perm hp.symm hpostings, ← sortOn_eq_of_perm he.symm hevents]
  exact h

end DbProxy
