/-
The receipt of a trade on its way to the client (`dbproxy-client`,
`trade_receipt_matches_request`).

The server answers with the receipt of the normalised request; the conversion
checks its fields and limits again and the client compares it with the request
it sent, after sorting both.

* `matchesRequest_iff` — the comparison accepts exactly the receipts with the
  requested version, state and result and the requested records, postings and
  events in any order;
* `call_writes` — the writes a call of the backend consists of;
* `tradeReceipts_agree` — what the backend answers is accepted by the client.
-/
import DbProxy.MemoryTrades
import DbProxy.ShardTransparency
import DbProxy.WireRoundTrips
import Mathlib.Logic.Relation

namespace DbProxy

open Text EarlyReturn KeyedMap MemoryBackend

/-! ### The comparison -/

def tradeReceiptMatchesRequest (receipt : TradeReceipt) (request : TradeTransaction) : Bool :=
  match Revision.next request.transition.expectedVersion with
  | none => false
  | some expectedTradeVersion =>
    if receipt.newTradeVersion ≠ expectedTradeVersion ∨
        receipt.state ≠ request.transition.nextState ∨ receipt.result ≠ request.result then false
    else
      let expectedRecords := request.writes.filterMap fun write =>
        (Revision.next write.expectedRevision).map fun revision =>
          (⟨write.record, revision⟩ : TransactionRecordReceipt)
      if expectedRecords.length ≠ request.writes.length then false
      else
        let expectedRecords := sortOn (·.record) expectedRecords
        let actualRecords := sortOn (·.record) receipt.records
        if expectedRecords.length ≠ actualRecords.length ∨
            (expectedRecords.zip actualRecords).any (fun (expected, actual) =>
              expected.record ≠ actual.record || expected.newRevision ≠ actual.newRevision) then
          false
        else
          sortOn id (request.ledgerPostings.map (·.postingId)) =
              sortOn id receipt.ledgerPostingIds &&
            sortOn id (request.outboxEvents.map (·.eventId)) = sortOn id receipt.outboxEventIds

/-- The receipt carries what the request asks for, its lists in any order. -/
structure ReceiptRequested (receipt : TradeReceipt) (request : TradeTransaction) : Prop where
  version : Revision.next request.transition.expectedVersion = some receipt.newTradeVersion
  state : receipt.state = request.transition.nextState
  result : receipt.result = request.result
  records : (receipt.records.map fun r => (r.record, some r.newRevision)).Perm
    (request.writes.map fun w => (w.record, Revision.next w.expectedRevision))
  postings : receipt.ledgerPostingIds.Perm (request.ledgerPostings.map (·.postingId))
  events : receipt.outboxEventIds.Perm (request.outboxEvents.map (·.eventId))

theorem sortOn_id_eq_iff {l₁ l₂ : List String} : sortOn id l₁ = sortOn id l₂ ↔ l₁.Perm l₂ := by
  constructor
  · intro h
    exact (sortOn_perm id l₁).symm.trans (h ▸ sortOn_perm id l₂)
  · intro h
    refine ((sortOn_perm id l₁).trans (h.trans (sortOn_perm id l₂).symm)).eq_of_pairwise ?_
      (pairwise_sortOn id l₁) (pairwise_sortOn id l₂)
    exact fun a b _ _ hab hba => le_antisymm hab hba

/-- The pairwise comparison of the sorted records finds no difference. -/
theorem zip_any_eq_false : ∀ {l₁ l₂ : List TransactionRecordReceipt},
    l₁.length = l₂.length →
      ((l₁.zip l₂).any (fun (expected, actual) => expected.record ≠ actual.record ||
        expected.newRevision ≠ actual.newRevision) = false ↔ l₁ = l₂)
  | [], [], _ => by simp
  | [], _ :: _, h => by simp at h
  | _ :: _, [], h => by simp at h
  | a :: l₁, b :: l₂, h => by
    rw [List.zip_cons_cons, List.any_cons, Bool.or_eq_false_iff,
      zip_any_eq_false (Nat.succ.inj h), List.cons.injEq]
    refine and_congr_left fun _ => ?_
    obtain ⟨record, revision⟩ := a
    obtain ⟨record', revision'⟩ := b
    simp

/-- The requested records, when every revision has a successor. -/
theorem filterMap_next_eq {writes : List TransactionalRecordWrite}
    (h : ∀ write ∈ writes, write.expectedRevision + 1 < 2 ^ 64) :
    (writes.filterMap fun write => (Revision.next write.expectedRevision).map fun revision =>
      (⟨write.record, revision⟩ : TransactionRecordReceipt)) = writes.map (·.receipt) := by
  rw [← List.filterMap_eq_map]
  refine List.filterMap_congr fun write hmem => ?_
  rw [Revision.next, if_pos (h write hmem)]
  rfl

/-- The filter drops a write whose revision has no successor. -/
theorem filterMap_next_length {writes : List TransactionalRecordWrite}
    (h : (writes.filterMap fun write => (Revision.next write.expectedRevision).map fun revision =>
      (⟨write.record, revision⟩ : TransactionRecordReceipt)).length = writes.length) :
    ∀ write ∈ writes, write.expectedRevision + 1 < 2 ^ 64 := by
  intro write hmem
  have hsome := List.filterMap_length_eq_length.mp h write hmem
  rw [Option.isSome_map, Revision.next] at hsome
  split at hsome
  · assumption
  · cases hsome

/-- The requested records in any order, when every revision has a successor. -/
theorem records_perm_iff {receipt : TradeReceipt} {request : TradeTransaction} :
    (receipt.records.map fun r => (r.record, some r.newRevision)).Perm
        (request.writes.map fun w => (w.record, Revision.next w.expectedRevision)) ↔
      (∀ write ∈ request.writes, write.expectedRevision + 1 < 2 ^ 64) ∧
        receipt.records.Perm (request.writes.map (·.receipt)) := by
  have hinj : Function.Injective
      fun r : TransactionRecordReceipt => (r.record, some r.newRevision) := by
    rintro ⟨record, revision⟩ ⟨record', revision'⟩ heq
    simpa using heq
  have hnext : (∀ write ∈ request.writes, write.expectedRevision + 1 < 2 ^ 64) →
      (request.writes.map fun w => (w.record, Revision.next w.expectedRevision)) =
        (request.writes.map (·.receipt)).map fun r => (r.record, some r.newRevision) := by
    intro hbound
    rw [List.map_map]
    refine List.map_congr_left fun write hmem => ?_
    rw [Revision.next, if_pos (hbound write hmem)]
    rfl
  constructor
  · intro h
    have hbound : ∀ write ∈ request.writes, write.expectedRevision + 1 < 2 ^ 64 := by
      intro write hmem
      -- a receipt has a revision, so this write has a next one
      obtain ⟨r, -, hr⟩ := List.mem_map.mp (h.mem_iff.mpr (List.mem_map_of_mem hmem))
      exact (Revision.next_eq_some.mp (Prod.mk.inj hr).2.symm).1
    rw [hnext hbound] at h
    exact ⟨hbound, (List.map_perm_map_iff hinj).mp h⟩
  · rintro ⟨hbound, h⟩
    rw [hnext hbound]
    exact h.map _

/-- The comparison accepts exactly the receipts that carry what was requested. -/
theorem matchesRequest_iff {receipt : TradeReceipt} {request : TradeTransaction}
    (hnodup : (request.writes.map (·.record)).Nodup) :
    tradeReceiptMatchesRequest receipt request = true ↔ ReceiptRequested receipt request := by
  have hkeys : ((request.writes.map (·.receipt)).map (·.record)).Nodup := by
    rw [List.map_map]
    exact hnodup
  rw [tradeReceiptMatchesRequest]
  constructor
  · intro h
    split at h
    · cases h
    · rename_i version hversion
      split at h
      · cases h
      · rename_i hhead
        rw [not_or, not_or, not_not, not_not, not_not] at hhead
        obtain ⟨rfl, hstate, hresult⟩ := hhead
        dsimp only at h
        split at h
        · cases h
        · rename_i hlength
          have hbound := filterMap_next_length (not_not.mp hlength)
          rw [filterMap_next_eq hbound] at h
          split at h
          · cases h
          · rename_i hdiff
            rw [not_or, not_not, Bool.not_eq_true] at hdiff
            have hsorted := (zip_any_eq_false hdiff.1).mp hdiff.2
            simp only [Bool.and_eq_true, decide_eq_true_eq, sortOn_id_eq_iff] at h
            refine ⟨hversion, hstate, hresult, records_perm_iff.mpr ⟨hbound, ?_⟩, h.1.symm,
              h.2.symm⟩
            exact (sortOn_perm _ _).symm.trans (hsorted ▸ sortOn_perm _ _)
  · intro h
    obtain ⟨hbound, hrecords⟩ := records_perm_iff.mp h.records
    have hsorted : sortOn (·.record) (request.writes.map (·.receipt)) =
        sortOn (·.record) receipt.records := sortOn_eq_of_perm hrecords.symm hkeys
    rw [h.version]
    dsimp only
    rw [if_neg (by simp [h.state, h.result]), filterMap_next_eq hbound,
      if_neg (by simp), hsorted, if_neg]
    · simp only [Bool.and_eq_true, decide_eq_true_eq, sortOn_id_eq_iff]
      exact ⟨h.postings.symm, h.events.symm⟩
    · rw [not_or, not_not, Bool.not_eq_true]
      exact ⟨rfl, (zip_any_eq_false rfl).mpr rfl⟩

/-! ### A receipt of a request from the network -/

/-- A trade with a revision and a version to spare for everything it writes. -/
structure Successors (trade : TradeTransaction) : Prop where
  version : trade.transition.expectedVersion + 1 < 2 ^ 64
  records : ∀ write ∈ trade.writes, write.expectedRevision + 1 < 2 ^ 64

theorem Successors.receipt_inRange {trade : TradeTransaction} (h : Successors trade) :
    trade.appliedReceipt.InRange where
  version := h.version
  revisions receipt hmem := by
    obtain ⟨write, hwrite, rfl⟩ := List.mem_map.mp hmem
    exact h.records write hwrite

/-- Sorting keeps texts, counts and topics. -/
theorem TradeTransaction.WireValid.normal {request normal : TradeTransaction}
    (h : request.WireValid) (hnormal : normalizeTradeTransaction request = .ok normal) :
    normal.WireValid := by
  obtain ⟨-, rfl⟩ := normalizeTrade_ok hnormal
  obtain ⟨hid, htrade, hwrites, hpostings, hevents⟩ :=
    TradeTransaction.forall_mem_texts.mp h.texts
  refine ⟨TradeTransaction.forall_mem_texts.mpr ⟨hid, htrade, ?_, ?_, ?_⟩, ?_, ?_, ?_, ?_⟩
  · exact fun write hmem => hwrites write (mem_sortOn.mp hmem)
  · exact fun posting hmem => hpostings posting (mem_sortOn.mp hmem)
  · exact fun event hmem => hevents event (mem_sortOn.mp hmem)
  · exact (sortOn_perm _ _).length_eq.trans_le h.writes
  · exact (sortOn_perm _ _).length_eq.trans_le h.postings
  · exact (sortOn_perm _ _).length_eq.trans_le h.events
  · exact fun event hmem => h.topics event (mem_sortOn.mp hmem)

theorem TradeTransaction.appliedReceipt_keys (trade : TradeTransaction) :
    trade.appliedReceipt.records.map (·.record) = trade.writes.map (·.record) :=
  List.map_map

/-- The texts and counts of the receipt are those of its request. -/
theorem AcceptedTrade.receipt_wireValid {trade : TradeTransaction} (h : AcceptedTrade trade)
    (hvalid : trade.WireValid) (hwrites : trade.writes ≠ []) :
    trade.appliedReceipt.WireValid := by
  obtain ⟨hid, htrade, htexts, hpostings, hevents⟩ :=
    TradeTransaction.forall_mem_texts.mp hvalid.texts
  refine ⟨(TradeReceipt.forall_mem_texts _).mpr ⟨hid, htrade, ?_, ?_, ?_⟩, Nat.succ_ne_zero _,
    ⟨mt List.map_eq_nil_iff.mp hwrites, ?_⟩, ?_, ?_, ?_, h.postings, h.events, ?_⟩
  · intro id hmem
    obtain ⟨posting, hposting, rfl⟩ := List.mem_map.mp hmem
    exact (posting.forall_mem_texts.mp (hpostings posting hposting)).1
  · intro id hmem
    obtain ⟨event, hevent, rfl⟩ := List.mem_map.mp hmem
    exact (event.forall_mem_texts.mp (hevents event hevent)).1
  · intro receipt hmem
    obtain ⟨write, hwrite, rfl⟩ := List.mem_map.mp hmem
    exact (write.forall_mem_texts.mp (htexts write hwrite)).1
  · exact (List.length_map _).trans_le hvalid.writes
  · exact (List.length_map _).trans_le hvalid.postings
  · exact (List.length_map _).trans_le hvalid.events
  · intro receipt hmem
    obtain ⟨write, -, rfl⟩ := List.mem_map.mp hmem
    exact Nat.succ_ne_zero _
  · rw [trade.appliedReceipt_keys]
    exact h.records

/-- The receipt of a normalised request from the network passes the conversion. -/
theorem appliedReceipt_toCore {value : WireApplyTradeTransactionRequest}
    {request normal : TradeTransaction} (hvalue : value.toCore = .ok request)
    (hnormal : normalizeTradeTransaction request = .ok normal) (hroom : Successors normal) :
    normal.appliedReceipt.toMessage.toCore = .ok normal.appliedReceipt := by
  obtain ⟨-, -, hvalid⟩ := tradeTransaction_roundTrips.decode_iff.mp hvalue
  have hwell := normalizeTrade_isOk.mp ⟨normal, hnormal⟩
  obtain ⟨hacc, hsorted⟩ := normalizeTrade_ok hnormal
  -- normalisation refuses a trade without writes, and sorting loses none
  have hwrites : normal.writes ≠ [] := by
    intro hnil
    have hperm : normal.writes.Perm request.writes := hsorted ▸ sortOn_perm _ _
    rw [hnil] at hperm
    exact hwell.writes (List.nil_perm.mp hperm)
  exact tradeReceipt_roundTrips.decode_iff.mpr
    ⟨rfl, hroom.receipt_inRange, hacc.receipt_wireValid (hvalid.normal hnormal) hwrites⟩

/-! ### What the backend stores -/

section Calls

variable {D : Type}

/-- A passed comparison leaves room for every next revision. -/
theorem Flat.compareRevisions_bound {v : StoreView D} :
    ∀ {writes : List TransactionalRecordWrite} {committed : List TransactionRecordReceipt},
      Flat.compareRevisions v writes = .ok committed →
        ∀ write ∈ writes, write.expectedRevision + 1 < 2 ^ 64 := by
  intro writes
  induction writes with
  | nil =>
    intro committed _ write hmem
    cases hmem
  | cons head rest ih =>
    intro committed h
    rw [Flat.compareRevisions] at h
    by_cases hrev : v.revision head.record = head.expectedRevision
    · rw [if_neg (not_not_intro hrev)] at h
      cases hnext : (v.revision head.record).next with
      | none =>
        rw [hnext] at h
        cases h
      | some newRevision =>
        rw [hnext] at h
        obtain ⟨tail, htail, -⟩ := Checks.bind_eq_ok.mp h
        obtain ⟨hbound, -⟩ := Revision.next_eq_some.mp hnext
        rw [hrev] at hbound
        exact List.forall_mem_cons.mpr ⟨hbound, ih htail⟩
    · rw [if_pos hrev] at h
      cases h

theorem Flat.applyTradeTransaction_ok {v v' : StoreView D} {request : TradeTransaction}
    {outcome : TradeTransactionOutcome}
    (h : Flat.applyTradeTransaction v request = .ok (outcome, v')) :
    ∃ normal, normalizeTradeTransaction request = .ok normal ∧
      ((∃ stored, v.tradeTransactions normal.operationId = some stored ∧
          stored.request = normal ∧ outcome = .duplicate stored.receipt ∧ v' = v) ∨
        (outcome = .applied normal.appliedReceipt ∧ v' = v.applyTrade normal ∧
          Successors normal)) := by
  rw [Flat.applyTradeTransaction] at h
  obtain ⟨normal, hnormal, h⟩ := Checks.bind_eq_ok.mp h
  obtain ⟨_, -, h⟩ := Checks.bind_eq_ok.mp h
  refine ⟨normal, hnormal, ?_⟩
  cases hstored : v.tradeTransactions normal.operationId with
  | some stored =>
    rw [hstored] at h
    dsimp only at h
    by_cases hsame : stored.request = normal
    · rw [if_neg (not_not_intro hsame)] at h
      obtain ⟨rfl, rfl⟩ := Prod.mk.inj (Except.ok.inj h)
      exact Or.inl ⟨stored, rfl, hsame, rfl, rfl⟩
    · rw [if_pos hsame] at h
      cases h
  | none =>
    rw [hstored] at h
    dsimp only at h
    obtain ⟨_, hstate, h⟩ := Checks.bind_eq_ok.mp h
    obtain ⟨_, -, h⟩ := Checks.bind_eq_ok.mp h
    obtain ⟨committed, hcompare, h⟩ := Checks.bind_eq_ok.mp h
    obtain ⟨hversion, -⟩ := checkTradeState_ok hstate
    rw [hversion] at h
    cases hnext : Revision.next normal.transition.expectedVersion with
    | none =>
      rw [hnext] at h
      cases h
    | some newTradeVersion =>
      rw [hnext] at h
      obtain ⟨hbound, rfl⟩ := Revision.next_eq_some.mp hnext
      obtain ⟨rfl, rfl⟩ := Prod.mk.inj (Except.ok.inj h)
      rw [Flat.compareRevisions_ok hcompare]
      exact Or.inr ⟨rfl, rfl, hbound, Flat.compareRevisions_bound hcompare⟩

variable (cfg : MemoryConfig D)

/-- The writes that the calls of the backend consist of. -/
inductive AppliedWrite (v : StoreView D) : StoreView D → Prop
  | save (request : SnapshotWrite) : AppliedWrite v (v.save cfg request)
  | transaction (request : TransactionalWrite) : AppliedWrite v (v.applyTransaction cfg request)
  | records (request : MultiRecordTransactionalWrite) (effects : CommitEffects) :
      AppliedWrite v (v.commitRecords cfg request effects)
  | trade {request normal : TradeTransaction}
      (hnormal : normalizeTradeTransaction request = .ok normal) (hroom : Successors normal) :
      AppliedWrite v (v.applyTrade normal)

variable {cfg} [DecidableEq D]

open Relation (ReflTransGen)

theorem Flat.save_writes {v v' : StoreView D} {request : SnapshotWrite}
    {outcome : SnapshotWriteOutcome} (h : Flat.save cfg v request = .ok (outcome, v')) :
    ReflTransGen (AppliedWrite cfg) v v' := by
  rw [Flat.save] at h
  split at h
  · cases h
  · split at h
    · split at h
      · cases h
      · obtain ⟨-, rfl⟩ := Prod.mk.inj (Except.ok.inj h)
        exact .refl
    · dsimp only at h
      split at h
      · cases h
      · split at h
        · cases h
        · obtain ⟨-, rfl⟩ := Prod.mk.inj (Except.ok.inj h)
          exact .single (.save request)

theorem Flat.applyTransaction_writes {v v' : StoreView D} {request : TransactionalWrite}
    {outcome : TransactionalWriteOutcome}
    (h : Flat.applyTransaction cfg v request = .ok (outcome, v')) :
    ReflTransGen (AppliedWrite cfg) v v' := by
  rw [Flat.applyTransaction] at h
  split at h
  · cases h
  · obtain ⟨_, -, h⟩ := Checks.bind_eq_ok.mp h
    split at h
    · split at h
      · cases h
      · obtain ⟨-, rfl⟩ := Prod.mk.inj (Except.ok.inj h)
        exact .refl
    · dsimp only at h
      split at h
      · cases h
      · split at h
        · cases h
        · obtain ⟨-, rfl⟩ := Prod.mk.inj (Except.ok.inj h)
          exact .single (.transaction request)

theorem Flat.commitRecords_writes {v v' : StoreView D} {request : MultiRecordTransactionalWrite}
    {effects : CommitEffects} {outcome : MultiRecordTransactionalWriteOutcome}
    (h : Flat.commitRecords cfg v request effects = .ok (outcome, v')) :
    ReflTransGen (AppliedWrite cfg) v v' := by
  rw [Flat.commitRecords] at h
  obtain ⟨normalEffects, -, h⟩ := Checks.bind_eq_ok.mp h
  obtain ⟨normal, -, h⟩ := Checks.bind_eq_ok.mp h
  obtain ⟨_, -, h⟩ := Checks.bind_eq_ok.mp h
  split at h
  · split at h
    · cases h
    · obtain ⟨-, rfl⟩ := Prod.mk.inj (Except.ok.inj h)
      exact .refl
  · obtain ⟨_, -, h⟩ := Checks.bind_eq_ok.mp h
    obtain ⟨_, -, h⟩ := Checks.bind_eq_ok.mp h
    obtain ⟨-, rfl⟩ := Prod.mk.inj (Except.ok.inj h)
    exact .single (.records normal normalEffects)

theorem Flat.enqueueSnapshot_writes {v v' : StoreView D} {request : SnapshotWrite}
    (h : Flat.enqueueSnapshot cfg v request = .ok ((), v')) :
    ReflTransGen (AppliedWrite cfg) v v' := by
  rw [Flat.enqueueSnapshot] at h
  split at h
  · cases h
  · obtain ⟨⟨outcome, v''⟩, hsave, h⟩ := Checks.bind_eq_ok.mp h
    obtain ⟨-, rfl⟩ := Prod.mk.inj (Except.ok.inj h)
    exact Flat.save_writes hsave

omit [DecidableEq D] in
theorem Flat.entries_writes {ρ α : Type} {f : StoreView D → ρ → Except StoreError (α × StoreView D)}
    (hf : ∀ v r a v', f v r = .ok (a, v') → ReflTransGen (AppliedWrite cfg) v v') :
    ∀ (requests : List ρ) (v : StoreView D),
      ReflTransGen (AppliedWrite cfg) v (Flat.entries f v requests).2
  | [], v => .refl
  | r :: rest, v => by
    rw [Flat.entries]
    cases hr : f v r with
    | error e => exact Flat.entries_writes hf rest v
    | ok result => exact (hf v r _ _ hr).trans (Flat.entries_writes hf rest result.2)

omit [DecidableEq D] in
theorem Flat.loadTransaction_same {v v' : StoreView D} {operationId : String} {record : RecordKey}
    {a : Option TransactionReceipt}
    (h : Flat.loadTransaction v operationId record = .ok (a, v')) : v = v' := by
  rw [Flat.loadTransaction] at h
  split at h
  · cases h
  · split at h
    · exact (Prod.mk.inj (Except.ok.inj h)).2
    · dsimp only at h
      split at h
      · cases h
      · exact (Prod.mk.inj (Except.ok.inj h)).2

omit [DecidableEq D] in
theorem Flat.loadMultiTransaction_same {v v' : StoreView D} {operationId : String}
    {records : List RecordKey} {a : Option MultiRecordTransactionReceipt}
    (h : Flat.loadMultiTransaction v operationId records = .ok (a, v')) : v = v' := by
  rw [Flat.loadMultiTransaction] at h
  split at h
  · cases h
  · split at h
    · exact (Prod.mk.inj (Except.ok.inj h)).2
    · dsimp only at h
      split at h
      · cases h
      · exact (Prod.mk.inj (Except.ok.inj h)).2

omit [DecidableEq D] in
theorem Flat.loadTrade_same {v v' : StoreView D} {tradeId : String} {a : Option TradeEnvelope}
    (h : Flat.loadTrade v tradeId = .ok (a, v')) : v = v' := by
  rw [Flat.loadTrade] at h
  split at h
  · cases h
  · exact (Prod.mk.inj (Except.ok.inj h)).2

omit [DecidableEq D] in
theorem Flat.loadTradeTransaction_same {v v' : StoreView D} {operationId tradeId : String}
    {a : Option TradeReceipt}
    (h : Flat.loadTradeTransaction v operationId tradeId = .ok (a, v')) : v = v' := by
  rw [Flat.loadTradeTransaction] at h
  by_cases hid : blank operationId = true
  · rw [if_pos hid] at h
    cases h
  by_cases htrade : blank tradeId = true
  · rw [if_neg hid, if_pos htrade] at h
    cases h
  rw [if_neg hid, if_neg htrade] at h
  cases hstored : v.tradeTransactions operationId with
  | none =>
    rw [hstored] at h
    exact (Prod.mk.inj (Except.ok.inj h)).2
  | some stored =>
    rw [hstored] at h
    dsimp only at h
    split at h
    · cases h
    · exact (Prod.mk.inj (Except.ok.inj h)).2

/-- Every call is a sequence of writes. -/
theorem call_writes {v v' : StoreView D} :
    ∀ (c : BackendCall) {a : c.Value}, Flat.call cfg v c = .ok (a, v') →
      ReflTransGen (AppliedWrite cfg) v v'
  | .load _, _, h | .loadCached _, _, h | .loadMulti _, _, h | .loadCachedMulti _, _, h => by
    obtain ⟨-, rfl⟩ := Prod.mk.inj (Except.ok.inj h)
    exact .refl
  | .save _, _, h => Flat.save_writes h
  | .saveMulti requests, _, h => by
    have hv' := (Prod.mk.inj (Except.ok.inj h)).2
    rw [← hv']
    exact Flat.entries_writes (fun _ _ _ _ => Flat.save_writes) requests v
  | .enqueueSnapshot _, _, h => Flat.enqueueSnapshot_writes h
  | .enqueueMultiSnapshot requests, _, h => by
    have hv' := (Prod.mk.inj (Except.ok.inj h)).2
    rw [← hv']
    exact Flat.entries_writes (fun _ _ _ _ => Flat.enqueueSnapshot_writes) requests v
  | .applyTransaction _, _, h => Flat.applyTransaction_writes h
  | .loadTransaction _ _, _, h => by rw [Flat.loadTransaction_same h]
  | .commitRecords _ _, _, h => Flat.commitRecords_writes h
  | .applyMultiTransaction _, _, h => Flat.commitRecords_writes h
  | .loadMultiTransaction _ _, _, h => by rw [Flat.loadMultiTransaction_same h]
  | .applyTradeTransaction request, _, h => by
    obtain ⟨normal, hnormal, ⟨-, -, -, -, rfl⟩ | ⟨-, rfl, hroom⟩⟩ :=
      Flat.applyTradeTransaction_ok h
    · exact .refl
    · exact .single (.trade hnormal hroom)
  | .loadTrade _, _, h => by rw [Flat.loadTrade_same h]
  | .loadTradeTransaction _ _, _, h => by rw [Flat.loadTradeTransaction_same h]

/-- What every write preserves holds after every sequence of calls. -/
theorem callAll_invariant {P : StoreView D → Prop}
    (hstep : ∀ v v', AppliedWrite cfg v v' → P v → P v') :
    ∀ (calls : List BackendCall) (v : StoreView D), P v → P (Flat.callAll cfg v calls).2
  | [], _, h => h
  | c :: rest, v, h => by
    rw [Flat.callAll]
    cases hcall : Flat.call cfg v c with
    | error e => exact callAll_invariant hstep rest v h
    | ok result =>
      have hwrites : ∀ w, ReflTransGen (AppliedWrite cfg) v w → P w := by
        intro w hw
        induction hw with
        | refl => exact h
        | tail _ hlast ih => exact hstep _ _ hlast ih
      exact callAll_invariant hstep rest result.2 (hwrites _ (call_writes c hcall))

omit [DecidableEq D] in
/-- A stored trade receipt is the receipt of its normalised request. -/
def TradeReceiptsStored (v : StoreView D) : Prop :=
  ∀ operationId stored, v.tradeTransactions operationId = some stored →
    stored.receipt = stored.request.appliedReceipt ∧ Successors stored.request

omit [DecidableEq D] in
theorem AppliedWrite.tradeReceiptsStored {v v' : StoreView D} (h : AppliedWrite cfg v v')
    (hv : TradeReceiptsStored v) : TradeReceiptsStored v' := by
  cases h with
  | save request => exact hv
  | transaction request => exact hv
  | records request effects => exact hv
  | trade hnormal hroom =>
    intro operationId stored hstored
    rcases update_eq_some hstored with ⟨-, rfl⟩ | ⟨-, hold⟩
    · exact ⟨rfl, hroom⟩
    · exact hv operationId stored hold

end Calls

/-! ### Server and client -/

/-- The receipt of a normalised request carries what the request asks for. -/
theorem appliedReceipt_requested {request normal : TradeTransaction}
    (hnormal : normalizeTradeTransaction request = .ok normal) (hroom : Successors normal) :
    ReceiptRequested normal.appliedReceipt request := by
  obtain ⟨-, rfl⟩ := normalizeTrade_ok hnormal
  refine ⟨?_, rfl, rfl, records_perm_iff.mpr ⟨fun write hmem => ?_, ?_⟩, ?_, ?_⟩
  · exact Revision.next_eq_some.mpr ⟨hroom.version, rfl⟩
  · exact hroom.records write (mem_sortOn.mpr hmem)
  · exact (sortOn_perm _ _).map _
  · exact (sortOn_perm _ _).map _
  · exact (sortOn_perm _ _).map _

/-- **Server and client agree on trade receipts.**  A receipt that the backend returns
for a request from the network, in any state that calls can reach, converts back from
its wire form and matches the request; and the match accepts exactly the receipts with
the requested content. -/
theorem tradeReceipts_agree {D : Type} [DecidableEq D] (cfg : MemoryConfig D) :
    (∀ (calls : List BackendCall) (value : WireApplyTradeTransactionRequest)
      (request : TradeTransaction) (receipt : TradeReceipt) (b' : MemoryBackend cfg),
      value.toCore = .ok request →
      ((applyTradeTransaction request).run (performAll ({} : MemoryBackend cfg) calls).2 =
          .ok (.applied receipt) b' ∨
        (applyTradeTransaction request).run (performAll ({} : MemoryBackend cfg) calls).2 =
          .ok (.duplicate receipt) b') →
      receipt.toMessage.toCore = .ok receipt ∧
        tradeReceiptMatchesRequest receipt request = true) ∧
    ∀ (request : TradeTransaction) (receipt : TradeReceipt),
      (request.writes.map (·.record)).Nodup →
      (request.ledgerPostings.map (·.postingId)).Nodup →
      (request.outboxEvents.map (·.eventId)).Nodup →
      (tradeReceiptMatchesRequest receipt request = true ↔ ReceiptRequested receipt request) := by
  refine ⟨fun calls value request receipt b' hvalue hrun => ?_,
    fun request receipt hrecords _ _ => matchesRequest_iff hrecords⟩
  set b := (performAll ({} : MemoryBackend cfg) calls).2 with hb
  have hstored : TradeReceiptsStored b.view := by
    rw [hb, (performAll_flat calls _).2]
    refine callAll_invariant (fun v v' h => h.tradeReceiptsStored) calls _ ?_
    intro operationId stored h
    cases h
  -- what the flat store answers, in the state the calls have reached
  have hreceipt : ∃ normal, normalizeTradeTransaction request = .ok normal ∧
      receipt = normal.appliedReceipt ∧ Successors normal := by
    have hrefines := applyTradeTransaction_refines b request
    cases hflat : Flat.applyTradeTransaction b.view request with
    | error e =>
      rw [hflat] at hrefines
      have hfail : (applyTradeTransaction request).run b = .error (.store e) b := hrefines
      rw [hfail] at hrun
      rcases hrun with hrun | hrun <;> cases hrun
    | ok result =>
      rw [hflat] at hrefines
      obtain ⟨b'', hok, -⟩ := hrefines
      rw [hok] at hrun
      obtain ⟨normal, hnormal, ⟨stored, hlookup, rfl, houtcome, -⟩ | ⟨houtcome, -, hroom⟩⟩ :=
        Flat.applyTradeTransaction_ok hflat
      · obtain ⟨hsame, hroom⟩ := hstored _ _ hlookup
        refine ⟨_, hnormal, ?_, hroom⟩
        rw [houtcome] at hrun
        rcases hrun with hrun | hrun
        · cases hrun
        · injection hrun with hrun
          rw [← hsame]
          exact (TradeTransactionOutcome.duplicate.inj hrun).symm
      · refine ⟨normal, hnormal, ?_, hroom⟩
        rw [houtcome] at hrun
        rcases hrun with hrun | hrun
        · injection hrun with hrun
          exact (TradeTransactionOutcome.applied.inj hrun).symm
        · cases hrun
  obtain ⟨normal, hnormal, rfl, hroom⟩ := hreceipt
  have hwell := normalizeTrade_isOk.mp ⟨normal, hnormal⟩
  exact ⟨appliedReceipt_toCore hvalue hnormal hroom,
    (matchesRequest_iff hwell.recordKeys).mpr (appliedReceipt_requested hnormal hroom)⟩

/-- The settlement of the sample trade, and what the client is told. -/
def sampleSettlement : TradeTransaction :=
  sampleTrade "op-2" 1 (some .escrowed) .settled ["p-2", "p-1"]

def settledReceipt : TradeReceipt :=
  ⟨"op-2", "trade-1", 2, .settled, [⟨⟨"player", "a"⟩, 2⟩], ["p-1", "p-2"], [], []⟩

def escrowCalls : List BackendCall :=
  [.applyTradeTransaction (sampleTrade "op-1" 0 none .escrowed [])]

/-- The settlement and its retry are answered with one receipt, which carries what was asked. -/
theorem tradeReceipts_agree_settled :
    (settledReceipt.toMessage.toCore = .ok settledReceipt ∧
      tradeReceiptMatchesRequest settledReceipt sampleSettlement = true) ∧
    (∃ b', (applyTradeTransaction sampleSettlement).run (performAll
      ({} : MemoryBackend sampleConfig)
      (escrowCalls ++ [.applyTradeTransaction sampleSettlement])).2 =
        .ok (.duplicate settledReceipt) b') ∧
    ReceiptRequested settledReceipt sampleSettlement := by
  have hvalue : sampleSettlement.toWire.toCore = .ok sampleSettlement := by decide
  have happlied : ∃ b', (applyTradeTransaction sampleSettlement).run
      (performAll ({} : MemoryBackend sampleConfig) escrowCalls).2 =
        .ok (.applied settledReceipt) b' := ⟨_, rfl⟩
  obtain ⟨b', happlied⟩ := happlied
  have hmatch := (tradeReceipts_agree sampleConfig).1 escrowCalls _ _ _ b' hvalue (Or.inl happlied)
  have hdistinct := (tradeReceipts_agree sampleConfig).2 sampleSettlement settledReceipt
    (by decide) (by decide) (by decide)
  exact ⟨hmatch, ⟨_, rfl⟩, hdistinct.mp hmatch.2⟩

end DbProxy
