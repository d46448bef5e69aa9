/-
When the flat store accepts a write.

Each lemma gives the exact condition of one method of `Flat`, apart from its retry and
its first attempt, with the answer and the content it leaves.
-/
import DbProxy.FlatOperations

namespace DbProxy

open Text Checks

namespace Flat

variable {D : Type} {cfg : MemoryConfig D} {v : StoreView D}

theorem claimOperation_returns (operationId : String) (kind : OperationKind) :
    Returns (claimOperation v operationId kind)
      (∀ existing, v.operationKinds operationId = some existing → existing = kind) () := by
  rw [claimOperation]
  cases hkind : v.operationKinds operationId with
  | none => exact returns_ok () (by simp)
  | some existing =>
    dsimp only
    by_cases hsame : existing = kind
    · rw [if_neg (not_not_intro hsame)]
      exact returns_ok () (by simp [hsame])
    · rw [if_pos hsame]
      exact returns_error (by simp [hsame])

/-- The record has the expected revision, and that has a successor. -/
def Current (v : StoreView D) (w : TransactionalRecordWrite) : Prop :=
  v.revision w.record = w.expectedRevision ∧ w.expectedRevision + 1 < 2 ^ 64

theorem compareRevisions_returns : ∀ writes : List TransactionalRecordWrite,
    Returns (compareRevisions v writes) (∀ w ∈ writes, Current v w) (writes.map (·.receipt))
  | [] => returns_ok _ (by simp)
  | w :: rest => by
    rw [compareRevisions]
    have hhead : ∀ {R : Prop}, ((∀ w' ∈ w :: rest, Current v w') → R) ↔
        (Current v w ∧ (∀ w' ∈ rest, Current v w') → R) := by
      intro R
      rw [List.forall_mem_cons]
    refine returns_unless (hhead.mpr fun h => not_not_intro h.1.1) fun hcurrent => ?_
    have hcurrent : v.revision w.record = w.expectedRevision := not_not.mp hcurrent
    rw [hcurrent]
    cases hnext : Revision.next w.expectedRevision with
    | none =>
      refine returns_error (hhead.mpr fun h => ?_)
      rw [Revision.next, if_pos h.1.2] at hnext
      cases hnext
    | some next =>
      obtain ⟨hbound, rfl⟩ := Revision.next_eq_some.mp hnext
      refine (compareRevisions_returns rest).bindOf (hhead.mpr And.right) fun hrest => ?_
      exact returns_ok _ (List.forall_mem_cons.mpr ⟨⟨hcurrent, hbound⟩, hrest⟩)

section Save

variable [DecidableEq D] {request : SnapshotWrite}

theorem save_retry {receipt : SnapshotReceipt D}
    (hreceipt : v.snapshotReceipts request.requestId = some receipt) :
    Returns (save cfg v request)
      (blank request.requestId = false ∧ receipt.record = request.record ∧
        receipt.fingerprint = .fromRequest cfg request) (.duplicate receipt.revision, v) := by
  rw [save]
  refine returns_unless (fun h => by simp [h.1]) fun hblank => ?_
  rw [hreceipt]
  refine returns_unless (fun h => by simp [h.2]) fun hsame => ?_
  rw [not_or, not_not, not_not] at hsame
  exact returns_ok _ ⟨by simpa using hblank, hsame⟩

theorem save_first (hreceipt : v.snapshotReceipts request.requestId = none) :
    Returns (save cfg v request)
      (blank request.requestId = false ∧
        request.expectedRevision.all (· = v.revision request.record) = true ∧
        v.revision request.record + 1 < 2 ^ 64)
      (.applied (v.revision request.record + 1), v.save cfg request) := by
  rw [save]
  refine returns_unless (fun h => by simp [h.1]) fun hblank => ?_
  rw [hreceipt]
  dsimp only
  refine returns_unless (fun h => ?_) fun hexpected => ?_
  · have hall := h.2.1
    cases hrevision : request.expectedRevision with
    | none => simp
    | some revision => simpa [hrevision] using hall
  · have hall : request.expectedRevision.all (· = v.revision request.record) = true := by
      cases hrevision : request.expectedRevision with
      | none => rfl
      | some revision => simpa [hrevision] using hexpected
    cases hnext : (v.revision request.record).next with
    | none =>
      refine returns_error fun h => ?_
      rw [Revision.next, if_pos h.2.2] at hnext
      cases hnext
    | some revision =>
      obtain ⟨hbound, rfl⟩ := Revision.next_eq_some.mp hnext
      exact returns_ok _ ⟨by simpa using hblank, hall, hbound⟩

end Save

section Transaction

variable [DecidableEq D] {request : TransactionalWrite}

/-- The id is named, and not claimed by another kind. -/
def Claims (v : StoreView D) (operationId : String) (kind : OperationKind) : Prop :=
  ∀ existing, v.operationKinds operationId = some existing → existing = kind

theorem applyTransaction_retry {receipt : StoredTransactionReceipt D}
    (hreceipt : v.transactions request.operationId = some receipt) :
    Returns (applyTransaction cfg v request)
      (blank request.operationId = false ∧ Claims v request.operationId .single ∧
        receipt.fingerprint = .fromRequest cfg request)
      (.duplicate receipt.newRevision receipt.result, v) := by
  rw [applyTransaction]
  refine returns_unless (fun h => by simp [h.1]) fun hblank => ?_
  refine (claimOperation_returns _ _).bindOf (·.2.1) fun hclaims => ?_
  rw [hreceipt]
  refine returns_unless (fun h => not_not_intro h.2.2) fun hsame => ?_
  exact returns_ok _ ⟨by simpa using hblank, hclaims, not_not.mp hsame⟩

theorem applyTransaction_first (hreceipt : v.transactions request.operationId = none) :
    Returns (applyTransaction cfg v request)
      (blank request.operationId = false ∧ Claims v request.operationId .single ∧
        v.revision request.record = request.expectedRevision ∧
        request.expectedRevision + 1 < 2 ^ 64)
      (.applied (request.expectedRevision + 1) request.result,
        v.applyTransaction cfg request) := by
  rw [applyTransaction]
  refine returns_unless (fun h => by simp [h.1]) fun hblank => ?_
  refine (claimOperation_returns _ _).bindOf (·.2.1) fun hclaims => ?_
  rw [hreceipt]
  dsimp only
  refine returns_unless (fun h => not_not_intro h.2.2.1) fun hcurrent => ?_
  have hcurrent : v.revision request.record = request.expectedRevision := not_not.mp hcurrent
  rw [hcurrent]
  cases hnext : Revision.next request.expectedRevision with
  | none =>
    refine returns_error fun h => ?_
    rw [Revision.next, if_pos h.2.2.2] at hnext
    cases hnext
  | some revision =>
    obtain ⟨hbound, rfl⟩ := Revision.next_eq_some.mp hnext
    exact returns_ok _ ⟨by simpa using hblank, hclaims, rfl, hbound⟩

end Transaction

section Multi

variable [DecidableEq D] {request : MultiRecordTransactionalWrite} {effects : CommitEffects}
  {normal : MultiRecordTransactionalWrite} {normalEffects : CommitEffects}

theorem commitRecords_retry (heffects : effects.normalize cfg.decodeEnvelope = .ok normalEffects)
    (hnormal : normalizeMulti request = .ok normal) {receipt : StoredMultiTransactionReceipt D}
    (hreceipt : v.multiTransactions normal.operationId = some receipt) :
    Returns (commitRecords cfg v request effects)
      (Claims v normal.operationId .multi ∧
        receipt.fingerprint = .fromRequest cfg normal ∧ receipt.effects = normalEffects)
      (.duplicate receipt.records receipt.result, v) := by
  rw [commitRecords, heffects, ok_bind, hnormal, ok_bind]
  refine (claimOperation_returns _ _).bindOf And.left fun hclaims => ?_
  rw [hreceipt]
  refine returns_unless (fun h => by simp [h.2]) fun hsame => ?_
  rw [not_or, not_not, not_not] at hsame
  exact returns_ok _ ⟨hclaims, hsame⟩

/-- The appends and events are new. -/
structure NewEffects (ids : TradeIdentifiers) (effects : CommitEffects) : Prop where
  appends : ∀ append ∈ effects.appends, ids.appends append.record = none
  events : ∀ event ∈ effects.outboxEvents, event.eventId ∉ ids.outboxEventIds

theorem checkEffectIds_returns (ids : TradeIdentifiers) (effects : CommitEffects) :
    Returns (checkEffectIds ids effects) (NewEffects ids effects) () := by
  rw [checkEffectIds]
  have happends : Returns (effects.appends.forM fun append =>
      if (ids.appends append.record).isSome then .error (StoreError.appendRecordConflict append.record)
      else .ok ()) (∀ append ∈ effects.appends, ids.appends append.record = none) () := by
    refine returns_forM fun append _ => ?_
    cases ids.appends append.record <;> simp
  have hevents : Returns (effects.outboxEvents.forM fun event =>
      if event.eventId ∈ ids.outboxEventIds then .error (StoreError.outboxEventConflict event.eventId)
      else .ok ()) (∀ event ∈ effects.outboxEvents, event.eventId ∉ ids.outboxEventIds) () := by
    refine returns_forM fun event _ => ?_
    by_cases hmem : event.eventId ∈ ids.outboxEventIds <;> simp [hmem]
  refine happends.bindOf (·.appends) fun h => ?_
  exact hevents.congr ⟨fun h' => ⟨h, h'⟩, fun h' => h'.events⟩

theorem commitRecords_first (heffects : effects.normalize cfg.decodeEnvelope = .ok normalEffects)
    (hnormal : normalizeMulti request = .ok normal)
    (hreceipt : v.multiTransactions normal.operationId = none) :
    Returns (commitRecords cfg v request effects)
      (Claims v normal.operationId .multi ∧ NewEffects v.identifiers normalEffects ∧
        ∀ w ∈ normal.writes, Current v w)
      (.applied (normal.writes.map (·.receipt)) normal.result,
        v.commitRecords cfg normal normalEffects) := by
  rw [commitRecords, heffects, ok_bind, hnormal, ok_bind]
  refine (claimOperation_returns _ _).bindOf And.left fun hclaims => ?_
  rw [hreceipt]
  refine (checkEffectIds_returns _ _).bindOf (·.2.1) fun hnew => ?_
  refine (compareRevisions_returns _).bindOf (·.2.2) fun hcurrent => ?_
  exact returns_ok _ ⟨hclaims, hnew, hcurrent⟩

end Multi

section Trade

variable {request normal : TradeTransaction}

theorem applyTradeTransaction_retry (hnormal : normalizeTradeTransaction request = .ok normal)
    {stored : StoredTradeTransactionReceipt}
    (hstored : v.tradeTransactions normal.operationId = some stored) :
    Returns (applyTradeTransaction v request)
      (Claims v normal.operationId .trade ∧ stored.request = normal)
      (.duplicate stored.receipt, v) := by
  rw [applyTradeTransaction, hnormal, ok_bind]
  refine (claimOperation_returns _ _).bindOf And.left fun hclaims => ?_
  rw [hstored]
  refine returns_unless (fun h => not_not_intro h.2) fun hsame => ?_
  exact returns_ok _ ⟨hclaims, not_not.mp hsame⟩

/-- The postings and events are new. -/
structure NewTradeIds (ids : TradeIdentifiers) (request : TradeTransaction) : Prop where
  postings : ∀ posting ∈ request.ledgerPostings, posting.postingId ∉ ids.ledgerPostingIds
  events : ∀ event ∈ request.outboxEvents, event.eventId ∉ ids.outboxEventIds

theorem checkTradeIds_returns (ids : TradeIdentifiers) (request : TradeTransaction) :
    Returns (checkTradeIds ids request) (NewTradeIds ids request) () := by
  rw [checkTradeIds]
  have hpostings : Returns (request.ledgerPostings.forM fun posting =>
      if posting.postingId ∈ ids.ledgerPostingIds then
        .error (StoreError.ledgerPostingConflict posting.postingId)
      else .ok ())
      (∀ posting ∈ request.ledgerPostings, posting.postingId ∉ ids.ledgerPostingIds) () := by
    refine returns_forM fun posting _ => ?_
    by_cases hmem : posting.postingId ∈ ids.ledgerPostingIds <;> simp [hmem]
  have hevents : Returns (request.outboxEvents.forM fun event =>
      if event.eventId ∈ ids.outboxEventIds then .error (StoreError.outboxEventConflict event.eventId)
      else .ok ()) (∀ event ∈ request.outboxEvents, event.eventId ∉ ids.outboxEventIds) () := by
    refine returns_forM fun event _ => ?_
    by_cases hmem : event.eventId ∈ ids.outboxEventIds <;> simp [hmem]
  refine hpostings.bindOf (·.postings) fun h => ?_
  exact hevents.congr ⟨fun h' => ⟨h, h'⟩, fun h' => h'.events⟩

/-- The stored trade is what the transition expects. -/
def Expected (current : Option TradeEnvelope) (transition : TradeTransition) : Prop :=
  (current.map (·.version)).getD 0 = transition.expectedVersion ∧
    current.map (·.state) = transition.expectedState

theorem checkTradeState_returns (current : Option TradeEnvelope) (transition : TradeTransition) :
    Returns (checkTradeState current transition) (Expected current transition) () := by
  rw [checkTradeState]
  by_cases hversion : (current.map (·.version)).getD 0 = transition.expectedVersion
  · rw [if_neg (not_not_intro hversion)]
    by_cases hstate : current.map (·.state) = transition.expectedState
    · rw [if_neg (not_not_intro hstate)]
      exact returns_ok () ⟨hversion, hstate⟩
    · rw [if_pos hstate]
      exact returns_error fun h => hstate h.2
  · rw [if_pos hversion]
    exact returns_error fun h => hversion h.1

theorem applyTradeTransaction_first (hnormal : normalizeTradeTransaction request = .ok normal)
    (hnone : v.tradeTransactions normal.operationId = none) :
    Returns (applyTradeTransaction v request)
      (Claims v normal.operationId .trade ∧
        Expected (v.trades normal.transition.tradeId) normal.transition ∧
        NewTradeIds v.identifiers normal ∧ (∀ w ∈ normal.writes, Current v w) ∧
        normal.transition.expectedVersion + 1 < 2 ^ 64)
      (.applied normal.appliedReceipt, v.applyTrade normal) := by
  rw [applyTradeTransaction, hnormal, ok_bind]
  refine (claimOperation_returns _ _).bindOf And.left fun hclaims => ?_
  rw [hnone]
  refine (checkTradeState_returns _ _).bindOf (·.2.1) fun hstate => ?_
  refine (checkTradeIds_returns _ _).bindOf (·.2.2.1) fun hnew => ?_
  refine (compareRevisions_returns _).bindOf (·.2.2.2.1) fun hcurrent => ?_
  rw [hstate.1]
  cases hnext : Revision.next normal.transition.expectedVersion with
  | none =>
    refine returns_error fun h => ?_
    rw [Revision.next, if_pos h.2.2.2.2] at hnext
    cases hnext
  | some version =>
    obtain ⟨hbound, rfl⟩ := Revision.next_eq_some.mp hnext
    exact returns_ok _ ⟨hclaims, hstate, hnew, hcurrent, hbound⟩

end Trade

end Flat

end DbProxy
