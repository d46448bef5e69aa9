/-
The receipt of a trade as the TypeScript SDK checks it
(`sdk/typescript/src/index.ts`).

`requireTradeReceiptMatches` sorts both lists of records with `localeCompare` and
compares them place by place.  A locale is a comparator that may not tell
canonically equivalent strings apart; the posting and event ids are sorted by
code units.

* `recordsMatch_iff` — the records pass when they are those of the request and
  the records that the locale ties stand in the order of the writes;
* `requireTradeReceiptMatches_ok_iff` — what the check accepts;
* `receiptCheck_permutationInvariant_iff` — when the order does not matter.
-/
import DbProxy.SdkTrades
import DbProxy.SortOn
import DbProxy.StableSort

namespace DbProxy.Sdk

open Utf16

structure DbProxyMultiTransactionRecordReceipt where
  record : DbProxyRecordKey
  newRevision : ℤ
deriving DecidableEq

structure DbProxyTradeReceipt where
  operationId : JsString
  tradeId : JsString
  newTradeVersion : ℤ
  state : JsString
  records : List DbProxyMultiTransactionRecordReceipt
  ledgerPostingIds : List JsString
  outboxEventIds : List JsString
  result : Bytes

/-! ### The check -/

/-- `localeCompare` of the namespaces `||` `localeCompare` of the keys. -/
def compareRecordReceipts (locale : Comparator JsString)
    (left right : DbProxyMultiTransactionRecordReceipt) : ℤ :=
  if locale.compare left.record.ns right.record.ns ≠ 0 then
    locale.compare left.record.ns right.record.ns
  else locale.compare left.record.key right.record.key

/-- `sort()` without a comparator orders by code units. -/
def sortUnits (l : List JsString) : List JsString := sortOn (fun s => s.map (·.toNat)) l

def stringArraysEqual (left right : List JsString) : Bool :=
  left.length == right.length && (left.zip right).all fun pair => pair.1 == pair.2

def bytesEqual (left right : Bytes) : Bool :=
  left.length == right.length && (left.zip right).all fun pair => pair.1 == pair.2

/-- The receipts that the writes of a transaction ask for. -/
def expectedRecords (transaction : DbProxyTradeTransaction) :
    List DbProxyMultiTransactionRecordReceipt :=
  transaction.writes.map fun write => ⟨write.record, write.expectedRevision + 1⟩

def sortRecords (locale : Comparator JsString) (l : List DbProxyMultiTransactionRecordReceipt) :
    List DbProxyMultiTransactionRecordReceipt :=
  l.insertionSort fun left right => compareRecordReceipts locale left right ≤ 0

def requireTradeReceiptMatches (locale : Comparator JsString)
    (transaction : DbProxyTradeTransaction) (receipt : DbProxyTradeReceipt) :
    Except SdkError Unit := do
  ensure (!(receipt.operationId != transaction.operationId ||
    receipt.tradeId != transaction.transition.tradeId ||
    receipt.newTradeVersion != transaction.transition.expectedVersion + 1 ||
    receipt.state != transaction.transition.nextState ||
    !bytesEqual receipt.result transaction.result))
    (.typeError (codeUnits "trade transaction receipt does not match the request"))
  let expected := sortRecords locale (expectedRecords transaction)
  let actual := sortRecords locale receipt.records
  ensure (!(expected.length != actual.length || (expected.zip actual).any fun pair =>
      pair.1.record.ns != pair.2.record.ns || pair.1.record.key != pair.2.record.key ||
        pair.1.newRevision != pair.2.newRevision))
    (.typeError (codeUnits "trade transaction receipt records do not match the request"))
  let expectedPostingIds := sortUnits (transaction.ledgerPostings.map (·.postingId))
  let actualPostingIds := sortUnits receipt.ledgerPostingIds
  let expectedEventIds := sortUnits (transaction.outboxEvents.map (·.eventId))
  let actualEventIds := sortUnits receipt.outboxEventIds
  ensure (!(!stringArraysEqual expectedPostingIds actualPostingIds ||
    !stringArraysEqual expectedEventIds actualEventIds))
    (.typeError (codeUnits "trade transaction receipt identifiers do not match the request"))

/-! ### What the comparisons find -/

theorem all_zip_beq {α : Type} [BEq α] [LawfulBEq α] : ∀ {l m : List α},
    (l.length == m.length && (l.zip m).all fun pair => pair.1 == pair.2) = true ↔ l = m
  | [], [] => by simp
  | [], _ :: _ => by simp
  | _ :: _, [] => by simp
  | a :: l, b :: m => by
    have ih := all_zip_beq (l := l) (m := m)
    simp only [Bool.and_eq_true, beq_iff_eq] at ih
    simp only [List.length_cons, List.zip_cons_cons, List.all_cons, Bool.and_eq_true, beq_iff_eq,
      Nat.add_right_cancel_iff, List.cons.injEq, ← ih]
    constructor
    · rintro ⟨hlength, rfl, hall⟩
      exact ⟨rfl, hlength, hall⟩
    · rintro ⟨rfl, hlength, hall⟩
      exact ⟨hlength, rfl, hall⟩

theorem stringArraysEqual_iff {left right : List JsString} :
    stringArraysEqual left right = true ↔ left = right := all_zip_beq

theorem bytesEqual_iff {left right : Bytes} : bytesEqual left right = true ↔ left = right :=
  all_zip_beq

/-- The comparison place by place finds no difference. -/
theorem records_zip_iff {l m : List DbProxyMultiTransactionRecordReceipt} :
    (!(l.length != m.length || (l.zip m).any fun pair =>
      pair.1.record.ns != pair.2.record.ns || pair.1.record.key != pair.2.record.key ||
        pair.1.newRevision != pair.2.newRevision)) = true ↔ l = m := by
  have hsame : ∀ p : DbProxyMultiTransactionRecordReceipt × DbProxyMultiTransactionRecordReceipt,
      (!(p.1.record.ns != p.2.record.ns || p.1.record.key != p.2.record.key ||
        p.1.newRevision != p.2.newRevision)) = (p.1 == p.2) := by
    rintro ⟨⟨⟨ns, key⟩, revision⟩, ⟨⟨ns', key'⟩, revision'⟩⟩
    rw [Bool.eq_iff_iff]
    simp [and_assoc]
  rw [← all_zip_beq, Bool.not_or, List.not_any_eq_all_not, bne, Bool.not_not]
  simp only [hsame]

theorem sortUnits_eq_iff {l m : List JsString} : sortUnits l = sortUnits m ↔ l.Perm m := by
  -- code units leave no ties
  have hinj : Function.Injective fun s : JsString => s.map (·.toNat) :=
    List.map_injective_iff.mpr fun _ _ h => UInt16.toNat_inj.mp h
  constructor
  · intro h
    have hperm := sortOn_perm (fun s : JsString => s.map (·.toNat)) l
    have hleft : sortOn (fun s : JsString => s.map (·.toNat)) l =
        sortOn (fun s => s.map (·.toNat)) m := h
    rw [hleft] at hperm
    exact hperm.symm.trans (sortOn_perm _ m)
  · intro h
    refine ((sortOn_perm _ l).trans (h.trans (sortOn_perm _ m).symm)).eq_of_pairwise ?_
      (pairwise_sortOn _ l) (pairwise_sortOn _ m)
    exact fun a b _ _ hab hba => hinj (le_antisymm hab hba)

/-- The order of the records, by namespace and key. -/
def recordOrder (locale : Comparator JsString) : Comparator DbProxyRecordKey :=
  (locale.lex locale).comap fun record => (record.ns, record.key)

theorem sortRecords_eq (locale : Comparator JsString)
    (l : List DbProxyMultiTransactionRecordReceipt) :
    sortRecords locale l = ((recordOrder locale).comap (·.record)).sort l := rfl

/-- The receipt carries what the transaction asks for, its lists in any order. -/
structure ReceiptRequested (transaction : DbProxyTradeTransaction)
    (receipt : DbProxyTradeReceipt) : Prop where
  operationId : receipt.operationId = transaction.operationId
  tradeId : receipt.tradeId = transaction.transition.tradeId
  version : receipt.newTradeVersion = transaction.transition.expectedVersion + 1
  state : receipt.state = transaction.transition.nextState
  result : receipt.result = transaction.result
  records : receipt.records.Perm (expectedRecords transaction)
  postings : receipt.ledgerPostingIds.Perm (transaction.ledgerPostings.map (·.postingId))
  events : receipt.outboxEventIds.Perm (transaction.outboxEvents.map (·.eventId))

/-- Records that the locale does not tell from one another stand in the receipt in the order of
the writes. -/
def TiesInOrder (locale : Comparator JsString) (transaction : DbProxyTradeTransaction)
    (receipt : DbProxyTradeReceipt) : Prop :=
  ∀ record, (transaction.writes.map (·.record)).filter ((recordOrder locale).Tied record) =
    (receipt.records.map (·.record)).filter ((recordOrder locale).Tied record)

theorem recordsMatch_iff (locale : Comparator JsString) {transaction : DbProxyTradeTransaction}
    {receipt : DbProxyTradeReceipt} (hnodup : (transaction.writes.map (·.record)).Nodup) :
    sortRecords locale (expectedRecords transaction) = sortRecords locale receipt.records ↔
      receipt.records.Perm (expectedRecords transaction) ∧
        TiesInOrder locale transaction receipt := by
  have hkeys : (expectedRecords transaction).map (·.record) =
      transaction.writes.map (·.record) := by
    rw [expectedRecords, List.map_map]
    rfl
  have hiff : (expectedRecords transaction).Perm receipt.records →
      (sortRecords locale (expectedRecords transaction) = sortRecords locale receipt.records ↔
        TiesInOrder locale transaction receipt) := by
    intro hperm
    rw [sortRecords_eq, sortRecords_eq, (recordOrder locale).sort_comap_eq_iff hperm
      (hkeys ▸ hnodup), hkeys]
    rfl
  constructor
  · intro h
    have hperm : (expectedRecords transaction).Perm receipt.records := by
      have hsorted :=
        ((recordOrder locale).comap (·.record)).sort_perm (expectedRecords transaction)
      rw [← sortRecords_eq, h, sortRecords_eq] at hsorted
      exact hsorted.symm.trans (Comparator.sort_perm _ _)
    exact ⟨hperm.symm, (hiff hperm).mp h⟩
  · rintro ⟨hperm, hties⟩
    exact (hiff hperm.symm).mpr hties

/-- What the check accepts. -/
theorem requireTradeReceiptMatches_ok_iff (locale : Comparator JsString)
    {transaction : DbProxyTradeTransaction} {receipt : DbProxyTradeReceipt}
    (hnodup : (transaction.writes.map (·.record)).Nodup) :
    requireTradeReceiptMatches locale transaction receipt = .ok () ↔
      ReceiptRequested transaction receipt ∧ TiesInOrder locale transaction receipt := by
  have hreturns : Checks.Returns (requireTradeReceiptMatches locale transaction receipt)
      ((receipt.operationId = transaction.operationId ∧
        receipt.tradeId = transaction.transition.tradeId ∧
        receipt.newTradeVersion = transaction.transition.expectedVersion + 1 ∧
        receipt.state = transaction.transition.nextState ∧
        receipt.result = transaction.result) ∧
      (receipt.records.Perm (expectedRecords transaction) ∧
        TiesInOrder locale transaction receipt) ∧
      (transaction.ledgerPostings.map (·.postingId)).Perm receipt.ledgerPostingIds ∧
      (transaction.outboxEvents.map (·.eventId)).Perm receipt.outboxEventIds) () := by
    refine ((ensure_returns _ _).congr ?_).bind (((ensure_returns _ _).congr ?_).bind
      ((ensure_returns _ _).congr ?_))
    · rw [Bool.not_eq_true']
      simp only [Bool.or_eq_false_iff, bne_eq_false_iff_eq, Bool.not_eq_false', bytesEqual_iff,
        and_assoc]
    · rw [records_zip_iff, recordsMatch_iff locale hnodup]
    · rw [Bool.not_eq_true']
      simp only [Bool.or_eq_false_iff, Bool.not_eq_false', stringArraysEqual_iff, sortUnits_eq_iff]
  rw [hreturns, and_iff_left rfl]
  constructor
  · rintro ⟨⟨hid, htrade, hversion, hstate, hresult⟩, ⟨hrecords, hties⟩, hpostings, hevents⟩
    exact ⟨⟨hid, htrade, hversion, hstate, hresult, hrecords, hpostings.symm, hevents.symm⟩, hties⟩
  · rintro ⟨h, hties⟩
    exact ⟨⟨h.operationId, h.tradeId, h.version, h.state, h.result⟩, ⟨h.records, hties⟩,
      h.postings.symm, h.events.symm⟩

/-- **The receipt check depends on the order of tied records alone.**  A receipt is accepted when
it is what the transaction asks for, in any order, and the records that the locale does not tell
from one another stand in the order of the writes; it therefore accepts what was requested exactly
where a requested receipt has its ties in this order. -/
theorem receiptCheck_permutationInvariant_iff (locale : Comparator JsString)
    (transaction : DbProxyTradeTransaction) (receipt : DbProxyTradeReceipt)
    (hnodup : (transaction.writes.map (·.record)).Nodup) :
    ((requireTradeReceiptMatches locale transaction receipt = .ok () ↔
        ReceiptRequested transaction receipt) ↔
      (ReceiptRequested transaction receipt → TiesInOrder locale transaction receipt)) ∧
    (requireTradeReceiptMatches locale transaction receipt = .ok () →
      ReceiptRequested transaction receipt) := by
  have hiff : requireTradeReceiptMatches locale transaction receipt = .ok () ↔
      ReceiptRequested transaction receipt ∧ TiesInOrder locale transaction receipt :=
    requireTradeReceiptMatches_ok_iff locale hnodup
  refine ⟨⟨fun hclaim hrequested => ?_, fun hties => ?_⟩, fun h => (hiff.mp h).1⟩
  · exact (hiff.mp (hclaim.mpr hrequested)).2
  · rw [hiff]
    exact and_iff_left_of_imp hties

/-! ### Two spellings of one key -/

/-- Orders by code units, but does not tell the two spellings of `é` apart. -/
def canonicalLocale : Comparator JsString :=
  (Comparator.ofOrder (κ := List ℕ)).comap fun s =>
    if s = codeUnits "e\u0301" then (codeUnits "\u00e9").map (·.toNat) else s.map (·.toNat)

def accentWrite (key : String) : DbProxyTransactionalRecordWrite :=
  ⟨⟨codeUnits "bag", codeUnits key⟩, codeUnits "item", 1, 4, [7], 10⟩

/-- Moves the items of two bags whose keys are canonically equivalent. -/
def accentTrade : DbProxyTradeTransaction where
  operationId := codeUnits "op"
  transition := ⟨codeUnits "trade", 0, none, codeUnits "proposed", [], 10⟩
  writes := [accentWrite "\u00e9", accentWrite "e\u0301"]
  ledgerPostings := []
  outboxEvents := []
  result := [1]

/-- The receipt of the server, which sorts the records by their bytes. -/
def accentReceipt : DbProxyTradeReceipt where
  operationId := codeUnits "op"
  tradeId := codeUnits "trade"
  newTradeVersion := 1
  state := codeUnits "proposed"
  records := [⟨(accentWrite "e\u0301").record, 5⟩, ⟨(accentWrite "\u00e9").record, 5⟩]
  ledgerPostingIds := []
  outboxEventIds := []
  result := [1]

theorem accentReceipt_requested : ReceiptRequested accentTrade accentReceipt :=
  ⟨rfl, rfl, rfl, rfl, rfl, List.Perm.swap _ _ _, List.Perm.nil, List.Perm.nil⟩

/-- A requested receipt is refused. -/
theorem accentReceipt_refused : ReceiptRequested accentTrade accentReceipt ∧
    requireTradeReceiptMatches canonicalLocale accentTrade accentReceipt =
      .error (.typeError
        (codeUnits "trade transaction receipt records do not match the request")) := by
  refine ⟨accentReceipt_requested, ?_⟩
  decide

/-- In the order of the writes the same records are accepted. -/
def orderedReceipt : DbProxyTradeReceipt :=
  { accentReceipt with records := accentReceipt.records.reverse }

theorem receiptCheck_permutationInvariant_sample :
    ¬ (requireTradeReceiptMatches canonicalLocale accentTrade accentReceipt = .ok () ↔
      ReceiptRequested accentTrade accentReceipt) ∧
    requireTradeReceiptMatches canonicalLocale accentTrade orderedReceipt = .ok () := by
  have hnodup : (accentTrade.writes.map (·.record)).Nodup := by decide
  constructor
  · rw [(receiptCheck_permutationInvariant_iff canonicalLocale accentTrade accentReceipt hnodup).1]
    intro hties
    have hfirst := hties accentReceipt_requested (accentWrite "\u00e9").record
    revert hfirst
    decide
  · have hrequested : ReceiptRequested accentTrade orderedReceipt :=
      ⟨rfl, rfl, rfl, rfl, rfl, List.Perm.refl _, List.Perm.nil, List.Perm.nil⟩
    refine ((receiptCheck_permutationInvariant_iff canonicalLocale accentTrade orderedReceipt
      hnodup).1.mpr fun _ record => ?_).mpr hrequested
    rfl

end DbProxy.Sdk
