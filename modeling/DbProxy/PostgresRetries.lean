/-
How PostgreSQL recognises a retry.

The stored rows match the requests that repeat the stored one, and no other: for a
transaction of one record, for a transaction of several records with its effects, and for
a trade.

* `transactionMatches_iff`, `receiptMatches_iff`, `effectsMatch_iff`;
* `tradeReceiptMatches_iff` — the rows of four tables together.
-/
import DbProxy.PostgresTradeCommits

namespace DbProxy

open Text

namespace PostgresSnapshotStore

/-! ### Recognising a retry -/

/-- Two requests that differ in the operation id at most. -/
def SameTransaction (a b : TransactionalWrite) : Prop :=
  a.record = b.record ∧ a.schema = b.schema ∧ a.schemaVersion = b.schemaVersion ∧
    a.expectedRevision = b.expectedRevision ∧ a.payload = b.payload ∧ a.result = b.result ∧
    a.updatedAtUnixMs = b.updatedAtUnixMs

theorem transactionMatches_iff {source request : TransactionalWrite} {revision : Revision} :
    transactionMatches (transactionRow source revision) request = true ↔
      SameTransaction source request := by
  simp only [transactionMatches, Bool.and_eq_true, decide_eq_true_eq, and_assoc]
  rfl

theorem rowMatches_iff {w w' : TransactionalRecordWrite} {revision : Revision}
    (hrevision : w.expectedRevision < bigintLimit) (htime : w.updatedAtUnixMs < bigintLimit) :
    multiTransactionRowMatches (.ofWrite w revision) w' = true ↔ w = w' := by
  constructor
  · intro h
    simp only [multiTransactionRowMatches, Bool.and_eq_true, decide_eq_true_eq] at h
    obtain ⟨⟨⟨⟨⟨⟨-, h1⟩, h2⟩, h3⟩, h4⟩, h5⟩, h6⟩ := h
    cases w
    cases w'
    exact TransactionalRecordWrite.mk.injEq .. |>.mpr ⟨h1, h2, h3, h4, h5, h6⟩
  · rintro rfl
    exact multiTransactionRowMatches_ofWrite hrevision htime revision

/-- The comparison by position of the rows of one list with another list. -/
theorem rowsMatch_map_iff {α ρ : Type} {row : α → ρ} {rowMatches : ρ → α → Bool} {l l' : List α}
    (h : ∀ a ∈ l, ∀ b, rowMatches (row a) b = true ↔ a = b) :
    rowsMatch rowMatches (l.map row) l' = true ↔ l = l' := by
  rw [rowsMatch, Bool.and_eq_true, decide_eq_true_eq]
  induction l generalizing l' with
  | nil => cases l' <;> simp
  | cons a l ih =>
    cases l' with
    | nil => simp
    | cons b l' =>
      have htail : _ ↔ l = l' := ih fun a' ha' => h a' (List.mem_cons_of_mem _ ha')
      have hhead := h a (List.mem_cons_self ..) b
      simp only [List.map_cons, List.length_cons, add_left_inj, List.zip_cons_cons, List.all_cons,
        Bool.and_eq_true, List.cons.injEq, hhead, ← htail]
      tauto

/-- The rows of a stored request match the requests with the same writes and result. -/
theorem receiptMatches_iff {source request : MultiRecordTransactionalWrite} (hfits : source.Fits)
    (hsorted : source.writes.Pairwise fun a b => a.record ≤ b.record) :
    receiptMatches source.header (sortOn (·.record)
      (source.rows (source.writes.map (·.expectedRevision + 1)))) request = true ↔
      source.writes = request.writes ∧ source.result = request.result := by
  rw [sortOn_eq_self (source.rows_pairwise hsorted _), header_rows_eq]
  have hrows : rowsMatch multiTransactionRowMatches
      (source.writes.map fun w => MultiRecordRow.ofWrite w (w.expectedRevision + 1))
      request.writes = true ↔ source.writes = request.writes :=
    rowsMatch_map_iff fun w hw w' => rowMatches_iff (hfits w hw).1 (hfits w hw).2
  rw [← hrows, receiptMatches, rowsMatch, List.length_map]
  simp only [Bool.and_eq_true, decide_eq_true_eq]
  show ((source.writes.length = _ ∧ source.result = _) ∧ _) ∧ _ ↔ _
  tauto

/-- The effects of a stored request match the same effects. -/
theorem effectsMatch_iff {encode : CommitEffects → Bytes} {source effects : CommitEffects}
    (hencode : encode source = encode effects → source = effects) :
    effectsMatch encode (effectsRow encode source) effects = true ↔ source = effects := by
  rw [effectsRow]
  by_cases hempty : source.isEmpty = true
  · rw [if_pos hempty, effectsMatch]
    obtain ⟨happends, hevents⟩ := isEmpty_iff.mp hempty
    rw [isEmpty_iff]
    obtain ⟨appends, events⟩ := source
    obtain ⟨appends', events'⟩ := effects
    rw [CommitEffects.mk.injEq, show appends = [] from happends, show events = [] from hevents]
    exact and_congr eq_comm eq_comm
  · rw [if_neg hempty, effectsMatch, decide_eq_true_eq]
    exact ⟨hencode, congrArg encode⟩

/-- The parts that an applied trade leaves. -/
def partsOf (request : TradeTransaction) : ReceiptParts where
  header := tradeOperationRow request
  records := request.writes.map fun w => .ofWrite w (w.expectedRevision + 1)
  ledger := request.ledgerPostings.map (ledgerRow request)
  outbox := request.outboxEvents.map
    (outboxRow request.operationId (some request.transition.tradeId))

/-- The numbers of a trade that fit `BIGINT`. -/
structure TradeFits (request : TradeTransaction) : Prop where
  version : request.transition.expectedVersion + 1 < bigintLimit
  time : request.transition.updatedAtUnixMs < bigintLimit
  writes : ∀ w ∈ request.writes,
    w.expectedRevision + 1 < bigintLimit ∧ w.updatedAtUnixMs < bigintLimit
  events : ∀ event ∈ request.outboxEvents, event.occurredAtUnixMs < bigintLimit

theorem tradeRecordMatches_iff {w w' : TransactionalRecordWrite}
    (hfits : w.expectedRevision + 1 < bigintLimit ∧ w.updatedAtUnixMs < bigintLimit) :
    tradeRecordMatches (.ofWrite w (w.expectedRevision + 1)) w' = true ↔ w = w' := by
  constructor
  · intro h
    simp only [tradeRecordMatches, Bool.and_eq_true, decide_eq_true_eq] at h
    obtain ⟨⟨⟨⟨⟨⟨⟨-, h1⟩, -⟩, h2⟩, h3⟩, h4⟩, h5⟩, h6⟩ := h
    cases w
    cases w'
    exact TransactionalRecordWrite.mk.injEq .. |>.mpr ⟨h1, h2, h3, h4, h5, h6⟩
  · rintro rfl
    simp [tradeRecordMatches, MultiRecordRow.ofWrite, hasSuccessor, hfits]

theorem ledgerRowMatches_iff {request : TradeTransaction} {posting posting' : LedgerPosting} :
    ledgerRowMatches (ledgerRow request posting) posting' = true ↔ posting = posting' := by
  simp only [ledgerRowMatches, Bool.and_eq_true, decide_eq_true_eq]
  cases posting
  cases posting'
  simp [ledgerRow, and_assoc]

theorem outboxRowMatches_iff {operationId : String} {tradeId : Option String}
    {event event' : OutboxEvent} (hfits : event.occurredAtUnixMs < bigintLimit) :
    outboxRowMatches (outboxRow operationId tradeId event) event' = true ↔ event = event' := by
  constructor
  · intro h
    simp only [outboxRowMatches, Bool.and_eq_true, decide_eq_true_eq] at h
    obtain ⟨⟨⟨⟨⟨-, h1⟩, h2⟩, h3⟩, h4⟩, h5⟩ := h
    cases event
    cases event'
    exact OutboxEvent.mk.injEq .. |>.mpr ⟨h1, h2, h3, h4, h5⟩
  · rintro rfl
    simp [outboxRowMatches, outboxRow, hfits]

theorem headerMatches_iff {source request : TradeTransaction} (hfits : TradeFits source)
    (hwrites : source.writes = request.writes)
    (hpostings : source.ledgerPostings = request.ledgerPostings)
    (hevents : source.outboxEvents = request.outboxEvents) :
    headerMatches (tradeOperationRow source) request = true ↔
      source.transition = request.transition ∧ source.result = request.result := by
  constructor
  · intro h
    simp only [headerMatches, Bool.and_eq_true, decide_eq_true_eq] at h
    obtain ⟨⟨⟨⟨⟨⟨⟨⟨⟨⟨h1, -, h2⟩, h3⟩, h4⟩, h5⟩, h6⟩, -⟩, -⟩, -⟩, -⟩, -, h7⟩ := h
    refine ⟨?_, h6⟩
    have hstate := Option.map_injective TradeState.toI16_injective h3
    have hnext := TradeState.toI16_injective h4
    rcases source with ⟨_, ⟨_, _, _, _, _, _⟩, _, _, _, _⟩
    rcases request with ⟨_, ⟨_, _, _, _, _, _⟩, _, _, _, _⟩
    exact TradeTransition.mk.injEq .. |>.mpr ⟨h1, h2, hstate, hnext, h5, h7⟩
  · rintro ⟨htransition, hresult⟩
    have hversion := hfits.version
    have htime := hfits.time
    have hsmall := (Nat.lt_succ_self _).trans hversion
    simp only [headerMatches, hasSuccessor, Bool.and_eq_true, decide_eq_true_eq,
      ← htransition, ← hresult, ← hwrites, ← hpostings, ← hevents]
    exact ⟨⟨⟨⟨⟨⟨⟨⟨⟨⟨rfl, hsmall, rfl⟩, rfl⟩, rfl⟩, rfl⟩, rfl⟩, rfl⟩, rfl⟩, rfl⟩, hversion, rfl⟩,
      htime, rfl⟩

/-- The rows of a stored trade match its repetition only. -/
theorem tradeReceiptMatches_iff {source request : TradeTransaction} (hfits : TradeFits source)
    (hid : source.operationId = request.operationId) :
    tradeReceiptMatches (partsOf source) request = true ↔ source = request := by
  have hrecords : rowsMatch tradeRecordMatches (partsOf source).records request.writes = true ↔
      source.writes = request.writes :=
    rowsMatch_map_iff fun w hw w' => tradeRecordMatches_iff (hfits.writes w hw)
  have hledger : rowsMatch ledgerRowMatches (partsOf source).ledger
      request.ledgerPostings = true ↔ source.ledgerPostings = request.ledgerPostings :=
    rowsMatch_map_iff fun posting _ posting' => ledgerRowMatches_iff
  have houtbox : rowsMatch outboxRowMatches (partsOf source).outbox request.outboxEvents = true ↔
      source.outboxEvents = request.outboxEvents :=
    rowsMatch_map_iff fun event hmem event' => outboxRowMatches_iff (hfits.events event hmem)
  rw [tradeReceiptMatches, Bool.and_eq_true, Bool.and_eq_true, Bool.and_eq_true, hrecords, hledger,
    houtbox]
  constructor
  · rintro ⟨⟨⟨hheader, hwrites⟩, hpostings⟩, hevents⟩
    obtain ⟨htransition, hresult⟩ :=
      (headerMatches_iff hfits hwrites hpostings hevents).mp hheader
    cases source
    cases request
    exact TradeTransaction.mk.injEq .. |>.mpr
      ⟨hid, htransition, hwrites, hpostings, hevents, hresult⟩
  · rintro rfl
    exact ⟨⟨⟨(headerMatches_iff hfits rfl rfl rfl).mpr ⟨rfl, rfl⟩, rfl⟩, rfl⟩, rfl⟩

end PostgresSnapshotStore

end DbProxy
