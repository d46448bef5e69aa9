/-
The canonical forms of effects and trades (`commit.rs`, `trade.rs`).

A normalised request is stored and compared with every retry, so it may depend
on the elements of its lists only, and what is accepted may not depend on the
order in which the checks meet them.  For each of the two normalisations:

* `WellFormedEffects`, `WellFormedTrade` — what is accepted, without an order;
* `normalize_isOk`, `normalizeTrade_isOk` — acceptance is exactly this;
* `effects_canonical`, `trade_canonical` — the result is the sorted input, a
  fixed point, and the same for every permutation.

The balances that a trade keeps while it reads its postings are `i128` values;
`runningBalances_exact` says that no sum of a request from the network leaves
that range.
-/
import DbProxy.TradeTransaction
import DbProxy.WireRequests

namespace DbProxy

open Text

/-! ### Effects -/

/-- An event on a reserved topic carries a valid envelope that repeats its identity. -/
def CarriesEnvelope (decode : Bytes → Option EventEnvelope) (event : OutboxEvent) : Prop :=
  ∃ envelope, decode event.payload = some envelope ∧ envelope.Valid ∧
    event.topic = envelope.topic ∧ event.eventId = envelope.eventId ∧
    event.partitionKey = envelope.partitionKey ∧
    event.occurredAtUnixMs = envelope.occurredAtUnixMs

structure WellFormedEffects (decode : Bytes → Option EventEnvelope) (effects : CommitEffects) :
    Prop where
  appends : ∀ append ∈ effects.appends, blank append.record.ns = false ∧
    blank append.record.key = false ∧ blank append.schema = false
  appendKeys : (effects.appends.map (·.record)).Nodup
  events : ∀ event ∈ effects.outboxEvents, blank event.eventId = false ∧
    blank event.topic = false ∧ blank event.partitionKey = false
  eventIds : (effects.outboxEvents.map (·.eventId)).Nodup
  envelopes : ∀ event ∈ effects.outboxEvents, isRelayTopic event.topic = true →
    CarriesEnvelope decode event

namespace CommitEffects

variable {decode : Bytes → Option EventEnvelope}

theorem checkAppend_eq_ok {append : AppendRecord} :
    checkAppend append = .ok () ↔ blank append.record.ns = false ∧
      blank append.record.key = false ∧ blank append.schema = false := by
  rw [checkAppend, RecordKey.new]
  cases blank append.record.ns <;> cases blank append.record.key <;>
    cases blank append.schema <;> simp [bind, Except.bind]

theorem fromOutbox_isOk {event : OutboxEvent} :
    (∃ envelope, EventEnvelope.fromOutbox decode event = .ok envelope) ↔
      (isRelayTopic event.topic = true → CarriesEnvelope decode event) := by
  simp only [EventEnvelope.fromOutbox_eq_ok]
  constructor
  · rintro ⟨_, ⟨hlegacy, -⟩ | ⟨envelope, -, hdecode, hvalid, htopic, hid, hkey, htime, -⟩⟩ hrelay
    · rw [hlegacy] at hrelay
      cases hrelay
    · exact ⟨envelope, hdecode, hvalid, htopic, hid, hkey, htime⟩
  · intro h
    by_cases hrelay : isRelayTopic event.topic = true
    · obtain ⟨envelope, hdecode, hvalid, htopic, hid, hkey, htime⟩ := h hrelay
      exact ⟨some envelope, Or.inr ⟨envelope, hrelay, hdecode, hvalid, htopic, hid, hkey, htime,
        rfl⟩⟩
    · exact ⟨none, Or.inl ⟨Bool.eq_false_of_not_eq_true hrelay, rfl⟩⟩

theorem checkEvent_eq_ok {event : OutboxEvent} :
    checkEvent decode event = .ok () ↔
      (isRelayTopic event.topic = true → CarriesEnvelope decode event) ∧
        blank event.eventId = false ∧ blank event.topic = false ∧
        blank event.partitionKey = false := by
  rw [checkEvent, Checks.bind_eq_ok, ← fromOutbox_isOk]
  constructor
  · rintro ⟨envelope, henvelope, h⟩
    split at h
    · cases h
    · rename_i hblank
      exact ⟨⟨envelope, henvelope⟩, by simpa [and_assoc] using hblank⟩
  · rintro ⟨⟨envelope, henvelope⟩, hblank⟩
    refine ⟨envelope, henvelope, if_neg ?_⟩
    simpa [and_assoc] using hblank

/-- Normalisation accepts exactly the well-formed effects. -/
theorem normalize_isOk {effects : CommitEffects} :
    (∃ normal, effects.normalize decode = .ok normal) ↔ WellFormedEffects decode effects := by
  constructor
  · rintro ⟨normal, h⟩
    obtain ⟨-, happends, hevents⟩ := normalize_ok h
    rw [normalize] at h
    obtain ⟨_, hkeys, h⟩ := Checks.bind_eq_ok.mp h
    obtain ⟨_, -, h⟩ := Checks.bind_eq_ok.mp h
    obtain ⟨_, hscan, -⟩ := Checks.bind_eq_ok.mp h
    have hcheck : ∀ event ∈ effects.outboxEvents, checkEvent decode event = .ok () := by
      intro event hmem
      exact ((Checks.scanDistinct_eq_ok.mp hscan).1 event (mem_sortOn.mpr hmem)).1
    exact ⟨fun append hmem => checkAppend_eq_ok.mp
        (Checks.forM_eq_ok.mp hkeys append (mem_sortOn.mpr hmem)), happends,
      fun event hmem => (checkEvent_eq_ok.mp (hcheck event hmem)).2, hevents,
      fun event hmem => (checkEvent_eq_ok.mp (hcheck event hmem)).1⟩
  · intro h
    refine ⟨_, Checks.bind_eq_ok.mpr ⟨⟨⟩, ?_, Checks.bind_eq_ok.mpr ⟨⟨⟩, ?_,
      Checks.bind_eq_ok.mpr ⟨⟨⟩, ?_, rfl⟩⟩⟩⟩
    · refine Checks.forM_eq_ok.mpr fun append hmem => ?_
      exact checkAppend_eq_ok.mpr (h.appends append (mem_sortOn.mp hmem))
    · exact checkDistinctRecords_ok.mpr h.appendKeys
    · refine Checks.scanDistinct_eq_ok.mpr ⟨fun event hmem => ?_, map_sortOn_nodup.mpr h.eventIds⟩
      have hmem := mem_sortOn.mp hmem
      refine ⟨checkEvent_eq_ok.mpr ⟨h.envelopes event hmem, h.events event hmem⟩, rfl, ?_⟩
      exact List.not_mem_nil

end CommitEffects

/-- **Effects have a canonical form.** -/
theorem effects_canonical (decode : Bytes → Option EventEnvelope) (effects : CommitEffects) :
    ((∃ normal, effects.normalize decode = .ok normal) ↔ WellFormedEffects decode effects) ∧
    (∀ normal, effects.normalize decode = .ok normal →
      normal.appends.Perm effects.appends ∧ normal.outboxEvents.Perm effects.outboxEvents ∧
      normal.appends.Pairwise (fun a b => a.record < b.record) ∧
      normal.outboxEvents.Pairwise (fun a b => a.eventId < b.eventId) ∧
      normal.normalize decode = .ok normal) ∧
    ∀ other : CommitEffects, other.appends.Perm effects.appends →
      other.outboxEvents.Perm effects.outboxEvents →
      ∀ normal, other.normalize decode = .ok normal ↔ effects.normalize decode = .ok normal := by
  refine ⟨CommitEffects.normalize_isOk, fun normal h => ?_, fun other ha he normal => ?_⟩
  · obtain ⟨rfl, happends, hevents⟩ := CommitEffects.normalize_ok h
    refine ⟨sortOn_perm _ _, sortOn_perm _ _, strictlySorted_sortOn happends,
      strictlySorted_sortOn hevents, ?_⟩
    exact CommitEffects.normalize_perm h (sortOn_perm _ _) (sortOn_perm _ _)
  · constructor
    · intro h
      exact CommitEffects.normalize_perm h ha.symm he.symm
    · intro h
      exact CommitEffects.normalize_perm h ha he

/-! ### Trades -/

structure WellFormedTrade (request : TradeTransaction) : Prop where
  operationId : blank request.operationId = false
  tradeId : blank request.transition.tradeId = false
  writes : request.writes ≠ []
  create_iff : request.transition.expectedVersion = 0 ↔ request.transition.expectedState = none
  transition :
    isValidTransition request.transition.expectedState request.transition.nextState = true
  records : ∀ write ∈ request.writes, blank write.record.ns = false ∧
    blank write.record.key = false
  recordKeys : (request.writes.map (·.record)).Nodup
  postings : ∀ posting ∈ request.ledgerPostings, blank posting.postingId = false ∧
    blank posting.accountId = false ∧ blank posting.asset = false ∧ posting.amount ≠ 0
  postingIds : (request.ledgerPostings.map (·.postingId)).Nodup
  balanced : ∀ asset,
    ((request.ledgerPostings.filter (·.asset == asset)).map (·.amount)).sum = 0
  events : ∀ event ∈ request.outboxEvents, blank event.eventId = false ∧
    blank event.partitionKey = false ∧ blank event.topic = false ∧
    isRelayTopic event.topic = false
  eventIds : (request.outboxEvents.map (·.eventId)).Nodup

/-- Normalisation accepts exactly the well-formed trades. -/
theorem normalizeTrade_isOk {request : TradeTransaction} :
    (∃ normal, normalizeTradeTransaction request = .ok normal) ↔ WellFormedTrade request := by
  have hbalance : ∀ asset, assetBalance asset (sortOn (·.postingId) request.ledgerPostings) =
      assetBalance asset request.ledgerPostings := fun asset =>
    assetBalance_perm (sortOn_perm _ _)
  constructor
  · rintro ⟨normal, h⟩
    rw [normalizeTradeTransaction] at h
    obtain ⟨_, hheader, h⟩ := Checks.bind_eq_ok.mp h
    obtain ⟨_, hwrites, h⟩ := Checks.bind_eq_ok.mp h
    obtain ⟨_, hrecords, h⟩ := Checks.bind_eq_ok.mp h
    obtain ⟨_, hpostings, h⟩ := Checks.bind_eq_ok.mp h
    obtain ⟨_, hbalances, h⟩ := Checks.bind_eq_ok.mp h
    obtain ⟨_, hevents, -⟩ := Checks.bind_eq_ok.mp h
    obtain ⟨hid, htrade, hnonempty, hcreate, hvalid⟩ := checkTradeHeader_eq_ok.mp hheader
    obtain ⟨hposting, hpostingIds⟩ := Checks.scanDistinct_eq_ok.mp hpostings
    obtain ⟨hevent, heventIds⟩ := Checks.scanDistinct_eq_ok.mp hevents
    refine ⟨hid, htrade, hnonempty, hcreate, hvalid, fun write hmem => ?_,
      checkDistinctRecords_ok.mp hrecords, fun posting hmem => ?_,
      map_sortOn_nodup.mp hpostingIds, fun asset => ?_, fun event hmem => ?_,
      map_sortOn_nodup.mp heventIds⟩
    · exact checkWriteRecord_eq_ok.mp (Checks.forM_eq_ok.mp hwrites write (mem_sortOn.mpr hmem))
    · obtain ⟨hbefore, hafter, -⟩ := hposting posting (mem_sortOn.mpr hmem)
      exact ⟨checkPostingId_eq_ok.mp hbefore, checkPostingFields_eq_ok.mp hafter⟩
    · exact (hbalance asset).symm.trans (checkBalances_eq_ok.mp hbalances asset)
    · obtain ⟨hbefore, hafter, -⟩ := hevent event (mem_sortOn.mpr hmem)
      obtain ⟨hrelay, hblank⟩ := checkTradeEventId_eq_ok.mp hbefore
      obtain ⟨htopic, hpartition⟩ := checkTradeEventRoute_eq_ok.mp hafter
      exact ⟨hblank, hpartition, htopic, hrelay⟩
  · intro h
    refine ⟨_, Checks.bind_eq_ok.mpr ⟨⟨⟩, checkTradeHeader_eq_ok.mpr ⟨h.operationId, h.tradeId,
      h.writes, h.create_iff, h.transition⟩, Checks.bind_eq_ok.mpr ⟨⟨⟩, ?_,
      Checks.bind_eq_ok.mpr ⟨⟨⟩, checkDistinctRecords_ok.mpr h.recordKeys,
      Checks.bind_eq_ok.mpr ⟨⟨⟩, ?_, Checks.bind_eq_ok.mpr ⟨⟨⟩, ?_,
      Checks.bind_eq_ok.mpr ⟨⟨⟩, ?_, rfl⟩⟩⟩⟩⟩⟩⟩
    · refine Checks.forM_eq_ok.mpr fun write hmem => ?_
      exact checkWriteRecord_eq_ok.mpr (h.records write (mem_sortOn.mp hmem))
    · refine Checks.scanDistinct_eq_ok.mpr
        ⟨fun posting hmem => ?_, map_sortOn_nodup.mpr h.postingIds⟩
      obtain ⟨hid, hfields⟩ := h.postings posting (mem_sortOn.mp hmem)
      exact ⟨checkPostingId_eq_ok.mpr hid, checkPostingFields_eq_ok.mpr hfields,
        List.not_mem_nil⟩
    · exact checkBalances_eq_ok.mpr fun asset => (hbalance asset).trans (h.balanced asset)
    · refine Checks.scanDistinct_eq_ok.mpr ⟨fun event hmem => ?_, map_sortOn_nodup.mpr h.eventIds⟩
      obtain ⟨hid, hpartition, htopic, hrelay⟩ := h.events event (mem_sortOn.mp hmem)
      exact ⟨checkTradeEventId_eq_ok.mpr ⟨hrelay, hid⟩,
        checkTradeEventRoute_eq_ok.mpr ⟨htopic, hpartition⟩, List.not_mem_nil⟩

/-! ### Running balances -/

/-- `*balances.entry(asset).or_default() += i128::from(amount)`, or `none` on overflow. -/
def addPosting (balances : String → ℤ) (posting : LedgerPosting) : Option (String → ℤ) :=
  let sum := balances posting.asset + posting.amount
  if -2 ^ 127 ≤ sum ∧ sum < 2 ^ 127 then some (Function.update balances posting.asset sum) else none

/-- The balances after the loop over the postings. -/
def runningBalances (postings : List LedgerPosting) : Option (String → ℤ) :=
  postings.foldlM addPosting fun _ => 0

theorem foldlM_addPosting {postings : List LedgerPosting} {balances : String → ℤ} (bound : ℕ)
    (hbalances : ∀ asset, -(bound : ℤ) ≤ balances asset ∧ balances asset ≤ bound)
    (hamounts : ∀ posting ∈ postings, -2 ^ 63 ≤ posting.amount ∧ posting.amount < 2 ^ 63)
    (hbound : bound + postings.length * 2 ^ 63 < 2 ^ 127) :
    postings.foldlM addPosting balances =
      some fun asset => balances asset + assetBalance asset postings := by
  induction postings generalizing balances bound with
  | nil => simp [assetBalance]
  | cons posting rest ih =>
    obtain ⟨hlow, hhigh⟩ := hamounts posting (List.mem_cons_self ..)
    obtain ⟨hlow', hhigh'⟩ := hbalances posting.asset
    rw [List.length_cons] at hbound
    have hfits : -2 ^ 127 ≤ balances posting.asset + posting.amount ∧
        balances posting.asset + posting.amount < 2 ^ 127 := by omega
    rw [List.foldlM_cons, addPosting, if_pos hfits]
    show rest.foldlM addPosting _ = _
    rw [ih (bound + 2 ^ 63)]
    · congr 1
      funext asset
      rw [Function.update_apply, assetBalance, assetBalance, List.filter_cons]
      by_cases hasset : asset = posting.asset
      · subst hasset
        simp [add_assoc]
      · have hne : ¬ posting.asset = asset := fun h => hasset h.symm
        simp [hasset, hne]
    · intro asset
      have hold := hbalances asset
      rw [Function.update_apply]
      split
      · omega
      · omega
    · exact fun p hp => hamounts p (List.mem_cons_of_mem _ hp)
    · omega

/-- No running balance of a request from the network leaves the range of `i128`. -/
theorem runningBalances_exact {value : WireApplyTradeTransactionRequest}
    {request : TradeTransaction} (h : value.toCore = .ok request) :
    runningBalances (sortOn (·.postingId) request.ledgerPostings) =
      some fun asset => assetBalance asset request.ledgerPostings := by
  obtain ⟨-, -, -, -, hpostings, -, -, -, hlength, -⟩ :=
    WireApplyTradeTransactionRequest.toCore_ok h
  have hall := Checks.mapM_eq_ok.mp hpostings
  have hamounts : ∀ posting ∈ request.ledgerPostings,
      -2 ^ 63 ≤ posting.amount ∧ posting.amount < 2 ^ 63 := by
    intro posting hmem
    obtain ⟨wire, -, hwire⟩ := Checks.exists_of_forall₂_right hall hmem
    obtain ⟨_, -, hwire⟩ := Checks.bind_eq_ok.mp hwire
    obtain ⟨_, -, hwire⟩ := Checks.bind_eq_ok.mp hwire
    obtain ⟨_, -, hwire⟩ := Checks.bind_eq_ok.mp hwire
    obtain rfl := Except.ok.inj hwire
    exact ⟨wire.amount.le_toInt, wire.amount.toInt_lt⟩
  have hperm := sortOn_perm (fun p : LedgerPosting => p.postingId) request.ledgerPostings
  rw [runningBalances, foldlM_addPosting 0]
  · congr 1
    funext asset
    rw [zero_add, assetBalance_perm hperm]
  · simp
  · intro posting hmem
    exact hamounts posting (mem_sortOn.mp hmem)
  · rw [hperm.length_eq, ← hall.length_eq]
    rw [maxLedgerPostings] at hlength
    omega

/-- **Trades have a canonical form**: acceptance, the sorted fixed point and the
independence of the order; and the balances of a request from the network are exact. -/
theorem trade_canonical (request : TradeTransaction) :
    ((∃ normal, normalizeTradeTransaction request = .ok normal) ↔ WellFormedTrade request) ∧
    (∀ normal, normalizeTradeTransaction request = .ok normal →
      normal = { request with
        writes := normal.writes
        ledgerPostings := normal.ledgerPostings
        outboxEvents := normal.outboxEvents } ∧
      normal.writes.Perm request.writes ∧ normal.ledgerPostings.Perm request.ledgerPostings ∧
      normal.outboxEvents.Perm request.outboxEvents ∧
      normal.writes.Pairwise (fun a b => a.record < b.record) ∧
      normal.ledgerPostings.Pairwise (fun a b => a.postingId < b.postingId) ∧
      normal.outboxEvents.Pairwise (fun a b => a.eventId < b.eventId) ∧
      normalizeTradeTransaction normal = .ok normal) ∧
    (∀ writes ledgerPostings outboxEvents, writes.Perm request.writes →
      ledgerPostings.Perm request.ledgerPostings → outboxEvents.Perm request.outboxEvents →
      ∀ normal, normalizeTradeTransaction { request with writes, ledgerPostings, outboxEvents } =
        .ok normal ↔ normalizeTradeTransaction request = .ok normal) ∧
    ∀ value : WireApplyTradeTransactionRequest, value.toCore = .ok request →
      runningBalances (sortOn (·.postingId) request.ledgerPostings) =
        some fun asset => assetBalance asset request.ledgerPostings := by
  refine ⟨normalizeTrade_isOk, fun normal h => ?_, fun writes postings events hw hp he normal => ?_,
    fun value => runningBalances_exact⟩
  · have hwell := normalizeTrade_isOk.mp ⟨normal, h⟩
    obtain ⟨-, rfl⟩ := normalizeTrade_ok h
    exact ⟨rfl, sortOn_perm _ _, sortOn_perm _ _, sortOn_perm _ _,
      strictlySorted_sortOn hwell.recordKeys, strictlySorted_sortOn hwell.postingIds,
      strictlySorted_sortOn hwell.eventIds,
      normalizeTrade_perm h (sortOn_perm _ _) (sortOn_perm _ _) (sortOn_perm _ _)⟩
  · constructor
    · intro h
      have hback := normalizeTrade_perm h hw.symm hp.symm he.symm
      exact hback
    · intro h
      exact normalizeTrade_perm h hw hp he

end DbProxy
