/-
What `apply_trade` does.

A retry is recognised by the stored rows and answers the stored receipt; a first
attempt moves the trade, writes its records and adds its postings and events.

* `applyTrade_retry`, `applyTrade_first` — both with their exact condition.
-/
import DbProxy.PostgresCommits

namespace DbProxy

open Text EarlyReturn

/-- The tables after a first attempt of a normalised trade. -/
def PostgresTables.applyTrade (pg : PostgresTables) (request : TradeTransaction) :
    PostgresTables :=
  { pg with
    base := (pg.writeAll request.writes).base
    claims := Function.update pg.claims request.operationId (some { kind := .trade })
    trades := Function.update pg.trades request.transition.tradeId
      (some (PostgresSnapshotStore.tradeRow request.transition))
    tradeOperations := Function.update pg.tradeOperations request.operationId
      (some ⟨PostgresSnapshotStore.tradeOperationRow request,
        request.writes.map fun w => .ofWrite w (w.expectedRevision + 1)⟩)
    ledger := (request.ledgerPostings.map
      (PostgresSnapshotStore.ledgerRow request)).foldl KeyedTable.insertNew pg.ledger
    outbox := (request.outboxEvents.map (PostgresSnapshotStore.outboxRow request.operationId
      (some request.transition.tradeId))).foldl KeyedTable.insertNew pg.outbox }

namespace PostgresSnapshotStore

variable {pg : PostgresTables} {request : TradeTransaction}

/-! ### Postings -/

structure Postable (pg : PostgresTables) (request : TradeTransaction) (posting : LedgerPosting) :
    Prop where
  texts : Bindable [posting.postingId, request.operationId, request.transition.tradeId,
    posting.accountId, posting.asset]
  free : pg.ledger.lookup posting.postingId = none

def addPosting (request : TradeTransaction) (pg : PostgresTables) (posting : LedgerPosting) :
    PostgresTables :=
  { pg with ledger := pg.ledger.insertNew (ledgerRow request posting) }

theorem insertPosting_yields (posting : LedgerPosting) :
    Yields (insertPosting request posting) pg (Postable pg request posting) ()
      (addPosting request pg posting) := by
  rw [insertPosting]
  refine (bindParams_yields _).bind (·.texts) fun htexts => yields_get_bind ?_
  dsimp only
  by_cases hfree : pg.ledger.lookup posting.postingId = none
  · rw [dif_pos (show pg.ledger.lookup (LedgerRow.postingId (ledgerRow request posting)) = none
      from hfree)]
    refine (yields_set _ _ ⟨htexts, hfree⟩).congr Iff.rfl (fun _ => rfl) fun _ => ?_
    rw [addPosting, KeyedTable.insertNew_of_free hfree]
  · rw [dif_neg (show ¬ pg.ledger.lookup (LedgerRow.postingId (ledgerRow request posting)) = none
      from hfree)]
    exact yields_throw fun h => hfree h.free

theorem insertPostings_yields {postings : List LedgerPosting}
    (hnodup : (postings.map (·.postingId)).Nodup) :
    Yields (postings.forM (insertPosting request)) pg
      (∀ posting ∈ postings, Postable pg request posting) ()
      (postings.foldl (addPosting request) pg) := by
  refine (yields_forM (fun s posting _ => insertPosting_yields posting) pg).congr ?_
    (fun _ => rfl) fun _ => rfl
  refine allAlong_iff (List.pairwise_map.mp hnodup |>.imp fun {a b} hne s => ?_) pg
  have hsame : (addPosting request s a).ledger.lookup b.postingId =
      s.ledger.lookup b.postingId := KeyedTable.lookup_insertNew_ne (Ne.symm hne)
  constructor
  · rintro ⟨htexts, hfree⟩
    exact ⟨htexts, hsame ▸ hfree⟩
  · rintro ⟨htexts, hfree⟩
    exact ⟨htexts, hsame.trans hfree⟩

theorem foldl_addPosting (postings : List LedgerPosting) :
    ∀ pg : PostgresTables, postings.foldl (addPosting request) pg = { pg with
      ledger := (postings.map (ledgerRow request)).foldl KeyedTable.insertNew pg.ledger } := by
  induction postings with
  | nil => exact fun _ => rfl
  | cons posting rest ih => exact fun pg => ih (addPosting request pg posting)

theorem postable_congr {pg' : PostgresTables} {posting : LedgerPosting}
    (h : pg'.ledger = pg.ledger) :
    Postable pg' request posting ↔ Postable pg request posting := by
  constructor
  · rintro ⟨htexts, hfree⟩
    exact ⟨htexts, h ▸ hfree⟩
  · rintro ⟨htexts, hfree⟩
    exact ⟨htexts, h.symm ▸ hfree⟩

/-! ### The trade row -/

theorem checkStoredTrade_yields (transition : TradeTransition) :
    Yields (checkStoredTrade transition) pg
      (Bindable [transition.tradeId] ∧ tradeState (pg.trades transition.tradeId) =
        .ok (transition.expectedVersion, transition.expectedState)) () pg := by
  rw [checkStoredTrade]
  refine (bindParams_yields _).bind And.left fun htexts => yields_get_bind ?_
  cases hstate : tradeState (pg.trades transition.tradeId) with
  | error e => exact yields_throw fun h => by cases h.2
  | ok r =>
    obtain ⟨version, state⟩ := r
    refine (yields_pure (version, state) pg trivial).bind (fun _ => trivial) fun _ => ?_
    dsimp only
    have hiff : (Except.ok (version, state) : Except StorageError (Revision × Option TradeState)) =
        .ok (transition.expectedVersion, transition.expectedState) ↔
          version = transition.expectedVersion ∧ state = transition.expectedState := by
      rw [Except.ok.injEq, Prod.mk.injEq]
    refine yields_unless (fun h => not_not_intro (hiff.mp h.2).1) fun hversion => ?_
    by_cases hsame : state ≠ transition.expectedState
    · rw [if_pos hsame]
      exact yields_throw fun h => hsame (hiff.mp h.2).2
    · rw [if_neg hsame]
      exact yields_pure () pg ⟨htexts, hiff.mpr ⟨not_not.mp hversion, not_not.mp hsame⟩⟩

theorem upsertTrade_yields (transition : TradeTransition) :
    Yields (upsertTrade transition) pg (Bindable [transition.tradeId]) () { pg with
      trades := Function.update pg.trades transition.tradeId (some (tradeRow transition)) } := by
  rw [upsertTrade]
  exact (bindParams_yields _).bind id fun htexts => yields_modify _ _ htexts

/-! ### The transaction -/

/-- What a retry and a first attempt both ask. -/
structure TradeAccepts (pg : PostgresTables) (request : TradeTransaction) : Prop where
  version : request.transition.expectedVersion + 1 < bigintLimit
  time : request.transition.updatedAtUnixMs < bigintLimit
  texts : Bindable [request.operationId, request.transition.tradeId]
  claimable : pg.Claimable request.operationId .trade

theorem checkTradeI64_eq_ok {transition : TradeTransition} {u : Unit} :
    checkTradeI64 transition = .ok u ↔ (transition.expectedVersion + 1 < bigintLimit ∧
      transition.updatedAtUnixMs < bigintLimit) ∧ u = () := by
  rw [checkTradeI64, tradeVersionToI64]
  by_cases hversion : transition.expectedVersion < bigintLimit
  · have hnext : transition.expectedVersion + 1 < 2 ^ 64 :=
      (Nat.succ_le_of_lt hversion).trans_lt bigintLimit_lt
    rw [if_pos hversion, Revision.next, if_pos hnext]
    show (do let _ ← tradeVersionToI64 _ _; _ : Except StorageError Unit) = _ ↔ _
    rw [tradeVersionToI64]
    by_cases hsucc : transition.expectedVersion + 1 < bigintLimit
    · rw [if_pos hsucc]
      show (if _ then _ else _) = _ ↔ _
      split
      · rename_i htime
        simp [not_lt.mpr htime]
      · rename_i htime
        simp [hsucc, not_le.mp htime]
    · rw [if_neg hsucc]
      exact ⟨fun h => (by cases h), fun h => absurd h.1.1 hsucc⟩
  · rw [if_neg hversion]
    exact ⟨fun h => (by cases h), fun h => absurd ((Nat.lt_succ_self _).trans h.1.1) hversion⟩

theorem claimTrade_some {stored : TradeOperation}
    (hstored : pg.tradeOperations request.operationId = some stored) :
    Yields (claimTrade request) pg (Bindable [request.operationId, request.transition.tradeId])
      false pg := by
  rw [claimTrade]
  refine (bindParams_yields _).bind id fun htexts => yields_get_bind ?_
  rw [hstored]
  exact yields_pure _ _ htexts

theorem claimTrade_none (hnone : pg.tradeOperations request.operationId = none) :
    Yields (claimTrade request) pg (Bindable [request.operationId, request.transition.tradeId])
      true { pg with
        tradeOperations := Function.update pg.tradeOperations request.operationId
          (some { header := tradeOperationRow request }) } := by
  rw [claimTrade]
  refine (bindParams_yields _).bind id fun htexts => yields_get_bind ?_
  rw [hnone]
  exact (yields_set _ _ trivial).bind (fun _ => trivial) fun _ => yields_pure _ _ htexts

theorem retryTrade_yields {parts : ReceiptParts} {receipt : TradeReceipt}
    (hparts : receiptParts pg request.operationId = some parts)
    (hreceipt : receiptFromParts request.operationId request.transition.tradeId parts =
      .ok receipt) :
    Yields (retryTrade request) pg
      (tradeReceiptMatches parts request = true ∧ ∀ r ∈ receipt.records, Repairable r)
      (.duplicate receipt) (pg.raiseAll receipt.records) := by
  rw [retryTrade]
  refine yields_get_bind ?_
  rw [hparts]
  refine yields_unless (fun h => by simp [h.1]) fun hmatches => ?_
  rw [hreceipt]
  refine (yields_pure receipt pg trivial).bind (fun _ => trivial) fun _ => ?_
  refine (enqueueRepairs_yields _).bind And.right fun hrepair => ?_
  exact yields_pure _ _ ⟨by simpa using hmatches, hrepair⟩

/-- What a first attempt asks of the tables. -/
structure TradeCommits (pg : PostgresTables) (request : TradeTransaction) : Prop where
  stored : tradeState (pg.trades request.transition.tradeId) =
    .ok (request.transition.expectedVersion, request.transition.expectedState)
  writable : ∀ w ∈ request.writes, Writable pg request.operationId w
  postings : ∀ posting ∈ request.ledgerPostings, Postable pg request posting
  events : ∀ event ∈ request.outboxEvents, Insertable pg request.operationId event

theorem commitTrade_yields (haccepted : AcceptedTrade request)
    (htexts : Bindable [request.operationId, request.transition.tradeId])
    (hstored : pg.tradeOperations request.operationId =
      some { header := tradeOperationRow request }) :
    Yields (commitTrade request) pg (TradeCommits pg request)
      (.applied request.appliedReceipt) { pg with
        base := (pg.writeAll request.writes).base
        trades := Function.update pg.trades request.transition.tradeId
          (some (tradeRow request.transition))
        tradeOperations := Function.update pg.tradeOperations request.operationId
          (some ⟨tradeOperationRow request,
            request.writes.map fun w => .ofWrite w (w.expectedRevision + 1)⟩)
        ledger := (request.ledgerPostings.map (ledgerRow request)).foldl
          KeyedTable.insertNew pg.ledger
        outbox := (request.outboxEvents.map (outboxRow request.operationId
          (some request.transition.tradeId))).foldl KeyedTable.insertNew pg.outbox } := by
  rw [commitTrade]
  have htrade : Bindable [request.transition.tradeId] := htexts.sublist (by simp)
  refine (checkStoredTrade_yields _).bind (fun h => ⟨htrade, h.stored⟩) fun hstate => ?_
  have hlock : Yields (request.outboxEvents.forM fun event =>
      bindParams [event.topic, event.partitionKey]) pg
      (∀ event ∈ request.outboxEvents, Bindable [event.topic, event.partitionKey]) () pg :=
    checks_forM fun event _ => bindParams_yields _
  refine hlock.bind (fun h event hmem => (h.events event hmem).texts.sublist (by simp))
    fun _ => ?_
  refine (compareRevisions_yields _).bind (fun h w hw => (h.writable w hw).comparable)
    fun hcomparable => ?_
  refine (upsertTrade_yields _).bind (fun _ => htrade) fun _ => ?_
  set moved : PostgresTables := { pg with
    trades := Function.update pg.trades request.transition.tradeId
      (some (tradeRow request.transition)) } with hmoved
  have hrows : tradeRecords.records moved request.operationId = some [] :=
    congrArg (Option.map _) hstored
  refine (persistWrites_yields haccepted.records hrows (by simp)).bind
    (fun h w hw => (persistable_congr (by rfl)).mpr (h.writable w hw).persistable)
    fun hpersistable => ?_
  rw [List.nil_append, writeAll_base request.writes moved]
  refine (insertPostings_yields haccepted.postings).bind
    (fun h posting hmem => (postable_congr (by rfl)).mpr (h.postings posting hmem))
    fun hpostings => ?_
  rw [foldl_addPosting]
  refine (insertOutboxEvents_yields _ _ haccepted.events).bind
    (fun h event hmem => (insertable_congr (by rfl) (by rfl)).mpr (h.events event hmem))
    fun hevents => ?_
  have hcommits : TradeCommits pg request :=
    ⟨hstate.2, fun w hw => writable_of (hcomparable w hw)
        ((persistable_congr (by rfl)).mp (hpersistable w hw)),
      fun posting hmem => (postable_congr (by rfl)).mp (hpostings posting hmem),
      fun event hmem => (insertable_congr (by rfl) (by rfl)).mp (hevents event hmem)⟩
  refine (yields_pure _ _ hcommits).congr Iff.rfl (fun _ => ?_) fun _ => ?_
  · rw [zip_map_self, List.map_map]
    rfl
  · rw [foldl_addEvent, writeAll_congr request.writes (by rfl : moved.base = pg.base)]
    simp [tradeRecords, hmoved, hstored]

theorem tradeCommits_congr {pg' : PostgresTables} (hbase : pg'.base = pg.base)
    (htrades : pg'.trades = pg.trades) (hledger : pg'.ledger = pg.ledger)
    (houtbox : pg'.outbox = pg.outbox) (hroutes : pg'.routes = pg.routes) :
    TradeCommits pg' request ↔ TradeCommits pg request := by
  constructor
  · rintro ⟨hstored, hwritable, hpostings, hevents⟩
    exact ⟨htrades ▸ hstored, fun w hw => (writable_congr hbase).mp (hwritable w hw),
      fun posting hmem => (postable_congr hledger).mp (hpostings posting hmem),
      fun event hmem => (insertable_congr houtbox hroutes).mp (hevents event hmem)⟩
  · rintro ⟨hstored, hwritable, hpostings, hevents⟩
    exact ⟨htrades.symm ▸ hstored, fun w hw => (writable_congr hbase).mpr (hwritable w hw),
      fun posting hmem => (postable_congr hledger).mpr (hpostings posting hmem),
      fun event hmem => (insertable_congr houtbox hroutes).mpr (hevents event hmem)⟩

/-- The checks that a retry and a first attempt share. -/
theorem applyTrade_checks {request' : TradeTransaction} {P : Prop} {inserted : Bool}
    {outcome : TradeTransactionOutcome} {claimed pg' : PostgresTables}
    (hnormal : normalizeTradeTransaction request' = .ok request) (hP : P → TradeAccepts pg request)
    (hclaim : Yields (claimTrade request) (pg.claim request.operationId .trade)
      (Bindable [request.operationId, request.transition.tradeId]) inserted claimed)
    (h : TradeAccepts pg request →
      Yields (if inserted then commitTrade request else retryTrade request) claimed P outcome pg') :
    Yields (applyTrade request') pg P outcome pg' := by
  rw [applyTrade, hnormal]
  refine (yields_pure request pg trivial).bind (fun _ => trivial) fun _ => ?_
  refine (yields_ofExcept fun _ => checkTradeI64_eq_ok).bind
    (fun hp => ⟨(hP hp).version, (hP hp).time⟩) fun hnumbers => ?_
  refine (claimOperation_yields _ _).bind
    (fun hp => ⟨(hP hp).texts.sublist (by simp), (hP hp).claimable⟩) fun hclaimed => ?_
  refine hclaim.bind (fun hp => (hP hp).texts) fun htexts => ?_
  exact h ⟨hnumbers.1, hnumbers.2, htexts, hclaimed.2⟩

/-- A retry of a trade. -/
theorem applyTrade_retry {request' : TradeTransaction}
    (hnormal : normalizeTradeTransaction request' = .ok request) {parts : ReceiptParts}
    {receipt : TradeReceipt} (hparts : receiptParts pg request.operationId = some parts)
    (hreceipt : receiptFromParts request.operationId request.transition.tradeId parts =
      .ok receipt) :
    Yields (applyTrade request') pg
      (TradeAccepts pg request ∧ tradeReceiptMatches parts request = true ∧
        ∀ r ∈ receipt.records, Repairable r)
      (.duplicate receipt) ((pg.claim request.operationId .trade).raiseAll receipt.records) := by
  obtain ⟨stored, hstored, -⟩ := Option.map_eq_some_iff.mp hparts
  have hclaimed : (pg.claim request.operationId .trade).tradeOperations request.operationId =
    some stored := hstored
  refine applyTrade_checks hnormal And.left (claimTrade_some hclaimed) fun haccepts => ?_
  have hparts : receiptParts (pg.claim request.operationId .trade) request.operationId =
    some parts := hparts
  exact (retryTrade_yields hparts hreceipt).congr (and_iff_right haccepts).symm (fun _ => rfl)
    fun _ => rfl

/-- A first attempt of a trade. -/
theorem applyTrade_first {request' : TradeTransaction}
    (hnormal : normalizeTradeTransaction request' = .ok request)
    (hnone : pg.tradeOperations request.operationId = none) :
    Yields (applyTrade request') pg (TradeAccepts pg request ∧ TradeCommits pg request)
      (.applied request.appliedReceipt) (pg.applyTrade request) := by
  have hclaimed : (pg.claim request.operationId .trade).tradeOperations request.operationId =
    none := hnone
  refine applyTrade_checks hnormal And.left (claimTrade_none hclaimed) fun haccepts => ?_
  refine (commitTrade_yields (normalizeTrade_ok hnormal).1 haccepts.texts
    (Function.update_self ..)).congr ?_ (fun _ => rfl) fun _ => ?_
  · exact (tradeCommits_congr (by rfl) (by rfl) (by rfl) (by rfl) (by rfl)).trans
      (and_iff_right haccepts).symm
  · rw [PostgresTables.applyTrade, ← writeAll_congr request.writes (by rfl :
      ({ pg.claim request.operationId .trade with
        tradeOperations := Function.update pg.tradeOperations request.operationId
          (some { header := tradeOperationRow request }) } : PostgresTables).base = pg.base)]
    simp only [Function.update_idem]
    rfl

end PostgresSnapshotStore

end DbProxy
