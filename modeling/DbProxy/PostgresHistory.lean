/-
What a run leaves in PostgreSQL.

For every sequence of writes, storable or not: the revisions that the answers report for
a record are 1, 2, 3 and so on, up to the stored one; the outbox and the ledger hold
exactly the rows of the applied writes, in their order; and every snapshot has a repair
target that is no smaller.  `Moves` is what one write does to the tables, and
`performAll_moves` what a sequence does.

* `revision_history`, `effects_history`, `trade_rows_history`.
-/
import DbProxy.MemoryTrades
import DbProxy.PostgresAgreement

namespace DbProxy

open Text EarlyReturn Checks

namespace PostgresSnapshotStore

/-! ### What an answer reports -/

namespace StoreAnswer

/-- The records of an applied write, with their new revisions. -/
def written : StoreAnswer → List TransactionRecordReceipt
  | ⟨.save request, .ok (.applied revision)⟩ => [⟨request.record, revision⟩]
  | ⟨.applyTransaction request, .ok (.applied revision _)⟩ => [⟨request.record, revision⟩]
  | ⟨.commitRecords _ _, .ok (.applied records _)⟩ => records
  | ⟨.applyTradeTransaction _, .ok (.applied receipt)⟩ => receipt.records
  | _ => []

/-- The revisions of one record. -/
def revisions (record : RecordKey) (answer : StoreAnswer) : List Revision :=
  (answer.written.filter (·.record = record)).map (·.newRevision)

/-- The outbox rows of an applied write. -/
def events (decode : Bytes → Option EventEnvelope) : StoreAnswer → List OutboxContentRow
  | ⟨.commitRecords request effects, .ok (.applied _ _)⟩ =>
    match effects.normalize decode with
    | .ok normal => normal.outboxEvents.map (outboxRow request.operationId none)
    | .error _ => []
  | ⟨.applyTradeTransaction request, .ok (.applied _)⟩ =>
    match normalizeTradeTransaction request with
    | .ok normal => normal.outboxEvents.map
        (outboxRow request.operationId (some request.transition.tradeId))
    | .error _ => []
  | _ => []

/-- The ledger rows of an applied trade. -/
def postings : StoreAnswer → List LedgerRow
  | ⟨.applyTradeTransaction request, .ok (.applied _)⟩ =>
    match normalizeTradeTransaction request with
    | .ok normal => normal.ledgerPostings.map (ledgerRow normal)
    | .error _ => []
  | _ => []

/-- The receipts of an applied save. -/
def receipts : StoreAnswer → List (String × IdempotencyRow)
  | ⟨.save request, .ok (.applied revision)⟩ =>
    [(request.requestId, saveReceiptRow request revision)]
  | _ => []

/-- The transition of an applied trade. -/
def transition : StoreAnswer → Option TradeTransition
  | ⟨.applyTradeTransaction request, .ok (.applied _)⟩ => some request.transition
  | _ => none

end StoreAnswer

/-! ### One write -/

/-- The snapshot of the record, if there is one, has a repair target that reaches it. -/
def Covered (pg : PostgresTables) (record : RecordKey) : Prop :=
  ∀ row, pg.base.snapshots record = some row →
    ∃ target, pg.base.repairs record = some target ∧ row.revision ≤ target

/-- The stored trade after a transition, or without one. -/
def MovesTrade (pg pg' : PostgresTables) (transition : Option TradeTransition)
    (tradeId : String) : Prop :=
  match transition.filter (·.tradeId = tradeId) with
  | none => pg'.trades tradeId = pg.trades tradeId
  | some t => tradeState (pg.trades tradeId) = .ok (t.expectedVersion, t.expectedState) ∧
      TradeEdge t.expectedState t.nextState ∧ pg'.trades tradeId = some (tradeRow t)

def addReceipts (rows : String → Option IdempotencyRow)
    (receipts : List (String × IdempotencyRow)) : String → Option IdempotencyRow :=
  receipts.foldl (fun rows r => Function.update rows r.1 (some r.2)) rows

/-- What a write does to the tables. -/
structure Moves (pg pg' : PostgresTables) (receipts : List (String × IdempotencyRow))
    (written : List TransactionRecordReceipt) (events : List OutboxContentRow)
    (postings : List LedgerRow) (transition : Option TradeTransition) : Prop where
  unused : ∀ r ∈ receipts, pg.base.idempotency r.1 = none
  receipts : pg'.base.idempotency = addReceipts pg.base.idempotency receipts
  revisions : ∀ record, (written.filter (·.record = record)).map (·.newRevision) =
    List.range' (pg.revision record + 1) (pg'.revision record - pg.revision record)
  grows : ∀ record, pg.revision record ≤ pg'.revision record
  covered : (∀ record, Covered pg record) → ∀ record, Covered pg' record
  outbox : pg'.outbox.rows = pg.outbox.rows ++ events
  ledger : pg'.ledger.rows = pg.ledger.rows ++ postings
  balanced : ∀ asset, ((postings.filter (·.asset = asset)).map (·.amount)).sum = 0
  trade : ∀ tradeId, MovesTrade pg pg' transition tradeId

section Moves

variable {pg pg' : PostgresTables}

/-- Only the repair targets of other snapshots, and claims, change. -/
theorem moves_retry (hsnapshots : pg'.base.snapshots = pg.base.snapshots)
    (hidempotency : pg'.base.idempotency = pg.base.idempotency)
    (hcovered : (∀ record, Covered pg record) → ∀ record, Covered pg' record)
    (houtbox : pg'.outbox = pg.outbox) (hledger : pg'.ledger = pg.ledger)
    (htrades : pg'.trades = pg.trades) : Moves pg pg' [] [] [] [] none where
  unused := by simp
  receipts := hidempotency
  revisions record := by
    rw [PostgresTables.revision, PostgresTables.revision, hsnapshots, Nat.sub_self]
    rfl
  grows record := by
    rw [PostgresTables.revision, PostgresTables.revision, hsnapshots]
  covered := hcovered
  outbox := by rw [houtbox, List.append_nil]
  ledger := by rw [hledger, List.append_nil]
  balanced _ := rfl
  trade tradeId := by
    show pg'.trades tradeId = pg.trades tradeId
    rw [htrades]

theorem moves_refl (pg : PostgresTables) : Moves pg pg [] [] [] [] none :=
  moves_retry rfl rfl id rfl rfl rfl

/-- Repair targets never go down. -/
theorem covered_raise (h : ∀ record, Covered pg record) (record : RecordKey) (target : Revision)
    (r : RecordKey) : Covered (pg.raise record target) r := by
  intro row hrow
  obtain ⟨old, hold, hle⟩ := h r row hrow
  by_cases hr : r = record
  · subst hr
    refine ⟨max old target, ?_, hle.trans (le_max_left ..)⟩
    show Function.update pg.base.repairs r _ r = _
    rw [Function.update_self, hold, Option.getD_some]
  · refine ⟨old, ?_, hle⟩
    show Function.update pg.base.repairs record _ r = _
    rw [Function.update_of_ne hr, hold]

theorem covered_raiseAll : ∀ (receipts : List TransactionRecordReceipt) {pg : PostgresTables},
    (∀ record, Covered pg record) → ∀ record, Covered (pg.raiseAll receipts) record
  | [], _, h => h
  | receipt :: rest, _, h =>
    covered_raiseAll rest (covered_raise h receipt.record receipt.newRevision)

/-- A stored row and its repair target. -/
theorem covered_write (h : ∀ record, Covered pg record) (record : RecordKey) (row : SnapshotRow)
    (r : RecordKey) : Covered ((pg.storeRow record row).raise record row.revision) r := by
  by_cases hr : r = record
  · subst hr
    intro row' hrow
    have hrow : Function.update pg.base.snapshots r (some row) r = some row' := hrow
    rw [Function.update_self, Option.some_inj] at hrow
    subst hrow
    refine ⟨_, Function.update_self .., le_max_right ..⟩
  · intro row' hrow
    have hrow : Function.update pg.base.snapshots record (some row) r = some row' := hrow
    rw [Function.update_of_ne hr] at hrow
    obtain ⟨old, hold, hle⟩ := h r row' hrow
    refine ⟨old, ?_, hle⟩
    show Function.update pg.base.repairs record _ r = _
    rw [Function.update_of_ne hr, hold]

theorem covered_writeAll : ∀ (writes : List TransactionalRecordWrite) {pg : PostgresTables},
    (∀ record, Covered pg record) → ∀ record, Covered (pg.writeAll writes) record
  | [], _, h => h
  | w :: rest, pg, h => covered_writeAll rest (covered_write h w.record
      (ClaimSystem.snapshotRow (pg.base.snapshots w.record) w (w.expectedRevision + 1)))

/-- The revisions of receipts that move each record by one. -/
theorem revisions_of_receipts {receipts : List TransactionRecordReceipt}
    (hnodup : (receipts.map (·.record)).Nodup) {revision revision' : RecordKey → Revision}
    (hnext : ∀ x ∈ receipts, x.newRevision = revision x.record + 1)
    (hafter : ∀ r, revision' r =
      if r ∈ receipts.map (·.record) then revision r + 1 else revision r) (record : RecordKey) :
    (receipts.filter (·.record = record)).map (·.newRevision) =
      List.range' (revision record + 1) (revision' record - revision record) := by
  rw [hafter record]
  clear hafter
  induction receipts with
  | nil => simp
  | cons x rest ih =>
    rw [List.map_cons, List.nodup_cons] at hnodup
    have hrest := ih hnodup.2 fun y hy => hnext y (List.mem_cons_of_mem _ hy)
    by_cases hx : x.record = record
    · subst hx
      rw [if_neg hnodup.1, Nat.sub_self, List.range'_zero, List.map_eq_nil_iff] at hrest
      have hmem : x.record ∈ (x :: rest).map (·.record) :=
        List.mem_map_of_mem (List.mem_cons_self ..)
      rw [List.filter_cons_of_pos (by simp), hrest, if_pos hmem, Nat.add_sub_cancel_left,
        List.map_cons, hnext x (List.mem_cons_self ..)]
      rfl
    · have hmem : record ∈ x.record :: rest.map (·.record) ↔ record ∈ rest.map (·.record) := by
        rw [List.mem_cons, or_iff_right (fun h => hx h.symm)]
      rw [List.filter_cons_of_neg (by simpa using hx), hrest, List.map_cons]
      simp only [hmem]

theorem revision_storeRow (pg : PostgresTables) (record : RecordKey) (row : SnapshotRow)
    (r : RecordKey) :
    (pg.storeRow record row).revision r = if r = record then row.revision else pg.revision r := by
  rw [PostgresTables.revision, PostgresTables.storeRow]
  dsimp only
  split
  · rename_i hr
    rw [hr, Function.update_self]
    rfl
  · rename_i hr
    rw [Function.update_of_ne hr]
    rfl

theorem revision_writeAll_eq : ∀ {writes : List TransactionalRecordWrite} {pg : PostgresTables},
    (writes.map (·.record)).Nodup → (∀ w ∈ writes, pg.revision w.record = w.expectedRevision) →
      ∀ r, (pg.writeAll writes).revision r =
        if r ∈ writes.map (·.record) then pg.revision r + 1 else pg.revision r
  | [], _, _, _, r => by
    rw [List.map_nil, if_neg List.not_mem_nil]
    rfl
  | w :: rest, pg, hnodup, hcurrent, r => by
    rw [List.map_cons, List.nodup_cons] at hnodup
    have hwrite : ∀ r, (pg.write w).revision r =
        if r = w.record then w.expectedRevision + 1 else pg.revision r :=
      revision_storeRow pg w.record _
    have hrest : ∀ w' ∈ rest, (pg.write w).revision w'.record = w'.expectedRevision := by
      intro w' hw'
      have hne : w'.record ≠ w.record := fun heq =>
        hnodup.1 (heq ▸ List.mem_map_of_mem hw')
      rw [hwrite, if_neg hne]
      exact hcurrent w' (List.mem_cons_of_mem _ hw')
    show ((pg.write w).writeAll rest).revision r = _
    rw [revision_writeAll_eq hnodup.2 hrest, hwrite]
    by_cases hr : r = w.record
    · subst hr
      have hmem : w.record ∈ (w :: rest).map (·.record) :=
        List.mem_map_of_mem (List.mem_cons_self ..)
      rw [if_neg hnodup.1, if_pos rfl, if_pos hmem, hcurrent w (List.mem_cons_self ..)]
    · have hmem : r ∈ (w :: rest).map (·.record) ↔ r ∈ rest.map (·.record) := by
        rw [List.map_cons, List.mem_cons, or_iff_right hr]
      simp only [hr, if_false, hmem]

/-- One update of the tables. -/
theorem moves_of_receipts {receipts : List (String × IdempotencyRow)}
    {written : List TransactionRecordReceipt} {events : List OutboxContentRow}
    {postings : List LedgerRow} {transition : Option TradeTransition}
    (hunused : ∀ r ∈ receipts, pg.base.idempotency r.1 = none)
    (hreceipts : pg'.base.idempotency = addReceipts pg.base.idempotency receipts)
    (hnodup : (written.map (·.record)).Nodup)
    (hnext : ∀ x ∈ written, x.newRevision = pg.revision x.record + 1)
    (hafter : ∀ r, pg'.revision r =
      if r ∈ written.map (·.record) then pg.revision r + 1 else pg.revision r)
    (hcovered : (∀ record, Covered pg record) → ∀ record, Covered pg' record)
    (houtbox : pg'.outbox.rows = pg.outbox.rows ++ events)
    (hledger : pg'.ledger.rows = pg.ledger.rows ++ postings)
    (hbalanced : ∀ asset, ((postings.filter (·.asset = asset)).map (·.amount)).sum = 0)
    (htrade : ∀ tradeId, MovesTrade pg pg' transition tradeId) :
    Moves pg pg' receipts written events postings transition where
  unused := hunused
  receipts := hreceipts
  revisions := revisions_of_receipts hnodup hnext hafter
  grows record := by
    rw [hafter record]
    split
    · exact Nat.le_succ _
    · exact le_rfl
  covered := hcovered
  outbox := houtbox
  ledger := hledger
  balanced := hbalanced
  trade := htrade

end Moves

/-! ### Every kind of write -/

section Perform

variable {decode : Bytes → Option EventEnvelope} {encode : CommitEffects → Bytes}
  {pg pg' : PostgresTables}

/-- The effect of a write on what a run reports. -/
def AnswerMoves (decode : Bytes → Option EventEnvelope) (pg pg' : PostgresTables)
    (answer : StoreAnswer) : Prop :=
  Moves pg pg' answer.receipts answer.written (answer.events decode) answer.postings answer.transition

theorem answerMoves_refused (c : StoreCall) (e : StorageError) :
    AnswerMoves decode pg pg ⟨c, .error e⟩ := by
  cases c <;> exact moves_refl pg

theorem answerMoves_of_settles {c : StoreCall}
    {r : Except StorageError c.backend.Value × PostgresTables} {P : Prop} {a : c.backend.Value}
    (h : Settles r pg P a pg') (hP : P → AnswerMoves decode pg pg' ⟨c, .ok a⟩) :
    AnswerMoves decode pg r.2 ⟨c, r.1⟩ := by
  by_cases hp : P
  · rw [h.1 hp]
    exact hP hp
  · obtain ⟨hanswer, htables⟩ := h.2 hp
    obtain ⟨answer, last⟩ := r
    cases answer with
    | ok a => cases hanswer
    | error e =>
      have htables : last = pg := htables
      rw [htables]
      exact answerMoves_refused c e

/-- A save that gets as far as its statements is storable. -/
theorem storableSave_of_prepareSave {request : SnapshotWrite} {p : PreparedSave}
    (h : prepareSave request none = .ok p)
    (htexts : Bindable [request.requestId, request.record.ns, request.record.key, request.schema]) :
    StorableSave request := by
  obtain ⟨_, hvalid, h⟩ := Checks.bind_eq_ok.mp h
  obtain ⟨_, -, h⟩ := Checks.bind_eq_ok.mp h
  obtain ⟨_, hexpected, h⟩ := Checks.bind_eq_ok.mp h
  obtain ⟨_, htime, -⟩ := Checks.bind_eq_ok.mp h
  rw [validateRequest] at hvalid
  split at hvalid
  · cases hvalid
  · split at hvalid
    · cases hvalid
    · rename_i hns
      split at hvalid
      · cases hvalid
      · rename_i hkey
        refine ⟨⟨by simpa using hns, by simpa using hkey⟩, htexts, ?_, ?_⟩
        · intro revision hrevision
          rw [hrevision, revisionToI64] at hexpected
          split at hexpected
          · assumption
          · cases hexpected
        · rw [timestampToI64] at htime
          split at htime
          · assumption
          · cases htime

theorem saveSnapshot_unstorable {request : SnapshotWrite} (h : ¬ StorableSave request) :
    (saveSnapshot request pg).1.toOption = none ∧ (saveSnapshot request pg).2 = pg := by
  rw [saveSnapshot, save_eq, entryCell]
  cases hprepare : prepareSave request none with
  | error e => exact ⟨rfl, setCell_cell pg request⟩
  | ok p =>
    have htexts : [request.requestId, request.record.ns, request.record.key,
        request.schema].any hasNul = true := by
      by_contra hnul
      exact h (storableSave_of_prepareSave hprepare (by simpa [Bindable] using hnul))
    dsimp only
    rw [saveCell, if_pos htexts]
    exact ⟨rfl, rfl⟩

theorem save_moves (request : SnapshotWrite) :
    AnswerMoves decode pg (saveSnapshot request pg).2
      ⟨.save request, (saveSnapshot request pg).1⟩ := by
  by_cases hstorable : StorableSave request
  · cases hrow : pg.base.idempotency request.requestId with
    | some row =>
      refine answerMoves_of_settles (c := .save request) (saveSnapshot_retry hstorable hrow)
        fun _ => ?_
      exact moves_retry rfl rfl (fun h => covered_raise h _ _) rfl rfl rfl
    | none =>
      refine answerMoves_of_settles (c := .save request) (saveSnapshot_first hstorable hrow)
        fun _ => ?_
      show Moves pg _ [(request.requestId, _)]
        [⟨request.record, pg.revision request.record + 1⟩] [] [] none
      refine moves_of_receipts (by simpa using hrow) rfl (by simp) (by simp) (fun r => ?_) (fun h => ?_)
        (List.append_nil _).symm (List.append_nil _).symm (fun _ => rfl) fun _ => rfl
      · refine (revision_storeRow pg request.record _ r).trans ?_
        by_cases hr : r = request.record <;> simp [hr, rowOf]
      · exact covered_write h request.record (rowOf request request.updatedAtUnixMs _ _)
  · have hsettles : Settles (saveSnapshot request pg) pg False (.applied 0) pg :=
      ⟨False.elim, fun _ => saveSnapshot_unstorable hstorable⟩
    exact answerMoves_of_settles (c := .save request) hsettles False.elim

theorem transaction_moves (request : TransactionalWrite) :
    AnswerMoves decode pg (committed (applyTransaction request) pg).2
      ⟨.applyTransaction request, (committed (applyTransaction request) pg).1⟩ := by
  cases hrow : pg.transactions request.operationId with
  | some row =>
    refine answerMoves_of_settles (c := .applyTransaction request)
      (settles_committed (applyTransaction_retry hrow)) fun _ => ?_
    exact moves_retry rfl rfl (fun h => covered_raise h _ _) rfl rfl rfl
  | none =>
    refine answerMoves_of_settles (c := .applyTransaction request)
      (settles_committed (applyTransaction_first hrow)) fun hP => ?_
    show Moves pg _ [] [⟨request.record, request.expectedRevision + 1⟩] [] [] none
    refine moves_of_receipts (by simp) rfl (by simp) (by simp [hP.2.1]) (fun r => ?_) (fun h => ?_)
      (List.append_nil _).symm (List.append_nil _).symm (fun _ => rfl) fun _ => rfl
    · refine (revision_storeRow pg request.record _ r).trans ?_
      by_cases hr : r = request.record
      · simp [hr, hP.2.1]
      · simp [hr]
    · exact covered_write h request.record ⟨request.schema, request.schemaVersion,
        request.expectedRevision + 1, request.payload, request.updatedAtUnixMs, _⟩

/-- A write of distinct records that are at their expected revisions. -/
theorem moves_of_writes {writes : List TransactionalRecordWrite} {events : List OutboxContentRow}
    {postings : List LedgerRow} {transition : Option TradeTransition}
    (hbase : pg'.base = (pg.writeAll writes).base) (hnodup : (writes.map (·.record)).Nodup)
    (hcurrent : ∀ w ∈ writes, pg.revision w.record = w.expectedRevision)
    (houtbox : pg'.outbox.rows = pg.outbox.rows ++ events)
    (hledger : pg'.ledger.rows = pg.ledger.rows ++ postings)
    (hbalanced : ∀ asset, ((postings.filter (·.asset = asset)).map (·.amount)).sum = 0)
    (htrade : ∀ tradeId, MovesTrade pg pg' transition tradeId) :
    Moves pg pg' [] (writes.map (·.receipt)) events postings transition := by
  have hrecords : (writes.map (·.receipt)).map (·.record) = writes.map (·.record) := by
    rw [List.map_map]
    rfl
  have hidempotency : pg'.base.idempotency = pg.base.idempotency := by
    rw [hbase, idempotency_writeAll]
  refine moves_of_receipts (by simp) hidempotency (hrecords ▸ hnodup) ?_ (fun r => ?_) (fun h r => ?_) houtbox hledger
    hbalanced htrade
  · refine List.forall_mem_map.mpr fun w hw => ?_
    show w.expectedRevision + 1 = pg.revision w.record + 1
    rw [hcurrent w hw]
  · rw [hrecords, ← revision_writeAll_eq hnodup hcurrent, PostgresTables.revision, hbase,
      PostgresTables.revision]
  · rw [Covered, hbase]
    exact covered_writeAll writes h r

theorem prepareCommit_ok {request normal : MultiRecordTransactionalWrite}
    {effects normalEffects : CommitEffects}
    (h : prepareCommit decode request effects = .ok (normal, normalEffects)) :
    effects.normalize decode = .ok normalEffects ∧ normal.operationId = request.operationId := by
  obtain ⟨_, heffects, h⟩ := Checks.bind_eq_ok.mp h
  obtain ⟨_, -, h⟩ := Checks.bind_eq_ok.mp h
  obtain ⟨rfl, rfl⟩ := Prod.mk.inj (Except.ok.inj h)
  refine ⟨?_, rfl⟩
  cases hn : effects.normalize decode with
  | error e =>
    rw [hn] at heffects
    cases heffects
  | ok normal =>
    rw [hn] at heffects
    obtain rfl := Except.ok.inj heffects
    rfl

theorem commit_moves (request : MultiRecordTransactionalWrite) (effects : CommitEffects) :
    AnswerMoves decode pg (committed (commitRecords decode encode request effects) pg).2
      ⟨.commitRecords request effects,
        (committed (commitRecords decode encode request effects) pg).1⟩ := by
  cases hprepare : prepareCommit decode request effects with
  | error e =>
    have hrun : committed (commitRecords decode encode request effects) pg = (.error e, pg) := by
      rw [commitRecords, hprepare]
      rfl
    rw [hrun]
    exact answerMoves_refused _ e
  | ok x =>
    obtain ⟨normal, normalEffects⟩ := x
    obtain ⟨heffects, hid⟩ := prepareCommit_ok hprepare
    cases hrow : pg.multiTransactions normal.operationId with
    | some row =>
      refine answerMoves_of_settles (c := .commitRecords request effects)
        (settles_committed (commitRecords_retry hprepare hrow)) fun _ => ?_
      have hraise := raiseAll_eq (((sortOn (·.record) row.records).zip normal.writes).map
        fun x => ⟨x.2.record, x.1.newRevision⟩) (pg.claim normal.operationId .multi)
      refine moves_retry ?_ ?_ (fun h => covered_raiseAll _ h) ?_ ?_ ?_ <;> rw [hraise] <;> rfl
    | none =>
      have hnormal := normalEffects_of_ok heffects
      refine answerMoves_of_settles (c := .commitRecords request effects)
        (settles_committed (commitRecords_first hprepare hnormal hrow)) fun hP => ?_
      have hevents : StoreAnswer.events decode ⟨.commitRecords request effects,
          .ok (.applied (normal.writes.map (·.receipt)) normal.result)⟩ =
            normalEffects.outboxEvents.map (outboxRow normal.operationId none) := by
        rw [StoreAnswer.events, heffects, hid]
      rw [AnswerMoves, hevents]
      exact moves_of_writes rfl (prepared_of_prepareCommit hprepare).nodup
        (fun w hw => (hP.2.writable w hw).current)
        (rows_addEvents hnormal.eventIds (fun event hmem => (hP.2.effects.events event hmem).free)
          _ _) (List.append_nil _).symm (fun _ => rfl) fun _ => rfl

/-- Rows of a trade that do not make a receipt stop its retry. -/
theorem applyTrade_damaged {request normal : TradeTransaction}
    (hnormal : normalizeTradeTransaction request = .ok normal) {parts : ReceiptParts}
    (hparts : receiptParts pg normal.operationId = some parts) {e : StorageError}
    (hreceipt : receiptFromParts normal.operationId normal.transition.tradeId parts = .error e)
    {outcome : TradeTransactionOutcome} :
    Yields (applyTrade request) pg False outcome pg := by
  obtain ⟨stored, hstored, -⟩ := Option.map_eq_some_iff.mp hparts
  have hclaimed : (pg.claim normal.operationId .trade).tradeOperations normal.operationId =
    some stored := hstored
  refine applyTrade_checks hnormal False.elim (claimTrade_some hclaimed) fun _ => ?_
  have hparts : receiptParts (pg.claim normal.operationId .trade) normal.operationId =
    some parts := hparts
  rw [if_neg (by simp), retryTrade]
  refine yields_get_bind ?_
  rw [hparts]
  refine yields_unless False.elim fun _ => ?_
  rw [hreceipt]
  exact yields_throw id

/-- The rows of a balanced trade. -/
theorem sum_ledgerRow {normal : TradeTransaction} (asset : String) :
    (((normal.ledgerPostings.map (ledgerRow normal)).filter (·.asset = asset)).map
      (·.amount)).sum = assetBalance asset normal.ledgerPostings := by
  rw [assetBalance, List.filter_map, List.map_map]
  rfl

theorem trade_moves (request : TradeTransaction) :
    AnswerMoves decode pg (committed (applyTrade request) pg).2
      ⟨.applyTradeTransaction request, (committed (applyTrade request) pg).1⟩ := by
  cases hnormal : normalizeTradeTransaction request with
  | error e =>
    have hrun : committed (applyTrade request) pg = (.error (.core e), pg) := by
      rw [applyTrade, hnormal]
      rfl
    rw [hrun]
    exact answerMoves_refused _ _
  | ok normal =>
    obtain ⟨haccepted, hsorted⟩ := normalizeTrade_ok hnormal
    have htransition : normal.transition = request.transition := by rw [hsorted]
    have hoperation : normal.operationId = request.operationId := by rw [hsorted]
    cases hparts : receiptParts pg normal.operationId with
    | some parts =>
      cases hreceipt : receiptFromParts normal.operationId normal.transition.tradeId parts with
      | ok receipt =>
        refine answerMoves_of_settles (c := .applyTradeTransaction request)
          (settles_committed (applyTrade_retry hnormal hparts hreceipt)) fun _ => ?_
        have hraise := raiseAll_eq receipt.records (pg.claim normal.operationId .trade)
        refine moves_retry ?_ ?_ (fun h => covered_raiseAll _ h) ?_ ?_ ?_ <;> rw [hraise] <;> rfl
      | error e =>
        have hsettles : Settles (committed (applyTrade request) pg) pg False
            (.duplicate normal.appliedReceipt) pg :=
          settles_committed (applyTrade_damaged hnormal hparts hreceipt)
        exact answerMoves_of_settles (c := .applyTradeTransaction request) hsettles False.elim
    | none =>
      have hrow : pg.tradeOperations normal.operationId = none :=
        Option.map_eq_none_iff.mp hparts
      refine answerMoves_of_settles (c := .applyTradeTransaction request)
        (settles_committed (applyTrade_first hnormal hrow)) fun hP => ?_
      have hevents : StoreAnswer.events decode ⟨.applyTradeTransaction request,
          .ok (.applied normal.appliedReceipt)⟩ = normal.outboxEvents.map
            (outboxRow normal.operationId (some normal.transition.tradeId)) := by
        rw [StoreAnswer.events, hnormal, hoperation, htransition]
      have hpostings : StoreAnswer.postings ⟨.applyTradeTransaction request,
          .ok (.applied normal.appliedReceipt)⟩ =
            normal.ledgerPostings.map (ledgerRow normal) := by
        rw [StoreAnswer.postings, hnormal]
      have hdistinct :
          ((normal.ledgerPostings.map (ledgerRow normal)).map (·.postingId)).Nodup := by
        rw [List.map_map]
        exact haccepted.postings
      have hledger := KeyedTable.rows_foldl_insertNew hdistinct
        (List.forall_mem_map.mpr fun posting hmem => (hP.2.postings posting hmem).free)
      rw [AnswerMoves, hevents, hpostings]
      refine moves_of_writes rfl haccepted.records (fun w hw => (hP.2.writable w hw).current)
        (rows_addEvents haccepted.events (fun event hmem => (hP.2.events event hmem).free) _ _)
        hledger (fun asset => (sum_ledgerRow asset).trans (haccepted.balanced asset))
        fun tradeId => ?_
      rw [StoreAnswer.transition, ← htransition, MovesTrade]
      by_cases hid : normal.transition.tradeId = tradeId
      · subst hid
        rw [Option.filter_some, if_pos (by simp)]
        exact ⟨hP.2.stored, isValidTransition_iff.mp haccepted.transition,
          Function.update_self ..⟩
      · rw [Option.filter_some, if_neg (by simpa using hid)]
        exact Function.update_of_ne (Ne.symm hid) ..

theorem perform_moves (c : StoreCall) :
    AnswerMoves decode pg (perform decode encode pg c).2 ⟨c, (perform decode encode pg c).1⟩ := by
  cases c with
  | save request => exact save_moves request
  | applyTransaction request => exact transaction_moves request
  | commitRecords request effects => exact commit_moves request effects
  | applyTradeTransaction request => exact trade_moves request

end Perform

/-! ### Sequences of writes -/

/-- The transitions of one trade that a run reports. -/
def transitions (tradeId : String) (answers : List StoreAnswer) : List TradeTransition :=
  answers.filterMap fun answer => answer.transition.filter (·.tradeId = tradeId)

theorem transitions_cons_none {tradeId : String} {answer : StoreAnswer}
    (h : answer.transition.filter (·.tradeId = tradeId) = none) (answers : List StoreAnswer) :
    transitions tradeId (answer :: answers) = transitions tradeId answers :=
  List.filterMap_cons_none h

theorem transitions_cons_some {tradeId : String} {answer : StoreAnswer} {t : TradeTransition}
    (h : answer.transition.filter (·.tradeId = tradeId) = some t) (answers : List StoreAnswer) :
    transitions tradeId (answer :: answers) = t :: transitions tradeId answers :=
  List.filterMap_cons_some h

section Run

variable (decode : Bytes → Option EventEnvelope) (encode : CommitEffects → Bytes)

theorem performAll_cons (pg : PostgresTables) (c : StoreCall) (rest : List StoreCall) :
    performAll decode encode pg (c :: rest) =
      let last := performAll decode encode (perform decode encode pg c).2 rest
      (⟨c, (perform decode encode pg c).1⟩ :: last.1, last.2) := rfl

/-- What a sequence of writes does to the tables. -/
structure History (pg pg' : PostgresTables) (answers : List StoreAnswer) : Prop where
  revisions : ∀ record, answers.flatMap (·.revisions record) =
    List.range' (pg.revision record + 1) (pg'.revision record - pg.revision record)
  grows : ∀ record, pg.revision record ≤ pg'.revision record
  covered : (∀ record, Covered pg record) → ∀ record, Covered pg' record
  outbox : pg'.outbox.rows = pg.outbox.rows ++ answers.flatMap (·.events decode)
  ledger : pg'.ledger.rows = pg.ledger.rows ++ answers.flatMap (·.postings)
  balanced : ∀ asset,
    (((answers.flatMap (·.postings)).filter (·.asset = asset)).map (·.amount)).sum = 0

/-- The numbers after `a`, up to `b` and from there on. -/
theorem range'_steps {a b c : ℕ} (hab : a ≤ b) (hbc : b ≤ c) :
    List.range' (a + 1) (b - a) ++ List.range' (b + 1) (c - b) = List.range' (a + 1) (c - a) := by
  have hnext : a + 1 + (b - a) = b + 1 := by omega
  have hsum : b - a + (c - b) = c - a := by omega
  rw [← hnext, List.range'_append_1, hsum]

theorem History.cons {pg pg' last : PostgresTables} {answer : StoreAnswer}
    {answers : List StoreAnswer} (h : AnswerMoves decode pg pg' answer)
    (hrest : History decode pg' last answers) : History decode pg last (answer :: answers) where
  revisions record := by
    rw [List.flatMap_cons, hrest.revisions, StoreAnswer.revisions, h.revisions,
      range'_steps (h.grows record) (hrest.grows record)]
  grows record := (h.grows record).trans (hrest.grows record)
  covered hcovered := hrest.covered (h.covered hcovered)
  outbox := by rw [hrest.outbox, h.outbox, List.append_assoc, List.flatMap_cons]
  ledger := by rw [hrest.ledger, h.ledger, List.append_assoc, List.flatMap_cons]
  balanced asset := by
    rw [List.flatMap_cons, List.filter_append, List.map_append, List.sum_append, h.balanced,
      hrest.balanced, add_zero]

theorem performAll_history : ∀ (calls : List StoreCall) (pg : PostgresTables),
    History decode pg (performAll decode encode pg calls).2 (performAll decode encode pg calls).1
  | [], pg => by
    refine ⟨fun record => ?_, fun _ => le_rfl, id, (List.append_nil _).symm,
      (List.append_nil _).symm, fun _ => rfl⟩
    show [] = List.range' _ (pg.revision record - pg.revision record)
    rw [Nat.sub_self]
    rfl
  | c :: rest, pg =>
    .cons decode (perform_moves c) (performAll_history rest (perform decode encode pg c).2)

/-- The run of one trade, from a state of it. -/
structure TradeRun (state : Option TradeState) (version : Revision) (row : Option TradeRow)
    (ts : List TradeTransition) : Prop where
  path : TransitionPath state ts
  versions : ts.map (·.expectedVersion) = List.range' version ts.length
  last : tradeState row = .ok (version + ts.length, (ts.getLast?.map (·.nextState)).or state)

/-- The last value of a list, or the one before the list. -/
theorem getLast?_cons_map {α β : Type} (f : α → β) (a : α) (l : List α) (b : Option β) :
    ((a :: l).getLast?.map f).or b = (l.getLast?.map f).or (some (f a)) := by
  cases l with
  | nil => rfl
  | cons a' l =>
    rw [List.getLast?_cons_cons, List.getLast?_cons]
    rfl

theorem performAll_trade (tradeId : String) :
    ∀ (calls : List StoreCall) (pg : PostgresTables) {version : Revision}
      {state : Option TradeState}, tradeState (pg.trades tradeId) = .ok (version, state) →
      TradeRun state version ((performAll decode encode pg calls).2.trades tradeId)
        (transitions tradeId (performAll decode encode pg calls).1)
  | [], _, _, _, h => ⟨trivial, rfl, h⟩
  | c :: rest, pg, version, state, h => by
    have hmoves : MovesTrade pg (perform decode encode pg c).2 (StoreAnswer.transition
        ⟨c, (perform decode encode pg c).1⟩) tradeId := (perform_moves c).trade tradeId
    rw [performAll_cons]
    dsimp only
    rw [MovesTrade] at hmoves
    split at hmoves
    · rename_i hnone
      rw [transitions_cons_none hnone]
      exact performAll_trade tradeId rest _ (hmoves ▸ h)
    · rename_i t hsome
      obtain ⟨hstate, hedge, hrow⟩ := hmoves
      rw [hstate, Except.ok.injEq, Prod.mk.injEq] at h
      obtain ⟨rfl, rfl⟩ := h
      have hnext : tradeState ((perform decode encode pg c).2.trades tradeId) =
          .ok (t.expectedVersion + 1, some t.nextState) := by
        rw [hrow, tradeState, tradeRow, TradeState.fromI16_toI16]
        rfl
      obtain ⟨hpath, hversions, hlast⟩ := performAll_trade tradeId rest _ hnext
      rw [transitions_cons_some hsome]
      refine ⟨⟨rfl, hedge, hpath⟩, ?_, ?_⟩
      · rw [List.map_cons, List.length_cons, List.range'_succ]
        exact congrArg _ hversions
      · refine hlast.trans ?_
        rw [List.length_cons, Nat.add_right_comm, Nat.add_assoc, getLast?_cons_map]

end Run

end PostgresSnapshotStore

/-! ### From the empty tables -/

section Empty

variable (decode : Bytes → Option EventEnvelope) (encode : CommitEffects → Bytes)
  (routes : OutboxRoutes) (calls : List StoreCall)

/-- The revisions that are answered for a record, and its repair target. -/
theorem revision_history (record : RecordKey) :
    let run := PostgresSnapshotStore.performAll decode encode { routes } calls
    run.1.flatMap (·.revisions record) = List.range' 1 (run.2.revision record) ∧
      ∀ row, run.2.base.snapshots record = some row →
        ∃ target, run.2.base.repairs record = some target ∧ row.revision ≤ target := by
  have h := PostgresSnapshotStore.performAll_history decode encode calls { routes }
  refine ⟨h.revisions record, h.covered (fun record row hrow => ?_) record⟩
  cases hrow

/-- The outbox and the ledger. -/
theorem effects_history :
    let run := PostgresSnapshotStore.performAll decode encode { routes } calls
    run.2.outbox.rows = run.1.flatMap (·.events decode) ∧
      run.2.ledger.rows = run.1.flatMap (·.postings) ∧
      ∀ asset, ((run.2.ledger.rows.filter (·.asset = asset)).map (·.amount)).sum = 0 := by
  have h := PostgresSnapshotStore.performAll_history decode encode calls { routes }
  have hledger := h.ledger
  exact ⟨h.outbox, hledger, fun asset => hledger ▸ h.balanced asset⟩

/-- The transitions of a trade, and its row. -/
theorem trade_rows_history (tradeId : String) :
    let run := PostgresSnapshotStore.performAll decode encode { routes } calls
    let ts := PostgresSnapshotStore.transitions tradeId run.1
    TransitionPath none ts ∧ ts.map (·.expectedVersion) = List.range ts.length ∧
      PostgresSnapshotStore.tradeState (run.2.trades tradeId) =
        .ok (ts.length, ts.getLast?.map (·.nextState)) := by
  obtain ⟨hpath, hversions, hlast⟩ :=
    PostgresSnapshotStore.performAll_trade decode encode tradeId calls { routes }
      (show _ = Except.ok (0, none) from rfl)
  refine ⟨hpath, ?_, ?_⟩
  · rw [List.range_eq_range']
    exact hversions
  · rw [Nat.zero_add, Option.or_none] at hlast
    exact hlast

end Empty

end DbProxy
