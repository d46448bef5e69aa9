/-
The tables that follow a store content.

`Follows` relates the tables of PostgreSQL to the content of the flat store after the
same writes: every receipt of either side comes from one request, and an operation id
belongs to one kind.  Here is what each kind of write does to the relation.

* `Follows.retry` — repair targets and a repeated claim;
* `Follows.save`, `Follows.transaction`, `Follows.records`, `Follows.traded` — a write.
-/
import DbProxy.FlatAcceptance
import DbProxy.PostgresRetries
import DbProxy.ReferenceStores

namespace DbProxy

open Text EarlyReturn KeyedMap

namespace PostgresSnapshotStore

section Relation

variable {D : Type} (cfg : MemoryConfig D) (encode : CommitEffects → Bytes) (inputs : List Bytes)
  (known : Set CommitEffects)

/-! ### Receipts of one request -/

def saveReceiptRow (request : SnapshotWrite) (revision : Revision) : IdempotencyRow :=
  ⟨request.record, request.schema, request.schemaVersion, request.payload,
    request.expectedRevision, revision, some request.updatedAtUnixMs⟩

def SameSave (row : IdempotencyRow) (receipt : SnapshotReceipt D) : Prop :=
  ∃ request revision, request.payload ∈ inputs ∧ revision < bigintLimit ∧
    row = saveReceiptRow request revision ∧
    receipt = ⟨request.record, .fromRequest cfg request, revision⟩

def SameSingle (row : TransactionRow) (receipt : StoredTransactionReceipt D) : Prop :=
  ∃ request : TransactionalWrite, request.payload ∈ inputs ∧ request.result ∈ inputs ∧
    request.expectedRevision + 1 < bigintLimit ∧
    row = transactionRow request (request.expectedRevision + 1) ∧
    receipt = ⟨.fromRequest cfg request, request.expectedRevision + 1, request.result⟩

/-- The writes fit the columns and their keys can be stored. -/
structure WriteFits (w : TransactionalRecordWrite) : Prop where
  next : w.expectedRevision + 1 < bigintLimit
  time : w.updatedAtUnixMs < bigintLimit
  keys : Bindable [w.record.ns, w.record.key]

/-- A request whose repetition can be recognised. -/
structure MultiStorable (request : MultiRecordTransactionalWrite) (effects : CommitEffects) :
    Prop where
  prepared : request.Prepared
  fits : ∀ w ∈ request.writes, WriteFits w
  payloads : ∀ w ∈ request.writes, w.payload ∈ inputs
  result : request.result ∈ inputs
  known : effects ∈ known

structure SameMulti (row : MultiTransaction) (receipt : StoredMultiTransactionReceipt D)
    (request : MultiRecordTransactionalWrite) (effects : CommitEffects) : Prop
    extends MultiStorable inputs known request effects where
  row : row = ⟨request.header, request.rows (request.writes.map (·.expectedRevision + 1)),
    effectsRow encode effects⟩
  receipt : receipt = ⟨effects, .fromRequest cfg request, request.writes.map (·.receipt),
    request.result⟩

/-- A trade after its normalisation. -/
structure NormalTrade (request : TradeTransaction) : Prop where
  accepted : AcceptedTrade request
  keys : ∀ w ∈ request.writes, blank w.record.ns = false ∧ blank w.record.key = false
  writes : request.writes.Pairwise fun a b => a.record ≤ b.record
  postings : request.ledgerPostings.Pairwise fun a b => a.postingId ≤ b.postingId
  events : request.outboxEvents.Pairwise fun a b => a.eventId ≤ b.eventId

structure SameTrade (ledger : List LedgerRow) (outbox : List OutboxContentRow)
    (operationId : String) (row : TradeOperation) (receipt : StoredTradeTransactionReceipt)
    (request : TradeTransaction) : Prop where
  id : request.operationId = operationId
  normal : NormalTrade request
  fits : TradeFits request
  keys : ∀ w ∈ request.writes, WriteFits w
  row : row = ⟨tradeOperationRow request,
    request.writes.map fun w => .ofWrite w (w.expectedRevision + 1)⟩
  receipt : receipt = ⟨request, request.appliedReceipt⟩
  ledger : ledger.filter (·.operationId = operationId) =
    request.ledgerPostings.map (ledgerRow request)
  outbox : outbox.filter (·.operationId = operationId) =
    request.outboxEvents.map (outboxRow operationId (some request.transition.tradeId))

def SameTradeState (row : TradeRow) (trade : TradeEnvelope) : Prop :=
  row = ⟨trade.version, trade.state.toI16, trade.payload, trade.updatedAtUnixMs⟩

/-- The tables after the writes that led the flat store to `v`. -/
structure Follows (v : StoreView D) (pg : PostgresTables) : Prop where
  snapshots : ∀ record,
    v.snapshots record = (pg.base.snapshots record).map (snapshotFromRow record)
  claims : ∀ id, pg.claims id = (v.operationKinds id).map fun kind => { kind }
  saves : ∀ id, Option.Rel (SameSave cfg inputs) (pg.base.idempotency id) (v.snapshotReceipts id)
  singles : ∀ id, Option.Rel (SameSingle cfg inputs) (pg.transactions id) (v.transactions id)
  multis : ∀ id, Option.Rel (fun row receipt => ∃ request effects,
    SameMulti cfg encode inputs known row receipt request effects)
      (pg.multiTransactions id) (v.multiTransactions id)
  trades : ∀ id, Option.Rel (fun row receipt => ∃ request,
    SameTrade pg.ledger.rows pg.outbox.rows id row receipt request)
      (pg.tradeOperations id) (v.tradeTransactions id)
  states : ∀ id, Option.Rel (fun row trade => SameTradeState row trade ∧ trade.tradeId = id)
    (pg.trades id) (v.trades id)
  appends : ∀ record, pg.appends record = none ↔ v.identifiers.appends record = none
  postings : ∀ id, pg.ledger.lookup id = none ↔ id ∉ v.identifiers.ledgerPostingIds
  events : ∀ id, pg.outbox.lookup id = none ↔ id ∉ v.identifiers.outboxEventIds
  single : ∀ id, (v.transactions id).isSome → v.operationKinds id = some .single
  multi : ∀ id, (v.multiTransactions id).isSome → v.operationKinds id = some .multi
  trade : ∀ id, (v.tradeTransactions id).isSome → v.operationKinds id = some .trade
  ledgerOwned : ∀ row ∈ pg.ledger.rows, (v.tradeTransactions row.operationId).isSome
  outboxOwned : ∀ row ∈ pg.outbox.rows, (v.multiTransactions row.operationId).isSome ∨
    (v.tradeTransactions row.operationId).isSome

end Relation

section Follows

variable {D : Type} {cfg : MemoryConfig D} {encode : CommitEffects → Bytes} {inputs : List Bytes}
  {known : Set CommitEffects} {v : StoreView D} {pg pg' : PostgresTables}

theorem Follows.revision (h : Follows cfg encode inputs known v pg) (record : RecordKey) :
    v.revision record = pg.revision record := by
  rw [StoreView.revision, h.snapshots, PostgresTables.revision, Option.map_map]
  rfl

theorem Follows.claimable (h : Follows cfg encode inputs known v pg) {operationId : String}
    {kind : OperationKind} :
    pg.Claimable operationId kind ↔ Flat.Claims v operationId kind := by
  rw [PostgresTables.Claimable, Flat.Claims, h.claims]
  cases v.operationKinds operationId with
  | none => simp
  | some existing => simp

/-- Repair targets are no part of the relation, and a claim may be repeated. -/
theorem Follows.retry (h : Follows cfg encode inputs known v pg)
    (hsnapshots : pg'.base.snapshots = pg.base.snapshots)
    (hsaves : pg'.base.idempotency = pg.base.idempotency) (hclaims : pg'.claims = pg.claims)
    (hrest : pg'.transactions = pg.transactions ∧ pg'.multiTransactions = pg.multiTransactions ∧
      pg'.appends = pg.appends ∧ pg'.trades = pg.trades ∧
      pg'.tradeOperations = pg.tradeOperations ∧ pg'.ledger = pg.ledger ∧
      pg'.outbox = pg.outbox) : Follows cfg encode inputs known v pg' := by
  obtain ⟨h1, h2, h3, h4, h5, h6, h7⟩ := hrest
  exact {
    snapshots := by rw [hsnapshots]; exact h.snapshots
    claims := by rw [hclaims]; exact h.claims
    saves := by rw [hsaves]; exact h.saves
    singles := by rw [h1]; exact h.singles
    multis := by rw [h2]; exact h.multis
    trades := by rw [h5, h6, h7]; exact h.trades
    states := by rw [h4]; exact h.states
    appends := by rw [h3]; exact h.appends
    postings := by rw [h6]; exact h.postings
    events := by rw [h7]; exact h.events
    single := h.single
    multi := h.multi
    trade := h.trade
    ledgerOwned := by rw [h6]; exact h.ledgerOwned
    outboxOwned := by rw [h7]; exact h.outboxOwned }

/-- A claim that is already there. -/
theorem Follows.claim_eq (h : Follows cfg encode inputs known v pg) {operationId : String}
    {kind : OperationKind} (hkind : v.operationKinds operationId = some kind) :
    pg.claim operationId kind = pg := by
  have hclaim : pg.claims operationId = some { kind } := by rw [h.claims, hkind]; rfl
  rw [PostgresTables.claim, ← hclaim, Function.update_eq_self]

theorem raiseAll_eq : ∀ (receipts : List TransactionRecordReceipt) (pg : PostgresTables),
    pg.raiseAll receipts = { pg with base := { pg.base with
      repairs := (pg.raiseAll receipts).base.repairs } }
  | [], _ => rfl
  | receipt :: rest, pg => raiseAll_eq rest (pg.raise receipt.record receipt.newRevision)

/-- A retry that finds its claim and raises repair targets. -/
theorem Follows.repaired (h : Follows cfg encode inputs known v pg) {operationId : String}
    {kind : OperationKind} (hkind : v.operationKinds operationId = some kind)
    (receipts : List TransactionRecordReceipt) :
    Follows cfg encode inputs known v ((pg.claim operationId kind).raiseAll receipts) := by
  rw [h.claim_eq hkind, raiseAll_eq]
  exact h.retry rfl rfl rfl ⟨rfl, rfl, rfl, rfl, rfl, rfl, rfl⟩

/-- The insertion of a pair of related rows. -/
theorem rel_update {κ α β : Type*} [DecidableEq κ] {R : κ → α → β → Prop} {m : κ → Option α}
    {m' : κ → Option β} {k : κ} {a : α} {b : β}
    (h : ∀ i, i ≠ k → Option.Rel (R i) (m i) (m' i)) (hab : R k a b) (i : κ) :
    Option.Rel (R i) (Function.update m k (some a) i) (Function.update m' k (some b) i) := by
  by_cases hi : i = k
  · subst hi
    rw [Function.update_self, Function.update_self]
    exact .some hab
  · rw [Function.update_of_ne hi, Function.update_of_ne hi]
    exact h i hi

/-- The insertion of a snapshot. -/
theorem snapshots_update {m : RecordKey → Option SnapshotRow}
    {m' : RecordKey → Option SnapshotEnvelope} {record : RecordKey} {row : SnapshotRow}
    {snapshot : SnapshotEnvelope} (h : ∀ r, m' r = (m r).map (snapshotFromRow r))
    (hrow : snapshotFromRow record row = snapshot) (r : RecordKey) :
    Function.update m' record (some snapshot) r =
      (Function.update m record (some row) r).map (snapshotFromRow r) := by
  by_cases hr : r = record
  · subst hr
    rw [Function.update_self, Function.update_self, Option.map_some, hrow]
  · rw [Function.update_of_ne hr, Function.update_of_ne hr, h r]

/-- The tables after a first save. -/
def savedTables (pg : PostgresTables) (request : SnapshotWrite) : PostgresTables :=
  let revision := pg.revision request.record + 1
  let stored := (pg.storeRow request.record (rowOf request request.updatedAtUnixMs revision
    ((pg.base.snapshots request.record).bind (·.queuedSequence)))).raise request.record revision
  { stored with base := { stored.base with
      idempotency := Function.update pg.base.idempotency request.requestId
        (some (saveReceiptRow request revision)) } }

theorem Follows.save (h : Follows cfg encode inputs known v pg) {request : SnapshotWrite}
    (hpayload : request.payload ∈ inputs) (hnext : pg.revision request.record + 1 < bigintLimit) :
    Follows cfg encode inputs known (v.save cfg request) (savedTables pg request) :=
  { h with
    snapshots := by
      refine snapshots_update h.snapshots ?_
      rw [h.revision]
      rfl
    saves := fun id => by
      refine rel_update (R := fun _ => SameSave cfg inputs) (fun i _ => h.saves i) ?_ id
      exact ⟨request, _, hpayload, hnext, rfl, by rw [h.revision]⟩ }

/-! ### Claims and receipts -/

theorem Follows.claims_update (h : Follows cfg encode inputs known v pg) (operationId : String)
    (kind : OperationKind) (id : String) :
    Function.update pg.claims operationId (some { kind }) id =
      (Function.update v.operationKinds operationId (some kind) id).map fun kind => { kind } := by
  by_cases hid : id = operationId
  · rw [hid, Function.update_self, Function.update_self, Option.map_some]
  · rw [Function.update_of_ne hid, Function.update_of_ne hid, h.claims]

section Kinds

variable {α : Type} {kinds : String → Option OperationKind} {receipts : String → Option α}
  {kind other : OperationKind} {operationId : String}

/-- A claim does not touch the receipts of another kind. -/
theorem kind_kept (h : ∀ id, (receipts id).isSome → kinds id = some other)
    (hclaims : ∀ existing, kinds operationId = some existing → existing = kind)
    (hne : other ≠ kind) (id : String) (hsome : (receipts id).isSome) :
    Function.update kinds operationId (some kind) id = some other := by
  have hid : id ≠ operationId := by
    rintro rfl
    exact hne (hclaims other (h id hsome))
  rw [Function.update_of_ne hid]
  exact h id hsome

/-- A claim comes with a receipt of its kind. -/
theorem kind_taken (h : ∀ id, (receipts id).isSome → kinds id = some kind) {receipt : α}
    (id : String) (hsome : (Function.update receipts operationId (some receipt) id).isSome) :
    Function.update kinds operationId (some kind) id = some kind := by
  by_cases hid : id = operationId
  · rw [hid, Function.update_self]
  · rw [Function.update_of_ne hid] at hsome ⊢
    exact h id hsome

end Kinds

theorem Follows.transaction (h : Follows cfg encode inputs known v pg)
    {request : TransactionalWrite} (hpayload : request.payload ∈ inputs) (hresult : request.result ∈ inputs)
    (hclaims : Flat.Claims v request.operationId .single)
    (hnext : request.expectedRevision + 1 < bigintLimit) :
    Follows cfg encode inputs known (v.applyTransaction cfg request)
      ((putTransaction ((pg.claim request.operationId .single).storeRow request.record
        ⟨request.schema, request.schemaVersion, request.expectedRevision + 1, request.payload,
          request.updatedAtUnixMs, (pg.base.snapshots request.record).bind (·.queuedSequence)⟩)
        request (request.expectedRevision + 1)).raise request.record
          (request.expectedRevision + 1)) :=
  { h with
    snapshots := snapshots_update h.snapshots rfl
    claims := h.claims_update request.operationId .single
    singles := fun id => by
      refine rel_update (R := fun _ => SameSingle cfg inputs) (fun i _ => h.singles i) ?_ id
      exact ⟨request, hpayload, hresult, hnext, rfl, rfl⟩
    single := kind_taken h.single
    multi := kind_kept h.multi hclaims (by decide)
    trade := kind_kept h.trade hclaims (by decide) }

/-! ### The records of a transaction -/

/-- Writes from a common content. -/
theorem insertAll_writeAll : ∀ (writes : List TransactionalRecordWrite) {pg : PostgresTables}
    {m : RecordKey → Option SnapshotEnvelope},
    (∀ r, m r = (pg.base.snapshots r).map (snapshotFromRow r)) →
      ∀ r, insertAll (·.record) m (writes.map (·.committed)) r =
        ((pg.writeAll writes).base.snapshots r).map (snapshotFromRow r)
  | [], _, _, h => h
  | _ :: rest, _, _, h => insertAll_writeAll rest (snapshots_update h rfl)

theorem idempotency_writeAll : ∀ (writes : List TransactionalRecordWrite) (pg : PostgresTables),
    (pg.writeAll writes).base.idempotency = pg.base.idempotency
  | [], _ => rfl
  | w :: rest, pg => idempotency_writeAll rest (pg.write w)

theorem filter_append_other {ρ : Type} {rows added : List ρ} {p : ρ → Bool}
    (h : ∀ row ∈ added, p row = false) : (rows ++ added).filter p = rows.filter p := by
  have hadded : added.filter p = [] := List.filter_eq_nil_iff.mpr (by simpa using h)
  rw [List.filter_append, hadded, List.append_nil]

/-- A trade is not touched by rows of other operations. -/
theorem SameTrade.append {ledger : List LedgerRow} {outbox : List OutboxContentRow} {id : String}
    {row : TradeOperation} {receipt : StoredTradeTransactionReceipt} {request : TradeTransaction}
    (h : SameTrade ledger outbox id row receipt request) {postings : List LedgerRow}
    (hpostings : ∀ row ∈ postings, row.operationId ≠ id) {events : List OutboxContentRow}
    (hevents : ∀ row ∈ events, row.operationId ≠ id) :
    SameTrade (ledger ++ postings) (outbox ++ events) id row receipt request :=
  { h with
    ledger := (filter_append_other (by simpa using hpostings)).trans h.ledger
    outbox := (filter_append_other (by simpa using hevents)).trans h.outbox }

theorem rel_imp {α β : Type} {R S : α → β → Prop} {a : Option α} {b : Option β}
    (h : Option.Rel R a b) (himp : ∀ x y, b = some y → R x y → S x y) : Option.Rel S a b := by
  cases h with
  | none => exact .none
  | some hab => exact .some (himp _ _ rfl hab)

/-! ### Rows of events -/

section Events

variable {events : List OutboxEvent} {t : KeyedTable OutboxContentRow.eventId}

theorem eventIds_outboxRow (operationId : String) (tradeId : Option String) :
    (events.map (outboxRow operationId tradeId)).map (·.eventId) = events.map (·.eventId) := by
  rw [List.map_map]
  rfl

theorem rows_addEvents (hids : (events.map (·.eventId)).Nodup)
    (hnew : ∀ event ∈ events, t.lookup event.eventId = none) (operationId : String)
    (tradeId : Option String) :
    ((events.map (outboxRow operationId tradeId)).foldl KeyedTable.insertNew t).rows =
      t.rows ++ events.map (outboxRow operationId tradeId) := by
  refine KeyedTable.rows_foldl_insertNew ?_ (List.forall_mem_map.mpr hnew)
  rw [eventIds_outboxRow]
  exact hids

theorem lookup_addEvents (hids : (events.map (·.eventId)).Nodup)
    (hnew : ∀ event ∈ events, t.lookup event.eventId = none) {operationId : String}
    {tradeId : Option String} {id : String} :
    ((events.map (outboxRow operationId tradeId)).foldl KeyedTable.insertNew t).lookup id = none ↔
      t.lookup id = none ∧ id ∉ events.map (·.eventId) := by
  rw [← eventIds_outboxRow operationId tradeId]
  refine KeyedTable.lookup_foldl_insertNew ?_ (List.forall_mem_map.mpr hnew)
  rw [eventIds_outboxRow]
  exact hids

end Events

/-! ### Transactions of several records -/

theorem Follows.records (h : Follows cfg encode inputs known v pg)
    {request : MultiRecordTransactionalWrite} {effects : CommitEffects}
    (hstorable : MultiStorable inputs known request effects)
    (hids : (effects.outboxEvents.map (·.eventId)).Nodup)
    (hclaims : Flat.Claims v request.operationId .multi)
    (hnew : ∀ event ∈ effects.outboxEvents, pg.outbox.lookup event.eventId = none) :
    Follows cfg encode inputs known (v.commitRecords cfg request effects)
      (pg.commitRecords encode request effects) := by
  have houtbox := rows_addEvents hids hnew request.operationId none
  have hother : ∀ id, (v.tradeTransactions id).isSome → id ≠ request.operationId := by
    rintro id hsome rfl
    cases hclaims _ (h.trade _ hsome)
  exact {
    snapshots := insertAll_writeAll request.writes h.snapshots
    claims := h.claims_update request.operationId .multi
    saves := fun id => by
      show Option.Rel _ ((pg.writeAll request.writes).base.idempotency id) _
      rw [idempotency_writeAll]
      exact h.saves id
    singles := h.singles
    multis := fun id => by
      refine rel_update (R := fun _ row receipt => ∃ request effects, SameMulti cfg encode inputs
        known row receipt request effects) (fun i _ => h.multis i) ?_ id
      exact ⟨request, effects, hstorable, rfl, rfl⟩
    trades := fun id => by
      refine rel_imp (h.trades id) fun row receipt hreceipt hsame => ?_
      obtain ⟨source, hsame⟩ := hsame
      refine ⟨source, ?_⟩
      have hreceipt : v.tradeTransactions id = some receipt := hreceipt
      have hne : request.operationId ≠ id := (hother id (by rw [hreceipt]; rfl)).symm
      rw [PostgresTables.commitRecords, houtbox]
      have hevents : ∀ row ∈ effects.outboxEvents.map (outboxRow request.operationId none),
          row.operationId ≠ id := List.forall_mem_map.mpr fun _ _ => hne
      have happend := hsame.append (List.forall_mem_nil _) hevents
      rwa [List.append_nil] at happend
    states := h.states
    appends := fun record => by
      refine foldl_update_eq_none.trans (.trans ?_ foldl_update_eq_none.symm)
      rw [h.appends]
    postings := h.postings
    events := fun id => by
      refine (lookup_addEvents hids hnew).trans ?_
      rw [h.events]
      simp [StoreView.commitRecords, TradeIdentifiers.insertEffects]
    single := kind_kept h.single hclaims (by decide)
    multi := kind_taken h.multi
    trade := kind_kept h.trade hclaims (by decide)
    ledgerOwned := h.ledgerOwned
    outboxOwned := fun row hrow => by
      rw [PostgresTables.commitRecords, houtbox, List.mem_append] at hrow
      rcases hrow with hrow | hrow
      · rcases h.outboxOwned row hrow with howner | howner
        · exact .inl (isSome_update _ howner)
        · exact .inr howner
      · obtain ⟨event, -, rfl⟩ := List.mem_map.mp hrow
        left
        show (Function.update v.multiTransactions request.operationId _ request.operationId).isSome
        rw [Function.update_self]
        rfl }

/-! ### Trades -/

theorem Follows.traded (h : Follows cfg encode inputs known v pg) {request : TradeTransaction}
    (hnormal : NormalTrade request) (hfits : TradeFits request)
    (hkeys : ∀ w ∈ request.writes, WriteFits w)
    (hclaims : Flat.Claims v request.operationId .trade)
    (hnone : v.tradeTransactions request.operationId = none)
    (hpostings : ∀ posting ∈ request.ledgerPostings, pg.ledger.lookup posting.postingId = none)
    (hevents : ∀ event ∈ request.outboxEvents, pg.outbox.lookup event.eventId = none) :
    Follows cfg encode inputs known (v.applyTrade request) (pg.applyTrade request) := by
  have hpostingIds : (request.ledgerPostings.map (ledgerRow request)).map (·.postingId) =
      request.ledgerPostings.map (·.postingId) := by
    rw [List.map_map]
    rfl
  have hdistinct : ((request.ledgerPostings.map (ledgerRow request)).map (·.postingId)).Nodup := by
    rw [hpostingIds]
    exact hnormal.accepted.postings
  have hfree : ∀ row ∈ request.ledgerPostings.map (ledgerRow request),
      pg.ledger.lookup row.postingId = none := by simpa [ledgerRow] using hpostings
  have hledger := KeyedTable.rows_foldl_insertNew hdistinct hfree
  have houtbox := rows_addEvents hnormal.accepted.events hevents request.operationId
    (some request.transition.tradeId)
  -- no row of the operation is there before its first attempt
  have hnoPostings : pg.ledger.rows.filter (·.operationId = request.operationId) = [] := by
    refine List.filter_eq_nil_iff.mpr fun row hrow heq => ?_
    have howner := h.ledgerOwned row hrow
    rw [of_decide_eq_true heq, hnone] at howner
    cases howner
  have hnoEvents : pg.outbox.rows.filter (·.operationId = request.operationId) = [] := by
    refine List.filter_eq_nil_iff.mpr fun row hrow heq => ?_
    have howner := h.outboxOwned row hrow
    rw [of_decide_eq_true heq, hnone] at howner
    rcases howner with howner | howner
    · cases hclaims _ (h.multi _ howner)
    · cases howner
  exact {
    snapshots := insertAll_writeAll request.writes h.snapshots
    claims := h.claims_update request.operationId .trade
    saves := fun id => by
      show Option.Rel _ ((pg.writeAll request.writes).base.idempotency id) _
      rw [idempotency_writeAll]
      exact h.saves id
    singles := h.singles
    multis := h.multis
    trades := fun id => by
      rw [PostgresTables.applyTrade, hledger, houtbox]
      refine rel_update (R := fun id row receipt => ∃ source, SameTrade
        (pg.ledger.rows ++ request.ledgerPostings.map (ledgerRow request))
        (pg.outbox.rows ++ request.outboxEvents.map
          (outboxRow request.operationId (some request.transition.tradeId)))
        id row receipt source) (fun i hi => ?_) ?_ id
      · refine rel_imp (h.trades i) fun row receipt _ hsame => ?_
        obtain ⟨source, hsame⟩ := hsame
        exact ⟨source, hsame.append (List.forall_mem_map.mpr fun _ _ => hi.symm)
          (List.forall_mem_map.mpr fun _ _ => hi.symm)⟩
      · refine ⟨request, rfl, hnormal, hfits, hkeys, rfl, rfl, ?_, ?_⟩
        · rw [List.filter_append, hnoPostings, List.nil_append]
          exact List.filter_eq_self.mpr (by simp [ledgerRow])
        · rw [List.filter_append, hnoEvents, List.nil_append]
          exact List.filter_eq_self.mpr (by simp [outboxRow])
    states := fun id => by
      refine rel_update (R := fun id row trade => SameTradeState row trade ∧ trade.tradeId = id)
        (fun i _ => h.states i) ?_ id
      exact ⟨rfl, rfl⟩
    appends := h.appends
    postings := fun id => by
      refine (KeyedTable.lookup_foldl_insertNew hdistinct hfree).trans ?_
      rw [hpostingIds, h.postings]
      simp [StoreView.applyTrade, TradeIdentifiers.insertTrade]
    events := fun id => by
      refine (lookup_addEvents hnormal.accepted.events hevents).trans ?_
      rw [h.events]
      simp [StoreView.applyTrade, TradeIdentifiers.insertTrade]
    single := kind_kept h.single hclaims (by decide)
    multi := kind_kept h.multi hclaims (by decide)
    trade := kind_taken h.trade
    ledgerOwned := fun row hrow => by
      rw [PostgresTables.applyTrade, hledger, List.mem_append] at hrow
      rcases hrow with hrow | hrow
      · exact isSome_update _ (h.ledgerOwned row hrow)
      · obtain ⟨posting, -, rfl⟩ := List.mem_map.mp hrow
        show (Function.update v.tradeTransactions request.operationId _ request.operationId).isSome
        rw [Function.update_self]
        rfl
    outboxOwned := fun row hrow => by
      rw [PostgresTables.applyTrade, houtbox, List.mem_append] at hrow
      rcases hrow with hrow | hrow
      · exact (h.outboxOwned row hrow).imp id (isSome_update _)
      · obtain ⟨event, -, rfl⟩ := List.mem_map.mp hrow
        right
        show (Function.update v.tradeTransactions request.operationId _ request.operationId).isSome
        rw [Function.update_self]
        rfl }

end Follows

end PostgresSnapshotStore

end DbProxy
