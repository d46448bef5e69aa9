/-
One write on PostgreSQL and on the volatile backend.

A write whose texts, keys and numbers the tables can hold succeeds in PostgreSQL exactly
when the volatile backend accepts it, with the same answer, as long as the revisions that
the volatile backend stores fit a `BIGINT` as well.  The checks come in another order
there, so two refusals may name different reasons.

* `StoreCall.Storable` — what the tables can hold;
* `StepAgrees` — one write on both sides: the same answer and related content;
* `save_agrees_flat` and its siblings — every kind of write.
-/
import DbProxy.FlatRevisions
import DbProxy.PostgresFollows

namespace DbProxy

open Text EarlyReturn Checks KeyedMap

/-! ### What the tables can hold -/

/-- Names of a record: PostgreSQL refuses blank ones. -/
def RecordKey.Named (record : RecordKey) : Prop :=
  blank record.ns = false ∧ blank record.key = false

instance (record : RecordKey) : Decidable record.Named := inferInstanceAs (Decidable (_ ∧ _))

structure StorableSave (request : SnapshotWrite) : Prop where
  keys : request.record.Named
  texts : Bindable [request.requestId, request.record.ns, request.record.key, request.schema]
  expected : ∀ revision, request.expectedRevision = some revision → revision < bigintLimit
  time : request.updatedAtUnixMs < bigintLimit

structure StorableTransaction (request : TransactionalWrite) : Prop where
  keys : request.record.Named
  texts : Bindable [request.operationId, request.record.ns, request.record.key, request.schema]
  expected : request.expectedRevision < bigintLimit
  time : request.updatedAtUnixMs < bigintLimit

structure StorableWrite (operationId : String) (w : TransactionalRecordWrite) : Prop where
  keys : w.record.Named
  schema : blank w.schema = false
  texts : Bindable [operationId, w.record.ns, w.record.key, w.schema]
  expected : w.expectedRevision < bigintLimit
  time : w.updatedAtUnixMs < bigintLimit

structure StorableAppend (operationId : String) (append : AppendRecord) : Prop where
  texts : Bindable [append.record.ns, append.record.key, operationId, append.schema]
  time : append.occurredAtUnixMs < bigintLimit

/-- A relay topic needs a route. -/
structure StorableEvent (routes : OutboxRoutes) (operationId : String) (event : OutboxEvent) :
    Prop where
  texts : Bindable [event.eventId, operationId, event.topic, event.partitionKey]
  time : event.occurredAtUnixMs < bigintLimit
  routed : isRelayTopic event.topic = true → (routes.routes event.topic).isSome

structure StorableCommit (routes : OutboxRoutes) (request : MultiRecordTransactionalWrite)
    (effects : CommitEffects) : Prop where
  id : Bindable [request.operationId]
  writes : ∀ w ∈ request.writes, StorableWrite request.operationId w
  appends : ∀ append ∈ effects.appends, StorableAppend request.operationId append
  events : ∀ event ∈ effects.outboxEvents, StorableEvent routes request.operationId event

structure StorableTrade (routes : OutboxRoutes) (request : TradeTransaction) : Prop where
  texts : Bindable [request.operationId, request.transition.tradeId]
  version : request.transition.expectedVersion < bigintLimit
  time : request.transition.updatedAtUnixMs < bigintLimit
  writes : ∀ w ∈ request.writes, StorableWrite request.operationId w
  postings : ∀ posting ∈ request.ledgerPostings, Bindable [posting.postingId, request.operationId,
    request.transition.tradeId, posting.accountId, posting.asset]
  events : ∀ event ∈ request.outboxEvents, StorableEvent routes request.operationId event

/-- The write can be stored, if its expectations are met. -/
def StoreCall.Storable (routes : OutboxRoutes) : StoreCall → Prop
  | save request => StorableSave request
  | applyTransaction request => StorableTransaction request
  | commitRecords request effects => StorableCommit routes request effects
  | applyTradeTransaction request => StorableTrade routes request

/-- The byte strings whose digests the volatile backend compares. -/
def StoreCall.inputs : StoreCall → List Bytes
  | save request => [request.payload]
  | applyTransaction request => [request.payload, request.result]
  | commitRecords request _ => request.result :: request.writes.map (·.payload)
  | applyTradeTransaction _ => []

theorem StorableWrite.fits {operationId : String} {w : TransactionalRecordWrite}
    (h : StorableWrite operationId w) (hnext : w.expectedRevision + 1 < bigintLimit) :
    PostgresSnapshotStore.WriteFits w where
  next := hnext
  time := h.time
  keys := h.texts.sublist (by simp)

/-- The normal form of a storable commit. -/
theorem StorableCommit.normal {decode : Bytes → Option EventEnvelope} {routes : OutboxRoutes}
    {request normal : MultiRecordTransactionalWrite} {effects normalEffects : CommitEffects}
    (h : StorableCommit routes request effects) (hnormal : normalizeMulti request = .ok normal)
    (heffects : effects.normalize decode = .ok normalEffects) :
    StorableCommit routes normal normalEffects := by
  obtain ⟨-, -, -, rfl⟩ := normalizeMulti_ok hnormal
  obtain ⟨rfl, -, -⟩ := CommitEffects.normalize_ok heffects
  exact ⟨h.id, fun w hw => h.writes w (mem_sortOn.mp hw),
    fun append hmem => h.appends append (mem_sortOn.mp hmem),
    fun event hmem => h.events event (mem_sortOn.mp hmem)⟩

theorem StorableTrade.fits {routes : OutboxRoutes} {request : TradeTransaction}
    (h : StorableTrade routes request)
    (hversion : request.transition.expectedVersion + 1 < bigintLimit)
    (hnext : ∀ w ∈ request.writes, w.expectedRevision + 1 < bigintLimit) :
    PostgresSnapshotStore.TradeFits request where
  version := hversion
  time := h.time
  writes w hw := ⟨hnext w hw, (h.writes w hw).time⟩
  events event hmem := (h.events event hmem).time

theorem StorableTrade.normal {routes : OutboxRoutes} {request normal : TradeTransaction}
    (h : StorableTrade routes request) (hnormal : normalizeTradeTransaction request = .ok normal) :
    StorableTrade routes normal := by
  obtain ⟨-, rfl⟩ := normalizeTrade_ok hnormal
  exact ⟨h.texts, h.version, h.time, fun w hw => h.writes w (mem_sortOn.mp hw),
    fun posting hmem => h.postings posting (mem_sortOn.mp hmem),
    fun event hmem => h.events event (mem_sortOn.mp hmem)⟩

namespace PostgresSnapshotStore

section Steps

variable {D : Type} {cfg : MemoryConfig D} {encode : CommitEffects → Bytes} {inputs : List Bytes}
  {known : Set CommitEffects} {v v' : StoreView D} {pg pg' : PostgresTables} {α : Type} {a : α} {P Q : Prop}

/-! ### One write -/

/-- A write: it succeeds exactly when `P` holds, and leaves no trace otherwise. -/
def Settles (r : Except StorageError α × PostgresTables) (pg : PostgresTables) (P : Prop) (a : α)
    (pg' : PostgresTables) : Prop :=
  (P → r = (.ok a, pg')) ∧ (¬ P → r.1.toOption = none ∧ r.2 = pg)

theorem settles_committed {x : PgM α} (h : Yields x pg P a pg') :
    Settles (committed x pg) pg P a pg' := by
  constructor
  · intro hP
    rw [committed, h.run_eq hP]
  · intro hP
    obtain ⟨e, m, hrun⟩ := h.run_error hP
    rw [committed, hrun]
    exact ⟨rfl, rfl⟩

variable (cfg encode inputs known) in
/-- One write on both sides: the same answer, and content that is related again. -/
structure StepAgrees (v : StoreView D) (pg : PostgresTables)
    (r : Except StorageError α × PostgresTables) (flat : Except StoreError (α × StoreView D)) :
    Prop where
  answer : r.1.toOption = flat.toOption.map Prod.fst
  follows : Follows cfg encode inputs known ((flat.toOption.map Prod.snd).getD v) r.2
  routes : r.2.routes = pg.routes

/-- A write that the flat store accepts must leave revisions that fit. -/
def StoresBelow (flat : Except StoreError (α × StoreView D)) : Prop :=
  ∀ x, flat = .ok x → x.2.Below bigintLimit

/-- Both sides accept the write under conditions that agree if the revisions fit. -/
theorem stepAgrees_of_iff {r : Except StorageError α × PostgresTables}
    {flat : Except StoreError (α × StoreView D)} (h : Follows cfg encode inputs known v pg)
    (hpg : Settles r pg P a pg') (hflat : Returns flat Q (a, v')) (hfits : StoresBelow flat)
    (hflatOfPg : P → Q) (hpgOfFlat : Q → v'.Below bigintLimit → P)
    (hroutes : pg'.routes = pg.routes) (hnext : P → Follows cfg encode inputs known v' pg') :
    StepAgrees cfg encode inputs known v pg r flat := by
  by_cases hP : P
  · rw [hpg.1 hP, (hflat (a, v')).mpr ⟨hflatOfPg hP, rfl⟩]
    exact ⟨rfl, hnext hP, hroutes⟩
  · obtain ⟨hanswer, htables⟩ := hpg.2 hP
    cases haccepts : flat with
    | error e =>
      refine ⟨hanswer, ?_, congrArg _ htables⟩
      rw [htables]
      exact h
    | ok x =>
      obtain ⟨hQ, rfl⟩ := (hflat x).mp haccepts
      exact absurd (hpgOfFlat hQ (hfits _ haccepts)) hP

/-- The same for conditions that agree in any case. -/
theorem stepAgrees_of_retry {r : Except StorageError α × PostgresTables}
    {flat : Except StoreError (α × StoreView D)} (h : Follows cfg encode inputs known v pg)
    (hpg : Settles r pg P a pg') (hflat : Returns flat Q (a, v')) (hfits : StoresBelow flat)
    (hiff : P ↔ Q) (hroutes : pg'.routes = pg.routes)
    (hnext : P → Follows cfg encode inputs known v' pg') :
    StepAgrees cfg encode inputs known v pg r flat :=
  stepAgrees_of_iff h hpg hflat hfits hiff.mp (fun hQ _ => hiff.mpr hQ) hroutes hnext

/-- A request that both sides refuse before they read anything. -/
theorem stepAgrees_refused {r : Except StorageError α × PostgresTables} {e : StoreError}
    (h : Follows cfg encode inputs known v pg) (hanswer : r.1.toOption = none) (htables : r.2 = pg) :
    StepAgrees cfg encode inputs known v pg r (.error e) := by
  refine ⟨hanswer, ?_, congrArg _ htables⟩
  rw [htables]
  exact h

end Steps

/-! ### Saves -/

section Save

variable {D : Type} {cfg : MemoryConfig D} {encode : CommitEffects → Bytes} {inputs : List Bytes}
  {known : Set CommitEffects} {v : StoreView D} {pg : PostgresTables} {request : SnapshotWrite}

/-- The statements of a save of a storable request. -/
theorem prepareSave_of_storable (hstorable : StorableSave request)
    (hnamed : blank request.requestId = false) :
    prepareSave request none =
      .ok ⟨request.expectedRevision, request.updatedAtUnixMs, none⟩ := by
  have hvalid : validateRequest request = .ok () := by
    simp [validateRequest, hnamed, hstorable.keys.1, hstorable.keys.2]
  have hexpected : revisionToI64 request.record request.expectedRevision =
      .ok request.expectedRevision := by
    cases hrevision : request.expectedRevision with
    | none => rfl
    | some revision => simp [revisionToI64, hstorable.expected revision hrevision]
  have htime : timestampToI64 request.record request.updatedAtUnixMs =
      .ok request.updatedAtUnixMs := if_pos hstorable.time
  rw [prepareSave, hvalid, ok_bind, fenceToI64, ok_bind, hexpected, ok_bind, htime]
  rfl

theorem setCell_cell (pg : PostgresTables) (request : SnapshotWrite) :
    { pg with base := pg.base.setCell request (pg.base.cell request) } = pg := by
  rw [Postgres.setCell_cell]

theorem saveSnapshot_unnamed (hblank : blank request.requestId = true) :
    (saveSnapshot request pg).1.toOption = none ∧ (saveSnapshot request pg).2 = pg := by
  have hprepare : prepareSave request none = .error (.core .emptyRequestId) := by
    rw [prepareSave, validateRequest, if_pos hblank]
    rfl
  rw [saveSnapshot, save_eq, entryCell, hprepare]
  exact ⟨rfl, setCell_cell pg request⟩

/-- A save is decided by its cells. -/
theorem saveSnapshot_cells (hstorable : StorableSave request)
    (hnamed : blank request.requestId = false) :
    saveSnapshot request pg =
      match saveCell request ⟨request.expectedRevision, request.updatedAtUnixMs, none⟩
        (pg.base.cell request) with
      | .ok (result, cell) => (result, { pg with base := pg.base.setCell request cell })
      | .error e => (.error e, pg) := by
  rw [saveSnapshot, save_eq, entryCell, prepareSave_of_storable hstorable hnamed]
  dsimp only
  cases saveCell request ⟨request.expectedRevision, request.updatedAtUnixMs, none⟩
    (pg.base.cell request) <;> rfl

theorem saveSnapshot_retry (hstorable : StorableSave request) {row : IdempotencyRow}
    (hrow : pg.base.idempotency request.requestId = some row) :
    Settles (saveSnapshot request pg) pg
      (blank request.requestId = false ∧ idempotencyMatches row request
        ⟨request.expectedRevision, request.updatedAtUnixMs, none⟩ = true ∧
          row.revision < bigintLimit)
      (.duplicate row.revision) (pg.raise request.record row.revision) := by
  by_cases hblank : blank request.requestId = true
  · exact ⟨fun h => by simp [h.1] at hblank, fun _ => saveSnapshot_unnamed hblank⟩
  have hnamed : blank request.requestId = false := by simpa using hblank
  have htexts : ¬ [request.requestId, request.record.ns, request.record.key,
      request.schema].any hasNul = true := by simpa [Bindable] using hstorable.texts
  have hcell : (pg.base.cell request).receipt = some row := hrow
  rw [saveSnapshot_cells hstorable hnamed, saveCell, if_neg htexts, hcell]
  dsimp only
  by_cases hmatches : idempotencyMatches row request
      ⟨request.expectedRevision, request.updatedAtUnixMs, none⟩ = true
  · rw [if_pos hmatches]
    by_cases hlimit : bigintLimit ≤ row.revision
    · rw [if_pos hlimit]
      exact ⟨fun h => absurd h.2.2 (not_lt.mpr hlimit), fun _ => ⟨rfl, rfl⟩⟩
    · rw [if_neg hlimit]
      refine ⟨fun _ => ?_, fun h => absurd ⟨hnamed, hmatches, not_le.mp hlimit⟩ h⟩
      simp [Postgres.setCell, Postgres.cell, SaveCell.target, PostgresTables.raise, ← hrow]
  · rw [if_neg hmatches]
    exact ⟨fun h => absurd h.2.1 hmatches, fun _ => ⟨rfl, setCell_cell pg request⟩⟩

theorem saveSnapshot_first (hstorable : StorableSave request)
    (hrow : pg.base.idempotency request.requestId = none) :
    Settles (saveSnapshot request pg) pg
      (blank request.requestId = false ∧
        request.expectedRevision.all (· = pg.revision request.record) = true ∧
        pg.revision request.record + 1 < bigintLimit)
      (.applied (pg.revision request.record + 1)) (savedTables pg request) := by
  by_cases hblank : blank request.requestId = true
  · exact ⟨fun h => by simp [h.1] at hblank, fun _ => saveSnapshot_unnamed hblank⟩
  have hnamed : blank request.requestId = false := by simpa using hblank
  have htexts : ¬ [request.requestId, request.record.ns, request.record.key,
      request.schema].any hasNul = true := by simpa [Bindable] using hstorable.texts
  have hcell : (pg.base.cell request).receipt = none := hrow
  rw [saveSnapshot_cells hstorable hnamed, saveCell, if_neg htexts, hcell]
  dsimp only
  rw [show (((pg.base.cell request).row.map (·.revision)).getD 0) = pg.revision request.record
    from rfl]
  by_cases hexpected : request.expectedRevision.all (· = pg.revision request.record) = true
  · rw [if_pos hexpected]
    by_cases hlimit : pg.revision request.record + 1 < bigintLimit
    · rw [if_pos hlimit]
      exact ⟨fun _ => rfl, fun h => absurd ⟨hnamed, hexpected, hlimit⟩ h⟩
    · rw [if_neg hlimit]
      exact ⟨fun h => absurd h.2.2 hlimit, fun _ => ⟨rfl, rfl⟩⟩
  · rw [if_neg hexpected]
    exact ⟨fun h => absurd h.2.1 hexpected, fun _ => ⟨rfl, setCell_cell pg request⟩⟩

/-- Two saves that differ in the request id at most. -/
def SameRequest (a b : SnapshotWrite) : Prop :=
  a.record = b.record ∧ a.schema = b.schema ∧ a.schemaVersion = b.schemaVersion ∧
    a.payload = b.payload ∧ a.expectedRevision = b.expectedRevision ∧
    a.updatedAtUnixMs = b.updatedAtUnixMs

theorem idempotencyMatches_iff {source : SnapshotWrite} {revision : Revision} :
    idempotencyMatches (saveReceiptRow source revision) request
      ⟨request.expectedRevision, request.updatedAtUnixMs, none⟩ = true ↔
        SameRequest source request := by
  have htime : (saveReceiptRow source revision).updatedAtUnixMs.all
      (· = request.updatedAtUnixMs) = true ↔ source.updatedAtUnixMs = request.updatedAtUnixMs :=
    decide_eq_true_iff
  simp only [idempotencyMatches, Bool.and_eq_true, decide_eq_true_eq, and_assoc]
  rw [htime]
  rfl

theorem snapshotFingerprint_iff {source : SnapshotWrite}
    (hpayload : cfg.digest source.payload = cfg.digest request.payload →
      source.payload = request.payload) :
    source.record = request.record ∧
      SnapshotFingerprint.fromRequest cfg source = .fromRequest cfg request ↔
        SameRequest source request := by
  constructor
  · rintro ⟨hrecord, hfingerprint⟩
    rw [SnapshotFingerprint.fromRequest, SnapshotFingerprint.fromRequest,
      SnapshotFingerprint.mk.injEq] at hfingerprint
    obtain ⟨h1, h2, h3, h4, h5⟩ := hfingerprint
    exact ⟨hrecord, h1, h2, hpayload h3, h4, h5⟩
  · rintro ⟨hrecord, h1, h2, h3, h4, h5⟩
    refine ⟨hrecord, ?_⟩
    rw [SnapshotFingerprint.fromRequest, SnapshotFingerprint.fromRequest, h1, h2, h3, h4, h5]

theorem save_agrees_flat [DecidableEq D] (h : Follows cfg encode inputs known v pg)
    (happart : TellsApart cfg.digest inputs) (hstorable : StorableSave request)
    (hpayload : request.payload ∈ inputs) (hfits : StoresBelow (Flat.save cfg v request)) :
    StepAgrees cfg encode inputs known v pg (saveSnapshot request pg) (Flat.save cfg v request) := by
  have hrevision := h.revision request.record
  have hreceipts := h.saves request.requestId
  cases hrow : pg.base.idempotency request.requestId with
  | some row =>
    rw [hrow] at hreceipts
    cases hreceipt : v.snapshotReceipts request.requestId with
    | none => rw [hreceipt] at hreceipts; cases hreceipts
    | some receipt =>
      rw [hreceipt] at hreceipts
      obtain ⟨source, revision, hmem, hstored, rfl, rfl⟩ := Option.rel_some_some.mp hreceipts
      refine stepAgrees_of_retry h (saveSnapshot_retry hstorable hrow) (Flat.save_retry hreceipt)
        hfits ?_ rfl fun _ => h.retry rfl rfl rfl ⟨rfl, rfl, rfl, rfl, rfl, rfl, rfl⟩
      rw [idempotencyMatches_iff, snapshotFingerprint_iff (happart _ hmem _ hpayload)]
      exact and_congr_right' (and_iff_left hstored)
  | none =>
    rw [hrow] at hreceipts
    cases hreceipt : v.snapshotReceipts request.requestId with
    | some receipt => rw [hreceipt] at hreceipts; cases hreceipts
    | none =>
      have hflat : Returns (Flat.save cfg v request) _ _ := Flat.save_first hreceipt
      rw [hrevision] at hflat
      refine stepAgrees_of_iff h (saveSnapshot_first hstorable hrow) hflat hfits ?_ ?_ rfl
        fun hP => h.save hpayload hP.2.2
      · rintro ⟨hnamed, hexpected, hnext⟩
        exact ⟨hnamed, hexpected, hnext.trans bigintLimit_lt⟩
      · rintro ⟨hnamed, hexpected, -⟩ hbelow
        exact ⟨hnamed, hexpected, hrevision ▸ hbelow.save⟩

end Save

/-! ### Transactions of one record -/

section Transaction

variable {D : Type} {cfg : MemoryConfig D} {encode : CommitEffects → Bytes} {inputs : List Bytes}
  {known : Set CommitEffects} {v : StoreView D} {pg : PostgresTables} {request : TransactionalWrite}

theorem transactionFingerprint_iff {source : TransactionalWrite}
    (hpayload : cfg.digest source.payload = cfg.digest request.payload →
      source.payload = request.payload)
    (hresult : cfg.digest source.result = cfg.digest request.result →
      source.result = request.result) :
    TransactionFingerprint.fromRequest cfg source = .fromRequest cfg request ↔
      SameTransaction source request := by
  rw [TransactionFingerprint.fromRequest, TransactionFingerprint.fromRequest,
    TransactionFingerprint.mk.injEq]
  constructor
  · rintro ⟨h1, h2, h3, h4, h5, h6, h7⟩
    exact ⟨h1, h2, h3, h4, hpayload h5, hresult h6, h7⟩
  · rintro ⟨h1, h2, h3, h4, h5, h6, h7⟩
    exact ⟨h1, h2, h3, h4, congrArg _ h5, congrArg _ h6, h7⟩

theorem Follows.accepts_iff (h : Follows cfg encode inputs known v pg)
    (hstorable : StorableTransaction request) :
    Accepts pg request ↔
      blank request.operationId = false ∧ Flat.Claims v request.operationId .single := by
  rw [← h.claimable]
  constructor
  · rintro ⟨hnamed, -, -, -, -, hclaimable⟩
    exact ⟨hnamed, hclaimable⟩
  · rintro ⟨hnamed, hclaimable⟩
    exact ⟨hnamed, hstorable.keys, hstorable.expected, hstorable.time,
      hstorable.texts, hclaimable⟩

theorem applyTransaction_agrees_flat [DecidableEq D] (h : Follows cfg encode inputs known v pg)
    (happart : TellsApart cfg.digest inputs) (hstorable : StorableTransaction request)
    (hpayload : request.payload ∈ inputs) (hresult : request.result ∈ inputs)
    (hfits : StoresBelow (Flat.applyTransaction cfg v request)) :
    StepAgrees cfg encode inputs known v pg (committed (applyTransaction request) pg)
      (Flat.applyTransaction cfg v request) := by
  have haccepts := h.accepts_iff hstorable
  have hreceipts := h.singles request.operationId
  cases hrow : pg.transactions request.operationId with
  | some row =>
    rw [hrow] at hreceipts
    cases hreceipt : v.transactions request.operationId with
    | none => rw [hreceipt] at hreceipts; cases hreceipts
    | some receipt =>
      rw [hreceipt] at hreceipts
      obtain ⟨source, hmem, hmem', hstored, rfl, rfl⟩ := Option.rel_some_some.mp hreceipts
      have hkind := h.single request.operationId (by rw [hreceipt]; rfl)
      refine stepAgrees_of_retry h (settles_committed (applyTransaction_retry hrow))
        (Flat.applyTransaction_retry hreceipt) hfits ?_ rfl fun _ => ?_
      · rw [haccepts, transactionMatches_iff,
          transactionFingerprint_iff (happart _ hmem _ hpayload) (happart _ hmem' _ hresult),
          and_assoc]
        exact and_congr_right' (and_congr_right' (and_iff_left hstored))
      · rw [h.claim_eq hkind]
        exact h.retry rfl rfl rfl ⟨rfl, rfl, rfl, rfl, rfl, rfl, rfl⟩
  | none =>
    rw [hrow] at hreceipts
    cases hreceipt : v.transactions request.operationId with
    | some receipt => rw [hreceipt] at hreceipts; cases hreceipts
    | none =>
      refine stepAgrees_of_iff h (settles_committed (applyTransaction_first hrow))
        (Flat.applyTransaction_first hreceipt) hfits ?_ ?_ rfl fun hP => ?_
      · rintro ⟨hP, hcurrent, hnext⟩
        obtain ⟨hnamed, hclaims⟩ := haccepts.mp hP
        exact ⟨hnamed, hclaims, (h.revision _).trans hcurrent, hnext.trans bigintLimit_lt⟩
      · rintro ⟨hnamed, hclaims, hcurrent, -⟩ hbelow
        exact ⟨haccepts.mpr ⟨hnamed, hclaims⟩, (h.revision _).symm.trans hcurrent,
          hbelow.applyTransaction⟩
      · exact h.transaction hpayload hresult (haccepts.mp hP.1).2 hP.2.2

end Transaction

/-! ### Transactions of several records -/

section Records

variable {D : Type} {cfg : MemoryConfig D} {encode : CommitEffects → Bytes} {inputs : List Bytes}
  {known : Set CommitEffects} {v : StoreView D} {pg : PostgresTables} {decode : Bytes → Option EventEnvelope}

theorem Follows.writable_iff (h : Follows cfg encode inputs known v pg) {operationId : String}
    {w : TransactionalRecordWrite} (hstorable : StorableWrite operationId w) :
    Writable pg operationId w ↔ Flat.Current v w ∧ w.expectedRevision + 1 < bigintLimit := by
  rw [Flat.Current, h.revision]
  constructor
  · rintro ⟨-, hcurrent, hnext, -⟩
    exact ⟨⟨hcurrent, hnext.trans bigintLimit_lt⟩, hnext⟩
  · rintro ⟨⟨hcurrent, -⟩, hnext⟩
    exact ⟨hstorable.texts, hcurrent, hnext, hstorable.time⟩

theorem Follows.insertable_iff (h : Follows cfg encode inputs known v pg) {operationId : String}
    {event : OutboxEvent} (hstorable : StorableEvent pg.routes operationId event) :
    Insertable pg operationId event ↔ event.eventId ∉ v.identifiers.outboxEventIds := by
  rw [← h.events]
  exact ⟨fun hinsert => hinsert.free, fun hfree =>
    ⟨hstorable.time, hstorable.texts, hstorable.routed, hfree⟩⟩

theorem Follows.appendable_iff (h : Follows cfg encode inputs known v pg) {operationId : String}
    {append : AppendRecord} (hstorable : StorableAppend operationId append) :
    Appendable pg operationId append ↔ v.identifiers.appends append.record = none := by
  rw [← h.appends]
  exact ⟨fun hinsert => hinsert.free, fun hfree => ⟨hstorable.time, hstorable.texts, hfree⟩⟩

/-- The checks of PostgreSQL, for names that it accepts. -/
theorem validateMulti_eq {request : MultiRecordTransactionalWrite}
    (hkeys : ∀ w ∈ request.writes, w.record.Named ∧ blank w.schema = false) :
    (validateMultiTransactionRequest request).map
      (fun _ => { request with writes := sortOn (·.record) request.writes }) =
        normalizeMulti request := by
  have hchecks : request.writes.forM (fun write =>
      if blank write.record.ns then Except.error (StoreError.invalidKey "namespace is empty")
      else if blank write.record.key then .error (.invalidKey "key is empty")
      else if blank write.schema then .error (.invalidKey "schema is empty")
      else .ok ()) = .ok () := by
    refine forM_eq_ok.mpr fun w hw => ?_
    obtain ⟨hnamed, hschema⟩ := hkeys w hw
    simp [hnamed.1, hnamed.2, hschema]
  rw [validateMultiTransactionRequest, normalizeMulti]
  split
  · rfl
  · split
    · rfl
    · dsimp only
      rw [hchecks]
      cases checkDistinctRecords ((sortOn (·.record) request.writes).map (·.record)) <;> rfl

/-- The checks of both sides. -/
theorem prepareCommit_eq_ok {request normal : MultiRecordTransactionalWrite}
    {effects normalEffects : CommitEffects}
    (hkeys : ∀ w ∈ request.writes, w.record.Named ∧ blank w.schema = false) :
    prepareCommit decode request effects = .ok (normal, normalEffects) ↔
      effects.normalize decode = .ok normalEffects ∧ normalizeMulti request = .ok normal := by
  rw [prepareCommit, ← validateMulti_eq hkeys]
  cases effects.normalize decode with
  | error e => simp [Except.mapError, bind, Except.bind]
  | ok e =>
    cases validateMultiTransactionRequest request with
    | error e' => simp [Except.mapError, Except.map, bind, Except.bind]
    | ok u =>
      simp only [Except.mapError, Except.map, bind, Except.bind, pure, Except.pure,
        Except.ok.injEq, Prod.mk.injEq]
      exact and_comm

theorem multiFingerprint_iff {source request : MultiRecordTransactionalWrite}
    (hpayloads : ∀ w ∈ source.writes, ∀ w' ∈ request.writes,
      cfg.digest w.payload = cfg.digest w'.payload → w.payload = w'.payload)
    (hresult : cfg.digest source.result = cfg.digest request.result →
      source.result = request.result) :
    MultiTransactionFingerprint.fromRequest cfg source = .fromRequest cfg request ↔
      source.writes = request.writes ∧ source.result = request.result := by
  rw [MultiTransactionFingerprint.fromRequest, MultiTransactionFingerprint.fromRequest,
    MultiTransactionFingerprint.mk.injEq]
  constructor
  · rintro ⟨hwrites, hdigest⟩
    exact ⟨map_fromWrite_injective hpayloads hwrites, hresult hdigest⟩
  · rintro ⟨hwrites, hresult⟩
    rw [hwrites, hresult]
    exact ⟨rfl, rfl⟩

/-- What a storable commit asks, on both sides. -/
theorem Follows.commits_iff (h : Follows cfg encode inputs known v pg)
    {request : MultiRecordTransactionalWrite} {effects : CommitEffects}
    (hstorable : StorableCommit pg.routes request effects) :
    MultiCommits pg request effects ↔
      Flat.NewEffects v.identifiers effects ∧ ∀ w ∈ request.writes,
        Flat.Current v w ∧ w.expectedRevision + 1 < bigintLimit := by
  constructor
  · rintro ⟨hwritable, happends, hevents⟩
    exact ⟨⟨fun append hmem => (h.appendable_iff (hstorable.appends append hmem)).mp
        (happends append hmem), fun event hmem =>
        (h.insertable_iff (hstorable.events event hmem)).mp (hevents event hmem)⟩,
      fun w hw => (h.writable_iff (hstorable.writes w hw)).mp (hwritable w hw)⟩
  · rintro ⟨⟨happends, hevents⟩, hcurrent⟩
    exact ⟨fun w hw => (h.writable_iff (hstorable.writes w hw)).mpr (hcurrent w hw),
      fun append hmem => (h.appendable_iff (hstorable.appends append hmem)).mpr
        (happends append hmem), fun event hmem =>
        (h.insertable_iff (hstorable.events event hmem)).mpr (hevents event hmem)⟩

theorem Follows.multiAccepts_iff (h : Follows cfg encode inputs known v pg)
    {request : MultiRecordTransactionalWrite} {effects : CommitEffects}
    (hstorable : StorableCommit pg.routes request effects) :
    MultiAccepts pg request ↔ Flat.Claims v request.operationId .multi := by
  have hfits : request.Fits := fun w hw =>
    ⟨(hstorable.writes w hw).expected, (hstorable.writes w hw).time⟩
  rw [← h.claimable]
  exact ⟨fun haccepts => haccepts.claimable, fun hclaimable =>
    ⟨hstorable.id, hclaimable, hfits.checkHeaderI64_eq⟩⟩

/-- The retry of a stored request, compared with its source. -/
theorem commitRecords_retry_iff (hencode : Set.InjOn encode known) {row : MultiTransaction}
    {receipt : StoredMultiTransactionReceipt D} {source normal : MultiRecordTransactionalWrite}
    {stored normalEffects : CommitEffects}
    (hsame : SameMulti cfg encode inputs known row receipt source stored)
    {request : MultiRecordTransactionalWrite} {effects : CommitEffects}
    (hprepare : prepareCommit decode request effects = .ok (normal, normalEffects))
    (hknown : normalEffects ∈ known) (hrow : pg.multiTransactions normal.operationId = some row) :
    Settles (committed (commitRecords decode encode request effects) pg) pg
      (MultiAccepts pg normal ∧
        (source.writes = normal.writes ∧ source.result = normal.result) ∧ stored = normalEffects)
      (.duplicate receipt.records receipt.result)
      ((pg.claim normal.operationId .multi).raiseAll receipt.records) := by
  obtain rfl := hsame.row
  obtain rfl := hsame.receipt
  have hfits : source.Fits := fun w hw =>
    ⟨(Nat.lt_succ_self _).trans (hsame.fits w hw).next, (hsame.fits w hw).time⟩
  have hsorted := sortOn_eq_self (source.rows_pairwise hsame.prepared.sorted
    (source.writes.map (·.expectedRevision + 1)))
  -- the receipts that the rows give are those that were stored
  have hrecords : source.writes = normal.writes →
      (((sortOn (·.record) (source.rows (source.writes.map (·.expectedRevision + 1)))).zip
        normal.writes).map fun x => (⟨x.2.record, x.1.newRevision⟩ : TransactionRecordReceipt)) =
          source.writes.map (·.receipt) := by
    intro hwrites
    have hzip := List.zip_map' (f := fun w : TransactionalRecordWrite =>
      MultiRecordRow.ofWrite w (w.expectedRevision + 1)) (g := id) (l := source.writes)
    rw [List.map_id] at hzip
    rw [hsorted, header_rows_eq, ← hwrites, hzip, List.map_map]
    rfl
  refine settles_committed ((commitRecords_retry hprepare hrow).congr ?_ (fun h => ?_) fun h => ?_)
  · rw [effectsMatch_iff (hencode hsame.known hknown), receiptMatches_iff hfits hsame.prepared.sorted]
    constructor
    · rintro ⟨haccepts, heffects, hwrites, -⟩
      exact ⟨haccepts, hwrites, heffects⟩
    · rintro ⟨haccepts, hwrites, heffects⟩
      refine ⟨haccepts, heffects, hwrites, ?_⟩
      rw [hrecords hwrites.1]
      refine List.forall_mem_map.mpr fun w hw => ?_
      exact ⟨(hsame.fits w hw).next, (hsame.fits w hw).keys⟩
  · rw [hrecords h.2.1.1]
    rfl
  · rw [hrecords h.2.1.1]

theorem commitRecords_agrees_flat [DecidableEq D] (hencode : Set.InjOn encode known)
    (h : Follows cfg encode inputs known v pg) (happart : TellsApart cfg.digest inputs)
    {request : MultiRecordTransactionalWrite} {effects : CommitEffects}
    (hstorable : StorableCommit pg.routes request effects) (hresult : request.result ∈ inputs)
    (hpayloads : ∀ w ∈ request.writes, w.payload ∈ inputs)
    (hknown : ∀ normal, effects.normalize cfg.decodeEnvelope = .ok normal → normal ∈ known)
    (hfits : StoresBelow (Flat.commitRecords cfg v request effects)) :
    StepAgrees cfg encode inputs known v pg
      (committed (commitRecords cfg.decodeEnvelope encode request effects) pg)
      (Flat.commitRecords cfg v request effects) := by
  have hkeys : ∀ w ∈ request.writes, w.record.Named ∧ blank w.schema = false := fun w hw =>
    ⟨(hstorable.writes w hw).keys, (hstorable.writes w hw).schema⟩
  cases hprepare : prepareCommit cfg.decodeEnvelope request effects with
  | error e =>
    -- both sides refuse the request before they read anything
    have hpg : (committed (commitRecords cfg.decodeEnvelope encode request effects) pg) =
        (.error e, pg) := by
      rw [commitRecords, hprepare]
      rfl
    have hflat : ∃ e', Flat.commitRecords cfg v request effects = .error e' := by
      rw [Flat.commitRecords]
      cases heffects : effects.normalize cfg.decodeEnvelope with
      | error e' => exact ⟨e', rfl⟩
      | ok normalEffects =>
        cases hnormal : normalizeMulti request with
        | error e' => exact ⟨e', rfl⟩
        | ok normal =>
          rw [(prepareCommit_eq_ok hkeys).mpr ⟨heffects, hnormal⟩] at hprepare
          cases hprepare
    obtain ⟨e', hflat⟩ := hflat
    rw [hpg, hflat]
    exact stepAgrees_refused h rfl rfl
  | ok x =>
    obtain ⟨normal, normalEffects⟩ := x
    obtain ⟨heffects, hnormal⟩ := (prepareCommit_eq_ok hkeys).mp hprepare
    have hstorable := hstorable.normal hnormal heffects
    have hprepared := prepared_of_prepareCommit hprepare
    have haccepts := h.multiAccepts_iff hstorable
    have hresult : normal.result ∈ inputs := by
      obtain ⟨-, -, -, rfl⟩ := normalizeMulti_ok hnormal
      exact hresult
    have hpayloads : ∀ w ∈ normal.writes, w.payload ∈ inputs := by
      obtain ⟨-, -, -, rfl⟩ := normalizeMulti_ok hnormal
      exact fun w hw => hpayloads w (mem_sortOn.mp hw)
    have hreceipts := h.multis normal.operationId
    cases hrow : pg.multiTransactions normal.operationId with
    | some row =>
      rw [hrow] at hreceipts
      cases hreceipt : v.multiTransactions normal.operationId with
      | none => rw [hreceipt] at hreceipts; cases hreceipts
      | some receipt =>
        rw [hreceipt] at hreceipts
        obtain ⟨source, stored, hsame⟩ := Option.rel_some_some.mp hreceipts
        have hkind := h.multi normal.operationId (by rw [hreceipt]; rfl)
        refine stepAgrees_of_retry h (commitRecords_retry_iff hencode hsame hprepare
          (hknown _ heffects) hrow)
          (Flat.commitRecords_retry heffects hnormal hreceipt) hfits ?_ ?_ fun _ =>
            h.repaired hkind _
        · rw [haccepts, hsame.receipt, multiFingerprint_iff (fun w hw w' hw' =>
            happart _ (hsame.payloads w hw) _ (hpayloads w' hw'))
            (happart _ hsame.result _ hresult)]
        · rw [raiseAll_eq]
          rfl
    | none =>
      rw [hrow] at hreceipts
      cases hreceipt : v.multiTransactions normal.operationId with
      | some receipt => rw [hreceipt] at hreceipts; cases hreceipts
      | none =>
        have hnormalEffects := normalEffects_of_ok heffects
        refine stepAgrees_of_iff h (settles_committed
          (commitRecords_first hprepare hnormalEffects hrow))
          (Flat.commitRecords_first heffects hnormal hreceipt) hfits ?_ ?_ rfl fun hP => ?_
        · rintro ⟨hP, hcommits⟩
          obtain ⟨hnew, hcurrent⟩ := (h.commits_iff hstorable).mp hcommits
          exact ⟨haccepts.mp hP, hnew, fun w hw => (hcurrent w hw).1⟩
        · rintro ⟨hclaims, hnew, hcurrent⟩ hbelow
          have hnext := StoreView.Below.writeRecords hbelow.revisions fun w hw => (hcurrent w hw).1
          exact ⟨haccepts.mpr hclaims, (h.commits_iff hstorable).mpr
            ⟨hnew, fun w hw => ⟨hcurrent w hw, hnext w hw⟩⟩⟩
        · refine h.records ⟨hprepared, fun w hw => (hstorable.writes w hw).fits
            (hP.2.writable w hw).next, hpayloads, hresult, hknown _ heffects⟩
            hnormalEffects.eventIds (haccepts.mp hP.1) ?_
          exact fun event hmem => (hP.2.effects.events event hmem).free

end Records

/-! ### Trades -/

section Trade

variable {D : Type} {cfg : MemoryConfig D} {encode : CommitEffects → Bytes} {inputs : List Bytes}
  {known : Set CommitEffects} {v : StoreView D} {pg : PostgresTables}

theorem normalTrade_of_ok {routes : OutboxRoutes} {request normal : TradeTransaction}
    (hnormal : normalizeTradeTransaction request = .ok normal)
    (hstorable : StorableTrade routes normal) : NormalTrade normal where
  accepted := (normalizeTrade_ok hnormal).1
  keys w hw := (hstorable.writes w hw).keys
  writes := by
    obtain ⟨-, rfl⟩ := normalizeTrade_ok hnormal
    exact pairwise_sortOn ..
  postings := by
    obtain ⟨-, rfl⟩ := normalizeTrade_ok hnormal
    exact pairwise_sortOn ..
  events := by
    obtain ⟨-, rfl⟩ := normalizeTrade_ok hnormal
    exact pairwise_sortOn ..

/-- A stored trade is read back as it was written. -/
theorem SameTrade.parts {operationId : String} {row : TradeOperation}
    {receipt : StoredTradeTransactionReceipt} {source : TradeTransaction}
    (h : SameTrade pg.ledger.rows pg.outbox.rows operationId row receipt source)
    (hrow : pg.tradeOperations operationId = some row) :
    receiptParts pg operationId = some (partsOf source) := by
  obtain rfl := h.row
  obtain rfl := h.id
  have hrecords : sortOn (·.record)
      (source.writes.map fun w => MultiRecordRow.ofWrite w (w.expectedRevision + 1)) = _ :=
    sortOn_eq_self (List.pairwise_map.mpr h.normal.writes)
  have hledger : sortOn (·.postingId) (source.ledgerPostings.map (ledgerRow source)) = _ :=
    sortOn_eq_self (List.pairwise_map.mpr h.normal.postings)
  have houtbox : sortOn (·.eventId) (source.outboxEvents.map
      (outboxRow source.operationId (some source.transition.tradeId))) = _ :=
    sortOn_eq_self (List.pairwise_map.mpr h.normal.events)
  rw [receiptParts, hrow, Option.map_some, h.ledger, h.outbox, hledger, houtbox]
  exact congrArg some (congrArg (ReceiptParts.mk _ · _ _) hrecords)

/-- The receipt of the stored parts. -/
theorem receiptFromParts_partsOf {source : TradeTransaction}
    (hkeys : ∀ w ∈ source.writes, w.record.Named) (operationId tradeId : String) :
    receiptFromParts operationId tradeId (partsOf source) =
      .ok { source.appliedReceipt with operationId, tradeId } := by
  have hcount : ∀ {name : String} {count : ℕ}, checkCount operationId name count count = .ok () :=
    if_neg (not_not_intro rfl)
  have hrecords : (partsOf source).records.mapM (fun row => do
      let record ← (RecordKey.new row.record.ns row.record.key).mapError StorageError.core
      return (⟨record, row.newRevision⟩ : TransactionRecordReceipt)) =
        .ok (source.writes.map (·.receipt)) := by
    refine mapM_eq_ok.mpr (List.forall₂_map_left_iff.mpr (List.forall₂_map_right_iff.mpr
      (List.forall₂_same.mpr fun w hw => ?_)))
    obtain ⟨hns, hkey⟩ := hkeys w hw
    simp only [MultiRecordRow.ofWrite, RecordKey.new, hns, hkey]
    rfl
  have hlengths : (partsOf source).header.recordCount = (partsOf source).records.length ∧
      (partsOf source).header.ledgerCount = (partsOf source).ledger.length ∧
      (partsOf source).header.outboxCount = (partsOf source).outbox.length := by
    simp [partsOf, tradeOperationRow]
  have hpostings : (partsOf source).ledger.map (·.postingId) =
      source.ledgerPostings.map (·.postingId) := by
    rw [partsOf, List.map_map]
    rfl
  have hevents : (partsOf source).outbox.map (·.eventId) =
      source.outboxEvents.map (·.eventId) := eventIds_outboxRow _ _
  have hstate : TradeState.fromI16 (partsOf source).header.nextState =
      .ok source.transition.nextState := TradeState.fromI16_toI16 _
  rw [receiptFromParts, hlengths.1, hlengths.2.1, hlengths.2.2, hcount, ok_bind, hcount, ok_bind,
    hcount, ok_bind, hrecords, ok_bind, hstate, ok_bind, hpostings, hevents]
  rfl

theorem tradeState_iff {row : Option TradeRow} {trade : Option TradeEnvelope} {tradeId : String}
    (h : Option.Rel (fun row trade => SameTradeState row trade ∧ trade.tradeId = tradeId) row trade)
    (transition : TradeTransition) :
    tradeState row = .ok (transition.expectedVersion, transition.expectedState) ↔
      Flat.Expected trade transition := by
  cases h with
  | none =>
    rw [tradeState, Except.ok.injEq, Prod.mk.injEq]
    rfl
  | some hsame =>
    obtain ⟨hrow, -⟩ := hsame
    rw [hrow, tradeState, TradeState.fromI16_toI16, ok_bind]
    show Except.ok _ = _ ↔ _
    rw [Except.ok.injEq, Prod.mk.injEq]
    rfl

theorem Follows.tradeAccepts_iff (h : Follows cfg encode inputs known v pg)
    {request : TradeTransaction} (hstorable : StorableTrade pg.routes request) :
    TradeAccepts pg request ↔ Flat.Claims v request.operationId .trade ∧
      request.transition.expectedVersion + 1 < bigintLimit := by
  rw [← h.claimable]
  exact ⟨fun haccepts => ⟨haccepts.claimable, haccepts.version⟩, fun hclaimable =>
    ⟨hclaimable.2, hstorable.time, hstorable.texts, hclaimable.1⟩⟩

theorem Follows.tradeCommits_iff (h : Follows cfg encode inputs known v pg)
    {request : TradeTransaction} (hstorable : StorableTrade pg.routes request) :
    TradeCommits pg request ↔ Flat.Expected (v.trades request.transition.tradeId)
      request.transition ∧ Flat.NewTradeIds v.identifiers request ∧
        ∀ w ∈ request.writes, Flat.Current v w ∧ w.expectedRevision + 1 < bigintLimit := by
  rw [← tradeState_iff (h.states request.transition.tradeId)]
  constructor
  · rintro ⟨hstored, hwritable, hpostings, hevents⟩
    exact ⟨hstored, ⟨fun posting hmem => (h.postings _).mp (hpostings posting hmem).free,
      fun event hmem => (h.insertable_iff (hstorable.events event hmem)).mp (hevents event hmem)⟩,
      fun w hw => (h.writable_iff (hstorable.writes w hw)).mp (hwritable w hw)⟩
  · rintro ⟨hstored, ⟨hpostings, hevents⟩, hcurrent⟩
    exact ⟨hstored, fun w hw => (h.writable_iff (hstorable.writes w hw)).mpr (hcurrent w hw),
      fun posting hmem =>
        ⟨hstorable.postings posting hmem, (h.postings _).mpr (hpostings posting hmem)⟩,
      fun event hmem => (h.insertable_iff (hstorable.events event hmem)).mpr (hevents event hmem)⟩

/-- The retry of a stored trade, compared with its source. -/
theorem applyTrade_retry_iff {row : TradeOperation} {receipt : StoredTradeTransactionReceipt}
    {source request normal : TradeTransaction}
    (hsame : SameTrade pg.ledger.rows pg.outbox.rows normal.operationId row receipt source)
    (hnormal : normalizeTradeTransaction request = .ok normal)
    (hrow : pg.tradeOperations normal.operationId = some row) :
    Settles (committed (applyTrade request) pg) pg (TradeAccepts pg normal ∧ source = normal)
      (.duplicate receipt.receipt)
      ((pg.claim normal.operationId .trade).raiseAll receipt.receipt.records) := by
  have hparts := hsame.parts hrow
  have hreceipt := receiptFromParts_partsOf hsame.normal.keys normal.operationId
    normal.transition.tradeId
  have hrepairable : ∀ r ∈ source.writes.map (·.receipt), Repairable r :=
    List.forall_mem_map.mpr fun w hw => ⟨(hsame.keys w hw).next, (hsame.keys w hw).keys⟩
  refine settles_committed ((applyTrade_retry hnormal hparts hreceipt).congr ?_ (fun h => ?_)
    fun h => ?_)
  · rw [tradeReceiptMatches_iff hsame.fits hsame.id]
    exact and_congr_right' (and_iff_left hrepairable)
  · rw [hsame.receipt, ← h.2]
    rfl
  · rw [hsame.receipt]

theorem applyTrade_agrees_flat (h : Follows cfg encode inputs known v pg)
    {request : TradeTransaction} (hstorable : StorableTrade pg.routes request)
    (hfits : StoresBelow (Flat.applyTradeTransaction v request)) :
    StepAgrees cfg encode inputs known v pg (committed (applyTrade request) pg)
      (Flat.applyTradeTransaction v request) := by
  cases hnormal : normalizeTradeTransaction request with
  | error e =>
    have hpg : committed (applyTrade request) pg = (.error (.core e), pg) := by
      rw [applyTrade, hnormal]
      rfl
    have hflat : Flat.applyTradeTransaction v request = .error e := by
      rw [Flat.applyTradeTransaction, hnormal]
      rfl
    rw [hpg, hflat]
    exact stepAgrees_refused h rfl rfl
  | ok normal =>
    have hstorable := hstorable.normal hnormal
    have haccepts := h.tradeAccepts_iff hstorable
    have hreceipts := h.trades normal.operationId
    cases hrow : pg.tradeOperations normal.operationId with
    | some row =>
      rw [hrow] at hreceipts
      cases hreceipt : v.tradeTransactions normal.operationId with
      | none => rw [hreceipt] at hreceipts; cases hreceipts
      | some receipt =>
        rw [hreceipt] at hreceipts
        obtain ⟨source, hsame⟩ := Option.rel_some_some.mp hreceipts
        have hkind := h.trade normal.operationId (by rw [hreceipt]; rfl)
        refine stepAgrees_of_retry h (applyTrade_retry_iff hsame hnormal hrow)
          (Flat.applyTradeTransaction_retry hnormal hreceipt) hfits ?_ ?_ fun _ =>
            h.repaired hkind _
        · -- the version of the stored request fits
          have hversion : source = normal →
              normal.transition.expectedVersion + 1 < bigintLimit := fun heq =>
            heq ▸ hsame.fits.version
          rw [haccepts, hsame.receipt, and_assoc]
          exact and_congr_right' (and_iff_right_of_imp hversion)
        · rw [raiseAll_eq]
          rfl
    | none =>
      rw [hrow] at hreceipts
      cases hreceipt : v.tradeTransactions normal.operationId with
      | some receipt => rw [hreceipt] at hreceipts; cases hreceipts
      | none =>
        refine stepAgrees_of_iff h (settles_committed (applyTrade_first hnormal hrow))
          (Flat.applyTradeTransaction_first hnormal hreceipt) hfits ?_ ?_ rfl fun hP => ?_
        · rintro ⟨hP, hcommits⟩
          obtain ⟨hclaims, hversion⟩ := haccepts.mp hP
          obtain ⟨hexpected, hnew, hcurrent⟩ := (h.tradeCommits_iff hstorable).mp hcommits
          exact ⟨hclaims, hexpected, hnew, fun w hw => (hcurrent w hw).1,
            hversion.trans bigintLimit_lt⟩
        · rintro ⟨hclaims, hexpected, hnew, hcurrent, -⟩ hbelow
          have hnext := StoreView.Below.writeRecords hbelow.revisions fun w hw => (hcurrent w hw).1
          exact ⟨haccepts.mpr ⟨hclaims, hbelow.applyTrade⟩, (h.tradeCommits_iff hstorable).mpr
            ⟨hexpected, hnew, fun w hw => ⟨hcurrent w hw, hnext w hw⟩⟩⟩
        · have hnext : ∀ w ∈ normal.writes, w.expectedRevision + 1 < bigintLimit := fun w hw =>
            (hP.2.writable w hw).next
          refine h.traded (normalTrade_of_ok hnormal hstorable)
            (hstorable.fits hP.1.version hnext)
            (fun w hw => (hstorable.writes w hw).fits (hnext w hw)) (haccepts.mp hP.1).1
            hreceipt ?_ ?_
          · exact fun posting hmem => (hP.2.postings posting hmem).free
          · exact fun event hmem => (hP.2.events event hmem).free

end Trade

end PostgresSnapshotStore

end DbProxy
