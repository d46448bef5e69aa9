/-
The volatile backend without shards.

`Flat.call c v` is what a call answers on the content `v` of the store and the
content it leaves: an error leaves the content as it is, so a call either fails
or returns a value with a new content.  `memoryCall_refines` says that every
method of the sharded backend does exactly that to its view, whatever the shard
count and the hash functions are, and that it never misses a locked shard.

* `RefinesAt b x r` — started in `b`, the program `x` ends as `r` says;
* `Flat.call_congr` — the flat store depends on the digest and the decoder only.
-/
import DbProxy.MemoryCalls
import DbProxy.MemoryOperations

namespace DbProxy

open Text EarlyReturn KeyedMap MemoryBackend

/-! ### The flat store -/

namespace Flat

variable {D : Type} [DecidableEq D] (cfg : MemoryConfig D) (v : StoreView D)

omit [DecidableEq D] in
def claimOperation (operationId : String) (kind : OperationKind) : Except StoreError Unit :=
  match v.operationKinds operationId with
  | some existing => if existing ≠ kind then .error (.operationIdConflict operationId) else .ok ()
  | none => .ok ()

omit [DecidableEq D] in
def compareRevisions : List TransactionalRecordWrite →
    Except StoreError (List TransactionRecordReceipt)
  | [] => .ok []
  | write :: rest => do
    let actual := v.revision write.record
    if actual ≠ write.expectedRevision then
      .error (.revisionConflict write.record (some write.expectedRevision) actual)
    match actual.next with
    | none => .error (.revisionExhausted write.record)
    | some newRevision => do
      let committed ← compareRevisions rest
      .ok (⟨write.record, newRevision⟩ :: committed)

def save (request : SnapshotWrite) : Except StoreError (SnapshotWriteOutcome × StoreView D) := do
  if blank request.requestId then .error .emptyRequestId
  match v.snapshotReceipts request.requestId with
  | some receipt =>
    if receipt.record ≠ request.record ∨
        receipt.fingerprint ≠ SnapshotFingerprint.fromRequest cfg request then
      .error (.idempotencyConflict request.requestId)
    .ok (.duplicate receipt.revision, v)
  | none =>
    let actual := v.revision request.record
    if request.expectedRevision.any (· ≠ actual) then
      .error (.revisionConflict request.record request.expectedRevision actual)
    match actual.next with
    | none => .error (.revisionExhausted request.record)
    | some revision => .ok (.applied revision, v.save cfg request)

def applyTransaction (request : TransactionalWrite) :
    Except StoreError (TransactionalWriteOutcome × StoreView D) := do
  if blank request.operationId then .error .emptyOperationId
  claimOperation v request.operationId .single
  match v.transactions request.operationId with
  | some receipt =>
    if receipt.fingerprint ≠ TransactionFingerprint.fromRequest cfg request then
      .error (.operationIdConflict request.operationId)
    .ok (.duplicate receipt.newRevision receipt.result, v)
  | none =>
    let actual := v.revision request.record
    if actual ≠ request.expectedRevision then
      .error (.revisionConflict request.record (some request.expectedRevision) actual)
    match actual.next with
    | none => .error (.revisionExhausted request.record)
    | some newRevision =>
      .ok (.applied newRevision request.result, v.applyTransaction cfg request)

def commitRecords (request : MultiRecordTransactionalWrite) (effects : CommitEffects) :
    Except StoreError (MultiRecordTransactionalWriteOutcome × StoreView D) := do
  let effects ← effects.normalize cfg.decodeEnvelope
  let request ← normalizeMulti request
  claimOperation v request.operationId .multi
  match v.multiTransactions request.operationId with
  | some receipt =>
    if receipt.fingerprint ≠ MultiTransactionFingerprint.fromRequest cfg request ∨
        receipt.effects ≠ effects then
      .error (.operationIdConflict request.operationId)
    .ok (.duplicate receipt.records receipt.result, v)
  | none => do
    checkEffectIds v.identifiers effects
    let committed ← compareRevisions v request.writes
    .ok (.applied committed request.result, v.commitRecords cfg request effects)

omit [DecidableEq D] in
def applyTradeTransaction (request : TradeTransaction) :
    Except StoreError (TradeTransactionOutcome × StoreView D) := do
  let request ← normalizeTradeTransaction request
  claimOperation v request.operationId .trade
  match v.tradeTransactions request.operationId with
  | some stored =>
    if stored.request ≠ request then .error (.operationIdConflict request.operationId)
    .ok (.duplicate stored.receipt, v)
  | none => do
    let transition := request.transition
    let current := v.trades transition.tradeId
    checkTradeState current transition
    checkTradeIds v.identifiers request
    let committed ← compareRevisions v request.writes
    match Revision.next ((current.map (·.version)).getD 0) with
    | none => .error (.tradeVersionExhausted transition.tradeId)
    | some newTradeVersion =>
      .ok (.applied (request.receipt newTradeVersion committed), v.applyTrade request)

omit [DecidableEq D] in
def loadTransaction (operationId : String) (record : RecordKey) :
    Except StoreError (Option TransactionReceipt × StoreView D) := do
  if blank operationId then .error .emptyOperationId
  match v.transactions operationId with
  | none => .ok (none, v)
  | some receipt =>
    if receipt.fingerprint.record ≠ record then .error (.operationIdConflict operationId)
    .ok (some ⟨operationId, record, receipt.newRevision, receipt.result⟩, v)

omit [DecidableEq D] in
def loadMultiTransaction (operationId : String) (records : List RecordKey) :
    Except StoreError (Option MultiRecordTransactionReceipt × StoreView D) := do
  if blank operationId then .error .emptyOperationId
  match v.multiTransactions operationId with
  | none => .ok (none, v)
  | some receipt =>
    if receipt.records.map (·.record) ≠ sortOn id records then
      .error (.operationIdConflict operationId)
    .ok (some ⟨operationId, receipt.records, receipt.result⟩, v)

omit [DecidableEq D] in
def loadTrade (tradeId : String) : Except StoreError (Option TradeEnvelope × StoreView D) := do
  if blank tradeId then .error .emptyTradeId
  .ok (v.trades tradeId, v)

omit [DecidableEq D] in
def loadTradeTransaction (operationId tradeId : String) :
    Except StoreError (Option TradeReceipt × StoreView D) := do
  if blank operationId then .error .emptyOperationId
  if blank tradeId then .error .emptyTradeId
  match v.tradeTransactions operationId with
  | none => .ok (none, v)
  | some stored =>
    if stored.receipt.tradeId ≠ tradeId then .error (.operationIdConflict operationId)
    .ok (some stored.receipt, v)

def enqueueSnapshot (request : SnapshotWrite) : Except StoreError (Unit × StoreView D) := do
  if request.expectedRevision.isSome then
    .error (.queuedSnapshotRequiresUnconditionalWrite request.record)
  let (_, v') ← save cfg v request
  .ok ((), v')

omit [DecidableEq D] in
/-- One entry after the other, each with its own outcome. -/
def entries {ρ α : Type} (f : StoreView D → ρ → Except StoreError (α × StoreView D)) :
    StoreView D → List ρ → List (Except BackendError α) × StoreView D
  | v, [] => ([], v)
  | v, r :: rest =>
    match f v r with
    | .ok (a, v') => ((.ok a) :: (entries f v' rest).1, (entries f v' rest).2)
    | .error e => ((.error (.core e)) :: (entries f v rest).1, (entries f v rest).2)

/-- The answer of every call, and the content it leaves. -/
def call : (c : BackendCall) → Except StoreError (c.Value × StoreView D)
  | .load record | .loadCached record => .ok (v.snapshots record, v)
  | .loadMulti records | .loadCachedMulti records => .ok (records.map v.snapshots, v)
  | .save request => save cfg v request
  | .saveMulti requests => .ok (entries (save cfg) v requests)
  | .enqueueSnapshot request => enqueueSnapshot cfg v request
  | .enqueueMultiSnapshot requests => .ok (entries (enqueueSnapshot cfg) v requests)
  | .applyTransaction request => applyTransaction cfg v request
  | .loadTransaction operationId record => loadTransaction v operationId record
  | .commitRecords request effects => commitRecords cfg v request effects
  | .applyMultiTransaction request => commitRecords cfg v request {}
  | .loadMultiTransaction operationId records => loadMultiTransaction v operationId records
  | .applyTradeTransaction request => applyTradeTransaction v request
  | .loadTrade tradeId => loadTrade v tradeId
  | .loadTradeTransaction operationId tradeId => loadTradeTransaction v operationId tradeId

end Flat

/-! ### Refinement -/

section Refinement

variable {D : Type} {cfg : MemoryConfig D}

/-- Started in `b`, the program ends as `r` says: with the value and the content
of `r`, or with the error of `r` and the state it started from. -/
def RefinesAt {α : Type} (b : MemoryBackend cfg) (x : MemoryM cfg α) :
    Except StoreError (α × StoreView D) → Prop
  | .ok (a, v) => ∃ b', x.run b = .ok a b' ∧ b'.view = v
  | .error e => x.run b = .error (.store e) b

namespace RefinesAt

variable {α β : Type} {b : MemoryBackend cfg}

theorem fail {e : StoreError} {f : α → MemoryM cfg β} :
    RefinesAt b ((failStore e : MemoryM cfg α) >>= f) (.error e) := rfl

theorem value (a : α) : RefinesAt b (pure a) (.ok (a, b.view)) := ⟨b, rfl, rfl⟩

theorem ite {c : Prop} [Decidable c] {x y : MemoryM cfg α}
    {r s : Except StoreError (α × StoreView D)} (hx : c → RefinesAt b x r)
    (hy : ¬ c → RefinesAt b y s) : RefinesAt b (if c then x else y) (if c then r else s) := by
  by_cases hc : c
  · rw [if_pos hc, if_pos hc]
    exact hx hc
  · rw [if_neg hc, if_neg hc]
    exact hy hc

/-- A validation comes before everything that reads or writes. -/
theorem check_bind {x : Except StoreError α} {f : α → MemoryM cfg β}
    {g : α → Except StoreError (β × StoreView D)} (h : ∀ a, x = .ok a → RefinesAt b (f a) (g a)) :
    RefinesAt b (check x >>= f) (x >>= g) := by
  cases x with
  | error e => exact rfl
  | ok a => exact h a rfl

/-- A part that only reads. -/
theorem read_bind {x : MemoryM cfg α} {y : Except StoreError α} {f : α → MemoryM cfg β}
    {g : α → Except StoreError (β × StoreView D)} (hx : RefinesAt b x (y.map (·, b.view)))
    (hsame : ∀ a b', x.run b = .ok a b' → b' = b)
    (h : ∀ a, y = .ok a → RefinesAt b (f a) (g a)) : RefinesAt b (x >>= f) (y >>= g) := by
  cases y with
  | error e => exact bind_run_error hx
  | ok a =>
    obtain ⟨b', hrun, -⟩ := hx
    obtain rfl := hsame a b' hrun
    have hrest := h a rfl
    show RefinesAt b' (x >>= f) (g a)
    cases hg : g a with
    | error e =>
      rw [hg] at hrest
      exact (bind_run_ok hrun).trans hrest
    | ok r =>
      rw [hg] at hrest
      obtain ⟨b'', hrun', hview⟩ := hrest
      exact ⟨b'', (bind_run_ok hrun).trans hrun', hview⟩

end RefinesAt

open RefinesAt

theorem compareRevisions_run (b : MemoryBackend cfg) (guards : List (Fin cfg.shards)) :
    ∀ writes : List TransactionalRecordWrite,
      (∀ write ∈ writes, dataIndex cfg write.record ∈ guards) →
      (compareRevisions guards writes).run b =
        match Flat.compareRevisions b.view writes with
        | .ok committed => .ok committed b
        | .error e => .error (.store e) b := by
  intro writes
  induction writes with
  | nil =>
    intro _
    rfl
  | cons write rest ih =>
    intro hguards
    have hlock := lockedShard_run (hguards write (List.mem_cons_self ..)) b
    have ih := ih fun w hw => hguards w (List.mem_cons_of_mem _ hw)
    rw [compareRevisions, bind_run_ok hlock, get_bind, Flat.compareRevisions, shard_revision]
    by_cases hrev : b.view.revision write.record = write.expectedRevision
    · rw [if_neg (not_not_intro hrev), if_neg (not_not_intro hrev)]
      cases hnext : (b.view.revision write.record).next with
      | none => rfl
      | some newRevision =>
        cases hrest : Flat.compareRevisions b.view rest with
        | error e =>
          rw [hrest] at ih
          exact bind_run_error ih
        | ok committed =>
          rw [hrest] at ih
          exact bind_run_ok ih
    · rw [if_pos hrev, if_pos hrev]
      rfl

/-- A passed comparison returns the receipts of the writes. -/
theorem Flat.compareRevisions_ok {v : StoreView D} :
    ∀ {writes : List TransactionalRecordWrite} {committed : List TransactionRecordReceipt},
      Flat.compareRevisions v writes = .ok committed → committed = writes.map (·.receipt) := by
  intro writes
  induction writes with
  | nil =>
    intro committed h
    exact (Except.ok.inj h).symm
  | cons write rest ih =>
    intro committed h
    rw [Flat.compareRevisions] at h
    by_cases hrev : v.revision write.record = write.expectedRevision
    · rw [if_neg (not_not_intro hrev)] at h
      cases hnext : (v.revision write.record).next with
      | none =>
        rw [hnext] at h
        cases h
      | some newRevision =>
        rw [hnext] at h
        obtain ⟨tail, htail, h⟩ := Checks.bind_eq_ok.mp h
        obtain ⟨-, hnew⟩ := Revision.next_eq_some.mp hnext
        rw [← Except.ok.inj h, ih htail, hnew, hrev]
        rfl
    · rw [if_pos hrev] at h
      cases h

variable (b : MemoryBackend cfg)

theorem checkEffectIds_of_isEmpty (ids : TradeIdentifiers) {effects : CommitEffects}
    (h : effects.isEmpty = true) : checkEffectIds ids effects = .ok () := by
  rw [CommitEffects.isEmpty, Bool.and_eq_true, List.isEmpty_iff, List.isEmpty_iff] at h
  rw [checkEffectIds, h.1, h.2]
  rfl

/-- The comparison over the locked shards, followed by a program that writes. -/
theorem compareRevisions_bind {α : Type} {writes : List TransactionalRecordWrite}
    {f : List TransactionRecordReceipt → MemoryM cfg α}
    {g : List TransactionRecordReceipt → Except StoreError (α × StoreView D)}
    (h : RefinesAt b (f (writes.map (·.receipt))) (g (writes.map (·.receipt)))) :
    RefinesAt b (compareRevisions (lockDataShards cfg writes) writes >>= f)
      (Flat.compareRevisions b.view writes >>= g) := by
  have hrun := compareRevisions_run b _ writes fun _ hwrite => mem_lockDataShards hwrite
  refine RefinesAt.read_bind ?_ ?_ ?_
  · cases hflat : Flat.compareRevisions b.view writes with
    | error e =>
      rw [hflat] at hrun
      exact hrun
    | ok committed =>
      rw [hflat] at hrun
      exact ⟨b, hrun, rfl⟩
  · intro committed b' hok
    rw [hrun] at hok
    cases hflat : Flat.compareRevisions b.view writes with
    | error e =>
      rw [hflat] at hok
      cases hok
    | ok committed =>
      rw [hflat] at hok
      cases hok
      rfl
  · intro committed hok
    rw [Flat.compareRevisions_ok hok]
    exact h

variable [DecidableEq D]

theorem save_refines (request : SnapshotWrite) :
    RefinesAt b (save request) (Flat.save cfg b.view request) := by
  rw [save, Flat.save]
  refine RefinesAt.ite (fun _ => rfl) fun _ => ?_
  show RefinesAt b (match b.view.snapshotReceipts request.requestId with | some _ => _ | none => _) _
  cases hreceipt : b.view.snapshotReceipts request.requestId with
  | some receipt => exact RefinesAt.ite (fun _ => rfl) fun _ => value _
  | none =>
    refine RefinesAt.ite (fun _ => rfl) fun _ => ?_
    show RefinesAt b (match (b.view.revision request.record).next with | none => _ | some r => _) _
    cases hnext : (b.view.revision request.record).next with
    | none => rfl
    | some revision =>
      refine ⟨_, rfl, ?_⟩
      obtain ⟨-, rfl⟩ := Revision.next_eq_some.mp hnext
      rw [view_insertSnapshotReceipt, view_insertSnapshot, StoreView.save]

theorem applyTransaction_refines (request : TransactionalWrite) :
    RefinesAt b (applyTransaction request) (Flat.applyTransaction cfg b.view request) := by
  rw [applyTransaction, Flat.applyTransaction]
  refine RefinesAt.ite (fun _ => rfl) fun _ => ?_
  refine RefinesAt.check_bind fun _ _ => ?_
  show RefinesAt b (match b.view.transactions request.operationId with | some _ => _ | none => _) _
  cases hreceipt : b.view.transactions request.operationId with
  | some receipt => exact RefinesAt.ite (fun _ => rfl) fun _ => value _
  | none =>
    refine RefinesAt.ite (fun _ => rfl) fun hrev => ?_
    show RefinesAt b (match (b.view.revision request.record).next with | none => _ | some r => _) _
    cases hnext : (b.view.revision request.record).next with
    | none => rfl
    | some revision =>
      refine ⟨_, rfl, ?_⟩
      obtain ⟨-, rfl⟩ := Revision.next_eq_some.mp hnext
      rw [view_insertTransaction, view_insertOperationKind, view_insertSnapshot,
        not_not.mp hrev, StoreView.applyTransaction]

theorem commitRecords_refines (request : MultiRecordTransactionalWrite) (effects : CommitEffects) :
    RefinesAt b (commitRecords request effects) (Flat.commitRecords cfg b.view request effects) := by
  rw [commitRecords, Flat.commitRecords]
  refine RefinesAt.check_bind fun effects _ => RefinesAt.check_bind fun request _ => ?_
  refine RefinesAt.check_bind fun _ _ => ?_
  show RefinesAt b (match b.view.multiTransactions request.operationId with
    | some _ => _ | none => _) _
  cases hreceipt : b.view.multiTransactions request.operationId with
  | some receipt => exact RefinesAt.ite (fun _ => rfl) fun _ => value _
  | none =>
    dsimp only
    obtain ⟨b', hstore, hview⟩ := storeSnapshots_spec (lockDataShards cfg request.writes)
      request.writes b fun _ hwrite => mem_lockDataShards hwrite
    by_cases hempty : effects.isEmpty = true
    · -- without effects the identifiers are neither checked nor written
      simp only [hempty, Bool.not_true, Bool.false_eq_true, if_false]
      rw [checkEffectIds_of_isEmpty _ hempty]
      refine compareRevisions_bind b ?_
      refine ⟨_, (bind_run_ok hstore).trans rfl, ?_⟩
      rw [view_insertMultiTransaction, view_insertOperationKind, hview, StoreView.commitRecords,
        insertEffects_of_isEmpty hempty]
      rfl
    · simp only [hempty, Bool.not_false, if_true]
      refine RefinesAt.check_bind fun _ _ => compareRevisions_bind b ?_
      refine ⟨_, (bind_run_ok hstore).trans rfl, ?_⟩
      have hids : (b'.insertOperationKind request.operationId .multi).tradeIdentifiers
          = b.view.identifiers := congrArg StoreView.identifiers hview
      rw [view_insertMultiTransaction, view_setIdentifiers, view_insertOperationKind, hview, hids]
      rfl

omit [DecidableEq D] in
theorem applyTradeTransaction_refines (request : TradeTransaction) :
    RefinesAt b (applyTradeTransaction request) (Flat.applyTradeTransaction b.view request) := by
  rw [applyTradeTransaction, Flat.applyTradeTransaction]
  refine RefinesAt.check_bind fun request _ => RefinesAt.check_bind fun _ _ => ?_
  show RefinesAt b (match b.view.tradeTransactions request.operationId with
    | some _ => _ | none => _) _
  cases hreceipt : b.view.tradeTransactions request.operationId with
  | some stored => exact RefinesAt.ite (fun _ => rfl) fun _ => value _
  | none =>
    refine RefinesAt.check_bind fun _ hstate => RefinesAt.check_bind fun _ _ => ?_
    refine compareRevisions_bind b ?_
    show RefinesAt b (match Revision.next (((b.view.trades request.transition.tradeId).map
      (·.version)).getD 0) with | none => _ | some _ => _) _
    obtain ⟨hversion, -⟩ := checkTradeState_ok hstate
    cases hnext : Revision.next (((b.view.trades request.transition.tradeId).map
        (·.version)).getD 0) with
    | none => rfl
    | some newVersion =>
      obtain ⟨-, rfl⟩ := Revision.next_eq_some.mp hnext
      obtain ⟨b', hstore, hview⟩ := storeSnapshots_spec (lockDataShards cfg request.writes)
        request.writes b fun _ hwrite => mem_lockDataShards hwrite
      rw [hversion]
      refine ⟨_, (bind_run_ok hstore).trans rfl, ?_⟩
      have hids : (b'.insertTrade (request.transition.envelope
          (request.transition.expectedVersion + 1))).tradeIdentifiers = b.view.identifiers :=
        congrArg StoreView.identifiers hview
      rw [view_insertTradeTransaction, view_insertOperationKind, view_setIdentifiers,
        view_insertTrade, hview, hids]
      rfl

/-! ### Lookups and batches -/

omit [DecidableEq D] in
theorem lookupSnapshots_run (guards : List (Fin cfg.shards)) :
    ∀ records : List RecordKey, (∀ record ∈ records, dataIndex cfg record ∈ guards) →
      (lookupSnapshots guards records).run b = .ok (records.map b.view.snapshots) b := by
  intro records
  induction records with
  | nil =>
    intro _
    rfl
  | cons record rest ih =>
    intro hguards
    have hlock := lockedShard_run (hguards record (List.mem_cons_self ..)) b
    have hrest := ih fun r hr => hguards r (List.mem_cons_of_mem _ hr)
    rw [lookupSnapshots, bind_run_ok hlock, get_bind]
    exact bind_run_ok hrest

omit [DecidableEq D] in
theorem loadMulti_refines (records : List RecordKey) :
    RefinesAt b (loadMulti records) (.ok (records.map b.view.snapshots, b.view)) := by
  refine ⟨b, lookupSnapshots_run b _ records fun record hrecord => ?_, rfl⟩
  exact List.mem_dedup.mpr (mem_sortOn.mpr (List.mem_map.mpr ⟨record, hrecord, rfl⟩))

omit [DecidableEq D] in
theorem loadTransaction_refines (operationId : String) (record : RecordKey) :
    RefinesAt b (loadTransaction operationId record)
      (Flat.loadTransaction b.view operationId record) := by
  rw [loadTransaction, Flat.loadTransaction]
  refine RefinesAt.ite (fun _ => rfl) fun _ => ?_
  show RefinesAt b (match b.view.transactions operationId with | none => _ | some _ => _) _
  cases b.view.transactions operationId with
  | none => exact value _
  | some receipt => exact RefinesAt.ite (fun _ => rfl) fun _ => value _

omit [DecidableEq D] in
theorem loadMultiTransaction_refines (operationId : String) (records : List RecordKey) :
    RefinesAt b (loadMultiTransaction operationId records)
      (Flat.loadMultiTransaction b.view operationId records) := by
  rw [loadMultiTransaction, Flat.loadMultiTransaction]
  refine RefinesAt.ite (fun _ => rfl) fun _ => ?_
  show RefinesAt b (match b.view.multiTransactions operationId with | none => _ | some _ => _) _
  cases b.view.multiTransactions operationId with
  | none => exact value _
  | some receipt => exact RefinesAt.ite (fun _ => rfl) fun _ => value _

omit [DecidableEq D] in
theorem loadTrade_refines (tradeId : String) :
    RefinesAt b (loadTrade tradeId) (Flat.loadTrade b.view tradeId) := by
  rw [loadTrade, Flat.loadTrade]
  exact RefinesAt.ite (fun _ => rfl) fun _ => value _

omit [DecidableEq D] in
theorem loadTradeTransaction_refines (operationId tradeId : String) :
    RefinesAt b (loadTradeTransaction operationId tradeId)
      (Flat.loadTradeTransaction b.view operationId tradeId) := by
  rw [loadTradeTransaction, Flat.loadTradeTransaction]
  refine RefinesAt.ite (fun _ => rfl) fun _ => RefinesAt.ite (fun _ => rfl) fun _ => ?_
  show RefinesAt b (match b.view.tradeTransactions operationId with | none => _ | some _ => _) _
  cases b.view.tradeTransactions operationId with
  | none => exact value _
  | some stored => exact RefinesAt.ite (fun _ => rfl) fun _ => value _

theorem enqueueSnapshot_refines (request : SnapshotWrite) :
    RefinesAt b (enqueueSnapshot request) (Flat.enqueueSnapshot cfg b.view request) := by
  rw [enqueueSnapshot, Flat.enqueueSnapshot]
  refine RefinesAt.ite (fun _ => rfl) fun _ => ?_
  have hsave := save_refines b request
  cases hflat : Flat.save cfg b.view request with
  | error e =>
    rw [hflat] at hsave
    exact bind_run_error hsave
  | ok r =>
    rw [hflat] at hsave
    obtain ⟨b', hrun, hview⟩ := hsave
    exact ⟨b', bind_run_ok hrun, hview⟩

omit [DecidableEq D] in
theorem entryOutcome_ok {α : Type} {x : MemoryM cfg α} {b b' : MemoryBackend cfg} {a : α}
    (h : x.run b = .ok a b') : (entryOutcome x).run b = .ok (.ok a) b' := by
  show entryOutcome x b = _
  rw [entryOutcome, h]

omit [DecidableEq D] in
theorem entryOutcome_error {α : Type} {x : MemoryM cfg α} {b b' : MemoryBackend cfg}
    {e : StoreError} (h : x.run b = .error (.store e) b') :
    (entryOutcome x).run b = .ok (.error (.core e)) b' := by
  show entryOutcome x b = _
  rw [entryOutcome, h]

omit [DecidableEq D] in
/-- A batch whose entries are refined one by one. -/
theorem entries_refines {ρ α : Type} {x : ρ → MemoryM cfg α}
    {f : StoreView D → ρ → Except StoreError (α × StoreView D)}
    (h : ∀ b r, RefinesAt b (x r) (f b.view r)) :
    ∀ (rs : List ρ) (b : MemoryBackend cfg),
      RefinesAt b (rs.mapM fun r => entryOutcome (x r)) (.ok (Flat.entries f b.view rs)) := by
  intro rs
  induction rs with
  | nil =>
    intro b
    exact value _
  | cons r rest ih =>
    intro b
    rw [List.mapM_cons, Flat.entries]
    have hr := h b r
    cases hflat : f b.view r with
    | error e =>
      rw [hflat] at hr
      obtain ⟨b', hrest, hview⟩ := ih b
      exact ⟨b', (bind_run_ok (entryOutcome_error hr)).trans (bind_run_ok hrest), hview⟩
    | ok a =>
      rw [hflat] at hr
      obtain ⟨b₁, hrun, hview₁⟩ := hr
      obtain ⟨b', hrest, hview⟩ := ih b₁
      rw [hview₁] at hrest hview
      exact ⟨b', (bind_run_ok (entryOutcome_ok hrun)).trans (bind_run_ok hrest), hview⟩

/-- Every method of the backend does to its view what the flat store says. -/
theorem memoryCall_refines (c : BackendCall) :
    RefinesAt b (memoryCall c) (Flat.call cfg b.view c) := by
  cases c with
  | load record => exact value _
  | loadCached record => exact value _
  | loadMulti records => exact loadMulti_refines b records
  | loadCachedMulti records => exact loadMulti_refines b records
  | save request => exact save_refines b request
  | saveMulti requests => exact entries_refines (fun b r => save_refines b r) requests b
  | enqueueSnapshot request => exact enqueueSnapshot_refines b request
  | enqueueMultiSnapshot requests =>
    exact entries_refines (fun b r => enqueueSnapshot_refines b r) requests b
  | applyTransaction request => exact applyTransaction_refines b request
  | loadTransaction operationId record => exact loadTransaction_refines b operationId record
  | commitRecords request effects => exact commitRecords_refines b request effects
  | applyMultiTransaction request => exact commitRecords_refines b request {}
  | loadMultiTransaction operationId records =>
    exact loadMultiTransaction_refines b operationId records
  | applyTradeTransaction request => exact applyTradeTransaction_refines b request
  | loadTrade tradeId => exact loadTrade_refines b tradeId
  | loadTradeTransaction operationId tradeId =>
    exact loadTradeTransaction_refines b operationId tradeId

end Refinement

end DbProxy
