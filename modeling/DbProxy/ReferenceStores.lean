/-
The flat reference stores of `dbproxy-core` (`transaction.rs`,
`multi_transaction.rs`), and why the volatile backend agrees with them.

A reference store keeps whole requests where the backend keeps digests.  As long
as the digest tells the bytes of the requests apart, the two answer a sequence
of transactions alike and end with the same snapshots; `sharding_invisible`
states this together with the independence of the shards.
-/
import DbProxy.ShardTransparency

namespace DbProxy

open Text EarlyReturn KeyedMap MemoryBackend

/-! ### Single-record transactions -/

/-- `TransactionFingerprint` of `transaction.rs`, with the bytes themselves. -/
structure ReferenceFingerprint where
  record : RecordKey
  schema : String
  schemaVersion : ℕ
  expectedRevision : Revision
  payload : Bytes
  result : Bytes
  updatedAtUnixMs : ℕ
deriving DecidableEq

def ReferenceFingerprint.fromRequest (request : TransactionalWrite) : ReferenceFingerprint where
  record := request.record
  schema := request.schema
  schemaVersion := request.schemaVersion
  expectedRevision := request.expectedRevision
  payload := request.payload
  result := request.result
  updatedAtUnixMs := request.updatedAtUnixMs

/-- `StoredTransactionReceipt` of `transaction.rs`. -/
structure ReferenceReceipt where
  fingerprint : ReferenceFingerprint
  newRevision : Revision
  result : Bytes

structure InMemoryTransactionalStore where
  snapshots : RecordKey → Option SnapshotEnvelope := fun _ => none
  receipts : String → Option ReferenceReceipt := fun _ => none

namespace InMemoryTransactionalStore

def load (s : InMemoryTransactionalStore) (record : RecordKey) : Option SnapshotEnvelope :=
  s.snapshots record

def apply (request : TransactionalWrite) :
    EStateM StoreError InMemoryTransactionalStore TransactionalWriteOutcome := do
  if blank request.operationId then throw .emptyOperationId
  let fingerprint := ReferenceFingerprint.fromRequest request
  match (← get).receipts request.operationId with
  | some receipt =>
    if receipt.fingerprint ≠ fingerprint then throw (.operationIdConflict request.operationId)
    return .duplicate receipt.newRevision receipt.result
  | none =>
    let actualRevision : Revision := (((← get).snapshots request.record).map (·.revision)).getD 0
    if actualRevision ≠ request.expectedRevision then
      throw (.revisionConflict request.record (some request.expectedRevision) actualRevision)
    match actualRevision.next with
    | none => throw (.revisionExhausted request.record)
    | some newRevision =>
      modify fun s => { s with
        snapshots := Function.update s.snapshots request.record (some ⟨request.record,
          request.schema, request.schemaVersion, newRevision, request.payload,
          request.updatedAtUnixMs⟩) }
      modify fun s => { s with
        receipts := Function.update s.receipts request.operationId
          (some ⟨fingerprint, newRevision, request.result⟩) }
      return .applied newRevision request.result

end InMemoryTransactionalStore

/-! ### Multi-record transactions -/

/-- `StoredReceipt` of `multi_transaction.rs`. -/
structure ReferenceMultiReceipt where
  writes : List TransactionalRecordWrite
  records : List TransactionRecordReceipt
  result : Bytes

structure InMemoryMultiRecordTransactionStore where
  snapshots : RecordKey → Option SnapshotEnvelope := fun _ => none
  receipts : String → Option ReferenceMultiReceipt := fun _ => none

namespace InMemoryMultiRecordTransactionStore

/-- The same checks and the same order as `normalize_multi` of the backend. -/
def normalize (request : MultiRecordTransactionalWrite) :
    Except StoreError MultiRecordTransactionalWrite :=
  normalizeMulti request

def load (s : InMemoryMultiRecordTransactionStore) (record : RecordKey) :
    Option SnapshotEnvelope :=
  s.snapshots record

/-- The first loop of `apply_multi`. -/
def compareAll : List TransactionalRecordWrite →
    EStateM StoreError InMemoryMultiRecordTransactionStore (List TransactionRecordReceipt)
  | [] => pure []
  | write :: rest => do
    let actual : Revision := (((← get).snapshots write.record).map (·.revision)).getD 0
    if actual ≠ write.expectedRevision then
      throw (.revisionConflict write.record (some write.expectedRevision) actual)
    match actual.next with
    | none => throw (.revisionExhausted write.record)
    | some newRevision =>
      let committed ← compareAll rest
      return ⟨write.record, newRevision⟩ :: committed

/-- The second loop of `apply_multi`. -/
def storeAll : List (TransactionalRecordWrite × TransactionRecordReceipt) →
    EStateM StoreError InMemoryMultiRecordTransactionStore Unit
  | [] => pure ()
  | (write, receipt) :: rest => do
    modify fun s => { s with
      snapshots := Function.update s.snapshots write.record
        (some (write.envelope receipt.newRevision)) }
    storeAll rest

def applyMulti (request : MultiRecordTransactionalWrite) :
    EStateM StoreError InMemoryMultiRecordTransactionStore
      MultiRecordTransactionalWriteOutcome := do
  let request ← MonadExcept.ofExcept (normalize request)
  match (← get).receipts request.operationId with
  | some receipt =>
    if ¬ (receipt.writes = request.writes ∧ receipt.result = request.result) then
      throw (.operationIdConflict request.operationId)
    return .duplicate receipt.records receipt.result
  | none =>
    let committed ← compareAll request.writes
    storeAll (request.writes.zip committed)
    modify fun s => { s with
      receipts := Function.update s.receipts request.operationId
        (some ⟨request.writes, committed, request.result⟩) }
    return .applied committed request.result

end InMemoryMultiRecordTransactionStore

/-! ### Sequences of transactions -/

/-- Answer the requests one after the other. -/
def answerAll {ρ σ α : Type} (apply : ρ → EStateM StoreError σ α) :
    σ → List ρ → List (Except StoreError α) × σ
  | s, [] => ([], s)
  | s, request :: rest =>
    match (apply request).run s with
    | .ok a s' => (.ok a :: (answerAll apply s' rest).1, (answerAll apply s' rest).2)
    | .error e s' => (.error e :: (answerAll apply s' rest).1, (answerAll apply s' rest).2)

/-- The digest tells these byte strings apart. -/
def TellsApart {D : Type} (digest : Bytes → D) (inputs : List Bytes) : Prop :=
  ∀ x ∈ inputs, ∀ y ∈ inputs, digest x = digest y → x = y

section Simulation

variable {D : Type} {ρ σ α : Type}

/-- One request on the flat store and on a reference store: the same answer, and
`R` relates what they leave. -/
def Agrees (R : StoreView D → σ → Prop) (s : σ) (x : EStateM StoreError σ α) :
    Except StoreError (α × StoreView D) → Prop
  | .ok (a, v) => ∃ s', x.run s = .ok a s' ∧ R v s'
  | .error e => x.run s = .error e s

theorem agrees_get {R : StoreView D → σ → Prop} {s : σ} {f : σ → EStateM StoreError σ α}
    {r : Except StoreError (α × StoreView D)} (h : Agrees R s (f s) r) :
    Agrees R s (get >>= f) r := h

theorem agrees_ok {β : Type} {R : StoreView D → σ → Prop} {s : σ} {b : β}
    {f : β → EStateM StoreError σ α} {r : Except StoreError (α × StoreView D)}
    (h : Agrees R s (f b) r) :
    Agrees R s ((MonadExcept.ofExcept (Except.ok b : Except StoreError β)) >>= f) r := h

/-- Requests answered by the flat store. -/
def Flat.answerAll (f : StoreView D → ρ → Except StoreError (α × StoreView D)) :
    StoreView D → List ρ → List (Except StoreError α) × StoreView D
  | v, [] => ([], v)
  | v, request :: rest =>
    match f v request with
    | .ok (a, v') => (.ok a :: (answerAll f v' rest).1, (answerAll f v' rest).2)
    | .error e => (.error e :: (answerAll f v rest).1, (answerAll f v rest).2)

/-- **Simulation rule**: agreement on every request of a list is agreement on the list. -/
theorem Flat.answerAll_agrees {R : StoreView D → σ → Prop} {apply : ρ → EStateM StoreError σ α}
    {f : StoreView D → ρ → Except StoreError (α × StoreView D)} :
    ∀ (requests : List ρ) (v : StoreView D) (s : σ),
      (∀ request ∈ requests, ∀ v s, R v s → Agrees R s (apply request) (f v request)) → R v s →
        (Flat.answerAll f v requests).1 = (DbProxy.answerAll apply s requests).1 ∧
          R (Flat.answerAll f v requests).2 (DbProxy.answerAll apply s requests).2 := by
  intro requests
  induction requests with
  | nil =>
    intro v s _ hR
    exact ⟨rfl, hR⟩
  | cons request rest ih =>
    intro v s hstep hR
    have hrest := fun r hr => hstep r (List.mem_cons_of_mem _ hr)
    have hhead := hstep request (List.mem_cons_self ..) v s hR
    rw [Flat.answerAll, DbProxy.answerAll]
    cases hflat : f v request with
    | error e =>
      rw [hflat] at hhead
      rw [show (apply request).run s = .error e s from hhead]
      obtain ⟨hanswers, hlast⟩ := ih v s hrest hR
      exact ⟨congrArg (_ :: ·) hanswers, hlast⟩
    | ok r =>
      rw [hflat] at hhead
      obtain ⟨s', hrun, hR'⟩ := hhead
      rw [hrun]
      obtain ⟨hanswers, hlast⟩ := ih r.2 s' hrest hR'
      exact ⟨congrArg (_ :: ·) hanswers, hlast⟩

end Simulation

section Agreement

variable {D : Type} (cfg : MemoryConfig D)

/-! ### The single-record store -/

/-- The receipt the backend keeps for a receipt of the reference store. -/
def ReferenceReceipt.digested (receipt : ReferenceReceipt) : StoredTransactionReceipt D where
  fingerprint :=
    { record := receipt.fingerprint.record
      schema := receipt.fingerprint.schema
      schemaVersion := receipt.fingerprint.schemaVersion
      expectedRevision := receipt.fingerprint.expectedRevision
      payloadDigest := cfg.digest receipt.fingerprint.payload
      resultDigest := cfg.digest receipt.fingerprint.result
      updatedAtUnixMs := receipt.fingerprint.updatedAtUnixMs }
  newRevision := receipt.newRevision
  result := receipt.result

/-- The flat store after transactions of `requests`, and the reference store. -/
structure FollowsSingle (requests : List TransactionalWrite) (v : StoreView D)
    (s : InMemoryTransactionalStore) : Prop where
  snapshots : v.snapshots = s.snapshots
  kinds : ∀ operationId kind, v.operationKinds operationId = some kind → kind = .single
  receipts : ∀ operationId,
    v.transactions operationId = (s.receipts operationId).map (·.digested cfg)
  sources : ∀ operationId receipt, s.receipts operationId = some receipt →
    ∃ request ∈ requests, receipt.fingerprint = .fromRequest request

variable {cfg}

theorem FollowsSingle.revision {requests : List TransactionalWrite} {v : StoreView D}
    {s : InMemoryTransactionalStore} (h : FollowsSingle cfg requests v s) (record : RecordKey) :
    ((s.snapshots record).map (·.revision)).getD 0 = v.revision record := by
  rw [StoreView.revision, h.snapshots]

theorem claimOperation_flat_ok {v : StoreView D} {operationId : String} {kind : OperationKind}
    (h : ∀ existing, v.operationKinds operationId = some existing → existing = kind) :
    Flat.claimOperation v operationId kind = .ok () := by
  rw [Flat.claimOperation]
  cases hkind : v.operationKinds operationId with
  | none => rfl
  | some existing => exact if_neg (not_not_intro (h existing hkind))

/-- Equal digests come from equal requests. -/
theorem FollowsSingle.fingerprint_iff {requests : List TransactionalWrite} {v : StoreView D}
    {s : InMemoryTransactionalStore} (h : FollowsSingle cfg requests v s)
    (hpayloads : TellsApart cfg.digest (requests.map (·.payload)))
    (hresults : TellsApart cfg.digest (requests.map (·.result)))
    {request : TransactionalWrite} (hmem : request ∈ requests) {receipt : ReferenceReceipt}
    (hreceipt : s.receipts request.operationId = some receipt) :
    (receipt.digested cfg).fingerprint = TransactionFingerprint.fromRequest cfg request ↔
      receipt.fingerprint = .fromRequest request := by
  obtain ⟨source, hsource, hfingerprint⟩ := h.sources _ _ hreceipt
  constructor
  · intro heq
    rw [ReferenceReceipt.digested, TransactionFingerprint.fromRequest,
      TransactionFingerprint.mk.injEq, hfingerprint] at heq
    obtain ⟨hrecord, hschema, hversion, hexpected, hpayload, hresult, hupdated⟩ := heq
    have hpayload := hpayloads source.payload (List.mem_map_of_mem hsource) request.payload
      (List.mem_map_of_mem hmem) hpayload
    have hresult := hresults source.result (List.mem_map_of_mem hsource) request.result
      (List.mem_map_of_mem hmem) hresult
    rw [hfingerprint, ReferenceFingerprint.fromRequest, ReferenceFingerprint.fromRequest,
      ReferenceFingerprint.mk.injEq]
    exact ⟨hrecord, hschema, hversion, hexpected, hpayload, hresult, hupdated⟩
  · intro heq
    rw [ReferenceReceipt.digested, heq]
    rfl

/-- Both stores after an applied transaction. -/
theorem FollowsSingle.applied {requests : List TransactionalWrite} {v : StoreView D}
    {s : InMemoryTransactionalStore} (h : FollowsSingle cfg requests v s)
    {request : TransactionalWrite} (hmem : request ∈ requests) :
    FollowsSingle cfg requests (v.applyTransaction cfg request)
      { snapshots := Function.update s.snapshots request.record (some ⟨request.record,
          request.schema, request.schemaVersion, request.expectedRevision + 1, request.payload,
          request.updatedAtUnixMs⟩)
        receipts := Function.update s.receipts request.operationId
          (some ⟨.fromRequest request, request.expectedRevision + 1, request.result⟩) } where
  snapshots := by rw [StoreView.applyTransaction, h.snapshots]
  kinds operationId kind hkind := by
    rcases update_eq_some hkind with ⟨-, rfl⟩ | ⟨-, hold⟩
    · rfl
    · exact h.kinds operationId kind hold
  receipts operationId := by
    show Function.update v.transactions _ _ _ = (Function.update s.receipts _ _ _).map _
    by_cases hid : operationId = request.operationId
    · subst hid
      rw [Function.update_self, Function.update_self]
      rfl
    · rw [Function.update_of_ne hid, Function.update_of_ne hid]
      exact h.receipts operationId
  sources operationId receipt hreceipt := by
    rcases update_eq_some hreceipt with ⟨-, rfl⟩ | ⟨-, hold⟩
    · exact ⟨request, hmem, rfl⟩
    · exact h.sources operationId receipt hold

variable [DecidableEq D]

theorem applyTransaction_agrees {requests : List TransactionalWrite}
    (hpayloads : TellsApart cfg.digest (requests.map (·.payload)))
    (hresults : TellsApart cfg.digest (requests.map (·.result)))
    {request : TransactionalWrite} (hmem : request ∈ requests) (v : StoreView D)
    (s : InMemoryTransactionalStore) (h : FollowsSingle cfg requests v s) :
    Agrees (FollowsSingle cfg requests) s (InMemoryTransactionalStore.apply request)
      (Flat.applyTransaction cfg v request) := by
  rw [InMemoryTransactionalStore.apply, Flat.applyTransaction]
  by_cases hblank : blank request.operationId = true
  · rw [if_pos hblank, if_pos hblank]
    rfl
  rw [if_neg hblank, if_neg hblank, claimOperation_flat_ok (h.kinds request.operationId)]
  refine agrees_get ?_
  rw [Checks.ok_bind, h.receipts]
  dsimp only
  cases hreceipt : s.receipts request.operationId with
  | some receipt =>
    have hiff := h.fingerprint_iff hpayloads hresults hmem hreceipt
    by_cases hsame : receipt.fingerprint = .fromRequest request
    · rw [Option.map_some]
      dsimp only
      rw [if_neg (not_not_intro hsame), if_neg (not_not_intro (hiff.mpr hsame))]
      exact ⟨s, rfl, h⟩
    · rw [Option.map_some]
      dsimp only
      rw [if_pos hsame, if_pos fun heq => hsame (hiff.mp heq)]
      rfl
  | none =>
    show Agrees _ s (if ((s.snapshots request.record).map (·.revision)).getD 0
      ≠ request.expectedRevision then _ else _) _
    rw [h.revision]
    by_cases hrev : v.revision request.record = request.expectedRevision
    · rw [Option.map_none]
      dsimp only
      rw [if_neg (not_not_intro hrev), if_neg (not_not_intro hrev)]
      cases hnext : (v.revision request.record).next with
      | none => rfl
      | some newRevision =>
        obtain ⟨-, rfl⟩ := Revision.next_eq_some.mp hnext
        rw [hrev]
        exact ⟨_, rfl, h.applied hmem⟩
    · rw [Option.map_none]
      dsimp only
      rw [if_pos hrev, if_pos hrev]
      rfl

/-! ### The multi-record store -/

omit [DecidableEq D] in
variable (cfg) in
/-- The receipt the backend keeps for a receipt of the reference store. -/
def ReferenceMultiReceipt.digested (receipt : ReferenceMultiReceipt) :
    StoredMultiTransactionReceipt D where
  effects := {}
  fingerprint := ⟨receipt.writes.map (TransactionalRecordFingerprint.fromWrite cfg),
    cfg.digest receipt.result⟩
  records := receipt.records
  result := receipt.result

omit [DecidableEq D] in
variable (cfg) in
/-- The flat store after multi-record transactions of `requests`, and the
reference store. -/
structure FollowsMulti (requests : List MultiRecordTransactionalWrite) (v : StoreView D)
    (s : InMemoryMultiRecordTransactionStore) : Prop where
  snapshots : v.snapshots = s.snapshots
  kinds : ∀ operationId kind, v.operationKinds operationId = some kind → kind = .multi
  receipts : ∀ operationId,
    v.multiTransactions operationId = (s.receipts operationId).map (·.digested cfg)
  sources : ∀ operationId receipt, s.receipts operationId = some receipt →
    ∃ request ∈ requests, receipt.result = request.result ∧
      ∀ write ∈ receipt.writes, write ∈ request.writes

omit [DecidableEq D] in
/-- Equal digests come from equal requests. -/
theorem FollowsMulti.fingerprint_iff {requests : List MultiRecordTransactionalWrite}
    {v : StoreView D} {s : InMemoryMultiRecordTransactionStore}
    (h : FollowsMulti cfg requests v s)
    (hpayloads : TellsApart cfg.digest (requests.flatMap fun r => r.writes.map (·.payload)))
    (hresults : TellsApart cfg.digest (requests.map (·.result)))
    {request normal : MultiRecordTransactionalWrite} (hmem : request ∈ requests)
    (hresult : normal.result = request.result)
    (hwrites : ∀ write ∈ normal.writes, write ∈ request.writes) {receipt : ReferenceMultiReceipt}
    (hreceipt : s.receipts normal.operationId = some receipt) :
    (receipt.digested cfg).fingerprint = MultiTransactionFingerprint.fromRequest cfg normal ↔
      receipt.writes = normal.writes ∧ receipt.result = normal.result := by
  obtain ⟨source, hsource, hsourceResult, hsourceWrites⟩ := h.sources _ _ hreceipt
  have hpayload : ∀ r ∈ requests, ∀ w ∈ r.writes,
      w.payload ∈ requests.flatMap fun r => r.writes.map (·.payload) := fun r hr w hw =>
    List.mem_flatMap.mpr ⟨r, hr, List.mem_map_of_mem hw⟩
  constructor
  · intro heq
    rw [ReferenceMultiReceipt.digested, MultiTransactionFingerprint.fromRequest,
      MultiTransactionFingerprint.mk.injEq] at heq
    refine ⟨map_fromWrite_injective (fun w hw w' hw' => ?_) heq.1, ?_⟩
    · exact hpayloads _ (hpayload source hsource w (hsourceWrites w hw)) _
        (hpayload request hmem w' (hwrites w' hw'))
    · rw [hsourceResult, hresult] at heq ⊢
      exact hresults _ (List.mem_map_of_mem hsource) _ (List.mem_map_of_mem hmem) heq.2
  · rintro ⟨hwrites, hresult⟩
    rw [ReferenceMultiReceipt.digested, hwrites, hresult]
    rfl

omit [DecidableEq D] in
theorem compareAll_run {requests : List MultiRecordTransactionalWrite} {v : StoreView D}
    {s : InMemoryMultiRecordTransactionStore} (h : FollowsMulti cfg requests v s) :
    ∀ writes : List TransactionalRecordWrite,
      (InMemoryMultiRecordTransactionStore.compareAll writes).run s =
        match Flat.compareRevisions v writes with
        | .ok committed => .ok committed s
        | .error e => .error e s := by
  intro writes
  induction writes with
  | nil => rfl
  | cons write rest ih =>
    have hactual : ((s.snapshots write.record).map (·.revision)).getD 0
        = v.revision write.record := by
      rw [StoreView.revision, h.snapshots]
    rw [InMemoryMultiRecordTransactionStore.compareAll, get_bind, Flat.compareRevisions, hactual]
    by_cases hrev : v.revision write.record = write.expectedRevision
    · rw [if_neg (not_not_intro hrev), if_neg (not_not_intro hrev)]
      cases hnext : (v.revision write.record).next with
      | none => rfl
      | some newRevision =>
        cases hrest : Flat.compareRevisions v rest with
        | error e =>
          rw [hrest] at ih
          exact bind_run_error ih
        | ok committed =>
          rw [hrest] at ih
          exact bind_run_ok ih
    · rw [if_pos hrev, if_pos hrev]
      rfl

omit [DecidableEq D] in
theorem storeAll_run :
    ∀ (writes : List TransactionalRecordWrite) (s : InMemoryMultiRecordTransactionStore),
      (InMemoryMultiRecordTransactionStore.storeAll
        (writes.zip (writes.map (·.receipt)))).run s =
        .ok () { s with
          snapshots := insertAll (·.record) s.snapshots (writes.map (·.committed)) } := by
  intro writes
  induction writes with
  | nil =>
    intro s
    rfl
  | cons write rest ih =>
    intro s
    rw [List.map_cons, List.zip_cons_cons, InMemoryMultiRecordTransactionStore.storeAll,
      modify_bind, ih]
    rfl

omit [DecidableEq D] in
/-- Both stores after an applied, normalised transaction. -/
theorem FollowsMulti.applied {requests : List MultiRecordTransactionalWrite} {v : StoreView D}
    {s : InMemoryMultiRecordTransactionStore} (h : FollowsMulti cfg requests v s)
    {request normal : MultiRecordTransactionalWrite} (hmem : request ∈ requests)
    (hresult : normal.result = request.result)
    (hwrites : ∀ write ∈ normal.writes, write ∈ request.writes) :
    FollowsMulti cfg requests (v.commitRecords cfg normal {})
      { snapshots := insertAll (·.record) s.snapshots (normal.writes.map (·.committed))
        receipts := Function.update s.receipts normal.operationId
          (some ⟨normal.writes, normal.writes.map (·.receipt), normal.result⟩) } where
  snapshots := by rw [← h.snapshots]; rfl
  kinds operationId kind hkind := by
    rcases update_eq_some hkind with ⟨-, rfl⟩ | ⟨-, hold⟩
    · rfl
    · exact h.kinds operationId kind hold
  receipts operationId := by
    show Function.update v.multiTransactions _ _ _ = (Function.update s.receipts _ _ _).map _
    by_cases hid : operationId = normal.operationId
    · subst hid
      rw [Function.update_self, Function.update_self]
      rfl
    · rw [Function.update_of_ne hid, Function.update_of_ne hid]
      exact h.receipts operationId
  sources operationId receipt hreceipt := by
    rcases update_eq_some hreceipt with ⟨-, rfl⟩ | ⟨-, hold⟩
    · exact ⟨request, hmem, hresult, hwrites⟩
    · exact h.sources operationId receipt hold

theorem applyMultiTransaction_agrees {requests : List MultiRecordTransactionalWrite}
    (hpayloads : TellsApart cfg.digest (requests.flatMap fun r => r.writes.map (·.payload)))
    (hresults : TellsApart cfg.digest (requests.map (·.result)))
    {request : MultiRecordTransactionalWrite} (hmem : request ∈ requests) (v : StoreView D)
    (s : InMemoryMultiRecordTransactionStore) (h : FollowsMulti cfg requests v s) :
    Agrees (FollowsMulti cfg requests) s (InMemoryMultiRecordTransactionStore.applyMulti request)
      (Flat.commitRecords cfg v request {}) := by
  have heffects : ({} : CommitEffects).normalize cfg.decodeEnvelope = .ok {} := rfl
  rw [InMemoryMultiRecordTransactionStore.applyMulti, Flat.commitRecords, heffects,
    InMemoryMultiRecordTransactionStore.normalize]
  cases hnormal : normalizeMulti request with
  | error e => rfl
  | ok normal =>
  obtain ⟨-, -, -, hsorted⟩ := normalizeMulti_ok hnormal
  have hresult : normal.result = request.result := by rw [hsorted]
  have hwrites : ∀ write ∈ normal.writes, write ∈ request.writes := by
    rw [hsorted]
    exact fun write hwrite => mem_sortOn.mp hwrite
  refine agrees_ok (agrees_get ?_)
  rw [Checks.ok_bind, Checks.ok_bind, claimOperation_flat_ok (h.kinds normal.operationId),
    Checks.ok_bind, h.receipts]
  dsimp only
  cases hreceipt : s.receipts normal.operationId with
  | some receipt =>
    -- a replay: the digests agree exactly when the requests do
    have hiff := h.fingerprint_iff hpayloads hresults hmem hresult hwrites hreceipt
    rw [Option.map_some]
    dsimp only
    by_cases hsame : receipt.writes = normal.writes ∧ receipt.result = normal.result
    · have hdigested : ¬ ((receipt.digested cfg).fingerprint ≠
          MultiTransactionFingerprint.fromRequest cfg normal ∨
          (receipt.digested cfg).effects ≠ {}) := by
        rintro (hne | hne)
        · exact hne (hiff.mpr hsame)
        · exact hne rfl
      rw [if_neg (not_not_intro hsame), if_neg hdigested]
      exact ⟨s, rfl, h⟩
    · rw [if_pos hsame, if_pos (Or.inl fun heq => hsame (hiff.mp heq))]
      rfl
  | none =>
    rw [Option.map_none]
    dsimp only
    -- a first call: both compare every revision, then store every write
    have hrun := compareAll_run h normal.writes
    rw [checkEffectIds_of_isEmpty _ rfl]
    show Agrees _ s _ (Flat.compareRevisions v normal.writes >>= _)
    cases hflat : Flat.compareRevisions v normal.writes with
    | error e =>
      rw [hflat] at hrun
      exact bind_run_error hrun
    | ok committed =>
      rw [hflat] at hrun
      obtain rfl := Flat.compareRevisions_ok hflat
      refine ⟨_, (bind_run_ok hrun).trans ((bind_run_ok (storeAll_run _ s)).trans rfl), ?_⟩
      exact h.applied hmem hresult hwrites

/-! ### Only one kind of call -/

/-- Calls of one kind: `answer` turns what `f` returns into the value of the call. -/
theorem callAll_map {ρ α : Type} (make : ρ → BackendCall)
    (f : StoreView D → ρ → Except StoreError (α × StoreView D))
    (answer : (r : ρ) → Except StoreError α → Except StoreError (make r).Value)
    (hok : ∀ v r a v', f v r = .ok (a, v') →
      ∃ b, Flat.call cfg v (make r) = .ok (b, v') ∧ answer r (.ok a) = .ok b)
    (herror : ∀ v r e, f v r = .error e →
      Flat.call cfg v (make r) = .error e ∧ answer r (.error e) = .error e) :
    ∀ (requests : List ρ) (v : StoreView D),
      Flat.callAll cfg v (requests.map make) =
        (List.zipWith (fun r a => ⟨make r, answer r a⟩) requests (Flat.answerAll f v requests).1,
        (Flat.answerAll f v requests).2) := by
  intro requests
  induction requests with
  | nil =>
    intro v
    rfl
  | cons request rest ih =>
    intro v
    rw [List.map_cons, Flat.callAll, Flat.answerAll]
    cases hflat : f v request with
    | error e =>
      obtain ⟨hcall, hanswer⟩ := herror v request e hflat
      rw [hcall]
      dsimp only
      rw [ih, List.zipWith_cons_cons, hanswer]
    | ok r =>
      obtain ⟨b, hcall, hanswer⟩ := hok v request r.1 r.2 hflat
      rw [hcall]
      dsimp only
      rw [ih, List.zipWith_cons_cons, hanswer]

theorem callAll_applyTransaction (requests : List TransactionalWrite) (v : StoreView D) :
    Flat.callAll cfg v (requests.map .applyTransaction) =
      (List.zipWith (fun request answer => ⟨.applyTransaction request, answer⟩) requests
        (Flat.answerAll (Flat.applyTransaction cfg) v requests).1,
      (Flat.answerAll (Flat.applyTransaction cfg) v requests).2) :=
  callAll_map .applyTransaction (Flat.applyTransaction cfg) (fun _ answer => answer)
    (fun _ _ _ _ h => ⟨_, h, rfl⟩) (fun _ _ _ h => ⟨h, rfl⟩) requests v

theorem callAll_applyMultiTransaction (requests : List MultiRecordTransactionalWrite)
    (v : StoreView D) :
    Flat.callAll cfg v (requests.map .applyMultiTransaction) =
      (List.zipWith (fun request answer => ⟨.applyMultiTransaction request, answer⟩) requests
        (Flat.answerAll (fun v r => Flat.commitRecords cfg v r {}) v requests).1,
      (Flat.answerAll (fun v r => Flat.commitRecords cfg v r {}) v requests).2) :=
  callAll_map .applyMultiTransaction (fun v r => Flat.commitRecords cfg v r {}) (fun _ answer => answer)
    (fun _ _ _ _ h => ⟨_, h, rfl⟩) (fun _ _ _ h => ⟨h, rfl⟩) requests v

theorem callAll_save (requests : List SnapshotWrite) (v : StoreView D) :
    Flat.callAll cfg v (requests.map .save) =
      (List.zipWith (fun request answer => ⟨.save request, answer⟩) requests
        (Flat.answerAll (Flat.save cfg) v requests).1,
      (Flat.answerAll (Flat.save cfg) v requests).2) :=
  callAll_map .save (Flat.save cfg) (fun _ answer => answer)
    (fun _ _ _ _ h => ⟨_, h, rfl⟩) (fun _ _ _ h => ⟨h, rfl⟩) requests v

end Agreement

section Transparency

variable {D : Type} [DecidableEq D]

/-- Whatever the shard count and the hash functions are, a sequence of calls gets
the same answers, leaves the same content and never misses a locked shard; a
sequence of transactions of one kind is answered as by the reference store. -/
theorem sharding_invisible (cfg : MemoryConfig D) (shards : ℕ) (hpos : 0 < shards)
    (hashRecord : RecordKey → ℕ) (hashText : String → ℕ) :
    (∀ calls : List BackendCall,
      let this := performAll ({} : MemoryBackend cfg) calls
      let other := performAll
        ({} : MemoryBackend (cfg.reshard shards hpos hashRecord hashText)) calls
      this.1 = other.1 ∧ SameContent this.2 other.2 ∧
        ∀ answer ∈ this.1, ∀ message, answer.2 ≠ .error (.panic message)) ∧
    (∀ requests : List TransactionalWrite,
      TellsApart cfg.digest (requests.map (·.payload)) →
      TellsApart cfg.digest (requests.map (·.result)) →
      let this := performAll ({} : MemoryBackend cfg) (requests.map .applyTransaction)
      let reference := answerAll InMemoryTransactionalStore.apply {} requests
      this.1 = List.zipWith (fun request answer =>
          ⟨.applyTransaction request, answer.mapError .store⟩) requests reference.1 ∧
        ∀ record, (load record).run this.2 = .ok (reference.2.load record) this.2) ∧
    (∀ requests : List MultiRecordTransactionalWrite,
      TellsApart cfg.digest (requests.flatMap fun r => r.writes.map (·.payload)) →
      TellsApart cfg.digest (requests.map (·.result)) →
      let this := performAll ({} : MemoryBackend cfg) (requests.map .applyMultiTransaction)
      let reference := answerAll InMemoryMultiRecordTransactionStore.applyMulti {} requests
      this.1 = List.zipWith (fun request answer =>
          ⟨.applyMultiTransaction request, answer.mapError .store⟩) requests reference.1 ∧
        ∀ record, (load record).run this.2 = .ok (reference.2.load record) this.2) := by
  refine ⟨fun calls => ?_, fun requests hpayloads hresults => ?_,
    fun requests hpayloads hresults => ?_⟩
  · -- both stores answer as the store without shards does
    obtain ⟨hanswers, hview⟩ := performAll_flat calls ({} : MemoryBackend cfg)
    obtain ⟨hanswers', hview'⟩ := performAll_flat calls
      ({} : MemoryBackend (cfg.reshard shards hpos hashRecord hashText))
    rw [Flat.callAll_reshard] at hanswers' hview'
    refine ⟨hanswers.trans hanswers'.symm, ?_, ?_⟩
    · exact SameContent.of_view (hview.trans hview'.symm) (performAll_placed calls _ placed_empty)
        (performAll_placed calls _ placed_empty)
    · intro answer hanswer message
      rw [hanswers] at hanswer
      obtain ⟨flat, -, rfl⟩ := List.mem_map.mp hanswer
      obtain ⟨c, reply⟩ := flat
      cases reply with
      | error e => simp [storeAnswer, Except.mapError]
      | ok a => simp [storeAnswer, Except.mapError]
  · obtain ⟨hanswers, hview⟩ := performAll_flat (requests.map .applyTransaction)
      ({} : MemoryBackend cfg)
    -- the store without shards follows the reference store call by call
    have hinit : FollowsSingle cfg requests ({} : MemoryBackend cfg).view {} :=
      ⟨rfl, (fun _ _ h => by cases h), fun _ => rfl, (fun _ _ h => by cases h)⟩
    obtain ⟨hsame, hfollows⟩ := Flat.answerAll_agrees requests _ _
      (fun request hmem => applyTransaction_agrees hpayloads hresults hmem) hinit
    rw [callAll_applyTransaction] at hanswers hview
    refine ⟨?_, fun record => ?_⟩
    · rw [hanswers, hsame, List.map_zipWith]
      rfl
    · have hsnapshots := congrFun hfollows.snapshots record
      rw [← hview] at hsnapshots
      exact congrArg (EStateM.Result.ok · _) hsnapshots
  · obtain ⟨hanswers, hview⟩ := performAll_flat (requests.map .applyMultiTransaction)
      ({} : MemoryBackend cfg)
    have hinit : FollowsMulti cfg requests ({} : MemoryBackend cfg).view {} :=
      ⟨rfl, (fun _ _ h => by cases h), fun _ => rfl, (fun _ _ h => by cases h)⟩
    obtain ⟨hsame, hfollows⟩ := Flat.answerAll_agrees requests _ _
      (fun request hmem => applyMultiTransaction_agrees hpayloads hresults hmem) hinit
    rw [callAll_applyMultiTransaction] at hanswers hview
    refine ⟨?_, fun record => ?_⟩
    · rw [hanswers, hsame, List.map_zipWith]
      rfl
    · have hsnapshots := congrFun hfollows.snapshots record
      rw [← hview] at hsnapshots
      exact congrArg (EStateM.Result.ok · _) hsnapshots

end Transparency

def plainConfig : MemoryConfig Bytes where
  shards := 1
  shards_pos := Nat.one_pos
  hashRecord record := record.key.length
  hashText text := text.length
  digest := id
  decodeEnvelope _ := none

def samplePurchase (expectedRevision : Revision) : TransactionalWrite :=
  ⟨"op-1", ⟨"player", "a"⟩, "bag", 1, expectedRevision, [1], [7], 10⟩

/-- A purchase, its retry and a changed copy of it, with one shard and with three. -/
theorem sharding_invisible_purchases :
    (0 < 3 ∧ TellsApart plainConfig.digest
      ([samplePurchase 0, samplePurchase 0, samplePurchase 1].map (·.payload))) ∧
    (performAll ({} : MemoryBackend plainConfig) [.applyTransaction (samplePurchase 0),
        .loadMulti [⟨"player", "a"⟩, ⟨"player", "bb"⟩]]).1 =
      (performAll ({} : MemoryBackend (plainConfig.reshard 3 (by decide) (fun _ => 2)
        fun text => text.length)) [.applyTransaction (samplePurchase 0),
        .loadMulti [⟨"player", "a"⟩, ⟨"player", "bb"⟩]]).1 ∧
    (performAll ({} : MemoryBackend plainConfig)
        ([samplePurchase 0, samplePurchase 0, samplePurchase 1].map .applyTransaction)).1 =
      [⟨.applyTransaction (samplePurchase 0), .ok (.applied 1 [7])⟩,
        ⟨.applyTransaction (samplePurchase 0), .ok (.duplicate 1 [7])⟩,
        ⟨.applyTransaction (samplePurchase 1),
          .error (.store (.operationIdConflict "op-1"))⟩] := by
  have hall := sharding_invisible plainConfig 3 (by decide) (fun _ => 2) fun text => text.length
  have hreference := hall.2.1 [samplePurchase 0, samplePurchase 0, samplePurchase 1]
    (fun _ _ _ _ h => h) (fun _ _ _ _ h => h)
  refine ⟨⟨by decide, fun _ _ _ _ h => h⟩, (hall.1 _).1, hreference.1.trans ?_⟩
  rfl

end DbProxy
