/-
The operations of the volatile backend, one case analysis each.

The two loops over the record writes never miss a locked shard
(`compareRevisions_spec`, `storeSnapshots_spec`), so no operation panics, and
each operation ends in one of three ways:

* with a store error, and the state is the one it started from;
* with a duplicate, and again the state is unchanged;
* applied, and then every check has passed and the view is updated at once
  (`StoreView.save` and its siblings).

Main lemmas: `save_cases`, `applyTransaction_cases`, `commitRecords_cases`,
`applyTradeTransaction_cases`; for an operation id that is already claimed,
`applyTransaction_conflict` and its siblings when another kind holds it and
`applyTransaction_replay` and its siblings when a receipt is stored.
-/
import DbProxy.EarlyReturn
import DbProxy.MemoryView

namespace DbProxy

open Text EarlyReturn KeyedMap MemoryBackend

/-! ### What an applied operation does to the view -/

/-- The receipt of one record write whose expectation was met. -/
def TransactionalRecordWrite.receipt (write : TransactionalRecordWrite) :
    TransactionRecordReceipt :=
  ⟨write.record, write.expectedRevision + 1⟩

/-- The snapshot one record write leaves behind. -/
def TransactionalRecordWrite.committed (write : TransactionalRecordWrite) : SnapshotEnvelope :=
  write.envelope (write.expectedRevision + 1)

/-- The receipt of an applied, normalised trade. -/
def TradeTransaction.appliedReceipt (request : TradeTransaction) : TradeReceipt :=
  request.receipt (request.transition.expectedVersion + 1) (request.writes.map (·.receipt))

namespace StoreView

variable {D : Type} (cfg : MemoryConfig D) (v : StoreView D)

def save (request : SnapshotWrite) : StoreView D :=
  let revision := v.revision request.record + 1
  { v with
    snapshots := Function.update v.snapshots request.record (some ⟨request.record, request.schema,
      request.schemaVersion, revision, request.payload, request.updatedAtUnixMs⟩)
    snapshotReceipts := Function.update v.snapshotReceipts request.requestId
      (some ⟨request.record, SnapshotFingerprint.fromRequest cfg request, revision⟩) }

def applyTransaction (request : TransactionalWrite) : StoreView D :=
  let revision := request.expectedRevision + 1
  { v with
    snapshots := Function.update v.snapshots request.record (some ⟨request.record, request.schema,
      request.schemaVersion, revision, request.payload, request.updatedAtUnixMs⟩)
    operationKinds := Function.update v.operationKinds request.operationId (some .single)
    transactions := Function.update v.transactions request.operationId
      (some ⟨TransactionFingerprint.fromRequest cfg request, revision, request.result⟩) }

/-- Write every record of a transaction. -/
def writeRecords (writes : List TransactionalRecordWrite) : StoreView D :=
  { v with snapshots := insertAll (·.record) v.snapshots (writes.map (·.committed)) }

/-- For a normalised request with normalised effects. -/
def commitRecords (request : MultiRecordTransactionalWrite) (effects : CommitEffects) :
    StoreView D :=
  { v.writeRecords request.writes with
    operationKinds := Function.update v.operationKinds request.operationId (some .multi)
    identifiers := v.identifiers.insertEffects effects
    multiTransactions := Function.update v.multiTransactions request.operationId
      (some ⟨effects, MultiTransactionFingerprint.fromRequest cfg request,
        request.writes.map (·.receipt), request.result⟩) }

/-- For a normalised request. -/
def applyTrade (request : TradeTransaction) : StoreView D :=
  { v.writeRecords request.writes with
    operationKinds := Function.update v.operationKinds request.operationId (some .trade)
    trades := Function.update v.trades request.transition.tradeId
      (some (request.transition.envelope (request.transition.expectedVersion + 1)))
    identifiers := v.identifiers.insertTrade request
    tradeTransactions := Function.update v.tradeTransactions request.operationId
      (some ⟨request, request.appliedReceipt⟩) }

end StoreView

/-! ### Normalised multi-record requests -/

theorem normalizeMulti_ok {request normal : MultiRecordTransactionalWrite}
    (h : normalizeMulti request = .ok normal) :
    blank request.operationId = false ∧ request.writes ≠ [] ∧
      (request.writes.map (·.record)).Nodup ∧
      normal = { request with writes := sortOn (·.record) request.writes } := by
  rw [normalizeMulti] at h
  split at h
  · exact absurd h (by simp)
  · rename_i hblank
    split at h
    · exact absurd h (by simp)
    · rename_i hempty
      obtain ⟨_, hdistinct, h⟩ := Checks.bind_eq_ok.mp h
      exact ⟨by simpa using hblank, by simpa using hempty, checkDistinctRecords_ok.mp hdistinct,
        (Except.ok.inj h).symm⟩

/-- A permutation of an accepted request is accepted, with the same result. -/
theorem normalizeMulti_perm {request normal : MultiRecordTransactionalWrite}
    {writes : List TransactionalRecordWrite} (h : normalizeMulti request = .ok normal)
    (hperm : writes.Perm request.writes) :
    normalizeMulti { request with writes } = .ok normal := by
  obtain ⟨-, -, hdistinct, -⟩ := normalizeMulti_ok h
  have hempty : writes.isEmpty = request.writes.isEmpty := by
    rw [Bool.eq_iff_iff, List.isEmpty_iff, List.isEmpty_iff, ← List.length_eq_zero_iff,
      hperm.length_eq, List.length_eq_zero_iff]
  rw [← h, normalizeMulti, normalizeMulti, hempty, ← sortOn_eq_of_perm hperm.symm hdistinct]

section Specs

variable {D : Type} {cfg : MemoryConfig D}

/-- Digests that agree on the writes of two transactions make them equal. -/
theorem map_fromWrite_injective :
    ∀ {l₁ l₂ : List TransactionalRecordWrite},
      (∀ w ∈ l₁, ∀ w' ∈ l₂, cfg.digest w.payload = cfg.digest w'.payload →
        w.payload = w'.payload) →
      l₁.map (TransactionalRecordFingerprint.fromWrite cfg)
        = l₂.map (TransactionalRecordFingerprint.fromWrite cfg) → l₁ = l₂
  | [], [], _, _ => rfl
  | [], _ :: _, _, h => by simp at h
  | _ :: _, [], _, h => by simp at h
  | w :: l₁, w' :: l₂, hinj, h => by
    rw [List.map_cons, List.map_cons, List.cons.injEq] at h
    obtain ⟨hhead, htail⟩ := h
    simp only [TransactionalRecordFingerprint.fromWrite,
      TransactionalRecordFingerprint.mk.injEq] at hhead
    obtain ⟨h1, h2, h3, h4, hdigest, h6⟩ := hhead
    have hpayload := hinj w (List.mem_cons_self ..) w' (List.mem_cons_self ..) hdigest
    have hw : w = w' := by
      cases w
      cases w'
      simp_all
    rw [hw, map_fromWrite_injective (fun a ha a' ha' =>
      hinj a (List.mem_cons_of_mem _ ha) a' (List.mem_cons_of_mem _ ha')) htail]

@[simp] theorem failStore_run {α : Type} (e : StoreError) (b : MemoryBackend cfg) :
    (failStore e : MemoryM cfg α).run b = .error (.store e) b := rfl

@[simp] theorem failStore_bind {α β : Type} (e : StoreError) (f : α → MemoryM cfg β)
    (b : MemoryBackend cfg) :
    ((failStore e : MemoryM cfg α) >>= f).run b = .error (.store e) b := rfl

@[simp] theorem check_ok {α : Type} (a : α) : (check (.ok a) : MemoryM cfg α) = pure a := rfl

@[simp] theorem check_error {α : Type} (e : StoreError) :
    (check (.error e) : MemoryM cfg α) = failStore e := rfl

/-! ### The loops over the record writes -/

theorem mem_lockDataShards {writes : List TransactionalRecordWrite}
    {write : TransactionalRecordWrite} (h : write ∈ writes) :
    dataIndex cfg write.record ∈ lockDataShards cfg writes :=
  List.mem_dedup.mpr (mem_sortOn.mpr (List.mem_map.mpr ⟨write, h, rfl⟩))

theorem lockedShard_run {guards : List (Fin cfg.shards)} {record : RecordKey}
    (h : dataIndex cfg record ∈ guards) (b : MemoryBackend cfg) :
    (lockedShard guards record).run b = .ok (dataIndex cfg record) b := by
  rw [lockedShard]
  cases hfind : guards.find? (fun candidate => candidate = dataIndex cfg record) with
  | none => exact absurd (List.find?_eq_none.mp hfind _ h) (by simp)
  | some index =>
    have hindex : index = dataIndex cfg record := by simpa using List.find?_some hfind
    rw [hindex]
    rfl

/-- The compare-and-set loop writes nothing; it passes when every record has the
expected revision. -/
theorem compareRevisions_spec (b : MemoryBackend cfg) (guards : List (Fin cfg.shards)) :
    ∀ writes : List TransactionalRecordWrite,
      (∀ write ∈ writes, dataIndex cfg write.record ∈ guards) →
      (∃ e, (compareRevisions guards writes).run b = .error (.store e) b) ∨
      ((compareRevisions guards writes).run b = .ok (writes.map (·.receipt)) b ∧
        ∀ write ∈ writes, b.view.revision write.record = write.expectedRevision) := by
  intro writes
  induction writes with
  | nil =>
    intro _
    exact Or.inr ⟨rfl, by simp⟩
  | cons write rest ih =>
    intro hguards
    have hlock := lockedShard_run (hguards write (List.mem_cons_self ..)) b
    rw [compareRevisions, bind_run_ok hlock, get_bind]
    generalize hactual : (b.dataShards (dataIndex cfg write.record)).revision write.record = actual
    by_cases hrev : actual = write.expectedRevision
    · rw [if_neg (not_not_intro hrev)]
      cases hnext : Revision.next actual with
      | none => exact Or.inl ⟨_, rfl⟩
      | some newRevision =>
        obtain ⟨-, rfl⟩ := Revision.next_eq_some.mp hnext
        rcases ih (fun w hw => hguards w (List.mem_cons_of_mem _ hw)) with ⟨e, he⟩ | ⟨hok, hall⟩
        · exact Or.inl ⟨e, bind_run_error he⟩
        · refine Or.inr ⟨?_, ?_⟩
          · rw [hrev]
            exact bind_run_ok hok
          · intro w hw
            rcases List.mem_cons.mp hw with rfl | hw
            · exact hactual.trans hrev
            · exact hall w hw
    · rw [if_pos hrev]
      exact Or.inl ⟨_, failStore_bind ..⟩

theorem storeSnapshots_spec (guards : List (Fin cfg.shards)) :
    ∀ (writes : List TransactionalRecordWrite) (b : MemoryBackend cfg),
      (∀ write ∈ writes, dataIndex cfg write.record ∈ guards) →
      ∃ b', (storeSnapshots guards (writes.zip (writes.map (·.receipt)))).run b = .ok () b' ∧
        b'.view = b.view.writeRecords writes := by
  intro writes
  induction writes with
  | nil =>
    intro b _
    exact ⟨b, rfl, rfl⟩
  | cons write rest ih =>
    intro b hguards
    have hlock := lockedShard_run (hguards write (List.mem_cons_self ..)) b
    obtain ⟨b', hrun, hview⟩ := ih (b.insertSnapshot write.committed)
      fun w hw => hguards w (List.mem_cons_of_mem _ hw)
    refine ⟨b', ?_, ?_⟩
    · rw [List.map_cons, List.zip_cons_cons, storeSnapshots, bind_run_ok hlock, modify_bind]
      exact hrun
    · rw [hview, view_insertSnapshot]
      rfl

theorem claimOperation_ok {b : MemoryBackend cfg} {operationId : String} {kind : OperationKind}
    (h : claimOperation (b.receiptShards (receiptIndex cfg operationId)) operationId kind = .ok ()) :
    ∀ existing, b.view.operationKinds operationId = some existing → existing = kind := by
  intro existing hexisting
  change (b.receiptShards (receiptIndex cfg operationId)).operationKinds operationId
    = some existing at hexisting
  rw [claimOperation, hexisting] at h
  by_contra hne
  simp only [ne_eq, hne, not_false_eq_true, if_true] at h
  exact absurd h (by simp)

theorem claimOperation_self {b : MemoryBackend cfg} {operationId : String} {kind : OperationKind}
    (h : b.view.operationKinds operationId = some kind) :
    claimOperation (b.receiptShards (receiptIndex cfg operationId)) operationId kind = .ok () := by
  change (b.receiptShards (receiptIndex cfg operationId)).operationKinds operationId
    = some kind at h
  rw [claimOperation, h]
  exact if_neg (not_not_intro rfl)

theorem claimOperation_other {b : MemoryBackend cfg} {operationId : String}
    {kind existing : OperationKind} (h : b.view.operationKinds operationId = some existing)
    (hne : existing ≠ kind) :
    claimOperation (b.receiptShards (receiptIndex cfg operationId)) operationId kind
      = .error (.operationIdConflict operationId) := by
  change (b.receiptShards (receiptIndex cfg operationId)).operationKinds operationId
    = some existing at h
  rw [claimOperation, h]
  exact if_pos hne

/-! ### Case analyses -/

variable [DecidableEq D] (b : MemoryBackend cfg)

theorem save_cases (request : SnapshotWrite) :
    (∃ e, (save request).run b = .error (.store e) b) ∨
    (∃ revision, (save request).run b = .ok (.duplicate revision) b) ∨
    (∃ b', (save request).run b = .ok (.applied (b.view.revision request.record + 1)) b' ∧
      (∀ e, request.expectedRevision = some e → b.view.revision request.record = e) ∧
      b.view.snapshotReceipts request.requestId = none ∧ b'.view = b.view.save cfg request) := by
  rw [save]
  by_cases hblank : blank request.requestId = true
  · rw [if_pos hblank]
    exact Or.inl ⟨_, failStore_bind ..⟩
  rw [if_neg hblank, get_bind]
  dsimp only
  cases hreceipt : (b.receiptShards (receiptIndex cfg request.requestId)).snapshots
      request.requestId with
  | some receipt =>
    dsimp only
    by_cases hdiff : receipt.record ≠ request.record ∨
        receipt.fingerprint ≠ SnapshotFingerprint.fromRequest cfg request
    · rw [if_pos hdiff]
      exact Or.inl ⟨_, failStore_bind ..⟩
    · rw [if_neg hdiff]
      exact Or.inr (Or.inl ⟨_, rfl⟩)
  | none =>
    dsimp only
    rw [get_bind]
    generalize hactual :
      (b.dataShards (dataIndex cfg request.record)).revision request.record = actual
    by_cases hrev : request.expectedRevision.any (· ≠ actual) = true
    · rw [if_pos hrev]
      exact Or.inl ⟨_, failStore_bind ..⟩
    · rw [if_neg hrev]
      cases hnext : Revision.next actual with
      | none => exact Or.inl ⟨_, rfl⟩
      | some newRevision =>
        obtain ⟨-, rfl⟩ := Revision.next_eq_some.mp hnext
        have hactual' : b.view.revision request.record = actual := hactual
        refine Or.inr (Or.inr ⟨_, by rw [hactual']; rfl, ?_, hreceipt, ?_⟩)
        · intro e he
          rw [he] at hrev
          have heq : e = actual := by simpa using hrev
          rw [hactual', heq]
        · rw [view_insertSnapshotReceipt, view_insertSnapshot, StoreView.save, hactual']

theorem applyTransaction_cases (request : TransactionalWrite) :
    (∃ e, (applyTransaction request).run b = .error (.store e) b) ∨
    (∃ revision result, (applyTransaction request).run b = .ok (.duplicate revision result) b) ∨
    (∃ b', (applyTransaction request).run b =
        .ok (.applied (request.expectedRevision + 1) request.result) b' ∧
      b.view.revision request.record = request.expectedRevision ∧
      (∀ kind, b.view.operationKinds request.operationId = some kind → kind = .single) ∧
      b.view.transactions request.operationId = none ∧
      b'.view = b.view.applyTransaction cfg request) := by
  rw [applyTransaction]
  by_cases hblank : blank request.operationId = true
  · rw [if_pos hblank]
    exact Or.inl ⟨_, failStore_bind ..⟩
  rw [if_neg hblank, get_bind]
  dsimp only
  cases hclaim : claimOperation (b.receiptShards (receiptIndex cfg request.operationId))
      request.operationId .single with
  | error e => exact Or.inl ⟨e, rfl⟩
  | ok =>
    rw [check_ok, pure_bind_run]
    cases hreceipt : (b.receiptShards (receiptIndex cfg request.operationId)).transactions
        request.operationId with
    | some receipt =>
      dsimp only
      by_cases hdiff : receipt.fingerprint ≠ TransactionFingerprint.fromRequest cfg request
      · rw [if_pos hdiff]
        exact Or.inl ⟨_, failStore_bind ..⟩
      · rw [if_neg hdiff]
        exact Or.inr (Or.inl ⟨_, _, rfl⟩)
    | none =>
      dsimp only
      rw [get_bind]
      generalize hactual :
        (b.dataShards (dataIndex cfg request.record)).revision request.record = actual
      by_cases hrev : actual = request.expectedRevision
      · rw [if_neg (not_not_intro hrev), hrev]
        cases hnext : Revision.next request.expectedRevision with
        | none => exact Or.inl ⟨_, rfl⟩
        | some newRevision =>
          obtain ⟨-, rfl⟩ := Revision.next_eq_some.mp hnext
          refine Or.inr (Or.inr ⟨_, rfl, hactual.trans hrev, claimOperation_ok hclaim, hreceipt, ?_⟩)
          rw [view_insertTransaction, view_insertOperationKind, view_insertSnapshot]
          rfl
      · rw [if_pos hrev]
        exact Or.inl ⟨_, failStore_bind ..⟩

/-- The checks on identifiers pass when every id is new. -/
private theorem forM_ite_eq_ok {α : Type} {p : α → Prop} [DecidablePred p] {e : α → StoreError}
    {l : List α} (h : (l.forM fun a => if p a then Except.error (e a) else .ok ()) = .ok ()) :
    ∀ a ∈ l, ¬ p a := by
  intro a ha hp
  have hcheck := Checks.forM_eq_ok.mp h a ha
  rw [if_pos hp] at hcheck
  cases hcheck

theorem checkEffectIds_ok {ids : TradeIdentifiers} {effects : CommitEffects}
    (h : checkEffectIds ids effects = .ok ()) :
    (∀ append ∈ effects.appends, ids.appends append.record = none) ∧
      ∀ event ∈ effects.outboxEvents, event.eventId ∉ ids.outboxEventIds := by
  obtain ⟨_, happends, hevents⟩ := Checks.bind_eq_ok.mp h
  refine ⟨fun append happend => ?_, forM_ite_eq_ok hevents⟩
  simpa using forM_ite_eq_ok happends append happend

theorem checkTradeIds_ok {ids : TradeIdentifiers} {request : TradeTransaction}
    (h : checkTradeIds ids request = .ok ()) :
    (∀ posting ∈ request.ledgerPostings, posting.postingId ∉ ids.ledgerPostingIds) ∧
      ∀ event ∈ request.outboxEvents, event.eventId ∉ ids.outboxEventIds := by
  obtain ⟨_, hpostings, hevents⟩ := Checks.bind_eq_ok.mp h
  exact ⟨forM_ite_eq_ok hpostings, forM_ite_eq_ok hevents⟩

theorem checkTradeState_ok {current : Option TradeEnvelope} {transition : TradeTransition}
    (h : checkTradeState current transition = .ok ()) :
    (current.map (·.version)).getD 0 = transition.expectedVersion ∧
      current.map (·.state) = transition.expectedState := by
  rw [checkTradeState] at h
  split at h
  · exact absurd h (by simp)
  · rename_i hversion
    split at h
    · exact absurd h (by simp)
    · rename_i hstate
      exact ⟨not_not.mp hversion, not_not.mp hstate⟩

@[simp] theorem insertEffects_of_isEmpty {ids : TradeIdentifiers} {effects : CommitEffects}
    (h : effects.isEmpty = true) : ids.insertEffects effects = ids := by
  rw [CommitEffects.isEmpty, Bool.and_eq_true, List.isEmpty_iff, List.isEmpty_iff] at h
  simp [TradeIdentifiers.insertEffects, h.1, h.2]

theorem commitRecords_cases (request : MultiRecordTransactionalWrite) (effects : CommitEffects) :
    (∃ e, (commitRecords request effects).run b = .error (.store e) b) ∨
    (∃ records result, (commitRecords request effects).run b = .ok (.duplicate records result) b) ∨
    (∃ b' normal normalEffects,
      normalizeMulti request = .ok normal ∧
      effects.normalize cfg.decodeEnvelope = .ok normalEffects ∧
      (commitRecords request effects).run b =
        .ok (.applied (normal.writes.map (·.receipt)) normal.result) b' ∧
      (∀ write ∈ normal.writes, b.view.revision write.record = write.expectedRevision) ∧
      (∀ append ∈ normalEffects.appends, b.view.identifiers.appends append.record = none) ∧
      (∀ event ∈ normalEffects.outboxEvents, event.eventId ∉ b.view.identifiers.outboxEventIds) ∧
      (∀ kind, b.view.operationKinds normal.operationId = some kind → kind = .multi) ∧
      b.view.multiTransactions normal.operationId = none ∧
      b'.view = b.view.commitRecords cfg normal normalEffects) := by
  rw [commitRecords]
  cases heffects : effects.normalize cfg.decodeEnvelope with
  | error e => exact Or.inl ⟨e, rfl⟩
  | ok normalEffects =>
  cases hnormal : normalizeMulti request with
  | error e => exact Or.inl ⟨e, rfl⟩
  | ok normal =>
  rw [check_ok, pure_bind_run, check_ok, pure_bind_run, get_bind]
  dsimp only
  -- another kind of operation may own the id
  cases hclaim : claimOperation (b.receiptShards (receiptIndex cfg normal.operationId))
      normal.operationId .multi with
  | error e => exact Or.inl ⟨e, rfl⟩
  | ok =>
    rw [check_ok, pure_bind_run]
    cases hreceipt : (b.receiptShards (receiptIndex cfg normal.operationId)).multiTransactions
        normal.operationId with
    | some receipt =>
      dsimp only
      -- a retry: the receipt decides
      by_cases hdiff : receipt.fingerprint ≠ MultiTransactionFingerprint.fromRequest cfg normal ∨
          receipt.effects ≠ normalEffects
      · rw [if_pos hdiff]
        exact Or.inl ⟨_, failStore_bind ..⟩
      · rw [if_neg hdiff]
        exact Or.inr (Or.inl ⟨_, _, rfl⟩)
    | none =>
      dsimp only
      have hguards : ∀ write ∈ normal.writes,
          dataIndex cfg write.record ∈ lockDataShards cfg normal.writes :=
        fun write hwrite => mem_lockDataShards hwrite
      by_cases hempty : normalEffects.isEmpty = true
      · -- without effects the identifiers are neither checked nor written
        have hnil : normalEffects.appends = [] ∧ normalEffects.outboxEvents = [] := by
          simpa [CommitEffects.isEmpty] using hempty
        simp only [hempty, Bool.not_true, Bool.false_eq_true, if_false]
        rcases compareRevisions_spec b _ normal.writes hguards with ⟨e, he⟩ | ⟨hok, hrevs⟩
        · exact Or.inl ⟨e, bind_run_error he⟩
        · obtain ⟨b', hstore, hview⟩ := storeSnapshots_spec _ normal.writes b hguards
          refine Or.inr (Or.inr ⟨_, normal, normalEffects, rfl, rfl,
            (bind_run_ok hok).trans ((bind_run_ok hstore).trans rfl), hrevs, by simp [hnil.1],
            by simp [hnil.2], claimOperation_ok hclaim, hreceipt, ?_⟩)
          rw [view_insertMultiTransaction, view_insertOperationKind, hview,
            StoreView.commitRecords, insertEffects_of_isEmpty hempty]
          rfl
      · simp only [hempty, Bool.not_false, if_true, get_bind]
        cases hids : checkEffectIds b.tradeIdentifiers normalEffects with
        | error e => exact Or.inl ⟨e, rfl⟩
        | ok =>
          rw [check_ok, pure_bind_run]
          -- with effects: their identifiers are new, and are registered
          obtain ⟨happends, hevents⟩ := checkEffectIds_ok hids
          rcases compareRevisions_spec b _ normal.writes hguards with ⟨e, he⟩ | ⟨hok, hrevs⟩
          · exact Or.inl ⟨e, bind_run_error he⟩
          · obtain ⟨b', hstore, hview⟩ := storeSnapshots_spec _ normal.writes b hguards
            refine Or.inr (Or.inr ⟨_, normal, normalEffects, rfl, rfl,
              (bind_run_ok hok).trans ((bind_run_ok hstore).trans rfl), hrevs, happends, hevents,
              claimOperation_ok hclaim, hreceipt, ?_⟩)
            rw [view_insertMultiTransaction, view_setIdentifiers, view_insertOperationKind, hview]
            have hids' : (b'.insertOperationKind normal.operationId .multi).tradeIdentifiers
                = b.view.identifiers := congrArg StoreView.identifiers hview
            rw [hids']
            rfl

omit [DecidableEq D] in
theorem applyTradeTransaction_cases (request : TradeTransaction) :
    (∃ e, (applyTradeTransaction request).run b = .error (.store e) b) ∨
    (∃ receipt, (applyTradeTransaction request).run b = .ok (.duplicate receipt) b) ∨
    (∃ b' normal,
      normalizeTradeTransaction request = .ok normal ∧
      (applyTradeTransaction request).run b = .ok (.applied normal.appliedReceipt) b' ∧
      (∀ write ∈ normal.writes, b.view.revision write.record = write.expectedRevision) ∧
      ((b.view.trades normal.transition.tradeId).map (·.version)).getD 0
        = normal.transition.expectedVersion ∧
      (b.view.trades normal.transition.tradeId).map (·.state) = normal.transition.expectedState ∧
      (∀ posting ∈ normal.ledgerPostings,
        posting.postingId ∉ b.view.identifiers.ledgerPostingIds) ∧
      (∀ event ∈ normal.outboxEvents, event.eventId ∉ b.view.identifiers.outboxEventIds) ∧
      (∀ kind, b.view.operationKinds normal.operationId = some kind → kind = .trade) ∧
      b.view.tradeTransactions normal.operationId = none ∧
      b'.view = b.view.applyTrade normal) := by
  rw [applyTradeTransaction]
  cases hnormal : normalizeTradeTransaction request with
  | error e => exact Or.inl ⟨e, rfl⟩
  | ok normal =>
  rw [check_ok, pure_bind_run, get_bind]
  dsimp only
  -- another kind of operation may own the id
  cases hclaim : claimOperation (b.receiptShards (receiptIndex cfg normal.operationId))
      normal.operationId .trade with
  | error e => exact Or.inl ⟨e, rfl⟩
  | ok =>
    rw [check_ok, pure_bind_run]
    cases hreceipt : (b.receiptShards (receiptIndex cfg normal.operationId)).tradeTransactions
        normal.operationId with
    | some stored =>
      dsimp only
      -- a retry: the receipt decides
      by_cases hdiff : stored.request ≠ normal
      · rw [if_pos hdiff]
        exact Or.inl ⟨_, failStore_bind ..⟩
      · rw [if_neg hdiff]
        exact Or.inr (Or.inl ⟨_, rfl⟩)
    | none =>
      dsimp only
      rw [get_bind]
      generalize hcurrent : (b.tradeShards (tradeIndex cfg normal.transition.tradeId)).trades
        normal.transition.tradeId = current
      cases hstate : checkTradeState current normal.transition with
      | error e => exact Or.inl ⟨e, rfl⟩
      | ok =>
      rw [check_ok, pure_bind_run, get_bind]
      cases hids : checkTradeIds b.tradeIdentifiers normal with
      | error e => exact Or.inl ⟨e, rfl⟩
      | ok =>
      rw [check_ok, pure_bind_run]
      have hcurrent' : b.view.trades normal.transition.tradeId = current := hcurrent
      obtain ⟨hversion, hstate⟩ := checkTradeState_ok hstate
      obtain ⟨hpostings, hevents⟩ := checkTradeIds_ok hids
      have hguards : ∀ write ∈ normal.writes,
          dataIndex cfg write.record ∈ lockDataShards cfg normal.writes :=
        fun write hwrite => mem_lockDataShards hwrite
      -- everything is checked before anything is written
      rcases compareRevisions_spec b _ normal.writes hguards with ⟨e, he⟩ | ⟨hok, hrevs⟩
      · exact Or.inl ⟨e, bind_run_error he⟩
      · rw [bind_run_ok hok, hversion]
        cases hnext : Revision.next normal.transition.expectedVersion with
        | none => exact Or.inl ⟨_, rfl⟩
        | some newVersion =>
          obtain ⟨-, rfl⟩ := Revision.next_eq_some.mp hnext
          obtain ⟨b', hstore, hview⟩ := storeSnapshots_spec _ normal.writes b hguards
          refine Or.inr (Or.inr ⟨_, normal, rfl, (bind_run_ok hstore).trans rfl, hrevs, ?_, ?_,
            hpostings, hevents, claimOperation_ok hclaim, hreceipt, ?_⟩)
          · rw [hcurrent', hversion]
          · rw [hcurrent', hstate]
          · rw [view_insertTradeTransaction, view_insertOperationKind, view_setIdentifiers,
              view_insertTrade, hview]
            have hids' : (b'.insertTrade (normal.transition.envelope
                (normal.transition.expectedVersion + 1))).tradeIdentifiers
                = b.view.identifiers := congrArg StoreView.identifiers hview
            rw [hids']
            rfl

/-! ### Operation ids that are already claimed -/

variable {b}

theorem applyTransaction_conflict {request : TransactionalWrite} {kind : OperationKind}
    (hblank : blank request.operationId = false)
    (hkind : b.view.operationKinds request.operationId = some kind) (hne : kind ≠ .single) :
    (applyTransaction request).run b
      = .error (.store (.operationIdConflict request.operationId)) b := by
  rw [applyTransaction, if_neg (by simp [hblank]), get_bind]
  dsimp only
  rw [claimOperation_other hkind hne]
  rfl

theorem applyTransaction_replay {request : TransactionalWrite}
    {receipt : StoredTransactionReceipt D} (hblank : blank request.operationId = false)
    (hkind : b.view.operationKinds request.operationId = some .single)
    (hreceipt : b.view.transactions request.operationId = some receipt) :
    (applyTransaction request).run b =
      if receipt.fingerprint = TransactionFingerprint.fromRequest cfg request then
        .ok (.duplicate receipt.newRevision receipt.result) b
      else .error (.store (.operationIdConflict request.operationId)) b := by
  change (b.receiptShards (receiptIndex cfg request.operationId)).transactions
    request.operationId = some receipt at hreceipt
  rw [applyTransaction, if_neg (by simp [hblank]), get_bind]
  dsimp only
  rw [claimOperation_self hkind, check_ok, pure_bind_run, hreceipt]
  dsimp only
  by_cases hsame : receipt.fingerprint = TransactionFingerprint.fromRequest cfg request
  · rw [if_neg (not_not_intro hsame), if_pos hsame]
    rfl
  · rw [if_pos hsame, if_neg hsame]
    rfl

theorem commitRecords_conflict {request normal : MultiRecordTransactionalWrite}
    {effects normalEffects : CommitEffects} {kind : OperationKind}
    (heffects : effects.normalize cfg.decodeEnvelope = .ok normalEffects)
    (hnormal : normalizeMulti request = .ok normal)
    (hkind : b.view.operationKinds normal.operationId = some kind) (hne : kind ≠ .multi) :
    (commitRecords request effects).run b
      = .error (.store (.operationIdConflict normal.operationId)) b := by
  rw [commitRecords, heffects, hnormal, check_ok, pure_bind_run, check_ok, pure_bind_run, get_bind]
  dsimp only
  rw [claimOperation_other hkind hne]
  rfl

theorem commitRecords_replay {request normal : MultiRecordTransactionalWrite}
    {effects normalEffects : CommitEffects} {receipt : StoredMultiTransactionReceipt D}
    (heffects : effects.normalize cfg.decodeEnvelope = .ok normalEffects)
    (hnormal : normalizeMulti request = .ok normal)
    (hkind : b.view.operationKinds normal.operationId = some .multi)
    (hreceipt : b.view.multiTransactions normal.operationId = some receipt) :
    (commitRecords request effects).run b =
      if receipt.fingerprint = MultiTransactionFingerprint.fromRequest cfg normal ∧
          receipt.effects = normalEffects then
        .ok (.duplicate receipt.records receipt.result) b
      else .error (.store (.operationIdConflict normal.operationId)) b := by
  change (b.receiptShards (receiptIndex cfg normal.operationId)).multiTransactions
    normal.operationId = some receipt at hreceipt
  rw [commitRecords, heffects, hnormal, check_ok, pure_bind_run, check_ok, pure_bind_run, get_bind]
  dsimp only
  rw [claimOperation_self hkind, check_ok, pure_bind_run, hreceipt]
  dsimp only
  by_cases hsame : receipt.fingerprint = MultiTransactionFingerprint.fromRequest cfg normal ∧
      receipt.effects = normalEffects
  · rw [if_neg (by simp [hsame]), if_pos hsame]
    rfl
  · rw [if_pos (by rwa [Ne, Ne, ← not_and_or]), if_neg hsame]
    rfl

omit [DecidableEq D] in
theorem applyTradeTransaction_conflict {request normal : TradeTransaction} {kind : OperationKind}
    (hnormal : normalizeTradeTransaction request = .ok normal)
    (hkind : b.view.operationKinds normal.operationId = some kind) (hne : kind ≠ .trade) :
    (applyTradeTransaction request).run b
      = .error (.store (.operationIdConflict normal.operationId)) b := by
  rw [applyTradeTransaction, hnormal, check_ok, pure_bind_run, get_bind]
  dsimp only
  rw [claimOperation_other hkind hne]
  rfl

omit [DecidableEq D] in
theorem applyTradeTransaction_replay {request normal : TradeTransaction}
    {stored : StoredTradeTransactionReceipt}
    (hnormal : normalizeTradeTransaction request = .ok normal)
    (hkind : b.view.operationKinds normal.operationId = some .trade)
    (hstored : b.view.tradeTransactions normal.operationId = some stored) :
    (applyTradeTransaction request).run b =
      if stored.request = normal then .ok (.duplicate stored.receipt) b
      else .error (.store (.operationIdConflict normal.operationId)) b := by
  change (b.receiptShards (receiptIndex cfg normal.operationId)).tradeTransactions
    normal.operationId = some stored at hstored
  rw [applyTradeTransaction, hnormal, check_ok, pure_bind_run, get_bind]
  dsimp only
  rw [claimOperation_self hkind, check_ok, pure_bind_run, hstored]
  dsimp only
  by_cases hsame : stored.request = normal
  · rw [if_neg (not_not_intro hsame), if_pos hsame]
    rfl
  · rw [if_pos hsame, if_neg hsame]
    rfl

end Specs

end DbProxy
