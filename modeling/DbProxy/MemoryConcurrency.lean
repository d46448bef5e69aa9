/-
Concurrent requests on the volatile backend.

`exec_requestProgram` connects the lock programs with the methods of the backend,
`requestProgram_ascending` gives their lock order.  With them the results on lock
programs say of the backend: any interleaving of requests is a sequence of calls
(`memory_serializable`), and some unfinished request can always go on.
-/
import DbProxy.MemoryLocks
import DbProxy.MemoryRuns
import DbProxy.ShardTransparency

namespace DbProxy

open Text EarlyReturn MemoryBackend LockSystem StepMachine

section Contents

variable {D : Type} {cfg : MemoryConfig D}

/-! ### Shards and locks -/

theorem ofContents_contents (b : MemoryBackend cfg) : ofContents b.contents = b := rfl

theorem contents_updateReceipts (b : MemoryBackend cfg) (operationId : String)
    (f : ReceiptShard D → ReceiptShard D) :
    (b.updateReceipts operationId f).contents =
      Function.update b.contents (.receipt (receiptIndex cfg operationId))
        (f (b.receiptShards (receiptIndex cfg operationId))) := by
  funext l
  cases l with
  | receipt i =>
    by_cases hi : i = receiptIndex cfg operationId
    · subst hi
      rw [Function.update_self]
      exact Function.update_self ..
    · rw [Function.update_of_ne (by simpa using hi)]
      exact Function.update_of_ne hi ..
  | identifiers => rfl
  | trade i => rfl
  | data i => rfl

/-- Two updates of one receipt shard. -/
theorem updateReceipts_twice (b : MemoryBackend cfg) (operationId : String)
    (f g : ReceiptShard D → ReceiptShard D) :
    (b.updateReceipts operationId f).updateReceipts operationId g =
      b.updateReceipts operationId fun receipts => g (f receipts) := by
  simp only [updateReceipts, Function.update_self, Function.update_idem]

theorem contents_insertSnapshot (b : MemoryBackend cfg) (snapshot : SnapshotEnvelope) :
    (b.insertSnapshot snapshot).contents =
      Function.update b.contents (.data (dataIndex cfg snapshot.record))
        ⟨Function.update (b.dataShards (dataIndex cfg snapshot.record)).snapshots snapshot.record
          (some snapshot)⟩ := by
  funext l
  cases l with
  | data i =>
    by_cases hi : i = dataIndex cfg snapshot.record
    · subst hi
      rw [Function.update_self]
      exact Function.update_self ..
    · rw [Function.update_of_ne (by simpa using hi)]
      exact Function.update_of_ne hi ..
  | identifiers => rfl
  | trade i => rfl
  | receipt i => rfl

theorem contents_insertTrade (b : MemoryBackend cfg) (trade : TradeEnvelope) :
    (b.insertTrade trade).contents =
      Function.update b.contents (.trade (tradeIndex cfg trade.tradeId))
        ⟨Function.update (b.tradeShards (tradeIndex cfg trade.tradeId)).trades trade.tradeId
          (some trade)⟩ := by
  funext l
  cases l with
  | trade i =>
    by_cases hi : i = tradeIndex cfg trade.tradeId
    · subst hi
      rw [Function.update_self]
      exact Function.update_self ..
    · rw [Function.update_of_ne (by simpa using hi)]
      exact Function.update_of_ne hi ..
  | identifiers => rfl
  | data i => rfl
  | receipt i => rfl

def MemoryBackend.setIdentifiers (b : MemoryBackend cfg) (ids : TradeIdentifiers) :
    MemoryBackend cfg :=
  { b with tradeIdentifiers := ids }

theorem contents_setIdentifiers (b : MemoryBackend cfg) (ids : TradeIdentifiers) :
    (b.setIdentifiers ids).contents = Function.update b.contents .identifiers ids := by
  funext l
  cases l with
  | identifiers =>
    rw [Function.update_self]
    rfl
  | data i => rfl
  | trade i => rfl
  | receipt i => rfl

/-! ### Lock programs and methods -/

/-- With the locks `held` and nobody else around, the rest `x` of a lock program
ends as the method did. -/
def RunsAs {α : Type} (b : MemoryBackend cfg) (held : List (MemoryLock cfg.shards))
    (x : LockM cfg (α × MemoryWrites cfg)) :
    EStateM.Result Failure (MemoryBackend cfg) α → Prop
  | .ok a b' => ∃ writes held', walk b.contents held x.run = (.ok (a, writes), held') ∧
      commit held' writes b.contents = b'.contents
  | .error e b' => b' = b ∧ ∃ held', walk b.contents held x.run = (.error e, held')

namespace RunsAs

variable {α β : Type} {b : MemoryBackend cfg} {held : List (MemoryLock cfg.shards)}

theorem fail (e : StoreError) {f : PUnit → LockM cfg (α × MemoryWrites cfg)}
    {g : PUnit → MemoryM cfg α} :
    RunsAs b held (throw (.store e) >>= f) ((failStore e >>= g).run b) := ⟨rfl, held, rfl⟩

theorem acquire {l : MemoryLock cfg.shards} {f : l.Content D → LockM cfg (α × MemoryWrites cfg)}
    {r : EStateM.Result Failure (MemoryBackend cfg) α}
    (h : RunsAs b (l :: held) (f (b.contents l)) r) :
    RunsAs b held (DbProxy.acquire l >>= f) r := h

theorem ite {c : Prop} [Decidable c] {x y : LockM cfg (α × MemoryWrites cfg)}
    {x' y' : MemoryM cfg α} (hx : c → RunsAs b held x (x'.run b))
    (hy : ¬ c → RunsAs b held y (y'.run b)) :
    RunsAs b held (if c then x else y) ((if c then x' else y').run b) := by
  by_cases hc : c
  · rw [if_pos hc, if_pos hc]
    exact hx hc
  · rw [if_neg hc, if_neg hc]
    exact hy hc

theorem checked {x : Except StoreError β} {f : β → LockM cfg (α × MemoryWrites cfg)}
    {g : β → MemoryM cfg α} (h : ∀ a, x = .ok a → RunsAs b held (f a) ((g a).run b)) :
    RunsAs b held (DbProxy.checked x >>= f) ((check x >>= g).run b) := by
  cases x with
  | error e => exact ⟨rfl, held, rfl⟩
  | ok a => exact h a rfl

/-- The last step: nothing is written. -/
theorem value (a : α) : RunsAs b held (pure (a, [])) ((pure a : MemoryM cfg α).run b) :=
  ⟨[], held, rfl, rfl⟩

end RunsAs

variable (b : MemoryBackend cfg)

theorem load_runsAs (record : RecordKey) :
    RunsAs b [] (lockLoad record) ((load record).run b) :=
  ⟨[], [.data (dataIndex cfg record)], rfl, rfl⟩

variable [DecidableEq D]

theorem save_runsAs (request : SnapshotWrite) :
    RunsAs b [] (lockSave request) ((save request).run b) := by
  rw [lockSave, save]
  refine RunsAs.ite (fun _ => RunsAs.fail _) fun _ => RunsAs.acquire ?_
  rw [get_bind]
  dsimp only [contents]
  cases (b.receiptShards (receiptIndex cfg request.requestId)).snapshots request.requestId with
  | some receipt => exact RunsAs.ite (fun _ => RunsAs.fail _) fun _ => RunsAs.value _
  | none =>
    refine RunsAs.acquire ?_
    dsimp only
    rw [get_bind]
    refine RunsAs.ite (fun _ => RunsAs.fail _) fun _ => ?_
    dsimp only [contents]
    cases ((b.dataShards (dataIndex cfg request.record)).revision request.record).next with
    | none => exact ⟨rfl, _, rfl⟩
    | some revision =>
      refine ⟨_, _, rfl, ?_⟩
      show _ = ((b.insertSnapshot _).insertSnapshotReceipt _ _).contents
      rw [commit_of_held (by simp), insertSnapshotReceipt, contents_updateReceipts,
        contents_insertSnapshot]
      rfl

theorem applyTransaction_runsAs (request : TransactionalWrite) :
    RunsAs b [] (lockApplyTransaction request) ((applyTransaction request).run b) := by
  rw [lockApplyTransaction, applyTransaction]
  refine RunsAs.ite (fun _ => RunsAs.fail _) fun _ => RunsAs.acquire ?_
  rw [get_bind]
  refine RunsAs.checked fun _ _ => ?_
  dsimp only [contents]
  cases (b.receiptShards (receiptIndex cfg request.operationId)).transactions
      request.operationId with
  | some receipt => exact RunsAs.ite (fun _ => RunsAs.fail _) fun _ => RunsAs.value _
  | none =>
    refine RunsAs.acquire ?_
    dsimp only
    rw [get_bind]
    refine RunsAs.ite (fun _ => RunsAs.fail _) fun _ => ?_
    dsimp only [contents]
    cases ((b.dataShards (dataIndex cfg request.record)).revision request.record).next with
    | none => exact ⟨rfl, _, rfl⟩
    | some revision =>
      refine ⟨_, _, rfl, ?_⟩
      show _ = (((b.insertSnapshot _).insertOperationKind _ _).insertTransaction _ _).contents
      rw [commit_of_held (by simp), insertTransaction, insertOperationKind, updateReceipts_twice,
        contents_updateReceipts, contents_insertSnapshot]
      rfl

/-! ### The loops over the data shards -/

omit [DecidableEq D] in
/-- The guards of the shards `indices`, as they are in `b`. -/
def guardsOf (b : MemoryBackend cfg) (indices : List (Fin cfg.shards)) :
    List (Fin cfg.shards × MemoryShard) :=
  indices.map fun i => (i, b.dataShards i)

omit [DecidableEq D] in
theorem walk_acquireShards {α : Type} (b : MemoryBackend cfg)
    (f : List (Fin cfg.shards × MemoryShard) → LockM cfg α) :
    ∀ (indices : List (Fin cfg.shards)) (held : List (MemoryLock cfg.shards)),
      walk b.contents held (acquireShards indices >>= f).run =
        walk b.contents ((indices.map .data).reverse ++ held) (f (guardsOf b indices)).run := by
  intro indices
  induction indices generalizing f with
  | nil =>
    intro held
    rfl
  | cons index rest ih =>
    intro held
    have hrest := ih (fun guards => f ((index, b.dataShards index) :: guards))
      (.data index :: held)
    rw [List.map_cons, List.reverse_cons, List.append_assoc, List.singleton_append]
    refine Eq.trans ?_ hrest
    rw [acquireShards]
    simp only [bind_assoc, pure_bind]
    rfl

omit [DecidableEq D] in
theorem findGuard_guardsOf (b : MemoryBackend cfg) {indices : List (Fin cfg.shards)}
    {record : RecordKey} (h : dataIndex cfg record ∈ indices) :
    findGuard (guardsOf b indices) record = .ok (b.dataShards (dataIndex cfg record)) := by
  rw [findGuard]
  cases hfind : (guardsOf b indices).find? fun guard => guard.1 = dataIndex cfg record with
  | none =>
    have hmem : (dataIndex cfg record, b.dataShards (dataIndex cfg record)) ∈ guardsOf b indices :=
      List.mem_map.mpr ⟨_, h, rfl⟩
    exact absurd (List.find?_eq_none.mp hfind _ hmem) (by simp)
  | some guard =>
    have hguard : guard.1 = dataIndex cfg record := by simpa using List.find?_some hfind
    obtain ⟨i, -, rfl⟩ := List.mem_map.mp (List.mem_of_find?_eq_some hfind)
    obtain rfl : i = dataIndex cfg record := hguard
    rfl

omit [DecidableEq D] in
theorem lookupGuards_guardsOf (b : MemoryBackend cfg) {indices : List (Fin cfg.shards)} :
    ∀ records : List RecordKey, (∀ record ∈ records, dataIndex cfg record ∈ indices) →
      lookupGuards (guardsOf b indices) records = .ok (records.map b.view.snapshots) := by
  intro records
  induction records with
  | nil =>
    intro _
    rfl
  | cons record rest ih =>
    intro hindices
    rw [lookupGuards, findGuard_guardsOf b (hindices record (List.mem_cons_self ..)),
      ih fun r hr => hindices r (List.mem_cons_of_mem _ hr)]
    rfl

omit [DecidableEq D] in
theorem compareGuards_guardsOf (b : MemoryBackend cfg) {indices : List (Fin cfg.shards)} :
    ∀ writes : List TransactionalRecordWrite,
      (∀ write ∈ writes, dataIndex cfg write.record ∈ indices) →
      compareGuards (guardsOf b indices) writes =
        (Flat.compareRevisions b.view writes).mapError .store := by
  intro writes
  induction writes with
  | nil =>
    intro _
    rfl
  | cons write rest ih =>
    intro hindices
    have ih := ih fun w hw => hindices w (List.mem_cons_of_mem _ hw)
    rw [compareGuards, findGuard_guardsOf b (hindices write (List.mem_cons_self ..)),
      Flat.compareRevisions]
    show (if (b.dataShards _).revision write.record ≠ _ then _ else _) = _
    rw [shard_revision]
    by_cases hrev : b.view.revision write.record = write.expectedRevision
    · rw [if_neg (not_not_intro hrev), if_neg (not_not_intro hrev)]
      cases (b.view.revision write.record).next with
      | none => rfl
      | some newRevision =>
        dsimp only
        rw [ih]
        cases Flat.compareRevisions b.view rest with
        | error e => rfl
        | ok committed => rfl
    · rw [if_pos hrev, if_pos hrev]
      rfl

omit [DecidableEq D] in
theorem storeGuard_guardsOf (b : MemoryBackend cfg) (indices : List (Fin cfg.shards))
    (snapshot : SnapshotEnvelope) :
    storeGuard (guardsOf b indices) snapshot = guardsOf (b.insertSnapshot snapshot) indices := by
  rw [storeGuard, guardsOf, guardsOf, List.map_map]
  refine List.map_congr_left fun i _ => ?_
  show (if i = _ then _ else _) = (i, Function.update b.dataShards (dataIndex cfg snapshot.record)
    ⟨Function.update (b.dataShards (dataIndex cfg snapshot.record)).snapshots snapshot.record
      (some snapshot)⟩ i)
  by_cases hi : i = dataIndex cfg snapshot.record
  · subst hi
    rw [if_pos rfl, Function.update_self]
  · rw [if_neg hi, Function.update_of_ne hi]

omit [DecidableEq D] in
/-- The loop over the guards ends with the guards of the state the method reaches;
that state differs from the first one in those shards only. -/
theorem storeGuards_guardsOf {indices : List (Fin cfg.shards)} :
    ∀ (writes : List (TransactionalRecordWrite × TransactionRecordReceipt))
      (b : MemoryBackend cfg), (∀ w ∈ writes, dataIndex cfg w.1.record ∈ indices) →
      ∃ b', (storeSnapshots indices writes).run b = .ok () b' ∧
        storeGuards (guardsOf b indices) writes = .ok (guardsOf b' indices) ∧
        b' = { b with dataShards := b'.dataShards } ∧
        ∀ i ∉ indices, b'.dataShards i = b.dataShards i := by
  intro writes
  induction writes with
  | nil =>
    intro b _
    exact ⟨b, rfl, rfl, rfl, fun _ _ => rfl⟩
  | cons w rest ih =>
    intro b hindices
    obtain ⟨write, receipt⟩ := w
    have hhead := hindices _ (List.mem_cons_self ..)
    obtain ⟨b', hrun, hguards, hsame, hothers⟩ :=
      ih (b.insertSnapshot (write.envelope receipt.newRevision))
        fun w hw => hindices w (List.mem_cons_of_mem _ hw)
    refine ⟨b', ?_, ?_, ?_, ?_⟩
    · rw [storeSnapshots, bind_run_ok (lockedShard_run hhead b), modify_bind]
      exact hrun
    · rw [storeGuards, findGuard_guardsOf b hhead]
      show storeGuards (storeGuard (guardsOf b indices) _) rest = _
      rw [storeGuard_guardsOf]
      exact hguards
    · rw [hsame]
      rfl
    · intro i hi
      have hne : i ≠ dataIndex cfg write.record := by
        rintro rfl
        exact hi hhead
      rw [hothers i hi]
      exact Function.update_of_ne hne ..

omit [DecidableEq D] in
/-- Writing shards one after the other. -/
theorem foldl_shards (f : Fin cfg.shards → MemoryShard) :
    ∀ (indices : List (Fin cfg.shards)) (s : (l : MemoryLock cfg.shards) → l.Content D),
      (∀ i, (indices.foldl (fun s i => Function.update s (.data i) (f i)) s) (.data i) =
        if i ∈ indices then f i else s (.data i)) ∧
      ∀ l, (∀ i, l ≠ .data i) →
        (indices.foldl (fun s i => Function.update s (.data i) (f i)) s) l = s l := by
  intro indices
  induction indices with
  | nil =>
    intro s
    exact ⟨fun i => by simp, fun _ _ => rfl⟩
  | cons index rest ih =>
    intro s
    obtain ⟨hdata, hother⟩ := ih (Function.update s (.data index) (f index))
    refine ⟨fun i => ?_, fun l hl => ?_⟩
    · rw [List.foldl_cons, hdata]
      by_cases hmem : i ∈ rest
      · rw [if_pos hmem, if_pos (List.mem_cons_of_mem _ hmem)]
      · rw [if_neg hmem]
        by_cases hi : i = index
        · subst hi
          rw [Function.update_self, if_pos (List.mem_cons_self ..)]
        · rw [Function.update_of_ne (by simpa using hi),
            if_neg fun h => (List.mem_cons.mp h).elim hi hmem]
    · rw [List.foldl_cons, hother l hl, Function.update_of_ne (hl index)]

omit [DecidableEq D] in
/-- Writing back the guards of the locked shards. -/
theorem foldl_dataWrites {b b' : MemoryBackend cfg} {indices : List (Fin cfg.shards)}
    (hsame : b' = { b with dataShards := b'.dataShards })
    (hothers : ∀ i ∉ indices, b'.dataShards i = b.dataShards i) :
    (dataWrites (guardsOf b' indices)).foldl (fun s w => Function.update s w.1 w.2) b.contents
      = b'.contents := by
  rw [dataWrites, guardsOf, List.map_map, List.foldl_map]
  obtain ⟨hdata, hother⟩ := foldl_shards b'.dataShards indices b.contents
  funext l
  cases l with
  | data i =>
    refine (hdata i).trans ?_
    by_cases hi : i ∈ indices
    · rw [if_pos hi]
      rfl
    · rw [if_neg hi]
      exact (hothers i hi).symm
  | receipt i =>
    refine (hother _ fun _ h => by cases h).trans ?_
    rw [hsame]
    rfl
  | identifiers =>
    refine (hother _ fun _ h => by cases h).trans ?_
    rw [hsame]
    rfl
  | trade i =>
    refine (hother _ fun _ h => by cases h).trans ?_
    rw [hsame]
    rfl

namespace RunsAs

variable {α : Type} {b : MemoryBackend cfg} {held : List (MemoryLock cfg.shards)}
  {indices : List (Fin cfg.shards)}

omit [DecidableEq D] in
theorem acquireShards {f : List (Fin cfg.shards × MemoryShard) →
      LockM cfg (α × MemoryWrites cfg)} {r : EStateM.Result Failure (MemoryBackend cfg) α}
    (h : RunsAs b ((indices.map .data).reverse ++ held) (f (guardsOf b indices)) r) :
    RunsAs b held (DbProxy.acquireShards indices >>= f) r := by
  cases r with
  | ok a b' =>
    rw [RunsAs, walk_acquireShards]
    exact h
  | error e b' =>
    rw [RunsAs, walk_acquireShards]
    exact h

omit [DecidableEq D] in
/-- The comparison, over the guards and over the shards. -/
theorem compare {writes : List TransactionalRecordWrite}
    {f : List TransactionRecordReceipt → LockM cfg (α × MemoryWrites cfg)}
    {g : List TransactionRecordReceipt → MemoryM cfg α}
    (hindices : ∀ write ∈ writes, dataIndex cfg write.record ∈ indices)
    (h : ∀ committed, RunsAs b held (f committed) ((g committed).run b)) :
    RunsAs b held (settled (compareGuards (guardsOf b indices) writes) >>= f)
      ((compareRevisions indices writes >>= g).run b) := by
  have hcompare := compareRevisions_run b _ writes hindices
  rw [compareGuards_guardsOf b writes hindices]
  cases hflat : Flat.compareRevisions b.view writes with
  | error e =>
    rw [hflat] at hcompare
    rw [bind_run_error hcompare]
    exact ⟨rfl, held, rfl⟩
  | ok committed =>
    rw [hflat] at hcompare
    rw [bind_run_ok hcompare]
    exact h committed

omit [DecidableEq D] in
/-- The second loop; the method writes to the shards, the program to its guards. -/
theorem store {writes : List (TransactionalRecordWrite × TransactionRecordReceipt)}
    {f : List (Fin cfg.shards × MemoryShard) → LockM cfg (α × MemoryWrites cfg)}
    {g : PUnit → MemoryM cfg α} (hindices : ∀ w ∈ writes, dataIndex cfg w.1.record ∈ indices)
    (h : ∀ b' : MemoryBackend cfg, b' = { b with dataShards := b'.dataShards } →
      (∀ i ∉ indices, b'.dataShards i = b.dataShards i) →
      RunsAs b held (f (guardsOf b' indices)) ((g ⟨⟩).run b')) :
    RunsAs b held (settled (storeGuards (guardsOf b indices) writes) >>= f)
      ((storeSnapshots indices writes >>= g).run b) := by
  obtain ⟨b', hstore, hstored, hsame, hothers⟩ := storeGuards_guardsOf writes b hindices
  rw [hstored, bind_run_ok hstore]
  exact h b' hsame hothers

omit [DecidableEq D] in
/-- Writing back the data guards and then other locks. -/
theorem commit_dataWrites {b' : MemoryBackend cfg}
    (hsame : b' = { b with dataShards := b'.dataShards })
    (hothers : ∀ i ∉ indices, b'.dataShards i = b.dataShards i) {writes : MemoryWrites cfg}
    (hheld : ∀ w ∈ writes, w.1 ∈ held) :
    commit ((indices.map .data).reverse ++ held) (dataWrites (guardsOf b' indices) ++ writes)
        b.contents
      = writes.foldl (fun s w => Function.update s w.1 w.2) b'.contents := by
  rw [commit_of_held, List.foldl_append, foldl_dataWrites hsame hothers]
  intro w hw
  rcases List.mem_append.mp hw with hw | hw
  · rw [dataWrites, guardsOf, List.map_map] at hw
    obtain ⟨i, hi, rfl⟩ := List.mem_map.mp hw
    exact List.mem_append_left _ (List.mem_reverse.mpr (List.mem_map.mpr ⟨i, hi, rfl⟩))
  · exact List.mem_append_right _ (hheld w hw)

end RunsAs

omit [DecidableEq D] in
theorem loadMulti_runsAs (records : List RecordKey) :
    RunsAs b [] (lockLoadMulti records) ((loadMulti records).run b) := by
  have hindices : ∀ record ∈ records, dataIndex cfg record ∈ loadShards cfg records :=
    fun record hrecord =>
      List.mem_dedup.mpr (mem_sortOn.mpr (List.mem_map.mpr ⟨record, hrecord, rfl⟩))
  rw [loadMulti, lookupSnapshots_run b _ records hindices, lockLoadMulti]
  refine RunsAs.acquireShards ?_
  rw [lookupGuards_guardsOf b records hindices]
  exact RunsAs.value _

theorem commitRecords_runsAs (request : MultiRecordTransactionalWrite) (effects : CommitEffects) :
    RunsAs b [] (lockCommitRecords request effects) ((commitRecords request effects).run b) := by
  rw [lockCommitRecords, commitRecords]
  refine RunsAs.checked fun effects _ => RunsAs.checked fun request _ => RunsAs.acquire ?_
  rw [get_bind]
  refine RunsAs.checked fun _ _ => ?_
  dsimp only [contents]
  cases (b.receiptShards (receiptIndex cfg request.operationId)).multiTransactions
      request.operationId with
  | some receipt => exact RunsAs.ite (fun _ => RunsAs.fail _) fun _ => RunsAs.value _
  | none =>
    dsimp only
    have hindices : ∀ write ∈ request.writes,
        dataIndex cfg write.record ∈ lockDataShards cfg request.writes :=
      fun write hwrite => mem_lockDataShards hwrite
    by_cases hempty : effects.isEmpty = true
    · simp only [hempty, if_true, Bool.not_true, Bool.false_eq_true, if_false]
      rw [lockCommitRest]
      refine RunsAs.acquireShards (RunsAs.compare hindices fun committed => ?_)
      refine RunsAs.store (fun w hw => hindices w.1 (List.of_mem_zip hw).1) fun b' hsame hothers => ?_
      refine ⟨_, _, rfl, ?_⟩
      show commit _ (dataWrites (guardsOf b' _) ++ _ ++ _) b.contents =
        ((b'.insertOperationKind _ _).insertMultiTransaction _ _).contents
      rw [List.append_assoc, RunsAs.commit_dataWrites hsame hothers (by simp),
        insertMultiTransaction, insertOperationKind, updateReceipts_twice, contents_updateReceipts,
        hsame]
      rfl
    · simp only [hempty, Bool.false_eq_true, if_false, Bool.not_false, if_true]
      refine RunsAs.acquire ?_
      rw [get_bind]
      refine RunsAs.checked fun _ _ => ?_
      rw [lockCommitRest]
      refine RunsAs.acquireShards (RunsAs.compare hindices fun committed => ?_)
      refine RunsAs.store (fun w hw => hindices w.1 (List.of_mem_zip hw).1) fun b' hsame hothers => ?_
      refine ⟨_, _, rfl, ?_⟩
      -- the identifiers are set between the two updates of the receipts
      show commit _ (dataWrites (guardsOf b' _) ++ _ ++ _) b.contents =
        (((b'.setIdentifiers (b'.tradeIdentifiers.insertEffects effects)).insertOperationKind
          request.operationId .multi).insertMultiTransaction _ _).contents
      rw [List.append_assoc, RunsAs.commit_dataWrites hsame hothers (by simp),
        insertMultiTransaction, insertOperationKind, updateReceipts_twice, contents_updateReceipts,
        contents_setIdentifiers, hsame]
      rfl

omit [DecidableEq D] in
theorem applyTradeTransaction_runsAs (request : TradeTransaction) :
    RunsAs b [] (lockApplyTrade request) ((applyTradeTransaction request).run b) := by
  rw [lockApplyTrade, applyTradeTransaction]
  refine RunsAs.checked fun request _ => RunsAs.acquire ?_
  rw [get_bind]
  refine RunsAs.checked fun _ _ => ?_
  dsimp only [contents]
  cases (b.receiptShards (receiptIndex cfg request.operationId)).tradeTransactions
      request.operationId with
  | some stored => exact RunsAs.ite (fun _ => RunsAs.fail _) fun _ => RunsAs.value _
  | none =>
    have hindices : ∀ write ∈ request.writes,
        dataIndex cfg write.record ∈ lockDataShards cfg request.writes :=
      fun write hwrite => mem_lockDataShards hwrite
    refine RunsAs.acquire (RunsAs.acquire ?_)
    rw [get_bind]
    refine RunsAs.checked fun _ _ => ?_
    rw [get_bind]
    refine RunsAs.checked fun _ _ => ?_
    refine RunsAs.acquireShards (RunsAs.compare hindices fun committed => ?_)
    dsimp only [contents]
    cases Revision.next ((((b.tradeShards (tradeIndex cfg request.transition.tradeId)).trades
        request.transition.tradeId).map (·.version)).getD 0) with
    | none => exact ⟨rfl, _, rfl⟩
    | some newTradeVersion =>
      refine RunsAs.store (fun w hw => hindices w.1 (List.of_mem_zip hw).1) fun b' hsame hothers => ?_
      refine ⟨_, _, rfl, ?_⟩
      show commit _ (dataWrites (guardsOf b' _) ++ _) b.contents =
        ((((b'.insertTrade _).setIdentifiers (b'.tradeIdentifiers.insertTrade
          request)).insertOperationKind request.operationId .trade).insertTradeTransaction
            _ _).contents
      rw [RunsAs.commit_dataWrites hsame hothers (by simp), insertTradeTransaction,
        insertOperationKind, updateReceipts_twice, contents_updateReceipts,
        contents_setIdentifiers, contents_insertTrade, hsame]
      rfl

/-- Executed alone, a request does what the method of the backend does. -/
theorem exec_requestProgram (c : LockedCall) :
    exec (requestProgram cfg c) b.contents =
      (⟨c.call, (perform b c.call).1⟩, (perform b c.call).2.contents) := by
  have hruns : RunsAs b [] (lockProgram c) ((memoryCall c.call).run b) := by
    cases c with
    | save request => exact save_runsAs b request
    | applyTransaction request => exact applyTransaction_runsAs b request
    | commitRecords request effects => exact commitRecords_runsAs b request effects
    | applyTradeTransaction request => exact applyTradeTransaction_runsAs b request
    | load record => exact load_runsAs b record
    | loadMulti records => exact loadMulti_runsAs b records
  rw [exec, execFrom_eq_walk, requestProgram, walk_bind, perform]
  cases hrun : (memoryCall c.call).run b with
  | ok a b' =>
    rw [hrun] at hruns
    obtain ⟨writes, held, hwalk, hcommit⟩ := hruns
    rw [hwalk]
    exact Prod.ext rfl hcommit
  | error e b' =>
    rw [hrun] at hruns
    obtain ⟨rfl, held, hwalk⟩ := hruns
    rw [hwalk]
    rfl

/-! ### The order of the locks -/

section Ascends

variable {α β : Type} {k : ℕ}

omit [DecidableEq D] in
/-- The rest of a program takes its locks in increasing rank, from `k` on. -/
def Ascends (k : ℕ) (x : LockM cfg α) : Prop := Ascending MemoryLock.rank k x.run

omit [DecidableEq D] in
theorem ascends_pure (a : α) : Ascends k (pure a : LockM cfg α) := trivial

omit [DecidableEq D] in
theorem ascends_throw (e : Failure) : Ascends k (throw e : LockM cfg α) := trivial

omit [DecidableEq D] in
theorem ascends_acquire {l : MemoryLock cfg.shards} {f : l.Content D → LockM cfg β}
    (hk : k ≤ l.rank) (hf : ∀ v, Ascends (l.rank + 1) (f v)) : Ascends k (acquire l >>= f) :=
  ⟨hk, hf⟩

omit [DecidableEq D] in
theorem ascends_checked {x : Except StoreError α} {f : α → LockM cfg β}
    (hf : ∀ a, Ascends k (f a)) : Ascends k (checked x >>= f) := by
  cases x with
  | error e => trivial
  | ok a => exact hf a

omit [DecidableEq D] in
theorem ascends_settled {x : Except Failure α} {f : α → LockM cfg β}
    (hf : ∀ a, Ascends k (f a)) : Ascends k (settled x >>= f) := by
  cases x with
  | error e => trivial
  | ok a => exact hf a

omit [DecidableEq D] in
theorem ascends_unless {c : Prop} [Decidable c] {e : Failure} {f : PUnit → LockM cfg β}
    {x : LockM cfg β} (hx : Ascends k x) : Ascends k (if c then throw e >>= f else x) := by
  split
  · trivial
  · exact hx

omit [DecidableEq D] in
/-- The data shards come last, by index. -/
theorem ascends_acquireShards :
    ∀ {indices : List (Fin cfg.shards)}, indices.Pairwise (· < ·) → ∀ {k : ℕ},
      (∀ i ∈ indices, k ≤ (MemoryLock.data i).rank) →
      ∀ {f : List (Fin cfg.shards × MemoryShard) → LockM cfg β},
      (∀ guards k, Ascends k (f guards)) → Ascends k (acquireShards indices >>= f) := by
  intro indices
  induction indices with
  | nil =>
    intro _ k _ f hf
    exact hf [] k
  | cons index rest ih =>
    intro hsorted k hk f hf
    rw [List.pairwise_cons] at hsorted
    rw [acquireShards]
    simp only [bind_assoc, pure_bind]
    refine ascends_acquire (hk index (List.mem_cons_self ..)) fun v => ?_
    refine ih hsorted.2 (fun i hi => ?_) fun guards k => hf _ k
    have hlt : (index : ℕ) < i := hsorted.1 i hi
    show 2 * cfg.shards + 1 + (index : ℕ) + 1 ≤ 2 * cfg.shards + 1 + (i : ℕ)
    omega

end Ascends

omit [DecidableEq D] in
theorem sorted_dedup (l : List (Fin cfg.shards)) : (sortOn id l).dedup.Pairwise (· < ·) := by
  have hsorted : (sortOn id l).dedup.Pairwise (· ≤ ·) :=
    (pairwise_sortOn id l).sublist (List.dedup_sublist _)
  exact hsorted.imp₂ (fun _ _ hle hne => lt_of_le_of_ne hle hne) (List.nodup_dedup _)

omit [DecidableEq D] in
/-- Whatever an operation does once it holds its receipt shard, the identifiers and
the trade shard, the data shards rank higher. -/
theorem ascends_data {β : Type} {l : List (Fin cfg.shards)} {k : ℕ} (hk : k ≤ 2 * cfg.shards + 1)
    {f : List (Fin cfg.shards × MemoryShard) → LockM cfg β}
    (hf : ∀ guards k, Ascends k (f guards)) :
    Ascends k (acquireShards (sortOn id l).dedup >>= f) := by
  refine ascends_acquireShards (sorted_dedup l) (fun i _ => ?_) hf
  show k ≤ 2 * cfg.shards + 1 + (i : ℕ)
  omega

theorem requestProgram_ascending (c : LockedCall) :
    Ascending MemoryLock.rank 0 (requestProgram cfg c) := by
  refine Ascending.map _ ?_
  show Ascends 0 (lockProgram c)
  cases c with
  | load record => exact ascends_acquire (Nat.zero_le _) fun _ => ascends_pure _
  | loadMulti records =>
    exact ascends_data (Nat.zero_le _) fun _ _ => ascends_settled fun _ => ascends_pure _
  | save request =>
    refine ascends_unless (ascends_acquire (Nat.zero_le _) fun receipts => ?_)
    dsimp only
    split
    · exact ascends_unless (ascends_pure _)
    · -- the data shards come after every receipt shard
      refine ascends_acquire ?_ fun data => ascends_unless ?_
      · show (receiptIndex cfg request.requestId : ℕ) + 1 ≤ 2 * cfg.shards + 1 + _
        omega
      · split
        · exact ascends_throw _
        · exact ascends_pure _
  | applyTransaction request =>
    refine ascends_unless (ascends_acquire (Nat.zero_le _) fun receipts => ?_)
    refine ascends_checked fun _ => ?_
    dsimp only
    split
    · exact ascends_unless (ascends_pure _)
    · refine ascends_acquire ?_ fun data => ascends_unless ?_
      · show (receiptIndex cfg request.operationId : ℕ) + 1 ≤ 2 * cfg.shards + 1 + _
        omega
      · split
        · exact ascends_throw _
        · exact ascends_pure _
  | commitRecords request effects =>
    refine ascends_checked fun effects => ascends_checked fun request => ?_
    refine ascends_acquire (Nat.zero_le _) fun receipts => ascends_checked fun _ => ?_
    have hreceipt : (receiptIndex cfg request.operationId : ℕ) < cfg.shards :=
      (receiptIndex cfg request.operationId).isLt
    -- the rest takes data shards only, in the order of their indices
    have hrest : ∀ identifiers k, k ≤ 2 * cfg.shards + 1 →
        Ascends k (lockCommitRest request effects receipts identifiers : LockM cfg _) := by
      intro identifiers k hk
      exact ascends_data hk fun _ _ => ascends_settled fun _ => ascends_settled fun _ =>
        ascends_pure _
    split
    · exact ascends_unless (ascends_pure _)
    · split
      · -- no ledger or event identifier to reserve
        refine hrest none _ ?_
        show (receiptIndex cfg request.operationId : ℕ) + 1 ≤ _
        omega
      · refine ascends_acquire ?_ fun identifiers => ascends_checked fun _ => hrest _ _ ?_
        · show (receiptIndex cfg request.operationId : ℕ) + 1 ≤ cfg.shards
          omega
        · show cfg.shards + 1 ≤ _
          omega
  | applyTradeTransaction request =>
    refine ascends_checked fun request => ascends_acquire (Nat.zero_le _) fun receipts => ?_
    refine ascends_checked fun _ => ?_
    split
    · exact ascends_unless (ascends_pure _)
    · -- receipts, then identifiers, then the trade shard, then the data shards
      refine ascends_acquire ?_ fun identifiers => ascends_acquire ?_ fun trades => ?_
      · show (receiptIndex cfg request.operationId : ℕ) + 1 ≤ cfg.shards
        omega
      · show cfg.shards + 1 ≤ cfg.shards + 1 + (_ : ℕ)
        omega
      · refine ascends_checked fun _ => ascends_checked fun _ => ascends_data ?_ fun guards k => ?_
        · show cfg.shards + 1 + (tradeIndex cfg request.transition.tradeId : ℕ) + 1 ≤ _
          have := (tradeIndex cfg request.transition.tradeId).isLt
          omega
        · refine ascends_settled fun committed => ?_
          split
          · exact ascends_throw _
          · exact ascends_settled fun _ => ascends_pure _

end Contents

/-! ### Any number of requests -/

section Concurrency

variable {D : Type} [DecidableEq D] (cfg : MemoryConfig D)

abbrev MemorySystem :=
  State (MemoryLock cfg.shards) (MemoryLock.Content D) LockedCall Answered

abbrev MemoryEvent := Event (MemoryLock cfg.shards) LockedCall

/-- One step of some request. -/
def memoryStep : MemorySystem cfg → MemoryEvent cfg → Option (MemorySystem cfg) :=
  LockSystem.step (requestProgram cfg)

variable {cfg}

/-- No request yet. -/
def MemoryBackend.idle (b : MemoryBackend cfg) : MemorySystem cfg := ⟨b.contents, [], []⟩

/-- Requests executed one after the other are calls made one after the other. -/
theorem execAll_performAll :
    ∀ (requests : List LockedCall) (b : MemoryBackend cfg),
      execAll (requestProgram cfg) b.contents requests =
        ((performAll b (requests.map (·.call))).1,
          (performAll b (requests.map (·.call))).2.contents) := by
  intro requests
  induction requests with
  | nil =>
    intro b
    rfl
  | cons request rest ih =>
    intro b
    rw [execAll, exec_requestProgram b request, ih]
    rfl

/-- **Concurrent requests.**  In every state that the steps of any number of
requests reach, in any order:
* the answers and the shards are those of the finished requests, each once, called
  one after the other, and a request that was cancelled changed nothing at any of
  its steps;
* if a request is unfinished, then some unfinished request waits for no held lock,
  and it can go on. -/
theorem memory_concurrency (b : MemoryBackend cfg) (events : List (MemoryEvent cfg))
    (t : MemorySystem cfg) (hrun : run (memoryStep cfg) b.idle events = some t) :
    (performAll b (t.order.map (·.2.1.call)) = (t.order.map (·.2.2), ofContents t.shared) ∧
      (t.order.map (·.1)).Nodup ∧
      (∀ (i : ℕ) c a, (i, c, a) ∈ t.order ↔
        ∃ held, t.threads[i]? = some ⟨c, .releasing (some a) held⟩)) ∧
    (∀ before e after i, events = before ++ e :: after → e.thread = some i → t.Cancelled i →
      ∀ m m', run (memoryStep cfg) b.idle before = some m → memoryStep cfg m e = some m' →
        m'.shared = m.shared) ∧
    (∀ i, t.Unfinished i → ∃ j, t.Unfinished j ∧ ¬ t.Blocked j ∧
      ∃ e, e.thread = some j ∧ e ≠ .cancel j ∧ (memoryStep cfg t e).isSome) := by
  have hinv : LockSystem.Consistent (requestProgram cfg) MemoryLock.rank b.contents t :=
    run_consistent requestProgram_ascending hrun
  refine ⟨⟨?_, hinv.nodup, hinv.finished⟩, ?_, ?_⟩
  · have hserial := hinv.serial
    rw [execAll_performAll, Prod.mk.injEq] at hserial
    have hcalls : t.order.map (·.2.1.call) = (t.order.map (·.2.1)).map (·.call) := by
      rw [List.map_map]
      rfl
    rw [hcalls]
    refine Prod.ext hserial.1 ?_
    rw [← hserial.2, ofContents_contents]
  · intro before e after i hevents hthread hcancelled m m' hbefore hstep
    rw [hevents] at hrun
    obtain ⟨m₁, hm₁, hrest⟩ := run_append.mp hrun
    obtain ⟨m₂, hm₂, hafter⟩ := run_cons_eq_some.mp hrest
    rw [hbefore] at hm₁
    obtain rfl := Option.some.inj hm₁
    rw [hstep] at hm₂
    obtain rfl := Option.some.inj hm₂
    exact cancelled_unchanged hthread hstep hafter hcancelled
  · intro i hi
    obtain ⟨j, hj, hfree⟩ := hinv.unblocked_exists MemoryLock.rank_lt hi
    exact ⟨j, hj, hfree, unblocked_moves hj hfree⟩

end Concurrency

def sampleSave (requestId : String) : SnapshotWrite :=
  ⟨requestId, ⟨"player", "a"⟩, "profile", 1, [9], none, 11⟩

/-- Two saves of one record; the first is dropped while it waits for the data shard
that the second holds. -/
def sampleEvents : List (MemoryEvent sampleConfig) :=
  [.start (.save (sampleSave "r-1")), .start (.save (sampleSave "rr")), .acquire 0, .acquire 1,
    .acquire 1, .cancel 0, .finish 1, .release 0 (.receipt (receiptIndex sampleConfig "r-1")),
    .release 1 (.receipt (receiptIndex sampleConfig "rr")),
    .release 1 (.data (dataIndex sampleConfig ⟨"player", "a"⟩))]

theorem memory_concurrency_cancelled :
    ∃ t, run (memoryStep sampleConfig) ({} : MemoryBackend sampleConfig).idle sampleEvents
        = some t ∧
      t.order.map (·.1) = [1] ∧
      (performAll ({} : MemoryBackend sampleConfig) [.save (sampleSave "rr")]).2
        = ofContents t.shared := by
  have horder : (run (memoryStep sampleConfig) ({} : MemoryBackend sampleConfig).idle
      sampleEvents).map (fun t => t.order.map fun x => (x.1, x.2.1.call))
        = some [(1, .save (sampleSave "rr"))] := rfl
  obtain ⟨t, hrun, ht⟩ := Option.map_eq_some_iff.mp horder
  obtain ⟨⟨hserial, -, -⟩, -, -⟩ := memory_concurrency _ sampleEvents t hrun
  have hids : t.order.map (·.1) = [1] := by
    have := congrArg (List.map Prod.fst) ht
    rwa [List.map_map] at this
  have hcalls : t.order.map (·.2.1.call) = [.save (sampleSave "rr")] := by
    have := congrArg (List.map Prod.snd) ht
    rwa [List.map_map] at this
  rw [hcalls] at hserial
  exact ⟨t, hrun, hids, congrArg Prod.snd hserial⟩

end DbProxy
