/-
Shards cannot be seen from outside.

A sequence of calls is answered by the sharded backend as by the flat store
(`performAll_flat`), so the shard count and the hash functions do not matter.
`Placed` says that every key lies in its own shard; it holds of every state that
calls reach, and then the content of the shards, taken together, is the view
(`SameContent.of_view`).
-/
import DbProxy.FlatOperations

namespace DbProxy

open Text EarlyReturn KeyedMap MemoryBackend

/-! ### Every key in its shard -/

section Placed

variable {D : Type} {cfg : MemoryConfig D}

/-- No shard holds a key that belongs to another one. -/
structure Placed (b : MemoryBackend cfg) : Prop where
  snapshots : ∀ i k, dataIndex cfg k ≠ i → (b.dataShards i).snapshots k = none
  operationKinds : ∀ i k, receiptIndex cfg k ≠ i → (b.receiptShards i).operationKinds k = none
  snapshotReceipts : ∀ i k, receiptIndex cfg k ≠ i → (b.receiptShards i).snapshots k = none
  transactions : ∀ i k, receiptIndex cfg k ≠ i → (b.receiptShards i).transactions k = none
  multiTransactions :
    ∀ i k, receiptIndex cfg k ≠ i → (b.receiptShards i).multiTransactions k = none
  tradeTransactions :
    ∀ i k, receiptIndex cfg k ≠ i → (b.receiptShards i).tradeTransactions k = none
  trades : ∀ i k, tradeIndex cfg k ≠ i → (b.tradeShards i).trades k = none

theorem placed_empty : Placed ({} : MemoryBackend cfg) := by
  constructor <;> (intros; rfl)

/-- A shard may change at the key that selects it. -/
private theorem none_update {ι κ σ α : Type} [DecidableEq ι] [DecidableEq κ] {index : κ → ι}
    {shards : ι → σ} (get : σ → κ → Option α) {key : κ} {shard : σ}
    (h : ∀ i k, index k ≠ i → get (shards i) k = none)
    (hshard : ∀ k, k ≠ key → get shard k = get (shards (index key)) k) :
    ∀ i k, index k ≠ i → get (Function.update shards (index key) shard i) k = none := by
  intro i k hk
  by_cases hi : i = index key
  · subst hi
    have hne : k ≠ key := fun heq => hk (congrArg index heq)
    rw [Function.update_self, hshard k hne]
    exact h _ k hk
  · rw [Function.update_of_ne hi]
    exact h i k hk

theorem Placed.insertSnapshot {b : MemoryBackend cfg} (h : Placed b)
    (snapshot : SnapshotEnvelope) : Placed (b.insertSnapshot snapshot) :=
  { h with
    snapshots := none_update MemoryShard.snapshots h.snapshots
      fun _ hk => Function.update_of_ne hk _ _ }

theorem Placed.insertTrade {b : MemoryBackend cfg} (h : Placed b) (trade : TradeEnvelope) :
    Placed (b.insertTrade trade) :=
  { h with
    trades := none_update TradeShard.trades h.trades
      fun _ hk => Function.update_of_ne hk _ _ }

/-- An update of a receipt shard that touches the entries of one id. -/
private theorem Placed.updateReceipts {b : MemoryBackend cfg} (h : Placed b) (operationId : String)
    {f : ReceiptShard D → ReceiptShard D}
    (hf : ∀ receipts k, k ≠ operationId →
      (f receipts).operationKinds k = receipts.operationKinds k ∧
      (f receipts).snapshots k = receipts.snapshots k ∧
      (f receipts).transactions k = receipts.transactions k ∧
      (f receipts).multiTransactions k = receipts.multiTransactions k ∧
      (f receipts).tradeTransactions k = receipts.tradeTransactions k) :
    Placed (b.updateReceipts operationId f) :=
  { h with
    operationKinds := none_update ReceiptShard.operationKinds h.operationKinds
      fun k hk => (hf _ k hk).1
    snapshotReceipts := none_update ReceiptShard.snapshots h.snapshotReceipts
      fun k hk => (hf _ k hk).2.1
    transactions := none_update ReceiptShard.transactions h.transactions
      fun k hk => (hf _ k hk).2.2.1
    multiTransactions := none_update ReceiptShard.multiTransactions h.multiTransactions
      fun k hk => (hf _ k hk).2.2.2.1
    tradeTransactions := none_update ReceiptShard.tradeTransactions h.tradeTransactions
      fun k hk => (hf _ k hk).2.2.2.2 }

theorem Placed.insertOperationKind {b : MemoryBackend cfg} (h : Placed b) (operationId : String)
    (kind : OperationKind) : Placed (b.insertOperationKind operationId kind) :=
  h.updateReceipts operationId fun _ _ hk =>
    ⟨Function.update_of_ne hk _ _, rfl, rfl, rfl, rfl⟩

theorem Placed.insertSnapshotReceipt {b : MemoryBackend cfg} (h : Placed b) (requestId : String)
    (receipt : SnapshotReceipt D) : Placed (b.insertSnapshotReceipt requestId receipt) :=
  h.updateReceipts requestId fun _ _ hk =>
    ⟨rfl, Function.update_of_ne hk _ _, rfl, rfl, rfl⟩

theorem Placed.insertTransaction {b : MemoryBackend cfg} (h : Placed b) (operationId : String)
    (receipt : StoredTransactionReceipt D) : Placed (b.insertTransaction operationId receipt) :=
  h.updateReceipts operationId fun _ _ hk =>
    ⟨rfl, rfl, Function.update_of_ne hk _ _, rfl, rfl⟩

theorem Placed.insertMultiTransaction {b : MemoryBackend cfg} (h : Placed b)
    (operationId : String) (receipt : StoredMultiTransactionReceipt D) :
    Placed (b.insertMultiTransaction operationId receipt) :=
  h.updateReceipts operationId fun _ _ hk =>
    ⟨rfl, rfl, rfl, Function.update_of_ne hk _ _, rfl⟩

theorem Placed.insertTradeTransaction {b : MemoryBackend cfg} (h : Placed b)
    (operationId : String) (receipt : StoredTradeTransactionReceipt) :
    Placed (b.insertTradeTransaction operationId receipt) :=
  h.updateReceipts operationId fun _ _ hk =>
    ⟨rfl, rfl, rfl, rfl, Function.update_of_ne hk _ _⟩

theorem Placed.setIdentifiers {b : MemoryBackend cfg} (h : Placed b) (ids : TradeIdentifiers) :
    Placed { b with tradeIdentifiers := ids } :=
  { h with }

/-! ### Programs that keep the keys in their shards -/

/-- `Placed` survives the program, however it ends. -/
def KeepsPlaced {α : Type} (x : MemoryM cfg α) : Prop := Keeps (fun b b' => Placed b → Placed b') x

variable {α β : Type}

theorem keepsPlaced_pure (a : α) : KeepsPlaced (pure a : MemoryM cfg α) :=
  keeps_pure (fun _ h => h) a

theorem keepsPlaced_throw (e : Failure) : KeepsPlaced (throw e : MemoryM cfg α) :=
  keeps_throw (fun _ h => h) e

theorem keepsPlaced_check (x : Except StoreError α) : KeepsPlaced (check x : MemoryM cfg α) := by
  cases x with
  | error e => exact keepsPlaced_throw _
  | ok a => exact keepsPlaced_pure a

theorem keepsPlaced_modify {g : MemoryBackend cfg → MemoryBackend cfg}
    (hg : ∀ b, Placed b → Placed (g b)) : KeepsPlaced (modify g : MemoryM cfg PUnit) :=
  keeps_modify hg

theorem keepsPlaced_get_bind {f : MemoryBackend cfg → MemoryM cfg β}
    (hf : ∀ b, KeepsPlaced (f b)) : KeepsPlaced (get >>= f) := keeps_get_bind hf

theorem keepsPlaced_bind {x : MemoryM cfg α} {f : α → MemoryM cfg β} (hx : KeepsPlaced x)
    (hf : ∀ a, KeepsPlaced (f a)) : KeepsPlaced (x >>= f) :=
  keeps_bind (fun _ _ _ h h' hp => h' (h hp)) hx hf

/-- An early return. -/
theorem keepsPlaced_unless {c : Prop} [Decidable c] {e : StoreError} {f : PUnit → MemoryM cfg β}
    {x : MemoryM cfg β} (hx : KeepsPlaced x) :
    KeepsPlaced (if c then failStore e >>= f else x) := by
  split
  · exact keepsPlaced_throw _
  · exact hx

theorem lockedShard_placed (guards : List (Fin cfg.shards)) (record : RecordKey) :
    KeepsPlaced (lockedShard guards record) := by
  rw [lockedShard]
  split
  · exact keepsPlaced_pure _
  · exact keepsPlaced_throw _

theorem compareRevisions_placed (guards : List (Fin cfg.shards)) :
    ∀ writes : List TransactionalRecordWrite, KeepsPlaced (compareRevisions guards writes) := by
  intro writes
  induction writes with
  | nil => exact keepsPlaced_pure _
  | cons write rest ih =>
    rw [compareRevisions]
    refine keepsPlaced_bind (lockedShard_placed _ _) fun index => keepsPlaced_get_bind fun b => ?_
    refine keepsPlaced_unless ?_
    split
    · exact keepsPlaced_throw _
    · exact keepsPlaced_bind ih fun _ => keepsPlaced_pure _

theorem storeSnapshots_placed (guards : List (Fin cfg.shards)) :
    ∀ writes : List (TransactionalRecordWrite × TransactionRecordReceipt),
      KeepsPlaced (storeSnapshots guards writes) := by
  intro writes
  induction writes with
  | nil => exact keepsPlaced_pure _
  | cons write rest ih =>
    rw [storeSnapshots]
    refine keepsPlaced_bind (lockedShard_placed _ _) fun _ => ?_
    exact keepsPlaced_bind (keepsPlaced_modify fun b h => h.insertSnapshot _) fun _ => ih

theorem lookupSnapshots_placed (guards : List (Fin cfg.shards)) :
    ∀ records : List RecordKey, KeepsPlaced (lookupSnapshots guards records) := by
  intro records
  induction records with
  | nil => exact keepsPlaced_pure _
  | cons record rest ih =>
    rw [lookupSnapshots]
    refine keepsPlaced_bind (lockedShard_placed _ _) fun _ => keepsPlaced_get_bind fun _ => ?_
    exact keepsPlaced_bind ih fun _ => keepsPlaced_pure _

variable [DecidableEq D]

theorem save_placed (request : SnapshotWrite) : KeepsPlaced (save request : MemoryM cfg _) := by
  rw [save]
  refine keepsPlaced_unless (keepsPlaced_get_bind fun b => ?_)
  dsimp only
  split
  · exact keepsPlaced_unless (keepsPlaced_pure _)
  · refine keepsPlaced_get_bind fun b => keepsPlaced_unless ?_
    split
    · exact keepsPlaced_throw _
    · refine keepsPlaced_bind (keepsPlaced_modify fun b h => h.insertSnapshot _) fun _ => ?_
      exact keepsPlaced_bind (keepsPlaced_modify fun b h => h.insertSnapshotReceipt _ _) fun _ =>
        keepsPlaced_pure _

theorem applyTransaction_placed (request : TransactionalWrite) :
    KeepsPlaced (applyTransaction request : MemoryM cfg _) := by
  rw [applyTransaction]
  refine keepsPlaced_unless (keepsPlaced_get_bind fun b => ?_)
  refine keepsPlaced_bind (keepsPlaced_check _) fun _ => ?_
  dsimp only
  split
  · exact keepsPlaced_unless (keepsPlaced_pure _)
  · refine keepsPlaced_get_bind fun b => keepsPlaced_unless ?_
    split
    · exact keepsPlaced_throw _
    · refine keepsPlaced_bind (keepsPlaced_modify fun b h => h.insertSnapshot _) fun _ => ?_
      refine keepsPlaced_bind (keepsPlaced_modify fun b h => h.insertOperationKind _ _) fun _ => ?_
      exact keepsPlaced_bind (keepsPlaced_modify fun b h => h.insertTransaction _ _) fun _ =>
        keepsPlaced_pure _

theorem commitRecords_placed (request : MultiRecordTransactionalWrite) (effects : CommitEffects) :
    KeepsPlaced (commitRecords request effects : MemoryM cfg _) := by
  rw [commitRecords]
  refine keepsPlaced_bind (keepsPlaced_check _) fun effects => ?_
  refine keepsPlaced_bind (keepsPlaced_check _) fun request => keepsPlaced_get_bind fun b => ?_
  refine keepsPlaced_bind (keepsPlaced_check _) fun _ => ?_
  dsimp only
  split
  · exact keepsPlaced_unless (keepsPlaced_pure _)
  · have hlast : ∀ receipt outcome, KeepsPlaced ((do
        modify (·.insertMultiTransaction request.operationId receipt)
        return outcome) : MemoryM cfg MultiRecordTransactionalWriteOutcome) :=
      fun receipt outcome =>
        keepsPlaced_bind (keepsPlaced_modify fun b h => h.insertMultiTransaction _ _) fun _ =>
          keepsPlaced_pure _
    split
    · refine keepsPlaced_get_bind fun b => keepsPlaced_bind (keepsPlaced_check _) fun _ => ?_
      refine keepsPlaced_bind (compareRevisions_placed _ _) fun committed => ?_
      refine keepsPlaced_bind (storeSnapshots_placed _ _) fun _ => ?_
      refine keepsPlaced_bind (keepsPlaced_modify fun b h => h.insertOperationKind _ _) fun _ => ?_
      exact keepsPlaced_bind (keepsPlaced_modify fun b h => h.setIdentifiers _) fun _ =>
        hlast _ _
    · refine keepsPlaced_bind (compareRevisions_placed _ _) fun committed => ?_
      refine keepsPlaced_bind (storeSnapshots_placed _ _) fun _ => ?_
      exact keepsPlaced_bind (keepsPlaced_modify fun b h => h.insertOperationKind _ _) fun _ =>
        hlast _ _

omit [DecidableEq D] in
theorem applyTradeTransaction_placed (request : TradeTransaction) :
    KeepsPlaced (applyTradeTransaction request : MemoryM cfg _) := by
  rw [applyTradeTransaction]
  refine keepsPlaced_bind (keepsPlaced_check _) fun request => keepsPlaced_get_bind fun b => ?_
  refine keepsPlaced_bind (keepsPlaced_check _) fun _ => ?_
  dsimp only
  split
  · exact keepsPlaced_unless (keepsPlaced_pure _)
  · refine keepsPlaced_get_bind fun b => keepsPlaced_bind (keepsPlaced_check _) fun _ => ?_
    refine keepsPlaced_get_bind fun b => keepsPlaced_bind (keepsPlaced_check _) fun _ => ?_
    refine keepsPlaced_bind (compareRevisions_placed _ _) fun committed => ?_
    split
    · exact keepsPlaced_throw _
    · refine keepsPlaced_bind (storeSnapshots_placed _ _) fun _ => ?_
      refine keepsPlaced_bind (keepsPlaced_modify fun b h => h.insertTrade _) fun _ => ?_
      refine keepsPlaced_bind (keepsPlaced_modify fun b h => h.setIdentifiers _) fun _ => ?_
      refine keepsPlaced_bind (keepsPlaced_modify fun b h => h.insertOperationKind _ _) fun _ => ?_
      exact keepsPlaced_bind (keepsPlaced_modify fun b h => h.insertTradeTransaction _ _) fun _ =>
        keepsPlaced_pure _

theorem enqueueSnapshot_placed (request : SnapshotWrite) :
    KeepsPlaced (enqueueSnapshot request : MemoryM cfg _) :=
  keepsPlaced_unless (keepsPlaced_bind (save_placed request) fun _ => keepsPlaced_pure _)

omit [DecidableEq D] in
theorem entryOutcome_placed {x : MemoryM cfg α} (hx : KeepsPlaced x) :
    KeepsPlaced (entryOutcome x) := by
  intro b hb
  have hlast := hx b hb
  show Placed (lastState (entryOutcome x b))
  rw [entryOutcome]
  cases hrun : x.run b with
  | ok a b' =>
    rw [hrun] at hlast
    exact hlast
  | error e b' =>
    rw [hrun] at hlast
    cases e with
    | store e => exact hlast
    | panic message => exact hlast

omit [DecidableEq D] in
theorem mapM_placed {ρ : Type} {x : ρ → MemoryM cfg α} (hx : ∀ r, KeepsPlaced (x r)) :
    ∀ rs : List ρ, KeepsPlaced (rs.mapM x) := by
  intro rs
  induction rs with
  | nil => exact keepsPlaced_pure _
  | cons r rest ih =>
    rw [List.mapM_cons]
    exact keepsPlaced_bind (hx r) fun _ => keepsPlaced_bind ih fun _ => keepsPlaced_pure _

theorem memoryCall_placed (c : BackendCall) : KeepsPlaced (memoryCall c : MemoryM cfg c.Value) := by
  cases c with
  | load record => exact keepsPlaced_get_bind fun _ => keepsPlaced_pure _
  | loadCached record => exact keepsPlaced_get_bind fun _ => keepsPlaced_pure _
  | loadMulti records => exact lookupSnapshots_placed _ records
  | loadCachedMulti records => exact lookupSnapshots_placed _ records
  | save request => exact save_placed request
  | saveMulti requests => exact mapM_placed (fun r => entryOutcome_placed (save_placed r)) requests
  | enqueueSnapshot request => exact enqueueSnapshot_placed request
  | enqueueMultiSnapshot requests =>
    exact mapM_placed (fun r => entryOutcome_placed (enqueueSnapshot_placed r)) requests
  | applyTransaction request => exact applyTransaction_placed request
  | loadTransaction operationId record =>
    refine keepsPlaced_unless (keepsPlaced_get_bind fun b => ?_)
    dsimp only
    split
    · exact keepsPlaced_pure _
    · exact keepsPlaced_unless (keepsPlaced_pure _)
  | commitRecords request effects => exact commitRecords_placed request effects
  | applyMultiTransaction request => exact commitRecords_placed request {}
  | loadMultiTransaction operationId records =>
    refine keepsPlaced_unless (keepsPlaced_get_bind fun b => ?_)
    dsimp only
    split
    · exact keepsPlaced_pure _
    · exact keepsPlaced_unless (keepsPlaced_pure _)
  | applyTradeTransaction request => exact applyTradeTransaction_placed request
  | loadTrade tradeId =>
    exact keepsPlaced_unless (keepsPlaced_get_bind fun _ => keepsPlaced_pure _)
  | loadTradeTransaction operationId tradeId =>
    refine keepsPlaced_unless (keepsPlaced_unless (keepsPlaced_get_bind fun b => ?_))
    dsimp only
    split
    · exact keepsPlaced_pure _
    · exact keepsPlaced_unless (keepsPlaced_pure _)

end Placed

/-! ### Runs -/

section Runs

variable {D : Type} [DecidableEq D] (cfg : MemoryConfig D)

/-- A sequence of calls on the flat store. -/
def Flat.callAll (v : StoreView D) :
    List BackendCall → List ((c : BackendCall) × Except StoreError c.Value) × StoreView D
  | [] => ([], v)
  | c :: rest =>
    match Flat.call cfg v c with
    | .ok (a, v') => (⟨c, .ok a⟩ :: (callAll v' rest).1, (callAll v' rest).2)
    | .error e => (⟨c, .error e⟩ :: (callAll v rest).1, (callAll v rest).2)

/-- An answer of the flat store, as the backend gives it. -/
def storeAnswer (answer : (c : BackendCall) × Except StoreError c.Value) : Answered :=
  ⟨answer.1, answer.2.mapError Failure.store⟩

variable {cfg}

/-- The backend answers a sequence of calls as the flat store does. -/
theorem performAll_flat :
    ∀ (calls : List BackendCall) (b : MemoryBackend cfg),
      (performAll b calls).1 = (Flat.callAll cfg b.view calls).1.map storeAnswer ∧
        (performAll b calls).2.view = (Flat.callAll cfg b.view calls).2 := by
  intro calls
  induction calls with
  | nil =>
    intro b
    exact ⟨rfl, rfl⟩
  | cons c rest ih =>
    intro b
    have hc := memoryCall_refines b c
    rw [Flat.callAll, performAll]
    cases hflat : Flat.call cfg b.view c with
    | error e =>
      rw [hflat] at hc
      have hperform : perform b c = (.error (.store e), b) := by
        rw [perform, show (memoryCall c).run b = .error (.store e) b from hc]
      rw [hperform]
      exact ⟨congrArg (_ :: ·) (ih b).1, (ih b).2⟩
    | ok r =>
      rw [hflat] at hc
      obtain ⟨b', hrun, hview⟩ := hc
      have hperform : perform b c = (.ok r.1, b') := by
        rw [perform, hrun]
      have ih := ih b'
      rw [hview] at ih
      rw [hperform]
      exact ⟨congrArg (_ :: ·) ih.1, ih.2⟩

theorem performAll_placed :
    ∀ (calls : List BackendCall) (b : MemoryBackend cfg), Placed b → Placed (performAll b calls).2 := by
  intro calls
  induction calls with
  | nil =>
    intro b hb
    exact hb
  | cons c rest ih =>
    intro b hb
    refine ih (perform b c).2 ?_
    have hlast := memoryCall_placed c b hb
    rw [perform]
    cases hrun : (memoryCall c).run b with
    | ok a b' =>
      rw [hrun] at hlast
      exact hlast
    | error e b' =>
      rw [hrun] at hlast
      exact hlast

end Runs

/-! ### Two shard counts -/

section TwoConfigs

variable {D : Type}

/-- The same backend with another shard count and other hash functions. -/
def MemoryConfig.reshard (cfg : MemoryConfig D) (shards : ℕ) (hpos : 0 < shards)
    (hashRecord : RecordKey → ℕ) (hashText : String → ℕ) : MemoryConfig D :=
  { cfg with shards := shards, shards_pos := hpos, hashRecord := hashRecord, hashText := hashText }

/-- Both backends hold the same snapshots, receipts, trades and identifiers, each
found under its key and nowhere else. -/
structure SameContent {cfg₁ cfg₂ : MemoryConfig D} (b₁ : MemoryBackend cfg₁)
    (b₂ : MemoryBackend cfg₂) : Prop where
  view : b₁.view = b₂.view
  snapshots : ∀ k a, (∃ i, (b₁.dataShards i).snapshots k = some a) ↔
    ∃ i, (b₂.dataShards i).snapshots k = some a
  operationKinds : ∀ k a, (∃ i, (b₁.receiptShards i).operationKinds k = some a) ↔
    ∃ i, (b₂.receiptShards i).operationKinds k = some a
  snapshotReceipts : ∀ k a, (∃ i, (b₁.receiptShards i).snapshots k = some a) ↔
    ∃ i, (b₂.receiptShards i).snapshots k = some a
  transactions : ∀ k a, (∃ i, (b₁.receiptShards i).transactions k = some a) ↔
    ∃ i, (b₂.receiptShards i).transactions k = some a
  multiTransactions : ∀ k a, (∃ i, (b₁.receiptShards i).multiTransactions k = some a) ↔
    ∃ i, (b₂.receiptShards i).multiTransactions k = some a
  tradeTransactions : ∀ k a, (∃ i, (b₁.receiptShards i).tradeTransactions k = some a) ↔
    ∃ i, (b₂.receiptShards i).tradeTransactions k = some a
  trades : ∀ k a, (∃ i, (b₁.tradeShards i).trades k = some a) ↔
    ∃ i, (b₂.tradeShards i).trades k = some a
  identifiers : b₁.tradeIdentifiers = b₂.tradeIdentifiers

/-- What some shard holds is what the shard of the key holds. -/
private theorem held_iff {ι κ σ α : Type} {index : κ → ι} {shards : ι → σ}
    (get : σ → κ → Option α) (h : ∀ i k, index k ≠ i → get (shards i) k = none) (k : κ) (a : α) :
    (∃ i, get (shards i) k = some a) ↔ get (shards (index k)) k = some a := by
  constructor
  · rintro ⟨i, hi⟩
    by_cases hk : index k = i
    · rw [hk]
      exact hi
    · rw [h i k hk] at hi
      cases hi
  · intro hk
    exact ⟨_, hk⟩

theorem SameContent.of_view {cfg₁ cfg₂ : MemoryConfig D} {b₁ : MemoryBackend cfg₁}
    {b₂ : MemoryBackend cfg₂} (hview : b₁.view = b₂.view) (h₁ : Placed b₁) (h₂ : Placed b₂) :
    SameContent b₁ b₂ where
  view := hview
  snapshots k a := by
    rw [held_iff MemoryShard.snapshots h₁.snapshots, held_iff MemoryShard.snapshots h₂.snapshots]
    exact iff_of_eq (congrArg (fun v => v.snapshots k = some a) hview)
  operationKinds k a := by
    rw [held_iff ReceiptShard.operationKinds h₁.operationKinds,
      held_iff ReceiptShard.operationKinds h₂.operationKinds]
    exact iff_of_eq (congrArg (fun v => v.operationKinds k = some a) hview)
  snapshotReceipts k a := by
    rw [held_iff ReceiptShard.snapshots h₁.snapshotReceipts,
      held_iff ReceiptShard.snapshots h₂.snapshotReceipts]
    exact iff_of_eq (congrArg (fun v => v.snapshotReceipts k = some a) hview)
  transactions k a := by
    rw [held_iff ReceiptShard.transactions h₁.transactions,
      held_iff ReceiptShard.transactions h₂.transactions]
    exact iff_of_eq (congrArg (fun v => v.transactions k = some a) hview)
  multiTransactions k a := by
    rw [held_iff ReceiptShard.multiTransactions h₁.multiTransactions,
      held_iff ReceiptShard.multiTransactions h₂.multiTransactions]
    exact iff_of_eq (congrArg (fun v => v.multiTransactions k = some a) hview)
  tradeTransactions k a := by
    rw [held_iff ReceiptShard.tradeTransactions h₁.tradeTransactions,
      held_iff ReceiptShard.tradeTransactions h₂.tradeTransactions]
    exact iff_of_eq (congrArg (fun v => v.tradeTransactions k = some a) hview)
  trades k a := by
    rw [held_iff TradeShard.trades h₁.trades, held_iff TradeShard.trades h₂.trades]
    exact iff_of_eq (congrArg (fun v => v.trades k = some a) hview)
  identifiers := congrArg StoreView.identifiers hview

variable [DecidableEq D]

/-- The flat store knows neither the shard count nor the hash functions. -/
theorem Flat.callAll_reshard (cfg : MemoryConfig D) {shards : ℕ} (hpos : 0 < shards)
    (hashRecord : RecordKey → ℕ) (hashText : String → ℕ) :
    ∀ (calls : List BackendCall) (v : StoreView D),
      Flat.callAll (cfg.reshard shards hpos hashRecord hashText) v calls =
        Flat.callAll cfg v calls := by
  intro calls
  induction calls with
  | nil =>
    intro v
    rfl
  | cons c rest ih =>
    intro v
    have hcall : Flat.call (cfg.reshard shards hpos hashRecord hashText) v c
        = Flat.call cfg v c := by
      cases c <;> rfl
    rw [Flat.callAll, Flat.callAll, hcall]
    cases Flat.call cfg v c with
    | error e =>
      dsimp only
      rw [ih]
    | ok r =>
      dsimp only
      rw [ih]

end TwoConfigs

end DbProxy
