/-
Every method of the volatile backend (`impl DbProxyBackend for MemoryBackend`).

`MemoryBackend.lean` has the four methods that write.  Here are the lookups, the
queued save and the methods the backend inherits from the trait; `memoryCall`
puts them together, one program for each `BackendCall`, and `performAll` answers
a sequence of calls.
-/
import DbProxy.Dispatch
import DbProxy.MemoryBackend

namespace DbProxy

open Text MemoryBackend

section Methods

variable {D : Type} {cfg : MemoryConfig D}

def load (record : RecordKey) : MemoryM cfg (Option SnapshotEnvelope) := do
  return ((← get).dataShards (dataIndex cfg record)).snapshots record

variable (cfg) in
/-- The shards `load_multi` locks, sorted and without duplicates. -/
def loadShards (records : List RecordKey) : List (Fin cfg.shards) :=
  (sortOn id (records.map (dataIndex cfg))).dedup

/-- The lookups of `load_multi`, each in its locked shard. -/
def lookupSnapshots (guards : List (Fin cfg.shards)) :
    List RecordKey → MemoryM cfg (List (Option SnapshotEnvelope))
  | [] => pure []
  | record :: rest => do
    let index ← lockedShard guards record
    let snapshot := ((← get).dataShards index).snapshots record
    let snapshots ← lookupSnapshots guards rest
    return snapshot :: snapshots

def loadMulti (records : List RecordKey) : MemoryM cfg (List (Option SnapshotEnvelope)) :=
  lookupSnapshots (loadShards cfg records) records

def loadTransaction (operationId : String) (record : RecordKey) :
    MemoryM cfg (Option TransactionReceipt) := do
  if blank operationId then failStore .emptyOperationId
  let receipts := (← get).receiptShards (receiptIndex cfg operationId)
  match receipts.transactions operationId with
  | none => return none
  | some receipt =>
    if receipt.fingerprint.record ≠ record then failStore (.operationIdConflict operationId)
    return some ⟨operationId, record, receipt.newRevision, receipt.result⟩

def loadMultiTransaction (operationId : String) (records : List RecordKey) :
    MemoryM cfg (Option MultiRecordTransactionReceipt) := do
  if blank operationId then failStore .emptyOperationId
  let expected := sortOn id records
  let receipts := (← get).receiptShards (receiptIndex cfg operationId)
  match receipts.multiTransactions operationId with
  | none => return none
  | some receipt =>
    if receipt.records.map (·.record) ≠ expected then failStore (.operationIdConflict operationId)
    return some ⟨operationId, receipt.records, receipt.result⟩

def loadTrade (tradeId : String) : MemoryM cfg (Option TradeEnvelope) := do
  if blank tradeId then failStore .emptyTradeId
  return ((← get).tradeShards (tradeIndex cfg tradeId)).trades tradeId

def loadTradeTransaction (operationId tradeId : String) : MemoryM cfg (Option TradeReceipt) := do
  if blank operationId then failStore .emptyOperationId
  if blank tradeId then failStore .emptyTradeId
  let receipts := (← get).receiptShards (receiptIndex cfg operationId)
  match receipts.tradeTransactions operationId with
  | none => return none
  | some stored =>
    if stored.receipt.tradeId ≠ tradeId then failStore (.operationIdConflict operationId)
    return some stored.receipt

/-- Keep the error of one entry as that entry's outcome; a panic is no error. -/
def entryOutcome {α : Type} (x : MemoryM cfg α) : MemoryM cfg (Except BackendError α) := fun b =>
  match x.run b with
  | .ok a b' => .ok (.ok a) b'
  | .error (.store e) b' => .ok (.error (.core e)) b'
  | .error (.panic message) b' => .error (.panic message) b'

variable [DecidableEq D]

def enqueueSnapshot (request : SnapshotWrite) : MemoryM cfg Unit := do
  if request.expectedRevision.isSome then
    failStore (.queuedSnapshotRequiresUnconditionalWrite request.record)
  let _ ← save request
  return ()

def saveMulti (requests : List SnapshotWrite) :
    MemoryM cfg (List (Except BackendError SnapshotWriteOutcome)) :=
  requests.mapM fun request => entryOutcome (save request)

def enqueueMultiSnapshot (requests : List SnapshotWrite) :
    MemoryM cfg (List (Except BackendError Unit)) :=
  requests.mapM fun request => entryOutcome (enqueueSnapshot request)

/-- The backend's method for each call. -/
def memoryCall : (c : BackendCall) → MemoryM cfg c.Value
  | .load record | .loadCached record => load record
  | .loadMulti records | .loadCachedMulti records => loadMulti records
  | .save request => save request
  | .saveMulti requests => saveMulti requests
  | .enqueueSnapshot request => enqueueSnapshot request
  | .enqueueMultiSnapshot requests => enqueueMultiSnapshot requests
  | .applyTransaction request => applyTransaction request
  | .loadTransaction operationId record => loadTransaction operationId record
  | .commitRecords request effects => commitRecords request effects
  | .applyMultiTransaction request => applyMultiTransaction request
  | .loadMultiTransaction operationId records => loadMultiTransaction operationId records
  | .applyTradeTransaction request => applyTradeTransaction request
  | .loadTrade tradeId => loadTrade tradeId
  | .loadTradeTransaction operationId tradeId => loadTradeTransaction operationId tradeId

/-! ### Sequences of calls -/

/-- How a method ended, and the state it left. -/
def perform (b : MemoryBackend cfg) (c : BackendCall) :
    Except Failure c.Value × MemoryBackend cfg :=
  match (memoryCall c).run b with
  | .ok a b' => (.ok a, b')
  | .error e b' => (.error e, b')

/-- A call and how it ended. -/
abbrev Answered := (c : BackendCall) × Except Failure c.Value

def performAll (b : MemoryBackend cfg) : List BackendCall → List Answered × MemoryBackend cfg
  | [] => ([], b)
  | c :: rest =>
    let (answer, b') := perform b c
    let (answers, last) := performAll b' rest
    (⟨c, answer⟩ :: answers, last)

end Methods

end DbProxy
