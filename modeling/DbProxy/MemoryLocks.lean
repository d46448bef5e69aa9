/-
The locks of the volatile backend.

Every operation takes its locks in one order: the receipt shard of its id, the
trade identifiers, the trade shard, then the data shards by index
(`lockProgram_ascending`).  What it reads, it reads under a lock it holds, and it
writes after its last lock.  Executed alone, the lock programs do what the
methods of `MemoryBackend` do (`exec_lockProgram`), so the results of
`LockSystem` apply: `memory_concurrency`.
-/
import DbProxy.FlatOperations
import DbProxy.LockSystem

namespace DbProxy

open Text EarlyReturn MemoryBackend LockSystem

/-! ### Locks -/

/-- The mutexes of a backend with `n` shards. -/
inductive MemoryLock (n : ℕ)
  | receipt (i : Fin n)
  | identifiers
  | trade (i : Fin n)
  | data (i : Fin n)
deriving DecidableEq

/-- What a mutex guards. -/
@[reducible] def MemoryLock.Content (D : Type) {n : ℕ} : MemoryLock n → Type
  | .receipt _ => ReceiptShard D
  | .identifiers => TradeIdentifiers
  | .trade _ => TradeShard
  | .data _ => MemoryShard

/-- The order in which the operations take their locks. -/
def MemoryLock.rank {n : ℕ} : MemoryLock n → ℕ
  | .receipt i => i
  | .identifiers => n
  | .trade i => n + 1 + i
  | .data i => 2 * n + 1 + i

theorem MemoryLock.rank_lt {n : ℕ} (l : MemoryLock n) : l.rank < 3 * n + 1 := by
  cases l with
  | receipt i =>
    show (i : ℕ) < _
    omega
  | identifiers =>
    show n < _
    omega
  | trade i =>
    show n + 1 + (i : ℕ) < _
    omega
  | data i =>
    show 2 * n + 1 + (i : ℕ) < _
    omega

section Programs

variable {D : Type} {cfg : MemoryConfig D}

def MemoryBackend.contents (b : MemoryBackend cfg) :
    (l : MemoryLock cfg.shards) → l.Content D
  | .receipt i => b.receiptShards i
  | .identifiers => b.tradeIdentifiers
  | .trade i => b.tradeShards i
  | .data i => b.dataShards i

def MemoryBackend.ofContents (s : (l : MemoryLock cfg.shards) → l.Content D) :
    MemoryBackend cfg where
  dataShards i := s (.data i)
  receiptShards i := s (.receipt i)
  tradeShards i := s (.trade i)
  tradeIdentifiers := s .identifiers

variable (cfg) in
/-- An operation that locks; an early return gives back what it holds. -/
abbrev LockM (α : Type) :=
  ExceptT Failure (Interaction (MemoryLock cfg.shards) (MemoryLock.Content D)) α

variable (cfg) in
/-- New values of guarded shards. -/
abbrev MemoryWrites := Writes (V := MemoryLock.Content D (n := cfg.shards))

/-- `lock().await`. -/
def acquire (l : MemoryLock cfg.shards) : LockM cfg (l.Content D) :=
  ExceptT.mk (.call l fun v => .done (.ok v))

/-- The loop of `lock_data_shards`. -/
def acquireShards : List (Fin cfg.shards) → LockM cfg (List (Fin cfg.shards × MemoryShard))
  | [] => pure []
  | index :: rest => do
    let shard ← acquire (.data index)
    let guards ← acquireShards rest
    return (index, shard) :: guards

/-- `guards.iter().find(..).expect("locked data shard missing")`. -/
def findGuard (guards : List (Fin cfg.shards × MemoryShard)) (record : RecordKey) :
    Except Failure MemoryShard :=
  match guards.find? fun guard => guard.1 = dataIndex cfg record with
  | some guard => .ok guard.2
  | none => .error (.panic "locked data shard missing")

def compareGuards (guards : List (Fin cfg.shards × MemoryShard)) :
    List TransactionalRecordWrite → Except Failure (List TransactionRecordReceipt)
  | [] => .ok []
  | write :: rest => do
    let shard ← findGuard guards write.record
    let actual := shard.revision write.record
    if actual ≠ write.expectedRevision then
      .error (.store (.revisionConflict write.record (some write.expectedRevision) actual))
    match actual.next with
    | none => .error (.store (.revisionExhausted write.record))
    | some newRevision => do
      let committed ← compareGuards guards rest
      .ok (⟨write.record, newRevision⟩ :: committed)

/-- Insert one snapshot into the guard of its shard. -/
def storeGuard (guards : List (Fin cfg.shards × MemoryShard)) (snapshot : SnapshotEnvelope) :
    List (Fin cfg.shards × MemoryShard) :=
  guards.map fun guard =>
    if guard.1 = dataIndex cfg snapshot.record then
      (guard.1, ⟨Function.update guard.2.snapshots snapshot.record (some snapshot)⟩)
    else guard

def storeGuards : List (Fin cfg.shards × MemoryShard) →
    List (TransactionalRecordWrite × TransactionRecordReceipt) →
    Except Failure (List (Fin cfg.shards × MemoryShard))
  | guards, [] => .ok guards
  | guards, (write, receipt) :: rest => do
    let _ ← findGuard guards write.record
    storeGuards (storeGuard guards (write.envelope receipt.newRevision)) rest

def dataWrites (guards : List (Fin cfg.shards × MemoryShard)) : MemoryWrites cfg :=
  guards.map fun guard => ⟨.data guard.1, guard.2⟩

def lookupGuards (guards : List (Fin cfg.shards × MemoryShard)) :
    List RecordKey → Except Failure (List (Option SnapshotEnvelope))
  | [] => .ok []
  | record :: rest => do
    let shard ← findGuard guards record
    let snapshots ← lookupGuards guards rest
    .ok (shard.snapshots record :: snapshots)

/-- A check that needs no lock. -/
def checked {α : Type} (x : Except StoreError α) : LockM cfg α :=
  ExceptT.mk (.done (x.mapError .store))

/-- The rest of an operation that has all its locks. -/
def settled {α : Type} (x : Except Failure α) : LockM cfg α := ExceptT.mk (.done x)

def lockLoad (record : RecordKey) :
    LockM cfg (Option SnapshotEnvelope × MemoryWrites cfg) := do
  let shard ← acquire (.data (dataIndex cfg record))
  return (shard.snapshots record, [])

def lockLoadMulti (records : List RecordKey) :
    LockM cfg (List (Option SnapshotEnvelope) × MemoryWrites cfg) := do
  let guards ← acquireShards (loadShards cfg records)
  let snapshots ← settled (lookupGuards guards records)
  return (snapshots, [])

variable [DecidableEq D]

def lockSave (request : SnapshotWrite) :
    LockM cfg (SnapshotWriteOutcome × MemoryWrites cfg) := do
  if blank request.requestId then throw (.store .emptyRequestId)
  let receipts ← acquire (.receipt (receiptIndex cfg request.requestId))
  let fingerprint := SnapshotFingerprint.fromRequest cfg request
  match receipts.snapshots request.requestId with
  | some receipt =>
    if receipt.record ≠ request.record ∨ receipt.fingerprint ≠ fingerprint then
      throw (.store (.idempotencyConflict request.requestId))
    return (.duplicate receipt.revision, [])
  | none =>
    let data ← acquire (.data (dataIndex cfg request.record))
    let actual := data.revision request.record
    if request.expectedRevision.any (· ≠ actual) then
      throw (.store (.revisionConflict request.record request.expectedRevision actual))
    match actual.next with
    | none => throw (.store (.revisionExhausted request.record))
    | some revision =>
      let snapshot : SnapshotEnvelope := ⟨request.record, request.schema, request.schemaVersion,
        revision, request.payload, request.updatedAtUnixMs⟩
      return (.applied revision,
        [⟨.data (dataIndex cfg request.record),
            ⟨Function.update data.snapshots request.record (some snapshot)⟩⟩,
          ⟨.receipt (receiptIndex cfg request.requestId),
            { receipts with
              snapshots := Function.update receipts.snapshots request.requestId
                (some ⟨request.record, fingerprint, revision⟩) }⟩])

def lockApplyTransaction (request : TransactionalWrite) :
    LockM cfg (TransactionalWriteOutcome × MemoryWrites cfg) := do
  if blank request.operationId then throw (.store .emptyOperationId)
  let receipts ← acquire (.receipt (receiptIndex cfg request.operationId))
  checked (claimOperation receipts request.operationId .single)
  let fingerprint := TransactionFingerprint.fromRequest cfg request
  match receipts.transactions request.operationId with
  | some receipt =>
    if receipt.fingerprint ≠ fingerprint then
      throw (.store (.operationIdConflict request.operationId))
    return (.duplicate receipt.newRevision receipt.result, [])
  | none =>
    let data ← acquire (.data (dataIndex cfg request.record))
    let actual := data.revision request.record
    if actual ≠ request.expectedRevision then
      throw (.store (.revisionConflict request.record (some request.expectedRevision) actual))
    match actual.next with
    | none => throw (.store (.revisionExhausted request.record))
    | some newRevision =>
      let snapshot : SnapshotEnvelope := ⟨request.record, request.schema, request.schemaVersion,
        newRevision, request.payload, request.updatedAtUnixMs⟩
      return (.applied newRevision request.result,
        [⟨.data (dataIndex cfg request.record),
            ⟨Function.update data.snapshots request.record (some snapshot)⟩⟩,
          ⟨.receipt (receiptIndex cfg request.operationId),
            { receipts with
              operationKinds :=
                Function.update receipts.operationKinds request.operationId (some .single)
              transactions := Function.update receipts.transactions request.operationId
                (some ⟨fingerprint, newRevision, request.result⟩) }⟩])

/-- `commit_records` once the identifiers are known to be new; `identifiers` is
their guard, which is there only when the request has effects. -/
def lockCommitRest (request : MultiRecordTransactionalWrite) (effects : CommitEffects)
    (receipts : ReceiptShard D) (identifiers : Option TradeIdentifiers) :
    LockM cfg (MultiRecordTransactionalWriteOutcome × MemoryWrites cfg) := do
  let guards ← acquireShards (lockDataShards cfg request.writes)
  let committed ← settled (compareGuards guards request.writes)
  let guards ← settled (storeGuards guards (request.writes.zip committed))
  return (.applied committed request.result,
    dataWrites guards ++
      (identifiers.map fun ids =>
        (⟨.identifiers, ids.insertEffects effects⟩ :
          (l : MemoryLock cfg.shards) × l.Content D)).toList ++
      [⟨.receipt (receiptIndex cfg request.operationId),
        { receipts with
          operationKinds :=
            Function.update receipts.operationKinds request.operationId (some .multi)
          multiTransactions := Function.update receipts.multiTransactions request.operationId
            (some ⟨effects, MultiTransactionFingerprint.fromRequest cfg request, committed,
              request.result⟩) }⟩])

def lockCommitRecords (request : MultiRecordTransactionalWrite) (effects : CommitEffects) :
    LockM cfg (MultiRecordTransactionalWriteOutcome × MemoryWrites cfg) := do
  let effects ← checked (effects.normalize cfg.decodeEnvelope)
  let request ← checked (normalizeMulti request)
  let receipts ← acquire (.receipt (receiptIndex cfg request.operationId))
  checked (claimOperation receipts request.operationId .multi)
  match receipts.multiTransactions request.operationId with
  | some receipt =>
    if receipt.fingerprint ≠ MultiTransactionFingerprint.fromRequest cfg request ∨
        receipt.effects ≠ effects then
      throw (.store (.operationIdConflict request.operationId))
    return (.duplicate receipt.records receipt.result, [])
  | none =>
    if effects.isEmpty then lockCommitRest request effects receipts none
    else
      let identifiers ← acquire .identifiers
      checked (checkEffectIds identifiers effects)
      lockCommitRest request effects receipts (some identifiers)

def lockApplyTrade (request : TradeTransaction) :
    LockM cfg (TradeTransactionOutcome × MemoryWrites cfg) := do
  let request ← checked (normalizeTradeTransaction request)
  let receipts ← acquire (.receipt (receiptIndex cfg request.operationId))
  checked (claimOperation receipts request.operationId .trade)
  match receipts.tradeTransactions request.operationId with
  | some stored =>
    if stored.request ≠ request then throw (.store (.operationIdConflict request.operationId))
    return (.duplicate stored.receipt, [])
  | none =>
    let transition := request.transition
    let identifiers ← acquire .identifiers
    let trades ← acquire (.trade (tradeIndex cfg transition.tradeId))
    let current := trades.trades transition.tradeId
    checked (checkTradeState current transition)
    checked (checkTradeIds identifiers request)
    let guards ← acquireShards (lockDataShards cfg request.writes)
    let committed ← settled (compareGuards guards request.writes)
    match Revision.next ((current.map (·.version)).getD 0) with
    | none => throw (.store (.tradeVersionExhausted transition.tradeId))
    | some newTradeVersion =>
      let guards ← settled (storeGuards guards (request.writes.zip committed))
      let receipt := request.receipt newTradeVersion committed
      return (.applied receipt,
        dataWrites guards ++
          [⟨.trade (tradeIndex cfg transition.tradeId),
              ⟨Function.update trades.trades transition.tradeId
                (some (transition.envelope newTradeVersion))⟩⟩,
            ⟨.identifiers, identifiers.insertTrade request⟩,
            ⟨.receipt (receiptIndex cfg request.operationId),
              { receipts with
                operationKinds :=
                  Function.update receipts.operationKinds request.operationId (some .trade)
                tradeTransactions := Function.update receipts.tradeTransactions
                  request.operationId (some ⟨request, receipt⟩) }⟩])

/-! ### Requests -/

/-- The operations whose locks are considered. -/
inductive LockedCall
  | save (request : SnapshotWrite)
  | applyTransaction (request : TransactionalWrite)
  | commitRecords (request : MultiRecordTransactionalWrite) (effects : CommitEffects)
  | applyTradeTransaction (request : TradeTransaction)
  | load (record : RecordKey)
  | loadMulti (records : List RecordKey)

@[reducible] def LockedCall.call : LockedCall → BackendCall
  | .save request => .save request
  | .applyTransaction request => .applyTransaction request
  | .commitRecords request effects => .commitRecords request effects
  | .applyTradeTransaction request => .applyTradeTransaction request
  | .load record => .load record
  | .loadMulti records => .loadMulti records

omit [DecidableEq D] in
/-- The answer of a call; a call that fails writes nothing. -/
def answered (c : BackendCall) : Except Failure (c.Value × MemoryWrites cfg) →
    Answered × MemoryWrites cfg
  | .ok (a, writes) => (⟨c, .ok a⟩, writes)
  | .error e => (⟨c, .error e⟩, [])

def lockProgram : (c : LockedCall) → LockM cfg (c.call.Value × MemoryWrites cfg)
  | .save request => lockSave request
  | .applyTransaction request => lockApplyTransaction request
  | .commitRecords request effects => lockCommitRecords request effects
  | .applyTradeTransaction request => lockApplyTrade request
  | .load record => lockLoad record
  | .loadMulti records => lockLoadMulti records

variable (cfg) in
def requestProgram (c : LockedCall) :
    Program (MemoryLock cfg.shards) (MemoryLock.Content D) Answered :=
  (lockProgram c).run.bind fun r => .done (answered c.call r)

end Programs

end DbProxy
