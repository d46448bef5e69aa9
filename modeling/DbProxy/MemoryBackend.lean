/-
The volatile backend (`memory_backend.rs`).

Snapshots, receipts and trades live in three vectors of shards; the shard of a
key is its hash modulo the shard count.  The operations run in `EStateM`: an
early `return Err(..)` keeps whatever was already written, as in the source, so
that a check placed after a mutation would be visible in the model.  Locks are
not modelled here: one operation is one step.

Outside the repository, hence parameters of `MemoryConfig`: the hasher, SHA-256
(`digest`) and the JSON decoder of relay envelopes.

`MemoryBackend.view` forgets the sharding: `view_insertSnapshot` and its
siblings say that every write of an operation is one map update of the view.
-/
import Mathlib.Data.Finset.Insert
import Mathlib.Data.Finset.Union
import Mathlib.Logic.Function.Basic
import DbProxy.TradeTransaction

namespace DbProxy

open Text

/-! ### Data -/

structure SnapshotFingerprint (D : Type) where
  schema : String
  schemaVersion : ℕ
  payloadDigest : D
  expectedRevision : Option Revision
  updatedAtUnixMs : ℕ
deriving DecidableEq

structure SnapshotReceipt (D : Type) where
  record : RecordKey
  fingerprint : SnapshotFingerprint D
  revision : Revision
deriving DecidableEq

structure TransactionFingerprint (D : Type) where
  record : RecordKey
  schema : String
  schemaVersion : ℕ
  expectedRevision : Revision
  payloadDigest : D
  resultDigest : D
  updatedAtUnixMs : ℕ
deriving DecidableEq

structure StoredTransactionReceipt (D : Type) where
  fingerprint : TransactionFingerprint D
  newRevision : Revision
  result : Bytes
deriving DecidableEq

structure TransactionalRecordFingerprint (D : Type) where
  record : RecordKey
  schema : String
  schemaVersion : ℕ
  expectedRevision : Revision
  payloadDigest : D
  updatedAtUnixMs : ℕ
deriving DecidableEq

structure MultiTransactionFingerprint (D : Type) where
  writes : List (TransactionalRecordFingerprint D)
  resultDigest : D
deriving DecidableEq

structure StoredMultiTransactionReceipt (D : Type) where
  effects : CommitEffects
  fingerprint : MultiTransactionFingerprint D
  records : List TransactionRecordReceipt
  result : Bytes
deriving DecidableEq

structure StoredTradeTransactionReceipt where
  request : TradeTransaction
  receipt : TradeReceipt
deriving DecidableEq

structure MemoryShard where
  snapshots : RecordKey → Option SnapshotEnvelope := fun _ => none

structure ReceiptShard (D : Type) where
  operationKinds : String → Option OperationKind := fun _ => none
  snapshots : String → Option (SnapshotReceipt D) := fun _ => none
  transactions : String → Option (StoredTransactionReceipt D) := fun _ => none
  multiTransactions : String → Option (StoredMultiTransactionReceipt D) := fun _ => none
  tradeTransactions : String → Option StoredTradeTransactionReceipt := fun _ => none

structure TradeShard where
  trades : String → Option TradeEnvelope := fun _ => none

structure TradeIdentifiers where
  appends : RecordKey → Option AppendRecord := fun _ => none
  ledgerPostingIds : Finset String := ∅
  outboxEventIds : Finset String := ∅

/-- The shard count (`MemoryBackend::new` rejects zero) and what the backend
takes from other crates. -/
structure MemoryConfig (D : Type) where
  shards : ℕ
  shards_pos : 0 < shards
  hashRecord : RecordKey → ℕ
  hashText : String → ℕ
  digest : Bytes → D
  decodeEnvelope : Bytes → Option EventEnvelope

structure MemoryBackend {D : Type} (cfg : MemoryConfig D) where
  dataShards : Fin cfg.shards → MemoryShard := fun _ => {}
  receiptShards : Fin cfg.shards → ReceiptShard D := fun _ => {}
  tradeShards : Fin cfg.shards → TradeShard := fun _ => {}
  tradeIdentifiers : TradeIdentifiers := {}

/-- How an operation ends when it does not return a value: `BackendError::Store`
or a failed `expect`. -/
inductive Failure
  | store (error : StoreError)
  | panic (message : String)
deriving DecidableEq

section Operations

variable {D : Type} [DecidableEq D] (cfg : MemoryConfig D)

/-! ### Fingerprints -/

def SnapshotFingerprint.fromRequest (request : SnapshotWrite) : SnapshotFingerprint D where
  schema := request.schema
  schemaVersion := request.schemaVersion
  payloadDigest := cfg.digest request.payload
  expectedRevision := request.expectedRevision
  updatedAtUnixMs := request.updatedAtUnixMs

def TransactionFingerprint.fromRequest (request : TransactionalWrite) :
    TransactionFingerprint D where
  record := request.record
  schema := request.schema
  schemaVersion := request.schemaVersion
  expectedRevision := request.expectedRevision
  payloadDigest := cfg.digest request.payload
  resultDigest := cfg.digest request.result
  updatedAtUnixMs := request.updatedAtUnixMs

def TransactionalRecordFingerprint.fromWrite (write : TransactionalRecordWrite) :
    TransactionalRecordFingerprint D where
  record := write.record
  schema := write.schema
  schemaVersion := write.schemaVersion
  expectedRevision := write.expectedRevision
  payloadDigest := cfg.digest write.payload
  updatedAtUnixMs := write.updatedAtUnixMs

def MultiTransactionFingerprint.fromRequest (request : MultiRecordTransactionalWrite) :
    MultiTransactionFingerprint D where
  writes := request.writes.map (TransactionalRecordFingerprint.fromWrite cfg)
  resultDigest := cfg.digest request.result

/-! ### Shards -/

/-- `hash_index`. -/
def hashIndex (hash : ℕ) : Fin cfg.shards := ⟨hash % cfg.shards, Nat.mod_lt _ cfg.shards_pos⟩

def dataIndex (record : RecordKey) : Fin cfg.shards := hashIndex cfg (cfg.hashRecord record)

def receiptIndex (operationId : String) : Fin cfg.shards :=
  hashIndex cfg (cfg.hashText operationId)

def tradeIndex (tradeId : String) : Fin cfg.shards := hashIndex cfg (cfg.hashText tradeId)

/-- An operation of the backend: early returns keep the state written so far. -/
abbrev MemoryM (α : Type) := EStateM Failure (MemoryBackend cfg) α

variable {cfg}

namespace MemoryBackend

def updateReceipts (b : MemoryBackend cfg) (operationId : String)
    (f : ReceiptShard D → ReceiptShard D) : MemoryBackend cfg :=
  let index := receiptIndex cfg operationId
  { b with
    receiptShards := Function.update b.receiptShards index (f (b.receiptShards index)) }

def insertSnapshot (b : MemoryBackend cfg) (snapshot : SnapshotEnvelope) : MemoryBackend cfg :=
  let index := dataIndex cfg snapshot.record
  { b with
    dataShards := Function.update b.dataShards index
      ⟨Function.update (b.dataShards index).snapshots snapshot.record (some snapshot)⟩ }

def insertOperationKind (b : MemoryBackend cfg) (operationId : String) (kind : OperationKind) :
    MemoryBackend cfg :=
  b.updateReceipts operationId fun receipts =>
    { receipts with
      operationKinds := Function.update receipts.operationKinds operationId (some kind) }

def insertSnapshotReceipt (b : MemoryBackend cfg) (requestId : String)
    (receipt : SnapshotReceipt D) : MemoryBackend cfg :=
  b.updateReceipts requestId fun receipts =>
    { receipts with snapshots := Function.update receipts.snapshots requestId (some receipt) }

def insertTransaction (b : MemoryBackend cfg) (operationId : String)
    (receipt : StoredTransactionReceipt D) : MemoryBackend cfg :=
  b.updateReceipts operationId fun receipts =>
    { receipts with
      transactions := Function.update receipts.transactions operationId (some receipt) }

def insertMultiTransaction (b : MemoryBackend cfg) (operationId : String)
    (receipt : StoredMultiTransactionReceipt D) : MemoryBackend cfg :=
  b.updateReceipts operationId fun receipts =>
    { receipts with
      multiTransactions := Function.update receipts.multiTransactions operationId (some receipt) }

def insertTradeTransaction (b : MemoryBackend cfg) (operationId : String)
    (receipt : StoredTradeTransactionReceipt) : MemoryBackend cfg :=
  b.updateReceipts operationId fun receipts =>
    { receipts with
      tradeTransactions := Function.update receipts.tradeTransactions operationId (some receipt) }

def insertTrade (b : MemoryBackend cfg) (trade : TradeEnvelope) : MemoryBackend cfg :=
  let index := tradeIndex cfg trade.tradeId
  { b with
    tradeShards := Function.update b.tradeShards index
      ⟨Function.update (b.tradeShards index).trades trade.tradeId (some trade)⟩ }

end MemoryBackend

open MemoryBackend

def failStore {α : Type} (error : StoreError) : MemoryM cfg α := throw (.store error)

/-- Lift a validation that does not look at the state. -/
def check {α : Type} : Except StoreError α → MemoryM cfg α
  | .ok a => pure a
  | .error e => failStore e

variable (cfg) in
/-- `lock_data_shards`: the sorted, duplicate-free shard indices of the writes. -/
def lockDataShards (writes : List TransactionalRecordWrite) : List (Fin cfg.shards) :=
  (sortOn id (writes.map fun write => dataIndex cfg write.record)).dedup

/-- `data.iter().find(..).expect("locked data shard missing")`. -/
def lockedShard (guards : List (Fin cfg.shards)) (record : RecordKey) :
    MemoryM cfg (Fin cfg.shards) :=
  match guards.find? fun candidate => candidate = dataIndex cfg record with
  | some index => pure index
  | none => throw (.panic "locked data shard missing")

def MemoryShard.revision (shard : MemoryShard) (record : RecordKey) : Revision :=
  ((shard.snapshots record).map (·.revision)).getD 0

def claimOperation (receipts : ReceiptShard D) (operationId : String) (kind : OperationKind) :
    Except StoreError Unit :=
  match receipts.operationKinds operationId with
  | some existing => if existing ≠ kind then .error (.operationIdConflict operationId) else .ok ()
  | none => .ok ()

/-- The compare-and-set loop; nothing is written before every write has passed. -/
def compareRevisions (guards : List (Fin cfg.shards)) :
    List TransactionalRecordWrite → MemoryM cfg (List TransactionRecordReceipt)
  | [] => pure []
  | write :: rest => do
    let index ← lockedShard guards write.record
    let actual := ((← get).dataShards index).revision write.record
    if actual ≠ write.expectedRevision then
      failStore (.revisionConflict write.record (some write.expectedRevision) actual)
    match actual.next with
    | none => failStore (.revisionExhausted write.record)
    | some newRevision =>
      let committed ← compareRevisions guards rest
      return ⟨write.record, newRevision⟩ :: committed

def TransactionalRecordWrite.envelope (write : TransactionalRecordWrite) (revision : Revision) :
    SnapshotEnvelope where
  record := write.record
  schema := write.schema
  schemaVersion := write.schemaVersion
  revision := revision
  payload := write.payload
  updatedAtUnixMs := write.updatedAtUnixMs

/-- The loop that stores the snapshots of `writes.zip(&committed)`. -/
def storeSnapshots (guards : List (Fin cfg.shards)) :
    List (TransactionalRecordWrite × TransactionRecordReceipt) → MemoryM cfg Unit
  | [] => pure ()
  | (write, receipt) :: rest => do
    let _ ← lockedShard guards write.record
    modify (·.insertSnapshot (write.envelope receipt.newRevision))
    storeSnapshots guards rest

/-! ### Operations -/

def save (request : SnapshotWrite) : MemoryM cfg SnapshotWriteOutcome := do
  if blank request.requestId then failStore .emptyRequestId
  let receipts := (← get).receiptShards (receiptIndex cfg request.requestId)
  let fingerprint := SnapshotFingerprint.fromRequest cfg request
  match receipts.snapshots request.requestId with
  | some receipt =>
    if receipt.record ≠ request.record ∨ receipt.fingerprint ≠ fingerprint then
      failStore (.idempotencyConflict request.requestId)
    return .duplicate receipt.revision
  | none =>
    let actual := ((← get).dataShards (dataIndex cfg request.record)).revision request.record
    if request.expectedRevision.any (· ≠ actual) then
      failStore (.revisionConflict request.record request.expectedRevision actual)
    match actual.next with
    | none => failStore (.revisionExhausted request.record)
    | some revision =>
      modify (·.insertSnapshot ⟨request.record, request.schema, request.schemaVersion, revision,
        request.payload, request.updatedAtUnixMs⟩)
      modify (·.insertSnapshotReceipt request.requestId ⟨request.record, fingerprint, revision⟩)
      return .applied revision

def applyTransaction (request : TransactionalWrite) :
    MemoryM cfg TransactionalWriteOutcome := do
  if blank request.operationId then failStore .emptyOperationId
  let receipts := (← get).receiptShards (receiptIndex cfg request.operationId)
  check (claimOperation receipts request.operationId .single)
  let fingerprint := TransactionFingerprint.fromRequest cfg request
  match receipts.transactions request.operationId with
  | some receipt =>
    if receipt.fingerprint ≠ fingerprint then
      failStore (.operationIdConflict request.operationId)
    return .duplicate receipt.newRevision receipt.result
  | none =>
    let actual := ((← get).dataShards (dataIndex cfg request.record)).revision request.record
    if actual ≠ request.expectedRevision then
      failStore (.revisionConflict request.record (some request.expectedRevision) actual)
    match actual.next with
    | none => failStore (.revisionExhausted request.record)
    | some newRevision =>
      modify (·.insertSnapshot ⟨request.record, request.schema, request.schemaVersion,
        newRevision, request.payload, request.updatedAtUnixMs⟩)
      modify (·.insertOperationKind request.operationId .single)
      modify (·.insertTransaction request.operationId ⟨fingerprint, newRevision, request.result⟩)
      return .applied newRevision request.result

/-- `normalize_multi`. -/
def normalizeMulti (request : MultiRecordTransactionalWrite) :
    Except StoreError MultiRecordTransactionalWrite := do
  if blank request.operationId then .error .emptyOperationId
  else if request.writes.isEmpty then .error .emptyTransactionRecords
  else
    let writes := sortOn (·.record) request.writes
    checkDistinctRecords (writes.map (·.record))
    .ok { request with writes }

/-- The uniqueness checks of `commit_records` on appends and events. -/
def checkEffectIds (ids : TradeIdentifiers) (effects : CommitEffects) : Except StoreError Unit := do
  effects.appends.forM fun append =>
    if (ids.appends append.record).isSome then .error (.appendRecordConflict append.record)
    else .ok ()
  effects.outboxEvents.forM fun event =>
    if event.eventId ∈ ids.outboxEventIds then .error (.outboxEventConflict event.eventId)
    else .ok ()

/-- Register the appends and the event ids of a commit. -/
def TradeIdentifiers.insertEffects (ids : TradeIdentifiers) (effects : CommitEffects) :
    TradeIdentifiers :=
  { ids with
    appends := effects.appends.foldl
      (fun appends append => Function.update appends append.record (some append)) ids.appends
    outboxEventIds := ids.outboxEventIds ∪ (effects.outboxEvents.map (·.eventId)).toFinset }

def commitRecords (request : MultiRecordTransactionalWrite) (effects : CommitEffects) :
    MemoryM cfg MultiRecordTransactionalWriteOutcome := do
  let effects ← check (effects.normalize cfg.decodeEnvelope)
  let request ← check (normalizeMulti request)
  let receipts := (← get).receiptShards (receiptIndex cfg request.operationId)
  check (claimOperation receipts request.operationId .multi)
  let fingerprint := MultiTransactionFingerprint.fromRequest cfg request
  match receipts.multiTransactions request.operationId with
  | some receipt =>
    if receipt.fingerprint ≠ fingerprint ∨ receipt.effects ≠ effects then
      failStore (.operationIdConflict request.operationId)
    return .duplicate receipt.records receipt.result
  | none =>
    -- the identifiers are locked, and looked at, only when there are effects
    if !effects.isEmpty then check (checkEffectIds (← get).tradeIdentifiers effects)
    let guards := lockDataShards cfg request.writes
    let committed ← compareRevisions guards request.writes
    storeSnapshots guards (request.writes.zip committed)
    modify (·.insertOperationKind request.operationId .multi)
    if !effects.isEmpty then
      modify fun b => { b with tradeIdentifiers := b.tradeIdentifiers.insertEffects effects }
    modify (·.insertMultiTransaction request.operationId
      ⟨effects, fingerprint, committed, request.result⟩)
    return .applied committed request.result

/-- `apply_multi_transaction`. -/
def applyMultiTransaction (request : MultiRecordTransactionalWrite) :
    MemoryM cfg MultiRecordTransactionalWriteOutcome :=
  commitRecords request {}

/-- The uniqueness checks of `apply_trade_transaction` on postings and events. -/
def checkTradeIds (ids : TradeIdentifiers) (request : TradeTransaction) : Except StoreError Unit :=
  do
  request.ledgerPostings.forM fun posting =>
    if posting.postingId ∈ ids.ledgerPostingIds then
      .error (.ledgerPostingConflict posting.postingId)
    else .ok ()
  request.outboxEvents.forM fun event =>
    if event.eventId ∈ ids.outboxEventIds then .error (.outboxEventConflict event.eventId)
    else .ok ()

/-- Version and state of the stored trade against the request's expectation. -/
def checkTradeState (current : Option TradeEnvelope) (transition : TradeTransition) :
    Except StoreError Unit :=
  let actualVersion := (current.map (·.version)).getD 0
  let actualState := current.map (·.state)
  if actualVersion ≠ transition.expectedVersion then
    .error (.tradeVersionConflict transition.tradeId transition.expectedVersion actualVersion)
  else if actualState ≠ transition.expectedState then
    .error (.tradeStateConflict transition.tradeId transition.expectedState actualState)
  else .ok ()

/-- Register the posting and event ids of a trade. -/
def TradeIdentifiers.insertTrade (ids : TradeIdentifiers) (request : TradeTransaction) :
    TradeIdentifiers :=
  { ids with
    ledgerPostingIds :=
      ids.ledgerPostingIds ∪ (request.ledgerPostings.map (·.postingId)).toFinset
    outboxEventIds := ids.outboxEventIds ∪ (request.outboxEvents.map (·.eventId)).toFinset }

def TradeTransition.envelope (transition : TradeTransition) (version : Revision) :
    TradeEnvelope where
  tradeId := transition.tradeId
  version := version
  state := transition.nextState
  payload := transition.payload
  updatedAtUnixMs := transition.updatedAtUnixMs

def TradeTransaction.receipt (request : TradeTransaction) (version : Revision)
    (committed : List TransactionRecordReceipt) : TradeReceipt where
  operationId := request.operationId
  tradeId := request.transition.tradeId
  newTradeVersion := version
  state := request.transition.nextState
  records := committed
  ledgerPostingIds := request.ledgerPostings.map (·.postingId)
  outboxEventIds := request.outboxEvents.map (·.eventId)
  result := request.result

def applyTradeTransaction (request : TradeTransaction) : MemoryM cfg TradeTransactionOutcome := do
  let request ← check (normalizeTradeTransaction request)
  let receipts := (← get).receiptShards (receiptIndex cfg request.operationId)
  check (claimOperation receipts request.operationId .trade)
  match receipts.tradeTransactions request.operationId with
  | some stored =>
    if stored.request ≠ request then failStore (.operationIdConflict request.operationId)
    return .duplicate stored.receipt
  | none =>
    let transition := request.transition
    let current := ((← get).tradeShards (tradeIndex cfg transition.tradeId)).trades
      transition.tradeId
    check (checkTradeState current transition)
    check (checkTradeIds (← get).tradeIdentifiers request)
    let guards := lockDataShards cfg request.writes
    let committed ← compareRevisions guards request.writes
    match Revision.next ((current.map (·.version)).getD 0) with
    | none => failStore (.tradeVersionExhausted transition.tradeId)
    | some newTradeVersion =>
      storeSnapshots guards (request.writes.zip committed)
      modify (·.insertTrade (transition.envelope newTradeVersion))
      modify fun b => { b with tradeIdentifiers := b.tradeIdentifiers.insertTrade request }
      let receipt := request.receipt newTradeVersion committed
      modify (·.insertOperationKind request.operationId .trade)
      modify (·.insertTradeTransaction request.operationId ⟨request, receipt⟩)
      return .applied receipt

end Operations

end DbProxy
