/-
The locks of the request transactions (`commit_records`, `apply_trade`, `apply` and
`save_multi` of `dbproxy-storage`).

A transaction is the list of its statements that can meet another one: advisory locks,
rows that it locks or writes, and keys that it inserts.  Everything is held to the end.
`SELECT FOR UPDATE` of a row that is absent locks nothing, and an `INSERT` of a key waits
for an uncommitted `INSERT` of the same key.  The rows of its own operation or request id
are left out, as no two transactions have the same id.

* `TxPlan` — the statements of a request, decided by its claim: a retry of a committed
  request only repeats its cache repairs;
* `TxSystem.step` — one statement, a commit or a rollback of one transaction;
* `TxSystem.waitsFor` — who waits for whom.
-/
import DbProxy.OutboxSystem
import DbProxy.PostgresReceipts

namespace DbProxy

open Text

/-! ### Requests -/

/-- A batch that has passed `validate_snapshot_write_batch`. -/
structure SnapshotBatch where
  writes : List SnapshotWrite
  distinct : (writes.map (·.record)).Nodup
deriving DecidableEq

inductive TxRequest
  | commitRecords (request : MultiRecordTransactionalWrite) (effects : CommitEffects)
  | applyTrade (request : TradeTransaction)
  | apply (request : TransactionalWrite)
  | saveMulti (batch : SnapshotBatch)
deriving DecidableEq

namespace TxRequest

/-- The operation id, or the request ids of a batch. -/
def ids : TxRequest → List String
  | commitRecords request _ => [request.operationId]
  | applyTrade request => [request.operationId]
  | apply request => [request.operationId]
  | saveMulti batch => batch.writes.map (·.requestId)

def records : TxRequest → List RecordKey
  | commitRecords request _ => request.writes.map (·.record)
  | applyTrade request => request.writes.map (·.record)
  | apply request => [request.record]
  | saveMulti batch => batch.writes.map (·.record)

end TxRequest

/-! ### Locks -/

/-- What `advisory_lock_key` names. -/
inductive LockName
  | trade (tradeId : String)
  | partition (scope partitionKey : String)
  | record (record : RecordKey)
deriving DecidableEq

def LockName.key : LockName → String
  | .trade tradeId => advisoryLockKey "trade" [tradeId]
  | .partition scope partitionKey => partitionLockKey scope partitionKey
  | .record address => advisoryLockKey "record" [address.ns, address.key]

/-- Keys that are inserted once. -/
inductive UniqueKey
  | posting (postingId : String)
  | append (record : RecordKey)
  | event (eventId : String)
deriving DecidableEq

/-- Rows that several transactions write; a key that is inserted is a row, too. -/
inductive LockRow
  | trade (tradeId : String)
  | snapshot (record : RecordKey)
  | repair (record : RecordKey)
  | unique (key : UniqueKey)
deriving DecidableEq

inductive LockTarget
  | advisory (name : LockName)
  | row (row : LockRow)
deriving DecidableEq

/-- An advisory lock is a number, the hash of its name. -/
inductive LockResource
  | advisory (id : ℤ)
  | row (row : LockRow)
deriving DecidableEq

def LockTarget.resource (hash : String → ℤ) : LockTarget → LockResource
  | .advisory name => .advisory (hash name.key)
  | .row sharedRow => .row sharedRow

/-! ### Statements -/

inductive LockStatement
  /-- `SELECT pg_advisory_xact_lock(hashtextextended($1, 0))` -/
  | advisoryXactLock (name : LockName)
  /-- `SELECT revision FROM dbproxy_snapshots … FOR UPDATE` and the check of the revision -/
  | selectForUpdate (record : RecordKey) (expected : Revision)
  /-- `SELECT version, state FROM dbproxy_trades … FOR UPDATE` and its checks -/
  | selectTradeForUpdate (tradeId : String) (version : Revision) (state : Option TradeState)
  /-- the `UPDATE` or `INSERT` of one entry of a batch -/
  | saveSnapshot (request : SnapshotWrite)
  /-- the `INSERT` or `UPDATE` of `apply` -/
  | applySnapshot (record : RecordKey) (expected : Revision)
  /-- the upsert of a trade -/
  | upsertTrade (tradeId : String) (version : Revision) (state : TradeState)
  /-- `persist_transactional_snapshot` -/
  | persistSnapshot (record : RecordKey) (expected : Revision)
  /-- `cache_repair::enqueue_in_transaction` -/
  | enqueueRepair (record : RecordKey)
  /-- the `INSERT` of a posting, an append record or an event -/
  | insertUnique (key : UniqueKey)
deriving DecidableEq

namespace LockStatement

def target : LockStatement → LockTarget
  | advisoryXactLock name => .advisory name
  | selectForUpdate record _ => .row (.snapshot record)
  | selectTradeForUpdate tradeId _ _ => .row (.trade tradeId)
  | saveSnapshot request => .row (.snapshot request.record)
  | applySnapshot record _ => .row (.snapshot record)
  | upsertTrade tradeId _ _ => .row (.trade tradeId)
  | persistSnapshot record _ => .row (.snapshot record)
  | enqueueRepair record => .row (.repair record)
  | insertUnique key => .row (.unique key)

/-- What follows the lock loop of `commit_records` and `apply_trade`. -/
def isWrite : LockStatement → Bool
  | upsertTrade .. => true
  | persistSnapshot .. => true
  | enqueueRepair _ => true
  | insertUnique _ => true
  | _ => false

end LockStatement

/-! ### The committed rows -/

structure TxDb where
  snapshots : RecordKey → Option Revision := fun _ => none
  trades : String → Option (Revision × TradeState) := fun _ => none
  /-- committed postings, append records and events -/
  unique : UniqueKey → Bool := fun _ => false
  /-- the receipts of snapshot writes -/
  receipts : String → Option SnapshotWrite := fun _ => none
  /-- the claimed operations, with the checked request -/
  operations : String → Option TxRequest := fun _ => none

/-- What a statement changes when its transaction commits. -/
inductive TxWrite
  | snapshot (record : RecordKey) (revision : Revision)
  | trade (tradeId : String) (version : Revision) (state : TradeState)
  | unique (key : UniqueKey)
  | receipt (request : SnapshotWrite)
  | operation (id : String) (request : TxRequest)

inductive StatementOutcome
  | next
  /-- One entry of a batch is refused, and the batch goes on. -/
  | entryFailed
  /-- The transaction rolls back. -/
  | failed
deriving DecidableEq

namespace TxDb

variable (db : TxDb)

/-- Whether a statement locks its target; otherwise it has nothing to wait for. -/
def locks : LockStatement → Bool
  | .advisoryXactLock _ => true
  | .selectForUpdate record _ => (db.snapshots record).isSome
  | .selectTradeForUpdate tradeId _ _ => (db.trades tradeId).isSome
  | .saveSnapshot request => request.expectedRevision.all (· = (db.snapshots request.record).getD 0)
  | .applySnapshot record expected => (db.snapshots record).all (· = expected)
  | .upsertTrade .. => true
  | .persistSnapshot .. => true
  | .enqueueRepair _ => true
  | .insertUnique key => !db.unique key

/-- How a statement ends once it has its lock. -/
def outcome : LockStatement → StatementOutcome
  | .selectForUpdate record expected =>
    if (db.snapshots record).getD 0 = expected then .next else .failed
  | .selectTradeForUpdate tradeId version state =>
    if ((db.trades tradeId).map (·.1)).getD 0 = version ∧ (db.trades tradeId).map (·.2) = state then
      .next
    else .failed
  | .saveSnapshot request => if db.locks (.saveSnapshot request) then .next else .entryFailed
  | .applySnapshot record expected =>
    if (db.snapshots record).all (· = expected) then .next else .failed
  | .persistSnapshot record expected =>
    if (db.snapshots record).all (· = expected) then .next else .failed
  | .insertUnique key => if db.unique key then .failed else .next
  | _ => .next

def changes : LockStatement → List TxWrite
  | .saveSnapshot request =>
    [.snapshot request.record ((db.snapshots request.record).getD 0 + 1), .receipt request]
  | .applySnapshot record expected => [.snapshot record (expected + 1)]
  | .persistSnapshot record expected => [.snapshot record (expected + 1)]
  | .upsertTrade tradeId version state => [.trade tradeId version state]
  | .insertUnique key => [.unique key]
  | _ => []

def apply : TxWrite → TxDb
  | .snapshot record revision =>
    { db with snapshots := Function.update db.snapshots record (some revision) }
  | .trade tradeId version state =>
    { db with trades := Function.update db.trades tradeId (some (version, state)) }
  | .unique key => { db with unique := Function.update db.unique key true }
  | .receipt request =>
    { db with receipts := Function.update db.receipts request.requestId (some request) }
  | .operation id request =>
    { db with operations := Function.update db.operations id (some request) }

end TxDb

/-! ### The statements of a request -/

structure TxPlan where
  statements : List LockStatement
  /-- a `commit_records` or an `apply_trade` that is no retry -/
  locking : Bool
  /-- the operation that the claim stores -/
  claim : Option (String × TxRequest)

def TxPlan.targets (plan : TxPlan) : List LockTarget := plan.statements.map (·.target)

/-- The lock loop. -/
def recordLocks (writes : List TransactionalRecordWrite) : List LockStatement :=
  writes.flatMap fun write =>
    [.advisoryXactLock (.record write.record),
      .selectForUpdate write.record write.expectedRevision]

def recordWrites (writes : List TransactionalRecordWrite) : List LockStatement :=
  writes.flatMap fun write =>
    [.persistSnapshot write.record write.expectedRevision, .enqueueRepair write.record]

def partitionLocks (routes : List (String × String)) : List LockStatement :=
  (lockOrder routes).map fun route => .advisoryXactLock (.partition route.1 route.2)

/-- A transaction that locks its records before it writes them. -/
def lockingStatements (first : List LockStatement) (writes : List TransactionalRecordWrite)
    (upsert : List LockStatement) (unique : List UniqueKey) : List LockStatement :=
  (first ++ recordLocks writes) ++ ((upsert ++ recordWrites writes) ++
    unique.map .insertUnique)

/-- The routes that `lock_partitions` resolves. -/
def commitRoutes (decode : Bytes → Option EventEnvelope) (routes : OutboxRoutes)
    (events : List OutboxEvent) : Except StorageError (List (String × String)) :=
  events.mapM fun event => do
    let scope ← commitLockScope decode routes event
    return (scope, event.partitionKey)

def tradeRoutes (events : List OutboxEvent) : List (String × String) :=
  events.map fun event => (event.topic, event.partitionKey)

/-- The claim of an operation: it is new, or a retry of the stored request. -/
def claimPlan (db : TxDb) (id : String) (request : TxRequest)
    (statements : Except StorageError (List LockStatement)) (locking : Bool) :
    Except StorageError TxPlan :=
  match db.operations id with
  | none => do
    let statements ← statements
    return { statements, locking, claim := some (id, request) }
  | some stored =>
    if stored = request then
      .ok { statements := request.records.map .enqueueRepair, locking := false, claim := none }
    else .error (.core (.operationIdConflict id))

/-- One entry of a batch. -/
def saveStatements (db : TxDb) (request : SnapshotWrite) : List LockStatement :=
  match prepareSave request none with
  | .error _ => []
  | .ok _ =>
    match db.receipts request.requestId with
    | none => [.saveSnapshot request, .enqueueRepair request.record]
    | some stored => if stored = request then [.enqueueRepair request.record] else []

/-- `validate_transaction_request`. -/
def validateTransactionRequest (request : TransactionalWrite) : Except StoreError Unit :=
  if blank request.operationId then .error .emptyOperationId
  else if blank request.record.ns then .error (.invalidKey "namespace is empty")
  else if blank request.record.key then .error (.invalidKey "key is empty")
  else .ok ()

def commitStatements (decode : Bytes → Option EventEnvelope) (routes : OutboxRoutes)
    (request : MultiRecordTransactionalWrite) (effects : CommitEffects) :
    Except StorageError (List LockStatement) := do
  let partitions ← commitRoutes decode routes effects.outboxEvents
  return lockingStatements (partitionLocks partitions) request.writes []
    (effects.appends.map (.append ·.record) ++ effects.outboxEvents.map (.event ·.eventId))

def tradeStatements (request : TradeTransaction) : List LockStatement :=
  let transition := request.transition
  lockingStatements
    (.advisoryXactLock (.trade transition.tradeId) ::
      .selectTradeForUpdate transition.tradeId transition.expectedVersion
        transition.expectedState :: partitionLocks (tradeRoutes request.outboxEvents))
    request.writes
    [.upsertTrade transition.tradeId (transition.expectedVersion + 1) transition.nextState]
    (request.ledgerPostings.map (.posting ·.postingId) ++
      request.outboxEvents.map (.event ·.eventId))

def applyStatements (request : TransactionalWrite) : List LockStatement :=
  [.selectForUpdate request.record request.expectedRevision,
    .applySnapshot request.record request.expectedRevision, .enqueueRepair request.record]

/-- The checks of a request and its claim. -/
def TxDb.plan (decode : Bytes → Option EventEnvelope) (routes : OutboxRoutes) (db : TxDb) :
    TxRequest → Except StorageError TxPlan
  | .commitRecords request effects => do
    let (request, effects) ← prepareCommit decode request effects
    claimPlan db request.operationId (.commitRecords request effects)
      (commitStatements decode routes request effects) true
  | .applyTrade request => do
    let request ← (normalizeTradeTransaction request).mapError .core
    claimPlan db request.operationId (.applyTrade request) (.ok (tradeStatements request)) true
  | .apply request => do
    (validateTransactionRequest request).mapError .core
    claimPlan db request.operationId (.apply request) (.ok (applyStatements request)) false
  | .saveMulti batch =>
    .ok { statements := (sortOn (·.record) batch.writes).flatMap (saveStatements db)
          locking := false, claim := none }

/-! ### The system -/

structure Tx where
  request : TxRequest
  plan : TxPlan
  /-- the number of the next statement -/
  next : ℕ := 0
  held : List LockTarget := []
  writes : List TxWrite := []
  ended : Bool := false

inductive TxEvent
  /-- A request begins; `routes` are the routes that it finds registered. -/
  | begin (request : TxRequest) (routes : OutboxRoutes)
  /-- The next statement, or the commit. -/
  | exec (tx : ℕ)
  /-- Any other error, or a lost connection. -/
  | rollback (tx : ℕ)

structure TxSystem where
  db : TxDb
  txs : List Tx := []

def Tx.start (request : TxRequest) (plan : TxPlan) : Tx :=
  { request, plan, writes := (plan.claim.map fun claim => .operation claim.1 claim.2).toList }

def Tx.statement (tx : Tx) : Option LockStatement :=
  if tx.ended then none else tx.plan.statements[tx.next]?

/-- After a statement: its lock and its changes are kept to the end. -/
def Tx.advance (db : TxDb) (tx : Tx) (statement : LockStatement) : Tx :=
  { tx with
    next := tx.next + 1
    held := if db.locks statement then statement.target :: tx.held else tx.held
    writes := tx.writes ++ db.changes statement }

/-- After a refused entry of a batch: there is no repair, either. -/
def Tx.skipEntry (tx : Tx) : Tx := { tx with next := tx.next + 2 }

def Tx.finish (tx : Tx) : Tx := { tx with held := [], writes := [], ended := true }

namespace TxSystem

section

variable (hash : String → ℤ) (s : TxSystem)

/-- The transaction `j` holds what the next statement of `i` has to lock. -/
def waitsFor (i j : ℕ) : Bool :=
  i ≠ j && ((s.txs[i]?.bind Tx.statement).any fun statement =>
    s.db.locks statement && (s.txs[j]?).any fun other =>
      other.held.any fun target => target.resource hash = statement.target.resource hash)

def isBlocked (i : ℕ) : Bool := (List.range s.txs.length).any fun j => s.waitsFor hash i j

def set (i : ℕ) (tx : Tx) : TxSystem := { s with txs := s.txs.set i tx }

/-- Execute the statement of a transaction that waits for nobody. -/
def exec (i : ℕ) (tx : Tx) : TxSystem :=
  match tx.statement with
  | none => { db := tx.writes.foldl TxDb.apply s.db, txs := s.txs.set i tx.finish }
  | some statement =>
    match s.db.outcome statement with
    | .next => s.set i (tx.advance s.db statement)
    | .entryFailed => s.set i tx.skipEntry
    | .failed => s.set i tx.finish

end

def step (hash : String → ℤ) (decode : Bytes → Option EventEnvelope) (s : TxSystem) :
    TxEvent → Option TxSystem
  | .begin request routes =>
    match s.db.plan decode routes request with
    | .error _ => some s
    | .ok plan => some { s with txs := s.txs ++ [Tx.start request plan] }
  | .exec i =>
    s.txs[i]?.bind fun tx =>
      if tx.ended || s.isBlocked hash i then none else some (s.exec i tx)
  | .rollback i =>
    s.txs[i]?.bind fun tx => if tx.ended then none else some (s.set i tx.finish)

end TxSystem

end DbProxy
