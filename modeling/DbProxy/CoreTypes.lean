/-
The data types of the core contract (`crates/dbproxy-core`).

Texts are `String`, payloads are byte lists, `u32`/`u64` fields are natural
numbers and `i64` amounts are integers; the one place where the width of a
revision matters is `Revision.next`, the `checked_add(1)` of the source.
-/
import DbProxy.Text
import Mathlib.Data.Prod.Lex

namespace DbProxy

abbrev Bytes := List UInt8

/-- Logical address of one persisted record. -/
structure RecordKey where
  ns : String
  key : String
deriving Repr

/-- Records are ordered by namespace, then by key, both bytewise. -/
instance : LinearOrder RecordKey :=
  LinearOrder.lift' (fun r : RecordKey => toLex (r.ns, r.key)) fun a b h => by
    cases a; cases b; simpa using h

/-- Monotonic persistence version; zero stands for an absent record. -/
abbrev Revision := ℕ

/-- `checked_add(1)` on a `u64`. -/
def Revision.next (r : Revision) : Option Revision :=
  if r + 1 < 2 ^ 64 then some (r + 1) else none

theorem Revision.next_eq_some {r r' : Revision} :
    Revision.next r = some r' ↔ r + 1 < 2 ^ 64 ∧ r' = r + 1 := by
  rw [Revision.next]
  split <;> simp_all [eq_comm]

structure SnapshotEnvelope where
  record : RecordKey
  schema : String
  schemaVersion : ℕ
  revision : Revision
  payload : Bytes
  updatedAtUnixMs : ℕ
deriving DecidableEq, Repr

/-- One snapshot write request; `expectedRevision = none` skips the version check. -/
structure SnapshotWrite where
  requestId : String
  record : RecordKey
  schema : String
  schemaVersion : ℕ
  payload : Bytes
  expectedRevision : Option Revision
  updatedAtUnixMs : ℕ
deriving DecidableEq, Repr

inductive SnapshotWriteOutcome
  | applied (revision : Revision)
  | duplicate (revision : Revision)
deriving DecidableEq, Repr

/-- One critical operation on one record, with the result a retry must get back. -/
structure TransactionalWrite where
  operationId : String
  record : RecordKey
  schema : String
  schemaVersion : ℕ
  expectedRevision : Revision
  payload : Bytes
  result : Bytes
  updatedAtUnixMs : ℕ
deriving DecidableEq, Repr

inductive TransactionalWriteOutcome
  | applied (newRevision : Revision) (result : Bytes)
  | duplicate (newRevision : Revision) (result : Bytes)
deriving DecidableEq, Repr

/-- One complete snapshot write in a multi-record transaction. -/
structure TransactionalRecordWrite where
  record : RecordKey
  schema : String
  schemaVersion : ℕ
  expectedRevision : Revision
  payload : Bytes
  updatedAtUnixMs : ℕ
deriving DecidableEq, Repr

structure MultiRecordTransactionalWrite where
  operationId : String
  writes : List TransactionalRecordWrite
  result : Bytes
deriving DecidableEq, Repr

structure TransactionRecordReceipt where
  record : RecordKey
  newRevision : Revision
deriving DecidableEq, Repr

inductive MultiRecordTransactionalWriteOutcome
  | applied (records : List TransactionRecordReceipt) (result : Bytes)
  | duplicate (records : List TransactionRecordReceipt) (result : Bytes)
deriving DecidableEq, Repr

structure MultiRecordTransactionReceipt where
  operationId : String
  records : List TransactionRecordReceipt
  result : Bytes
deriving DecidableEq, Repr

/-- Opaque event committed with authoritative records and delivered at least once. -/
structure OutboxEvent where
  eventId : String
  topic : String
  partitionKey : String
  payload : Bytes
  occurredAtUnixMs : ℕ
deriving DecidableEq, Repr

/-- Immutable fact, uniquely addressed within the append collection. -/
structure AppendRecord where
  record : RecordKey
  schema : String
  schemaVersion : ℕ
  payload : Bytes
  occurredAtUnixMs : ℕ
deriving DecidableEq, Repr

inductive TradeState
  | proposed
  | escrowed
  | settled
  | cancelled
deriving DecidableEq, Repr

structure TradeTransition where
  tradeId : String
  expectedVersion : Revision
  expectedState : Option TradeState
  nextState : TradeState
  payload : Bytes
  updatedAtUnixMs : ℕ
deriving DecidableEq, Repr

structure TradeEnvelope where
  tradeId : String
  version : Revision
  state : TradeState
  payload : Bytes
  updatedAtUnixMs : ℕ
deriving DecidableEq, Repr

/-- One line of double-entry bookkeeping; the amounts of an asset sum to zero. -/
structure LedgerPosting where
  postingId : String
  accountId : String
  asset : String
  amount : ℤ
  metadata : Bytes
deriving DecidableEq, Repr

structure TradeTransaction where
  operationId : String
  transition : TradeTransition
  writes : List TransactionalRecordWrite
  ledgerPostings : List LedgerPosting
  outboxEvents : List OutboxEvent
  result : Bytes
deriving DecidableEq, Repr

structure TradeReceipt where
  operationId : String
  tradeId : String
  newTradeVersion : Revision
  state : TradeState
  records : List TransactionRecordReceipt
  ledgerPostingIds : List String
  outboxEventIds : List String
  result : Bytes
deriving DecidableEq, Repr

inductive TradeTransactionOutcome
  | applied (receipt : TradeReceipt)
  | duplicate (receipt : TradeReceipt)
deriving DecidableEq, Repr

/-- Which operation family owns an operation id. -/
inductive OperationKind
  | single
  | multi
  | trade
deriving DecidableEq, Repr

/-- `StoreError`, with the texts and record addresses its variants carry. -/
inductive StoreError
  | appendRecordConflict (record : RecordKey)
  | invalidKey (reason : String)
  | emptyRequestId
  | emptyOperationId
  | idempotencyConflict (requestId : String)
  | operationIdConflict (operationId : String)
  | operationExpired (operationId : String)
  | queuedSnapshotRequiresUnconditionalWrite (record : RecordKey)
  | revisionConflict (record : RecordKey) (expected : Option Revision) (actual : Revision)
  | revisionExhausted (record : RecordKey)
  | emptyTransactionRecords
  | duplicateTransactionRecord (record : RecordKey)
  | emptyTradeId
  | emptyTradeRecords
  | tradeVersionConflict (tradeId : String) (expected actual : Revision)
  | tradeStateConflict (tradeId : String) (expected actual : Option TradeState)
  | tradeVersionExhausted (tradeId : String)
  | invalidTradeStateTransition (source : Option TradeState) (target : TradeState)
  | invalidLedgerPosting (reason : String)
  | duplicateLedgerPosting (postingId : String)
  | ledgerPostingConflict (postingId : String)
  | unbalancedLedger (asset : String)
  | invalidOutboxEvent (reason : String)
  | duplicateOutboxEvent (eventId : String)
  | outboxEventConflict (eventId : String)
deriving DecidableEq, Repr

/-- `RecordKey::new`. -/
def RecordKey.new (ns key : String) : Except StoreError RecordKey :=
  if Text.blank ns then .error (.invalidKey "namespace is empty")
  else if Text.blank key then .error (.invalidKey "key is empty")
  else .ok ⟨ns, key⟩

end DbProxy
