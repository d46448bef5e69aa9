/-
The Redis snapshot backlog (`backlog.rs`): eight Lua scripts.

The scripts share six keys: one entry per record under `entryKey`, the sorted
sets `pending` and `processing`, the hash `leases` and the counters of leases
and fence sequences.  Redis runs a script atomically, so a script is a function
on `Backlog`.  Numbers follow Lua (`LuaNumber`): the clock arithmetic rounds to
doubles, an entry carries its sequence as the exact `%.0f` digits, and a lease
id is the `tostring` of a counter.

Outside the repository: bincode, the parameter `encode`.
-/
import DbProxy.CoreTypes
import DbProxy.LuaNumber
import DbProxy.SortedSet
import DbProxy.Text

namespace DbProxy

open LuaNumber Text

/-! ### Keys and data -/

def entryPrefix : String := "dbproxy:snapshot-backlog:entry:"

/-- `SEQUENCED_ENTRY_TAG`: the bytes of `"\0Q1:"`. -/
def sequencedEntryTag : Bytes := [0, 81, 49, 58]

def reclaimLimit : ℕ := 128

namespace RedisSnapshotBacklog

/-- Length prefixes keep different records apart when a key contains colons. -/
def member (record : RecordKey) : String :=
  toString record.ns.utf8ByteSize ++ ":" ++ record.ns ++ ":" ++
    toString record.key.utf8ByteSize ++ ":" ++ record.key

def entryKey (member : String) : String := entryPrefix ++ member

end RedisSnapshotBacklog

open RedisSnapshotBacklog

/-- The content of the backlog's Redis keys.  `fenceSequence` stands for the digits
stored under the fence key, absent for zero. -/
structure Backlog where
  entries : String → Option Bytes := fun _ => none
  pending : SortedSet String := ∅
  processing : SortedSet String := ∅
  leases : String → Option String := fun _ => none
  leaseSequence : ℕ := 0
  fenceSequence : ℕ := 0

structure EnqueueEntry where
  entryKey : String
  encoded : Bytes
  member : String

/-- One tuple returned by a claim: what a worker holds while it flushes the entry. -/
structure ClaimedEntry where
  member : String
  leaseId : String
  encoded : Bytes
deriving DecidableEq

inductive SnapshotBacklogAck
  | removed
  | superseded
  | leaseLost
deriving DecidableEq

/-- The reply of `TIME`. -/
structure RedisClock where
  seconds : ℕ
  micros : ℕ
  micros_lt : micros < 1000000

/-- A whole second of the Redis clock. -/
def wholeSecond (seconds : ℕ) : RedisClock := ⟨seconds, 0, Nat.zero_lt_succ 999999⟩

/-- `tonumber(clock[1]) * 1000000 + tonumber(clock[2])`. -/
def RedisClock.unixMicros (clock : RedisClock) : ℕ :=
  add (mul (toDouble clock.seconds) 1000000) clock.micros

/-- `tonumber(clock[1]) * 1000 + math.floor(tonumber(clock[2]) / 1000)`. -/
def RedisClock.unixMillis (clock : RedisClock) : ℕ :=
  add (mul (toDouble clock.seconds) 1000) (clock.micros / 1000)

/-! ### Preparing an enqueue -/

namespace RedisSnapshotBacklog

def validate (request : SnapshotWrite) : Except StoreError Unit :=
  if blank request.requestId then .error .emptyRequestId
  else if blank request.record.ns then .error (.invalidKey "namespace is empty")
  else if blank request.record.key then .error (.invalidKey "key is empty")
  else if request.expectedRevision.isSome then
    .error (.queuedSnapshotRequiresUnconditionalWrite request.record)
  else .ok ()

def prepare (encode : SnapshotWrite → Bytes) (request : SnapshotWrite) :
    Except StoreError EnqueueEntry := do
  validate request
  let member := member request.record
  return ⟨entryKey member, encode request, member⟩

end RedisSnapshotBacklog

/-! ### `ENQUEUE_BATCH_SCRIPT` -/

/-- `'\0Q1:' .. string.format('%.0f', sequence) .. ':' .. encoded`. -/
def sequencedEntry (sequence : ℕ) (encoded : Bytes) : Bytes :=
  sequencedEntryTag ++ Decimal.bytes sequence ++ 58 :: encoded

/-- `if now > sequence then sequence = now else sequence = sequence + 1 end`. -/
def nextSequence (now sequence : ℕ) : ℕ :=
  if sequence < now then now else add sequence 1

namespace Backlog

def enqueueLoop (score now : ℕ) : ℕ → Backlog → List EnqueueEntry → Backlog
  | sequence, b, [] => { b with fenceSequence := sequence }
  | sequence, b, entry :: rest =>
    let sequence := nextSequence now sequence
    let b := { b with
      entries := Function.update b.entries entry.entryKey
        (some (sequencedEntry sequence entry.encoded))
      pending := b.pending.zadd (toDouble score) entry.member }
    enqueueLoop score now sequence b rest

def enqueueBatchScript (clock : RedisClock) (score : ℕ) (entries : List EnqueueEntry)
    (b : Backlog) : ℕ × Backlog :=
  (entries.length, enqueueLoop score clock.unixMicros b.fenceSequence b entries)

/-! ### `CLAIM_SCRIPT` and `CLAIM_MULTI_SCRIPT` -/

/-- One expired lease: back to `pending` if the entry is still there. -/
def reclaim (now : ℕ) (b : Backlog) (member : String) : Backlog :=
  let b := { b with
    processing := b.processing.zrem member
    leases := Function.update b.leases member none }
  if (b.entries (entryKey member)).isSome then
    { b with pending := b.pending.zadd now member }
  else b

def reclaimExpired (now : ℕ) (b : Backlog) : Backlog :=
  (b.processing.zrangeByScore now reclaimLimit).foldl (reclaim now) b

/-- One round of the claim loops: pop a member; lease it unless its entry is gone or
it is still leased.  `none` when `pending` is empty. -/
def claimNext (deadline : ℕ) (b : Backlog) : Option (Option ClaimedEntry × Backlog) :=
  match b.pending.zpopmin with
  | none => none
  | some (member, pending) =>
    let b := { b with pending }
    match b.entries (entryKey member) with
    | none => some (none, b)
    | some payload =>
      if (b.processing.zscore member).isSome then some (none, b)
      else
        let leaseSequence := b.leaseSequence + 1
        let lease := tostring (toDouble leaseSequence)
        some (some ⟨member, lease, payload⟩, { b with
          leaseSequence
          processing := b.processing.zadd deadline member
          leases := Function.update b.leases member (some lease) })

def claimLoop (deadline : ℕ) : ℕ → Backlog → Option ClaimedEntry × Backlog
  | 0, b => (none, b)
  | rounds + 1, b =>
    match claimNext deadline b with
    | none => (none, b)
    | some (some claimed, b) => (some claimed, b)
    | some (none, b) => claimLoop deadline rounds b

def claimScript (clock : RedisClock) (leaseMs : ℕ) (b : Backlog) :
    Option ClaimedEntry × Backlog :=
  let now := clock.unixMillis
  let deadline := add now (toDouble leaseMs)
  claimLoop deadline reclaimLimit (reclaimExpired now b)

def claimMultiLoop (deadline claimLimit : ℕ) :
    ℕ → List ClaimedEntry → Backlog → List ClaimedEntry × Backlog
  | 0, claimed, b => (claimed, b)
  | rounds + 1, claimed, b =>
    if claimLimit ≤ claimed.length then (claimed, b)
    else
      match claimNext deadline b with
      | none => (claimed, b)
      | some (some entry, b) => claimMultiLoop deadline claimLimit rounds (claimed ++ [entry]) b
      | some (none, b) => claimMultiLoop deadline claimLimit rounds claimed b

def claimMultiScript (clock : RedisClock) (leaseMs claimLimit : ℕ) (b : Backlog) :
    List ClaimedEntry × Backlog :=
  let now := clock.unixMillis
  let deadline := add now (toDouble leaseMs)
  claimMultiLoop deadline claimLimit (reclaimLimit + claimLimit) [] (reclaimExpired now b)

/-! ### `ACK_SCRIPT`, `RELEASE_SCRIPT`, their batches and `RENEW_SCRIPT` -/

/-- `HDEL` and `ZREM` of a member whose lease ends. -/
def endLease (b : Backlog) (member : String) : Backlog :=
  { b with
    leases := Function.update b.leases member none
    processing := b.processing.zrem member }

def ackScript (now : ℕ) (lease : ClaimedEntry) (b : Backlog) : SnapshotBacklogAck × Backlog :=
  if b.leases lease.member ≠ some lease.leaseId then (.leaseLost, b)
  else
    let b := b.endLease lease.member
    match b.entries (entryKey lease.member) with
    | none => (.removed, { b with pending := b.pending.zrem lease.member })
    | some current =>
      if current = lease.encoded then
        (.removed, { b with
          entries := Function.update b.entries (entryKey lease.member) none
          pending := b.pending.zrem lease.member })
      else (.superseded, { b with pending := b.pending.zadd (toDouble now) lease.member })

/-- `ACK_MULTI_SCRIPT` runs the same branches for each lease. -/
def ackMultiScript (now : ℕ) : List ClaimedEntry → Backlog → List SnapshotBacklogAck × Backlog
  | [], b => ([], b)
  | lease :: rest, b =>
    let (result, b) := ackScript now lease b
    let (results, b) := ackMultiScript now rest b
    (result :: results, b)

/-- `true` when the lease was still current. -/
def releaseScript (now : ℕ) (lease : ClaimedEntry) (b : Backlog) : Bool × Backlog :=
  if b.leases lease.member ≠ some lease.leaseId then (false, b)
  else
    let b := b.endLease lease.member
    if (b.entries (entryKey lease.member)).isSome then
      (true, { b with pending := b.pending.zadd (toDouble now) lease.member })
    else (true, b)

def releaseMultiScript (now : ℕ) : List ClaimedEntry → Backlog → List Bool × Backlog
  | [], b => ([], b)
  | lease :: rest, b =>
    let (result, b) := releaseScript now lease b
    let (results, b) := releaseMultiScript now rest b
    (result :: results, b)

def renewScript (clock : RedisClock) (leaseMs : ℕ) (lease : ClaimedEntry) (b : Backlog) :
    Bool × Backlog :=
  let deadline := add clock.unixMillis (toDouble leaseMs)
  if b.leases lease.member ≠ some lease.leaseId then (false, b)
  else if (b.entries (entryKey lease.member)).isNone then (false, b)
  else (true, { b with processing := b.processing.zadd deadline lease.member })

end Backlog

end DbProxy
