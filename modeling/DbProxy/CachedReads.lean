/-
`TieredSnapshotStore::load_cached_multi`: a batch read through the cache.

The function is an `Interaction`: it calls Redis, the gates of the read coordinator and
PostgreSQL, and any of them may answer anything.  Positions are carried along as pairs of
an index and its record, through three rounds of cache lookups with ever fewer records,
and into one query for what is left.  Metrics and log lines are left out, and a timeout is
an error of the call that it cuts off.

* `lookupMulti` — one round: `MGET` of three keys a record, and what it says of each;
* `recheck` — the loop that settles the records that a round found;
* `PostgresSnapshotStore.loadMulti` — the query, and its rows by record;
* `loadCachedMulti` — the whole read.

Outside the repository: bincode, the parameter `SnapshotCodec`.
-/
import DbProxy.CacheScripts
import DbProxy.Interaction
import DbProxy.SortOn

namespace DbProxy

open RedisSnapshotCache

/-! ### Calls -/

/-- The errors of a read that a caller may see. -/
inductive CachedReadError
  | redis (message : String)
  | cacheOperationTimeout (operation : String)
  | cacheProtocol (message : String)
  | codec (message : String)
  | cacheFallbackTimeout
  | cacheFallbackGateClosed
  | cacheFallbackCircuitOpen (retryAfterMs : ℕ)
  | schemaVersionTooLarge (record : RecordKey)
  | invalidRevision (record : RecordKey) (value : ℤ)
  | invalidTimestamp (record : RecordKey) (value : ℤ)
  | postgres (message : String)
deriving DecidableEq

/-- The columns of `snapshot_load_multi.sql`. -/
structure SnapshotColumns where
  ns : String
  key : String
  schema : String
  schemaVersion : ℤ
  revision : ℤ
  payload : Bytes
  updatedAtUnixMs : ℤ

structure CacheFallbackLock where
  key : String
  token : String
deriving DecidableEq

inductive CacheFallbackLockOutcome
  | acquired (lock : CacheFallbackLock)
  | cacheFilled (snapshot : SnapshotEnvelope)
  | negativeFilled
  | unavailable

inductive CachedReadCall
  /-- `MGET` within the budget of a cache operation -/
  | mget (keys : List String)
  | scheduleCacheRefresh (record : RecordKey)
  | acquireFallback
  | acquireKey (record : RecordKey)
  /-- whether some of the wait for locks is left -/
  | lockWaitLeft
  | acquireFallbackLock (record : RecordKey)
  | releaseFallbackLock (lock : CacheFallbackLock)
  | allowFallback
  | fallbackSucceeded
  | fallbackFailed
  /-- the query of `load_multi` within the budget of a fallback -/
  | query (namespaces keys : List String)
  | putCache (snapshot : SnapshotEnvelope)
  | putNegativeCache (record : RecordKey)

@[reducible] def CachedReadCall.Reply : CachedReadCall → Type
  | mget _ => Except CachedReadError (List (Option Bytes))
  | query _ _ => Except CachedReadError (List SnapshotColumns)
  | acquireFallback | allowFallback | putCache _ | putNegativeCache _ =>
    Except CachedReadError Unit
  | lockWaitLeft => Bool
  | acquireFallbackLock _ => CacheFallbackLockOutcome
  | scheduleCacheRefresh _ | acquireKey _ | releaseFallbackLock _ | fallbackSucceeded
  | fallbackFailed => Unit

abbrev CachedRead (α : Type) : Type :=
  ExceptT CachedReadError (Interaction CachedReadCall CachedReadCall.Reply) α

namespace CachedRead

/-- A call whose reply goes on as it is, an error included. -/
def reply (c : CachedReadCall) : CachedRead c.Reply := ExceptT.mk (.call c fun r => .done (.ok r))

def attempt {α : Type} (x : CachedRead α) : CachedRead (Except CachedReadError α) :=
  ExceptT.mk (x.run.bind fun r => .done (.ok r))

def orFail {α : Type} (x : Except CachedReadError α) : CachedRead α := Interaction.ofResult x

end CachedRead

open CachedRead

/-! ### One round of lookups -/

namespace RedisSnapshotCache

def lookupKeys (records : List RecordKey) : List String :=
  records.flatMap fun record => [cacheKey record, freshnessKey record, negativeKey record]

def decodeLookup (codec : SnapshotCodec) : List (Option Bytes) →
    Except CachedReadError CacheLookup
  | [none, _, negative] => .ok (if negative.isSome then .negative else .miss)
  | [some bytes, fresh, _] =>
    match codec.decode bytes with
    | .error message => .error (.codec message)
    | .ok snapshot => .ok (if fresh.isNone then .stale snapshot else .fresh snapshot)
  | values => .error (.cacheProtocol
      ("cache lookup returned " ++ toString values.length ++ " entries instead of 3"))

/-- `as_chunks::<3>().0`. -/
def chunks3 {α : Type} : List α → List (List α)
  | a :: b :: c :: rest => [a, b, c] :: chunks3 rest
  | _ => []

/-- What `count` records are told by the values of their keys. -/
def decodeLookups (codec : SnapshotCodec) (count : ℕ) (values : List (Option Bytes)) :
    Except CachedReadError (List CacheLookup) :=
  if values.length ≠ 3 * count then
    .error (.cacheProtocol ("MGET returned " ++ toString values.length ++ " entries for " ++
      toString count ++ " records"))
  else (chunks3 values).mapM (decodeLookup codec)

def lookupMulti (codec : SnapshotCodec) (records : List RecordKey) :
    CachedRead (List CacheLookup) := do
  if records = [] then return []
  else
    let values ← orFail (← reply (.mget (lookupKeys records)))
    orFail (decodeLookups codec records.length values)

end RedisSnapshotCache

/-! ### PostgreSQL -/

def snapshotFromRow (row : SnapshotColumns) : Except CachedReadError SnapshotEnvelope :=
  let record : RecordKey := ⟨row.ns, row.key⟩
  if row.schemaVersion < 0 ∨ 2 ^ 32 ≤ row.schemaVersion then .error (.schemaVersionTooLarge record)
  else if row.revision < 0 then .error (.invalidRevision record row.revision)
  else if row.updatedAtUnixMs < 0 then .error (.invalidTimestamp record row.updatedAtUnixMs)
  else .ok ⟨record, row.schema, row.schemaVersion.toNat, row.revision.toNat, row.payload,
    row.updatedAtUnixMs.toNat⟩

namespace PostgresSnapshotStore

/-- `insert` into the `HashMap` of the rows, which replaces an earlier row of the record. -/
def insertRow (m : RecordKey → Option SnapshotEnvelope) (snapshot : SnapshotEnvelope) :
    RecordKey → Option SnapshotEnvelope :=
  Function.update m snapshot.record (some snapshot)

def byRecord (snapshots : List SnapshotEnvelope) : RecordKey → Option SnapshotEnvelope :=
  snapshots.foldl insertRow fun _ => none

/-- `remove` for one record after the other. -/
def takeAll : (RecordKey → Option SnapshotEnvelope) → List RecordKey →
    List (Option SnapshotEnvelope)
  | _, [] => []
  | m, record :: rest => m record :: takeAll (Function.update m record none) rest

def loadMulti (records : List RecordKey) : CachedRead (List (Option SnapshotEnvelope)) := do
  if records = [] then return []
  else
    let rows ← orFail (← reply (.query (records.map (·.ns)) (records.map (·.key))))
    let snapshots ← orFail (rows.mapM snapshotFromRow)
    return takeAll (byRecord snapshots) records

end PostgresSnapshotStore

/-! ### The batch read -/

/-- The index of a record in the request, with the record. -/
abbrev Position := ℕ × RecordKey

namespace TieredSnapshotStore

/-- The connection itself failed, so the cache is not tried again. -/
def cacheConnectionUnavailable : CachedReadError → Bool
  | .redis _ | .cacheOperationTimeout _ => true
  | _ => false

/-- A round of lookups settles the records that it found; the others are still missing. -/
def recheck : List (Position × CacheLookup) → List (Option SnapshotEnvelope) → List Position →
    CachedRead (List (Option SnapshotEnvelope) × List Position)
  | [], snapshots, missing => pure (snapshots, missing)
  | ((index, record), lookup) :: rest, snapshots, missing => do
    match lookup with
    | .fresh snapshot => recheck rest (snapshots.set index (some snapshot)) missing
    | .stale snapshot =>
      reply (.scheduleCacheRefresh record)
      recheck rest (snapshots.set index (some snapshot)) missing
    | .negative => recheck rest snapshots missing
    | .miss => recheck rest snapshots (missing ++ [(index, record)])

/-- What is known after a round: the answers, the positions that are still missing and whether
the cache can be used. -/
structure ReadState where
  snapshots : List (Option SnapshotEnvelope)
  missing : List Position
  cacheAvailable : Bool

/-- The second and third round; a reply that does not fit is as good as none. -/
def recheckRound (codec : SnapshotCodec) (s : ReadState) : CachedRead ReadState := do
  if !s.cacheAvailable then return s
  else
    match ← attempt (lookupMulti codec (s.missing.map (·.2))) with
    | .ok refreshed =>
      if refreshed.length = (s.missing.map (·.2)).length then
        let (snapshots, missing) ← recheck (s.missing.zip refreshed) s.snapshots []
        return { s with snapshots, missing }
      else return s
    | .error e => return { s with cacheAvailable := !cacheConnectionUnavailable e }

/-- `sort_by` namespace and key, then `dedup`. -/
def lockOrder (records : List RecordKey) : List RecordKey := (sortOn id records).destutter (· ≠ ·)

def acquireKeys : List RecordKey → CachedRead PUnit
  | [] => pure ⟨⟩
  | record :: rest => do
    reply (.acquireKey record)
    acquireKeys rest

/-- The distributed locks, and whether the loop stopped early. -/
def acquireLocks : List RecordKey → List CacheFallbackLock →
    CachedRead (List CacheFallbackLock × Bool)
  | [], locks => pure (locks, false)
  | record :: rest, locks => do
    if !(← reply .lockWaitLeft) then return (locks, true)
    else
      match ← reply (.acquireFallbackLock record) with
      | .acquired lock => acquireLocks rest (locks ++ [lock])
      | .cacheFilled _ | .negativeFilled => acquireLocks rest locks
      | .unavailable => return (locks, true)

def releaseFallbackLocks : List CacheFallbackLock → CachedRead PUnit
  | [] => pure ⟨⟩
  | lock :: rest => do
    reply (.releaseFallbackLock lock)
    releaseFallbackLocks rest

/-- Locks are taken for all positions or given up; those that are given up expire. -/
def distributedLocks (s : ReadState) : CachedRead (List CacheFallbackLock) := do
  if !s.cacheAvailable then return []
  else
    let (locks, failed) ← acquireLocks (lockOrder (s.missing.map (·.2))) []
    return if failed then [] else locks

/-- The values of the query, written to the cache and to their positions. -/
def fill (cacheAvailable : Bool) : List (Position × Option SnapshotEnvelope) →
    List (Option SnapshotEnvelope) → CachedRead (List (Option SnapshotEnvelope))
  | [], snapshots => pure snapshots
  | ((index, record), snapshot) :: rest, snapshots => do
    if cacheAvailable then
      match snapshot with
      | some snapshot => let _ ← reply (.putCache snapshot)
      | none => let _ ← reply (.putNegativeCache record)
    fill cacheAvailable rest (snapshots.set index snapshot)

/-- The query for the positions that no round found. -/
def loadMissing (s : ReadState) (locks : List CacheFallbackLock) :
    CachedRead (List (Option SnapshotEnvelope)) := do
  match ← reply .allowFallback with
  | .error e =>
    releaseFallbackLocks locks
    throw e
  | .ok _ =>
    match ← attempt (PostgresSnapshotStore.loadMulti (s.missing.map (·.2))) with
    | .error e =>
      reply .fallbackFailed
      releaseFallbackLocks locks
      throw e
    | .ok loaded =>
      reply .fallbackSucceeded
      let snapshots ← fill s.cacheAvailable (s.missing.zip loaded) s.snapshots
      releaseFallbackLocks locks
      return snapshots

def positions (records : List RecordKey) : List Position :=
  records.zipIdx.map fun x => (x.2, x.1)

/-- The first round; without an answer every record is missing. -/
def firstRound (codec : SnapshotCodec) (records : List RecordKey) : CachedRead ReadState := do
  let first ← attempt (lookupMulti codec records)
  let (lookups, cacheAvailable) := match first with
    | .ok lookups => (lookups, true)
    | .error e => (List.replicate records.length .miss, !cacheConnectionUnavailable e)
  let (snapshots, missing) ← recheck ((positions records).zip lookups)
    (List.replicate records.length none) []
  return ⟨snapshots, missing, cacheAvailable⟩

def loadCachedMulti (codec : SnapshotCodec) (records : List RecordKey) :
    CachedRead (List (Option SnapshotEnvelope)) := do
  let s ← firstRound codec records
  if s.missing = [] then return s.snapshots
  else
    orFail (← reply .acquireFallback)
    acquireKeys (lockOrder (s.missing.map (·.2)))
    let s ← recheckRound codec s
    if s.missing = [] then return s.snapshots
    else
      let locks ← distributedLocks s
      -- another instance may have filled an entry while the locks were awaited
      let s ← recheckRound codec s
      if s.missing = [] then
        releaseFallbackLocks locks
        return s.snapshots
      else loadMissing s locks

end TieredSnapshotStore

end DbProxy
