/-
The snapshot cache in Redis (`RedisSnapshotCache`): its scripts over five keys
per record.

`Keyspace` is what Redis holds; keys do not expire here, so the expiry commands
of the scripts are left out.  A script is a function on the keyspace and gets its
keys as arguments, as in the source.  `CacheEntry` is one record's part of the
keyspace, and every script is shown to act on the entries of its records only:

* `keyOf_inj` — the keys of different records and roles are different;
* `tokenExceeds_iff` — the scripts' comparison of revision tokens is the order
  of the revisions;
* `putMulti_eq` — a batch is refused as a whole or put one after the other;
* `entryOf_put`, `entryOf_putNegative`, `entryOf_delete`, `entryOf_fallbackLock`
  — a script on one entry.

Outside the repository: bincode, the parameter `SnapshotCodec`.
-/
import DbProxy.Checks
import DbProxy.CoreTypes
import DbProxy.LengthPrefix
import DbProxy.PaddedDecimal

namespace DbProxy

open LengthPrefix

/-! ### Keys -/

/-- The string keys of a Redis instance. -/
abbrev Keyspace := String → Option Bytes

/-- bincode of a snapshot. -/
structure SnapshotCodec where
  encode : SnapshotEnvelope → Except String Bytes
  decode : Bytes → Except String SnapshotEnvelope

structure CacheKeys where
  value : String
  revision : String
  freshness : String
  negative : String

namespace RedisSnapshotCache

def cacheKeyStart : String := "dbproxy:snapshot:"

/-- Length prefixes allow colons in business keys. -/
def cacheKey (record : RecordKey) : String :=
  cacheKeyStart ++ toString record.ns.utf8ByteSize ++ ":" ++ record.ns ++ ":" ++
    toString record.key.utf8ByteSize ++ ":" ++ record.key

def revisionKey (record : RecordKey) : String := cacheKey record ++ ":revision"

def freshnessKey (record : RecordKey) : String := cacheKey record ++ ":fresh-until"

def negativeKey (record : RecordKey) : String := cacheKey record ++ ":negative"

def fallbackLockKey (record : RecordKey) : String := cacheKey record ++ ":fallback-lock"

def keysOf (record : RecordKey) : CacheKeys :=
  ⟨cacheKey record, revisionKey record, freshnessKey record, negativeKey record⟩

/-- `format!("{:020}", revision)`. -/
def revisionToken (revision : Revision) : Bytes := Decimal.padded 20 revision

end RedisSnapshotCache

open RedisSnapshotCache

/-! ### Scripts -/

/-- The bytes of `'1'`. -/
def marker : Bytes := [49]

/-- The current token is longer, or as long and greater. -/
def tokenExceeds (current incoming : Bytes) : Bool :=
  incoming.length < current.length ||
    (current.length = incoming.length && incoming < current)

/-- The writes of the two put scripts. -/
def storeSnapshot (keys : CacheKeys) (bytes token : Bytes) (redis : Keyspace) : Keyspace :=
  let redis := Function.update redis keys.value (some bytes)
  let redis := Function.update redis keys.revision (some token)
  let redis := Function.update redis keys.negative none
  Function.update redis keys.freshness (some marker)

/-- `REVISION_AWARE_CACHE_PUT_SCRIPT`. -/
def cachePutScript (keys : CacheKeys) (bytes token : Bytes) (redis : Keyspace) :
    Bool × Keyspace :=
  if (redis keys.revision).any (tokenExceeds · token) then (false, redis)
  else (true, storeSnapshot keys bytes token redis)

/-- The condition of the batch script, which states what is accepted. -/
def tokenAtMost (current incoming : Bytes) : Bool :=
  current.length < incoming.length ||
    (current.length = incoming.length && current ≤ incoming)

/-- `REVISION_AWARE_CACHE_PUT_MULTI_SCRIPT`, with the number of stored snapshots. -/
def cachePutMultiScript : List (CacheKeys × Bytes × Bytes) → Keyspace → ℕ × Keyspace
  | [], redis => (0, redis)
  | (keys, bytes, token) :: rest, redis =>
    if (redis keys.revision).all (tokenAtMost · token) then
      let (stored, redis) := cachePutMultiScript rest (storeSnapshot keys bytes token redis)
      (stored + 1, redis)
    else cachePutMultiScript rest redis

/-- `NEGATIVE_CACHE_PUT_SCRIPT`; an empty `expected` stands for no revision. -/
def negativeCachePutScript (keys : CacheKeys) (expected : Bytes) (redis : Keyspace) :
    Bool × Keyspace :=
  let current := redis keys.revision
  if expected ≠ [] then
    if current ≠ some expected then (false, redis)
    else
      let redis := Function.update redis keys.value none
      let redis := Function.update redis keys.revision none
      let redis := Function.update redis keys.freshness none
      (true, Function.update redis keys.negative (some marker))
  else if (redis keys.value).isSome || current.isSome then
    (false, Function.update redis keys.negative none)
  else
    let redis := Function.update redis keys.freshness none
    (true, Function.update redis keys.negative (some marker))

/-- `CACHE_DELETE_SCRIPT`. -/
def cacheDeleteScript (keys : CacheKeys) (redis : Keyspace) : Keyspace :=
  let redis := Function.update redis keys.value none
  let redis := Function.update redis keys.revision none
  let redis := Function.update redis keys.freshness none
  Function.update redis keys.negative none

/-- `CACHE_FALLBACK_LOCK_RELEASE_SCRIPT`. -/
def cacheFallbackLockReleaseScript (key : String) (token : Bytes) (redis : Keyspace) : Keyspace :=
  if redis key = some token then Function.update redis key none else redis

namespace RedisSnapshotCache

def put (codec : SnapshotCodec) (snapshot : SnapshotEnvelope) (redis : Keyspace) :
    Except String Unit × Keyspace :=
  match codec.encode snapshot with
  | .error e => (.error e, redis)
  | .ok bytes => (.ok (), (cachePutScript (keysOf snapshot.record) bytes
      (revisionToken snapshot.revision) redis).2)

/-- Nothing is sent when one of the snapshots cannot be encoded. -/
def putMulti (codec : SnapshotCodec) (snapshots : List SnapshotEnvelope) (redis : Keyspace) :
    Except String Unit × Keyspace :=
  match snapshots.mapM codec.encode with
  | .error e => (.error e, redis)
  | .ok prepared => (.ok (), (cachePutMultiScript (List.zipWith (fun snapshot bytes =>
      (keysOf snapshot.record, bytes, revisionToken snapshot.revision)) snapshots prepared)
      redis).2)

/-- `put_negative_if_revision`, for the configured lifetime of negative markers. -/
def putNegativeIfRevision (negativeTtl : ℕ) (record : RecordKey) (expected : Option Revision)
    (redis : Keyspace) : Keyspace :=
  if negativeTtl = 0 then redis
  else
    (negativeCachePutScript (keysOf record) ((expected.map revisionToken).getD []) redis).2

def delete (record : RecordKey) (redis : Keyspace) : Keyspace :=
  cacheDeleteScript (keysOf record) redis

/-- `SET NX` of the lock that one reader holds while it loads the record. -/
def tryAcquireFallbackLock (record : RecordKey) (token : Bytes) (redis : Keyspace) : Keyspace :=
  if (redis (fallbackLockKey record)).isSome then redis
  else Function.update redis (fallbackLockKey record) (some token)

def releaseFallbackLock (record : RecordKey) (token : Bytes) (redis : Keyspace) : Keyspace :=
  cacheFallbackLockReleaseScript (fallbackLockKey record) token redis

end RedisSnapshotCache

inductive CacheLookup
  | fresh (snapshot : SnapshotEnvelope)
  | stale (snapshot : SnapshotEnvelope)
  | negative
  | miss
deriving DecidableEq

/-- `lookup` of one record: the value, the freshness and the negative marker. -/
def RedisSnapshotCache.lookup (codec : SnapshotCodec) (record : RecordKey) (redis : Keyspace) :
    Except String CacheLookup :=
  match redis (cacheKey record) with
  | none => .ok (if (redis (negativeKey record)).isSome then .negative else .miss)
  | some bytes =>
    match codec.decode bytes with
    | .error e => .error e
    | .ok snapshot =>
      .ok (if (redis (freshnessKey record)).isNone then .stale snapshot else .fresh snapshot)

/-! ### Different keys -/

/-- The roles of a record's keys. -/
inductive CacheRole
  | value
  | revision
  | freshness
  | negative
  | fallbackLock
deriving DecidableEq

def keyOf (record : RecordKey) : CacheRole → String
  | .value => cacheKey record
  | .revision => revisionKey record
  | .freshness => freshnessKey record
  | .negative => negativeKey record
  | .fallbackLock => fallbackLockKey record

def CacheRole.suffix : CacheRole → List Char
  | .value => []
  | .revision => ":revision".toList
  | .freshness => ":fresh-until".toList
  | .negative => ":negative".toList
  | .fallbackLock => ":fallback-lock".toList

theorem suffix_injective : Function.Injective CacheRole.suffix := by
  intro a b h
  cases a <;> cases b <;> first | rfl | exact absurd h (by decide)

theorem toList_keyOf (record : RecordKey) (role : CacheRole) :
    (keyOf record role).toList = (cacheKey record).toList ++ role.suffix := by
  cases role with
  | value => exact (List.append_nil _).symm
  | revision => exact String.toList_append
  | freshness => exact String.toList_append
  | negative => exact String.toList_append
  | fallbackLock => exact String.toList_append

theorem toList_cacheKey (r : RecordKey) :
    (cacheKey r).toList = cacheKeyStart.toList ++
      ((toString r.ns.utf8ByteSize).toList ++ (":".toList ++ (r.ns.toList ++ (":".toList ++
        ((toString r.key.utf8ByteSize).toList ++ (":".toList ++ r.key.toList)))))) := by
  simp only [cacheKey, String.toList_append, List.append_assoc]

/-- Different records and roles have different keys. -/
theorem keyOf_inj {r r' : RecordKey} {role role' : CacheRole} :
    keyOf r role = keyOf r' role' ↔ r = r' ∧ role = role' := by
  constructor
  · intro h
    have hlist := congrArg String.toList h
    simp only [toList_keyOf, toList_cacheKey, List.append_assoc, List.append_cancel_left_eq]
      at hlist
    -- length, namespace, length, key, suffix
    obtain ⟨hnslen, hlist⟩ := repr_append_inj hlist
    obtain ⟨hns, hlist⟩ := text_append_inj hnslen hlist
    rw [List.append_cancel_left_eq] at hlist
    obtain ⟨hkeylen, hlist⟩ := repr_append_inj hlist
    obtain ⟨hkey, hsuffix⟩ := text_append_inj hkeylen hlist
    refine ⟨?_, suffix_injective hsuffix⟩
    calc r = ⟨r.ns, r.key⟩ := rfl
      _ = ⟨r'.ns, r'.key⟩ := by rw [hns, hkey]
  · rintro ⟨rfl, rfl⟩
    rfl

/-! ### Tokens -/

/-- The scripts compare tokens as the revisions compare. -/
theorem tokenExceeds_iff {current incoming : Revision} :
    tokenExceeds (revisionToken current) (revisionToken incoming) = true ↔ incoming < current := by
  rw [← @Decimal.padded_lt_iff 20 incoming current]
  show (decide (_ < _) || (decide (_ = _) && decide (_ < _))) = true ↔ _
  rw [Bool.or_eq_true, Bool.and_eq_true, decide_eq_true_iff, decide_eq_true_iff,
    decide_eq_true_iff]
  exact or_congr_right (and_congr_left fun _ => eq_comm)

/-- The batch script accepts exactly what the single script does not refuse. -/
theorem tokenAtMost_eq (current incoming : Bytes) :
    tokenAtMost current incoming = !tokenExceeds current incoming := by
  rw [tokenAtMost, tokenExceeds]
  by_cases hlt : current.length < incoming.length
  · have hge : ¬ incoming.length < current.length := by omega
    have hne : ¬ current.length = incoming.length := by omega
    simp [hlt, hge, hne]
  · by_cases heq : current.length = incoming.length
    · by_cases hle : current ≤ incoming
      · simp [heq, hle, List.not_lt.mpr hle]
      · simp [heq, hle, List.not_le.mp hle]
    · have hgt : incoming.length < current.length := by omega
      simp [hlt, hgt, heq]

theorem revisionToken_injective : Function.Injective revisionToken := Decimal.padded_injective 20

theorem revisionToken_ne_nil (revision : Revision) : revisionToken revision ≠ [] := by
  intro h
  have hlength := congrArg List.length h
  rw [revisionToken, Decimal.length_padded, List.length_nil] at hlength
  omega

/-! ### One record's part of the keyspace -/

structure CacheEntry where
  value : Option Bytes
  revision : Option Bytes
  freshness : Option Bytes
  negative : Option Bytes
deriving DecidableEq

def entryOf (redis : Keyspace) (r : RecordKey) : CacheEntry :=
  ⟨redis (keyOf r .value), redis (keyOf r .revision), redis (keyOf r .freshness),
    redis (keyOf r .negative)⟩

namespace CacheEntry

def put (bytes token : Bytes) (e : CacheEntry) : CacheEntry :=
  if e.revision.any (tokenExceeds · token) then e
  else ⟨some bytes, some token, some marker, none⟩

def putNegative (expected : Bytes) (e : CacheEntry) : CacheEntry :=
  if expected ≠ [] then
    if e.revision ≠ some expected then e else ⟨none, none, none, some marker⟩
  else if e.value.isSome || e.revision.isSome then { e with negative := none }
  else { e with freshness := none, negative := some marker }

end CacheEntry

theorem keysOf_eq (r : RecordKey) : keysOf r =
    ⟨keyOf r .value, keyOf r .revision, keyOf r .freshness, keyOf r .negative⟩ := rfl

theorem entryOf_storeSnapshot (r r' : RecordKey) (bytes token : Bytes) (redis : Keyspace) :
    entryOf (storeSnapshot (keysOf r) bytes token redis) r' =
      if r' = r then ⟨some bytes, some token, some marker, none⟩ else entryOf redis r' := by
  by_cases h : r' = r
  · subst h
    simp [entryOf, storeSnapshot, keysOf_eq, keyOf_inj]
  · simp [entryOf, storeSnapshot, keysOf_eq, keyOf_inj, h]

/-- The put script on the entry of its record. -/
theorem entryOf_cachePutScript (r r' : RecordKey) (bytes token : Bytes) (redis : Keyspace) :
    entryOf (cachePutScript (keysOf r) bytes token redis).2 r' =
      if r' = r then (entryOf redis r').put bytes token else entryOf redis r' := by
  have hrevision : (entryOf redis r).revision = redis (keysOf r).revision := rfl
  rw [cachePutScript]
  by_cases h : r' = r
  · subst h
    rw [if_pos rfl, CacheEntry.put, hrevision]
    split
    · rfl
    · rw [entryOf_storeSnapshot, if_pos rfl]
  · rw [if_neg h]
    split
    · rfl
    · rw [entryOf_storeSnapshot, if_neg h]

/-- `put` on the entry of its record. -/
theorem entryOf_put (codec : SnapshotCodec) (snapshot : SnapshotEnvelope) (redis : Keyspace)
    (r : RecordKey) :
    entryOf (put codec snapshot redis).2 r =
      match codec.encode snapshot with
      | .error _ => entryOf redis r
      | .ok bytes =>
        if r = snapshot.record then
          (entryOf redis r).put bytes (revisionToken snapshot.revision)
        else entryOf redis r := by
  rw [put]
  cases codec.encode snapshot with
  | error e => rfl
  | ok bytes => exact entryOf_cachePutScript ..

/-- One round of the batch script is the single script. -/
theorem cachePutMultiScript_cons (keys : CacheKeys) (bytes token : Bytes)
    (rest : List (CacheKeys × Bytes × Bytes)) (redis : Keyspace) :
    (cachePutMultiScript ((keys, bytes, token) :: rest) redis).2 =
      (cachePutMultiScript rest (cachePutScript keys bytes token redis).2).2 := by
  have hcond : (redis keys.revision).all (tokenAtMost · token) =
      !(redis keys.revision).any (tokenExceeds · token) := by
    cases redis keys.revision with
    | none => rfl
    | some current => exact tokenAtMost_eq current token
  rw [cachePutMultiScript, cachePutScript, hcond]
  cases (redis keys.revision).any (tokenExceeds · token) with
  | true => rfl
  | false => rfl

/-- `put_multi` of snapshots that can be encoded puts one after the other. -/
theorem cachePutMultiScript_eq_foldl {codec : SnapshotCodec} :
    ∀ {snapshots : List SnapshotEnvelope} {prepared : List Bytes} (redis : Keyspace),
      List.Forall₂ (fun snapshot bytes => codec.encode snapshot = .ok bytes) snapshots prepared →
      (cachePutMultiScript (List.zipWith (fun snapshot bytes =>
        (keysOf snapshot.record, bytes, revisionToken snapshot.revision)) snapshots prepared)
        redis).2 =
      snapshots.foldl (fun redis snapshot => (put codec snapshot redis).2) redis
  | [], _, redis, .nil => rfl
  | snapshot :: rest, bytes :: prepared, redis, .cons hencode hrest => by
    rw [List.zipWith_cons_cons, cachePutMultiScript_cons, cachePutMultiScript_eq_foldl _ hrest,
      List.foldl_cons, put, hencode]

theorem putMulti_eq (codec : SnapshotCodec) (snapshots : List SnapshotEnvelope)
    (redis : Keyspace) :
    (∃ e, putMulti codec snapshots redis = (.error e, redis)) ∨
      putMulti codec snapshots redis =
        (.ok (), snapshots.foldl (fun redis snapshot => (put codec snapshot redis).2) redis) ∧
      ∀ snapshot ∈ snapshots, ∀ redis, (put codec snapshot redis).1 = .ok () := by
  rw [putMulti]
  cases hprepared : snapshots.mapM codec.encode with
  | error e => exact Or.inl ⟨e, rfl⟩
  | ok prepared =>
    have hencode := Checks.mapM_eq_ok.mp hprepared
    refine Or.inr ⟨congrArg _ (cachePutMultiScript_eq_foldl redis hencode),
      fun snapshot hmem redis => ?_⟩
    obtain ⟨bytes, -, hbytes⟩ := Checks.exists_of_forall₂_right hencode.flip hmem
    rw [put, hbytes]

/-- The negative script on the entry of its record. -/
theorem entryOf_negativeCachePutScript (r r' : RecordKey) (expected : Bytes) (redis : Keyspace) :
    entryOf (negativeCachePutScript (keysOf r) expected redis).2 r' =
      if r' = r then (entryOf redis r').putNegative expected else entryOf redis r' := by
  rw [negativeCachePutScript, keysOf_eq]
  dsimp only
  by_cases h : r' = r
  · subst h
    rw [if_pos rfl, CacheEntry.putNegative]
    -- the two sides branch on the same conditions
    have hvalue : (entryOf redis r').value = redis (keyOf r' .value) := rfl
    have hrevision : (entryOf redis r').revision = redis (keyOf r' .revision) := rfl
    rw [hvalue, hrevision]
    by_cases hexpected : expected ≠ []
    · rw [if_pos hexpected, if_pos hexpected]
      by_cases hmatch : redis (keyOf r' .revision) ≠ some expected
      · rw [if_pos hmatch, if_pos hmatch]
      · rw [if_neg hmatch, if_neg hmatch]
        simp [entryOf, keyOf_inj]
    · rw [if_neg hexpected, if_neg hexpected]
      split
      · simp [entryOf, keyOf_inj]
      · simp [entryOf, keyOf_inj]
  · rw [if_neg h]
    split
    · split
      · rfl
      · simp [entryOf, keyOf_inj, h]
    · split
      · simp [entryOf, keyOf_inj, h]
      · simp [entryOf, keyOf_inj, h]

theorem entryOf_putNegative (negativeTtl : ℕ) (r : RecordKey) (expected : Option Revision)
    (redis : Keyspace) (r' : RecordKey) :
    entryOf (putNegativeIfRevision negativeTtl r expected redis) r' = entryOf redis r' ∨
      r' = r ∧ entryOf (putNegativeIfRevision negativeTtl r expected redis) r' =
        (entryOf redis r').putNegative ((expected.map revisionToken).getD []) := by
  rw [putNegativeIfRevision]
  by_cases hzero : negativeTtl = 0
  · rw [if_pos hzero]
    exact Or.inl rfl
  rw [if_neg hzero, entryOf_negativeCachePutScript]
  by_cases h : r' = r
  · rw [if_pos h]
    exact Or.inr ⟨h, rfl⟩
  · rw [if_neg h]
    exact Or.inl rfl

theorem entryOf_delete (r : RecordKey) (redis : Keyspace) (r' : RecordKey) :
    entryOf (delete r redis) r' =
      if r' = r then ⟨none, none, none, none⟩ else entryOf redis r' := by
  rw [delete, cacheDeleteScript, keysOf_eq]
  by_cases h : r' = r
  · subst h
    simp [entryOf, keyOf_inj]
  · simp [entryOf, keyOf_inj, h]

/-- The fallback lock is no part of an entry. -/
theorem entryOf_fallbackLock (r r' : RecordKey) (lock : Option Bytes) (redis : Keyspace) :
    entryOf (Function.update redis (fallbackLockKey r) lock) r' = entryOf redis r' := by
  have hkey : fallbackLockKey r = keyOf r .fallbackLock := rfl
  simp [entryOf, hkey, keyOf_inj]

theorem entryOf_tryAcquireFallbackLock (r r' : RecordKey) (token : Bytes) (redis : Keyspace) :
    entryOf (tryAcquireFallbackLock r token redis) r' = entryOf redis r' := by
  rw [tryAcquireFallbackLock]
  split
  · rfl
  · exact entryOf_fallbackLock ..

theorem entryOf_releaseFallbackLock (r r' : RecordKey) (token : Bytes) (redis : Keyspace) :
    entryOf (releaseFallbackLock r token redis) r' = entryOf redis r' := by
  rw [releaseFallbackLock, cacheFallbackLockReleaseScript]
  split
  · exact entryOf_fallbackLock ..
  · rfl

end DbProxy
