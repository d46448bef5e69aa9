/-
The two cache put scripts, argument by argument.

`CacheScripts` takes the batch script as a walk over its snapshots.  Here both scripts
are as Redis runs them: over `KEYS` and `ARGV`, with the expiry commands, at one reading
of the server's clock, keeping what was done before a refused command.

* `revisionAwareCachePutMulti_eq` — the loop over the indices is one over the snapshots;
* `putRound_eq` — one round does what the single script does, on the opposite condition;
* `ExpiringSnapshotCache.putMulti_eq_forM` — `put_multi` is `put`, one after the other;
* `visible_cachePut` — without the expiry the single script is that of `CacheScripts`.

Outside the repository: bincode and the hasher that spreads the expiries.
-/
import DbProxy.CacheCoherence
import DbProxy.ExpiringKeys

namespace DbProxy

open ExpiringKeys ScriptArguments RedisSnapshotCache

/-! ### Lifetimes -/

/-- `Duration`s in milliseconds. -/
structure SnapshotCacheConfig where
  ttl : ℕ
  ttlJitter : ℕ
  negativeTtl : ℕ
  staleWhileRevalidate : ℕ

def u64Max : ℕ := 2 ^ 64 - 1

def saturatingAdd (a b : ℕ) : ℕ := min (a + b) u64Max

/-- A duration as `u64`, at most `i64::MAX`. -/
def durationMillis (milliseconds : ℕ) : ℕ := min (min milliseconds u64Max) (2 ^ 63 - 1)

namespace SnapshotCacheConfig

variable (config : SnapshotCacheConfig) (hash : RecordKey → UInt64) (record : RecordKey)

def jitterMs : ℕ :=
  let jitter := durationMillis config.ttlJitter
  if jitter = 0 then 0 else (hash record).toNat % saturatingAdd jitter 1

def freshTtlMs : ℕ :=
  max (saturatingAdd (durationMillis config.ttl) (config.jitterMs hash record)) 1

def hardTtlMs : ℕ :=
  max (saturatingAdd (config.freshTtlMs hash record) (durationMillis config.staleWhileRevalidate)) 1

end SnapshotCacheConfig

/-! ### The scripts -/

/-- `REVISION_AWARE_CACHE_PUT_SCRIPT`. -/
def revisionAwareCachePut (now : ℕ) (keys : List String) (argv : List Bytes) : Script ℕ := do
  let current ← get now (← nonNil (at? keys 2))
  let incoming ← nonNil (at? argv 2)
  if current.any (tokenExceeds · incoming) then return 0
  else
    set (← nonNil (at? keys 1)) (← nonNil (at? argv 1))
    set (← nonNil (at? keys 2)) incoming
    del (← nonNil (at? keys 4))
    setPx now (← nonNil (at? keys 3)) marker (← nonNil (at? argv 3))
    pexpire now (← nonNil (at? keys 1)) (← nonNil (at? argv 4))
    pexpire now (← nonNil (at? keys 2)) (← nonNil (at? argv 4))
    return 1

/-- The keys and arguments at an index of the batch, by offset. -/
structure PutWindow where
  keys : ℕ → Option String
  argv : ℕ → Option Bytes

def putWindow (keys : List String) (argv : List Bytes) (index : ℕ) : PutWindow :=
  ⟨fun offset => at? keys (index + offset), fun offset => at? argv (index + offset)⟩

/-- One round of the batch script. -/
def putRound (now stored : ℕ) (window : PutWindow) : Script ℕ := do
  let current ← get now (← nonNil (window.keys 1))
  let incoming ← nonNil (window.argv 1)
  if current.all (tokenAtMost · incoming) then
    set (← nonNil (window.keys 0)) (← nonNil (window.argv 0))
    set (← nonNil (window.keys 1)) incoming
    del (← nonNil (window.keys 3))
    setPx now (← nonNil (window.keys 2)) marker (← nonNil (window.argv 2))
    pexpire now (← nonNil (window.keys 0)) (← nonNil (window.argv 3))
    pexpire now (← nonNil (window.keys 1)) (← nonNil (window.argv 3))
    return stored + 1
  else return stored

/-- `REVISION_AWARE_CACHE_PUT_MULTI_SCRIPT`. -/
def revisionAwareCachePutMulti (now : ℕ) (keys : List String) (argv : List Bytes) : Script ℕ :=
  (indices 1 argv.length 4).foldlM (fun stored index =>
    putRound now stored (putWindow keys argv index)) 0

/-! ### The cache -/

inductive CacheWriteError
  | codec (message : String)
  | redis (error : ScriptError)
deriving DecidableEq

structure ExpiringSnapshotCache where
  policy : SnapshotCacheConfig
  codec : SnapshotCodec
  hash : RecordKey → UInt64

namespace ExpiringSnapshotCache

variable (cache : ExpiringSnapshotCache)

/-- The four keys of a snapshot, in the order of the scripts. -/
def putKeys (record : RecordKey) : List String :=
  [cacheKey record, revisionKey record, freshnessKey record, negativeKey record]

/-- The four arguments of a snapshot that was encoded. -/
def putArgs (snapshot : SnapshotEnvelope) (bytes : Bytes) : List Bytes :=
  [bytes, revisionToken snapshot.revision,
    Decimal.bytes (cache.policy.freshTtlMs cache.hash snapshot.record),
    Decimal.bytes (cache.policy.hardTtlMs cache.hash snapshot.record)]

def encode (snapshot : SnapshotEnvelope) : EStateM CacheWriteError ExpiringKeys Bytes :=
  match cache.codec.encode snapshot with
  | .ok bytes => pure bytes
  | .error message => throw (.codec message)

def put (now : ℕ) (snapshot : SnapshotEnvelope) : EStateM CacheWriteError ExpiringKeys PUnit := do
  let bytes ← cache.encode snapshot
  let _ ← EStateM.adaptExcept .redis
    (revisionAwareCachePut now (putKeys snapshot.record) (cache.putArgs snapshot bytes))

/-- Everything is encoded before the one call. -/
def putMulti (now : ℕ) (snapshots : List SnapshotEnvelope) :
    EStateM CacheWriteError ExpiringKeys PUnit := do
  if snapshots.isEmpty then return
  let prepared ← snapshots.mapM fun snapshot => do
    return cache.putArgs snapshot (← cache.encode snapshot)
  let _ ← EStateM.adaptExcept .redis (revisionAwareCachePutMulti now
    (snapshots.flatMap fun snapshot => putKeys snapshot.record) prepared.flatten)

/-! ### A batch is one put after the other -/

/-- The call of `put` for a snapshot and its bytes. -/
def putEncoded (now : ℕ) (entry : SnapshotEnvelope × Bytes) : Script ℕ :=
  revisionAwareCachePut now (putKeys entry.1.record) (cache.putArgs entry.1 entry.2)

/-- The window of the batch over some entries. -/
def entriesWindow (entries : List (SnapshotEnvelope × Bytes)) : ℕ → PutWindow :=
  putWindow (entries.flatMap fun entry => putKeys entry.1.record)
    (entries.flatMap fun entry => cache.putArgs entry.1 entry.2)

variable {cache} {now : ℕ}

/-- One round does what the single script does, on the opposite condition. -/
theorem putRound_eq (stored : ℕ) (entry : SnapshotEnvelope × Bytes)
    (rest : List (SnapshotEnvelope × Bytes)) :
    putRound now stored (cache.entriesWindow (entry :: rest) 1) =
      (stored + ·) <$> cache.putEncoded now entry := by
  have hcond : ∀ (current : Option Bytes) (incoming : Bytes),
      current.all (tokenAtMost · incoming) = !current.any (tokenExceeds · incoming) := by
    intro current incoming
    cases current with
    | none => rfl
    | some current => exact tokenAtMost_eq current incoming
  rw [putRound, putEncoded, revisionAwareCachePut, map_bind]
  refine bind_congr fun key => ?_
  rw [map_bind]
  refine bind_congr fun current => ?_
  rw [map_bind]
  refine bind_congr fun incoming => ?_
  rw [hcond]
  cases current.any (tokenExceeds · incoming) with
  | true => rfl
  | false =>
    rw [if_pos (by rfl), if_neg Bool.false_ne_true]
    simp only [map_bind, map_pure]
    rfl

theorem entriesWindow_add (entry : SnapshotEnvelope × Bytes)
    (rest : List (SnapshotEnvelope × Bytes)) (index : ℕ) (h : 1 ≤ index) :
    cache.entriesWindow (entry :: rest) (index + 4) = cache.entriesWindow rest index := by
  have hkeys : ∀ offset, index + 4 + offset = index + offset + (putKeys entry.1.record).length := by
    intro offset
    show _ = index + offset + 4
    omega
  have hargs : ∀ offset,
      index + 4 + offset = index + offset + (cache.putArgs entry.1 entry.2).length := hkeys
  rw [entriesWindow, entriesWindow, putWindow, putWindow, List.flatMap_cons, List.flatMap_cons]
  congr 1
  · funext offset
    rw [hkeys]
    exact @at?_append_group _ [] _ _ _ (by show 0 < _; omega)
  · funext offset
    rw [hargs]
    exact @at?_append_group _ [] _ _ _ (by show 0 < _; omega)

/-- The loop over the indices is one over the entries. -/
theorem revisionAwareCachePutMulti_eq (entries : List (SnapshotEnvelope × Bytes)) :
    revisionAwareCachePutMulti now (entries.flatMap fun entry => putKeys entry.1.record)
        (entries.flatMap fun entry => cache.putArgs entry.1 entry.2) =
      entries.foldlM (fun stored entry => (stored + ·) <$> cache.putEncoded now entry) 0 := by
  refine Eq.trans ?_ (foldlM_congr_mem (fun stored entry _ => putRound_eq stored entry []) 0)
  exact foldlM_indices (by omega) (putRound now) cache.entriesWindow
    (fun entry => cache.entriesWindow [entry] 1)
    (fun entries => (entries.flatMap fun entry => cache.putArgs entry.1 entry.2).length)
    (by show 0 < 1; omega) (by show 1 ≤ 0 + 4; omega)
    (fun entry rest => by
      rw [List.flatMap_cons, List.length_append]
      exact Nat.add_comm ..)
    (fun stored entry rest => by rw [putRound_eq, putRound_eq])
    entriesWindow_add entries 0

/-- The count is not used. -/
theorem foldlM_putEncoded (entries : List (SnapshotEnvelope × Bytes)) (stored : ℕ) :
    ((entries.foldlM (fun stored entry => (stored + ·) <$> cache.putEncoded now entry) stored) >>=
        fun _ => pure ⟨⟩) =
      forM entries fun entry => cache.putEncoded now entry >>= fun _ => pure ⟨⟩ := by
  induction entries generalizing stored with
  | nil => rfl
  | cons entry rest ih =>
    rw [List.foldlM_cons, bind_assoc, List.forM_cons, bind_map_left, bind_assoc]
    refine bind_congr fun added => ?_
    rw [ih]
    rfl

theorem adaptExcept_bind {ε ε' σ α β : Type} (f : ε → ε') (x : EStateM ε σ α)
    (g : α → EStateM ε σ β) :
    EStateM.adaptExcept f (x >>= g) =
      EStateM.adaptExcept f x >>= fun a => EStateM.adaptExcept f (g a) := by
  funext s
  show EStateM.adaptExcept f (EStateM.bind x g) s = EStateM.bind _ _ s
  rw [EStateM.adaptExcept, EStateM.bind, EStateM.bind, EStateM.adaptExcept]
  cases x s with
  | ok a s' => rfl
  | error e s' => rfl

theorem adaptExcept_forM {ε ε' σ α : Type} (f : ε → ε') (g : α → EStateM ε σ PUnit) (l : List α) :
    EStateM.adaptExcept f (forM l g) = forM l fun a => EStateM.adaptExcept f (g a) := by
  induction l with
  | nil => rfl
  | cons a l ih =>
    rw [List.forM_cons, adaptExcept_bind, List.forM_cons]
    exact bind_congr fun _ => ih

/-- Snapshots that can be encoded, with their bytes. -/
theorem exists_entries {snapshots : List SnapshotEnvelope}
    (h : ∀ snapshot ∈ snapshots, ∃ bytes, cache.codec.encode snapshot = .ok bytes) :
    ∃ entries : List (SnapshotEnvelope × Bytes), snapshots = entries.map Prod.fst ∧
      ∀ entry ∈ entries, cache.encode entry.1 = pure entry.2 := by
  induction snapshots with
  | nil => exact ⟨[], rfl, fun entry hentry => nomatch hentry⟩
  | cons snapshot rest ih =>
    obtain ⟨bytes, hbytes⟩ := h snapshot List.mem_cons_self
    obtain ⟨entries, rfl, hentries⟩ := ih fun s hs => h s (List.mem_cons_of_mem _ hs)
    refine ⟨(snapshot, bytes) :: entries, rfl, fun entry hentry => ?_⟩
    rcases List.mem_cons.mp hentry with rfl | hrest
    · rw [encode, hbytes]
    · exact hentries entry hrest

theorem mapM_encode {entries : List (SnapshotEnvelope × Bytes)}
    (h : ∀ entry ∈ entries, cache.encode entry.1 = pure entry.2) :
    ((entries.map Prod.fst).mapM fun snapshot => do
        return cache.putArgs snapshot (← cache.encode snapshot)) =
      pure (entries.map fun entry => cache.putArgs entry.1 entry.2) := by
  induction entries with
  | nil => rfl
  | cons entry rest ih =>
    rw [List.map_cons, List.mapM_cons, h entry List.mem_cons_self, pure_bind, pure_bind,
      ih fun e he => h e (List.mem_cons_of_mem _ he), pure_bind]
    rfl

theorem forM_put {entries : List (SnapshotEnvelope × Bytes)}
    (h : ∀ entry ∈ entries, cache.encode entry.1 = pure entry.2) :
    forM (entries.map Prod.fst) (cache.put now) =
      forM entries fun entry =>
        EStateM.adaptExcept .redis (cache.putEncoded now entry >>= fun _ => pure ⟨⟩) := by
  induction entries with
  | nil => rfl
  | cons entry rest ih =>
    rw [List.map_cons, List.forM_cons, List.forM_cons,
      ih fun e he => h e (List.mem_cons_of_mem _ he), put, h entry List.mem_cons_self, pure_bind,
      adaptExcept_bind]
    rfl

/-- **A batch is one put after the other.**  `put_multi` of snapshots that bincode can encode
ends as the calls of `put` do, in the same cache: the values, tokens, freshness and negative
markers and their expiries are the same, and the first refused command ends both.  The
comparisons of the two scripts are the order of the revisions. -/
theorem putMulti_eq_forM (cache : ExpiringSnapshotCache) (now : ℕ)
    (snapshots : List SnapshotEnvelope)
    (hcodec : ∀ snapshot ∈ snapshots, ∃ bytes, cache.codec.encode snapshot = .ok bytes) :
    (∀ redis : ExpiringKeys, (cache.putMulti now snapshots).run redis =
      (forM snapshots (cache.put now)).run redis) ∧
    ∀ current incoming : Revision,
      (tokenExceeds (revisionToken current) (revisionToken incoming) = true ↔
        incoming < current) ∧
      (tokenAtMost (revisionToken current) (revisionToken incoming) = true ↔
        current ≤ incoming) := by
  refine ⟨fun redis => congrArg (EStateM.run · redis) ?_, fun current incoming => ?_⟩
  · obtain ⟨entries, rfl, hentries⟩ := exists_entries hcodec
    rw [putMulti, forM_put hentries, ← adaptExcept_forM, ← foldlM_putEncoded entries 0]
    by_cases hempty : (entries.map Prod.fst).isEmpty = true
    · rw [if_pos hempty]
      rw [List.isEmpty_iff, List.map_eq_nil_iff] at hempty
      subst hempty
      rfl
    · rw [if_neg hempty, mapM_encode hentries, pure_bind, adaptExcept_bind, List.flatMap_map,
        ← List.flatMap_def, revisionAwareCachePutMulti_eq]
      rfl
  · have hexceeds := @tokenExceeds_iff current incoming
    refine ⟨hexceeds, ?_⟩
    rw [tokenAtMost_eq, Bool.not_eq_true', ← Bool.not_eq_true, hexceeds]
    exact Nat.not_lt

/-- Two snapshots of one record, the newer one first. -/
theorem putMulti_eq_forM_repeated :
    let cache : ExpiringSnapshotCache :=
      ⟨⟨300000, 30000, 5000, 30000⟩, smallSnapshotCodec, fun _ => 7⟩
    (cache.putMulti 10 [secondSnapshot, firstSnapshot]).run (fun _ => none) =
      (forM [secondSnapshot, firstSnapshot] (cache.put 10)).run (fun _ => none) :=
  (putMulti_eq_forM _ 10 _ (fun _ _ => ⟨_, rfl⟩)).1 _

end ExpiringSnapshotCache

/-! ### Without the expiry -/

/-- For a reader at the time of the script, lifetimes that are accepted change nothing. -/
theorem visible_cachePut {now : ℕ} {fresh hard : Bytes} (hfresh : Lasts now fresh)
    (hhard : Lasts now hard) (keys : CacheKeys) (bytes token : Bytes) (db : ExpiringKeys) :
    ∃ db', (revisionAwareCachePut now [keys.value, keys.revision, keys.freshness, keys.negative]
        [bytes, token, fresh, hard]).run db =
          .ok (if (cachePutScript keys bytes token (visible now db)).1 then 1 else 0) db' ∧
      visible now db' = (cachePutScript keys bytes token (visible now db)).2 := by
  have hget : (get now keys.revision).run db = .ok (visible now db keys.revision) db := rfl
  have harg : ∀ {α : Type} (a b c d : α),
      nonNil (at? [a, b, c, d] 1) = pure a ∧ nonNil (at? [a, b, c, d] 2) = pure b ∧
      nonNil (at? [a, b, c, d] 3) = pure c ∧ nonNil (at? [a, b, c, d] 4) = pure d :=
    fun a b c d => ⟨rfl, rfl, rfl, rfl⟩
  rw [revisionAwareCachePut, cachePutScript]
  simp only [harg, pure_bind]
  rw [run_bind_ok hget]
  by_cases hcond : (visible now db keys.revision).any (tokenExceeds · token) = true
  · refine ⟨db, ?_, ?_⟩
    · simp only [if_pos hcond]
      rfl
    · rw [if_pos hcond]
  · obtain ⟨db₁, hrun₁, hvisible₁⟩ := @visible_set now db keys.value bytes
    obtain ⟨db₂, hrun₂, hvisible₂⟩ := @visible_set now db₁ keys.revision token
    obtain ⟨db₃, hrun₃, hvisible₃⟩ := @visible_del now db₂ keys.negative
    obtain ⟨db₄, hrun₄, hvisible₄⟩ := @visible_setPx now db₃ keys.freshness marker fresh hfresh
    obtain ⟨db₅, hrun₅, hvisible₅⟩ := @visible_pexpire now db₄ keys.value hard hhard
    obtain ⟨db₆, hrun₆, hvisible₆⟩ := @visible_pexpire now db₅ keys.revision hard hhard
    refine ⟨db₆, ?_, ?_⟩
    · simp only [if_neg hcond]
      rw [run_bind_ok hrun₁, run_bind_ok hrun₂, run_bind_ok hrun₃, run_bind_ok hrun₄,
        run_bind_ok hrun₅, run_bind_ok hrun₆]
      rfl
    · rw [hvisible₆, hvisible₅, hvisible₄, hvisible₃, hvisible₂, hvisible₁, if_neg hcond]
      rfl

end DbProxy
