/-
Coherence of the snapshot cache.

`CacheSystem` is Redis together with the snapshots committed to the authoritative
store, one at most per record and revision.  Readers, writers and the repair worker
call the scripts of `CacheScripts` in any order and with any delay: a `put` may carry
any snapshot that was committed at some time before.

* `Coherent` — an entry is empty or holds the committed snapshot of its token;
* `put_upgrades` — a put keeps entries coherent and tokens growing;
* `step_coherent`, `step_token` — so does every step, up to the two exceptions;
* `cache_coherence` — the consequences for every run.
-/
import DbProxy.CacheScripts
import DbProxy.SmallBincode
import DbProxy.StepMachine

namespace DbProxy

open RedisSnapshotCache StepMachine

/-! ### The system -/

structure CacheSystem where
  redis : Keyspace := fun _ => none
  committed : RecordKey → Revision → Option SnapshotEnvelope := fun _ _ => none

inductive CacheEvent
  | commit (snapshot : SnapshotEnvelope)
  | put (snapshot : SnapshotEnvelope)
  | putMulti (snapshots : List SnapshotEnvelope)
  | putNegative (record : RecordKey) (expected : Option Revision)
  | delete (record : RecordKey)
  | acquireLock (record : RecordKey) (token : Bytes)
  | releaseLock (record : RecordKey) (token : Bytes)

namespace CacheSystem

def isCommitted (s : CacheSystem) (snapshot : SnapshotEnvelope) : Bool :=
  s.committed snapshot.record snapshot.revision = some snapshot

def recordCommit (s : CacheSystem) (snapshot : SnapshotEnvelope) : CacheSystem :=
  let row := Function.update (s.committed snapshot.record) snapshot.revision (some snapshot)
  { s with committed := Function.update s.committed snapshot.record row }

def step (codec : SnapshotCodec) (negativeTtl : ℕ) (s : CacheSystem) :
    CacheEvent → Option CacheSystem
  | .commit snapshot =>
    -- the revision check of the store admits one commit per revision
    if s.committed snapshot.record snapshot.revision = none then some (s.recordCommit snapshot)
    else none
  | .put snapshot =>
    if s.isCommitted snapshot then
      some { s with redis := (RedisSnapshotCache.put codec snapshot s.redis).2 }
    else none
  | .putMulti snapshots =>
    if snapshots.all s.isCommitted then
      some { s with redis := (RedisSnapshotCache.putMulti codec snapshots s.redis).2 }
    else none
  | .putNegative record expected =>
    some { s with redis := putNegativeIfRevision negativeTtl record expected s.redis }
  | .delete record => some { s with redis := RedisSnapshotCache.delete record s.redis }
  | .acquireLock record token =>
    some { s with redis := tryAcquireFallbackLock record token s.redis }
  | .releaseLock record token =>
    some { s with redis := releaseFallbackLock record token s.redis }

end CacheSystem

/-! ### Coherent entries -/

section Entries

variable {codec : SnapshotCodec} {committed : Revision → Option SnapshotEnvelope}

/-- The entry is the snapshot committed at the revision of its token, and no marker. -/
def HoldsSnapshot (codec : SnapshotCodec) (committed : Revision → Option SnapshotEnvelope)
    (e : CacheEntry) : Prop :=
  ∃ snapshot bytes, committed snapshot.revision = some snapshot ∧
    codec.encode snapshot = .ok bytes ∧ e.value = some bytes ∧
    e.revision = some (revisionToken snapshot.revision) ∧ e.negative = none

def Coherent (codec : SnapshotCodec) (committed : Revision → Option SnapshotEnvelope)
    (e : CacheEntry) : Prop :=
  e.value = none ∧ e.revision = none ∨ HoldsSnapshot codec committed e

/-- The token stays, or makes way for one of a later revision. -/
def TokenKept (e e' : CacheEntry) : Prop :=
  ∀ n, e.revision = some (revisionToken n) → ∃ m, n ≤ m ∧ e'.revision = some (revisionToken m)

/-- What a put does to an entry. -/
structure Upgrades (codec : SnapshotCodec) (committed : Revision → Option SnapshotEnvelope)
    (e e' : CacheEntry) : Prop where
  coherent : Coherent codec committed e → Coherent codec committed e'
  token : TokenKept e e'

theorem TokenKept.refl (e : CacheEntry) : TokenKept e e := fun n h => ⟨n, le_refl n, h⟩

theorem Upgrades.refl (e : CacheEntry) : Upgrades codec committed e e :=
  ⟨id, TokenKept.refl e⟩

theorem Upgrades.trans {a b c : CacheEntry} (hab : Upgrades codec committed a b)
    (hbc : Upgrades codec committed b c) : Upgrades codec committed a c := by
  refine ⟨fun h => hbc.coherent (hab.coherent h), fun n h => ?_⟩
  obtain ⟨m, hm, h⟩ := hab.token n h
  obtain ⟨k, hk, h⟩ := hbc.token m h
  exact ⟨k, le_trans hm hk, h⟩

theorem any_tokenExceeds {n m : Revision} {current : Option Bytes}
    (h : current = some (revisionToken n)) :
    current.any (tokenExceeds · (revisionToken m)) = true ↔ m < n := by
  rw [h, Option.any_some, tokenExceeds_iff]

/-- A stale put does not change the entry. -/
theorem put_stale {e : CacheEntry} {n m : Revision} (bytes : Bytes)
    (h : e.revision = some (revisionToken n)) (hlt : m < n) :
    e.put bytes (revisionToken m) = e := by
  rw [CacheEntry.put, if_pos ((any_tokenExceeds h).mpr hlt)]

/-- A put of a committed snapshot. -/
theorem CacheEntry.put_upgrades {e : CacheEntry} {snapshot : SnapshotEnvelope} {bytes : Bytes}
    (hcommitted : committed snapshot.revision = some snapshot)
    (hencode : codec.encode snapshot = .ok bytes) :
    Upgrades codec committed e (e.put bytes (revisionToken snapshot.revision)) := by
  constructor
  · intro hcoherent
    rw [CacheEntry.put]
    split
    · exact hcoherent
    · exact Or.inr ⟨snapshot, bytes, hcommitted, hencode, rfl, rfl, rfl⟩
  · intro n hn
    by_cases hlt : snapshot.revision < n
    · rw [put_stale bytes hn hlt]
      exact ⟨n, le_refl n, hn⟩
    · rw [CacheEntry.put, if_neg (fun h => hlt ((any_tokenExceeds hn).mp h))]
      exact ⟨snapshot.revision, not_lt.mp hlt, rfl⟩

theorem Coherent.putNegative {e : CacheEntry} (h : Coherent codec committed e)
    (expected : Bytes) : Coherent codec committed (e.putNegative expected) := by
  rw [CacheEntry.putNegative]
  by_cases hexpected : expected ≠ []
  · rw [if_pos hexpected]
    split
    · exact h
    · exact Or.inl ⟨rfl, rfl⟩
  · rw [if_neg hexpected]
    split
    · rename_i hsome
      rcases h with ⟨hvalue, hrevision⟩ | ⟨snapshot, bytes, hcommitted, hencode, hvalue, hrev, -⟩
      · simp [hvalue, hrevision] at hsome
      · exact Or.inr ⟨snapshot, bytes, hcommitted, hencode, hvalue, hrev, rfl⟩
    · rename_i hnone
      left
      simpa using hnone

/-- A negative marker removes a token only if it expected that token. -/
theorem tokenKept_putNegative {e : CacheEntry} {expected : Option Revision}
    {n : Revision} (hn : e.revision = some (revisionToken n)) (hne : expected ≠ some n) :
    (e.putNegative ((expected.map revisionToken).getD [])).revision = some (revisionToken n) := by
  rw [CacheEntry.putNegative]
  cases expected with
  | none =>
    rw [if_neg (by simp), if_pos (by simp [hn])]
    exact hn
  | some m =>
    have hm : e.revision ≠ some (revisionToken m) := by
      intro h
      rw [hn, Option.some_inj] at h
      exact hne (congrArg some (revisionToken_injective h).symm)
    show (if revisionToken m ≠ [] then _ else _ : CacheEntry).revision = _
    rw [if_pos (revisionToken_ne_nil m)]
    show (if e.revision ≠ some (revisionToken m) then _ else _ : CacheEntry).revision = _
    rw [if_pos hm]
    exact hn

end Entries

/-! ### Steps -/

section Steps

variable {codec : SnapshotCodec} {negativeTtl : ℕ} {s t : CacheSystem}

theorem isCommitted_iff {snapshot : SnapshotEnvelope} :
    s.isCommitted snapshot = true ↔
      s.committed snapshot.record snapshot.revision = some snapshot := by
  rw [CacheSystem.isCommitted, decide_eq_true_iff]

theorem put_upgrades {snapshot : SnapshotEnvelope} (h : s.isCommitted snapshot = true)
    (redis : Keyspace) (r : RecordKey) :
    Upgrades codec (s.committed r) (entryOf redis r) (entryOf (put codec snapshot redis).2 r) := by
  rw [isCommitted_iff] at h
  rw [entryOf_put]
  cases hencode : codec.encode snapshot with
  | error e => exact Upgrades.refl _
  | ok bytes =>
    by_cases hr : r = snapshot.record
    · subst hr
      simp only [if_pos]
      exact CacheEntry.put_upgrades h hencode
    · simp only [if_neg hr]
      exact Upgrades.refl _

/-- One put after the other. -/
theorem foldl_put_upgrades {snapshots : List SnapshotEnvelope}
    (h : snapshots.all s.isCommitted = true) (redis : Keyspace) (r : RecordKey) :
    Upgrades codec (s.committed r) (entryOf redis r)
      (entryOf (snapshots.foldl (fun redis q => (put codec q redis).2) redis) r) := by
  induction snapshots generalizing redis with
  | nil => exact Upgrades.refl _
  | cons snapshot rest ih =>
    rw [List.all_cons, Bool.and_eq_true] at h
    rw [List.foldl_cons]
    exact (put_upgrades h.1 redis r).trans (ih h.2 _)

theorem putMulti_upgrades {snapshots : List SnapshotEnvelope}
    (h : snapshots.all s.isCommitted = true) (redis : Keyspace) (r : RecordKey) :
    Upgrades codec (s.committed r) (entryOf redis r)
      (entryOf (putMulti codec snapshots redis).2 r) := by
  rcases putMulti_eq codec snapshots redis with ⟨e, heq⟩ | ⟨heq, -⟩
  · rw [heq]
    exact Upgrades.refl _
  · rw [heq]
    exact foldl_put_upgrades h redis r

theorem HoldsSnapshot.mono {committed committed' : Revision → Option SnapshotEnvelope}
    {e : CacheEntry} (h : HoldsSnapshot codec committed e)
    (hmono : ∀ n snapshot, committed n = some snapshot → committed' n = some snapshot) :
    HoldsSnapshot codec committed' e := by
  obtain ⟨snapshot, bytes, hcommitted, hrest⟩ := h
  exact ⟨snapshot, bytes, hmono _ _ hcommitted, hrest⟩

/-- Commits are never taken back. -/
theorem recordCommit_mono {snapshot snapshot' : SnapshotEnvelope} {r : RecordKey} {n : Revision}
    (hnew : s.committed snapshot.record snapshot.revision = none)
    (h : s.committed r n = some snapshot') :
    (s.recordCommit snapshot).committed r n = some snapshot' := by
  show Function.update s.committed snapshot.record (Function.update _ _ _) r n = some snapshot'
  by_cases hr : r = snapshot.record
  · subst hr
    rw [Function.update_self]
    by_cases hn : n = snapshot.revision
    · rw [hn, hnew] at h
      cases h
    · rw [Function.update_of_ne hn, h]
  · rw [Function.update_of_ne hr, h]

/-- **Step lemma**: every step keeps every entry coherent. -/
theorem step_coherent {event : CacheEvent} {r : RecordKey}
    (hstep : s.step codec negativeTtl event = some t)
    (h : Coherent codec (s.committed r) (entryOf s.redis r)) :
    Coherent codec (t.committed r) (entryOf t.redis r) := by
  cases event with
  | commit snapshot =>
    rw [CacheSystem.step, Option.ite_none_right_eq_some, Option.some_inj] at hstep
    obtain ⟨hnew, rfl⟩ := hstep
    rcases h with h | h
    · exact Or.inl h
    · exact Or.inr (h.mono fun n snapshot' => recordCommit_mono hnew)
  | put snapshot =>
    rw [CacheSystem.step, Option.ite_none_right_eq_some, Option.some_inj] at hstep
    obtain ⟨hcommitted, rfl⟩ := hstep
    exact (put_upgrades hcommitted s.redis r).coherent h
  | putMulti snapshots =>
    rw [CacheSystem.step, Option.ite_none_right_eq_some, Option.some_inj] at hstep
    obtain ⟨hcommitted, rfl⟩ := hstep
    exact (putMulti_upgrades hcommitted s.redis r).coherent h
  | putNegative record expected =>
    obtain rfl := Option.some.inj hstep
    rcases entryOf_putNegative negativeTtl record expected s.redis r with
      heq | ⟨-, heq⟩
    · exact heq ▸ h
    · exact heq ▸ h.putNegative _
  | delete record =>
    obtain rfl := Option.some.inj hstep
    show Coherent codec (s.committed r) (entryOf (delete record s.redis) r)
    rw [entryOf_delete]
    split
    · exact Or.inl ⟨rfl, rfl⟩
    · exact h
  | acquireLock record token =>
    obtain rfl := Option.some.inj hstep
    show Coherent codec (s.committed r) (entryOf (tryAcquireFallbackLock record token s.redis) r)
    rw [entryOf_tryAcquireFallbackLock]
    exact h
  | releaseLock record token =>
    obtain rfl := Option.some.inj hstep
    show Coherent codec (s.committed r) (entryOf (releaseFallbackLock record token s.redis) r)
    rw [entryOf_releaseFallbackLock]
    exact h

/-- **Step lemma**: only a delete, or a negative marker that expects it, removes a token. -/
theorem step_token {event : CacheEvent} {r : RecordKey} {n : Revision}
    (hstep : s.step codec negativeTtl event = some t)
    (hn : (entryOf s.redis r).revision = some (revisionToken n)) :
    (∃ m, n ≤ m ∧ (entryOf t.redis r).revision = some (revisionToken m)) ∨
      event = .delete r ∨ event = .putNegative r (some n) := by
  cases event with
  | commit snapshot =>
    rw [CacheSystem.step, Option.ite_none_right_eq_some, Option.some_inj] at hstep
    obtain ⟨-, rfl⟩ := hstep
    exact Or.inl ⟨n, le_refl n, hn⟩
  | put snapshot =>
    rw [CacheSystem.step, Option.ite_none_right_eq_some, Option.some_inj] at hstep
    obtain ⟨hcommitted, rfl⟩ := hstep
    exact Or.inl ((put_upgrades hcommitted s.redis r).token n hn)
  | putMulti snapshots =>
    rw [CacheSystem.step, Option.ite_none_right_eq_some, Option.some_inj] at hstep
    obtain ⟨hcommitted, rfl⟩ := hstep
    exact Or.inl ((putMulti_upgrades hcommitted s.redis r).token n hn)
  | putNegative record expected =>
    obtain rfl := Option.some.inj hstep
    rcases entryOf_putNegative negativeTtl record expected s.redis r with
      heq | ⟨hr, heq⟩
    · exact Or.inl ⟨n, le_refl n, heq ▸ hn⟩
    · by_cases hexpected : expected = some n
      · exact Or.inr (Or.inr (by rw [hr, hexpected]))
      · refine Or.inl ⟨n, le_refl n, ?_⟩
        rw [heq]
        exact tokenKept_putNegative hn hexpected
  | delete record =>
    obtain rfl := Option.some.inj hstep
    by_cases hr : r = record
    · exact Or.inr (Or.inl (by rw [hr]))
    · refine Or.inl ⟨n, le_refl n, ?_⟩
      show (entryOf (delete record s.redis) r).revision = _
      rw [entryOf_delete, if_neg hr]
      exact hn
  | acquireLock record token =>
    obtain rfl := Option.some.inj hstep
    refine Or.inl ⟨n, le_refl n, ?_⟩
    show (entryOf (tryAcquireFallbackLock record token s.redis) r).revision = _
    rw [entryOf_tryAcquireFallbackLock]
    exact hn
  | releaseLock record token =>
    obtain rfl := Option.some.inj hstep
    refine Or.inl ⟨n, le_refl n, ?_⟩
    show (entryOf (releaseFallbackLock record token s.redis) r).revision = _
    rw [entryOf_releaseFallbackLock]
    exact hn

/-- A put below the cached revision sends a script that writes nothing. -/
theorem put_below {snapshot : SnapshotEnvelope} {redis : Keyspace} {n : Revision}
    (hn : redis (revisionKey snapshot.record) = some (revisionToken n))
    (hlt : snapshot.revision < n) : (put codec snapshot redis).2 = redis := by
  rw [put]
  cases codec.encode snapshot with
  | error e => rfl
  | ok bytes =>
    show (cachePutScript (keysOf snapshot.record) bytes _ redis).2 = redis
    have hrevision : (keysOf snapshot.record).revision = revisionKey snapshot.record := rfl
    rw [cachePutScript, hrevision, if_pos ((any_tokenExceeds hn).mpr hlt)]

/-- In a batch too, snapshots below the cached revision leave the entry alone. -/
theorem putMulti_below {snapshots : List SnapshotEnvelope} {r : RecordKey} {n : Revision}
    (redis : Keyspace) (hn : (entryOf redis r).revision = some (revisionToken n))
    (hlt : ∀ snapshot ∈ snapshots, snapshot.record = r → snapshot.revision < n) :
    entryOf (putMulti codec snapshots redis).2 r = entryOf redis r := by
  rcases putMulti_eq codec snapshots redis with ⟨e, heq⟩ | ⟨heq, -⟩
  · rw [heq]
  rw [heq]
  clear heq
  induction snapshots generalizing redis with
  | nil => rfl
  | cons snapshot rest ih =>
    have hfirst : entryOf (put codec snapshot redis).2 r = entryOf redis r := by
      by_cases hr : snapshot.record = r
      · subst hr
        rw [put_below hn (hlt snapshot (List.mem_cons_self ..) rfl)]
      · rw [entryOf_put]
        cases codec.encode snapshot with
        | error e => rfl
        | ok bytes => exact if_neg (Ne.symm hr)
    rw [List.foldl_cons, ih _ (hfirst ▸ hn) fun q hq => hlt q (List.mem_cons_of_mem _ hq), hfirst]

end Steps

/-! ### Runs -/

theorem run_coherent {codec : SnapshotCodec} {negativeTtl : ℕ} {es : List CacheEvent}
    {s : CacheSystem} (hrun : run (CacheSystem.step codec negativeTtl) {} es = some s)
    (r : RecordKey) : Coherent codec (s.committed r) (entryOf s.redis r) := by
  refine run_invariant (P := fun s : CacheSystem => Coherent codec (s.committed r)
    (entryOf s.redis r)) (fun _ _ _ h hstep => step_coherent hstep h) ?_ hrun
  exact Or.inl ⟨rfl, rfl⟩

/-- **Coherence of the snapshot cache.**  In every reachable state and for every record:

* a value has a token, and is the encoding of the snapshot committed at the revision of the
  token; a reader gets that snapshot back if the codec does;
* no step lowers or removes the token, except a delete and a negative marker that expects
  just this revision;
* a value and a negative marker exclude each other;
* a put below the cached revision changes nothing, alone or in a batch. -/
theorem cache_coherence (codec : SnapshotCodec) (negativeTtl : ℕ) (es : List CacheEvent)
    (s : CacheSystem) (hrun : run (CacheSystem.step codec negativeTtl) {} es = some s)
    (r : RecordKey) :
    (∀ bytes, s.redis (cacheKey r) = some bytes →
      ∃ n snapshot, s.redis (revisionKey r) = some (revisionToken n) ∧
        s.committed r n = some snapshot ∧ codec.encode snapshot = .ok bytes ∧
        (codec.decode bytes = .ok snapshot →
          lookup codec r s.redis = .ok (.fresh snapshot) ∨
          lookup codec r s.redis = .ok (.stale snapshot))) ∧
    (∀ n, s.redis (revisionKey r) = some (revisionToken n) →
      ∃ snapshot bytes, s.committed r n = some snapshot ∧ codec.encode snapshot = .ok bytes ∧
        s.redis (cacheKey r) = some bytes) ∧
    (∀ event t n, s.step codec negativeTtl event = some t →
      s.redis (revisionKey r) = some (revisionToken n) →
      (∃ m, n ≤ m ∧ t.redis (revisionKey r) = some (revisionToken m)) ∨
        event = .delete r ∨ event = .putNegative r (some n)) ∧
    ¬ ((s.redis (cacheKey r)).isSome ∧ (s.redis (negativeKey r)).isSome) ∧
    (∀ n, s.redis (revisionKey r) = some (revisionToken n) →
      (∀ snapshot : SnapshotEnvelope, snapshot.record = r → snapshot.revision < n →
        (put codec snapshot s.redis).2 = s.redis) ∧
      (∀ snapshots : List SnapshotEnvelope,
        (∀ snapshot ∈ snapshots, snapshot.record = r → snapshot.revision < n) →
        entryOf (putMulti codec snapshots s.redis).2 r = entryOf s.redis r)) := by
  have hcoherent := run_coherent hrun r
  refine ⟨?_, ?_, ?_, ?_, ?_⟩
  · intro bytes hbytes
    rcases hcoherent with ⟨hnone, -⟩ | ⟨snapshot, bytes', hcommitted, hencode, hvalue, hrev, -⟩
    · exact absurd (hnone.symm.trans hbytes) (by simp)
    obtain rfl : bytes' = bytes := Option.some.inj (hvalue.symm.trans hbytes)
    refine ⟨snapshot.revision, snapshot, hrev, hcommitted, hencode, fun hdecode => ?_⟩
    rw [lookup, hbytes]
    simp only [hdecode]
    split
    · exact Or.inr rfl
    · exact Or.inl rfl
  · intro n hn
    rcases hcoherent with ⟨-, hnone⟩ | ⟨snapshot, bytes, hcommitted, hencode, hvalue, hrev, -⟩
    · exact absurd (hnone.symm.trans hn) (by simp)
    have hrevision : snapshot.revision = n :=
      revisionToken_injective (Option.some.inj (hrev.symm.trans hn))
    exact ⟨snapshot, bytes, hrevision ▸ hcommitted, hencode, hvalue⟩
  · intro event t n hstep hn
    exact step_token hstep hn
  · rintro ⟨hvalue, hnegative⟩
    rcases hcoherent with ⟨hnone, -⟩ | ⟨-, -, -, -, -, -, hnone⟩
    · exact absurd hvalue (by rw [show s.redis (cacheKey r) = none from hnone]; simp)
    · exact absurd hnegative (by rw [show s.redis (negativeKey r) = none from hnone]; simp)
  · intro n hn
    refine ⟨?_, fun snapshots hlt => putMulti_below s.redis hn hlt⟩
    rintro snapshot rfl hlt
    exact put_below hn hlt

def firstSnapshot : SnapshotEnvelope := ⟨⟨"player", "1"⟩, "profile", 1, 1, [7], 5⟩

def secondSnapshot : SnapshotEnvelope := { firstSnapshot with revision := 2, payload := [8] }

/-- The second snapshot is cached before the first one arrives; a negative marker for the
first revision comes late. -/
def lateTrace : List CacheEvent :=
  [.putNegative firstSnapshot.record none, .commit firstSnapshot, .commit secondSnapshot,
    .put secondSnapshot, .put firstSnapshot, .putNegative firstSnapshot.record (some 1),
    .putMulti [firstSnapshot], .putNegative firstSnapshot.record none]

theorem cache_coherence_late : ∃ s, run (CacheSystem.step smallSnapshotCodec 30000) {} lateTrace =
      some s ∧ s.redis (revisionKey firstSnapshot.record) = some (revisionToken 2) ∧
      lookup smallSnapshotCodec firstSnapshot.record s.redis = .ok (.fresh secondSnapshot) ∧
      ∃ snapshot bytes, s.committed firstSnapshot.record 2 = some snapshot ∧
        smallSnapshotCodec.encode snapshot = .ok bytes ∧
        s.redis (cacheKey firstSnapshot.record) = some bytes := by
  have hreach : ∃ s, run (CacheSystem.step smallSnapshotCodec 30000) {} lateTrace = some s ∧
      s.redis (revisionKey firstSnapshot.record) = some (revisionToken 2) ∧
      (lookup smallSnapshotCodec firstSnapshot.record s.redis).toOption =
        some (.fresh secondSnapshot) :=
    exists_of_any (by decide +kernel)
  obtain ⟨s, hs, htoken, hlookup⟩ := hreach
  have hfresh : lookup smallSnapshotCodec firstSnapshot.record s.redis =
      .ok (.fresh secondSnapshot) := by
    cases h : lookup smallSnapshotCodec firstSnapshot.record s.redis with
    | error e => simp [h, Except.toOption] at hlookup
    | ok found => simpa [h, Except.toOption] using hlookup
  exact ⟨s, hs, htoken, hfresh,
    (cache_coherence smallSnapshotCodec 30000 lateTrace s hs firstSnapshot.record).2.1 2 htoken⟩

end DbProxy
