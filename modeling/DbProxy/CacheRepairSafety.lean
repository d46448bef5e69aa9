/-
Cache repairs are removed only when the cache has caught up.

`RepairSystem` puts together the snapshot cache, the queue of repairs, the hints and
the workers.  Callers know only what they were told: `stored` are the puts that were
confirmed, `batches` the hints taken for a flush, `leases` the leases that were handed
out, and `absent` the leases whose repair found no record.  Every call may come at any
time after that, or not at all; a put may take effect without a confirmation.

* `step_queue` — what a step does to the rows, and why it removes one;
* `History` — what callers were told was so at some time;
* `run_history_of` — in every run;
* `cache_repair_safety` — the consequences.
-/
import DbProxy.CacheCoherence
import DbProxy.CacheRepairQueue

namespace DbProxy

open RedisSnapshotCache StepMachine PostgresCacheRepairQueue CacheRepairAcknowledgements

/-! ### The system -/

structure RepairSystem where
  cache : CacheSystem := {}
  /-- the authoritative rows -/
  snapshots : RecordKey → Option SnapshotEnvelope := fun _ => none
  repairs : CacheRepairs := {}
  hints : Hints := []
  batches : List Hints := []
  stored : List (RecordKey × Revision) := []
  leases : List CacheRepairLease := []
  missing : List CacheRepairLease := []
  absent : List CacheRepairLease := []

inductive RepairEvent
  /-- a transaction that writes snapshots and asks for their repair -/
  | commit (now : ℕ) (snapshots : List SnapshotEnvelope)
  | enqueue (now : ℕ) (record : RecordKey) (target : Revision)
  | cache (event : CacheEvent) (confirmed : Bool)
  | hint (record : RecordKey) (revision : Revision)
  | acknowledgeCached (record : RecordKey) (revision : Revision)
  | acknowledgeCachedMulti (locked : RecordKey → Bool) (targets : List (RecordKey × Revision))
  | takeBatch (keys : List RecordKey)
  | flush (locked : RecordKey → Bool) (targets : Hints)
  | claim (workerId : String) (leaseMs : ℕ) (locked : RecordKey → Bool) (statement clock : ℕ)
  /-- a claim that was rolled back has drawn a token -/
  | drawToken
  | loadMissing (lease : CacheRepairLease)
  | deleteMissing (lease : CacheRepairLease)
  | acknowledge (lease : CacheRepairLease) (repaired : Option Revision) (locking settling : ℕ)
  | fail (lease : CacheRepairLease) (error : String) (retryDelayMs maxAttempts : ℕ)
      (locking settling clock : ℕ)
  | requeueDeadLetter (record : RecordKey) (now : ℕ)

def CacheEvent.isCommit : CacheEvent → Bool
  | .commit _ => true
  | _ => false

/-- What a successful call of the cache confirms. -/
def confirmedPuts (codec : SnapshotCodec) (redis : Keyspace) :
    CacheEvent → List (RecordKey × Revision)
  | .put snapshot =>
    match (put codec snapshot redis).1 with
    | .ok _ => [(snapshot.record, snapshot.revision)]
    | .error _ => []
  | .putMulti snapshots =>
    match (putMulti codec snapshots redis).1 with
    | .ok _ => snapshots.map fun snapshot => (snapshot.record, snapshot.revision)
    | .error _ => []
  | _ => []

namespace RepairSystem

/-- The rows after a call, unchanged if it fails. -/
def queueAfter {α : Type} (s : RepairSystem) : Except StorageError (α × CacheRepairs) → RepairSystem
  | .ok (_, q) => { s with repairs := q }
  | .error _ => s

def commitOne (now : ℕ) (s : RepairSystem) (snapshot : SnapshotEnvelope) : Option RepairSystem :=
  if s.cache.committed snapshot.record snapshot.revision = none then
    match PostgresCacheRepairQueue.enqueue now snapshot.record snapshot.revision s.repairs with
    | .ok q => some { s with
        cache := s.cache.recordCommit snapshot, repairs := q,
        snapshots := Function.update s.snapshots snapshot.record (some snapshot) }
    | .error _ => none
  else none

/-- What `repair_cache` may have returned: a revision it has put, or that there is no record. -/
def repairReturned (s : RepairSystem) (lease : CacheRepairLease) : Option Revision → Bool
  | some revision => (lease.record, revision) ∈ s.stored
  | none => lease ∈ s.absent

def step (codec : SnapshotCodec) (negativeTtl : ℕ) (s : RepairSystem) :
    RepairEvent → Option RepairSystem
  | .commit now snapshots => snapshots.foldlM (commitOne now) s
  | .enqueue now record target =>
    match PostgresCacheRepairQueue.enqueue now record target s.repairs with
    | .ok q => some { s with repairs := q }
    | .error _ => some s
  | .cache event confirmed =>
    if event.isCommit then none
    else
      (s.cache.step codec negativeTtl event).map fun cache => { s with
        cache := cache
        stored := if confirmed then confirmedPuts codec s.cache.redis event ++ s.stored
          else s.stored }
  | .hint record revision =>
    if (record, revision) ∈ s.stored then
      some { s with hints := CacheRepairAcknowledgements.record record revision s.hints }
    else none
  | .acknowledgeCached record revision =>
    if (record, revision) ∈ s.stored then
      some (s.queueAfter (PostgresCacheRepairQueue.acknowledgeCached record revision s.repairs))
    else none
  | .acknowledgeCachedMulti locked targets =>
    if ∀ target ∈ targets, target ∈ s.stored then
      some (s.queueAfter (acknowledgeCachedRevisions locked targets s.repairs))
    else none
  | .takeBatch keys =>
    (CacheRepairAcknowledgements.takeBatch keys s.hints).map fun (taken, rest) =>
      { s with hints := rest, batches := taken :: s.batches }
  | .flush locked targets =>
    if targets ∈ s.batches then
      some (s.queueAfter (acknowledgeCachedRevisions locked targets s.repairs))
    else none
  | .claim workerId leaseMs locked statement clock =>
    match PostgresCacheRepairQueue.claim workerId leaseMs locked statement clock s.repairs with
    | .ok (lease, q) => some { s with repairs := q, leases := lease.toList ++ s.leases }
    | .error _ => some s
  | .drawToken =>
    match nextval s.repairs.leaseSeq with
    | .ok token => some { s with repairs := { s.repairs with leaseSeq := token } }
    | .error _ => some s
  | .loadMissing lease =>
    if lease ∈ s.leases ∧ s.snapshots lease.record = none then
      some { s with missing := lease :: s.missing }
    else none
  | .deleteMissing lease =>
    if lease ∈ s.missing then
      some { s with
        cache := { s.cache with redis := RedisSnapshotCache.delete lease.record s.cache.redis }
        absent := lease :: s.absent }
    else none
  | .acknowledge lease repaired locking settling =>
    if lease ∈ s.leases ∧ s.repairReturned lease repaired then
      some (s.queueAfter
        (PostgresCacheRepairQueue.acknowledge lease repaired locking settling s.repairs))
    else none
  | .fail lease error retryDelayMs maxAttempts locking settling clock =>
    if lease ∈ s.leases then
      some (s.queueAfter (PostgresCacheRepairQueue.fail lease error retryDelayMs maxAttempts
        locking settling clock s.repairs))
    else none
  | .requeueDeadLetter record now =>
    some (s.queueAfter (PostgresCacheRepairQueue.requeueDeadLetter record now s.repairs))

end RepairSystem

/-- The lease that a call settles. -/
def RepairEvent.settles : RepairEvent → Option CacheRepairLease
  | .acknowledge lease .. => some lease
  | .fail lease .. => some lease
  | _ => none

/-! ### Rows -/

section Steps

variable {codec : SnapshotCodec} {negativeTtl : ℕ} {s t : RepairSystem}

/-- Why a row may be removed: some caller was told of a revision that covers its target, or
the repair of its lease found no record. -/
def Removal (s : RepairSystem) (event : RepairEvent) (r : RecordKey) (row : CacheRepairRow) :
    Prop :=
  (∃ n, row.targetRevision ≤ n ∧
    ((r, n) ∈ s.stored ∨ ∃ batch ∈ s.batches, (r, n) ∈ batch)) ∨
  ∃ lease locking settling, event = .acknowledge lease none locking settling ∧
    lease ∈ s.absent ∧ lease.record = r ∧ lease.leaseToken = row.leaseToken ∧
    lease.targetRevision = row.targetRevision

/-- What a step does to the rows. -/
structure RowsStep (s : RepairSystem) (event : RepairEvent) (t : RepairSystem) : Prop where
  queue : QueueStep s.repairs t.repairs
  removal : ∀ r row, s.repairs.lookup r = some row → t.repairs.lookup r = none →
    Removal s event r row

theorem RowsStep.of_keeps {event : RepairEvent} (hqueue : QueueStep s.repairs t.repairs)
    (hkeeps : KeepsRows s.repairs t.repairs) : RowsStep s event t := by
  refine ⟨hqueue, fun r row hrow hgone => ?_⟩
  rw [hkeeps r hgone] at hrow
  cases hrow

theorem RowsStep.same {event : RepairEvent} (h : t.repairs = s.repairs) : RowsStep s event t := by
  refine RowsStep.of_keeps ?_ ?_
  · rw [h]
    exact QueueStep.refl _
  · rw [h]
    exact KeepsRows.refl _

/-- A call whose result is forgotten. -/
theorem RowsStep.queueAfter {α : Type} {event : RepairEvent}
    {result : Except StorageError (α × CacheRepairs)}
    (h : ∀ a q, result = .ok (a, q) → QueueStep s.repairs q ∧
      ∀ r row, s.repairs.lookup r = some row → q.lookup r = none → Removal s event r row) :
    RowsStep s event (s.queueAfter result) := by
  cases result with
  | error e => exact RowsStep.same rfl
  | ok v =>
    obtain ⟨hqueue, hremoval⟩ := h v.1 v.2 rfl
    exact ⟨hqueue, hremoval⟩

theorem RowsStep.queueAfter_keeps {α : Type} {event : RepairEvent}
    {result : Except StorageError (α × CacheRepairs)}
    (h : ∀ a q, result = .ok (a, q) → QueueStep s.repairs q ∧ KeepsRows s.repairs q) :
    RowsStep s event (s.queueAfter result) := by
  refine RowsStep.queueAfter fun a q hq => ?_
  obtain ⟨hqueue, hkeeps⟩ := h a q hq
  refine ⟨hqueue, fun r row hrow hgone => ?_⟩
  rw [hkeeps r hgone] at hrow
  cases hrow

theorem commitOne_keeps {now : ℕ} {snapshot : SnapshotEnvelope}
    (h : s.commitOne now snapshot = some t) :
    QueueStep s.repairs t.repairs ∧ KeepsRows s.repairs t.repairs := by
  rw [RepairSystem.commitOne, Option.ite_none_right_eq_some] at h
  obtain ⟨-, h⟩ := h
  cases henqueue : enqueue now snapshot.record snapshot.revision s.repairs with
  | error e =>
    rw [henqueue] at h
    cases h
  | ok q =>
    rw [henqueue] at h
    obtain rfl := Option.some.inj h
    exact enqueue_ok henqueue

theorem commit_keeps {now : ℕ} : ∀ {snapshots : List SnapshotEnvelope} {s : RepairSystem},
    snapshots.foldlM (RepairSystem.commitOne now) s = some t →
      QueueStep s.repairs t.repairs ∧ KeepsRows s.repairs t.repairs
  | [], s, h => by
    obtain rfl := Option.some.inj h
    exact ⟨QueueStep.refl _, KeepsRows.refl _⟩
  | snapshot :: rest, s, h => by
    rw [List.foldlM_cons, Option.bind_eq_bind, Option.bind_eq_some_iff] at h
    obtain ⟨m, hm, h⟩ := h
    obtain ⟨hqueue, hkeeps⟩ := commitOne_keeps hm
    obtain ⟨hqueue', hkeeps'⟩ := commit_keeps h
    exact ⟨hqueue.trans hkeeps hqueue', hkeeps.trans hkeeps'⟩

/-- **Step lemma**: rows keep their targets and are removed for a reason only. -/
theorem step_queue {event : RepairEvent} (hstep : s.step codec negativeTtl event = some t) :
    RowsStep s event t := by
  cases event with
  | commit now snapshots =>
    obtain ⟨hqueue, hkeeps⟩ := commit_keeps hstep
    exact RowsStep.of_keeps hqueue hkeeps
  | enqueue now record target =>
    rw [RepairSystem.step] at hstep
    split at hstep
    · rename_i q hq
      obtain rfl := Option.some.inj hstep
      obtain ⟨hqueue, hkeeps⟩ := enqueue_ok hq
      exact RowsStep.of_keeps hqueue hkeeps
    · obtain rfl := Option.some.inj hstep
      exact RowsStep.same rfl
  | cache event confirmed =>
    rw [RepairSystem.step, Option.ite_none_left_eq_some, Option.map_eq_some_iff] at hstep
    obtain ⟨-, cache, -, rfl⟩ := hstep
    exact RowsStep.same rfl
  | hint record revision =>
    rw [RepairSystem.step, Option.ite_none_right_eq_some, Option.some_inj] at hstep
    obtain ⟨-, rfl⟩ := hstep
    exact RowsStep.same rfl
  | acknowledgeCached record revision =>
    rw [RepairSystem.step, Option.ite_none_right_eq_some, Option.some_inj] at hstep
    obtain ⟨hstored, rfl⟩ := hstep
    refine RowsStep.queueAfter fun removed q hq => ?_
    obtain ⟨hqueue, hremoved⟩ := acknowledgeCached_ok hq
    refine ⟨hqueue, fun r row hrow hgone => ?_⟩
    -- the row goes because its revision, or a later one, was cached
    obtain ⟨rfl, hle⟩ := hremoved r row hrow hgone
    exact Or.inl ⟨revision, hle, Or.inl hstored⟩
  | acknowledgeCachedMulti locked targets =>
    rw [RepairSystem.step, Option.ite_none_right_eq_some, Option.some_inj] at hstep
    obtain ⟨hstored, rfl⟩ := hstep
    refine RowsStep.queueAfter fun removed q hq => ?_
    obtain ⟨hqueue, hremoved⟩ := acknowledgeCachedRevisions_ok hq
    refine ⟨hqueue, fun r row hrow hgone => ?_⟩
    obtain ⟨n, hmem, hle⟩ := hremoved r row hrow hgone
    exact Or.inl ⟨n, hle, Or.inl (hstored _ hmem)⟩
  | takeBatch keys =>
    obtain ⟨⟨taken, rest⟩, -, rfl⟩ := Option.map_eq_some_iff.mp hstep
    exact RowsStep.same rfl
  | flush locked targets =>
    rw [RepairSystem.step, Option.ite_none_right_eq_some, Option.some_inj] at hstep
    obtain ⟨hbatch, rfl⟩ := hstep
    refine RowsStep.queueAfter fun removed q hq => ?_
    obtain ⟨hqueue, hremoved⟩ := acknowledgeCachedRevisions_ok hq
    refine ⟨hqueue, fun r row hrow hgone => ?_⟩
    obtain ⟨n, hmem, hle⟩ := hremoved r row hrow hgone
    exact Or.inl ⟨n, hle, Or.inr ⟨targets, hbatch, hmem⟩⟩
  | claim workerId leaseMs locked statement clock =>
    rw [RepairSystem.step] at hstep
    split at hstep
    · rename_i lease q hq
      obtain rfl := Option.some.inj hstep
      obtain ⟨hqueue, hkeeps, -⟩ := claim_ok hq
      exact RowsStep.of_keeps hqueue hkeeps
    · obtain rfl := Option.some.inj hstep
      exact RowsStep.same rfl
  | drawToken =>
    rw [RepairSystem.step] at hstep
    split at hstep
    · rename_i token htoken
      obtain rfl := Option.some.inj hstep
      obtain rfl := nextval_ok htoken
      refine RowsStep.of_keeps ⟨Nat.le_succ _, fun r row' h => ?_⟩ fun r h => h
      exact Or.inl ⟨row', h, le_refl _, Or.inl rfl⟩
    · obtain rfl := Option.some.inj hstep
      exact RowsStep.same rfl
  | loadMissing lease =>
    rw [RepairSystem.step, Option.ite_none_right_eq_some, Option.some_inj] at hstep
    obtain ⟨-, rfl⟩ := hstep
    exact RowsStep.same rfl
  | deleteMissing lease =>
    rw [RepairSystem.step, Option.ite_none_right_eq_some, Option.some_inj] at hstep
    obtain ⟨-, rfl⟩ := hstep
    exact RowsStep.same rfl
  | acknowledge lease repaired locking settling =>
    rw [RepairSystem.step, Option.ite_none_right_eq_some, Option.some_inj] at hstep
    obtain ⟨⟨-, hreturned⟩, rfl⟩ := hstep
    refine RowsStep.queueAfter fun settled q hq => ?_
    obtain ⟨hqueue, hremoved⟩ := acknowledge_ok hq
    refine ⟨hqueue, fun r row hrow hgone => ?_⟩
    -- the holder found no snapshot, or it has cached one that is new enough
    obtain ⟨rfl, htoken, ⟨rfl, htarget⟩ | ⟨n, rfl, hle⟩⟩ := hremoved r row hrow hgone
    · have habsent : lease ∈ s.absent := of_decide_eq_true hreturned
      exact Or.inr ⟨lease, locking, settling, rfl, habsent, rfl, htoken.symm, htarget.symm⟩
    · have hstored : (lease.record, n) ∈ s.stored := of_decide_eq_true hreturned
      exact Or.inl ⟨n, hle, Or.inl hstored⟩
  | fail lease error retryDelayMs maxAttempts locking settling clock =>
    rw [RepairSystem.step, Option.ite_none_right_eq_some, Option.some_inj] at hstep
    obtain ⟨-, rfl⟩ := hstep
    exact RowsStep.queueAfter_keeps fun settled q hq => fail_ok hq
  | requeueDeadLetter record now =>
    obtain rfl := Option.some.inj hstep
    exact RowsStep.queueAfter_keeps fun requeued q hq => requeueDeadLetter_ok hq

/-! ### What callers were told -/

/-- Redis holds the snapshot committed at revision `m`, with its token. -/
def CachesAt (codec : SnapshotCodec) (cache : CacheSystem) (r : RecordKey) (m : Revision) : Prop :=
  cache.redis (revisionKey r) = some (revisionToken m) ∧
    ∃ snapshot bytes, cache.committed r m = some snapshot ∧ codec.encode snapshot = .ok bytes ∧
      cache.redis (cacheKey r) = some bytes

theorem Coherent.cachesAt {cache : CacheSystem} {r : RecordKey} {m : Revision}
    (h : Coherent codec (cache.committed r) (entryOf cache.redis r))
    (hm : (entryOf cache.redis r).revision = some (revisionToken m)) : CachesAt codec cache r m := by
  rcases h with ⟨-, hnone⟩ | ⟨snapshot, bytes, hcommitted, hencode, hvalue, hrev, -⟩
  · exact absurd (hnone.symm.trans hm) (by simp)
  · have hrevision : snapshot.revision = m :=
      revisionToken_injective (Option.some.inj (hrev.symm.trans hm))
    exact ⟨hm, snapshot, bytes, hrevision ▸ hcommitted, hencode, hvalue⟩

/-- After a put the cache is at least as recent as the snapshot. -/
theorem put_stores {committed : Revision → Option SnapshotEnvelope} {snapshot : SnapshotEnvelope}
    {redis : Keyspace} (hcoherent : Coherent codec committed (entryOf redis snapshot.record))
    (hok : (put codec snapshot redis).1 = .ok ()) :
    ∃ m, snapshot.revision ≤ m ∧
      (entryOf (put codec snapshot redis).2 snapshot.record).revision =
        some (revisionToken m) := by
  rw [entryOf_put]
  cases hencode : codec.encode snapshot with
  | error e =>
    rw [put, hencode] at hok
    cases hok
  | ok bytes =>
    simp only [if_pos]
    rw [CacheEntry.put]
    split
    · rename_i hstale
      rcases hcoherent with ⟨-, hnone⟩ | ⟨newer, -, -, -, -, hrev, -⟩
      · rw [hnone] at hstale
        cases hstale
      · exact ⟨newer.revision, le_of_lt ((any_tokenExceeds hrev).mp hstale), hrev⟩
    · exact ⟨snapshot.revision, le_refl _, rfl⟩

theorem putMulti_stores {cache : CacheSystem} {snapshots : List SnapshotEnvelope}
    (hcommitted : snapshots.all cache.isCommitted = true) :
    ∀ {redis : Keyspace}, (∀ r, Coherent codec (cache.committed r) (entryOf redis r)) →
      (∀ snapshot ∈ snapshots, ∀ redis, (put codec snapshot redis).1 = .ok ()) →
      ∀ snapshot ∈ snapshots, ∃ m, snapshot.revision ≤ m ∧
        (entryOf (snapshots.foldl (fun redis q => (put codec q redis).2) redis)
          snapshot.record).revision = some (revisionToken m) := by
  induction snapshots with
  | nil => simp
  | cons first rest ih =>
    intro redis hcoherent hok snapshot hmem
    rw [List.all_cons, Bool.and_eq_true] at hcommitted
    have hcoherent' : ∀ r, Coherent codec (cache.committed r)
        (entryOf (put codec first redis).2 r) :=
      fun r => (put_upgrades hcommitted.1 redis r).coherent (hcoherent r)
    rcases List.mem_cons.mp hmem with rfl | hmem
    · -- the puts that follow keep the token or raise it
      obtain ⟨m, hm, htoken⟩ := put_stores (hcoherent snapshot.record) (hok snapshot hmem redis)
      obtain ⟨n, hn, htoken'⟩ := (foldl_put_upgrades hcommitted.2 _ snapshot.record).token m htoken
      exact ⟨n, le_trans hm hn, htoken'⟩
    · exact ih hcommitted.2 hcoherent' (fun q hq => hok q (List.mem_cons_of_mem _ hq)) snapshot
        hmem

/-- What a confirmed call says about the cache right after it. -/
theorem confirmedPuts_stores {cache cache' : CacheSystem} {event : CacheEvent}
    (hcoherent : ∀ r, Coherent codec (cache.committed r) (entryOf cache.redis r))
    (hstep : cache.step codec negativeTtl event = some cache') {r : RecordKey} {n : Revision}
    (h : (r, n) ∈ confirmedPuts codec cache.redis event) :
    ∃ m, n ≤ m ∧ (entryOf cache'.redis r).revision = some (revisionToken m) := by
  cases event with
  | put snapshot =>
    rw [CacheSystem.step, Option.ite_none_right_eq_some, Option.some_inj] at hstep
    obtain ⟨-, rfl⟩ := hstep
    rw [confirmedPuts] at h
    split at h
    · rename_i hok
      obtain ⟨rfl, rfl⟩ := Prod.mk.inj (List.mem_singleton.mp h)
      exact put_stores (hcoherent _) hok
    · cases h
  | putMulti snapshots =>
    rw [CacheSystem.step, Option.ite_none_right_eq_some, Option.some_inj] at hstep
    obtain ⟨hcommitted, rfl⟩ := hstep
    rw [confirmedPuts] at h
    rcases putMulti_eq codec snapshots cache.redis with ⟨e, heq⟩ | ⟨heq, hok⟩
    · rw [heq] at h
      cases h
    · rw [heq] at h ⊢
      obtain ⟨snapshot, hmem, hpair⟩ := List.mem_map.mp h
      obtain ⟨rfl, rfl⟩ := Prod.mk.inj hpair
      exact putMulti_stores hcommitted hcoherent hok snapshot hmem
  | commit snapshot => cases h
  | putNegative record expected => cases h
  | delete record => cases h
  | acquireLock record token => cases h
  | releaseLock record token => cases h

/-- Every entry of the cache is coherent. -/
def AllCoherent (codec : SnapshotCodec) (cache : CacheSystem) : Prop :=
  ∀ r, Coherent codec (cache.committed r) (entryOf cache.redis r)

/-- What callers were told was so at some time of the run. -/
structure History (codec : SnapshotCodec) (negativeTtl : ℕ) (es : List RepairEvent)
    (s : RepairSystem) : Prop where
  coherent : AllCoherent codec s.cache
  stored : ∀ r n, (r, n) ∈ s.stored → Once (RepairSystem.step codec negativeTtl) {} es
    fun u => ∃ m, n ≤ m ∧ CachesAt codec u.cache r m
  hints : ∀ hint ∈ s.hints, hint ∈ s.stored
  batches : ∀ batch ∈ s.batches, ∀ hint ∈ batch, hint ∈ s.stored
  missing : ∀ lease ∈ s.missing, Once (RepairSystem.step codec negativeTtl) {} es
    fun u => lease ∈ u.leases ∧ u.snapshots lease.record = none
  absent : ∀ lease ∈ s.absent, lease ∈ s.missing
  tokens : ∀ lease ∈ s.leases, 0 < lease.leaseToken ∧ lease.leaseToken ≤ s.repairs.leaseSeq

/-- Callers are told nothing new. -/
structure SameTold (s t : RepairSystem) : Prop where
  hints : t.hints = s.hints
  batches : t.batches = s.batches
  stored : t.stored = s.stored
  leases : t.leases = s.leases
  missing : t.missing = s.missing
  absent : t.absent = s.absent

variable {es : List RepairEvent} {event : RepairEvent}

theorem SameTold.trans {s t u : RepairSystem} (h : SameTold s t) (h' : SameTold t u) :
    SameTold s u :=
  ⟨h'.hints.trans h.hints, h'.batches.trans h.batches, h'.stored.trans h.stored,
    h'.leases.trans h.leases, h'.missing.trans h.missing, h'.absent.trans h.absent⟩

/-- A step that tells callers nothing. -/
theorem History.frame (h : History codec negativeTtl es s) (event : RepairEvent)
    (hcoherent : AllCoherent codec t.cache) (hqueue : QueueStep s.repairs t.repairs)
    (hsame : SameTold s t) : History codec negativeTtl (es ++ [event]) t := by
  refine ⟨hcoherent, ?_, ?_, ?_, ?_, ?_, ?_⟩
  · rw [hsame.stored]
    exact fun r n hmem => (h.stored r n hmem).append _
  · rw [hsame.hints, hsame.stored]
    exact h.hints
  · rw [hsame.batches, hsame.stored]
    exact h.batches
  · rw [hsame.missing]
    exact fun lease hmem => (h.missing lease hmem).append _
  · rw [hsame.absent, hsame.missing]
    exact h.absent
  · rw [hsame.leases]
    intro lease hmem
    obtain ⟨hpos, hle⟩ := h.tokens lease hmem
    exact ⟨hpos, le_trans hle hqueue.seq⟩

theorem queueAfter_frame {α : Type} (s : RepairSystem)
    (result : Except StorageError (α × CacheRepairs)) :
    (s.queueAfter result).cache = s.cache ∧ SameTold s (s.queueAfter result) := by
  cases result with
  | error e => exact ⟨rfl, rfl, rfl, rfl, rfl, rfl, rfl⟩
  | ok v => exact ⟨rfl, rfl, rfl, rfl, rfl, rfl, rfl⟩

theorem History.queueAfter {α : Type} {result : Except StorageError (α × CacheRepairs)}
    (h : History codec negativeTtl es s) (hrows : RowsStep s event (s.queueAfter result)) :
    History codec negativeTtl (es ++ [event]) (s.queueAfter result) := by
  obtain ⟨hcache, hsame⟩ := queueAfter_frame s result
  refine h.frame event ?_ hrows.queue hsame
  rw [hcache]
  exact h.coherent

theorem commitOne_frame {now : ℕ} {snapshot : SnapshotEnvelope}
    (h : s.commitOne now snapshot = some t) :
    (AllCoherent codec s.cache → AllCoherent codec t.cache) ∧ SameTold s t := by
  rw [RepairSystem.commitOne, Option.ite_none_right_eq_some] at h
  obtain ⟨hnew, h⟩ := h
  split at h
  · obtain rfl := Option.some.inj h
    refine ⟨fun hcoherent r => ?_, rfl, rfl, rfl, rfl, rfl, rfl⟩
    -- the cache sees the commit that it would see alone
    have hstep : s.cache.step codec 0 (.commit snapshot) = some (s.cache.recordCommit snapshot) :=
      if_pos hnew
    exact step_coherent hstep (hcoherent r)
  · cases h

theorem commit_frame {now : ℕ} : ∀ {snapshots : List SnapshotEnvelope} {s : RepairSystem},
    snapshots.foldlM (RepairSystem.commitOne now) s = some t →
      (AllCoherent codec s.cache → AllCoherent codec t.cache) ∧ SameTold s t
  | [], s, h => by
    obtain rfl := Option.some.inj h
    exact ⟨id, rfl, rfl, rfl, rfl, rfl, rfl⟩
  | snapshot :: rest, s, h => by
    rw [List.foldlM_cons, Option.bind_eq_bind, Option.bind_eq_some_iff] at h
    obtain ⟨m, hm, h⟩ := h
    obtain ⟨hcoherent, hsame⟩ := commitOne_frame hm
    obtain ⟨hcoherent', hsame'⟩ := commit_frame h
    exact ⟨fun hs => hcoherent' (hcoherent hs), hsame.trans hsame'⟩

/-- **Step lemma**: what callers are told is so. -/
theorem step_history (hrun : run (RepairSystem.step codec negativeTtl) {} es = some s)
    (h : History codec negativeTtl es s) (hstep : s.step codec negativeTtl event = some t) :
    History codec negativeTtl (es ++ [event]) t := by
  have hrows := step_queue hstep
  have hrun' : run (RepairSystem.step codec negativeTtl) {} (es ++ [event]) = some t :=
    run_concat.mpr ⟨s, hrun, hstep⟩
  cases event with
  | commit now snapshots =>
    obtain ⟨hcoherent, hsame⟩ := commit_frame hstep
    exact h.frame _ (hcoherent h.coherent) hrows.queue hsame
  | enqueue now record target =>
    rw [RepairSystem.step] at hstep
    split at hstep
    · obtain rfl := Option.some.inj hstep
      exact h.frame _ h.coherent hrows.queue ⟨rfl, rfl, rfl, rfl, rfl, rfl⟩
    · obtain rfl := Option.some.inj hstep
      exact h.frame _ h.coherent hrows.queue ⟨rfl, rfl, rfl, rfl, rfl, rfl⟩
  | cache event confirmed =>
    rw [RepairSystem.step, Option.ite_none_left_eq_some, Option.map_eq_some_iff] at hstep
    obtain ⟨-, cache, hcache, rfl⟩ := hstep
    have hcoherent : AllCoherent codec cache := fun r => step_coherent hcache (h.coherent r)
    -- what was stored stays so
    have hmono : ∀ hint ∈ s.stored, hint ∈ if confirmed then
        confirmedPuts codec s.cache.redis event ++ s.stored else s.stored := by
      intro hint hmem
      split
      · exact List.mem_append_right _ hmem
      · exact hmem
    refine ⟨hcoherent, fun r n hmem => ?_, fun hint hmem => hmono _ (h.hints hint hmem),
      fun batch hbatch hint hmem => hmono _ (h.batches batch hbatch hint hmem),
      fun lease hmem => (h.missing lease hmem).append _, h.absent, h.tokens⟩
    have hcases : (r, n) ∈ confirmedPuts codec s.cache.redis event ∨ (r, n) ∈ s.stored := by
      dsimp only at hmem
      split at hmem
      · exact List.mem_append.mp hmem
      · exact Or.inr hmem
    rcases hcases with hnew | hold
    · -- confirmed just now
      obtain ⟨m, hm, htoken⟩ := confirmedPuts_stores h.coherent hcache hnew
      exact once_of_run hrun' ⟨m, hm, (hcoherent r).cachesAt htoken⟩
    · exact (h.stored r n hold).append _
  | hint record revision =>
    rw [RepairSystem.step, Option.ite_none_right_eq_some, Option.some_inj] at hstep
    obtain ⟨hstored, rfl⟩ := hstep
    refine ⟨h.coherent, fun r n hmem => (h.stored r n hmem).append _, fun hint hmem => ?_,
      h.batches, fun lease hmem => (h.missing lease hmem).append _, h.absent, h.tokens⟩
    rcases mem_record hmem with hmem | rfl
    · exact h.hints hint hmem
    · exact hstored
  | acknowledgeCached record revision =>
    rw [RepairSystem.step, Option.ite_none_right_eq_some, Option.some_inj] at hstep
    obtain ⟨-, rfl⟩ := hstep
    exact h.queueAfter hrows
  | acknowledgeCachedMulti locked targets =>
    rw [RepairSystem.step, Option.ite_none_right_eq_some, Option.some_inj] at hstep
    obtain ⟨-, rfl⟩ := hstep
    exact h.queueAfter hrows
  | takeBatch keys =>
    obtain ⟨⟨taken, rest⟩, htake, rfl⟩ := Option.map_eq_some_iff.mp hstep
    obtain ⟨htaken, hrest⟩ := takeBatch_subset htake
    refine ⟨h.coherent, fun r n hmem => (h.stored r n hmem).append _,
      fun hint hmem => h.hints hint (hrest hmem), fun batch hbatch hint hmem => ?_,
      fun lease hmem => (h.missing lease hmem).append _, h.absent, h.tokens⟩
    rcases List.mem_cons.mp hbatch with rfl | hbatch
    · exact h.hints hint (htaken hmem)
    · exact h.batches batch hbatch hint hmem
  | flush locked targets =>
    rw [RepairSystem.step, Option.ite_none_right_eq_some, Option.some_inj] at hstep
    obtain ⟨-, rfl⟩ := hstep
    exact h.queueAfter hrows
  | claim workerId leaseMs locked statement clock =>
    rw [RepairSystem.step] at hstep
    split at hstep
    · rename_i lease q hq
      obtain rfl := Option.some.inj hstep
      obtain ⟨hqueue, -, hlease⟩ := claim_ok hq
      refine ⟨h.coherent, fun r n hmem => (h.stored r n hmem).append _, h.hints, h.batches,
        fun lease hmem => (h.missing lease hmem).append _, h.absent, fun l hmem => ?_⟩
      rcases List.mem_append.mp hmem with hmem | hmem
      · obtain ⟨hlt, hle⟩ := hlease l (Option.mem_toList.mp hmem)
        -- the token of the new lease was drawn from the sequence
        exact ⟨by omega, hle⟩
      · obtain ⟨hpos, hle⟩ := h.tokens l hmem
        exact ⟨hpos, le_trans hle hqueue.seq⟩
    · obtain rfl := Option.some.inj hstep
      exact h.frame _ h.coherent hrows.queue ⟨rfl, rfl, rfl, rfl, rfl, rfl⟩
  | drawToken =>
    rw [RepairSystem.step] at hstep
    split at hstep
    · obtain rfl := Option.some.inj hstep
      exact h.frame _ h.coherent hrows.queue ⟨rfl, rfl, rfl, rfl, rfl, rfl⟩
    · obtain rfl := Option.some.inj hstep
      exact h.frame _ h.coherent hrows.queue ⟨rfl, rfl, rfl, rfl, rfl, rfl⟩
  | loadMissing lease =>
    rw [RepairSystem.step, Option.ite_none_right_eq_some, Option.some_inj] at hstep
    obtain ⟨⟨hlease, hmissing⟩, rfl⟩ := hstep
    refine ⟨h.coherent, fun r n hmem => (h.stored r n hmem).append _, h.hints, h.batches,
      fun l hmem => ?_, fun l hmem => List.mem_cons_of_mem _ (h.absent l hmem), h.tokens⟩
    rcases List.mem_cons.mp hmem with rfl | hmem
    · -- missing just now
      exact once_of_run hrun' ⟨hlease, hmissing⟩
    · exact (h.missing l hmem).append _
  | deleteMissing lease =>
    rw [RepairSystem.step, Option.ite_none_right_eq_some, Option.some_inj] at hstep
    obtain ⟨hmissing, rfl⟩ := hstep
    refine ⟨fun r => ?_, fun r n hmem => (h.stored r n hmem).append _, h.hints, h.batches,
      fun l hmem => (h.missing l hmem).append _, fun l hmem => ?_, h.tokens⟩
    · -- for the cache it is a deletion
      have hcache : s.cache.step codec negativeTtl (.delete lease.record) =
          some { s.cache with redis := delete lease.record s.cache.redis } := rfl
      exact step_coherent hcache (h.coherent r)
    · rcases List.mem_cons.mp hmem with rfl | hmem
      · exact hmissing
      · exact h.absent l hmem
  | acknowledge lease repaired locking settling =>
    rw [RepairSystem.step, Option.ite_none_right_eq_some, Option.some_inj] at hstep
    obtain ⟨-, rfl⟩ := hstep
    exact h.queueAfter hrows
  | fail lease error retryDelayMs maxAttempts locking settling clock =>
    rw [RepairSystem.step, Option.ite_none_right_eq_some, Option.some_inj] at hstep
    obtain ⟨-, rfl⟩ := hstep
    exact h.queueAfter hrows
  | requeueDeadLetter record now =>
    obtain rfl := Option.some.inj hstep
    exact h.queueAfter hrows

/-! ### Stale leases -/

/-- A lease whose token is not the row's settles nothing. -/
theorem step_not_current {lease : CacheRepairLease} (hsettles : event.settles = some lease)
    (hnot : ∀ row, s.repairs.lookup lease.record = some row → row.leaseToken ≠ lease.leaseToken)
    (hstep : s.step codec negativeTtl event = some t) : t = s := by
  have hafter : ∀ result : Except StorageError (Bool × CacheRepairs),
      (∀ settled q, result = .ok (settled, q) → q = s.repairs) → s.queueAfter result = s := by
    intro result hresult
    cases result with
    | error e => rfl
    | ok v =>
      have hq := hresult v.1 v.2 rfl
      show { s with repairs := v.2 } = s
      rw [hq]
  cases event with
  | acknowledge lease' repaired locking settling =>
    obtain rfl := Option.some.inj hsettles
    rw [RepairSystem.step, Option.ite_none_right_eq_some, Option.some_inj] at hstep
    obtain ⟨-, rfl⟩ := hstep
    exact hafter _ fun settled q hq => (acknowledge_not_current hnot hq).2
  | fail lease' error retryDelayMs maxAttempts locking settling clock =>
    obtain rfl := Option.some.inj hsettles
    rw [RepairSystem.step, Option.ite_none_right_eq_some, Option.some_inj] at hstep
    obtain ⟨-, rfl⟩ := hstep
    exact hafter _ fun settled q hq => (fail_not_current hnot hq).2
  | _ => cases hsettles

/-- Rows that were created after a removal have no token or one that is drawn later. -/
theorem run_fenced {r : RecordKey} {fs : List RepairEvent} (hgone : s.repairs.lookup r = none)
    (hrun : run (RepairSystem.step codec negativeTtl) s fs = some t) {row : CacheRepairRow}
    (hrow : t.repairs.lookup r = some row) :
    row.leaseToken = 0 ∨ s.repairs.leaseSeq < row.leaseToken := by
  let Fenced (u : RepairSystem) : Prop := s.repairs.leaseSeq ≤ u.repairs.leaseSeq ∧
    ∀ row, u.repairs.lookup r = some row →
      row.leaseToken = 0 ∨ s.repairs.leaseSeq < row.leaseToken
  have hinit : Fenced s := by
    refine ⟨le_refl _, fun row h => ?_⟩
    rw [hgone] at h
    cases h
  have hkeep : ∀ u e v, Fenced u → u.step codec negativeTtl e = some v → Fenced v := by
    rintro u e v ⟨hseq, hrows⟩ hstep
    have hqueue := (step_queue hstep).queue
    have hseq' := hqueue.seq
    refine ⟨le_trans hseq hseq', fun row' hrow' => ?_⟩
    rcases hqueue.row r row' hrow' with ⟨row, hrow, -, htoken⟩ | ⟨-, htoken⟩
    · have hold := hrows row hrow
      unfold DrawnBetween at htoken
      omega
    · unfold DrawnBetween at htoken
      omega
  exact (run_invariant hkeep hinit hrun).2 row hrow

end Steps

/-! ### Runs -/

theorem run_history_of {codec : SnapshotCodec} {negativeTtl : ℕ} {es : List RepairEvent}
    {s : RepairSystem} (hrun : run (RepairSystem.step codec negativeTtl) {} es = some s) :
    History codec negativeTtl es s := by
  have hinit : History codec negativeTtl [] ({} : RepairSystem) :=
    ⟨fun r => Or.inl ⟨rfl, rfl⟩, by simp, by simp, by simp, by simp, by simp, by simp⟩
  exact run_history hinit (fun _ _ _ _ hrun h hstep => step_history hrun h hstep) hrun

/-- **Safety of cache repairs.**  In every reachable state and for every record:

* a step leaves the row's target or raises it, as long as the row exists;
* a step removes the row only if the cache held, at some earlier time, the snapshot of a
  revision that is at least the row's present target; or if the row's own lease had just
  this target and its repair found no record;
* a call with a token that is not the row's changes nothing;
* and the token of a lease whose row was removed never is a row's token again. -/
theorem cache_repair_safety (codec : SnapshotCodec) (negativeTtl : ℕ) (es : List RepairEvent)
    (s : RepairSystem) (hrun : run (RepairSystem.step codec negativeTtl) {} es = some s)
    (r : RecordKey) :
    (∀ event t row row', s.step codec negativeTtl event = some t →
      s.repairs.lookup r = some row → t.repairs.lookup r = some row' →
      row.targetRevision ≤ row'.targetRevision) ∧
    (∀ event t row, s.step codec negativeTtl event = some t →
      s.repairs.lookup r = some row → t.repairs.lookup r = none →
      Once (RepairSystem.step codec negativeTtl) {} es
        (fun u => ∃ m, row.targetRevision ≤ m ∧ CachesAt codec u.cache r m) ∨
      ∃ lease locking settling, event = .acknowledge lease none locking settling ∧
        lease.record = r ∧ lease.leaseToken = row.leaseToken ∧
        lease.targetRevision = row.targetRevision ∧
        Once (RepairSystem.step codec negativeTtl) {} es
          (fun u => lease ∈ u.leases ∧ u.snapshots r = none)) ∧
    (∀ lease event t, event.settles = some lease →
      (∀ row, s.repairs.lookup lease.record = some row → row.leaseToken ≠ lease.leaseToken) →
      s.step codec negativeTtl event = some t → t = s) ∧
    (∀ lease ∈ s.leases, s.repairs.lookup lease.record = none →
      ∀ fs t, run (RepairSystem.step codec negativeTtl) s fs = some t →
        ∀ row, t.repairs.lookup lease.record = some row →
          row.leaseToken ≠ lease.leaseToken) := by
  have hhistory := run_history_of hrun
  refine ⟨?_, ?_, ?_, ?_⟩
  · intro event t row row' hstep hrow hrow'
    -- targets only grow
    rcases (step_queue hstep).queue.row r row' hrow' with ⟨old, hold, hle, -⟩ | ⟨hnone, -⟩
    · rw [hrow] at hold
      obtain rfl := Option.some.inj hold
      exact hle
    · rw [hrow] at hnone
      cases hnone
  · intro event t row hstep hrow hgone
    -- a row goes when the revision is cached, or when the snapshot was missing
    rcases (step_queue hstep).removal r row hrow hgone with
      ⟨n, hle, hknown⟩ | ⟨lease, locking, settling, rfl, habsent, rfl, htoken, htarget⟩
    · left
      have hstored : (r, n) ∈ s.stored := by
        rcases hknown with hstored | ⟨batch, hbatch, hmem⟩
        · exact hstored
        · exact hhistory.batches batch hbatch _ hmem
      refine (hhistory.stored r n hstored).mono fun u hu => ?_
      obtain ⟨m, hm, hcached⟩ := hu
      exact ⟨m, le_trans hle hm, hcached⟩
    · right
      exact ⟨lease, locking, settling, rfl, rfl, htoken, htarget,
        hhistory.missing lease (hhistory.absent lease habsent)⟩
  · intro lease event t hsettles hnot hstep
    exact step_not_current hsettles hnot hstep
  · intro lease hmem hgone fs t hrun' row hrow
    -- a new row gets a token behind all that were drawn
    obtain ⟨hpos, hle⟩ := hhistory.tokens lease hmem
    have hfenced := run_fenced hgone hrun' hrow
    omega

/-- A worker claims the repair of the first snapshot and is slow.  The second snapshot is
committed and cached, its hint clears the row, and a third commit asks for a repair again. -/
def slowWorkerTrace : List RepairEvent :=
  [.commit 1000 [firstSnapshot],
    .claim "worker-1" 30000 (fun _ => false) 2000 2000,
    .commit 3000 [secondSnapshot],
    .cache (.put firstSnapshot) true,
    .cache (.put secondSnapshot) true,
    .hint secondSnapshot.record 2,
    .takeBatch [secondSnapshot.record],
    .flush (fun _ => false) [(secondSnapshot.record, 2)],
    .commit 4000 [{ secondSnapshot with revision := 3, payload := [9] }]]

def slowLease : CacheRepairLease := ⟨firstSnapshot.record, 1, 0, 1, "worker-1"⟩

/-- The slow worker's acknowledgement leaves the new request alone. -/
theorem cache_repair_safety_slow :
    ∃ s t, run (RepairSystem.step smallSnapshotCodec 30000) {} slowWorkerTrace = some s ∧
      (s.repairs.lookup firstSnapshot.record).map (·.targetRevision) = some 3 ∧
      s.step smallSnapshotCodec 30000 (.acknowledge slowLease (some 1) 5000 5000) = some t ∧
      t = s := by
  have hreach : ∃ s, run (RepairSystem.step smallSnapshotCodec 30000) {} slowWorkerTrace = some s ∧
      (s.repairs.lookup firstSnapshot.record).map (·.targetRevision) = some 3 ∧
      (s.repairs.lookup firstSnapshot.record).map (·.leaseToken) = some 0 ∧
      (s.step smallSnapshotCodec 30000 (.acknowledge slowLease (some 1) 5000 5000)).isSome :=
    exists_of_any (by decide +kernel)
  obtain ⟨s, hs, htarget, htoken, hsome⟩ := hreach
  obtain ⟨t, ht⟩ := Option.isSome_iff_exists.mp hsome
  refine ⟨s, t, hs, htarget, ht, ?_⟩
  have hsafe := cache_repair_safety smallSnapshotCodec 30000 _ s hs firstSnapshot.record
  refine hsafe.2.2.1 slowLease _ t rfl (fun row hrow => ?_) ht
  have hzero : row.leaseToken = 0 := by
    rw [show s.repairs.lookup firstSnapshot.record = some row from hrow] at htoken
    exact Option.some.inj htoken
  rw [hzero]
  decide

end DbProxy
