/-
What a batch read may do, and when.

The replies of Redis, of the gates and of PostgreSQL are arbitrary.  `ReadStage` is what the
read has so far: a slot, guards, leases, the permit of the circuit breaker and the answer of its
query.  `allows` says which calls it may make in that stage.

* `acquireKeys_obeys`, `distributedLocks_obeys`, `query_obeys`, `fill_obeys`,
  `releaseFallbackLocks_obeys` — the parts of the read;
* `load_cached_multi_disciplined` — the read keeps to its stages, also when it is cut off.
-/
import DbProxy.CachedReadPositions
import DbProxy.CallProtocol
import DbProxy.ReadGates
import DbProxy.Scatter

namespace DbProxy

open Interaction CachedRead RedisSnapshotCache TieredSnapshotStore

structure ReadStage where
  slot : Bool := false
  /-- Records whose mutex the read has. -/
  guards : List RecordKey := []
  leases : List CacheFallbackLock := []
  permit : Bool := false
  /-- PostgreSQL was asked. -/
  asked : Bool := false
  /-- Its answer, if it was one. -/
  loaded : Option (List SnapshotEnvelope) := none
  /-- Leases are being given back. -/
  ending : Bool := false

namespace ReadStage

/-- Before the permit. -/
def early (q : ReadStage) : Bool := !q.permit && !q.asked && !q.ending

def allows (q : ReadStage) : CachedReadCall → Bool
  | .mget _ => q.early
  | .scheduleCacheRefresh _ => q.early
  | .acquireFallback => q.early && !q.slot
  -- in ascending order and before all leases
  | .acquireKey record => q.early && q.slot && q.leases.isEmpty && q.guards.all (· < record)
  | .lockWaitLeft => q.early && !q.guards.isEmpty
  | .acquireFallbackLock record => q.early && q.guards.contains record
  | .allowFallback => q.early && !q.guards.isEmpty
  -- once, and for records whose mutex the read has
  | .query namespaces keys => q.permit && !q.asked && namespaces.length == keys.length &&
      (namespaces.zip keys).all fun x => q.guards.contains ⟨x.1, x.2⟩
  | .fallbackSucceeded => q.permit && q.loaded.isSome
  | .fallbackFailed => q.permit && q.asked && q.loaded.isNone
  -- what PostgreSQL answered, while the leases last
  | .putCache snapshot => !q.permit && !q.ending && q.guards.contains snapshot.record &&
      q.loaded.any fun found => found.contains snapshot
  -- a record of which the answer has no row
  | .putNegativeCache record => !q.permit && !q.ending && q.guards.contains record &&
      q.loaded.any fun found => found.all fun snapshot => snapshot.record ≠ record
  | .releaseFallbackLock lock => !q.permit && q.leases.head? == some lock

/-- The rows of a reply, if they are snapshots. -/
def answer (reply : Except CachedReadError (List SnapshotColumns)) :
    Option (List SnapshotEnvelope) := (reply.bind (·.mapM snapshotFromRow)).toOption

def leasesAfter (leases : List CacheFallbackLock) :
    CacheFallbackLockOutcome → List CacheFallbackLock
  | .acquired lock => leases ++ [lock]
  | .cacheFilled _ | .negativeFilled => leases
  -- a read that stops waiting leaves them to expire
  | .unavailable => []

def after (q : ReadStage) : (c : CachedReadCall) → c.Reply → ReadStage
  | .acquireFallback, .ok _ => { q with slot := true }
  | .acquireKey record, _ => { q with guards := q.guards ++ [record] }
  | .lockWaitLeft, left => { q with leases := if left then q.leases else [] }
  | .acquireFallbackLock _, outcome => { q with leases := leasesAfter q.leases outcome }
  | .allowFallback, .ok _ => { q with permit := true }
  | .query _ _, reply => { q with asked := true, loaded := answer reply }
  | .fallbackSucceeded, _ => { q with permit := false }
  | .fallbackFailed, _ => { q with permit := false }
  | .releaseFallbackLock _, _ => { q with leases := q.leases.tail, ending := true }
  | _, _ => q

/-- Everything that must be given back has been. -/
def Settled (q : ReadStage) : Prop := q.permit = false ∧ q.leases = []

end ReadStage

def readProtocol : CallProtocol CachedReadCall CachedReadCall.Reply ReadStage :=
  ⟨ReadStage.allows, ReadStage.after⟩

section Parts

variable {codec : SnapshotCodec} {q : ReadStage} {guards : List RecordKey}
  {locks : List CacheFallbackLock}

theorem obeys_reply {α : Type} {post : Except CachedReadError α → ReadStage → Prop}
    {c : CachedReadCall} {f : c.Reply → CachedRead α} (hallowed : q.allows c = true)
    (hf : ∀ r, Obeys readProtocol post (f r).run (q.after c r)) :
    Obeys readProtocol post (reply c >>= f).run q :=
  ⟨hallowed, hf⟩

theorem obeys_attempt {α : Type} {post : Except CachedReadError (Except CachedReadError α) →
      ReadStage → Prop} {x : CachedRead α}
    (h : Obeys readProtocol (fun r => post (.ok r)) x.run q) :
    Obeys readProtocol post (attempt x).run q :=
  obeys_bind h fun _ _ hr => hr

/-! ### Lookups -/

theorem lookupMulti_obeys (hq : q.early = true) (records : List RecordKey) :
    Obeys readProtocol (fun _ q' => q' = q) (lookupMulti codec records).run q := by
  rw [lookupMulti]
  split
  · rfl
  · refine obeys_reply hq fun r => ?_
    cases r with
    | error e => rfl
    | ok values => rfl

theorem attemptLookup_obeys (hq : q.early = true) (records : List RecordKey) :
    Obeys readProtocol (fun r q' => q' = q ∧ ∃ lookups, r = .ok lookups)
      (attempt (lookupMulti codec records)).run q :=
  obeys_attempt ((lookupMulti_obeys hq records).imp fun r _ h => ⟨h, r, rfl⟩)

/-- A loop over some positions leaves a part of them missing. -/
theorem recheck_obeys (hq : q.early = true) (pairs : List (Position × CacheLookup))
    (snapshots : List (Option SnapshotEnvelope)) (missing : List Position) :
    Obeys readProtocol
      (fun r q' => q' = q ∧ ∃ snapshots' still, r = .ok (snapshots', missing ++ still) ∧
        still.Sublist (pairs.map Prod.fst))
      (recheck pairs snapshots missing).run q := by
  induction pairs generalizing snapshots missing with
  | nil => exact ⟨rfl, snapshots, [], by rw [List.append_nil], List.Sublist.slnil⟩
  | cons x rest ih =>
    obtain ⟨⟨index, record⟩, lookup⟩ := x
    have hlater : ∀ snapshots', Obeys readProtocol
        (fun r q' => q' = q ∧ ∃ snapshots' still, r = .ok (snapshots', missing ++ still) ∧
          still.Sublist ((((index, record), lookup) :: rest).map Prod.fst))
        (recheck rest snapshots' missing).run q := by
      intro snapshots'
      refine (ih snapshots' missing).imp fun r q' h => ?_
      obtain ⟨hq', snapshots'', still, hr, hstill⟩ := h
      exact ⟨hq', snapshots'', still, hr, hstill.cons _⟩
    cases lookup with
    | fresh snapshot => exact hlater _
    | stale snapshot => exact obeys_reply hq fun _ => hlater _
    | negative => exact hlater _
    | miss =>
      -- the position joins those that are still missing
      refine (ih snapshots (missing ++ [(index, record)])).imp fun r q' h => ?_
      obtain ⟨hq', snapshots'', still, hr, hstill⟩ := h
      refine ⟨hq', snapshots'', (index, record) :: still, ?_, hstill.cons_cons _⟩
      rw [hr, List.append_assoc, List.singleton_append]

theorem recheckRound_obeys (hq : q.early = true) (s : ReadState) :
    Obeys readProtocol (fun r q' => q' = q ∧ ∃ s', r = .ok s' ∧ s'.missing.Sublist s.missing)
      (recheckRound codec s).run q := by
  rw [recheckRound]
  split
  · exact ⟨rfl, s, rfl, List.Sublist.refl _⟩
  · refine obeys_exceptT_bind (attemptLookup_obeys hq _) ?_ ?_
    · rintro e q' ⟨-, lookups, hlookups⟩
      cases hlookups
    · rintro lookups q' ⟨rfl, -⟩
      cases lookups with
      | error e => exact ⟨rfl, _, rfl, List.Sublist.refl _⟩
      | ok refreshed =>
        dsimp only
        split
        · refine obeys_exceptT_bind (recheck_obeys hq _ _ _) ?_ ?_
          · rintro e q'' ⟨-, snapshots, still, hresult, -⟩
            cases hresult
          · rintro ⟨snapshots', missing'⟩ q'' ⟨hq'', snapshots, still, hresult, hstill⟩
            cases hresult
            exact ⟨hq'', _, rfl, hstill.trans (Scatter.map_fst_zip_sublist ..)⟩
        · exact ⟨rfl, _, rfl, List.Sublist.refl _⟩

theorem firstRound_obeys (hq : q.early = true) (records : List RecordKey) :
    Obeys readProtocol
      (fun r q' => q' = q ∧ ∃ s, r = .ok s ∧ s.missing.Sublist (positions records))
      (firstRound codec records).run q := by
  rw [firstRound]
  refine obeys_exceptT_bind (attemptLookup_obeys hq _) ?_ ?_
  · rintro e q' ⟨-, lookups, hlookups⟩
    cases hlookups
  · rintro lookups q' ⟨rfl, -⟩
    refine obeys_exceptT_bind (recheck_obeys hq _ _ _) ?_ ?_
    · rintro e q'' ⟨-, snapshots, still, hresult, -⟩
      cases hresult
    · rintro ⟨snapshots', missing'⟩ q'' ⟨hq'', snapshots, still, hresult, hstill⟩
      cases hresult
      exact ⟨hq'', _, rfl, hstill.trans (Scatter.map_fst_zip_sublist ..)⟩

theorem map_snd_positions (records : List RecordKey) :
    (positions records).map Prod.snd = records := by
  rw [positions, List.map_map]
  exact List.zipIdx_map_fst 0 records

/-! ### Guards and leases -/

theorem subset_lockOrder (records : List RecordKey) :
    records ⊆ TieredSnapshotStore.lockOrder records := by
  have hkept : ∀ (l : List RecordKey) a, ∀ r ∈ a :: l, r ∈ l.destutter' (· ≠ ·) a := by
    intro l
    induction l with
    | nil => exact fun a r hr => hr
    | cons b l ih =>
      intro a r hr
      rw [List.destutter'_cons]
      split
      · rcases List.mem_cons.mp hr with rfl | hr
        · exact List.mem_cons_self
        · exact List.mem_cons_of_mem _ (ih b r hr)
      · rename_i hab
        obtain rfl := not_not.mp hab
        exact ih a r (by simpa using hr)
  intro record hrecord
  have hsorted : record ∈ sortOn id records := mem_sortOn.mpr hrecord
  rw [TieredSnapshotStore.lockOrder]
  cases hl : sortOn id records with
  | nil =>
    rw [hl] at hsorted
    cases hsorted
  | cons a l =>
    rw [hl] at hsorted
    exact hkept l a record hsorted

theorem lockOrder_subset (records : List RecordKey) :
    TieredSnapshotStore.lockOrder records ⊆ records :=
  fun _ h => mem_sortOn.mp ((List.destutter_sublist ..).subset h)

/-- With a slot, guards and leases. -/
def ReadStage.reading (guards : List RecordKey) (leases : List CacheFallbackLock) : ReadStage :=
  { slot := true, guards, leases }

theorem acquireKeys_obeys {records : List RecordKey}
    (hsorted : (guards ++ records).Pairwise (· < ·)) :
    Obeys readProtocol (fun r q' => r = .ok ⟨⟩ ∧ q' = .reading (guards ++ records) [])
      (acquireKeys records).run (.reading guards []) := by
  induction records generalizing guards with
  | nil =>
    rw [List.append_nil]
    exact ⟨rfl, rfl⟩
  | cons record rest ih =>
    rw [List.append_cons] at hsorted ⊢
    refine obeys_reply ?_ fun _ => ih hsorted
    have hless : ∀ guard ∈ guards, guard < record := by
      intro guard hguard
      have hfront := (List.pairwise_append.mp hsorted).1
      exact (List.pairwise_append.mp hfront).2.2 guard hguard record (List.mem_singleton.mpr rfl)
    simpa [ReadStage.allows, ReadStage.reading, ReadStage.early] using hless

theorem acquireLocks_obeys {records : List RecordKey} (hguards : records ⊆ guards)
    (locks : List CacheFallbackLock) :
    Obeys readProtocol
      (fun r q' => ∃ locks' failed, r = .ok (locks', failed) ∧
        q' = .reading guards (if failed then [] else locks'))
      (acquireLocks records locks).run (.reading guards locks) := by
  induction records generalizing locks with
  | nil => exact ⟨locks, false, rfl, rfl⟩
  | cons record rest ih =>
    have hguard : record ∈ guards := hguards List.mem_cons_self
    have hrest := fun locks' => ih (fun r hr => hguards (List.mem_cons_of_mem _ hr)) locks'
    refine obeys_reply ?_ fun left => ?_
    · simpa [ReadStage.allows, ReadStage.reading, ReadStage.early] using List.ne_nil_of_mem hguard
    cases left with
    -- the leases so far are left to expire, in the stage and in the program
    | false => exact ⟨locks, true, rfl, rfl⟩
    | true =>
      refine obeys_reply ?_ fun outcome => ?_
      · simpa [ReadStage.allows, ReadStage.reading, ReadStage.early, ReadStage.after] using hguard
      cases outcome with
      | acquired lock => exact hrest _
      | cacheFilled snapshot => exact hrest _
      | negativeFilled => exact hrest _
      | unavailable => exact ⟨locks, true, rfl, rfl⟩

theorem distributedLocks_obeys {s : ReadState}
    (hguards : TieredSnapshotStore.lockOrder (s.missing.map (·.2)) ⊆ guards) :
    Obeys readProtocol (fun r q' => ∃ locks, r = .ok locks ∧ q' = .reading guards locks)
      (distributedLocks s).run (.reading guards []) := by
  rw [distributedLocks]
  split
  · exact ⟨[], rfl, rfl⟩
  · refine obeys_exceptT_bind (acquireLocks_obeys hguards []) ?_ ?_
    · rintro e q' ⟨locks, failed, hresult, -⟩
      cases hresult
    · rintro ⟨locks', failed'⟩ q' ⟨locks, failed, hresult, rfl⟩
      cases hresult
      exact ⟨_, rfl, rfl⟩

theorem releaseFallbackLocks_obeys (hpermit : q.permit = false) (hlocks : q.leases = locks) :
    Obeys readProtocol (fun r q' => r = .ok ⟨⟩ ∧ q'.Settled) (releaseFallbackLocks locks).run
      q := by
  induction locks generalizing q with
  | nil => exact ⟨rfl, hpermit, hlocks⟩
  | cons lock rest ih =>
    refine obeys_reply ?_ fun _ => ih hpermit ?_
    · simp [ReadStage.allows, hpermit, hlocks]
    · exact congrArg List.tail hlocks

theorem releaseThen_obeys {α : Type} {post : Except CachedReadError α → ReadStage → Prop}
    {x : CachedRead α} (hpermit : q.permit = false) (hlocks : q.leases = locks)
    (hx : ∀ q' : ReadStage, q'.Settled → Obeys readProtocol post x.run q') :
    Obeys readProtocol post (releaseFallbackLocks locks >>= fun _ => x).run q := by
  refine obeys_exceptT_bind (releaseFallbackLocks_obeys hpermit hlocks) ?_ ?_
  · rintro e q' ⟨hresult, -⟩
    cases hresult
  · rintro - q' ⟨-, hsettled⟩
    exact hx q' hsettled

/-! ### The query -/

/-- The stage after the query, with the permit still to be settled. -/
def ReadStage.answered (guards : List RecordKey) (leases : List CacheFallbackLock)
    (loaded : Option (List SnapshotEnvelope)) : ReadStage :=
  { slot := true, guards, leases, permit := true, asked := true, loaded }

def AfterRead (guards : List RecordKey) (locks : List CacheFallbackLock)
    (records : List RecordKey) :
    Except CachedReadError (Except CachedReadError (List (Option SnapshotEnvelope))) →
      ReadStage → Prop
  | .error _, _ => False
  | .ok (.error _), q => q = .answered guards locks none
  | .ok (.ok loaded), q => ∃ found, q = .answered guards locks (some found) ∧
      loaded = records.map (PostgresSnapshotStore.byRecord found)

theorem query_obeys (locks : List CacheFallbackLock) {records : List RecordKey}
    (hne : records ≠ []) (hdistinct : records.Nodup) (hguards : records ⊆ guards) :
    Obeys readProtocol (AfterRead guards locks records)
      (attempt (PostgresSnapshotStore.loadMulti records)).run
      { slot := true, guards, leases := locks, permit := true } := by
  rw [PostgresSnapshotStore.loadMulti, if_neg hne]
  refine obeys_attempt (obeys_reply ?_ fun r => ?_)
  · simp only [ReadStage.allows, List.length_map, beq_self_eq_true, Bool.and_true, Bool.not_false,
      Bool.true_and, List.all_eq_true, List.contains_iff_mem]
    intro x hx
    rw [List.zip_map', List.mem_map] at hx
    obtain ⟨record, hrecord, rfl⟩ := hx
    exact hguards hrecord
  · cases r with
    | error e => rfl
    | ok rows =>
      have hanswer : ReadStage.answer (.ok rows) = (rows.mapM snapshotFromRow).toOption := rfl
      show Obeys readProtocol _ (orFail (rows.mapM snapshotFromRow) >>= _ : CachedRead _).run
        (.answered guards locks (ReadStage.answer (.ok rows)))
      rw [hanswer]
      cases hrows : rows.mapM snapshotFromRow with
      | error e => rfl
      | ok found => exact ⟨found, rfl, PostgresSnapshotStore.takeAll_eq hdistinct⟩

theorem fill_obeys (found : List SnapshotEnvelope) (cacheAvailable : Bool)
    (pairs : List (Position × Option SnapshotEnvelope)) (snapshots : List (Option SnapshotEnvelope))
    (hq : q.permit = false ∧ q.ending = false ∧ q.loaded = some found)
    (hguards : ∀ x ∈ pairs, x.1.2 ∈ q.guards)
    (hfound : ∀ x ∈ pairs, x.2 = PostgresSnapshotStore.byRecord found x.1.2) :
    Obeys readProtocol (fun r q' => q' = q ∧ ∃ snapshots', r = .ok snapshots')
      (fill cacheAvailable pairs snapshots).run q := by
  induction pairs generalizing snapshots with
  | nil => exact ⟨rfl, snapshots, rfl⟩
  | cons x rest ih =>
    obtain ⟨⟨index, record⟩, entry⟩ := x
    have hguard : record ∈ q.guards := hguards _ List.mem_cons_self
    have hentry : entry = PostgresSnapshotStore.byRecord found record :=
      hfound _ List.mem_cons_self
    have hrest := fun snapshots' => ih snapshots'
      (fun x hx => hguards x (List.mem_cons_of_mem _ hx))
      (fun x hx => hfound x (List.mem_cons_of_mem _ hx))
    cases cacheAvailable with
    | false => exact hrest _
    | true =>
      cases entry with
      | none =>
        refine obeys_reply ?_ fun _ => hrest _
        have hnone := PostgresSnapshotStore.byRecord_eq_none hentry.symm
        simpa [ReadStage.allows, hq, hguard] using hnone
      | some snapshot =>
        refine obeys_reply ?_ fun _ => hrest _
        obtain ⟨hmem, hrecord⟩ := PostgresSnapshotStore.byRecord_eq_some hentry.symm
        simpa [ReadStage.allows, hq, hrecord, hguard] using hmem

theorem loadMissing_obeys {s : ReadState} (hne : s.missing ≠ [])
    (hdistinct : (s.missing.map (·.2)).Nodup) (hguards : s.missing.map (·.2) ⊆ guards) :
    Obeys readProtocol (fun _ q' => q'.Settled) (loadMissing s locks).run
      (.reading guards locks) := by
  have hnonempty : s.missing.map (·.2) ≠ [] := fun h => hne (List.map_eq_nil_iff.mp h)
  rw [loadMissing]
  refine obeys_reply ?_ fun allowed => ?_
  · obtain ⟨record, hrecord⟩ := List.exists_mem_of_ne_nil _ hnonempty
    simpa [ReadStage.allows, ReadStage.reading, ReadStage.early] using
      List.ne_nil_of_mem (hguards hrecord)
  cases allowed with
  | error e => exact releaseThen_obeys rfl rfl fun q' hq' => hq'
  | ok _ =>
    refine obeys_exceptT_bind (query_obeys locks hnonempty hdistinct hguards)
      (fun e q' h => h.elim) fun result q' h => ?_
    cases result with
    | error e =>
      -- the circuit breaker learns of the failure before the leases go back
      obtain rfl : q' = .answered guards locks none := h
      exact obeys_reply rfl fun _ => releaseThen_obeys rfl rfl fun q' hq' => hq'
    | ok loaded =>
      obtain ⟨found, rfl, rfl⟩ := h
      refine obeys_reply rfl fun _ => ?_
      refine obeys_exceptT_bind (fill_obeys found _ _ _ ⟨rfl, rfl, rfl⟩ ?_ ?_) ?_ ?_
      · intro x hx
        exact hguards (List.mem_map_of_mem (List.of_mem_zip hx).1)
      · -- each position is paired with what was found for its record
        intro x hx
        rw [List.map_map, List.zip_map_right, List.zip_eq_zipWith, List.zipWith_self,
          List.map_map] at hx
        obtain ⟨p, -, rfl⟩ := List.mem_map.mp hx
        rfl
      · rintro e q' ⟨-, snapshots, hresult⟩
        cases hresult
      · rintro snapshots q' ⟨rfl, -⟩
        exact releaseThen_obeys rfl rfl fun q' hq' => hq'

end Parts

/-! ### The whole read -/

theorem loadCachedMulti_obeys (codec : SnapshotCodec) {records : List RecordKey}
    (hrecords : records.Nodup) :
    Obeys readProtocol (fun _ q => q.Settled) (loadCachedMulti codec records).run {} := by
  rw [loadCachedMulti]
  refine obeys_exceptT_bind (firstRound_obeys rfl records) ?_ ?_
  · rintro e q ⟨-, s, hresult, -⟩
    cases hresult
  rintro s q ⟨rfl, _, hresult, hfirst⟩
  cases hresult
  split
  · exact ⟨rfl, rfl⟩
  refine obeys_reply rfl fun slot => ?_
  cases slot with
  | error e => exact ⟨rfl, rfl⟩
  | ok _ =>
    set wanted := TieredSnapshotStore.lockOrder (s.missing.map (·.2)) with hwanted
    have hsorted : (([] : List RecordKey) ++ wanted).Pairwise (· < ·) := lockOrder_pairwise _
    show Obeys readProtocol _ (acquireKeys wanted >>= _ : CachedRead _).run (.reading [] [])
    refine obeys_exceptT_bind (acquireKeys_obeys hsorted) ?_ ?_
    · rintro e q ⟨hresult, -⟩
      cases hresult
    rintro - q ⟨-, rfl⟩
    refine obeys_exceptT_bind (recheckRound_obeys rfl s) ?_ ?_
    · rintro e q ⟨-, s', hresult, -⟩
      cases hresult
    rintro s' q ⟨rfl, _, hresult, hmissing⟩
    cases hresult
    split
    · exact ⟨rfl, rfl⟩
    have hguards : ∀ t : ReadState, t.missing.Sublist s.missing → t.missing.map (·.2) ⊆ wanted :=
      fun t ht => List.Subset.trans (List.map_subset _ ht.subset) (subset_lockOrder _)
    have hlocked : TieredSnapshotStore.lockOrder (s'.missing.map (·.2)) ⊆ wanted :=
      List.Subset.trans (lockOrder_subset _) (hguards s' hmissing)
    -- from here on every way out releases the leases
    refine obeys_exceptT_bind (distributedLocks_obeys hlocked) ?_ ?_
    · rintro e q ⟨locks, hresult, -⟩
      cases hresult
    rintro locks q ⟨_, hresult, rfl⟩
    cases hresult
    refine obeys_exceptT_bind (recheckRound_obeys rfl s') ?_ ?_
    · rintro e q ⟨-, t, hresult, -⟩
      cases hresult
    rintro t q ⟨rfl, _, hresult, hstill⟩
    cases hresult
    split
    · exact releaseThen_obeys rfl rfl fun q' hq' => hq'
    · rename_i hne
      -- what is still missing are distinct records of the request
      have hsublist : (t.missing.map (·.2)).Sublist records := by
        rw [← map_snd_positions records]
        exact (hstill.trans (hmissing.trans hfirst)).map _
      exact loadMissing_obeys hne (hrecords.sublist hsublist)
        (hguards t (hstill.trans hmissing))

/-- **Discipline of a batch read.**  Whatever Redis, the gates and PostgreSQL reply to a read of
distinct records, and wherever the read is cut off: it takes its guards in ascending order, takes
leases for records that it guards, asks PostgreSQL at most once, with the permit of the circuit
breaker and for guarded records, settles the permit by the outcome of the query, and writes to the
cache only rows that PostgreSQL answered, and absences of records of which it answered no row,
before it gives any lease back.  A read that ends has settled its permit and given back every
lease that it did not leave to expire. -/
theorem load_cached_multi_disciplined (codec : SnapshotCodec) (records : List RecordKey)
    (hrecords : records.Nodup) :
    (∀ calls c, Waits (loadCachedMulti codec records).run calls c →
      ∃ q, follow readProtocol {} calls = some q ∧ q.allows c = true) ∧
    ∀ calls result, Runs (loadCachedMulti codec records).run calls result →
      ∃ q, follow readProtocol {} calls = some q ∧ q.permit = false ∧ q.leases = [] := by
  have hobeys := loadCachedMulti_obeys codec hrecords
  exact ⟨fun calls c hwaits => hobeys.of_waits hwaits,
    fun calls result hruns => hobeys.of_runs hruns⟩

def leasedLock : CacheFallbackLock := ⟨fallbackLockKey ⟨"player", "1"⟩, "dbproxy-1-5-0"⟩

/-- Neither record is cached and PostgreSQL has one of them.  The read gets a lease on the first
record and learns on the way that the second one was found to be absent, which no longer holds. -/
def leasedCalls : ReadTrace :=
  [⟨.mget (lookupKeys halfCachedRecords), .ok [none, none, none, none, none, none]⟩,
    ⟨.acquireFallback, .ok ()⟩, ⟨.acquireKey ⟨"player", "1"⟩, ()⟩,
    ⟨.acquireKey ⟨"player", "2"⟩, ()⟩,
    ⟨.mget (lookupKeys halfCachedRecords), .ok [none, none, none, none, none, none]⟩,
    ⟨.lockWaitLeft, true⟩,
    ⟨.acquireFallbackLock ⟨"player", "1"⟩, .acquired leasedLock⟩,
    ⟨.lockWaitLeft, true⟩, ⟨.acquireFallbackLock ⟨"player", "2"⟩, .negativeFilled⟩,
    ⟨.mget (lookupKeys halfCachedRecords), .ok [none, none, none, none, none, none]⟩,
    ⟨.allowFallback, .ok ()⟩,
    ⟨.query ["player", "player"] ["1", "2"], .ok [⟨"player", "2", "profile", 1, 4, [9], 6⟩]⟩,
    ⟨.fallbackSucceeded, ()⟩]

/-- The rest of the read. -/
def leasedEnd : ReadTrace :=
  [⟨.putNegativeCache ⟨"player", "1"⟩, .ok ()⟩, ⟨.putCache halfCachedSnapshot, .ok ()⟩,
    ⟨.releaseFallbackLock leasedLock, ()⟩]

theorem load_cached_multi_disciplined_leased :
    Waits (loadCachedMulti smallSnapshotCodec halfCachedRecords).run leasedCalls
        (.putNegativeCache ⟨"player", "1"⟩) ∧
      (∃ q, follow readProtocol {} leasedCalls = some q ∧
        q.allows (.putNegativeCache ⟨"player", "1"⟩) = true) ∧
      Runs (loadCachedMulti smallSnapshotCodec halfCachedRecords).run (leasedCalls ++ leasedEnd)
        (.ok [none, some halfCachedSnapshot]) ∧
      ∃ q, follow readProtocol {} (leasedCalls ++ leasedEnd) = some q ∧ q.permit = false ∧
        q.leases = [] := by
  have hrecords : halfCachedRecords.Nodup := by decide
  have hwaits : Waits (loadCachedMulti smallSnapshotCodec halfCachedRecords).run leasedCalls
      (.putNegativeCache ⟨"player", "1"⟩) := by
    iterate 13 refine Or.inr ⟨_, _, rfl, ?_⟩
    exact Or.inl ⟨rfl, rfl⟩
  have hruns : Runs (loadCachedMulti smallSnapshotCodec halfCachedRecords).run
      (leasedCalls ++ leasedEnd) (.ok [none, some halfCachedSnapshot]) := by
    iterate 16 refine ⟨_, _, rfl, ?_⟩
    exact ⟨rfl, rfl⟩
  obtain ⟨hallowed, hended⟩ :=
    load_cached_multi_disciplined smallSnapshotCodec halfCachedRecords hrecords
  exact ⟨hwaits, hallowed _ _ hwaits, hruns, hended _ _ hruns⟩

end DbProxy
