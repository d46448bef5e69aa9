/-
The representation invariant of the Redis backlog.

`SystemInv` holds in every state that an interleaving of the scripts reaches
(`run_systemInv`), and `backlog_representation` draws the consequences: no
entry gets lost, leases match the processing set, lease ids are unique, and an
entry goes only with the lease and the bytes it was claimed with.

Fence sequences are Lua doubles: from `2 ^ 53` on the increment is lost, two
enqueues of one snapshot store equal bytes, and the acknowledgement of the
first deletes the second (`ack_removes_later_entry`).
-/
import DbProxy.BacklogInvariant
import DbProxy.SmallBincode

namespace DbProxy

open LuaNumber RedisSnapshotBacklog StepMachine

/-! ### Every reachable state -/

structure SystemInv (s : BacklogSystem) : Prop where
  inv : BacklogInv s.redis s.log s.issued
  increasing : s.redis.fenceSequence < 2 ^ 53 → Increasing s.redis.fenceSequence s.log

theorem SystemInv.tidy {s : BacklogSystem} {b : Backlog} (h : SystemInv s)
    (ht : Tidies s.redis b) : SystemInv { s with redis := b } where
  inv := h.inv.tidy ht
  increasing := by
    dsimp only
    rw [ht.shrinks.fenceSequence]
    exact h.increasing

theorem SystemInv.claimed {s : BacklogSystem} {deadline claimLimit rounds now : ℕ}
    (h : SystemInv s) : SystemInv (s.claimed
      ((s.redis.reclaimExpired now).claimMultiLoop deadline claimLimit rounds [])) := by
  obtain ⟨new, hnew, hinv⟩ := @claimMultiLoop_inv deadline claimLimit s.log rounds [] _ _
    (h.inv.tidy (reclaimExpired_tidies now s.redis))
  have hsame := (reclaimExpired_sameEntries now s.redis).trans
    (claimMultiLoop_sameEntries deadline claimLimit rounds [] _)
  refine ⟨?_, ?_⟩
  · rw [BacklogSystem.claimed, hnew]
    exact hinv
  · have hfence : (s.claimed ((s.redis.reclaimExpired now).claimMultiLoop deadline claimLimit
        rounds [])).redis.fenceSequence = s.redis.fenceSequence := hsame.2
    rw [hfence]
    exact h.increasing

variable {encode : SnapshotWrite → Bytes}

theorem step_systemInv (s : BacklogSystem) (e : BacklogEvent) (s' : BacklogSystem)
    (h : SystemInv s) (hstep : s.step encode e = some s') : SystemInv s' := by
  cases e with
  | enqueue clock score requests =>
    rw [BacklogSystem.step] at hstep
    split at hstep
    · exact absurd hstep (by simp)
    · rename_i entries hentries
      rw [Option.some_inj] at hstep
      subst hstep
      refine ⟨enqueueLoop_inv (mapM_prepare_keys hentries) h.inv, fun hfence => ?_⟩
      have hle := enqueueLoop_fence_le hfence
      exact logEntries_increasing (h.increasing (lt_of_le_of_lt hle hfence)) hfence
  | claim clock leaseMs =>
    simp only [BacklogSystem.step, Option.ite_none_right_eq_some, Option.some.injEq] at hstep
    obtain ⟨-, rfl⟩ := hstep
    rw [Backlog.claimScript, ← claimLoop_eq]
    exact h.claimed
  | claimMulti clock leaseMs maxItems =>
    simp only [BacklogSystem.step, Option.ite_none_right_eq_some, Option.some.injEq] at hstep
    obtain ⟨-, rfl⟩ := hstep
    exact h.claimed
  | ack now lease =>
    simp only [BacklogSystem.step, Option.ite_none_right_eq_some, Option.some.injEq] at hstep
    obtain ⟨-, rfl⟩ := hstep
    exact h.tidy (ackScript_tidies ..)
  | ackMulti now leases =>
    simp only [BacklogSystem.step, Option.ite_none_right_eq_some, Option.some.injEq] at hstep
    obtain ⟨-, rfl⟩ := hstep
    exact h.tidy (ackMultiScript_tidies ..)
  | release now lease =>
    simp only [BacklogSystem.step, Option.ite_none_right_eq_some, Option.some.injEq] at hstep
    obtain ⟨-, rfl⟩ := hstep
    exact h.tidy (releaseScript_tidies ..)
  | releaseMulti now leases =>
    simp only [BacklogSystem.step, Option.ite_none_right_eq_some, Option.some.injEq] at hstep
    obtain ⟨-, rfl⟩ := hstep
    exact h.tidy (releaseMultiScript_tidies ..)
  | renew clock leaseMs lease =>
    simp only [BacklogSystem.step, Option.ite_none_right_eq_some, Option.some.injEq] at hstep
    obtain ⟨-, rfl⟩ := hstep
    exact h.tidy (renewScript_tidies ..)

theorem init_systemInv : SystemInv {} where
  inv := by
    refine ⟨⟨?_, ?_⟩, ?_, rfl, ?_, ?_⟩ <;> simp
  increasing _ := ⟨List.Pairwise.nil, by simp⟩

theorem run_systemInv {trace : List BacklogEvent} {s : BacklogSystem}
    (h : run (BacklogSystem.step encode) {} trace = some s) : SystemInv s :=
  run_invariant step_systemInv init_systemInv h

/-- An entry disappears only through an acknowledgement with the recorded lease and
the stored bytes. -/
theorem step_removes {s s' : BacklogSystem} {e : BacklogEvent}
    (hstep : s.step encode e = some s') {m : String} {bytes : Bytes}
    (hbefore : s.redis.entries (entryKey m) = some bytes)
    (hafter : s'.redis.entries (entryKey m) = none) :
    ∃ lease ∈ e.acknowledged, lease.member = m ∧ s.redis.leases m = some lease.leaseId ∧
      lease.encoded = bytes := by
  have hkeep : ∀ {b : Backlog}, b.entries = s.redis.entries → s'.redis = b → False := by
    intro b hb hs'
    rw [hs', hb, hbefore] at hafter
    exact absurd hafter (by simp)
  cases e with
  | enqueue clock score requests =>
    rw [BacklogSystem.step] at hstep
    split at hstep
    · exact absurd hstep (by simp)
    · rename_i entries hentries
      rw [Option.some_inj] at hstep
      subst hstep
      have hsome : ((s.redis.enqueueBatchScript clock score entries).2.entries (entryKey m)).isSome :=
        enqueueLoop_isSome (by rw [hbefore]; rfl)
      rw [hafter] at hsome
      exact absurd hsome (by simp)
  | claim clock leaseMs =>
    simp only [BacklogSystem.step, Option.ite_none_right_eq_some, Option.some.injEq] at hstep
    obtain ⟨-, rfl⟩ := hstep
    rw [Backlog.claimScript, ← claimLoop_eq] at hkeep
    exact (hkeep ((reclaimExpired_sameEntries _ _).trans
      (claimMultiLoop_sameEntries _ _ _ _ _)).1 rfl).elim
  | claimMulti clock leaseMs maxItems =>
    simp only [BacklogSystem.step, Option.ite_none_right_eq_some, Option.some.injEq] at hstep
    obtain ⟨-, rfl⟩ := hstep
    exact (hkeep ((reclaimExpired_sameEntries _ _).trans
      (claimMultiLoop_sameEntries _ _ _ _ _)).1 rfl).elim
  | ack now lease =>
    simp only [BacklogSystem.step, Option.ite_none_right_eq_some, Option.some.injEq] at hstep
    obtain ⟨-, rfl⟩ := hstep
    exact ⟨lease, List.mem_singleton_self _, ackScript_removes hbefore hafter⟩
  | ackMulti now leases =>
    simp only [BacklogSystem.step, Option.ite_none_right_eq_some, Option.some.injEq] at hstep
    obtain ⟨-, rfl⟩ := hstep
    exact ackMultiScript_removes hbefore hafter
  | release now lease =>
    simp only [BacklogSystem.step, Option.ite_none_right_eq_some, Option.some.injEq] at hstep
    obtain ⟨-, rfl⟩ := hstep
    exact (hkeep (releaseScript_entries now lease s.redis) rfl).elim
  | releaseMulti now leases =>
    simp only [BacklogSystem.step, Option.ite_none_right_eq_some, Option.some.injEq] at hstep
    obtain ⟨-, rfl⟩ := hstep
    exact (hkeep (releaseMultiScript_entries now leases s.redis) rfl).elim
  | renew clock leaseMs lease =>
    simp only [BacklogSystem.step, Option.ite_none_right_eq_some, Option.some.injEq] at hstep
    obtain ⟨-, rfl⟩ := hstep
    exact (hkeep (renewScript_entries clock leaseMs lease s.redis) rfl).elim

/-- Lease ids are numbered, so below `10 ^ 14` two tuples with one id are the same. -/
theorem issued_inj {b : Backlog} {log : List LoggedEntry} {issued : List (ClaimedEntry × ℕ)}
    (h : BacklogInv b log issued) (hsmall : b.leaseSequence < 10 ^ 14) :
    (issued.map (·.1.leaseId)).Nodup := by
  rw [h.numbered]
  refine List.Nodup.map_on ?_ List.nodup_range
  intro x hx y hy hxy
  rw [List.mem_range] at hx hy
  rw [leaseText, leaseText, toDouble_of_le (by omega), toDouble_of_le (by omega)] at hxy
  have := tostring_injective (by omega) (by omega) hxy
  omega

/-- Entries of a log whose sequences increase are determined by their sequence: if
the newest entry up to `n` has the sequence of the newest entry, none came later. -/
theorem no_later_entry {log : List LoggedEntry} {m : String} {n : ℕ} {e e' : LoggedEntry}
    (hinc : (log.map (·.sequence)).Pairwise (· < ·)) (hlast : lastLogged m log = some e)
    (htake : lastLogged m (log.take n) = some e') (hseq : e'.sequence = e.sequence) :
    ∀ x ∈ log.drop n, x.member ≠ m := by
  intro x hx hm
  have hsplit : log = log.take n ++ log.drop n := (List.take_append_drop n log).symm
  rw [hsplit, lastLogged, List.filter_append] at hlast
  have hin : x ∈ (log.drop n).filter (·.member = m) := List.mem_filter.mpr ⟨hx, by simp [hm]⟩
  rw [List.getLast?_append_of_ne_nil _ (List.ne_nil_of_mem hin)] at hlast
  -- the newest entry lies behind `n`, so its sequence is larger
  have hdrop : e ∈ log.drop n := (List.mem_filter.mp (List.mem_of_getLast? hlast)).1
  have htaken : e' ∈ log.take n := (mem_of_lastLogged htake).1
  rw [hsplit, List.map_append, List.pairwise_append] at hinc
  have hlt := hinc.2.2 _ (List.mem_map.mpr ⟨e', htaken, rfl⟩) _ (List.mem_map.mpr ⟨e, hdrop, rfl⟩)
  omega

/-- **The representation invariant**, in every state that any interleaving reaches. -/
theorem backlog_representation (trace : List BacklogEvent) (s : BacklogSystem)
    (hrun : run (BacklogSystem.step encode) {} trace = some s) :
    (∀ m, (s.redis.entries (entryKey m)).isSome → m ∈ s.redis.pending ∨ m ∈ s.redis.processing) ∧
    (∀ m, (s.redis.leases m).isSome ↔ m ∈ s.redis.processing) ∧
    (s.redis.leaseSequence < 10 ^ 14 →
      (∀ m m' id, s.redis.leases m = some id → s.redis.leases m' = some id → m = m') ∧
      (s.issued.map (·.1.leaseId)).Nodup) ∧
    (∀ e s', s.step encode e = some s' → ∀ m bytes, s.redis.entries (entryKey m) = some bytes →
      s'.redis.entries (entryKey m) = none →
      ∃ lease ∈ e.acknowledged, lease.member = m ∧ s.redis.leases m = some lease.leaseId ∧
        lease.encoded = bytes ∧
        (s.redis.fenceSequence < 2 ^ 53 →
          ∀ n, (lease, n) ∈ s.issued → ∀ x ∈ s.log.drop n, x.member ≠ m)) := by
  have hsys := run_systemInv hrun
  refine ⟨hsys.inv.consistent.queued, hsys.inv.consistent.leased, fun hsmall => ?_, ?_⟩
  · have hnodup := issued_inj hsys.inv hsmall
    refine ⟨fun m m' id hm hm' => ?_, hnodup⟩
    obtain ⟨c, n, hc, hcm, hcid⟩ := hsys.inv.current m id hm
    obtain ⟨c', n', hc', hcm', hcid'⟩ := hsys.inv.current m' id hm'
    have heq : (c, n) = (c', n') :=
      List.inj_on_of_nodup_map hnodup hc hc' (hcid.trans hcid'.symm)
    rw [← hcm, ← hcm', (Prod.mk.inj heq).1]
  · intro e s' hstep m bytes hbefore hafter
    obtain ⟨lease, hin, hm, hlease, hencoded⟩ := step_removes hstep hbefore hafter
    refine ⟨lease, hin, hm, hlease, hencoded, fun hfence n hissued => ?_⟩
    obtain ⟨e₁, hlast, hbytes⟩ := hsys.inv.stored m bytes hbefore
    obtain ⟨-, e₂, htake, hframe⟩ := hsys.inv.claimed lease n hissued
    rw [hm] at htake
    have hseq : e₂.frame = e₁.frame := by rw [← hframe, hencoded, hbytes]
    exact no_later_entry (hsys.increasing hfence).1 hlast htake (sequencedEntry_injective hseq).1

/-! ### At the end of the exact integers -/

def sampleQueued : SnapshotWrite :=
  ⟨"r-1", ⟨"player", "1"⟩, "profile", 1, [7], none, 5⟩

/-- The Redis clock at `2 ^ 53` microseconds. -/
def lastExactClock : RedisClock := ⟨9007199254, 740992, by decide⟩

/-- The tuple that the first claim of `retryTrace` returns. -/
def sampleClaim : ClaimedEntry :=
  ⟨"6:player:1:1", "1", sequencedEntry (2 ^ 53) (smallBincode sampleQueued)⟩

/-- A save is queued and claimed, and its retry is queued before the acknowledgement. -/
def retryTrace (clock : RedisClock) : List BacklogEvent :=
  [.enqueue clock 0 [sampleQueued], .claim clock 1000, .enqueue clock 0 [sampleQueued]]

/-- At a clock of `2 ^ 53` microseconds the retry stores the very bytes that were
claimed, and the acknowledgement of the claim removes it. -/
theorem ack_removes_later_entry :
    ∃ s s' : BacklogSystem,
      run (BacklogSystem.step smallBincode) {} (retryTrace lastExactClock) = some s ∧
      s.step smallBincode (.ack 0 sampleClaim) = some s' ∧
      (sampleClaim, 1) ∈ s.issued ∧ (∃ x ∈ s.log.drop 1, x.member = sampleClaim.member) ∧
      s.redis.entries (entryKey sampleClaim.member) = some sampleClaim.encoded ∧
      s'.redis.entries (entryKey sampleClaim.member) = none := by
  have hreach : ∃ s, run (BacklogSystem.step smallBincode) {} (retryTrace lastExactClock) = some s ∧
      (sampleClaim, 1) ∈ s.issued ∧ (∃ x ∈ s.log.drop 1, x.member = sampleClaim.member) ∧
      s.redis.entries (entryKey sampleClaim.member) = some sampleClaim.encoded ∧
      (s.step smallBincode (.ack 0 sampleClaim)).map
        (fun s' => s'.redis.entries (entryKey sampleClaim.member)) = some none :=
    exists_of_any (by decide +kernel)
  obtain ⟨s, hs, hissued, hlater, hentry, hack⟩ := hreach
  obtain ⟨s', hs', hgone⟩ := Option.map_eq_some_iff.mp hack
  exact ⟨s, s', hs, hs', hissued, hlater, hentry, hgone⟩

/-- At an ordinary clock the retry survives the acknowledgement of the first claim: it is
still stored and still queued. -/
theorem backlog_representation_sample :
    ∃ s s' : BacklogSystem,
      run (BacklogSystem.step smallBincode) {} (retryTrace ⟨1, 0, by decide⟩) = some s ∧
      s.step smallBincode (.ack 0 ⟨"6:player:1:1", "1",
        sequencedEntry 1000000 (smallBincode sampleQueued)⟩) = some s' ∧
      s'.redis.entries (entryKey "6:player:1:1") ≠ none ∧
      ("6:player:1:1" ∈ s'.redis.pending ∨ "6:player:1:1" ∈ s'.redis.processing) := by
  have hreach : ∃ s, run (BacklogSystem.step smallBincode) {} (retryTrace ⟨1, 0, by decide⟩) =
        some s ∧ s.redis.fenceSequence < 2 ^ 53 ∧
      (⟨"6:player:1:1", "1", sequencedEntry 1000000 (smallBincode sampleQueued)⟩, 1) ∈ s.issued ∧
      (∃ x ∈ s.log.drop 1, x.member = "6:player:1:1") ∧
      s.redis.entries (entryKey "6:player:1:1") ≠ none ∧
      (s.step smallBincode (.ack 0 ⟨"6:player:1:1", "1",
        sequencedEntry 1000000 (smallBincode sampleQueued)⟩)).isSome = true :=
    exists_of_any (by decide +kernel)
  obtain ⟨s, hs, hfence, hissued, ⟨x, hx, hm⟩, hentry, hack⟩ := hreach
  obtain ⟨s', hs'⟩ := Option.isSome_iff_exists.mp hack
  obtain ⟨bytes, hbytes⟩ := Option.ne_none_iff_exists'.mp hentry
  have hkept : s'.redis.entries (entryKey "6:player:1:1") ≠ none := by
    intro hgone
    obtain ⟨lease, hin, -, -, -, hnone⟩ :=
      (backlog_representation _ s hs).2.2.2 _ s' hs' _ bytes hbytes hgone
    rw [List.mem_singleton.mp hin] at hnone
    exact hnone hfence 1 hissued x hx hm
  have hrun' : run (BacklogSystem.step smallBincode) {} (retryTrace ⟨1, 0, by decide⟩ ++
      [.ack 0 ⟨"6:player:1:1", "1", sequencedEntry 1000000 (smallBincode sampleQueued)⟩])
      = some s' := run_concat.mpr ⟨s, hs, hs'⟩
  exact ⟨s, s', hs, hs', hkept,
    (backlog_representation _ s' hrun').1 _ (Option.isSome_iff_ne_none.mpr hkept)⟩

end DbProxy
