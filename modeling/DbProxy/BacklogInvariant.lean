/-
The invariant of the Redis backlog, with its ghosts.

`BacklogInv` explains leases and entries by the ghosts of `BacklogSystem`: a
recorded lease belongs to an issued tuple, an entry holds the bytes of the
newest enqueue of its member, and a tuple those of the newest enqueue when it
was issued.  Every script keeps it:

* `BacklogInv.tidy` — scripts that only tidy;
* `claimMultiLoop_inv` — the claim loops, which issue tuples;
* `enqueueLoop_inv` — the enqueue loop, which extends the log;
* `logEntries_increasing` — the sequences of the log increase as long as they
  stay below `2 ^ 53`.
-/
import DbProxy.BacklogSystem

namespace DbProxy

open LuaNumber RedisSnapshotBacklog StepMachine

/-! ### The log -/

/-- The newest log entry of a member. -/
def lastLogged (member : String) (log : List LoggedEntry) : Option LoggedEntry :=
  (log.filter (·.member = member)).getLast?

theorem lastLogged_append_self (member : String) (log : List LoggedEntry) (e : LoggedEntry)
    (h : e.member = member) : lastLogged member (log ++ [e]) = some e := by
  rw [lastLogged, List.filter_append, List.filter_cons_of_pos (by simp [h]), List.filter_nil,
    List.getLast?_concat]

theorem lastLogged_append_other (member : String) (log : List LoggedEntry) (e : LoggedEntry)
    (h : e.member ≠ member) : lastLogged member (log ++ [e]) = lastLogged member log := by
  rw [lastLogged, List.filter_append, List.filter_cons_of_neg (by simp [h]), List.filter_nil,
    List.append_nil, lastLogged]

theorem lastLogged_append_of_ne {m : String} {log new : List LoggedEntry}
    (h : ∀ e ∈ new, e.member ≠ m) : lastLogged m (log ++ new) = lastLogged m log := by
  have hnone : new.filter (·.member = m) = [] := by
    rw [List.filter_eq_nil_iff]
    intro e he
    simpa using h e he
  rw [lastLogged, List.filter_append, hnone, List.append_nil, lastLogged]

theorem mem_of_lastLogged {member : String} {log : List LoggedEntry} {e : LoggedEntry}
    (h : lastLogged member log = some e) : e ∈ log ∧ e.member = member := by
  have hmem := List.mem_of_getLast? h
  rw [List.mem_filter, decide_eq_true_eq] at hmem
  exact hmem

/-! ### The invariant with its ghosts -/

/-- The id of the `k`-th lease, counted from zero. -/
def leaseText (k : ℕ) : String := tostring (toDouble (k + 1))

structure BacklogInv (b : Backlog) (log : List LoggedEntry) (issued : List (ClaimedEntry × ℕ)) :
    Prop where
  consistent : Consistent b
  /-- a recorded lease is that of an issued tuple -/
  current : ∀ m id, b.leases m = some id → ∃ c n, (c, n) ∈ issued ∧ c.member = m ∧ c.leaseId = id
  numbered : issued.map (·.1.leaseId) = (List.range b.leaseSequence).map leaseText
  /-- an entry holds the bytes of the member's newest enqueue -/
  stored : ∀ m bytes, b.entries (entryKey m) = some bytes →
    ∃ e, lastLogged m log = some e ∧ bytes = e.frame
  /-- a tuple holds the bytes of the newest enqueue when it was issued -/
  claimed : ∀ c n, (c, n) ∈ issued → n ≤ log.length ∧
    ∃ e, lastLogged c.member (log.take n) = some e ∧ c.encoded = e.frame

theorem BacklogInv.tidy {b b' : Backlog} {log : List LoggedEntry}
    {issued : List (ClaimedEntry × ℕ)} (h : BacklogInv b log issued) (ht : Tidies b b') :
    BacklogInv b' log issued where
  consistent := ht.consistent h.consistent
  current m id hm := h.current m id (ht.shrinks.leases m id hm)
  numbered := by rw [ht.shrinks.leaseSequence, h.numbered]
  stored m bytes hm := h.stored m bytes (ht.shrinks.entries _ _ hm)
  claimed := h.claimed

/-- A round of a claim loop that leases nothing only drops a member from `pending`. -/
theorem claimNext_skip {deadline : ℕ} {b b' : Backlog}
    (h : b.claimNext deadline = some (none, b')) : Tidies b b' := by
  rw [Backlog.claimNext] at h
  split at h
  · exact absurd h (by simp)
  · rename_i member pending hpop
    obtain ⟨-, hrest⟩ := SortedSet.zpopmin_eq_some hpop
    have hkeep : ∀ {x : Option ClaimedEntry}, (some (none, { b with pending }) :
        Option (Option ClaimedEntry × Backlog)) = some (x, b') →
        ((b.entries (entryKey member)).isSome → member ∈ b.processing) → Tidies b b' := by
      intro x hx hdrop
      simp only [Option.some.injEq, Prod.mk.injEq] at hx
      obtain ⟨-, rfl⟩ := hx
      refine ⟨⟨fun _ _ h => h, fun _ _ h => h, rfl, rfl⟩, fun hc => ⟨fun m hm => ?_, hc.leased⟩⟩
      by_cases heq : m = member
      · exact Or.inr (heq ▸ hdrop (heq ▸ hm))
      · exact (hc.queued m hm).imp_left fun hp => (hrest m).mpr ⟨hp, heq⟩
    dsimp only at h
    split at h
    · rename_i hnone
      exact hkeep h fun hsome => absurd hsome (by simp [hnone])
    · split at h
      · rename_i hprocessing
        exact hkeep h fun _ => SortedSet.zscore_isSome.mp hprocessing
      · exact absurd h (by simp)

/-- A round that leases a member issues the next lease id with the stored bytes. -/
theorem claimNext_lease {deadline : ℕ} {b b' : Backlog} {c : ClaimedEntry}
    (h : b.claimNext deadline = some (some c, b')) :
    b.entries (entryKey c.member) = some c.encoded ∧ c.member ∉ b.processing ∧
      c.leaseId = leaseText b.leaseSequence ∧ b'.entries = b.entries ∧
      (∀ m, m ∈ b'.pending ↔ m ∈ b.pending ∧ m ≠ c.member) ∧
      (∀ m, m ∈ b'.processing ↔ m = c.member ∨ m ∈ b.processing) ∧
      b'.leases = Function.update b.leases c.member (some c.leaseId) ∧
      b'.leaseSequence = b.leaseSequence + 1 ∧ b'.fenceSequence = b.fenceSequence := by
  rw [Backlog.claimNext] at h
  split at h
  · exact absurd h (by simp)
  · rename_i member pending hpop
    obtain ⟨-, hrest⟩ := SortedSet.zpopmin_eq_some hpop
    dsimp only at h
    split at h
    · exact absurd h (by simp)
    · rename_i payload hpayload
      split at h
      · exact absurd h (by simp)
      · rename_i hfree
        simp only [Option.some.injEq, Prod.mk.injEq] at h
        obtain ⟨rfl, rfl⟩ := h
        refine ⟨hpayload, fun hin => hfree (SortedSet.zscore_isSome.mpr hin), rfl, rfl, hrest, ?_,
          rfl, rfl, rfl⟩
        intro m
        exact SortedSet.mem_zadd

theorem claimNext_lease_inv {deadline : ℕ} {b b' : Backlog} {c : ClaimedEntry}
    {log : List LoggedEntry} {issued : List (ClaimedEntry × ℕ)}
    (hc : b.claimNext deadline = some (some c, b')) (h : BacklogInv b log issued) :
    BacklogInv b' log (issued ++ [(c, log.length)]) := by
  obtain ⟨hentry, hfree, hid, hentries, hpending, hprocessing, hleases, hseq, -⟩ :=
    claimNext_lease hc
  refine ⟨⟨fun m hm => ?_, fun m => ?_⟩, fun m id hm => ?_, ?_, fun m bytes hm => ?_, ?_⟩
  · rw [hentries] at hm
    rw [hpending, hprocessing]
    by_cases heq : m = c.member
    · exact Or.inr (Or.inl heq)
    · exact (h.consistent.queued m hm).imp (fun hp => ⟨hp, heq⟩) Or.inr
  · rw [hprocessing, hleases]
    by_cases heq : m = c.member
    · simp [heq]
    · rw [Function.update_of_ne heq, h.consistent.leased m]
      simp [heq]
  · rw [hleases] at hm
    by_cases heq : m = c.member
    · rw [heq, Function.update_self, Option.some_inj] at hm
      exact ⟨c, log.length, List.mem_append_right _ (List.mem_singleton_self _), heq.symm, hm⟩
    · rw [Function.update_of_ne heq] at hm
      obtain ⟨c', n, hin, hrest⟩ := h.current m id hm
      exact ⟨c', n, List.mem_append_left _ hin, hrest⟩
  · rw [List.map_append, h.numbered, hseq, List.range_succ, List.map_append, List.map_singleton,
      List.map_singleton, hid]
  · rw [hentries] at hm
    exact h.stored m bytes hm
  · intro c' n hin
    rcases List.mem_append.mp hin with hin | hin
    · exact h.claimed c' n hin
    · -- the new tuple carries the entry, which is the newest enqueue
      obtain ⟨rfl, rfl⟩ := Prod.mk.inj (List.mem_singleton.mp hin)
      rw [List.take_length]
      exact ⟨le_refl _, h.stored _ _ hentry⟩

theorem claimMultiLoop_inv {deadline claimLimit : ℕ} {log : List LoggedEntry} :
    ∀ {rounds : ℕ} {claimed : List ClaimedEntry} {b : Backlog}
      {issued : List (ClaimedEntry × ℕ)}, BacklogInv b log issued →
      ∃ new, (b.claimMultiLoop deadline claimLimit rounds claimed).1 = claimed ++ new ∧
        BacklogInv (b.claimMultiLoop deadline claimLimit rounds claimed).2 log
          (issued ++ new.map fun c => (c, log.length)) := by
  intro rounds
  induction rounds with
  | zero =>
    intro claimed b issued h
    exact ⟨[], (List.append_nil _).symm, by simpa [Backlog.claimMultiLoop] using h⟩
  | succ rounds ih =>
    intro claimed b issued h
    rw [Backlog.claimMultiLoop]
    split
    · exact ⟨[], (List.append_nil _).symm, by simpa using h⟩
    · split
      · exact ⟨[], (List.append_nil _).symm, by simpa using h⟩
      · rename_i c b' hnext
        obtain ⟨new, hclaimed, hinv⟩ := @ih (claimed ++ [c]) _ _ (claimNext_lease_inv hnext h)
        refine ⟨c :: new, by rw [hclaimed, List.append_assoc]; rfl, ?_⟩
        rw [List.map_cons, List.append_cons issued]
        exact hinv
      · rename_i b' hnext
        exact ih (h.tidy (claimNext_skip hnext))

/-- `CLAIM_SCRIPT` is the batch loop with a limit of one. -/
theorem claimLoop_eq (deadline : ℕ) : ∀ (rounds : ℕ) (b : Backlog),
    b.claimMultiLoop deadline 1 rounds [] =
      ((b.claimLoop deadline rounds).1.toList, (b.claimLoop deadline rounds).2) := by
  intro rounds
  induction rounds with
  | zero => intro b; rfl
  | succ rounds ih =>
    intro b
    rw [Backlog.claimMultiLoop, Backlog.claimLoop, if_neg (by simp)]
    cases hnext : b.claimNext deadline with
    | none => rfl
    | some r =>
      rcases r with ⟨_ | c, b'⟩
      · exact ih b'
      · cases rounds with
        | zero => rfl
        | succ rounds => rfl

/-! ### Enqueues -/

theorem enqueue_one_inv {b : Backlog} {log : List LoggedEntry}
    {issued : List (ClaimedEntry × ℕ)} {score sequence : ℕ} {entry : EnqueueEntry}
    (hkey : entry.entryKey = entryKey entry.member) (h : BacklogInv b log issued) :
    BacklogInv { b with
        entries := Function.update b.entries entry.entryKey
          (some (sequencedEntry sequence entry.encoded))
        pending := b.pending.zadd (toDouble score) entry.member }
      (log ++ [⟨entry.member, sequence, entry.encoded⟩]) issued := by
  refine ⟨⟨fun m hm => ?_, h.consistent.leased⟩, h.current, h.numbered, fun m bytes hm => ?_,
    fun c n hin => ?_⟩
  · by_cases heq : m = entry.member
    · exact Or.inl (SortedSet.mem_zadd.mpr (Or.inl heq))
    · have hm' : (b.entries (entryKey m)).isSome := by
        dsimp only at hm
        rwa [hkey, Function.update_of_ne (by simpa using heq)] at hm
      exact (h.consistent.queued m hm').imp_left fun hp => SortedSet.mem_zadd.mpr (Or.inr hp)
  · by_cases heq : m = entry.member
    · subst heq
      dsimp only at hm
      rw [hkey, Function.update_self, Option.some_inj] at hm
      exact ⟨_, lastLogged_append_self _ _ _ rfl, hm.symm⟩
    · dsimp only at hm
      rw [hkey, Function.update_of_ne (by simpa using heq)] at hm
      rw [lastLogged_append_other _ _ _ (Ne.symm heq)]
      exact h.stored m bytes hm
  · obtain ⟨hle, hlast⟩ := h.claimed c n hin
    rw [List.take_append_of_le_length hle, List.length_append]
    exact ⟨by omega, hlast⟩

theorem enqueueLoop_inv {score now : ℕ} {issued : List (ClaimedEntry × ℕ)} :
    ∀ {entries : List EnqueueEntry} {sequence : ℕ} {b : Backlog} {log : List LoggedEntry},
      (∀ entry ∈ entries, entry.entryKey = entryKey entry.member) →
      BacklogInv b log issued →
      BacklogInv (b.enqueueLoop score now sequence entries)
        (log ++ logEntries now sequence entries) issued
  | [], sequence, b, log, _, h => by
    rw [logEntries, List.append_nil]
    exact ⟨⟨h.consistent.queued, h.consistent.leased⟩, h.current, h.numbered, h.stored, h.claimed⟩
  | entry :: rest, sequence, b, log, hkeys, h => by
    rw [logEntries, Backlog.enqueueLoop, List.append_cons]
    exact enqueueLoop_inv (fun e he => hkeys e (List.mem_cons_of_mem _ he))
      (enqueue_one_inv (hkeys entry (List.mem_cons_self ..)) h)

theorem prepare_ok {encode : SnapshotWrite → Bytes} {request : SnapshotWrite}
    {entry : EnqueueEntry} (h : prepare encode request = .ok entry) :
    validate request = .ok () ∧
      entry = ⟨entryKey (member request.record), encode request, member request.record⟩ := by
  obtain ⟨_, hvalid, h⟩ := Checks.bind_eq_ok.mp h
  exact ⟨hvalid, (Except.ok.inj h).symm⟩

theorem mapM_prepare_keys {encode : SnapshotWrite → Bytes} {requests : List SnapshotWrite}
    {entries : List EnqueueEntry} (h : requests.mapM (prepare encode) = .ok entries) :
    ∀ entry ∈ entries, entry.entryKey = entryKey entry.member := by
  have hall := Checks.mapM_eq_ok.mp h
  clear h
  induction hall with
  | nil => simp
  | cons hhead _ ih =>
    intro entry hentry
    rcases List.mem_cons.mp hentry with rfl | hentry
    · rw [(prepare_ok hhead).2]
    · exact ih entry hentry

/-! ### Sequences -/

/-- The log in order of sequences, the last of which is `sequence` at most. -/
def Increasing (sequence : ℕ) (log : List LoggedEntry) : Prop :=
  (log.map (·.sequence)).Pairwise (· < ·) ∧ ∀ e ∈ log, e.sequence ≤ sequence

theorem nextSequence_lt {now sequence : ℕ} (h : nextSequence now sequence < 2 ^ 53) :
    sequence < nextSequence now sequence := by
  rw [nextSequence] at h ⊢
  split at h
  · rename_i hnow
    rwa [if_pos hnow]
  · rename_i hnow
    rw [if_neg hnow]
    have hsmall : sequence + 1 < 2 ^ 53 := by
      by_contra hbig
      exact absurd (le_toDouble (not_lt.mp hbig)) (not_le.mpr h)
    rw [add, toDouble_of_le (le_of_lt hsmall)]
    omega

theorem enqueueLoop_fence_le {score now : ℕ} :
    ∀ {entries : List EnqueueEntry} {sequence : ℕ} {b : Backlog},
      (b.enqueueLoop score now sequence entries).fenceSequence < 2 ^ 53 →
      sequence ≤ (b.enqueueLoop score now sequence entries).fenceSequence
  | [], _, _, _ => le_refl _
  | entry :: rest, sequence, b, h => by
    rw [Backlog.enqueueLoop] at h ⊢
    have hrest := enqueueLoop_fence_le h
    have hlt := nextSequence_lt (lt_of_le_of_lt hrest h)
    omega

theorem logEntries_increasing {score now : ℕ} :
    ∀ {entries : List EnqueueEntry} {sequence : ℕ} {b : Backlog} {log : List LoggedEntry},
      Increasing sequence log →
      (b.enqueueLoop score now sequence entries).fenceSequence < 2 ^ 53 →
      Increasing (b.enqueueLoop score now sequence entries).fenceSequence
        (log ++ logEntries now sequence entries)
  | [], sequence, b, log, h, _ => by
    rw [logEntries, List.append_nil]
    exact h
  | entry :: rest, sequence, b, log, h, hfence => by
    rw [logEntries, List.append_cons]
    rw [Backlog.enqueueLoop] at hfence ⊢
    have hlt : sequence < nextSequence now sequence :=
      nextSequence_lt (lt_of_le_of_lt (enqueueLoop_fence_le hfence) hfence)
    refine logEntries_increasing ⟨?_, ?_⟩ hfence
    · rw [List.map_append, List.pairwise_append]
      refine ⟨h.1, List.pairwise_singleton _ _, fun x hx y hy => ?_⟩
      obtain ⟨e, he, rfl⟩ := List.mem_map.mp hx
      have hy : y = nextSequence now sequence := List.mem_singleton.mp hy
      have hle := h.2 e he
      omega
    · intro e he
      rcases List.mem_append.mp he with he | he
      · have hle := h.2 e he
        omega
      · rw [List.mem_singleton.mp he]

/-! ### What claims and enqueues keep -/

/-- Entries and fence of two states agree. -/
def SameEntries (b b' : Backlog) : Prop :=
  b'.entries = b.entries ∧ b'.fenceSequence = b.fenceSequence

theorem SameEntries.trans {b₁ b₂ b₃ : Backlog} (h : SameEntries b₁ b₂) (h' : SameEntries b₂ b₃) :
    SameEntries b₁ b₃ :=
  ⟨h'.1.trans h.1, h'.2.trans h.2⟩

theorem reclaim_sameEntries (now : ℕ) (b : Backlog) (member : String) :
    SameEntries b (b.reclaim now member) := by
  rw [Backlog.reclaim]
  dsimp only
  split <;> exact ⟨rfl, rfl⟩

theorem reclaimExpired_sameEntries (now : ℕ) (b : Backlog) :
    SameEntries b (b.reclaimExpired now) := by
  rw [Backlog.reclaimExpired]
  generalize b.processing.zrangeByScore now reclaimLimit = expired
  induction expired generalizing b with
  | nil => exact ⟨rfl, rfl⟩
  | cons member rest ih => exact (reclaim_sameEntries now b member).trans (ih _)

theorem claimNext_sameEntries {deadline : ℕ} {b b' : Backlog} {c : Option ClaimedEntry}
    (h : b.claimNext deadline = some (c, b')) : SameEntries b b' := by
  rw [Backlog.claimNext] at h
  split at h
  · exact absurd h (by simp)
  · dsimp only at h
    split at h
    · simp only [Option.some.injEq, Prod.mk.injEq] at h
      exact h.2 ▸ ⟨rfl, rfl⟩
    · split at h
      · simp only [Option.some.injEq, Prod.mk.injEq] at h
        exact h.2 ▸ ⟨rfl, rfl⟩
      · simp only [Option.some.injEq, Prod.mk.injEq] at h
        exact h.2 ▸ ⟨rfl, rfl⟩

theorem claimMultiLoop_sameEntries (deadline claimLimit : ℕ) :
    ∀ (rounds : ℕ) (claimed : List ClaimedEntry) (b : Backlog),
      SameEntries b (b.claimMultiLoop deadline claimLimit rounds claimed).2 := by
  intro rounds
  induction rounds with
  | zero =>
    intro claimed b
    exact ⟨rfl, rfl⟩
  | succ rounds ih =>
    intro claimed b
    rw [Backlog.claimMultiLoop]
    split
    · exact ⟨rfl, rfl⟩
    · split
      · exact ⟨rfl, rfl⟩
      · rename_i c b' hnext
        exact (claimNext_sameEntries hnext).trans (ih _ _)
      · rename_i b' hnext
        exact (claimNext_sameEntries hnext).trans (ih _ _)

theorem enqueueLoop_isSome {score now : ℕ} {k : String} :
    ∀ {entries : List EnqueueEntry} {sequence : ℕ} {b : Backlog}, (b.entries k).isSome →
      ((b.enqueueLoop score now sequence entries).entries k).isSome
  | [], _, _, h => h
  | entry :: rest, sequence, b, h => by
    rw [Backlog.enqueueLoop]
    refine enqueueLoop_isSome ?_
    by_cases hk : k = entry.entryKey
    · simp [hk]
    · dsimp only
      rwa [Function.update_of_ne hk]

theorem enqueueLoop_none {score now : ℕ} {k : String} :
    ∀ {entries : List EnqueueEntry} {sequence : ℕ} {b : Backlog},
      (b.enqueueLoop score now sequence entries).entries k = none →
      b.entries k = none ∧ ∀ entry ∈ entries, entry.entryKey ≠ k
  | [], _, _, h => ⟨h, by simp⟩
  | entry :: rest, sequence, b, h => by
    rw [Backlog.enqueueLoop] at h
    obtain ⟨hupdated, hrest⟩ := enqueueLoop_none h
    have hne : entry.entryKey ≠ k := by
      rintro rfl
      simp at hupdated
    dsimp only at hupdated
    rw [Function.update_of_ne (Ne.symm hne)] at hupdated
    refine ⟨hupdated, fun x hx => ?_⟩
    rcases List.mem_cons.mp hx with rfl | hx
    · exact hne
    · exact hrest x hx

theorem logEntries_members {now : ℕ} : ∀ {entries : List EnqueueEntry} {sequence : ℕ},
    (logEntries now sequence entries).map (·.member) = entries.map (·.member)
  | [], _ => rfl
  | entry :: rest, sequence => by
    rw [logEntries, List.map_cons, List.map_cons, logEntries_members]

theorem step_enqueue {encode : SnapshotWrite → Bytes} {b b' : BacklogSystem} {clock : RedisClock}
    {score : ℕ} {requests : List SnapshotWrite}
    (hstep : b.step encode (.enqueue clock score requests) = some b') :
    ∃ entries, requests.mapM (prepare encode) = .ok entries ∧
      b'.redis = b.redis.enqueueLoop score clock.unixMicros b.redis.fenceSequence entries ∧
      b'.log = b.log ++ logEntries clock.unixMicros b.redis.fenceSequence entries := by
  rw [BacklogSystem.step] at hstep
  split at hstep
  · exact absurd hstep (by simp)
  · rename_i entries hentries
    rw [Option.some_inj] at hstep
    exact ⟨entries, hentries, by rw [← hstep]; rfl, by rw [← hstep]⟩

end DbProxy
