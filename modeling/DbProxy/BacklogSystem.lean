/-
The backlog as a system of scripts, and what each script keeps.

`BacklogSystem` is the content of Redis with two ghost components: the log of
all enqueued entries and the tuples that claims have returned, each with the
length of the log at that moment.  Workers are not in the state: any tuple that
was ever returned may be acknowledged, released or renewed at any time, which
covers live, stale and crashed workers.  Clock readings come with the events.

* `Consistent` — an entry is queued or being processed, and a lease is recorded
  exactly while its member is being processed;
* `Tidies` — what every script but a claim and an enqueue does: leases and
  entries only disappear, and consistency is kept;
* `ackMultiScript_removes` — an entry disappears only with the recorded lease
  and the stored bytes.
-/
import DbProxy.Checks
import DbProxy.SnapshotBacklog
import DbProxy.StepMachine

namespace DbProxy

open LuaNumber RedisSnapshotBacklog StepMachine

/-! ### The system -/

/-- One enqueued entry with the sequence it got. -/
structure LoggedEntry where
  member : String
  sequence : ℕ
  encoded : Bytes
deriving DecidableEq

/-- The bytes stored for it. -/
def LoggedEntry.frame (e : LoggedEntry) : Bytes := sequencedEntry e.sequence e.encoded

structure BacklogSystem where
  redis : Backlog := {}
  log : List LoggedEntry := []
  issued : List (ClaimedEntry × ℕ) := []

/-- Calls of the backlog; `score` and `now` are the caller's clock, `clock` is Redis's. -/
inductive BacklogEvent
  | enqueue (clock : RedisClock) (score : ℕ) (requests : List SnapshotWrite)
  | claim (clock : RedisClock) (leaseMs : ℕ)
  | claimMulti (clock : RedisClock) (leaseMs maxItems : ℕ)
  | ack (now : ℕ) (lease : ClaimedEntry)
  | ackMulti (now : ℕ) (leases : List ClaimedEntry)
  | release (now : ℕ) (lease : ClaimedEntry)
  | releaseMulti (now : ℕ) (leases : List ClaimedEntry)
  | renew (clock : RedisClock) (leaseMs : ℕ) (lease : ClaimedEntry)

/-- The leases that an event acknowledges. -/
def BacklogEvent.acknowledged : BacklogEvent → List ClaimedEntry
  | .ack _ lease => [lease]
  | .ackMulti _ leases => leases
  | _ => []

/-- The log entries of one enqueue script. -/
def logEntries (now : ℕ) : ℕ → List EnqueueEntry → List LoggedEntry
  | _, [] => []
  | sequence, entry :: rest =>
    let sequence := nextSequence now sequence
    ⟨entry.member, sequence, entry.encoded⟩ :: logEntries now sequence rest

/-- The check of `lease_length`, and that it is not zero. -/
def validLease (leaseMs : ℕ) : Bool := 0 < leaseMs && leaseMs < 2 ^ 63

namespace BacklogSystem

def wasIssued (s : BacklogSystem) (lease : ClaimedEntry) : Bool :=
  s.issued.any (·.1 = lease)

/-- Run one claim script and remember what it returned. -/
def claimed (s : BacklogSystem) (r : List ClaimedEntry × Backlog) : BacklogSystem :=
  { s with redis := r.2, issued := s.issued ++ r.1.map fun lease => (lease, s.log.length) }

def step (encode : SnapshotWrite → Bytes) (s : BacklogSystem) : BacklogEvent → Option BacklogSystem
  | .enqueue clock score requests =>
    match requests.mapM (prepare encode) with
    | .error _ => none
    | .ok entries => some { s with
        redis := (s.redis.enqueueBatchScript clock score entries).2
        log := s.log ++ logEntries clock.unixMicros s.redis.fenceSequence entries }
  | .claim clock leaseMs =>
    if validLease leaseMs then
      let r := s.redis.claimScript clock leaseMs
      some (s.claimed (r.1.toList, r.2))
    else none
  | .claimMulti clock leaseMs maxItems =>
    if validLease leaseMs && 0 < maxItems then
      some (s.claimed (s.redis.claimMultiScript clock leaseMs maxItems))
    else none
  | .ack now lease =>
    if s.wasIssued lease then some { s with redis := (s.redis.ackScript now lease).2 } else none
  | .ackMulti now leases =>
    if leases.all s.wasIssued then some { s with redis := (s.redis.ackMultiScript now leases).2 }
    else none
  | .release now lease =>
    if s.wasIssued lease then some { s with redis := (s.redis.releaseScript now lease).2 }
    else none
  | .releaseMulti now leases =>
    if leases.all s.wasIssued then
      some { s with redis := (s.redis.releaseMultiScript now leases).2 }
    else none
  | .renew clock leaseMs lease =>
    if validLease leaseMs && s.wasIssued lease then
      some { s with redis := (s.redis.renewScript clock leaseMs lease).2 }
    else none

end BacklogSystem

/-! ### Small facts -/

theorem entryKey_injective : Function.Injective entryKey := by
  intro a b h
  have := congrArg String.toList h
  rw [entryKey, entryKey, String.toList_append, String.toList_append] at this
  exact String.ext (List.append_cancel_left this)

@[simp] theorem entryKey_inj {a b : String} : entryKey a = entryKey b ↔ a = b :=
  entryKey_injective.eq_iff

/-- The digits end at the first colon, so the stored bytes determine the sequence. -/
theorem sequencedEntry_injective {s t : ℕ} {x y : Bytes}
    (h : sequencedEntry s x = sequencedEntry t y) : s = t ∧ x = y := by
  rw [sequencedEntry, sequencedEntry, List.append_assoc, List.append_assoc,
    List.append_cancel_left_eq] at h
  exact Decimal.bytes_append_inj (by decide) h

/-! ### Consistency of the six keys -/

structure Consistent (b : Backlog) : Prop where
  queued : ∀ m, (b.entries (entryKey m)).isSome → m ∈ b.pending ∨ m ∈ b.processing
  leased : ∀ m, (b.leases m).isSome ↔ m ∈ b.processing

/-- Leases and entries only disappear, and no counter moves. -/
structure Shrinks (b b' : Backlog) : Prop where
  entries : ∀ k bytes, b'.entries k = some bytes → b.entries k = some bytes
  leases : ∀ m id, b'.leases m = some id → b.leases m = some id
  leaseSequence : b'.leaseSequence = b.leaseSequence
  fenceSequence : b'.fenceSequence = b.fenceSequence

theorem Shrinks.refl (b : Backlog) : Shrinks b b :=
  ⟨fun _ _ h => h, fun _ _ h => h, rfl, rfl⟩

theorem Shrinks.trans {b₁ b₂ b₃ : Backlog} (h : Shrinks b₁ b₂) (h' : Shrinks b₂ b₃) :
    Shrinks b₁ b₃ where
  entries k bytes hk := h.entries k bytes (h'.entries k bytes hk)
  leases m id hm := h.leases m id (h'.leases m id hm)
  leaseSequence := h'.leaseSequence.trans h.leaseSequence
  fenceSequence := h'.fenceSequence.trans h.fenceSequence

/-- What every micro-step but a lease and an enqueue does. -/
structure Tidies (b b' : Backlog) : Prop where
  shrinks : Shrinks b b'
  consistent : Consistent b → Consistent b'

theorem Tidies.refl (b : Backlog) : Tidies b b := ⟨Shrinks.refl b, id⟩

theorem Tidies.trans {b₁ b₂ b₃ : Backlog} (h : Tidies b₁ b₂) (h' : Tidies b₂ b₃) :
    Tidies b₁ b₃ :=
  ⟨h.shrinks.trans h'.shrinks, fun hc => h'.consistent (h.consistent hc)⟩

theorem update_none_eq_some {α β : Type*} [DecidableEq α] {f : α → Option β} {a k : α} {x : β}
    (h : Function.update f a none k = some x) : k ≠ a ∧ f k = some x := by
  by_cases hk : k = a
  · rw [hk, Function.update_self] at h
    exact absurd h (by simp)
  · rw [Function.update_of_ne hk] at h
    exact ⟨hk, h⟩

/-- Ending a lease keeps everything but the queueing of that member. -/
theorem leased_endLease {b : Backlog} (h : Consistent b) (member m : String) :
    ((b.endLease member).leases m).isSome ↔ m ∈ (b.endLease member).processing := by
  simp only [Backlog.endLease, SortedSet.mem_zrem]
  by_cases hm : m = member
  · simp [hm]
  · rw [Function.update_of_ne hm, h.leased m]
    simp [hm]

theorem reclaim_tidies (now : ℕ) (b : Backlog) (member : String) :
    Tidies b (b.reclaim now member) := by
  have hshrink : Shrinks b (b.endLease member) :=
    ⟨fun _ _ h => h, fun _ _ h => (update_none_eq_some h).2, rfl, rfl⟩
  rw [show b.reclaim now member = if ((b.endLease member).entries (entryKey member)).isSome then
      { b.endLease member with pending := (b.endLease member).pending.zadd now member }
    else b.endLease member from rfl]
  split
  · refine ⟨⟨hshrink.1, hshrink.2, hshrink.3, hshrink.4⟩, fun h => ⟨?_, leased_endLease h member⟩⟩
    intro m hm
    by_cases heq : m = member
    · exact Or.inl (SortedSet.mem_zadd.mpr (Or.inl heq))
    · rcases h.queued m hm with hp | hp
      · exact Or.inl (SortedSet.mem_zadd.mpr (Or.inr hp))
      · exact Or.inr (SortedSet.mem_zrem.mpr ⟨hp, heq⟩)
  · rename_i hgone
    refine ⟨hshrink, fun h => ⟨?_, leased_endLease h member⟩⟩
    intro m hm
    have heq : m ≠ member := fun heq => hgone (heq ▸ hm)
    rcases h.queued m hm with hp | hp
    · exact Or.inl hp
    · exact Or.inr (SortedSet.mem_zrem.mpr ⟨hp, heq⟩)

theorem reclaimExpired_tidies (now : ℕ) (b : Backlog) : Tidies b (b.reclaimExpired now) := by
  rw [Backlog.reclaimExpired]
  generalize b.processing.zrangeByScore now reclaimLimit = expired
  induction expired generalizing b with
  | nil => exact Tidies.refl b
  | cons member rest ih => exact (reclaim_tidies now b member).trans (ih _)

theorem endLease_shrinks (b : Backlog) (member : String) : Shrinks b (b.endLease member) :=
  ⟨fun _ _ h => h, fun _ _ h => (update_none_eq_some h).2, rfl, rfl⟩

theorem queued_endLease {b : Backlog} (h : Consistent b) {member m : String} (hne : m ≠ member)
    (hm : (b.entries (entryKey m)).isSome) :
    m ∈ b.pending ∨ m ∈ (b.endLease member).processing := by
  rcases h.queued m hm with hp | hp
  · exact Or.inl hp
  · exact Or.inr (SortedSet.mem_zrem.mpr ⟨hp, hne⟩)

theorem releaseScript_tidies (now : ℕ) (lease : ClaimedEntry) (b : Backlog) :
    Tidies b (b.releaseScript now lease).2 := by
  rw [Backlog.releaseScript]
  have hshrink := endLease_shrinks b lease.member
  split
  · exact Tidies.refl b
  · dsimp only
    split
    · refine ⟨⟨hshrink.1, hshrink.2, hshrink.3, hshrink.4⟩,
        fun h => ⟨fun m hm => ?_, leased_endLease h _⟩⟩
      by_cases heq : m = lease.member
      · exact Or.inl (SortedSet.mem_zadd.mpr (Or.inl heq))
      · exact (queued_endLease h heq hm).imp_left fun hp => SortedSet.mem_zadd.mpr (Or.inr hp)
    · rename_i hgone
      refine ⟨hshrink, fun h => ⟨fun m hm => ?_, leased_endLease h _⟩⟩
      exact queued_endLease h (fun heq => hgone (heq ▸ hm)) hm

theorem releaseMultiScript_tidies (now : ℕ) (leases : List ClaimedEntry) (b : Backlog) :
    Tidies b (b.releaseMultiScript now leases).2 := by
  induction leases generalizing b with
  | nil => exact Tidies.refl b
  | cons lease rest ih => exact (releaseScript_tidies now lease b).trans (ih _)

/-- The three ways an acknowledgement ends, with the keys it touches. -/
theorem ackScript_tidies (now : ℕ) (lease : ClaimedEntry) (b : Backlog) :
    Tidies b (b.ackScript now lease).2 := by
  rw [Backlog.ackScript]
  have hshrink := endLease_shrinks b lease.member
  split
  · exact Tidies.refl b
  · dsimp only
    split
    · rename_i hnone
      refine ⟨⟨hshrink.1, hshrink.2, hshrink.3, hshrink.4⟩,
        fun h => ⟨fun m hm => ?_, leased_endLease h _⟩⟩
      have heq : m ≠ lease.member := by
        rintro rfl
        rw [show (b.endLease lease.member).entries (entryKey lease.member) = none from hnone] at hm
        exact absurd hm (by simp)
      exact (queued_endLease h heq hm).imp_left fun hp => SortedSet.mem_zrem.mpr ⟨hp, heq⟩
    · split
      · refine ⟨⟨fun k bytes hk => (update_none_eq_some hk).2, hshrink.2, hshrink.3, hshrink.4⟩,
          fun h => ⟨fun m hm => ?_, leased_endLease h _⟩⟩
        obtain ⟨bytes, hbytes⟩ := Option.isSome_iff_exists.mp hm
        obtain ⟨hkey, hbytes⟩ := update_none_eq_some hbytes
        have heq : m ≠ lease.member := fun heq => hkey (by rw [heq])
        have hin : (b.entries (entryKey m)).isSome := Option.isSome_iff_exists.mpr ⟨bytes, hbytes⟩
        exact (queued_endLease h heq hin).imp_left fun hp => SortedSet.mem_zrem.mpr ⟨hp, heq⟩
      · refine ⟨⟨hshrink.1, hshrink.2, hshrink.3, hshrink.4⟩,
          fun h => ⟨fun m hm => ?_, leased_endLease h _⟩⟩
        by_cases heq : m = lease.member
        · exact Or.inl (SortedSet.mem_zadd.mpr (Or.inl heq))
        · exact (queued_endLease h heq hm).imp_left fun hp => SortedSet.mem_zadd.mpr (Or.inr hp)

theorem ackMultiScript_tidies (now : ℕ) (leases : List ClaimedEntry) (b : Backlog) :
    Tidies b (b.ackMultiScript now leases).2 := by
  induction leases generalizing b with
  | nil => exact Tidies.refl b
  | cons lease rest ih => exact (ackScript_tidies now lease b).trans (ih _)

theorem renewScript_tidies (clock : RedisClock) (leaseMs : ℕ) (lease : ClaimedEntry)
    (b : Backlog) : Tidies b (b.renewScript clock leaseMs lease).2 := by
  rw [Backlog.renewScript]
  split
  · exact Tidies.refl b
  · rename_i hlease
    split
    · exact Tidies.refl b
    · refine ⟨⟨fun _ _ h => h, fun _ _ h => h, rfl, rfl⟩, fun h => ⟨fun m hm => ?_, fun m => ?_⟩⟩
      · exact (h.queued m hm).imp_right fun hp => SortedSet.mem_zadd.mpr (Or.inr hp)
      · -- the renewed member is in the set already, because its lease is recorded
        have hin : lease.member ∈ b.processing :=
          (h.leased lease.member).mp (by rw [not_not.mp hlease]; rfl)
        show (b.leases m).isSome ↔ m ∈ b.processing.zadd _ lease.member
        rw [h.leased m, SortedSet.mem_zadd]
        exact ⟨Or.inr, fun hm => hm.elim (fun heq => heq ▸ hin) id⟩

/-! ### Removal of entries -/

theorem releaseScript_entries (now : ℕ) (lease : ClaimedEntry) (b : Backlog) :
    (b.releaseScript now lease).2.entries = b.entries := by
  rw [Backlog.releaseScript]
  split
  · rfl
  · dsimp only
    split <;> rfl

theorem releaseMultiScript_entries (now : ℕ) (leases : List ClaimedEntry) (b : Backlog) :
    (b.releaseMultiScript now leases).2.entries = b.entries := by
  induction leases generalizing b with
  | nil => rfl
  | cons lease rest ih => exact (ih _).trans (releaseScript_entries now lease b)

theorem renewScript_entries (clock : RedisClock) (leaseMs : ℕ) (lease : ClaimedEntry)
    (b : Backlog) : (b.renewScript clock leaseMs lease).2.entries = b.entries := by
  rw [Backlog.renewScript]
  split
  · rfl
  · split <;> rfl

/-- An acknowledgement removes an entry only with the current lease and the exact bytes. -/
theorem ackScript_removes {now : ℕ} {lease : ClaimedEntry} {b : Backlog} {m : String}
    {bytes : Bytes} (hbefore : b.entries (entryKey m) = some bytes)
    (hafter : (b.ackScript now lease).2.entries (entryKey m) = none) :
    lease.member = m ∧ b.leases m = some lease.leaseId ∧ lease.encoded = bytes := by
  rw [Backlog.ackScript] at hafter
  split at hafter
  · rw [hbefore] at hafter
    exact absurd hafter (by simp)
  · rename_i hlease
    dsimp only at hafter
    split at hafter
    · rw [show (b.endLease lease.member).entries (entryKey m) = some bytes from hbefore] at hafter
      exact absurd hafter (by simp)
    · rename_i current hcurrent
      split at hafter
      · rename_i hencoded
        by_cases heq : m = lease.member
        · subst heq
          refine ⟨rfl, not_not.mp hlease, ?_⟩
          rw [← hencoded]
          exact Option.some.inj (hcurrent.symm.trans hbefore)
        · dsimp only at hafter
          rw [Function.update_of_ne (by simpa using heq)] at hafter
          rw [show (b.endLease lease.member).entries (entryKey m) = some bytes from hbefore] at hafter
          exact absurd hafter (by simp)
      · rw [show (b.endLease lease.member).entries (entryKey m) = some bytes from hbefore] at hafter
        exact absurd hafter (by simp)

theorem ackMultiScript_removes {now : ℕ} {m : String} {bytes : Bytes} :
    ∀ {leases : List ClaimedEntry} {b : Backlog},
      b.entries (entryKey m) = some bytes →
      (b.ackMultiScript now leases).2.entries (entryKey m) = none →
      ∃ lease ∈ leases, lease.member = m ∧ b.leases m = some lease.leaseId ∧
        lease.encoded = bytes
  | [], b, hbefore, hafter => by
    rw [show (b.ackMultiScript now []).2 = b from rfl, hbefore] at hafter
    exact absurd hafter (by simp)
  | lease :: rest, b, hbefore, hafter => by
    cases hmid : (b.ackScript now lease).2.entries (entryKey m) with
    | none => exact ⟨lease, List.mem_cons_self .., ackScript_removes hbefore hmid⟩
    | some bytes' =>
      have hshrink := (ackScript_tidies now lease b).shrinks
      have hsame : bytes' = bytes :=
        Option.some.inj ((hshrink.entries _ _ hmid).symm.trans hbefore)
      have hrest : ((b.ackScript now lease).2.ackMultiScript now rest).2.entries (entryKey m)
          = none := hafter
      obtain ⟨lease', hin, hmember, hlease, hencoded⟩ :=
        ackMultiScript_removes (hsame ▸ hmid) hrest
      exact ⟨lease', List.mem_cons_of_mem _ hin, hmember, hshrink.leases _ _ hlease, hencoded⟩

end DbProxy
