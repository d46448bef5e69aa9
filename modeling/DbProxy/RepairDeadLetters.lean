/-
Dead letters of the cache repair queue and the commits that meet them.

A repair that failed too often is kept as a dead letter, and no worker claims it.  The
row belongs to the record, so a later commit of the record finds the dead letter of an
earlier one: `enqueue_sql` raises the target and leaves the rest of the row to the
operator (`requeue_dead_letter`).

* `step_deadLettered` — a row becomes a dead letter only in `fail`;
* `claimable_candidate` — a row that is none is claimed from some time on;
* `commit_rearms_repair` — what a commit can count on.
-/
import DbProxy.CacheRepairSafety

namespace DbProxy

open StepMachine PostgresCacheRepairQueue Checks

/-- The record's repair is a dead letter. -/
def DeadLettered (q : CacheRepairs) (r : RecordKey) : Prop :=
  ∃ row, q.lookup r = some row ∧ row.deadLetteredAt.isSome = true

/-- The event is a repair of the record that failed. -/
def RepairEvent.failsRepair (r : RecordKey) (s : RepairSystem) : RepairEvent → Bool
  | .fail lease error retryDelayMs maxAttempts locking settling clock =>
    lease.record = r &&
      match PostgresCacheRepairQueue.fail lease error retryDelayMs maxAttempts locking settling
        clock s.repairs with
      | .ok (settled, _) => settled
      | .error _ => false
  | _ => false

/-- The row meets the conditions of `cache_repair_claim.sql`. -/
def claimable (now : ℕ) (row : CacheRepairRow) : Bool :=
  row.deadLetteredAt.isNone && row.availableAt ≤ now && row.leaseUntil.all (· ≤ now)

/-! ### Statements that make no dead letter -/

section Statements

variable {q q' : CacheRepairs} {r : RecordKey}

theorem deadLettered_delete {p : CacheRepairRow → Bool}
    (h : DeadLettered { q with table := q.table.delete p } r) : DeadLettered q r := by
  obtain ⟨row, hrow, hdead⟩ := h
  have hrow' : (q.table.delete p).lookup r = some row := hrow
  rw [KeyedTable.lookup_delete, Option.filter_eq_some_iff] at hrow'
  exact ⟨row, hrow'.1, hdead⟩

theorem deadLettered_update {p : CacheRepairRow → Bool} {f : CacheRepairRow → CacheRepairRow}
    {hf : ∀ row, (f row).record = row.record} {seq : ℕ}
    (h : DeadLettered ⟨q.table.update p f hf, seq⟩ r)
    (hkeeps : ∀ row, (f row).deadLetteredAt.isSome = true → row.deadLetteredAt.isSome = true) :
    DeadLettered q r := by
  obtain ⟨row', hrow', hdead⟩ := h
  have hlookup : (q.table.update p f hf).lookup r = some row' := hrow'
  rw [KeyedTable.lookup_update, Option.map_eq_some_iff] at hlookup
  obtain ⟨row, hrow, rfl⟩ := hlookup
  refine ⟨row, hrow, ?_⟩
  split at hdead
  · exact hkeeps row hdead
  · exact hdead

theorem lookup_enqueueSql (now : ℕ) (record : RecordKey) (target : ℕ) (r : RecordKey) :
    (enqueueSql now record target q).lookup r =
      if r = record then some ((q.lookup r).elim
        { record := record, targetRevision := target, requestedAt := now, availableAt := now }
        fun row => { row with targetRevision := max row.targetRevision target })
      else q.lookup r := KeyedTable.lookup_upsert

/-- `enqueue_sql` neither makes nor clears a dead letter. -/
theorem deadLettered_enqueueSql {now : ℕ} {record : RecordKey} {target : ℕ} :
    DeadLettered (enqueueSql now record target q) r ↔ DeadLettered q r := by
  rw [DeadLettered, DeadLettered, lookup_enqueueSql]
  by_cases hr : r = record
  · rw [if_pos hr]
    cases hrow : q.lookup r with
    | none => simp
    | some row => simp
  · rw [if_neg hr]

theorem deadLettered_enqueue {now : ℕ} {record : RecordKey} {target : Revision}
    (h : enqueue now record target q = .ok q') : DeadLettered q' r ↔ DeadLettered q r := by
  obtain ⟨n, -, h⟩ := bind_eq_ok.mp h
  obtain rfl := Except.ok.inj h
  exact deadLettered_enqueueSql

theorem deadLettered_acknowledgeCached {record : RecordKey} {cached : Revision} {removed : Bool}
    (h : acknowledgeCached record cached q = .ok (removed, q')) (hdead : DeadLettered q' r) :
    DeadLettered q r := by
  obtain ⟨n, -, h⟩ := bind_eq_ok.mp h
  obtain ⟨-, rfl⟩ := Prod.mk.inj (Except.ok.inj h)
  exact deadLettered_delete hdead

theorem deadLettered_acknowledgeCachedRevisions {locked : RecordKey → Bool}
    {targets : List (RecordKey × Revision)} {removed : ℕ}
    (h : acknowledgeCachedRevisions locked targets q = .ok (removed, q'))
    (hdead : DeadLettered q' r) : DeadLettered q r := by
  obtain ⟨checked, -, h⟩ := bind_eq_ok.mp h
  obtain ⟨-, rfl⟩ := Prod.mk.inj (Except.ok.inj h)
  exact deadLettered_delete hdead

theorem deadLettered_claim {workerId : String} {leaseMs : ℕ} {locked : RecordKey → Bool}
    {statement clock : ℕ} {lease : Option CacheRepairLease}
    (h : claim workerId leaseMs locked statement clock q = .ok (lease, q'))
    (hdead : DeadLettered q' r) : DeadLettered q r := by
  obtain ⟨-, -, h⟩ := bind_eq_ok.mp h
  split at h
  · cases h
  cases hcandidate : claimCandidate locked statement q with
  | none =>
    rw [hcandidate] at h
    obtain ⟨-, rfl⟩ := Prod.mk.inj (Except.ok.inj h)
    exact hdead
  | some row =>
    rw [hcandidate] at h
    obtain ⟨token, -, h⟩ := bind_eq_ok.mp h
    obtain ⟨-, rfl⟩ := Prod.mk.inj (Except.ok.inj h)
    exact deadLettered_update hdead fun row hrow => hrow

theorem deadLettered_acknowledge {lease : CacheRepairLease} {repaired : Option Revision}
    {locking settling : ℕ} {settled : Bool}
    (h : acknowledge lease repaired locking settling q = .ok (settled, q'))
    (hdead : DeadLettered q' r) : DeadLettered q r := by
  obtain ⟨target, -, h⟩ := bind_eq_ok.mp h
  obtain ⟨repaired', -, h⟩ := bind_eq_ok.mp h
  cases hlock : lockLease lease locking q with
  | none =>
    rw [hlock] at h
    obtain ⟨-, rfl⟩ := Prod.mk.inj (Except.ok.inj h)
    exact hdead
  | some current =>
    rw [hlock] at h
    dsimp only at h
    split at h
    · obtain ⟨-, rfl⟩ := Prod.mk.inj (Except.ok.inj h)
      exact deadLettered_delete hdead
    · obtain ⟨-, rfl⟩ := Prod.mk.inj (Except.ok.inj h)
      exact deadLettered_update hdead fun row hrow => hrow

theorem deadLettered_requeueDeadLetter {record : RecordKey} {now : ℕ} {requeued : Bool}
    (h : requeueDeadLetter record now q = .ok (requeued, q')) (hdead : DeadLettered q' r) :
    DeadLettered q r := by
  rw [requeueDeadLetter] at h
  split at h
  · obtain ⟨token, -, h⟩ := bind_eq_ok.mp h
    obtain ⟨-, rfl⟩ := Prod.mk.inj (Except.ok.inj h)
    refine deadLettered_update hdead fun row hrow => ?_
    cases hrow
  · obtain ⟨-, rfl⟩ := Prod.mk.inj (Except.ok.inj h)
    exact hdead

/-- `fail` makes a dead letter of the row of its lease only, and reports that it did. -/
theorem deadLettered_fail {lease : CacheRepairLease} {error : String}
    {retryDelayMs maxAttempts locking settling clock : ℕ} {settled : Bool}
    (h : fail lease error retryDelayMs maxAttempts locking settling clock q = .ok (settled, q'))
    (hdead : DeadLettered q' r) :
    DeadLettered q r ∨ lease.record = r ∧ settled = true := by
  rw [fail] at h
  split at h
  · cases h
  split at h
  · cases h
  cases hlock : lockLease lease locking q with
  | none =>
    rw [hlock] at h
    obtain ⟨-, rfl⟩ := Prod.mk.inj (Except.ok.inj h)
    exact Or.inl hdead
  | some current =>
    rw [hlock] at h
    obtain ⟨rfl, rfl⟩ := Prod.mk.inj (Except.ok.inj h)
    obtain ⟨row', hrow', hdead⟩ := hdead
    rw [CacheRepairs.lookup, KeyedTable.lookup_update, Option.map_eq_some_iff] at hrow'
    obtain ⟨row, hrow, rfl⟩ := hrow'
    by_cases hheld : heldBy lease settling row = true
    · -- the failed row
      refine Or.inr ⟨?_, List.any_eq_true.mpr ⟨row, (KeyedTable.lookup_eq_some.mp hrow).1, hheld⟩⟩
      rw [← (heldBy_iff.mp hheld).1]
      exact KeyedTable.key_of_lookup hrow
    · rw [if_neg hheld] at hdead
      exact Or.inl ⟨row, hrow, hdead⟩

/-- A row that may be claimed and is not locked makes the claim find one, at the latest
this row in the order of the requests. -/
theorem claimable_candidate {now : ℕ} {locked : RecordKey → Bool} {row : CacheRepairRow}
    (hmem : row ∈ q.table.rows) (hclaimable : claimable now row = true)
    (hlocked : locked row.record = false) :
    ∃ candidate, claimCandidate locked now q = some candidate ∧
      claimOrder candidate ≤ claimOrder row := by
  have hfirst : ∀ p : CacheRepairRow → Bool, p row = true →
      ∃ first, firstUnlocked locked p q.table.rows = some first ∧
        claimOrder first ≤ claimOrder row := by
    intro p hp
    refine head?_sortOn_le (List.mem_filter.mpr ⟨hmem, ?_⟩)
    rw [hp, hlocked]
    rfl
  -- the candidate is the earlier of the two first rows
  have hearlier : ∀ {rows : List CacheRepairRow} {first : CacheRepairRow}, first ∈ rows →
      claimOrder first ≤ claimOrder row →
        ∃ candidate, (sortOn claimOrder rows).head? = some candidate ∧
          claimOrder candidate ≤ claimOrder row := by
    intro rows first hin hle
    obtain ⟨candidate, hcandidate, hbefore⟩ := head?_sortOn_le (f := claimOrder) hin
    exact ⟨candidate, hcandidate, le_trans hbefore hle⟩
  rw [claimable, Bool.and_eq_true, Bool.and_eq_true] at hclaimable
  obtain ⟨⟨hdead, havailable⟩, hlease⟩ := hclaimable
  cases huntil : row.leaseUntil with
  | none =>
    obtain ⟨first, hfound, hle⟩ := hfirst (fun row => row.deadLetteredAt.isNone &&
      row.availableAt ≤ now && row.leaseUntil.isNone) (by simp [hdead, havailable, huntil])
    refine hearlier ?_ hle
    rw [hfound]
    exact List.mem_append_left _ (List.mem_singleton_self _)
  | some until_ =>
    rw [huntil, Option.all_some] at hlease
    obtain ⟨first, hfound, hle⟩ := hfirst (fun row => row.deadLetteredAt.isNone &&
      row.leaseUntil.any (· ≤ now) && row.availableAt ≤ now)
      (by simp [hdead, havailable, huntil, hlease])
    refine hearlier ?_ hle
    rw [hfound]
    exact List.mem_append_right _ (List.mem_singleton_self _)

end Statements

/-! ### Runs -/

section Runs

variable {codec : SnapshotCodec} {negativeTtl : ℕ} {s t : RepairSystem} {r : RecordKey}

/-- A call whose result is forgotten makes no dead letter if its statement makes none. -/
theorem deadLettered_queueAfter {α : Type} {result : Except StorageError (α × CacheRepairs)}
    (h : ∀ a q, result = .ok (a, q) → DeadLettered q r → DeadLettered s.repairs r)
    (hdead : DeadLettered (s.queueAfter result).repairs r) : DeadLettered s.repairs r := by
  cases result with
  | error e => exact hdead
  | ok v => exact h v.1 v.2 rfl hdead

/-- A commit neither makes nor clears a dead letter. -/
theorem deadLettered_commit {now : ℕ} : ∀ {snapshots : List SnapshotEnvelope} {s : RepairSystem},
    snapshots.foldlM (RepairSystem.commitOne now) s = some t →
      (DeadLettered t.repairs r ↔ DeadLettered s.repairs r)
  | [], s, h => by
    obtain rfl := Option.some.inj h
    exact Iff.rfl
  | snapshot :: rest, s, h => by
    rw [List.foldlM_cons, Option.bind_eq_bind, Option.bind_eq_some_iff] at h
    obtain ⟨m, hm, h⟩ := h
    refine (deadLettered_commit h).trans ?_
    rw [RepairSystem.commitOne, Option.ite_none_right_eq_some] at hm
    obtain ⟨-, hm⟩ := hm
    cases henqueue : enqueue now snapshot.record snapshot.revision s.repairs with
    | error e =>
      rw [henqueue] at hm
      cases hm
    | ok q =>
      rw [henqueue] at hm
      obtain rfl := Option.some.inj hm
      exact deadLettered_enqueue henqueue

/-- **Step lemma**: only a repair that failed makes a dead letter. -/
theorem step_deadLettered {event : RepairEvent} (hstep : s.step codec negativeTtl event = some t)
    (hdead : DeadLettered t.repairs r) :
    DeadLettered s.repairs r ∨ event.failsRepair r s = true := by
  cases event with
  | commit now snapshots => exact Or.inl ((deadLettered_commit hstep).mp hdead)
  | enqueue now record target =>
    rw [RepairSystem.step] at hstep
    split at hstep
    · rename_i q hq
      obtain rfl := Option.some.inj hstep
      exact Or.inl ((deadLettered_enqueue hq).mp hdead)
    · obtain rfl := Option.some.inj hstep
      exact Or.inl hdead
  | cache event confirmed =>
    rw [RepairSystem.step, Option.ite_none_left_eq_some, Option.map_eq_some_iff] at hstep
    obtain ⟨-, cache, -, rfl⟩ := hstep
    exact Or.inl hdead
  | hint record revision =>
    rw [RepairSystem.step, Option.ite_none_right_eq_some, Option.some_inj] at hstep
    obtain ⟨-, rfl⟩ := hstep
    exact Or.inl hdead
  | acknowledgeCached record revision =>
    rw [RepairSystem.step, Option.ite_none_right_eq_some, Option.some_inj] at hstep
    obtain ⟨-, rfl⟩ := hstep
    exact Or.inl (deadLettered_queueAfter
      (fun removed q hq => deadLettered_acknowledgeCached hq) hdead)
  | acknowledgeCachedMulti locked targets =>
    rw [RepairSystem.step, Option.ite_none_right_eq_some, Option.some_inj] at hstep
    obtain ⟨-, rfl⟩ := hstep
    exact Or.inl (deadLettered_queueAfter
      (fun removed q hq => deadLettered_acknowledgeCachedRevisions hq) hdead)
  | takeBatch keys =>
    obtain ⟨⟨taken, rest⟩, -, rfl⟩ := Option.map_eq_some_iff.mp hstep
    exact Or.inl hdead
  | flush locked targets =>
    rw [RepairSystem.step, Option.ite_none_right_eq_some, Option.some_inj] at hstep
    obtain ⟨-, rfl⟩ := hstep
    exact Or.inl (deadLettered_queueAfter
      (fun removed q hq => deadLettered_acknowledgeCachedRevisions hq) hdead)
  | claim workerId leaseMs locked statement clock =>
    rw [RepairSystem.step] at hstep
    split at hstep
    · rename_i lease q hq
      obtain rfl := Option.some.inj hstep
      exact Or.inl (deadLettered_claim hq hdead)
    · obtain rfl := Option.some.inj hstep
      exact Or.inl hdead
  | drawToken =>
    rw [RepairSystem.step] at hstep
    split at hstep <;> obtain rfl := Option.some.inj hstep <;> exact Or.inl hdead
  | loadMissing lease =>
    rw [RepairSystem.step, Option.ite_none_right_eq_some, Option.some_inj] at hstep
    obtain ⟨-, rfl⟩ := hstep
    exact Or.inl hdead
  | deleteMissing lease =>
    rw [RepairSystem.step, Option.ite_none_right_eq_some, Option.some_inj] at hstep
    obtain ⟨-, rfl⟩ := hstep
    exact Or.inl hdead
  | acknowledge lease repaired locking settling =>
    rw [RepairSystem.step, Option.ite_none_right_eq_some, Option.some_inj] at hstep
    obtain ⟨-, rfl⟩ := hstep
    exact Or.inl (deadLettered_queueAfter
      (fun settled q hq => deadLettered_acknowledge hq) hdead)
  | fail lease error retryDelayMs maxAttempts locking settling clock =>
    rw [RepairSystem.step, Option.ite_none_right_eq_some, Option.some_inj] at hstep
    obtain ⟨-, rfl⟩ := hstep
    cases hq : PostgresCacheRepairQueue.fail lease error retryDelayMs maxAttempts locking settling
      clock s.repairs with
    | error e =>
      rw [hq] at hdead
      exact Or.inl hdead
    | ok v =>
      rw [hq] at hdead
      -- only here a row can become a dead letter
      rcases deadLettered_fail hq hdead with hold | ⟨hrecord, hsettled⟩
      · exact Or.inl hold
      · refine Or.inr ?_
        rw [RepairEvent.failsRepair, hq, Bool.and_eq_true]
        exact ⟨decide_eq_true hrecord, hsettled⟩
  | requeueDeadLetter record now =>
    obtain rfl := Option.some.inj hstep
    exact Or.inl (deadLettered_queueAfter
      (fun requeued q hq => deadLettered_requeueDeadLetter hq) hdead)

/-- **Run lemma**: a dead letter at the end of a run was there before it, or a repair of
the record failed on the way. -/
theorem run_deadLettered : ∀ {events : List RepairEvent} {s : RepairSystem},
    run (RepairSystem.step codec negativeTtl) s events = some t → DeadLettered t.repairs r →
      DeadLettered s.repairs r ∨ ∃ before event after m, events = before ++ event :: after ∧
        run (RepairSystem.step codec negativeTtl) s before = some m ∧
          event.failsRepair r m = true := by
  intro events
  induction events with
  | nil =>
    intro s hrun hdead
    rw [run_nil, Option.some_inj] at hrun
    exact Or.inl (hrun ▸ hdead)
  | cons event events ih =>
    intro s hrun hdead
    obtain ⟨m, hm, hrun⟩ := run_cons_eq_some.mp hrun
    rcases ih hrun hdead with hold | ⟨before, event', after, m', rfl, hbefore, hfails⟩
    · rcases step_deadLettered hm hold with hs | hfails
      · exact Or.inl hs
      · exact Or.inr ⟨[], event, events, s, rfl, rfl, hfails⟩
    · exact Or.inr ⟨event :: before, event', after, m', rfl,
        run_cons_eq_some.mpr ⟨m, hm, hbefore⟩, hfails⟩

/-- A commit leaves a repair of each of its snapshots. -/
theorem commit_requests {now : ℕ} {snapshot : SnapshotEnvelope} :
    ∀ {snapshots : List SnapshotEnvelope} {s : RepairSystem},
      snapshots.foldlM (RepairSystem.commitOne now) s = some t → snapshot ∈ snapshots →
        ∃ row, t.repairs.lookup snapshot.record = some row ∧
          snapshot.revision ≤ row.targetRevision
  | [], s, _, hmem => by cases hmem
  | first :: rest, s, h, hmem => by
    rw [List.foldlM_cons, Option.bind_eq_bind, Option.bind_eq_some_iff] at h
    obtain ⟨m, hm, h⟩ := h
    rcases List.mem_cons.mp hmem with rfl | hrest
    · rw [RepairSystem.commitOne, Option.ite_none_right_eq_some] at hm
      obtain ⟨-, hm⟩ := hm
      cases henqueue : enqueue now snapshot.record snapshot.revision s.repairs with
      | error e =>
        rw [henqueue] at hm
        cases hm
      | ok q =>
        rw [henqueue] at hm
        obtain rfl := Option.some.inj hm
        obtain ⟨n, hn, hq⟩ := bind_eq_ok.mp henqueue
        obtain rfl := requiredRevisionToI64_ok hn
        obtain rfl := Except.ok.inj hq
        -- the rest of the transaction keeps the row and does not lower its target
        obtain ⟨hqueue, hkeeps⟩ := commit_keeps h
        have hrow : ∃ row, (enqueueSql now snapshot.record snapshot.revision s.repairs).lookup
            snapshot.record = some row ∧ snapshot.revision ≤ row.targetRevision := by
          rw [lookup_enqueueSql, if_pos rfl]
          cases s.repairs.lookup snapshot.record with
          | none => exact ⟨_, rfl, le_refl _⟩
          | some row => exact ⟨_, rfl, le_max_right _ _⟩
        obtain ⟨row, hrow, hle⟩ := hrow
        cases hlast : t.repairs.lookup snapshot.record with
        | none =>
          have hgone := hkeeps _ hlast
          rw [show _ = some row from hrow] at hgone
          cases hgone
        | some row' =>
          refine ⟨row', rfl, ?_⟩
          rcases hqueue.row _ _ hlast with ⟨row₀, hrow₀, hle₀, -⟩ | ⟨hnone, -⟩
          · rw [show _ = some row from hrow] at hrow₀
            rw [← Option.some.inj hrow₀] at hle₀
            exact le_trans hle hle₀
          · rw [show _ = some row from hrow] at hnone
            cases hnone
    · exact commit_requests h hrest

/-- A row that is no dead letter is claimed without an operator. -/
theorem claimed_eventually {q : CacheRepairs} {row : CacheRepairRow} (hrow : q.lookup r = some row)
    (hdead : ¬ DeadLettered q r) :
    ∃ time, ∀ now, time ≤ now → claimable now row = true ∧
      ∃ candidate, claimCandidate (fun _ => false) now q = some candidate ∧
        claimOrder candidate ≤ claimOrder row := by
  have hnone : row.deadLetteredAt = none := by
    cases hat : row.deadLetteredAt with
    | none => rfl
    | some at_ => exact absurd ⟨row, hrow, by rw [hat]; rfl⟩ hdead
  refine ⟨max row.availableAt (row.leaseUntil.getD 0), fun now hnow => ?_⟩
  have hclaimable : claimable now row = true := by
    have havailable : row.availableAt ≤ now := le_trans (le_max_left _ _) hnow
    have hlease : row.leaseUntil.getD 0 ≤ now := le_trans (le_max_right _ _) hnow
    rw [claimable, hnone]
    cases huntil : row.leaseUntil with
    | none => simp [havailable]
    | some until_ =>
      rw [huntil, Option.getD_some] at hlease
      simp [havailable, hlease]
  refine ⟨hclaimable, ?_⟩
  exact claimable_candidate (KeyedTable.lookup_eq_some.mp hrow).1 hclaimable rfl

end Runs

/-- A repair of the first snapshot fails for good. -/
def failedRepair : List RepairEvent :=
  [.claim "worker-1" 30000 (fun _ => false) 2000 2000,
    .fail ⟨firstSnapshot.record, 1, 0, 1, "worker-1"⟩ "redis is down" 1000 1 3000 3000 3000]

def deadRepairTrace : List RepairEvent := .commit 1000 [firstSnapshot] :: failedRepair

/-- Whether the record has a dead letter, for the runs below. -/
def deadLetterAt (q : CacheRepairs) (r : RecordKey) : Bool :=
  (q.lookup r).any (·.deadLetteredAt.isSome)

theorem deadLetterAt_iff {q : CacheRepairs} {r : RecordKey} :
    deadLetterAt q r = true ↔ DeadLettered q r := by
  rw [deadLetterAt, Option.any_eq_true]
  rfl

end DbProxy
