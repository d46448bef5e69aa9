/-
Fencing in the outbox.

* `run_kept` — no row is lost, and a published row stays as it is;
* `dead_kept` — only a retry touches a dead letter;
* `step_not_held` — a stale lease settles nothing;
* `outbox_order_and_fencing` — the guarantees of the outbox for every run.
-/
import DbProxy.OutboxOrder

namespace DbProxy

open PostgresOutboxQueue StepMachine

section Steps

variable {decode : Bytes → Option EventEnvelope} {hash : String → ℤ} {s t : OutboxSystem}
  {action : OutboxAction}

/-! ### Rows are kept -/

theorem TableMove.kept {target : RowTarget} {table table' : OutboxTable}
    (h : TableMove target table table')
    {row : OutboxRow} (hrow : row ∈ table.rows) : ∃ row' ∈ table'.rows, SameEvent row row' ∧
      (row.publishedAt.isSome → row' = row) := by
  obtain ⟨f, hrows, hf⟩ := h
  refine ⟨f row, ?_, (hf row hrow).sameEvent, (hf row hrow).eq_of_published⟩
  rw [hrows]
  exact List.mem_map_of_mem hrow

theorem step_kept (hstep : s.step decode hash action = some t) {row : OutboxRow}
    (hrow : row ∈ s.table.rows) : ∃ row' ∈ t.table.rows, SameEvent row row' ∧
      (row.publishedAt.isSome → row' = row) := by
  rcases (step_rows hstep).table with hmove | hadd
  · exact hmove.kept hrow
  · exact ⟨row, hadd row hrow, .refl row, fun _ => rfl⟩

/-- **Run lemma**: no row is lost, and a published row stays as it is. -/
theorem run_kept {es : List OutboxAction} :
    ∀ {s t : OutboxSystem}, run (OutboxSystem.step decode hash) s es = some t →
      ∀ row ∈ s.table.rows, ∃ row' ∈ t.table.rows, SameEvent row row' ∧
        (row.publishedAt.isSome → row' = row) := by
  induction es with
  | nil =>
    intro s t hrun row hrow
    obtain rfl := Option.some.inj hrun
    exact ⟨row, hrow, .refl row, fun _ => rfl⟩
  | cons e es ih =>
    intro s t hrun row hrow
    obtain ⟨m, hm, hrun⟩ := run_cons_eq_some.mp hrun
    obtain ⟨row₁, hrow₁, hsame₁, hpub₁⟩ := step_kept hm hrow
    obtain ⟨row₂, hrow₂, hsame₂, hpub₂⟩ := ih hrun row₁ hrow₁
    refine ⟨row₂, hrow₂, hsame₁.trans hsame₂, fun hp => ?_⟩
    have heq := hpub₁ hp
    rw [hpub₂ (heq ▸ hp), heq]

/-! ### Dead letters -/

/-- Of the moves, only a retry is open to a dead letter. -/
theorem RowMove.eq_of_dead {target : RowTarget} {rows : List OutboxRow}
    {row row' : OutboxRow} (h : RowMove target rows row row') (hok : RowOk row)
    (hdead : row.deadLetteredAt.isSome) (hne : target ≠ .retried row.eventId) : row' = row := by
  have hlease : ¬ row.leaseUntil.isSome := by
    rw [hok.dead hdead]
    simp
  cases h with
  | keep => rfl
  | grant _ _ _ _ hlive =>
    rw [hlive] at hdead
    cases hdead
  | publish _ _ hleased => exact absurd hleased hlease
  | fail _ _ _ _ _ hleased => exact absurd hleased hlease
  | requeue _ _ hid => exact absurd hid hne

/-- The dead letter that an operator retries. -/
def OutboxAction.retries : OutboxAction → Option String
  | .retryDeadLetter eventId .. => some eventId
  | _ => none

theorem OutboxAction.retries_of_target {eventId : String}
    (h : action.target = .retried eventId) : action.retries = some eventId := by
  cases action with
  | retryDeadLetter eventId' =>
    obtain rfl := RowTarget.retried.inj h
    rfl
  | _ => cases h

theorem dead_kept (h : OutboxInv hash s) (hstep : s.step decode hash action = some t)
    {row : OutboxRow} (hrow : row ∈ s.table.rows) (hdead : row.deadLetteredAt.isSome) :
    row ∈ t.table.rows ∨ action.retries = some row.eventId := by
  by_cases hne : action.retries = some row.eventId
  · exact Or.inr hne
  left
  rcases (step_rows hstep).table with ⟨f, hrows, hf⟩ | hadd
  · have hok := h.rowOk row (mem_allRows.mpr (Or.inl hrow))
    rw [hrows]
    refine List.mem_map.mpr ⟨row, hrow, (hf row hrow).eq_of_dead hok hdead fun htarget => ?_⟩
    exact hne (OutboxAction.retries_of_target htarget)
  · exact hadd row hrow

/-! ### Stale leases -/

/-- The lease that a call settles. -/
def OutboxAction.settles : OutboxAction → Option OutboxLease
  | .acknowledge lease .. => some lease
  | .fail lease .. => some lease
  | _ => none

theorem step_not_held {lease : OutboxLease} (hsettles : action.settles = some lease)
    (hnot : ∀ row ∈ s.table.rows, row.eventId = lease.event.eventId →
      row.leaseToken = lease.leaseToken → row.leaseUntil = none)
    (hstep : s.step decode hash action = some t) : t = s := by
  cases action with
  | acknowledge lease' checked clock =>
    obtain rfl := Option.some.inj hsettles
    obtain ⟨-, hstep⟩ := Option.ite_none_right_eq_some.mp hstep
    obtain rfl := Option.some.inj hstep
    show { s with table := (acknowledge lease' checked clock s.table).2 } = s
    rw [acknowledge_not_held hnot]
  | fail lease' error retryDelayMs maxAttempts checked clock =>
    obtain rfl := Option.some.inj hsettles
    obtain ⟨-, hstep⟩ := Option.ite_none_right_eq_some.mp hstep
    obtain rfl := Option.some.inj hstep
    cases hfail : PostgresOutboxQueue.fail lease' error retryDelayMs maxAttempts checked clock
      s.table with
    | error e => rfl
    | ok v =>
      show { s with table := v.2 } = s
      rw [fail_not_held hnot hfail]
  | _ => cases hsettles

end Steps

/-! ### Runs -/

theorem run_inv {decode : Bytes → Option EventEnvelope} {hash : String → ℤ}
    {es : List OutboxAction} {s : OutboxSystem}
    (hrun : run (OutboxSystem.step decode hash) {} es = some s) : OutboxInv hash s :=
  run_invariant (fun _ _ _ h hstep => step_inv h hstep) inv_init hrun

/-- **Order and fencing of the outbox.**  In every reachable state:

* a row holds a lease only if all rows of its group with a smaller order number are
  published, also those of running transactions;
* at most one row of a group holds a lease;
* behind a dead letter nothing is leased or published, until it is published itself; and
  only a retry changes it;
* a call with a token that no lease has now changes nothing;
* a published row keeps its mark and is never leased again. -/
theorem outbox_order_and_fencing (decode : Bytes → Option EventEnvelope) (hash : String → ℤ)
    (es : List OutboxAction) (s : OutboxSystem)
    (hrun : run (OutboxSystem.step decode hash) {} es = some s) :
    (∀ row ∈ s.table.rows, row.leaseUntil.isSome → ∀ earlier ∈ s.allRows,
      earlier.group = row.group → earlier.enqueueOrder < row.enqueueOrder →
      earlier.publishedAt.isSome) ∧
    (∀ a ∈ s.table.rows, ∀ b ∈ s.table.rows, a.group = b.group → a.leaseUntil.isSome →
      b.leaseUntil.isSome → a = b) ∧
    (∀ dead ∈ s.table.rows, dead.deadLetteredAt.isSome →
      dead.publishedAt = none ∧
      (∀ action t, s.step decode hash action = some t →
        dead ∈ t.table.rows ∨ action.retries = some dead.eventId) ∧
      ∀ fs t, run (OutboxSystem.step decode hash) s fs = some t →
        ∃ now ∈ t.table.rows, now.eventId = dead.eventId ∧ (now.publishedAt = none →
          ∀ later ∈ t.allRows, later.group = dead.group →
            dead.enqueueOrder < later.enqueueOrder →
            later.leaseUntil = none ∧ later.publishedAt = none)) ∧
    (∀ lease action t, action.settles = some lease →
      (∀ row ∈ s.table.rows, row.eventId = lease.event.eventId →
        row.leaseToken = lease.leaseToken → row.leaseUntil = none) →
      s.step decode hash action = some t → t = s) ∧
    (∀ row ∈ s.table.rows, row.publishedAt.isSome →
      ∀ fs t, run (OutboxSystem.step decode hash) s fs = some t →
        row ∈ t.table.rows ∧ row.leaseUntil = none) := by
  have hinv := run_inv hrun
  refine ⟨?_, ?_, ?_, ?_, ?_⟩
  · intro row hrow hlease earlier hearlier
    exact hinv.prior_published hrow (Or.inl hlease) hearlier
  · intro a ha b hb
    exact hinv.eq_of_leased ha hb
  · intro dead hdead hisdead
    refine ⟨?_, fun action t hstep => dead_kept hinv hstep hdead hisdead, ?_⟩
    · by_contra hp
      have hok := hinv.rowOk dead (mem_allRows.mpr (Or.inl hdead))
      rw [(hok.published (Option.isSome_iff_ne_none.mpr hp)).2] at hisdead
      cases hisdead
    · intro fs t hrun'
      have hinv' : OutboxInv hash t :=
        run_invariant (fun _ _ _ h hstep => step_inv h hstep) hinv hrun'
      obtain ⟨now, hnow, hsame, -⟩ := run_kept hrun' dead hdead
      refine ⟨now, hnow, hsame.eventId, fun hopen later hlater hgroup hlt => ?_⟩
      refine hinv'.blocked hnow hopen hlater (hgroup.trans hsame.group.symm) ?_
      rw [hsame.enqueueOrder]
      exact hlt
  · intro lease action t hsettles hnot hstep
    exact step_not_held hsettles hnot hstep
  · intro row hrow hp fs t hrun'
    obtain ⟨row', hrow', -, heq⟩ := run_kept hrun' row hrow
    have hok := hinv.rowOk row (mem_allRows.mpr (Or.inl hrow))
    exact ⟨heq hp ▸ hrow', (hok.published hp).1⟩

/-- Two events of one legacy stream and partition. -/
def sampleEvent (eventId : String) : OutboxEvent := ⟨eventId, "orders", "p", [7], 5⟩

def claimClock (now : ℕ) : ClaimClock := ⟨now, fun _ => now, fun _ => now, fun _ => now⟩

def sampleLease : OutboxLease :=
  ⟨sampleEvent "e-1", "op-1", "", 0, "legacy", "legacy", "dbproxy:outbox:orders", 1, "worker-1"⟩

/-- The second transaction waits for the lock of the first.  The first event is claimed while
the second is uncommitted; its publication fails for good. -/
def deadLetterTrace : List OutboxAction :=
  [.beginCommit 1 "op-1" { outboxEvents := [sampleEvent "e-1"] }, .takeLock 1,
    .beginCommit 2 "op-2" { outboxEvents := [sampleEvent "e-2"] },
    .insertEvent 1 1000, .commit 1, .takeLock 2, .insertEvent 2 2000,
    .claim "worker-1" 30000 none 16 (fun _ => false) (claimClock 3000),
    .commit 2,
    .fail sampleLease "invalid publication" 1000 1 4000 4000,
    .claim "worker-2" 30000 none 16 (fun _ => false) (claimClock 5000)]

/-- The dead letter blocks the second event, and the worker's lease is worth nothing now. -/
theorem outbox_order_and_fencing_dead_letter :
    ∃ s t, run (OutboxSystem.step (fun _ => none) fun key => key.length) {} deadLetterTrace =
        some s ∧
      s.table.rows.map (fun row => (row.eventId, row.enqueueOrder, row.deadLetteredAt)) =
        [("e-1", 1, some 4000), ("e-2", 2, none)] ∧
      (∀ later ∈ s.table.rows, later.eventId = "e-2" → later.leaseUntil = none) ∧
      s.step (fun _ => none) (fun key => key.length) (.acknowledge sampleLease 6000 6000) =
        some t ∧ t = s := by
  have hreach : ∃ s, run (OutboxSystem.step (fun _ => none) fun key => key.length) {}
        deadLetterTrace = some s ∧
      s.table.rows.map (fun row => (row.eventId, row.enqueueOrder, row.deadLetteredAt)) =
        [("e-1", 1, some 4000), ("e-2", 2, none)] ∧
      (∀ dead ∈ s.table.rows, dead.eventId = "e-1" → dead.deadLetteredAt.isSome ∧
        dead.leaseUntil = none ∧ ∀ later ∈ s.table.rows, later.eventId = "e-2" →
          later.group = dead.group ∧ dead.enqueueOrder < later.enqueueOrder) ∧
      sampleLease ∈ s.leases :=
    exists_of_any (by decide +kernel)
  obtain ⟨s, hs, hrows, hdead, hlease⟩ := hreach
  obtain ⟨-, -, hblocks, hstale, -⟩ := outbox_order_and_fencing _ _ _ s hs
  have hfirst : ∃ dead ∈ s.table.rows, dead.eventId = "e-1" := by
    have hmem : ("e-1", 1, some 4000) ∈ s.table.rows.map
        (fun row => (row.eventId, row.enqueueOrder, row.deadLetteredAt)) := by simp [hrows]
    obtain ⟨dead, hmem, heq⟩ := List.mem_map.mp hmem
    exact ⟨dead, hmem, congrArg Prod.fst heq⟩
  obtain ⟨dead, hmem, hid⟩ := hfirst
  obtain ⟨hisdead, -, hlater⟩ := hdead dead hmem hid
  obtain ⟨hopen, -, hrun⟩ := hblocks dead hmem hisdead
  obtain ⟨now, hnow, hnowid, hblocked⟩ := hrun [] s rfl
  have hsame : now = dead := KeyedTable.eq_of_key hnow hmem hnowid
  have hstep : s.step (fun _ => none) (fun key => key.length)
      (.acknowledge sampleLease 6000 6000) =
        some (s.tableAfter (.ok (acknowledge sampleLease 6000 6000 s.table))) := if_pos hlease
  refine ⟨s, _, hs, hrows, ?_, hstep, hstale sampleLease _ _ rfl ?_ hstep⟩
  · intro later hmem' hid'
    obtain ⟨hgroup, hlt⟩ := hlater later hmem' hid'
    exact (hblocked (hsame ▸ hopen) later (mem_allRows.mpr (Or.inl hmem')) hgroup hlt).1
  · intro row hrow hrowid htoken
    exact (hdead row hrow hrowid).2.1

end DbProxy
