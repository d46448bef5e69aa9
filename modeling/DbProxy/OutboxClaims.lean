/-
The outbox claim finds work.

`outbox_claim.sql` looks for heads among the first eligible rows and, when it finds none
there, among all rows, with a head test written in another way.  The two together miss
no head, and they return nothing else:

* `groupMin_iff` — the head test of the fallback is that of the fast path;
* `claimCandidates_ne_nil` — a head that can be claimed is enough for a claim;
* `outbox_claim_finds_work` — what a claim returns, and when it returns something.

A statement reads the clock once per row and again when it checks the row, so a lease may
run out between the two readings.
-/
import DbProxy.OutboxOrder

namespace DbProxy

open PostgresOutboxQueue

/-! ### Heads -/

/-- An event that can be claimed, for some readings of the clock. -/
def ClaimableHead (publisher : Option String) (statement : ℕ) (readings : String → ℕ)
    (rows : List OutboxRow) (row : OutboxRow) : Prop :=
  row ∈ rows ∧ eligible publisher statement readings row = true ∧ PriorPublished rows row

/-- `claimed` are the `n` first of `considered`, by their order. -/
structure LowestOrders (n : ℕ) (considered claimed : List OutboxRow) : Prop where
  subset : ∀ row ∈ claimed, row ∈ considered
  sorted : claimed.Pairwise fun a b => a.enqueueOrder ≤ b.enqueueOrder
  limit : claimed.length ≤ n
  lowest : ∀ other ∈ considered, other ∉ claimed →
    claimed.length = n ∧ ∀ row ∈ claimed, row.enqueueOrder ≤ other.enqueueOrder

/-- `enqueue_order` is a `BIGSERIAL`. -/
def DistinctOrders (table : OutboxTable) : Prop :=
  ∀ a ∈ table.rows, ∀ b ∈ table.rows, a.enqueueOrder = b.enqueueOrder → a.eventId = b.eventId

instance (table : OutboxTable) : Decidable (DistinctOrders table) :=
  inferInstanceAs (Decidable (∀ a ∈ table.rows, ∀ b ∈ table.rows,
    a.enqueueOrder = b.enqueueOrder → a.eventId = b.eventId))

theorem OutboxInv.distinctOrders {hash : String → ℤ} {s : OutboxSystem} (h : OutboxInv hash s) :
    DistinctOrders s.table :=
  fun a ha b hb => h.distinct a (List.mem_append_left _ ha) b (List.mem_append_left _ hb)

theorem lowestOrders_take (n : ℕ) (considered : List OutboxRow) :
    LowestOrders n considered ((sortOn (·.enqueueOrder) considered).take n) where
  subset := fun _ hrow => mem_sortOn.mp (List.mem_of_mem_take hrow)
  sorted := (pairwise_sortOn _ considered).sublist (List.take_sublist _ _)
  limit := List.length_take_le _ _
  lowest := fun _ hother hnot => take_sortOn_le hother hnot

section Candidates

variable {publisher : Option String} {maximum : ℕ} {clock : ClaimClock} {rows : List OutboxRow}
  {row : OutboxRow}

/-- For a row that the claim is about, the group minimum is the same head test. -/
theorem groupMin_iff (hpublisher : publisher.all (row.publisherId = ·) = true) :
    (groupMin publisher rows row.group).any (· < row.enqueueOrder) = false ↔
      PriorPublished rows row := by
  refine ⟨priorPublished_of_groupMin hpublisher, fun h => ?_⟩
  cases hmin : groupMin publisher rows row.group with
  | none => rfl
  | some least =>
    have hleast := (List.min?_eq_some_iff.mp hmin).1
    obtain ⟨prior, hprior, rfl⟩ := List.mem_map.mp hleast
    obtain ⟨hmem, hprior⟩ := List.mem_filter.mp hprior
    rw [Bool.and_eq_true, Bool.and_eq_true, decide_eq_true_eq] at hprior
    obtain ⟨⟨hopen, -⟩, hgroup⟩ := hprior
    rw [Option.any_some, decide_eq_false_iff_not]
    intro hlt
    -- the minimum is an unpublished row
    have hsome := h prior hmem hgroup hlt
    rw [Option.isNone_iff_eq_none] at hopen
    rw [hopen] at hsome
    cases hsome

/-- A row that was eligible when it was listed is eligible when it is checked. -/
theorem eligible_mono {statement : ℕ} {earlier later : String → ℕ}
    (hle : ∀ id, earlier id ≤ later id) (h : eligible publisher statement earlier row = true) :
    eligible publisher statement later row = true := by
  rw [eligible_iff] at h ⊢
  obtain ⟨hopen, hlive, hdue, hpublisher, hlease⟩ := h
  refine ⟨hopen, hlive, hdue, hpublisher, ?_⟩
  cases huntil : row.leaseUntil with
  | none => rfl
  | some expiry =>
    rw [huntil, Option.all_some, decide_eq_true_eq] at hlease
    have := hle row.eventId
    rw [Option.all_some, decide_eq_true_eq]
    omega

/-- The heads among the first eligible rows, and all of them. -/
def shortlistedHeads (publisher : Option String) (maximum : ℕ) (clock : ClaimClock)
    (rows : List OutboxRow) : List OutboxRow :=
  (shortlist publisher maximum clock rows).filter fun row =>
    eligible publisher clock.statement clock.checked row && isHead rows row

def allHeads (publisher : Option String) (clock : ClaimClock) (rows : List OutboxRow) :
    List OutboxRow :=
  rows.filter fun row => eligible publisher clock.statement clock.checked row && isHead rows row

/-- The fast path answers, unless it finds nothing while there are eligible rows. -/
def consideredHeads (publisher : Option String) (maximum : ℕ) (clock : ClaimClock)
    (rows : List OutboxRow) : List OutboxRow :=
  if shortlistedHeads publisher maximum clock rows = [] ∧
      shortlist publisher maximum clock rows ≠ [] then allHeads publisher clock rows
  else shortlistedHeads publisher maximum clock rows

theorem fastCandidates_eq :
    fastCandidates publisher maximum (fun _ => false) clock rows =
      (sortOn (·.enqueueOrder) (shortlistedHeads publisher maximum clock rows)).take maximum := by
  simp only [fastCandidates, shortlistedHeads, Bool.not_false, Bool.and_true]

theorem allHeads_eq :
    allHeads publisher clock rows = rows.filter fun row =>
      eligible publisher clock.statement clock.checked row &&
        !(groupMin publisher rows row.group).any (· < row.enqueueOrder) && !false := by
  refine List.filter_congr fun row _ => ?_
  rw [Bool.not_false, Bool.and_true]
  by_cases heligible : eligible publisher clock.statement clock.checked row = true
  · have hpublisher := (eligible_iff.mp heligible).2.2.2.1
    rw [heligible, Bool.true_and, Bool.true_and, Bool.eq_iff_iff, Bool.not_eq_true',
      groupMin_iff hpublisher, isHead_iff]
  · rw [Bool.not_eq_true] at heligible
    rw [heligible, Bool.false_and, Bool.false_and]

theorem take_sortOn_eq_nil {n : ℕ} {l : List OutboxRow} (hn : 1 ≤ n) :
    (sortOn (·.enqueueOrder) l).take n = [] ↔ l = [] := by
  rw [List.take_eq_nil_iff, sortOn_eq_nil]
  exact or_iff_right (by omega)

/-- Without locked rows a claim takes the first of the heads it considers. -/
theorem claimCandidates_eq (hmaximum : 1 ≤ maximum) :
    claimCandidates publisher maximum (fun _ => false) clock rows =
      (sortOn (·.enqueueOrder) (consideredHeads publisher maximum clock rows)).take maximum := by
  rw [claimCandidates, fastCandidates_eq, consideredHeads, allHeads_eq]
  by_cases hcond : shortlistedHeads publisher maximum clock rows = [] ∧
      shortlist publisher maximum clock rows ≠ []
  · rw [if_pos hcond, if_pos ⟨(take_sortOn_eq_nil hmaximum).mpr hcond.1, hcond.2⟩]
  · rw [if_neg hcond,
      if_neg fun h => hcond ⟨(take_sortOn_eq_nil hmaximum).mp h.1, h.2⟩]

theorem claimCandidates_ne_nil (hmaximum : 1 ≤ maximum)
    (hclock : ∀ id, clock.listed id ≤ clock.checked id)
    (h : ClaimableHead publisher clock.statement clock.listed rows row) :
    claimCandidates publisher maximum (fun _ => false) clock rows ≠ [] := by
  obtain ⟨hrow, hlisted, hhead⟩ := h
  have hchecked := eligible_mono hclock hlisted
  have hall : row ∈ allHeads publisher clock rows := by
    refine List.mem_filter.mpr ⟨hrow, ?_⟩
    rw [hchecked, isHead_iff.mpr hhead]
    rfl
  have hshort : shortlist publisher maximum clock rows ≠ [] := by
    rw [shortlist, Ne, take_sortOn_eq_nil (by omega)]
    exact List.ne_nil_of_mem (List.mem_filter.mpr ⟨hrow, hlisted⟩)
  rw [claimCandidates_eq hmaximum, Ne, take_sortOn_eq_nil hmaximum, consideredHeads]
  by_cases hfast : shortlistedHeads publisher maximum clock rows = []
  · rw [if_pos ⟨hfast, hshort⟩]
    exact List.ne_nil_of_mem hall
  · rw [if_neg fun hcond => hfast hcond.1]
    exact hfast

/-- The heads of one group are one row. -/
theorem eq_of_group {table : OutboxTable} {a b : OutboxRow} {statement : ℕ}
    {readings : String → ℕ} (hdistinct : DistinctOrders table)
    (ha : ClaimableHead publisher statement readings table.rows a)
    (hb : ClaimableHead publisher statement readings table.rows b) (hgroup : a.group = b.group) :
    a = b := by
  have hopen : ∀ {row : OutboxRow}, ClaimableHead publisher statement readings table.rows row →
      row.publishedAt.isSome = false := by
    intro row h
    rw [(eligible_iff.mp h.2.1).1]
    rfl
  have hab : ¬ a.enqueueOrder < b.enqueueOrder := fun hlt =>
    Bool.false_ne_true ((hopen ha).symm.trans (hb.2.2 a ha.1 hgroup hlt))
  have hba : ¬ b.enqueueOrder < a.enqueueOrder := fun hlt =>
    Bool.false_ne_true ((hopen hb).symm.trans (ha.2.2 b hb.1 hgroup.symm hlt))
  have hid := hdistinct a ha.1 b hb.1 (by omega)
  have hlookup := KeyedTable.lookup_of_mem ha.1
  rw [hid, KeyedTable.lookup_of_mem hb.1] at hlookup
  exact (Option.some.inj hlookup).symm

theorem nodup_claimCandidates {table : OutboxTable} (hmaximum : 1 ≤ maximum) :
    (claimCandidates publisher maximum (fun _ => false) clock table.rows).Nodup := by
  have hrows : table.rows.Nodup := table.nodup.of_map _
  have hshort : (shortlist publisher maximum clock table.rows).Nodup :=
    ((sortOn_perm _ _).nodup_iff.mpr (hrows.filter _)).sublist (List.take_sublist _ _)
  rw [claimCandidates_eq hmaximum]
  refine ((sortOn_perm _ _).nodup_iff.mpr ?_).sublist (List.take_sublist _ _)
  rw [consideredHeads]
  split
  · exact hrows.filter _
  · exact hshort.filter _

end Candidates

/-- A call with valid arguments leases the candidates. -/
theorem claimBatch_eq {workerId : String} {leaseMs maximum : ℕ} (publisher : Option String)
    (locked : String → Bool) (clock : ClaimClock) (table : OutboxTable)
    (hworker : PostgresCacheRepairQueue.validateWorker workerId leaseMs = .ok ())
    (hlease : leaseMs < bigintLimit) (hmaximum : 1 ≤ maximum ∧ maximum ≤ 64) :
    ∃ table', claimBatch workerId leaseMs publisher maximum locked clock table =
      .ok ((claimCandidates publisher maximum locked clock table.rows).map fun row =>
        leaseOf workerId (grant workerId leaseMs clock row), table') := by
  refine ⟨table.update (· ∈ claimCandidates publisher maximum locked clock table.rows)
    (grant workerId leaseMs clock) (eventId_grant workerId leaseMs clock), ?_⟩
  rw [claimBatch, hworker]
  show (if ¬ (1 ≤ maximum ∧ maximum ≤ 64) then _ else _) = _
  rw [if_neg (fun h => h hmaximum), if_neg (by omega)]
  show Except.ok ((((claimCandidates publisher maximum locked clock table.rows).map _).map _),
    _) = _
  rw [List.map_map]
  rfl

/-- **The outbox claim finds work.**  A claim of a valid worker with no rows locked by others
returns something when an eligible event is the first unpublished one of its group, and only
then: with one reading of the clock this is an equivalence, and in general a lease that runs out
during the statement may be seen late but is not missed.  All that it returns are such heads,
of different groups, at most as many as asked for, and the first of the heads it considers:
those among the first eligible events or, when these are all blocked, all of them. -/
theorem outbox_claim_finds_work (workerId : String) (leaseMs : ℕ) (publisher : Option String)
    (maximum : ℕ) (clock : ClaimClock) (table : OutboxTable)
    (hworker : PostgresCacheRepairQueue.validateWorker workerId leaseMs = .ok ())
    (hlease : leaseMs < bigintLimit) (hmaximum : 1 ≤ maximum ∧ maximum ≤ 64)
    (hclock : ∀ id, clock.listed id ≤ clock.checked id) (hdistinct : DistinctOrders table) :
    ∃ claimed table', claimBatch workerId leaseMs publisher maximum (fun _ => false) clock table =
        .ok (claimed.map fun row => leaseOf workerId (grant workerId leaseMs clock row), table') ∧
      ((∃ row, ClaimableHead publisher clock.statement clock.listed table.rows row) →
        claimed ≠ []) ∧
      (claimed ≠ [] → ∃ row, ClaimableHead publisher clock.statement clock.checked table.rows row) ∧
      (clock.listed = clock.checked → (claimed ≠ [] ↔
        ∃ row, ClaimableHead publisher clock.statement clock.checked table.rows row)) ∧
      (∀ row ∈ claimed, ClaimableHead publisher clock.statement clock.checked table.rows row) ∧
      (claimed.map OutboxRow.group).Nodup ∧ claimed.length ≤ maximum ∧
      LowestOrders (max 32 maximum)
        (table.rows.filter (eligible publisher clock.statement clock.listed))
        (shortlist publisher maximum clock table.rows) ∧
      LowestOrders maximum (consideredHeads publisher maximum clock table.rows) claimed := by
  set claimed := claimCandidates publisher maximum (fun _ => false) clock table.rows with hclaimed
  have hheads : ∀ row ∈ claimed,
      ClaimableHead publisher clock.statement clock.checked table.rows row :=
    fun row hrow => mem_claimCandidates hrow
  have hfinds : (∃ row, ClaimableHead publisher clock.statement clock.listed table.rows row) →
      claimed ≠ [] := by
    rintro ⟨row, hrow⟩
    exact claimCandidates_ne_nil hmaximum.1 hclock hrow
  have honly : claimed ≠ [] →
      ∃ row, ClaimableHead publisher clock.statement clock.checked table.rows row := by
    intro hne
    obtain ⟨row, hrow⟩ := List.exists_mem_of_ne_nil _ hne
    exact ⟨row, hheads row hrow⟩
  have hlowest := lowestOrders_take maximum (consideredHeads publisher maximum clock table.rows)
  rw [← claimCandidates_eq hmaximum.1, ← hclaimed] at hlowest
  obtain ⟨table', hbatch⟩ := claimBatch_eq publisher (fun _ => false) clock table hworker hlease
    hmaximum
  refine ⟨claimed, table', hbatch, hfinds, honly, ?_, hheads, ?_, hlowest.limit,
    lowestOrders_take .., hlowest⟩
  · intro hsame
    exact ⟨honly, fun hrow => hfinds (hsame ▸ hrow)⟩
  · refine List.Nodup.map_on (fun a ha b hb hgroup => ?_) (nodup_claimCandidates hmaximum.1)
    exact eq_of_group hdistinct (hheads a ha) (hheads b hb) hgroup

/-- A dead letter, the event that it blocks, and the head of another partition. -/
def blockedTable : OutboxTable where
  rows :=
    let event (eventId partitionKey : String) (order : ℕ) : OutboxRow :=
      { eventId, operationId := "op", tradeId := none, topic := "t", partitionKey, payload := [],
        occurredAtUnixMs := 0, availableAt := 0, producer := "legacy", publisherId := "legacy",
        destination := "dbproxy:outbox:t", enqueueOrder := order }
    [{ event "1" "a" 1 with deadLetteredAt := some 5 }, event "2" "a" 2, event "3" "b" 3]
  nodup := by decide

theorem outbox_claim_finds_work_blocked :
    ∃ claimed table', claimBatch "worker" 30000 none 1 (fun _ => false)
        ⟨9, fun _ => 9, fun _ => 9, fun _ => 9⟩ blockedTable =
        .ok (claimed.map fun row => leaseOf "worker"
          (grant "worker" 30000 ⟨9, fun _ => 9, fun _ => 9, fun _ => 9⟩ row), table') ∧
      claimed ≠ [] := by
  obtain ⟨claimed, table', hbatch, hfinds, -⟩ := outbox_claim_finds_work "worker" 30000 none 1
    ⟨9, fun _ => 9, fun _ => 9, fun _ => 9⟩ blockedTable rfl (by decide) (by decide)
    (fun _ => Nat.le_refl _) (by decide)
  refine ⟨claimed, table', hbatch, hfinds ⟨blockedTable.rows.get ⟨2, by decide⟩, ?_⟩⟩
  exact ⟨List.getElem_mem _, by decide, isHead_iff.mp (by decide)⟩

end DbProxy
