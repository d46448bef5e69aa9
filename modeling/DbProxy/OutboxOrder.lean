/-
Order in the outbox.

A transaction draws its order numbers while it holds the locks of their groups, and it
keeps the locks until it ends.  So the rows of a running transaction come after all
committed rows of their groups, and what a claim cannot see yet cannot come first.

* `OutboxInv` — the invariant;
* `OutboxInv.move`, `OutboxInv.insertEvent`, `OutboxInv.commit`, … — one lemma for each
  kind of step, and `step_inv` for all of them;
* `OutboxInv.prior_published`, `OutboxInv.blocked` — what has started has nothing open
  before it, committed or not.
-/
import DbProxy.OutboxSteps

namespace DbProxy

open PostgresOutboxQueue StepMachine

/-! ### The invariant -/

/-- The lease was given for this row. -/
structure LeaseFor (lease : OutboxLease) (row : OutboxRow) : Prop where
  event : lease.event = row.event
  operationId : lease.operationId = row.operationId
  tradeId : lease.tradeId = row.tradeId.getD ""
  publisherId : lease.publisherId = row.publisherId
  destination : lease.destination = row.destination

theorem LeaseFor.eventId {lease : OutboxLease} {row : OutboxRow} (h : LeaseFor lease row) :
    lease.event.eventId = row.eventId := congrArg OutboxEvent.eventId h.event

theorem LeaseFor.move {lease : OutboxLease} {row row' : OutboxRow} (h : LeaseFor lease row)
    (hsame : SameEvent row row') : LeaseFor lease row' :=
  ⟨h.event.trans hsame.event.symm, h.operationId.trans hsame.operationId.symm,
    h.tradeId.trans (congrArg (·.getD "") hsame.tradeId.symm),
    h.publisherId.trans hsame.publisherId.symm, h.destination.trans hsame.destination.symm⟩

structure OutboxInv (hash : String → ℤ) (s : OutboxSystem) : Prop where
  routes : RoutesOk s.routes
  /-- a transaction waits for the locks of its events or holds them -/
  planned : ∀ tx t, s.transactions tx = some t → ∀ event ∈ t.pending,
    ∃ lock, eventLock hash s.routes event = some lock ∧
      (lock ∈ t.waiting ∨ s.locks lock = some tx)
  /-- and holds them while its rows are uncommitted -/
  held : ∀ entry ∈ s.uncommitted, s.locks (rowLock hash entry.2) = some entry.1
  fresh : ∀ entry ∈ s.uncommitted, ¬ Started entry.2
  routeOk : ∀ row ∈ s.allRows, RouteOk row
  rowOk : ∀ row ∈ s.allRows, RowOk row
  order : ∀ row ∈ s.allRows, row.enqueueOrder ≤ s.orderSeq
  distinct : ∀ a ∈ s.allRows, ∀ b ∈ s.allRows, a.enqueueOrder = b.enqueueOrder →
    a.eventId = b.eventId
  /-- uncommitted rows come after the committed rows of their group -/
  later : ∀ row ∈ s.table.rows, ∀ entry ∈ s.uncommitted, row.group = entry.2.group →
    row.enqueueOrder < entry.2.enqueueOrder
  started : ∀ row ∈ s.table.rows, Started row → PriorPublished s.table.rows row
  issued : ∀ lease ∈ s.leases, ∃ row ∈ s.table.rows, LeaseFor lease row ∧
    PriorPublished s.table.rows row

section Steps

variable {hash : String → ℤ} {target : RowTarget} {s t : OutboxSystem}

theorem inv_init : OutboxInv hash {} := by
  refine ⟨?_, ?_, ?_, ?_, ?_, ?_, ?_, ?_, ?_, ?_, ?_⟩
  · intro topic route h
    cases h
  · intro tx t h
    cases h
  all_goals intro x h
  all_goals cases h

/-- A statement of a worker or an operator. -/
theorem OutboxInv.move (h : OutboxInv hash s) {table : OutboxTable} {leases : List OutboxLease}
    (hmove : TableMove target s.table table)
    (hleases : ∀ lease ∈ leases, lease ∈ s.leases ∨ ∃ row ∈ s.table.rows,
      LeaseFor lease row ∧ PriorPublished s.table.rows row) :
    OutboxInv hash { s with table := table, leases := leases } := by
  have hall : ∀ row' ∈ { s with table := table, leases := leases }.allRows,
      ∃ row ∈ s.allRows, SameEvent row row' ∧ (RowOk row → RowOk row') :=
    fun row' hmem => allRows_move hmove hmem
  obtain ⟨f, hrows, hf⟩ := hmove
  have hprior : ∀ row ∈ s.table.rows, PriorPublished s.table.rows row →
      PriorPublished table.rows (f row) := by
    intro row hrow hp
    rw [hrows]
    exact hp.move hf (hf row hrow).sameEvent
  refine ⟨h.routes, h.planned, h.held, h.fresh, ?_, ?_, ?_, ?_, ?_, ?_, ?_⟩
  · intro row' hmem
    obtain ⟨row, hrow, hsame, -⟩ := hall row' hmem
    exact hsame.routeOk (h.routeOk row hrow)
  · intro row' hmem
    obtain ⟨row, hrow, -, hok⟩ := hall row' hmem
    exact hok (h.rowOk row hrow)
  · intro row' hmem
    obtain ⟨row, hrow, hsame, -⟩ := hall row' hmem
    rw [hsame.enqueueOrder]
    exact h.order row hrow
  · intro a' ha' b' hb' heq
    obtain ⟨a, ha, hsame, -⟩ := hall a' ha'
    obtain ⟨b, hb, hsame', -⟩ := hall b' hb'
    rw [hsame.eventId, hsame'.eventId]
    refine h.distinct a ha b hb ?_
    rw [← hsame.enqueueOrder, ← hsame'.enqueueOrder, heq]
  · intro row' hmem entry hentry hgroup
    rw [show ({ s with table := table, leases := leases } : OutboxSystem).table.rows =
      s.table.rows.map f from hrows] at hmem
    obtain ⟨row, hrow, rfl⟩ := List.mem_map.mp hmem
    have hsame := (hf row hrow).sameEvent
    rw [hsame.enqueueOrder]
    exact h.later row hrow entry hentry (hsame.group.symm.trans hgroup)
  · intro row' hmem hstarted
    have hmem' : row' ∈ table.rows := hmem
    rw [hrows] at hmem'
    obtain ⟨row, hrow, rfl⟩ := List.mem_map.mp hmem'
    rcases (hf row hrow).started hstarted with hstarted | hhead
    · exact hprior row hrow (h.started row hrow hstarted)
    · exact hprior row hrow hhead
  · intro lease hlease
    have hrow : ∃ row ∈ s.table.rows, LeaseFor lease row ∧ PriorPublished s.table.rows row := by
      rcases hleases lease hlease with hold | hnew
      · exact h.issued lease hold
      · exact hnew
    obtain ⟨row, hrow, hfor, hp⟩ := hrow
    have hsame := (hf row hrow).sameEvent
    refine ⟨f row, ?_, hfor.move hsame, hprior row hrow hp⟩
    show f row ∈ table.rows
    rw [hrows]
    exact List.mem_map_of_mem hrow

/-- The end of a transaction, by rollback or after its rows were moved to the table. -/
theorem OutboxInv.endTransaction (h : OutboxInv hash s) (tx : ℕ) :
    OutboxInv hash (s.endTransaction tx) := by
  -- the locks of the other transactions stay
  have hlocks : ∀ lock tx', tx' ≠ tx → s.locks lock = some tx' →
      (s.endTransaction tx).locks lock = some tx' := by
    intro lock tx' hne hlock
    show (if s.locks lock = some tx then none else s.locks lock) = some tx'
    rw [if_neg, hlock]
    rw [hlock, Option.some_inj]
    exact hne
  refine ⟨h.routes, ?_, ?_, ?_, ?_, ?_, ?_, ?_, ?_, h.started, h.issued⟩
  · intro tx' t ht event hevent
    have hne : tx' ≠ tx := by
      rintro rfl
      have ht' : Function.update s.transactions tx' none tx' = some t := ht
      rw [Function.update_self] at ht'
      cases ht'
    have ht' : Function.update s.transactions tx none tx' = some t := ht
    rw [Function.update_of_ne hne] at ht'
    obtain ⟨lock, hlock, hwait | hheld⟩ := h.planned tx' t ht' event hevent
    · exact ⟨lock, hlock, Or.inl hwait⟩
    · exact ⟨lock, hlock, Or.inr (hlocks lock tx' hne hheld)⟩
  · intro entry hmem
    obtain ⟨hmem, hne⟩ := mem_endTransaction hmem
    exact hlocks _ entry.1 hne (h.held entry hmem)
  · exact fun entry hmem => h.fresh entry (mem_endTransaction hmem).1
  · exact fun row hmem => h.routeOk row (allRows_endTransaction hmem)
  · exact fun row hmem => h.rowOk row (allRows_endTransaction hmem)
  · exact fun row hmem => h.order row (allRows_endTransaction hmem)
  · exact fun a ha b hb =>
      h.distinct a (allRows_endTransaction ha) b (allRows_endTransaction hb)
  · exact fun row hrow entry hmem => h.later row hrow entry (mem_endTransaction hmem).1

/-- The sequence runs ahead. -/
theorem OutboxInv.draw (h : OutboxInv hash s) :
    OutboxInv hash { s with orderSeq := s.orderSeq + 1 } := by
  refine ⟨h.routes, h.planned, h.held, h.fresh, h.routeOk, h.rowOk, ?_, h.distinct, h.later,
    h.started, h.issued⟩
  intro row hmem
  exact Nat.le_succ_of_le (h.order row hmem)

theorem OutboxInv.setTransaction (h : OutboxInv hash s) {tx : ℕ} {t : OutboxTx}
    (ht : ∀ event ∈ t.pending, ∃ lock, eventLock hash s.routes event = some lock ∧
      (lock ∈ t.waiting ∨ s.locks lock = some tx)) :
    OutboxInv hash (s.setTransaction tx t) := by
  refine ⟨h.routes, ?_, h.held, h.fresh, h.routeOk, h.rowOk, h.order, h.distinct, h.later,
    h.started, h.issued⟩
  intro tx' t' ht' event hevent
  have ht'' : Function.update s.transactions tx (some t) tx' = some t' := ht'
  by_cases hne : tx' = tx
  · subst hne
    rw [Function.update_self] at ht''
    obtain rfl := Option.some.inj ht''
    exact ht event hevent
  · rw [Function.update_of_ne hne] at ht''
    exact h.planned tx' t' ht'' event hevent

theorem OutboxInv.takeLock (h : OutboxInv hash s) {tx : ℕ} (hstep : s.takeLock tx = some t) :
    OutboxInv hash t := by
  obtain ⟨tr, lock, waiting, htr, hwaiting, hfree, rfl⟩ := takeLock_cases hstep
  -- nobody else loses a lock
  have hkeep : ∀ lock' tx', s.locks lock' = some tx' →
      Function.update s.locks lock (some tx) lock' = some tx' := by
    intro lock' tx' hlock'
    by_cases heq : lock' = lock
    · subst heq
      rw [Function.update_self]
      rcases hfree with hfree | hfree
      · rw [hfree] at hlock'
        cases hlock'
      · exact hfree.symm.trans hlock'
    · rw [Function.update_of_ne heq]
      exact hlock'
  have hlocked : OutboxInv hash { s with locks := Function.update s.locks lock (some tx) } := by
    refine ⟨h.routes, ?_, fun entry hmem => hkeep _ _ (h.held entry hmem), h.fresh, h.routeOk,
      h.rowOk, h.order, h.distinct, h.later, h.started, h.issued⟩
    intro tx' t' ht' event hevent
    obtain ⟨l, hl, hwait | hheld⟩ := h.planned tx' t' ht' event hevent
    · exact ⟨l, hl, Or.inl hwait⟩
    · exact ⟨l, hl, Or.inr (hkeep l tx' hheld)⟩
  refine hlocked.setTransaction fun event hevent => ?_
  obtain ⟨l, hl, hwait | hheld⟩ := h.planned tx tr htr event hevent
  · rw [hwaiting] at hwait
    rcases List.mem_cons.mp hwait with rfl | hwait
    · exact ⟨l, hl, Or.inr (Function.update_self ..)⟩
    · exact ⟨l, hl, Or.inl hwait⟩
  · exact ⟨l, hl, Or.inr (hkeep l tx hheld)⟩

/-- A row that is inserted under its lock. -/
theorem OutboxInv.insertRow (h : OutboxInv hash s) {tx : ℕ} {event : OutboxEvent}
    {row : OutboxRow} (hnew : NewRow hash s.routes event (s.orderSeq + 1) row)
    (hlock : s.locks (rowLock hash row) = some tx) :
    OutboxInv hash { s with orderSeq := s.orderSeq + 1,
                            uncommitted := s.uncommitted ++ [(tx, row)] } := by
  have hentry : ∀ entry ∈ s.uncommitted ++ [(tx, row)],
      entry ∈ s.uncommitted ∨ entry = (tx, row) := by
    intro entry hmem
    rcases List.mem_append.mp hmem with hmem | hmem
    · exact Or.inl hmem
    · exact Or.inr (List.mem_singleton.mp hmem)
  have horder := hnew.enqueueOrder
  refine ⟨h.routes, h.planned, ?_, ?_, ?_, ?_, ?_, ?_, ?_, h.started, h.issued⟩
  · intro entry hmem
    rcases hentry entry hmem with hmem | rfl
    · exact h.held entry hmem
    · exact hlock
  · intro entry hmem
    rcases hentry entry hmem with hmem | rfl
    · exact h.fresh entry hmem
    · exact hnew.notStarted
  · intro row' hmem
    rcases allRows_insert hmem with hmem | rfl
    · exact h.routeOk row' hmem
    · exact hnew.routeOk h.routes
  · intro row' hmem
    rcases allRows_insert hmem with hmem | rfl
    · exact h.rowOk row' hmem
    · exact hnew.rowOk
  · intro row' hmem
    show row'.enqueueOrder ≤ s.orderSeq + 1
    rcases allRows_insert hmem with hmem | rfl
    · exact Nat.le_succ_of_le (h.order row' hmem)
    · exact horder.le
  · -- the new number is greater than all others
    intro a ha b hb heq
    rcases allRows_insert ha with hold | rfl <;> rcases allRows_insert hb with hold' | rfl
    · exact h.distinct a hold b hold' heq
    · have := h.order a hold
      omega
    · have := h.order b hold'
      omega
    · rfl
  · intro row' hrow' entry hmem hgroup
    rcases hentry entry hmem with hmem | rfl
    · exact h.later row' hrow' entry hmem hgroup
    · have := h.order row' (mem_allRows.mpr (Or.inl hrow'))
      show row'.enqueueOrder < row.enqueueOrder
      omega

theorem OutboxInv.insertEvent (h : OutboxInv hash s) {tx now : ℕ}
    (hstep : s.insertEvent tx now = some t) : OutboxInv hash t := by
  rcases insertEvent_cases hash hstep with
    rfl | ⟨tr, event, pending, row, htr, hwaiting, hpending, hnew, rfl⟩
  · exact h.draw.endTransaction tx
  -- all locks are taken, so the lock of this row is held
  have hlock : s.locks (rowLock hash row) = some tx := by
    obtain ⟨lock, hlock, hwait | hheld⟩ := h.planned tx tr htr event
      (hpending ▸ List.mem_cons_self ..)
    · rw [hwaiting] at hwait
      cases hwait
    · rw [hnew.lock, Option.some_inj] at hlock
      rw [hlock]
      exact hheld
  refine (h.insertRow hnew hlock).setTransaction fun event' hevent' => ?_
  have hevent'' : event' ∈ tr.pending := hpending ▸ List.mem_cons_of_mem _ hevent'
  exact h.planned tx tr htr event' hevent''

/-- The rows of a transaction become visible.  No other transaction has rows of these groups:
it would hold the same lock. -/
theorem OutboxInv.commit (h : OutboxInv hash s) {tx : ℕ}
    (hstep : s.commitTransaction tx = some t) : OutboxInv hash t := by
  obtain ⟨table, rfl, hold, hown⟩ := commit_cases hstep
  have hall : ∀ row ∈ ({ s with table := table }.endTransaction tx).allRows, row ∈ s.allRows :=
    fun row hmem => allRows_commit hown hmem
  -- new rows come after the rows that were there
  have hprior : ∀ row ∈ s.table.rows, PriorPublished s.table.rows row →
      PriorPublished table.rows row := by
    intro row hrow hp prior hmem hgroup hlt
    rcases hown prior hmem with hold' | ⟨entry, hnew, -, rfl⟩
    · exact hp prior hold' hgroup hlt
    · have := h.later row hrow entry hnew hgroup.symm
      omega
  have hend := h.endTransaction tx
  refine ⟨h.routes, hend.planned, hend.held, hend.fresh,
    fun row hmem => h.routeOk row (hall row hmem), fun row hmem => h.rowOk row (hall row hmem),
    fun row hmem => h.order row (hall row hmem),
    fun a ha b hb => h.distinct a (hall a ha) b (hall b hb), ?_, ?_, ?_⟩
  · intro row hrow entry hmem hgroup
    obtain ⟨hmem, hne⟩ := mem_endTransaction hmem
    rcases hown row hrow with hrow | ⟨own, hown', htx, rfl⟩
    · exact h.later row hrow entry hmem hgroup
    · have hroute := h.routeOk _ (mem_allRows.mpr (Or.inr ⟨own, hown', rfl⟩))
      have hroute' := h.routeOk _ (mem_allRows.mpr (Or.inr ⟨entry, hmem, rfl⟩))
      have hlock := h.held own hown'
      rw [rowLock_eq_of_group hroute hroute' hgroup, h.held entry hmem, Option.some_inj] at hlock
      exact absurd (hlock.trans htx) hne
  · intro row hrow hstarted
    rcases hown row hrow with hrow | ⟨own, hown', -, rfl⟩
    · exact hprior row hrow (h.started row hrow hstarted)
    · exact absurd hstarted (h.fresh own hown')
  · intro lease hlease
    obtain ⟨row, hrow, hfor, hp⟩ := h.issued lease hlease
    exact ⟨row, hold row hrow, hfor, hprior row hrow hp⟩

variable {decode : Bytes → Option EventEnvelope} {action : OutboxAction}

theorem OutboxInv.registerRoutes (h : OutboxInv hash s) {r : OutboxRoutes}
    (hgrows : RoutesGrow s.routes r) (hok : RoutesOk r) :
    OutboxInv hash { s with routes := r } := by
  refine ⟨hok, ?_, h.held, h.fresh, h.routeOk, h.rowOk, h.order, h.distinct, h.later, h.started,
    h.issued⟩
  intro tx t ht event hevent
  obtain ⟨lock, hlock, hheld⟩ := h.planned tx t ht event hevent
  exact ⟨lock, hgrows.eventLock hlock, hheld⟩

theorem OutboxInv.begin (h : OutboxInv hash s) {tx : ℕ} {tr : OutboxTx}
    (hkeys : ∀ event ∈ tr.pending, ∃ lock, eventLock hash s.routes event = some lock ∧
      lock ∈ tr.waiting) : OutboxInv hash (s.setTransaction tx tr) := by
  refine h.setTransaction fun event hevent => ?_
  obtain ⟨lock, hlock, hmem⟩ := hkeys event hevent
  exact ⟨lock, hlock, Or.inl hmem⟩

theorem OutboxInv.routesAfter (h : OutboxInv hash s) {result : Except StorageError OutboxRoutes}
    (hresult : ∀ r, result = .ok r → RoutesGrow s.routes r ∧ (RoutesOk s.routes → RoutesOk r)) :
    OutboxInv hash (s.routesAfter result) := by
  cases result with
  | error e => exact h
  | ok r =>
    obtain ⟨hgrows, hok⟩ := hresult r rfl
    exact h.registerRoutes hgrows (hok h.routes)

theorem OutboxInv.tableAfter (h : OutboxInv hash s)
    {result : Except StorageError (Bool × OutboxTable)}
    (hresult : ∀ b table, result = .ok (b, table) → TableMove target s.table table) :
    OutboxInv hash (s.tableAfter result) := by
  cases result with
  | error e => exact h
  | ok v => exact h.move (hresult v.1 v.2 rfl) fun lease hmem => Or.inl hmem

/-- A lease is given for a row at the head of its group. -/
theorem OutboxInv.claimAfter (h : OutboxInv hash s) {workerId : String} {leaseMs : ℕ}
    {publisher : Option String} {maximum : ℕ} {locked : String → Bool} {clock : ClaimClock} :
    OutboxInv hash (s.claimAfter
      (claimBatch workerId leaseMs publisher maximum locked clock s.table)) := by
  cases hclaim : claimBatch workerId leaseMs publisher maximum locked clock s.table with
  | error e => exact h
  | ok v =>
    obtain ⟨hmove, hissued⟩ := claimBatch_ok hclaim
    refine h.move hmove fun lease hmem => ?_
    rcases List.mem_append.mp hmem with hmem | hmem
    · obtain ⟨row, hrow, rfl, -, hp, -⟩ := hissued lease hmem
      exact Or.inr ⟨row, hrow, ⟨rfl, rfl, rfl, rfl, rfl⟩, hp⟩
    · exact Or.inl hmem

/-- **Step lemma.** -/
theorem step_inv (h : OutboxInv hash s) (hstep : s.step decode hash action = some t) :
    OutboxInv hash t := by
  cases action with
  | registerPublisher id fingerprint =>
    obtain rfl := Option.some.inj hstep
    exact h.routesAfter fun r => registerPublisher_grows
  | registerRoute route =>
    obtain rfl := Option.some.inj hstep
    exact h.routesAfter fun r => registerRoute_grows
  | beginCommit tx operationId effects =>
    obtain ⟨keys, events, hkeys, rfl⟩ := beginCommit_cases hstep
    exact h.begin fun event hmem => eventLock_of_commit h.routes hkeys hmem
  | beginTrade tx request =>
    obtain ⟨events, tr, htopics, hwaiting, hpending, rfl⟩ := beginTrade_cases hstep
    refine h.begin fun event hmem => ?_
    rw [hpending] at hmem
    rw [hwaiting]
    exact eventLock_of_trade (htopics event hmem) hmem
  | takeLock tx => exact h.takeLock hstep
  | insertEvent tx now => exact h.insertEvent hstep
  | commit tx => exact h.commit hstep
  | abort tx =>
    obtain ⟨-, hstep⟩ := Option.ite_none_right_eq_some.mp hstep
    obtain rfl := Option.some.inj hstep
    exact h.endTransaction tx
  | claim workerId leaseMs publisher maximum locked clock =>
    obtain rfl := Option.some.inj hstep
    exact h.claimAfter
  | acknowledge lease checked clock =>
    obtain ⟨-, hstep⟩ := Option.ite_none_right_eq_some.mp hstep
    obtain rfl := Option.some.inj hstep
    exact h.move (acknowledge_moves ..) fun lease hmem => Or.inl hmem
  | fail lease error retryDelayMs maxAttempts checked clock =>
    obtain ⟨-, hstep⟩ := Option.ite_none_right_eq_some.mp hstep
    obtain rfl := Option.some.inj hstep
    exact h.tableAfter fun _ _ => fail_moves
  | retryDeadLetter eventId operator reason checked clock =>
    obtain rfl := Option.some.inj hstep
    exact h.tableAfter fun _ _ => retryDeadLetter_moves

/-! ### Consequences -/

/-- Everything before a started row is published; an uncommitted row is not before it. -/
theorem OutboxInv.prior_published (h : OutboxInv hash s) {row earlier : OutboxRow}
    (hrow : row ∈ s.table.rows) (hstarted : Started row) (hearlier : earlier ∈ s.allRows)
    (hgroup : earlier.group = row.group) (hlt : earlier.enqueueOrder < row.enqueueOrder) :
    earlier.publishedAt.isSome := by
  rcases mem_allRows.mp hearlier with hmem | ⟨entry, hmem, rfl⟩
  · exact h.started row hrow hstarted earlier hmem hgroup hlt
  · have := h.later row hrow entry hmem hgroup.symm
    omega

/-- Behind an open row nothing is leased or published. -/
theorem OutboxInv.blocked (h : OutboxInv hash s) {row later : OutboxRow}
    (hrow : row ∈ s.table.rows) (hopen : row.publishedAt = none) (hlater : later ∈ s.allRows)
    (hgroup : later.group = row.group) (hlt : row.enqueueOrder < later.enqueueOrder) :
    later.leaseUntil = none ∧ later.publishedAt = none := by
  have hnot : ¬ Started later := by
    intro hstarted
    rcases mem_allRows.mp hlater with hmem | ⟨entry, hmem, rfl⟩
    · have hsome := h.started later hmem hstarted row hrow hgroup.symm hlt
      rw [hopen] at hsome
      cases hsome
    · exact h.fresh entry hmem hstarted
  rw [Started, not_or, Option.not_isSome_iff_eq_none, Option.not_isSome_iff_eq_none] at hnot
  exact hnot

/-- Two leases of one group are one. -/
theorem OutboxInv.eq_of_leased (h : OutboxInv hash s) {a b : OutboxRow} (ha : a ∈ s.table.rows)
    (hb : b ∈ s.table.rows) (hgroup : a.group = b.group) (hla : a.leaseUntil.isSome)
    (hlb : b.leaseUntil.isSome) : a = b := by
  have hopen : ∀ row ∈ s.table.rows, row.leaseUntil.isSome → row.publishedAt = none := by
    intro row hrow hlease
    by_contra hp
    have hok := h.rowOk row (mem_allRows.mpr (Or.inl hrow))
    rw [(hok.published (Option.isSome_iff_ne_none.mpr hp)).1] at hlease
    cases hlease
  -- the earlier one would be published
  have hnot : ∀ x ∈ s.table.rows, ∀ y ∈ s.table.rows, x.group = y.group → x.leaseUntil.isSome →
      y.leaseUntil.isSome → ¬ x.enqueueOrder < y.enqueueOrder := by
    intro x hx y hy hgroup hlx hly hlt
    have hsome := h.started y hy (Or.inl hly) x hx hgroup hlt
    rw [hopen x hx hlx] at hsome
    cases hsome
  have hle := hnot a ha b hb hgroup hla hlb
  have hge := hnot b hb a ha hgroup.symm hlb hla
  refine KeyedTable.eq_of_key ha hb ?_
  exact h.distinct a (mem_allRows.mpr (Or.inl ha)) b (mem_allRows.mpr (Or.inl hb)) (by omega)

end Steps

end DbProxy
