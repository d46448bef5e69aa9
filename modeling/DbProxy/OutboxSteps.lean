/-
What a step of the outbox can do.

* `SameEvent` — the columns that never change, and `RowMove.sameEvent`,
  `RowMove.eq_of_published`, `RowMove.started`, `RowMove.rowOk` for the statements on rows;
* `takeLock_cases`, `insertEvent_cases`, `commit_cases`, `begin_cases` — the steps of a
  transaction;
* `step_rows` — where the rows after a step come from, and what stays.
-/
import DbProxy.OutboxSystem

namespace DbProxy

open PostgresOutboxQueue

/-! ### Rows that move -/

/-- Leased or published. -/
def Started (row : OutboxRow) : Prop := row.leaseUntil.isSome ∨ row.publishedAt.isSome

/-- A published row has no lease and is no dead letter, and a dead letter has no lease. -/
structure RowOk (row : OutboxRow) : Prop where
  published : row.publishedAt.isSome → row.leaseUntil = none ∧ row.deadLetteredAt = none
  dead : row.deadLetteredAt.isSome → row.leaseUntil = none

/-- The columns that never change. -/
structure SameEvent (row row' : OutboxRow) : Prop where
  event : row'.event = row.event
  operationId : row'.operationId = row.operationId
  tradeId : row'.tradeId = row.tradeId
  group : row'.group = row.group
  enqueueOrder : row'.enqueueOrder = row.enqueueOrder

namespace SameEvent

theorem refl (row : OutboxRow) : SameEvent row row := ⟨rfl, rfl, rfl, rfl, rfl⟩

theorem trans {a b c : OutboxRow} (h : SameEvent a b) (h' : SameEvent b c) : SameEvent a c :=
  ⟨h'.event.trans h.event, h'.operationId.trans h.operationId, h'.tradeId.trans h.tradeId,
    h'.group.trans h.group, h'.enqueueOrder.trans h.enqueueOrder⟩

variable {row row' : OutboxRow} (h : SameEvent row row')
include h

theorem eventId : row'.eventId = row.eventId := congrArg OutboxEvent.eventId h.event

theorem topic : row'.topic = row.topic := congrArg OutboxEvent.topic h.event

theorem publisherId : row'.publisherId = row.publisherId :=
  congrArg OutboxGroup.publisherId h.group

theorem destination : row'.destination = row.destination :=
  congrArg OutboxGroup.destination h.group

theorem routeOk (hok : RouteOk row) : RouteOk row' := by
  intro hlegacy
  rw [h.destination, h.topic]
  exact hok (h.publisherId.symm.trans hlegacy)

end SameEvent

section Moves

variable {target : RowTarget} {rows : List OutboxRow} {row row' : OutboxRow}

theorem RowMove.sameEvent (h : RowMove target rows row row') : SameEvent row row' := by
  cases h with
  | keep => exact .refl row
  | grant => exact ⟨rfl, rfl, rfl, rfl, rfl⟩
  | publish => exact ⟨rfl, rfl, rfl, rfl, rfl⟩
  | fail => exact ⟨rfl, rfl, rfl, rfl, rfl⟩
  | requeue => exact ⟨rfl, rfl, rfl, rfl, rfl⟩

/-- Nothing touches a published row. -/
theorem RowMove.eq_of_published (h : RowMove target rows row row') (hp : row.publishedAt.isSome) :
    row' = row := by
  have hclosed : row.publishedAt ≠ none := Option.isSome_iff_ne_none.mp hp
  cases h with
  | keep => rfl
  | grant _ _ _ hopen => exact absurd hopen hclosed
  | publish _ hopen => exact absurd hopen hclosed
  | fail _ _ _ _ hopen => exact absurd hopen hclosed
  | requeue _ hopen => exact absurd hopen hclosed

/-- Only an acknowledgement publishes. -/
theorem RowMove.published (h : RowMove target rows row row') (hp : row'.publishedAt.isSome) :
    row.publishedAt.isSome ∨ target = .acknowledged row'.eventId := by
  cases h with
  | keep => exact Or.inl hp
  | grant => exact Or.inl hp
  | publish _ _ _ hid => exact Or.inr hid
  | fail => exact Or.inl hp
  | requeue => exact Or.inl hp

/-- A row starts only when its group waits for nothing else. -/
theorem RowMove.started (h : RowMove target rows row row') (hs : Started row') :
    Started row ∨ PriorPublished rows row := by
  cases h with
  | keep => exact Or.inl hs
  | grant _ _ _ _ _ hhead => exact Or.inr hhead
  | publish _ _ hlease => exact Or.inl (Or.inl hlease)
  | fail _ _ _ _ _ hlease => exact Or.inl (Or.inl hlease)
  | requeue clock hopen =>
    rcases hs with hs | hs
    · cases hs
    · exact Or.inl (Or.inr hs)

theorem RowMove.rowOk (h : RowMove target rows row row') (hok : RowOk row) : RowOk row' := by
  cases h with
  | keep => exact hok
  | grant workerId leaseMs clock hopen hlive =>
    refine ⟨fun hp => ?_, fun hd => ?_⟩
    · have hp' : row.publishedAt.isSome := hp
      rw [hopen] at hp'
      cases hp'
    · have hd' : row.deadLetteredAt.isSome := hd
      rw [hlive] at hd'
      cases hd'
  | publish clock hopen hlease =>
    refine ⟨fun _ => ⟨rfl, ?_⟩, fun _ => rfl⟩
    -- a leased row is no dead letter
    show row.deadLetteredAt = none
    by_contra hdead
    rw [hok.dead (Option.isSome_iff_ne_none.mpr hdead)] at hlease
    cases hlease
  | fail error delay maxAttempts clock hopen =>
    refine ⟨fun hp => ?_, fun _ => rfl⟩
    have hp' : row.publishedAt.isSome := hp
    rw [hopen] at hp'
    cases hp'
  | requeue clock hopen =>
    exact ⟨fun _ => ⟨rfl, rfl⟩, fun _ => rfl⟩

/-- What comes before stays published. -/
theorem PriorPublished.move {f : OutboxRow → OutboxRow} (h : PriorPublished rows row)
    (hf : ∀ row ∈ rows, RowMove target rows row (f row)) (hsame : SameEvent row row') :
    PriorPublished (rows.map f) row' := by
  intro prior' hmem hgroup hlt
  obtain ⟨prior, hprior, rfl⟩ := List.mem_map.mp hmem
  have hmove := hf prior hprior
  have hsame' := hmove.sameEvent
  have hpublished : prior.publishedAt.isSome := by
    refine h prior hprior ?_ ?_
    · exact hsame'.group.symm.trans (hgroup.trans hsame.group)
    · rw [← hsame'.enqueueOrder, ← hsame.enqueueOrder]
      exact hlt
  rw [hmove.eq_of_published hpublished]
  exact hpublished

end Moves

/-! ### Steps of a transaction -/

namespace OutboxSystem

/-- Committed and uncommitted rows. -/
def allRows (s : OutboxSystem) : List OutboxRow := s.table.rows ++ s.uncommitted.map (·.2)

end OutboxSystem

/-- A new row is open, has the next order number and the lock of its event. -/
structure NewRow (hash : String → ℤ) (r : OutboxRoutes) (event : OutboxEvent) (order : ℕ)
    (row : OutboxRow) : Prop where
  eventId : row.eventId = event.eventId
  enqueueOrder : row.enqueueOrder = order
  notStarted : ¬ Started row
  rowOk : RowOk row
  routeOk : RoutesOk r → RouteOk row
  lock : eventLock hash r event = some (rowLock hash row)

theorem newRow_ok {hash : String → ℤ} {tr : OutboxTx} {event : OutboxEvent} {now order : ℕ} {r : OutboxRoutes}
    {row : OutboxRow} (h : OutboxSystem.newRow tr event now order r = .ok row) :
    NewRow hash r event order row := by
  rw [OutboxSystem.newRow] at h
  split at h
  · split at h
    · cases h
    · cases h
  obtain ⟨⟨producer, publisher, destination⟩, hresolve, h⟩ := Checks.bind_eq_ok.mp h
  obtain rfl := Except.ok.inj h
  refine ⟨rfl, rfl, ?_, ⟨fun hp => ?_, fun _ => rfl⟩, ?_, ?_⟩
  · rintro (hs | hs)
    · cases hs
    · cases hs
  · cases hp
  · -- the route of a relay event does not use the legacy publisher
    intro hroutes hlegacy
    rw [resolveOutboxRoute] at hresolve
    split at hresolve
    · split at hresolve
      · cases hresolve
      · rename_i route hroute
        obtain ⟨-, rfl, -⟩ : _ ∧ _ ∧ _ := by simpa using hresolve
        exact absurd hlegacy (hroutes _ _ hroute)
    · obtain ⟨-, -, rfl⟩ : _ ∧ _ ∧ _ := by simpa using hresolve
      rfl
  · rw [eventLock, hresolve]
    rfl

def OutboxAction.target : OutboxAction → RowTarget
  | .acknowledge lease .. => .acknowledged lease.event.eventId
  | .retryDeadLetter eventId .. => .retried eventId
  | _ => .any

section Steps

variable {decode : Bytes → Option EventEnvelope} {hash : String → ℤ} {target : RowTarget}
  {s t : OutboxSystem} {tx : ℕ}

theorem mem_allRows {row : OutboxRow} : row ∈ s.allRows ↔
    row ∈ s.table.rows ∨ ∃ entry ∈ s.uncommitted, entry.2 = row := by
  rw [OutboxSystem.allRows, List.mem_append, List.mem_map]

theorem begin_cases {operationId : String} {tradeId : Option String} {keys : List String}
    {events : List OutboxEvent}
    (hstep : s.beginTransaction hash tx operationId tradeId keys events = some t) :
    s.setTransaction tx ⟨operationId, tradeId, keys.map hash, events⟩ = t := by
  obtain ⟨-, hstep⟩ := Option.ite_none_left_eq_some.mp hstep
  exact Option.some.inj hstep

theorem beginCommit_cases {operationId : String} {effects : CommitEffects}
    (hstep : s.beginCommit decode hash tx operationId effects = some t) :
    ∃ keys events, lockPartitions decode s.routes events = .ok keys ∧
      s.setTransaction tx ⟨operationId, none, keys.map hash, events⟩ = t := by
  rw [OutboxSystem.beginCommit] at hstep
  split at hstep
  · cases hstep
  split at hstep
  · cases hstep
  · rename_i keys hkeys
    exact ⟨keys, _, hkeys, begin_cases hstep⟩

theorem beginTrade_cases {request : TradeTransaction}
    (hstep : s.beginTrade hash tx request = some t) :
    ∃ events tr, (∀ event ∈ events, isRelayTopic event.topic = false) ∧
      tr.waiting = (tradeLocks events).map hash ∧ tr.pending = events ∧
      s.setTransaction tx tr = t := by
  rw [OutboxSystem.beginTrade] at hstep
  split at hstep
  · cases hstep
  · rename_i normal hnormal
    exact ⟨_, _, (normalizeTrade_ok hnormal).1.topics, rfl, rfl, begin_cases hstep⟩

theorem takeLock_cases (hstep : s.takeLock tx = some t) :
    ∃ tr lock waiting, s.transactions tx = some tr ∧ tr.waiting = lock :: waiting ∧
      (s.locks lock = none ∨ s.locks lock = some tx) ∧
      { s with locks := Function.update s.locks lock (some tx) }.setTransaction tx
        { tr with waiting := waiting } = t := by
  rw [OutboxSystem.takeLock] at hstep
  split at hstep
  · cases hstep
  rename_i tr htr
  split at hstep
  · cases hstep
  rename_i lock waiting hwaiting
  rw [Option.ite_none_right_eq_some, Option.some_inj] at hstep
  exact ⟨tr, lock, waiting, htr, hwaiting, hstep⟩

/-- The transaction is rolled back, or has a new row. -/
theorem insertEvent_cases (hash : String → ℤ) {now : ℕ} (hstep : s.insertEvent tx now = some t) :
    { s with orderSeq := s.orderSeq + 1 }.endTransaction tx = t ∨
    ∃ tr event pending row, s.transactions tx = some tr ∧ tr.waiting = [] ∧
      tr.pending = event :: pending ∧ NewRow hash s.routes event (s.orderSeq + 1) row ∧
      { s with orderSeq := s.orderSeq + 1,
               uncommitted := s.uncommitted ++ [(tx, row)] }.setTransaction tx
        { tr with pending := pending } = t := by
  rw [OutboxSystem.insertEvent] at hstep
  split at hstep
  · cases hstep
  rename_i tr htr
  split at hstep
  · rename_i event pending hwaiting hpending
    split at hstep
    · cases hstep
    dsimp only at hstep
    split at hstep
    · exact Or.inl (Option.some.inj hstep)
    rename_i row hrow
    split at hstep
    · exact Or.inl (Option.some.inj hstep)
    · exact Or.inr ⟨tr, event, pending, row, htr, hwaiting, hpending, newRow_ok hrow,
        Option.some.inj hstep⟩
  · cases hstep

/-- The rows of the transaction are added to the table. -/
theorem commit_cases (hstep : s.commitTransaction tx = some t) :
    ∃ table : OutboxTable, { s with table := table }.endTransaction tx = t ∧
      (∀ row ∈ s.table.rows, row ∈ table.rows) ∧
      ∀ row ∈ table.rows, row ∈ s.table.rows ∨
        ∃ entry ∈ s.uncommitted, entry.1 = tx ∧ entry.2 = row := by
  rw [OutboxSystem.commitTransaction] at hstep
  split at hstep
  · cases hstep
  rw [Option.ite_none_right_eq_some, Option.map_eq_some_iff] at hstep
  obtain ⟨-, table, htable, rfl⟩ := hstep
  have hrows := KeyedTable.rows_tryInsertAll htable
  refine ⟨table, rfl, fun row hmem => ?_, fun row hmem => ?_⟩
  · rw [hrows]
    exact List.mem_append_left _ hmem
  · rw [hrows, List.mem_append, List.mem_map] at hmem
    rcases hmem with hmem | ⟨entry, hmem, rfl⟩
    · exact Or.inl hmem
    · obtain ⟨hmem, htx⟩ := List.mem_filter.mp hmem
      exact Or.inr ⟨entry, hmem, by simpa using htx, rfl⟩

/-- What is left of the uncommitted rows when a transaction ends. -/
theorem mem_endTransaction {entry : ℕ × OutboxRow}
    (hmem : entry ∈ (s.endTransaction tx).uncommitted) : entry ∈ s.uncommitted ∧ entry.1 ≠ tx := by
  obtain ⟨hmem, hne⟩ := List.mem_filter.mp hmem
  exact ⟨hmem, by simpa using hne⟩

/-! ### Where rows come from -/

theorem allRows_move {table : OutboxTable} {leases : List OutboxLease}
    (hmove : TableMove target s.table table) {row' : OutboxRow}
    (hmem : row' ∈ { s with table := table, leases := leases }.allRows) :
    ∃ row ∈ s.allRows, SameEvent row row' ∧ (RowOk row → RowOk row') := by
  obtain ⟨f, hrows, hf⟩ := hmove
  rcases mem_allRows.mp hmem with hmem | ⟨entry, hentry, rfl⟩
  · have hmem' : row' ∈ table.rows := hmem
    rw [hrows] at hmem'
    obtain ⟨row, hrow, rfl⟩ := List.mem_map.mp hmem'
    have hm := hf row hrow
    exact ⟨row, mem_allRows.mpr (Or.inl hrow), hm.sameEvent, hm.rowOk⟩
  · exact ⟨entry.2, mem_allRows.mpr (Or.inr ⟨entry, hentry, rfl⟩), .refl _, id⟩

theorem allRows_endTransaction {row : OutboxRow} (hmem : row ∈ (s.endTransaction tx).allRows) :
    row ∈ s.allRows := by
  rcases mem_allRows.mp hmem with hrow | ⟨entry, hentry, rfl⟩
  · exact mem_allRows.mpr (Or.inl hrow)
  · exact mem_allRows.mpr (Or.inr ⟨entry, (mem_endTransaction hentry).1, rfl⟩)

theorem allRows_commit {table : OutboxTable} {row : OutboxRow}
    (hown : ∀ row ∈ table.rows, row ∈ s.table.rows ∨
      ∃ entry ∈ s.uncommitted, entry.1 = tx ∧ entry.2 = row)
    (hmem : row ∈ ({ s with table := table }.endTransaction tx).allRows) : row ∈ s.allRows := by
  rcases mem_allRows.mp (allRows_endTransaction hmem) with hrow | hentry
  · rcases hown row hrow with hrow | ⟨entry, hentry, -, rfl⟩
    · exact mem_allRows.mpr (Or.inl hrow)
    · exact mem_allRows.mpr (Or.inr ⟨entry, hentry, rfl⟩)
  · exact mem_allRows.mpr (Or.inr hentry)

theorem allRows_insert {n : ℕ} {row row' : OutboxRow}
    (hmem : row' ∈ { s with orderSeq := n,
                            uncommitted := s.uncommitted ++ [(tx, row)] }.allRows) :
    row' ∈ s.allRows ∨ row' = row := by
  rcases mem_allRows.mp hmem with hold | ⟨entry, hentry, rfl⟩
  · exact Or.inl (mem_allRows.mpr (Or.inl hold))
  · rcases List.mem_append.mp hentry with hentry | hentry
    · exact Or.inl (mem_allRows.mpr (Or.inr ⟨entry, hentry, rfl⟩))
    · rw [List.mem_singleton.mp hentry]
      exact Or.inr rfl

/-- What a step does to the committed rows: they move, or rows are added. -/
def TableStep (target : RowTarget) (table table' : OutboxTable) : Prop :=
  TableMove target table table' ∨ ∀ row ∈ table.rows, row ∈ table'.rows

/-- Committed rows stay, and a row that was not there has a new order number. -/
structure OutboxStep (target : RowTarget) (s t : OutboxSystem) : Prop where
  table : TableStep target s.table t.table
  rows : ∀ row' ∈ t.allRows, (∃ row ∈ s.allRows, SameEvent row row') ∨
    s.orderSeq < row'.enqueueOrder
  published : ∀ row' ∈ t.table.rows, row'.publishedAt.isSome →
    (∃ row ∈ s.allRows, row.publishedAt.isSome ∧ SameEvent row row') ∨
      target = .acknowledged row'.eventId
  leases : ∀ lease ∈ s.leases, lease ∈ t.leases

namespace OutboxStep

/-- A step that leaves rows and leases alone. -/
theorem same (htable : t.table = s.table) (hrows : ∀ row ∈ t.allRows, row ∈ s.allRows)
    (hleases : t.leases = s.leases) : OutboxStep target s t := by
  refine ⟨?_, fun row' hmem => Or.inl ⟨row', hrows row' hmem, .refl row'⟩, ?_, ?_⟩
  · rw [htable]
    exact Or.inl (TableMove.refl _)
  · intro row' hmem hp
    exact Or.inl ⟨row', hrows row' (mem_allRows.mpr (Or.inl hmem)), hp, .refl row'⟩
  · intro lease hmem
    rw [hleases]
    exact hmem

theorem move {table : OutboxTable} {leases : List OutboxLease}
    (hmove : TableMove target s.table table) (hleases : ∀ lease ∈ s.leases, lease ∈ leases) :
    OutboxStep target s { s with table := table, leases := leases } := by
  refine ⟨Or.inl hmove, fun row' hmem => ?_, fun row' hmem hp => ?_, hleases⟩
  · obtain ⟨row, hrow, hsame, -⟩ := allRows_move hmove hmem
    exact Or.inl ⟨row, hrow, hsame⟩
  · obtain ⟨f, hrows, hf⟩ := hmove
    have hmem' : row' ∈ table.rows := hmem
    rw [hrows] at hmem'
    obtain ⟨row, hrow, rfl⟩ := List.mem_map.mp hmem'
    rcases (hf row hrow).published hp with hp | htarget
    · exact Or.inl ⟨row, mem_allRows.mpr (Or.inl hrow), hp, (hf row hrow).sameEvent⟩
    · exact Or.inr htarget

theorem endTransaction {n : ℕ} :
    OutboxStep target s ({ s with orderSeq := n }.endTransaction tx) :=
  same rfl (fun _ hmem => allRows_endTransaction (s := { s with orderSeq := n }) hmem) rfl

theorem insertEvent {now : ℕ} (hstep : s.insertEvent tx now = some t) : OutboxStep target s t := by
  -- the lock of the new row does not matter here
  rcases insertEvent_cases (fun _ => 0) hstep with
    rfl | ⟨tr, event, pending, row, -, -, -, hnew, rfl⟩
  · exact endTransaction
  · refine ⟨Or.inl (TableMove.refl _), fun row' hmem => ?_, fun row' hmem hp => ?_,
      fun _ hmem => hmem⟩
    · rcases allRows_insert (s := s) (n := s.orderSeq + 1) hmem with hold | rfl
      · exact Or.inl ⟨row', hold, .refl row'⟩
      · right
        rw [hnew.enqueueOrder]
        exact Nat.lt_succ_self _
    · exact Or.inl ⟨row', mem_allRows.mpr (Or.inl hmem), hp, .refl row'⟩

theorem commit (hstep : s.commitTransaction tx = some t) : OutboxStep target s t := by
  obtain ⟨table, rfl, hold, hown⟩ := commit_cases hstep
  have hall : ∀ row ∈ ({ s with table := table }.endTransaction tx).allRows, row ∈ s.allRows :=
    fun row hmem => allRows_commit hown hmem
  refine ⟨Or.inr hold, fun row' hmem => Or.inl ⟨row', hall row' hmem, .refl row'⟩,
    fun row' hmem hp => ?_, fun _ hmem => hmem⟩
  exact Or.inl ⟨row', hall row' (mem_allRows.mpr (Or.inl hmem)), hp, .refl row'⟩

theorem routesAfter {result : Except StorageError OutboxRoutes} :
    OutboxStep target s (s.routesAfter result) := by
  cases result with
  | error e => exact same rfl (fun _ h => h) rfl
  | ok r => exact same rfl (fun _ h => h) rfl

theorem tableAfter {result : Except StorageError (Bool × OutboxTable)}
    (hresult : ∀ b table, result = .ok (b, table) → TableMove target s.table table) :
    OutboxStep target s (s.tableAfter result) := by
  cases result with
  | error e => exact same rfl (fun _ h => h) rfl
  | ok v => exact move (hresult v.1 v.2 rfl) fun _ hmem => hmem

theorem claimAfter {workerId : String} {leaseMs : ℕ} {publisher : Option String} {maximum : ℕ}
    {locked : String → Bool} {clock : ClaimClock} :
    OutboxStep .any s (s.claimAfter
      (claimBatch workerId leaseMs publisher maximum locked clock s.table)) := by
  cases hclaim : claimBatch workerId leaseMs publisher maximum locked clock s.table with
  | error e => exact same rfl (fun _ h => h) rfl
  | ok v =>
    exact move (claimBatch_ok hclaim).1 fun _ hmem => List.mem_append_right _ hmem

end OutboxStep

variable {action : OutboxAction}

theorem step_rows (hstep : s.step decode hash action = some t) :
    OutboxStep action.target s t := by
  cases action with
  | registerPublisher id fingerprint =>
    obtain rfl := Option.some.inj hstep
    exact .routesAfter
  | registerRoute route =>
    obtain rfl := Option.some.inj hstep
    exact .routesAfter
  | beginCommit tx operationId effects =>
    obtain ⟨keys, events, -, rfl⟩ := beginCommit_cases hstep
    exact .same rfl (fun _ h => h) rfl
  | beginTrade tx request =>
    obtain ⟨events, tr, -, -, -, rfl⟩ := beginTrade_cases hstep
    exact .same rfl (fun _ h => h) rfl
  | takeLock tx =>
    obtain ⟨tr, lock, waiting, -, -, -, rfl⟩ := takeLock_cases hstep
    exact .same rfl (fun _ h => h) rfl
  | insertEvent tx now => exact .insertEvent hstep
  | commit tx => exact .commit hstep
  | abort tx =>
    obtain ⟨-, hstep⟩ := Option.ite_none_right_eq_some.mp hstep
    obtain rfl := Option.some.inj hstep
    exact .endTransaction
  | claim workerId leaseMs publisher maximum locked clock =>
    obtain rfl := Option.some.inj hstep
    exact .claimAfter
  | acknowledge lease checked clock =>
    obtain ⟨-, hstep⟩ := Option.ite_none_right_eq_some.mp hstep
    obtain rfl := Option.some.inj hstep
    exact .move (acknowledge_moves ..) fun _ hmem => hmem
  | fail lease error retryDelayMs maxAttempts checked clock =>
    obtain ⟨-, hstep⟩ := Option.ite_none_right_eq_some.mp hstep
    obtain rfl := Option.some.inj hstep
    exact .tableAfter fun _ _ => fail_moves
  | retryDeadLetter eventId operator reason checked clock =>
    obtain rfl := Option.some.inj hstep
    exact .tableAfter fun _ _ => retryDeadLetter_moves

end Steps

end DbProxy
