/-
The outbox in PostgreSQL: routes, leases, fencing and retries (`PostgresOutboxQueue`,
`outbox_claim.sql`, `relay.rs`).

`OutboxTable` holds the committed rows of `dbproxy_outbox`.  A statement evaluates
`clock_timestamp()` once per row, so the claim takes its readings as functions of the
event id; times are in microseconds.  Rows that other transactions have locked are a
parameter of the claim.  The columns `backend` and `created_at` and the audit of
retries are left out: no statement here reads them.

* `resolveOutboxRoute` — the trigger that fixes publisher and destination;
* `claimCandidates` — the fast path and the grouped fallback of the claim;
* `claimBatch`, `acknowledge`, `fail`, `retryDeadLetter` — the statements of a worker;
* `RowMove` — everything that these statements can do to a row.
-/
import DbProxy.CacheRepairQueue
import DbProxy.CommitEffects

namespace DbProxy

open Text

/-! ### Rows -/

structure OutboxRow where
  eventId : String
  operationId : String
  tradeId : Option String
  topic : String
  partitionKey : String
  payload : Bytes
  occurredAtUnixMs : ℕ
  availableAt : ℕ
  producer : String
  publisherId : String
  destination : String
  enqueueOrder : ℕ
  attemptCount : ℕ := 0
  leaseOwner : Option String := none
  leaseUntil : Option ℕ := none
  lastError : Option String := none
  publishedAt : Option ℕ := none
  deadLetteredAt : Option ℕ := none
  leaseToken : ℕ := 0
  expiredLeases : ℕ := 0
deriving DecidableEq, Repr

/-- The rows that are delivered in order: one publisher, destination and partition. -/
structure OutboxGroup where
  publisherId : String
  destination : String
  partitionKey : String
deriving DecidableEq, Repr

def OutboxRow.group (row : OutboxRow) : OutboxGroup :=
  ⟨row.publisherId, row.destination, row.partitionKey⟩

/-- The event that the row was made from. -/
def OutboxRow.event (row : OutboxRow) : OutboxEvent :=
  ⟨row.eventId, row.topic, row.partitionKey, row.payload, row.occurredAtUnixMs⟩

abbrev OutboxTable := KeyedTable OutboxRow.eventId

structure OutboxLease where
  event : OutboxEvent
  operationId : String
  tradeId : String
  attemptCount : ℕ
  producer : String
  publisherId : String
  destination : String
  leaseToken : ℕ
  leaseOwner : String
deriving DecidableEq, Repr

/-! ### Routes -/

structure OutboxRoute where
  producer : String
  version : ℕ
  publisher : String
  destination : String
deriving DecidableEq, Repr

def OutboxRoute.key (route : OutboxRoute) : String :=
  relayTopicPrefix ++ route.producer ++ "." ++ toString route.version

/-- The publishers with the fingerprint of their endpoint, and the routes by their key. -/
structure OutboxRoutes where
  publishers : String → Option String := fun _ => none
  routes : String → Option OutboxRoute := fun _ => none

def legacyPublisher : String := "legacy"

def legacyStreamPrefix : String := "dbproxy:outbox:"

namespace PostgresOutboxQueue

/-- `register_publisher`: an id keeps the endpoint it was registered with. -/
def registerPublisher (id fingerprint : String) (r : OutboxRoutes) :
    Except StorageError OutboxRoutes :=
  match r.publishers id with
  | none => .ok { r with publishers := Function.update r.publishers id (some fingerprint) }
  | some pinned =>
    if pinned = fingerprint then .ok r
    else .error (.queueProtocol "publisher endpoint changed; use a new publisher ID")

def validId (id : String) : Bool :=
  !id.isEmpty && id.utf8ByteSize ≤ 64 && id ≠ legacyPublisher &&
    id.toList.all fun c => isAsciiAlphanumeric c || c == '_' || c == '-'

/-- `register_route`: a route is never changed, and a publisher must be known. -/
def registerRoute (route : OutboxRoute) (r : OutboxRoutes) : Except StorageError OutboxRoutes :=
  if !validId route.producer || !validId route.publisher || route.version = 0 ||
      blank route.destination || route.destination.utf8ByteSize > 256 ||
      route.destination.toList.any isControl ||
      legacyStreamPrefix.toList.isPrefixOf route.destination.toList then
    .error (.queueProtocol "invalid or reserved outbox route")
  else
    match r.routes route.key with
    | none =>
      if (r.publishers route.publisher).isNone then
        .error (.postgres "insert violates foreign key constraint")
      else .ok { r with routes := Function.update r.routes route.key (some route) }
    | some old =>
      if old.publisher = route.publisher && old.destination = route.destination then .ok r
      else .error (.queueProtocol "outbox route changed; increment its version")

/-- The trigger `dbproxy_resolve_outbox_route`: producer, publisher and destination. -/
def resolveOutboxRoute (r : OutboxRoutes) (topic : String) :
    Except StorageError (String × String × String) :=
  if isRelayTopic topic then
    match r.routes topic with
    | none => .error (.postgres "outbox route is not registered")
    | some route => .ok (route.producer, route.publisher, route.destination)
  else .ok (legacyPublisher, legacyPublisher, legacyStreamPrefix ++ topic)

/-! ### The claim -/

/-- The conditions of `outbox_claim.sql` on the row itself. -/
def eligible (publisher : Option String) (statement : ℕ) (clock : String → ℕ)
    (row : OutboxRow) : Bool :=
  row.publishedAt.isNone && row.deadLetteredAt.isNone && row.availableAt ≤ statement &&
    publisher.all (row.publisherId = ·) && row.leaseUntil.all (· ≤ clock row.eventId)

/-- No earlier row of the group is unpublished. -/
def isHead (rows : List OutboxRow) (row : OutboxRow) : Bool :=
  !rows.any fun prior => prior.group = row.group && prior.publishedAt.isNone &&
    prior.enqueueOrder < row.enqueueOrder

/-- `MIN(enqueue_order)` of the group, among the rows that the claim is about. -/
def groupMin (publisher : Option String) (rows : List OutboxRow) (group : OutboxGroup) :
    Option ℕ :=
  ((rows.filter fun row => row.publishedAt.isNone && publisher.all (row.publisherId = ·) &&
    row.group = group).map (·.enqueueOrder)).min?

/-- The readings of the clock in one claim, for each row. -/
structure ClaimClock where
  statement : ℕ
  listed : String → ℕ
  checked : String → ℕ
  granted : String → ℕ

def shortlist (publisher : Option String) (maximum : ℕ) (clock : ClaimClock)
    (rows : List OutboxRow) : List OutboxRow :=
  (sortOn (·.enqueueOrder) (rows.filter (eligible publisher clock.statement clock.listed))).take
    (max 32 maximum)

def fastCandidates (publisher : Option String) (maximum : ℕ) (locked : String → Bool)
    (clock : ClaimClock) (rows : List OutboxRow) : List OutboxRow :=
  (sortOn (·.enqueueOrder) ((shortlist publisher maximum clock rows).filter fun row =>
    eligible publisher clock.statement clock.checked row && isHead rows row &&
      !locked row.eventId)).take maximum

/-- The candidates of one claim: heads from the first eligible rows or, if all of those are
blocked or locked, the heads of all groups. -/
def claimCandidates (publisher : Option String) (maximum : ℕ) (locked : String → Bool)
    (clock : ClaimClock) (rows : List OutboxRow) : List OutboxRow :=
  let fast := fastCandidates publisher maximum locked clock rows
  if fast = [] ∧ shortlist publisher maximum clock rows ≠ [] then
    (sortOn (·.enqueueOrder) (rows.filter fun row =>
      eligible publisher clock.statement clock.checked row &&
        !(groupMin publisher rows row.group).any (· < row.enqueueOrder) &&
        !locked row.eventId)).take maximum
  else fast

/-- What the claim returns for a row. -/
def leaseOf (workerId : String) (row : OutboxRow) : OutboxLease :=
  ⟨row.event, row.operationId, row.tradeId.getD "", row.attemptCount, row.producer,
    row.publisherId, row.destination, row.leaseToken, workerId⟩

/-- The `SET` of the claim. -/
def grant (workerId : String) (leaseMs : ℕ) (clock : ClaimClock) (row : OutboxRow) : OutboxRow :=
  { row with
    leaseOwner := some workerId
    leaseToken := row.leaseToken + 1
    expiredLeases := row.expiredLeases + if row.leaseUntil.isSome then 1 else 0
    leaseUntil := some (clock.granted row.eventId + microseconds leaseMs) }

theorem eventId_grant (workerId : String) (leaseMs : ℕ) (clock : ClaimClock) (row : OutboxRow) :
    (grant workerId leaseMs clock row).eventId = row.eventId := rfl

/-- `claim_batch_for_publisher`. -/
def claimBatch (workerId : String) (leaseMs : ℕ) (publisher : Option String) (maximum : ℕ)
    (locked : String → Bool) (clock : ClaimClock) (table : OutboxTable) :
    Except StorageError (List OutboxLease × OutboxTable) := do
  PostgresCacheRepairQueue.validateWorker workerId leaseMs
  if ¬ (1 ≤ maximum ∧ maximum ≤ 64) then
    throw (.queueProtocol "outbox claim batch must contain 1..=64 items")
  else if bigintLimit ≤ leaseMs then throw (.queueProtocol "lease duration is too large")
  else
    let candidates := claimCandidates publisher maximum locked clock table.rows
    let granted := candidates.map (grant workerId leaseMs clock)
    return (granted.map (leaseOf workerId),
      table.update (· ∈ candidates) (grant workerId leaseMs clock)
        (eventId_grant workerId leaseMs clock))

/-! ### Settling a lease -/

/-- The row is under this lease, which has not expired. -/
def heldBy (lease : OutboxLease) (now : ℕ) (row : OutboxRow) : Bool :=
  row.eventId = lease.event.eventId && row.leaseOwner = some lease.leaseOwner &&
    row.publishedAt.isNone && row.leaseToken = lease.leaseToken &&
    row.leaseUntil.any (now < ·)

def publish (clock : ℕ) (row : OutboxRow) : OutboxRow :=
  { row with publishedAt := some clock, leaseOwner := none, leaseUntil := none, lastError := none }

theorem eventId_publish (clock : ℕ) (row : OutboxRow) :
    (publish clock row).eventId = row.eventId := rfl

def acknowledge (lease : OutboxLease) (checked clock : ℕ) (table : OutboxTable) :
    Bool × OutboxTable :=
  (table.rows.any (heldBy lease checked),
    table.update (heldBy lease checked) (publish clock) (eventId_publish clock))

/-- The `SET` of `fail`. -/
def failRow (error : String) (retryDelayMs maxAttempts clock : ℕ) (row : OutboxRow) : OutboxRow :=
  { row with
    attemptCount := row.attemptCount + 1
    lastError := some (boundedError error)
    leaseOwner := none
    leaseUntil := none
    availableAt := if maxAttempts ≤ row.attemptCount + 1 then row.availableAt
      else clock + microseconds retryDelayMs
    deadLetteredAt := if maxAttempts ≤ row.attemptCount + 1 then some clock else none }

theorem eventId_failRow (error : String) (retryDelayMs maxAttempts clock : ℕ) (row : OutboxRow) :
    (failRow error retryDelayMs maxAttempts clock row).eventId = row.eventId := rfl

def fail (lease : OutboxLease) (error : String) (retryDelayMs maxAttempts : ℕ)
    (checked clock : ℕ) (table : OutboxTable) : Except StorageError (Bool × OutboxTable) :=
  if maxAttempts = 0 then
    throw (.queueProtocol "maximum attempts must be greater than zero")
  else if bigintLimit ≤ retryDelayMs then throw (.queueProtocol "retry delay is too large")
  else
    return (table.rows.any (heldBy lease checked), table.update (heldBy lease checked)
      (failRow error retryDelayMs maxAttempts clock)
      (eventId_failRow error retryDelayMs maxAttempts clock))

/-- A dead letter without a live lease. -/
def isDead (eventId : String) (now : ℕ) (row : OutboxRow) : Bool :=
  row.eventId = eventId && row.publishedAt.isNone && row.deadLetteredAt.isSome &&
    row.leaseUntil.all (· ≤ now)

def requeue (clock : ℕ) (row : OutboxRow) : OutboxRow :=
  { row with
    attemptCount := 0, availableAt := clock, leaseOwner := none, leaseUntil := none,
    lastError := none, deadLetteredAt := none, leaseToken := row.leaseToken + 1 }

theorem eventId_requeue (clock : ℕ) (row : OutboxRow) :
    (requeue clock row).eventId = row.eventId := rfl

def retryDeadLetter (eventId operator reason : String) (checked clock : ℕ)
    (table : OutboxTable) : Except StorageError (Bool × OutboxTable) :=
  if [eventId, operator, reason].any fun value =>
      blank value || value.utf8ByteSize > 512 || value.toList.any isControl then
    throw (.queueProtocol "invalid outbox retry ID, operator or reason")
  else
    return (table.rows.any (isDead eventId checked),
      table.update (isDead eventId checked) (requeue clock) (eventId_requeue clock))

end PostgresOutboxQueue

/-! ### What the statements do to a row -/

open PostgresOutboxQueue

/-- Every unpublished row of the group comes later. -/
def PriorPublished (rows : List OutboxRow) (row : OutboxRow) : Prop :=
  ∀ prior ∈ rows, prior.group = row.group → prior.enqueueOrder < row.enqueueOrder →
    prior.publishedAt.isSome

/-- The row that a statement names. -/
inductive RowTarget
  | any
  | acknowledged (eventId : String)
  | retried (eventId : String)

/-- Everything that the statements of workers and operators can do to a row. -/
inductive RowMove (target : RowTarget) (rows : List OutboxRow) (row : OutboxRow) :
    OutboxRow → Prop
  | keep : RowMove target rows row row
  | grant (workerId : String) (leaseMs : ℕ) (clock : ClaimClock) (hopen : row.publishedAt = none)
      (hlive : row.deadLetteredAt = none) (hhead : PriorPublished rows row) :
      RowMove target rows row (grant workerId leaseMs clock row)
  | publish (clock : ℕ) (hopen : row.publishedAt = none) (hlease : row.leaseUntil.isSome)
      (hid : target = .acknowledged row.eventId) : RowMove target rows row (publish clock row)
  | fail (error : String) (retryDelayMs maxAttempts clock : ℕ) (hopen : row.publishedAt = none)
      (hlease : row.leaseUntil.isSome) :
      RowMove target rows row (failRow error retryDelayMs maxAttempts clock row)
  | requeue (clock : ℕ) (hopen : row.publishedAt = none) (hid : target = .retried row.eventId) :
      RowMove target rows row (requeue clock row)

/-- Rows move, and neither come nor go. -/
def TableMove (target : RowTarget) (table table' : OutboxTable) : Prop :=
  ∃ f, table'.rows = table.rows.map f ∧
    ∀ row ∈ table.rows, RowMove target table.rows row (f row)

section Moves

variable {target : RowTarget} {table table' : OutboxTable}

theorem TableMove.refl (table : OutboxTable) : TableMove target table table :=
  ⟨id, (List.map_id _).symm, fun _ _ => .keep⟩

theorem tableMove_update {p : OutboxRow → Bool} {f : OutboxRow → OutboxRow}
    {hf : ∀ row, (f row).eventId = row.eventId}
    (h : ∀ row ∈ table.rows, p row = true → RowMove target table.rows row (f row)) :
    TableMove target table (table.update p f hf) := by
  refine ⟨fun row => if p row then f row else row, rfl, fun row hmem => ?_⟩
  show RowMove target table.rows row (if p row then f row else row)
  by_cases hp : p row = true
  · rw [if_pos hp]
    exact h row hmem hp
  · rw [if_neg hp]
    exact .keep

theorem eligible_iff {publisher : Option String} {statement : ℕ} {clock : String → ℕ}
    {row : OutboxRow} : eligible publisher statement clock row = true ↔
      row.publishedAt = none ∧ row.deadLetteredAt = none ∧ row.availableAt ≤ statement ∧
        publisher.all (row.publisherId = ·) = true ∧
        row.leaseUntil.all (· ≤ clock row.eventId) = true := by
  simp only [eligible, Bool.and_eq_true, Option.isNone_iff_eq_none, decide_eq_true_eq, and_assoc]

theorem isHead_iff {rows : List OutboxRow} {row : OutboxRow} :
    isHead rows row = true ↔ PriorPublished rows row := by
  rw [isHead, Bool.not_eq_true', List.any_eq_false]
  constructor
  · intro h prior hmem hgroup hlt
    have hprior := h prior hmem
    by_contra hopen
    rw [Option.not_isSome_iff_eq_none] at hopen
    exact hprior (by simp [hgroup, hopen, hlt])
  · intro h prior hmem hprior
    simp only [Bool.and_eq_true, decide_eq_true_eq] at hprior
    obtain ⟨⟨hgroup, hopen⟩, hlt⟩ := hprior
    have hsome := h prior hmem hgroup hlt
    rw [Option.isNone_iff_eq_none] at hopen
    rw [hopen] at hsome
    cases hsome

/-- The group minimum of the fallback finds the same heads. -/
theorem priorPublished_of_groupMin {publisher : Option String} {rows : List OutboxRow}
    {row : OutboxRow} (hpublisher : publisher.all (row.publisherId = ·) = true)
    (h : (groupMin publisher rows row.group).any (· < row.enqueueOrder) = false) :
    PriorPublished rows row := by
  intro prior hmem hgroup hlt
  by_contra hopen
  rw [Option.not_isSome_iff_eq_none] at hopen
  have hsame : prior.publisherId = row.publisherId := congrArg OutboxGroup.publisherId hgroup
  -- an unpublished earlier row would be in the group's list
  have hin : prior.enqueueOrder ∈ (rows.filter fun row' => row'.publishedAt.isNone &&
      publisher.all (row'.publisherId = ·) && row'.group = row.group).map (·.enqueueOrder) := by
    refine List.mem_map_of_mem (List.mem_filter.mpr ⟨hmem, ?_⟩)
    rw [hopen, hsame, hpublisher, hgroup]
    simp
  cases hmin : groupMin publisher rows row.group with
  | none =>
    rw [groupMin, List.min?_eq_none_iff] at hmin
    rw [hmin] at hin
    cases hin
  | some m =>
    have hle : m ≤ prior.enqueueOrder := (List.min?_eq_some_iff.mp hmin).2 _ hin
    rw [hmin] at h
    simp only [Option.any_some, decide_eq_false_iff_not] at h
    omega

/-- A candidate is open, and its group waits for nothing else. -/
theorem mem_claimCandidates {publisher : Option String} {maximum : ℕ} {locked : String → Bool}
    {clock : ClaimClock} {rows : List OutboxRow} {row : OutboxRow}
    (h : row ∈ claimCandidates publisher maximum locked clock rows) :
    row ∈ rows ∧ eligible publisher clock.statement clock.checked row = true ∧
      PriorPublished rows row := by
  rw [claimCandidates] at h
  split at h
  · have hmem := List.mem_of_mem_take h
    rw [mem_sortOn, List.mem_filter, Bool.and_eq_true, Bool.and_eq_true] at hmem
    obtain ⟨hrow, ⟨heligible, hmin⟩, -⟩ := hmem
    rw [Bool.not_eq_true'] at hmin
    exact ⟨hrow, heligible, priorPublished_of_groupMin (eligible_iff.mp heligible).2.2.2.1 hmin⟩
  · have hmem := List.mem_of_mem_take h
    rw [mem_sortOn, List.mem_filter, Bool.and_eq_true, Bool.and_eq_true] at hmem
    obtain ⟨hlisted, ⟨heligible, hhead⟩, -⟩ := hmem
    have hrow := List.mem_of_mem_take hlisted
    rw [mem_sortOn] at hrow
    exact ⟨List.mem_of_mem_filter hrow, heligible, isHead_iff.mp hhead⟩

theorem claimBatch_ok {workerId : String} {leaseMs : ℕ} {publisher : Option String}
    {maximum : ℕ} {locked : String → Bool} {clock : ClaimClock} {leases : List OutboxLease}
    (h : claimBatch workerId leaseMs publisher maximum locked clock table =
      .ok (leases, table')) :
    TableMove .any table table' ∧ ∀ lease ∈ leases, ∃ row ∈ table.rows,
      lease = leaseOf workerId (grant workerId leaseMs clock row) ∧
      publisher.all (row.publisherId = ·) = true ∧ PriorPublished table.rows row ∧
      grant workerId leaseMs clock row ∈ table'.rows := by
  obtain ⟨_, -, h⟩ := Checks.bind_eq_ok.mp h
  split at h
  · cases h
  split at h
  · cases h
  obtain ⟨rfl, rfl⟩ := Prod.mk.inj (Except.ok.inj h)
  constructor
  · refine tableMove_update fun row _ hp => ?_
    obtain ⟨-, heligible, hhead⟩ := mem_claimCandidates (of_decide_eq_true hp)
    rw [eligible_iff] at heligible
    exact .grant workerId leaseMs clock heligible.1 heligible.2.1 hhead
  · intro lease hlease
    obtain ⟨granted, hgranted, rfl⟩ := List.mem_map.mp hlease
    obtain ⟨row, hcandidate, rfl⟩ := List.mem_map.mp hgranted
    obtain ⟨hrow, heligible, hhead⟩ := mem_claimCandidates hcandidate
    exact ⟨row, hrow, rfl, (eligible_iff.mp heligible).2.2.2.1, hhead,
      KeyedTable.mem_update hrow (decide_eq_true hcandidate)⟩

theorem heldBy_outbox {lease : OutboxLease} {now : ℕ} {row : OutboxRow}
    (h : heldBy lease now row = true) :
    row.eventId = lease.event.eventId ∧ row.leaseOwner = some lease.leaseOwner ∧
      row.publishedAt = none ∧ row.leaseToken = lease.leaseToken ∧ row.leaseUntil.isSome := by
  simp only [heldBy, Bool.and_eq_true, Option.isNone_iff_eq_none,
    decide_eq_true_eq] at h
  obtain ⟨⟨⟨⟨hid, howner⟩, hopen⟩, htoken⟩, huntil⟩ := h
  refine ⟨hid, howner, hopen, htoken, ?_⟩
  cases hu : row.leaseUntil with
  | none =>
    rw [hu] at huntil
    cases huntil
  | some u => rfl

theorem acknowledge_moves (lease : OutboxLease) (checked clock : ℕ) (table : OutboxTable) :
    TableMove (.acknowledged lease.event.eventId) table
      (acknowledge lease checked clock table).2 := by
  show TableMove (.acknowledged lease.event.eventId) table (table.update (heldBy lease checked)
    (publish clock) (eventId_publish clock))
  refine tableMove_update fun row _ hp => ?_
  obtain ⟨hid, -, hopen, -, hlease⟩ := heldBy_outbox hp
  exact .publish clock hopen hlease (congrArg RowTarget.acknowledged hid.symm)

theorem fail_updates {lease : OutboxLease} {error : String} {retryDelayMs maxAttempts : ℕ}
    {checked clock : ℕ} {settled : Bool}
    (h : fail lease error retryDelayMs maxAttempts checked clock table = .ok (settled, table')) :
    settled = table.rows.any (heldBy lease checked) ∧
      table' = table.update (heldBy lease checked)
        (failRow error retryDelayMs maxAttempts clock)
        (eventId_failRow error retryDelayMs maxAttempts clock) := by
  rw [fail] at h
  split at h
  · cases h
  split at h
  · cases h
  obtain ⟨rfl, rfl⟩ := Prod.mk.inj (Except.ok.inj h)
  exact ⟨rfl, rfl⟩

theorem fail_moves {lease : OutboxLease} {error : String} {retryDelayMs maxAttempts : ℕ}
    {checked clock : ℕ} {settled : Bool}
    (h : fail lease error retryDelayMs maxAttempts checked clock table =
      .ok (settled, table')) : TableMove .any table table' := by
  obtain ⟨-, rfl⟩ := fail_updates h
  refine tableMove_update fun row _ hp => ?_
  obtain ⟨-, -, hopen, -, hlease⟩ := heldBy_outbox hp
  exact .fail error retryDelayMs maxAttempts clock hopen hlease

theorem retryDeadLetter_moves {eventId operator reason : String} {checked clock : ℕ}
    {requeued : Bool}
    (h : retryDeadLetter eventId operator reason checked clock table = .ok (requeued, table')) :
    TableMove (.retried eventId) table table' := by
  rw [retryDeadLetter] at h
  split at h
  · cases h
  obtain ⟨-, rfl⟩ := Prod.mk.inj (Except.ok.inj h)
  refine tableMove_update fun row _ hp => ?_
  simp only [isDead, Bool.and_eq_true, Option.isNone_iff_eq_none, decide_eq_true_eq] at hp
  exact .requeue clock hp.1.1.2 (congrArg RowTarget.retried hp.1.1.1.symm)

/-- A lease that no row is under settles nothing. -/
theorem update_not_held {lease : OutboxLease} {now : ℕ} {f : OutboxRow → OutboxRow}
    {hf : ∀ row, (f row).eventId = row.eventId}
    (h : ∀ row ∈ table.rows, row.eventId = lease.event.eventId →
      row.leaseToken = lease.leaseToken → row.leaseUntil = none) :
    table.update (heldBy lease now) f hf = table := by
  refine KeyedTable.update_eq_self fun row hmem => ?_
  by_contra hheld
  rw [Bool.not_eq_false] at hheld
  obtain ⟨hid, -, -, htoken, hlease⟩ := heldBy_outbox hheld
  rw [h row hmem hid htoken] at hlease
  cases hlease

theorem acknowledge_not_held {lease : OutboxLease} {checked clock : ℕ}
    (h : ∀ row ∈ table.rows, row.eventId = lease.event.eventId →
      row.leaseToken = lease.leaseToken → row.leaseUntil = none) :
    (acknowledge lease checked clock table).2 = table := by
  rw [acknowledge, update_not_held h]

theorem fail_not_held {lease : OutboxLease} {error : String} {retryDelayMs maxAttempts : ℕ}
    {checked clock : ℕ} {settled : Bool}
    (h : ∀ row ∈ table.rows, row.eventId = lease.event.eventId →
      row.leaseToken = lease.leaseToken → row.leaseUntil = none)
    (hfail : fail lease error retryDelayMs maxAttempts checked clock table =
      .ok (settled, table')) : table' = table := by
  obtain ⟨-, rfl⟩ := fail_updates hfail
  exact update_not_held h

end Moves

end DbProxy
