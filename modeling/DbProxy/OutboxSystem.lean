/-
Committers and workers of the outbox.

Of `commit_records` and `apply_trade` the part that concerns the outbox is here, as
steps of a transaction: it begins with the lock keys of its events, takes the locks one
by one, inserts the events one by one and commits or rolls back.  The lock table maps
the hash of a key to the transaction that holds it; the hash (`hashtextextended`) is a
parameter, and different keys may share a lock.  A row is visible to the statements of
`OutboxQueue`, each of them one step, when its transaction has committed.

* `lockPartitions` — the locks of a commit, `tradeLocks` those of a trade;
* `OutboxSystem.step` — one step of a committer, a worker or an operator;
* `eventLock_of_commit`, `eventLock_of_trade` — a transaction plans to take the lock of
  the group that each of its events will get.
-/
import DbProxy.OutboxQueue
import DbProxy.StepMachine
import DbProxy.TradeTransaction

namespace DbProxy

open PostgresOutboxQueue

/-! ### Partition locks -/

def advisoryLockKey (scope : String) (components : List String) : String :=
  components.foldl (fun key component =>
    key ++ toString component.utf8ByteSize ++ ":" ++ component ++ ":")
    (toString scope.utf8ByteSize ++ ":" ++ scope ++ ":")

/-- The scope of an event's lock in `lock_partitions`. -/
def commitLockScope (decode : Bytes → Option EventEnvelope) (r : OutboxRoutes)
    (event : OutboxEvent) : Except StorageError String :=
  match EventEnvelope.fromOutbox decode event with
  | .error e => .error (.core e)
  | .ok none => .ok event.topic
  | .ok (some _) =>
    match r.routes event.topic with
    | none => .error (.core (.invalidOutboxEvent "unknown outbox source or route version"))
    | some route => .ok (advisoryLockKey "relay-destination" [route.publisher, route.destination])

/-- The order in which locks are taken: sorted, without duplicates. -/
def lockOrder (routes : List (String × String)) : List (String × String) :=
  (sortOn (fun route : String × String => toLex route) routes).dedup

def partitionLockKey (scope partition : String) : String :=
  advisoryLockKey "outbox-partition" [scope, partition]

/-- The keys that `lock_partitions` locks. -/
def lockPartitions (decode : Bytes → Option EventEnvelope) (r : OutboxRoutes)
    (events : List OutboxEvent) : Except StorageError (List String) := do
  let routes ← events.mapM fun event => do
    let scope ← commitLockScope decode r event
    return (scope, event.partitionKey)
  return (lockOrder routes).map fun (scope, partition) => partitionLockKey scope partition

/-- The keys that `apply_trade` locks. -/
def tradeLocks (events : List OutboxEvent) : List String :=
  (lockOrder (events.map fun event => (event.topic, event.partitionKey))).map
    fun (topic, partition) => partitionLockKey topic partition

/-! ### The system -/

/-- The rest of a running transaction. -/
structure OutboxTx where
  operationId : String
  tradeId : Option String
  /-- locks to take -/
  waiting : List ℤ
  /-- events to insert -/
  pending : List OutboxEvent

structure OutboxSystem where
  routes : OutboxRoutes := {}
  table : OutboxTable := .empty
  /-- rows of running transactions -/
  uncommitted : List (ℕ × OutboxRow) := []
  /-- the last value of the sequence of `enqueue_order` -/
  orderSeq : ℕ := 0
  locks : ℤ → Option ℕ := fun _ => none
  transactions : ℕ → Option OutboxTx := fun _ => none
  /-- the leases that workers were given -/
  leases : List OutboxLease := []

inductive OutboxAction
  | registerPublisher (id fingerprint : String)
  | registerRoute (route : OutboxRoute)
  | beginCommit (tx : ℕ) (operationId : String) (effects : CommitEffects)
  | beginTrade (tx : ℕ) (request : TradeTransaction)
  | takeLock (tx : ℕ)
  | insertEvent (tx : ℕ) (now : ℕ)
  | commit (tx : ℕ)
  | abort (tx : ℕ)
  | claim (workerId : String) (leaseMs : ℕ) (publisher : Option String) (maximum : ℕ)
      (locked : String → Bool) (clock : ClaimClock)
  | acknowledge (lease : OutboxLease) (checked clock : ℕ)
  | fail (lease : OutboxLease) (error : String) (retryDelayMs maxAttempts checked clock : ℕ)
  | retryDeadLetter (eventId operator reason : String) (checked clock : ℕ)

namespace OutboxSystem

/-- Locks are released and rows forgotten when a transaction ends. -/
def endTransaction (tx : ℕ) (s : OutboxSystem) : OutboxSystem :=
  { s with
    uncommitted := s.uncommitted.filter (·.1 ≠ tx)
    locks := fun lock => if s.locks lock = some tx then none else s.locks lock
    transactions := Function.update s.transactions tx none }

def setTransaction (tx : ℕ) (t : OutboxTx) (s : OutboxSystem) : OutboxSystem :=
  { s with transactions := Function.update s.transactions tx (some t) }

/-- A row as `INSERT` and the route trigger make it. -/
def newRow (t : OutboxTx) (event : OutboxEvent) (now order : ℕ) (r : OutboxRoutes) :
    Except StorageError OutboxRow := do
  if bigintLimit ≤ event.occurredAtUnixMs then
    match t.tradeId with
    | none => throw (.persistenceProtocol "event timestamp exceeds i64")
    | some _ => throw (.tradeProtocol "outbox timestamp is too large")
  else
    let (producer, publisher, destination) ← resolveOutboxRoute r event.topic
    return { eventId := event.eventId, operationId := t.operationId, tradeId := t.tradeId,
             topic := event.topic, partitionKey := event.partitionKey, payload := event.payload,
             occurredAtUnixMs := event.occurredAtUnixMs, availableAt := now,
             producer := producer, publisherId := publisher, destination := destination,
             enqueueOrder := order }

/-- `INSERT … ON CONFLICT DO NOTHING` of the next event.  It waits for a running transaction
that has inserted the same id; a conflict or another error rolls back.  The sequence is not
rolled back. -/
def insertEvent (tx now : ℕ) (s : OutboxSystem) : Option OutboxSystem :=
  match s.transactions tx with
  | none => none
  | some t =>
    match t.waiting, t.pending with
    | [], event :: pending =>
      if s.uncommitted.any fun entry => entry.1 ≠ tx && entry.2.eventId = event.eventId then none
      else
        let drawn := { s with orderSeq := s.orderSeq + 1 }
        match newRow t event now (s.orderSeq + 1) s.routes with
        | .error _ => some (drawn.endTransaction tx)
        | .ok row =>
          if (s.table.lookup event.eventId).isSome ||
              s.uncommitted.any (·.2.eventId = event.eventId) then
            some (drawn.endTransaction tx)
          else some ({ drawn with uncommitted := s.uncommitted ++ [(tx, row)] }.setTransaction tx
            { t with pending := pending })
    | _, _ => none

/-- The rows of the transaction become visible and its locks are released. -/
def commitTransaction (tx : ℕ) (s : OutboxSystem) : Option OutboxSystem :=
  match s.transactions tx with
  | none => none
  | some t =>
    if t.waiting = [] ∧ t.pending = [] then
      (s.table.tryInsertAll ((s.uncommitted.filter (·.1 = tx)).map (·.2))).map fun table =>
        { s with table := table }.endTransaction tx
    else none

def takeLock (tx : ℕ) (s : OutboxSystem) : Option OutboxSystem :=
  match s.transactions tx with
  | none => none
  | some t =>
    match t.waiting with
    | [] => none
    | lock :: waiting =>
      if s.locks lock = none ∨ s.locks lock = some tx then
        some ({ s with locks := Function.update s.locks lock (some tx) }.setTransaction tx
          { t with waiting := waiting })
      else none

variable (decode : Bytes → Option EventEnvelope) (hash : String → ℤ)

def beginTransaction (tx : ℕ) (operationId : String) (tradeId : Option String)
    (keys : List String) (events : List OutboxEvent) (s : OutboxSystem) : Option OutboxSystem :=
  if (s.transactions tx).isSome then none
  else some (s.setTransaction tx ⟨operationId, tradeId, keys.map hash, events⟩)

/-- `commit_records`, as far as its locks. -/
def beginCommit (tx : ℕ) (operationId : String) (effects : CommitEffects) (s : OutboxSystem) :
    Option OutboxSystem :=
  match effects.normalize decode with
  | .error _ => none
  | .ok effects =>
    match lockPartitions decode s.routes effects.outboxEvents with
    | .error _ => none
    | .ok keys => s.beginTransaction hash tx operationId none keys effects.outboxEvents

/-- `apply_trade`, as far as its locks. -/
def beginTrade (tx : ℕ) (request : TradeTransaction) (s : OutboxSystem) : Option OutboxSystem :=
  match normalizeTradeTransaction request with
  | .error _ => none
  | .ok request => s.beginTransaction hash tx request.operationId
      (some request.transition.tradeId) (tradeLocks request.outboxEvents) request.outboxEvents

/-- The routes after a call, unchanged if it fails. -/
def routesAfter (s : OutboxSystem) : Except StorageError OutboxRoutes → OutboxSystem
  | .ok routes => { s with routes := routes }
  | .error _ => s

/-- The rows after a call, unchanged if it fails. -/
def tableAfter (s : OutboxSystem) : Except StorageError (Bool × OutboxTable) → OutboxSystem
  | .ok (_, table) => { s with table := table }
  | .error _ => s

/-- The rows and the leases after a claim. -/
def claimAfter (s : OutboxSystem) :
    Except StorageError (List OutboxLease × OutboxTable) → OutboxSystem
  | .ok (leases, table) => { s with table := table, leases := leases ++ s.leases }
  | .error _ => s

def step (s : OutboxSystem) : OutboxAction → Option OutboxSystem
  | .registerPublisher id fingerprint =>
    some (s.routesAfter (PostgresOutboxQueue.registerPublisher id fingerprint s.routes))
  | .registerRoute route => some (s.routesAfter (PostgresOutboxQueue.registerRoute route s.routes))
  | .beginCommit tx operationId effects => s.beginCommit decode hash tx operationId effects
  | .beginTrade tx request => s.beginTrade hash tx request
  | .takeLock tx => s.takeLock tx
  | .insertEvent tx now => s.insertEvent tx now
  | .commit tx => s.commitTransaction tx
  | .abort tx => if (s.transactions tx).isSome then some (s.endTransaction tx) else none
  | .claim workerId leaseMs publisher maximum locked clock =>
    some (s.claimAfter (claimBatch workerId leaseMs publisher maximum locked clock s.table))
  | .acknowledge lease checked clock =>
    if lease ∈ s.leases then
      some (s.tableAfter (.ok (PostgresOutboxQueue.acknowledge lease checked clock s.table)))
    else none
  | .fail lease error retryDelayMs maxAttempts checked clock =>
    if lease ∈ s.leases then
      some (s.tableAfter (PostgresOutboxQueue.fail lease error retryDelayMs maxAttempts checked
        clock s.table))
    else none
  | .retryDeadLetter eventId operator reason checked clock =>
    some (s.tableAfter (PostgresOutboxQueue.retryDeadLetter eventId operator reason checked clock
      s.table))

end OutboxSystem

/-! ### The lock of a group -/

/-- The lock scope of a delivery: the topic of a legacy stream, else the destination. -/
def scopeOf (publisher destination topic : String) : String :=
  if publisher = legacyPublisher then topic
  else advisoryLockKey "relay-destination" [publisher, destination]

def rowLock (hash : String → ℤ) (row : OutboxRow) : ℤ :=
  hash (partitionLockKey (scopeOf row.publisherId row.destination row.topic) row.partitionKey)

/-- The lock of the row that an event will become. -/
def eventLock (hash : String → ℤ) (r : OutboxRoutes) (event : OutboxEvent) : Option ℤ :=
  match resolveOutboxRoute r event.topic with
  | .ok (_, publisher, destination) =>
    some (hash (partitionLockKey (scopeOf publisher destination event.topic) event.partitionKey))
  | .error _ => none

/-- No relay route uses the name of the legacy publisher. -/
def RoutesOk (r : OutboxRoutes) : Prop :=
  ∀ topic route, r.routes topic = some route → route.publisher ≠ legacyPublisher

/-- A legacy row has the address of its topic. -/
def RouteOk (row : OutboxRow) : Prop :=
  row.publisherId = legacyPublisher → row.destination = legacyStreamPrefix ++ row.topic

section Locks

variable {decode : Bytes → Option EventEnvelope} {hash : String → ℤ} {r : OutboxRoutes}

/-- Rows of one publisher and destination have one lock scope. -/
theorem scopeOf_eq {a b : OutboxRow} (ha : RouteOk a) (hb : RouteOk b)
    (hpublisher : a.publisherId = b.publisherId) (hdestination : a.destination = b.destination) :
    scopeOf a.publisherId a.destination a.topic = scopeOf b.publisherId b.destination b.topic := by
  rw [scopeOf, scopeOf, hpublisher, hdestination]
  split
  · rename_i hlegacy
    -- a legacy destination determines its topic
    rw [ha (hpublisher.trans hlegacy), hb hlegacy] at hdestination
    have hlist := congrArg String.toList hdestination
    rw [String.toList_append, String.toList_append, List.append_cancel_left_eq] at hlist
    exact String.toList_injective hlist
  · rfl

/-- Rows of one group have one lock. -/
theorem rowLock_eq_of_group {a b : OutboxRow} (ha : RouteOk a) (hb : RouteOk b)
    (h : a.group = b.group) : rowLock hash a = rowLock hash b := by
  have hpublisher : a.publisherId = b.publisherId := congrArg OutboxGroup.publisherId h
  have hdestination : a.destination = b.destination := congrArg OutboxGroup.destination h
  have hpartition : a.partitionKey = b.partitionKey := congrArg OutboxGroup.partitionKey h
  rw [rowLock, rowLock, scopeOf_eq ha hb hpublisher hdestination, hpartition]

theorem fromOutbox_none {event : OutboxEvent}
    (h : EventEnvelope.fromOutbox decode event = .ok none) : isRelayTopic event.topic = false := by
  rw [EventEnvelope.fromOutbox] at h
  split at h
  · rename_i hrelay
    simpa using hrelay
  · split at h
    · cases h
    · obtain ⟨_, -, h⟩ := Checks.bind_eq_ok.mp h
      split at h
      · cases h
      · cases h

theorem fromOutbox_some {event : OutboxEvent} {envelope : EventEnvelope}
    (h : EventEnvelope.fromOutbox decode event = .ok (some envelope)) :
    isRelayTopic event.topic = true := by
  rw [EventEnvelope.fromOutbox] at h
  split at h
  · cases h
  · rename_i hrelay
    simpa using hrelay

/-- The scope that a commit locks is the scope that the trigger will choose. -/
theorem commitLockScope_ok {event : OutboxEvent} {scope : String} (hroutes : RoutesOk r)
    (h : commitLockScope decode r event = .ok scope) :
    eventLock hash r event = some (hash (partitionLockKey scope event.partitionKey)) := by
  rw [commitLockScope] at h
  rw [eventLock, resolveOutboxRoute]
  split at h
  · cases h
  · rename_i henvelope
    obtain rfl := Except.ok.inj h
    rw [fromOutbox_none henvelope]
    rfl
  · rename_i envelope henvelope
    rw [fromOutbox_some henvelope]
    cases hroute : r.routes event.topic with
    | none =>
      rw [hroute] at h
      cases h
    | some route =>
      rw [hroute] at h
      obtain rfl := Except.ok.inj h
      have hpublisher := hroutes event.topic route hroute
      simp only [if_true, scopeOf, if_neg hpublisher]

theorem mem_lockOrder {routes : List (String × String)} {route : String × String} :
    route ∈ lockOrder routes ↔ route ∈ routes := by
  rw [lockOrder, List.mem_dedup, mem_sortOn]

/-- A commit plans to take the lock of each of its events. -/
theorem eventLock_of_commit {events : List OutboxEvent} {keys : List String}
    (hroutes : RoutesOk r) (h : lockPartitions decode r events = .ok keys) {event : OutboxEvent}
    (hmem : event ∈ events) : ∃ lock, eventLock hash r event = some lock ∧
      lock ∈ keys.map hash := by
  obtain ⟨routes, hmap, h⟩ := Checks.bind_eq_ok.mp h
  obtain rfl := Except.ok.inj h
  have hpair := Checks.mapM_eq_ok.mp hmap
  obtain ⟨route, hroute, hscope⟩ := Checks.exists_of_forall₂_right hpair.flip hmem
  obtain ⟨scope, hok, hroute'⟩ := Checks.bind_eq_ok.mp hscope
  obtain rfl := Except.ok.inj hroute'
  refine ⟨_, commitLockScope_ok hroutes hok, List.mem_map_of_mem ?_⟩
  exact List.mem_map.mpr ⟨(scope, event.partitionKey), mem_lockOrder.mpr hroute, rfl⟩

/-- So does a trade, whose events are all legacy events. -/
theorem eventLock_of_trade {events : List OutboxEvent} {event : OutboxEvent}
    (htopic : isRelayTopic event.topic = false) (hmem : event ∈ events) :
    ∃ lock, eventLock hash r event = some lock ∧ lock ∈ (tradeLocks events).map hash := by
  refine ⟨hash (partitionLockKey event.topic event.partitionKey), ?_, List.mem_map_of_mem ?_⟩
  · rw [eventLock, resolveOutboxRoute, htopic]
    rfl
  · exact List.mem_map.mpr ⟨(event.topic, event.partitionKey),
      mem_lockOrder.mpr (List.mem_map_of_mem hmem), rfl⟩

/-! ### Routes stay -/

/-- What was resolved before is resolved in the same way. -/
def RoutesGrow (r r' : OutboxRoutes) : Prop :=
  ∀ topic route, r.routes topic = some route → r'.routes topic = some route

theorem registerPublisher_grows {id fingerprint : String} {r' : OutboxRoutes}
    (h : registerPublisher id fingerprint r = .ok r') : RoutesGrow r r' ∧
      (RoutesOk r → RoutesOk r') := by
  rw [registerPublisher] at h
  split at h
  · obtain rfl := Except.ok.inj h
    exact ⟨fun _ _ h => h, fun h => h⟩
  · split at h
    · obtain rfl := Except.ok.inj h
      exact ⟨fun _ _ h => h, fun h => h⟩
    · cases h

theorem registerRoute_grows {route : OutboxRoute} {r' : OutboxRoutes}
    (h : registerRoute route r = .ok r') : RoutesGrow r r' ∧ (RoutesOk r → RoutesOk r') := by
  rw [registerRoute] at h
  split at h
  · cases h
  rename_i hvalid
  split at h
  · rename_i hnone
    split at h
    · cases h
    obtain rfl := Except.ok.inj h
    constructor
    · intro topic old hold
      by_cases htopic : topic = route.key
      · rw [htopic, hnone] at hold
        cases hold
      · show Function.update r.routes route.key (some route) topic = some old
        rw [Function.update_of_ne htopic]
        exact hold
    · intro hok topic found hfound
      by_cases htopic : topic = route.key
      · subst htopic
        have hfound' : Function.update r.routes route.key (some route) route.key = some found :=
          hfound
        rw [Function.update_self] at hfound'
        obtain rfl := Option.some.inj hfound'
        intro hlegacy
        simp [validId, hlegacy] at hvalid
      · have hfound' : Function.update r.routes route.key (some route) topic = some found := hfound
        rw [Function.update_of_ne htopic] at hfound'
        exact hok topic found hfound'
  · split at h
    · obtain rfl := Except.ok.inj h
      exact ⟨fun _ _ h => h, fun h => h⟩
    · cases h

theorem RoutesGrow.eventLock {r' : OutboxRoutes} (h : RoutesGrow r r') {event : OutboxEvent}
    {lock : ℤ} (hlock : eventLock hash r event = some lock) :
    eventLock hash r' event = some lock := by
  have hresolve : ∀ v, resolveOutboxRoute r event.topic = .ok v →
      resolveOutboxRoute r' event.topic = .ok v := by
    intro v hv
    rw [resolveOutboxRoute] at hv ⊢
    split at hv
    · rename_i hrelay
      rw [if_pos hrelay]
      cases hroute : r.routes event.topic with
      | none =>
        rw [hroute] at hv
        cases hv
      | some route =>
        rw [hroute] at hv
        rw [h event.topic route hroute]
        exact hv
    · rename_i hrelay
      rw [if_neg hrelay]
      exact hv
  rw [DbProxy.eventLock] at hlock ⊢
  cases hv : resolveOutboxRoute r event.topic with
  | error e =>
    rw [hv] at hlock
    cases hlock
  | ok v =>
    rw [hv] at hlock
    rw [hresolve v hv]
    exact hlock

end Locks

end DbProxy
