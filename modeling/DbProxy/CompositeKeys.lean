/-
Names composed of several texts.

The keys of the cache, the members of the backlog and the names that are hashed
for an advisory lock all write the length of a part in front of it.  Different
parts therefore give different names, also when a part contains the separator
or ends like a role.

* `advisoryLockKey_inj` — a lock name determines its scope and components;
* `TakesKey.eq_scopeOf` — the key that a transaction takes for an event is that
  of the delivery which the route trigger chooses later;
* `compositeKeys` — the keys of the cache, the backlog and the locks.
-/
import DbProxy.BacklogFlush
import DbProxy.CacheScripts
import DbProxy.OutboxOrder

namespace DbProxy

open LengthPrefix PostgresOutboxQueue RedisSnapshotBacklog RedisSnapshotCache StepMachine

/-! ### Lock names -/

/-- One part of a lock name. -/
def keyPart (part : String) : List Char :=
  (toString part.utf8ByteSize).toList ++ ':' :: (part.toList ++ [':'])

theorem toList_advisoryLockKey (scope : String) (components : List String) :
    (advisoryLockKey scope components).toList = (scope :: components).flatMap keyPart := by
  have hfold : ∀ (components : List String) (key : String),
      (components.foldl (fun key component =>
        key ++ toString component.utf8ByteSize ++ ":" ++ component ++ ":") key).toList =
      key.toList ++ components.flatMap keyPart := by
    intro components
    induction components with
    | nil => simp
    | cons component components ih =>
      intro key
      rw [List.foldl_cons, ih, List.flatMap_cons, keyPart]
      simp [String.toList_append]
  rw [advisoryLockKey, hfold, List.flatMap_cons, keyPart]
  simp [String.toList_append]

/-- A part is read back from the front of a name. -/
theorem keyPart_append_inj {part part' : String} {rest rest' : List Char}
    (h : keyPart part ++ rest = keyPart part' ++ rest') : part = part' ∧ rest = rest' := by
  simp only [keyPart, List.append_assoc, List.cons_append, List.nil_append] at h
  obtain ⟨hsize, h⟩ := repr_append_inj h
  obtain ⟨hpart, h⟩ := text_append_inj hsize h
  exact ⟨hpart, (List.cons.inj h).2⟩

theorem keyPart_ne_nil (part : String) : keyPart part ≠ [] := by
  simp [keyPart]

theorem flatMap_keyPart_injective : Function.Injective (List.flatMap keyPart) := by
  intro parts
  induction parts with
  | nil =>
    intro parts' h
    cases parts' with
    | nil => rfl
    | cons part' parts' =>
      rw [List.flatMap_nil, List.flatMap_cons] at h
      exact absurd (List.append_eq_nil_iff.mp h.symm).1 (keyPart_ne_nil part')
  | cons part parts ih =>
    intro parts' h
    cases parts' with
    | nil =>
      rw [List.flatMap_nil, List.flatMap_cons] at h
      exact absurd (List.append_eq_nil_iff.mp h).1 (keyPart_ne_nil part)
    | cons part' parts' =>
      rw [List.flatMap_cons, List.flatMap_cons] at h
      obtain ⟨rfl, hrest⟩ := keyPart_append_inj h
      rw [ih hrest]

theorem advisoryLockKey_inj {scope scope' : String} {components components' : List String} :
    advisoryLockKey scope components = advisoryLockKey scope' components' ↔
      scope = scope' ∧ components = components' := by
  constructor
  · intro h
    have hlist := congrArg String.toList h
    rw [toList_advisoryLockKey, toList_advisoryLockKey] at hlist
    exact List.cons.inj (flatMap_keyPart_injective hlist)
  · rintro ⟨rfl, rfl⟩
    rfl

/-! ### The partition lock of an event -/

section Partitions

variable {decode : Bytes → Option EventEnvelope} {hash : String → ℤ}

/-- The key that a committing transaction takes for one of its events: `lock_partitions`
resolves the routes `r`, `apply_trade` uses the topic. -/
inductive TakesKey (decode : Bytes → Option EventEnvelope) (r : OutboxRoutes)
    (event : OutboxEvent) : String → Prop
  | commitRecords {effects normal : CommitEffects} {scope : String}
      (hnormal : effects.normalize decode = .ok normal) (hevent : event ∈ normal.outboxEvents)
      (hscope : commitLockScope decode r event = .ok scope) :
      TakesKey decode r event (partitionLockKey scope event.partitionKey)
  | applyTrade {request normal : TradeTransaction}
      (hnormal : normalizeTradeTransaction request = .ok normal)
      (hevent : event ∈ normal.outboxEvents) :
      TakesKey decode r event (partitionLockKey event.topic event.partitionKey)

/-- A commit locks the key of every event of it. -/
theorem mem_lockPartitions {r : OutboxRoutes} {events : List OutboxEvent} {keys : List String}
    (h : lockPartitions decode r events = .ok keys) {event : OutboxEvent}
    (hevent : event ∈ events) :
    ∃ scope, commitLockScope decode r event = .ok scope ∧
      partitionLockKey scope event.partitionKey ∈ keys := by
  obtain ⟨routes, hmap, h⟩ := Checks.bind_eq_ok.mp h
  obtain rfl := Except.ok.inj h
  obtain ⟨route, hroute, hscope⟩ :=
    Checks.exists_of_forall₂_right (Checks.mapM_eq_ok.mp hmap).flip hevent
  obtain ⟨scope, hok, hroute'⟩ := Checks.bind_eq_ok.mp hscope
  obtain rfl := Except.ok.inj hroute'
  exact ⟨scope, hok, List.mem_map.mpr ⟨_, mem_lockOrder.mpr hroute, rfl⟩⟩

/-- So does a trade. -/
theorem mem_tradeLocks {events : List OutboxEvent} {event : OutboxEvent}
    (hevent : event ∈ events) :
    partitionLockKey event.topic event.partitionKey ∈ tradeLocks events :=
  List.mem_map.mpr ⟨(event.topic, event.partitionKey),
    mem_lockOrder.mpr (List.mem_map_of_mem hevent), rfl⟩

/-- What a topic resolves to later is what the lock was taken for. -/
theorem TakesKey.eq_scopeOf {r r' : OutboxRoutes} {event : OutboxEvent} {key : String}
    {producer publisher destination : String} (h : TakesKey decode r event key)
    (hroutes : RoutesOk r) (hgrow : RoutesGrow r r')
    (hresolve : resolveOutboxRoute r' event.topic = .ok (producer, publisher, destination)) :
    key = partitionLockKey (scopeOf publisher destination event.topic) event.partitionKey := by
  have hlegacy : isRelayTopic event.topic = false →
      scopeOf publisher destination event.topic = event.topic := by
    intro htopic
    simp only [resolveOutboxRoute, htopic, Bool.false_eq_true, if_false, Except.ok.injEq,
      Prod.mk.injEq] at hresolve
    rw [scopeOf, if_pos hresolve.2.1.symm]
  cases h with
  | commitRecords hnormal hevent hscope =>
    rw [commitLockScope] at hscope
    split at hscope
    · cases hscope
    · rename_i henvelope
      obtain rfl := Except.ok.inj hscope
      rw [hlegacy (fromOutbox_none henvelope)]
    · rename_i envelope henvelope
      have hrelay := fromOutbox_some henvelope
      cases hroute : r.routes event.topic with
      | none =>
        rw [hroute] at hscope
        cases hscope
      | some route =>
        rw [hroute] at hscope
        obtain rfl := Except.ok.inj hscope
        -- the trigger finds the route that the commit found
        rw [resolveOutboxRoute, if_pos hrelay, hgrow _ _ hroute] at hresolve
        simp only [Except.ok.injEq, Prod.mk.injEq] at hresolve
        obtain ⟨-, rfl, rfl⟩ := hresolve
        rw [scopeOf, if_neg (hroutes _ _ hroute)]
  | applyTrade hnormal hevent =>
    have htopic : isRelayTopic event.topic = false := by
      obtain ⟨haccepted, hnormal'⟩ := normalizeTrade_ok hnormal
      exact haccepted.topics event hevent
    rw [hlegacy htopic]

theorem routes_tableAfter (s : OutboxSystem) (result : Except StorageError (Bool × OutboxTable)) :
    (s.tableAfter result).routes = s.routes := by
  cases result <;> rfl

theorem routes_claimAfter (s : OutboxSystem)
    (result : Except StorageError (List OutboxLease × OutboxTable)) :
    (s.claimAfter result).routes = s.routes := by
  cases result <;> rfl

theorem step_routes {s t : OutboxSystem} {action : OutboxAction}
    (h : s.step decode hash action = some t) :
    RoutesGrow s.routes t.routes ∧ (RoutesOk s.routes → RoutesOk t.routes) := by
  have hsame : t.routes = s.routes →
      RoutesGrow s.routes t.routes ∧ (RoutesOk s.routes → RoutesOk t.routes) := by
    intro heq
    rw [heq]
    exact ⟨fun _ _ h => h, id⟩
  have hafter : ∀ {result : Except StorageError OutboxRoutes},
      (∀ r, result = .ok r → RoutesGrow s.routes r ∧ (RoutesOk s.routes → RoutesOk r)) →
      RoutesGrow s.routes (s.routesAfter result).routes ∧
        (RoutesOk s.routes → RoutesOk (s.routesAfter result).routes) := by
    intro result hresult
    cases result with
    | error e => exact ⟨fun _ _ h => h, id⟩
    | ok r => exact hresult r rfl
  cases action with
  | registerPublisher id fingerprint =>
    obtain rfl := Option.some.inj h
    exact hafter fun r => registerPublisher_grows
  | registerRoute route =>
    obtain rfl := Option.some.inj h
    exact hafter fun r => registerRoute_grows
  | beginCommit tx operationId effects =>
    obtain ⟨keys, events, -, rfl⟩ := beginCommit_cases h
    exact hsame rfl
  | beginTrade tx request =>
    obtain ⟨events, tr, -, -, -, rfl⟩ := beginTrade_cases h
    exact hsame rfl
  | takeLock tx =>
    obtain ⟨tr, lock, waiting, -, -, -, rfl⟩ := takeLock_cases h
    exact hsame rfl
  | insertEvent tx now =>
    rcases insertEvent_cases hash h with rfl | ⟨tr, event, pending, row, -, -, -, -, rfl⟩
    · exact hsame rfl
    · exact hsame rfl
  | commit tx =>
    obtain ⟨table, rfl, -⟩ := commit_cases h
    exact hsame rfl
  | abort tx =>
    obtain ⟨-, h⟩ := Option.ite_none_right_eq_some.mp h
    obtain rfl := Option.some.inj h
    exact hsame rfl
  | claim workerId leaseMs publisher maximum locked clock =>
    obtain rfl := Option.some.inj h
    exact hsame (routes_claimAfter _ _)
  | acknowledge lease checked clock =>
    obtain ⟨-, h⟩ := Option.ite_none_right_eq_some.mp h
    obtain rfl := Option.some.inj h
    exact hsame rfl
  | fail lease error retryDelayMs maxAttempts checked clock =>
    obtain ⟨-, h⟩ := Option.ite_none_right_eq_some.mp h
    obtain rfl := Option.some.inj h
    exact hsame (routes_tableAfter _ _)
  | retryDeadLetter eventId operator reason checked clock =>
    obtain rfl := Option.some.inj h
    exact hsame (routes_tableAfter _ _)

theorem run_routes {s t : OutboxSystem} {actions : List OutboxAction}
    (hrun : run (OutboxSystem.step decode hash) s actions = some t) :
    RoutesGrow s.routes t.routes ∧ (RoutesOk s.routes → RoutesOk t.routes) := by
  refine run_rel (P := fun _ => True)
    (R := fun s t => RoutesGrow s.routes t.routes ∧ (RoutesOk s.routes → RoutesOk t.routes))
    (fun s => ⟨fun _ _ h => h, id⟩) ?_ (fun _ _ _ _ _ => trivial)
    (fun _ _ _ _ h => step_routes h) trivial hrun
  rintro a b c ⟨hab, hokab⟩ ⟨hbc, hokbc⟩
  exact ⟨fun topic route h => hbc topic route (hab topic route h), fun h => hokbc (hokab h)⟩

/-- In some run, a transaction takes the key for the event and later stores the event as the
row. -/
def TakenAndStored (decode : Bytes → Option EventEnvelope) (hash : String → ℤ) (key : String)
    (row : OutboxRow) : Prop :=
  ∃ (before after : List OutboxAction) (s t : OutboxSystem) (event : OutboxEvent)
    (tr : OutboxTx) (now order : ℕ),
    run (OutboxSystem.step decode hash) {} before = some s ∧ TakesKey decode s.routes event key ∧
    run (OutboxSystem.step decode hash) s after = some t ∧
    OutboxSystem.newRow tr event now order t.routes = .ok row

theorem TakenAndStored.key_eq {key : String} {row : OutboxRow}
    (h : TakenAndStored decode hash key row) :
    key = partitionLockKey (scopeOf row.publisherId row.destination row.topic) row.partitionKey ∧
      RouteOk row := by
  obtain ⟨before, after, s, t, event, tr, now, order, hbefore, htakes, hafter, hrow⟩ := h
  have hok : RoutesOk s.routes := (run_routes hbefore).2 fun _ _ h => by cases h
  obtain ⟨hgrow, hok'⟩ := run_routes hafter
  have hnew : NewRow hash t.routes event order row := newRow_ok hrow
  refine ⟨?_, hnew.routeOk (hok' hok)⟩
  rw [OutboxSystem.newRow] at hrow
  split at hrow
  · split at hrow
    · cases hrow
    · cases hrow
  obtain ⟨⟨producer, publisher, destination⟩, hresolve, hrow⟩ := Checks.bind_eq_ok.mp hrow
  obtain rfl := Except.ok.inj hrow
  exact htakes.eq_scopeOf hok hgrow hresolve

end Partitions

/-! ### All names -/

/-- **Names do not collide.**  Keys of the cache determine record and role, members of the
backlog the record, lock names scope and components; and the events of one publisher, destination
and partition have one lock name, whoever commits them and whichever routes are registered
meanwhile. -/
theorem compositeKeys (decode : Bytes → Option EventEnvelope) (hash : String → ℤ) :
    (∀ (r r' : RecordKey) (role role' : CacheRole),
      keyOf r role = keyOf r' role' ↔ r = r' ∧ role = role') ∧
    (∀ r r' : RecordKey, member r = member r' ↔ r = r') ∧
    (∀ (scope scope' : String) (components components' : List String),
      advisoryLockKey scope components = advisoryLockKey scope' components' ↔
        scope = scope' ∧ components = components') ∧
    (∀ (key key' : String) (row row' : OutboxRow), TakenAndStored decode hash key row →
      TakenAndStored decode hash key' row' → row.publisherId = row'.publisherId →
      row.destination = row'.destination → row.partitionKey = row'.partitionKey → key = key') := by
  refine ⟨fun r r' role role' => keyOf_inj, fun r r' => member_injective.eq_iff,
    fun scope scope' components components' => advisoryLockKey_inj, ?_⟩
  intro key key' row row' h h' hpublisher hdestination hpartition
  obtain ⟨hkey, hroute⟩ := h.key_eq
  obtain ⟨hkey', hroute'⟩ := h'.key_eq
  rw [hkey, hkey', scopeOf_eq hroute hroute' hpublisher hdestination, hpartition]

def ordersEvent (eventId : String) : OutboxEvent := ⟨eventId, "orders", "p", [], 5⟩

def ordersTrade : TradeTransaction :=
  ⟨"op-2", ⟨"trade-1", 0, none, .escrowed, [], 5⟩,
    [⟨⟨"player", "1"⟩, "profile", 1, 0, [1], 5⟩], [], [ordersEvent "e-2"], []⟩

def ordersRow (eventId : String) : OutboxRow where
  eventId := eventId
  operationId := "op"
  tradeId := none
  topic := "orders"
  partitionKey := "p"
  payload := []
  occurredAtUnixMs := 5
  availableAt := 0
  producer := legacyPublisher
  publisherId := legacyPublisher
  destination := legacyStreamPrefix ++ "orders"
  enqueueOrder := 1

/-- An event of a commit and an event of a trade, for one topic and partition. -/
theorem compositeKeys_orders :
    ∃ (key key' : String) (row row' : OutboxRow),
      TakenAndStored (fun _ => none) (fun _ => 0) key row ∧
      TakenAndStored (fun _ => none) (fun _ => 0) key' row' ∧
      row.eventId = "e-1" ∧ row'.eventId = "e-2" ∧ key = key' := by
  have hcommit : TakesKey (fun _ => none) {} (ordersEvent "e-1")
      (partitionLockKey "orders" "p") :=
    @TakesKey.commitRecords _ _ _ ⟨[], [ordersEvent "e-1"]⟩ ⟨[], [ordersEvent "e-1"]⟩ "orders"
      (by decide) (by decide) (by decide)
  have htrade : TakesKey (fun _ => none) {} (ordersEvent "e-2")
      (partitionLockKey "orders" "p") :=
    @TakesKey.applyTrade _ _ _ ordersTrade ordersTrade (by decide) (by decide)
  have hnew : ∀ eventId, OutboxSystem.newRow ⟨"op", none, [], []⟩ (ordersEvent eventId) 0 1 {} =
      .ok (ordersRow eventId) := by
    intro eventId
    have htopic : isRelayTopic "orders" = false := by decide
    simp [OutboxSystem.newRow, ordersEvent, ordersRow, bigintLimit, resolveOutboxRoute, htopic]
  have hstored : TakenAndStored (fun _ => none) (fun _ => 0) _ (ordersRow "e-1") :=
    ⟨[], [], {}, {}, _, _, _, _, rfl, hcommit, rfl, hnew "e-1"⟩
  have hstored' : TakenAndStored (fun _ => none) (fun _ => 0) _ (ordersRow "e-2") :=
    ⟨[], [], {}, {}, _, _, _, _, rfl, htrade, rfl, hnew "e-2"⟩
  exact ⟨_, _, _, _, hstored, hstored', rfl, rfl,
    (compositeKeys _ _).2.2.2 _ _ _ _ hstored hstored' rfl rfl rfl⟩

end DbProxy
