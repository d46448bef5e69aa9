/-
The read connections of one tenant (`postgres_read_pool.rs`).

An acquirer waits for a permit of the semaphore, takes the first idle connection and
holds both in a lease.  A lease that is dropped, for whatever reason, puts the connection
back before it releases the permit.  Each of these is a step of its own: anything may
happen in between.

* `act_exchange` — no step of an acquirer creates or loses a connection or a permit;
* `run_readPoolInv` — idle and leased connections are those that were opened, free and held
  permits are as many;
* `length_idle_add_leased`, `unpopped_add_permits_le`, `pop_finds` — what follows from that;
* `usage_eq` — the gauge shows the permits that acquirers have;
* `readPool_keeps_connections` — the pool in every interleaving.
-/
import Mathlib.Algebra.Order.Group.Multiset
import DbProxy.CacheBatchScript
import DbProxy.Checks
import DbProxy.TaskTable

namespace DbProxy

open StepMachine

/-! ### The pool -/

/-- The variants of `StorageError` that the pool itself produces. -/
inductive ReadPoolError
  | invalidPostgresReadConnections
  | invalidPostgresConnectionWaitTimeout
  | invalidPostgresReconnectCooldown
  | postgresConnectionWaitTimeout (timeoutMs : ℕ)
  /-- A connection cannot be opened. -/
  | connect (message : String)
deriving DecidableEq, Repr

/-- Durations in milliseconds. -/
structure PostgresRequestConfig where
  connectionWaitTimeout : ℕ
  reconnectCooldown : ℕ

/-- `representable` says of a duration that the clock can be advanced by it. -/
def PostgresRequestConfig.validate (representable : ℕ → Bool) (self : PostgresRequestConfig) :
    Except ReadPoolError PostgresRequestConfig :=
  if self.connectionWaitTimeout < 1 ∨ !representable self.connectionWaitTimeout then
    .error .invalidPostgresConnectionWaitTimeout
  else if self.reconnectCooldown < 1 ∨ !representable self.reconnectCooldown then
    .error .invalidPostgresReconnectCooldown
  else .ok self

/-- A connection is a number, in the order in which they were opened. -/
structure PostgresReadPool where
  /-- The queue behind the mutex; a poisoned mutex is used like any other. -/
  idle : List ℕ
  /-- The free permits of the semaphore. -/
  permits : ℕ
  wait : ℕ
  capacity : ℕ
deriving DecidableEq, Repr

/-- `opened` says for each connection whether it can be opened. -/
def PostgresReadPool.connect (representable : ℕ → Bool) (opened : ℕ → Except ReadPoolError Unit)
    (size : ℕ) (config : PostgresRequestConfig) : Except ReadPoolError PostgresReadPool :=
  if size < 1 ∨ 64 < size then .error .invalidPostgresReadConnections
  else do
    let config ← config.validate representable
    (List.range size).forM opened
    return { idle := List.range size, permits := size, wait := config.connectionWaitTimeout,
             capacity := size }

structure ReadPoolUsage where
  capacity : ℕ
  inUse : ℕ
deriving DecidableEq, Repr

def PostgresReadPool.usage (self : PostgresReadPool) : ReadPoolUsage :=
  { capacity := self.capacity, inUse := self.capacity - min self.permits self.capacity }

/-! ### The acquirers -/

/-- How an acquirer ends. -/
inductive ReadEnd
  | completed
  | failed
  | cancelled
  | panicked
  | timedOut (error : ReadPoolError)
deriving DecidableEq, Repr

inductive ReadPhase
  /-- In the queue of the semaphore; a waiter that is `leaving` has not left it yet. -/
  | waiting (leaving : Option ReadEnd)
  /-- The semaphore has assigned a permit that the acquirer has not seen yet. -/
  | granted (leaving : Option ReadEnd)
  /-- `acquire_owned` has returned the permit. -/
  | permitted
  /-- The lease is held. -/
  | leased (client : ℕ)
  /-- Only the permit is left to drop. -/
  | releasing (reason : ReadEnd)
  | ended (reason : ReadEnd)
deriving DecidableEq, Repr

inductive ReadAction
  /-- The semaphore assigns a free permit; it may choose any waiter. -/
  | grant
  /-- The wait is over before the permit was seen. -/
  | elapse
  /-- The caller drops its future. -/
  | cancel
  /-- The future in the queue is gone. -/
  | leave
  /-- `acquire_owned` returns. -/
  | observe
  | popFront
  /-- `ReadLease::drop`, at the end of the lease. -/
  | pushBack (reason : ReadEnd)
  /-- The permit is dropped. -/
  | release
deriving DecidableEq, Repr

/-- `acquire` and the drop of its lease, step by step. -/
def PostgresReadPool.act (pool : PostgresReadPool) :
    ReadPhase → ReadAction → Option (PostgresReadPool × ReadPhase)
  | .waiting leaving, .grant =>
    if 0 < pool.permits then
      some ({ pool with permits := pool.permits - 1 }, .granted leaving)
    else none
  | .waiting none, .elapse =>
    some (pool, .waiting (some (.timedOut
      (.postgresConnectionWaitTimeout (durationMillis pool.wait)))))
  | .waiting none, .cancel => some (pool, .waiting (some .cancelled))
  | .granted none, .cancel => some (pool, .granted (some .cancelled))
  | .waiting (some reason), .leave => some (pool, .ended reason)
  -- a permit that nobody will see goes back
  | .granted (some reason), .leave =>
    some ({ pool with permits := pool.permits + 1 }, .ended reason)
  | .granted none, .observe => some (pool, .permitted)
  | .permitted, .popFront =>
    match pool.idle with
    | [] => some (pool, .releasing .panicked)
    | client :: idle => some ({ pool with idle }, .leased client)
  | .leased client, .pushBack reason =>
    some ({ pool with idle := pool.idle ++ [client] }, .releasing reason)
  | .releasing reason, .release =>
    some ({ pool with permits := pool.permits + 1 }, .ended reason)
  | _, _ => none

/-- The pool with everyone who ever called `acquire`. -/
abbrev ReadPoolSystem := TaskTable.Table PostgresReadPool ReadPhase

abbrev readPoolStep : ReadPoolSystem → TaskTable.TaskEvent ReadAction → Option ReadPoolSystem :=
  TaskTable.step (.waiting none) PostgresReadPool.act

namespace ReadPhase

/-- The connection of a lease. -/
def client : ReadPhase → Option ℕ
  | .leased client => some client
  | _ => none

/-- A permit was granted and the connection is not taken yet. -/
def unpopped : ReadPhase → Bool
  | .granted _ => true
  | .permitted => true
  | _ => false

/-- The permits that the acquirer has. -/
def permits : ReadPhase → ℕ
  | .waiting _ => 0
  | .ended _ => 0
  | _ => 1

end ReadPhase

/-- The connections in the leases. -/
def leasedClients (tasks : List ReadPhase) : List ℕ := tasks.filterMap ReadPhase.client

/-! ### One step -/

/-- What one acquirer and the pool exchange: what one has more, the other has less. -/
structure ReadPoolExchange (pool pool' : PostgresReadPool) (phase phase' : ReadPhase) : Prop where
  clients : (pool'.idle ++ phase'.client.toList).Perm (pool.idle ++ phase.client.toList)
  permits : pool'.permits + phase'.permits = pool.permits + phase.permits
  capacity : pool'.capacity = pool.capacity

theorem act_exchange {pool pool' : PostgresReadPool} {phase phase' : ReadPhase}
    {action : ReadAction} (h : pool.act phase action = some (pool', phase')) :
    ReadPoolExchange pool pool' phase phase' := by
  revert h
  fun_cases PostgresReadPool.act pool phase action with
  | case1 leaving hfree =>
    -- a permit of the semaphore becomes one of the waiter
    rintro ⟨⟩
    refine ⟨List.Perm.refl _, ?_, rfl⟩
    show pool.permits - 1 + 1 = pool.permits + 0
    omega
  | case10 client idle hidle =>
    -- the first connection moves into the lease
    rintro ⟨⟩
    refine ⟨?_, rfl, rfl⟩
    show (idle ++ [client]).Perm (pool.idle ++ [])
    rw [hidle, List.append_nil]
    exact List.perm_append_singleton client idle
  | case11 client reason =>
    rintro ⟨⟩
    refine ⟨?_, rfl, rfl⟩
    show ((pool.idle ++ [client]) ++ []).Perm (pool.idle ++ [client])
    rw [List.append_nil]
  -- a permit goes back, or nothing moves
  | case3 | case4 | case5 | case6 _ | case7 _ | case8 | case9 _ | case12 _ =>
    rintro ⟨⟩
    exact ⟨List.Perm.refl _, rfl, rfl⟩
  | case2 | case13 => rintro ⟨⟩

/-! ### Runs -/

/-- The laws of a pool of `size` connections. -/
structure ReadPoolInv (size : ℕ) (s : ReadPoolSystem) : Prop where
  clients : (s.shared.idle ++ leasedClients s.tasks).Perm (List.range size)
  permits : s.shared.permits + (s.tasks.map ReadPhase.permits).sum = size
  capacity : s.shared.capacity = size

theorem connect_eq_ok {representable : ℕ → Bool} {opened : ℕ → Except ReadPoolError Unit}
    {size : ℕ} {config : PostgresRequestConfig} {pool : PostgresReadPool}
    (h : PostgresReadPool.connect representable opened size config = .ok pool) :
    pool.idle = List.range size ∧ pool.permits = size ∧ pool.capacity = size := by
  rw [PostgresReadPool.connect] at h
  split at h
  · cases h
  · obtain ⟨valid, -, h⟩ := Checks.bind_eq_ok.mp h
    obtain ⟨_, -, h⟩ := Checks.bind_eq_ok.mp h
    obtain rfl := Except.ok.inj h
    exact ⟨rfl, rfl, rfl⟩

theorem leasedClients_cons (phase : ReadPhase) (tasks : List ReadPhase) :
    leasedClients (phase :: tasks) = phase.client.toList ++ leasedClients tasks := by
  rw [leasedClients, List.filterMap_cons]
  cases phase.client with
  | none => rfl
  | some client => rfl

theorem sum_clients (tasks : List ReadPhase) :
    (tasks.map fun phase => (phase.client.toList : Multiset ℕ)).sum = leasedClients tasks := by
  induction tasks with
  | nil => rfl
  | cons phase tasks ih =>
    rw [List.map_cons, List.sum_cons, ih, leasedClients_cons, Multiset.coe_add]

/-- Every run from a pool that was just connected keeps both laws. -/
theorem run_readPoolInv {representable : ℕ → Bool} {opened : ℕ → Except ReadPoolError Unit}
    {size : ℕ} {config : PostgresRequestConfig} {pool : PostgresReadPool}
    {events : List (TaskTable.TaskEvent ReadAction)} {s : ReadPoolSystem}
    (hconnect : PostgresReadPool.connect representable opened size config = .ok pool)
    (hrun : run readPoolStep ⟨pool, []⟩ events = some s) : ReadPoolInv size s := by
  obtain ⟨hidle, hpermits, hcapacity⟩ := connect_eq_ok hconnect
  refine ⟨?_, ?_, ?_⟩
  · have htotal := TaskTable.run_total (fun pool => (pool.idle : Multiset ℕ))
      (fun phase => (phase.client.toList : Multiset ℕ)) rfl (fun _ _ _ _ _ h => by
        rw [Multiset.coe_add, Multiset.coe_add, Multiset.coe_eq_coe]
        exact (act_exchange h).clients) hrun
    rw [TaskTable.total, TaskTable.total, sum_clients, sum_clients, Multiset.coe_add,
      Multiset.coe_add, Multiset.coe_eq_coe] at htotal
    rw [← hidle]
    exact htotal.trans (List.Perm.of_eq (List.append_nil pool.idle))
  · have htotal := TaskTable.run_total PostgresReadPool.permits ReadPhase.permits rfl
      (fun _ _ _ _ _ h => (act_exchange h).permits) hrun
    rw [← hpermits]
    exact htotal
  · have htotal := TaskTable.run_total PostgresReadPool.capacity (fun _ : ReadPhase => 0) rfl
      (fun _ _ _ _ _ h => (act_exchange h).capacity) hrun
    have hzero : (s.tasks.map fun _ => 0).sum = 0 := by simp
    rw [TaskTable.total, hzero] at htotal
    rw [← hcapacity]
    exact htotal

/-! ### What follows from the laws -/

section

variable {size : ℕ} {s : ReadPoolSystem}

theorem length_idle_add_leased (h : ReadPoolInv size s) :
    s.shared.idle.length + (leasedClients s.tasks).length = size := by
  rw [← List.length_append, h.clients.length_eq, List.length_range]

/-- A lease comes with a permit, and so does a connection that is still to be taken. -/
theorem unpopped_add_client_le (phase : ReadPhase) :
    (if phase.unpopped = true then 1 else 0) + phase.client.toList.length ≤ phase.permits := by
  cases phase with
  | waiting leaving | ended reason => exact Nat.le_refl 0
  | granted leaving | permitted | leased client => exact Nat.le_refl 1
  | releasing reason => exact Nat.zero_le 1

theorem unpopped_add_leased_le (tasks : List ReadPhase) :
    tasks.countP ReadPhase.unpopped + (leasedClients tasks).length ≤
      (tasks.map ReadPhase.permits).sum := by
  induction tasks with
  | nil => exact Nat.le_refl 0
  | cons phase tasks ih =>
    have hfirst := unpopped_add_client_le phase
    rw [List.countP_cons, leasedClients_cons, List.length_append, List.map_cons, List.sum_cons]
    omega

theorem unpopped_add_permits_le (h : ReadPoolInv size s) :
    s.tasks.countP ReadPhase.unpopped + s.shared.permits ≤ s.shared.idle.length := by
  have hidle := length_idle_add_leased h
  have hheld := unpopped_add_leased_le s.tasks
  have hpermits := h.permits
  omega

/-- Whoever has a permit and no connection yet finds one. -/
theorem pop_finds {i : ℕ} (h : ReadPoolInv size s) (hpermitted : s.tasks[i]? = some .permitted) :
    ∃ client t, readPoolStep s (.act i .popFront) = some t ∧
      t.tasks[i]? = some (.leased client) := by
  have hcount : 0 < s.tasks.countP ReadPhase.unpopped :=
    List.countP_pos_iff.mpr ⟨.permitted, List.mem_of_getElem? hpermitted, rfl⟩
  have hidle := unpopped_add_permits_le h
  cases hqueue : s.shared.idle with
  | nil =>
    -- the permit would have no connection
    rw [hqueue, List.length_nil] at hidle
    omega
  | cons client idle =>
    have hpop : s.shared.act .permitted .popFront =
        some ({ s.shared with idle }, .leased client) := by
      rw [PostgresReadPool.act, hqueue]
    have hlt : i < s.tasks.length := (List.getElem?_eq_some_iff.mp hpermitted).1
    exact ⟨client, _, TaskTable.step_act hpermitted hpop, List.getElem?_set_self hlt⟩

/-- Two leases hold two connections. -/
theorem leased_inj {i j client : ℕ} (h : ReadPoolInv size s)
    (hi : s.tasks[i]? = some (.leased client)) (hj : s.tasks[j]? = some (.leased client)) :
    i = j := by
  have hnodup : (leasedClients s.tasks).Nodup :=
    (List.nodup_append.mp (h.clients.nodup_iff.mpr List.nodup_range)).2.1
  rw [leasedClients, List.Nodup, List.pairwise_filterMap, List.pairwise_iff_getElem] at hnodup
  obtain ⟨hilt, hi⟩ := List.getElem?_eq_some_iff.mp hi
  obtain ⟨hjlt, hj⟩ := List.getElem?_eq_some_iff.mp hj
  rcases Nat.lt_trichotomy i j with hlt | heq | hlt
  · exact absurd rfl (hnodup i j hilt hjlt hlt client (congrArg ReadPhase.client hi) client
      (congrArg ReadPhase.client hj))
  · exact heq
  · exact absurd rfl (hnodup j i hjlt hilt hlt client (congrArg ReadPhase.client hj) client
      (congrArg ReadPhase.client hi))

/-- The permits in use are those that acquirers have. -/
theorem usage_eq (h : ReadPoolInv size s) :
    s.shared.usage = { capacity := size, inUse := (s.tasks.map ReadPhase.permits).sum } := by
  have hpermits := h.permits
  rw [PostgresReadPool.usage, h.capacity]
  congr 1
  omega

end

/-- **The read pool keeps its connections.**  In every interleaving of acquirers that wait,
time out, are cancelled, or drop their lease for any reason: idle and leased connections
together are the capacity; there is an idle connection for every free permit and for every
granted one whose connection is not taken yet, so that the pop behind a permit always finds
a connection; and no connection is in two leases. -/
theorem readPool_keeps_connections (representable : ℕ → Bool)
    (opened : ℕ → Except ReadPoolError Unit) (size : ℕ) (config : PostgresRequestConfig)
    (pool : PostgresReadPool) (events : List (TaskTable.TaskEvent ReadAction))
    (s : ReadPoolSystem)
    (hconnect : PostgresReadPool.connect representable opened size config = .ok pool)
    (hrun : run readPoolStep ⟨pool, []⟩ events = some s) :
    s.shared.idle.length + (leasedClients s.tasks).length = s.shared.capacity ∧
      s.tasks.countP ReadPhase.unpopped + s.shared.permits ≤ s.shared.idle.length ∧
      (∀ i, s.tasks[i]? = some .permitted → ∃ client t,
        readPoolStep s (.act i .popFront) = some t ∧ t.tasks[i]? = some (.leased client)) ∧
      ∀ i j client : ℕ, s.tasks[i]? = some (.leased client) →
        s.tasks[j]? = some (.leased client) → i = j := by
  have inv := run_readPoolInv hconnect hrun
  refine ⟨?_, unpopped_add_permits_le inv, fun i => pop_finds inv,
    fun i j client => leased_inj inv⟩
  rw [inv.capacity]
  exact length_idle_add_leased inv

def twoConnections : PostgresReadPool where
  idle := [0, 1]
  permits := 2
  wait := 1000
  capacity := 2

/-- The first reader panics and has put its connection back, but not its permit; the second
is cancelled and the third times out, both with a permit; the fourth sees its permit. -/
def crowdedRun : List (TaskTable.TaskEvent ReadAction) :=
  [.spawn, .act 0 .grant, .act 0 .observe, .act 0 .popFront, .spawn, .spawn, .act 1 .grant,
    .act 2 .elapse, .act 1 .cancel, .act 1 .leave, .act 2 .grant, .act 2 .leave,
    .act 0 (.pushBack .panicked), .spawn, .act 3 .grant, .act 3 .observe]

theorem readPool_keeps_connections_crowded : ∃ s client t,
    run readPoolStep ⟨twoConnections, []⟩ crowdedRun = some s ∧
      s.shared.idle.length + (leasedClients s.tasks).length = s.shared.capacity ∧
      readPoolStep s (.act 3 .popFront) = some t ∧ t.tasks[3]? = some (.leased client) := by
  obtain ⟨s, hrun, hpermitted⟩ : ∃ s, run readPoolStep ⟨twoConnections, []⟩ crowdedRun = some s ∧
      s.tasks[3]? = some .permitted := exists_of_any (by decide)
  have hconnect : PostgresReadPool.connect (fun _ => true) (fun _ => .ok ()) 2 ⟨1000, 1000⟩ =
      .ok twoConnections := rfl
  obtain ⟨hsum, -, hpop, -⟩ := readPool_keeps_connections _ _ _ _ _ _ s hconnect hrun
  obtain ⟨client, t, hstep, hleased⟩ := hpop 3 hpermitted
  exact ⟨s, client, t, hrun, hsum, hstep, hleased⟩

end DbProxy
