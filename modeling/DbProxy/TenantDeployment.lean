/-
The configuration of a server with tenants (`tenant_config.rs`, `run_servers`).

A deployment names a file per tenant.  Whatever is ambiguous is refused before any
connection is opened: `validate_isolation` goes through the configurations once and
remembers tokens, databases and endpoints that are taken.

* `isolation_accepts` — it accepts exactly the deployments whose tenants share nothing;
* `deployment_starts` — what it accepts, `TenantBackend::new` and `bind_tenants` accept.
-/
import DbProxy.Tenancy

namespace DbProxy

structure TenantConfigRef where
  id : String
  config : String
deriving DecidableEq, Repr

structure TenantDeployment where
  configVersion : ℕ
  listenAddr : String
  maxConnections : ℕ
  tenants : List TenantConfigRef
deriving DecidableEq, Repr

/-- The loop of `read_deployment` over the declarations. -/
def checkDeclarations (ids : List String) : List TenantConfigRef → Except String Unit
  | [] => .ok ()
  | tenant :: rest =>
    if !validTenantId tenant.id ∨ tenant.id ∈ ids ∨ tenant.config = "" then
      .error "invalid or duplicate tenant declaration"
    else checkDeclarations (tenant.id :: ids) rest

/-- The checks of `read_deployment`. -/
def readDeployment (value : TenantDeployment) : Except String TenantDeployment :=
  if value.configVersion ≠ 1 ∨ value.tenants = [] ∨ 64 < value.tenants.length ∨
      ¬ (1 ≤ value.maxConnections ∧ value.maxConnections ≤ maxPermits) then
    .error "invalid tenant deployment version/count/connection limit"
  else do
    checkDeclarations [] value.tenants
    return value

inductive ResolvedStorage
  | memory
  | postgresRedis (postgresUrl redisUrl cacheRedisUrl : String)
deriving DecidableEq, Repr

/-- Durations in milliseconds; `C` is the type of the crash diagnostics. -/
structure ResolvedDbProxyConfig (C : Type) where
  authToken : String
  maxFrameBytes : ℕ
  maxPayloadBytes : ℕ
  maxConnections : ℕ
  maxInFlightPerConnection : ℕ
  handshakeTimeout : ℕ
  shutdownGrace : ℕ
  runtimeWorkerThreads : ℕ
  storage : ResolvedStorage
  /-- The addresses of the outbox publishers. -/
  publishers : List String
  logFilter : String
  observabilityListenAddr : Option String
  crashDiagnostics : C
deriving DecidableEq

def reject (refused : Prop) [Decidable refused] (message : String) : Except String Unit :=
  if refused then .error message else .ok ()

def requirePositive (name : String) (value : ℕ) : Except String Unit :=
  reject (value = 0) (name ++ " must be greater than zero")

variable {C : Type}

/-- The checks of `DbProxyConfig::resolve` on the server section. -/
def ResolvedDbProxyConfig.resolveServer (configVersion : ℕ) (self : ResolvedDbProxyConfig C) :
    Except String (ResolvedDbProxyConfig C) := do
  reject (configVersion ≠ 1) ("unsupported DBProxy configVersion: " ++ toString configVersion)
  requirePositive "server.maxFrameBytes" self.maxFrameBytes
  reject (¬ (1 ≤ self.maxConnections ∧ self.maxConnections ≤ maxPermits))
    "server.maxConnections is outside the supported range"
  reject (¬ (1 ≤ self.maxInFlightPerConnection ∧ self.maxInFlightPerConnection ≤ inFlightLimit))
    ("server.maxInFlightPerConnection must be 1..=" ++ toString inFlightLimit)
  requirePositive "server.maxPayloadBytes" self.maxPayloadBytes
  reject (self.maxFrameBytes < self.maxPayloadBytes)
    "server.maxPayloadBytes cannot exceed server.maxFrameBytes"
  requirePositive "server.handshakeTimeoutMs" self.handshakeTimeout
  requirePositive "server.shutdownGraceMs" self.shutdownGrace
  requirePositive "runtime.workerThreads" self.runtimeWorkerThreads
  return self

/-! ### Isolation -/

section Isolation

variable [DecidableEq C]

/-- What the loop has seen; `monitoring` are the endpoints of the metrics. -/
structure SeenTenants where
  tokens : List String := []
  databases : List String := []
  redisDatabases : List ℤ := []
  monitoring : List String := []

/-- `postgresDatabase` and `redisDatabase` parse a connection string: the named database, if
there is one, and the number of the database. -/
structure ConnectionParsers where
  postgresDatabase : String → Option (Option String)
  redisDatabase : String → Option ℤ

variable (parsers : ConnectionParsers)

/-- The database of a PostgreSQL address. -/
def ConnectionParsers.database (url : String) : Except String String :=
  match parsers.postgresDatabase url with
  | none => .error "invalid tenant PostgreSQL connection"
  | some none => .error "explicit PostgreSQL database required"
  | some (some name) =>
    if name = "" then .error "explicit PostgreSQL database required" else .ok name

/-- The database of a Redis address. -/
def ConnectionParsers.redis (url : String) : Except String ℤ :=
  match parsers.redisDatabase url with
  | none => .error "invalid tenant Redis connection"
  | some db => if db < 0 then .error "invalid tenant Redis database" else .ok db

/-- The part of the loop body about the storage. -/
def SeenTenants.addStorage (seen : SeenTenants) (config : ResolvedDbProxyConfig C) :
    Except String SeenTenants :=
  match config.storage with
  | .memory => .ok seen
  | .postgresRedis postgresUrl redisUrl cacheRedisUrl => do
    let name ← parsers.database postgresUrl
    if name ∈ seen.databases then
      .error "PostgreSQL database names must be unique per tenant"
    else do
      let own ← (redisUrl :: cacheRedisUrl :: config.publishers).mapM parsers.redis
      if own.any fun db => db ∈ seen.redisDatabases then
        .error "Redis cache/backlog/outbox database numbers must not overlap tenants"
      else .ok { seen with databases := name :: seen.databases
                           redisDatabases := own ++ seen.redisDatabases }

/-- The settings that are shared by all tenants. -/
def SharesListener (first config : ResolvedDbProxyConfig C) : Prop :=
  config.maxFrameBytes = first.maxFrameBytes ∧ config.maxPayloadBytes = first.maxPayloadBytes ∧
  config.handshakeTimeout = first.handshakeTimeout ∧
  config.shutdownGrace = first.shutdownGrace ∧
  config.runtimeWorkerThreads = first.runtimeWorkerThreads ∧ config.logFilter = first.logFilter

instance (first config : ResolvedDbProxyConfig C) : Decidable (SharesListener first config) :=
  inferInstanceAs (Decidable (_ ∧ _))

/-- The body of the loop of `validate_isolation`. -/
def SeenTenants.add (first : ResolvedDbProxyConfig C) (index : ℕ) (seen : SeenTenants)
    (config : ResolvedDbProxyConfig C) : Except String SeenTenants :=
  if ¬ (16 ≤ config.authToken.utf8ByteSize ∧ config.authToken.utf8ByteSize ≤ 512) then
    .error "invalid tenant token length"
  else if config.authToken ∈ seen.tokens then .error "tenant credentials must differ"
  else if config.maxInFlightPerConnection ≠ first.maxInFlightPerConnection then
    .error ("server.maxInFlightPerConnection must agree: tenants[0]=" ++
      toString first.maxInFlightPerConnection ++ ", tenants[" ++ toString index ++ "]=" ++
      toString config.maxInFlightPerConnection)
  else if ¬ SharesListener first config then
    .error "shared listener/runtime settings must agree across tenants"
  else if config.crashDiagnostics ≠ first.crashDiagnostics then
    .error "diagnostics.crash must agree across tenants (after resolving the directory)"
  else if config.observabilityListenAddr.any fun address => address ∈ seen.monitoring then
    .error "tenant observability endpoints must differ"
  else
    { seen with
      tokens := config.authToken :: seen.tokens
      monitoring := config.observabilityListenAddr.toList ++ seen.monitoring }.addStorage parsers
        config

def addTenants (first : ResolvedDbProxyConfig C) :
    ℕ → SeenTenants → List (ResolvedDbProxyConfig C) → Except String Unit
  | _, _, [] => .ok ()
  | index, seen, config :: rest => do
    let seen ← seen.add parsers first index config
    addTenants first (index + 1) seen rest

def validateIsolation : List (ResolvedDbProxyConfig C) → Except String Unit
  | [] => .error "no tenant configuration"
  | first :: rest => addTenants parsers first 0 {} (first :: rest)

end Isolation

/-! ### What the loop accepts -/

section Accepted

variable [DecidableEq C] (parsers : ConnectionParsers)

namespace ResolvedDbProxyConfig

def database (self : ResolvedDbProxyConfig C) : Option String :=
  match self.storage with
  | .memory => none
  | .postgresRedis postgresUrl _ _ => (parsers.database postgresUrl).toOption

def redisDatabases (self : ResolvedDbProxyConfig C) : List ℤ :=
  match self.storage with
  | .memory => []
  | .postgresRedis _ redisUrl cacheRedisUrl =>
    (redisUrl :: cacheRedisUrl :: self.publishers).filterMap fun url => (parsers.redis url).toOption

/-- The storage is named explicitly. -/
def Named (self : ResolvedDbProxyConfig C) : Prop :=
  match self.storage with
  | .memory => True
  | .postgresRedis postgresUrl redisUrl cacheRedisUrl =>
    (∃ name, parsers.database postgresUrl = .ok name) ∧
    ∀ url ∈ redisUrl :: cacheRedisUrl :: self.publishers, ∃ db, parsers.redis url = .ok db

/-- A configuration that can be served beside `first`. -/
structure Suitable (first config : ResolvedDbProxyConfig C) : Prop where
  token : 16 ≤ config.authToken.utf8ByteSize ∧ config.authToken.utf8ByteSize ≤ 512
  inFlight : config.maxInFlightPerConnection = first.maxInFlightPerConnection
  listener : SharesListener first config
  crash : config.crashDiagnostics = first.crashDiagnostics
  named : config.Named parsers

/-- Two tenants that share nothing. -/
structure Apart (config other : ResolvedDbProxyConfig C) : Prop where
  token : other.authToken ≠ config.authToken
  database : ∀ name, config.database parsers = some name → other.database parsers ≠ some name
  redis : ∀ db ∈ config.redisDatabases parsers, db ∉ other.redisDatabases parsers
  monitoring : ∀ address, config.observabilityListenAddr = some address →
    other.observabilityListenAddr ≠ some address

end ResolvedDbProxyConfig

namespace SeenTenants

/-- Nothing of the configuration is taken. -/
structure Free (seen : SeenTenants) (config : ResolvedDbProxyConfig C) : Prop where
  token : config.authToken ∉ seen.tokens
  database : ∀ name, config.database parsers = some name → name ∉ seen.databases
  redis : ∀ db ∈ config.redisDatabases parsers, db ∉ seen.redisDatabases
  monitoring : ∀ address, config.observabilityListenAddr = some address →
    address ∉ seen.monitoring

def taken (seen : SeenTenants) (config : ResolvedDbProxyConfig C) : SeenTenants where
  tokens := config.authToken :: seen.tokens
  databases := (config.database parsers).toList ++ seen.databases
  redisDatabases := config.redisDatabases parsers ++ seen.redisDatabases
  monitoring := config.observabilityListenAddr.toList ++ seen.monitoring

variable {parsers} {first config other : ResolvedDbProxyConfig C} {seen seen' : SeenTenants}
  {index : ℕ}

omit [DecidableEq C] in
theorem free_taken : Free parsers (seen.taken parsers config) other ↔
    Free parsers seen other ∧ config.Apart parsers other := by
  constructor
  · rintro ⟨htoken, hdatabase, hredis, hmonitoring⟩
    refine ⟨⟨?_, ?_, ?_, ?_⟩, ⟨?_, ?_, ?_, ?_⟩⟩
    · exact fun h => htoken (List.mem_cons_of_mem _ h)
    · exact fun name hname h => hdatabase name hname (List.mem_append_right _ h)
    · exact fun db hdb h => hredis db hdb (List.mem_append_right _ h)
    · exact fun a ha h => hmonitoring a ha (List.mem_append_right _ h)
    · exact fun h => htoken (h ▸ List.mem_cons_self ..)
    · exact fun name hname h =>
        hdatabase name h (List.mem_append_left _ (Option.mem_toList.mpr hname))
    · exact fun db hdb h => hredis db h (List.mem_append_left _ hdb)
    · exact fun a ha h => hmonitoring a h (List.mem_append_left _ (Option.mem_toList.mpr ha))
  · rintro ⟨hfree, hapart⟩
    refine ⟨?_, ?_, ?_, ?_⟩
    · intro h
      rcases List.mem_cons.mp h with h | h
      · exact hapart.token h
      · exact hfree.token h
    · intro name hname h
      rcases List.mem_append.mp h with h | h
      · exact hapart.database name (Option.mem_toList.mp h) hname
      · exact hfree.database name hname h
    · intro db hdb h
      rcases List.mem_append.mp h with h | h
      · exact hapart.redis db h hdb
      · exact hfree.redis db hdb h
    · intro a ha h
      rcases List.mem_append.mp h with h | h
      · exact hapart.monitoring a (Option.mem_toList.mp h) ha
      · exact hfree.monitoring a ha h

/-- A list of addresses that can all be parsed. -/
theorem mapM_redis {urls : List String} {own : List ℤ} :
    urls.mapM parsers.redis = .ok own ↔
      (∀ url ∈ urls, ∃ db, parsers.redis url = .ok db) ∧
        urls.filterMap (fun url => (parsers.redis url).toOption) = own := by
  rw [Checks.mapM_eq_ok]
  constructor
  · intro h
    induction h with
    | nil => exact ⟨by simp, rfl⟩
    | @cons url db urls own hdb _ ih =>
      refine ⟨List.forall_mem_cons.mpr ⟨⟨db, hdb⟩, ih.1⟩, ?_⟩
      rw [List.filterMap_cons_some (b := db) (by rw [hdb]; rfl), ih.2]
  · rintro ⟨hall, rfl⟩
    induction urls with
    | nil => exact List.Forall₂.nil
    | cons url urls ih =>
      obtain ⟨⟨db, hdb⟩, hall⟩ := List.forall_mem_cons.mp hall
      rw [List.filterMap_cons_some (b := db) (by rw [hdb]; rfl)]
      exact List.Forall₂.cons hdb (ih hall)

omit [DecidableEq C] in
theorem addStorage_eq_ok {seen : SeenTenants} :
    seen.addStorage parsers config = .ok seen' ↔
      config.Named parsers ∧
      (∀ name, config.database parsers = some name → name ∉ seen.databases) ∧
      (∀ db ∈ config.redisDatabases parsers, db ∉ seen.redisDatabases) ∧
      seen' = { seen with
        databases := (config.database parsers).toList ++ seen.databases
        redisDatabases := config.redisDatabases parsers ++ seen.redisDatabases } := by
  rw [addStorage, ResolvedDbProxyConfig.Named, ResolvedDbProxyConfig.database,
    ResolvedDbProxyConfig.redisDatabases]
  cases config.storage with
  | memory =>
    simp only [true_and, reduceCtorEq, false_implies, implies_true, List.not_mem_nil,
      Option.toList_none, List.nil_append, Except.ok.injEq]
    exact eq_comm
  | postgresRedis postgresUrl redisUrl cacheRedisUrl =>
    simp only [Checks.bind_eq_ok]
    constructor
    · rintro ⟨name, hname, h⟩
      rw [hname]
      split at h
      · cases h
      · rename_i hfree
        obtain ⟨own, hown, h⟩ := Checks.bind_eq_ok.mp h
        obtain ⟨hall, rfl⟩ := mapM_redis.mp hown
        split at h
        · cases h
        · rename_i hdisjoint
          rw [List.any_eq_true] at hdisjoint
          push Not at hdisjoint
          refine ⟨⟨⟨name, rfl⟩, hall⟩, ?_, fun db hdb => ?_, (Except.ok.inj h).symm⟩
          · rintro _ ⟨⟩
            exact hfree
          · have := hdisjoint db hdb
            simpa using this
    · rintro ⟨⟨⟨name, hname⟩, hall⟩, hdatabase, hredis, rfl⟩
      rw [hname] at hdatabase ⊢
      refine ⟨name, rfl, ?_⟩
      rw [if_neg (hdatabase name rfl)]
      refine Checks.bind_eq_ok.mpr ⟨_, mapM_redis.mpr ⟨hall, rfl⟩, ?_⟩
      rw [if_neg]
      · rfl
      · rw [List.any_eq_true]
        rintro ⟨db, hdb, h⟩
        exact hredis db hdb (of_decide_eq_true h)

theorem add_eq_ok {seen : SeenTenants} : seen.add parsers first index config = .ok seen' ↔
    ResolvedDbProxyConfig.Suitable parsers first config ∧ Free parsers seen config ∧
      seen' = seen.taken parsers config := by
  rw [add]
  have hmonitoring : (config.observabilityListenAddr.any fun address =>
      decide (address ∈ seen.monitoring)) = true ↔
      ∃ address, config.observabilityListenAddr = some address ∧ address ∈ seen.monitoring := by
    cases config.observabilityListenAddr <;> simp
  constructor
  · intro h
    split at h
    · cases h
    split at h
    · cases h
    split at h
    · cases h
    split at h
    · cases h
    split at h
    · cases h
    split at h
    · cases h
    · rename_i htoken hfree hinFlight hlistener hcrash hfresh
      rw [hmonitoring] at hfresh
      push Not at htoken hinFlight hcrash hfresh
      obtain ⟨hnamed, hdatabase, hredis, rfl⟩ := addStorage_eq_ok.mp h
      exact ⟨⟨by omega, hinFlight, not_not.mp hlistener, hcrash, hnamed⟩,
        ⟨hfree, hdatabase, hredis, hfresh⟩, rfl⟩
  · rintro ⟨hsuitable, hfree, rfl⟩
    rw [if_neg (not_not.mpr hsuitable.token), if_neg hfree.token,
      if_neg (not_not.mpr hsuitable.inFlight), if_neg (not_not.mpr hsuitable.listener),
      if_neg (not_not.mpr hsuitable.crash), if_neg]
    · exact addStorage_eq_ok.mpr ⟨hsuitable.named, hfree.database, hfree.redis, rfl⟩
    · rw [hmonitoring]
      rintro ⟨address, haddress, htaken⟩
      exact hfree.monitoring address haddress htaken

end SeenTenants

theorem addTenants_eq_ok {parsers : ConnectionParsers} {first : ResolvedDbProxyConfig C}
    {configs : List (ResolvedDbProxyConfig C)} {index : ℕ} {seen : SeenTenants} :
    addTenants parsers first index seen configs = .ok () ↔
      (∀ config ∈ configs, first.Suitable parsers config ∧ seen.Free parsers config) ∧
      configs.Pairwise (ResolvedDbProxyConfig.Apart parsers) := by
  induction configs generalizing index seen with
  | nil => simp [addTenants]
  | cons config configs ih =>
    rw [addTenants, Checks.bind_eq_ok, List.forall_mem_cons, List.pairwise_cons]
    constructor
    · rintro ⟨seen', hadd, hrest⟩
      obtain ⟨hsuitable, hfree, rfl⟩ := SeenTenants.add_eq_ok.mp hadd
      obtain ⟨hall, hpairs⟩ := ih.mp hrest
      refine ⟨⟨⟨hsuitable, hfree⟩, fun c hc => ⟨(hall c hc).1, ?_⟩⟩, fun c hc => ?_, hpairs⟩
      · exact (SeenTenants.free_taken.mp (hall c hc).2).1
      · exact (SeenTenants.free_taken.mp (hall c hc).2).2
    · rintro ⟨⟨hfirst, hall⟩, hapart, hpairs⟩
      refine ⟨_, SeenTenants.add_eq_ok.mpr ⟨hfirst.1, hfirst.2, rfl⟩, ih.mpr ⟨?_, hpairs⟩⟩
      intro c hc
      exact ⟨(hall c hc).1, SeenTenants.free_taken.mpr ⟨(hall c hc).2, hapart c hc⟩⟩

theorem validateIsolation_eq_ok {parsers : ConnectionParsers}
    {configs : List (ResolvedDbProxyConfig C)} :
    validateIsolation parsers configs = .ok () ↔
      ∃ first, configs.head? = some first ∧
        (∀ config ∈ configs, first.Suitable parsers config) ∧
        configs.Pairwise (ResolvedDbProxyConfig.Apart parsers) := by
  cases configs with
  | nil => simp [validateIsolation]
  | cons first rest =>
    have hfree : ∀ config : ResolvedDbProxyConfig C, SeenTenants.Free parsers {} config :=
      fun _ => ⟨List.not_mem_nil, fun _ _ => List.not_mem_nil, fun _ _ => List.not_mem_nil,
        fun _ _ => List.not_mem_nil⟩
    rw [validateIsolation, addTenants_eq_ok]
    constructor
    · rintro ⟨hall, hpairs⟩
      exact ⟨first, rfl, fun c hc => (hall c hc).1, hpairs⟩
    · rintro ⟨_, ⟨⟩, hall, hpairs⟩
      exact ⟨fun c hc => ⟨hall c hc, hfree c⟩, hpairs⟩

omit [DecidableEq C] in
/-- Any suitable configuration may take the place of the first. -/
theorem ResolvedDbProxyConfig.Suitable.change {parsers : ConnectionParsers}
    {first first' config : ResolvedDbProxyConfig C} (h : first.Suitable parsers config)
    (h' : first.Suitable parsers first') : first'.Suitable parsers config := by
  refine ⟨h.token, h.inFlight.trans h'.inFlight.symm, ?_, h.crash.trans h'.crash.symm, h.named⟩
  obtain ⟨h1, h2, h3, h4, h5, h6⟩ := h.listener
  obtain ⟨h1', h2', h3', h4', h5', h6'⟩ := h'.listener
  exact ⟨h1.trans h1'.symm, h2.trans h2'.symm, h3.trans h3'.symm, h4.trans h4'.symm,
    h5.trans h5'.symm, h6.trans h6'.symm⟩

omit [DecidableEq C] in
theorem ResolvedDbProxyConfig.Apart.symm {parsers : ConnectionParsers}
    {config other : ResolvedDbProxyConfig C} (h : config.Apart parsers other) :
    other.Apart parsers config :=
  ⟨h.token.symm, fun name hname h' => h.database name h' hname,
    fun db hdb h' => h.redis db h' hdb, fun a ha h' => h.monitoring a h' ha⟩

theorem validateIsolation_perm {parsers : ConnectionParsers}
    {configs configs' : List (ResolvedDbProxyConfig C)} (hperm : configs.Perm configs')
    (h : validateIsolation parsers configs = .ok ()) :
    validateIsolation parsers configs' = .ok () := by
  obtain ⟨first, hfirst, hall, hpairs⟩ := validateIsolation_eq_ok.mp h
  obtain ⟨first', hfirst'⟩ : ∃ first', configs'.head? = some first' := by
    cases configs' with
    | nil =>
      rw [List.perm_nil.mp hperm] at hfirst
      cases hfirst
    | cons first' rest => exact ⟨first', rfl⟩
  have hmem : first' ∈ configs := hperm.mem_iff.mpr (List.mem_of_head? hfirst')
  refine validateIsolation_eq_ok.mpr ⟨first', hfirst', fun c hc => ?_,
    hperm.pairwise hpairs fun h => h.symm⟩
  exact (hall c (hperm.mem_iff.mpr hc)).change (hall first' hmem)

/-- **Isolated deployments.**  `validate_isolation` accepts a list of configurations exactly if it
is not empty, every tenant has a token of 16 to 512 bytes, the listener settings and the crash
diagnostics of the first, and connections that parse and name their databases, and no two tenants
share a token, a PostgreSQL database name, a Redis database number of any of their connections, or
a monitoring endpoint.  The order of the tenants does not matter. -/
theorem isolation_accepts (parsers : ConnectionParsers) (configs : List (ResolvedDbProxyConfig C)) :
    (validateIsolation parsers configs = .ok () ↔
      ∃ first, configs.head? = some first ∧
        (∀ config ∈ configs, first.Suitable parsers config) ∧
        configs.Pairwise (ResolvedDbProxyConfig.Apart parsers)) ∧
    ∀ configs', configs.Perm configs' →
      (validateIsolation parsers configs = .ok () ↔
        validateIsolation parsers configs' = .ok ()) :=
  ⟨validateIsolation_eq_ok, fun _ hperm =>
    ⟨validateIsolation_perm hperm, validateIsolation_perm hperm.symm⟩⟩

end Accepted

/-! ### From the deployment to the server -/

section Start

variable [DecidableEq C] (parsers : ConnectionParsers)
  (files : String → Except String (ℕ × ResolvedDbProxyConfig C))

/-- `load_config`: `files` reads a file and resolves what is not in the server section. -/
def loadConfig (path : String) : Except String (ResolvedDbProxyConfig C) := do
  let (configVersion, config) ← files path
  config.resolveServer configVersion

def loadDeployment (value : TenantDeployment) :
    Except String (TenantDeployment × List (ResolvedDbProxyConfig C)) := do
  let deployment ← readDeployment value
  let configs ← deployment.tenants.mapM fun tenant => loadConfig files tenant.config
  (validateIsolation parsers configs).mapError fun error =>
    "tenant deployment [" ++ String.intercalate ", " (deployment.tenants.map (·.id)) ++ "]: " ++
      error
  return (deployment, configs)

/-- The part of `run_servers` that routes tokens; every tenant has a backend of its own. -/
def startTenants (deployment : TenantDeployment) (configs : List (ResolvedDbProxyConfig C)) :
    Except String DbProxyServer := do
  let routes ← (deployment.tenants.zip configs).zipIdx.mapM fun t =>
    TenantBackend.new t.1.1.id t.1.2.authToken t.2 t.1.2.maxConnections
  match configs with
  | [] => .error "no tenant configuration"
  | first :: _ =>
    DbProxyServer.bindTenants
      { authToken := first.authToken
        maxFrameBytes := first.maxFrameBytes
        maxPayloadBytes := first.maxPayloadBytes
        maxConnections := deployment.maxConnections
        maxInFlightPerConnection := first.maxInFlightPerConnection } routes

theorem reject_eq_ok {refused : Prop} [Decidable refused] {message : String} :
    reject refused message = .ok () ↔ ¬ refused := by
  rw [reject]
  split
  · rename_i h
    exact iff_of_false (fun h' => by cases h') fun h' => h' h
  · rename_i h
    exact iff_of_true rfl h

/-- What a resolved server section guarantees. -/
structure ResolvedDbProxyConfig.InRange (config : ResolvedDbProxyConfig C) : Prop where
  maxConnections : 1 ≤ config.maxConnections ∧ config.maxConnections ≤ maxPermits
  inFlight : 1 ≤ config.maxInFlightPerConnection ∧
    config.maxInFlightPerConnection ≤ inFlightLimit
  payload : 0 < config.maxPayloadBytes ∧ config.maxPayloadBytes ≤ config.maxFrameBytes

omit [DecidableEq C] in
theorem inRange_of_resolveServer {configVersion : ℕ} {config resolved : ResolvedDbProxyConfig C}
    (h : config.resolveServer configVersion = .ok resolved) : resolved.InRange := by
  obtain ⟨⟨⟩, -, h⟩ := Checks.bind_eq_ok.mp h
  obtain ⟨⟨⟩, -, h⟩ := Checks.bind_eq_ok.mp h
  obtain ⟨⟨⟩, hconnections, h⟩ := Checks.bind_eq_ok.mp h
  obtain ⟨⟨⟩, hinFlight, h⟩ := Checks.bind_eq_ok.mp h
  obtain ⟨⟨⟩, hpayload, h⟩ := Checks.bind_eq_ok.mp h
  obtain ⟨⟨⟩, hframe, h⟩ := Checks.bind_eq_ok.mp h
  obtain ⟨⟨⟩, -, h⟩ := Checks.bind_eq_ok.mp h
  obtain ⟨⟨⟩, -, h⟩ := Checks.bind_eq_ok.mp h
  obtain ⟨⟨⟩, -, h⟩ := Checks.bind_eq_ok.mp h
  obtain rfl := Except.ok.inj h
  exact ⟨not_not.mp (reject_eq_ok.mp hconnections), not_not.mp (reject_eq_ok.mp hinFlight),
    Nat.pos_of_ne_zero (reject_eq_ok.mp hpayload), Nat.le_of_not_lt (reject_eq_ok.mp hframe)⟩

theorem checkDeclarations_eq_ok {tenants : List TenantConfigRef} {ids : List String} :
    checkDeclarations ids tenants = .ok () ↔
      (∀ tenant ∈ tenants, validTenantId tenant.id = true ∧ tenant.id ∉ ids ∧
        tenant.config ≠ "") ∧
      (tenants.map (·.id)).Nodup := by
  induction tenants generalizing ids with
  | nil => simp [checkDeclarations]
  | cons tenant rest ih =>
    rw [checkDeclarations, List.forall_mem_cons, List.map_cons, List.nodup_cons]
    split
    · rename_i h
      refine iff_of_false (fun h' => by cases h') ?_
      rintro ⟨⟨⟨hid, hnew, hconfig⟩, -⟩, -⟩
      rcases h with h | h | h
      · rw [hid] at h
        cases h
      · exact hnew h
      · exact hconfig h
    · rename_i h
      push Not at h
      obtain ⟨hid, hnew, hconfig⟩ := h
      rw [ih]
      constructor
      · rintro ⟨hall, hnodup⟩
        refine ⟨⟨⟨by simpa using hid, hnew, hconfig⟩, fun t ht => ?_⟩, ?_, hnodup⟩
        · obtain ⟨h1, h2, h3⟩ := hall t ht
          exact ⟨h1, fun hin => h2 (List.mem_cons_of_mem _ hin), h3⟩
        · rintro hin
          obtain ⟨t, ht, hsame⟩ := List.mem_map.mp hin
          exact (hall t ht).2.1 (hsame ▸ List.mem_cons_self ..)
      · rintro ⟨⟨-, hall⟩, hfirst, hnodup⟩
        refine ⟨fun t ht => ?_, hnodup⟩
        obtain ⟨h1, h2, h3⟩ := hall t ht
        refine ⟨h1, fun hin => ?_, h3⟩
        rcases List.mem_cons.mp hin with hsame | hin
        · exact hfirst (hsame ▸ List.mem_map_of_mem ht)
        · exact h2 hin

/-- What `read_deployment` guarantees. -/
structure TenantDeployment.Declared (deployment : TenantDeployment) : Prop where
  count : deployment.tenants ≠ [] ∧ deployment.tenants.length ≤ 64
  maxConnections : 1 ≤ deployment.maxConnections ∧ deployment.maxConnections ≤ maxPermits
  ids : ∀ tenant ∈ deployment.tenants, validTenantId tenant.id = true
  nodup : (deployment.tenants.map (·.id)).Nodup

theorem declared_of_readDeployment {value deployment : TenantDeployment}
    (h : readDeployment value = .ok deployment) : deployment.Declared := by
  rw [readDeployment] at h
  split at h
  · cases h
  · rename_i hcount
    push Not at hcount
    obtain ⟨-, hne, hlength, hmax⟩ := hcount
    obtain ⟨⟨⟩, hids, h⟩ := Checks.bind_eq_ok.mp h
    obtain rfl := Except.ok.inj h
    obtain ⟨hvalid, hnodup⟩ := checkDeclarations_eq_ok.mp hids
    exact ⟨⟨hne, hlength⟩, hmax, fun t ht => (hvalid t ht).1, hnodup⟩

/-- The route of a tenant. -/
def tenantRoute (t : (TenantConfigRef × ResolvedDbProxyConfig C) × ℕ) : TenantBackend :=
  ⟨t.1.1.id, t.1.2.authToken, t.2, t.1.2.maxConnections⟩

variable {parsers files} {value deployment : TenantDeployment}
  {configs : List (ResolvedDbProxyConfig C)}

/-- What `load_deployment` guarantees. -/
theorem loadDeployment_eq_ok (h : loadDeployment parsers files value = .ok (deployment, configs)) :
    deployment.Declared ∧ configs.length = deployment.tenants.length ∧
      (∀ config ∈ configs, config.InRange) ∧ validateIsolation parsers configs = .ok () := by
  obtain ⟨read, hread, h⟩ := Checks.bind_eq_ok.mp h
  obtain ⟨loaded, hloaded, h⟩ := Checks.bind_eq_ok.mp h
  obtain ⟨⟨⟩, hvalid, h⟩ := Checks.bind_eq_ok.mp h
  obtain ⟨rfl, rfl⟩ := Prod.mk.inj (Except.ok.inj h)
  have hall := Checks.mapM_eq_ok.mp hloaded
  refine ⟨declared_of_readDeployment hread, hall.length_eq.symm, fun config hconfig => ?_,
    Checks.mapError_eq_ok.mp hvalid⟩
  obtain ⟨tenant, -, hload⟩ := Checks.exists_of_forall₂_right hall hconfig
  obtain ⟨⟨configVersion, raw⟩, -, hresolve⟩ := Checks.bind_eq_ok.mp hload
  exact inRange_of_resolveServer hresolve

theorem validate_of_ranges {config : ServerConfig}
    (hconnections : 1 ≤ config.maxConnections ∧ config.maxConnections ≤ maxPermits)
    (hinFlight : 1 ≤ config.maxInFlightPerConnection ∧
      config.maxInFlightPerConnection ≤ inFlightLimit)
    (htoken : 16 ≤ config.authToken.utf8ByteSize ∧ config.authToken.utf8ByteSize ≤ 512)
    (hpositive : 0 < config.maxPayloadBytes)
    (hpayload : config.maxPayloadBytes ≤ config.maxFrameBytes) :
    config.validate = .ok () := by
  rw [ServerConfig.validate, if_neg (not_not.mpr hconnections), if_neg (not_not.mpr hinFlight),
    if_neg (not_not.mpr htoken), if_neg (by omega), if_neg (by omega), if_neg (by omega)]

omit [DecidableEq C] in
/-- The routes are accepted one by one. -/
theorem routes_eq_ok (hdeclared : deployment.Declared) (hranges : ∀ c ∈ configs, c.InRange)
    {first : ResolvedDbProxyConfig C} (hall : ∀ c ∈ configs, first.Suitable parsers c) :
    ((deployment.tenants.zip configs).zipIdx.mapM fun t =>
        TenantBackend.new t.1.1.id t.1.2.authToken t.2 t.1.2.maxConnections) =
      .ok ((deployment.tenants.zip configs).zipIdx.map tenantRoute) := by
  rw [Checks.mapM_eq_ok, List.forall₂_map_right_iff, List.forall₂_same]
  intro t ht
  have hmem : t.1 ∈ deployment.tenants.zip configs := (List.mem_zipIdx' ht).2 ▸ List.getElem_mem _
  obtain ⟨hid, hconfig⟩ := List.of_mem_zip (a := t.1.1) (b := t.1.2) hmem
  rw [TenantBackend.new, hdeclared.ids _ hid, Bool.not_true, if_neg Bool.false_ne_true,
    if_neg (not_not.mpr (hall _ hconfig).token),
    if_neg (not_not.mpr (hranges _ hconfig).maxConnections)]
  rfl

omit [DecidableEq C] in
theorem routes_differ (hdeclared : deployment.Declared)
    (hlength : configs.length = deployment.tenants.length)
    (hpairs : configs.Pairwise (ResolvedDbProxyConfig.Apart parsers)) :
    ((deployment.tenants.zip configs).zipIdx.map tenantRoute).Pairwise TenantsDiffer := by
  rw [List.pairwise_iff_getElem]
  intro i j hi hj hij
  rw [List.length_map, List.length_zipIdx, List.length_zip, hlength, Nat.min_self] at hi hj
  have hids := List.pairwise_iff_getElem.mp (List.pairwise_map.mp hdeclared.nodup) i j hi hj hij
  have hapart := List.pairwise_iff_getElem.mp hpairs i j (hlength ▸ hi) (hlength ▸ hj) hij
  simp only [List.getElem_map, List.getElem_zipIdx, List.getElem_zip, tenantRoute]
  exact ⟨hids, hapart.token.symm, by simpa using Nat.ne_of_lt hij⟩

/-- **What is loaded can be served.**  If `load_deployment` accepts a deployment, every tenant gets
its route and `bind_tenants` accepts them all: nothing is refused after connections were opened.
The tenants have the declared names and the configured tokens, in the declared order. -/
theorem deployment_starts
    (files : String → Except String (ℕ × ResolvedDbProxyConfig C)) (parsers : ConnectionParsers)
    (value deployment : TenantDeployment) (configs : List (ResolvedDbProxyConfig C))
    (h : loadDeployment parsers files value = .ok (deployment, configs)) :
    ∃ server, startTenants deployment configs = .ok server ∧
      server.tenants.map (·.id) = deployment.tenants.map (·.id) ∧
      server.tenants.map (·.token) = configs.map (·.authToken) ∧
      server.config.maxConnections = deployment.maxConnections := by
  obtain ⟨hdeclared, hlength, hranges, hvalid⟩ := loadDeployment_eq_ok h
  obtain ⟨first, hfirst, hall, hpairs⟩ := validateIsolation_eq_ok.mp hvalid
  obtain ⟨rest, rfl⟩ := List.head?_eq_some_iff.mp hfirst
  have hroutes := routes_eq_ok hdeclared hranges hall
  have hdiffer := routes_differ hdeclared hlength hpairs
  set routes := (deployment.tenants.zip (first :: rest)).zipIdx.map tenantRoute with hroutes_def
  have hcount : routes.length = deployment.tenants.length := by
    rw [hroutes_def, List.length_map, List.length_zipIdx, List.length_zip, hlength, Nat.min_self]
  have htenants : validateTenants routes = .ok () := by
    rw [validateTenants, if_neg]
    · exact checkTenants_eq_ok.mpr ⟨fun _ _ _ hnil => (List.not_mem_nil hnil).elim, hdiffer⟩
    · rintro (hnil | hlong)
      · rw [hnil, List.length_nil] at hcount
        exact hdeclared.count.1 (List.length_eq_zero_iff.mp hcount.symm)
      · have := hdeclared.count.2
        omega
  obtain ⟨route, others, hcons⟩ : ∃ route others, routes = route :: others :=
    List.exists_cons_of_ne_nil fun hnil => by
      rw [hnil, List.length_nil] at hcount
      exact hdeclared.count.1 (List.length_eq_zero_iff.mp hcount.symm)
  have hrange := hranges first (List.mem_cons_self ..)
  have hconfig : ServerConfig.validate
      ⟨"unused-multi-tenant-placeholder", first.maxFrameBytes, first.maxPayloadBytes,
        deployment.maxConnections, first.maxInFlightPerConnection⟩ = .ok () := by
    have hplaceholder : 16 ≤ "unused-multi-tenant-placeholder".utf8ByteSize ∧
        "unused-multi-tenant-placeholder".utf8ByteSize ≤ 512 := by decide +kernel
    exact validate_of_ranges hdeclared.maxConnections hrange.inFlight hplaceholder
      hrange.payload.1 hrange.payload.2
  refine ⟨⟨⟨"unused-multi-tenant-placeholder", first.maxFrameBytes, first.maxPayloadBytes,
    deployment.maxConnections, first.maxInFlightPerConnection⟩, route.backend, routes⟩, ?_, ?_, ?_,
    rfl⟩
  · rw [startTenants, hroutes, Checks.ok_bind]
    show DbProxyServer.bindTenants _ routes = _
    rw [DbProxyServer.bindTenants, htenants, Checks.ok_bind, hcons]
    show DbProxyServer.bind _ _ >>= _ = _
    rw [DbProxyServer.bind, hconfig, Checks.ok_bind]
    rfl
  · calc routes.map (·.id)
        = ((deployment.tenants.zip (first :: rest)).zipIdx.map Prod.fst).map (·.1.id) := by
          rw [hroutes_def, List.map_map, List.map_map]
          rfl
      _ = ((deployment.tenants.zip (first :: rest)).map Prod.fst).map (·.id) := by
          rw [List.zipIdx_map_fst, List.map_map]
          rfl
      _ = deployment.tenants.map (·.id) := by rw [List.map_fst_zip hlength.ge]
  · calc routes.map (·.token)
        = ((deployment.tenants.zip (first :: rest)).zipIdx.map Prod.fst).map (·.2.authToken) := by
          rw [hroutes_def, List.map_map, List.map_map]
          rfl
      _ = ((deployment.tenants.zip (first :: rest)).map Prod.snd).map (·.authToken) := by
          rw [List.zipIdx_map_fst, List.map_map]
          rfl
      _ = (first :: rest).map (·.authToken) := by rw [List.map_snd_zip hlength.le]

end Start

/-- Two games on one PostgreSQL and one Redis server. -/
def twoGames : TenantDeployment :=
  ⟨1, "0.0.0.0:7400", 512, [⟨"slg", "slg.json"⟩, ⟨"mmorpg", "mmorpg.json"⟩]⟩

def gameConfig (token database redis cache : String) : ResolvedDbProxyConfig Bool where
  authToken := token
  maxFrameBytes := 4096
  maxPayloadBytes := 1024
  maxConnections := 100
  maxInFlightPerConnection := 64
  handshakeTimeout := 5000
  shutdownGrace := 5000
  runtimeWorkerThreads := 4
  storage := .postgresRedis database redis cache
  publishers := []
  logFilter := "info"
  observabilityListenAddr := none
  crashDiagnostics := false

def gameFiles (path : String) : Except String (ℕ × ResolvedDbProxyConfig Bool) :=
  if path = "slg.json" then .ok (1, gameConfig "slg-token-0123456789" "slg" "slg" "slg-cache")
  else .ok (1, gameConfig "mmorpg-token-01234567" "mmorpg" "mmorpg" "mmorpg-cache")

/-- Addresses that are the names of databases. -/
def plainAddresses : ConnectionParsers where
  postgresDatabase url := some (some url)
  redisDatabase url := some (["slg", "slg-cache", "mmorpg", "mmorpg-cache"].idxOf url)

theorem deployment_starts_two : ∃ server,
    startTenants twoGames [gameConfig "slg-token-0123456789" "slg" "slg" "slg-cache",
      gameConfig "mmorpg-token-01234567" "mmorpg" "mmorpg" "mmorpg-cache"] = .ok server ∧
    server.tenants.map (·.id) = ["slg", "mmorpg"] := by
  have hload : loadDeployment plainAddresses gameFiles twoGames = .ok (twoGames,
      [gameConfig "slg-token-0123456789" "slg" "slg" "slg-cache",
        gameConfig "mmorpg-token-01234567" "mmorpg" "mmorpg" "mmorpg-cache"]) := by decide +kernel
  obtain ⟨server, hstart, hids, -⟩ := deployment_starts gameFiles plainAddresses twoGames _ _ hload
  exact ⟨server, hstart, hids⟩

end DbProxy
