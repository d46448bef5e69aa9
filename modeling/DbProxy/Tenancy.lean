/-
Tenants of one server (`tenancy.rs`, `serve` and `handle_connection`).

A connection takes a slot of the server, presents a token, and from then on all its
requests go to the backend of the tenant whose token that is.  A backend is an object that
answers calls one at a time; `perform` says how.

* `constantTimeTokenEq_iff` — the comparison of tokens;
* `checkTenants_eq_ok` — what `validate_tenants` accepts;
* `selectTenant_eq_some` — whom a token selects;
* `tenant_isolation` — every tenant's backend saw its own connections only;
* `tenant_slots` — slots are neither lost nor lent to other tenants.
-/
import DbProxy.Checks
import DbProxy.ClientCalls
import DbProxy.TaskTable
import Mathlib.Data.LawfulXor.Basic
import Mathlib.Data.List.Pairwise

namespace DbProxy

open StepMachine TaskTable Text

/-! ### Configuration -/

structure TenantBackend where
  id : String
  token : String
  /-- The object that the pointer points to. -/
  backend : ℕ
  maxConnections : ℕ
deriving DecidableEq, Repr

def isAsciiLowercase (c : Char) : Bool := 'a' ≤ c && c ≤ 'z'

def isAsciiDigit (c : Char) : Bool := '0' ≤ c && c ≤ '9'

def validTenantId (id : String) : Bool :=
  match id.toList with
  | [] => false
  | first :: rest =>
    id.utf8ByteSize ≤ 64 && isAsciiLowercase first &&
      (first :: rest).all fun c => isAsciiLowercase c || isAsciiDigit c || c == '-' || c == '.'

/-- `TenantBackend::new`. -/
def TenantBackend.new (id token : String) (backend maxConnections : ℕ) :
    Except String TenantBackend :=
  if !validTenantId id then .error "invalid tenant id"
  else if ¬ (16 ≤ token.utf8ByteSize ∧ token.utf8ByteSize ≤ 512) then
    .error "invalid tenant token length"
  else if ¬ (1 ≤ maxConnections ∧ maxConnections ≤ maxPermits) then
    .error "invalid tenant connection limit"
  else .ok ⟨id, token, backend, maxConnections⟩

def tokenBytes (token : String) : List UInt8 := token.toByteArray.data.toList

/-- Every byte is looked at, also after a difference. -/
def constantTimeTokenEq (expected actual : List UInt8) : Bool :=
  let difference := (List.range (max expected.length actual.length)).foldl
    (fun difference index =>
      difference ||| (expected.getD index 0 ^^^ actual.getD index 0).toNat)
    (expected.length ^^^ actual.length)
  difference = 0

/-- The inner loop of `validate_tenants`. -/
def checkTenant (tenant : TenantBackend) : List TenantBackend → Except String Unit
  | [] => .ok ()
  | other :: rest =>
    if tenant.id = other.id ∨
        constantTimeTokenEq (tokenBytes tenant.token) (tokenBytes other.token) then
      .error "duplicate tenant identity or credential"
    else if tenant.backend = other.backend then .error "tenants cannot share a backend object"
    else checkTenant tenant rest

def checkTenants (earlier : List TenantBackend) : List TenantBackend → Except String Unit
  | [] => .ok ()
  | tenant :: rest => do
    checkTenant tenant earlier
    checkTenants (earlier ++ [tenant]) rest

def validateTenants (tenants : List TenantBackend) : Except String Unit :=
  if tenants = [] ∨ 64 < tenants.length then .error "expected 1..=64 tenants"
  else checkTenants [] tenants

structure ServerConfig where
  authToken : String
  maxFrameBytes : ℕ
  maxPayloadBytes : ℕ
  maxConnections : ℕ
  maxInFlightPerConnection : ℕ
deriving DecidableEq, Repr

/-- `MAX_IN_FLIGHT_PER_CONNECTION`. -/
def inFlightLimit : ℕ := 4096

def ServerConfig.validate (self : ServerConfig) : Except String Unit :=
  if ¬ (1 ≤ self.maxConnections ∧ self.maxConnections ≤ maxPermits) then
    .error "max connections is outside the supported range"
  else if ¬ (1 ≤ self.maxInFlightPerConnection ∧
      self.maxInFlightPerConnection ≤ inFlightLimit) then
    .error "max in-flight requests per connection is outside the supported range"
  else if ¬ (16 ≤ self.authToken.utf8ByteSize ∧ self.authToken.utf8ByteSize ≤ 512) then
    .error "auth token length is outside 16..=512 bytes"
  else if self.maxFrameBytes = 0 then .error "max frame bytes is zero"
  else if self.maxPayloadBytes = 0 then .error "max payload bytes is zero"
  else if self.maxFrameBytes < self.maxPayloadBytes then
    .error "max payload bytes exceeds max frame bytes"
  else .ok ()

structure DbProxyServer where
  config : ServerConfig
  backend : ℕ
  tenants : List TenantBackend
deriving DecidableEq, Repr

def DbProxyServer.bind (config : ServerConfig) (backend : ℕ) : Except String DbProxyServer := do
  config.validate
  return ⟨config, backend, []⟩

def DbProxyServer.bindTenants (config : ServerConfig) (tenants : List TenantBackend) :
    Except String DbProxyServer := do
  validateTenants tenants
  let config := { config with authToken := "unused-multi-tenant-placeholder" }
  match tenants with
  | [] => .error "expected 1..=64 tenants"
  | first :: _ =>
    let server ← DbProxyServer.bind config first.backend
    return { server with tenants }

/-! ### The handshake -/

/-- `wire::ClientHello`. -/
structure ClientHello where
  protocolVersion : ℕ
  protocolFingerprint : String
  authToken : String
  clientName : String

def olderProtocolFingerprints : List String :=
  ["f02678836c752cdda8a083aed7cf9320797618c620e6a3b23247e6131604021a",
   "d20f64198cedce3fd673708a08a9700c230d5a7aecc3d2ede47e4701143e4f1f",
   "a5296d1ef9b288fcbd7f43ac9328c3a59187bf5e7ffdb31972d333a289509456",
   "63894bf08f30464ba807fbfe6507bbd74a0aa30de8da1913d7857904f52e3e17",
   "affd104ec61b48af713241daf11b2b7ba08577673054ee9aea0ef3653dab8c68"]

section Server

variable (fingerprint : String)

def isCompatibleProtocolFingerprint (candidate : String) : Bool :=
  candidate = fingerprint || olderProtocolFingerprints.contains candidate

/-- The loop over the tenants does not stop at a match. -/
def selectTenant (tenants : List TenantBackend) (token : String) : Option ℕ :=
  tenants.zipIdx.foldl (fun selected tenant =>
    if constantTimeTokenEq (tokenBytes tenant.1.token) (tokenBytes token) then some tenant.2
    else selected) none

/-- The checks of `handle_connection`: the tenant, or the code and the text of the rejection. -/
def DbProxyServer.authenticate (self : DbProxyServer) (hello : ClientHello) :
    Except (ℤ × String) (Option ℕ) :=
  if hello.protocolVersion ≠ protocolVersion ∨
      !isCompatibleProtocolFingerprint fingerprint hello.protocolFingerprint then
    .error (1003, "DBProxy protocol version or fingerprint does not match")
  else if 512 < hello.authToken.utf8ByteSize then
    .error (1002, "DBProxy authentication failed")
  else
    let selected := selectTenant self.tenants hello.authToken
    if (self.tenants ≠ [] ∧ selected = none) ∨ (self.tenants = [] ∧
        !constantTimeTokenEq (tokenBytes self.config.authToken) (tokenBytes hello.authToken)) then
      .error (1002, "DBProxy authentication failed")
    else if blank hello.clientName ∨ 128 < hello.clientName.utf8ByteSize then
      .error (1001, "DBProxy client name is empty or too long")
    else .ok selected

/-- `write_hello_rejection`. -/
def helloRejection (reason : ℤ × String) : ServerHello where
  accepted := false
  error := some reason
  protocolVersion := protocolVersion
  protocolFingerprint := fingerprint
  supportsOutboxRelay := false

/-- The server answers with the fingerprint that it was sent. -/
def ClientHello.accepted (hello : ClientHello) : ServerHello where
  accepted := true
  error := none
  protocolVersion := DbProxy.protocolVersion
  protocolFingerprint := hello.protocolFingerprint
  supportsOutboxRelay := true

/-! ### Connections -/

variable {B R A : Type}

/-- A request that was served. -/
structure ServedCall (R A : Type) where
  authToken : String
  request : R
  answer : A

structure ServerState (B R A : Type) where
  slots : ℕ
  tenantSlots : ℕ → ℕ
  objects : ℕ → B
  journal : List (ServedCall R A)

inductive ConnectionPhase
  /-- The listener has accepted it. -/
  | arrived
  | handshaking
  /-- The tenant's slot is taken and the answer is written. -/
  | answering (hello : ClientHello) (tenant : Option ℕ)
  | serving (hello : ClientHello) (tenant : Option ℕ)
  /-- Drops the tenant's slot. -/
  | leaving (tenant : Option ℕ)
  /-- Drops the slot of the server, after it was told of the rejection if there is one. -/
  | ending (rejection : Option (ℤ × String))
  | closed

inductive ConnectionAction (R : Type)
  | accept
  /-- The first frame. -/
  | hello (hello : ClientHello)
  /-- No handshake: a timeout, the end of the stream, another frame, a shutdown. -/
  | noHello
  | answered
  | request (r : R)
  /-- The end of the stream, an error, a panic, a shutdown. -/
  | leave
  | dropTenantSlot
  | dropSlot

namespace DbProxyServer

variable (self : DbProxyServer)

/-- The backend of the requests of a connection. -/
def objectOf (tenant : Option ℕ) : ℕ :=
  match tenant with
  | none => self.backend
  | some k => (self.tenants[k]?).elim self.backend (·.backend)

def capacityExhausted : ℤ × String := (3001, "Tenant connection capacity exhausted")

variable (perform : B → R → A × B)

def act (s : ServerState B R A) :
    ConnectionPhase → ConnectionAction R → Option (ServerState B R A × ConnectionPhase)
  | .arrived, .accept =>
    -- a connection without a slot is dropped
    if 0 < s.slots then some ({ s with slots := s.slots - 1 }, .handshaking) else some (s, .closed)
  | .handshaking, .noHello => some (s, .ending none)
  | .handshaking, .hello hello =>
    match self.authenticate fingerprint hello with
    | .error reason => some (s, .ending (some reason))
    | .ok none => some (s, .answering hello none)
    | .ok (some k) =>
      if 0 < s.tenantSlots k then
        some ({ s with tenantSlots := Function.update s.tenantSlots k (s.tenantSlots k - 1) },
          .answering hello (some k))
      else some (s, .ending (some capacityExhausted))
  | .answering hello tenant, .answered => some (s, .serving hello tenant)
  | .serving hello tenant, .request r =>
    let object := self.objectOf tenant
    let (answer, after) := perform (s.objects object) r
    some ({ s with objects := Function.update s.objects object after
                   journal := s.journal ++ [⟨hello.authToken, r, answer⟩] },
      .serving hello tenant)
  | .answering _ tenant, .leave => some (s, .leaving tenant)
  | .serving _ tenant, .leave => some (s, .leaving tenant)
  | .leaving none, .dropTenantSlot => some (s, .ending none)
  | .leaving (some k), .dropTenantSlot =>
    some ({ s with tenantSlots := Function.update s.tenantSlots k (s.tenantSlots k + 1) },
      .ending none)
  | .ending _, .dropSlot => some ({ s with slots := s.slots + 1 }, .closed)
  | _, _ => none

abbrev System (B R A : Type) := Table (ServerState B R A) ConnectionPhase

/-- One step of some connection, or a new connection. -/
def step : System B R A → TaskEvent (ConnectionAction R) → Option (System B R A) :=
  TaskTable.step .arrived (self.act fingerprint perform)

/-- The server before its first connection. -/
def started (objects : ℕ → B) : System B R A where
  shared := { slots := self.config.maxConnections
              tenantSlots k := (self.tenants[k]?).elim 0 (·.maxConnections)
              objects := objects
              journal := [] }
  tasks := []

end DbProxyServer

end Server

/-! ### Tokens and tenants -/

theorem foldl_or_eq_zero (f : ℕ → ℕ) (l : List ℕ) (init : ℕ) :
    l.foldl (fun difference index => difference ||| f index) init = 0 ↔
      init = 0 ∧ ∀ index ∈ l, f index = 0 := by
  induction l generalizing init with
  | nil => simp
  | cons index l ih =>
    rw [List.foldl_cons, ih, Nat.or_eq_zero_iff, List.forall_mem_cons, and_assoc]

theorem constantTimeTokenEq_iff {expected actual : List UInt8} :
    constantTimeTokenEq expected actual = true ↔ expected = actual := by
  rw [constantTimeTokenEq, decide_eq_true_iff, foldl_or_eq_zero, xor_eq_zero_iff]
  constructor
  · rintro ⟨hlength, hbytes⟩
    refine List.ext_getElem hlength fun i hi hi' => ?_
    have hi_max : i ∈ List.range (max expected.length actual.length) :=
      List.mem_range.mpr (Nat.lt_of_lt_of_le hi (Nat.le_max_left ..))
    have hzero : expected.getD i 0 ^^^ actual.getD i 0 = 0 :=
      UInt8.toNat_inj.mp (hbytes i hi_max)
    rw [UInt8.xor_eq_zero_iff] at hzero
    simpa [List.getD_eq_getElem?_getD, hi, hi'] using hzero
  · rintro rfl
    exact ⟨rfl, fun i _ => by simp⟩

theorem tokenBytes_inj {s t : String} : tokenBytes s = tokenBytes t ↔ s = t := by
  constructor
  · intro h
    rw [tokenBytes, tokenBytes, Array.toList_inj, ← ByteArray.ext_iff, String.toByteArray_inj] at h
    exact h
  · rintro rfl
    rfl

theorem tokenEq_iff {s t : String} :
    constantTimeTokenEq (tokenBytes s) (tokenBytes t) = true ↔ s = t :=
  constantTimeTokenEq_iff.trans tokenBytes_inj

/-- Two tenants that may be served together. -/
structure TenantsDiffer (tenant other : TenantBackend) : Prop where
  id : tenant.id ≠ other.id
  token : tenant.token ≠ other.token
  backend : tenant.backend ≠ other.backend

theorem TenantsDiffer.symm {tenant other : TenantBackend} (h : TenantsDiffer tenant other) :
    TenantsDiffer other tenant := ⟨h.id.symm, h.token.symm, h.backend.symm⟩

theorem checkTenant_eq_ok {tenant : TenantBackend} {others : List TenantBackend} :
    checkTenant tenant others = .ok () ↔ ∀ other ∈ others, TenantsDiffer tenant other := by
  induction others with
  | nil => simp [checkTenant]
  | cons other others ih =>
    rw [checkTenant, List.forall_mem_cons, ← ih]
    split
    · rename_i h
      refine iff_of_false (fun h' => by cases h') fun h' => ?_
      exact h.elim h'.1.id fun htoken => h'.1.token (tokenEq_iff.mp htoken)
    · rename_i h
      rw [not_or] at h
      split
      · rename_i hsame
        exact iff_of_false (fun h' => by cases h') fun h' => h'.1.backend hsame
      · rename_i hdiffer
        exact (and_iff_right ⟨h.1, fun htoken => h.2 (tokenEq_iff.mpr htoken), hdiffer⟩).symm

theorem checkTenants_eq_ok {tenants earlier : List TenantBackend} :
    checkTenants earlier tenants = .ok () ↔
      (∀ tenant ∈ tenants, ∀ other ∈ earlier, TenantsDiffer tenant other) ∧
      tenants.Pairwise TenantsDiffer := by
  induction tenants generalizing earlier with
  | nil => simp [checkTenants]
  | cons tenant tenants ih =>
    have hbind : checkTenants earlier (tenant :: tenants) = .ok () ↔
        checkTenant tenant earlier = .ok () ∧
          checkTenants (earlier ++ [tenant]) tenants = .ok () := by
      rw [checkTenants, Checks.bind_eq_ok]
      exact ⟨fun ⟨_, h⟩ => h, fun h => ⟨(), h⟩⟩
    rw [hbind, checkTenant_eq_ok, ih, List.pairwise_cons, List.forall_mem_cons]
    constructor
    · rintro ⟨hfirst, hrest, hpairs⟩
      refine ⟨⟨hfirst, fun t ht o ho => hrest t ht o (List.mem_append_left _ ho)⟩, ?_, hpairs⟩
      exact fun t ht => (hrest t ht tenant (by simp)).symm
    · rintro ⟨⟨hfirst, hrest⟩, hnew, hpairs⟩
      refine ⟨hfirst, fun t ht o ho => ?_, hpairs⟩
      rcases List.mem_append.mp ho with ho | ho
      · exact hrest t ht o ho
      · obtain rfl := List.mem_singleton.mp ho
        exact (hnew t ht).symm

theorem pairwise_of_validateTenants {tenants : List TenantBackend}
    (h : validateTenants tenants = .ok ()) : tenants ≠ [] ∧ tenants.Pairwise TenantsDiffer := by
  rw [validateTenants] at h
  split at h
  · cases h
  · rename_i hcount
    rw [not_or] at hcount
    exact ⟨hcount.1, (checkTenants_eq_ok.mp h).2⟩

instance : Std.Symm TenantsDiffer := ⟨fun _ _ h => h.symm⟩

theorem DbProxyServer.bindTenants_eq_ok {config : ServerConfig} {tenants : List TenantBackend}
    {server : DbProxyServer} (h : bindTenants config tenants = .ok server) :
    server.tenants ≠ [] ∧ server.tenants.Pairwise TenantsDiffer ∧ server.tenants = tenants ∧
      server.config.maxConnections = config.maxConnections := by
  obtain ⟨⟨⟩, hvalid, h⟩ := Checks.bind_eq_ok.mp h
  obtain ⟨hne, hpairs⟩ := pairwise_of_validateTenants hvalid
  cases tenants with
  | nil => exact absurd rfl hne
  | cons first rest =>
    obtain ⟨bound, hbound, h⟩ := Checks.bind_eq_ok.mp h
    obtain ⟨⟨⟩, -, hbound⟩ := Checks.bind_eq_ok.mp hbound
    obtain rfl := Except.ok.inj hbound
    obtain rfl := Except.ok.inj h
    exact ⟨hne, hpairs, rfl, rfl⟩

/-- The last tenant with this token is selected. -/
theorem selectTenant_append (tenants : List TenantBackend) (tenant : TenantBackend)
    (token : String) :
    selectTenant (tenants ++ [tenant]) token =
      if tenant.token = token then some tenants.length else selectTenant tenants token := by
  rw [selectTenant, List.zipIdx_append, List.foldl_append]
  simp [tokenEq_iff, selectTenant]

theorem selectTenant_eq_some {tenants : List TenantBackend} (h : tenants.Pairwise TenantsDiffer)
    {token : String} {k : ℕ} :
    selectTenant tenants token = some k ↔
      ∃ tenant, tenants[k]? = some tenant ∧ tenant.token = token := by
  induction tenants using List.reverseRecOn with
  | nil => simp [selectTenant]
  | append_singleton tenants tenant ih =>
    obtain ⟨hpairs, -, hlast⟩ := List.pairwise_append.mp h
    rw [selectTenant_append, List.getElem?_append]
    by_cases htoken : tenant.token = token
    · rw [if_pos htoken, Option.some_inj]
      constructor
      · rintro rfl
        exact ⟨tenant, by simp, htoken⟩
      · rintro ⟨other, hother, hsame⟩
        split at hother
        · -- an earlier tenant with this token
          have hdiffer := hlast other (List.mem_of_getElem? hother) tenant (by simp)
          exact absurd (hsame.trans htoken.symm) hdiffer.token
        · rename_i hk
          obtain ⟨hlt, -⟩ := List.getElem?_eq_some_iff.mp hother
          rw [List.length_singleton] at hlt
          omega
    · rw [if_neg htoken, ih hpairs]
      constructor
      · rintro ⟨other, hother, hsame⟩
        obtain ⟨hlt, -⟩ := List.getElem?_eq_some_iff.mp hother
        exact ⟨other, by rw [if_pos hlt, hother], hsame⟩
      · rintro ⟨other, hother, hsame⟩
        split at hother
        · exact ⟨other, hother, hsame⟩
        · rw [List.getElem?_singleton] at hother
          split at hother
          · obtain rfl := Option.some.inj hother
            exact absurd hsame htoken
          · cases hother

section Runs

variable {fingerprint : String} {B R A : Type} {perform : B → R → A × B}
  {self : DbProxyServer} {s s' : ServerState B R A} {phase phase' : ConnectionPhase}
  {action : ConnectionAction R} {events : List (TaskEvent (ConnectionAction R))}
  {objects : ℕ → B} {t : DbProxyServer.System B R A}

/-! ### What a connection may ask for -/

/-- What `handle_connection` asks of a hello. -/
theorem DbProxyServer.authenticate_eq_ok {hello : ClientHello} {tenant : Option ℕ} :
    self.authenticate fingerprint hello = .ok tenant ↔
      hello.protocolVersion = protocolVersion ∧
      isCompatibleProtocolFingerprint fingerprint hello.protocolFingerprint = true ∧
      hello.authToken.utf8ByteSize ≤ 512 ∧
      (self.tenants = [] → hello.authToken = self.config.authToken) ∧
      (self.tenants ≠ [] → tenant ≠ none) ∧
      selectTenant self.tenants hello.authToken = tenant ∧
      Fits blank (hello.clientName, 128) := by
  rw [authenticate, Fits]
  split
  · grind
  · split
    · grind
    · simp only
      split
      · rename_i h
        simp only [Bool.not_eq_eq_eq_not, Bool.not_true, Bool.eq_false_iff, ne_eq, tokenEq_iff] at h
        grind
      · rename_i h
        simp only [Bool.not_eq_eq_eq_not, Bool.not_true, Bool.eq_false_iff, ne_eq, tokenEq_iff] at h
        split <;> grind

/-- A hello that was accepted names the tenant by its token. -/
theorem DbProxyServer.authenticate_tenant {hello : ClientHello} {tenant : Option ℕ}
    (hne : self.tenants ≠ []) (hpairs : self.tenants.Pairwise TenantsDiffer)
    (h : self.authenticate fingerprint hello = .ok tenant) :
    ∃ k backend, tenant = some k ∧ self.tenants[k]? = some backend ∧
      backend.token = hello.authToken := by
  obtain ⟨-, -, -, -, hsome, hselected, -⟩ := authenticate_eq_ok.mp h
  obtain ⟨k, rfl⟩ := Option.ne_none_iff_exists'.mp (hsome hne)
  obtain ⟨backend, hk, htoken⟩ := (selectTenant_eq_some hpairs).mp hselected
  exact ⟨k, backend, rfl, hk, htoken⟩

namespace ConnectionPhase

/-- The hello that the connection was accepted with. -/
def identity : ConnectionPhase → Option (ClientHello × Option ℕ)
  | answering hello tenant | serving hello tenant => some (hello, tenant)
  | _ => none

/-- Slots of the server. -/
def slots : ConnectionPhase → ℕ
  | arrived | closed => 0
  | _ => 1

/-- Slots of tenant `k`. -/
def tenantSlots (k : ℕ) : ConnectionPhase → ℕ
  | answering _ tenant | serving _ tenant | leaving tenant => if tenant = some k then 1 else 0
  | _ => 0

end ConnectionPhase

namespace DbProxyServer

/-- What one step of a connection can do. -/
inductive ConnectionMove (fingerprint : String) (perform : B → R → A × B) (self : DbProxyServer)
    (s : ServerState B R A) : ConnectionPhase → ServerState B R A → ConnectionPhase → Prop
  | refused : ConnectionMove fingerprint perform self s .arrived s .closed
  | accepted (h : 0 < s.slots) :
    ConnectionMove fingerprint perform self s .arrived { s with slots := s.slots - 1 } .handshaking
  | rejected (reason : Option (ℤ × String)) :
    ConnectionMove fingerprint perform self s .handshaking s (.ending reason)
  | authenticated {hello : ClientHello}
    (h : self.authenticate fingerprint hello = .ok none) :
    ConnectionMove fingerprint perform self s .handshaking s (.answering hello none)
  | admitted {hello : ClientHello} {k : ℕ}
    (h : self.authenticate fingerprint hello = .ok (some k)) (hfree : 0 < s.tenantSlots k) :
    ConnectionMove fingerprint perform self s .handshaking
      { s with tenantSlots := Function.update s.tenantSlots k (s.tenantSlots k - 1) }
      (.answering hello (some k))
  | answered {hello : ClientHello} {tenant : Option ℕ} :
    ConnectionMove fingerprint perform self s (.answering hello tenant) s (.serving hello tenant)
  | served {hello : ClientHello} {tenant : Option ℕ} (r : R) :
    ConnectionMove fingerprint perform self s (.serving hello tenant)
      { s with
        objects := Function.update s.objects (self.objectOf tenant)
          (perform (s.objects (self.objectOf tenant)) r).2
        journal := s.journal ++
          [⟨hello.authToken, r, (perform (s.objects (self.objectOf tenant)) r).1⟩] }
      (.serving hello tenant)
  | left {phase : ConnectionPhase} {hello : ClientHello} {tenant : Option ℕ}
    (h : phase.identity = some (hello, tenant)) :
    ConnectionMove fingerprint perform self s phase s (.leaving tenant)
  | dropped : ConnectionMove fingerprint perform self s (.leaving none) s (.ending none)
  | returned {k : ℕ} :
    ConnectionMove fingerprint perform self s (.leaving (some k))
      { s with tenantSlots := Function.update s.tenantSlots k (s.tenantSlots k + 1) }
      (.ending none)
  | closed {reason : Option (ℤ × String)} :
    ConnectionMove fingerprint perform self s (.ending reason) { s with slots := s.slots + 1 }
      .closed

theorem act_move (h : self.act fingerprint perform s phase action = some (s', phase')) :
    ConnectionMove fingerprint perform self s phase s' phase' := by
  revert h
  fun_cases DbProxyServer.act fingerprint self perform s phase action with
  | case1 hfree =>
    rintro ⟨⟩
    exact .accepted hfree
  | case2 =>
    rintro ⟨⟩
    exact .refused
  | case3 | case4 | case7 =>
    rintro ⟨⟩
    exact .rejected _
  | case5 hello h =>
    rintro ⟨⟩
    exact .authenticated h
  | case6 hello k h hfree =>
    rintro ⟨⟩
    exact .admitted h hfree
  | case8 hello tenant =>
    rintro ⟨⟩
    exact .answered
  | case9 hello tenant r object answer after hperform =>
    rintro ⟨⟩
    have hserved : ConnectionMove fingerprint perform self s (.serving hello tenant) _
      (.serving hello tenant) := .served r
    rw [hperform] at hserved
    exact hserved
  | case10 hello tenant | case11 hello tenant =>
    rintro ⟨⟩
    exact .left rfl
  | case12 =>
    rintro ⟨⟩
    exact .dropped
  | case13 k =>
    rintro ⟨⟩
    exact .returned
  | case14 reason =>
    rintro ⟨⟩
    exact .closed
  | case15 => rintro ⟨⟩

namespace ConnectionMove

/-- A connection keeps the identity that was accepted. -/
theorem identity (h : ConnectionMove fingerprint perform self s phase s' phase')
    (hphase : ∀ hello tenant, phase.identity = some (hello, tenant) →
      self.authenticate fingerprint hello = .ok tenant) (hello : ClientHello) (tenant : Option ℕ)
    (hidentity : phase'.identity = some (hello, tenant)) :
    self.authenticate fingerprint hello = .ok tenant := by
  cases h with
  | authenticated h | admitted h _ =>
    cases hidentity
    exact h
  | answered | served => exact hphase hello tenant hidentity
  | refused | accepted | rejected | left | dropped | returned | closed => cases hidentity

theorem slots (h : ConnectionMove fingerprint perform self s phase s' phase') :
    s'.slots + phase'.slots = s.slots + phase.slots := by
  cases h with
  | accepted h => exact Nat.sub_add_cancel h
  | left h =>
    cases phase with
    | answering | serving => rfl
    | _ => cases h
  | _ => rfl

theorem tenantSlots (h : ConnectionMove fingerprint perform self s phase s' phase') (k : ℕ) :
    s'.tenantSlots k + phase'.tenantSlots k = s.tenantSlots k + phase.tenantSlots k := by
  have hother : ∀ {j n : ℕ}, k ≠ j → Function.update s.tenantSlots j n k = s.tenantSlots k :=
    fun hne => Function.update_of_ne hne _ _
  cases h with
  | @admitted hello j h hfree =>
    show Function.update s.tenantSlots j _ k + (if some j = some k then 1 else 0) = _
    by_cases hj : k = j
    · rw [hj, Function.update_self, if_pos rfl]
      exact Nat.sub_add_cancel hfree
    · rw [hother hj, if_neg fun h => hj (Option.some.inj h).symm]
      rfl
  | @returned j =>
    show Function.update s.tenantSlots j _ k + 0 = _ + (if some j = some k then 1 else 0)
    by_cases hj : k = j
    · rw [hj, Function.update_self, if_pos rfl]
    · rw [hother hj, if_neg fun h => hj (Option.some.inj h).symm]
  | left h =>
    cases phase with
    | answering | serving =>
      cases h
      rfl
    | _ => cases h
  | _ => rfl

end ConnectionMove

/-! ### Isolation -/

/-- A backend that answers calls one after the other. -/
def serveAll (perform : B → R → A × B) (b : B) : List R → List A × B
  | [] => ([], b)
  | r :: rest =>
    let tail := serveAll perform (perform b r).2 rest
    ((perform b r).1 :: tail.1, tail.2)

theorem serveAll_concat (b : B) (requests : List R) (r : R) :
    serveAll perform b (requests ++ [r]) =
      ((serveAll perform b requests).1 ++ [(perform (serveAll perform b requests).2 r).1],
        (perform (serveAll perform b requests).2 r).2) := by
  induction requests generalizing b with
  | nil => rfl
  | cons first requests ih =>
    rw [List.cons_append, serveAll, ih]
    rfl

/-- The requests that came with this token. -/
def callsOf (token : String) (journal : List (ServedCall R A)) : List (ServedCall R A) :=
  journal.filter (·.authToken = token)

theorem callsOf_concat (token : String) (journal : List (ServedCall R A)) (call : ServedCall R A) :
    callsOf token (journal ++ [call]) =
      callsOf token journal ++ if call.authToken = token then [call] else [] := by
  rw [callsOf, List.filter_append, List.filter_singleton, callsOf]
  by_cases h : call.authToken = token <;> simp [h]

/-- Every connection has the identity it presented, and every backend is what the calls with the
token of its tenant made of it. -/
structure Isolated (fingerprint : String) (perform : B → R → A × B) (server : DbProxyServer)
    (objects : ℕ → B) (t : System B R A) : Prop where
  identity : ∀ phase ∈ t.tasks, ∀ hello tenant, phase.identity = some (hello, tenant) →
    server.authenticate fingerprint hello = .ok tenant
  known : ∀ call ∈ t.shared.journal, ∃ tenant ∈ server.tenants, tenant.token = call.authToken
  replay : ∀ tenant ∈ server.tenants,
    serveAll perform (objects tenant.backend)
        ((callsOf tenant.token t.shared.journal).map (·.request)) =
      ((callsOf tenant.token t.shared.journal).map (·.answer), t.shared.objects tenant.backend)
  others : ∀ object, object ∉ server.tenants.map (·.backend) →
    t.shared.objects object = objects object

variable {u : System B R A} {e : TaskEvent (ConnectionAction R)}

/-- A request moves the backend of its own tenant. -/
theorem Isolated.served (h : Isolated fingerprint perform self objects t)
    (hne : self.tenants ≠ []) (hpairs : self.tenants.Pairwise TenantsDiffer)
    {hello : ClientHello} {tenant : Option ℕ} {r : R} {tasks : List ConnectionPhase}
    (haccepted : self.authenticate fingerprint hello = .ok tenant)
    (htasks : ∀ phase ∈ tasks, ∀ hello tenant, phase.identity = some (hello, tenant) →
      self.authenticate fingerprint hello = .ok tenant) :
    Isolated fingerprint perform self objects
      { shared := { t.shared with
          objects := Function.update t.shared.objects (self.objectOf tenant)
            (perform (t.shared.objects (self.objectOf tenant)) r).2
          journal := t.shared.journal ++ [⟨hello.authToken, r,
            (perform (t.shared.objects (self.objectOf tenant)) r).1⟩] }
        tasks := tasks } := by
  obtain ⟨k, own, rfl, hk, htoken⟩ := authenticate_tenant hne hpairs haccepted
  have hown : own ∈ self.tenants := List.mem_of_getElem? hk
  have hobject : self.objectOf (some k) = own.backend := by
    rw [objectOf, hk]
    rfl
  rw [hobject]
  refine ⟨htasks, ?_, ?_, ?_⟩
  · intro call hcall
    rcases List.mem_append.mp hcall with hcall | hcall
    · exact h.known call hcall
    · obtain rfl := List.mem_singleton.mp hcall
      exact ⟨own, hown, htoken⟩
  · intro other hother
    have hreplay := h.replay other hother
    show serveAll perform _ ((callsOf other.token (_ ++ [_])).map _) =
      ((callsOf other.token (_ ++ [_])).map _, Function.update t.shared.objects own.backend _ _)
    rw [callsOf_concat]
    by_cases hsame : other = own
    · subst hsame
      rw [if_pos htoken.symm, List.map_append, List.map_append, List.map_singleton,
        List.map_singleton, serveAll_concat, hreplay, Function.update_self]
    · -- another token, and another object
      have hdiffer : TenantsDiffer other own := hpairs.forall hother hown hsame
      rw [if_neg fun heq => hdiffer.token (heq.symm.trans htoken.symm), List.append_nil,
        Function.update_of_ne hdiffer.backend]
      exact hreplay
  · intro object hobject
    show Function.update t.shared.objects own.backend _ object = _
    rw [Function.update_of_ne]
    · exact h.others object hobject
    · rintro rfl
      exact hobject (List.mem_map_of_mem hown)

/-- Other steps only change slots and the phase of the connection. -/
theorem Isolated.congr (h : Isolated fingerprint perform self objects t)
    (hobjects : u.shared.objects = t.shared.objects)
    (hjournal : u.shared.journal = t.shared.journal)
    (htasks : ∀ phase ∈ u.tasks, ∀ hello tenant, phase.identity = some (hello, tenant) →
      self.authenticate fingerprint hello = .ok tenant) :
    Isolated fingerprint perform self objects u := by
  refine ⟨htasks, ?_, ?_, ?_⟩
  · rw [hjournal]
    exact h.known
  · rw [hjournal, hobjects]
    exact h.replay
  · rw [hobjects]
    exact h.others

theorem step_isolated (hne : self.tenants ≠ []) (hpairs : self.tenants.Pairwise TenantsDiffer)
    (h : Isolated fingerprint perform self objects t)
    (hstep : self.step fingerprint perform t e = some u) :
    Isolated fingerprint perform self objects u := by
  rcases TaskTable.step_cases hstep with ⟨-, rfl⟩ | ⟨i, action, phase, s', phase', -, hphase, hact, rfl⟩
  · refine h.congr rfl rfl fun phase hphase => ?_
    rcases List.mem_append.mp hphase with hphase | hphase
    · exact h.identity phase hphase
    · obtain rfl := List.mem_singleton.mp hphase
      intro hello tenant hidentity
      cases hidentity
  · have hmove := act_move hact
    have htasks : ∀ p ∈ t.tasks.set i phase', ∀ hello tenant,
        p.identity = some (hello, tenant) → self.authenticate fingerprint hello = .ok tenant := by
      intro p hp
      rcases List.mem_or_eq_of_mem_set hp with hp | rfl
      · exact h.identity p hp
      · exact hmove.identity (h.identity phase (List.mem_of_getElem? hphase))
    cases hmove with
    | served r =>
      exact h.served hne hpairs (h.identity _ (List.mem_of_getElem? hphase) _ _ rfl) htasks
    | _ => exact h.congr rfl rfl htasks

/-- **Isolation of tenants.**  Whatever connections arrive, authenticate, send requests, break and
are dropped, in whichever interleaving: every request was served with the token of a tenant, and
the backend of each tenant, with all answers it gave, is what the requests of its own token make
of its initial state, in their order.  No other object changes. -/
theorem tenant_isolation (fingerprint : String) (perform : B → R → A × B) (config : ServerConfig)
    (tenants : List TenantBackend) (server : DbProxyServer)
    (hbind : bindTenants config tenants = .ok server) (objects : ℕ → B)
    (events : List (TaskEvent (ConnectionAction R))) (t : System B R A)
    (hrun : run (server.step fingerprint perform) (server.started objects) events = some t) :
    (∀ call ∈ t.shared.journal, ∃ tenant ∈ tenants, tenant.token = call.authToken) ∧
    (∀ tenant ∈ tenants,
      serveAll perform (objects tenant.backend)
          ((callsOf tenant.token t.shared.journal).map (·.request)) =
        ((callsOf tenant.token t.shared.journal).map (·.answer),
          t.shared.objects tenant.backend)) ∧
    ∀ object, object ∉ tenants.map (·.backend) → t.shared.objects object = objects object := by
  obtain ⟨hne, hpairs, htenants, -⟩ := bindTenants_eq_ok hbind
  subst htenants
  have hisolated : Isolated fingerprint perform server objects t := by
    refine run_invariant (P := Isolated fingerprint perform server objects)
      (fun _ _ _ h hstep => step_isolated hne hpairs h hstep) ?_ hrun
    exact ⟨fun _ h => (by cases h), fun _ h => (by cases h), fun _ _ => rfl, fun _ _ => rfl⟩
  exact ⟨hisolated.known, hisolated.replay, hisolated.others⟩

/-! ### Slots -/

/-- Connections that hold a slot of tenant `k`. -/
def heldBy (k : ℕ) (tasks : List ConnectionPhase) : ℕ :=
  (tasks.map (ConnectionPhase.tenantSlots k)).sum

theorem run_slots
    (hrun : run (self.step fingerprint perform) (self.started objects) events = some t) :
    t.shared.slots + (t.tasks.map ConnectionPhase.slots).sum = self.config.maxConnections :=
  run_total ServerState.slots ConnectionPhase.slots rfl
    (fun _ _ _ _ _ hact => (act_move hact).slots) hrun

theorem run_tenantSlots
    (hrun : run (self.step fingerprint perform) (self.started objects) events = some t) {k : ℕ}
    {tenant : TenantBackend} (hk : self.tenants[k]? = some tenant) :
    t.shared.tenantSlots k + heldBy k t.tasks = tenant.maxConnections := by
  have htotal := run_total (fun s : ServerState B R A => s.tenantSlots k)
    (ConnectionPhase.tenantSlots k) rfl (fun _ _ _ _ _ hact => (act_move hact).tenantSlots k) hrun
  have hinit : (self.started (R := R) (A := A) objects).shared.tenantSlots k =
      tenant.maxConnections := by
    show (self.tenants[k]?).elim 0 _ = _
    rw [hk, Option.elim_some]
  exact htotal.trans hinit

/-- **Slots of tenants.**  In every interleaving, with connections that end at any point:
* the free slots of the server and those of its open connections are `maxConnections`, and so for
  each tenant, so a limit is never exceeded and no slot is lost;
* a connection whose hello is in order is refused for capacity exactly when the connections of its
  own tenant hold all slots of that tenant;
* when all connections are over, every slot is free again. -/
theorem tenant_slots (fingerprint : String) (perform : B → R → A × B) (config : ServerConfig)
    (tenants : List TenantBackend) (server : DbProxyServer)
    (hbind : bindTenants config tenants = .ok server) (objects : ℕ → B)
    (events : List (TaskEvent (ConnectionAction R))) (t : System B R A)
    (hrun : run (server.step fingerprint perform) (server.started objects) events = some t) :
    t.shared.slots + (t.tasks.map ConnectionPhase.slots).sum = config.maxConnections ∧
    ∀ k tenant, tenants[k]? = some tenant →
      t.shared.tenantSlots k + heldBy k t.tasks = tenant.maxConnections ∧
      (∀ i hello, t.tasks[i]? = some .handshaking →
        server.authenticate fingerprint hello = .ok (some k) →
        ∃ u, server.step fingerprint perform t (.act i (.hello hello)) = some u ∧
          (u.tasks[i]? = some (.ending (some capacityExhausted)) ↔
            heldBy k t.tasks = tenant.maxConnections)) ∧
      ((∀ phase ∈ t.tasks, phase = .closed) →
        t.shared.slots = config.maxConnections ∧
        t.shared.tenantSlots k = tenant.maxConnections) := by
  obtain ⟨-, -, rfl, hmax⟩ := bindTenants_eq_ok hbind
  have hslots := run_slots hrun
  rw [hmax] at hslots
  refine ⟨hslots, fun k tenant hk => ?_⟩
  have htenant := run_tenantSlots hrun hk
  refine ⟨htenant, ?_, ?_⟩
  · intro i hello hi haccepted
    obtain ⟨hlt, -⟩ := List.getElem?_eq_some_iff.mp hi
    by_cases hfree : 0 < t.shared.tenantSlots k
    · refine ⟨_, step_act hi (by rw [act, haccepted]; exact if_pos hfree), ?_⟩
      simp only [List.getElem?_set_self hlt, Option.some.injEq, reduceCtorEq, false_iff]
      omega
    · refine ⟨_, step_act hi (by rw [act, haccepted]; exact if_neg hfree), ?_⟩
      simp only [List.getElem?_set_self hlt, true_iff]
      omega
  · intro hclosed
    have hsum : ∀ load : ConnectionPhase → ℕ, load .closed = 0 → (t.tasks.map load).sum = 0 := by
      intro load hload
      refine List.sum_eq_zero fun n hn => ?_
      obtain ⟨phase, hphase, rfl⟩ := List.mem_map.mp hn
      rw [hclosed phase hphase, hload]
    rw [hsum _ rfl] at hslots
    rw [heldBy, hsum _ rfl] at htenant
    exact ⟨hslots, htenant⟩

end DbProxyServer

end Runs

/-! ### Two tenants -/

def twoTenants : List TenantBackend :=
  [⟨"slg", "slg-token-0123456789", 0, 1⟩, ⟨"mmorpg", "mmorpg-token-01234567", 1, 2⟩]

def sharedListener : ServerConfig := ⟨"", 4096, 1024, 3, 64⟩

def gameServer : DbProxyServer :=
  ⟨{ sharedListener with authToken := "unused-multi-tenant-placeholder" }, 0, twoTenants⟩

/-- A backend that counts its requests. -/
def countRequests (log : List ℕ) (r : ℕ) : ℕ × List ℕ := (log.length, log ++ [r])

/-- Interleaved connections of both tenants; the third is one too many for its tenant. -/
def crossingTenants : List (TaskTable.TaskEvent (ConnectionAction ℕ)) :=
  [.spawn, .spawn, .spawn, .act 0 .accept, .act 1 .accept, .act 2 .accept,
    .act 0 (.hello ⟨2, "v2", "slg-token-0123456789", "a"⟩),
    .act 1 (.hello ⟨2, "v2", "mmorpg-token-01234567", "b"⟩),
    .act 2 (.hello ⟨2, "v2", "slg-token-0123456789", "c"⟩),
    .act 0 .answered, .act 1 .answered, .act 0 (.request 7), .act 1 (.request 8),
    .act 0 (.request 9), .act 0 .leave, .act 0 .dropTenantSlot]

theorem tenant_isolation_crossing :
    ∃ t, run (gameServer.step "v2" countRequests) (gameServer.started fun _ => []) crossingTenants =
        some t ∧
      ∀ tenant ∈ twoTenants, DbProxyServer.serveAll countRequests []
          ((DbProxyServer.callsOf tenant.token t.shared.journal).map (·.request)) =
        ((DbProxyServer.callsOf tenant.token t.shared.journal).map (·.answer),
          t.shared.objects tenant.backend) := by
  have hended : (run (gameServer.step "v2" countRequests) (gameServer.started fun _ => [])
      crossingTenants).isSome = true := by decide +kernel
  obtain ⟨t, ht⟩ := Option.isSome_iff_exists.mp hended
  exact ⟨t, ht, (DbProxyServer.tenant_isolation "v2" countRequests sharedListener twoTenants
    gameServer (by decide +kernel) (fun _ => []) crossingTenants t ht).2.1⟩

theorem tenant_slots_crossing :
    ∃ t, run (gameServer.step "v2" countRequests) (gameServer.started fun _ => []) crossingTenants =
        some t ∧
      t.shared.tenantSlots 0 + DbProxyServer.heldBy 0 t.tasks = 1 := by
  have hended : (run (gameServer.step "v2" countRequests) (gameServer.started fun _ => [])
      crossingTenants).isSome = true := by decide +kernel
  obtain ⟨t, ht⟩ := Option.isSome_iff_exists.mp hended
  exact ⟨t, ht, ((DbProxyServer.tenant_slots "v2" countRequests sharedListener twoTenants
    gameServer (by decide +kernel) (fun _ => []) crossingTenants t ht).2 0 _ rfl).1⟩

end DbProxy
