/-
What a step of a client can do.

* `ConnectionsMove` — connections are opened and never lost, and nothing that is decided on
  one of them changes;
* `CallMove` — a call begins, makes an attempt, takes the result of its attempt, or moves
  on in its reconnect;
* `system_step` — every event is one of these.
-/
import DbProxy.ClientCalls

namespace DbProxy

open StepMachine

/-! ### Errors of a reconnect -/

/-- A timeout of the request. -/
def CallError.isTimeout : CallError → Bool
  | client .requestTimeout | client .requestNotSentTimeout => true
  | _ => false

theorem isTimeout_of_unavailable {e : CallError} (h : e.isEndpointUnavailable = true) :
    e.isTimeout = false := by
  cases e with
  | client e => cases e <;> first | rfl | cases h
  | _ => rfl

theorem isTimeout_of_rejection {e : CallError} (h : e.isCandidateHandshakeRejection = true) :
    e.isTimeout = false := by
  cases e with
  | client e => cases e <;> first | rfl | cases h
  | _ => rfl

theorem requestBudget_error {instantMax now duration : ℕ} {e : CallError}
    (h : RequestBudget.new instantMax now duration = .error e) : e.isTimeout = false := by
  rw [RequestBudget.new] at h
  split at h
  · obtain rfl := Except.error.inj h
    rfl
  split at h
  · obtain rfl := Except.error.inj h
    rfl
  · cases h

theorem endpointCandidates_error {config : ClientConfig} {e : CallError}
    (h : config.endpointCandidates = .error e) : e.isTimeout = false := by
  rcases Checks.bind_eq_error.mp h with h | ⟨candidates, -, h⟩
  · refine Checks.foldlM_error (P := fun e => e.isTimeout = false) (fun b a e h => ?_) h
    split at h
    · obtain rfl := Except.error.inj h
      rfl
    · cases h
  · split at h
    · obtain rfl := Except.error.inj h
      rfl
    · cases h

theorem handshakeFailure_error (failure : HandshakeFailure) : failure.error.isTimeout = false := by
  cases failure <;> rfl

theorem stage_error {α : Type} {result : Option (Except HandshakeFailure α)} {e : CallError}
    (h : Handshake.stage result = .error e) : e.isTimeout = false := by
  rcases result with _ | failure | a
  · obtain rfl := Except.error.inj h
    rfl
  · obtain rfl := Except.error.inj h
    exact handshakeFailure_error failure
  · cases h

theorem remoteError_isTimeout (error : Option (ℤ × String)) :
    (remoteError error).isTimeout = false := by
  cases error <;> rfl

/-- A connection attempt has deadlines of its own. -/
theorem connectSingle_error {fingerprint : String} {instantMax : ℕ} {config : ClientConfig}
    {now endpointIndex : ℕ} {net : Handshake} {e : CallError}
    (h : connectSingle fingerprint instantMax config now endpointIndex net = .error e) :
    e.isTimeout = false := by
  rcases Checks.bind_eq_error.mp h with h | ⟨candidates, -, h⟩
  · exact endpointCandidates_error h
  -- the checks of the configuration
  iterate 6
    split at h
    · obtain rfl := Except.error.inj h
      rfl
  rcases Checks.bind_eq_error.mp h with h | ⟨_, -, h⟩
  · exact requestBudget_error h
  rcases Checks.bind_eq_error.mp h with h | ⟨_, -, h⟩
  · exact stage_error h
  rcases Checks.bind_eq_error.mp h with h | ⟨_, -, h⟩
  · exact stage_error h
  rcases Checks.bind_eq_error.mp h with h | ⟨_, -, h⟩
  · exact stage_error h
  rcases Checks.bind_eq_error.mp h with h | ⟨answer, -, h⟩
  · exact stage_error h
  split at h
  · obtain rfl := Except.error.inj h
    rfl
  · obtain rfl := Except.error.inj h
    rfl
  · obtain rfl := Except.error.inj h
    rfl
  · split at h
    · obtain rfl := Except.error.inj h
      exact remoteError_isTimeout _
    split at h
    · obtain rfl := Except.error.inj h
      rfl
    · cases h

/-! ### Connections -/

/-- What is kept of the connections. -/
structure ConnectionsMove (s t : ClientSystem) : Prop where
  clock : s.clock ≤ t.clock
  opened : s.opened ≤ t.opened
  current : s.current < s.opened → t.current < t.opened
  count : ∀ c, c < s.opened → (s.connections c).count ≤ (t.connections c).count
  kept : ∀ c, c < s.opened → ∀ i, i < (s.connections c).count →
    ExchangeKept ((s.connections c).exchanges i) ((t.connections c).exchanges i)
  sentInv : (∀ c, (s.connections c).SentInv) → ∀ c, (t.connections c).SentInv

section Connections

variable {s t : ClientSystem}

theorem ConnectionsMove.of_eq (hclock : s.clock ≤ t.clock)
    (hconnections : t.connections = s.connections) (hopened : t.opened = s.opened)
    (hcurrent : t.current = s.current) : ConnectionsMove s t := by
  refine ⟨hclock, hopened.ge, fun h => ?_, fun c _ => ?_, fun c _ i _ => ?_, fun h c => ?_⟩
  · rw [hcurrent, hopened]
    exact h
  · rw [hconnections]
  · rw [hconnections]
    exact .refl _
  · rw [hconnections]
    exact h c

/-- One connection moves. -/
theorem connectionsMove_set {c : ℕ} {connection : ClientConnection}
    (hcount : (s.connections c).count ≤ connection.count)
    (hkept : ∀ i, i < (s.connections c).count →
      ExchangeKept ((s.connections c).exchanges i) (connection.exchanges i))
    (hinv : (s.connections c).SentInv → connection.SentInv) (hclock : t.clock = s.clock)
    (hconnections : t.connections = Function.update s.connections c connection)
    (hopened : t.opened = s.opened) (hcurrent : t.current = s.current) :
    ConnectionsMove s t := by
  refine ⟨hclock.ge, hopened.ge, fun h => ?_, fun c' _ => ?_, fun c' _ i hi => ?_, fun h c' => ?_⟩
  · rw [hcurrent, hopened]
    exact h
  all_goals
    rw [hconnections]
    by_cases hc : c' = c
  · subst hc
    rw [Function.update_self]
    exact hcount
  · rw [Function.update_of_ne hc]
  · subst hc
    rw [Function.update_self]
    exact hkept i hi
  · rw [Function.update_of_ne hc]
    exact .refl _
  · subst hc
    rw [Function.update_self]
    exact hinv (h c')
  · rw [Function.update_of_ne hc]
    exact h c'

/-- A connection is opened. -/
theorem connectionsMove_open {maxInFlight : ℕ} (hclock : t.clock = s.clock)
    (hconnections : t.connections =
      Function.update s.connections s.opened (ClientConnection.opened maxInFlight))
    (hopened : t.opened = s.opened + 1) (hcurrent : t.current = s.opened) :
    ConnectionsMove s t := by
  refine ⟨hclock.ge, by omega, fun _ => by omega, fun c hc => ?_, fun c hc i _ => ?_,
    fun h c => ?_⟩
  · rw [hconnections, Function.update_of_ne (by omega)]
  · rw [hconnections, Function.update_of_ne (by omega)]
    exact .refl _
  · rw [hconnections]
    by_cases hc : c = s.opened
    · subst hc
      rw [Function.update_self]
      exact ClientConnection.opened_sentInv maxInFlight
    · rw [Function.update_of_ne hc]
      exact h c

end Connections

/-! ### Calls -/

/-- Between the two attempts. -/
def CallPhase.isReconnecting : CallPhase → Bool
  | failed | queueing | holding | connecting .. => true
  | _ => false

/-- The errors that a reconnect has collected are no timeouts of the request. -/
def CallPhase.Honest : CallPhase → Prop
  | connecting _ _ lastError lastRejection =>
    (∀ e, lastError = some e → e.isTimeout = false) ∧
      ∀ e, lastRejection = some e → e.isTimeout = false
  | _ => True

/-- A step of the reconnect to a phase. -/
structure ReconnectMove (s : ClientSystem) (k : ℕ) (phase : CallPhase) : Prop where
  old : (s.calls k).phase.isReconnecting = true
  next : ∀ second c i, phase ≠ .attempting second c i
  honest : (s.calls k).phase.Honest → phase.Honest
  truth : (s.calls k).phase.Honest → ∀ e, phase = .returned (some (.error e)) →
    e.isTimeout = true → e = .client (s.calls k).timeoutError
  late : (s.calls k).phase = .failed → (s.calls k).deadline ≤ s.clock →
    phase = .returned (some (.error (.client (s.calls k).timeoutError)))

/-- What a step does to one call. -/
inductive CallMove (s t : ClientSystem) (k : ℕ) : Prop
  | same (hcall : t.calls k = s.calls k)
  | begin (hk : k = s.begun) (hbegun : t.begun = s.begun + 1)
      (hattempts : (t.calls k).attempts = [])
      (hphase : (t.calls k).phase = .starting ∨
        ∃ e, (t.calls k).phase = .returned (some (.error e)) ∧ e.isTimeout = false)
  | attempt (second : Bool) (i : ℕ)
      (hphase : (s.calls k).phase = .starting ∨ (s.calls k).phase = .reconnected)
      (hcount : (t.connections s.current).count = i + 1)
      (hsent : ((t.connections s.current).exchanges i).mayHaveSent = (s.calls k).mayHaveSent)
      (hcall : t.calls k = { s.calls k with
        attempts := (s.current, i) :: (s.calls k).attempts
        phase := .attempting second s.current i })
  | settle (second : Bool) (c i : ℕ) (result : ExchangeResult)
      (hphase : (s.calls k).phase = .attempting second c i)
      (hresult : ((s.connections c).exchanges i).phase = .returned result)
      (hcall : t.calls k = { s.calls k with
        mayHaveSent := ((s.connections c).exchanges i).mayHaveSent
        phase := .afterAttempt second result })
  | reconnect (phase : CallPhase) (hmove : ReconnectMove s k phase)
      (hcall : t.calls k = { s.calls k with phase })

/-- What a step does. -/
structure SystemMove (s t : ClientSystem) : Prop where
  connections : ConnectionsMove s t
  begun : s.begun ≤ t.begun
  calls : ∀ k, CallMove s t k

/-- One call moves. -/
theorem systemMove_of_call {s t : ClientSystem} {k : ℕ} {call : LogicalCall}
    (hconnections : ConnectionsMove s t) (hbegun : s.begun ≤ t.begun)
    (hcalls : t.calls = Function.update s.calls k call)
    (hmove : t.calls k = call → CallMove s t k) : SystemMove s t := by
  refine ⟨hconnections, hbegun, fun k' => ?_⟩
  by_cases hk : k' = k
  · subst hk
    exact hmove (by rw [hcalls, Function.update_self])
  · exact .same (by rw [hcalls, Function.update_of_ne hk])

/-! ### All events -/

theorem ClientConnection.begin_cases {s t : ClientConnection} {mayHaveSent : Bool}
    (h : s.step (.begin mayHaveSent) = some t) :
    t.exchanges = Function.update s.exchanges s.count { mayHaveSent, phase := .started } ∧
      t.count = s.count + 1 ∧ t.wire = s.wire := by
  obtain rfl := Option.some.inj h
  exact ⟨rfl, rfl, rfl⟩

namespace ClientSystem

variable {fingerprint : String} {instantMax : ℕ} {config : ClientConfig} {s t : ClientSystem}
  {k : ℕ}

/-- A move in the reconnect that leaves the connections alone. -/
theorem reconnect_step {phase : CallPhase} (hmove : ReconnectMove s k phase)
    (hcalls : t.calls = Function.update s.calls k { s.calls k with phase })
    (hbegun : t.begun = s.begun) (hclock : t.clock = s.clock)
    (hconnections : t.connections = s.connections) (hopened : t.opened = s.opened)
    (hcurrent : t.current = s.current) : SystemMove s t :=
  systemMove_of_call (.of_eq hclock.ge hconnections hopened hcurrent) hbegun.ge hcalls
    fun hcall => .reconnect phase hmove hcall

/-- A move to a phase without a result. -/
theorem reconnectMove_on {old : CallPhase} (phase : CallPhase) (hold : (s.calls k).phase = old)
    (hreconnecting : old.isReconnecting = true) (hnot : old ≠ .failed)
    (hnext : ∀ second c i, phase ≠ .attempting second c i)
    (hreturned : ∀ result, phase ≠ .returned result) (hhonest : old.Honest → phase.Honest) :
    ReconnectMove s k phase := by
  subst hold
  exact ⟨hreconnecting, hnext, hhonest, fun _ _ h => absurd h (hreturned _),
    fun hfailed => absurd hfailed hnot⟩

/-- The reconnect ends with an error that is no timeout. -/
theorem reconnectMove_error {old : CallPhase} {e : CallError} (hold : (s.calls k).phase = old)
    (hreconnecting : old.isReconnecting = true)
    (hlate : old = .failed → s.clock < (s.calls k).deadline)
    (he : old.Honest → e.isTimeout = false) :
    ReconnectMove s k (.returned (some (.error e))) := by
  subst hold
  refine ⟨hreconnecting, (fun _ _ _ h => by cases h), fun _ => trivial, ?_, fun hfailed hle => ?_⟩
  · intro hhonest e' h htimeout
    obtain rfl := Except.error.inj (Option.some.inj (CallPhase.returned.inj h))
    rw [he hhonest] at htimeout
    cases htimeout
  · have hlt := hlate hfailed
    omega

/-- The deadline ends the reconnect. -/
theorem reconnectMove_timeout (hreconnecting : (s.calls k).phase.isReconnecting = true) :
    ReconnectMove s k (.returned (some (.error (.client (s.calls k).timeoutError)))) := by
  refine ⟨hreconnecting, (fun _ _ _ h => by cases h), fun _ => trivial, fun _ e h _ => ?_,
    fun _ _ => rfl⟩
  exact (Except.error.inj (Option.some.inj (CallPhase.returned.inj h))).symm

theorem begin_step : SystemMove s (s.begin instantMax config) := by
  refine systemMove_of_call (k := s.begun) (.of_eq (Nat.le_refl _) rfl rfl rfl) (Nat.le_succ _) rfl
    fun hcall => .begin rfl rfl ?_ ?_
  · rw [hcall]
    split <;> rfl
  · rw [hcall]
    split
    · rename_i e he
      exact Or.inr ⟨e, rfl, requestBudget_error he⟩
    · exact Or.inl rfl

theorem attempt_step (h : s.attempt k = some t) : SystemMove s t := by
  have hbegin : ∀ {second : Bool},
      (s.calls k).phase = .starting ∨ (s.calls k).phase = .reconnected →
      s.beginAttempt k second = some t → SystemMove s t := by
    intro second hphase h
    rw [beginAttempt] at h
    obtain ⟨connection, hstep, rfl⟩ := Option.map_eq_some_iff.mp h
    obtain ⟨hexchanges, hcount, hwire⟩ := ClientConnection.begin_cases hstep
    -- the exchange that begins is new, so that all others are kept
    refine systemMove_of_call (connectionsMove_set (by omega) (fun i hi => ?_)
      (fun inv => inv.begin rfl hexchanges hcount hwire) rfl rfl rfl rfl) (Nat.le_refl _) rfl
      fun hcall => .attempt second _ hphase ?_ ?_ hcall
    · rw [hexchanges, Function.update_of_ne (by omega)]
      exact .refl _
    · show (Function.update s.connections s.current connection s.current).count = _
      rw [Function.update_self, hcount]
    · show ((Function.update s.connections s.current connection s.current).exchanges _).mayHaveSent
        = _
      rw [Function.update_self, hexchanges, Function.update_self]
  rw [attempt] at h
  split at h
  · rename_i hphase
    exact hbegin (Or.inl hphase) h
  · rename_i hphase
    exact hbegin (Or.inr hphase) h
  · cases h

theorem exchange_cases {e : CallEvent} (h : s.exchange k e = some t) :
    ∃ second c i connection, (s.calls k).phase = .attempting second c i ∧
      (s.calls k).allows s.clock e = true ∧ (s.connections c).stepCall i e = some connection ∧
      s.setConnection c connection = t := by
  rw [exchange] at h
  split at h
  · rename_i second c i hphase
    obtain ⟨hallows, h⟩ := Option.ite_none_right_eq_some.mp h
    obtain ⟨connection, hstep, rfl⟩ := Option.map_eq_some_iff.mp h
    exact ⟨second, c, i, connection, hphase, hallows, hstep, rfl⟩
  · cases h

theorem fromProtocol_of_allows {call : LogicalCall} {clock : ℕ} {e : CallEvent}
    (h : call.allows clock e = true) : e.fromProtocol = true := by
  cases e <;> first | rfl | exact h

theorem exchange_step {e : CallEvent} (h : s.exchange k e = some t) : SystemMove s t := by
  obtain ⟨second, c, i, connection, -, hallows, hstep, rfl⟩ := exchange_cases h
  have he := fromProtocol_of_allows hallows
  have hmoves := ClientConnection.stepCall_moves he hstep
  exact ⟨connectionsMove_set hmoves.count.ge (fun j _ => hmoves.kept j)
    (fun inv => inv.call he hstep) rfl rfl rfl rfl, Nat.le_refl _, fun _ => .same rfl⟩

theorem settle_cases (h : s.settle k = some t) : ∃ second c i result,
    (s.calls k).phase = .attempting second c i ∧
    ((s.connections c).exchanges i).phase = .returned result ∧
    s.setCall k { s.calls k with
      mayHaveSent := ((s.connections c).exchanges i).mayHaveSent
      phase := .afterAttempt second result } = t := by
  rw [settle] at h
  split at h
  · rename_i second c i hphase
    dsimp only at h
    split at h
    · rename_i result hresult
      exact ⟨second, c, i, result, hphase, hresult, Option.some.inj h⟩
    · cases h
  · cases h

theorem check_step (h : s.check config k = some t) : SystemMove s t := by
  rw [check] at h
  split at h
  · rename_i hphase
    have hreconnecting : (s.calls k).phase.isReconnecting = true := by
      rw [hphase]
      rfl
    split at h
    · obtain rfl := Option.some.inj h
      exact reconnect_step (reconnectMove_timeout hreconnecting) rfl rfl rfl rfl rfl rfl
    rename_i hlate
    split at h
    · rename_i e he
      obtain rfl := Option.some.inj h
      exact reconnect_step (reconnectMove_error hphase rfl (fun _ => by omega)
        fun _ => endpointCandidates_error he) rfl rfl rfl rfl rfl rfl
    · obtain rfl := Option.some.inj h
      have hmove : ReconnectMove s k .queueing :=
        ⟨hreconnecting, (fun _ _ _ h => by cases h), fun _ => trivial,
          (fun _ _ h => by cases h), fun _ hle => absurd hle hlate⟩
      exact reconnect_step hmove rfl rfl rfl rfl rfl rfl
  · cases h

/-- A check of the budget after the deadline. -/
theorem check_late (hlate : (s.calls k).deadline ≤ s.clock) (h : s.check config k = some t) :
    (s.calls k).phase = .failed ∧
      (t.calls k).phase = .returned (some (.error (.client (s.calls k).timeoutError))) := by
  rw [check] at h
  split at h
  · rename_i hphase
    rw [if_pos hlate] at h
    obtain rfl := Option.some.inj h
    refine ⟨hphase, ?_⟩
    show (Function.update s.calls k _ k).phase = _
    rw [Function.update_self]
  · cases h

theorem lockReconnect_step (h : s.lockReconnect k = some t) : SystemMove s t := by
  rw [lockReconnect] at h
  split at h
  · rename_i hphase
    obtain ⟨-, h⟩ := Option.ite_none_left_eq_some.mp h
    obtain rfl := Option.some.inj h
    exact reconnect_step (reconnectMove_on .holding hphase rfl (by simp) (by simp)
      (by simp) fun _ => trivial) rfl rfl rfl rfl rfl rfl
  · cases h

theorem inspect_step (h : s.inspect k = some t) : SystemMove s t := by
  rw [inspect] at h
  split at h
  · rename_i hphase
    split at h
    · obtain rfl := Option.some.inj h
      exact reconnect_step (reconnectMove_on .reconnected hphase rfl (by simp)
        (by simp) (by simp) fun _ => trivial) rfl rfl rfl rfl rfl rfl
    · obtain rfl := Option.some.inj h
      refine reconnect_step (reconnectMove_on _ hphase rfl (by simp) (by simp) (by simp)
        fun _ => ?_) rfl rfl rfl rfl rfl rfl
      exact ⟨(fun _ h => by cases h), (fun _ h => by cases h)⟩
  · cases h

/-- The loop of `reconnect_next` goes on or ends. -/
theorem nextCandidate_step {currentIndex offset count : ℕ}
    {lastError lastRejection lastError' lastRejection' : Option CallError}
    (hphase : (s.calls k).phase = .connecting currentIndex offset lastError' lastRejection')
    (hhonest : (CallPhase.connecting currentIndex offset lastError' lastRejection').Honest →
      (CallPhase.connecting currentIndex offset lastError lastRejection).Honest) :
    SystemMove s (s.nextCandidate k currentIndex offset count lastError lastRejection) := by
  rw [nextCandidate]
  split
  · exact reconnect_step (reconnectMove_on
      (.connecting currentIndex (offset + 1) lastError lastRejection)
      hphase rfl (by simp) (by simp) (by simp) fun hold => hhonest hold) rfl rfl rfl rfl rfl rfl
  · refine reconnect_step (reconnectMove_error hphase rfl (fun h => by cases h) fun hold => ?_)
      rfl rfl rfl rfl rfl rfl
    -- all candidates have failed: a rejection is reported before another error
    obtain ⟨herror, hrejection⟩ := hhonest hold
    cases lastRejection with
    | some e => exact hrejection e rfl
    | none =>
      cases lastError with
      | some e => exact herror e rfl
      | none => rfl

theorem connect_step {net : Handshake}
    (h : s.connect fingerprint instantMax config k net = some t) : SystemMove s t := by
  rw [connect] at h
  split at h
  · rename_i currentIndex offset lastError lastRejection hphase
    split at h
    · rename_i e he
      obtain rfl := Option.some.inj h
      exact reconnect_step (reconnectMove_error hphase rfl (fun h => by cases h)
        fun _ => endpointCandidates_error he) rfl rfl rfl rfl rfl rfl
    rename_i candidates hcandidates
    dsimp only at h
    split at h
    · obtain rfl := Option.some.inj h
      exact systemMove_of_call (connectionsMove_open rfl rfl rfl rfl) (Nat.le_refl _) rfl
        fun hcall => .reconnect .reconnected
          (reconnectMove_on _ hphase rfl (by simp) (by simp) (by simp) fun _ => trivial) hcall
    · rename_i e he
      split at h
      · rename_i hunavailable
        obtain rfl := Option.some.inj h
        refine nextCandidate_step hphase fun hold => ⟨fun e' h => ?_, hold.2⟩
        obtain rfl := Option.some.inj h
        exact isTimeout_of_unavailable hunavailable
      split at h
      · rename_i hrejection
        obtain rfl := Option.some.inj h
        refine nextCandidate_step hphase fun hold => ⟨hold.1, fun e' h => ?_⟩
        obtain rfl := Option.some.inj h
        exact isTimeout_of_rejection hrejection
      · obtain rfl := Option.some.inj h
        exact reconnect_step (reconnectMove_error hphase rfl (fun h => by cases h)
          fun _ => connectSingle_error he) rfl rfl rfl rfl rfl rfl
  · cases h

/-- The reconnect ends where it waits. -/
theorem stopReconnect_cases {result : CallResult} (h : s.stopReconnect k result = some t) :
    (s.calls k).phase.isReconnecting = true ∧ (s.calls k).phase ≠ .failed ∧
      t.calls = Function.update s.calls k { s.calls k with phase := .returned result } ∧
      t.begun = s.begun ∧ t.clock = s.clock ∧ t.connections = s.connections ∧
      t.opened = s.opened ∧ t.current = s.current := by
  rw [stopReconnect] at h
  split at h
  · rename_i hphase
    obtain rfl := Option.some.inj h
    rw [hphase]
    exact ⟨rfl, by simp, rfl, rfl, rfl, rfl, rfl, rfl⟩
  · rename_i hphase
    obtain rfl := Option.some.inj h
    rw [hphase]
    exact ⟨rfl, by simp, rfl, rfl, rfl, rfl, rfl, rfl⟩
  · cases h

theorem expire_cases (h : s.expire k = some t) : (s.calls k).deadline ≤ s.clock ∧
    s.stopReconnect k (some (.error (.client (s.calls k).timeoutError))) = some t :=
  Option.ite_none_right_eq_some.mp h

theorem expire_step (h : s.expire k = some t) : SystemMove s t := by
  obtain ⟨-, h⟩ := expire_cases h
  obtain ⟨hreconnecting, -, hcalls, hbegun, hclock, hconnections, hopened, hcurrent⟩ :=
    stopReconnect_cases h
  exact reconnect_step (reconnectMove_timeout hreconnecting) hcalls hbegun hclock hconnections
    hopened hcurrent

theorem cancel_step (h : s.stopReconnect k none = some t) : SystemMove s t := by
  obtain ⟨hreconnecting, hnot, hcalls, hbegun, hclock, hconnections, hopened, hcurrent⟩ :=
    stopReconnect_cases h
  have hmove : ReconnectMove s k (.returned none) :=
    ⟨hreconnecting, (fun _ _ _ h => by cases h), fun _ => trivial,
      (fun _ _ h => by cases h), fun hfailed => absurd hfailed hnot⟩
  exact reconnect_step hmove hcalls hbegun hclock hconnections hopened hcurrent

/-- **What a step can do.** -/
theorem system_step {e : ClientSystemEvent}
    (h : s.step fingerprint instantMax config e = some t) : SystemMove s t := by
  cases e with
  | advance now =>
    obtain ⟨hle, h⟩ := Option.ite_none_right_eq_some.mp h
    obtain rfl := Option.some.inj h
    exact ⟨.of_eq hle rfl rfl rfl, Nat.le_refl _, fun _ => .same rfl⟩
  | begin =>
    obtain rfl := Option.some.inj h
    exact begin_step
  | attempt k => exact attempt_step h
  | exchange k e => exact exchange_step h
  | reader c e =>
    obtain ⟨-, h⟩ := Option.ite_none_right_eq_some.mp h
    obtain ⟨connection, hstep, rfl⟩ := Option.map_eq_some_iff.mp h
    have hreceived := ClientConnection.stepReader_received hstep
    exact ⟨connectionsMove_set hreceived.count.ge (fun i _ => hreceived.kept i)
      (fun inv => inv.reader hstep) rfl rfl rfl rfl, Nat.le_refl _, fun _ => .same rfl⟩
  | settle k =>
    obtain ⟨second, c, i, result, hphase, hresult, rfl⟩ := settle_cases h
    exact systemMove_of_call (.of_eq (Nat.le_refl _) rfl rfl rfl) (Nat.le_refl _) rfl
      fun hcall => .settle second c i result hphase hresult hcall
  | check k => exact check_step h
  | lockReconnect k => exact lockReconnect_step h
  | inspect k => exact inspect_step h
  | connect k net => exact connect_step h
  | expire k => exact expire_step h
  | cancel k => exact cancel_step h

end ClientSystem

end DbProxy
