/-
Timeouts of the client tell the truth about sending.

The fact that a call may have sent lives in the budget: in the exchange while an attempt
runs, and in the call between its attempts.  It survives the reconnect, so every place that
reports a timeout knows of every write of every attempt.

* `ClientInv` — the invariant, with `CallOk` for each call;
* `sent_mono` — a write is never forgotten;
* `Expired` — the deadline was hit after a write: nothing but `RequestTimeout` comes of it
  (`expired_step`), and that comes without waiting (`Expired.reports`);
* `clientTimeouts_truthful` — both directions for every run.
-/
import DbProxy.ClientCallSteps

namespace DbProxy

open StepMachine

/-! ### What is known of a write -/

namespace ClientSystem

/-- `may_have_sent` of the budget. -/
def sentFlag (s : ClientSystem) (k : ℕ) : Bool :=
  match (s.calls k).phase with
  | .attempting _ c i => ((s.connections c).exchanges i).mayHaveSent
  | _ => (s.calls k).mayHaveSent

/-- A frame of an attempt of the call is on a wire, or a part of it. -/
def Written (s : ClientSystem) (k : ℕ) : Prop :=
  ∃ a ∈ (s.calls k).attempts, ∃ frame ∈ (s.connections a.1).wire, frame.call = a.2

instance (s : ClientSystem) (k : ℕ) : Decidable (s.Written k) :=
  inferInstanceAs (Decidable (∃ a ∈ (s.calls k).attempts,
    ∃ frame ∈ (s.connections a.1).wire, frame.call = a.2))

theorem sentFlag_attempting {s : ClientSystem} {k c i : ℕ} {second : Bool}
    (h : (s.calls k).phase = .attempting second c i) :
    s.sentFlag k = ((s.connections c).exchanges i).mayHaveSent := by
  rw [sentFlag, h]

theorem sentFlag_other {s : ClientSystem} {k : ℕ}
    (h : ∀ second c i, (s.calls k).phase ≠ .attempting second c i) :
    s.sentFlag k = (s.calls k).mayHaveSent := by
  rw [sentFlag]
  split
  · rename_i second c i hphase
    exact absurd hphase (h second c i)
  · rfl

end ClientSystem

/-- The attempts of a call are over, except the one that it waits for. -/
structure CallOk (s : ClientSystem) (k : ℕ) : Prop where
  known : ∀ a ∈ (s.calls k).attempts, a.1 < s.opened ∧ a.2 < (s.connections a.1).count
  live : ∀ second c i, (s.calls k).phase = .attempting second c i →
    (c, i) ∈ (s.calls k).attempts
  past : ∀ a ∈ (s.calls k).attempts,
    (∃ result, ((s.connections a.1).exchanges a.2).phase = .returned result) ∨
      ∃ second, (s.calls k).phase = .attempting second a.1 a.2
  sent : ∀ a ∈ (s.calls k).attempts,
    ((s.connections a.1).exchanges a.2).mayHaveSent = true → s.sentFlag k = true
  honest : (s.calls k).phase.Honest
  truth : (s.calls k).phase = .returned (some (.error (.client .requestNotSentTimeout))) →
    (s.calls k).mayHaveSent = false

structure ClientInv (s : ClientSystem) : Prop where
  connections : ∀ c, (s.connections c).SentInv
  current : s.current < s.opened
  unbegun : ∀ k, s.begun ≤ k → (s.calls k).attempts = [] ∧ (s.calls k).phase = .absent
  calls : ∀ k, CallOk s k

section Steps

variable {s t : ClientSystem} {k : ℕ}

/-- An attempt that is over stays as it is. -/
theorem ConnectionsMove.returned (hmove : ConnectionsMove s t) (h : CallOk s k) {a : ℕ × ℕ}
    (ha : a ∈ (s.calls k).attempts) {result : ExchangeResult}
    (hresult : ((s.connections a.1).exchanges a.2).phase = .returned result) :
    ((t.connections a.1).exchanges a.2).phase = .returned result ∧
      ((t.connections a.1).exchanges a.2).mayHaveSent =
        ((s.connections a.1).exchanges a.2).mayHaveSent := by
  obtain ⟨hopened, hcount⟩ := h.known a ha
  have hkept := hmove.kept a.1 hopened a.2 hcount
  refine ⟨hkept.returned result hresult, (hkept.decided ?_).2.2⟩
  rw [hresult]
  rfl

theorem ConnectionsMove.known (hmove : ConnectionsMove s t) (h : CallOk s k) {a : ℕ × ℕ}
    (ha : a ∈ (s.calls k).attempts) : a.1 < t.opened ∧ a.2 < (t.connections a.1).count := by
  obtain ⟨hopened, hcount⟩ := h.known a ha
  have := hmove.opened
  have := hmove.count a.1 hopened
  omega

/-- A call that does not wait for an attempt has only attempts that are over. -/
theorem CallOk.returned_of_idle (h : CallOk s k)
    (hidle : ∀ second c i, (s.calls k).phase ≠ .attempting second c i) {a : ℕ × ℕ}
    (ha : a ∈ (s.calls k).attempts) :
    ∃ result, ((s.connections a.1).exchanges a.2).phase = .returned result := by
  rcases h.past a ha with hreturned | ⟨second, hphase⟩
  · exact hreturned
  · exact absurd hphase (hidle second a.1 a.2)

/-- A call that does not move keeps its flag. -/
theorem sentFlag_same (hmove : ConnectionsMove s t) (h : CallOk s k)
    (hcall : t.calls k = s.calls k) (hsent : s.sentFlag k = true) : t.sentFlag k = true := by
  -- the flag is in the exchange of an attempt that runs
  by_cases hidle : ∀ second c i, (s.calls k).phase ≠ .attempting second c i
  · rw [ClientSystem.sentFlag_other hidle] at hsent
    rw [ClientSystem.sentFlag_other (by rw [hcall]; exact hidle), hcall]
    exact hsent
  · simp only [not_forall, not_not] at hidle
    obtain ⟨second, c, i, hphase⟩ := hidle
    obtain ⟨hopened, hcount⟩ := h.known _ (h.live second c i hphase)
    rw [ClientSystem.sentFlag_attempting hphase] at hsent
    rw [ClientSystem.sentFlag_attempting (by rw [hcall]; exact hphase)]
    exact (hmove.kept c hopened i hcount).sent hsent

theorem CallOk.same (hmove : ConnectionsMove s t) (h : CallOk s k)
    (hcall : t.calls k = s.calls k) : CallOk t k := by
  refine ⟨fun a ha => ?_, ?_, fun a ha => ?_, fun a ha hsent => ?_, ?_, ?_⟩
  · rw [hcall] at ha
    exact hmove.known h ha
  · rw [hcall]
    exact h.live
  · rw [hcall] at ha ⊢
    rcases h.past a ha with ⟨result, hresult⟩ | hphase
    · exact Or.inl ⟨result, (hmove.returned h ha hresult).1⟩
    · exact Or.inr hphase
  · rw [hcall] at ha
    rcases h.past a ha with ⟨result, hresult⟩ | ⟨second, hphase⟩
    · rw [(hmove.returned h ha hresult).2] at hsent
      exact sentFlag_same hmove h hcall (h.sent a ha hsent)
    · rw [ClientSystem.sentFlag_attempting (by rw [hcall]; exact hphase)]
      exact hsent
  · rw [hcall]
    exact h.honest
  · rw [hcall]
    exact h.truth

/-- Between its attempts, and after them, a call keeps the flag in its budget. -/
theorem CallOk.over (hmove : ConnectionsMove s t) (h : CallOk s k)
    (hattempts : (t.calls k).attempts = (s.calls k).attempts)
    (hover : ∀ a ∈ (s.calls k).attempts,
      ∃ result, ((s.connections a.1).exchanges a.2).phase = .returned result)
    (hflag : (t.calls k).mayHaveSent = s.sentFlag k)
    (hidle : ∀ second c i, (t.calls k).phase ≠ .attempting second c i)
    (hhonest : (t.calls k).phase.Honest)
    (htruth : (t.calls k).phase = .returned (some (.error (.client .requestNotSentTimeout))) →
      (t.calls k).mayHaveSent = false) : CallOk t k := by
  refine ⟨fun a ha => ?_, fun second c i hphase => absurd hphase (hidle second c i),
    fun a ha => ?_, fun a ha hsent => ?_, hhonest, htruth⟩
  · rw [hattempts] at ha
    exact hmove.known h ha
  · rw [hattempts] at ha
    obtain ⟨result, hresult⟩ := hover a ha
    exact Or.inl ⟨result, (hmove.returned h ha hresult).1⟩
  · rw [hattempts] at ha
    obtain ⟨result, hresult⟩ := hover a ha
    rw [(hmove.returned h ha hresult).2] at hsent
    rw [ClientSystem.sentFlag_other hidle, hflag]
    exact h.sent a ha hsent

theorem afterAttempt_idle (second : Bool) (result : ExchangeResult) :
    ∀ second' c i, CallPhase.afterAttempt second result ≠ .attempting second' c i := by
  intro second' c i
  rcases result with _ | e | response
  · simp [CallPhase.afterAttempt]
  · rw [CallPhase.afterAttempt]
    split <;> simp
  · simp [CallPhase.afterAttempt]

theorem afterAttempt_honest (second : Bool) (result : ExchangeResult) :
    (CallPhase.afterAttempt second result).Honest := by
  rcases result with _ | e | response
  · trivial
  · rw [CallPhase.afterAttempt]
    split <;> trivial
  · trivial

/-- A reported timeout is the one of the attempt. -/
theorem afterAttempt_notSent {second : Bool} {result : ExchangeResult}
    (h : CallPhase.afterAttempt second result =
      .returned (some (.error (.client .requestNotSentTimeout)))) :
    result = some (.error .requestNotSentTimeout) := by
  rcases result with _ | e | response
  · cases h
  · rw [CallPhase.afterAttempt] at h
    split at h
    · cases h
    · obtain rfl := CallError.client.inj
        (Except.error.inj (Option.some.inj (CallPhase.returned.inj h)))
      rfl
  · cases h

/-- Before an attempt. -/
theorem idle_of_ready {phase : CallPhase} (h : phase = .starting ∨ phase = .reconnected) :
    ∀ second c i, phase ≠ .attempting second c i := by
  rintro second c i rfl
  rcases h with h | h
  · cases h
  · cases h

/-- An attempt begins with what the call knows. -/
theorem CallOk.attempt (hmove : ConnectionsMove s t) (h : CallOk s k)
    (hcurrent : s.current < s.opened) {second : Bool} {i : ℕ}
    (hphase : (s.calls k).phase = .starting ∨ (s.calls k).phase = .reconnected)
    (hcount : (t.connections s.current).count = i + 1)
    (hsent : ((t.connections s.current).exchanges i).mayHaveSent = (s.calls k).mayHaveSent)
    (hcall : t.calls k = { s.calls k with
      attempts := (s.current, i) :: (s.calls k).attempts
      phase := .attempting second s.current i }) : CallOk t k := by
  have hidle := idle_of_ready hphase
  have hflag : t.sentFlag k = (s.calls k).mayHaveSent := by
    rw [ClientSystem.sentFlag_attempting (by rw [hcall])]
    exact hsent
  have hopened := hmove.opened
  rw [← ClientSystem.sentFlag_other hidle] at hflag
  refine ⟨fun a ha => ?_, fun second' c i' hattempting => ?_, fun a ha => ?_,
    fun a ha hsent' => ?_, ?_, fun hreturned => ?_⟩
  · rw [hcall] at ha
    rcases List.mem_cons.mp ha with rfl | ha
    · have hlt : i < (t.connections s.current).count := by omega
      exact ⟨by omega, hlt⟩
    · exact hmove.known h ha
  · rw [hcall] at hattempting ⊢
    obtain ⟨-, rfl, rfl⟩ := CallPhase.attempting.inj hattempting
    exact List.mem_cons_self ..
  · rw [hcall] at ha ⊢
    rcases List.mem_cons.mp ha with rfl | ha
    · exact Or.inr ⟨second, rfl⟩
    · obtain ⟨result, hresult⟩ := h.returned_of_idle hidle ha
      exact Or.inl ⟨result, (hmove.returned h ha hresult).1⟩
  · rw [hcall] at ha
    rcases List.mem_cons.mp ha with rfl | ha
    · rw [hsent, ← ClientSystem.sentFlag_other hidle] at hsent'
      rw [hflag, hsent']
    · obtain ⟨result, hresult⟩ := h.returned_of_idle hidle ha
      rw [(hmove.returned h ha hresult).2] at hsent'
      rw [hflag, h.sent a ha hsent']
  · rw [hcall]
    trivial
  · rw [hcall] at hreturned
    cases hreturned

/-- The call takes over what its attempt knows. -/
theorem CallOk.settle (hmove : ConnectionsMove s t) (h : CallOk s k)
    (hconnections : ∀ c, (s.connections c).SentInv) {second : Bool} {c i : ℕ}
    {result : ExchangeResult} (hphase : (s.calls k).phase = .attempting second c i)
    (hresult : ((s.connections c).exchanges i).phase = .returned result)
    (hcall : t.calls k = { s.calls k with
      mayHaveSent := ((s.connections c).exchanges i).mayHaveSent
      phase := .afterAttempt second result }) : CallOk t k := by
  refine h.over hmove (by rw [hcall]) (fun a ha => ?_) ?_ ?_ ?_ fun hreturned => ?_
  · rcases h.past a ha with hover | ⟨second', hattempting⟩
    · exact hover
    · rw [hphase] at hattempting
      obtain ⟨-, hc, hi⟩ := CallPhase.attempting.inj hattempting
      rw [← hc, ← hi]
      exact ⟨result, hresult⟩
  · rw [hcall, ClientSystem.sentFlag_attempting hphase]
  · rw [hcall]
    exact afterAttempt_idle second result
  · rw [hcall]
    exact afterAttempt_honest second result
  · -- the attempt knew of no write when it reported the timeout
    rw [hcall] at hreturned ⊢
    obtain rfl := afterAttempt_notSent hreturned
    refine (hconnections c).truth i ?_
    rw [hresult]
    rfl

theorem LogicalCall.timeoutError_truth {call : LogicalCall}
    (h : call.timeoutError = .requestNotSentTimeout) : call.mayHaveSent = false := by
  rw [LogicalCall.timeoutError] at h
  split at h
  · cases h
  · rename_i hsent
    exact Bool.eq_false_of_not_eq_true hsent

theorem idle_of_reconnecting {phase : CallPhase} (h : phase.isReconnecting = true) :
    ∀ second c i, phase ≠ .attempting second c i := by
  rintro second c i rfl
  cases h

theorem CallOk.reconnect (hmove : ConnectionsMove s t) (h : CallOk s k) {phase : CallPhase}
    (hstep : ReconnectMove s k phase) (hcall : t.calls k = { s.calls k with phase }) :
    CallOk t k := by
  have hidle := idle_of_reconnecting hstep.old
  refine h.over hmove (by rw [hcall]) (fun a ha => h.returned_of_idle hidle ha) ?_ ?_ ?_
    fun hreturned => ?_
  · rw [hcall, ClientSystem.sentFlag_other hidle]
  · rw [hcall]
    exact hstep.next
  · rw [hcall]
    exact hstep.honest h.honest
  · rw [hcall] at hreturned ⊢
    have htimeout := hstep.truth h.honest _ hreturned rfl
    exact LogicalCall.timeoutError_truth (CallError.client.inj htimeout).symm

/-! ### The invariant -/

variable {fingerprint : String} {instantMax : ℕ} {config : ClientConfig} {e : ClientSystemEvent}

theorem connected_inv (config : ClientConfig) (endpointIndex : ℕ) :
    ClientInv (ClientSystem.connected config endpointIndex) := by
  refine ⟨fun c => ClientConnection.opened_sentInv _, Nat.one_pos, fun k _ => ⟨rfl, rfl⟩,
    fun k => ⟨?_, ?_, ?_, ?_, trivial, ?_⟩⟩
  · intro a ha
    cases ha
  · intro second c i h
    cases h
  · intro a ha
    cases ha
  · intro a ha
    cases ha
  · intro h
    cases h

theorem CallOk.begin (hattempts : (t.calls k).attempts = [])
    (hphase : (t.calls k).phase = .starting ∨
      ∃ e, (t.calls k).phase = .returned (some (.error e)) ∧ e.isTimeout = false) :
    CallOk t k := by
  have hnone : ∀ {a : ℕ × ℕ}, a ∉ (t.calls k).attempts := by
    intro a
    rw [hattempts]
    exact List.not_mem_nil
  refine ⟨fun a ha => absurd ha hnone, fun second c i hattempting => ?_,
    fun a ha => absurd ha hnone, fun a ha => absurd ha hnone, ?_, fun hreturned => ?_⟩
  · rw [hattempting] at hphase
    rcases hphase with hphase | ⟨e, hphase, -⟩
    · cases hphase
    · cases hphase
  · rcases hphase with hphase | ⟨e, hphase, -⟩
    · rw [hphase]
      trivial
    · rw [hphase]
      trivial
  · rw [hreturned] at hphase
    rcases hphase with hphase | ⟨e, hphase, htimeout⟩
    · cases hphase
    · obtain rfl := Except.error.inj (Option.some.inj (CallPhase.returned.inj hphase))
      cases htimeout

/-- **Step lemma.** -/
theorem ClientInv.step (inv : ClientInv s) (hmove : SystemMove s t) : ClientInv t := by
  have hconnections := hmove.connections
  refine ⟨hconnections.sentInv inv.connections, hconnections.current inv.current,
    fun k hk => ?_, fun k => ?_⟩
  · have hbegun := hmove.begun
    obtain ⟨hattempts, habsent⟩ := inv.unbegun k (by omega)
    cases hmove.calls k with
    | same hcall =>
      rw [hcall]
      exact ⟨hattempts, habsent⟩
    | begin hk' hbegun' => omega
    | attempt second i hphase =>
      rw [habsent] at hphase
      rcases hphase with hphase | hphase
      · cases hphase
      · cases hphase
    | settle second c i result hphase =>
      rw [habsent] at hphase
      cases hphase
    | reconnect phase hstep =>
      have hold := hstep.old
      rw [habsent] at hold
      cases hold
  · have hok := inv.calls k
    cases hmove.calls k with
    | same hcall => exact hok.same hconnections hcall
    | begin hk hbegun hattempts hphase => exact .begin hattempts hphase
    | attempt second i hphase hcount hsent hcall =>
      exact hok.attempt hconnections inv.current hphase hcount hsent hcall
    | settle second c i result hphase hresult hcall =>
      exact hok.settle hconnections inv.connections hphase hresult hcall
    | reconnect phase hstep hcall => exact hok.reconnect hconnections hstep hcall

/-- **Step lemma.**  A write is never forgotten. -/
theorem sent_mono (inv : ClientInv s) (hmove : SystemMove s t) (hk : k < s.begun)
    (hsent : s.sentFlag k = true) : t.sentFlag k = true := by
  have hok := inv.calls k
  cases hmove.calls k with
  | same hcall => exact sentFlag_same hmove.connections hok hcall hsent
  | begin hk' => omega
  | attempt second i hphase hcount hsent' hcall =>
    rw [ClientSystem.sentFlag_attempting (by rw [hcall]), hsent']
    rw [ClientSystem.sentFlag_other (idle_of_ready hphase)] at hsent
    exact hsent
  | settle second c i result hphase hresult hcall =>
    rw [ClientSystem.sentFlag_attempting hphase] at hsent
    rw [ClientSystem.sentFlag_other, hcall]
    · exact hsent
    · rw [hcall]
      exact afterAttempt_idle second result
  | reconnect phase hstep hcall =>
    rw [ClientSystem.sentFlag_other (idle_of_reconnecting hstep.old)] at hsent
    rw [ClientSystem.sentFlag_other, hcall]
    · exact hsent
    · rw [hcall]
      exact hstep.next

/-- A frame on a wire is known to the call. -/
theorem ClientInv.sent_of_written (inv : ClientInv s) (h : s.Written k) :
    k < s.begun ∧ s.sentFlag k = true := by
  obtain ⟨a, ha, frame, hframe, hcall⟩ := h
  constructor
  · by_contra hk
    rw [(inv.unbegun k (by omega)).1] at ha
    cases ha
  · obtain ⟨-, hsent⟩ := (inv.connections a.1).frames frame hframe
    rw [hcall] at hsent
    exact (inv.calls k).sent a ha hsent

/-! ### A deadline that was hit -/

/-- A check of the budget fails, or a wait under the deadline ends. -/
def ClientSystem.HitsDeadline (s : ClientSystem) (k : ℕ) : ClientSystemEvent → Prop
  | .exchange k' .expire => k = k'
  | .check k' => k = k' ∧ (s.calls k).deadline ≤ s.clock
  | .expire k' => k = k'
  | _ => False

/-- What a call does without waiting for anything: guards are dropped, the result of the
attempt is taken and the budget is checked. -/
def ClientSystemEvent.unwinds (k : ℕ) : ClientSystemEvent → Prop
  | .exchange k' e => k = k' ∧ e.unwinds = true
  | .settle k' | .check k' => k = k'
  | _ => False

/-- The deadline was hit after a write. -/
structure Expired (s : ClientSystem) (k : ℕ) : Prop where
  begun : k < s.begun
  late : (s.calls k).deadline ≤ s.clock
  sent : s.sentFlag k = true
  phase : (∃ second c i, (s.calls k).phase = .attempting second c i ∧
      ((s.connections c).exchanges i).phase.isDecided = true ∧
      ((s.connections c).exchanges i).phase.result = some (.error .requestTimeout)) ∨
    (s.calls k).phase = .failed ∨
    (s.calls k).phase = .returned (some (.error (.client .requestTimeout)))

theorem LogicalCall.timeoutError_sent {call : LogicalCall} (h : call.mayHaveSent = true) :
    call.timeoutError = .requestTimeout := by
  rw [LogicalCall.timeoutError, if_pos h]

theorem CallMove.deadline (hmove : CallMove s t k) (hk : k < s.begun) :
    (t.calls k).deadline = (s.calls k).deadline := by
  cases hmove with
  | same hcall => rw [hcall]
  | begin hk' => omega
  | attempt second i hphase hcount hsent hcall => rw [hcall]
  | settle second c i result hphase hresult hcall => rw [hcall]
  | reconnect phase hstep hcall => rw [hcall]

theorem Expired.attempting (h : Expired s k) {second : Bool} {c i : ℕ}
    (hphase : (s.calls k).phase = .attempting second c i) :
    ((s.connections c).exchanges i).phase.isDecided = true ∧
      ((s.connections c).exchanges i).phase.result = some (.error .requestTimeout) := by
  rcases h.phase with ⟨second', c', i', hphase', hdecided⟩ | hfailed | hreturned
  · obtain ⟨-, rfl, rfl⟩ := CallPhase.attempting.inj (hphase.symm.trans hphase')
    exact hdecided
  · rw [hphase] at hfailed
    cases hfailed
  · rw [hphase] at hreturned
    cases hreturned

/-- **Step lemma.**  Nothing but the timeout comes of it. -/
theorem expired_step (inv : ClientInv s) (hmove : SystemMove s t) (h : Expired s k) :
    Expired t k := by
  have hcalls := hmove.calls k
  have hclock := hmove.connections.clock
  have hbegun := hmove.begun
  have hlate := h.late
  refine ⟨h.begun.trans_le hbegun, ?_, sent_mono inv hmove h.begun h.sent, ?_⟩
  · rw [hcalls.deadline h.begun]
    omega
  cases hcalls with
  | same hcall =>
    rw [hcall]
    rcases h.phase with ⟨second, c, i, hphase, hdecided, hresult⟩ | hover
    · obtain ⟨hopened, hcount⟩ := (inv.calls k).known _ ((inv.calls k).live second c i hphase)
      obtain ⟨hdecided', hresult', -⟩ :=
        (hmove.connections.kept c hopened i hcount).decided hdecided
      exact Or.inl ⟨second, c, i, hphase, hdecided', hresult'.trans hresult⟩
    · exact Or.inr hover
  | begin hk =>
    have hlt := h.begun
    omega
  | attempt second i hphase =>
    rcases h.phase with ⟨second', c', i', hphase', -⟩ | hphase' | hphase'
    all_goals
      rw [hphase'] at hphase
      rcases hphase with hphase | hphase
      · cases hphase
      · cases hphase
  | settle second c i result hphase hresult hcall =>
    obtain ⟨-, htimeout⟩ := h.attempting hphase
    rw [hresult] at htimeout
    obtain rfl : result = some (.error .requestTimeout) := htimeout
    rw [hcall]
    -- a timeout is reconnectable: the first attempt hands it to the check of the budget
    cases second with
    | false => exact Or.inr (Or.inl rfl)
    | true => exact Or.inr (Or.inr rfl)
  | reconnect phase hstep hcall =>
    have hold := hstep.old
    rcases h.phase with ⟨second, c, i, hphase, -⟩ | hfailed | hreturned
    · rw [hphase] at hold
      cases hold
    · have hsent := h.sent
      rw [ClientSystem.sentFlag_other (idle_of_reconnecting hold)] at hsent
      rw [hcall]
      refine Or.inr (Or.inr ?_)
      rw [← LogicalCall.timeoutError_sent hsent]
      exact hstep.late hfailed hlate
    · rw [hreturned] at hold
      cases hold

/-- A deadline that is hit after a write. -/
theorem expired_of_hit (inv : ClientInv s) (hk : k < s.begun) (hsent : s.sentFlag k = true)
    (hhit : s.HitsDeadline k e) (h : s.step fingerprint instantMax config e = some t) :
    Expired t k := by
  have hmove := ClientSystem.system_step h
  have hcalls := hmove.calls k
  have hbegun := hmove.begun
  have hclock := hmove.connections.clock
  have hsent' := sent_mono inv hmove hk hsent
  have hover : ∀ {result : CallResult}, (s.calls k).deadline ≤ s.clock →
      (s.calls k).phase.isReconnecting = true →
      result = some (.error (.client (s.calls k).timeoutError)) →
      (t.calls k).phase = .returned result → Expired t k := by
    intro result hlate hreconnecting hresult hphase
    rw [ClientSystem.sentFlag_other (idle_of_reconnecting hreconnecting)] at hsent
    rw [LogicalCall.timeoutError_sent hsent] at hresult
    refine ⟨hk.trans_le hbegun, ?_, hsent', Or.inr (Or.inr (hphase.trans (by rw [hresult])))⟩
    rw [hcalls.deadline hk]
    omega
  unfold ClientSystem.HitsDeadline at hhit
  split at hhit
  · -- in an attempt
    subst hhit
    obtain ⟨second, c, i, connection, hphase, hallows, hstep, rfl⟩ :=
      ClientSystem.exchange_cases h
    rw [ClientSystem.sentFlag_attempting hphase] at hsent
    obtain ⟨hdecided, hresult⟩ := ClientConnection.expire_sent hstep hsent
    have hlate : (s.calls k).deadline ≤ s.clock := of_decide_eq_true hallows
    refine ⟨hk, hlate, hsent', Or.inl ⟨second, c, i, hphase, ?_⟩⟩
    show ((Function.update s.connections c connection c).exchanges i).phase.isDecided = true ∧
      ((Function.update s.connections c connection c).exchanges i).phase.result = _
    rw [Function.update_self]
    exact ⟨hdecided, hresult⟩
  · -- between the attempts
    obtain ⟨rfl, hlate⟩ := hhit
    obtain ⟨hfailed, hphase⟩ := ClientSystem.check_late hlate h
    refine hover hlate ?_ rfl hphase
    rw [hfailed]
    rfl
  · -- in the reconnect
    subst hhit
    obtain ⟨hlate, h⟩ := ClientSystem.expire_cases h
    obtain ⟨hreconnecting, -, hcalls', -⟩ := ClientSystem.stopReconnect_cases h
    refine hover hlate hreconnecting rfl ?_
    rw [hcalls', Function.update_self]
  · exact hhit.elim

end Steps

/-! ### Runs -/

section Runs

variable (fingerprint : String) (instantMax : ℕ) (config : ClientConfig)

/-- Left to itself, the call reports the timeout without waiting. -/
def ReportsTimeout (s : ClientSystem) (k : ℕ) : Prop :=
  ∃ events t, (∀ e ∈ events, e.unwinds k) ∧
    run (ClientSystem.step fingerprint instantMax config) s events = some t ∧
    (t.calls k).phase = .returned (some (.error (.client .requestTimeout)))

variable {fingerprint instantMax config} {s t : ClientSystem} {k : ℕ} {e : ClientSystemEvent}

theorem ReportsTimeout.cons (hunwinds : e.unwinds k)
    (hstep : s.step fingerprint instantMax config e = some t)
    (h : ReportsTimeout fingerprint instantMax config t k) :
    ReportsTimeout fingerprint instantMax config s k := by
  obtain ⟨events, u, hevents, hrun, hphase⟩ := h
  refine ⟨e :: events, u, fun e' he' => ?_, run_cons_eq_some.mpr ⟨t, hstep, hrun⟩, hphase⟩
  rcases List.mem_cons.mp he' with rfl | he'
  · exact hunwinds
  · exact hevents e' he'

theorem LogicalCall.allows_of_unwinds (call : LogicalCall) (clock : ℕ) {e : CallEvent}
    (h : e.unwinds = true) : call.allows clock e = true := by
  cases e <;> first | rfl | cases h

theorem Expired.reports_of_idle (h : Expired s k)
    (hidle : ∀ second c i, (s.calls k).phase ≠ .attempting second c i) :
    ReportsTimeout fingerprint instantMax config s k := by
  rcases h.phase with ⟨second, c, i, hphase, -⟩ | hfailed | hreturned
  · exact absurd hphase (hidle second c i)
  · -- the check of the budget
    have hsent := h.sent
    rw [ClientSystem.sentFlag_other hidle] at hsent
    have hcheck : s.check config k =
        some (s.finish k (some (.error (.client (s.calls k).timeoutError)))) := by
      rw [ClientSystem.check, hfailed]
      exact if_pos h.late
    refine .cons (e := .check k) rfl hcheck ⟨[], _, (fun e he => by cases he), rfl, ?_⟩
    show (Function.update s.calls k _ k).phase = _
    rw [Function.update_self, LogicalCall.timeoutError_sent hsent]
  · exact ⟨[], s, (fun e he => by cases he), rfl, hreturned⟩

/-- **Progress.**  A deadline that was hit after a write is reported without waiting. -/
theorem Expired.reports (inv : ClientInv s) (h : Expired s k) :
    ReportsTimeout fingerprint instantMax config s k := by
  by_cases hidle : ∀ second c i, (s.calls k).phase ≠ .attempting second c i
  · exact h.reports_of_idle hidle
  simp only [not_forall, not_not] at hidle
  obtain ⟨second, c, i, hphase⟩ := hidle
  -- induction on the guards that the attempt has left to drop
  induction hguards : ((s.connections c).exchanges i).phase.guards using Nat.strong_induction_on
    generalizing s with
  | _ n ih =>
    obtain ⟨hdecided, -⟩ := h.attempting hphase
    rcases ClientConnection.stepCall_unwind hdecided with
      ⟨result, hresult⟩ | ⟨e, connection, hunwinds, hstep, hless⟩
    · have hsettle : s.step fingerprint instantMax config (.settle k) =
          some (s.setCall k { s.calls k with
            mayHaveSent := ((s.connections c).exchanges i).mayHaveSent
            phase := .afterAttempt second result }) := by
        show s.settle k = _
        simp only [ClientSystem.settle, hphase, hresult]
      have hmove := ClientSystem.system_step hsettle
      refine .cons (e := .settle k) rfl hsettle
        ((expired_step inv hmove h).reports_of_idle fun second' c' i' => ?_)
      show (Function.update s.calls k _ k).phase ≠ _
      rw [Function.update_self]
      exact afterAttempt_idle second result second' c' i'
    · have hexchange : s.step fingerprint instantMax config (.exchange k e) =
          some (s.setConnection c connection) := by
        show s.exchange k e = _
        have hallows := LogicalCall.allows_of_unwinds (s.calls k) s.clock hunwinds
        simp only [ClientSystem.exchange, hphase, hallows, hstep, if_true, Option.map_some]
      have hmove := ClientSystem.system_step hexchange
      refine .cons (e := .exchange k e) ⟨rfl, hunwinds⟩ hexchange
        (ih _ ?_ (inv.step hmove) (expired_step inv hmove h) hphase rfl)
      show ((Function.update s.connections c connection c).exchanges i).phase.guards < n
      rw [Function.update_self, ← hguards]
      exact hless

/-- What holds of a call in every later state. -/
theorem run_sent (inv : ClientInv s) (hk : k < s.begun) (hsent : s.sentFlag k = true)
    {events : List ClientSystemEvent}
    (hrun : run (ClientSystem.step fingerprint instantMax config) s events = some t) :
    ClientInv t ∧ k < t.begun ∧ t.sentFlag k = true := by
  refine run_invariant (P := fun s => ClientInv s ∧ k < s.begun ∧ s.sentFlag k = true) ?_
    ⟨inv, hk, hsent⟩ hrun
  rintro m e m' ⟨inv, hk, hsent⟩ hstep
  have hmove := ClientSystem.system_step hstep
  exact ⟨inv.step hmove, hk.trans_le hmove.begun, sent_mono inv hmove hk hsent⟩

theorem run_expired (inv : ClientInv s) (h : Expired s k) {events : List ClientSystemEvent}
    (hrun : run (ClientSystem.step fingerprint instantMax config) s events = some t) :
    ClientInv t ∧ Expired t k := by
  refine run_invariant (P := fun s => ClientInv s ∧ Expired s k) ?_ ⟨inv, h⟩ hrun
  rintro m e m' ⟨inv, h⟩ hstep
  have hmove := ClientSystem.system_step hstep
  exact ⟨inv.step hmove, expired_step inv hmove h⟩

/-- A call that may have sent does not report that it has not. -/
theorem CallOk.ne_notSent (h : CallOk s k) (hsent : s.sentFlag k = true) :
    (s.calls k).phase ≠ .returned (some (.error (.client .requestNotSentTimeout))) := by
  intro hreturned
  have hunsent := h.truth hreturned
  rw [ClientSystem.sentFlag_other (fun second c i hphase => ?_), hunsent] at hsent
  · cases hsent
  · rw [hreturned] at hphase
    cases hphase

theorem Expired.result_eq (h : Expired s k) {result : CallResult}
    (hreturned : (s.calls k).phase = .returned result) :
    result = some (.error (.client .requestTimeout)) := by
  rcases h.phase with ⟨second, c, i, hphase, -⟩ | hfailed | htimeout
  · rw [hreturned] at hphase
    cases hphase
  · rw [hreturned] at hfailed
    cases hfailed
  · exact CallPhase.returned.inj (hreturned.symm.trans htimeout)

end Runs

/-- **Timeouts tell the truth.**  In every run of a client, from the moment that an attempt of
a call has started to write a frame:

* the call never returns `RequestNotSentTimeout`;
* when the deadline is hit, in an attempt, before the reconnect or in it, the call can return
  nothing but `RequestTimeout`, and it does so without waiting for anything. -/
theorem clientTimeouts_truthful (fingerprint : String) (instantMax : ℕ) (config : ClientConfig)
    (endpointIndex k : ℕ) (before after : List ClientSystemEvent) (m s : ClientSystem)
    (hbefore : run (ClientSystem.step fingerprint instantMax config)
      (ClientSystem.connected config endpointIndex) before = some m)
    (hwritten : m.Written k)
    (hafter : run (ClientSystem.step fingerprint instantMax config) m after = some s) :
    (s.calls k).phase ≠ .returned (some (.error (.client .requestNotSentTimeout))) ∧
      ∀ e t, s.HitsDeadline k e → s.step fingerprint instantMax config e = some t →
        ∀ rest u, run (ClientSystem.step fingerprint instantMax config) t rest = some u →
          (∀ result, (u.calls k).phase = .returned result →
            result = some (.error (.client .requestTimeout))) ∧
          ReportsTimeout fingerprint instantMax config u k := by
  have hinv : ClientInv m := run_invariant
    (fun _ _ _ inv hstep => inv.step (ClientSystem.system_step hstep))
    (connected_inv config endpointIndex) hbefore
  obtain ⟨hk, hsent⟩ := hinv.sent_of_written hwritten
  obtain ⟨inv, hk, hsent⟩ := run_sent hinv hk hsent hafter
  refine ⟨(inv.calls k).ne_notSent hsent, fun e t hhit hstep rest u hrest => ?_⟩
  have inv' : ClientInv t := inv.step (ClientSystem.system_step hstep)
  obtain ⟨inv'', hexpired⟩ := run_expired inv' (expired_of_hit inv hk hsent hhit hstep) hrest
  exact ⟨fun result hreturned => hexpired.result_eq hreturned, hexpired.reports inv''⟩

def sampleClientConfig : ClientConfig where
  endpoint := "a"
  failoverEndpoints := []
  authToken := ""
  clientName := ""
  maxFrameBytes := 1
  requestTimeout := 5
  maxInFlight := 1

/-- A call starts to write. -/
def sampleStartedWrite : List ClientSystemEvent :=
  [.begin, .attempt 0] ++ [CallEvent.checkUsable, .acquire, .lockWriter, .checkUsable, .number,
    .register, .startWrite].map (.exchange 0)

/-- The write fails, and the call queues for the reconnect until its deadline. -/
def sampleQueueing : List ClientSystemEvent :=
  [CallEvent.writeFailed (.protocolIo "" ""), .markUnusable, .closeWriter, .forget].map
    (.exchange 0) ++ [.settle 0, .check 0, .advance 5]

theorem clientTimeouts_truthful_queueing :
    ∃ s t, run (ClientSystem.step "" 9 sampleClientConfig)
        (ClientSystem.connected sampleClientConfig 0) (sampleStartedWrite ++ sampleQueueing) =
          some s ∧
      s.step "" 9 sampleClientConfig (.expire 0) = some t ∧
      (∀ result, (t.calls 0).phase = .returned result →
        result = some (.error (.client .requestTimeout))) ∧
      ReportsTimeout "" 9 sampleClientConfig t 0 := by
  obtain ⟨m, hm, hwritten, henabled⟩ := exists_of_any
    (o := run (ClientSystem.step "" 9 sampleClientConfig)
      (ClientSystem.connected sampleClientConfig 0) sampleStartedWrite)
    (p := fun m => m.Written 0 ∧ (run (ClientSystem.step "" 9 sampleClientConfig) m
      (sampleQueueing ++ [.expire 0])).isSome = true) (by decide +kernel)
  obtain ⟨t, hrun⟩ := Option.isSome_iff_exists.mp henabled
  obtain ⟨s, hs, ht⟩ := run_concat.mp hrun
  exact ⟨s, t, run_append.mpr ⟨m, hm, hs⟩, ht, (clientTimeouts_truthful "" 9 sampleClientConfig 0 0
    _ _ m s hm hwritten hs).2 (.expire 0) t rfl ht [] t rfl⟩

end DbProxy
