/-
Callers of the fallback circuit breaker that go away (`lib.rs`).

`load_cached`, `load_cached_multi` and `refresh_cache` share one way to read PostgreSQL:
`allow_fallback` hands them a permit, the read runs under a timeout, and each of its
three endings settles the permit.  The permit is a plain value: a caller that is
cancelled or panics in between takes it along.

* `ProbeHeld` — a half-open circuit has a live holder of its probe;
* `wedged_forever` — without one, nothing ever changes again;
* `fallback_recovers` — the circuit recovers in every run in which no caller goes away
  with the probe.
-/
import DbProxy.FallbackCircuit

namespace DbProxy

open StepMachine CircuitSystem

/-- The functions that read PostgreSQL behind the breaker. -/
inductive FallbackCaller
  | loadCached
  | loadCachedMulti
  | refreshCache
deriving DecidableEq, Repr

/-- How `timeout(.., postgres.load(..))` ends. -/
inductive FallbackAnswer
  | loaded
  | failed
  | timedOut
deriving DecidableEq, Repr

inductive FallbackEvent
  /-- A caller reaches `allow_fallback`. -/
  | enter (caller : FallbackCaller) (now : ℕ)
  /-- The read of the holder of the permit `id` ends. -/
  | answered (id : ℕ) (answer : FallbackAnswer) (now : ℕ)
  /-- The holder of the permit `id` is cancelled. -/
  | cancelled (id : ℕ)
  /-- The holder of the permit `id` panics. -/
  | panicked (id : ℕ)
deriving DecidableEq, Repr

/-- The call of the breaker each event makes, the same in all three functions. -/
def FallbackEvent.call : FallbackEvent → CircuitEvent
  | .enter _ now => .allow now
  | .answered id .loaded _ => .succeeded id
  | .answered id .failed now => .failed id now
  | .answered id .timedOut now => .failed id now
  | .cancelled id => .abandoned id
  | .panicked id => .abandoned id

def fallbackStep (c : CacheFallbackCircuit) (s : CircuitSystem) (e : FallbackEvent) :
    Option CircuitSystem := CircuitSystem.step c s e.call

/-- No caller has a permit. -/
def NoHolder (s : CircuitSystem) : Prop := ∀ issued ∈ s.permits, issued.live = false

instance (s : CircuitSystem) : Decidable (NoHolder s) :=
  inferInstanceAs (Decidable (∀ issued ∈ s.permits, issued.live = false))

/-- From some time on the next `allow` is granted. -/
def GrantsEventually (c : CacheFallbackCircuit) (s : CircuitSystem) : Prop :=
  ∃ time, ∀ now, time ≤ now → ∃ permit, (c.allow now s.circuit).1 = .ok permit

/-- The event does not take away the permit of the half-open circuit. -/
def keepsProbe (s : CircuitSystem) (e : FallbackEvent) : Bool :=
  match e.call with
  | .abandoned id =>
    (s.held id).all fun issued => ! (s.circuit.isHalfOpen && issued.permit.fits s.circuit)
  | _ => true

/-- A half-open circuit has a caller that holds its permit. -/
def ProbeHeld (s : CircuitSystem) : Prop :=
  ∀ g, s.circuit = .halfOpen g → ∃ id issued, s.held id = some issued ∧ issued.permit = .halfOpen g

section

variable {c : CacheFallbackCircuit} {s t : CircuitSystem}

theorem held_spent_ne {id id' : ℕ} (h : id ≠ id') : (s.spent id).held id' = s.held id' := by
  rw [held, held, spent, List.getElem?_modify]
  simp [h]

/-- Settling a permit that leaves the circuit half-open leaves its probe alone. -/
theorem ProbeHeld.spent {id : ℕ} {issued : IssuedPermit} (h : ProbeHeld s)
    (hheld : s.held id = some issued) (hpermits : t.permits = (s.spent id).permits)
    (hstays : ∀ g, t.circuit = .halfOpen g →
      s.circuit = .halfOpen g ∧ issued.permit ≠ .halfOpen g) : ProbeHeld t := by
  intro g hg
  obtain ⟨hs, hother⟩ := hstays g hg
  obtain ⟨probe, issued', hprobe, hpermit⟩ := h g hs
  refine ⟨probe, issued', ?_, hpermit⟩
  have hne : id ≠ probe := by
    rintro rfl
    rw [hheld] at hprobe
    rw [Option.some.inj hprobe] at hother
    exact hother hpermit
  have hspent : (s.spent id).held probe = some issued' := by
    rw [held_spent_ne hne]
    exact hprobe
  rw [held] at hspent ⊢
  rw [hpermits]
  exact hspent

theorem moved_permits (circuit : CacheFallbackCircuitState) :
    (s.moved circuit).permits = s.permits := by
  rw [moved]
  split <;> rfl

theorem settled_permits (issued : IssuedPermit) (ok : Bool) (circuit : CacheFallbackCircuitState)
    (id : ℕ) : (((s.noted issued ok).moved circuit).spent id).permits = (s.spent id).permits := by
  rw [CircuitSystem.spent, CircuitSystem.spent, moved_permits, noted]
  split <;> rfl

theorem succeeded_eq_halfOpen {permit : CacheFallbackCircuitPermit}
    {state : CacheFallbackCircuitState} {g : ℕ}
    (h : CacheFallbackCircuit.succeeded permit state = .halfOpen g) :
    state = .halfOpen g ∧ permit ≠ .halfOpen g := by
  cases hfits : permit.fits state with
  | false =>
    rw [succeeded_of_not_fits hfits] at h
    refine ⟨h, fun hpermit => ?_⟩
    rw [fits_iff.mpr (Or.inr ⟨g, hpermit, h⟩)] at hfits
    cases hfits
  | true =>
    rcases fits_iff.mp hfits with ⟨n, g', rfl, rfl⟩ | ⟨g', rfl, rfl⟩
    · rw [succeeded_closed] at h
      cases h
    · rw [succeeded_halfOpen] at h
      cases h

theorem failed_eq_halfOpen {permit : CacheFallbackCircuitPermit}
    {state : CacheFallbackCircuitState} {now g : ℕ} (h : c.failed now permit state = .halfOpen g) :
    state = .halfOpen g ∧ permit ≠ .halfOpen g := by
  cases hfits : permit.fits state with
  | false =>
    rw [failed_of_not_fits hfits] at h
    refine ⟨h, fun hpermit => ?_⟩
    rw [fits_iff.mpr (Or.inr ⟨g, hpermit, h⟩)] at hfits
    cases hfits
  | true =>
    rcases fits_iff.mp hfits with ⟨n, g', rfl, rfl⟩ | ⟨g', rfl, rfl⟩
    · rw [CacheFallbackCircuit.failed, if_pos rfl] at h
      dsimp only at h
      split at h <;> cases h
    · rw [failed_halfOpen] at h
      cases h

/-- One event keeps the probe held, unless it takes the probe away. -/
theorem ProbeHeld.step {e : FallbackEvent} (hkeeps : keepsProbe s e = true) (h : ProbeHeld s)
    (hstep : fallbackStep c s e = some t) : ProbeHeld t := by
  rw [fallbackStep] at hstep
  cases hcall : e.call with
  | allow now =>
    rw [hcall, CircuitSystem.step] at hstep
    rcases allow_cases c now s.circuit with
      ⟨n, g, hs, hallow⟩ | ⟨since, g, hs, -, hallow⟩ | ⟨-, error, hallow⟩
    · rw [hallow] at hstep
      rw [← Option.some.inj hstep, moved_self]
      intro g' hg'
      rw [issue_circuit, hs] at hg'
      cases hg'
    · rw [hallow] at hstep
      rw [← Option.some.inj hstep]
      intro g' hg'
      rw [issue_circuit, moved_circuit] at hg'
      cases hg'
      -- the permit just issued
      refine ⟨(s.moved (.halfOpen g)).permits.length,
        ⟨.halfOpen g, (s.moved (.halfOpen g)).period, true⟩, held_eq_some.mpr ⟨?_, rfl⟩, rfl⟩
      rw [issue, List.getElem?_append_right (Nat.le_refl _), Nat.sub_self]
      rfl
    · rw [hallow] at hstep
      rw [← Option.some.inj hstep, moved_self]
      exact h
  | succeeded id =>
    rw [hcall] at hstep
    obtain ⟨issued, hheld, rfl⟩ := Option.map_eq_some_iff.mp hstep
    refine h.spent hheld (settled_permits ..) fun g hg => ?_
    rw [spent_circuit, moved_circuit] at hg
    exact succeeded_eq_halfOpen hg
  | failed id now =>
    rw [hcall] at hstep
    obtain ⟨issued, hheld, rfl⟩ := Option.map_eq_some_iff.mp hstep
    refine h.spent hheld (settled_permits ..) fun g hg => ?_
    rw [spent_circuit, moved_circuit] at hg
    exact failed_eq_halfOpen hg
  | abandoned id =>
    rw [hcall] at hstep
    obtain ⟨issued, hheld, rfl⟩ := Option.map_eq_some_iff.mp hstep
    refine h.spent hheld rfl fun g hg => ⟨hg, fun hpermit => ?_⟩
    rw [spent_circuit] at hg
    rw [keepsProbe, hcall] at hkeeps
    simp only [hheld, Option.all_some, fits_iff.mpr (Or.inr ⟨g, hpermit, hg⟩)] at hkeeps
    rw [hg] at hkeeps
    cases hkeeps

/-- A circuit that is not half-open grants a permit at the latest after its cooldown. -/
theorem grantsEventually_of_not_halfOpen (h : s.circuit.isHalfOpen = false) :
    GrantsEventually c s := by
  cases hs : s.circuit with
  | closed n g => exact ⟨0, fun now _ => ⟨.closed g, by rw [hs]; rfl⟩⟩
  | opened since g =>
    refine ⟨since + c.cooldown, fun now hnow => ⟨.halfOpen g, ?_⟩⟩
    rw [hs, CacheFallbackCircuit.allow, if_pos (by omega)]
  | halfOpen g =>
    rw [hs] at h
    cases h

/-- Half-open without a holder of a permit, the circuit never changes again and refuses
every call. -/
theorem wedged_forever (hhalf : s.circuit.isHalfOpen = true) (hnone : NoHolder s) :
    (∀ es t, run (fallbackStep c) s es = some t → t = s) ∧ ¬ GrantsEventually c s := by
  have hheld : ∀ id, s.held id = none := by
    intro id
    rw [held, Option.filter_eq_none_iff]
    intro issued hissued
    rw [hnone issued (List.mem_of_getElem? hissued)]
    exact Bool.false_ne_true
  have hrefused : ∀ now, ∃ error, c.allow now s.circuit = (.error error, s.circuit) := by
    intro now
    cases hs : s.circuit with
    | closed n g | opened since g =>
      rw [hs] at hhalf
      cases hhalf
    | halfOpen g => exact ⟨_, rfl⟩
  constructor
  · intro es t hrun
    refine run_invariant (P := fun t => t = s) ?_ rfl hrun
    rintro _ e t rfl hstep
    rw [fallbackStep] at hstep
    cases hcall : e.call with
    | allow now =>
      obtain ⟨error, hallow⟩ := hrefused now
      rw [hcall, CircuitSystem.step, hallow] at hstep
      rw [← Option.some.inj hstep, moved_self]
    | succeeded id | failed id now | abandoned id =>
      rw [hcall, CircuitSystem.step, hheld id] at hstep
      cases hstep
  · rintro ⟨time, hgranted⟩
    obtain ⟨permit, hpermit⟩ := hgranted time (Nat.le_refl _)
    obtain ⟨error, hallow⟩ := hrefused time
    rw [hallow] at hpermit
    cases hpermit

/-- **The fallback circuit recovers when no caller goes away with its probe.**  In every
run in which no cancelled or panicking caller holds the permit of the half-open
circuit, every state without a permit holder grants the next call from some time on. -/
theorem fallback_recovers {es : List FallbackEvent}
    (hmeet : StepsMeet (fallbackStep c) (fun s e => keepsProbe s e = true) init es)
    (hrun : run (fallbackStep c) init es = some s) (hnone : NoHolder s) : GrantsEventually c s := by
  have hprobe : ProbeHeld s := by
    refine run_invariant_when (fun s e t hkeeps h hstep => h.step hkeeps hstep) hmeet ?_ hrun
    intro g hg
    cases hg
  refine grantsEventually_of_not_halfOpen ?_
  by_contra hhalf
  cases hs : s.circuit with
  | closed n g | opened since g =>
    rw [hs] at hhalf
    exact hhalf rfl
  | halfOpen g =>
    obtain ⟨id, issued, hheld, -⟩ := hprobe g hs
    have hlive := hnone issued (mem_of_held hheld)
    rw [(held_eq_some.mp hheld).2] at hlive
    cases hlive

end

/-- Two reads fail, a third one is cancelled while the probe is out, and the probe is loaded. -/
def recoveredRun : List FallbackEvent :=
  [.enter .loadCached 0, .enter .loadCachedMulti 0, .enter .loadCached 0, .answered 0 .failed 1,
    .answered 1 .timedOut 3, .enter .refreshCache 13, .cancelled 2, .answered 3 .loaded 14]

/-- Two reads fail and the caller with the probe panics. -/
def wedgedRun : List FallbackEvent :=
  [.enter .loadCached 0, .enter .loadCachedMulti 0, .answered 0 .failed 1, .answered 1 .timedOut 3,
    .enter .loadCached 13, .panicked 2]

theorem fallback_recovers_loaded :
    ∃ s, run (fallbackStep twoStrikes) init recoveredRun = some s ∧
      GrantsEventually twoStrikes s := by
  have hrun : ∃ s, run (fallbackStep twoStrikes) init recoveredRun = some s ∧ NoHolder s :=
    exists_of_any (by decide)
  obtain ⟨s, hrun, hnone⟩ := hrun
  exact ⟨s, hrun, fallback_recovers (stepsMeet_of_check (by decide)) hrun hnone⟩

/-- A caller that panics with the probe leaves a circuit that refuses every call. -/
theorem fallback_wedges :
    ¬ ∀ c es s, run (fallbackStep c) init es = some s → NoHolder s → GrantsEventually c s := by
  intro h
  have hrun : ∃ s, run (fallbackStep twoStrikes) init wedgedRun = some s ∧
      s.circuit.isHalfOpen = true ∧ NoHolder s :=
    exists_of_any (by decide)
  obtain ⟨s, hrun, hhalf, hnone⟩ := hrun
  exact (wedged_forever hhalf hnone).2 (h twoStrikes wedgedRun s hrun hnone)

end DbProxy
