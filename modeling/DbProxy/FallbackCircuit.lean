/-
The circuit breaker around PostgreSQL cache-fallback reads (`lib.rs`).

`allow` hands out permits, `succeeded` and `failed` take them back.  A permit is a
plain value with the generation of the state it was issued in, so it may come back
late, out of order or never.  `CircuitSystem` is the breaker with every permit it
ever issued; next to the breaker's own state it counts the *periods* between two
changes of phase and collects the outcomes that belong to the current period, in
terms that do not mention generations.

* `step_cases` — everything one call can do;
* `CircuitInv` — a permit fits the breaker exactly when it was issued in the current
  period, and the failure count is that of the period's last outcomes;
* `circuit_breaker` — what holds in every run.
-/
import DbProxy.StepMachine
import Mathlib.Algebra.Ring.Nat
import Mathlib.Data.List.Count
import Mathlib.Tactic.Common

namespace DbProxy

open StepMachine

/-- The errors of the breaker among `StorageError`. -/
inductive CircuitError
  | invalidCacheFallbackCircuitThreshold
  | invalidCacheFallbackCircuitCooldown
  | cacheFallbackCircuitOpen (retryAfterMs : ℕ)
deriving DecidableEq, Repr

/-- `CacheFallbackCircuitConfig`; the cooldown in nanoseconds. -/
structure CacheFallbackCircuitConfig where
  failureThreshold : ℕ
  cooldown : ℕ
  threshold_lt : failureThreshold < 2 ^ 32

/-- `u64::MAX`. -/
def maxGeneration : ℕ := 2 ^ 64 - 1

/-- `u32::MAX`. -/
def maxFailures : ℕ := 2 ^ 32 - 1

inductive CacheFallbackCircuitState
  | closed (consecutiveFailures generation : ℕ)
  | opened (openedAt generation : ℕ)
  | halfOpen (generation : ℕ)
deriving DecidableEq, Repr

inductive CacheFallbackCircuitPermit
  | closed (generation : ℕ)
  | halfOpen (generation : ℕ)
deriving DecidableEq, Repr

/-- The limits of a breaker that `new` accepted. -/
structure CacheFallbackCircuit where
  failureThreshold : ℕ
  cooldown : ℕ
  cooldownMs : ℕ
  threshold_pos : 0 < failureThreshold
  threshold_lt : failureThreshold < 2 ^ 32
  cooldown_pos : 0 < cooldown

namespace CacheFallbackCircuit

/-- `validate` and `new`. -/
def new (config : CacheFallbackCircuitConfig) :
    Except CircuitError (CacheFallbackCircuit × CacheFallbackCircuitState) :=
  if ht : config.failureThreshold = 0 then .error .invalidCacheFallbackCircuitThreshold
  else if hc : config.cooldown = 0 then .error .invalidCacheFallbackCircuitCooldown
  else
    .ok ({ failureThreshold := config.failureThreshold
           cooldown := config.cooldown
           cooldownMs := max (min (config.cooldown / 1000000) (2 ^ 64 - 1)) 1
           threshold_pos := Nat.pos_of_ne_zero ht
           threshold_lt := config.threshold_lt
           cooldown_pos := Nat.pos_of_ne_zero hc }, .closed 0 0)

def allow (c : CacheFallbackCircuit) (now : ℕ) : CacheFallbackCircuitState →
    Except CircuitError CacheFallbackCircuitPermit × CacheFallbackCircuitState
  | .closed failures generation => (.ok (.closed generation), .closed failures generation)
  | .opened openedAt generation =>
    let elapsed := now - openedAt
    if c.cooldown ≤ elapsed then (.ok (.halfOpen generation), .halfOpen generation)
    else
      (.error (.cacheFallbackCircuitOpen
        (min ((c.cooldown - elapsed) / 1000000) (2 ^ 64 - 1))), .opened openedAt generation)
  | .halfOpen generation => (.error (.cacheFallbackCircuitOpen c.cooldownMs), .halfOpen generation)

def succeeded (permit : CacheFallbackCircuitPermit) (state : CacheFallbackCircuitState) :
    CacheFallbackCircuitState :=
  match permit, state with
  | .closed permitGeneration, .closed failures generation =>
    if permitGeneration = generation then .closed 0 generation else .closed failures generation
  | .halfOpen permitGeneration, .halfOpen generation =>
    if permitGeneration = generation then .closed 0 (min (generation + 1) maxGeneration)
    else .halfOpen generation
  | _, state => state

def failed (c : CacheFallbackCircuit) (now : ℕ) (permit : CacheFallbackCircuitPermit)
    (state : CacheFallbackCircuitState) : CacheFallbackCircuitState :=
  match permit, state with
  | .halfOpen permitGeneration, .halfOpen generation =>
    if permitGeneration = generation then .opened now (min (generation + 1) maxGeneration)
    else .halfOpen generation
  | .closed permitGeneration, .closed failures generation =>
    if permitGeneration = generation then
      let failures := min (failures + 1) maxFailures
      if c.failureThreshold ≤ failures then .opened now (min (generation + 1) maxGeneration)
      else .closed failures generation
    else .closed failures generation
  | _, state => state

end CacheFallbackCircuit

/-! ### Permits in circulation -/

/-- The phase of the breaker, without its counters and clocks. -/
inductive CircuitPhase
  | closed (generation : ℕ)
  | opened (generation : ℕ)
  | halfOpen (generation : ℕ)
deriving DecidableEq, Repr

namespace CacheFallbackCircuitState

def phase : CacheFallbackCircuitState → CircuitPhase
  | .closed _ generation => .closed generation
  | .opened _ generation => .opened generation
  | .halfOpen generation => .halfOpen generation

def generation : CacheFallbackCircuitState → ℕ
  | .closed _ generation => generation
  | .opened _ generation => generation
  | .halfOpen generation => generation

def isClosed : CacheFallbackCircuitState → Bool
  | .closed _ _ => true
  | _ => false

def isOpened : CacheFallbackCircuitState → Bool
  | .opened _ _ => true
  | _ => false

def isHalfOpen : CacheFallbackCircuitState → Bool
  | .halfOpen _ => true
  | _ => false

end CacheFallbackCircuitState

/-- The kind and the generation of the permit are those of the state. -/
def CacheFallbackCircuitPermit.fits :
    CacheFallbackCircuitPermit → CacheFallbackCircuitState → Bool
  | .closed permitGeneration, .closed _ generation => permitGeneration == generation
  | .halfOpen permitGeneration, .halfOpen generation => permitGeneration == generation
  | _, _ => false

/-- A permit with the period it was issued in; `live` until its holder uses or loses it. -/
structure IssuedPermit where
  permit : CacheFallbackCircuitPermit
  period : ℕ
  live : Bool := true
deriving DecidableEq, Repr

/-- The breaker, the permits it issued and what happened in the current period. -/
structure CircuitSystem where
  circuit : CacheFallbackCircuitState
  permits : List IssuedPermit := []
  period : ℕ := 0
  /-- The results of the permits of this period, the latest one first. -/
  outcomes : List Bool := []
deriving DecidableEq, Repr

/-- What happens to a breaker: a call of `allow`, a permit that comes back, a permit
whose holder is gone. -/
inductive CircuitEvent
  | allow (now : ℕ)
  | succeeded (id : ℕ)
  | failed (id : ℕ) (now : ℕ)
  | abandoned (id : ℕ)
deriving DecidableEq, Repr

namespace CircuitSystem

/-- The breaker is now in `circuit`; another phase begins another period. -/
def moved (s : CircuitSystem) (circuit : CacheFallbackCircuitState) : CircuitSystem :=
  if circuit.phase = s.circuit.phase then { s with circuit := circuit }
  else { s with circuit := circuit, period := s.period + 1, outcomes := [] }

/-- The permit `id` is out of its holder's hands. -/
def spent (s : CircuitSystem) (id : ℕ) : CircuitSystem :=
  { s with permits := s.permits.modify id fun issued => { issued with live := false } }

/-- A result of a permit of this period is an outcome of the period. -/
def noted (s : CircuitSystem) (issued : IssuedPermit) (ok : Bool) : CircuitSystem :=
  if issued.period = s.period then { s with outcomes := ok :: s.outcomes } else s

def issue (s : CircuitSystem) (permit : CacheFallbackCircuitPermit) : CircuitSystem :=
  { s with permits := s.permits ++ [{ permit := permit, period := s.period }] }

/-- The permit `id`, if its holder still has it. -/
def held (s : CircuitSystem) (id : ℕ) : Option IssuedPermit :=
  s.permits[id]?.filter (·.live)

def step (c : CacheFallbackCircuit) (s : CircuitSystem) : CircuitEvent → Option CircuitSystem
  | .allow now =>
    match c.allow now s.circuit with
    | (.ok permit, circuit) => some ((s.moved circuit).issue permit)
    | (.error _, circuit) => some (s.moved circuit)
  | .succeeded id =>
    (s.held id).map fun issued =>
      ((s.noted issued true).moved (CacheFallbackCircuit.succeeded issued.permit s.circuit)).spent
        id
  | .failed id now =>
    (s.held id).map fun issued =>
      ((s.noted issued false).moved (c.failed now issued.permit s.circuit)).spent id
  | .abandoned id => (s.held id).map fun _ => s.spent id

def init : CircuitSystem := { circuit := .closed 0 0 }

end CircuitSystem

/-! ### One call -/

section Calls

variable {c : CacheFallbackCircuit} {state : CacheFallbackCircuitState}
  {permit : CacheFallbackCircuitPermit} {now : ℕ}

open CacheFallbackCircuit

theorem fits_iff : permit.fits state = true ↔
    (∃ n g, permit = .closed g ∧ state = .closed n g) ∨
      ∃ g, permit = .halfOpen g ∧ state = .halfOpen g := by
  constructor
  · intro h
    cases permit <;> cases state <;> simp_all [CacheFallbackCircuitPermit.fits]
  · rintro (⟨n, g, rfl, rfl⟩ | ⟨g, rfl, rfl⟩) <;> simp [CacheFallbackCircuitPermit.fits]

theorem fits_congr {state' : CacheFallbackCircuitState} (h : state.phase = state'.phase) :
    permit.fits state = permit.fits state' := by
  cases state <;> cases state' <;>
    simp [CacheFallbackCircuitState.phase] at h <;> subst h <;> cases permit <;> rfl

/-- A permit of another kind or generation changes nothing. -/
theorem succeeded_of_not_fits (h : permit.fits state = false) : succeeded permit state = state := by
  cases permit <;> cases state <;>
    simp_all [succeeded, CacheFallbackCircuitPermit.fits]

theorem failed_of_not_fits (h : permit.fits state = false) : c.failed now permit state = state := by
  cases permit <;> cases state <;>
    simp_all [failed, CacheFallbackCircuitPermit.fits]

theorem succeeded_closed (n g : ℕ) : succeeded (.closed g) (.closed n g) = .closed 0 g :=
  if_pos rfl

theorem succeeded_halfOpen (g : ℕ) :
    succeeded (.halfOpen g) (.halfOpen g) = .closed 0 (min (g + 1) maxGeneration) := if_pos rfl

theorem failed_halfOpen (g : ℕ) :
    c.failed now (.halfOpen g) (.halfOpen g) = .opened now (min (g + 1) maxGeneration) :=
  if_pos rfl

/-- While the count is below the threshold, a failure adds to it or opens the circuit. -/
theorem failed_closed {n g : ℕ} (hn : n < c.failureThreshold) :
    c.failed now (.closed g) (.closed n g) =
      if n + 1 = c.failureThreshold then .opened now (min (g + 1) maxGeneration)
      else .closed (n + 1) g := by
  have hmax : min (n + 1) maxFailures = n + 1 := by
    have := c.threshold_lt
    rw [maxFailures]
    omega
  rw [failed, if_pos rfl]
  simp only [hmax]
  by_cases h : n + 1 = c.failureThreshold
  · rw [if_pos h, if_pos (by omega)]
  · rw [if_neg h, if_neg (by omega)]

theorem succeeded_generation (permit : CacheFallbackCircuitPermit)
    (h : state.generation ≤ maxGeneration) :
    state.generation ≤ (succeeded permit state).generation ∧
      (succeeded permit state).generation ≤ maxGeneration := by
  cases hfits : permit.fits state with
  | false =>
    rw [succeeded_of_not_fits hfits]
    exact ⟨Nat.le_refl _, h⟩
  | true =>
    rcases fits_iff.mp hfits with ⟨n, g, rfl, rfl⟩ | ⟨g, rfl, rfl⟩
    · rw [succeeded_closed]
      exact ⟨Nat.le_refl _, h⟩
    · rw [succeeded_halfOpen]
      simp only [CacheFallbackCircuitState.generation] at h ⊢
      omega

theorem failed_generation (permit : CacheFallbackCircuitPermit)
    (h : state.generation ≤ maxGeneration) :
    state.generation ≤ (c.failed now permit state).generation ∧
      (c.failed now permit state).generation ≤ maxGeneration := by
  cases hfits : permit.fits state with
  | false =>
    rw [failed_of_not_fits hfits]
    exact ⟨Nat.le_refl _, h⟩
  | true =>
    rcases fits_iff.mp hfits with ⟨n, g, rfl, rfl⟩ | ⟨g, rfl, rfl⟩
    · rw [failed, if_pos rfl]
      dsimp only
      split
      · simp only [CacheFallbackCircuitState.generation] at h ⊢
        omega
      · exact ⟨Nat.le_refl _, h⟩
    · rw [failed_halfOpen]
      simp only [CacheFallbackCircuitState.generation] at h ⊢
      omega

/-- Everything `allow` can do. -/
theorem allow_cases (c : CacheFallbackCircuit) (now : ℕ) (state : CacheFallbackCircuitState) :
    (∃ n g, state = .closed n g ∧ c.allow now state = (.ok (.closed g), state)) ∨
      (∃ since g, state = .opened since g ∧ c.cooldown ≤ now - since ∧
        c.allow now state = (.ok (.halfOpen g), .halfOpen g)) ∨
      ((state.isHalfOpen = true ∨ ∃ since g, state = .opened since g ∧ now - since < c.cooldown) ∧
        ∃ e, c.allow now state = (.error e, state)) := by
  cases state with
  | closed n g => exact Or.inl ⟨n, g, rfl, rfl⟩
  | opened since g =>
    by_cases h : c.cooldown ≤ now - since
    · exact Or.inr (Or.inl ⟨since, g, rfl, h, if_pos h⟩)
    · exact Or.inr (Or.inr ⟨Or.inr ⟨since, g, rfl, by omega⟩, _, if_neg h⟩)
  | halfOpen g => exact Or.inr (Or.inr ⟨Or.inl rfl, _, rfl⟩)

/-- Grows with every change of phase. -/
def CacheFallbackCircuitState.rank : CacheFallbackCircuitState → ℕ
  | .closed _ g => 2 * g
  | .opened _ g => 2 * g
  | .halfOpen g => 2 * g + 1

def CacheFallbackCircuitPermit.rank : CacheFallbackCircuitPermit → ℕ
  | .closed g => 2 * g
  | .halfOpen g => 2 * g + 1

theorem rank_of_fits (h : permit.fits state = true) : permit.rank = state.rank := by
  rcases fits_iff.mp h with ⟨n, g, rfl, rfl⟩ | ⟨g, rfl, rfl⟩ <;> rfl

end Calls

namespace CircuitSystem

variable {c : CacheFallbackCircuit} {s t : CircuitSystem} {e : CircuitEvent}

theorem held_eq_some {id : ℕ} {issued : IssuedPermit} :
    s.held id = some issued ↔ s.permits[id]? = some issued ∧ issued.live = true := by
  rw [held, Option.filter_eq_some_iff]

@[simp] theorem moved_circuit (circuit : CacheFallbackCircuitState) :
    (s.moved circuit).circuit = circuit := by
  rw [moved]
  split <;> rfl

theorem moved_same {circuit : CacheFallbackCircuitState} (h : circuit.phase = s.circuit.phase) :
    s.moved circuit = { s with circuit := circuit } := if_pos h

theorem moved_other {circuit : CacheFallbackCircuitState} (h : circuit.phase ≠ s.circuit.phase) :
    s.moved circuit = { s with circuit := circuit, period := s.period + 1, outcomes := [] } :=
  if_neg h

@[simp] theorem noted_circuit (issued : IssuedPermit) (ok : Bool) :
    (s.noted issued ok).circuit = s.circuit := by
  rw [noted]
  split <;> rfl

@[simp] theorem spent_circuit (id : ℕ) : (s.spent id).circuit = s.circuit := rfl

@[simp] theorem issue_circuit (permit : CacheFallbackCircuitPermit) :
    (s.issue permit).circuit = s.circuit := rfl

/-- The next period, with the breaker in another phase. -/
def turned (s : CircuitSystem) (circuit : CacheFallbackCircuitState) : CircuitSystem :=
  { s with circuit := circuit, period := s.period + 1, outcomes := [] }

/-- The same period, with one more outcome of it. -/
def counted (s : CircuitSystem) (circuit : CacheFallbackCircuitState) (ok : Bool) : CircuitSystem :=
  { s with circuit := circuit, outcomes := ok :: s.outcomes }

/-- Spending a permit keeps what it says. -/
theorem mem_spent {id : ℕ} {issued : IssuedPermit} (h : issued ∈ (s.spent id).permits) :
    ∃ before ∈ s.permits, before.permit = issued.permit ∧ before.period = issued.period ∧
      (issued.live = true → before.live = true) := by
  obtain ⟨n, hn⟩ := List.mem_iff_getElem?.mp h
  rw [spent, List.getElem?_modify] at hn
  obtain ⟨before, hbefore, rfl⟩ := Option.map_eq_some_iff.mp hn
  refine ⟨before, List.mem_of_getElem? hbefore, ?_⟩
  split <;> simp

theorem spent_periods (id : ℕ) :
    (s.spent id).permits.map (·.period) = s.permits.map (·.period) := by
  refine List.ext_getElem? fun n => ?_
  rw [List.getElem?_map, List.getElem?_map, spent, List.getElem?_modify]
  cases s.permits[n]? with
  | none => rfl
  | some issued =>
    simp only [Option.map_some]
    split <;> rfl

end CircuitSystem

/-! ### The invariant of every run -/

/-- The failures since the last success, in outcomes with the latest one first. -/
def failuresInARow (outcomes : List Bool) : ℕ := (outcomes.takeWhile (! ·)).length

/-- A permit of the current period fits the breaker, an older one is of a lower rank. -/
structure PermitsFit (s : CircuitSystem) : Prop where
  current : ∀ issued ∈ s.permits, issued.period = s.period → issued.permit.fits s.circuit = true
  older : ∀ issued ∈ s.permits, issued.period ≠ s.period →
    issued.period < s.period ∧ issued.permit.rank < s.circuit.rank

structure CircuitInv (c : CacheFallbackCircuit) (s : CircuitSystem) : Prop where
  fit : PermitsFit s
  failures : ∀ n g, s.circuit = .closed n g →
    n = failuresInARow s.outcomes ∧ n < c.failureThreshold
  /-- A half-open period has issued exactly one permit. -/
  probe : s.circuit.isHalfOpen = true → (s.permits.map (·.period)).count s.period = 1

namespace PermitsFit

open CircuitSystem

variable {s : CircuitSystem}

/-- The permits that fit are those of the current period. -/
theorem fits_iff_period (h : PermitsFit s) {issued : IssuedPermit} (hmem : issued ∈ s.permits) :
    issued.permit.fits s.circuit = true ↔ issued.period = s.period := by
  constructor
  · intro hfits
    by_contra hne
    have hlt := (h.older issued hmem hne).2
    have hrank := rank_of_fits hfits
    omega
  · exact h.current issued hmem

theorem period_le (h : PermitsFit s) {issued : IssuedPermit} (hmem : issued ∈ s.permits) :
    issued.period ≤ s.period := by
  by_cases heq : issued.period = s.period
  · omega
  · have hlt := (h.older issued hmem heq).1
    omega

theorem turned (h : PermitsFit s) {circuit : CacheFallbackCircuitState}
    (hrank : s.circuit.rank < circuit.rank) : PermitsFit (s.turned circuit) := by
  -- every permit issued so far belongs to an earlier period
  have hold : ∀ issued ∈ s.permits, issued.permit.rank ≤ s.circuit.rank := by
    intro issued hmem
    by_cases hperiod : issued.period = s.period
    · have hrank_eq := rank_of_fits (h.current issued hmem hperiod)
      omega
    · have hlt := (h.older issued hmem hperiod).2
      omega
  constructor
  · intro issued hmem hperiod
    have hle := h.period_le hmem
    have : issued.period = s.period + 1 := hperiod
    omega
  · intro issued hmem _
    have hle := h.period_le hmem
    have hlower := hold issued hmem
    exact ⟨Nat.lt_succ_of_le hle, Nat.lt_of_le_of_lt hlower hrank⟩

theorem counted (h : PermitsFit s) {circuit : CacheFallbackCircuitState} (ok : Bool)
    (hphase : circuit.phase = s.circuit.phase) : PermitsFit (s.counted circuit ok) := by
  have hrank : circuit.rank = s.circuit.rank := by
    cases circuit <;> cases hs : s.circuit <;>
      simp_all [CacheFallbackCircuitState.phase, CacheFallbackCircuitState.rank]
  constructor
  · intro issued hmem hperiod
    show issued.permit.fits circuit = true
    rw [fits_congr hphase]
    exact h.current issued hmem hperiod
  · intro issued hmem hperiod
    show _ ∧ _ < circuit.rank
    rw [hrank]
    exact h.older issued hmem hperiod

theorem spent (h : PermitsFit s) (id : ℕ) : PermitsFit (s.spent id) := by
  constructor
  · intro issued hmem hperiod
    obtain ⟨before, hbefore, hpermit, hsame, -⟩ := mem_spent hmem
    rw [← hpermit]
    exact h.current before hbefore (hsame.trans hperiod)
  · intro issued hmem hperiod
    obtain ⟨before, hbefore, hpermit, hsame, -⟩ := mem_spent hmem
    rw [← hpermit, ← hsame]
    exact h.older before hbefore (by rw [hsame]; exact hperiod)

theorem issue (h : PermitsFit s) {permit : CacheFallbackCircuitPermit}
    (hfits : permit.fits s.circuit = true) : PermitsFit (s.issue permit) := by
  constructor
  · intro issued hmem hperiod
    rcases List.mem_append.mp hmem with hmem | hmem
    · exact h.current issued hmem hperiod
    · rw [List.mem_singleton.mp hmem]
      exact hfits
  · intro issued hmem hperiod
    rcases List.mem_append.mp hmem with hmem | hmem
    · exact h.older issued hmem hperiod
    · rw [List.mem_singleton.mp hmem] at hperiod
      exact absurd rfl hperiod

/-- A period that has just begun has issued nothing. -/
theorem count_next (h : PermitsFit s) : (s.permits.map (·.period)).count (s.period + 1) = 0 := by
  rw [List.count_eq_zero]
  intro hmem
  obtain ⟨issued, hissued, hperiod⟩ := List.mem_map.mp hmem
  have := h.period_le hissued
  omega

end PermitsFit

namespace CircuitSystem

variable {c : CacheFallbackCircuit} {s t : CircuitSystem} {e : CircuitEvent}

theorem moved_self (s : CircuitSystem) : s.moved s.circuit = s := moved_same rfl

/-- A permit that comes back to another phase is only spent. -/
theorem settled_stale {id : ℕ} {issued : IssuedPermit} {ok : Bool}
    {circuit : CacheFallbackCircuitState} (hperiod : issued.period ≠ s.period)
    (hcircuit : circuit = s.circuit) :
    ((s.noted issued ok).moved circuit).spent id = s.spent id := by
  rw [noted, if_neg hperiod, hcircuit, moved_self]

theorem noted_moved_same {issued : IssuedPermit} {ok : Bool} {circuit : CacheFallbackCircuitState}
    (hperiod : issued.period = s.period) (hphase : circuit.phase = s.circuit.phase) :
    (s.noted issued ok).moved circuit = s.counted circuit ok := by
  rw [noted, if_pos hperiod]
  exact moved_same hphase

theorem noted_moved_other {issued : IssuedPermit} {ok : Bool} {circuit : CacheFallbackCircuitState}
    (hphase : circuit.phase ≠ s.circuit.phase) :
    (s.noted issued ok).moved circuit = s.turned circuit := by
  rw [moved_other (by rw [noted_circuit]; exact hphase), noted]
  split <;> rfl

end CircuitSystem

open CircuitSystem

/-- Everything one call can do to the breaker and its permits. -/
inductive CircuitMove (c : CacheFallbackCircuit) (s : CircuitSystem) :
    CircuitEvent → CircuitSystem → Prop
  | granted {now n g : ℕ} (hs : s.circuit = .closed n g) :
      CircuitMove c s (.allow now) (s.issue (.closed g))
  | probed {now since g : ℕ} (hs : s.circuit = .opened since g) (hcool : c.cooldown ≤ now - since) :
      CircuitMove c s (.allow now) ((s.turned (.halfOpen g)).issue (.halfOpen g))
  | refused {now : ℕ} (hwhy : s.circuit.isHalfOpen = true ∨
      ∃ since g, s.circuit = .opened since g ∧ now - since < c.cooldown) :
      CircuitMove c s (.allow now) s
  | lost {id : ℕ} {issued : IssuedPermit} (hheld : s.held id = some issued) :
      CircuitMove c s (.abandoned id) (s.spent id)
  | stale {id : ℕ} {issued : IssuedPermit} {e : CircuitEvent} (hheld : s.held id = some issued)
      (he : e = .succeeded id ∨ ∃ now, e = .failed id now) (hperiod : issued.period ≠ s.period) :
      CircuitMove c s e (s.spent id)
  | reset {id n g : ℕ} {issued : IssuedPermit} (hheld : s.held id = some issued)
      (hperiod : issued.period = s.period) (hs : s.circuit = .closed n g) :
      CircuitMove c s (.succeeded id) ((s.counted (.closed 0 g) true).spent id)
  | missed {id now n g : ℕ} {issued : IssuedPermit} (hheld : s.held id = some issued)
      (hperiod : issued.period = s.period) (hs : s.circuit = .closed n g)
      (hbelow : n + 1 < c.failureThreshold) :
      CircuitMove c s (.failed id now) ((s.counted (.closed (n + 1) g) false).spent id)
  | tripped {id now n g : ℕ} {issued : IssuedPermit} (hheld : s.held id = some issued)
      (hperiod : issued.period = s.period) (hs : s.circuit = .closed n g)
      (hreached : n + 1 = c.failureThreshold) :
      CircuitMove c s (.failed id now)
        ((s.turned (.opened now (min (g + 1) maxGeneration))).spent id)
  | recovered {id g : ℕ} {issued : IssuedPermit} (hheld : s.held id = some issued)
      (hpermit : issued.permit = .halfOpen g) (hs : s.circuit = .halfOpen g) :
      CircuitMove c s (.succeeded id)
        ((s.turned (.closed 0 (min (g + 1) maxGeneration))).spent id)
  | reopened {id now g : ℕ} {issued : IssuedPermit} (hheld : s.held id = some issued)
      (hpermit : issued.permit = .halfOpen g) (hs : s.circuit = .halfOpen g) :
      CircuitMove c s (.failed id now)
        ((s.turned (.opened now (min (g + 1) maxGeneration))).spent id)

theorem mem_of_held {s : CircuitSystem} {id : ℕ} {issued : IssuedPermit}
    (h : s.held id = some issued) : issued ∈ s.permits :=
  List.mem_of_getElem? (held_eq_some.mp h).1

theorem CircuitInv.move {c : CacheFallbackCircuit} {s t : CircuitSystem} {e : CircuitEvent}
    (hs : CircuitInv c s) (h : step c s e = some t) : CircuitMove c s e t := by
  cases e with
  | allow now =>
    rw [step] at h
    rcases allow_cases c now s.circuit with
      ⟨n, g, hclosed, hallow⟩ | ⟨since, g, hopened, hcool, hallow⟩ | ⟨hwhy, error, hallow⟩
    · rw [hallow] at h
      rw [← Option.some.inj h, moved_self]
      exact .granted hclosed
    · rw [hallow] at h
      rw [← Option.some.inj h, moved_other (by rw [hopened]; exact fun h => by cases h)]
      exact .probed hopened hcool
    · rw [hallow] at h
      rw [← Option.some.inj h, moved_self]
      exact .refused hwhy
  | abandoned id =>
    obtain ⟨issued, hheld, rfl⟩ := Option.map_eq_some_iff.mp h
    exact .lost hheld
  | succeeded id =>
    obtain ⟨issued, hheld, rfl⟩ := Option.map_eq_some_iff.mp h
    have hfits := hs.fit.fits_iff_period (mem_of_held hheld)
    by_cases hperiod : issued.period = s.period
    · rcases fits_iff.mp (hfits.mpr hperiod) with ⟨n, g, hpermit, hclosed⟩ | ⟨g, hpermit, hhalf⟩
      · rw [hpermit, hclosed, succeeded_closed, noted_moved_same hperiod (by rw [hclosed]; rfl)]
        exact .reset hheld hperiod hclosed
      · rw [hpermit, hhalf, succeeded_halfOpen,
          noted_moved_other (by rw [hhalf]; exact fun h => by cases h)]
        exact .recovered hheld hpermit hhalf
    · rw [settled_stale hperiod (succeeded_of_not_fits
        (Bool.eq_false_iff.mpr fun h => hperiod (hfits.mp h)))]
      exact .stale hheld (Or.inl rfl) hperiod
  | failed id now =>
    obtain ⟨issued, hheld, rfl⟩ := Option.map_eq_some_iff.mp h
    have hfits := hs.fit.fits_iff_period (mem_of_held hheld)
    by_cases hperiod : issued.period = s.period
    · rcases fits_iff.mp (hfits.mpr hperiod) with ⟨n, g, hpermit, hclosed⟩ | ⟨g, hpermit, hhalf⟩
      · have hbelow := (hs.failures n g hclosed).2
        rw [hpermit, hclosed, failed_closed hbelow]
        by_cases hreached : n + 1 = c.failureThreshold
        · rw [if_pos hreached,
            noted_moved_other (by rw [hclosed]; exact fun h => by cases h)]
          exact .tripped hheld hperiod hclosed hreached
        · rw [if_neg hreached, noted_moved_same hperiod (by rw [hclosed]; rfl)]
          exact .missed hheld hperiod hclosed (by omega)
      · rw [hpermit, hhalf, failed_halfOpen,
          noted_moved_other (by rw [hhalf]; exact fun h => by cases h)]
        exact .reopened hheld hpermit hhalf
    · rw [settled_stale hperiod (failed_of_not_fits
        (Bool.eq_false_iff.mpr fun h => hperiod (hfits.mp h)))]
      exact .stale hheld (Or.inr ⟨now, rfl⟩) hperiod

section Invariant

variable {c : CacheFallbackCircuit} {s t : CircuitSystem} {e : CircuitEvent}

theorem circuitInv_init : CircuitInv c init where
  fit := ⟨(fun _ h => by cases h), (fun _ h => by cases h)⟩
  failures := by
    rintro n g ⟨⟩
    exact ⟨rfl, c.threshold_pos⟩
  probe := fun h => by cases h

theorem CircuitInv.spent (h : CircuitInv c s) (id : ℕ) : CircuitInv c (s.spent id) where
  fit := h.fit.spent id
  failures := h.failures
  probe := by
    intro hhalf
    rw [spent_periods]
    exact h.probe hhalf

/-- A new period that is not half-open starts without failures. -/
theorem CircuitInv.turned (h : CircuitInv c s) {circuit : CacheFallbackCircuitState}
    (hrank : s.circuit.rank < circuit.rank) (hhalf : circuit.isHalfOpen = false)
    (hzero : ∀ n g, circuit = .closed n g → n = 0) : CircuitInv c (s.turned circuit) where
  fit := h.fit.turned hrank
  failures := by
    intro n g hclosed
    rw [hzero n g hclosed]
    exact ⟨rfl, c.threshold_pos⟩
  probe := by
    intro htrue
    rw [show (s.turned circuit).circuit = circuit from rfl, hhalf] at htrue
    cases htrue

/-- Generations never go back. -/
theorem step_generation (h : CircuitSystem.step c s e = some t)
    (hs : s.circuit.generation ≤ maxGeneration) :
    s.circuit.generation ≤ t.circuit.generation ∧ t.circuit.generation ≤ maxGeneration := by
  cases e with
  | allow now =>
    rw [CircuitSystem.step] at h
    rcases allow_cases c now s.circuit with
      ⟨n, g, hclosed, hallow⟩ | ⟨since, g, hopened, -, hallow⟩ | ⟨-, error, hallow⟩
    · rw [hallow] at h
      rw [← Option.some.inj h, issue_circuit, moved_circuit]
      exact ⟨Nat.le_refl _, hs⟩
    · rw [hallow] at h
      rw [← Option.some.inj h, issue_circuit, moved_circuit]
      rw [hopened] at hs ⊢
      exact ⟨Nat.le_refl _, hs⟩
    · rw [hallow] at h
      rw [← Option.some.inj h, moved_circuit]
      exact ⟨Nat.le_refl _, hs⟩
  | abandoned id =>
    obtain ⟨issued, -, rfl⟩ := Option.map_eq_some_iff.mp h
    exact ⟨Nat.le_refl _, hs⟩
  | succeeded id =>
    obtain ⟨issued, -, rfl⟩ := Option.map_eq_some_iff.mp h
    rw [spent_circuit, moved_circuit]
    exact succeeded_generation _ hs
  | failed id now =>
    obtain ⟨issued, -, rfl⟩ := Option.map_eq_some_iff.mp h
    rw [spent_circuit, moved_circuit]
    exact failed_generation _ hs

/-- One call keeps the invariant while generations are not exhausted. -/
theorem CircuitInv.step (h : CircuitInv c s) (hmove : CircuitMove c s e t)
    (hgen : t.circuit.generation < maxGeneration) : CircuitInv c t := by
  cases hmove with
  | @granted now n g hs =>
    refine ⟨h.fit.issue ?_, h.failures, fun hhalf => ?_⟩
    · rw [hs]
      exact fits_iff.mpr (Or.inl ⟨n, g, rfl, rfl⟩)
    · rw [issue_circuit, hs] at hhalf
      cases hhalf
  | @probed now since g hs hcool =>
    have hrank : s.circuit.rank < (CacheFallbackCircuitState.halfOpen g).rank := by
      rw [hs]
      simp only [CacheFallbackCircuitState.rank]
      omega
    refine ⟨(h.fit.turned hrank).issue ?_, (fun n g h => by cases h), fun _ => ?_⟩
    · exact fits_iff.mpr (Or.inr ⟨g, rfl, rfl⟩)
    · rw [CircuitSystem.issue, List.map_append, List.count_append]
      show (s.permits.map (·.period)).count (s.period + 1) + _ = 1
      rw [h.fit.count_next]
      simp [CircuitSystem.turned]
  | refused hwhy => exact h
  | lost hheld => exact h.spent _
  | stale hheld he hperiod => exact h.spent _
  | @reset id n g issued hheld hperiod hs =>
    refine CircuitInv.spent ⟨h.fit.counted true (by rw [hs]; rfl), ?_,
      (fun hhalf => by cases hhalf)⟩ id
    rintro _ _ ⟨⟩
    exact ⟨rfl, c.threshold_pos⟩
  | @missed id now n g issued hheld hperiod hs hbelow =>
    refine CircuitInv.spent
      ⟨h.fit.counted false (by rw [hs]; rfl), ?_, (fun hhalf => by cases hhalf)⟩ id
    rintro _ _ ⟨⟩
    refine ⟨?_, hbelow⟩
    rw [(h.failures n g hs).1]
    simp [failuresInARow, CircuitSystem.counted]
  | @tripped id now n g issued hheld hperiod hs hreached =>
    refine (h.turned ?_ rfl (fun n g h => by cases h)).spent id
    simp only [spent_circuit, CircuitSystem.turned, CacheFallbackCircuitState.generation] at hgen
    rw [hs]
    simp only [CacheFallbackCircuitState.rank]
    omega
  | @recovered id g issued hheld hpermit hs =>
    refine (h.turned ?_ rfl ?_).spent id
    · simp only [spent_circuit, CircuitSystem.turned, CacheFallbackCircuitState.generation] at hgen
      rw [hs]
      simp only [CacheFallbackCircuitState.rank]
      omega
    · rintro _ _ ⟨⟩
      rfl
  | @reopened id now g issued hheld hpermit hs =>
    refine (h.turned ?_ rfl (fun n g h => by cases h)).spent id
    simp only [spent_circuit, CircuitSystem.turned, CacheFallbackCircuitState.generation] at hgen
    rw [hs]
    simp only [CacheFallbackCircuitState.rank]
    omega

theorem run_circuitInv {es : List CircuitEvent} (h : run (CircuitSystem.step c) init es = some s) :
    s.circuit.generation ≤ maxGeneration ∧
      (s.circuit.generation < maxGeneration → CircuitInv c s) := by
  refine run_invariant (P := fun s => s.circuit.generation ≤ maxGeneration ∧
    (s.circuit.generation < maxGeneration → CircuitInv c s)) ?_ ?_ h
  · rintro s e t ⟨hle, hinv⟩ hstep
    obtain ⟨hmono, hbound⟩ := step_generation hstep hle
    refine ⟨hbound, fun hlt => ?_⟩
    have hs : CircuitInv c s := hinv (by omega)
    exact hs.step (hs.move hstep) hlt
  · exact ⟨Nat.zero_le _, fun _ => circuitInv_init⟩

/-! ### The breaker in every run -/

theorem CircuitInv.halfOpen_unique (h : CircuitInv c s) :
    s.permits.countP (fun issued => issued.live && issued.permit == .halfOpen s.circuit.generation)
      ≤ 1 := by
  -- a half-open permit of the current generation was issued in the current period
  have hperiod : ∀ issued ∈ s.permits, issued.permit = .halfOpen s.circuit.generation →
      s.circuit.isHalfOpen = true ∧ issued.period = s.period := by
    intro issued hmem hpermit
    by_cases heq : issued.period = s.period
    · have hfits := h.fit.current issued hmem heq
      rw [hpermit] at hfits
      rcases fits_iff.mp hfits with ⟨n, g, hne, -⟩ | ⟨g, -, hhalf⟩
      · cases hne
      · rw [hhalf]
        exact ⟨rfl, heq⟩
    · have hlt := (h.fit.older issued hmem heq).2
      rw [hpermit] at hlt
      cases hs : s.circuit <;> rw [hs] at hlt <;>
        simp only [CacheFallbackCircuitPermit.rank, CacheFallbackCircuitState.rank,
          CacheFallbackCircuitState.generation] at hlt <;> omega
  by_cases hhalf : s.circuit.isHalfOpen = true
  · have hcount := h.probe hhalf
    rw [List.count, List.countP_map] at hcount
    rw [← hcount]
    refine List.countP_mono_left fun issued hmem hlive => ?_
    rw [Bool.and_eq_true, beq_iff_eq] at hlive
    simpa using (hperiod issued hmem hlive.2).2
  · rw [List.countP_eq_zero.mpr]
    · exact Nat.zero_le _
    · intro issued hmem hlive
      rw [Bool.and_eq_true, beq_iff_eq] at hlive
      exact hhalf (hperiod issued hmem hlive.2).1

/-- A closed breaker opens exactly with the failure that completes a row of
`failure_threshold` failures in its period. -/
theorem CircuitInv.trips_iff (h : CircuitInv c s) (hstep : CircuitSystem.step c s e = some t)
    (hclosed : s.circuit.isClosed = true) :
    t.circuit.isOpened = true ↔
      ∃ id issued now, e = .failed id now ∧ s.held id = some issued ∧ issued.period = s.period ∧
        failuresInARow (false :: s.outcomes) = c.failureThreshold := by
  have hrow : ∀ n g, s.circuit = .closed n g → failuresInARow (false :: s.outcomes) = n + 1 := by
    intro n g hs
    rw [(h.failures n g hs).1]
    simp [failuresInARow]
  constructor
  · intro hopened
    cases h.move hstep with
    | tripped hheld hperiod hs hreached =>
      exact ⟨_, _, _, rfl, hheld, hperiod, (hrow _ _ hs).trans hreached⟩
    | reopened _ _ hs | probed hs =>
      rw [hs] at hclosed
      cases hclosed
    | granted hs | refused | lost | stale =>
      cases hs : s.circuit <;> simp_all [CacheFallbackCircuitState.isClosed,
        CacheFallbackCircuitState.isOpened]
    | reset | missed | recovered => cases hopened
  · rintro ⟨id, issued, now, rfl, hheld, hperiod, hreached⟩
    cases h.move hstep with
    | tripped => rfl
    | reopened => rfl
    | @missed _ _ n g _ _ _ hs hbelow =>
      rw [hrow n g hs] at hreached
      omega
    | @stale id' issued' _ hheld' he hne =>
      rcases he with he | ⟨now', he⟩
      · cases he
      · cases he
        rw [hheld] at hheld'
        cases hheld'
        exact absurd hperiod hne

/-- Only the outstanding half-open permit closes or reopens a circuit. -/
theorem CircuitInv.probe_decides (h : CircuitInv c s) (hstep : CircuitSystem.step c s e = some t)
    (hchange : (s.circuit.isClosed = false ∧ t.circuit.isClosed = true) ∨
      (s.circuit.isHalfOpen = true ∧ t.circuit.isOpened = true)) :
    ∃ g id issued, s.circuit = .halfOpen g ∧ s.held id = some issued ∧
      issued.permit = .halfOpen g ∧
        ((e = .succeeded id ∧ t.circuit = .closed 0 (min (g + 1) maxGeneration)) ∨
          ∃ now, e = .failed id now ∧ t.circuit = .opened now (min (g + 1) maxGeneration)) := by
  cases h.move hstep with
  | granted hs | reset _ _ hs | missed _ _ hs | tripped _ _ hs =>
    rw [hs] at hchange
    rcases hchange with ⟨hs, -⟩ | ⟨hs, -⟩ <;> cases hs
  | probed =>
    rcases hchange with ⟨-, ht⟩ | ⟨-, ht⟩ <;> cases ht
  | refused | lost | stale =>
    cases hs : s.circuit <;> simp_all [CacheFallbackCircuitState.isClosed,
      CacheFallbackCircuitState.isHalfOpen, CacheFallbackCircuitState.isOpened]
  | recovered hheld hpermit hs =>
    exact ⟨_, _, _, hs, hheld, hpermit, Or.inl ⟨rfl, rfl⟩⟩
  | reopened hheld hpermit hs =>
    exact ⟨_, _, _, hs, hheld, hpermit, Or.inr ⟨_, rfl, rfl⟩⟩

/-- **The fallback circuit breaker.**  In every run of `allow`, `succeeded` and `failed`
calls with permits that come back late, in any order or never, while generations are
below `u64::MAX`: the permits that fit are those of the current period, and any other
changes nothing; at most one half-open permit of the current generation is outstanding;
a closed circuit opens exactly with the failure that completes `failure_threshold`
failures of its period in a row; `allow` is refused while the circuit is half-open or
open before its cooldown; and only the outstanding half-open permit closes or reopens
the circuit. -/
theorem circuit_breaker {es : List CircuitEvent}
    (hrun : run (CircuitSystem.step c) init es = some s)
    (hgen : s.circuit.generation < maxGeneration) :
    (∀ permit now, permit.fits s.circuit = false →
      CacheFallbackCircuit.succeeded permit s.circuit = s.circuit ∧
        c.failed now permit s.circuit = s.circuit) ∧
      (∀ issued ∈ s.permits,
        issued.permit.fits s.circuit = true ↔ issued.period = s.period) ∧
      s.permits.countP
        (fun issued => issued.live && issued.permit == .halfOpen s.circuit.generation) ≤ 1 ∧
      (∀ e t, CircuitSystem.step c s e = some t → s.circuit.isClosed = true →
        (t.circuit.isOpened = true ↔ ∃ id issued now, e = .failed id now ∧
          s.held id = some issued ∧ issued.period = s.period ∧
            failuresInARow (false :: s.outcomes) = c.failureThreshold)) ∧
      (∀ now, (s.circuit.isHalfOpen = true ∨
          ∃ since g, s.circuit = .opened since g ∧ now - since < c.cooldown) →
        ∃ error, c.allow now s.circuit = (.error error, s.circuit)) ∧
      ∀ e t, CircuitSystem.step c s e = some t →
        ((s.circuit.isClosed = false ∧ t.circuit.isClosed = true) ∨
          (s.circuit.isHalfOpen = true ∧ t.circuit.isOpened = true)) →
        ∃ g id issued, s.circuit = .halfOpen g ∧ s.held id = some issued ∧
          issued.permit = .halfOpen g ∧
            ((e = .succeeded id ∧ t.circuit = .closed 0 (min (g + 1) maxGeneration)) ∨
              ∃ now, e = .failed id now ∧
                t.circuit = .opened now (min (g + 1) maxGeneration)) := by
  have h : CircuitInv c s := (run_circuitInv hrun).2 hgen
  refine ⟨fun permit now hfits => ?_, fun issued hmem => h.fit.fits_iff_period hmem,
    h.halfOpen_unique, fun e t hstep hclosed => h.trips_iff hstep hclosed, fun now hwhy => ?_,
    fun e t hstep hchange => h.probe_decides hstep hchange⟩
  · exact ⟨succeeded_of_not_fits hfits, failed_of_not_fits hfits⟩
  · rcases allow_cases c now s.circuit with
      ⟨n, g, hs, -⟩ | ⟨since, g, hs, hcool, -⟩ | ⟨-, hrefused⟩
    · rw [hs] at hwhy
      rcases hwhy with hwhy | ⟨since, g, hwhy, -⟩ <;> cases hwhy
    · rw [hs] at hwhy
      rcases hwhy with hwhy | ⟨since', g', hwhy, hearly⟩ <;> cases hwhy
      omega
    · exact hrefused

end Invariant

/-- Two failures open this breaker for ten nanoseconds. -/
def twoStrikes : CacheFallbackCircuit where
  failureThreshold := 2
  cooldown := 10
  cooldownMs := 1
  threshold_pos := Nat.zero_lt_two
  threshold_lt := by decide
  cooldown_pos := by decide

/-- Two failures, and a probe after the cooldown. -/
def twoStrikesProbe : CircuitSystem where
  circuit := .halfOpen 1
  permits := [⟨.closed 0, 0, false⟩, ⟨.closed 0, 0, false⟩, ⟨.halfOpen 1, 2, true⟩]
  period := 2

theorem run_twoStrikes : run (CircuitSystem.step twoStrikes) init
    [.allow 0, .failed 0 1, .allow 2, .failed 1 3, .allow 12, .allow 13] = some twoStrikesProbe :=
  rfl

theorem circuit_breaker_twoStrikes :
    twoStrikesProbe.permits.countP
        (fun issued => issued.live && issued.permit == .halfOpen 1) ≤ 1 ∧
      ∃ error, twoStrikes.allow 14 (.halfOpen 1) = (.error error, .halfOpen 1) := by
  obtain ⟨-, -, hunique, -, hrefused, -⟩ := circuit_breaker run_twoStrikes (by decide)
  exact ⟨hunique, hrefused 14 (Or.inl rfl)⟩

end DbProxy
