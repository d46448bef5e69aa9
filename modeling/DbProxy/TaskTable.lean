/-
Tasks that work on a shared state, one action of one task at a time.

`act` says what an action does to the shared state and to the task that takes it; the
others keep their states, and tasks may join at any time.

* `step_cases`, `step_act` — what a step can do;
* `run_total` — a quantity that every action moves between the shared state and its task
  has the same total at the end of every run;
* `Counted` — a counter in the shared state of what the tasks hold.
-/
import Mathlib.Algebra.BigOperators.Group.List.Basic
import Mathlib.Algebra.GroupWithZero.Nat
import DbProxy.StepMachine

namespace TaskTable

/-- The shared state, and the tasks in the order in which they joined. -/
structure Table (σ τ : Type*) where
  shared : σ
  tasks : List τ

inductive TaskEvent (α : Type*)
  /-- A task joins. -/
  | spawn
  | act (task : ℕ) (action : α)

variable {σ τ α M : Type*}

section

variable (start : τ) (act : σ → τ → α → Option (σ × τ))

def step (s : Table σ τ) : TaskEvent α → Option (Table σ τ)
  | .spawn => some { s with tasks := s.tasks ++ [start] }
  | .act i action =>
    s.tasks[i]?.bind fun task => (act s.shared task action).map fun after =>
      { shared := after.1, tasks := s.tasks.set i after.2 }

end

variable {start : τ} {act : σ → τ → α → Option (σ × τ)} {s t : Table σ τ} {e : TaskEvent α}

theorem step_cases (h : step start act s e = some t) :
    (e = .spawn ∧ t = { s with tasks := s.tasks ++ [start] }) ∨
    ∃ i action task shared' task', e = .act i action ∧ s.tasks[i]? = some task ∧
      act s.shared task action = some (shared', task') ∧
      t = { shared := shared', tasks := s.tasks.set i task' } := by
  cases e with
  | spawn => exact Or.inl ⟨rfl, (Option.some_inj.mp h).symm⟩
  | act i action =>
    obtain ⟨task, htask, h⟩ := Option.bind_eq_some_iff.mp h
    obtain ⟨⟨shared', task'⟩, hact, rfl⟩ := Option.map_eq_some_iff.mp h
    exact Or.inr ⟨i, action, task, shared', task', rfl, htask, hact, rfl⟩

theorem step_act {i : ℕ} {action : α} {task task' : τ} {shared' : σ}
    (htask : s.tasks[i]? = some task) (hact : act s.shared task action = some (shared', task')) :
    step start act s (.act i action) =
      some { shared := shared', tasks := s.tasks.set i task' } := by
  rw [step, htask, Option.bind_some, hact, Option.map_some]

variable [AddCommMonoid M]

/-- What the shared state has, and what the tasks hold. -/
def total (weight : σ → M) (load : τ → M) (s : Table σ τ) : M :=
  weight s.shared + (s.tasks.map load).sum

/-- One task changes; the sum over the others is the same. -/
theorem exists_sum_others {l : List τ} {i : ℕ} {task : τ} (h : l[i]? = some task)
    (load : τ → M) :
    ∃ others, (l.map load).sum = load task + others ∧
      ∀ task', ((l.set i task').map load).sum = load task' + others := by
  induction l generalizing i with
  | nil => exact absurd h (by simp)
  | cons first l ih =>
    cases i with
    | zero =>
      rw [List.getElem?_cons_zero, Option.some_inj] at h
      refine ⟨(l.map load).sum, ?_, fun task' => ?_⟩
      · rw [List.map_cons, List.sum_cons, h]
      · rw [List.set_cons_zero, List.map_cons, List.sum_cons]
    | succ i =>
      rw [List.getElem?_cons_succ] at h
      obtain ⟨others, hsum, hset⟩ := ih h
      refine ⟨load first + others, ?_, fun task' => ?_⟩
      · rw [List.map_cons, List.sum_cons, hsum, add_left_comm]
      · rw [List.set_cons_succ, List.map_cons, List.sum_cons, hset, add_left_comm]

theorem step_total (weight : σ → M) (load : τ → M) (hstart : load start = 0)
    (hact : ∀ shared task action shared' task', act shared task action = some (shared', task') →
      weight shared' + load task' = weight shared + load task)
    (h : step start act s e = some t) : total weight load t = total weight load s := by
  rcases step_cases h with ⟨-, rfl⟩ | ⟨i, action, task, shared', task', -, htask, htaken, rfl⟩
  · rw [total, List.map_append, List.sum_append, List.map_singleton, List.sum_singleton, hstart,
      add_zero, total]
  · obtain ⟨others, hsum, hset⟩ := exists_sum_others htask load
    calc weight shared' + ((s.tasks.set i task').map load).sum
        = weight shared' + load task' + others := by rw [hset, add_assoc]
      _ = weight s.shared + load task + others := by rw [hact _ _ _ _ _ htaken]
      _ = weight s.shared + (s.tasks.map load).sum := by rw [hsum, add_assoc]

/-- **Conservation.**  What no action creates or loses has the same total in every run. -/
theorem run_total (weight : σ → M) (load : τ → M) (hstart : load start = 0)
    (hact : ∀ shared task action shared' task', act shared task action = some (shared', task') →
      weight shared' + load task' = weight shared + load task)
    {events : List (TaskEvent α)} (h : StepMachine.run (step start act) s events = some t) :
    total weight load t = total weight load s :=
  StepMachine.run_invariant (P := fun u => total weight load u = total weight load s)
    (fun _ _ _ hm hstep => (step_total weight load hstart hact hstep).trans hm) rfl h

/-! ### Counters -/

section Counted

/-- The shared state counts what the tasks hold. -/
def Counted (weight : σ → ℕ) (load : τ → ℕ) (s : Table σ τ) : Prop :=
  weight s.shared = (s.tasks.map load).sum

variable {weight : σ → ℕ} {load : τ → ℕ} {i j : ℕ} {task task' : τ} {shared' : σ}

theorem Counted.spawn (hs : Counted weight load s) (hstart : load start = 0) :
    Counted weight load { s with tasks := s.tasks ++ [start] } := by
  rw [Counted, List.map_append, List.sum_append, List.map_singleton, List.sum_singleton, hstart,
    Nat.add_zero]
  exact hs

theorem Counted.moved (hs : Counted weight load s) (htask : s.tasks[i]? = some task)
    (hact : weight shared' + load task = weight s.shared + load task') :
    Counted weight load { shared := shared', tasks := s.tasks.set i task' } := by
  obtain ⟨others, hsum, hset⟩ := exists_sum_others htask load
  have hs : weight s.shared = (s.tasks.map load).sum := hs
  show weight shared' = ((s.tasks.set i task').map load).sum
  rw [hset]
  omega

theorem load_le_sum {l : List τ} (h : l[i]? = some task) (load : τ → ℕ) :
    load task ≤ (l.map load).sum := by
  obtain ⟨others, hsum, -⟩ := exists_sum_others h load
  omega

theorem add_load_le_sum {l : List τ} (hi : l[i]? = some task) (hj : l[j]? = some task')
    (hij : i ≠ j) (load : τ → ℕ) : load task + load task' ≤ (l.map load).sum := by
  induction l generalizing i j with
  | nil => exact absurd hi (by simp)
  | cons first l ih =>
    rw [List.map_cons, List.sum_cons]
    cases i with
    | zero =>
      cases j with
      | zero => exact absurd rfl hij
      | succ j =>
        rw [List.getElem?_cons_zero, Option.some_inj] at hi
        rw [List.getElem?_cons_succ] at hj
        exact Nat.add_le_add (hi ▸ Nat.le_refl _) (load_le_sum hj load)
    | succ i =>
      rw [List.getElem?_cons_succ] at hi
      cases j with
      | zero =>
        rw [List.getElem?_cons_zero, Option.some_inj] at hj
        rw [Nat.add_comm]
        exact Nat.add_le_add (hj ▸ Nat.le_refl _) (load_le_sum hi load)
      | succ j =>
        rw [List.getElem?_cons_succ] at hj
        have hrest := ih hi hj fun h => hij (congrArg _ h)
        omega

end Counted

end TaskTable
