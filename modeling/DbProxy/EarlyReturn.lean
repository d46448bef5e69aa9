/-
Imperative code with early returns.

In `EStateM` an error keeps the state reached so far.  The run lemmas below
execute a `do` block one statement at a time; `bind_run_eq_ok` and
`bind_run_eq_error` take a finished run apart.  `Keeps R x` says that `x`
relates its first and last state by `R`, however it ends.  `Yields x s P a t` is
the whole success of `x` from `s`: it succeeds exactly when `P` holds, with `a`
and in `t`; `Yields.bind` and `yields_forM` compose it.
-/
import Mathlib.Logic.Basic

namespace EarlyReturn

universe u

variable {ε σ α β : Type u}

theorem bind_run_ok {x : EStateM ε σ α} {f : α → EStateM ε σ β} {s t : σ} {a : α}
    (h : x.run s = .ok a t) : (x >>= f).run s = (f a).run t := by
  rw [EStateM.run_bind, h]

theorem bind_run_error {x : EStateM ε σ α} {f : α → EStateM ε σ β} {s t : σ} {e : ε}
    (h : x.run s = .error e t) : (x >>= f).run s = .error e t := by
  rw [EStateM.run_bind, h]

theorem get_bind (f : σ → EStateM ε σ β) (s : σ) : (get >>= f).run s = (f s).run s := rfl

theorem modify_bind (g : σ → σ) (f : PUnit → EStateM ε σ β) (s : σ) :
    (modify g >>= f).run s = (f ⟨⟩).run (g s) := rfl

theorem pure_bind_run (a : α) (f : α → EStateM ε σ β) (s : σ) :
    (pure a >>= f).run s = (f a).run s := rfl

theorem bind_run_eq_ok {x : EStateM ε σ α} {f : α → EStateM ε σ β} {s t : σ} {b : β} :
    (x >>= f).run s = .ok b t ↔ ∃ a m, x.run s = .ok a m ∧ (f a).run m = .ok b t := by
  rw [EStateM.run_bind]
  cases x.run s with
  | ok a m => simp [and_assoc]
  | error e m => simp

theorem bind_run_eq_error {x : EStateM ε σ α} {f : α → EStateM ε σ β} {s t : σ} {e : ε} :
    (x >>= f).run s = .error e t ↔
      x.run s = .error e t ∨ ∃ a m, x.run s = .ok a m ∧ (f a).run m = .error e t := by
  rw [EStateM.run_bind]
  cases x.run s with
  | ok a m => simp [and_assoc]
  | error e m => simp

section Keeps

variable {R : σ → σ → Prop}

/-- The state in which a run stops. -/
def lastState : EStateM.Result ε σ α → σ
  | .ok _ s => s
  | .error _ s => s

def Keeps (R : σ → σ → Prop) (x : EStateM ε σ α) : Prop := ∀ s, R s (lastState (x.run s))

theorem Keeps.of_ok {x : EStateM ε σ α} {s t : σ} {a : α} (hx : Keeps R x)
    (h : x.run s = .ok a t) : R s t := by
  have := hx s
  rwa [h] at this

theorem Keeps.of_error {x : EStateM ε σ α} {s t : σ} {e : ε} (hx : Keeps R x)
    (h : x.run s = .error e t) : R s t := by
  have := hx s
  rwa [h] at this

theorem keeps_pure (hrefl : ∀ s, R s s) (a : α) : Keeps R (pure a : EStateM ε σ α) := hrefl

theorem keeps_throw (hrefl : ∀ s, R s s) (e : ε) : Keeps R (throw e : EStateM ε σ α) := hrefl

theorem keeps_modify {g : σ → σ} (hg : ∀ s, R s (g s)) :
    Keeps R (modify g : EStateM ε σ PUnit) := hg

theorem keeps_get_bind {f : σ → EStateM ε σ β} (hf : ∀ s, Keeps R (f s)) :
    Keeps R (get >>= f) := fun s => hf s s

theorem keeps_bind (htrans : ∀ a b c, R a b → R b c → R a c) {x : EStateM ε σ α}
    {f : α → EStateM ε σ β} (hx : Keeps R x) (hf : ∀ a, Keeps R (f a)) : Keeps R (x >>= f) := by
  intro s
  rw [EStateM.run_bind]
  have hs := hx s
  cases hrun : x.run s with
  | ok a m =>
    rw [hrun] at hs
    exact htrans _ _ _ hs (hf a m)
  | error e m =>
    rw [hrun] at hs
    exact hs

end Keeps

section Yields

variable {P Q : Prop} {x : EStateM ε σ α} {f : α → EStateM ε σ β} {s t v : σ} {a : α} {b : β}

/-- Started in `s`, the program succeeds exactly when `P` holds, with `a` and in `t`. -/
def Yields (x : EStateM ε σ α) (s : σ) (P : Prop) (a : α) (t : σ) : Prop :=
  ∀ a' t', x.run s = .ok a' t' ↔ P ∧ a' = a ∧ t' = t

theorem Yields.run_eq (h : Yields x s P a t) (hP : P) : x.run s = .ok a t :=
  (h a t).mpr ⟨hP, rfl, rfl⟩

theorem Yields.run_error (h : Yields x s P a t) (hP : ¬ P) : ∃ e m, x.run s = .error e m := by
  cases hrun : x.run s with
  | ok a' t' => exact absurd ((h a' t').mp hrun).1 hP
  | error e m => exact ⟨e, m, rfl⟩

theorem yields_of_run_eq (h : x.run s = .ok a t) (hP : P) : Yields x s P a t := by
  intro a' t'
  rw [h, EStateM.Result.ok.injEq, and_iff_right hP]
  exact and_congr eq_comm eq_comm

theorem yields_pure (a : α) (s : σ) (hP : P) : Yields (pure a : EStateM ε σ α) s P a s :=
  yields_of_run_eq rfl hP

theorem yields_set (s t : σ) (hP : P) : Yields (set t : EStateM ε σ PUnit) s P ⟨⟩ t :=
  yields_of_run_eq rfl hP

theorem yields_modify (g : σ → σ) (s : σ) (hP : P) :
    Yields (modify g : EStateM ε σ PUnit) s P ⟨⟩ (g s) := yields_of_run_eq rfl hP

theorem yields_get_bind {f : σ → EStateM ε σ β} (h : Yields (f s) s P b t) :
    Yields (get >>= f) s P b t := h

/-- A failure never succeeds. -/
theorem yields_throw {e : ε} (h : ¬ P) : Yields (throw e : EStateM ε σ α) s P a t := by
  intro a' t'
  constructor
  · intro hrun
    cases hrun
  · rintro ⟨hP, -, -⟩
    exact absurd hP h

theorem yields_ofExcept {y : Except ε α} (h : ∀ a', y = .ok a' ↔ P ∧ a' = a) :
    Yields (MonadExcept.ofExcept y : EStateM ε σ α) s P a s := by
  cases y with
  | error e =>
    refine yields_throw fun hP => ?_
    cases (h a).mpr ⟨hP, rfl⟩
  | ok a' =>
    obtain ⟨hP, rfl⟩ := (h a').mp rfl
    exact yields_pure a' s hP

/-- The first step needs only what the whole needs. -/
theorem Yields.bind (hx : Yields x s P a t) (hPQ : Q → P) (hf : P → Yields (f a) t Q b v) :
    Yields (x >>= f) s Q b v := by
  intro b' v'
  rw [bind_run_eq_ok]
  constructor
  · rintro ⟨a', t', hrun, hrest⟩
    obtain ⟨hP, rfl, rfl⟩ := (hx a' t').mp hrun
    exact (hf hP b' v').mp hrest
  · intro hrest
    exact ⟨a, t, hx.run_eq (hPQ hrest.1), (hf (hPQ hrest.1) b' v').mpr hrest⟩

theorem Yields.congr (h : Yields x s P a t) (hPQ : P ↔ Q) {a' : α} {t' : σ} (ha : Q → a = a')
    (ht : Q → t = t') : Yields x s Q a' t' := by
  intro a'' t''
  rw [h a'' t'', hPQ]
  constructor
  · rintro ⟨hQ, rfl, rfl⟩
    exact ⟨hQ, ha hQ, ht hQ⟩
  · rintro ⟨hQ, rfl, rfl⟩
    exact ⟨hQ, (ha hQ).symm, (ht hQ).symm⟩

/-- An early return. -/
theorem yields_unless {c : Prop} [Decidable c] {e : ε} {z : α → EStateM ε σ β}
    {w : EStateM ε σ β} (hP : P → ¬ c) (h : ¬ c → Yields w s P b t) :
    Yields (if c then throw e >>= z else w) s P b t := by
  by_cases hc : c
  · rw [if_pos hc]
    exact yields_throw fun hp => hP hp hc
  · rw [if_neg hc]
    exact h hc

/-- `cond` holds for every element in the state that the ones before it leave. -/
def AllAlong (cond : σ → α → Prop) (post : σ → α → σ) : σ → List α → Prop
  | _, [] => True
  | s, a :: rest => cond s a ∧ AllAlong cond post (post s a) rest

/-- A loop. -/
theorem yields_forM {f : α → EStateM ε σ PUnit} {cond : σ → α → Prop} {post : σ → α → σ}
    {l : List α} (h : ∀ s, ∀ a ∈ l, Yields (f a) s (cond s a) ⟨⟩ (post s a)) (s : σ) :
    Yields (l.forM f) s (AllAlong cond post s l) ⟨⟩ (l.foldl post s) := by
  induction l generalizing s with
  | nil => exact yields_pure PUnit.unit s trivial
  | cons a rest ih =>
    have hrest := ih (fun s b hb => h s b (List.mem_cons_of_mem _ hb)) (post s a)
    exact (h s a (List.mem_cons_self ..)).bind And.left fun ha =>
      hrest.congr (and_iff_right ha).symm (fun _ => rfl) fun _ => rfl

/-- Conditions that the earlier rounds do not change. -/
theorem allAlong_iff {cond : σ → α → Prop} {post : σ → α → σ} {l : List α}
    (hstable : l.Pairwise fun a b => ∀ s, cond (post s a) b ↔ cond s b) (s : σ) :
    AllAlong cond post s l ↔ ∀ a ∈ l, cond s a := by
  induction l generalizing s with
  | nil => simp [AllAlong]
  | cons a rest ih =>
    rw [List.pairwise_cons] at hstable
    rw [AllAlong, ih hstable.2, List.forall_mem_cons]
    exact and_congr_right' (forall₂_congr fun b hb => hstable.1 b hb s)

end Yields

end EarlyReturn
