/-
Runs of guarded step functions.

A component is a step function `step : σ → ε → Option σ` in which the event
carries every choice of the environment (clock readings, which worker moves,
what a broken connection did) and `none` says that the event is not enabled.
A run is a list of events; `run` executes it and is `none` as soon as one
event is not enabled.

* `run_append` / `run_concat` — splitting a run;
* `run_invariant` — what holds initially and survives every step holds at the
  end of every run (`run_invariant_of` restricts the events);
* `StepsMeet` — every event meets a condition on the state in which it happens;
  `run_invariant_when` is the invariant rule for such runs and `checkSteps`
  evaluates it;
* `run_history` — an invariant that also speaks about the events so far;
* `Once` — something held at some time of a run;
* `run_rel` — a reflexive and transitive relation that every step respects
  relates the two ends of every run;
* `run_fresh` — identifiers that are unused before each step that uses them are
  used at most once in a run;
* `exists_of_any` — what a concrete run reaches, by evaluation.
-/
import Mathlib.Data.List.Induction
import Mathlib.Data.List.Nodup
import Mathlib.Logic.Basic
import Mathlib.Order.Defs.Unbundled

namespace StepMachine

variable {σ ε : Type*}

/-- Execute the events from left to right. -/
def run (step : σ → ε → Option σ) : σ → List ε → Option σ
  | s, [] => some s
  | s, e :: es => (step s e).bind fun s' => run step s' es

variable {step : σ → ε → Option σ}

@[simp] theorem run_nil (s : σ) : run step s [] = some s := rfl

theorem run_cons (s : σ) (e : ε) (es : List ε) :
    run step s (e :: es) = (step s e).bind fun s' => run step s' es := rfl

theorem run_cons_eq_some {s t : σ} {e : ε} {es : List ε} :
    run step s (e :: es) = some t ↔ ∃ m, step s e = some m ∧ run step m es = some t := by
  rw [run_cons, Option.bind_eq_some_iff]

theorem run_append {s t : σ} {es fs : List ε} :
    run step s (es ++ fs) = some t ↔ ∃ m, run step s es = some m ∧ run step m fs = some t := by
  induction es generalizing s with
  | nil => simp
  | cons e es ih =>
    rw [List.cons_append, run_cons_eq_some]
    constructor
    · rintro ⟨m, hm, ht⟩
      obtain ⟨m', hm', ht'⟩ := ih.mp ht
      exact ⟨m', run_cons_eq_some.mpr ⟨m, hm, hm'⟩, ht'⟩
    · rintro ⟨m', hm', ht'⟩
      obtain ⟨m, hm, hmm'⟩ := run_cons_eq_some.mp hm'
      exact ⟨m, hm, ih.mpr ⟨m', hmm', ht'⟩⟩

theorem run_concat {s t : σ} {es : List ε} {e : ε} :
    run step s (es ++ [e]) = some t ↔ ∃ m, run step s es = some m ∧ step m e = some t := by
  rw [run_append]
  simp [run_cons_eq_some]

/-- **Invariant rule**, with the events of the run restricted to `Q`. -/
theorem run_invariant_of {P : σ → Prop} {Q : ε → Prop}
    (hstep : ∀ s e t, Q e → P s → step s e = some t → P t) :
    ∀ {es : List ε} {s t : σ}, (∀ e ∈ es, Q e) → P s → run step s es = some t → P t := by
  intro es
  induction es with
  | nil =>
    intro s t _ hs hrun
    rw [run_nil, Option.some_inj] at hrun
    exact hrun ▸ hs
  | cons e es ih =>
    intro s t hQ hs hrun
    obtain ⟨m, hm, ht⟩ := run_cons_eq_some.mp hrun
    have hPm : P m := hstep s e m (hQ e (List.mem_cons_self ..)) hs hm
    exact ih (fun e' he' => hQ e' (List.mem_cons_of_mem _ he')) hPm ht

/-- **Invariant rule.** -/
theorem run_invariant {P : σ → Prop} (hstep : ∀ s e t, P s → step s e = some t → P t)
    {es : List ε} {s t : σ} (hs : P s) (hrun : run step s es = some t) : P t :=
  run_invariant_of (Q := fun _ => True) (fun s e t _ => hstep s e t) (fun _ _ => trivial) hs hrun

/-- Every event of the run meets `C` in the state in which it happens. -/
def StepsMeet (step : σ → ε → Option σ) (C : σ → ε → Prop) (s : σ) (es : List ε) : Prop :=
  ∀ before e after, es = before ++ e :: after → ∀ m, run step s before = some m → C m e

/-- Check every event of a run in the state in which it happens. -/
def checkSteps (step : σ → ε → Option σ) (C : σ → ε → Bool) : σ → List ε → Bool
  | _, [] => true
  | s, e :: es => C s e && (step s e).all fun t => checkSteps step C t es

theorem stepsMeet_of_check {C : σ → ε → Bool} :
    ∀ {es : List ε} {s : σ}, checkSteps step C s es = true →
      StepsMeet step (fun s e => C s e = true) s es := by
  intro es
  induction es with
  | nil =>
    intro s _ before e after hes
    exact absurd hes (by simp)
  | cons e es ih =>
    intro s h before e' after hes m hm
    rw [checkSteps, Bool.and_eq_true] at h
    cases before with
    | nil =>
      rw [run_nil, Option.some_inj] at hm
      rw [List.nil_append, List.cons.injEq] at hes
      rw [← hm, ← hes.1]
      exact h.1
    | cons first before =>
      rw [List.cons_append, List.cons.injEq] at hes
      obtain ⟨rfl, hes⟩ := hes
      obtain ⟨t, ht, hm⟩ := run_cons_eq_some.mp hm
      rw [ht, Option.all_some] at h
      exact ih h.2 before e' after hes m hm

/-- **Invariant rule**, with the events restricted by the states in which they happen. -/
theorem run_invariant_when {P : σ → Prop} {C : σ → ε → Prop}
    (hstep : ∀ s e t, C s e → P s → step s e = some t → P t) :
    ∀ {es : List ε} {s t : σ}, StepsMeet step C s es → P s → run step s es = some t → P t := by
  intro es
  induction es with
  | nil =>
    intro s t _ hs hrun
    rw [run_nil, Option.some_inj] at hrun
    exact hrun ▸ hs
  | cons e es ih =>
    intro s t hmeet hs hrun
    obtain ⟨m, hm, ht⟩ := run_cons_eq_some.mp hrun
    have hPm : P m := hstep s e m (hmeet [] e es rfl s rfl) hs hm
    refine ih (fun before e' after hes m' hm' => ?_) hPm ht
    exact hmeet (e :: before) e' after (by rw [hes, List.cons_append]) m'
      (run_cons_eq_some.mpr ⟨m, hm, hm'⟩)

/-- **Invariant rule with history**: the invariant may depend on the events so far. -/
theorem run_history {P : List ε → σ → Prop} {s : σ} (hinit : P [] s)
    (hstep : ∀ es m e t, run step s es = some m → P es m → step m e = some t → P (es ++ [e]) t) :
    ∀ {es : List ε} {t : σ}, run step s es = some t → P es t := by
  intro es
  induction es using List.reverseRecOn with
  | nil =>
    intro t hrun
    rw [run_nil, Option.some_inj] at hrun
    exact hrun ▸ hinit
  | append_singleton es e ih =>
    intro t hrun
    obtain ⟨m, hm, ht⟩ := run_concat.mp hrun
    exact hstep es m e t hm (ih hm) ht

/-- At some time of the run the state satisfied `p`. -/
def Once (step : σ → ε → Option σ) (s : σ) (es : List ε) (p : σ → Prop) : Prop :=
  ∃ es' t, es' <+: es ∧ run step s es' = some t ∧ p t

theorem once_of_run {s t : σ} {es : List ε} {p : σ → Prop} (h : run step s es = some t)
    (hp : p t) : Once step s es p := ⟨es, t, List.prefix_rfl, h, hp⟩

theorem Once.append {s : σ} {es : List ε} {p : σ → Prop} (h : Once step s es p) (fs : List ε) :
    Once step s (es ++ fs) p := by
  obtain ⟨es', t, hprefix, hrun, hp⟩ := h
  exact ⟨es', t, hprefix.trans (List.prefix_append es fs), hrun, hp⟩

theorem Once.mono {s : σ} {es : List ε} {p p' : σ → Prop} (h : Once step s es p)
    (hp : ∀ t, p t → p' t) : Once step s es p' := by
  obtain ⟨es', t, hprefix, hrun, ht⟩ := h
  exact ⟨es', t, hprefix, hrun, hp t ht⟩

/-- A relation that every step respects relates the two ends of a run, under an
invariant `P` of the run. -/
theorem run_rel {P : σ → Prop} {R : σ → σ → Prop} (hrefl : ∀ s, R s s)
    (htrans : ∀ a b c, R a b → R b c → R a c)
    (hinv : ∀ s e t, P s → step s e = some t → P t)
    (hstep : ∀ s e t, P s → step s e = some t → R s t) :
    ∀ {es : List ε} {s t : σ}, P s → run step s es = some t → R s t := by
  intro es
  induction es with
  | nil =>
    intro s t _ hrun
    rw [run_nil, Option.some_inj] at hrun
    exact hrun ▸ hrefl s
  | cons e es ih =>
    intro s t hs hrun
    obtain ⟨m, hm, ht⟩ := run_cons_eq_some.mp hrun
    exact htrans _ _ _ (hstep s e m hs hm) (ih (hinv s e m hs hm) ht)

/-- **Fresh identifiers.**  If every step takes distinct identifiers that were unused
and marks them used, then no identifier is taken twice in a run. -/
theorem run_fresh {κ : Type*} {ids : ε → List κ} {U : σ → κ → Prop}
    (hnodup : ∀ s e t, step s e = some t → (ids e).Nodup)
    (hfresh : ∀ s e t, step s e = some t → ∀ k ∈ ids e, ¬ U s k)
    (hused : ∀ s e t, step s e = some t → ∀ k, U s k ∨ k ∈ ids e → U t k) :
    ∀ {es : List ε} {s t : σ}, run step s es = some t →
      (es.flatMap ids).Nodup ∧ ∀ k ∈ es.flatMap ids, ¬ U s k := by
  intro es
  induction es with
  | nil =>
    intro s t _
    simp
  | cons e es ih =>
    intro s t hrun
    obtain ⟨m, hm, ht⟩ := run_cons_eq_some.mp hrun
    obtain ⟨hrest, hunused⟩ := ih ht
    rw [List.flatMap_cons]
    refine ⟨List.nodup_append.mpr ⟨hnodup s e m hm, hrest, ?_⟩, ?_⟩
    · -- what this step takes is used afterwards, so no later step takes it
      rintro k hk k' hk' rfl
      exact hunused k hk' (hused s e m hm k (Or.inr hk))
    · intro k hk
      rcases List.mem_append.mp hk with hk | hk
      · exact hfresh s e m hm k hk
      · exact fun hs => hunused k hk (hused s e m hm k (Or.inl hs))

/-- Read a decidable fact about the end of a run off its evaluation. -/
theorem exists_of_any {o : Option σ} {p : σ → Prop} [DecidablePred p]
    (h : o.any (fun s => decide (p s)) = true) : ∃ s, o = some s ∧ p s := by
  cases o with
  | none => exact absurd h (by simp)
  | some s => exact ⟨s, rfl, by simpa using h⟩

end StepMachine
