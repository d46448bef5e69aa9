/-
Validation in `Except`: what a sequence of checks accepts.

`scanDistinct` is the loop that validates a list and keeps the keys seen so far
in a hash set; `scanDistinct_eq_ok` says what it accepts.  `mapM_eq_ok` does so
for a `collect` into a result and `forM_eq_ok` for a loop of checks.  `Returns` is
the whole behaviour of a check that passes on a known value, and composes.  `Ends` says
what holds of the value and what of the error, and composes too.
-/
import Mathlib.Data.List.Forall2
import Mathlib.Data.List.Nodup

namespace Checks

universe u v

theorem bind_eq_ok {ε : Type u} {α β : Type v} {x : Except ε α} {f : α → Except ε β} {b : β} :
    (x >>= f) = .ok b ↔ ∃ a, x = .ok a ∧ f a = .ok b := by
  cases x with
  | error e => simp [bind, Except.bind]
  | ok a => simp [bind, Except.bind]

theorem bind_eq_error {ε : Type u} {α β : Type v} {x : Except ε α} {f : α → Except ε β} {e : ε} :
    (x >>= f) = .error e ↔ x = .error e ∨ ∃ a, x = .ok a ∧ f a = .error e := by
  cases x with
  | error e' => simp [bind, Except.bind]
  | ok a => simp [bind, Except.bind]

/-- A loop fails only with what its body fails with. -/
theorem foldlM_error {ε : Type u} {α : Type*} {β : Type v} {P : ε → Prop}
    {f : β → α → Except ε β} (hf : ∀ b a e, f b a = .error e → P e) :
    ∀ {l : List α} {b : β} {e : ε}, l.foldlM f b = .error e → P e := by
  intro l
  induction l with
  | nil =>
    intro b e h
    cases h
  | cons a l ih =>
    intro b e h
    rw [List.foldlM_cons] at h
    rcases bind_eq_error.mp h with h | ⟨b', -, h⟩
    · exact hf b a e h
    · exact ih h

theorem ok_bind {ε : Type u} {α β : Type v} (a : α) (f : α → Except ε β) :
    (Except.ok a >>= f) = f a := rfl

theorem mapError_eq_ok {ε ε' : Type u} {α : Type v} {f : ε → ε'} {x : Except ε α} {a : α} :
    x.mapError f = .ok a ↔ x = .ok a := by
  cases x <;> simp [Except.mapError]

/-- A list passes when every element does. -/
theorem mapM_eq_ok {ε : Type u} {α : Type*} {β : Type v} {f : α → Except ε β} :
    ∀ {l : List α} {r : List β}, l.mapM f = .ok r ↔ List.Forall₂ (fun a b => f a = .ok b) l r
  | [], r => by
    rw [List.mapM_nil, List.forall₂_nil_left_iff]
    exact ⟨fun h => (Except.ok.inj h).symm, fun h => h ▸ rfl⟩
  | a :: l, r => by
    rw [List.mapM_cons, bind_eq_ok, List.forall₂_cons_left_iff]
    constructor
    · rintro ⟨b, hb, h⟩
      obtain ⟨bs, hbs, h⟩ := bind_eq_ok.mp h
      exact ⟨b, bs, hb, mapM_eq_ok.mp hbs, (Except.ok.inj h).symm⟩
    · rintro ⟨b, bs, hb, hbs, rfl⟩
      exact ⟨b, hb, bind_eq_ok.mpr ⟨bs, mapM_eq_ok.mpr hbs, rfl⟩⟩

/-- A check of every element. -/
theorem forM_eq_ok {ε : Type u} {α : Type*} {f : α → Except ε PUnit.{v + 1}} {l : List α} :
    l.forM f = .ok ⟨⟩ ↔ ∀ a ∈ l, f a = .ok ⟨⟩ := by
  induction l with
  | nil => simp [List.forM, pure, Except.pure]
  | cons a l ih =>
    rw [List.forM, bind_eq_ok, List.forall_mem_cons]
    constructor
    · rintro ⟨⟨⟩, ha, hl⟩
      exact ⟨ha, ih.mp hl⟩
    · rintro ⟨ha, hl⟩
      exact ⟨⟨⟩, ha, ih.mpr hl⟩

theorem exists_of_forall₂_right {α β : Type*} {R : α → β → Prop} {l : List α} {r : List β}
    (h : List.Forall₂ R l r) {b : β} (hb : b ∈ r) : ∃ a ∈ l, R a b := by
  induction h with
  | nil => cases hb
  | cons hab _ ih =>
    rcases List.mem_cons.mp hb with rfl | hb
    · exact ⟨_, List.mem_cons_self .., hab⟩
    · obtain ⟨a, ha, hR⟩ := ih hb
      exact ⟨a, List.mem_cons_of_mem _ ha, hR⟩

theorem exists_forall₂ {α β : Type*} {R : α → β → Prop} :
    ∀ {l : List α}, (∀ a ∈ l, ∃ b, R a b) → ∃ r, List.Forall₂ R l r
  | [], _ => ⟨[], .nil⟩
  | a :: l, h => by
    obtain ⟨b, hb⟩ := h a (List.mem_cons_self ..)
    obtain ⟨r, hr⟩ := exists_forall₂ fun a' ha' => h a' (List.mem_cons_of_mem _ ha')
    exact ⟨b :: r, .cons hb hr⟩

section Returns

variable {ε : Type u} {α β : Type v} {x : Except ε α} {f : α → Except ε β} {P Q : Prop}
  {v : α} {w : β}

/-- `x` returns `v` under the condition `P` and fails without it. -/
def Returns (x : Except ε α) (P : Prop) (v : α) : Prop := ∀ a, x = .ok a ↔ P ∧ a = v

theorem returns_pure (v : α) : Returns (pure v : Except ε α) True v := by
  intro a
  show Except.ok v = .ok a ↔ _
  rw [Except.ok.injEq, true_and]
  exact eq_comm

theorem Returns.bind (hx : Returns x P v) (hf : Returns (f v) Q w) :
    Returns (x >>= f) (P ∧ Q) w := by
  intro b
  rw [bind_eq_ok, and_assoc]
  constructor
  · rintro ⟨a, ha, hb⟩
    obtain ⟨hP, rfl⟩ := (hx a).mp ha
    exact ⟨hP, (hf b).mp hb⟩
  · rintro ⟨hP, hQ⟩
    exact ⟨v, (hx v).mpr ⟨hP, rfl⟩, (hf b).mpr hQ⟩

/-- The first step asks only what the whole asks. -/
theorem Returns.bindOf (hx : Returns x P v) (hQP : Q → P) (hf : P → Returns (f v) Q w) :
    Returns (x >>= f) Q w := by
  intro b
  rw [bind_eq_ok]
  constructor
  · rintro ⟨a, ha, hb⟩
    obtain ⟨hP, rfl⟩ := (hx a).mp ha
    exact (hf hP b).mp hb
  · intro hb
    exact ⟨v, (hx v).mpr ⟨hQP hb.1, rfl⟩, (hf (hQP hb.1) b).mpr hb⟩

theorem returns_ok (v : α) (hP : P) : Returns (Except.ok v : Except ε α) P v := by
  intro a
  rw [Except.ok.injEq, and_iff_right hP]
  exact eq_comm

theorem returns_error {e : ε} (hP : ¬ P) : Returns (Except.error e : Except ε α) P v := by
  intro a
  exact ⟨fun h => (by cases h), fun h => absurd h.1 hP⟩

/-- An early return. -/
theorem returns_unless {c : Prop} [Decidable c] {e : ε} {z : α → Except ε β} {y : Except ε β}
    (hQ : Q → ¬ c) (h : ¬ c → Returns y Q w) :
    Returns (if c then Except.error e >>= z else y) Q w := by
  by_cases hc : c
  · rw [if_pos hc]
    exact returns_error fun hq => hQ hq hc
  · rw [if_neg hc]
    exact h hc

/-- A check of every element. -/
theorem returns_forM {ι : Type*} {g : ι → Except ε PUnit} {R : ι → Prop} {l : List ι}
    (h : ∀ i ∈ l, g i = .ok ⟨⟩ ↔ R i) : Returns (l.forM g) (∀ i ∈ l, R i) ⟨⟩ := by
  intro a
  obtain ⟨⟩ := a
  rw [forM_eq_ok, and_iff_left rfl]
  exact forall₂_congr h

/-- A first step that does not fail. -/
theorem Returns.andThen (hx : Returns x True v) (hf : Returns (f v) Q w) :
    Returns (x >>= f) Q w := by
  intro b
  rw [hx.bind hf b, true_and]

theorem Returns.map {g : α → β} (hx : Returns x P v) :
    Returns (x >>= fun a => pure (g a)) P (g v) := by
  intro b
  rw [hx.bind (f := fun a => pure (g a)) (returns_pure (g v)) b, and_true]

theorem Returns.congr (h : Returns x P v) (hPQ : P ↔ Q) : Returns x Q v := by
  intro a
  rw [h a, hPQ]

theorem Returns.cast (h : Returns x P v) {v' : α} (hv : v = v') : Returns x P v' := hv ▸ h

theorem Returns.exists_ok (h : Returns x P v) : (∃ a, x = .ok a) ↔ P := by
  constructor
  · rintro ⟨a, ha⟩
    exact ((h a).mp ha).1
  · intro hP
    exact ⟨v, (h v).mpr ⟨hP, rfl⟩⟩

/-- A list passes when every element does, with the list of the results. -/
theorem returns_mapM_map {ι κ : Type*} {f : κ → Except ε β} {g : ι → κ} {k : ι → β}
    {P : ι → Prop} {l : List ι} (h : ∀ i ∈ l, Returns (f (g i)) (P i) (k i)) :
    Returns ((l.map g).mapM f) (∀ i ∈ l, P i) (l.map k) := by
  induction l with
  | nil => exact (returns_pure []).congr (by simp)
  | cons i l ih =>
    have hrest := ih fun j hj => h j (List.mem_cons_of_mem _ hj)
    rw [List.map_cons, List.map_cons, List.mapM_cons, List.forall_mem_cons]
    exact (h i (List.mem_cons_self ..)).bind (hrest.map (g := fun r => k i :: r))

end Returns

variable {ε α κ : Type*} [DecidableEq κ]

/-- Check every element: `before` its key is looked up in the set of seen keys
and `after` it was added. -/
def scanDistinct (key : α → κ) (before : α → Except ε Unit) (duplicate : κ → ε)
    (after : α → Except ε Unit) (seen : List κ) : List α → Except ε Unit
  | [] => .ok ()
  | a :: rest => do
    before a
    if key a ∈ seen then .error (duplicate (key a))
    else do
      after a
      scanDistinct key before duplicate after (key a :: seen) rest

/-- The loop accepts exactly the lists whose elements pass both checks and whose
keys are pairwise distinct and unseen. -/
theorem scanDistinct_eq_ok {key : α → κ} {before after : α → Except ε Unit} {duplicate : κ → ε} :
    ∀ {l : List α} {seen : List κ},
      scanDistinct key before duplicate after seen l = .ok () ↔
        (∀ a ∈ l, before a = .ok () ∧ after a = .ok () ∧ key a ∉ seen) ∧ (l.map key).Nodup := by
  intro l
  induction l with
  | nil =>
    intro seen
    simp [scanDistinct]
  | cons a rest ih =>
    intro seen
    rw [scanDistinct, bind_eq_ok, List.map_cons, List.nodup_cons]
    constructor
    · rintro ⟨_, hbefore, h⟩
      by_cases hmem : key a ∈ seen
      · rw [if_pos hmem] at h
        exact absurd h (by simp)
      · rw [if_neg hmem, bind_eq_ok] at h
        obtain ⟨_, hafter, h⟩ := h
        obtain ⟨hrest, hnd⟩ := ih.mp h
        refine ⟨?_, ?_, hnd⟩
        · intro b hb
          rcases List.mem_cons.mp hb with rfl | hb
          · exact ⟨hbefore, hafter, hmem⟩
          · obtain ⟨h1, h2, h3⟩ := hrest b hb
            exact ⟨h1, h2, fun hin => h3 (List.mem_cons_of_mem _ hin)⟩
        · intro hin
          obtain ⟨b, hb, hkey⟩ := List.mem_map.mp hin
          exact (hrest b hb).2.2 (hkey ▸ List.mem_cons_self ..)
    · rintro ⟨hall, hnew, hnd⟩
      obtain ⟨hbefore, hafter, hmem⟩ := hall a (List.mem_cons_self ..)
      refine ⟨(), hbefore, ?_⟩
      rw [if_neg hmem, bind_eq_ok]
      refine ⟨(), hafter, ih.mpr ⟨fun b hb => ?_, hnd⟩⟩
      obtain ⟨h1, h2, h3⟩ := hall b (List.mem_cons_of_mem _ hb)
      refine ⟨h1, h2, fun hin => ?_⟩
      rcases List.mem_cons.mp hin with hkey | hin
      · exact hnew (List.mem_map.mpr ⟨b, hb, hkey⟩)
      · exact h3 hin

section Ends

variable {ε ε' : Type u} {α β : Type v} {good : α → Prop} {bad : ε → Prop}

/-- `x` returns a value that is `good`, or fails with an error that is `bad`. -/
def Ends (good : α → Prop) (bad : ε → Prop) : Except ε α → Prop
  | .ok a => good a
  | .error e => bad e

theorem Ends.bind {x : Except ε α} {f : α → Except ε β} {good' : β → Prop} (hx : Ends good bad x)
    (hf : ∀ a, good a → Ends good' bad (f a)) : Ends good' bad (x >>= f) := by
  cases x with
  | error e => exact hx
  | ok a => exact hf a hx

theorem Ends.mono {x : Except ε α} {good' : α → Prop} (hx : Ends good bad x)
    (h : ∀ a, good a → good' a) : Ends good' bad x := by
  cases x with
  | error e => exact hx
  | ok a => exact h a hx

theorem Ends.mapError {x : Except ε α} {f : ε → ε'} {bad' : ε' → Prop}
    (hx : Ends good (fun e => bad' (f e)) x) : Ends good bad' (x.mapError f) := by
  cases x with
  | error e => exact hx
  | ok a => exact hx

/-- A check that may fail with one error. -/
theorem ends_check {c : Prop} [Decidable c] {e : ε} {a : α} (he : c → bad e) (ha : ¬ c → good a) :
    Ends good bad (if c then .error e else .ok a) := by
  by_cases hc : c
  · rw [if_pos hc]
    exact he hc
  · rw [if_neg hc]
    exact ha hc

/-- The same, before the rest of a program. -/
theorem ends_unless {c : Prop} [Decidable c] {e : ε} {z : β → Except ε α} {y : Except ε α}
    (he : c → bad e) (hy : ¬ c → Ends good bad y) :
    Ends good bad (if c then Except.error e >>= z else y) := by
  by_cases hc : c
  · rw [if_pos hc]
    exact he hc
  · rw [if_neg hc]
    exact hy hc

theorem ends_forM {ι : Type*} {f : ι → Except ε PUnit.{v + 1}} {P : ι → Prop} {l : List ι}
    (h : ∀ i ∈ l, Ends (fun _ => P i) bad (f i)) :
    Ends (fun _ => ∀ i ∈ l, P i) bad (l.forM f) := by
  induction l with
  | nil => exact fun i hi => by cases hi
  | cons i l ih =>
    obtain ⟨hi, hl⟩ := List.forall_mem_cons.mp h
    exact hi.bind fun _ hfirst => (ih hl).mono fun _ hrest =>
      List.forall_mem_cons.mpr ⟨hfirst, hrest⟩

/-- A list of conversions keeps the length. -/
theorem ends_mapM {ι : Type*} {f : ι → Except ε α} {l : List ι}
    (h : ∀ i ∈ l, Ends good bad (f i)) :
    Ends (fun r => r.length = l.length ∧ ∀ a ∈ r, good a) bad (l.mapM f) := by
  induction l with
  | nil => exact ⟨rfl, fun a ha => by cases ha⟩
  | cons i l ih =>
    obtain ⟨hi, hl⟩ := List.forall_mem_cons.mp h
    rw [List.mapM_cons]
    refine hi.bind fun a ha => (ih hl).bind fun r hr => ?_
    exact ⟨congrArg (· + 1) hr.1, List.forall_mem_cons.mpr ⟨ha, hr.2⟩⟩

end Ends

theorem ends_scanDistinct {key : α → κ} {before after : α → Except ε Unit} {duplicate : κ → ε}
    {bad : ε → Prop} {l : List α} {seen : List κ}
    (hbefore : ∀ a ∈ l, Ends (fun _ => True) bad (before a))
    (hduplicate : ∀ a ∈ l, bad (duplicate (key a)))
    (hafter : ∀ a ∈ l, Ends (fun _ => True) bad (after a)) :
    Ends (fun _ => True) bad (scanDistinct key before duplicate after seen l) := by
  induction l generalizing seen with
  | nil => exact trivial
  | cons a rest ih =>
    have hmem := List.mem_cons_self (a := a) (l := rest)
    rw [scanDistinct]
    refine (hbefore a hmem).bind fun _ _ => ?_
    split
    · exact hduplicate a hmem
    · refine (hafter a hmem).bind fun _ _ => ih ?_ ?_ ?_
      · exact fun b hb => hbefore b (List.mem_cons_of_mem _ hb)
      · exact fun b hb => hduplicate b (List.mem_cons_of_mem _ hb)
      · exact fun b hb => hafter b (List.mem_cons_of_mem _ hb)

end Checks
