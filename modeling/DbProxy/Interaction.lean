/-
Programs that call a service.

An `Interaction C R α` ends with a result or makes a call `c : C` and goes on with
any reply in `R c`.  A program that may fail is an `ExceptT ε` over it.

* `AllCalls p` — every call satisfies `p`, whatever the earlier replies were;
* `Makes c` — some replies lead to the call `c`;
* `Runs calls a` — the program makes exactly these calls, gets these replies and
  ends with `a`;
* `Waits calls c` — after these calls and replies the program waits for the reply
  to `c`;
* `Assures post x before` — whatever the replies are, the program ends with a result
  that satisfies `post`, together with all calls since `before`;
* `Meets p good post` — as long as every reply is `good`, every call satisfies `p` and the
  program ends with a result that satisfies `post`.

The lemmas below take a `do` block apart, one statement at a time.
-/
import DbProxy.Checks
import Mathlib.Logic.Basic

inductive Interaction (C : Type) (R : C → Type) (α : Type)
  | done (a : α)
  | call (c : C) (next : R c → Interaction C R α)

namespace Interaction

variable {C : Type} {R : C → Type} {α β ε : Type}

def bind : Interaction C R α → (α → Interaction C R β) → Interaction C R β
  | done a, f => f a
  | call c next, f => call c fun r => bind (next r) f

instance : Monad (Interaction C R) where
  pure := done
  bind := bind

theorem bind_done (x : Interaction C R α) : x.bind done = x := by
  induction x with
  | done a => rfl
  | call c next ih => exact congrArg (call c) (funext ih)

theorem bind_bind {γ : Type} (x : Interaction C R α) (f : α → Interaction C R β)
    (g : β → Interaction C R γ) : (x.bind f).bind g = x.bind fun a => (f a).bind g := by
  induction x with
  | done a => rfl
  | call c next ih => exact congrArg (call c) (funext ih)

instance : LawfulMonad (Interaction C R) :=
  LawfulMonad.mk' (Interaction C R) bind_done (fun _ _ => rfl) bind_bind

def AllCalls (p : C → Prop) : Interaction C R α → Prop
  | done _ => True
  | call c next => p c ∧ ∀ r, AllCalls p (next r)

def Makes (c : C) : Interaction C R α → Prop
  | done _ => False
  | call c' next => c' = c ∨ ∃ r, Makes c (next r)

def Runs : Interaction C R α → List ((c : C) × R c) → α → Prop
  | done a, calls, b => calls = [] ∧ a = b
  | call c next, calls, b => ∃ r rest, calls = ⟨c, r⟩ :: rest ∧ Runs (next r) rest b

theorem runs_bind {x : Interaction C R α} {f : α → Interaction C R β}
    {calls : List ((c : C) × R c)} {b : β} :
    (x.bind f).Runs calls b ↔
      ∃ first a rest, calls = first ++ rest ∧ x.Runs first a ∧ (f a).Runs rest b := by
  induction x generalizing calls with
  | done a =>
    constructor
    · intro h
      exact ⟨[], a, calls, rfl, ⟨rfl, rfl⟩, h⟩
    · rintro ⟨first, a', rest, rfl, ⟨rfl, rfl⟩, h⟩
      exact h
  | call c next ih =>
    constructor
    · rintro ⟨r, after, rfl, h⟩
      obtain ⟨first, a, rest, rfl, hx, hf⟩ := (ih r).mp h
      exact ⟨⟨c, r⟩ :: first, a, rest, rfl, ⟨r, first, rfl, hx⟩, hf⟩
    · rintro ⟨_, a, rest, rfl, ⟨r, first, rfl, hx⟩, hf⟩
      exact ⟨r, first ++ rest, rfl, (ih r).mpr ⟨first, a, rest, rfl, hx, hf⟩⟩

def Waits : Interaction C R α → List ((c : C) × R c) → C → Prop
  | done _, _, _ => False
  | call c next, calls, c' =>
    (calls = [] ∧ c = c') ∨ ∃ r rest, calls = ⟨c, r⟩ :: rest ∧ Waits (next r) rest c'

theorem waits_bind {x : Interaction C R α} {f : α → Interaction C R β}
    {calls : List ((c : C) × R c)} {c : C} :
    (x.bind f).Waits calls c ↔
      x.Waits calls c ∨
        ∃ first a rest, calls = first ++ rest ∧ x.Runs first a ∧ (f a).Waits rest c := by
  induction x generalizing calls with
  | done a =>
    constructor
    · intro h
      exact Or.inr ⟨[], a, calls, rfl, ⟨rfl, rfl⟩, h⟩
    · rintro (h | ⟨first, a', rest, rfl, ⟨rfl, rfl⟩, h⟩)
      · exact h.elim
      · exact h
  | call c' next ih =>
    constructor
    · rintro (h | ⟨r, after, rfl, h⟩)
      · exact Or.inl (Or.inl h)
      · rcases (ih r).mp h with h | ⟨first, a, rest, rfl, hx, hf⟩
        · exact Or.inl (Or.inr ⟨r, after, rfl, h⟩)
        · exact Or.inr ⟨⟨c', r⟩ :: first, a, rest, rfl, ⟨r, first, rfl, hx⟩, hf⟩
    · rintro ((h | ⟨r, after, rfl, h⟩) | ⟨_, a, rest, rfl, ⟨r, first, rfl, hx⟩, hf⟩)
      · exact Or.inl h
      · exact Or.inr ⟨r, after, rfl, (ih r).mpr (Or.inl h)⟩
      · exact Or.inr ⟨r, first ++ rest, rfl, (ih r).mpr (Or.inr ⟨first, a, rest, rfl, hx, hf⟩)⟩

/-- The program that makes the call `f c` wherever `x` makes `c`. -/
def mapCalls {D : Type} {S : D → Type} (f : C → D) :
    Interaction C (fun c => S (f c)) α → Interaction D S α
  | done a => done a
  | call c next => call (f c) fun r => mapCalls f (next r)

section mapCalls

variable {D : Type} {S : D → Type} {f : C → D}

theorem mapCalls_bind (x : Interaction C (fun c => S (f c)) α)
    (g : α → Interaction C (fun c => S (f c)) β) :
    (x.bind g).mapCalls f = (x.mapCalls f).bind fun a => (g a).mapCalls f := by
  induction x with
  | done a => rfl
  | call c next ih => exact congrArg (call (f c)) (funext ih)

theorem runs_mapCalls {x : Interaction C (fun c => S (f c)) α}
    {calls : List ((c : C) × S (f c))} {a : α} (h : x.Runs calls a) :
    (x.mapCalls f).Runs (calls.map fun c => ⟨f c.1, c.2⟩) a := by
  induction x generalizing calls with
  | done b =>
    obtain ⟨rfl, rfl⟩ := h
    exact ⟨rfl, rfl⟩
  | call c next ih =>
    obtain ⟨r, rest, rfl, h⟩ := h
    exact ⟨r, _, rfl, ih r h⟩

end mapCalls

/-- A result that is already there. -/
def ofResult (x : Except ε α) : ExceptT ε (Interaction C R) α := ExceptT.mk (done x)

/-- One call, with the error of its reply translated. -/
def query {ε' : Type} (c : C) (reply : R c → Except ε' α) (translate : ε' → ε) :
    ExceptT ε (Interaction C R) α :=
  ExceptT.mk (call c fun r => done ((reply r).mapError translate))

section Runs

variable {calls : List ((c : C) × R c)}

/-- A program that succeeds succeeds in every part. -/
theorem runs_exceptT_bind_ok {x : ExceptT ε (Interaction C R) α}
    {f : α → ExceptT ε (Interaction C R) β} {b : β} :
    Runs (x >>= f).run calls (.ok b) ↔ ∃ first a rest, calls = first ++ rest ∧
      Runs x.run first (.ok a) ∧ Runs (f a).run rest (.ok b) := by
  refine runs_bind.trans ?_
  constructor
  · rintro ⟨first, _ | a, rest, rfl, hx, hf⟩
    · exact absurd hf.2 (by simp)
    · exact ⟨first, a, rest, rfl, hx, hf⟩
  · rintro ⟨first, a, rest, rfl, hx, hf⟩
    exact ⟨first, .ok a, rest, rfl, hx, hf⟩

theorem runs_ofResult_bind_ok {x : Except ε α} {f : α → ExceptT ε (Interaction C R) β} {b : β} :
    Runs (ofResult x >>= f).run calls (.ok b) ↔ ∃ a, x = .ok a ∧ Runs (f a).run calls (.ok b) := by
  rw [runs_exceptT_bind_ok]
  constructor
  · rintro ⟨_, a, rest, rfl, ⟨rfl, hx⟩, hf⟩
    exact ⟨a, hx, hf⟩
  · rintro ⟨a, hx, hf⟩
    exact ⟨[], a, calls, rfl, ⟨rfl, hx⟩, hf⟩

theorem runs_pure_ok {a b : α} :
    Runs (pure a : ExceptT ε (Interaction C R) α).run calls (.ok b) ↔ calls = [] ∧ a = b := by
  constructor
  · rintro ⟨hcalls, hab⟩
    exact ⟨hcalls, Except.ok.inj hab⟩
  · rintro ⟨rfl, rfl⟩
    exact ⟨rfl, rfl⟩

theorem not_runs_throw {e : ε} {b : α} :
    ¬ Runs (throw e : ExceptT ε (Interaction C R) α).run calls (.ok b) :=
  fun h => absurd h.2 (by simp)

theorem runs_query_ok {ε' : Type} {c : C} {reply : R c → Except ε' α} {translate : ε' → ε} {b : α} :
    Runs (query c reply translate).run calls (.ok b) ↔
      ∃ r, reply r = .ok b ∧ calls = [⟨c, r⟩] := by
  constructor
  · rintro ⟨r, rest, rfl, rfl, hb⟩
    refine ⟨r, ?_, rfl⟩
    cases hr : reply r with
    | error e =>
      rw [hr] at hb
      cases hb
    | ok a =>
      rw [hr] at hb
      exact congrArg Except.ok (Except.ok.inj hb)
  · rintro ⟨r, hr, rfl⟩
    exact ⟨r, [], rfl, rfl, by rw [hr]; rfl⟩

end Runs

section AllCalls

variable {p : C → Prop}

theorem AllCalls.of_makes {x : Interaction C R α} (h : x.AllCalls p) {c : C}
    (hc : x.Makes c) : p c := by
  induction x with
  | done a => cases hc
  | call c' next ih =>
    rcases hc with rfl | ⟨r, hr⟩
    · exact h.1
    · exact ih r (h.2 r) hr

theorem allCalls_bind {x : Interaction C R α} {f : α → Interaction C R β}
    (hx : x.AllCalls p) (hf : ∀ a, (f a).AllCalls p) : (x.bind f).AllCalls p := by
  induction x with
  | done a => exact hf a
  | call c next ih => exact ⟨hx.1, fun r => ih r (hx.2 r)⟩

@[simp] theorem allCalls_ofResult_bind {x : Except ε α}
    {f : α → ExceptT ε (Interaction C R) β} :
    AllCalls p (ofResult x >>= f).run ↔ ∀ a, x = .ok a → AllCalls p (f a).run := by
  cases x with
  | error e =>
    show True ↔ _
    simp
  | ok a =>
    show AllCalls p (f a) ↔ _
    constructor
    · rintro h b ⟨⟩
      exact h
    · intro h
      exact h a rfl

@[simp] theorem allCalls_pure {a : α} :
    AllCalls p (pure a : ExceptT ε (Interaction C R) α).run := trivial

@[simp] theorem allCalls_throw {e : ε} :
    AllCalls p (throw e : ExceptT ε (Interaction C R) α).run := trivial

@[simp] theorem allCalls_query {ε' : Type} {c : C} {reply : R c → Except ε' α}
    {translate : ε' → ε} : AllCalls p (query c reply translate).run ↔ p c :=
  ⟨fun h => h.1, fun h => ⟨h, fun _ => trivial⟩⟩

theorem allCalls_exceptT_bind {x : ExceptT ε (Interaction C R) α}
    {f : α → ExceptT ε (Interaction C R) β} (hx : AllCalls p x.run)
    (hf : ∀ a, AllCalls p (f a).run) : AllCalls p (x >>= f).run := by
  refine allCalls_bind hx fun a => ?_
  cases a with
  | error e => trivial
  | ok a => exact hf a

end AllCalls

section Assures

def Assures (post : α → List ((c : C) × R c) → Prop) :
    Interaction C R α → List ((c : C) × R c) → Prop
  | done a, before => post a before
  | call c next, before => ∀ r, Assures post (next r) (before ++ [⟨c, r⟩])

variable {post : α → List ((c : C) × R c) → Prop} {before : List ((c : C) × R c)}

theorem Assures.of_runs {x : Interaction C R α} (h : Assures post x before)
    {calls : List ((c : C) × R c)} {a : α} (hruns : x.Runs calls a) :
    post a (before ++ calls) := by
  induction x generalizing before calls with
  | done b =>
    obtain ⟨rfl, rfl⟩ := hruns
    rw [List.append_nil]
    exact h
  | call c next ih =>
    obtain ⟨r, rest, rfl, hrest⟩ := hruns
    have := ih r (h r) hrest
    rwa [List.append_assoc] at this

theorem assures_bind {x : Interaction C R β} {f : β → Interaction C R α}
    {mid : β → List ((c : C) × R c) → Prop} (hx : Assures mid x before)
    (hf : ∀ b t, mid b t → Assures post (f b) t) : Assures post (x.bind f) before := by
  induction x generalizing before with
  | done b => exact hf b before hx
  | call c next ih => exact fun r => ih r (hx r)

/-- A program that may fail, with what holds after a failure. -/
theorem assures_exceptT_bind {x : ExceptT ε (Interaction C R) β}
    {f : β → ExceptT ε (Interaction C R) α}
    {mid : Except ε β → List ((c : C) × R c) → Prop}
    {post : Except ε α → List ((c : C) × R c) → Prop} (hx : Assures mid x.run before)
    (herror : ∀ e t, mid (.error e) t → post (.error e) t)
    (hok : ∀ b t, mid (.ok b) t → Assures post (f b).run t) :
    Assures post (x >>= f).run before := by
  refine assures_bind hx fun b t hb => ?_
  cases b with
  | error e => exact herror e t hb
  | ok b => exact hok b t hb

/-- A property that every single call keeps. -/
theorem assures_of_allCalls {p : C → Prop} {inv : List ((c : C) × R c) → Prop}
    (hinv : ∀ t c r, p c → inv t → inv (t ++ [⟨c, r⟩])) {x : Interaction C R α}
    (hx : x.AllCalls p) (h : inv before) : Assures (fun _ t => inv t) x before := by
  induction x generalizing before with
  | done a => exact h
  | call c next ih => exact fun r => ih r (hx.2 r) (hinv before c r hx.1 h)

end Assures

section Meets

variable {p : C → Prop} {good : (c : C) → R c → Prop}

def Meets (p : C → Prop) (good : (c : C) → R c → Prop) (post : α → Prop) :
    Interaction C R α → Prop
  | done a => post a
  | call c next => p c ∧ ∀ r, good c r → Meets p good post (next r)

theorem meets_bind {x : Interaction C R β} {f : β → Interaction C R α} {mid : β → Prop}
    {post : α → Prop} (hx : Meets p good mid x) (hf : ∀ b, mid b → Meets p good post (f b)) :
    Meets p good post (x.bind f) := by
  induction x with
  | done b => exact hf b hx
  | call c next ih => exact ⟨hx.1, fun r hr => ih r (hx.2 r hr)⟩

/-- A program that may fail; the errors of its parts are errors of the whole. -/
theorem meets_exceptT_bind {x : ExceptT ε (Interaction C R) β}
    {f : β → ExceptT ε (Interaction C R) α} {mid : β → Prop} {post : α → Prop} {bad : ε → Prop}
    (hx : Meets p good (Checks.Ends mid bad) x.run)
    (hf : ∀ b, mid b → Meets p good (Checks.Ends post bad) (f b).run) :
    Meets p good (Checks.Ends post bad) (x >>= f).run := by
  refine meets_bind hx fun b hb => ?_
  cases b with
  | error e => exact hb
  | ok b => exact hf b hb

theorem meets_ofResult_bind {x : Except ε β} {f : β → ExceptT ε (Interaction C R) α}
    {mid : β → Prop} {post : α → Prop} {bad : ε → Prop} (hx : Checks.Ends mid bad x)
    (hf : ∀ b, mid b → Meets p good (Checks.Ends post bad) (f b).run) :
    Meets p good (Checks.Ends post bad) (ofResult x >>= f).run := by
  cases x with
  | error e => exact hx
  | ok b => exact hf b hx

end Meets

end Interaction
