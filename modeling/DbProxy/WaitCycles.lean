/-
Cycles of waiting parties.

`waits v w` says that `v` waits for `w`.  A party is on a cycle if it waits, directly or
through others, for itself.

* `exists_waits_of_transGen` — whoever leads back to a party waits for someone;
* `exists_path_avoiding` — the part of a path after the last visit to its start;
* `not_onCycle_of_closed` — no cycle enters a set that a cycle cannot leave and on which a
  rank grows along the cycle;
* `not_onCycle_of_rank` — there is no cycle if a rank grows along every cycle.
-/
import Mathlib.Logic.Relation
import Mathlib.Order.Defs.PartialOrder

namespace WaitCycles

open Relation

variable {α κ : Type*} {waits : α → α → Prop} {v w : α}

def OnCycle (waits : α → α → Prop) (v : α) : Prop := TransGen waits v v

/-- Two parties that wait for each other. -/
theorem onCycle_of_pair (h : waits v w) (h' : waits w v) : OnCycle waits v :=
  TransGen.head h (TransGen.single h')

/-- Whoever leads back to a party waits for someone, too. -/
theorem exists_waits_of_transGen (h : TransGen waits v w) : ∃ u, waits v u := by
  obtain ⟨u, hvu, -⟩ := TransGen.head'_iff.mp h
  exact ⟨u, hvu⟩

/-- After its last visit to the start, a path does not come back to it. -/
theorem exists_path_avoiding (hne : v ≠ w) (h : TransGen waits v w) :
    ∃ u, waits v u ∧ ReflTransGen (fun x y => x ≠ v ∧ y ≠ v ∧ waits x y) u w := by
  induction h with
  | single hvw => exact ⟨_, hvw, .refl⟩
  | @tail t w _ htw ih =>
    by_cases ht : v = t
    · subst ht
      exact ⟨w, htw, .refl⟩
    · obtain ⟨u, hvu, hpath⟩ := ih ht
      exact ⟨u, hvu, hpath.tail ⟨Ne.symm ht, Ne.symm hne, htw⟩⟩

/-- Along a cycle one stays in a closed set, and the rank grows. -/
theorem rank_lt [Preorder κ] {rank : α → κ} {C : α → Prop}
    (hstep : ∀ v w, waits v w → TransGen waits w v → C v → C w ∧ rank v < rank w) (hv : C v)
    (h : TransGen waits v w) : TransGen waits w v → C w ∧ rank v < rank w := by
  induction h with
  | single hvw => exact fun hwv => hstep _ _ hvw hwv hv
  | @tail u w hvu huw ih =>
    intro hwv
    obtain ⟨hu, hlt⟩ := ih (TransGen.head huw hwv)
    obtain ⟨hw, hlt'⟩ := hstep u w huw (hwv.trans hvu) hu
    exact ⟨hw, lt_trans hlt hlt'⟩

theorem not_onCycle_of_closed [Preorder κ] (rank : α → κ) (C : α → Prop)
    (hstep : ∀ v w, waits v w → TransGen waits w v → C v → C w ∧ rank v < rank w) (hv : C v) :
    ¬ OnCycle waits v :=
  fun h => lt_irrefl _ (rank_lt hstep hv h h).2

/-- **No cycle.**  A rank that grows along cycles excludes them. -/
theorem not_onCycle_of_rank [Preorder κ] (rank : α → κ)
    (hrank : ∀ v w, waits v w → TransGen waits w v → rank v < rank w) (v : α) :
    ¬ OnCycle waits v :=
  not_onCycle_of_closed rank (fun _ => True)
    (fun v w hvw hwv _ => ⟨trivial, hrank v w hvw hwv⟩) trivial

end WaitCycles
