/-
Logs that only grow at the end, and what must come first in them.

`Justified before l` says that every occurrence of an element in `l` stands after
all elements that are `before` it.

* `Justified.concat` — appending an element whose predecessors are in the log;
* `Justified.mono` — fewer predecessors;
* `Justified.idxOf_lt` — first occurrences are in order, and none is missing.
-/
import Mathlib.Data.List.Basic

namespace AppendLog

variable {α : Type*}

/-- Every occurrence in the log stands after all its predecessors. -/
def Justified (before : α → α → Prop) (l : List α) : Prop :=
  ∀ front b back, l = front ++ b :: back → ∀ a, before a b → a ∈ front

theorem justified_nil (before : α → α → Prop) : Justified before [] := by
  intro front b back h
  exact absurd h.symm (by simp)

theorem Justified.concat {before : α → α → Prop} {l : List α} {b : α} (h : Justified before l)
    (hb : ∀ a, before a b → a ∈ l) : Justified before (l ++ [b]) := by
  intro front c back heq a ha
  rcases List.eq_nil_or_concat back with rfl | ⟨back, d, rfl⟩
  · -- the last occurrence
    obtain ⟨rfl, heq'⟩ := List.append_inj' heq rfl
    obtain rfl : b = c := by simpa using heq'
    exact hb a ha
  · have heq' : l ++ [b] = (front ++ c :: back) ++ [d] := by
      rw [heq, List.concat_eq_append, List.append_assoc, List.cons_append]
    obtain ⟨rfl, -⟩ := List.append_inj' heq' rfl
    exact h front c back rfl a ha

theorem Justified.mono {before before' : α → α → Prop} {l : List α} (h : Justified before l)
    (hb : ∀ a, ∀ b ∈ l, before' a b → before a b) : Justified before' l := by
  intro front b back heq a ha
  refine h front b back heq a (hb a b ?_ ha)
  rw [heq]
  exact List.mem_append_right _ (List.mem_cons_self ..)

/-- First occurrences are in order, and none is missing. -/
theorem Justified.idxOf_lt [DecidableEq α] {before : α → α → Prop} {l : List α} {a b : α}
    (h : Justified before l) (hb : b ∈ l) (hab : before a b) : l.idxOf a < l.idxOf b := by
  -- split the log at the first occurrence
  obtain ⟨front, back, rfl, hnot⟩ := List.eq_append_cons_of_mem hb
  have ha : a ∈ front := h front b back rfl a hab
  rw [List.idxOf_append_of_mem ha, List.idxOf_append_of_notMem hnot, List.idxOf_cons_self]
  have hlt := List.idxOf_lt_length_of_mem ha
  omega

end AppendLog
