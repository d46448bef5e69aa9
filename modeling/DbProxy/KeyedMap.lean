/-
Maps as functions into `Option`, written key by key.

`insertAll key m l` inserts every element of `l` under its own key, from left
to right.  With pairwise distinct keys the result does not depend on the order:
`insertAll_of_mem` and `insertAll_of_not_mem` determine it pointwise.
`foldl_update_eq_none` says which keys stay free.
-/
import Mathlib.Data.List.Nodup
import Mathlib.Logic.Function.Basic

namespace KeyedMap

variable {α κ : Type*} [DecidableEq κ]

theorem update_eq_some {m : κ → Option α} {k k' : κ} {a a' : α}
    (h : Function.update m k (some a) k' = some a') : k' = k ∧ a = a' ∨ k' ≠ k ∧ m k' = some a' := by
  by_cases hk : k' = k
  · subst hk
    rw [Function.update_self] at h
    exact Or.inl ⟨rfl, Option.some.inj h⟩
  · rw [Function.update_of_ne hk] at h
    exact Or.inr ⟨hk, h⟩

/-- Insert the elements of a list, each under its key. -/
def insertAll (key : α → κ) (m : κ → Option α) (l : List α) : κ → Option α :=
  l.foldl (fun m a => Function.update m (key a) (some a)) m

variable {key : α → κ}

theorem insertAll_cons (m : κ → Option α) (a : α) (l : List α) :
    insertAll key m (a :: l) = insertAll key (Function.update m (key a) (some a)) l := rfl

theorem insertAll_of_not_mem {m : κ → Option α} {l : List α} {k : κ} (h : k ∉ l.map key) :
    insertAll key m l k = m k := by
  induction l generalizing m with
  | nil => rfl
  | cons a l ih =>
    rw [List.map_cons, List.mem_cons, not_or] at h
    rw [insertAll_cons, ih h.2, Function.update_of_ne h.1]

theorem insertAll_of_mem {m : κ → Option α} {l : List α} {a : α} (hnd : (l.map key).Nodup)
    (h : a ∈ l) : insertAll key m l (key a) = some a := by
  induction l generalizing m with
  | nil => cases h
  | cons b l ih =>
    rw [List.map_cons, List.nodup_cons] at hnd
    rw [insertAll_cons]
    rcases List.mem_cons.mp h with rfl | hmem
    · rw [insertAll_of_not_mem hnd.1, Function.update_self]
    · exact ih hnd.2 hmem

/-- The last element under a key stays. -/
theorem exists_insertAll_of_mem {m : κ → Option α} {l : List α} {k : κ} (h : k ∈ l.map key) :
    ∃ a ∈ l, key a = k ∧ insertAll key m l k = some a := by
  induction l generalizing m with
  | nil => cases h
  | cons a l ih =>
    rw [insertAll_cons]
    by_cases hmem : k ∈ l.map key
    · obtain ⟨b, hb, hkey, hput⟩ := ih (m := Function.update m (key a) (some a)) hmem
      exact ⟨b, List.mem_cons_of_mem _ hb, hkey, hput⟩
    · rw [List.map_cons, List.mem_cons] at h
      obtain rfl := h.resolve_right hmem
      refine ⟨a, List.mem_cons_self .., rfl, ?_⟩
      rw [insertAll_of_not_mem hmem, Function.update_self]

/-- The keys that are free after insertions. -/
theorem foldl_update_eq_none {β : Type*} {f : α → β} {m : κ → Option β} {l : List α} {k : κ} :
    l.foldl (fun m a => Function.update m (key a) (some (f a))) m k = none ↔
      m k = none ∧ k ∉ l.map key := by
  induction l generalizing m with
  | nil => simp
  | cons a l ih =>
    rw [List.foldl_cons, ih, List.map_cons, List.mem_cons, not_or]
    by_cases hk : k = key a
    · simp [hk]
    · simp [hk]

theorem isSome_update {m : κ → Option α} {k k' : κ} (a : α) (h : (m k').isSome) :
    (Function.update m k (some a) k').isSome := by
  by_cases hk : k' = k
  · rw [hk, Function.update_self]
    rfl
  · rwa [Function.update_of_ne hk]

end KeyedMap
