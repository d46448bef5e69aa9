/-
Work on the marked elements of a list, put back at their positions.

`positions p l` are the positions of the elements that `p` marks, so the elements
themselves are `l.filter p`; `scatter g indices values l` overwrites `l` at the positions
`indices` with the values that were found for them, one after the other.

* `getElem?_positions`, `getElem?_filter_countP` — the rank of a marked element is its place
  in both lists;
* `scatter_positions` — every marked element gets the value of its rank, and the others keep
  what they had.
-/
import Mathlib.Data.List.Nodup

namespace Scatter

variable {α β γ : Type} {p : α → Bool} {l : List α} {a : α} {i : ℕ}

def positions (p : α → Bool) (l : List α) : List ℕ :=
  (l.zipIdx.filter fun x => p x.1).map (·.2)

def scatter (g : β → γ) (indices : List ℕ) (values : List β) (results : List γ) : List γ :=
  (indices.zip values).foldl (fun results x => results.set x.1 (g x.2)) results

/-! ### The rank of a marked element -/

theorem nodup_positions : (positions p l).Nodup := by
  have hall : (l.zipIdx.map (·.2)).Nodup := by
    rw [List.zipIdx_map_snd]
    exact List.nodup_range'
  exact hall.sublist (List.filter_sublist.map _)

theorem mem_positions : i ∈ positions p l ↔ ∃ a, l[i]? = some a ∧ p a = true := by
  rw [positions, List.mem_map]
  constructor
  · rintro ⟨⟨a, i'⟩, hmem, rfl⟩
    obtain ⟨hmem, hp⟩ := List.mem_filter.mp hmem
    exact ⟨a, List.mem_zipIdx_iff_getElem?.mp hmem, hp⟩
  · rintro ⟨a, ha, hp⟩
    exact ⟨(a, i), List.mem_filter.mpr ⟨List.mem_zipIdx_iff_getElem?.mpr ha, hp⟩, rfl⟩

theorem length_filter_zipIdx (p : α → Bool) (l : List α) (k : ℕ) :
    ((l.zipIdx k).filter fun x => p x.1).length = l.countP p := by
  induction l generalizing k with
  | nil => rfl
  | cons a l ih =>
    rw [List.zipIdx_cons, List.filter_cons, List.countP_cons]
    split
    · rw [List.length_cons, ih]
    · rw [ih, Nat.add_zero]

/-- The list up to a position, the element there, and the rest. -/
theorem take_append_cons_drop (h : l[i]? = some a) : l.take i ++ a :: l.drop (i + 1) = l := by
  obtain ⟨hlt, rfl⟩ := List.getElem?_eq_some_iff.mp h
  rw [← List.drop_eq_getElem_cons hlt, List.take_append_drop]

theorem getElem?_filter_countP (h : l[i]? = some a) (hp : p a = true) :
    (l.filter p)[(l.take i).countP p]? = some a := by
  have hsplit : l.filter p = (l.take i).filter p ++ a :: (l.drop (i + 1)).filter p := by
    rw [← List.filter_cons_of_pos hp, ← List.filter_append, take_append_cons_drop h]
  rw [hsplit, List.countP_eq_length_filter, List.getElem?_append_right (Nat.le_refl _),
    Nat.sub_self]
  rfl

theorem getElem?_positions (h : l[i]? = some a) (hp : p a = true) :
    (positions p l)[(l.take i).countP p]? = some i := by
  have hlen : (l.take i).length = i := by
    obtain ⟨hlt, -⟩ := List.getElem?_eq_some_iff.mp h
    rw [List.length_take]
    omega
  have hzip : l.zipIdx = (l.take i).zipIdx ++ (a, i) :: (l.drop (i + 1)).zipIdx (i + 1) := by
    conv_lhs => rw [← take_append_cons_drop h, List.zipIdx_append, hlen, List.zipIdx_cons]
    rw [Nat.zero_add]
  have hfilter : (l.zipIdx.filter fun x => p x.1) =
      ((l.take i).zipIdx.filter fun x => p x.1) ++
        (a, i) :: ((l.drop (i + 1)).zipIdx (i + 1)).filter fun x => p x.1 := by
    rw [hzip, List.filter_append, List.filter_cons_of_pos (by exact hp)]
  rw [positions, List.getElem?_map, hfilter, ← length_filter_zipIdx p (l.take i) 0,
    List.getElem?_append_right (Nat.le_refl _), Nat.sub_self]
  rfl

/-! ### Putting values back -/

/-- A `zip` keeps the order of its first list. -/
theorem map_fst_zip_sublist {α β : Type*} :
    ∀ (l : List α) (u : List β), ((l.zip u).map Prod.fst).Sublist l
  | [], _ => by simp
  | _ :: _, [] => by simp
  | a :: l, b :: u => by
    rw [List.zip_cons_cons, List.map_cons]
    exact (map_fst_zip_sublist l u).cons_cons a

variable {g : β → γ} {indices : List ℕ} {values : List β} {results : List γ} {k : ℕ} {v : β}

theorem length_scatter : (scatter g indices values results).length = results.length := by
  rw [scatter]
  generalize indices.zip values = updates
  induction updates generalizing results with
  | nil => rfl
  | cons x updates ih => rw [List.foldl_cons, ih, List.length_set]

theorem getElem?_scatter_of_notMem (h : i ∉ indices) :
    (scatter g indices values results)[i]? = results[i]? := by
  induction indices generalizing values results with
  | nil => rfl
  | cons j indices ih =>
    rw [List.mem_cons, not_or] at h
    obtain ⟨hne, hmem⟩ := h
    cases values with
    | nil => rfl
    | cons v values =>
      show (scatter g indices values (results.set j (g v)))[i]? = results[i]?
      rw [ih hmem, List.getElem?_set_ne (Ne.symm hne)]

/-- No position is written twice. -/
theorem getElem?_scatter (hnodup : indices.Nodup) (hk : indices[k]? = some i)
    (hv : values[k]? = some v) (hi : i < results.length) :
    (scatter g indices values results)[i]? = some (g v) := by
  induction indices generalizing values results k with
  | nil => cases hk
  | cons j indices ih =>
    obtain ⟨hmem, hnodup⟩ := List.nodup_cons.mp hnodup
    cases values with
    | nil => cases hv
    | cons w values =>
      show (scatter g indices values (results.set j (g w)))[i]? = some (g v)
      cases k with
      | zero =>
        obtain rfl := Option.some.inj hk
        obtain rfl := Option.some.inj hv
        rw [getElem?_scatter_of_notMem hmem, List.getElem?_set_self hi]
      | succ k =>
        rw [List.getElem?_cons_succ] at hk hv
        exact ih hnodup hk hv (by rw [List.length_set]; exact hi)

/-- **Marked elements get the value of their rank, and the others keep what they had.** -/
theorem scatter_positions (hvalues : values.length = l.countP p)
    (hresults : results.length = l.length) (h : l[i]? = some a) :
    (p a = true → ∃ v, values[(l.take i).countP p]? = some v ∧
      (scatter g (positions p l) values results)[i]? = some (g v)) ∧
    (p a = false → (scatter g (positions p l) values results)[i]? = results[i]?) := by
  constructor
  · intro hp
    obtain ⟨hlt, -⟩ := List.getElem?_eq_some_iff.mp h
    have hrank := getElem?_positions h hp
    -- the rank is below the number of marked elements
    have hcount : (l.take i).countP p < values.length := by
      obtain ⟨hrank', -⟩ := List.getElem?_eq_some_iff.mp hrank
      rw [positions, List.length_map, length_filter_zipIdx] at hrank'
      omega
    refine ⟨values[(l.take i).countP p], List.getElem?_eq_getElem hcount, ?_⟩
    exact getElem?_scatter nodup_positions hrank (List.getElem?_eq_getElem hcount) (by omega)
  · intro hp
    refine getElem?_scatter_of_notMem fun hmem => ?_
    obtain ⟨a', ha', hp'⟩ := mem_positions.mp hmem
    rw [h] at ha'
    obtain rfl := Option.some.inj ha'
    rw [hp] at hp'
    cases hp'

end Scatter
