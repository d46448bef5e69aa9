/-
Stable sorting by a comparator.

A consistent comparator may call different elements equal.  A stable sort leaves
such ties in the order in which it finds them, so its result depends on more than
the elements:

* `filter_sort` — the elements tied with a given one keep their order;
* `sort_eq_iff` — two lists sort to the same list exactly when all ties stand in
  the same order;
* `sort_comap_eq_iff` — the same for elements with distinct keys, by the keys.
-/
import Mathlib.Data.List.Sort

/-- A consistent comparator: negative, zero or positive, as `compare` functions return it. -/
structure Comparator (α : Type*) where
  compare : α → α → ℤ
  sign_symm : ∀ a b, compare a b < 0 ↔ 0 < compare b a
  trans : ∀ a b c, compare a b ≤ 0 → compare b c ≤ 0 → compare a c ≤ 0

namespace Comparator

variable {α β κ : Type*} (c : Comparator α) (d : Comparator β)

/-- `a` may stand before `b`. -/
def Le (a b : α) : Prop := c.compare a b ≤ 0

/-- The comparator does not tell `a` from `b`. -/
def Tied (a b : α) : Prop := c.compare a b = 0

instance (a b : α) : Decidable (c.Le a b) := inferInstanceAs (Decidable (_ ≤ _))

instance (a b : α) : Decidable (c.Tied a b) := inferInstanceAs (Decidable (_ = _))

/-- The stable sort. -/
def sort (l : List α) : List α := l.insertionSort c.Le

theorem tied_iff {a b : α} : c.Tied a b ↔ c.Le a b ∧ c.Le b a := by
  have h := c.sign_symm a b
  have h' := c.sign_symm b a
  rw [Tied, Le, Le]
  omega

theorem tied_refl (a : α) : c.Tied a a := by
  have h := c.sign_symm a a
  rw [Tied]
  omega

theorem le_total (a b : α) : c.Le a b ∨ c.Le b a := by
  have h := c.sign_symm a b
  have h' := c.sign_symm b a
  rw [Le, Le]
  omega

/-- Ties with one element are ties with each other. -/
theorem le_of_tied {a x y : α} (hx : c.Tied a x) (hy : c.Tied a y) : c.Le x y :=
  c.trans x a y (c.tied_iff.mp hx).2 (c.tied_iff.mp hy).1

/-! ### Sorting -/

theorem sort_perm (l : List α) : (c.sort l).Perm l := List.perm_insertionSort _ l

theorem pairwise_sort (l : List α) : (c.sort l).Pairwise c.Le := by
  have : Std.Total c.Le := ⟨c.le_total⟩
  have : IsTrans α c.Le := ⟨c.trans⟩
  exact List.pairwise_insertionSort _ l

theorem filter_orderedInsert (a x : α) (l : List α) :
    (l.orderedInsert c.Le x).filter (c.Tied a) = (x :: l).filter (c.Tied a) := by
  induction l with
  | nil => rfl
  | cons y l ih =>
    by_cases hxy : c.Le x y
    · rw [List.orderedInsert_cons_of_le _ _ hxy]
    · rw [List.orderedInsert_of_not_le _ _ hxy]
      by_cases hx : c.Tied a x
      · -- an element that is passed over is not tied with the inserted one
        have hy : ¬ c.Tied a y := fun hy => hxy (c.le_of_tied hx hy)
        rw [List.filter_cons_of_neg (by simpa using hy), ih,
          List.filter_cons_of_pos (by simpa using hx), List.filter_cons_of_pos (by simpa using hx),
          List.filter_cons_of_neg (by simpa using hy)]
      · rw [List.filter_cons_of_neg (by simpa using hx)] at ih
        rw [List.filter_cons_of_neg (a := x) (by simpa using hx), List.filter_cons, ih,
          List.filter_cons]

/-- Sorting keeps the order of the elements tied with `a`. -/
theorem filter_sort (a : α) (l : List α) : (c.sort l).filter (c.Tied a) = l.filter (c.Tied a) := by
  induction l with
  | nil => rfl
  | cons x l ih =>
    show ((c.sort l).orderedInsert c.Le x).filter (c.Tied a) = _
    rw [filter_orderedInsert, List.filter_cons, ih, List.filter_cons]

/-- A sorted list is known from its ties. -/
theorem eq_of_pairwise_of_filter : ∀ {l m : List α}, l.Pairwise c.Le → m.Pairwise c.Le →
    (∀ a, l.filter (c.Tied a) = m.filter (c.Tied a)) → l = m
  | [], [], _, _, _ => rfl
  | [], y :: m, _, _, h => by
    have := h y
    rw [List.filter_cons_of_pos (by simpa using c.tied_refl y)] at this
    cases this
  | x :: l, [], _, _, h => by
    have := h x
    rw [List.filter_cons_of_pos (by simpa using c.tied_refl x)] at this
    cases this
  | x :: l, y :: m, hl, hm, h => by
    have hmem : ∀ z, z ∈ x :: l ↔ z ∈ y :: m := by
      intro z
      have hz : z ∈ (x :: l).filter (c.Tied z) ↔ z ∈ (y :: m).filter (c.Tied z) := by rw [h z]
      simpa [c.tied_refl z] using hz
    have hyx : c.Le y x := by
      rcases List.mem_cons.mp ((hmem x).mp (List.mem_cons_self ..)) with rfl | hx
      · exact (c.tied_iff.mp (c.tied_refl x)).1
      · exact (List.pairwise_cons.mp hm).1 x hx
    have hxy : c.Le x y := by
      rcases List.mem_cons.mp ((hmem y).mpr (List.mem_cons_self ..)) with rfl | hy
      · exact (c.tied_iff.mp (c.tied_refl y)).1
      · exact (List.pairwise_cons.mp hl).1 y hy
    -- the heads are tied, so they are the first of the same ties
    have htied : c.Tied x y := c.tied_iff.mpr ⟨hxy, hyx⟩
    have hheads := h x
    rw [List.filter_cons_of_pos (by simpa using c.tied_refl x),
      List.filter_cons_of_pos (by simpa using htied), List.cons.injEq] at hheads
    obtain ⟨rfl, -⟩ := hheads
    have htails : ∀ a, l.filter (c.Tied a) = m.filter (c.Tied a) := by
      intro a
      have ha := h a
      rw [List.filter_cons, List.filter_cons] at ha
      split at ha
      · exact (List.cons.inj ha).2
      · exact ha
    rw [eq_of_pairwise_of_filter (List.pairwise_cons.mp hl).2 (List.pairwise_cons.mp hm).2 htails]

/-- Two lists sort to the same list exactly when their ties stand in the same order. -/
theorem sort_eq_iff {l m : List α} :
    c.sort l = c.sort m ↔ ∀ a, l.filter (c.Tied a) = m.filter (c.Tied a) := by
  constructor
  · intro h a
    rw [← c.filter_sort a l, h, c.filter_sort]
  · intro h
    refine c.eq_of_pairwise_of_filter (c.pairwise_sort l) (c.pairwise_sort m) fun a => ?_
    rw [c.filter_sort, c.filter_sort, h a]

/-! ### Comparators from others -/

/-- By a key. -/
def comap (f : β → α) : Comparator β where
  compare a b := c.compare (f a) (f b)
  sign_symm a b := c.sign_symm (f a) (f b)
  trans a₁ a₂ a₃ := c.trans (f a₁) (f a₂) (f a₃)

/-- By the first part and then by the second. -/
def lex : Comparator (α × β) where
  compare p q :=
    if c.compare p.1 q.1 ≠ 0 then c.compare p.1 q.1 else d.compare p.2 q.2
  sign_symm p q := by
    have h := c.sign_symm p.1 q.1
    have h' := c.sign_symm q.1 p.1
    have hd := d.sign_symm p.2 q.2
    split <;> split <;> omega
  trans p q r := by
    intro hpq hqr
    have hc := c.trans p.1 q.1 r.1
    have hc' := c.trans r.1 p.1 q.1
    have hc'' := c.trans q.1 r.1 p.1
    have hd := d.trans p.2 q.2 r.2
    have h1 := c.sign_symm p.1 q.1
    have h2 := c.sign_symm q.1 p.1
    have h3 := c.sign_symm q.1 r.1
    have h4 := c.sign_symm r.1 q.1
    have h5 := c.sign_symm p.1 r.1
    have h6 := c.sign_symm r.1 p.1
    split at hpq <;> split at hqr <;> split <;> omega

/-- The comparator of a linear order. -/
def ofOrder [LinearOrder κ] : Comparator κ where
  compare a b := if a < b then -1 else if b < a then 1 else 0
  sign_symm a b := by
    rcases lt_trichotomy a b with h | rfl | h
    · simp [h, h.not_gt]
    · simp
    · simp [h, h.not_gt]
  trans a b c hab hbc := by
    have hle : ∀ x y : κ, (if x < y then (-1 : ℤ) else if y < x then 1 else 0) ≤ 0 ↔ x ≤ y := by
      intro x y
      rcases lt_trichotomy x y with h | rfl | h
      · simp [h, h.le]
      · simp
      · simp [h, h.not_gt]
    rw [hle] at *
    exact hab.trans hbc

theorem map_sort_comap (f : β → α) (l : List β) :
    ((c.comap f).sort l).map f = c.sort (l.map f) :=
  List.map_insertionSort _ _ f l fun _ _ _ _ => Iff.rfl

/-- Lists of the same elements, in the same order of their keys. -/
theorem eq_of_perm_of_map_eq {f : β → α} {l m : List β} (hperm : l.Perm m)
    (hnodup : (l.map f).Nodup) (hmap : l.map f = m.map f) : l = m := by
  refine List.ext_getElem hperm.length_eq fun n hn hn' => ?_
  refine List.inj_on_of_nodup_map hnodup (List.getElem_mem hn)
    (hperm.mem_iff.mpr (List.getElem_mem hn')) ?_
  have hget : (l.map f)[n]? = (m.map f)[n]? := by rw [hmap]
  simpa [hn, hn'] using hget

/-- Elements with distinct keys sort to the same list exactly when the tied keys stand in the
same order. -/
theorem sort_comap_eq_iff {f : β → α} {l m : List β} (hperm : l.Perm m)
    (hnodup : (l.map f).Nodup) : (c.comap f).sort l = (c.comap f).sort m ↔
      ∀ k, (l.map f).filter (c.Tied k) = (m.map f).filter (c.Tied k) := by
  rw [← c.sort_eq_iff, ← map_sort_comap, ← map_sort_comap]
  constructor
  · intro h
    rw [h]
  · intro h
    refine eq_of_perm_of_map_eq (((c.comap f).sort_perm l).trans
      (hperm.trans ((c.comap f).sort_perm m).symm)) ?_ h
    exact (((c.comap f).sort_perm l).map f).nodup_iff.mpr hnodup

end Comparator
