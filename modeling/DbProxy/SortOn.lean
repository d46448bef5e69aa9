/-
Stable sorting by a key.

`sortOn f l` sorts `l` by the key `f`, keeping the order of equal keys, as a
stable `sort_by` does.  When the keys are pairwise distinct the result depends
on the elements only:

* `sortOn_perm` — the result is a permutation of the input;
* `sortOn_eq_of_perm` — permutations with distinct keys sort to one list;
* `zip_restore_perm` — work done in sorted order and sorted back by index meets
  its elements again;
* `map_restore` — the same for work that looks at one element at a time;
* `adjacentDuplicate` — the `windows(2)` scan that a sorted list is searched
  for duplicates with, and `adjacentDuplicate_sortOn_eq_none`: on a sorted list
  it finds nothing exactly when the keys are distinct.
-/
import Mathlib.Data.List.Sort

section SortOn

variable {α β κ : Type*} [LinearOrder κ]

/-- Stable sort by the key `f`. -/
def sortOn (f : α → κ) (l : List α) : List α :=
  l.insertionSort fun a b => f a ≤ f b

theorem sortOn_perm (f : α → κ) (l : List α) : (sortOn f l).Perm l :=
  List.perm_insertionSort _ l

@[simp] theorem mem_sortOn {f : α → κ} {l : List α} {a : α} : a ∈ sortOn f l ↔ a ∈ l :=
  (sortOn_perm f l).mem_iff

@[simp] theorem sortOn_eq_nil {f : α → κ} {l : List α} : sortOn f l = [] ↔ l = [] := by
  rw [← List.length_eq_zero_iff, (sortOn_perm f l).length_eq, List.length_eq_zero_iff]

theorem pairwise_sortOn (f : α → κ) (l : List α) :
    (sortOn f l).Pairwise fun a b => f a ≤ f b := by
  have : Std.Total (fun a b : α => f a ≤ f b) := ⟨fun a b => le_total (f a) (f b)⟩
  have : IsTrans α (fun a b : α => f a ≤ f b) := ⟨fun _ _ _ => le_trans⟩
  exact List.pairwise_insertionSort _ l

/-- The first element of a sorted list comes before every element. -/
theorem head?_sortOn_le {f : α → κ} {l : List α} {a : α} (h : a ∈ l) :
    ∃ first, (sortOn f l).head? = some first ∧ f first ≤ f a := by
  have hsorted := pairwise_sortOn f l
  have hmem : a ∈ sortOn f l := mem_sortOn.mpr h
  cases hl : sortOn f l with
  | nil =>
    rw [hl] at hmem
    cases hmem
  | cons first rest =>
    rw [hl] at hsorted hmem
    refine ⟨first, rfl, ?_⟩
    rcases List.mem_cons.mp hmem with rfl | hrest
    · exact le_refl _
    · exact (List.pairwise_cons.mp hsorted).1 a hrest

/-- What is cut off from a sorted list does not come before what is left. -/
theorem take_sortOn_le {f : α → κ} {l : List α} {n : ℕ} {b : α} (hb : b ∈ l)
    (hnot : b ∉ (sortOn f l).take n) :
    ((sortOn f l).take n).length = n ∧ ∀ a ∈ (sortOn f l).take n, f a ≤ f b := by
  have hmem : b ∈ (sortOn f l).take n ++ (sortOn f l).drop n := by
    rw [List.take_append_drop]
    exact mem_sortOn.mpr hb
  have hdrop : b ∈ (sortOn f l).drop n := (List.mem_append.mp hmem).resolve_left hnot
  have hsorted := pairwise_sortOn f l
  rw [← List.take_append_drop n (sortOn f l)] at hsorted
  constructor
  · rw [List.length_take]
    have hpos := List.length_pos_of_mem hdrop
    rw [List.length_drop] at hpos
    omega
  · exact fun a ha => (List.pairwise_append.mp hsorted).2.2 a ha b hdrop

/-- A sorted list stays as it is. -/
theorem sortOn_eq_self {f : α → κ} {l : List α} (h : l.Pairwise fun a b => f a ≤ f b) :
    sortOn f l = l :=
  List.Pairwise.insertionSort_eq h

theorem map_sortOn_perm (f : α → κ) (g : α → β) (l : List α) :
    ((sortOn f l).map g).Perm (l.map g) :=
  (sortOn_perm f l).map g

theorem map_sortOn_nodup {f : α → κ} {l : List α} :
    ((sortOn f l).map f).Nodup ↔ (l.map f).Nodup :=
  (map_sortOn_perm f f l).nodup_iff

/-- Distinct keys come out strictly increasing. -/
theorem strictlySorted_sortOn {f : α → κ} {l : List α} (hnd : (l.map f).Nodup) :
    (sortOn f l).Pairwise fun a b => f a < f b := by
  have hne : (sortOn f l).Pairwise fun a b => f a ≠ f b :=
    List.pairwise_map.mp (map_sortOn_nodup.mpr hnd)
  exact ((pairwise_sortOn f l).and hne).imp fun h => lt_of_le_of_ne h.1 h.2

/-- Two permutations with distinct keys sort to the same list. -/
theorem sortOn_eq_of_perm {f : α → κ} {l₁ l₂ : List α} (hp : l₁.Perm l₂)
    (hnd : (l₁.map f).Nodup) : sortOn f l₁ = sortOn f l₂ := by
  refine ((sortOn_perm f l₁).trans (hp.trans (sortOn_perm f l₂).symm)).eq_of_pairwise ?_
    (pairwise_sortOn f l₁) (pairwise_sortOn f l₂)
  intro a b ha hb hab hba
  have ha' : a ∈ l₁ := mem_sortOn.mp ha
  have hb' : b ∈ l₁ := hp.mem_iff.mpr (mem_sortOn.mp hb)
  exact List.inj_on_of_nodup_map hnd ha' hb' (le_antisymm hab hba)

theorem sortOn_map (f : β → κ) (g : α → β) (l : List α) :
    sortOn f (l.map g) = (sortOn (fun a => f (g a)) l).map g := by
  rw [sortOn, sortOn]
  exact (List.map_insertionSort _ _ g l fun a _ b _ => Iff.rfl).symm

/-- Sorting a list with its indexes, working on it in that order and sorting the results by
index gives every element its own result. -/
theorem zip_restore_perm (f : α → κ) (l : List α) (results : List β)
    (hlen : results.length = l.length) :
    (l.zip ((sortOn Prod.fst (((sortOn (fun x => f x.1) l.zipIdx).map Prod.snd).zip
      results)).map Prod.snd)).Perm
      (((sortOn (fun x => f x.1) l.zipIdx).map Prod.fst).zip results) := by
  set indexed := sortOn (fun x : α × ℕ => f x.1) l.zipIdx with hindexed
  have hlen' : results.length = indexed.length := by
    rw [hlen, hindexed, (sortOn_perm _ _).length_eq, List.length_zipIdx]
  -- everything together, in working order and in the order of the indexes
  set work := indexed.zip results with hwork
  set restored := sortOn (fun t : (α × ℕ) × β => t.1.2) work with hrestored
  have hfst : work.map Prod.fst = indexed := List.map_fst_zip hlen'.ge
  have hindexes : (indexed.map Prod.snd).zip results = work.map fun t => (t.1.2, t.2) := by
    rw [hwork, List.zip_map_left]
    rfl
  have helements : (indexed.map Prod.fst).zip results = work.map fun t => (t.1.1, t.2) := by
    rw [hwork, List.zip_map_left]
    rfl
  have hsorted : restored.map Prod.fst = l.zipIdx := by
    have hperm : (restored.map Prod.fst).Perm l.zipIdx := by
      refine ((sortOn_perm _ work).map Prod.fst).trans ?_
      rw [hfst]
      exact sortOn_perm _ _
    have hnodup : (l.zipIdx.map Prod.snd).Nodup := by
      rw [List.zipIdx_map_snd]
      exact List.nodup_range'
    have hleft : (restored.map Prod.fst).Pairwise fun a b => a.2 ≤ b.2 :=
      List.pairwise_map.mpr (pairwise_sortOn _ work)
    have hright : l.zipIdx.Pairwise fun a b => a.2 ≤ b.2 := by
      have : (l.zipIdx.map Prod.snd).Pairwise (· ≤ ·) := by
        rw [List.zipIdx_map_snd]
        exact (List.pairwise_lt_range').imp le_of_lt
      exact List.pairwise_map.mp this
    refine hperm.eq_of_pairwise (fun a b ha hb hab hba => ?_) hleft hright
    exact List.inj_on_of_nodup_map hnodup (hperm.mem_iff.mp ha) hb (le_antisymm hab hba)
  rw [hindexes, sortOn_map, List.map_map, helements]
  have hzip : l.zip (restored.map Prod.snd) = restored.map fun t => (t.1.1, t.2) := by
    have hl : l = restored.map fun t => t.1.1 := by
      rw [← List.zipIdx_map_fst 0 l, ← hsorted, List.map_map]
      rfl
    conv_lhs => rw [hl]
    rw [List.zip_map']
  rw [show (Prod.snd ∘ fun t : (α × ℕ) × β => (t.1.2, t.2)) = Prod.snd from rfl, ← hrestored, hzip]
  exact (sortOn_perm _ work).map _

/-- Work that looks at one element at a time comes back in the order of the elements. -/
theorem map_restore (f : α → κ) (g : α → β) (l : List α) :
    (sortOn Prod.fst (((sortOn (fun x => f x.1) l.zipIdx).map Prod.snd).zip
      (((sortOn (fun x => f x.1) l.zipIdx).map Prod.fst).map g))).map Prod.snd = l.map g := by
  set indexed := sortOn (fun x : α × ℕ => f x.1) l.zipIdx with hindexed
  have hlen : indexed.length = l.length := by
    rw [hindexed, (sortOn_perm _ _).length_eq, List.length_zipIdx]
  have hperm := zip_restore_perm f l ((indexed.map Prod.fst).map g) (by simpa using hlen)
  rw [← hindexed] at hperm
  set restored := (sortOn Prod.fst ((indexed.map Prod.snd).zip
    ((indexed.map Prod.fst).map g))).map Prod.snd with hrestored
  have hrestored : restored.length = l.length := by
    rw [hrestored, List.length_map, (sortOn_perm _ _).length_eq]
    simp [hlen]
  refine List.ext_get (by simpa using hrestored) fun n hn hn' => ?_
  have hnl : n < l.length := hrestored ▸ hn
  -- the pair at this place is a pair of the work
  have hmem : (l.get ⟨n, hnl⟩, restored.get ⟨n, hn⟩) ∈ l.zip restored := by
    refine List.mem_iff_getElem.mpr ⟨n, by simp [hrestored, hnl], ?_⟩
    rw [List.getElem_zip]
    rfl
  have hpair := hperm.mem_iff.mp hmem
  rw [List.zip_map_right, List.zip_eq_zipWith, List.zipWith_self, List.map_map] at hpair
  obtain ⟨x, -, hx⟩ := List.mem_map.mp hpair
  simp only [Function.comp_apply, Prod.map_apply, id_eq, Prod.mk.injEq] at hx
  obtain ⟨hx, hgx⟩ := hx
  rw [← hgx, hx]
  simp

end SortOn

section Adjacent

variable {κ : Type*}

/-- The first element that equals its successor. -/
def adjacentDuplicate [DecidableEq κ] : List κ → Option κ
  | a :: b :: rest => if a = b then some a else adjacentDuplicate (b :: rest)
  | _ => none

theorem mem_of_adjacentDuplicate [DecidableEq κ] {k : κ} :
    ∀ {l : List κ}, adjacentDuplicate l = some k → k ∈ l
  | a :: b :: rest, h => by
    rw [adjacentDuplicate] at h
    split at h
    · obtain rfl := Option.some.inj h
      exact List.mem_cons_self ..
    · exact List.mem_cons_of_mem _ (mem_of_adjacentDuplicate h)

theorem adjacentDuplicate_eq_none_of_nodup [DecidableEq κ] :
    ∀ {l : List κ}, l.Nodup → adjacentDuplicate l = none
  | [], _ => rfl
  | [_], _ => rfl
  | a :: b :: rest, h => by
    rw [List.nodup_cons] at h
    have hab : a ≠ b := fun hab => h.1 (hab ▸ List.mem_cons_self ..)
    rw [adjacentDuplicate, if_neg hab]
    exact adjacentDuplicate_eq_none_of_nodup h.2

/-- On a sorted list the adjacent scan finds every duplicate. -/
theorem nodup_of_adjacentDuplicate_eq_none [LinearOrder κ] :
    ∀ {l : List κ}, l.Pairwise (· ≤ ·) → adjacentDuplicate l = none → l.Nodup
  | [], _, _ => List.nodup_nil
  | [a], _, _ => List.nodup_singleton a
  | a :: b :: rest, hs, h => by
    rw [adjacentDuplicate] at h
    by_cases hab : a = b
    · rw [if_pos hab] at h
      exact absurd h (by simp)
    · rw [if_neg hab] at h
      have hrest := nodup_of_adjacentDuplicate_eq_none (List.pairwise_cons.mp hs).2 h
      refine List.nodup_cons.mpr ⟨fun hmem => ?_, hrest⟩
      -- a later copy of `a` would squeeze `b` between two equal elements
      have hle : a ≤ b := (List.pairwise_cons.mp hs).1 b (List.mem_cons_self ..)
      have hge : b ≤ a := by
        rcases List.mem_cons.mp hmem with rfl | hmem
        · exact le_refl _
        · exact (List.pairwise_cons.mp (List.pairwise_cons.mp hs).2).1 a hmem
      exact hab (le_antisymm hle hge)

theorem adjacentDuplicate_sortOn_eq_none {α : Type*} [LinearOrder κ] {f : α → κ} {l : List α} :
    adjacentDuplicate ((sortOn f l).map f) = none ↔ (l.map f).Nodup := by
  rw [← map_sortOn_nodup]
  constructor
  · intro h
    exact nodup_of_adjacentDuplicate_eq_none (List.pairwise_map.mpr (pairwise_sortOn f l)) h
  · exact adjacentDuplicate_eq_none_of_nodup

end Adjacent
