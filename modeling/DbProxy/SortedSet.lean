/-
Sorted sets with the commands of a key-value server.

A sorted set holds members with a score; its items are kept in the order of
score and then member, each member once (both are fields of the structure).
The commands are `zadd`, `zrem`, `zscore`, `zpopmin` and `zrangeByScore`; each
has one membership lemma, and these are all that invariants need.
-/
import Mathlib.Data.List.Sort
import Mathlib.Data.Prod.Lex

structure SortedSet (α : Type*) [LinearOrder α] where
  items : List (ℕ × α) := []
  sorted : items.Pairwise fun a b => toLex a ≤ toLex b := by simp
  nodup : (items.map (·.2)).Nodup := by simp

namespace SortedSet

variable {α : Type*} [LinearOrder α]

instance : EmptyCollection (SortedSet α) := ⟨{}⟩

instance : Membership α (SortedSet α) := ⟨fun z member => member ∈ z.items.map (·.2)⟩

theorem mem_def {z : SortedSet α} {member : α} : member ∈ z ↔ member ∈ z.items.map (·.2) :=
  Iff.rfl

instance (member : α) (z : SortedSet α) : Decidable (member ∈ z) :=
  inferInstanceAs (Decidable (member ∈ z.items.map (·.2)))

@[simp] theorem not_mem_empty (member : α) : member ∉ (∅ : SortedSet α) := by
  rw [mem_def]
  exact List.not_mem_nil

/-! ### Commands -/

/-- `ZREM`. -/
def zrem (z : SortedSet α) (member : α) : SortedSet α where
  items := z.items.filter (·.2 ≠ member)
  sorted := z.sorted.filter _
  nodup := z.nodup.sublist (List.filter_sublist.map _)

/-- `ZADD`: insert the member, or move it to a new score. -/
def zadd (z : SortedSet α) (score : ℕ) (member : α) : SortedSet α where
  items := (z.zrem member).items.orderedInsert (fun a b => toLex a ≤ toLex b) (score, member)
  sorted := by
    have : Std.Total (fun a b : ℕ × α => toLex a ≤ toLex b) := ⟨fun _ _ => le_total _ _⟩
    have : IsTrans (ℕ × α) (fun a b => toLex a ≤ toLex b) := ⟨fun _ _ _ => le_trans⟩
    exact (z.zrem member).sorted.orderedInsert _ _
  nodup := by
    have hperm := (List.perm_orderedInsert (fun a b : ℕ × α => toLex a ≤ toLex b)
      (score, member) (z.zrem member).items).map (·.2)
    rw [hperm.nodup_iff, List.map_cons, List.nodup_cons]
    refine ⟨?_, (z.zrem member).nodup⟩
    simp [zrem]

/-- `ZSCORE`. -/
def zscore (z : SortedSet α) (member : α) : Option ℕ :=
  (z.items.find? (·.2 = member)).map (·.1)

/-- `ZPOPMIN key 1`: the least member, and the set without it. -/
def zpopmin (z : SortedSet α) : Option (α × SortedSet α) :=
  match h : z.items with
  | [] => none
  | a :: rest =>
    some (a.2, ⟨rest, (List.pairwise_cons.mp (h ▸ z.sorted)).2,
      (List.nodup_cons.mp (List.map_cons ▸ h ▸ z.nodup)).2⟩)

/-- `ZRANGEBYSCORE key -inf max LIMIT 0 limit`. -/
def zrangeByScore (z : SortedSet α) (max limit : ℕ) : List α :=
  ((z.items.filter (·.1 ≤ max)).take limit).map (·.2)

/-! ### Membership -/

@[simp] theorem mem_zrem {z : SortedSet α} {member other : α} :
    other ∈ z.zrem member ↔ other ∈ z ∧ other ≠ member := by
  simp only [mem_def, zrem, List.mem_map, List.mem_filter, decide_eq_true_eq]
  constructor
  · rintro ⟨a, ⟨ha, hne⟩, rfl⟩
    exact ⟨⟨a, ha, rfl⟩, hne⟩
  · rintro ⟨⟨a, ha, rfl⟩, hne⟩
    exact ⟨a, ⟨ha, hne⟩, rfl⟩

@[simp] theorem mem_zadd {z : SortedSet α} {score : ℕ} {member other : α} :
    other ∈ z.zadd score member ↔ other = member ∨ other ∈ z := by
  have hperm := (List.perm_orderedInsert (fun a b : ℕ × α => toLex a ≤ toLex b)
    (score, member) (z.zrem member).items).map (·.2)
  have hmem : other ∈ z.zadd score member ↔ other = member ∨ other ∈ z.zrem member := by
    rw [mem_def, zadd, hperm.mem_iff, List.map_cons, List.mem_cons]
    rfl
  rw [hmem, mem_zrem]
  by_cases hother : other = member
  · simp [hother]
  · simp [hother]

theorem mem_items_of_mem_zadd {z : SortedSet α} {score : ℕ} {member : α} {item : ℕ × α}
    (h : item ∈ (z.zadd score member).items) : item = (score, member) ∨ item ∈ z.items := by
  rcases (List.mem_orderedInsert _).mp h with rfl | hitem
  · exact Or.inl rfl
  · exact Or.inr (List.mem_filter.mp hitem).1

theorem zscore_isSome {z : SortedSet α} {member : α} : (z.zscore member).isSome ↔ member ∈ z := by
  rw [zscore, Option.isSome_map, List.find?_isSome, mem_def]
  simp [eq_comm]

theorem zpopmin_eq_none {z : SortedSet α} (h : z.zpopmin = none) (member : α) : member ∉ z := by
  rw [zpopmin] at h
  split at h
  · rename_i hitems
    rw [mem_def, hitems]
    exact List.not_mem_nil
  · exact absurd h (by simp)

theorem zpopmin_items {z rest : SortedSet α} {member : α}
    (h : z.zpopmin = some (member, rest)) :
    z.items.map (·.2) = member :: rest.items.map (·.2) := by
  rw [zpopmin] at h
  split at h
  · exact absurd h (by simp)
  · rename_i a items hitems
    simp only [Option.some.injEq, Prod.mk.injEq] at h
    obtain ⟨rfl, rfl⟩ := h
    show z.items.map (·.2) = a.2 :: items.map (·.2)
    rw [hitems, List.map_cons]

/-- The popped member was there, and exactly it is gone. -/
theorem zpopmin_eq_some {z rest : SortedSet α} {member : α}
    (h : z.zpopmin = some (member, rest)) :
    member ∈ z ∧ ∀ other, other ∈ rest ↔ other ∈ z ∧ other ≠ member := by
  rw [zpopmin] at h
  split at h
  · exact absurd h (by simp)
  · rename_i a items hitems
    have hnodup : a.2 ∉ items.map (·.2) := by
      have := z.nodup
      rw [hitems, List.map_cons, List.nodup_cons] at this
      exact this.1
    simp only [Option.some.injEq, Prod.mk.injEq] at h
    obtain ⟨rfl, rfl⟩ := h
    refine ⟨by rw [mem_def, hitems]; exact List.mem_cons_self .., fun other => ?_⟩
    have hmem : other ∈ z ↔ other = a.2 ∨ other ∈ items.map (·.2) := by
      rw [mem_def, hitems, List.map_cons, List.mem_cons]
    rw [hmem]
    show other ∈ items.map (·.2) ↔ _
    constructor
    · intro hother
      exact ⟨Or.inr hother, fun heq => hnodup (heq ▸ hother)⟩
    · rintro ⟨hother | hother, hne⟩
      · exact absurd hother hne
      · exact hother

end SortedSet
