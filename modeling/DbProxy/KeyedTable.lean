/-
Tables with a primary key.

`KeyedTable key` is a list of rows no two of which have the same key.  The list
order stands for the order in which the rows are stored, which statements must
not depend on.  `lookup` finds the row of a key, and every statement is
determined by what it does to the lookups:

* `lookup_update` — `UPDATE … SET … WHERE`;
* `lookup_delete` — `DELETE … WHERE`;
* `lookup_upsert` — `INSERT … ON CONFLICT DO UPDATE`;
* `rows_tryInsertAll` — the rows of a transaction that commits;
* `rows_foldl_insertNew` — `INSERT … ON CONFLICT DO NOTHING` of new rows.
-/
import Mathlib.Data.List.Nodup

/-- Rows with pairwise distinct keys. -/
structure KeyedTable {ρ κ : Type*} (key : ρ → κ) where
  rows : List ρ
  nodup : (rows.map key).Nodup

namespace KeyedTable

variable {ρ κ : Type*} [DecidableEq κ] {key : ρ → κ}

instance : Inhabited (KeyedTable key) := ⟨⟨[], List.nodup_nil⟩⟩

/-- The table without rows. -/
def empty : KeyedTable key := ⟨[], List.nodup_nil⟩

def lookup (t : KeyedTable key) (k : κ) : Option ρ := t.rows.find? (key · = k)

@[simp] theorem lookup_empty (k : κ) : (empty : KeyedTable key).lookup k = none := rfl

theorem find?_eq_some_iff : ∀ {rows : List ρ} (_ : (rows.map key).Nodup) {k : κ} {row : ρ},
    rows.find? (key · = k) = some row ↔ row ∈ rows ∧ key row = k
  | [], _, k, row => by simp
  | first :: rest, hnodup, k, row => by
    rw [List.map_cons, List.nodup_cons] at hnodup
    by_cases hfirst : key first = k
    · rw [List.find?_cons_of_pos (by simpa using hfirst), Option.some_inj, List.mem_cons]
      constructor
      · rintro rfl
        exact ⟨Or.inl rfl, hfirst⟩
      · rintro ⟨rfl | hmem, hkey⟩
        · rfl
        · -- a later row with this key would be a second one
          exact absurd (List.mem_map.mpr ⟨row, hmem, hkey.trans hfirst.symm⟩) hnodup.1
    · rw [List.find?_cons_of_neg (by simpa using hfirst), find?_eq_some_iff hnodup.2, List.mem_cons]
      constructor
      · rintro ⟨hmem, hkey⟩
        exact ⟨Or.inr hmem, hkey⟩
      · rintro ⟨rfl | hmem, hkey⟩
        · exact absurd hkey hfirst
        · exact ⟨hmem, hkey⟩

theorem lookup_eq_some {t : KeyedTable key} {k : κ} {row : ρ} :
    t.lookup k = some row ↔ row ∈ t.rows ∧ key row = k := find?_eq_some_iff t.nodup

theorem lookup_of_mem {t : KeyedTable key} {row : ρ} (h : row ∈ t.rows) :
    t.lookup (key row) = some row := lookup_eq_some.mpr ⟨h, rfl⟩

theorem key_of_lookup {t : KeyedTable key} {k : κ} {row : ρ} (h : t.lookup k = some row) :
    key row = k := (lookup_eq_some.mp h).2

/-- `UPDATE … SET f WHERE p`. -/
def update (t : KeyedTable key) (p : ρ → Bool) (f : ρ → ρ) (hf : ∀ row, key (f row) = key row) :
    KeyedTable key where
  rows := t.rows.map fun row => if p row then f row else row
  nodup := by
    have hkeys : (t.rows.map fun row => if p row then f row else row).map key =
        t.rows.map key := by
      rw [List.map_map]
      refine List.map_congr_left fun row _ => ?_
      rw [Function.comp_apply]
      split
      · exact hf row
      · rfl
    rw [hkeys]
    exact t.nodup

theorem lookup_update {t : KeyedTable key} {p : ρ → Bool} {f : ρ → ρ}
    {hf : ∀ row, key (f row) = key row} {k : κ} :
    (t.update p f hf).lookup k = (t.lookup k).map fun row => if p row then f row else row := by
  have hkey : (fun row => decide (key row = k)) ∘ (fun row => if p row then f row else row) =
      fun row => decide (key row = k) := by
    funext row
    rw [Function.comp_apply]
    split
    · rw [hf row]
    · rfl
  rw [lookup, update, lookup, List.find?_map, hkey]

omit [DecidableEq κ] in
theorem mem_update {t : KeyedTable key} {p : ρ → Bool} {f : ρ → ρ}
    {hf : ∀ row, key (f row) = key row} {row : ρ} (h : row ∈ t.rows) (hp : p row = true) :
    f row ∈ (t.update p f hf).rows := by
  refine List.mem_map.mpr ⟨row, h, ?_⟩
  rw [if_pos hp]

omit [DecidableEq κ] in
/-- An update that finds no row. -/
theorem update_eq_self {t : KeyedTable key} {p : ρ → Bool} {f : ρ → ρ}
    {hf : ∀ row, key (f row) = key row} (h : ∀ row ∈ t.rows, p row = false) :
    t.update p f hf = t := by
  have hrows : t.rows.map (fun row => if p row then f row else row) = t.rows := by
    refine (List.map_congr_left fun row hmem => ?_).trans (List.map_id _)
    rw [h row hmem]
    rfl
  cases t
  simpa [update] using hrows

omit [DecidableEq κ] in
theorem eq_of_key {t : KeyedTable key} {a b : ρ} (ha : a ∈ t.rows) (hb : b ∈ t.rows)
    (h : key a = key b) : a = b := List.inj_on_of_nodup_map t.nodup ha hb h

/-- `DELETE … WHERE p`. -/
def delete (t : KeyedTable key) (p : ρ → Bool) : KeyedTable key where
  rows := t.rows.filter fun row => !p row
  nodup := t.nodup.sublist (List.filter_sublist.map key)

theorem lookup_delete {t : KeyedTable key} {p : ρ → Bool} {k : κ} :
    (t.delete p).lookup k = (t.lookup k).filter fun row => !p row := by
  ext row
  rw [lookup_eq_some, Option.filter_eq_some_iff, lookup_eq_some]
  show row ∈ t.rows.filter _ ∧ _ ↔ _
  rw [List.mem_filter]
  tauto

/-- `INSERT`, of a row whose key is free. -/
def insert (t : KeyedTable key) (row : ρ) (h : t.lookup (key row) = none) : KeyedTable key where
  rows := t.rows ++ [row]
  nodup := by
    rw [List.map_append, List.nodup_append]
    refine ⟨t.nodup, List.nodup_singleton _, ?_⟩
    rintro k hk k' hk' rfl
    obtain ⟨row', hmem, rfl⟩ := List.mem_map.mp hk
    rw [List.map_singleton, List.mem_singleton] at hk'
    rw [← hk', lookup_of_mem hmem] at h
    cases h

theorem lookup_insert {t : KeyedTable key} {row : ρ} {h : t.lookup (key row) = none} {k : κ} :
    (t.insert row h).lookup k = if k = key row then some row else t.lookup k := by
  ext row'
  rw [lookup_eq_some]
  show row' ∈ t.rows ++ [row] ∧ _ ↔ _
  rw [List.mem_append, List.mem_singleton]
  split
  · rename_i hk
    rw [Option.some_inj]
    constructor
    · rintro ⟨hmem | rfl, hkey⟩
      · rw [← hk, ← hkey, lookup_of_mem hmem] at h
        cases h
      · rfl
    · rintro rfl
      exact ⟨Or.inr rfl, hk.symm⟩
  · rename_i hk
    rw [lookup_eq_some]
    constructor
    · rintro ⟨hmem | rfl, hkey⟩
      · exact ⟨hmem, hkey⟩
      · exact absurd hkey.symm hk
    · rintro ⟨hmem, hkey⟩
      exact ⟨Or.inl hmem, hkey⟩

/-- Insert rows one after the other; `none` if a key is taken. -/
def tryInsertAll (t : KeyedTable key) : List ρ → Option (KeyedTable key)
  | [] => some t
  | row :: rest =>
    if h : t.lookup (key row) = none then tryInsertAll (t.insert row h) rest else none

theorem rows_tryInsertAll : ∀ {rows : List ρ} {t t' : KeyedTable key},
    t.tryInsertAll rows = some t' → t'.rows = t.rows ++ rows
  | [], t, t', h => by
    obtain rfl := Option.some.inj h
    exact (List.append_nil _).symm
  | row :: rest, t, t', h => by
    rw [tryInsertAll] at h
    split at h
    · rw [rows_tryInsertAll h]
      show (t.rows ++ [row]) ++ rest = t.rows ++ row :: rest
      rw [List.append_assoc, List.singleton_append]
    · cases h

/-- `INSERT … ON CONFLICT DO NOTHING`. -/
def insertNew (t : KeyedTable key) (row : ρ) : KeyedTable key :=
  if h : t.lookup (key row) = none then t.insert row h else t

theorem insertNew_of_free {t : KeyedTable key} {row : ρ} (h : t.lookup (key row) = none) :
    t.insertNew row = t.insert row h := dif_pos h

theorem lookup_insertNew_ne {t : KeyedTable key} {row : ρ} {k : κ} (h : k ≠ key row) :
    (t.insertNew row).lookup k = t.lookup k := by
  rw [insertNew]
  split
  · rw [lookup_insert, if_neg h]
  · rfl

/-- Rows with new and distinct keys are all inserted, in their order. -/
theorem rows_foldl_insertNew : ∀ {rows : List ρ} {t : KeyedTable key},
    (rows.map key).Nodup → (∀ row ∈ rows, t.lookup (key row) = none) →
    (rows.foldl insertNew t).rows = t.rows ++ rows
  | [], t, _, _ => (List.append_nil _).symm
  | row :: rest, t, hnodup, hfree => by
    rw [List.map_cons, List.nodup_cons] at hnodup
    have hrow := hfree row (List.mem_cons_self ..)
    have hrest : ∀ row' ∈ rest, (t.insertNew row).lookup (key row') = none := by
      intro row' hmem
      have hne : key row' ≠ key row := fun heq => hnodup.1 (List.mem_map.mpr ⟨row', hmem, heq⟩)
      rw [lookup_insertNew_ne hne]
      exact hfree row' (List.mem_cons_of_mem _ hmem)
    rw [List.foldl_cons, rows_foldl_insertNew hnodup.2 hrest, insertNew_of_free hrow]
    show (t.rows ++ [row]) ++ rest = t.rows ++ row :: rest
    rw [List.append_assoc, List.singleton_append]

theorem lookup_eq_none {t : KeyedTable key} {k : κ} : t.lookup k = none ↔ k ∉ t.rows.map key := by
  rw [lookup, List.find?_eq_none]
  simp

/-- The keys that are free after insertions. -/
theorem lookup_foldl_insertNew {rows : List ρ} {t : KeyedTable key} (hnodup : (rows.map key).Nodup)
    (hfree : ∀ row ∈ rows, t.lookup (key row) = none) {k : κ} :
    (rows.foldl insertNew t).lookup k = none ↔ t.lookup k = none ∧ k ∉ rows.map key := by
  rw [lookup_eq_none, rows_foldl_insertNew hnodup hfree, List.map_append, List.mem_append, not_or,
    lookup_eq_none]

/-- `INSERT … ON CONFLICT DO UPDATE SET f`. -/
def upsert (t : KeyedTable key) (row : ρ) (f : ρ → ρ) (hf : ∀ row, key (f row) = key row) :
    KeyedTable key :=
  if h : t.lookup (key row) = none then t.insert row h
  else t.update (key · = key row) f hf

theorem lookup_upsert {t : KeyedTable key} {row : ρ} {f : ρ → ρ}
    {hf : ∀ row, key (f row) = key row} {k : κ} :
    (t.upsert row f hf).lookup k =
      if k = key row then some ((t.lookup k).elim row f) else t.lookup k := by
  rw [upsert]
  by_cases h : t.lookup (key row) = none
  · rw [dif_pos h, lookup_insert]
    by_cases hk : k = key row
    · rw [if_pos hk, if_pos hk, hk, h]
      rfl
    · rw [if_neg hk, if_neg hk]
  · rw [dif_neg h, lookup_update]
    obtain ⟨old, hold⟩ := Option.ne_none_iff_exists'.mp h
    by_cases hk : k = key row
    · subst hk
      rw [if_pos rfl, hold]
      simp [key_of_lookup hold]
    · rw [if_neg hk]
      cases hlookup : t.lookup k with
      | none => rfl
      | some found =>
        have hne : key found ≠ key row := by
          rw [key_of_lookup hlookup]
          exact hk
        simp [hne]

end KeyedTable
