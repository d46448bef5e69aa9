/-
Arguments of server-side scripts.

A script gets its keys and arguments as arrays counted from one, and a batch script
walks over them with `for index = start, #ARGV, stride`, reading a few entries from
`index` on.  `foldlM_indices` turns such a walk into one over the groups that the
caller appended: it is enough that the entries of the first group are where the loop
starts and that the others are one stride later.

* `at?_append_group` — an index past one group is an index into the rest;
* `indices_add` — one stride more is one round more;
* `run_bind_ok` — a command that succeeds, in a script that may fail.
-/
import Mathlib.Data.List.Basic

namespace ScriptArguments

variable {α γ ω : Type*}

/-- `table[index]`, counted from one; `none` is `nil`. -/
def at? (l : List α) (index : ℕ) : Option α := if index = 0 then none else l[index - 1]?

/-- The values of `for index = start, stop, stride`. -/
def indices (start stop stride : ℕ) : List ℕ :=
  List.range' start ((stop + stride - start) / stride) stride

theorem at?_append_group {header group rest : List α} {index : ℕ} (h : header.length < index) :
    at? (header ++ (group ++ rest)) (index + group.length) = at? (header ++ rest) index := by
  have hne : ¬ index = 0 := by omega
  have hne' : ¬ index + group.length = 0 := by omega
  rw [at?, at?, if_neg hne, if_neg hne', List.getElem?_append_right (by omega),
    List.getElem?_append_right (by omega), List.getElem?_append_right (by omega)]
  congr 1
  omega

theorem indices_add {start stop stride : ℕ} (hstride : 0 < stride) (h : start ≤ stop + stride) :
    indices start (stop + stride) stride =
      start :: (indices start stop stride).map (· + stride) := by
  have hcount :
      (stop + stride + stride - start) / stride = (stop + stride - start) / stride + 1 := by
    rw [show stop + stride + stride - start = stop + stride - start + stride by omega,
      Nat.add_div_right _ hstride]
  rw [indices, indices, hcount, List.range'_succ]
  congr 1
  refine List.ext_getElem? fun n => ?_
  rw [List.getElem?_map]
  by_cases hn : n < (stop + stride - start) / stride
  · simp [hn]
    omega
  · simp [hn]

theorem indices_eq_nil {start stop stride : ℕ} (h : stop < start) :
    indices start stop stride = [] := by
  rcases Nat.eq_zero_or_pos stride with rfl | hstride
  · simp [indices]
  · rw [indices, Nat.div_eq_of_lt (by omega)]
    rfl

theorem start_le_of_mem {start stop stride index : ℕ} (h : index ∈ indices start stop stride) :
    start ≤ index := by
  obtain ⟨n, -, rfl⟩ := List.mem_range'.mp h
  omega

theorem foldlM_congr_mem {m : Type → Type} [Monad m] {β : Type} {f g : β → γ → m β} :
    ∀ {l : List γ}, (∀ b, ∀ a ∈ l, f b a = g b a) → ∀ b, l.foldlM f b = l.foldlM g b
  | [], _, b => rfl
  | a :: l, h, b => by
    rw [List.foldlM_cons, List.foldlM_cons, h b a (List.mem_cons_self ..)]
    congr 1
    funext b'
    exact foldlM_congr_mem (fun b a ha => h b a (List.mem_cons_of_mem _ ha)) b'

/-- A loop that appends one result a round. -/
theorem foldlM_append {m : Type → Type} [Monad m] [LawfulMonad m] {β : Type} (f : γ → m β) :
    ∀ (l : List γ) (results : List β),
      l.foldlM (fun results a => (fun result => results ++ [result]) <$> f a) results =
        (fun rest => results ++ rest) <$> l.mapM f
  | [], results => by simp
  | a :: l, results => by
    rw [List.foldlM_cons, List.mapM_cons, bind_map_left, map_bind]
    refine bind_congr fun result => ?_
    rw [foldlM_append f l, map_bind, ← bind_pure_comp]
    refine bind_congr fun rest => ?_
    rw [map_pure, List.append_assoc]
    rfl

/-- A command that succeeds in a script. -/
theorem run_bind_ok {ε σ α β : Type} {x : EStateM ε σ α} {f : α → EStateM ε σ β} {s s' : σ} {a : α}
    (h : x.run s = .ok a s') : (x >>= f).run s = (f a).run s' := by
  have h' : x s = .ok a s' := h
  show EStateM.bind x f s = f a s'
  rw [EStateM.bind, h']

/-- **Batch rule.**  A loop over the indices of a batch is a loop over its groups, when the
body sees the first group at the first index and the others one stride later. -/
theorem foldlM_indices {m : Type → Type} [Monad m] [LawfulMonad m] {β : Type} {start stride : ℕ}
    (hstride : 0 < stride) (body : β → ω → m β) (window : List γ → ℕ → ω) (first : γ → ω)
    (size : List γ → ℕ) (hnil : size [] < start) (hstart : start ≤ size [] + stride)
    (hcons : ∀ g rest, size (g :: rest) = size rest + stride)
    (hfirst : ∀ b g rest, body b (window (g :: rest) start) = body b (first g))
    (hshift : ∀ g rest index, start ≤ index →
      window (g :: rest) (index + stride) = window rest index) :
    ∀ (groups : List γ) (b : β),
      (indices start (size groups) stride).foldlM (fun b index => body b (window groups index)) b =
        groups.foldlM (fun b g => body b (first g)) b
  | [], b => by
    rw [indices_eq_nil hnil]
    rfl
  | g :: rest, b => by
    have hsize : size [] ≤ size rest := by
      induction rest with
      | nil => exact Nat.le_refl _
      | cons g' rest ih =>
        rw [hcons]
        omega
    rw [hcons, indices_add hstride (by omega), List.foldlM_cons, List.foldlM_cons, hfirst]
    refine bind_congr fun b' => ?_
    rw [List.foldlM_map, ← foldlM_indices hstride body window first size hnil hstart hcons hfirst
      hshift rest b']
    -- past the first group the loop sees the rest
    refine foldlM_congr_mem (fun b index hindex => ?_) b'
    rw [hshift g rest index (start_le_of_mem hindex)]

end ScriptArguments
