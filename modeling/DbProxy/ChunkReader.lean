/-
Reading from a stream that arrives in chunks.

`read` asks for at most `n` elements and gets what there is of the first chunk;
`readExact` reads until it has `n`.  Chunks are not empty, so that an empty
answer means the end.  What is read depends on the chunks only through their
concatenation:

* `read_one` — one element, or the end;
* `readExact_of_le`, `readExact_of_lt` — the first `n` elements, or a failure.
-/
import Mathlib.Data.List.Basic

namespace ChunkReader

variable {α : Type*}

/-- A stream is a list of chunks that are not empty. -/
def WellFormed (chunks : List (List α)) : Prop := ∀ chunk ∈ chunks, chunk ≠ []

def read (n : ℕ) : List (List α) → List α × List (List α)
  | [] => ([], [])
  | chunk :: rest =>
    (chunk.take n, if chunk.length ≤ n then rest else chunk.drop n :: rest)

/-- A chunk that is too short is used up, and the rest is read from the chunks after it. -/
def readExact : ℕ → List (List α) → Option (List α × List (List α))
  | 0, [] => some ([], [])
  | _ + 1, [] => none
  | n, chunk :: rest =>
    if n < chunk.length then some (chunk.take n, chunk.drop n :: rest)
    else (readExact (n - chunk.length) rest).map fun (elements, left) => (chunk ++ elements, left)

theorem readExact_chunk (n : ℕ) (chunk : List α) (rest : List (List α)) :
    readExact n (chunk :: rest) =
      if n < chunk.length then some (chunk.take n, chunk.drop n :: rest)
      else (readExact (n - chunk.length) rest).map fun (elements, left) =>
        (chunk ++ elements, left) := by
  cases n <;> rfl

theorem WellFormed.tail {chunk : List α} {rest : List (List α)}
    (h : WellFormed (chunk :: rest)) : WellFormed rest :=
  fun c hc => h c (List.mem_cons_of_mem _ hc)

theorem WellFormed.drop {chunk : List α} {rest : List (List α)} (h : WellFormed (chunk :: rest))
    {n : ℕ} (hn : n < chunk.length) : WellFormed (chunk.drop n :: rest) := by
  intro c hc
  rcases List.mem_cons.mp hc with rfl | hc
  · intro hnil
    have hlen := congrArg List.length hnil
    rw [List.length_drop, List.length_nil] at hlen
    omega
  · exact h.tail c hc

/-- At the end of the stream there is nothing. -/
theorem read_of_flatten_nil {chunks : List (List α)} (h : WellFormed chunks)
    (hnil : chunks.flatten = []) (n : ℕ) : read n chunks = ([], []) := by
  cases chunks with
  | nil => rfl
  | cons chunk rest =>
    rw [List.flatten_cons, List.append_eq_nil_iff] at hnil
    exact absurd hnil.1 (h chunk (List.mem_cons_self ..))

/-- One element before the end. -/
theorem read_one {chunks : List (List α)} (h : WellFormed chunks) {a : α} {elements : List α}
    (hflatten : chunks.flatten = a :: elements) :
    ∃ left, read 1 chunks = ([a], left) ∧ WellFormed left ∧ left.flatten = elements := by
  cases chunks with
  | nil => simp at hflatten
  | cons chunk rest =>
    obtain ⟨b, chunk, rfl⟩ := List.exists_cons_of_ne_nil (h chunk (List.mem_cons_self ..))
    rw [List.flatten_cons, List.cons_append, List.cons.injEq] at hflatten
    obtain ⟨rfl, hrest⟩ := hflatten
    by_cases hshort : (b :: chunk).length ≤ 1
    · have hnil : chunk = [] := List.length_eq_zero_iff.mp (by simpa using hshort)
      refine ⟨rest, by rw [read, if_pos hshort]; simp, h.tail, ?_⟩
      rw [← hrest, hnil, List.nil_append]
    · have hdrop := h.drop (n := 1) (by omega)
      refine ⟨_, by rw [read, if_neg hshort]; simp, hdrop, ?_⟩
      rw [List.flatten_cons, List.drop_one, List.tail_cons, hrest]

theorem readExact_of_le : ∀ {chunks : List (List α)} {n : ℕ}, WellFormed chunks →
    n ≤ chunks.flatten.length → ∃ left, readExact n chunks = some (chunks.flatten.take n, left) ∧
      WellFormed left ∧ left.flatten = chunks.flatten.drop n
  | [], n, h, hn => by
    obtain rfl : n = 0 := by simpa using hn
    exact ⟨[], rfl, h, rfl⟩
  | chunk :: rest, n, h, hn => by
    rw [List.flatten_cons] at hn ⊢
    rw [readExact_chunk]
    -- the first chunk is enough, or it is used up
    by_cases hlt : n < chunk.length
    · refine ⟨chunk.drop n :: rest, ?_, h.drop hlt, ?_⟩
      · rw [if_pos hlt, List.take_append_of_le_length (by omega)]
      · rw [List.flatten_cons, List.drop_append_of_le_length (by omega)]
    · obtain ⟨left, hread, hleft, hflatten⟩ :=
        readExact_of_le (n := n - chunk.length) h.tail (by
          rw [List.length_append] at hn
          omega)
      have hle : chunk.length ≤ n := by omega
      refine ⟨left, ?_, hleft, ?_⟩
      · rw [if_neg hlt, hread, Option.map_some, List.take_append, List.take_of_length_le hle]
      · rw [hflatten, List.drop_append, List.drop_of_length_le hle, List.nil_append]

theorem readExact_of_lt : ∀ {chunks : List (List α)} {n : ℕ}, chunks.flatten.length < n →
    readExact n chunks = none
  | [], n, hn => by
    obtain ⟨m, rfl⟩ : ∃ m, n = m + 1 := ⟨n - 1, by simp at hn; omega⟩
    rfl
  | chunk :: rest, n, hn => by
    rw [List.flatten_cons, List.length_append] at hn
    have hrest : readExact (n - chunk.length) rest = none :=
      readExact_of_lt (by omega)
    rw [readExact_chunk, if_neg (by omega), hrest, Option.map_none]

end ChunkReader
