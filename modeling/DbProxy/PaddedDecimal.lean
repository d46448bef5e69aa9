/-
Decimal texts that are compared as texts.

`Decimal.padded width n` fills the digits of `n` up with zeros.  Two such texts
are compared by length and then byte by byte, and `padded_lt_iff` says that this
is the order of the numbers, also for numbers that need more digits than
`width`.
-/
import DbProxy.LuaNumber
import Mathlib.Data.List.Basic

namespace Decimal

/-- The number that a row of digits stands for. -/
def value (l : List UInt8) : ℕ := l.foldl (fun n b => 10 * n + (b.toNat - 48)) 0

/-- The digits of a number, filled up with zeros. -/
def padded (width n : ℕ) : List UInt8 :=
  List.replicate (width - (bytes n).length) 48 ++ bytes n

theorem foldl_digits (l : List UInt8) (n : ℕ) :
    l.foldl (fun n b => 10 * n + (b.toNat - 48)) n = n * 10 ^ l.length + value l := by
  induction l generalizing n with
  | nil => simp [value]
  | cons b l ih =>
    rw [value, List.foldl_cons, List.foldl_cons, ih, ih (10 * 0 + _), List.length_cons, pow_succ]
    ring

theorem value_cons (b : UInt8) (l : List UInt8) :
    value (b :: l) = (b.toNat - 48) * 10 ^ l.length + value l := by
  rw [value, List.foldl_cons, foldl_digits]
  simp

theorem value_lt {l : List UInt8} (h : ∀ b ∈ l, isDigit b = true) : value l < 10 ^ l.length := by
  induction l with
  | nil => simp [value]
  | cons b l ih =>
    have hrest := ih fun c hc => h c (List.mem_cons_of_mem _ hc)
    have hb := h b (List.mem_cons_self ..)
    simp only [isDigit, Bool.and_eq_true, decide_eq_true_eq] at hb
    have hle : b.toNat ≤ 57 := hb.2
    rw [value_cons, List.length_cons, pow_succ]
    have : (b.toNat - 48) * 10 ^ l.length ≤ 9 * 10 ^ l.length :=
      Nat.mul_le_mul_right _ (by omega)
    omega

/-- Digits of equal length are ordered as numbers. -/
theorem lt_iff_value_lt : ∀ {l m : List UInt8}, l.length = m.length →
    (∀ b ∈ l, isDigit b = true) → (∀ b ∈ m, isDigit b = true) → (l < m ↔ value l < value m)
  | [], [], _, _, _ => by simp
  | a :: l, b :: m, hlen, hl, hm => by
    have hlen' : l.length = m.length := by simpa using hlen
    have ha := hl a (List.mem_cons_self ..)
    have hb := hm b (List.mem_cons_self ..)
    simp only [isDigit, Bool.and_eq_true, decide_eq_true_eq] at ha hb
    have ha1 : 48 ≤ a.toNat := ha.1
    have hb1 : 48 ≤ b.toNat := hb.1
    have hl' := fun c hc => hl c (List.mem_cons_of_mem _ hc)
    have hm' := fun c hc => hm c (List.mem_cons_of_mem _ hc)
    have hvl := value_lt hl'
    have hvm := value_lt hm'
    rw [List.cons_lt_cons_iff, lt_iff_value_lt hlen' hl' hm', value_cons, value_cons, hlen']
    rw [hlen'] at hvl
    constructor
    · rintro (hab | ⟨rfl, hlt⟩)
      · have hab' : a.toNat < b.toNat := hab
        have : (a.toNat - 48 + 1) * 10 ^ m.length ≤ (b.toNat - 48) * 10 ^ m.length :=
          Nat.mul_le_mul_right _ (by omega)
        rw [Nat.succ_mul] at this
        omega
      · omega
    · intro hlt
      by_cases hab : a = b
      · subst hab
        exact Or.inr ⟨rfl, by omega⟩
      · refine Or.inl ?_
        by_contra hnot
        have hne : a.toNat ≠ b.toNat := fun h => hab (UInt8.toNat_inj.mp h)
        have hge : b.toNat ≤ a.toNat := UInt8.le_iff_toNat_le.mp (UInt8.not_lt.mp hnot)
        have : (b.toNat - 48 + 1) * 10 ^ m.length ≤ (a.toNat - 48) * 10 ^ m.length :=
          Nat.mul_le_mul_right _ (by omega)
        rw [Nat.succ_mul] at this
        omega

theorem value_bytes (n : ℕ) : value (bytes n) = n := by
  have hchars : value (bytes n) = Nat.ofDigitChars 10 (Nat.toDigits 10 n) 0 := by
    rw [value, bytes, List.foldl_map, Nat.ofDigitChars_eq_foldl]
    refine List.foldl_ext _ _ _ fun m c hc => ?_
    obtain ⟨-, hhigh⟩ := toNat_of_isDigit (Nat.isDigit_of_mem_toDigits (by decide) (by decide) hc)
    have hbyte : c.toNat.toUInt8.toNat = c.toNat := by
      simp only [Nat.toUInt8_eq, UInt8.toNat_ofNat']
      omega
    rw [hbyte]
    rfl
  rw [hchars, Nat.ofDigitChars_ten_toDigits]

theorem isDigit_of_mem_padded {width n : ℕ} {b : UInt8} (h : b ∈ padded width n) :
    isDigit b = true := by
  rcases List.mem_append.mp h with h | h
  · rw [(List.mem_replicate.mp h).2]
    rfl
  · exact isDigit_of_mem_bytes h

theorem value_padded (width n : ℕ) : value (padded width n) = n := by
  have hzeros : ∀ k, (List.replicate k (48 : UInt8)).foldl
      (fun n b => 10 * n + (b.toNat - 48)) 0 = 0 := by
    intro k
    induction k with
    | zero => rfl
    | succ k ih =>
      rw [List.replicate_succ, List.foldl_cons]
      exact ih
  rw [value, padded, List.foldl_append, hzeros]
  exact value_bytes n

theorem padded_injective (width : ℕ) : Function.Injective (padded width) := by
  intro a b h
  rw [← value_padded width a, h, value_padded]

theorem length_padded (width n : ℕ) : (padded width n).length = max width (bytes n).length := by
  rw [padded, List.length_append, List.length_replicate]
  omega

/-- A longer row of padded digits is a larger number. -/
theorem lt_of_length_padded_lt {width m n : ℕ}
    (h : (padded width m).length < (padded width n).length) : m < n := by
  rw [length_padded width n] at h
  have hwidth : width ≤ (padded width m).length := by
    rw [length_padded]
    exact le_max_left _ _
  have hlong : (padded width m).length < (bytes n).length := by omega
  have hm : m < 10 ^ (padded width m).length := by
    have := value_lt (l := padded width m) fun b hb => isDigit_of_mem_padded hb
    rwa [value_padded] at this
  by_contra hnm
  have hn : n < 10 ^ (padded width m).length := by omega
  have hpos : 0 < (padded width m).length := by
    rw [length_padded]
    have : (bytes m).length ≠ 0 := by
      rw [bytes, List.length_map, Ne, List.length_eq_zero_iff]
      exact Nat.toDigits_ne_nil
    omega
  have hle := (Nat.length_toDigits_le_iff (by decide) hpos).mpr hn
  rw [bytes, List.length_map] at hlong
  omega

/-- Shorter, or equally long and lexicographically smaller: the order of the numbers. -/
theorem padded_lt_iff {width m n : ℕ} :
    ((padded width m).length < (padded width n).length ∨
      (padded width m).length = (padded width n).length ∧ padded width m < padded width n) ↔
      m < n := by
  constructor
  · rintro (h | ⟨hlen, hlt⟩)
    · exact lt_of_length_padded_lt h
    · rw [lt_iff_value_lt hlen (fun _ => isDigit_of_mem_padded) (fun _ => isDigit_of_mem_padded),
        value_padded, value_padded] at hlt
      exact hlt
  · intro h
    by_cases hlt : (padded width m).length < (padded width n).length
    · exact Or.inl hlt
    · have hlen : (padded width m).length = (padded width n).length := by
        by_contra hne
        have hgt := @lt_of_length_padded_lt width n m (by omega)
        omega
      refine Or.inr ⟨hlen, ?_⟩
      rw [lt_iff_value_lt hlen (fun _ => isDigit_of_mem_padded) (fun _ => isDigit_of_mem_padded),
        value_padded, value_padded]
      exact h

end Decimal
