/-
Unsigned words with checked operations.

An operation is `none` where it overflows, underflows or divides by zero.  A word is
compared with the number that it stands for, and the result of an operation is described
by that number:

* `exists_add`, `exists_sub`, `exists_rem`, `exists_shiftLeft`, `exists_divCeil` — when an
  operation has a result, and which;
* `toNat_saturatingMul`, `toNat_min` — operations that always have one.
-/
import Mathlib.Algebra.Ring.Nat

namespace CheckedWord

variable {w : ℕ}

def add (a b : BitVec w) : Option (BitVec w) :=
  if a.toNat + b.toNat < 2 ^ w then some (a + b) else none

def sub (a b : BitVec w) : Option (BitVec w) := if b ≤ a then some (a - b) else none

def rem (a b : BitVec w) : Option (BitVec w) := if b = 0 then none else some (a % b)

/-- A shift by the width or more overflows. -/
def shiftLeft {v : ℕ} (a : BitVec w) (n : BitVec v) : Option (BitVec w) :=
  if n.toNat < w then some (a <<< n.toNat) else none

/-- The quotient, and one more if a remainder is left. -/
def divCeil (a b : BitVec w) : Option (BitVec w) :=
  if b = 0 then none
  else if 0 < a % b then add (a / b) 1
  else some (a / b)

def saturatingMul (a b : BitVec w) : BitVec w :=
  if a.toNat * b.toNat < 2 ^ w then a * b else BitVec.allOnes w

def min (a b : BitVec w) : BitVec w := if a ≤ b then a else b

/-- The conversion to another width. -/
def tryFrom (v : ℕ) (a : BitVec w) : Option (BitVec v) :=
  if a.toNat < 2 ^ v then some (a.setWidth v) else none

theorem exists_add {a b : BitVec w} (h : a.toNat + b.toNat < 2 ^ w) :
    ∃ c, add a b = some c ∧ c.toNat = a.toNat + b.toNat :=
  ⟨a + b, if_pos h, BitVec.toNat_add_of_lt h⟩

theorem exists_sub {a b : BitVec w} (h : b.toNat ≤ a.toNat) :
    ∃ c, sub a b = some c ∧ c.toNat = a.toNat - b.toNat :=
  ⟨a - b, if_pos h, BitVec.toNat_sub_of_le h⟩

theorem exists_shiftLeft {v : ℕ} {a : BitVec w} {n : BitVec v} (hn : n.toNat < w)
    (h : a.toNat * 2 ^ n.toNat < 2 ^ w) :
    ∃ c, shiftLeft a n = some c ∧ c.toNat = a.toNat * 2 ^ n.toNat := by
  refine ⟨a <<< n.toNat, if_pos hn, ?_⟩
  rw [BitVec.toNat_shiftLeft, Nat.shiftLeft_eq, Nat.mod_eq_of_lt h]

theorem toNat_pos_iff {a : BitVec w} : 0 < a.toNat ↔ a ≠ 0 := by
  rw [Nat.pos_iff_ne_zero, not_iff_not]
  constructor
  · intro h
    exact BitVec.eq_of_toNat_eq (by simpa using h)
  · rintro rfl
    simp

theorem exists_rem {a b : BitVec w} (h : 0 < b.toNat) :
    ∃ c, rem a b = some c ∧ c.toNat = a.toNat % b.toNat :=
  ⟨a % b, if_neg (toNat_pos_iff.mp h), BitVec.toNat_umod⟩

theorem exists_divCeil {a b : BitVec w} (h : 1 < b.toNat) :
    ∃ c, divCeil a b = some c ∧
      c.toNat = a.toNat / b.toNat + if a.toNat % b.toNat = 0 then 0 else 1 := by
  have hb : b ≠ 0 := toNat_pos_iff.mp (by omega)
  have ha := a.isLt
  have hwidth := b.isLt
  have hlarge : 1 < 2 ^ w := by omega
  have hone : (1 : BitVec w).toNat = 1 := Nat.mod_eq_of_lt hlarge
  have hhalf : a.toNat / b.toNat ≤ a.toNat / 2 := Nat.div_le_div_left h (by omega)
  have hrest : (0 < a % b) ↔ 0 < a.toNat % b.toNat := by
    rw [← BitVec.toNat_umod, BitVec.lt_def]
    simp
  rw [divCeil, if_neg hb]
  split
  · rename_i hpos
    obtain ⟨c, hc, hvalue⟩ := exists_add (a := a / b) (b := 1) (by
      rw [BitVec.toNat_udiv, hone]
      omega)
    refine ⟨c, hc, ?_⟩
    rw [hvalue, hone, BitVec.toNat_udiv, if_neg (by rw [hrest] at hpos; omega)]
  · rename_i hzero
    refine ⟨a / b, rfl, ?_⟩
    rw [BitVec.toNat_udiv, if_pos (by rw [hrest] at hzero; omega), Nat.add_zero]

theorem toNat_saturatingMul (a b : BitVec w) :
    (saturatingMul a b).toNat = Nat.min (a.toNat * b.toNat) (2 ^ w - 1) := by
  rw [saturatingMul]
  split
  · rename_i h
    rw [BitVec.toNat_mul_of_lt h]
    exact (Nat.min_eq_left (by omega)).symm
  · rw [BitVec.toNat_allOnes]
    exact (Nat.min_eq_right (by omega)).symm

theorem toNat_min (a b : BitVec w) : (min a b).toNat = Nat.min a.toNat b.toNat := by
  rw [min]
  split
  · rename_i h
    exact (Nat.min_eq_left h).symm
  · rename_i h
    rw [BitVec.not_le] at h
    exact (Nat.min_eq_right (Nat.le_of_lt h)).symm

theorem exists_tryFrom {v : ℕ} {a : BitVec w} (h : a.toNat < 2 ^ v) :
    ∃ c, tryFrom v a = some c ∧ c.toNat = a.toNat := by
  refine ⟨a.setWidth v, if_pos h, ?_⟩
  rw [BitVec.toNat_setWidth, Nat.mod_eq_of_lt h]

end CheckedWord
