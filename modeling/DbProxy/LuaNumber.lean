/-
Lua numbers and their texts.

Lua scripts compute with IEEE doubles.  The scripts here only meet natural
numbers, so a double is modelled by the natural number it stands for:
`toDouble` rounds to 53 significant bits, ties to even, and every addition and
multiplication rounds its exact result.  Up to `2 ^ 53` nothing is rounded.

* `tostring` — the `%.14g` text, which drops digits from `10 ^ 14` on;
  `tostring_injective` below that bound;
* `Decimal` — the exact decimal text of `%.0f`, as bytes, with its reader.
-/
import Mathlib.Data.Nat.Log
import Mathlib.Tactic.Ring

namespace LuaNumber

/-! ### Rounding -/

/-- `n / d` to the nearest integer, ties to even. -/
def roundHalfEven (n d : ℕ) : ℕ :=
  let q := n / d
  let r := n % d
  if 2 * r < d then q
  else if d < 2 * r then q + 1
  else if q % 2 = 0 then q else q + 1

/-- The double nearest to a natural number. -/
def toDouble (n : ℕ) : ℕ :=
  if n ≤ 2 ^ 53 then n
  else roundHalfEven n (2 ^ (n.log2 - 52)) * 2 ^ (n.log2 - 52)

def add (a b : ℕ) : ℕ := toDouble (a + b)

def mul (a b : ℕ) : ℕ := toDouble (a * b)

theorem toDouble_of_le {n : ℕ} (h : n ≤ 2 ^ 53) : toDouble n = n := if_pos h

theorem div_le_roundHalfEven (n d : ℕ) : n / d ≤ roundHalfEven n d := by
  simp only [roundHalfEven]
  split_ifs <;> omega

/-- Rounding does not cross `2 ^ 53` downwards. -/
theorem le_toDouble {n : ℕ} (h : 2 ^ 53 ≤ n) : 2 ^ 53 ≤ toDouble n := by
  rw [toDouble]
  split
  · exact h
  · have hpos : n ≠ 0 := by omega
    have hlog : 53 ≤ n.log2 := (Nat.le_log2 hpos).mpr h
    have hself : 2 ^ n.log2 ≤ n := Nat.log2_self_le hpos
    have hsplit : 2 ^ n.log2 = 2 ^ 52 * 2 ^ (n.log2 - 52) := by
      rw [← pow_add]
      congr 1
      omega
    have hunit : 0 < 2 ^ (n.log2 - 52) := Nat.two_pow_pos _
    -- the quotient keeps 53 significant bits
    have hquot : 2 ^ 52 ≤ n / 2 ^ (n.log2 - 52) := by
      rw [Nat.le_div_iff_mul_le hunit, ← hsplit]
      exact hself
    calc 2 ^ 53 ≤ 2 ^ n.log2 := Nat.pow_le_pow_right (by norm_num) hlog
      _ = 2 ^ 52 * 2 ^ (n.log2 - 52) := hsplit
      _ ≤ roundHalfEven n (2 ^ (n.log2 - 52)) * 2 ^ (n.log2 - 52) :=
        Nat.mul_le_mul_right _ (hquot.trans (div_le_roundHalfEven _ _))

example : toDouble (2 ^ 53 + 1) = 2 ^ 53 ∧ toDouble (2 ^ 53 + 3) = 2 ^ 53 + 4 := by decide

/-! ### The text of `tostring` -/

/-- Drop trailing zeros of a number. -/
def stripZeros : ℕ → ℕ → ℕ
  | 0, n => n
  | fuel + 1, n => if n % 10 = 0 then stripZeros fuel (n / 10) else n

/-- Fourteen significant digits of `n`, which has more, and the decimal exponent. -/
def significand14 (n : ℕ) : ℕ × ℕ :=
  let exponent := (Nat.toDigits 10 n).length - 1
  let digits := roundHalfEven n (10 ^ (exponent - 13))
  if digits = 10 ^ 14 then (10 ^ 13, exponent + 1) else (digits, exponent)

/-- `tostring`, that is `%.14g`: exact digits below `10 ^ 14`, scientific from there on. -/
def tostring (n : ℕ) : String :=
  if n < 10 ^ 14 then Nat.repr n
  else
    let (digits, exponent) := significand14 n
    let text := Nat.toDigits 10 (stripZeros 13 digits)
    let mantissa := if text.length = 1 then text else text.take 1 ++ '.' :: text.drop 1
    String.ofList (mantissa ++ 'e' :: '+' :: Nat.toDigits 10 exponent)

theorem repr_injective : Function.Injective Nat.repr := by
  intro a b h
  have hdigits : Nat.toDigits 10 a = Nat.toDigits 10 b := by
    rw [← Nat.toList_repr, ← Nat.toList_repr, h]
  rw [← Nat.ofDigitChars_ten_toDigits (n := a), hdigits, Nat.ofDigitChars_ten_toDigits]

theorem tostring_injective {a b : ℕ} (ha : a < 10 ^ 14) (hb : b < 10 ^ 14)
    (h : tostring a = tostring b) : a = b := by
  rw [tostring, tostring, if_pos ha, if_pos hb] at h
  exact repr_injective h

example : tostring 99999999999999 = "99999999999999" ∧ tostring (10 ^ 14) = "1e+14" ∧
    tostring 123456789012345 = "1.2345678901234e+14" := by decide

end LuaNumber

/-! ### Exact decimal texts as bytes -/

namespace Decimal

/-- The ASCII digits of a number. -/
def bytes (n : ℕ) : List UInt8 :=
  (Nat.toDigits 10 n).map fun c => c.toNat.toUInt8

def isDigit (b : UInt8) : Bool := 48 ≤ b && b ≤ 57

/-- Read a non-empty row of digits. -/
def parse (l : List UInt8) : Option ℕ :=
  if l.isEmpty || !l.all isDigit then none
  else some (Nat.ofDigitChars 10 (l.map fun b => Char.ofNat b.toNat) 0)

theorem toNat_of_isDigit {c : Char} (h : c.isDigit = true) : 48 ≤ c.toNat ∧ c.toNat ≤ 57 := by
  simp only [Char.isDigit, Bool.and_eq_true, decide_eq_true_eq] at h
  exact ⟨h.1, h.2⟩

theorem isDigit_of_mem_bytes {n : ℕ} {b : UInt8} (h : b ∈ bytes n) : isDigit b = true := by
  obtain ⟨c, hc, rfl⟩ := List.mem_map.mp h
  obtain ⟨hlow, hhigh⟩ := toNat_of_isDigit (Nat.isDigit_of_mem_toDigits (by decide) (by decide) hc)
  simp only [isDigit, Bool.and_eq_true, decide_eq_true_eq]
  constructor
  · show (48 : UInt8).toNat ≤ c.toNat.toUInt8.toNat
    simp only [Nat.toUInt8_eq, UInt8.toNat_ofNat', UInt8.reduceToNat]
    omega
  · show c.toNat.toUInt8.toNat ≤ (57 : UInt8).toNat
    simp only [Nat.toUInt8_eq, UInt8.toNat_ofNat', UInt8.reduceToNat]
    omega

theorem parse_bytes (n : ℕ) : parse (bytes n) = some n := by
  have hne : bytes n ≠ [] := by
    rw [bytes, Ne, List.map_eq_nil_iff]
    exact Nat.toDigits_ne_nil
  have hall : (bytes n).all isDigit = true :=
    List.all_eq_true.mpr fun b hb => isDigit_of_mem_bytes hb
  have hback : (bytes n).map (fun b => Char.ofNat b.toNat) = Nat.toDigits 10 n := by
    rw [bytes, List.map_map]
    conv_rhs => rw [← List.map_id (Nat.toDigits 10 n)]
    refine List.map_congr_left fun c hc => ?_
    obtain ⟨-, hhigh⟩ := toNat_of_isDigit (Nat.isDigit_of_mem_toDigits (by decide) (by decide) hc)
    have hbyte : c.toNat.toUInt8.toNat = c.toNat := by
      simp only [Nat.toUInt8_eq, UInt8.toNat_ofNat']
      omega
    simp [hbyte]
  rw [parse, if_neg (by simp [hne, hall]), hback, Nat.ofDigitChars_ten_toDigits]

theorem bytes_injective : Function.Injective bytes := by
  intro a b h
  have := parse_bytes a
  rw [h, parse_bytes, Option.some_inj] at this
  exact this.symm

/-- A byte that is no digit ends the number. -/
theorem takeWhile_bytes {n : ℕ} {a : UInt8} (ha : isDigit a = false) (x : List UInt8) :
    (bytes n ++ a :: x).takeWhile isDigit = bytes n := by
  rw [List.takeWhile_append_of_pos fun b hb => isDigit_of_mem_bytes hb,
    List.takeWhile_cons_of_neg (by simp [ha]), List.append_nil]

theorem bytes_append_inj {s t : ℕ} {a : UInt8} (ha : isDigit a = false) {x y : List UInt8}
    (h : bytes s ++ a :: x = bytes t ++ a :: y) : s = t ∧ x = y := by
  have hdigits : bytes s = bytes t := by
    rw [← takeWhile_bytes ha x, h, takeWhile_bytes ha y]
  rw [hdigits, List.append_cancel_left_eq, List.cons.injEq] at h
  exact ⟨bytes_injective hdigits, h.2⟩

end Decimal
