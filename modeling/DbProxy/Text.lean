/-
Text as the services compare it.

Strings are sequences of Unicode scalar values; `utf8ByteSize` is the length in
bytes.  `blank` is `trim().is_empty()` with the Unicode `White_Space` property,
`isControl` the general category `Cc`.
-/
import Mathlib.Data.String.Basic

namespace Text

/-- The Unicode `White_Space` property. -/
def isWhiteSpace (c : Char) : Bool :=
  let n := c.toNat
  (0x09 ≤ n && n ≤ 0x0D) || n == 0x20 || n == 0x85 || n == 0xA0 || n == 0x1680 ||
    (0x2000 ≤ n && n ≤ 0x200A) || n == 0x2028 || n == 0x2029 || n == 0x202F ||
    n == 0x205F || n == 0x3000

/-- The general category `Cc`. -/
def isControl (c : Char) : Bool :=
  c.toNat < 0x20 || (0x7F ≤ c.toNat && c.toNat ≤ 0x9F)

/-- Nothing is left after trimming white space at both ends. -/
def blank (s : String) : Bool :=
  s.toList.all isWhiteSpace

/-- Letters and digits of ASCII. -/
def isAsciiAlphanumeric (c : Char) : Bool :=
  ('0' ≤ c && c ≤ '9') || ('A' ≤ c && c ≤ 'Z') || ('a' ≤ c && c ≤ 'z')

/-- A text that `isBlank` does not reject and that has at most the given bytes. -/
def Fits (isBlank : String → Bool) (text : String × ℕ) : Prop :=
  isBlank text.1 = false ∧ text.1.utf8ByteSize ≤ text.2

instance (isBlank : String → Bool) (text : String × ℕ) : Decidable (Fits isBlank text) :=
  inferInstanceAs (Decidable (_ ∧ _))

end Text
