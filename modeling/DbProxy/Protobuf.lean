/-
Sizes of protocol-buffer messages.

A message is the concatenation of its fields.  A field starts with a key, its number and
wire type in one varint, and goes on with a varint or with a length and so many bytes.  In
proto3 a number that is zero and an empty text are left out; an optional number that is set
and a message that is there are always written.

* `length_delimited`, `length_textField` — a field with a length takes `delimitedBytes` of
  that length, and nothing if an empty text is left out;
* `length_textField_le` and its siblings — a field takes twenty bytes besides its content.
-/
import DbProxy.Utf16
import Mathlib.Algebra.Ring.Nat

namespace Protobuf

/-- `encode_varint` of a `u64`: at most so many groups of seven bits, the lowest first. -/
def varintGroups : ℕ → ℕ → List UInt8
  | 0, _ => []
  | groups + 1, n =>
    if n < 128 then [UInt8.ofNat n]
    else UInt8.ofNat (n % 128 + 128) :: varintGroups groups (n / 128)

def varint (n : ℕ) : List UInt8 := varintGroups 10 n

/-- The wire type is 0 for a varint and 2 for a length and so many bytes. -/
def fieldKey (number wireType : ℕ) : List UInt8 := varint (8 * number + wireType)

/-- A field of a byte string, a text or a message. -/
def delimited (number : ℕ) (body : List UInt8) : List UInt8 :=
  fieldKey number 2 ++ varint body.length ++ body

def optionalNumber (number : ℕ) (value : Option ℕ) : List UInt8 :=
  value.elim [] fun n => fieldKey number 0 ++ varint n

def numberField (number value : ℕ) : List UInt8 :=
  optionalNumber number (if value = 0 then none else some value)

def boolField (number : ℕ) (value : Bool) : List UInt8 := numberField number value.toNat

def bytesField (number : ℕ) (value : List UInt8) : List UInt8 :=
  if value = [] then [] else delimited number value

/-- `encode_utf8`. -/
def utf8 (text : String) : List UInt8 := text.toList.flatMap String.utf8EncodeChar

def textField (number : ℕ) (text : String) : List UInt8 := bytesField number (utf8 text)

def messageField (number : ℕ) (message : Option (List UInt8)) : List UInt8 :=
  message.elim [] (delimited number)

def repeatedField (number : ℕ) (messages : List (List UInt8)) : List UInt8 :=
  messages.flatMap (delimited number)

/-! ### Lengths -/

theorem length_varintGroups_le (groups n : ℕ) : (varintGroups groups n).length ≤ groups := by
  induction groups generalizing n with
  | zero => rfl
  | succ groups ih =>
    rw [varintGroups]
    split
    · exact Nat.succ_le_succ (Nat.zero_le groups)
    · exact Nat.succ_le_succ (ih _)

theorem length_varint_le (n : ℕ) : (varint n).length ≤ 10 := length_varintGroups_le 10 n

/-- The bytes of a field with a length. -/
def delimitedBytes (number length : ℕ) : ℕ :=
  (fieldKey number 2).length + (varint length).length + length

theorem length_delimited (number : ℕ) (body : List UInt8) :
    (delimited number body).length = delimitedBytes number body.length := by
  rw [delimited, List.length_append, List.length_append]
  rfl

theorem lt_delimitedBytes (number length : ℕ) : length < delimitedBytes number length := by
  have hkey : 0 < (fieldKey number 2).length := by
    rw [fieldKey, varint, varintGroups]
    split
    · exact Nat.one_pos
    · exact Nat.succ_pos _
  rw [delimitedBytes]
  omega

theorem delimitedBytes_le (number length : ℕ) : delimitedBytes number length ≤ length + 20 := by
  have hkey := length_varint_le (8 * number + 2)
  have hlength := length_varint_le length
  simp only [delimitedBytes, fieldKey]
  omega

theorem length_delimited_le (number : ℕ) (body : List UInt8) :
    (delimited number body).length ≤ body.length + 20 := by
  rw [length_delimited]
  exact delimitedBytes_le number body.length

theorem length_optionalNumber_le (number : ℕ) (value : Option ℕ) :
    (optionalNumber number value).length ≤ 20 := by
  cases value with
  | none => exact Nat.zero_le 20
  | some n =>
    have hkey := length_varint_le (8 * number + 0)
    have hvalue := length_varint_le n
    simp only [optionalNumber, Option.elim_some, fieldKey, List.length_append]
    omega

theorem length_numberField_le (number value : ℕ) : (numberField number value).length ≤ 20 :=
  length_optionalNumber_le _ _

theorem length_boolField_le (number : ℕ) (value : Bool) :
    (boolField number value).length ≤ 20 := length_numberField_le _ _

/-- The bytes of a text or a byte string of so many bytes. -/
def contentBytes (number length : ℕ) : ℕ := if length = 0 then 0 else delimitedBytes number length

theorem le_contentBytes (number length : ℕ) : length ≤ contentBytes number length := by
  rw [contentBytes]
  split
  · omega
  · exact (lt_delimitedBytes number length).le

theorem length_bytesField (number : ℕ) (value : List UInt8) :
    (bytesField number value).length = contentBytes number value.length := by
  rw [bytesField, contentBytes]
  by_cases h : value = []
  · rw [if_pos h, if_pos (List.length_eq_zero_iff.mpr h), List.length_nil]
  · rw [if_neg h, if_neg (mt List.length_eq_zero_iff.mp h), length_delimited]

theorem length_bytesField_le (number : ℕ) (value : List UInt8) :
    (bytesField number value).length ≤ value.length + 20 := by
  rw [bytesField]
  split
  · exact Nat.zero_le _
  · exact length_delimited_le number value

theorem length_utf8 (text : String) : (utf8 text).length = text.utf8ByteSize := by
  rw [utf8]
  exact Utf16.length_utf8Encode text

theorem length_textField (number : ℕ) (text : String) :
    (textField number text).length = contentBytes number text.utf8ByteSize := by
  rw [textField, length_bytesField, length_utf8]

theorem length_textField_le (number : ℕ) (text : String) :
    (textField number text).length ≤ text.utf8ByteSize + 20 :=
  (length_bytesField_le number _).trans_eq (congrArg (· + 20) (length_utf8 text))

theorem length_messageField_le (number : ℕ) {message : Option (List UInt8)} {bound : ℕ}
    (h : ∀ body ∈ message, body.length ≤ bound) :
    (messageField number message).length ≤ bound + 20 := by
  cases message with
  | none => exact Nat.zero_le _
  | some body =>
    exact (length_delimited_le number body).trans (Nat.add_le_add_right (h body rfl) 20)

theorem length_repeatedField_le (number : ℕ) {messages : List (List UInt8)} {bound : ℕ}
    (h : ∀ body ∈ messages, body.length ≤ bound) :
    (repeatedField number messages).length ≤ messages.length * (bound + 20) := by
  induction messages with
  | nil => exact Nat.zero_le _
  | cons body rest ih =>
    obtain ⟨hbody, hrest⟩ := List.forall_mem_cons.mp h
    have hfirst := length_delimited_le number body
    have hothers : (rest.flatMap (delimited number)).length ≤ rest.length * (bound + 20) := ih hrest
    rw [repeatedField, List.flatMap_cons, List.length_append, List.length_cons, Nat.succ_mul]
    omega

end Protobuf
