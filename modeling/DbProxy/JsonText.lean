/-
Compact JSON texts in ASCII.

A `Reader` takes a value off the front of the bytes and leaves the rest.
`Reads r text a` says that `r` takes exactly `text` and returns `a`, whatever
stands behind it; a reader of several parts reads the parts one after the other
(`Reads.bind`).  A string literal stands for UTF-16 code units: a character
outside ASCII is two escapes from `U+10000` on.

* `reads_literal` — code units are read back from their ASCII spelling;
* `reads_natural`, `reads_byteArray` — numbers and arrays of bytes.
-/
import DbProxy.PaddedDecimal
import DbProxy.Utf16

namespace JsonText

/-- Takes a value off the front of the bytes. -/
abbrev Reader := StateT (List UInt8) Option

def Reads {α : Type} (r : Reader α) (text : List UInt8) (a : α) : Prop :=
  ∀ rest, r.run (text ++ rest) = some (a, rest)

namespace Reads

variable {α β : Type} {r : Reader α} {s t : List UInt8} {a : α} {b : β}

theorem bind {k : α → Reader β} (hr : Reads r s a) (hk : Reads (k a) t b) :
    Reads (r >>= k) (s ++ t) b := by
  intro rest
  rw [StateT.run_bind, List.append_assoc, hr (t ++ rest)]
  exact hk rest

theorem pure : Reads (Pure.pure a) [] a := by
  intro rest
  rfl

/-- A whole text, with nothing behind it. -/
theorem run (hr : Reads r s a) : r.run s = some (a, []) := by
  have := hr []
  rwa [List.append_nil] at this

end Reads

/-! ### Words -/

/-- The bytes of an ASCII text. -/
def ascii (s : String) : List UInt8 := s.toList.map (·.toNat.toUInt8)

/-- Exactly these bytes. -/
def word (w : List UInt8) : Reader Unit := fun text =>
  if w.isPrefixOf text then some ((), text.drop w.length) else none

/-- The bytes before the next `stop`, which is taken too. -/
def upTo (stop : UInt8) : Reader (List UInt8) := fun text =>
  if stop ∈ text then
    some (text.takeWhile (· != stop), (text.dropWhile (· != stop)).tail)
  else none

theorem reads_word (w : List UInt8) : Reads (word w) w () := by
  intro rest
  show (if w.isPrefixOf (w ++ rest) then some ((), (w ++ rest).drop w.length) else none) = _
  rw [if_pos (List.isPrefixOf_iff_prefix.mpr (List.prefix_append w rest)), List.drop_left]

theorem reads_upTo {stop : UInt8} {l : List UInt8} (h : stop ∉ l) :
    Reads (upTo stop) (l ++ [stop]) l := by
  intro rest
  have hkeep : ∀ b ∈ l, (b != stop) = true := by
    intro b hb
    exact bne_iff_ne.mpr fun heq => h (heq ▸ hb)
  show (if stop ∈ l ++ [stop] ++ rest then some ((l ++ [stop] ++ rest).takeWhile (· != stop),
    ((l ++ [stop] ++ rest).dropWhile (· != stop)).tail) else none) = _
  rw [if_pos (by simp), List.append_assoc, List.takeWhile_append_of_pos hkeep,
    List.dropWhile_append_of_pos hkeep]
  simp

/-! ### Numbers -/

/-- A row of digits without leading zeros. -/
def number (l : List UInt8) : Option ℕ := (Decimal.parse l).filter (Decimal.bytes · = l)

theorem number_bytes (n : ℕ) : number (Decimal.bytes n) = some n := by
  rw [number, Decimal.parse_bytes]
  simp

/-- A number below `limit`, with the byte behind it. -/
def natural (limit : ℕ) (stop : UInt8) : Reader ℕ := do
  let digits ← upTo stop
  StateT.lift ((number digits).filter (· < limit))

theorem reads_lift {α : Type} {x : Option α} {a : α} (h : x = some a) :
    Reads (StateT.lift x) [] a := by
  subst h
  intro rest
  rfl

theorem not_mem_bytes {stop : UInt8} (h : Decimal.isDigit stop = false) (n : ℕ) :
    stop ∉ Decimal.bytes n := by
  intro hmem
  rw [Decimal.isDigit_of_mem_bytes hmem] at h
  cases h

theorem reads_natural {limit n : ℕ} {stop : UInt8} (hstop : Decimal.isDigit stop = false)
    (hn : n < limit) : Reads (natural limit stop) (Decimal.bytes n ++ [stop]) n := by
  have hvalue : (number (Decimal.bytes n)).filter (· < limit) = some n := by
    rw [number_bytes]
    simp [hn]
  have := (reads_upTo (not_mem_bytes hstop n)).bind (k := fun digits =>
    StateT.lift ((number digits).filter (· < limit))) (reads_lift hvalue)
  rwa [List.append_nil] at this

/-- An array of bytes, as numbers. -/
def byteArray : Reader (List UInt8) := do
  word (ascii "[")
  let body ← upTo 93
  StateT.lift (if body.isEmpty then some []
    else ((body.splitOn 44).mapM fun digits => (number digits).filter (· < 256)).map
      (·.map Nat.toUInt8))

def spellByteArray (l : List UInt8) : List UInt8 :=
  ascii "[" ++ ([44].intercalate (l.map (Decimal.bytes ·.toNat)) ++ [93])

theorem mapM_number_bytes (l : List UInt8) :
    (l.map (Decimal.bytes ·.toNat)).mapM (fun digits => (number digits).filter (· < 256)) =
      some (l.map (·.toNat)) := by
  induction l with
  | nil => rfl
  | cons b l ih =>
    have hb : (number (Decimal.bytes b.toNat)).filter (· < 256) = some b.toNat := by
      rw [number_bytes]
      simp [b.toNat_lt]
    rw [List.map_cons, List.mapM_cons, hb, ih]
    rfl

theorem mem_intercalate {a b : UInt8} : ∀ {ls : List (List UInt8)},
    b ∈ [a].intercalate ls → b = a ∨ ∃ l ∈ ls, b ∈ l
  | [], h => by simp at h
  | [l], h => by
    rw [List.intercalate_singleton] at h
    exact Or.inr ⟨l, List.mem_singleton_self l, h⟩
  | l :: m :: ls, h => by
    rw [List.intercalate_cons_cons, List.append_assoc, List.mem_append, List.mem_append,
      List.mem_singleton] at h
    rcases h with h | rfl | h
    · exact Or.inr ⟨l, List.mem_cons_self .., h⟩
    · exact Or.inl rfl
    · rcases mem_intercalate h with rfl | ⟨k, hk, hb⟩
      · exact Or.inl rfl
      · exact Or.inr ⟨k, List.mem_cons_of_mem _ hk, hb⟩

theorem reads_byteArray (l : List UInt8) : Reads byteArray (spellByteArray l) l := by
  -- the closing bracket is the first one
  have hbracket : 93 ∉ [44].intercalate (l.map (Decimal.bytes ·.toNat)) := by
    intro hmem
    rcases mem_intercalate hmem with heq | ⟨digits, hdigits, hmem⟩
    · cases heq
    · obtain ⟨b, -, rfl⟩ := List.mem_map.mp hdigits
      exact not_mem_bytes rfl _ hmem
  refine (reads_word _).bind ?_
  rw [← List.append_nil ([44].intercalate _ ++ [93])]
  refine (reads_upTo hbracket).bind (reads_lift ?_)
  by_cases hl : l = []
  · subst hl
    rfl
  · -- an array with elements has a digit in it
    have hne : ([44].intercalate (l.map (Decimal.bytes ·.toNat))).isEmpty = false := by
      obtain ⟨b, rest, rfl⟩ := List.exists_cons_of_ne_nil hl
      rw [List.isEmpty_eq_false_iff, List.map_cons]
      intro hnil
      have hdigits : Decimal.bytes b.toNat ≠ [] := by
        rw [Decimal.bytes, Ne, List.map_eq_nil_iff]
        exact Nat.toDigits_ne_nil
      cases rest with
      | nil => exact hdigits (by simpa using hnil)
      | cons c rest => simp [List.intercalate_cons_cons] at hnil
    have hsplit : ([44].intercalate (l.map (Decimal.bytes ·.toNat))).splitOn 44 =
        l.map (Decimal.bytes ·.toNat) := by
      refine List.splitOn_intercalate 44 (fun digits hdigits => ?_) (by simpa using hl)
      obtain ⟨b, -, rfl⟩ := List.mem_map.mp hdigits
      exact not_mem_bytes rfl _
    rw [hne, if_neg Bool.false_ne_true, hsplit, mapM_number_bytes, Option.map_some, List.map_map]
    refine congrArg some ?_
    conv_rhs => rw [← List.map_id l]
    refine List.map_congr_left fun b _ => ?_
    exact UInt8.ofNat_toNat

/-! ### String literals -/

/-- The letter behind the backslash, for the units that have one. -/
def shortEscapes : List (UInt16 × UInt8) :=
  [(34, 34), (92, 92), (8, 98), (9, 116), (10, 110), (12, 102), (13, 114)]

def hexDigit (n : ℕ) : UInt8 := if n < 10 then (48 + n).toUInt8 else (87 + n).toUInt8

def hexValue (b : UInt8) : Option ℕ :=
  if 48 ≤ b ∧ b ≤ 57 then some (b.toNat - 48)
  else if 97 ≤ b ∧ b ≤ 102 then some (b.toNat - 87)
  else none

/-- The four digits of an escape. -/
def hexDigits (u : UInt16) : List UInt8 :=
  [hexDigit (u.toNat / 4096), hexDigit (u.toNat / 256 % 16), hexDigit (u.toNat / 16 % 16),
    hexDigit (u.toNat % 16)]

def hexUnit (d₁ d₂ d₃ d₄ : UInt8) : Option UInt16 := do
  let n₁ ← hexValue d₁
  let n₂ ← hexValue d₂
  let n₃ ← hexValue d₃
  let n₄ ← hexValue d₄
  return (4096 * n₁ + 256 * n₂ + 16 * n₃ + n₄).toUInt16

/-- A code unit inside a literal, with escapes for all that ASCII does not show. -/
def spellUnit (u : UInt16) : List UInt8 :=
  (shortEscapes.lookup u).elim
    (if u < 32 ∨ 127 < u then 92 :: 117 :: hexDigits u else [u.toUInt8]) fun e => [92, e]

/-- The code units of a literal, from behind its first quote to its last. -/
def units : List UInt8 → Option (List UInt16 × List UInt8)
  | [] => none
  | b :: rest =>
    if b = 34 then some ([], rest)
    else if b = 92 then
      match rest with
      | [] => none
      | e :: rest =>
        if e = 117 then
          match rest with
          | d₁ :: d₂ :: d₃ :: d₄ :: rest => do
            let u ← hexUnit d₁ d₂ d₃ d₄
            (units rest).map (Prod.map (u :: ·) id)
          | _ => none
        else do
          let short ← shortEscapes.find? (·.2 == e)
          (units rest).map (Prod.map (short.1 :: ·) id)
    else if b < 32 ∨ 127 < b then none
    else (units rest).map (Prod.map (b.toUInt16 :: ·) id)

theorem hexValue_hexDigit {n : ℕ} (h : n < 16) : hexValue (hexDigit n) = some n := by
  have hall : ∀ m : Fin 16, hexValue (hexDigit m) = some m.val := by decide
  exact hall ⟨n, h⟩

theorem hexUnit_hexDigits (u : UInt16) :
    hexUnit (hexDigit (u.toNat / 4096)) (hexDigit (u.toNat / 256 % 16))
      (hexDigit (u.toNat / 16 % 16)) (hexDigit (u.toNat % 16)) = some u := by
  have hu : u.toNat < 65536 := u.toNat_lt
  rw [hexUnit, hexValue_hexDigit (by omega), hexValue_hexDigit (by omega),
    hexValue_hexDigit (by omega), hexValue_hexDigit (by omega)]
  have hsum : 4096 * (u.toNat / 4096) + 256 * (u.toNat / 256 % 16) + 16 * (u.toNat / 16 % 16) +
      u.toNat % 16 = u.toNat := by omega
  show some (4096 * (u.toNat / 4096) + 256 * (u.toNat / 256 % 16) + 16 * (u.toNat / 16 % 16) +
      u.toNat % 16).toUInt16 = some u
  rw [hsum]
  exact congrArg some UInt16.ofNat_toNat

theorem units_quote (rest : List UInt8) : units (34 :: rest) = some ([], rest) := by
  rw [units.eq_def]
  exact if_pos rfl

theorem units_shown {b : UInt8} (hquote : b ≠ 34) (hslash : b ≠ 92)
    (hshown : ¬ (b < 32 ∨ 127 < b)) (rest : List UInt8) :
    units (b :: rest) = (units rest).map (Prod.map (b.toUInt16 :: ·) id) := by
  rw [units.eq_def]
  simp only [if_neg hquote, if_neg hslash, if_neg hshown]

theorem units_short {e : UInt8} (he : e ≠ 117) (rest : List UInt8) :
    units (92 :: e :: rest) = (shortEscapes.find? (·.2 == e)).bind fun short =>
      (units rest).map (Prod.map (short.1 :: ·) id) := by
  have hquote : (92 : UInt8) ≠ 34 := by decide
  rw [units.eq_def]
  simp only [if_neg hquote, if_neg he]
  rfl

theorem units_hex (u : UInt16) (rest : List UInt8) :
    units (92 :: 117 :: (hexDigits u ++ rest)) = (units rest).map (Prod.map (u :: ·) id) := by
  have hquote : (92 : UInt8) ≠ 34 := by decide
  rw [hexDigits]
  simp only [List.cons_append, List.nil_append]
  rw [units.eq_def]
  simp only [if_neg hquote, hexUnit_hexDigits]
  rfl

/-- The spelling of a unit is read back, whatever follows. -/
theorem units_spellUnit (u : UInt16) (rest : List UInt8) :
    units (spellUnit u ++ rest) = (units rest).map (Prod.map (u :: ·) id) := by
  rw [spellUnit]
  cases hshort : shortEscapes.lookup u with
  | some e =>
    -- no two units have the same letter, and none has the letter of a hex escape
    have hall : shortEscapes.all (fun pair => decide (pair.2 ≠ 117 ∧
        shortEscapes.find? (·.2 == pair.2) = some pair)) = true := by decide
    have hmem : (u, e) ∈ shortEscapes := by
      obtain ⟨l, m, hlm, -⟩ := List.lookup_eq_some_iff.mp hshort
      rw [hlm]
      exact List.mem_append_right _ (List.mem_cons_self ..)
    obtain ⟨hletter, hfind⟩ := of_decide_eq_true (List.all_eq_true.mp hall _ hmem)
    rw [Option.elim_some, List.cons_append, List.cons_append, List.nil_append,
      units_short hletter, hfind]
    rfl
  | none =>
    rw [Option.elim_none]
    split
    · rw [List.cons_append, List.cons_append, units_hex]
    · rename_i hrange
      -- a character of ASCII is its own byte
      have hnat : ¬ (u.toNat < 32 ∨ 127 < u.toNat) := hrange
      have hbyte : u.toUInt8.toNat = u.toNat := by
        rw [UInt16.toNat_toUInt8]
        omega
      have hback : u.toUInt8.toUInt16 = u := by
        apply UInt16.toNat_inj.mp
        rw [UInt8.toNat_toUInt16, hbyte]
      -- the quote and the backslash have letters
      have hquote : u.toUInt8 ≠ 34 := by
        intro h
        rw [h] at hback
        rw [← hback] at hshort
        cases hshort
      have hslash : u.toUInt8 ≠ 92 := by
        intro h
        rw [h] at hback
        rw [← hback] at hshort
        cases hshort
      have hshown : ¬ (u.toUInt8 < 32 ∨ 127 < u.toUInt8) := by
        show ¬ (u.toUInt8.toNat < 32 ∨ 127 < u.toUInt8.toNat)
        rwa [hbyte]
      rw [List.singleton_append, units_shown hquote hslash hshown, hback]

theorem units_spell (l : List UInt16) (rest : List UInt8) :
    units (l.flatMap spellUnit ++ 34 :: rest) = some (l, rest) := by
  induction l with
  | nil => exact units_quote rest
  | cons u l ih =>
    rw [List.flatMap_cons, List.append_assoc, units_spellUnit, ih]
    rfl

/-- A string literal, as code units. -/
def literal : Reader (List UInt16) := do
  word (ascii "\"")
  StateT.mk units

def spellLiteral (l : List UInt16) : List UInt8 :=
  ascii "\"" ++ (l.flatMap spellUnit ++ [34])

def spellMember (name : String) : List UInt8 := spellLiteral (Utf16.codeUnits name) ++ ascii ":"

/-- The name of a member, with its colon. -/
def member (name : String) : Reader Unit := word (spellMember name)

theorem reads_literal (l : List UInt16) : Reads literal (spellLiteral l) l := by
  refine (reads_word _).bind fun rest => ?_
  rw [List.append_assoc, List.singleton_append]
  exact units_spell _ rest

end JsonText
