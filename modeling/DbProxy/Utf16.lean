/-
Texts as sequences of UTF-16 code units.

A well-formed text is a list of Unicode scalar values; a runtime that stores its
code units compares, cuts and counts those.

* `codeUnits_inj` — equal code units are equal texts;
* `decodeText_eq_some` — exactly the code units of a text are decoded to it;
* `all_codeUnits` — a test that refuses the surrogates tests characters;
* `utf8ByteSize_ofList`, `length_utf8Encode` — the length in UTF-8 is the sum over the
  characters, and that of the encoding;
* `utf8ByteSize_bounds` — it is at least the number of characters, at most four times;
* `exists_codeUnits_eq_toWellFormed` — with every unpaired surrogate replaced, code
  units are those of a text.
-/
import Mathlib.Algebra.Ring.Nat
import Mathlib.Data.List.Basic
import Mathlib.Data.String.Basic

namespace Utf16

/-- One unit below `0x10000`, a surrogate pair from there on. -/
def charUnits (c : Char) : List UInt16 :=
  if c.toNat < 0x10000 then [UInt16.ofNat c.toNat]
  else [UInt16.ofNat (0xD800 + (c.toNat - 0x10000) / 0x400),
    UInt16.ofNat (0xDC00 + (c.toNat - 0x10000) % 0x400)]

def codeUnits (s : String) : List UInt16 := s.toList.flatMap charUnits

/-- The two kinds of characters, with the values of their units. -/
theorem charUnits_cases (c : Char) :
    (∃ u : UInt16, charUnits c = [u] ∧ u.toNat = c.toNat ∧
      (c.toNat < 0xD800 ∨ 0xDFFF < c.toNat) ∧ c.toNat < 0x10000) ∨
    ∃ high low : UInt16, charUnits c = [high, low] ∧ 0x10000 ≤ c.toNat ∧ c.toNat < 0x110000 ∧
      high.toNat = 0xD800 + (c.toNat - 0x10000) / 0x400 ∧
      low.toNat = 0xDC00 + (c.toNat - 0x10000) % 0x400 := by
  have hvalid : c.toNat < 0xD800 ∨ (0xDFFF < c.toNat ∧ c.toNat < 0x110000) := c.valid
  by_cases h : c.toNat < 0x10000
  · refine Or.inl ⟨UInt16.ofNat c.toNat, if_pos h, ?_, ?_, h⟩
    · exact UInt16.toNat_ofNat_of_lt h
    · omega
  · refine Or.inr ⟨_, _, if_neg h, by omega, by omega, ?_, ?_⟩
    · exact UInt16.toNat_ofNat_of_lt (by simp only [UInt16.size]; omega)
    · exact UInt16.toNat_ofNat_of_lt (by simp only [UInt16.size]; omega)

theorem charUnits_append_inj {c d : Char} {x y : List UInt16}
    (h : charUnits c ++ x = charUnits d ++ y) : c = d ∧ x = y := by
  rcases charUnits_cases c with ⟨u, hc, hu, hrange, -⟩ | ⟨high, low, hc, hbig, htop, hh, hl⟩
  · rcases charUnits_cases d with ⟨v, hd, hv, -, -⟩ | ⟨high', low', hd, hbig', htop', hh', -⟩
    · rw [hc, hd, List.singleton_append, List.singleton_append, List.cons.injEq] at h
      obtain ⟨huv, hxy⟩ := h
      exact ⟨Char.toNat_inj.mp (by rw [← hu, ← hv, huv]), hxy⟩
    · -- a unit of its own is no surrogate
      rw [hc, hd, List.singleton_append, List.cons_append, List.cons.injEq] at h
      have := congrArg UInt16.toNat h.1
      omega
  · rcases charUnits_cases d with ⟨v, hd, hv, hrange, -⟩ | ⟨high', low', hd, hbig', -, hh', hl'⟩
    · rw [hc, hd, List.singleton_append, List.cons_append, List.cons.injEq] at h
      have := congrArg UInt16.toNat h.1
      omega
    · rw [hc, hd] at h
      simp only [List.cons_append, List.nil_append, List.cons.injEq] at h
      obtain ⟨hhigh, hlow, hxy⟩ := h
      have h1 := congrArg UInt16.toNat hhigh
      have h2 := congrArg UInt16.toNat hlow
      exact ⟨Char.toNat_inj.mp (by omega), hxy⟩

theorem charUnits_ne_nil (c : Char) : charUnits c ≠ [] := by
  rw [charUnits]
  split
  · simp
  · simp

theorem flatMap_charUnits_inj : ∀ {l m : List Char},
    l.flatMap charUnits = m.flatMap charUnits → l = m
  | [], [], _ => rfl
  | [], d :: m, h => by
    rw [List.flatMap_nil, List.flatMap_cons] at h
    exact absurd (List.append_eq_nil_iff.mp h.symm).1 (charUnits_ne_nil d)
  | c :: l, [], h => by
    rw [List.flatMap_nil, List.flatMap_cons] at h
    exact absurd (List.append_eq_nil_iff.mp h).1 (charUnits_ne_nil c)
  | c :: l, d :: m, h => by
    rw [List.flatMap_cons, List.flatMap_cons] at h
    obtain ⟨rfl, hrest⟩ := charUnits_append_inj h
    rw [flatMap_charUnits_inj hrest]

/-- Two texts with the same code units are the same text. -/
@[simp] theorem codeUnits_inj {s t : String} : codeUnits s = codeUnits t ↔ s = t := by
  constructor
  · intro h
    exact String.ext (flatMap_charUnits_inj h)
  · intro h
    rw [h]

/-- The character of a unit that is no surrogate. -/
def decodeUnit (u : UInt16) : Option Char :=
  if 0xD800 ≤ u.toNat ∧ u.toNat ≤ 0xDFFF then none else some (Char.ofNat u.toNat)

/-- The characters of well-formed code units; a surrogate without its partner has none. -/
def decodeUnits : List UInt16 → Option (List Char)
  | [] => some []
  | [u] => (decodeUnit u).map fun c => [c]
  | u :: v :: rest =>
    if 0xD800 ≤ u.toNat ∧ u.toNat ≤ 0xDBFF ∧ 0xDC00 ≤ v.toNat ∧ v.toNat ≤ 0xDFFF then
      (decodeUnits rest).map
        (Char.ofNat (0x10000 + (u.toNat - 0xD800) * 0x400 + (v.toNat - 0xDC00)) :: ·)
    else
      (decodeUnit u).bind fun c => (decodeUnits (v :: rest)).map (c :: ·)

theorem decodeUnits_charUnits (c : Char) (rest : List UInt16) :
    decodeUnits (charUnits c ++ rest) = (decodeUnits rest).map (c :: ·) := by
  rcases charUnits_cases c with ⟨u, hc, hu, hrange, -⟩ | ⟨high, low, hc, hbig, htop, hh, hl⟩
  · have hunit : decodeUnit u = some c := by
      rw [decodeUnit, if_neg (by omega), hu, Char.ofNat_toNat]
    rw [hc, List.singleton_append]
    cases rest with
    | nil =>
      show (decodeUnit u).map (fun c => [c]) = some [c]
      rw [hunit]
      rfl
    | cons v rest =>
      rw [decodeUnits, if_neg (by omega), hunit, Option.bind_some]
  · have hsum : 0x10000 + (high.toNat - 0xD800) * 0x400 + (low.toNat - 0xDC00) = c.toNat := by
      omega
    rw [hc, List.cons_append, List.singleton_append, decodeUnits, if_pos (by omega), hsum,
      Char.ofNat_toNat]

/-- The code units of a text are well formed. -/
theorem decodeUnits_codeUnits (s : String) : decodeUnits (codeUnits s) = some s.toList := by
  rw [codeUnits]
  induction s.toList with
  | nil => rfl
  | cons c l ih =>
    rw [List.flatMap_cons, decodeUnits_charUnits, ih, Option.map_some]

/-- The text of well-formed code units. -/
def decodeText (l : List UInt16) : Option String := (decodeUnits l).map String.ofList

theorem decodeText_codeUnits (s : String) : decodeText (codeUnits s) = some s := by
  rw [decodeText, decodeUnits_codeUnits, Option.map_some, String.ofList_toList]

theorem toNat_ofNat {n : ℕ} (h : n < 0xD800 ∨ (0xDFFF < n ∧ n < 0x110000)) :
    (Char.ofNat n).toNat = n := by
  have hvalid : n.isValidChar := h
  rw [Char.ofNat, dif_pos hvalid]
  rfl

theorem charUnits_decodeUnit {u : UInt16} {c : Char} (h : decodeUnit u = some c) :
    charUnits c = [u] := by
  have hu : u.toNat < 65536 := u.toNat_lt
  rw [decodeUnit] at h
  split at h
  · cases h
  · rename_i hrange
    obtain rfl := Option.some_inj.mp h
    have hvalue : (Char.ofNat u.toNat).toNat = u.toNat := toNat_ofNat (by omega)
    rw [charUnits, hvalue, if_pos (by omega), UInt16.ofNat_toNat]

/-- A pair of surrogates is the code units of a character. -/
theorem charUnits_decodePair {high low : UInt16}
    (hhigh : 0xD800 ≤ high.toNat ∧ high.toNat ≤ 0xDBFF)
    (hlow : 0xDC00 ≤ low.toNat ∧ low.toNat ≤ 0xDFFF) :
    charUnits (Char.ofNat (0x10000 + (high.toNat - 0xD800) * 0x400 + (low.toNat - 0xDC00))) =
      [high, low] := by
  obtain ⟨n, hn⟩ : ∃ n, n = 0x10000 + (high.toNat - 0xD800) * 0x400 + (low.toNat - 0xDC00) :=
    ⟨_, rfl⟩
  have hvalue : (Char.ofNat n).toNat = n := toNat_ofNat (by omega)
  have hfirst : 0xD800 + (n - 0x10000) / 0x400 = high.toNat := by omega
  have hsecond : 0xDC00 + (n - 0x10000) % 0x400 = low.toNat := by omega
  rw [← hn, charUnits, hvalue, if_neg (by omega), hfirst, hsecond, UInt16.ofNat_toNat,
    UInt16.ofNat_toNat]

/-- Only the code units of a text are decoded. -/
theorem decodeUnits_eq_some : ∀ {l : List UInt16} {cs : List Char},
    decodeUnits l = some cs → l = cs.flatMap charUnits
  | [], cs, h => by
    obtain rfl := Option.some_inj.mp h
    rfl
  | [u], cs, h => by
    obtain ⟨c, hc, rfl⟩ := Option.map_eq_some_iff.mp h
    rw [List.flatMap_singleton, charUnits_decodeUnit hc]
  | u :: v :: rest, cs, h => by
    rw [decodeUnits] at h
    split at h
    · rename_i hpair
      obtain ⟨hulow, huhigh, hv⟩ := hpair
      obtain ⟨cs, hcs, rfl⟩ := Option.map_eq_some_iff.mp h
      rw [List.flatMap_cons, charUnits_decodePair ⟨hulow, huhigh⟩ hv,
        ← decodeUnits_eq_some hcs]
      rfl
    · obtain ⟨c, hc, h⟩ := Option.bind_eq_some_iff.mp h
      obtain ⟨cs, hcs, rfl⟩ := Option.map_eq_some_iff.mp h
      rw [List.flatMap_cons, charUnits_decodeUnit hc, ← decodeUnits_eq_some hcs]
      rfl

theorem decodeText_eq_some {l : List UInt16} {s : String} :
    decodeText l = some s ↔ l = codeUnits s := by
  constructor
  · intro h
    obtain ⟨cs, hcs, rfl⟩ := Option.map_eq_some_iff.mp h
    rw [codeUnits, String.toList_ofList]
    exact decodeUnits_eq_some hcs
  · rintro rfl
    exact decodeText_codeUnits s

theorem codeUnits_append (s t : String) : codeUnits (s ++ t) = codeUnits s ++ codeUnits t := by
  rw [codeUnits, String.toList_append, List.flatMap_append]
  rfl

theorem codeUnits_eq_nil {s : String} : codeUnits s = [] ↔ s = "" := by
  have hempty : codeUnits "" = [] := rfl
  rw [← hempty, codeUnits_inj]

/-- A text whose code units start with those of another text starts with it. -/
theorem prefix_of_flatMap_charUnits {x : List UInt16} : ∀ {l m : List Char},
    l.flatMap charUnits = m.flatMap charUnits ++ x → m <+: l
  | l, [], _ => List.nil_prefix
  | [], d :: m, h => by
    rw [List.flatMap_nil, List.flatMap_cons, List.append_assoc] at h
    exact absurd (List.append_eq_nil_iff.mp h.symm).1 (charUnits_ne_nil d)
  | c :: l, d :: m, h => by
    rw [List.flatMap_cons, List.flatMap_cons, List.append_assoc] at h
    obtain ⟨rfl, hrest⟩ := charUnits_append_inj h
    exact List.cons_prefix_cons.mpr ⟨rfl, prefix_of_flatMap_charUnits hrest⟩

/-- A test on code units that accepts no surrogate is a test on characters. -/
theorem all_codeUnits {p : UInt16 → Bool} {q : Char → Bool} {s : String}
    (hsurrogate : ∀ u : UInt16, 0xD800 ≤ u.toNat → u.toNat ≤ 0xDFFF → p u = false)
    (hbig : ∀ c : Char, 0x10000 ≤ c.toNat → q c = false)
    (hunit : ∀ (u : UInt16) (c : Char), u.toNat = c.toNat → p u = q c) :
    (codeUnits s).all p = s.toList.all q := by
  rw [codeUnits, List.all_flatMap]
  congr 1
  funext c
  rcases charUnits_cases c with ⟨u, hc, hu, -, -⟩ | ⟨high, low, hc, hlarge, htop, hh, -⟩
  · rw [hc, List.all_cons, List.all_nil, Bool.and_true, hunit u c hu]
  · rw [hc, List.all_cons, hbig c hlarge, hsurrogate high (by omega) (by omega), Bool.false_and]

/-- The same for a test that finds no surrogate. -/
theorem any_codeUnits {p : UInt16 → Bool} {q : Char → Bool} {s : String}
    (hsurrogate : ∀ u : UInt16, 0xD800 ≤ u.toNat → u.toNat ≤ 0xDFFF → p u = false)
    (hbig : ∀ c : Char, 0x10000 ≤ c.toNat → q c = false)
    (hunit : ∀ (u : UInt16) (c : Char), u.toNat = c.toNat → p u = q c) :
    (codeUnits s).any p = s.toList.any q := by
  rw [codeUnits, List.any_flatMap]
  congr 1
  funext c
  rcases charUnits_cases c with ⟨u, hc, hu, -, -⟩ | ⟨high, low, hc, hlarge, htop, hh, hl⟩
  · rw [hc, List.any_cons, List.any_nil, Bool.or_false, hunit u c hu]
  · rw [hc, List.any_cons, List.any_cons, List.any_nil, hbig c hlarge,
      hsurrogate high (by omega) (by omega), hsurrogate low (by omega) (by omega)]
    rfl

theorem utf8ByteSize_ofList (l : List Char) :
    (String.ofList l).utf8ByteSize = (l.map Char.utf8Size).sum := by
  induction l with
  | nil => rfl
  | cons c l ih =>
    have hsplit : String.ofList (c :: l) = String.singleton c ++ String.ofList l := by
      apply String.ext
      simp
    rw [hsplit, String.utf8ByteSize_append, String.utf8ByteSize_singleton, ih, List.map_cons,
      List.sum_cons]

theorem length_utf8Encode (s : String) :
    (s.toList.flatMap String.utf8EncodeChar).length = s.utf8ByteSize := by
  rw [List.length_flatMap, ← String.ofList_toList (s := s), utf8ByteSize_ofList,
    String.toList_ofList]
  congr 1
  exact List.map_congr_left fun c _ => String.length_utf8EncodeChar c

/-- A character takes one to four bytes. -/
theorem utf8ByteSize_bounds (s : String) :
    s.length ≤ s.utf8ByteSize ∧ s.utf8ByteSize ≤ 4 * s.length := by
  have hchars : ∀ l : List Char,
      l.length ≤ (l.map Char.utf8Size).sum ∧ (l.map Char.utf8Size).sum ≤ 4 * l.length := by
    intro l
    induction l with
    | nil => exact ⟨Nat.le_refl 0, Nat.le_refl 0⟩
    | cons c l ih =>
      have hpos := c.utf8Size_pos
      have hfour := c.utf8Size_le_four
      rw [List.length_cons, List.map_cons, List.sum_cons]
      omega
  rw [← String.ofList_toList (s := s), utf8ByteSize_ofList, String.length_ofList]
  exact hchars s.toList

/-! ### Unpaired surrogates -/

def highSurrogate (u : UInt16) : Prop := 0xD800 ≤ u.toNat ∧ u.toNat ≤ 0xDBFF

def lowSurrogate (u : UInt16) : Prop := 0xDC00 ≤ u.toNat ∧ u.toNat ≤ 0xDFFF

instance : DecidablePred highSurrogate := fun _ => inferInstanceAs (Decidable (_ ∧ _))

instance : DecidablePred lowSurrogate := fun _ => inferInstanceAs (Decidable (_ ∧ _))

/-- A high surrogate with no low one behind it, or a low surrogate with no high one before
it. -/
def Unpaired (before : Option UInt16) (u : UInt16) (behind : Option UInt16) : Prop :=
  (highSurrogate u ∧ ¬ ∃ v ∈ behind, lowSurrogate v) ∨
    (lowSurrogate u ∧ ¬ ∃ v ∈ before, highSurrogate v)

instance (before : Option UInt16) (u : UInt16) (behind : Option UInt16) :
    Decidable (Unpaired before u behind) :=
  decidable_of_iff
    ((highSurrogate u ∧ behind.any (lowSurrogate ·) = false) ∨
      (lowSurrogate u ∧ before.any (highSurrogate ·) = false))
    (by
      rw [Unpaired]
      cases before <;> cases behind <;> simp)

/-- Every unpaired surrogate replaced by U+FFFD; `before` is the unit in front. -/
def replaceUnpaired : Option UInt16 → List UInt16 → List UInt16
  | _, [] => []
  | before, u :: rest =>
    (if Unpaired before u rest.head? then 0xFFFD else u) :: replaceUnpaired (some u) rest

def toWellFormed (l : List UInt16) : List UInt16 := replaceUnpaired none l

theorem not_lowSurrogate {u : UInt16} (h : highSurrogate u) : ¬ lowSurrogate u := by
  intro hlow
  have := h.2
  have := hlow.1
  omega

/-- The unit in front matters only inside a pair. -/
theorem replaceUnpaired_eq {before : Option UInt16} {l : List UInt16}
    (h : ¬ ((∃ u ∈ before, highSurrogate u) ∧ ∃ v ∈ l.head?, lowSurrogate v)) :
    replaceUnpaired before l = toWellFormed l := by
  cases l with
  | nil => rfl
  | cons u rest =>
    have hsame : Unpaired before u rest.head? ↔ Unpaired none u rest.head? := by
      refine or_congr_right (and_congr_right fun hlow => ?_)
      constructor
      · rintro - ⟨v, hv, -⟩
        cases hv
      · intro _ hbefore
        exact h ⟨hbefore, u, rfl, hlow⟩
    rw [toWellFormed, replaceUnpaired, replaceUnpaired]
    simp only [hsame]

theorem toWellFormed_pair {high low : UInt16} (hhigh : highSurrogate high)
    (hlow : lowSurrogate low) (rest : List UInt16) :
    toWellFormed (high :: low :: rest) = high :: low :: toWellFormed rest := by
  have hfirst : ¬ Unpaired none high (some low) := by
    rintro (⟨-, h⟩ | ⟨h, -⟩)
    · exact h ⟨low, rfl, hlow⟩
    · exact not_lowSurrogate hhigh h
  have hsecond : ¬ Unpaired (some high) low rest.head? := by
    rintro (⟨h, -⟩ | ⟨-, h⟩)
    · exact not_lowSurrogate h hlow
    · exact h ⟨high, rfl, hhigh⟩
  have hrest : replaceUnpaired (some low) rest = toWellFormed rest := by
    apply replaceUnpaired_eq
    rintro ⟨⟨u, hu, h⟩, -⟩
    obtain rfl := Option.some_inj.mp hu
    exact not_lowSurrogate h hlow
  rw [toWellFormed, replaceUnpaired, List.head?_cons, if_neg hfirst, replaceUnpaired,
    if_neg hsecond, hrest]

/-- Any other unit in front is replaced if it is a surrogate. -/
theorem toWellFormed_cons {u : UInt16} {rest : List UInt16}
    (h : ¬ (highSurrogate u ∧ ∃ v ∈ rest.head?, lowSurrogate v)) :
    toWellFormed (u :: rest) =
      (if highSurrogate u ∨ lowSurrogate u then 0xFFFD else u) :: toWellFormed rest := by
  have hfirst : Unpaired none u rest.head? ↔ highSurrogate u ∨ lowSurrogate u := by
    refine or_congr (and_iff_left_of_imp fun hu hv => h ⟨hu, hv⟩) (and_iff_left ?_)
    rintro ⟨v, hv, -⟩
    cases hv
  have hrest : replaceUnpaired (some u) rest = toWellFormed rest := by
    apply replaceUnpaired_eq
    rintro ⟨⟨v, hv, hu⟩, hlow⟩
    obtain rfl := Option.some_inj.mp hv
    exact h ⟨hu, hlow⟩
  rw [toWellFormed, replaceUnpaired, hrest]
  simp only [hfirst]

/-- Induction on code units: a pair of surrogates at once, any other unit alone. -/
theorem pairInduction {motive : List UInt16 → Prop} (nil : motive [])
    (pair : ∀ high low rest, highSurrogate high → lowSurrogate low → motive rest →
      motive (high :: low :: rest))
    (cons : ∀ u rest, ¬ (highSurrogate u ∧ ∃ v ∈ rest.head?, lowSurrogate v) → motive rest →
      motive (u :: rest)) : ∀ l, motive l
  | [] => nil
  | u :: rest => by
    by_cases h : highSurrogate u ∧ ∃ v ∈ rest.head?, lowSurrogate v
    · obtain ⟨hu, v, hv, hlow⟩ := h
      match rest, hv with
      | v :: rest, rfl => exact pair u v rest hu hlow (pairInduction nil pair cons rest)
    · exact cons u rest h (pairInduction nil pair cons rest)

theorem exists_charUnits_unit {u : UInt16} (h : ¬ (highSurrogate u ∨ lowSurrogate u)) :
    ∃ c, charUnits c = [u] := by
  have hunit : decodeUnit u = some (Char.ofNat u.toNat) := by
    rw [highSurrogate, lowSurrogate] at h
    exact if_neg (by omega)
  exact ⟨_, charUnits_decodeUnit hunit⟩

/-- With every unpaired surrogate replaced, code units are those of a text. -/
theorem exists_codeUnits_eq_toWellFormed (l : List UInt16) :
    ∃ s, codeUnits s = toWellFormed l := by
  suffices h : ∃ cs : List Char, cs.flatMap charUnits = toWellFormed l by
    obtain ⟨cs, hcs⟩ := h
    exact ⟨String.ofList cs, by rw [codeUnits, String.toList_ofList, hcs]⟩
  induction l using pairInduction with
  | nil => exact ⟨[], rfl⟩
  | pair high low rest hhigh hlow ih =>
    obtain ⟨cs, hcs⟩ := ih
    obtain ⟨c, hc⟩ : ∃ c, charUnits c = [high, low] := ⟨_, charUnits_decodePair hhigh hlow⟩
    refine ⟨c :: cs, ?_⟩
    rw [toWellFormed_pair hhigh hlow, List.flatMap_cons, hc, hcs]
    rfl
  | cons u rest hsingle ih =>
    obtain ⟨cs, hcs⟩ := ih
    obtain ⟨c, hc⟩ : ∃ c, charUnits c =
        [if highSurrogate u ∨ lowSurrogate u then 0xFFFD else u] := by
      split
      · exact ⟨Char.ofNat 0xFFFD, rfl⟩
      · rename_i h
        exact exists_charUnits_unit h
    refine ⟨c :: cs, ?_⟩
    rw [toWellFormed_cons hsingle, List.flatMap_cons, hc, hcs]
    rfl

/-- The code units of a text have no unpaired surrogate. -/
theorem toWellFormed_codeUnits (s : String) : toWellFormed (codeUnits s) = codeUnits s := by
  rw [codeUnits]
  induction s.toList with
  | nil => rfl
  | cons c l ih =>
    rw [List.flatMap_cons]
    rcases charUnits_cases c with ⟨u, hc, hu, hrange, -⟩ | ⟨high, low, hc, hbig, htop, hh, hl⟩
    · have hnone : ¬ (highSurrogate u ∨ lowSurrogate u) := by
        rw [highSurrogate, lowSurrogate]
        omega
      rw [hc, List.singleton_append, toWellFormed_cons (fun h => hnone (Or.inl h.1)),
        if_neg hnone, ih]
    · have hhigh : highSurrogate high := ⟨by omega, by omega⟩
      have hlow : lowSurrogate low := ⟨by omega, by omega⟩
      rw [hc, List.cons_append, List.singleton_append, toWellFormed_pair hhigh hlow, ih]

end Utf16
