/-
The byte limit of a text in the TypeScript SDK (`utf8ByteLength` of
`sdk/typescript/src/index.ts`).

The loop walks through the code units by their index and looks one unit ahead.

* `utf8ByteLengthLoop_eq` — the loop from an index on counts what is left from there;
* `utf8ByteLength_toWellFormed` — an unpaired surrogate counts like U+FFFD;
* `utf8ByteLengthLoop_counts` — the loop returns the length of the UTF-8 encoding, which
  is the number that the server compares with its limit.
-/
import DbProxy.SdkTrades

namespace DbProxy.Sdk

open Text Utf16

/-- The loop, from an index on. -/
def utf8ByteLengthLoop (value : JsString) (index length : ℕ) : ℕ :=
  if h : index < value.length then
    let codeUnit := value[index]
    if codeUnit ≤ 0x7f then utf8ByteLengthLoop value (index + 1) (length + 1)
    else if codeUnit ≤ 0x7ff then utf8ByteLengthLoop value (index + 1) (length + 2)
    else if hnext : 0xd800 ≤ codeUnit ∧ codeUnit ≤ 0xdbff ∧ index + 1 < value.length then
      let next := value[index + 1]
      if 0xdc00 ≤ next ∧ next ≤ 0xdfff then
        -- the unit behind is skipped
        utf8ByteLengthLoop value (index + 2) (length + 4)
      else utf8ByteLengthLoop value (index + 1) (length + 3)
    else utf8ByteLengthLoop value (index + 1) (length + 3)
  else length
termination_by value.length - index

/-! ### The loop by its index -/

theorem utf8ByteLength_drop {value : JsString} {index : ℕ} (h : index < value.length)
    (hsingle : ¬ (highSurrogate value[index] ∧ ∃ v ∈ value[index + 1]?, lowSurrogate v)) :
    utf8ByteLength (value.drop index) =
      (if value[index] ≤ 0x7f then 1 else if value[index] ≤ 0x7ff then 2 else 3) +
        utf8ByteLength (value.drop (index + 1)) := by
  rw [List.drop_eq_getElem_cons h, utf8ByteLength_cons (by rwa [List.head?_drop])]
  rfl

theorem utf8ByteLengthLoop_eq (value : JsString) (index length : ℕ) :
    utf8ByteLengthLoop value index length = length + utf8ByteLength (value.drop index) := by
  fun_induction utf8ByteLengthLoop value index length with
  | case1 index length h codeUnit hone ih =>
    have hsingle : ¬ highSurrogate codeUnit := fun hhigh => by
      have := hhigh.1
      have : codeUnit.toNat ≤ 0x7f := hone
      omega
    rw [ih, utf8ByteLength_drop h (fun hpair => hsingle hpair.1), if_pos hone, Nat.add_assoc]
  | case2 index length h codeUnit hone htwo ih =>
    have hsingle : ¬ highSurrogate codeUnit := fun hhigh => by
      have := hhigh.1
      have : codeUnit.toNat ≤ 0x7ff := htwo
      omega
    rw [ih, utf8ByteLength_drop h (fun hpair => hsingle hpair.1), if_neg hone, if_pos htwo,
      Nat.add_assoc]
  | case3 index length h codeUnit hone htwo hnext next hlow ih =>
    obtain ⟨hulow, huhigh, hlt⟩ := hnext
    rw [ih, List.drop_eq_getElem_cons h, List.drop_eq_getElem_cons hlt,
      utf8ByteLength_pair ⟨hulow, huhigh⟩ hlow, Nat.add_assoc]
  | case4 index length h codeUnit hone htwo hnext next hlow ih =>
    have hsingle : ¬ ∃ v ∈ value[index + 1]?, lowSurrogate v := by
      rintro ⟨v, hv, hlowv⟩
      obtain ⟨_, rfl⟩ := List.getElem?_eq_some_iff.mp hv
      exact hlow hlowv
    rw [ih, utf8ByteLength_drop h (fun hpair => hsingle hpair.2), if_neg hone, if_neg htwo,
      Nat.add_assoc]
  | case5 index length h codeUnit hone htwo hnext ih =>
    have hsingle : ¬ (highSurrogate codeUnit ∧ ∃ v ∈ value[index + 1]?, lowSurrogate v) := by
      rintro ⟨⟨hulow, huhigh⟩, v, hv, -⟩
      obtain ⟨hlt, -⟩ := List.getElem?_eq_some_iff.mp hv
      exact hnext ⟨hulow, huhigh, hlt⟩
    rw [ih, utf8ByteLength_drop h hsingle, if_neg hone, if_neg htwo, Nat.add_assoc]
  | case6 index length h =>
    rw [List.drop_eq_nil_of_le (by omega)]
    rfl

/-! ### Unpaired surrogates -/

/-- An unpaired surrogate counts like the character that replaces it. -/
theorem utf8ByteLength_toWellFormed (value : JsString) :
    utf8ByteLength (toWellFormed value) = utf8ByteLength value := by
  induction value using pairInduction with
  | nil => rfl
  | pair high low rest hhigh hlow ih =>
    rw [toWellFormed_pair hhigh hlow, utf8ByteLength_pair hhigh hlow,
      utf8ByteLength_pair hhigh hlow, ih]
  | cons u rest hsingle ih =>
    rw [toWellFormed_cons hsingle, utf8ByteLength_cons hsingle]
    split
    · rename_i hsurrogate
      have hreplaced : ¬ highSurrogate 0xFFFD := by decide
      have hu : 0x7ff < u.toNat := by
        rw [highSurrogate, lowSurrogate] at hsurrogate
        omega
      rw [utf8ByteLength_cons (fun h => hreplaced h.1), ih, if_neg (by omega : ¬ u.toNat ≤ 0x7f),
        if_neg (by omega : ¬ u.toNat ≤ 0x7ff)]
      rfl
    · rename_i hnone
      rw [utf8ByteLength_cons (fun h => hnone (Or.inl h.1)), ih]

/-- **The byte limit of the SDK is that of the server.**  For all code units the loop returns
the length of the UTF-8 encoding in which every unpaired surrogate is U+FFFD, and for a
well-formed text this is the length that `validateText` compares with the limit. -/
theorem utf8ByteLengthLoop_counts :
    (∀ value : JsString, utf8ByteLength value = utf8ByteLengthLoop value 0 0 ∧
      ∃ s : String, codeUnits s = toWellFormed value ∧
        utf8ByteLengthLoop value 0 0 = (s.toList.flatMap String.utf8EncodeChar).length) ∧
    ∀ (s field : String) (maximum : ℕ), toWellFormed (codeUnits s) = codeUnits s ∧
      validateText s field maximum =
        if blank s || maximum < utf8ByteLengthLoop (codeUnits s) 0 0 then
          .error (.invalidField field)
        else .ok () := by
  have hloop : ∀ value : JsString, utf8ByteLengthLoop value 0 0 = utf8ByteLength value := by
    intro value
    rw [utf8ByteLengthLoop_eq, List.drop_zero, Nat.zero_add]
  constructor
  · intro value
    obtain ⟨s, hs⟩ := exists_codeUnits_eq_toWellFormed value
    refine ⟨(hloop value).symm, s, hs, ?_⟩
    calc utf8ByteLengthLoop value 0 0 = utf8ByteLength (codeUnits s) := by
          rw [hloop, hs, utf8ByteLength_toWellFormed]
      _ = (s.toList.flatMap String.utf8EncodeChar).length := by
          rw [utf8ByteLength_codeUnits, length_utf8Encode]
  · intro s field maximum
    refine ⟨toWellFormed_codeUnits s, ?_⟩
    rw [hloop, utf8ByteLength_codeUnits]
    rfl

end DbProxy.Sdk
