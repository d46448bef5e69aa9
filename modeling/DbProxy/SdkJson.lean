/-
JSON texts as the TypeScript SDK writes them (`sdk/typescript/src/index.ts`).

`JSON.stringify` quotes a string; what is not ASCII is escaped afterwards by
hand, one code unit at a time, and the text becomes bytes.

* `padStart_hexText` — the escape written by hand has four digits;
* `asciiPayload_quoteUnits` — quoting and escaping spell one code unit after the
  other, as the reader of the server expects them;
* `asciiPayload_numbers`, `spellLiteral_decimal` — arrays and numbers.
-/
import DbProxy.JsonText
import DbProxy.SdkTrades

namespace DbProxy.Sdk

open Utf16

/-! ### `JSON.stringify` -/

/-- The values that an envelope holds. -/
inductive JsValue
  | text (value : JsString)
  | number (value : ℤ)
  | numbers (values : List ℤ)

/-- A unit that has no partner; surrogates are escaped here. -/
def quoteUnit (u : UInt16) : JsString :=
  (JsonText.shortEscapes.lookup u).elim
    (if u < 0x20 ∨ (0xd800 ≤ u ∧ u ≤ 0xdfff) then
      92 :: 117 :: (JsonText.hexDigits u).map (·.toUInt16) else [u])
    fun e => [92, e.toUInt16]

/-- The loop over the code points of a string. -/
def quoteUnits : JsString → JsString
  | [] => []
  | [u] => quoteUnit u
  | u :: v :: rest =>
    if 0xd800 ≤ u ∧ u ≤ 0xdbff ∧ 0xdc00 ≤ v ∧ v ≤ 0xdfff then u :: v :: quoteUnits rest
    else quoteUnit u ++ quoteUnits (v :: rest)

def quote (value : JsString) : JsString := codeUnits "\"" ++ quoteUnits value ++ codeUnits "\""

/-- `String(value)` of an integer. -/
def decimal (value : ℤ) : JsString := codeUnits (toString value)

def stringifyValue : JsValue → JsString
  | .text value => quote value
  | .number value => decimal value
  | .numbers values => codeUnits "[" ++ (codeUnits ",").intercalate (values.map decimal) ++
      codeUnits "]"

def stringify (members : List (String × JsValue)) : JsString :=
  codeUnits "\x7b" ++ (codeUnits ",").intercalate (members.map fun entry =>
    quote (codeUnits entry.1) ++ codeUnits ":" ++ stringifyValue entry.2) ++ codeUnits "\x7d"

/-! ### Bytes -/

/-- `value.padStart(length, "0")`. -/
def padStart (length : ℕ) (value : JsString) : JsString :=
  List.replicate (length - value.length) 48 ++ value

/-- `toString(16)` of a code unit. -/
def hexText (u : UInt16) : JsString := codeUnits (String.ofList (Nat.toDigits 16 u.toNat))

/-- The replacement of `[\u0080-\uffff]`. -/
def asciiJson (json : JsString) : JsString :=
  json.flatMap fun ch =>
    if 0x80 ≤ ch then codeUnits "\\u" ++ padStart 4 (hexText ch) else [ch]

/-- `Uint8Array.from(ascii, ch => ch.charCodeAt(0))`; there are no surrogates left. -/
def asciiPayload (json : JsString) : Bytes := (asciiJson json).map (·.toUInt8)

theorem asciiPayload_append (x y : JsString) :
    asciiPayload (x ++ y) = asciiPayload x ++ asciiPayload y := by
  rw [asciiPayload, asciiJson, List.flatMap_append, List.map_append]
  rfl

theorem asciiPayload_cons (u : UInt16) (x : JsString) :
    asciiPayload (u :: x) = asciiPayload [u] ++ asciiPayload x :=
  asciiPayload_append [u] x

/-- ASCII stays as it is. -/
theorem asciiPayload_of_ascii {x : JsString} (h : ∀ u ∈ x, u.toNat < 0x80) :
    asciiPayload x = x.map (·.toUInt8) := by
  have hkeep : asciiJson x = x := by
    rw [asciiJson]
    induction x with
    | nil => rfl
    | cons u x ih =>
      have hu : u.toNat < 0x80 := h u (List.mem_cons_self ..)
      have hsmall : ¬ 0x80 ≤ u := by
        show ¬ 0x80 ≤ u.toNat
        omega
      rw [List.flatMap_cons, if_neg hsmall, ih fun v hv => h v (List.mem_cons_of_mem _ hv)]
      rfl
  rw [asciiPayload, hkeep]

theorem toNat_hexDigit_lt {n : ℕ} (h : n < 16) : (JsonText.hexDigit n).toNat < 0x80 := by
  have hall : ∀ m : Fin 16, (JsonText.hexDigit m).toNat < 0x80 := by decide
  exact hall ⟨n, h⟩

theorem charUnits_digitChar {n : ℕ} (h : n < 16) :
    charUnits (Nat.digitChar n) = [(JsonText.hexDigit n).toUInt16] := by
  have hall : ∀ m : Fin 16, charUnits (Nat.digitChar m) = [(JsonText.hexDigit m).toUInt16] := by
    decide
  exact hall ⟨n, h⟩

/-- The digits of a number of at least two. -/
theorem toDigits_sixteen {n : ℕ} (h : 16 ≤ n) :
    Nat.toDigits 16 n = Nat.toDigits 16 (n / 16) ++ [Nat.digitChar (n % 16)] :=
  Nat.toDigits_of_base_le (by decide) h

/-- Four digits, filled up with zeros. -/
theorem padStart_hexText (u : UInt16) :
    padStart 4 (hexText u) = (JsonText.hexDigits u).map (·.toUInt16) := by
  have hu : u.toNat < 65536 := u.toNat_lt
  have hzero : (48 : UInt16) = (JsonText.hexDigit 0).toUInt16 := by decide
  have hlast := charUnits_digitChar (n := u.toNat % 16) (by omega)
  have hthird := charUnits_digitChar (n := u.toNat / 16 % 16) (by omega)
  have hsecond := charUnits_digitChar (n := u.toNat / 256 % 16) (by omega)
  rw [padStart, hexText, codeUnits, String.toList_ofList, hzero, JsonText.hexDigits]
  -- one case for each number of digits
  by_cases h1 : u.toNat < 16
  · have hparts : u.toNat / 4096 = 0 ∧ u.toNat / 256 % 16 = 0 ∧ u.toNat / 16 % 16 = 0 ∧
        u.toNat % 16 = u.toNat := by omega
    rw [Nat.toDigits_of_lt_base h1, hparts.1, hparts.2.1, hparts.2.2.1, hparts.2.2.2]
    simp [charUnits_digitChar h1]
  · rw [toDigits_sixteen (by omega)]
    by_cases h2 : u.toNat < 256
    · have hparts : u.toNat / 4096 = 0 ∧ u.toNat / 256 % 16 = 0 ∧
          u.toNat / 16 = u.toNat / 16 % 16 := by omega
      rw [Nat.toDigits_of_lt_base (by omega), hparts.2.2, hparts.1, hparts.2.1]
      simp [hlast, hthird]
    · rw [toDigits_sixteen (by omega), Nat.div_div_eq_div_mul]
      by_cases h3 : u.toNat < 4096
      · have hparts : u.toNat / 4096 = 0 ∧ u.toNat / (16 * 16) = u.toNat / 256 % 16 := by omega
        rw [Nat.toDigits_of_lt_base (by omega), hparts.2, hparts.1]
        simp [hlast, hthird, hsecond]
      · have hfirst := charUnits_digitChar (n := u.toNat / 4096) (by omega)
        have hparts : u.toNat / (16 * 16) / 16 = u.toNat / 4096 ∧
            u.toNat / (16 * 16) % 16 = u.toNat / 256 % 16 := by omega
        rw [toDigits_sixteen (by omega), Nat.toDigits_of_lt_base (by omega), hparts.1, hparts.2]
        simp [hlast, hthird, hsecond, hfirst]

theorem toUInt8_toUInt16 (b : UInt8) : b.toUInt16.toUInt8 = b := by
  apply UInt8.toNat_inj.mp
  have hb : b.toNat < 256 := b.toNat_lt
  rw [UInt16.toNat_toUInt8, UInt8.toNat_toUInt16]
  omega

/-- The bytes of an escape. -/
theorem escape_bytes (u : UInt16) :
    (92 :: 117 :: (JsonText.hexDigits u).map (·.toUInt16)).map (·.toUInt8) =
      92 :: 117 :: JsonText.hexDigits u := by
  rw [List.map_cons, List.map_cons, List.map_map]
  have hback : ((·.toUInt8) ∘ (·.toUInt16) : UInt8 → UInt8) = id := funext toUInt8_toUInt16
  rw [hback, List.map_id]
  rfl

theorem toNat_lt_of_mem_hexDigits {u : UInt16} {b : UInt8} (h : b ∈ JsonText.hexDigits u) :
    b.toNat < 0x80 := by
  have hu : u.toNat < 65536 := u.toNat_lt
  simp only [JsonText.hexDigits, List.mem_cons, List.not_mem_nil, or_false] at h
  rcases h with rfl | rfl | rfl | rfl
  · exact toNat_hexDigit_lt (by omega)
  · exact toNat_hexDigit_lt (by omega)
  · exact toNat_hexDigit_lt (by omega)
  · exact toNat_hexDigit_lt (by omega)

/-- An escape passes as it is. -/
theorem asciiPayload_escape (u : UInt16) :
    asciiPayload (92 :: 117 :: (JsonText.hexDigits u).map (·.toUInt16)) =
      92 :: 117 :: JsonText.hexDigits u := by
  rw [asciiPayload_of_ascii, escape_bytes]
  intro v hv
  rw [List.mem_cons, List.mem_cons, List.mem_map] at hv
  rcases hv with rfl | rfl | ⟨b, hb, rfl⟩
  · decide
  · decide
  · rw [UInt8.toNat_toUInt16]
    exact toNat_lt_of_mem_hexDigits hb

theorem asciiPayload_unit (u : UInt16) : asciiPayload [u] =
    if 0x80 ≤ u then 92 :: 117 :: JsonText.hexDigits u else [u.toUInt8] := by
  rw [asciiPayload, asciiJson, List.flatMap_cons, List.flatMap_nil, List.append_nil]
  split
  · rw [padStart_hexText]
    exact escape_bytes u
  · rfl

/-- Short escapes are for ASCII. -/
theorem lookup_shortEscapes {u : UInt16} (h : 0x80 ≤ u) :
    JsonText.shortEscapes.lookup u = none := by
  have hall : JsonText.shortEscapes.all (·.1.toNat < 0x80) = true := by decide
  rw [List.lookup_eq_none_iff]
  intro pair hmem
  rw [bne_iff_ne]
  rintro rfl
  have hlow : 0x80 ≤ pair.1.toNat := h
  have hlt : pair.1.toNat < 0x80 := of_decide_eq_true (List.all_eq_true.mp hall pair hmem)
  omega

theorem spellUnit_of_le {u : UInt16} (h : 0x80 ≤ u) :
    JsonText.spellUnit u = 92 :: 117 :: JsonText.hexDigits u := by
  have hbig : u < 32 ∨ 127 < u := by
    have hlow : 0x80 ≤ u.toNat := h
    refine Or.inr ?_
    show 127 < u.toNat
    omega
  rw [JsonText.spellUnit, lookup_shortEscapes h, Option.elim_none, if_pos hbig]

/-- A unit is spelled whether it is escaped at once or afterwards. -/
theorem asciiPayload_quoteUnit (u : UInt16) :
    asciiPayload (quoteUnit u) = JsonText.spellUnit u := by
  by_cases hascii : 0x80 ≤ u
  · rw [spellUnit_of_le hascii, quoteUnit, lookup_shortEscapes hascii, Option.elim_none]
    split
    · exact asciiPayload_escape u
    · rw [asciiPayload_unit, if_pos hascii]
  · have hsmall : u.toNat < 0x80 := by
      have : ¬ 0x80 ≤ u.toNat := hascii
      omega
    rw [quoteUnit, JsonText.spellUnit]
    cases hshort : JsonText.shortEscapes.lookup u with
    | some e =>
      have hletter : e.toNat < 0x80 := by
        have hall : JsonText.shortEscapes.all (·.2.toNat < 0x80) = true := by decide
        obtain ⟨l, m, hlm, -⟩ := List.lookup_eq_some_iff.mp hshort
        refine of_decide_eq_true (List.all_eq_true.mp hall (u, e) ?_)
        rw [hlm]
        exact List.mem_append_right _ (List.mem_cons_self ..)
      have hunits : ∀ v ∈ ([92, e.toUInt16] : JsString), v.toNat < 0x80 := by
        intro v hv
        rw [List.mem_cons, List.mem_singleton] at hv
        rcases hv with rfl | rfl
        · decide
        · rwa [UInt8.toNat_toUInt16]
      rw [Option.elim_some, Option.elim_some, asciiPayload_of_ascii hunits, List.map_cons,
        List.map_singleton, toUInt8_toUInt16]
      rfl
    | none =>
      -- in ASCII only the control characters are left
      have hsame : (u < 0x20 ∨ (0xd800 ≤ u ∧ u ≤ 0xdfff)) ↔ (u < 32 ∨ 127 < u) := by
        show (u.toNat < 0x20 ∨ (0xd800 ≤ u.toNat ∧ u.toNat ≤ 0xdfff)) ↔
          (u.toNat < 32 ∨ 127 < u.toNat)
        omega
      rw [Option.elim_none, Option.elim_none]
      by_cases hcontrol : u < 32 ∨ 127 < u
      · rw [if_pos hcontrol, if_pos (hsame.mpr hcontrol), asciiPayload_escape]
      · rw [if_neg hcontrol, if_neg fun h => hcontrol (hsame.mp h), asciiPayload_unit,
          if_neg hascii]

/-- **Quoting and escaping spell one code unit after the other**, a pair of surrogates as two. -/
theorem asciiPayload_quoteUnits : ∀ value : JsString,
    asciiPayload (quoteUnits value) = value.flatMap JsonText.spellUnit
  | [] => rfl
  | [u] => by
    rw [quoteUnits, asciiPayload_quoteUnit, List.flatMap_singleton]
  | u :: v :: rest => by
    rw [quoteUnits, List.flatMap_cons]
    split
    · rename_i hpair
      have hspell : ∀ w : UInt16, 0x80 ≤ w.toNat → asciiPayload [w] = JsonText.spellUnit w := by
        intro w hw
        have hle : 0x80 ≤ w := hw
        rw [asciiPayload_unit, if_pos hle, spellUnit_of_le hle]
      have hhigh : 0xd800 ≤ u.toNat := hpair.1
      have hlow : 0xdc00 ≤ v.toNat := hpair.2.2.1
      rw [asciiPayload_cons u, asciiPayload_cons v, asciiPayload_quoteUnits rest,
        hspell u (by omega), hspell v (by omega), List.flatMap_cons]
    · rw [asciiPayload_append, asciiPayload_quoteUnit, asciiPayload_quoteUnits (v :: rest)]

theorem asciiPayload_codeUnits {s : String} (h : ∀ c ∈ s.toList, c.toNat < 0x80) :
    asciiPayload (codeUnits s) = JsonText.ascii s := by
  have hunits : ∀ c ∈ s.toList, charUnits c = [UInt16.ofNat c.toNat] := by
    intro c hc
    have := h c hc
    exact if_pos (by omega)
  have hcodes : codeUnits s = s.toList.map fun c => UInt16.ofNat c.toNat := by
    rw [codeUnits, ← List.flatMap_singleton' (s.toList.map _), List.flatMap_map]
    exact List.flatMap_congr hunits
  rw [hcodes, asciiPayload_of_ascii, List.map_map, JsonText.ascii]
  · refine List.map_congr_left fun c hc => ?_
    have := h c hc
    apply UInt8.toNat_inj.mp
    simp only [Function.comp_apply, UInt16.toNat_toUInt8, UInt16.toNat_ofNat', Nat.toUInt8_eq,
      UInt8.toNat_ofNat']
    omega
  · intro u hu
    obtain ⟨c, hc, rfl⟩ := List.mem_map.mp hu
    have := h c hc
    rw [UInt16.toNat_ofNat']
    omega

theorem asciiPayload_quote (value : JsString) :
    asciiPayload (quote value) = JsonText.spellLiteral value := by
  have hquote : asciiPayload (codeUnits "\"") = JsonText.ascii "\"" := by decide
  have hlast : JsonText.ascii "\"" = [34] := by decide
  rw [quote, asciiPayload_append, asciiPayload_append, asciiPayload_quoteUnits, hquote,
    JsonText.spellLiteral, List.append_assoc, hlast]

theorem toNat_of_mem_toString {n : ℕ} {c : Char} (h : c ∈ (toString n).toList) :
    48 ≤ c.toNat ∧ c.toNat ≤ 57 :=
  Decimal.toNat_of_isDigit (Nat.isDigit_of_mem_toDigits (b := 10) (n := n) (by decide) (by decide)
    (by simpa [Nat.repr] using h))

theorem ascii_toString (n : ℕ) : JsonText.ascii (toString n) = Decimal.bytes n := by
  rw [JsonText.ascii, Decimal.bytes]
  simp [Nat.repr]

theorem decimal_of_nonneg {value : ℤ} (h : 0 ≤ value) :
    decimal value = codeUnits (toString value.toNat) := by
  obtain ⟨n, rfl⟩ := Int.eq_ofNat_of_zero_le h
  rfl

theorem asciiPayload_decimal {value : ℤ} (h : 0 ≤ value) :
    asciiPayload (decimal value) = Decimal.bytes value.toNat := by
  rw [decimal_of_nonneg h, asciiPayload_codeUnits, ascii_toString]
  intro c hc
  have := toNat_of_mem_toString hc
  omega

/-- Digits need no escape. -/
theorem spellLiteral_decimal {value : ℤ} (h : 0 ≤ value) :
    JsonText.spellLiteral (decimal value) =
      JsonText.ascii "\"" ++ (Decimal.bytes value.toNat ++ [34]) := by
  have hdigit : ∀ m < 10, (charUnits (Char.ofNat (48 + m))).flatMap JsonText.spellUnit =
      [(Char.ofNat (48 + m)).toNat.toUInt8] := by decide
  have hunits : ∀ n : ℕ, (codeUnits (toString n)).flatMap JsonText.spellUnit =
      Decimal.bytes n := by
    intro n
    rw [← ascii_toString, JsonText.ascii, codeUnits, List.flatMap_assoc,
      ← List.flatMap_singleton' ((toString n).toList.map _), List.flatMap_map]
    refine List.flatMap_congr fun c hc => ?_
    obtain ⟨hlow, hhigh⟩ := toNat_of_mem_toString hc
    have hunit := hdigit (c.toNat - 48) (by omega)
    have hback : 48 + (c.toNat - 48) = c.toNat := by omega
    rw [hback, Char.ofNat_toNat] at hunit
    exact hunit
  rw [JsonText.spellLiteral, decimal_of_nonneg h, hunits]

theorem asciiPayload_intercalate : ∀ ls : List JsString,
    asciiPayload ((codeUnits ",").intercalate ls) = [44].intercalate (ls.map asciiPayload)
  | [] => rfl
  | [l] => by
    rw [List.intercalate_singleton, List.map_singleton, List.intercalate_singleton]
  | l :: m :: ls => by
    have hcomma : asciiPayload (codeUnits ",") = [44] := by decide
    rw [List.intercalate_cons_cons, asciiPayload_append, asciiPayload_append, hcomma,
      asciiPayload_intercalate (m :: ls)]
    simp only [List.map_cons, List.intercalate_cons_cons]

theorem asciiPayload_numbers (l : Bytes) :
    asciiPayload (stringifyValue (.numbers (l.map fun b => (b.toNat : ℤ)))) =
      JsonText.spellByteArray l := by
  have hopen : asciiPayload (codeUnits "[") = JsonText.ascii "[" := by decide
  have hclose : asciiPayload (codeUnits "]") = [93] := by decide
  have hnumbers : ((l.map fun b => (b.toNat : ℤ)).map decimal).map asciiPayload =
      l.map (Decimal.bytes ·.toNat) := by
    rw [List.map_map, List.map_map]
    refine List.map_congr_left fun b _ => ?_
    rw [Function.comp_apply, Function.comp_apply, asciiPayload_decimal (Int.natCast_nonneg b.toNat),
      Int.toNat_natCast]
  rw [stringifyValue, asciiPayload_append, asciiPayload_append, asciiPayload_intercalate, hopen,
    hclose, hnumbers, JsonText.spellByteArray, List.append_assoc]

end DbProxy.Sdk
