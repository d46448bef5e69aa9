/-
The two formats of a backlog entry.

An entry is either the bincode of a request or a tag, a decimal sequence, a
colon and the bincode.  `decode_entry` tells them apart by the tag, whose first
byte is zero: the first byte of a plain entry belongs to the length of a
non-empty request id.

* `parseU64_eq_some_iff` — which texts the sequence is read from;
* `decodeEntry_tagged` — every byte string that starts with the tag;
* `decodeEntry_formats` — what was enqueued is what is decoded.
-/
import DbProxy.PaddedDecimal
import DbProxy.WriteBehindSafety

namespace Decimal

theorem parse_eq_some_iff {l : List UInt8} {n : ℕ} :
    parse l = some n ↔ l ≠ [] ∧ (∀ b ∈ l, isDigit b = true) ∧ value l = n := by
  have hvalue : l.all isDigit = true →
      Nat.ofDigitChars 10 (l.map fun b => Char.ofNat b.toNat) 0 = value l := by
    intro hall
    rw [value, Nat.ofDigitChars_eq_foldl, List.foldl_map]
    refine List.foldl_ext _ _ _ fun m b hb => ?_
    have hdigit := List.all_eq_true.mp hall b hb
    simp only [isDigit, Bool.and_eq_true, decide_eq_true_eq] at hdigit
    have hlow : b.toNat ≤ 57 := hdigit.2
    have hchar : (Char.ofNat b.toNat).toNat = b.toNat := by
      have hvalid : b.toNat.isValidChar := Or.inl (by omega)
      rw [Char.ofNat, dif_pos hvalid]
      rfl
    rw [hchar]
    rfl
  by_cases hall : l.all isDigit = true
  · by_cases hne : l = []
    · simp [parse, hne]
    · rw [parse, if_neg (by simp [hne, hall]), hvalue hall, Option.some_inj]
      exact ⟨fun h => ⟨hne, List.all_eq_true.mp hall, h⟩, fun h => h.2.2⟩
  · rw [parse, if_pos (by simp [hall])]
    rw [List.all_eq_true] at hall
    simp only [reduceCtorEq, false_iff, not_and]
    intro _ hdigits
    exact absurd hdigits hall

end Decimal

namespace DbProxy

open RedisSnapshotBacklog Text

/-! ### Sequences -/

/-- An unsigned decimal number, with or without a plus sign. -/
def UnsignedDecimal (text : Bytes) (n : ℕ) : Prop :=
  ∃ digits : Bytes, digits ≠ [] ∧ (∀ b ∈ digits, Decimal.isDigit b = true) ∧
    Decimal.value digits = n ∧ (text = digits ∨ text = 43 :: digits)

theorem UnsignedDecimal.no_colon {text : Bytes} {n : ℕ} (h : UnsignedDecimal text n) :
    (58 : UInt8) ∉ text := by
  obtain ⟨digits, -, hdigits, -, htext⟩ := h
  intro hcolon
  have hmem : (58 : UInt8) ∈ digits := by
    rcases htext with rfl | rfl
    · exact hcolon
    · exact (List.mem_cons.mp hcolon).resolve_left (by decide)
  exact absurd (hdigits _ hmem) (by decide)

theorem parseU64_eq_some_iff {text : Bytes} {n : ℕ} :
    parseU64 text = some n ↔ UnsignedDecimal text n ∧ n < 2 ^ 64 := by
  rw [parseU64, Option.filter_eq_some_iff, decide_eq_true_eq, Decimal.parse_eq_some_iff]
  refine and_congr_left fun _ => ?_
  constructor
  · rintro ⟨hne, hdigits, hvalue⟩
    refine ⟨_, hne, hdigits, hvalue, ?_⟩
    split
    · rename_i hplus
      obtain ⟨rest, rfl⟩ := List.head?_eq_some_iff.mp hplus
      exact Or.inr rfl
    · exact Or.inl rfl
  · rintro ⟨digits, hne, hdigits, hvalue, rfl | rfl⟩
    · -- digits do not start with a plus sign
      have hhead : text.head? ≠ some 43 := by
        intro hplus
        exact absurd (hdigits _ (List.mem_of_mem_head? hplus)) (by decide)
      rw [if_neg hhead]
      exact ⟨hne, hdigits, hvalue⟩
    · rw [List.head?_cons, if_pos rfl, List.tail_cons]
      exact ⟨hne, hdigits, hvalue⟩

theorem UnsignedDecimal.unique {text : Bytes} {n m : ℕ} (hn : UnsignedDecimal text n)
    (hm : UnsignedDecimal text m) : n = m := by
  obtain ⟨digits, -, hdigits, rfl, htext⟩ := hn
  obtain ⟨digits', -, hdigits', rfl, htext'⟩ := hm
  -- a plus sign is no digit, so that both texts have one or none
  have hplus : Decimal.isDigit 43 = false := rfl
  rcases htext with rfl | rfl <;> rcases htext' with htext' | htext'
  · rw [htext']
  · exact absurd (hdigits 43 (by simp [htext'])) (by simp [hplus])
  · exact absurd (hdigits' 43 (by simp [← htext'])) (by simp [hplus])
  · rw [(List.cons.inj htext').2]

/-! ### Byte strings with the tag -/

theorem decodeEntry_noSeparator (codec : Bincode) {rest : Bytes} (h : (58 : UInt8) ∉ rest) :
    decodeEntry codec (sequencedEntryTag ++ rest) =
      .error (.backlogProtocol "sequenced entry has no separator") := by
  have htag : sequencedEntryTag.isPrefixOf (sequencedEntryTag ++ rest) = true :=
    List.isPrefixOf_iff_prefix.mpr (List.prefix_append _ _)
  have hnone : rest.findIdx? (· == 58) = none := by
    rw [List.findIdx?_eq_none_iff]
    intro b hb
    have hne : b ≠ 58 := fun heq => h (heq ▸ hb)
    simpa using hne
  rw [decodeEntry, if_pos htag, List.drop_left]
  dsimp only
  rw [hnone]

/-- The first colon after the tag ends the sequence, whatever follows. -/
theorem decodeEntry_tagged (codec : Bincode) {text : Bytes} (h : (58 : UInt8) ∉ text)
    (tail : Bytes) :
    decodeEntry codec (sequencedEntryTag ++ text ++ 58 :: tail) =
      ((parseU64 text).filter (· < bigintLimit)).elim
        (.error (.backlogProtocol "sequenced entry has an invalid sequence"))
        fun n => (decodeRequest codec tail).map fun request => (some n, request) := by
  have htag : sequencedEntryTag.isPrefixOf (sequencedEntryTag ++ (text ++ 58 :: tail)) = true :=
    List.isPrefixOf_iff_prefix.mpr (List.prefix_append _ _)
  have hsep : (text ++ 58 :: tail).findIdx? (· == 58) = some text.length := by
    have hnone : text.findIdx? (· == 58) = none := by
      rw [List.findIdx?_eq_none_iff]
      intro b hb
      have hne : b ≠ 58 := fun heq => h (heq ▸ hb)
      simpa using hne
    rw [List.findIdx?_append, hnone, List.findIdx?_cons]
    simp
  have hdrop : (text ++ 58 :: tail).drop (text.length + 1) = tail := by
    rw [List.append_cons, show text.length + 1 = (text ++ [58]).length by simp, List.drop_left]
  rw [List.append_assoc, decodeEntry, if_pos htag, List.drop_left]
  dsimp only
  rw [hsep]
  dsimp only
  rw [List.take_left, hdrop]
  cases (parseU64 text).filter (· < bigintLimit) with
  | none => rfl
  | some n =>
    dsimp only [Option.elim]
    cases decodeRequest codec tail <;> rfl

theorem decodeEntry_number {text : Bytes} {n : ℕ} (h : UnsignedDecimal text n)
    (hn : n < bigintLimit) (codec : Bincode) (tail : Bytes) :
    decodeEntry codec (sequencedEntryTag ++ text ++ 58 :: tail) =
      (decodeRequest codec tail).map fun request => (some n, request) := by
  have hparse : parseU64 text = some n :=
    parseU64_eq_some_iff.mpr ⟨h, lt_trans hn (by decide)⟩
  rw [decodeEntry_tagged codec h.no_colon, hparse, Option.filter_some,
    if_pos (decide_eq_true hn)]
  rfl

theorem decodeEntry_noNumber {text : Bytes} (hcolon : (58 : UInt8) ∉ text)
    (h : ∀ n, UnsignedDecimal text n → bigintLimit ≤ n) (codec : Bincode) (tail : Bytes) :
    decodeEntry codec (sequencedEntryTag ++ text ++ 58 :: tail) =
      .error (.backlogProtocol "sequenced entry has an invalid sequence") := by
  have hnone : (parseU64 text).filter (· < bigintLimit) = none := by
    rw [Option.filter_eq_none_iff]
    intro n hparse hsmall
    have hlarge := h n (parseU64_eq_some_iff.mp hparse).1
    have hsmall' : n < bigintLimit := of_decide_eq_true hsmall
    omega
  rw [decodeEntry_tagged codec hcolon, hnone]
  rfl

/-! ### Plain entries -/

/-- The little-endian bytes of a number. -/
def littleEndian : ℕ → ℕ → Bytes
  | 0, _ => []
  | width + 1, n => n.toUInt8 :: littleEndian width (n / 256)

/-- bincode's variable-length integer: a byte below 251, or a marker and the bytes. -/
def bincodeVarint (n : ℕ) : Bytes :=
  if n < 251 then [n.toUInt8]
  else if n < 65536 then 251 :: littleEndian 2 n
  else if n < 4294967296 then 252 :: littleEndian 4 n
  else 253 :: littleEndian 8 n

/-- A text: its length and its UTF-8 bytes. -/
def bincodeText (text : String) : Bytes :=
  bincodeVarint text.utf8ByteSize ++ text.toList.flatMap String.utf8EncodeChar

/-- The fields are written in their order, so that the bytes start with the request id. -/
def Bincode.StartsWithId (codec : Bincode) (request : SnapshotWrite) : Prop :=
  bincodeText request.requestId <+: codec.encode request

instance (codec : Bincode) (request : SnapshotWrite) : Decidable (codec.StartsWithId request) :=
  inferInstanceAs (Decidable (_ <+: _))

theorem head_bincodeVarint {n : ℕ} (h : 0 < n) :
    ∃ b rest, bincodeVarint n = b :: rest ∧ b ≠ 0 := by
  rw [bincodeVarint]
  split
  · rename_i hsmall
    refine ⟨_, _, rfl, fun hzero => ?_⟩
    have hnat := congrArg UInt8.toNat hzero
    simp only [Nat.toUInt8_eq, UInt8.toNat_ofNat', UInt8.reduceToNat] at hnat
    omega
  · -- the markers are above 250
    split
    · exact ⟨_, _, rfl, by decide⟩
    · split
      · exact ⟨_, _, rfl, by decide⟩
      · exact ⟨_, _, rfl, by decide⟩

/-- The first byte of a plain entry is not the first byte of the tag. -/
theorem Bincode.StartsWithId.untagged {codec : Bincode} {request : SnapshotWrite}
    (h : codec.StartsWithId request) (hid : request.requestId ≠ "") :
    sequencedEntryTag.isPrefixOf (codec.encode request) = false := by
  have hsize : 0 < request.requestId.utf8ByteSize := by
    rw [Nat.pos_iff_ne_zero, Ne, String.utf8ByteSize_eq_zero_iff]
    exact hid
  -- the length of a text that is not empty is not zero
  obtain ⟨b, rest, hvarint, hb⟩ := head_bincodeVarint hsize
  obtain ⟨fields, hfields⟩ := h
  rw [← hfields, bincodeText, hvarint]
  have hne : (0 == b) = false := by simpa using Ne.symm hb
  simp [sequencedEntryTag, List.isPrefixOf, hne]

theorem decodeEntry_plain {codec : Bincode} {request : SnapshotWrite}
    (hround : codec.RoundTrips request) (hstarts : codec.StartsWithId request)
    (hid : request.requestId ≠ "") :
    decodeEntry codec (codec.encode request) = .ok (none, request) := by
  rw [Bincode.RoundTrips] at hround
  rw [decodeEntry, hstarts.untagged hid, if_neg (by simp), decodeRequest, hround]
  rfl

theorem requestId_of_validate {request : SnapshotWrite}
    (h : RedisSnapshotBacklog.validate request = .ok ()) : request.requestId ≠ "" := by
  intro hid
  rw [RedisSnapshotBacklog.validate, if_pos (by rw [hid]; rfl)] at h
  simp at h

/-! ### Both formats -/

/-- **An entry decodes to what was enqueued.**  With a sequence that the script stored, and
without one for an entry from before the upgrade; a tag without a sequence of the right form is
an error, whatever bytes follow. -/
theorem decodeEntry_formats (codec : Bincode) (request : SnapshotWrite)
    (hround : codec.RoundTrips request) (hstarts : codec.StartsWithId request) :
    (RedisSnapshotBacklog.validate request = .ok () → ∀ n < 2 ^ 63,
      decodeEntry codec (sequencedEntry n (codec.encode request)) = .ok (some n, request)) ∧
    (RedisSnapshotBacklog.validate request = .ok () →
      decodeEntry codec (codec.encode request) = .ok (none, request)) ∧
    (request.requestId ≠ "" →
      decodeEntry codec (codec.encode request) = .ok (none, request)) ∧
    (∀ rest : Bytes, (58 : UInt8) ∉ rest →
      (decodeEntry codec (sequencedEntryTag ++ rest)).isOk = false) ∧
    (∀ text tail : Bytes, (58 : UInt8) ∉ text →
      (∀ n, UnsignedDecimal text n → 2 ^ 63 ≤ n) →
      (decodeEntry codec (sequencedEntryTag ++ text ++ 58 :: tail)).isOk = false) ∧
    (∀ (text tail : Bytes) (n : ℕ), UnsignedDecimal text n → n < 2 ^ 63 →
      decodeEntry codec (sequencedEntryTag ++ text ++ 58 :: tail) =
        (decodeRequest codec tail).map fun request => (some n, request)) := by
  refine ⟨fun _ n hn => decodeEntry_sequencedEntry hn hround,
    fun haccepted => decodeEntry_plain hround hstarts (requestId_of_validate haccepted),
    decodeEntry_plain hround hstarts, ?_, ?_, ?_⟩
  · intro rest hrest
    rw [decodeEntry_noSeparator codec hrest]
    rfl
  · intro text tail hcolon hlarge
    rw [decodeEntry_noNumber hcolon hlarge]
    rfl
  · intro text tail n hnumber hn
    exact decodeEntry_number hnumber hn codec tail

/-- A request and its bytes, read back with and without a sequence. -/
theorem decodeEntry_formats_sample :
    decodeEntry smallCodec (sequencedEntry 5 (smallCodec.encode sampleQueued)) =
      .ok (some 5, sampleQueued) ∧
    decodeEntry smallCodec (smallCodec.encode sampleQueued) = .ok (none, sampleQueued) ∧
    (decodeEntry smallCodec (sequencedEntryTag ++ [49, 50])).isOk = false ∧
    (decodeEntry smallCodec (sequencedEntryTag ++ [] ++ 58 :: [1])).isOk = false ∧
    decodeEntry smallCodec (sequencedEntryTag ++ [43, 53] ++ 58 :: smallCodec.encode sampleQueued) =
      (decodeRequest smallCodec (smallCodec.encode sampleQueued)).map fun r => (some 5, r) := by
  obtain ⟨hseq, -, hplain, hmissing, hnumber, hplus⟩ :=
    decodeEntry_formats smallCodec sampleQueued (by decide) (by decide)
  refine ⟨hseq (by decide) 5 (by decide), hplain (by decide), hmissing _ (by decide),
    hnumber [] [1] (by decide) ?_, hplus [43, 53] _ 5 ?_ (by decide)⟩
  · rintro n ⟨digits, hne, -, -, h | h⟩
    · exact absurd h.symm hne
    · simp at h
  · exact ⟨[53], List.cons_ne_nil _ _, by decide +kernel, rfl, Or.inr rfl⟩

end DbProxy
