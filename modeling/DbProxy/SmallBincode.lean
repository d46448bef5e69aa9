/-
bincode of small values, which runs on concrete inputs encode.

Texts are ASCII, and numbers, texts and payloads are so short that every varint is
one byte.  The codecs have the layout of bincode within these bounds:

* `takeText_shortText` — a short text is read back, and what follows it is left;
* `smallCodec_roundTrips`, `smallSnapshotCodec_roundTrips` — so are small requests
  and small snapshots.
-/
import DbProxy.BacklogFlush
import DbProxy.CacheScripts

namespace DbProxy

/-! ### Texts -/

/-- A bincode string of fewer than 251 ASCII characters. -/
def shortText (text : String) : Bytes :=
  text.length.toUInt8 :: text.toList.map (·.toNat.toUInt8)

/-- Read such a string. -/
def takeText : Bytes → Except String (String × Bytes)
  | [] => .error "UnexpectedEnd"
  | n :: rest =>
    if rest.length < n.toNat then .error "UnexpectedEnd"
    else .ok (String.ofList ((rest.take n.toNat).map fun b => Char.ofNat b.toNat),
      rest.drop n.toNat)

structure ShortText (text : String) : Prop where
  length : text.length < 251
  ascii : ∀ c ∈ text.toList, c.toNat < 128

instance (text : String) : Decidable (ShortText text) :=
  decidable_of_iff (text.length < 251 ∧ text.toList.all (·.toNat < 128) = true) <| by
    simp only [List.all_eq_true, decide_eq_true_eq]
    exact ⟨fun h => ⟨h.1, h.2⟩, fun h => ⟨h.length, h.ascii⟩⟩

theorem toUInt8_toNat {n : ℕ} (h : n < 251) : n.toUInt8.toNat = n :=
  UInt8.toNat_ofNat_of_lt' (h.trans (by decide))

theorem takeText_shortText {text : String} (h : ShortText text) (rest : Bytes) :
    takeText (shortText text ++ rest) = .ok (text, rest) := by
  have hlength : (text.toList.map (·.toNat.toUInt8)).length = text.length := by
    rw [List.length_map, String.length_toList]
  have hchars : (text.toList.map (·.toNat.toUInt8)).map (fun b => Char.ofNat b.toNat) =
      text.toList := by
    rw [List.map_map]
    refine (List.map_congr_left fun c hc => ?_).trans (List.map_id _)
    have hascii : c.toNat < 251 := (h.ascii c hc).trans (by decide)
    show Char.ofNat c.toNat.toUInt8.toNat = c
    rw [toUInt8_toNat hascii, Char.ofNat_toNat]
  rw [shortText, List.cons_append, takeText, toUInt8_toNat h.length, List.length_append, hlength,
    if_neg (by omega), List.take_left' hlength, List.drop_left' hlength, hchars,
    String.ofList_toList]

/-! ### Requests and snapshots -/

/-- bincode of a snapshot write whose texts are ASCII and whose numbers and lengths are
below 251, so that every varint is one byte. -/
def smallBincode (r : SnapshotWrite) : Bytes :=
  let revision : Bytes := match r.expectedRevision with
    | none => [0]
    | some v => [1, v.toUInt8]
  shortText r.requestId ++ shortText r.record.ns ++ shortText r.record.key ++
    shortText r.schema ++ r.schemaVersion.toUInt8 :: r.payload.length.toUInt8 :: r.payload ++
    revision ++ [r.updatedAtUnixMs.toUInt8]

/-- bincode within the bounds of `smallBincode`. -/
def smallCodec : Bincode where
  encode := smallBincode
  decode bytes := do
    let (requestId, bytes) ← takeText bytes
    let (ns, bytes) ← takeText bytes
    let (key, bytes) ← takeText bytes
    let (schema, bytes) ← takeText bytes
    match bytes with
    | version :: length :: bytes =>
      match bytes.drop length.toNat with
      | [0, time] => return ⟨requestId, ⟨ns, key⟩, schema, version.toNat,
          bytes.take length.toNat, none, time.toNat⟩
      | [1, revision, time] => return ⟨requestId, ⟨ns, key⟩, schema, version.toNat,
          bytes.take length.toNat, some revision.toNat, time.toNat⟩
      | _ => .error "UnexpectedEnd"
    | _ => .error "UnexpectedEnd"

/-- bincode of a snapshot whose texts are ASCII and whose numbers and lengths are below 251. -/
def smallSnapshotCodec : SnapshotCodec where
  encode snapshot :=
    .ok (shortText snapshot.record.ns ++ shortText snapshot.record.key ++
      shortText snapshot.schema ++ snapshot.schemaVersion.toUInt8 :: snapshot.revision.toUInt8 ::
      snapshot.payload.length.toUInt8 :: snapshot.payload ++ [snapshot.updatedAtUnixMs.toUInt8])
  decode bytes := do
    let (ns, bytes) ← takeText bytes
    let (key, bytes) ← takeText bytes
    let (schema, bytes) ← takeText bytes
    match bytes with
    | version :: revision :: length :: bytes =>
      match bytes.drop length.toNat with
      | [time] => return ⟨⟨ns, key⟩, schema, version.toNat, revision.toNat,
          bytes.take length.toNat, time.toNat⟩
      | _ => .error "UnexpectedEnd"
    | _ => .error "UnexpectedEnd"

/-- The bounds of `smallCodec`. -/
structure SmallWrite (r : SnapshotWrite) : Prop where
  texts : ∀ text ∈ [r.requestId, r.record.ns, r.record.key, r.schema], ShortText text
  schemaVersion : r.schemaVersion < 251
  payload : r.payload.length < 251
  expectedRevision : ∀ revision ∈ r.expectedRevision, revision < 251
  updatedAtUnixMs : r.updatedAtUnixMs < 251

theorem smallCodec_roundTrips {r : SnapshotWrite} (h : SmallWrite r) : smallCodec.RoundTrips r := by
  obtain ⟨requestId, ⟨ns, key⟩, schema, version, payload, expected, time⟩ := r
  have hid : ShortText requestId := h.texts _ (by simp)
  have hns : ShortText ns := h.texts _ (by simp)
  have hkey : ShortText key := h.texts _ (by simp)
  have hschema : ShortText schema := h.texts _ (by simp)
  obtain ⟨-, hversion, hpayload, hrevision, htime⟩ := h
  show smallCodec.decode (smallBincode _) = _
  rw [smallBincode]
  simp only [smallCodec, List.append_assoc, takeText_shortText hid, takeText_shortText hns,
    takeText_shortText hkey, takeText_shortText hschema, Checks.ok_bind, List.cons_append,
    toUInt8_toNat hpayload, toUInt8_toNat hversion, List.drop_left, List.take_left]
  -- behind the payload there are a tag, the revision if there is one, and the time
  cases expected with
  | none =>
    simp only [List.cons_append, List.nil_append, toUInt8_toNat htime]
    rfl
  | some revision =>
    simp only [List.cons_append, List.nil_append, toUInt8_toNat htime,
      toUInt8_toNat (hrevision revision rfl)]
    rfl

/-- The bounds of `smallSnapshotCodec`. -/
structure SmallSnapshot (snapshot : SnapshotEnvelope) : Prop where
  texts : ∀ text ∈ [snapshot.record.ns, snapshot.record.key, snapshot.schema], ShortText text
  schemaVersion : snapshot.schemaVersion < 251
  revision : snapshot.revision < 251
  payload : snapshot.payload.length < 251
  updatedAtUnixMs : snapshot.updatedAtUnixMs < 251

theorem smallSnapshotCodec_roundTrips {snapshot : SnapshotEnvelope} (h : SmallSnapshot snapshot) :
    ∃ bytes, smallSnapshotCodec.encode snapshot = .ok bytes ∧
      smallSnapshotCodec.decode bytes = .ok snapshot := by
  obtain ⟨⟨ns, key⟩, schema, version, revision, payload, time⟩ := snapshot
  have hns : ShortText ns := h.texts _ (by simp)
  have hkey : ShortText key := h.texts _ (by simp)
  have hschema : ShortText schema := h.texts _ (by simp)
  obtain ⟨-, hversion, hrevision, hpayload, htime⟩ := h
  refine ⟨_, rfl, ?_⟩
  simp only [smallSnapshotCodec, List.append_assoc, takeText_shortText hns,
    takeText_shortText hkey, takeText_shortText hschema, Checks.ok_bind, List.cons_append,
    toUInt8_toNat hpayload, toUInt8_toNat hversion, toUInt8_toNat hrevision, List.drop_left,
    List.take_left]
  simp only [toUInt8_toNat htime]
  rfl

end DbProxy
