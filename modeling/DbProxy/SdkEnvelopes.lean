/-
Relay envelopes that the TypeScript SDK builds (`sdk/typescript/src/index.ts`).

`createOutboxEvent` checks the fields and writes the envelope as ASCII JSON; the
server reads the bytes with `serde_json`.

* `asciiPayload_envelopeMembers` — the payload is the ASCII text of the members;
* `createOutboxEvent_ok`, `createOutboxEvent_returns` — what the builder returns;
* `Builds.valid` — what the SDK accepts is valid on the server;
* `relayEnvelopes_survive` — both languages.
-/
import DbProxy.RelayEnvelopes
import DbProxy.SdkJson
import DbProxy.SdkTradeAgreement

namespace DbProxy

open Text Utf16

namespace Sdk

structure DbProxyEventEnvelope where
  eventId : JsString
  producer : JsString
  eventType : JsString
  aggregateType : JsString
  aggregateId : JsString
  partitionKey : JsString
  schemaVersion : ℤ
  contentType : JsString
  payload : Bytes
  occurredAtUnixMs : ℤ
  routeVersion : ℤ
/-! ### The builder -/

/-- The class `[\u0000-\u001f\u007f-\u009f]`. -/
def isControlUnit (u : UInt16) : Bool :=
  let n := u.toNat
  n ≤ 0x1F || (0x7F ≤ n && n ≤ 0x9F)

/-- The class `[A-Za-z0-9_-]`. -/
def isProducerUnit (u : UInt16) : Bool :=
  let n := u.toNat
  (0x41 ≤ n && n ≤ 0x5A) || (0x61 ≤ n && n ≤ 0x7A) || (0x30 ≤ n && n ≤ 0x39) ||
    n == 0x5F || n == 0x2D

def envelopeText (value : JsString) : Except SdkError JsString := do
  let result ← requireText value "envelope text" 256
  ensure (!result.any isControlUnit)
    (.typeError (codeUnits "envelope text contains control characters"))
  return result

/-- The members of the JSON object. -/
def envelopeMembers (envelope : DbProxyEventEnvelope) : List (String × JsValue) :=
  [("event_id", .text envelope.eventId), ("producer", .text envelope.producer),
    ("event_type", .text envelope.eventType), ("aggregate_type", .text envelope.aggregateType),
    ("aggregate_id", .text envelope.aggregateId), ("partition_key", .text envelope.partitionKey),
    ("schema_version", .number envelope.schemaVersion),
    ("content_type", .text envelope.contentType),
    ("payload", .numbers ((copyBytes envelope.payload).map fun b => (b.toNat : ℤ))),
    ("occurred_at_unix_ms", .text (decimal envelope.occurredAtUnixMs)),
    ("route_version", .number envelope.routeVersion)]

def createOutboxEvent (input : DbProxyEventEnvelope) : Except SdkError DbProxyOutboxEvent := do
  let producer ← envelopeText input.producer
  ensure (producer.length != 0 && producer.all isProducerUnit)
    (.typeError (codeUnits "invalid producer"))
  let schemaVersion ← requireUint32 input.schemaVersion "schemaVersion"
  let routeVersion ← requireUint32 input.routeVersion "routeVersion"
  ensure (!(schemaVersion == 0 || routeVersion == 0))
    (.typeError (codeUnits "envelope versions must be positive"))
  let occurredAtUnixMs ← requireUint64 input.occurredAtUnixMs "occurredAtUnixMs"
  let eventId ← envelopeText input.eventId
  let partitionKey ← envelopeText input.partitionKey
  let eventType ← envelopeText input.eventType
  let aggregateType ← envelopeText input.aggregateType
  let aggregateId ← envelopeText input.aggregateId
  let contentType ← envelopeText input.contentType
  let json := stringify (envelopeMembers ⟨eventId, producer, eventType, aggregateType, aggregateId,
    partitionKey, schemaVersion, contentType, input.payload, occurredAtUnixMs, routeVersion⟩)
  return ⟨eventId, codeUnits "dbproxy.relay.v1." ++ producer ++ codeUnits "." ++
    decimal routeVersion, partitionKey, asciiPayload json, occurredAtUnixMs⟩

/-! ### The payload -/

/-- What the members of the JSON object say. -/
def DbProxyEventEnvelope.members (input : DbProxyEventEnvelope) : EnvelopeMembers :=
  ⟨input.eventId, input.producer, input.eventType, input.aggregateType, input.aggregateId,
    input.partitionKey, input.schemaVersion.toNat, input.contentType, input.payload,
    input.occurredAtUnixMs.toNat, input.routeVersion.toNat⟩

/-- The numbers have the widths of the fields. -/
structure DbProxyEventEnvelope.InRange (input : DbProxyEventEnvelope) : Prop where
  schemaVersion : 0 ≤ input.schemaVersion ∧ input.schemaVersion < 2 ^ 32
  occurredAtUnixMs : 0 ≤ input.occurredAtUnixMs ∧ input.occurredAtUnixMs < 2 ^ 64
  routeVersion : 0 ≤ input.routeVersion ∧ input.routeVersion < 2 ^ 32

theorem DbProxyEventEnvelope.InRange.members {input : DbProxyEventEnvelope} (h : input.InRange) :
    input.members.InRange := by
  obtain ⟨hschema, htime, hroute⟩ := h
  refine ⟨?_, ?_, ?_⟩
  · show input.schemaVersion.toNat < 2 ^ 32
    omega
  · show input.occurredAtUnixMs.toNat < 2 ^ 64
    omega
  · show input.routeVersion.toNat < 2 ^ 32
    omega

/-- The payload is the ASCII text of the members. -/
theorem asciiPayload_envelopeMembers {input : DbProxyEventEnvelope} (h : input.InRange) :
    asciiPayload (stringify (envelopeMembers input)) = spellMembers input.members := by
  have hopen : asciiPayload (codeUnits "\x7b") = JsonText.ascii "\x7b" := by decide
  have hclose : asciiPayload (codeUnits "\x7d") = [125] := by decide
  have hcolon : asciiPayload (codeUnits ":") = JsonText.ascii ":" := by decide
  have hcomma : JsonText.ascii "," = [44] := by decide
  rw [stringify, asciiPayload_append, asciiPayload_append, asciiPayload_intercalate, hopen, hclose]
  simp only [envelopeMembers, copyBytes, List.map_cons, List.map_nil,
    List.intercalate_cons_cons, List.intercalate_singleton, asciiPayload_append,
    asciiPayload_quote, hcolon, asciiPayload_numbers, spellMembers, hcomma,
    DbProxyEventEnvelope.members, JsonText.spellMember, List.flatten_cons, List.flatten_nil,
    List.append_assoc, List.append_nil]
  simp only [stringifyValue, asciiPayload_quote, asciiPayload_decimal h.schemaVersion.1,
    asciiPayload_decimal h.routeVersion.1, spellLiteral_decimal h.occurredAtUnixMs.1,
    List.append_assoc]

/-! ### What the builder returns -/

theorem requireText_ok {value result : JsString} {name : String} {maximumBytes : ℕ}
    (h : requireText value name maximumBytes = .ok result) : result = value := by
  obtain ⟨_, -, h⟩ := Checks.bind_eq_ok.mp h
  obtain ⟨_, -, h⟩ := Checks.bind_eq_ok.mp h
  exact (Except.ok.inj h).symm

theorem envelopeText_ok {value result : JsString} (h : envelopeText value = .ok result) :
    result = value := by
  obtain ⟨_, htext, h⟩ := Checks.bind_eq_ok.mp h
  obtain ⟨_, -, h⟩ := Checks.bind_eq_ok.mp h
  obtain rfl := Except.ok.inj h
  exact requireText_ok htext

theorem requireUint32_ok {value result : ℤ} {name : String}
    (h : requireUint32 value name = .ok result) :
    (0 ≤ value ∧ value < 2 ^ 32) ∧ result = value := by
  obtain ⟨hrange, hsame⟩ := (ensure_return_returns _ _ _ result).mp h
  rw [Bool.and_eq_true, decide_eq_true_eq, decide_eq_true_eq] at hrange
  exact ⟨⟨hrange.1, by omega⟩, hsame⟩

theorem requireUint64_ok {value result : ℤ} {name : String}
    (h : requireUint64 value name = .ok result) :
    (0 ≤ value ∧ value < 2 ^ 64) ∧ result = value := by
  obtain ⟨hrange, hsame⟩ := (ensure_return_returns _ _ _ result).mp h
  rw [Bool.and_eq_true, decide_eq_true_eq, decide_eq_true_eq, uint64Max] at hrange
  exact ⟨⟨hrange.1, by omega⟩, hsame⟩

/-- The event of an accepted input. -/
def builtEvent (input : DbProxyEventEnvelope) : DbProxyOutboxEvent :=
  ⟨input.eventId, codeUnits "dbproxy.relay.v1." ++ input.producer ++ codeUnits "." ++
    decimal input.routeVersion, input.partitionKey, spellMembers input.members,
    input.occurredAtUnixMs⟩

theorem createOutboxEvent_ok {input : DbProxyEventEnvelope} {event : DbProxyOutboxEvent}
    (h : createOutboxEvent input = .ok event) : input.InRange ∧ event = builtEvent input := by
  obtain ⟨_, hproducer, h⟩ := Checks.bind_eq_ok.mp h
  obtain ⟨_, -, h⟩ := Checks.bind_eq_ok.mp h
  obtain ⟨_, hschema, h⟩ := Checks.bind_eq_ok.mp h
  obtain ⟨_, hroute, h⟩ := Checks.bind_eq_ok.mp h
  obtain ⟨_, -, h⟩ := Checks.bind_eq_ok.mp h
  obtain ⟨_, htime, h⟩ := Checks.bind_eq_ok.mp h
  obtain ⟨_, hid, h⟩ := Checks.bind_eq_ok.mp h
  obtain ⟨_, hkey, h⟩ := Checks.bind_eq_ok.mp h
  obtain ⟨_, htype, h⟩ := Checks.bind_eq_ok.mp h
  obtain ⟨_, haggregateType, h⟩ := Checks.bind_eq_ok.mp h
  obtain ⟨_, haggregateId, h⟩ := Checks.bind_eq_ok.mp h
  obtain ⟨_, hcontentType, h⟩ := Checks.bind_eq_ok.mp h
  obtain rfl := envelopeText_ok hproducer
  obtain rfl := envelopeText_ok hid
  obtain rfl := envelopeText_ok hkey
  obtain rfl := envelopeText_ok htype
  obtain rfl := envelopeText_ok haggregateType
  obtain rfl := envelopeText_ok haggregateId
  obtain rfl := envelopeText_ok hcontentType
  obtain ⟨hschemaRange, rfl⟩ := requireUint32_ok hschema
  obtain ⟨hrouteRange, rfl⟩ := requireUint32_ok hroute
  obtain ⟨htimeRange, rfl⟩ := requireUint64_ok htime
  have hrange : input.InRange := ⟨hschemaRange, htimeRange, hrouteRange⟩
  refine ⟨hrange, (Except.ok.inj h).symm.trans ?_⟩
  rw [builtEvent, ← asciiPayload_envelopeMembers hrange]

end Sdk

/-- The envelope in the runtime of the SDK. -/
def EventEnvelope.toSdk (value : EventEnvelope) : Sdk.DbProxyEventEnvelope :=
  ⟨codeUnits value.eventId, codeUnits value.producer, codeUnits value.eventType,
    codeUnits value.aggregateType, codeUnits value.aggregateId, codeUnits value.partitionKey,
    value.schemaVersion, codeUnits value.contentType, value.payload, value.occurredAtUnixMs,
    value.routeVersion⟩

namespace Sdk

theorem members_toSdk (envelope : EventEnvelope) : envelope.toSdk.members = envelope.members :=
  rfl

theorem inRange_toSdk {envelope : EventEnvelope} :
    envelope.toSdk.InRange ↔ envelope.InRange := by
  constructor
  · intro h
    exact h.members
  · rintro ⟨hschema, htime, hroute⟩
    have hschema' : envelope.schemaVersion < 2 ^ 32 := hschema
    have htime' : envelope.occurredAtUnixMs < 2 ^ 64 := htime
    have hroute' : envelope.routeVersion < 2 ^ 32 := hroute
    refine ⟨⟨Int.natCast_nonneg _, ?_⟩, ⟨Int.natCast_nonneg _, ?_⟩, ⟨Int.natCast_nonneg _, ?_⟩⟩
    · show (envelope.schemaVersion : ℤ) < 2 ^ 32
      omega
    · show (envelope.occurredAtUnixMs : ℤ) < 2 ^ 64
      omega
    · show (envelope.routeVersion : ℤ) < 2 ^ 32
      omega

theorem builtEvent_toSdk (envelope : EventEnvelope) :
    builtEvent envelope.toSdk = (envelope.carrier (spellMembers envelope.members)).toSdk := by
  have htopic : codeUnits "dbproxy.relay.v1." ++ codeUnits envelope.producer ++ codeUnits "." ++
      decimal envelope.routeVersion = codeUnits envelope.topic := by
    rw [EventEnvelope.topic, codeUnits_append, codeUnits_append, codeUnits_append]
    rfl
  rw [builtEvent, members_toSdk]
  simp only [EventEnvelope.toSdk, htopic]
  rfl

/-- Every text of an input is well formed. -/
def DbProxyEventEnvelope.WellFormed (input : DbProxyEventEnvelope) : Prop :=
  ∀ value ∈ input.members.texts, ∃ s, value = codeUnits s

/-- A well-formed input with numbers in range is an envelope. -/
theorem exists_envelope {input : DbProxyEventEnvelope} (hwf : input.WellFormed)
    (hrange : input.InRange) : ∃ envelope : EventEnvelope, input = envelope.toSdk := by
  obtain ⟨⟨hschema, -⟩, ⟨htime, -⟩, ⟨hroute, -⟩⟩ := hrange
  obtain ⟨eventId, producer, eventType, aggregateType, aggregateId, partitionKey, schemaVersion,
    contentType, payload, occurredAtUnixMs, routeVersion⟩ := input
  obtain ⟨schemaVersion, rfl⟩ := Int.eq_ofNat_of_zero_le hschema
  obtain ⟨occurredAtUnixMs, rfl⟩ := Int.eq_ofNat_of_zero_le htime
  obtain ⟨routeVersion, rfl⟩ := Int.eq_ofNat_of_zero_le hroute
  simp only [DbProxyEventEnvelope.WellFormed, DbProxyEventEnvelope.members,
    EnvelopeMembers.texts] at hwf
  obtain ⟨eventId, rfl⟩ := hwf eventId (by simp)
  obtain ⟨producer, rfl⟩ := hwf producer (by simp)
  obtain ⟨eventType, rfl⟩ := hwf eventType (by simp)
  obtain ⟨aggregateType, rfl⟩ := hwf aggregateType (by simp)
  obtain ⟨aggregateId, rfl⟩ := hwf aggregateId (by simp)
  obtain ⟨partitionKey, rfl⟩ := hwf partitionKey (by simp)
  obtain ⟨contentType, rfl⟩ := hwf contentType (by simp)
  exact ⟨⟨eventId, producer, eventType, aggregateType, aggregateId, partitionKey, schemaVersion,
    contentType, payload, occurredAtUnixMs, routeVersion⟩, rfl⟩

theorem wellFormed_toSdk (envelope : EventEnvelope) : envelope.toSdk.WellFormed := by
  intro value hmem
  rw [members_toSdk] at hmem
  simp only [EventEnvelope.members, EnvelopeMembers.texts, List.mem_cons, List.not_mem_nil,
    or_false] at hmem
  rcases hmem with rfl | rfl | rfl | rfl | rfl | rfl | rfl <;> exact ⟨_, rfl⟩

/-! ### What the builder accepts -/

theorem any_isControlUnit (s : String) :
    (codeUnits s).any isControlUnit = s.toList.any isControl := by
  have hvalue : ∀ (u : UInt16) (n : ℕ), u.toNat = n →
      (isControlUnit u = true ↔ n ≤ 0x1F ∨ (0x7F ≤ n ∧ n ≤ 0x9F)) := by
    rintro u n rfl
    simp [isControlUnit]
  have hchar : ∀ c : Char, isControl c = true ↔
      c.toNat ≤ 0x1F ∨ (0x7F ≤ c.toNat ∧ c.toNat ≤ 0x9F) := by
    intro c
    simp only [isControl, Bool.or_eq_true, Bool.and_eq_true, decide_eq_true_eq]
    omega
  apply any_codeUnits
  · -- a surrogate is no control character
    intro u hlow hhigh
    rw [← Bool.not_eq_true, hvalue u _ rfl]
    omega
  · intro c hbig
    rw [← Bool.not_eq_true, hchar]
    omega
  · intro u c h
    rw [Bool.eq_iff_iff, hvalue u _ h, hchar]

/-- The pattern of a producer accepts the characters that the server accepts. -/
theorem all_isProducerUnit (s : String) : (codeUnits s).all isProducerUnit =
    s.toList.all fun c => isAsciiAlphanumeric c || c == '_' || c == '-' := by
  have hvalue : ∀ (u : UInt16) (n : ℕ), u.toNat = n → (isProducerUnit u = true ↔
      (0x41 ≤ n ∧ n ≤ 0x5A) ∨ (0x61 ≤ n ∧ n ≤ 0x7A) ∨ (0x30 ≤ n ∧ n ≤ 0x39) ∨
        n = 0x5F ∨ n = 0x2D) := by
    rintro u n rfl
    simp only [isProducerUnit, Bool.or_eq_true, Bool.and_eq_true, decide_eq_true_eq, beq_iff_eq,
      or_assoc]
  have hchar : ∀ c : Char, (isAsciiAlphanumeric c || c == '_' || c == '-') = true ↔
      (0x41 ≤ c.toNat ∧ c.toNat ≤ 0x5A) ∨ (0x61 ≤ c.toNat ∧ c.toNat ≤ 0x7A) ∨
        (0x30 ≤ c.toNat ∧ c.toNat ≤ 0x39) ∨ c.toNat = 0x5F ∨ c.toNat = 0x2D := by
    intro c
    have heq : ∀ d : Char, c = d ↔ c.toNat = d.toNat := fun d => Char.toNat_inj.symm
    have hle : ∀ a b : Char, a ≤ b ↔ a.toNat ≤ b.toNat := fun a b => Iff.rfl
    simp only [isAsciiAlphanumeric, Bool.or_eq_true, Bool.and_eq_true, decide_eq_true_eq,
      beq_iff_eq, heq, hle]
    show ((((0x30 ≤ c.toNat ∧ c.toNat ≤ 0x39) ∨ (0x41 ≤ c.toNat ∧ c.toNat ≤ 0x5A)) ∨
      (0x61 ≤ c.toNat ∧ c.toNat ≤ 0x7A)) ∨ c.toNat = 0x5F) ∨ c.toNat = 0x2D ↔ _
    omega
  apply all_codeUnits
  · -- a surrogate is no producer unit
    intro u hlow hhigh
    rw [← Bool.not_eq_true, hvalue u _ rfl]
    omega
  · intro c hbig
    rw [← Bool.not_eq_true, hchar]
    omega
  · intro u c h
    rw [Bool.eq_iff_iff, hvalue u _ h, hchar]

/-- A text of an envelope that the builder passes on. -/
def EnvelopeText (s : String) : Prop :=
  Fits jsBlank (s, 256) ∧ ∀ c ∈ s.toList, isControl c = false

instance (s : String) : Decidable (EnvelopeText s) :=
  @instDecidableAnd _ _ (inferInstanceAs (Decidable (Fits jsBlank (s, 256))))
    (List.decidableBAll (fun c => isControl c = false) s.toList)

theorem envelopeText_returns (s : String) :
    Checks.Returns (envelopeText (codeUnits s)) (EnvelopeText s) (codeUnits s) := by
  refine (requireText_returns s _ _).bind ((ensure_return_returns _ _ _).congr ?_)
  rw [any_isControlUnit, Bool.not_eq_true', List.any_eq_false]
  exact forall₂_congr fun c _ => iff_of_eq (Bool.not_eq_true _)

/-- What the builder asks of an envelope. -/
structure Builds (envelope : EventEnvelope) : Prop where
  texts : ∀ text ∈ [envelope.eventId, envelope.producer, envelope.eventType,
    envelope.aggregateType, envelope.aggregateId, envelope.partitionKey, envelope.contentType],
      EnvelopeText text
  producer : ∀ c ∈ envelope.producer.toList, isAsciiAlphanumeric c = true ∨ c = '_' ∨ c = '-'
  schemaVersion : envelope.schemaVersion ≠ 0
  routeVersion : envelope.routeVersion ≠ 0

theorem producer_pattern {s : String} (h : EnvelopeText s) :
    ((codeUnits s).length != 0 && (codeUnits s).all isProducerUnit) = true ↔
      ∀ c ∈ s.toList, isAsciiAlphanumeric c = true ∨ c = '_' ∨ c = '-' := by
  have hne : (codeUnits s).length ≠ 0 := by
    intro hlength
    rw [List.length_eq_zero_iff, codeUnits_eq_nil] at hlength
    have hblank := h.1.1
    simp only [hlength] at hblank
    cases hblank
  rw [Bool.and_eq_true, bne_iff_ne, all_isProducerUnit, List.all_eq_true]
  rw [and_iff_right hne]
  simp only [Bool.or_eq_true, beq_iff_eq, or_assoc]

/-- The checks of the builder. -/
theorem createOutboxEvent_returns {envelope : EventEnvelope} (h : envelope.InRange) :
    Checks.Returns (createOutboxEvent envelope.toSdk) (Builds envelope)
      (envelope.carrier (spellMembers envelope.members)).toSdk := by
  have hiff : (EnvelopeText envelope.producer ∧
      ((codeUnits envelope.producer).length != 0 &&
        (codeUnits envelope.producer).all isProducerUnit) = true ∧
      (envelope.schemaVersion ≠ 0 ∧ envelope.routeVersion ≠ 0) ∧
      EnvelopeText envelope.eventId ∧ EnvelopeText envelope.partitionKey ∧
      EnvelopeText envelope.eventType ∧ EnvelopeText envelope.aggregateType ∧
      EnvelopeText envelope.aggregateId ∧ EnvelopeText envelope.contentType) ↔
      Builds envelope := by
    constructor
    · rintro ⟨hproducer, hpattern, ⟨hschema, hroute⟩, hid, hkey, htype, hatype, haid, hctype⟩
      refine ⟨?_, (producer_pattern hproducer).mp hpattern, hschema, hroute⟩
      intro text hmem
      simp only [List.mem_cons, List.not_mem_nil, or_false] at hmem
      rcases hmem with rfl | rfl | rfl | rfl | rfl | rfl | rfl
      · exact hid
      · exact hproducer
      · exact htype
      · exact hatype
      · exact haid
      · exact hkey
      · exact hctype
    · intro hbuilds
      have htext := hbuilds.texts
      exact ⟨htext _ (by simp), (producer_pattern (htext _ (by simp))).mpr hbuilds.producer,
        ⟨hbuilds.schemaVersion, hbuilds.routeVersion⟩, htext _ (by simp), htext _ (by simp),
        htext _ (by simp), htext _ (by simp), htext _ (by simp), htext _ (by simp)⟩
  -- the checks in the order of the builder
  refine Checks.Returns.congr ?_ hiff
  refine (envelopeText_returns envelope.producer).bind ((ensure_returns _ _).bind ?_)
  refine (requireUint32_returns h.schemaVersion).andThen ?_
  refine (requireUint32_returns h.routeVersion).andThen ?_
  refine ((ensure_returns _ _).congr ?_).bind ?_
  · rw [Bool.not_eq_true', Bool.or_eq_false_iff, beq_eq_false_iff_ne, beq_eq_false_iff_ne, ne_eq,
      ne_eq, Int.natCast_eq_zero, Int.natCast_eq_zero]
    exact Iff.rfl
  refine (requireUint64_returns h.occurredAtUnixMs).andThen ?_
  refine (envelopeText_returns envelope.eventId).bind ?_
  refine (envelopeText_returns envelope.partitionKey).bind ?_
  refine (envelopeText_returns envelope.eventType).bind ?_
  refine (envelopeText_returns envelope.aggregateType).bind ?_
  refine (envelopeText_returns envelope.aggregateId).bind ?_
  refine (envelopeText_returns envelope.contentType).map.cast ?_
  rw [← builtEvent_toSdk, builtEvent, ← asciiPayload_envelopeMembers (inRange_toSdk.mpr h)]
  rfl

/-- What the SDK accepts is valid on the server: a text that `trim` leaves and that has no
control character is not white space there either. -/
theorem Builds.valid {envelope : EventEnvelope} (h : Builds envelope) : envelope.Valid := by
  refine ⟨fun text hmem => ?_, h.producer, h.schemaVersion, h.routeVersion⟩
  obtain ⟨⟨hblank, hsize⟩, hcontrol⟩ := h.texts text hmem
  refine ⟨blank_eq_false_iff.mpr ⟨(jsBlank_eq_false_iff.mp hblank).1, ?_⟩, hsize, hcontrol⟩
  rintro ⟨hnel, -⟩
  -- `U+0085` is a control character
  have := hcontrol _ hnel
  cases this

end Sdk

/-! ### Both languages -/

/-- **Relay envelopes survive the outbox**: an envelope that Rust puts in comes out again, an input
that the SDK accepts comes out with its fields, only the prefix of the topic decides whether an
event carries an envelope, and what comes out is what the event's own fields say. -/
theorem relayEnvelopes_survive (json : EnvelopeJson) (hjson : json.Faithful) :
    (∀ envelope : EventEnvelope, envelope.InRange → envelope.validate = .ok () →
      ∃ event, envelope.intoOutbox json = .ok event ∧
        EventEnvelope.fromOutbox json.decode event = .ok (some envelope)) ∧
    (∀ input event, input.WellFormed → Sdk.createOutboxEvent input = .ok event →
      ∃ (envelope : EventEnvelope) (sent : OutboxEvent),
        input = envelope.toSdk ∧ event = sent.toSdk ∧
        EventEnvelope.fromOutbox json.decode sent = .ok (some envelope)) ∧
    (∀ event : OutboxEvent, EventEnvelope.fromOutbox json.decode event = .ok none ↔
      isRelayTopic event.topic = false) ∧
    ∀ (event : OutboxEvent) envelope,
      EventEnvelope.fromOutbox json.decode event = .ok (some envelope) →
      envelope.eventId = event.eventId ∧ envelope.partitionKey = event.partitionKey ∧
      envelope.occurredAtUnixMs = event.occurredAtUnixMs ∧
      ∀ producer (version : ℕ),
        event.topic = relayTopicPrefix ++ producer ++ "." ++ toString version ↔
          producer = envelope.producer ∧ version = envelope.routeVersion := by
  refine ⟨fun envelope hrange hvalid => ?_, fun input event hwf h => ?_, fun event => ?_,
    fun event envelope h => ?_⟩
  · obtain ⟨payload, hencode, hdecode⟩ := hjson.decode_encode envelope hrange
    have hvalid := EventEnvelope.validate_eq_ok.mp hvalid
    refine ⟨envelope.carrier payload, ?_, EventEnvelope.fromOutbox_carrier hdecode hvalid⟩
    exact (EventEnvelope.intoOutbox_returns hencode _).mpr ⟨hvalid, rfl⟩
  · have hsdkRange := (Sdk.createOutboxEvent_ok h).1
    obtain ⟨envelope, rfl⟩ := Sdk.exists_envelope hwf hsdkRange
    have hrange := Sdk.inRange_toSdk.mp hsdkRange
    obtain ⟨hbuilds, rfl⟩ := (Sdk.createOutboxEvent_returns hrange event).mp h
    refine ⟨envelope, _, rfl, rfl, EventEnvelope.fromOutbox_carrier ?_ hbuilds.valid⟩
    exact (hjson.decode_spellMembers hrange).trans (EnvelopeMembers.envelope_eq_some.mpr rfl)
  · rw [EventEnvelope.fromOutbox_eq_ok]
    constructor
    · rintro (⟨hlegacy, -⟩ | ⟨_, -, -, -, -, -, -, -, hnone⟩)
      · exact hlegacy
      · cases hnone
    · intro hlegacy
      exact Or.inl ⟨hlegacy, rfl⟩
  · rcases EventEnvelope.fromOutbox_eq_ok.mp h with
      ⟨-, hnone⟩ | ⟨found, -, -, -, htopic, hid, hkey, htime, hsome⟩
    · cases hnone
    · obtain rfl := Option.some_inj.mp hsome
      refine ⟨hid.symm, hkey.symm, htime.symm, fun producer version => ?_⟩
      constructor
      · intro hsame
        exact EventEnvelope.topic_inj (hsame.symm.trans htopic)
      · rintro ⟨rfl, rfl⟩
        exact htopic

/-- An envelope with the largest time. -/
def sampleEnvelope (aggregateId : String) : EventEnvelope where
  eventId := "evt1"
  producer := "game"
  eventType := "Changed"
  aggregateType := "document"
  aggregateId := aggregateId
  partitionKey := "1"
  schemaVersion := 1
  contentType := "application/octet-stream"
  payload := [0, 255, 128]
  occurredAtUnixMs := 18446744073709551615
  routeVersion := 1

/-- Writes and reads the compact ASCII texts. -/
def asciiEnvelopeJson : EnvelopeJson where
  encode envelope := some (spellMembers envelope.members)
  decode payload := (readMembers.run payload).bind fun result =>
    if result.2 = [] then result.1.envelope else none

theorem asciiEnvelopeJson_faithful : asciiEnvelopeJson.Faithful := by
  have htext : ∀ payload members, readMembers.run payload = some (members, []) →
      asciiEnvelopeJson.decode payload = members.envelope := by
    intro payload members h
    simp only [asciiEnvelopeJson, h, Option.bind_some, if_true]
  refine ⟨fun envelope hrange => ⟨_, rfl, ?_⟩, htext⟩
  rw [htext _ _ (reads_spellMembers hrange).run]
  exact EnvelopeMembers.envelope_eq_some.mpr rfl

theorem sampleEnvelope_inRange (aggregateId : String) : (sampleEnvelope aggregateId).InRange where
  schemaVersion := (by decide : 1 < 2 ^ 32)
  occurredAtUnixMs := (by decide : 18446744073709551615 < 2 ^ 64)
  routeVersion := (by decide : 1 < 2 ^ 32)

theorem sampleEnvelope_builds {aggregateId : String} (h : Sdk.EnvelopeText aggregateId) :
    Sdk.Builds (sampleEnvelope aggregateId) := by
  have hproducer : "game".toList.all isAsciiAlphanumeric = true := by decide
  refine ⟨fun text hmem => ?_, fun c hc => Or.inl (List.all_eq_true.mp hproducer c hc),
    Nat.one_ne_zero, Nat.one_ne_zero⟩
  simp only [sampleEnvelope, List.mem_cons, List.not_mem_nil, or_false] at hmem
  rcases hmem with rfl | rfl | rfl | rfl | rfl | rfl | rfl
  case inr.inr.inr.inr.inl => exact h
  all_goals decide

/-- The Rust builder with an ASCII text, which `serde_json` spells the same way, and the SDK with
texts outside ASCII. -/
theorem relayEnvelopes_survive_sample :
    (∃ event, (sampleEnvelope "doc \"1\"").intoOutbox asciiEnvelopeJson = .ok event ∧
      EventEnvelope.fromOutbox asciiEnvelopeJson.decode event =
        .ok (some (sampleEnvelope "doc \"1\""))) ∧
    (∃ (envelope : EventEnvelope) (sent : OutboxEvent),
      (sampleEnvelope "é😀\"").toSdk = envelope.toSdk ∧
      Sdk.createOutboxEvent (sampleEnvelope "é😀\"").toSdk = .ok sent.toSdk ∧
      EventEnvelope.fromOutbox asciiEnvelopeJson.decode sent = .ok (some envelope)) ∧
    EventEnvelope.fromOutbox asciiEnvelopeJson.decode ⟨"evt1", "legacy.trade", "1", [], 0⟩ =
      .ok none := by
  obtain ⟨hrust, hsdk, hnone, -⟩ :=
    relayEnvelopes_survive asciiEnvelopeJson asciiEnvelopeJson_faithful
  refine ⟨hrust _ (sampleEnvelope_inRange _) (by decide), ?_, (hnone _).mpr (by decide)⟩
  have haccepted := (Sdk.createOutboxEvent_returns (sampleEnvelope_inRange "é😀\"") _).mpr
    ⟨sampleEnvelope_builds (by decide), rfl⟩
  obtain ⟨envelope, sent, hinput, hevent, hread⟩ := hsdk _ _ (Sdk.wellFormed_toSdk _) haccepted
  exact ⟨envelope, sent, hinput, hevent ▸ haccepted, hread⟩

end DbProxy
