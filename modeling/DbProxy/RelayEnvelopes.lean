/-
Relay envelopes through the outbox (`relay.rs`).

`into_outbox` puts an envelope into the payload of an event and repeats its
identity in the event's own fields; `from_outbox` reads it back and compares.
`serde_json` is the parameter `EnvelopeJson`.  `readMembers` is the JSON text of
the derived `Deserialize`, as far as compact ASCII texts with the members in the
order of the struct go.

* `intoOutbox_returns`, `fromOutbox_carrier` — there and back;
* `topic_inj` — a routing key has one producer and one version;
* `reads_spellMembers` — the ASCII spelling of an envelope is read back.
-/
import DbProxy.CanonicalForms
import DbProxy.JsonText

namespace DbProxy

open Text JsonText Utf16

/-- `serde_json::to_vec` and `from_slice`, at the type of the envelopes. -/
structure EnvelopeJson where
  encode : EventEnvelope → Option Bytes
  decode : Bytes → Option EventEnvelope

namespace EventEnvelope

/-! ### Into the outbox -/

/-- The event that carries an envelope with the given payload. -/
def carrier (self : EventEnvelope) (payload : Bytes) : OutboxEvent :=
  ⟨self.eventId, self.topic, self.partitionKey, payload, self.occurredAtUnixMs⟩

def intoOutbox (json : EnvelopeJson) (self : EventEnvelope) : Except StoreError OutboxEvent := do
  self.validate
  let payload ← (json.encode self).elim
    (.error (.invalidOutboxEvent "cannot encode envelope")) .ok
  return self.carrier payload

theorem validate_returns (self : EventEnvelope) :
    Checks.Returns self.validate self.Valid () := by
  intro u
  rw [validate_eq_ok, and_iff_left rfl]

theorem intoOutbox_returns {json : EnvelopeJson} {self : EventEnvelope} {payload : Bytes}
    (h : json.encode self = some payload) :
    Checks.Returns (self.intoOutbox json) self.Valid (self.carrier payload) := by
  have hpayload : Checks.Returns ((json.encode self).elim
      (.error (StoreError.invalidOutboxEvent "cannot encode envelope")) .ok) True payload := by
    rw [h]
    exact Checks.returns_pure payload
  exact (self.validate_returns.bind hpayload.map).congr (and_iff_left trivial)

/-! ### From the outbox -/

theorem isRelayTopic_topic (self : EventEnvelope) : isRelayTopic self.topic = true := by
  rw [isRelayTopic, topic, List.isPrefixOf_iff_prefix]
  simp only [String.toList_append, List.append_assoc]
  exact List.prefix_append _ _

/-- The event that carries an envelope gives it back. -/
theorem fromOutbox_carrier {decode : Bytes → Option EventEnvelope} {self : EventEnvelope}
    {payload : Bytes} (hdecode : decode payload = some self) (hvalid : self.Valid) :
    fromOutbox decode (self.carrier payload) = .ok (some self) :=
  fromOutbox_eq_ok.mpr (Or.inr ⟨self, self.isRelayTopic_topic, hdecode, hvalid, rfl, rfl, rfl, rfl,
    rfl⟩)

/-! ### Routing keys -/

/-- A dot that no later part contains is the last one. -/
theorem lastDot_inj {a b d e : List Char} (hd : '.' ∉ d) (he : '.' ∉ e)
    (h : a ++ '.' :: d = b ++ '.' :: e) : a = b ∧ d = e := by
  -- what follows the last dot is read from the end
  have hsplit : ∀ {x y : List Char}, '.' ∉ y →
      (x ++ '.' :: y).reverse.takeWhile (· != '.') = y.reverse := by
    intro x y hy
    have hkeep : ∀ c ∈ y.reverse, (c != '.') = true := by
      intro c hc
      exact bne_iff_ne.mpr fun heq => hy (heq ▸ List.mem_reverse.mp hc)
    rw [List.reverse_append, List.reverse_cons, List.append_assoc,
      List.takeWhile_append_of_pos hkeep, List.singleton_append,
      List.takeWhile_cons_of_neg (by simp), List.append_nil]
  have hde : d = e := by
    rw [← List.reverse_inj, ← hsplit (x := a) hd, h, hsplit he]
  subst hde
  exact ⟨List.append_cancel_right h, rfl⟩

theorem dot_not_mem_toString (n : ℕ) : '.' ∉ (toString n).toList := by
  intro hmem
  have hdigit := Nat.isDigit_of_mem_toDigits (b := 10) (n := n) (by decide) (by decide)
    (by simpa [Nat.repr] using hmem)
  cases hdigit

/-- The routing key of a producer and a version. -/
theorem topic_inj {producer producer' : String} {version version' : ℕ}
    (h : relayTopicPrefix ++ producer ++ "." ++ toString version =
      relayTopicPrefix ++ producer' ++ "." ++ toString version') :
    producer = producer' ∧ version = version' := by
  have hlist := congrArg String.toList h
  simp only [String.toList_append, List.append_assoc] at hlist
  have htail := List.append_cancel_left hlist
  obtain ⟨hproducer, hversion⟩ :=
    lastDot_inj (dot_not_mem_toString version) (dot_not_mem_toString version') htail
  exact ⟨String.ext hproducer, LuaNumber.repr_injective (String.ext hversion)⟩

end EventEnvelope

/-! ### The JSON text -/

/-- What the members of the object say; a string says code units. -/
structure EnvelopeMembers where
  eventId : List UInt16
  producer : List UInt16
  eventType : List UInt16
  aggregateType : List UInt16
  aggregateId : List UInt16
  partitionKey : List UInt16
  schemaVersion : ℕ
  contentType : List UInt16
  payload : Bytes
  occurredAtUnixMs : ℕ
  routeVersion : ℕ

namespace EnvelopeMembers

/-- The texts of the members. -/
def texts (members : EnvelopeMembers) : List (List UInt16) :=
  [members.eventId, members.producer, members.eventType, members.aggregateType,
    members.aggregateId, members.partitionKey, members.contentType]

/-- A `String` holds well-formed text. -/
def envelope (members : EnvelopeMembers) : Option EventEnvelope := do
  let eventId ← decodeText members.eventId
  let producer ← decodeText members.producer
  let eventType ← decodeText members.eventType
  let aggregateType ← decodeText members.aggregateType
  let aggregateId ← decodeText members.aggregateId
  let partitionKey ← decodeText members.partitionKey
  let contentType ← decodeText members.contentType
  return ⟨eventId, producer, eventType, aggregateType, aggregateId, partitionKey,
    members.schemaVersion, contentType, members.payload, members.occurredAtUnixMs,
    members.routeVersion⟩

/-- The numbers have the widths of the struct. -/
structure InRange (members : EnvelopeMembers) : Prop where
  schemaVersion : members.schemaVersion < 2 ^ 32
  occurredAtUnixMs : members.occurredAtUnixMs < 2 ^ 64
  routeVersion : members.routeVersion < 2 ^ 32

end EnvelopeMembers

def EventEnvelope.members (self : EventEnvelope) : EnvelopeMembers :=
  ⟨codeUnits self.eventId, codeUnits self.producer, codeUnits self.eventType,
    codeUnits self.aggregateType, codeUnits self.aggregateId, codeUnits self.partitionKey,
    self.schemaVersion, codeUnits self.contentType, self.payload, self.occurredAtUnixMs,
    self.routeVersion⟩

def EventEnvelope.InRange (self : EventEnvelope) : Prop := self.members.InRange

theorem EnvelopeMembers.envelope_eq_some {members : EnvelopeMembers} {envelope : EventEnvelope} :
    members.envelope = some envelope ↔ members = envelope.members := by
  simp only [EnvelopeMembers.envelope, Option.bind_eq_bind, Option.bind_eq_some_iff,
    decodeText_eq_some]
  constructor
  · rintro ⟨eventId, h1, producer, h2, eventType, h3, aggregateType, h4, aggregateId, h5,
      partitionKey, h6, contentType, h7, h⟩
    obtain rfl := Option.some_inj.mp h
    rw [EventEnvelope.members, ← h1, ← h2, ← h3, ← h4, ← h5, ← h6, ← h7]
  · rintro rfl
    exact ⟨_, rfl, _, rfl, _, rfl, _, rfl, _, rfl, _, rfl, _, rfl, rfl⟩

/-- The members of the struct, in its order. -/
def readMembers : Reader EnvelopeMembers := do
  word (ascii "\x7b")
  member "event_id"
  let eventId ← literal
  word (ascii ",")
  member "producer"
  let producer ← literal
  word (ascii ",")
  member "event_type"
  let eventType ← literal
  word (ascii ",")
  member "aggregate_type"
  let aggregateType ← literal
  word (ascii ",")
  member "aggregate_id"
  let aggregateId ← literal
  word (ascii ",")
  member "partition_key"
  let partitionKey ← literal
  word (ascii ",")
  member "schema_version"
  let schemaVersion ← natural (2 ^ 32) 44
  member "content_type"
  let contentType ← literal
  word (ascii ",")
  member "payload"
  let payload ← byteArray
  word (ascii ",")
  member "occurred_at_unix_ms"
  word (ascii "\"")
  let occurredAtUnixMs ← natural (2 ^ 64) 34
  word (ascii ",")
  member "route_version"
  let routeVersion ← natural (2 ^ 32) 125
  return ⟨eventId, producer, eventType, aggregateType, aggregateId, partitionKey, schemaVersion,
    contentType, payload, occurredAtUnixMs, routeVersion⟩

/-- The compact ASCII text of the members. -/
def spellMembers (members : EnvelopeMembers) : Bytes :=
  List.flatten
    [ascii "\x7b", spellMember "event_id", spellLiteral members.eventId,
      ascii ",", spellMember "producer", spellLiteral members.producer,
      ascii ",", spellMember "event_type", spellLiteral members.eventType,
      ascii ",", spellMember "aggregate_type", spellLiteral members.aggregateType,
      ascii ",", spellMember "aggregate_id", spellLiteral members.aggregateId,
      ascii ",", spellMember "partition_key", spellLiteral members.partitionKey,
      ascii ",", spellMember "schema_version", Decimal.bytes members.schemaVersion ++ [44],
      spellMember "content_type", spellLiteral members.contentType,
      ascii ",", spellMember "payload", spellByteArray members.payload,
      ascii ",", spellMember "occurred_at_unix_ms", ascii "\"",
      Decimal.bytes members.occurredAtUnixMs ++ [34],
      ascii ",", spellMember "route_version", Decimal.bytes members.routeVersion ++ [125]]

theorem reads_spellMembers {members : EnvelopeMembers} (h : members.InRange) :
    Reads readMembers (spellMembers members) members := by
  refine (reads_word _).bind ((reads_word _).bind ((reads_literal members.eventId).bind ?_))
  refine (reads_word _).bind ((reads_word _).bind ((reads_literal members.producer).bind ?_))
  refine (reads_word _).bind ((reads_word _).bind ((reads_literal members.eventType).bind ?_))
  refine (reads_word _).bind ((reads_word _).bind ((reads_literal members.aggregateType).bind ?_))
  refine (reads_word _).bind ((reads_word _).bind ((reads_literal members.aggregateId).bind ?_))
  refine (reads_word _).bind ((reads_word _).bind ((reads_literal members.partitionKey).bind ?_))
  refine (reads_word _).bind ((reads_word _).bind
    ((reads_natural rfl h.schemaVersion).bind ?_))
  refine (reads_word _).bind ((reads_literal members.contentType).bind ?_)
  refine (reads_word _).bind ((reads_word _).bind ((reads_byteArray members.payload).bind ?_))
  refine (reads_word _).bind ((reads_word _).bind ((reads_word _).bind
    ((reads_natural rfl h.occurredAtUnixMs).bind ?_)))
  exact (reads_word _).bind ((reads_word _).bind
    ((reads_natural rfl h.routeVersion).bind Reads.pure))

/-- What the relay relies on in `serde_json`: its own encoding is decoded, and a compact ASCII
text is decoded to the envelope that its members make, if all its strings are well formed. -/
structure EnvelopeJson.Faithful (json : EnvelopeJson) : Prop where
  decode_encode : ∀ envelope : EventEnvelope, envelope.InRange →
    ∃ payload, json.encode envelope = some payload ∧ json.decode payload = some envelope
  decode_text : ∀ payload members, readMembers.run payload = some (members, []) →
    json.decode payload = members.envelope

/-- The text of the members of an envelope is decoded to it. -/
theorem EnvelopeJson.Faithful.decode_spellMembers {json : EnvelopeJson} (h : json.Faithful)
    {members : EnvelopeMembers} (hrange : members.InRange) :
    json.decode (spellMembers members) = members.envelope :=
  h.decode_text _ _ (reads_spellMembers hrange).run

end DbProxy
