/-
Which built events can be sent.

The builders of relay envelopes (`relay.rs`, `sdk/typescript/src/index.ts`), the
conversion from the wire (`dbproxy-protocol`) and the normalisation of effects
(`commit.rs`) each limit the fields of an event.  No builder looks at the length
of the topic that it puts together.

* `carrier_wire_iff` — the conversion takes a valid envelope's event exactly
  when the topic fits;
* `WellFormedEffects.cons_carrier` — normalisation always takes it;
* `builtEvents_sendable_iff` — both languages.
-/
import DbProxy.SdkEnvelopes

namespace DbProxy

open Text Utf16

/-- The conversion from the wire passes the event on, and effects that are normalised still are
with this event among them. -/
structure Sendable (decode : Bytes → Option EventEnvelope) (event : OutboxEvent) : Prop where
  wire : event.toWire.toCore = .ok event
  effects : ∀ effects : CommitEffects, (∃ normal, effects.normalize decode = .ok normal) →
    event.eventId ∉ effects.outboxEvents.map (·.eventId) →
    ∃ normal, CommitEffects.normalize decode ⟨effects.appends, event :: effects.outboxEvents⟩ =
      .ok normal

/-! ### Topics -/

theorem utf8ByteSize_topic (envelope : EventEnvelope) : envelope.topic.utf8ByteSize =
    18 + (envelope.producer.utf8ByteSize + (toString envelope.routeVersion).utf8ByteSize) := by
  have htopic : relayTopicPrefix.utf8ByteSize = 17 := by decide
  have hdot : (".").utf8ByteSize = 1 := by decide
  simp only [EventEnvelope.topic, String.utf8ByteSize_append, htopic, hdot]
  omega

/-- The topic of an envelope is not blank. -/
theorem blank_topic (envelope : EventEnvelope) : blank envelope.topic = false := by
  have hfirst : 'd' ∈ envelope.topic.toList := by
    simp only [EventEnvelope.topic, String.toList_append, List.mem_append]
    exact Or.inl (Or.inl (Or.inl (by decide)))
  rw [← Bool.not_eq_true, blank, List.all_eq_true]
  intro h
  have := h 'd' hfirst
  cases this

/-- Producers are in the alphabet of topics. -/
theorem all_isTopicChar_topic {envelope : EventEnvelope} (h : envelope.Valid) :
    envelope.topic.toList.all isTopicChar = true := by
  rw [List.all_eq_true]
  intro c hc
  simp only [EventEnvelope.topic, String.toList_append, List.mem_append] at hc
  rcases hc with ((htopic | hproducer) | hdot) | hversion
  · have hall : relayTopicPrefix.toList.all isTopicChar = true := by decide
    exact List.all_eq_true.mp hall c htopic
  · rw [isTopicChar]
    rcases h.producer c hproducer with halnum | rfl | rfl
    · rw [halnum]
      rfl
    · rfl
    · rfl
  · have hall : (".").toList.all isTopicChar = true := by decide
    exact List.all_eq_true.mp hall c hdot
  · obtain ⟨hlow, hhigh⟩ := Sdk.toNat_of_mem_toString hversion
    rw [Sdk.isTopicChar_eq_true]
    omega

/-! ### The carrier of an envelope -/

section

variable {envelope : EventEnvelope} {payload : Bytes}

/-- The conversion takes the event of a valid envelope when the topic fits, and only then. -/
theorem carrier_wire_iff (hvalid : envelope.Valid) (hrange : envelope.InRange) :
    (envelope.carrier payload).toWire.toCore = .ok (envelope.carrier payload) ↔
      envelope.producer.utf8ByteSize + (toString envelope.routeVersion).utf8ByteSize ≤ 110 := by
  have hreturns := @WireOutboxEvent.toCore_returns (envelope.carrier payload)
    hrange.occurredAtUnixMs
  rw [hreturns, and_iff_left rfl, OutboxEvent.forall_mem_texts]
  have hsize := utf8ByteSize_topic envelope
  obtain ⟨hidBlank, hidSize, -⟩ := hvalid.texts envelope.eventId (by simp)
  obtain ⟨hkeyBlank, hkeySize, -⟩ := hvalid.texts envelope.partitionKey (by simp)
  constructor
  · rintro ⟨⟨-, ⟨-, htopic⟩, -⟩, -⟩
    have : envelope.topic.utf8ByteSize ≤ 128 := htopic
    omega
  · intro hshort
    have htopic : envelope.topic.utf8ByteSize ≤ 128 := by omega
    have hkey : envelope.partitionKey.utf8ByteSize ≤ 512 := by omega
    exact ⟨⟨⟨hidBlank, hidSize⟩, ⟨blank_topic envelope, htopic⟩, hkeyBlank, hkey⟩,
      all_isTopicChar_topic hvalid⟩

/-- The conversion never changes what it takes. -/
theorem carrier_wire_ok (hrange : envelope.InRange) {core : OutboxEvent}
    (h : (envelope.carrier payload).toWire.toCore = .ok core) :
    (envelope.carrier payload).toWire.toCore = .ok (envelope.carrier payload) := by
  have hreturns := @WireOutboxEvent.toCore_returns (envelope.carrier payload)
    hrange.occurredAtUnixMs
  exact (hreturns _).mpr ⟨((hreturns core).mp h).1, rfl⟩

theorem WellFormedEffects.cons_carrier {decode : Bytes → Option EventEnvelope}
    {effects : CommitEffects} (h : WellFormedEffects decode effects) (hvalid : envelope.Valid)
    (hdecode : decode payload = some envelope)
    (hnew : envelope.eventId ∉ effects.outboxEvents.map (·.eventId)) :
    WellFormedEffects decode
      ⟨effects.appends, envelope.carrier payload :: effects.outboxEvents⟩ where
  appends := h.appends
  appendKeys := h.appendKeys
  events := by
    rw [List.forall_mem_cons]
    refine ⟨⟨?_, blank_topic envelope, ?_⟩, h.events⟩
    · exact (hvalid.texts envelope.eventId (by simp)).1
    · exact (hvalid.texts envelope.partitionKey (by simp)).1
  eventIds := List.nodup_cons.mpr ⟨hnew, h.eventIds⟩
  envelopes := by
    rw [List.forall_mem_cons]
    exact ⟨fun _ => ⟨envelope, hdecode, hvalid, rfl, rfl, rfl, rfl⟩, h.envelopes⟩

theorem carrier_sendable_iff {decode : Bytes → Option EventEnvelope} (hvalid : envelope.Valid)
    (hrange : envelope.InRange) (hdecode : decode payload = some envelope) :
    Sendable decode (envelope.carrier payload) ↔
      envelope.producer.utf8ByteSize + (toString envelope.routeVersion).utf8ByteSize ≤ 110 := by
  rw [← @carrier_wire_iff envelope payload hvalid hrange]
  constructor
  · intro h
    exact h.wire
  · intro hwire
    refine ⟨hwire, fun effects hnormal hnew => ?_⟩
    rw [CommitEffects.normalize_isOk] at hnormal ⊢
    exact hnormal.cons_carrier hvalid hdecode hnew

end

/-! ### Events of the SDK -/

/-- A sent event on a reserved topic carries an envelope. -/
theorem Sendable.carriesEnvelope {decode : Bytes → Option EventEnvelope} {event : OutboxEvent}
    (h : Sendable decode event) (hrelay : isRelayTopic event.topic = true) :
    CarriesEnvelope decode event := by
  -- the event alone is refused when it carries none
  have hempty : WellFormedEffects decode {} := by
    refine ⟨?_, List.nodup_nil, ?_, List.nodup_nil, ?_⟩ <;> simp
  have hnormal := h.effects {} (CommitEffects.normalize_isOk.mpr hempty) List.not_mem_nil
  rw [CommitEffects.normalize_isOk] at hnormal
  exact hnormal.envelopes event (List.mem_cons_self ..) hrelay

theorem OutboxEvent.toSdk_injective : Function.Injective OutboxEvent.toSdk := by
  rintro ⟨id, topic, key, payload, time⟩ ⟨id', topic', key', payload', time'⟩ h
  simp only [OutboxEvent.toSdk, Sdk.DbProxyOutboxEvent.mk.injEq, codeUnits_inj,
    Int.natCast_inj] at h
  obtain ⟨rfl, rfl, rfl, rfl, rfl⟩ := h
  rfl

namespace Sdk

theorem isRelayTopic_of_builtEvent {input : DbProxyEventEnvelope} {sent : OutboxEvent}
    (h : builtEvent input = sent.toSdk) : isRelayTopic sent.topic = true := by
  have htopic := congrArg DbProxyOutboxEvent.topic h
  simp only [builtEvent, List.append_assoc] at htopic
  rw [isRelayTopic, List.isPrefixOf_iff_prefix]
  exact prefix_of_flatMap_charUnits htopic.symm

/-- The server decodes the payload of well-formed inputs only. -/
theorem wellFormed_of_sendable {json : EnvelopeJson} (hjson : json.Faithful)
    {input : DbProxyEventEnvelope} (hrange : input.InRange) {sent : OutboxEvent}
    (h : builtEvent input = sent.toSdk) (hsend : Sendable json.decode sent) :
    input.WellFormed := by
  -- the strings of an envelope are well formed
  obtain ⟨envelope, hdecode, -⟩ := hsend.carriesEnvelope (isRelayTopic_of_builtEvent h)
  have hpayload : spellMembers input.members = sent.payload :=
    congrArg DbProxyOutboxEvent.payload h
  rw [← hpayload, hjson.decode_spellMembers hrange.members,
    EnvelopeMembers.envelope_eq_some] at hdecode
  have hwf := wellFormed_toSdk envelope
  rw [DbProxyEventEnvelope.WellFormed, members_toSdk, ← hdecode] at hwf
  exact hwf

theorem builtEvent_sendable_iff {json : EnvelopeJson} (hjson : json.Faithful)
    {input : DbProxyEventEnvelope} {event : DbProxyOutboxEvent}
    (h : createOutboxEvent input = .ok event) :
    (∃ sent : OutboxEvent, event = sent.toSdk ∧ Sendable json.decode sent) ↔
      input.WellFormed ∧
        utf8ByteLength input.producer + utf8ByteLength (decimal input.routeVersion) ≤ 110 := by
  obtain ⟨hsdkRange, rfl⟩ := createOutboxEvent_ok h
  have hiff : input.WellFormed →
      ((∃ sent : OutboxEvent, builtEvent input = sent.toSdk ∧ Sendable json.decode sent) ↔
        utf8ByteLength input.producer + utf8ByteLength (decimal input.routeVersion) ≤ 110) := by
    intro hwf
    obtain ⟨envelope, rfl⟩ := exists_envelope hwf hsdkRange
    have hrange := inRange_toSdk.mp hsdkRange
    obtain ⟨hbuilds, -⟩ := (createOutboxEvent_returns hrange _).mp h
    have hdecode : json.decode (spellMembers envelope.members) = some envelope :=
      (hjson.decode_spellMembers hrange).trans (EnvelopeMembers.envelope_eq_some.mpr rfl)
    have hproducer : utf8ByteLength envelope.toSdk.producer = envelope.producer.utf8ByteSize :=
      utf8ByteLength_codeUnits _
    have hversion : utf8ByteLength (decimal envelope.toSdk.routeVersion) =
        (toString envelope.routeVersion).utf8ByteSize := utf8ByteLength_codeUnits _
    rw [hproducer, hversion, ← carrier_sendable_iff hbuilds.valid hrange hdecode,
      builtEvent_toSdk]
    constructor
    · rintro ⟨sent, hsame, hsend⟩
      rwa [OutboxEvent.toSdk_injective hsame]
    · intro hsend
      exact ⟨_, rfl, hsend⟩
  constructor
  · rintro ⟨sent, hsent, hsend⟩
    have hwf := wellFormed_of_sendable hjson hsdkRange hsent hsend
    exact ⟨hwf, (hiff hwf).mp ⟨sent, hsent, hsend⟩⟩
  · rintro ⟨hwf, hshort⟩
    exact (hiff hwf).mpr hshort

end Sdk

/-! ### Both languages -/

/-- **A built event can be sent exactly when its topic fits**: the prefix and the dot leave 110 of
the 128 bytes of a topic to the producer and the version.  A builder in JavaScript also accepts
texts with a surrogate on its own, which no message carries. -/
theorem builtEvents_sendable_iff (json : EnvelopeJson) (hjson : json.Faithful) :
    (∀ (envelope : EventEnvelope) event, envelope.InRange →
      envelope.intoOutbox json = .ok event →
      (Sendable json.decode event ↔
        envelope.producer.utf8ByteSize + (toString envelope.routeVersion).utf8ByteSize ≤ 110)) ∧
    ∀ input event, Sdk.createOutboxEvent input = .ok event →
      ((∃ sent : OutboxEvent, event = sent.toSdk ∧ Sendable json.decode sent) ↔
        input.WellFormed ∧ Sdk.utf8ByteLength input.producer +
          Sdk.utf8ByteLength (Sdk.decimal input.routeVersion) ≤ 110) := by
  refine ⟨fun envelope event hrange h => ?_, fun input event h => ?_⟩
  · obtain ⟨payload, hencode, hdecode⟩ := hjson.decode_encode envelope hrange
    obtain ⟨hvalid, rfl⟩ := (EventEnvelope.intoOutbox_returns hencode event).mp h
    exact carrier_sendable_iff hvalid hrange hdecode
  · exact Sdk.builtEvent_sendable_iff hjson h

/-- A producer that the builders accept and a topic cannot hold. -/
def longEnvelope : EventEnvelope :=
  { sampleEnvelope "doc \"1\"" with producer := String.ofList (List.replicate 110 'a') }

theorem longEnvelope_inRange : longEnvelope.InRange := ⟨by decide, by decide, by decide⟩

theorem eq_of_mem_longEnvelope_producer {c : Char} (h : c ∈ longEnvelope.producer.toList) :
    c = 'a' := by
  rw [longEnvelope, String.toList_ofList] at h
  exact List.eq_of_mem_replicate h

theorem longEnvelope_producer_size : longEnvelope.producer.utf8ByteSize = 110 := by
  rw [longEnvelope, utf8ByteSize_ofList, List.map_replicate, List.sum_replicate]
  rfl

theorem longEnvelope_builds : Sdk.Builds longEnvelope := by
  have hproducer : Sdk.EnvelopeText longEnvelope.producer := by
    refine ⟨⟨?_, ?_⟩, fun c hc => ?_⟩
    · rw [← Bool.not_eq_true, Sdk.jsBlank, List.all_eq_true]
      intro h
      have hmem : 'a' ∈ longEnvelope.producer.toList := by
        rw [longEnvelope, String.toList_ofList]
        exact List.mem_replicate.mpr ⟨by decide, rfl⟩
      cases h 'a' hmem
    · show longEnvelope.producer.utf8ByteSize ≤ 256
      rw [longEnvelope_producer_size]
      decide
    · rw [eq_of_mem_longEnvelope_producer hc]
      rfl
  have hsample : Sdk.Builds (sampleEnvelope "doc \"1\"") := sampleEnvelope_builds (by decide)
  refine ⟨fun text hmem => ?_, fun c hc => ?_, by decide, by decide⟩
  · rcases List.mem_cons.mp hmem with rfl | hmem
    · exact hsample.texts _ (List.mem_cons_self ..)
    · rcases List.mem_cons.mp hmem with rfl | hmem
      · exact hproducer
      · exact hsample.texts text (List.mem_cons_of_mem _ (List.mem_cons_of_mem _ hmem))
  · rw [eq_of_mem_longEnvelope_producer hc]
    exact Or.inl rfl

theorem longEnvelope_version : (toString longEnvelope.routeVersion).utf8ByteSize = 1 := by decide

theorem longEnvelope_refused {payload : Bytes} (core : OutboxEvent) :
    (longEnvelope.carrier payload).toWire.toCore ≠ .ok core := by
  intro h
  have hfits := (carrier_wire_iff longEnvelope_builds.valid longEnvelope_inRange).mp
    (carrier_wire_ok longEnvelope_inRange h)
  rw [longEnvelope_producer_size, longEnvelope_version] at hfits
  omega

/-- Both builders accept a producer of 110 bytes, and the conversion refuses the event. -/
theorem builtEvents_not_sendable :
    (∃ event, longEnvelope.intoOutbox asciiEnvelopeJson = .ok event ∧
      ∀ core, event.toWire.toCore ≠ .ok core) ∧
    ∃ event, Sdk.createOutboxEvent longEnvelope.toSdk = .ok event ∧
      ∀ (sent : OutboxEvent) core, event = sent.toSdk → sent.toWire.toCore ≠ .ok core := by
  constructor
  · exact ⟨_, (EventEnvelope.intoOutbox_returns rfl _).mpr ⟨longEnvelope_builds.valid, rfl⟩,
      longEnvelope_refused⟩
  · refine ⟨_, (Sdk.createOutboxEvent_returns longEnvelope_inRange _).mpr
      ⟨longEnvelope_builds, rfl⟩, fun sent core hsame => ?_⟩
    rw [← OutboxEvent.toSdk_injective hsame]
    exact longEnvelope_refused core

theorem builtEvents_sendable_sample :
    (∃ event, (sampleEnvelope "doc \"1\"").intoOutbox asciiEnvelopeJson = .ok event ∧
      Sendable asciiEnvelopeJson.decode event) ∧
    (∃ event, longEnvelope.intoOutbox asciiEnvelopeJson = .ok event ∧
      ¬ Sendable asciiEnvelopeJson.decode event) ∧
    ∃ event, Sdk.createOutboxEvent (sampleEnvelope "é😀\"").toSdk = .ok event ∧
      ∃ sent : OutboxEvent, event = sent.toSdk ∧ Sendable asciiEnvelopeJson.decode sent := by
  obtain ⟨hrust, hsdk⟩ := builtEvents_sendable_iff asciiEnvelopeJson asciiEnvelopeJson_faithful
  have hshort : (sampleEnvelope "doc \"1\"").intoOutbox asciiEnvelopeJson = .ok _ :=
    (EventEnvelope.intoOutbox_returns rfl _).mpr
      ⟨(sampleEnvelope_builds (by decide)).valid, rfl⟩
  have hlong : longEnvelope.intoOutbox asciiEnvelopeJson = .ok _ :=
    (EventEnvelope.intoOutbox_returns rfl _).mpr ⟨longEnvelope_builds.valid, rfl⟩
  have hbuilt := (Sdk.createOutboxEvent_returns (sampleEnvelope_inRange "é😀\"") _).mpr
    ⟨sampleEnvelope_builds (by decide), rfl⟩
  refine ⟨⟨_, hshort, (hrust _ _ (sampleEnvelope_inRange _) hshort).mpr (by decide)⟩,
    ⟨_, hlong, fun hsend => ?_⟩,
    ⟨_, hbuilt, (hsdk _ _ hbuilt).mpr ⟨Sdk.wellFormed_toSdk _, by decide⟩⟩⟩
  have hfits := (hrust _ _ longEnvelope_inRange hlong).mp hsend
  rw [longEnvelope_producer_size, longEnvelope_version] at hfits
  omega

end DbProxy
