/-
Transaction effects and their canonical form (`commit.rs`, `relay.rs`).

`CommitEffects.normalize` sorts the appends by address and the outbox events by
id, checks every field and rejects duplicates.  Its JSON decoder for relay
envelopes (`serde_json::from_slice`) is the parameter `decode`.  The facts the
stores rely on:

* `normalize_ok` — an accepted value is the sorted input, with distinct append
  addresses and distinct event ids;
* `normalize_perm` — a permutation of accepted effects is accepted with the
  same result.
-/
import DbProxy.Checks
import DbProxy.CoreTypes
import DbProxy.SortOn
import DbProxy.Text

namespace DbProxy

open Text

/-! ### Relay envelopes -/

def relayTopicPrefix : String := "dbproxy.relay.v1."

structure EventEnvelope where
  eventId : String
  producer : String
  eventType : String
  aggregateType : String
  aggregateId : String
  partitionKey : String
  schemaVersion : ℕ
  contentType : String
  payload : Bytes
  occurredAtUnixMs : ℕ
  routeVersion : ℕ
deriving DecidableEq, Repr

/-- `starts_with(RELAY_TOPIC_PREFIX)`. -/
def isRelayTopic (topic : String) : Bool :=
  relayTopicPrefix.toList.isPrefixOf topic.toList

namespace EventEnvelope

/-- The routing key built from producer and route version. -/
def topic (self : EventEnvelope) : String :=
  relayTopicPrefix ++ self.producer ++ "." ++ toString self.routeVersion

private def checkText (text : String) : Except StoreError Unit :=
  if blank text || text.utf8ByteSize > 256 || text.toList.any isControl then
    .error (.invalidOutboxEvent "invalid envelope text")
  else .ok ()

def validate (self : EventEnvelope) : Except StoreError Unit := do
  [self.eventId, self.producer, self.eventType, self.aggregateType, self.aggregateId,
    self.partitionKey, self.contentType].forM checkText
  if !(self.producer.toList.all fun c => isAsciiAlphanumeric c || c == '_' || c == '-') ||
      self.schemaVersion == 0 || self.routeVersion == 0 then
    .error (.invalidOutboxEvent "invalid producer or envelope version")
  else .ok ()

/-- What `validate` asks of an envelope. -/
structure Valid (envelope : EventEnvelope) : Prop where
  texts : ∀ text ∈ [envelope.eventId, envelope.producer, envelope.eventType,
    envelope.aggregateType, envelope.aggregateId, envelope.partitionKey, envelope.contentType],
      blank text = false ∧ text.utf8ByteSize ≤ 256 ∧ ∀ c ∈ text.toList, isControl c = false
  producer : ∀ c ∈ envelope.producer.toList, isAsciiAlphanumeric c = true ∨ c = '_' ∨ c = '-'
  schemaVersion : envelope.schemaVersion ≠ 0
  routeVersion : envelope.routeVersion ≠ 0

private theorem checkText_eq_ok {text : String} :
    checkText text = .ok () ↔
      blank text = false ∧ text.utf8ByteSize ≤ 256 ∧ ∀ c ∈ text.toList, isControl c = false := by
  rw [checkText]
  split
  · rename_i h
    simp only [reduceCtorEq, false_iff]
    rintro ⟨hblank, hsize, hcontrol⟩
    simp only [Bool.or_eq_true, decide_eq_true_eq, List.any_eq_true] at h
    rcases h with (h | h) | ⟨c, hc, h⟩
    · simp [hblank] at h
    · omega
    · simp [hcontrol c hc] at h
  · rename_i h
    simpa [and_assoc] using h

theorem validate_eq_ok {self : EventEnvelope} : self.validate = .ok () ↔ self.Valid := by
  rw [validate, Checks.bind_eq_ok]
  constructor
  · rintro ⟨⟨⟩, htexts, h⟩
    split at h
    · cases h
    · rename_i hrest
      simp only [Bool.or_eq_true, Bool.not_eq_true', beq_iff_eq, not_or, Bool.not_eq_false,
        List.all_eq_true, or_assoc] at hrest
      obtain ⟨hproducer, hschema, hroute⟩ := hrest
      exact ⟨fun text hmem => checkText_eq_ok.mp (Checks.forM_eq_ok.mp htexts text hmem),
        hproducer, hschema, hroute⟩
  · intro h
    refine ⟨⟨⟩, Checks.forM_eq_ok.mpr fun text hmem => checkText_eq_ok.mpr (h.texts text hmem), ?_⟩
    rw [if_neg]
    simp only [Bool.or_eq_true, Bool.not_eq_true', beq_iff_eq, not_or, Bool.not_eq_false,
      List.all_eq_true, or_assoc]
    exact ⟨h.producer, h.schemaVersion, h.routeVersion⟩

/-- Reserved topics must carry a valid envelope that repeats the event's identity. -/
def fromOutbox (decode : Bytes → Option EventEnvelope) (event : OutboxEvent) :
    Except StoreError (Option EventEnvelope) :=
  if !isRelayTopic event.topic then .ok none
  else
    match decode event.payload with
    | none => .error (.invalidOutboxEvent "invalid relay envelope")
    | some envelope => do
      envelope.validate
      if event.topic ≠ envelope.topic || event.eventId ≠ envelope.eventId ||
          event.partitionKey ≠ envelope.partitionKey ||
          event.occurredAtUnixMs ≠ envelope.occurredAtUnixMs then
        .error (.invalidOutboxEvent "envelope identity mismatch")
      else .ok (some envelope)

/-- What `from_outbox` returns, by the topic and the payload of the event. -/
theorem fromOutbox_eq_ok {decode : Bytes → Option EventEnvelope} {event : OutboxEvent}
    {result : Option EventEnvelope} : fromOutbox decode event = .ok result ↔
      (isRelayTopic event.topic = false ∧ result = none) ∨
      ∃ envelope, isRelayTopic event.topic = true ∧ decode event.payload = some envelope ∧
        envelope.Valid ∧ event.topic = envelope.topic ∧ event.eventId = envelope.eventId ∧
        event.partitionKey = envelope.partitionKey ∧
        event.occurredAtUnixMs = envelope.occurredAtUnixMs ∧ result = some envelope := by
  rw [fromOutbox]
  cases hrelay : isRelayTopic event.topic with
  | false =>
    rw [Bool.not_false, if_pos rfl, Except.ok.injEq]
    simp [eq_comm]
  | true =>
    rw [Bool.not_true, if_neg Bool.false_ne_true]
    cases hdecode : decode event.payload with
    | none => simp
    | some envelope =>
      simp only [Option.some_inj, Bool.true_eq_false, false_and, false_or, true_and,
        exists_eq_left']
      rw [Checks.bind_eq_ok]
      constructor
      · rintro ⟨_, hvalid, h⟩
        split at h
        · cases h
        · rename_i hsame
          obtain ⟨htopic, hid, hkey, htime⟩ :
              event.topic = envelope.topic ∧ event.eventId = envelope.eventId ∧
                event.partitionKey = envelope.partitionKey ∧
                event.occurredAtUnixMs = envelope.occurredAtUnixMs := by
            simpa [and_assoc] using hsame
          exact ⟨validate_eq_ok.mp hvalid, htopic, hid, hkey, htime, (Except.ok.inj h).symm⟩
      · rintro ⟨hvalid, htopic, hid, hkey, htime, rfl⟩
        refine ⟨(), validate_eq_ok.mpr hvalid, if_neg ?_⟩
        simp [htopic, hid, hkey, htime]

/-- The reasons for which `from_outbox` refuses an event. -/
def refusals : List String :=
  ["invalid envelope text", "invalid producer or envelope version", "invalid relay envelope",
    "envelope identity mismatch"]

theorem fromOutbox_ends {bad : StoreError → Prop} {decode : Bytes → Option EventEnvelope}
    {event : OutboxEvent} (h : ∀ reason ∈ refusals, bad (.invalidOutboxEvent reason)) :
    Checks.Ends (fun _ => True) bad (fromOutbox decode event) := by
  have hvalidate : ∀ envelope : EventEnvelope,
      Checks.Ends (fun _ => True) bad envelope.validate := by
    intro envelope
    rw [validate]
    refine (Checks.ends_forM (P := fun _ => True) fun text _ => ?_).bind fun _ _ => ?_
    · exact Checks.ends_check (fun _ => h _ (by simp [refusals])) fun _ => trivial
    · exact Checks.ends_check (fun _ => h _ (by simp [refusals])) fun _ => trivial
  rw [fromOutbox]
  split
  · exact trivial
  · cases decode event.payload with
    | none => exact h _ (by simp [refusals])
    | some envelope =>
      exact (hvalidate envelope).bind fun _ _ =>
        Checks.ends_check (fun _ => h _ (by simp [refusals])) fun _ => trivial

end EventEnvelope

/-! ### Effects -/

/-- Effects committed atomically with the record writes of one operation. -/
structure CommitEffects where
  appends : List AppendRecord := []
  outboxEvents : List OutboxEvent := []
deriving DecidableEq, Repr

/-- The `windows(2)` scan over sorted record addresses. -/
def checkDistinctRecords (records : List RecordKey) : Except StoreError Unit :=
  match adjacentDuplicate records with
  | some record => .error (.duplicateTransactionRecord record)
  | none => .ok ()

namespace CommitEffects

def isEmpty (self : CommitEffects) : Bool :=
  self.appends.isEmpty && self.outboxEvents.isEmpty

def checkAppend (append : AppendRecord) : Except StoreError Unit := do
  let _ ← RecordKey.new append.record.ns append.record.key
  if blank append.schema then .error (.invalidKey "append schema is empty")
  else .ok ()

variable (decode : Bytes → Option EventEnvelope)

def checkEvent (event : OutboxEvent) : Except StoreError Unit := do
  let _ ← EventEnvelope.fromOutbox decode event
  if blank event.eventId || blank event.topic || blank event.partitionKey then
    .error (.invalidOutboxEvent "event identity or route is empty")
  else .ok ()

/-- The loop over the events, with the hash set of the ids seen so far. -/
def checkEvents (events : List OutboxEvent) : Except StoreError Unit :=
  Checks.scanDistinct (·.eventId) (checkEvent decode) .duplicateOutboxEvent (fun _ => .ok ()) []
    events

def normalize (self : CommitEffects) : Except StoreError CommitEffects := do
  let appends := sortOn (·.record) self.appends
  appends.forM checkAppend
  checkDistinctRecords (appends.map (·.record))
  let outboxEvents := sortOn (·.eventId) self.outboxEvents
  checkEvents decode outboxEvents
  .ok { appends, outboxEvents }

end CommitEffects

/-! ### What an accepted value looks like -/

theorem checkDistinctRecords_ok {α : Type*} {f : α → RecordKey} {l : List α} :
    checkDistinctRecords ((sortOn f l).map f) = .ok () ↔ (l.map f).Nodup := by
  rw [← adjacentDuplicate_sortOn_eq_none, checkDistinctRecords]
  cases h : adjacentDuplicate ((sortOn f l).map f) <;> simp

namespace CommitEffects

variable {decode : Bytes → Option EventEnvelope}

/-- An accepted value is the sorted input, without duplicates. -/
theorem normalize_ok {effects normal : CommitEffects}
    (h : effects.normalize decode = .ok normal) :
    normal = ⟨sortOn (·.record) effects.appends, sortOn (·.eventId) effects.outboxEvents⟩ ∧
      (effects.appends.map (·.record)).Nodup ∧
      (effects.outboxEvents.map (·.eventId)).Nodup := by
  rw [normalize] at h
  obtain ⟨_, _, h⟩ := Checks.bind_eq_ok.mp h
  obtain ⟨_, hrecords, h⟩ := Checks.bind_eq_ok.mp h
  obtain ⟨_, hevents, h⟩ := Checks.bind_eq_ok.mp h
  refine ⟨(Except.ok.inj h).symm, checkDistinctRecords_ok.mp hrecords, ?_⟩
  exact map_sortOn_nodup.mp (Checks.scanDistinct_eq_ok.mp hevents).2

/-- A permutation of accepted effects is accepted, with the same result. -/
theorem normalize_perm {effects other normal : CommitEffects}
    (h : effects.normalize decode = .ok normal)
    (happends : other.appends.Perm effects.appends)
    (hevents : other.outboxEvents.Perm effects.outboxEvents) :
    other.normalize decode = .ok normal := by
  obtain ⟨-, hnd, hnd'⟩ := normalize_ok h
  rw [normalize, ← sortOn_eq_of_perm happends.symm hnd, ← sortOn_eq_of_perm hevents.symm hnd']
  exact h

end CommitEffects

end DbProxy
