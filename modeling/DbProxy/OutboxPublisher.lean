/-
Publication of outbox events (`outbox_publisher.rs`, `relay.rs`) and what a worker makes
of its result (`outbox_worker.rs`, `RetryWorkerPolicy`).

Broker, connection and deadlines are the environment: a `BrokerReply` is what the
pipeline of `XADD` commands and the `WAITAOF` after it came back with, and a publication
without one has timed out.

* `xaddCommand`, `publishManyTo`, `publish`, `publishBatch` — the Redis publisher;
* `pipeline` — the commands that a publication hands to the broker;
* `publications` — the results for the leases of a worker;
* `publishBatch_invalid`, `publishBatch_sent`, `publishBatch_unsent` — the result of each
  message of a batch;
* `publications_ok` — a success stands for a confirmed command.
-/
import DbProxy.OutboxSystem
import DbProxy.Scatter

namespace DbProxy

open Scatter

/-! ### The retry policy -/

structure RetryWorkerPolicy where
  leaseMs : ℕ
  baseRetryDelayMs : ℕ
  maxRetryDelayMs : ℕ
  maxAttempts : ℕ
deriving DecidableEq, Repr

namespace RetryWorkerPolicy

def validate (self : RetryWorkerPolicy) : Except BackendError RetryWorkerPolicy :=
  if self.leaseMs = 0 ∨ self.baseRetryDelayMs = 0 ∨
      self.maxRetryDelayMs < self.baseRetryDelayMs ∨ self.maxAttempts = 0 then
    .error (.invalidConfig "durable retry worker policy is invalid")
  else .ok self

/-- Exponential, with a saturating multiplication. -/
def retryDelayMs (self : RetryWorkerPolicy) (previousAttempts : ℕ) : ℕ :=
  min (min (self.baseRetryDelayMs * 2 ^ min previousAttempts 20) (2 ^ 64 - 1))
    self.maxRetryDelayMs

/-- Half of the delay is jitter; `entropy` is the start of the SHA-256 digest of a text. -/
def outboxRetryDelayMs (entropy : String → ℕ) (self : RetryWorkerPolicy) (eventId : String)
    (attempt : ℕ) : ℕ :=
  let cap := self.retryDelayMs attempt
  let floor := (cap + 1) / 2
  floor + entropy (eventId ++ "/" ++ toString attempt) % (cap - floor + 1)

theorem outboxRetryDelayMs_le (entropy : String → ℕ) (self : RetryWorkerPolicy)
    (eventId : String) (attempt : ℕ) :
    self.outboxRetryDelayMs entropy eventId attempt ≤ self.retryDelayMs attempt := by
  have hlt := Nat.mod_lt (entropy (eventId ++ "/" ++ toString attempt))
    (show self.retryDelayMs attempt - (self.retryDelayMs attempt + 1) / 2 + 1 > 0 by omega)
  show (self.retryDelayMs attempt + 1) / 2 + _ ≤ self.retryDelayMs attempt
  omega

end RetryWorkerPolicy

/-! ### Messages -/

structure PublishMessage where
  event : OutboxEvent
  destination : String
  operationId : String
  tradeId : String
deriving DecidableEq, Repr

structure PublishReceipt where
  messageId : String
deriving DecidableEq, Repr

inductive PublishError
  | transient (reason : String)
  | permanent (reason : String)
deriving DecidableEq, Repr

/-- The text of a `PublishError`. -/
def PublishError.text : PublishError → String
  | .transient reason => "transient publisher failure: " ++ reason
  | .permanent reason => "invalid publication: " ++ reason

/-- The fields of a stream entry. -/
structure StreamEntry where
  eventId : String
  operationId : String
  tradeId : String
  partitionKey : String
  occurredAtUnixMs : ℕ
  payload : Bytes
  event : Option Bytes
deriving DecidableEq, Repr

def streamEntry (event : OutboxEvent) (operationId tradeId : String) (relay : Bool) :
    StreamEntry :=
  ⟨event.eventId, operationId, tradeId, event.partitionKey, event.occurredAtUnixMs,
    event.payload, if relay then some event.payload else none⟩

def OutboxLease.message (lease : OutboxLease) : PublishMessage :=
  ⟨lease.event, lease.destination, lease.operationId, lease.tradeId⟩

def PublishMessage.entry (message : PublishMessage) : StreamEntry :=
  streamEntry message.event message.operationId message.tradeId
    (isRelayTopic message.event.topic)

/-- The entry that the row is published as. -/
def OutboxRow.entry (row : OutboxRow) : StreamEntry :=
  streamEntry row.event row.operationId (row.tradeId.getD "") (isRelayTopic row.topic)

section Publisher

variable (decode : Bytes → Option EventEnvelope)

/-! ### The Redis publisher -/

/-- The stream and the entry of an `XADD`. -/
def xaddCommand (message : PublishMessage) : Except StorageError (String × StreamEntry) :=
  match EventEnvelope.fromOutbox decode message.event with
  | .error e => .error (.core e)
  | .ok envelope => .ok (message.destination,
      streamEntry message.event message.operationId message.tradeId envelope.isSome)

/-- What came back: the ids of the entries, and the confirmation of the append-only file. -/
structure BrokerReply where
  ids : Except StorageError (List String)
  aof : Except StorageError Unit

def publishManyTo (messages : List PublishMessage) (reply : BrokerReply) :
    Except StorageError (List String) := do
  let _ ← messages.mapM (xaddCommand decode)
  let ids ← reply.ids
  if ids.length ≠ messages.length then
    throw (.queueProtocol "outbox receipt count differs from batch")
  else
    reply.aof
    return ids

def publish (message : PublishMessage) (reply : BrokerReply) :
    Except PublishError PublishReceipt :=
  match EventEnvelope.fromOutbox decode message.event with
  | .error _ => .error (.permanent "invalid envelope")
  | .ok _ =>
    match publishManyTo decode [message] reply with
    | .ok (messageId :: _) => .ok ⟨messageId⟩
    | _ => .error (.transient "Redis send or AOF confirmation failed")

def isValid (message : PublishMessage) : Bool :=
  match EventEnvelope.fromOutbox decode message.event with
  | .error _ => false
  | .ok _ => true

def validMessages (messages : List PublishMessage) : List PublishMessage :=
  messages.filter (isValid decode)

def validIndices (messages : List PublishMessage) : List ℕ :=
  (messages.zipIdx.filter fun x => isValid decode x.1).map (·.2)

/-- The results before anything is confirmed. -/
def firstResults (messages : List PublishMessage) : List (Except PublishError PublishReceipt) :=
  messages.map fun message => .error <|
    if isValid decode message then .transient "Redis send or AOF confirmation failed"
    else .permanent "invalid envelope"

def publishBatch (messages : List PublishMessage) (reply : BrokerReply) :
    List (Except PublishError PublishReceipt) :=
  if messages = [] then []
  else if messages.length > 64 then
    messages.map fun _ => .error (.transient "publication batch exceeds 64 items")
  else if validMessages decode messages = [] then firstResults decode messages
  else
    match publishManyTo decode (validMessages decode messages) reply with
    | .ok ids => ((validIndices decode messages).zip ids).foldl
        (fun results x => results.set x.1 (.ok ⟨x.2⟩)) (firstResults decode messages)
    | .error _ => firstResults decode messages

/-- The commands of the pipeline of a publication. -/
def pipeline (messages : List PublishMessage) : List (String × StreamEntry) :=
  if messages.length > 64 then []
  else
    match (validMessages decode messages).mapM (xaddCommand decode) with
    | .ok commands => commands
    | .error _ => []

/-! ### The worker's view -/

/-- The result in `process_outbox_once`.  A publication without a reply has timed out. -/
def publicationOnce (lease : OutboxLease) : Option BrokerReply →
    Except PublishError PublishReceipt
  | some reply => publish decode lease.message reply
  | none => .error (.transient "publication deadline exceeded; result may be unknown")

/-- The results in `process_outbox_batch`, one for each lease. -/
def publicationsBatch (leases : List OutboxLease) (reply : Option BrokerReply) :
    List (Except PublishError PublishReceipt) :=
  let incomplete := leases.map fun _ =>
    .error (.transient "batch publication incomplete; result may be unknown")
  match reply with
  | some reply =>
    let results := publishBatch decode (leases.map OutboxLease.message) reply
    if results.length = leases.length then results else incomplete
  | none => incomplete

def publications (batch : Bool) (leases : List OutboxLease) (reply : Option BrokerReply) :
    List (Except PublishError PublishReceipt) :=
  if batch then publicationsBatch decode leases reply
  else leases.head?.toList.map (publicationOnce decode · reply)

/-- The statement with which `finish_outbox_publication` settles a lease. -/
def finishOutboxPublication (entropy : String → ℕ) (policy : RetryWorkerPolicy)
    (lease : OutboxLease) (checked clock : ℕ) : Except PublishError PublishReceipt → OutboxAction
  | .ok _ => .acknowledge lease checked clock
  | .error error => .fail lease error.text
      (policy.outboxRetryDelayMs entropy lease.event.eventId lease.attemptCount)
      (match error with
        | .permanent _ => 1
        | .transient _ => policy.maxAttempts) checked clock

end Publisher

/-! ### What a success stands for -/

section Results

variable {decode : Bytes → Option EventEnvelope}

def PublishMessage.command (message : PublishMessage) : String × StreamEntry :=
  (message.destination, message.entry)

/-- A valid message is a relay event or has no envelope. -/
theorem xaddCommand_ok {message : PublishMessage} (h : isValid decode message = true) :
    xaddCommand decode message = .ok message.command := by
  rw [isValid] at h
  rw [xaddCommand]
  split at h
  · cases h
  rename_i envelope henvelope
  cases envelope with
  | none =>
    have htopic := fromOutbox_none henvelope
    rw [PublishMessage.command, PublishMessage.entry, htopic]
    rfl
  | some envelope =>
    have htopic := fromOutbox_some henvelope
    rw [PublishMessage.command, PublishMessage.entry, htopic]
    rfl

theorem mapM_xaddCommand {messages : List PublishMessage}
    (h : ∀ message ∈ messages, isValid decode message = true) :
    messages.mapM (xaddCommand decode) = .ok (messages.map PublishMessage.command) := by
  rw [Checks.mapM_eq_ok, List.forall₂_map_right_iff, List.forall₂_same]
  exact fun message hmem => xaddCommand_ok (h message hmem)

theorem pipeline_eq {messages : List PublishMessage} (h : messages.length ≤ 64) :
    pipeline decode messages = (validMessages decode messages).map PublishMessage.command := by
  rw [pipeline, if_neg (by omega), mapM_xaddCommand]
  exact fun message hmem => (List.mem_filter.mp hmem).2

theorem mem_pipeline {messages : List PublishMessage} {command : String × StreamEntry}
    (h : command ∈ pipeline decode messages) :
    ∃ message ∈ messages, message.command = command := by
  by_cases hlen : messages.length ≤ 64
  · rw [pipeline_eq hlen] at h
    obtain ⟨message, hmem, rfl⟩ := List.mem_map.mp h
    exact ⟨message, List.mem_of_mem_filter hmem, rfl⟩
  · rw [pipeline, if_pos (by omega)] at h
    cases h

/-- All commands were answered and the append-only file was confirmed. -/
theorem publishManyTo_eq_ok {messages : List PublishMessage} {reply : BrokerReply}
    {ids : List String} (h : ∀ message ∈ messages, isValid decode message = true) :
    publishManyTo decode messages reply = .ok ids ↔
      reply.ids = .ok ids ∧ ids.length = messages.length ∧ reply.aof = .ok () := by
  rw [publishManyTo, mapM_xaddCommand h]
  constructor
  · intro h
    obtain ⟨_, -, h⟩ := Checks.bind_eq_ok.mp h
    obtain ⟨ids', hids, h⟩ := Checks.bind_eq_ok.mp h
    split at h
    · cases h
    rename_i hlen
    obtain ⟨_, haof, h⟩ := Checks.bind_eq_ok.mp h
    obtain rfl := Except.ok.inj h
    exact ⟨hids, not_not.mp hlen, haof⟩
  · rintro ⟨hids, hlen, haof⟩
    rw [hids, haof]
    exact if_neg (not_not.mpr hlen)

theorem mem_validMessages {messages : List PublishMessage} :
    ∀ message ∈ validMessages decode messages, isValid decode message = true :=
  fun _ hmem => (List.mem_filter.mp hmem).2

theorem getElem?_firstResults {messages : List PublishMessage} {message : PublishMessage} {i : ℕ}
    (h : messages[i]? = some message) : (firstResults decode messages)[i]? = some (.error <|
      if isValid decode message then .transient "Redis send or AOF confirmation failed"
      else .permanent "invalid envelope") := by
  rw [firstResults, List.getElem?_map, h]
  rfl

theorem length_firstResults (messages : List PublishMessage) :
    (firstResults decode messages).length = messages.length := List.length_map _

/-- The receipts are put back at the places of the valid messages. -/
theorem publishBatch_confirmed {messages : List PublishMessage} {reply : BrokerReply}
    {ids : List String} (hlen : messages.length ≤ 64) (hne : validMessages decode messages ≠ [])
    (hids : publishManyTo decode (validMessages decode messages) reply = .ok ids) :
    publishBatch decode messages reply = scatter (fun id => Except.ok (PublishReceipt.mk id))
      (positions (isValid decode) messages) ids (firstResults decode messages) := by
  have hmessages : messages ≠ [] := by
    rintro rfl
    exact hne rfl
  rw [publishBatch, if_neg hmessages, if_neg (by omega), if_neg hne, hids]
  rfl

theorem publishBatch_unconfirmed {messages : List PublishMessage} {reply : BrokerReply}
    (hlen : messages.length ≤ 64) (h : validMessages decode messages = [] ∨
      ∃ e, publishManyTo decode (validMessages decode messages) reply = .error e) :
    publishBatch decode messages reply = firstResults decode messages := by
  rw [publishBatch]
  split
  · rename_i hnil
    rw [hnil]
    rfl
  rw [if_neg (by omega)]
  split
  · rfl
  rename_i hne
  rcases h with h | ⟨e, he⟩
  · exact absurd h hne
  · rw [he]

theorem length_publishBatch (messages : List PublishMessage) (reply : BrokerReply) :
    (publishBatch decode messages reply).length = messages.length := by
  by_cases hlen : messages.length ≤ 64
  · by_cases hne : validMessages decode messages = []
    · rw [publishBatch_unconfirmed hlen (Or.inl hne), length_firstResults]
    · cases hids : publishManyTo decode (validMessages decode messages) reply with
      | error e => rw [publishBatch_unconfirmed hlen (Or.inr ⟨e, hids⟩), length_firstResults]
      | ok ids =>
        rw [publishBatch_confirmed hlen hne hids, length_scatter, length_firstResults]
  · rw [publishBatch]
    split
    · rename_i hnil
      rw [hnil]
      rfl
    · rw [if_pos (by omega), List.length_map]

/-- The place of a message among the commands of its batch. -/
def commandRank (decode : Bytes → Option EventEnvelope) (messages : List PublishMessage)
    (i : ℕ) : ℕ :=
  (messages.take i).countP (isValid decode)

theorem pipeline_commandRank {messages : List PublishMessage} {message : PublishMessage} {i : ℕ}
    (hlen : messages.length ≤ 64) (h : messages[i]? = some message)
    (hvalid : isValid decode message = true) :
    (pipeline decode messages)[commandRank decode messages i]? = some message.command := by
  rw [pipeline_eq hlen, List.getElem?_map, validMessages, commandRank,
    getElem?_filter_countP h hvalid]
  rfl

theorem publishBatch_long {messages : List PublishMessage} {reply : BrokerReply} {i : ℕ}
    {message : PublishMessage} (hlen : 64 < messages.length) (h : messages[i]? = some message) :
    (publishBatch decode messages reply)[i]? =
      some (.error (.transient "publication batch exceeds 64 items")) := by
  have hne : messages ≠ [] := by
    rintro rfl
    cases h
  rw [publishBatch, if_neg hne, if_pos hlen, List.getElem?_map, h]
  rfl

/-- An invalid message fails alone. -/
theorem publishBatch_invalid {messages : List PublishMessage} {reply : BrokerReply} {i : ℕ}
    {message : PublishMessage} (hlen : messages.length ≤ 64) (h : messages[i]? = some message)
    (hvalid : isValid decode message = false) : (publishBatch decode messages reply)[i]? =
      some (.error (.permanent "invalid envelope")) := by
  have hfirst := @getElem?_firstResults decode messages message i h
  rw [hvalid] at hfirst
  by_cases hne : validMessages decode messages = []
  · rw [publishBatch_unconfirmed hlen (Or.inl hne)]
    exact hfirst
  cases hids : publishManyTo decode (validMessages decode messages) reply with
  | error e =>
    rw [publishBatch_unconfirmed hlen (Or.inr ⟨e, hids⟩)]
    exact hfirst
  | ok ids =>
    obtain ⟨-, hcount, -⟩ := (publishManyTo_eq_ok mem_validMessages).mp hids
    rw [validMessages, ← List.countP_eq_length_filter] at hcount
    rw [publishBatch_confirmed hlen hne hids,
      (scatter_positions hcount (length_firstResults messages) h).2 hvalid]
    exact hfirst

/-- A valid message has the id that was answered to its own command. -/
theorem publishBatch_sent {messages : List PublishMessage} {reply : BrokerReply} {i : ℕ}
    {message : PublishMessage} {ids : List String} (hlen : messages.length ≤ 64)
    (h : messages[i]? = some message) (hvalid : isValid decode message = true)
    (hids : publishManyTo decode (validMessages decode messages) reply = .ok ids) :
    ∃ messageId, ids[commandRank decode messages i]? = some messageId ∧
      (publishBatch decode messages reply)[i]? = some (.ok ⟨messageId⟩) := by
  have hmem : message ∈ validMessages decode messages :=
    List.mem_filter.mpr ⟨List.mem_of_getElem? h, hvalid⟩
  obtain ⟨-, hcount, -⟩ := (publishManyTo_eq_ok mem_validMessages).mp hids
  rw [validMessages, ← List.countP_eq_length_filter] at hcount
  rw [publishBatch_confirmed hlen (List.ne_nil_of_mem hmem) hids]
  exact (scatter_positions hcount (length_firstResults messages) h).1 hvalid

theorem publishBatch_unsent {messages : List PublishMessage} {reply : BrokerReply} {i : ℕ}
    {message : PublishMessage} {e : StorageError} (hlen : messages.length ≤ 64)
    (h : messages[i]? = some message) (hvalid : isValid decode message = true)
    (herror : publishManyTo decode (validMessages decode messages) reply = .error e) :
    (publishBatch decode messages reply)[i]? =
      some (.error (.transient "Redis send or AOF confirmation failed")) := by
  rw [publishBatch_unconfirmed hlen (Or.inr ⟨e, herror⟩), getElem?_firstResults h, hvalid]
  rfl

theorem publishBatch_ok {messages : List PublishMessage} {reply : BrokerReply} {i : ℕ}
    {receipt : PublishReceipt} (h : (publishBatch decode messages reply)[i]? = some (.ok receipt)) :
    ∃ ids message, reply.ids = .ok ids ∧ ids.length = (pipeline decode messages).length ∧
      messages[i]? = some message ∧ message.command ∈ pipeline decode messages := by
  obtain ⟨hi, -⟩ := List.getElem?_eq_some_iff.mp h
  rw [length_publishBatch] at hi
  have hmessage : messages[i]? = some messages[i] := List.getElem?_eq_getElem hi
  by_cases hlen : 64 < messages.length
  · rw [publishBatch_long hlen hmessage] at h
    cases h
  rw [not_lt] at hlen
  cases hvalid : isValid decode messages[i] with
  | false =>
    rw [publishBatch_invalid hlen hmessage hvalid] at h
    cases h
  | true =>
    cases hids : publishManyTo decode (validMessages decode messages) reply with
    | error e =>
      rw [publishBatch_unsent hlen hmessage hvalid hids] at h
      cases h
    | ok ids =>
      obtain ⟨hreply, hcount, -⟩ := (publishManyTo_eq_ok mem_validMessages).mp hids
      refine ⟨ids, messages[i], hreply, ?_, hmessage, ?_⟩
      · rw [pipeline_eq hlen, List.length_map]
        exact hcount
      · exact List.mem_of_getElem? (pipeline_commandRank hlen hmessage hvalid)

theorem publish_ok {message : PublishMessage} {reply : BrokerReply} {receipt : PublishReceipt}
    (h : publish decode message reply = .ok receipt) :
    ∃ ids, reply.ids = .ok ids ∧ ids.length = (pipeline decode [message]).length ∧
      message.command ∈ pipeline decode [message] := by
  rw [publish] at h
  split at h
  · cases h
  rename_i envelope henvelope
  split at h
  · rename_i messageId ids hids
    have hall : ∀ message' ∈ [message], isValid decode message' = true := by
      intro message' hmem
      rw [List.mem_singleton.mp hmem, isValid, henvelope]
    obtain ⟨hreply, hcount, -⟩ := (publishManyTo_eq_ok hall).mp hids
    have hvalid : validMessages decode [message] = [message] := List.filter_eq_self.mpr hall
    have hpipeline : pipeline decode [message] = [message.command] := by
      rw [pipeline_eq (by simp), hvalid]
      rfl
    refine ⟨_, hreply, ?_, ?_⟩
    · rw [hpipeline]
      exact hcount
    · rw [hpipeline]
      exact List.mem_singleton.mpr rfl
  · cases h

theorem publicationsBatch_ok {leases : List OutboxLease} {reply : Option BrokerReply}
    {lease : OutboxLease} {receipt : PublishReceipt}
    (h : (lease, .ok receipt) ∈ leases.zip (publicationsBatch decode leases reply)) :
    ∃ reply' ids, reply = some reply' ∧ reply'.ids = .ok ids ∧
      ids.length = (pipeline decode (leases.map OutboxLease.message)).length ∧
      lease.message.command ∈ pipeline decode (leases.map OutboxLease.message) := by
  obtain ⟨i, hi⟩ := List.mem_iff_getElem?.mp h
  obtain ⟨hlease, hresult⟩ := List.getElem?_zip_eq_some.mp hi
  -- a publication that is given up as a whole has no success
  have hnone : ∀ error, (leases.map fun _ => (.error error : Except PublishError
      PublishReceipt))[i]? ≠ some (.ok receipt) := by
    intro error hok
    obtain ⟨_, -, hok⟩ := List.mem_map.mp (List.mem_of_getElem? hok)
    cases hok
  cases reply with
  | none => exact absurd hresult (hnone _)
  | some reply' =>
    dsimp only [publicationsBatch] at hresult
    split at hresult
    · obtain ⟨ids, message, hids, hcount, hmessage, hmem⟩ := publishBatch_ok hresult
      rw [List.getElem?_map, hlease] at hmessage
      obtain rfl := Option.some.inj hmessage
      exact ⟨reply', ids, rfl, hids, hcount, hmem⟩
    · exact absurd hresult (hnone _)

/-- **A success is confirmed**: its command is in the pipeline, and all commands of the
pipeline have their ids. -/
theorem publications_ok {batch : Bool} {leases : List OutboxLease} {reply : Option BrokerReply}
    {lease : OutboxLease} {receipt : PublishReceipt} (hbatch : batch = false → leases.length = 1)
    (h : (lease, .ok receipt) ∈ leases.zip (publications decode batch leases reply)) :
    ∃ reply' ids, reply = some reply' ∧ reply'.ids = .ok ids ∧
      ids.length = (pipeline decode (leases.map OutboxLease.message)).length ∧
      lease.message.command ∈ pipeline decode (leases.map OutboxLease.message) := by
  cases batch with
  | true => exact publicationsBatch_ok h
  | false =>
    obtain ⟨only, rfl⟩ := List.length_eq_one_iff.mp (hbatch rfl)
    obtain ⟨rfl, hok⟩ := Prod.mk.inj (List.mem_singleton.mp h)
    cases reply with
    | none => cases hok
    | some reply' =>
      obtain ⟨ids, hids, hcount, hmem⟩ := publish_ok hok.symm
      exact ⟨reply', ids, rfl, hids, hcount, hmem⟩

end Results

end DbProxy
