/-
Bounds of what the flat store holds and answers.

A request that passed the conversions has bounded texts, payloads and collections
(`BackendCall.Bounded`).  Whatever sequence of such calls a store has answered, everything
it holds is bounded (`StoreView.Bounded`), so are its answers, and the texts of its errors
are short.

* `StoreError.length_message_le` — the text of an error;
* `Flat.call_ends` — one call.
-/
import DbProxy.FlatAcceptance
import DbProxy.ResponseFrames

namespace DbProxy

open Text Checks KeyedMap Protobuf

/-! ### Texts of errors -/

/-- The longest text of a request that an error repeats. -/
def maxTextBytes : ℕ := 512

/-- The texts and numbers that an error repeats are bounded. -/
def StoreError.Bounded : StoreError → Prop
  | appendRecordConflict record | queuedSnapshotRequiresUnconditionalWrite record
  | revisionExhausted record | duplicateTransactionRecord record => record.Bounded
  | revisionConflict record expected actual =>
    record.Bounded ∧ (∀ revision ∈ expected, revision < 2 ^ 64) ∧ actual < 2 ^ 64
  | tradeVersionConflict tradeId expected actual =>
    tradeId.utf8ByteSize ≤ maxTextBytes ∧ expected < 2 ^ 64 ∧ actual < 2 ^ 64
  | invalidKey text | idempotencyConflict text | operationIdConflict text | operationExpired text
  | tradeStateConflict text _ _ | tradeVersionExhausted text | invalidLedgerPosting text
  | duplicateLedgerPosting text | ledgerPostingConflict text | unbalancedLedger text
  | invalidOutboxEvent text | duplicateOutboxEvent text | outboxEventConflict text =>
    text.utf8ByteSize ≤ maxTextBytes
  | emptyRequestId | emptyOperationId | emptyTransactionRecords | emptyTradeId | emptyTradeRecords
  | invalidTradeStateTransition _ _ => True

section Messages

variable (plain : Char → Bool)

theorem length_le_of_bytes {text : String} {bound : ℕ} (h : text.utf8ByteSize ≤ bound) :
    text.length ≤ bound := (Utf16.utf8ByteSize_bounds text).1.trans h

theorem length_debugChar_le (c : Char) : (debugChar plain c).length ≤ 10 := by
  have hlt : c.toNat < 16 ^ 6 := by
    have hvalid : c.toNat < 0xd800 ∨ (0xdfff < c.toNat ∧ c.toNat < 0x110000) := c.valid
    omega
  have hdigits : (Nat.toDigits 16 c.toNat).length ≤ 6 :=
    (Nat.length_toDigits_le_iff (by decide) (by decide)).mpr hlt
  rw [debugChar]
  split_ifs <;> simp only [List.length_append, List.length_cons, List.length_nil] <;> omega

theorem length_append_le {a b : String} {n m : ℕ} (ha : a.length ≤ n) (hb : b.length ≤ m) :
    (a ++ b).length ≤ n + m := by
  rw [String.length_append]
  exact Nat.add_le_add ha hb

/-- One of the fixed words of a message. -/
theorem length_word_le {l : List Char} {n : ℕ} (h : l.length ≤ n) :
    (String.ofList l).length ≤ n := by rwa [String.length_ofList]

theorem length_word_append_le {l : List Char} {text : String} {n : ℕ} (hword : l.length ≤ 100)
    (htext : text.length ≤ n) : (String.ofList l ++ text).length ≤ 100 + n :=
  length_append_le (length_word_le hword) htext

theorem length_append_word_le {l : List Char} {text : String} {n : ℕ} (htext : text.length ≤ n)
    (hword : l.length ≤ 100) : (text ++ String.ofList l).length ≤ n + 100 :=
  length_append_le htext (length_word_le hword)

theorem length_debugText_le (text : String) :
    (debugText plain text).length ≤ 10 * text.length + 200 := by
  have hchars : ∀ l : List Char, (String.ofList (l.flatMap (debugChar plain))).length ≤
      10 * l.length := by
    intro l
    rw [String.length_ofList]
    induction l with
    | nil => exact Nat.zero_le _
    | cons c l ih =>
      have hc := length_debugChar_le plain c
      rw [List.flatMap_cons, List.length_append, List.length_cons]
      omega
  have h := hchars text.toList
  rw [String.length_toList] at h
  refine (length_append_word_le (length_word_append_le (by decide) h) (by decide)).trans ?_
  omega

theorem RecordKey.length_debug_le {record : RecordKey} (h : record.Bounded) :
    (record.debug plain).length ≤ 7100 := by
  have hns : (debugText plain record.ns).length ≤ 1480 := by
    have htext := length_debugText_le plain record.ns
    have hlength : record.ns.length ≤ 128 := length_le_of_bytes h.ns
    omega
  have hkey : (debugText plain record.key).length ≤ 5320 := by
    have htext := length_debugText_le plain record.key
    have hlength : record.key.length ≤ 512 := length_le_of_bytes h.key
    omega
  exact length_append_word_le (length_append_le (length_append_word_le
    (length_word_append_le (by decide) hns) (by decide)) hkey) (by decide)

theorem length_toString_le {n : ℕ} (h : n < 2 ^ 64) : (toString n).length ≤ 20 := by
  have hdigits : (Nat.toDigits 10 n).length ≤ 20 :=
    (Nat.length_toDigits_le_iff (by decide) (by decide)).mpr (h.trans (by decide))
  have hlength : (toString n).length = (Nat.toDigits 10 n).length := String.length_ofList
  omega

theorem Revision.length_debug_le {revision : Revision} (h : revision < 2 ^ 64) :
    (Revision.debug revision).length ≤ 220 :=
  length_append_word_le (length_word_append_le (by decide) (length_toString_le h)) (by decide)

theorem length_debugOption_le {α : Type} {debug : α → String} {value : Option α}
    (h : ∀ a ∈ value, (debug a).length ≤ 220) : (debugOption debug value).length ≤ 420 := by
  cases value with
  | none => exact length_word_le (by decide)
  | some a => exact length_append_word_le (length_word_append_le (by decide) (h a rfl)) (by decide)

theorem TradeState.length_debug_le (state : TradeState) : state.debug.length ≤ 100 := by
  cases state <;> decide

theorem StoreError.length_message_le {error : StoreError} (h : error.Bounded) :
    (error.message plain).length ≤ maxMessageChars := by
  have hstate : ∀ state : Option TradeState, (debugOption TradeState.debug state).length ≤ 420 :=
    fun _ => length_debugOption_le fun state _ => state.length_debug_le.trans (by decide)
  cases error with
  | appendRecordConflict record | revisionExhausted record | duplicateTransactionRecord record =>
    have hrecord := RecordKey.length_debug_le plain h
    exact (length_word_append_le (by decide) hrecord).trans (by decide)
  | queuedSnapshotRequiresUnconditionalWrite record =>
    have hrecord := RecordKey.length_debug_le plain h
    exact (length_append_word_le (length_word_append_le (by decide) hrecord) (by decide)).trans
      (by decide)
  | revisionConflict record expected actual =>
    obtain ⟨hrecord, hexpected, hactual⟩ := h
    have hrecord := RecordKey.length_debug_le plain hrecord
    have hexpected := length_debugOption_le fun r hr => Revision.length_debug_le (hexpected r hr)
    have hactual := Revision.length_debug_le hactual
    exact (length_append_le (length_append_word_le (length_append_le (length_append_word_le
      (length_word_append_le (by decide) hrecord) (by decide)) hexpected) (by decide))
      hactual).trans (by decide)
  | tradeVersionConflict tradeId expected actual =>
    obtain ⟨hid, hexpected, hactual⟩ := h
    have hid := length_le_of_bytes hid
    have hexpected := Revision.length_debug_le hexpected
    have hactual := Revision.length_debug_le hactual
    exact (length_append_le (length_append_word_le (length_append_le (length_append_word_le
      (length_word_append_le (by decide) hid) (by decide)) hexpected) (by decide))
      hactual).trans (by decide)
  | tradeStateConflict tradeId expected actual =>
    have hid := length_le_of_bytes h
    exact (length_append_le (length_append_word_le (length_append_le (length_append_word_le
      (length_word_append_le (by decide) hid) (by decide)) (hstate expected)) (by decide))
      (hstate actual)).trans (by decide)
  | invalidTradeStateTransition source target =>
    exact (length_append_le (length_append_word_le (length_word_append_le (by decide)
      (hstate source)) (by decide)) target.length_debug_le).trans (by decide)
  | idempotencyConflict text | operationIdConflict text | operationExpired text
  | unbalancedLedger text =>
    exact (length_append_word_le (length_word_append_le (by decide) (length_le_of_bytes h))
      (by decide)).trans (by decide)
  | invalidKey text | tradeVersionExhausted text | invalidLedgerPosting text
  | duplicateLedgerPosting text | ledgerPostingConflict text | invalidOutboxEvent text
  | duplicateOutboxEvent text | outboxEventConflict text =>
    exact (length_word_append_le (by decide) (length_le_of_bytes h)).trans (by decide)
  | emptyRequestId => exact length_word_le (by decide)
  | emptyOperationId => exact length_word_le (by decide)
  | emptyTransactionRecords => exact length_word_le (by decide)
  | emptyTradeId => exact length_word_le (by decide)
  | emptyTradeRecords => exact length_word_le (by decide)

/-- The failures of the backend whose texts name data of a request. -/
def BackendError.Bounded : BackendError → Prop
  | .core error | .storage (.core error) => error.Bounded
  | _ => True

theorem RpcFailure.fromStore_message (error : StoreError) :
    (RpcFailure.fromStore plain error).publicMessage = error.message plain ∨
      (RpcFailure.fromStore plain error).publicMessage = "revision exhausted" := by
  cases error with
  | revisionExhausted record | tradeVersionExhausted tradeId => exact Or.inr rfl
  | _ => exact Or.inl rfl

theorem RpcFailure.fromStore_bounded {error : StoreError} (h : error.Bounded) :
    (RpcFailure.fromStore plain error).Bounded := by
  rw [RpcFailure.Bounded]
  rcases RpcFailure.fromStore_message plain error with htext | htext
  · rw [htext]
    exact StoreError.length_message_le plain h
  · rw [htext]
    exact length_word_le (by decide)

theorem RpcFailure.fromBackend_bounded {error : BackendError} (h : error.Bounded) :
    (RpcFailure.fromBackend plain error).Bounded := by
  cases error with
  | invalidConfig message => exact length_word_le (by decide)
  | core error => exact RpcFailure.fromStore_bounded plain h
  | storage error =>
    cases error with
    | core error => exact RpcFailure.fromStore_bounded plain h
    | _ => exact length_word_le (by decide)
  | worker message => exact length_word_le (by decide)

end Messages

/-! ### Bounded calls -/

structure SnapshotWrite.Bounded (request : SnapshotWrite) : Prop where
  requestId : request.requestId.utf8ByteSize ≤ maxIdempotencyKeyBytes
  record : request.record.Bounded
  schema : request.schema.utf8ByteSize ≤ maxSchemaBytes
  payload : request.payload.length ≤ defaultMaxPayloadBytes
  expected : ∀ revision ∈ request.expectedRevision, revision < 2 ^ 64

structure TransactionalWrite.Bounded (request : TransactionalWrite) : Prop where
  operationId : request.operationId.utf8ByteSize ≤ maxIdempotencyKeyBytes
  record : request.record.Bounded
  schema : request.schema.utf8ByteSize ≤ maxSchemaBytes
  payload : request.payload.length ≤ defaultMaxPayloadBytes
  result : request.result.length ≤ defaultMaxPayloadBytes
  expected : request.expectedRevision < 2 ^ 64

structure TransactionalRecordWrite.Bounded (write : TransactionalRecordWrite) : Prop where
  record : write.record.Bounded
  schema : write.schema.utf8ByteSize ≤ maxSchemaBytes
  payload : write.payload.length ≤ defaultMaxPayloadBytes
  expected : write.expectedRevision < 2 ^ 64

/-- The writes of one transaction. -/
structure BoundedWrites (writes : List TransactionalRecordWrite) : Prop where
  count : writes.length ≤ maxTransactionRecords
  write : ∀ write ∈ writes, write.Bounded

structure MultiRecordTransactionalWrite.Bounded (request : MultiRecordTransactionalWrite) :
    Prop where
  operationId : request.operationId.utf8ByteSize ≤ maxIdempotencyKeyBytes
  writes : BoundedWrites request.writes
  result : request.result.length ≤ defaultMaxPayloadBytes

structure CommitEffects.Bounded (effects : CommitEffects) : Prop where
  appends : ∀ append ∈ effects.appends, append.record.Bounded
  events : ∀ event ∈ effects.outboxEvents, event.eventId.utf8ByteSize ≤ maxIdempotencyKeyBytes

structure TradeTransaction.Bounded (request : TradeTransaction) : Prop where
  operationId : request.operationId.utf8ByteSize ≤ maxIdempotencyKeyBytes
  tradeId : request.transition.tradeId.utf8ByteSize ≤ maxTradeIdBytes
  payload : request.transition.payload.length ≤ defaultMaxPayloadBytes
  expected : request.transition.expectedVersion < 2 ^ 64
  writes : BoundedWrites request.writes
  postings : request.ledgerPostings.length ≤ maxLedgerPostings
  posting : ∀ posting ∈ request.ledgerPostings,
    posting.postingId.utf8ByteSize ≤ maxLedgerFieldBytes ∧
      posting.asset.utf8ByteSize ≤ maxLedgerFieldBytes
  events : request.outboxEvents.length ≤ maxOutboxEvents
  event : ∀ event ∈ request.outboxEvents, event.eventId.utf8ByteSize ≤ maxIdempotencyKeyBytes
  result : request.result.length ≤ defaultMaxPayloadBytes

/-- A call with the values of an accepted request. -/
def BackendCall.Bounded : BackendCall → Prop
  | .load _ | .loadCached _ | .loadMulti _ | .loadCachedMulti _ | .loadTrade _ => True
  | .save request | .enqueueSnapshot request => request.Bounded
  | .saveMulti requests | .enqueueMultiSnapshot requests =>
    requests.length ≤ maxBatchSnapshotWrites ∧ ∀ request ∈ requests, request.Bounded
  | .applyTransaction request => request.Bounded
  | .commitRecords request effects => request.Bounded ∧ effects.Bounded
  | .applyMultiTransaction request => request.Bounded
  | .applyTradeTransaction request => request.Bounded
  | .loadTransaction operationId record =>
    operationId.utf8ByteSize ≤ maxIdempotencyKeyBytes ∧ record.Bounded
  | .loadMultiTransaction operationId _ | .loadTradeTransaction operationId _ =>
    operationId.utf8ByteSize ≤ maxIdempotencyKeyBytes

/-! ### Bounded answers and contents -/

def TransactionalWriteOutcome.Bounded : TransactionalWriteOutcome → Prop
  | .applied _ result | .duplicate _ result => result.length ≤ defaultMaxPayloadBytes

def MultiRecordTransactionalWriteOutcome.Bounded : MultiRecordTransactionalWriteOutcome → Prop
  | .applied records result | .duplicate records result =>
    BoundedRecords records ∧ result.length ≤ defaultMaxPayloadBytes

def TradeTransactionOutcome.Bounded : TradeTransactionOutcome → Prop
  | .applied receipt | .duplicate receipt => receipt.Bounded

/-- The entries of a batch of writes, and the errors in it. -/
structure BoundedEntries {α : Type} (entries : List (Except BackendError α)) : Prop where
  count : entries.length ≤ maxBatchSnapshotWrites
  error : ∀ error, .error error ∈ entries → error.Bounded

/-- Every value of an answer is bounded; `batch` is what is known of a batch read. -/
def BackendCall.Answers (batch : List (Option SnapshotEnvelope) → Prop) :
    (c : BackendCall) → c.Value → Prop
  | .load _, snapshot | .loadCached _, snapshot => ∀ s ∈ snapshot, s.Bounded
  | .loadMulti _, snapshots | .loadCachedMulti _, snapshots => batch snapshots
  | .save _, _ | .enqueueSnapshot _, _ => True
  | .saveMulti _, outcomes => BoundedEntries outcomes
  | .enqueueMultiSnapshot _, outcomes => BoundedEntries outcomes
  | .applyTransaction _, outcome => outcome.Bounded
  | .commitRecords _ _, outcome | .applyMultiTransaction _, outcome => outcome.Bounded
  | .loadTransaction _ _, receipt => ∀ r ∈ receipt, r.Bounded
  | .loadMultiTransaction _ _, receipt => ∀ r ∈ receipt, r.Bounded
  | .applyTradeTransaction _, outcome => outcome.Bounded
  | .loadTrade _, trade => ∀ t ∈ trade, t.Bounded
  | .loadTradeTransaction _ _, receipt => ∀ r ∈ receipt, r.Bounded

namespace StoreView

variable {D : Type} {v : StoreView D}

structure Bounded (v : StoreView D) : Prop where
  snapshots : ∀ record snapshot, v.snapshots record = some snapshot →
    snapshot.Bounded ∧ snapshot.revision < 2 ^ 64
  transactions : ∀ operationId receipt, v.transactions operationId = some receipt →
    receipt.result.length ≤ defaultMaxPayloadBytes
  multiTransactions : ∀ operationId receipt, v.multiTransactions operationId = some receipt →
    BoundedRecords receipt.records ∧ receipt.result.length ≤ defaultMaxPayloadBytes
  tradeTransactions : ∀ operationId stored, v.tradeTransactions operationId = some stored →
    stored.receipt.Bounded
  trades : ∀ tradeId trade, v.trades tradeId = some trade →
    trade.Bounded ∧ trade.version < 2 ^ 64

theorem Bounded.revision (h : v.Bounded) (record : RecordKey) : v.revision record < 2 ^ 64 := by
  rw [StoreView.revision]
  cases hsnapshot : v.snapshots record with
  | none => exact Nat.two_pow_pos 64
  | some snapshot => exact (h.snapshots record snapshot hsnapshot).2

theorem Bounded.tradeVersion (h : v.Bounded) (tradeId : String) :
    ((v.trades tradeId).map (·.version)).getD 0 < 2 ^ 64 := by
  cases htrade : v.trades tradeId with
  | none => exact Nat.two_pow_pos 64
  | some trade => exact (h.trades tradeId trade htrade).2

/-- The snapshots after one more. -/
theorem Bounded.snapshots_update (h : v.Bounded) {record : RecordKey}
    {snapshot : SnapshotEnvelope} (hsnapshot : snapshot.Bounded)
    (hrevision : snapshot.revision < 2 ^ 64) (r : RecordKey) (s : SnapshotEnvelope)
    (hs : Function.update v.snapshots record (some snapshot) r = some s) :
    s.Bounded ∧ s.revision < 2 ^ 64 := by
  rcases update_eq_some hs with ⟨-, rfl⟩ | ⟨-, hold⟩
  · exact ⟨hsnapshot, hrevision⟩
  · exact h.snapshots r s hold

variable (cfg : MemoryConfig D)

theorem Bounded.save (h : v.Bounded) {request : SnapshotWrite} (hrequest : request.Bounded)
    (hroom : v.revision request.record + 1 < 2 ^ 64) : (v.save cfg request).Bounded :=
  { h with
    snapshots := h.snapshots_update ⟨hrequest.record, hrequest.schema, hrequest.payload⟩ hroom }

theorem Bounded.applyTransaction (h : v.Bounded) {request : TransactionalWrite}
    (hrequest : request.Bounded) (hroom : request.expectedRevision + 1 < 2 ^ 64) :
    (v.applyTransaction cfg request).Bounded :=
  { h with
    snapshots := h.snapshots_update ⟨hrequest.record, hrequest.schema, hrequest.payload⟩ hroom
    transactions := fun operationId receipt hreceipt => by
      rcases update_eq_some hreceipt with ⟨-, rfl⟩ | ⟨-, hold⟩
      · exact hrequest.result
      · exact h.transactions operationId receipt hold }

theorem Bounded.snapshots_writeRecords (h : v.Bounded) {writes : List TransactionalRecordWrite}
    (hwrites : BoundedWrites writes)
    (hroom : ∀ w ∈ writes, w.expectedRevision + 1 < 2 ^ 64) (record : RecordKey)
    (snapshot : SnapshotEnvelope) (hs : (v.writeRecords writes).snapshots record = some snapshot) :
    snapshot.Bounded ∧ snapshot.revision < 2 ^ 64 := by
  by_cases hmem : record ∈ (writes.map (·.committed)).map (·.record)
  · obtain ⟨s, hs', -, hput⟩ := exists_insertAll_of_mem (m := v.snapshots) hmem
    obtain ⟨w, hw, rfl⟩ := List.mem_map.mp hs'
    obtain rfl := Option.some.inj (hput.symm.trans hs)
    have hbounded := hwrites.write w hw
    exact ⟨⟨hbounded.record, hbounded.schema, hbounded.payload⟩, hroom w hw⟩
  · exact h.snapshots record snapshot ((insertAll_of_not_mem hmem).symm.trans hs)

/-- The receipts of the writes of a transaction. -/
theorem boundedRecords_of_writes {writes : List TransactionalRecordWrite}
    (h : BoundedWrites writes) : BoundedRecords (writes.map (·.receipt)) where
  count := (List.length_map _).trans_le h.count
  record receipt hreceipt := by
    obtain ⟨w, hw, rfl⟩ := List.mem_map.mp hreceipt
    exact (h.write w hw).record

theorem Bounded.commitRecords (h : v.Bounded) {request : MultiRecordTransactionalWrite}
    {effects : CommitEffects} (hrequest : request.Bounded)
    (hroom : ∀ w ∈ request.writes, w.expectedRevision + 1 < 2 ^ 64) :
    (v.commitRecords cfg request effects).Bounded :=
  { h with
    snapshots := h.snapshots_writeRecords hrequest.writes hroom
    multiTransactions := fun operationId receipt hreceipt => by
      rcases update_eq_some hreceipt with ⟨-, rfl⟩ | ⟨-, hold⟩
      · exact ⟨boundedRecords_of_writes hrequest.writes, hrequest.result⟩
      · exact h.multiTransactions operationId receipt hold }

theorem appliedReceipt_bounded {request : TradeTransaction} (h : request.Bounded) :
    request.appliedReceipt.Bounded where
  operationId := h.operationId
  tradeId := h.tradeId
  records := boundedRecords_of_writes h.writes
  postings := (List.length_map _).trans_le h.postings
  postingIds id hid := by
    obtain ⟨posting, hposting, rfl⟩ := List.mem_map.mp hid
    exact (h.posting posting hposting).1
  events := (List.length_map _).trans_le h.events
  eventIds id hid := by
    obtain ⟨event, hevent, rfl⟩ := List.mem_map.mp hid
    exact h.event event hevent
  result := h.result

theorem Bounded.applyTrade (h : v.Bounded) {request : TradeTransaction}
    (hrequest : request.Bounded)
    (hroom : ∀ w ∈ request.writes, w.expectedRevision + 1 < 2 ^ 64)
    (hversion : request.transition.expectedVersion + 1 < 2 ^ 64) :
    (v.applyTrade request).Bounded :=
  { h with
    snapshots := h.snapshots_writeRecords hrequest.writes hroom
    trades := fun tradeId trade htrade => by
      rcases update_eq_some htrade with ⟨-, rfl⟩ | ⟨-, hold⟩
      · exact ⟨⟨hrequest.tradeId, hrequest.payload⟩, hversion⟩
      · exact h.trades tradeId trade hold
    tradeTransactions := fun operationId stored hstored => by
      rcases update_eq_some hstored with ⟨-, rfl⟩ | ⟨-, hold⟩
      · exact appliedReceipt_bounded hrequest
      · exact h.tradeTransactions operationId stored hold }

end StoreView

/-! ### Checks -/

theorem text_bounded {text : String} {limit : ℕ} (h : text.utf8ByteSize ≤ limit)
    (hlimit : limit ≤ maxTextBytes) : text.utf8ByteSize ≤ maxTextBytes := h.trans hlimit

theorem checkDistinctRecords_ends {records : List RecordKey} (h : ∀ r ∈ records, r.Bounded) :
    Ends (fun _ => True) StoreError.Bounded (checkDistinctRecords records) := by
  rw [checkDistinctRecords]
  cases hduplicate : adjacentDuplicate records with
  | none => exact trivial
  | some record => exact h record (mem_of_adjacentDuplicate hduplicate)

theorem RecordKey.new_ends (ns key : String) :
    Ends (fun _ => True) StoreError.Bounded (RecordKey.new ns key) := by
  rw [RecordKey.new]
  split
  · exact (by decide : "namespace is empty".utf8ByteSize ≤ 512)
  · exact ends_check (fun _ => (by decide : "key is empty".utf8ByteSize ≤ 512)) fun _ => trivial

theorem normalizeMulti_ends {request : MultiRecordTransactionalWrite} (h : request.Bounded) :
    Ends MultiRecordTransactionalWrite.Bounded StoreError.Bounded (normalizeMulti request) := by
  have hwrites : BoundedWrites (sortOn (·.record) request.writes) :=
    ⟨(sortOn_perm _ _).length_eq.trans_le h.writes.count,
      fun w hw => h.writes.write w (mem_sortOn.mp hw)⟩
  have hrecords : ∀ r ∈ (sortOn (·.record) request.writes).map (·.record), r.Bounded := by
    intro r hr
    obtain ⟨w, hw, rfl⟩ := List.mem_map.mp hr
    exact (hwrites.write w hw).record
  rw [normalizeMulti]
  split
  · exact trivial
  · split
    · exact trivial
    · exact (checkDistinctRecords_ends hrecords).bind fun _ _ =>
        ⟨h.operationId, hwrites, h.result⟩

theorem refusals_bounded : ∀ reason ∈ EventEnvelope.refusals,
    (StoreError.invalidOutboxEvent reason).Bounded := by
  have hall : EventEnvelope.refusals.all fun reason => reason.utf8ByteSize ≤ 512 := by decide
  intro reason hreason
  have hsize : reason.utf8ByteSize ≤ 512 :=
    of_decide_eq_true (List.all_eq_true.mp hall reason hreason)
  exact hsize

theorem CommitEffects.normalize_ends {decode : Bytes → Option EventEnvelope}
    {effects : CommitEffects} (h : effects.Bounded) :
    Ends CommitEffects.Bounded StoreError.Bounded (effects.normalize decode) := by
  have happends : ∀ append ∈ sortOn (·.record) effects.appends, append.record.Bounded :=
    fun append hmem => h.appends append (mem_sortOn.mp hmem)
  have hevents : ∀ event ∈ sortOn (·.eventId) effects.outboxEvents,
      event.eventId.utf8ByteSize ≤ maxIdempotencyKeyBytes :=
    fun event hmem => h.events event (mem_sortOn.mp hmem)
  rw [CommitEffects.normalize]
  refine (ends_forM (P := fun _ => True) fun append _ => ?_).bind fun _ _ =>
    (checkDistinctRecords_ends fun r hr => ?_).bind fun _ _ =>
    (ends_scanDistinct (fun event _ => ?_) (fun event hmem => ?_) fun event _ => ?_).bind
      fun _ _ => ⟨happends, hevents⟩
  · rw [checkAppend]
    exact (RecordKey.new_ends _ _).bind fun _ _ =>
      ends_check (fun _ => (by decide : "append schema is empty".utf8ByteSize ≤ 512))
        fun _ => trivial
  · obtain ⟨append, hmem, rfl⟩ := List.mem_map.mp hr
    exact happends append hmem
  · rw [checkEvent]
    exact (EventEnvelope.fromOutbox_ends refusals_bounded).bind fun _ _ =>
      ends_check (fun _ => (by decide : "event identity or route is empty".utf8ByteSize ≤ 512))
        fun _ => trivial
  · exact text_bounded (hevents event hmem) (by decide)
  · exact trivial

theorem checkBalances_ends {postings : List LedgerPosting}
    (h : ∀ posting ∈ postings, posting.asset.utf8ByteSize ≤ maxLedgerFieldBytes) :
    Ends (fun _ => True) StoreError.Bounded (checkBalances postings) := by
  rw [checkBalances]
  cases hasset : unbalancedAsset postings with
  | none => exact trivial
  | some asset =>
    have hmem := mem_sortOn.mp (List.mem_of_find?_eq_some hasset)
    obtain ⟨posting, hposting, rfl⟩ := List.mem_map.mp (List.mem_dedup.mp hmem)
    exact text_bounded (h posting hposting) (by decide)

theorem normalizeTrade_ends {request : TradeTransaction} (h : request.Bounded) :
    Ends TradeTransaction.Bounded StoreError.Bounded (normalizeTradeTransaction request) := by
  have hwrites : BoundedWrites (sortOn (·.record) request.writes) :=
    ⟨(sortOn_perm _ _).length_eq.trans_le h.writes.count,
      fun w hw => h.writes.write w (mem_sortOn.mp hw)⟩
  have hposting : ∀ posting ∈ sortOn (·.postingId) request.ledgerPostings,
      posting.postingId.utf8ByteSize ≤ maxLedgerFieldBytes ∧
        posting.asset.utf8ByteSize ≤ maxLedgerFieldBytes :=
    fun posting hmem => h.posting posting (mem_sortOn.mp hmem)
  have hevent : ∀ event ∈ sortOn (·.eventId) request.outboxEvents,
      event.eventId.utf8ByteSize ≤ maxIdempotencyKeyBytes :=
    fun event hmem => h.event event (mem_sortOn.mp hmem)
  have hheader : Ends (fun _ => True) StoreError.Bounded (checkTradeHeader request) := by
    rw [checkTradeHeader]
    split_ifs <;> exact trivial
  have hrecords : Ends (fun _ => True) StoreError.Bounded
      ((sortOn (·.record) request.writes).forM checkWriteRecord) := by
    refine (ends_forM (P := fun _ => True) fun w _ => ?_).mono fun _ _ => trivial
    rw [checkWriteRecord]
    split_ifs
    · exact (by decide : "namespace is empty".utf8ByteSize ≤ 512)
    · exact (by decide : "key is empty".utf8ByteSize ≤ 512)
    · exact trivial
  have hpostings : Ends (fun _ => True) StoreError.Bounded
      (checkPostings (sortOn (·.postingId) request.ledgerPostings)) := by
    refine ends_scanDistinct (fun posting _ => ?_)
      (fun posting hmem => text_bounded (hposting posting hmem).1 (by decide)) fun posting _ => ?_
    · exact ends_check (fun _ => (by decide : "posting id is empty".utf8ByteSize ≤ 512))
        fun _ => trivial
    · rw [checkPostingFields]
      split_ifs
      · exact (by decide : "account id is empty".utf8ByteSize ≤ 512)
      · exact (by decide : "asset is empty".utf8ByteSize ≤ 512)
      · exact (by decide : "amount is zero".utf8ByteSize ≤ 512)
      · exact trivial
  have hevents : Ends (fun _ => True) StoreError.Bounded
      (checkTradeEvents (sortOn (·.eventId) request.outboxEvents)) := by
    refine ends_scanDistinct (fun event _ => ?_)
      (fun event hmem => text_bounded (hevent event hmem) (by decide)) fun event _ => ?_
    · rw [checkTradeEventId]
      split_ifs
      · exact (by decide : "relay envelopes require CommitRecords".utf8ByteSize ≤ 512)
      · exact (by decide : "event id is empty".utf8ByteSize ≤ 512)
      · exact trivial
    · rw [checkTradeEventRoute]
      split_ifs
      · exact (by decide : "topic is empty".utf8ByteSize ≤ 512)
      · exact (by decide : "partition key is empty".utf8ByteSize ≤ 512)
      · exact trivial
  rw [normalizeTradeTransaction]
  refine hheader.bind fun _ _ => hrecords.bind fun _ _ =>
    (checkDistinctRecords_ends fun r hr => ?_).bind fun _ _ => hpostings.bind fun _ _ =>
    (checkBalances_ends fun posting hmem => (hposting posting hmem).2).bind fun _ _ =>
    hevents.bind fun _ _ => ?_
  · obtain ⟨w, hw, rfl⟩ := List.mem_map.mp hr
    exact (hwrites.write w hw).record
  · exact ⟨h.operationId, h.tradeId, h.payload, h.expected, hwrites,
      (sortOn_perm _ _).length_eq.trans_le h.postings, hposting,
      (sortOn_perm _ _).length_eq.trans_le h.events, hevent, h.result⟩

/-! ### One call -/

namespace Flat

open StoreView

variable {D : Type} {cfg : MemoryConfig D} {v : StoreView D}

theorem claimOperation_ends {operationId : String} {kind : OperationKind}
    (h : operationId.utf8ByteSize ≤ maxIdempotencyKeyBytes) :
    Ends (fun _ => True) StoreError.Bounded (claimOperation v operationId kind) := by
  rw [claimOperation]
  split
  · exact ends_check (fun _ => text_bounded h (by decide)) fun _ => trivial
  · exact trivial

theorem compareRevisions_ends (hv : v.Bounded) :
    ∀ {writes : List TransactionalRecordWrite}, (∀ w ∈ writes, w.Bounded) →
      Ends (fun committed => committed = writes.map (·.receipt) ∧
        ∀ w ∈ writes, w.expectedRevision + 1 < 2 ^ 64) StoreError.Bounded
        (compareRevisions v writes)
  | [], _ => ⟨rfl, fun w hw => by cases hw⟩
  | w :: rest, h => by
    obtain ⟨hw, hrest⟩ := List.forall_mem_cons.mp h
    rw [compareRevisions]
    refine ends_unless (fun _ => ⟨hw.record, fun r hr => ?_, hv.revision w.record⟩)
      fun hcurrent => ?_
    · obtain rfl := Option.some.inj hr
      exact hw.expected
    · rw [not_not.mp hcurrent]
      cases hnext : Revision.next w.expectedRevision with
      | none => exact hw.record
      | some next =>
        obtain ⟨hroom, rfl⟩ := Revision.next_eq_some.mp hnext
        exact (compareRevisions_ends hv hrest).bind fun committed hcommitted =>
          ⟨congrArg (_ :: ·) hcommitted.1, List.forall_mem_cons.mpr ⟨hroom, hcommitted.2⟩⟩

section Writes

variable [DecidableEq D]

theorem save_ends (hv : v.Bounded) {request : SnapshotWrite} (h : request.Bounded) :
    Ends (fun r => r.2.Bounded) StoreError.Bounded (save cfg v request) := by
  rw [save]
  refine ends_unless (fun _ => trivial) fun _ => ?_
  cases v.snapshotReceipts request.requestId with
  | some receipt => exact ends_unless (fun _ => text_bounded h.requestId (by decide)) fun _ => hv
  | none =>
    refine ends_unless (fun _ => ⟨h.record, h.expected, hv.revision request.record⟩) fun _ => ?_
    cases hnext : (v.revision request.record).next with
    | none => exact h.record
    | some revision => exact hv.save cfg h (Revision.next_eq_some.mp hnext).1

theorem applyTransaction_ends (hv : v.Bounded) {request : TransactionalWrite}
    (h : request.Bounded) : Ends (fun r => r.1.Bounded ∧ r.2.Bounded) StoreError.Bounded
      (applyTransaction cfg v request) := by
  rw [applyTransaction]
  refine ends_unless (fun _ => trivial) fun _ => (claimOperation_ends h.operationId).bind
    fun _ _ => ?_
  cases hreceipt : v.transactions request.operationId with
  | some receipt =>
    exact ends_unless (fun _ => text_bounded h.operationId (by decide)) fun _ =>
      ⟨hv.transactions _ _ hreceipt, hv⟩
  | none =>
    refine ends_unless (fun _ => ⟨h.record, fun r hr => ?_, hv.revision request.record⟩)
      fun hcurrent => ?_
    · obtain rfl := Option.some.inj hr
      exact h.expected
    · rw [not_not.mp hcurrent]
      cases hnext : Revision.next request.expectedRevision with
      | none => exact h.record
      | some revision =>
        exact ⟨h.result, hv.applyTransaction cfg h (Revision.next_eq_some.mp hnext).1⟩

theorem commitRecords_ends (hv : v.Bounded) {request : MultiRecordTransactionalWrite}
    {effects : CommitEffects} (h : request.Bounded) (heffects : effects.Bounded) :
    Ends (fun r => r.1.Bounded ∧ r.2.Bounded) StoreError.Bounded
      (commitRecords cfg v request effects) := by
  rw [commitRecords]
  refine (CommitEffects.normalize_ends heffects).bind fun effects heffects =>
    (normalizeMulti_ends h).bind fun request h =>
    (claimOperation_ends h.operationId).bind fun _ _ => ?_
  cases hreceipt : v.multiTransactions request.operationId with
  | some receipt =>
    exact ends_unless (fun _ => text_bounded h.operationId (by decide)) fun _ =>
      ⟨hv.multiTransactions _ _ hreceipt, hv⟩
  | none =>
    have hids : Ends (fun _ => True) StoreError.Bounded (checkEffectIds v.identifiers effects) := by
      refine (ends_forM (P := fun _ => True) fun append hmem => ?_).bind fun _ _ =>
        (ends_forM (P := fun _ => True) fun event hmem => ?_).mono fun _ _ => trivial
      · exact ends_check (fun _ => heffects.appends append hmem) fun _ => trivial
      · exact ends_check (fun _ => text_bounded (heffects.events event hmem) (by decide))
          fun _ => trivial
    refine hids.bind fun _ _ => (compareRevisions_ends hv h.writes.write).bind
      fun committed hcommitted => ?_
    obtain ⟨rfl, hroom⟩ := hcommitted
    exact ⟨⟨boundedRecords_of_writes h.writes, h.result⟩, hv.commitRecords cfg h hroom⟩

end Writes

theorem applyTradeTransaction_ends (hv : v.Bounded) {request : TradeTransaction}
    (h : request.Bounded) : Ends (fun r => r.1.Bounded ∧ r.2.Bounded) StoreError.Bounded
      (applyTradeTransaction v request) := by
  rw [applyTradeTransaction]
  refine (normalizeTrade_ends h).bind fun request h =>
    (claimOperation_ends h.operationId).bind fun _ _ => ?_
  cases hstored : v.tradeTransactions request.operationId with
  | some stored =>
    exact ends_unless (fun _ => text_bounded h.operationId (by decide)) fun _ =>
      ⟨hv.tradeTransactions _ _ hstored, hv⟩
  | none =>
    have hversion := hv.tradeVersion request.transition.tradeId
    have hstate : Ends
        (fun _ => ((v.trades request.transition.tradeId).map (·.version)).getD 0 =
          request.transition.expectedVersion) StoreError.Bounded
        (checkTradeState (v.trades request.transition.tradeId) request.transition) := by
      rw [checkTradeState]
      split_ifs with hcurrent hsame
      · exact ⟨text_bounded h.tradeId (by decide), h.expected, hversion⟩
      · exact text_bounded h.tradeId (by decide)
      · exact not_not.mp hcurrent
    have hids : Ends (fun _ => True) StoreError.Bounded (checkTradeIds v.identifiers request) := by
      refine (ends_forM (P := fun _ => True) fun posting hmem => ?_).bind fun _ _ =>
        (ends_forM (P := fun _ => True) fun event hmem => ?_).mono fun _ _ => trivial
      · exact ends_check (fun _ => text_bounded (h.posting posting hmem).1 (by decide))
          fun _ => trivial
      · exact ends_check (fun _ => text_bounded (h.event event hmem) (by decide)) fun _ => trivial
    refine hstate.bind fun _ hsame => hids.bind fun _ _ =>
      (compareRevisions_ends hv h.writes.write).bind fun committed hcommitted => ?_
    obtain ⟨rfl, hroom⟩ := hcommitted
    rw [hsame]
    cases hnext : Revision.next request.transition.expectedVersion with
    | none => exact text_bounded h.tradeId (by decide)
    | some version =>
      obtain ⟨hlast, rfl⟩ := Revision.next_eq_some.mp hnext
      exact ⟨appliedReceipt_bounded h, hv.applyTrade h hroom hlast⟩

theorem loadTransaction_ends (hv : v.Bounded) {operationId : String} {record : RecordKey}
    (hid : operationId.utf8ByteSize ≤ maxIdempotencyKeyBytes) (hrecord : record.Bounded) :
    Ends (fun r => (∀ receipt ∈ r.1, receipt.Bounded) ∧ r.2.Bounded) StoreError.Bounded
      (loadTransaction v operationId record) := by
  rw [loadTransaction]
  refine ends_unless (fun _ => trivial) fun _ => ?_
  cases hreceipt : v.transactions operationId with
  | none => exact ⟨fun receipt hmem => (by cases hmem), hv⟩
  | some receipt =>
    refine ends_unless (fun _ => text_bounded hid (by decide)) fun _ => ⟨fun r hr => ?_, hv⟩
    obtain rfl := Option.some.inj hr
    exact ⟨hid, hrecord, hv.transactions _ _ hreceipt⟩

theorem loadMultiTransaction_ends (hv : v.Bounded) {operationId : String}
    {records : List RecordKey} (hid : operationId.utf8ByteSize ≤ maxIdempotencyKeyBytes) :
    Ends (fun r => (∀ receipt ∈ r.1, receipt.Bounded) ∧ r.2.Bounded) StoreError.Bounded
      (loadMultiTransaction v operationId records) := by
  rw [loadMultiTransaction]
  refine ends_unless (fun _ => trivial) fun _ => ?_
  cases hreceipt : v.multiTransactions operationId with
  | none => exact ⟨fun receipt hmem => (by cases hmem), hv⟩
  | some receipt =>
    refine ends_unless (fun _ => text_bounded hid (by decide)) fun _ => ⟨fun r hr => ?_, hv⟩
    obtain rfl := Option.some.inj hr
    obtain ⟨hrecords, hresult⟩ := hv.multiTransactions _ _ hreceipt
    exact ⟨hid, hrecords, hresult⟩

theorem loadTrade_ends (hv : v.Bounded) (tradeId : String) :
    Ends (fun r => (∀ trade ∈ r.1, trade.Bounded) ∧ r.2.Bounded) StoreError.Bounded
      (loadTrade v tradeId) := by
  rw [loadTrade]
  exact ends_unless (fun _ => trivial) fun _ =>
    ⟨fun trade htrade => (hv.trades tradeId trade htrade).1, hv⟩

theorem loadTradeTransaction_ends (hv : v.Bounded) {operationId tradeId : String}
    (hid : operationId.utf8ByteSize ≤ maxIdempotencyKeyBytes) :
    Ends (fun r => (∀ receipt ∈ r.1, receipt.Bounded) ∧ r.2.Bounded) StoreError.Bounded
      (loadTradeTransaction v operationId tradeId) := by
  rw [loadTradeTransaction]
  refine ends_unless (fun _ => trivial) fun _ => ends_unless (fun _ => trivial) fun _ => ?_
  cases hstored : v.tradeTransactions operationId with
  | none => exact ⟨fun receipt hmem => (by cases hmem), hv⟩
  | some stored =>
    refine ends_unless (fun _ => text_bounded hid (by decide)) fun _ => ⟨fun r hr => ?_, hv⟩
    obtain rfl := Option.some.inj hr
    exact hv.tradeTransactions _ _ hstored

/-- Every entry of a batch has its own outcome. -/
theorem entries_bounded {ρ α : Type} {f : StoreView D → ρ → Except StoreError (α × StoreView D)}
    {P : ρ → Prop} (hf : ∀ v r, v.Bounded → P r → Ends (fun a => a.2.Bounded) StoreError.Bounded
      (f v r)) : ∀ {requests : List ρ} {v : StoreView D}, v.Bounded → (∀ r ∈ requests, P r) →
      (entries f v requests).1.length = requests.length ∧
        (∀ error, .error error ∈ (entries f v requests).1 → BackendError.Bounded error) ∧
        (entries f v requests).2.Bounded
  | [], v, hv, _ => ⟨rfl, fun error hmem => (by cases hmem), hv⟩
  | r :: rest, v, hv, h => by
    obtain ⟨hr, hrest⟩ := List.forall_mem_cons.mp h
    have hfirst := hf v r hv hr
    rw [entries]
    cases hcall : f v r with
    | ok a =>
      rw [hcall] at hfirst
      obtain ⟨hlength, herrors, hlast⟩ := entries_bounded hf hfirst hrest
      refine ⟨congrArg (· + 1) hlength, fun error hmem => ?_, hlast⟩
      exact herrors error ((List.mem_cons.mp hmem).resolve_left (by simp))
    | error e =>
      rw [hcall] at hfirst
      obtain ⟨hlength, herrors, hlast⟩ := entries_bounded hf hv hrest
      refine ⟨congrArg (· + 1) hlength, fun error hmem => ?_, hlast⟩
      rcases List.mem_cons.mp hmem with heq | hmem
      · obtain rfl := Except.error.inj heq
        exact hfirst
      · exact herrors error hmem

variable [DecidableEq D]

theorem enqueueSnapshot_ends (hv : v.Bounded) {request : SnapshotWrite} (h : request.Bounded) :
    Ends (fun r => r.2.Bounded) StoreError.Bounded (enqueueSnapshot cfg v request) := by
  rw [enqueueSnapshot]
  exact ends_unless (fun _ => h.record) fun _ => (save_ends hv h).bind fun r hr => hr

/-- **One call.**  On a bounded content a bounded call is answered with bounded values, or
fails with a short text, and leaves a bounded content. -/
theorem call_ends (hv : v.Bounded) {c : BackendCall} (h : c.Bounded)
    {batch : List (Option SnapshotEnvelope) → Prop}
    (hbatch : ∀ records, c = .loadMulti records ∨ c = .loadCachedMulti records →
      batch (records.map v.snapshots)) :
    Ends (fun r => c.Answers batch r.1 ∧ r.2.Bounded) StoreError.Bounded (call cfg v c) := by
  cases c with
  | load record | loadCached record =>
    exact ⟨fun s hs => (hv.snapshots record s hs).1, hv⟩
  | loadMulti records => exact ⟨hbatch records (Or.inl rfl), hv⟩
  | loadCachedMulti records => exact ⟨hbatch records (Or.inr rfl), hv⟩
  | save request => exact (save_ends hv h).mono fun r hr => ⟨trivial, hr⟩
  | enqueueSnapshot request => exact (enqueueSnapshot_ends hv h).mono fun r hr => ⟨trivial, hr⟩
  | saveMulti requests =>
    obtain ⟨hlength, herrors, hlast⟩ := entries_bounded (f := Flat.save cfg)
      (fun v r hv hr => save_ends hv hr) hv h.2
    exact ⟨⟨hlength.trans_le h.1, herrors⟩, hlast⟩
  | enqueueMultiSnapshot requests =>
    obtain ⟨hlength, herrors, hlast⟩ := entries_bounded (f := Flat.enqueueSnapshot cfg)
      (fun v r hv hr => enqueueSnapshot_ends hv hr) hv h.2
    exact ⟨⟨hlength.trans_le h.1, herrors⟩, hlast⟩
  | applyTransaction request => exact applyTransaction_ends hv h
  | commitRecords request effects => exact commitRecords_ends hv h.1 h.2
  | applyMultiTransaction request =>
    refine commitRecords_ends hv h ⟨fun append hmem => ?_, fun event hmem => ?_⟩
    · cases hmem
    · cases hmem
  | applyTradeTransaction request => exact applyTradeTransaction_ends hv h
  | loadTransaction operationId record => exact loadTransaction_ends hv h.1 h.2
  | loadMultiTransaction operationId records => exact loadMultiTransaction_ends hv h
  | loadTrade tradeId => exact loadTrade_ends hv tradeId
  | loadTradeTransaction operationId tradeId => exact loadTradeTransaction_ends hv h

end Flat

end DbProxy
