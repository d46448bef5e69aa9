/-
Responses as they are written to a connection (`dbproxy.proto`, the messages a server sends).

Each message is encoded field by field with the numbers of the schema.  The texts, payloads
and collections of a response come from requests that the server accepted, and those are
bounded: `Bounded` says so of each value, and its encoding is then bounded too.  Only a
batch read has no such bound, since it carries as many payloads as it was asked for.

* `RpcFailure.length_encode_le` and its siblings — one message;
* `ResponseBody.Modest`, `length_frame_le` — every response but that of a batch read;
* `length_batchFrame` — the exact length for a batch read.
-/
import DbProxy.Dispatch
import DbProxy.Protobuf
import DbProxy.SdkTradeAgreement

namespace DbProxy

open Protobuf

/-! ### Encodings -/

/-- The numbers of the schema. -/
def WriteDisposition.toNat : WriteDisposition → ℕ
  | applied => 1
  | duplicate => 2

def RpcFailure.encode (error : RpcFailure) : Bytes :=
  numberField 1 error.code.toNat ++ textField 2 error.publicMessage ++
    optionalNumber 3 error.actualRevision

def WireRecordKey.encode (value : WireRecordKey) : Bytes :=
  textField 1 value.ns ++ textField 2 value.key

def WireSnapshotEnvelope.encode (value : WireSnapshotEnvelope) : Bytes :=
  messageField 1 (value.record.map (·.encode)) ++ textField 2 value.schema ++
    numberField 3 value.schemaVersion ++ numberField 4 value.revision ++
    bytesField 5 value.payload ++ numberField 6 value.updatedAtUnixMs

def SaveSnapshotResponse.encode (value : SaveSnapshotResponse) : Bytes :=
  numberField 1 value.disposition.toNat ++ numberField 2 value.revision

def SaveMultiSnapshotEntry.encode (value : SaveMultiSnapshotEntry) : Bytes :=
  messageField 1 (value.result.map (·.encode)) ++ messageField 2 (value.error.map (·.encode))

def EnqueueMultiSnapshotEntry.encode (value : EnqueueMultiSnapshotEntry) : Bytes :=
  boolField 1 value.accepted ++ messageField 2 (value.error.map (·.encode))

def ApplyTransactionResponse.encode (value : ApplyTransactionResponse) : Bytes :=
  numberField 1 value.disposition.toNat ++ numberField 2 value.newRevision ++
    bytesField 3 value.result

def WireTransactionReceipt.encode (value : WireTransactionReceipt) : Bytes :=
  textField 1 value.operationId ++ messageField 2 (value.record.map (·.encode)) ++
    numberField 3 value.newRevision ++ bytesField 4 value.result

def MultiTransactionRecordReceipt.encode (value : MultiTransactionRecordReceipt) : Bytes :=
  messageField 1 (value.record.map (·.encode)) ++ numberField 2 value.newRevision

def ApplyMultiTransactionResponse.encode (value : ApplyMultiTransactionResponse) : Bytes :=
  numberField 1 value.disposition.toNat ++ repeatedField 2 (value.records.map (·.encode)) ++
    bytesField 3 value.result

def MultiTransactionReceipt.encode (value : MultiTransactionReceipt) : Bytes :=
  textField 1 value.operationId ++ repeatedField 2 (value.records.map (·.encode)) ++
    bytesField 3 value.result

def WireTradeEnvelope.encode (value : WireTradeEnvelope) : Bytes :=
  textField 1 value.tradeId ++ numberField 2 value.version ++
    numberField 3 value.state.toWire.toUInt32.toNat ++ bytesField 4 value.payload ++
    numberField 5 value.updatedAtUnixMs

def WireTradeReceipt.encode (value : WireTradeReceipt) : Bytes :=
  textField 1 value.operationId ++ textField 2 value.tradeId ++
    numberField 3 value.newTradeVersion ++ numberField 4 value.state.toWire.toUInt32.toNat ++
    repeatedField 5 (value.records.map (·.encode)) ++
    repeatedField 6 (value.ledgerPostingIds.map utf8) ++
    repeatedField 7 (value.outboxEventIds.map utf8) ++ bytesField 8 value.result

/-- An entry of `LoadMultiSnapshotResponse`. -/
def encodeSnapshotEntry (snapshot : Option WireSnapshotEnvelope) : Bytes :=
  messageField 1 (snapshot.map (·.encode))

/-- The field number of a response and its message. -/
def ResponseBody.message : ResponseBody → ℕ × Bytes
  | loadSnapshot snapshot => (10, messageField 1 (snapshot.map (·.encode)))
  | saveSnapshot response => (11, response.encode)
  | enqueueSnapshot accepted => (12, boolField 1 accepted)
  | applyTransaction response => (13, response.encode)
  | loadTransaction receipt => (14, messageField 1 (receipt.map (·.encode)))
  | applyMultiTransaction response => (15, response.encode)
  | loadMultiTransaction receipt => (16, messageField 1 (receipt.map (·.encode)))
  | loadMultiSnapshot entries => (17, repeatedField 1 (entries.map encodeSnapshotEntry))
  | saveMultiSnapshot entries => (18, repeatedField 1 (entries.map (·.encode)))
  | enqueueMultiSnapshot entries => (19, repeatedField 1 (entries.map (·.encode)))
  | applyTradeTransaction disposition receipt =>
    (20, numberField 1 disposition.toNat ++ messageField 2 (receipt.map (·.encode)))
  | loadTrade trade => (21, messageField 1 (trade.map (·.encode)))
  | loadTradeTransaction receipt => (22, messageField 1 (receipt.map (·.encode)))
  | commitRecords response => (23, response.encode)

def ResponseEnvelope.encode (response : ResponseEnvelope) : Bytes :=
  numberField 1 response.rpcId.toNat ++ messageField 2 (response.error.map (·.encode)) ++
    response.body.elim [] fun body => delimited body.message.1 body.message.2

/-- `wire::ServerFrame` with a response. -/
def ResponseEnvelope.encodeFrame (response : ResponseEnvelope) : Bytes :=
  delimited 2 response.encode

/-! ### Bounded values -/

/-- `DEFAULT_MAX_FRAME_BYTES` and `DEFAULT_MAX_PAYLOAD_BYTES`. -/
def defaultMaxFrameBytes : ℕ := 8 * 1024 * 1024
def defaultMaxPayloadBytes : ℕ := 1024 * 1024

structure SnapshotEnvelope.Bounded (snapshot : SnapshotEnvelope) : Prop where
  record : snapshot.record.Bounded
  schema : snapshot.schema.utf8ByteSize ≤ maxSchemaBytes
  payload : snapshot.payload.length ≤ defaultMaxPayloadBytes

structure TradeEnvelope.Bounded (trade : TradeEnvelope) : Prop where
  tradeId : trade.tradeId.utf8ByteSize ≤ maxTradeIdBytes
  payload : trade.payload.length ≤ defaultMaxPayloadBytes

/-- The records of one transaction. -/
structure BoundedRecords (records : List TransactionRecordReceipt) : Prop where
  count : records.length ≤ maxTransactionRecords
  record : ∀ receipt ∈ records, receipt.record.Bounded

structure TransactionReceipt.Bounded (receipt : TransactionReceipt) : Prop where
  operationId : receipt.operationId.utf8ByteSize ≤ maxIdempotencyKeyBytes
  record : receipt.record.Bounded
  result : receipt.result.length ≤ defaultMaxPayloadBytes

structure MultiRecordTransactionReceipt.Bounded (receipt : MultiRecordTransactionReceipt) :
    Prop where
  operationId : receipt.operationId.utf8ByteSize ≤ maxIdempotencyKeyBytes
  records : BoundedRecords receipt.records
  result : receipt.result.length ≤ defaultMaxPayloadBytes

structure TradeReceipt.Bounded (receipt : TradeReceipt) : Prop where
  operationId : receipt.operationId.utf8ByteSize ≤ maxIdempotencyKeyBytes
  tradeId : receipt.tradeId.utf8ByteSize ≤ maxTradeIdBytes
  records : BoundedRecords receipt.records
  postings : receipt.ledgerPostingIds.length ≤ maxLedgerPostings
  postingIds : ∀ id ∈ receipt.ledgerPostingIds, id.utf8ByteSize ≤ maxLedgerFieldBytes
  events : receipt.outboxEventIds.length ≤ maxOutboxEvents
  eventIds : ∀ id ∈ receipt.outboxEventIds, id.utf8ByteSize ≤ maxIdempotencyKeyBytes
  result : receipt.result.length ≤ defaultMaxPayloadBytes

/-- The characters that a public text of a failure may have. -/
def maxMessageChars : ℕ := 10000

def RpcFailure.Bounded (failure : RpcFailure) : Prop :=
  failure.publicMessage.length ≤ maxMessageChars

/-! ### Bounded messages -/

theorem RpcFailure.length_encode_le {failure : RpcFailure} (h : failure.Bounded) :
    failure.encode.length ≤ 40060 := by
  have hcode := length_numberField_le 1 failure.code.toNat
  have htext := length_textField_le 2 failure.publicMessage
  have hsize := (Utf16.utf8ByteSize_bounds failure.publicMessage).2
  have hrevision := length_optionalNumber_le 3 failure.actualRevision
  simp only [RpcFailure.Bounded, maxMessageChars] at h
  simp only [encode, List.length_append]
  omega

theorem RpcFailure.length_field_le {failure : RpcFailure} (h : failure.Bounded) (number : ℕ) :
    (messageField number ((some failure).map (·.encode))).length ≤ 40080 :=
  length_messageField_le number fun body hbody => by
    obtain rfl := Option.some.inj hbody
    exact RpcFailure.length_encode_le h

theorem RecordKey.length_encode_le {record : RecordKey} (h : record.Bounded) :
    record.toWire.encode.length ≤ 680 := by
  have hns := (length_textField_le 1 record.ns).trans (Nat.add_le_add_right h.ns 20)
  have hkey := (length_textField_le 2 record.key).trans (Nat.add_le_add_right h.key 20)
  rw [WireRecordKey.encode, List.length_append]
  exact Nat.add_le_add hns hkey

/-- The record of a message. -/
theorem RecordKey.length_field_le {record : RecordKey} (h : record.Bounded) (number : ℕ) :
    (messageField number ((some record.toWire).map (·.encode))).length ≤ 700 :=
  length_messageField_le number fun body hbody => by
    obtain rfl := Option.some.inj hbody
    exact RecordKey.length_encode_le h

theorem SnapshotEnvelope.length_encode_le {snapshot : SnapshotEnvelope} (h : snapshot.Bounded) :
    snapshot.toWire.encode.length ≤ defaultMaxPayloadBytes + 1056 := by
  have hrecord := RecordKey.length_field_le h.record 1
  have hschema := (length_textField_le 2 snapshot.schema).trans (Nat.add_le_add_right h.schema 20)
  have hversion := length_numberField_le 3 snapshot.schemaVersion
  have hrevision := length_numberField_le 4 snapshot.revision
  have hpayload :=
    (length_bytesField_le 5 snapshot.payload).trans (Nat.add_le_add_right h.payload 20)
  have htime := length_numberField_le 6 snapshot.updatedAtUnixMs
  simp only [maxSchemaBytes] at hschema
  simp only [WireSnapshotEnvelope.encode, SnapshotEnvelope.toWire, List.length_append]
  omega

theorem TradeEnvelope.length_encode_le {trade : TradeEnvelope} (h : trade.Bounded) :
    trade.toWire.encode.length ≤ defaultMaxPayloadBytes + 356 := by
  have hid := (length_textField_le 1 trade.tradeId).trans (Nat.add_le_add_right h.tradeId 20)
  have hversion := length_numberField_le 2 trade.version
  have hstate := length_numberField_le 3 trade.state.toWire.toUInt32.toNat
  have hpayload := (length_bytesField_le 4 trade.payload).trans (Nat.add_le_add_right h.payload 20)
  have htime := length_numberField_le 5 trade.updatedAtUnixMs
  simp only [maxTradeIdBytes] at hid
  simp only [WireTradeEnvelope.encode, TradeEnvelope.toWire, List.length_append]
  omega

theorem TransactionReceipt.length_encode_le {receipt : TransactionReceipt} (h : receipt.Bounded) :
    (transactionReceipt receipt).encode.length ≤ defaultMaxPayloadBytes + 1016 := by
  have hid :=
    (length_textField_le 1 receipt.operationId).trans (Nat.add_le_add_right h.operationId 20)
  have hrecord := RecordKey.length_field_le h.record 2
  have hrevision := length_numberField_le 3 receipt.newRevision
  have hresult := (length_bytesField_le 4 receipt.result).trans (Nat.add_le_add_right h.result 20)
  simp only [maxIdempotencyKeyBytes] at hid
  simp only [WireTransactionReceipt.encode, transactionReceipt, List.length_append]
  omega

/-- The records of a transaction, in any of the messages that list them. -/
theorem BoundedRecords.length_field_le {records : List TransactionRecordReceipt}
    (h : BoundedRecords records) (number : ℕ) :
    (repeatedField number ((records.map multiTransactionRecordReceipt).map (·.encode))).length ≤
      maxTransactionRecords * 740 := by
  have hbodies : ∀ body ∈ (records.map multiTransactionRecordReceipt).map (·.encode),
      body.length ≤ 720 := by
    intro body hbody
    rw [List.map_map] at hbody
    obtain ⟨receipt, hreceipt, rfl⟩ := List.mem_map.mp hbody
    have hrecord := RecordKey.length_field_le (h.record receipt hreceipt) 1
    have hrevision := length_numberField_le 2 receipt.newRevision
    simp only [Function.comp_apply, MultiTransactionRecordReceipt.encode,
      multiTransactionRecordReceipt, List.length_append]
    omega
  refine (length_repeatedField_le number hbodies).trans ?_
  rw [List.length_map, List.length_map]
  exact Nat.mul_le_mul_right 740 h.count

theorem MultiRecordTransactionReceipt.length_encode_le {receipt : MultiRecordTransactionReceipt}
    (h : receipt.Bounded) :
    (multiTransactionReceipt receipt).encode.length ≤ defaultMaxPayloadBytes + 189736 := by
  have hid :=
    (length_textField_le 1 receipt.operationId).trans (Nat.add_le_add_right h.operationId 20)
  have hrecords := h.records.length_field_le 2
  have hresult := (length_bytesField_le 3 receipt.result).trans (Nat.add_le_add_right h.result 20)
  simp only [maxIdempotencyKeyBytes, maxTransactionRecords] at hid hrecords
  simp only [MultiTransactionReceipt.encode, multiTransactionReceipt, List.length_append]
  omega

theorem length_texts_le {texts : List String} {bound : ℕ}
    (h : ∀ text ∈ texts, text.utf8ByteSize ≤ bound) (number : ℕ) :
    (repeatedField number (texts.map utf8)).length ≤ texts.length * (bound + 20) := by
  have hbodies : ∀ body ∈ texts.map utf8, body.length ≤ bound := by
    intro body hbody
    obtain ⟨text, htext, rfl⟩ := List.mem_map.mp hbody
    rw [length_utf8]
    exact h text htext
  exact (length_repeatedField_le number hbodies).trans_eq (by rw [List.length_map])

theorem TradeReceipt.length_encode_le {receipt : TradeReceipt} (h : receipt.Bounded) :
    receipt.toWire.encode.length ≤ defaultMaxPayloadBytes + 349028 := by
  have hid :=
    (length_textField_le 1 receipt.operationId).trans (Nat.add_le_add_right h.operationId 20)
  have htrade := (length_textField_le 2 receipt.tradeId).trans (Nat.add_le_add_right h.tradeId 20)
  have hversion := length_numberField_le 3 receipt.newTradeVersion
  have hstate := length_numberField_le 4 receipt.state.toWire.toUInt32.toNat
  have hrecords := h.records.length_field_le 5
  have hpostings :=
    (length_texts_le h.postingIds 6).trans (Nat.mul_le_mul_right _ h.postings)
  have hevents := (length_texts_le h.eventIds 7).trans (Nat.mul_le_mul_right _ h.events)
  have hresult := (length_bytesField_le 8 receipt.result).trans (Nat.add_le_add_right h.result 20)
  simp only [maxIdempotencyKeyBytes, maxTradeIdBytes, maxTransactionRecords, maxLedgerPostings,
    maxLedgerFieldBytes, maxOutboxEvents] at hid htrade hrecords hpostings hevents
  simp only [WireTradeReceipt.encode, TradeReceipt.toWire, List.length_append]
  omega

/-! ### Bounded responses -/

/-- A message that leaves half of a frame free. -/
def ResponseBody.Modest (body : ResponseBody) : Prop :=
  body.message.2.length ≤ defaultMaxFrameBytes / 2

/-- The entries of a batch of writes. -/
theorem length_entries_le {α : Type} {encode : α → Bytes} {entries : List α}
    (hcount : entries.length ≤ maxBatchSnapshotWrites)
    (h : ∀ entry ∈ entries, (encode entry).length ≤ 40140) (number : ℕ) :
    (repeatedField number (entries.map encode)).length ≤ maxBatchSnapshotWrites * 40160 := by
  have hbodies : ∀ body ∈ entries.map encode, body.length ≤ 40140 := by
    intro body hbody
    obtain ⟨entry, hentry, rfl⟩ := List.mem_map.mp hbody
    exact h entry hentry
  refine (length_repeatedField_le number hbodies).trans ?_
  rw [List.length_map]
  exact Nat.mul_le_mul_right 40160 hcount

/-- What a handler may end with, apart from the response of a batch read. -/
def Restrained : Except RpcFailure ResponseBody → Prop
  | .ok body => body.Modest
  | .error failure => failure.Bounded

theorem length_frame_le {result : Except RpcFailure ResponseBody} (h : Restrained result)
    (rpcId : UInt64) :
    (responseEnvelope rpcId result).encodeFrame.length ≤ defaultMaxFrameBytes := by
  have hframe := length_delimited_le 2 (responseEnvelope rpcId result).encode
  have hid := length_numberField_le 1 rpcId.toNat
  cases result with
  | ok body =>
    have hbody := length_delimited_le body.message.1 body.message.2
    have hmodest : body.message.2.length ≤ defaultMaxFrameBytes / 2 := h
    simp only [responseEnvelope, ResponseEnvelope.encodeFrame, ResponseEnvelope.encode,
      Option.map_none, Option.elim_some, messageField, Option.elim_none, List.append_nil,
      List.length_append, defaultMaxFrameBytes] at hframe hmodest ⊢
    omega
  | error failure =>
    have herror : (messageField 2 (some failure.encode)).length ≤ 40080 :=
      RpcFailure.length_field_le h 2
    simp only [responseEnvelope, ResponseEnvelope.encodeFrame, ResponseEnvelope.encode,
      Option.map_some, Option.elim_none, List.append_nil, List.length_append, defaultMaxFrameBytes] at hframe ⊢
    omega

/-! ### Batch reads -/

/-- The bytes that a stored snapshot takes in a response. -/
def snapshotBytes (s : SnapshotEnvelope) : ℕ :=
  delimitedBytes 1 (contentBytes 1 s.record.ns.utf8ByteSize +
      contentBytes 2 s.record.key.utf8ByteSize) +
    contentBytes 2 s.schema.utf8ByteSize + (numberField 3 s.schemaVersion).length +
    (numberField 4 s.revision).length + contentBytes 5 s.payload.length +
    (numberField 6 s.updatedAtUnixMs).length

theorem length_snapshot (s : SnapshotEnvelope) : s.toWire.encode.length = snapshotBytes s := by
  simp only [WireSnapshotEnvelope.encode, SnapshotEnvelope.toWire, Option.map_some, messageField,
    Option.elim_some, List.length_append, length_delimited, WireRecordKey.encode,
    RecordKey.toWire, length_textField, length_bytesField, snapshotBytes]

/-- The bytes of an entry: a record that is not found has an empty one. -/
def entryBytes (snapshot : Option SnapshotEnvelope) : ℕ :=
  delimitedBytes 1 (snapshot.elim 0 fun s => delimitedBytes 1 (snapshotBytes s))

/-- The bytes of the response of a batch read that finds these snapshots. -/
def batchFrameBytes (rpcId : UInt64) (snapshots : List (Option SnapshotEnvelope)) : ℕ :=
  delimitedBytes 2 ((numberField 1 rpcId.toNat).length +
    delimitedBytes 17 (snapshots.map entryBytes).sum)

/-- The response of a batch read that finds these snapshots. -/
def batchResponse (snapshots : List (Option SnapshotEnvelope)) : ResponseBody :=
  .loadMultiSnapshot (snapshots.map (Option.map (·.toWire)))

theorem length_snapshotEntry (snapshot : Option SnapshotEnvelope) :
    (delimited 1 (encodeSnapshotEntry (snapshot.map (·.toWire)))).length = entryBytes snapshot := by
  rw [length_delimited, entryBytes]
  cases snapshot with
  | none => rfl
  | some s =>
    rw [encodeSnapshotEntry, Option.map_some, Option.map_some, messageField, Option.elim_some,
      length_delimited, length_snapshot, Option.elim_some]

theorem length_batchFrame (rpcId : UInt64) (snapshots : List (Option SnapshotEnvelope)) :
    (responseEnvelope rpcId (.ok (batchResponse snapshots))).encodeFrame.length =
      batchFrameBytes rpcId snapshots := by
  have hentries : (repeatedField 1 ((snapshots.map (Option.map (·.toWire))).map
      encodeSnapshotEntry)).length = (snapshots.map entryBytes).sum := by
    rw [repeatedField, List.length_flatMap, List.map_map, List.map_map]
    exact congrArg List.sum (List.map_congr_left fun snapshot _ => length_snapshotEntry snapshot)
  simp only [responseEnvelope, batchResponse, ResponseEnvelope.encodeFrame, ResponseEnvelope.encode,
    Option.map_none, messageField, Option.elim_none, List.append_nil, Option.elim_some,
    ResponseBody.message, length_delimited, List.length_append, hentries]
  rfl

end DbProxy
