/-
What a handler passes to the backend and what it answers, in bytes.

A request arrives in one frame, so its byte strings are no longer than a frame
(`RequestBody.Framed`).  The conversions and checks of a handler bound what it passes on,
and as long as the replies are bounded its response fits a frame.  The exception is a batch
read, whose response fits only if the snapshots do (`BatchFits`).

* `ProtocolError.Bounded`, `toCore_ends` and its siblings — the conversions;
* `dispatchBody_meets` — every handler.
-/
import DbProxy.StoreLimits

namespace DbProxy

open Text Checks Interaction

/-! ### Requests -/

/-- The byte strings of a request. -/
def RequestBody.byteStrings : RequestBody → List Bytes
  | loadSnapshot _ | loadTransaction _ | loadMultiTransaction _ | loadMultiSnapshot _
  | loadTrade _ | loadTradeTransaction _ => []
  | saveSnapshot request => [request.payload]
  | enqueueSnapshot request => request.write.toList.map (·.payload)
  | saveMultiSnapshot request => request.writes.map (·.payload)
  | enqueueMultiSnapshot request => request.writes.map (·.payload)
  | applyTransaction request => [request.payload, request.result]
  | applyMultiTransaction request => request.result :: request.writes.map (·.payload)
  | commitRecords request => request.result :: (request.writes.map (·.payload) ++
      request.appends.map (·.payload) ++ request.outboxEvents.map (·.payload))
  | applyTradeTransaction request => request.result :: (request.transition.toList.map (·.payload) ++
      request.writes.map (·.payload) ++ request.ledgerPostings.map (·.metadata) ++
      request.outboxEvents.map (·.payload))

/-- A part of a frame is no longer than the frame. -/
def RequestBody.Framed (body : Option RequestBody) : Prop :=
  ∀ request ∈ body, ∀ bytes ∈ request.byteStrings, bytes.length ≤ defaultMaxFrameBytes

instance (body : Option RequestBody) : Decidable (RequestBody.Framed body) :=
  Option.decidableForallMem body

/-! ### Errors of the conversions -/

def ProtocolError.Bounded : ProtocolError → Prop
  | .core error => error.Bounded
  | .missingField field | .invalidField field => field.length ≤ 100
  | .invalidFrameLength _ _ => True

theorem RpcFailure.fromProtocol_bounded (plain : Char → Bool) {error : ProtocolError}
    (h : error.Bounded) : (RpcFailure.fromProtocol plain error).Bounded := by
  cases error with
  | core error => exact RpcFailure.fromStore_bounded plain h
  | missingField field => exact (length_word_append_le (by decide) h).trans (by decide)
  | invalidField field => exact (length_word_append_le (by decide) h).trans (by decide)
  | invalidFrameLength length maximum => exact length_word_le (by decide)

/-! ### Conversions -/

theorem validateText_ends {value : String} {field : List Char} {maximum : ℕ}
    (hfield : field.length ≤ 100) : Ends (fun _ => value.utf8ByteSize ≤ maximum)
      ProtocolError.Bounded (validateText value (String.ofList field) maximum) := by
  rw [validateText]
  refine ends_check (fun _ => length_word_le hfield) fun h => ?_
  simp only [Bool.or_eq_true, decide_eq_true_eq, not_or, not_lt] at h
  exact h.2

theorem requireField_ends {α β : Type} {field : List Char} {convert : α → Except ProtocolError β}
    {value : Option α} {good : β → Prop} (hfield : field.length ≤ 100)
    (h : ∀ a ∈ value, Ends good ProtocolError.Bounded (convert a)) :
    Ends good ProtocolError.Bounded (requireField (String.ofList field) convert value) := by
  cases value with
  | none => exact length_word_le hfield
  | some a => exact h a rfl

theorem boundedField_ends {α : Type} {field : List Char} {maximum : ℕ} {l : List α}
    (hfield : field.length ≤ 100) : Ends (fun _ => l.length ≤ maximum) ProtocolError.Bounded
      (boundedField (String.ofList field) maximum l) :=
  ends_check (fun _ => length_word_le hfield) not_lt.mp

theorem WireRecordKey.toCore_ends (value : WireRecordKey) :
    Ends RecordKey.Bounded ProtocolError.Bounded value.toCore := by
  rw [WireRecordKey.toCore]
  refine (validateText_ends (by decide)).bind fun _ hns => (validateText_ends (by decide)).bind
    fun _ hkey => Ends.mapError ?_
  rw [RecordKey.new]
  split_ifs
  · exact (by decide : "namespace is empty".utf8ByteSize ≤ 512)
  · exact (by decide : "key is empty".utf8ByteSize ≤ 512)
  · exact ⟨hns, hkey⟩

theorem WireSaveSnapshotRequest.toSnapshotWrite_ends (value : WireSaveSnapshotRequest) :
    Ends (fun write => write.payload = value.payload ∧
        (write.payload.length ≤ defaultMaxPayloadBytes → write.Bounded))
      ProtocolError.Bounded value.toSnapshotWrite := by
  rw [WireSaveSnapshotRequest.toSnapshotWrite]
  refine (validateText_ends (by decide)).bind fun _ hid => (validateText_ends (by decide)).bind
    fun _ hschema => ?_
  cases value.record with
  | none => exact length_word_le (by decide)
  | some record =>
    refine record.toCore_ends.bind fun record hrecord => ⟨rfl, fun hpayload => ?_⟩
    refine ⟨hid, hrecord, hschema, hpayload, fun revision hrevision => ?_⟩
    obtain ⟨word, -, rfl⟩ := Option.map_eq_some_iff.mp hrevision
    exact word.toNat_lt

theorem WireApplyTransactionRequest.toTransactionalWrite_ends
    (value : WireApplyTransactionRequest) :
    Ends (fun write => write.payload = value.payload ∧ write.result = value.result ∧
        (write.payload.length ≤ defaultMaxPayloadBytes →
          write.result.length ≤ defaultMaxPayloadBytes → write.Bounded))
      ProtocolError.Bounded value.toTransactionalWrite := by
  rw [WireApplyTransactionRequest.toTransactionalWrite]
  refine (validateText_ends (by decide)).bind fun _ hid => (validateText_ends (by decide)).bind
    fun _ hschema => (requireField_ends (by decide) fun record _ => record.toCore_ends).bind
    fun record hrecord => ⟨rfl, rfl, fun hpayload hresult => ?_⟩
  exact ⟨hid, hrecord, hschema, hpayload, hresult, value.expectedRevision.toNat_lt⟩

theorem WireTransactionalRecordWrite.toCore_ends (value : WireTransactionalRecordWrite) :
    Ends (fun write => write.payload = value.payload ∧
        (write.payload.length ≤ defaultMaxPayloadBytes → write.Bounded))
      ProtocolError.Bounded value.toCore := by
  rw [WireTransactionalRecordWrite.toCore]
  refine (validateText_ends (by decide)).bind fun _ hschema =>
    (requireField_ends (by decide) fun record _ => record.toCore_ends).bind fun record hrecord =>
    ⟨rfl, fun hpayload => ?_⟩
  exact ⟨hrecord, hschema, hpayload, value.expectedRevision.toNat_lt⟩

theorem WireAppendRecord.toCore_ends (value : WireAppendRecord) :
    Ends (fun append => append.payload = value.payload ∧ append.record.Bounded)
      ProtocolError.Bounded value.toCore := by
  rw [WireAppendRecord.toCore]
  exact (validateText_ends (by decide)).bind fun _ _ =>
    (requireField_ends (by decide) fun record _ => record.toCore_ends).bind fun record hrecord =>
    ⟨rfl, hrecord⟩

theorem WireOutboxEvent.toCore_ends (value : WireOutboxEvent) :
    Ends (fun event => event.payload = value.payload ∧
        event.eventId.utf8ByteSize ≤ maxIdempotencyKeyBytes)
      ProtocolError.Bounded value.toCore := by
  rw [WireOutboxEvent.toCore]
  exact (validateText_ends (by decide)).bind fun _ hid => (validateText_ends (by decide)).bind
    fun _ _ => (validateText_ends (by decide)).bind fun _ _ =>
    ends_check (fun _ => length_word_le (by decide)) fun _ => ⟨rfl, hid⟩

theorem coreTradeState_ends (value : Int32) :
    Ends (fun _ => True) ProtocolError.Bounded (coreTradeState value) := by
  rw [coreTradeState]
  split_ifs
  iterate 4 exact trivial
  exact length_word_le (by decide)

theorem WireTradeTransition.toCore_ends (value : WireTradeTransition) :
    Ends (fun transition => transition.payload = value.payload ∧
        transition.tradeId.utf8ByteSize ≤ maxTradeIdBytes ∧ transition.expectedVersion < 2 ^ 64)
      ProtocolError.Bounded value.toCore := by
  have hexpected : Ends (fun _ => True) ProtocolError.Bounded
      (value.expectedState.mapM coreTradeState) := by
    cases value.expectedState with
    | none => exact trivial
    | some state => exact (coreTradeState_ends state).bind fun _ _ => trivial
  rw [WireTradeTransition.toCore]
  exact (validateText_ends (by decide)).bind fun _ hid => hexpected.bind fun _ _ =>
    (coreTradeState_ends value.nextState).bind fun _ _ => ⟨rfl, hid, value.expectedVersion.toNat_lt⟩

theorem WireLedgerPosting.toCore_ends (value : WireLedgerPosting) :
    Ends (fun posting => posting.postingId.utf8ByteSize ≤ maxLedgerFieldBytes ∧
        posting.asset.utf8ByteSize ≤ maxLedgerFieldBytes)
      ProtocolError.Bounded value.toCore := by
  rw [WireLedgerPosting.toCore]
  exact (validateText_ends (by decide)).bind fun _ hid => (validateText_ends (by decide)).bind
    fun _ _ => (validateText_ends (by decide)).bind fun _ hasset => ⟨hid, hasset⟩

theorem toCore_writes_ends {values : List WireTransactionalRecordWrite}
    (h : ∀ value ∈ values, value.payload.length ≤ defaultMaxPayloadBytes)
    (hcount : values.length ≤ maxTransactionRecords) :
    Ends BoundedWrites ProtocolError.Bounded
      (values.mapM WireTransactionalRecordWrite.toCore) :=
  (ends_mapM fun value hvalue => value.toCore_ends.mono fun _ hwrite =>
    hwrite.2 (hwrite.1 ▸ h value hvalue)).mono fun _ hwrites =>
      ⟨hwrites.1.trans_le hcount, hwrites.2⟩

theorem WireApplyTradeTransactionRequest.toCore_ends {value : WireApplyTradeTransactionRequest}
    (htransition : ∀ transition ∈ value.transition,
      transition.payload.length ≤ defaultMaxPayloadBytes)
    (hwrites : ∀ write ∈ value.writes, write.payload.length ≤ defaultMaxPayloadBytes)
    (hresult : value.result.length ≤ defaultMaxPayloadBytes) :
    Ends TradeTransaction.Bounded ProtocolError.Bounded value.toCore := by
  have hpart : ∀ transition ∈ value.transition, Ends
      (fun t : TradeTransition => t.payload.length ≤ defaultMaxPayloadBytes ∧
        t.tradeId.utf8ByteSize ≤ maxTradeIdBytes ∧ t.expectedVersion < 2 ^ 64)
      ProtocolError.Bounded transition.toCore :=
    fun transition hmem => transition.toCore_ends.mono fun t ht =>
      ⟨ht.1 ▸ htransition transition hmem, ht.2⟩
  have hevent : ∀ event ∈ value.outboxEvents, Ends
      (fun e : OutboxEvent => e.eventId.utf8ByteSize ≤ maxIdempotencyKeyBytes)
      ProtocolError.Bounded event.toCore := fun event _ => event.toCore_ends.mono fun _ he => he.2
  rw [WireApplyTradeTransactionRequest.toCore]
  refine (validateText_ends (by decide)).bind fun _ hid =>
    (boundedField_ends (by decide)).bind fun _ hcount =>
    (boundedField_ends (by decide)).bind fun _ hpostings =>
    (boundedField_ends (by decide)).bind fun _ hevents =>
    (requireField_ends (by decide) hpart).bind fun transition ht =>
    (toCore_writes_ends hwrites hcount).bind fun writes hw =>
    (ends_mapM fun posting _ => posting.toCore_ends).bind fun postings hp =>
    (ends_mapM hevent).bind fun events he => ?_
  exact ⟨hid, ht.2.1, ht.1, ht.2.2, hw, hp.1.trans_le hpostings, hp.2, he.1.trans_le hevents, he.2,
    hresult⟩

/-! ### Checks -/

theorem validateTextField_ends {field : List Char} {value : String} {maximum : ℕ}
    (hfield : field.length ≤ 100) (hmaximum : maximum < 2 ^ 64) :
    Ends (fun _ => value.utf8ByteSize ≤ maximum) RpcFailure.Bounded
      (validateTextField (String.ofList field) value maximum) := by
  rw [validateTextField]
  refine ends_check (fun _ => ?_) fun h => ?_
  · exact (length_append_word_le (length_append_le (length_append_word_le (length_word_le hfield)
      (by decide)) (length_toString_le hmaximum)) (by decide)).trans (by decide)
  · simp only [Bool.or_eq_true, decide_eq_true_eq, not_or, not_lt] at h
    exact h.2

theorem validatePayloadSize_ends {field : List Char} {length : ℕ} (hfield : field.length ≤ 100)
    (hlength : length ≤ defaultMaxFrameBytes) :
    Ends (fun _ => length ≤ defaultMaxPayloadBytes) RpcFailure.Bounded
      (validatePayloadSize (String.ofList field) length defaultMaxPayloadBytes) := by
  have hdigits := length_toString_le (hlength.trans_lt (by decide))
  have hmaximum := length_toString_le (n := defaultMaxPayloadBytes) (by decide)
  refine ends_check (fun _ => ?_) not_lt.mp
  exact (length_append_word_le (length_append_le (length_append_word_le (length_append_le
    (length_append_word_le (length_word_le hfield) (by decide)) hdigits) (by decide)) hmaximum)
    (by decide)).trans (by decide)

theorem validatePayloads_ends {α : Type} {field : List Char} {payload : α → Bytes} {l : List α}
    (hfield : field.length ≤ 100)
    (h : ∀ a ∈ l, (payload a).length ≤ defaultMaxFrameBytes) :
    Ends (fun _ => ∀ a ∈ l, (payload a).length ≤ defaultMaxPayloadBytes) RpcFailure.Bounded
      (l.forM fun a => validatePayloadSize (String.ofList field) (payload a).length
        defaultMaxPayloadBytes) :=
  ends_forM fun a ha => validatePayloadSize_ends hfield (h a ha)

theorem refuseIf_ends {refused : Prop} [Decidable refused] {message : List Char}
    (hmessage : message.length ≤ maxMessageChars) :
    Ends (fun _ => ¬ refused) RpcFailure.Bounded (refuseIf refused (String.ofList message)) :=
  ends_check (fun _ => length_word_le hmessage) id

theorem requireReadFence_ends (snapshot : Option SnapshotEnvelope) (minimum : ℕ) :
    Ends (fun _ => meetsReadFence snapshot minimum = true) RpcFailure.Bounded
      (requireReadFence snapshot minimum) := by
  rw [requireReadFence]
  split
  · assumption
  · exact length_word_le (n := maxMessageChars) (by decide)

theorem validateSnapshotWriteBatch_ends (writes : List SnapshotWrite) :
    Ends (fun _ => True) RpcFailure.Bounded (validateSnapshotWriteBatch writes) := by
  rw [validateSnapshotWriteBatch]
  split
  · exact length_word_le (n := maxMessageChars) (by decide)
  · exact ends_check (fun _ => length_word_le (n := maxMessageChars) (by decide)) fun _ => trivial

/-! ### Handlers -/

section Handlers

variable {plain : Char → Bool} {batch : List (Option SnapshotEnvelope) → Prop} {rpcId : UInt64}

/-- The reply is a bounded answer, or an error with a short text. -/
def BackendCall.Replies (batch : List (Option SnapshotEnvelope) → Prop) (c : BackendCall)
    (r : c.Reply) : Prop := Ends (c.Answers batch) BackendError.Bounded r

/-- The program passes bounded values to the backend, and with bounded replies it ends as
`post` says or with a short failure. -/
def Handler.Meets {α : Type} (batch : List (Option SnapshotEnvelope) → Prop) (post : α → Prop)
    (x : Handler α) : Prop :=
  Interaction.Meets BackendCall.Bounded (BackendCall.Replies batch) (Ends post RpcFailure.Bounded)
    x.run

/-- The response fits a frame. -/
def ResponseBody.Fits (rpcId : UInt64) (body : ResponseBody) : Prop :=
  (responseEnvelope rpcId (.ok body)).encodeFrame.length ≤ defaultMaxFrameBytes

theorem ResponseBody.Modest.fits {body : ResponseBody} (h : body.Modest) : body.Fits rpcId :=
  length_frame_le (show Restrained (.ok body) from h) rpcId

section Rules

variable {α β : Type} {mid : α → Prop} {post : β → Prop} {f : α → Handler β}

theorem Handler.Meets.bind {x : Handler α} (hx : x.Meets batch mid)
    (hf : ∀ a, mid a → (f a).Meets batch post) : (x >>= f).Meets batch post :=
  meets_exceptT_bind hx hf

theorem meets_ensure_bind {x : Except RpcFailure α} (hx : Ends mid RpcFailure.Bounded x)
    (hf : ∀ a, mid a → (f a).Meets batch post) : (ensure x >>= f).Meets batch post :=
  meets_ofResult_bind hx hf

theorem meets_convert_bind {x : Except ProtocolError α} (hx : Ends mid ProtocolError.Bounded x)
    (hf : ∀ a, mid a → (f a).Meets batch post) : (convert plain x >>= f).Meets batch post := by
  refine meets_ensure_bind (Ends.mapError ?_) hf
  cases x with
  | error e => exact RpcFailure.fromProtocol_bounded plain hx
  | ok a => exact hx

theorem meets_present_bind {message : List Char} {field : Option α}
    (hmessage : message.length ≤ maxMessageChars)
    (hf : ∀ a ∈ field, (f a).Meets batch post) :
    (present (String.ofList message) field >>= f).Meets batch post := by
  cases field with
  | none => exact length_word_le (n := maxMessageChars) hmessage
  | some a => exact hf a rfl

theorem meets_ask {c : BackendCall} (hc : c.Bounded) :
    (ask plain c).Meets batch (c.Answers batch) := by
  refine ⟨hc, fun r hr => ?_⟩
  cases r with
  | error e => exact RpcFailure.fromBackend_bounded plain hr
  | ok a => exact hr

theorem meets_ask_bind {c : BackendCall} {f : c.Value → Handler β} (hc : c.Bounded)
    (hf : ∀ a, c.Answers batch a → (f a).Meets batch post) :
    (ask plain c >>= f).Meets batch post := (meets_ask hc).bind hf

end Rules

/-- An optional message that stays below half a frame. -/
theorem length_optional_le {α β : Type} {toWire : α → β} {encode : β → Bytes} {value : Option α}
    (h : ∀ a ∈ value, (encode (toWire a)).length ≤ defaultMaxPayloadBytes + 349028)
    (number : ℕ) : (Protobuf.messageField number ((value.map toWire).map encode)).length ≤
      defaultMaxPayloadBytes + 349048 :=
  Protobuf.length_messageField_le number fun body hbody => by
    rw [Option.map_map] at hbody
    obtain ⟨a, ha, rfl⟩ := Option.map_eq_some_iff.mp hbody
    exact h a ha

theorem dispatchLoadSnapshot_meets (request : WireLoadSnapshotRequest) :
    (dispatchLoadSnapshot plain request).Meets batch (ResponseBody.Fits rpcId) := by
  refine meets_present_bind (by decide) fun wire _ => meets_convert_bind wire.toCore_ends
    fun record hrecord => ?_
  have hfirst : Handler.Meets batch (fun snapshot : Option SnapshotEnvelope =>
      ∀ s ∈ snapshot, s.Bounded) (if request.allowStale then ask plain (.loadCached record)
        else ask plain (.load record)) := by
    split
    · exact meets_ask trivial
    · exact meets_ask trivial
  refine hfirst.bind fun first hfirst => ?_
  have hsnapshot : Handler.Meets batch (fun snapshot : Option SnapshotEnvelope =>
      ∀ s ∈ snapshot, s.Bounded)
      (if request.allowStale && !meetsReadFence first ((request.minRevision.map (·.toNat)).getD 0)
        then ask plain (.load record) else pure first) := by
    split
    · exact meets_ask trivial
    · exact hfirst
  refine hsnapshot.bind fun snapshot hsnapshot =>
    meets_ensure_bind (requireReadFence_ends _ _) fun _ _ => ResponseBody.Modest.fits ?_
  exact (length_optional_le (fun s hs =>
    (SnapshotEnvelope.length_encode_le (hsnapshot s hs)).trans (by decide)) 1).trans (by decide)

/-- The fences that a batch read sets for the snapshots it finds. -/
def RequestBody.batchFences : RequestBody → Option (List ℕ)
  | .loadMultiSnapshot request => some (readFences request.minRevisions request.records.length)
  | _ => none

/-- The snapshots of a batch read fit a frame, unless one of them misses its fence. -/
def BatchFits (rpcId : UInt64) (body : Option RequestBody)
    (snapshots : List (Option SnapshotEnvelope)) : Prop :=
  ∀ fences ∈ body.bind RequestBody.batchFences,
    (∀ x ∈ snapshots.zip fences, meetsReadFence x.1 x.2 = true) →
      batchFrameBytes rpcId snapshots ≤ defaultMaxFrameBytes

instance (rpcId : UInt64) (body : Option RequestBody) (snapshots : List (Option SnapshotEnvelope)) :
    Decidable (BatchFits rpcId body snapshots) := Option.decidableForallMem _

theorem dispatchLoadMultiSnapshot_meets (request : WireLoadMultiSnapshotRequest) :
    (dispatchLoadMultiSnapshot plain request).Meets
      (BatchFits rpcId (some (.loadMultiSnapshot request))) (ResponseBody.Fits rpcId) := by
  refine meets_ensure_bind (refuseIf_ends (by decide)) fun _ _ =>
    meets_ensure_bind (refuseIf_ends (by decide)) fun _ _ =>
    meets_convert_bind (ends_mapM fun wire _ => wire.toCore_ends) fun records hrecords =>
    meets_ensure_bind (refuseIf_ends (by decide)) fun _ _ =>
    meets_ensure_bind (refuseIf_ends (by decide)) fun _ _ => ?_
  rw [hrecords.1]
  have hfirst : Handler.Meets (BatchFits rpcId (some (.loadMultiSnapshot request)))
      (BatchFits rpcId (some (.loadMultiSnapshot request)))
      (if request.allowStale then ask plain (.loadCachedMulti records)
        else ask plain (.loadMulti records)) := by
    split
    · exact meets_ask trivial
    · exact meets_ask trivial
  refine hfirst.bind fun first hfirst => ?_
  have hsnapshots : Handler.Meets (BatchFits rpcId (some (.loadMultiSnapshot request)))
      (BatchFits rpcId (some (.loadMultiSnapshot request)))
      (if request.allowStale && (first.zip (readFences request.minRevisions
          request.records.length)).any (fun x => !meetsReadFence x.1 x.2) then
        ask plain (.loadMulti records) else pure first) := by
    split
    · exact meets_ask trivial
    · exact hfirst
  refine hsnapshots.bind fun snapshots hsnapshots =>
    meets_ensure_bind (ends_forM fun x _ => requireReadFence_ends x.1 x.2) fun _ hfences => ?_
  split
  · exact length_word_le (n := maxMessageChars) (by decide)
  · exact (length_batchFrame rpcId snapshots).trans_le (hsnapshots _ rfl hfences)

theorem SaveSnapshotResponse.length_encode_le (response : SaveSnapshotResponse) :
    response.encode.length ≤ 40 := by
  rw [encode, List.length_append]
  exact Nat.add_le_add (Protobuf.length_numberField_le _ _) (Protobuf.length_numberField_le _ _)

theorem dispatchSaveSnapshot_meets (request : WireSaveSnapshotRequest)
    (hframed : RequestBody.Framed (some (.saveSnapshot request))) :
    (dispatchSaveSnapshot plain defaultMaxPayloadBytes request).Meets batch
      (ResponseBody.Fits rpcId) := by
  have hpayload := hframed _ rfl request.payload (List.mem_cons_self ..)
  refine meets_ensure_bind (validatePayloadSize_ends (by decide) hpayload) fun _ hsize =>
    meets_convert_bind request.toSnapshotWrite_ends fun write hwrite =>
    meets_ask_bind (hwrite.2 (hwrite.1 ▸ hsize)) fun outcome _ => ResponseBody.Modest.fits ?_
  exact (SaveSnapshotResponse.length_encode_le _).trans (by decide)

theorem checkBatch_meets {rpc : String} {writes : List WireSaveSnapshotRequest}
    (hrpc : rpc.length ≤ 100)
    (hframed : ∀ write ∈ writes, write.payload.length ≤ defaultMaxFrameBytes) :
    (checkBatch plain defaultMaxPayloadBytes rpc writes).Meets batch
      (fun converted => converted.length ≤ maxBatchSnapshotWrites ∧
        ∀ write ∈ converted, write.Bounded) := by
  have hmessage : ∀ {words : List Char}, words.length ≤ 100 →
      (rpc ++ String.ofList words).length ≤ maxMessageChars :=
    fun hwords => (length_append_word_le hrpc hwords).trans (by decide)
  have hcounted : Ends (fun _ => writes.length ≤ maxBatchSnapshotWrites) RpcFailure.Bounded
      (refuseIf (maxBatchSnapshotWrites < writes.length)
        (rpc ++ ".writes exceeds the record limit")) :=
    ends_check (fun _ => hmessage (by decide)) not_lt.mp
  have hnonempty : Ends (fun _ => True) RpcFailure.Bounded
      (refuseIf (writes = []) (rpc ++ ".writes is empty")) :=
    ends_check (fun _ => hmessage (by decide)) fun _ => trivial
  refine meets_ensure_bind hnonempty fun _ _ => meets_ensure_bind hcounted fun _ hcount =>
    meets_convert_bind (ends_mapM fun wire hwire => wire.toSnapshotWrite_ends.mono
      fun write hwrite => (⟨hwrite.1 ▸ hframed wire hwire, hwrite.2⟩ :
        write.payload.length ≤ defaultMaxFrameBytes ∧
          (write.payload.length ≤ defaultMaxPayloadBytes → write.Bounded)))
      fun converted hconverted =>
    meets_ensure_bind (validateSnapshotWriteBatch_ends converted) fun _ _ =>
    meets_ensure_bind (validatePayloads_ends (by decide) fun write hwrite =>
      (hconverted.2 write hwrite).1) fun _ hsizes => ?_
  exact ⟨hconverted.1.trans_le hcount, fun write hwrite =>
    (hconverted.2 write hwrite).2 (hsizes write hwrite)⟩

theorem length_saveEntry_le {outcome : Except BackendError SnapshotWriteOutcome}
    (h : ∀ error, outcome = .error error → error.Bounded) :
    (saveEntryResponse plain outcome).encode.length ≤ 40140 := by
  cases outcome with
  | ok outcome =>
    have hresult : (Protobuf.messageField 1 (some (snapshotOutcome outcome).encode)).length ≤ 60 :=
      Protobuf.length_messageField_le 1 fun body hbody => by
        obtain rfl := Option.some.inj hbody
        exact SaveSnapshotResponse.length_encode_le _
    rw [SaveMultiSnapshotEntry.encode, List.length_append]
    exact (Nat.add_le_add hresult (Nat.zero_le 0)).trans (by decide)
  | error error =>
    have herror := RpcFailure.length_field_le
      (RpcFailure.fromBackend_bounded plain (h error rfl)) 2
    rw [SaveMultiSnapshotEntry.encode, List.length_append]
    exact (Nat.add_le_add (Nat.zero_le 0) herror).trans (by decide)

theorem length_enqueueEntry_le {outcome : Except BackendError Unit}
    (h : ∀ error, outcome = .error error → error.Bounded) :
    (enqueueEntryResponse plain outcome).encode.length ≤ 40140 := by
  have hflag := fun accepted => Protobuf.length_boolField_le 1 accepted
  cases outcome with
  | ok _ =>
    rw [EnqueueMultiSnapshotEntry.encode, List.length_append]
    exact (Nat.add_le_add (hflag true) (Nat.zero_le 0)).trans (by decide)
  | error error =>
    have herror := RpcFailure.length_field_le
      (RpcFailure.fromBackend_bounded plain (h error rfl)) 2
    rw [EnqueueMultiSnapshotEntry.encode, List.length_append]
    exact (Nat.add_le_add (hflag false) herror).trans (by decide)

theorem dispatchSaveMultiSnapshot_meets (request : WireSaveMultiSnapshotRequest)
    (hframed : RequestBody.Framed (some (.saveMultiSnapshot request))) :
    (dispatchSaveMultiSnapshot plain defaultMaxPayloadBytes request).Meets batch
      (ResponseBody.Fits rpcId) := by
  refine (checkBatch_meets (by decide) fun write hwrite =>
    hframed _ rfl _ (List.mem_map_of_mem hwrite)).bind fun writes hwrites =>
    meets_ask_bind hwrites fun outcomes houtcomes => ?_
  split
  · exact length_word_le (n := maxMessageChars) (by decide)
  · refine ResponseBody.Modest.fits ?_
    have hentries : ∀ entry ∈ outcomes.map (saveEntryResponse plain),
        entry.encode.length ≤ 40140 := by
      intro entry hentry
      obtain ⟨outcome, hmem, rfl⟩ := List.mem_map.mp hentry
      exact length_saveEntry_le fun error herror => houtcomes.error error (herror ▸ hmem)
    exact (length_entries_le ((List.length_map _).trans_le houtcomes.count) hentries 1).trans
      (by decide)

theorem dispatchEnqueueSnapshot_meets (request : WireEnqueueSnapshotRequest)
    (hframed : RequestBody.Framed (some (.enqueueSnapshot request))) :
    (dispatchEnqueueSnapshot plain defaultMaxPayloadBytes request).Meets batch
      (ResponseBody.Fits rpcId) := by
  refine meets_present_bind (by decide) fun wire hwire =>
    meets_convert_bind wire.toSnapshotWrite_ends fun write hwrite => ?_
  have hpayload : write.payload.length ≤ defaultMaxFrameBytes := by
    rw [hwrite.1]
    refine hframed _ rfl _ (List.mem_map_of_mem ?_)
    exact Option.mem_toList.mpr hwire
  refine meets_ensure_bind (validatePayloadSize_ends (by decide) hpayload) fun _ hsize =>
    meets_ask_bind (hwrite.2 hsize) fun _ _ => ResponseBody.Modest.fits ?_
  exact (Protobuf.length_boolField_le 1 true).trans (by decide)

theorem dispatchEnqueueMultiSnapshot_meets (request : WireEnqueueMultiSnapshotRequest)
    (hframed : RequestBody.Framed (some (.enqueueMultiSnapshot request))) :
    (dispatchEnqueueMultiSnapshot plain defaultMaxPayloadBytes request).Meets batch
      (ResponseBody.Fits rpcId) := by
  refine (checkBatch_meets (by decide) fun write hwrite =>
    hframed _ rfl _ (List.mem_map_of_mem hwrite)).bind fun writes hwrites =>
    meets_ask_bind hwrites fun outcomes houtcomes => ?_
  split
  · exact length_word_le (n := maxMessageChars) (by decide)
  · refine ResponseBody.Modest.fits ?_
    have hentries : ∀ entry ∈ outcomes.map (enqueueEntryResponse plain),
        entry.encode.length ≤ 40140 := by
      intro entry hentry
      obtain ⟨outcome, hmem, rfl⟩ := List.mem_map.mp hentry
      exact length_enqueueEntry_le fun error herror => houtcomes.error error (herror ▸ hmem)
    exact (length_entries_le ((List.length_map _).trans_le houtcomes.count) hentries 1).trans
      (by decide)

/-- The response of a transaction on several records. -/
theorem multiTransactionOutcome_length_le {outcome : MultiRecordTransactionalWriteOutcome}
    (h : outcome.Bounded) :
    (multiTransactionOutcome outcome).encode.length ≤ defaultMaxPayloadBytes + 189480 := by
  have hall : ∀ (disposition : WriteDisposition) (records : List TransactionRecordReceipt)
      (result : Bytes), BoundedRecords records → result.length ≤ defaultMaxPayloadBytes →
      (ApplyMultiTransactionResponse.encode ⟨disposition,
        records.map multiTransactionRecordReceipt, result⟩).length ≤
          defaultMaxPayloadBytes + 189480 := by
    intro disposition records result hrecords hresult
    have hdisposition := Protobuf.length_numberField_le 1 disposition.toNat
    have hfield := hrecords.length_field_le 2
    have hbytes := (Protobuf.length_bytesField_le 3 result).trans (Nat.add_le_add_right hresult 20)
    simp only [maxTransactionRecords] at hfield
    simp only [ApplyMultiTransactionResponse.encode, List.length_append]
    omega
  cases outcome with
  | applied records result => exact hall .applied records result h.1 h.2
  | duplicate records result => exact hall .duplicate records result h.1 h.2

theorem transactionOutcome_length_le {outcome : TransactionalWriteOutcome} (h : outcome.Bounded) :
    (transactionOutcome outcome).encode.length ≤ defaultMaxPayloadBytes + 60 := by
  have hall : ∀ (disposition : WriteDisposition) (revision : Revision) (result : Bytes),
      result.length ≤ defaultMaxPayloadBytes →
      (ApplyTransactionResponse.encode ⟨disposition, revision, result⟩).length ≤
        defaultMaxPayloadBytes + 60 := by
    intro disposition revision result hresult
    have hdisposition := Protobuf.length_numberField_le 1 disposition.toNat
    have hrevision := Protobuf.length_numberField_le 2 revision
    have hbytes := (Protobuf.length_bytesField_le 3 result).trans (Nat.add_le_add_right hresult 20)
    simp only [ApplyTransactionResponse.encode, List.length_append]
    omega
  cases outcome with
  | applied revision result => exact hall .applied revision result h
  | duplicate revision result => exact hall .duplicate revision result h

theorem dispatchApplyTransaction_meets (request : WireApplyTransactionRequest)
    (hframed : RequestBody.Framed (some (.applyTransaction request))) :
    (dispatchApplyTransaction plain defaultMaxPayloadBytes request).Meets batch
      (ResponseBody.Fits rpcId) := by
  have hpayload := hframed _ rfl request.payload (List.mem_cons_self ..)
  have hresult := hframed _ rfl request.result (List.mem_cons_of_mem _ (List.mem_cons_self ..))
  refine meets_ensure_bind (validatePayloadSize_ends (by decide) hpayload) fun _ hpayload =>
    meets_ensure_bind (validatePayloadSize_ends (by decide) hresult) fun _ hresult =>
    meets_convert_bind request.toTransactionalWrite_ends fun write hwrite =>
    meets_ask_bind (hwrite.2.2 (hwrite.1 ▸ hpayload) (hwrite.2.1 ▸ hresult)) fun outcome h =>
    ResponseBody.Modest.fits ?_
  exact (transactionOutcome_length_le h).trans (by decide)

theorem dispatchLoadTransaction_meets (request : WireLoadTransactionRequest) :
    (dispatchLoadTransaction plain request).Meets batch (ResponseBody.Fits rpcId) := by
  refine meets_ensure_bind (validateTextField_ends (by decide) (by decide)) fun _ hid =>
    meets_present_bind (by decide) fun wire _ =>
    meets_convert_bind wire.toCore_ends fun record hrecord =>
    meets_ask_bind ⟨hid, hrecord⟩ fun receipt h => ResponseBody.Modest.fits ?_
  exact (length_optional_le (fun r hr =>
    (TransactionReceipt.length_encode_le (h r hr)).trans (by decide)) 1).trans (by decide)

/-- The writes of a transaction, before their payloads are checked. -/
theorem convertWrites_ends {values : List WireTransactionalRecordWrite}
    (hframed : ∀ value ∈ values, value.payload.length ≤ defaultMaxFrameBytes) :
    Ends (fun writes => writes.length = values.length ∧ ∀ write ∈ writes,
        write.payload.length ≤ defaultMaxFrameBytes ∧
          (write.payload.length ≤ defaultMaxPayloadBytes → write.Bounded))
      ProtocolError.Bounded (values.mapM WireTransactionalRecordWrite.toCore) :=
  ends_mapM fun value hvalue => value.toCore_ends.mono fun _ hwrite =>
    ⟨hwrite.1 ▸ hframed value hvalue, hwrite.2⟩

theorem dispatchCommitRecords_meets (request : WireCommitRecordsRequest)
    (hframed : RequestBody.Framed (some (.commitRecords request))) :
    (dispatchCommitRecords plain defaultMaxPayloadBytes request).Meets batch
      (ResponseBody.Fits rpcId) := by
  have hframe := hframed _ rfl
  simp only [RequestBody.byteStrings, List.forall_mem_cons, List.forall_mem_append,
    List.forall_mem_map] at hframe
  obtain ⟨hresult, ⟨hwrites, happends⟩, hevents⟩ := hframe
  have happend : ∀ append ∈ request.appends, Ends (fun a : AppendRecord =>
      a.payload.length ≤ defaultMaxFrameBytes ∧ a.record.Bounded) ProtocolError.Bounded
      append.toCore := fun append hmem => append.toCore_ends.mono fun _ h =>
    ⟨h.1 ▸ happends append hmem, h.2⟩
  have hevent : ∀ event ∈ request.outboxEvents, Ends (fun e : OutboxEvent =>
      e.payload.length ≤ defaultMaxFrameBytes ∧
        e.eventId.utf8ByteSize ≤ maxIdempotencyKeyBytes) ProtocolError.Bounded
      event.toCore := fun event hmem => event.toCore_ends.mono fun _ h =>
    ⟨h.1 ▸ hevents event hmem, h.2⟩
  refine meets_ensure_bind (validateTextField_ends (by decide) (by decide)) fun _ hid =>
    meets_ensure_bind (refuseIf_ends (by decide)) fun _ hcounts =>
    meets_convert_bind (convertWrites_ends hwrites) fun writes hwrites =>
    meets_ensure_bind (validatePayloads_ends (by decide) fun w hw => (hwrites.2 w hw).1)
      fun _ hsizes =>
    meets_ensure_bind (validatePayloadSize_ends (by decide) hresult) fun _ hresult =>
    meets_convert_bind (ends_mapM happend) fun appends happends =>
    meets_convert_bind (ends_mapM hevent) fun events hevents =>
    meets_ensure_bind (validatePayloads_ends (by decide) fun a ha => (happends.2 a ha).1)
      fun _ _ =>
    meets_ensure_bind (validatePayloads_ends (by decide) fun e he => (hevents.2 e he).1)
      fun _ _ => meets_ask_bind ⟨⟨hid, ⟨?_, fun w hw => (hwrites.2 w hw).2 (hsizes w hw)⟩, hresult⟩,
        fun a ha => (happends.2 a ha).2, fun e he => (hevents.2 e he).2⟩ fun outcome h =>
    ResponseBody.Modest.fits ((multiTransactionOutcome_length_le h).trans (by decide))
  rw [not_or, not_or] at hcounts
  exact hwrites.1.trans_le (not_lt.mp hcounts.2.1)

theorem dispatchApplyMultiTransaction_meets (request : WireApplyMultiTransactionRequest)
    (hframed : RequestBody.Framed (some (.applyMultiTransaction request))) :
    (dispatchApplyMultiTransaction plain defaultMaxPayloadBytes request).Meets batch
      (ResponseBody.Fits rpcId) := by
  have hframe := hframed _ rfl
  simp only [RequestBody.byteStrings, List.forall_mem_cons, List.forall_mem_map] at hframe
  obtain ⟨hresult, hwrites⟩ := hframe
  refine meets_ensure_bind (validateTextField_ends (by decide) (by decide)) fun _ hid =>
    meets_ensure_bind (refuseIf_ends (by decide)) fun _ _ =>
    meets_ensure_bind (refuseIf_ends (by decide)) fun _ hcount =>
    meets_convert_bind (convertWrites_ends hwrites) fun writes hwrites =>
    meets_ensure_bind (validatePayloads_ends (by decide) fun w hw => (hwrites.2 w hw).1)
      fun _ hsizes =>
    meets_ensure_bind (validatePayloadSize_ends (by decide) hresult) fun _ hresult =>
    meets_ask_bind ⟨hid, ⟨hwrites.1.trans_le (not_lt.mp hcount),
      fun w hw => (hwrites.2 w hw).2 (hsizes w hw)⟩, hresult⟩ fun outcome h =>
    ResponseBody.Modest.fits ((multiTransactionOutcome_length_le h).trans (by decide))

theorem dispatchLoadMultiTransaction_meets (request : WireLoadMultiTransactionRequest) :
    (dispatchLoadMultiTransaction plain request).Meets batch (ResponseBody.Fits rpcId) := by
  refine meets_ensure_bind (validateTextField_ends (by decide) (by decide)) fun _ hid =>
    meets_ensure_bind (refuseIf_ends (by decide)) fun _ _ =>
    meets_ensure_bind (refuseIf_ends (by decide)) fun _ _ =>
    meets_convert_bind (ends_mapM fun wire _ => wire.toCore_ends) fun records _ =>
    meets_ask_bind hid fun receipt h => ResponseBody.Modest.fits ?_
  exact (length_optional_le (fun r hr =>
    (MultiRecordTransactionReceipt.length_encode_le (h r hr)).trans (by decide)) 1).trans
      (by decide)

theorem dispatchApplyTradeTransaction_meets (request : WireApplyTradeTransactionRequest)
    (hframed : RequestBody.Framed (some (.applyTradeTransaction request))) :
    (dispatchApplyTradeTransaction plain defaultMaxPayloadBytes request).Meets batch
      (ResponseBody.Fits rpcId) := by
  have hframe := hframed _ rfl
  simp only [RequestBody.byteStrings, List.forall_mem_cons, List.forall_mem_append,
    List.forall_mem_map, Option.mem_toList] at hframe
  obtain ⟨hresult, ⟨⟨htransition, hwrites⟩, hpostings⟩, hevents⟩ := hframe
  have htransition : Ends (fun _ => ∀ transition ∈ request.transition,
      transition.payload.length ≤ defaultMaxPayloadBytes) RpcFailure.Bounded
      (request.transition.elim (.ok ()) fun transition =>
        validatePayloadSize "apply_trade_transaction.transition.payload"
          transition.payload.length defaultMaxPayloadBytes) := by
    cases hsome : request.transition with
    | none => exact fun transition hmem => by cases hmem
    | some transition =>
      refine (validatePayloadSize_ends (by decide) (htransition transition hsome)).mono
        fun _ hsize t ht => ?_
      obtain rfl := Option.some.inj ht
      exact hsize
  refine meets_ensure_bind htransition fun _ htransition =>
    meets_ensure_bind (validatePayloads_ends (by decide) hwrites) fun _ hwrites =>
    meets_ensure_bind (validatePayloads_ends (by decide) hpostings) fun _ _ =>
    meets_ensure_bind (validatePayloads_ends (by decide) hevents) fun _ _ =>
    meets_ensure_bind (validatePayloadSize_ends (by decide) hresult) fun _ hresult =>
    meets_convert_bind
      (WireApplyTradeTransactionRequest.toCore_ends htransition hwrites hresult) fun trade htrade =>
    meets_ask_bind htrade fun outcome h => ResponseBody.Modest.fits ?_
  have hreceipt : ∀ (disposition : WriteDisposition) (receipt : TradeReceipt), receipt.Bounded →
      (ResponseBody.applyTradeTransaction disposition (some receipt.toWire)).Modest := by
    intro disposition receipt hreceipt
    have hdisposition := Protobuf.length_numberField_le 1 disposition.toNat
    have hfield : (Protobuf.messageField 2 (((some receipt).map TradeReceipt.toWire).map
        WireTradeReceipt.encode)).length ≤ defaultMaxPayloadBytes + 349048 :=
      length_optional_le (fun r hr => by
        obtain rfl := Option.some.inj hr
        exact TradeReceipt.length_encode_le hreceipt) 2
    rw [ResponseBody.Modest, ResponseBody.message, List.length_append]
    exact (Nat.add_le_add hdisposition hfield).trans (by decide)
  cases outcome with
  | applied receipt => exact hreceipt .applied receipt h
  | duplicate receipt => exact hreceipt .duplicate receipt h

theorem dispatchLoadTrade_meets (request : WireLoadTradeRequest) :
    (dispatchLoadTrade plain request).Meets batch (ResponseBody.Fits rpcId) := by
  refine meets_ensure_bind (validateTextField_ends (by decide) (by decide)) fun _ _ =>
    meets_ask_bind trivial fun trade h => ResponseBody.Modest.fits ?_
  exact (length_optional_le (fun t ht =>
    (TradeEnvelope.length_encode_le (h t ht)).trans (by decide)) 1).trans (by decide)

theorem dispatchLoadTradeTransaction_meets (request : WireLoadTradeTransactionRequest) :
    (dispatchLoadTradeTransaction plain request).Meets batch (ResponseBody.Fits rpcId) := by
  refine meets_ensure_bind (validateTextField_ends (by decide) (by decide)) fun _ hid =>
    meets_ensure_bind (validateTextField_ends (by decide) (by decide)) fun _ _ =>
    meets_ask_bind hid fun receipt h => ResponseBody.Modest.fits ?_
  exact (length_optional_le (fun r hr => TradeReceipt.length_encode_le (h r hr)) 1).trans
    (by decide)

/-- **One handler.**  It passes bounded values to the backend, and with bounded replies its
response fits a frame; of a batch read this is so if the snapshots do. -/
theorem dispatchBody_meets {body : Option RequestBody} (hframed : RequestBody.Framed body) :
    (dispatchBody plain defaultMaxPayloadBytes body).Meets (BatchFits rpcId body)
      (ResponseBody.Fits rpcId) := by
  rcases body with _ | request
  · exact length_word_le (n := maxMessageChars) (by decide)
  cases request with
  | loadSnapshot request => exact dispatchLoadSnapshot_meets request
  | saveSnapshot request => exact dispatchSaveSnapshot_meets request hframed
  | enqueueSnapshot request => exact dispatchEnqueueSnapshot_meets request hframed
  | applyTransaction request => exact dispatchApplyTransaction_meets request hframed
  | loadTransaction request => exact dispatchLoadTransaction_meets request
  | applyMultiTransaction request => exact dispatchApplyMultiTransaction_meets request hframed
  | loadMultiTransaction request => exact dispatchLoadMultiTransaction_meets request
  | loadMultiSnapshot request => exact dispatchLoadMultiSnapshot_meets request
  | saveMultiSnapshot request => exact dispatchSaveMultiSnapshot_meets request hframed
  | enqueueMultiSnapshot request => exact dispatchEnqueueMultiSnapshot_meets request hframed
  | applyTradeTransaction request => exact dispatchApplyTradeTransaction_meets request hframed
  | loadTrade request => exact dispatchLoadTrade_meets request
  | loadTradeTransaction request => exact dispatchLoadTradeTransaction_meets request
  | commitRecords request => exact dispatchCommitRecords_meets request hframed

end Handlers

end DbProxy
