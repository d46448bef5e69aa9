/-
The reference store for snapshots (`dbproxy-core`, `lib.rs`) and the volatile
backend.

`InMemorySnapshotStore` recognises a retry by a fingerprint of the request that
leaves the time out; the fingerprint of the backend, those of the transaction
stores and the receipts in PostgreSQL all contain it.  A retry that repeats an
applied request in everything but its time (`Restamped`) is therefore a
duplicate for the reference store and a conflict for the backend.

* `save_agrees`, `save_disagrees` — one request, in related states;
* `snapshotSaves_agree_iff` — a sequence of requests is answered alike exactly
  when it contains no such retry.
-/
import DbProxy.ReferenceStores

namespace DbProxy

open Text EarlyReturn KeyedMap MemoryBackend

/-- `RequestFingerprint`; the time is not part of it. -/
structure RequestFingerprint where
  schema : String
  schemaVersion : ℕ
  payload : Bytes
  expectedRevision : Option Revision
deriving DecidableEq

def RequestFingerprint.fromRequest (request : SnapshotWrite) : RequestFingerprint where
  schema := request.schema
  schemaVersion := request.schemaVersion
  payload := request.payload
  expectedRevision := request.expectedRevision

structure IdempotencyReceipt where
  record : RecordKey
  fingerprint : RequestFingerprint
  revision : Revision

structure InMemorySnapshotStore where
  snapshots : RecordKey → Option SnapshotEnvelope := fun _ => none
  receipts : String → Option IdempotencyReceipt := fun _ => none

namespace InMemorySnapshotStore

def load (s : InMemorySnapshotStore) (record : RecordKey) : Option SnapshotEnvelope :=
  s.snapshots record

def save (request : SnapshotWrite) :
    EStateM StoreError InMemorySnapshotStore SnapshotWriteOutcome := do
  if blank request.requestId then throw .emptyRequestId
  match (← get).receipts request.requestId with
  | some receipt =>
    if receipt.record ≠ request.record ∨
        receipt.fingerprint ≠ RequestFingerprint.fromRequest request then
      throw (.idempotencyConflict request.requestId)
    return .duplicate receipt.revision
  | none =>
    let actualRevision : Revision := (((← get).snapshots request.record).map (·.revision)).getD 0
    if request.expectedRevision.any (· ≠ actualRevision) then
      throw (.revisionConflict request.record request.expectedRevision actualRevision)
    match actualRevision.next with
    | none => throw (.revisionExhausted request.record)
    | some revision =>
      modify fun s => { s with
        snapshots := Function.update s.snapshots request.record (some ⟨request.record,
          request.schema, request.schemaVersion, revision, request.payload,
          request.updatedAtUnixMs⟩) }
      modify fun s => { s with
        receipts := Function.update s.receipts request.requestId
          (some ⟨request.record, .fromRequest request, revision⟩) }
      return .applied revision

end InMemorySnapshotStore

/-- The places of a list: its head, and the places of its tail. -/
theorem forall_split_cons {α : Type} {a : α} {l : List α} {p : List α → α → Prop} :
    (∀ before x after, a :: l = before ++ x :: after → p before x) ↔
      p [] a ∧ ∀ before x after, l = before ++ x :: after → p (a :: before) x := by
  constructor
  · intro h
    refine ⟨h [] a l rfl, fun before x after heq => ?_⟩
    exact h (a :: before) x after (by rw [heq]; rfl)
  · rintro ⟨hhead, htail⟩ before x after heq
    cases before with
    | nil =>
      obtain ⟨rfl, -⟩ := List.cons.inj heq
      exact hhead
    | cons b before =>
      obtain ⟨rfl, rfl⟩ := List.cons.inj heq
      exact htail before x after rfl

/-- Answers that are the same next to their requests are the same. -/
theorem zipWith_inj {ρ α β : Type} {f : ρ → α → β} (hf : ∀ r a b, f r a = f r b → a = b) :
    ∀ {l : List ρ} {xs ys : List α}, xs.length = l.length → ys.length = l.length →
      List.zipWith f l xs = List.zipWith f l ys → xs = ys
  | [], xs, ys, hx, hy, _ => by
    rw [List.length_eq_zero_iff.mp hx, List.length_eq_zero_iff.mp hy]
  | r :: l, [], ys, hx, _, _ => by simp at hx
  | r :: l, x :: xs, [], _, hy, _ => by simp at hy
  | r :: l, x :: xs, y :: ys, hx, hy, h => by
    rw [List.zipWith_cons_cons, List.zipWith_cons_cons, List.cons.injEq] at h
    rw [hf r x y h.1, zipWith_inj hf (Nat.succ.inj hx) (Nat.succ.inj hy) h.2]

section Agreement

variable {D : Type} (cfg : MemoryConfig D)

/-- The receipts of the two stores for one request; the reference store does not
know the time. -/
structure SameReceipt (requests : List SnapshotWrite) (receipt : SnapshotReceipt D)
    (reference : IdempotencyReceipt) : Prop where
  record : receipt.record = reference.record
  revision : receipt.revision = reference.revision
  schema : receipt.fingerprint.schema = reference.fingerprint.schema
  schemaVersion : receipt.fingerprint.schemaVersion = reference.fingerprint.schemaVersion
  payload : receipt.fingerprint.payloadDigest = cfg.digest reference.fingerprint.payload
  expectedRevision : receipt.fingerprint.expectedRevision = reference.fingerprint.expectedRevision
  source : reference.fingerprint.payload ∈ requests.map (·.payload)

/-- The flat store after saves of `requests`, and the reference store. -/
structure FollowsSnapshots (requests : List SnapshotWrite) (v : StoreView D)
    (s : InMemorySnapshotStore) : Prop where
  snapshots : v.snapshots = s.snapshots
  receipts : ∀ requestId, Option.Rel (SameReceipt cfg requests) (v.snapshotReceipts requestId)
    (s.receipts requestId)
  named : ∀ requestId receipt, v.snapshotReceipts requestId = some receipt →
    blank requestId = false

/-- The request repeats the one that was applied under its id in everything but the
time. -/
def Restamped (v : StoreView D) (request : SnapshotWrite) : Prop :=
  ∃ receipt, v.snapshotReceipts request.requestId = some receipt ∧
    receipt.record = request.record ∧
    receipt.fingerprint = { SnapshotFingerprint.fromRequest cfg request with
      updatedAtUnixMs := receipt.fingerprint.updatedAtUnixMs } ∧
    receipt.fingerprint.updatedAtUnixMs ≠ request.updatedAtUnixMs

variable {cfg}

theorem FollowsSnapshots.applied {requests : List SnapshotWrite} {v : StoreView D}
    {s : InMemorySnapshotStore} (h : FollowsSnapshots cfg requests v s) {request : SnapshotWrite}
    (hmem : request ∈ requests) (hblank : blank request.requestId = false) :
    FollowsSnapshots cfg requests (v.save cfg request)
      { snapshots := Function.update s.snapshots request.record (some ⟨request.record,
          request.schema, request.schemaVersion, v.revision request.record + 1, request.payload,
          request.updatedAtUnixMs⟩)
        receipts := Function.update s.receipts request.requestId
          (some ⟨request.record, .fromRequest request, v.revision request.record + 1⟩) } where
  snapshots := by rw [← h.snapshots]; rfl
  receipts requestId := by
    show Option.Rel _ (Function.update v.snapshotReceipts _ _ _) (Function.update s.receipts _ _ _)
    by_cases hid : requestId = request.requestId
    · subst hid
      rw [Function.update_self, Function.update_self]
      exact .some ⟨rfl, rfl, rfl, rfl, rfl, rfl, List.mem_map_of_mem hmem⟩
    · rw [Function.update_of_ne hid, Function.update_of_ne hid]
      exact h.receipts requestId
  named requestId receipt hreceipt := by
    rcases update_eq_some hreceipt with ⟨rfl, -⟩ | ⟨-, hold⟩
    · exact hblank
    · exact h.named requestId receipt hold

/-- The fingerprints of the two stores agree up to the time. -/
theorem SameReceipt.fingerprint_iff {requests : List SnapshotWrite} {receipt : SnapshotReceipt D}
    {reference : IdempotencyReceipt} (h : SameReceipt cfg requests receipt reference)
    (hpayloads : TellsApart cfg.digest (requests.map (·.payload))) {request : SnapshotWrite}
    (hmem : request ∈ requests) :
    reference.fingerprint = .fromRequest request ↔
      receipt.fingerprint = { SnapshotFingerprint.fromRequest cfg request with
        updatedAtUnixMs := receipt.fingerprint.updatedAtUnixMs } := by
  have hreference : reference.fingerprint = .fromRequest request ↔
      reference.fingerprint.schema = request.schema ∧
      reference.fingerprint.schemaVersion = request.schemaVersion ∧
      reference.fingerprint.payload = request.payload ∧
      reference.fingerprint.expectedRevision = request.expectedRevision := by
    cases reference.fingerprint
    simp [RequestFingerprint.fromRequest]
  have hbackend : receipt.fingerprint = { SnapshotFingerprint.fromRequest cfg request with
        updatedAtUnixMs := receipt.fingerprint.updatedAtUnixMs } ↔
      receipt.fingerprint.schema = request.schema ∧
      receipt.fingerprint.schemaVersion = request.schemaVersion ∧
      receipt.fingerprint.payloadDigest = cfg.digest request.payload ∧
      receipt.fingerprint.expectedRevision = request.expectedRevision := by
    cases receipt.fingerprint
    simp [SnapshotFingerprint.fromRequest]
  have hpayload : cfg.digest reference.fingerprint.payload = cfg.digest request.payload ↔
      reference.fingerprint.payload = request.payload :=
    ⟨hpayloads _ h.source _ (List.mem_map_of_mem hmem), congrArg cfg.digest⟩
  rw [hreference, hbackend, h.schema, h.schemaVersion, h.payload, h.expectedRevision, hpayload]

variable [DecidableEq D]

/-- Where no applied request was restamped, the two stores answer alike. -/
theorem save_agrees {requests : List SnapshotWrite}
    (hpayloads : TellsApart cfg.digest (requests.map (·.payload))) {request : SnapshotWrite}
    (hmem : request ∈ requests) {v : StoreView D} {s : InMemorySnapshotStore}
    (h : FollowsSnapshots cfg requests v s) (hnew : ¬ Restamped cfg v request) :
    Agrees (FollowsSnapshots cfg requests) s (InMemorySnapshotStore.save request)
      (Flat.save cfg v request) := by
  rw [InMemorySnapshotStore.save, Flat.save]
  by_cases hblank : blank request.requestId = true
  · rw [if_pos hblank, if_pos hblank]
    rfl
  rw [if_neg hblank, if_neg hblank]
  refine agrees_get ?_
  have hreceipts := h.receipts request.requestId
  -- the request id is known to both stores, or new to both
  cases hmemory : v.snapshotReceipts request.requestId with
  | some receipt =>
    rw [hmemory] at hreceipts
    cases hreference : s.receipts request.requestId with
    | none => rw [hreference] at hreceipts; cases hreceipts
    | some reference =>
      rw [hreference] at hreceipts
      obtain ⟨hsame⟩ := hreceipts
      have hiff := hsame.fingerprint_iff hpayloads hmem
      dsimp only
      by_cases hrecord : receipt.record = request.record
      · have hrecord' : reference.record = request.record := hsame.record ▸ hrecord
        by_cases hfp : reference.fingerprint = .fromRequest request
        · -- the fingerprints agree up to the time, and the time was not changed
          have hup := hiff.mp hfp
          have htime : receipt.fingerprint.updatedAtUnixMs = request.updatedAtUnixMs := by
            by_contra hne
            exact hnew ⟨receipt, hmemory, hrecord, hup, hne⟩
          have hfp' : receipt.fingerprint = SnapshotFingerprint.fromRequest cfg request := by
            rw [hup, htime]
            rfl
          rw [if_neg (by tauto), if_neg (by tauto), hsame.revision]
          exact ⟨s, rfl, h⟩
        · have hfp' : receipt.fingerprint ≠ SnapshotFingerprint.fromRequest cfg request := by
            intro heq
            exact hfp (hiff.mpr (by rw [heq]))
          rw [if_pos (Or.inr hfp), if_pos (Or.inr hfp')]
          rfl
      · have hrecord' : reference.record ≠ request.record := hsame.record ▸ hrecord
        rw [if_pos (Or.inl hrecord'), if_pos (Or.inl hrecord)]
        rfl
  | none =>
    rw [hmemory] at hreceipts
    cases hreference : s.receipts request.requestId with
    | some reference => rw [hreference] at hreceipts; cases hreceipts
    | none =>
      dsimp only
      refine agrees_get ?_
      have hrevision : ((s.snapshots request.record).map (·.revision)).getD 0
          = v.revision request.record := by
        rw [StoreView.revision, h.snapshots]
      rw [hrevision]
      by_cases hexpected : request.expectedRevision.any (· ≠ v.revision request.record) = true
      · rw [if_pos hexpected, if_pos hexpected]
        rfl
      · rw [if_neg hexpected, if_neg hexpected]
        cases hnext : (v.revision request.record).next with
        | none => rfl
        | some revision =>
          obtain ⟨-, rfl⟩ := Revision.next_eq_some.mp hnext
          exact ⟨_, rfl, h.applied hmem (by simpa using hblank)⟩

/-- A restamped retry is a conflict for the backend and a duplicate for the reference
store. -/
theorem save_disagrees {requests : List SnapshotWrite}
    (hpayloads : TellsApart cfg.digest (requests.map (·.payload))) {request : SnapshotWrite}
    (hmem : request ∈ requests) {v : StoreView D} {s : InMemorySnapshotStore}
    (h : FollowsSnapshots cfg requests v s) (hold : Restamped cfg v request) :
    Flat.save cfg v request = .error (.idempotencyConflict request.requestId) ∧
      ∃ revision, (InMemorySnapshotStore.save request).run s = .ok (.duplicate revision) s := by
  obtain ⟨receipt, hmemory, hrecord, hup, hne⟩ := hold
  have hblank := h.named _ _ hmemory
  have hreceipts := h.receipts request.requestId
  rw [hmemory] at hreceipts
  cases hreference : s.receipts request.requestId with
  | none => rw [hreference] at hreceipts; cases hreceipts
  | some reference =>
    rw [hreference] at hreceipts
    obtain ⟨hsame⟩ := hreceipts
    constructor
    · rw [Flat.save, if_neg (by simp [hblank]), hmemory]
      have hfp : receipt.fingerprint ≠ SnapshotFingerprint.fromRequest cfg request := by
        intro heq
        rw [heq] at hne
        exact hne rfl
      show (if _ then _ else _) = _
      rw [if_pos (Or.inr hfp)]
      rfl
    · refine ⟨reference.revision, ?_⟩
      rw [InMemorySnapshotStore.save, if_neg (by simp [hblank])]
      have hfp : reference.fingerprint = .fromRequest request :=
        (hsame.fingerprint_iff hpayloads hmem).mpr hup
      have hrecord' : reference.record = request.record := hsame.record ▸ hrecord
      refine (get_bind _ s).trans ?_
      rw [hreference]
      dsimp only
      rw [if_neg (by tauto)]
      rfl

/-- The answers to a sequence of saves are the same until the first restamped retry. -/
theorem answerAll_save_iff {all : List SnapshotWrite}
    (hpayloads : TellsApart cfg.digest (all.map (·.payload))) :
    ∀ (requests : List SnapshotWrite) (v : StoreView D) (s : InMemorySnapshotStore),
      (∀ request ∈ requests, request ∈ all) → FollowsSnapshots cfg all v s →
        ((Flat.answerAll (Flat.save cfg) v requests).1 =
            (answerAll InMemorySnapshotStore.save s requests).1 ∧
          (Flat.answerAll (Flat.save cfg) v requests).2.snapshots =
            (answerAll InMemorySnapshotStore.save s requests).2.snapshots ↔
        ∀ before request after, requests = before ++ request :: after →
          ¬ Restamped cfg (Flat.answerAll (Flat.save cfg) v before).2 request) := by
  intro requests
  induction requests with
  | nil =>
    intro v s _ h
    refine ⟨fun _ before request after heq => ?_, fun _ => ⟨rfl, h.snapshots⟩⟩
    simp at heq
  | cons head rest ih =>
    intro v s hall h
    have hmem : head ∈ all := hall head (List.mem_cons_self ..)
    have hrest : ∀ request ∈ rest, request ∈ all := fun r hr => hall r (List.mem_cons_of_mem _ hr)
    rw [forall_split_cons]
    show _ ↔ ¬ Restamped cfg v head ∧ _
    by_cases hold : Restamped cfg v head
    · -- the two answers to this request already differ
      obtain ⟨hflat, revision, hreference⟩ := save_disagrees hpayloads hmem h hold
      refine ⟨fun heq => ?_, fun hnone => absurd hold hnone.1⟩
      rw [Flat.answerAll, answerAll, hflat, hreference] at heq
      cases List.head_eq_of_cons_eq heq.1
    · have hagree := save_agrees hpayloads hmem h hold
      cases hflat : Flat.save cfg v head with
      | error e =>
        rw [hflat] at hagree
        have hrun : (InMemorySnapshotStore.save head).run s = .error e s := hagree
        simp only [Flat.answerAll, answerAll, hflat, hrun, List.cons.injEq, true_and, hold,
          not_false_eq_true]
        exact ih v s hrest h
      | ok r =>
        rw [hflat] at hagree
        obtain ⟨s', hrun, h'⟩ := hagree
        simp only [Flat.answerAll, answerAll, hflat, hrun, List.cons.injEq, true_and, hold,
          not_false_eq_true]
        exact ih r.2 s' hrest h'

theorem length_answerAll {ρ σ α : Type} {apply : ρ → EStateM StoreError σ α} :
    ∀ (requests : List ρ) (s : σ), (answerAll apply s requests).1.length = requests.length
  | [], _ => rfl
  | request :: rest, s => by
    rw [answerAll]
    cases (apply request).run s <;> simp [length_answerAll rest]

omit [DecidableEq D] in
theorem Flat.length_answerAll {ρ α : Type}
    {f : StoreView D → ρ → Except StoreError (α × StoreView D)} :
    ∀ (requests : List ρ) (v : StoreView D),
      (Flat.answerAll f v requests).1.length = requests.length
  | [], _ => rfl
  | request :: rest, v => by
    rw [Flat.answerAll]
    cases f v request <;> simp [Flat.length_answerAll rest]

theorem mapError_store_injective {α : Type} {x y : Except StoreError α}
    (h : x.mapError Failure.store = y.mapError Failure.store) : x = y := by
  cases x <;> cases y <;> simp_all [Except.mapError]

variable (cfg) in
/-- The backend and the reference store, both empty at first, answer every save of the
sequence alike and hold the same snapshots afterwards. -/
def SavesAgree (requests : List SnapshotWrite) : Prop :=
  let this := performAll ({} : MemoryBackend cfg) (requests.map .save)
  let reference := answerAll InMemorySnapshotStore.save {} requests
  this.1 = List.zipWith (fun request answer =>
      ⟨.save request, answer.mapError .store⟩) requests reference.1 ∧
    ∀ record, (load record).run this.2 = .ok (reference.2.load record) this.2

/-- A sequence of saves is answered alike exactly when no request repeats the one
applied under its id with another time. -/
theorem snapshotSaves_agree_iff (requests : List SnapshotWrite)
    (hpayloads : TellsApart cfg.digest (requests.map (·.payload))) :
    SavesAgree cfg requests ↔
      ∀ before request after, requests = before ++ request :: after →
        ¬ Restamped cfg (performAll ({} : MemoryBackend cfg) (before.map .save)).2.view
          request := by
  have hstate : ∀ before : List SnapshotWrite,
      (performAll ({} : MemoryBackend cfg) (before.map .save)).2.view =
        (Flat.answerAll (Flat.save cfg) ({} : MemoryBackend cfg).view before).2 := by
    intro before
    rw [(performAll_flat _ _).2, callAll_save]
  have hinit : FollowsSnapshots cfg requests ({} : MemoryBackend cfg).view {} :=
    ⟨rfl, fun _ => .none, (fun _ _ h => by cases h)⟩
  have hiff := answerAll_save_iff hpayloads requests _ _ (fun _ h => h) hinit
  simp only [hstate]
  rw [← hiff, SavesAgree]
  have hanswers := (performAll_flat (requests.map .save) ({} : MemoryBackend cfg)).1
  rw [callAll_save, List.map_zipWith] at hanswers
  constructor
  · rintro ⟨hsame, hload⟩
    refine ⟨?_, funext fun record => ?_⟩
    · refine zipWith_inj ?_ (Flat.length_answerAll requests _) (length_answerAll requests _)
        (hanswers.symm.trans hsame)
      intro request x y heq
      simp only [storeAnswer, Sigma.mk.injEq, heq_eq_eq, true_and] at heq
      exact mapError_store_injective heq
    · rw [← hstate]
      have := hload record
      injection this
  · rintro ⟨hsame, hsnapshots⟩
    refine ⟨?_, fun record => ?_⟩
    · rw [hanswers, hsame]
      rfl
    · have hrecord := congrFun hsnapshots record
      rw [← hstate] at hrecord
      exact congrArg (EStateM.Result.ok · _) hrecord

end Agreement

/-- A save of one record at a given time. -/
def stampedSave (updatedAtUnixMs : ℕ) : SnapshotWrite :=
  ⟨"req-1", ⟨"player", "a"⟩, "player.runtime", 1, [1], none, updatedAtUnixMs⟩

/-- The retry of a save with a later time: a conflict here, a duplicate there. -/
theorem snapshotSaves_restamped :
    ¬ SavesAgree plainConfig [stampedSave 1, stampedSave 2] := by
  rintro ⟨hanswers, -⟩
  have hlast := congrArg List.getLast? hanswers
  have hthis : (performAll ({} : MemoryBackend plainConfig)
      ([stampedSave 1, stampedSave 2].map .save)).1.getLast? =
        some ⟨.save (stampedSave 2), .error (.store (.idempotencyConflict "req-1"))⟩ := rfl
  rw [hthis] at hlast
  have hreference : (List.zipWith (fun request answer => (⟨.save request,
      answer.mapError .store⟩ : Answered)) [stampedSave 1, stampedSave 2]
        (answerAll InMemorySnapshotStore.save {} [stampedSave 1, stampedSave 2]).1).getLast? =
        some ⟨.save (stampedSave 2), .ok (.duplicate 1)⟩ := rfl
  rw [hreference] at hlast
  simp at hlast

/-- The same sequence with an unchanged retry is answered alike. -/
theorem snapshotSaves_agree_retry :
    TellsApart plainConfig.digest ([stampedSave 1, stampedSave 1].map (·.payload)) ∧
      SavesAgree plainConfig [stampedSave 1, stampedSave 1] := by
  have hpayloads : TellsApart plainConfig.digest
      ([stampedSave 1, stampedSave 1].map (·.payload)) := fun _ _ _ _ h => h
  refine ⟨hpayloads, (snapshotSaves_agree_iff _ hpayloads).mpr ?_⟩
  intro before request after heq
  rw [List.cons_eq_append_iff] at heq
  rcases heq with ⟨rfl, heq⟩ | ⟨before, rfl, heq⟩
  · rintro ⟨receipt, hreceipt, -⟩
    cases hreceipt
  · have hone : before = [] ∧ request = stampedSave 1 := by
      cases before with
      | nil => exact ⟨rfl, (List.cons.inj heq).1.symm⟩
      | cons b before => simp at heq
    obtain ⟨rfl, rfl⟩ := hone
    rintro ⟨receipt, hreceipt, -, -, hne⟩
    obtain rfl := Option.some.inj (hreceipt.symm.trans rfl)
    exact hne rfl

end DbProxy
