/-
Read fences of `LoadSnapshot` and `LoadMultiSnapshot`.

A request may ask for a minimum revision of each record and may allow a stale read.  The
handlers read the cache first if they may, and read the authority when a fence is missed.
The backend may answer a second call differently, so the theorems below are about the
replies that a run of the handler got (`Interaction.Runs`):

* `meetsReadFence_iff`, `zip_fences` — what the fence checks say of a snapshot and of a batch;
* `read_fences` — a successful response is one reply of the backend, and meets every fence.
-/
import DbProxy.Dispatch

namespace DbProxy

open Interaction

theorem meetsReadFence_iff {snapshot : Option SnapshotEnvelope} {minimum : ℕ} :
    meetsReadFence snapshot minimum = true ↔
      (0 < minimum → ∃ s, snapshot = some s ∧ minimum ≤ s.revision) := by
  rw [meetsReadFence, Bool.or_eq_true, beq_iff_eq]
  cases snapshot with
  | none => simp
  | some s =>
    simp
    omega

theorem requireReadFence_ok {snapshot : Option SnapshotEnvelope} {minimum : ℕ} {u : Unit}
    (h : requireReadFence snapshot minimum = .ok u) : meetsReadFence snapshot minimum = true := by
  rw [requireReadFence] at h
  split at h
  · assumption
  · cases h

/-- A batch that passes meets the fence of every position. -/
theorem zip_fences {snapshots : List (Option SnapshotEnvelope)} {minima : List ℕ} {u : Unit}
    (h : ((snapshots.zip minima).forM fun x => requireReadFence x.1 x.2) = .ok u)
    (hlength : snapshots.length = minima.length) {i minimum : ℕ}
    (hminimum : minima[i]? = some minimum) (hpos : 0 < minimum) :
    ∃ s, snapshots[i]? = some (some s) ∧ minimum ≤ s.revision := by
  obtain ⟨hi, -⟩ := List.getElem?_eq_some_iff.mp hminimum
  obtain ⟨snapshot, hsnapshot⟩ : ∃ snapshot, snapshots[i]? = some snapshot :=
    ⟨_, List.getElem?_eq_getElem (by omega)⟩
  have hmem : (snapshot, minimum) ∈ snapshots.zip minima := by
    refine List.mem_of_getElem? (i := i) ?_
    rw [List.getElem?_zip_eq_some]
    exact ⟨hsnapshot, hminimum⟩
  have hfence := requireReadFence_ok (Checks.forM_eq_ok.mp h _ hmem)
  obtain ⟨s, rfl, hs⟩ := meetsReadFence_iff.mp hfence hpos
  exact ⟨s, hsnapshot, hs⟩

/-- The calls that read the cache. -/
def BackendCall.Cached : BackendCall → Prop
  | .loadCached _ | .loadCachedMulti _ => True
  | _ => False

section Handlers

variable {plain : Char → Bool} {calls : List ((c : BackendCall) × c.Reply)}

theorem runs_ask {c : BackendCall} {a : c.Value} :
    Runs (ask plain c).run calls (.ok a) ↔ calls = [⟨c, .ok a⟩] := by
  rw [ask, runs_query_ok]
  constructor
  · rintro ⟨r, hr, rfl⟩
    obtain rfl : r = .ok a := hr
    rfl
  · rintro rfl
    exact ⟨.ok a, rfl, rfl⟩

theorem runs_ensure_bind {α β : Type} {x : Except RpcFailure α} {f : α → Handler β} {b : β} :
    Runs (ensure x >>= f).run calls (.ok b) ↔ ∃ a, x = .ok a ∧ Runs (f a).run calls (.ok b) :=
  runs_ofResult_bind_ok

theorem runs_convert_bind {α β : Type} {x : Except ProtocolError α} {f : α → Handler β} {b : β} :
    Runs (convert plain x >>= f).run calls (.ok b) ↔
      ∃ a, x = .ok a ∧ Runs (f a).run calls (.ok b) := by
  rw [convert, runs_ensure_bind]
  cases x with
  | error e => simp [Except.mapError]
  | ok a => simp [Except.mapError]

theorem runs_present_bind {α β : Type} {message : String} {field : Option α} {f : α → Handler β}
    {b : β} :
    Runs (present message field >>= f).run calls (.ok b) ↔
      ∃ a, field = some a ∧ Runs (f a).run calls (.ok b) := by
  rw [present, runs_ensure_bind]
  cases field with
  | none => simp
  | some a => simp

/-- A read that goes to the cache first if it may, and to the authority when `missed` says so:
what goes on is the reply to one of the two calls. -/
theorem runs_read {α β : Type} (cachedReply loadReply : α → (c : BackendCall) × c.Reply)
    {allowStale : Bool} {missed : α → Bool} {cached load : Handler α} {next : α → Handler β} {b : β}
    (hcached : ∀ {calls a}, Runs cached.run calls (.ok a) → calls = [cachedReply a])
    (hload : ∀ {calls a}, Runs load.run calls (.ok a) → calls = [loadReply a])
    (h : Runs ((if allowStale then cached else load) >>= fun first =>
      (if allowStale && missed first then load else pure first) >>= next).run calls (.ok b)) :
    ∃ value after, (cachedReply value ∈ calls ∨ loadReply value ∈ calls) ∧
      Runs (next value).run after (.ok b) := by
  obtain ⟨before, first, _, rfl, hfirst, h⟩ := runs_exceptT_bind_ok.mp h
  obtain ⟨between, value, after, rfl, hsecond, h⟩ := runs_exceptT_bind_ok.mp h
  refine ⟨value, after, ?_, h⟩
  split at hsecond
  · rw [hload hsecond]
    exact Or.inr (by simp)
  · obtain ⟨rfl, rfl⟩ := runs_pure_ok.mp hsecond
    split at hfirst
    · rw [hcached hfirst]
      exact Or.inl List.mem_cons_self
    · rw [hload hfirst]
      exact Or.inr List.mem_cons_self

theorem runs_dispatchLoadSnapshot {request : WireLoadSnapshotRequest} {body : ResponseBody}
    (h : Runs (dispatchLoadSnapshot plain request).run calls (.ok body)) :
    ∃ wire record snapshot, request.record = some wire ∧ wire.toCore = .ok record ∧
      (⟨.loadCached record, .ok snapshot⟩ ∈ calls ∨ ⟨.load record, .ok snapshot⟩ ∈ calls) ∧
      body = .loadSnapshot (snapshot.map (·.toWire)) ∧
      meetsReadFence snapshot ((request.minRevision.map (·.toNat)).getD 0) = true := by
  obtain ⟨wire, hwire, h⟩ := runs_present_bind.mp h
  obtain ⟨record, hrecord, h⟩ := runs_convert_bind.mp h
  obtain ⟨snapshot, after, hfrom, h⟩ := runs_read
    (fun snapshot => ⟨.loadCached record, .ok snapshot⟩)
    (fun snapshot => ⟨.load record, .ok snapshot⟩) runs_ask.mp runs_ask.mp h
  obtain ⟨u, hfence, h⟩ := runs_ensure_bind.mp h
  obtain ⟨-, rfl⟩ := runs_pure_ok.mp h
  exact ⟨wire, record, snapshot, hwire, hrecord, hfrom, rfl, requireReadFence_ok hfence⟩

theorem runs_dispatchLoadMultiSnapshot {request : WireLoadMultiSnapshotRequest}
    {body : ResponseBody}
    (h : Runs (dispatchLoadMultiSnapshot plain request).run calls (.ok body)) :
    ∃ records snapshots, request.records.mapM WireRecordKey.toCore = .ok records ∧
      (⟨.loadCachedMulti records, .ok snapshots⟩ ∈ calls ∨
        ⟨.loadMulti records, .ok snapshots⟩ ∈ calls) ∧
      body = .loadMultiSnapshot (snapshots.map (Option.map (·.toWire))) ∧
      snapshots.length = request.records.length ∧
      ∀ (i : ℕ) (minimum : UInt64), request.minRevisions[i]? = some minimum →
        0 < minimum.toNat →
        ∃ s : SnapshotEnvelope, snapshots[i]? = some (some s) ∧ minimum.toNat ≤ s.revision := by
  obtain ⟨-, -, h⟩ := runs_ensure_bind.mp h
  obtain ⟨-, -, h⟩ := runs_ensure_bind.mp h
  obtain ⟨records, hrecords, h⟩ := runs_convert_bind.mp h
  obtain ⟨-, -, h⟩ := runs_ensure_bind.mp h
  obtain ⟨_, hminima, h⟩ := runs_ensure_bind.mp h
  obtain ⟨snapshots, after, hfrom, h⟩ := runs_read
    (fun snapshots => ⟨.loadCachedMulti records, .ok snapshots⟩)
    (fun snapshots => ⟨.loadMulti records, .ok snapshots⟩) runs_ask.mp runs_ask.mp h
  obtain ⟨_, hfences, h⟩ := runs_ensure_bind.mp h
  have hcount : records.length = request.records.length :=
    (Checks.mapM_eq_ok.mp hrecords).length_eq.symm
  split at h
  · exact absurd h not_runs_throw
  rename_i hlength
  rw [not_not] at hlength
  obtain ⟨-, rfl⟩ := runs_pure_ok.mp h
  refine ⟨records, snapshots, hrecords, hfrom, rfl, hlength.trans hcount, ?_⟩
  intro i minimum hminimum hpos
  have hne : request.minRevisions ≠ [] := by
    intro hnil
    rw [hnil] at hminimum
    cases hminimum
  have hminimaLength : request.minRevisions.length = records.length := by
    by_contra hne'
    rw [refuseIf, if_pos ⟨hne, hne'⟩] at hminima
    cases hminima
  have hreads : readFences request.minRevisions records.length =
      request.minRevisions.map (·.toNat) := if_neg hne
  rw [hreads] at hfences
  refine zip_fences hfences ?_ ?_ hpos
  · rw [List.length_map, hminimaLength, hlength]
  · rw [List.getElem?_map, hminimum]
    rfl

theorem dispatchLoadSnapshot_authoritative {request : WireLoadSnapshotRequest}
    (h : request.allowStale = false) :
    AllCalls (fun c => ¬ c.Cached) (dispatchLoadSnapshot plain request).run := by
  refine allCalls_present_bind.mpr fun _ _ => allCalls_convert_bind.mpr fun record _ =>
    allCalls_exceptT_bind ?_ fun first => allCalls_exceptT_bind ?_ fun snapshot =>
    allCalls_ensure_bind.mpr fun _ _ => allCalls_pure
  · rw [h, if_neg Bool.false_ne_true]
    exact allCalls_ask (fun hcached => hcached)
  · rw [h, Bool.false_and, if_neg Bool.false_ne_true]
    exact allCalls_pure

theorem dispatchLoadMultiSnapshot_authoritative {request : WireLoadMultiSnapshotRequest}
    (h : request.allowStale = false) :
    AllCalls (fun c => ¬ c.Cached) (dispatchLoadMultiSnapshot plain request).run := by
  refine allCalls_ensure_bind.mpr fun _ _ => allCalls_ensure_bind.mpr fun _ _ =>
    allCalls_convert_bind.mpr fun records _ => allCalls_ensure_bind.mpr fun _ _ =>
    allCalls_ensure_bind.mpr fun _ _ => allCalls_exceptT_bind ?_ fun first =>
    allCalls_exceptT_bind ?_ fun snapshots => allCalls_ensure_bind.mpr fun _ _ => ?_
  · rw [h, if_neg Bool.false_ne_true]
    exact allCalls_ask (fun hcached => hcached)
  · rw [h, Bool.false_and, if_neg Bool.false_ne_true]
    exact allCalls_pure
  · split
    · exact allCalls_throw
    · exact allCalls_pure

end Handlers

/-- **Read fences hold.**  Whatever the backend answers, a load that succeeds returns the reply
to one call for its records, the cached read or the authoritative one, entry by entry; every
entry with a positive minimum revision has reached it.  Without `allow_stale` the cached read
is not called. -/
theorem read_fences (plain : Char → Bool) (maxPayloadBytes : ℕ) :
    (∀ (request : WireLoadSnapshotRequest) calls body,
      Runs (dispatchBody plain maxPayloadBytes (some (.loadSnapshot request))).run calls
        (.ok body) →
      ∃ wire record snapshot, request.record = some wire ∧ wire.toCore = .ok record ∧
        (⟨.loadCached record, .ok snapshot⟩ ∈ calls ∨ ⟨.load record, .ok snapshot⟩ ∈ calls) ∧
        body = .loadSnapshot (snapshot.map (·.toWire)) ∧
        ∀ minimum, request.minRevision = some minimum → 0 < minimum.toNat →
          ∃ s, snapshot.map (·.toWire) = some s ∧ minimum.toNat ≤ s.revision) ∧
    (∀ (request : WireLoadMultiSnapshotRequest) calls body,
      Runs (dispatchBody plain maxPayloadBytes (some (.loadMultiSnapshot request))).run calls
        (.ok body) →
      ∃ records snapshots, request.records.mapM WireRecordKey.toCore = .ok records ∧
        (⟨.loadCachedMulti records, .ok snapshots⟩ ∈ calls ∨
          ⟨.loadMulti records, .ok snapshots⟩ ∈ calls) ∧
        body = .loadMultiSnapshot (snapshots.map (Option.map (·.toWire))) ∧
        snapshots.length = request.records.length ∧
        ∀ (i : ℕ) (minimum : UInt64), request.minRevisions[i]? = some minimum →
          0 < minimum.toNat →
          ∃ s, (snapshots.map (Option.map (·.toWire)))[i]? = some (some s) ∧
            minimum.toNat ≤ s.revision) ∧
    (∀ request : WireLoadSnapshotRequest, request.allowStale = false →
      AllCalls (fun c => ¬ c.Cached)
        (dispatchBody plain maxPayloadBytes (some (.loadSnapshot request))).run) ∧
    ∀ request : WireLoadMultiSnapshotRequest, request.allowStale = false →
      AllCalls (fun c => ¬ c.Cached)
        (dispatchBody plain maxPayloadBytes (some (.loadMultiSnapshot request))).run := by
  refine ⟨fun request calls body h => ?_, fun request calls body h => ?_,
    fun request h => dispatchLoadSnapshot_authoritative h,
    fun request h => dispatchLoadMultiSnapshot_authoritative h⟩
  · obtain ⟨wire, record, snapshot, hwire, hrecord, hfrom, rfl, hfence⟩ :=
      runs_dispatchLoadSnapshot h
    refine ⟨wire, record, snapshot, hwire, hrecord, hfrom, rfl, ?_⟩
    intro minimum hminimum hpos
    rw [hminimum] at hfence
    obtain ⟨s, rfl, hs⟩ := meetsReadFence_iff.mp hfence hpos
    exact ⟨s.toWire, rfl, hs⟩
  · obtain ⟨records, snapshots, hrecords, hfrom, rfl, hlength, hfences⟩ :=
      runs_dispatchLoadMultiSnapshot h
    refine ⟨records, snapshots, hrecords, hfrom, rfl, hlength, ?_⟩
    intro i minimum hminimum hpos
    obtain ⟨s, hs, hrevision⟩ := hfences i minimum hminimum hpos
    refine ⟨s.toWire, ?_, hrevision⟩
    rw [List.getElem?_map, hs]
    rfl

/-- A batch with a fence on its first record. -/
def fencedRequest : WireLoadMultiSnapshotRequest :=
  ⟨[⟨"player", "1"⟩, ⟨"player", "2"⟩], true, [3, 0]⟩

/-- The cached read is one revision behind, the authoritative one is not. -/
def fencedSnapshot (revision : Revision) : SnapshotEnvelope :=
  ⟨⟨"player", "1"⟩, "profile", 1, revision, [7], 5⟩

theorem read_fences_behind :
    let records : List RecordKey := [⟨"player", "1"⟩, ⟨"player", "2"⟩]
    let calls : List ((c : BackendCall) × c.Reply) :=
      [⟨.loadCachedMulti records, .ok [some (fencedSnapshot 2), none]⟩,
        ⟨.loadMulti records, .ok [some (fencedSnapshot 3), none]⟩]
    let body := ResponseBody.loadMultiSnapshot [some (fencedSnapshot 3).toWire, none]
    Runs (dispatchBody Char.isAlphanum 1024 (some (.loadMultiSnapshot fencedRequest))).run calls
        (.ok body) ∧
      ∃ records' snapshots, (⟨.loadCachedMulti records', .ok snapshots⟩ ∈ calls ∨
          ⟨.loadMulti records', .ok snapshots⟩ ∈ calls) ∧
        body = .loadMultiSnapshot (snapshots.map (Option.map (·.toWire))) := by
  intro records calls body
  have hrun : Runs (dispatchBody Char.isAlphanum 1024
      (some (.loadMultiSnapshot fencedRequest))).run calls (.ok body) :=
    ⟨_, _, rfl, _, _, rfl, rfl, rfl⟩
  obtain ⟨records', snapshots, -, hfrom, hbody, -⟩ :=
    (read_fences Char.isAlphanum 1024).2.1 fencedRequest calls body hrun
  exact ⟨hrun, records', snapshots, hfrom, hbody⟩

end DbProxy
