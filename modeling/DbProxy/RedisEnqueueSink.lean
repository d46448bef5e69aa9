/-
The batcher over Redis connections (`RedisEnqueueSink::write`).

A write takes the connection out of its slot, or opens one, sends the enqueue
script, and puts the connection back only after Redis has acknowledged.  Any
failure, a timeout or the end of the batcher drops the connection; a script that
was sent on it and has not run may still run at any later time.  The scripts of
the flush side run in between.

* `EnqueueSystem.step` — batcher, sink, abandoned scripts and backlog together;
* `AckedKept` — the entry of an acknowledged newest submission stays until it is
  flushed and acknowledged;
* `acknowledged_enqueue_kept` — it does, in every run in which no abandoned script
  runs while the newest submission of one of its records is confirmed and not flushed;
* `abandoned_script_overtakes` — without that condition it does not.
-/
import DbProxy.BacklogFlush
import DbProxy.BacklogRepresentation
import DbProxy.GroupCommit

namespace DbProxy

open RedisSnapshotBacklog StepMachine

/-- Where the current call of `write` stands. -/
inductive SinkPhase
  | idle
  | started
  | sent (score : ℕ) (requests : List SnapshotWrite)
  | executed
deriving DecidableEq

/-- `abandoned` are the scripts on dropped connections that have not run.
`acknowledged` are the entries that acknowledgements of the flush side removed, each
with the submissions that were confirmed by then. -/
structure EnqueueSystem where
  batcher : EnqueueBatcher SnapshotWrite := {}
  sink : SinkPhase := .idle
  connection : Bool := true
  abandoned : List (ℕ × List SnapshotWrite) := []
  backlog : BacklogSystem := {}
  acknowledged : List (String × Bytes × List ℕ) := []

inductive SinkEvent
  | batcher (e : EnqueueEvent SnapshotWrite)
  | connect
  | invoke (score : ℕ)
  | execute (clock : RedisClock)
  | succeed
  | fail (message : String)
  | late (script : ℕ) (clock : RedisClock)
  | backlog (e : BacklogEvent)

def Worker.isWriting : Worker → Bool
  | writing _ => true
  | idle | collecting _ _ | judging _ _ | taken _ _ _ _ | replying _ _ | stopped => false

theorem Worker.exists_of_isWriting {w : Worker} (h : w.isWriting = true) :
    ∃ live, w = .writing live := by
  cases w with
  | writing live => exact ⟨live, rfl⟩
  | _ => cases h

def SinkWrite.succeeded {ε : Type} (w : SinkWrite ε) : Bool :=
  match w.outcome with
  | some (.ok ()) => true
  | some (.error _) | none => false

namespace EnqueueSystem

variable (encode : SnapshotWrite → Bytes) (config : EnqueueBatchConfig)

/-- The script that a dropped connection leaves behind. -/
def inFlight (s : EnqueueSystem) : List (ℕ × List SnapshotWrite) :=
  match s.sink with
  | .sent score requests => [(score, requests)]
  | .idle | .started | .executed => []

/-- The entries of the current write. -/
def currentEntries (s : EnqueueSystem) : List SnapshotWrite :=
  (s.batcher.writes.getLast?).elim [] (·.entries)

/-- Drop the connection of the current write. -/
def abandon (s : EnqueueSystem) (batcher : EnqueueBatcher SnapshotWrite) : EnqueueSystem :=
  { s with batcher, sink := .idle, connection := false, abandoned := s.abandoned ++ s.inFlight }

/-- The submissions of the current write. -/
def currentJobs (s : EnqueueSystem) : List ℕ := (s.batcher.writes.getLast?).elim [] (·.jobs)

/-- The submissions whose write succeeded, or whose script ran and whose
acknowledgement is pending. -/
def confirmed (s : EnqueueSystem) : List ℕ :=
  (s.batcher.writes.filter (·.succeeded)).flatMap (·.jobs) ++
    if s.sink = .executed then s.currentJobs else []

/-- The entries that an acknowledgement removed. -/
def removedBy (s : EnqueueSystem) (e : BacklogEvent) (after : Backlog) :
    List (String × Bytes × List ℕ) :=
  e.acknowledged.filterMap fun lease =>
    match s.backlog.redis.entries (entryKey lease.member),
      after.entries (entryKey lease.member) with
    | some bytes, none => some (lease.member, bytes, s.confirmed)
    | _, _ => none

def stepBatcher (s : EnqueueSystem) : EnqueueEvent SnapshotWrite → Option EnqueueSystem
  -- the end of a write is decided by the sink
  | .endWrite _ => none
  | .abort => (s.batcher.step config .abort).map s.abandon
  -- `enqueue` prepares the entries before it submits them
  | .reserve job requests =>
    if (requests.mapM (prepare encode)).isOk then
      (s.batcher.step config (.reserve job requests)).map fun batcher => { s with batcher }
    else none
  | .beginWrite now =>
    (s.batcher.step config (.beginWrite now)).map fun batcher =>
      { s with batcher, sink := if batcher.worker.isWriting then .started else s.sink }
  | e => (s.batcher.step config e).map fun batcher => { s with batcher }

def step (s : EnqueueSystem) : SinkEvent → Option EnqueueSystem
  | .batcher e => s.stepBatcher encode config e
  | .connect =>
    if s.sink = .started ∧ ¬ s.connection then some { s with connection := true } else none
  | .invoke score =>
    if s.sink = .started ∧ s.connection then
      some { s with sink := .sent score s.currentEntries, connection := false }
    else none
  | .execute clock =>
    match s.sink with
    | .sent score requests =>
      (s.backlog.step encode (.enqueue clock score requests)).map fun backlog =>
        { s with backlog, sink := .executed }
    | _ => none
  | .succeed =>
    if s.sink = .executed then
      (s.batcher.step config (.endWrite (.ok ()))).map fun batcher =>
        { s with batcher, sink := .idle, connection := true }
    else none
  | .fail message =>
    if s.sink = .idle then none
    else (s.batcher.step config (.endWrite (.error message))).map s.abandon
  | .late script clock =>
    match s.abandoned[script]? with
    | some (score, requests) =>
      (s.backlog.step encode (.enqueue clock score requests)).map fun backlog =>
        { s with backlog, abandoned := s.abandoned.eraseIdx script }
    | none => none
  | .backlog (.enqueue ..) => none
  | .backlog e =>
    (s.backlog.step encode e).map fun backlog =>
      { s with
        backlog
        acknowledged := s.acknowledged ++ s.removedBy e backlog.redis }

/-! ### What a submission is promised -/

end EnqueueSystem

/-- The last request for a record. -/
def lastRequest (record : RecordKey) (requests : List SnapshotWrite) : Option SnapshotWrite :=
  (requests.filter (·.record = record)).getLast?

namespace EnqueueSystem

/-- The submission for a record that was accepted last. -/
def newest (s : EnqueueSystem) (record : RecordKey) : Option ℕ :=
  (s.batcher.accepted.filter fun job =>
    (lastRequest record (s.batcher.jobs job).entries).isSome).getLast?

/-- The entry of the submission was flushed and acknowledged. -/
def Flushed (encode : SnapshotWrite → Bytes) (s : EnqueueSystem) (job : ℕ) (record : RecordKey)
    (request : SnapshotWrite) : Prop :=
  ∃ sequence jobs,
    (member record, sequencedEntry sequence (encode request), jobs) ∈ s.acknowledged ∧ job ∈ jobs

/-- The entry of the record is this request of the submission, or it was flushed and
acknowledged. -/
def Holds (encode : SnapshotWrite → Bytes) (s : EnqueueSystem) (job : ℕ) (record : RecordKey)
    (request : SnapshotWrite) : Prop :=
  (∃ sequence, s.backlog.redis.entries (entryKey (member record)) =
    some (sequencedEntry sequence (encode request))) ∨ s.Flushed encode job record request

/-- A submission that returned `Ok` keeps its entry as long as it is the newest one
for the record. -/
def AckedKept (encode : SnapshotWrite → Bytes) (s : EnqueueSystem) : Prop :=
  ∀ job record request, (s.batcher.jobs job).caller = .returned .ok →
    s.newest record = some job →
    lastRequest record (s.batcher.jobs job).entries = some request →
    s.Holds encode job record request

/-- An abandoned script runs only while no newest submission of one of its records is
confirmed and not flushed yet. -/
def Timely (encode : SnapshotWrite → Bytes) (s : EnqueueSystem) : SinkEvent → Prop
  | .late script _ => ∀ score requests, s.abandoned[script]? = some (score, requests) →
    ∀ record ∈ requests.map (·.record), ∀ job, s.newest record = some job → job ∈ s.confirmed →
    ∀ request, lastRequest record (s.batcher.jobs job).entries = some request →
      s.Flushed encode job record request
  | _ => True

/-- An abandoned script runs only before the newest submissions of its records are confirmed. -/
def beforeConfirmation (s : EnqueueSystem) : SinkEvent → Bool
  | .late script _ => (s.abandoned[script]?).all fun x => x.2.all fun request =>
    (s.newest request.record).all fun job => !s.confirmed.contains job
  | _ => true

theorem timely_of_beforeConfirmation {encode : SnapshotWrite → Bytes} {s : EnqueueSystem}
    {e : SinkEvent} (h : s.beforeConfirmation e = true) : s.Timely encode e := by
  cases e with
  | late script clock =>
    intro score requests hscript record hrecord job hnewest hconfirmed
    obtain ⟨request, hrequest, rfl⟩ := List.mem_map.mp hrecord
    simp only [beforeConfirmation, hscript, Option.all_some, List.all_eq_true] at h
    have hnot := h request hrequest
    rw [hnewest, Option.all_some] at hnot
    simp [hconfirmed] at hnot
  | _ => trivial

end EnqueueSystem

/-! ### What the enqueue script stores -/

theorem lastRequest_cons {record : RecordKey} {q : SnapshotWrite} {rest : List SnapshotWrite} :
    lastRequest record (q :: rest) =
      (lastRequest record rest).or (if q.record = record then some q else none) := by
  rw [lastRequest, lastRequest, List.filter_cons]
  by_cases hq : q.record = record
  · rw [if_pos (by simpa using hq), if_pos hq, List.getLast?_cons]
    cases (rest.filter (·.record = record)).getLast? <;> rfl
  · rw [if_neg (by simpa using hq), if_neg hq, Option.or_none]

theorem lastRequest_eq_none {record : RecordKey} {requests : List SnapshotWrite} :
    lastRequest record requests = none ↔ ∀ q ∈ requests, q.record ≠ record := by
  rw [lastRequest, List.getLast?_eq_none_iff, List.filter_eq_nil_iff]
  simp

/-- The loop of the script leaves the last request of every record. -/
theorem enqueueLoop_stores {encode : SnapshotWrite → Bytes} {score now : ℕ} (record : RecordKey)
    {requests : List SnapshotWrite} {entries : List EnqueueEntry}
    (h : List.Forall₂ (fun q entry => prepare encode q = .ok entry) requests entries) :
    ∀ {sequence : ℕ} {b : Backlog},
      (lastRequest record requests = none →
        (b.enqueueLoop score now sequence entries).entries (entryKey (member record)) =
          b.entries (entryKey (member record))) ∧
      ∀ request, lastRequest record requests = some request → ∃ n,
        (b.enqueueLoop score now sequence entries).entries (entryKey (member record)) =
          some (sequencedEntry n (encode request)) := by
  induction h with
  | nil =>
    intro sequence b
    refine ⟨fun _ => rfl, fun request hrequest => ?_⟩
    cases hrequest
  | @cons q entry requests entries hprepare _ ih =>
    intro sequence b
    obtain ⟨-, rfl⟩ := prepare_ok hprepare
    have hih := @ih (nextSequence now sequence) { b with
      entries := Function.update b.entries (entryKey (member q.record))
        (some (sequencedEntry (nextSequence now sequence) (encode q)))
      pending := b.pending.zadd (LuaNumber.toDouble score) (member q.record) }
    rw [Backlog.enqueueLoop, lastRequest_cons]
    cases hrest : lastRequest record requests with
    | some request =>
      refine ⟨fun hnone => ?_, fun request' hsome => ?_⟩
      · cases hnone
      · obtain rfl := Option.some.inj hsome
        exact hih.2 request hrest
    | none =>
      rw [Option.none_or]
      have hunchanged := hih.1 hrest
      by_cases hq : q.record = record
      · rw [if_pos hq]
        refine ⟨fun hnone => ?_, fun request' hsome => ?_⟩
        · cases hnone
        · obtain rfl := Option.some.inj hsome
          refine ⟨nextSequence now sequence, hunchanged.trans ?_⟩
          dsimp only
          rw [hq, Function.update_self]
      · rw [if_neg hq]
        refine ⟨fun _ => hunchanged.trans ?_, fun request' hsome => ?_⟩
        · dsimp only
          rw [Function.update_of_ne]
          intro heq
          exact hq (member_injective (entryKey_injective heq)).symm
        · cases hsome

/-- The script of an enqueue. -/
theorem step_enqueue_stores {encode : SnapshotWrite → Bytes} {b b' : BacklogSystem}
    {clock : RedisClock} {score : ℕ} {requests : List SnapshotWrite}
    (h : b.step encode (.enqueue clock score requests) = some b') (record : RecordKey) :
    (lastRequest record requests = none →
      b'.redis.entries (entryKey (member record)) = b.redis.entries (entryKey (member record))) ∧
    ∀ request, lastRequest record requests = some request → ∃ n,
      b'.redis.entries (entryKey (member record)) =
        some (sequencedEntry n (encode request)) := by
  obtain ⟨entries, hentries, hredis, -⟩ := step_enqueue h
  rw [hredis]
  exact enqueueLoop_stores record (Checks.mapM_eq_ok.mp hentries)

/-! ### The flush side -/

/-- Without an enqueue, entries only disappear. -/
theorem step_entries {encode : SnapshotWrite → Bytes} {b b' : BacklogSystem} {e : BacklogEvent}
    (he : ∀ clock score requests, e ≠ .enqueue clock score requests)
    (h : b.step encode e = some b') {k : String} {bytes : Bytes}
    (hafter : b'.redis.entries k = some bytes) : b.redis.entries k = some bytes := by
  cases e with
  | enqueue clock score requests => exact absurd rfl (he clock score requests)
  | claim clock leaseMs =>
    simp only [BacklogSystem.step, Option.ite_none_right_eq_some, Option.some.injEq] at h
    obtain ⟨-, rfl⟩ := h
    rw [Backlog.claimScript, ← claimLoop_eq] at hafter
    exact ((reclaimExpired_sameEntries _ _).trans (claimMultiLoop_sameEntries _ _ _ _ _)).1 ▸ hafter
  | claimMulti clock leaseMs maxItems =>
    simp only [BacklogSystem.step, Option.ite_none_right_eq_some, Option.some.injEq] at h
    obtain ⟨-, rfl⟩ := h
    exact ((reclaimExpired_sameEntries _ _).trans (claimMultiLoop_sameEntries _ _ _ _ _)).1 ▸ hafter
  | ack now lease =>
    simp only [BacklogSystem.step, Option.ite_none_right_eq_some, Option.some.injEq] at h
    obtain ⟨-, rfl⟩ := h
    exact (ackScript_tidies now lease b.redis).shrinks.entries _ _ hafter
  | ackMulti now leases =>
    simp only [BacklogSystem.step, Option.ite_none_right_eq_some, Option.some.injEq] at h
    obtain ⟨-, rfl⟩ := h
    exact (ackMultiScript_tidies now leases b.redis).shrinks.entries _ _ hafter
  | release now lease =>
    simp only [BacklogSystem.step, Option.ite_none_right_eq_some, Option.some.injEq] at h
    obtain ⟨-, rfl⟩ := h
    exact (releaseScript_tidies now lease b.redis).shrinks.entries _ _ hafter
  | releaseMulti now leases =>
    simp only [BacklogSystem.step, Option.ite_none_right_eq_some, Option.some.injEq] at h
    obtain ⟨-, rfl⟩ := h
    exact (releaseMultiScript_tidies now leases b.redis).shrinks.entries _ _ hafter
  | renew clock leaseMs lease =>
    simp only [BacklogSystem.step, Option.ite_none_right_eq_some, Option.some.injEq] at h
    obtain ⟨-, rfl⟩ := h
    exact (renewScript_tidies clock leaseMs lease b.redis).shrinks.entries _ _ hafter

/-! ### The order of submissions and the last request of a write -/

/-- A part of a list without duplicates that has the last element ends with it. -/
theorem getLast?_of_sublist {α : Type} {l m : List α} {a : α} (hsub : l.Sublist m)
    (hnodup : m.Nodup) (hlast : m.getLast? = some a) (ha : a ∈ l) : l.getLast? = some a := by
  obtain ⟨init, rfl⟩ : ∃ init, m = init ++ [a] := List.getLast?_eq_some_iff.mp hlast
  obtain ⟨l₁, l₂, rfl, h₁, h₂⟩ := List.sublist_append_iff.mp hsub
  rcases List.sublist_singleton.mp h₂ with rfl | rfl
  · -- then the element would stand earlier in `m` as well
    rw [List.append_nil] at ha
    exact absurd rfl ((List.nodup_append.mp hnodup).2.2 a (h₁.subset ha) a
      (List.mem_singleton_self a))
  · exact List.getLast?_concat

theorem lastRequest_flatMap {record : RecordKey} {entries : ℕ → List SnapshotWrite} {job : ℕ}
    {request : SnapshotWrite} {jobs : List ℕ}
    (hlast : (jobs.filter fun j => (lastRequest record (entries j)).isSome).getLast? = some job)
    (hrequest : lastRequest record (entries job) = some request) :
    lastRequest record (jobs.flatMap entries) = some request := by
  induction jobs with
  | nil => cases hlast
  | cons j rest ih =>
    have happend : ∀ l, lastRequest record (entries j ++ l) =
        (lastRequest record l).or (lastRequest record (entries j)) := by
      intro l
      rw [lastRequest, List.filter_append, List.getLast?_append]
      rfl
    rw [List.flatMap_cons, happend]
    rw [List.filter_cons] at hlast
    cases hrest : (rest.filter fun j => (lastRequest record (entries j)).isSome).getLast? with
    | some job' =>
      have heq : job' = job := by
        split at hlast
        · rw [List.getLast?_cons, hrest] at hlast
          simpa using hlast
        · rw [hrest] at hlast
          simpa using hlast
      rw [ih (heq ▸ hrest), Option.some_or]
    | none =>
      -- no later job has the record
      rw [List.getLast?_eq_none_iff] at hrest
      rw [hrest] at hlast
      have hnone : lastRequest record (rest.flatMap entries) = none := by
        rw [lastRequest_eq_none]
        intro q hq
        obtain ⟨j', hj', hq⟩ := List.mem_flatMap.mp hq
        have := List.filter_eq_nil_iff.mp hrest j' hj'
        simp only [Bool.not_eq_true, Option.isSome_eq_false_iff, Option.isNone_iff_eq_none] at this
        exact lastRequest_eq_none.mp this q hq
      rw [hnone, Option.none_or]
      split at hlast
      · have : j = job := by simpa using hlast
        rw [this, hrequest]
      · cases hlast

/-! ### The invariant -/

namespace EnqueueSystem

open EnqueueBatcher

variable {encode : SnapshotWrite → Bytes} {config : EnqueueBatchConfig} {s t : EnqueueSystem}

/-- A confirmed newest submission has its entry. -/
def ConfirmedKept (encode : SnapshotWrite → Bytes) (s : EnqueueSystem) : Prop :=
  ∀ record job request, s.newest record = some job → job ∈ s.confirmed →
    lastRequest record (s.batcher.jobs job).entries = some request →
    s.Holds encode job record request

structure SinkInv (encode : SnapshotWrite → Bytes) (s : EnqueueSystem) : Prop where
  batch : BatchInv s.batcher
  writing : s.sink ≠ .idle → ∃ live, s.batcher.worker = .writing live
  sent : ∀ score requests, s.sink = .sent score requests → requests = s.currentEntries
  kept : s.ConfirmedKept encode

theorem mem_confirmed {job : ℕ} : job ∈ s.confirmed ↔
    (∃ w ∈ s.batcher.writes, w.succeeded ∧ job ∈ w.jobs) ∨
      s.sink = .executed ∧ job ∈ s.currentJobs := by
  rw [confirmed, List.mem_append, List.mem_flatMap]
  refine or_congr ?_ ?_
  · simp only [List.mem_filter, and_assoc]
  · split <;> simp_all

theorem mem_writeJobs_of_currentJobs {job : ℕ} (h : job ∈ s.currentJobs) :
    job ∈ s.batcher.writeJobs := by
  rw [currentJobs] at h
  cases hlast : s.batcher.writes.getLast? with
  | none =>
    rw [hlast] at h
    cases h
  | some w =>
    rw [hlast] at h
    exact List.mem_flatMap.mpr ⟨w, List.mem_of_getLast? hlast, h⟩

theorem mem_writeJobs_of_confirmed {job : ℕ} (h : job ∈ s.confirmed) :
    job ∈ s.batcher.writeJobs := by
  rcases mem_confirmed.mp h with ⟨w, hw, -, hjob⟩ | ⟨-, hjob⟩
  · exact List.mem_flatMap.mpr ⟨w, hw, hjob⟩
  · exact mem_writeJobs_of_currentJobs hjob

theorem SinkInv.mem_accepted (inv : SinkInv encode s) {job : ℕ} (h : job ∈ s.confirmed) :
    job ∈ s.batcher.accepted :=
  inv.batch.mem_accepted (List.mem_append_left _ (mem_writeJobs_of_confirmed h))

/-! ### One step -/

/-- Submissions as before, or with a new one at the end. -/
def Extends (s t : EnqueueBatcher SnapshotWrite) : Prop :=
  (t.accepted = s.accepted ∨ ∃ job, job ∉ s.accepted ∧ t.accepted = s.accepted ++ [job]) ∧
    ∀ job ∈ s.accepted, (t.jobs job).entries = (s.jobs job).entries

theorem Extends.refl (s : EnqueueBatcher SnapshotWrite) : Extends s s :=
  ⟨Or.inl rfl, fun _ _ => rfl⟩

theorem newest_of_extends (hext : Extends s.batcher t.batcher) {record : RecordKey} {job : ℕ}
    (hjob : job ∈ s.batcher.accepted) (h : t.newest record = some job) :
    s.newest record = some job := by
  have hsame : (s.batcher.accepted.filter fun job =>
      (lastRequest record (t.batcher.jobs job).entries).isSome) = s.batcher.accepted.filter
        fun job => (lastRequest record (s.batcher.jobs job).entries).isSome :=
    List.filter_congr fun i hi => by rw [hext.2 i hi]
  rw [newest, ← hsame]
  rcases hext.1 with heq | ⟨new, hnew, heq⟩
  · rwa [newest, heq] at h
  · rw [newest, heq, List.filter_append, List.filter_cons, List.filter_nil] at h
    split at h
    · -- the new one is the newest, so it is not an old one
      rw [List.getLast?_concat, Option.some_inj] at h
      exact absurd (h ▸ hjob) hnew
    · rwa [List.append_nil] at h

/-- Nothing new is confirmed, and the entries are kept. -/
theorem ConfirmedKept.of_same (inv : SinkInv encode s) (hext : Extends s.batcher t.batcher)
    (hconfirmed : ∀ job, job ∈ t.confirmed → job ∈ s.confirmed)
    (hholds : ∀ job record request, s.newest record = some job → job ∈ s.confirmed →
      lastRequest record (s.batcher.jobs job).entries = some request →
      s.Holds encode job record request → t.Holds encode job record request) :
    t.ConfirmedKept encode := by
  intro record job request hjob hconf hrequest
  have hbefore := hconfirmed job hconf
  have haccepted := inv.mem_accepted hbefore
  have hnewest := newest_of_extends hext haccepted hjob
  rw [hext.2 job haccepted] at hrequest
  exact hholds job record request hnewest hbefore hrequest
    (inv.kept record job request hnewest hbefore hrequest)

/-- Only `reserve` sets the entries of a submission, and it is a new one. -/
theorem extends_of_step {b b' : EnqueueBatcher SnapshotWrite} {e : EnqueueEvent SnapshotWrite}
    (inv : BatchInv b) (h : b.step config e = some b') : Extends b b' := by
  constructor
  · have haccepted := step_accepted h
    cases hsent : sent? e with
    | none =>
      rw [hsent, Option.toList_none, List.append_nil] at haccepted
      exact Or.inl haccepted
    | some job =>
      rw [hsent] at haccepted
      refine Or.inr ⟨job, ?_, haccepted⟩
      cases e with
      | send j now =>
        obtain rfl := Option.some.inj hsent
        refine inv.not_accepted (Or.inr ?_)
        by_contra hcaller
        simp [EnqueueBatcher.step, hcaller] at h
      | _ => cases hsent
  · intro job hjob
    have hknown := inv.known job hjob
    cases e <;> simp only [EnqueueBatcher.step] at h
    all_goals (repeat' split at h) <;> first
      | contradiction
      | (obtain rfl := Option.some.inj h
         first
           | rfl
           | (simp only [setJob, Function.update_apply]
              split <;> simp_all))

/-- The writes of the sink and a worker that waits for it change only in three events. -/
theorem writes_of_step {b b' : EnqueueBatcher SnapshotWrite} {e : EnqueueEvent SnapshotWrite}
    (h : b.step config e = some b') (hbegin : ∀ now, e ≠ .beginWrite now)
    (hend : ∀ outcome, e ≠ .endWrite outcome) (habort : e ≠ .abort) :
    b'.writes = b.writes ∧ ∀ live, b.worker = .writing live → b'.worker = .writing live := by
  cases e with
  | beginWrite now => exact absurd rfl (hbegin now)
  | endWrite outcome => exact absurd rfl (hend outcome)
  | abort => exact absurd rfl habort
  | _ =>
    simp only [EnqueueBatcher.step] at h
    (repeat' split at h) <;> first
      | contradiction
      | (obtain rfl := Option.some.inj h
         refine ⟨rfl, fun live hlive => ?_⟩
         first
           | exact hlive
           | simp_all)

theorem confirmed_congr (hwrites : t.batcher.writes = s.batcher.writes) (hsink : t.sink = s.sink) :
    t.confirmed = s.confirmed := by
  rw [confirmed, confirmed, currentJobs, currentJobs, hwrites, hsink]

/-- While the sink is not about to answer, only writes that succeeded count. -/
theorem mem_confirmed_of_succeeded {job : ℕ} (hsink : t.sink ≠ .executed)
    (hwrites : ∀ w ∈ t.batcher.writes, w.succeeded → w ∈ s.batcher.writes)
    (h : job ∈ t.confirmed) : job ∈ s.confirmed := by
  rcases mem_confirmed.mp h with ⟨w, hw, hok, hjob⟩ | ⟨hexecuted, -⟩
  · exact mem_confirmed.mpr (Or.inl ⟨w, hwrites w hw hok, hok, hjob⟩)
  · exact absurd hexecuted hsink

/-- Steps that leave the backlog alone. -/
theorem Holds.of_backlog {job : ℕ} {record : RecordKey} {request : SnapshotWrite}
    (h : s.Holds encode job record request) (hbacklog : t.backlog = s.backlog)
    (hacknowledged : t.acknowledged = s.acknowledged) : t.Holds encode job record request := by
  rw [Holds, Flushed] at h ⊢
  rwa [hbacklog, hacknowledged]

/-- A step of the batcher that does not concern the sink. -/
theorem SinkInv.quiet (inv : SinkInv encode s) {batcher : EnqueueBatcher SnapshotWrite}
    {e : EnqueueEvent SnapshotWrite} (h : s.batcher.step config e = some batcher)
    (hbegin : ∀ now, e ≠ .beginWrite now) (hend : ∀ outcome, e ≠ .endWrite outcome)
    (habort : e ≠ .abort) : SinkInv encode { s with batcher } := by
  obtain ⟨hwrites, hworker⟩ := writes_of_step h hbegin hend habort
  refine ⟨step_batchInv inv.batch h, ?_, ?_, ?_⟩
  · intro hsink
    obtain ⟨live, hlive⟩ := inv.writing hsink
    exact ⟨live, hworker live hlive⟩
  · intro score requests hsent
    rw [inv.sent score requests hsent, currentEntries, currentEntries, hwrites]
  · refine ConfirmedKept.of_same inv (extends_of_step inv.batch h) ?_ ?_
    · have hsame : ({ s with batcher } : EnqueueSystem).confirmed = s.confirmed :=
        confirmed_congr hwrites rfl
      rw [hsame]
      exact fun _ hjob => hjob
    · intro job record request _ _ _ hholds
      exact hholds.of_backlog rfl rfl

/-- The batcher calls the sink, unless it has no live job or no time left. -/
theorem SinkInv.beginWrite (inv : SinkInv encode s) {batcher : EnqueueBatcher SnapshotWrite}
    {now : ℕ} (h : s.batcher.step config (.beginWrite now) = some batcher) {sink : SinkPhase}
    (hsink : batcher.worker.isWriting = true ∧ sink = .started ∨
      batcher.worker.isWriting = false ∧ sink = s.sink) :
    SinkInv encode { s with batcher, sink } := by
  have hworker : ∃ live, s.batcher.worker = .judging [] live := by
    simp only [EnqueueBatcher.step] at h
    split at h
    · rename_i live hlive
      exact ⟨live, hlive⟩
    · cases h
  have hidle : s.sink = .idle := by
    by_contra hne
    obtain ⟨live, hlive⟩ := hworker
    obtain ⟨live', hlive'⟩ := inv.writing hne
    rw [hlive] at hlive'
    cases hlive'
  have hsucceeded : ∀ w ∈ batcher.writes, w.succeeded → w ∈ s.batcher.writes := by
    simp only [EnqueueBatcher.step] at h
    (repeat' split at h) <;> first
      | contradiction
      | obtain rfl := Option.some.inj h
    · exact fun w hw _ => hw
    · exact fun w hw _ => hw
    · intro w hw hok
      rcases List.mem_append.mp hw with hw | hw
      · exact hw
      · -- the new write has no outcome yet
        rw [List.mem_singleton.mp hw] at hok
        cases hok
  have hphase : sink = .started ∨ sink = .idle := by
    rcases hsink with ⟨-, h⟩ | ⟨-, h⟩
    · exact Or.inl h
    · exact Or.inr (h.trans hidle)
  refine ⟨step_batchInv inv.batch h, ?_, ?_, ?_⟩
  · intro hne
    rcases hsink with ⟨hwriting, -⟩ | ⟨-, hsame⟩
    · exact Worker.exists_of_isWriting hwriting
    · exact absurd (hsame.trans hidle) hne
  · rintro score requests hsent
    rcases hphase with h | h
    · exact absurd (h.symm.trans hsent) (by simp)
    · exact absurd (h.symm.trans hsent) (by simp)
  · refine ConfirmedKept.of_same inv (extends_of_step inv.batch h) ?_ ?_
    · intro job hjob
      refine mem_confirmed_of_succeeded (s := s) ?_ hsucceeded hjob
      rcases hphase with rfl | rfl <;> simp
    · intro job record request _ _ _ hholds
      exact hholds.of_backlog rfl rfl

/-- The connection of the current write is dropped. -/
theorem SinkInv.abandon (inv : SinkInv encode s) {batcher : EnqueueBatcher SnapshotWrite}
    {e : EnqueueEvent SnapshotWrite} (h : s.batcher.step config e = some batcher)
    (hwrites : ∀ w ∈ batcher.writes, w.succeeded → w ∈ s.batcher.writes) :
    SinkInv encode (s.abandon batcher) := by
  refine ⟨step_batchInv inv.batch h, fun hne => absurd rfl hne,
    (fun _ _ hsent => by cases hsent), ?_⟩
  refine ConfirmedKept.of_same inv (extends_of_step inv.batch h) ?_ ?_
  · intro job hjob
    exact mem_confirmed_of_succeeded (s := s) (by simp [EnqueueSystem.abandon]) hwrites hjob
  · intro job record request _ _ _ hholds
    exact hholds.of_backlog rfl rfl

/-- The write that the sink is working on. -/
theorem SinkInv.current (inv : SinkInv encode s) (hsink : s.sink ≠ .idle) :
    ∃ live rest entries, s.batcher.worker = .writing live ∧
      s.batcher.writes = rest ++ [⟨live, entries, none⟩] := by
  obtain ⟨live, hlive⟩ := inv.writing hsink
  obtain ⟨rest, entries, hwrites⟩ := inv.batch.writing live hlive
  exact ⟨live, rest, entries, hlive, hwrites⟩

theorem endWrite_writes {b b' : EnqueueBatcher SnapshotWrite} {outcome : Except String Unit}
    {rest : List (SinkWrite SnapshotWrite)} {w : SinkWrite SnapshotWrite}
    (h : b.step config (.endWrite outcome) = some b') (hwrites : b.writes = rest ++ [w]) :
    b'.writes = rest ++ [{ w with outcome := some outcome }] := by
  simp only [EnqueueBatcher.step] at h
  split at h
  · obtain rfl := Option.some.inj h
    rw [hwrites, setOutcome_append]
  · cases h

theorem SinkInv.fail (inv : SinkInv encode s) {batcher : EnqueueBatcher SnapshotWrite}
    {message : String} (hsink : s.sink ≠ .idle)
    (h : s.batcher.step config (.endWrite (.error message)) = some batcher) :
    SinkInv encode (s.abandon batcher) := by
  obtain ⟨live, rest, entries, -, hwrites⟩ := inv.current hsink
  refine inv.abandon h fun w hw hok => ?_
  rw [endWrite_writes h hwrites] at hw
  rw [hwrites]
  rcases List.mem_append.mp hw with hw | hw
  · exact List.mem_append_left _ hw
  · rw [List.mem_singleton.mp hw] at hok
    cases hok

/-- The submissions of the write were confirmed when the script ran. -/
theorem SinkInv.succeed (inv : SinkInv encode s) {batcher : EnqueueBatcher SnapshotWrite}
    (hsink : s.sink = .executed) (h : s.batcher.step config (.endWrite (.ok ())) = some batcher)
    {connection : Bool} : SinkInv encode { s with batcher, sink := .idle, connection } := by
  obtain ⟨live, rest, entries, -, hwrites⟩ := inv.current (by rw [hsink]; simp)
  have hafter := endWrite_writes h hwrites
  refine ⟨step_batchInv inv.batch h, fun hne => absurd rfl hne,
    (fun _ _ hsent => by cases hsent), ?_⟩
  refine ConfirmedKept.of_same inv (extends_of_step inv.batch h) ?_ ?_
  · intro job hjob
    rcases mem_confirmed.mp hjob with ⟨w, hw, hok, hjob⟩ | ⟨hexecuted, -⟩
    · rw [hafter] at hw
      rcases List.mem_append.mp hw with hw | hw
      · exact mem_confirmed.mpr (Or.inl ⟨w, by rw [hwrites]; exact List.mem_append_left _ hw, hok,
          hjob⟩)
      · obtain rfl := List.mem_singleton.mp hw
        refine mem_confirmed.mpr (Or.inr ⟨hsink, ?_⟩)
        rw [currentJobs, hwrites, List.getLast?_concat]
        exact hjob
    · cases hexecuted
  · intro job record request _ _ _ hholds
    exact hholds.of_backlog rfl rfl

/-- The script of the current write runs. -/
theorem SinkInv.execute (inv : SinkInv encode s) {score : ℕ} {requests : List SnapshotWrite}
    {clock : RedisClock} {backlog : BacklogSystem} (hsink : s.sink = .sent score requests)
    (h : s.backlog.step encode (.enqueue clock score requests) = some backlog) :
    SinkInv encode { s with backlog, sink := .executed } := by
  obtain ⟨live, rest, entries, hworker, hwrites⟩ := inv.current (by rw [hsink]; simp)
  have hrequests : requests = live.flatMap fun job => (s.batcher.jobs job).entries := by
    rw [inv.sent score requests hsink, currentEntries, hwrites, List.getLast?_concat]
    exact inv.batch.entries ⟨live, entries, none⟩ (by rw [hwrites]; simp)
  have hjobs : s.batcher.writeJobs = rest.flatMap (·.jobs) ++ live := by
    rw [writeJobs, hwrites]
    simp
  refine ⟨inv.batch, fun _ => ⟨live, hworker⟩, (fun _ _ hsent => by cases hsent), ?_⟩
  intro record job request hnewest hconfirmed hrequest
  have hwritten : job ∈ s.batcher.writeJobs :=
    mem_writeJobs_of_confirmed (s := { s with backlog, sink := .executed }) hconfirmed
  -- the submissions of the record in the order of the writes end with the newest one
  have hlast : (s.batcher.writeJobs.filter fun j =>
      (lastRequest record (s.batcher.jobs j).entries).isSome).getLast? = some job := by
    refine getLast?_of_sublist (List.Sublist.filter _
      ((List.sublist_append_left ..).trans inv.batch.order)) (inv.batch.nodup.filter _) hnewest ?_
    exact List.mem_filter.mpr ⟨hwritten, by rw [hrequest]; rfl⟩
  rw [hjobs, List.filter_append] at hlast
  obtain ⟨hother, hstored⟩ := step_enqueue_stores h record
  cases hlive : live.filter fun j => (lastRequest record (s.batcher.jobs j).entries).isSome with
  | nil =>
    -- this script does not concern the record
    have hnone : lastRequest record requests = none := by
      rw [hrequests, lastRequest_eq_none]
      intro q hq
      obtain ⟨j, hj, hq⟩ := List.mem_flatMap.mp hq
      have hj := List.filter_eq_nil_iff.mp hlive j hj
      simp only [Bool.not_eq_true, Option.isSome_eq_false_iff, Option.isNone_iff_eq_none] at hj
      exact lastRequest_eq_none.mp hj q hq
    have hbefore : job ∈ s.confirmed := by
      rcases mem_confirmed.mp hconfirmed with hok | ⟨-, hcurrent⟩
      · exact mem_confirmed.mpr (Or.inl hok)
      · rw [currentJobs, hwrites, List.getLast?_concat] at hcurrent
        have := List.filter_eq_nil_iff.mp hlive job hcurrent
        rw [hrequest] at this
        exact absurd rfl this
    rcases inv.kept record job request hnewest hbefore hrequest with ⟨sequence, hentry⟩ | hflushed
    · exact Or.inl ⟨sequence, (hother hnone).trans hentry⟩
    · exact Or.inr hflushed
  | cons j l =>
    rw [List.getLast?_append_of_ne_nil _ (by rw [hlive]; simp)] at hlast
    refine Or.inl (hstored request ?_)
    rw [hrequests]
    exact lastRequest_flatMap hlast hrequest

/-- A script of an abandoned connection runs in time. -/
theorem SinkInv.late (inv : SinkInv encode s) {script score : ℕ} {requests : List SnapshotWrite}
    {clock : RedisClock} {backlog : BacklogSystem}
    (hscript : s.abandoned[script]? = some (score, requests))
    (htimely : s.Timely encode (.late script clock))
    (h : s.backlog.step encode (.enqueue clock score requests) = some backlog)
    {abandoned : List (ℕ × List SnapshotWrite)} :
    SinkInv encode { s with backlog, abandoned } := by
  refine ⟨inv.batch, inv.writing, inv.sent, ?_⟩
  refine ConfirmedKept.of_same inv (Extends.refl _) (fun _ hjob => hjob) ?_
  intro job record request hnewest hconfirmed hrequest hholds
  by_cases hnone : lastRequest record requests = none
  · rcases hholds with ⟨sequence, hentry⟩ | hflushed
    · exact Or.inl ⟨sequence, ((step_enqueue_stores h record).1 hnone).trans hentry⟩
    · exact Or.inr hflushed
  · have hrecord : record ∈ requests.map (·.record) := by
      rw [lastRequest_eq_none] at hnone
      push Not at hnone
      exact List.mem_map.mpr hnone
    exact Or.inr (htimely score requests hscript record hrecord job hnewest hconfirmed request
      hrequest)

/-- A script of the flush side removes an entry only with an acknowledgement. -/
theorem SinkInv.flush (inv : SinkInv encode s) {e : BacklogEvent} {backlog : BacklogSystem}
    (he : ∀ clock score requests, e ≠ .enqueue clock score requests)
    (h : s.backlog.step encode e = some backlog) :
    SinkInv encode { s with
      backlog
      acknowledged := s.acknowledged ++ s.removedBy e backlog.redis } := by
  refine ⟨inv.batch, inv.writing, inv.sent, ?_⟩
  refine ConfirmedKept.of_same inv (Extends.refl _) (fun _ hjob => hjob) ?_
  intro job record request _ hconfirmed _ hholds
  rcases hholds with ⟨sequence, hentry⟩ | ⟨sequence, jobs, hmem, hjob⟩
  · cases hafter : backlog.redis.entries (entryKey (member record)) with
    | some bytes =>
      have hbefore := step_entries he h hafter
      rw [hentry, Option.some_inj] at hbefore
      exact Or.inl ⟨sequence, by rw [← hbefore] at hafter; exact hafter⟩
    | none =>
      obtain ⟨lease, hlease, hmember, -⟩ := step_removes h hentry hafter
      refine Or.inr ⟨sequence, s.confirmed, List.mem_append_right _ ?_, hconfirmed⟩
      refine List.mem_filterMap.mpr ⟨lease, hlease, ?_⟩
      rw [hmember, hentry, hafter]
  · exact Or.inr ⟨sequence, jobs, List.mem_append_left _ hmem, hjob⟩

/-- A step of the sink that only moves the connection. -/
theorem SinkInv.connection (inv : SinkInv encode s) {sink : SinkPhase} {connection : Bool}
    (hbefore : s.sink = .started)
    (hsink : sink = .started ∨ ∃ score, sink = .sent score s.currentEntries) :
    SinkInv encode { s with sink, connection } := by
  refine ⟨inv.batch, fun _ => inv.writing (by rw [hbefore]; simp), ?_, ?_⟩
  · intro score requests hsent
    rcases hsink with h | ⟨score', h⟩
    · exact absurd (h.symm.trans hsent) (by simp)
    · exact (SinkPhase.sent.inj (h.symm.trans hsent)).2.symm
  · refine ConfirmedKept.of_same inv (Extends.refl _) ?_ ?_
    · intro job hjob
      refine mem_confirmed_of_succeeded (s := s) (t := { s with sink, connection }) ?_
        (fun _ hw _ => hw) hjob
      rcases hsink with rfl | ⟨score, rfl⟩ <;> simp
    · intro job record request _ _ _ hholds
      exact hholds.of_backlog rfl rfl

theorem step_sinkInv {e : SinkEvent} (htimely : s.Timely encode e) (inv : SinkInv encode s)
    (h : s.step encode config e = some t) : SinkInv encode t := by
  cases e with
  | batcher e =>
    rw [step] at h
    cases e with
    | endWrite outcome => cases h
    | abort =>
      obtain ⟨batcher, hstep, rfl⟩ := Option.map_eq_some_iff.mp h
      refine inv.abandon hstep fun w hw _ => ?_
      simp only [EnqueueBatcher.step] at hstep
      split at hstep
      · cases hstep
      · obtain rfl := Option.some.inj hstep
        exact hw
    | reserve job requests =>
      simp only [stepBatcher, Option.ite_none_right_eq_some] at h
      obtain ⟨batcher, hstep, rfl⟩ := Option.map_eq_some_iff.mp h.2
      exact inv.quiet hstep (by simp) (by simp) (by simp)
    | beginWrite now =>
      obtain ⟨batcher, hstep, rfl⟩ := Option.map_eq_some_iff.mp h
      refine inv.beginWrite hstep ?_
      cases batcher.worker.isWriting <;> simp
    | _ =>
      obtain ⟨batcher, hstep, rfl⟩ := Option.map_eq_some_iff.mp h
      exact inv.quiet hstep (by simp) (by simp) (by simp)
  | connect =>
    simp only [step, Option.ite_none_right_eq_some, Option.some.injEq] at h
    obtain ⟨⟨hsink, -⟩, rfl⟩ := h
    exact inv.connection hsink (Or.inl hsink)
  | invoke score =>
    simp only [step, Option.ite_none_right_eq_some, Option.some.injEq] at h
    obtain ⟨⟨hsink, -⟩, rfl⟩ := h
    exact inv.connection hsink (Or.inr ⟨score, rfl⟩)
  | execute clock =>
    simp only [step] at h
    split at h
    · rename_i score requests hsink
      obtain ⟨backlog, hstep, rfl⟩ := Option.map_eq_some_iff.mp h
      exact inv.execute hsink hstep
    · cases h
  | succeed =>
    simp only [step, Option.ite_none_right_eq_some] at h
    obtain ⟨batcher, hstep, rfl⟩ := Option.map_eq_some_iff.mp h.2
    exact inv.succeed h.1 hstep
  | fail message =>
    simp only [step, Option.ite_none_left_eq_some] at h
    obtain ⟨batcher, hstep, rfl⟩ := Option.map_eq_some_iff.mp h.2
    exact inv.fail h.1 hstep
  | late script clock =>
    simp only [step] at h
    split at h
    · rename_i score requests hscript
      obtain ⟨backlog, hstep, rfl⟩ := Option.map_eq_some_iff.mp h
      exact inv.late hscript htimely hstep
    · cases h
  | backlog e =>
    cases e with
    | enqueue clock score requests => cases h
    | _ =>
      obtain ⟨backlog, hstep, rfl⟩ := Option.map_eq_some_iff.mp h
      exact inv.flush (by simp) hstep

theorem init_sinkInv : SinkInv encode {} :=
  ⟨init_batchInv, fun h => absurd rfl h, (fun _ _ h => by cases h), fun _ _ _ h => by cases h⟩

theorem SinkInv.ackedKept (inv : SinkInv encode s) : s.AckedKept encode := by
  intro job record request hreturned hnewest hrequest
  obtain ⟨w, hw, hjob, hok⟩ := inv.batch.written job (Or.inr hreturned)
  refine inv.kept record job request hnewest (mem_confirmed.mpr (Or.inl ⟨w, hw, ?_, hjob⟩)) hrequest
  rw [SinkWrite.succeeded, hok]

end EnqueueSystem

open EnqueueSystem

/-- **An acknowledged enqueue is kept.**  In every run in which the scripts of abandoned
connections run in time, the newest submission for a record that returned `Ok` has its
entry in the backlog until the entry is flushed and acknowledged. -/
theorem acknowledged_enqueue_kept (encode : SnapshotWrite → Bytes) (config : EnqueueBatchConfig)
    (events : List SinkEvent) (s : EnqueueSystem)
    (hrun : run (EnqueueSystem.step encode config) {} events = some s)
    (htimely : StepsMeet (EnqueueSystem.step encode config) (Timely encode) {} events) :
    s.AckedKept encode :=
  (run_invariant_when (fun _ _ _ htimely inv h => step_sinkInv htimely inv h) htimely
    init_sinkInv hrun).ackedKept

/-- The time of one batch with a single submission, up to its script. -/
def oneSubmission (job now : ℕ) (request : SnapshotWrite) : List SinkEvent :=
  [.batcher (.reserve job [request]), .batcher (.send job now), .batcher .recv,
    .batcher .endCollect, .batcher (.take now), .batcher .judge, .batcher (.beginWrite now)]

def laterQueued : SnapshotWrite := { sampleQueued with requestId := "r-2", payload := [8] }

theorem zero_lt_million : 0 < 1000000 := Nat.succ_pos _

/-- The first write times out on its connection, and the next one begins. -/
def firstTimesOut : List SinkEvent :=
  oneSubmission 0 0 sampleQueued ++ [.invoke 0, .fail "timed out", .batcher .reply,
    .batcher .reply, .batcher (.receive 0)] ++ oneSubmission 1 10 laterQueued

/-- The next one succeeds on a new connection. -/
def secondSucceeds : List SinkEvent :=
  [.connect, .invoke 10, .execute ⟨1, 0, zero_lt_million⟩, .succeed, .batcher .reply,
    .batcher .reply, .batcher (.receive 1)]

def retriedElsewhere : List SinkEvent := firstTimesOut ++ secondSucceeds

/-- The script on the first connection runs before the second one. -/
def retriedInTime : List SinkEvent :=
  firstTimesOut ++ [.late 0 ⟨0, 500, by decide⟩] ++ secondSucceeds

def smallBatches : EnqueueBatchConfig := ⟨2, 1, 10, 100⟩

theorem acknowledged_enqueue_kept_retried :
    ∃ s, run (EnqueueSystem.step smallBincode smallBatches) {} retriedInTime = some s ∧
      (s.batcher.jobs 1).caller = .returned .ok ∧
      s.Holds smallBincode 1 sampleQueued.record laterQueued := by
  obtain ⟨s, hrun, hreturned, hnewest, hrequest⟩ := exists_of_any
    (o := run (EnqueueSystem.step smallBincode smallBatches) {} retriedInTime)
    (p := fun s => (s.batcher.jobs 1).caller = .returned .ok ∧
      s.newest sampleQueued.record = some 1 ∧
      lastRequest sampleQueued.record (s.batcher.jobs 1).entries = some laterQueued)
    (by decide +kernel)
  have hbefore : StepsMeet (EnqueueSystem.step smallBincode smallBatches)
      (fun s e => s.beforeConfirmation e = true) {} retriedInTime :=
    stepsMeet_of_check (by decide +kernel)
  have htimely : StepsMeet (EnqueueSystem.step smallBincode smallBatches) (Timely smallBincode) {}
      retriedInTime := fun before e after hevents m hm =>
    timely_of_beforeConfirmation (hbefore before e after hevents m hm)
  exact ⟨s, hrun, hreturned,
    acknowledged_enqueue_kept _ _ _ s hrun htimely 1 _ _ hreturned hnewest hrequest⟩

/-- The script on the first connection runs at last. -/
def overtaken : List SinkEvent := retriedElsewhere ++ [.late 0 ⟨2, 0, zero_lt_million⟩]

/-- The script on the first connection runs after the second submission returned `Ok`, and
the entry is the older request again. -/
theorem abandoned_script_overtakes :
    ∃ s, run (EnqueueSystem.step smallBincode smallBatches) {} overtaken = some s ∧
      s.backlog.redis.entries (entryKey (member sampleQueued.record)) =
        some (sequencedEntry 2000000 (smallBincode sampleQueued)) ∧
      ¬ s.AckedKept smallBincode := by
  obtain ⟨s, hrun, hreturned, hnewest, hrequest, hentry, hacknowledged⟩ := exists_of_any
    (o := run (EnqueueSystem.step smallBincode smallBatches) {} overtaken)
    (p := fun s => (s.batcher.jobs 1).caller = .returned .ok ∧
      s.newest sampleQueued.record = some 1 ∧
      lastRequest sampleQueued.record (s.batcher.jobs 1).entries = some laterQueued ∧
      s.backlog.redis.entries (entryKey (member sampleQueued.record)) =
        some (sequencedEntry 2000000 (smallBincode sampleQueued)) ∧
      s.acknowledged = [])
    (by decide +kernel)
  refine ⟨s, hrun, hentry, fun hkept => ?_⟩
  rcases hkept 1 _ _ hreturned hnewest hrequest with ⟨sequence, hholds⟩ | ⟨_, _, hflushed, -⟩
  · rw [hentry, Option.some_inj] at hholds
    exact absurd (sequencedEntry_injective hholds).2 (by decide)
  · rw [hacknowledged] at hflushed
    cases hflushed

end DbProxy
