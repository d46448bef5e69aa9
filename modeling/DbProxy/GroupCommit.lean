/-
What group commit promises to a submitter.

The caller's queue timeout and the worker's pickup race through the phase of the
job: whoever moves it out of `queued` decides.  `BatchInv` says what follows for
the jobs that were passed to the sink, and in which order the rest comes.

* `BatchInv` — what links phases, replies and the writes of the sink;
* `enqueue_group_commit` — refused submissions are never written, none is written
  twice, `Ok` needs a successful write, and the sink sees the order of acceptance.
-/
import DbProxy.EnqueueBatcher
import DbProxy.StepMachine
import Mathlib.Data.List.Nodup

namespace DbProxy

open StepMachine

namespace EnqueueBatcher

variable {ε : Type}

/-! ### The invariant -/

/-- The jobs passed to the sink, in order. -/
def writeJobs (s : EnqueueBatcher ε) : List ℕ := s.writes.flatMap (·.jobs)

/-- A write with this job succeeded. -/
def Written (s : EnqueueBatcher ε) (job : ℕ) : Prop :=
  ∃ w ∈ s.writes, job ∈ w.jobs ∧ w.outcome = some (.ok ())

/-- What was not passed to the sink comes after what was. -/
def ahead (s : EnqueueBatcher ε) : List ℕ := s.writeJobs ++ (s.worker.pending ++ s.queue)

structure BatchInv (s : EnqueueBatcher ε) : Prop where
  nodup : s.accepted.Nodup
  order : s.ahead.Sublist s.accepted
  known : ∀ job ∈ s.accepted, (s.jobs job).caller ≠ .absent ∧ (s.jobs job).caller ≠ .reserved
  authorised : ∀ job, job ∈ s.writeJobs ∨ job ∈ s.worker.authorised →
    (s.jobs job).phase = .writing
  /-- a refused job was not authorised and never will be -/
  refused : ∀ job result, (s.jobs job).Shows result → result.isRefusal →
    (job ∉ s.writeJobs ∧ job ∉ s.worker.authorised) ∧
      ((s.jobs job).phase ≠ .queued ∨ job ∉ s.accepted)
  fresh : ∀ job, (s.jobs job).caller = .absent ∨ (s.jobs job).caller = .reserved →
    (s.jobs job).reply = .empty
  written : ∀ job, (s.jobs job).Shows .ok → s.Written job
  replying : ∀ outcome live, s.worker = .replying outcome live →
    ∀ job ∈ live, job ∈ s.accepted ∧ (outcome = .ok () → s.Written job)
  writing : ∀ live, s.worker = .writing live →
    ∃ rest entries, s.writes = rest ++ [⟨live, entries, none⟩]
  entries : ∀ w ∈ s.writes, w.entries = w.jobs.flatMap fun job => (s.jobs job).entries

variable {config : EnqueueBatchConfig} {s t : EnqueueBatcher ε}

theorem BatchInv.ahead_nodup (inv : BatchInv s) : s.ahead.Nodup := inv.nodup.sublist inv.order

theorem BatchInv.mem_accepted (inv : BatchInv s) {job : ℕ} (h : job ∈ s.ahead) :
    job ∈ s.accepted := inv.order.subset h

theorem BatchInv.mem_accepted_of_write (inv : BatchInv s) {w : SinkWrite ε} (hw : w ∈ s.writes)
    {job : ℕ} (h : job ∈ w.jobs) : job ∈ s.accepted :=
  inv.mem_accepted (List.mem_append_left _ (List.mem_flatMap.mpr ⟨w, hw, h⟩))

theorem jobs_setJob {job i : ℕ} {f : EnqueueJob ε → EnqueueJob ε} :
    (s.setJob job f).jobs i = if i = job then f (s.jobs job) else s.jobs i :=
  Function.update_apply ..

/-- A change of one job. -/
theorem BatchInv.setJob (inv : BatchInv s) {job : ℕ} {f : EnqueueJob ε → EnqueueJob ε}
    (hentries : job ∈ s.accepted → (f (s.jobs job)).entries = (s.jobs job).entries)
    (hknown : job ∈ s.accepted →
      (f (s.jobs job)).caller ≠ .absent ∧ (f (s.jobs job)).caller ≠ .reserved)
    (hphase : (f (s.jobs job)).phase = (s.jobs job).phase ∨
      job ∉ s.writeJobs ∧ job ∉ s.worker.authorised)
    (hrefused : ∀ result, (f (s.jobs job)).Shows result → result.isRefusal →
      (job ∉ s.writeJobs ∧ job ∉ s.worker.authorised) ∧
        ((f (s.jobs job)).phase ≠ .queued ∨ job ∉ s.accepted))
    (hfresh : (f (s.jobs job)).caller = .absent ∨ (f (s.jobs job)).caller = .reserved →
      (f (s.jobs job)).reply = .empty)
    (hwritten : (f (s.jobs job)).Shows .ok → s.Written job) : BatchInv (s.setJob job f) := by
  refine ⟨inv.nodup, inv.order, ?_, ?_, ?_, ?_, ?_, inv.replying, inv.writing, ?_⟩
  · intro i hi
    rw [jobs_setJob]
    split
    · rename_i h
      subst h
      exact hknown hi
    · exact inv.known i hi
  · intro i hi
    rw [jobs_setJob]
    split
    · rename_i h
      subst h
      rcases hphase with h | ⟨h1, h2⟩
      · rw [h]
        exact inv.authorised i hi
      · exact absurd hi (not_or.mpr ⟨h1, h2⟩)
    · exact inv.authorised i hi
  · intro i result hshows hresult
    rw [jobs_setJob] at hshows ⊢
    split
    · rename_i h
      subst h
      rw [if_pos rfl] at hshows
      exact hrefused result hshows hresult
    · rename_i h
      rw [if_neg h] at hshows
      exact inv.refused i result hshows hresult
  · intro i hcaller
    rw [jobs_setJob] at hcaller ⊢
    split
    · rename_i h
      subst h
      rw [if_pos rfl] at hcaller
      exact hfresh hcaller
    · rename_i h
      rw [if_neg h] at hcaller
      exact inv.fresh i hcaller
  · intro i hshows
    rw [jobs_setJob] at hshows
    split at hshows
    · rename_i h
      subst h
      exact hwritten hshows
    · exact inv.written i hshows
  · intro w hw
    rw [inv.entries w hw]
    refine List.flatMap_congr fun i hi => ?_
    rw [jobs_setJob]
    split
    · rename_i h
      subst h
      exact (hentries (inv.mem_accepted_of_write hw hi)).symm
    · rfl

/-- A move of the worker that passes nothing to the sink. -/
theorem BatchInv.setWorker (inv : BatchInv s) {worker : Worker} {queue : List ℕ}
    (horder : (worker.pending ++ queue).Sublist (s.worker.pending ++ s.queue))
    (hauthorised : ∀ job ∈ worker.authorised, (s.jobs job).phase = .writing ∧
      ∀ result, (s.jobs job).Shows result → result.isRefusal = false)
    (hreplying : ∀ outcome live, worker = .replying outcome live →
      ∀ job ∈ live, job ∈ s.accepted ∧ (outcome = .ok () → s.Written job))
    (hwriting : ∀ live, worker ≠ .writing live) :
    BatchInv { s with worker, queue } := by
  refine ⟨inv.nodup, ?_, inv.known, ?_, ?_, inv.fresh, inv.written, hreplying, ?_, inv.entries⟩
  · exact ((List.Sublist.refl s.writeJobs).append horder).trans inv.order
  · rintro job (h | h)
    · exact inv.authorised job (Or.inl h)
    · exact (hauthorised job h).1
  · intro job result hshows hresult
    refine ⟨⟨(inv.refused job result hshows hresult).1.1, fun h => ?_⟩,
      (inv.refused job result hshows hresult).2⟩
    have := (hauthorised job h).2 result hshows
    rw [hresult] at this
    cases this
  · intro live h
    exact absurd h (hwriting live)

/-! ### The caller's steps -/

theorem BatchInv.not_ahead (inv : BatchInv s) {job : ℕ} (h : job ∉ s.accepted) :
    job ∉ s.writeJobs ∧ job ∉ s.worker.authorised := by
  constructor
  · intro hjob
    exact h (inv.mem_accepted (List.mem_append_left _ hjob))
  · intro hjob
    exact h (inv.mem_accepted
      (List.mem_append_right _ (List.mem_append_left _ (Worker.mem_pending hjob))))

theorem BatchInv.not_accepted (inv : BatchInv s) {job : ℕ} (h : (s.jobs job).caller = .absent ∨
    (s.jobs job).caller = .reserved) : job ∉ s.accepted := by
  intro hjob
  rcases h with h | h
  · exact (inv.known job hjob).1 h
  · exact (inv.known job hjob).2 h

theorem BatchInv.reserve (inv : BatchInv s) {job : ℕ} (habsent : (s.jobs job).caller = .absent)
    {entries : List ε} {caller : CallerState} (hcaller : caller ≠ .returned .ok) :
    BatchInv (s.setJob job fun j => { j with entries, caller }) := by
  have hnew := inv.not_accepted (Or.inl habsent)
  have hempty := inv.fresh job (Or.inl habsent)
  refine inv.setJob (absurd · hnew) (absurd · hnew) (Or.inl rfl) ?_ (fun _ => hempty) ?_
  · intro result _ _
    exact ⟨inv.not_ahead hnew, Or.inr hnew⟩
  · rintro (h | h)
    · exact absurd (hempty.symm.trans h) (by simp)
    · exact absurd h hcaller

/-- A job enters the queue. -/
theorem BatchInv.send (inv : BatchInv s) {job now : ℕ} {reply : ReplyState}
    (hreserved : (s.jobs job).caller = .reserved) (hreply : ∀ result, reply ≠ .sent result)
    {permits : ℕ} {queue : List ℕ} (hqueue : queue = s.queue ∨ queue = s.queue ++ [job]) :
    BatchInv { s.setJob job fun j => { j with acceptedAt := now, reply, caller := .waitingQueue }
      with permits, queue, accepted := s.accepted ++ [job] } := by
  have hnew := inv.not_accepted (Or.inr hreserved)
  have hset : BatchInv (s.setJob job fun j =>
      { j with acceptedAt := now, reply, caller := .waitingQueue }) := by
    refine inv.setJob (absurd · hnew) (absurd · hnew) (Or.inl rfl) ?_ ?_ ?_
    · rintro result (h | h)
      · exact absurd h (hreply result)
      · cases h
    · rintro (h | h) <;> cases h
    · rintro (h | h)
      · exact absurd h (hreply _)
      · cases h
  refine ⟨?_, ?_, ?_, hset.authorised, ?_, hset.fresh, hset.written, ?_, hset.writing,
    hset.entries⟩
  · refine List.nodup_append.mpr ⟨inv.nodup, List.nodup_singleton job, ?_⟩
    rintro a ha b hb rfl
    exact hnew (List.mem_singleton.mp hb ▸ ha)
  · have horder := inv.order
    rw [ahead, ← List.append_assoc] at horder
    show List.Sublist (s.writeJobs ++ (s.worker.pending ++ queue)) (s.accepted ++ [job])
    rcases hqueue with rfl | rfl
    · rw [← List.append_assoc]
      exact horder.trans (List.sublist_append_left ..)
    · rw [← List.append_assoc, ← List.append_assoc]
      exact horder.append (List.Sublist.refl _)
  · intro i hi
    rcases List.mem_append.mp hi with hi | hi
    · exact hset.known i hi
    · obtain rfl := List.mem_singleton.mp hi
      simp [jobs_setJob]
  · intro i result hshows hresult
    obtain ⟨hnot, hphase⟩ := hset.refused i result hshows hresult
    refine ⟨hnot, hphase.imp_right fun h hi => ?_⟩
    rcases List.mem_append.mp hi with hi | hi
    · exact h hi
    · -- the job itself shows no result
      obtain rfl := List.mem_singleton.mp hi
      rcases hshows with h | h
      · exact hreply result (by simpa [jobs_setJob] using h)
      · simp [jobs_setJob] at h
  · intro outcome live hworker i hi
    exact (hset.replying outcome live hworker i hi).imp_left (List.mem_append_left _)

/-- A waiting caller gives up or gets its reply. -/
theorem BatchInv.leave (inv : BatchInv s) {job : ℕ} {caller : CallerState}
    (hknown : caller ≠ .absent ∧ caller ≠ .reserved)
    (hresult : ∀ result, caller = .returned result →
      (s.jobs job).reply.result = some result ∨ result.isRefusal = false ∧ result ≠ .ok) :
    BatchInv (s.setJob job fun j => { j with caller }) := by
  have hshown : ∀ result, caller = .returned result → result.isRefusal = true ∨ result = .ok →
      (s.jobs job).Shows result := by
    intro result hcaller hkind
    rcases hresult result hcaller with h | ⟨h, hne⟩
    · cases hreply : (s.jobs job).reply with
      | empty =>
        rw [hreply] at h
        cases h
      | closed =>
        rw [hreply] at h
        obtain rfl := Option.some.inj h
        rcases hkind with h | h <;> cases h
      | sent result' =>
        rw [hreply] at h
        obtain rfl := Option.some.inj h
        exact Or.inl hreply
    · rcases hkind with hk | hk
      · rw [h] at hk
        cases hk
      · exact absurd hk hne
  refine inv.setJob (fun _ => rfl) (fun _ => hknown) (Or.inl rfl) ?_ ?_ ?_
  · rintro result (h | h) hrefusal
    · exact inv.refused job result (Or.inl h) hrefusal
    · exact inv.refused job result (hshown result h (Or.inl hrefusal)) hrefusal
  · rintro (h | h)
    · exact absurd h hknown.1
    · exact absurd h hknown.2
  · rintro (h | h)
    · exact inv.written job (Or.inl h)
    · exact inv.written job (hshown _ h (Or.inr rfl))

/-- The caller wins the race for the phase. -/
theorem BatchInv.cancel (inv : BatchInv s) {job waited : ℕ}
    (hphase : (s.jobs job).phase = .queued) :
    BatchInv (s.setJob job fun j =>
      { j with phase := .cancelled, caller := .returned (.deadlineExceeded waited) }) := by
  have hnot : job ∉ s.writeJobs ∧ job ∉ s.worker.authorised := by
    refine not_or.mp fun h => ?_
    rw [inv.authorised job h] at hphase
    cases hphase
  refine inv.setJob (fun _ => rfl) (fun _ => by simp) (Or.inr hnot) ?_ ?_ ?_
  · intro result _ _
    exact ⟨hnot, Or.inl (by simp)⟩
  · rintro (h | h) <;> cases h
  · rintro (h | h)
    · exact inv.written job (Or.inl h)
    · cases h

/-! ### The worker's steps -/

theorem BatchInv.setPermits (inv : BatchInv s) (permits : ℕ) : BatchInv { s with permits } :=
  ⟨inv.nodup, inv.order, inv.known, inv.authorised, inv.refused, inv.fresh, inv.written,
    inv.replying, inv.writing, inv.entries⟩

/-- An authorised job shows no refusal. -/
theorem BatchInv.not_refused (inv : BatchInv s) {job : ℕ} (h : job ∈ s.worker.authorised) :
    (s.jobs job).phase = .writing ∧
      ∀ result, (s.jobs job).Shows result → result.isRefusal = false := by
  refine ⟨inv.authorised job (Or.inr h), fun result hshows => ?_⟩
  by_contra hne
  exact (inv.refused job result hshows (by simpa using hne)).1.2 h

theorem BatchInv.mem_accepted_of_pending (inv : BatchInv s) {job : ℕ}
    (h : job ∈ s.worker.pending) : job ∈ s.accepted :=
  inv.mem_accepted (List.mem_append_right _ (List.mem_append_left _ h))

/-- The worker wins the race for the phase. -/
theorem BatchInv.take (inv : BatchInv s) {job now : ℕ} {batch live : List ℕ}
    (hworker : s.worker = .judging (job :: batch) live) (hphase : (s.jobs job).phase = .queued) :
    BatchInv { s.setJob job fun j => { j with phase := .writing } with
      worker := .taken job now batch live } := by
  have haccepted : job ∈ s.accepted := inv.mem_accepted_of_pending (by
    rw [hworker]
    simp [Worker.pending])
  have hnot : job ∉ s.writeJobs ∧ job ∉ s.worker.authorised := by
    refine not_or.mp fun h => ?_
    rw [inv.authorised job h] at hphase
    cases hphase
  have hshows : ∀ result, (s.jobs job).Shows result → result.isRefusal = false := by
    intro result hshows
    by_contra hne
    rcases (inv.refused job result hshows (by simpa using hne)).2 with h | h
    · exact h hphase
    · exact h haccepted
  have hset : BatchInv (s.setJob job fun j => { j with phase := .writing }) := by
    refine inv.setJob (fun _ => rfl) (fun _ => inv.known job haccepted) (Or.inr hnot) ?_
      (fun h => inv.fresh job h) (fun h => inv.written job h)
    intro result h hresult
    rw [hshows result h] at hresult
    cases hresult
  refine hset.setWorker ?_ ?_ (fun _ _ h => by cases h) (fun _ h => by cases h)
  · show List.Sublist _ ((s.worker.pending) ++ s.queue)
    rw [hworker]
    exact List.Sublist.refl _
  · intro i hi
    rcases List.mem_append.mp hi with hi | hi
    · refine hset.not_refused ?_
      show i ∈ s.worker.authorised
      rw [hworker]
      exact hi
    · obtain rfl := List.mem_singleton.mp hi
      rw [jobs_setJob, if_pos rfl]
      exact ⟨rfl, hshows⟩

/-- A job that is not queued any more is dropped. -/
theorem BatchInv.skip (inv : BatchInv s) {job : ℕ} {batch live : List ℕ}
    (hworker : s.worker = .judging (job :: batch) live) :
    BatchInv { s.setJob job fun j => { j with reply := .closed } with
      worker := .judging batch live } := by
  have haccepted : job ∈ s.accepted := inv.mem_accepted_of_pending (by
    rw [hworker]
    simp [Worker.pending])
  have hset : BatchInv (s.setJob job fun j => { j with reply := .closed }) := by
    refine inv.setJob (fun _ => rfl) (fun _ => inv.known job haccepted) (Or.inl rfl) ?_ ?_ ?_
    · rintro result (h | h) hresult
      · cases h
      · exact inv.refused job result (Or.inr h) hresult
    · rintro (h | h)
      · exact absurd h (inv.known job haccepted).1
      · exact absurd h (inv.known job haccepted).2
    · rintro (h | h)
      · cases h
      · exact inv.written job (Or.inr h)
  refine hset.setWorker ?_ ?_ (fun _ _ h => by cases h) (fun _ h => by cases h)
  · show List.Sublist _ ((s.worker.pending) ++ s.queue)
    rw [hworker]
    exact ((List.Sublist.refl live).append (List.sublist_cons_self ..)).append (List.Sublist.refl _)
  · intro i hi
    refine hset.not_refused ?_
    show i ∈ s.worker.authorised
    rw [hworker]
    exact hi

/-- The worker puts the job that it took aside. -/
theorem BatchInv.putAside (inv : BatchInv s) {job now : ℕ} {batch live : List ℕ}
    (hworker : s.worker = .taken job now batch live) :
    BatchInv { s with worker := .judging batch live } := by
  refine inv.setWorker ?_ ?_ (fun _ _ h => by cases h) (fun _ h => by cases h)
  · rw [hworker]
    exact ((List.Sublist.refl live).append (List.sublist_cons_self ..)).append (List.Sublist.refl _)
  · intro i hi
    refine inv.not_refused ?_
    rw [hworker]
    exact List.mem_append_left _ hi

/-- A job gets its reply. -/
theorem BatchInv.answer (inv : BatchInv s) {job : ℕ} {result : SubmitResult}
    (haccepted : job ∈ s.accepted)
    (hrefusal : result.isRefusal → (job ∉ s.writeJobs ∧ job ∉ s.worker.authorised) ∧
      (s.jobs job).phase ≠ .queued)
    (hok : result = .ok → s.Written job) :
    BatchInv (s.setJob job fun j => j.answer result) := by
  have hknown := inv.known job haccepted
  refine inv.setJob (fun _ => EnqueueJob.answer_entries) (fun _ => ?_)
    (Or.inl EnqueueJob.answer_phase) ?_ ?_ ?_
  · rwa [EnqueueJob.answer_caller]
  · intro result' hshows hresult'
    rw [EnqueueJob.answer_phase]
    rcases hshows.of_answer with rfl | h
    · exact ⟨(hrefusal hresult').1, Or.inl (hrefusal hresult').2⟩
    · exact inv.refused job result' h hresult'
  · rw [EnqueueJob.answer_caller]
    rintro (h | h)
    · exact absurd h hknown.1
    · exact absurd h hknown.2
  · intro hshows
    rcases hshows.of_answer with h | h
    · exact hok h
    · exact inv.written job h

/-- A job that waited too long is refused; it is in no write. -/
theorem BatchInv.expire (inv : BatchInv s) {job now waited : ℕ} {batch live : List ℕ}
    (hworker : s.worker = .taken job now batch live) :
    BatchInv { s.setJob job fun j => j.answer (.deadlineExceeded waited) with
      worker := .judging batch live } := by
  have hpending : s.worker.pending = live ++ job :: batch := by rw [hworker, Worker.pending]
  have haccepted : job ∈ s.accepted := inv.mem_accepted_of_pending (by
    rw [hpending]
    simp)
  have hphase : (s.jobs job).phase = .writing := inv.authorised job (Or.inr (by
    rw [hworker]
    simp [Worker.authorised]))
  have hnodup := inv.ahead_nodup
  rw [ahead, hpending] at hnodup
  have hnot : job ∉ s.writeJobs ∧ job ∉ live := by
    simp only [List.nodup_append, List.nodup_cons, List.mem_append, List.mem_cons] at hnodup
    constructor
    · intro h
      exact hnodup.2.2 job h job (Or.inl (Or.inr (Or.inl rfl))) rfl
    · intro h
      exact hnodup.2.1.1.2.2 job h job (Or.inl rfl) rfl
  refine (inv.putAside hworker).answer haccepted (fun _ => ⟨hnot, ?_⟩) (fun h => by cases h)
  show (s.jobs job).phase ≠ .queued
  rw [hphase]
  simp

/-- The live jobs are passed to the sink. -/
theorem BatchInv.beginWrite (inv : BatchInv s) {live : List ℕ}
    (hworker : s.worker = .judging [] live) :
    BatchInv { s with
      worker := .writing live
      writes := s.writes ++ [⟨live, live.flatMap fun job => (s.jobs job).entries, none⟩] } := by
  have hauthorised : s.worker.authorised = live := by rw [hworker, Worker.authorised]
  have hjobs : ∀ w : SinkWrite ε, (s.writes ++ [w]).flatMap (·.jobs) = s.writeJobs ++ w.jobs := by
    simp [writeJobs]
  have hmem : ∀ job, job ∈ s.writeJobs ++ live ↔ job ∈ s.writeJobs ∨ job ∈ s.worker.authorised := by
    simp [hauthorised]
  refine ⟨inv.nodup, ?_, inv.known, ?_, ?_, inv.fresh, ?_, (fun _ _ h => by cases h), ?_, ?_⟩
  · have horder := inv.order
    rw [ahead, hworker, Worker.pending, List.append_nil, ← List.append_assoc] at horder
    rw [ahead, writeJobs, hjobs]
    exact horder
  · intro job hjob
    rw [writeJobs, hjobs, hmem] at hjob
    rcases hjob with hjob | hjob
    · exact inv.authorised job hjob
    · cases hjob
  · intro job result hshows hresult
    obtain ⟨hnot, hphase⟩ := inv.refused job result hshows hresult
    refine ⟨⟨?_, List.not_mem_nil⟩, hphase⟩
    rw [writeJobs, hjobs, hmem]
    exact not_or.mpr hnot
  · intro job hshows
    obtain ⟨w, hw, h⟩ := inv.written job hshows
    exact ⟨w, List.mem_append_left _ hw, h⟩
  · rintro live' ⟨⟩
    exact ⟨_, _, rfl⟩
  · intro w hw
    rcases List.mem_append.mp hw with hw | hw
    · exact inv.entries w hw
    · obtain rfl := List.mem_singleton.mp hw
      rfl

theorem setOutcome_append {outcome : Except String Unit} {w : SinkWrite ε}
    {rest : List (SinkWrite ε)} :
    setOutcome outcome (rest ++ [w]) = rest ++ [{ w with outcome := some outcome }] :=
  List.modifyLast_concat ..

/-- The sink returns. -/
theorem BatchInv.endWrite (inv : BatchInv s) {live : List ℕ} {outcome : Except String Unit}
    (hworker : s.worker = .writing live) :
    BatchInv { s with worker := .replying outcome live, writes := setOutcome outcome s.writes } := by
  obtain ⟨rest, entries, hwrites⟩ := inv.writing live hworker
  have hafter : setOutcome outcome s.writes = rest ++ [⟨live, entries, some outcome⟩] := by
    rw [hwrites, setOutcome_append]
  have hjobs : (setOutcome outcome s.writes).flatMap (·.jobs) = s.writeJobs := by
    rw [hafter, writeJobs, hwrites]
    simp
  -- a write that succeeded is not the last one
  have hwritten : ∀ job, s.Written job →
      ∃ w ∈ setOutcome outcome s.writes, job ∈ w.jobs ∧ w.outcome = some (.ok ()) := by
    rintro job ⟨w, hw, hjob, hok⟩
    rw [hwrites] at hw
    rcases List.mem_append.mp hw with hw | hw
    · exact ⟨w, by rw [hafter]; exact List.mem_append_left _ hw, hjob, hok⟩
    · rw [List.mem_singleton.mp hw] at hok
      cases hok
  refine ⟨inv.nodup, ?_, inv.known, ?_, ?_, inv.fresh, (fun job h => hwritten job (inv.written job h)),
    ?_, (fun _ h => by cases h), ?_⟩
  · have horder := inv.order
    rw [ahead, hworker] at horder
    rw [ahead, writeJobs, hjobs]
    exact horder
  · intro job hjob
    rw [writeJobs, hjobs] at hjob
    exact inv.authorised job (hjob.imp_right fun h => by cases h)
  · intro job result hshows hresult
    rw [writeJobs, hjobs]
    obtain ⟨hnot, hphase⟩ := inv.refused job result hshows hresult
    exact ⟨⟨hnot.1, List.not_mem_nil⟩, hphase⟩
  · rintro outcome' live' ⟨⟩ job hjob
    have hlast : (⟨live, entries, none⟩ : SinkWrite ε) ∈ s.writes := by
      rw [hwrites]
      simp
    refine ⟨inv.mem_accepted_of_write hlast hjob, ?_⟩
    rintro rfl
    exact ⟨_, by rw [hafter]; exact List.mem_append_right _ (List.mem_singleton_self _), hjob, rfl⟩
  · intro w hw
    rw [hafter] at hw
    rcases List.mem_append.mp hw with hw | hw
    · exact inv.entries w (by rw [hwrites]; exact List.mem_append_left _ hw)
    · obtain rfl := List.mem_singleton.mp hw
      exact inv.entries ⟨live, entries, none⟩ (by rw [hwrites]; simp)

theorem BatchInv.abort (inv : BatchInv s) :
    BatchInv { s with
      worker := .stopped
      queue := []
      jobs := fun job =>
        if (s.jobs job).reply = .empty ∧ job ∈ s.accepted then { s.jobs job with reply := .closed }
        else s.jobs job } := by
  refine ⟨inv.nodup, ?_, ?_, ?_, ?_, ?_, ?_, (fun _ _ h => by cases h), (fun _ h => by cases h), ?_⟩
  · show List.Sublist (s.writeJobs ++ []) s.accepted
    rw [List.append_nil]
    exact (List.sublist_append_left ..).trans inv.order
  · intro job hjob
    have := inv.known job hjob
    dsimp only
    split <;> exact this
  · rintro job (hjob | hjob)
    · have := inv.authorised job (Or.inl hjob)
      dsimp only
      split <;> exact this
    · cases hjob
  · intro job result hshows hresult
    have hbefore : (s.jobs job).Shows result := by
      dsimp only at hshows
      split at hshows
      · rcases hshows with h | h
        · cases h
        · exact Or.inr h
      · exact hshows
    obtain ⟨hnot, hphase⟩ := inv.refused job result hbefore hresult
    refine ⟨⟨hnot.1, List.not_mem_nil⟩, ?_⟩
    dsimp only
    split <;> exact hphase
  · intro job hcaller
    dsimp only at hcaller ⊢
    split at hcaller
    · rename_i h
      rcases hcaller with hcaller | hcaller
      · exact absurd hcaller (inv.known job h.2).1
      · exact absurd hcaller (inv.known job h.2).2
    · rename_i h
      rw [if_neg h]
      exact inv.fresh job hcaller
  · intro job hshows
    dsimp only at hshows
    split at hshows
    · rcases hshows with h | h
      · cases h
      · exact inv.written job (Or.inr h)
    · exact inv.written job hshows
  · intro w hw
    rw [inv.entries w hw]
    refine List.flatMap_congr fun job _ => ?_
    dsimp only
    split <;> rfl

/-! ### Every step -/

theorem step_batchInv {e : EnqueueEvent ε} (inv : BatchInv s) (h : s.step config e = some t) :
    BatchInv t := by
  cases e with
  | reserve job entries =>
    simp only [step] at h
    split at h
    · cases h
    · rename_i habsent
      rw [ne_eq, not_not] at habsent
      split at h
      · obtain rfl := Option.some.inj h
        exact inv.reserve habsent (by simp)
      · split at h
        · obtain rfl := Option.some.inj h
          exact inv.reserve habsent (by simp)
        · obtain rfl := Option.some.inj h
          exact (inv.reserve habsent (by simp)).setPermits _
  | send job now =>
    simp only [step] at h
    split at h
    · cases h
    · rename_i hreserved
      rw [ne_eq, not_not] at hreserved
      obtain rfl := Option.some.inj h
      refine inv.send hreserved ?_ ?_
      · intro result
        split <;> simp
      · split
        · exact Or.inl rfl
        · exact Or.inr rfl
  | receive job =>
    simp only [step] at h
    split at h
    · cases h
    · rename_i result hreply
      simp only [Option.ite_none_right_eq_some, Option.some.injEq] at h
      obtain ⟨-, rfl⟩ := h
      refine inv.leave (by simp) ?_
      rintro result' ⟨⟩
      exact Or.inl hreply
  | queueTimeout job now =>
    simp only [step, Option.ite_none_right_eq_some] at h
    obtain ⟨-, h⟩ := h
    split at h
    · rename_i hphase
      obtain rfl := Option.some.inj h
      exact inv.cancel hphase
    · obtain rfl := Option.some.inj h
      refine inv.leave (by simp) ?_
      intro result hresult
      cases hresult
  | totalTimeout job now =>
    simp only [step, Option.ite_none_right_eq_some, Option.some.injEq] at h
    obtain ⟨-, rfl⟩ := h
    refine inv.leave (by simp) ?_
    rintro result ⟨⟩
    exact Or.inr ⟨rfl, by simp⟩
  | drop job =>
    simp only [step, Option.ite_none_right_eq_some, Option.some.injEq] at h
    obtain ⟨-, rfl⟩ := h
    refine inv.leave (by simp) ?_
    intro result hresult
    cases hresult
  | recv =>
    simp only [step] at h
    split at h
    · rename_i first queue hworker hqueue
      obtain rfl := Option.some.inj h
      refine inv.setWorker ?_ (fun _ hi => by cases hi) (fun _ _ hw => by cases hw)
        (fun _ hw => by cases hw)
      rw [hworker, hqueue]
      exact List.Sublist.refl _
    · cases h
  | tryRecv =>
    simp only [step] at h
    split at h
    · rename_i batch records job queue hworker hqueue
      simp only [Option.ite_none_right_eq_some, Option.some.injEq] at h
      obtain ⟨-, rfl⟩ := h
      refine inv.setWorker ?_ (fun _ hi => by cases hi) (fun _ _ hw => by cases hw)
        (fun _ hw => by cases hw)
      rw [hworker, hqueue]
      -- the job passes from the queue to the batch and keeps its place
      show List.Sublist ((batch ++ [job]) ++ queue) (batch ++ job :: queue)
      rw [List.append_assoc, List.singleton_append]
    · cases h
  | endCollect =>
    simp only [step] at h
    split at h
    · rename_i batch records hworker
      split at h
      · cases h
      · obtain rfl := Option.some.inj h
        refine inv.setWorker ?_ (fun _ hi => by cases hi) (fun _ _ hw => by cases hw)
          (fun _ hw => by cases hw)
        rw [hworker]
        exact List.Sublist.refl _
    · cases h
  | take now =>
    simp only [step] at h
    split at h
    · rename_i job batch live hworker
      split at h
      · rename_i hphase
        obtain rfl := Option.some.inj h
        exact inv.take hworker hphase
      · obtain rfl := Option.some.inj h
        exact inv.skip hworker
    · cases h
  | judge =>
    simp only [step] at h
    split at h
    · rename_i job now batch live hworker
      split at h
      · obtain rfl := Option.some.inj h
        exact inv.putAside hworker
      · split at h
        · obtain rfl := Option.some.inj h
          exact inv.expire hworker
        · obtain rfl := Option.some.inj h
          refine inv.setWorker ?_ ?_ (fun _ _ hw => by cases hw) (fun _ hw => by cases hw)
          · rw [hworker]
            -- the job passes from the batch to the live ones and keeps its place
            show List.Sublist (((live ++ [job]) ++ batch) ++ _) ((live ++ job :: batch) ++ _)
            rw [List.append_assoc live, List.singleton_append]
          · intro i hi
            refine inv.not_refused ?_
            rw [hworker]
            exact hi
    · cases h
  | beginWrite now =>
    simp only [step] at h
    split at h
    · rename_i live hworker
      split at h
      · obtain rfl := Option.some.inj h
        refine inv.setWorker ?_ (fun _ hi => by cases hi) (fun _ _ hw => by cases hw)
          (fun _ hw => by cases hw)
        exact List.sublist_append_right ..
      · split at h
        · obtain rfl := Option.some.inj h
          refine inv.setWorker ?_ (fun _ hi => by cases hi) ?_ (fun _ hw => by cases hw)
          · exact List.sublist_append_right ..
          · rintro outcome' live' ⟨⟩ job hjob
            -- no write begins, and the live jobs are answered with an error
            exact ⟨inv.mem_accepted_of_pending (by rw [hworker]; simpa [Worker.pending] using hjob),
              fun h => by cases h⟩
        · obtain rfl := Option.some.inj h
          exact inv.beginWrite hworker
    · cases h
  | endWrite outcome =>
    simp only [step] at h
    split at h
    · rename_i live hworker
      obtain rfl := Option.some.inj h
      exact inv.endWrite hworker
    · cases h
  | reply =>
    simp only [step] at h
    split at h
    · rename_i outcome job live hworker
      obtain rfl := Option.some.inj h
      obtain ⟨haccepted, hok⟩ := inv.replying _ _ hworker job (List.mem_cons_self ..)
      -- the answer first, then the worker goes on with the rest
      have hset : BatchInv (s.setJob job fun j => j.answer (outcomeResult outcome)) := by
        refine inv.answer haccepted ?_ ?_
        · cases outcome <;> exact fun hr => by cases hr
        · intro hr
          cases outcome with
          | ok u => exact hok rfl
          | error message => cases hr
      refine hset.setWorker ?_ (fun _ hi => by cases hi) ?_ (fun _ hw => by cases hw)
      · exact List.sublist_append_right ..
      · rintro outcome' live' ⟨⟩ i hi
        exact inv.replying _ _ hworker i (List.mem_cons_of_mem _ hi)
    · obtain rfl := Option.some.inj h
      refine inv.setWorker ?_ (fun _ hi => by cases hi) (fun _ _ hw => by cases hw)
        (fun _ hw => by cases hw)
      exact List.sublist_append_right ..
    · cases h
  | abort =>
    simp only [step] at h
    split at h
    · cases h
    · obtain rfl := Option.some.inj h
      exact inv.abort

theorem init_batchInv : BatchInv ({} : EnqueueBatcher ε) where
  nodup := List.nodup_nil
  order := List.Sublist.refl _
  known _ h := by cases h
  authorised _ h := by rcases h with h | h <;> cases h
  refused job result h := by rcases h with h | h <;> cases h
  fresh _ _ := rfl
  written job h := by rcases h with h | h <;> cases h
  replying _ _ h := by cases h
  writing _ h := by cases h
  entries _ h := by cases h

theorem run_batchInv {events : List (EnqueueEvent ε)}
    (h : run (step config) ({} : EnqueueBatcher ε) events = some s) : BatchInv s :=
  run_invariant (fun _ _ _ inv hstep => step_batchInv inv hstep) init_batchInv h

/-- The submission that an event puts into the queue. -/
def sent? : EnqueueEvent ε → Option ℕ
  | .send job _ => some job
  | _ => none

theorem step_accepted {e : EnqueueEvent ε} (h : s.step config e = some t) :
    t.accepted = s.accepted ++ (sent? e).toList := by
  cases e <;> simp only [step] at h
  all_goals (repeat' split at h) <;> first
    | (obtain rfl := Option.some.inj h; simp [sent?, setJob])
    | cases h

/-- Acceptance is the order in which submissions enter the queue. -/
theorem run_accepted {events : List (EnqueueEvent ε)}
    (h : run (step config) ({} : EnqueueBatcher ε) events = some s) :
    s.accepted = events.filterMap sent? := by
  refine run_history (P := fun es (s : EnqueueBatcher ε) => s.accepted = es.filterMap sent?) rfl
    ?_ h
  intro es m e t _ hes hstep
  rw [step_accepted hstep, hes, List.filterMap_append]
  cases hsent : sent? e <;> simp [hsent]

/-- A call that has returned keeps its result. -/
theorem step_returned {e : EnqueueEvent ε} (h : s.step config e = some t) (job : ℕ)
    (result : SubmitResult) (hjob : (s.jobs job).caller = .returned result) :
    (t.jobs job).caller = .returned result := by
  cases e <;> simp only [step] at h
  all_goals (repeat' split at h) <;> first
    | contradiction
    | (obtain rfl := Option.some.inj h
       -- the events that write the caller of a job need one that waits or is about to
       first
         | exact hjob
         | (simp only [setJob, Function.update_apply]
            split <;> simp_all [CallerState.isWaiting]))

theorem run_returned {events : List (EnqueueEvent ε)} {m : EnqueueBatcher ε}
    (h : run (step config) m events = some s) (job : ℕ) (result : SubmitResult)
    (hjob : (m.jobs job).caller = .returned result) : (s.jobs job).caller = .returned result :=
  run_rel (P := fun _ => True) (R := fun a b : EnqueueBatcher ε => ∀ job result,
      (a.jobs job).caller = .returned result → (b.jobs job).caller = .returned result)
    (fun _ _ _ h => h) (fun _ _ _ hab hbc job result h => hbc job result (hab job result h))
    (fun _ _ _ _ _ => trivial) (fun _ _ _ _ hstep => step_returned hstep) trivial h job result hjob

theorem Once.returned {events : List (EnqueueEvent ε)}
    (hrun : run (step config) ({} : EnqueueBatcher ε) events = some s) {job : ℕ}
    {result : SubmitResult}
    (h : Once (step config) ({} : EnqueueBatcher ε) events
      fun m => (m.jobs job).caller = .returned result) :
    (s.jobs job).caller = .returned result := by
  obtain ⟨before, m, ⟨rest, rfl⟩, hm, hjob⟩ := h
  obtain ⟨m', hm', hrest⟩ := run_append.mp hrun
  obtain rfl := Option.some.inj (hm.symm.trans hm')
  exact run_returned hrest job result hjob

end EnqueueBatcher

open EnqueueBatcher

/-- **Group commit.**  In every run, a submission whose call ever returns a refusal is
in no call of the sink; no submission is in two calls, and a call has all entries of
its submissions; `Ok` is returned only after a call with the submission succeeded; and
the sink sees the submissions in the order in which they entered the queue. -/
theorem enqueue_group_commit {ε : Type} (config : EnqueueBatchConfig)
    (events : List (EnqueueEvent ε)) (s : EnqueueBatcher ε)
    (hrun : run (step config) {} events = some s) :
    (∀ job result, Once (step config) {} events (fun m => (m.jobs job).caller = .returned result) →
      result.isRefusal → ∀ w ∈ s.writes, job ∉ w.jobs) ∧
    (s.writes.flatMap (·.jobs)).Nodup ∧
    (∀ w ∈ s.writes, w.entries = w.jobs.flatMap fun job => (s.jobs job).entries) ∧
    (∀ job, Once (step config) {} events (fun m => (m.jobs job).caller = .returned .ok) →
      ∃ w ∈ s.writes, job ∈ w.jobs ∧ w.outcome = some (.ok ())) ∧
    (s.writes.flatMap (·.jobs)).Sublist (events.filterMap sent?) := by
  have inv := run_batchInv hrun
  refine ⟨?_, ?_, inv.entries, ?_, ?_⟩
  · intro job result honce hrefusal w hw hjob
    have hreturned := Once.returned hrun honce
    exact (inv.refused job result (Or.inr hreturned) hrefusal).1.1
      (List.mem_flatMap.mpr ⟨w, hw, hjob⟩)
  · exact inv.ahead_nodup.sublist (List.sublist_append_left ..)
  · intro job honce
    exact inv.written job (Or.inr (Once.returned hrun honce))
  · rw [← run_accepted hrun]
    exact (List.sublist_append_left ..).trans inv.order

/-- The second submission times out while the first is being written. -/
def lateSubmission : List (EnqueueEvent String) :=
  [.reserve 0 ["a"], .send 0 0, .reserve 1 ["b"], .send 1 0, .recv, .endCollect, .take 1, .judge,
    .beginWrite 1, .queueTimeout 1 10, .endWrite (.ok ()), .reply, .receive 0]

theorem enqueue_group_commit_late :
    ∃ s, run (step ⟨2, 1, 10, 100⟩) {} lateSubmission = some s ∧
      (s.writes.map (·.entries) = [["a"]] ∧ (s.jobs 0).caller = .returned .ok ∧
        (s.jobs 1).caller = .returned (.deadlineExceeded 0)) ∧
      ∀ w ∈ s.writes, 1 ∉ w.jobs := by
  obtain ⟨s, hrun, hend⟩ := exists_of_any
    (o := run (step ⟨2, 1, 10, 100⟩) {} lateSubmission)
    (p := fun s => s.writes.map (·.entries) = [["a"]] ∧ (s.jobs 0).caller = .returned .ok ∧
        (s.jobs 1).caller = .returned (.deadlineExceeded 0)) (by decide)
  exact ⟨s, hrun, hend, (enqueue_group_commit _ _ s hrun).1 1 _ (once_of_run hrun hend.2.2) rfl⟩

end DbProxy
