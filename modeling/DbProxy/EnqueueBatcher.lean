/-
Group commit of enqueues (`backlog_enqueue.rs`): submitters, the batcher task and
one sink.

A submission reserves a slot of the channel, enters the queue and waits for its
reply, first until its queue deadline, then until its total deadline; it may be
dropped at any time.  The batcher receives a batch, authorises each job by moving
its phase out of `queued`, passes the live ones to the sink in one write and sends
every one of them the outcome.  Clock readings and the results of the sink come
with the events.  The sink may be anything: entries have an arbitrary type.

The runs of `EnqueueBatcher.step` are all interleavings of the three.
-/
import Mathlib.Data.List.ModifyLast
import Mathlib.Data.Nat.Notation
import Mathlib.Logic.Function.Basic

namespace DbProxy

/-! ### Jobs -/

/-- Times are in nanoseconds. -/
structure EnqueueBatchConfig where
  queueCapacity : ℕ
  maxBatchRecords : ℕ
  maxQueueWait : ℕ
  totalTimeout : ℕ

/-- `EnqueueState::phase`.  The bit `TIMED_OUT` is only set outside `queued` and only
counted, so it is left out. -/
inductive EnqueuePhase
  | queued
  | writing
  | cancelled
deriving DecidableEq, Repr

/-- The results of `submit`. -/
inductive SubmitResult
  | ok
  | overloaded (capacity : ℕ)
  | stopped
  | deadlineExceeded (waitedMs : ℕ)
  | failed (message : String)
deriving DecidableEq, Repr

/-- The reply channel of a job. -/
inductive ReplyState
  | empty
  | sent (result : SubmitResult)
  /-- the sender was dropped without a reply -/
  | closed
deriving DecidableEq, Repr

/-- Where a call of `submit` stands. -/
inductive CallerState
  | absent
  | reserved
  | waitingQueue
  | waitingTotal
  | returned (result : SubmitResult)
  | dropped
deriving DecidableEq, Repr

/-- The receiver of the reply is still there. -/
def CallerState.isWaiting : CallerState → Bool
  | waitingQueue | waitingTotal => true
  | absent | reserved | returned _ | dropped => false

structure EnqueueJob (ε : Type) where
  entries : List ε := []
  acceptedAt : ℕ := 0
  phase : EnqueuePhase := .queued
  reply : ReplyState := .empty
  caller : CallerState := .absent

/-- A result as the caller gets it: `outcome.map_err(|_| BacklogEnqueueStopped)?`. -/
def ReplyState.result : ReplyState → Option SubmitResult
  | empty => none
  | sent result => some result
  | closed => some .stopped

/-- `waited.as_millis()`. -/
def waitedMs {ε : Type} (now : ℕ) (job : EnqueueJob ε) : ℕ := (now - job.acceptedAt) / 1000000

/-- Send a reply; without a receiver it is lost. -/
def EnqueueJob.answer {ε : Type} (job : EnqueueJob ε) (result : SubmitResult) : EnqueueJob ε :=
  if job.caller.isWaiting then { job with reply := .sent result } else job

/-- `Overloaded` and `DeadlineExceeded`. -/
def SubmitResult.isRefusal : SubmitResult → Bool
  | .overloaded _ | .deadlineExceeded _ => true
  | .ok | .stopped | .failed _ => false

/-- The caller got this result or will get it. -/
def EnqueueJob.Shows {ε : Type} (job : EnqueueJob ε) (result : SubmitResult) : Prop :=
  job.reply = .sent result ∨ job.caller = .returned result

namespace EnqueueJob

variable {ε : Type} {job : EnqueueJob ε} {result result' : SubmitResult}

@[simp] theorem answer_entries : (job.answer result).entries = job.entries := by
  rw [answer]
  split <;> rfl

@[simp] theorem answer_phase : (job.answer result).phase = job.phase := by
  rw [answer]
  split <;> rfl

@[simp] theorem answer_caller : (job.answer result).caller = job.caller := by
  rw [answer]
  split <;> rfl

theorem Shows.of_answer (h : (job.answer result).Shows result') :
    result = result' ∨ job.Shows result' := by
  rw [answer] at h
  split at h
  · rcases h with h | h
    · exact Or.inl (ReplyState.sent.inj h)
    · exact Or.inr (Or.inr h)
  · exact Or.inr h

end EnqueueJob

/-! ### The batcher -/

/-- The position of `run_enqueue_batcher`. -/
inductive Worker
  | idle
  | collecting (batch : List ℕ) (records : ℕ)
  | judging (batch live : List ℕ)
  /-- the phase of `job` was moved to `writing` after the clock was read -/
  | taken (job now : ℕ) (batch live : List ℕ)
  | writing (live : List ℕ)
  | replying (outcome : Except String Unit) (live : List ℕ)
  | stopped

/-- The jobs that the worker has received and not passed on yet, in order. -/
def Worker.pending : Worker → List ℕ
  | collecting batch _ => batch
  | judging batch live => live ++ batch
  | taken job _ batch live => live ++ job :: batch
  | idle | writing _ | replying _ _ | stopped => []

/-- The jobs that may be written. -/
def Worker.authorised : Worker → List ℕ
  | judging _ live => live
  | taken job _ _ live => live ++ [job]
  | idle | collecting _ _ | writing _ | replying _ _ | stopped => []

theorem Worker.mem_pending {w : Worker} {job : ℕ} (h : job ∈ w.authorised) : job ∈ w.pending := by
  cases w <;> simp_all [Worker.authorised, Worker.pending]
  rcases h with h | h
  · exact Or.inl h
  · exact Or.inr (Or.inl h)

/-- One call of `EnqueueSink::write`. -/
structure SinkWrite (ε : Type) where
  jobs : List ℕ
  entries : List ε
  outcome : Option (Except String Unit)

/-- Submissions are numbered by the caller.  `accepted` lists those that entered the
queue and `writes` the calls of the sink, both in order. -/
structure EnqueueBatcher (ε : Type) where
  jobs : ℕ → EnqueueJob ε := fun _ => {}
  queue : List ℕ := []
  permits : ℕ := 0
  worker : Worker := .idle
  accepted : List ℕ := []
  writes : List (SinkWrite ε) := []

inductive EnqueueEvent (ε : Type)
  | reserve (job : ℕ) (entries : List ε)
  | send (job now : ℕ)
  | receive (job : ℕ)
  | queueTimeout (job now : ℕ)
  | totalTimeout (job now : ℕ)
  | drop (job : ℕ)
  | recv
  | tryRecv
  | endCollect
  | take (now : ℕ)
  | judge
  | beginWrite (now : ℕ)
  | endWrite (outcome : Except String Unit)
  | reply
  | abort

namespace EnqueueBatcher

variable {ε : Type} (config : EnqueueBatchConfig)

def setJob (s : EnqueueBatcher ε) (job : ℕ) (f : EnqueueJob ε → EnqueueJob ε) :
    EnqueueBatcher ε :=
  { s with jobs := Function.update s.jobs job (f (s.jobs job)) }

/-- The calls that hold a permit of the channel and have not sent yet are `permits`. -/
def isFull (s : EnqueueBatcher ε) : Bool := config.queueCapacity ≤ s.queue.length + s.permits

def isStopped (s : EnqueueBatcher ε) : Bool :=
  match s.worker with
  | .stopped => true
  | _ => false

/-- `RedisDurabilityDeadlineExceeded`, as text. -/
def deadlineMessage : String := "reliable Redis total deadline exceeded; write outcome may be unknown"

/-- Record what the sink returned for its last call. -/
def setOutcome (outcome : Except String Unit) (writes : List (SinkWrite ε)) :
    List (SinkWrite ε) :=
  writes.modifyLast fun w => { w with outcome := some outcome }

/-- The reply to a job of a finished write. -/
def outcomeResult : Except String Unit → SubmitResult
  | .ok () => .ok
  | .error message => .failed message

/-- The earliest total deadline of a batch. -/
def deadline (s : EnqueueBatcher ε) (live : List ℕ) : Option ℕ :=
  (live.map fun job => (s.jobs job).acceptedAt + config.totalTimeout).min?

def step (s : EnqueueBatcher ε) : EnqueueEvent ε → Option (EnqueueBatcher ε)
  -- submit
  | .reserve job entries =>
    if (s.jobs job).caller ≠ .absent then none
    else if s.isStopped then
      some (s.setJob job fun j => { j with entries, caller := .returned .stopped })
    else if s.isFull config then
      some (s.setJob job fun j =>
        { j with entries, caller := .returned (.overloaded config.queueCapacity) })
    else
      some { s.setJob job fun j => { j with entries, caller := .reserved } with
        permits := s.permits + 1 }
  | .send job now =>
    if (s.jobs job).caller ≠ .reserved then none
    else
      -- a job that is sent after the batcher stopped is dropped with the channel
      let reply := if s.isStopped then ReplyState.closed else .empty
      some { s.setJob job fun j => { j with acceptedAt := now, reply, caller := .waitingQueue } with
        permits := s.permits - 1
        queue := if s.isStopped then s.queue else s.queue ++ [job]
        accepted := s.accepted ++ [job] }
  | .receive job =>
    match (s.jobs job).reply.result with
    | none => none
    | some result =>
      if (s.jobs job).caller.isWaiting then
        some (s.setJob job fun j => { j with caller := .returned result })
      else none
  | .queueTimeout job now =>
    if (s.jobs job).caller = .waitingQueue ∧ (s.jobs job).acceptedAt + config.maxQueueWait ≤ now then
      if (s.jobs job).phase = .queued then
        some (s.setJob job fun j => { j with
          phase := .cancelled
          caller := .returned (.deadlineExceeded (waitedMs now j)) })
      else some (s.setJob job fun j => { j with caller := .waitingTotal })
    else none
  | .totalTimeout job now =>
    if (s.jobs job).caller = .waitingTotal ∧ (s.jobs job).acceptedAt + config.totalTimeout ≤ now then
      some (s.setJob job fun j => { j with caller := .returned (.failed deadlineMessage) })
    else none
  | .drop job =>
    if (s.jobs job).caller.isWaiting then
      some (s.setJob job fun j => { j with caller := .dropped })
    else none
  -- run_enqueue_batcher
  | .recv =>
    match s.worker, s.queue with
    | .idle, first :: queue =>
      some { s with queue, worker := .collecting [first] (s.jobs first).entries.length }
    | _, _ => none
  | .tryRecv =>
    match s.worker, s.queue with
    | .collecting batch records, job :: queue =>
      if records < config.maxBatchRecords then
        some { s with
          queue
          worker := .collecting (batch ++ [job]) (records + (s.jobs job).entries.length) }
      else none
    | _, _ => none
  | .endCollect =>
    match s.worker with
    | .collecting batch records =>
      if records < config.maxBatchRecords ∧ s.queue ≠ [] then none
      else some { s with worker := .judging batch [] }
    | _ => none
  | .take now =>
    match s.worker with
    | .judging (job :: batch) live =>
      if (s.jobs job).phase = .queued then
        some { s.setJob job fun j => { j with phase := .writing } with
          worker := .taken job now batch live }
      else
        some { s.setJob job fun j => { j with reply := .closed } with
          worker := .judging batch live }
    | _ => none
  | .judge =>
    match s.worker with
    | .taken job now batch live =>
      if ¬ (s.jobs job).caller.isWaiting then some { s with worker := .judging batch live }
      else if config.maxQueueWait ≤ now - (s.jobs job).acceptedAt then
        some { s.setJob job fun j => j.answer (.deadlineExceeded (waitedMs now j)) with
          worker := .judging batch live }
      else some { s with worker := .judging batch (live ++ [job]) }
    | _ => none
  | .beginWrite now =>
    match s.worker with
    | .judging [] live =>
      match s.deadline config live with
      | none => some { s with worker := .idle }
      | some deadline =>
        if deadline ≤ now then
          some { s with worker := .replying (.error deadlineMessage) live }
        else
          some { s with
            worker := .writing live
            writes := s.writes ++ [⟨live, live.flatMap fun job => (s.jobs job).entries, none⟩] }
    | _ => none
  | .endWrite outcome =>
    match s.worker with
    | .writing live =>
      some { s with worker := .replying outcome live, writes := setOutcome outcome s.writes }
    | _ => none
  | .reply =>
    match s.worker with
    | .replying outcome (job :: live) =>
      some { s.setJob job fun j => j.answer (outcomeResult outcome) with
        worker := .replying outcome live }
    | .replying _ [] => some { s with worker := .idle }
    | _ => none
  | .abort =>
    if s.isStopped then none
    else
      -- the jobs that were not answered are dropped
      some { s with
        worker := .stopped
        queue := []
        jobs := fun job =>
          if (s.jobs job).reply = .empty ∧ job ∈ s.accepted then
            { s.jobs job with reply := .closed }
          else s.jobs job }

end EnqueueBatcher

end DbProxy
