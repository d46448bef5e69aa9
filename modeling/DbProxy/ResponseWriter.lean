/-
A server with its connections, down to the bytes that are written (`serve_requests`,
`dispatch_isolated` and `write_responses`).

A connection is the machine of `RequestOrdering.lean` with the data that it leaves out: the
handlers that were started, the responses in the channel and the frames that are written.
The handlers of all connections call one volatile backend, in any order.  The writer fails
only if a response has no frame; a failure of the network is not modelled.

* `ServedConnection.Inv`, `Server.Inv` — what every step keeps as long as the batch reads fit;
* `ServedConnection.Delivers`, `Server.CanMove` — what follows for a connection.

Outside the repository: the encoding of a message, the parameter `MessageCodec`.
-/
import DbProxy.ConnectionOrdering
import DbProxy.Framing
import DbProxy.HandlerLimits
import DbProxy.MemoryRuns

namespace DbProxy

open Checks StepMachine

/-- `wire::RequestEnvelope`. -/
structure RequestEnvelope where
  rpcId : UInt64
  body : Option RequestBody

def RequestEnvelope.orderKeys (request : RequestEnvelope) : Finset OrderKey :=
  DbProxy.orderKeys request.body

/-- A handler that was started, with what it still does. -/
abbrev HandlerRun := Interaction BackendCall BackendCall.Reply (Except RpcFailure ResponseBody)

/-- What `dispatch_isolated` answers if the handler panics. -/
def panicFailure : RpcFailure := .internal
  "DBProxy request handler failed; the outcome is unknown, retry with the same idempotency key"

structure ServedConnection where
  tasks : Connection RequestEnvelope OrderKey
  handlers : ℕ → Option HandlerRun := fun _ => none
  /-- the responses in the channel to the writer, with the requests they answer -/
  outgoing : List (ℕ × ResponseEnvelope) := []
  /-- the frames that were written, with the requests they answer -/
  written : List (ℕ × Bytes) := []

namespace ServedConnection

section Step

variable (plain : Char → Bool) (codec : MessageCodec ResponseEnvelope) (limit : ℕ)

def init : ServedConnection := { tasks := Connection.init limit }

def request (s : ServedConnection) (r : ℕ) : Option RequestEnvelope :=
  (s.tasks.requests[r]?).map (·.body)

/-- The response to a request whose handler has ended. -/
def response (s : ServedConnection) (r : ℕ) : Option ResponseEnvelope :=
  match s.request r, s.handlers r with
  | some request, some (.done result) => some (responseEnvelope request.rpcId result)
  | _, _ => none

/-- The next response and its frame. -/
def nextFrame (s : ServedConnection) : Option (ℕ × Except FrameError Bytes) :=
  s.outgoing.head?.map fun x => (x.1, writeMessage codec defaultMaxFrameBytes x.2)

/-- What an event does to the data of a connection whose tasks have moved. -/
def move (s : ServedConnection) (tasks : Connection RequestEnvelope OrderKey) :
    ConnectionEvent RequestEnvelope OrderKey → Option ServedConnection
  | .acquire | .stopReading | .pass _ => some { s with tasks }
  | .admitRequest request .. =>
    if RequestBody.Framed request.body then some { s with tasks } else none
  | .start r => (s.request r).map fun request =>
    let handler := (dispatchBody plain defaultMaxPayloadBytes request.body).run
    { s with tasks, handlers := Function.update s.handlers r (some handler) }
  | .finish r panicked =>
    if panicked then
      let failed : HandlerRun := .done (.error panicFailure)
      some { s with tasks, handlers := Function.update s.handlers r (some failed) }
    else (s.response r).map fun _ => { s with tasks }
  | .answer r => (s.response r).map fun response =>
    -- a writer that has failed drops what it is sent
    let outgoing := if s.tasks.writing then s.outgoing ++ [(r, response)] else s.outgoing
    { s with tasks, outgoing }
  | .write =>
    match s.nextFrame codec with
    | some (r, .ok frame) =>
      some { s with tasks, outgoing := s.outgoing.tail, written := s.written ++ [(r, frame)] }
    | _ => none
  | .writerFails =>
    match s.nextFrame codec with
    | some (_, .error _) => some { s with tasks, outgoing := [] }
    | _ => none

def step (s : ServedConnection) (e : ConnectionEvent RequestEnvelope OrderKey) :
    Option ServedConnection :=
  (s.tasks.step RequestEnvelope.orderKeys limit e).bind fun tasks => s.move plain codec tasks e

end Step

end ServedConnection

/-- The backend and the connections, numbered. -/
structure Server {D : Type} (cfg : MemoryConfig D) where
  store : MemoryBackend cfg := {}
  connections : ℕ → ServedConnection

inductive ServerEvent
  | connection (c : ℕ) (event : ConnectionEvent RequestEnvelope OrderKey)
  /-- the backend answers the call that the handler of request `r` waits for -/
  | call (c r : ℕ)

/-- The records of a batch read. -/
def BackendCall.batchRecords : BackendCall → Option (List RecordKey)
  | .loadMulti records | .loadCachedMulti records => some records
  | _ => none

/-- The handler after a call; a panic of the backend is a panic of the handler. -/
def resumed {c : BackendCall} (next : c.Reply → HandlerRun) : Except Failure c.Value → HandlerRun
  | .ok a => next (.ok a)
  | .error (.store e) => next (.error (.core e))
  | .error (.panic _) => .done (.error panicFailure)

namespace Server

variable {D : Type} {cfg : MemoryConfig D}

section Step

variable (plain : Char → Bool) (codec : MessageCodec ResponseEnvelope) (limit : ℕ)

def init : Server cfg := { connections := fun _ => .init limit }

/-- The handler of a running request. -/
def handler (s : Server cfg) (c r : ℕ) : Option HandlerRun :=
  if (s.connections c).tasks.phase r = some .running then (s.connections c).handlers r else none

def setHandler (s : Server cfg) (c r : ℕ) (handler : HandlerRun) : Server cfg :=
  { s with connections := Function.update s.connections c { s.connections c with
      handlers := Function.update (s.connections c).handlers r (some handler) } }

variable [DecidableEq D]

def step (s : Server cfg) : ServerEvent → Option (Server cfg)
  | .connection c event => ((s.connections c).step plain codec limit event).map fun connection =>
    { s with connections := Function.update s.connections c connection }
  | .call c r =>
    match s.handler c r with
    | some (.call call next) =>
      let (answer, store) := perform s.store call
      some ({ s with store }.setHandler c r (resumed next answer))
    | _ => none

end Step

/-- What a batch read is about to find fits a frame. -/
def readsFit (s : Server cfg) : ServerEvent → Bool
  | .connection _ _ => true
  | .call c r =>
    match (s.connections c).request r, s.handler c r with
    | some request, some (.call call _) => call.batchRecords.all fun records =>
      decide (BatchFits request.rpcId request.body (records.map s.store.view.snapshots))
    | _, _ => true

end Server

/-! ### Frames -/

theorem ResponseEnvelope.length_frame_pos (response : ResponseEnvelope) :
    1 ≤ response.encodeFrame.length := by
  rw [encodeFrame, Protobuf.length_delimited]
  exact (Nat.zero_le _).trans_lt (Protobuf.lt_delimitedBytes 2 _)

/-- What a handler may end with fits a frame. -/
theorem length_response_le {rpcId : UInt64} {result : Except RpcFailure ResponseBody}
    (h : Ends (ResponseBody.Fits rpcId) RpcFailure.Bounded result) :
    (responseEnvelope rpcId result).encodeFrame.length ≤ defaultMaxFrameBytes := by
  cases result with
  | ok body => exact h
  | error failure => exact length_frame_le (show Restrained (.error failure) from h) rpcId

theorem panicFailure_bounded : panicFailure.Bounded :=
  length_word_le (n := maxMessageChars) (by decide)

section Frames

variable {codec : MessageCodec ResponseEnvelope} {response : ResponseEnvelope}

/-- The bytes of a response on the connection. -/
def ResponseEnvelope.frame (response : ResponseEnvelope) : Bytes :=
  toBeBytes response.encodeFrame.length ++ response.encodeFrame

theorem writeMessage_response (hencode : codec.encode = ResponseEnvelope.encodeFrame)
    (h : response.encodeFrame.length ≤ defaultMaxFrameBytes) :
    writeMessage codec defaultMaxFrameBytes response = .ok response.frame := by
  have hwide : ¬ 4294967296 ≤ response.encodeFrame.length :=
    not_le.mpr (h.trans_lt (by decide))
  rw [writeMessage, hencode, if_neg (not_not.mpr ⟨response.length_frame_pos, h⟩), if_neg hwide]
  rfl

end Frames

/-! ### One connection -/

namespace ServedConnection

/-- What is left of a handler: with replies that fit, its response fits. -/
def Owes (q : RequestEnvelope) : HandlerRun → Prop :=
  Interaction.Meets BackendCall.Bounded (BackendCall.Replies (BatchFits q.rpcId q.body))
    (Ends (ResponseBody.Fits q.rpcId) RpcFailure.Bounded)

/-- Where a request stands, and its handler. -/
def Stands (q : RequestEnvelope) : TaskPhase → Option HandlerRun → Prop
  | .waiting _, _ => True
  | .running, handler => ∃ run, handler = some run ∧ Owes q run
  | .finished, handler | .answered, handler =>
    ∃ result, handler = some (.done result) ∧
      Ends (ResponseBody.Fits q.rpcId) RpcFailure.Bounded result

/-- The requests whose response is in the channel or written. -/
def delivered (s : ServedConnection) : List ℕ :=
  s.written.map Prod.fst ++ s.outgoing.map Prod.fst

structure Delivery (s : ServedConnection) : Prop where
  answered : ∀ r, r ∈ s.delivered ↔ s.tasks.phase r = some .answered
  once : s.delivered.Nodup
  outgoing : ∀ x ∈ s.outgoing, s.response x.1 = some x.2
  written : ∀ x ∈ s.written, ∃ response, s.response x.1 = some response ∧ x.2 = response.frame

structure Inv (limit : ℕ) (s : ServedConnection) : Prop where
  order : Connection.OrderInv RequestEnvelope.orderKeys s.tasks
  permits : Connection.PermitInv limit s.tasks
  task : ∀ r task, s.tasks.requests[r]? = some task →
    RequestBody.Framed task.body.body ∧ Stands task.body task.phase (s.handlers r)
  writing : s.tasks.writing
  queued : s.tasks.outgoing = s.outgoing.length
  delivery : s.Delivery

variable {limit : ℕ} {s t : ServedConnection} {r : ℕ}

theorem response_congr (hrequest : t.tasks.requests[r]? = s.tasks.requests[r]?)
    (hhandler : t.handlers r = s.handlers r) : t.response r = s.response r := by
  rw [response, response, request, request, hrequest, hhandler]

theorem phase_congr (hrequest : t.tasks.requests[r]? = s.tasks.requests[r]?) :
    t.tasks.phase r = s.tasks.phase r := congrArg (Option.map RequestTask.phase) hrequest

/-- The task of a request in some phase. -/
theorem Inv.stands (inv : s.Inv limit) {phase : TaskPhase} (hphase : s.tasks.phase r = some phase) :
    ∃ q, s.request r = some q ∧ RequestBody.Framed q.body ∧ Stands q phase (s.handlers r) := by
  obtain ⟨task, htask, rfl⟩ := Option.map_eq_some_iff.mp hphase
  exact ⟨task.body, congrArg (Option.map RequestTask.body) htask, inv.task r task htask⟩

/-- A finished handler has its response, which fits a frame. -/
theorem Inv.finished (inv : s.Inv limit) {phase : TaskPhase}
    (hphase : s.tasks.phase r = some phase) (hfinished : phase.isFinished) :
    ∃ response, s.response r = some response ∧
      response.encodeFrame.length ≤ defaultMaxFrameBytes := by
  obtain ⟨q, hq, -, hstands⟩ := inv.stands hphase
  have hended : ∃ result, s.handlers r = some (.done result) ∧
      Ends (ResponseBody.Fits q.rpcId) RpcFailure.Bounded result := by
    cases phase with
    | waiting left => cases hfinished
    | running => cases hfinished
    | finished => exact hstands
    | answered => exact hstands
  obtain ⟨result, hhandler, hends⟩ := hended
  refine ⟨responseEnvelope q.rpcId result, ?_, length_response_le hends⟩
  rw [response, hq, hhandler]

/-- One request moves, outside the channel; the others keep task and handler. -/
theorem Inv.update (inv : s.Inv limit) (r : ℕ)
    (horder : Connection.OrderInv RequestEnvelope.orderKeys t.tasks)
    (hpermits : Connection.PermitInv limit t.tasks) (hwriting : t.tasks.writing = s.tasks.writing)
    (hqueued : t.tasks.outgoing = s.tasks.outgoing) (houtgoing : t.outgoing = s.outgoing)
    (hwritten : t.written = s.written)
    (hother : ∀ q ≠ r, t.tasks.requests[q]? = s.tasks.requests[q]? ∧ t.handlers q = s.handlers q)
    (hbefore : s.tasks.phase r ≠ some .answered) (hafter : t.tasks.phase r ≠ some .answered)
    (htask : ∀ task, t.tasks.requests[r]? = some task →
      RequestBody.Framed task.body.body ∧ Stands task.body task.phase (t.handlers r)) :
    t.Inv limit := by
  have hphase : ∀ q, t.tasks.phase q = some .answered ↔ s.tasks.phase q = some .answered := by
    intro q
    by_cases hq : q = r
    · rw [hq]
      exact iff_of_false hafter hbefore
    · rw [phase_congr (hother q hq).1]
  have hdelivered : t.delivered = s.delivered := by
    rw [delivered, delivered, hwritten, houtgoing]
  -- what is delivered was answered, so it is not the request that moves
  have hresponse : ∀ q ∈ s.delivered, t.response q = s.response q := by
    intro q hq
    have hne : q ≠ r := by
      rintro rfl
      exact hbefore ((inv.delivery.answered q).mp hq)
    exact response_congr (hother q hne).1 (hother q hne).2
  refine ⟨horder, hpermits, fun q task hq => ?_, hwriting.trans inv.writing, ?_, ?_⟩
  · by_cases hne : q = r
    · subst hne
      exact htask task hq
    · rw [(hother q hne).1] at hq
      rw [(hother q hne).2]
      exact inv.task q task hq
  · rw [hqueued, inv.queued, houtgoing]
  · refine ⟨fun q => ?_, hdelivered ▸ inv.delivery.once, fun x hx => ?_, fun x hx => ?_⟩
    · rw [hdelivered, hphase, inv.delivery.answered]
    · rw [houtgoing] at hx
      rw [hresponse x.1 (List.mem_append_right _ (List.mem_map_of_mem hx))]
      exact inv.delivery.outgoing x hx
    · rw [hwritten] at hx
      rw [hresponse x.1 (List.mem_append_left _ (List.mem_map_of_mem hx))]
      exact inv.delivery.written x hx

/-- A task moves to another phase, and its handler with it. -/
theorem Inv.setPhase (inv : s.Inv limit) {old new : TaskPhase} {handlers : ℕ → Option HandlerRun}
    (horder : Connection.OrderInv RequestEnvelope.orderKeys (s.tasks.setPhase r new))
    (hpermits : Connection.PermitInv limit (s.tasks.setPhase r new))
    (hphase : s.tasks.phase r = some old) (hold : old ≠ .answered) (hnew : new ≠ .answered)
    (hother : ∀ q ≠ r, handlers q = s.handlers q)
    (hstands : ∀ q, s.request r = some q → RequestBody.Framed q.body →
      Stands q old (s.handlers r) → Stands q new (handlers r)) :
    Inv limit { s with tasks := s.tasks.setPhase r new, handlers } := by
  refine inv.update r horder hpermits rfl rfl rfl rfl (fun q hq => ⟨?_, hother q hq⟩) ?_ ?_
    fun task htask => ?_
  · show (s.tasks.setPhase r new).requests[q]? = _
    rw [Connection.requests_setPhase]
    simp only [if_neg hq.symm, Option.map_id']
  · rw [hphase]
    exact fun h => hold (Option.some.inj h)
  · show (s.tasks.setPhase r new).phase r ≠ _
    rw [Connection.phase_setPhase_self hphase]
    exact fun h => hnew (Option.some.inj h)
  · replace htask : (s.tasks.setPhase r new).requests[r]? = some task := htask
    rw [Connection.requests_setPhase] at htask
    obtain ⟨before, hbefore, rfl⟩ := Option.map_eq_some_iff.mp htask
    obtain ⟨hframed, hstood⟩ := inv.task r before hbefore
    have hsame : before.phase = old := by
      rw [Connection.phase, hbefore] at hphase
      exact Option.some.inj hphase
    rw [if_pos rfl]
    exact ⟨hframed, hstands before.body (congrArg (Option.map RequestTask.body) hbefore) hframed
      (hsame ▸ hstood)⟩

theorem Inv.admitRequest (inv : s.Inv limit) {q : RequestEnvelope} {keys : List OrderKey}
    {open_ retained : OrderKey → Bool} (hframed : RequestBody.Framed q.body)
    (horder : Connection.OrderInv RequestEnvelope.orderKeys
      (s.tasks.admitted q keys open_ retained))
    (hpermits : Connection.PermitInv limit (s.tasks.admitted q keys open_ retained)) :
    Inv limit { s with tasks := s.tasks.admitted q keys open_ retained } := by
  refine inv.update s.tasks.requests.length horder hpermits rfl rfl rfl rfl
    (fun p hp => ⟨?_, rfl⟩) ?_ ?_ fun task htask => ?_
  · show (s.tasks.admitted q keys open_ retained).requests[p]? = _
    rw [Connection.requests_admitted, if_neg hp]
  · rw [Connection.phase_eq_none le_rfl]
    simp
  · show (s.tasks.admitted q keys open_ retained).phase _ ≠ _
    rw [Connection.phase_admitted, if_pos rfl]
    simp
  · replace htask : (s.tasks.admitted q keys open_ retained).requests[_]? = some task := htask
    rw [Connection.requests_admitted, if_pos rfl] at htask
    obtain rfl := Option.some.inj htask
    exact ⟨hframed, trivial⟩

/-- The response of a finished request goes to the channel. -/
theorem Inv.answer (inv : s.Inv limit) {response : ResponseEnvelope}
    {tasks : Connection RequestEnvelope OrderKey}
    (horder : Connection.OrderInv RequestEnvelope.orderKeys tasks)
    (hpermits : Connection.PermitInv limit tasks) (hphase : s.tasks.phase r = some .finished)
    (hresponse : s.response r = some response)
    (hrequests : tasks.requests = (s.tasks.setPhase r .answered).requests)
    (hwriting : tasks.writing = s.tasks.writing)
    (hqueued : tasks.outgoing = s.tasks.outgoing + 1) :
    Inv limit { s with tasks, outgoing := s.outgoing ++ [(r, response)] } := by
  have hget : ∀ q, tasks.requests[q]? = (s.tasks.requests[q]?).map fun task =>
      if r = q then { task with phase := .answered } else task := fun q => by
    rw [hrequests, Connection.requests_setPhase]
  have hphases : ∀ q, tasks.phase q =
      (s.tasks.phase q).map fun old => if r = q then .answered else old := fun q => by
    rw [← Connection.phase_setPhase, Connection.phase, hrequests]
    rfl
  have hdelivered : ServedConnection.delivered
      { s with tasks, outgoing := s.outgoing ++ [(r, response)] } = s.delivered ++ [r] := by
    rw [delivered, delivered, List.map_append, List.append_assoc]
    rfl
  have hsame : ∀ q, ServedConnection.response
      { s with tasks, outgoing := s.outgoing ++ [(r, response)] } q = s.response q := by
    intro q
    rw [ServedConnection.response, ServedConnection.response, request, request, hget]
    cases s.tasks.requests[q]? with
    | none => rfl
    | some task =>
      rw [Option.map_some, Option.map_some, Option.map_some]
      split_ifs <;> rfl
  refine ⟨horder, hpermits, fun q task hq => ?_, hwriting.trans inv.writing, ?_, ?_⟩
  · replace hq : tasks.requests[q]? = some task := hq
    rw [hget] at hq
    obtain ⟨before, hbefore, rfl⟩ := Option.map_eq_some_iff.mp hq
    obtain ⟨hframed, hstands⟩ := inv.task q before hbefore
    split_ifs with hrq
    · subst hrq
      rw [Connection.phase, hbefore, Option.map_some, Option.some_inj] at hphase
      rw [hphase] at hstands
      exact ⟨hframed, hstands⟩
    · exact ⟨hframed, hstands⟩
  · show tasks.outgoing = (s.outgoing ++ [(r, response)]).length
    rw [hqueued, inv.queued, List.length_append, List.length_singleton]
  · refine ⟨fun q => ?_, ?_, fun x hx => ?_, fun x hx => ?_⟩
    · rw [hdelivered, List.mem_append, List.mem_singleton, inv.delivery.answered]
      show _ ↔ tasks.phase q = _
      rw [hphases]
      by_cases hrq : r = q
      · subst hrq
        simp [hphase]
      · simp [hrq, eq_comm]
    · rw [hdelivered]
      refine List.nodup_append.mpr ⟨inv.delivery.once, List.nodup_singleton r, ?_⟩
      rintro q hq _ hr rfl
      -- the request was not answered before
      rw [List.mem_singleton.mp hr, inv.delivery.answered, hphase] at hq
      cases hq
    · rw [hsame]
      rcases List.mem_append.mp hx with hx | hx
      · exact inv.delivery.outgoing x hx
      · rw [List.mem_singleton.mp hx]
        exact hresponse
    · rw [hsame]
      exact inv.delivery.written x hx

/-- The next response is written. -/
theorem Inv.write (inv : s.Inv limit) {response : ResponseEnvelope}
    {rest : List (ℕ × ResponseEnvelope)} {tasks : Connection RequestEnvelope OrderKey}
    (horder : Connection.OrderInv RequestEnvelope.orderKeys tasks)
    (hpermits : Connection.PermitInv limit tasks) (hnext : s.outgoing = (r, response) :: rest)
    (hrequests : tasks.requests = s.tasks.requests) (hwriting : tasks.writing = s.tasks.writing)
    (hqueued : tasks.outgoing = s.tasks.outgoing - 1) :
    Inv limit
      { s with tasks, outgoing := rest, written := s.written ++ [(r, response.frame)] } := by
  have hsame : ∀ q, ServedConnection.response
      { s with tasks, outgoing := rest, written := s.written ++ [(r, response.frame)] } q =
        s.response q := fun q => response_congr (congrArg (fun l => l[q]?) hrequests) rfl
  have hdelivered : ServedConnection.delivered
      { s with tasks, outgoing := rest, written := s.written ++ [(r, response.frame)] } =
        s.delivered := by
    rw [delivered, delivered, hnext, List.map_append, List.append_assoc]
    rfl
  refine ⟨horder, hpermits, fun q task hq => ?_, hwriting.trans inv.writing, ?_, ?_⟩
  · replace hq : tasks.requests[q]? = some task := hq
    rw [hrequests] at hq
    exact inv.task q task hq
  · show tasks.outgoing = rest.length
    rw [hqueued, inv.queued, hnext, List.length_cons, Nat.add_sub_cancel]
  · refine ⟨fun q => ?_, hdelivered ▸ inv.delivery.once, fun x hx => ?_, fun x hx => ?_⟩
    · rw [hdelivered, inv.delivery.answered]
      show _ ↔ tasks.phase q = _
      rw [Connection.phase, Connection.phase, hrequests]
    · rw [hsame]
      exact inv.delivery.outgoing x (hnext ▸ List.mem_cons_of_mem _ hx)
    · rw [hsame]
      rcases List.mem_append.mp hx with hx | hx
      · exact inv.delivery.written x hx
      · rw [List.mem_singleton.mp hx]
        have hhead : (r, response) ∈ s.outgoing := hnext ▸ List.mem_cons_self
        exact ⟨response, inv.delivery.outgoing _ hhead, rfl⟩

variable {plain : Char → Bool} {codec : MessageCodec ResponseEnvelope}
  {e : ConnectionEvent RequestEnvelope OrderKey}

/-- The frame of the next response. -/
theorem Inv.nextFrame (inv : s.Inv limit) (hencode : codec.encode = ResponseEnvelope.encodeFrame)
    {x : ℕ × Except FrameError Bytes} (h : s.nextFrame codec = some x) :
    ∃ r response rest, s.outgoing = (r, response) :: rest ∧ x = (r, .ok response.frame) := by
  rw [ServedConnection.nextFrame] at h
  cases hnext : s.outgoing with
  | nil =>
    rw [hnext] at h
    cases h
  | cons first rest =>
    rw [hnext, List.head?_cons, Option.map_some, Option.some_inj] at h
    have hhead : first ∈ s.outgoing := hnext ▸ List.mem_cons_self
    have hanswered : s.tasks.phase first.1 = some .answered :=
      (inv.delivery.answered _).mp (List.mem_append_right _ (List.mem_map_of_mem hhead))
    obtain ⟨response, hresponse, hfits⟩ := inv.finished hanswered rfl
    obtain rfl := Option.some.inj ((inv.delivery.outgoing first hhead).symm.trans hresponse)
    refine ⟨first.1, first.2, rest, rfl, ?_⟩
    rw [← h, writeMessage_response hencode hfits]

/-- **One step of a connection.** -/
theorem Inv.step (hencode : codec.encode = ResponseEnvelope.encodeFrame) (inv : s.Inv limit)
    (h : s.step plain codec limit e = some t) : t.Inv limit := by
  obtain ⟨tasks, htasks, hmove⟩ := Option.bind_eq_some_iff.mp h
  have horder := Connection.step_orderInv inv.order htasks
  have hpermits := Connection.step_permitInv inv.permits htasks
  have hdelivery := inv.delivery
  cases e with
  | acquire | stopReading =>
    simp only [Connection.step, Option.ite_none_right_eq_some, Option.some.injEq] at htasks
    obtain ⟨-, rfl⟩ := htasks
    obtain rfl := Option.some.inj hmove
    exact ⟨horder, hpermits, inv.task, inv.writing, inv.queued, hdelivery.answered,
      hdelivery.once, hdelivery.outgoing, hdelivery.written⟩
  | admitRequest q keys open_ retained =>
    simp only [Connection.step, Option.ite_none_right_eq_some, Option.some.injEq] at htasks
    obtain ⟨-, rfl⟩ := htasks
    obtain ⟨hframed, hmoved⟩ := Option.ite_none_right_eq_some.mp hmove
    obtain rfl := Option.some.inj hmoved
    exact inv.admitRequest hframed horder hpermits
  | pass r =>
    simp only [Connection.step] at htasks
    split at htasks
    · rename_i q left hphase
      obtain ⟨-, htasks⟩ := Option.ite_none_right_eq_some.mp htasks
      obtain rfl := Option.some.inj htasks
      obtain rfl := Option.some.inj hmove
      exact inv.setPhase horder hpermits hphase (by simp) (by simp) (fun _ _ => rfl)
        fun _ _ _ _ => trivial
    · cases htasks
  | start r =>
    simp only [Connection.step] at htasks
    split at htasks
    · rename_i hphase
      obtain rfl := Option.some.inj htasks
      obtain ⟨q, hq, hmoved⟩ := Option.map_eq_some_iff.mp hmove
      subst hmoved
      refine inv.setPhase horder hpermits hphase (by simp) (by simp)
        (fun p hp => Function.update_of_ne hp _ _) fun q' hq' hframed _ => ?_
      obtain rfl := Option.some.inj (hq.symm.trans hq')
      exact ⟨_, Function.update_self .., dispatchBody_meets hframed⟩
    · cases htasks
  | finish r panicked =>
    simp only [Connection.step] at htasks
    split at htasks
    · rename_i hphase
      obtain rfl := Option.some.inj htasks
      cases panicked with
      | true =>
        obtain rfl := Option.some.inj hmove
        refine inv.setPhase horder hpermits hphase (by simp) (by simp)
          (fun p hp => Function.update_of_ne hp _ _) fun q' _ _ _ => ?_
        exact ⟨.error panicFailure, Function.update_self .., panicFailure_bounded⟩
      | false =>
        obtain ⟨response, hresponse, hmoved⟩ := Option.map_eq_some_iff.mp hmove
        subst hmoved
        refine inv.setPhase horder hpermits hphase (by simp) (by simp) (fun _ _ => rfl)
          fun q' hq' _ hstands => ?_
        -- the handler has its result, so what it owes is that the response fits
        obtain ⟨run, hrun, howes⟩ := hstands
        rw [ServedConnection.response, hq', hrun] at hresponse
        cases run with
        | done result => exact ⟨result, hrun, howes⟩
        | call c next => cases hresponse
    · cases htasks
  | answer r =>
    obtain ⟨response, hresponse, hmoved⟩ := Option.map_eq_some_iff.mp hmove
    subst hmoved
    simp only [Connection.step, inv.writing] at htasks
    split at htasks
    · rename_i hphase
      simp only [not_true_eq_false, if_false, Option.ite_none_right_eq_some,
        Option.some.injEq] at htasks
      obtain ⟨-, rfl⟩ := htasks
      rw [if_pos inv.writing]
      exact inv.answer horder hpermits hphase hresponse rfl rfl rfl
    · cases htasks
  | write =>
    simp only [Connection.step, Option.ite_none_right_eq_some, Option.some.injEq] at htasks
    obtain ⟨-, rfl⟩ := htasks
    simp only [move] at hmove
    split at hmove
    · rename_i r frame hnext
      obtain rfl := Option.some.inj hmove
      obtain ⟨r', response, rest, houtgoing, heq⟩ := inv.nextFrame hencode hnext
      obtain ⟨rfl, hframe⟩ := Prod.mk.inj heq
      obtain rfl := Except.ok.inj hframe
      rw [houtgoing]
      exact inv.write horder hpermits houtgoing rfl rfl rfl
    · cases hmove
  | writerFails =>
    simp only [move] at hmove
    split at hmove
    · rename_i r error hnext
      obtain ⟨r', response, rest, houtgoing, heq⟩ := inv.nextFrame hencode hnext
      exact absurd (Prod.mk.inj heq).2 (by simp)
    · cases hmove

theorem init_inv : (init limit).Inv limit where
  order := Connection.init_orderInv
  permits := Connection.init_permitInv
  task r task h := by simp [init, Connection.init] at h
  writing := rfl
  queued := rfl
  delivery := by
    refine ⟨fun r => ?_, List.nodup_nil, fun x hx => ?_, fun x hx => ?_⟩
    · simp [init, Connection.init, delivered, Connection.phase]
    · cases hx
    · cases hx

/-- What holds of a connection in every state: its writer has not failed, every response that
a handler ended with fits a frame, and the answered requests are, each once, those whose own
response is in the channel or written. -/
structure Delivers (s : ServedConnection) : Prop extends Delivery s where
  writing : s.tasks.writing
  fits : ∀ r response, s.tasks.isFinished r → s.response r = some response →
    response.encodeFrame.length ≤ defaultMaxFrameBytes

theorem Inv.delivers (inv : s.Inv limit) : s.Delivers where
  toDelivery := inv.delivery
  writing := inv.writing
  fits r response hfinished hresponse := by
    rw [Connection.isFinished] at hfinished
    cases hphase : s.tasks.phase r with
    | none =>
      rw [hphase] at hfinished
      cases hfinished
    | some phase =>
      rw [hphase] at hfinished
      obtain ⟨response', hresponse', hfits⟩ := inv.finished hphase hfinished
      obtain rfl := Option.some.inj (hresponse.symm.trans hresponse')
      exact hfits

/-- Every accepted request is answered by a frame that was written. -/
def Settled (s : ServedConnection) : Prop :=
  s.outgoing = [] ∧ ∀ r < s.tasks.requests.length, r ∈ s.written.map Prod.fst

theorem Inv.settled (inv : s.Inv limit) (hidle : s.tasks.Idle) : s.Settled := by
  have hnext : s.outgoing = [] := by
    have hempty := hidle.2.1 inv.writing
    rwa [inv.queued, List.length_eq_zero_iff] at hempty
  refine ⟨hnext, fun r hr => ?_⟩
  have hanswered : s.tasks.phase r = some .answered := by
    have hphase := List.countP_eq_zero.mp hidle.1 _ (List.getElem_mem hr)
    rw [Connection.phase, List.getElem?_eq_getElem hr, Option.map_some]
    simpa using hphase
  have hmem := (inv.delivery.answered r).mpr hanswered
  rwa [delivered, hnext, List.map_nil, List.append_nil] at hmem

end ServedConnection

/-! ### The server -/

namespace Server

variable {D : Type} {cfg : MemoryConfig D} {plain : Char → Bool}
  {codec : MessageCodec ResponseEnvelope} {limit : ℕ} {s t : Server cfg}

structure Inv (limit : ℕ) (s : Server cfg) : Prop where
  store : s.store.view.Bounded
  connection : ∀ c, (s.connections c).Inv limit

theorem init_inv : (init limit : Server cfg).Inv limit where
  store := by
    constructor <;>
    · intro _ _ h
      cases h
  connection _ := ServedConnection.init_inv

theorem Inv.update (inv : s.Inv limit) {store : MemoryBackend cfg} (hstore : store.view.Bounded)
    {c : ℕ} {connection : ServedConnection} (hconnection : connection.Inv limit) :
    Inv limit ⟨store, Function.update s.connections c connection⟩ where
  store := hstore
  connection c' := by
    by_cases hc : c' = c
    · subst hc
      show (Function.update s.connections c' connection c').Inv limit
      rwa [Function.update_self]
    · show (Function.update s.connections c connection c').Inv limit
      rw [Function.update_of_ne hc]
      exact inv.connection c'

variable [DecidableEq D]

/-- A bounded content answers a bounded call as the handler relies on. -/
theorem resumed_meets {store : MemoryBackend cfg} (hstore : store.view.Bounded) {c : BackendCall}
    {q : RequestEnvelope} {next : c.Reply → HandlerRun}
    (howes : ServedConnection.Owes q (.call c next))
    (hfits : ∀ records ∈ c.batchRecords,
      BatchFits q.rpcId q.body (records.map store.view.snapshots)) :
    ServedConnection.Owes q (resumed next (perform store c).1) ∧
      (perform store c).2.view.Bounded := by
  obtain ⟨hbounded, hnext⟩ := howes
  have hends : Ends (fun r => c.Answers (BatchFits q.rpcId q.body) r.1 ∧ r.2.Bounded)
      StoreError.Bounded (Flat.call cfg store.view c) := by
    refine Flat.call_ends hstore hbounded ?_
    rintro records (rfl | rfl)
    · exact hfits records rfl
    · exact hfits records rfl
  have hrefines := memoryCall_refines store c
  cases hcall : Flat.call cfg store.view c with
  | ok r =>
    obtain ⟨a, v⟩ := r
    rw [hcall] at hends hrefines
    obtain ⟨store', hrun, rfl⟩ := hrefines
    rw [perform, hrun]
    exact ⟨hnext (.ok a) hends.1, hends.2⟩
  | error e =>
    rw [hcall] at hends hrefines
    rw [perform, show (memoryCall c).run store = _ from hrefines]
    exact ⟨hnext (.error (.core e)) hends, hstore⟩

omit [DecidableEq D] in
theorem handler_eq_some {c r : ℕ} {run : HandlerRun} (h : s.handler c r = some run) :
    (s.connections c).tasks.phase r = some .running ∧ (s.connections c).handlers r = some run :=
  Option.ite_none_right_eq_some.mp h

/-- **One step of the server.** -/
theorem Inv.step (hencode : codec.encode = ResponseEnvelope.encodeFrame) (inv : s.Inv limit)
    {e : ServerEvent} (hfits : s.readsFit e = true)
    (h : s.step plain codec limit e = some t) : t.Inv limit := by
  cases e with
  | connection c event =>
    obtain ⟨connection, hconnection, rfl⟩ := Option.map_eq_some_iff.mp h
    exact inv.update inv.store ((inv.connection c).step hencode hconnection)
  | call c r =>
    simp only [Server.step] at h
    split at h
    · rename_i call next hhandler
      obtain rfl := Option.some.inj h
      obtain ⟨hphase, hrun⟩ := handler_eq_some hhandler
      obtain ⟨q, hq, hframed, run, hrun', howes⟩ := (inv.connection c).stands hphase
      obtain rfl := Option.some.inj (hrun.symm.trans hrun')
      simp only [readsFit, hq, hhandler, Option.all_eq_true, decide_eq_true_eq] at hfits
      obtain ⟨hmeets, hstore⟩ := resumed_meets inv.store howes hfits
      refine inv.update hstore ?_
      have hinv := inv.connection c
      refine hinv.update r hinv.order hinv.permits rfl rfl rfl rfl
        (fun p hp => ⟨rfl, Function.update_of_ne hp _ _⟩) ?_ ?_ fun task htask => ?_
      · rw [hphase]
        simp
      · show (s.connections c).tasks.phase r ≠ _
        rw [hphase]
        simp
      · obtain ⟨hframed, -⟩ := hinv.task r task htask
        have hbody := congrArg (Option.map RequestTask.body) htask
        obtain rfl := Option.some.inj (hq.symm.trans hbody)
        have hrunning : task.phase = .running :=
          Option.some.inj ((congrArg (Option.map RequestTask.phase) htask).symm.trans hphase)
        rw [hrunning]
        exact ⟨hframed, _, Function.update_self .., hmeets⟩
    · cases h

/-- The connection can move without its client and without a panic, or every request it
accepted is answered. -/
def CanMove (plain : Char → Bool) (codec : MessageCodec ResponseEnvelope) (limit : ℕ)
    (s : Server cfg) (c : ℕ) : Prop :=
  (∃ e : ConnectionEvent RequestEnvelope OrderKey, e.IsOwn ∧ (∀ r, e ≠ .finish r true) ∧
      (s.step plain codec limit (.connection c e)).isSome) ∨
    (∃ r, (s.step plain codec limit (.call c r)).isSome) ∨ (s.connections c).Settled

theorem Inv.canMove (hlimit : 1 ≤ limit) (hencode : codec.encode = ResponseEnvelope.encodeFrame)
    (inv : s.Inv limit) (c : ℕ) : s.CanMove plain codec limit c := by
  have hinv := inv.connection c
  -- a move of the tasks whose data are there is a move of the server
  have hmove : ∀ e : ConnectionEvent RequestEnvelope OrderKey, e.IsOwn → (∀ r, e ≠ .finish r true) →
      ∀ tasks, (s.connections c).tasks.step RequestEnvelope.orderKeys limit e = some tasks →
      ((s.connections c).move plain codec tasks e).isSome → s.CanMove plain codec limit c := by
    intro e hown hpanic tasks htasks hdata
    refine Or.inl ⟨e, hown, hpanic, ?_⟩
    rw [Server.step, Option.isSome_map, ServedConnection.step, htasks]
    exact hdata
  rcases Connection.progress hlimit hinv.order hinv.permits with ⟨e, hown, henabled⟩ | hidle
  · obtain ⟨tasks, htasks⟩ := Option.isSome_iff_exists.mp henabled
    cases e with
    | acquire => exact hmove .acquire trivial (by simp) tasks htasks rfl
    | pass r => exact hmove (.pass r) trivial (by simp) tasks htasks rfl
    | admitRequest | stopReading | writerFails => cases hown
    | start r =>
      refine hmove (.start r) trivial (by simp) tasks htasks ?_
      simp only [Connection.step] at htasks
      split at htasks
      · rename_i hphase
        obtain ⟨q, hq, -⟩ := hinv.stands hphase
        rw [ServedConnection.move, hq]
        rfl
      · cases htasks
    | finish r panicked =>
      have htasks' : (s.connections c).tasks.step RequestEnvelope.orderKeys limit
          (.finish r false) = some tasks := htasks
      simp only [Connection.step] at htasks
      split at htasks
      · rename_i hphase
        obtain ⟨q, hq, -, run, hrun, -⟩ := hinv.stands hphase
        cases run with
        | done result =>
          refine hmove (.finish r false) trivial (by simp) tasks htasks' ?_
          rw [ServedConnection.move, ServedConnection.response, hq, hrun]
          rfl
        | call call next =>
          refine Or.inr (Or.inl ⟨r, ?_⟩)
          rw [Server.step, handler, if_pos hphase, hrun]
          rfl
      · cases htasks
    | answer r =>
      refine hmove (.answer r) trivial (by simp) tasks htasks ?_
      simp only [Connection.step] at htasks
      split at htasks
      · rename_i hphase
        obtain ⟨response, hresponse, -⟩ := hinv.finished hphase rfl
        rw [ServedConnection.move, hresponse]
        rfl
      · cases htasks
    | write =>
      refine hmove .write trivial (by simp) tasks htasks ?_
      obtain ⟨⟨-, hpos⟩, -⟩ := Option.ite_none_right_eq_some.mp htasks
      rw [hinv.queued] at hpos
      obtain ⟨first, hfirst⟩ := Option.isSome_iff_exists.mp
        (List.isSome_head?.mpr (List.ne_nil_of_length_pos hpos))
      have hnext : (s.connections c).nextFrame codec =
          some (first.1, writeMessage codec defaultMaxFrameBytes first.2) := by
        rw [ServedConnection.nextFrame, hfirst, Option.map_some]
      obtain ⟨r, response, rest, -, heq⟩ := hinv.nextFrame hencode hnext
      rw [ServedConnection.move, hnext, heq]
      rfl
  · exact Or.inr (Or.inr (hinv.settled hidle))

end Server

end DbProxy
