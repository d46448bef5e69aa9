/-
One physical connection of the client (`dbproxy-client`): the calls of `exchange` on
it and the task `read_responses` that hands out the responses.

The steps are the accesses to what calls and reader share: the flag `usable`, the
slots, the lock of the writer, the id counter, the map of waiters, the failure and
the channels to the waiters.  A call may be cancelled where it awaits; its guards are
then dropped in the order of the source.  Time is in the events: which deadline has
passed, and the readings of the clock.  The connection outlives its calls, so the
reader is never aborted under one.

* `ClientConnection.step` — all interleavings of calls and reader.
-/
import DbProxy.Dispatch
import DbProxy.StepMachine

namespace DbProxy

/-- Why the read side ended. -/
inductive ConnectionFailure
  | closed
  | io (kind message : String)
  | invalid
  | unexpected (message : String)
deriving DecidableEq

inductive ClientError
  | requestTimeout
  | requestNotSentTimeout
  | connectionUnusable
  | connectionClosed
  | protocolIo (kind message : String)
  | protocolFrameLength (length maximum : ℕ)
  | unexpectedResponse (message : String)
  | remote (error : WireRpcError)

def ConnectionFailure.error : ConnectionFailure → ClientError
  | closed => .connectionClosed
  | io kind message => .protocolIo kind message
  | invalid => .unexpectedResponse "DBProxy sent an invalid frame"
  | unexpected message => .unexpectedResponse message

/-! ### Calls -/

/-- What a waiter is sent; `arrival` numbers the responses in the order they were read. -/
inductive Delivery
  | response (arrival : ℕ) (response : ResponseEnvelope)
  | failed (failure : ConnectionFailure)

/-- What a call returns; `none` is a cancelled call. -/
abbrev ExchangeResult := Option (Except ClientError ResponseEnvelope)

/-- What `exchange` makes of a message. -/
def Delivery.outcome : Delivery → Except ClientError ResponseEnvelope
  | response _ r =>
    match r.error with
    | some error => .error (.remote error)
    | none => .ok r
  | failed failure => .error failure.error

/-- Where a call of `exchange` stands. -/
inductive ExchangePhase
  | absent
  | started
  /-- waits for a slot -/
  | queued
  /-- waits for the writer -/
  | slotted
  | locked
  /-- connection and writer were found usable -/
  | validated
  | numbered
  | registered
  | writing
  /-- the `WriteAttempt` is dropped unfinished, first the flag, then the writer -/
  | aborting (result : ExchangeResult)
  | closing (result : ExchangeResult)
  | sent
  | waiting (sentAt : ℕ)
  /-- the result is decided and the `Registration` not dropped yet -/
  | leaving (result : ExchangeResult)
  | returned (result : ExchangeResult)

namespace ExchangePhase

def holdsSlot : ExchangePhase → Bool
  | absent | started | queued | returned _ => false
  | _ => true

/-- The lock of the writer is held. -/
def holdsWriter : ExchangePhase → Bool
  | locked | validated | numbered | registered | writing | aborting _ | closing _ => true
  | _ => false

/-- The waiter was registered and is not forgotten. -/
def isRegistered : ExchangePhase → Bool
  | registered | writing | aborting _ | closing _ | sent | waiting _ | leaving _ => true
  | _ => false

def isWriting : ExchangePhase → Bool
  | writing => true
  | _ => false

/-- What the call returns, once this is decided. -/
def result : ExchangePhase → ExchangeResult
  | aborting result | closing result | leaving result | returned result => result
  | _ => none

end ExchangePhase

/-- `received` is the message in the channel to the call. -/
structure Exchange where
  rpcId : UInt64 := 0
  mayHaveSent : Bool := false
  received : Option Delivery := none
  phase : ExchangePhase := .absent

/-- `RequestBudget::timeout_error`. -/
def Exchange.timeoutError (x : Exchange) : ClientError :=
  if x.mayHaveSent then .requestTimeout else .requestNotSentTimeout

/-! ### The connection -/

/-- Where `read_responses` stands. -/
inductive ReaderPhase
  | reading
  | arrived (arrival : ℕ) (response : ResponseEnvelope)
  /-- the waiter is taken out of the map and not sent its response yet -/
  | delivering (arrival : ℕ) (response : ResponseEnvelope) (call : ℕ)
  | losing (failure : ConnectionFailure)
  /-- the waiters taken out of the map and not sent the failure yet -/
  | failing (failure : ConnectionFailure) (rest : List (UInt64 × ℕ))
  | ended

/-- A frame of the stream, of which at least the first byte may be written. -/
structure WrittenFrame where
  call : ℕ
  complete : Bool
deriving DecidableEq

structure ClientConnection where
  exchanges : ℕ → Exchange := fun _ => {}
  count : ℕ := 0
  /-- free permits of `in_flight` -/
  slots : ℕ
  /-- who holds the lock of the writer -/
  holder : Option ℕ := none
  /-- the write half is there -/
  writer : Bool := true
  wire : List WrittenFrame := []
  nextRpcId : UInt64 := 1
  usable : Bool := true
  waiters : List (UInt64 × ℕ) := []
  failure : Option ConnectionFailure := none
  lastFrameMicros : ℕ := 0
  arrivals : ℕ := 0
  reader : ReaderPhase := .reading

/-- What a call of `exchange` does next, or what ends its wait. -/
inductive CallEvent
  | checkUsable
  | acquire
  | lockWriter
  | number
  | register
  | startWrite
  | writeDone
  | writeFailed (error : ClientError)
  | markUnusable
  | closeWriter
  | stamp (now : ℕ)
  | receive
  | senderDropped
  | forget
  | expire
  | cancel

/-- What `read_responses` does next. -/
inductive ReaderEvent
  | arrive (response : ResponseEnvelope) (now : ℕ)
  | route
  | deliver
  | lose (failure : ConnectionFailure)
  | takeWaiters
  | failWaiter (rpcId : UInt64)
  | endReader

inductive ClientEvent
  | begin (mayHaveSent : Bool)
  | call (i : ℕ) (e : CallEvent)
  | reader (e : ReaderEvent)

namespace ClientConnection

/-- A connection that has been opened with `max_in_flight` slots. -/
def opened (maxInFlight : ℕ) : ClientConnection := { slots := maxInFlight }

/-- The waiter under an id. -/
def findWaiter (waiters : List (UInt64 × ℕ)) (rpcId : UInt64) : Option ℕ :=
  (waiters.find? (·.1 = rpcId)).map (·.2)

def removeWaiter (waiters : List (UInt64 × ℕ)) (rpcId : UInt64) : List (UInt64 × ℕ) :=
  waiters.filter (·.1 ≠ rpcId)

def setExchange (s : ClientConnection) (i : ℕ) (x : Exchange) : ClientConnection :=
  { s with exchanges := Function.update s.exchanges i x }

@[simp] theorem setExchange_self (s : ClientConnection) (i : ℕ) (x : Exchange) :
    (s.setExchange i x).exchanges i = x := Function.update_self ..

theorem setExchange_other (s : ClientConnection) {i j : ℕ} (x : Exchange) (hj : j ≠ i) :
    (s.setExchange i x).exchanges j = s.exchanges j := Function.update_of_ne hj ..

def setPhase (s : ClientConnection) (i : ℕ) (phase : ExchangePhase) : ClientConnection :=
  s.setExchange i { s.exchanges i with phase }

/-- A message to a waiter; it is lost when the call has dropped its receiver. -/
def send (s : ClientConnection) (i : ℕ) (message : Delivery) : ClientConnection :=
  if (s.exchanges i).phase.isRegistered then
    s.setExchange i { s.exchanges i with received := some message }
  else s

/-- The sender of the channel to a call is somewhere. -/
def hasSender (s : ClientConnection) (i : ℕ) : Bool :=
  s.waiters.any (·.2 = i) ||
    match s.reader with
    | .delivering _ _ call => call = i
    | .failing _ rest => rest.any (·.2 = i)
    | _ => false

/-- The call returns and drops the guards it has. -/
def finish (s : ClientConnection) (i : ℕ) (result : ExchangeResult) : ClientConnection :=
  let phase := (s.exchanges i).phase
  { s.setPhase i (.returned result) with
    slots := if phase.holdsSlot then s.slots + 1 else s.slots
    holder := if phase.holdsWriter then none else s.holder }

/-- The result of a registered call is decided; the guard of the writer is dropped. -/
def leave (s : ClientConnection) (i : ℕ) (result : ExchangeResult) : ClientConnection :=
  { s.setPhase i (.leaving result) with
    holder := if (s.exchanges i).phase.holdsWriter then none else s.holder }

/-! #### Steps of a call -/

/-- The two checks of `exchange`: before it queues, and under the lock of the writer. -/
def checkUsable (s : ClientConnection) (i : ℕ) : Option ClientConnection :=
  match (s.exchanges i).phase with
  | .started =>
    if s.usable then some (s.setPhase i .queued)
    else some (s.finish i (some (.error .connectionUnusable)))
  | .locked =>
    if s.usable && s.writer then some (s.setPhase i .validated)
    else some (s.finish i (some (.error .connectionUnusable)))
  | _ => none

def acquire (s : ClientConnection) (i : ℕ) : Option ClientConnection :=
  match (s.exchanges i).phase with
  | .queued =>
    if s.slots = 0 then none else some { s.setPhase i .slotted with slots := s.slots - 1 }
  | _ => none

def lockWriter (s : ClientConnection) (i : ℕ) : Option ClientConnection :=
  match (s.exchanges i).phase with
  | .slotted =>
    if s.holder.isSome then none else some { s.setPhase i .locked with holder := some i }
  | _ => none

/-- `fetch_add`, which wraps. -/
def number (s : ClientConnection) (i : ℕ) : Option ClientConnection :=
  match (s.exchanges i).phase with
  | .validated => some { s.setExchange i
        { s.exchanges i with rpcId := s.nextRpcId, phase := .numbered } with
      nextRpcId := s.nextRpcId + 1 }
  | _ => none

def register (s : ClientConnection) (i : ℕ) : Option ClientConnection :=
  match (s.exchanges i).phase with
  | .numbered =>
    match s.failure with
    | some failure => some (s.finish i (some (.error failure.error)))
    | none =>
      let rpcId := (s.exchanges i).rpcId
      some { s.setPhase i .registered with
        waiters := (rpcId, i) :: removeWaiter s.waiters rpcId }
  | _ => none

/-- `write_request` up to the first byte. -/
def startWrite (s : ClientConnection) (i : ℕ) : Option ClientConnection :=
  match (s.exchanges i).phase with
  | .registered =>
    if s.writer then
      some { s.setExchange i { s.exchanges i with mayHaveSent := true, phase := .writing } with
        wire := s.wire ++ [⟨i, false⟩] }
    else some (s.leave i (some (.error .connectionUnusable)))
  | _ => none

def writeDone (s : ClientConnection) (i : ℕ) : Option ClientConnection :=
  match (s.exchanges i).phase with
  | .writing => some { s.setPhase i .sent with
      wire := s.wire.dropLast ++ [⟨i, true⟩]
      holder := none }
  | _ => none

def writeFailed (s : ClientConnection) (i : ℕ) (error : ClientError) : Option ClientConnection :=
  match (s.exchanges i).phase with
  | .writing => some (s.setPhase i (.aborting (some (.error error))))
  | _ => none

def markUnusable (s : ClientConnection) (i : ℕ) : Option ClientConnection :=
  match (s.exchanges i).phase with
  | .aborting result => some { s.setPhase i (.closing result) with usable := false }
  | _ => none

def closeWriter (s : ClientConnection) (i : ℕ) : Option ClientConnection :=
  match (s.exchanges i).phase with
  | .closing result => some { s.leave i result with writer := false }
  | _ => none

/-- The clock is read after the write. -/
def stamp (s : ClientConnection) (i now : ℕ) : Option ClientConnection :=
  match (s.exchanges i).phase with
  | .sent => some (s.setPhase i (.waiting now))
  | _ => none

def receive (s : ClientConnection) (i : ℕ) : Option ClientConnection :=
  match (s.exchanges i).phase with
  | .waiting _ => (s.exchanges i).received.map fun message => s.leave i (some message.outcome)
  | _ => none

/-- The channel is closed without a message. -/
def senderDropped (s : ClientConnection) (i : ℕ) : Option ClientConnection :=
  match (s.exchanges i).phase with
  | .waiting _ =>
    if (s.exchanges i).received.isSome || s.hasSender i then none
    else some (s.leave i (some (.error .connectionClosed)))
  | _ => none

/-- The `Registration` is dropped, and the slot after it. -/
def forget (s : ClientConnection) (i : ℕ) : Option ClientConnection :=
  match (s.exchanges i).phase with
  | .leaving result => some { s.finish i result with
      waiters := removeWaiter s.waiters (s.exchanges i).rpcId }
  | _ => none

/-- A deadline of the call has passed: a check of the budget fails, or a wait ends. -/
def expire (s : ClientConnection) (i : ℕ) : Option ClientConnection :=
  let x := s.exchanges i
  match x.phase with
  | .started | .queued | .slotted | .locked => some (s.finish i (some (.error x.timeoutError)))
  | .registered => some (s.leave i (some (.error x.timeoutError)))
  | .writing => some (s.setPhase i (.aborting (some (.error .requestTimeout))))
  | .waiting sentAt => some { s.leave i (some (.error .requestTimeout)) with
      -- only a connection that was silent since this send is presumed dead
      usable := s.usable && !(s.lastFrameMicros < sentAt) }
  | _ => none

/-- The call is dropped where it awaits. -/
def cancel (s : ClientConnection) (i : ℕ) : Option ClientConnection :=
  match (s.exchanges i).phase with
  | .started | .queued | .slotted => some (s.finish i none)
  | .writing => some (s.setPhase i (.aborting none))
  | .waiting _ => some (s.leave i none)
  | _ => none

def stepCall (s : ClientConnection) (i : ℕ) : CallEvent → Option ClientConnection
  | .checkUsable => s.checkUsable i
  | .acquire => s.acquire i
  | .lockWriter => s.lockWriter i
  | .number => s.number i
  | .register => s.register i
  | .startWrite => s.startWrite i
  | .writeDone => s.writeDone i
  | .writeFailed error => s.writeFailed i error
  | .markUnusable => s.markUnusable i
  | .closeWriter => s.closeWriter i
  | .stamp now => s.stamp i now
  | .receive => s.receive i
  | .senderDropped => s.senderDropped i
  | .forget => s.forget i
  | .expire => s.expire i
  | .cancel => s.cancel i

/-! #### Steps of the reader -/

/-- A frame was read; `complete` stores the time first. -/
def arrive (s : ClientConnection) (response : ResponseEnvelope) (now : ℕ) :
    Option ClientConnection :=
  match s.reader with
  | .reading => some { s with
      lastFrameMicros := now
      arrivals := s.arrivals + 1
      reader := .arrived s.arrivals response }
  | _ => none

/-- The waiter is taken out of the map. -/
def route (s : ClientConnection) : Option ClientConnection :=
  match s.reader with
  | .arrived arrival response =>
    match findWaiter s.waiters response.rpcId with
    -- nobody waits for the response any more
    | none => some { s with reader := .reading }
    | some call => some { s with
        waiters := removeWaiter s.waiters response.rpcId
        reader := .delivering arrival response call }
  | _ => none

def deliver (s : ClientConnection) : Option ClientConnection :=
  match s.reader with
  | .delivering arrival response call =>
    some { s.send call (.response arrival response) with reader := .reading }
  | _ => none

/-- The loop ends; `fail` marks the connection first. -/
def lose (s : ClientConnection) (failure : ConnectionFailure) : Option ClientConnection :=
  match s.reader with
  | .reading => some { s with usable := false, reader := .losing failure }
  | _ => none

def takeWaiters (s : ClientConnection) : Option ClientConnection :=
  match s.reader with
  | .losing failure => some { s with
      failure := s.failure.or (some failure)
      waiters := []
      reader := .failing failure s.waiters }
  | _ => none

/-- One waiter is sent the failure; the order is that of a hash map. -/
def failWaiter (s : ClientConnection) (rpcId : UInt64) : Option ClientConnection :=
  match s.reader with
  | .failing failure rest => (findWaiter rest rpcId).map fun call =>
      { s.send call (.failed failure) with
        reader := .failing failure (removeWaiter rest rpcId) }
  | _ => none

def endReader (s : ClientConnection) : Option ClientConnection :=
  match s.reader with
  | .failing _ [] => some { s with reader := .ended }
  | _ => none

def stepReader (s : ClientConnection) : ReaderEvent → Option ClientConnection
  | .arrive response now => s.arrive response now
  | .route => s.route
  | .deliver => s.deliver
  | .lose failure => s.lose failure
  | .takeWaiters => s.takeWaiters
  | .failWaiter rpcId => s.failWaiter rpcId
  | .endReader => s.endReader

def step (s : ClientConnection) : ClientEvent → Option ClientConnection
  | .begin mayHaveSent => some { s with
      exchanges := Function.update s.exchanges s.count { mayHaveSent, phase := .started }
      count := s.count + 1 }
  | .call i e => s.stepCall i e
  | .reader e => s.stepReader e

end ClientConnection

end DbProxy
