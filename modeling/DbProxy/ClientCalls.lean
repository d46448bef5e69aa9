/-
Logical calls of a client (`dbproxy-client`): the budget, the retry and the reconnect.

A call makes an attempt on the current connection.  If that fails in a way that another
connection may mend, the call reconnects and makes a second attempt, all under one deadline.
An attempt is a call of `exchange` on a `ClientConnection`; all calls of a client and all
readers of its connections run side by side.  Time passes between the steps: a wait ends at
the deadline only when the clock has reached it.

The observer and the connect timeout of the configuration are not here: the one has no say
in a call, and the other is in what a `Handshake` comes back with.

* `RequestBudget.new` — the deadline of a call;
* `connectSingle` — one connection attempt;
* `ClientSystem.step` — all interleavings of calls, readers and the clock.
-/
import DbProxy.ExchangeResults

namespace DbProxy

open Text

/-! ### Errors -/

/-- The errors of a call: those of an attempt, and those of a reconnect. -/
inductive CallError
  | client (error : ClientError)
  | invalidConfig (reason : String)
  | connectTimeout
  | protocolDecode (text : String)
  /-- `Remote`, in a handshake -/
  | rejected (code : ℤ) (message : String)

def ClientError.isReconnectable : ClientError → Bool
  | requestTimeout | connectionUnusable | connectionClosed | protocolIo .. => true
  | _ => false

def CallError.isEndpointUnavailable : CallError → Bool
  | connectTimeout | client .connectionClosed | client (.protocolIo ..) => true
  | _ => false

/-- The codes of the schema that an endpoint is given up for. -/
def unauthorizedCode : ℤ := 1002

def protocolMismatchCode : ℤ := 1003

def CallError.isCandidateHandshakeRejection : CallError → Bool
  | rejected code _ => code = unauthorizedCode || code = protocolMismatchCode
  | client (.unexpectedResponse _) => true
  | _ => false

/-! ### Configuration and budget -/

structure ClientConfig where
  endpoint : String
  failoverEndpoints : List String
  authToken : String
  clientName : String
  maxFrameBytes : ℕ
  requestTimeout : ℕ
  maxInFlight : ℕ

/-- The endpoints without repetitions, the preferred one first. -/
def ClientConfig.endpointCandidates (self : ClientConfig) : Except CallError (List String) := do
  let candidates ← (self.endpoint :: self.failoverEndpoints).foldlM (fun candidates endpoint =>
    if blank endpoint then .error (.invalidConfig "endpoint is empty")
    else .ok (if endpoint ∈ candidates then candidates else candidates ++ [endpoint])) []
  if candidates = [] then throw (.invalidConfig "endpoint list is empty")
  else return candidates

/-- The deadline; `instantMax` is the last instant that the platform represents. -/
def RequestBudget.new (instantMax now duration : ℕ) : Except CallError ℕ :=
  if duration = 0 then .error (.invalidConfig "request timeout must be positive")
  else if instantMax < now + duration then .error (.invalidConfig "request timeout is too large")
  else .ok (now + duration)

/-! ### Connection attempts -/

/-- What `ProtocolError` says about a message of the handshake. -/
inductive HandshakeFailure
  | io (kind message : String)
  | invalidFrameLength (length maximum : ℕ)
  | decode (text : String)

def HandshakeFailure.error : HandshakeFailure → CallError
  | io kind message => .client (.protocolIo kind message)
  | invalidFrameLength length maximum => .client (.protocolFrameLength length maximum)
  | decode text => .protocolDecode text

structure ServerHello where
  accepted : Bool
  /-- code and message -/
  error : Option (ℤ × String)
  protocolVersion : ℕ
  protocolFingerprint : String
  supportsOutboxRelay : Bool

inductive ServerFrameBody
  | hello (hello : ServerHello)
  | response

/-- What the network does in a connection attempt; a stage that is `none` has timed out. -/
structure Handshake where
  connected : Option (Except HandshakeFailure Unit)
  noDelay : Except HandshakeFailure Unit
  helloWritten : Option (Except HandshakeFailure Unit)
  /-- the frame that was read, or the end of the stream -/
  answer : Option (Except HandshakeFailure (Option (Option ServerFrameBody)))

/-- A stage under the connect timeout. -/
def Handshake.stage {α : Type} : Option (Except HandshakeFailure α) → Except CallError α
  | none => .error .connectTimeout
  | some (.error failure) => .error failure.error
  | some (.ok a) => .ok a

/-- The codes of `wire::ErrorCode`. -/
def errorCodes : List ℤ :=
  [0, 1001, 1002, 1003, 2001, 2002, 2003, 2004, 2005, 2006, 2007, 3001, 9000]

def remoteError : Option (ℤ × String) → CallError
  | none => .rejected 9000 "server rejected the request without an error payload"
  | some (code, message) => .rejected (if code ∈ errorCodes then code else 9000) message

def protocolVersion : ℕ := 2

/-- The greatest number of permits of a semaphore. -/
def maxPermits : ℕ := 2 ^ 61 - 1

section Client

variable (fingerprint : String) (instantMax : ℕ) (config : ClientConfig)

/-- `connect_single`. -/
def connectSingle (now endpointIndex : ℕ) (net : Handshake) : Except CallError Unit := do
  let candidates ← config.endpointCandidates
  if candidates.length ≤ endpointIndex then
    throw (.invalidConfig "endpoint index is invalid")
  else if blank config.endpoint then throw (.invalidConfig "endpoint is empty")
  else if ¬ (16 ≤ config.authToken.utf8ByteSize ∧ config.authToken.utf8ByteSize ≤ 512) then
    throw (.invalidConfig "auth token length is outside 16..=512 bytes")
  else if blank config.clientName ∨ 128 < config.clientName.utf8ByteSize then
    throw (.invalidConfig "client name is empty or too long")
  else if config.maxFrameBytes = 0 then throw (.invalidConfig "max frame bytes is zero")
  else if ¬ (1 ≤ config.maxInFlight ∧ config.maxInFlight ≤ maxPermits) then
    throw (.invalidConfig "max in-flight requests is outside the supported range")
  else
    -- only to refuse a timeout that no call could use
    let _ ← RequestBudget.new instantMax now config.requestTimeout
    Handshake.stage net.connected
    -- `set_nodelay` is not under the connect timeout
    Handshake.stage (some net.noDelay)
    Handshake.stage net.helloWritten
    match ← Handshake.stage net.answer with
    | none => throw (.client .connectionClosed)
    | some none => throw (.client (.unexpectedResponse "empty handshake frame"))
    | some (some .response) =>
      throw (.client (.unexpectedResponse "server sent a response before handshake"))
    | some (some (.hello hello)) =>
      if !hello.accepted then throw (remoteError hello.error)
      else if hello.protocolVersion ≠ protocolVersion ∨
          hello.protocolFingerprint ≠ fingerprint ∨ !hello.supportsOutboxRelay then
        throw (.client (.unexpectedResponse "server accepted a different protocol"))
      else return ()

/-! ### Calls -/

/-- What a call returns; `none` is a call that was dropped. -/
abbrev CallResult := Option (Except CallError ResponseEnvelope)

/-- Where a call stands. -/
inductive CallPhase
  | absent
  /-- the budget is made -/
  | starting
  | attempting (second : Bool) (connection exchange : ℕ)
  /-- the first attempt has failed, and the budget is checked next -/
  | failed
  /-- waits for the lock of `reconnecting` -/
  | queueing
  /-- has the lock, and looks at the current connection next -/
  | holding
  | connecting (currentIndex offset : ℕ) (lastError lastRejection : Option CallError)
  | reconnected
  | returned (result : CallResult)

/-- What `call` makes of the result of an attempt. -/
def CallPhase.afterAttempt (second : Bool) : ExchangeResult → CallPhase
  | none => .returned none
  | some (.ok response) => .returned (some (.ok response))
  | some (.error e) =>
    -- the second attempt is the last one
    if !second && e.isReconnectable then .failed
    else .returned (some (.error (.client e)))

structure LogicalCall where
  deadline : ℕ := 0
  mayHaveSent : Bool := false
  /-- the attempts so far, by connection and exchange -/
  attempts : List (ℕ × ℕ) := []
  phase : CallPhase := .absent

/-- `RequestBudget::timeout_error`. -/
def LogicalCall.timeoutError (call : LogicalCall) : ClientError :=
  if call.mayHaveSent then .requestTimeout else .requestNotSentTimeout

/-- The waits of an attempt end at the deadline of the call, and writes fail with an error of
the protocol. -/
def LogicalCall.allows (call : LogicalCall) (clock : ℕ) : CallEvent → Bool
  | .expire => call.deadline ≤ clock
  | e => e.fromProtocol

/-- The client and the connections it has opened, by number. -/
structure ClientSystem where
  clock : ℕ := 0
  connections : ℕ → ClientConnection
  endpointIndex : ℕ → ℕ
  opened : ℕ := 1
  /-- the connection that calls use now -/
  current : ℕ := 0
  /-- who holds the lock of `reconnecting` -/
  reconnecting : Option ℕ := none
  calls : ℕ → LogicalCall := fun _ => {}
  begun : ℕ := 0

inductive ClientSystemEvent
  | advance (now : ℕ)
  | begin
  | attempt (call : ℕ)
  | exchange (call : ℕ) (e : CallEvent)
  | reader (connection : ℕ) (e : ReaderEvent)
  /-- the attempt has returned -/
  | settle (call : ℕ)
  /-- the check of the budget before a reconnect -/
  | check (call : ℕ)
  | lockReconnect (call : ℕ)
  | inspect (call : ℕ)
  | connect (call : ℕ) (net : Handshake)
  /-- the deadline ends the reconnect -/
  | expire (call : ℕ)
  /-- the call is dropped in the reconnect -/
  | cancel (call : ℕ)

namespace ClientSystem

/-- A client that has connected to an endpoint. -/
def connected (endpointIndex : ℕ) : ClientSystem where
  connections := fun _ => ClientConnection.opened config.maxInFlight
  endpointIndex := fun _ => endpointIndex

variable (s : ClientSystem)

def setCall (k : ℕ) (call : LogicalCall) : ClientSystem :=
  { s with calls := Function.update s.calls k call }

def setPhase (k : ℕ) (phase : CallPhase) : ClientSystem :=
  s.setCall k { s.calls k with phase }

def finish (k : ℕ) (result : CallResult) : ClientSystem := s.setPhase k (.returned result)

/-- The guard of `reconnecting` is dropped. -/
def unlock : ClientSystem := { s with reconnecting := none }

def setConnection (c : ℕ) (connection : ClientConnection) : ClientSystem :=
  { s with connections := Function.update s.connections c connection }

def begin : ClientSystem :=
  let call := match RequestBudget.new instantMax s.clock config.requestTimeout with
    | .error e => ⟨0, false, [], .returned (some (.error e))⟩
    | .ok deadline => ⟨deadline, false, [], .starting⟩
  { s.setCall s.begun call with begun := s.begun + 1 }

/-- An attempt starts on the connection that is current. -/
def beginAttempt (k : ℕ) (second : Bool) : Option ClientSystem :=
  let call := s.calls k
  let connection := s.connections s.current
  -- the budget is lent to the attempt
  (connection.step (.begin call.mayHaveSent)).map fun connection' =>
    (s.setConnection s.current connection').setCall k { call with
      attempts := (s.current, connection.count) :: call.attempts
      phase := .attempting second s.current connection.count }

def attempt (k : ℕ) : Option ClientSystem :=
  match (s.calls k).phase with
  | .starting => s.beginAttempt k false
  | .reconnected => s.beginAttempt k true
  | _ => none

/-- A step of the attempt. -/
def exchange (k : ℕ) (e : CallEvent) : Option ClientSystem :=
  match (s.calls k).phase with
  | .attempting _ c i =>
    if (s.calls k).allows s.clock e then
      ((s.connections c).stepCall i e).map (s.setConnection c)
    else none
  | _ => none

def settle (k : ℕ) : Option ClientSystem :=
  match (s.calls k).phase with
  | .attempting second c i =>
    let x := (s.connections c).exchanges i
    match x.phase with
    -- and handed back with what the attempt has written into it
    | .returned result => some (s.setCall k { s.calls k with
        mayHaveSent := x.mayHaveSent, phase := .afterAttempt second result })
    | _ => none
  | _ => none

def check (k : ℕ) : Option ClientSystem :=
  match (s.calls k).phase with
  | .failed =>
    if (s.calls k).deadline ≤ s.clock then
      some (s.finish k (some (.error (.client (s.calls k).timeoutError))))
    else
      -- the candidates are listed before the lock is asked for
      match config.endpointCandidates with
      | .error e => some (s.finish k (some (.error e)))
      | .ok _ => some (s.setPhase k .queueing)
  | _ => none

def lockReconnect (k : ℕ) : Option ClientSystem :=
  match (s.calls k).phase with
  | .queueing =>
    if s.reconnecting.isSome then none
    else some { s.setPhase k .holding with reconnecting := some k }
  | _ => none

/-- Another call may have replaced the connection. -/
def inspect (k : ℕ) : Option ClientSystem :=
  match (s.calls k).phase with
  | .holding =>
    if (s.connections s.current).usable then some (s.unlock.setPhase k .reconnected)
    else some (s.setPhase k (.connecting (s.endpointIndex s.current) 1 none none))
  | _ => none

/-- The next candidate, or the end of the loop. -/
def nextCandidate (k currentIndex offset count : ℕ) (lastError lastRejection : Option CallError) :
    ClientSystem :=
  if offset < count then
    s.setPhase k (.connecting currentIndex (offset + 1) lastError lastRejection)
  else s.unlock.finish k
    (some (.error ((lastRejection.or lastError).getD (.client .connectionClosed))))

/-- One round of the loop of `reconnect_next`. -/
def connect (k : ℕ) (net : Handshake) : Option ClientSystem :=
  match (s.calls k).phase with
  | .connecting currentIndex offset lastError lastRejection =>
    match config.endpointCandidates with
    | .error e => some (s.unlock.finish k (some (.error e)))
    | .ok candidates =>
      let index := (currentIndex + offset) % candidates.length
      match connectSingle fingerprint instantMax config s.clock index net with
      | .ok _ =>
        -- calls that start now use the new connection; others go on with the old one
        some ({ s.setConnection s.opened (ClientConnection.opened config.maxInFlight) with
            endpointIndex := Function.update s.endpointIndex s.opened index
            opened := s.opened + 1
            current := s.opened
            reconnecting := none }.setPhase k .reconnected)
      | .error e =>
        if e.isEndpointUnavailable then
          some (s.nextCandidate k currentIndex offset candidates.length (some e) lastRejection)
        else if e.isCandidateHandshakeRejection then
          some (s.nextCandidate k currentIndex offset candidates.length lastError (some e))
        else some (s.unlock.finish k (some (.error e)))
  | _ => none

/-- The reconnect is given up where it waits; a call that connects has the lock. -/
def stopReconnect (k : ℕ) (result : CallResult) : Option ClientSystem :=
  match (s.calls k).phase with
  | .queueing => some (s.finish k result)
  | .connecting .. => some (s.unlock.finish k result)
  | _ => none

def expire (k : ℕ) : Option ClientSystem :=
  if (s.calls k).deadline ≤ s.clock then
    s.stopReconnect k (some (.error (.client (s.calls k).timeoutError)))
  else none

def step : ClientSystemEvent → Option ClientSystem
  | .advance now => if s.clock ≤ now then some { s with clock := now } else none
  | .begin => some (s.begin instantMax config)
  | .attempt k => s.attempt k
  | .exchange k e => s.exchange k e
  | .reader c e =>
    if c < s.opened then ((s.connections c).stepReader e).map (s.setConnection c) else none
  | .settle k => s.settle k
  | .check k => s.check config k
  | .lockReconnect k => s.lockReconnect k
  | .inspect k => s.inspect k
  | .connect k net => s.connect fingerprint instantMax config k net
  | .expire k => s.expire k
  | .cancel k => s.stopReconnect k none

end ClientSystem

end Client

end DbProxy
