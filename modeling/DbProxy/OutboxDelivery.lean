/-
Delivery of outbox events: workers, publications and streams.

A worker claims, hands its messages to the publisher of its first lease, waits for the
reply or gives up, and settles its leases one by one.  Commands that were handed over
are in flight until the broker appends them: this may be long after the worker has given
up, or never.  A reply with ids comes when the commands it answers have been appended.
Other actions of the outbox are taken from `OutboxSystem`.  The address of a publisher
(`endpoint`) does not change; two publishers may share one.

* `DeliverySystem.step` — one step of the system;
* `DeliveryInv` — the invariant: a success is in the stream, and so is everything
  published, and every entry stands after the entries of all earlier events;
* `outbox_delivery` — at least once and in order, for every run.
-/
import DbProxy.AppendLog
import DbProxy.OutboxFencing
import DbProxy.OutboxPublisher

namespace DbProxy

open PostgresOutboxQueue StepMachine AppendLog

/-! ### Workers and streams -/

/-- A command on its way to the broker. -/
structure Flight where
  publication : ℕ
  index : ℕ
  endpoint : String
  command : String × StreamEntry
deriving DecidableEq, Repr

inductive OutboxPhase
  /-- `process_outbox_batch` after its first claim -/
  | first (lease : OutboxLease)
  /-- waiting for the reply, with the number of the publication when it was handed over -/
  | publishing (publication : Option ℕ) (leases : List OutboxLease)
  /-- leases to settle -/
  | finishing (results : List (OutboxLease × Except PublishError PublishReceipt))

def OutboxPhase.leases : OutboxPhase → List OutboxLease
  | .first lease => [lease]
  | .publishing _ leases => leases
  | .finishing results => results.map (·.1)

/-- A call of `process_outbox_once` or `process_outbox_batch`. -/
structure OutboxWorker where
  workerId : String
  policy : RetryWorkerPolicy
  batch : Bool
  publisherId : String
  phase : OutboxPhase

structure DeliverySystem where
  outbox : OutboxSystem := {}
  workers : ℕ → Option OutboxWorker := fun _ => none
  flights : List Flight := []
  /-- the number of the next publication -/
  publication : ℕ := 0
  /-- the streams by endpoint and name -/
  streams : String × String → List StreamEntry := fun _ => []

inductive DeliveryEvent
  | outbox (action : OutboxAction)
  | claim (w : ℕ) (workerId : String) (policy : RetryWorkerPolicy) (publishers : List String)
      (batch : Bool) (locked : String → Bool) (clock : ClaimClock)
  | claimRest (w : ℕ) (locked : String → Bool) (clock : ClaimClock)
  | send (w : ℕ)
  | land (flight : Flight)
  | finish (w : ℕ) (reply : Option BrokerReply)
  | settle (w : ℕ) (checked clock : ℕ)
  /-- the statement that settles a lease fails -/
  | skip (w : ℕ)
  /-- the call returns, or its process ends -/
  | leave (w : ℕ)

def outboxPublishBatchSize : ℕ := 16

/-- The statements that only workers make. -/
def OutboxAction.ofWorker : OutboxAction → Bool
  | .claim .. => true
  | .acknowledge .. => true
  | .fail .. => true
  | _ => false

namespace DeliverySystem

def setWorker (w : ℕ) (worker : Option OutboxWorker) (s : DeliverySystem) : DeliverySystem :=
  { s with workers := Function.update s.workers w worker }

/-- A call after its first claim; it ends if the publisher is missing. -/
def startWorker (workerId : String) (policy : RetryWorkerPolicy) (publishers : List String)
    (batch : Bool) : Except StorageError (List OutboxLease × OutboxTable) → Option OutboxWorker
  | .error _ => none
  | .ok (leases, _) => leases.getLast?.bind fun lease =>
      if lease.publisherId ∈ publishers then
        some ⟨workerId, policy, batch, lease.publisherId,
          if batch then .first lease else .publishing none [lease]⟩
      else none

def claim (w : ℕ) (workerId : String) (policy : RetryWorkerPolicy) (publishers : List String)
    (batch : Bool) (locked : String → Bool) (clock : ClaimClock) (s : DeliverySystem) :
    Option DeliverySystem :=
  match s.workers w, policy.validate with
  | none, .ok policy =>
    let result := claimBatch workerId policy.leaseMs none 1 locked clock s.outbox.table
    some ({ s with outbox := s.outbox.claimAfter result }.setWorker w
      (startWorker workerId policy publishers batch result))
  | _, _ => none

/-- A batch after its second claim. -/
def joinRest (worker : OutboxWorker) (first : OutboxLease) :
    Except StorageError (List OutboxLease × OutboxTable) → Option OutboxWorker
  | .error _ => none
  | .ok (leases, _) => some { worker with phase := .publishing none (first :: leases) }

def claimRest (w : ℕ) (locked : String → Bool) (clock : ClaimClock) (s : DeliverySystem) :
    Option DeliverySystem :=
  match s.workers w with
  | some ⟨workerId, policy, batch, publisherId, .first first⟩ =>
    let result := claimBatch workerId policy.leaseMs (some first.publisherId)
      (outboxPublishBatchSize - 1) locked clock s.outbox.table
    some ({ s with outbox := s.outbox.claimAfter result }.setWorker w
      (joinRest ⟨workerId, policy, batch, publisherId, .first first⟩ first result))
  | _ => none

/-- The broker appends a command. -/
def land (flight : Flight) (s : DeliverySystem) : Option DeliverySystem :=
  if flight ∈ s.flights then
    let key := (flight.endpoint, flight.command.1)
    some { s with
      flights := s.flights.erase flight
      streams := Function.update s.streams key (s.streams key ++ [flight.command.2]) }
  else none

/-- The broker answers a command when it has appended it. -/
def answered (s : DeliverySystem) : Option ℕ → Option BrokerReply → Bool
  | some publication, some ⟨.ok ids, _⟩ => s.flights.all fun flight =>
      flight.publication ≠ publication || ids.length ≤ flight.index
  | none, some ⟨.ok _, _⟩ => false
  | _, _ => true

variable (decode : Bytes → Option EventEnvelope) (hash : String → ℤ)
  (endpoint : String → String) (entropy : String → ℕ)

def flightsOf (publication : ℕ) (publisherId : String) (leases : List OutboxLease) :
    List Flight :=
  (pipeline decode (leases.map OutboxLease.message)).zipIdx.map fun x =>
    ⟨publication, x.2, endpoint publisherId, x.1⟩

def send (w : ℕ) (s : DeliverySystem) : Option DeliverySystem :=
  match s.workers w with
  | some ⟨workerId, policy, batch, publisherId, .publishing none leases⟩ =>
    some ({ s with
      flights := s.flights ++ flightsOf decode endpoint s.publication publisherId leases
      publication := s.publication + 1 }.setWorker w
      (some ⟨workerId, policy, batch, publisherId, .publishing (some s.publication) leases⟩))
  | _ => none

def finish (w : ℕ) (reply : Option BrokerReply) (s : DeliverySystem) : Option DeliverySystem :=
  match s.workers w with
  | some ⟨workerId, policy, batch, publisherId, .publishing publication leases⟩ =>
    if s.answered publication reply then
      some (s.setWorker w (some ⟨workerId, policy, batch, publisherId,
        .finishing (leases.zip (publications decode batch leases reply))⟩))
    else none
  | _ => none

def settle (w : ℕ) (checked clock : ℕ) (s : DeliverySystem) : Option DeliverySystem :=
  match s.workers w with
  | some ⟨workerId, policy, batch, publisherId, .finishing ((lease, publication) :: rest)⟩ =>
    (s.outbox.step decode hash
      (finishOutboxPublication entropy policy lease checked clock publication)).map fun outbox =>
      { s with outbox := outbox }.setWorker w
        (some ⟨workerId, policy, batch, publisherId, .finishing rest⟩)
  | _ => none

def skip (w : ℕ) (s : DeliverySystem) : Option DeliverySystem :=
  match s.workers w with
  | some ⟨workerId, policy, batch, publisherId, .finishing (_ :: rest)⟩ =>
    some (s.setWorker w (some ⟨workerId, policy, batch, publisherId, .finishing rest⟩))
  | _ => none

def step (s : DeliverySystem) : DeliveryEvent → Option DeliverySystem
  | .outbox action =>
    if action.ofWorker then none
    else (s.outbox.step decode hash action).map fun outbox => { s with outbox := outbox }
  | .claim w workerId policy publishers batch locked clock =>
    s.claim w workerId policy publishers batch locked clock
  | .claimRest w locked clock => s.claimRest w locked clock
  | .send w => s.send decode endpoint w
  | .land flight => s.land flight
  | .finish w reply => s.finish decode w reply
  | .settle w checked clock => s.settle decode hash entropy w checked clock
  | .skip w => s.skip w
  | .leave w => some (s.setWorker w none)

end DeliverySystem

/-! ### The invariant -/

/-- The key of the stream that the row is published to. -/
def OutboxRow.stream (endpoint : String → String) (row : OutboxRow) : String × String :=
  (endpoint row.publisherId, row.destination)

def OutboxLease.stream (endpoint : String → String) (lease : OutboxLease) : String × String :=
  (endpoint lease.publisherId, lease.destination)

/-- An earlier event of the group of a committed event, by their ids. -/
def Before (s : OutboxSystem) (a b : String) : Prop :=
  ∃ row ∈ s.table.rows, row.eventId = b ∧ ∃ earlier ∈ s.allRows, earlier.eventId = a ∧
    earlier.group = row.group ∧ earlier.enqueueOrder < row.enqueueOrder

/-- In flight, or in its stream. -/
def Sent (s : DeliverySystem) (flight : Flight) : Prop :=
  flight ∈ s.flights ∨ flight.command.2 ∈ s.streams (flight.endpoint, flight.command.1)

variable (decode : Bytes → Option EventEnvelope) (hash : String → ℤ) (endpoint : String → String)

def PhaseOk (s : DeliverySystem) (worker : OutboxWorker) : Prop :=
  match worker.phase with
  | .first _ => worker.batch = true
  | .publishing publication leases => (worker.batch = false → leases.length = 1) ∧
      ∀ p, publication = some p →
        ∀ flight ∈ DeliverySystem.flightsOf decode endpoint p worker.publisherId leases,
          Sent s flight
  | .finishing results => ∀ lease receipt, (lease, .ok receipt) ∈ results →
      lease.message.entry ∈ s.streams (lease.stream endpoint)

structure WorkerOk (s : DeliverySystem) (worker : OutboxWorker) : Prop where
  held : ∀ lease ∈ worker.phase.leases,
    lease ∈ s.outbox.leases ∧ lease.publisherId = worker.publisherId
  phase : PhaseOk decode endpoint s worker

structure DeliveryInv (s : DeliverySystem) : Prop where
  outbox : OutboxInv hash s.outbox
  workers : ∀ w worker, s.workers w = some worker → WorkerOk decode endpoint s worker
  flights : ∀ flight ∈ s.flights, ∃ lease ∈ s.outbox.leases,
    flight.endpoint = endpoint lease.publisherId ∧ flight.command = lease.message.command
  published : ∀ row ∈ s.outbox.table.rows, row.publishedAt.isSome →
    row.entry ∈ s.streams (row.stream endpoint)
  /-- what is in a stream was published under a lease -/
  origin : ∀ key, ∀ entry ∈ s.streams key, ∃ lease ∈ s.outbox.leases,
    lease.stream endpoint = key ∧ lease.message.entry = entry
  ordered : ∀ key, Justified (Before s.outbox) ((s.streams key).map (·.eventId))

section Steps

variable {decode hash endpoint} {entropy : String → ℕ} {s t : DeliverySystem}
  {event : DeliveryEvent}

theorem LeaseFor.entry {lease : OutboxLease} {row : OutboxRow} (h : LeaseFor lease row) :
    lease.message.entry = row.entry := by
  show streamEntry lease.event lease.operationId lease.tradeId (isRelayTopic lease.event.topic) =
    row.entry
  rw [h.event, h.operationId, h.tradeId]
  rfl

theorem LeaseFor.stream {lease : OutboxLease} {row : OutboxRow} (h : LeaseFor lease row) :
    lease.stream endpoint = row.stream endpoint := by
  rw [OutboxLease.stream, OutboxRow.stream, h.publisherId, h.destination]

theorem SameEvent.entry {row row' : OutboxRow} (h : SameEvent row row') :
    row'.entry = row.entry := by
  rw [OutboxRow.entry, OutboxRow.entry, h.event, h.operationId, h.tradeId, h.topic]

theorem stream_eq_of_group {a b : OutboxRow} (h : a.group = b.group) :
    a.stream endpoint = b.stream endpoint := by
  have hpublisher : a.publisherId = b.publisherId := congrArg OutboxGroup.publisherId h
  have hdestination : a.destination = b.destination := congrArg OutboxGroup.destination h
  rw [OutboxRow.stream, OutboxRow.stream, hpublisher, hdestination]

theorem deliveryInv_init : DeliveryInv decode hash endpoint {} := by
  refine ⟨inv_init, ?_, ?_, ?_, ?_, fun key => justified_nil _⟩
  · intro w worker h
    cases h
  · intro flight h
    cases h
  · intro row h
    cases h
  · intro key entry h
    cases h

/-! ### Workers -/

/-- What a worker relies on stays. -/
structure Extends (s t : DeliverySystem) : Prop where
  leases : ∀ lease ∈ s.outbox.leases, lease ∈ t.outbox.leases
  streams : ∀ key, ∀ entry ∈ s.streams key, entry ∈ t.streams key
  flights : ∀ flight ∈ s.flights, Sent t flight

theorem Extends.workerOk (h : Extends s t) {worker : OutboxWorker}
    (hok : WorkerOk decode endpoint s worker) : WorkerOk decode endpoint t worker := by
  obtain ⟨hheld, hphase⟩ := hok
  refine ⟨fun lease hmem => ⟨h.leases lease (hheld lease hmem).1, (hheld lease hmem).2⟩, ?_⟩
  rw [PhaseOk] at hphase ⊢
  split
  · rename_i lease hfirst
    rw [hfirst] at hphase
    exact hphase
  · rename_i publication leases hpublishing
    rw [hpublishing] at hphase
    refine ⟨hphase.1, fun p hp flight hmem => ?_⟩
    rcases hphase.2 p hp flight hmem with hflight | hstream
    · exact h.flights flight hflight
    · exact Or.inr (h.streams _ _ hstream)
  · rename_i results hfinishing
    rw [hfinishing] at hphase
    exact fun lease receipt hmem => h.streams _ _ (hphase lease receipt hmem)

theorem DeliveryInv.setWorker (h : DeliveryInv decode hash endpoint s) {w : ℕ}
    {worker : Option OutboxWorker}
    (hworker : ∀ worker', worker = some worker' → WorkerOk decode endpoint s worker') :
    DeliveryInv decode hash endpoint (s.setWorker w worker) := by
  have hext : Extends s (s.setWorker w worker) :=
    ⟨fun _ h => h, fun _ _ h => h, fun _ h => Or.inl h⟩
  refine ⟨h.outbox, ?_, h.flights, h.published, h.origin, h.ordered⟩
  intro w' worker' hw
  have hw' : Function.update s.workers w worker w' = some worker' := hw
  refine hext.workerOk ?_
  by_cases heq : w' = w
  · rw [heq, Function.update_self] at hw'
    exact hworker worker' hw'
  · rw [Function.update_of_ne heq] at hw'
    exact h.workers w' worker' hw'

/-! ### Steps of the outbox -/

/-- A step adds nothing before an event that has been leased. -/
theorem before_of_step {action : OutboxAction} {o : OutboxSystem}
    (hinv : OutboxInv hash s.outbox) (hstep : s.outbox.step decode hash action = some o)
    {a b : String} (hb : ∃ row ∈ s.outbox.table.rows, row.eventId = b) (h : Before o a b) :
    Before s.outbox a b := by
  obtain ⟨row₀, hrow₀, hid₀⟩ := hb
  obtain ⟨row, hrow, hid, earlier, hearlier, hida, hgroup, hlt⟩ := h
  obtain ⟨row₁, hrow₁, hsame, -⟩ := step_kept hstep hrow₀
  obtain rfl : row₁ = row :=
    KeyedTable.eq_of_key hrow₁ hrow (hsame.eventId.trans (hid₀.trans hid.symm))
  have hle := hinv.order row₀ (mem_allRows.mpr (Or.inl hrow₀))
  rw [hsame.enqueueOrder] at hlt
  rcases (step_rows hstep).rows earlier hearlier with ⟨earlier₀, hmem, hsame'⟩ | hnew
  · refine ⟨row₀, hrow₀, hid₀, earlier₀, hmem, hsame'.eventId.symm.trans hida, ?_, ?_⟩
    · exact hsame'.group.symm.trans (hgroup.trans hsame.group)
    · rw [← hsame'.enqueueOrder]
      exact hlt
  · -- a new row has a new order number
    omega

theorem acknowledge_of_target {action : OutboxAction} {eventId : String}
    (h : action.target = .acknowledged eventId) : ∃ lease checked clock,
      action = .acknowledge lease checked clock ∧ lease.event.eventId = eventId := by
  cases action with
  | acknowledge lease checked clock =>
    exact ⟨lease, checked, clock, rfl, RowTarget.acknowledged.inj h⟩
  | _ => cases h

/-- What is in a stream belongs to a committed row. -/
theorem DeliveryInv.row_of_entry (h : DeliveryInv decode hash endpoint s) {key : String × String}
    {entry : StreamEntry} (hmem : entry ∈ s.streams key) :
    ∃ row ∈ s.outbox.table.rows, row.entry = entry ∧ row.stream endpoint = key := by
  obtain ⟨lease, hlease, hkey, hentry⟩ := h.origin key entry hmem
  obtain ⟨row, hrow, hfor, -⟩ := h.outbox.issued lease hlease
  exact ⟨row, hrow, hfor.entry.symm.trans hentry, hfor.stream.symm.trans hkey⟩

theorem DeliveryInv.outboxStep (h : DeliveryInv decode hash endpoint s) {action : OutboxAction}
    {o : OutboxSystem} (hstep : s.outbox.step decode hash action = some o)
    (hack : ∀ lease checked clock, action = .acknowledge lease checked clock →
      lease.message.entry ∈ s.streams (lease.stream endpoint)) :
    DeliveryInv decode hash endpoint { s with outbox := o } := by
  have hrows := step_rows hstep
  have hext : Extends s { s with outbox := o } :=
    ⟨hrows.leases, fun _ _ h => h, fun _ h => Or.inl h⟩
  refine ⟨step_inv h.outbox hstep, fun w worker hw => hext.workerOk (h.workers w worker hw),
    ?_, ?_, ?_, ?_⟩
  · intro flight hmem
    obtain ⟨lease, hlease, hflight⟩ := h.flights flight hmem
    exact ⟨lease, hrows.leases lease hlease, hflight⟩
  · intro row' hmem hp
    rcases hrows.published row' hmem hp with ⟨row, hrow, hp, hsame⟩ | htarget
    · show row'.entry ∈ s.streams (row'.stream endpoint)
      rw [hsame.entry, stream_eq_of_group hsame.group]
      rcases mem_allRows.mp hrow with hrow | ⟨entry, hentry, rfl⟩
      · exact h.published row hrow hp
      · exact absurd (Or.inr hp) (h.outbox.fresh entry hentry)
    · -- the row of an acknowledged lease
      obtain ⟨lease, checked, clock, rfl, hid⟩ := acknowledge_of_target htarget
      have hlease : lease ∈ s.outbox.leases := (Option.ite_none_right_eq_some.mp hstep).1
      obtain ⟨row, hrow, hfor, -⟩ := (step_inv h.outbox hstep).issued lease
        (hrows.leases lease hlease)
      obtain rfl : row = row' :=
        KeyedTable.eq_of_key hrow hmem (hfor.eventId.symm.trans hid)
      show row.entry ∈ s.streams (row.stream endpoint)
      rw [← hfor.entry, ← hfor.stream]
      exact hack lease checked clock rfl
  · intro key entry hmem
    obtain ⟨lease, hlease, hentry⟩ := h.origin key entry hmem
    exact ⟨lease, hrows.leases lease hlease, hentry⟩
  · intro key
    refine (h.ordered key).mono fun a b hmem hbefore => ?_
    obtain ⟨entry, hentry, rfl⟩ := List.mem_map.mp hmem
    obtain ⟨row, hrow, hid, -⟩ := h.row_of_entry hentry
    exact before_of_step h.outbox hstep ⟨row, hrow, congrArg StreamEntry.eventId hid⟩ hbefore

/-! ### Publications -/

/-- What comes before a leased event is published, so it is in the stream. -/
theorem DeliveryInv.before_mem (h : DeliveryInv decode hash endpoint s) {lease : OutboxLease}
    (hlease : lease ∈ s.outbox.leases) {a : String}
    (hbefore : Before s.outbox a lease.message.entry.eventId) :
    a ∈ (s.streams (lease.stream endpoint)).map (·.eventId) := by
  obtain ⟨row, hrow, hfor, hprior⟩ := h.outbox.issued lease hlease
  obtain ⟨row', hrow', hid, earlier, hearlier, rfl, hgroup, hlt⟩ := hbefore
  obtain rfl : row = row' :=
    KeyedTable.eq_of_key hrow hrow' (hfor.eventId.symm.trans hid.symm)
  rcases mem_allRows.mp hearlier with hmem | ⟨entry, hentry, rfl⟩
  · have hpublished := h.published earlier hmem (hprior earlier hmem hgroup hlt)
    rw [stream_eq_of_group hgroup, ← hfor.stream] at hpublished
    exact List.mem_map_of_mem hpublished
  · have hlater := h.outbox.later row hrow entry hentry hgroup.symm
    omega

theorem DeliveryInv.land (h : DeliveryInv decode hash endpoint s) {flight : Flight}
    (hstep : s.land flight = some t) : DeliveryInv decode hash endpoint t := by
  rw [DeliverySystem.land] at hstep
  obtain ⟨hflight, hstep⟩ := Option.ite_none_right_eq_some.mp hstep
  obtain rfl := Option.some.inj hstep
  obtain ⟨lease, hlease, hendpoint, hcommand⟩ := h.flights flight hflight
  have hkey : (flight.endpoint, flight.command.1) = lease.stream endpoint := by
    rw [hendpoint, hcommand]
    rfl
  have hentry : flight.command.2 = lease.message.entry := by
    rw [hcommand]
    rfl
  rw [hkey, hentry]
  -- only this stream changes
  have hother : ∀ key, key ≠ lease.stream endpoint →
      Function.update s.streams (lease.stream endpoint)
        (s.streams (lease.stream endpoint) ++ [lease.message.entry]) key = s.streams key :=
    fun key hne => Function.update_of_ne hne ..
  have hself : Function.update s.streams (lease.stream endpoint)
      (s.streams (lease.stream endpoint) ++ [lease.message.entry]) (lease.stream endpoint) =
        s.streams (lease.stream endpoint) ++ [lease.message.entry] := Function.update_self ..
  have hgrow : ∀ key, ∀ entry ∈ s.streams key,
      entry ∈ Function.update s.streams (lease.stream endpoint)
        (s.streams (lease.stream endpoint) ++ [lease.message.entry]) key := by
    intro key entry hmem
    by_cases heq : key = lease.stream endpoint
    · rw [heq, hself]
      exact List.mem_append_left _ (heq ▸ hmem)
    · rw [hother key heq]
      exact hmem
  have hext : Extends s { s with
      flights := s.flights.erase flight
      streams := Function.update s.streams (lease.stream endpoint)
        (s.streams (lease.stream endpoint) ++ [lease.message.entry]) } := by
    refine ⟨fun _ h => h, hgrow, fun f hmem => ?_⟩
    by_cases heq : f = flight
    · right
      show f.command.2 ∈ Function.update s.streams _ _ (f.endpoint, f.command.1)
      rw [heq, hkey, hself, hentry]
      exact List.mem_append_right _ (List.mem_singleton.mpr rfl)
    · exact Or.inl ((List.mem_erase_of_ne heq).mpr hmem)
  refine ⟨h.outbox, fun w worker hw => hext.workerOk (h.workers w worker hw),
    fun f hmem => h.flights f (List.mem_of_mem_erase hmem), ?_, ?_, ?_⟩
  · exact fun row hrow hp => hgrow _ _ (h.published row hrow hp)
  · intro key entry hmem
    by_cases heq : key = lease.stream endpoint
    · have hmem' : entry ∈ Function.update s.streams (lease.stream endpoint)
        (s.streams (lease.stream endpoint) ++ [lease.message.entry]) key := hmem
      rw [heq, hself] at hmem'
      rcases List.mem_append.mp hmem' with hold | hnew
      · exact h.origin key entry (heq ▸ hold)
      · exact ⟨lease, hlease, heq.symm, (List.mem_singleton.mp hnew).symm⟩
    · have hmem' : entry ∈ Function.update s.streams (lease.stream endpoint)
        (s.streams (lease.stream endpoint) ++ [lease.message.entry]) key := hmem
      rw [hother key heq] at hmem'
      exact h.origin key entry hmem'
  · intro key
    show Justified (Before s.outbox) (List.map _ (Function.update s.streams _ _ key))
    by_cases heq : key = lease.stream endpoint
    · rw [heq, hself, List.map_append]
      exact (h.ordered _).concat fun a ha => h.before_mem hlease ha
    · rw [hother key heq]
      exact h.ordered key

/-- A worker whose leases have just been granted. -/
theorem DeliveryInv.claimed (h : DeliveryInv decode hash endpoint s) {w : ℕ} {workerId : String}
    {leaseMs maximum : ℕ} {publisher : Option String} {locked : String → Bool}
    {clock : ClaimClock} {worker : Option OutboxWorker} {o : OutboxSystem}
    (ho : s.outbox.step decode hash (.claim workerId leaseMs publisher maximum locked clock) =
      some o)
    (hworker : ∀ worker', worker = some worker' →
      (∀ lease ∈ worker'.phase.leases, lease.publisherId = worker'.publisherId ∧
        (lease ∈ s.outbox.leases ∨ ∃ leases table, lease ∈ leases ∧
          claimBatch workerId leaseMs publisher maximum locked clock s.outbox.table =
            .ok (leases, table))) ∧
      ∀ t, PhaseOk decode endpoint t worker') :
    DeliveryInv decode hash endpoint ({ s with outbox := o }.setWorker w worker) := by
  have hclaimed := h.outboxStep ho fun _ _ _ hack => by cases hack
  refine hclaimed.setWorker fun worker' hw => ?_
  obtain ⟨hleases, hphase⟩ := hworker worker' hw
  refine ⟨fun lease hmem => ?_, hphase _⟩
  obtain ⟨hpublisher, hold | ⟨leases, table, hnew, hclaim⟩⟩ := hleases lease hmem
  · exact ⟨(step_rows ho).leases lease hold, hpublisher⟩
  · refine ⟨?_, hpublisher⟩
    obtain rfl := Option.some.inj ho
    show lease ∈ (s.outbox.claimAfter _).leases
    rw [hclaim]
    exact List.mem_append_left _ hnew

theorem DeliveryInv.claim (h : DeliveryInv decode hash endpoint s) {w : ℕ} {workerId : String}
    {policy : RetryWorkerPolicy} {publishers : List String} {batch : Bool}
    {locked : String → Bool} {clock : ClaimClock}
    (hstep : s.claim w workerId policy publishers batch locked clock = some t) :
    DeliveryInv decode hash endpoint t := by
  rw [DeliverySystem.claim] at hstep
  split at hstep
  · rename_i policy' _ _
    obtain rfl := Option.some.inj hstep
    refine h.claimed rfl fun worker' hw => ?_
    cases hclaim : claimBatch workerId policy'.leaseMs none 1 locked clock s.outbox.table with
    | error e =>
      rw [hclaim] at hw
      cases hw
    | ok v =>
      rw [hclaim] at hw
      obtain ⟨lease, hlast, hw⟩ := Option.bind_eq_some_iff.mp hw
      obtain ⟨-, hw⟩ := Option.ite_none_right_eq_some.mp hw
      obtain rfl := Option.some.inj hw
      have hlease : lease ∈ v.1 := List.mem_of_getLast? hlast
      cases batch with
      | false =>
        refine ⟨fun lease' hmem => ?_, fun t => ⟨fun _ => rfl, fun p hp => by cases hp⟩⟩
        rw [List.mem_singleton.mp hmem]
        exact ⟨rfl, Or.inr ⟨v.1, v.2, hlease, rfl⟩⟩
      | true =>
        refine ⟨fun lease' hmem => ?_, fun t => rfl⟩
        rw [List.mem_singleton.mp hmem]
        exact ⟨rfl, Or.inr ⟨v.1, v.2, hlease, rfl⟩⟩
  · cases hstep

theorem DeliveryInv.claimRest (h : DeliveryInv decode hash endpoint s) {w : ℕ}
    {locked : String → Bool} {clock : ClaimClock}
    (hstep : s.claimRest w locked clock = some t) : DeliveryInv decode hash endpoint t := by
  rw [DeliverySystem.claimRest] at hstep
  split at hstep
  · rename_i workerId policy batch publisherId first hw
    obtain rfl := Option.some.inj hstep
    obtain ⟨hheld, hphase⟩ := h.workers w _ hw
    obtain ⟨hfirst, hpublisher⟩ := hheld first (List.mem_singleton.mpr rfl)
    refine h.claimed rfl fun worker' hw' => ?_
    cases hclaim : claimBatch workerId policy.leaseMs (some first.publisherId)
      (outboxPublishBatchSize - 1) locked clock s.outbox.table with
    | error e =>
      rw [hclaim] at hw'
      cases hw'
    | ok v =>
      rw [hclaim] at hw'
      obtain rfl := Option.some.inj hw'
      refine ⟨fun lease hmem => ?_, fun t => ⟨fun hbatch => ?_, fun p hp => by cases hp⟩⟩
      · rcases List.mem_cons.mp hmem with rfl | hmem
        · exact ⟨hpublisher, Or.inl hfirst⟩
        · -- the second claim is for the publisher of the first lease
          obtain ⟨row, -, rfl, hsame, -, -⟩ := (claimBatch_ok hclaim).2 lease hmem
          have hsame' : row.publisherId = first.publisherId := by simpa using hsame
          exact ⟨hsame'.trans hpublisher, Or.inr ⟨v.1, v.2, hmem, rfl⟩⟩
      · have hbatch' : batch = true := hphase
        rw [hbatch'] at hbatch
        cases hbatch
  · cases hstep

theorem DeliveryInv.send (h : DeliveryInv decode hash endpoint s) {w : ℕ}
    (hstep : s.send decode endpoint w = some t) : DeliveryInv decode hash endpoint t := by
  rw [DeliverySystem.send] at hstep
  split at hstep
  · rename_i workerId policy batch publisherId leases hw
    obtain rfl := Option.some.inj hstep
    obtain ⟨hheld, hphase⟩ := h.workers w _ hw
    have hext : Extends s { s with
        flights := s.flights ++
          DeliverySystem.flightsOf decode endpoint s.publication publisherId leases
        publication := s.publication + 1 } :=
      ⟨fun _ h => h, fun _ _ h => h, fun _ hmem => Or.inl (List.mem_append_left _ hmem)⟩
    have hsent : DeliveryInv decode hash endpoint { s with
        flights := s.flights ++
          DeliverySystem.flightsOf decode endpoint s.publication publisherId leases
        publication := s.publication + 1 } := by
      refine ⟨h.outbox, fun w' worker hw' => hext.workerOk (h.workers w' worker hw'), ?_,
        h.published, h.origin, h.ordered⟩
      intro flight hmem
      rcases List.mem_append.mp hmem with hmem | hmem
      · exact h.flights flight hmem
      · obtain ⟨x, hx, rfl⟩ := List.mem_map.mp hmem
        have hcommand := List.mem_of_getElem? (List.mem_zipIdx_iff_getElem?.mp hx)
        obtain ⟨message, hmessage, heq⟩ := mem_pipeline hcommand
        obtain ⟨lease, hlease, rfl⟩ := List.mem_map.mp hmessage
        obtain ⟨hissued, hpublisher⟩ := hheld lease hlease
        exact ⟨lease, hissued, congrArg endpoint hpublisher.symm, heq.symm⟩
    refine hsent.setWorker fun worker' hw' => ?_
    obtain rfl := Option.some.inj hw'
    refine ⟨hheld, hphase.1, fun p hp flight hmem => ?_⟩
    obtain rfl := Option.some.inj hp
    exact Or.inl (List.mem_append_right _ hmem)
  · cases hstep

/-- What the broker has answered has been appended. -/
theorem sent_answered {publication : Option ℕ} {reply : BrokerReply} {ids : List String}
    (h : s.answered publication (some reply) = true) (hids : reply.ids = .ok ids) :
    ∃ p, publication = some p ∧ ∀ flight, Sent s flight → flight.publication = p →
      flight.index < ids.length →
      flight.command.2 ∈ s.streams (flight.endpoint, flight.command.1) := by
  obtain ⟨result, aof⟩ := reply
  obtain rfl : result = .ok ids := hids
  cases publication with
  | none => cases h
  | some p =>
    refine ⟨p, rfl, fun flight hsent hp hlt => ?_⟩
    rcases hsent with hflight | hstream
    · have hall := List.all_eq_true.mp h flight hflight
      simp only [hp, ne_eq, not_true_eq_false, decide_false, Bool.false_or,
        decide_eq_true_eq] at hall
      omega
    · exact hstream

theorem DeliveryInv.finish (h : DeliveryInv decode hash endpoint s) {w : ℕ}
    {reply : Option BrokerReply} (hstep : s.finish decode w reply = some t) :
    DeliveryInv decode hash endpoint t := by
  rw [DeliverySystem.finish] at hstep
  split at hstep
  · rename_i workerId policy batch publisherId publication leases hw
    obtain ⟨hanswered, hstep⟩ := Option.ite_none_right_eq_some.mp hstep
    obtain rfl := Option.some.inj hstep
    obtain ⟨hheld, hbatch, hsent⟩ := h.workers w _ hw
    refine h.setWorker fun worker' hw' => ?_
    obtain rfl := Option.some.inj hw'
    refine ⟨fun lease hmem => ?_, fun lease receipt hmem => ?_⟩
    · obtain ⟨x, hx, rfl⟩ := List.mem_map.mp hmem
      exact hheld x.1 (List.of_mem_zip hx).1
    · obtain ⟨reply', ids, rfl, hids, hcount, hcommand⟩ := publications_ok hbatch hmem
      obtain ⟨p, rfl, happended⟩ := sent_answered hanswered hids
      obtain ⟨i, hi⟩ := List.mem_iff_getElem?.mp hcommand
      have hlt : i < ids.length := by
        rw [hcount]
        exact (List.getElem?_eq_some_iff.mp hi).1
      have hflight : (⟨p, i, endpoint publisherId, lease.message.command⟩ : Flight) ∈
          DeliverySystem.flightsOf decode endpoint p publisherId leases :=
        List.mem_map.mpr ⟨(lease.message.command, i), List.mem_zipIdx_iff_getElem?.mpr hi, rfl⟩
      have hentry := happended _ (hsent p rfl _ hflight) rfl hlt
      have hpublisher := (hheld lease (List.of_mem_zip hmem).1).2
      rw [OutboxLease.stream, hpublisher]
      exact hentry
  · cases hstep

theorem DeliveryInv.settle (h : DeliveryInv decode hash endpoint s) {w checked clock : ℕ}
    (hstep : s.settle decode hash entropy w checked clock = some t) :
    DeliveryInv decode hash endpoint t := by
  rw [DeliverySystem.settle] at hstep
  split at hstep
  · rename_i workerId policy batch publisherId lease publication rest hw
    obtain ⟨o, ho, rfl⟩ := Option.map_eq_some_iff.mp hstep
    have hok := h.workers w _ hw
    have hnext : DeliveryInv decode hash endpoint { s with outbox := o } := by
      refine h.outboxStep ho fun lease' checked' clock' heq => ?_
      cases publication with
      | error e => cases heq
      | ok receipt =>
        obtain ⟨rfl, -, -⟩ := OutboxAction.acknowledge.inj heq
        exact hok.phase lease receipt (List.mem_cons_self ..)
    refine hnext.setWorker fun worker' hw' => ?_
    obtain rfl := Option.some.inj hw'
    refine ⟨fun lease' hmem => ?_, fun lease' receipt hmem => ?_⟩
    · obtain ⟨hissued, hpublisher⟩ := hok.held lease' (List.mem_cons_of_mem _ hmem)
      exact ⟨(step_rows ho).leases lease' hissued, hpublisher⟩
    · exact hok.phase lease' receipt (List.mem_cons_of_mem _ hmem)
  · cases hstep

theorem DeliveryInv.skip (h : DeliveryInv decode hash endpoint s) {w : ℕ}
    (hstep : s.skip w = some t) : DeliveryInv decode hash endpoint t := by
  rw [DeliverySystem.skip] at hstep
  split at hstep
  · rename_i workerId policy batch publisherId head rest hw
    obtain rfl := Option.some.inj hstep
    have hok := h.workers w _ hw
    refine h.setWorker fun worker' hw' => ?_
    obtain rfl := Option.some.inj hw'
    refine ⟨fun lease hmem => ?_, fun lease receipt hmem => ?_⟩
    · exact hok.held lease (List.mem_cons_of_mem _ hmem)
    · exact hok.phase lease receipt (List.mem_cons_of_mem _ hmem)
  · cases hstep

/-- **Step lemma.** -/
theorem delivery_step (h : DeliveryInv decode hash endpoint s)
    (hstep : s.step decode hash endpoint entropy event = some t) :
    DeliveryInv decode hash endpoint t := by
  cases event with
  | outbox action =>
    obtain ⟨hother, hstep⟩ := Option.ite_none_left_eq_some.mp hstep
    obtain ⟨o, ho, rfl⟩ := Option.map_eq_some_iff.mp hstep
    refine h.outboxStep ho fun lease checked clock heq => ?_
    subst heq
    exact absurd rfl hother
  | claim w workerId policy publishers batch locked clock => exact h.claim hstep
  | claimRest w locked clock => exact h.claimRest hstep
  | send w => exact h.send hstep
  | land flight => exact h.land hstep
  | finish w reply => exact h.finish hstep
  | settle w checked clock => exact h.settle hstep
  | skip w => exact h.skip hstep
  | leave w =>
    obtain rfl := Option.some.inj hstep
    exact h.setWorker fun worker' hw => by cases hw

end Steps

/-! ### Runs -/

/-- The event ids in the stream of a row, from its beginning. -/
def delivered (endpoint : String → String) (s : DeliverySystem) (row : OutboxRow) : List String :=
  (s.streams (row.stream endpoint)).map (·.eventId)

/-- **Delivery of the outbox.**  In every reachable state:

* a published event is in its stream, with all its fields;
* what is in a stream is an event that belongs there;
* when an event is in its stream, then so are all earlier events of its group, and they
  occur first. -/
theorem outbox_delivery (decode : Bytes → Option EventEnvelope) (hash : String → ℤ)
    (endpoint : String → String) (entropy : String → ℕ) (es : List DeliveryEvent)
    (s : DeliverySystem)
    (hrun : run (DeliverySystem.step decode hash endpoint entropy) {} es = some s) :
    (∀ row ∈ s.outbox.table.rows, row.publishedAt.isSome →
      row.entry ∈ s.streams (row.stream endpoint)) ∧
    (∀ key, ∀ entry ∈ s.streams key, ∃ row ∈ s.outbox.table.rows,
      row.entry = entry ∧ row.stream endpoint = key) ∧
    (∀ row ∈ s.outbox.table.rows, row.eventId ∈ delivered endpoint s row →
      ∀ earlier ∈ s.outbox.allRows, earlier.group = row.group →
        earlier.enqueueOrder < row.enqueueOrder →
        earlier.eventId ∈ delivered endpoint s row ∧
          (delivered endpoint s row).idxOf earlier.eventId <
            (delivered endpoint s row).idxOf row.eventId) := by
  have hinv : DeliveryInv decode hash endpoint s :=
    run_invariant (fun _ _ _ h hstep => delivery_step h hstep) deliveryInv_init hrun
  refine ⟨hinv.published, fun key entry hmem => hinv.row_of_entry hmem, ?_⟩
  intro row hrow hmem earlier hearlier hgroup hlt
  have hbefore : Before s.outbox earlier.eventId row.eventId :=
    ⟨row, hrow, rfl, earlier, hearlier, rfl, hgroup, hlt⟩
  have hidx : (delivered endpoint s row).idxOf earlier.eventId <
      (delivered endpoint s row).idxOf row.eventId :=
    (hinv.ordered (row.stream endpoint)).idxOf_lt hmem hbefore
  refine ⟨?_, hidx⟩
  -- an absent id would have the greatest index
  have hlen := List.idxOf_lt_length_of_mem hmem
  exact List.idxOf_lt_length_iff.mp (hidx.trans hlen)

def samplePolicy : RetryWorkerPolicy := ⟨30000, 1000, 60000, 20⟩

def sampleFlight (publication : ℕ) (eventId operationId : String) : Flight :=
  ⟨publication, 0, "redis", "dbproxy:outbox:orders",
    streamEntry (sampleEvent eventId) operationId "" false⟩

def sampleReply : BrokerReply := ⟨.ok ["1-0"], .ok ()⟩

/-- Two events of one stream.  The first worker gives up while its command is in flight, and
its lease expires; two others deliver both events; then the command lands. -/
def lateLandingTrace : List DeliveryEvent :=
  [.outbox (.beginCommit 1 "op-1" { outboxEvents := [sampleEvent "e-1"] }),
    .outbox (.takeLock 1), .outbox (.insertEvent 1 1000), .outbox (.commit 1),
    .outbox (.beginCommit 2 "op-2" { outboxEvents := [sampleEvent "e-2"] }),
    .outbox (.takeLock 2), .outbox (.insertEvent 2 2000), .outbox (.commit 2),
    .claim 1 "worker-1" samplePolicy ["legacy"] false (fun _ => false) (claimClock 3000),
    .send 1, .finish 1 none, .settle 1 40000000 40000000, .leave 1,
    .claim 2 "worker-2" samplePolicy ["legacy"] true (fun _ => false) (claimClock 50000000),
    .claimRest 2 (fun _ => false) (claimClock 50000001), .send 2,
    .land (sampleFlight 1 "e-1" "op-1"), .finish 2 (some sampleReply), .settle 2 50000002 50000002,
    .claim 3 "worker-3" samplePolicy ["legacy"] false (fun _ => false) (claimClock 50000003),
    .send 3, .land (sampleFlight 2 "e-2" "op-2"), .finish 3 (some sampleReply),
    .settle 3 50000004 50000004, .land (sampleFlight 0 "e-1" "op-1")]

theorem outbox_delivery_late :
    ∃ s, run (DeliverySystem.step (fun _ => none) (fun key => key.length) (fun _ => "redis")
        String.length) {} lateLandingTrace = some s ∧
      s.outbox.table.rows.map (fun row => (row.eventId, row.publishedAt)) =
        [("e-1", some 50000002), ("e-2", some 50000004)] ∧
      (s.streams ("redis", "dbproxy:outbox:orders")).map (·.eventId) = ["e-1", "e-2", "e-1"] ∧
      ∀ row ∈ s.outbox.table.rows, row.entry ∈ s.streams (row.stream fun _ => "redis") := by
  have hreach : ∃ s, run (DeliverySystem.step (fun _ => none) (fun key => key.length)
        (fun _ => "redis") String.length) {} lateLandingTrace = some s ∧
      s.outbox.table.rows.map (fun row => (row.eventId, row.publishedAt)) =
        [("e-1", some 50000002), ("e-2", some 50000004)] ∧
      (s.streams ("redis", "dbproxy:outbox:orders")).map (·.eventId) = ["e-1", "e-2", "e-1"] ∧
      ∀ row ∈ s.outbox.table.rows, row.publishedAt.isSome :=
    exists_of_any (by decide +kernel)
  obtain ⟨s, hs, hrows, hstream, hpublished⟩ := hreach
  obtain ⟨hentries, -, -⟩ := outbox_delivery _ _ _ _ _ s hs
  exact ⟨s, hs, hrows, hstream, fun row hrow => hentries row hrow (hpublished row hrow)⟩

end DbProxy
