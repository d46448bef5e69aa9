/-
Responses reach the calls that wait for them.

A waiter is in the map, in the hands of the reader, or was sent its one message; the
reader hands out every response it reads at most once, under the id that it carries.
Ids come from a 64-bit counter, so two calls may have the same one: a waiter is sure of
a message as long as no other call is registered under its id.

* `RoutingInv`, `step_routingInv` — calls, waiters, reader and messages;
* `Tracked`, `step_tracked` — where the sender to a waiter is, as long as its id is its
  own (`soleId`).
-/
import DbProxy.ClientSteps

namespace DbProxy

open StepMachine

namespace ClientConnection

variable {s t : ClientConnection} {e : ClientEvent} {i : ℕ}

/-! ### The map of waiters -/

section Waiters

variable {waiters : List (UInt64 × ℕ)} {rpcId id : UInt64} {call j : ℕ}

theorem mem_removeWaiter :
    (id, j) ∈ removeWaiter waiters rpcId ↔ (id, j) ∈ waiters ∧ id ≠ rpcId := by
  simp [removeWaiter]

theorem mem_of_findWaiter (h : findWaiter waiters rpcId = some call) : (rpcId, call) ∈ waiters := by
  obtain ⟨row, hrow, rfl⟩ := Option.map_eq_some_iff.mp h
  have hkey : row.1 = rpcId := by simpa using List.find?_some hrow
  rw [← hkey]
  exact List.mem_of_find?_eq_some hrow

/-- One waiter under an id. -/
def Functional (waiters : List (UInt64 × ℕ)) : Prop :=
  ∀ id i j, (id, i) ∈ waiters → (id, j) ∈ waiters → i = j

theorem Functional.remove (h : Functional waiters) (rpcId : UInt64) :
    Functional (removeWaiter waiters rpcId) :=
  fun id i j hi hj => h id i j (mem_removeWaiter.mp hi).1 (mem_removeWaiter.mp hj).1

theorem Functional.insert (h : Functional waiters) (rpcId : UInt64) (call : ℕ) :
    Functional ((rpcId, call) :: removeWaiter waiters rpcId) := by
  intro id i j hi hj
  rcases List.mem_cons.mp hi with hi | hi <;> rcases List.mem_cons.mp hj with hj | hj
  · rw [Prod.mk.injEq] at hi hj
    exact hi.2.trans hj.2.symm
  · rw [Prod.mk.injEq] at hi
    exact absurd hi.1 (mem_removeWaiter.mp hj).2
  · rw [Prod.mk.injEq] at hj
    exact absurd hj.1 (mem_removeWaiter.mp hi).2
  · exact h.remove rpcId id i j hi hj

end Waiters

/-! ### Calls and messages -/

/-- The call has registered the id and was not sent a message. -/
structure Owed (s : ClientConnection) (call : ℕ) (rpcId : UInt64) : Prop where
  late : (s.exchanges call).phase.isEarly = false
  rpcId : (s.exchanges call).rpcId = rpcId
  received : (s.exchanges call).received = none

/-- No call was sent the response. -/
def Unseen (s : ClientConnection) (arrival : ℕ) : Prop :=
  ∀ i r, (s.exchanges i).received ≠ some (.response arrival r)

/-- What the reader has in its hands. -/
def ReaderView (s : ClientConnection) : Prop :=
  match s.reader with
  | .reading | .losing _ => s.failure = none
  | .arrived arrival _ => s.failure = none ∧ arrival < s.arrivals ∧ s.Unseen arrival
  | .delivering arrival response call => s.failure = none ∧ arrival < s.arrivals ∧
      s.Unseen arrival ∧ s.Owed call response.rpcId ∧ ∀ id, (id, call) ∉ s.waiters
  | .failing failure rest => s.failure = some failure ∧ Functional rest ∧
      ∀ id call, (id, call) ∈ rest → s.Owed call id
  | .ended => s.failure.isSome = true

structure RoutingInv (s : ClientConnection) : Prop where
  absent : ∀ i, s.count ≤ i → (s.exchanges i).phase = .absent
  early : ∀ i, (s.exchanges i).phase.isEarly = true → (s.exchanges i).received = none
  response : ∀ i n r, (s.exchanges i).received = some (.response n r) →
    (s.exchanges i).rpcId = r.rpcId ∧ n < s.arrivals
  failed : ∀ i failure, (s.exchanges i).received = some (.failed failure) →
    s.failure = some failure
  once : ∀ i j n r r', (s.exchanges i).received = some (.response n r) →
    (s.exchanges j).received = some (.response n r') → i = j
  result : ∀ i r, (s.exchanges i).phase.result = some (.ok r) →
    ∃ n, (s.exchanges i).received = some (.response n r)
  functional : Functional s.waiters
  waiters : ∀ id i, (id, i) ∈ s.waiters →
    s.Owed i id ∧ (s.exchanges i).phase.isRegistered = true
  failure : s.failure.isSome = true → s.waiters = []
  reader : s.ReaderView

/-- Calls moved, and no message was sent. -/
structure Frame (s t : ClientConnection) : Prop where
  received : ∀ j, (t.exchanges j).received = (s.exchanges j).received
  late : ∀ j, (s.exchanges j).phase.isEarly = false →
    (t.exchanges j).phase.isEarly = false ∧ (t.exchanges j).rpcId = (s.exchanges j).rpcId
  arrivals : t.arrivals = s.arrivals
  failure : t.failure = s.failure
  reader : t.reader = s.reader

theorem Owed.of_frame {call : ℕ} {rpcId : UInt64} (h : s.Owed call rpcId) (hframe : Frame s t) :
    t.Owed call rpcId where
  late := (hframe.late call h.late).1
  rpcId := (hframe.late call h.late).2.trans h.rpcId
  received := (hframe.received call).trans h.received

theorem Unseen.of_frame {arrival : ℕ} (h : s.Unseen arrival) (hframe : Frame s t) :
    t.Unseen arrival := by
  intro i r
  rw [hframe.received]
  exact h i r

theorem RoutingInv.late_of_received (inv : s.RoutingInv) {message : Delivery}
    (h : (s.exchanges i).received = some message) : (s.exchanges i).phase.isEarly = false := by
  by_contra hearly
  rw [inv.early i (by simpa using hearly)] at h
  cases h

theorem ReaderView.of_frame (h : s.ReaderView) (hframe : Frame s t)
    (hnew : ∀ id call, (id, call) ∈ t.waiters → (id, call) ∈ s.waiters ∨
      (s.exchanges call).phase.isEarly = true) : t.ReaderView := by
  unfold ReaderView at h ⊢
  rw [hframe.reader]
  cases hreader : s.reader with
  | reading | losing => simpa only [hreader, hframe.failure] using h
  | arrived arrival response =>
    simp only [hreader] at h
    simp only [hframe.failure, hframe.arrivals]
    exact ⟨h.1, h.2.1, h.2.2.of_frame hframe⟩
  | delivering arrival response call =>
    simp only [hreader] at h
    obtain ⟨hfailure, hlt, hunseen, howed, hnot⟩ := h
    simp only [hframe.failure, hframe.arrivals]
    refine ⟨hfailure, hlt, hunseen.of_frame hframe, howed.of_frame hframe, fun id hmem => ?_⟩
    rcases hnew id call hmem with hmem | hearly
    · exact hnot id hmem
    · rw [howed.late] at hearly
      cases hearly
  | failing failure rest =>
    simp only [hreader] at h
    simp only [hframe.failure]
    exact ⟨h.1, h.2.1, fun id call hmem => (h.2.2 id call hmem).of_frame hframe⟩
  | ended => simpa only [hreader, hframe.failure] using h

/-- The parts of the invariant that a move of a call does not touch. -/
theorem RoutingInv.of_frame (inv : s.RoutingInv) (hframe : Frame s t)
    (habsent : ∀ i, t.count ≤ i → (t.exchanges i).phase = .absent)
    (hearly : ∀ i, (t.exchanges i).phase.isEarly = true → (s.exchanges i).phase.isEarly = true)
    (hresult : ∀ i r, (t.exchanges i).phase.result = some (.ok r) →
      (s.exchanges i).phase.result = some (.ok r) ∨
        ∃ n, (s.exchanges i).received = some (.response n r))
    (hfunctional : Functional t.waiters)
    (hwaiters : ∀ id i, (id, i) ∈ t.waiters →
      t.Owed i id ∧ (t.exchanges i).phase.isRegistered = true)
    (hfailure : s.failure.isSome = true → t.waiters = [])
    (hnew : ∀ id call, (id, call) ∈ t.waiters → (id, call) ∈ s.waiters ∨
      (s.exchanges call).phase.isEarly = true) : t.RoutingInv where
  absent := habsent
  early i h := (hframe.received i).trans (inv.early i (hearly i h))
  response i n r h := by
    rw [hframe.received] at h
    rw [(hframe.late i (inv.late_of_received h)).2, hframe.arrivals]
    exact inv.response i n r h
  failed i failure h := by
    rw [hframe.received] at h
    rw [hframe.failure]
    exact inv.failed i failure h
  once i j n r r' hi hj := by
    rw [hframe.received] at hi hj
    exact inv.once i j n r r' hi hj
  result i r h := by
    rw [hframe.received]
    rcases hresult i r h with h | h
    · exact inv.result i r h
    · exact h
  functional := hfunctional
  waiters := hwaiters
  failure h := by
    rw [hframe.failure] at h
    exact hfailure h
  reader := inv.reader.of_frame hframe hnew

theorem Moved.self {x : Exchange} (h : Moved s t i x) : t.exchanges i = x := by
  rw [h.exchanges, Function.update_self]

theorem Moved.other {x : Exchange} (h : Moved s t i x) {j : ℕ} (hj : j ≠ i) :
    t.exchanges j = s.exchanges j := by
  rw [h.exchanges, Function.update_of_ne hj]

theorem Moved.frame {x : Exchange} (h : Moved s t i x)
    (hreceived : x.received = (s.exchanges i).received)
    (hlate : (s.exchanges i).phase.isEarly = false →
      x.phase.isEarly = false ∧ x.rpcId = (s.exchanges i).rpcId) : Frame s t where
  received j := by
    by_cases hj : j = i
    · rw [hj, h.self, hreceived]
    · rw [h.other hj]
  late j hearly := by
    by_cases hj : j = i
    · subst hj
      rw [h.self]
      exact hlate hearly
    · rw [h.other hj]
      exact ⟨hearly, rfl⟩
  arrivals := h.arrivals
  failure := h.failure
  reader := h.reader

theorem Moved.absent {x : Exchange} (h : Moved s t i x) (inv : s.RoutingInv)
    (hpresent : (s.exchanges i).phase ≠ .absent) :
    ∀ j, t.count ≤ j → (t.exchanges j).phase = .absent := by
  intro j hj
  rw [h.count] at hj
  have hne : j ≠ i := by
    rintro rfl
    exact hpresent (inv.absent j hj)
  rw [h.other hne]
  exact inv.absent j hj

/-- What holds of the call that moved and of all others. -/
theorem Moved.all {x : Exchange} (h : Moved s t i x) {p : ℕ → Exchange → Prop} (hself : p i x)
    (hother : ∀ j, j ≠ i → p j (s.exchanges j)) : ∀ j, p j (t.exchanges j) := by
  intro j
  by_cases hj : j = i
  · subst hj
    rw [h.self]
    exact hself
  · rw [h.other hj]
    exact hother j hj

/-- A move of one call keeps the invariant when the waiters stay justified. -/
theorem RoutingInv.of_move (inv : s.RoutingInv) {x : Exchange} (hmoved : Moved s t i x)
    (hframe : Frame s t) (hpresent : (s.exchanges i).phase ≠ .absent)
    (hearly : x.phase.isEarly = true → (s.exchanges i).phase.isEarly = true)
    (hresult : ∀ r, x.phase.result = some (.ok r) → (s.exchanges i).phase.result = some (.ok r) ∨
      ∃ n, (s.exchanges i).received = some (.response n r))
    (hfunctional : Functional t.waiters)
    (hwaiters : ∀ id j, (id, j) ∈ t.waiters →
      t.Owed j id ∧ (t.exchanges j).phase.isRegistered = true)
    (hfailure : s.failure.isSome = true → t.waiters = [])
    (hnew : ∀ id call, (id, call) ∈ t.waiters → (id, call) ∈ s.waiters ∨
      (s.exchanges call).phase.isEarly = true) : t.RoutingInv := by
  refine inv.of_frame hframe (hmoved.absent inv hpresent) ?_ ?_ hfunctional hwaiters hfailure hnew
  · exact hmoved.all (p := fun j x => x.phase.isEarly = true → (s.exchanges j).phase.isEarly = true)
      hearly fun _ _ h => h
  · exact hmoved.all (p := fun j x => ∀ r, x.phase.result = some (.ok r) →
      (s.exchanges j).phase.result = some (.ok r) ∨
        ∃ n, (s.exchanges j).received = some (.response n r)) hresult fun _ _ _ h => Or.inl h

/-- A waiter of a call that a move leaves registered. -/
theorem RoutingInv.waiter_of_move (inv : s.RoutingInv) {x : Exchange} (hmoved : Moved s t i x)
    (hframe : Frame s t) {id : UInt64} {j : ℕ} (hmem : (id, j) ∈ s.waiters)
    (hregistered : j = i → (s.exchanges i).phase.isRegistered = true →
      x.phase.isRegistered = true) :
    t.Owed j id ∧ (t.exchanges j).phase.isRegistered = true := by
  obtain ⟨howed, hj⟩ := inv.waiters id j hmem
  refine ⟨howed.of_frame hframe, ?_⟩
  by_cases hji : j = i
  · rw [hji] at hj ⊢
    rw [hmoved.self]
    exact hregistered hji hj
  · rw [hmoved.other hji]
    exact hj

theorem RoutingInv.quiet (inv : s.RoutingInv) {x : Exchange} (hmoved : Moved s t i x)
    (hwaiters : t.waiters = s.waiters) (hmove : QuietMove (s.exchanges i) x) : t.RoutingInv := by
  have hlate : (s.exchanges i).phase.isEarly = false → x.phase.isEarly = false := by
    intro hlate
    by_contra hearly
    rw [hmove.early (by simpa using hearly)] at hlate
    cases hlate
  have hframe := hmoved.frame hmove.received fun h => ⟨hlate h, hmove.rpcId h⟩
  refine inv.of_move hmoved hframe hmove.present hmove.early hmove.result
    (hwaiters ▸ inv.functional) (fun id j hmem => ?_) (fun h => hwaiters.trans (inv.failure h))
    (fun id call hmem => Or.inl (hwaiters ▸ hmem))
  exact inv.waiter_of_move hmoved hframe (hwaiters ▸ hmem) fun _ h => hmove.registered.trans h

theorem RoutingInv.register (inv : s.RoutingInv)
    (hmoved : Moved s t i { s.exchanges i with phase := .registered })
    (hphase : (s.exchanges i).phase = .numbered) (hfailure : s.failure = none)
    (hwaiters : t.waiters =
      ((s.exchanges i).rpcId, i) :: removeWaiter s.waiters (s.exchanges i).rpcId) :
    t.RoutingInv := by
  have hearly : (s.exchanges i).phase.isEarly = true := by
    rw [hphase]
    rfl
  have hframe : Frame s t := hmoved.frame rfl fun h => by rw [hearly] at h; cases h
  refine inv.of_move hmoved hframe (by rw [hphase]; simp) (fun h => by cases h)
    (fun _ h => by cases h) (hwaiters ▸ inv.functional.insert _ _) (fun id j hmem => ?_)
    (fun h => by rw [hfailure] at h; cases h) (fun id call hmem => ?_)
  · rw [hwaiters] at hmem
    rcases List.mem_cons.mp hmem with hmem | hmem
    · obtain ⟨rfl, rfl⟩ := Prod.mk.inj hmem
      have hself := hmoved.self
      refine ⟨⟨?_, ?_, ?_⟩, ?_⟩ <;> rw [hself]
      · rfl
      · exact inv.early j hearly
      · rfl
    · exact inv.waiter_of_move hmoved hframe (mem_removeWaiter.mp hmem).1 fun _ _ => rfl
  · rw [hwaiters] at hmem
    rcases List.mem_cons.mp hmem with hmem | hmem
    · rw [(Prod.mk.inj hmem).2]
      exact Or.inr hearly
    · exact Or.inl (mem_removeWaiter.mp hmem).1

theorem RoutingInv.forget (inv : s.RoutingInv) {result : ExchangeResult}
    (hmoved : Moved s t i { s.exchanges i with phase := .returned result })
    (hphase : (s.exchanges i).phase = .leaving result)
    (hwaiters : t.waiters = removeWaiter s.waiters (s.exchanges i).rpcId) : t.RoutingInv := by
  have hframe : Frame s t := hmoved.frame rfl fun _ => ⟨rfl, rfl⟩
  refine inv.of_move hmoved hframe (by rw [hphase]; simp) (fun h => by cases h)
    (fun _ h => Or.inl (by rw [hphase]; exact h)) (hwaiters ▸ inv.functional.remove _)
    (fun id j hmem => ?_) (fun h => ?_) (fun id call hmem => ?_)
  · rw [hwaiters] at hmem
    obtain ⟨hold, hne⟩ := mem_removeWaiter.mp hmem
    refine inv.waiter_of_move hmoved hframe hold fun hj _ => ?_
    -- its own waiter is the one that is removed
    rw [← hj] at hne
    exact absurd (inv.waiters id j hold).1.rpcId.symm hne
  · rw [hwaiters, inv.failure h]
    rfl
  · rw [hwaiters] at hmem
    exact Or.inl (mem_removeWaiter.mp hmem).1

theorem RoutingInv.begin (inv : s.RoutingInv) {x : Exchange} (hphase : x.phase = .started)
    (hreceived : x.received = none)
    (hexchanges : t.exchanges = Function.update s.exchanges s.count x)
    (hcount : t.count = s.count + 1) (hwaiters : t.waiters = s.waiters)
    (hfailure : t.failure = s.failure) (harrivals : t.arrivals = s.arrivals)
    (hreader : t.reader = s.reader) : t.RoutingInv := by
  have habsent := inv.absent s.count le_rfl
  have hself : t.exchanges s.count = x := by rw [hexchanges, Function.update_self]
  have hother : ∀ {j}, j ≠ s.count → t.exchanges j = s.exchanges j := fun hj => by
    rw [hexchanges, Function.update_of_ne hj]
  have hframe : Frame s t := by
    refine ⟨fun j => ?_, fun j hlate => ?_, harrivals, hfailure, hreader⟩
    · by_cases hj : j = s.count
      · rw [hj, hself, hreceived, inv.early s.count (by rw [habsent]; rfl)]
      · rw [hother hj]
    · have hj : j ≠ s.count := by
        rintro rfl
        rw [habsent] at hlate
        cases hlate
      rw [hother hj]
      exact ⟨hlate, rfl⟩
  refine inv.of_frame hframe (fun j hj => ?_) (fun j hj => ?_) (fun j r hr => ?_)
    (hwaiters ▸ inv.functional) (fun id j hmem => ?_) (fun h => hwaiters.trans (inv.failure h))
    (fun id call hmem => Or.inl (hwaiters ▸ hmem))
  · rw [hcount] at hj
    rw [hother (by omega)]
    exact inv.absent j (by omega)
  · by_cases hj' : j = s.count
    · rw [hj', habsent]
      rfl
    · rwa [hother hj'] at hj
  · by_cases hj : j = s.count
    · rw [hj, hself, hphase] at hr
      cases hr
    · rw [hother hj] at hr
      exact Or.inl hr
  · rw [hwaiters] at hmem
    obtain ⟨howed, hregistered⟩ := inv.waiters id j hmem
    have hj : j ≠ s.count := by
      rintro rfl
      rw [habsent] at hregistered
      cases hregistered
    rw [hother hj]
    exact ⟨howed.of_frame hframe, hregistered⟩

/-! ### Messages -/

section Send

variable {call : ℕ} {message : Delivery}

theorem send_phase (j : ℕ) : ((s.send call message).exchanges j).phase = (s.exchanges j).phase := by
  rw [send]
  split
  · by_cases hj : j = call
    · rw [hj, setExchange_self]
    · rw [setExchange_other _ _ hj]
  · rfl

theorem send_rpcId (j : ℕ) : ((s.send call message).exchanges j).rpcId = (s.exchanges j).rpcId := by
  rw [send]
  split
  · by_cases hj : j = call
    · rw [hj, setExchange_self]
    · rw [setExchange_other _ _ hj]
  · rfl

theorem send_other {j : ℕ} (hj : j ≠ call) :
    (s.send call message).exchanges j = s.exchanges j := by
  rw [send]
  split
  · rw [setExchange_other _ _ hj]
  · rfl

theorem send_self (hregistered : (s.exchanges call).phase.isRegistered = true) :
    ((s.send call message).exchanges call).received = some message := by
  rw [send, if_pos hregistered, setExchange_self]

/-- A message in a channel was there before, or is the one just sent. -/
theorem send_received {j : ℕ} {d : Delivery}
    (h : ((s.send call message).exchanges j).received = some d) :
    (s.exchanges j).received = some d ∨ j = call ∧ d = message := by
  by_cases hj : j = call
  · rw [send] at h
    split at h
    · rw [hj, setExchange_self, Option.some_inj] at h
      exact Or.inr ⟨hj, h.symm⟩
    · exact Or.inl h
  · rw [send_other hj] at h
    exact Or.inl h

theorem send_waiters : (s.send call message).waiters = s.waiters := by
  rw [send]
  split <;> rfl

theorem send_failure : (s.send call message).failure = s.failure := by
  rw [send]
  split <;> rfl

theorem send_count : (s.send call message).count = s.count := by
  rw [send]
  split <;> rfl

theorem send_arrivals : (s.send call message).arrivals = s.arrivals := by
  rw [send]
  split <;> rfl

/-- A waiter other than the one that was sent the message. -/
theorem Owed.of_send {j : ℕ} {rpcId : UInt64} (h : s.Owed j rpcId) (hj : j ≠ call)
    (hexchanges : t.exchanges = (s.send call message).exchanges) : t.Owed j rpcId := by
  refine ⟨?_, ?_, ?_⟩ <;> rw [hexchanges, send_other hj]
  · exact h.late
  · exact h.rpcId
  · exact h.received

/-- The reader sends a message to a waiter that it has taken out. -/
theorem RoutingInv.send (inv : s.RoutingInv) {rpcId : UInt64} (howed : s.Owed call rpcId)
    (hnot : ∀ id, (id, call) ∉ s.waiters)
    (hresponse : ∀ n r, message = .response n r →
      rpcId = r.rpcId ∧ n < s.arrivals ∧ s.Unseen n)
    (hfailed : ∀ failure, message = .failed failure → s.failure = some failure)
    (hexchanges : t.exchanges = (s.send call message).exchanges) (hcount : t.count = s.count)
    (hwaiters : t.waiters = s.waiters) (hfailure : t.failure = s.failure)
    (harrivals : t.arrivals = s.arrivals) (hreader : t.ReaderView) : t.RoutingInv where
  absent i hi := by
    rw [hexchanges, send_phase]
    exact inv.absent i (hcount ▸ hi)
  early i hearly := by
    rw [hexchanges, send_phase] at hearly
    have hi : i ≠ call := by
      rintro rfl
      rw [howed.late] at hearly
      cases hearly
    rw [hexchanges, send_other hi]
    exact inv.early i hearly
  response i n r h := by
    rw [hexchanges] at h
    rw [hexchanges, send_rpcId, harrivals]
    rcases send_received h with h | ⟨rfl, hd⟩
    · exact inv.response i n r h
    · obtain ⟨hid, hlt, -⟩ := hresponse n r hd.symm
      exact ⟨howed.rpcId.trans hid, hlt⟩
  failed i failure h := by
    rw [hexchanges] at h
    rw [hfailure]
    rcases send_received h with h | ⟨-, h⟩
    · exact inv.failed i failure h
    · exact hfailed failure h.symm
  once i j n r r' hi hj := by
    rw [hexchanges] at hi hj
    rcases send_received hi with hold | ⟨rfl, hd⟩ <;>
      rcases send_received hj with hold' | ⟨rfl, hd'⟩
    · exact inv.once i j n r r' hold hold'
    · exact absurd hold ((hresponse n r' hd'.symm).2.2 i r)
    · exact absurd hold' ((hresponse n r hd.symm).2.2 j r')
    · rfl
  result i r h := by
    rw [hexchanges, send_phase] at h
    obtain ⟨n, hn⟩ := inv.result i r h
    have hi : i ≠ call := by
      rintro rfl
      rw [howed.received] at hn
      cases hn
    rw [hexchanges, send_other hi]
    exact ⟨n, hn⟩
  functional := hwaiters ▸ inv.functional
  waiters id i hmem := by
    rw [hwaiters] at hmem
    have hi : i ≠ call := by
      rintro rfl
      exact hnot id hmem
    obtain ⟨howed', hregistered⟩ := inv.waiters id i hmem
    refine ⟨howed'.of_send hi hexchanges, ?_⟩
    rw [hexchanges, send_phase]
    exact hregistered
  failure h := hwaiters.trans (inv.failure (hfailure ▸ h))
  reader := hreader

end Send

/-- A step of the reader that sends nothing. -/
theorem RoutingInv.of_reader (inv : s.RoutingInv) (hexchanges : t.exchanges = s.exchanges)
    (hcount : t.count = s.count) (harrivals : s.arrivals ≤ t.arrivals)
    (hfailed : ∀ failure, s.failure = some failure → t.failure = some failure)
    (hfunctional : Functional t.waiters)
    (hwaiters : ∀ id i, (id, i) ∈ t.waiters → (id, i) ∈ s.waiters)
    (hfailure : t.failure.isSome = true → t.waiters = []) (hreader : t.ReaderView) :
    t.RoutingInv where
  absent i hi := by
    rw [hexchanges]
    exact inv.absent i (hcount ▸ hi)
  early i h := by
    rw [hexchanges] at h ⊢
    exact inv.early i h
  response i n r h := by
    rw [hexchanges] at h ⊢
    obtain ⟨hid, hlt⟩ := inv.response i n r h
    exact ⟨hid, lt_of_lt_of_le hlt harrivals⟩
  failed i failure h := by
    rw [hexchanges] at h
    exact hfailed failure (inv.failed i failure h)
  once i j n r r' hi hj := by
    rw [hexchanges] at hi hj
    exact inv.once i j n r r' hi hj
  result i r h := by
    rw [hexchanges] at h ⊢
    exact inv.result i r h
  functional := hfunctional
  waiters id i hmem := by
    obtain ⟨howed, hregistered⟩ := inv.waiters id i (hwaiters id i hmem)
    rw [hexchanges]
    refine ⟨⟨?_, ?_, ?_⟩, hregistered⟩ <;> rw [hexchanges]
    · exact howed.late
    · exact howed.rpcId
    · exact howed.received
  failure := hfailure
  reader := hreader

theorem RoutingInv.arrive (inv : s.RoutingInv) {response : ResponseEnvelope} {now : ℕ}
    (h : s.arrive response now = some t) : t.RoutingInv := by
  rw [ClientConnection.arrive] at h
  split at h
  · next hreader =>
    cases h
    have hview := inv.reader
    rw [ReaderView, hreader] at hview
    refine inv.of_reader rfl rfl (Nat.le_succ _) (fun _ h => h) inv.functional (fun _ _ h => h)
      inv.failure ⟨hview, Nat.lt_succ_self _, fun i r hi => ?_⟩
    exact absurd (inv.response i _ r hi).2 (lt_irrefl _)
  · cases h

theorem RoutingInv.route (inv : s.RoutingInv) (h : s.route = some t) : t.RoutingInv := by
  rw [ClientConnection.route] at h
  split at h
  · next arrival response hreader =>
    have hview := inv.reader
    rw [ReaderView, hreader] at hview
    obtain ⟨hfailure, hlt, hunseen⟩ := hview
    split at h <;> cases h
    · exact inv.of_reader rfl rfl le_rfl (fun _ h => h) inv.functional (fun _ _ h => h) inv.failure
        hfailure
    · next call hfind =>
      have howed := (inv.waiters _ _ (mem_of_findWaiter hfind)).1
      refine inv.of_reader rfl rfl le_rfl (fun _ h => h) (inv.functional.remove _)
        (fun id i hmem => (mem_removeWaiter.mp hmem).1)
        (fun h => by rw [hfailure] at h; cases h)
        ⟨hfailure, hlt, hunseen, ⟨howed.late, howed.rpcId, howed.received⟩, fun id hmem => ?_⟩
      -- the waiter has one id only
      obtain ⟨hmem, hne⟩ := mem_removeWaiter.mp hmem
      exact hne ((inv.waiters id call hmem).1.rpcId.symm.trans howed.rpcId)
  · cases h

theorem RoutingInv.deliver (inv : s.RoutingInv) (h : s.deliver = some t) : t.RoutingInv := by
  rw [ClientConnection.deliver] at h
  split at h
  · next arrival response call hreader =>
    cases h
    have hview := inv.reader
    rw [ReaderView, hreader] at hview
    obtain ⟨hfailure, hlt, hunseen, howed, hnot⟩ := hview
    refine inv.send howed hnot (fun n r hmessage => ?_) (fun failure hmessage => by cases hmessage)
      rfl send_count send_waiters send_failure send_arrivals (send_failure.trans hfailure)
    cases hmessage
    exact ⟨rfl, hlt, hunseen⟩
  · cases h

theorem RoutingInv.lose (inv : s.RoutingInv) {failure : ConnectionFailure}
    (h : s.lose failure = some t) : t.RoutingInv := by
  rw [ClientConnection.lose] at h
  split at h
  · next hreader =>
    cases h
    have hview := inv.reader
    rw [ReaderView, hreader] at hview
    exact inv.of_reader rfl rfl le_rfl (fun _ h => h) inv.functional (fun _ _ h => h) inv.failure
      hview
  · cases h

theorem RoutingInv.takeWaiters (inv : s.RoutingInv) (h : s.takeWaiters = some t) :
    t.RoutingInv := by
  rw [ClientConnection.takeWaiters] at h
  split at h
  · next failure hreader =>
    cases h
    have hview := inv.reader
    rw [ReaderView, hreader] at hview
    refine inv.of_reader rfl rfl le_rfl (fun failure' h => ?_) (fun _ _ _ h => by cases h)
      (fun _ _ h => by cases h) (fun _ => rfl)
      ⟨by rw [hview]; rfl, inv.functional, fun id call hmem => ?_⟩
    · rw [hview] at h
      cases h
    · have howed := (inv.waiters id call hmem).1
      exact ⟨howed.late, howed.rpcId, howed.received⟩
  · cases h

theorem RoutingInv.failWaiter (inv : s.RoutingInv) {rpcId : UInt64}
    (h : s.failWaiter rpcId = some t) : t.RoutingInv := by
  rw [ClientConnection.failWaiter] at h
  split at h
  · next failure rest hreader =>
    obtain ⟨call, hfind, rfl⟩ := Option.map_eq_some_iff.mp h
    have hview := inv.reader
    rw [ReaderView, hreader] at hview
    obtain ⟨hfailure, hfunctional, hrest⟩ := hview
    have howed := hrest _ _ (mem_of_findWaiter hfind)
    have hempty : s.waiters = [] := inv.failure (by rw [hfailure]; rfl)
    refine inv.send howed (fun id hmem => by rw [hempty] at hmem; cases hmem)
      (fun n r hmessage => by cases hmessage) (fun failure' hmessage => ?_) rfl send_count
      send_waiters send_failure send_arrivals
      ⟨send_failure.trans hfailure, hfunctional.remove _, fun id j hmem => ?_⟩
    · cases hmessage
      exact hfailure
    · obtain ⟨hmem, hne⟩ := mem_removeWaiter.mp hmem
      have hj : j ≠ call := by
        rintro rfl
        exact hne ((hrest id j hmem).rpcId.symm.trans howed.rpcId)
      exact (hrest id j hmem).of_send hj rfl
  · cases h

theorem RoutingInv.endReader (inv : s.RoutingInv) (h : s.endReader = some t) : t.RoutingInv := by
  rw [ClientConnection.endReader] at h
  split at h
  · next failure hreader =>
    cases h
    have hview := inv.reader
    rw [ReaderView, hreader] at hview
    exact inv.of_reader rfl rfl le_rfl (fun _ h => h) inv.functional (fun _ _ h => h) inv.failure
      (by rw [ReaderView]; exact Option.isSome_of_eq_some hview.1)
  · cases h

theorem step_routingInv (inv : s.RoutingInv) (h : s.step e = some t) :
    t.RoutingInv := by
  cases step_routing h with
  | begin x hphase hreceived hexchanges hcount hwaiters hfailure harrivals hreader =>
    exact inv.begin hphase hreceived hexchanges hcount hwaiters hfailure harrivals hreader
  | quiet i x hmoved hwaiters hmove => exact inv.quiet hmoved hwaiters hmove
  | register i hevent hmoved hphase hfailure hwaiters =>
    exact inv.register hmoved hphase hfailure hwaiters
  | forget i result hmoved hphase hwaiters => exact inv.forget hmoved hphase hwaiters
  | reader e h =>
    cases e with
    | arrive response now => exact inv.arrive h
    | route => exact inv.route h
    | deliver => exact inv.deliver h
    | lose failure => exact inv.lose h
    | takeWaiters => exact inv.takeWaiters h
    | failWaiter rpcId => exact inv.failWaiter h
    | endReader => exact inv.endReader h

theorem opened_routingInv (maxInFlight : ℕ) : (opened maxInFlight).RoutingInv where
  absent _ _ := rfl
  early _ _ := rfl
  response _ _ _ h := by cases h
  failed _ _ h := by cases h
  once _ _ _ _ _ h := by cases h
  result _ _ h := by cases h
  functional _ _ _ h := by cases h
  waiters _ _ h := by cases h
  failure h := by cases h
  reader := rfl

/-! ### A waiter with an id of its own -/

/-- No call registers the id of a registered one, of which `i` is either. -/
def soleId (i : ℕ) (s : ClientConnection) : ClientEvent → Bool
  | .call j .register => (List.range s.count).all fun k =>
      !((s.exchanges k).phase.isRegistered && (s.exchanges k).rpcId = (s.exchanges j).rpcId) ||
        (j ≠ i && k ≠ i)
  | _ => true

/-- The sender of the channel to the call, where it is not used up or dropped. -/
inductive Held (s : ClientConnection) (i : ℕ) : Prop
  | waiting (h : ((s.exchanges i).rpcId, i) ∈ s.waiters)
  | delivering (n : ℕ) (r : ResponseEnvelope) (h : s.reader = .delivering n r i)
  | failing (failure : ConnectionFailure) (rest : List (UInt64 × ℕ))
      (h : s.reader = .failing failure rest) (hmem : ((s.exchanges i).rpcId, i) ∈ rest)

structure Tracked (i : ℕ) (s : ClientConnection) : Prop where
  sole : (s.exchanges i).phase.isRegistered = true → ∀ j, j ≠ i →
    (s.exchanges j).phase.isRegistered = true → (s.exchanges j).rpcId ≠ (s.exchanges i).rpcId
  held : (s.exchanges i).phase.isRegistered = true → (s.exchanges i).received = none → s.Held i

theorem soleId_register {i j : ℕ} (inv : s.RoutingInv)
    (h : s.soleId i (.call j .register) = true) {k : ℕ}
    (hregistered : (s.exchanges k).phase.isRegistered = true)
    (hid : (s.exchanges k).rpcId = (s.exchanges j).rpcId) : j ≠ i ∧ k ≠ i := by
  have hlt : k < s.count := by
    by_contra hle
    rw [inv.absent k (Nat.not_lt.mp hle)] at hregistered
    cases hregistered
  have hk := List.all_eq_true.mp h k (List.mem_range.mpr hlt)
  simpa [hregistered, hid] using hk

/-- A step in which registered calls stay as they are, or are forgotten. -/
theorem Tracked.of_calls {k : ℕ} (htracked : s.Tracked k)
    (hregistered : ∀ j, (t.exchanges j).phase.isRegistered = true →
      (s.exchanges j).phase.isRegistered = true ∧ (t.exchanges j).rpcId = (s.exchanges j).rpcId)
    (hreceived : (t.exchanges k).phase.isRegistered = true → (t.exchanges k).received = none →
      (s.exchanges k).received = none)
    (hheld : (t.exchanges k).phase.isRegistered = true → (t.exchanges k).received = none →
      (t.exchanges k).rpcId = (s.exchanges k).rpcId → s.Held k → t.Held k) : t.Tracked k := by
  refine ⟨fun hk j hj hjr => ?_, fun hk hnone => ?_⟩
  · rw [(hregistered j hjr).2, (hregistered k hk).2]
    exact htracked.sole (hregistered k hk).1 j hj (hregistered j hjr).1
  · exact hheld hk hnone (hregistered k hk).2
      (htracked.held (hregistered k hk).1 (hreceived hk hnone))

/-- The sender stays where it is. -/
theorem Held.of_same {k : ℕ} (h : s.Held k) (hid : (t.exchanges k).rpcId = (s.exchanges k).rpcId)
    (hwaiters : ((s.exchanges k).rpcId, k) ∈ s.waiters → ((s.exchanges k).rpcId, k) ∈ t.waiters)
    (hreader : t.reader = s.reader) : t.Held k := by
  cases h with
  | waiting h => exact .waiting (by rw [hid]; exact hwaiters h)
  | delivering n r h => exact .delivering n r (hreader.trans h)
  | failing failure rest h hmem => exact .failing failure rest (hreader.trans h) (hid ▸ hmem)

theorem Tracked.quiet {k : ℕ} (htracked : s.Tracked k) {x : Exchange} (hmoved : Moved s t i x)
    (hwaiters : t.waiters = s.waiters) (hmove : QuietMove (s.exchanges i) x) : t.Tracked k := by
  have hlate : (s.exchanges i).phase.isRegistered = true →
      (s.exchanges i).phase.isEarly = false := by
    cases (s.exchanges i).phase <;> simp [ExchangePhase.isRegistered, ExchangePhase.isEarly]
  refine htracked.of_calls ?_ (fun _ h => ?_)
    fun _ _ hid hheld => hheld.of_same hid (fun h => hwaiters ▸ h) hmoved.reader
  · refine hmoved.all (p := fun j x => x.phase.isRegistered = true →
      (s.exchanges j).phase.isRegistered = true ∧ x.rpcId = (s.exchanges j).rpcId)
      (fun h => ?_) fun _ _ h => ⟨h, rfl⟩
    rw [hmove.registered] at h
    exact ⟨h, hmove.rpcId (hlate h)⟩
  · exact hmoved.all (p := fun j x => x.received = none → (s.exchanges j).received = none)
      (fun h => hmove.received ▸ h) (fun _ _ h => h) k h

theorem Tracked.register {k : ℕ} (htracked : s.Tracked k) (inv : s.RoutingInv)
    (hsole : s.soleId k (.call i .register) = true)
    (hmoved : Moved s t i { s.exchanges i with phase := .registered })
    (hwaiters : t.waiters =
      ((s.exchanges i).rpcId, i) :: removeWaiter s.waiters (s.exchanges i).rpcId) :
    t.Tracked k := by
  by_cases hki : k = i
  · subst hki
    refine ⟨fun _ j hj hjr => ?_, fun _ _ => .waiting ?_⟩
    · rw [hmoved.other hj] at hjr ⊢
      rw [hmoved.self]
      exact fun hid => (soleId_register inv hsole hjr hid).1 rfl
    · rw [hmoved.self, hwaiters]
      exact List.mem_cons_self ..
  · have hk := hmoved.other hki
    refine ⟨fun hkr j hj hjr => ?_, fun hkr hnone => ?_⟩
    · rw [hk] at hkr ⊢
      by_cases hji : j = i
      · rw [hji, hmoved.self]
        exact fun hid => (soleId_register inv hsole hkr hid.symm).2 rfl
      · rw [hmoved.other hji] at hjr ⊢
        exact htracked.sole hkr j hj hjr
    · rw [hk] at hkr hnone
      refine (htracked.held hkr hnone).of_same (by rw [hk]) (fun hmem => ?_) hmoved.reader
      rw [hwaiters]
      refine List.mem_cons_of_mem _ (mem_removeWaiter.mpr ⟨hmem, fun hid => ?_⟩)
      exact (soleId_register inv hsole hkr hid).2 rfl

theorem Tracked.forget {k : ℕ} (htracked : s.Tracked k) {result : ExchangeResult}
    (hmoved : Moved s t i { s.exchanges i with phase := .returned result })
    (hphase : (s.exchanges i).phase = .leaving result)
    (hwaiters : t.waiters = removeWaiter s.waiters (s.exchanges i).rpcId) : t.Tracked k := by
  refine htracked.of_calls ?_ (fun _ h => ?_) fun hkr _ hid hheld => ?_
  · exact hmoved.all (p := fun j x => x.phase.isRegistered = true →
      (s.exchanges j).phase.isRegistered = true ∧ x.rpcId = (s.exchanges j).rpcId)
      (fun h => by cases h) fun _ _ h => ⟨h, rfl⟩
  · exact hmoved.all (p := fun j x => x.received = none → (s.exchanges j).received = none)
      (fun h => h) (fun _ _ h => h) k h
  · have hki : k ≠ i := by
      rintro rfl
      rw [hmoved.self] at hkr
      cases hkr
    refine hheld.of_same hid (fun hmem => ?_) hmoved.reader
    rw [hwaiters]
    refine mem_removeWaiter.mpr ⟨hmem, fun hsame => ?_⟩
    rw [hmoved.other hki] at hkr
    exact htracked.sole hkr i hki.symm (by rw [hphase]; rfl) hsame.symm

theorem Tracked.begin {k : ℕ} (htracked : s.Tracked k) {x : Exchange}
    (hphase : x.phase = .started)
    (hexchanges : t.exchanges = Function.update s.exchanges s.count x)
    (hwaiters : t.waiters = s.waiters) (hreader : t.reader = s.reader) : t.Tracked k := by
  have hcalls : ∀ j, (t.exchanges j).phase.isRegistered = true → t.exchanges j = s.exchanges j := by
    intro j hjr
    rw [hexchanges] at hjr ⊢
    by_cases hj : j = s.count
    · rw [hj, Function.update_self, hphase] at hjr
      cases hjr
    · rw [Function.update_of_ne hj]
  refine htracked.of_calls (fun j hjr => ?_) (fun hkr h => ?_)
    fun _ _ hid hheld => hheld.of_same hid (fun h => hwaiters ▸ h) hreader
  · have hj := hcalls j hjr
    rw [hj] at hjr ⊢
    exact ⟨hjr, rfl⟩
  · rwa [hcalls k hkr] at h

theorem Tracked.route {k : ℕ} (htracked : s.Tracked k) (inv : s.RoutingInv)
    (h : s.route = some t) : t.Tracked k := by
  rw [ClientConnection.route] at h
  split at h
  · next arrival response hreader =>
    have hheld : s.Held k → ((s.exchanges k).rpcId, k) ∈ s.waiters := by
      rintro (h | ⟨n, r, h⟩ | ⟨failure, rest, h, -⟩)
      · exact h
      · rw [hreader] at h
        cases h
      · rw [hreader] at h
        cases h
    split at h <;> cases h
    · exact ⟨htracked.sole, fun hk hnone => .waiting (hheld (htracked.held hk hnone))⟩
    · next call hfind =>
      refine ⟨htracked.sole, fun hk hnone => ?_⟩
      have hmem := hheld (htracked.held hk hnone)
      by_cases hid : (s.exchanges k).rpcId = response.rpcId
      · -- the response is for this call
        have hcall : call = k := inv.functional _ _ _ (mem_of_findWaiter hfind) (hid ▸ hmem)
        exact .delivering arrival response (by rw [hcall])
      · exact .waiting (mem_removeWaiter.mpr ⟨hmem, hid⟩)
  · cases h

/-- What a step does that sends a message to `call`. -/
theorem Tracked.of_send {k call : ℕ} {message : Delivery} (htracked : s.Tracked k)
    (hexchanges : t.exchanges = (s.send call message).exchanges)
    (hheld : k ≠ call → s.Held k → t.Held k) : t.Tracked k := by
  refine htracked.of_calls (fun j hjr => ?_) (fun hkr hnone => ?_) fun hkr hnone _ h => ?_
  · rw [hexchanges, send_phase] at hjr
    rw [hexchanges, send_rpcId]
    exact ⟨hjr, rfl⟩
  all_goals
    have hk : k ≠ call := by
      rintro rfl
      rw [hexchanges, send_phase] at hkr
      rw [hexchanges, send_self hkr] at hnone
      cases hnone
  · rwa [hexchanges, send_other hk] at hnone
  · exact hheld hk h

theorem Tracked.deliver {k : ℕ} (htracked : s.Tracked k) (h : s.deliver = some t) :
    t.Tracked k := by
  rw [ClientConnection.deliver] at h
  split at h
  · next arrival response call hreader =>
    cases h
    refine htracked.of_send rfl fun hk hheld => ?_
    cases hheld with
    | waiting hmem => exact .waiting (by rw [send_waiters, send_rpcId]; exact hmem)
    | delivering n r h =>
      rw [hreader] at h
      cases h
      exact absurd rfl hk
    | failing failure rest h hmem =>
      rw [hreader] at h
      cases h
  · cases h

theorem Tracked.failWaiter {k : ℕ} (htracked : s.Tracked k) (inv : s.RoutingInv) {rpcId : UInt64}
    (h : s.failWaiter rpcId = some t) : t.Tracked k := by
  rw [ClientConnection.failWaiter] at h
  split at h
  · next failure rest hreader =>
    obtain ⟨call, hfind, rfl⟩ := Option.map_eq_some_iff.mp h
    have hview := inv.reader
    rw [ReaderView, hreader] at hview
    refine htracked.of_send rfl fun hk hheld => ?_
    cases hheld with
    | waiting hmem => exact .waiting (by rw [send_waiters, send_rpcId]; exact hmem)
    | delivering n r h =>
      rw [hreader] at h
      cases h
    | failing failure' rest' h hmem =>
      rw [hreader] at h
      cases h
      refine .failing failure _ rfl (mem_removeWaiter.mpr ⟨by rw [send_rpcId]; exact hmem, ?_⟩)
      rw [send_rpcId]
      rintro rfl
      exact hk (hview.2.1 _ _ _ hmem (mem_of_findWaiter hfind))
  · cases h

theorem Tracked.reader {k : ℕ} (htracked : s.Tracked k) (inv : s.RoutingInv) {e : ReaderEvent}
    (h : s.stepReader e = some t) : t.Tracked k := by
  cases e with
  | route => exact htracked.route inv h
  | deliver => exact htracked.deliver h
  | failWaiter rpcId => exact htracked.failWaiter inv h
  | arrive response now =>
    rw [stepReader, arrive] at h
    split at h <;> cases h
    next hreader =>
    refine ⟨htracked.sole, fun hk hnone => ?_⟩
    rcases htracked.held hk hnone with h | ⟨n, r, h⟩ | ⟨failure, rest, h, -⟩
    · exact .waiting h
    all_goals rw [hreader] at h; cases h
  | lose failure =>
    rw [stepReader, lose] at h
    split at h <;> cases h
    next hreader =>
    refine ⟨htracked.sole, fun hk hnone => ?_⟩
    rcases htracked.held hk hnone with h | ⟨n, r, h⟩ | ⟨failure, rest, h, -⟩
    · exact .waiting h
    all_goals rw [hreader] at h; cases h
  | takeWaiters =>
    rw [stepReader, takeWaiters] at h
    split at h <;> cases h
    next failure hreader =>
    refine ⟨htracked.sole, fun hk hnone => ?_⟩
    rcases htracked.held hk hnone with h | ⟨n, r, h⟩ | ⟨failure, rest, h, -⟩
    · exact .failing failure s.waiters rfl h
    all_goals rw [hreader] at h; cases h
  | endReader =>
    rw [stepReader, endReader] at h
    split at h <;> cases h
    next failure hreader =>
    refine ⟨htracked.sole, fun hk hnone => ?_⟩
    rcases htracked.held hk hnone with h | ⟨n, r, h⟩ | ⟨failure, rest, h, hmem⟩
    · exact .waiting h
    · rw [hreader] at h
      cases h
    · -- all waiters have been sent the failure
      rw [hreader] at h
      cases h
      cases hmem

theorem step_tracked {k : ℕ} (hsole : s.soleId k e = true) (inv : s.RoutingInv)
    (htracked : s.Tracked k) (h : s.step e = some t) : t.Tracked k := by
  cases step_routing h with
  | begin x hphase hreceived hexchanges hcount hwaiters hfailure harrivals hreader =>
    exact htracked.begin hphase hexchanges hwaiters hreader
  | quiet i x hmoved hwaiters hmove => exact htracked.quiet hmoved hwaiters hmove
  | register i hevent hmoved hphase hfailure hwaiters =>
    subst hevent
    exact htracked.register inv hsole hmoved hwaiters
  | forget i result hmoved hphase hwaiters => exact htracked.forget hmoved hphase hwaiters
  | reader e' h => exact htracked.reader inv h

end ClientConnection

end DbProxy
