/-
Ordering of the requests of one connection (`RequestOrdering`, `serve_requests`).

A request is admitted with a set of order keys and waits for the latest unfinished
request of each of them; it is numbered by its admission.  Only the latest request
per key is remembered, and finished ones are pruned from time to time.  Tasks,
reader and writer move independently; whether a completion signal that is read
during an admission is already closed is a choice of the event, as a task may
finish in between.

* `RequestOrdering.mem_admitRequest` — whom a request waits for;
* `RequestOrdering.lookup_admitRequest` — whom an admission leaves remembered;
* `Connection.step_kind` — what one step does.
-/
import DbProxy.Dispatch
import DbProxy.KeyedTable
import DbProxy.StepMachine
import Mathlib.Data.Finset.Basic

namespace DbProxy

open StepMachine

/-- `ORDERING_PRUNE_FLOOR`. -/
def orderingPruneFloor : ℕ := 1024

/-- The remembered requests: the latest of each key. -/
abbrev Tails (κ : Type) := KeyedTable (Prod.fst : κ × ℕ → κ)

structure RequestOrdering (κ : Type) where
  tails : Tails κ := KeyedTable.empty
  pruneAt : ℕ := orderingPruneFloor

namespace RequestOrdering

variable {κ : Type} [DecidableEq κ]

/-- The loop of `admit` over the keys.  `open_ k` says whether the completion
signal found under `k` was still open when it was looked at. -/
def admitKeys (done : ℕ) (open_ : κ → Bool) :
    List κ → Tails κ → List ℕ → Tails κ × List ℕ
  | [], tails, predecessors => (tails, predecessors)
  | key :: keys, tails, predecessors =>
    let inserted := tails.upsert (key, done) (fun row => (row.1, done)) fun _ => rfl
    match tails.lookup key with
    | none => admitKeys done open_ keys inserted predecessors
    | some (_, previous) =>
      if open_ key ∧ previous ∉ predecessors then
        admitKeys done open_ keys inserted (predecessors ++ [previous])
      else admitKeys done open_ keys inserted predecessors

/-- `admit`, for the request numbered `done`; `retained k` says whether the signal
under `k` was open when the tails were pruned. -/
def admitRequest (self : RequestOrdering κ) (keys : List κ) (done : ℕ) (open_ retained : κ → Bool) :
    RequestOrdering κ × List ℕ :=
  let (tails, predecessors) := admitKeys done open_ keys self.tails []
  if self.pruneAt < tails.rows.length then
    let tails := tails.delete fun row => !retained row.1
    (⟨tails, max (tails.rows.length * 2) orderingPruneFloor⟩, predecessors)
  else (⟨tails, self.pruneAt⟩, predecessors)

theorem lookup_admitKeys {done : ℕ} {open_ : κ → Bool} :
    ∀ {keys : List κ} {tails : Tails κ} {predecessors : List ℕ} {k : κ},
      (admitKeys done open_ keys tails predecessors).1.lookup k =
        if k ∈ keys then some (k, done) else tails.lookup k
  | [], _, _, _ => by simp [admitKeys]
  | key :: keys, tails, predecessors, k => by
    have hinserted : ∀ preds : List ℕ,
        (admitKeys done open_ keys
          (tails.upsert (key, done) (fun row => (row.1, done)) fun _ => rfl) preds).1.lookup k =
        if k ∈ key :: keys then some (k, done) else tails.lookup k := by
      intro preds
      rw [lookup_admitKeys, KeyedTable.lookup_upsert]
      by_cases hk : k ∈ keys
      · simp [hk]
      · rw [if_neg hk]
        by_cases hkey : k = key
        · subst hkey
          rw [if_pos rfl, if_pos (List.mem_cons_self ..)]
          cases hlookup : tails.lookup k with
          | none => rfl
          | some row => simp [← KeyedTable.key_of_lookup hlookup]
        · rw [if_neg hkey, if_neg]
          simp [hk, hkey]
    rw [admitKeys]
    split
    · exact hinserted _
    · split
      · exact hinserted _
      · exact hinserted _

/-- The predecessors: the remembered requests of the keys that were still open. -/
theorem mem_admitKeys {done : ℕ} {open_ : κ → Bool} :
    ∀ {keys : List κ} {tails : Tails κ} {predecessors : List ℕ} {p : ℕ}, keys.Nodup →
      (p ∈ (admitKeys done open_ keys tails predecessors).2 ↔
        p ∈ predecessors ∨ ∃ k ∈ keys, tails.lookup k = some (k, p) ∧ open_ k = true)
  | [], _, _, _, _ => by simp [admitKeys]
  | key :: keys, tails, predecessors, p, hnodup => by
    rw [List.nodup_cons] at hnodup
    have hrest : ∀ preds : List ℕ,
        p ∈ (admitKeys done open_ keys
          (tails.upsert (key, done) (fun row => (row.1, done)) fun _ => rfl) preds).2 ↔
        p ∈ preds ∨ ∃ k ∈ keys, tails.lookup k = some (k, p) ∧ open_ k = true := by
      intro preds
      rw [mem_admitKeys hnodup.2]
      refine or_congr_right (exists_congr fun k => and_congr_right fun hk => ?_)
      rw [KeyedTable.lookup_upsert, if_neg]
      rintro rfl
      exact hnodup.1 hk
    rw [admitKeys]
    split
    · rename_i hlookup
      rw [hrest]
      simp [hlookup]
    · rename_i key' previous hlookup
      have hkey : key' = key := KeyedTable.key_of_lookup hlookup
      subst hkey
      split
      · rename_i hopen
        rw [hrest]
        simp only [List.mem_append, List.mem_cons, exists_eq_or_imp, hlookup, Option.some.injEq,
          Prod.mk.injEq, true_and]
        grind
      · rename_i hopen
        rw [hrest]
        simp only [List.mem_cons, exists_eq_or_imp, hlookup, Option.some.injEq, Prod.mk.injEq,
          true_and]
        -- a repeated signal was pushed for an earlier key
        grind

section Admit

variable {self : RequestOrdering κ} {keys : List κ} {done : ℕ} {open_ retained : κ → Bool}

theorem mem_admitRequest (hnodup : keys.Nodup) {p : ℕ} :
    p ∈ (self.admitRequest keys done open_ retained).2 ↔
      ∃ k ∈ keys, self.tails.lookup k = some (k, p) ∧ open_ k = true := by
  have h : (self.admitRequest keys done open_ retained).2 =
      (admitKeys done open_ keys self.tails []).2 := by
    rw [admitRequest]
    split
    rename_i tails predecessors heq
    rw [heq]
    split <;> rfl
  rw [h, mem_admitKeys hnodup]
  simp

/-- What is remembered after an admission. -/
theorem lookup_admitRequest (self : RequestOrdering κ) (keys : List κ) (done : ℕ)
    (open_ retained : κ → Bool) (k : κ) :
    (self.admitRequest keys done open_ retained).1.tails.lookup k =
        (if k ∈ keys then some (k, done) else self.tails.lookup k) ∨
      retained k = false ∧ (self.admitRequest keys done open_ retained).1.tails.lookup k = none := by
  have h : (admitKeys done open_ keys self.tails []).1.lookup k =
      if k ∈ keys then some (k, done) else self.tails.lookup k := lookup_admitKeys
  rw [admitRequest]
  split
  rename_i tails predecessors heq
  rw [heq] at h
  rw [← h]
  split
  · show KeyedTable.lookup (tails.delete _) k = _ ∨ _ ∧ KeyedTable.lookup (tails.delete _) k = _
    rw [KeyedTable.lookup_delete]
    cases hlookup : tails.lookup k with
    | none => exact Or.inl rfl
    | some row =>
      have hkey : row.1 = k := KeyedTable.key_of_lookup hlookup
      cases hretained : retained k with
      | true => exact Or.inl (by simp [Option.filter, hkey, hretained])
      | false => exact Or.inr ⟨rfl, by simp [Option.filter, hkey, hretained]⟩
  · exact Or.inl rfl

end Admit

end RequestOrdering

/-! ### The connection -/

/-- Where the task of a request stands. -/
inductive TaskPhase
  /-- waits for the requests in `left`, one after the other -/
  | waiting (left : List ℕ)
  | running
  /-- the handler ended or panicked and the completion signal was dropped -/
  | finished
  /-- the response was handed to the writer and the permit returned -/
  | answered
deriving DecidableEq, Repr

def TaskPhase.isStarted : TaskPhase → Bool
  | waiting _ => false
  | running | finished | answered => true

def TaskPhase.isFinished : TaskPhase → Bool
  | waiting _ | running => false
  | finished | answered => true

structure RequestTask (β : Type) where
  body : β
  predecessors : List ℕ
  phase : TaskPhase

structure Connection (β κ : Type) where
  requests : List (RequestTask β) := []
  ordering : RequestOrdering κ := {}
  /-- the reader has not stopped -/
  reading : Bool := true
  /-- the reader holds a permit and waits for the next frame -/
  held : Bool := false
  /-- free permits -/
  permits : ℕ
  /-- responses in the channel to the writer -/
  outgoing : ℕ := 0
  /-- the writer has not failed -/
  writing : Bool := true

/-- What happens next on the connection. -/
inductive ConnectionEvent (β κ : Type)
  | acquire
  | admitRequest (body : β) (keys : List κ) (open_ retained : κ → Bool)
  | stopReading
  | pass (r : ℕ)
  | start (r : ℕ)
  | finish (r : ℕ) (panicked : Bool)
  | answer (r : ℕ)
  | write
  | writerFails

/-- The events in which neither the client nor the network takes part. -/
def ConnectionEvent.IsOwn {β κ : Type} : ConnectionEvent β κ → Prop
  | .acquire | .pass _ | .start _ | .finish _ _ | .answer _ | .write => True
  | .admitRequest .. | .stopReading | .writerFails => False

namespace Connection

variable {β κ : Type} [DecidableEq κ] (keysOf : β → Finset κ) (limit : ℕ)

/-- `max_in_flight_per_connection` permits. -/
def init : Connection β κ := { permits := limit }

def phase (s : Connection β κ) (r : ℕ) : Option TaskPhase := (s.requests[r]?).map (·.phase)

def isFinished (s : Connection β κ) (r : ℕ) : Bool := (s.phase r).any (·.isFinished)

def isStarted (s : Connection β κ) (r : ℕ) : Bool := (s.phase r).any (·.isStarted)

/-- The request remembered under a key is finished. -/
def tailFinished (s : Connection β κ) (k : κ) : Bool :=
  (s.ordering.tails.lookup k).all fun row => s.isFinished row.2

def setPhase (s : Connection β κ) (r : ℕ) (phase : TaskPhase) : Connection β κ :=
  { s with requests := s.requests.modify r fun task => { task with phase } }

/-- The task that an admission spawns, and what it leaves behind. -/
def admitted (s : Connection β κ) (body : β) (keys : List κ) (open_ retained : κ → Bool) :
    Connection β κ :=
  let (ordering, predecessors) :=
    s.ordering.admitRequest keys s.requests.length open_ retained
  let task : RequestTask β := ⟨body, predecessors, .waiting predecessors⟩
  { s with requests := s.requests ++ [task], ordering, held := false }

def step (s : Connection β κ) : ConnectionEvent β κ → Option (Connection β κ)
  | .acquire =>
    if s.reading ∧ ¬ s.held ∧ 0 < s.permits then
      some { s with held := true, permits := s.permits - 1 }
    else none
  | .admitRequest body keys open_ retained =>
    -- the set is iterated in any order; a signal that is seen closed is of a finished request
    if s.reading ∧ s.held ∧ keys.Nodup ∧ keys.toFinset = keysOf body ∧
        (∀ k ∈ keys, open_ k = false → s.tailFinished k) ∧ (∀ k ∈ keys, retained k) ∧
        (∀ row ∈ s.ordering.tails.rows, row.1 ∉ keys → retained row.1 = false →
          s.isFinished row.2) then
      some (s.admitted body keys open_ retained)
    else none
  | .stopReading =>
    if s.reading then
      some { s with reading := false, held := false,
                    permits := if s.held then s.permits + 1 else s.permits }
    else none
  | .pass r =>
    match s.phase r with
    | some (.waiting (q :: left)) =>
      if s.isFinished q then some (s.setPhase r (.waiting left)) else none
    | _ => none
  | .start r =>
    match s.phase r with
    | some (.waiting []) => some (s.setPhase r .running)
    | _ => none
  | .finish r _ =>
    match s.phase r with
    | some .running => some (s.setPhase r .finished)
    | _ => none
  | .answer r =>
    match s.phase r with
    | some .finished =>
      if ¬ s.writing then some { s.setPhase r .answered with permits := s.permits + 1 }
      else if s.outgoing < limit then
        some { s.setPhase r .answered with permits := s.permits + 1, outgoing := s.outgoing + 1 }
      else none
    | _ => none
  | .write =>
    if s.writing ∧ 0 < s.outgoing then some { s with outgoing := s.outgoing - 1 } else none
  | .writerFails => if s.writing then some { s with writing := false } else none

/-! ### One step -/

variable {keysOf limit} {s t : Connection β κ}

/-- The keys of a request; a number that was not given out has none. -/
def keys (keysOf : β → Finset κ) (s : Connection β κ) (r : ℕ) : Finset κ :=
  (s.requests[r]?).elim ∅ fun task => keysOf task.body

def predecessors (s : Connection β κ) (r : ℕ) : List ℕ :=
  (s.requests[r]?).elim [] (·.predecessors)

omit [DecidableEq κ] in
theorem requests_setPhase {r q : ℕ} {phase : TaskPhase} :
    (s.setPhase r phase).requests[q]? =
      (s.requests[q]?).map fun task => if r = q then { task with phase } else task := by
  show (s.requests.modify r _)[q]? = _
  rw [List.getElem?_modify]
  split <;> simp [*]

omit [DecidableEq κ] in
@[simp] theorem keys_setPhase {r q : ℕ} {phase : TaskPhase} :
    (s.setPhase r phase).keys keysOf q = s.keys keysOf q := by
  rw [keys, keys, requests_setPhase]
  cases s.requests[q]? with
  | none => rfl
  | some task => split <;> rfl

omit [DecidableEq κ] in
@[simp] theorem predecessors_setPhase {r q : ℕ} {phase : TaskPhase} :
    (s.setPhase r phase).predecessors q = s.predecessors q := by
  rw [predecessors, predecessors, requests_setPhase]
  cases s.requests[q]? with
  | none => rfl
  | some task => split <;> rfl

omit [DecidableEq κ] in
theorem phase_setPhase {r q : ℕ} {phase : TaskPhase} :
    (s.setPhase r phase).phase q = (s.phase q).map fun old => if r = q then phase else old := by
  rw [Connection.phase, Connection.phase, requests_setPhase]
  cases s.requests[q]? with
  | none => rfl
  | some task => split <;> simp [*]

/-- One task moves: from the phase `old` to the phase `new`. -/
inductive TaskMove (s : Connection β κ) (r : ℕ) : TaskPhase → TaskPhase → Prop
  | pass (q : ℕ) (left : List ℕ) (h : s.isFinished q) :
      TaskMove s r (.waiting (q :: left)) (.waiting left)
  | start : TaskMove s r (.waiting []) .running
  | finish : TaskMove s r .running .finished
  | answer : TaskMove s r .finished .answered

/-- What a step does to the tasks and to the remembered requests. -/
inductive StepKind (keysOf : β → Finset κ) (s t : Connection β κ) : Prop
  | idle (hrequests : t.requests = s.requests) (hordering : t.ordering = s.ordering)
  | move (r : ℕ) (old new : TaskPhase) (hmove : TaskMove s r old new)
      (hphase : s.phase r = some old) (hrequests : t.requests = (s.setPhase r new).requests)
      (hordering : t.ordering = s.ordering)
  | admitRequest (body : β) (keys : List κ) (open_ retained : κ → Bool) (hnodup : keys.Nodup)
      (hkeys : keys.toFinset = keysOf body)
      (hopen : ∀ k ∈ keys, open_ k = false → s.tailFinished k)
      (hown : ∀ k ∈ keys, retained k)
      (hretained : ∀ row ∈ s.ordering.tails.rows, row.1 ∉ keys → retained row.1 = false →
        s.isFinished row.2)
      (hresult : t = s.admitted body keys open_ retained)

theorem step_kind {e : ConnectionEvent β κ} (h : s.step keysOf limit e = some t) :
    StepKind keysOf s t := by
  cases e with
  | acquire =>
    simp only [step, Option.ite_none_right_eq_some, Option.some.injEq] at h
    obtain ⟨-, rfl⟩ := h
    exact .idle rfl rfl
  | admitRequest body keys open_ retained =>
    simp only [step, Option.ite_none_right_eq_some, Option.some.injEq] at h
    obtain ⟨⟨-, -, hnodup, hkeys, hopen, hown, hretained⟩, rfl⟩ := h
    exact .admitRequest body keys open_ retained hnodup hkeys hopen hown hretained rfl
  | stopReading =>
    simp only [step, Option.ite_none_right_eq_some, Option.some.injEq] at h
    obtain ⟨-, rfl⟩ := h
    exact .idle rfl rfl
  | pass r =>
    simp only [step] at h
    split at h
    · rename_i q left hphase
      simp only [Option.ite_none_right_eq_some, Option.some.injEq] at h
      obtain ⟨hq, rfl⟩ := h
      exact .move r _ _ (.pass q left hq) hphase rfl rfl
    · cases h
  | start r =>
    simp only [step] at h
    split at h
    · rename_i hphase
      obtain rfl := Option.some.inj h
      exact .move r _ _ .start hphase rfl rfl
    · cases h
  | finish r panicked =>
    simp only [step] at h
    split at h
    · rename_i hphase
      obtain rfl := Option.some.inj h
      exact .move r _ _ .finish hphase rfl rfl
    · cases h
  | answer r =>
    simp only [step] at h
    split at h
    · rename_i hphase
      split at h
      · obtain rfl := Option.some.inj h
        exact .move r _ _ .answer hphase rfl rfl
      · split at h
        · obtain rfl := Option.some.inj h
          exact .move r _ _ .answer hphase rfl rfl
        · cases h
    · cases h
  | write =>
    simp only [step, Option.ite_none_right_eq_some, Option.some.injEq] at h
    obtain ⟨-, rfl⟩ := h
    exact .idle rfl rfl
  | writerFails =>
    simp only [step, Option.ite_none_right_eq_some, Option.some.injEq] at h
    obtain ⟨-, rfl⟩ := h
    exact .idle rfl rfl

end Connection

end DbProxy
