/-
The gates of cache misses (`CacheReadCoordinator`).

A reader that misses the cache takes a slot of the semaphore and then, in order, the mutex
of each of its records.  The mutexes are found through weak references: an entry of the
map does not keep its mutex alive, and whoever comes by next drops the dead entries.
`strong` and `locked` are the counters of that memory.  What a reader has it drops one by
one, at its end or when its future is dropped or panics.

* `GateInv` — the counters are what the readers hold, and a mutex in use is the one in the
  map;
* `read_gates_exclusive` — no two readers have the guard of one record, in any interleaving;
* `read_gates_progress` — they never block each other for good.
-/
import DbProxy.CachedReads
import DbProxy.KeyedTable
import DbProxy.TaskTable
import Mathlib.Data.Finset.Max
import Mathlib.Data.List.Destutter

namespace DbProxy

open StepMachine TaskTable

/-! ### The coordinator -/

/-- A record and its mutex; mutexes are numbered in the order in which they are made. -/
abbrev KeyGate := RecordKey × ℕ

structure CacheReadCoordinator where
  keyLocks : KeyedTable (Prod.fst : KeyGate → RecordKey) := .empty
  mutexes : ℕ := 0
  /-- `Arc::strong_count` -/
  strong : ℕ → ℕ := fun _ => 0
  locked : ℕ → Bool := fun _ => false
  /-- free permits of `fallback_slots` -/
  fallbackSlots : ℕ

/-- Where a read stands. -/
inductive MissPhase
  | called
  /-- in `acquire_fallback` -/
  | queued (records : List RecordKey)
  /-- with a slot and guards; with nothing `left` it reads -/
  | acquiring (guards : List KeyGate) (left : List RecordKey)
  /-- in `lock_owned` of a mutex that it keeps alive -/
  | waiting (guards : List KeyGate) (gate : KeyGate) (left : List RecordKey)
  /-- drops the guards, then the slot -/
  | leaving (guards : List KeyGate)
  | ended
deriving DecidableEq, Repr

inductive MissAction
  /-- A read has missed these records. -/
  | miss (records : List RecordKey)
  /-- The semaphore gives a slot; it may choose any waiter. -/
  | grant
  /-- The critical section of `acquire_key`. -/
  | findKey
  /-- The mutex is given; it may choose any waiter. -/
  | lockKey
  /-- The read is over. -/
  | finish
  /-- A timeout, an error between two guards, a dropped future or a panic. -/
  | cancel
  | dropGuard
  | dropSlot
deriving DecidableEq, Repr

/-- Neither the caller nor a failure takes part. -/
def MissAction.IsOwn : MissAction → Prop
  | grant | findKey | lockKey | finish | dropGuard | dropSlot => True
  | miss _ | cancel => False

namespace CacheReadCoordinator

/-- One more strong reference. -/
def clone (self : CacheReadCoordinator) (mutex : ℕ) : CacheReadCoordinator :=
  { self with strong := Function.update self.strong mutex (self.strong mutex + 1) }

/-- One strong reference less. -/
def release (self : CacheReadCoordinator) (mutex : ℕ) : CacheReadCoordinator :=
  { self with strong := Function.update self.strong mutex (self.strong mutex - 1) }

/-- `retain`, `upgrade` and `insert` of `acquire_key`, under the lock of the map. -/
def findKey (self : CacheReadCoordinator) (record : RecordKey) : CacheReadCoordinator × KeyGate :=
  let keyLocks := self.keyLocks.delete fun row => self.strong row.2 = 0
  match (keyLocks.lookup record).filter fun row => 0 < self.strong row.2 with
  | some row => ({ self with keyLocks }.clone row.2, row)
  | none =>
    let row := (record, self.mutexes)
    let keyLocks := keyLocks.upsert row (fun old => (old.1, self.mutexes)) fun _ => rfl
    ({ self with keyLocks, mutexes := self.mutexes + 1 }.clone row.2, row)

def act (self : CacheReadCoordinator) :
    MissPhase → MissAction → Option (CacheReadCoordinator × MissPhase)
  | .called, .miss records =>
    if records = [] then none else some (self, .queued (TieredSnapshotStore.lockOrder records))
  | .queued records, .grant =>
    if 0 < self.fallbackSlots then
      some ({ self with fallbackSlots := self.fallbackSlots - 1 }, .acquiring [] records)
    else none
  | .queued _, .cancel => some (self, .ended)
  | .acquiring guards (record :: left), .findKey =>
    let (self, gate) := self.findKey record
    some (self, .waiting guards gate left)
  | .waiting guards gate left, .lockKey =>
    if self.locked gate.2 then none
    else some ({ self with locked := Function.update self.locked gate.2 true },
      .acquiring (guards ++ [gate]) left)
  | .acquiring guards [], .finish => some (self, .leaving guards)
  | .acquiring guards _, .cancel => some (self, .leaving guards)
  | .waiting guards gate _, .cancel => some (self.release gate.2, .leaving guards)
  | .leaving (gate :: guards), .dropGuard =>
    some ({ self with locked := Function.update self.locked gate.2 false }.release gate.2,
      .leaving guards)
  | .leaving [], .dropSlot => some ({ self with fallbackSlots := self.fallbackSlots + 1 }, .ended)
  | _, _ => none

end CacheReadCoordinator

/-- The coordinator with every read that there was. -/
abbrev ReadGates := Table CacheReadCoordinator MissPhase

abbrev readGatesStep : ReadGates → TaskEvent MissAction → Option ReadGates :=
  step .called CacheReadCoordinator.act

/-- `max_concurrent` slots, no reader. -/
def ReadGates.init (maxConcurrent : ℕ) : ReadGates :=
  { shared := { fallbackSlots := maxConcurrent }, tasks := [] }

namespace MissPhase

def guards : MissPhase → List KeyGate
  | called | queued _ | ended => []
  | acquiring guards _ | waiting guards _ _ | leaving guards => guards

/-- The strong references. -/
def references : MissPhase → List KeyGate
  | waiting guards gate _ => guards ++ [gate]
  | phase => phase.guards

/-- The records whose mutex is still to be found. -/
def left : MissPhase → List RecordKey
  | queued records => records
  | acquiring _ left | waiting _ _ left => left
  | called | leaving _ | ended => []

def slots : MissPhase → ℕ
  | called | queued _ | ended => 0
  | acquiring _ _ | waiting _ _ _ | leaving _ => 1

/-- The records that are read from PostgreSQL. -/
def loading : MissPhase → List RecordKey
  | acquiring guards [] => guards.map Prod.fst
  | _ => []

/-- The records of the references, and those to come. -/
def route (phase : MissPhase) : List RecordKey := phase.references.map Prod.fst ++ phase.left

/-- How many steps are left at most. -/
def cost : MissPhase → ℕ
  | called | ended => 0
  | queued records => 3 * records.length + 4
  | acquiring guards left => 3 * left.length + guards.length + 3
  | waiting guards _ left => 3 * left.length + guards.length + 5
  | leaving guards => guards.length + 2

/-- The read has been called and has not ended. -/
def IsActive (phase : MissPhase) : Prop := phase ≠ called ∧ phase ≠ ended

end MissPhase

/-! ### The order of the records -/

theorem lockOrder_pairwise (records : List RecordKey) :
    (TieredSnapshotStore.lockOrder records).Pairwise (· < ·) := by
  have hsorted : (TieredSnapshotStore.lockOrder records).Pairwise (· ≤ ·) :=
    (pairwise_sortOn id records).sublist (List.destutter_sublist ..)
  have hchain := List.isChain_destutter (· ≠ ·) (sortOn id records)
  refine List.isChain_iff_pairwise.mp (List.isChain_iff_getElem.mpr fun i hi => ?_)
  exact lt_of_le_of_ne (List.isChain_iff_getElem.mp hsorted.isChain i hi)
    (List.isChain_iff_getElem.mp hchain i hi)

/-! ### The critical section -/

namespace CacheReadCoordinator

/-- The entries whose mutex is still referred to. -/
def liveRows (self : CacheReadCoordinator) : List KeyGate :=
  self.keyLocks.rows.filter fun row => 0 < self.strong row.2

/-- What `findKey` does. -/
structure Finds (self self' : CacheReadCoordinator) (record : RecordKey) (gate : KeyGate) :
    Prop where
  key : gate.1 = record
  strong : self'.strong = Function.update self.strong gate.2 (self.strong gate.2 + 1)
  locked : self'.locked = self.locked
  slots : self'.fallbackSlots = self.fallbackSlots
  rows : (gate ∈ self.liveRows ∧ self'.keyLocks.rows = self.liveRows ∧
      self'.mutexes = self.mutexes) ∨
    (gate.2 = self.mutexes ∧ record ∉ self.liveRows.map Prod.fst ∧
      self'.keyLocks.rows = self.liveRows ++ [gate] ∧ self'.mutexes = self.mutexes + 1)

theorem findKey_finds (self : CacheReadCoordinator) (record : RecordKey) :
    Finds self (self.findKey record).1 record (self.findKey record).2 := by
  set kept := self.keyLocks.delete fun row => self.strong row.2 = 0 with hkept
  have hrows : kept.rows = self.liveRows := by
    show self.keyLocks.rows.filter _ = self.keyLocks.rows.filter _
    refine List.filter_congr fun row _ => ?_
    rw [← decide_not]
    exact decide_eq_decide.mpr Nat.pos_iff_ne_zero.symm
  cases hlookup : kept.lookup record with
  | none =>
    have hfree : record ∉ self.liveRows.map Prod.fst := by
      rw [← hrows]
      exact KeyedTable.lookup_eq_none.mp hlookup
    have hfind : self.findKey record = ({ self with
        keyLocks := kept.upsert (record, self.mutexes) (fun old => (old.1, self.mutexes))
          fun _ => rfl
        mutexes := self.mutexes + 1 }.clone self.mutexes, (record, self.mutexes)) := by
      rw [findKey, ← hkept, hlookup]
      rfl
    rw [hfind]
    refine ⟨rfl, rfl, rfl, rfl, .inr ⟨rfl, hfree, ?_, rfl⟩⟩
    show (KeyedTable.upsert kept _ _ _).rows = _
    rw [KeyedTable.upsert, dif_pos hlookup, ← hrows]
    rfl
  | some row =>
    obtain ⟨hmem, hkey⟩ := KeyedTable.lookup_eq_some.mp hlookup
    rw [hrows] at hmem
    have hlive : 0 < self.strong row.2 := by simpa using (List.mem_filter.mp hmem).2
    have hfind : self.findKey record = ({ self with keyLocks := kept }.clone row.2, row) := by
      rw [findKey, ← hkept, hlookup, Option.filter_some, if_pos (by simpa using hlive)]
    rw [hfind]
    exact ⟨hkey, rfl, rfl, rfl, .inl ⟨hmem, hrows, rfl⟩⟩

end CacheReadCoordinator

/-! ### The invariant -/

def referenceLoad (mutex : ℕ) (phase : MissPhase) : ℕ := (phase.references.map Prod.snd).count mutex

def guardLoad (mutex : ℕ) (phase : MissPhase) : ℕ := (phase.guards.map Prod.snd).count mutex

/-- The counters are right, every reference is to the mutex in the map, and everyone goes
through the records in their order. -/
structure GateInv (maxConcurrent : ℕ) (s : ReadGates) : Prop where
  strong : ∀ mutex, Counted (·.strong mutex) (referenceLoad mutex) s
  locked : ∀ mutex, Counted (fun c => (c.locked mutex).toNat) (guardLoad mutex) s
  slots : total (·.fallbackSlots) MissPhase.slots s = maxConcurrent
  found : ∀ phase ∈ s.tasks, ∀ gate ∈ phase.references, gate ∈ s.shared.keyLocks.rows
  fresh : ∀ row ∈ s.shared.keyLocks.rows, row.2 < s.shared.mutexes
  injective : (s.shared.keyLocks.rows.map Prod.snd).Nodup
  routes : ∀ phase ∈ s.tasks, phase.route.Pairwise (· < ·)

section Steps

variable {maxConcurrent : ℕ} {s t : ReadGates} {i : ℕ} {phase phase' : MissPhase}
  {shared' : CacheReadCoordinator} {action : MissAction}

theorem gateInv_init (maxConcurrent : ℕ) : GateInv maxConcurrent (.init maxConcurrent) where
  strong _ := rfl
  locked _ := rfl
  slots := rfl
  found := by simp [ReadGates.init]
  fresh row hrow := by cases hrow
  injective := List.nodup_nil
  routes := by simp [ReadGates.init]

/-- A reference keeps its mutex alive. -/
theorem GateInv.alive (inv : GateInv maxConcurrent s) (hphase : phase ∈ s.tasks) {gate : KeyGate}
    (hgate : gate ∈ phase.references) : 0 < s.shared.strong gate.2 := by
  obtain ⟨i, hi⟩ := List.mem_iff_getElem?.mp hphase
  have hcount : 0 < referenceLoad gate.2 phase :=
    List.count_pos_iff.mpr (List.mem_map_of_mem hgate)
  have hle : referenceLoad gate.2 phase ≤ _ := load_le_sum hi (referenceLoad gate.2)
  exact hcount.trans_le (hle.trans_eq (inv.strong gate.2).symm)

/-- What an action does to the counters, to the map and to its reader. -/
structure GateMoves (s : ReadGates) (shared' : CacheReadCoordinator) (phase phase' : MissPhase) :
    Prop where
  strong : ∀ mutex, shared'.strong mutex + referenceLoad mutex phase =
    s.shared.strong mutex + referenceLoad mutex phase'
  locked : ∀ mutex, (shared'.locked mutex).toNat + guardLoad mutex phase =
    (s.shared.locked mutex).toNat + guardLoad mutex phase'
  slots : shared'.fallbackSlots + phase'.slots = s.shared.fallbackSlots + phase.slots
  found : ∀ gate ∈ phase'.references, gate ∈ shared'.keyLocks.rows
  kept : ∀ row ∈ s.shared.keyLocks.rows, 0 < s.shared.strong row.2 → row ∈ shared'.keyLocks.rows
  fresh : ∀ row ∈ shared'.keyLocks.rows, row.2 < shared'.mutexes
  injective : (shared'.keyLocks.rows.map Prod.snd).Nodup
  route : phase'.route.Pairwise (· < ·)

theorem GateInv.moved (inv : GateInv maxConcurrent s) (hphase : s.tasks[i]? = some phase)
    (h : GateMoves s shared' phase phase') :
    GateInv maxConcurrent { shared := shared', tasks := s.tasks.set i phase' } where
  strong mutex := (inv.strong mutex).moved hphase (h.strong mutex)
  locked mutex := (inv.locked mutex).moved hphase (h.locked mutex)
  slots := by
    obtain ⟨others, hsum, hset⟩ := exists_sum_others hphase MissPhase.slots
    have hslots := inv.slots
    have hmoved := h.slots
    rw [total, hsum] at hslots
    show shared'.fallbackSlots + ((s.tasks.set i phase').map MissPhase.slots).sum = maxConcurrent
    rw [hset]
    omega
  found other hother gate hgate := by
    rcases List.mem_or_eq_of_mem_set hother with hother | rfl
    · exact h.kept gate (inv.found other hother gate hgate) (inv.alive hother hgate)
    · exact h.found gate hgate
  fresh := h.fresh
  injective := h.injective
  routes other hother := by
    rcases List.mem_or_eq_of_mem_set hother with hother | rfl
    · exact inv.routes other hother
    · exact h.route

/-- An action that leaves the map alone. -/
theorem GateInv.moves (inv : GateInv maxConcurrent s) (hphase : s.tasks[i]? = some phase)
    (hmap : shared'.keyLocks = s.shared.keyLocks) (hmutexes : shared'.mutexes = s.shared.mutexes)
    (hstrong : ∀ mutex, shared'.strong mutex + referenceLoad mutex phase =
      s.shared.strong mutex + referenceLoad mutex phase')
    (hlocked : ∀ mutex, (shared'.locked mutex).toNat + guardLoad mutex phase =
      (s.shared.locked mutex).toNat + guardLoad mutex phase')
    (hslots : shared'.fallbackSlots + phase'.slots = s.shared.fallbackSlots + phase.slots)
    (hreferences : phase'.references ⊆ phase.references)
    (hroute : phase'.route.Pairwise (· < ·)) : GateMoves s shared' phase phase' where
  strong := hstrong
  locked := hlocked
  slots := hslots
  found gate hgate := by
    rw [hmap]
    exact inv.found phase (List.mem_of_getElem? hphase) gate (hreferences hgate)
  kept row hrow _ := by
    rw [hmap]
    exact hrow
  fresh := by
    rw [hmap, hmutexes]
    exact inv.fresh
  injective := by
    rw [hmap]
    exact inv.injective
  route := hroute

theorem GateInv.findKey {record : RecordKey} {guards : List KeyGate} {left : List RecordKey}
    (inv : GateInv maxConcurrent s)
    (hphase : s.tasks[i]? = some (.acquiring guards (record :: left))) :
    GateMoves s (s.shared.findKey record).1 (.acquiring guards (record :: left))
      (.waiting guards (s.shared.findKey record).2 left) := by
  obtain ⟨hkey, hstrong, hlocked, hslots, hrows⟩ := s.shared.findKey_finds record
  set after := (s.shared.findKey record).1
  set gate := (s.shared.findKey record).2
  have hmem := List.mem_of_getElem? hphase
  have hlive : ∀ row ∈ s.shared.liveRows, row ∈ s.shared.keyLocks.rows :=
    fun row hrow => (List.mem_filter.mp hrow).1
  have hkept : ∀ row ∈ s.shared.keyLocks.rows, 0 < s.shared.strong row.2 →
      row ∈ after.keyLocks.rows := by
    intro row hrow hpos
    have hrow : row ∈ s.shared.liveRows := List.mem_filter.mpr ⟨hrow, by simpa using hpos⟩
    rcases hrows with ⟨-, hrows, -⟩ | ⟨-, -, hrows, -⟩
    · rwa [hrows]
    · rw [hrows]
      exact List.mem_append_left _ hrow
  have hgate : gate ∈ after.keyLocks.rows := by
    rcases hrows with ⟨hgate, hrows, -⟩ | ⟨-, -, hrows, -⟩
    · rwa [hrows]
    · rw [hrows]
      exact List.mem_append_right _ (List.mem_singleton_self _)
  refine ⟨fun mutex => ?_, fun mutex => ?_, ?_, ?_, hkept, ?_, ?_, ?_⟩
  · show after.strong mutex + (guards.map Prod.snd).count mutex =
      s.shared.strong mutex + ((guards ++ [gate]).map Prod.snd).count mutex
    rw [hstrong, List.map_append, List.count_append, List.map_singleton, List.count_singleton]
    by_cases hmutex : mutex = gate.2
    · rw [hmutex, Function.update_self, if_pos (by simp)]
      omega
    · rw [Function.update_of_ne hmutex, if_neg (by simpa using Ne.symm hmutex), Nat.add_zero]
  · rw [hlocked]
    rfl
  · rw [hslots]
    rfl
  · intro other hother
    rcases List.mem_append.mp hother with hother | hother
    · have hreference : other ∈ (MissPhase.acquiring guards (record :: left)).references := hother
      exact hkept other (inv.found _ hmem other hreference) (inv.alive hmem hreference)
    · rw [List.mem_singleton.mp hother]
      exact hgate
  · intro row hrow
    rcases hrows with ⟨-, hrows, hmutexes⟩ | ⟨hnew, -, hrows, hmutexes⟩
    · rw [hrows] at hrow
      rw [hmutexes]
      exact inv.fresh row (hlive row hrow)
    · rw [hrows] at hrow
      rw [hmutexes]
      rcases List.mem_append.mp hrow with hrow | hrow
      · exact Nat.lt_succ_of_lt (inv.fresh row (hlive row hrow))
      · rw [List.mem_singleton.mp hrow, hnew]
        exact Nat.lt_succ_self _
  · have hsublist : (s.shared.liveRows.map Prod.snd).Nodup :=
      inv.injective.sublist (List.filter_sublist.map _)
    rcases hrows with ⟨-, hrows, -⟩ | ⟨hnew, -, hrows, -⟩
    · rwa [hrows]
    · rw [hrows, List.map_append, List.map_singleton, ← List.concat_eq_append]
      refine hsublist.concat fun hold => ?_
      -- the number of the new mutex was never given out
      obtain ⟨row, hrow, heq⟩ := List.mem_map.mp hold
      have hlt := inv.fresh row (hlive row hrow)
      rw [heq, hnew] at hlt
      exact absurd hlt (Nat.lt_irrefl _)
  · have hroute := inv.routes _ hmem
    rw [MissPhase.route] at hroute ⊢
    show (((guards ++ [gate]).map Prod.fst) ++ left).Pairwise (· < ·)
    rw [List.map_append, List.map_singleton, hkey, List.append_assoc]
    exact hroute

theorem release_strong {self : CacheReadCoordinator} {mutex : ℕ} (h : 0 < self.strong mutex)
    (other : ℕ) : (self.release mutex).strong other + (if mutex = other then 1 else 0) =
      self.strong other := by
  show Function.update self.strong mutex (self.strong mutex - 1) other + _ = _
  by_cases hother : other = mutex
  · subst hother
    rw [Function.update_self, if_pos rfl]
    omega
  · rw [Function.update_of_ne hother, if_neg (Ne.symm hother), Nat.add_zero]

theorem act_moves (inv : GateInv maxConcurrent s) (hphase : s.tasks[i]? = some phase)
    (hact : s.shared.act phase action = some (shared', phase')) :
    GateMoves s shared' phase phase' := by
  have hmem := List.mem_of_getElem? hphase
  have hroute := inv.routes phase hmem
  revert hact
  fun_cases CacheReadCoordinator.act s.shared phase action with
  | case1 => rintro ⟨⟩
  | case2 records hmiss =>
    rintro ⟨⟩
    exact inv.moves hphase rfl rfl (fun _ => rfl) (fun _ => rfl) rfl (List.nil_subset _)
      (lockOrder_pairwise records)
  | case3 records hfree =>
    rintro ⟨⟩
    refine inv.moves hphase rfl rfl (fun _ => rfl) (fun _ => rfl) ?_ (List.Subset.refl _) hroute
    show s.shared.fallbackSlots - 1 + 1 = s.shared.fallbackSlots + 0
    omega
  | case4 => rintro ⟨⟩
  | case5 records =>
    rintro ⟨⟩
    exact inv.moves hphase rfl rfl (fun _ => rfl) (fun _ => rfl) rfl (List.Subset.refl _)
      List.Pairwise.nil
  | case6 guards record left after gate hfind =>
    rintro ⟨⟩
    have hmoves := inv.findKey hphase
    rw [hfind] at hmoves
    exact hmoves
  | case7 => rintro ⟨⟩
  | case8 guards gate left hfree =>
    rintro ⟨⟩
    refine inv.moves hphase rfl rfl (fun _ => rfl) (fun mutex => ?_) rfl (List.Subset.refl _) hroute
    show (Function.update s.shared.locked gate.2 true mutex).toNat +
        (guards.map Prod.snd).count mutex =
      (s.shared.locked mutex).toNat + ((guards ++ [gate]).map Prod.snd).count mutex
    rw [List.map_append, List.count_append, List.map_singleton, List.count_singleton]
    by_cases hmutex : mutex = gate.2
    · rw [hmutex, Function.update_self, if_pos (by simp), Bool.not_eq_true _ |>.mp hfree]
      rw [Bool.toNat_true, Bool.toNat_false]
      omega
    · rw [Function.update_of_ne hmutex, if_neg (by simpa using Ne.symm hmutex), Nat.add_zero]
  | case9 guards =>
    rintro ⟨⟩
    exact inv.moves hphase rfl rfl (fun _ => rfl) (fun _ => rfl) rfl (List.Subset.refl _) hroute
  | case10 guards left =>
    rintro ⟨⟩
    refine inv.moves hphase rfl rfl (fun _ => rfl) (fun _ => rfl) rfl (List.Subset.refl _) ?_
    exact hroute.sublist (List.Sublist.append_left (List.nil_sublist left) _)
  | case11 guards gate left =>
    rintro ⟨⟩
    have hgate : gate ∈ (MissPhase.waiting guards gate left).references :=
      List.mem_append_right _ (List.mem_singleton_self _)
    refine inv.moves hphase rfl rfl (fun mutex => ?_) (fun _ => rfl) rfl
      (List.subset_append_left ..) (hroute.sublist ?_)
    · have hrelease := release_strong (inv.alive hmem hgate) mutex
      show (s.shared.release gate.2).strong mutex + ((guards ++ [gate]).map Prod.snd).count mutex =
        s.shared.strong mutex + (guards.map Prod.snd).count mutex
      rw [List.map_append, List.count_append, List.map_singleton, List.count_singleton]
      simp only [beq_iff_eq]
      omega
    · show (guards.map Prod.fst ++ []).Sublist ((guards ++ [gate]).map Prod.fst ++ left)
      rw [List.map_append, List.append_assoc]
      exact List.Sublist.append_left (List.nil_sublist _) _
  | case12 gate guards =>
    rintro ⟨⟩
    have hgate : gate ∈ (MissPhase.leaving (gate :: guards)).references := List.mem_cons_self ..
    have hlocked : s.shared.locked gate.2 = true := by
      have hle : guardLoad gate.2 (.leaving (gate :: guards)) ≤ (s.shared.locked gate.2).toNat :=
        (load_le_sum hphase (guardLoad gate.2)).trans_eq (inv.locked gate.2).symm
      have hpos : 0 < guardLoad gate.2 (.leaving (gate :: guards)) :=
        List.count_pos_iff.mpr (List.mem_map_of_mem (List.mem_cons_self ..))
      cases hvalue : s.shared.locked gate.2 with
      | true => rfl
      | false =>
        rw [hvalue] at hle
        exact absurd (hpos.trans_le hle) (Nat.lt_irrefl 0)
    refine inv.moves hphase rfl rfl (fun mutex => ?_) (fun mutex => ?_) rfl
      (List.subset_cons_self ..) (hroute.sublist (List.sublist_cons_self ..))
    · have hrelease := release_strong (inv.alive hmem hgate) mutex
      show (s.shared.release gate.2).strong mutex + ((gate :: guards).map Prod.snd).count mutex =
        s.shared.strong mutex + (guards.map Prod.snd).count mutex
      rw [List.map_cons, List.count_cons]
      simp only [beq_iff_eq]
      omega
    · show (Function.update s.shared.locked gate.2 false mutex).toNat +
          ((gate :: guards).map Prod.snd).count mutex =
        (s.shared.locked mutex).toNat + (guards.map Prod.snd).count mutex
      rw [List.map_cons, List.count_cons]
      by_cases hmutex : mutex = gate.2
      · rw [hmutex, Function.update_self, if_pos (by simp), hlocked, Bool.toNat_true,
          Bool.toNat_false]
        omega
      · rw [Function.update_of_ne hmutex, if_neg (by simpa using Ne.symm hmutex), Nat.add_zero]
  | case13 =>
    rintro ⟨⟩
    exact inv.moves hphase rfl rfl (fun _ => rfl) (fun _ => rfl) rfl (List.Subset.refl _) hroute
  | _ => rintro ⟨⟩

theorem step_gateInv {e : TaskEvent MissAction} (inv : GateInv maxConcurrent s)
    (h : readGatesStep s e = some t) : GateInv maxConcurrent t := by
  rcases TaskTable.step_cases h with ⟨-, rfl⟩ | ⟨i, action, phase, shared', phase', -, hphase, hact, rfl⟩
  · refine ⟨fun mutex => (inv.strong mutex).spawn rfl, fun mutex => (inv.locked mutex).spawn rfl,
      ?_, ?_, inv.fresh, inv.injective, ?_⟩
    · have hslots := inv.slots
      rw [total] at hslots ⊢
      rw [List.map_append, List.sum_append]
      exact hslots
    · intro phase hphase gate hgate
      rcases List.mem_append.mp hphase with hphase | hphase
      · exact inv.found phase hphase gate hgate
      · rw [List.mem_singleton.mp hphase] at hgate
        cases hgate
    · intro phase hphase
      rcases List.mem_append.mp hphase with hphase | hphase
      · exact inv.routes phase hphase
      · rw [List.mem_singleton.mp hphase]
        exact List.Pairwise.nil
  · exact inv.moved hphase (act_moves inv hphase hact)

theorem run_gateInv {events : List (TaskEvent MissAction)}
    (h : run readGatesStep (.init maxConcurrent) events = some s) : GateInv maxConcurrent s :=
  run_invariant (fun _ _ _ hinv hstep => step_gateInv hinv hstep) (gateInv_init maxConcurrent) h

end Steps

/-! ### Exclusion -/

section Exclusion

variable {maxConcurrent : ℕ} {s t : ReadGates}

theorem guards_subset (phase : MissPhase) : phase.guards ⊆ phase.references := by
  cases phase with
  | waiting guards gate left => exact List.subset_append_left ..
  | _ => exact List.Subset.refl _

/-- Entries of the map with one key or one mutex are the same. -/
theorem GateInv.eq_of_key (inv : GateInv maxConcurrent s) {phase phase' : MissPhase}
    (hphase : phase ∈ s.tasks) (hphase' : phase' ∈ s.tasks) {gate gate' : KeyGate}
    (hgate : gate ∈ phase.references) (hgate' : gate' ∈ phase'.references)
    (h : gate.1 = gate'.1) : gate = gate' :=
  KeyedTable.eq_of_key (inv.found phase hphase gate hgate) (inv.found phase' hphase' gate' hgate') h

theorem GateInv.exclusive (inv : GateInv maxConcurrent s) {i j : ℕ} {phase phase' : MissPhase}
    (hi : s.tasks[i]? = some phase) (hj : s.tasks[j]? = some phase') {record : RecordKey}
    (hrecord : record ∈ phase.guards.map Prod.fst)
    (hrecord' : record ∈ phase'.guards.map Prod.fst) : i = j := by
  obtain ⟨gate, hgate, hkey⟩ := List.mem_map.mp hrecord
  obtain ⟨gate', hgate', hkey'⟩ := List.mem_map.mp hrecord'
  obtain rfl := inv.eq_of_key (List.mem_of_getElem? hi) (List.mem_of_getElem? hj)
    (guards_subset _ hgate) (guards_subset _ hgate') (hkey.trans hkey'.symm)
  by_contra hij
  have hle : guardLoad gate.2 phase + guardLoad gate.2 phase' ≤ (s.shared.locked gate.2).toNat :=
    (add_load_le_sum hi hj hij (guardLoad gate.2)).trans_eq (inv.locked gate.2).symm
  have hpos : 0 < guardLoad gate.2 phase := List.count_pos_iff.mpr (List.mem_map_of_mem hgate)
  have hpos' : 0 < guardLoad gate.2 phase' := List.count_pos_iff.mpr (List.mem_map_of_mem hgate')
  have hone := Bool.toNat_le (s.shared.locked gate.2)
  omega

theorem loading_slots (phase : MissPhase) (h : phase.loading ≠ []) : phase.slots = 1 := by
  cases phase with
  | acquiring guards left => rfl
  | _ => exact absurd rfl h

/-- Who reads has a slot. -/
theorem loading_le_slots (tasks : List MissPhase) :
    tasks.countP (fun phase => phase.loading ≠ []) ≤ (tasks.map MissPhase.slots).sum := by
  induction tasks with
  | nil => exact Nat.le_refl 0
  | cons phase tasks ih =>
    rw [List.countP_cons, List.map_cons, List.sum_cons, Nat.add_comm]
    refine Nat.add_le_add ?_ ih
    split
    · rename_i h
      rw [loading_slots phase (by simpa using h)]
    · exact Nat.zero_le _

theorem GateInv.slots_le (inv : GateInv maxConcurrent s) :
    (s.tasks.map MissPhase.slots).sum ≤ maxConcurrent := by
  have hslots := inv.slots
  rw [total] at hslots
  omega

/-- When nobody reads, nothing is held. -/
theorem GateInv.resting (inv : GateInv maxConcurrent s)
    (h : ∀ phase ∈ s.tasks, ¬ phase.IsActive) :
    s.shared.fallbackSlots = maxConcurrent ∧
      ∀ mutex, s.shared.strong mutex = 0 ∧ s.shared.locked mutex = false := by
  have hzero : ∀ load : MissPhase → ℕ, load .called = 0 → load .ended = 0 →
      (s.tasks.map load).sum = 0 := by
    intro load hcalled hended
    refine List.sum_eq_zero (List.forall_mem_map.mpr fun phase hphase => ?_)
    rcases not_and_or.mp (h phase hphase) with hcall | hend
    · rw [not_not.mp hcall, hcalled]
    · rw [not_not.mp hend, hended]
  refine ⟨?_, fun mutex => ⟨?_, ?_⟩⟩
  · have hslots := inv.slots
    rwa [total, hzero MissPhase.slots rfl rfl, Nat.add_zero] at hslots
  · exact (inv.strong mutex).trans (hzero _ rfl rfl)
  · have hlocked : (s.shared.locked mutex).toNat = 0 := (inv.locked mutex).trans (hzero _ rfl rfl)
    cases hvalue : s.shared.locked mutex with
    | false => rfl
    | true =>
      rw [hvalue] at hlocked
      cases hlocked

end Exclusion

/-! ### The size of the map -/

section Size

variable {maxConcurrent m : ℕ} {s t : ReadGates}

/-- The entries are no more than what the slots allow when each read has `m` records. -/
structure SizeInv (maxConcurrent m : ℕ) (s : ReadGates) : Prop where
  gates : GateInv maxConcurrent s
  routes : ∀ phase ∈ s.tasks, phase.route.length ≤ m
  rows : s.shared.keyLocks.rows.length ≤ maxConcurrent * m

theorem references_length (phase : MissPhase) (h : phase.route.length ≤ m) :
    (phase.references.map Prod.snd).length ≤ phase.slots * m := by
  rw [MissPhase.route, List.length_append] at h
  rw [List.length_map] at h ⊢
  cases phase with
  | called | queued | ended => exact Nat.zero_le _
  | acquiring | waiting | leaving =>
    rw [MissPhase.slots, Nat.one_mul]
    omega

/-- As long as each entry has a reader. -/
theorem GateInv.rows_le (inv : GateInv maxConcurrent s)
    (hroutes : ∀ phase ∈ s.tasks, phase.route.length ≤ m)
    (halive : ∀ row ∈ s.shared.keyLocks.rows, 0 < s.shared.strong row.2) :
    s.shared.keyLocks.rows.length ≤ maxConcurrent * m := by
  have hsubset : s.shared.keyLocks.rows.map Prod.snd ⊆
      s.tasks.flatMap fun phase => phase.references.map Prod.snd := by
    intro mutex hmutex
    obtain ⟨row, hrow, rfl⟩ := List.mem_map.mp hmutex
    have hpos : 0 < (s.tasks.map (referenceLoad row.2)).sum :=
      (halive row hrow).trans_eq (inv.strong row.2)
    obtain ⟨load, hload, hne⟩ := List.exists_mem_ne_zero_of_sum_ne_zero hpos.ne'
    obtain ⟨phase, hphase, rfl⟩ := List.mem_map.mp hload
    exact List.mem_flatMap.mpr ⟨phase, hphase, List.count_pos_iff.mp (Nat.pos_of_ne_zero hne)⟩
  have hlength : ∀ tasks : List MissPhase, (∀ phase ∈ tasks, phase.route.length ≤ m) →
      (tasks.flatMap fun phase => phase.references.map Prod.snd).length ≤
        (tasks.map MissPhase.slots).sum * m := by
    intro tasks
    induction tasks with
    | nil => exact fun _ => Nat.zero_le _
    | cons phase tasks ih =>
      intro hroutes
      rw [List.flatMap_cons, List.length_append, List.map_cons, List.sum_cons, Nat.add_mul]
      exact Nat.add_le_add (references_length phase (hroutes phase (List.mem_cons_self ..)))
        (ih fun phase hphase => hroutes phase (List.mem_cons_of_mem _ hphase))
  have hslots : (s.tasks.map MissPhase.slots).sum ≤ maxConcurrent := by
    have hslots := inv.slots
    rw [total] at hslots
    omega
  calc s.shared.keyLocks.rows.length
      = (s.shared.keyLocks.rows.map Prod.snd).length := (List.length_map ..).symm
    _ ≤ _ := (List.subperm_of_subset inv.injective hsubset).length_le
    _ ≤ (s.tasks.map MissPhase.slots).sum * m := hlength s.tasks hroutes
    _ ≤ maxConcurrent * m := Nat.mul_le_mul_right m hslots

/-- The records of a call: at most `m`. -/
def AtMost (m : ℕ) : TaskEvent MissAction → Prop
  | .act _ (.miss records) => records.length ≤ m
  | _ => True

/-- Only a miss makes a route longer. -/
theorem act_route {self self' : CacheReadCoordinator} {phase phase' : MissPhase}
    {action : MissAction} (h : self.act phase action = some (self', phase')) :
    phase'.route.length ≤ phase.route.length ∨
      ∃ records, action = .miss records ∧ phase'.route.length ≤ records.length := by
  revert h
  fun_cases CacheReadCoordinator.act self phase action with
  | case2 records hmiss =>
    rintro ⟨⟩
    refine .inr ⟨records, rfl, ?_⟩
    refine (List.destutter_sublist ..).length_le.trans_eq ?_
    exact (sortOn_perm id records).length_eq
  | case3 records hfree | case5 records | case9 guards | case13 =>
    rintro ⟨⟩
    exact .inl (by simp [MissPhase.route, MissPhase.references, MissPhase.guards, MissPhase.left])
  | case6 guards record left after gate hfind | case8 guards gate left hfree
  | case10 guards left | case11 guards gate left | case12 gate guards =>
    rintro ⟨⟩
    refine .inl ?_
    simp only [MissPhase.route, MissPhase.references, MissPhase.guards, MissPhase.left,
      List.length_append, List.length_map, List.length_cons, List.length_nil]
    omega
  | _ => rintro ⟨⟩

/-- What the map contains after an action. -/
theorem act_rows {self self' : CacheReadCoordinator} {phase phase' : MissPhase}
    {action : MissAction} (h : self.act phase action = some (self', phase')) :
    self'.keyLocks = self.keyLocks ∨ ∀ row ∈ self'.keyLocks.rows, 0 < self'.strong row.2 := by
  revert h
  fun_cases CacheReadCoordinator.act self phase action with
  | case6 guards record left after gate hfind =>
    rintro ⟨⟩
    refine .inr fun row hrow => ?_
    obtain ⟨-, hstrong, -, -, hrows⟩ := self.findKey_finds record
    rw [hfind] at hstrong hrows
    have hgrow : ∀ row ∈ self.liveRows, 0 < self'.strong row.2 := by
      intro row hrow
      have hpos : 0 < self.strong row.2 := by simpa using (List.mem_filter.mp hrow).2
      rw [hstrong, Function.update_apply]
      split
      · exact Nat.succ_pos _
      · exact hpos
    rcases hrows with ⟨-, hrows, -⟩ | ⟨-, -, hrows, -⟩
    · exact hgrow row (hrows ▸ hrow)
    · rw [hrows] at hrow
      rcases List.mem_append.mp hrow with hrow | hrow
      · exact hgrow row hrow
      · rw [List.mem_singleton.mp hrow, hstrong, Function.update_self]
        exact Nat.succ_pos _
  | case1 | case4 | case7 | case14 => rintro ⟨⟩
  | _ =>
    rintro ⟨⟩
    exact .inl rfl

theorem step_sizeInv {e : TaskEvent MissAction} (he : AtMost m e)
    (inv : SizeInv maxConcurrent m s) (h : readGatesStep s e = some t) :
    SizeInv maxConcurrent m t := by
  have hgates := step_gateInv inv.gates h
  rcases TaskTable.step_cases h with ⟨-, rfl⟩ | ⟨i, action, phase, shared', phase', rfl, hphase, hact, rfl⟩
  · refine ⟨hgates, fun phase hphase => ?_, inv.rows⟩
    rcases List.mem_append.mp hphase with hphase | hphase
    · exact inv.routes phase hphase
    · rw [List.mem_singleton.mp hphase]
      exact Nat.zero_le m
  · have hroutes : ∀ other ∈ s.tasks.set i phase', other.route.length ≤ m := by
      intro other hother
      rcases List.mem_or_eq_of_mem_set hother with hother | rfl
      · exact inv.routes other hother
      · rcases act_route hact with hle | ⟨records, rfl, hle⟩
        · exact hle.trans (inv.routes phase (List.mem_of_getElem? hphase))
        · exact hle.trans he
    refine ⟨hgates, hroutes, ?_⟩
    rcases act_rows hact with hrows | halive
    · show shared'.keyLocks.rows.length ≤ _
      rw [hrows]
      exact inv.rows
    · exact hgates.rows_le hroutes halive

end Size

/-! ### Progress -/

section Progress

variable {maxConcurrent : ℕ} {s t : ReadGates}

/-- The record that a reader waits for. -/
def MissPhase.awaited : MissPhase → Option RecordKey
  | waiting _ gate _ => some gate.1
  | _ => none

/-- Someone who holds a guard and waits for another waits for a later record. -/
theorem GateInv.awaited_lt (inv : GateInv maxConcurrent s) {phase : MissPhase}
    (hphase : phase ∈ s.tasks) {awaited : RecordKey} (hawaited : phase.awaited = some awaited)
    {gate : KeyGate} (hgate : gate ∈ phase.guards) : gate.1 < awaited := by
  cases phase with
  | waiting guards next left =>
    obtain rfl := Option.some_inj.mp hawaited
    have hroute := (List.pairwise_append.mp (inv.routes _ hphase)).1
    have hroute : ((guards ++ [next]).map Prod.fst).Pairwise (· < ·) := hroute
    rw [List.map_append] at hroute
    exact (List.pairwise_append.mp hroute).2.2 gate.1 (List.mem_map_of_mem hgate) next.1
      (List.mem_singleton_self _)
  | _ => cases hawaited

/-- A step that neither a caller nor a failure takes. -/
def CanMove (s : ReadGates) : Prop :=
  ∃ i action t, action.IsOwn ∧ readGatesStep s (.act i action) = some t

theorem canMove {i : ℕ} {phase : MissPhase} (hphase : s.tasks[i]? = some phase)
    (action : MissAction) (hown : action.IsOwn)
    (h : (s.shared.act phase action).isSome) : CanMove s := by
  obtain ⟨⟨shared', phase'⟩, hact⟩ := Option.isSome_iff_exists.mp h
  exact ⟨i, action, _, hown, step_act hphase hact⟩

/-- A reader that waits for nothing can go on. -/
theorem canMove_of_free {i : ℕ} {phase : MissPhase} (hphase : s.tasks[i]? = some phase)
    (hslot : phase.slots = 1) (hawaited : phase.awaited = none) : CanMove s := by
  cases phase with
  | acquiring guards left =>
    cases left with
    | nil => exact canMove hphase .finish trivial rfl
    | cons record left => exact canMove hphase .findKey trivial rfl
  | waiting => cases hawaited
  | leaving guards =>
    cases guards with
    | nil => exact canMove hphase .dropSlot trivial rfl
    | cons gate guards => exact canMove hphase .dropGuard trivial rfl
  | called | queued | ended => cases hslot

/-- Whoever waits for the last of the records that are waited for can go on, or whoever has
that record can. -/
theorem GateInv.canMove_of_awaited (inv : GateInv maxConcurrent s) {i : ℕ} {phase : MissPhase}
    (hphase : s.tasks[i]? = some phase) {record : RecordKey}
    (hawaited : phase.awaited = some record)
    (hlast : ∀ phase ∈ s.tasks, ∀ other, phase.awaited = some other → other ≤ record) :
    CanMove s := by
  cases phase with
  | waiting guards gate left =>
    obtain rfl := Option.some_inj.mp hawaited
    cases hlocked : s.shared.locked gate.2 with
    | false =>
      refine canMove hphase .lockKey trivial ?_
      rw [CacheReadCoordinator.act, hlocked]
      rfl
    | true =>
      -- somebody has the guard
      have hsum : 0 < (s.tasks.map (guardLoad gate.2)).sum := by
        have hcount := inv.locked gate.2
        rw [Counted, hlocked] at hcount
        exact hcount ▸ Nat.one_pos
      obtain ⟨load, hload, hne⟩ := List.exists_mem_ne_zero_of_sum_ne_zero hsum.ne'
      obtain ⟨holder, hholder, rfl⟩ := List.mem_map.mp hload
      obtain ⟨held, hheld, hmutex⟩ :=
        List.mem_map.mp (List.count_pos_iff.mp (Nat.pos_of_ne_zero hne))
      have hrow := inv.found holder hholder held (guards_subset _ hheld)
      have hrow' := inv.found _ (List.mem_of_getElem? hphase) gate
        (List.mem_append_right _ (List.mem_singleton_self _))
      have hsame : held = gate := List.inj_on_of_nodup_map inv.injective hrow hrow' hmutex
      rw [hsame] at hheld
      obtain ⟨j, hj⟩ := List.mem_iff_getElem?.mp hholder
      cases hnext : holder.awaited with
      | some next =>
        have hlt := inv.awaited_lt hholder hnext hheld
        exact absurd (hlast holder hholder next hnext) (not_le_of_gt hlt)
      | none =>
        refine canMove_of_free hj ?_ hnext
        cases holder with
        | called | queued | ended => cases hheld
        | acquiring | waiting | leaving => rfl
  | _ => cases hawaited

theorem GateInv.canMove (inv : GateInv maxConcurrent s) (hslots : 0 < maxConcurrent)
    (h : ∃ phase ∈ s.tasks, phase.IsActive) : CanMove s := by
  by_cases hwaiting : ∃ phase ∈ s.tasks, ∃ record, phase.awaited = some record
  · -- the last record that is waited for
    obtain ⟨phase, hphase, record, hrecord⟩ := hwaiting
    set records := s.tasks.filterMap MissPhase.awaited with hrecords
    have hmem : record ∈ records := List.mem_filterMap.mpr ⟨phase, hphase, hrecord⟩
    obtain ⟨last, hlast, hmax⟩ :=
      records.toFinset.exists_max_image id ⟨record, List.mem_toFinset.mpr hmem⟩
    obtain ⟨waiter, hwaiter, hawaited⟩ := List.mem_filterMap.mp (List.mem_toFinset.mp hlast)
    obtain ⟨i, hi⟩ := List.mem_iff_getElem?.mp hwaiter
    refine inv.canMove_of_awaited hi hawaited fun other hother next hnext => ?_
    exact hmax next (List.mem_toFinset.mpr (List.mem_filterMap.mpr ⟨other, hother, hnext⟩))
  · by_cases hslot : ∃ phase ∈ s.tasks, phase.slots = 1
    · obtain ⟨phase, hphase, hslot⟩ := hslot
      obtain ⟨i, hi⟩ := List.mem_iff_getElem?.mp hphase
      refine canMove_of_free hi hslot (Option.eq_none_iff_forall_ne_some.mpr fun record heq => ?_)
      exact hwaiting ⟨phase, hphase, record, heq⟩
    · -- nobody has a slot, so one is free
      obtain ⟨phase, hphase, hactive⟩ := h
      obtain ⟨i, hi⟩ := List.mem_iff_getElem?.mp hphase
      have hfree : s.shared.fallbackSlots = maxConcurrent := by
        have htotal := inv.slots
        have hzero : (s.tasks.map MissPhase.slots).sum = 0 := by
          refine List.sum_eq_zero (List.forall_mem_map.mpr fun phase hphase => ?_)
          have hne := fun h => hslot ⟨phase, hphase, h⟩
          cases phase with
          | called | queued | ended => rfl
          | acquiring | waiting | leaving => exact absurd rfl hne
        rwa [total, hzero, Nat.add_zero] at htotal
      cases phase with
      | called => exact absurd rfl hactive.1
      | ended => exact absurd rfl hactive.2
      | queued records =>
        refine DbProxy.canMove hi .grant trivial ?_
        rw [CacheReadCoordinator.act, if_pos (hfree ▸ hslots)]
        rfl
      | acquiring | waiting | leaving => exact absurd ⟨_, hphase, rfl⟩ hslot

/-- A read begins. -/
def Begins : TaskEvent MissAction → Prop
  | .spawn => True
  | .act _ (.miss _) => True
  | _ => False

theorem act_cost {self self' : CacheReadCoordinator} {phase phase' : MissPhase}
    {action : MissAction} (hmiss : ∀ records, action ≠ .miss records)
    (h : self.act phase action = some (self', phase')) : phase'.cost < phase.cost := by
  revert h
  fun_cases CacheReadCoordinator.act self phase action with
  | case1 | case2 => exact absurd rfl (hmiss _)
  | case3 records hfree | case5 records | case6 guards record left after gate hfind
  | case8 guards gate left hfree | case9 guards | case10 guards left | case11 guards gate left
  | case12 gate guards | case13 =>
    rintro ⟨⟩
    simp only [MissPhase.cost, List.length_append, List.length_cons, List.length_nil]
    omega
  | _ => rintro ⟨⟩

/-- Every step on the way of a read brings its end nearer, also a failure. -/
theorem run_cost {events : List (TaskEvent MissAction)} (hbegins : ∀ e ∈ events, ¬ Begins e)
    (h : run readGatesStep s events = some t) :
    events.length + (t.tasks.map MissPhase.cost).sum ≤ (s.tasks.map MissPhase.cost).sum := by
  induction events generalizing s with
  | nil =>
    rw [run_nil, Option.some_inj] at h
    rw [h, List.length_nil, Nat.zero_add]
  | cons e events ih =>
    obtain ⟨m, hm, hrest⟩ := run_cons_eq_some.mp h
    have hlater := ih (fun e he => hbegins e (List.mem_cons_of_mem _ he)) hrest
    have hfirst := hbegins e (List.mem_cons_self ..)
    have hstep : (m.tasks.map MissPhase.cost).sum < (s.tasks.map MissPhase.cost).sum := by
      rcases TaskTable.step_cases hm with ⟨rfl, -⟩ | ⟨i, action, phase, _, phase', rfl, hphase, hact, rfl⟩
      · exact absurd trivial hfirst
      · obtain ⟨others, hsum, hset⟩ := exists_sum_others hphase MissPhase.cost
        have hlt := act_cost (fun records heq => hfirst (by rw [heq]; trivial)) hact
        rw [hset, hsum]
        omega
    rw [List.length_cons]
    omega

end Progress

/-! ### Every interleaving -/

def crossingRecords : List RecordKey := [⟨"player", "1"⟩, ⟨"player", "2"⟩]

/-- Three reads with two slots: the second finds the mutex of the first and waits for it, the
third waits for a slot. -/
def crossingReads : List (TaskEvent MissAction) :=
  [.spawn, .spawn, .spawn, .act 0 (.miss crossingRecords),
    .act 1 (.miss crossingRecords.reverse), .act 2 (.miss crossingRecords), .act 0 .grant,
    .act 1 .grant, .act 0 .findKey, .act 0 .lockKey, .act 1 .findKey, .act 0 .findKey,
    .act 0 .lockKey]

/-- What the gates promise: nobody shares a record, no more reads past the semaphore than
slots, each reader among them, a map that does not grow, and nothing left behind. -/
theorem read_gates_exclusive (maxConcurrent m : ℕ) (events : List (TaskEvent MissAction))
    (s : ReadGates) (hm : ∀ e ∈ events, AtMost m e)
    (hrun : run readGatesStep (.init maxConcurrent) events = some s) :
    (∀ (i j : ℕ) (phase phase' : MissPhase) (record : RecordKey), s.tasks[i]? = some phase →
      s.tasks[j]? = some phase' → record ∈ phase.guards.map Prod.fst →
      record ∈ phase'.guards.map Prod.fst → i = j) ∧
    (s.tasks.map MissPhase.slots).sum ≤ maxConcurrent ∧
    s.tasks.countP (fun phase => phase.loading ≠ []) ≤ (s.tasks.map MissPhase.slots).sum ∧
    s.shared.keyLocks.rows.length ≤ maxConcurrent * m ∧
    ((∀ phase ∈ s.tasks, ¬ phase.IsActive) → s.shared.fallbackSlots = maxConcurrent ∧
      ∀ mutex, s.shared.strong mutex = 0 ∧ s.shared.locked mutex = false) := by
  have hinit : SizeInv maxConcurrent m (.init maxConcurrent) :=
    ⟨gateInv_init maxConcurrent, by simp [ReadGates.init], Nat.zero_le _⟩
  have inv : SizeInv maxConcurrent m s := run_invariant_of
    (fun _ _ _ he hinv hstep => step_sizeInv he hinv hstep) hm hinit hrun
  exact ⟨fun _ _ _ _ _ hi hj => inv.gates.exclusive hi hj, inv.gates.slots_le,
    loading_le_slots s.tasks, inv.rows, inv.gates.resting⟩

theorem read_gates_exclusive_crossing : ∃ s,
    run readGatesStep (.init 2) crossingReads = some s ∧
      s.tasks.countP (fun phase => phase.loading ≠ []) = 1 ∧
      (s.tasks.map MissPhase.slots).sum ≤ 2 ∧ s.shared.keyLocks.rows.length ≤ 4 := by
  obtain ⟨s, hrun, hloading⟩ : ∃ s, run readGatesStep (.init 2) crossingReads = some s ∧
      s.tasks.countP (fun phase => phase.loading ≠ []) = 1 := exists_of_any (by decide)
  have hm : ∀ e ∈ crossingReads, AtMost 2 e := by
    simp [crossingReads, AtMost, crossingRecords]
  obtain ⟨-, hle, -, hrows, -⟩ := read_gates_exclusive 2 2 crossingReads s hm hrun
  exact ⟨s, hrun, hloading, hle, hrows⟩

/-- While someone reads, someone can go on by himself; and it takes boundedly many steps
until all who have begun are done, whatever fails on the way. -/
theorem read_gates_progress (maxConcurrent : ℕ) (events : List (TaskEvent MissAction))
    (s : ReadGates) (hslots : 0 < maxConcurrent)
    (hrun : run readGatesStep (.init maxConcurrent) events = some s) :
    ((∃ phase ∈ s.tasks, phase.IsActive) →
      ∃ i action t, action.IsOwn ∧ readGatesStep s (.act i action) = some t) ∧
    ∀ more t, (∀ e ∈ more, ¬ Begins e) → run readGatesStep s more = some t →
      more.length + (t.tasks.map MissPhase.cost).sum ≤ (s.tasks.map MissPhase.cost).sum :=
  ⟨(run_gateInv hrun).canMove hslots, fun _ _ hbegins hmore => run_cost hbegins hmore⟩

theorem read_gates_progress_crossing : ∃ s i action t,
    run readGatesStep (.init 2) crossingReads = some s ∧ action.IsOwn ∧
      readGatesStep s (.act i action) = some t := by
  obtain ⟨s, hrun, hloading⟩ : ∃ s, run readGatesStep (.init 2) crossingReads = some s ∧
      s.tasks.any (fun phase => phase.loading ≠ []) = true := exists_of_any (by decide)
  obtain ⟨phase, hphase, hloading⟩ := List.any_eq_true.mp hloading
  have hactive : phase.IsActive := by
    constructor <;> rintro rfl <;> cases hloading
  obtain ⟨i, action, t, hown, hstep⟩ :=
    (read_gates_progress 2 crossingReads s (by decide) hrun).1 ⟨phase, hphase, hactive⟩
  exact ⟨s, i, action, t, hrun, hown, hstep⟩

end DbProxy
