/-
Leases on records between processes (`try_acquire_fallback_lock`, `release_fallback_lock`).

Before a cache miss goes to PostgreSQL, a reader takes a lease on the record: a Redis key with
its own token and a lifetime.  A command may be executed after its sender has given up, or
never; the key may expire while its owner still reads.

* `fallbackLockToken_inj` — tokens of different readers are different;
* `leases_exclusive` — in every interleaving, live leases are exclusive, nobody releases the
  lease of another, and every lease ends by itself.
-/
import DbProxy.CacheScripts
import DbProxy.ExpiringKeys
import DbProxy.TaskTable

namespace DbProxy

open StepMachine TaskTable ExpiringKeys RedisSnapshotCache

/-! ### Tokens -/

/-- `fallback_lock_token`: process id, time in nanoseconds, sequence number. -/
def fallbackLockToken (pid nanos sequence : ℕ) : Bytes :=
  -- dbproxy-
  [100, 98, 112, 114, 111, 120, 121, 45] ++ (Decimal.bytes pid ++ 45 :: (Decimal.bytes nanos ++
    45 :: Decimal.bytes sequence))

theorem fallbackLockToken_inj {pid nanos sequence pid' nanos' sequence' : ℕ}
    (h : fallbackLockToken pid nanos sequence = fallbackLockToken pid' nanos' sequence') :
    pid = pid' ∧ nanos = nanos' ∧ sequence = sequence' := by
  have hdash : Decimal.isDigit 45 = false := rfl
  rw [fallbackLockToken, fallbackLockToken, List.append_cancel_left_eq] at h
  obtain ⟨hpid, h⟩ := Decimal.bytes_append_inj hdash h
  obtain ⟨hnanos, h⟩ := Decimal.bytes_append_inj hdash h
  exact ⟨hpid, hnanos, Decimal.bytes_injective h⟩

/-! ### Readers -/

/-- What a reader asks for; `process` is the one in which it runs. -/
structure FallbackLease where
  record : RecordKey
  process : ℕ
  nanos : ℕ
  sequence : ℕ
  leaseMs : ℕ
deriving DecidableEq, Repr

inductive LeaseCommand
  | acquire
  | release
deriving DecidableEq, Repr

inductive LeasePhase
  | new
  /-- awaits the answer to `acquire` -/
  | asking
  /-- another reader has the lease: looks into the cache and sleeps -/
  | contended
  /-- was told at this time of Redis that it has the lease -/
  | holding (since : ℕ)
  /-- awaits the answer to `release` -/
  | releasing
  | ended
deriving DecidableEq, Repr

structure LeaseReader where
  lease : Option FallbackLease := none
  phase : LeasePhase := .new
  /-- Commands on their way to Redis. -/
  sent : List LeaseCommand := []
deriving DecidableEq, Repr

structure LeaseServer where
  clock : ℕ := 0
  keys : ExpiringKeys := fun _ => none
  /-- `CACHE_FALLBACK_LOCK_SEQUENCE` of each process -/
  sequences : ℕ → ℕ := fun _ => 0

inductive LeaseAction
  | start (record : RecordKey) (process nanos leaseMs : ℕ)
  /-- Redis executes a command that was sent. -/
  | execute (n : ℕ)
  /-- A command is lost with its connection. -/
  | lose (n : ℕ)
  /-- An error, a timeout, a cancelled read, or a batch that stops; the lease is left to expire. -/
  | giveUp
  /-- The cache was not filled, and the wait is not over. -/
  | retry
  /-- The read is over. -/
  | release
  | tick (ms : ℕ)

section

variable (pid : ℕ → ℕ)

def FallbackLease.token (lease : FallbackLease) : Bytes :=
  fallbackLockToken (pid lease.process) lease.nanos lease.sequence

def FallbackLease.key (lease : FallbackLease) : String := fallbackLockKey lease.record

/-- Redis and the answer to the reader, if it still waits for one. -/
def LeaseServer.execute (s : LeaseServer) (lease : FallbackLease) (phase : LeasePhase) :
    LeaseCommand → LeaseServer × LeasePhase
  | .acquire =>
    let text := Decimal.bytes lease.leaseMs
    match (setNxPx s.clock lease.key (lease.token pid) text).run s.keys with
    -- whoever has given up does not get the answer
    | .ok granted keys =>
      ({ s with keys }, if phase ≠ .asking then phase
        else if granted then .holding s.clock else .contended)
    | .error _ keys => ({ s with keys }, if phase ≠ .asking then phase else .ended)
  | .release =>
    match (compareAndDelete s.clock lease.key (lease.token pid)).run s.keys with
    | .ok _ keys | .error _ keys =>
      ({ s with keys }, if phase ≠ .releasing then phase else .ended)

def LeaseServer.act (s : LeaseServer) (r : LeaseReader) :
    LeaseAction → Option (LeaseServer × LeaseReader)
  | .start record process nanos leaseMs =>
    if r.phase = .new then
      let lease := ⟨record, process, nanos, s.sequences process, leaseMs⟩
      some ({ s with sequences := Function.update s.sequences process (s.sequences process + 1) },
        ⟨some lease, .asking, [.acquire]⟩)
    else none
  | .execute n =>
    match r.lease, r.sent[n]? with
    | some lease, some command =>
      let (s, phase) := s.execute pid lease r.phase command
      some (s, { r with phase, sent := r.sent.eraseIdx n })
    | _, _ => none
  | .lose n => if n < r.sent.length then some (s, { r with sent := r.sent.eraseIdx n }) else none
  | .giveUp => if r.phase = .new then none else some (s, { r with phase := .ended })
  | .retry =>
    if r.phase = .contended then
      some (s, { r with phase := .asking, sent := r.sent ++ [.acquire] })
    else none
  | .release =>
    match r.phase with
    | .holding _ => some (s, { r with phase := .releasing, sent := r.sent ++ [.release] })
    | _ => none
  | .tick ms => some ({ s with clock := s.clock + ms }, r)

abbrev LeaseSystem := Table LeaseServer LeaseReader

def leaseStep : LeaseSystem → TaskEvent LeaseAction → Option LeaseSystem :=
  TaskTable.step {} (LeaseServer.act pid)

/-- Reader `i` was given the lease, and it has not expired. -/
def LeaseSystem.Live (s : LeaseSystem) (i : ℕ) (lease : FallbackLease) : Prop :=
  ∃ r since, s.tasks[i]? = some r ∧ r.lease = some lease ∧ r.phase = .holding since ∧
    s.shared.clock < since + lease.leaseMs

/-- Clocks and process ids tell the processes apart. -/
def DistinctProcesses (events : List (TaskEvent LeaseAction)) : Prop :=
  ∀ i record process nanos leaseMs i' record' process' nanos' leaseMs',
    .act i (.start record process nanos leaseMs) ∈ events →
    .act i' (.start record' process' nanos' leaseMs') ∈ events →
    process ≠ process' → (pid process, nanos) ≠ (pid process', nanos')

end

/-! ### The invariant -/

section Invariant

variable {pid : ℕ → ℕ} {events : List (TaskEvent LeaseAction)} {s t : LeaseSystem}

structure LeaseInv (pid : ℕ → ℕ) (events : List (TaskEvent LeaseAction)) (s : LeaseSystem) :
    Prop where
  unstarted : ∀ (i : ℕ) r, s.tasks[i]? = some r → r.phase = .new → r.lease = none
  started : ∀ (i : ℕ) r lease, s.tasks[i]? = some r → r.lease = some lease →
    lease.sequence < s.shared.sequences lease.process ∧
    ∃ j, .act j (.start lease.record lease.process lease.nanos lease.leaseMs) ∈ events
  numbered : ∀ (i j : ℕ) r r' lease lease', i ≠ j → s.tasks[i]? = some r →
    s.tasks[j]? = some r' → r.lease = some lease → r'.lease = some lease' →
    lease.process = lease'.process → lease.sequence ≠ lease'.sequence
  commands : ∀ (i : ℕ) r, s.tasks[i]? = some r → .release ∈ r.sent →
    r.phase = .releasing ∨ r.phase = .ended
  /-- A live lease is the value of its key. -/
  held : ∀ (i : ℕ) r lease since, s.tasks[i]? = some r → r.lease = some lease →
    r.phase = .holding since → s.shared.clock < since + lease.leaseMs →
    s.shared.keys lease.key = some ⟨lease.token pid, some (since + lease.leaseMs)⟩
  /-- A key is somebody's lease, and it expires. -/
  owned : ∀ key value, s.shared.keys key = some value →
    ∃ (i : ℕ) (r : LeaseReader) (lease : FallbackLease) (expiry : ℕ), s.tasks[i]? = some r ∧
      r.lease = some lease ∧ lease.key = key ∧ value = ⟨lease.token pid, some expiry⟩ ∧
      expiry ≤ s.shared.clock + lease.leaseMs

theorem lease_key_inj {lease lease' : FallbackLease} :
    lease.key = lease'.key ↔ lease.record = lease'.record := by
  constructor
  · intro h
    have hkeys : keyOf lease.record .fallbackLock = keyOf lease'.record .fallbackLock := h
    exact (keyOf_inj.mp hkeys).1
  · intro h
    rw [FallbackLease.key, FallbackLease.key, h]

theorem LeaseInv.token_ne (inv : LeaseInv pid events s) (hdistinct : DistinctProcesses pid events)
    {i j : ℕ} {r r' : LeaseReader} {lease lease' : FallbackLease} (hij : i ≠ j)
    (hi : s.tasks[i]? = some r) (hj : s.tasks[j]? = some r') (hlease : r.lease = some lease)
    (hlease' : r'.lease = some lease') : lease.token pid ≠ lease'.token pid := by
  intro h
  obtain ⟨hpid, hnanos, hsequence⟩ := fallbackLockToken_inj h
  obtain ⟨-, k, hk⟩ := inv.started i r lease hi hlease
  obtain ⟨-, k', hk'⟩ := inv.started j r' lease' hj hlease'
  by_cases hprocess : lease.process = lease'.process
  · exact inv.numbered i j r r' lease lease' hij hi hj hlease hlease' hprocess hsequence
  · exact hdistinct _ _ _ _ _ _ _ _ _ _ hk hk' hprocess (Prod.ext hpid hnanos)

theorem getElem?_set_cases {l : List LeaseReader} {i j : ℕ} {r x : LeaseReader}
    (h : (l.set i r)[j]? = some x) : (j = i ∧ x = r) ∨ (j ≠ i ∧ l[j]? = some x) := by
  rw [List.getElem?_set] at h
  by_cases hij : i = j
  · rw [if_pos hij] at h
    split at h
    · exact Or.inl ⟨hij.symm, (Option.some.inj h).symm⟩
    · cases h
  · rw [if_neg hij] at h
    exact Or.inr ⟨fun h' => hij h'.symm, h⟩

/-- A reader that keeps its lease moves, and the keys change only where nobody has a live lease
or where the new value is the lease of the reader. -/
theorem LeaseInv.moves (inv : LeaseInv pid events s) {i : ℕ} {r r' : LeaseReader}
    (keys : ExpiringKeys) (hr : s.tasks[i]? = some r) (hlease : r'.lease = r.lease)
    (hnew : r'.phase = .new → r.phase = .new)
    (hcommands : .release ∈ r'.sent → r'.phase = .releasing ∨ r'.phase = .ended)
    (hown : ∀ lease since, r.lease = some lease → r'.phase = .holding since →
      s.shared.clock < since + lease.leaseMs →
      keys lease.key = some ⟨lease.token pid, some (since + lease.leaseMs)⟩)
    (hothers : ∀ (j : ℕ) x lease since, j ≠ i → s.tasks[j]? = some x → x.lease = some lease →
      x.phase = .holding since → s.shared.clock < since + lease.leaseMs →
      keys lease.key = s.shared.keys lease.key)
    (howned : ∀ key value, keys key = some value → s.shared.keys key = some value ∨
      ∃ lease, r.lease = some lease ∧ lease.key = key ∧
        value = ⟨lease.token pid, some (s.shared.clock + lease.leaseMs)⟩) :
    LeaseInv pid events
      { shared := { s.shared with keys := keys }, tasks := s.tasks.set i r' } := by
  -- the reader of a place still has the lease that it had
  have hback : ∀ (j : ℕ) x, (s.tasks.set i r')[j]? = some x →
      ∃ y, s.tasks[j]? = some y ∧ y.lease = x.lease := by
    intro j x hx
    rcases getElem?_set_cases hx with ⟨rfl, rfl⟩ | ⟨-, hx⟩
    · exact ⟨r, hr, hlease.symm⟩
    · exact ⟨x, hx, rfl⟩
  refine ⟨?_, ?_, ?_, ?_, ?_, ?_⟩
  · intro j x hx hphase
    rcases getElem?_set_cases hx with ⟨rfl, rfl⟩ | ⟨-, hx⟩
    · rw [hlease]
      exact inv.unstarted j r hr (hnew hphase)
    · exact inv.unstarted j x hx hphase
  · intro j x lease hx hxlease
    obtain ⟨y, hy, hsame⟩ := hback j x hx
    exact inv.started j y lease hy (hsame.trans hxlease)
  · intro j k x x' lease lease' hjk hx hx' hxlease hxlease'
    obtain ⟨y, hy, hsame⟩ := hback j x hx
    obtain ⟨y', hy', hsame'⟩ := hback k x' hx'
    exact inv.numbered j k y y' lease lease' hjk hy hy' (hsame.trans hxlease)
      (hsame'.trans hxlease')
  · intro j x hx hrelease
    rcases getElem?_set_cases hx with ⟨rfl, rfl⟩ | ⟨-, hx⟩
    · exact hcommands hrelease
    · exact inv.commands j x hx hrelease
  · intro j x lease since hx hxlease hphase hlive
    rcases getElem?_set_cases hx with ⟨rfl, rfl⟩ | ⟨hji, hx⟩
    · exact hown lease since (hlease.symm.trans hxlease) hphase hlive
    · exact (hothers j x lease since hji hx hxlease hphase hlive).trans
        (inv.held j x lease since hx hxlease hphase hlive)
  · intro key value hvalue
    rcases howned key value hvalue with hold | ⟨lease, hrlease, hkey, rfl⟩
    · obtain ⟨j, x, lease, expiry, hx, hxlease, hkey, hval, hexpiry⟩ := inv.owned key value hold
      by_cases hji : j = i
      · subst hji
        obtain rfl := Option.some.inj (hx.symm.trans hr)
        obtain ⟨hlt, -⟩ := List.getElem?_eq_some_iff.mp hr
        exact ⟨j, r', lease, expiry, List.getElem?_set_self hlt, hlease.trans hxlease, hkey, hval,
          hexpiry⟩
      · exact ⟨j, x, lease, expiry, by rw [List.getElem?_set_ne (Ne.symm hji)]; exact hx, hxlease,
          hkey, hval, hexpiry⟩
    · obtain ⟨hlt, -⟩ := List.getElem?_eq_some_iff.mp hr
      exact ⟨i, r', lease, _, List.getElem?_set_self hlt, hlease.trans hrlease, hkey, rfl,
        Nat.le_refl _⟩

theorem LeaseInv.spawn (inv : LeaseInv pid events s) :
    LeaseInv pid events { s with tasks := s.tasks ++ [({} : LeaseReader)] } := by
  have hback : ∀ (i : ℕ) x, (s.tasks ++ [({} : LeaseReader)])[i]? = some x →
      s.tasks[i]? = some x ∨ x = {} := by
    intro i x hx
    rw [List.getElem?_append] at hx
    split at hx
    · exact Or.inl hx
    · exact Or.inr (List.mem_singleton.mp (List.mem_of_getElem? hx))
  have hkept : ∀ (i : ℕ) x lease, (s.tasks ++ [({} : LeaseReader)])[i]? = some x →
      x.lease = some lease → s.tasks[i]? = some x := by
    intro i x lease hx hlease
    rcases hback i x hx with hx | rfl
    · exact hx
    · cases hlease
  refine ⟨?_, ?_, ?_, ?_, ?_, ?_⟩
  · intro i x hx hphase
    rcases hback i x hx with hx | rfl
    · exact inv.unstarted i x hx hphase
    · rfl
  · intro i x lease hx hlease
    exact inv.started i x lease (hkept i x lease hx hlease) hlease
  · intro i j x x' lease lease' hij hx hx' hlease hlease'
    exact inv.numbered i j x x' lease lease' hij (hkept i x lease hx hlease)
      (hkept j x' lease' hx' hlease') hlease hlease'
  · intro i x hx hrelease
    rcases hback i x hx with hx | rfl
    · exact inv.commands i x hx hrelease
    · cases hrelease
  · intro i x lease since hx hlease
    exact inv.held i x lease since (hkept i x lease hx hlease) hlease
  · intro key value hvalue
    obtain ⟨i, x, lease, expiry, hx, hrest⟩ := inv.owned key value hvalue
    obtain ⟨hlt, -⟩ := List.getElem?_eq_some_iff.mp hx
    exact ⟨i, x, lease, expiry, by rw [List.getElem?_append_left hlt]; exact hx, hrest⟩

/-- A reader takes the next number of its process. -/
theorem LeaseInv.start (inv : LeaseInv pid events s) {i : ℕ} {r : LeaseReader}
    {record : RecordKey} {process nanos leaseMs : ℕ} (hr : s.tasks[i]? = some r)
    (hphase : r.phase = .new) (hevent : .act i (.start record process nanos leaseMs) ∈ events) :
    LeaseInv pid events
      { shared := { s.shared with
          sequences := Function.update s.shared.sequences process
            (s.shared.sequences process + 1) }
        tasks := s.tasks.set i
          ⟨some ⟨record, process, nanos, s.shared.sequences process, leaseMs⟩, .asking,
            [.acquire]⟩ } := by
  have hgrows : ∀ p, s.shared.sequences p ≤
      Function.update s.shared.sequences process (s.shared.sequences process + 1) p := by
    intro p
    rw [Function.update_apply]
    split
    · rename_i h
      rw [h]
      omega
    · exact Nat.le_refl _
  refine ⟨?_, ?_, ?_, ?_, ?_, ?_⟩
  · intro j x hx hnew
    rcases getElem?_set_cases hx with ⟨rfl, rfl⟩ | ⟨-, hx⟩
    · cases hnew
    · exact inv.unstarted j x hx hnew
  · intro j x lease hx hlease
    rcases getElem?_set_cases hx with ⟨rfl, rfl⟩ | ⟨-, hx⟩
    · -- the counter of the process is past the new number
      obtain rfl := Option.some.inj hlease
      refine ⟨?_, j, hevent⟩
      show s.shared.sequences process < Function.update s.shared.sequences process _ process
      rw [Function.update_self]
      exact Nat.lt_succ_self _
    · obtain ⟨hlt, hstarted⟩ := inv.started j x lease hx hlease
      exact ⟨Nat.lt_of_lt_of_le hlt (hgrows _), hstarted⟩
  · intro j k x x' lease lease' hjk hx hx' hlease hlease' hprocess
    rcases getElem?_set_cases hx with ⟨hj, rfl⟩ | ⟨-, hx⟩
    · rcases getElem?_set_cases hx' with ⟨hk, -⟩ | ⟨-, hx'⟩
      · exact absurd (hj.trans hk.symm) hjk
      · obtain rfl := Option.some.inj hlease
        obtain ⟨hlt, -⟩ := inv.started k x' lease' hx' hlease'
        rw [← hprocess] at hlt
        exact (Nat.ne_of_lt hlt).symm
    · rcases getElem?_set_cases hx' with ⟨-, rfl⟩ | ⟨-, hx'⟩
      · obtain rfl := Option.some.inj hlease'
        obtain ⟨hlt, -⟩ := inv.started j x lease hx hlease
        rw [hprocess] at hlt
        exact Nat.ne_of_lt hlt
      · exact inv.numbered j k x x' lease lease' hjk hx hx' hlease hlease' hprocess
  · intro j x hx hrelease
    rcases getElem?_set_cases hx with ⟨rfl, rfl⟩ | ⟨-, hx⟩
    · cases List.mem_singleton.mp hrelease
    · exact inv.commands j x hx hrelease
  · intro j x lease since hx hlease hholding hlive
    rcases getElem?_set_cases hx with ⟨rfl, rfl⟩ | ⟨-, hx⟩
    · cases hholding
    · exact inv.held j x lease since hx hlease hholding hlive
  · intro key value hvalue
    obtain ⟨j, x, lease, expiry, hx, hlease, hrest⟩ := inv.owned key value hvalue
    have hji : i ≠ j := by
      rintro rfl
      obtain rfl := Option.some.inj (hx.symm.trans hr)
      rw [inv.unstarted i x hr hphase] at hlease
      cases hlease
    exact ⟨j, x, lease, expiry, by rw [List.getElem?_set_ne hji]; exact hx, hlease, hrest⟩

theorem LeaseInv.tick (inv : LeaseInv pid events s) {i ms : ℕ} {r : LeaseReader}
    (hr : s.tasks[i]? = some r) :
    LeaseInv pid events
      { shared := { s.shared with clock := s.shared.clock + ms }, tasks := s.tasks.set i r } := by
  obtain ⟨hlt, rfl⟩ := List.getElem?_eq_some_iff.mp hr
  rw [List.set_getElem_self hlt]
  refine ⟨inv.unstarted, inv.started, inv.numbered, inv.commands, ?_, ?_⟩
  · intro j x lease since hx hlease hphase hlive
    exact inv.held j x lease since hx hlease hphase (by simp only at hlive; omega)
  · intro key value hvalue
    obtain ⟨j, x, lease, expiry, hx, hlease, hkey, hval, hexpiry⟩ := inv.owned key value hvalue
    exact ⟨j, x, lease, expiry, hx, hlease, hkey, hval, by simp only; omega⟩

/-- The keys stay, and no reader gets a lease. -/
theorem LeaseInv.answered (inv : LeaseInv pid events s) {i : ℕ} {r r' : LeaseReader}
    (hr : s.tasks[i]? = some r) (hlease : r'.lease = r.lease)
    (hphase : r'.phase = r.phase ∨ (r'.phase ≠ .new ∧ ∀ since, r'.phase ≠ .holding since))
    (hcommands : .release ∈ r'.sent → r'.phase = .releasing ∨ r'.phase = .ended) :
    LeaseInv pid events { s with tasks := s.tasks.set i r' } := by
  refine inv.moves s.shared.keys hr hlease ?_ hcommands ?_ ?_ ?_
  · intro hnew
    rcases hphase with hphase | ⟨hphase, -⟩
    · exact hphase.symm.trans hnew
    · exact absurd hnew hphase
  · intro lease since hrlease hholding hlive
    rcases hphase with hphase | ⟨-, hphase⟩
    · exact inv.held i r lease since hr hrlease (hphase.symm.trans hholding) hlive
    · exact absurd hholding (hphase since)
  · intro j x lease since _ _ _ _ _
    rfl
  · intro key value hvalue
    exact Or.inl hvalue

theorem execute_acquire (server : LeaseServer) (lease : FallbackLease) (phase : LeasePhase) :
    (∃ phase', server.execute pid lease phase .acquire = (server, phase') ∧
      (phase' = phase ∨ phase = .asking ∧ (phase' = .contended ∨ phase' = .ended))) ∨
    (visible server.clock server.keys lease.key = none ∧
      server.execute pid lease phase .acquire =
        ({ server with
            keys := Function.update server.keys lease.key
              (some ⟨lease.token pid, some (server.clock + lease.leaseMs)⟩) },
          if phase ≠ .asking then phase else .holding server.clock)) := by
  rcases setNxPx_cases server.clock server.keys lease.key (lease.token pid) lease.leaseMs with
    ⟨e, hrun⟩ | ⟨-, hrun⟩ | ⟨hvisible, -, hrun⟩
  · refine Or.inl ⟨_, by rw [LeaseServer.execute, hrun], ?_⟩
    by_cases hphase : phase = .asking
    · exact Or.inr ⟨hphase, Or.inr (if_neg (not_not_intro hphase))⟩
    · exact Or.inl (if_pos hphase)
  · refine Or.inl ⟨_, by rw [LeaseServer.execute, hrun], ?_⟩
    by_cases hphase : phase = .asking
    · exact Or.inr ⟨hphase, Or.inl (if_neg (not_not_intro hphase))⟩
    · exact Or.inl (if_pos hphase)
  · refine Or.inr ⟨hvisible, ?_⟩
    rw [LeaseServer.execute, hrun]
    rfl

theorem execute_release (pid : ℕ → ℕ) (server : LeaseServer) (lease : FallbackLease) (phase : LeasePhase) :
    ∃ keys, server.execute pid lease phase .release =
      ({ server with keys }, if phase ≠ .releasing then phase else .ended) ∧
      (keys = server.keys ∨ (visible server.clock server.keys lease.key = some (lease.token pid) ∧
        keys = Function.update server.keys lease.key none)) := by
  rcases compareAndDelete_cases server.clock server.keys lease.key (lease.token pid) with
    ⟨hvisible, hrun⟩ | ⟨-, hrun⟩
  · exact ⟨_, by rw [LeaseServer.execute, hrun], Or.inr ⟨hvisible, rfl⟩⟩
  · exact ⟨_, by rw [LeaseServer.execute, hrun], Or.inl rfl⟩

/-- A live lease is what everybody sees under its key. -/
theorem LeaseInv.visible_live (inv : LeaseInv pid events s) {i : ℕ} {lease : FallbackLease}
    (h : s.Live i lease) :
    visible s.shared.clock s.shared.keys lease.key = some (lease.token pid) := by
  obtain ⟨r, since, hr, hlease, hphase, hlive⟩ := h
  have halive : alive s.shared.clock ⟨lease.token pid, some (since + lease.leaseMs)⟩ = true := by
    simpa [alive] using hlive
  rw [visible, inv.held i r lease since hr hlease hphase hlive, Option.filter_some, halive]
  rfl

theorem LeaseInv.granted (inv : LeaseInv pid events s) {i : ℕ} {r : LeaseReader}
    {lease : FallbackLease} {sent : List LeaseCommand} (hr : s.tasks[i]? = some r)
    (hlease : r.lease = some lease) (hsent : .release ∈ sent → .release ∈ r.sent)
    (hfree : visible s.shared.clock s.shared.keys lease.key = none) :
    LeaseInv pid events
      { shared := { s.shared with
          keys := Function.update s.shared.keys lease.key
            (some ⟨lease.token pid, some (s.shared.clock + lease.leaseMs)⟩) }
        tasks := s.tasks.set i { r with
          phase := if r.phase ≠ .asking then r.phase else .holding s.shared.clock
          sent := sent } } := by
  refine inv.moves _ hr rfl ?_ ?_ ?_ ?_ ?_
  · intro hnew
    simp only at hnew
    split at hnew
    · exact hnew
    · cases hnew
  · intro hrelease
    have hphase := inv.commands i r hr (hsent hrelease)
    have hasking : r.phase ≠ .asking := by
      rcases hphase with hphase | hphase <;> rw [hphase] <;> decide
    simpa only [if_pos hasking] using hphase
  · intro lease' since hrlease hholding hlive
    obtain rfl := Option.some.inj (hlease.symm.trans hrlease)
    simp only at hholding
    split at hholding
    · -- it had the lease already, and then the key was not free
      rw [inv.visible_live ⟨r, since, hr, hlease, hholding, hlive⟩] at hfree
      cases hfree
    · obtain rfl := LeasePhase.holding.inj hholding
      rw [Function.update_self]
  · intro j x lease' since _ hx hxlease hholding hlive
    refine Function.update_of_ne ?_ _ _
    intro hkey
    have hvisible := inv.visible_live ⟨x, since, hx, hxlease, hholding, hlive⟩
    rw [hkey, hfree] at hvisible
    cases hvisible
  · intro key value hvalue
    by_cases hkey : key = lease.key
    · subst hkey
      rw [Function.update_self] at hvalue
      exact Or.inr ⟨lease, hlease, rfl, (Option.some.inj hvalue).symm⟩
    · rw [Function.update_of_ne hkey] at hvalue
      exact Or.inl hvalue

theorem LeaseInv.released (inv : LeaseInv pid events s) (hdistinct : DistinctProcesses pid events)
    {i : ℕ} {r : LeaseReader} {lease : FallbackLease} {sent : List LeaseCommand}
    {keys : ExpiringKeys} (hr : s.tasks[i]? = some r) (hlease : r.lease = some lease)
    (hphase : r.phase = .releasing ∨ r.phase = .ended)
    (hkeys : keys = s.shared.keys ∨
      (visible s.shared.clock s.shared.keys lease.key = some (lease.token pid) ∧
        keys = Function.update s.shared.keys lease.key none)) :
    LeaseInv pid events
      { shared := { s.shared with keys }
        tasks := s.tasks.set i { r with
          phase := if r.phase ≠ .releasing then r.phase else .ended
          sent := sent } } := by
  have hended : (if r.phase ≠ .releasing then r.phase else .ended) = .ended := by
    rcases hphase with hphase | hphase <;> rw [hphase] <;> rfl
  rw [hended]
  refine inv.moves _ hr rfl ?_ ?_ ?_ ?_ ?_
  · intro hnew
    cases hnew
  · intro _
    exact Or.inr rfl
  · intro lease' since _ hholding
    cases hholding
  · intro j x lease' since hji hx hxlease hholding hlive
    rcases hkeys with rfl | ⟨hvisible, rfl⟩
    · rfl
    · refine Function.update_of_ne ?_ _ _
      intro hkey
      -- the key has the token of the other one
      have htoken := inv.visible_live ⟨x, since, hx, hxlease, hholding, hlive⟩
      rw [hkey, hvisible] at htoken
      exact inv.token_ne hdistinct (Ne.symm hji) hr hx hlease hxlease (Option.some.inj htoken)
  · intro key value hvalue
    rcases hkeys with rfl | ⟨-, rfl⟩
    · exact Or.inl hvalue
    · by_cases hkey : key = lease.key
      · subst hkey
        rw [Function.update_self] at hvalue
        cases hvalue
      · rw [Function.update_of_ne hkey] at hvalue
        exact Or.inl hvalue

theorem LeaseInv.execute (inv : LeaseInv pid events s) (hdistinct : DistinctProcesses pid events)
    {i n : ℕ} {r : LeaseReader} {lease : FallbackLease} {command : LeaseCommand}
    (hr : s.tasks[i]? = some r) (hlease : r.lease = some lease)
    (hcommand : r.sent[n]? = some command) :
    LeaseInv pid events
      { shared := (s.shared.execute pid lease r.phase command).1
        tasks := s.tasks.set i { r with
          phase := (s.shared.execute pid lease r.phase command).2
          sent := r.sent.eraseIdx n } } := by
  cases command with
  | acquire =>
    rcases execute_acquire s.shared lease r.phase with ⟨phase', heq, hphase'⟩ | ⟨hfree, heq⟩
    · rw [heq]
      refine inv.answered hr rfl ?_ ?_
      · rcases hphase' with rfl | ⟨-, rfl | rfl⟩
        · exact Or.inl rfl
        · exact Or.inr ⟨LeasePhase.noConfusion, fun _ => LeasePhase.noConfusion⟩
        · exact Or.inr ⟨LeasePhase.noConfusion, fun _ => LeasePhase.noConfusion⟩
      · intro hrelease
        have hphase := inv.commands i r hr (List.mem_of_mem_eraseIdx hrelease)
        rcases hphase' with rfl | ⟨hasking, -⟩
        · exact hphase
        · rw [hasking] at hphase
          rcases hphase with hphase | hphase <;> cases hphase
    · rw [heq]
      exact inv.granted hr hlease List.mem_of_mem_eraseIdx hfree
  | release =>
    obtain ⟨keys, heq, hkeys⟩ := execute_release pid s.shared lease r.phase
    rw [heq]
    exact inv.released hdistinct hr hlease (inv.commands i r hr (List.mem_of_getElem? hcommand))
      hkeys

theorem leaseStep_inv (hdistinct : DistinctProcesses pid events) {e : TaskEvent LeaseAction}
    (he : e ∈ events) (inv : LeaseInv pid events s) (h : leaseStep pid s e = some t) :
    LeaseInv pid events t := by
  rcases TaskTable.step_cases h with ⟨-, rfl⟩ | ⟨i, action, r, server, r', rfl, hr, hact, rfl⟩
  · exact inv.spawn
  · cases action with
    | start record process nanos leaseMs =>
      rw [LeaseServer.act] at hact
      split at hact
      · rename_i hphase
        cases hact
        exact inv.start hr hphase he
      · cases hact
    | execute n =>
      rw [LeaseServer.act] at hact
      split at hact
      · rename_i lease command hlease hcommand
        cases hact
        rw [hlease]
        have hinv := inv.execute hdistinct hr hlease hcommand
        rw [hlease] at hinv
        exact hinv
      · cases hact
    | lose n =>
      rw [LeaseServer.act] at hact
      split at hact
      · cases hact
        exact inv.answered hr rfl (Or.inl rfl) fun hrelease =>
          inv.commands i r hr (List.mem_of_mem_eraseIdx hrelease)
      · cases hact
    | giveUp =>
      rw [LeaseServer.act] at hact
      split at hact
      · cases hact
      · cases hact
        exact inv.answered hr rfl (Or.inr ⟨LeasePhase.noConfusion, fun _ => LeasePhase.noConfusion⟩)
          fun _ => Or.inr rfl
    | retry =>
      rw [LeaseServer.act] at hact
      split at hact
      · rename_i hphase
        cases hact
        refine inv.answered hr rfl
          (Or.inr ⟨LeasePhase.noConfusion, fun _ => LeasePhase.noConfusion⟩) fun hrelease => ?_
        rcases List.mem_append.mp hrelease with hrelease | hrelease
        · have hreleased := inv.commands i r hr hrelease
          rw [hphase] at hreleased
          rcases hreleased with hreleased | hreleased <;> cases hreleased
        · cases List.mem_singleton.mp hrelease
      · cases hact
    | release =>
      rw [LeaseServer.act] at hact
      split at hact
      · cases hact
        exact inv.answered hr rfl (Or.inr ⟨LeasePhase.noConfusion, fun _ => LeasePhase.noConfusion⟩)
          fun _ => Or.inl rfl
      · cases hact
    | tick ms =>
      cases hact
      exact inv.tick hr

theorem leaseInv_init : LeaseInv pid events ⟨{}, []⟩ := by
  refine ⟨?_, ?_, ?_, ?_, ?_, ?_⟩
  all_goals intros
  all_goals simp_all

theorem leaseInv_run (hdistinct : DistinctProcesses pid events)
    (h : run (leaseStep pid) ⟨{}, []⟩ events = some s) : LeaseInv pid events s :=
  run_invariant_of (Q := (· ∈ events))
    (fun _ _ _ he inv hstep => leaseStep_inv hdistinct he inv hstep) (fun _ he => he)
    leaseInv_init h

theorem LeaseInv.expires (inv : LeaseInv pid events s) {key : String} {value : ExpiringValue}
    (hvalue : s.shared.keys key = some value) :
    ∃ (i : ℕ) (r : LeaseReader) (lease : FallbackLease), s.tasks[i]? = some r ∧
      r.lease = some lease ∧ lease.key = key ∧ value.bytes = lease.token pid ∧
      ∀ ms, lease.leaseMs ≤ ms → visible (s.shared.clock + ms) s.shared.keys key = none := by
  obtain ⟨i, r, lease, expiry, hr, hlease, hkey, rfl, hexpiry⟩ := inv.owned key value hvalue
  refine ⟨i, r, lease, hr, hlease, hkey, rfl, fun ms hms => ?_⟩
  have hdead : alive (s.shared.clock + ms) ⟨lease.token pid, some expiry⟩ = false := by
    rw [alive, Option.all_some, decide_eq_false_iff_not]
    omega
  rw [visible, hvalue, Option.filter_some, hdead]
  rfl

theorem acquire_free {i n : ℕ} {r : LeaseReader} {lease : FallbackLease}
    (hr : s.tasks[i]? = some r) (hlease : r.lease = some lease) (hphase : r.phase = .asking)
    (hsent : r.sent[n]? = some .acquire)
    (hfree : visible s.shared.clock s.shared.keys lease.key = none) (hpos : 0 < lease.leaseMs)
    (hend : s.shared.clock + lease.leaseMs < timeLimit) :
    ∃ t, leaseStep pid s (.act i (.execute n)) = some t ∧ t.Live i lease := by
  obtain ⟨hlt, -⟩ := List.getElem?_eq_some_iff.mp hr
  have hact : s.shared.act pid r (.execute n) =
      some ({ s.shared with
          keys := Function.update s.shared.keys lease.key
            (some ⟨lease.token pid, some (s.shared.clock + lease.leaseMs)⟩) },
        { r with phase := .holding s.shared.clock, sent := r.sent.eraseIdx n }) := by
    rw [LeaseServer.act, hlease, hsent]
    simp only [LeaseServer.execute, setNxPx_free hfree (lease.token pid) hpos hend, hphase]
    rfl
  refine ⟨_, step_act hr hact, _, s.shared.clock, List.getElem?_set_self hlt, hlease, rfl, ?_⟩
  show s.shared.clock < s.shared.clock + lease.leaseMs
  omega

/-- **Leases.**  In every interleaving of readers, lost and late commands and passing time no
two readers have live leases on one record, a live lease is still under its key, every key goes
away within the lifetime of its lease, and a reader that asks for a free record gets it. -/
theorem leases_exclusive (hdistinct : DistinctProcesses pid events)
    (h : run (leaseStep pid) ⟨{}, []⟩ events = some s) :
    (∀ i j lease lease', i ≠ j → s.Live i lease → s.Live j lease' →
      lease.record ≠ lease'.record) ∧
    (∀ i lease, s.Live i lease →
      visible s.shared.clock s.shared.keys lease.key = some (lease.token pid)) ∧
    (∀ key value, s.shared.keys key = some value →
      ∃ (i : ℕ) (r : LeaseReader) (lease : FallbackLease), s.tasks[i]? = some r ∧
        r.lease = some lease ∧ lease.key = key ∧ value.bytes = lease.token pid ∧
        ∀ ms, lease.leaseMs ≤ ms → visible (s.shared.clock + ms) s.shared.keys key = none) ∧
    ∀ (i n : ℕ) r lease, s.tasks[i]? = some r → r.lease = some lease → r.phase = .asking →
      r.sent[n]? = some .acquire → visible s.shared.clock s.shared.keys lease.key = none →
      0 < lease.leaseMs → s.shared.clock + lease.leaseMs < timeLimit →
      ∃ t, leaseStep pid s (.act i (.execute n)) = some t ∧ t.Live i lease := by
  have inv := leaseInv_run hdistinct h
  refine ⟨?_, fun i lease hlive => inv.visible_live hlive,
    fun key value hvalue => inv.expires hvalue,
    fun i n r lease hr hlease hphase hsent hfree hpos hend =>
      acquire_free hr hlease hphase hsent hfree hpos hend⟩
  -- the tokens of both would be the value of one key
  intro i j lease lease' hij hlive hlive' hrecord
  have hvisible := inv.visible_live hlive
  rw [lease_key_inj.mpr hrecord, inv.visible_live hlive'] at hvisible
  obtain ⟨r, since, hr, hlease, -⟩ := hlive
  obtain ⟨r', since', hr', hlease', -⟩ := hlive'
  exact inv.token_ne hdistinct (Ne.symm hij) hr' hr hlease' hlease (Option.some.inj hvisible)

end Invariant

/-- The lease of the first reader expires, the second reader gets it, and the release of the
first one comes too late. -/
def lateRelease : List (TaskEvent LeaseAction) :=
  [.spawn, .spawn, .act 0 (.start ⟨"player", "1"⟩ 0 7 10), .act 1 (.start ⟨"player", "1"⟩ 1 7 10),
    .act 0 (.execute 0), .act 1 (.execute 0), .act 0 (.tick 10), .act 1 .retry,
    .act 1 (.execute 0), .act 0 .release, .act 0 (.execute 0)]

theorem leases_exclusive_late :
    ∃ s, run (leaseStep id) ⟨{}, []⟩ lateRelease = some s ∧
      s.tasks.map (·.phase) = [.ended, .holding 10] ∧
      ∀ i lease, s.Live i lease →
        visible s.shared.clock s.shared.keys lease.key = some (lease.token id) := by
  have hdistinct : DistinctProcesses id lateRelease :=
    fun _ _ _ _ _ _ _ _ _ _ _ _ hne h => hne (congrArg Prod.fst h)
  obtain ⟨s, hrun, hphases⟩ := exists_of_any (o := run (leaseStep id) ⟨{}, []⟩ lateRelease)
    (p := fun s => s.tasks.map (·.phase) = [.ended, .holding 10]) (by decide +kernel)
  exact ⟨s, hrun, hphases, (leases_exclusive hdistinct hrun).2.1⟩

end DbProxy
