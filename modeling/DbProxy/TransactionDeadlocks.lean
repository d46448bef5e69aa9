/-
Deadlocks of the request transactions.

A transaction waits for another one that holds the lock of its next statement.  Whoever
keeps to the order of locks waits only for what comes later than everything it holds, so
that no cycle arises.  `commit_records` and `apply_trade` leave the order once, after the
lock loop, when they write rows that the loop could not lock: a snapshot that was absent
and the cache repairs.

* `TxSystem.MayDelay` — which batches and retries can keep a transaction waiting that has
  taken its locks;
* `step_of_writing`, `step_of_delaying` — where a cycle would go on from such a transaction,
  and from who delays it;
* `transactions_deadlock_free` — the runs without cycles;
* `commit_batch_deadlock` — a commit and a batch that wait for each other.
-/
import DbProxy.TransactionHoldings
import DbProxy.WaitCycles

namespace DbProxy

open Relation StepMachine WaitCycles

/-! ### Where deadlocks come from -/

namespace TxSystem

variable (hash : String → ℤ) (db₀ : TxDb) (s : TxSystem)

/-- The transaction `i` has a statement on the row. -/
def Uses (i : ℕ) (row : LockRow) : Prop :=
  ∃ tx, s.txs[i]? = some tx ∧ .row row ∈ tx.plan.targets

def Touches (i : ℕ) (record : RecordKey) : Prop :=
  s.Uses i (.snapshot record) ∨ s.Uses i (.repair record)

/-- A `commit_records` or an `apply_trade` that is no retry. -/
def IsLocking (i : ℕ) : Prop := ∃ tx, s.txs[i]? = some tx ∧ tx.plan.locking = true

/-- Two transactions have a lock in common. -/
def Meets (i j : ℕ) : Prop :=
  ∃ tx other, s.txs[i]? = some tx ∧ s.txs[j]? = some other ∧
    ∃ a ∈ tx.plan.targets, ∃ b ∈ other.plan.targets, a.resource hash = b.resource hash

/-- `MayDelay c q record`: after its lock loop `c` may have to wait for the batch or retry
`q`, which has reached `record`.  Either `c` writes the record, and the loop could not lock
what `q` takes: the row was absent, or `q` only repeats the repair.  Or the one that `c`
waits for has come to a later record, where it meets `q`. -/
inductive MayDelay (c : ℕ) : ℕ → RecordKey → Prop
  | first {q : ℕ} {record : RecordKey} : s.IsLocking c → s.Touches c record →
      ¬ s.IsLocking q → s.Touches q record →
      (db₀.snapshots record = none ∨ ¬ s.Uses q (.snapshot record)) → MayDelay c q record
  | next {q q' : ℕ} {record later : RecordKey} : MayDelay c q record → record < later →
      s.Touches q later → ¬ s.IsLocking q' → s.Touches q' later → MayDelay c q' later

/-- What the requests of a run without deadlocks have in common. -/
structure KeepsOrder : Prop where
  /-- The names of advisory locks have different hashes. -/
  names : ∀ tx ∈ s.txs, ∀ other ∈ s.txs, ∀ a b : LockName, .advisory a ∈ tx.plan.targets →
    .advisory b ∈ other.plan.targets → hash a.key = hash b.key → a.key = b.key
  /-- A batch that delays `c` does not go on to write a record that `c`, or a commit or trade
  that leads back to `c` without this batch, has locked.  Only a row that is there can be
  locked. -/
  noReturn : ∀ (c q : ℕ) (record later : RecordKey), s.MayDelay db₀ c q record → record < later →
    s.Uses q (.snapshot later) → ∀ c', s.IsLocking c' → s.Uses c' (.snapshot later) →
    (db₀.snapshots later ≠ none ∨ ∃ k, k ≠ q ∧ k ≠ c' ∧ s.Uses k (.snapshot later)) →
    ¬ ReflTransGen (fun i j => i ≠ q ∧ j ≠ q ∧ s.Meets hash i j) c' c

variable {hash db₀ s} {c q i j : ℕ} {record : RecordKey}

theorem MayDelay.isLocking (h : s.MayDelay db₀ c q record) : s.IsLocking c := by
  induction h with
  | first hc => exact hc
  | next _ _ _ _ _ ih => exact ih

theorem MayDelay.of_retried (h : s.MayDelay db₀ c q record) (hlocking : ¬ s.IsLocking i)
    (htouches : s.Touches i record) (hretried : ¬ s.Uses i (.snapshot record)) :
    s.MayDelay db₀ c i record := by
  cases h with
  | first hc hrecord _ _ _ => exact .first hc hrecord hlocking htouches (.inr hretried)
  | next h hlt hq _ _ => exact .next h hlt hq hlocking htouches

end TxSystem

/-! ### The order within one transaction -/

namespace Tx.Sound

variable {db₀ db : TxDb} {tx : Tx} {st a g : LockStatement}

theorem mem_targets (h : tx.Sound db₀ db) {target : LockTarget} (htarget : target ∈ tx.held) :
    target ∈ tx.plan.targets := by
  obtain ⟨a, ha, rfl⟩ := h.held target htarget
  exact List.mem_map_of_mem (List.mem_of_mem_take ha)

/-- A batch or a retry goes upwards. -/
theorem precedes_of_light (h : tx.Sound db₀ db) (hst : tx.statement = some st)
    (hlocking : tx.plan.locking = false) (ha : a ∈ tx.executed) : Precedes a st := by
  have hrising := h.shaped.rising hlocking
  rw [Rising, statements_eq hst] at hrising
  exact (List.pairwise_append.mp hrising).2.2 a ha st (List.mem_cons_self ..)

/-- A commit or trade goes upwards twice. -/
theorem precedes_of_locking (h : tx.Sound db₀ db) (hst : tx.statement = some st)
    (hlocking : tx.plan.locking = true) (ha : a ∈ tx.executed) :
    a.isWrite = st.isWrite ∧ Precedes a st ∨ a.isWrite = false ∧ st.isWrite = true := by
  have hphases := h.shaped.phases hlocking
  rw [statements_eq hst] at hphases
  exact (List.pairwise_append.mp hphases).2.2 a ha st (List.mem_cons_self ..)

/-- After the lock loop all of it is executed. -/
theorem mem_executed_of_isWrite (h : tx.Sound db₀ db) (hst : tx.statement = some st)
    (hlocking : tx.plan.locking = true) (hwrite : st.isWrite = true)
    (hg : g ∈ tx.plan.statements) (hlock : g.isWrite = false) : g ∈ tx.executed := by
  have hphases := h.shaped.phases hlocking
  rw [statements_eq hst] at hg hphases
  rcases List.mem_append.mp hg with hg | hg
  · exact hg
  · rcases List.mem_cons.mp hg with rfl | hg
    · exact absurd hwrite (by simp [hlock])
    · have hafter := (List.pairwise_cons.mp (List.pairwise_append.mp hphases).2.1).1 g hg
      simp [hwrite, hlock] at hafter

/-- The advisory lock comes before the rows that it guards. -/
theorem mem_held_of_guard (h : tx.Sound db₀ db) (hst : tx.statement = some st)
    (hlocking : tx.plan.locking = true) {name : LockName}
    (hg : .advisoryXactLock name ∈ tx.plan.statements) (ha : a ∈ tx.executed ∨ a = st)
    (hlt : (LockTarget.advisory name).position < a.target.position) :
    .advisory name ∈ tx.held := by
  have hphases := h.shaped.phases hlocking
  refine h.advisory hlocking (statement_eq_some.mp hst).1 name ?_
  rw [statements_eq hst] at hg hphases
  have hnot : ¬ (a.isWrite = (LockStatement.advisoryXactLock name).isWrite ∧
      Precedes a (.advisoryXactLock name) ∨
      a.isWrite = false ∧ (LockStatement.advisoryXactLock name).isWrite = true) := by
    rintro (⟨-, heq | hlt'⟩ | ⟨-, hwrite⟩)
    · rw [heq] at hlt
      exact lt_irrefl _ hlt
    · exact lt_asymm hlt hlt'
    · cases hwrite
  rcases List.mem_append.mp hg with hg | hg
  · exact hg
  · rcases ha with ha | rfl
    · exact absurd ((List.pairwise_append.mp hphases).2.2 a ha _ hg) hnot
    · rcases List.mem_cons.mp hg with rfl | hg
      · exact absurd hlt (lt_irrefl _)
      · exact absurd ((List.pairwise_cons.mp (List.pairwise_append.mp hphases).2.1).1 _ hg) hnot

end Tx.Sound

/-! ### Along a cycle -/

section Cycles

variable {hash : String → ℤ} {db₀ : TxDb} {s : TxSystem} {i j : ℕ} {tx other : Tx}
  {st st' a : LockStatement}

/-- `i` waits for `j`, which waits for a third one. -/
structure WaitEdge (s : TxSystem) (i j : ℕ) (tx other : Tx) (st st' : LockStatement) : Prop where
  waiting : s.txs[i]? = some tx
  holding : s.txs[j]? = some other
  ne : i ≠ j
  next : tx.statement = some st
  next' : other.statement = some st'
  held : st.target ∈ other.held
  free : st'.target ∉ other.held

/-- A lock is told by its resource. -/
theorem target_eq_of_resource (inv : TxInv hash db₀ s) (order : s.KeepsOrder hash db₀)
    (htx : tx ∈ s.txs) (hother : other ∈ s.txs) {target target' : LockTarget}
    (htarget : target ∈ other.held) (htarget' : target' ∈ tx.plan.targets)
    (hsame : target.resource hash = target'.resource hash) : target = target' := by
  have hmem := (inv.sound other hother).mem_targets htarget
  cases target with
  | advisory name =>
    cases target' with
    | advisory name' =>
      have hkey := order.names other hother tx htx name name' hmem htarget'
        (LockResource.advisory.inj hsame)
      rw [LockName.key_injective hkey]
    | row => cases hsame
  | row =>
    cases target' with
    | advisory => cases hsame
    | row => rw [LockResource.row.inj hsame]

theorem exists_held (inv : TxInv hash db₀ s) (order : s.KeepsOrder hash db₀)
    (h : s.waitsFor hash i j = true) : ∃ tx other st, s.txs[i]? = some tx ∧
      s.txs[j]? = some other ∧ i ≠ j ∧ tx.statement = some st ∧ st.target ∈ other.held := by
  obtain ⟨tx, st, other, target, hi, hst, hj, hij, htarget, hsame⟩ := TxSystem.exists_of_waitsFor h
  obtain rfl := target_eq_of_resource inv order (List.mem_of_getElem? hi) (List.mem_of_getElem? hj)
    htarget (Tx.target_mem hst) hsame
  exact ⟨tx, other, st, hi, hj, hij, hst, htarget⟩

theorem rows_of_mem {record : RecordKey} {target : LockTarget} {targets : List LockTarget}
    (h : target = .row (.snapshot record) ∨ target = .row (.repair record))
    (hmem : target ∈ targets) :
    .row (.snapshot record) ∈ targets ∨ .row (.repair record) ∈ targets := by
  rcases h with rfl | rfl
  · exact .inl hmem
  · exact .inr hmem

theorem TxSystem.touches_of_mem {record : RecordKey} {target : LockTarget}
    (hi : s.txs[i]? = some tx)
    (h : target = .row (.snapshot record) ∨ target = .row (.repair record))
    (hmem : target ∈ tx.plan.targets) : s.Touches i record :=
  (rows_of_mem h hmem).imp (fun h => ⟨tx, hi, h⟩) fun h => ⟨tx, hi, h⟩

/-- What one transaction holds, another one does not. -/
theorem TxInv.not_held (inv : TxInv hash db₀ s) (hi : s.txs[i]? = some tx)
    (hj : s.txs[j]? = some other) (hij : i ≠ j) {target : LockTarget} (htarget : target ∈ tx.held) :
    target ∉ other.held :=
  fun hother => inv.disjoint i j tx other hi hj hij target htarget target hother rfl

theorem exists_waitEdge (inv : TxInv hash db₀ s) (order : s.KeepsOrder hash db₀)
    (h : s.waitsFor hash i j = true)
    (hback : TransGen (fun i j => s.waitsFor hash i j = true) j i) :
    ∃ tx other st st', WaitEdge s i j tx other st st' := by
  obtain ⟨k, hjk⟩ := exists_waits_of_transGen hback
  obtain ⟨tx, other, st, hi, hj, hij, hst, hheld⟩ := exists_held inv order h
  obtain ⟨other', third, st', hj', hk, hjk, hst', hheld'⟩ := exists_held inv order hjk
  obtain rfl : other = other' := Option.some.inj (hj.symm.trans hj')
  exact ⟨tx, other, st, st', hi, hj, hij, hst, hst', hheld,
    inv.not_held hk hj (Ne.symm hjk) hheld'⟩

namespace WaitEdge

theorem sound (e : WaitEdge s i j tx other st st') (inv : TxInv hash db₀ s) : tx.Sound db₀ s.db :=
  inv.sound tx (List.mem_of_getElem? e.waiting)

theorem sound' (e : WaitEdge s i j tx other st st') (inv : TxInv hash db₀ s) :
    other.Sound db₀ s.db :=
  inv.sound other (List.mem_of_getElem? e.holding)

/-- The waiting one does not hold what it waits for. -/
theorem not_held (e : WaitEdge s i j tx other st st') (inv : TxInv hash db₀ s) :
    st.target ∉ tx.held :=
  inv.not_held e.holding e.waiting e.ne.symm e.held

/-- A lock has one holder. -/
theorem eq_of_waitsFor (e : WaitEdge s i j tx other st st') (inv : TxInv hash db₀ s)
    (order : s.KeepsOrder hash db₀) {k : ℕ} (h : s.waitsFor hash i k = true) : k = j := by
  obtain ⟨tx', third, stX, hi, hk, -, hnext, hheld⟩ := exists_held inv order h
  obtain rfl : tx = tx' := Option.some.inj (e.waiting.symm.trans hi)
  obtain rfl : st = stX := Option.some.inj (e.next.symm.trans hnext)
  by_contra hkj
  exact inv.not_held hk e.holding hkj hheld e.held

/-- The one that is waited for has come further. -/
theorem lt_of_precedes (e : WaitEdge s i j tx other st st') (ha : a.target = st.target)
    (h : Precedes a st') : st.target.position < st'.target.position := by
  rcases h with heq | hlt
  · exact absurd (ha.symm.trans heq ▸ e.held) e.free
  · exact ha ▸ hlt

/-- Only one of two transactions is behind an advisory lock. -/
theorem not_guarded (e : WaitEdge s i j tx other st st') (inv : TxInv hash db₀ s)
    (hlocking : tx.plan.locking = true) (hlocking' : other.plan.locking = true) {name : LockName}
    (hg : .advisoryXactLock name ∈ tx.plan.statements)
    (hg' : .advisoryXactLock name ∈ other.plan.statements)
    (hlt : (LockTarget.advisory name).position < st.target.position) : False := by
  obtain ⟨a, ha, hatarget⟩ := (e.sound' inv).held _ e.held
  have hheld := (e.sound inv).mem_held_of_guard e.next hlocking hg (.inr rfl) hlt
  have hheld' := (e.sound' inv).mem_held_of_guard e.next' hlocking' hg' (.inl ha)
    (hatarget ▸ hlt)
  exact inv.not_held e.waiting e.holding e.ne hheld hheld'

end WaitEdge

/-- A commit or trade that has left its lock loop. -/
def TxSystem.Writing (s : TxSystem) (i : ℕ) : Prop :=
  ∃ tx st, s.txs[i]? = some tx ∧ tx.statement = some st ∧ tx.plan.locking = true ∧
    st.isWrite = true

/-- A batch or retry that holds a row on which it may delay a transaction, and that waits
for this transaction in the end. -/
def TxSystem.Delaying (hash : String → ℤ) (db₀ : TxDb) (s : TxSystem) (i : ℕ) : Prop :=
  ∃ c record tx target, s.MayDelay db₀ c i record ∧ s.txs[i]? = some tx ∧
    tx.plan.locking = false ∧ target ∈ tx.held ∧
    (target = .row (.snapshot record) ∨ target = .row (.repair record)) ∧
    TransGen (fun i j => s.waitsFor hash i j = true) i c

namespace WaitEdge

/-- Whoever waits for a row that is written after the lock loop waits for someone in its
writes. -/
theorem writing_of_isWrite (e : WaitEdge s i j tx other st st') (inv : TxInv hash db₀ s)
    (hlocking : other.plan.locking = true) (ha : a ∈ other.executed)
    (hatarget : a.target = st.target) (hwrite : a.isWrite = true) :
    s.Writing j ∧ st.target.position < st'.target.position := by
  rcases (e.sound' inv).precedes_of_locking e.next' hlocking ha with
    ⟨hphase, hprecedes⟩ | ⟨hlock, -⟩
  · exact ⟨⟨other, st', e.holding, e.next', hlocking, hphase ▸ hwrite⟩,
      e.lt_of_precedes hatarget hprecedes⟩
  · exact absurd hwrite (by simp [hlock])

theorem position_lt_of_light (e : WaitEdge s i j tx other st st') (inv : TxInv hash db₀ s)
    (hlocking : other.plan.locking = false) : st.target.position < st'.target.position := by
  obtain ⟨a, ha, hatarget⟩ := (e.sound' inv).held _ e.held
  exact e.lt_of_precedes hatarget ((e.sound' inv).precedes_of_light e.next' hlocking ha)

/-- A commit or trade waits for the row of a record only if a batch or retry holds it. -/
theorem light_of_record (e : WaitEdge s i j tx other st st') (inv : TxInv hash db₀ s)
    (hlocking : tx.plan.locking = true) {record : RecordKey}
    (hrecord : st.target = .row (.snapshot record) ∨ st.target = .row (.repair record)) :
    other.plan.locking = false := by
  cases hlocking' : other.plan.locking with
  | false => rfl
  | true =>
    exfalso
    obtain ⟨hg, -⟩ := (e.sound inv).shaped.recordGuard hlocking record
      (rows_of_mem hrecord (Tx.target_mem e.next))
    obtain ⟨hg', -⟩ := (e.sound' inv).shaped.recordGuard hlocking' record
      (rows_of_mem hrecord ((e.sound' inv).mem_targets e.held))
    refine e.not_guarded inv hlocking hlocking' hg hg' (LockTarget.position_lt.mpr ?_)
    rcases hrecord with h | h <;> rw [h]
    · exact .inr ⟨rfl, .inr ⟨rfl, Nat.zero_lt_one⟩⟩
    · exact .inr ⟨rfl, .inr ⟨rfl, Nat.zero_lt_two⟩⟩

/-- Other rows belong to commits and trades. -/
theorem locking_of_row (e : WaitEdge s i j tx other st st') (inv : TxInv hash db₀ s)
    (hrow : ∀ record, st.target ≠ .row (.snapshot record) ∧ st.target ≠ .row (.repair record)) :
    other.plan.locking = true := by
  cases hlocking : other.plan.locking with
  | true => rfl
  | false =>
    obtain ⟨a, ha, hatarget⟩ := (e.sound' inv).held _ e.held
    obtain ⟨record, h⟩ :=
      (e.sound' inv).shaped.records hlocking a (List.mem_of_mem_take ha)
    rw [hatarget] at h
    exact absurd h (not_or.mpr (hrow record))

theorem not_isLocking (e : WaitEdge s i j tx other st st') (hlocking : other.plan.locking = false) :
    ¬ s.IsLocking j := by
  rintro ⟨other', hj, hlocking'⟩
  obtain rfl : other = other' := Option.some.inj (e.holding.symm.trans hj)
  exact Bool.false_ne_true (hlocking.symm.trans hlocking')

end WaitEdge

/-- The record that a batch or retry delays: the lock loop could not lock it. -/
theorem delaying_of_writing (inv : TxInv hash db₀ s) (e : WaitEdge s i j tx other st st')
    (hlocking : tx.plan.locking = true) (hwrite : st.isWrite = true)
    (hback : TransGen (fun i j => s.waitsFor hash i j = true) j i) {record : RecordKey}
    (hrecord : st.target = .row (.snapshot record) ∨ st.target = .row (.repair record)) :
    s.Delaying hash db₀ j := by
  have hsound := e.sound inv
  have hlight := e.light_of_record inv hlocking hrecord
  have hmem : st.target ∈ tx.plan.targets := Tx.target_mem e.next
  obtain ⟨-, expected, hselect⟩ := hsound.shaped.recordGuard hlocking record
    (rows_of_mem hrecord hmem)
  have hselected := hsound.selected hlocking (Tx.statement_eq_some.mp e.next).1 record expected
    (hsound.mem_executed_of_isWrite e.next hlocking hwrite hselect rfl)
  have hopen : db₀.snapshots record = none ∨ ¬ s.Uses j (.snapshot record) := by
    rcases hselected with hheld | habsent
    · -- the snapshot is locked, so the other one only holds its repair
      have hnot := inv.not_held e.waiting e.holding e.ne hheld
      rcases hrecord with htarget | htarget
      · exact absurd (htarget ▸ e.held) hnot
      · refine .inr ?_
        rintro ⟨other', hj, huses⟩
        obtain rfl : other = other' := Option.some.inj (e.holding.symm.trans hj)
        rcases (e.sound' inv).repair hlight record (htarget ▸ e.held) with hretried | hheld'
        · exact hretried huses
        · exact hnot hheld'
    · exact .inl habsent
  have htouches : s.Touches i record := TxSystem.touches_of_mem e.waiting hrecord hmem
  have htouches' : s.Touches j record :=
    TxSystem.touches_of_mem e.holding hrecord ((e.sound' inv).mem_targets e.held)
  exact ⟨i, record, other, st.target,
    .first ⟨tx, e.waiting, hlocking⟩ htouches (e.not_isLocking hlight) htouches' hopen, e.holding,
    hlight, e.held, hrecord, hback⟩

/-- A commit or trade in its writes waits for another one in its writes, or for a batch or
retry that delays it. -/
theorem step_of_writing (inv : TxInv hash db₀ s) (e : WaitEdge s i j tx other st st')
    (hback : TransGen (fun i j => s.waitsFor hash i j = true) j i) (h : s.Writing i) :
    (s.Writing j ∨ s.Delaying hash db₀ j) ∧ st.target.position < st'.target.position := by
  obtain ⟨tx', stW, hi, hnext, hlocking, hwrite⟩ := h
  obtain rfl : tx = tx' := Option.some.inj (e.waiting.symm.trans hi)
  obtain rfl : st = stW := Option.some.inj (e.next.symm.trans hnext)
  have hrecordCase : ∀ record : RecordKey,
      (st.target = .row (.snapshot record) ∨ st.target = .row (.repair record)) →
      (s.Writing j ∨ s.Delaying hash db₀ j) ∧ st.target.position < st'.target.position :=
    fun record hrecord => ⟨.inr (delaying_of_writing inv e hlocking hwrite hback hrecord),
      e.position_lt_of_light inv (e.light_of_record inv hlocking hrecord)⟩
  cases st with
  | persistSnapshot record _ => exact hrecordCase record (.inl rfl)
  | enqueueRepair record => exact hrecordCase record (.inr rfl)
  | upsertTrade tradeId version state =>
    -- the advisory lock of the trade keeps the others away
    have hlocking' := e.locking_of_row inv fun _ => ⟨nofun, nofun⟩
    exact (e.not_guarded inv hlocking hlocking'
      ((e.sound inv).shaped.tradeGuard hlocking tradeId (Tx.target_mem e.next))
      ((e.sound' inv).shaped.tradeGuard hlocking' tradeId ((e.sound' inv).mem_targets e.held))
      (LockTarget.position_lt.mpr (.inr ⟨rfl, .inr ⟨rfl, Nat.zero_lt_one⟩⟩))).elim
  | insertUnique key =>
    have hlocking' := e.locking_of_row inv fun _ => ⟨nofun, nofun⟩
    obtain ⟨a, ha, hatarget⟩ := (e.sound' inv).held _ e.held
    have hawrite : a.isWrite = true := by
      cases a <;> simp_all [LockStatement.target, LockStatement.isWrite]
    exact (e.writing_of_isWrite inv hlocking' ha hatarget hawrite).imp_left .inl
  | _ => cases hwrite

/-- Every wait is for a lock that both have. -/
theorem meets_of_waitsFor (inv : TxInv hash db₀ s) (h : s.waitsFor hash i j = true) :
    s.Meets hash i j := by
  obtain ⟨tx, st, other, target, hi, hst, hj, -, htarget, hsame⟩ := TxSystem.exists_of_waitsFor h
  exact ⟨tx, other, hi, hj, st.target, Tx.target_mem hst, target,
    (inv.sound other (List.mem_of_getElem? hj)).mem_targets htarget, hsame.symm⟩

/-- From the row on which a batch or retry delays others it only goes on to later ones. -/
theorem later_of_held (inv : TxInv hash db₀ s) (e : WaitEdge s i j tx other st st')
    (hlocking : tx.plan.locking = false) {record later : RecordKey} {target : LockTarget}
    (htarget : target ∈ tx.held)
    (hrecord : target = .row (.snapshot record) ∨ target = .row (.repair record))
    (hlater : st.target = .row (.snapshot later) ∨ st.target = .row (.repair later)) :
    record < later ∨ record = later ∧ target = .row (.snapshot record) ∧
      st.target = .row (.repair later) := by
  obtain ⟨a, ha, rfl⟩ := (e.sound inv).held _ htarget
  rcases (e.sound inv).precedes_of_light e.next hlocking ha with heq | hlt
  · exact absurd (heq ▸ htarget) (e.not_held inv)
  · have hlt := LockTarget.position_lt.mp hlt
    rcases hrecord with ha' | ha' <;> rcases hlater with hst | hst <;> rw [ha', hst] at hlt ⊢ <;>
      simpa [LockTarget.group, LockTarget.subject, LockTarget.part] using hlt

/-- A snapshot that the lock loop holds was there, and its transaction would lead back to the
one that is delayed. -/
theorem absent_of_delaying (inv : TxInv hash db₀ s) (order : s.KeepsOrder hash db₀)
    (e : WaitEdge s i j tx other st st') (hlocking : tx.plan.locking = false)
    (hlocking' : other.plan.locking = true) {c : ℕ} {record later : RecordKey}
    (hdelay : s.MayDelay db₀ c i record) (hlt : record < later)
    (hsnapshot : st.target = .row (.snapshot later))
    (hreturn : TransGen (fun i j => s.waitsFor hash i j = true) i c) :
    s.db.snapshots later = none := by
  by_contra hrow
  have huses : s.Uses i (.snapshot later) :=
    ⟨tx, e.waiting, hsnapshot ▸ Tx.target_mem e.next⟩
  have huses' : s.Uses j (.snapshot later) :=
    ⟨other, e.holding, hsnapshot ▸ (e.sound' inv).mem_targets e.held⟩
  have hsome : db₀.snapshots later ≠ none ∨
      ∃ k, k ≠ i ∧ k ≠ j ∧ s.Uses k (.snapshot later) := by
    refine (inv.created later hrow).imp_right ?_
    rintro ⟨creator, hcreator, hended, hcreates⟩
    obtain ⟨k, hk⟩ := List.mem_iff_getElem?.mp hcreator
    -- who created the row has ended, and waits for nobody
    refine ⟨k, ?_, ?_, creator, hk, hcreates⟩
    · rintro rfl
      obtain rfl : creator = tx := Option.some.inj (hk.symm.trans e.waiting)
      simp [(Tx.statement_eq_some.mp e.next).1] at hended
    · rintro rfl
      obtain rfl : creator = other := Option.some.inj (hk.symm.trans e.holding)
      simp [(Tx.statement_eq_some.mp e.next').1] at hended
  have hne : i ≠ c := by
    rintro rfl
    obtain ⟨tx', hi, hdelayed⟩ := hdelay.isLocking
    obtain rfl : tx = tx' := Option.some.inj (e.waiting.symm.trans hi)
    exact Bool.false_ne_true (hlocking.symm.trans hdelayed)
  obtain ⟨k, hk, hpath⟩ := exists_path_avoiding hne hreturn
  obtain rfl := e.eq_of_waitsFor inv order hk
  refine order.noReturn c i record later hdelay hlt huses k ⟨other, e.holding, hlocking'⟩ huses'
    hsome ?_
  exact ReflTransGen.mono (fun _ _ h => ⟨h.1, h.2.1, meets_of_waitsFor inv h.2.2⟩) _ _ hpath

/-- A batch or retry that waits for another one hands on the delay. -/
theorem mayDelay_of_delaying (inv : TxInv hash db₀ s) (e : WaitEdge s i j tx other st st')
    (hlocking : other.plan.locking = false) {c : ℕ} {record later : RecordKey}
    {target : LockTarget} (hdelay : s.MayDelay db₀ c i record) (htarget : target ∈ tx.held)
    (hlater : st.target = .row (.snapshot later) ∨ st.target = .row (.repair later))
    (horder : record < later ∨ record = later ∧ target = .row (.snapshot record) ∧
      st.target = .row (.repair later)) : s.MayDelay db₀ c j later := by
  have htouches := TxSystem.touches_of_mem e.waiting hlater (Tx.target_mem e.next)
  have htouches' := TxSystem.touches_of_mem e.holding hlater ((e.sound' inv).mem_targets e.held)
  rcases horder with hlt | ⟨rfl, hsnapshot, hrepair⟩
  · exact .next hdelay hlt htouches (e.not_isLocking hlocking) htouches'
  · -- the other one holds a repair of the snapshot that this one holds: it is a retry
    refine hdelay.of_retried (e.not_isLocking hlocking) htouches' ?_
    rintro ⟨other', hj, huses⟩
    obtain rfl : other = other' := Option.some.inj (e.holding.symm.trans hj)
    rcases (e.sound' inv).repair hlocking record (hrepair ▸ e.held) with hretried | hheld
    · exact hretried huses
    · exact inv.not_held e.waiting e.holding e.ne (hsnapshot ▸ htarget) hheld

/-- A batch or retry that delays another one waits for a batch or retry that does so, or for
a commit or trade in its writes. -/
theorem step_of_delaying (inv : TxInv hash db₀ s) (order : s.KeepsOrder hash db₀)
    (e : WaitEdge s i j tx other st st')
    (hback : TransGen (fun i j => s.waitsFor hash i j = true) j i) (h : s.Delaying hash db₀ i) :
    (s.Writing j ∨ s.Delaying hash db₀ j) ∧ st.target.position < st'.target.position := by
  obtain ⟨c, record, tx', target, hdelay, hi, hlocking, htarget, hrecord, hreturn⟩ := h
  obtain rfl : tx = tx' := Option.some.inj (e.waiting.symm.trans hi)
  obtain ⟨later, hlater⟩ :=
    (e.sound inv).shaped.records hlocking st (Tx.mem_statements e.next)
  have horder := later_of_held inv e hlocking htarget hrecord hlater
  cases hlocking' : other.plan.locking with
  | false =>
    have hdelay' := mayDelay_of_delaying inv e hlocking' hdelay htarget hlater horder
    exact ⟨.inr ⟨c, later, other, st.target, hdelay', e.holding, hlocking', e.held, hlater,
      hback.trans hreturn⟩, e.position_lt_of_light inv hlocking'⟩
  | true =>
    have hwriting : ∀ {b : LockStatement}, b ∈ other.executed → b.target = st.target →
        b.isWrite = true → (s.Writing j ∨ s.Delaying hash db₀ j) ∧
          st.target.position < st'.target.position :=
      fun hb hbtarget hwrite => (e.writing_of_isWrite inv hlocking' hb hbtarget hwrite).imp_left .inl
    rcases hlater with hsnapshot | hrepair
    · rcases (e.sound' inv).snapshot hlocking' later (hsnapshot ▸ e.held) with
        ⟨expected, hpersist⟩ | hrow
      · exact hwriting hpersist hsnapshot.symm rfl
      · have hlt : record < later := by
          rcases horder with hlt | ⟨-, -, hrepair⟩
          · exact hlt
          · rw [hsnapshot] at hrepair
            cases hrepair
        exact absurd
          (absent_of_delaying inv order e hlocking hlocking' hdelay hlt hsnapshot hreturn) hrow
    · obtain ⟨a, ha, hatarget⟩ := (e.sound' inv).held _ e.held
      refine hwriting ha hatarget ?_
      rw [hrepair] at hatarget
      cases a <;> simp_all [LockStatement.target, LockStatement.isWrite]

/-- The place that a transaction has come to. -/
def TxSystem.position (s : TxSystem) (i : ℕ) : ℕ ×ₗ RecordKey ×ₗ ℕ :=
  ((s.txs[i]?.bind Tx.statement).elim (.advisory (.trade "")) (·.target)).position

theorem TxSystem.position_eq (hi : s.txs[i]? = some tx) (hst : tx.statement = some st) :
    s.position i = st.target.position := by
  rw [position, hi, Option.bind_some, hst, Option.elim_some]

theorem WaitEdge.position_lt (e : WaitEdge s i j tx other st st')
    (h : st.target.position < st'.target.position) : s.position i < s.position j := by
  rw [TxSystem.position_eq e.waiting e.next, TxSystem.position_eq e.holding e.next']
  exact h

/-- No cycle goes through a transaction that has left its lock loop. -/
theorem not_onCycle_of_writing (inv : TxInv hash db₀ s) (order : s.KeepsOrder hash db₀)
    (h : s.Writing i) : ¬ OnCycle (fun i j => s.waitsFor hash i j = true) i := by
  refine not_onCycle_of_closed s.position (fun i => s.Writing i ∨ s.Delaying hash db₀ i) ?_ (.inl h)
  intro i j hij hback hclosed
  obtain ⟨tx, other, st, st', e⟩ := exists_waitEdge inv order hij hback
  have hstep : (s.Writing j ∨ s.Delaying hash db₀ j) ∧
      st.target.position < st'.target.position := by
    rcases hclosed with hwriting | hdelaying
    · exact step_of_writing inv e hback hwriting
    · exact step_of_delaying inv order e hback hdelaying
  exact hstep.imp_right e.position_lt

/-- The others keep to the order of the locks. -/
theorem position_lt_of_waitsFor (inv : TxInv hash db₀ s) (order : s.KeepsOrder hash db₀)
    (h : s.waitsFor hash i j = true)
    (hback : TransGen (fun i j => s.waitsFor hash i j = true) j i) :
    s.position i < s.position j := by
  obtain ⟨tx, other, st, st', e⟩ := exists_waitEdge inv order h hback
  obtain ⟨a, ha, hatarget⟩ := (e.sound' inv).held _ e.held
  refine e.position_lt (e.lt_of_precedes hatarget ?_)
  cases hlocking : other.plan.locking with
  | false => exact (e.sound' inv).precedes_of_light e.next' hlocking ha
  | true =>
    rcases (e.sound' inv).precedes_of_locking e.next' hlocking ha with ⟨-, h⟩ | ⟨-, hwrite⟩
    · exact h
    · have hcycle : OnCycle (fun i j => s.waitsFor hash i j = true) j := hback.tail h
      exact absurd hcycle
        (not_onCycle_of_writing inv order ⟨other, st', e.holding, e.next', hlocking, hwrite⟩)

end Cycles

/-- **No deadlock.**  In every run of commits, trades, single writes and batches whose
requests keep the order, no transaction is on a cycle of waits. -/
theorem transactions_deadlock_free (hash : String → ℤ) (decode : Bytes → Option EventEnvelope)
    {db₀ : TxDb} {events : List TxEvent} {s : TxSystem}
    (hrun : run (TxSystem.step hash decode) ⟨db₀, []⟩ events = some s)
    (order : s.KeepsOrder hash db₀) (i : ℕ) :
    ¬ OnCycle (fun i j => s.waitsFor hash i j = true) i :=
  not_onCycle_of_rank s.position
    (fun _ _ hij hback => position_lt_of_waitsFor (run_txInv hrun) order hij hback) i

/-- A record of a batch or retry that the other one uses too, and that is absent or only repaired
by the first one, is its last record. -/
def SharesLast (db₀ : TxDb) (tx other : Tx) : Prop :=
  ∀ a ∈ tx.plan.targets, (∃ b ∈ other.plan.targets, b.subject = a.subject) →
    (db₀.snapshots a.subject = none ∨ .row (.snapshot a.subject) ∉ tx.plan.targets) →
    ∀ b ∈ tx.plan.targets, b.subject ≤ a.subject

instance (db₀ : TxDb) (tx other : Tx) : Decidable (SharesLast db₀ tx other) :=
  inferInstanceAs (Decidable (∀ a ∈ tx.plan.targets, _ → _ → ∀ b ∈ tx.plan.targets, _))

/-- Requests keep the order if batches and retries share such records with new commits and trades
only as their last ones. -/
theorem keepsOrder_of_last {hash : String → ℤ} {db₀ : TxDb} {s : TxSystem}
    (hhash : ∀ tx ∈ s.txs, ∀ a ∈ tx.plan.targets, ∀ other ∈ s.txs, ∀ b ∈ other.plan.targets,
      a.resource hash = b.resource hash → a = b)
    (hlast : ∀ tx ∈ s.txs, tx.plan.locking = false → ∀ c ∈ s.txs, c.plan.locking = true →
      SharesLast db₀ tx c) : s.KeepsOrder hash db₀ where
  names tx htx other hother a b ha hb hab := by
    have heq := hhash tx htx _ ha other hother _ hb (congrArg LockResource.advisory hab)
    rw [LockTarget.advisory.inj heq]
  noReturn c q record later hdelay hlt huses := by
    have htouched : ∀ {i : ℕ} {record : RecordKey}, s.Touches i record →
        ∃ tx, s.txs[i]? = some tx ∧ ∃ a ∈ tx.plan.targets, a.subject = record := by
      rintro i record (⟨tx, hi, h⟩ | ⟨tx, hi, h⟩)
      · exact ⟨tx, hi, _, h, rfl⟩
      · exact ⟨tx, hi, _, h, rfl⟩
    -- where a delay begins the batch is at its last record, so that it does not go on
    have hend : ∀ {q : ℕ} {record later : RecordKey}, s.MayDelay db₀ c q record →
        s.Touches q later → later ≤ record := by
      intro q record later h
      induction h generalizing later with
      | @first q record hc hcommit hlight hbatch habsent =>
        intro hlater
        obtain ⟨commit, hci, hlocking⟩ := hc
        obtain ⟨commit', hci', b, hb, hshared⟩ := htouched hcommit
        obtain rfl := Option.some.inj (hci.symm.trans hci')
        obtain ⟨tx, hqi, a, ha, rfl⟩ := htouched hbatch
        obtain ⟨tx', hqi', a', ha', rfl⟩ := htouched hlater
        obtain rfl := Option.some.inj (hqi.symm.trans hqi')
        have hlight' : tx.plan.locking = false := by
          by_contra hl
          exact hlight ⟨tx, hqi, by simpa using hl⟩
        refine hlast tx (List.mem_of_getElem? hqi) hlight' commit (List.mem_of_getElem? hci)
          hlocking a ha ⟨b, hb, hshared⟩ (habsent.imp_right fun hnot hmem => ?_) a' ha'
        exact hnot ⟨tx, hqi, hmem⟩
      | next _ hlt htouch _ _ ih => exact absurd (ih htouch) hlt.not_ge
    exact absurd (hend hdelay (.inl huses)) hlt.not_ge

section Crossing

/-- The bytes of a lock name, as a number. -/
def crossingHash (key : String) : ℤ := (key.toList.foldl (fun n c => 256 * n + c.toNat) 0 : ℕ)

def crossingWrite (key : String) (expectedRevision : Revision) : TransactionalRecordWrite where
  record := ⟨"players", key⟩
  schema := "player"
  schemaVersion := 1
  expectedRevision := expectedRevision
  payload := []
  updatedAtUnixMs := 0

def crossingSave (key : String) : SnapshotWrite where
  requestId := "save-" ++ key
  record := ⟨"players", key⟩
  schema := "player"
  schemaVersion := 1
  payload := []
  expectedRevision := none
  updatedAtUnixMs := 0

/-- Of two records, the second one exists. -/
def crossingDb : TxDb where
  snapshots record := if record = ⟨"players", "b"⟩ then some 1 else none

def crossingCommit : TxRequest :=
  .commitRecords ⟨"op", [crossingWrite "a" 0, crossingWrite "b" 1], []⟩ {}

def crossingBatch : SnapshotBatch := ⟨[crossingSave "a", crossingSave "b"], by decide⟩

/-- The absent record is the last one. -/
def risingBatch : SnapshotBatch := ⟨[crossingSave "A", crossingSave "a"], by decide⟩

/-- The commit takes its four locks, then the batch writes the first record. -/
def crossingEvents (batch : SnapshotBatch) : List TxEvent :=
  [.begin crossingCommit {}, .begin (.saveMulti batch) {}, .exec 0, .exec 0, .exec 0, .exec 0,
    .exec 1, .exec 1]

/-- A commit that waits for a batch at the last record of the batch. -/
theorem transactions_deadlock_free_rising :
    ∃ s, run (TxSystem.step crossingHash fun _ => none) ⟨crossingDb, []⟩
        (crossingEvents risingBatch ++ [.exec 1]) = some s ∧
      s.waitsFor crossingHash 0 1 = true ∧
      ¬ OnCycle (fun i j => s.waitsFor crossingHash i j = true) 0 := by
  obtain ⟨s, hrun, hwaits, hhash, hlast⟩ : ∃ s,
      run (TxSystem.step crossingHash fun _ => none) ⟨crossingDb, []⟩
        (crossingEvents risingBatch ++ [.exec 1]) = some s ∧
      s.waitsFor crossingHash 0 1 = true ∧
      (∀ tx ∈ s.txs, ∀ a ∈ tx.plan.targets, ∀ other ∈ s.txs, ∀ b ∈ other.plan.targets,
        a.resource crossingHash = b.resource crossingHash → a = b) ∧
      ∀ tx ∈ s.txs, tx.plan.locking = false → ∀ c ∈ s.txs, c.plan.locking = true →
        SharesLast crossingDb tx c :=
    exists_of_any (by decide +kernel)
  exact ⟨s, hrun, hwaits,
    transactions_deadlock_free crossingHash _ hrun (keepsOrder_of_last hhash hlast) 0⟩

/-- **A deadlock.**  The batch has inserted the first record, which the commit found absent,
and waits for the second one, which the commit has locked. -/
theorem commit_batch_deadlock :
    ∃ s, run (TxSystem.step crossingHash fun _ => none) ⟨crossingDb, []⟩
        (crossingEvents crossingBatch) = some s ∧
      (s.txs.flatMap (·.request.ids)).Nodup ∧
      OnCycle (fun i j => s.waitsFor crossingHash i j = true) 0 := by
  obtain ⟨s, hrun, hids, hcommit, hbatch⟩ : ∃ s,
      run (TxSystem.step crossingHash fun _ => none) ⟨crossingDb, []⟩
        (crossingEvents crossingBatch) = some s ∧
      (s.txs.flatMap (·.request.ids)).Nodup ∧
      s.waitsFor crossingHash 0 1 = true ∧ s.waitsFor crossingHash 1 0 = true :=
    exists_of_any (by decide +kernel)
  exact ⟨s, hrun, hids, onCycle_of_pair hcommit hbatch⟩

end Crossing

end DbProxy
