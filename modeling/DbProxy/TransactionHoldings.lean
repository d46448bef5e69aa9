/-
What the request transactions hold.

* `Tx.Sound` — what one transaction holds at any time: the locks of its statements, among
  them every advisory lock, and every snapshot that its lock loop found;
* `TxInv` — nobody else holds them, and rows that are there stay;
* `run_txInv` — both are true in every run.
-/
import DbProxy.StepMachine
import DbProxy.TransactionLockOrder

namespace DbProxy

open StepMachine

/-! ### One transaction -/

namespace Tx

variable {db₀ db db' : TxDb} {tx : Tx} {st : LockStatement}

/-- The statements so far. -/
def executed (tx : Tx) : List LockStatement := tx.plan.statements.take tx.next

def rest (tx : Tx) : List LockStatement := tx.plan.statements.drop tx.next

/-- Repairs that only repeat those of committed writes. -/
def Retried (tx : Tx) (record : RecordKey) : Prop := .row (.snapshot record) ∉ tx.plan.targets

/-- The next statement may be the repair of the snapshot that was just written. -/
def LinkedRest (tx : Tx) : Prop :=
  Linked tx.Retried tx.rest ∨ ∃ record rest, tx.rest = .enqueueRepair record :: rest ∧
    .row (.snapshot record) ∈ tx.held ∧ Linked tx.Retried rest

/-- `db₀` are the rows at the beginning of the run. -/
structure Sound (db₀ db : TxDb) (tx : Tx) : Prop where
  shaped : tx.plan.Shaped
  ended : tx.ended = true → tx.held = []
  held : ∀ target ∈ tx.held, ∃ st ∈ tx.executed, st.target = target
  advisory : tx.plan.locking = true → tx.ended = false →
    ∀ name, .advisoryXactLock name ∈ tx.executed → .advisory name ∈ tx.held
  selected : tx.plan.locking = true → tx.ended = false →
    ∀ record expected, .selectForUpdate record expected ∈ tx.executed →
      .row (.snapshot record) ∈ tx.held ∨ db₀.snapshots record = none
  snapshot : tx.plan.locking = true → ∀ record, .row (.snapshot record) ∈ tx.held →
    (∃ expected, .persistSnapshot record expected ∈ tx.executed) ∨ db.snapshots record ≠ none
  repair : tx.plan.locking = false → ∀ record, .row (.repair record) ∈ tx.held →
    tx.Retried record ∨ .row (.snapshot record) ∈ tx.held
  linked : tx.plan.locking = false → tx.ended = false → tx.LinkedRest
  writes : ∀ record revision, .snapshot record revision ∈ tx.writes →
    .row (.snapshot record) ∈ tx.plan.targets

theorem statement_eq_some :
    tx.statement = some st ↔ tx.ended = false ∧ tx.plan.statements[tx.next]? = some st := by
  rw [statement]
  cases tx.ended <;> simp

theorem rest_eq_cons (h : tx.statement = some st) :
    tx.rest = st :: tx.plan.statements.drop (tx.next + 1) := by
  obtain ⟨-, h⟩ := statement_eq_some.mp h
  obtain ⟨hlt, rfl⟩ := List.getElem?_eq_some_iff.mp h
  exact List.drop_eq_getElem_cons hlt

theorem statements_eq (h : tx.statement = some st) :
    tx.plan.statements = tx.executed ++ st :: tx.plan.statements.drop (tx.next + 1) := by
  rw [← rest_eq_cons h, executed, rest, List.take_append_drop]

theorem mem_statements (h : tx.statement = some st) : st ∈ tx.plan.statements := by
  rw [statements_eq h]
  exact List.mem_append_right _ (List.mem_cons_self ..)

theorem target_mem (h : tx.statement = some st) : st.target ∈ tx.plan.targets :=
  List.mem_map_of_mem (mem_statements h)

theorem take_succ (h : tx.statement = some st) :
    tx.plan.statements.take (tx.next + 1) = tx.executed ++ [st] := by
  obtain ⟨-, h⟩ := statement_eq_some.mp h
  rw [executed, List.take_add_one, h]
  rfl

namespace Sound

theorem start {request : TxRequest} {plan : TxPlan} (h : plan.Shaped) :
    (Tx.start request plan).Sound db₀ db where
  shaped := h
  ended := nofun
  held := nofun
  advisory _ _ _ hmem := by simp [executed, Tx.start] at hmem
  selected _ _ _ _ hmem := by simp [executed, Tx.start] at hmem
  snapshot := nofun
  repair := nofun
  linked hlocking _ := .inl (h.linked hlocking)
  writes record revision hmem := by
    simp only [Tx.start, Option.mem_toList, Option.map_eq_some_iff] at hmem
    obtain ⟨_, -, hmem⟩ := hmem
    cases hmem

theorem finish (h : tx.Sound db₀ db) : tx.finish.Sound db₀ db where
  shaped := h.shaped
  ended _ := rfl
  held := nofun
  advisory := nofun
  selected := nofun
  snapshot := nofun
  repair := nofun
  linked := nofun
  writes := nofun

/-- Rows that others add change nothing. -/
theorem mono (h : tx.Sound db₀ db)
    (hdb : ∀ record, db'.snapshots record = none → db.snapshots record = none) :
    tx.Sound db₀ db' :=
  { h with
    snapshot := fun hlocking record hmem =>
      (h.snapshot hlocking record hmem).imp_right (mt (hdb record)) }

section Advance

variable (h : tx.Sound db₀ db) (hst : tx.statement = some st)

include hst in
theorem executed_advance : (tx.advance db st).executed = tx.executed ++ [st] := take_succ hst

theorem mem_held_advance {target : LockTarget} :
    target ∈ (tx.advance db st).held ↔
      (db.locks st = true ∧ target = st.target) ∨ target ∈ tx.held := by
  rw [advance]
  cases db.locks st <;> simp

include h hst in
/-- A repair that comes next repeats an old one, or its snapshot is held. -/
theorem retried_or_held {record : RecordKey} (hlocking : tx.plan.locking = false)
    (htarget : st.target = .row (.repair record)) :
    tx.Retried record ∨ .row (.snapshot record) ∈ tx.held := by
  have hrest := rest_eq_cons hst
  rcases h.linked hlocking (statement_eq_some.mp hst).1 with
    hlinked | ⟨other, rest, hother, hheld, -⟩
  · rw [hrest] at hlinked
    generalize tx.plan.statements.drop (tx.next + 1) = after at hlinked
    cases hlinked with
    | select => cases htarget
    | retry hretried =>
      obtain rfl : _ = record := by simpa [LockStatement.target] using htarget
      exact .inl hretried
    | save hsaved => cases st <;> simp_all [LockStatement.target, LockStatement.saved]
  · rw [hrest] at hother
    obtain ⟨rfl, -⟩ := List.cons.inj hother
    obtain rfl : other = record := by simpa [LockStatement.target] using htarget
    exact .inr hheld

include h hst in
theorem linkedRest_advance (hlocking : tx.plan.locking = false) (hnext : db.outcome st = .next) :
    (tx.advance db st).LinkedRest := by
  have hrest := rest_eq_cons hst
  have hrest' : (tx.advance db st).rest = tx.plan.statements.drop (tx.next + 1) := rfl
  rw [LinkedRest, hrest']
  rcases h.linked hlocking (statement_eq_some.mp hst).1 with hlinked | ⟨_, _, hother, _, hlinked⟩
  · rw [hrest] at hlinked
    generalize tx.plan.statements.drop (tx.next + 1) = after at hlinked ⊢
    cases hlinked with
    | select hlinked => exact .inl hlinked
    | retry _ hlinked => exact .inl hlinked
    | @save _ record rest hsaved hlinked =>
      -- the snapshot was written, and is held
      refine .inr ⟨record, rest, rfl, mem_held_advance.mpr (.inl ?_), hlinked⟩
      cases st <;> simp_all [LockStatement.saved, LockStatement.target, TxDb.outcome, TxDb.locks]
  · rw [hrest] at hother
    obtain ⟨-, hother⟩ := List.cons.inj hother
    rw [hother]
    exact .inl hlinked

include h hst in
theorem advance (hnext : db.outcome st = .next)
    (hdb : ∀ record, db.snapshots record = none → db₀.snapshots record = none) :
    (tx.advance db st).Sound db₀ db where
  shaped := h.shaped
  ended hended := absurd hended (by simp [Tx.advance, (statement_eq_some.mp hst).1])
  held target htarget := by
    rw [executed_advance hst]
    rcases mem_held_advance.mp htarget with ⟨-, rfl⟩ | htarget
    · exact ⟨st, List.mem_append_right _ (List.mem_singleton_self _), rfl⟩
    · obtain ⟨a, ha, hatarget⟩ := h.held target htarget
      exact ⟨a, List.mem_append_left _ ha, hatarget⟩
  advisory hlocking hended name hmem := by
    rw [executed_advance hst] at hmem
    rcases List.mem_append.mp hmem with hmem | hmem
    · exact mem_held_advance.mpr (.inr (h.advisory hlocking hended name hmem))
    · obtain rfl := List.mem_singleton.mp hmem
      exact mem_held_advance.mpr (.inl ⟨rfl, rfl⟩)
  selected hlocking hended record expected hmem := by
    rw [executed_advance hst] at hmem
    rcases List.mem_append.mp hmem with hmem | hmem
    · exact (h.selected hlocking hended record expected hmem).imp_left
        fun hheld => mem_held_advance.mpr (.inr hheld)
    · obtain rfl := List.mem_singleton.mp hmem
      cases hrow : db.snapshots record with
      | none => exact .inr (hdb record hrow)
      | some _ => exact .inl (mem_held_advance.mpr (.inl ⟨by simp [TxDb.locks, hrow], rfl⟩))
  snapshot hlocking record hmem := by
    rw [executed_advance hst]
    rcases mem_held_advance.mp hmem with ⟨hlocks, htarget⟩ | hmem
    · have hsaved := h.shaped.noSave hlocking st (mem_statements hst)
      cases st <;> simp_all [LockStatement.target, LockStatement.saved, TxDb.locks]
      case selectForUpdate => exact .inr (Option.isSome_iff_ne_none.mp hlocks)
    · exact (h.snapshot hlocking record hmem).imp_left
        (Exists.imp fun _ => List.mem_append_left _)
  repair hlocking record hmem := by
    have hor : tx.Retried record ∨ .row (.snapshot record) ∈ tx.held := by
      rcases mem_held_advance.mp hmem with ⟨-, htarget⟩ | hmem
      · exact retried_or_held h hst hlocking htarget.symm
      · exact h.repair hlocking record hmem
    exact hor.imp_right fun hheld => mem_held_advance.mpr (.inr hheld)
  linked hlocking _ := linkedRest_advance h hst hlocking hnext
  writes record revision hmem := by
    rcases List.mem_append.mp hmem with hmem | hmem
    · exact h.writes record revision hmem
    · have hmem' : st ∈ tx.plan.statements := mem_statements hst
      refine List.mem_map.mpr ⟨st, hmem', ?_⟩
      cases st <;> simp_all [TxDb.changes, LockStatement.target]

/-- Only entries of a batch are refused. -/
theorem saved_of_entryFailed (hfailed : db.outcome st = .entryFailed) :
    ∃ record, st.saved = some record := by
  cases st <;> simp_all [TxDb.outcome, LockStatement.saved, ite_eq_iff]

include h hst in
theorem skipEntry (hfailed : db.outcome st = .entryFailed) : tx.skipEntry.Sound db₀ db := by
  obtain ⟨record, hsaved⟩ := saved_of_entryFailed hfailed
  have hlocking : tx.plan.locking = false := by
    cases hlocking : tx.plan.locking with
    | false => rfl
    | true =>
      rw [h.shaped.noSave hlocking st (mem_statements hst)] at hsaved
      cases hsaved
  refine { h with held := ?_, advisory := ?_, selected := ?_, snapshot := ?_, linked := ?_ }
  · intro target htarget
    obtain ⟨a, ha, hatarget⟩ := h.held target htarget
    exact ⟨a, (List.take_prefix_take_left (Nat.le_add_right tx.next 2)).subset ha, hatarget⟩
  · exact fun hlocking' => absurd hlocking' (by simp [Tx.skipEntry, hlocking])
  · exact fun hlocking' => absurd hlocking' (by simp [Tx.skipEntry, hlocking])
  · exact fun hlocking' => absurd hlocking' (by simp [Tx.skipEntry, hlocking])
  · intro _ hended
    have hrest := rest_eq_cons hst
    have hrest' : tx.skipEntry.rest = (tx.plan.statements.drop (tx.next + 1)).drop 1 := by
      rw [List.drop_drop]
      rfl
    refine .inl ?_
    rw [hrest']
    rcases h.linked hlocking hended with hlinked | ⟨_, _, hother, _, _⟩
    · rw [hrest] at hlinked
      generalize tx.plan.statements.drop (tx.next + 1) = after at hlinked ⊢
      cases hlinked with
      | select => cases hsaved
      | retry => cases hsaved
      | save _ hlinked => exact hlinked
    · rw [hrest] at hother
      obtain ⟨rfl, -⟩ := List.cons.inj hother
      cases hsaved

end Advance

end Sound

end Tx

/-! ### Every transaction -/

/-- A commit keeps the rows, and adds those of its writes. -/
theorem TxDb.snapshots_foldl (writes : List TxWrite) (db : TxDb) (record : RecordKey) :
    ((writes.foldl TxDb.apply db).snapshots record = none → db.snapshots record = none) ∧
      ((writes.foldl TxDb.apply db).snapshots record ≠ none → db.snapshots record ≠ none ∨
        ∃ revision, .snapshot record revision ∈ writes) := by
  induction writes generalizing db with
  | nil => exact ⟨id, .inl⟩
  | cons write writes ih =>
    obtain ⟨hkeep, hnew⟩ := ih (db.apply write)
    have hother : (∃ revision, .snapshot record revision ∈ writes) →
        ∃ revision, .snapshot record revision ∈ write :: writes :=
      fun ⟨revision, h⟩ => ⟨revision, List.mem_cons_of_mem _ h⟩
    by_cases hwrite : ∃ revision, write = .snapshot record revision
    · obtain ⟨revision, rfl⟩ := hwrite
      refine ⟨fun h => ?_, fun _ => .inr ⟨revision, List.mem_cons_self ..⟩⟩
      simpa [TxDb.apply] using hkeep h
    · have happly : (db.apply write).snapshots record = db.snapshots record := by
        cases write <;> simp_all [TxDb.apply, Function.update_apply, eq_comm]
      rw [List.foldl_cons]
      exact ⟨fun h => happly ▸ hkeep h, fun h => (hnew h).imp (happly ▸ ·) hother⟩

namespace TxSystem

variable {hash : String → ℤ} {s : TxSystem} {i j : ℕ} {tx other : Tx} {st : LockStatement}

theorem waitsFor_of_held (hi : s.txs[i]? = some tx) (hst : tx.statement = some st)
    (hlocks : s.db.locks st = true) (hj : s.txs[j]? = some other) (hij : i ≠ j)
    {target : LockTarget} (htarget : target ∈ other.held)
    (hsame : target.resource hash = st.target.resource hash) : s.waitsFor hash i j = true := by
  simp only [waitsFor, hi, hj, Option.bind_some, hst, Option.any_some, hlocks, Bool.and_eq_true,
    decide_eq_true_eq, List.any_eq_true]
  exact ⟨hij, trivial, target, htarget, hsame⟩

theorem exists_of_waitsFor (h : s.waitsFor hash i j = true) :
    ∃ tx st other target, s.txs[i]? = some tx ∧ tx.statement = some st ∧ s.txs[j]? = some other ∧
      i ≠ j ∧ target ∈ other.held ∧ target.resource hash = st.target.resource hash := by
  simp only [waitsFor, Bool.and_eq_true, decide_eq_true_eq, Option.any_eq_true,
    List.any_eq_true] at h
  obtain ⟨hij, st, hst, -, other, hj, target, htarget, hsame⟩ := h
  obtain ⟨tx, hi, hst⟩ := Option.bind_eq_some_iff.mp hst
  exact ⟨tx, st, other, target, hi, hst, hj, hij, htarget, hsame⟩

/-- The lock of a statement that is not blocked is free. -/
theorem ne_of_not_isBlocked (hfree : s.isBlocked hash i = false) (hi : s.txs[i]? = some tx)
    (hst : tx.statement = some st) (hlocks : s.db.locks st = true) (hj : s.txs[j]? = some other)
    (hji : j ≠ i) {target : LockTarget} (htarget : target ∈ other.held) :
    st.target.resource hash ≠ target.resource hash := by
  intro hsame
  have hwaits : s.waitsFor hash i j = true :=
    waitsFor_of_held hi hst hlocks hj hji.symm htarget hsame.symm
  rw [isBlocked, List.any_eq_false] at hfree
  exact hfree j (List.mem_range.mpr (List.getElem?_eq_some_iff.mp hj).1) hwaits

end TxSystem

structure TxInv (hash : String → ℤ) (db₀ : TxDb) (s : TxSystem) : Prop where
  sound : ∀ tx ∈ s.txs, tx.Sound db₀ s.db
  /-- No two transactions hold one lock. -/
  disjoint : ∀ (i j : ℕ) (tx other : Tx), s.txs[i]? = some tx → s.txs[j]? = some other → i ≠ j →
    ∀ a ∈ tx.held, ∀ b ∈ other.held, a.resource hash ≠ b.resource hash
  stays : ∀ record, s.db.snapshots record = none → db₀.snapshots record = none
  /-- Rows that were absent at the beginning come from transactions that have ended. -/
  created : ∀ record, s.db.snapshots record ≠ none → db₀.snapshots record ≠ none ∨
    ∃ tx ∈ s.txs, tx.ended = true ∧ .row (.snapshot record) ∈ tx.plan.targets

namespace TxInv

variable {hash : String → ℤ} {decode : Bytes → Option EventEnvelope} {db₀ : TxDb}
  {s s' : TxSystem} {i : ℕ} {tx tx' : Tx}

theorem init : TxInv hash db₀ ⟨db₀, []⟩ where
  sound _ h := absurd h List.not_mem_nil
  disjoint i _ _ _ hi := by simp at hi
  stays _ h := h
  created _ h := .inl h

theorem start (inv : TxInv hash db₀ s) {request : TxRequest} {plan : TxPlan} (h : plan.Shaped) :
    TxInv hash db₀ { s with txs := s.txs ++ [Tx.start request plan] } where
  sound tx htx := by
    rcases List.mem_append.mp htx with htx | htx
    · exact inv.sound tx htx
    · obtain rfl := List.mem_singleton.mp htx
      exact .start h
  disjoint i j tx other hi hj hij a ha b hb := by
    have hold : ∀ {k : ℕ} {tx : Tx} {target : LockTarget},
        (s.txs ++ [Tx.start request plan])[k]? = some tx → target ∈ tx.held →
        s.txs[k]? = some tx := by
      -- the new one holds nothing
      intro k tx target hk htarget
      rw [List.getElem?_append] at hk
      split at hk
      · exact hk
      · obtain rfl := List.mem_singleton.mp (List.mem_of_getElem? hk)
        cases htarget
    exact inv.disjoint i j tx other (hold hi ha) (hold hj hb) hij a ha b hb
  stays := inv.stays
  created record hrecord := (inv.created record hrecord).imp_right
    fun ⟨tx, htx, h⟩ => ⟨tx, List.mem_append_left _ htx, h⟩

/-- The step of one transaction, which takes only locks that are free. -/
theorem set (inv : TxInv hash db₀ s) (hi : s.txs[i]? = some tx) (hsound : tx'.Sound db₀ s.db)
    (hplan : tx'.plan = tx.plan) (hended : tx.ended = true → tx'.ended = true)
    (hheld : ∀ a ∈ tx'.held, a ∈ tx.held ∨ ∀ (j : ℕ) (other : Tx), s.txs[j]? = some other →
      j ≠ i → ∀ b ∈ other.held, a.resource hash ≠ b.resource hash) :
    TxInv hash db₀ (s.set i tx') where
  sound other hother := by
    rcases List.mem_or_eq_of_mem_set hother with hother | rfl
    · exact inv.sound other hother
    · exact hsound
  disjoint := by
    have hfree : ∀ (j : ℕ) (other : Tx), s.txs[j]? = some other → j ≠ i →
        ∀ a ∈ tx'.held, ∀ b ∈ other.held, a.resource hash ≠ b.resource hash := by
      intro j other hj hji a ha b hb
      rcases hheld a ha with ha | ha
      · exact inv.disjoint i j tx other hi hj hji.symm a ha b hb
      · exact ha j other hj hji b hb
    intro j k other other' hj hk hjk a ha b hb
    simp only [TxSystem.set, List.getElem?_set] at hj hk
    split_ifs at hj hk with hij hlt hik hik
    · exact absurd (hij.symm.trans hik) hjk
    · obtain rfl := Option.some.inj hj
      exact hfree k other' hk (Ne.symm hik) a ha b hb
    · obtain rfl := Option.some.inj hk
      exact (hfree j other hj (Ne.symm hij) b hb a ha).symm
    · exact inv.disjoint j k other other' hj hk hjk a ha b hb
  stays := inv.stays
  created record hrecord := by
    refine (inv.created record hrecord).imp_right ?_
    rintro ⟨other, hother, hend, htarget⟩
    obtain ⟨j, hj⟩ := List.mem_iff_getElem?.mp hother
    by_cases hji : j = i
    · subst hji
      obtain rfl : other = tx := Option.some.inj (hj.symm.trans hi)
      refine ⟨tx', List.mem_iff_getElem?.mpr ⟨j, ?_⟩, hended hend, hplan ▸ htarget⟩
      rw [TxSystem.set, List.getElem?_set_self (List.getElem?_eq_some_iff.mp hi).1]
    · refine ⟨other, List.mem_iff_getElem?.mpr ⟨j, ?_⟩, hend, htarget⟩
      rw [TxSystem.set, List.getElem?_set_ne (Ne.symm hji), hj]

/-- New rows, all of them from transactions that have ended. -/
theorem grow (inv : TxInv hash db₀ s) {db : TxDb}
    (hstays : ∀ record, db.snapshots record = none → s.db.snapshots record = none)
    (hnew : ∀ record, db.snapshots record ≠ none → s.db.snapshots record ≠ none ∨
      ∃ tx ∈ s.txs, tx.ended = true ∧ .row (.snapshot record) ∈ tx.plan.targets) :
    TxInv hash db₀ { s with db } where
  sound tx htx := (inv.sound tx htx).mono hstays
  disjoint := inv.disjoint
  stays record hrecord := inv.stays record (hstays record hrecord)
  created record hrecord := (hnew record hrecord).elim (inv.created record) .inr

theorem exec (inv : TxInv hash db₀ s) (hi : s.txs[i]? = some tx)
    (hfree : s.isBlocked hash i = false) : TxInv hash db₀ (s.exec i tx) := by
  have hsound := inv.sound tx (List.mem_of_getElem? hi)
  have hfinish : TxInv hash db₀ (s.set i tx.finish) :=
    inv.set hi hsound.finish rfl (fun _ => rfl) (by simp [Tx.finish])
  rw [TxSystem.exec]
  split
  · refine hfinish.grow (fun record => (TxDb.snapshots_foldl tx.writes s.db record).1)
      fun record hrecord => ?_
    rcases (TxDb.snapshots_foldl tx.writes s.db record).2 hrecord with hrow | ⟨revision, hwrite⟩
    · exact .inl hrow
    · refine .inr ⟨tx.finish, List.mem_iff_getElem?.mpr ⟨i, ?_⟩, rfl,
        hsound.writes record revision hwrite⟩
      rw [TxSystem.set, List.getElem?_set_self (List.getElem?_eq_some_iff.mp hi).1]
  · rename_i st hst
    have hended := (Tx.statement_eq_some.mp hst).1
    split
    · rename_i hnext
      refine inv.set hi (hsound.advance hst hnext inv.stays) rfl (by simp [hended]) fun a ha => ?_
      rcases Tx.Sound.mem_held_advance.mp ha with ⟨hlocks, rfl⟩ | ha
      · exact .inr fun j other hj hji b hb =>
          TxSystem.ne_of_not_isBlocked hfree hi hst hlocks hj hji hb
      · exact .inl ha
    · rename_i hfailed
      exact inv.set hi (hsound.skipEntry hst hfailed) rfl id fun a ha => .inl ha
    · exact hfinish

theorem step (inv : TxInv hash db₀ s) {event : TxEvent}
    (hstep : TxSystem.step hash decode s event = some s') : TxInv hash db₀ s' := by
  cases event with
  | begin request routes =>
    rw [TxSystem.step] at hstep
    split at hstep
    · obtain rfl := Option.some.inj hstep
      exact inv
    · rename_i hplan
      obtain rfl := Option.some.inj hstep
      exact inv.start (TxDb.plan_shaped hplan)
  | exec i =>
    obtain ⟨tx, hi, hstep⟩ := Option.bind_eq_some_iff.mp hstep
    split at hstep
    · cases hstep
    · rename_i hfree
      obtain rfl := Option.some.inj hstep
      exact inv.exec hi (by simp_all)
  | rollback i =>
    obtain ⟨tx, hi, hstep⟩ := Option.bind_eq_some_iff.mp hstep
    split at hstep
    · cases hstep
    · obtain rfl := Option.some.inj hstep
      exact inv.set hi (inv.sound tx (List.mem_of_getElem? hi)).finish rfl (fun _ => rfl)
        (by simp [Tx.finish])

end TxInv

theorem run_txInv {hash : String → ℤ} {decode : Bytes → Option EventEnvelope} {db₀ : TxDb}
    {events : List TxEvent} {s : TxSystem}
    (hrun : run (TxSystem.step hash decode) ⟨db₀, []⟩ events = some s) : TxInv hash db₀ s :=
  run_invariant (fun _ _ _ inv hstep => inv.step hstep) .init hrun

end DbProxy
