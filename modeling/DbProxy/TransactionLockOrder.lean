/-
The order in which the request transactions take their locks.

Every lock has a position: trades come first, then the partitions, the records (the
advisory lock of a record, its snapshot, its cache repair) and last the postings, append
records and events.  Batches and retries take their locks in this order.  `commit_records`
and `apply_trade` do so twice: in the lock loop, and again in the writes that follow it.

* `TxPlan.Shaped` — what is said about the statements of a plan;
* `TxDb.plan_shaped` — every plan has this shape.
-/
import DbProxy.CompositeKeys
import DbProxy.TransactionLocks

namespace DbProxy

/-! ### Positions -/

namespace LockTarget

def group : LockTarget → ℕ
  | .advisory (.trade _) => 0
  | .row (.trade _) => 0
  | .advisory (.partition ..) => 1
  | .advisory (.record _) => 2
  | .row (.snapshot _) => 2
  | .row (.repair _) => 2
  | .row (.unique (.posting _)) => 3
  | .row (.unique (.append _)) => 4
  | .row (.unique (.event _)) => 5

/-- What is locked, as an address. -/
def subject : LockTarget → RecordKey
  | .advisory (.trade tradeId) => ⟨tradeId, ""⟩
  | .row (.trade tradeId) => ⟨tradeId, ""⟩
  | .advisory (.partition scope partitionKey) => ⟨scope, partitionKey⟩
  | .advisory (.record record) => record
  | .row (.snapshot record) => record
  | .row (.repair record) => record
  | .row (.unique (.posting postingId)) => ⟨postingId, ""⟩
  | .row (.unique (.append record)) => record
  | .row (.unique (.event eventId)) => ⟨eventId, ""⟩

def part : LockTarget → ℕ
  | .row (.trade _) => 1
  | .row (.snapshot _) => 1
  | .row (.repair _) => 2
  | _ => 0

def position (target : LockTarget) : ℕ ×ₗ RecordKey ×ₗ ℕ :=
  toLex (target.group, toLex (target.subject, target.part))

theorem position_lt {a b : LockTarget} : a.position < b.position ↔
    a.group < b.group ∨ a.group = b.group ∧
      (a.subject < b.subject ∨ a.subject = b.subject ∧ a.part < b.part) := by
  simp only [position, Prod.Lex.toLex_lt_toLex]

end LockTarget

theorem LockName.key_injective : Function.Injective LockName.key := by
  intro a b h
  cases a <;> cases b <;> simp_all [LockName.key, partitionLockKey, advisoryLockKey_inj]
  case record.record r r' =>
    cases r
    cases r'
    simp_all

/-! ### Statements in order -/

/-- `a` may stand before `b`. -/
def Precedes (a b : LockStatement) : Prop :=
  a.target = b.target ∨ a.target.position < b.target.position

abbrev Rising (statements : List LockStatement) : Prop := statements.Pairwise Precedes

theorem precedes_of_group_lt {a b : LockStatement} (h : a.target.group < b.target.group) :
    Precedes a b :=
  .inr (LockTarget.position_lt.mpr (.inl h))

theorem rising_append {l₁ l₂ : List LockStatement} (h₁ : Rising l₁) (h₂ : Rising l₂)
    (h : ∀ a ∈ l₁, ∀ b ∈ l₂, a.target.group < b.target.group) : Rising (l₁ ++ l₂) :=
  List.pairwise_append.mpr ⟨h₁, h₂, fun a ha b hb => precedes_of_group_lt (h a ha b hb)⟩

/-- Blocks of statements, each about one address. -/
theorem rising_flatMap {α : Type*} {key : α → RecordKey} {block : α → List LockStatement} {g : ℕ}
    {l : List α} (hl : l.Pairwise fun a b => key a < key b) (hblock : ∀ a ∈ l, Rising (block a))
    (hat : ∀ a ∈ l, ∀ st ∈ block a, st.target.group = g ∧ st.target.subject = key a) :
    Rising (l.flatMap block) := by
  refine List.pairwise_flatMap.mpr ⟨hblock, hl.imp_of_mem fun ha hb hab x hx y hy => ?_⟩
  obtain ⟨hgx, hsx⟩ := hat _ ha x hx
  obtain ⟨hgy, hsy⟩ := hat _ hb y hy
  refine .inr (LockTarget.position_lt.mpr (.inr ⟨hgx.trans hgy.symm, .inl ?_⟩))
  rw [hsx, hsy]
  exact hab

/-- One statement for each element, in the order of the addresses. -/
theorem rising_map {α : Type*} {statement : α → LockStatement} {g : ℕ} {l : List α}
    (key : α → RecordKey) (target : RecordKey → LockTarget)
    (hstatement : ∀ a, (statement a).target = target (key a))
    (htarget : ∀ a, (target (key a)).group = g ∧ (target (key a)).subject = key a)
    (hl : l.Pairwise fun a b => key a ≤ key b) : Rising (l.map statement) := by
  refine List.pairwise_map.mpr (hl.imp fun {a b} hab => ?_)
  rw [Precedes, hstatement, hstatement]
  rcases hab.eq_or_lt with heq | hlt
  · exact .inl (congrArg target heq)
  · obtain ⟨hga, hsa⟩ := htarget a
    obtain ⟨hgb, hsb⟩ := htarget b
    refine .inr (LockTarget.position_lt.mpr (.inr ⟨hga.trans hgb.symm, .inl ?_⟩))
    rw [hsa, hsb]
    exact hlt

theorem RecordKey.mk_le_mk {a b : String} : (⟨a, ""⟩ : RecordKey) ≤ ⟨b, ""⟩ ↔ a ≤ b := by
  change toLex (a, "") ≤ toLex (b, "") ↔ a ≤ b
  rw [Prod.Lex.toLex_le_toLex, le_iff_lt_or_eq (a := a)]
  exact or_congr_right (and_iff_left le_rfl)

/-! ### The shape of a plan -/

/-- The snapshot that an entry of a batch, or an `apply`, writes before it repairs the
cache. -/
def LockStatement.saved : LockStatement → Option RecordKey
  | .saveSnapshot request => some request.record
  | .applySnapshot record _ => some record
  | _ => none

/-- A repair repeats that of a committed write, or directly follows the write. -/
inductive Linked (retried : RecordKey → Prop) : List LockStatement → Prop
  | nil : Linked retried []
  | select {record : RecordKey} {expected : Revision} {rest : List LockStatement} :
      Linked retried rest → Linked retried (.selectForUpdate record expected :: rest)
  | retry {record : RecordKey} {rest : List LockStatement} :
      retried record → Linked retried rest → Linked retried (.enqueueRepair record :: rest)
  | save {st : LockStatement} {record : RecordKey} {rest : List LockStatement} :
      st.saved = some record → Linked retried rest →
      Linked retried (st :: .enqueueRepair record :: rest)

theorem Linked.append {retried : RecordKey → Prop} {l₁ l₂ : List LockStatement}
    (h₁ : Linked retried l₁) (h₂ : Linked retried l₂) : Linked retried (l₁ ++ l₂) := by
  induction h₁ with
  | nil => exact h₂
  | select _ ih => exact .select ih
  | retry hretried _ ih => exact .retry hretried ih
  | save hsaved _ ih => exact .save hsaved ih

theorem linked_flatMap {α : Type*} {retried : RecordKey → Prop} {block : α → List LockStatement} :
    ∀ {l : List α}, (∀ a ∈ l, Linked retried (block a)) → Linked retried (l.flatMap block)
  | [], _ => .nil
  | a :: _, h =>
    (h a (List.mem_cons_self ..)).append
      (linked_flatMap fun other hother => h other (List.mem_cons_of_mem _ hother))

theorem linked_repairs {retried : RecordKey → Prop} :
    ∀ {records : List RecordKey}, (∀ record ∈ records, retried record) →
      Linked retried (records.map .enqueueRepair)
  | [], _ => .nil
  | record :: _, h =>
    .retry (h record (List.mem_cons_self ..))
      (linked_repairs fun other hother => h other (List.mem_cons_of_mem _ hother))

namespace TxPlan

structure Shaped (plan : TxPlan) : Prop where
  /-- Batches and retries follow the order throughout. -/
  rising : plan.locking = false → Rising plan.statements
  /-- The lock loop and the writes each follow it. -/
  phases : plan.locking = true → plan.statements.Pairwise fun a b =>
    a.isWrite = b.isWrite ∧ Precedes a b ∨ a.isWrite = false ∧ b.isWrite = true
  /-- A row of a record is guarded by the record's advisory lock. -/
  recordGuard : plan.locking = true → ∀ record, .row (.snapshot record) ∈ plan.targets ∨
      .row (.repair record) ∈ plan.targets →
    .advisoryXactLock (.record record) ∈ plan.statements ∧
      ∃ expected, .selectForUpdate record expected ∈ plan.statements
  tradeGuard : plan.locking = true → ∀ tradeId, .row (.trade tradeId) ∈ plan.targets →
    .advisoryXactLock (.trade tradeId) ∈ plan.statements
  noSave : plan.locking = true → ∀ st ∈ plan.statements, st.saved = none
  /-- Batches and retries use rows of records only. -/
  records : plan.locking = false → ∀ st ∈ plan.statements, ∃ record,
    st.target = .row (.snapshot record) ∨ st.target = .row (.repair record)
  linked : plan.locking = false →
    Linked (fun record => .row (.snapshot record) ∉ plan.targets) plan.statements

/-- The repairs of a retry. -/
theorem shaped_retry {records : List RecordKey} {claim : Option (String × TxRequest)}
    (hsorted : records.Pairwise (· ≤ ·)) :
    Shaped ⟨records.map .enqueueRepair, false, claim⟩ where
  rising _ := rising_map id (fun record => .row (.repair record)) (fun _ => rfl)
    (fun _ => ⟨rfl, rfl⟩) hsorted
  phases := nofun
  recordGuard := nofun
  tradeGuard := nofun
  noSave := nofun
  records _ st hst := by
    obtain ⟨record, -, rfl⟩ := List.mem_map.mp hst
    exact ⟨record, .inr rfl⟩
  linked _ := linked_repairs fun record _ => by
    simp [targets, LockStatement.target]

end TxPlan

/-! ### The transactions that lock their records first -/

theorem mem_recordLocks {writes : List TransactionalRecordWrite} {st : LockStatement} :
    st ∈ recordLocks writes ↔ ∃ write ∈ writes, st = .advisoryXactLock (.record write.record) ∨
      st = .selectForUpdate write.record write.expectedRevision := by
  simp [recordLocks]

theorem mem_recordWrites {writes : List TransactionalRecordWrite} {st : LockStatement} :
    st ∈ recordWrites writes ↔ ∃ write ∈ writes,
      st = .persistSnapshot write.record write.expectedRevision ∨
      st = .enqueueRepair write.record := by
  simp [recordWrites]

section Locking

variable {first upsert : List LockStatement} {writes : List TransactionalRecordWrite}
  {unique : List UniqueKey}

theorem rising_recordLocks (hwrites : writes.Pairwise fun a b => a.record < b.record) :
    Rising (recordLocks writes) := by
  refine rising_flatMap (g := 2) hwrites (fun write _ => ?_) fun write _ st hst => ?_
  · exact List.pairwise_pair.mpr (.inr (LockTarget.position_lt.mpr
      (.inr ⟨rfl, .inr ⟨rfl, Nat.zero_lt_one⟩⟩)))
  · rcases List.mem_pair.mp hst with rfl | rfl <;> exact ⟨rfl, rfl⟩

theorem rising_recordWrites (hwrites : writes.Pairwise fun a b => a.record < b.record) :
    Rising (recordWrites writes) := by
  refine rising_flatMap (g := 2) hwrites (fun write _ => ?_) fun write _ st hst => ?_
  · exact List.pairwise_pair.mpr (.inr (LockTarget.position_lt.mpr
      (.inr ⟨rfl, .inr ⟨rfl, Nat.one_lt_two⟩⟩)))
  · rcases List.mem_pair.mp hst with rfl | rfl <;> exact ⟨rfl, rfl⟩

/-- Statements about trades and partitions. -/
structure Outer (write : Bool) (statements : List LockStatement) : Prop where
  rising : Rising statements
  group : ∀ st ∈ statements, st.target.group < 2
  isWrite : ∀ st ∈ statements, st.isWrite = write
  saved : ∀ st ∈ statements, st.saved = none

theorem group_recordLocks {st : LockStatement} (h : st ∈ recordLocks writes) :
    st.target.group = 2 := by
  obtain ⟨write, -, rfl | rfl⟩ := mem_recordLocks.mp h <;> rfl

theorem group_recordWrites {st : LockStatement} (h : st ∈ recordWrites writes) :
    st.target.group = 2 := by
  obtain ⟨write, -, rfl | rfl⟩ := mem_recordWrites.mp h <;> rfl

/-- Only the lock loop and the writes are about records. -/
theorem exists_write_of_group (hfirst : Outer false first) (hupsert : Outer true upsert)
    (hunique : ∀ key ∈ unique, 2 < (LockTarget.row (.unique key)).group) {st : LockStatement}
    (h : st ∈ lockingStatements first writes upsert unique) (hgroup : st.target.group = 2) :
    ∃ write ∈ writes, st.target.subject = write.record := by
  rw [lockingStatements] at h
  simp only [List.mem_append] at h
  obtain (h | h) | (h | h) | h := h
  · exact absurd hgroup (hfirst.group st h).ne
  · obtain ⟨write, hwrite, rfl | rfl⟩ := mem_recordLocks.mp h <;> exact ⟨write, hwrite, rfl⟩
  · exact absurd hgroup (hupsert.group st h).ne
  · obtain ⟨write, hwrite, rfl | rfl⟩ := mem_recordWrites.mp h <;> exact ⟨write, hwrite, rfl⟩
  · obtain ⟨key, hkey, rfl⟩ := List.mem_map.mp h
    exact absurd hgroup (hunique key hkey).ne'

theorem TxPlan.shaped_locking {claim : Option (String × TxRequest)} (hfirst : Outer false first)
    (hupsert : Outer true upsert) (hwrites : writes.Pairwise fun a b => a.record < b.record)
    (hrising : Rising (unique.map .insertUnique))
    (hunique : ∀ key ∈ unique, 2 < (LockTarget.row (.unique key)).group)
    (htrade : ∀ st ∈ first ++ upsert, ∀ tradeId, st.target = .row (.trade tradeId) →
      .advisoryXactLock (.trade tradeId) ∈ first) :
    Shaped ⟨lockingStatements first writes upsert unique, true, claim⟩ where
  rising := nofun
  phases _ := by
    have hloop : Rising (first ++ recordLocks writes) :=
      rising_append hfirst.rising (rising_recordLocks hwrites) fun a ha b hb =>
        (hfirst.group a ha).trans_eq (group_recordLocks hb).symm
    have hrest : Rising ((upsert ++ recordWrites writes) ++ unique.map .insertUnique) := by
      refine rising_append (rising_append hupsert.rising (rising_recordWrites hwrites)
        fun a ha b hb => (hupsert.group a ha).trans_eq (group_recordWrites hb).symm) hrising ?_
      intro a ha b hb
      obtain ⟨key, hkey, rfl⟩ := List.mem_map.mp hb
      refine lt_of_le_of_lt ?_ (hunique key hkey)
      rcases List.mem_append.mp ha with ha | ha
      · exact (hupsert.group a ha).le
      · exact (group_recordWrites ha).le
    have hlock : ∀ st ∈ first ++ recordLocks writes, st.isWrite = false := by
      intro st hst
      rcases List.mem_append.mp hst with hst | hst
      · exact hfirst.isWrite st hst
      · obtain ⟨write, -, rfl | rfl⟩ := mem_recordLocks.mp hst <;> rfl
    have hwrite : ∀ st ∈ (upsert ++ recordWrites writes) ++ unique.map .insertUnique,
        st.isWrite = true := by
      intro st hst
      rcases List.mem_append.mp hst with hst | hst
      · rcases List.mem_append.mp hst with hst | hst
        · exact hupsert.isWrite st hst
        · obtain ⟨write, -, rfl | rfl⟩ := mem_recordWrites.mp hst <;> rfl
      · obtain ⟨key, -, rfl⟩ := List.mem_map.mp hst
        rfl
    refine List.pairwise_append.mpr ⟨hloop.imp_of_mem fun ha hb hab => ?_,
      hrest.imp_of_mem fun ha hb hab => ?_, fun a ha b hb => ?_⟩
    · exact .inl ⟨(hlock _ ha).trans (hlock _ hb).symm, hab⟩
    · exact .inl ⟨(hwrite _ ha).trans (hwrite _ hb).symm, hab⟩
    · exact .inr ⟨hlock a ha, hwrite b hb⟩
  recordGuard _ record h := by
    obtain ⟨st, hst, hgroup, hsubject⟩ : ∃ st ∈ lockingStatements first writes upsert unique,
        st.target.group = 2 ∧ st.target.subject = record := by
      rcases h with h | h
      · obtain ⟨st, hst, htarget⟩ := List.mem_map.mp h
        exact ⟨st, hst, by rw [htarget]; rfl, by rw [htarget]; rfl⟩
      · obtain ⟨st, hst, htarget⟩ := List.mem_map.mp h
        exact ⟨st, hst, by rw [htarget]; rfl, by rw [htarget]; rfl⟩
    obtain ⟨write, hwrite, hrecord⟩ := exists_write_of_group hfirst hupsert hunique hst hgroup
    obtain rfl : write.record = record := hrecord.symm.trans hsubject
    have hloop : ∀ st ∈ recordLocks writes, st ∈ lockingStatements first writes upsert unique :=
      fun st hst => List.mem_append_left _ (List.mem_append_right _ hst)
    exact ⟨hloop _ (mem_recordLocks.mpr ⟨write, hwrite, .inl rfl⟩), write.expectedRevision,
      hloop _ (mem_recordLocks.mpr ⟨write, hwrite, .inr rfl⟩)⟩
  tradeGuard _ tradeId h := by
    obtain ⟨st, hst, htarget⟩ := List.mem_map.mp h
    have hgroup : st.target.group = 0 := by rw [htarget]; rfl
    refine List.mem_append_left _ (List.mem_append_left _ (htrade st ?_ tradeId htarget))
    simp only [lockingStatements, List.mem_append] at hst
    obtain (hst | hst) | (hst | hst) | hst := hst
    · exact List.mem_append_left _ hst
    · exact absurd (group_recordLocks hst) (by rw [hgroup]; decide)
    · exact List.mem_append_right _ hst
    · exact absurd (group_recordWrites hst) (by rw [hgroup]; decide)
    · obtain ⟨key, hkey, rfl⟩ := List.mem_map.mp hst
      have hlt := hunique key hkey
      rw [show (LockTarget.row (.unique key)).group = 0 from hgroup] at hlt
      omega
  noSave _ st hst := by
    simp only [lockingStatements, List.mem_append] at hst
    obtain (hst | hst) | (hst | hst) | hst := hst
    · exact hfirst.saved st hst
    · obtain ⟨write, -, rfl | rfl⟩ := mem_recordLocks.mp hst <;> rfl
    · exact hupsert.saved st hst
    · obtain ⟨write, -, rfl | rfl⟩ := mem_recordWrites.mp hst <;> rfl
    · obtain ⟨key, -, rfl⟩ := List.mem_map.mp hst
      rfl
  records := nofun
  linked := nofun

end Locking

theorem outer_partitionLocks (routes : List (String × String)) :
    Outer false (partitionLocks routes) where
  rising := by
    have hsorted : (lockOrder routes).Pairwise fun a b =>
        (⟨a.1, a.2⟩ : RecordKey) ≤ ⟨b.1, b.2⟩ :=
      (pairwise_sortOn (fun route : String × String => toLex route) routes).sublist
        (List.dedup_sublist _)
    exact rising_map (fun route => ⟨route.1, route.2⟩) (fun k => .advisory (.partition k.ns k.key))
      (fun _ => rfl) (fun _ => ⟨rfl, rfl⟩) hsorted
  group st hst := by
    obtain ⟨_, -, rfl⟩ := List.mem_map.mp hst
    exact Nat.one_lt_two
  isWrite st hst := by
    obtain ⟨_, -, rfl⟩ := List.mem_map.mp hst
    rfl
  saved st hst := by
    obtain ⟨_, -, rfl⟩ := List.mem_map.mp hst
    rfl

theorem not_trade_of_mem_partitionLocks {routes : List (String × String)} {st : LockStatement}
    (h : st ∈ partitionLocks routes) (tradeId : String) : st.target ≠ .row (.trade tradeId) := by
  obtain ⟨_, -, rfl⟩ := List.mem_map.mp h
  nofun

/-- The lock and the row of a trade, and the partitions. -/
theorem outer_tradeLocks (transition : TradeTransition) (routes : List (String × String)) :
    Outer false (.advisoryXactLock (.trade transition.tradeId) ::
      .selectTradeForUpdate transition.tradeId transition.expectedVersion
        transition.expectedState :: partitionLocks routes) where
  rising := by
    have hpartitions := outer_partitionLocks routes
    have htrade : Rising [LockStatement.advisoryXactLock (.trade transition.tradeId),
        .selectTradeForUpdate transition.tradeId transition.expectedVersion
          transition.expectedState] :=
      List.pairwise_pair.mpr (.inr (LockTarget.position_lt.mpr
        (.inr ⟨rfl, .inr ⟨rfl, Nat.zero_lt_one⟩⟩)))
    refine rising_append htrade hpartitions.rising fun a ha b hb => ?_
    obtain ⟨_, -, rfl⟩ := List.mem_map.mp hb
    rcases List.mem_pair.mp ha with rfl | rfl <;> exact Nat.zero_lt_one
  group st hst := by
    rcases List.mem_cons.mp hst with rfl | hst
    · exact Nat.zero_lt_two
    rcases List.mem_cons.mp hst with rfl | hst
    · exact Nat.zero_lt_two
    exact (outer_partitionLocks routes).group st hst
  isWrite st hst := by
    rcases List.mem_cons.mp hst with rfl | hst
    · rfl
    rcases List.mem_cons.mp hst with rfl | hst
    · rfl
    exact (outer_partitionLocks routes).isWrite st hst
  saved st hst := by
    rcases List.mem_cons.mp hst with rfl | hst
    · rfl
    rcases List.mem_cons.mp hst with rfl | hst
    · rfl
    exact (outer_partitionLocks routes).saved st hst

/-- Appends or postings come before the events. -/
theorem rising_unique {keys : List UniqueKey} {events : List OutboxEvent}
    (hkeys : Rising (keys.map .insertUnique))
    (hgroup : ∀ key ∈ keys, (LockTarget.row (.unique key)).group < 5)
    (hevents : events.Pairwise fun a b => a.eventId ≤ b.eventId) :
    Rising ((keys ++ events.map fun event => UniqueKey.event event.eventId).map .insertUnique) := by
  rw [List.map_append, List.map_map]
  refine rising_append hkeys ?_ fun a ha b hb => ?_
  · exact rising_map (fun event => ⟨event.eventId, ""⟩) (fun k => .row (.unique (.event k.ns)))
      (fun _ => rfl) (fun _ => ⟨rfl, rfl⟩) (hevents.imp RecordKey.mk_le_mk.mpr)
  · obtain ⟨key, hkey, rfl⟩ := List.mem_map.mp ha
    obtain ⟨event, -, rfl⟩ := List.mem_map.mp hb
    exact hgroup key hkey

/-! ### Every plan -/

theorem saveStatements_cases (db : TxDb) (request : SnapshotWrite) :
    saveStatements db request = [] ∨ saveStatements db request = [.enqueueRepair request.record] ∨
      saveStatements db request = [.saveSnapshot request, .enqueueRepair request.record] := by
  rw [saveStatements]
  split
  · exact .inl rfl
  · split
    · exact .inr (.inr rfl)
    · split
      · exact .inr (.inl rfl)
      · exact .inl rfl

theorem shaped_saves (db : TxDb) {writes : List SnapshotWrite} {claim : Option (String × TxRequest)}
    (hdistinct : (writes.map (·.record)).Nodup) :
    TxPlan.Shaped ⟨(sortOn (·.record) writes).flatMap (saveStatements db), false, claim⟩ where
  rising _ := by
    refine rising_flatMap (g := 2) (strictlySorted_sortOn hdistinct) (fun request _ => ?_)
      fun request _ st hst => ?_
    · rcases saveStatements_cases db request with h | h | h <;> rw [h]
      · exact List.Pairwise.nil
      · exact List.pairwise_singleton ..
      · exact List.pairwise_pair.mpr (.inr (LockTarget.position_lt.mpr
          (.inr ⟨rfl, .inr ⟨rfl, Nat.one_lt_two⟩⟩)))
    · rcases saveStatements_cases db request with h | h | h <;> rw [h] at hst
      · cases hst
      · obtain rfl := List.mem_singleton.mp hst
        exact ⟨rfl, rfl⟩
      · rcases List.mem_pair.mp hst with rfl | rfl <;> exact ⟨rfl, rfl⟩
  phases := nofun
  recordGuard := nofun
  tradeGuard := nofun
  noSave := nofun
  records _ st hst := by
    obtain ⟨request, -, hst⟩ := List.mem_flatMap.mp hst
    rcases saveStatements_cases db request with h | h | h <;> rw [h] at hst
    · cases hst
    · obtain rfl := List.mem_singleton.mp hst
      exact ⟨request.record, .inr rfl⟩
    · rcases List.mem_pair.mp hst with rfl | rfl
      · exact ⟨request.record, .inl rfl⟩
      · exact ⟨request.record, .inr rfl⟩
  linked _ := by
    refine linked_flatMap fun request hrequest => ?_
    rcases saveStatements_cases db request with h | h | h <;> rw [h]
    · exact .nil
    · -- another entry that saves the record would be this one
      refine .retry (fun htarget => ?_) .nil
      obtain ⟨st, hst, htarget⟩ := List.mem_map.mp htarget
      obtain ⟨other, hother, hst⟩ := List.mem_flatMap.mp hst
      have hsame : other.record = request.record → other = request :=
        List.inj_on_of_nodup_map hdistinct (mem_sortOn.mp hother) (mem_sortOn.mp hrequest)
      rcases saveStatements_cases db other with h' | h' | h' <;> rw [h'] at hst
      · cases hst
      · obtain rfl := List.mem_singleton.mp hst
        cases htarget
      · rcases List.mem_pair.mp hst with rfl | rfl
        · obtain rfl : other = request := hsame (by simpa [LockStatement.target] using htarget)
          rw [h] at h'
          cases h'
        · cases htarget
    · exact .save rfl .nil

theorem shaped_apply (request : TransactionalWrite) {claim : Option (String × TxRequest)} :
    TxPlan.Shaped ⟨applyStatements request, false, claim⟩ where
  rising _ := by
    have hrepair : ∀ st : LockStatement, st.target = .row (.snapshot request.record) →
        Precedes st (.enqueueRepair request.record) := by
      intro st hst
      rw [Precedes, hst]
      exact .inr (LockTarget.position_lt.mpr (.inr ⟨rfl, .inr ⟨rfl, Nat.one_lt_two⟩⟩))
    refine List.pairwise_cons.mpr ⟨fun st hst => ?_, List.pairwise_pair.mpr (hrepair _ rfl)⟩
    rcases List.mem_pair.mp hst with rfl | rfl
    · exact .inl rfl
    · exact hrepair _ rfl
  phases := nofun
  recordGuard := nofun
  tradeGuard := nofun
  noSave := nofun
  records _ st hst := by
    simp only [applyStatements, List.mem_cons, List.not_mem_nil, or_false] at hst
    rcases hst with rfl | rfl | rfl
    · exact ⟨request.record, .inl rfl⟩
    · exact ⟨request.record, .inl rfl⟩
    · exact ⟨request.record, .inr rfl⟩
  linked _ := .select (.save rfl .nil)

theorem claimPlan_eq_ok {db : TxDb} {id : String} {request : TxRequest}
    {statements : Except StorageError (List LockStatement)} {locking : Bool} {plan : TxPlan}
    (h : claimPlan db id request statements locking = .ok plan) :
    (∃ l, statements = .ok l ∧ plan = ⟨l, locking, some (id, request)⟩) ∨
      plan = ⟨request.records.map .enqueueRepair, false, none⟩ := by
  rw [claimPlan] at h
  split at h
  · obtain ⟨l, hl, h⟩ := Checks.bind_eq_ok.mp h
    exact .inl ⟨l, hl, (Except.ok.inj h).symm⟩
  · split at h
    · exact .inr (Except.ok.inj h).symm
    · cases h

theorem records_lt {writes : List TransactionalRecordWrite}
    (hsorted : writes.Pairwise fun a b => a.record ≤ b.record)
    (hnodup : (writes.map (·.record)).Nodup) : writes.Pairwise fun a b => a.record < b.record :=
  (hsorted.and (List.pairwise_map.mp hnodup)).imp fun h => lt_of_le_of_ne h.1 h.2

theorem shaped_commit {decode : Bytes → Option EventEnvelope} {routes : OutboxRoutes}
    {request request' : MultiRecordTransactionalWrite} {effects effects' : CommitEffects}
    {l : List LockStatement} {claim : Option (String × TxRequest)}
    (hprepare : prepareCommit decode request effects = .ok (request', effects'))
    (hl : commitStatements decode routes request' effects' = .ok l) :
    TxPlan.Shaped ⟨l, true, claim⟩ := by
  have hprepared := prepared_of_prepareCommit hprepare
  obtain ⟨normal, hnormal, hprepare⟩ := Checks.bind_eq_ok.mp hprepare
  obtain ⟨_, -, hprepare⟩ := Checks.bind_eq_ok.mp hprepare
  obtain ⟨-, rfl⟩ := Prod.mk.inj (Except.ok.inj hprepare)
  obtain ⟨rfl, -, -⟩ := CommitEffects.normalize_ok (Checks.mapError_eq_ok.mp hnormal)
  obtain ⟨partitions, -, hl⟩ := Checks.bind_eq_ok.mp hl
  obtain rfl := Except.ok.inj hl
  refine TxPlan.shaped_locking (outer_partitionLocks partitions) ⟨.nil, nofun, nofun, nofun⟩
    (records_lt hprepared.sorted hprepared.nodup) (rising_unique ?_ ?_ (pairwise_sortOn ..)) ?_ ?_
  · rw [List.map_map]
    exact rising_map (·.record) (fun record => .row (.unique (.append record))) (fun _ => rfl)
      (fun _ => ⟨rfl, rfl⟩) (pairwise_sortOn ..)
  · intro key hkey
    obtain ⟨append, -, rfl⟩ := List.mem_map.mp hkey
    exact Nat.lt_succ_self 4
  · intro key hkey
    rcases List.mem_append.mp hkey with hkey | hkey <;> obtain ⟨_, -, rfl⟩ := List.mem_map.mp hkey
    · exact (by decide : 2 < 4)
    · exact (by decide : 2 < 5)
  · intro st hst tradeId htarget
    rw [List.append_nil] at hst
    exact absurd htarget (not_trade_of_mem_partitionLocks hst tradeId)

theorem shaped_trade {request normal : TradeTransaction} {claim : Option (String × TxRequest)}
    (hnormal : normalizeTradeTransaction request = .ok normal) :
    TxPlan.Shaped ⟨tradeStatements normal, true, claim⟩ := by
  obtain ⟨haccepted, rfl⟩ := normalizeTrade_ok hnormal
  refine TxPlan.shaped_locking (outer_tradeLocks ..) ?_
    (records_lt (pairwise_sortOn ..) haccepted.records) (rising_unique ?_ ?_ (pairwise_sortOn ..))
    ?_ ?_
  · exact ⟨List.pairwise_singleton .., by simp [LockStatement.target, LockTarget.group],
      by simp [LockStatement.isWrite], by simp [LockStatement.saved]⟩
  · rw [List.map_map]
    exact rising_map (fun posting => ⟨posting.postingId, ""⟩)
      (fun k => .row (.unique (.posting k.ns))) (fun _ => rfl) (fun _ => ⟨rfl, rfl⟩)
      ((pairwise_sortOn (·.postingId) request.ledgerPostings).imp RecordKey.mk_le_mk.mpr)
  · intro key hkey
    obtain ⟨posting, -, rfl⟩ := List.mem_map.mp hkey
    exact (by decide : 3 < 5)
  · intro key hkey
    rcases List.mem_append.mp hkey with hkey | hkey <;> obtain ⟨_, -, rfl⟩ := List.mem_map.mp hkey
    · exact (by decide : 2 < 3)
    · exact (by decide : 2 < 5)
  · intro st hst tradeId htarget
    rcases List.mem_append.mp hst with hst | hst
    · rcases List.mem_cons.mp hst with rfl | hst
      · cases htarget
      rcases List.mem_cons.mp hst with rfl | hst
      · obtain rfl : request.transition.tradeId = tradeId := by
          simpa [LockStatement.target] using htarget
        exact List.mem_cons_self ..
      · exact absurd htarget (not_trade_of_mem_partitionLocks hst tradeId)
    · obtain rfl := List.mem_singleton.mp hst
      obtain rfl : request.transition.tradeId = tradeId := by
        simpa [LockStatement.target] using htarget
      exact List.mem_cons_self ..

/-- **The order of locks.**  Every plan keeps it. -/
theorem TxDb.plan_shaped {decode : Bytes → Option EventEnvelope} {routes : OutboxRoutes}
    {db : TxDb} {request : TxRequest} {plan : TxPlan}
    (h : db.plan decode routes request = .ok plan) : plan.Shaped := by
  cases request with
  | commitRecords request effects =>
    obtain ⟨⟨request', effects'⟩, hprepare, h⟩ := Checks.bind_eq_ok.mp h
    rcases claimPlan_eq_ok h with ⟨l, hl, rfl⟩ | rfl
    · exact shaped_commit hprepare hl
    · exact TxPlan.shaped_retry
        (List.pairwise_map.mpr (prepared_of_prepareCommit hprepare).sorted)
  | applyTrade request =>
    obtain ⟨normal, hnormal, h⟩ := Checks.bind_eq_ok.mp h
    have hnormal := Checks.mapError_eq_ok.mp hnormal
    rcases claimPlan_eq_ok h with ⟨l, hl, rfl⟩ | rfl
    · obtain rfl := Except.ok.inj hl
      exact shaped_trade hnormal
    · obtain ⟨-, rfl⟩ := normalizeTrade_ok hnormal
      exact TxPlan.shaped_retry (List.pairwise_map.mpr (pairwise_sortOn ..))
  | apply request =>
    obtain ⟨_, -, h⟩ := Checks.bind_eq_ok.mp h
    rcases claimPlan_eq_ok h with ⟨l, hl, rfl⟩ | rfl
    · obtain rfl := Except.ok.inj hl
      exact shaped_apply request
    · exact TxPlan.shaped_retry (List.pairwise_singleton ..)
  | saveMulti batch =>
    obtain rfl := Except.ok.inj h
    exact shaped_saves db batch.distinct

end DbProxy
