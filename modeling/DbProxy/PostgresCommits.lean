/-
What the transactions of several records do: `commit_records` and `apply_trade`.

A retry compares what is stored and raises the repair targets; a first attempt is one
update of all tables.  Each lemma gives the exact condition.

* `commitRecords_retry`, `commitRecords_first`;
* `applyTrade_retry`, `applyTrade_first`.
-/
import DbProxy.CanonicalForms
import DbProxy.MemoryOperations
import DbProxy.PostgresStatements

namespace DbProxy

open Text EarlyReturn

namespace PostgresTables

variable (pg : PostgresTables)

def raiseAll (receipts : List TransactionRecordReceipt) : PostgresTables :=
  receipts.foldl (fun pg receipt => pg.raise receipt.record receipt.newRevision) pg

/-- The tables after a first attempt of prepared writes with normalised effects. -/
def commitRecords (encode : CommitEffects → Bytes) (request : MultiRecordTransactionalWrite)
    (effects : CommitEffects) : PostgresTables :=
  { pg with
    base := (pg.writeAll request.writes).base
    claims := Function.update pg.claims request.operationId (some { kind := .multi })
    multiTransactions := Function.update pg.multiTransactions request.operationId
      (some ⟨request.header, request.rows (request.writes.map (·.expectedRevision + 1)),
        effectsRow encode effects⟩)
    appends := effects.appends.foldl (fun appends append =>
      Function.update appends append.record
        (some (PostgresSnapshotStore.appendRow request.operationId append))) pg.appends
    outbox := (effects.outboxEvents.map
      (PostgresSnapshotStore.outboxRow request.operationId none)).foldl
        KeyedTable.insertNew pg.outbox }

end PostgresTables

namespace PostgresSnapshotStore

/-! ### Repair targets -/

/-- The repair target of the receipt can be stored. -/
structure Repairable (receipt : TransactionRecordReceipt) : Prop where
  fits : receipt.newRevision < bigintLimit
  texts : Bindable [receipt.record.ns, receipt.record.key]

theorem enqueueRepairs_yields {pg : PostgresTables} (receipts : List TransactionRecordReceipt) :
    Yields (enqueueRepairs receipts) pg (∀ receipt ∈ receipts, Repairable receipt) ()
      (pg.raiseAll receipts) := by
  rw [enqueueRepairs]
  have hstep : ∀ s : PostgresTables, ∀ receipt ∈ receipts,
      Yields (onBase (enqueueRepair receipt.record receipt.newRevision)) s (Repairable receipt) ()
        (s.raise receipt.record receipt.newRevision) := fun s receipt _ =>
    (enqueueRepair_yields _ _).congr ⟨fun h => ⟨h.1, h.2⟩, fun h => ⟨h.1, h.2⟩⟩ (fun _ => rfl)
      fun _ => rfl
  refine (yields_forM hstep pg).congr ?_ (fun _ => rfl) fun _ => rfl
  exact allAlong_iff (List.pairwise_of_forall fun _ _ _ => by rfl) pg

/-! ### One record -/

/-- A write of a transaction of several records that goes through. -/
structure Writable (pg : PostgresTables) (operationId : String) (w : TransactionalRecordWrite) :
    Prop where
  texts : Bindable [operationId, w.record.ns, w.record.key, w.schema]
  current : pg.revision w.record = w.expectedRevision
  next : w.expectedRevision + 1 < bigintLimit
  time : w.updatedAtUnixMs < bigintLimit

theorem bigintLimit_lt : bigintLimit < 2 ^ 64 := by decide

theorem Writable.comparable {pg : PostgresTables} {operationId : String}
    {w : TransactionalRecordWrite} (h : Writable pg operationId w) : Comparable pg w where
  texts := h.texts.sublist (by simp)
  current := h.current
  next := h.next.trans bigintLimit_lt

theorem Writable.persistable {pg : PostgresTables} {operationId : String}
    {w : TransactionalRecordWrite} (h : Writable pg operationId w) :
    Persistable pg operationId w where
  texts := h.texts
  current row hrow := by
    have hcurrent := h.current
    rwa [PostgresTables.revision, hrow] at hcurrent
  next := h.next
  time := h.time

theorem writable_of {pg : PostgresTables} {operationId : String} {w : TransactionalRecordWrite}
    (hcomparable : Comparable pg w) (hpersistable : Persistable pg operationId w) :
    Writable pg operationId w :=
  ⟨hpersistable.texts, hcomparable.current, hpersistable.next, hpersistable.time⟩

theorem writable_congr {pg pg' : PostgresTables} {operationId : String}
    {w : TransactionalRecordWrite} (h : pg'.base = pg.base) :
    Writable pg' operationId w ↔ Writable pg operationId w := by
  have hrevision : pg'.revision w.record = pg.revision w.record := by
    rw [PostgresTables.revision, h, PostgresTables.revision]
  constructor
  · rintro ⟨htexts, hcurrent, hnext, htime⟩
    exact ⟨htexts, hrevision ▸ hcurrent, hnext, htime⟩
  · rintro ⟨htexts, hcurrent, hnext, htime⟩
    exact ⟨htexts, hrevision.symm ▸ hcurrent, hnext, htime⟩

theorem persistable_congr {pg pg' : PostgresTables} {operationId : String}
    {w : TransactionalRecordWrite} (h : pg'.base = pg.base) :
    Persistable pg' operationId w ↔ Persistable pg operationId w := by
  constructor
  · rintro ⟨htexts, hcurrent, hnext, htime⟩
    exact ⟨htexts, h ▸ hcurrent, hnext, htime⟩
  · rintro ⟨htexts, hcurrent, hnext, htime⟩
    exact ⟨htexts, h.symm ▸ hcurrent, hnext, htime⟩

/-- The writes see the snapshot tables only. -/
theorem writeAll_base : ∀ (writes : List TransactionalRecordWrite) (pg : PostgresTables),
    pg.writeAll writes = { pg with base := (pg.writeAll writes).base }
  | [], _ => rfl
  | w :: rest, pg => writeAll_base rest (pg.write w)

theorem writeAll_congr : ∀ (writes : List TransactionalRecordWrite) {pg pg' : PostgresTables},
    pg'.base = pg.base → (pg'.writeAll writes).base = (pg.writeAll writes).base
  | [], _, _, h => h
  | w :: rest, pg, pg', h => by
    refine writeAll_congr rest ?_
    simp only [PostgresTables.write, PostgresTables.raise, PostgresTables.storeRow, h]

theorem zip_map_self {α β : Type*} (g : α → β) (l : List α) :
    l.zip (l.map g) = l.map fun a => (a, g a) := by
  simpa using List.zip_map' (f := id) (g := g) (l := l)

theorem zipWith_map_right {α β γ : Type*} (f : α → β → γ) (g : α → β) (l : List α) :
    l.zipWith f (l.map g) = l.map fun a => f a (g a) := by
  rw [List.zipWith_map_right, List.zipWith_self]

/-! ### Effects -/

section Effects

variable {pg : PostgresTables} {operationId : String}

theorem foldl_addAppend (appends : List AppendRecord) :
    ∀ pg : PostgresTables, appends.foldl (addAppend operationId) pg = { pg with
      appends := appends.foldl (fun table append =>
        Function.update table append.record (some (appendRow operationId append))) pg.appends } := by
  induction appends with
  | nil => exact fun _ => rfl
  | cons append rest ih => exact fun pg => ih (addAppend operationId pg append)

theorem foldl_addEvent (tradeId : Option String) (events : List OutboxEvent) :
    ∀ pg : PostgresTables, events.foldl (addEvent operationId tradeId) pg = { pg with
      outbox := (events.map (outboxRow operationId tradeId)).foldl KeyedTable.insertNew
        pg.outbox } := by
  induction events with
  | nil => exact fun _ => rfl
  | cons event rest ih => exact fun pg => ih (addEvent operationId tradeId pg event)

theorem appendable_congr {pg' : PostgresTables} {append : AppendRecord}
    (h : pg'.appends = pg.appends) :
    Appendable pg' operationId append ↔ Appendable pg operationId append := by
  constructor
  · rintro ⟨htime, htexts, hfree⟩
    exact ⟨htime, htexts, h ▸ hfree⟩
  · rintro ⟨htime, htexts, hfree⟩
    exact ⟨htime, htexts, h.symm ▸ hfree⟩

theorem insertable_congr {pg' : PostgresTables} {event : OutboxEvent}
    (houtbox : pg'.outbox = pg.outbox) (hroutes : pg'.routes = pg.routes) :
    Insertable pg' operationId event ↔ Insertable pg operationId event := by
  constructor
  · rintro ⟨htime, htexts, hrouted, hfree⟩
    exact ⟨htime, htexts, hroutes ▸ hrouted, houtbox ▸ hfree⟩
  · rintro ⟨htime, htexts, hrouted, hfree⟩
    exact ⟨htime, htexts, hroutes.symm ▸ hrouted, houtbox.symm ▸ hfree⟩

/-- Appends and events of a commit can all be inserted. -/
structure EffectsStorable (pg : PostgresTables) (operationId : String) (effects : CommitEffects) :
    Prop where
  appends : ∀ append ∈ effects.appends, Appendable pg operationId append
  events : ∀ event ∈ effects.outboxEvents, Insertable pg operationId event

theorem isEmpty_iff {effects : CommitEffects} :
    effects.isEmpty = true ↔ effects.appends = [] ∧ effects.outboxEvents = [] := by
  rw [CommitEffects.isEmpty, Bool.and_eq_true, List.isEmpty_iff, List.isEmpty_iff]

theorem persistEffects_yields {encode : CommitEffects → Bytes} {effects : CommitEffects}
    {stored : MultiTransaction} (hid : Bindable [operationId])
    (hstored : pg.multiTransactions operationId = some stored) (hfresh : stored.effects = none)
    (happends : (effects.appends.map (·.record)).Nodup)
    (hevents : (effects.outboxEvents.map (·.eventId)).Nodup) :
    Yields (persistEffects encode operationId effects) pg (EffectsStorable pg operationId effects)
      () { pg with
        multiTransactions := Function.update pg.multiTransactions operationId
          (some { stored with effects := effectsRow encode effects })
        appends := effects.appends.foldl (fun appends append =>
          Function.update appends append.record (some (appendRow operationId append))) pg.appends
        outbox := (effects.outboxEvents.map (outboxRow operationId none)).foldl
          KeyedTable.insertNew pg.outbox } := by
  rw [persistEffects]
  cases hempty : effects.isEmpty with
  | true =>
    obtain ⟨hnoAppends, hnoEvents⟩ := isEmpty_iff.mp hempty
    rw [if_pos rfl]
    refine (yields_pure () pg ⟨by simp [hnoAppends], by simp [hnoEvents]⟩).congr Iff.rfl
      (fun _ => rfl) fun _ => ?_
    have hself : { stored with effects := effectsRow encode effects } = stored := by
      rw [effectsRow, if_pos hempty, ← hfresh]
    rw [hself, hnoAppends, hnoEvents, ← hstored, Function.update_eq_self]
    rfl
  | false =>
    rw [if_neg (by simp)]
    refine (bindParams_yields _).bind (fun _ => hid) fun _ => ?_
    refine (yields_modify _ _ trivial).bind (fun _ => trivial) fun _ => ?_
    refine (insertAppends_yields happends).bind (fun h append hmem =>
      (appendable_congr (by rfl)).mpr (h.appends append hmem)) fun hstorable => ?_
    rw [foldl_addAppend]
    refine (insertOutboxEvents_yields none _ hevents).congr ?_ (fun _ => rfl) fun _ => ?_
    · constructor
      · intro h
        exact ⟨fun append hmem => (appendable_congr (by rfl)).mp (hstorable append hmem),
          fun event hmem => (insertable_congr (by rfl) (by rfl)).mp (h event hmem)⟩
      · exact fun h event hmem => (insertable_congr (by rfl) (by rfl)).mpr (h.events event hmem)
    · rw [foldl_addEvent]
      simp [hstored, effectsRow, hempty]

end Effects

/-! ### Transactions of several records -/

section Multi

variable {decode : Bytes → Option EventEnvelope} {encode : CommitEffects → Bytes}
  {pg : PostgresTables} {request : MultiRecordTransactionalWrite} {effects : CommitEffects}

/-- What a retry and a first attempt both ask. -/
structure MultiAccepts (pg : PostgresTables) (request : MultiRecordTransactionalWrite) : Prop where
  texts : Bindable [request.operationId]
  claimable : pg.Claimable request.operationId .multi
  header : checkHeaderI64 request = .ok ()

theorem claimMultiTransaction_some {stored : MultiTransaction}
    (hstored : pg.multiTransactions request.operationId = some stored) :
    Yields (claimMultiTransaction request) pg (Bindable [request.operationId]) (some stored) pg := by
  rw [claimMultiTransaction]
  refine (bindParams_yields _).bind id fun htexts => yields_get_bind ?_
  rw [hstored]
  exact yields_pure _ _ htexts

theorem claimMultiTransaction_none (hnone : pg.multiTransactions request.operationId = none) :
    Yields (claimMultiTransaction request) pg (Bindable [request.operationId]) none
      { pg with
        multiTransactions := Function.update pg.multiTransactions request.operationId
          (some { header := request.header }) } := by
  rw [claimMultiTransaction]
  refine (bindParams_yields _).bind id fun htexts => yields_get_bind ?_
  rw [hnone]
  exact (yields_set _ _ trivial).bind (fun _ => trivial) fun _ => yields_pure _ _ htexts

theorem retryMulti_yields (stored : MultiTransaction) :
    Yields (retryMulti encode request effects stored) pg
      (effectsMatch encode stored.effects effects = true ∧
        receiptMatches stored.header (sortOn (·.record) stored.records) request = true ∧
        ∀ receipt ∈ ((sortOn (·.record) stored.records).zip request.writes).map
          (fun x => (⟨x.2.record, x.1.newRevision⟩ : TransactionRecordReceipt)), Repairable receipt)
      (.duplicate (((sortOn (·.record) stored.records).zip request.writes).map
        fun x => ⟨x.2.record, x.1.newRevision⟩) stored.header.result)
      (pg.raiseAll (((sortOn (·.record) stored.records).zip request.writes).map
        fun x => ⟨x.2.record, x.1.newRevision⟩)) := by
  rw [retryMulti]
  refine yields_unless (fun h => by simp [h.1]) fun heffects => ?_
  dsimp only
  refine yields_unless (fun h => by simp [h.2.1]) fun hreceipt => ?_
  refine (enqueueRepairs_yields _).bind (·.2.2) fun hrepair => ?_
  exact yields_pure _ _ ⟨by simpa using heffects, by simpa using hreceipt, hrepair⟩

/-- What a first attempt asks of the tables. -/
structure MultiCommits (pg : PostgresTables) (request : MultiRecordTransactionalWrite)
    (effects : CommitEffects) : Prop where
  writable : ∀ w ∈ request.writes, Writable pg request.operationId w
  effects : EffectsStorable pg request.operationId effects

theorem multiCommits_congr {pg' : PostgresTables} (hbase : pg'.base = pg.base)
    (happends : pg'.appends = pg.appends) (houtbox : pg'.outbox = pg.outbox)
    (hroutes : pg'.routes = pg.routes) :
    MultiCommits pg' request effects ↔ MultiCommits pg request effects := by
  constructor
  · rintro ⟨hwritable, hstorable⟩
    exact ⟨fun w hw => (writable_congr hbase).mp (hwritable w hw),
      fun append hmem => (appendable_congr happends).mp (hstorable.appends append hmem),
      fun event hmem => (insertable_congr houtbox hroutes).mp (hstorable.events event hmem)⟩
  · rintro ⟨hwritable, hstorable⟩
    exact ⟨fun w hw => (writable_congr hbase).mpr (hwritable w hw),
      fun append hmem => (appendable_congr happends).mpr (hstorable.appends append hmem),
      fun event hmem => (insertable_congr houtbox hroutes).mpr (hstorable.events event hmem)⟩

/-- The effects that a method works on. -/
structure NormalEffects (decode : Bytes → Option EventEnvelope) (effects : CommitEffects) :
    Prop where
  appends : (effects.appends.map (·.record)).Nodup
  eventIds : (effects.outboxEvents.map (·.eventId)).Nodup
  envelopes : ∀ event ∈ effects.outboxEvents,
    ∃ envelope, EventEnvelope.fromOutbox decode event = .ok envelope

theorem normalEffects_of_ok {effects normal : CommitEffects}
    (h : effects.normalize decode = .ok normal) : NormalEffects decode normal := by
  have hwell := CommitEffects.normalize_isOk.mp ⟨normal, h⟩
  obtain ⟨rfl, -, -⟩ := CommitEffects.normalize_ok h
  refine ⟨map_sortOn_nodup.mpr hwell.appendKeys, map_sortOn_nodup.mpr hwell.eventIds, ?_⟩
  intro event hmem
  exact CommitEffects.fromOutbox_isOk.mpr (hwell.envelopes event (mem_sortOn.mp hmem))

/-- Effects that can be stored have partitions that can be locked. -/
theorem EffectsStorable.lockable {operationId : String} {effects : CommitEffects}
    (h : EffectsStorable pg operationId effects) : Lockable decode pg effects where
  routed event hmem envelope hok := by
    have hevent := h.events event hmem
    rcases EventEnvelope.fromOutbox_eq_ok.mp hok with ⟨-, hnone⟩ | ⟨-, hrelay, -⟩
    · cases hnone
    · exact ⟨hevent.texts.sublist (by simp), hevent.routed hrelay⟩
  texts event hmem := (h.events event hmem).texts.sublist (by simp)

theorem header_rows_eq (request : MultiRecordTransactionalWrite) :
    request.rows (request.writes.map (·.expectedRevision + 1)) =
      request.writes.map fun w => .ofWrite w (w.expectedRevision + 1) :=
  zipWith_map_right _ _ _

theorem commitMulti_yields (hprepared : request.Prepared) (hnormal : NormalEffects decode effects)
    (hid : Bindable [request.operationId])
    (hstored : pg.multiTransactions request.operationId = some { header := request.header }) :
    Yields (commitMulti decode encode request effects) pg (MultiCommits pg request effects)
      (.applied (request.writes.map (·.receipt)) request.result) { pg with
        base := (pg.writeAll request.writes).base
        multiTransactions := Function.update pg.multiTransactions request.operationId
          (some ⟨request.header, request.rows (request.writes.map (·.expectedRevision + 1)),
            effectsRow encode effects⟩)
        appends := effects.appends.foldl (fun appends append =>
          Function.update appends append.record
            (some (appendRow request.operationId append))) pg.appends
        outbox := (effects.outboxEvents.map (outboxRow request.operationId none)).foldl
          KeyedTable.insertNew pg.outbox } := by
  rw [commitMulti]
  refine (lockPartitions_yields hnormal.envelopes).bind (·.effects.lockable) fun _ => ?_
  refine (compareRevisions_yields _).bind (fun h w hw => (h.writable w hw).comparable)
    fun hcomparable => ?_
  have hrows : multiRecords.records pg request.operationId = some [] :=
    congrArg (Option.map _) hstored
  refine (persistWrites_yields hprepared.nodup hrows (by simp)).bind
    (fun h w hw => (h.writable w hw).persistable) fun hpersistable => ?_
  rw [List.nil_append, ← header_rows_eq]
  set rows := request.rows (request.writes.map (·.expectedRevision + 1)) with hrows
  set written := multiRecords.setRecords (pg.writeAll request.writes) request.operationId rows
    with hwritten
  have hsame := writeAll_base request.writes pg
  have hstored' : written.multiTransactions request.operationId =
      some { header := request.header, records := rows } := by
    rw [hwritten, hsame]
    simp [multiRecords, hstored]
  -- the record loop left the tables of the effects alone
  have hstorable : EffectsStorable written request.operationId effects ↔
      EffectsStorable pg request.operationId effects := by
    rw [hwritten, hsame]
    constructor
    · rintro ⟨happends, hevents⟩
      exact ⟨fun append hmem => (appendable_congr (by rfl)).mp (happends append hmem),
        fun event hmem => (insertable_congr (by rfl) (by rfl)).mp (hevents event hmem)⟩
    · rintro ⟨happends, hevents⟩
      exact ⟨fun append hmem => (appendable_congr (by rfl)).mpr (happends append hmem),
        fun event hmem => (insertable_congr (by rfl) (by rfl)).mpr (hevents event hmem)⟩
  refine (persistEffects_yields hid hstored' rfl hnormal.appends hnormal.eventIds).bind
    (fun h => hstorable.mpr h.effects) fun heffects => ?_
  have hcommits : MultiCommits pg request effects :=
    ⟨fun w hw => writable_of (hcomparable w hw) (hpersistable w hw), hstorable.mp heffects⟩
  refine (yields_pure _ _ hcommits).congr Iff.rfl (fun _ => ?_) fun _ => ?_
  · rw [zip_map_self, List.map_map]
    rfl
  · rw [hwritten, hsame]
    simp [multiRecords]

/-- The checks that a retry and a first attempt share. -/
theorem commitRecords_checks {request' : MultiRecordTransactionalWrite} {effects' : CommitEffects}
    {P : Prop} {stored : Option MultiTransaction} {outcome : MultiRecordTransactionalWriteOutcome}
    {claimed pg' : PostgresTables}
    (hprepare : prepareCommit decode request' effects' = .ok (request, effects))
    (hP : P → MultiAccepts pg request)
    (hclaim : Yields (claimMultiTransaction request) (pg.claim request.operationId .multi)
      (Bindable [request.operationId]) stored claimed)
    (h : MultiAccepts pg request →
      Yields (stored.elim (commitMulti decode encode request effects)
        (retryMulti encode request effects)) claimed P outcome pg') :
    Yields (commitRecords decode encode request' effects') pg P outcome pg' := by
  rw [commitRecords, hprepare]
  refine (yields_pure (request, effects) pg trivial).bind (fun _ => trivial) fun _ => ?_
  refine (claimOperation_yields _ _).bind (fun hp => ⟨(hP hp).texts, (hP hp).claimable⟩)
    fun hclaimed => ?_
  have hheader : ∀ u, checkHeaderI64 request = .ok u ↔
      checkHeaderI64 request = .ok () ∧ u = () := by simp
  refine (yields_ofExcept hheader).bind (fun hp => (hP hp).header) fun hheader => ?_
  refine hclaim.bind (fun _ => hclaimed.1) fun _ => ?_
  have hrest := h ⟨hclaimed.1, hclaimed.2, hheader⟩
  cases stored with
  | none => exact hrest
  | some stored => exact hrest

/-- A retry of a commit. -/
theorem commitRecords_retry {request' : MultiRecordTransactionalWrite} {effects' : CommitEffects}
    (hprepare : prepareCommit decode request' effects' = .ok (request, effects))
    {stored : MultiTransaction}
    (hstored : pg.multiTransactions request.operationId = some stored) :
    Yields (commitRecords decode encode request' effects') pg
      (MultiAccepts pg request ∧ effectsMatch encode stored.effects effects = true ∧
        receiptMatches stored.header (sortOn (·.record) stored.records) request = true ∧
        ∀ receipt ∈ ((sortOn (·.record) stored.records).zip request.writes).map
          (fun x => (⟨x.2.record, x.1.newRevision⟩ : TransactionRecordReceipt)), Repairable receipt)
      (.duplicate (((sortOn (·.record) stored.records).zip request.writes).map
        fun x => ⟨x.2.record, x.1.newRevision⟩) stored.header.result)
      ((pg.claim request.operationId .multi).raiseAll
        (((sortOn (·.record) stored.records).zip request.writes).map
          fun x => ⟨x.2.record, x.1.newRevision⟩)) := by
  have hstored : (pg.claim request.operationId .multi).multiTransactions request.operationId =
    some stored := hstored
  refine commitRecords_checks hprepare And.left (claimMultiTransaction_some hstored)
    fun haccepts => ?_
  exact (retryMulti_yields stored).congr (and_iff_right haccepts).symm (fun _ => rfl) fun _ => rfl

/-- A first attempt of a commit. -/
theorem commitRecords_first {request' : MultiRecordTransactionalWrite} {effects' : CommitEffects}
    (hprepare : prepareCommit decode request' effects' = .ok (request, effects))
    (hnormal : NormalEffects decode effects)
    (hnone : pg.multiTransactions request.operationId = none) :
    Yields (commitRecords decode encode request' effects') pg
      (MultiAccepts pg request ∧ MultiCommits pg request effects)
      (.applied (request.writes.map (·.receipt)) request.result)
      (pg.commitRecords encode request effects) := by
  have hnone : (pg.claim request.operationId .multi).multiTransactions request.operationId =
    none := hnone
  refine commitRecords_checks hprepare And.left (claimMultiTransaction_none hnone)
    fun haccepts => ?_
  refine (commitMulti_yields (prepared_of_prepareCommit hprepare) hnormal haccepts.texts
    (Function.update_self ..)).congr ?_ (fun _ => rfl) fun _ => ?_
  · exact (multiCommits_congr (by rfl) (by rfl) (by rfl) (by rfl)).trans
      (and_iff_right haccepts).symm
  · have hbase := writeAll_congr request.writes (by rfl :
      ({ pg.claim request.operationId .multi with
        multiTransactions := Function.update pg.multiTransactions request.operationId
          (some { header := request.header }) } : PostgresTables).base = pg.base)
    rw [PostgresTables.commitRecords, ← hbase, Function.update_idem]
    rfl

end Multi

end PostgresSnapshotStore

end DbProxy
