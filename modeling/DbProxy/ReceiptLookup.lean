/-
Receipt lookups beside retirement (`load_multi_receipt`).

A lookup reads the header, then the claim if there is no header, or the rows if there
is one.  The statements share no transaction: each sees what is committed when it runs.

* `LookupSystem.step` — lookups among all interleavings of `ClaimSystem`;
* `receipt_lookup_consistent` — a lookup of a committed operation gets its receipt or
  that it has expired, if no retirement of the operation commits between the header
  and the rows;
* `retirement_between_reads` — without that it may get a conflict.
-/
import DbProxy.ClaimLifecycle

namespace DbProxy

open StepMachine Text

/-! ### The lookup -/

/-- `sorted_unique_records`. -/
def sortedUniqueRecords (records : List RecordKey) : Except StoreError (List RecordKey) :=
  if records.isEmpty then .error .emptyTransactionRecords
  else do
    let sorted := sortOn id records
    sorted.forM fun record =>
      if blank record.ns then .error (.invalidKey "namespace is empty")
      else if blank record.key then .error (.invalidKey "key is empty")
      else .ok ()
    checkDistinctRecords sorted
    return sorted

/-- The checks of a lookup. -/
def prepareLookup (operationId : String) (records : List RecordKey) :
    Except StoreError (List RecordKey) :=
  if blank operationId then .error .emptyOperationId else sortedUniqueRecords records

/-- The receipt from the header and the sorted rows. -/
def receiptFromRows (operationId : String) (expected : List RecordKey)
    (header : MultiTransactionRow) (rows : List MultiRecordRow) :
    Except StorageError (Option MultiRecordTransactionReceipt) :=
  if rows.length ≠ expected.length ∨ rows.length ≠ header.recordCount then
    .error (.core (.operationIdConflict operationId))
  else if (rows.zip expected).all fun (row, record) => row.record = record then
    .ok (some ⟨operationId, (rows.zip expected).map fun (row, record) => ⟨record, row.newRevision⟩,
      header.result⟩)
  else .error (.core (.operationIdConflict operationId))

inductive LookupPhase
  | absent
  | opened (expected : List RecordKey)
  /-- there was no header -/
  | missing
  | found (expected : List RecordKey) (header : MultiTransactionRow)
  | answered (outcome : Except StorageError (Option MultiRecordTransactionReceipt))
deriving DecidableEq

/-- A lookup that fails its checks reads nothing. -/
def LookupPhase.first (operationId : String) (records : List RecordKey) : LookupPhase :=
  match prepareLookup operationId records with
  | .error e => .answered (.error (.core e))
  | .ok expected => .opened expected

/-- `startedAt` counts what had happened when the lookup started. -/
structure Lookup where
  operationId : String := ""
  records : List RecordKey := []
  startedAt : ℕ := 0
  phase : LookupPhase := .absent

structure LookupSystem where
  claims : ClaimSystem := {}
  lookups : ℕ → Lookup := fun _ => {}
  lookupCount : ℕ := 0

inductive LookupEvent
  | claims (e : ClaimEvent)
  | begin (operationId : String) (records : List RecordKey)
  | readHeader (lookup : ℕ)
  | readClaim (lookup : ℕ)
  | readRows (lookup : ℕ)

namespace LookupSystem

def setPhase (s : LookupSystem) (lookup : ℕ) (phase : LookupPhase) : LookupSystem :=
  { s with lookups := Function.update s.lookups lookup { s.lookups lookup with phase } }

def step (decode : Bytes → Option EventEnvelope) (encode : CommitEffects → Bytes)
    (s : LookupSystem) : LookupEvent → Option LookupSystem
  | .claims e => (s.claims.step decode encode e).map fun claims => { s with claims }
  | .begin operationId records =>
    some { s with
      lookups := Function.update s.lookups s.lookupCount
        ⟨operationId, records, s.claims.history.length, .first operationId records⟩
      lookupCount := s.lookupCount + 1 }
  | .readHeader i =>
    match (s.lookups i).phase with
    | .opened expected =>
      match s.claims.tables.headers (s.lookups i).operationId with
      | none => some (s.setPhase i .missing)
      | some header => some (s.setPhase i (.found expected header))
    | _ => none
  | .readClaim i =>
    match (s.lookups i).phase with
    | .missing =>
      let operationId := (s.lookups i).operationId
      let retired := (s.claims.tables.claims operationId).any fun c =>
        c.kind = .multi ∧ c.retiredAt.isSome
      some (s.setPhase i (.answered
        (if retired then .error (.core (.operationExpired operationId)) else .ok none)))
    | _ => none
  | .readRows i =>
    match (s.lookups i).phase with
    | .found expected header =>
      let operationId := (s.lookups i).operationId
      some (s.setPhase i (.answered (receiptFromRows operationId expected header
        (sortOn (·.record) (s.claims.tables.records operationId)))))
    | _ => none

end LookupSystem

/-! ### What a step leaves -/

namespace ClaimSystem

variable {decode : Bytes → Option EventEnvelope} {encode : CommitEffects → Bytes}
  {s t : ClaimSystem}

/-- Only commits change the tables. -/
theorem step_tables {e : ClaimEvent} (h : s.step decode encode e = some t)
    (hcommit : ∀ i, e ≠ .commit i) (hworker : ∀ w, e ≠ .commitWorker w)
    (hother : ∀ id kind now, e ≠ .otherClaim id kind now) : t.tables = s.tables := by
  cases e with
  | commit i => exact absurd rfl (hcommit i)
  | commitWorker w => exact absurd rfl (hworker w)
  | otherClaim id kind now => exact absurd rfl (hother id kind now)
  | lockShare i =>
    simp only [step, stepCall, ClaimSystem.lockShare] at h
    (repeat' split at h) <;> first
      | contradiction
      | (obtain rfl := Option.some.inj h; rfl)
  | lockRecord i =>
    simp only [step, stepCall, ClaimSystem.lockRecord] at h
    (repeat' split at h) <;> first
      | contradiction
      | (obtain rfl := Option.some.inj h; rfl)
  | _ =>
    simp only [step, stepCall, stepWorker] at h
    (repeat' split at h) <;> first
      | contradiction
      | (obtain rfl := Option.some.inj h; rfl)
      | (obtain ⟨_, -, rfl⟩ := Option.map_eq_some_iff.mp h; rfl)

/-- A commit concerns an operation without a claim. -/
theorem step_commit (inv : s.ClaimInv encode) {i : ℕ}
    (h : s.step decode encode (.commit i) = some t) :
    t.tables = s.tables ∨ ∃ id, s.tables.claims id = none ∧ ∀ id', id' ≠ id →
      t.tables.claims id' = s.tables.claims id' ∧ t.tables.headers id' = s.tables.headers id' := by
  simp only [step, stepCall] at h
  split at h
  · obtain rfl := Option.some.inj h
    exact Or.inl rfl
  · rename_i revisions claim hphase hown
    obtain rfl := Option.some.inj h
    refine Or.inr ⟨(s.calls i).operationId, ((inv.view i).own claim hown).2.2, fun id' hid => ?_⟩
    exact ⟨Function.update_of_ne hid .., Function.update_of_ne hid ..⟩
  · cases h

theorem step_otherClaim {id : String} {kind : OperationKind} {now : ℕ}
    (h : s.step decode encode (.otherClaim id kind now) = some t) :
    s.tables.claims id = none ∧ t.tables.headers = s.tables.headers ∧
      ∀ id', id' ≠ id → t.tables.claims id' = s.tables.claims id' := by
  simp only [step, Option.ite_none_left_eq_some, Option.some.injEq] at h
  obtain ⟨hguard, rfl⟩ := h
  push Not at hguard
  exact ⟨by simpa using hguard.2.1, rfl, fun id' hid => Function.update_of_ne hid ..⟩

/-- The commit of a maintenance statement. -/
theorem step_commitWorker {w : ℕ} (h : s.step decode encode (.commitWorker w) = some t) :
    ∃ worker, s.workers w = some worker ∧ t.tables = retentionTables s.tables worker ∧
      t.history = match worker.kind with
        | .retirement => s.history
        | .purge => s.history ++ worker.due.map .purged := by
  simp only [step, stepWorker] at h
  split at h
  · rename_i worker hw
    simp only [Option.ite_none_right_eq_some, Option.some.injEq] at h
    obtain ⟨-, rfl⟩ := h
    exact ⟨worker, hw, rfl, rfl⟩
  · cases h

/-- A retired claim stays until it is purged. -/
theorem step_retired {e : ClaimEvent} (inv : s.ClaimInv encode)
    (h : s.step decode encode e = some t) {id : String} {c : ClaimRow}
    (hc : s.tables.claims id = some c) (hkind : c.kind = .multi) (hretired : c.retiredAt.isSome)
    (hpurge : t.purgeCount id = 0) :
    ∃ c', t.tables.claims id = some c' ∧ c'.kind = .multi ∧ c'.retiredAt.isSome := by
  have hkeep : t.tables.claims id = s.tables.claims id →
      ∃ c', t.tables.claims id = some c' ∧ c'.kind = .multi ∧ c'.retiredAt.isSome :=
    fun heq => ⟨c, heq.trans hc, hkind, hretired⟩
  have hne : ∀ {id'}, s.tables.claims id' = none → id ≠ id' := by
    rintro id' hnone rfl
    rw [hnone] at hc
    cases hc
  cases e with
  | commit i =>
    rcases step_commit inv h with heq | ⟨id', hnone, hsame⟩
    · exact hkeep (by rw [heq])
    · exact hkeep (hsame id (hne hnone)).1
  | otherClaim id' kind now =>
    obtain ⟨hnone, -, hsame⟩ := step_otherClaim h
    exact hkeep (hsame id (hne hnone))
  | commitWorker w =>
    obtain ⟨worker, hw, htables, hhistory⟩ := step_commitWorker h
    cases hworker : worker.kind with
    | retirement =>
      rw [htables]
      simp only [retentionTables, hworker, hc, Option.map_some]
      split
      · exact ⟨_, rfl, hkind, rfl⟩
      · exact ⟨c, rfl, hkind, hretired⟩
    | purge =>
      simp only [hworker] at hhistory
      rw [purgeCount, hhistory, purgeCount_append (inv.workers w worker hw).nodup] at hpurge
      have hid : id ∉ worker.due := by
        intro hid
        rw [if_pos hid] at hpurge
        omega
      refine hkeep ?_
      rw [htables]
      simp only [retentionTables, hworker, if_neg hid]
  | _ => exact hkeep (by rw [step_tables h (by simp) (by simp) (by simp)])

/-- A header goes only with a retirement. -/
theorem step_header {e : ClaimEvent} (inv : s.ClaimInv encode)
    (h : s.step decode encode e = some t) {id : String} {header : MultiTransactionRow}
    (hheader : s.tables.headers id = some header)
    (hcalm : ∀ w worker, e = .commitWorker w → s.workers w = some worker →
      worker.kind = .retirement → id ∉ worker.due) : t.tables.headers id = some header := by
  have hkeep : t.tables.headers id = s.tables.headers id → t.tables.headers id = some header :=
    fun heq => heq.trans hheader
  cases e with
  | commit i =>
    rcases step_commit inv h with heq | ⟨id', hnone, hsame⟩
    · exact hkeep (by rw [heq])
    · refine hkeep (hsame id ?_).2
      rintro rfl
      rw [inv.tables.headers_eq_none hnone] at hheader
      cases hheader
  | otherClaim id' kind now => exact hkeep (by rw [(step_otherClaim h).2.1])
  | commitWorker w =>
    obtain ⟨worker, hw, htables, -⟩ := step_commitWorker h
    refine hkeep ?_
    rw [htables]
    cases hworker : worker.kind with
    | retirement =>
      simp only [retentionTables, hworker]
      rw [if_neg fun hid => hcalm w worker rfl hw hworker hid.1]
    | purge => simp only [retentionTables, hworker]
  | _ => exact hkeep (by rw [step_tables h (by simp) (by simp) (by simp)])

/-- History and purges only grow. -/
theorem claims_history {e : ClaimEvent} (inv : s.ClaimInv encode)
    (h : s.step decode encode e = some t) : ∃ extra, t.history = s.history ++ extra := by
  rcases step_answers inv h with ⟨due, hhistory⟩ | ⟨i, outcome, hhistory, -⟩
  · exact ⟨_, hhistory⟩
  · exact ⟨_, hhistory⟩

end ClaimSystem

/-! ### The invariant -/

namespace LookupSystem

open ClaimSystem

variable {decode : Bytes → Option EventEnvelope} {encode : CommitEffects → Bytes}
  {s t : LookupSystem}

/-- The lookup asks for an operation that was committed before it started, with its own
records in any order. -/
structure Asks (s : LookupSystem) (l : Lookup) (request : MultiRecordTransactionalWrite)
    (effects : CommitEffects) (records : List TransactionRecordReceipt) (result : Bytes) :
    Prop where
  committed : ∃ call, Happening.answered call request effects (.ok (.applied records result)) ∈
    s.claims.history.take l.startedAt
  operation : request.operationId = l.operationId
  same : l.records.Perm (request.writes.map (·.record))

/-- What such a lookup may be answered. -/
def LookupAnswer (operationId : String) (records : List TransactionRecordReceipt) (result : Bytes)
    (outcome : Except StorageError (Option MultiRecordTransactionReceipt)) : Prop :=
  outcome = .ok (some ⟨operationId, records, result⟩) ∨
    outcome = .error (.core (.operationExpired operationId))

/-- What the lookup has read. -/
def Reads (s : LookupSystem) (l : Lookup) (request : MultiRecordTransactionalWrite)
    (records : List TransactionRecordReceipt) (result : Bytes) : Prop :=
  match l.phase with
  | .absent => True
  | .opened expected => expected = request.writes.map (·.record)
  | .missing => ∃ c, s.claims.tables.claims l.operationId = some c ∧ c.kind = .multi ∧
      c.retiredAt.isSome
  | .found expected header => expected = request.writes.map (·.record) ∧
      s.claims.tables.headers l.operationId = some header
  | .answered outcome => LookupAnswer l.operationId records result outcome

structure LookupInv (encode : CommitEffects → Bytes) (s : LookupSystem) : Prop where
  claims : s.claims.ClaimInv encode
  started : ∀ i, (s.lookups i).startedAt ≤ s.claims.history.length
  reads : ∀ i request effects records result, s.Asks (s.lookups i) request effects records result →
    s.claims.purgeCount (s.lookups i).operationId = 0 →
    s.Reads (s.lookups i) request records result

/-- No retirement of the operation commits between the two reads of a lookup. -/
def Calm (s : LookupSystem) : LookupEvent → Prop
  | .claims (.commitWorker w) => ∀ worker, s.claims.workers w = some worker →
    worker.kind = .retirement → ∀ i expected header, (s.lookups i).phase = .found expected header →
    (s.lookups i).operationId ∉ worker.due
  | _ => True

/-- `Calm`, over the lookups that have begun. -/
def calmSoFar (s : LookupSystem) : LookupEvent → Bool
  | .claims (.commitWorker w) => (s.claims.workers w).all fun worker =>
    worker.kind ≠ .retirement || (List.range s.lookupCount).all fun i =>
      match (s.lookups i).phase with
      | .found _ _ => !(worker.due.contains (s.lookups i).operationId)
      | _ => true
  | _ => true

theorem step_absent {e : LookupEvent} (h : s.step decode encode e = some t)
    (habsent : ∀ i, s.lookupCount ≤ i → (s.lookups i).phase = .absent) :
    ∀ i, t.lookupCount ≤ i → (t.lookups i).phase = .absent := by
  -- a lookup that takes a step has begun
  have hset : ∀ {i phase}, (s.lookups i).phase ≠ .absent → ∀ j, s.lookupCount ≤ j →
      ((s.setPhase i phase).lookups j).phase = .absent := by
    intro i phase hi j hj
    have hne : j ≠ i := by
      rintro rfl
      exact hi (habsent j hj)
    show (Function.update s.lookups i _ j).phase = _
    rw [Function.update_of_ne hne]
    exact habsent j hj
  cases e with
  | claims e =>
    obtain ⟨claims, -, rfl⟩ := Option.map_eq_some_iff.mp h
    exact habsent
  | begin operationId keys =>
    obtain rfl := Option.some.inj h
    intro i hi
    dsimp only at hi ⊢
    rw [Function.update_of_ne (by omega)]
    exact habsent i (by omega)
  | readHeader i =>
    simp only [step] at h
    split at h
    · rename_i expected hphase
      split at h <;> (obtain rfl := Option.some.inj h; exact hset (by simp [hphase]))
    · cases h
  | readClaim i =>
    simp only [step] at h
    split at h
    · rename_i hphase
      obtain rfl := Option.some.inj h
      exact hset (by simp [hphase])
    · cases h
  | readRows i =>
    simp only [step] at h
    split at h
    · rename_i expected header hphase
      obtain rfl := Option.some.inj h
      exact hset (by simp [hphase])
    · cases h

theorem stepsMeet_calm {events : List LookupEvent}
    (h : checkSteps (step decode encode) calmSoFar {} events = true) :
    StepsMeet (step decode encode) Calm {} events := by
  intro before e after hevents m hm
  have hcheck := stepsMeet_of_check h before e after hevents m hm
  have habsent := run_invariant
    (P := fun s : LookupSystem => ∀ i, s.lookupCount ≤ i → (s.lookups i).phase = .absent)
    (fun _ _ _ habsent hstep => step_absent hstep habsent) (fun _ _ => rfl) hm
  rw [Calm.eq_def]
  split
  · rename_i w
    intro worker hw hkind i expected header hphase
    have hi : i < m.lookupCount := by
      by_contra hge
      rw [habsent i (by omega)] at hphase
      cases hphase
    simp only [calmSoFar, hw, Option.all_some, hkind, ne_eq, not_true_eq_false, decide_false,
      Bool.false_or, List.all_eq_true, List.mem_range] at hcheck
    have := hcheck i hi
    rw [hphase] at this
    simpa using this
  · trivial

/-- The call that the lookup's operation could be replayed with. -/
theorem Asks.replayed {l : Lookup} {request : MultiRecordTransactionalWrite}
    {effects : CommitEffects} {records : List TransactionRecordReceipt} {result : Bytes}
    (h : s.Asks l request effects records result) (hpurge : s.claims.purgeCount l.operationId = 0) :
    s.claims.Replayed { request, effects } records result := by
  obtain ⟨call, hmem⟩ := h.committed
  refine ⟨?_, call, List.mem_of_mem_take hmem⟩
  rwa [CommitCall.operationId, h.operation]

/-- The committed records pass the checks of a lookup. -/
theorem prepareLookup_ok {request : MultiRecordTransactionalWrite} (h : request.Prepared)
    {records : List RecordKey} (hperm : records.Perm (request.writes.map (·.record))) :
    prepareLookup request.operationId records = .ok (request.writes.map (·.record)) := by
  have hnodup : records.Nodup := hperm.nodup_iff.mpr h.nodup
  have hsorted : sortOn id records = request.writes.map (·.record) := by
    rw [sortOn_eq_of_perm hperm (by rwa [List.map_id])]
    exact sortOn_eq_self (List.pairwise_map.mpr h.sorted)
  have hnonempty : records ≠ [] := by
    rintro rfl
    have hlength := hperm.length_eq
    rw [List.length_map] at hlength
    exact h.nonempty (List.length_eq_zero_iff.mp hlength.symm)
  have hdistinct : checkDistinctRecords (sortOn id records) = .ok () := by
    have := checkDistinctRecords_ok (f := id) (l := records)
    rw [List.map_id, List.map_id] at this
    exact this.mpr hnodup
  have hkeys : (sortOn id records).forM (fun record =>
      if blank record.ns then Except.error (StoreError.invalidKey "namespace is empty")
      else if blank record.key then .error (.invalidKey "key is empty")
      else .ok ()) = .ok () := by
    rw [Checks.forM_eq_ok, hsorted]
    intro record hrecord
    obtain ⟨write, hwrite, rfl⟩ := List.mem_map.mp hrecord
    obtain ⟨hns, hkey⟩ := h.keys write hwrite
    simp [hns, hkey]
  rw [prepareLookup, if_neg (by simp [h.named]), sortedUniqueRecords,
    if_neg (by simpa using hnonempty)]
  refine Checks.bind_eq_ok.mpr ⟨(), hkeys, Checks.bind_eq_ok.mpr ⟨(), hdistinct, ?_⟩⟩
  rw [hsorted]
  rfl

theorem Replayed.prepared {c : ClaimSystem} (inv : c.TablesInv encode) {call : CommitCall}
    {records : List TransactionRecordReceipt} {result : Bytes}
    (h : c.Replayed call records result) : call.request.Prepared := by
  obtain ⟨i, hmem⟩ := h.committed
  obtain ⟨commit, hvalid, heq⟩ := inv.committed _ hmem call.operationId
    (by simp [Happening.applies, CommitCall.operationId])
  obtain ⟨-, hrequest, -⟩ := Happening.answered.inj heq
  exact hrequest ▸ hvalid.prepared

theorem zip_rows {writes : List TransactionalRecordWrite} :
    ∀ {revisions : List Revision}, revisions.length = writes.length →
      let rows := writes.zipWith MultiRecordRow.ofWrite revisions
      (rows.zip (writes.map (·.record))).all (fun (row, record) => row.record = record) = true ∧
        (rows.zip (writes.map (·.record))).map (fun (row, record) =>
          (⟨record, row.newRevision⟩ : TransactionRecordReceipt)) = rows.map (·.receipt) := by
  induction writes with
  | nil => simp
  | cons write writes ih =>
    intro revisions hlength
    cases revisions with
    | nil => cases hlength
    | cons revision revisions =>
      obtain ⟨hall, hmap⟩ := ih (Nat.succ.inj hlength)
      simp only [List.zipWith_cons_cons, List.map_cons, List.zip_cons_cons, List.all_cons,
        Bool.and_eq_true, hall, hmap]
      exact ⟨⟨by simp [MultiRecordRow.ofWrite], trivial⟩, rfl⟩

/-- The rows of a commit give its receipt. -/
theorem receiptFromRows_rows {request : MultiRecordTransactionalWrite} {revisions : List Revision}
    (hlength : revisions.length = request.writes.length) (operationId : String) :
    receiptFromRows operationId (request.writes.map (·.record)) request.header
      (request.rows revisions) =
        .ok (some ⟨operationId, (request.rows revisions).map (·.receipt), request.result⟩) := by
  obtain ⟨hall, hmap⟩ := zip_rows hlength
  rw [MultiRecordTransactionalWrite.rows, receiptFromRows,
    if_neg (by simp [hlength, MultiRecordTransactionalWrite.header]), if_pos hall, hmap]
  rfl

/-- A lookup moves on. -/
theorem LookupInv.setPhase (inv : s.LookupInv encode) {i : ℕ} {phase : LookupPhase}
    (h : ∀ request effects records result,
      s.Asks (s.lookups i) request effects records result →
      s.claims.purgeCount (s.lookups i).operationId = 0 →
      s.Reads { s.lookups i with phase } request records result) :
    (s.setPhase i phase).LookupInv encode := by
  have hlookup : ∀ j, (s.setPhase i phase).lookups j =
      if j = i then { s.lookups i with phase } else s.lookups j := fun j => Function.update_apply ..
  refine ⟨inv.claims, fun j => ?_, fun j => ?_⟩
  · rw [hlookup]
    split
    · exact inv.started i
    · exact inv.started j
  · rw [hlookup]
    split
    · intro request effects records result hasks hpurge
      exact h request effects records result ⟨hasks.committed, hasks.operation, hasks.same⟩ hpurge
    · intro request effects records result hasks hpurge
      exact inv.reads j request effects records result
        ⟨hasks.committed, hasks.operation, hasks.same⟩ hpurge

/-- A step of the claims. -/
theorem LookupInv.claims_step (inv : s.LookupInv encode) {e : ClaimEvent} {claims : ClaimSystem}
    (hcalm : s.Calm (.claims e)) (h : s.claims.step decode encode e = some claims) :
    LookupInv encode { s with claims } := by
  obtain ⟨extra, hhistory⟩ := claims_history inv.claims h
  refine ⟨step_claimInv inv.claims h, fun i => ?_, ?_⟩
  · dsimp only
    rw [hhistory, List.length_append]
    exact (inv.started i).trans (Nat.le_add_right ..)
  · intro i request effects records result hasks hpurge
    have hasks' : s.Asks (s.lookups i) request effects records result := by
      refine ⟨?_, hasks.operation, hasks.same⟩
      obtain ⟨call, hmem⟩ := hasks.committed
      dsimp only at hmem
      rw [hhistory, List.take_append_of_le_length (inv.started i)] at hmem
      exact ⟨call, hmem⟩
    have hbefore : s.claims.purgeCount (s.lookups i).operationId = 0 := by
      have : s.claims.purgeCount (s.lookups i).operationId ≤
          claims.purgeCount (s.lookups i).operationId := by
        rw [purgeCount, purgeCount, hhistory, List.countP_append]
        exact Nat.le_add_right ..
      have hpurge : claims.purgeCount (s.lookups i).operationId = 0 := hpurge
      omega
    have hreads := inv.reads i request effects records result hasks' hbefore
    rw [Reads] at hreads ⊢
    dsimp only
    split
    · trivial
    · rename_i expected hphase
      rw [hphase] at hreads
      exact hreads
    · rename_i hphase
      rw [hphase] at hreads
      obtain ⟨c, hc, hkind, hretired⟩ := hreads
      exact step_retired inv.claims h hc hkind hretired hpurge
    · rename_i expected header hphase
      rw [hphase] at hreads
      refine ⟨hreads.1, step_header inv.claims h hreads.2 ?_⟩
      rintro w worker rfl hw hkind
      exact hcalm worker hw hkind i expected header hphase
    · rename_i outcome hphase
      rw [hphase] at hreads
      exact hreads

theorem step_lookupInv {e : LookupEvent} (hcalm : s.Calm e) (inv : s.LookupInv encode)
    (h : s.step decode encode e = some t) : t.LookupInv encode := by
  cases e with
  | claims e =>
    obtain ⟨claims, hstep, rfl⟩ := Option.map_eq_some_iff.mp h
    exact inv.claims_step hcalm hstep
  | begin operationId keys =>
    obtain rfl := Option.some.inj h
    refine ⟨inv.claims, fun i => ?_, fun i => ?_⟩
    · dsimp only
      rw [Function.update_apply]
      split
      · exact le_rfl
      · exact inv.started i
    · dsimp only
      rw [Function.update_apply]
      split
      · intro request effects records result hasks hpurge
        have hasks' : s.Asks ⟨operationId, keys, s.claims.history.length, .absent⟩ request effects
            records result := ⟨hasks.committed, hasks.operation, hasks.same⟩
        have hprepared : request.Prepared :=
          Replayed.prepared inv.claims.tables (hasks'.replayed hpurge)
        have hok := prepareLookup_ok hprepared hasks.same
        rw [hasks.operation] at hok
        dsimp only at hok
        simp only [Reads, LookupPhase.first, hok]
      · intro request effects records result hasks hpurge
        exact inv.reads i request effects records result
          ⟨hasks.committed, hasks.operation, hasks.same⟩ hpurge
  | readHeader i =>
    simp only [step] at h
    split at h
    · rename_i expected hphase
      split at h
      · rename_i hnone
        obtain rfl := Option.some.inj h
        refine inv.setPhase fun request effects records result hasks hpurge => ?_
        -- the operation was committed, so its claim is there, and without a header it is retired
        have hreplay := hasks.replayed hpurge
        obtain ⟨c, hc, hkind⟩ := hreplay.claim inv.claims.tables
        rw [CommitCall.operationId, hasks.operation] at hc
        refine ⟨c, hc, hkind, ?_⟩
        by_contra hretired
        have hlive : s.claims.Live (s.lookups i).operationId :=
          ⟨c, hc, by simp [ClaimRow.isLive, hkind, Option.not_isSome_iff_eq_none.mp hretired]⟩
        have := (inv.claims.tables.header _).mpr hlive
        rw [hnone] at this
        cases this
      · rename_i header hheader
        obtain rfl := Option.some.inj h
        refine inv.setPhase fun request effects records result hasks hpurge => ?_
        have hreads := inv.reads i request effects records result hasks hpurge
        rw [Reads, hphase] at hreads
        exact ⟨hreads, hheader⟩
    · cases h
  | readClaim i =>
    simp only [step] at h
    split at h
    · rename_i hphase
      obtain rfl := Option.some.inj h
      refine inv.setPhase fun request effects records result hasks hpurge => Or.inr ?_
      have hreads := inv.reads i request effects records result hasks hpurge
      rw [Reads, hphase] at hreads
      obtain ⟨c, hc, hkind, hretired⟩ := hreads
      rw [hc, if_pos]
      simp [hkind, hretired]
    · cases h
  | readRows i =>
    simp only [step] at h
    split at h
    · rename_i expected header hphase
      obtain rfl := Option.some.inj h
      refine inv.setPhase fun request effects records result hasks hpurge => Or.inl ?_
      have hreads := inv.reads i request effects records result hasks hpurge
      rw [Reads, hphase] at hreads
      obtain ⟨rfl, hheader⟩ := hreads
      have hlive := (inv.claims.tables.header _).mp (by rw [hheader]; rfl)
      obtain ⟨revisions, hlength, hheader', hrows, -, hrecords, hresult⟩ :=
        (hasks.replayed hpurge).receipt inv.claims.tables
          (by rw [CommitCall.operationId, hasks.operation]; exact hlive)
      rw [CommitCall.operationId, hasks.operation] at hheader' hrows
      rw [hheader, Option.some_inj] at hheader'
      rw [hheader', hrows, receiptFromRows_rows hlength, hrecords, hresult]
    · cases h

theorem init_lookupInv : LookupInv encode {} :=
  ⟨init_claimInv, fun _ => le_rfl, fun _ _ _ _ _ _ _ => trivial⟩

end LookupSystem

open LookupSystem

/-- **Receipt lookups are consistent.**  In every run in which no retirement of an operation
commits between the two reads of a lookup of it, a lookup that started after the operation
was committed, and that asks with its records in any order, is answered with the receipt of
the commit or that it has expired, as long as the claim is not purged. -/
theorem receipt_lookup_consistent (decode : Bytes → Option EventEnvelope)
    (encode : CommitEffects → Bytes) (events : List LookupEvent) (s : LookupSystem)
    (hrun : run (LookupSystem.step decode encode) {} events = some s)
    (hcalm : StepsMeet (LookupSystem.step decode encode) Calm {} events) :
    ∀ i request effects records result outcome,
      s.Asks (s.lookups i) request effects records result →
      s.claims.purgeCount (s.lookups i).operationId = 0 →
      (s.lookups i).phase = .answered outcome →
      LookupAnswer (s.lookups i).operationId records result outcome := by
  intro i request effects records result outcome hasks hpurge hphase
  have inv := run_invariant_when (fun _ _ _ hcalm inv h => step_lookupInv hcalm inv h) hcalm
    init_lookupInv hrun
  have hreads := inv.reads i request effects records result hasks hpurge
  rwa [Reads, hphase] at hreads

def sampleTransfer : MultiRecordTransactionalWrite :=
  ⟨"op-2", [⟨⟨"player", "1"⟩, "profile", 1, 0, [7], 5⟩, ⟨⟨"player", "2"⟩, "profile", 1, 0, [8], 5⟩],
    [1]⟩

/-- The commit of `sampleTransfer`. -/
def transferCommit : List ClaimEvent :=
  [.begin sampleTransfer {}, .insertClaim 0 0, .openSelect 0, .lockShare 0, .insertHeader 0,
    .lockRecord 0, .lockRecord 0, .persist 0, .commit 0]

/-- The retirement locks the claim between the reads of one lookup and commits before
another one reads; both ask with the records in the other order. -/
def askedAroundRetirement : List LookupEvent :=
  transferCommit.map .claims ++ [.begin "op-2" [⟨"player", "2"⟩, ⟨"player", "1"⟩], .readHeader 0,
    .claims (.openWorker .retirement 100 10), .claims (.lockDue 0 "op-2"), .readRows 0,
    .begin "op-2" [⟨"player", "2"⟩, ⟨"player", "1"⟩], .claims (.change 0),
    .claims (.commitWorker 0), .readHeader 1, .readClaim 1]

theorem receipt_lookup_consistent_sample :
    ∃ s outcome outcome',
      run (LookupSystem.step (fun _ => none) fun _ => []) {} askedAroundRetirement = some s ∧
      (s.lookups 0).phase = .answered outcome ∧ (s.lookups 1).phase = .answered outcome' ∧
      LookupAnswer "op-2" [⟨⟨"player", "1"⟩, 1⟩, ⟨⟨"player", "2"⟩, 1⟩] [1] outcome ∧
      LookupAnswer "op-2" [⟨⟨"player", "1"⟩, 1⟩, ⟨⟨"player", "2"⟩, 1⟩] [1] outcome' ∧
      outcome ≠ outcome' := by
  obtain ⟨s, hrun, hreceipt, hexpired, hid, hid', hmem, hmem', hsame, hsame', hpurge⟩ :=
    exists_of_any
    (o := run (LookupSystem.step (fun _ => none) fun _ => []) {} askedAroundRetirement)
    (p := fun s => (s.lookups 0).phase =
        .answered (.ok (some ⟨"op-2", [⟨⟨"player", "1"⟩, 1⟩, ⟨⟨"player", "2"⟩, 1⟩], [1]⟩)) ∧
      (s.lookups 1).phase = .answered (.error (.core (.operationExpired "op-2"))) ∧
      (s.lookups 0).operationId = "op-2" ∧ (s.lookups 1).operationId = "op-2" ∧
      .answered 0 sampleTransfer {}
          (.ok (.applied [⟨⟨"player", "1"⟩, 1⟩, ⟨⟨"player", "2"⟩, 1⟩] [1])) ∈
        s.claims.history.take (s.lookups 0).startedAt ∧
      .answered 0 sampleTransfer {}
          (.ok (.applied [⟨⟨"player", "1"⟩, 1⟩, ⟨⟨"player", "2"⟩, 1⟩] [1])) ∈
        s.claims.history.take (s.lookups 1).startedAt ∧
      (s.lookups 0).records = [⟨"player", "2"⟩, ⟨"player", "1"⟩] ∧
      (s.lookups 1).records = [⟨"player", "2"⟩, ⟨"player", "1"⟩] ∧
      s.claims.purgeCount "op-2" = 0)
    (by decide +kernel)
  have hcalm : StepsMeet (LookupSystem.step (fun _ => none) fun _ => []) Calm {}
      askedAroundRetirement := stepsMeet_calm (by decide +kernel)
  have hanswer := receipt_lookup_consistent _ _ _ s hrun hcalm 0 sampleTransfer {} _ _ _
    ⟨⟨0, hmem⟩, hid.symm, by rw [hsame]; exact List.Perm.swap ..⟩ (by rw [hid]; exact hpurge)
    hreceipt
  have hanswer' := receipt_lookup_consistent _ _ _ s hrun hcalm 1 sampleTransfer {} _ _ _
    ⟨⟨0, hmem'⟩, hid'.symm, by rw [hsame']; exact List.Perm.swap ..⟩ (by rw [hid']; exact hpurge)
    hexpired
  rw [hid] at hanswer
  rw [hid'] at hanswer'
  exact ⟨s, _, _, hrun, hreceipt, hexpired, hanswer, hanswer', by simp⟩

def sampleLookup : List LookupEvent :=
  firstCommit.map .claims ++ [.begin "op-1" [⟨"player", "1"⟩], .readHeader 0]

/-- The retirement of the operation commits after the lookup has read the header. -/
def retiredBetweenReads : List LookupEvent :=
  sampleLookup ++ [.claims (.openWorker .retirement 100 10), .claims (.lockDue 0 "op-1"),
    .claims (.change 0), .claims (.commitWorker 0), .readRows 0]

/-- The lookup finds no rows and answers that the id belongs to another request. -/
theorem retirement_between_reads :
    ∃ s, run (LookupSystem.step (fun _ => none) fun _ => []) {} retiredBetweenReads = some s ∧
      s.Asks (s.lookups 0) sampleCommit {} [⟨⟨"player", "1"⟩, 1⟩] [1] ∧
      s.claims.purgeCount (s.lookups 0).operationId = 0 ∧
      (s.lookups 0).phase = .answered (.error (.core (.operationIdConflict "op-1"))) ∧
      ¬ LookupAnswer (s.lookups 0).operationId [⟨⟨"player", "1"⟩, 1⟩] [1]
        (.error (.core (.operationIdConflict "op-1"))) := by
  obtain ⟨s, hrun, hphase, hid, hmem, hsame, hpurge⟩ := exists_of_any
    (o := run (LookupSystem.step (fun _ => none) fun _ => []) {} retiredBetweenReads)
    (p := fun s => (s.lookups 0).phase =
        .answered (.error (.core (.operationIdConflict "op-1"))) ∧
      (s.lookups 0).operationId = "op-1" ∧
      .answered 0 sampleCommit {} (.ok (.applied [⟨⟨"player", "1"⟩, 1⟩] [1])) ∈
        s.claims.history.take (s.lookups 0).startedAt ∧
      (s.lookups 0).records = [⟨"player", "1"⟩] ∧ s.claims.purgeCount "op-1" = 0)
    (by decide +kernel)
  refine ⟨s, hrun, ⟨⟨0, hmem⟩, hid.symm, by rw [hsame]; rfl⟩, by rw [hid]; exact hpurge, hphase, ?_⟩
  rintro (h | h) <;> cases h

end DbProxy
