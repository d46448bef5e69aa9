/-
What the statements of `PostgresStore` and `PostgresTrades` do.

Each statement has one lemma `…_yields`: the condition under which it succeeds and the
tables it leaves.  A NUL in a text, a number beyond `BIGINT` and a failed comparison all
make it fail, and a failed transaction is rolled back.

* `persistWrites_yields`, `compareRevisions_yields` — the loops over the records;
* `insertOutboxEvents_yields`, `insertAppends_yields` — the loops over the effects;
* `applyTransaction_yields` — a transaction of one record.
-/
import DbProxy.PostgresTrades

namespace DbProxy

open Text EarlyReturn

/-! ### Updates of the tables -/

/-- Texts that PostgreSQL accepts. -/
def Bindable (texts : List String) : Prop := texts.any hasNul = false

instance (texts : List String) : Decidable (Bindable texts) :=
  inferInstanceAs (Decidable (_ = _))

theorem Bindable.sublist {texts texts' : List String} (h : Bindable texts)
    (hsub : ∀ t ∈ texts', t ∈ texts) : Bindable texts' := by
  rw [Bindable, List.any_eq_false] at h ⊢
  exact fun t ht => h t (hsub t ht)

namespace PostgresTables

variable (pg : PostgresTables)

def claim (operationId : String) (kind : OperationKind) : PostgresTables :=
  { pg with claims := Function.update pg.claims operationId (some { kind }) }

def storeRow (record : RecordKey) (row : SnapshotRow) : PostgresTables :=
  { pg with base := { pg.base with
      snapshots := Function.update pg.base.snapshots record (some row) } }

/-- The repair target becomes at least `target`. -/
def raise (record : RecordKey) (target : Revision) : PostgresTables :=
  { pg with base := { pg.base with
      repairs := Function.update pg.base.repairs record
        (some (max ((pg.base.repairs record).getD target) target)) } }

def revision (record : RecordKey) : Revision :=
  ((pg.base.snapshots record).map (·.revision)).getD 0

/-- The claim can be taken, or was taken by an operation of the same kind. -/
def Claimable (operationId : String) (kind : OperationKind) : Prop :=
  ∀ c, pg.claims operationId = some c → c.kind = kind ∧ c.retired = false

/-- One record of a transaction whose comparison was right. -/
def write (w : TransactionalRecordWrite) : PostgresTables :=
  (pg.storeRow w.record
    (ClaimSystem.snapshotRow (pg.base.snapshots w.record) w (w.expectedRevision + 1))).raise
      w.record (w.expectedRevision + 1)

def writeAll (writes : List TransactionalRecordWrite) : PostgresTables :=
  writes.foldl write pg

end PostgresTables

namespace PostgresSnapshotStore

section Statements

variable {pg : PostgresTables}

theorem onBase_yields {α : Type} {x : TxM α} {P : Prop} {a : α} {base : Postgres}
    (h : Yields x pg.base P a base) : Yields (onBase x) pg P a { pg with base } := by
  intro a' t'
  cases hx : x.run pg.base with
  | ok b base' =>
    obtain ⟨hP, rfl, rfl⟩ := (h b base').mp hx
    have hrun : (onBase x).run pg = .ok b { pg with base := base' } := by
      show onBase x pg = _
      rw [onBase, show x pg.base = _ from hx]
    rw [hrun, EStateM.Result.ok.injEq, and_iff_right hP]
    exact and_congr eq_comm eq_comm
  | error e base' =>
    have hrun : (onBase x).run pg = .error e { pg with base := base' } := by
      show onBase x pg = _
      rw [onBase, show x pg.base = _ from hx]
    rw [hrun]
    refine ⟨fun hrun => (by cases hrun), ?_⟩
    rintro ⟨hP, -, -⟩
    rw [h.run_eq hP] at hx
    cases hx

theorem bindTexts_yields (texts : List String) (base : Postgres) :
    Yields (bindTexts texts) base (Bindable texts) () base := by
  rw [bindTexts, Bindable]
  cases hnul : texts.any hasNul with
  | true => exact yields_throw (by simp)
  | false => exact yields_pure () base rfl

theorem bindParams_yields (texts : List String) :
    Yields (bindParams texts) pg (Bindable texts) () pg :=
  onBase_yields (bindTexts_yields texts pg.base)

theorem selectRevision_yields (record : RecordKey) :
    Yields (onBase (selectRevision record)) pg (Bindable [record.ns, record.key])
      ((pg.base.snapshots record).map (·.revision)) pg := by
  refine onBase_yields ?_
  rw [selectRevision]
  exact (bindTexts_yields _ pg.base).bind id fun h => yields_get_bind (yields_pure _ _ h)

theorem setRow_yields (record : RecordKey) (row : SnapshotRow) :
    Yields (onBase (setRow record row)) pg True () (pg.storeRow record row) :=
  onBase_yields (yields_modify _ _ trivial)

theorem enqueueRepair_yields (record : RecordKey) (target : Revision) :
    Yields (onBase (enqueueRepair record target)) pg
      (target < bigintLimit ∧ Bindable [record.ns, record.key]) () (pg.raise record target) := by
  refine onBase_yields ?_
  rw [enqueueRepair]
  by_cases htarget : bigintLimit ≤ target
  · rw [if_pos htarget]
    exact yields_throw fun h => absurd h.1 (not_lt.mpr htarget)
  · rw [if_neg htarget]
    exact (bindTexts_yields _ pg.base).bind And.right fun h =>
      yields_modify _ _ ⟨not_le.mp htarget, h⟩

theorem requiredRevisionToI64_eq_ok {record : RecordKey} {revision a : ℕ} :
    requiredRevisionToI64 record revision = .ok a ↔ revision < bigintLimit ∧ a = revision := by
  rw [requiredRevisionToI64]
  split
  · rename_i h
    rw [Except.ok.injEq, and_iff_right h]
    exact eq_comm
  · rename_i h
    exact ⟨fun hok => (by cases hok), fun hok => absurd hok.1 h⟩

theorem timestampToI64_eq_ok {record : RecordKey} {t a : ℕ} :
    timestampToI64 record t = .ok a ↔ t < bigintLimit ∧ a = t := by
  rw [timestampToI64]
  split
  · rename_i h
    rw [Except.ok.injEq, and_iff_right h]
    exact eq_comm
  · rename_i h
    exact ⟨fun hok => (by cases hok), fun hok => absurd hok.1 h⟩

theorem claimOperation_yields (operationId : String) (kind : OperationKind) :
    Yields (claimOperation operationId kind) pg
      (Bindable [operationId] ∧ pg.Claimable operationId kind) () (pg.claim operationId kind) := by
  rw [claimOperation]
  refine (bindParams_yields _).bind And.left fun htexts => yields_get_bind ?_
  cases hclaim : pg.claims operationId with
  | none => exact yields_set _ _ ⟨htexts, fun c hc => by rw [hclaim] at hc; cases hc⟩
  | some claim =>
    have hiff : pg.Claimable operationId kind ↔ claim.kind = kind ∧ claim.retired = false := by
      rw [PostgresTables.Claimable, hclaim]
      exact ⟨fun h => h claim rfl, fun h c hc => Option.some.inj hc ▸ h⟩
    refine yields_unless (fun h => not_not_intro (hiff.mp h.2).1) fun hkind => ?_
    have hkind : claim.kind = kind := not_not.mp hkind
    by_cases hretired : claim.retired = true
    · rw [if_pos hretired]
      exact yields_throw fun h => by simp [(hiff.mp h.2).2] at hretired
    · rw [if_neg hretired]
      have hretired : claim.retired = false := by simpa using hretired
      have hself : pg.claim operationId kind = pg := by
        have hclaim' : ({ kind } : OperationClaim) = claim := by
          cases claim
          simp_all
        rw [PostgresTables.claim, hclaim', ← hclaim, Function.update_eq_self]
      rw [hself]
      exact yields_pure () pg ⟨htexts, hiff.mpr ⟨hkind, hretired⟩⟩

end Statements

theorem storeSnapshot_yields {pg : PostgresTables} (record : RecordKey) (schema : String)
    (schemaVersion revision : ℕ) (payload : Bytes) (updatedAtUnixMs : ℕ) :
    Yields (storeSnapshot record schema schemaVersion revision payload updatedAtUnixMs) pg
      (Bindable [record.ns, record.key, schema]) ()
      (pg.storeRow record ⟨schema, schemaVersion, revision, payload, updatedAtUnixMs,
        (pg.base.snapshots record).bind (·.queuedSequence)⟩) := by
  rw [storeSnapshot]
  refine (bindParams_yields _).bind id fun htexts => yields_get_bind ?_
  exact (setRow_yields _ _).congr (iff_of_true trivial htexts) (fun _ => rfl) fun _ => rfl

/-! ### Transactions of one record -/

section Single

variable {pg : PostgresTables} {request : TransactionalWrite}

theorem validateTransactionRequest_eq_ok {u : Unit} :
    validateTransactionRequest request = .ok u ↔
      (blank request.operationId = false ∧
        blank request.record.ns = false ∧ blank request.record.key = false) ∧ u = () := by
  rw [validateTransactionRequest]
  split
  · simp_all
  · split
    · simp_all
    · split <;> simp_all

def putTransaction (pg : PostgresTables) (request : TransactionalWrite) (newRevision : Revision) :
    PostgresTables :=
  { pg with transactions :=
      Function.update pg.transactions request.operationId (some (transactionRow request newRevision)) }

/-- The texts of the request. -/
def TransactionalWrite.texts (request : TransactionalWrite) : List String :=
  [request.operationId, request.record.ns, request.record.key, request.schema]

theorem claimTransaction_some {row : TransactionRow}
    (hrow : pg.transactions request.operationId = some row) :
    Yields (claimTransaction request) pg (Bindable (TransactionalWrite.texts request)) (some row)
      pg := by
  rw [claimTransaction]
  refine (bindParams_yields _).bind id fun htexts => yields_get_bind ?_
  rw [hrow]
  exact yields_pure _ _ htexts

theorem claimTransaction_none (hrow : pg.transactions request.operationId = none) :
    Yields (claimTransaction request) pg (Bindable (TransactionalWrite.texts request)) none
      (putTransaction pg request 0) := by
  rw [claimTransaction]
  refine (bindParams_yields _).bind id fun htexts => yields_get_bind ?_
  rw [hrow]
  exact (yields_set _ _ trivial).bind (fun _ => trivial) fun _ => yields_pure _ _ htexts

/-- What a transaction of one record asks of its request and of the claims. -/
structure Accepts (pg : PostgresTables) (request : TransactionalWrite) : Prop where
  named : blank request.operationId = false
  keys : blank request.record.ns = false ∧ blank request.record.key = false
  revision : request.expectedRevision < bigintLimit
  time : request.updatedAtUnixMs < bigintLimit
  texts : Bindable (TransactionalWrite.texts request)
  claimable : pg.Claimable request.operationId .single

theorem Accepts.keyTexts (h : Accepts pg request) :
    Bindable [request.record.ns, request.record.key] :=
  h.texts.sublist (by simp [TransactionalWrite.texts])

/-- A retry. -/
theorem applyTransaction_retry {row : TransactionRow}
    (hrow : pg.transactions request.operationId = some row) :
    Yields (applyTransaction request) pg
      (Accepts pg request ∧ transactionMatches row request = true ∧ row.newRevision < bigintLimit)
      (.duplicate row.newRevision row.result)
      ((pg.claim request.operationId .single).raise request.record row.newRevision) := by
  rw [applyTransaction]
  refine (yields_ofExcept fun _ => validateTransactionRequest_eq_ok).bind
    (fun h => ⟨h.1.named, h.1.keys⟩) fun hvalid => ?_
  refine (yields_ofExcept fun _ => requiredRevisionToI64_eq_ok).bind (·.1.revision) fun hrev => ?_
  refine (yields_ofExcept fun _ => timestampToI64_eq_ok).bind (·.1.time) fun htime => ?_
  refine (claimOperation_yields _ _).bind
    (fun h => ⟨h.1.texts.sublist (by simp [TransactionalWrite.texts]), h.1.claimable⟩)
    fun hclaim => ?_
  have hrow : (pg.claim request.operationId .single).transactions request.operationId = some row :=
    hrow
  refine (claimTransaction_some hrow).bind (·.1.texts) fun htexts => ?_
  refine yields_unless (fun h => by simp [h.2.1]) fun hmatches => ?_
  have haccepts : Accepts pg request := ⟨hvalid.1, hvalid.2, hrev, htime, htexts, hclaim.2⟩
  refine (enqueueRepair_yields _ _).bind (fun h => ⟨h.2.2, haccepts.keyTexts⟩) fun hrepair => ?_
  exact yields_pure _ _ ⟨haccepts, by simpa using hmatches, hrepair.1⟩

/-- A first attempt. -/
theorem applyTransaction_first (hrow : pg.transactions request.operationId = none) :
    Yields (applyTransaction request) pg
      (Accepts pg request ∧ pg.revision request.record = request.expectedRevision ∧
        request.expectedRevision + 1 < bigintLimit)
      (.applied (request.expectedRevision + 1) request.result)
      ((putTransaction ((pg.claim request.operationId .single).storeRow request.record
        ⟨request.schema, request.schemaVersion, request.expectedRevision + 1, request.payload,
          request.updatedAtUnixMs, (pg.base.snapshots request.record).bind (·.queuedSequence)⟩)
        request (request.expectedRevision + 1)).raise request.record
          (request.expectedRevision + 1)) := by
  rw [applyTransaction]
  refine (yields_ofExcept fun _ => validateTransactionRequest_eq_ok).bind
    (fun h => ⟨h.1.named, h.1.keys⟩) fun hvalid => ?_
  refine (yields_ofExcept fun _ => requiredRevisionToI64_eq_ok).bind (·.1.revision) fun hrev => ?_
  refine (yields_ofExcept fun _ => timestampToI64_eq_ok).bind (·.1.time) fun htime => ?_
  refine (claimOperation_yields _ _).bind
    (fun h => ⟨h.1.texts.sublist (by simp [TransactionalWrite.texts]), h.1.claimable⟩)
    fun hclaim => ?_
  have hrow : (pg.claim request.operationId .single).transactions request.operationId = none :=
    hrow
  refine (claimTransaction_none hrow).bind (·.1.texts) fun htexts => ?_
  have haccepts : Accepts pg request := ⟨hvalid.1, hvalid.2, hrev, htime, htexts, hclaim.2⟩
  refine (selectRevision_yields _).bind (fun _ => haccepts.keyTexts) fun _ => ?_
  refine yields_unless (fun h => not_not_intro h.2.1) fun hactual => ?_
  have hactual : pg.revision request.record = request.expectedRevision := not_not.mp hactual
  rw [show (((putTransaction (pg.claim request.operationId .single) request 0).base.snapshots
    request.record).map (·.revision)).getD 0 = request.expectedRevision from hactual]
  dsimp only
  have hnext : request.expectedRevision + 1 < 2 ^ 64 :=
    (Nat.succ_le_of_lt hrev).trans_lt (by decide)
  rw [Revision.next, if_pos hnext]
  refine (yields_ofExcept fun _ => requiredRevisionToI64_eq_ok).bind (·.2.2) fun hlimit => ?_
  refine (storeSnapshot_yields _ _ _ _ _ _).bind
    (fun _ => htexts.sublist (by simp [TransactionalWrite.texts])) fun _ => ?_
  refine (yields_modify _ _ trivial).bind (fun _ => trivial) fun _ => ?_
  refine (enqueueRepair_yields _ _).bind (fun h => ⟨hlimit, haccepts.keyTexts⟩) fun _ => ?_
  refine (yields_pure _ _ ⟨haccepts, hactual, hlimit⟩).congr Iff.rfl (fun _ => rfl) fun _ => ?_
  simp [putTransaction, PostgresTables.storeRow, PostgresTables.claim, PostgresTables.raise,
    transactionRow]

end Single

/-! ### The records of a transaction -/

section Records

/-- The comparison of one record. -/
structure Comparable (pg : PostgresTables) (w : TransactionalRecordWrite) : Prop where
  texts : Bindable [w.record.ns, w.record.key]
  current : pg.revision w.record = w.expectedRevision
  next : w.expectedRevision + 1 < 2 ^ 64

theorem compareRevisions_yields {pg : PostgresTables} : ∀ writes : List TransactionalRecordWrite,
    Yields (compareRevisions writes) pg (∀ w ∈ writes, Comparable pg w)
      (writes.map (·.expectedRevision + 1)) pg
  | [] => yields_pure _ _ (by simp)
  | w :: rest => by
    rw [compareRevisions]
    have hhead : ∀ {Q : Prop}, ((∀ w' ∈ w :: rest, Comparable pg w') → Q) ↔
        (Comparable pg w ∧ (∀ w' ∈ rest, Comparable pg w') → Q) := by
      intro Q
      rw [List.forall_mem_cons]
    refine (selectRevision_yields _).bind (hhead.mpr fun h => h.1.texts) fun htexts => ?_
    refine yields_unless (hhead.mpr fun h => not_not_intro h.1.current) fun hcurrent => ?_
    have hcurrent : pg.revision w.record = w.expectedRevision := not_not.mp hcurrent
    rw [show ((pg.base.snapshots w.record).map (·.revision)).getD 0 = w.expectedRevision
      from hcurrent]
    dsimp only
    cases hnext : Revision.next w.expectedRevision with
    | none =>
      refine yields_throw (hhead.mpr fun h => ?_)
      rw [Revision.next, if_pos h.1.next] at hnext
      cases hnext
    | some next =>
      obtain ⟨hbound, rfl⟩ := Revision.next_eq_some.mp hnext
      refine (compareRevisions_yields rest).bind (hhead.mpr And.right) fun hrest => ?_
      exact yields_pure _ _ (List.forall_mem_cons.mpr ⟨⟨htexts, hcurrent, hbound⟩, hrest⟩)

/-- What the statements of one record ask. -/
structure Persistable (pg : PostgresTables) (operationId : String)
    (w : TransactionalRecordWrite) : Prop where
  texts : Bindable [operationId, w.record.ns, w.record.key, w.schema]
  current : ∀ row, pg.base.snapshots w.record = some row → row.revision = w.expectedRevision
  next : w.expectedRevision + 1 < bigintLimit
  time : w.updatedAtUnixMs < bigintLimit

theorem checkI64_eq_ok {w : TransactionalRecordWrite} {revision : Revision} {u : Unit} :
    checkI64 w revision = .ok u ↔ (w.expectedRevision < bigintLimit ∧ revision < bigintLimit ∧
      w.updatedAtUnixMs < bigintLimit) ∧ u = () := by
  rw [checkI64]
  split
  · rename_i h
    simp [not_lt.mpr h]
  · split
    · rename_i h
      simp [not_lt.mpr h]
    · split
      · rename_i h
        simp [not_lt.mpr h]
      · simp_all

variable {pg : PostgresTables} {operationId : String} {w : TransactionalRecordWrite}

theorem persistTransactionalSnapshot_yields :
    Yields (persistTransactionalSnapshot w (w.expectedRevision + 1)) pg
      (Bindable [w.record.ns, w.record.key, w.schema] ∧
        (∀ row, pg.base.snapshots w.record = some row → row.revision = w.expectedRevision) ∧
        w.expectedRevision + 1 < bigintLimit ∧ w.updatedAtUnixMs < bigintLimit) ()
      (pg.storeRow w.record
        (ClaimSystem.snapshotRow (pg.base.snapshots w.record) w (w.expectedRevision + 1))) := by
  rw [persistTransactionalSnapshot]
  refine (yields_ofExcept fun _ => checkI64_eq_ok).bind
    (fun h => ⟨(Nat.lt_succ_self _).trans h.2.2.1, h.2.2.1, h.2.2.2⟩) fun hfits => ?_
  refine (bindParams_yields _).bind And.left fun htexts => yields_get_bind ?_
  refine yields_unless ?_ fun hcurrent => ?_
  · rintro ⟨-, hcurrent, -⟩
    cases hrow : pg.base.snapshots w.record with
    | none => simp
    | some row => simp [hcurrent row hrow]
  · refine (setRow_yields _ _).congr (iff_of_true trivial ⟨htexts, ?_, hfits.2⟩) (fun _ => rfl)
      fun _ => rfl
    intro row hrow
    by_contra hne
    exact hcurrent (by simp [hrow, hne])

theorem insertRecord_yields {table : RecordTable} {row : MultiRecordRow}
    {rows : List MultiRecordRow} (hrows : table.records pg operationId = some rows)
    (hnew : ∀ row' ∈ rows, row'.record ≠ row.record) :
    Yields (insertRecord table operationId row) pg
      (Bindable [operationId, row.record.ns, row.record.key, row.schema]) ()
      (table.setRecords pg operationId (rows ++ [row])) := by
  rw [insertRecord]
  refine (bindParams_yields _).bind id fun htexts => yields_get_bind ?_
  rw [hrows]
  have hfree : ¬ rows.any (·.record = row.record) = true := by simpa using hnew
  exact yields_unless (fun _ => hfree) fun _ => yields_set _ _ htexts

theorem persistWrite_yields {table : RecordTable} {rows : List MultiRecordRow}
    (hrows : table.records pg operationId = some rows)
    (hnew : ∀ row' ∈ rows, row'.record ≠ w.record) :
    Yields (persistWrite (insertRecord table operationId) (w, w.expectedRevision + 1)) pg
      (Persistable pg operationId w) ()
      (table.setRecords (pg.write w) operationId
        (rows ++ [.ofWrite w (w.expectedRevision + 1)])) := by
  rw [persistWrite]
  refine persistTransactionalSnapshot_yields.bind
    (fun h => ⟨h.texts.sublist (by simp), h.current, h.next, h.time⟩) fun hstored => ?_
  set stored := pg.storeRow w.record
    (ClaimSystem.snapshotRow (pg.base.snapshots w.record) w (w.expectedRevision + 1)) with hstored'
  have hrows : table.records stored operationId = some rows :=
    (table.records_base pg stored.base operationId).trans hrows
  have hinsert : Yields (insertRecord table operationId (.ofWrite w (w.expectedRevision + 1)))
      stored _ () _ := insertRecord_yields hrows hnew
  refine hinsert.bind (fun h => h.texts) fun htexts => ?_
  refine (enqueueRepair_yields _ _).congr (iff_of_true ?_ ?_) (fun _ => rfl) fun _ => ?_
  · exact ⟨hstored.2.2.1, htexts.sublist (by simp [MultiRecordRow.ofWrite])⟩
  · exact ⟨htexts, hstored.2.1, hstored.2.2.1, hstored.2.2.2⟩
  · -- the repair target and the record row are in different tables
    rw [PostgresTables.raise, table.base_set, ← table.set_base]
    rfl

/-- Another record is not touched. -/
theorem persistable_write {w' : TransactionalRecordWrite} (hne : w'.record ≠ w.record) :
    Persistable (pg.write w) operationId w' ↔ Persistable pg operationId w' := by
  have hsame : (pg.write w).base.snapshots w'.record = pg.base.snapshots w'.record :=
    Function.update_of_ne hne _ _
  constructor
  · rintro ⟨htexts, hcurrent, hnext, htime⟩
    exact ⟨htexts, hsame ▸ hcurrent, hnext, htime⟩
  · rintro ⟨htexts, hcurrent, hnext, htime⟩
    exact ⟨htexts, hsame.symm ▸ hcurrent, hnext, htime⟩

theorem persistable_setRecords {table : RecordTable} {rows : List MultiRecordRow}
    {id : String} {w' : TransactionalRecordWrite} :
    Persistable (table.setRecords pg id rows) operationId w' ↔ Persistable pg operationId w' := by
  have hbase := table.base_set pg id rows
  constructor
  · rintro ⟨htexts, hcurrent, hnext, htime⟩
    exact ⟨htexts, hbase ▸ hcurrent, hnext, htime⟩
  · rintro ⟨htexts, hcurrent, hnext, htime⟩
    exact ⟨htexts, hbase.symm ▸ hcurrent, hnext, htime⟩

theorem setRecords_write (table : RecordTable) (pg : PostgresTables) (id : String)
    (rows : List MultiRecordRow) (w : TransactionalRecordWrite) :
    (table.setRecords pg id rows).write w = table.setRecords (pg.write w) id rows := by
  have hbase := table.base_set pg id rows
  have hwrite : ∀ pg' : PostgresTables, pg'.write w = { pg' with base := (pg'.write w).base } :=
    fun _ => rfl
  have hsame : ((table.setRecords pg id rows).write w).base = (pg.write w).base := by
    simp only [PostgresTables.write, PostgresTables.raise, PostgresTables.storeRow, hbase]
  rw [hwrite (table.setRecords pg id rows), hsame, ← table.set_base]
  rfl

theorem setRecords_writeAll (table : RecordTable) (id : String) (rows : List MultiRecordRow) :
    ∀ (writes : List TransactionalRecordWrite) (pg : PostgresTables),
      (table.setRecords pg id rows).writeAll writes = table.setRecords (pg.writeAll writes) id rows
  | [], _ => rfl
  | w :: rest, pg => by
    show ((table.setRecords pg id rows).write w).writeAll rest = _
    rw [setRecords_write, setRecords_writeAll table id rows rest]
    rfl

/-- The loop over the records of one transaction. -/
theorem persistWrites_yields {table : RecordTable} :
    ∀ {writes : List TransactionalRecordWrite} {pg : PostgresTables} {rows : List MultiRecordRow},
      (writes.map (·.record)).Nodup → table.records pg operationId = some rows →
      (∀ row ∈ rows, ∀ w ∈ writes, row.record ≠ w.record) →
      Yields ((writes.zip (writes.map (·.expectedRevision + 1))).forM
          (persistWrite (insertRecord table operationId))) pg
        (∀ w ∈ writes, Persistable pg operationId w) ()
        (table.setRecords (pg.writeAll writes) operationId
          (rows ++ writes.map fun w => .ofWrite w (w.expectedRevision + 1)))
  | [], pg, rows, _, hrows, _ => by
    refine (yields_pure () pg (by simp)).congr Iff.rfl (fun _ => rfl) fun _ => ?_
    rw [List.map_nil, List.append_nil]
    exact (table.set_self hrows).symm
  | w :: rest, pg, rows, hnodup, hrows, hnew => by
    rw [List.map_cons, List.nodup_cons] at hnodup
    have hne : ∀ w' ∈ rest, w'.record ≠ w.record := fun w' hw' heq =>
      hnodup.1 (List.mem_map.mpr ⟨w', hw', heq⟩)
    have hhead := persistWrite_yields hrows fun row hrow => hnew row hrow w (List.mem_cons_self ..)
    refine hhead.bind (fun h => h w (List.mem_cons_self ..)) fun hw => ?_
    set pg' := table.setRecords (pg.write w) operationId
      (rows ++ [.ofWrite w (w.expectedRevision + 1)]) with hpg'
    have hrows' : table.records pg' operationId =
        some (rows ++ [.ofWrite w (w.expectedRevision + 1)]) :=
      table.records_set _ ((table.records_base pg (pg.write w).base operationId).trans hrows)
    have hnew' : ∀ row ∈ rows ++ [MultiRecordRow.ofWrite w (w.expectedRevision + 1)],
        ∀ w' ∈ rest, row.record ≠ w'.record := by
      intro row hrow w' hw'
      rcases List.mem_append.mp hrow with hrow | hrow
      · exact hnew row hrow w' (List.mem_cons_of_mem _ hw')
      · rw [List.mem_singleton.mp hrow]
        exact (hne w' hw').symm
    refine (persistWrites_yields hnodup.2 hrows' hnew').congr ?_ (fun _ => rfl) fun _ => ?_
    · rw [List.forall_mem_cons, and_iff_right hw]
      refine forall₂_congr fun w' hw' => ?_
      rw [hpg', persistable_setRecords, persistable_write (hne w' hw')]
    · rw [hpg', setRecords_writeAll, table.set_set, List.append_assoc]
      rfl

end Records

/-! ### Effects -/

section Effects

variable {pg : PostgresTables} {operationId : String}

/-- The append can be inserted into the table. -/
structure Appendable (pg : PostgresTables) (operationId : String) (append : AppendRecord) :
    Prop where
  time : append.occurredAtUnixMs < bigintLimit
  texts : Bindable [append.record.ns, append.record.key, operationId, append.schema]
  free : pg.appends append.record = none

def appendRow (operationId : String) (append : AppendRecord) : AppendRow :=
  ⟨append.record, operationId, append.schema, append.schemaVersion, append.payload,
    append.occurredAtUnixMs⟩

def addAppend (operationId : String) (pg : PostgresTables) (append : AppendRecord) :
    PostgresTables :=
  { pg with appends :=
      Function.update pg.appends append.record (some (appendRow operationId append)) }

theorem insertAppend_yields (append : AppendRecord) :
    Yields (insertAppend operationId append) pg (Appendable pg operationId append) ()
      (addAppend operationId pg append) := by
  rw [insertAppend]
  refine (yields_ofExcept fun _ => timestampToI64_eq_ok).bind (·.time) fun htime => ?_
  refine (bindParams_yields _).bind (·.texts) fun htexts => yields_get_bind ?_
  refine yields_unless (fun h => by simp [h.free]) fun hfree => ?_
  exact yields_set _ _ ⟨htime, htexts, by simpa using hfree⟩

theorem insertAppends_yields {appends : List AppendRecord}
    (hnodup : (appends.map (·.record)).Nodup) :
    Yields (appends.forM (insertAppend operationId)) pg
      (∀ append ∈ appends, Appendable pg operationId append) ()
      (appends.foldl (addAppend operationId) pg) := by
  refine (yields_forM (fun s append _ => insertAppend_yields append) pg).congr ?_ (fun _ => rfl)
    fun _ => rfl
  refine allAlong_iff (List.pairwise_map.mp hnodup |>.imp fun {a b} hne s => ?_) pg
  have hsame : (addAppend operationId s a).appends b.record = s.appends b.record :=
    Function.update_of_ne (Ne.symm hne) _ _
  constructor
  · rintro ⟨htime, htexts, hfree⟩
    exact ⟨htime, htexts, hsame ▸ hfree⟩
  · rintro ⟨htime, htexts, hfree⟩
    exact ⟨htime, htexts, hsame.trans hfree⟩

/-- The event can be inserted: its topic has a route and its id is new. -/
structure Insertable (pg : PostgresTables) (operationId : String) (event : OutboxEvent) :
    Prop where
  time : event.occurredAtUnixMs < bigintLimit
  texts : Bindable [event.eventId, operationId, event.topic, event.partitionKey]
  routed : isRelayTopic event.topic = true → (pg.routes.routes event.topic).isSome
  free : pg.outbox.lookup event.eventId = none

def addEvent (operationId : String) (tradeId : Option String) (pg : PostgresTables)
    (event : OutboxEvent) : PostgresTables :=
  { pg with outbox := pg.outbox.insertNew (outboxRow operationId tradeId event) }

/-- The trigger finds a route, or needs none. -/
theorem resolveOutboxRoute_isOk (routes : OutboxRoutes) (topic : String) :
    (∃ route, PostgresOutboxQueue.resolveOutboxRoute routes topic = .ok route) ↔
      (isRelayTopic topic = true → (routes.routes topic).isSome) := by
  rw [PostgresOutboxQueue.resolveOutboxRoute]
  cases isRelayTopic topic with
  | false => simp
  | true =>
    rw [if_pos rfl]
    cases hroute : routes.routes topic with
    | none => simp
    | some route => simp

theorem insertOutboxEvent_yields (tradeId : Option String) (tooLarge : StorageError)
    (event : OutboxEvent) :
    Yields (insertOutboxEvent operationId tradeId tooLarge event) pg
      (Insertable pg operationId event) () (addEvent operationId tradeId pg event) := by
  rw [insertOutboxEvent]
  refine yields_unless (fun h => not_le.mpr h.time) fun htime => ?_
  refine (bindParams_yields _).bind (·.texts) fun htexts => yields_get_bind ?_
  have hroute := resolveOutboxRoute_isOk pg.routes event.topic
  cases hresolved : PostgresOutboxQueue.resolveOutboxRoute pg.routes event.topic with
  | error e =>
    refine yields_throw fun h => ?_
    obtain ⟨route, hok⟩ := hroute.mpr h.routed
    rw [hresolved] at hok
    cases hok
  | ok route =>
    have hrouted := hroute.mp ⟨route, hresolved⟩
    refine (yields_pure route pg trivial).bind (fun _ => trivial) fun _ => ?_
    dsimp only
    by_cases hfree : pg.outbox.lookup event.eventId = none
    · rw [dif_pos (show pg.outbox.lookup (OutboxContentRow.eventId
        (outboxRow operationId tradeId event)) = none from hfree)]
      refine (yields_set _ _ ⟨not_le.mp htime, htexts, hrouted, hfree⟩).congr Iff.rfl
        (fun _ => rfl) fun _ => ?_
      rw [addEvent, KeyedTable.insertNew_of_free hfree]
    · rw [dif_neg (show ¬ pg.outbox.lookup (OutboxContentRow.eventId
        (outboxRow operationId tradeId event)) = none from hfree)]
      exact yields_throw fun h => hfree h.free

theorem insertOutboxEvents_yields {events : List OutboxEvent} (tradeId : Option String)
    (tooLarge : StorageError) (hnodup : (events.map (·.eventId)).Nodup) :
    Yields (events.forM (insertOutboxEvent operationId tradeId tooLarge)) pg
      (∀ event ∈ events, Insertable pg operationId event) ()
      (events.foldl (addEvent operationId tradeId) pg) := by
  refine (yields_forM (fun s event _ => insertOutboxEvent_yields tradeId tooLarge event)
    pg).congr ?_ (fun _ => rfl) fun _ => rfl
  refine allAlong_iff (List.pairwise_map.mp hnodup |>.imp fun {a b} hne s => ?_) pg
  have hsame : (addEvent operationId tradeId s a).outbox.lookup b.eventId =
      s.outbox.lookup b.eventId := KeyedTable.lookup_insertNew_ne (Ne.symm hne)
  constructor
  · rintro ⟨htime, htexts, hrouted, hfree⟩
    exact ⟨htime, htexts, hrouted, hsame ▸ hfree⟩
  · rintro ⟨htime, htexts, hrouted, hfree⟩
    exact ⟨htime, htexts, hrouted, hsame.trans hfree⟩

/-- A loop that leaves the tables as they are. -/
theorem checks_forM {ρ : Type} {f : ρ → PgM Unit} {cond : ρ → Prop} {l : List ρ}
    (h : ∀ a ∈ l, Yields (f a) pg (cond a) () pg) :
    Yields (l.forM f) pg (∀ a ∈ l, cond a) () pg := by
  induction l with
  | nil => exact yields_pure () pg (by simp)
  | cons a rest ih =>
    have hrest := ih fun b hb => h b (List.mem_cons_of_mem _ hb)
    refine (h a (List.mem_cons_self ..)).bind (fun hall => hall a (List.mem_cons_self ..))
      fun ha => ?_
    refine hrest.congr ?_ (fun _ => rfl) fun _ => rfl
    rw [List.forall_mem_cons, and_iff_right ha]

/-- A relay event has a route. -/
def Routable (decode : Bytes → Option EventEnvelope) (pg : PostgresTables)
    (event : OutboxEvent) : Prop :=
  ∀ envelope, EventEnvelope.fromOutbox decode event = .ok (some envelope) →
    Bindable [event.topic] ∧ (pg.routes.routes event.topic).isSome

theorem lookupRoute_yields {decode : Bytes → Option EventEnvelope} {event : OutboxEvent}
    {envelope : Option EventEnvelope}
    (hok : EventEnvelope.fromOutbox decode event = .ok envelope) :
    Yields (lookupRoute decode event) pg (Routable decode pg event) () pg := by
  rw [lookupRoute, Routable, hok]
  refine (yields_pure envelope pg trivial).bind (fun _ => trivial) fun _ => ?_
  cases envelope with
  | none => exact yields_pure () pg (by simp)
  | some envelope =>
    rw [if_pos (by rfl)]
    refine (bindParams_yields _).bind (fun h => (h envelope rfl).1) fun htexts =>
      yields_get_bind ?_
    cases hroute : pg.routes.routes event.topic with
    | none => exact yields_throw fun h => by simpa using (h envelope rfl).2
    | some route => exact yields_pure () pg fun _ _ => ⟨htexts, rfl⟩

/-- The partitions can be locked: relay events have routes, and the texts are fine. -/
structure Lockable (decode : Bytes → Option EventEnvelope) (pg : PostgresTables)
    (effects : CommitEffects) : Prop where
  routed : ∀ event ∈ effects.outboxEvents, Routable decode pg event
  texts : ∀ event ∈ effects.outboxEvents, Bindable [event.topic, event.partitionKey]

theorem lockPartitions_yields {decode : Bytes → Option EventEnvelope} {effects : CommitEffects}
    (hok : ∀ event ∈ effects.outboxEvents,
      ∃ envelope, EventEnvelope.fromOutbox decode event = .ok envelope) :
    Yields (lockPartitions decode effects) pg (Lockable decode pg effects) () pg := by
  have hroutes : Yields (effects.outboxEvents.forM (lookupRoute decode)) pg
      (∀ event ∈ effects.outboxEvents, Routable decode pg event) () pg := by
    refine checks_forM fun event hmem => ?_
    obtain ⟨envelope, henvelope⟩ := hok event hmem
    exact lookupRoute_yields henvelope
  rw [lockPartitions]
  refine hroutes.bind (·.routed) fun hrouted => ?_
  refine (checks_forM fun event _ => bindParams_yields [event.topic, event.partitionKey]).congr
    ?_ (fun _ => rfl) fun _ => rfl
  exact ⟨fun htexts => ⟨hrouted, htexts⟩, (·.texts)⟩

end Effects

end PostgresSnapshotStore

end DbProxy
