/-
Operation claims in PostgreSQL: `commit_records` beside receipt retirement and
claim purge.

Every statement is a step of its own.  A statement sees what was committed when it
started and the rows of its own transaction; row locks are held to the end of the
transaction.  `claim_operation` inserts the claim, which waits for an uncommitted
insert, update or delete of the row, and then reads it `FOR SHARE`, which waits for
`FOR UPDATE`; between the snapshot of that statement and its lock the row may be
deleted.  The two maintenance statements choose rows by their snapshot, skip locked
rows, look at the current version of what they lock, and change it.

A call may be cut off at any time (a lost connection, a timeout, a text that
PostgreSQL refuses): it is rolled back without an answer.  Partition locks and cache
repairs are left out.  Appends and events decide only whether a commit is refused.

* `ClaimSystem.step` — all interleavings of calls and maintenance workers.
-/
import DbProxy.PostgresReceipts

namespace DbProxy

/-! ### Tables -/

/-- `dbproxy_operation_claims`; `row` tells a row from a later one with the same id. -/
structure ClaimRow where
  row : ℕ
  kind : OperationKind
  claimedAt : ℕ
  retiredAt : Option ℕ
deriving DecidableEq

/-- The claim of a multi-record transaction whose receipt is kept. -/
def ClaimRow.isLive (c : ClaimRow) : Bool := c.kind = .multi && c.retiredAt.isNone

structure ReceiptTables where
  claims : String → Option ClaimRow := fun _ => none
  headers : String → Option MultiTransactionRow := fun _ => none
  records : String → List MultiRecordRow := fun _ => []
  effects : String → Option Bytes := fun _ => none
  snapshots : RecordKey → Option SnapshotRow := fun _ => none

/-! ### Calls -/

/-- Where a call of `commit_records` stands. -/
inductive CommitPhase
  | absent
  | opened
  /-- the claim was inserted, or one was there -/
  | inserted
  /-- the `FOR SHARE` statement runs; this row is visible to it -/
  | selecting (visible : Option ℕ)
  | claimed
  -- a retry
  | verifying
  | reading
  | comparing (header : MultiTransactionRow)
  | confirming (records : List TransactionRecordReceipt) (result : Bytes)
  -- a first attempt
  | locking (rest : List TransactionalRecordWrite) (revisions : List Revision)
  | committing (revisions : List Revision)
  | finished
deriving DecidableEq

namespace CommitPhase

/-- The claim is locked. -/
def holdsClaim : CommitPhase → Bool
  | claimed | verifying | reading | comparing _ | confirming _ _ | locking _ _ | committing _ => true
  | absent | opened | inserted | selecting _ | finished => false

/-- The header of this call is not committed yet. -/
def isFirst : CommitPhase → Bool
  | locking _ _ | committing _ => true
  | _ => false

def isRetry : CommitPhase → Bool
  | verifying | reading | comparing _ | confirming _ _ => true
  | _ => false

end CommitPhase

/-- `own` is the claim that the call inserted and has not committed. -/
structure CommitCall where
  request : MultiRecordTransactionalWrite := ⟨"", [], []⟩
  effects : CommitEffects := {}
  own : Option ClaimRow := none
  phase : CommitPhase := .absent

namespace CommitCall

def operationId (c : CommitCall) : String := c.request.operationId

/-- The records whose locks the call holds. -/
def lockedRecords (c : CommitCall) : List RecordKey :=
  match c.phase with
  | .locking _ revisions => (c.request.writes.take revisions.length).map (·.record)
  | .committing _ => c.request.writes.map (·.record)
  | _ => []

end CommitCall

/-! ### Maintenance -/

inductive RetentionKind
  | retirement
  | purge
deriving DecidableEq

/-- One run of `operation_retirement.sql` or `operation_claim_purge.sql`: its snapshot,
the operations whose claims it has locked, and whether it has changed them. -/
structure RetentionWorker where
  kind : RetentionKind
  now : ℕ
  retention : ℕ
  snapshot : ReceiptTables
  due : List String := []
  changed : Bool := false

/-- The conditions of the two statements on a claim. -/
def RetentionWorker.chooses (w : RetentionWorker) (c : ClaimRow) : Bool :=
  match w.kind with
  | .retirement => c.isLive && c.claimedAt + w.retention < w.now
  | .purge => c.kind = .multi && c.retiredAt.any fun t => t + w.retention < w.now

/-- The condition of the retirement on the effects, by its snapshot. -/
def RetentionWorker.mayTake (w : RetentionWorker) (operationId : String) : Bool :=
  match w.kind with
  | .retirement => (w.snapshot.effects operationId).isNone
  | .purge => true

/-- `LIMIT 500`. -/
def retentionBatchSize : ℕ := 500

/-! ### The system -/

/-- What a caller or an operator sees. -/
inductive Happening
  | answered (call : ℕ) (request : MultiRecordTransactionalWrite) (effects : CommitEffects)
      (outcome : Except StorageError MultiRecordTransactionalWriteOutcome)
  | purged (operationId : String)
deriving DecidableEq

structure ClaimSystem where
  tables : ReceiptTables := {}
  calls : ℕ → CommitCall := fun _ => {}
  callCount : ℕ := 0
  workers : ℕ → Option RetentionWorker := fun _ => none
  workerCount : ℕ := 0
  nextRow : ℕ := 0
  history : List Happening := []

inductive ClaimEvent
  | begin (request : MultiRecordTransactionalWrite) (effects : CommitEffects)
  | insertClaim (call now : ℕ)
  | openSelect (call : ℕ)
  | lockShare (call : ℕ)
  | insertHeader (call : ℕ)
  | verify (call : ℕ)
  | readHeader (call : ℕ)
  | readRows (call : ℕ)
  | lockRecord (call : ℕ)
  | persist (call : ℕ)
  | refuse (call : ℕ) (error : StorageError)
  | commit (call : ℕ)
  | cancel (call : ℕ)
  | otherClaim (operationId : String) (kind : OperationKind) (now : ℕ)
  | openWorker (kind : RetentionKind) (now retention : ℕ)
  | lockDue (worker : ℕ) (operationId : String)
  | change (worker : ℕ)
  | commitWorker (worker : ℕ)
  | cancelWorker (worker : ℕ)

namespace ClaimSystem

variable (decode : Bytes → Option EventEnvelope) (encode : CommitEffects → Bytes)

/-! #### Who holds what -/

/-- Another call has inserted the claim and not committed. -/
def claimPending (s : ClaimSystem) (call : ℕ) (operationId : String) : Bool :=
  (List.range s.callCount).any fun j =>
    j ≠ call && (s.calls j).own.isSome && (s.calls j).operationId = operationId

/-- Another call has inserted the header and not committed. -/
def headerPending (s : ClaimSystem) (call : ℕ) (operationId : String) : Bool :=
  (List.range s.callCount).any fun j =>
    j ≠ call && (s.calls j).phase.isFirst && (s.calls j).operationId = operationId

/-- A call holds the claim `FOR SHARE`. -/
def claimShared (s : ClaimSystem) (operationId : String) : Bool :=
  (List.range s.callCount).any fun j =>
    (s.calls j).phase.holdsClaim && (s.calls j).operationId = operationId

/-- Another call holds the lock of the record. -/
def recordLocked (s : ClaimSystem) (call : ℕ) (record : RecordKey) : Bool :=
  (List.range s.callCount).any fun j => j ≠ call && (s.calls j).lockedRecords.any (· = record)

/-- A maintenance statement holds the claim `FOR UPDATE`. -/
def claimTaken (s : ClaimSystem) (operationId : String) : Bool :=
  (List.range s.workerCount).any fun w => (s.workers w).any (operationId ∈ ·.due)

/-- A maintenance statement has changed the claim and not committed. -/
def claimChanging (s : ClaimSystem) (operationId : String) : Bool :=
  (List.range s.workerCount).any fun w =>
    (s.workers w).any fun worker => worker.changed && operationId ∈ worker.due

/-! #### Changes -/

def setPhase (s : ClaimSystem) (call : ℕ) (phase : CommitPhase) : ClaimSystem :=
  { s with calls := Function.update s.calls call { s.calls call with phase } }

/-- The transaction ends; its uncommitted rows are gone. -/
def close (s : ClaimSystem) (call : ℕ) : ClaimSystem :=
  { s with calls := Function.update s.calls call { s.calls call with own := none, phase := .finished } }

def answer (s : ClaimSystem) (call : ℕ)
    (outcome : Except StorageError MultiRecordTransactionalWriteOutcome) : ClaimSystem :=
  { s.close call with
    history := s.history ++
      [.answered call (s.calls call).request (s.calls call).effects outcome] }

/-- `query_one` without a row. -/
def missingRow : StorageError := .postgres "query returned an unexpected number of rows"

/-- The snapshot row of a write; `queued_sequence` is not written. -/
def snapshotRow (old : Option SnapshotRow) (write : TransactionalRecordWrite) (revision : Revision) :
    SnapshotRow :=
  ⟨write.schema, write.schemaVersion, revision, write.payload, write.updatedAtUnixMs,
    old.bind (·.queuedSequence)⟩

/-- The revisions of a first attempt become visible. -/
def storeWrites (snapshots : RecordKey → Option SnapshotRow) :
    List (TransactionalRecordWrite × Revision) → RecordKey → Option SnapshotRow
  | [] => snapshots
  | (write, revision) :: rest =>
    storeWrites (Function.update snapshots write.record
      (some (snapshotRow (snapshots write.record) write revision))) rest

/-- The commit of a first attempt. -/
def commitTables (t : ReceiptTables) (request : MultiRecordTransactionalWrite)
    (effects : CommitEffects) (claim : ClaimRow) (revisions : List Revision) : ReceiptTables where
  claims := Function.update t.claims request.operationId (some claim)
  headers := Function.update t.headers request.operationId (some request.header)
  records := Function.update t.records request.operationId (request.rows revisions)
  effects :=
    if effects.isEmpty then t.effects
    else Function.update t.effects request.operationId (some (encode effects))
  snapshots := storeWrites t.snapshots (request.writes.zip revisions)

/-- The commit of a maintenance statement.  It deletes the header that its snapshot shows,
and the records follow through `ON DELETE CASCADE`. -/
def retentionTables (t : ReceiptTables) (w : RetentionWorker) : ReceiptTables :=
  match w.kind with
  | .retirement => { t with
      claims := fun operationId =>
        if operationId ∈ w.due then
          (t.claims operationId).map fun c => { c with retiredAt := some w.now }
        else t.claims operationId
      headers := fun operationId =>
        if operationId ∈ w.due ∧ (w.snapshot.headers operationId).isSome then none
        else t.headers operationId
      records := fun operationId =>
        if operationId ∈ w.due ∧ (w.snapshot.headers operationId).isSome then []
        else t.records operationId }
  | .purge => { t with
      claims := fun operationId => if operationId ∈ w.due then none else t.claims operationId }

/-! #### Steps -/

/-- `claim_operation`, the row read and locked. -/
def checkClaim (operationId : String) (c : ClaimRow) : Except StorageError Unit :=
  if c.kind ≠ .multi then .error (.core (.operationIdConflict operationId))
  else if c.retiredAt.isSome then .error (.core (.operationExpired operationId))
  else .ok ()

/-- The lock of the `FOR SHARE` statement. -/
def lockShare (s : ClaimSystem) (i : ℕ) (visible : Option ℕ) : Option ClaimSystem :=
  let c := s.calls i
  match c.own, visible with
  | some _, _ => some (s.setPhase i .claimed)
  | none, none => some (s.answer i (.error missingRow))
  | none, some row =>
    if s.claimTaken c.operationId then none
    else
      match s.tables.claims c.operationId with
      | none => some (s.answer i (.error missingRow))
      | some claim =>
        -- a row that was deleted meanwhile is not followed to a new one
        if claim.row ≠ row then some (s.answer i (.error missingRow))
        else
          match checkClaim c.operationId claim with
          | .error e => some (s.answer i (.error e))
          | .ok () => some (s.setPhase i .claimed)

/-- The comparison of one record of a first attempt. -/
def lockRecord (s : ClaimSystem) (i : ℕ) (write : TransactionalRecordWrite)
    (rest : List TransactionalRecordWrite) (revisions : List Revision) : ClaimSystem :=
  let actual := (s.tables.snapshots write.record).elim 0 (·.revision)
  if actual ≠ write.expectedRevision then
    s.answer i (.error (.core (.revisionConflict write.record (some write.expectedRevision) actual)))
  else
    match Revision.next actual with
    | none => s.answer i (.error (.core (.revisionExhausted write.record)))
    | some revision => s.setPhase i (.locking rest (revisions ++ [revision]))

/-- The step of a call; only `begin` opens one. -/
def stepCall (s : ClaimSystem) : ClaimEvent → Option ClaimSystem
  | .begin request effects =>
    match prepareCommit decode request effects with
    | .error _ => none
    | .ok (request, effects) => some { s with
        calls := Function.update s.calls s.callCount { request, effects, phase := .opened }
        callCount := s.callCount + 1 }
  | .insertClaim i now =>
    let c := s.calls i
    if c.phase ≠ .opened ∨ s.claimPending i c.operationId ∨ s.claimChanging c.operationId then none
    else if (s.tables.claims c.operationId).isSome then some (s.setPhase i .inserted)
    else some { s with
      calls := Function.update s.calls i
        { c with own := some ⟨s.nextRow, .multi, now, none⟩, phase := .inserted }
      nextRow := s.nextRow + 1 }
  | .openSelect i =>
    let c := s.calls i
    if c.phase ≠ .inserted then none
    else some (s.setPhase i (.selecting ((c.own.or (s.tables.claims c.operationId)).map (·.row))))
  | .lockShare i =>
    match (s.calls i).phase with
    | .selecting visible => s.lockShare i visible
    | _ => none
  | .insertHeader i =>
    let c := s.calls i
    if c.phase ≠ .claimed ∨ s.headerPending i c.operationId ∨ s.claimChanging c.operationId then none
    else
      match checkHeaderI64 c.request with
      | .error e => some (s.answer i (.error e))
      | .ok () =>
        if (s.tables.headers c.operationId).isSome then some (s.setPhase i .verifying)
        else some (s.setPhase i (.locking c.request.writes []))
  | .verify i =>
    let c := s.calls i
    if c.phase ≠ .verifying then none
    else if effectsMatch encode (s.tables.effects c.operationId) c.effects then
      some (s.setPhase i .reading)
    else some (s.answer i (.error (.core (.operationIdConflict c.operationId))))
  | .readHeader i =>
    let c := s.calls i
    if c.phase ≠ .reading then none
    else
      match s.tables.headers c.operationId with
      | none => some (s.answer i (.error missingRow))
      | some header => some (s.setPhase i (.comparing header))
  | .readRows i =>
    match (s.calls i).phase with
    | .comparing header =>
      let c := s.calls i
      let rows := sortOn (·.record) (s.tables.records c.operationId)
      if receiptMatches header rows c.request then
        some (s.setPhase i (.confirming (rows.map (·.receipt)) header.result))
      else some (s.answer i (.error (.core (.operationIdConflict c.operationId))))
    | _ => none
  | .lockRecord i =>
    match (s.calls i).phase with
    | .locking (write :: rest) revisions =>
      if s.recordLocked i write.record then none else some (s.lockRecord i write rest revisions)
    | _ => none
  | .persist i =>
    match (s.calls i).phase with
    | .locking [] revisions =>
      match ((s.calls i).request.writes.zip revisions).forM fun (w, r) => checkI64 w r with
      | .error e => some (s.answer i (.error e))
      | .ok () => some (s.setPhase i (.committing revisions))
    | _ => none
  -- an append or an event of the request exists already
  | .refuse i e =>
    if (s.calls i).phase.isFirst then some (s.answer i (.error e)) else none
  | .commit i =>
    let c := s.calls i
    match c.phase, c.own with
    | .confirming records result, _ => some (s.answer i (.ok (.duplicate records result)))
    | .committing revisions, some claim => some { s.answer i (.ok (.applied
          ((c.request.rows revisions).map (·.receipt)) c.request.result)) with
        tables := commitTables encode s.tables c.request c.effects claim revisions }
    | _, _ => none
  | .cancel i =>
    if (s.calls i).phase = .absent ∨ (s.calls i).phase = .finished then none else some (s.close i)
  | _ => none

/-- The step of a maintenance statement. -/
def stepWorker (s : ClaimSystem) : ClaimEvent → Option ClaimSystem
  | .openWorker kind now retention => some { s with
      workers := Function.update s.workers s.workerCount
        (some { kind, now, retention, snapshot := s.tables })
      workerCount := s.workerCount + 1 }
  | .lockDue w operationId =>
    match s.workers w, s.tables.claims operationId with
    | some worker, some claim =>
      -- the row that the snapshot shows, in its current version and not locked
      if !worker.changed ∧ worker.due.length < retentionBatchSize ∧
          ((worker.snapshot.claims operationId).any fun c => c.row = claim.row ∧ worker.chooses c) ∧
          worker.mayTake operationId ∧ worker.chooses claim ∧ ¬ s.claimShared operationId ∧
          ¬ s.claimTaken operationId then
        some { s with
          workers := Function.update s.workers w
            (some { worker with due := worker.due ++ [operationId] }) }
      else none
    | _, _ => none
  | .change w =>
    (s.workers w).map fun worker =>
      { s with workers := Function.update s.workers w (some { worker with changed := true }) }
  | .commitWorker w =>
    match s.workers w with
    | some worker =>
      if worker.changed then some { s with
        tables := retentionTables s.tables worker
        workers := Function.update s.workers w none
        history := match worker.kind with
          | .retirement => s.history
          | .purge => s.history ++ worker.due.map .purged }
      else none
    | none => none
  | .cancelWorker w => some { s with workers := Function.update s.workers w none }
  | _ => none

def step (s : ClaimSystem) : ClaimEvent → Option ClaimSystem
  -- `apply` or `apply_trade` commits its claim
  | .otherClaim operationId kind now =>
    if kind = .multi ∨ (s.tables.claims operationId).isSome ∨
        s.claimPending s.callCount operationId then none
    else some { s with
      tables := { s.tables with
        claims := Function.update s.tables.claims operationId (some ⟨s.nextRow, kind, now, none⟩) },
      nextRow := s.nextRow + 1 }
  | .openWorker kind now retention => s.stepWorker (.openWorker kind now retention)
  | .lockDue w operationId => s.stepWorker (.lockDue w operationId)
  | .change w => s.stepWorker (.change w)
  | .commitWorker w => s.stepWorker (.commitWorker w)
  | .cancelWorker w => s.stepWorker (.cancelWorker w)
  | e => s.stepCall decode encode e

end ClaimSystem

end DbProxy
