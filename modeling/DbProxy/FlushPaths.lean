/-
Both flush paths of the backlog, and entries from before the upgrade.

`process_backlog_batch` flushes with the fence sequence of every entry
(`save_backlog_leases`), `process_backlog_once` with the ordinary `save`.
Entries of an older instance are plain bincode without a sequence and flush
with sequence zero.  `FlushSystem` joins both paths and both kinds of entries
with the Redis scripts and the tables.  Its ghosts are the log of all enqueues,
what workers saw committed, and for every record the place in the log of the
enqueue whose value the row holds.

* `EntrySave` — what an entry with a result does, on either path;
* `PgAt` — the row of a record and its receipts, by places in the log;
* `saveBacklogLeases_pgAt`, `saveOnce_pgAt` — the two paths keep `PgAt` as long
  as `InOrder` holds: a write never goes back, and an entry is left out only if
  the row is as new.
-/
import DbProxy.BatchSaves
import DbProxy.WriteBehindSafety

namespace DbProxy

open RedisSnapshotBacklog StepMachine

/-! ### The system -/

/-- One enqueue; an entry from before the upgrade has no sequence. -/
structure QueuedEntry where
  sequence : Option ℕ
  request : SnapshotWrite
deriving DecidableEq

/-- The bytes stored for it. -/
def QueuedEntry.frame (codec : Bincode) (e : QueuedEntry) : Bytes :=
  match e.sequence with
  | some n => sequencedEntry n (codec.encode e.request)
  | none => codec.encode e.request

/-- The fence sequence that the batch path flushes it with. -/
def QueuedEntry.fence (e : QueuedEntry) : ℕ := e.sequence.getD 0

/-- The log entries of one enqueue script. -/
def sequencedLog (now : ℕ) : ℕ → List SnapshotWrite → List QueuedEntry
  | _, [] => []
  | sequence, request :: rest =>
    let sequence := nextSequence now sequence
    ⟨some sequence, request⟩ :: sequencedLog now sequence rest

/-- The enqueue of an older instance: the entry is the plain encoding. -/
def Backlog.legacyEnqueue (score : ℕ) (entry : EnqueueEntry) (b : Backlog) : Backlog :=
  { b with
    entries := Function.update b.entries entry.entryKey (some entry.encoded)
    pending := b.pending.zadd (LuaNumber.toDouble score) entry.member }

structure FlushSystem where
  backlog : BacklogSystem := {}
  pg : Postgres := {}
  log : List QueuedEntry := []
  flushed : List ClaimedEntry := []
  stored : RecordKey → Option ℕ := fun _ => none

inductive FlushEvent
  | backlog (e : BacklogEvent)
  | legacyEnqueue (score : ℕ) (request : SnapshotWrite)
  | flushOnce (claimed : ClaimedEntry) (ending : FlushEnding)
  | flushBatch (claimed : List ClaimedEntry) (ending : FlushEnding)

/-- The requests that an event enqueues. -/
def FlushEvent.enqueued : FlushEvent → List SnapshotWrite
  | .backlog (.enqueue _ _ requests) => requests
  | .legacyEnqueue _ request => [request]
  | _ => []

/-- An enqueue of an older instance. -/
def FlushEvent.legacy : FlushEvent → Bool
  | .legacyEnqueue .. => true
  | _ => false

/-- A flush of `process_backlog_once`. -/
def FlushEvent.once : FlushEvent → Bool
  | .flushOnce .. => true
  | _ => false

/-- What a save says about its leases, and the tables after it. -/
abbrev FlushResult :=
  Except BackendError (List (Except BackendError SnapshotWriteOutcome)) × Postgres

/-- The save of `process_backlog_once`. -/
def saveOnce (lease : SnapshotBacklogLease) (pg : Postgres) : FlushResult :=
  let (result, pg) := StorageBackend.save lease.request pg
  (.ok [result], pg)

namespace FlushSystem

/-- The place of a claimed entry in the log. -/
def position (codec : Bincode) (s : FlushSystem) (lease : SnapshotBacklogLease) : Option ℕ :=
  s.log.findIdx? (·.frame codec = lease.encoded)

/-- A row that was written holds the value of its lease. -/
def noteWrites (codec : Bincode) (s : FlushSystem) (stored : RecordKey → Option ℕ) :
    List (SnapshotBacklogLease × Except BackendError SnapshotWriteOutcome) →
    RecordKey → Option ℕ
  | [] => stored
  | (lease, .ok (.applied _)) :: rest =>
    s.noteWrites codec (Function.update stored lease.request.record (s.position codec lease)) rest
  | _ :: rest => s.noteWrites codec stored rest

/-- A flush whose transaction was committed, told to its worker or not. -/
def commitFlush (codec : Bincode) (s : FlushSystem) (leases : List SnapshotBacklogLease)
    (saved : FlushResult) : FlushSystem :=
  match saved with
  | (.error _, pg) => { s with pg }
  | (.ok outcomes, pg) => { s with
      pg
      stored := s.noteWrites codec s.stored (leases.zip outcomes) }

def committedBy (leases : List SnapshotBacklogLease) (saved : FlushResult) : List ClaimedEntry :=
  match saved.1 with
  | .error _ => []
  | .ok outcomes => (committedLeases leases outcomes).map (·.toClaimedEntry)

def finishFlush (codec : Bincode) (s : FlushSystem) (leases : List SnapshotBacklogLease)
    (saved : FlushResult) : FlushEnding → FlushSystem
  | .rolledBack => s
  | .lost => s.commitFlush codec leases saved
  | .delivered => { s.commitFlush codec leases saved with
      flushed := s.flushed ++ committedBy leases saved }

/-- The log entries of a backlog event. -/
def newEntries (s : FlushSystem) : BacklogEvent → List QueuedEntry
  | .enqueue clock _ requests =>
    sequencedLog clock.unixMicros s.backlog.redis.fenceSequence requests
  | _ => []

/-- A batch is what one claim returned, which hands out a member once. -/
def step (codec : Bincode) (s : FlushSystem) : FlushEvent → Option FlushSystem
  | .backlog e =>
    if e.acknowledged.all (· ∈ s.flushed) then
      (s.backlog.step codec.encode e).map fun backlog =>
        { s with backlog, log := s.log ++ s.newEntries e }
    else none
  | .legacyEnqueue score request =>
    match prepare codec.encode request with
    | .error _ => none
    | .ok entry => some { s with
        backlog := { s.backlog with redis := s.backlog.redis.legacyEnqueue score entry }
        log := s.log ++ [⟨none, request⟩] }
  | .flushOnce claimed ending =>
    if s.backlog.wasIssued claimed then
      match decodeLease codec claimed with
      | .error _ => none
      | .ok lease => some (s.finishFlush codec [lease] (saveOnce lease s.pg) ending)
    else none
  | .flushBatch claimed ending =>
    if claimed.all s.backlog.wasIssued && (claimed.map (·.member)).Nodup then
      match claimed.mapM (decodeLease codec) with
      | .error _ => none
      | .ok leases => some (s.finishFlush codec leases (saveBacklogLeases leases s.pg) ending)
    else none

end FlushSystem

/-! ### One entry on either path -/

/-- Whether a new request writes the row: the fence of the batch path must be larger than
the sequence of the row, the other path always writes. -/
def Postgres.writes (pg : Postgres) (r : RecordKey) (fence : Option ℕ) : Bool :=
  fence.all fun n => (pg.queuedSequence r).all (· < n)

/-- What an entry with a result did. -/
inductive EntrySave (q : SnapshotWrite) (fence : Option ℕ) (pg pg' : Postgres) :
    SnapshotWriteOutcome → Prop
  | replay {revision : Revision} (receipt : IdempotencyRow)
      (hreceipt : pg.idempotency q.requestId = some receipt)
      (hrecord : receipt.record = q.record)
      (hsnapshots : pg'.snapshots = pg.snapshots)
      (hreceipts : pg'.idempotency = pg.idempotency) :
      EntrySave q fence pg pg' (.duplicate revision)
  | written {revision : Revision} (receipt : IdempotencyRow)
      (hfree : pg.idempotency q.requestId = none) (hrecord : receipt.record = q.record)
      (hreceipts : pg'.idempotency =
        Function.update pg.idempotency q.requestId (some receipt))
      (hwrites : pg.writes q.record fence = true)
      (hsnapshots : pg'.snapshots = Function.update pg.snapshots q.record
        (some (rowOf q q.updatedAtUnixMs revision (fence.or (pg.queuedSequence q.record))))) :
      EntrySave q fence pg pg' (.applied revision)
  | late {revision : Revision} (receipt : IdempotencyRow)
      (hfree : pg.idempotency q.requestId = none) (hrecord : receipt.record = q.record)
      (hreceipts : pg'.idempotency =
        Function.update pg.idempotency q.requestId (some receipt))
      (hwrites : pg.writes q.record fence = false)
      (hsnapshots : pg'.snapshots = pg.snapshots) :
      EntrySave q fence pg pg' (.duplicate revision)

theorem idempotencyMatches_record {row : IdempotencyRow} {q : SnapshotWrite} {p : PreparedSave}
    (h : idempotencyMatches row q p) : row.record = q.record := by
  simp only [idempotencyMatches, Bool.and_eq_true, decide_eq_true_eq] at h
  exact h.1.1.1.1.1

open EarlyReturn in
/-- An entry of the batch path. -/
theorem entrySave_fenced {q : SnapshotWrite} {p : PreparedSave} {fence : ℕ} {pg pg' : Postgres}
    {outcome : SnapshotWriteOutcome} (hp : prepareSave q (some fence) = .ok p)
    (h : (saveSnapshotInTransaction q p).run pg = .ok outcome pg') :
    EntrySave q (some fence) pg pg' outcome := by
  obtain ⟨hfence, hupdated⟩ := prepareSave_ok hp
  rw [saveSnapshotInTransaction] at h
  obtain ⟨claimed, m, hclaim, hrest⟩ := bind_run_eq_ok.mp h
  rcases claimReceipt_ok hclaim with ⟨receipt, rfl, hreceipt, rfl⟩ | ⟨rfl, hfree, hsame, hinsert⟩
  · dsimp only at hrest
    split at hrest
    · rename_i hmatches
      obtain ⟨_, m, hrepair, hrest⟩ := bind_run_eq_ok.mp hrest
      obtain ⟨hs, hi⟩ := enqueueRepair_ok hrepair
      cases hrest
      exact .replay receipt hreceipt (idempotencyMatches_record hmatches) hs hi
    · cases hrest
  · dsimp only at hrest
    rw [hfence] at hrest
    obtain ⟨⟨revision, hreceipts⟩, hwritten⟩ := saveFencedSnapshot_ok hrest
    rw [hinsert, Function.update_self, Function.update_idem, Option.map_some] at hreceipts
    rw [hsame, hupdated] at hwritten
    rcases hwritten with
      ⟨revision', rfl, hsmaller, hsnapshots⟩ | ⟨⟨revision', rfl⟩, hsnapshots, row, n, hrow, hq, hle⟩
    · refine .written _ hfree rfl hreceipts ?_ hsnapshots
      rw [Postgres.writes, Option.all_some, Postgres.queuedSequence]
      cases hrow : pg.snapshots q.record with
      | none => rfl
      | some row => exact hsmaller row hrow
    · refine .late _ hfree rfl hreceipts ?_ hsnapshots
      rw [Postgres.writes, Option.all_some, Postgres.queuedSequence, hrow, Option.bind_some, hq]
      simpa using hle

/-- A save of the other path. -/
theorem entrySave_ordinary {q : SnapshotWrite} {pg pg' : Postgres}
    {outcome : SnapshotWriteOutcome} (h : PostgresSnapshotStore.save q pg = (.ok outcome, pg')) :
    EntrySave q none pg pg' outcome := by
  rw [save_eq] at h
  split at h
  · rename_i result cell hcell
    simp only [Prod.mk.injEq] at h
    obtain ⟨rfl, rfl⟩ := h
    rw [entryCell] at hcell
    split at hcell
    · cases hcell
    · rename_i p hp
      rw [saveCell] at hcell
      split at hcell
      · cases hcell
      · split at hcell
        · rename_i receipt hreceipt
          split at hcell
          · rename_i hmatches
            split at hcell
            · cases hcell
            · cases hcell
              refine .replay receipt hreceipt (idempotencyMatches_record hmatches) ?_ ?_
              · simp [Postgres.setCell, Postgres.cell]
              · simp [Postgres.setCell, Postgres.cell]
          · cases hcell
        · rename_i hfree
          dsimp only at hcell
          split at hcell
          · split at hcell
            · cases hcell
              rw [(prepareSave_ok hp).2]
              exact .written _ hfree rfl rfl rfl rfl
            · cases hcell
          · cases hcell
  · cases h

/-! ### The row of one record -/

section Record

variable {r : RecordKey} {log : List QueuedEntry} {pg pg' : Postgres} {o o' : Option ℕ}

/-- The entry at a place of the log, one of `r`. -/
structure At (log : List QueuedEntry) (r : RecordKey) (i : ℕ) (e : QueuedEntry) : Prop where
  get : log[i]? = some e
  record : e.request.record = r

/-- The row holds the value of this enqueue or of a later one. -/
def Holds (o : Option ℕ) (i : ℕ) : Prop := ∃ m, o = some m ∧ i ≤ m

/-- The value of the row is replaced by later ones only. -/
def Grows (o o' : Option ℕ) : Prop := ∀ m, o = some m → Holds o' m

theorem Grows.refl (o : Option ℕ) : Grows o o := fun m h => ⟨m, h, le_refl m⟩

theorem Holds.grow {i : ℕ} (h : Holds o i) (hgrow : Grows o o') : Holds o' i := by
  obtain ⟨m, hm, him⟩ := h
  obtain ⟨m', hm', hmm⟩ := hgrow m hm
  exact ⟨m', hm', le_trans him hmm⟩

/-- Request ids are used once for `r`. -/
def IdsOnce (r : RecordKey) (log : List QueuedEntry) : Prop :=
  ∀ i j e e', At log r i e → At log r j e' → e.request.requestId = e'.request.requestId → i = j

/-- The tables, for one record whose row holds the value of the enqueue at `o`. -/
structure PgAt (r : RecordKey) (log : List QueuedEntry) (pg : Postgres) (o : Option ℕ) :
    Prop where
  row : ∀ row, pg.snapshots r = some row → ∃ i e, o = some i ∧ At log r i e ∧
    row = rowOf e.request e.request.updatedAtUnixMs row.revision row.queuedSequence
  empty : pg.snapshots r = none → o = none
  /-- the sequence of the row is that of an enqueue it has reached -/
  queued : ∀ k, pg.queuedSequence r = some k → ∃ j e, At log r j e ∧ e.fence = k ∧ Holds o j
  /-- a receipt is that of an enqueue the row has reached -/
  receipt : ∀ id receipt, pg.idempotency id = some receipt → receipt.record = r →
    ∃ i e, At log r i e ∧ e.request.requestId = id ∧ Holds o i

/-- The code's choice whether to write agrees with the order of the enqueues. -/
structure InOrder (pg : Postgres) (r : RecordKey) (fence : Option ℕ) (i : ℕ) (o : Option ℕ) :
    Prop where
  forward : pg.writes r fence = true → ∀ m, o = some m → m ≤ i
  reached : pg.writes r fence = false → Holds o i

theorem PgAt.untouched (h : PgAt r log pg o) (hun : Untouched r pg pg') : PgAt r log pg' o where
  row row hrow := h.row row (hun.snapshot ▸ hrow)
  empty hnone := h.empty (hun.snapshot ▸ hnone)
  queued k hk := by
    rw [Postgres.queuedSequence, hun.snapshot] at hk
    exact h.queued k hk
  receipt id receipt hid hr := by
    obtain ⟨receipt', hid', hr'⟩ := hun.receipts id receipt hid hr
    exact h.receipt id receipt' hid' hr'

/-- A new receipt next to a row that has reached its enqueue. -/
theorem PgAt.claim {i : ℕ} {e : QueuedEntry} {receipt : IdempotencyRow} (h : PgAt r log pg o)
    (hat : At log r i e) (hgrow : Grows o o') (hholds : Holds o' i)
    (hreceipts : pg'.idempotency =
      Function.update pg.idempotency e.request.requestId (some receipt)) :
    ∀ id receipt, pg'.idempotency id = some receipt → receipt.record = r →
      ∃ i e, At log r i e ∧ e.request.requestId = id ∧ Holds o' i := by
  intro id receipt' hid hr
  rw [hreceipts] at hid
  by_cases heq : id = e.request.requestId
  · exact ⟨i, e, hat, heq.symm, hholds⟩
  · rw [Function.update_of_ne heq] at hid
    obtain ⟨j, e', hat', hid', hj⟩ := h.receipt id receipt' hid hr
    exact ⟨j, e', hat', hid', hj.grow hgrow⟩

/-- **One entry of `r`**: in order, it reaches its enqueue and moves the row forward only. -/
theorem EntrySave.pgAt {i : ℕ} {e : QueuedEntry} {fence : Option ℕ}
    {outcome : SnapshotWriteOutcome} (hids : IdsOnce r log) (h : PgAt r log pg o)
    (hat : At log r i e) (hfence : ∀ n, fence = some n → n = e.fence)
    (horder : pg.idempotency e.request.requestId = none → InOrder pg r fence i o)
    (hsave : EntrySave e.request fence pg pg' outcome) :
    ∃ o', PgAt r log pg' o' ∧ Grows o o' ∧ Holds o' i ∧
      ((o' = some i ∧ pg'.queuedSequence r = fence.or (pg.queuedSequence r) ∧
          ∃ revision, outcome = .applied revision) ∨
        (o' = o ∧ pg'.snapshots = pg.snapshots ∧ ∃ revision, outcome = .duplicate revision)) := by
  have hrecord := hat.record
  cases hsave with
  | replay receipt hreceipt hr hsnapshots hreceipts =>
    -- the receipt is that of this enqueue, because its id is used once
    obtain ⟨j, e', hat', hid, hj⟩ := h.receipt _ receipt hreceipt (hr.trans hrecord)
    have hij : j = i := hids j i e' e hat' hat hid
    refine ⟨o, h.untouched ⟨by rw [hsnapshots], ?_⟩, Grows.refl o, hij ▸ hj,
      Or.inr ⟨rfl, hsnapshots, _, rfl⟩⟩
    exact fun id receipt hid hr => ⟨receipt, hreceipts ▸ hid, hr⟩
  | @written revision receipt hfree hr hreceipts hwrites hsnapshots =>
    rw [hrecord] at hwrites hsnapshots
    have hgrow : Grows o (some i) := fun m hm => ⟨i, rfl, (horder hfree).forward hwrites m hm⟩
    have hholds : Holds (some i) i := ⟨i, rfl, le_refl i⟩
    have hnew : pg'.snapshots r = some (rowOf e.request e.request.updatedAtUnixMs revision
        (fence.or (pg.queuedSequence r))) := by
      rw [hsnapshots, Function.update_self]
    have hqueued : pg'.queuedSequence r = fence.or (pg.queuedSequence r) := by
      rw [Postgres.queuedSequence, hnew]
      rfl
    refine ⟨some i, ⟨fun row hrow => ?_, fun hnone => ?_, fun k hk => ?_,
      h.claim hat hgrow hholds hreceipts⟩, hgrow, hholds, Or.inl ⟨rfl, hqueued, _, rfl⟩⟩
    · rw [hnew, Option.some_inj] at hrow
      refine ⟨i, e, rfl, hat, ?_⟩
      rw [← hrow]
      rfl
    · rw [hnew] at hnone
      cases hnone
    · rw [hqueued] at hk
      cases hf : fence with
      | some n =>
        rw [hf, Option.some_or, Option.some_inj] at hk
        exact ⟨i, e, hat, by rw [← hfence n hf, hk], hholds⟩
      | none =>
        rw [hf, Option.none_or] at hk
        obtain ⟨j, e', hat', hk', hj⟩ := h.queued k hk
        exact ⟨j, e', hat', hk', hj.grow hgrow⟩
  | late receipt hfree hr hreceipts hwrites hsnapshots =>
    rw [hrecord] at hwrites
    have hholds := (horder hfree).reached hwrites
    have hrow : pg'.snapshots r = pg.snapshots r := by rw [hsnapshots]
    refine ⟨o, ⟨fun row hr => h.row row (hrow ▸ hr), fun hnone => h.empty (hrow ▸ hnone),
      fun k hk => h.queued k ?_, h.claim hat (Grows.refl o) hholds hreceipts⟩, Grows.refl o,
      hholds, Or.inr ⟨rfl, hsnapshots, _, rfl⟩⟩
    rwa [Postgres.queuedSequence, hrow] at hk

/-! ### The leases of a flush -/

/-- A lease of `r` carries the entry at a place of the log. -/
structure LeaseAt (codec : Bincode) (log : List QueuedEntry) (r : RecordKey)
    (lease : SnapshotBacklogLease) (i : ℕ) (e : QueuedEntry) : Prop extends At log r i e where
  request : lease.request = e.request
  sequence : lease.fenceSequence = e.sequence
  encoded : lease.encoded = e.frame codec

/-- What a flush of these leases with these results did to `r`. -/
structure LeasesSaved {ε : Type} (codec : Bincode) (r : RecordKey) (log : List QueuedEntry)
    (pg pg' : Postgres) (o o' : Option ℕ)
    (pairs : List (SnapshotBacklogLease × Except ε SnapshotWriteOutcome)) : Prop where
  pgAt : PgAt r log pg' o'
  grows : Grows o o'
  reached : ∀ lease outcome, (lease, .ok outcome) ∈ pairs → ∀ i e, LeaseAt codec log r lease i e →
    Holds o' i
  noted : (o' = o ∧ pg'.snapshots r = pg.snapshots r ∧
      ∀ lease revision, (lease, .ok (.applied revision)) ∈ pairs → lease.request.record ≠ r) ∨
    ∃ lease revision i e, (lease, .ok (.applied revision)) ∈ pairs ∧
      LeaseAt codec log r lease i e ∧ o' = some i

/-- The row carries the fence of the enqueue whose value it holds. -/
def Fenced (r : RecordKey) (log : List QueuedEntry) (pg : Postgres) (o : Option ℕ) : Prop :=
  ∀ i e, o = some i → At log r i e → pg.queuedSequence r = some e.fence

theorem At.unique {i : ℕ} {e e' : QueuedEntry} (h : At log r i e) (h' : At log r i e') : e = e' :=
  Option.some.inj (h.get.symm.trans h'.get)

/-- Fenced entries leave every receipt. -/
theorem EntryStep.keepsReceipts {x : SnapshotWrite} {n : ℕ}
    {result : Except StorageError SnapshotWriteOutcome} {id : String}
    (hstep : EntryStep x (some n) pg result pg') (hnone : pg'.idempotency id = none) :
    pg.idempotency id = none := by
  have hupdate : ∀ {receipt : IdempotencyRow}, pg'.idempotency =
      Function.update pg.idempotency x.requestId (some receipt) → pg.idempotency id = none := by
    intro receipt hreceipts
    rw [hreceipts] at hnone
    by_cases heq : id = x.requestId
    · rw [heq, Function.update_self] at hnone
      cases hnone
    · rwa [Function.update_of_ne heq] at hnone
  cases hstep with
  | invalid _ => exact hnone
  | rejected hp hrun => rwa [save_fenced_rejected (prepareSave_ok hp).1 hrun] at hnone
  | saved hp hrun =>
    cases entrySave_fenced hp hrun with
    | replay _ _ _ _ hreceipts => rwa [hreceipts] at hnone
    | written _ _ _ hreceipts => exact hupdate hreceipts
    | late _ _ _ hreceipts => exact hupdate hreceipts

/-- The entries of other records. -/
theorem saveEntries_others (codec : Bincode) {leases : List SnapshotBacklogLease}
    {results : List (Except StorageError SnapshotWriteOutcome)} (h : PgAt r log pg o)
    (hothers : ∀ lease ∈ leases, lease.request.record ≠ r)
    (hrun : (saveEntries (leases.map (·.entry))).run pg = .ok results pg') :
    pg'.snapshots r = pg.snapshots r ∧ LeasesSaved codec r log pg pg' o o (leases.zip results) := by
  have hun : Untouched r pg pg' := by
    refine saveEntries_untouched (fun x hx => ?_) hrun
    obtain ⟨lease, hlease, rfl⟩ := List.mem_map.mp hx
    exact hothers lease hlease
  refine ⟨hun.snapshot, h.untouched hun, Grows.refl o, fun lease outcome hpair i e hat => ?_,
    Or.inl ⟨rfl, hun.snapshot, fun lease revision hpair => hothers lease (List.of_mem_zip hpair).1⟩⟩
  have hr : lease.request.record = r := by rw [hat.request, hat.record]
  exact absurd hr (hothers lease (List.of_mem_zip hpair).1)

/-- A first lease that is rejected, or one of another record. -/
theorem LeasesSaved.cons {ε : Type} {codec : Bincode} {m : Postgres}
    {lease : SnapshotBacklogLease} {result : Except ε SnapshotWriteOutcome}
    {pairs : List (SnapshotBacklogLease × Except ε SnapshotWriteOutcome)}
    (h : LeasesSaved codec r log m pg' o o' pairs) (hrow : m.snapshots r = pg.snapshots r)
    (hhead : ∀ outcome, result = .ok outcome → lease.request.record ≠ r) :
    LeasesSaved codec r log pg pg' o o' ((lease, result) :: pairs) := by
  refine ⟨h.pgAt, h.grows, fun lease' outcome hpair i e hat => ?_, ?_⟩
  · rcases List.mem_cons.mp hpair with hpair | hpair
    · obtain ⟨rfl, hresult⟩ := Prod.mk.inj hpair
      have hr : lease'.request.record = r := by rw [hat.request, hat.record]
      exact absurd hr (hhead outcome hresult.symm)
    · exact h.reached lease' outcome hpair i e hat
  · rcases h.noted with ⟨heq, hsame, hnone⟩ | ⟨lease', revision, i, e, hpair, hrest⟩
    · refine Or.inl ⟨heq, hsame.trans hrow, fun lease' revision hpair => ?_⟩
      rcases List.mem_cons.mp hpair with hpair | hpair
      · obtain ⟨rfl, hresult⟩ := Prod.mk.inj hpair
        exact hhead _ hresult.symm
      · exact hnone lease' revision hpair
    · exact Or.inr ⟨lease', revision, i, e, List.mem_cons_of_mem _ hpair, hrest⟩

theorem Fenced.untouched (h : Fenced r log pg o) (hrow : pg'.snapshots r = pg.snapshots r) :
    Fenced r log pg' o := by
  intro i e hi hat
  rw [Postgres.queuedSequence, hrow]
  exact h i e hi hat

/-- **The transaction of a batch**, with at most one entry of `r`. -/
theorem saveEntries_pgAt {codec : Bincode} (hids : IdsOnce r log) :
    ∀ {leases : List SnapshotBacklogLease} {pg pg' : Postgres}
      {results : List (Except StorageError SnapshotWriteOutcome)}, PgAt r log pg o →
      (leases.map (·.request.record)).Nodup →
      (∀ lease ∈ leases, lease.request.record = r → ∃ i e, LeaseAt codec log r lease i e ∧
        (pg.idempotency lease.request.requestId = none → InOrder pg r (some e.fence) i o)) →
      (saveEntries (leases.map (·.entry))).run pg = .ok results pg' →
      ∃ o', LeasesSaved codec r log pg pg' o o' (leases.zip results) ∧
        (Fenced r log pg o → Fenced r log pg' o')
  | [], pg, pg', results, h, _, _, hrun => by
    cases hrun
    exact ⟨o, ⟨h, Grows.refl o, fun _ _ hpair => by simp at hpair,
      Or.inl ⟨rfl, rfl, fun _ _ hpair => by simp at hpair⟩⟩, id⟩
  | lease :: rest, pg, pg', results, h, hnodup, hleases, hrun => by
    rw [List.map_cons, List.nodup_cons] at hnodup
    obtain ⟨result, results', m, rfl, hstep, hrest⟩ := saveEntries_cons hrun
    by_cases hr : lease.request.record = r
    · -- the entry of `r`: what follows is about other records
      have hothers : ∀ other ∈ rest, other.request.record ≠ r := by
        intro other hother heq
        exact hnodup.1 (List.mem_map.mpr ⟨other, hother, heq.trans hr.symm⟩)
      obtain ⟨i, e, hat, horder⟩ := hleases lease (List.mem_cons_self ..) hr
      have hfence : lease.fenceSequence.getD 0 = e.fence := by
        rw [hat.sequence, QueuedEntry.fence]
      -- a refused entry leaves the table as it was
      have hrejected : ∀ {e : StorageError}, result = .error e → m = pg →
          ∃ o', LeasesSaved codec r log pg pg' o o' ((lease, result) :: rest.zip results') ∧
            (Fenced r log pg o → Fenced r log pg' o') := by
        rintro e rfl rfl
        obtain ⟨hsame, hsaved⟩ := saveEntries_others codec h hothers hrest
        exact ⟨o, hsaved.cons rfl (fun _ hok => by cases hok), fun hf => hf.untouched hsame⟩
      cases hstep with
      | invalid _ => exact hrejected rfl rfl
      | rejected hp hrun => exact hrejected rfl (save_fenced_rejected (prepareSave_ok hp).1 hrun)
      | @saved p outcome _ hp hrun =>
        have hsave := entrySave_fenced hp hrun
        rw [hat.request, hfence] at hsave
        rw [hat.request] at horder
        obtain ⟨o', hm, hgrow, hholds, hnoted⟩ := hsave.pgAt hids h hat.toAt
          (fun n hn => (Option.some.inj hn).symm) horder
        obtain ⟨hsame, hsaved⟩ := saveEntries_others codec hm hothers hrest
        refine ⟨o', ⟨hsaved.pgAt, hgrow, fun lease' outcome' hpair j e' hat' => ?_, ?_⟩, ?_⟩
        · have hr' : lease'.request.record = r := by rw [hat'.request, hat'.record]
          rcases List.mem_cons.mp hpair with hpair | hpair
          · obtain ⟨rfl, -⟩ := Prod.mk.inj hpair
            have hij : j = i :=
              hids j i e' e hat'.toAt hat.toAt (by rw [← hat'.request, hat.request])
            exact hij ▸ hholds
          · exact absurd hr' (hothers lease' (List.of_mem_zip hpair).1)
        · -- the row is written now, or the save leaves it as it is
          rcases hnoted with ⟨ho', -, revision, rfl⟩ | ⟨ho', hrow, revision, rfl⟩
          · exact Or.inr ⟨lease, revision, i, e, List.mem_cons_self .., hat, ho'⟩
          · refine Or.inl ⟨ho', by rw [hsame, hrow], fun lease' revision' hpair => ?_⟩
            rcases List.mem_cons.mp hpair with hpair | hpair
            · cases hpair
            · exact hothers lease' (List.of_mem_zip hpair).1
        · intro hf
          refine Fenced.untouched (fun j e' hj hat' => ?_) hsame
          rcases hnoted with ⟨rfl, hqueued, -⟩ | ⟨rfl, hrow, -⟩
          · obtain rfl : i = j := Option.some.inj hj
            rw [hqueued, hat'.unique hat.toAt]
            rfl
          · exact hf.untouched (by rw [hrow]) j e' hj hat'
    · -- an entry of another record keeps the row of `r`, and its fence with it
      have hun := hstep.untouched hr
      obtain ⟨o', hsaved, hf⟩ := saveEntries_pgAt hids (h.untouched hun) hnodup.2
        (fun other hother heq => by
          obtain ⟨i, e, hat, horder⟩ := hleases other (List.mem_cons_of_mem _ hother) heq
          have hqueued : m.queuedSequence r = pg.queuedSequence r := by
            rw [Postgres.queuedSequence, hun.snapshot]
            rfl
          refine ⟨i, e, hat, fun hnone => ?_⟩
          obtain ⟨hforward, hreached⟩ := horder (hstep.keepsReceipts hnone)
          rw [Postgres.writes, ← hqueued] at hforward hreached
          exact ⟨hforward, hreached⟩) hrest
      exact ⟨o', hsaved.cons hun.snapshot fun _ _ => hr,
        fun hfenced => hf (hfenced.untouched hun.snapshot)⟩

/-! ### The two paths -/

/-- **`save_backlog_leases`**, for one record. -/
theorem saveBacklogLeases_pgAt {codec : Bincode} {leases : List SnapshotBacklogLease}
    (hids : IdsOnce r log) (h : PgAt r log pg o)
    (hnodup : (leases.map (·.request.record)).Nodup)
    (hleases : ∀ lease ∈ leases, lease.request.record = r → ∃ i e,
      LeaseAt codec log r lease i e ∧
        (pg.idempotency lease.request.requestId = none → InOrder pg r (some e.fence) i o)) :
    (∃ e, saveBacklogLeases leases pg = (.error e, pg)) ∨
      ∃ outcomes pg' o', saveBacklogLeases leases pg = (.ok outcomes, pg') ∧
        LeasesSaved codec r log pg pg' o o' (leases.zip outcomes) ∧
        (Fenced r log pg o → Fenced r log pg' o') := by
  rcases saveBacklogLeases_cases leases pg with
    herror | ⟨sorted, results, outcomes, pg', hsave, hperm, hrun, hzip⟩
  · exact Or.inl herror
  · have hlen : results.length = sorted.length := by simpa using saveEntries_length hrun
    obtain ⟨o', hsaved, hfenced⟩ := saveEntries_pgAt hids h
      ((hperm.map (·.request.record)).nodup_iff.mpr hnodup)
      (fun lease hlease => hleases lease (hperm.mem_iff.mp hlease)) hrun
    refine Or.inr ⟨outcomes, pg', o', hsave, ⟨hsaved.pgAt, hsaved.grows, ?_, ?_⟩, hfenced⟩
    · intro lease outcome hpair
      exact hsaved.reached lease outcome (result_of_zip hlen hzip hpair)
    · rcases hsaved.noted with ⟨ho', hrow, hnone⟩ | ⟨lease, revision, i, e, hpair, hrest⟩
      · exact Or.inl ⟨ho', hrow, fun lease revision hpair =>
          hnone lease revision (result_of_zip hlen hzip hpair)⟩
      · exact Or.inr ⟨lease, revision, i, e, applied_of_zip hlen hzip hpair, hrest⟩

/-- The re-read of a lone save turns no failure into a success. -/
theorem rereadOutcome_ok {row : Option SnapshotRow} {q : SnapshotWrite}
    {result : Except StorageError SnapshotWriteOutcome} {outcome : SnapshotWriteOutcome}
    (h : rereadOutcome row q result = .ok outcome) : result = .ok outcome := by
  cases result with
  | error e => exact h
  | ok outcome' =>
    cases outcome' with
    | applied revision => exact h
    | duplicate revision =>
      rw [rereadOutcome] at h
      split at h
      · exact h
      · cases h

/-- **The save of `process_backlog_once`**, for one record. -/
theorem saveOnce_pgAt (codec : Bincode) (lease : SnapshotBacklogLease) (hids : IdsOnce r log)
    (h : PgAt r log pg o)
    (hlease : lease.request.record = r → ∃ i e, LeaseAt codec log r lease i e ∧
      (pg.idempotency lease.request.requestId = none → InOrder pg r none i o)) :
    ∃ outcomes pg' o', saveOnce lease pg = (.ok outcomes, pg') ∧
      LeasesSaved codec r log pg pg' o o' ([lease].zip outcomes) := by
  set saved := PostgresSnapshotStore.save lease.request pg with hsaved
  set result : Except BackendError SnapshotWriteOutcome :=
    (rereadOutcome (saved.2.snapshots lease.request.record) lease.request saved.1).mapError
      .storage with hresult
  have hsave : saveOnce lease pg = (.ok [result], saved.2) := by
    rw [saveOnce, StorageBackend.save, tieredSave_eq]
  have hok : ∀ {outcome}, result = .ok outcome → saved.1 = .ok outcome := fun houtcome =>
    rereadOutcome_ok (Checks.mapError_eq_ok.mp houtcome)
  -- a save that leaves the row alone
  have hsame : ∀ {pg' : Postgres}, PgAt r log pg' o → pg'.snapshots r = pg.snapshots r →
      (∀ outcome, result = .ok outcome → ∀ i e, LeaseAt codec log r lease i e → Holds o i) →
      (∀ revision, result = .ok (.applied revision) → lease.request.record ≠ r) →
      LeasesSaved codec r log pg pg' o o ([lease].zip [result]) := by
    intro pg' hpg hrow hreached happlied
    refine ⟨hpg, Grows.refl o, fun lease' outcome hpair => ?_,
      Or.inl ⟨rfl, hrow, fun lease' revision hpair => ?_⟩⟩
    · obtain ⟨rfl, hout⟩ := Prod.mk.inj (List.mem_singleton.mp hpair)
      exact hreached outcome hout.symm
    · obtain ⟨rfl, hout⟩ := Prod.mk.inj (List.mem_singleton.mp hpair)
      exact happlied revision hout.symm
  by_cases hr : lease.request.record = r
  · obtain ⟨i, e, hat, horder⟩ := hlease hr
    cases houtcome : saved.1 with
    | error err =>
      have hstate : saved.2 = pg := save_rejected houtcome
      have hnot : ∀ {outcome}, result ≠ .ok outcome := fun hout => by
        rw [hok hout] at houtcome
        cases houtcome
      exact ⟨_, _, o, hsave, hsame (hstate ▸ h) (by rw [hstate]) (fun _ hout => absurd hout hnot)
        fun _ hout => absurd hout hnot⟩
    | ok outcome =>
      have hentry : EntrySave lease.request none pg saved.2 outcome := by
        refine entrySave_ordinary ?_
        rw [← hsaved, ← houtcome]
      rw [hat.request] at hentry horder
      obtain ⟨o', hpg, hgrow, hholds, hnoted⟩ := hentry.pgAt hids h hat.toAt
        (fun n hn => by cases hn) horder
      have hown : ∀ j e', LeaseAt codec log r lease j e' → Holds o' j := by
        intro j e' hat'
        have hij : j = i := hids j i e' e hat'.toAt hat.toAt (by rw [← hat'.request, hat.request])
        exact hij ▸ hholds
      rcases hnoted with ⟨ho', -, revision, rfl⟩ | ⟨rfl, hrow, revision, rfl⟩
      · have hresult' : result = .ok (.applied revision) := by
          rw [hresult, houtcome]
          rfl
        rw [hresult'] at hsave
        refine ⟨_, _, o', hsave, hpg, hgrow, fun lease' outcome hpair => ?_,
          Or.inr ⟨lease, revision, i, e, List.mem_singleton_self _, hat, ho'⟩⟩
        obtain ⟨rfl, -⟩ := Prod.mk.inj (List.mem_singleton.mp hpair)
        exact hown
      · refine ⟨_, _, _, hsave, hsame hpg (by rw [hrow]) (fun _ _ => hown) fun _ hout => ?_⟩
        rw [hok hout] at houtcome
        cases houtcome
  · have hun : Untouched r pg saved.2 := by
      have hstate : saved.2 = (saveBatch [lease.request] pg).2 := by
        rw [hsaved, PostgresSnapshotStore.save]
        cases saveBatch [lease.request] pg with
        | mk results pg' => cases results <;> rfl
      rw [hstate]
      exact saveBatch_untouched pg fun q hq => List.mem_singleton.mp hq ▸ hr
    refine ⟨_, _, o, hsave, hsame (h.untouched hun) hun.snapshot (fun _ _ i e hat => ?_)
      fun _ _ => hr⟩
    exact absurd (by rw [hat.request, hat.record]) hr

end Record

end DbProxy
