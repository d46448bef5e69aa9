/-
Write-behind: the backlog and PostgreSQL together.

`WriteBehind` joins the backlog system with the tables.  Workers claim, flush
and acknowledge at any time: a flush may repeat, may be that of a stale claim,
may be rolled back, or may commit without its worker learning it.  A worker
acknowledges only what it saw committed (`flushed`).  Receipts may be cleaned up
at any time, and other records may be written directly.

This module follows one record in PostgreSQL:

* `Advances` — its row stays, or a larger sequence replaces it;
* `PgInv` — the row is the value of a logged enqueue with that sequence, and a
  receipt is one that the row's sequence has reached;
* `saveEntries_inv` — a batch keeps `PgInv` and only advances the row.
-/
import DbProxy.BacklogFlush
import DbProxy.BacklogInvariant

namespace DbProxy

open RedisSnapshotBacklog StepMachine

/-! ### The system -/

structure WriteBehind where
  backlog : BacklogSystem := {}
  pg : Postgres := {}
  flushed : List ClaimedEntry := []

/-- How a flush ends for its worker. -/
inductive FlushEnding
  | delivered
  | lost
  | rolledBack

inductive WriteBehindEvent
  | backlog (e : BacklogEvent)
  | flush (claimed : List ClaimedEntry) (ending : FlushEnding)
  | direct (requests : List SnapshotWrite)
  | cleanup (expired : List String)

/-- The requests that an event enqueues. -/
def WriteBehindEvent.enqueued : WriteBehindEvent → List SnapshotWrite
  | .backlog (.enqueue _ _ requests) => requests
  | _ => []

/-- The requests that an event writes without the backlog. -/
def WriteBehindEvent.directWrites : WriteBehindEvent → List SnapshotWrite
  | .direct requests => requests
  | _ => []

def Postgres.cleanup (pg : Postgres) (expired : List String) : Postgres :=
  { pg with idempotency := fun id => if id ∈ expired then none else pg.idempotency id }

namespace WriteBehind

/-- The end of a flush whose transaction was committed. -/
def finishFlush (s : WriteBehind) (leases : List SnapshotBacklogLease) :
    FlushEnding → WriteBehind
  | .rolledBack => s
  | .lost => { s with pg := (saveBacklogLeases leases s.pg).2 }
  | .delivered =>
    match saveBacklogLeases leases s.pg with
    | (.error _, pg) => { s with pg }
    | (.ok outcomes, pg) => { s with
        pg
        flushed := s.flushed ++ (committedLeases leases outcomes).map (·.toClaimedEntry) }

def step (codec : Bincode) (s : WriteBehind) : WriteBehindEvent → Option WriteBehind
  | .backlog e =>
    if e.acknowledged.all (· ∈ s.flushed) then
      (s.backlog.step codec.encode e).map fun backlog => { s with backlog }
    else none
  | .flush claimed ending =>
    if claimed.all s.backlog.wasIssued then
      match claimed.mapM (decodeLease codec) with
      | .error _ => none
      | .ok leases => some (s.finishFlush leases ending)
    else none
  | .direct requests => some { s with pg := (saveBatch requests s.pg).2 }
  | .cleanup expired => some { s with pg := s.pg.cleanup expired }

end WriteBehind

/-! ### The log and the requests -/

/-- The log entry of a request. -/
def LogsRequest (codec : Bincode) (e : LoggedEntry) (q : SnapshotWrite) : Prop :=
  e.member = member q.record ∧ e.encoded = codec.encode q

theorem logEntries_logs {codec : Bincode} {now : ℕ} :
    ∀ {requests : List SnapshotWrite} {entries : List EnqueueEntry} {sequence : ℕ},
      List.Forall₂ (fun q entry => prepare codec.encode q = .ok entry) requests entries →
      List.Forall₂ (LogsRequest codec) (logEntries now sequence entries) requests
  | [], _, _, h => by
    rw [List.forall₂_nil_left_iff] at h
    rw [h]
    exact .nil
  | q :: requests, _, sequence, h => by
    obtain ⟨entry, entries, hentry, hrest, rfl⟩ := List.forall₂_cons_left_iff.mp h
    rw [logEntries]
    refine .cons ?_ (logEntries_logs hrest)
    rw [(prepare_ok hentry).2]
    exact ⟨rfl, rfl⟩

theorem getLast_forall₂ {α β : Type*} {R : α → β → Prop} {l : List α} {u : List β}
    (h : List.Forall₂ R l u) {b : β} (hb : u.getLast? = some b) :
    ∃ a, l.getLast? = some a ∧ R a b := by
  induction h with
  | nil => cases hb
  | @cons a b' l u hab hrest ih =>
    cases hrest with
    | nil =>
      rw [List.getLast?_singleton, Option.some_inj] at hb
      exact ⟨a, rfl, hb ▸ hab⟩
    | cons h' hrest' =>
      rw [List.getLast?_cons_cons] at hb ⊢
      exact ih hb

/-! ### One record in PostgreSQL -/

/-- The stored queued sequence of a record. -/
def Postgres.queuedSequence (pg : Postgres) (r : RecordKey) : Option ℕ :=
  (pg.snapshots r).bind (·.queuedSequence)

/-- The row of `r` has a sequence of at least `n`. -/
def Reached (r : RecordKey) (pg : Postgres) (n : ℕ) : Prop :=
  ∃ k, pg.queuedSequence r = some k ∧ n ≤ k

/-- The row of `r` stays, or a larger sequence replaces it. -/
def Advances (r : RecordKey) (pg pg' : Postgres) : Prop :=
  pg'.snapshots r = pg.snapshots r ∨
    ∃ n', pg'.queuedSequence r = some n' ∧ ∀ n, pg.queuedSequence r = some n → n < n'

theorem Advances.refl (r : RecordKey) (pg : Postgres) : Advances r pg pg := Or.inl rfl

theorem Advances.trans {r : RecordKey} {a b c : Postgres} (h : Advances r a b)
    (h' : Advances r b c) : Advances r a c := by
  rcases h' with heq' | ⟨n', hn', hlt'⟩
  · rcases h with heq | ⟨n, hn, hlt⟩
    · exact Or.inl (heq'.trans heq)
    · refine Or.inr ⟨n, ?_, hlt⟩
      rw [Postgres.queuedSequence, heq']
      exact hn
  · rcases h with heq | ⟨n, hn, hlt⟩
    · refine Or.inr ⟨n', hn', fun k hk => hlt' k ?_⟩
      rw [Postgres.queuedSequence, heq]
      exact hk
    · refine Or.inr ⟨n', hn', fun k hk => ?_⟩
      have hkn := hlt k hk
      have hnn := hlt' n hn
      omega

theorem Reached.advance {r : RecordKey} {pg pg' : Postgres} {n : ℕ} (h : Reached r pg n)
    (hadv : Advances r pg pg') : Reached r pg' n := by
  obtain ⟨k, hk, hle⟩ := h
  rcases hadv with heq | ⟨n', hn', hlt⟩
  · refine ⟨k, ?_, hle⟩
    rw [Postgres.queuedSequence, heq]
    exact hk
  · have hkn := hlt k hk
    exact ⟨n', hn', by omega⟩

section Record

variable {codec : Bincode} {r : RecordKey} {log : List LoggedEntry}

/-- `e` is the log entry of the request `q` for `r`, which the codec reads back. -/
structure Logged (codec : Bincode) (r : RecordKey) (e : LoggedEntry) (q : SnapshotWrite) :
    Prop where
  logs : LogsRequest codec e q
  record : q.record = r
  roundTrips : codec.RoundTrips q

theorem Logged.member {e : LoggedEntry} {q : SnapshotWrite} (h : Logged codec r e q) :
    e.member = member r := by
  rw [h.logs.1, h.record]

/-- Request ids are used once for `r`. -/
def DistinctIds (codec : Bincode) (r : RecordKey) (log : List LoggedEntry) : Prop :=
  ∀ e ∈ log, ∀ e' ∈ log, ∀ q q', Logged codec r e q → Logged codec r e' q' →
    q.requestId = q'.requestId → e = e'

structure PgInv (codec : Bincode) (r : RecordKey) (log : List LoggedEntry) (pg : Postgres) :
    Prop where
  /-- the row holds a logged request under its sequence -/
  row : ∀ row, pg.snapshots r = some row → ∃ e ∈ log, ∃ q, Logged codec r e q ∧
    row = rowOf q q.updatedAtUnixMs row.revision (some e.sequence)
  /-- a receipt is that of a logged request whose sequence the row has reached -/
  receipt : ∀ id receipt, pg.idempotency id = some receipt → receipt.record = r →
    ∃ e ∈ log, ∃ q, Logged codec r e q ∧ q.requestId = id ∧ Reached r pg e.sequence

theorem PgInv.untouched {pg pg' : Postgres} (h : PgInv codec r log pg)
    (hun : Untouched r pg pg') : PgInv codec r log pg' := by
  have hreached : ∀ {n}, Reached r pg n → Reached r pg' n :=
    fun hn => hn.advance (Or.inl hun.snapshot)
  refine ⟨fun row hrow => h.row row (hun.snapshot ▸ hrow), fun id receipt hid hr => ?_⟩
  obtain ⟨receipt', hid', hr'⟩ := hun.receipts id receipt hid hr
  obtain ⟨e, he, q, hq, hqid, hn⟩ := h.receipt id receipt' hid' hr'
  exact ⟨e, he, q, hq, hqid, hreached hn⟩

theorem PgInv.mono {log' : List LoggedEntry} {pg : Postgres} (h : PgInv codec r log pg)
    (hsub : ∀ e ∈ log, e ∈ log') : PgInv codec r log' pg := by
  refine ⟨fun row hrow => ?_, fun id receipt hid hr => ?_⟩
  · obtain ⟨e, he, hrest⟩ := h.row row hrow
    exact ⟨e, hsub e he, hrest⟩
  · obtain ⟨e, he, hrest⟩ := h.receipt id receipt hid hr
    exact ⟨e, hsub e he, hrest⟩

/-- A new receipt of `r` under a request id. -/
theorem PgInv.claim {pg pg' : Postgres} {e : LoggedEntry} {q : SnapshotWrite}
    {receipt : IdempotencyRow} (h : PgInv codec r log pg) (he : e ∈ log) (hq : Logged codec r e q)
    (hreceipts : pg'.idempotency = Function.update pg.idempotency q.requestId (some receipt))
    (hadv : Advances r pg pg') (hreached : Reached r pg' e.sequence)
    (hrow : ∀ row, pg'.snapshots r = some row → ∃ e ∈ log, ∃ q, Logged codec r e q ∧
      row = rowOf q q.updatedAtUnixMs row.revision (some e.sequence)) :
    PgInv codec r log pg' := by
  refine ⟨hrow, fun id receipt' hid hr => ?_⟩
  rw [hreceipts] at hid
  by_cases heq : id = q.requestId
  · exact ⟨e, he, q, hq, heq.symm, hreached⟩
  · rw [Function.update_of_ne heq] at hid
    obtain ⟨e', he', q', hq', hqid', hn⟩ := h.receipt id receipt' hid hr
    exact ⟨e', he', q', hq', hqid', hn.advance hadv⟩

/-- **One fenced entry of `r`.** -/
theorem FencedSave.inv {pg pg' : Postgres} {e : LoggedEntry} {q : SnapshotWrite}
    (hids : DistinctIds codec r log) (h : PgInv codec r log pg) (he : e ∈ log)
    (hq : Logged codec r e q) (hsave : FencedSave q q.updatedAtUnixMs e.sequence pg pg') :
    PgInv codec r log pg' ∧ Advances r pg pg' ∧ Reached r pg' e.sequence := by
  have hrecord := hq.record
  cases hsave with
  | replay receipt hreceipt hr hsnapshots hreceipts =>
    have hsame : pg'.snapshots r = pg.snapshots r := by rw [hsnapshots]
    have hinv : PgInv codec r log pg' := h.untouched
      ⟨hsame, fun id rec hid hr => ⟨rec, hreceipts ▸ hid, hr⟩⟩
    -- the receipt belongs to the request itself, because its id is used once
    obtain ⟨e', he', q', hq', hid, hn⟩ := h.receipt q.requestId receipt hreceipt (hr.trans hrecord)
    have heq : e' = e := hids e' he' e he q' q hq' hq hid
    exact ⟨hinv, Or.inl hsame, (heq ▸ hn).advance (Or.inl hsame)⟩
  | written receipt revision hfree hr hreceipts hsmaller hsnapshots =>
    rw [hrecord] at hsmaller hsnapshots
    have hnew : pg'.snapshots r = some (rowOf q q.updatedAtUnixMs revision (some e.sequence)) := by
      rw [hsnapshots, Function.update_self]
    have hqueued : pg'.queuedSequence r = some e.sequence := by
      rw [Postgres.queuedSequence, hnew]
      rfl
    have hadv : Advances r pg pg' := by
      refine Or.inr ⟨e.sequence, hqueued, fun n hn => ?_⟩
      obtain ⟨row, hrow, hn⟩ := Option.bind_eq_some_iff.mp hn
      have := hsmaller row hrow
      rw [hn] at this
      simpa using this
    refine ⟨h.claim he hq hreceipts hadv ⟨_, hqueued, le_refl _⟩ fun row hrow => ?_, hadv,
      ⟨_, hqueued, le_refl _⟩⟩
    rw [hnew, Option.some_inj] at hrow
    refine ⟨e, he, q, hq, ?_⟩
    rw [← hrow]
    rfl
  | late receipt row n hfree hr hreceipts hrow hqueued hlate hsnapshots =>
    have hsame : pg'.snapshots r = pg.snapshots r := by rw [hsnapshots]
    have hadv : Advances r pg pg' := Or.inl hsame
    rw [hrecord] at hrow
    have hreached : Reached r pg' e.sequence := by
      refine ⟨n, ?_, hlate⟩
      rw [Postgres.queuedSequence, hsame, hrow]
      exact hqueued
    exact ⟨h.claim he hq hreceipts hadv hreached fun row' hrow' => h.row row' (hsame ▸ hrow'),
      hadv, hreached⟩

/-- An entry of a flush: a request under a sequence, logged if it is one of `r`. -/
def FlushEntry (codec : Bincode) (r : RecordKey) (log : List LoggedEntry)
    (x : SnapshotWrite × Option ℕ) : Prop :=
  ∃ n, x.2 = some n ∧ (x.1.record = r → ∃ e ∈ log, Logged codec r e x.1 ∧ e.sequence = n)

theorem EntryStep.inv {pg pg' : Postgres} {x : SnapshotWrite × Option ℕ}
    {result : Except StorageError SnapshotWriteOutcome} (hids : DistinctIds codec r log)
    (h : PgInv codec r log pg) (hx : FlushEntry codec r log x)
    (hstep : EntryStep x.1 x.2 pg result pg') :
    PgInv codec r log pg' ∧ Advances r pg pg' ∧
      ∀ outcome n, result = .ok outcome → x.2 = some n → x.1.record = r → Reached r pg' n := by
  obtain ⟨n, hn, hlogged⟩ := hx
  cases hstep with
  | invalid hprepare => exact ⟨h, Advances.refl r pg, fun _ _ hok => by cases hok⟩
  | rejected hp hrun =>
    rw [save_fenced_rejected ((prepareSave_ok hp).1.trans hn) hrun]
    exact ⟨h, Advances.refl r pg, fun _ _ hok => by cases hok⟩
  | saved hp hrun =>
    by_cases hr : x.1.record = r
    · obtain ⟨e, he, hq, rfl⟩ := hlogged hr
      have hsave := save_fenced_ok ((prepareSave_ok hp).1.trans hn) hrun
      rw [(prepareSave_ok hp).2] at hsave
      obtain ⟨hinv, hadv, hreached⟩ := hsave.inv hids h he hq
      refine ⟨hinv, hadv, fun _ n' _ hn' _ => ?_⟩
      rw [hn, Option.some_inj] at hn'
      exact hn' ▸ hreached
    · have hun := (saveSnapshotInTransaction_keeps hr).of_ok hrun
      exact ⟨h.untouched hun, Or.inl hun.snapshot, fun _ _ _ _ hr' => absurd hr' hr⟩

/-- **A batch of fenced entries**: the row only advances, and reaches the sequence of every
entry with a result. -/
theorem saveEntries_inv (hids : DistinctIds codec r log) :
    ∀ {entries : List (SnapshotWrite × Option ℕ)} {pg pg' : Postgres}
      {results : List (Except StorageError SnapshotWriteOutcome)},
      PgInv codec r log pg → (∀ x ∈ entries, FlushEntry codec r log x) →
      (saveEntries entries).run pg = .ok results pg' →
      PgInv codec r log pg' ∧ Advances r pg pg' ∧
        ∀ x outcome n, (x, .ok outcome) ∈ entries.zip results → x.2 = some n → x.1.record = r →
          Reached r pg' n
  | [], pg, pg', results, h, _, hrun => by
    cases hrun
    exact ⟨h, Advances.refl r pg, fun _ _ _ hmem => by simp at hmem⟩
  | x :: rest, pg, pg', results, h, hentries, hrun => by
    obtain ⟨result, results', m, rfl, hstep, hrest⟩ := saveEntries_cons hrun
    obtain ⟨hinv, hadv, hhead⟩ := hstep.inv hids h (hentries x (List.mem_cons_self ..))
    obtain ⟨hinv', hadv', htail⟩ := saveEntries_inv hids hinv
      (fun y hy => hentries y (List.mem_cons_of_mem _ hy)) hrest
    refine ⟨hinv', hadv.trans hadv', fun y outcome n hmem hn hr => ?_⟩
    rcases List.mem_cons.mp hmem with hmem | hmem
    · obtain ⟨rfl, rfl⟩ := Prod.mk.inj hmem
      exact (hhead outcome n rfl hn hr).advance hadv'
    · exact htail y outcome n hmem hn hr

end Record

end DbProxy
