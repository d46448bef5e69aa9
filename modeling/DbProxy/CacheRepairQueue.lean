/-
The durable queue of cache repairs (`PostgresCacheRepairQueue`) and the hints that
clear it early (`CacheRepairAcknowledgements`).

`CacheRepairs` is the table `dbproxy_cache_repairs` with the sequence of its lease
tokens.  A statement reads the clock as often as it evaluates `clock_timestamp()`
or `statement_timestamp()`, so its functions take that many readings; times are in
microseconds.  Rows that other transactions have locked are a parameter of the
statements that skip them.

* `QueueStep` — what every statement of the queue respects: targets of kept rows do
  not fall, tokens come from the sequence;
* `acknowledgeCached_ok`, `acknowledge_ok`, … — one lemma for each operation, with
  the rows it removes;
* `acknowledge_not_held`, `fail_not_held` — a lease that is not the row's changes
  nothing.
-/
import DbProxy.Checks
import DbProxy.KeyedTable
import DbProxy.PostgresSnapshots
import DbProxy.SortOn

namespace DbProxy

open Text

/-! ### The table -/

structure CacheRepairRow where
  record : RecordKey
  targetRevision : ℕ
  requestedAt : ℕ
  availableAt : ℕ
  attemptCount : ℕ := 0
  leaseOwner : Option String := none
  leaseUntil : Option ℕ := none
  lastError : Option String := none
  deadLetteredAt : Option ℕ := none
  leaseToken : ℕ := 0
deriving DecidableEq, Repr

structure CacheRepairLease where
  record : RecordKey
  targetRevision : Revision
  attemptCount : ℕ
  leaseToken : ℕ
  leaseOwner : String
deriving DecidableEq, Repr

/-- `dbproxy_cache_repairs` and the last value of `dbproxy_cache_repair_lease_seq`. -/
structure CacheRepairs where
  table : KeyedTable CacheRepairRow.record := .empty
  leaseSeq : ℕ := 0

def CacheRepairs.lookup (q : CacheRepairs) (r : RecordKey) : Option CacheRepairRow :=
  q.table.lookup r

/-- `nextval` of a sequence without `CYCLE`. -/
def nextval (last : ℕ) : Except StorageError ℕ :=
  if last + 1 < bigintLimit then .ok (last + 1)
  else .error (.postgres "nextval: reached maximum value of sequence")

def requiredRevisionToI64 (record : RecordKey) (revision : Revision) : Except StorageError ℕ :=
  if revision < bigintLimit then .ok revision else .error (.revisionTooLarge record)

def microseconds (milliseconds : ℕ) : ℕ := milliseconds * 1000

def maxErrorChars : ℕ := 1024

def boundedError (error : String) : String := String.ofList (error.toList.take maxErrorChars)

/-! ### Statements -/

namespace PostgresCacheRepairQueue

/-- `enqueue_sql`. -/
def enqueueSql (now : ℕ) (record : RecordKey) (target : ℕ) (q : CacheRepairs) : CacheRepairs :=
  let row : CacheRepairRow :=
    { record := record, targetRevision := target, requestedAt := now, availableAt := now }
  let raise (row : CacheRepairRow) : CacheRepairRow :=
    { row with targetRevision := max row.targetRevision target }
  { q with table := q.table.upsert row raise fun _ => rfl }

def enqueue (now : ℕ) (record : RecordKey) (target : Revision) (q : CacheRepairs) :
    Except StorageError CacheRepairs := do
  let target ← requiredRevisionToI64 record target
  return enqueueSql now record target q

def acknowledgeCached (record : RecordKey) (cached : Revision) (q : CacheRepairs) :
    Except StorageError (Bool × CacheRepairs) := do
  let cached ← requiredRevisionToI64 record cached
  let covered (row : CacheRepairRow) : Bool := row.record = record && row.targetRevision ≤ cached
  return (q.table.rows.any covered, { q with table := q.table.delete covered })

/-- `acknowledge_cached_revisions`: rows in `locked` belong to other transactions. -/
def acknowledgeCachedRevisions (locked : RecordKey → Bool) (targets : List (RecordKey × Revision))
    (q : CacheRepairs) : Except StorageError (ℕ × CacheRepairs) := do
  let targets ← targets.mapM fun (record, revision) => do
    let revision ← requiredRevisionToI64 record revision
    return (record, revision)
  let covered (row : CacheRepairRow) : Bool := !locked row.record &&
    targets.any fun (record, revision) => record = row.record && row.targetRevision ≤ revision
  return (q.table.rows.countP covered, { q with table := q.table.delete covered })

def validateWorker (workerId : String) (leaseMs : ℕ) : Except StorageError Unit :=
  if blank workerId then .error .invalidQueueWorker
  else if leaseMs = 0 then .error .invalidQueueLease
  else .ok ()

/-- The order of `requested_at, namespace, record_key`. -/
def claimOrder (row : CacheRepairRow) : ℕ ×ₗ RecordKey := toLex (row.requestedAt, row.record)

/-- `ORDER BY … FOR UPDATE SKIP LOCKED LIMIT 1`. -/
def firstUnlocked (locked : RecordKey → Bool) (p : CacheRepairRow → Bool)
    (rows : List CacheRepairRow) : Option CacheRepairRow :=
  (sortOn claimOrder (rows.filter fun row => p row && !locked row.record)).head?

/-- The candidate of `cache_repair_claim.sql`: the earlier of the first row without a lease
and the first row with an expired one. -/
def claimCandidate (locked : RecordKey → Bool) (statement : ℕ) (q : CacheRepairs) :
    Option CacheRepairRow :=
  let unleased := firstUnlocked locked (fun row => row.deadLetteredAt.isNone &&
    row.availableAt ≤ statement && row.leaseUntil.isNone) q.table.rows
  let expired := firstUnlocked locked (fun row => row.deadLetteredAt.isNone &&
    row.leaseUntil.any (· ≤ statement) && row.availableAt ≤ statement) q.table.rows
  (sortOn claimOrder (unleased.toList ++ expired.toList)).head?

def claim (workerId : String) (leaseMs : ℕ) (locked : RecordKey → Bool) (statement clock : ℕ)
    (q : CacheRepairs) : Except StorageError (Option CacheRepairLease × CacheRepairs) := do
  validateWorker workerId leaseMs
  if bigintLimit ≤ leaseMs then throw (.queueProtocol "lease duration is too large")
  else
    match claimCandidate locked statement q with
    | none => return (none, q)
    | some row =>
      let token ← nextval q.leaseSeq
      let table := q.table.update (·.record = row.record) (fun row => { row with
        leaseOwner := some workerId, leaseToken := token,
        leaseUntil := some (clock + microseconds leaseMs) }) fun _ => rfl
      return (some ⟨row.record, row.targetRevision, row.attemptCount, token, workerId⟩,
        ⟨table, token⟩)

/-- The row is under this lease, which has not expired. -/
def heldBy (lease : CacheRepairLease) (now : ℕ) (row : CacheRepairRow) : Bool :=
  row.record = lease.record && row.leaseOwner = some lease.leaseOwner &&
    row.leaseToken = lease.leaseToken && row.leaseUntil.any (now < ·)

/-- `lock_lease`. -/
def lockLease (lease : CacheRepairLease) (now : ℕ) (q : CacheRepairs) : Option ℕ :=
  (q.table.rows.find? (heldBy lease now)).map (·.targetRevision)

/-- The repaired revision covers the row's target; without one, only the lease's own. -/
def covers (target : ℕ) (repaired : Option ℕ) (current : ℕ) : Bool :=
  match repaired with
  | none => current = target
  | some revision => current ≤ revision

/-- `acknowledge`: one reading of the clock locks the row and another one settles it. -/
def acknowledge (lease : CacheRepairLease) (repaired : Option Revision) (locking settling : ℕ)
    (q : CacheRepairs) : Except StorageError (Bool × CacheRepairs) := do
  let target ← requiredRevisionToI64 lease.record lease.targetRevision
  let repaired ← revisionToI64 lease.record repaired
  match lockLease lease locking q with
  | none => return (false, q)
  | some current =>
    let settled := q.table.rows.any (heldBy lease settling)
    if covers target repaired current then
      return (settled, { q with table := q.table.delete (heldBy lease settling) })
    else
      let table := q.table.update (heldBy lease settling)
        (fun row => { row with leaseOwner := none, leaseUntil := none }) fun _ => rfl
      return (settled, { q with table := table })

def fail (lease : CacheRepairLease) (error : String) (retryDelayMs maxAttempts : ℕ)
    (locking settling clock : ℕ) (q : CacheRepairs) :
    Except StorageError (Bool × CacheRepairs) :=
  if maxAttempts = 0 then
    throw (.queueProtocol "maximum attempts must be greater than zero")
  else if bigintLimit ≤ retryDelayMs then throw (.queueProtocol "retry delay is too large")
  else
    match lockLease lease locking q with
    | none => return (false, q)
    | some _ =>
      let table := q.table.update (heldBy lease settling) (fun row => { row with
        attemptCount := row.attemptCount + 1, lastError := some (boundedError error),
        leaseOwner := none, leaseUntil := none,
        availableAt := if maxAttempts ≤ row.attemptCount + 1 then row.availableAt
          else clock + microseconds retryDelayMs,
        deadLetteredAt := if maxAttempts ≤ row.attemptCount + 1 then some clock else none })
        fun _ => rfl
      return (q.table.rows.any (heldBy lease settling), { q with table := table })

def requeueDeadLetter (record : RecordKey) (now : ℕ) (q : CacheRepairs) :
    Except StorageError (Bool × CacheRepairs) :=
  let dead (row : CacheRepairRow) : Bool := row.record = record && row.deadLetteredAt.isSome &&
    row.leaseUntil.all (· ≤ now)
  if q.table.rows.any dead then do
    let token ← nextval q.leaseSeq
    let table := q.table.update dead (fun row => { row with
      attemptCount := 0, leaseToken := token, availableAt := now, leaseOwner := none,
      leaseUntil := none, lastError := none, deadLetteredAt := none }) fun _ => rfl
    return (true, ⟨table, token⟩)
  else return (false, q)

end PostgresCacheRepairQueue

/-! ### Hints -/

namespace CacheRepairAcknowledgements

def capacity : ℕ := 1024

def batchSize : ℕ := 128

/-- The pending hints, at most one for a record. -/
abbrev Hints := List (RecordKey × Revision)

def record (key : RecordKey) (revision : Revision) (pending : Hints) : Hints :=
  if pending.any (·.1 = key) then
    pending.map fun hint => if hint.1 = key then (key, max hint.2 revision) else hint
  else if pending.length < capacity then pending ++ [(key, revision)]
  else pending

/-- `take_batch`, which takes the first keys of a hash map: in any order. -/
def takeBatch (keys : List RecordKey) (pending : Hints) : Option (Hints × Hints) :=
  if keys.length = min batchSize pending.length ∧ keys.Nodup ∧
      ∀ key ∈ keys, pending.any (·.1 = key) then
    some (pending.filter (·.1 ∈ keys), pending.filter (·.1 ∉ keys))
  else none

end CacheRepairAcknowledgements

/-! ### What the statements do to a row -/

open PostgresCacheRepairQueue Checks

/-- The token was drawn from the sequence in between. -/
def DrawnBetween (q q' : CacheRepairs) (token : ℕ) : Prop :=
  q.leaseSeq < token ∧ token ≤ q'.leaseSeq

/-- What every statement of the queue respects.  A row stays with a target that does not
fall and its token, or a new one from the sequence; a new row has no token. -/
structure QueueStep (q q' : CacheRepairs) : Prop where
  seq : q.leaseSeq ≤ q'.leaseSeq
  row : ∀ r row', q'.lookup r = some row' →
    (∃ row, q.lookup r = some row ∧ row.targetRevision ≤ row'.targetRevision ∧
      (row'.leaseToken = row.leaseToken ∨ DrawnBetween q q' row'.leaseToken)) ∨
    q.lookup r = none ∧ (row'.leaseToken = 0 ∨ DrawnBetween q q' row'.leaseToken)

/-- No row is removed. -/
def KeepsRows (q q' : CacheRepairs) : Prop := ∀ r, q'.lookup r = none → q.lookup r = none

section Rows

variable {q q' : CacheRepairs}

theorem QueueStep.refl (q : CacheRepairs) : QueueStep q q :=
  ⟨le_refl _, fun _ row' h => Or.inl ⟨row', h, le_refl _, Or.inl rfl⟩⟩

/-- Statements follow each other, if no row is removed and created again. -/
theorem QueueStep.trans {q q' q'' : CacheRepairs} (h : QueueStep q q') (hkeeps : KeepsRows q q')
    (h' : QueueStep q' q'') : QueueStep q q'' := by
  have hseq := h.seq
  have hseq' := h'.seq
  refine ⟨le_trans hseq hseq', fun r row'' hrow'' => ?_⟩
  unfold DrawnBetween
  rcases h'.row r row'' hrow'' with ⟨row', hrow', hle', htoken'⟩ | ⟨hnone, htoken'⟩
  · rcases h.row r row' hrow' with ⟨row, hrow, hle, htoken⟩ | ⟨hnone, htoken⟩
    · refine Or.inl ⟨row, hrow, le_trans hle hle', ?_⟩
      unfold DrawnBetween at htoken htoken'
      omega
    · refine Or.inr ⟨hnone, ?_⟩
      unfold DrawnBetween at htoken htoken'
      omega
  · refine Or.inr ⟨hkeeps r hnone, ?_⟩
    unfold DrawnBetween at htoken'
    omega

theorem KeepsRows.trans {q q' q'' : CacheRepairs} (h : KeepsRows q q') (h' : KeepsRows q' q'') :
    KeepsRows q q'' := fun r hr => h r (h' r hr)

theorem KeepsRows.refl (q : CacheRepairs) : KeepsRows q q := fun _ h => h

theorem queueStep_delete (p : CacheRepairRow → Bool) :
    QueueStep q { q with table := q.table.delete p } := by
  refine ⟨le_refl _, fun r row' h => Or.inl ⟨row', ?_, le_refl _, Or.inl rfl⟩⟩
  have h' : (q.table.delete p).lookup r = some row' := h
  rw [KeyedTable.lookup_delete, Option.filter_eq_some_iff] at h'
  exact h'.1

theorem removed_delete {p : CacheRepairRow → Bool} {r : RecordKey} {row : CacheRepairRow}
    (h : q.lookup r = some row)
    (hgone : ({ q with table := q.table.delete p } : CacheRepairs).lookup r = none) :
    p row = true := by
  have h' : (q.table.delete p).lookup r = none := hgone
  rw [KeyedTable.lookup_delete, show q.table.lookup r = some row from h] at h'
  by_contra hp
  simp [Option.filter, hp] at h'

/-- An update that sets no target, and a token from the sequence if any. -/
theorem queueStep_update {p : CacheRepairRow → Bool} {f : CacheRepairRow → CacheRepairRow}
    {hf : ∀ row, (f row).record = row.record} {seq : ℕ} (hseq : q.leaseSeq ≤ seq)
    (htarget : ∀ row, (f row).targetRevision = row.targetRevision)
    (htoken : ∀ row, (f row).leaseToken = row.leaseToken ∨
      q.leaseSeq < (f row).leaseToken ∧ (f row).leaseToken ≤ seq) :
    QueueStep q ⟨q.table.update p f hf, seq⟩ := by
  refine ⟨hseq, fun r row' h => Or.inl ?_⟩
  have h' : (q.table.update p f hf).lookup r = some row' := h
  rw [KeyedTable.lookup_update, Option.map_eq_some_iff] at h'
  obtain ⟨row, hrow, rfl⟩ := h'
  refine ⟨row, hrow, ?_⟩
  split
  · exact ⟨(htarget row).ge, htoken row⟩
  · exact ⟨le_refl _, Or.inl rfl⟩

theorem keepsRows_update {p : CacheRepairRow → Bool} {f : CacheRepairRow → CacheRepairRow}
    {hf : ∀ row, (f row).record = row.record} {seq : ℕ} :
    KeepsRows q ⟨q.table.update p f hf, seq⟩ := by
  intro r h
  have h' : (q.table.update p f hf).lookup r = none := h
  rw [KeyedTable.lookup_update, Option.map_eq_none_iff] at h'
  exact h'

theorem nextval_ok {last token : ℕ} (h : nextval last = .ok token) : last + 1 = token := by
  rw [nextval] at h
  split at h
  · exact Except.ok.inj h
  · cases h

theorem requiredRevisionToI64_ok {record : RecordKey} {revision n : ℕ}
    (h : requiredRevisionToI64 record revision = .ok n) : revision = n := by
  rw [requiredRevisionToI64] at h
  split at h
  · exact Except.ok.inj h
  · cases h

theorem enqueueSql_step (now : ℕ) (record : RecordKey) (target : ℕ) (q : CacheRepairs) :
    QueueStep q (enqueueSql now record target q) ∧
      KeepsRows q (enqueueSql now record target q) := by
  have hlookup : ∀ r, (enqueueSql now record target q).lookup r =
      if r = record then some ((q.lookup r).elim
        { record := record, targetRevision := target, requestedAt := now, availableAt := now }
        fun row => { row with targetRevision := max row.targetRevision target })
      else q.lookup r := fun r => KeyedTable.lookup_upsert
  refine ⟨⟨le_refl _, fun r row' h => ?_⟩, fun r h => ?_⟩
  · rw [hlookup] at h
    by_cases hr : r = record
    · rw [if_pos hr, Option.some_inj] at h
      subst h
      cases hrow : q.lookup r with
      | none => exact Or.inr ⟨rfl, Or.inl rfl⟩
      | some row => exact Or.inl ⟨row, rfl, le_max_left _ _, Or.inl rfl⟩
    · rw [if_neg hr] at h
      exact Or.inl ⟨row', h, le_refl _, Or.inl rfl⟩
  · rw [hlookup] at h
    by_cases hr : r = record
    · rw [if_pos hr] at h
      cases h
    · rw [if_neg hr] at h
      exact h

theorem enqueue_ok {now : ℕ} {record : RecordKey} {target : Revision}
    (h : enqueue now record target q = .ok q') : QueueStep q q' ∧ KeepsRows q q' := by
  obtain ⟨n, -, h⟩ := bind_eq_ok.mp h
  obtain rfl := Except.ok.inj h
  exact enqueueSql_step now record n q

/-- A direct hint removes its own row, if that asks for no later revision. -/
theorem acknowledgeCached_ok {record : RecordKey} {cached : Revision} {removed : Bool}
    (h : acknowledgeCached record cached q = .ok (removed, q')) :
    QueueStep q q' ∧ ∀ r row, q.lookup r = some row → q'.lookup r = none →
      r = record ∧ row.targetRevision ≤ cached := by
  obtain ⟨n, hn, h⟩ := bind_eq_ok.mp h
  obtain rfl := requiredRevisionToI64_ok hn
  obtain ⟨-, rfl⟩ := Prod.mk.inj (Except.ok.inj h)
  refine ⟨queueStep_delete _, fun r row hrow hgone => ?_⟩
  have hcovered := removed_delete hrow hgone
  rw [Bool.and_eq_true, decide_eq_true_iff, decide_eq_true_iff] at hcovered
  exact ⟨(KeyedTable.key_of_lookup hrow).symm.trans hcovered.1, hcovered.2⟩

/-- So does a batch of hints. -/
theorem acknowledgeCachedRevisions_ok {locked : RecordKey → Bool}
    {targets : List (RecordKey × Revision)} {removed : ℕ}
    (h : acknowledgeCachedRevisions locked targets q = .ok (removed, q')) :
    QueueStep q q' ∧ ∀ r row, q.lookup r = some row → q'.lookup r = none →
      ∃ n, (r, n) ∈ targets ∧ row.targetRevision ≤ n := by
  obtain ⟨checked, hchecked, h⟩ := bind_eq_ok.mp h
  obtain ⟨-, rfl⟩ := Prod.mk.inj (Except.ok.inj h)
  refine ⟨queueStep_delete _, fun r row hrow hgone => ?_⟩
  have hcovered := removed_delete hrow hgone
  rw [Bool.and_eq_true, List.any_eq_true] at hcovered
  obtain ⟨-, ⟨record, n⟩, hmem, hn⟩ := hcovered
  rw [Bool.and_eq_true, decide_eq_true_iff, decide_eq_true_iff] at hn
  -- the checked targets are the targets
  obtain ⟨⟨record', n'⟩, hmem', hcheck⟩ := exists_of_forall₂_right (mapM_eq_ok.mp hchecked) hmem
  obtain ⟨m, hm, hcheck⟩ := bind_eq_ok.mp hcheck
  obtain ⟨rfl, rfl⟩ := Prod.mk.inj (Except.ok.inj hcheck)
  obtain rfl := requiredRevisionToI64_ok hm
  have hr : r = record' := (KeyedTable.key_of_lookup hrow).symm.trans hn.1.symm
  exact ⟨n', hr ▸ hmem', hn.2⟩

theorem claim_ok {workerId : String} {leaseMs : ℕ} {locked : RecordKey → Bool}
    {statement clock : ℕ} {lease : Option CacheRepairLease}
    (h : claim workerId leaseMs locked statement clock q = .ok (lease, q')) :
    QueueStep q q' ∧ KeepsRows q q' ∧
      ∀ l, lease = some l → q.leaseSeq < l.leaseToken ∧ l.leaseToken ≤ q'.leaseSeq := by
  obtain ⟨-, -, h⟩ := bind_eq_ok.mp h
  split at h
  · cases h
  cases hcandidate : claimCandidate locked statement q with
  | none =>
    rw [hcandidate] at h
    obtain ⟨rfl, rfl⟩ := Prod.mk.inj (Except.ok.inj h)
    exact ⟨QueueStep.refl q, KeepsRows.refl q, by simp⟩
  | some row =>
    rw [hcandidate] at h
    obtain ⟨token, htoken, h⟩ := bind_eq_ok.mp h
    obtain rfl := nextval_ok htoken
    obtain ⟨rfl, rfl⟩ := Prod.mk.inj (Except.ok.inj h)
    refine ⟨queueStep_update (Nat.le_succ _) (fun _ => rfl) fun _ => Or.inr ⟨?_, le_refl _⟩,
      keepsRows_update, ?_⟩
    · exact Nat.lt_succ_self _
    · rintro l hl
      obtain rfl := Option.some.inj hl
      exact ⟨Nat.lt_succ_self _, le_refl _⟩

theorem heldBy_iff {lease : CacheRepairLease} {now : ℕ} {row : CacheRepairRow} :
    heldBy lease now row = true ↔ row.record = lease.record ∧
      row.leaseOwner = some lease.leaseOwner ∧ row.leaseToken = lease.leaseToken ∧
      ∃ until_, row.leaseUntil = some until_ ∧ now < until_ := by
  rw [heldBy, Bool.and_eq_true, Bool.and_eq_true, Bool.and_eq_true, decide_eq_true_iff,
    decide_eq_true_iff, decide_eq_true_iff, Option.any_eq_true]
  simp only [decide_eq_true_iff, and_assoc]

theorem lockLease_eq_some {lease : CacheRepairLease} {now current : ℕ}
    (h : lockLease lease now q = some current) :
    ∃ row, q.lookup lease.record = some row ∧ heldBy lease now row = true ∧
      row.targetRevision = current := by
  obtain ⟨row, hfind, hcurrent⟩ := Option.map_eq_some_iff.mp h
  have hheld : heldBy lease now row = true := by simpa using List.find?_some hfind
  refine ⟨row, ?_, hheld, hcurrent⟩
  exact KeyedTable.lookup_eq_some.mpr ⟨List.mem_of_find?_eq_some hfind, (heldBy_iff.mp hheld).1⟩

/-- A lease whose token is not the row's finds nothing to settle. -/
theorem lockLease_not_current {lease : CacheRepairLease} {now : ℕ}
    (h : ∀ row, q.lookup lease.record = some row → row.leaseToken ≠ lease.leaseToken) :
    lockLease lease now q = none := by
  cases hlock : lockLease lease now q with
  | none => rfl
  | some current =>
    obtain ⟨row, hrow, hheld, -⟩ := lockLease_eq_some hlock
    exact absurd (heldBy_iff.mp hheld).2.2.1 (h row hrow)

theorem revisionToI64_ok {record : RecordKey} {revision : Option Revision} {n : Option ℕ}
    (h : revisionToI64 record revision = .ok n) : revision = n := by
  cases revision with
  | none => exact Except.ok.inj h
  | some r =>
    rw [revisionToI64] at h
    split at h
    · exact Except.ok.inj h
    · cases h

/-- `acknowledge` of a lease that is not current. -/
theorem acknowledge_not_current {lease : CacheRepairLease} {repaired : Option Revision}
    {locking settling : ℕ} {settled : Bool}
    (hnot : ∀ row, q.lookup lease.record = some row → row.leaseToken ≠ lease.leaseToken)
    (h : acknowledge lease repaired locking settling q = .ok (settled, q')) :
    settled = false ∧ q' = q := by
  obtain ⟨_, -, h⟩ := bind_eq_ok.mp h
  obtain ⟨_, -, h⟩ := bind_eq_ok.mp h
  rw [lockLease_not_current hnot] at h
  obtain ⟨rfl, rfl⟩ := Prod.mk.inj (Except.ok.inj h)
  exact ⟨rfl, rfl⟩

/-- A lease removes its row if the repair covered the target that the row has now. -/
theorem acknowledge_ok {lease : CacheRepairLease} {repaired : Option Revision}
    {locking settling : ℕ} {settled : Bool}
    (h : acknowledge lease repaired locking settling q = .ok (settled, q')) :
    QueueStep q q' ∧ ∀ r row, q.lookup r = some row → q'.lookup r = none →
      r = lease.record ∧ row.leaseToken = lease.leaseToken ∧
        (repaired = none ∧ row.targetRevision = lease.targetRevision ∨
          ∃ n, repaired = some n ∧ row.targetRevision ≤ n) := by
  obtain ⟨target, htarget, h⟩ := bind_eq_ok.mp h
  obtain rfl := requiredRevisionToI64_ok htarget
  obtain ⟨repaired', hrepaired, h⟩ := bind_eq_ok.mp h
  obtain rfl := revisionToI64_ok hrepaired
  cases hlock : lockLease lease locking q with
  | none =>
    rw [hlock] at h
    obtain ⟨-, rfl⟩ := Prod.mk.inj (Except.ok.inj h)
    refine ⟨QueueStep.refl _, fun r row hrow hgone => ?_⟩
    rw [hrow] at hgone
    cases hgone
  | some current =>
    rw [hlock] at h
    obtain ⟨locked, hlocked, -, hcurrent⟩ := lockLease_eq_some hlock
    dsimp only at h
    split at h
    · rename_i hcovered
      obtain ⟨-, rfl⟩ := Prod.mk.inj (Except.ok.inj h)
      refine ⟨queueStep_delete _, fun r row hrow hgone => ?_⟩
      obtain ⟨hrecord, -, htoken, -⟩ := heldBy_iff.mp (removed_delete hrow hgone)
      have hr : r = lease.record := (KeyedTable.key_of_lookup hrow).symm.trans hrecord
      -- the row that is removed is the row that was locked
      obtain rfl : locked = row := by
        rw [← hr, hrow] at hlocked
        exact (Option.some.inj hlocked).symm
      refine ⟨hr, htoken, ?_⟩
      cases repaired with
      | none =>
        left
        exact ⟨rfl, hcurrent.trans (decide_eq_true_iff.mp hcovered)⟩
      | some n =>
        right
        exact ⟨n, rfl, hcurrent.le.trans (decide_eq_true_iff.mp hcovered)⟩
    · obtain ⟨-, rfl⟩ := Prod.mk.inj (Except.ok.inj h)
      refine ⟨queueStep_update (le_refl _) (fun _ => rfl) fun _ => Or.inl rfl,
        fun r row hrow hgone => ?_⟩
      rw [keepsRows_update r hgone] at hrow
      cases hrow

/-- `fail` of a lease that is not current. -/
theorem fail_not_current {lease : CacheRepairLease} {error : String}
    {retryDelayMs maxAttempts locking settling clock : ℕ} {settled : Bool}
    (hnot : ∀ row, q.lookup lease.record = some row → row.leaseToken ≠ lease.leaseToken)
    (h : fail lease error retryDelayMs maxAttempts locking settling clock q =
      .ok (settled, q')) : settled = false ∧ q' = q := by
  rw [fail] at h
  split at h
  · cases h
  split at h
  · cases h
  rw [lockLease_not_current hnot] at h
  obtain ⟨rfl, rfl⟩ := Prod.mk.inj (Except.ok.inj h)
  exact ⟨rfl, rfl⟩

theorem fail_ok {lease : CacheRepairLease} {error : String}
    {retryDelayMs maxAttempts locking settling clock : ℕ} {settled : Bool}
    (h : fail lease error retryDelayMs maxAttempts locking settling clock q =
      .ok (settled, q')) : QueueStep q q' ∧ KeepsRows q q' := by
  rw [fail] at h
  split at h
  · cases h
  split at h
  · cases h
  cases hlock : lockLease lease locking q with
  | none =>
    rw [hlock] at h
    obtain ⟨-, rfl⟩ := Prod.mk.inj (Except.ok.inj h)
    exact ⟨QueueStep.refl _, KeepsRows.refl _⟩
  | some current =>
    rw [hlock] at h
    obtain ⟨-, rfl⟩ := Prod.mk.inj (Except.ok.inj h)
    exact ⟨queueStep_update (le_refl _) (fun _ => rfl) fun _ => Or.inl rfl, keepsRows_update⟩

theorem requeueDeadLetter_ok {record : RecordKey} {now : ℕ} {requeued : Bool}
    (h : requeueDeadLetter record now q = .ok (requeued, q')) :
    QueueStep q q' ∧ KeepsRows q q' := by
  rw [requeueDeadLetter] at h
  split at h
  · obtain ⟨token, htoken, h⟩ := bind_eq_ok.mp h
    obtain rfl := nextval_ok htoken
    obtain ⟨-, rfl⟩ := Prod.mk.inj (Except.ok.inj h)
    exact ⟨queueStep_update (Nat.le_succ _) (fun _ => rfl) fun _ =>
      Or.inr ⟨Nat.lt_succ_self _, le_refl _⟩, keepsRows_update⟩
  · obtain ⟨-, rfl⟩ := Prod.mk.inj (Except.ok.inj h)
    exact ⟨QueueStep.refl _, KeepsRows.refl _⟩

end Rows

/-! ### What the hints hold -/

open CacheRepairAcknowledgements in
/-- A hint is one of the revisions that were recorded for its key. -/
theorem mem_record {key : RecordKey} {revision : Revision} {pending : Hints}
    {hint : RecordKey × Revision} (h : hint ∈ record key revision pending) :
    hint ∈ pending ∨ hint = (key, revision) := by
  rw [record] at h
  split at h
  · obtain ⟨old, hold, rfl⟩ := List.mem_map.mp h
    split
    · rename_i hkey
      -- the greater of two recorded revisions
      rcases le_total old.2 revision with hle | hle
      · exact Or.inr (by rw [max_eq_right hle])
      · refine Or.inl ?_
        rw [max_eq_left hle, ← hkey]
        exact hold
    · exact Or.inl hold
  split at h
  · rcases List.mem_append.mp h with h | h
    · exact Or.inl h
    · exact Or.inr (List.mem_singleton.mp h)
  · exact Or.inl h

open CacheRepairAcknowledgements in
theorem takeBatch_subset {keys : List RecordKey} {pending taken rest : Hints}
    (h : takeBatch keys pending = some (taken, rest)) : taken ⊆ pending ∧ rest ⊆ pending := by
  rw [takeBatch, Option.ite_none_right_eq_some, Option.some_inj] at h
  obtain ⟨rfl, rfl⟩ := Prod.mk.inj h.2
  exact ⟨List.filter_subset_self _, List.filter_subset_self _⟩

end DbProxy
