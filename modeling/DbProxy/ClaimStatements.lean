/-
`claim_operation`, statement by statement, beside retirement and purge.

`apply`, `commit_records` and `apply_trade` claim their operation id with two
statements: an insert that does nothing where the id is claimed already, and a
`FOR SHARE` read of the claim.  Here every SQL statement is one atomic step.  A
transaction sees its own claim before it commits; an insert waits for an
uncommitted one of the same id; a maintenance statement skips what is locked and
leaves out every operation with effects.  After `claim_operation` the caller commits
or is rolled back, which may also happen at any time before.

* `claim_answers` — `claim_operation` accepts, or answers that the id belongs to
  another kind or has expired, in every run whose purges keep out of the window
  between its two statements;
* `purge_inside_window` — a run in which one does not.
-/
import DbProxy.OperationClaims
import DbProxy.StepMachine

namespace DbProxy

open StepMachine

/-- Where a transaction stands in `claim_operation`. -/
inductive ClaimPhase
  | absent
  | opened
  /-- the claim was inserted, or one was in the way -/
  | inserted
  /-- the claim was read and is locked -/
  | locked (outcome : Except StorageError Unit)
  /-- the read found no claim -/
  | missed
  | ended
deriving DecidableEq

/-- `own` is the claim that the transaction inserted and has not committed. -/
structure ClaimTransaction where
  operationId : String := ""
  kind : OperationKind := .single
  own : Option ClaimRow := none
  phase : ClaimPhase := .absent

/-- What a call of `claim_operation` returned. -/
structure ClaimAnswer where
  operationId : String
  outcome : Except StorageError Unit
deriving DecidableEq

structure ClaimTable where
  claims : String → Option ClaimRow := fun _ => none
  transactions : ℕ → ClaimTransaction := fun _ => {}
  count : ℕ := 0
  nextRow : ℕ := 0
  answers : List ClaimAnswer := []

inductive ClaimStatement
  | begin (operationId : String) (kind : OperationKind)
  | insert (transaction now : ℕ)
  | select (transaction : ℕ)
  | commit (transaction : ℕ)
  | rollback (transaction : ℕ)
  | maintain (kind : RetentionKind) (now retention : ℕ) (due : List String)

namespace ClaimTable

/-- Another transaction has inserted the claim and not committed. -/
def claimPending (s : ClaimTable) (i : ℕ) (operationId : String) : Bool :=
  (List.range s.count).any fun j =>
    j ≠ i && (s.transactions j).own.isSome && (s.transactions j).operationId = operationId

/-- A transaction has read the claim `FOR SHARE`. -/
def claimShared (s : ClaimTable) (operationId : String) : Bool :=
  (List.range s.count).any fun j =>
    (s.transactions j).operationId = operationId &&
      match (s.transactions j).phase with
      | .locked _ => true
      | _ => false

/-- A transaction found the claim in the way of its insert and has not read it yet. -/
def windowOpen (s : ClaimTable) (operationId : String) : Bool :=
  (List.range s.count).any fun j =>
    (s.transactions j).phase = .inserted && (s.transactions j).own.isNone &&
      (s.transactions j).operationId = operationId

def setTransaction (s : ClaimTable) (i : ℕ) (transaction : ClaimTransaction) : ClaimTable :=
  { s with transactions := Function.update s.transactions i transaction }

/-- The end of `claim_operation`: the claim that was read. -/
def checkKind (operationId : String) (kind : OperationKind) (c : ClaimRow) :
    Except StorageError Unit :=
  if c.kind ≠ kind then .error (.core (.operationIdConflict operationId))
  else if c.retiredAt.isSome then .error (.core (.operationExpired operationId))
  else .ok ()

/-- The second statement of `claim_operation` and its answer. -/
def select (s : ClaimTable) (i : ℕ) : ClaimTable :=
  let t := s.transactions i
  match t.own.or (s.claims t.operationId) with
  -- `query_one` without a row
  | none => { s.setTransaction i { t with phase := .missed } with
      answers := s.answers ++ [⟨t.operationId, .error ClaimSystem.missingRow⟩] }
  | some c =>
    let outcome := checkKind t.operationId t.kind c
    { s.setTransaction i { t with phase := .locked outcome } with
      answers := s.answers ++ [⟨t.operationId, outcome⟩] }

def step (s : ClaimTable) : ClaimStatement → Option ClaimTable
  | .begin operationId kind => some { s with
      transactions := Function.update s.transactions s.count { operationId, kind, phase := .opened }
      count := s.count + 1 }
  | .insert i now =>
    let t := s.transactions i
    if t.phase ≠ .opened ∨ s.claimPending i t.operationId then none
    else if (s.claims t.operationId).isSome then
      some (s.setTransaction i { t with phase := .inserted })
    else some { s.setTransaction i
        { t with own := some ⟨s.nextRow, t.kind, now, none⟩, phase := .inserted } with
      nextRow := s.nextRow + 1 }
  | .select i => if (s.transactions i).phase = .inserted then some (s.select i) else none
  | .commit i =>
    let t := s.transactions i
    if t.phase = .locked (.ok ()) then
      some { s.setTransaction i { t with own := none, phase := .ended } with
        claims := t.own.elim s.claims fun c => Function.update s.claims t.operationId (some c) }
    else none
  | .rollback i =>
    let t := s.transactions i
    if t.phase = .absent ∨ t.phase = .ended then none
    else some (s.setTransaction i { t with own := none, phase := .ended })
  | .maintain kind now retention due =>
    let worker : RetentionWorker :=
      { kind, now, retention, snapshot := { claims := s.claims }, due }
    if due.length ≤ retentionBatchSize ∧
        ∀ id ∈ due, (s.claims id).any worker.chooses = true ∧ s.claimShared id = false then
      some { s with claims := (ClaimSystem.retentionTables { claims := s.claims } worker).claims }
    else none

/-- No purge deletes a claim that a transaction has found in its way and not read yet. -/
def awayFromWindow (s : ClaimTable) : ClaimStatement → Bool
  | .maintain .purge _ _ due => due.all fun id => !s.windowOpen id
  | _ => true

/-! ### The window -/

variable {s t : ClaimTable}

/-- What `claim_operation` may answer. -/
def Regular (a : ClaimAnswer) : Prop :=
  a.outcome = .ok () ∨ a.outcome = .error (.core (.operationIdConflict a.operationId)) ∨
    a.outcome = .error (.core (.operationExpired a.operationId))

theorem regular_checkKind (operationId : String) (kind : OperationKind) (c : ClaimRow) :
    Regular ⟨operationId, checkKind operationId kind c⟩ := by
  simp only [Regular, checkKind]
  split
  · exact Or.inr (Or.inl rfl)
  · split
    · exact Or.inr (Or.inr rfl)
    · exact Or.inl rfl

/-- The claim that a transaction found in its way is still there. -/
structure WindowInv (s : ClaimTable) : Prop where
  absent : ∀ i, s.count ≤ i → (s.transactions i).phase = .absent
  found : ∀ i, (s.transactions i).phase = .inserted → (s.transactions i).own = none →
    (s.claims (s.transactions i).operationId).isSome
  answers : ∀ a ∈ s.answers, Regular a

theorem WindowInv.windowOpen (inv : s.WindowInv) {i : ℕ}
    (hphase : (s.transactions i).phase = .inserted) (hown : (s.transactions i).own = none) :
    s.windowOpen (s.transactions i).operationId = true := by
  have hlt : i < s.count := by
    by_contra hle
    rw [inv.absent i (Nat.not_lt.mp hle)] at hphase
    cases hphase
  refine List.any_eq_true.mpr ⟨i, List.mem_range.mpr hlt, ?_⟩
  simp [hphase, hown]

/-- One transaction moves and the claims stay, or gain a row. -/
theorem WindowInv.move (inv : s.WindowInv) {i : ℕ} {transaction : ClaimTransaction}
    (hi : (s.transactions i).phase ≠ .absent) (htransactions : t.transactions =
      Function.update s.transactions i transaction) (hcount : t.count = s.count)
    (hclaims : ∀ id, (s.claims id).isSome → (t.claims id).isSome)
    (hfound : transaction.phase = .inserted → transaction.own = none →
      (t.claims transaction.operationId).isSome) (hanswers : ∀ a ∈ t.answers, Regular a) :
    t.WindowInv := by
  refine ⟨fun j hj => ?_, fun j => ?_, hanswers⟩
  · have hne : j ≠ i := by
      rintro rfl
      exact hi (inv.absent j (hcount ▸ hj))
    rw [htransactions, Function.update_of_ne hne]
    exact inv.absent j (hcount ▸ hj)
  · rw [htransactions]
    by_cases hji : j = i
    · rw [hji, Function.update_self]
      exact hfound
    · rw [Function.update_of_ne hji]
      exact fun hphase hown => hclaims _ (inv.found j hphase hown)

theorem WindowInv.select (inv : s.WindowInv) {i : ℕ}
    (hphase : (s.transactions i).phase = .inserted) : (s.select i).WindowInv := by
  obtain ⟨c, hc⟩ : ∃ c, (s.transactions i).own.or (s.claims (s.transactions i).operationId) =
      some c := by
    cases hown : (s.transactions i).own with
    | some c => exact ⟨c, by rw [Option.some_or]⟩
    | none =>
      rw [Option.none_or]
      exact Option.isSome_iff_exists.mp (inv.found i hphase hown)
  rw [ClaimTable.select, hc]
  refine inv.move (i := i) (by rw [hphase]; exact nofun) rfl rfl (fun _ h => h) (fun h => ?_)
    fun a ha => ?_
  · cases h
  · rcases List.mem_append.mp ha with ha | ha
    · exact inv.answers a ha
    · rw [List.mem_singleton.mp ha]
      exact regular_checkKind ..

theorem WindowInv.maintain (inv : s.WindowInv) {kind : RetentionKind} {now retention : ℕ}
    {due : List String} (haway : s.awayFromWindow (.maintain kind now retention due) = true)
    (h : s.step (.maintain kind now retention due) = some t) : t.WindowInv := by
  rw [step] at h
  split at h
  · rw [Option.some_inj] at h
    subst h
    refine ⟨inv.absent, fun i hphase hown => ?_, inv.answers⟩
    have hfound := inv.found i hphase hown
    cases kind with
    | retirement =>
      -- a retired claim keeps its row
      show Option.isSome (if _ then _ else _) = true
      split
      · rw [Option.isSome_map]
        exact hfound
      · exact hfound
    | purge =>
      have hnotDue : (s.transactions i).operationId ∉ due := by
        intro hdue
        have hclosed := List.all_eq_true.mp haway _ hdue
        rw [inv.windowOpen hphase hown] at hclosed
        cases hclosed
      show Option.isSome (if _ then _ else _) = true
      rw [if_neg hnotDue]
      exact hfound
  · cases h

theorem step_windowInv {e : ClaimStatement} (haway : s.awayFromWindow e = true)
    (inv : s.WindowInv) (h : s.step e = some t) : t.WindowInv := by
  cases e with
  | begin operationId kind =>
    rw [step, Option.some_inj] at h
    subst h
    refine ⟨fun j hj => ?_, fun j => ?_, inv.answers⟩
    · have hne : j ≠ s.count := Nat.ne_of_gt hj
      simp only [Function.update_of_ne hne]
      exact inv.absent j (Nat.le_of_succ_le hj)
    · by_cases hj : j = s.count
      · simp only [hj, Function.update_self]
        exact fun hphase => by cases hphase
      · simp only [Function.update_of_ne hj]
        exact inv.found j
  | insert i now =>
    simp only [step] at h
    split at h
    · cases h
    · next hready =>
      have hopened : (s.transactions i).phase ≠ .absent := by
        intro habsent
        exact hready (Or.inl (by rw [habsent]; exact nofun))
      split at h <;> rw [Option.some_inj] at h <;> subst h
      · next hclaimed =>
        exact inv.move hopened rfl rfl (fun _ h => h) (fun _ _ => hclaimed) inv.answers
      · exact inv.move hopened rfl rfl (fun _ h => h) (fun _ hown => by cases hown) inv.answers
  | select i =>
    rw [step] at h
    split at h
    · next hphase =>
      rw [Option.some_inj] at h
      exact h ▸ inv.select hphase
    · cases h
  | commit i =>
    simp only [step] at h
    split at h
    · next hphase =>
      rw [Option.some_inj] at h
      subst h
      refine inv.move (i := i) (by rw [hphase]; exact nofun) rfl rfl (fun id hid => ?_)
        (fun h => by cases h) inv.answers
      cases (s.transactions i).own with
      | none => exact hid
      | some c =>
        simp only [Option.elim_some]
        by_cases hsame : id = (s.transactions i).operationId
        · rw [hsame, Function.update_self]
          rfl
        · rwa [Function.update_of_ne hsame]
    · cases h
  | rollback i =>
    simp only [step] at h
    split at h
    · cases h
    · next hopen =>
      rw [Option.some_inj] at h
      subst h
      exact inv.move (fun habsent => hopen (Or.inl habsent)) rfl rfl (fun _ h => h)
        (fun h => by cases h) inv.answers
  | maintain kind now retention due => exact inv.maintain haway h

theorem init_windowInv (claims : String → Option ClaimRow) (nextRow : ℕ) :
    WindowInv { claims, nextRow } :=
  ⟨fun _ _ => rfl, (fun _ h => by cases h), (fun _ h => by cases h)⟩

end ClaimTable

open ClaimTable

/-- **A claim is always answered.**  In every run of calls of `claim_operation`, their
commits and rollbacks, and maintenance statements, from any table of claims, each call
accepts or answers that its id belongs to another kind or has expired, as long as no purge
deletes a claim between the two statements of a call that found it in its way. -/
theorem claim_answers (claims : String → Option ClaimRow) (nextRow : ℕ)
    (events : List ClaimStatement) (s : ClaimTable)
    (hrun : run ClaimTable.step { claims, nextRow } events = some s)
    (haway : StepsMeet ClaimTable.step (fun s e => s.awayFromWindow e = true)
      { claims, nextRow } events) :
    ∀ a ∈ s.answers, a.outcome = .ok () ∨
      a.outcome = .error (.core (.operationIdConflict a.operationId)) ∨
      a.outcome = .error (.core (.operationExpired a.operationId)) :=
  (run_invariant_when (fun _ _ _ haway inv h => step_windowInv haway inv h) haway
    (init_windowInv claims nextRow) hrun).answers

/-- A multi-record operation commits, its receipt is retired, and a retry finds the claim in
the way of its insert. -/
def retryOfRetired : List ClaimStatement :=
  [.begin "op-1" .multi, .insert 0 0, .select 0, .commit 0, .maintain .retirement 100 10 ["op-1"],
    .begin "op-1" .multi, .insert 1 110]

/-- The retry has read the claim before it is purged, and the next call starts afresh. -/
def purgedAfterRetry : List ClaimStatement :=
  retryOfRetired ++ [.select 1, .rollback 1, .maintain .purge 200 50 ["op-1"],
    .begin "op-1" .multi, .insert 2 210, .select 2]

theorem claim_answers_retired :
    ∃ s, run ClaimTable.step {} purgedAfterRetry = some s ∧
      s.answers = [⟨"op-1", .ok ()⟩, ⟨"op-1", .error (.core (.operationExpired "op-1"))⟩,
        ⟨"op-1", .ok ()⟩] ∧
      ∀ a ∈ s.answers, a.outcome = .ok () ∨
        a.outcome = .error (.core (.operationIdConflict a.operationId)) ∨
        a.outcome = .error (.core (.operationExpired a.operationId)) := by
  obtain ⟨s, hrun, hanswers⟩ := exists_of_any (o := run ClaimTable.step {} purgedAfterRetry)
    (p := fun s => s.answers = [⟨"op-1", .ok ()⟩,
      ⟨"op-1", .error (.core (.operationExpired "op-1"))⟩, ⟨"op-1", .ok ()⟩]) (by decide +kernel)
  exact ⟨s, hrun, hanswers,
    claim_answers _ _ _ s hrun (stepsMeet_of_check (by decide +kernel))⟩

/-- The claim is purged before the retry reads it. -/
theorem purge_inside_window :
    ∃ s, run ClaimTable.step {}
        (retryOfRetired ++ [.maintain .purge 200 50 ["op-1"], .select 1]) = some s ∧
      ⟨"op-1", .error (.postgres "query returned an unexpected number of rows")⟩ ∈ s.answers ∧
      ¬ ∀ a ∈ s.answers, a.outcome = .ok () ∨
        a.outcome = .error (.core (.operationIdConflict a.operationId)) ∨
        a.outcome = .error (.core (.operationExpired a.operationId)) := by
  obtain ⟨s, hrun, hmem⟩ := exists_of_any
    (o := run ClaimTable.step {}
      (retryOfRetired ++ [.maintain .purge 200 50 ["op-1"], .select 1]))
    (p := fun s => ⟨"op-1", .error ClaimSystem.missingRow⟩ ∈ s.answers) (by decide +kernel)
  refine ⟨s, hrun, hmem, fun h => ?_⟩
  rcases h _ hmem with h | h | h <;> cases h

end DbProxy
