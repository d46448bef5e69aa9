/-
What links operation claims, receipts, calls and maintenance statements.

A call owns the claim that it inserted until it commits, or it holds the claim of a
committed operation `FOR SHARE`; a maintenance statement holds it `FOR UPDATE`.  What
each of them has seen of an operation therefore stays true until its transaction ends.

* `CallView`, `WorkerView` — what a call and a statement have seen and hold;
* `ClaimInv` — the invariant, and `step_claimInv`: every step keeps it.
-/
import DbProxy.OperationClaims

namespace DbProxy

namespace Happening

/-- A commit of the operation. -/
def applies (operationId : String) : Happening → Bool
  | answered _ request _ (.ok (.applied _ _)) => request.operationId = operationId
  | answered _ _ _ (.ok (.duplicate _ _)) | answered _ _ _ (.error _) | purged _ => false

def purges (operationId : String) : Happening → Bool
  | purged id => id = operationId
  | answered _ _ _ _ => false

end Happening

namespace ClaimSystem

variable {decode : Bytes → Option EventEnvelope} {encode : CommitEffects → Bytes}
  {s t : ClaimSystem}

/-! ### What the parts know -/

/-- The claim of the operation is committed and its receipt is kept. -/
def Live (s : ClaimSystem) (operationId : String) : Prop :=
  ∃ c, s.tables.claims operationId = some c ∧ c.isLive = true

/-- A maintenance statement has locked the claim. -/
def Taken (s : ClaimSystem) (operationId : String) : Prop :=
  ∃ w worker, s.workers w = some worker ∧ operationId ∈ worker.due

def purgeCount (s : ClaimSystem) (operationId : String) : ℕ :=
  s.history.countP (·.purges operationId)

def commitCount (s : ClaimSystem) (operationId : String) : ℕ :=
  s.history.countP (·.applies operationId)

/-- What a call alone shows. -/
structure CallShape (c : CommitCall) : Prop where
  first : c.phase.isFirst = true → c.own.isSome
  retry : c.phase.isRetry = true → c.own = none
  opened : c.phase = .opened → c.own = none
  prepared : c.phase ≠ .absent → c.request.Prepared
  locking : ∀ rest revisions, c.phase = .locking rest revisions →
    ∃ locked, c.request.writes = locked ++ rest ∧ revisions.length = locked.length
  committing : ∀ revisions, c.phase = .committing revisions →
    revisions.length = c.request.writes.length ∧ c.request.Fits

/-- What a call has seen and what it holds. -/
structure CallView (s : ClaimSystem) (c : CommitCall) : Prop where
  own : ∀ claim, c.own = some claim → claim.isLive = true ∧ claim.row < s.nextRow ∧
    s.tables.claims c.operationId = none
  shared : c.phase.holdsClaim = true → c.own = none →
    s.Live c.operationId ∧ ¬ s.Taken c.operationId
  inserted : c.phase = .inserted → c.own = none → s.purgeCount c.operationId = 0 →
    (s.tables.claims c.operationId).isSome
  selecting : ∀ visible, c.phase = .selecting visible → c.own = none →
    s.purgeCount c.operationId = 0 →
    ∃ claim, s.tables.claims c.operationId = some claim ∧ visible = some claim.row
  comparing : ∀ header, c.phase = .comparing header →
    s.tables.headers c.operationId = some header
  confirming : ∀ records result, c.phase = .confirming records result → ∃ header,
    s.tables.headers c.operationId = some header ∧ result = header.result ∧
      records = (sortOn (·.record) (s.tables.records c.operationId)).map (·.receipt)

/-- What a maintenance statement has seen and what it holds. -/
structure WorkerView (s : ClaimSystem) (w : RetentionWorker) : Prop where
  rows : ∀ operationId c, w.snapshot.claims operationId = some c → c.row < s.nextRow
  /-- of a row that is still there, the effects are as in the snapshot -/
  snapshot : ∀ operationId c c', w.snapshot.claims operationId = some c →
    s.tables.claims operationId = some c' → c.row = c'.row →
    s.tables.effects operationId = w.snapshot.effects operationId ∧
      (c'.isLive = true → (w.snapshot.headers operationId).isSome)
  nodup : w.due.Nodup
  due : ∀ operationId ∈ w.due, ∃ c, s.tables.claims operationId = some c ∧ c.kind = .multi ∧
    match w.kind with
    | .retirement => c.isLive = true ∧ s.tables.effects operationId = none ∧
        (w.snapshot.headers operationId).isSome
    | .purge => c.retiredAt.isSome

/-- The commit that a receipt comes from. -/
structure Commit where
  call : ℕ
  request : MultiRecordTransactionalWrite
  effects : CommitEffects
  revisions : List Revision

namespace Commit

def happening (c : Commit) : Happening :=
  .answered c.call c.request c.effects
    (.ok (.applied ((c.request.rows c.revisions).map (·.receipt)) c.request.result))

structure Valid (c : Commit) : Prop where
  fits : c.request.Fits
  length : c.revisions.length = c.request.writes.length
  prepared : c.request.Prepared

end Commit

structure TablesInv (encode : CommitEffects → Bytes) (s : ClaimSystem) : Prop where
  header : ∀ operationId, (s.tables.headers operationId).isSome ↔ s.Live operationId
  bare : ∀ operationId, s.tables.headers operationId = none →
    s.tables.records operationId = [] ∧ s.tables.effects operationId = none
  rows : ∀ operationId c, s.tables.claims operationId = some c → c.row < s.nextRow
  /-- only multi-record claims are retired -/
  retired : ∀ operationId c, s.tables.claims operationId = some c → c.retiredAt.isSome →
    c.kind = .multi
  /-- a commit is counted until its claim is purged -/
  counts : ∀ operationId, s.commitCount operationId =
    s.purgeCount operationId +
      if (s.tables.claims operationId).any (·.kind = .multi) then 1 else 0
  committed : ∀ happening ∈ s.history, ∀ operationId, happening.applies operationId = true →
    ∃ c : Commit, c.Valid ∧ c.happening = happening
  stored : ∀ operationId header, s.tables.headers operationId = some header →
    ∃ c : Commit, c.Valid ∧ c.happening ∈ s.history ∧ c.request.operationId = operationId ∧
      header = c.request.header ∧ s.tables.records operationId = c.request.rows c.revisions ∧
      s.tables.effects operationId = effectsRow encode c.effects

structure ClaimInv (encode : CommitEffects → Bytes) (s : ClaimSystem) : Prop where
  tables : s.TablesInv encode
  absent : ∀ i, s.callCount ≤ i → s.calls i = {}
  shape : ∀ i, CallShape (s.calls i)
  view : ∀ i, s.CallView (s.calls i)
  alone : ∀ i j, (s.calls i).own.isSome → (s.calls j).own.isSome →
    (s.calls i).operationId = (s.calls j).operationId → i = j
  /-- no snapshot shows a claim that is not committed -/
  unseen : ∀ i claim, (s.calls i).own = some claim → ∀ w worker, s.workers w = some worker →
    ∀ c, worker.snapshot.claims (s.calls i).operationId = some c → c.row ≠ claim.row
  workerAbsent : ∀ w, s.workerCount ≤ w → s.workers w = none
  workers : ∀ w worker, s.workers w = some worker → s.WorkerView worker
  disjoint : ∀ w w' worker worker' operationId, s.workers w = some worker →
    s.workers w' = some worker' → operationId ∈ worker.due → operationId ∈ worker'.due → w = w'

/-! ### Frames -/

/-- Two states show the same of an operation. -/
structure Agree (s t : ClaimSystem) (operationId : String) : Prop where
  claims : t.tables.claims operationId = s.tables.claims operationId
  headers : t.tables.headers operationId = s.tables.headers operationId
  records : t.tables.records operationId = s.tables.records operationId
  taken : t.Taken operationId → s.Taken operationId
  purges : t.purgeCount operationId = s.purgeCount operationId

theorem Agree.live {operationId : String} (h : Agree s t operationId) :
    t.Live operationId ↔ s.Live operationId := by
  rw [Live, Live, h.claims]

theorem CallView.of_agree {c : CommitCall} (h : s.CallView c) (hagree : Agree s t c.operationId)
    (hrow : s.nextRow ≤ t.nextRow) : t.CallView c := by
  refine ⟨?_, ?_, ?_, ?_, ?_, ?_⟩
  · intro claim hclaim
    obtain ⟨hlive, hlt, hnone⟩ := h.own claim hclaim
    exact ⟨hlive, lt_of_lt_of_le hlt hrow, hagree.claims.trans hnone⟩
  · intro hholds hown
    obtain ⟨hlive, hfree⟩ := h.shared hholds hown
    exact ⟨hagree.live.mpr hlive, fun htaken => hfree (hagree.taken htaken)⟩
  · intro hphase hown hpurge
    rw [hagree.claims]
    exact h.inserted hphase hown (hagree.purges.symm.trans hpurge)
  · intro visible hphase hown hpurge
    rw [hagree.claims]
    exact h.selecting visible hphase hown (hagree.purges.symm.trans hpurge)
  · intro header hphase
    exact hagree.headers.trans (h.comparing header hphase)
  · intro records result hphase
    rw [hagree.headers, hagree.records]
    exact h.confirming records result hphase

/-- A call that neither owns nor holds the claim. -/
theorem CallView.of_idle {c : CommitCall} (h : s.CallView c) (hown : c.own = none)
    (hholds : c.phase.holdsClaim = false)
    (hclaims : t.purgeCount c.operationId = 0 → s.purgeCount c.operationId = 0 ∧
      ∀ claim, s.tables.claims c.operationId = some claim →
        ∃ claim', t.tables.claims c.operationId = some claim' ∧ claim'.row = claim.row) :
    t.CallView c := by
  refine ⟨?_, ?_, ?_, ?_, ?_, ?_⟩
  · intro claim hclaim
    rw [hown] at hclaim
    cases hclaim
  · intro hholds'
    rw [hholds] at hholds'
    cases hholds'
  · intro hphase _ hpurge
    obtain ⟨hbefore, hkept⟩ := hclaims hpurge
    obtain ⟨claim, hclaim⟩ := Option.isSome_iff_exists.mp (h.inserted hphase hown hbefore)
    obtain ⟨claim', hclaim', -⟩ := hkept claim hclaim
    rw [hclaim']
    rfl
  · intro visible hphase _ hpurge
    obtain ⟨hbefore, hkept⟩ := hclaims hpurge
    obtain ⟨claim, hclaim, hvisible⟩ := h.selecting visible hphase hown hbefore
    obtain ⟨claim', hclaim', hrow⟩ := hkept claim hclaim
    exact ⟨claim', hclaim', by rw [hvisible, hrow]⟩
  · intro header hphase
    rw [hphase] at hholds
    cases hholds
  · intro records result hphase
    rw [hphase] at hholds
    cases hholds

/-! ### Steps of one call -/

/-- Answers that are no commits change no count. -/
theorem countP_append_of_none {p : Happening → Bool} {history extra : List Happening}
    (h : ∀ x ∈ extra, p x = false) : (history ++ extra).countP p = history.countP p := by
  have hextra : extra.countP p = 0 := List.countP_eq_zero.mpr fun x hx => by simp [h x hx]
  rw [List.countP_append, hextra, Nat.add_zero]

theorem WorkerView.congr {w : RetentionWorker} (h : s.WorkerView w) (htables : t.tables = s.tables)
    (hrow : s.nextRow ≤ t.nextRow) : t.WorkerView w := by
  refine ⟨fun id c hc => lt_of_lt_of_le (h.rows id c hc) hrow, ?_, h.nodup, ?_⟩
  · rw [htables]
    exact h.snapshot
  · rw [htables]
    exact h.due

theorem TablesInv.congr (h : s.TablesInv encode) (htables : t.tables = s.tables)
    (hrow : s.nextRow ≤ t.nextRow) (hhistory : t.history = s.history) : t.TablesInv encode := by
  refine ⟨?_, ?_, ?_, ?_, ?_, ?_, ?_⟩
  · simp only [Live, htables]
    exact h.header
  · rw [htables]
    exact h.bare
  · rw [htables]
    exact fun id c hc => lt_of_lt_of_le (h.rows id c hc) hrow
  · rw [htables]
    exact h.retired
  · simp only [commitCount, purgeCount, htables, hhistory]
    exact h.counts
  · rw [hhistory]
    exact h.committed
  · rw [htables, hhistory]
    exact h.stored

/-- A call moves on, and what it answers is not a commit. -/
theorem ClaimInv.setCall (inv : s.ClaimInv encode) {i : ℕ} {c : CommitCall} (extra : List Happening)
    (hi : i < s.callCount) (hid : c.operationId = (s.calls i).operationId) (hshape : CallShape c)
    (hview : s.CallView c) (hown : ∀ claim, c.own = some claim → (s.calls i).own = some claim)
    (hextra : ∀ x ∈ extra, ∀ id, x.applies id = false ∧ x.purges id = false) :
    ClaimInv encode { s with
      calls := Function.update s.calls i c
      history := s.history ++ extra } := by
  set t : ClaimSystem := { s with
    calls := Function.update s.calls i c
    history := s.history ++ extra }
  have hpurges : ∀ id, t.purgeCount id = s.purgeCount id := fun id =>
    countP_append_of_none fun x hx => (hextra x hx id).2
  have hcommits : ∀ id, t.commitCount id = s.commitCount id := fun id =>
    countP_append_of_none fun x hx => (hextra x hx id).1
  have hagree : ∀ id, Agree s t id := fun id => ⟨rfl, rfl, rfl, fun h => h, hpurges id⟩
  have hcall : ∀ j, t.calls j = if j = i then c else s.calls j := fun j =>
    Function.update_apply ..
  -- who owns a claim owned it before
  have hbefore : ∀ j claim, (t.calls j).own = some claim → (s.calls j).own = some claim ∧
      (t.calls j).operationId = (s.calls j).operationId := by
    intro j claim
    rw [hcall]
    split
    · rename_i hj
      rw [hj]
      exact fun h => ⟨hown claim h, hid⟩
    · exact fun h => ⟨h, rfl⟩
  refine ⟨⟨?_, inv.tables.bare, inv.tables.rows, inv.tables.retired, ?_, ?_, ?_⟩, ?_, ?_, ?_, ?_,
    ?_, inv.workerAbsent, fun w worker hw => (inv.workers w worker hw).congr rfl le_rfl,
    inv.disjoint⟩
  · exact inv.tables.header
  · intro id
    rw [hcommits, hpurges]
    exact inv.tables.counts id
  · intro x hx id happlies
    rcases List.mem_append.mp hx with hx | hx
    · exact inv.tables.committed x hx id happlies
    · rw [(hextra x hx id).1] at happlies
      cases happlies
  · intro id header hheader
    obtain ⟨commit, hvalid, hmem, hrest⟩ := inv.tables.stored id header hheader
    exact ⟨commit, hvalid, List.mem_append_left _ hmem, hrest⟩
  · intro j hj
    rw [hcall, if_neg (by simp only [t] at hj; omega)]
    exact inv.absent j hj
  · intro j
    rw [hcall]
    split
    · exact hshape
    · exact inv.shape j
  · intro j
    rw [hcall]
    split
    · exact hview.of_agree (hagree _) le_rfl
    · exact (inv.view j).of_agree (hagree _) le_rfl
  · intro j k hj hk hjk
    obtain ⟨claim, hj⟩ := Option.isSome_iff_exists.mp hj
    obtain ⟨claim', hk⟩ := Option.isSome_iff_exists.mp hk
    obtain ⟨hj, hidj⟩ := hbefore j claim hj
    obtain ⟨hk, hidk⟩ := hbefore k claim' hk
    exact inv.alone j k (by rw [hj]; rfl) (by rw [hk]; rfl) (by rw [← hidj, ← hidk, hjk])
  · intro j claim hj
    obtain ⟨hj, hidj⟩ := hbefore j claim hj
    rw [hidj]
    exact inv.unseen j claim hj

theorem ClaimInv.lt_callCount (inv : s.ClaimInv encode) {i : ℕ}
    (h : (s.calls i).phase ≠ .absent) : i < s.callCount := by
  by_contra hge
  rw [inv.absent i (by omega)] at h
  exact h rfl

theorem CallView.finished {c : CommitCall} (hown : c.own = none) (hphase : c.phase = .finished) :
    s.CallView c := by
  refine ⟨?_, ?_, ?_, ?_, ?_, ?_⟩ <;> simp [hown, hphase, CommitPhase.holdsClaim]

theorem CallShape.finished {c : CommitCall} (hown : c.own = none) (hphase : c.phase = .finished)
    (hprepared : c.request.Prepared) : CallShape c := by
  refine ⟨?_, ?_, ?_, fun _ => hprepared, ?_, ?_⟩ <;> simp [hown, hphase, CommitPhase.isFirst]

theorem ClaimInv.close (inv : s.ClaimInv encode) {i : ℕ} (h : (s.calls i).phase ≠ .absent)
    (extra : List Happening)
    (hextra : ∀ x ∈ extra, ∀ id, x.applies id = false ∧ x.purges id = false) :
    ClaimInv encode { s.close i with history := s.history ++ extra } :=
  inv.setCall extra (inv.lt_callCount h) rfl (.finished rfl rfl ((inv.shape i).prepared h))
    (.finished rfl rfl) (fun _ h => by cases h) hextra

theorem ClaimInv.answer (inv : s.ClaimInv encode) {i : ℕ} (h : (s.calls i).phase ≠ .absent)
    {outcome : Except StorageError MultiRecordTransactionalWriteOutcome}
    (houtcome : ∀ records result, outcome ≠ .ok (.applied records result)) :
    ClaimInv encode (s.answer i outcome) := by
  refine inv.close h _ fun x hx id => ?_
  rw [List.mem_singleton.mp hx]
  refine ⟨?_, rfl⟩
  rcases outcome with e | ⟨records, result⟩ | ⟨records, result⟩
  · rfl
  · exact absurd rfl (houtcome records result)
  · rfl

/-- A call goes to its next statement. -/
theorem ClaimInv.setPhase (inv : s.ClaimInv encode) {i : ℕ} {phase : CommitPhase}
    (h : (s.calls i).phase ≠ .absent) (hshape : CallShape { s.calls i with phase })
    (hview : s.CallView { s.calls i with phase }) : ClaimInv encode (s.setPhase i phase) := by
  have hset := inv.setCall (c := { s.calls i with phase }) [] (inv.lt_callCount h) rfl
    hshape hview (fun _ h => h) (fun x hx => by cases hx)
  rwa [List.append_nil] at hset

/-- A phase in which nothing is held yet, or only what the call held before. -/
theorem CallView.setPhase {c : CommitCall} (h : s.CallView c) {phase : CommitPhase}
    (hholds : phase.holdsClaim = true → c.own = none →
      s.Live c.operationId ∧ ¬ s.Taken c.operationId)
    (hinserted : phase = .inserted → c.own = none → s.purgeCount c.operationId = 0 →
      (s.tables.claims c.operationId).isSome)
    (hselecting : ∀ visible, phase = .selecting visible → c.own = none →
      s.purgeCount c.operationId = 0 →
      ∃ claim, s.tables.claims c.operationId = some claim ∧ visible = some claim.row)
    (hcomparing : ∀ header, phase = .comparing header →
      s.tables.headers c.operationId = some header)
    (hconfirming : ∀ records result, phase = .confirming records result → ∃ header,
      s.tables.headers c.operationId = some header ∧ result = header.result ∧
        records = (sortOn (·.record) (s.tables.records c.operationId)).map (·.receipt)) :
    s.CallView { c with phase } :=
  ⟨h.own, hholds, hinserted, hselecting, hcomparing, hconfirming⟩

/-- A statement between two others, with the claim held. -/
theorem ClaimInv.advance (inv : s.ClaimInv encode) {i : ℕ} {phase : CommitPhase}
    (hbefore : (s.calls i).phase.holdsClaim = true) (hafter : phase.holdsClaim = true)
    (hshape : CallShape { s.calls i with phase })
    (hcomparing : ∀ header, phase = .comparing header →
      s.tables.headers (s.calls i).operationId = some header)
    (hconfirming : ∀ records result, phase = .confirming records result → ∃ header,
      s.tables.headers (s.calls i).operationId = some header ∧ result = header.result ∧
        records =
          (sortOn (·.record) (s.tables.records (s.calls i).operationId)).map (·.receipt)) :
    ClaimInv encode (s.setPhase i phase) := by
  refine inv.setPhase (fun h => by rw [h] at hbefore; cases hbefore) hshape
    ((inv.view i).setPhase (fun _ => (inv.view i).shared hbefore) ?_ ?_ hcomparing hconfirming)
  · rintro rfl
    cases hafter
  · rintro visible rfl
    cases hafter

/-- The shape of a call in a phase with nothing of its own to remember. -/
theorem CallShape.setPhase {c : CommitCall} (h : CallShape c) {phase : CommitPhase}
    (hphase : c.phase ≠ .absent) (hfirst : phase.isFirst = true → c.own.isSome)
    (hretry : phase.isRetry = true → c.own = none)
    (hopened : phase ≠ .opened)
    (hlocking : ∀ rest revisions, phase = .locking rest revisions →
      ∃ locked, c.request.writes = locked ++ rest ∧ revisions.length = locked.length)
    (hcommitting : ∀ revisions, phase = .committing revisions →
      revisions.length = c.request.writes.length ∧ c.request.Fits) :
    CallShape { c with phase } :=
  ⟨hfirst, hretry, fun h => absurd h hopened, fun _ => h.prepared hphase, hlocking, hcommitting⟩

theorem ClaimInv.not_taken_of_claimTaken (inv : s.ClaimInv encode) {id : String}
    (h : s.claimTaken id = false) : ¬ s.Taken id := by
  rintro ⟨w, worker, hw, hdue⟩
  have hlt : w < s.workerCount := by
    by_contra hge
    rw [inv.workerAbsent w (by omega)] at hw
    cases hw
  have := List.any_eq_false.mp h w (List.mem_range.mpr hlt)
  rw [hw] at this
  exact this (by simpa using hdue)

/-- The lock of the claim. -/
theorem ClaimInv.lockShare (inv : s.ClaimInv encode) {i : ℕ} {visible : Option ℕ}
    (hphase : (s.calls i).phase = .selecting visible) (h : s.lockShare i visible = some t) :
    t.ClaimInv encode := by
  have hne : (s.calls i).phase ≠ .absent := by simp [hphase]
  have hshape : CallShape { s.calls i with phase := .claimed } :=
    (inv.shape i).setPhase hne (fun h => by cases h) (fun h => by cases h) (by simp) (by simp)
      (by simp)
  simp only [ClaimSystem.lockShare] at h
  split at h
  · rename_i claim _ hown
    obtain rfl := Option.some.inj h
    refine inv.setPhase hne hshape ((inv.view i).setPhase ?_ (by simp) (by simp) (by simp) (by simp))
    intro _ hnone
    rw [hown] at hnone
    cases hnone
  · obtain rfl := Option.some.inj h
    exact inv.answer hne (by simp)
  · rename_i row hown
    split at h
    · cases h
    · rename_i htaken
      rw [Bool.not_eq_true] at htaken
      split at h
      · obtain rfl := Option.some.inj h
        exact inv.answer hne (by simp)
      · rename_i claim hclaim
        split at h
        · obtain rfl := Option.some.inj h
          exact inv.answer hne (by simp)
        · split at h
          · obtain rfl := Option.some.inj h
            exact inv.answer hne (by simp)
          · rename_i hcheck
            obtain rfl := Option.some.inj h
            refine inv.setPhase hne hshape
              ((inv.view i).setPhase ?_ (by simp) (by simp) (by simp) (by simp))
            intro _ _
            refine ⟨⟨claim, hclaim, ?_⟩, inv.not_taken_of_claimTaken htaken⟩
            simp only [checkClaim] at hcheck
            split at hcheck
            · cases hcheck
            · split at hcheck
              · cases hcheck
              · simp_all [ClaimRow.isLive]

/-- The comparison of a record. -/
theorem ClaimInv.lockRecord (inv : s.ClaimInv encode) {i : ℕ} {write : TransactionalRecordWrite}
    {rest : List TransactionalRecordWrite} {revisions : List Revision}
    (hphase : (s.calls i).phase = .locking (write :: rest) revisions) :
    (s.lockRecord i write rest revisions).ClaimInv encode := by
  have hne : (s.calls i).phase ≠ .absent := by simp [hphase]
  rw [ClaimSystem.lockRecord]
  split
  · exact inv.answer hne (by simp)
  · split
    · exact inv.answer hne (by simp)
    · rename_i revision _
      refine inv.advance (by rw [hphase]; rfl) rfl ?_ (by simp) (by simp)
      obtain ⟨locked, hwrites, hlength⟩ := (inv.shape i).locking _ _ hphase
      refine (inv.shape i).setPhase hne (fun _ => (inv.shape i).first (by rw [hphase]; rfl))
        (fun h => by cases h) (by simp) ?_ (by simp)
      intro rest' revisions' hlocking
      obtain ⟨rfl, rfl⟩ := CommitPhase.locking.inj hlocking
      exact ⟨locked ++ [write], by simp [hwrites], by simp [hlength]⟩

/-- The conversions passed, so the writes fit. -/
theorem fits_of_checkI64 {writes : List TransactionalRecordWrite} :
    ∀ {revisions : List Revision}, revisions.length = writes.length →
      (writes.zip revisions).forM (fun x => checkI64 x.1 x.2) = .ok () →
      ∀ write ∈ writes,
        write.expectedRevision < bigintLimit ∧ write.updatedAtUnixMs < bigintLimit := by
  intro revisions hlength h write hwrite
  obtain ⟨revision, hmem⟩ : ∃ revision, (write, revision) ∈ writes.zip revisions := by
    obtain ⟨n, hn, rfl⟩ := List.mem_iff_getElem.mp hwrite
    exact ⟨revisions[n], List.mem_iff_getElem.mpr ⟨n, by simp [hlength, hn], by simp⟩⟩
  have hcheck := Checks.forM_eq_ok.mp h (write, revision) hmem
  simp only [checkI64] at hcheck
  split at hcheck
  · cases hcheck
  · rename_i hexpected
    split at hcheck
    · cases hcheck
    · split at hcheck
      · cases hcheck
      · rename_i htime
        exact ⟨not_le.mp hexpected, not_le.mp htime⟩

/-! ### Steps that change the tables or the locks -/

theorem ClaimInv.begin (inv : s.ClaimInv encode) {request request' : MultiRecordTransactionalWrite}
    {effects effects' : CommitEffects}
    (h : prepareCommit decode request effects = .ok (request', effects')) :
    ClaimInv encode { s with
      calls := Function.update s.calls s.callCount
        { request := request', effects := effects', phase := .opened }
      callCount := s.callCount + 1 } := by
  have hprepared := prepared_of_prepareCommit h
  set c : CommitCall := { request := request', effects := effects', phase := .opened }
  have hcall : ∀ j, Function.update s.calls s.callCount c j = if j = s.callCount then c else
      s.calls j := fun j => Function.update_apply ..
  have hown : ∀ j claim, (Function.update s.calls s.callCount c j).own = some claim →
      j ≠ s.callCount := by
    rintro j claim hj rfl
    rw [Function.update_self] at hj
    cases hj
  refine ⟨inv.tables.congr rfl le_rfl rfl, ?_, ?_, ?_, ?_, ?_, inv.workerAbsent,
    fun w worker hw => (inv.workers w worker hw).congr rfl le_rfl, inv.disjoint⟩
  · intro j hj
    dsimp only at hj ⊢
    rw [hcall, if_neg (by omega)]
    exact inv.absent j (by omega)
  · intro j
    dsimp only
    rw [hcall]
    split
    · refine ⟨?_, ?_, ?_, fun _ => hprepared, ?_, ?_⟩ <;> simp [c, CommitPhase.isFirst]
    · exact inv.shape j
  · intro j
    dsimp only
    rw [hcall]
    split
    · refine ⟨?_, ?_, ?_, ?_, ?_, ?_⟩ <;> simp [c, CommitPhase.holdsClaim]
    · exact (inv.view j).of_agree ⟨rfl, rfl, rfl, fun h => h, rfl⟩ le_rfl
  · intro j k hj hk hjk
    dsimp only at hj hk hjk
    obtain ⟨claim, hclaim⟩ := Option.isSome_iff_exists.mp hj
    obtain ⟨claim', hclaim'⟩ := Option.isSome_iff_exists.mp hk
    rw [Function.update_of_ne (hown j claim hclaim)] at hj hjk
    rw [Function.update_of_ne (hown k claim' hclaim')] at hk hjk
    exact inv.alone j k hj hk hjk
  · intro j claim hj
    dsimp only at hj ⊢
    have hne := hown j claim hj
    rw [Function.update_of_ne hne] at hj ⊢
    exact inv.unseen j claim hj

theorem ClaimInv.not_pending (inv : s.ClaimInv encode) {i j : ℕ} {id : String}
    (h : s.claimPending i id = false) (hj : j ≠ i) (hid : (s.calls j).operationId = id) :
    (s.calls j).own = none := by
  by_contra hown
  have hlt : j < s.callCount := by
    by_contra hge
    rw [inv.absent j (by omega)] at hown
    exact hown rfl
  have hfalse := List.any_eq_false.mp h j (List.mem_range.mpr hlt)
  refine hfalse ?_
  simp [hj, hid, Option.isSome_iff_ne_none.mpr hown]

/-- A call inserts the claim. -/
theorem ClaimInv.insertClaim (inv : s.ClaimInv encode) {i now : ℕ}
    (hphase : (s.calls i).phase = .opened)
    (hpending : s.claimPending i (s.calls i).operationId = false)
    (hnone : s.tables.claims (s.calls i).operationId = none) :
    ClaimInv encode { s with
      calls := Function.update s.calls i
        { s.calls i with own := some ⟨s.nextRow, .multi, now, none⟩, phase := .inserted }
      nextRow := s.nextRow + 1 } := by
  set c : CommitCall :=
    { s.calls i with own := some ⟨s.nextRow, .multi, now, none⟩, phase := .inserted }
  set t : ClaimSystem := { s with
    calls := Function.update s.calls i c
    nextRow := s.nextRow + 1 }
  have hcall : ∀ j, t.calls j = if j = i then c else s.calls j := fun j =>
    Function.update_apply ..
  have hagree : ∀ id, Agree s t id := fun id => ⟨rfl, rfl, rfl, fun h => h, rfl⟩
  have hi := inv.lt_callCount (i := i) (by simp [hphase])
  refine ⟨inv.tables.congr rfl (Nat.le_succ _) rfl, ?_, ?_, ?_, ?_, ?_, inv.workerAbsent,
    fun w worker hw => (inv.workers w worker hw).congr rfl (Nat.le_succ _), inv.disjoint⟩
  · intro j hj
    rw [hcall, if_neg (by simp only [t] at hj; omega)]
    exact inv.absent j hj
  · intro j
    rw [hcall]
    split
    · refine ⟨?_, ?_, ?_, fun _ => (inv.shape i).prepared (by simp [hphase]), ?_, ?_⟩ <;>
        simp [c, CommitPhase.isFirst, CommitPhase.isRetry]
    · exact inv.shape j
  · intro j
    rw [hcall]
    split
    · refine ⟨?_, ?_, ?_, ?_, ?_, ?_⟩
      · -- its own row is the next row, and no committed row has the id
        rintro claim ⟨⟩
        exact ⟨rfl, Nat.lt_succ_self _, hnone⟩
      all_goals simp [c, CommitPhase.holdsClaim]
    · exact (inv.view j).of_agree (hagree _) (Nat.le_succ _)
  · -- no other call has inserted it
    have hother : ∀ j, j ≠ i → (t.calls j).own.isSome →
        (t.calls j).operationId ≠ (s.calls i).operationId := by
      intro j hj hown hid
      rw [hcall, if_neg hj] at hown hid
      rw [inv.not_pending hpending hj hid] at hown
      cases hown
    have hself : (t.calls i).operationId = (s.calls i).operationId := by
      rw [hcall, if_pos rfl]
      rfl
    intro j k hj hk hjk
    by_cases hji : j = i
    · by_contra hne
      exact hother k (fun h => hne (hji.trans h.symm)) hk (by rw [← hjk, hji, hself])
    · by_cases hki : k = i
      · exact absurd (by rw [hjk, hki, hself]) (hother j hji hj)
      · rw [hcall, if_neg hji] at hj hjk
        rw [hcall, if_neg hki] at hk hjk
        exact inv.alone j k hj hk hjk
  · intro j claim hj w worker hw shown hshown
    rw [hcall] at hj hshown
    split at hj
    · -- the row is new
      obtain rfl := Option.some.inj hj
      exact ((inv.workers w worker hw).rows _ shown hshown).ne
    · rename_i hne
      rw [if_neg hne] at hshown
      exact inv.unseen j claim hj w worker hw shown hshown

/-- A call holds a claim only if the claim is its own or committed. -/
theorem ClaimInv.idle_of_none (inv : s.ClaimInv encode) {i : ℕ} (hown : (s.calls i).own = none)
    (hnone : s.tables.claims (s.calls i).operationId = none) :
    (s.calls i).phase.holdsClaim = false := by
  by_contra hholds
  obtain ⟨⟨c, hc, -⟩, -⟩ := (inv.view i).shared (by simpa using hholds) hown
  rw [hnone] at hc
  cases hc

/-- A committed claim is nobody's own. -/
theorem ClaimInv.own_eq_none (inv : s.ClaimInv encode) {i : ℕ} {c : ClaimRow}
    (h : s.tables.claims (s.calls i).operationId = some c) : (s.calls i).own = none := by
  by_contra hown
  obtain ⟨claim, hclaim⟩ := Option.ne_none_iff_exists'.mp hown
  rw [((inv.view i).own claim hclaim).2.2] at h
  cases h

/-- A claim appears where there was none. -/
theorem ClaimInv.view_of_new (inv : s.ClaimInv encode) {id : String} {j : ℕ}
    (hnone : s.tables.claims id = none) (hother : ∀ id', id' ≠ id → Agree s t id')
    (hpurges : t.purgeCount id = s.purgeCount id) (hrow : s.nextRow ≤ t.nextRow)
    (hown : (s.calls j).operationId = id → (s.calls j).own = none) : t.CallView (s.calls j) := by
  by_cases hid : (s.calls j).operationId = id
  · refine (inv.view j).of_idle (hown hid) (inv.idle_of_none (hown hid) (by rw [hid, hnone])) ?_
    rw [hid, hpurges, hnone]
    exact fun h => ⟨h, fun _ hc => by cases hc⟩
  · exact (inv.view j).of_agree (hother _ hid) hrow

theorem WorkerView.of_new {w : RetentionWorker} (h : s.WorkerView w) {id : String}
    {claim : ClaimRow} (hnone : s.tables.claims id = none)
    (hclaim : t.tables.claims id = some claim)
    (hother : ∀ id', id' ≠ id → t.tables.claims id' = s.tables.claims id' ∧
      t.tables.effects id' = s.tables.effects id')
    (hrow : s.nextRow ≤ t.nextRow)
    (hnew : ∀ c, w.snapshot.claims id = some c → c.row ≠ claim.row) : t.WorkerView w := by
  refine ⟨fun id' c hc => lt_of_lt_of_le (h.rows id' c hc) hrow, ?_, h.nodup, ?_⟩
  · intro id' c c' hc hc' hsame
    by_cases hid : id' = id
    · rw [hid, hclaim] at hc'
      obtain rfl := Option.some.inj hc'
      exact absurd hsame (hnew c (hid ▸ hc))
    · rw [(hother id' hid).1] at hc'
      rw [(hother id' hid).2]
      exact h.snapshot id' c c' hc hc' hsame
  · intro id' hdue
    have hid : id' ≠ id := by
      rintro rfl
      obtain ⟨c, hc, -⟩ := h.due id' hdue
      rw [hnone] at hc
      cases hc
    rw [(hother id' hid).1, (hother id' hid).2]
    exact h.due id' hdue

theorem TablesInv.headers_eq_none (inv : s.TablesInv encode) {id : String}
    (h : s.tables.claims id = none) : s.tables.headers id = none := by
  by_contra hheader
  obtain ⟨c, hc, -⟩ := (inv.header id).mp (Option.isSome_iff_ne_none.mpr hheader)
  rw [h] at hc
  cases hc

/-- The tables after the commit of a first attempt. -/
theorem TablesInv.commit (inv : s.TablesInv encode) (commit : Commit) (hvalid : commit.Valid)
    {claim : ClaimRow} (hlive : claim.isLive = true) (hrow : claim.row < s.nextRow)
    (hnone : s.tables.claims commit.request.operationId = none) {calls : ℕ → CommitCall} :
    TablesInv encode { s with
      calls
      tables := commitTables encode s.tables commit.request commit.effects claim commit.revisions
      history := s.history ++ [commit.happening] } := by
  have hheader := inv.headers_eq_none hnone
  have heffects := (inv.bare _ hheader).2
  refine ⟨?_, ?_, ?_, ?_, ?_, ?_, ?_⟩
  · intro id
    simp only [Live, commitTables, Function.update_apply]
    split
    · simp [hlive]
    · exact inv.header id
  · intro id
    simp only [commitTables, Function.update_apply]
    split
    · simp
    · rename_i hid
      intro h
      refine ⟨(inv.bare id h).1, ?_⟩
      split
      · exact (inv.bare id h).2
      · rw [Function.update_of_ne hid]
        exact (inv.bare id h).2
  · intro id c
    simp only [commitTables, Function.update_apply]
    split
    · rintro ⟨⟩
      exact hrow
    · exact inv.rows id c
  · intro id c
    simp only [commitTables, Function.update_apply]
    split
    · rintro ⟨⟩ -
      simp only [ClaimRow.isLive, Bool.and_eq_true, decide_eq_true_eq] at hlive
      exact hlive.1
    · exact inv.retired id c
  · intro id
    have hcounts := inv.counts id
    have hkind : claim.kind = .multi := by
      simp only [ClaimRow.isLive, Bool.and_eq_true, decide_eq_true_eq] at hlive
      exact hlive.1
    simp only [commitCount, purgeCount, List.countP_append, List.countP_singleton, commitTables,
      Function.update_apply, Commit.happening, Happening.applies, Happening.purges] at hcounts ⊢
    -- the operation itself is counted once, as it had no claim before
    by_cases hid : id = commit.request.operationId
    · subst hid
      rw [hnone] at hcounts
      simp [hkind] at hcounts ⊢
      omega
    · simp [hid, Ne.symm hid] at hcounts ⊢
      exact hcounts
  · intro x hx id happlies
    rcases List.mem_append.mp hx with hx | hx
    · exact inv.committed x hx id happlies
    · exact ⟨commit, hvalid, (List.mem_singleton.mp hx).symm⟩
  · intro id header
    simp only [commitTables, Function.update_apply]
    -- the receipt is that of the commit, other receipts are old ones
    by_cases hid : id = commit.request.operationId
    · subst hid
      rw [if_pos rfl, if_pos rfl]
      rintro ⟨⟩
      refine ⟨commit, hvalid, by simp, rfl, rfl, rfl, ?_⟩
      rw [effectsRow]
      split
      · exact heffects
      · rw [Function.update_self]
    · rw [if_neg hid, if_neg hid]
      intro h
      obtain ⟨c, hc, hmem, hcid, hrest⟩ := inv.stored id header h
      refine ⟨c, hc, List.mem_append_left _ hmem, hcid, hrest.1, hrest.2.1, ?_⟩
      split
      · exact hrest.2.2
      · rw [Function.update_of_ne hid]
        exact hrest.2.2

/-- A first attempt commits. -/
theorem ClaimInv.commitFirst (inv : s.ClaimInv encode) {i : ℕ} {revisions : List Revision}
    {claim : ClaimRow} (hphase : (s.calls i).phase = .committing revisions)
    (hown : (s.calls i).own = some claim) :
    ClaimInv encode { s.answer i (.ok (.applied
        (((s.calls i).request.rows revisions).map (·.receipt)) (s.calls i).request.result)) with
      tables := commitTables encode s.tables (s.calls i).request (s.calls i).effects claim
        revisions } := by
  obtain ⟨hlength, hfits⟩ := (inv.shape i).committing revisions hphase
  obtain ⟨hlive, hrow, hnone⟩ := (inv.view i).own claim hown
  have hi := inv.lt_callCount (i := i) (by simp [hphase])
  have hprepared := (inv.shape i).prepared (by simp [hphase])
  set commit : Commit := ⟨i, (s.calls i).request, (s.calls i).effects, revisions⟩
  set done : CommitCall := { s.calls i with own := none, phase := .finished }
  set t : ClaimSystem := { s.answer i (.ok (.applied
        (((s.calls i).request.rows revisions).map (·.receipt)) (s.calls i).request.result)) with
      tables := commitTables encode s.tables (s.calls i).request (s.calls i).effects claim
        revisions }
  have hcall : ∀ j, t.calls j = if j = i then done else s.calls j := fun j =>
    Function.update_apply ..
  have hclaims : ∀ id, t.tables.claims id =
      if id = (s.calls i).operationId then some claim else s.tables.claims id := fun id =>
    Function.update_apply ..
  have hpurges : ∀ id, t.purgeCount id = s.purgeCount id := fun id =>
    countP_append_of_none fun x hx => by rw [List.mem_singleton.mp hx]; rfl
  have hagree : ∀ id, id ≠ (s.calls i).operationId → Agree s t id := fun id hid =>
    ⟨Function.update_of_ne hid .., Function.update_of_ne hid .., Function.update_of_ne hid ..,
      fun h => h, hpurges id⟩
  have heffects : ∀ id, id ≠ (s.calls i).operationId →
      t.tables.effects id = s.tables.effects id := by
    intro id hid
    show (if (s.calls i).effects.isEmpty then s.tables.effects else _) id = _
    split
    · rfl
    · exact Function.update_of_ne hid ..
  -- no other call has inserted the claim
  have hothers : ∀ j, j ≠ i → (s.calls j).operationId = (s.calls i).operationId →
      (s.calls j).own = none := by
    intro j hj hid
    by_contra hne
    exact hj (inv.alone j i (Option.isSome_iff_ne_none.mpr hne) (by rw [hown]; rfl) hid)
  refine ⟨inv.tables.commit commit ⟨hfits, hlength, hprepared⟩ hlive hrow
    hnone, ?_, ?_, ?_, ?_, ?_, inv.workerAbsent, ?_, inv.disjoint⟩
  · intro j hj
    have hj' : s.callCount ≤ j := hj
    rw [hcall, if_neg (by omega)]
    exact inv.absent j hj'
  · intro j
    rw [hcall]
    split
    · exact .finished rfl rfl hprepared
    · exact inv.shape j
  · intro j
    rw [hcall]
    split
    · exact .finished rfl rfl
    · rename_i hj
      exact inv.view_of_new hnone hagree (hpurges _) le_rfl (hothers j hj)
  · intro j k hj hk hjk
    rw [hcall] at hj hk
    split at hj
    · cases hj
    · split at hk
      · cases hk
      · rename_i hji hki
        rw [hcall, hcall, if_neg hji, if_neg hki] at hjk
        exact inv.alone j k hj hk hjk
  · intro j c hj
    rw [hcall] at hj ⊢
    split at hj
    · cases hj
    · rename_i hji
      rw [if_neg hji]
      exact inv.unseen j c hj
  · intro w worker hw
    refine (inv.workers w worker hw).of_new hnone ((hclaims _).trans (if_pos rfl)) ?_ le_rfl
      (inv.unseen i claim hown w worker hw)
    intro id hid
    exact ⟨(hclaims id).trans (if_neg hid), heffects id hid⟩

/-- A claim of another operation family. -/
theorem ClaimInv.otherClaim (inv : s.ClaimInv encode) {id : String} {kind : OperationKind} {now : ℕ}
    (hkind : kind ≠ .multi) (hnone : s.tables.claims id = none)
    (hpending : s.claimPending s.callCount id = false) :
    ClaimInv encode { s with
      tables := { s.tables with
        claims := Function.update s.tables.claims id (some ⟨s.nextRow, kind, now, none⟩) },
      nextRow := s.nextRow + 1 } := by
  set claim : ClaimRow := ⟨s.nextRow, kind, now, none⟩
  set t : ClaimSystem := { s with
      tables := { s.tables with claims := Function.update s.tables.claims id (some claim) },
      nextRow := s.nextRow + 1 }
  have hclaims : ∀ id', t.tables.claims id' = if id' = id then some claim else
      s.tables.claims id' := fun id' => Function.update_apply ..
  have hlive : ∀ id', t.Live id' ↔ s.Live id' := by
    intro id'
    rw [Live, Live, hclaims]
    split
    · rename_i hid
      simp [hid, hnone, claim, ClaimRow.isLive, hkind]
    · rfl
  have hagree : ∀ id', id' ≠ id → Agree s t id' := fun id' hid =>
    ⟨(hclaims id').trans (if_neg hid), rfl, rfl, fun h => h, rfl⟩
  have hothers : ∀ j, (s.calls j).operationId = id → (s.calls j).own = none := by
    intro j hid
    by_cases hj : j = s.callCount
    · rw [inv.absent j hj.ge]
    · exact inv.not_pending hpending hj hid
  refine ⟨⟨?_, inv.tables.bare, ?_, ?_, ?_, inv.tables.committed, inv.tables.stored⟩, inv.absent,
    inv.shape, ?_, inv.alone, inv.unseen, inv.workerAbsent, ?_, inv.disjoint⟩
  · intro id'
    rw [hlive]
    exact inv.tables.header id'
  · intro id' c
    rw [hclaims]
    split
    · rintro ⟨⟩
      exact Nat.lt_succ_self _
    · exact fun hc => Nat.lt_succ_of_lt (inv.tables.rows id' c hc)
  · intro id' c
    rw [hclaims]
    split
    · rintro ⟨⟩ hretired
      cases hretired
    · exact inv.tables.retired id' c
  · intro id'
    have hcounts := inv.tables.counts id'
    rw [hclaims]
    split
    · rename_i hid
      rw [hid, hnone] at hcounts
      rw [hid]
      show s.commitCount id = s.purgeCount id + _
      simpa [claim, hkind] using hcounts
    · exact hcounts
  · intro j
    exact inv.view_of_new hnone hagree rfl (Nat.le_succ _) (hothers j)
  · intro w worker hw
    refine (inv.workers w worker hw).of_new hnone ((hclaims _).trans (if_pos rfl)) ?_
      (Nat.le_succ _) ?_
    · intro id' hid
      exact ⟨(hclaims id').trans (if_neg hid), rfl⟩
    · intro c hc
      exact ((inv.workers w worker hw).rows id c hc).ne

/-! ### Steps of maintenance statements -/

/-- A maintenance statement starts. -/
theorem ClaimInv.openWorker (inv : s.ClaimInv encode) {kind : RetentionKind} {now retention : ℕ} :
    ClaimInv encode { s with
      workers := Function.update s.workers s.workerCount
        (some { kind, now, retention, snapshot := s.tables })
      workerCount := s.workerCount + 1 } := by
  set worker : RetentionWorker := { kind, now, retention, snapshot := s.tables }
  set t : ClaimSystem := { s with
    workers := Function.update s.workers s.workerCount (some worker)
    workerCount := s.workerCount + 1 }
  have hworker : ∀ w, t.workers w = if w = s.workerCount then some worker else s.workers w :=
    fun w => Function.update_apply ..
  have htaken : ∀ id, t.Taken id → s.Taken id := by
    rintro id ⟨w, worker', hw, hdue⟩
    rw [hworker] at hw
    split at hw
    · obtain rfl := Option.some.inj hw
      cases hdue
    · exact ⟨w, worker', hw, hdue⟩
  refine ⟨inv.tables.congr rfl le_rfl rfl, inv.absent, inv.shape, ?_, inv.alone, ?_, ?_, ?_, ?_⟩
  · intro j
    exact (inv.view j).of_agree ⟨rfl, rfl, rfl, htaken _, rfl⟩ le_rfl
  · intro j claim hj w worker' hw c hc
    rw [hworker] at hw
    split at hw
    · obtain rfl := Option.some.inj hw
      have hnone := ((inv.view j).own claim hj).2.2
      rw [show s.tables.claims (s.calls j).operationId = some c from hc] at hnone
      cases hnone
    · exact inv.unseen j claim hj w worker' hw c hc
  · intro w hw
    have hw' : s.workerCount + 1 ≤ w := hw
    rw [hworker, if_neg (by omega)]
    exact inv.workerAbsent w (by omega)
  · intro w worker' hw
    rw [hworker] at hw
    split at hw
    · obtain rfl := Option.some.inj hw
      refine ⟨inv.tables.rows, ?_, List.nodup_nil, fun id hid => by cases hid⟩
      intro id c c' hc hc' _
      obtain rfl : c = c' := Option.some.inj (hc.symm.trans hc')
      exact ⟨rfl, fun hlive => (inv.tables.header id).mpr ⟨c, hc, hlive⟩⟩
    · exact (inv.workers w worker' hw).congr rfl le_rfl
  · intro w w' a a' id hw hw' hid hid'
    rw [hworker] at hw hw'
    split at hw
    · obtain rfl := Option.some.inj hw
      cases hid
    · split at hw'
      · obtain rfl := Option.some.inj hw'
        cases hid'
      · exact inv.disjoint w w' a a' id hw hw' hid hid'

/-- The locks and the changes of a statement. -/
theorem ClaimInv.setWorker (inv : s.ClaimInv encode) {w : ℕ} {worker worker' : RetentionWorker}
    (hw : s.workers w = some worker) (hsnapshot : worker'.snapshot = worker.snapshot)
    (hview : s.WorkerView worker')
    (hnew : ∀ id ∈ worker'.due, id ∈ worker.due ∨ ¬ s.Taken id ∧
      (∃ c, s.tables.claims id = some c) ∧
      ∀ j, (s.calls j).operationId = id → (s.calls j).phase.holdsClaim = false) :
    ClaimInv encode { s with workers := Function.update s.workers w (some worker') } := by
  set t : ClaimSystem := { s with workers := Function.update s.workers w (some worker') }
  have hworker : ∀ v, t.workers v = if v = w then some worker' else s.workers v :=
    fun v => Function.update_apply ..
  have htaken : ∀ id, t.Taken id → s.Taken id ∨ id ∈ worker'.due := by
    rintro id ⟨v, a, hv, hid⟩
    rw [hworker] at hv
    split at hv
    · obtain rfl := Option.some.inj hv
      exact Or.inr hid
    · exact Or.inl ⟨v, a, hv, hid⟩
  refine ⟨inv.tables.congr rfl le_rfl rfl, inv.absent, inv.shape, ?_, inv.alone, ?_, ?_, ?_, ?_⟩
  · intro j
    by_cases hbefore : t.Taken (s.calls j).operationId → s.Taken (s.calls j).operationId
    · exact (inv.view j).of_agree ⟨rfl, rfl, rfl, hbefore, rfl⟩ le_rfl
    · -- the statement has just locked the claim, so the call does not hold it
      push Not at hbefore
      obtain ⟨htaken', hfree⟩ := hbefore
      have hdue := (htaken _ htaken').resolve_left hfree
      rcases hnew _ hdue with h | ⟨-, ⟨c, hc⟩, hidle⟩
      · exact absurd ⟨w, worker, hw, h⟩ hfree
      · exact (inv.view j).of_idle (inv.own_eq_none hc) (hidle j rfl)
          fun hpurge => ⟨hpurge, fun claim hclaim => ⟨claim, hclaim, rfl⟩⟩
  · -- the snapshot is unchanged, so what it shows is too
    intro j claim hj v a hv c hc
    rw [hworker] at hv
    split at hv
    · obtain rfl := Option.some.inj hv
      exact inv.unseen j claim hj w worker hw c (hsnapshot ▸ hc)
    · exact inv.unseen j claim hj v a hv c hc
  · intro v hv
    rw [hworker]
    split
    · rename_i h
      rw [h] at hv
      rw [inv.workerAbsent w hv] at hw
      cases hw
    · exact inv.workerAbsent v hv
  · intro v a hv
    rw [hworker] at hv
    split at hv
    · obtain rfl := Option.some.inj hv
      exact hview.congr rfl le_rfl
    · exact (inv.workers v a hv).congr rfl le_rfl
  · -- a newly locked claim was locked by nobody
    have hone : ∀ v a id, v ≠ w → s.workers v = some a → id ∈ a.due → id ∉ worker'.due := by
      intro v a id hv ha hid hid'
      rcases hnew id hid' with h | ⟨hfree, -⟩
      · exact hv (inv.disjoint v w a worker id ha hw hid h)
      · exact hfree ⟨v, a, ha, hid⟩
    intro v v' a a' id hv hv' hid hid'
    rw [hworker] at hv hv'
    split at hv
    · obtain rfl := Option.some.inj hv
      split at hv'
      · rename_i h h'
        rw [h, h']
      · rename_i h
        exact absurd hid (hone v' a' id h hv' hid')
    · rename_i h
      split at hv'
      · obtain rfl := Option.some.inj hv'
        exact absurd hid' (hone v a id h hv hid)
      · exact inv.disjoint v v' a a' id hv hv' hid hid'

/-- The state without a statement that ended. -/
theorem taken_of_endWorker {w : ℕ} {id : String} {tables : ReceiptTables} {history : List Happening}
    (h : Taken { s with tables, history, workers := Function.update s.workers w none } id) :
    ∃ v a, v ≠ w ∧ s.workers v = some a ∧ id ∈ a.due := by
  obtain ⟨v, a, hv, hid⟩ := h
  dsimp only at hv
  rw [Function.update_apply] at hv
  split at hv
  · cases hv
  · rename_i hne
    exact ⟨v, a, hne, hv, hid⟩

theorem ClaimInv.endWorker (inv : s.ClaimInv encode) {w : ℕ} (tables : ReceiptTables)
    (history : List Happening)
    (htables : TablesInv encode
      { s with tables, history, workers := Function.update s.workers w none })
    (hview : ∀ j, CallView
      { s with tables, history, workers := Function.update s.workers w none } (s.calls j))
    (hworkers : ∀ v a, v ≠ w → s.workers v = some a → WorkerView
      { s with tables, history, workers := Function.update s.workers w none } a) :
    ClaimInv encode { s with tables, history, workers := Function.update s.workers w none } := by
  have hbefore : ∀ v a, Function.update s.workers w none v = some a →
      v ≠ w ∧ s.workers v = some a := by
    intro v a hv
    rw [Function.update_apply] at hv
    split at hv
    · cases hv
    · rename_i hne
      exact ⟨hne, hv⟩
  refine ⟨htables, inv.absent, inv.shape, hview, inv.alone, ?_, ?_, ?_, ?_⟩
  · intro j claim hj v a hv
    exact inv.unseen j claim hj v a (hbefore v a hv).2
  · intro v hv
    dsimp only
    rw [Function.update_apply]
    split
    · rfl
    · exact inv.workerAbsent v hv
  · intro v a hv
    exact hworkers v a (hbefore v a hv).1 (hbefore v a hv).2
  · intro v v' a a' id hv hv'
    exact inv.disjoint v v' a a' id (hbefore v a hv).2 (hbefore v' a' hv').2

/-- A call on an operation that a statement has locked waits. -/
theorem ClaimInv.idle_of_due (inv : s.ClaimInv encode) {w : ℕ} {worker : RetentionWorker}
    (hw : s.workers w = some worker) {j : ℕ} (hdue : (s.calls j).operationId ∈ worker.due) :
    (s.calls j).own = none ∧ (s.calls j).phase.holdsClaim = false := by
  obtain ⟨c, hc, -⟩ := (inv.workers w worker hw).due _ hdue
  have hown := inv.own_eq_none hc
  refine ⟨hown, ?_⟩
  by_contra hholds
  exact ((inv.view j).shared (by simpa using hholds) hown).2 ⟨w, worker, hw, hdue⟩

/-- The retirement of a worker's claims. -/
theorem ClaimInv.retire (inv : s.ClaimInv encode) {w : ℕ} {worker : RetentionWorker}
    (hw : s.workers w = some worker) (hkind : worker.kind = .retirement) :
    ClaimInv encode { s with
      tables := retentionTables s.tables worker
      workers := Function.update s.workers w none } := by
  have hdue : ∀ id ∈ worker.due, ∃ c, s.tables.claims id = some c ∧ c.kind = .multi ∧
      s.tables.effects id = none ∧ (worker.snapshot.headers id).isSome := by
    intro id hid
    obtain ⟨c, hc, hmulti, h⟩ := (inv.workers w worker hw).due id hid
    simp only [hkind] at h
    exact ⟨c, hc, hmulti, h.2⟩
  set t : ClaimSystem := { s with
    tables := retentionTables s.tables worker
    workers := Function.update s.workers w none }
  -- the tables afterwards: a due claim is marked, and its receipt is gone
  have hclaims : ∀ id, t.tables.claims id = if id ∈ worker.due then
      (s.tables.claims id).map fun c => { c with retiredAt := some worker.now }
      else s.tables.claims id := by
    intro id
    simp only [t, retentionTables, hkind]
  have hheaders : ∀ id, t.tables.headers id = if id ∈ worker.due then none
      else s.tables.headers id := by
    intro id
    simp only [t, retentionTables, hkind]
    by_cases hid : id ∈ worker.due
    · obtain ⟨-, -, -, -, hheader⟩ := hdue id hid
      rw [if_pos ⟨hid, hheader⟩, if_pos hid]
    · rw [if_neg fun h => hid h.1, if_neg hid]
  have hrecords : ∀ id, t.tables.records id = if id ∈ worker.due then []
      else s.tables.records id := by
    intro id
    simp only [t, retentionTables, hkind]
    by_cases hid : id ∈ worker.due
    · obtain ⟨-, -, -, -, hheader⟩ := hdue id hid
      rw [if_pos ⟨hid, hheader⟩, if_pos hid]
    · rw [if_neg fun h => hid h.1, if_neg hid]
  have heffects : t.tables.effects = s.tables.effects := by
    simp only [t, retentionTables, hkind]
  have hclaim : ∀ id c, t.tables.claims id = some c → ∃ c', s.tables.claims id = some c' ∧
      c'.row = c.row ∧ c'.kind = c.kind ∧
      (if id ∈ worker.due then c.retiredAt = some worker.now else c = c') := by
    intro id c hc
    rw [hclaims] at hc
    split at hc
    · rename_i hid
      obtain ⟨c', hc', rfl⟩ := Option.map_eq_some_iff.mp hc
      exact ⟨c', hc', rfl, rfl, by rw [if_pos hid]⟩
    · rename_i hid
      exact ⟨c, hc, rfl, rfl, by rw [if_neg hid]⟩
  -- first the tables, then the calls and the other workers
  refine inv.endWorker _ s.history ⟨?_, ?_, ?_, ?_, ?_, inv.tables.committed, ?_⟩ ?_ ?_
  · intro id
    rw [hheaders, Live, hclaims]
    split
    · obtain ⟨c, hc, -⟩ := hdue id ‹_›
      simp [hc, ClaimRow.isLive]
    · exact inv.tables.header id
  · intro id
    rw [hheaders, hrecords, heffects]
    split
    · exact fun _ => ⟨rfl, (hdue id ‹_›).choose_spec.2.2.1⟩
    · exact inv.tables.bare id
  · intro id c hc
    obtain ⟨c', hc', hrow, -⟩ := hclaim id c hc
    rw [← hrow]
    exact inv.tables.rows id c' hc'
  · intro id c hc hretired
    obtain ⟨c', hc', -, hsame, hcase⟩ := hclaim id c hc
    split at hcase
    · rename_i hid
      obtain ⟨c'', hc'', hmulti, -⟩ := hdue id hid
      rw [← hsame, Option.some.inj (hc'.symm.trans hc''), hmulti]
    · rw [hcase] at hretired ⊢
      exact inv.tables.retired id c' hc' hretired
  · intro id
    rw [hclaims]
    have hcounts := inv.tables.counts id
    split
    · rw [Option.any_map]
      exact hcounts
    · exact hcounts
  · intro id header
    rw [hheaders, hrecords, heffects]
    split
    · intro h
      cases h
    · exact inv.tables.stored id header
  · -- a call of a retired operation holds nothing; the others see what they saw
    intro j
    by_cases hid : (s.calls j).operationId ∈ worker.due
    · obtain ⟨hown, hholds⟩ := inv.idle_of_due hw hid
      refine (inv.view j).of_idle hown hholds fun hpurge => ⟨hpurge, fun claim hc => ?_⟩
      exact ⟨{ claim with retiredAt := some worker.now },
        (hclaims _).trans (by rw [if_pos hid, hc]; rfl), rfl⟩
    · refine (inv.view j).of_agree ⟨(hclaims _).trans (if_neg hid), (hheaders _).trans (if_neg hid),
        (hrecords _).trans (if_neg hid), fun h => ?_, rfl⟩ le_rfl
      obtain ⟨v, a, -, hv, hmem⟩ := taken_of_endWorker h
      exact ⟨v, a, hv, hmem⟩
  · -- another worker chose other claims
    intro v a hne hv
    have hview := inv.workers v a hv
    refine ⟨hview.rows, ?_, hview.nodup, ?_⟩
    · intro id c c' hc hc' hsame
      rw [heffects]
      obtain ⟨c'', hc'', hrow, -, hcase⟩ := hclaim id c' hc'
      obtain ⟨heq, hheader⟩ := hview.snapshot id c c'' hc hc'' (hsame.trans hrow.symm)
      refine ⟨heq, fun hlive => ?_⟩
      split at hcase
      · simp [ClaimRow.isLive, hcase] at hlive
      · exact hheader (hcase ▸ hlive)
    · intro id hid
      have hid' : id ∉ worker.due := fun h => hne (inv.disjoint v w a worker id hv hw hid h)
      rw [hclaims, if_neg hid', heffects]
      exact hview.due id hid

theorem purgeCount_append {due : List String} (hnodup : due.Nodup) {history : List Happening}
    (id : String) : (history ++ due.map Happening.purged).countP (·.purges id) =
      history.countP (·.purges id) + if id ∈ due then 1 else 0 := by
  have hmap : (due.map Happening.purged).countP (·.purges id) = due.count id := by
    rw [List.countP_map, List.count]
    exact List.countP_congr fun x _ => by simp [Happening.purges]
  rw [List.countP_append, hmap]
  split
  · rename_i hid
    rw [List.count_eq_one_of_mem hnodup hid]
  · rename_i hid
    rw [List.count_eq_zero_of_not_mem hid]

/-- The purge of a worker's claims. -/
theorem ClaimInv.purge (inv : s.ClaimInv encode) {w : ℕ} {worker : RetentionWorker}
    (hw : s.workers w = some worker) (hkind : worker.kind = .purge) :
    ClaimInv encode { s with
      tables := retentionTables s.tables worker
      workers := Function.update s.workers w none
      history := s.history ++ worker.due.map .purged } := by
  have hdue : ∀ id ∈ worker.due, ∃ c, s.tables.claims id = some c ∧ c.kind = .multi ∧
      c.retiredAt.isSome := by
    intro id hid
    obtain ⟨c, hc, hmulti, h⟩ := (inv.workers w worker hw).due id hid
    simp only [hkind] at h
    exact ⟨c, hc, hmulti, h⟩
  set t : ClaimSystem := { s with
    tables := retentionTables s.tables worker
    workers := Function.update s.workers w none
    history := s.history ++ worker.due.map .purged }
  -- the tables afterwards: the due claims are gone, and nothing else
  have htables : t.tables = { s.tables with
      claims := fun id => if id ∈ worker.due then none else s.tables.claims id } := by
    simp only [t, retentionTables, hkind]
  have hclaims : ∀ id, t.tables.claims id = if id ∈ worker.due then none
      else s.tables.claims id := by
    intro id
    rw [htables]
  have hheaders : t.tables.headers = s.tables.headers := by rw [htables]
  have hrecords : t.tables.records = s.tables.records := by rw [htables]
  have heffects : t.tables.effects = s.tables.effects := by rw [htables]
  have hpurges : ∀ id, t.purgeCount id = s.purgeCount id + if id ∈ worker.due then 1 else 0 :=
    purgeCount_append (inv.workers w worker hw).nodup
  have hcommits : ∀ id, t.commitCount id = s.commitCount id := by
    intro id
    refine countP_append_of_none fun x hx => ?_
    obtain ⟨_, -, rfl⟩ := List.mem_map.mp hx
    rfl
  -- first the tables, then the calls and the other workers
  refine inv.endWorker _ _ ⟨?_, ?_, ?_, ?_, ?_, ?_, ?_⟩ ?_ ?_
  · intro id
    rw [hheaders, Live, hclaims, inv.tables.header]
    split
    · obtain ⟨c, hc, -, hretired⟩ := hdue id ‹_›
      simp only [Live, hc, Option.some.injEq, exists_eq_left', reduceCtorEq, false_and, exists_false,
        iff_false, ClaimRow.isLive, Option.isNone_iff_eq_none, Bool.and_eq_true]
      intro h
      rw [h.2] at hretired
      cases hretired
    · rfl
  · rw [hheaders, hrecords, heffects]
    exact inv.tables.bare
  · intro id c
    rw [hclaims]
    split
    · intro h
      cases h
    · exact inv.tables.rows id c
  · intro id c
    rw [hclaims]
    split
    · intro h
      cases h
    · exact inv.tables.retired id c
  · intro id
    have hcounts := inv.tables.counts id
    show t.commitCount id = t.purgeCount id + _
    rw [hcommits, hpurges, hclaims]
    split
    · obtain ⟨c, hc, hmulti, -⟩ := hdue id ‹_›
      rw [hc] at hcounts
      simpa [hmulti] using hcounts
    · exact hcounts
  · intro x hx id happlies
    rcases List.mem_append.mp hx with hx | hx
    · exact inv.tables.committed x hx id happlies
    · obtain ⟨_, -, rfl⟩ := List.mem_map.mp hx
      cases happlies
  · intro id header
    rw [hheaders, hrecords, heffects]
    intro h
    obtain ⟨commit, hvalid, hmem, hrest⟩ := inv.tables.stored id header h
    exact ⟨commit, hvalid, List.mem_append_left _ hmem, hrest⟩
  · -- a purge of its claim is counted, so that the call knows of it
    intro j
    by_cases hid : (s.calls j).operationId ∈ worker.due
    · obtain ⟨hown, hholds⟩ := inv.idle_of_due hw hid
      refine (inv.view j).of_idle hown hholds fun hpurge => ?_
      have hpurge : t.purgeCount (s.calls j).operationId = 0 := hpurge
      rw [hpurges, if_pos hid] at hpurge
      omega
    · refine (inv.view j).of_agree ⟨(hclaims _).trans (if_neg hid), by rw [hheaders],
        by rw [hrecords], fun h => ?_, ?_⟩ le_rfl
      · obtain ⟨v, a, -, hv, hmem⟩ := taken_of_endWorker h
        exact ⟨v, a, hv, hmem⟩
      · rw [hpurges, if_neg hid, Nat.add_zero]
  · -- another worker chose other claims
    intro v a hne hv
    have hview := inv.workers v a hv
    refine ⟨hview.rows, ?_, hview.nodup, ?_⟩
    · intro id c c' hc hc' hsame
      rw [hclaims] at hc'
      rw [heffects]
      split at hc'
      · cases hc'
      · exact hview.snapshot id c c' hc hc' hsame
    · intro id hid
      have hid' : id ∉ worker.due := fun h => hne (inv.disjoint v w a worker id hv hw hid h)
      rw [hclaims, if_neg hid', heffects]
      exact hview.due id hid

/-- A statement locks a claim that nobody holds. -/
theorem ClaimInv.lockDue (inv : s.ClaimInv encode) {w : ℕ} {worker : RetentionWorker} {id : String}
    {shown claim : ClaimRow} (hw : s.workers w = some worker)
    (hclaim : s.tables.claims id = some claim) (hshown : worker.snapshot.claims id = some shown)
    (hrow : shown.row = claim.row) (hmay : worker.mayTake id = true)
    (hchooses : worker.chooses claim = true) (hshared : s.claimShared id = false)
    (htaken : s.claimTaken id = false) :
    ClaimInv encode { s with
      workers := Function.update s.workers w (some { worker with due := worker.due ++ [id] }) } := by
  have hview := inv.workers w worker hw
  have hfree := inv.not_taken_of_claimTaken htaken
  refine inv.setWorker hw rfl ⟨hview.rows, hview.snapshot, ?_, ?_⟩ ?_
  · refine List.nodup_append.mpr ⟨hview.nodup, List.nodup_singleton id, ?_⟩
    rintro a ha b hb rfl
    exact hfree ⟨w, worker, hw, List.mem_singleton.mp hb ▸ ha⟩
  · intro id' hid'
    rcases List.mem_append.mp hid' with hid' | hid'
    · exact hview.due id' hid'
    · obtain rfl := List.mem_singleton.mp hid'
      obtain ⟨heffects, hheader⟩ := hview.snapshot id' shown claim hshown hclaim hrow
      refine ⟨claim, hclaim, ?_⟩
      simp only [RetentionWorker.chooses, RetentionWorker.mayTake] at hchooses hmay
      dsimp only
      cases hkind : worker.kind with
      | retirement =>
        simp only [hkind, Bool.and_eq_true, Option.isNone_iff_eq_none] at hchooses hmay
        have hlive := hchooses.1
        refine ⟨?_, hlive, heffects.trans hmay, hheader hlive⟩
        simp only [ClaimRow.isLive, Bool.and_eq_true, decide_eq_true_eq] at hlive
        exact hlive.1
      | purge =>
        simp only [hkind, Bool.and_eq_true, decide_eq_true_eq] at hchooses
        refine ⟨hchooses.1, ?_⟩
        obtain ⟨time, htime, -⟩ := ((Option.any_eq_true _ _).mp hchooses.2)
        rw [htime]
        rfl
  · intro id' hid'
    rcases List.mem_append.mp hid' with hid' | hid'
    · exact Or.inl hid'
    · obtain rfl := List.mem_singleton.mp hid'
      refine Or.inr ⟨hfree, ⟨claim, hclaim⟩, fun j hj => ?_⟩
      by_cases hlt : j < s.callCount
      · have := List.any_eq_false.mp hshared j (List.mem_range.mpr hlt)
        simpa [hj] using this
      · rw [inv.absent j (by omega)]
        rfl

theorem stepWorker_claimInv {e : ClaimEvent} (inv : s.ClaimInv encode)
    (h : s.stepWorker e = some t) : t.ClaimInv encode := by
  cases e with
  | openWorker kind now retention =>
    obtain rfl := Option.some.inj h
    exact inv.openWorker
  | lockDue w id =>
    simp only [stepWorker] at h
    split at h
    · rename_i worker claim hw hclaim
      simp only [Option.ite_none_right_eq_some, Option.some.injEq] at h
      obtain ⟨⟨-, -, hshown, hmay, hchooses, hshared, htaken⟩, rfl⟩ := h
      obtain ⟨shown, hshown, hrow⟩ := ((Option.any_eq_true _ _).mp hshown)
      simp only [Bool.decide_and, Bool.and_eq_true, decide_eq_true_eq] at hrow
      exact inv.lockDue hw hclaim hshown hrow.1 hmay hchooses (by simpa using hshared)
        (by simpa using htaken)
    · cases h
  | change w =>
    obtain ⟨worker, hw, rfl⟩ := Option.map_eq_some_iff.mp h
    have hview := inv.workers w worker hw
    exact inv.setWorker hw rfl ⟨hview.rows, hview.snapshot, hview.nodup, hview.due⟩
      fun id hid => Or.inl hid
  | commitWorker w =>
    simp only [stepWorker] at h
    split at h
    · rename_i worker hw
      simp only [Option.ite_none_right_eq_some, Option.some.injEq] at h
      obtain ⟨-, rfl⟩ := h
      cases hkind : worker.kind with
      | retirement => exact inv.retire hw hkind
      | purge => exact inv.purge hw hkind
    · cases h
  | cancelWorker w =>
    obtain rfl := Option.some.inj h
    refine inv.endWorker s.tables s.history
      (inv.tables.congr rfl le_rfl rfl) ?_ ?_
    · intro j
      refine (inv.view j).of_agree ⟨rfl, rfl, rfl, fun h => ?_, rfl⟩ le_rfl
      obtain ⟨v, a, -, hv, hmem⟩ := taken_of_endWorker h
      exact ⟨v, a, hv, hmem⟩
    · intro v a _ hv
      exact (inv.workers v a hv).congr rfl le_rfl
  | _ => cases h

/-! ### Every step -/

theorem stepCall_claimInv {e : ClaimEvent} (inv : s.ClaimInv encode)
    (h : s.stepCall decode encode e = some t) : t.ClaimInv encode := by
  cases e with
  | begin request effects =>
    simp only [stepCall] at h
    split at h
    · cases h
    · rename_i hprepare
      obtain rfl := Option.some.inj h
      exact inv.begin hprepare
  | insertClaim i now =>
    simp only [stepCall] at h
    split at h
    · cases h
    · rename_i hguard
      push Not at hguard
      obtain ⟨hphase, hpending, -⟩ := hguard
      split at h
      · rename_i hclaim
        obtain rfl := Option.some.inj h
        refine inv.setPhase (by simp [hphase]) ?_ ?_
        · exact (inv.shape i).setPhase (by simp [hphase]) (fun h => by cases h)
            (fun h => by cases h) (by simp)
            (by simp) (by simp)
        · exact (inv.view i).setPhase (fun h => by cases h) (fun _ _ _ => hclaim) (by simp)
            (by simp) (by simp)
      · rename_i hclaim
        obtain rfl := Option.some.inj h
        exact inv.insertClaim hphase (by simpa using hpending) (by simpa using hclaim)
  | openSelect i =>
    simp only [stepCall] at h
    split at h
    · cases h
    · rename_i hphase
      rw [not_ne_iff] at hphase
      obtain rfl := Option.some.inj h
      refine inv.setPhase (by simp [hphase]) ?_ ?_
      · exact (inv.shape i).setPhase (by simp [hphase]) (fun h => by cases h)
            (fun h => by cases h) (by simp)
          (by simp) (by simp)
      · refine (inv.view i).setPhase (fun h => by cases h) (by simp) ?_ (by simp) (by simp)
        -- the claim was there when the call tried to insert it; only a purge takes it away
        intro visible hvisible hown hpurge
        have hsome := (inv.view i).inserted hphase hown hpurge
        obtain ⟨claim, hclaim⟩ := Option.isSome_iff_exists.mp hsome
        refine ⟨claim, hclaim, ?_⟩
        rw [← CommitPhase.selecting.inj hvisible, hown, Option.none_or, hclaim]
        rfl
  | lockShare i =>
    simp only [stepCall] at h
    split at h
    · rename_i visible hphase
      exact inv.lockShare hphase h
    · cases h
  | insertHeader i =>
    simp only [stepCall] at h
    split at h
    · cases h
    · rename_i hguard
      push Not at hguard
      have hphase := hguard.1
      have hholds : (s.calls i).phase.holdsClaim = true := by rw [hphase]; rfl
      split at h
      · obtain rfl := Option.some.inj h
        exact inv.answer (by simp [hphase]) (by simp)
      · split at h
        · rename_i hheader
          obtain rfl := Option.some.inj h
          obtain ⟨c, hc, -⟩ := (inv.tables.header _).mp hheader
          exact inv.advance hholds rfl ((inv.shape i).setPhase (by simp [hphase])
          (fun h => by cases h)
            (fun _ => inv.own_eq_none hc) (by simp) (by simp) (by simp)) (by simp) (by simp)
        · rename_i hheader
          obtain rfl := Option.some.inj h
          refine inv.advance hholds rfl ((inv.shape i).setPhase (by simp [hphase]) ?_
            (fun h => by cases h) (by simp)
            ?_ (by simp)) (by simp) (by simp)
          · -- the claim of another transaction would come with a header
            intro _
            by_contra hown
            exact hheader ((inv.tables.header _).mpr
              ((inv.view i).shared hholds (by simpa using hown)).1)
          · intro rest revisions hlocking
            obtain ⟨rfl, rfl⟩ := CommitPhase.locking.inj hlocking
            exact ⟨[], rfl, rfl⟩
  | verify i =>
    simp only [stepCall] at h
    split at h
    · cases h
    · rename_i hphase
      rw [not_ne_iff] at hphase
      split at h
      · obtain rfl := Option.some.inj h
        exact inv.advance (by rw [hphase]; rfl) rfl ((inv.shape i).setPhase (by simp [hphase])
          (fun h => by cases h)
          (fun _ => (inv.shape i).retry (by rw [hphase]; rfl)) (by simp) (by simp) (by simp))
          (by simp) (by simp)
      · obtain rfl := Option.some.inj h
        exact inv.answer (by simp [hphase]) (by simp)
  | readHeader i =>
    simp only [stepCall] at h
    split at h
    · cases h
    · rename_i hphase
      rw [not_ne_iff] at hphase
      split at h
      · obtain rfl := Option.some.inj h
        exact inv.answer (by simp [hphase]) (by simp)
      · rename_i header hheader
        obtain rfl := Option.some.inj h
        refine inv.advance (by rw [hphase]; rfl) rfl ((inv.shape i).setPhase (by simp [hphase])
          (fun h => by cases h)
          (fun _ => (inv.shape i).retry (by rw [hphase]; rfl)) (by simp) (by simp) (by simp)) ?_
          (by simp)
        -- the header that was read is compared next
        intro header' hcomparing
        rw [← CommitPhase.comparing.inj hcomparing]
        exact hheader
  | readRows i =>
    simp only [stepCall] at h
    split at h
    · rename_i header hphase
      split at h
      · obtain rfl := Option.some.inj h
        refine inv.advance (by rw [hphase]; rfl) rfl ((inv.shape i).setPhase (by simp [hphase])
          (fun h => by cases h)
          (fun _ => (inv.shape i).retry (by rw [hphase]; rfl)) (by simp) (by simp) (by simp))
          (by simp) ?_
        intro records result hconfirming
        obtain ⟨rfl, rfl⟩ := CommitPhase.confirming.inj hconfirming
        exact ⟨header, (inv.view i).comparing header hphase, rfl, rfl⟩
      · obtain rfl := Option.some.inj h
        exact inv.answer (by simp [hphase]) (by simp)
    · cases h
  | lockRecord i =>
    simp only [stepCall] at h
    split at h
    · rename_i write rest revisions hphase
      split at h
      · cases h
      · obtain rfl := Option.some.inj h
        exact inv.lockRecord hphase
    · cases h
  | persist i =>
    simp only [stepCall] at h
    split at h
    · rename_i revisions hphase
      split at h
      · obtain rfl := Option.some.inj h
        exact inv.answer (by simp [hphase]) (by simp)
      · rename_i hchecks
        obtain rfl := Option.some.inj h
        -- at the end of the lock loop there is a revision for every write
        obtain ⟨locked, hwrites, hlength⟩ := (inv.shape i).locking _ _ hphase
        rw [List.append_nil] at hwrites
        refine inv.advance (by rw [hphase]; rfl) rfl ((inv.shape i).setPhase (by simp [hphase])
          (fun _ => (inv.shape i).first (by rw [hphase]; rfl)) (fun h => by cases h) (by simp)
          (by simp) ?_) (by simp) (by simp)
        intro revisions' hcommitting
        obtain rfl := CommitPhase.committing.inj hcommitting
        have hlength' : revisions.length = (s.calls i).request.writes.length := by
          rw [hlength, hwrites]
        exact ⟨hlength', fits_of_checkI64 hlength' hchecks⟩
    · cases h
  | refuse i e =>
    simp only [stepCall, Option.ite_none_right_eq_some, Option.some.injEq] at h
    obtain ⟨hfirst, rfl⟩ := h
    exact inv.answer (fun h => by rw [h] at hfirst; cases hfirst) (by simp)
  | commit i =>
    simp only [stepCall] at h
    split at h
    · rename_i records result hphase
      obtain rfl := Option.some.inj h
      exact inv.answer (by simp [hphase]) (by simp)
    · rename_i revisions claim hphase hown
      obtain rfl := Option.some.inj h
      exact inv.commitFirst hphase hown
    · cases h
  | cancel i =>
    simp only [stepCall, Option.ite_none_left_eq_some, Option.some.injEq] at h
    obtain ⟨hguard, rfl⟩ := h
    push Not at hguard
    have hclose := inv.close hguard.1 [] (fun x hx => by cases hx)
    rwa [List.append_nil] at hclose
  | _ => cases h

theorem step_claimInv {e : ClaimEvent} (inv : s.ClaimInv encode)
    (h : s.step decode encode e = some t) : t.ClaimInv encode := by
  cases e with
  | otherClaim id kind now =>
    simp only [step, Option.ite_none_left_eq_some, Option.some.injEq] at h
    obtain ⟨hguard, rfl⟩ := h
    push Not at hguard
    obtain ⟨hkind, hclaim, hpending⟩ := hguard
    exact inv.otherClaim hkind (by simpa using hclaim) (by simpa using hpending)
  | openWorker kind now retention =>
    exact stepWorker_claimInv (e := .openWorker kind now retention) inv h
  | lockDue w id => exact stepWorker_claimInv (e := .lockDue w id) inv h
  | change w => exact stepWorker_claimInv (e := .change w) inv h
  | commitWorker w => exact stepWorker_claimInv (e := .commitWorker w) inv h
  | cancelWorker w => exact stepWorker_claimInv (e := .cancelWorker w) inv h
  | _ =>
    simp only [step] at h
    exact stepCall_claimInv inv h

theorem init_claimInv : ClaimInv encode {} where
  tables := {
    header := fun id => by simp [Live]
    bare := fun id _ => ⟨rfl, rfl⟩
    rows := fun id c h => by cases h
    retired := fun id c h => by cases h
    counts := fun id => by simp [commitCount, purgeCount]
    committed := fun x hx => by cases hx
    stored := fun id header h => by cases h }
  absent _ _ := rfl
  shape _ := by refine ⟨?_, ?_, ?_, ?_, ?_, ?_⟩ <;> simp [CommitPhase.isFirst]
  view _ := by refine ⟨?_, ?_, ?_, ?_, ?_, ?_⟩ <;> simp [CommitPhase.holdsClaim]
  alone _ _ h := by cases h
  unseen _ _ h := by cases h
  workerAbsent _ _ := rfl
  workers _ _ h := by cases h
  disjoint _ _ _ _ _ h := by cases h

end ClaimSystem

end DbProxy
