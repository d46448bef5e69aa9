/-
The life of an operation claim.

* `Answers` — what one step answers, in particular to a replay;
* `RepliesKept` — the answers of a whole run;
* `operation_claim_lifecycle` — receipts, claims and snapshots of every reachable state,
  and the answers to the replays of a committed request.
-/
import DbProxy.ClaimSnapshots
import DbProxy.StepMachine

namespace DbProxy

open StepMachine

namespace ClaimSystem

variable {decode : Bytes → Option EventEnvelope} {encode : CommitEffects → Bytes}
  {s t : ClaimSystem}

/-! ### Answers to replays -/

/-- The request was committed, and the claim was never purged. -/
structure Replayed (s : ClaimSystem) (c : CommitCall) (records : List TransactionRecordReceipt)
    (result : Bytes) : Prop where
  kept : s.purgeCount c.operationId = 0
  committed : ∃ call,
    Happening.answered call c.request c.effects (.ok (.applied records result)) ∈ s.history

/-- Two elements that count are one. -/
theorem eq_of_countP_le_one {α : Type} {p : α → Bool} {l : List α} (h : l.countP p ≤ 1) {a b : α}
    (ha : a ∈ l) (hb : b ∈ l) (hpa : p a = true) (hpb : p b = true) : a = b := by
  rw [List.countP_eq_length_filter] at h
  have ha' : a ∈ l.filter p := List.mem_filter.mpr ⟨ha, hpa⟩
  have hb' : b ∈ l.filter p := List.mem_filter.mpr ⟨hb, hpb⟩
  match hfilter : l.filter p with
  | [] =>
    rw [hfilter] at ha'
    cases ha'
  | [x] =>
    rw [hfilter] at ha' hb'
    rw [List.mem_singleton.mp ha', List.mem_singleton.mp hb']
  | x :: y :: rest =>
    rw [hfilter] at h
    simp at h

namespace Replayed

variable {c : CommitCall} {records : List TransactionRecordReceipt} {result : Bytes}

/-- The claim is there. -/
theorem claim (h : s.Replayed c records result) (inv : s.TablesInv encode) :
    ∃ claim, s.tables.claims c.operationId = some claim ∧ claim.kind = .multi := by
  obtain ⟨call, hmem⟩ := h.committed
  have hpos : 0 < s.commitCount c.operationId :=
    List.countP_pos_iff.mpr ⟨_, hmem, by simp [Happening.applies, CommitCall.operationId]⟩
  rw [inv.counts, h.kept] at hpos
  split at hpos
  · rename_i hany
    obtain ⟨claim, hclaim, hkind⟩ := (Option.any_eq_true _ _).mp hany
    exact ⟨claim, hclaim, by simpa using hkind⟩
  · omega

theorem fits (h : s.Replayed c records result) (inv : s.TablesInv encode) : c.request.Fits := by
  obtain ⟨call, hmem⟩ := h.committed
  obtain ⟨commit, hvalid, heq⟩ := inv.committed _ hmem c.operationId
    (by simp [Happening.applies, CommitCall.operationId])
  obtain ⟨-, hrequest, -⟩ := Happening.answered.inj heq
  exact hrequest ▸ hvalid.fits

/-- The receipt is the one of the commit. -/
theorem receipt (h : s.Replayed c records result) (inv : s.TablesInv encode)
    (hlive : s.Live c.operationId) : ∃ revisions, revisions.length = c.request.writes.length ∧
      s.tables.headers c.operationId = some c.request.header ∧
      sortOn (·.record) (s.tables.records c.operationId) = c.request.rows revisions ∧
      s.tables.effects c.operationId = effectsRow encode c.effects ∧
      records = (c.request.rows revisions).map (·.receipt) ∧ result = c.request.result := by
  obtain ⟨call, hmem⟩ := h.committed
  obtain ⟨header, hheader⟩ := Option.isSome_iff_exists.mp ((inv.header _).mpr hlive)
  obtain ⟨commit, hvalid, hin, hid, hsame, hrows, heffects⟩ := inv.stored _ header hheader
  -- the operation was committed once
  have hone : s.history.countP (·.applies c.operationId) ≤ 1 := by
    have hcounts := inv.counts c.operationId
    rw [h.kept] at hcounts
    rw [← commitCount, hcounts]
    split <;> omega
  have heq := eq_of_countP_le_one hone hin hmem (by simp [Commit.happening, Happening.applies, hid])
    (by simp [Happening.applies, CommitCall.operationId])
  obtain ⟨-, hrequest, heff, houtcome⟩ := Happening.answered.inj heq
  simp only [Except.ok.injEq, MultiRecordTransactionalWriteOutcome.applied.injEq] at houtcome
  rw [← hrequest, ← heff]
  refine ⟨commit.revisions, hvalid.length, ?_, ?_, heffects, houtcome.1.symm, houtcome.2.symm⟩
  · rw [hheader, hsame]
  · rw [hrows]
    exact sortOn_eq_self (MultiRecordTransactionalWrite.rows_pairwise hvalid.prepared.sorted _)

end Replayed

/-- What a replay may be answered. -/
def ReplayAnswer (operationId : String) (records : List TransactionRecordReceipt) (result : Bytes)
    (outcome : Except StorageError MultiRecordTransactionalWriteOutcome) : Prop :=
  outcome = .ok (.duplicate records result) ∨
    outcome = .error (.core (.operationExpired operationId))

/-- A step answers nobody, or it answers one call and, if that is a replay, as it should. -/
def Answers (s t : ClaimSystem) : Prop :=
  (∃ due : List String, t.history = s.history ++ due.map .purged) ∨
  ∃ i outcome, t.history = s.history ++
      [.answered i (s.calls i).request (s.calls i).effects outcome] ∧
    ∀ records result, s.Replayed (s.calls i) records result →
      ReplayAnswer (s.calls i).operationId records result outcome

theorem Answers.of_same (h : t.history = s.history) : Answers s t :=
  Or.inl ⟨[], by rw [h, List.map_nil, List.append_nil]⟩

theorem Answers.of_answer {i : ℕ}
    {outcome : Except StorageError MultiRecordTransactionalWriteOutcome}
    (h : ∀ records result, s.Replayed (s.calls i) records result →
      ReplayAnswer (s.calls i).operationId records result outcome) :
    Answers s (s.answer i outcome) :=
  Or.inr ⟨i, outcome, rfl, h⟩

/-- A replay is not a first attempt. -/
theorem Replayed.own_eq_none (inv : s.ClaimInv encode) {i : ℕ}
    {records : List TransactionRecordReceipt} {result : Bytes}
    (h : s.Replayed (s.calls i) records result) : (s.calls i).own = none := by
  obtain ⟨claim, hclaim, -⟩ := h.claim inv.tables
  exact inv.own_eq_none hclaim

theorem Replayed.not_first (inv : s.ClaimInv encode) {i : ℕ}
    {records : List TransactionRecordReceipt} {result : Bytes}
    (h : s.Replayed (s.calls i) records result) : (s.calls i).phase.isFirst = false := by
  by_contra hfirst
  have hown := (inv.shape i).first (by simpa using hfirst)
  rw [h.own_eq_none inv] at hown
  cases hown

theorem Replayed.live (inv : s.ClaimInv encode) {i : ℕ} {records : List TransactionRecordReceipt}
    {result : Bytes} (h : s.Replayed (s.calls i) records result)
    (hholds : (s.calls i).phase.holdsClaim = true) : s.Live (s.calls i).operationId :=
  ((inv.view i).shared hholds (h.own_eq_none inv)).1

theorem lockShare_answers (inv : s.ClaimInv encode) {i : ℕ} {visible : Option ℕ}
    (hphase : (s.calls i).phase = .selecting visible) (h : s.lockShare i visible = some t) :
    Answers s t := by
  have hvisible : ∀ {records result}, s.Replayed (s.calls i) records result →
      ∃ claim, s.tables.claims (s.calls i).operationId = some claim ∧
        visible = some claim.row ∧ claim.kind = .multi := by
    intro records result hreplay
    obtain ⟨claim, hclaim, hrow⟩ :=
      (inv.view i).selecting visible hphase (hreplay.own_eq_none inv) hreplay.kept
    obtain ⟨claim', hclaim', hkind⟩ := hreplay.claim inv.tables
    obtain rfl := Option.some.inj (hclaim.symm.trans hclaim')
    exact ⟨claim, hclaim, hrow, hkind⟩
  simp only [ClaimSystem.lockShare] at h
  split at h
  · obtain rfl := Option.some.inj h
    exact .of_same rfl
  · obtain rfl := Option.some.inj h
    refine .of_answer fun records result hreplay => ?_
    obtain ⟨claim, -, hrow, -⟩ := hvisible hreplay
    cases hrow
  · rename_i row hown
    split at h
    · cases h
    · split at h
      · rename_i hnone
        obtain rfl := Option.some.inj h
        refine .of_answer fun records result hreplay => ?_
        obtain ⟨claim, hclaim, -⟩ := hvisible hreplay
        rw [hnone] at hclaim
        cases hclaim
      · rename_i claim hclaim
        have hsame : ∀ {records result}, s.Replayed (s.calls i) records result →
            row = claim.row ∧ claim.kind = .multi := by
          intro records result hreplay
          obtain ⟨claim', hclaim', hrow, hkind⟩ := hvisible hreplay
          obtain rfl := Option.some.inj (hclaim.symm.trans hclaim')
          exact ⟨Option.some.inj hrow, hkind⟩
        split at h
        · rename_i hrow
          obtain rfl := Option.some.inj h
          refine .of_answer fun records result hreplay => ?_
          exact absurd (hsame hreplay).1.symm hrow
        · split at h
          · rename_i e hcheck
            obtain rfl := Option.some.inj h
            refine .of_answer fun records result hreplay => Or.inr ?_
            simp only [checkClaim, (hsame hreplay).2, ne_eq, not_true_eq_false, if_false] at hcheck
            split at hcheck
            · rw [← Except.error.inj hcheck]
            · cases hcheck
          · obtain rfl := Option.some.inj h
            exact .of_same rfl

theorem stepCall_answers {e : ClaimEvent} (inv : s.ClaimInv encode)
    (h : s.stepCall decode encode e = some t) : Answers s t := by
  cases e with
  | begin request effects =>
    simp only [stepCall] at h
    split at h
    · cases h
    · obtain rfl := Option.some.inj h
      exact .of_same rfl
  | insertClaim i now =>
    simp only [stepCall] at h
    (repeat' split at h) <;> first
      | contradiction
      | (obtain rfl := Option.some.inj h; exact .of_same rfl)
  | openSelect i =>
    simp only [stepCall, Option.ite_none_left_eq_some, Option.some.injEq] at h
    obtain ⟨-, rfl⟩ := h
    exact .of_same rfl
  | lockShare i =>
    simp only [stepCall] at h
    split at h
    · rename_i visible hphase
      exact lockShare_answers inv hphase h
    · cases h
  | insertHeader i =>
    simp only [stepCall, Option.ite_none_left_eq_some] at h
    obtain ⟨-, h⟩ := h
    split at h
    · rename_i e hcheck
      obtain rfl := Option.some.inj h
      refine .of_answer fun records result hreplay => ?_
      -- a stored request has passed these conversions
      rw [(hreplay.fits inv.tables).checkHeaderI64_eq] at hcheck
      cases hcheck
    · split at h
      · obtain rfl := Option.some.inj h
        exact .of_same rfl
      · obtain rfl := Option.some.inj h
        exact .of_same rfl
  | verify i =>
    simp only [stepCall, Option.ite_none_left_eq_some, not_ne_iff] at h
    obtain ⟨hphase, h⟩ := h
    split at h
    · obtain rfl := Option.some.inj h
      exact .of_same rfl
    · rename_i hmatch
      obtain rfl := Option.some.inj h
      refine .of_answer fun records result hreplay => ?_
      obtain ⟨-, -, -, -, heffects, -⟩ :=
        hreplay.receipt inv.tables (hreplay.live inv (by rw [hphase]; rfl))
      -- the stored effects are those of the request
      rw [heffects] at hmatch
      exact absurd (effectsMatch_effectsRow ..) hmatch
  | readHeader i =>
    simp only [stepCall, Option.ite_none_left_eq_some, not_ne_iff] at h
    obtain ⟨hphase, h⟩ := h
    split at h
    · rename_i hnone
      obtain rfl := Option.some.inj h
      refine .of_answer fun records result hreplay => ?_
      obtain ⟨-, -, hheader, -⟩ :=
        hreplay.receipt inv.tables (hreplay.live inv (by rw [hphase]; rfl))
      rw [hnone] at hheader
      cases hheader
    · obtain rfl := Option.some.inj h
      exact .of_same rfl
  | readRows i =>
    simp only [stepCall] at h
    split at h
    · rename_i header hphase
      split at h
      · obtain rfl := Option.some.inj h
        exact .of_same rfl
      · rename_i hmatch
        obtain rfl := Option.some.inj h
        refine .of_answer fun records result hreplay => ?_
        obtain ⟨revisions, hlength, hheader, hrows, -⟩ :=
          hreplay.receipt inv.tables (hreplay.live inv (by rw [hphase]; rfl))
        -- the header and the rows that were read are the stored ones
        rw [(inv.view i).comparing header hphase] at hheader
        rw [hrows, Option.some.inj hheader] at hmatch
        exact absurd (receiptMatches_rows (hreplay.fits inv.tables) hlength) hmatch
    · cases h
  | lockRecord i =>
    simp only [stepCall] at h
    split at h
    · rename_i write rest revisions hphase
      simp only [Option.ite_none_left_eq_some, Option.some.injEq] at h
      obtain ⟨-, rfl⟩ := h
      -- whoever locks records is the first to execute the operation
      have hfirst : ∀ {records result}, ¬ s.Replayed (s.calls i) records result := by
        intro records result hreplay
        have := hreplay.not_first inv
        rw [hphase] at this
        cases this
      rw [ClaimSystem.lockRecord]
      split
      · exact .of_answer fun records result hreplay => absurd hreplay hfirst
      · split
        · exact .of_answer fun records result hreplay => absurd hreplay hfirst
        · exact .of_same rfl
    · cases h
  | persist i =>
    simp only [stepCall] at h
    split at h
    · rename_i revisions hphase
      split at h
      · obtain rfl := Option.some.inj h
        refine .of_answer fun records result hreplay => ?_
        have := hreplay.not_first inv
        rw [hphase] at this
        cases this
      · obtain rfl := Option.some.inj h
        exact .of_same rfl
    · cases h
  | refuse i e =>
    simp only [stepCall, Option.ite_none_right_eq_some, Option.some.injEq] at h
    obtain ⟨hfirst, rfl⟩ := h
    refine .of_answer fun records result hreplay => ?_
    rw [hreplay.not_first inv] at hfirst
    cases hfirst
  | commit i =>
    simp only [stepCall] at h
    split at h
    · rename_i records' result' _ hphase
      obtain rfl := Option.some.inj h
      refine .of_answer fun records result hreplay => Or.inl ?_
      obtain ⟨revisions, -, hheader, hrows, -, hrecords, hresult⟩ :=
        hreplay.receipt inv.tables (hreplay.live inv (by rw [hphase]; rfl))
      -- the receipt that is confirmed is the stored one
      obtain ⟨header, hheader', hresult', hrecords'⟩ := (inv.view i).confirming _ _ hphase
      rw [hheader] at hheader'
      rw [hrecords', hrows, ← hrecords, hresult', ← Option.some.inj hheader', hresult]
      rfl
    · rename_i revisions claim hphase hown
      obtain rfl := Option.some.inj h
      refine Or.inr ⟨i, _, rfl, fun records result hreplay => ?_⟩
      rw [hreplay.own_eq_none inv] at hown
      cases hown
    · cases h
  | cancel i =>
    simp only [stepCall, Option.ite_none_left_eq_some, Option.some.injEq] at h
    obtain ⟨-, rfl⟩ := h
    exact .of_same rfl
  | _ => cases h

theorem step_answers {e : ClaimEvent} (inv : s.ClaimInv encode)
    (h : s.step decode encode e = some t) : Answers s t := by
  cases e with
  | otherClaim id kind now =>
    simp only [step, Option.ite_none_left_eq_some, Option.some.injEq] at h
    obtain ⟨-, rfl⟩ := h
    exact .of_same rfl
  | openWorker kind now retention =>
    obtain rfl := Option.some.inj h
    exact .of_same rfl
  | lockDue w id =>
    simp only [step, stepWorker] at h
    split at h
    · simp only [Option.ite_none_right_eq_some, Option.some.injEq] at h
      obtain ⟨-, rfl⟩ := h
      exact .of_same rfl
    · cases h
  | change w =>
    obtain ⟨worker, -, rfl⟩ := Option.map_eq_some_iff.mp h
    exact .of_same rfl
  | commitWorker w =>
    simp only [step, stepWorker] at h
    split at h
    · rename_i worker _
      simp only [Option.ite_none_right_eq_some, Option.some.injEq] at h
      obtain ⟨-, rfl⟩ := h
      cases hkind : worker.kind with
      | retirement => exact .of_same rfl
      | purge => exact Or.inl ⟨worker.due, rfl⟩
    · cases h
  | cancelWorker w =>
    obtain rfl := Option.some.inj h
    exact .of_same rfl
  | _ =>
    simp only [step] at h
    exact stepCall_answers inv h

/-- Every replay before the first purge got the answer of the commit, or that it expired. -/
def RepliesKept (s : ClaimSystem) : Prop :=
  ∀ n call request effects outcome,
    s.history[n]? = some (.answered call request effects outcome) →
    (s.history.take n).countP (·.purges request.operationId) = 0 →
    ∀ call' records result,
      .answered call' request effects (.ok (.applied records result)) ∈ s.history.take n →
      ReplayAnswer request.operationId records result outcome

theorem step_repliesKept {e : ClaimEvent} (inv : s.ClaimInv encode) (hkept : s.RepliesKept)
    (h : s.step decode encode e = some t) : t.RepliesKept := by
  -- what was answered before is where it was
  have hold : ∀ {extra n call request effects outcome}, t.history = s.history ++ extra →
      n < s.history.length → t.history[n]? = some (.answered call request effects outcome) →
      (t.history.take n).countP (·.purges request.operationId) = 0 →
      ∀ call' records result,
        .answered call' request effects (.ok (.applied records result)) ∈ t.history.take n →
        ReplayAnswer request.operationId records result outcome := by
    intro extra n call request effects outcome hhistory hn
    rw [hhistory, List.getElem?_append_left hn, List.take_append_of_le_length hn.le]
    exact hkept n call request effects outcome
  rcases step_answers inv h with ⟨due, hhistory⟩ | ⟨i, answer, hhistory, hanswer⟩
  · intro n call request effects outcome hn
    by_cases hlt : n < s.history.length
    · exact hold hhistory hlt hn
    · rw [hhistory, List.getElem?_append_right (by omega)] at hn
      obtain ⟨id, -, hid⟩ := List.mem_map.mp (List.mem_of_getElem? hn)
      cases hid
  · intro n call request effects outcome hn
    by_cases hlt : n < s.history.length
    · exact hold hhistory hlt hn
    · rw [hhistory, List.getElem?_append_right (by omega)] at hn
      have hzero : n - s.history.length = 0 := by
        by_contra hne
        rw [List.getElem?_eq_none (by simp; omega)] at hn
        cases hn
      obtain rfl : n = s.history.length := by omega
      rw [hzero, List.getElem?_cons_zero] at hn
      obtain ⟨-, rfl, rfl, rfl⟩ := Happening.answered.inj (Option.some.inj hn)
      rw [hhistory, List.take_left]
      intro hpurges call' records result hmem
      exact hanswer records result ⟨hpurges, call', hmem⟩

/-- Effects are never removed. -/
theorem step_effects {e : ClaimEvent} (h : s.step decode encode e = some t) {id : String}
    (hid : (s.tables.effects id).isSome) : (t.tables.effects id).isSome := by
  have hsame : t.tables.effects = s.tables.effects → (t.tables.effects id).isSome := fun heq => by
    rwa [heq]
  cases e with
  | commit i =>
    simp only [step, stepCall] at h
    split at h
    · obtain rfl := Option.some.inj h
      exact hid
    · obtain rfl := Option.some.inj h
      simp only [commitTables]
      split
      · exact hid
      · rw [Function.update_apply]
        split
        · rfl
        · exact hid
    · cases h
  | commitWorker w =>
    simp only [step, stepWorker] at h
    split at h
    · rename_i worker _
      simp only [Option.ite_none_right_eq_some, Option.some.injEq] at h
      obtain ⟨-, rfl⟩ := h
      refine hsame ?_
      simp only [retentionTables]
      cases worker.kind <;> rfl
    · cases h
  | lockShare i =>
    simp only [step, stepCall, ClaimSystem.lockShare] at h
    (repeat' split at h) <;> first
      | contradiction
      | (obtain rfl := Option.some.inj h; exact hid)
  | lockRecord i =>
    simp only [step, stepCall, ClaimSystem.lockRecord] at h
    (repeat' split at h) <;> first
      | contradiction
      | (obtain rfl := Option.some.inj h; exact hid)
  | _ =>
    simp only [step, stepCall, stepWorker] at h
    (repeat' split at h) <;> first
      | contradiction
      | (obtain rfl := Option.some.inj h; exact hid)
      | (obtain ⟨_, -, rfl⟩ := Option.map_eq_some_iff.mp h; exact hid)

/-- The receipt of the operation, with the rows of all its records. -/
def HasReceipt (s : ClaimSystem) (operationId : String) : Prop :=
  ∃ call request effects revisions, request.operationId = operationId ∧
    .answered call request effects (.ok (.applied
      ((request.rows revisions).map (·.receipt)) request.result)) ∈ s.history ∧
    s.tables.headers operationId = some request.header ∧
    revisions.length = request.writes.length ∧
    s.tables.records operationId = request.rows revisions

end ClaimSystem

open ClaimSystem

/-- **The life of an operation claim.**  In every state that any interleaving of calls and
maintenance statements reaches: a claim is live exactly when there is a header, which then
has all its rows; a retired claim has left nothing else; an operation with effects is never
retired; until its claim is purged, a committed operation was applied once, and the snapshots
are what the applied requests of the history wrote, each once; and until then every replay
that is answered gets the receipt of the commit or that it has expired. -/
theorem operation_claim_lifecycle (decode : Bytes → Option EventEnvelope)
    (encode : CommitEffects → Bytes) (events : List ClaimEvent) (s : ClaimSystem)
    (hrun : run (ClaimSystem.step decode encode) {} events = some s) :
    (∀ id, (∃ c, s.tables.claims id = some c ∧ c.kind = .multi ∧ c.retiredAt = none) ↔
      (s.tables.headers id).isSome) ∧
    (∀ id, (s.tables.headers id).isSome → s.HasReceipt id) ∧
    (∀ id c, s.tables.claims id = some c → c.retiredAt.isSome →
      s.tables.headers id = none ∧ s.tables.records id = [] ∧ s.tables.effects id = none) ∧
    (∀ id, Once (ClaimSystem.step decode encode) {} events
        (fun m => (m.tables.effects id).isSome) →
      ∃ c, s.tables.claims id = some c ∧ c.retiredAt = none) ∧
    (∀ id, s.purgeCount id = 0 → 0 < s.commitCount id → s.commitCount id = 1) ∧
    (∀ record, s.tables.snapshots record = replayedRow s.history record) ∧
    s.RepliesKept := by
  have hall : s.ClaimInv encode ∧ s.SnapshotInv ∧ s.RepliesKept := by
    refine run_invariant (P := fun s => s.ClaimInv encode ∧ s.SnapshotInv ∧ s.RepliesKept) ?_
      ⟨init_claimInv, init_snapshotInv, fun n _ _ _ _ h => by simp at h⟩ hrun
    rintro m e m' ⟨inv, hsnapshots, hkept⟩ hstep
    exact ⟨step_claimInv inv hstep, step_snapshotInv inv hsnapshots hstep,
      step_repliesKept inv hkept hstep⟩
  obtain ⟨inv, hsnapshots, hkept⟩ := hall
  have hlive : ∀ id, s.Live id ↔
      ∃ c, s.tables.claims id = some c ∧ c.kind = .multi ∧ c.retiredAt = none := by
    intro id
    simp [Live, ClaimRow.isLive]
  refine ⟨?_, ?_, ?_, ?_, ?_, hsnapshots.rows, hkept⟩
  · intro id
    rw [← hlive]
    exact (inv.tables.header id).symm
  · intro id hheader
    obtain ⟨header, hheader⟩ := Option.isSome_iff_exists.mp hheader
    obtain ⟨commit, hvalid, hmem, hid, hsame, hrows, -⟩ := inv.tables.stored id header hheader
    exact ⟨commit.call, commit.request, commit.effects, commit.revisions, hid, hmem,
      hsame ▸ hheader, hvalid.length, hrows⟩
  · intro id c hc hretired
    have hnone : s.tables.headers id = none := by
      by_contra hheader
      obtain ⟨c', hc', -, hnone⟩ := (hlive id).mp
        ((inv.tables.header id).mp (Option.isSome_iff_ne_none.mpr hheader))
      obtain rfl := Option.some.inj (hc.symm.trans hc')
      rw [hnone] at hretired
      cases hretired
    exact ⟨hnone, inv.tables.bare id hnone⟩
  · rintro id ⟨before, m, ⟨rest, rfl⟩, hm, heffects⟩
    obtain ⟨m', hm', hrest⟩ := run_append.mp hrun
    obtain rfl := Option.some.inj (hm.symm.trans hm')
    have hstill : (s.tables.effects id).isSome :=
      run_invariant (P := fun m => (m.tables.effects id).isSome)
        (fun _ _ _ hid hstep => step_effects hstep hid) heffects hrest
    have hheader : (s.tables.headers id).isSome := by
      by_contra hnone
      rw [(inv.tables.bare id (by simpa using hnone)).2] at hstill
      cases hstill
    obtain ⟨c, hc, -, hretired⟩ := (hlive id).mp ((inv.tables.header id).mp hheader)
    exact ⟨c, hc, hretired⟩
  · intro id hpurge hcommit
    have hcounts := inv.tables.counts id
    rw [hpurge] at hcounts
    split at hcounts <;> omega

def sampleCommit : MultiRecordTransactionalWrite :=
  ⟨"op-1", [⟨⟨"player", "1"⟩, "profile", 1, 0, [7], 5⟩], [1]⟩

/-- A commit without effects. -/
def firstCommit : List ClaimEvent :=
  [.begin sampleCommit {}, .insertClaim 0 0, .openSelect 0, .lockShare 0, .insertHeader 0,
    .lockRecord 0, .persist 0, .commit 0]

/-- The replay finds the claim, the retirement locks it first, and the replay waits. -/
def replayedIntoRetirement : List ClaimEvent :=
  firstCommit ++ [.begin sampleCommit {}, .insertClaim 1 50, .openWorker .retirement 100 10,
    .lockDue 0 "op-1", .openSelect 1, .change 0, .commitWorker 0, .lockShare 1]

theorem operation_claim_lifecycle_retired :
    ∃ s outcome, run (ClaimSystem.step (fun _ => none) fun _ => []) {} replayedIntoRetirement =
        some s ∧
      s.history[1]? = some (.answered 1 sampleCommit {} outcome) ∧
      ReplayAnswer "op-1" [⟨⟨"player", "1"⟩, 1⟩] [1] outcome ∧
      s.tables.headers "op-1" = none ∧ s.tables.records "op-1" = [] ∧
      s.tables.snapshots ⟨"player", "1"⟩ = some ⟨"profile", 1, 1, [7], 5, none⟩ := by
  obtain ⟨s, hrun, hhistory, hclaim⟩ := exists_of_any
    (o := run (ClaimSystem.step (fun _ => none) fun _ => []) {} replayedIntoRetirement)
    (p := fun s => s.history =
        [.answered 0 sampleCommit {} (.ok (.applied [⟨⟨"player", "1"⟩, 1⟩] [1])),
          .answered 1 sampleCommit {} (.error (.core (.operationExpired "op-1")))] ∧
      s.tables.claims "op-1" = some ⟨0, .multi, 0, some 100⟩)
    (by decide +kernel)
  obtain ⟨-, -, hretired, -, -, hsnapshots, hreplies⟩ := operation_claim_lifecycle _ _ _ s hrun
  obtain ⟨hheader, hrecords, -⟩ := hretired "op-1" _ hclaim rfl
  have hanswer : s.history[1]? = some (.answered 1 sampleCommit {}
      (.error (.core (.operationExpired "op-1")))) := by
    rw [hhistory]
    rfl
  refine ⟨s, _, hrun, hanswer, ?_, hheader, hrecords, ?_⟩
  · refine hreplies 1 1 _ _ _ hanswer ?_ 0 _ _ ?_ <;> rw [hhistory] <;> decide
  · -- the replay wrote nothing
    rw [hsnapshots, hhistory]
    decide

end DbProxy
