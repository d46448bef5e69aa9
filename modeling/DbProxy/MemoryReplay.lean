/-
Replays: an operation id is used at most once.

Three kinds of operations share the operation ids.  Once a call has been
applied, the claim of its id and its receipt stay for the rest of the run
(`storedReceipt_run`), because an applied call leaves every claimed id with a
receipt alone.  A later call under the id is then either the same request, up
to the order of its lists, and gets the first reply back, or it is refused:

* `exec_same` — the same request is a duplicate;
* `exec_other` — any other request conflicts, or fails its own validation;
* `memory_exactly_once` — both, for every run.

Fingerprints hold digests instead of payloads, so the second statement needs
the digests to be injective on the byte strings of the two calls.
-/
import DbProxy.MemoryRuns

namespace DbProxy

open Text EarlyReturn MemoryBackend StepMachine

/-! ### Requests up to order -/

/-- The same request, with its lists in any order. -/
def SameRequest : Call → Call → Prop
  | .applyTransaction r, .applyTransaction r' => r' = r
  | .commitRecords r effects, .commitRecords r' effects' =>
    r'.operationId = r.operationId ∧ r'.result = r.result ∧ r'.writes.Perm r.writes ∧
      effects'.appends.Perm effects.appends ∧ effects'.outboxEvents.Perm effects.outboxEvents
  | .applyTradeTransaction r, .applyTradeTransaction r' =>
    r'.operationId = r.operationId ∧ r'.transition = r.transition ∧ r'.result = r.result ∧
      r'.writes.Perm r.writes ∧ r'.ledgerPostings.Perm r.ledgerPostings ∧
      r'.outboxEvents.Perm r.outboxEvents
  | _, _ => False

/-- An applied outcome, reported as a duplicate. -/
def Outcome.replay : Outcome → Outcome
  | .snapshot (.applied revision) => .snapshot (.duplicate revision)
  | .transaction (.applied revision result) => .transaction (.duplicate revision result)
  | .records (.applied committed result) => .records (.duplicate committed result)
  | .trade (.applied receipt) => .trade (.duplicate receipt)
  | o => o

namespace Call

/-- The byte strings of a call that its fingerprint holds as digests. -/
def digested : Call → List Bytes
  | .save r => [r.payload]
  | .applyTransaction r => [r.payload, r.result]
  | .commitRecords r _ => r.result :: r.writes.map (·.payload)
  | .applyTradeTransaction _ => []

def kind : Call → Option OperationKind
  | .save _ => none
  | .applyTransaction _ => some .single
  | .commitRecords _ _ => some .multi
  | .applyTradeTransaction _ => some .trade

/-- The checks of a call that look at its request only. -/
def validate (decode : Bytes → Option EventEnvelope) : Call → Except StoreError Unit
  | .save r => if blank r.requestId then .error .emptyRequestId else .ok ()
  | .applyTransaction r => if blank r.operationId then .error .emptyOperationId else .ok ()
  | .commitRecords r effects => do
    let _ ← effects.normalize decode
    let _ ← normalizeMulti r
    .ok ()
  | .applyTradeTransaction r => do
    let _ ← normalizeTradeTransaction r
    .ok ()

end Call

section Replay

variable {D : Type} [DecidableEq D] {cfg : MemoryConfig D}

/-- The call fails and keeps the state: with its own validation error, or else with
an operation id conflict. -/
def Refused (b : MemoryBackend cfg) (c : Call) (operationId : String) : Prop :=
  ∃ e, c.exec.run b = .error (.store e) b ∧
    (c.validate cfg.decodeEnvelope = .error e ∨
      c.validate cfg.decodeEnvelope = .ok () ∧ e = .operationIdConflict operationId)

/-! ### Receipts stay -/

omit [DecidableEq D] in
theorem storedReceipt_kind {v : StoreView D} {c : Call} {o : Outcome} {operationId : String}
    (h : StoredReceipt cfg v c o) (hid : c.operationId = some operationId) :
    v.operationKinds operationId = c.kind := by
  cases c with
  | save r => simp [Call.operationId] at hid
  | applyTransaction r =>
    obtain rfl := Option.some.inj hid
    rcases o with _ | (_ | _) | _ | _ <;> simp_all [StoredReceipt, Call.kind]
  | commitRecords r effects =>
    obtain rfl := Option.some.inj hid
    rcases o with _ | _ | (_ | _) | _ <;> simp only [StoredReceipt] at h
    obtain ⟨_, _, _, _, hkind, _⟩ := h
    exact hkind
  | applyTradeTransaction r =>
    obtain rfl := Option.some.inj hid
    rcases o with _ | _ | _ | (_ | _) <;> simp only [StoredReceipt] at h
    obtain ⟨_, _, hkind, _⟩ := h
    exact hkind

omit [DecidableEq D] in
/-- A receipt depends on the entries of its own id only. -/
theorem storedReceipt_congr {v v' : StoreView D} {c : Call} {o : Outcome} {operationId : String}
    (hid : c.operationId = some operationId)
    (hkinds : v'.operationKinds operationId = v.operationKinds operationId)
    (htransactions : v'.transactions operationId = v.transactions operationId)
    (hmulti : v'.multiTransactions operationId = v.multiTransactions operationId)
    (htrade : v'.tradeTransactions operationId = v.tradeTransactions operationId)
    (h : StoredReceipt cfg v c o) : StoredReceipt cfg v' c o := by
  cases c with
  | save r => simp [Call.operationId] at hid
  | applyTransaction r =>
    obtain rfl := Option.some.inj hid
    rcases o with _ | (_ | _) | _ | _ <;> simp_all [StoredReceipt]
  | commitRecords r effects =>
    obtain rfl := Option.some.inj hid
    rcases o with _ | _ | (_ | _) | _ <;> simp_all [StoredReceipt]
  | applyTradeTransaction r =>
    obtain rfl := Option.some.inj hid
    rcases o with _ | _ | _ | (_ | _) <;> simp_all [StoredReceipt]

omit [DecidableEq D] in
/-- An id that is claimed with its receipt is not claimed again. -/
theorem storedReceipt_not_unclaimed {v : StoreView D} {c : Call} {o : Outcome}
    {operationId : String} (hid : c.operationId = some operationId)
    (h : StoredReceipt cfg v c o)
    (hunclaimed : (v.operationKinds operationId = some .single → v.transactions operationId = none) ∧
      (v.operationKinds operationId = some .multi → v.multiTransactions operationId = none) ∧
      (v.operationKinds operationId = some .trade → v.tradeTransactions operationId = none)) :
    False := by
  cases c with
  | save r => simp [Call.operationId] at hid
  | applyTransaction r =>
    obtain rfl := Option.some.inj hid
    rcases o with _ | (_ | _) | _ | _ <;> simp_all [StoredReceipt]
  | commitRecords r effects =>
    obtain rfl := Option.some.inj hid
    rcases o with _ | _ | (_ | _) | _ <;> simp only [StoredReceipt] at h
    obtain ⟨_, _, _, _, hkind, hreceipt⟩ := h
    exact absurd (hunclaimed.2.1 hkind) (by simp [hreceipt])
  | applyTradeTransaction r =>
    obtain rfl := Option.some.inj hid
    rcases o with _ | _ | _ | (_ | _) <;> simp only [StoredReceipt] at h
    obtain ⟨_, _, hkind, hreceipt⟩ := h
    exact absurd (hunclaimed.2.2 hkind) (by simp [hreceipt])

theorem storedReceipt_step {b b' : MemoryBackend cfg} {e : Completed} {c : Call} {o : Outcome}
    {operationId : String} (hid : c.operationId = some operationId) (hstep : step b e = some b')
    (h : StoredReceipt cfg b.view c o) : StoredReceipt cfg b'.view c o := by
  rcases step_cases hstep with ⟨-, rfl⟩ | ⟨o', -, -, -, hspec⟩
  · exact h
  · by_cases hsame : e.call.operationId = some operationId
    · exact (storedReceipt_not_unclaimed hid h (hspec.receipts.unclaimed _ hsame)).elim
    · obtain ⟨hkinds, htransactions, hmulti, htrade⟩ :=
        hspec.receipts.otherOperations operationId hsame
      exact storedReceipt_congr hid hkinds htransactions hmulti htrade h

theorem storedReceipt_run {b b' : MemoryBackend cfg} {trace : List Completed} {c : Call}
    {o : Outcome} {operationId : String} (hid : c.operationId = some operationId)
    (hrun : run step b trace = some b') (h : StoredReceipt cfg b.view c o) :
    StoredReceipt cfg b'.view c o :=
  run_invariant (P := fun b => StoredReceipt cfg b.view c o)
    (fun _ _ _ hs hstep => storedReceipt_step hid hstep hs) h hrun

/-! ### Validation comes first -/

theorem exec_invalid {c : Call} {e : StoreError} (b : MemoryBackend cfg)
    (h : c.validate cfg.decodeEnvelope = .error e) : c.exec.run b = .error (.store e) b := by
  cases c with
  | save r =>
    rw [Call.validate] at h
    refine bind_run_error (t := b) ?_
    by_cases hblank : blank r.requestId = true
    · rw [if_pos hblank, Except.error.injEq] at h
      rw [save, if_pos hblank, h]
      rfl
    · rw [if_neg hblank] at h
      exact absurd h (by simp)
  | applyTransaction r =>
    rw [Call.validate] at h
    refine bind_run_error (t := b) ?_
    by_cases hblank : blank r.operationId = true
    · rw [if_pos hblank, Except.error.injEq] at h
      rw [applyTransaction, if_pos hblank, h]
      rfl
    · rw [if_neg hblank] at h
      exact absurd h (by simp)
  | commitRecords r effects =>
    rw [Call.validate] at h
    refine bind_run_error (t := b) ?_
    rw [commitRecords]
    cases heffects : effects.normalize cfg.decodeEnvelope with
    | error e' =>
      rw [heffects] at h
      exact congrArg (fun e => EStateM.Result.error (Failure.store e) b) (Except.error.inj h)
    | ok normalEffects =>
      rw [heffects] at h
      cases hnormal : normalizeMulti r with
      | error e' =>
        rw [hnormal] at h
        exact congrArg (fun e => EStateM.Result.error (Failure.store e) b) (Except.error.inj h)
      | ok normal =>
        rw [hnormal] at h
        cases h
  | applyTradeTransaction r =>
    rw [Call.validate] at h
    refine bind_run_error (t := b) ?_
    rw [applyTradeTransaction]
    cases hnormal : normalizeTradeTransaction r with
    | error e' =>
      rw [hnormal] at h
      exact congrArg (fun e => EStateM.Result.error (Failure.store e) b) (Except.error.inj h)
    | ok normal =>
      rw [hnormal] at h
      cases h

theorem validate_transaction_ok {decode : Bytes → Option EventEnvelope} {r : TransactionalWrite}
    (h : (Call.applyTransaction r).validate decode = .ok ()) : blank r.operationId = false := by
  rw [Call.validate] at h
  by_contra hblank
  rw [if_pos (by simpa using hblank)] at h
  cases h

theorem validate_records_ok {decode : Bytes → Option EventEnvelope}
    {r : MultiRecordTransactionalWrite} {effects : CommitEffects}
    (h : (Call.commitRecords r effects).validate decode = .ok ()) :
    ∃ normal normalEffects, normalizeMulti r = .ok normal ∧
      effects.normalize decode = .ok normalEffects ∧ normal.operationId = r.operationId := by
  rw [Call.validate] at h
  obtain ⟨normalEffects, heffects, h⟩ := Checks.bind_eq_ok.mp h
  obtain ⟨normal, hnormal, -⟩ := Checks.bind_eq_ok.mp h
  refine ⟨normal, normalEffects, hnormal, heffects, ?_⟩
  rw [(normalizeMulti_ok hnormal).2.2.2]

theorem validate_trade_ok {decode : Bytes → Option EventEnvelope} {r : TradeTransaction}
    (h : (Call.applyTradeTransaction r).validate decode = .ok ()) :
    ∃ normal, normalizeTradeTransaction r = .ok normal ∧ normal.operationId = r.operationId := by
  rw [Call.validate] at h
  obtain ⟨normal, hnormal, -⟩ := Checks.bind_eq_ok.mp h
  refine ⟨normal, hnormal, ?_⟩
  rw [(normalizeTrade_ok hnormal).2]

theorem refused_of_valid {b : MemoryBackend cfg} {c : Call} {operationId : String}
    (h : c.validate cfg.decodeEnvelope = .ok () →
      c.exec.run b = .error (.store (.operationIdConflict operationId)) b) :
    Refused b c operationId := by
  cases hvalid : c.validate cfg.decodeEnvelope with
  | error e => exact ⟨e, exec_invalid b hvalid, Or.inl hvalid⟩
  | ok => exact ⟨_, h hvalid, Or.inr ⟨hvalid, rfl⟩⟩

/-! ### The same request again -/

theorem exec_same {b : MemoryBackend cfg} {c c' : Call} {o : Outcome}
    (hstored : StoredReceipt cfg b.view c o) (hvalid : c.validate cfg.decodeEnvelope = .ok ())
    (hsame : SameRequest c c') : c'.exec.run b = .ok o.replay b := by
  cases c with
  | save r => simp [SameRequest] at hsame
  | applyTransaction r =>
    cases c' <;> simp only [SameRequest] at hsame
    subst hsame
    rcases o with _ | (_ | _) | _ | _ <;> simp only [StoredReceipt] at hstored
    refine bind_run_ok (t := b)
      ((applyTransaction_replay (validate_transaction_ok hvalid) hstored.1 hstored.2).trans ?_)
    exact if_pos rfl
  | commitRecords r effects =>
    cases c' <;> simp only [SameRequest] at hsame
    rename_i r' effects'
    obtain ⟨hid, hresult, hwrites, happends, hevents⟩ := hsame
    rcases o with _ | _ | (_ | _) | _ <;> simp only [StoredReceipt] at hstored
    obtain ⟨normal, normalEffects, hnormal, heffects, hkind, hreceipt⟩ := hstored
    have hnormal' : normalizeMulti r' = .ok normal := by
      have hr' : r' = { r with writes := r'.writes } := by
        rw [← hid, ← hresult]
      rw [hr']
      exact normalizeMulti_perm hnormal hwrites
    have hop : normal.operationId = r.operationId := by
      rw [(normalizeMulti_ok hnormal).2.2.2]
    rw [← hop] at hkind hreceipt
    refine bind_run_ok (t := b) ((commitRecords_replay
      (CommitEffects.normalize_perm heffects happends hevents) hnormal' hkind hreceipt).trans ?_)
    exact if_pos ⟨rfl, rfl⟩
  | applyTradeTransaction r =>
    cases c' <;> simp only [SameRequest] at hsame
    rename_i r'
    obtain ⟨hid, htransition, hresult, hwrites, hpostings, hevents⟩ := hsame
    rcases o with _ | _ | _ | (_ | _) <;> simp only [StoredReceipt] at hstored
    obtain ⟨normal, hnormal, hkind, hreceipt⟩ := hstored
    have hnormal' : normalizeTradeTransaction r' = .ok normal := by
      have hr' : r' = { r with
          writes := r'.writes
          ledgerPostings := r'.ledgerPostings
          outboxEvents := r'.outboxEvents } := by
        rw [← hid, ← htransition, ← hresult]
      rw [hr']
      exact normalizeTrade_perm hnormal hwrites hpostings hevents
    have hop : normal.operationId = r.operationId := by
      rw [(normalizeTrade_ok hnormal).2]
    rw [← hop] at hkind hreceipt
    refine bind_run_ok (t := b)
      ((applyTradeTransaction_replay hnormal' hkind hreceipt).trans ?_)
    exact if_pos rfl

/-! ### Another request under the same id -/

/-- An id that another kind of operation holds. -/
theorem refused_of_kind {b : MemoryBackend cfg} {c : Call} {kind : OperationKind}
    {operationId : String} (hid : c.operationId = some operationId)
    (hkind : b.view.operationKinds operationId = some kind) (hne : c.kind ≠ some kind) :
    Refused b c operationId := by
  refine refused_of_valid fun hvalid => ?_
  cases c with
  | save r => simp [Call.operationId] at hid
  | applyTransaction r =>
    obtain rfl := Option.some.inj hid
    exact bind_run_error (applyTransaction_conflict (validate_transaction_ok hvalid) hkind
      fun h => hne (h ▸ rfl))
  | commitRecords r effects =>
    obtain rfl := Option.some.inj hid
    obtain ⟨normal, normalEffects, hnormal, heffects, hop⟩ := validate_records_ok hvalid
    rw [← hop] at hkind ⊢
    exact bind_run_error (commitRecords_conflict heffects hnormal hkind fun h => hne (h ▸ rfl))
  | applyTradeTransaction r =>
    obtain rfl := Option.some.inj hid
    obtain ⟨normal, hnormal, hop⟩ := validate_trade_ok hvalid
    rw [← hop] at hkind ⊢
    exact bind_run_error (applyTradeTransaction_conflict hnormal hkind fun h => hne (h ▸ rfl))

omit [DecidableEq D] in
theorem transaction_fingerprint_injective {r r' : TransactionalWrite}
    (hid : r'.operationId = r.operationId)
    (hpayload : cfg.digest r.payload = cfg.digest r'.payload → r.payload = r'.payload)
    (hresult : cfg.digest r.result = cfg.digest r'.result → r.result = r'.result)
    (h : TransactionFingerprint.fromRequest cfg r = TransactionFingerprint.fromRequest cfg r') :
    r' = r := by
  simp only [TransactionFingerprint.fromRequest, TransactionFingerprint.mk.injEq] at h
  obtain ⟨h1, h2, h3, h4, hp, hr, h7⟩ := h
  have hpayload := hpayload hp
  have hresult := hresult hr
  cases r
  cases r'
  simp_all

omit [DecidableEq D] in
/-- Equal fingerprints and equal effects, after sorting: the requests agree up to order. -/
theorem records_fingerprint_injective {r r' normal normal' : MultiRecordTransactionalWrite}
    {effects effects' normalEffects : CommitEffects} (hid : r'.operationId = r.operationId)
    (hnormal : normalizeMulti r = .ok normal) (hnormal' : normalizeMulti r' = .ok normal')
    (heffects : effects.normalize cfg.decodeEnvelope = .ok normalEffects)
    (heffects' : effects'.normalize cfg.decodeEnvelope = .ok normalEffects)
    (hdigest : ∀ x ∈ (Call.commitRecords r effects).digested,
      ∀ y ∈ (Call.commitRecords r' effects').digested, cfg.digest x = cfg.digest y → x = y)
    (h : MultiTransactionFingerprint.fromRequest cfg normal
      = MultiTransactionFingerprint.fromRequest cfg normal') :
    SameRequest (.commitRecords r effects) (.commitRecords r' effects') := by
  obtain ⟨-, -, -, rfl⟩ := normalizeMulti_ok hnormal
  obtain ⟨-, -, -, rfl⟩ := normalizeMulti_ok hnormal'
  obtain ⟨heq, -, -⟩ := CommitEffects.normalize_ok heffects
  obtain ⟨heq', -, -⟩ := CommitEffects.normalize_ok heffects'
  simp only [MultiTransactionFingerprint.fromRequest, MultiTransactionFingerprint.mk.injEq] at h
  have hmem : ∀ {r : MultiRecordTransactionalWrite} {effects : CommitEffects},
      ∀ w ∈ sortOn (·.record) r.writes,
        w.payload ∈ (Call.commitRecords r effects).digested := by
    intro r effects w hw
    exact List.mem_cons_of_mem _ (List.mem_map.mpr ⟨w, mem_sortOn.mp hw, rfl⟩)
  have hwrites : sortOn (·.record) r.writes = sortOn (·.record) r'.writes :=
    map_fromWrite_injective (fun w hw w' hw' => hdigest _ (hmem w hw) _ (hmem w' hw')) h.1
  have hresult : r.result = r'.result :=
    hdigest _ (List.mem_cons_self ..) _ (List.mem_cons_self ..) h.2
  have hboth := heq.symm.trans heq'
  simp only [CommitEffects.mk.injEq] at hboth
  -- both lists sort to the same list, so they are permutations of each other
  refine ⟨hid, hresult.symm, ?_, ?_, ?_⟩
  · exact (sortOn_perm _ _).symm.trans (hwrites ▸ sortOn_perm _ _)
  · exact (sortOn_perm _ _).symm.trans (hboth.1 ▸ sortOn_perm _ _)
  · exact (sortOn_perm _ _).symm.trans (hboth.2 ▸ sortOn_perm _ _)

/-- Trades keep the whole normalised request, no digest. -/
theorem trade_normal_injective {r r' normal : TradeTransaction}
    (hnormal : normalizeTradeTransaction r = .ok normal)
    (hnormal' : normalizeTradeTransaction r' = .ok normal) :
    SameRequest (.applyTradeTransaction r) (.applyTradeTransaction r') := by
  obtain ⟨-, heq⟩ := normalizeTrade_ok hnormal
  obtain ⟨-, heq'⟩ := normalizeTrade_ok hnormal'
  have hboth := heq.symm.trans heq'
  simp only [TradeTransaction.mk.injEq] at hboth
  obtain ⟨hid, htransition, hwrites, hpostings, hevents, hresult⟩ := hboth
  refine ⟨hid.symm, htransition.symm, hresult.symm, ?_, ?_, ?_⟩
  · exact (sortOn_perm _ _).symm.trans (hwrites ▸ sortOn_perm _ _)
  · exact (sortOn_perm _ _).symm.trans (hpostings ▸ sortOn_perm _ _)
  · exact (sortOn_perm _ _).symm.trans (hevents ▸ sortOn_perm _ _)

/-- Another request of any kind under a stored id is refused. -/
theorem exec_other {b : MemoryBackend cfg} {c c' : Call} {o : Outcome} {operationId : String}
    (hstored : StoredReceipt cfg b.view c o) (hid : c.operationId = some operationId)
    (hid' : c'.operationId = some operationId) (hother : ¬ SameRequest c c')
    (hdigest : ∀ x ∈ c.digested, ∀ y ∈ c'.digested, cfg.digest x = cfg.digest y → x = y) :
    Refused b c' operationId := by
  have hkind := storedReceipt_kind hstored hid
  by_cases hsame : c'.kind = c.kind
  · refine refused_of_valid fun hvalid => ?_
    cases c with
    | save r => simp [Call.operationId] at hid
    | applyTransaction r =>
      cases c' <;> simp only [Call.kind, reduceCtorEq, Option.some.injEq] at hsame
      rename_i r'
      obtain rfl := Option.some.inj hid'
      rcases o with _ | (_ | _) | _ | _ <;> simp only [StoredReceipt] at hstored
      rw [Option.some.inj hid] at hstored
      refine bind_run_error ((applyTransaction_replay (validate_transaction_ok hvalid) hstored.1
        hstored.2).trans (if_neg fun heq => hother ?_))
      exact transaction_fingerprint_injective (Option.some.inj hid).symm
        (hdigest _ (by simp [Call.digested]) _ (by simp [Call.digested]))
        (hdigest _ (by simp [Call.digested]) _ (by simp [Call.digested])) heq
    | commitRecords r effects =>
      cases c' <;> simp only [Call.kind, reduceCtorEq, Option.some.injEq] at hsame
      rename_i r' effects'
      obtain rfl := Option.some.inj hid'
      rcases o with _ | _ | (_ | _) | _ <;> simp only [StoredReceipt] at hstored
      obtain ⟨normal, normalEffects, hnormal, heffects, hk, hreceipt⟩ := hstored
      obtain ⟨normal', normalEffects', hnormal', heffects', hop⟩ := validate_records_ok hvalid
      rw [Option.some.inj hid, ← hop] at hk hreceipt
      rw [← hop]
      refine bind_run_error ((commitRecords_replay heffects' hnormal' hk hreceipt).trans
        (if_neg fun heq => hother ?_))
      exact records_fingerprint_injective (Option.some.inj hid).symm hnormal hnormal' heffects
        (heffects'.trans (congrArg Except.ok heq.2.symm)) hdigest heq.1
    | applyTradeTransaction r =>
      cases c' <;> simp only [Call.kind, reduceCtorEq, Option.some.injEq] at hsame
      rename_i r'
      obtain rfl := Option.some.inj hid'
      rcases o with _ | _ | _ | (_ | _) <;> simp only [StoredReceipt] at hstored
      obtain ⟨normal, hnormal, hk, hreceipt⟩ := hstored
      obtain ⟨normal', hnormal', hop⟩ := validate_trade_ok hvalid
      rw [Option.some.inj hid, ← hop] at hk hreceipt
      rw [← hop]
      refine bind_run_error ((applyTradeTransaction_replay hnormal' hk hreceipt).trans
        (if_neg fun heq => hother ?_))
      exact trade_normal_injective hnormal (hnormal'.trans (congrArg Except.ok heq.symm))
  · cases hk : c.kind with
    | none => cases c <;> simp [Call.kind, Call.operationId] at hk hid
    | some kind =>
      rw [hk] at hkind hsame
      exact refused_of_kind hid' hkind hsame

/-- The first applied call leaves its receipt behind, and its request was valid. -/
theorem storedReceipt_of_step {b b' : MemoryBackend cfg} {c : Call} {o : Outcome}
    (hstep : step b ⟨c, .ok o⟩ = some b') (happlied : o.isApplied = true) :
    StoredReceipt cfg b'.view c o ∧ c.validate cfg.decodeEnvelope = .ok () := by
  rcases step_cases hstep with ⟨hskip, -⟩ | ⟨o', ho', -, hexec, hspec⟩
  · exact absurd happlied (by rw [show o.isApplied = false from hskip]; simp)
  · obtain rfl := Except.ok.inj ho'
    refine ⟨hspec.receipts.receipt, ?_⟩
    cases hvalid : c.validate cfg.decodeEnvelope with
    | ok => rfl
    | error e =>
      have hexec : c.exec.run b = .ok o b' := hexec
      rw [exec_invalid b hvalid] at hexec
      exact absurd hexec (by simp)

/-- **Exactly once.**  After a call was applied under an operation id, and after any
further calls, the same request gets the first reply back as a duplicate and every
other request under that id is refused; neither changes the backend. -/
theorem memory_exactly_once (before after : List Completed) (c c' : Call) (o : Outcome)
    (operationId : String) (b : MemoryBackend cfg)
    (hrun : run step {} (before ++ ⟨c, .ok o⟩ :: after) = some b)
    (happlied : o.isApplied = true) (hid : c.operationId = some operationId)
    (hid' : c'.operationId = some operationId) :
    (SameRequest c c' → c'.exec.run b = .ok o.replay b) ∧
    (¬ SameRequest c c' →
      (∀ x ∈ c.digested, ∀ y ∈ c'.digested, cfg.digest x = cfg.digest y → x = y) →
      Refused b c' operationId) := by
  obtain ⟨b₁, -, hrest⟩ := run_append.mp hrun
  obtain ⟨b₂, hstep, hafter⟩ := run_cons_eq_some.mp hrest
  obtain ⟨hfirst, hvalid⟩ := storedReceipt_of_step hstep happlied
  have hstored := storedReceipt_run hid hafter hfirst
  exact ⟨exec_same hstored hvalid, exec_other hstored hid hid'⟩

end Replay

/-- The commit of `sampleTrace` again, with its writes swapped, and a changed copy of it,
after the save of one of its records. -/
theorem memory_exactly_once_sample :
    ∃ b : MemoryBackend sampleConfig, run step {} sampleTrace = some b ∧
      (Call.commitRecords ⟨"op-1", [sampleWrite "bb" 0, sampleWrite "a" 0], [7]⟩
        sampleEffects).exec.run b =
          .ok (.records (.duplicate [⟨⟨"player", "a"⟩, 1⟩, ⟨⟨"player", "bb"⟩, 1⟩] [7])) b ∧
      Refused b (.commitRecords ⟨"op-1", [sampleWrite "a" 0], [7]⟩ sampleEffects) "op-1" := by
  have hsome : (run step ({} : MemoryBackend sampleConfig) sampleTrace).isSome = true := by decide
  obtain ⟨b, hb⟩ := Option.isSome_iff_exists.mp hsome
  refine ⟨b, hb, ?_, ?_⟩
  · refine (memory_exactly_once [] _ _ _ _ "op-1" b hb rfl rfl rfl).1 ?_
    exact ⟨rfl, rfl, List.Perm.swap .., List.Perm.refl _, List.Perm.refl _⟩
  · refine (memory_exactly_once [] _ _ _ _ "op-1" b hb rfl rfl rfl).2 ?_ fun _ _ _ _ h => h
    rintro ⟨-, -, hperm, -⟩
    exact absurd hperm.length_eq (by decide)

end DbProxy
