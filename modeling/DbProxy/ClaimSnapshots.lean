/-
What the commits of operation claims leave in the snapshots.

A first attempt compares the revision of each record under the record's lock and writes the
row when it commits.  Between the two no other call writes the record, so that the rows are
the replay of the requests that were answered as applied, in the order of their answers.

* `replayedRow` — the row that the applied requests of a history leave for a record;
* `SnapshotInv` — the rows are the replayed ones, and a compared record is where it was;
* `step_snapshotInv` — every step keeps it.
-/
import DbProxy.ClaimInvariant

namespace DbProxy

/-! ### The replay of a history -/

/-- What an answered request wrote to the record. -/
def Happening.writeOf (record : RecordKey) : Happening → Option TransactionalRecordWrite
  | answered _ request _ (.ok (.applied _ _)) => request.writes.find? (·.record = record)
  | answered _ _ _ (.ok (.duplicate _ _)) | answered _ _ _ (.error _) | purged _ => none

/-- The row that a history leaves for a record: the last applied write of the record, at the
revision that counts its applied writes. -/
def replayedRow (history : List Happening) (record : RecordKey) : Option SnapshotRow :=
  let writes := history.filterMap (·.writeOf record)
  writes.getLast?.map fun write =>
    ⟨write.schema, write.schemaVersion, writes.length, write.payload, write.updatedAtUnixMs, none⟩

theorem replayedRow_append_of_none {history extra : List Happening} {record : RecordKey}
    (h : ∀ x ∈ extra, x.writeOf record = none) :
    replayedRow (history ++ extra) record = replayedRow history record := by
  have hextra : extra.filterMap (·.writeOf record) = [] := List.filterMap_eq_nil_iff.mpr h
  simp only [replayedRow, List.filterMap_append, hextra, List.append_nil]

/-- The number of applied writes is the revision of the row. -/
theorem length_eq_revision (history : List Happening) (record : RecordKey) :
    (history.filterMap (·.writeOf record)).length =
      (replayedRow history record).elim 0 (·.revision) := by
  rw [replayedRow]
  cases hlast : (history.filterMap (·.writeOf record)).getLast? with
  | none => simp [List.getLast?_eq_none_iff.mp hlast]
  | some write => rfl

theorem replayedRow_append_of_some {history : List Happening} {x : Happening} {record : RecordKey}
    {write : TransactionalRecordWrite} (h : x.writeOf record = some write) :
    replayedRow (history ++ [x]) record =
      some ⟨write.schema, write.schemaVersion,
        (replayedRow history record).elim 0 (·.revision) + 1, write.payload,
        write.updatedAtUnixMs, none⟩ := by
  rw [← length_eq_revision]
  simp [replayedRow, List.filterMap_append, h]

/-- No replayed row has a queued sequence. -/
theorem replayedRow_queuedSequence (history : List Happening) (record : RecordKey) :
    (replayedRow history record).bind (·.queuedSequence) = none := by
  rw [replayedRow]
  cases (history.filterMap (·.writeOf record)).getLast? <;> rfl

/-! ### What the calls have compared -/

namespace CommitCall

/-- The writes whose records a call has compared, and the revisions that they get. -/
def compared (c : CommitCall) : List (TransactionalRecordWrite × Revision) :=
  match c.phase with
  | .locking _ revisions | .committing revisions => c.request.writes.zip revisions
  | _ => []

/-- What was compared is locked. -/
theorem mem_lockedRecords {c : CommitCall} {p : TransactionalRecordWrite × Revision}
    (h : p ∈ c.compared) : p.1.record ∈ c.lockedRecords := by
  rw [compared] at h
  rw [lockedRecords]
  cases hphase : c.phase with
  | locking rest revisions =>
    simp only [hphase] at h ⊢
    obtain ⟨n, hn, rfl⟩ := List.mem_iff_getElem.mp h
    rw [List.length_zip] at hn
    rw [List.getElem_zip]
    refine List.mem_map_of_mem (List.mem_iff_getElem.mpr ⟨n, ?_, ?_⟩)
    · rw [List.length_take]
      omega
    · rw [List.getElem_take]
  | committing revisions =>
    simp only [hphase] at h ⊢
    exact List.mem_map_of_mem (List.of_mem_zip h).1
  | _ => simp [hphase] at h

end CommitCall

namespace ClaimSystem

variable {decode : Bytes → Option EventEnvelope} {encode : CommitEffects → Bytes}
  {s t : ClaimSystem}

/-! ### The writes of a commit -/

theorem storeWrites_of_forall_ne {writes : List (TransactionalRecordWrite × Revision)}
    {snapshots : RecordKey → Option SnapshotRow} {record : RecordKey}
    (h : ∀ p ∈ writes, p.1.record ≠ record) :
    storeWrites snapshots writes record = snapshots record := by
  induction writes generalizing snapshots with
  | nil => rfl
  | cons p rest ih =>
    rw [storeWrites, ih fun q hq => h q (List.mem_cons_of_mem _ hq)]
    exact Function.update_of_ne (h p (List.mem_cons_self ..)).symm ..

theorem storeWrites_of_mem {writes : List (TransactionalRecordWrite × Revision)}
    {snapshots : RecordKey → Option SnapshotRow} {p : TransactionalRecordWrite × Revision}
    (hnodup : (writes.map (·.1.record)).Nodup) (hp : p ∈ writes) :
    storeWrites snapshots writes p.1.record =
      some (snapshotRow (snapshots p.1.record) p.1 p.2) := by
  induction writes generalizing snapshots with
  | nil => cases hp
  | cons q rest ih =>
    obtain ⟨hhead, hrest⟩ := List.nodup_cons.mp hnodup
    -- no later write is of the first record
    have hne : ∀ q' ∈ rest, q'.1.record ≠ q.1.record := fun q' hq' heq =>
      hhead (List.mem_map.mpr ⟨q', hq', heq⟩)
    rw [storeWrites]
    rcases List.mem_cons.mp hp with rfl | hp
    · rw [storeWrites_of_forall_ne hne, Function.update_self]
    · rw [ih hrest hp, Function.update_of_ne (hne p hp)]

/-! ### The invariant -/

structure SnapshotInv (s : ClaimSystem) : Prop where
  rows : ∀ record, s.tables.snapshots record = replayedRow s.history record
  /-- a compared record is still at the revision that was compared -/
  next : ∀ i, ∀ p ∈ (s.calls i).compared,
    p.2 = (s.tables.snapshots p.1.record).elim 0 (·.revision) + 1
  alone : ∀ i j, ∀ p ∈ (s.calls i).compared, ∀ q ∈ (s.calls j).compared,
    p.1.record = q.1.record → i = j

theorem init_snapshotInv : SnapshotInv {} where
  rows _ := rfl
  next _ p hp := by cases hp
  alone _ _ p hp := by cases hp

/-! ### Steps that write no snapshot -/

/-- No snapshot changes, no applied answer comes, and no call compares more. -/
theorem SnapshotInv.frame (inv : s.SnapshotInv) (extra : List Happening)
    (hsnapshots : t.tables.snapshots = s.tables.snapshots)
    (hhistory : t.history = s.history ++ extra)
    (hextra : ∀ x ∈ extra, ∀ record, x.writeOf record = none)
    (hcalls : ∀ j, (t.calls j).compared ⊆ (s.calls j).compared) : t.SnapshotInv where
  rows record := by
    rw [hsnapshots, hhistory, replayedRow_append_of_none fun x hx => hextra x hx record]
    exact inv.rows record
  next j p hp := by
    rw [hsnapshots]
    exact inv.next j p (hcalls j hp)
  alone i j p hp q hq := inv.alone i j p (hcalls i hp) q (hcalls j hq)

/-- One call changes, and it compares no more. -/
theorem SnapshotInv.setCall (inv : s.SnapshotInv) {i : ℕ} {c : CommitCall}
    (extra : List Happening) (hcalls : t.calls = Function.update s.calls i c)
    (hsnapshots : t.tables.snapshots = s.tables.snapshots)
    (hhistory : t.history = s.history ++ extra)
    (hextra : ∀ x ∈ extra, ∀ record, x.writeOf record = none)
    (hc : c.compared ⊆ (s.calls i).compared) : t.SnapshotInv := by
  refine inv.frame extra hsnapshots hhistory hextra fun j => ?_
  rw [hcalls, Function.update_apply]
  split
  · rename_i hj
    rwa [hj]
  · exact fun p hp => hp

theorem SnapshotInv.close (inv : s.SnapshotInv) (i : ℕ) : (s.close i).SnapshotInv :=
  inv.setCall [] rfl rfl (List.append_nil _).symm (fun x hx => by cases hx)
    (fun p hp => by cases hp)

theorem SnapshotInv.answer (inv : s.SnapshotInv) {i : ℕ}
    {outcome : Except StorageError MultiRecordTransactionalWriteOutcome}
    (h : ∀ records result, outcome ≠ .ok (.applied records result)) :
    (s.answer i outcome).SnapshotInv := by
  refine inv.setCall _ rfl rfl rfl (fun x hx record => ?_) (fun p hp => by cases hp)
  rw [List.mem_singleton.mp hx]
  rcases outcome with e | ⟨records, result⟩ | ⟨records, result⟩
  · rfl
  · exact absurd rfl (h records result)
  · rfl

theorem SnapshotInv.setPhase (inv : s.SnapshotInv) {i : ℕ} {phase : CommitPhase}
    (h : CommitCall.compared { s.calls i with phase } ⊆ (s.calls i).compared) :
    (s.setPhase i phase).SnapshotInv :=
  inv.setCall [] rfl rfl (List.append_nil _).symm (fun x hx => by cases hx) h

/-! ### Locks and commits -/

/-- A record that no other call has locked is compared. -/
theorem SnapshotInv.lockRecord (hinv : s.ClaimInv encode) (inv : s.SnapshotInv) {i : ℕ}
    {write : TransactionalRecordWrite} {rest : List TransactionalRecordWrite}
    {revisions : List Revision} (hphase : (s.calls i).phase = .locking (write :: rest) revisions)
    (hfree : s.recordLocked i write.record = false) :
    (s.lockRecord i write rest revisions).SnapshotInv := by
  rw [ClaimSystem.lockRecord]
  split
  · exact inv.answer (by simp)
  · split
    · exact inv.answer (by simp)
    · rename_i revision hnext
      obtain ⟨locked, hwrites, hlength⟩ := (hinv.shape i).locking _ _ hphase
      set c : CommitCall := { s.calls i with phase := .locking rest (revisions ++ [revision]) }
      have hbefore : (s.calls i).compared = locked.zip revisions := by
        rw [CommitCall.compared, hphase]
        show (s.calls i).request.writes.zip revisions = _
        rw [hwrites, ← List.append_nil revisions, List.zip_append hlength.symm]
        simp
      have hafter : c.compared = locked.zip revisions ++ [(write, revision)] := by
        show (s.calls i).request.writes.zip (revisions ++ [revision]) = _
        rw [hwrites, List.zip_append hlength.symm]
        simp
      -- the record is locked by no other call
      have hothers : ∀ j, j ≠ i → ∀ q ∈ (s.calls j).compared, q.1.record ≠ write.record := by
        intro j hj q hq heq
        have hlocked := CommitCall.mem_lockedRecords hq
        by_cases hlt : j < s.callCount
        · have hany := List.any_eq_false.mp hfree j (List.mem_range.mpr hlt)
          simp only [hj, ne_eq, not_false_eq_true, decide_true, Bool.true_and,
            List.any_eq_true, not_exists, not_and] at hany
          exact hany _ hlocked (by simp [heq])
        · rw [hinv.absent j (by omega)] at hq
          cases hq
      have hcall : ∀ j, (s.setPhase i (.locking rest (revisions ++ [revision]))).calls j =
          if j = i then c else s.calls j := fun j => Function.update_apply ..
      have hmem : ∀ j p, p ∈ ((s.setPhase i
          (.locking rest (revisions ++ [revision]))).calls j).compared →
          p ∈ (s.calls j).compared ∨ j = i ∧ p = (write, revision) := by
        intro j p hp
        rw [hcall] at hp
        split at hp
        · rename_i hj
          rw [hafter, ← hbefore] at hp
          rcases List.mem_append.mp hp with hp | hp
          · exact Or.inl (hj ▸ hp)
          · exact Or.inr ⟨hj, List.mem_singleton.mp hp⟩
        · exact Or.inl hp
      refine ⟨inv.rows, fun j p hp => ?_, fun j k p hp q hq heq => ?_⟩
      · rcases hmem j p hp with hp | ⟨-, rfl⟩
        · exact inv.next j p hp
        · exact (Revision.next_eq_some.mp hnext).2
      · rcases hmem j p hp with hp' | ⟨rfl, rfl⟩ <;> rcases hmem k q hq with hq' | ⟨rfl, rfl⟩
        · exact inv.alone j k p hp' q hq' heq
        · by_contra hne
          exact hothers j hne p hp' heq
        · by_contra hne
          exact hothers k (Ne.symm hne) q hq' heq.symm
        · rfl

/-- The writes of a request are found by their records. -/
theorem find?_write {request : MultiRecordTransactionalWrite} (h : request.Prepared)
    {write : TransactionalRecordWrite} (hwrite : write ∈ request.writes) :
    request.writes.find? (·.record = write.record) = some write := by
  have hnodup := h.nodup
  generalize request.writes = writes at hnodup hwrite
  induction writes with
  | nil => cases hwrite
  | cons a rest ih =>
    rw [List.map_cons, List.nodup_cons] at hnodup
    rcases List.mem_cons.mp hwrite with rfl | hwrite
    · simp
    · have hne : a.record ≠ write.record := fun heq =>
        hnodup.1 (heq ▸ List.mem_map_of_mem hwrite)
      rw [List.find?_cons_of_neg (by simpa using hne)]
      exact ih hnodup.2 hwrite

/-- The rows of a first attempt appear together with its answer. -/
theorem SnapshotInv.commitFirst (hinv : s.ClaimInv encode) (inv : s.SnapshotInv) {i : ℕ}
    {revisions : List Revision} {claim : ClaimRow}
    (hphase : (s.calls i).phase = .committing revisions) :
    SnapshotInv { s.answer i (.ok (.applied
        (((s.calls i).request.rows revisions).map (·.receipt)) (s.calls i).request.result)) with
      tables := commitTables encode s.tables (s.calls i).request (s.calls i).effects claim
        revisions } := by
  obtain ⟨hlength, -⟩ := (hinv.shape i).committing revisions hphase
  have hprepared := (hinv.shape i).prepared (by simp [hphase])
  set request := (s.calls i).request
  set x : Happening := .answered i request (s.calls i).effects
    (.ok (.applied ((request.rows revisions).map (·.receipt)) request.result))
  have hcompared : (s.calls i).compared = request.writes.zip revisions := by
    rw [CommitCall.compared, hphase]
  have hwrites : (request.writes.zip revisions).map Prod.fst = request.writes :=
    List.map_fst_zip hlength.ge
  have hrecords : (request.writes.zip revisions).map (·.1.record) =
      request.writes.map (·.record) := by
    conv_rhs => rw [← hwrites, List.map_map]
    rfl
  have hnodup : ((request.writes.zip revisions).map (·.1.record)).Nodup :=
    hrecords ▸ hprepared.nodup
  -- every other call has compared other records
  have hothers : ∀ j, j ≠ i → ∀ p ∈ (s.calls j).compared,
      ∀ q ∈ request.writes.zip revisions, q.1.record ≠ p.1.record := by
    intro j hj p hp q hq heq
    exact hj (inv.alone j i p hp q (hcompared ▸ hq) heq.symm)
  refine ⟨fun record => ?_, fun j p hp => ?_, fun j k p hp q hq => ?_⟩
  · show storeWrites s.tables.snapshots (request.writes.zip revisions) record =
      replayedRow (s.history ++ [x]) record
    by_cases hin : record ∈ request.writes.map (·.record)
    · -- the write of the record, and the revision that it was given
      rw [← hrecords] at hin
      obtain ⟨p, hp, rfl⟩ := List.mem_map.mp hin
      have hwrite : x.writeOf p.1.record = some p.1 := find?_write hprepared (List.of_mem_zip hp).1
      rw [storeWrites_of_mem hnodup hp, replayedRow_append_of_some hwrite, snapshotRow,
        inv.next i p (hcompared ▸ hp), inv.rows, replayedRow_queuedSequence]
    · have hnone : x.writeOf record = none := by
        refine List.find?_eq_none.mpr fun write hwrite heq => hin ?_
        exact List.mem_map.mpr ⟨write, hwrite, by simpa using heq⟩
      rw [storeWrites_of_forall_ne, replayedRow_append_of_none, inv.rows]
      · exact fun y hy => List.mem_singleton.mp hy ▸ hnone
      · rw [← hrecords] at hin
        exact fun p hp heq => hin (heq ▸ List.mem_map_of_mem hp)
  · change p ∈ (Function.update s.calls i { s.calls i with own := none, phase := .finished }
      j).compared at hp
    rw [Function.update_apply] at hp
    split at hp
    · cases hp
    · rename_i hj
      show p.2 = (storeWrites s.tables.snapshots (request.writes.zip revisions)
        p.1.record).elim 0 (·.revision) + 1
      rw [storeWrites_of_forall_ne (hothers j hj p hp)]
      exact inv.next j p hp
  · change p ∈ (Function.update s.calls i { s.calls i with own := none, phase := .finished }
      j).compared at hp
    change q ∈ (Function.update s.calls i { s.calls i with own := none, phase := .finished }
      k).compared at hq
    rw [Function.update_apply] at hp hq
    split at hp
    · cases hp
    · split at hq
      · cases hq
      · exact inv.alone j k p hp q hq

/-! ### Every step -/

theorem stepCall_snapshotInv {e : ClaimEvent} (hinv : s.ClaimInv encode) (inv : s.SnapshotInv)
    (h : s.stepCall decode encode e = some t) : t.SnapshotInv := by
  cases e with
  | begin request effects =>
    simp only [stepCall] at h
    split at h
    · cases h
    · obtain rfl := Option.some.inj h
      exact inv.setCall [] rfl rfl (List.append_nil _).symm (fun x hx => by cases hx)
        (fun p hp => by cases hp)
  | insertClaim i now =>
    simp only [stepCall] at h
    split at h
    · cases h
    · split at h
      · obtain rfl := Option.some.inj h
        exact inv.setPhase fun p hp => by cases hp
      · obtain rfl := Option.some.inj h
        exact inv.setCall [] rfl rfl (List.append_nil _).symm (fun x hx => by cases hx)
          (fun p hp => by cases hp)
  | lockShare i =>
    simp only [stepCall, ClaimSystem.lockShare] at h
    (repeat' split at h) <;> first
      | contradiction
      | (obtain rfl := Option.some.inj h; exact inv.answer (by simp))
      | (obtain rfl := Option.some.inj h; exact inv.setPhase fun p hp => by cases hp)
  | insertHeader i =>
    simp only [stepCall, Option.ite_none_left_eq_some] at h
    obtain ⟨-, h⟩ := h
    split at h
    · obtain rfl := Option.some.inj h
      exact inv.answer (by simp)
    · split at h
      · obtain rfl := Option.some.inj h
        exact inv.setPhase fun p hp => by cases hp
      · obtain rfl := Option.some.inj h
        refine inv.setPhase fun p hp => ?_
        simp [CommitCall.compared] at hp
  | lockRecord i =>
    simp only [stepCall] at h
    split at h
    · rename_i write rest revisions hphase
      simp only [Option.ite_none_left_eq_some, Option.some.injEq] at h
      obtain ⟨hfree, rfl⟩ := h
      exact inv.lockRecord hinv hphase (by simpa using hfree)
    · cases h
  | persist i =>
    simp only [stepCall] at h
    split at h
    · rename_i revisions hphase
      split at h
      · obtain rfl := Option.some.inj h
        exact inv.answer (by simp)
      · obtain rfl := Option.some.inj h
        refine inv.setPhase fun p hp => ?_
        rw [CommitCall.compared, hphase]
        exact hp
    · cases h
  | refuse i e =>
    simp only [stepCall, Option.ite_none_right_eq_some, Option.some.injEq] at h
    obtain ⟨-, rfl⟩ := h
    exact inv.answer (by simp)
  | commit i =>
    simp only [stepCall] at h
    split at h
    · obtain rfl := Option.some.inj h
      exact inv.answer (by simp)
    · rename_i revisions claim hphase hown
      obtain rfl := Option.some.inj h
      exact inv.commitFirst hinv hphase
    · cases h
  | cancel i =>
    simp only [stepCall, Option.ite_none_left_eq_some, Option.some.injEq] at h
    obtain ⟨-, rfl⟩ := h
    exact inv.close i
  | _ =>
    simp only [stepCall] at h
    (repeat' split at h) <;> first
      | contradiction
      | (obtain rfl := Option.some.inj h; exact inv.answer (by simp))
      | (obtain rfl := Option.some.inj h; exact inv.setPhase fun p hp => by cases hp)

theorem step_snapshotInv {e : ClaimEvent} (hinv : s.ClaimInv encode) (inv : s.SnapshotInv)
    (h : s.step decode encode e = some t) : t.SnapshotInv := by
  have hnone : ∀ x ∈ ([] : List Happening), ∀ record, x.writeOf record = none := fun x hx => by
    cases hx
  cases e with
  | otherClaim id kind now =>
    simp only [step, Option.ite_none_left_eq_some, Option.some.injEq] at h
    obtain ⟨-, rfl⟩ := h
    exact inv.frame [] rfl (List.append_nil _).symm hnone fun _ p hp => hp
  | openWorker kind now retention =>
    obtain rfl := Option.some.inj h
    exact inv.frame [] rfl (List.append_nil _).symm hnone fun _ p hp => hp
  | lockDue w id =>
    simp only [step, stepWorker] at h
    split at h
    · simp only [Option.ite_none_right_eq_some, Option.some.injEq] at h
      obtain ⟨-, rfl⟩ := h
      exact inv.frame [] rfl (List.append_nil _).symm hnone fun _ p hp => hp
    · cases h
  | change w =>
    obtain ⟨worker, -, rfl⟩ := Option.map_eq_some_iff.mp h
    exact inv.frame [] rfl (List.append_nil _).symm hnone fun _ p hp => hp
  | commitWorker w =>
    simp only [step, stepWorker] at h
    split at h
    · rename_i worker _
      simp only [Option.ite_none_right_eq_some, Option.some.injEq] at h
      obtain ⟨-, rfl⟩ := h
      cases hkind : worker.kind with
      | retirement =>
        refine inv.frame [] ?_ ?_ hnone fun _ p hp => hp
        · simp [retentionTables, hkind]
        · simp
      | purge =>
        refine inv.frame (worker.due.map .purged) ?_ ?_ ?_ fun _ p hp => hp
        · simp [retentionTables, hkind]
        · simp
        · intro x hx record
          obtain ⟨_, -, rfl⟩ := List.mem_map.mp hx
          rfl
    · cases h
  | cancelWorker w =>
    obtain rfl := Option.some.inj h
    exact inv.frame [] rfl (List.append_nil _).symm hnone fun _ p hp => hp
  | _ =>
    simp only [step] at h
    exact stepCall_snapshotInv hinv inv h

end ClaimSystem

end DbProxy
