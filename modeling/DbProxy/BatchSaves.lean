/-
Ordinary saves one at a time and in batches (`save_batch`, `save` and
`StorageBackend::save_multi`).

An ordinary entry reads and writes three cells: the row and the repair target of
its record and the receipt of its request id.  `saveCell` is that function;
`saveEntry_run` says that the statements of an entry compute it, so a rejected
entry leaves no trace and entries with other keys do not meet.

* `saveBatch_eq_saveEach` — a batch that commits is the saves one after the
  other;
* `saveEach_independent` — entries with distinct records and request ids,
  each as if it were alone;
* `batchSaves_equal_single` — both, with the sorted batches of `save_multi`.
-/
import DbProxy.SnapshotSaves
import DbProxy.SortOn

namespace DbProxy

open EarlyReturn

/-! ### One entry -/

/-- What an ordinary entry reads and writes. -/
structure SaveCell where
  row : Option SnapshotRow
  receipt : Option IdempotencyRow
  repair : Option Revision

def Postgres.cell (pg : Postgres) (request : SnapshotWrite) : SaveCell where
  row := pg.snapshots request.record
  receipt := pg.idempotency request.requestId
  repair := pg.repairs request.record

def Postgres.setCell (pg : Postgres) (request : SnapshotWrite) (cell : SaveCell) : Postgres where
  snapshots := Function.update pg.snapshots request.record cell.row
  idempotency := Function.update pg.idempotency request.requestId cell.receipt
  repairs := Function.update pg.repairs request.record cell.repair

/-- `GREATEST` of the stored target and the new one. -/
def SaveCell.target (cell : SaveCell) (revision : Revision) : Revision :=
  max (cell.repair.getD revision) revision

/-- An ordinary entry on its cells: the error that ends the transaction, or its result. -/
def saveCell (request : SnapshotWrite) (p : PreparedSave) (cell : SaveCell) :
    Except StorageError (Except StorageError SnapshotWriteOutcome × SaveCell) :=
  if [request.requestId, request.record.ns, request.record.key, request.schema].any hasNul then
    .error nulError
  else
    match cell.receipt with
    | some receipt =>
      if idempotencyMatches receipt request p then
        if bigintLimit ≤ receipt.revision then .error (.revisionTooLarge request.record)
        else .ok (.ok (.duplicate receipt.revision),
          { cell with repair := some (cell.target receipt.revision) })
      else .ok (.error (.core (.idempotencyConflict request.requestId)), cell)
    | none =>
      let current := (cell.row.map (·.revision)).getD 0
      if p.expected.all (· = current) then
        if current + 1 < bigintLimit then
          .ok (.ok (.applied (current + 1)),
            { row := some (rowOf request p.updatedAt (current + 1)
                (cell.row.bind (·.queuedSequence)))
              receipt := some ⟨request.record, request.schema, request.schemaVersion,
                request.payload, p.expected, current + 1, some p.updatedAt⟩
              repair := some (cell.target (current + 1)) })
        else .error (.postgres "bigint out of range")
      else .ok (.error (.core (.revisionConflict request.record request.expectedRevision current)),
        cell)

@[simp] theorem Postgres.setCell_cell (pg : Postgres) (request : SnapshotWrite) :
    pg.setCell request (pg.cell request) = pg := by
  simp [setCell, cell]

theorem selectRevision_run {record : RecordKey} (pg : Postgres)
    (hnul : [record.ns, record.key].any hasNul = false) :
    (selectRevision record).run pg = .ok ((pg.snapshots record).map (·.revision)) pg := by
  rw [selectRevision, bind_run_ok (bindTexts_run hnul)]
  rfl

theorem dropReceipt_run {request : SnapshotWrite} (pg : Postgres)
    (hnul : [request.requestId].any hasNul = false) :
    (dropReceipt request).run pg = .ok () { pg with
      idempotency := Function.update pg.idempotency request.requestId
        ((pg.idempotency request.requestId).filter (·.revision ≠ 0)) } := by
  rw [dropReceipt, bind_run_ok (bindTexts_run hnul)]
  rfl

/-- The ordinary write: refused by the revision, out of range, or one revision further. -/
theorem upsertOrdinary_run (request : SnapshotWrite) (p : PreparedSave) (pg : Postgres)
    (hnul : [request.record.ns, request.record.key, request.schema].any hasNul = false) :
    (upsertOrdinary request p).run pg =
      let current := ((pg.snapshots request.record).map (·.revision)).getD 0
      if p.expected.all (· = current) then
        if current + 1 < bigintLimit then
          .ok (some (current + 1)) { pg with
            snapshots := Function.update pg.snapshots request.record
              (some (rowOf request p.updatedAt (current + 1)
                ((pg.snapshots request.record).bind (·.queuedSequence)))) }
        else .error (.postgres "bigint out of range") pg
      else .ok none pg := by
  rw [upsertOrdinary, bind_run_ok (bindTexts_run hnul), get_bind]
  cases hrow : pg.snapshots request.record with
  | none =>
    have hone : 0 + 1 < bigintLimit := by decide
    dsimp only [Option.map_none, Option.getD_none, Option.bind_none]
    rw [if_pos hone]
    split <;> rfl
  | some row =>
    dsimp only [Option.map_some, Option.getD_some, Option.bind_some]
    split
    · by_cases hlimit : row.revision + 1 < bigintLimit
      · rw [if_pos hlimit, bigintSucc, if_pos hlimit]
        rfl
      · rw [if_neg hlimit, bigintSucc, if_neg hlimit]
        rfl
    · rfl

/-- The end of a transaction, whatever was written before an error. -/
def Committed {α : Type} (x : TxM α) (pg : Postgres) :
    Except StorageError (α × Postgres) → Prop
  | .ok (a, pg') => x.run pg = .ok a pg'
  | .error e => ∃ m, x.run pg = .error e m

section PerEntry

variable {α : Type} {x : TxM α} {pg m : Postgres}

theorem perEntry_ok {a : α} (h : x.run pg = .ok a m) : (perEntry x).run pg = .ok (.ok a) m := by
  rw [EStateM.run] at h
  rw [EStateM.run, perEntry, h]

theorem perEntry_rejected {e : StoreError} (h : x.run pg = .error (.core e) m) :
    (perEntry x).run pg = .ok (.error (.core e)) m := by
  rw [EStateM.run] at h
  rw [EStateM.run, perEntry, h]

theorem perEntry_aborts {e : StorageError} (h : x.run pg = .error e m) (he : e.aborts = true) :
    (perEntry x).run pg = .error e m := by
  rw [EStateM.run] at h
  rw [EStateM.run, perEntry, h]
  cases e <;> first | rfl | cases he

end PerEntry

/-- The statements of an ordinary entry compute `saveCell`. -/
theorem saveSnapshotInTransaction_run (request : SnapshotWrite) {p : PreparedSave}
    (hfence : p.fence = none) (pg : Postgres) :
    Committed (perEntry (saveSnapshotInTransaction request p)) pg
      ((saveCell request p (pg.cell request)).map fun x => (x.1, pg.setCell request x.2)) := by
  rw [saveCell]
  by_cases hnul : [request.requestId, request.record.ns, request.record.key,
      request.schema].any hasNul = true
  · -- the claim itself is refused
    rw [if_pos hnul]
    refine ⟨pg, perEntry_aborts ?_ rfl⟩
    rw [saveSnapshotInTransaction, claimReceipt, bindTexts, if_pos hnul]
    rfl
  rw [if_neg hnul]
  have hnul : [request.requestId, request.record.ns, request.record.key,
      request.schema].any hasNul = false := by simpa using hnul
  have hid : [request.requestId].any hasNul = false := by
    simp only [List.any_cons, List.any_nil, Bool.or_eq_false_iff] at hnul ⊢
    exact ⟨hnul.1, trivial⟩
  have hkey : [request.record.ns, request.record.key].any hasNul = false := by
    simp only [List.any_cons, List.any_nil, Bool.or_eq_false_iff] at hnul ⊢
    exact ⟨hnul.2.1, hnul.2.2.1, trivial⟩
  have hwrite : [request.record.ns, request.record.key, request.schema].any hasNul = false := by
    simp only [List.any_cons, List.any_nil, Bool.or_eq_false_iff] at hnul ⊢
    exact hnul.2
  cases hreceipt : pg.idempotency request.requestId with
  | some receipt =>
    have hcell : (pg.cell request).receipt = some receipt := hreceipt
    have hclaim : (claimReceipt request p).run pg = .ok (some receipt) pg := by
      rw [claimReceipt, bind_run_ok (bindTexts_run hnul), get_bind, hreceipt]
      rfl
    rw [hcell]
    dsimp only
    by_cases hmatches : idempotencyMatches receipt request p = true
    · rw [if_pos hmatches]
      by_cases hlimit : bigintLimit ≤ receipt.revision
      · rw [if_pos hlimit]
        refine ⟨pg, perEntry_aborts ?_ rfl⟩
        rw [saveSnapshotInTransaction, bind_run_ok hclaim]
        dsimp only
        rw [if_pos hmatches, enqueueRepair, if_pos hlimit]
        rfl
      · rw [if_neg hlimit]
        refine perEntry_ok ?_
        rw [saveSnapshotInTransaction, bind_run_ok hclaim]
        dsimp only
        rw [if_pos hmatches, bind_run_ok (enqueueRepair_run hkey (Nat.not_le.mp hlimit))]
        simp [Postgres.setCell, Postgres.cell, SaveCell.target, ← hreceipt]
    · rw [if_neg hmatches]
      refine perEntry_rejected ?_
      rw [saveSnapshotInTransaction, bind_run_ok hclaim]
      dsimp only
      rw [if_neg hmatches, Postgres.setCell_cell]
      rfl
  | none =>
    have hcell : (pg.cell request).receipt = none := hreceipt
    rw [hcell]
    dsimp only
    -- the claim is in the table while the row is written
    set claimed : Postgres := { pg with
      idempotency := Function.update pg.idempotency request.requestId
        (some ⟨request.record, request.schema, request.schemaVersion, request.payload,
          p.expected, 0, some p.updatedAt⟩) } with hclaimed
    have hclaim : (claimReceipt request p).run pg = .ok none claimed := by
      rw [claimReceipt, bind_run_ok (bindTexts_run hnul), get_bind, hreceipt]
      rfl
    have hupsert : (saveSnapshotInTransaction request p).run pg =
        (saveOrdinarySnapshot request p).run claimed := by
      rw [saveSnapshotInTransaction, bind_run_ok hclaim]
      dsimp only
      rw [hfence]
    have hwritten := upsertOrdinary_run request p claimed hwrite
    dsimp only at hwritten
    set current := ((pg.snapshots request.record).map (·.revision)).getD 0 with hcurrent
    rw [show (claimed.snapshots request.record) = pg.snapshots request.record from rfl] at hwritten
    rw [show ((pg.cell request).row.map (·.revision)).getD 0 = current from rfl]
    by_cases hexpected : p.expected.all (· = current) = true
    · rw [if_pos hexpected] at hwritten ⊢
      by_cases hlimit : current + 1 < bigintLimit
      · -- written: the claim gets its revision and the repair its target
        rw [if_pos hlimit] at hwritten ⊢
        refine perEntry_ok ?_
        rw [hupsert, saveOrdinarySnapshot, bind_run_ok hwritten]
        dsimp only
        rw [bind_run_ok (setReceiptRevision_run hid hlimit),
          bind_run_ok (enqueueRepair_run hkey hlimit)]
        simp [Postgres.setCell, Postgres.cell, SaveCell.target, hclaimed]
      · rw [if_neg hlimit] at hwritten ⊢
        refine ⟨claimed, perEntry_aborts ?_ rfl⟩
        rw [hupsert, saveOrdinarySnapshot, bind_run_error hwritten]
    · -- refused by the revision: the claim is taken back
      rw [if_neg hexpected] at hwritten ⊢
      refine perEntry_rejected ?_
      rw [hupsert, saveOrdinarySnapshot, bind_run_ok hwritten]
      dsimp only
      have hback : { claimed with
          idempotency := Function.update claimed.idempotency request.requestId
            ((claimed.idempotency request.requestId).filter (·.revision ≠ 0)) } = pg := by
        have hfilter : (claimed.idempotency request.requestId).filter (·.revision ≠ 0) = none := by
          rw [hclaimed]
          simp [Option.filter]
        rw [hfilter, hclaimed, Function.update_idem, ← hreceipt, Function.update_eq_self]
      rw [bind_run_ok (selectRevision_run claimed hkey), bind_run_ok (dropReceipt_run claimed hid),
        hback, Postgres.setCell_cell]
      rfl

/-- An entry of an ordinary batch on its cells, with the checks before the transaction. -/
def entryCell (request : SnapshotWrite) (cell : SaveCell) :
    Except StorageError (Except StorageError SnapshotWriteOutcome × SaveCell) :=
  match prepareSave request none with
  | .error e => .ok (.error e, cell)
  | .ok p => saveCell request p cell

theorem saveEntry_run (request : SnapshotWrite) (pg : Postgres) :
    Committed (saveEntry request none) pg
      ((entryCell request (pg.cell request)).map fun x => (x.1, pg.setCell request x.2)) := by
  rw [entryCell, saveEntry]
  cases hprepare : prepareSave request none with
  | error e =>
    show _ = _
    rw [Postgres.setCell_cell]
    rfl
  | ok p => exact saveSnapshotInTransaction_run request (prepareSave_ok hprepare).1 pg

/-- An entry without an outcome leaves its cells as they were. -/
theorem entryCell_rejected {request : SnapshotWrite} {cell cell' : SaveCell} {e : StorageError}
    (h : entryCell request cell = .ok (.error e, cell')) : cell' = cell := by
  rw [entryCell] at h
  split at h
  · cases h
    rfl
  · rw [saveCell] at h
    split at h
    · cases h
    · split at h
      · split at h
        · split at h <;> cases h
        · cases h
          rfl
      · dsimp only at h
        split at h
        · split at h <;> cases h
        · cases h
          rfl

/-! ### Single saves and batches -/

/-- `PostgresSnapshotStore::save`: a batch of one. -/
def PostgresSnapshotStore.save (request : SnapshotWrite) (pg : Postgres) :
    Except StorageError SnapshotWriteOutcome × Postgres :=
  match saveBatch [request] pg with
  | (.error e, pg) => (.error e, pg)
  | (.ok results, pg) =>
    (results.getLast?.getD
      (.error (.persistenceProtocol "single save result is missing")), pg)

/-- The saves one after the other. -/
def saveEach : List SnapshotWrite → Postgres →
    List (Except StorageError SnapshotWriteOutcome) × Postgres
  | [], pg => ([], pg)
  | request :: rest, pg =>
    let (result, pg) := PostgresSnapshotStore.save request pg
    let (results, pg) := saveEach rest pg
    (result :: results, pg)

/-- `TieredSnapshotStore::save_batch`, without the cache it synchronizes. -/
def TieredSnapshotStore.saveBatch (requests : List SnapshotWrite) (pg : Postgres) :
    Except StorageError (List (Except StorageError SnapshotWriteOutcome)) × Postgres :=
  match DbProxy.saveBatch requests pg with
  | (.error e, pg) => (.error e, pg)
  | (.ok outcomes, pg) => (.ok (rereadDuplicates pg.snapshots (requests.zip outcomes)), pg)

def TieredSnapshotStore.save (request : SnapshotWrite) (pg : Postgres) :
    Except StorageError SnapshotWriteOutcome × Postgres :=
  match TieredSnapshotStore.saveBatch [request] pg with
  | (.error e, pg) => (.error e, pg)
  | (.ok outcomes, pg) =>
    (outcomes.getLast?.getD
      (.error (.persistenceProtocol "single tiered save result is missing")), pg)

def StorageBackend.save (request : SnapshotWrite) (pg : Postgres) :
    Except BackendError SnapshotWriteOutcome × Postgres :=
  match TieredSnapshotStore.save request pg with
  | (result, pg) => (result.mapError .storage, pg)

/-- `StorageBackend::save_multi`: saved in the order of the records, answered in the order of
the caller. -/
def StorageBackend.saveMulti (requests : List SnapshotWrite) (pg : Postgres) :
    Except BackendError (List (Except BackendError SnapshotWriteOutcome)) × Postgres :=
  let indexed := sortOn (fun x => x.1.record) requests.zipIdx
  match TieredSnapshotStore.saveBatch (indexed.map Prod.fst) pg with
  | (.error e, pg) => (.error (.storage e), pg)
  | (.ok outcomes, pg) =>
    if outcomes.length ≠ indexed.length then
      (.error (.worker "batch save result count mismatch"), pg)
    else
      let restored := sortOn Prod.fst ((indexed.map Prod.snd).zip outcomes)
      (.ok (restored.map fun x => x.2.mapError .storage), pg)

open PostgresSnapshotStore

/-- A save with a result is its entry in a transaction of its own. -/
theorem save_of_ok {request : SnapshotWrite} {pg pg' : Postgres}
    {result : Except StorageError SnapshotWriteOutcome}
    (h : (saveEntry request none).run pg = .ok result pg') : save request pg = (result, pg') := by
  have hentries : (saveEntries [(request, none)]).run pg = .ok [result] pg' := by
    rw [saveEntries, bind_run_ok h]
    rfl
  rw [save, saveBatch, saveBatchFenced, List.map_cons, List.map_nil, hentries]
  rfl

theorem save_of_error {request : SnapshotWrite} {pg m : Postgres} {e : StorageError}
    (h : (saveEntry request none).run pg = .error e m) : save request pg = (.error e, pg) := by
  have hentries : (saveEntries [(request, none)]).run pg = .error e m := by
    rw [saveEntries, bind_run_error h]
  rw [save, saveBatch, saveBatchFenced, List.map_cons, List.map_nil, hentries]

/-- What a save returns and what it leaves, from its cells. -/
theorem save_eq (request : SnapshotWrite) (pg : Postgres) :
    save request pg =
      match entryCell request (pg.cell request) with
      | .ok (result, cell) => (result, pg.setCell request cell)
      | .error e => (.error e, pg) := by
  have hrun := saveEntry_run request pg
  cases hcell : entryCell request (pg.cell request) with
  | ok x =>
    rw [hcell] at hrun
    exact save_of_ok hrun
  | error e =>
    rw [hcell] at hrun
    obtain ⟨m, hrun⟩ := hrun
    exact save_of_error hrun

/-- **A save without an outcome leaves no trace.** -/
theorem save_rejected {request : SnapshotWrite} {pg : Postgres} {e : StorageError}
    (h : (save request pg).1 = .error e) : (save request pg).2 = pg := by
  rw [save_eq] at h ⊢
  cases hcell : entryCell request (pg.cell request) with
  | error e => rfl
  | ok x =>
    obtain ⟨result, cell⟩ := x
    rw [hcell] at h
    dsimp only at h ⊢
    subst h
    rw [entryCell_rejected hcell, Postgres.setCell_cell]

/-- The loop of a batch that gets through is the saves one after the other. -/
theorem saveEntries_eq_saveEach : ∀ {requests : List SnapshotWrite} {pg pg' : Postgres}
    {results : List (Except StorageError SnapshotWriteOutcome)},
    (saveEntries (requests.map fun request => (request, none))).run pg = .ok results pg' →
    saveEach requests pg = (results, pg')
  | [], _, _, _, h => by
    cases h
    rfl
  | request :: rest, pg, pg', results, h => by
    rw [List.map_cons, saveEntries] at h
    obtain ⟨result, m, hentry, h⟩ := bind_run_eq_ok.mp h
    obtain ⟨results', m', hrest, h⟩ := bind_run_eq_ok.mp h
    cases h
    rw [saveEach, save_of_ok hentry]
    dsimp only
    rw [saveEntries_eq_saveEach hrest]

/-- The loop of a batch stops where a save of its own would. -/
theorem saveEntries_error : ∀ {requests : List SnapshotWrite} {pg m : Postgres} {e : StorageError},
    (saveEntries (requests.map fun request => (request, none))).run pg = .error e m →
    ∃ done request rest, requests = done ++ request :: rest ∧
      (save request (saveEach done pg).2).1 = .error e
  | [], _, _, _, h => by cases h
  | request :: rest, pg, m, e, h => by
    rw [List.map_cons, saveEntries] at h
    rcases bind_run_eq_error.mp h with hentry | ⟨result, m₁, hentry, h⟩
    · exact ⟨[], request, rest, rfl, by rw [saveEach, save_of_error hentry]⟩
    · rcases bind_run_eq_error.mp h with hrest | ⟨results, m₂, -, h⟩
      · obtain ⟨done, request', rest', rfl, hsave⟩ := saveEntries_error hrest
        refine ⟨request :: done, request', rest', rfl, ?_⟩
        rw [saveEach, save_of_ok hentry]
        exact hsave
      · cases h

/-- **A batch is its saves one after the other**: with the same results and the same tables
if it commits, and rolled back where one of the saves fails. -/
theorem saveBatch_eq_saveEach (requests : List SnapshotWrite) (pg : Postgres) :
    (∀ results pg', saveBatch requests pg = (.ok results, pg') →
      saveEach requests pg = (results, pg')) ∧
    ∀ e pg', saveBatch requests pg = (.error e, pg') → pg' = pg ∧
      ∃ done request rest, requests = done ++ request :: rest ∧
        (save request (saveEach done pg).2).1 = .error e := by
  rw [saveBatch, saveBatchFenced]
  cases hrun : (saveEntries (requests.map fun request => (request, none))).run pg with
  | ok results m =>
    refine ⟨fun results' pg' h => ?_, fun e pg' h => ?_⟩
    · cases h
      exact saveEntries_eq_saveEach hrun
    · cases h
  | error e m =>
    refine ⟨fun results' pg' h => ?_, fun e' pg' h => ?_⟩
    · cases h
    · cases h
      exact ⟨rfl, saveEntries_error hrun⟩

/-! ### Entries that do not meet -/

/-- Other cells stay as they are. -/
theorem cell_setCell {request other : SnapshotWrite} (hrecord : other.record ≠ request.record)
    (hid : other.requestId ≠ request.requestId) (pg : Postgres) (cell : SaveCell) :
    (pg.setCell request cell).cell other = pg.cell other := by
  simp [Postgres.setCell, Postgres.cell, hrecord, hid]

/-- A save reads its own cells only. -/
theorem save_congr {request : SnapshotWrite} {pg pg' : Postgres}
    (h : pg.cell request = pg'.cell request) :
    (save request pg).1 = (save request pg').1 ∧
      (save request pg).2.snapshots request.record =
        (save request pg').2.snapshots request.record := by
  have hrow : pg.snapshots request.record = pg'.snapshots request.record :=
    congrArg SaveCell.row h
  rw [save_eq, save_eq, ← h]
  cases entryCell request (pg.cell request) with
  | ok x => simp [Postgres.setCell]
  | error e => exact ⟨rfl, hrow⟩

theorem saveEach_untouched {r : RecordKey} : ∀ {requests : List SnapshotWrite} (pg : Postgres),
    (∀ q ∈ requests, q.record ≠ r) → (saveEach requests pg).2.snapshots r = pg.snapshots r
  | [], _, _ => rfl
  | request :: rest, pg, hr => by
    have hhead : (save request pg).2.snapshots r = pg.snapshots r := by
      have hne : r ≠ request.record := fun h => hr request (List.mem_cons_self ..) h.symm
      rw [save_eq]
      split
      · exact Function.update_of_ne hne _ _
      · rfl
    rw [saveEach]
    dsimp only
    rw [saveEach_untouched _ fun q hq => hr q (List.mem_cons_of_mem _ hq), hhead]

/-- **Entries with distinct records and request ids**: each has the result and leaves the row
that it would alone. -/
theorem saveEach_independent : ∀ {requests : List SnapshotWrite} (pg : Postgres),
    (requests.map (·.record)).Nodup → (requests.map (·.requestId)).Nodup →
    (saveEach requests pg).1 = requests.map (fun request => (save request pg).1) ∧
      ∀ request ∈ requests, (saveEach requests pg).2.snapshots request.record =
        (save request pg).2.snapshots request.record
  | [], _, _, _ => ⟨rfl, fun _ h => by cases h⟩
  | request :: rest, pg, hrecords, hids => by
    rw [List.map_cons, List.nodup_cons] at hrecords hids
    obtain ⟨hresults, hrows⟩ :=
      saveEach_independent (save request pg).2 hrecords.2 hids.2
    -- what comes later does not see the first entry
    have hlater : ∀ other ∈ rest, (save request pg).2.cell other = pg.cell other := by
      intro other hother
      rw [save_eq]
      split
      · refine cell_setCell (fun h => hrecords.1 ?_) (fun h => hids.1 ?_) _ _
        · exact List.mem_map.mpr ⟨other, hother, h⟩
        · exact List.mem_map.mpr ⟨other, hother, h⟩
      · rfl
    refine ⟨?_, fun other hother => ?_⟩
    · rw [saveEach, List.map_cons]
      dsimp only
      rw [hresults]
      congr 1
      exact List.map_congr_left fun other hother => (save_congr (hlater other hother)).1
    · rw [saveEach]
      dsimp only
      rcases List.mem_cons.mp hother with rfl | hother
      · exact saveEach_untouched _ fun q hq h => hrecords.1 (List.mem_map.mpr ⟨q, hq, h⟩)
      · rw [hrows other hother]
        exact (save_congr (hlater other hother)).2

/-! ### The batches of the server -/

/-- The result of an entry after its record was read again. -/
def rereadOutcome (row : Option SnapshotRow) (request : SnapshotWrite) :
    Except StorageError SnapshotWriteOutcome → Except StorageError SnapshotWriteOutcome
  | .ok (.duplicate revision) =>
    if row.isSome then .ok (.duplicate revision) else .error (.missingAfterWrite request.record)
  | .ok (.applied revision) => .ok (.applied revision)
  | .error e => .error e

/-- With distinct records every duplicate is read again for itself. -/
theorem rereadDuplicates_distinct (g : SnapshotWrite → Except StorageError SnapshotWriteOutcome) :
    ∀ {requests : List SnapshotWrite} (rows : RecordKey → Option SnapshotRow),
      (requests.map (·.record)).Nodup →
      rereadDuplicates rows (requests.zip (requests.map g)) =
        requests.map fun request => rereadOutcome (rows request.record) request (g request)
  | [], _, _ => rfl
  | request :: rest, rows, hnodup => by
    rw [List.map_cons, List.nodup_cons] at hnodup
    rw [List.map_cons, List.zip_cons_cons, List.map_cons]
    cases hg : g request with
    | error e =>
      rw [rereadDuplicates, rereadDuplicates_distinct g rows hnodup.2]
      · rfl
      · simp
    | ok outcome =>
      cases outcome with
      | applied revision =>
        rw [rereadDuplicates, rereadDuplicates_distinct g rows hnodup.2]
        · rfl
        · simp
      | duplicate revision =>
        rw [rereadDuplicates, rereadDuplicates_distinct g _ hnodup.2]
        -- the record that was handed out is not asked for again
        congr 1
        refine List.map_congr_left fun other hother => ?_
        have hne : other.record ≠ request.record := fun h =>
          hnodup.1 (List.mem_map.mpr ⟨other, hother, h⟩)
        rw [Function.update_of_ne hne]

theorem tieredSave_eq (request : SnapshotWrite) (pg : Postgres) :
    TieredSnapshotStore.save request pg =
      (rereadOutcome ((save request pg).2.snapshots request.record) request (save request pg).1,
        (save request pg).2) := by
  rw [TieredSnapshotStore.save, TieredSnapshotStore.saveBatch]
  cases hsave : saveBatch [request] pg with
  | mk saved pg' =>
    cases saved with
    | error e =>
      have hsingle : save request pg = (.error e, pg') := by
        rw [save, hsave]
      rw [hsingle]
      rfl
    | ok results =>
      have hsingle := (saveBatch_eq_saveEach [request] pg).1 results pg' hsave
      simp only [saveEach, Prod.mk.injEq] at hsingle
      obtain ⟨rfl, rfl⟩ := hsingle
      have hnodup : ([request].map (·.record)).Nodup := List.nodup_singleton _
      have hreread := rereadDuplicates_distinct (fun _ => (save request pg).1)
        (save request pg).2.snapshots hnodup
      rw [List.map_cons, List.map_nil] at hreread
      dsimp only
      rw [hreread]
      rfl

/-- The batch that `save_multi` hands to its store. -/
theorem indexed_map_fst (requests : List SnapshotWrite) :
    (sortOn (fun x : SnapshotWrite × ℕ => x.1.record) requests.zipIdx).map Prod.fst =
      sortOn (·.record) requests := by
  have hsorted := sortOn_map (·.record) (Prod.fst : SnapshotWrite × ℕ → SnapshotWrite)
    requests.zipIdx
  rw [List.zipIdx_map_fst] at hsorted
  exact hsorted.symm

/-- The tables after `save_multi` are those of the sorted batch. -/
theorem saveMulti_state (requests : List SnapshotWrite) (pg : Postgres) :
    (StorageBackend.saveMulti requests pg).2 = (saveBatch (sortOn (·.record) requests) pg).2 := by
  rw [StorageBackend.saveMulti]
  dsimp only
  rw [indexed_map_fst, TieredSnapshotStore.saveBatch]
  cases saveBatch (sortOn (·.record) requests) pg with
  | mk saved pg' =>
    cases saved with
    | error e => rfl
    | ok results =>
      dsimp only
      split <;> rfl

/-- Every request of `save_multi` gets the answer of a lone save, in the place of the caller. -/
theorem saveMulti_outcomes {requests : List SnapshotWrite} {pg pg' : Postgres}
    {outcomes : List (Except BackendError SnapshotWriteOutcome)}
    (hrecords : (requests.map (·.record)).Nodup) (hids : (requests.map (·.requestId)).Nodup)
    (h : StorageBackend.saveMulti requests pg = (.ok outcomes, pg')) :
    outcomes = requests.map fun request => (StorageBackend.save request pg).1 := by
  set sorted := sortOn (fun q : SnapshotWrite => q.record) requests with hsorted
  have hrecords' : (sorted.map (·.record)).Nodup :=
    (map_sortOn_perm _ _ requests).nodup_iff.mpr hrecords
  have hids' : (sorted.map (·.requestId)).Nodup :=
    (map_sortOn_perm _ _ requests).nodup_iff.mpr hids
  rw [StorageBackend.saveMulti] at h
  dsimp only at h
  rw [indexed_map_fst, ← hsorted, TieredSnapshotStore.saveBatch] at h
  cases hsave : saveBatch sorted pg with
  | mk saved m =>
    rw [hsave] at h
    cases saved with
    | error e => cases h
    | ok results =>
      dsimp only at h
      split at h
      · cases h
      · cases h
        have heach := (saveBatch_eq_saveEach sorted pg).1 results pg' hsave
        obtain ⟨hresults, hrows⟩ := saveEach_independent pg hrecords' hids'
        rw [heach] at hresults hrows
        dsimp only at hresults hrows
        -- the answers of the sorted batch, request by request
        have hanswers : rereadDuplicates pg'.snapshots (sorted.zip results) =
            sorted.map fun request => (TieredSnapshotStore.save request pg).1 := by
          rw [hresults, rereadDuplicates_distinct _ _ hrecords']
          refine List.map_congr_left fun request hrequest => ?_
          rw [hrows request hrequest, tieredSave_eq]
        rw [hanswers, hsorted, ← indexed_map_fst requests]
        have hrestored := map_restore (fun q : SnapshotWrite => q.record)
          (fun request => (TieredSnapshotStore.save request pg).1) requests
        show List.map (Except.mapError BackendError.storage ∘ Prod.snd) _ = _
        rw [← List.map_map, hrestored, List.map_map]
        rfl

/-- **Batch saves equal single saves.**  A batch that commits returns at each position, and
leaves, what the saves one after the other do; where it is rolled back one of these saves
fails too; a save without an outcome leaves no trace.  With distinct records and request ids
`save_multi` answers every request as a lone save would, in the order of the caller, and the
order makes no difference to the tables. -/
theorem batchSaves_equal_single (pg : Postgres) :
    (∀ requests results pg', saveBatch requests pg = (.ok results, pg') →
      saveEach requests pg = (results, pg')) ∧
    (∀ requests e pg', saveBatch requests pg = (.error e, pg') → pg' = pg ∧
      ∃ done request rest, requests = done ++ request :: rest ∧
        (save request (saveEach done pg).2).1 = .error e) ∧
    (∀ request e, (save request pg).1 = .error e → (save request pg).2 = pg) ∧
    ∀ requests : List SnapshotWrite, (requests.map (·.record)).Nodup →
      (requests.map (·.requestId)).Nodup →
      (∀ outcomes pg', StorageBackend.saveMulti requests pg = (.ok outcomes, pg') →
        outcomes = requests.map fun request => (StorageBackend.save request pg).1) ∧
      ∀ requests', requests'.Perm requests →
        (StorageBackend.saveMulti requests' pg).2 = (StorageBackend.saveMulti requests pg).2 := by
  refine ⟨fun requests => (saveBatch_eq_saveEach requests pg).1,
    fun requests => (saveBatch_eq_saveEach requests pg).2, fun request e => save_rejected,
    fun requests hrecords hids => ⟨fun outcomes pg' => saveMulti_outcomes hrecords hids, ?_⟩⟩
  intro requests' hperm
  rw [saveMulti_state, saveMulti_state, sortOn_eq_of_perm hperm.symm hrecords]

/-- A save of one player's record. -/
def batchedSave (id key : String) (expected : Option Revision) : SnapshotWrite where
  requestId := id
  record := ⟨"player", key⟩
  expectedRevision := expected
  schema := "profile"
  schemaVersion := 1
  payload := []
  updatedAtUnixMs := 1

/-- One record twice, the second time with a stale revision; and two records out of order. -/
theorem batchSaves_equal_single_pairs :
    let stale := [batchedSave "a" "1" none, batchedSave "b" "1" (some 0)]
    let crossed := [batchedSave "a" "2" none, batchedSave "b" "1" (some 0)]
    saveEach stale {} = ([.ok (.applied 1),
      .error (.core (.revisionConflict ⟨"player", "1"⟩ (some 0) 1))], (saveBatch stale {}).2) ∧
    [.ok (.applied 1), .ok (.applied 1)] =
      crossed.map fun request => (StorageBackend.save request {}).1 :=
  ⟨(batchSaves_equal_single {}).1 _ _ _ rfl,
    ((batchSaves_equal_single {}).2.2.2 _ (by decide) (by decide)).1 _ _ rfl⟩

end DbProxy
