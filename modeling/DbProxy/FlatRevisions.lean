/-
How far one write of the flat store raises revisions.

A write leaves the revision of a record and the version of a trade as they are, or
raises them by one.  So the largest of them is no larger than the number of writes, and
what holds a bound at the end of a run held it all along.

* `StoreView.Raises` — one write;
* `Flat.callAll_below`, `Flat.below_of_callAll` — a sequence of writes.
-/
import DbProxy.FlatAcceptance
import DbProxy.PostgresTrades
import DbProxy.ShardTransparency

namespace DbProxy

open KeyedMap

namespace StoreView

variable {D : Type} {v v' : StoreView D} {limit : ℕ}

/-- The version of a trade, zero when it is absent. -/
def tradeVersion (v : StoreView D) (tradeId : String) : Revision :=
  ((v.trades tradeId).map (·.version)).getD 0

/-- Every revision and every trade version is below the limit. -/
structure Below (limit : ℕ) (v : StoreView D) : Prop where
  revisions : ∀ record, v.revision record < limit
  versions : ∀ tradeId, v.tradeVersion tradeId < limit

/-- Nothing falls, and nothing rises by more than one. -/
structure Raises (v v' : StoreView D) : Prop where
  revisions : ∀ record,
    v'.revision record = v.revision record ∨ v'.revision record = v.revision record + 1
  versions : ∀ tradeId, v'.tradeVersion tradeId = v.tradeVersion tradeId ∨
    v'.tradeVersion tradeId = v.tradeVersion tradeId + 1

theorem Raises.refl (v : StoreView D) : v.Raises v := ⟨fun _ => .inl rfl, fun _ => .inl rfl⟩

theorem Raises.below (h : v.Raises v') (hv : v.Below limit) : v'.Below (limit + 1) where
  revisions record := by
    rcases h.revisions record with heq | heq
    · rw [heq]
      exact (hv.revisions record).trans (Nat.lt_succ_self limit)
    · rw [heq]
      exact Nat.succ_lt_succ (hv.revisions record)
  versions tradeId := by
    rcases h.versions tradeId with heq | heq
    · rw [heq]
      exact (hv.versions tradeId).trans (Nat.lt_succ_self limit)
    · rw [heq]
      exact Nat.succ_lt_succ (hv.versions tradeId)

theorem Raises.revision_le (h : v.Raises v') (record : RecordKey) :
    v.revision record ≤ v'.revision record := by
  rcases h.revisions record with heq | heq
  · exact heq.ge
  · exact heq ▸ Nat.le_succ _

theorem Raises.version_le (h : v.Raises v') (tradeId : String) :
    v.tradeVersion tradeId ≤ v'.tradeVersion tradeId := by
  rcases h.versions tradeId with heq | heq
  · exact heq.ge
  · exact heq ▸ Nat.le_succ _

theorem Raises.below_before (h : v.Raises v') (hv' : v'.Below limit) : v.Below limit where
  revisions record := (h.revision_le record).trans_lt (hv'.revisions record)
  versions tradeId := (h.version_le tradeId).trans_lt (hv'.versions tradeId)

theorem Below.mono {limit' : ℕ} (h : v.Below limit) (hle : limit ≤ limit') : v.Below limit' :=
  ⟨fun record => (h.revisions record).trans_le hle,
    fun tradeId => (h.versions tradeId).trans_le hle⟩

/-! ### The writes -/

/-- A snapshot that is written over the current one. -/
theorem raises_update {record : RecordKey} {snapshot : SnapshotEnvelope}
    (hsnapshots : v'.snapshots = Function.update v.snapshots record (some snapshot))
    (hrevision : snapshot.revision = v.revision record + 1) (htrades : v'.trades = v.trades) :
    v.Raises v' where
  revisions r := by
    rw [revision, hsnapshots]
    by_cases hr : r = record
    · right
      rw [hr, Function.update_self, Option.map_some, Option.getD_some, hrevision]
    · left
      rw [Function.update_of_ne hr]
      rfl
  versions tradeId := .inl (by rw [tradeVersion, htrades]; rfl)

/-- The revision of a record after the writes of a transaction. -/
theorem revision_writeRecords {writes : List TransactionalRecordWrite}
    (hcurrent : ∀ w ∈ writes, v.revision w.record = w.expectedRevision) (record : RecordKey) :
    (v.writeRecords writes).revision record = if record ∈ writes.map (·.record) then
      v.revision record + 1 else v.revision record := by
  have hkeys : (writes.map (·.committed)).map (·.record) = writes.map (·.record) := by
    rw [List.map_map]
    rfl
  rw [revision, writeRecords]
  dsimp only
  by_cases hmem : record ∈ writes.map (·.record)
  · obtain ⟨s, hs, hrecord, hput⟩ := exists_insertAll_of_mem (m := v.snapshots) (hkeys ▸ hmem)
    obtain ⟨w, hw, rfl⟩ := List.mem_map.mp hs
    have hexpected : v.revision record = w.expectedRevision := by
      rw [← hrecord]
      exact hcurrent w hw
    rw [if_pos hmem, hput, hexpected]
    rfl
  · rw [if_neg hmem, insertAll_of_not_mem (hkeys ▸ hmem)]
    rfl

theorem raises_writeRecords {writes : List TransactionalRecordWrite}
    (hcurrent : ∀ w ∈ writes, v.revision w.record = w.expectedRevision) (record : RecordKey) :
    (v.writeRecords writes).revision record = v.revision record ∨
      (v.writeRecords writes).revision record = v.revision record + 1 := by
  rw [revision_writeRecords hcurrent]
  split
  · exact .inr rfl
  · exact .inl rfl

variable {cfg : MemoryConfig D}

theorem raises_save (v : StoreView D) (request : SnapshotWrite) : v.Raises (v.save cfg request) :=
  raises_update rfl rfl rfl

theorem raises_applyTransaction {request : TransactionalWrite}
    (hcurrent : v.revision request.record = request.expectedRevision) :
    v.Raises (v.applyTransaction cfg request) :=
  raises_update rfl (congrArg (· + 1) hcurrent.symm) rfl

theorem raises_commitRecords {request : MultiRecordTransactionalWrite} {effects : CommitEffects}
    (hcurrent : ∀ w ∈ request.writes, v.revision w.record = w.expectedRevision) :
    v.Raises (v.commitRecords cfg request effects) :=
  ⟨raises_writeRecords hcurrent, fun _ => .inl rfl⟩

theorem raises_applyTrade {request : TradeTransaction}
    (hcurrent : ∀ w ∈ request.writes, v.revision w.record = w.expectedRevision)
    (hversion : v.tradeVersion request.transition.tradeId = request.transition.expectedVersion) :
    v.Raises (v.applyTrade request) where
  revisions := raises_writeRecords hcurrent
  versions tradeId := by
    rw [tradeVersion, applyTrade]
    dsimp only
    by_cases hid : tradeId = request.transition.tradeId
    · right
      rw [hid, Function.update_self, hversion]
      rfl
    · left
      rw [Function.update_of_ne hid]
      rfl

/-! ### What the bound says about an applied write -/

theorem revision_update {record : RecordKey} {snapshot : SnapshotEnvelope}
    (hsnapshots : v'.snapshots = Function.update v.snapshots record (some snapshot)) :
    v'.revision record = snapshot.revision := by
  rw [revision, hsnapshots, Function.update_self]
  rfl

theorem Below.save {request : SnapshotWrite} (h : (v.save cfg request).Below limit) :
    v.revision request.record + 1 < limit := by
  have hrevision := revision_update (rfl : (v.save cfg request).snapshots = _)
  exact hrevision.symm.trans_lt (h.revisions request.record)

theorem Below.applyTransaction {request : TransactionalWrite}
    (h : (v.applyTransaction cfg request).Below limit) : request.expectedRevision + 1 < limit := by
  have hrevision := revision_update (rfl : (v.applyTransaction cfg request).snapshots = _)
  exact hrevision.symm.trans_lt (h.revisions request.record)

theorem Below.writeRecords {writes : List TransactionalRecordWrite}
    (h : ∀ record, (v.writeRecords writes).revision record < limit)
    (hcurrent : ∀ w ∈ writes, v.revision w.record = w.expectedRevision) :
    ∀ w ∈ writes, w.expectedRevision + 1 < limit := by
  intro w hw
  have hrevision := h w.record
  rw [revision_writeRecords hcurrent, if_pos (List.mem_map_of_mem hw)] at hrevision
  rwa [← hcurrent w hw]

theorem Below.applyTrade {request : TradeTransaction} (h : (v.applyTrade request).Below limit) :
    request.transition.expectedVersion + 1 < limit := by
  have hversion := h.versions request.transition.tradeId
  rw [tradeVersion, StoreView.applyTrade] at hversion
  dsimp only at hversion
  rwa [Function.update_self] at hversion

end StoreView

/-! ### Runs -/

namespace Flat

open Checks StoreView

variable {D : Type} [DecidableEq D] {cfg : MemoryConfig D} {v v' : StoreView D} {limit : ℕ}

omit [DecidableEq D] in
theorem raises_of_returns {α : Type} {x : Except StoreError (α × StoreView D)} {P : Prop}
    {r : α × StoreView D} {a : α} (h : Returns x P r) (hraises : P → v.Raises r.2)
    (hx : x = .ok (a, v')) : v.Raises v' := by
  obtain ⟨hP, heq⟩ := (h (a, v')).mp hx
  rw [show v' = r.2 from congrArg Prod.snd heq]
  exact hraises hP

/-- One write. -/
theorem call_raises {c : StoreCall} {a : c.backend.Value}
    (h : call cfg v c.backend = .ok (a, v')) : v.Raises v' := by
  cases c with
  | save request =>
    cases hreceipt : v.snapshotReceipts request.requestId with
    | some receipt => exact raises_of_returns (save_retry hreceipt) (fun _ => .refl v) h
    | none => exact raises_of_returns (save_first hreceipt) (fun _ => raises_save v request) h
  | applyTransaction request =>
    cases hreceipt : v.transactions request.operationId with
    | some receipt => exact raises_of_returns (applyTransaction_retry hreceipt) (fun _ => .refl v) h
    | none =>
      exact raises_of_returns (applyTransaction_first hreceipt)
        (fun hP => raises_applyTransaction hP.2.2.1) h
  | commitRecords request effects =>
    obtain ⟨normalEffects, heffects, hrest⟩ := bind_eq_ok.mp h
    obtain ⟨normal, hnormal, -⟩ := bind_eq_ok.mp hrest
    cases hreceipt : v.multiTransactions normal.operationId with
    | some receipt =>
      exact raises_of_returns (commitRecords_retry heffects hnormal hreceipt) (fun _ => .refl v) h
    | none =>
      exact raises_of_returns (commitRecords_first heffects hnormal hreceipt)
        (fun hP => raises_commitRecords fun w hw => (hP.2.2 w hw).1) h
  | applyTradeTransaction request =>
    obtain ⟨normal, hnormal, -⟩ := bind_eq_ok.mp h
    cases hstored : v.tradeTransactions normal.operationId with
    | some stored =>
      exact raises_of_returns (applyTradeTransaction_retry hnormal hstored) (fun _ => .refl v) h
    | none =>
      exact raises_of_returns (applyTradeTransaction_first hnormal hstored)
        (fun hP => raises_applyTrade (fun w hw => (hP.2.2.2.1 w hw).1) hP.2.1.1) h

/-- A sequence of writes raises nothing by more than its length. -/
theorem callAll_below : ∀ (calls : List StoreCall) {v : StoreView D} {limit : ℕ}, v.Below limit →
    (callAll cfg v (calls.map (·.backend))).2.Below (limit + calls.length)
  | [], _, _, h => h
  | c :: rest, v, limit, h => by
    have hlength : limit + 1 + rest.length = limit + (c :: rest).length := by
      rw [List.length_cons]
      omega
    rw [List.map_cons, callAll, ← hlength]
    cases hcall : call cfg v c.backend with
    | error e => exact callAll_below rest (h.mono (Nat.le_succ limit))
    | ok r => exact callAll_below rest ((call_raises hcall).below h)

/-- A sequence of writes lowers nothing. -/
theorem below_of_callAll : ∀ (calls : List StoreCall) {v : StoreView D},
    (callAll cfg v (calls.map (·.backend))).2.Below limit → v.Below limit
  | [], _, h => h
  | c :: rest, v, h => by
    rw [List.map_cons, callAll] at h
    cases hcall : call cfg v c.backend with
    | error e =>
      rw [hcall] at h
      exact below_of_callAll rest h
    | ok r =>
      rw [hcall] at h
      exact (call_raises hcall).below_before (below_of_callAll rest h)

end Flat

end DbProxy
