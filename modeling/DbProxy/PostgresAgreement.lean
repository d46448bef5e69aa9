/-
PostgreSQL and the volatile backend answer alike.

Both start empty.  After the same storable writes they have given the same answers, and
every lookup finds the same: `postgres_agrees` and `postgres_lookups_agree`.  The digest
of the volatile backend must tell the byte strings of the writes apart, and the encoding
of effects the effects of the commits; the revisions must fit a `BIGINT`, so there are
fewer than 2^63 writes.
-/
import DbProxy.PostgresSteps

namespace DbProxy

open Text EarlyReturn Checks KeyedMap

/-- The effects that a sequence of writes commits, in normal form. -/
def committedEffects (decode : Bytes → Option EventEnvelope) (calls : List StoreCall) :
    Set CommitEffects :=
  { normal | ∃ request effects, .commitRecords request effects ∈ calls ∧
    effects.normalize decode = .ok normal }

/-- The answer to a call, whatever the reason of a refusal. -/
def accepted {ε : Type} (answer : (c : BackendCall) × Except ε c.Value) :
    (c : BackendCall) × Option c.Value :=
  ⟨answer.1, answer.2.toOption⟩

/-- The answer to a write, as one to the method of the backend. -/
def PostgresSnapshotStore.StoreAnswer.backend (answer : StoreAnswer) :
    (c : BackendCall) × Except StorageError c.Value :=
  ⟨answer.1.backend, answer.2⟩

/-! ### Lookups -/

inductive StoreLookup
  | load (record : RecordKey)
  | loadReceipt (operationId : String) (record : RecordKey)
  | loadMultiReceipt (operationId : String) (records : List RecordKey)
  | loadTrade (tradeId : String)
  | loadTradeReceipt (operationId tradeId : String)

/-- The method of the backend. -/
def StoreLookup.backend : StoreLookup → BackendCall
  | load record => .load record
  | loadReceipt operationId record => .loadTransaction operationId record
  | loadMultiReceipt operationId records => .loadMultiTransaction operationId records
  | loadTrade tradeId => .loadTrade tradeId
  | loadTradeReceipt operationId tradeId => .loadTradeTransaction operationId tradeId

/-- What PostgreSQL asks of the arguments beyond the volatile backend. -/
def StoreLookup.Askable : StoreLookup → Prop
  | load record => Bindable [record.ns, record.key]
  | loadReceipt operationId record => Bindable [operationId] ∧ record.Named
  | loadMultiReceipt operationId records => Bindable [operationId] ∧ records ≠ [] ∧
      records.Nodup ∧ ∀ record ∈ records, record.Named
  | loadTrade tradeId => Bindable [tradeId]
  | loadTradeReceipt operationId _ => Bindable [operationId]

namespace PostgresSnapshotStore

def lookup (pg : PostgresTables) : (l : StoreLookup) → Except StorageError l.backend.Value
  | .load record => (committed (load record) pg).1
  | .loadReceipt operationId record => (committed (loadReceipt operationId record) pg).1
  | .loadMultiReceipt operationId records => (committed (loadMultiReceipt operationId records) pg).1
  | .loadTrade tradeId => (committed (loadTrade tradeId) pg).1
  | .loadTradeReceipt operationId tradeId => (committed (loadTradeReceipt operationId tradeId) pg).1

section Sequences

variable {D : Type} [DecidableEq D] {cfg : MemoryConfig D} {encode : CommitEffects → Bytes}
  {inputs : List Bytes} {known : Set CommitEffects} {v : StoreView D} {pg : PostgresTables}

/-- One write of any kind. -/
theorem perform_agrees (hencode : Set.InjOn encode known)
    (happart : TellsApart cfg.digest inputs) (h : Follows cfg encode inputs known v pg)
    {c : StoreCall} (hstorable : c.Storable pg.routes) (hinputs : ∀ b ∈ c.inputs, b ∈ inputs)
    (hknown : ∀ normal ∈ committedEffects cfg.decodeEnvelope [c], normal ∈ known)
    (hfits : StoresBelow (Flat.call cfg v c.backend)) :
    StepAgrees cfg encode inputs known v pg (perform cfg.decodeEnvelope encode pg c)
      (Flat.call cfg v c.backend) := by
  cases c with
  | save request =>
    exact save_agrees_flat h happart hstorable (hinputs _ (List.mem_singleton_self _)) hfits
  | applyTransaction request =>
    exact applyTransaction_agrees_flat h happart hstorable (hinputs _ (by simp [StoreCall.inputs]))
      (hinputs _ (by simp [StoreCall.inputs])) hfits
  | commitRecords request effects =>
    refine commitRecords_agrees_flat hencode h happart hstorable
      (hinputs _ (List.mem_cons_self ..)) (fun w hw => ?_) (fun normal hnormal => ?_) hfits
    · exact hinputs _ (List.mem_cons_of_mem _ (List.mem_map_of_mem hw))
    · exact hknown normal ⟨request, effects, List.mem_singleton_self _, hnormal⟩
  | applyTradeTransaction request => exact applyTrade_agrees_flat h hstorable hfits

/-- A sequence of writes. -/
theorem performAll_agrees (hencode : Set.InjOn encode known)
    (happart : TellsApart cfg.digest inputs) :
    ∀ (calls : List StoreCall) {v : StoreView D} {pg : PostgresTables},
      Follows cfg encode inputs known v pg →
      (Flat.callAll cfg v (calls.map (·.backend))).2.Below bigintLimit →
      (∀ c ∈ calls, c.Storable pg.routes) → (∀ c ∈ calls, ∀ b ∈ c.inputs, b ∈ inputs) →
      (∀ normal ∈ committedEffects cfg.decodeEnvelope calls, normal ∈ known) →
      (performAll cfg.decodeEnvelope encode pg calls).1.map (fun a => accepted a.backend) =
          (Flat.callAll cfg v (calls.map (·.backend))).1.map accepted ∧
        Follows cfg encode inputs known (Flat.callAll cfg v (calls.map (·.backend))).2
          (performAll cfg.decodeEnvelope encode pg calls).2
  | [], _, _, h, _, _, _, _ => ⟨rfl, h⟩
  | c :: rest, v, pg, h, hbelow, hstorable, hinputs, hknown => by
    have hknown₁ : ∀ normal ∈ committedEffects cfg.decodeEnvelope [c], normal ∈ known := by
      rintro normal ⟨request, effects, hmem, hnormal⟩
      rw [← List.mem_singleton.mp hmem] at hknown
      exact hknown normal ⟨request, effects, List.mem_cons_self .., hnormal⟩
    have hknown' : ∀ normal ∈ committedEffects cfg.decodeEnvelope rest, normal ∈ known := by
      rintro normal ⟨request, effects, hmem, hnormal⟩
      exact hknown normal ⟨request, effects, List.mem_cons_of_mem _ hmem, hnormal⟩
    rw [List.map_cons, Flat.callAll] at hbelow ⊢
    rw [performAll]
    -- what the rest of the run keeps below the limit was below it after this write
    have hfits : StoresBelow (Flat.call cfg v c.backend) := by
      intro x hx
      rw [hx] at hbelow
      exact Flat.below_of_callAll rest hbelow
    have hstep := perform_agrees hencode happart h (hstorable c (List.mem_cons_self ..))
      (hinputs c (List.mem_cons_self ..)) hknown₁ hfits
    have hanswer := hstep.answer
    have hfollows := hstep.follows
    have hstorable' : ∀ c' ∈ rest, c'.Storable (perform cfg.decodeEnvelope encode pg c).2.routes :=
      fun c' hc' => hstep.routes ▸ hstorable c' (List.mem_cons_of_mem _ hc')
    have hinputs' : ∀ c' ∈ rest, ∀ b ∈ c'.inputs, b ∈ inputs := fun c' hc' =>
      hinputs c' (List.mem_cons_of_mem _ hc')
    cases hflat : Flat.call cfg v c.backend with
    | error e =>
      rw [hflat] at hanswer hbelow hfollows
      have hrest :=
        performAll_agrees hencode happart rest hfollows hbelow hstorable' hinputs' hknown'
      exact ⟨congrArg₂ List.cons (congrArg (Sigma.mk c.backend) hanswer) hrest.1, hrest.2⟩
    | ok r =>
      rw [hflat] at hanswer hbelow hfollows
      have hrest :=
        performAll_agrees hencode happart rest hfollows hbelow hstorable' hinputs' hknown'
      exact ⟨congrArg₂ List.cons (congrArg (Sigma.mk c.backend) hanswer) hrest.1, hrest.2⟩

omit [DecidableEq D] in
/-- Two empty stores. -/
theorem follows_empty (routes : OutboxRoutes) :
    Follows cfg encode inputs known ({} : MemoryBackend cfg).view { routes } where
  snapshots _ := rfl
  claims _ := rfl
  saves _ := .none
  singles _ := .none
  multis _ := .none
  trades _ := .none
  states _ := .none
  appends _ := iff_of_true rfl rfl
  postings _ := by simp [KeyedTable.lookup_empty, MemoryBackend.view]
  events _ := by simp [KeyedTable.lookup_empty, MemoryBackend.view]
  single _ h := by cases h
  multi _ h := by cases h
  trade _ h := by cases h
  ledgerOwned _ h := by cases h
  outboxOwned _ h := by cases h

end Sequences

section Lookups

variable {D : Type} {cfg : MemoryConfig D} {encode : CommitEffects → Bytes} {inputs : List Bytes}
  {known : Set CommitEffects} {v : StoreView D} {pg : PostgresTables} {α β : Type}

theorem committed_bind {x : PgM α} {f : α → PgM β} {a : α} (h : x.run pg = .ok a pg) :
    committed (x >>= f) pg = committed (f a) pg := by
  rw [committed, bind_run_ok h, committed]

theorem committed_bindParams {texts : List String} {f : Unit → PgM β} (h : Bindable texts) :
    committed (bindParams texts >>= f) pg = committed (f ()) pg :=
  committed_bind ((bindParams_yields texts).run_eq h)

theorem committed_ofExcept {y : Except StorageError α} {f : α → PgM β} {a : α} (h : y = .ok a) :
    committed (MonadExcept.ofExcept y >>= f) pg = committed (f a) pg := by
  rw [h]
  exact committed_bind rfl

theorem committed_get {f : PostgresTables → PgM β} :
    committed (get >>= f) pg = committed (f pg) pg := rfl

theorem load_agrees (h : Follows cfg encode inputs known v pg) {record : RecordKey}
    (htexts : Bindable [record.ns, record.key]) :
    (committed (load record) pg).1 = .ok (v.snapshots record) := by
  rw [load, committed_bindParams htexts, h.snapshots]
  rfl

theorem loadReceipt_agrees (h : Follows cfg encode inputs known v pg) {operationId : String}
    {record : RecordKey} (htexts : Bindable [operationId]) (hnamed : record.Named) :
    (committed (loadReceipt operationId record) pg).1.toOption =
      (Flat.loadTransaction v operationId record).toOption.map Prod.fst := by
  rw [loadReceipt, Flat.loadTransaction]
  by_cases hblank : blank operationId = true
  · rw [validateReceiptLookup, if_pos hblank, if_pos hblank]
    rfl
  have hvalid : validateReceiptLookup operationId record = .ok () := by
    simp [validateReceiptLookup, hblank, hnamed.1, hnamed.2]
  rw [if_neg hblank, committed_ofExcept hvalid, committed_bindParams htexts, committed_get]
  have hreceipts := h.singles operationId
  cases hrow : pg.transactions operationId with
  | none =>
    rw [hrow] at hreceipts
    cases hreceipt : v.transactions operationId with
    | none => rfl
    | some receipt => rw [hreceipt] at hreceipts; cases hreceipts
  | some row =>
    rw [hrow] at hreceipts
    cases hreceipt : v.transactions operationId with
    | none => rw [hreceipt] at hreceipts; cases hreceipts
    | some receipt =>
      rw [hreceipt] at hreceipts
      obtain ⟨source, -, -, -, rfl, rfl⟩ := Option.rel_some_some.mp hreceipts
      dsimp only [transactionRow, TransactionFingerprint.fromRequest]
      by_cases hrecord : source.record = record
      · rw [if_neg (not_not_intro hrecord), if_neg (not_not_intro hrecord)]
        rfl
      · rw [if_pos hrecord, if_pos hrecord]
        rfl

/-- The sorted records of an askable lookup. -/
theorem prepareLookup_ok {operationId : String} {records : List RecordKey}
    (hid : blank operationId = false) (hrecords : records ≠ []) (hnodup : records.Nodup)
    (hnamed : ∀ record ∈ records, record.Named) :
    prepareLookup operationId records = .ok (sortOn id records) := by
  have hchecks : (sortOn id records).forM (fun record =>
      if blank record.ns then Except.error (StoreError.invalidKey "namespace is empty")
      else if blank record.key then .error (.invalidKey "key is empty")
      else .ok ()) = .ok () := by
    refine forM_eq_ok.mpr fun record hmem => ?_
    obtain ⟨hns, hkey⟩ := hnamed record (mem_sortOn.mp hmem)
    simp [hns, hkey]
  have hdistinct : checkDistinctRecords (sortOn id records) = .ok () := by
    have hok := checkDistinctRecords_ok (f := id) (l := records)
    rw [List.map_id, List.map_id] at hok
    exact hok.mpr hnodup
  have hempty : records.isEmpty = false := by simpa using hrecords
  rw [prepareLookup, hid, sortedUniqueRecords, hempty]
  dsimp only
  rw [hchecks, hdistinct]
  rfl

theorem all_zip_iff {α β : Type} [DecidableEq β] (key : α → β) :
    ∀ {l : List α} {k : List β}, l.length = k.length →
      ((l.zip k).all (fun x => key x.1 = x.2) = true ↔ l.map key = k)
  | [], [], _ => by simp
  | a :: l, b :: k, h => by
    have hrest := all_zip_iff key (Nat.succ.inj h)
    rw [List.zip_cons_cons, List.all_cons, Bool.and_eq_true, hrest, decide_eq_true_eq,
      List.map_cons, List.cons.injEq]

/-- The receipt of stored rows, asked for with a list of records. -/
theorem receiptFromRows_eq {operationId : String} {expected : List RecordKey}
    {header : MultiTransactionRow} {writes : List TransactionalRecordWrite}
    (hcount : header.recordCount = writes.length) :
    receiptFromRows operationId expected header
        (writes.map fun w => .ofWrite w (w.expectedRevision + 1)) =
      if writes.map (·.record) = expected then
        .ok (some ⟨operationId, writes.map (·.receipt), header.result⟩)
      else .error (.core (.operationIdConflict operationId)) := by
  rw [receiptFromRows, hcount, List.length_map]
  by_cases hlength : writes.length = expected.length
  · have hall := all_zip_iff MultiRecordRow.record (l := writes.map fun w =>
      MultiRecordRow.ofWrite w (w.expectedRevision + 1)) (k := expected) (by simpa using hlength)
    rw [List.map_map] at hall
    rw [if_neg (by simp [hlength])]
    by_cases hsame : writes.map (·.record) = expected
    · rw [if_pos (hall.mpr hsame), if_pos hsame]
      have hzip := List.zip_map' (f := fun w : TransactionalRecordWrite =>
        MultiRecordRow.ofWrite w (w.expectedRevision + 1)) (g := (·.record)) (l := writes)
      rw [← hsame, hzip, List.map_map]
      rfl
    · rw [if_neg (fun h => hsame (hall.mp h)), if_neg hsame]
  · have hsame : writes.map (·.record) ≠ expected := by
      rintro rfl
      exact hlength (by simp)
    rw [if_pos (.inl hlength), if_neg hsame]

theorem loadMultiReceipt_agrees (h : Follows cfg encode inputs known v pg)
    {operationId : String} {records : List RecordKey} (htexts : Bindable [operationId])
    (hrecords : records ≠ []) (hnodup : records.Nodup)
    (hnamed : ∀ record ∈ records, record.Named) :
    (committed (loadMultiReceipt operationId records) pg).1.toOption =
      (Flat.loadMultiTransaction v operationId records).toOption.map Prod.fst := by
  rw [loadMultiReceipt, Flat.loadMultiTransaction]
  by_cases hblank : blank operationId = true
  · rw [prepareLookup, if_pos hblank, if_pos hblank]
    rfl
  have hid : blank operationId = false := by simpa using hblank
  have hprepare : (prepareLookup operationId records).mapError StorageError.core =
      .ok (sortOn id records) := by
    rw [prepareLookup_ok hid hrecords hnodup hnamed]
    rfl
  rw [if_neg hblank, committed_ofExcept hprepare, committed_bindParams htexts, committed_get]
  have hreceipts := h.multis operationId
  cases hrow : pg.multiTransactions operationId with
  | none =>
    rw [hrow] at hreceipts
    cases hreceipt : v.multiTransactions operationId with
    | none =>
      -- no claim is retired
      have hclaim : ((pg.claims operationId).any fun claim =>
          claim.kind = .multi && claim.retired) = false := by
        rw [h.claims]
        cases v.operationKinds operationId <;> simp
      dsimp only
      rw [hclaim]
      rfl
    | some receipt => rw [hreceipt] at hreceipts; cases hreceipts
  | some row =>
    rw [hrow] at hreceipts
    cases hreceipt : v.multiTransactions operationId with
    | none => rw [hreceipt] at hreceipts; cases hreceipts
    | some receipt =>
      rw [hreceipt] at hreceipts
      obtain ⟨source, effects, hsame⟩ := Option.rel_some_some.mp hreceipts
      have hsorted := hsame.prepared.sorted
      have hrecords : (source.writes.map (·.receipt)).map (·.record) =
          source.writes.map (·.record) := by
        rw [List.map_map]
        rfl
      rw [hsame.row, hsame.receipt]
      dsimp only
      rw [sortOn_eq_self (source.rows_pairwise hsorted _), header_rows_eq, hrecords,
        receiptFromRows_eq rfl]
      by_cases hsame : source.writes.map (·.record) = sortOn id records
      · rw [if_pos hsame, if_neg (not_not_intro hsame)]
        rfl
      · rw [if_neg hsame, if_pos hsame]
        rfl

theorem loadTrade_agrees (h : Follows cfg encode inputs known v pg) {tradeId : String}
    (htexts : Bindable [tradeId]) :
    (committed (loadTrade tradeId) pg).1.toOption =
      (Flat.loadTrade v tradeId).toOption.map Prod.fst := by
  rw [loadTrade, Flat.loadTrade]
  by_cases hblank : blank tradeId = true
  · rw [if_pos hblank, if_pos hblank]
    rfl
  rw [if_neg hblank, if_neg hblank, committed_bindParams htexts, committed_get]
  have hstates := h.states tradeId
  cases hrow : pg.trades tradeId with
  | none =>
    rw [hrow] at hstates
    cases htrade : v.trades tradeId with
    | none => rfl
    | some trade => rw [htrade] at hstates; cases hstates
  | some row =>
    rw [hrow] at hstates
    cases htrade : v.trades tradeId with
    | none => rw [htrade] at hstates; cases hstates
    | some trade =>
      rw [htrade] at hstates
      obtain ⟨hsame, hid⟩ := Option.rel_some_some.mp hstates
      obtain rfl := hid
      rw [show row = _ from hsame]
      dsimp only
      rw [committed_ofExcept (TradeState.fromI16_toI16 trade.state)]
      rfl

theorem loadTradeReceipt_agrees (h : Follows cfg encode inputs known v pg)
    {operationId tradeId : String} (htexts : Bindable [operationId]) :
    (committed (loadTradeReceipt operationId tradeId) pg).1.toOption =
      (Flat.loadTradeTransaction v operationId tradeId).toOption.map Prod.fst := by
  rw [loadTradeReceipt, Flat.loadTradeTransaction]
  by_cases hblank : blank operationId = true
  · rw [if_pos hblank, if_pos hblank]
    rfl
  by_cases hblank' : blank tradeId = true
  · rw [if_neg hblank, if_neg hblank, if_pos hblank', if_pos hblank']
    rfl
  rw [if_neg hblank, if_neg hblank, if_neg hblank', if_neg hblank', committed_bindParams htexts,
    committed_get]
  have hreceipts := h.trades operationId
  cases hrow : pg.tradeOperations operationId with
  | none =>
    rw [hrow] at hreceipts
    rw [receiptParts, hrow]
    cases hreceipt : v.tradeTransactions operationId with
    | none => rfl
    | some receipt => rw [hreceipt] at hreceipts; cases hreceipts
  | some row =>
    rw [hrow] at hreceipts
    cases hreceipt : v.tradeTransactions operationId with
    | none => rw [hreceipt] at hreceipts; cases hreceipts
    | some receipt =>
      rw [hreceipt] at hreceipts
      obtain ⟨source, hsame⟩ := Option.rel_some_some.mp hreceipts
      rw [hsame.parts hrow, hsame.receipt]
      dsimp only
      have htrade : (partsOf source).header.tradeId = source.transition.tradeId := rfl
      have hreceipt := receiptFromParts_partsOf hsame.normal.keys operationId tradeId
      have htrade' : source.appliedReceipt.tradeId = source.transition.tradeId := rfl
      by_cases hid : source.transition.tradeId = tradeId
      · rw [if_neg (not_not_intro (htrade.trans hid)), if_neg (not_not_intro (htrade'.trans hid)),
          committed_ofExcept hreceipt]
        obtain rfl := hsame.id
        obtain rfl := hid
        rfl
      · rw [if_pos (fun heq => hid (htrade.symm.trans heq)),
          if_pos (fun heq => hid (htrade'.symm.trans heq))]
        rfl

theorem lookup_agrees (h : Follows cfg encode inputs known v pg) [DecidableEq D]
    {l : StoreLookup} (hask : l.Askable) :
    (lookup pg l).toOption = (Flat.call cfg v l.backend).toOption.map Prod.fst := by
  cases l with
  | load record => exact congrArg Except.toOption (load_agrees h hask)
  | loadReceipt operationId record => exact loadReceipt_agrees h hask.1 hask.2
  | loadMultiReceipt operationId records =>
    exact loadMultiReceipt_agrees h hask.1 hask.2.1 hask.2.2.1 hask.2.2.2
  | loadTrade tradeId => exact loadTrade_agrees h hask
  | loadTradeReceipt operationId tradeId => exact loadTradeReceipt_agrees h hask

end Lookups

end PostgresSnapshotStore

/-- The backend answers a call as the flat store does. -/
theorem perform_flat {D : Type} [DecidableEq D] {cfg : MemoryConfig D} (b : MemoryBackend cfg)
    (c : BackendCall) :
    (perform b c).1.toOption = (Flat.call cfg b.view c).toOption.map Prod.fst := by
  have hc := memoryCall_refines b c
  rw [perform]
  cases hflat : Flat.call cfg b.view c with
  | error e =>
    rw [hflat] at hc
    rw [show (memoryCall c).run b = .error (.store e) b from hc]
    rfl
  | ok r =>
    rw [hflat] at hc
    obtain ⟨b', hrun, -⟩ := hc
    rw [hrun]
    rfl

section Agreement

variable {D : Type} [DecidableEq D] (cfg : MemoryConfig D) (encode : CommitEffects → Bytes)
  (routes : OutboxRoutes) (calls : List StoreCall)

/-- The last content of the volatile backend, and the tables that follow it. -/
theorem performAll_follows (hstorable : ∀ c ∈ calls, c.Storable routes)
    (hbelow : (performAll ({} : MemoryBackend cfg)
      (calls.map (·.backend))).2.view.Below bigintLimit)
    (hdigest : TellsApart cfg.digest (calls.flatMap (·.inputs)))
    (hencode : Set.InjOn encode (committedEffects cfg.decodeEnvelope calls)) :
    let postgres := PostgresSnapshotStore.performAll cfg.decodeEnvelope encode { routes } calls
    let memory := performAll ({} : MemoryBackend cfg) (calls.map (·.backend))
    postgres.1.map (fun answer => accepted answer.backend) =
        memory.1.map accepted ∧
      PostgresSnapshotStore.Follows cfg encode (calls.flatMap (·.inputs))
        (committedEffects cfg.decodeEnvelope calls) memory.2.view postgres.2 := by
  intro postgres memory
  have hinputs : ∀ c ∈ calls, ∀ b ∈ c.inputs, b ∈ calls.flatMap (·.inputs) := fun c hc b hb =>
    List.mem_flatMap.mpr ⟨c, hc, hb⟩
  obtain ⟨hmemory, hview⟩ := performAll_flat (calls.map (·.backend)) ({} : MemoryBackend cfg)
  rw [hview] at hbelow
  obtain ⟨hanswers, hfollows⟩ := PostgresSnapshotStore.performAll_agrees hencode hdigest calls
    (PostgresSnapshotStore.follows_empty routes) hbelow hstorable hinputs fun _ h => h
  rw [← hview] at hfollows
  refine ⟨hanswers.trans ?_, hfollows⟩
  show _ = (performAll ({} : MemoryBackend cfg) (calls.map (·.backend))).1.map accepted
  rw [hmemory, List.map_map]
  refine List.map_congr_left fun answer _ => ?_
  obtain ⟨c, reply⟩ := answer
  cases reply <;> rfl

/-- Fewer writes than the limit keep every revision below it. -/
theorem performAll_below (hlength : calls.length < bigintLimit) :
    (performAll ({} : MemoryBackend cfg) (calls.map (·.backend))).2.view.Below bigintLimit := by
  have hempty : ({} : MemoryBackend cfg).view.Below 1 :=
    ⟨fun _ => Nat.one_pos, fun _ => Nat.one_pos⟩
  rw [(performAll_flat (calls.map (·.backend)) ({} : MemoryBackend cfg)).2]
  exact (Flat.callAll_below calls hempty).mono (by omega)

/-- The same writes get the same answers from PostgreSQL and from the volatile backend. -/
theorem postgres_agrees (hstorable : ∀ c ∈ calls, c.Storable routes)
    (hlength : calls.length < bigintLimit)
    (hdigest : TellsApart cfg.digest (calls.flatMap (·.inputs)))
    (hencode : Set.InjOn encode (committedEffects cfg.decodeEnvelope calls)) :
    (PostgresSnapshotStore.performAll cfg.decodeEnvelope encode { routes } calls).1.map
        (fun answer => accepted answer.backend) =
      (performAll ({} : MemoryBackend cfg) (calls.map (·.backend))).1.map accepted :=
  (performAll_follows cfg encode routes calls hstorable (performAll_below cfg calls hlength) hdigest
    hencode).1

/-- After the same writes every lookup finds the same. -/
theorem postgres_lookups_agree (hstorable : ∀ c ∈ calls, c.Storable routes)
    (hlength : calls.length < bigintLimit)
    (hdigest : TellsApart cfg.digest (calls.flatMap (·.inputs)))
    (hencode : Set.InjOn encode (committedEffects cfg.decodeEnvelope calls)) (l : StoreLookup)
    (hask : l.Askable) :
    (PostgresSnapshotStore.lookup
        (PostgresSnapshotStore.performAll cfg.decodeEnvelope encode { routes } calls).2 l).toOption =
      (perform (performAll ({} : MemoryBackend cfg) (calls.map (·.backend))).2
        l.backend).1.toOption := by
  have hfollows := (performAll_follows cfg encode routes calls hstorable
    (performAll_below cfg calls hlength) hdigest hencode).2
  rw [PostgresSnapshotStore.lookup_agrees hfollows hask, perform_flat]

end Agreement

/-! ### A run on both stores -/

/-- A save, a purchase and its retry, a commit of two records, and a trade. -/
def sampleStoreCalls : List StoreCall :=
  [.save ⟨"r-1", ⟨"player", "a"⟩, "bag", 1, [3], none, 10⟩,
    .applyTransaction ⟨"op-1", ⟨"player", "a"⟩, "bag", 1, 1, [1], [7], 10⟩,
    .applyTransaction ⟨"op-1", ⟨"player", "a"⟩, "bag", 1, 1, [1], [7], 10⟩,
    .commitRecords ⟨"op-2", [⟨⟨"player", "b"⟩, "bag", 1, 0, [2], 10⟩,
      ⟨⟨"player", "a"⟩, "bag", 1, 2, [4], 10⟩], [8]⟩ {},
    .applyTradeTransaction ⟨"op-3", ⟨"trade-1", 0, none, .escrowed, [5], 10⟩,
      [⟨⟨"player", "a"⟩, "bag", 1, 3, [6], 10⟩], [], [], [9]⟩]

/-- Both lengths in front, as in the encoding of effects. -/
def sampleEncode (effects : CommitEffects) : Bytes :=
  [effects.appends.length.toUInt8, effects.outboxEvents.length.toUInt8]

theorem sampleStoreCalls_storable : ∀ c ∈ sampleStoreCalls, c.Storable {} := by
  have hwrite : ∀ (id : String) (w : TransactionalRecordWrite),
      (w.record.Named ∧ blank w.schema = false ∧
        Bindable [id, w.record.ns, w.record.key, w.schema] ∧
        w.expectedRevision < bigintLimit ∧ w.updatedAtUnixMs < bigintLimit) →
      StorableWrite id w := by
    rintro id w ⟨h1, h2, h3, h4, h5⟩
    exact ⟨h1, h2, h3, h4, h5⟩
  rw [sampleStoreCalls]
  refine List.forall_mem_cons.mpr ⟨⟨by decide, by decide, by decide, by decide⟩, ?_⟩
  refine List.forall_mem_cons.mpr ⟨⟨by decide, by decide, by decide, by decide⟩, ?_⟩
  refine List.forall_mem_cons.mpr ⟨⟨by decide, by decide, by decide, by decide⟩, ?_⟩
  refine List.forall_mem_cons.mpr ⟨⟨by decide, fun w hw => hwrite _ w (by revert w; decide),
    by simp, by simp⟩, ?_⟩
  exact List.forall_mem_singleton.mpr ⟨by decide, by decide, by decide,
    fun w hw => hwrite _ w (by revert w; decide), by simp, by simp⟩

theorem sampleStoreCalls_effects {decode : Bytes → Option EventEnvelope} :
    (committedEffects decode sampleStoreCalls).Subsingleton := by
  have honly : ∀ normal ∈ committedEffects decode sampleStoreCalls, normal = {} := by
    rintro normal ⟨request, effects, hmem, hnormal⟩
    simp only [sampleStoreCalls, List.mem_cons, reduceCtorEq, false_or, List.not_mem_nil, or_false,
      StoreCall.commitRecords.injEq] at hmem
    rw [hmem.2] at hnormal
    exact (Except.ok.inj hnormal).symm
  exact fun a ha b hb => (honly a ha).trans (honly b hb).symm

theorem postgres_agrees_sample :
    (PostgresSnapshotStore.performAll plainConfig.decodeEnvelope sampleEncode {}
      sampleStoreCalls).1.map (fun answer => accepted answer.backend) =
    (performAll ({} : MemoryBackend plainConfig) (sampleStoreCalls.map (·.backend))).1.map
      accepted :=
  postgres_agrees plainConfig sampleEncode {} sampleStoreCalls sampleStoreCalls_storable (by decide)
    (fun _ _ _ _ h => h) (sampleStoreCalls_effects.injOn _)

theorem postgres_lookups_agree_sample :
    (PostgresSnapshotStore.lookup (PostgresSnapshotStore.performAll plainConfig.decodeEnvelope
        sampleEncode {} sampleStoreCalls).2
          (.loadMultiReceipt "op-2" [⟨"player", "b"⟩, ⟨"player", "a"⟩])).toOption =
      some (some ⟨"op-2", [⟨⟨"player", "a"⟩, 3⟩, ⟨⟨"player", "b"⟩, 1⟩], [8]⟩) := by
  rw [postgres_lookups_agree plainConfig sampleEncode {} sampleStoreCalls sampleStoreCalls_storable
    (by decide) (fun _ _ _ _ h => h) (sampleStoreCalls_effects.injOn _) _
    (by exact ⟨by decide, by decide, by decide, by decide⟩)]
  rfl

end DbProxy
