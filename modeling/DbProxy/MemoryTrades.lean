/-
Trades over whole runs of the volatile backend.

`TradeEdge` is the escrow state machine on its own.  The applied transitions of
a trade form a path of it (`run_transitions`), with the stored version counting
them; a trade in a final state is frozen (`run_final`); the postings of all
applied trades sum to zero for every asset (`run_balance`); and posting ids,
event ids and append keys are global (`run_fresh`, three times).
`trade_history` collects these for runs from the empty backend.
-/
import DbProxy.MemoryRuns

namespace DbProxy

open MemoryBackend StepMachine

/-! ### The state machine -/

inductive TradeEdge : Option TradeState → TradeState → Prop
  | propose : TradeEdge none .proposed
  | openEscrow : TradeEdge none .escrowed
  | escrow : TradeEdge (some .proposed) .escrowed
  | withdraw : TradeEdge (some .proposed) .cancelled
  | settle : TradeEdge (some .escrowed) .settled
  | refund : TradeEdge (some .escrowed) .cancelled

theorem isValidTransition_iff {s : Option TradeState} {t : TradeState} :
    isValidTransition s t = true ↔ TradeEdge s t := by
  constructor
  · intro h
    rcases s with _ | s
    · cases t <;> simp only [isValidTransition, Bool.false_eq_true] at h <;> constructor
    · cases s <;> cases t <;> simp only [isValidTransition, Bool.false_eq_true] at h <;>
        constructor
  · rintro ⟨⟩ <;> rfl

/-- Consecutive transitions of one trade: each starts where the one before ended. -/
def TransitionPath : Option TradeState → List TradeTransition → Prop
  | _, [] => True
  | s, t :: rest =>
    t.expectedState = s ∧ TradeEdge s t.nextState ∧ TransitionPath (some t.nextState) rest

/-! ### What a completed call commits -/

namespace Completed

/-- The transition of the given trade, if the call applied one. -/
def transitionOf (tradeId : String) (e : Completed) : Option TradeTransition :=
  if e.isApplied then e.call.transition.filter (·.tradeId = tradeId) else none

def ledgerPostings (e : Completed) : List LedgerPosting :=
  if e.isApplied then e.call.ledgerPostings else []

def outboxEvents (e : Completed) : List OutboxEvent :=
  if e.isApplied then e.call.outboxEvents else []

def appends (e : Completed) : List AppendRecord :=
  if e.isApplied then e.call.appends else []

end Completed

/-- The applied transitions of one trade, in order. -/
def appliedTransitions (tradeId : String) (trace : List Completed) : List TradeTransition :=
  trace.filterMap (Completed.transitionOf tradeId)

/-- All postings a run commits. -/
def committedPostings (trace : List Completed) : List LedgerPosting :=
  trace.flatMap Completed.ledgerPostings

section Trades

variable {D : Type} [DecidableEq D] {cfg : MemoryConfig D}

/-! ### One step -/

theorem step_trade {b b' : MemoryBackend cfg} {e : Completed} (h : step b e = some b')
    (tradeId : String) :
    (e.transitionOf tradeId = none ∧ b'.view.trades tradeId = b.view.trades tradeId) ∨
    (∃ t, e.transitionOf tradeId = some t ∧
      ((b.view.trades tradeId).map (·.version)).getD 0 = t.expectedVersion ∧
      (b.view.trades tradeId).map (·.state) = t.expectedState ∧
      TradeEdge t.expectedState t.nextState ∧
      b'.view.trades tradeId = some (t.envelope (t.expectedVersion + 1))) := by
  rcases step_cases h with ⟨hskip, rfl⟩ | ⟨o, -, happ, -, hspec⟩
  · exact Or.inl ⟨by rw [Completed.transitionOf, if_neg (by simp [hskip])], rfl⟩
  · rw [Completed.transitionOf, if_pos happ]
    cases ht : e.call.transition with
    | none => exact Or.inl ⟨rfl, hspec.trade.otherTrades tradeId (by simp [ht])⟩
    | some t =>
      by_cases hid : t.tradeId = tradeId
      · subst hid
        obtain ⟨hversion, hstate, hvalid⟩ := hspec.trade.expectedTrade t ht
        exact Or.inr ⟨t, by simp, hversion, hstate, isValidTransition_iff.mp hvalid,
          hspec.trade.moved t ht⟩
      · refine Or.inl ⟨by simp [hid], hspec.trade.otherTrades tradeId ?_⟩
        rintro t' ht'
        rw [ht, Option.some_inj] at ht'
        rwa [← ht']

theorem step_balance {b b' : MemoryBackend cfg} {e : Completed} (h : step b e = some b')
    (asset : String) : assetBalance asset e.ledgerPostings = 0 := by
  rcases step_cases h with ⟨hskip, -⟩ | ⟨o, -, happ, -, hspec⟩
  · rw [Completed.ledgerPostings, if_neg (by simp [hskip])]
    rfl
  · rw [Completed.ledgerPostings, if_pos happ]
    exact hspec.effects.balanced asset

/-! ### Whole runs -/

theorem run_transitions {trace : List Completed} {b b' : MemoryBackend cfg}
    (h : run step b trace = some b') (tradeId : String) :
    TransitionPath ((b.view.trades tradeId).map (·.state)) (appliedTransitions tradeId trace) ∧
      ((b'.view.trades tradeId).map (·.version)).getD 0 =
        ((b.view.trades tradeId).map (·.version)).getD 0 +
          (appliedTransitions tradeId trace).length := by
  induction trace generalizing b with
  | nil =>
    rw [run_nil, Option.some_inj] at h
    subst h
    exact ⟨trivial, rfl⟩
  | cons e trace ih =>
    obtain ⟨m, hm, hrest⟩ := run_cons_eq_some.mp h
    obtain ⟨hpath, hversion⟩ := ih hrest
    rcases step_trade hm tradeId with ⟨hnone, hkeep⟩ | ⟨t, ht, hver, hstate, hedge, hmoved⟩
    · rw [hkeep] at hpath hversion
      rw [appliedTransitions, List.filterMap_cons_none hnone]
      exact ⟨hpath, hversion⟩
    · rw [hmoved] at hpath hversion
      rw [appliedTransitions, List.filterMap_cons_some ht]
      refine ⟨⟨hstate.symm, hstate ▸ hedge, hpath⟩, ?_⟩
      rw [hversion, hver, List.length_cons, appliedTransitions]
      exact Nat.add_right_comm ..

/-- A trade in a final state keeps its envelope. -/
theorem run_final {trace : List Completed} {b b' : MemoryBackend cfg}
    (h : run step b trace = some b') {tradeId : String} {trade : TradeEnvelope}
    (htrade : b.view.trades tradeId = some trade) (hfinal : trade.state.final = true) :
    b'.view.trades tradeId = some trade := by
  refine run_invariant (P := fun b => b.view.trades tradeId = some trade) ?_ htrade h
  intro s e t hs hstep
  rcases step_trade hstep tradeId with ⟨-, hkeep⟩ | ⟨tr, -, -, hstate, hedge, -⟩
  · rw [hkeep, hs]
  · rw [hs, Option.map_some] at hstate
    rw [← hstate, ← isValidTransition_iff, isValidTransition_of_final hfinal] at hedge
    exact absurd hedge (by simp)

theorem run_balance {trace : List Completed} {b b' : MemoryBackend cfg}
    (h : run step b trace = some b') (asset : String) :
    assetBalance asset (committedPostings trace) = 0 := by
  induction trace generalizing b with
  | nil => rfl
  | cons e trace ih =>
    obtain ⟨m, hm, hrest⟩ := run_cons_eq_some.mp h
    rw [committedPostings, List.flatMap_cons, assetBalance_append, step_balance hm asset]
    rw [Int.zero_add]
    exact ih hrest

theorem run_postingIds_nodup {trace : List Completed} {b b' : MemoryBackend cfg}
    (h : run step b trace = some b') :
    (trace.flatMap fun e => e.ledgerPostings.map (·.postingId)).Nodup := by
  refine (run_fresh (U := fun b id => id ∈ b.view.identifiers.ledgerPostingIds)
    ?_ ?_ ?_ h).1
  all_goals
    intro s e t hstep
    rcases step_cases hstep with ⟨hskip, rfl⟩ | ⟨o, -, happ, -, hspec⟩
  · simp [Completed.ledgerPostings, hskip]
  · simpa [Completed.ledgerPostings, happ] using hspec.effects.postingsDistinct
  · simp [Completed.ledgerPostings, hskip]
  · simpa [Completed.ledgerPostings, happ] using hspec.effects.postingsFresh
  · simp [Completed.ledgerPostings, hskip]
  · simp [Completed.ledgerPostings, happ, hspec.effects.posted]

theorem run_eventIds_nodup {trace : List Completed} {b b' : MemoryBackend cfg}
    (h : run step b trace = some b') :
    (trace.flatMap fun e => e.outboxEvents.map (·.eventId)).Nodup := by
  refine (run_fresh (U := fun b id => id ∈ b.view.identifiers.outboxEventIds)
    ?_ ?_ ?_ h).1
  all_goals
    intro s e t hstep
    rcases step_cases hstep with ⟨hskip, rfl⟩ | ⟨o, -, happ, -, hspec⟩
  · simp [Completed.outboxEvents, hskip]
  · simpa [Completed.outboxEvents, happ] using hspec.effects.eventsDistinct
  · simp [Completed.outboxEvents, hskip]
  · simpa [Completed.outboxEvents, happ] using hspec.effects.eventsFresh
  · simp [Completed.outboxEvents, hskip]
  · simp [Completed.outboxEvents, happ, hspec.effects.emitted]

theorem run_appendKeys_nodup {trace : List Completed} {b b' : MemoryBackend cfg}
    (h : run step b trace = some b') :
    (trace.flatMap fun e => e.appends.map (·.record)).Nodup := by
  refine (run_fresh (U := fun b record => (b.view.identifiers.appends record).isSome = true)
    ?_ ?_ ?_ h).1
  all_goals
    intro s e t hstep
    rcases step_cases hstep with ⟨hskip, rfl⟩ | ⟨o, -, happ, -, hspec⟩
  · simp [Completed.appends, hskip]
  · simpa [Completed.appends, happ] using hspec.effects.appendsDistinct
  · simp [Completed.appends, hskip]
  · simpa [Completed.appends, happ] using hspec.effects.appendsFresh
  · simp [Completed.appends, hskip]
  · intro record hrecord
    by_cases hin : record ∈ e.call.appends.map (·.record)
    · obtain ⟨a, ha, rfl⟩ := List.mem_map.mp hin
      rw [hspec.effects.appended a ha]
      rfl
    · rcases hrecord with hold | hnew
      · rwa [hspec.effects.otherAppends record hin]
      · exact absurd (by simpa [Completed.appends, happ] using hnew) hin

/-- **Trade history.**  For every run from the empty backend. -/
theorem trade_history (trace : List Completed) (b : MemoryBackend cfg)
    (hrun : run step {} trace = some b) :
    (∀ tradeId, TransitionPath none (appliedTransitions tradeId trace) ∧
      ((b.view.trades tradeId).map (·.version)).getD 0 =
        (appliedTransitions tradeId trace).length) ∧
    (∀ (before after : List Completed) (b₁ : MemoryBackend cfg) (tradeId : String)
      (trade : TradeEnvelope), trace = before ++ after → run step {} before = some b₁ →
      b₁.view.trades tradeId = some trade → trade.state.final = true →
      b.view.trades tradeId = some trade) ∧
    (∀ asset, assetBalance asset (committedPostings trace) = 0) ∧
    (trace.flatMap fun e => e.ledgerPostings.map (·.postingId)).Nodup ∧
    (trace.flatMap fun e => e.outboxEvents.map (·.eventId)).Nodup ∧
    (trace.flatMap fun e => e.appends.map (·.record)).Nodup := by
  refine ⟨fun tradeId => ?_, ?_, run_balance hrun, run_postingIds_nodup hrun,
    run_eventIds_nodup hrun, run_appendKeys_nodup hrun⟩
  · obtain ⟨hpath, hversion⟩ := run_transitions hrun tradeId
    refine ⟨hpath, hversion.trans ?_⟩
    simp [view]
  · rintro before after b₁ tradeId trade rfl hbefore htrade hfinal
    obtain ⟨m, hm, hafter⟩ := run_append.mp hrun
    rw [hbefore, Option.some_inj] at hm
    subst hm
    exact run_final hafter htrade hfinal

end Trades

/-- One step of a trade that moves gold from one account to another. -/
def sampleTrade (operationId : String) (version : Revision) (state : Option TradeState)
    (next : TradeState) (postings : List String) : TradeTransaction where
  operationId := operationId
  transition := ⟨"trade-1", version, state, next, [], 10⟩
  writes := [sampleWrite "a" version]
  ledgerPostings := postings.zipIdx.map fun (id, i) =>
    ⟨id, "account", "gold", if i % 2 = 0 then 5 else -5, []⟩
  outboxEvents := []
  result := []

def sampleTradeTrace : List Completed :=
  [⟨.applyTradeTransaction (sampleTrade "op-1" 0 none .escrowed []),
    .ok (.trade (.applied ⟨"op-1", "trade-1", 1, .escrowed, [⟨⟨"player", "a"⟩, 1⟩], [], [], []⟩))⟩,
   ⟨.applyTradeTransaction (sampleTrade "op-2" 1 (some .escrowed) .settled ["p-1", "p-2"]),
    .ok (.trade (.applied ⟨"op-2", "trade-1", 2, .settled, [⟨⟨"player", "a"⟩, 2⟩], ["p-1", "p-2"],
      [], []⟩))⟩,
   ⟨.applyTradeTransaction (sampleTrade "op-3" 1 (some .escrowed) .cancelled []),
    .error (.store (.tradeVersionConflict "trade-1" 1 2))⟩]

theorem trade_history_sample :
    ∃ b : MemoryBackend sampleConfig, run step {} sampleTradeTrace = some b ∧
      ((b.view.trades "trade-1").map (·.version)).getD 0 = 2 := by
  have hsome : (run step ({} : MemoryBackend sampleConfig) sampleTradeTrace).isSome = true := by decide
  obtain ⟨b, hb⟩ := Option.isSome_iff_exists.mp hsome
  refine ⟨b, hb, ?_⟩
  rw [((trade_history sampleTradeTrace b hb).1 "trade-1").2]
  decide

end DbProxy
