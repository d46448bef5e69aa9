/-
Requests of one connection run in order and never block each other for good.

Only the latest request of a key is remembered, so a request is ordered after an
older one through a chain of completions.  `OrderInv` says what the chain rests
on; it is kept by every step of `Connection.step`.

* `OrderInv.ordered` — the chain, by induction on the admission numbers;
* `Ordered`, `TailsKept`, `EarliestFree`, `Progress` — what holds in every
  reachable state;
* `connection_ordering` — all of them, and that requests which run at the same time
  touch no common record, operation or trade.
-/
import DbProxy.RequestOrdering

namespace DbProxy

open StepMachine

namespace Connection

variable {β κ : Type} [DecidableEq κ] {keysOf : β → Finset κ} {limit : ℕ} {s t : Connection β κ}

/-! ### The invariant -/

/-- What links a request to the earlier ones of its keys.  `chain` is the point: an
earlier request with the same key is finished, or the request waits for one in
between that has the key too. -/
structure OrderInv (keysOf : β → Finset κ) (s : Connection β κ) : Prop where
  earlier : ∀ r, ∀ p ∈ s.predecessors r, p < r
  chain : ∀ r, ∀ k ∈ s.keys keysOf r, ∀ q < r, k ∈ s.keys keysOf q →
    s.isFinished q ∨ ∃ p ∈ s.predecessors r, q ≤ p ∧ k ∈ s.keys keysOf p
  left : ∀ r left, s.phase r = some (.waiting left) →
    ∀ p ∈ s.predecessors r, s.isFinished p ∨ p ∈ left
  leftEarlier : ∀ r left, s.phase r = some (.waiting left) → ∀ p ∈ left, p < r
  started : ∀ r, s.isStarted r → ∀ p ∈ s.predecessors r, s.isFinished p
  sound : ∀ k row, s.ordering.tails.lookup k = some row → k ∈ s.keys keysOf row.2
  latest : ∀ r, ∀ k ∈ s.keys keysOf r,
    s.isFinished r ∨ ∃ p, s.ordering.tails.lookup k = some (k, p) ∧ r ≤ p

omit [DecidableEq κ] in
theorem isStarted_of_isFinished {r : ℕ} (h : s.isFinished r) : s.isStarted r := by
  rw [isFinished] at h
  rw [isStarted]
  cases hphase : s.phase r with
  | none => simp [hphase] at h
  | some phase => cases phase <;> simp_all [TaskPhase.isFinished, TaskPhase.isStarted]

/-- The chain of completions, over all the requests between the two. -/
theorem OrderInv.ordered (inv : OrderInv keysOf s) :
    ∀ r, s.isStarted r → ∀ k ∈ s.keys keysOf r, ∀ q < r, k ∈ s.keys keysOf q →
      s.isFinished q := by
  intro r
  induction r using Nat.strong_induction_on with
  | _ r ih =>
    intro hstarted k hk q hq hkq
    rcases inv.chain r k hk q hq hkq with hfinished | ⟨p, hp, hqp, hkp⟩
    · exact hfinished
    have hpfinished : s.isFinished p := inv.started r hstarted p hp
    rcases hqp.eq_or_lt with rfl | hlt
    · exact hpfinished
    · exact ih p (inv.earlier r p hp) (isStarted_of_isFinished hpfinished) k hkp q hlt hkq

theorem OrderInv.congr (inv : OrderInv keysOf s) (hrequests : t.requests = s.requests)
    (hordering : t.ordering = s.ordering) : OrderInv keysOf t := by
  obtain ⟨requests, ordering⟩ := s
  obtain ⟨requests', ordering'⟩ := t
  obtain rfl : requests' = requests := hrequests
  obtain rfl : ordering' = ordering := hordering
  exact ⟨inv.earlier, inv.chain, inv.left, inv.leftEarlier, inv.started, inv.sound, inv.latest⟩

omit [DecidableEq κ] in
theorem phase_setPhase_self {r : ℕ} {old new : TaskPhase} (h : s.phase r = some old) :
    (s.setPhase r new).phase r = some new := by
  rw [phase_setPhase, h]
  simp

omit [DecidableEq κ] in
theorem phase_setPhase_of_ne {r q : ℕ} {new : TaskPhase} (h : r ≠ q) :
    (s.setPhase r new).phase q = s.phase q := by
  rw [phase_setPhase]
  simp [h]

omit [DecidableEq κ] in
/-- A move never takes a completion back. -/
theorem TaskMove.isFinished_mono {r q : ℕ} {old new : TaskPhase} (hmove : TaskMove s r old new)
    (hphase : s.phase r = some old) (hq : s.isFinished q) :
    (s.setPhase r new).isFinished q := by
  by_cases hrq : r = q
  · subst hrq
    rw [isFinished, hphase] at hq
    rw [isFinished, phase_setPhase_self hphase]
    cases hmove <;> simp_all [TaskPhase.isFinished]
  · rwa [isFinished, phase_setPhase_of_ne hrq]

theorem OrderInv.move (inv : OrderInv keysOf s) {r : ℕ} {old new : TaskPhase}
    (hmove : TaskMove s r old new) (hphase : s.phase r = some old) :
    OrderInv keysOf (s.setPhase r new) := by
  have hmono : ∀ q, s.isFinished q → (s.setPhase r new).isFinished q :=
    fun q hq => hmove.isFinished_mono hphase hq
  refine ⟨?_, ?_, ?_, ?_, ?_, ?_, ?_⟩
  · simpa using inv.earlier
  · intro r' k hk q hq hkq
    rw [keys_setPhase] at hk hkq
    rw [predecessors_setPhase]
    rcases inv.chain r' k hk q hq hkq with h | ⟨p, hp, hqp, hkp⟩
    · exact Or.inl (hmono q h)
    · exact Or.inr ⟨p, hp, hqp, by rwa [keys_setPhase]⟩
  · intro r' left hleft p hp
    rw [predecessors_setPhase] at hp
    by_cases hr : r = r'
    · subst hr
      rw [phase_setPhase_self hphase, Option.some_inj] at hleft
      subst hleft
      cases hmove with
      | pass q left hq =>
        rcases inv.left r _ hphase p hp with h | h
        · exact Or.inl (hmono p h)
        · rcases List.mem_cons.mp h with rfl | h
          · exact Or.inl (hmono p hq)
          · exact Or.inr h
    · rw [phase_setPhase_of_ne hr] at hleft
      exact (inv.left r' left hleft p hp).imp_left (hmono p)
  · intro r' left hleft p hp
    by_cases hr : r = r'
    · subst hr
      rw [phase_setPhase_self hphase, Option.some_inj] at hleft
      subst hleft
      cases hmove with
      | pass q left hq => exact inv.leftEarlier r _ hphase p (List.mem_cons_of_mem _ hp)
    · rw [phase_setPhase_of_ne hr] at hleft
      exact inv.leftEarlier r' left hleft p hp
  · intro r' hstarted p hp
    rw [predecessors_setPhase] at hp
    refine hmono p ?_
    by_cases hr : r = r'
    · subst hr
      rw [isStarted, phase_setPhase_self hphase] at hstarted
      cases hmove with
      | pass q left hq => cases hstarted
      | start => exact (inv.left r _ hphase p hp).resolve_right (List.not_mem_nil)
      | finish => exact inv.started r (by simp [isStarted, hphase, TaskPhase.isStarted]) p hp
      | answer => exact inv.started r (by simp [isStarted, hphase, TaskPhase.isStarted]) p hp
    · rw [isStarted, phase_setPhase_of_ne hr] at hstarted
      exact inv.started r' hstarted p hp
  · intro k row hrow
    rw [keys_setPhase]
    exact inv.sound k row hrow
  · intro r' k hk
    rw [keys_setPhase] at hk
    exact (inv.latest r' k hk).imp_left (hmono r')

section Admitted

variable {body : β} {keyList : List κ} {open_ retained : κ → Bool}

theorem requests_admitted {q : ℕ} :
    (s.admitted body keyList open_ retained).requests[q]? =
      if q = s.requests.length then
        some ⟨body, (s.ordering.admitRequest keyList s.requests.length open_ retained).2,
          .waiting (s.ordering.admitRequest keyList s.requests.length open_ retained).2⟩
      else s.requests[q]? := by
  show (s.requests ++ [_])[q]? = _
  split
  · rename_i h
    subst h
    exact List.getElem?_concat_length
  · rename_i h
    rcases Nat.lt_or_ge q s.requests.length with hlt | hge
    · exact List.getElem?_append_left hlt
    · rw [List.getElem?_eq_none hge, List.getElem?_eq_none]
      simp only [List.length_append, List.length_singleton]
      omega

theorem ordering_admitted : (s.admitted body keyList open_ retained).ordering =
    (s.ordering.admitRequest keyList s.requests.length open_ retained).1 := rfl

theorem keys_admitted {q : ℕ} :
    (s.admitted body keyList open_ retained).keys keysOf q =
      if q = s.requests.length then keysOf body else s.keys keysOf q := by
  rw [keys, requests_admitted]
  split <;> rfl

theorem predecessors_admitted {q : ℕ} :
    (s.admitted body keyList open_ retained).predecessors q =
      if q = s.requests.length then
        (s.ordering.admitRequest keyList s.requests.length open_ retained).2
      else s.predecessors q := by
  rw [predecessors, requests_admitted]
  split <;> rfl

theorem phase_admitted {q : ℕ} :
    (s.admitted body keyList open_ retained).phase q =
      if q = s.requests.length then
        some (.waiting (s.ordering.admitRequest keyList s.requests.length open_ retained).2)
      else s.phase q := by
  rw [phase, requests_admitted]
  split <;> rfl

omit [DecidableEq κ] in
theorem phase_eq_none {q : ℕ} (h : s.requests.length ≤ q) : s.phase q = none := by
  rw [phase, List.getElem?_eq_none h]
  rfl

omit [DecidableEq κ] in
theorem lt_of_mem_keys {k : κ} {q : ℕ} (h : k ∈ s.keys keysOf q) : q < s.requests.length := by
  by_contra hge
  rw [keys, List.getElem?_eq_none (not_lt.mp hge)] at h
  simp at h

theorem isFinished_admitted {q : ℕ} :
    (s.admitted body keyList open_ retained).isFinished q = s.isFinished q := by
  rw [isFinished, phase_admitted, isFinished]
  split
  · rename_i h
    rw [h, phase_eq_none le_rfl]
    rfl
  · rfl

variable (hnodup : keyList.Nodup) (hkeys : keyList.toFinset = keysOf body)
  (hopen : ∀ k ∈ keyList, open_ k = false → s.tailFinished k)
  (hretained : ∀ row ∈ s.ordering.tails.rows, row.1 ∉ keyList → retained row.1 = false →
    s.isFinished row.2)

include hnodup hopen in
/-- The new request waits for a request of the key that is at least as late as any
unfinished one. -/
theorem OrderInv.chain_admitted (inv : OrderInv keysOf s) {k : κ} (hk : k ∈ keyList) {q : ℕ}
    (hq : k ∈ s.keys keysOf q) :
    s.isFinished q ∨ ∃ p ∈ (s.ordering.admitRequest keyList s.requests.length open_ retained).2,
      q ≤ p ∧ k ∈ s.keys keysOf p := by
  rcases inv.latest q k hq with hfinished | ⟨p, hp, hqp⟩
  · exact Or.inl hfinished
  have hkp : k ∈ s.keys keysOf p := inv.sound k _ hp
  cases hclosed : open_ k with
  | true =>
    exact Or.inr ⟨p, (RequestOrdering.mem_admitRequest hnodup).mpr ⟨k, hk, hp, hclosed⟩, hqp, hkp⟩
  | false =>
    -- the remembered request is finished, and with it all earlier ones of the key
    have htail : s.isFinished p := by
      have := hopen k hk hclosed
      rw [tailFinished, hp] at this
      simpa using this
    rcases hqp.eq_or_lt with rfl | hlt
    · exact Or.inl htail
    · exact Or.inl (inv.ordered p (isStarted_of_isFinished htail) k hkp q hlt hq)

include hretained in
/-- What the admission forgets was finished. -/
theorem OrderInv.latest_admitted (inv : OrderInv keysOf s) (hown : ∀ k ∈ keyList, retained k)
    {k : κ} {r : ℕ} (hr : k ∈ s.keys keysOf r) :
    s.isFinished r ∨ ∃ p,
      (s.ordering.admitRequest keyList s.requests.length open_ retained).1.tails.lookup k =
        some (k, p) ∧ r ≤ p := by
  rcases RequestOrdering.lookup_admitRequest s.ordering keyList s.requests.length open_ retained k
    with h | ⟨h, -⟩
  · rw [h]
    split
    · exact Or.inr ⟨_, rfl, (lt_of_mem_keys hr).le⟩
    · exact inv.latest r k hr
  · have hk : k ∉ keyList := by
      intro hk
      rw [hown k hk] at h
      cases h
    rcases inv.latest r k hr with hfinished | ⟨p, hp, hrp⟩
    · exact Or.inl hfinished
    obtain ⟨hmem, -⟩ := KeyedTable.lookup_eq_some.mp hp
    have hfinished : s.isFinished p := hretained _ hmem hk h
    rcases hrp.eq_or_lt with rfl | hlt
    · exact Or.inl hfinished
    · exact Or.inl (inv.ordered p (isStarted_of_isFinished hfinished) k (inv.sound k _ hp) r hlt hr)

include hnodup hkeys hopen hretained in
theorem OrderInv.admitRequest (inv : OrderInv keysOf s) (hown : ∀ k ∈ keyList, retained k) :
    OrderInv keysOf (s.admitted body keyList open_ retained) := by
  have hkeyList : ∀ k, k ∈ keysOf body ↔ k ∈ keyList := fun k => by rw [← hkeys, List.mem_toFinset]
  -- predecessors are older requests
  have hpreds : ∀ p ∈ (s.ordering.admitRequest keyList s.requests.length open_ retained).2,
      p < s.requests.length := by
    intro p hp
    obtain ⟨k, -, hlookup, -⟩ := (RequestOrdering.mem_admitRequest hnodup).mp hp
    exact lt_of_mem_keys (inv.sound k _ hlookup)
  refine ⟨?_, ?_, ?_, ?_, ?_, ?_, ?_⟩
  · intro r p hp
    rw [predecessors_admitted] at hp
    split at hp
    · rename_i hr
      exact hr ▸ hpreds p hp
    · exact inv.earlier r p hp
  · intro r k hk q hq hkq
    rw [isFinished_admitted, predecessors_admitted]
    by_cases hr : r = s.requests.length
    · rw [keys_admitted, if_pos hr, hkeyList] at hk
      rw [keys_admitted, if_neg (by omega)] at hkq
      rw [if_pos hr]
      -- the new request: its predecessors, or theirs, share the key
      rcases inv.chain_admitted hnodup hopen hk hkq with
        h | ⟨p, hp, hqp, hkp⟩
      · exact Or.inl h
      · exact Or.inr ⟨p, hp, hqp, by rwa [keys_admitted, if_neg (hpreds p hp).ne]⟩
    · rw [keys_admitted, if_neg hr] at hk
      have hlt := lt_of_mem_keys hk
      rw [keys_admitted, if_neg (by omega)] at hkq
      rw [if_neg hr]
      -- an old request: nothing has changed for it
      rcases inv.chain r k hk q hq hkq with h | ⟨p, hp, hqp, hkp⟩
      · exact Or.inl h
      · have := inv.earlier r p hp
        exact Or.inr ⟨p, hp, hqp, by rwa [keys_admitted, if_neg (by omega)]⟩
  · intro r left hleft p hp
    rw [isFinished_admitted]
    rw [phase_admitted] at hleft
    rw [predecessors_admitted] at hp
    split at hleft
    · rename_i hr
      rw [if_pos hr] at hp
      injection hleft with hleft
      injection hleft with hleft
      exact Or.inr (hleft ▸ hp)
    · rename_i hr
      rw [if_neg hr] at hp
      exact inv.left r left hleft p hp
  · intro r left hleft p hp
    rw [phase_admitted] at hleft
    split at hleft
    · rename_i hr
      injection hleft with hleft
      injection hleft with hleft
      exact hr ▸ hpreds p (hleft ▸ hp)
    · exact inv.leftEarlier r left hleft p hp
  · intro r hstarted p hp
    rw [isFinished_admitted]
    rw [isStarted, phase_admitted] at hstarted
    rw [predecessors_admitted] at hp
    split at hstarted
    · cases hstarted
    · rename_i hr
      rw [if_neg hr] at hp
      exact inv.started r hstarted p hp
  · intro k row hrow
    -- the table names the last request of each key
    rw [ordering_admitted] at hrow
    rw [keys_admitted]
    rcases RequestOrdering.lookup_admitRequest s.ordering keyList s.requests.length open_ retained k
      with h | ⟨-, h⟩
    · rw [h] at hrow
      split at hrow
      · rename_i hk
        obtain rfl := Option.some.inj hrow
        rw [if_pos rfl, hkeyList]
        exact hk
      · have hmem := inv.sound k row hrow
        rwa [if_neg (lt_of_mem_keys hmem).ne]
    · rw [h] at hrow
      cases hrow
  · intro r k hk
    rw [isFinished_admitted, ordering_admitted]
    rw [keys_admitted] at hk
    split at hk
    · rename_i hr
      rcases RequestOrdering.lookup_admitRequest s.ordering keyList s.requests.length open_ retained k
        with h | ⟨h, -⟩
      · exact Or.inr ⟨_, by rw [h, if_pos ((hkeyList k).mp hk)], hr.le⟩
      · rw [hown k ((hkeyList k).mp hk)] at h
        cases h
    · exact inv.latest_admitted hretained hown hk

end Admitted

theorem step_orderInv {e : ConnectionEvent β κ} (inv : OrderInv keysOf s)
    (h : s.step keysOf limit e = some t) : OrderInv keysOf t := by
  cases step_kind h with
  | idle hrequests hordering => exact inv.congr hrequests hordering
  | move r old new hmove hphase hrequests hordering =>
    exact (inv.move hmove hphase).congr hrequests hordering
  | admitRequest body keys open_ retained hnodup hkeys hopen hown hretained hresult =>
    exact hresult ▸ inv.admitRequest hnodup hkeys hopen hretained hown

theorem init_orderInv : OrderInv keysOf (init limit : Connection β κ) where
  earlier r p hp := by simp [init, predecessors] at hp
  chain r k hk := by simp [init, keys] at hk
  left r left hleft := by simp [init, phase] at hleft
  leftEarlier r left hleft := by simp [init, phase] at hleft
  started r hstarted := by simp [init, isStarted, phase] at hstarted
  sound k row hrow := by
    rw [init] at hrow
    cases hrow
  latest r k hk := by simp [init, keys] at hk

/-! ### Permits -/

/-- The requests that hold a permit. -/
def inFlight (s : Connection β κ) : ℕ := s.requests.countP fun task => task.phase ≠ .answered

/-- Every permit is free, with the reader or with a request. -/
structure PermitInv (limit : ℕ) (s : Connection β κ) : Prop where
  permits : s.permits + (if s.held then 1 else 0) + s.inFlight = limit
  outgoing : s.outgoing ≤ limit

omit [DecidableEq κ] in
theorem inFlight_setPhase {r : ℕ} {old : TaskPhase} (new : TaskPhase)
    (h : s.phase r = some old) :
    (s.setPhase r new).inFlight + (if old = .answered then 0 else 1) =
      s.inFlight + (if new = .answered then 0 else 1) := by
  obtain ⟨task, htask, rfl⟩ := Option.map_eq_some_iff.mp h
  obtain ⟨hlt, hget⟩ := List.getElem?_eq_some_iff.mp htask
  have hset : (s.setPhase r new).requests = s.requests.set r { task with phase := new } := by
    show s.requests.modify r _ = _
    rw [List.modify_eq_set_getElem?, htask]
    rfl
  have hpos : task.phase ≠ .answered → 0 < s.inFlight := by
    intro hne
    exact List.countP_pos_iff.mpr ⟨task, List.mem_of_getElem? htask, by simpa using hne⟩
  rw [inFlight, hset, List.countP_set hlt, hget]
  show s.inFlight - _ + _ + _ = _
  by_cases hold : task.phase = .answered
  · by_cases hnew : new = .answered <;> simp [hold, hnew]
  · have := hpos hold
    by_cases hnew : new = .answered <;> simp [hold, hnew] <;> omega

theorem inFlight_admitted {body : β} {keyList : List κ} {open_ retained : κ → Bool} :
    (s.admitted body keyList open_ retained).inFlight = s.inFlight + 1 := by
  show (s.requests ++ [_]).countP _ = _
  rw [List.countP_append, List.countP_singleton, if_pos (by simp)]
  rfl

theorem step_permitInv {e : ConnectionEvent β κ} (inv : PermitInv limit s)
    (h : s.step keysOf limit e = some t) : PermitInv limit t := by
  have hpermits := inv.permits
  have houtgoing := inv.outgoing
  cases e with
  | acquire =>
    simp only [step, Option.ite_none_right_eq_some, Option.some.injEq, Bool.not_eq_true] at h
    obtain ⟨⟨-, hheld, hfree⟩, rfl⟩ := h
    refine ⟨?_, houtgoing⟩
    show s.permits - 1 + 1 + s.inFlight = limit
    -- the permit passes from the semaphore to the reader
    rw [hheld] at hpermits
    simp at hpermits
    omega
  | admitRequest body keys open_ retained =>
    simp only [step, Option.ite_none_right_eq_some, Option.some.injEq] at h
    obtain ⟨⟨-, hheld, -⟩, rfl⟩ := h
    refine ⟨?_, houtgoing⟩
    rw [inFlight_admitted]
    show s.permits + 0 + (s.inFlight + 1) = limit
    -- the permit passes from the reader to the request
    rw [hheld] at hpermits
    simp at hpermits
    omega
  | stopReading =>
    simp only [step, Option.ite_none_right_eq_some, Option.some.injEq] at h
    obtain ⟨-, rfl⟩ := h
    refine ⟨?_, houtgoing⟩
    show (if s.held then s.permits + 1 else s.permits) + 0 + s.inFlight = limit
    split
    · simp_all
    · simp_all
  | pass r =>
    simp only [step] at h
    split at h
    · rename_i q left hphase
      simp only [Option.ite_none_right_eq_some, Option.some.injEq] at h
      obtain ⟨-, rfl⟩ := h
      have := inFlight_setPhase (.waiting left) hphase
      simp at this
      exact ⟨by rw [this]; exact hpermits, houtgoing⟩
    · cases h
  | start r =>
    simp only [step] at h
    split at h
    · rename_i hphase
      obtain rfl := Option.some.inj h
      have := inFlight_setPhase .running hphase
      simp at this
      exact ⟨by rw [this]; exact hpermits, houtgoing⟩
    · cases h
  | finish r panicked =>
    simp only [step] at h
    split at h
    · rename_i hphase
      obtain rfl := Option.some.inj h
      have := inFlight_setPhase .finished hphase
      simp at this
      exact ⟨by rw [this]; exact hpermits, houtgoing⟩
    · cases h
  | answer r =>
    simp only [step] at h
    split at h
    · rename_i hphase
      -- the permit comes back once the answer is queued or dropped
      have hcount := inFlight_setPhase .answered hphase
      simp only [reduceCtorEq, if_false, if_true] at hcount
      split at h
      · obtain rfl := Option.some.inj h
        refine ⟨?_, houtgoing⟩
        show s.permits + 1 + (if s.held then 1 else 0) + (s.setPhase r .answered).inFlight = limit
        omega
      · split at h
        · obtain rfl := Option.some.inj h
          refine ⟨?_, by assumption⟩
          show s.permits + 1 + (if s.held then 1 else 0) + (s.setPhase r .answered).inFlight = limit
          omega
        · cases h
    · cases h
  | write =>
    simp only [step, Option.ite_none_right_eq_some, Option.some.injEq] at h
    obtain ⟨-, rfl⟩ := h
    exact ⟨hpermits, (Nat.sub_le _ _).trans houtgoing⟩
  | writerFails =>
    simp only [step, Option.ite_none_right_eq_some, Option.some.injEq] at h
    obtain ⟨-, rfl⟩ := h
    exact ⟨hpermits, houtgoing⟩

/-! ### What holds in every reachable state -/

/-- A started request comes after every earlier one that shares a key. -/
def Ordered (keysOf : β → Finset κ) (s : Connection β κ) : Prop :=
  ∀ q r, q < r → ¬ Disjoint (s.keys keysOf q) (s.keys keysOf r) → s.isStarted r → s.isFinished q

/-- The latest request of a key is remembered until it is finished. -/
def TailsKept (keysOf : β → Finset κ) (s : Connection β κ) : Prop :=
  ∀ r, ∀ k ∈ s.keys keysOf r, ¬ s.isFinished r → (∀ q, r < q → k ∉ s.keys keysOf q) →
    s.ordering.tails.lookup k = some (k, r)

/-- The earliest unfinished request runs, or all that it still waits for is finished. -/
def EarliestFree (s : Connection β κ) : Prop :=
  ∀ r < s.requests.length, ¬ s.isFinished r → (∀ q < r, s.isFinished q) →
    s.phase r = some .running ∨
      ∃ left, s.phase r = some (.waiting left) ∧ ∀ p ∈ left, s.isFinished p

/-- Nothing is left to do: the reader waits for a frame or has stopped. -/
def Idle (s : Connection β κ) : Prop :=
  s.inFlight = 0 ∧ (s.writing → s.outgoing = 0) ∧ (s.reading → s.held)

/-- The connection can move by itself, or it is idle. -/
def Progress (keysOf : β → Finset κ) (limit : ℕ) (s : Connection β κ) : Prop :=
  (∃ e : ConnectionEvent β κ, e.IsOwn ∧ (s.step keysOf limit e).isSome) ∨ s.Idle

theorem OrderInv.isOrdered (inv : OrderInv keysOf s) : s.Ordered keysOf := by
  intro q r hqr hshare hstarted
  obtain ⟨k, hkq, hkr⟩ := Finset.not_disjoint_iff.mp hshare
  exact inv.ordered r hstarted k hkr q hqr hkq

theorem OrderInv.tailsKept (inv : OrderInv keysOf s) : s.TailsKept keysOf := by
  intro r k hk hunfinished hlast
  rcases inv.latest r k hk with h | ⟨p, hp, hrp⟩
  · exact absurd h hunfinished
  · rcases hrp.eq_or_lt with rfl | hlt
    · exact hp
    · exact absurd (inv.sound k _ hp) (hlast p hlt)

theorem OrderInv.earliestFree (inv : OrderInv keysOf s) : s.EarliestFree := by
  intro r hr hunfinished hearlier
  cases hphase : s.phase r with
  | none =>
    rw [phase, List.getElem?_eq_getElem hr] at hphase
    cases hphase
  | some phase =>
    cases phase with
    | waiting left =>
      exact Or.inr ⟨left, rfl, fun p hp => hearlier p (inv.leftEarlier r left hphase p hp)⟩
    | running => exact Or.inl rfl
    | finished => exact absurd (by simp [isFinished, hphase, TaskPhase.isFinished]) hunfinished
    | answered => exact absurd (by simp [isFinished, hphase, TaskPhase.isFinished]) hunfinished

/-- The task of the earliest unfinished request can move. -/
theorem EarliestFree.enabled (h : s.EarliestFree) {r : ℕ} (hr : r < s.requests.length)
    (hunfinished : ¬ s.isFinished r) (hearlier : ∀ q < r, s.isFinished q) :
    ∃ e : ConnectionEvent β κ, e.IsOwn ∧ (s.step keysOf limit e).isSome := by
  rcases h r hr hunfinished hearlier with hrunning | ⟨_ | ⟨q, left⟩, hwaiting, hleft⟩
  · exact ⟨.finish r false, trivial, by simp [step, hrunning]⟩
  · exact ⟨.start r, trivial, by simp [step, hwaiting]⟩
  · exact ⟨.pass r, trivial, by simp [step, hwaiting, hleft q (List.mem_cons_self ..)]⟩

theorem progress (hlimit : 1 ≤ limit) (inv : OrderInv keysOf s) (hpermits : PermitInv limit s) :
    s.Progress keysOf limit := by
  by_cases hall : ∀ r < s.requests.length, s.isFinished r
  · by_cases hanswered : ∀ r < s.requests.length, s.phase r = some .answered
    · -- nothing is in flight: the reader has all the permits
      have hflight : s.inFlight = 0 := by
        refine List.countP_eq_zero.mpr fun task htask => ?_
        obtain ⟨r, hr, rfl⟩ := List.getElem_of_mem htask
        have := hanswered r hr
        rw [phase, List.getElem?_eq_getElem hr] at this
        simpa using this
      have hsum := hpermits.permits
      rw [hflight] at hsum
      by_cases hout : s.writing ∧ 0 < s.outgoing
      · exact Or.inl ⟨.write, trivial, by simp [step, hout]⟩
      by_cases hread : s.reading ∧ ¬ s.held
      · refine Or.inl ⟨.acquire, trivial, ?_⟩
        have hfree : 0 < s.permits := by
          simp [hread.2] at hsum
          omega
        simp [step, hread.1, hread.2, hfree]
      · refine Or.inr ⟨hflight, ?_, ?_⟩
        · intro hwriting
          by_contra hpos
          exact hout ⟨hwriting, Nat.pos_of_ne_zero hpos⟩
        · intro hreading
          by_contra hheld
          exact hread ⟨hreading, hheld⟩
    · -- a finished request hands over its response, or the writer takes one first
      push Not at hanswered
      obtain ⟨r, hr, hne⟩ := hanswered
      have hphase : s.phase r = some .finished := by
        have hfinished := hall r hr
        rw [isFinished] at hfinished
        cases hphase : s.phase r with
        | none => simp [hphase] at hfinished
        | some phase => cases phase <;> simp_all [TaskPhase.isFinished]
      by_cases hwriting : s.writing
      · by_cases hfull : s.outgoing < limit
        · exact Or.inl ⟨.answer r, trivial, by simp [step, hphase, hwriting, hfull]⟩
        · refine Or.inl ⟨.write, trivial, ?_⟩
          have : 0 < s.outgoing := by omega
          simp [step, hwriting, this]
      · exact Or.inl ⟨.answer r, trivial, by simp [step, hphase, hwriting]⟩
  · push Not at hall
    obtain ⟨hr, hunfinished⟩ := Nat.find_spec hall
    refine Or.inl (inv.earliestFree.enabled hr hunfinished fun q hq => ?_)
    have := Nat.find_min hall hq
    simp only [not_and, not_not] at this
    exact this (by omega)

omit [DecidableEq κ] in
theorem init_permitInv : PermitInv limit (init limit : Connection β κ) := by
  refine ⟨?_, Nat.zero_le _⟩
  show limit + 0 + 0 = limit
  rfl

theorem run_inv {events : List (ConnectionEvent β κ)}
    (h : run (Connection.step keysOf limit) (init limit) events = some s) :
    OrderInv keysOf s ∧ PermitInv limit s :=
  run_invariant (P := fun s => OrderInv keysOf s ∧ PermitInv limit s)
    (fun _ _ _ inv hstep => ⟨step_orderInv inv.1 hstep, step_permitInv inv.2 hstep⟩)
    ⟨init_orderInv, init_permitInv⟩ h

omit [DecidableEq κ] in
theorem isFinished_setPhase_of_ne {r q : ℕ} {new : TaskPhase} (h : r ≠ q) :
    (s.setPhase r new).isFinished q = s.isFinished q := by
  rw [isFinished, isFinished, phase_setPhase_of_ne h]

/-- When a handler starts, the requests before it that share a key are finished. -/
theorem start_ordered (inv : OrderInv keysOf s) {r : ℕ}
    (h : s.step keysOf limit (.start r) = some t) :
    ∀ q < r, ¬ Disjoint (s.keys keysOf q) (s.keys keysOf r) → s.isFinished q := by
  have hordered := (step_orderInv inv h).isOrdered
  simp only [step] at h
  split at h
  · rename_i hphase
    obtain rfl := Option.some.inj h
    intro q hq hshare
    have hfinished := hordered q r hq (by simpa using hshare)
      (by rw [isStarted, phase_setPhase_self hphase]; rfl)
    rwa [isFinished_setPhase_of_ne hq.ne'] at hfinished
  · cases h

omit [DecidableEq κ] in
theorem not_isFinished_of_running {r : ℕ} (h : s.phase r = some .running) :
    ¬ s.isFinished r := by simp [isFinished, h, TaskPhase.isFinished]

/-- Requests that run at the same time share no key. -/
theorem Ordered.disjoint (h : s.Ordered keysOf) {q r : ℕ} (hne : q ≠ r)
    (hq : s.phase q = some .running) (hr : s.phase r = some .running) :
    Disjoint (s.keys keysOf q) (s.keys keysOf r) := by
  have started : ∀ {p}, s.phase p = some .running → s.isStarted p := fun hp => by
    rw [isStarted, hp]
    rfl
  by_contra hshare
  rcases Nat.lt_or_gt_of_ne hne with hlt | hgt
  · exact not_isFinished_of_running hq (h q r hlt hshare (started hr))
  · exact not_isFinished_of_running hr
      (h r q hgt (fun hdisjoint => hshare hdisjoint.symm) (started hq))

end Connection

/-- The record, operation and trade keys that a handler may pass to the backend. -/
def HandlerTouches (plain : Char → Bool) (maxPayloadBytes : ℕ) (body : Option RequestBody)
    (k : OrderKey) : Prop :=
  ∃ c, (dispatchBody plain maxPayloadBytes body).run.Makes c ∧ k ∈ c.touches

theorem HandlerTouches.mem_orderKeys {plain : Char → Bool} {maxPayloadBytes : ℕ}
    {body : Option RequestBody} {k : OrderKey}
    (h : HandlerTouches plain maxPayloadBytes body k) : k ∈ orderKeys body := by
  obtain ⟨c, hmakes, hk⟩ := h
  exact List.mem_toFinset.mpr ((dispatchBody_calls body).of_makes hmakes k hk)

open Connection in
/-- **Requests of one connection.**  Whatever the order keys are, a handler starts
only after the earlier requests that share a key, the latest unfinished request of
a key is never forgotten, the earliest unfinished request waits for nothing, and
with at least one permit the connection never gets stuck.  With the keys of
`order_keys`, requests that run at the same time pass no common record, operation
or trade to the backend. -/
theorem connection_ordering (limit : ℕ) (hlimit : 1 ≤ limit) :
    (∀ {β κ : Type} [DecidableEq κ] (keysOf : β → Finset κ)
        (events : List (ConnectionEvent β κ)) (s : Connection β κ),
      run (Connection.step keysOf limit) (Connection.init limit) events = some s →
        s.Ordered keysOf ∧
        (∀ r t, s.step keysOf limit (.start r) = some t → ∀ q < r,
          ¬ Disjoint (s.keys keysOf q) (s.keys keysOf r) → s.isFinished q) ∧
        s.TailsKept keysOf ∧ s.EarliestFree ∧ s.Progress keysOf limit) ∧
    (∀ plain maxPayloadBytes body k,
      HandlerTouches plain maxPayloadBytes body k → k ∈ orderKeys body) ∧
    (∀ plain maxPayloadBytes (events : List (ConnectionEvent (Option RequestBody) OrderKey)) s,
      run (Connection.step orderKeys limit) (Connection.init limit) events = some s →
      ∀ (q r : ℕ) (a b : RequestTask (Option RequestBody)), q ≠ r →
        s.requests[q]? = some a → s.requests[r]? = some b →
        a.phase = .running → b.phase = .running →
        ∀ k, ¬ (HandlerTouches plain maxPayloadBytes a.body k ∧
          HandlerTouches plain maxPayloadBytes b.body k)) := by
  refine ⟨?_, fun _ _ _ _ h => h.mem_orderKeys, ?_⟩
  · intro β κ _ keysOf events s hrun
    obtain ⟨inv, hpermits⟩ := Connection.run_inv hrun
    exact ⟨inv.isOrdered, fun r t => Connection.start_ordered inv, inv.tailsKept, inv.earliestFree,
      Connection.progress hlimit inv hpermits⟩
  · intro plain maxPayloadBytes events s hrun q r a b hne ha hb hrunA hrunB k ⟨hka, hkb⟩
    obtain ⟨inv, -⟩ := Connection.run_inv hrun
    have hdisjoint := inv.isOrdered.disjoint hne (by rw [Connection.phase, ha, ← hrunA]; rfl)
      (by rw [Connection.phase, hb, ← hrunB]; rfl)
    rw [Connection.keys, Connection.keys, ha, hb] at hdisjoint
    exact Finset.disjoint_left.mp hdisjoint hka.mem_orderKeys hkb.mem_orderKeys

/-- Two lookups of one trade; the handler of the first panics. -/
def twoLookups : List (ConnectionEvent (Option RequestBody) OrderKey) :=
  let lookup := ConnectionEvent.admitRequest (some (.loadTrade ⟨"t"⟩)) [.trade "t"] (fun _ => true)
    fun _ => true
  [.acquire, lookup, .acquire, lookup, .start 0, .finish 0 true, .pass 1, .start 1]

theorem connection_ordering_two :
    ∃ s, run (Connection.step orderKeys 2) (Connection.init 2) twoLookups = some s ∧
      (s.phase 0 = some .finished ∧ s.phase 1 = some .running) ∧ s.Ordered orderKeys := by
  obtain ⟨s, hrun, hphases⟩ := exists_of_any
    (o := run (Connection.step orderKeys 2) (Connection.init 2) twoLookups)
    (p := fun s => s.phase 0 = some .finished ∧ s.phase 1 = some .running) (by decide)
  exact ⟨s, hrun, hphases, ((connection_ordering 2 (by decide)).1 orderKeys _ s hrun).1⟩

end DbProxy
