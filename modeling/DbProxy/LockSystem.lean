/-
Requests that lock what they touch.

A lock `l : L` guards a value of type `V l`.  A request is a program of type
`Interaction L V (α × Writes V)`: it takes one lock after the other, goes on with
the value it finds under each, and ends with a result and the new values of some
of the locks it holds.  Any number of requests run at once; taking a lock,
finishing, giving back one lock and being cancelled while a lock is awaited are
separate steps in any order.

* `Ascending rank` — a program takes its locks in increasing rank;
* `serial_order` — at any time the shared values and the results are those of the
  finished requests executed one after the other (in the order in which they
  finished), and cancelled requests had no effect;
* `unblocked_exists` — while a request is unfinished, some unfinished request
  waits for no held lock.
-/
import DbProxy.Interaction
import DbProxy.StepMachine
import Mathlib.Data.List.Nodup
import Mathlib.Logic.Function.Basic

namespace LockSystem

open StepMachine

variable {L : Type} [DecidableEq L] {V : L → Type} {ρ α : Type}

/-! ### Programs -/

/-- New values for locks; the last entry of a lock counts. -/
abbrev Writes (V : L → Type) := List ((l : L) × V l)

abbrev Program (L : Type) (V : L → Type) (α : Type) := Interaction L V (α × Writes V)

/-- Store the new values of the locks that are held. -/
def commit (held : List L) (writes : Writes V) (s : (l : L) → V l) : (l : L) → V l :=
  (writes.filter fun w => w.1 ∈ held).foldl (fun s w => Function.update s w.1 w.2) s

/-- Run the rest of a program that holds `held`, with nobody else around. -/
def execFrom (s : (l : L) → V l) : List L → Program L V α → α × ((l : L) → V l)
  | held, .done (a, writes) => (a, commit held writes s)
  | held, .call l next => execFrom s (l :: held) (next (s l))

/-- Run a program alone. -/
def exec (p : Program L V α) (s : (l : L) → V l) : α × ((l : L) → V l) := execFrom s [] p

/-- Follow a program through its locks: how it ends, and the locks it then holds. -/
def walk {β : Type} (s : (l : L) → V l) : List L → Interaction L V β → β × List L
  | held, .done b => (b, held)
  | held, .call l next => walk s (l :: held) (next (s l))

omit [DecidableEq L] in
theorem walk_bind {β γ : Type} (s : (l : L) → V l) (x : Interaction L V β)
    (f : β → Interaction L V γ) :
    ∀ held, walk s held (x.bind f) = walk s (walk s held x).2 (f (walk s held x).1) := by
  induction x with
  | done b =>
    intro held
    rfl
  | call l next ih =>
    intro held
    exact ih (s l) (l :: held)

theorem execFrom_eq_walk (s : (l : L) → V l) (p : Program L V α) :
    ∀ held, execFrom s held p =
      ((walk s held p).1.1, commit (walk s held p).2 (walk s held p).1.2 s) := by
  induction p with
  | done result =>
    intro held
    rfl
  | call l next ih =>
    intro held
    exact ih (s l) (l :: held)

/-- Run programs one after the other. -/
def execAll (program : ρ → Program L V α) (s : (l : L) → V l) :
    List ρ → List α × ((l : L) → V l)
  | [] => ([], s)
  | r :: rest =>
    ((exec (program r) s).1 :: (execAll program (exec (program r) s).2 rest).1,
      (execAll program (exec (program r) s).2 rest).2)

/-- Every lock of the program has rank at least `k` and a higher rank than those
before it. -/
def Ascending {β : Type} (rank : L → ℕ) : ℕ → Interaction L V β → Prop
  | _, .done _ => True
  | k, .call l next => k ≤ rank l ∧ ∀ v, Ascending rank (rank l + 1) (next v)

omit [DecidableEq L] in
theorem Ascending.map {β γ : Type} {rank : L → ℕ} {x : Interaction L V β} (f : β → γ) :
    ∀ {k}, Ascending rank k x → Ascending rank k (x.bind fun b => .done (f b)) := by
  induction x with
  | done b =>
    intro k _
    trivial
  | call l next ih =>
    intro k h
    exact ⟨h.1, fun v => ih v (h.2 v)⟩

/-! ### Concurrent requests -/

inductive Phase (L : Type) (V : L → Type) (α : Type)
  /-- Holds some locks and goes on with the program. -/
  | running (rest : Program L V α) (held : List L)
  /-- Gives its locks back, with a result or cancelled. -/
  | releasing (outcome : Option α) (held : List L)

def Phase.held : Phase L V α → List L
  | .running _ held => held
  | .releasing _ held => held

structure Thread (L : Type) (V : L → Type) (ρ α : Type) where
  request : ρ
  phase : Phase L V α

structure State (L : Type) (V : L → Type) (ρ α : Type) where
  shared : (l : L) → V l
  threads : List (Thread L V ρ α)
  /-- The finished requests with their results, in the order in which they finished. -/
  order : List (ℕ × ρ × α)

inductive Event (L ρ : Type)
  | start (request : ρ)
  | acquire (i : ℕ)
  | finish (i : ℕ)
  | release (i : ℕ) (l : L)
  | cancel (i : ℕ)
deriving DecidableEq

/-- The request that moves; a new one has no number yet. -/
def Event.thread : Event L ρ → Option ℕ
  | .start _ => none
  | .acquire i | .finish i | .release i _ | .cancel i => some i

namespace State

def Free (s : State L V ρ α) (l : L) : Prop := ∀ t ∈ s.threads, l ∉ t.phase.held

instance (s : State L V ρ α) (l : L) : Decidable (s.Free l) :=
  inferInstanceAs (Decidable (∀ t ∈ s.threads, l ∉ t.phase.held))

def setPhase (s : State L V ρ α) (i : ℕ) (r : ρ) (phase : Phase L V α) : State L V ρ α :=
  { s with threads := s.threads.set i ⟨r, phase⟩ }

/-- Still running, or still holding a lock. -/
def Unfinished (s : State L V ρ α) (i : ℕ) : Prop :=
  ∃ t, s.threads[i]? = some t ∧ ∀ outcome, t.phase ≠ .releasing outcome []

/-- Waits for a lock that a request holds. -/
def Blocked (s : State L V ρ α) (i : ℕ) : Prop :=
  ∃ r l next held, s.threads[i]? = some ⟨r, .running (.call l next) held⟩ ∧ ¬ s.Free l

end State

def step (program : ρ → Program L V α) (s : State L V ρ α) :
    Event L ρ → Option (State L V ρ α)
  | .start r => some { s with threads := s.threads ++ [⟨r, .running (program r) []⟩] }
  | .acquire i =>
    match s.threads[i]? with
    | some ⟨r, .running (.call l next) held⟩ =>
      if s.Free l then some (s.setPhase i r (.running (next (s.shared l)) (l :: held))) else none
    | _ => none
  | .finish i =>
    match s.threads[i]? with
    | some ⟨r, .running (.done (a, writes)) held⟩ =>
      some { s.setPhase i r (.releasing (some a) held) with
        shared := commit held writes s.shared
        order := s.order ++ [(i, r, a)] }
    | _ => none
  | .release i l =>
    match s.threads[i]? with
    | some ⟨r, .releasing outcome held⟩ =>
      if l ∈ held then some (s.setPhase i r (.releasing outcome (held.erase l))) else none
    | _ => none
  | .cancel i =>
    match s.threads[i]? with
    -- a request can only be dropped where it awaits a lock
    | some ⟨r, .running (.call _ _) held⟩ => some (s.setPhase i r (.releasing none held))
    | _ => none

/-- What a step can do. -/
theorem step_cases {program : ρ → Program L V α} {s t : State L V ρ α} {e : Event L ρ}
    (h : step program s e = some t) :
    (∃ r, e = .start r ∧
      t = { s with threads := s.threads ++ [⟨r, .running (program r) []⟩] }) ∨
    (∃ i r l next held, e = .acquire i ∧
      s.threads[i]? = some ⟨r, .running (.call l next) held⟩ ∧ s.Free l ∧
      t = s.setPhase i r (.running (next (s.shared l)) (l :: held))) ∨
    (∃ i r a writes held, e = .finish i ∧
      s.threads[i]? = some ⟨r, .running (.done (a, writes)) held⟩ ∧
      t = { s.setPhase i r (.releasing (some a) held) with
        shared := commit held writes s.shared
        order := s.order ++ [(i, r, a)] }) ∨
    (∃ i l r outcome held, e = .release i l ∧
      s.threads[i]? = some ⟨r, .releasing outcome held⟩ ∧ l ∈ held ∧
      t = s.setPhase i r (.releasing outcome (held.erase l))) ∨
    (∃ i r l next held, e = .cancel i ∧
      s.threads[i]? = some ⟨r, .running (.call l next) held⟩ ∧
      t = s.setPhase i r (.releasing none held)) := by
  cases e with
  | start r =>
    exact Or.inl ⟨r, rfl, (Option.some.inj h).symm⟩
  | acquire i =>
    rw [step] at h
    split at h
    · rename_i r l next held hi
      split at h
      · rename_i hfree
        exact Or.inr (Or.inl ⟨i, r, l, next, held, rfl, hi, hfree, (Option.some.inj h).symm⟩)
      · cases h
    · cases h
  | finish i =>
    rw [step] at h
    split at h
    · rename_i r a writes held hi
      exact Or.inr (Or.inr (Or.inl ⟨i, r, a, writes, held, rfl, hi, (Option.some.inj h).symm⟩))
    · cases h
  | release i l =>
    rw [step] at h
    split at h
    · rename_i r outcome held hi
      split at h
      · rename_i hl
        exact Or.inr (Or.inr (Or.inr (Or.inl
          ⟨i, l, r, outcome, held, rfl, hi, hl, (Option.some.inj h).symm⟩)))
      · cases h
    · cases h
  | cancel i =>
    rw [step] at h
    split at h
    · rename_i r l next held hi
      exact Or.inr (Or.inr (Or.inr (Or.inr
        ⟨i, r, l, next, held, rfl, hi, (Option.some.inj h).symm⟩)))
    · cases h

/-! ### What a running request has seen -/

/-- With the values `s` under the locks, `p` takes the locks `held` and goes on
as `q`. -/
inductive Reads (s : (l : L) → V l) (p : Program L V α) : List L → Program L V α → Prop
  | start : Reads s p [] p
  | acquire {held : List L} {l : L} {next : V l → Program L V α} :
    Reads s p held (.call l next) → Reads s p (l :: held) (next (s l))

theorem Reads.exec {s : (l : L) → V l} {p q : Program L V α} {held : List L}
    (h : Reads s p held q) : LockSystem.exec p s = execFrom s held q := by
  induction h with
  | start => rfl
  | acquire _ ih => exact ih

omit [DecidableEq L] in
/-- What is not held may change. -/
theorem Reads.congr {s s' : (l : L) → V l} {p q : Program L V α} {held : List L}
    (h : Reads s p held q) (hsame : ∀ l ∈ held, s' l = s l) : Reads s' p held q := by
  induction h with
  | start => exact Reads.start
  | @acquire held l next _ ih =>
    rw [← hsame l (List.mem_cons_self ..)]
    exact Reads.acquire (ih fun l' hl' => hsame l' (List.mem_cons_of_mem _ hl'))

theorem commit_of_not_mem {held : List L} {writes : Writes V} {s : (l : L) → V l} {l : L}
    (hl : l ∉ held) : commit held writes s l = s l := by
  rw [commit]
  induction writes generalizing s with
  | nil => rfl
  | cons w rest ih =>
    rw [List.filter_cons]
    split
    · rename_i hw
      have hne : l ≠ w.1 := by
        rintro rfl
        exact hl (by simpa using hw)
      rw [List.foldl_cons, ih, Function.update_of_ne hne]
    · exact ih

/-- Writes to held locks are all stored. -/
theorem commit_of_held {held : List L} {writes : Writes V} (h : ∀ w ∈ writes, w.1 ∈ held)
    (s : (l : L) → V l) :
    commit held writes s = writes.foldl (fun s w => Function.update s w.1 w.2) s := by
  rw [commit, List.filter_eq_self.mpr fun w hw => decide_eq_true (h w hw)]

theorem execAll_concat (program : ρ → Program L V α) (r : ρ) :
    ∀ (rs : List ρ) (s : (l : L) → V l), execAll program s (rs ++ [r]) =
      ((execAll program s rs).1 ++ [(LockSystem.exec (program r) (execAll program s rs).2).1],
        (LockSystem.exec (program r) (execAll program s rs).2).2) := by
  intro rs
  induction rs with
  | nil =>
    intro s
    rfl
  | cons r' rs ih =>
    intro s
    rw [List.cons_append, execAll, execAll, ih]
    rfl

/-! ### The invariant -/

structure Consistent (program : ρ → Program L V α) (rank : L → ℕ) (s₀ : (l : L) → V l)
    (s : State L V ρ α) : Prop where
  /-- No lock is held twice. -/
  exclusive : ∀ (i j : ℕ) (t t' : Thread L V ρ α), s.threads[i]? = some t → s.threads[j]? = some t' →
    ∀ l ∈ t.phase.held, l ∈ t'.phase.held → i = j
  reads : ∀ (i : ℕ) r p held, s.threads[i]? = some ⟨r, .running p held⟩ →
    Reads s.shared (program r) held p
  ascending : ∀ (i : ℕ) r p held, s.threads[i]? = some ⟨r, .running p held⟩ →
    ∃ k, Ascending rank k p ∧ ∀ l ∈ held, rank l < k
  serial : execAll program s₀ (s.order.map (·.2.1)) = (s.order.map (·.2.2), s.shared)
  nodup : (s.order.map (·.1)).Nodup
  finished : ∀ (i : ℕ) r a, (i, r, a) ∈ s.order ↔
    ∃ held, s.threads[i]? = some ⟨r, .releasing (some a) held⟩

variable {program : ρ → Program L V α} {rank : L → ℕ} {s₀ : (l : L) → V l}
  {s t : State L V ρ α}

omit [DecidableEq L] in
theorem getElem?_setPhase {i : ℕ} {u : Thread L V ρ α} (hi : s.threads[i]? = some u) (r : ρ)
    (phase : Phase L V α) (j : ℕ) :
    (s.setPhase i r phase).threads[j]? = if j = i then some ⟨r, phase⟩ else s.threads[j]? := by
  obtain ⟨hlt, -⟩ := List.getElem?_eq_some_iff.mp hi
  rw [State.setPhase, List.getElem?_set]
  by_cases hij : i = j
  · subst hij
    rw [if_pos rfl, if_pos rfl, if_pos hlt]
  · rw [if_neg hij, if_neg fun h => hij h.symm]

theorem init_consistent : Consistent program rank s₀ ⟨s₀, [], []⟩ where
  exclusive i j t t' hi := by simp at hi
  reads i r p held hi := by simp at hi
  ascending i r p held hi := by simp at hi
  serial := rfl
  nodup := List.nodup_nil
  finished i r a := by simp

/-- A request that changes its phase, and neither a shared value nor its result. -/
theorem Consistent.setPhase (h : Consistent program rank s₀ s) {i : ℕ} {r : ρ} {old new : Phase L V α}
    (hi : s.threads[i]? = some ⟨r, old⟩) (hheld : ∀ l ∈ new.held, l ∈ old.held ∨ s.Free l)
    (hrunning : ∀ p held, new = .running p held →
      Reads s.shared (program r) held p ∧ ∃ k, Ascending rank k p ∧ ∀ l ∈ held, rank l < k)
    (hresult : ∀ a, (∃ held, new = .releasing (some a) held) ↔
      ∃ held, old = .releasing (some a) held) :
    Consistent program rank s₀ (s.setPhase i r new) := by
  -- a lock of request `i` is not a lock of another request
  have hothers : ∀ (j : ℕ) (t : Thread L V ρ α), j ≠ i → s.threads[j]? = some t →
      ∀ l ∈ new.held, l ∉ t.phase.held := by
    intro j t hji hj l hl hlt
    rcases hheld l hl with hold | hfree
    · exact hji (h.exclusive j i t _ hj hi l hlt hold)
    · exact hfree t (List.mem_of_getElem? hj) hlt
  refine ⟨?_, ?_, ?_, h.serial, h.nodup, ?_⟩
  · intro j k u u' hj hk l hl hl'
    rw [getElem?_setPhase hi] at hj hk
    by_cases hji : j = i
    · by_cases hki : k = i
      · rw [hji, hki]
      · rw [if_pos hji] at hj
        rw [if_neg hki] at hk
        obtain rfl := Option.some.inj hj
        exact absurd hl' (hothers k u' hki hk l hl)
    · rw [if_neg hji] at hj
      by_cases hki : k = i
      · rw [if_pos hki] at hk
        obtain rfl := Option.some.inj hk
        exact absurd hl (hothers j u hji hj l hl')
      · rw [if_neg hki] at hk
        exact h.exclusive j k u u' hj hk l hl hl'
  · intro j r' p held hj
    rw [getElem?_setPhase hi] at hj
    split at hj
    · cases hj
      exact (hrunning p held rfl).1
    · exact h.reads j r' p held hj
  · intro j r' p held hj
    rw [getElem?_setPhase hi] at hj
    split at hj
    · cases hj
      exact (hrunning p held rfl).2
    · exact h.ascending j r' p held hj
  · intro j r' a
    show (j, r', a) ∈ s.order ↔ _
    rw [h.finished, getElem?_setPhase hi]
    by_cases hji : j = i
    · subst hji
      rw [if_pos rfl, hi]
      simp only [Option.some.injEq, Thread.mk.injEq]
      constructor
      · rintro ⟨held, rfl, hold⟩
        obtain ⟨held', hnew⟩ := (hresult a).mpr ⟨held, hold⟩
        exact ⟨held', rfl, hnew⟩
      · rintro ⟨held, rfl, hnew⟩
        obtain ⟨held', hold⟩ := (hresult a).mp ⟨held, hnew⟩
        exact ⟨held', rfl, hold⟩
    · rw [if_neg hji]

/-- A new request holds nothing. -/
theorem Consistent.start (h : Consistent program rank s₀ s) {r : ρ}
    (hprogram : Ascending rank 0 (program r)) :
    Consistent program rank s₀
      { s with threads := s.threads ++ [⟨r, .running (program r) []⟩] } := by
  have hget : ∀ (j : ℕ) (u : Thread L V ρ α),
      (s.threads ++ [⟨r, .running (program r) []⟩])[j]? = some u →
        s.threads[j]? = some u ∨ u = ⟨r, .running (program r) []⟩ := by
    intro j u hj
    rcases Nat.lt_or_ge j s.threads.length with hlt | hge
    · rw [List.getElem?_append_left hlt] at hj
      exact Or.inl hj
    · rw [List.getElem?_append_right hge] at hj
      exact Or.inr (List.mem_singleton.mp (List.mem_of_getElem? hj))
  refine ⟨?_, ?_, ?_, h.serial, h.nodup, ?_⟩
  · intro j k u u' hj hk l hl hl'
    rcases hget j u hj with hj | rfl
    · rcases hget k u' hk with hk | rfl
      · exact h.exclusive j k u u' hj hk l hl hl'
      · cases hl'
    · cases hl
  · intro j r' p held hj
    rcases hget j _ hj with hj | heq
    · exact h.reads j r' p held hj
    · cases heq
      exact Reads.start
  · intro j r' p held hj
    rcases hget j _ hj with hj | heq
    · exact h.ascending j r' p held hj
    · cases heq
      exact ⟨0, hprogram, by simp⟩
  · intro j r' a
    show (j, r', a) ∈ s.order ↔ _
    rw [h.finished]
    constructor
    · rintro ⟨held, hj⟩
      obtain ⟨hlt, -⟩ := List.getElem?_eq_some_iff.mp hj
      exact ⟨held, by rw [List.getElem?_append_left hlt]; exact hj⟩
    · rintro ⟨held, hj⟩
      rcases hget j _ hj with hj | heq
      · exact ⟨held, hj⟩
      · cases heq

/-- A request finishes: what it writes, nobody else holds. -/
theorem Consistent.finish (h : Consistent program rank s₀ s) {i : ℕ} {r : ρ} {a : α}
    {writes : Writes V} {held : List L}
    (hi : s.threads[i]? = some ⟨r, .running (.done (a, writes)) held⟩) :
    Consistent program rank s₀ { s.setPhase i r (.releasing (some a) held) with
      shared := commit held writes s.shared
      order := s.order ++ [(i, r, a)] } := by
  have hget := getElem?_setPhase hi r (.releasing (some a) held)
  have hexec : exec (program r) s.shared = (a, commit held writes s.shared) :=
    (h.reads i r _ held hi).exec
  have hnew : ∀ r' a', (i, r', a') ∉ s.order := by
    intro r' a' hmem
    obtain ⟨held', hreleasing⟩ := (h.finished i r' a').mp hmem
    rw [hi] at hreleasing
    cases hreleasing
  refine ⟨?_, ?_, ?_, ?_, ?_, ?_⟩
  · -- the locks are held as before
    have hheld : ∀ (j : ℕ) (u : Thread L V ρ α),
        (s.setPhase i r (.releasing (some a) held)).threads[j]? = some u →
          ∃ u', s.threads[j]? = some u' ∧ u'.phase.held = u.phase.held := by
      intro j u hj
      rw [hget] at hj
      split at hj
      · rename_i hji
        subst hji
        cases hj
        exact ⟨_, hi, rfl⟩
      · exact ⟨u, hj, rfl⟩
    intro j k u u' hj hk l hl hl'
    obtain ⟨v, hv, hvheld⟩ := hheld j u hj
    obtain ⟨v', hv', hvheld'⟩ := hheld k u' hk
    exact h.exclusive j k v v' hv hv' l (hvheld ▸ hl) (hvheld' ▸ hl')
  · intro j r' p held' hj
    rw [hget] at hj
    split at hj
    · cases hj
    · rename_i hji
      -- what another thread has read it holds, so this commit did not write it
      refine (h.reads j r' p held' hj).congr fun l hl => commit_of_not_mem fun hl' => ?_
      exact hji (h.exclusive j i _ _ hj hi l hl hl')
  · intro j r' p held' hj
    rw [hget] at hj
    split at hj
    · cases hj
    · exact h.ascending j r' p held' hj
  · show execAll program s₀ ((s.order ++ [(i, r, a)]).map (·.2.1)) = _
    rw [List.map_append, List.map_append, List.map_singleton, List.map_singleton, execAll_concat,
      h.serial, hexec]
  · show ((s.order ++ [(i, r, a)]).map (·.1)).Nodup
    rw [List.map_append, List.map_singleton]
    refine List.Nodup.append h.nodup (List.nodup_singleton _) ?_
    intro j hj hji
    obtain ⟨⟨j', r', a'⟩, hmem, rfl⟩ := List.mem_map.mp hj
    obtain rfl := List.mem_singleton.mp hji
    -- the thread finishes for the first time
    exact hnew r' a' hmem
  · intro j r' a'
    show (j, r', a') ∈ s.order ++ [(i, r, a)] ↔
      ∃ held', (s.setPhase i r (.releasing (some a) held)).threads[j]? = _
    rw [List.mem_append, List.mem_singleton, hget]
    by_cases hji : j = i
    · subst hji
      rw [if_pos rfl]
      simp only [Option.some.injEq, Thread.mk.injEq, Phase.releasing.injEq, Prod.mk.injEq,
        true_and, hnew, false_or, exists_and_left, exists_eq', and_true]
      exact and_congr eq_comm eq_comm
    · rw [if_neg hji, h.finished]
      simp [hji]

theorem step_consistent (hprogram : ∀ r, Ascending rank 0 (program r)) {e : Event L ρ}
    (h : Consistent program rank s₀ s) (hstep : step program s e = some t) :
    Consistent program rank s₀ t := by
  rcases step_cases hstep with ⟨r, rfl, rfl⟩ | ⟨i, r, l, next, held, rfl, hi, hfree, rfl⟩ |
    ⟨i, r, a, writes, held, rfl, hi, rfl⟩ | ⟨i, l, r, outcome, held, rfl, hi, hl, rfl⟩ |
    ⟨i, r, l, next, held, rfl, hi, rfl⟩
  · exact h.start (hprogram r)
  · obtain ⟨k, ⟨hk, hnext⟩, hheld⟩ := h.ascending i r _ held hi
    refine h.setPhase hi ?_ ?_ ?_
    · intro l' hl'
      rcases List.mem_cons.mp hl' with rfl | hl'
      · exact Or.inr hfree
      · exact Or.inl hl'
    · intro p held' hnew
      cases hnew
      refine ⟨Reads.acquire (h.reads i r _ held hi), rank l + 1, hnext _, ?_⟩
      intro l' hl'
      rcases List.mem_cons.mp hl' with rfl | hl'
      · exact Nat.lt_succ_self _
      · exact Nat.lt_succ_of_lt (Nat.lt_of_lt_of_le (hheld l' hl') hk)
    · intro a
      constructor <;> rintro ⟨held', hphase⟩ <;> cases hphase
  · exact h.finish hi
  · refine h.setPhase hi (fun l' hl' => Or.inl (List.mem_of_mem_erase hl')) ?_ ?_
    · intro p held' hnew
      cases hnew
    · intro a
      constructor
      · rintro ⟨held', hphase⟩
        cases hphase
        exact ⟨held, rfl⟩
      · rintro ⟨held', hphase⟩
        cases hphase
        exact ⟨_, rfl⟩
  · refine h.setPhase hi (fun l' hl' => Or.inl hl') ?_ ?_
    · intro p held' hnew
      cases hnew
    · intro a
      constructor <;> rintro ⟨held', hphase⟩ <;> cases hphase

theorem run_consistent (hprogram : ∀ r, Ascending rank 0 (program r)) {es : List (Event L ρ)}
    (hrun : run (step program) ⟨s₀, [], []⟩ es = some t) : Consistent program rank s₀ t :=
  run_invariant (fun _ _ _ h hstep => step_consistent hprogram h hstep) init_consistent hrun

/-! ### Cancelled requests -/

namespace State

def Cancelled (s : State L V ρ α) (i : ℕ) : Prop :=
  ∃ r held, s.threads[i]? = some ⟨r, .releasing none held⟩

def Finished (s : State L V ρ α) (i : ℕ) : Prop :=
  ∃ r a held, s.threads[i]? = some ⟨r, .releasing (some a) held⟩

omit [DecidableEq L] in
theorem Finished.not_cancelled {i : ℕ} (h : s.Finished i) : ¬ s.Cancelled i := by
  obtain ⟨r, a, held, hi⟩ := h
  rintro ⟨r', held', hi'⟩
  rw [hi] at hi'
  cases hi'

omit [DecidableEq L] in
/-- Another request may change its phase. -/
theorem Finished.setPhase {i j : ℕ} (h : s.Finished i) {r : ρ} {old new : Phase L V α}
    (hj : s.threads[j]? = some ⟨r, old⟩)
    (hsame : ∀ a held, old = .releasing (some a) held → ∃ held', new = .releasing (some a) held') :
    (s.setPhase j r new).Finished i := by
  obtain ⟨r', a, held, hi⟩ := h
  by_cases hij : i = j
  · subst hij
    rw [hi] at hj
    cases hj
    obtain ⟨held', rfl⟩ := hsame a held rfl
    exact ⟨r, a, held', by rw [getElem?_setPhase hi, if_pos rfl]⟩
  · exact ⟨r', a, held, by rw [getElem?_setPhase hj, if_neg hij]; exact hi⟩

end State

theorem step_finished {i : ℕ} {e : Event L ρ} (h : s.Finished i)
    (hstep : step program s e = some t) : t.Finished i := by
  rcases step_cases hstep with ⟨r, rfl, rfl⟩ | ⟨j, r, l, next, held, rfl, hj, -, rfl⟩ |
    ⟨j, r, a, writes, held, rfl, hj, rfl⟩ | ⟨j, l, r, outcome, held, rfl, hj, hl, rfl⟩ |
    ⟨j, r, l, next, held, rfl, hj, rfl⟩
  · obtain ⟨r', a, held, hi⟩ := h
    obtain ⟨hlt, -⟩ := List.getElem?_eq_some_iff.mp hi
    exact ⟨r', a, held, by rw [List.getElem?_append_left hlt]; exact hi⟩
  · exact h.setPhase hj fun _ _ hold => by cases hold
  · exact h.setPhase hj fun _ _ hold => by cases hold
  · refine h.setPhase hj fun a held' hold => ?_
    cases hold
    exact ⟨_, rfl⟩
  · exact h.setPhase hj fun _ _ hold => by cases hold

/-- Only a request that finishes changes a shared value. -/
theorem step_shared {e : Event L ρ} (hstep : step program s e = some t) :
    t.shared = s.shared ∨ ∃ i, e = .finish i ∧ t.Finished i := by
  rcases step_cases hstep with ⟨r, rfl, rfl⟩ | ⟨j, r, l, next, held, rfl, hj, -, rfl⟩ |
    ⟨j, r, a, writes, held, rfl, hj, rfl⟩ | ⟨j, l, r, outcome, held, rfl, hj, hl, rfl⟩ |
    ⟨j, r, l, next, held, rfl, hj, rfl⟩
  · exact Or.inl rfl
  · exact Or.inl rfl
  · refine Or.inr ⟨j, rfl, r, a, held, ?_⟩
    have hget := getElem?_setPhase hj r (.releasing (some a) held) j
    rw [if_pos rfl] at hget
    exact hget
  · exact Or.inl rfl
  · exact Or.inl rfl

/-- **A cancelled request changed nothing**, at any of its steps. -/
theorem cancelled_unchanged {after : List (Event L ρ)} {e : Event L ρ} {i : ℕ}
    {s' : State L V ρ α} (hthread : e.thread = some i) (hstep : step program s e = some s')
    (hafter : run (step program) s' after = some t) (hcancelled : t.Cancelled i) :
    s'.shared = s.shared := by
  rcases step_shared hstep with hsame | ⟨j, rfl, hfinished⟩
  · exact hsame
  · obtain rfl := Option.some.inj hthread
    have hlast : t.Finished j :=
      run_invariant (P := fun u => u.Finished j) (fun _ _ _ h hstep => step_finished h hstep)
        hfinished hafter
    exact absurd hcancelled hlast.not_cancelled

/-! ### Deadlocks -/

/-- **No deadlock**: while a request is unfinished, some unfinished request is not
blocked.  The blocked request with the highest wanted lock waits for a request
that wants no higher one. -/
theorem Consistent.unblocked_exists (h : Consistent program rank s₀ s) {bound : ℕ}
    (hbound : ∀ l, rank l < bound) {i : ℕ} (hi : s.Unfinished i) :
    ∃ j, s.Unfinished j ∧ ¬ s.Blocked j := by
  -- a request that waits for `l` leads to one that waits for a higher lock or for none
  have hwait : ∀ n l, bound - rank l = n → ∀ (i : ℕ) r next held,
      s.threads[i]? = some ⟨r, .running (.call l next) held⟩ →
        ∃ j, s.Unfinished j ∧ ¬ s.Blocked j := by
    intro n
    induction n using Nat.strongRecOn with
    | _ n ih =>
      intro l hn i r next held hi
      by_cases hblocked : s.Blocked i
      · obtain ⟨r', l', next', held', hi', hheld⟩ := hblocked
        rw [hi] at hi'
        cases hi'
        rw [State.Free] at hheld
        push Not at hheld
        obtain ⟨u, hu, hlu⟩ := hheld
        obtain ⟨j, hj⟩ := List.getElem?_of_mem hu
        obtain ⟨r'', phase⟩ := u
        cases phase with
        | releasing outcome held'' =>
          refine ⟨j, ⟨_, hj, ?_⟩, ?_⟩
          · rintro outcome' heq
            cases heq
            cases hlu
          · rintro ⟨_, _, _, _, hj', -⟩
            rw [hj] at hj'
            cases hj'
        | running p held'' =>
          cases p with
          | done result =>
            refine ⟨j, ⟨_, hj, (fun _ heq => by cases heq)⟩, ?_⟩
            rintro ⟨_, _, _, _, hj', -⟩
            rw [hj] at hj'
            cases hj'
          | call l'' next'' =>
            obtain ⟨k, ⟨hk, -⟩, hranks⟩ := h.ascending j r'' _ held'' hj
            have hlt : rank l < rank l'' := Nat.lt_of_lt_of_le (hranks l hlu) hk
            have := hbound l''
            exact ih (bound - rank l'') (by omega) l'' rfl j r'' next'' held'' hj
      · exact ⟨i, ⟨_, hi, (fun _ heq => by cases heq)⟩, hblocked⟩
  by_cases hblocked : s.Blocked i
  · obtain ⟨r, l, next, held, hi', -⟩ := hblocked
    exact hwait _ l rfl i r next held hi'
  · exact ⟨i, hi, hblocked⟩

/-- A request that is not blocked can take a lock, finish or give a lock back. -/
theorem unblocked_moves {i : ℕ} (hi : s.Unfinished i) (hfree : ¬ s.Blocked i) :
    ∃ e : Event L ρ, e.thread = some i ∧ e ≠ .cancel i ∧ (step program s e).isSome := by
  obtain ⟨⟨r, phase⟩, hi, hleft⟩ := hi
  cases phase with
  | running p held =>
    cases p with
    | done result => exact ⟨.finish i, rfl, (fun h => by cases h), by simp [step, hi]⟩
    | call l next =>
      have hl : s.Free l := by
        by_contra hheld
        exact hfree ⟨r, l, next, held, hi, hheld⟩
      exact ⟨.acquire i, rfl, (fun h => by cases h), by simp [step, hi, hl]⟩
  | releasing outcome held =>
    cases held with
    | nil => exact absurd rfl (hleft outcome)
    | cons l held => exact ⟨.release i l, rfl, (fun h => by cases h), by simp [step, hi]⟩

end LockSystem
