/-
Programs that keep to a protocol.

A protocol watches the calls of a program.  In each of its states it allows some calls, and a
call with its reply leads to the next state.

* `Obeys` — whatever the replies are, every call is allowed, and the end satisfies `post`;
* `obeys_bind`, `obeys_exceptT_bind` — one statement after the other;
* `Obeys.of_runs`, `Obeys.of_waits` — a run that ended, and one that waits for a reply.
-/
import DbProxy.Interaction
import DbProxy.StepMachine

structure CallProtocol (C : Type) (R : C → Type) (Q : Type) where
  allows : Q → C → Bool
  after : Q → (c : C) → R c → Q

namespace Interaction

variable {C : Type} {R : C → Type} {α β ε Q : Type} {protocol : CallProtocol C R Q}

/-- The state after calls with their replies, if all of them were allowed. -/
def follow (protocol : CallProtocol C R Q) : Q → List ((c : C) × R c) → Option Q :=
  StepMachine.run fun q call =>
    if protocol.allows q call.1 then some (protocol.after q call.1 call.2) else none

theorem follow_cons {q : Q} {c : C} (hallowed : protocol.allows q c = true) (r : R c)
    (calls : List ((c : C) × R c)) :
    follow protocol q (⟨c, r⟩ :: calls) = follow protocol (protocol.after q c r) calls := by
  rw [follow, StepMachine.run_cons, if_pos hallowed, Option.bind_some]

def Obeys (protocol : CallProtocol C R Q) (post : α → Q → Prop) : Interaction C R α → Q → Prop
  | done a, q => post a q
  | call c next, q =>
    protocol.allows q c = true ∧ ∀ r, Obeys protocol post (next r) (protocol.after q c r)

variable {post : α → Q → Prop} {q : Q} {calls : List ((c : C) × R c)}

theorem Obeys.imp {post' : α → Q → Prop} {x : Interaction C R α} (h : Obeys protocol post x q)
    (himp : ∀ a q', post a q' → post' a q') : Obeys protocol post' x q := by
  induction x generalizing q with
  | done a => exact himp a q h
  | call c next ih => exact ⟨h.1, fun r => ih r (h.2 r)⟩

theorem obeys_bind {mid : β → Q → Prop} {x : Interaction C R β} {f : β → Interaction C R α}
    (hx : Obeys protocol mid x q) (hf : ∀ b q', mid b q' → Obeys protocol post (f b) q') :
    Obeys protocol post (x.bind f) q := by
  induction x generalizing q with
  | done b => exact hf b q hx
  | call c next ih => exact ⟨hx.1, fun r => ih r (hx.2 r)⟩

/-- A program that may fail, with what holds after a failure. -/
theorem obeys_exceptT_bind {mid : Except ε β → Q → Prop} {post : Except ε α → Q → Prop}
    {x : ExceptT ε (Interaction C R) β} {f : β → ExceptT ε (Interaction C R) α}
    (hx : Obeys protocol mid x.run q) (herror : ∀ e q', mid (.error e) q' → post (.error e) q')
    (hok : ∀ b q', mid (.ok b) q' → Obeys protocol post (f b).run q') :
    Obeys protocol post (x >>= f).run q := by
  refine obeys_bind hx fun b q' hb => ?_
  cases b with
  | error e => exact herror e q' hb
  | ok b => exact hok b q' hb

theorem Obeys.of_runs {x : Interaction C R α} (h : Obeys protocol post x q) {a : α}
    (hruns : x.Runs calls a) : ∃ q', follow protocol q calls = some q' ∧ post a q' := by
  induction x generalizing q calls with
  | done b =>
    obtain ⟨rfl, rfl⟩ := hruns
    exact ⟨q, rfl, h⟩
  | call c next ih =>
    obtain ⟨r, rest, rfl, hrest⟩ := hruns
    rw [follow_cons h.1]
    exact ih r (h.2 r) hrest

theorem Obeys.of_waits {x : Interaction C R α} (h : Obeys protocol post x q) {c : C}
    (hwaits : x.Waits calls c) :
    ∃ q', follow protocol q calls = some q' ∧ protocol.allows q' c = true := by
  induction x generalizing q calls with
  | done b => exact hwaits.elim
  | call c' next ih =>
    rcases hwaits with ⟨rfl, rfl⟩ | ⟨r, rest, rfl, hrest⟩
    · exact ⟨q, rfl, h.1⟩
    · rw [follow_cons h.1]
      exact ih r (h.2 r) hrest

end Interaction
