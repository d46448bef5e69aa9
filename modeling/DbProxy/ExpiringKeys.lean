/-
String keys that expire.

`ExpiringKeys` is what a key-value server holds: bytes under string keys, with an
optional time at which they expire.  The commands run at one reading of the clock, as
all commands of a script do; a failed command keeps what the commands before it did.
Lifetimes come as decimal texts and are refused when the expiry would not fit into a
signed 64-bit time.

* `visible` — the values that a reader sees;
* `visible_set`, `visible_del`, `visible_setPx`, `visible_pexpire` — the commands, for a
  reader at the same time;
* `setNxPx_cases`, `compareAndDelete_cases` — a key that one of many writers owns.
-/
import DbProxy.LuaNumber
import DbProxy.ScriptArguments
import Mathlib.Logic.Function.Basic

structure ExpiringValue where
  bytes : List UInt8
  expiresAt : Option ℕ := none

abbrev ExpiringKeys : Type := String → Option ExpiringValue

namespace ExpiringKeys

/-- Why a command of a script is refused. -/
inductive ScriptError
  | nilArgument
  | notAnInteger
  | invalidExpireTime
deriving DecidableEq, Repr

abbrev Script : Type → Type := EStateM ScriptError ExpiringKeys

/-- An argument that must be there. -/
def nonNil {α : Type} : Option α → Script α
  | some a => pure a
  | none => throw .nilArgument

def alive (now : ℕ) (value : ExpiringValue) : Bool := value.expiresAt.all (now < ·)

/-- What a reader sees at `now`. -/
def visible (now : ℕ) (db : ExpiringKeys) (key : String) : Option (List UInt8) :=
  ((db key).filter (alive now)).map (·.bytes)

/-- A time that fits into a signed 64-bit integer. -/
def timeLimit : ℕ := 2 ^ 63

/-- The lifetime of `PX` and `PEXPIRE`. -/
def lifetime (text : List UInt8) : Script ℕ :=
  match (Decimal.parse text).filter (· < timeLimit) with
  | some milliseconds => pure milliseconds
  | none => throw .notAnInteger

def get (now : ℕ) (key : String) : Script (Option (List UInt8)) := do
  return visible now (← EStateM.get) key

def set (key : String) (bytes : List UInt8) : Script PUnit :=
  modify fun db => Function.update db key (some ⟨bytes, none⟩)

def del (key : String) : Script PUnit := modify fun db => Function.update db key none

/-- `SET key value PX lifetime`. -/
def setPx (now : ℕ) (key : String) (bytes text : List UInt8) : Script PUnit := do
  let milliseconds ← lifetime text
  if milliseconds = 0 ∨ timeLimit ≤ now + milliseconds then throw .invalidExpireTime
  else modify fun db => Function.update db key (some ⟨bytes, some (now + milliseconds)⟩)

/-- `PEXPIRE`, which does nothing to a key that is not there. -/
def pexpire (now : ℕ) (key : String) (text : List UInt8) : Script PUnit := do
  let milliseconds ← lifetime text
  if timeLimit ≤ now + milliseconds then throw .invalidExpireTime
  else modify fun db =>
    let current := (db key).filter (alive now)
    Function.update db key (current.map ({ · with expiresAt := some (now + milliseconds) }))

/-- `SET key value NX PX lifetime`: whether the key was set. -/
def setNxPx (now : ℕ) (key : String) (bytes text : List UInt8) : Script Bool := do
  let milliseconds ← lifetime text
  if milliseconds = 0 ∨ timeLimit ≤ now + milliseconds then throw .invalidExpireTime
  else if (visible now (← EStateM.get) key).isSome then return false
  else
    modify fun db => Function.update db key (some ⟨bytes, some (now + milliseconds)⟩)
    return true

/-- Delete a key that has the value. -/
def compareAndDelete (now : ℕ) (key : String) (bytes : List UInt8) : Script Bool := do
  if visible now (← EStateM.get) key = some bytes then
    del key
    return true
  else return false

/-! ### What a reader sees -/

section Visible

variable {now : ℕ} {db : ExpiringKeys} {key : String} {bytes text : List UInt8}

theorem visible_update (value : Option ExpiringValue) :
    visible now (Function.update db key value) =
      Function.update (visible now db) key ((value.filter (alive now)).map (·.bytes)) := by
  funext k
  by_cases hk : k = key
  · subst hk
    rw [visible, Function.update_self, Function.update_self]
  · rw [visible, Function.update_of_ne hk, Function.update_of_ne hk]
    rfl

theorem visible_set :
    ∃ db', (set key bytes).run db = .ok ⟨⟩ db' ∧
      visible now db' = Function.update (visible now db) key (some bytes) :=
  ⟨_, rfl, visible_update _⟩

theorem visible_del :
    ∃ db', (del key).run db = .ok ⟨⟩ db' ∧
      visible now db' = Function.update (visible now db) key none :=
  ⟨_, rfl, visible_update _⟩

/-- The text is a positive lifetime that ends before the end of time. -/
def Lasts (now : ℕ) (text : List UInt8) : Prop :=
  ∃ milliseconds, Decimal.parse text = some milliseconds ∧ 0 < milliseconds ∧
    now + milliseconds < timeLimit

theorem lifetime_of_lasts (h : Lasts now text) :
    ∃ milliseconds, lifetime text = pure milliseconds ∧ 0 < milliseconds ∧
      now + milliseconds < timeLimit := by
  obtain ⟨milliseconds, hparse, hpos, hend⟩ := h
  refine ⟨milliseconds, ?_, hpos, hend⟩
  have hlt : milliseconds < timeLimit := by omega
  rw [lifetime, hparse, Option.filter_some, if_pos (by simpa using hlt)]

theorem visible_setPx (h : Lasts now text) :
    ∃ db', (setPx now key bytes text).run db = .ok ⟨⟩ db' ∧
      visible now db' = Function.update (visible now db) key (some bytes) := by
  obtain ⟨milliseconds, hlifetime, hpos, hend⟩ := lifetime_of_lasts h
  refine ⟨Function.update db key (some ⟨bytes, some (now + milliseconds)⟩), ?_,
    (visible_update _).trans ?_⟩
  · rw [setPx, hlifetime, pure_bind, if_neg (by omega)]
    rfl
  · rw [Option.filter_some, alive, Option.all_some, decide_eq_true (by omega)]
    rfl

theorem visible_pexpire (h : Lasts now text) :
    ∃ db', (pexpire now key text).run db = .ok ⟨⟩ db' ∧ visible now db' = visible now db := by
  obtain ⟨milliseconds, hlifetime, hpos, hend⟩ := lifetime_of_lasts h
  refine ⟨Function.update db key (((db key).filter (alive now)).map
    ({ · with expiresAt := some (now + milliseconds) })), ?_, (visible_update _).trans ?_⟩
  · rw [pexpire, hlifetime, pure_bind, if_neg (by omega)]
    rfl
  · -- the value under the key is the same, with another expiry
    refine Function.update_eq_self_iff.mpr ?_
    rw [visible]
    cases (db key).filter (alive now) with
    | none => rfl
    | some value =>
      rw [Option.map_some, Option.filter_some, alive, Option.all_some, decide_eq_true (by omega)]
      rfl

end Visible

/-! ### Keys with an owner -/

/-- The three outcomes of `SET … NX PX`. -/
theorem setNxPx_cases (now : ℕ) (db : ExpiringKeys) (key : String) (bytes : List UInt8) (n : ℕ) :
    (∃ e, (setNxPx now key bytes (Decimal.bytes n)).run db = .error e db) ∨
    ((visible now db key).isSome ∧
      (setNxPx now key bytes (Decimal.bytes n)).run db = .ok false db) ∨
    (visible now db key = none ∧ 0 < n ∧ (setNxPx now key bytes (Decimal.bytes n)).run db =
      .ok true (Function.update db key (some ⟨bytes, some (now + n)⟩))) := by
  by_cases hn : n < timeLimit
  · have hlifetime : lifetime (Decimal.bytes n) = pure n := by
      rw [lifetime, Decimal.parse_bytes, Option.filter_some, if_pos (by simpa using hn)]
    rw [setNxPx, hlifetime, pure_bind]
    split
    · exact Or.inl ⟨_, rfl⟩
    · rename_i hend
      by_cases hvisible : (visible now db key).isSome = true
      · refine Or.inr (Or.inl ⟨hvisible, ?_⟩)
        exact congrFun (congrArg EStateM.run (if_pos hvisible)) db
      · refine Or.inr (Or.inr ⟨by simpa using hvisible, by omega, ?_⟩)
        exact congrFun (congrArg EStateM.run (if_neg hvisible)) db
  · have hlifetime : lifetime (Decimal.bytes n) = throw .notAnInteger := by
      rw [lifetime, Decimal.parse_bytes, Option.filter_some, if_neg (by simpa using hn)]
    rw [setNxPx, hlifetime]
    exact Or.inl ⟨_, rfl⟩

theorem setNxPx_free {now : ℕ} {db : ExpiringKeys} {key : String} (hfree : visible now db key = none)
    (bytes : List UInt8) {n : ℕ} (hpos : 0 < n) (hend : now + n < timeLimit) :
    (setNxPx now key bytes (Decimal.bytes n)).run db =
      .ok true (Function.update db key (some ⟨bytes, some (now + n)⟩)) := by
  have hlifetime : lifetime (Decimal.bytes n) = pure n := by
    have hn : n < timeLimit := by omega
    rw [lifetime, Decimal.parse_bytes, Option.filter_some, if_pos (by simpa using hn)]
  have hvisible : ¬(visible now db key).isSome = true := by
    rw [hfree]
    exact Bool.false_ne_true
  rw [setNxPx, hlifetime, pure_bind, if_neg (by omega)]
  exact congrFun (congrArg EStateM.run (if_neg hvisible)) db

theorem compareAndDelete_cases (now : ℕ) (db : ExpiringKeys) (key : String) (bytes : List UInt8) :
    (visible now db key = some bytes ∧
      (compareAndDelete now key bytes).run db = .ok true (Function.update db key none)) ∨
    (visible now db key ≠ some bytes ∧ (compareAndDelete now key bytes).run db = .ok false db) := by
  by_cases h : visible now db key = some bytes
  · exact Or.inl ⟨h, congrFun (congrArg EStateM.run (if_pos h)) db⟩
  · exact Or.inr ⟨h, congrFun (congrArg EStateM.run (if_neg h)) db⟩

end ExpiringKeys
