/-
The batch scripts of the backlog against the single ones, argument by argument.

`SnapshotBacklog` takes the batches as walks over their leases.  Here `ACK_SCRIPT`,
`RELEASE_SCRIPT` and their batches are as Redis runs them, over `KEYS` and `ARGV`: each
has its own layout of the arguments, and the batches walk over the leases by index.

* `ack_run`, `release_run` — the single scripts are those of `SnapshotBacklog`;
* `ackRound_run`, `releaseRound_run` — one round of a batch is one single script;
* `backlog_batches` — `ack_multi` and `release_multi` are the single calls one after the
  other, and `claim_multi` claims what single claims at the same instant would.
-/
import DbProxy.BacklogDrain
import DbProxy.ScriptArguments

namespace DbProxy

open LuaNumber ScriptArguments RedisSnapshotBacklog

/-! ### Commands over `KEYS` and `ARGV` -/

/-- `PENDING_KEY`, `PROCESSING_KEY` and `LEASES_KEY`. -/
inductive BacklogKey
  | pending
  | processing
  | leases
deriving DecidableEq

/-- An argument, as the caller passes it. -/
inductive BacklogArg
  | text (s : String)
  | bytes (b : Bytes)
  | number (n : ℕ)
deriving DecidableEq

inductive BacklogScriptError
  | nilArgument
  | wrongType
  | protocol (message : String)
deriving DecidableEq

abbrev BacklogScript : Type → Type := EStateM BacklogScriptError Backlog

namespace BacklogScript

/-- `KEYS[index]`. -/
def key (keys : List BacklogKey) (index : ℕ) : BacklogScript BacklogKey :=
  match at? keys index with
  | some key => pure key
  | none => throw .nilArgument

def text : Option BacklogArg → BacklogScript String
  | some (.text s) => pure s
  | some _ => throw .wrongType
  | none => throw .nilArgument

def bytes : Option BacklogArg → BacklogScript Bytes
  | some (.bytes b) => pure b
  | some _ => throw .wrongType
  | none => throw .nilArgument

def number : Option BacklogArg → BacklogScript ℕ
  | some (.number n) => pure n
  | some _ => throw .wrongType
  | none => throw .nilArgument

def hget : BacklogKey → String → BacklogScript (Option String)
  | .leases, member => do return (← EStateM.get).leases member
  | _, _ => throw .wrongType

def hdel : BacklogKey → String → BacklogScript PUnit
  | .leases, member => modify fun b => { b with leases := Function.update b.leases member none }
  | _, _ => throw .wrongType

def zrem : BacklogKey → String → BacklogScript PUnit
  | .pending, member => modify fun b => { b with pending := b.pending.zrem member }
  | .processing, member => modify fun b => { b with processing := b.processing.zrem member }
  | .leases, _ => throw .wrongType

def zadd : BacklogKey → ℕ → String → BacklogScript PUnit
  | .pending, score, member =>
    modify fun b => { b with pending := b.pending.zadd (toDouble score) member }
  | .processing, score, member =>
    modify fun b => { b with processing := b.processing.zadd (toDouble score) member }
  | .leases, _, _ => throw .wrongType

/-- `GET` of an entry. -/
def get (entryKey : String) : BacklogScript (Option Bytes) := do
  return (← EStateM.get).entries entryKey

def del (entryKey : String) : BacklogScript PUnit :=
  modify fun b => { b with entries := Function.update b.entries entryKey none }

@[simp] theorem text_some (s : String) : text (some (.text s)) = pure s := rfl

@[simp] theorem bytes_some (b : Bytes) : bytes (some (.bytes b)) = pure b := rfl

@[simp] theorem number_some (n : ℕ) : number (some (.number n)) = pure n := rfl

theorem hget_run (member : String) (b : Backlog) :
    (hget .leases member).run b = .ok (b.leases member) b := rfl

theorem get_run (entryKey : String) (b : Backlog) :
    (get entryKey).run b = .ok (b.entries entryKey) b := rfl

/-- The two commands that end a lease. -/
theorem endLease_run {α : Type} (member : String) (b : Backlog) (next : BacklogScript α) :
    (hdel .leases member >>= fun _ => zrem .processing member >>= fun _ => next).run b =
      next.run (b.endLease member) := rfl

end BacklogScript

open BacklogScript

/-! ### The scripts -/

/-- `ACK_SCRIPT`. -/
def ackLua (keys : List BacklogKey) (argv : List BacklogArg) : BacklogScript ℕ := do
  if (← hget (← key keys 2) (← text (at? argv 2))) ≠ some (← text (at? argv 1)) then return 0
  else
    hdel (← key keys 2) (← text (at? argv 2))
    zrem (← key keys 1) (← text (at? argv 2))
    match ← get ((← text (at? argv 4)) ++ (← text (at? argv 2))) with
    | none =>
      zrem (← key keys 3) (← text (at? argv 2))
      return 1
    | some current =>
      if current = (← bytes (at? argv 3)) then
        del ((← text (at? argv 4)) ++ (← text (at? argv 2)))
        zrem (← key keys 3) (← text (at? argv 2))
        return 1
      else
        zadd (← key keys 3) (← number (at? argv 5)) (← text (at? argv 2))
        return 2

/-- One round of the batch, with `ARGV[index + offset]`. -/
def ackRound (keys : List BacklogKey) (entryPrefix now : Option BacklogArg) (results : List ℕ)
    (argv : ℕ → Option BacklogArg) : BacklogScript (List ℕ) := do
  let lease := argv 0
  let member := argv 1
  let encoded := argv 2
  if (← hget (← key keys 2) (← text member)) ≠ some (← text lease) then return results ++ [0]
  else
    hdel (← key keys 2) (← text member)
    zrem (← key keys 1) (← text member)
    match ← get ((← text entryPrefix) ++ (← text member)) with
    | none =>
      zrem (← key keys 3) (← text member)
      return results ++ [1]
    | some current =>
      if current = (← bytes encoded) then
        del ((← text entryPrefix) ++ (← text member))
        zrem (← key keys 3) (← text member)
        return results ++ [1]
      else
        zadd (← key keys 3) (← number now) (← text member)
        return results ++ [2]

/-- `ACK_MULTI_SCRIPT`. -/
def ackMultiLua (keys : List BacklogKey) (argv : List BacklogArg) : BacklogScript (List ℕ) :=
  (indices 3 argv.length 3).foldlM (fun results index =>
    ackRound keys (at? argv 1) (at? argv 2) results fun offset => at? argv (index + offset)) []

/-- `RELEASE_SCRIPT`. -/
def releaseLua (keys : List BacklogKey) (argv : List BacklogArg) : BacklogScript ℕ := do
  if (← hget (← key keys 2) (← text (at? argv 1))) ≠ some (← text (at? argv 2)) then return 0
  else
    hdel (← key keys 2) (← text (at? argv 1))
    zrem (← key keys 1) (← text (at? argv 1))
    if (← get ((← text (at? argv 4)) ++ (← text (at? argv 1)))).isSome then
      zadd (← key keys 3) (← number (at? argv 3)) (← text (at? argv 1))
      return 1
    else return 1

def releaseRound (keys : List BacklogKey) (entryPrefix now : Option BacklogArg)
    (results : List ℕ) (argv : ℕ → Option BacklogArg) : BacklogScript (List ℕ) := do
  let member := argv 0
  let lease := argv 1
  if (← hget (← key keys 2) (← text member)) ≠ some (← text lease) then return results ++ [0]
  else
    hdel (← key keys 2) (← text member)
    zrem (← key keys 1) (← text member)
    if (← get ((← text entryPrefix) ++ (← text member))).isSome then
      zadd (← key keys 3) (← number now) (← text member)
      return results ++ [1]
    else return results ++ [1]

/-- `RELEASE_MULTI_SCRIPT`. -/
def releaseMultiLua (keys : List BacklogKey) (argv : List BacklogArg) : BacklogScript (List ℕ) :=
  (indices 3 argv.length 2).foldlM (fun results index =>
    releaseRound keys (at? argv 1) (at? argv 2) results fun offset => at? argv (index + offset)) []

/-! ### The calls -/

namespace RedisSnapshotBacklog

def leaseKeys : List BacklogKey := [.processing, .leases, .pending]

def ackStatus (message : String) : ℕ → BacklogScript SnapshotBacklogAck
  | 0 => pure .leaseLost
  | 1 => pure .removed
  | 2 => pure .superseded
  | _ => throw (.protocol message)

def ackOne (now : ℕ) (lease : ClaimedEntry) : BacklogScript ℕ :=
  ackLua leaseKeys [.text lease.leaseId, .text lease.member, .bytes lease.encoded,
    .text entryPrefix, .number now]

def ack (now : ℕ) (lease : ClaimedEntry) : BacklogScript SnapshotBacklogAck := do
  ackStatus "ack returned an invalid status" (← ackOne now lease)

/-- `ARGV` of a batch, with the arguments of one lease. -/
def batchArgs (now : ℕ) (args : ClaimedEntry → List BacklogArg) (leases : List ClaimedEntry) :
    List BacklogArg :=
  [.text entryPrefix, .number now] ++ leases.flatMap args

def ackArgs (lease : ClaimedEntry) : List BacklogArg :=
  [.text lease.leaseId, .text lease.member, .bytes lease.encoded]

def ackMulti (now : ℕ) (leases : List ClaimedEntry) :
    BacklogScript (List SnapshotBacklogAck) := do
  if leases.isEmpty then return []
  else
    let values ← ackMultiLua leaseKeys (batchArgs now ackArgs leases)
    if values.length ≠ leases.length then
      throw (.protocol "batch ack returned an invalid result count")
    else values.mapM (ackStatus "batch ack returned an invalid status")

def releaseOne (now : ℕ) (lease : ClaimedEntry) : BacklogScript ℕ :=
  releaseLua leaseKeys [.text lease.member, .text lease.leaseId, .number now, .text entryPrefix]

def release (now : ℕ) (lease : ClaimedEntry) : BacklogScript Bool := do
  return (← releaseOne now lease) = 1

def releaseArgs (lease : ClaimedEntry) : List BacklogArg :=
  [.text lease.member, .text lease.leaseId]

def releaseMulti (now : ℕ) (leases : List ClaimedEntry) : BacklogScript (List Bool) := do
  if leases.isEmpty then return []
  else
    let values ← releaseMultiLua leaseKeys (batchArgs now releaseArgs leases)
    if values.length ≠ leases.length then
      throw (.protocol "batch release returned an invalid result count")
    else return values.map (· = 1)

/-! ### Single calls -/

/-- The status that `ACK_SCRIPT` returns. -/
def ackCode : SnapshotBacklogAck → ℕ
  | .leaseLost => 0
  | .removed => 1
  | .superseded => 2

theorem ackStatus_ackCode (message : String) (result : SnapshotBacklogAck) :
    ackStatus message (ackCode result) = pure result := by
  cases result with
  | removed => rfl
  | superseded => rfl
  | leaseLost => rfl

variable {now : ℕ}

theorem key_leaseKeys :
    key leaseKeys 1 = pure .processing ∧ key leaseKeys 2 = pure .leases ∧
      key leaseKeys 3 = pure .pending :=
  ⟨rfl, rfl, rfl⟩

theorem ackOne_run (lease : ClaimedEntry) (b : Backlog) :
    (ackOne now lease).run b =
      .ok (ackCode (b.ackScript now lease).1) (b.ackScript now lease).2 := by
  have hargs : ∀ a b c d e : BacklogArg, at? [a, b, c, d, e] 1 = some a ∧
      at? [a, b, c, d, e] 2 = some b ∧ at? [a, b, c, d, e] 3 = some c ∧
      at? [a, b, c, d, e] 4 = some d ∧ at? [a, b, c, d, e] 5 = some e :=
    fun a b c d e => ⟨rfl, rfl, rfl, rfl, rfl⟩
  rw [ackOne, ackLua, Backlog.ackScript]
  simp only [hargs, key_leaseKeys, text_some, bytes_some, number_some, pure_bind]
  rw [run_bind_ok (hget_run ..)]
  by_cases hlease : b.leases lease.member ≠ some lease.leaseId
  · simp only [if_pos hlease]
    rfl
  · simp only [if_neg hlease]
    rw [endLease_run, run_bind_ok (get_run ..)]
    have hkey : entryPrefix ++ lease.member = entryKey lease.member := rfl
    rw [hkey]
    cases hentry : (b.endLease lease.member).entries (entryKey lease.member) with
    | none => rfl
    | some current =>
      by_cases hcurrent : current = lease.encoded
      · simp only [if_pos hcurrent]
        rfl
      · simp only [if_neg hcurrent]
        rfl

theorem releaseOne_run (lease : ClaimedEntry) (b : Backlog) :
    (releaseOne now lease).run b =
      .ok (if (b.releaseScript now lease).1 then 1 else 0) (b.releaseScript now lease).2 := by
  have hargs : ∀ a b c d : BacklogArg, at? [a, b, c, d] 1 = some a ∧
      at? [a, b, c, d] 2 = some b ∧ at? [a, b, c, d] 3 = some c ∧ at? [a, b, c, d] 4 = some d :=
    fun a b c d => ⟨rfl, rfl, rfl, rfl⟩
  rw [releaseOne, releaseLua, Backlog.releaseScript]
  simp only [hargs, key_leaseKeys, text_some, number_some, pure_bind]
  rw [run_bind_ok (hget_run ..)]
  by_cases hlease : b.leases lease.member ≠ some lease.leaseId
  · simp only [if_pos hlease]
    rfl
  · simp only [if_neg hlease]
    rw [endLease_run, run_bind_ok (get_run ..)]
    have hkey : entryPrefix ++ lease.member = entryKey lease.member := rfl
    rw [hkey]
    by_cases hentry : ((b.endLease lease.member).entries (entryKey lease.member)).isSome = true
    · simp only [if_pos hentry]
      rfl
    · simp only [if_neg hentry]
      rfl

/-! ### Batches -/

theorem ackRound_run (results : List ℕ) (lease : ClaimedEntry) (rest : List ClaimedEntry)
    (b : Backlog) :
    (ackRound leaseKeys (some (.text entryPrefix)) (some (.number now)) results
        fun offset => at? (batchArgs now ackArgs (lease :: rest)) (3 + offset)).run b =
      .ok (results ++ [ackCode (b.ackScript now lease).1]) (b.ackScript now lease).2 := by
  have hargs : at? (batchArgs now ackArgs (lease :: rest)) (3 + 0) = some (.text lease.leaseId) ∧
      at? (batchArgs now ackArgs (lease :: rest)) (3 + 1) = some (.text lease.member) ∧
      at? (batchArgs now ackArgs (lease :: rest)) (3 + 2) = some (.bytes lease.encoded) :=
    ⟨rfl, rfl, rfl⟩
  rw [ackRound, Backlog.ackScript]
  simp only [hargs, key_leaseKeys, text_some, bytes_some, number_some, pure_bind]
  rw [run_bind_ok (hget_run ..)]
  by_cases hlease : b.leases lease.member ≠ some lease.leaseId
  · simp only [if_pos hlease]
    rfl
  · simp only [if_neg hlease]
    rw [endLease_run, run_bind_ok (get_run ..)]
    have hkey : entryPrefix ++ lease.member = entryKey lease.member := rfl
    rw [hkey]
    cases hentry : (b.endLease lease.member).entries (entryKey lease.member) with
    | none => rfl
    | some current =>
      by_cases hcurrent : current = lease.encoded
      · simp only [if_pos hcurrent]
        rfl
      · simp only [if_neg hcurrent]
        rfl

theorem releaseRound_run (results : List ℕ) (lease : ClaimedEntry) (rest : List ClaimedEntry)
    (b : Backlog) :
    (releaseRound leaseKeys (some (.text entryPrefix)) (some (.number now)) results
        fun offset => at? (batchArgs now releaseArgs (lease :: rest)) (3 + offset)).run b =
      .ok (results ++ [if (b.releaseScript now lease).1 then 1 else 0])
        (b.releaseScript now lease).2 := by
  have hargs : at? (batchArgs now releaseArgs (lease :: rest)) (3 + 0) = some (.text lease.member) ∧
      at? (batchArgs now releaseArgs (lease :: rest)) (3 + 1) = some (.text lease.leaseId) :=
    ⟨rfl, rfl⟩
  rw [releaseRound, Backlog.releaseScript]
  simp only [hargs, key_leaseKeys, text_some, number_some, pure_bind]
  rw [run_bind_ok (hget_run ..)]
  by_cases hlease : b.leases lease.member ≠ some lease.leaseId
  · simp only [if_pos hlease]
    rfl
  · simp only [if_neg hlease]
    rw [endLease_run, run_bind_ok (get_run ..)]
    have hkey : entryPrefix ++ lease.member = entryKey lease.member := rfl
    rw [hkey]
    by_cases hentry : ((b.endLease lease.member).entries (entryKey lease.member)).isSome = true
    · simp only [if_pos hentry]
      rfl
    · simp only [if_neg hentry]
      rfl

/-- Past one lease the batch sees the others. -/
theorem at?_batchArgs {args : ClaimedEntry → List BacklogArg} {stride : ℕ}
    (hargs : ∀ lease, (args lease).length = stride) (lease : ClaimedEntry)
    (rest : List ClaimedEntry) (index : ℕ) (h : 3 ≤ index) :
    (fun offset => at? (batchArgs now args (lease :: rest)) (index + stride + offset)) =
      fun offset => at? (batchArgs now args rest) (index + offset) := by
  funext offset
  rw [batchArgs, batchArgs, List.flatMap_cons, ← hargs lease,
    show index + (args lease).length + offset = index + offset + (args lease).length by omega]
  exact at?_append_group (by show 2 < _; omega)

/-- A batch script over the leases: `round` is one of its rounds, `one` the single script. -/
theorem batch_eq {args : ClaimedEntry → List BacklogArg} {stride : ℕ} (hpos : 0 < stride)
    (hargs : ∀ lease, (args lease).length = stride)
    {round : List ℕ → (ℕ → Option BacklogArg) → BacklogScript (List ℕ)}
    {one : ClaimedEntry → BacklogScript ℕ}
    (hround : ∀ results lease rest,
      round results (fun offset => at? (batchArgs now args (lease :: rest)) (3 + offset)) =
        (fun result => results ++ [result]) <$> one lease) (leases : List ClaimedEntry) :
    (indices 3 (batchArgs now args leases).length stride).foldlM (fun results index =>
        round results fun offset => at? (batchArgs now args leases) (index + offset)) [] =
      leases.mapM one := by
  have hsize : ∀ leases, (batchArgs now args leases).length = 2 + (leases.flatMap args).length := by
    intro leases
    rw [batchArgs, List.length_append]
    rfl
  have hloop := foldlM_indices hpos round
    (fun leases index offset => at? (batchArgs now args leases) (index + offset))
    (fun lease offset => at? (batchArgs now args [lease]) (3 + offset))
    (fun leases => (batchArgs now args leases).length) (by show 2 < 3; omega)
    (by show 3 ≤ 2 + stride; omega)
    (fun lease rest => by
      show (batchArgs now args (lease :: rest)).length = (batchArgs now args rest).length + stride
      rw [hsize, hsize, List.flatMap_cons, List.length_append, hargs]
      omega)
    (fun results lease rest => by rw [hround, hround]) (at?_batchArgs hargs) leases []
  rw [hloop, foldlM_congr_mem (fun results lease _ => hround results lease []), foldlM_append]
  exact id_map _

theorem ackMultiLua_eq (leases : List ClaimedEntry) :
    ackMultiLua leaseKeys (batchArgs now ackArgs leases) = leases.mapM (ackOne now) := by
  refine batch_eq (show 0 < 3 by omega) (fun _ => rfl) (fun results lease rest => ?_) leases
  funext b
  refine (ackRound_run results lease rest b).trans ?_
  rw [← bind_pure_comp]
  show _ = (ackOne now lease >>= _).run b
  rw [run_bind_ok (ackOne_run lease b)]
  rfl

theorem releaseMultiLua_eq (leases : List ClaimedEntry) :
    releaseMultiLua leaseKeys (batchArgs now releaseArgs leases) =
      leases.mapM (releaseOne now) := by
  refine batch_eq (show 0 < 2 by omega) (fun _ => rfl) (fun results lease rest => ?_) leases
  funext b
  refine (releaseRound_run results lease rest b).trans ?_
  rw [← bind_pure_comp]
  show _ = (releaseOne now lease >>= _).run b
  rw [run_bind_ok (releaseOne_run lease b)]
  rfl

/-- Calls that succeed, one after the other; `single` and `multi` are what they do. -/
theorem mapM_run {ρ τ : Type} {call : ClaimedEntry → BacklogScript τ} (code : ρ → τ)
    (single : ClaimedEntry → Backlog → ρ × Backlog)
    (multi : List ClaimedEntry → Backlog → List ρ × Backlog)
    (hcall : ∀ lease b, (call lease).run b = .ok (code (single lease b).1) (single lease b).2)
    (hnil : ∀ b, multi [] b = ([], b))
    (hcons : ∀ lease rest b, multi (lease :: rest) b =
      ((single lease b).1 :: (multi rest (single lease b).2).1, (multi rest (single lease b).2).2))
    (leases : List ClaimedEntry) (b : Backlog) :
    (leases.mapM call).run b = .ok ((multi leases b).1.map code) (multi leases b).2 := by
  induction leases generalizing b with
  | nil =>
    rw [hnil]
    rfl
  | cons lease rest ih =>
    rw [List.mapM_cons, run_bind_ok (hcall lease b), run_bind_ok (ih _), hcons]
    rfl

theorem length_ackMultiScript (leases : List ClaimedEntry) (b : Backlog) :
    (b.ackMultiScript now leases).1.length = leases.length := by
  induction leases generalizing b with
  | nil => rfl
  | cons lease rest ih => exact congrArg (· + 1) (ih _)

theorem length_releaseMultiScript (leases : List ClaimedEntry) (b : Backlog) :
    (b.releaseMultiScript now leases).1.length = leases.length := by
  induction leases generalizing b with
  | nil => rfl
  | cons lease rest ih => exact congrArg (· + 1) (ih _)

theorem mapM_ackStatus (message : String) (results : List SnapshotBacklogAck) :
    (results.map ackCode).mapM (ackStatus message) = pure results := by
  induction results with
  | nil => rfl
  | cons result rest ih =>
    rw [List.map_cons, List.mapM_cons, ackStatus_ackCode, pure_bind, ih, pure_bind]

theorem ack_run (lease : ClaimedEntry) (b : Backlog) :
    (ack now lease).run b = .ok (b.ackScript now lease).1 (b.ackScript now lease).2 := by
  rw [ack, run_bind_ok (ackOne_run lease b), ackStatus_ackCode]
  rfl

theorem release_run (lease : ClaimedEntry) (b : Backlog) :
    (release now lease).run b =
      .ok (b.releaseScript now lease).1 (b.releaseScript now lease).2 := by
  rw [release, run_bind_ok (releaseOne_run lease b)]
  cases (b.releaseScript now lease).1 with
  | true => rfl
  | false => rfl

theorem ackMulti_run (leases : List ClaimedEntry) (b : Backlog) :
    (ackMulti now leases).run b =
      .ok (b.ackMultiScript now leases).1 (b.ackMultiScript now leases).2 := by
  rw [ackMulti]
  by_cases hempty : leases.isEmpty = true
  · rw [if_pos hempty, List.isEmpty_iff.mp hempty]
    rfl
  · have hone := mapM_run ackCode (Backlog.ackScript now) (Backlog.ackMultiScript now)
      ackOne_run (fun _ => rfl) (fun _ _ _ => rfl) leases b
    rw [if_neg hempty, ackMultiLua_eq, run_bind_ok hone, List.length_map, length_ackMultiScript,
      if_neg (fun h => h rfl), mapM_ackStatus]
    rfl

theorem releaseMulti_run (leases : List ClaimedEntry) (b : Backlog) :
    (releaseMulti now leases).run b =
      .ok (b.releaseMultiScript now leases).1 (b.releaseMultiScript now leases).2 := by
  rw [releaseMulti]
  by_cases hempty : leases.isEmpty = true
  · rw [if_pos hempty, List.isEmpty_iff.mp hempty]
    rfl
  · have hone := mapM_run (fun result => if result = true then 1 else 0)
      (Backlog.releaseScript now) (Backlog.releaseMultiScript now) releaseOne_run (fun _ => rfl)
      (fun _ _ _ => rfl) leases b
    have hcode : ∀ results : List Bool, ((results.map fun result =>
        if result = true then 1 else 0).map fun value => decide (value = 1)) = results := by
      intro results
      induction results with
      | nil => rfl
      | cons result rest ih =>
        rw [List.map_cons, List.map_cons, ih]
        cases result with
        | true => rfl
        | false => rfl
    rw [if_neg hempty, releaseMultiLua_eq, run_bind_ok hone, List.length_map,
      length_releaseMultiScript, if_neg (fun h => h rfl)]
    exact congrArg (EStateM.Result.ok · _) (hcode _)

theorem ackMulti_eq_mapM (leases : List ClaimedEntry) (b : Backlog) :
    (ackMulti now leases).run b = (leases.mapM (ack now)).run b := by
  rw [ackMulti_run, mapM_run id (Backlog.ackScript now) (Backlog.ackMultiScript now) ack_run
    (fun _ => rfl) (fun _ _ _ => rfl), List.map_id]

theorem releaseMulti_eq_mapM (leases : List ClaimedEntry) (b : Backlog) :
    (releaseMulti now leases).run b = (leases.mapM (release now)).run b := by
  rw [releaseMulti_run, mapM_run id (Backlog.releaseScript now) (Backlog.releaseMultiScript now)
    release_run (fun _ => rfl) (fun _ _ _ => rfl), List.map_id]

end RedisSnapshotBacklog

/-! ### Claims at one instant -/

namespace Backlog

/-- Calls of `claim` at one instant, with what they claim. -/
def claims (clock : RedisClock) (leaseMs : ℕ) : ℕ → Backlog → List ClaimedEntry × Backlog
  | 0, b => ([], b)
  | n + 1, b =>
    let (claimed, b) := claimScript clock leaseMs b
    let (rest, b) := claims clock leaseMs n b
    (claimed.toList ++ rest, b)

/-- The pending members in the order of the queue. -/
def queue (b : Backlog) : List String := b.pending.items.map (·.2)

/-- A pending member that a claim does not skip. -/
def canClaim (b : Backlog) (member : String) : Bool :=
  (b.entries (entryKey member)).isSome && !(b.processing.zscore member).isSome

/-- Fewer than `scans` members are skipped before each of the first `n` that can be claimed. -/
def FewSkipped (b : Backlog) (n scans : ℕ) (members : List String) : Prop :=
  ∀ before member after, members = before ++ member :: after → b.canClaim member = true →
    before.countP b.canClaim < n → before.countP (fun m => !b.canClaim m) < scans

/-- What is claimed from a queue, with the lease ids that follow `sequence`. -/
def claimedFrom (b : Backlog) : ℕ → ℕ → List String → List ClaimedEntry
  | _, _, [] => []
  | sequence, n, member :: rest =>
    if n = 0 then []
    else if b.canClaim member then
      ⟨member, tostring (toDouble (sequence + 1)), (b.entries (entryKey member)).getD []⟩ ::
        claimedFrom b (sequence + 1) (n - 1) rest
    else claimedFrom b sequence n rest

/-- `b` after some claims on `b₀`: the members are those that are left. -/
structure ClaimsFrom (b₀ : Backlog) (now sequence : ℕ) (members : List String) (b : Backlog) :
    Prop where
  entries : b.entries = b₀.entries
  queue : b.queue = members
  sequence : b.leaseSequence = sequence
  unleased : ∀ member ∈ members, (member ∈ b.processing ↔ member ∈ b₀.processing)
  unexpired : ∀ item ∈ b.processing.items, now < item.1

section Steps

variable {b₀ b : Backlog} {now deadline sequence : ℕ} {member : String} {members : List String}

/-- The popped member and what is left. -/
theorem exists_zpopmin (h : ClaimsFrom b₀ now sequence (member :: members) b) :
    ∃ pending, b.pending.zpopmin = some (member, pending) ∧ pending.items.map (·.2) = members ∧
      member ∉ members := by
  have hqueue : b.pending.items.map (·.2) = member :: members := h.queue
  cases hpop : b.pending.zpopmin with
  | none =>
    have hmem : member ∈ b.pending := by
      rw [SortedSet.mem_def, hqueue]
      exact List.mem_cons_self
    exact absurd hmem (SortedSet.zpopmin_eq_none hpop member)
  | some popped =>
    obtain ⟨first, pending⟩ := popped
    have hitems := SortedSet.zpopmin_items hpop
    rw [hqueue, List.cons.injEq] at hitems
    obtain ⟨rfl, rfl⟩ := hitems
    have hnodup := b.pending.nodup
    rw [hqueue, List.nodup_cons] at hnodup
    exact ⟨pending, rfl, rfl, hnodup.1⟩

/-- A claim does not change what it skips later. -/
theorem canClaim_eq (h : ClaimsFrom b₀ now sequence (member :: members) b) :
    b.canClaim member = b₀.canClaim member := by
  have hiff := h.unleased member List.mem_cons_self
  rw [← SortedSet.zscore_isSome, ← SortedSet.zscore_isSome] at hiff
  rw [canClaim, canClaim, h.entries, Bool.eq_iff_iff.mpr hiff]

theorem claimNext_skips (h : ClaimsFrom b₀ now sequence (member :: members) b)
    (hskip : b₀.canClaim member = false) :
    ∃ b', claimNext deadline b = some (none, b') ∧ ClaimsFrom b₀ now sequence members b' := by
  obtain ⟨pending, hpop, hrest, -⟩ := exists_zpopmin h
  refine ⟨{ b with pending }, ?_, h.entries, hrest, h.sequence,
    fun m hm => h.unleased m (List.mem_cons_of_mem _ hm), h.unexpired⟩
  have hb := (canClaim_eq h).trans hskip
  rw [canClaim] at hb
  rw [claimNext, hpop]
  cases hentry : b.entries (entryKey member) with
  | none => simp only [hentry]
  | some payload =>
    have hscore : (b.processing.zscore member).isSome = true := by simpa [hentry] using hb
    simp only [hentry, if_pos hscore]

theorem claimNext_claims (h : ClaimsFrom b₀ now sequence (member :: members) b)
    (hdeadline : now < deadline) (hclaim : b₀.canClaim member = true) :
    ∃ b', claimNext deadline b =
        some (some ⟨member, tostring (toDouble (sequence + 1)),
          (b₀.entries (entryKey member)).getD []⟩, b') ∧
      ClaimsFrom b₀ now (sequence + 1) members b' := by
  obtain ⟨pending, hpop, hrest, hnot⟩ := exists_zpopmin h
  have hb := (canClaim_eq h).trans hclaim
  rw [canClaim, Bool.and_eq_true, Bool.not_eq_true'] at hb
  obtain ⟨payload, hpayload⟩ := Option.isSome_iff_exists.mp hb.1
  have hscore : ¬ (b.processing.zscore member).isSome = true := by simp [hb.2]
  obtain rfl := h.sequence
  refine ⟨{ b with
    pending
    leaseSequence := b.leaseSequence + 1
    processing := b.processing.zadd deadline member
    leases := Function.update b.leases member
      (some (tostring (toDouble (b.leaseSequence + 1)))) }, ?_, h.entries, hrest, rfl, ?_, ?_⟩
  · rw [claimNext, hpop, ← h.entries, hpayload]
    simp only [hpayload, if_neg hscore, Option.getD_some]
  · -- the members that are left are not the one that is leased now
    intro m hm
    rw [SortedSet.mem_zadd, h.unleased m (List.mem_cons_of_mem _ hm)]
    constructor
    · rintro (rfl | hleased)
      · exact absurd hm hnot
      · exact hleased
    · exact Or.inr
  · intro item hitem
    rcases SortedSet.mem_items_of_mem_zadd hitem with rfl | hold
    · exact hdeadline
    · exact h.unexpired item hold

theorem countP_canClaim_of_skipped (h : ∀ m ∈ members, b₀.canClaim m = false) :
    members.countP b₀.canClaim = 0 := by
  rw [List.countP_eq_zero]
  intro m hm
  simp [h m hm]

theorem claimedFrom_zero : b₀.claimedFrom sequence 0 members = [] := by
  cases members with
  | nil => rfl
  | cons m rest => rfl

theorem claimedFrom_of_skipped {n : ℕ} (h : ∀ m ∈ members, b₀.canClaim m = false) :
    b₀.claimedFrom sequence n members = [] := by
  induction members with
  | nil => rfl
  | cons member rest ih =>
    rw [claimedFrom]
    split
    · rfl
    · rw [h member List.mem_cons_self]
      exact ih fun m hm => h m (List.mem_cons_of_mem _ hm)

theorem claimedFrom_append {n : ℕ} {before after : List String}
    (hbefore : ∀ m ∈ before, b₀.canClaim m = false) (hclaim : b₀.canClaim member = true) :
    b₀.claimedFrom sequence (n + 1) (before ++ member :: after) =
      ⟨member, tostring (toDouble (sequence + 1)), (b₀.entries (entryKey member)).getD []⟩ ::
        b₀.claimedFrom (sequence + 1) n after := by
  induction before with
  | nil =>
    rw [List.nil_append, claimedFrom, if_neg (by omega), if_pos hclaim]
    rfl
  | cons m rest ih =>
    rw [List.cons_append, claimedFrom, if_neg (by omega), hbefore m List.mem_cons_self]
    exact ih fun m' hm' => hbefore m' (List.mem_cons_of_mem _ hm')

/-- A queue has a first member that can be claimed, or none. -/
theorem skipped_or_first (b₀ : Backlog) (members : List String) :
    (∀ m ∈ members, b₀.canClaim m = false) ∨ ∃ before member after,
      members = before ++ member :: after ∧ (∀ m ∈ before, b₀.canClaim m = false) ∧
      b₀.canClaim member = true := by
  cases hfind : members.find? b₀.canClaim with
  | none =>
    left
    intro m hm
    simpa using List.find?_eq_none.mp hfind m hm
  | some member =>
    right
    obtain ⟨hclaim, before, after, rfl, hbefore⟩ := List.find?_eq_some_iff_append.mp hfind
    exact ⟨before, member, after, rfl, fun m hm => by simpa using hbefore m hm, hclaim⟩

/-! One call of `claim`. -/

theorem claimLoop_finds {before after : List String} {rounds : ℕ} (hdeadline : now < deadline)
    (h : ClaimsFrom b₀ now sequence (before ++ member :: after) b)
    (hbefore : ∀ m ∈ before, b₀.canClaim m = false) (hclaim : b₀.canClaim member = true)
    (hrounds : before.length < rounds) :
    ∃ b', claimLoop deadline rounds b =
        (some ⟨member, tostring (toDouble (sequence + 1)),
          (b₀.entries (entryKey member)).getD []⟩, b') ∧
      ClaimsFrom b₀ now (sequence + 1) after b' := by
  induction before generalizing rounds b with
  | nil =>
    obtain ⟨rounds, rfl⟩ : ∃ r, rounds = r + 1 := ⟨rounds - 1, by simp at hrounds; omega⟩
    obtain ⟨b', hnext, hfrom⟩ := claimNext_claims h hdeadline hclaim
    exact ⟨b', by rw [claimLoop, hnext], hfrom⟩
  | cons m rest ih =>
    obtain ⟨rounds, rfl⟩ : ∃ r, rounds = r + 1 := ⟨rounds - 1, by simp at hrounds; omega⟩
    obtain ⟨b₁, hnext, hfrom⟩ := claimNext_skips h (hbefore m List.mem_cons_self)
    rw [claimLoop, hnext]
    exact ih hfrom (fun m' hm' => hbefore m' (List.mem_cons_of_mem _ hm')) (by simpa using hrounds)

theorem claimLoop_skips (deadline rounds : ℕ) (h : ClaimsFrom b₀ now sequence members b)
    (hskipped : ∀ m ∈ members, b₀.canClaim m = false) :
    ∃ members' b', claimLoop deadline rounds b = (none, b') ∧
      ClaimsFrom b₀ now sequence members' b' ∧ ∀ m ∈ members', b₀.canClaim m = false := by
  induction rounds generalizing members b with
  | zero => exact ⟨members, b, rfl, h, hskipped⟩
  | succ rounds ih =>
    cases members with
    | nil =>
      refine ⟨[], b, ?_, h, hskipped⟩
      rw [claimLoop, claimNext_of_empty (List.map_eq_nil_iff.mp h.queue)]
    | cons m rest =>
      obtain ⟨b₁, hnext, hfrom⟩ := claimNext_skips h (hskipped m List.mem_cons_self)
      rw [claimLoop, hnext]
      exact ih hfrom fun m' hm' => hskipped m' (List.mem_cons_of_mem _ hm')

theorem reclaimExpired_of_unexpired (h : ∀ item ∈ b.processing.items, now < item.1) :
    reclaimExpired now b = b := by
  have hnone : b.processing.zrangeByScore now reclaimLimit = [] := by
    rw [SortedSet.zrangeByScore, List.filter_eq_nil_iff.mpr, List.take_nil, List.map_nil]
    intro item hitem
    have := h item hitem
    simpa using this
  rw [reclaimExpired, hnone]
  rfl

/-! A whole run of claims, and the batch. -/

theorem fewSkipped_tail {n scans : ℕ} {before after : List String} {m : String}
    (h : FewSkipped b₀ (n + 1) scans (before ++ m :: after))
    (hbefore : ∀ m ∈ before, b₀.canClaim m = false) (hclaim : b₀.canClaim m = true) :
    FewSkipped b₀ n scans after := by
  rintro between member after' rfl hmember hcount
  have hzero := countP_canClaim_of_skipped hbefore
  have hall := h (before ++ m :: between) member after' (by simp) hmember (by
    rw [List.countP_append, List.countP_cons, if_pos hclaim, hzero]
    omega)
  rw [List.countP_append, List.countP_cons] at hall
  omega

theorem claims_eq {clock : RedisClock} {leaseMs n : ℕ}
    (hlease : clock.unixMillis < add clock.unixMillis (toDouble leaseMs))
    (h : ClaimsFrom b₀ clock.unixMillis sequence members b)
    (hfew : FewSkipped b₀ n reclaimLimit members) :
    (claims clock leaseMs n b).1 = b₀.claimedFrom sequence n members := by
  induction n generalizing b members sequence with
  | zero => exact claimedFrom_zero.symm
  | succ n ih =>
    rw [claims, claimScript, reclaimExpired_of_unexpired h.unexpired]
    rcases skipped_or_first b₀ members with hskipped | ⟨before, m, after, rfl, hbefore, hclaim⟩
    · obtain ⟨members', b', hloop, hfrom, hskipped'⟩ := claimLoop_skips
        (add clock.unixMillis (toDouble leaseMs)) reclaimLimit h hskipped
      have hnone : FewSkipped b₀ n reclaimLimit members' := by
        rintro between member after rfl hmember -
        exact absurd hmember (by simp [hskipped' member (by simp)])
      rw [hloop, claimedFrom_of_skipped hskipped]
      show (claims clock leaseMs n b').1 = []
      rw [ih hfrom hnone, claimedFrom_of_skipped hskipped']
    · have hzero := countP_canClaim_of_skipped hbefore
      have hlength : before.length < reclaimLimit := by
        have hskips := hfew before m after rfl hclaim (by omega)
        rw [List.countP_eq_length.mpr fun m hm => by simp [hbefore m hm]] at hskips
        exact hskips
      obtain ⟨b', hloop, hfrom⟩ := claimLoop_finds hlease h hbefore hclaim hlength
      rw [hloop, claimedFrom_append hbefore hclaim,
        ← ih hfrom (fewSkipped_tail hfew hbefore hclaim)]
      rfl

theorem claimMultiLoop_eq {limit rounds : ℕ} {claimed : List ClaimedEntry}
    (hdeadline : now < deadline) (h : ClaimsFrom b₀ now sequence members b)
    (hrounds : ∀ before member after, members = before ++ member :: after →
      b₀.canClaim member = true → before.countP b₀.canClaim < limit - claimed.length →
      before.length < rounds) :
    (claimMultiLoop deadline limit rounds claimed b).1 =
      claimed ++ b₀.claimedFrom sequence (limit - claimed.length) members := by
  induction rounds generalizing b members sequence claimed with
  | zero =>
    -- no round is left, so nothing more can be claimed
    rw [claimMultiLoop]
    by_cases hfull : limit - claimed.length = 0
    · rw [hfull, claimedFrom_zero, List.append_nil]
    · rw [claimedFrom_of_skipped, List.append_nil]
      rcases skipped_or_first b₀ members with hskipped | ⟨before, m, after, rfl, hbefore, hclaim⟩
      · exact hskipped
      · have hzero := countP_canClaim_of_skipped hbefore
        exact absurd (hrounds before m after rfl hclaim (by omega)) (by omega)
  | succ rounds ih =>
    rw [claimMultiLoop]
    by_cases hfull : limit ≤ claimed.length
    · rw [if_pos hfull, Nat.sub_eq_zero_of_le hfull, claimedFrom_zero, List.append_nil]
    · rw [if_neg hfull]
      cases members with
      | nil =>
        rw [claimNext_of_empty (List.map_eq_nil_iff.mp h.queue)]
        exact (List.append_nil _).symm
      | cons m rest =>
        rw [claimedFrom, if_neg (by omega)]
        by_cases hclaim : b₀.canClaim m = true
        · obtain ⟨b', hnext, hfrom⟩ := claimNext_claims h hdeadline hclaim
          rw [hnext, if_pos hclaim]
          dsimp only
          rw [ih hfrom, List.append_assoc, List.length_append]
          · rfl
          · rintro before member after rfl hmember hcount
            rw [List.length_append, List.length_singleton] at hcount
            have := hrounds (m :: before) member after rfl hmember (by
              rw [List.countP_cons, if_pos hclaim]
              omega)
            simpa using this
        · rw [Bool.not_eq_true] at hclaim
          obtain ⟨b', hnext, hfrom⟩ := claimNext_skips h hclaim
          rw [hnext, hclaim, if_neg Bool.false_ne_true]
          refine ih hfrom ?_
          rintro before member after rfl hmember hcount
          have := hrounds (m :: before) member after rfl hmember (by
            rw [List.countP_cons, hclaim]
            simpa using hcount)
          simpa using this

/-- As long as the clock is an exact double, a positive lease ends after it. -/
theorem lt_add_toDouble {leaseMs : ℕ} (hnow : now < 2 ^ 53) (hlease : 0 < leaseMs) :
    now < add now (toDouble leaseMs) := by
  have hone : 0 < toDouble leaseMs := by
    by_cases hle : leaseMs ≤ 2 ^ 53
    · rw [toDouble_of_le hle]
      exact hlease
    · have := le_toDouble (Nat.le_of_not_le hle)
      omega
  rw [add]
  by_cases hle : now + toDouble leaseMs ≤ 2 ^ 53
  · rw [toDouble_of_le hle]
    omega
  · have := le_toDouble (Nat.le_of_not_le hle)
    omega

theorem claimMulti_eq_claims {clock : RedisClock} {leaseMs n : ℕ} (hlease : 0 < leaseMs)
    (hclock : clock.unixMillis < 2 ^ 53)
    (hexpired : ∀ item ∈ b.processing.items, clock.unixMillis < item.1)
    (hfew : FewSkipped b n reclaimLimit b.queue) :
    (claimMultiScript clock leaseMs n b).1 = (claims clock leaseMs n b).1 := by
  have hdeadline := lt_add_toDouble hclock hlease
  have hfrom : ClaimsFrom b clock.unixMillis b.leaseSequence b.queue b :=
    ⟨rfl, rfl, rfl, fun _ _ => Iff.rfl, hexpired⟩
  rw [claims_eq hdeadline hfrom hfew, claimMultiScript, reclaimExpired_of_unexpired hexpired]
  refine claimMultiLoop_eq hdeadline hfrom ?_
  intro before member after hmembers hclaim hcount
  have hskips := hfew before member after hmembers hclaim hcount
  have hlength := List.length_eq_countP_add_countP b.canClaim (l := before)
  rw [List.length_nil] at hcount
  have hnot : (fun m => decide ¬ b.canClaim m = true) = fun m => !b.canClaim m := by
    funext m
    simp
  rw [hnot] at hlength
  omega

theorem fewSkipped_of_length {n scans : ℕ} (h : members.length ≤ scans) :
    FewSkipped b n scans members := by
  rintro before member after rfl - -
  have := before.countP_le_length (p := fun m => !b.canClaim m)
  rw [List.length_append, List.length_cons] at h
  omega

end Steps

end Backlog

/-- **Batches of the backlog.**  `ack_multi` and `release_multi` return and leave what the single
calls at the same time do, one after the other; the leases may be of one member and may be stale.
At an instant at which no lease has expired `claim_multi` claims what as many single claims do,
with the same lease ids, as long as no claim stops at its scan limit.  The Redis clock is an exact
double until the year 287396. -/
theorem backlog_batches (b : Backlog) :
    (∀ now leases, (ackMulti now leases).run b = (leases.mapM (ack now)).run b) ∧
    (∀ now leases, (releaseMulti now leases).run b = (leases.mapM (release now)).run b) ∧
    ∀ (clock : RedisClock) (leaseMs n : ℕ), 0 < leaseMs → clock.unixMillis < 2 ^ 53 →
      (∀ item ∈ b.processing.items, clock.unixMillis < item.1) →
      b.FewSkipped n reclaimLimit b.queue →
      (b.claimMultiScript clock leaseMs n).1 = (b.claims clock leaseMs n).1 := by
  refine ⟨fun now leases => ackMulti_eq_mapM leases b,
    fun now leases => releaseMulti_eq_mapM leases b, ?_⟩
  intro clock leaseMs n hlease hclock hexpired hfew
  exact Backlog.claimMulti_eq_claims hlease hclock hexpired hfew

/-- Two members with entries, and one between them without. -/
def gappedBacklog : Backlog where
  entries key := if key = entryKey "a" ∨ key = entryKey "c" then some [1] else none
  pending := ((SortedSet.zadd ∅ 3 "c").zadd 2 "b").zadd 1 "a"

theorem backlog_batches_gapped :
    let stale : ClaimedEntry := ⟨"a", "9", [1]⟩
    (ackMulti 7 [stale, stale]).run gappedBacklog =
      ([stale, stale].mapM (ack 7)).run gappedBacklog ∧
    (gappedBacklog.claimMultiScript (wholeSecond 5) 30000 2).1 =
      (gappedBacklog.claims (wholeSecond 5) 30000 2).1 := by
  refine ⟨(backlog_batches gappedBacklog).1 7 _, ?_⟩
  refine (backlog_batches gappedBacklog).2.2 (wholeSecond 5) 30000 2 (by decide) (by decide) ?_ ?_
  · exact fun item hitem => absurd hitem List.not_mem_nil
  · exact Backlog.fewSkipped_of_length (by decide)

end DbProxy
