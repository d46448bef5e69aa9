/-
What becomes of the events of a batch (`publish_batch`, `finish_outbox_publication`).

The retry decision is made twice: the worker compares the attempts of its lease with the
limit to report an outcome, and the statement of `fail` compares the attempts of the row.
Both agree because the attempts of a row do not change while a lease on it is alive.

* `ResultOk` — what the result of one message of a batch says;
* `publicationOutcome` — `finish_outbox_publication` with its statement and its outcome;
* `LeaseAttempts` — the invariant: a live lease knows the attempts of its row;
* `batchPublication_isolates` — a bad event fails alone, and outcomes are what was stored.
-/
import DbProxy.OutboxFencing
import DbProxy.OutboxPublisher

namespace DbProxy

open PostgresOutboxQueue StepMachine

/-! ### Results of a batch -/

section Batch

variable {decode : Bytes → Option EventEnvelope} {messages : List PublishMessage}
  {reply : BrokerReply} {i : ℕ} {message : PublishMessage}

/-- Every command was answered, and the append-only file was confirmed. -/
def Confirmed (decode : Bytes → Option EventEnvelope) (messages : List PublishMessage)
    (reply : BrokerReply) : Prop :=
  ∃ ids, reply.ids = .ok ids ∧ ids.length = (pipeline decode messages).length ∧
    reply.aof = .ok ()

/-- What the result of the message at a position says. -/
structure ResultOk (decode : Bytes → Option EventEnvelope) (messages : List PublishMessage)
    (reply : BrokerReply) (i : ℕ) (message : PublishMessage)
    (result : Except PublishError PublishReceipt) : Prop where
  permanent : messages.length ≤ 64 →
    ((∃ reason, result = .error (.permanent reason)) ↔ isValid decode message = false)
  success : (∃ receipt, result = .ok receipt) ↔
    messages.length ≤ 64 ∧ isValid decode message = true ∧ Confirmed decode messages reply
  /-- the command at the rank of the message is its own, and so is the id -/
  ownId : ∀ receipt, result = .ok receipt →
    (pipeline decode messages)[commandRank decode messages i]? = some message.command ∧
      ∃ ids, reply.ids = .ok ids ∧
        ids[commandRank decode messages i]? = some receipt.messageId
  /-- a failure that is no fault of the message -/
  transient : (64 < messages.length ∨ isValid decode message = true) →
    ¬ (∃ receipt, result = .ok receipt) → ∃ reason, result = .error (.transient reason)

/-- The shared write and its confirmation, as the publisher sees them. -/
theorem confirmed_iff (hlen : messages.length ≤ 64) : Confirmed decode messages reply ↔
    ∃ ids, publishManyTo decode (validMessages decode messages) reply = .ok ids := by
  have hcount : (pipeline decode messages).length = (validMessages decode messages).length := by
    rw [pipeline_eq hlen, List.length_map]
  constructor
  · rintro ⟨ids, hids, hlength, haof⟩
    exact ⟨ids, (publishManyTo_eq_ok mem_validMessages).mpr ⟨hids, hlength.trans hcount, haof⟩⟩
  · rintro ⟨ids, hids⟩
    obtain ⟨hids, hlength, haof⟩ := (publishManyTo_eq_ok mem_validMessages).mp hids
    exact ⟨ids, hids, hlength.trans hcount.symm, haof⟩

/-- A failure that is no fault of the message. -/
theorem resultOk_transient (h : 64 < messages.length ∨ isValid decode message = true)
    (hfailed : ¬ (messages.length ≤ 64 ∧ isValid decode message = true ∧
      Confirmed decode messages reply)) (reason : String) :
    ResultOk decode messages reply i message (.error (.transient reason)) := by
  refine ⟨fun hlen => ?_, ?_, ?_, fun _ _ => ⟨reason, rfl⟩⟩
  · constructor
    · rintro ⟨reason', hpermanent⟩
      cases hpermanent
    · intro hinvalid
      rcases h with hlong | hvalid
      · omega
      · rw [hvalid] at hinvalid
        cases hinvalid
  · constructor
    · rintro ⟨receipt, hok⟩
      cases hok
    · intro hconfirmed
      exact absurd hconfirmed hfailed
  · intro receipt hok
    cases hok

theorem resultOk_permanent (hvalid : isValid decode message = false)
    (hlen : messages.length ≤ 64) (reason : String) :
    ResultOk decode messages reply i message (.error (.permanent reason)) := by
  refine ⟨fun _ => ⟨fun _ => hvalid, fun _ => ⟨reason, rfl⟩⟩, ?_, ?_, ?_⟩
  · constructor
    · rintro ⟨receipt, hok⟩
      cases hok
    · rintro ⟨-, hok, -⟩
      rw [hvalid] at hok
      cases hok
  · intro receipt hok
    cases hok
  · rintro (hlong | hok)
    · omega
    · rw [hvalid] at hok
      cases hok

theorem resultOk_sent {ids : List String} {messageId : String} (hlen : messages.length ≤ 64)
    (h : messages[i]? = some message) (hvalid : isValid decode message = true)
    (hids : publishManyTo decode (validMessages decode messages) reply = .ok ids)
    (hid : ids[commandRank decode messages i]? = some messageId) :
    ResultOk decode messages reply i message (.ok ⟨messageId⟩) := by
  refine ⟨fun _ => ?_, ?_, ?_, fun _ hfailed => absurd ⟨_, rfl⟩ hfailed⟩
  · rw [hvalid]
    constructor
    · rintro ⟨reason, hpermanent⟩
      cases hpermanent
    · intro hinvalid
      cases hinvalid
  · constructor
    · intro _
      exact ⟨hlen, hvalid, (confirmed_iff hlen).mpr ⟨ids, hids⟩⟩
    · intro _
      exact ⟨_, rfl⟩
  · intro receipt hreceipt
    obtain rfl := Except.ok.inj hreceipt
    obtain ⟨hreply, -, -⟩ := (publishManyTo_eq_ok mem_validMessages).mp hids
    exact ⟨pipeline_commandRank hlen h hvalid, ids, hreply, hid⟩

/-- Whatever comes back for the shared write, every message has its own result. -/
theorem publishBatch_resultOk (reply : BrokerReply) (h : messages[i]? = some message) :
    ∃ result, (publishBatch decode messages reply)[i]? = some result ∧
      ResultOk decode messages reply i message result := by
  by_cases hlen : messages.length ≤ 64
  · cases hvalid : isValid decode message with
    | false => exact ⟨_, publishBatch_invalid hlen h hvalid, resultOk_permanent hvalid hlen _⟩
    | true =>
      cases hids : publishManyTo decode (validMessages decode messages) reply with
      | error e =>
        refine ⟨_, publishBatch_unsent hlen h hvalid hids,
          resultOk_transient (Or.inr hvalid) ?_ _⟩
        rintro ⟨-, -, hconfirmed⟩
        obtain ⟨ids, hok⟩ := (confirmed_iff hlen).mp hconfirmed
        rw [hids] at hok
        cases hok
      | ok ids =>
        obtain ⟨messageId, hid, hresult⟩ := publishBatch_sent hlen h hvalid hids
        exact ⟨_, hresult, resultOk_sent hlen h hvalid hids hid⟩
  · rw [not_le] at hlen
    refine ⟨_, publishBatch_long hlen h, resultOk_transient (Or.inl hlen) ?_ _⟩
    rintro ⟨hle, -, -⟩
    omega

end Batch

/-! ### The outcome of a lease -/

inductive DurableQueueProcessOutcome
  | empty
  | committed
  | retryScheduled
  | deadLettered
  | leaseLost
deriving DecidableEq, Repr

/-- The attempts after which a failure is final. -/
def PublishError.maxAttempts (policy : RetryWorkerPolicy) : PublishError → ℕ
  | .permanent _ => 1
  | .transient _ => policy.maxAttempts

/-- `finish_outbox_publication`: the outcome and the rows after its statement. -/
def publicationOutcome (entropy : String → ℕ) (policy : RetryWorkerPolicy) (lease : OutboxLease)
    (checked clock : ℕ) (table : OutboxTable) : Except PublishError PublishReceipt →
    Except StorageError (DurableQueueProcessOutcome × OutboxTable)
  | .ok _ =>
    let (updated, table) := acknowledge lease checked clock table
    .ok (if updated then .committed else .leaseLost, table)
  | .error error => do
    let maxAttempts := error.maxAttempts policy
    -- a saturating addition
    let deadLettered := maxAttempts ≤ min (lease.attemptCount + 1) (2 ^ 64 - 1)
    let retryDelay := policy.outboxRetryDelayMs entropy lease.event.eventId lease.attemptCount
    let (updated, table) ← fail lease error.text retryDelay maxAttempts checked clock table
    return (if !updated then .leaseLost
      else if deadLettered then .deadLettered else .retryScheduled, table)

/-- The outcome that a settled row shows. -/
def OutboxRow.outcome (row : OutboxRow) : DurableQueueProcessOutcome :=
  if row.publishedAt.isSome then .committed
  else if row.deadLetteredAt.isSome then .deadLettered
  else .retryScheduled

/-- A live lease knows the attempts of its row; tokens only grow. -/
def LeaseAttempts (s : OutboxSystem) : Prop :=
  ∀ lease ∈ s.leases, ∀ row ∈ s.table.rows, row.eventId = lease.event.eventId →
    lease.leaseToken ≤ row.leaseToken ∧ (lease.leaseToken = row.leaseToken →
      row.leaseUntil.isSome → row.attemptCount = lease.attemptCount)

section Outcomes

variable {decode : Bytes → Option EventEnvelope} {hash : String → ℤ} {entropy : String → ℕ}
  {s t : OutboxSystem} {action : OutboxAction}

/-- The lease of a row that moves is the same only if it was there, with these attempts. -/
theorem RowMove.attempts {target : RowTarget} {rows : List OutboxRow} {row row' : OutboxRow}
    (h : RowMove target rows row row') : row.leaseToken ≤ row'.leaseToken ∧
      (row.leaseToken = row'.leaseToken → row'.leaseUntil.isSome →
        row.leaseUntil.isSome ∧ row'.attemptCount = row.attemptCount) := by
  cases h with
  | keep => exact ⟨Nat.le_refl _, fun _ hlease => ⟨hlease, rfl⟩⟩
  | grant =>
    refine ⟨Nat.le_succ _, fun htoken => ?_⟩
    have htoken' : row.leaseToken = row.leaseToken + 1 := htoken
    omega
  | publish =>
    refine ⟨Nat.le_refl _, fun _ hlease => ?_⟩
    cases hlease
  | fail =>
    refine ⟨Nat.le_refl _, fun _ hlease => ?_⟩
    cases hlease
  | requeue =>
    refine ⟨Nat.le_succ _, fun _ hlease => ?_⟩
    cases hlease

theorem leases_routesAfter (s : OutboxSystem) (result : Except StorageError OutboxRoutes) :
    (s.routesAfter result).leases = s.leases := by
  cases result <;> rfl

theorem leases_tableAfter (s : OutboxSystem) (result : Except StorageError (Bool × OutboxTable)) :
    (s.tableAfter result).leases = s.leases := by
  cases result <;> rfl

/-- Only a claim issues leases. -/
theorem step_leases (hstep : s.step decode hash action = some t) :
    t.leases = s.leases ∨ ∃ workerId leaseMs publisher maximum locked clock,
      action = .claim workerId leaseMs publisher maximum locked clock := by
  cases action with
  | registerPublisher id fingerprint =>
    obtain rfl := Option.some.inj hstep
    exact Or.inl (leases_routesAfter s _)
  | registerRoute route =>
    obtain rfl := Option.some.inj hstep
    exact Or.inl (leases_routesAfter s _)
  | beginCommit tx operationId effects =>
    obtain ⟨keys, events, -, rfl⟩ := beginCommit_cases hstep
    exact Or.inl rfl
  | beginTrade tx request =>
    obtain ⟨events, tr, -, -, -, rfl⟩ := beginTrade_cases hstep
    exact Or.inl rfl
  | takeLock tx =>
    obtain ⟨tr, lock, waiting, -, -, -, rfl⟩ := takeLock_cases hstep
    exact Or.inl rfl
  | insertEvent tx now =>
    left
    rcases insertEvent_cases hash hstep with rfl | ⟨tr, event, pending, row, -, -, -, -, rfl⟩
    · rfl
    · rfl
  | commit tx =>
    obtain ⟨table, rfl, -, -⟩ := commit_cases hstep
    exact Or.inl rfl
  | abort tx =>
    obtain ⟨-, hstep⟩ := Option.ite_none_right_eq_some.mp hstep
    obtain rfl := Option.some.inj hstep
    exact Or.inl rfl
  | claim workerId leaseMs publisher maximum locked clock =>
    exact Or.inr ⟨workerId, leaseMs, publisher, maximum, locked, clock, rfl⟩
  | acknowledge lease checked clock =>
    obtain ⟨-, hstep⟩ := Option.ite_none_right_eq_some.mp hstep
    obtain rfl := Option.some.inj hstep
    exact Or.inl (leases_tableAfter s _)
  | fail lease error retryDelayMs maxAttempts checked clock =>
    obtain ⟨-, hstep⟩ := Option.ite_none_right_eq_some.mp hstep
    obtain rfl := Option.some.inj hstep
    exact Or.inl (leases_tableAfter s _)
  | retryDeadLetter eventId operator reason checked clock =>
    obtain rfl := Option.some.inj hstep
    exact Or.inl (leases_tableAfter s _)

/-- A new lease is what the claim returned for its row. -/
theorem step_issued (hstep : s.step decode hash action = some t) {lease : OutboxLease}
    (hmem : lease ∈ t.leases) :
    lease ∈ s.leases ∨ ∃ workerId, ∃ row ∈ t.table.rows, lease = leaseOf workerId row := by
  rcases step_leases hstep with
    hsame | ⟨workerId, leaseMs, publisher, maximum, locked, clock, rfl⟩
  · rw [hsame] at hmem
    exact Or.inl hmem
  obtain rfl := Option.some.inj hstep
  cases hclaim : claimBatch workerId leaseMs publisher maximum locked clock s.table with
  | error e =>
    rw [hclaim] at hmem
    exact Or.inl hmem
  | ok v =>
    rw [hclaim] at hmem
    rcases List.mem_append.mp hmem with hnew | hold
    · obtain ⟨row, -, hlease, -, -, hgranted⟩ := (claimBatch_ok hclaim).2 lease hnew
      exact Or.inr ⟨workerId, _, hgranted, hlease⟩
    · exact Or.inl hold

/-- **Step lemma.** -/
theorem attempts_step (hinv : OutboxInv hash s) (h : LeaseAttempts s)
    (hstep : s.step decode hash action = some t) : LeaseAttempts t := by
  intro lease hlease row' hrow' hid
  rcases step_issued hstep hlease with hold | ⟨workerId, row, hrow, rfl⟩
  · rcases (step_rows hstep).table with ⟨f, hrows, hf⟩ | hadd
    · rw [hrows] at hrow'
      obtain ⟨row, hrow, rfl⟩ := List.mem_map.mp hrow'
      have hmove := hf row hrow
      obtain ⟨hle, heq⟩ := h lease hold row hrow (hmove.sameEvent.eventId.symm.trans hid)
      obtain ⟨hle', heq'⟩ := hmove.attempts
      refine ⟨hle.trans hle', fun htoken hleased => ?_⟩
      -- the token lies between those of the row before and after
      obtain ⟨hleased', hcount⟩ := heq' (by omega) hleased
      rw [hcount]
      exact heq (by omega) hleased'
    · -- the row of a lease is there already
      obtain ⟨row, hrow, hfor, -⟩ := hinv.issued lease hold
      obtain rfl := KeyedTable.eq_of_key hrow' (hadd row hrow) (hid.trans hfor.eventId)
      exact h lease hold row' hrow hid
  · obtain rfl := KeyedTable.eq_of_key hrow' hrow hid
    exact ⟨Nat.le_refl _, fun _ _ => rfl⟩

/-- **Run lemma.** -/
theorem run_attempts {es : List OutboxAction}
    (hrun : run (OutboxSystem.step decode hash) {} es = some s) :
    OutboxInv hash s ∧ LeaseAttempts s := by
  have hinit : LeaseAttempts {} := by
    intro lease hmem
    cases hmem
  refine run_invariant (P := fun s => OutboxInv hash s ∧ LeaseAttempts s) ?_
    ⟨inv_init, hinit⟩ hrun
  rintro s e t ⟨hinv, hattempts⟩ hstep
  exact ⟨step_inv hinv hstep, attempts_step hinv hattempts hstep⟩

/-! ### What is stored -/

variable {lease : OutboxLease} {policy : RetryWorkerPolicy} {checked clock : ℕ}
  {publication : Except PublishError PublishReceipt} {outcome : DurableQueueProcessOutcome}
  {table : OutboxTable}

/-- A row under a live lease has the attempts of the lease. -/
theorem LeaseAttempts.of_held (h : LeaseAttempts s) (hlease : lease ∈ s.leases) {row : OutboxRow}
    (hrow : row ∈ s.table.rows) (hheld : heldBy lease checked row = true) :
    row.attemptCount = lease.attemptCount := by
  obtain ⟨hid, -, -, htoken, hleased⟩ := heldBy_outbox hheld
  exact (h lease hlease row hrow hid).2 htoken.symm hleased

theorem outcome_publish (clock : ℕ) (row : OutboxRow) :
    (PostgresOutboxQueue.publish clock row).outcome = .committed := rfl

theorem outcome_failRow {row : OutboxRow} (error : String) (retryDelayMs maxAttempts clock : ℕ)
    (hopen : row.publishedAt = none) :
    (failRow error retryDelayMs maxAttempts clock row).outcome =
      if maxAttempts ≤ row.attemptCount + 1 then .deadLettered else .retryScheduled := by
  show (if row.publishedAt.isSome then _ else
    if (if maxAttempts ≤ row.attemptCount + 1 then some clock else none).isSome then _ else _) = _
  rw [hopen]
  by_cases hdead : maxAttempts ≤ row.attemptCount + 1
  · rw [if_pos hdead, if_pos hdead]
    rfl
  · rw [if_neg hdead, if_neg hdead]
    rfl

/-- An update that finds a row under the lease changes it, and else nothing. -/
theorem update_held (table : OutboxTable) (f : OutboxRow → OutboxRow)
    (hf : ∀ row, (f row).eventId = row.eventId) :
    (table.rows.any (heldBy lease checked) = false ∧
      table.update (heldBy lease checked) f hf = table) ∨
    (table.rows.any (heldBy lease checked) = true ∧ ∃ row ∈ table.rows,
      heldBy lease checked row = true ∧ f row ∈ (table.update (heldBy lease checked) f hf).rows) := by
  cases hany : table.rows.any (heldBy lease checked) with
  | false =>
    refine Or.inl ⟨rfl, KeyedTable.update_eq_self fun row hmem => ?_⟩
    exact Bool.eq_false_of_not_eq_true (List.any_eq_false.mp hany row hmem)
  | true =>
    obtain ⟨row, hrow, hheld⟩ := List.any_eq_true.mp hany
    exact Or.inr ⟨rfl, row, hrow, hheld, KeyedTable.mem_update hrow hheld⟩

/-- **The outcome is what the statement stored.** -/
theorem publicationOutcome_stored (hattempts : LeaseAttempts s) (hlease : lease ∈ s.leases)
    (hmax : policy.maxAttempts < 2 ^ 32) (h : publicationOutcome entropy policy lease checked clock
      s.table publication = .ok (outcome, table)) :
    (outcome = .leaseLost ∧ table = s.table) ∨
    (outcome ≠ .leaseLost ∧
      ∃ row ∈ table.rows, row.eventId = lease.event.eventId ∧ row.outcome = outcome) := by
  cases publication with
  | ok receipt =>
    obtain ⟨rfl, rfl⟩ := Prod.mk.inj (Except.ok.inj h)
    rcases update_held s.table (PostgresOutboxQueue.publish clock) (eventId_publish clock) with
      ⟨hany, hsame⟩ | ⟨hany, row, -, hheld, hmem⟩
    · rw [hany]
      exact Or.inl ⟨rfl, hsame⟩
    · rw [hany]
      refine Or.inr ⟨by simp, _, hmem, (heldBy_outbox hheld).1, outcome_publish clock row⟩
  | error error =>
    obtain ⟨⟨updated, table'⟩, hfail, h⟩ := Checks.bind_eq_ok.mp h
    obtain ⟨rfl, rfl⟩ := Prod.mk.inj (Except.ok.inj h)
    obtain ⟨rfl, rfl⟩ := fail_updates hfail
    have hlimit : error.maxAttempts policy < 2 ^ 32 := by
      cases error with
      | transient reason => exact hmax
      | permanent reason => exact Nat.one_lt_two_pow (by omega)
    rcases update_held s.table (failRow error.text
        (policy.outboxRetryDelayMs entropy lease.event.eventId lease.attemptCount)
        (error.maxAttempts policy) clock) (eventId_failRow _ _ _ _) with
      ⟨hany, hsame⟩ | ⟨hany, row, hrow, hheld, hmem⟩
    · rw [hany]
      exact Or.inl ⟨rfl, hsame⟩
    · have hcount := hattempts.of_held hlease hrow hheld
      obtain ⟨hid, -, hopen, -, -⟩ := heldBy_outbox hheld
      rw [hany]
      -- the limit is a 32-bit number, so the worker's addition does not saturate below it
      by_cases hdead : error.maxAttempts policy ≤ lease.attemptCount + 1
      · have hworker : error.maxAttempts policy ≤ min (lease.attemptCount + 1) (2 ^ 64 - 1) := by
          omega
        rw [if_pos hworker]
        refine Or.inr ⟨by simp, _, hmem, hid, ?_⟩
        rw [outcome_failRow _ _ _ _ hopen, hcount, if_pos hdead]
        rfl
      · have hworker : ¬ error.maxAttempts policy ≤ min (lease.attemptCount + 1) (2 ^ 64 - 1) := by
          omega
        rw [if_neg hworker]
        refine Or.inr ⟨by simp, _, hmem, hid, ?_⟩
        rw [outcome_failRow _ _ _ _ hopen, hcount, if_neg hdead]
        rfl

/-- With two attempts or more, a first failure is final only if it is permanent. -/
theorem permanent_of_deadLettered (hfirst : lease.attemptCount = 0) (hmax : 2 ≤ policy.maxAttempts)
    (h : publicationOutcome entropy policy lease checked clock s.table publication =
      .ok (.deadLettered, table)) : ∃ reason, publication = .error (.permanent reason) := by
  cases publication with
  | ok receipt =>
    obtain ⟨hout, -⟩ := Prod.mk.inj (Except.ok.inj h)
    split at hout
    · cases hout
    · cases hout
  | error error =>
    cases error with
    | permanent reason => exact ⟨reason, rfl⟩
    | transient reason =>
      obtain ⟨⟨updated, table'⟩, -, h⟩ := Checks.bind_eq_ok.mp h
      obtain ⟨hout, -⟩ := Prod.mk.inj (Except.ok.inj h)
      have hnot : ¬ policy.maxAttempts ≤ min (lease.attemptCount + 1) (2 ^ 64 - 1) := by
        omega
      cases updated with
      | false => cases hout
      | true =>
        rw [show PublishError.maxAttempts policy (.transient reason) = policy.maxAttempts from rfl,
          if_neg hnot] at hout
        cases hout

theorem finishOutboxPublication_error (entropy : String → ℕ) (policy : RetryWorkerPolicy)
    (lease : OutboxLease) (checked clock : ℕ) (error : PublishError) :
    finishOutboxPublication entropy policy lease checked clock (.error error) =
      .fail lease error.text
        (policy.outboxRetryDelayMs entropy lease.event.eventId lease.attemptCount)
        (error.maxAttempts policy) checked clock := by
  cases error <;> rfl

/-- The worker's action leads to the rows of `publicationOutcome`. -/
theorem step_finishOutboxPublication (hlease : lease ∈ s.leases)
    (h : publicationOutcome entropy policy lease checked clock s.table publication =
      .ok (outcome, table)) :
    s.step decode hash (finishOutboxPublication entropy policy lease checked clock publication) =
      some { s with table := table } := by
  cases publication with
  | ok receipt =>
    obtain ⟨-, rfl⟩ := Prod.mk.inj (Except.ok.inj h)
    exact if_pos hlease
  | error error =>
    obtain ⟨⟨updated, table'⟩, hfail, h⟩ := Checks.bind_eq_ok.mp h
    obtain ⟨-, rfl⟩ := Prod.mk.inj (Except.ok.inj h)
    rw [finishOutboxPublication_error]
    exact (if_pos hlease).trans (congrArg (fun result => some (s.tableAfter result)) hfail)

theorem publicationOnce_permanent {reply : Option BrokerReply} {reason : String}
    (h : publicationOnce decode lease reply = .error (.permanent reason)) :
    isValid decode lease.message = false := by
  cases reply with
  | none => cases h
  | some reply =>
    rw [publicationOnce, publish] at h
    rw [isValid]
    split at h
    · rfl
    · split at h
      · cases h
      · cases h

/-- A permanent failure is the fault of the event, in a batch and alone. -/
theorem publications_permanent {batch : Bool} {leases : List OutboxLease}
    {reply : Option BrokerReply} {reason : String}
    (h : (lease, .error (.permanent reason)) ∈
      leases.zip (publications decode batch leases reply)) :
    isValid decode lease.message = false := by
  cases batch with
  | true =>
    obtain ⟨i, hi⟩ := List.mem_iff_getElem?.mp h
    obtain ⟨hlease, hresult⟩ := List.getElem?_zip_eq_some.mp hi
    -- a publication that is given up as a whole has no permanent failure
    have hnone : ∀ reason', (leases.map fun _ => (.error (.transient reason') : Except PublishError
        PublishReceipt))[i]? ≠ some (.error (.permanent reason)) := by
      intro reason' hpermanent
      obtain ⟨_, -, hpermanent⟩ := List.mem_map.mp (List.mem_of_getElem? hpermanent)
      cases hpermanent
    cases reply with
    | none => exact absurd hresult (hnone _)
    | some reply' =>
      rw [publications, if_pos rfl] at hresult
      dsimp only [publicationsBatch] at hresult
      split at hresult
      · have hmessage : (leases.map OutboxLease.message)[i]? = some lease.message := by
          rw [List.getElem?_map, hlease]
          rfl
        obtain ⟨result, hget, hok⟩ : ∃ result,
            (publishBatch decode (leases.map OutboxLease.message) reply')[i]? = some result ∧
              ResultOk decode (leases.map OutboxLease.message) reply' i lease.message result :=
          publishBatch_resultOk reply' hmessage
        obtain rfl := Option.some.inj (hget.symm.trans hresult)
        by_contra hvalid
        rw [Bool.not_eq_false] at hvalid
        have hunsent : ¬ ∃ receipt, (Except.error (.permanent reason) : Except PublishError
            PublishReceipt) = .ok receipt := by
          rintro ⟨receipt, hsent⟩
          cases hsent
        obtain ⟨reason', htransient⟩ := hok.transient (Or.inr hvalid) hunsent
        cases htransient
      · exact absurd hresult (hnone _)
  | false =>
    cases leases with
    | nil => cases h
    | cons first rest =>
      -- only the first lease has a result
      have hpair : (lease, .error (.permanent reason)) ∈ [(first, publicationOnce decode first
        reply)] := by simpa [publications] using h
      obtain ⟨rfl, hresult⟩ := Prod.mk.inj (List.mem_singleton.mp hpair)
      exact publicationOnce_permanent hresult.symm

end Outcomes

/-! ### Bad events are isolated -/

/-- **A bad event fails alone.**  For every batch and whatever comes back for the shared
write, every message has its own result, in order.  A worker that settles such a result in
any reachable state

* reports a lost lease only if nothing changed, and else the outcome that the row now shows;
* with two attempts or more, makes a dead letter of a first failure only if the event is
  invalid.

The limit of attempts is a `u32`. -/
theorem batchPublication_isolates (decode : Bytes → Option EventEnvelope) (hash : String → ℤ)
    (entropy : String → ℕ) :
    (∀ messages reply, (publishBatch decode messages reply).length = messages.length ∧
      ∀ i message, messages[i]? = some message →
        ∃ result, (publishBatch decode messages reply)[i]? = some result ∧
          ResultOk decode messages reply i message result) ∧
    (∀ (batch : Bool) (leases : List OutboxLease) (reply : Option BrokerReply)
      (lease : OutboxLease) (publication : Except PublishError PublishReceipt),
      (lease, publication) ∈ leases.zip (publications decode batch leases reply) →
      ∀ es s, run (OutboxSystem.step decode hash) {} es = some s → lease ∈ s.leases →
      ∀ policy checked clock outcome table, policy.maxAttempts < 2 ^ 32 →
        publicationOutcome entropy policy lease checked clock s.table publication =
          .ok (outcome, table) →
        s.step decode hash (finishOutboxPublication entropy policy lease checked clock
          publication) = some { s with table := table } ∧
        (outcome = .leaseLost → table = s.table) ∧
        (outcome ≠ .leaseLost → ∃ row ∈ table.rows,
          row.eventId = lease.event.eventId ∧ row.outcome = outcome) ∧
        (outcome = .deadLettered → lease.attemptCount = 0 → 2 ≤ policy.maxAttempts →
          isValid decode lease.message = false)) := by
  constructor
  · intro messages reply
    exact ⟨length_publishBatch messages reply, fun i message h => publishBatch_resultOk reply h⟩
  · intro batch leases reply lease publication hmem es s hrun hlease policy checked clock outcome
      table hmax hout
    obtain ⟨-, hattempts⟩ := run_attempts hrun
    refine ⟨step_finishOutboxPublication hlease hout, ?_, ?_, ?_⟩
    · rintro rfl
      rcases publicationOutcome_stored hattempts hlease hmax hout with ⟨-, hsame⟩ | ⟨hne, -⟩
      · exact hsame
      · exact absurd rfl hne
    · intro hne
      rcases publicationOutcome_stored hattempts hlease hmax hout with ⟨hlost, -⟩ | ⟨-, hstored⟩
      · exact absurd hlost hne
      · exact hstored
    · rintro rfl hfirst htwo
      obtain ⟨reason, rfl⟩ := permanent_of_deadLettered hfirst htwo hout
      exact publications_permanent hmem

theorem toOption_eq_some {ε α : Type} {x : Except ε α} {a : α} :
    x.toOption = some a ↔ x = .ok a := by
  cases x <;> simp [Except.toOption]

/-- One event, claimed by a worker. -/
def claimedTrace : List OutboxAction :=
  [.beginCommit 1 "op-1" { outboxEvents := [sampleEvent "e-1"] }, .takeLock 1,
    .insertEvent 1 1000, .commit 1,
    .claim "worker-1" 30000 none 16 (fun _ => false) (claimClock 3000)]

def retryPolicy (maxAttempts : ℕ) : RetryWorkerPolicy := ⟨30000, 1000, 60000, maxAttempts⟩

/-- The result of a batch that has timed out. -/
def timedOut : Except PublishError PublishReceipt :=
  .error (.transient "batch publication incomplete; result may be unknown")

/-- The event is tried again under a policy with two attempts. -/
theorem batchPublication_isolates_timeout :
    ∃ s table, run (OutboxSystem.step (fun _ => none) fun key => key.length) {}
        claimedTrace = some s ∧
      publicationOutcome String.length (retryPolicy 2) sampleLease 4000 4000 s.table timedOut =
        .ok (.retryScheduled, table) ∧
      ∃ row ∈ table.rows, row.eventId = "e-1" ∧ row.outcome = .retryScheduled := by
  have hreach : ∃ s, run (OutboxSystem.step (fun _ => none) fun key => key.length) {}
        claimedTrace = some s ∧ sampleLease ∈ s.leases ∧
      (publicationOutcome String.length (retryPolicy 2) sampleLease 4000 4000 s.table
        timedOut).toOption.any (fun result => decide (result.1 = .retryScheduled)) = true :=
    exists_of_any (by decide +kernel)
  obtain ⟨s, hs, hlease, hretry⟩ := hreach
  obtain ⟨⟨outcome, table⟩, hout, rfl⟩ := exists_of_any hretry
  have hout' := toOption_eq_some.mp hout
  obtain ⟨-, hsettle⟩ := batchPublication_isolates (fun _ => none) (fun key => key.length)
    String.length
  obtain ⟨-, -, hstored, -⟩ := hsettle true [sampleLease] none sampleLease timedOut
    (List.mem_singleton.mpr rfl) claimedTrace s hs hlease (retryPolicy 2) 4000 4000 _ table
    (by decide) hout'
  exact ⟨s, table, hs, hout', hstored (by decide)⟩

/-- The policy may allow a single attempt: then a valid event is a dead letter after its first
failure, here a timeout. -/
theorem validEvent_deadLettered :
    ∃ s table, run (OutboxSystem.step (fun _ => none) fun key => key.length) {}
        claimedTrace = some s ∧
      sampleLease ∈ s.leases ∧ sampleLease.attemptCount = 0 ∧
      isValid (fun _ => none) sampleLease.message = true ∧
      (sampleLease, timedOut) ∈
        [sampleLease].zip (publications (fun _ => none) true [sampleLease] none) ∧
      (retryPolicy 1).validate = .ok (retryPolicy 1) ∧
      publicationOutcome String.length (retryPolicy 1) sampleLease 4000 4000 s.table timedOut =
        .ok (.deadLettered, table) := by
  have hreach : ∃ s, run (OutboxSystem.step (fun _ => none) fun key => key.length) {}
        claimedTrace = some s ∧ sampleLease ∈ s.leases ∧
      (publicationOutcome String.length (retryPolicy 1) sampleLease 4000 4000 s.table
        timedOut).toOption.any (fun result => decide (result.1 = .deadLettered)) = true :=
    exists_of_any (by decide +kernel)
  obtain ⟨s, hs, hlease, hdead⟩ := hreach
  obtain ⟨⟨outcome, table⟩, hout, rfl⟩ := exists_of_any hdead
  exact ⟨s, table, hs, hlease, rfl, by decide, List.mem_singleton.mpr rfl, rfl,
    toOption_eq_some.mp hout⟩

end DbProxy
