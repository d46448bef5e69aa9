/-
Write-behind neither regresses nor loses the last value.

`Joint` relates, for one record, the log of its enqueues to the row, to what
workers may acknowledge and to the backlog entry.

* `step_joint` — every step of the system keeps `Joint`;
* `run_joint` — so does every run in which the record is not written directly
  and its request ids are used once;
* `write_behind_never_regresses` — the consequences.
-/
import DbProxy.BacklogRepresentation
import DbProxy.WriteBehind

namespace DbProxy

open RedisSnapshotBacklog StepMachine

/-! ### The joint invariant -/

/-- What the assumptions of a run say about a state: the codec reads the log back, ids are
used once, and sequences are exact. -/
structure Sane (codec : Bincode) (r : RecordKey) (s : WriteBehind) : Prop where
  logged : ∀ e ∈ s.backlog.log, ∃ q, LogsRequest codec e q ∧ codec.RoundTrips q
  ids : DistinctIds codec r s.backlog.log
  fence : s.backlog.redis.fenceSequence < 2 ^ 53

structure Joint (codec : Bincode) (r : RecordKey) (s : WriteBehind) : Prop where
  pg : PgInv codec r s.backlog.log s.pg
  /-- what a worker may acknowledge has reached the row -/
  flushed : ∀ c ∈ s.flushed, c.member = member r →
    ∃ e ∈ s.backlog.log, c.encoded = e.frame ∧ Reached r s.pg e.sequence
  /-- without an entry the newest enqueue has reached the row -/
  drained : s.backlog.redis.entries (entryKey (member r)) = none →
    ∀ e, lastLogged (member r) s.backlog.log = some e → Reached r s.pg e.sequence

section Steps

variable {codec : Bincode} {r : RecordKey} {s s' : WriteBehind}

/-- What a claimed tuple decodes to. -/
theorem decodeLease_issued {c : ClaimedEntry} {lease : SnapshotBacklogLease}
    (hinv : SystemInv s.backlog) (hsane : Sane codec r s) (hissued : s.backlog.wasIssued c)
    (h : decodeLease codec c = .ok lease) :
    lease.toClaimedEntry = c ∧ ∃ e ∈ s.backlog.log, c.encoded = e.frame ∧ e.member = c.member ∧
      LogsRequest codec e lease.request ∧ codec.RoundTrips lease.request ∧
      lease.fenceSequence = some e.sequence := by
  obtain ⟨⟨c', n⟩, hmem, hc'⟩ := List.any_eq_true.mp hissued
  obtain rfl : c' = c := by simpa using hc'
  obtain ⟨-, e, hlast, hframe⟩ := hinv.inv.claimed c' n hmem
  obtain ⟨htake, hmember⟩ := mem_of_lastLogged hlast
  have he : e ∈ s.backlog.log := List.mem_of_mem_take htake
  obtain ⟨q, hq, hround⟩ := hsane.logged e he
  have hle := (hinv.increasing hsane.fence).2 e he
  have hsmall : e.sequence < bigintLimit :=
    lt_of_le_of_lt hle (lt_trans hsane.fence (by decide))
  have hdecode : decodeEntry codec c'.encoded = .ok (some e.sequence, q) := by
    rw [hframe, LoggedEntry.frame, hq.2]
    exact decodeEntry_sequencedEntry hsmall hround
  have hname : member q.record = c'.member := by rw [← hq.1, hmember]
  rw [decodeLease, hdecode, Checks.ok_bind] at h
  simp only [hname, ne_eq, not_true, if_false] at h
  have hlease : lease = { c' with request := q, fenceSequence := some e.sequence } :=
    (Except.ok.inj h).symm
  subst hlease
  exact ⟨rfl, e, he, hframe, hmember, hq, hround, rfl⟩

/-- The leases that a flush may hold. -/
def FlushLease (codec : Bincode) (log : List LoggedEntry) (lease : SnapshotBacklogLease) : Prop :=
  ∃ e ∈ log, lease.encoded = e.frame ∧ e.member = lease.member ∧
    LogsRequest codec e lease.request ∧ codec.RoundTrips lease.request ∧
    lease.fenceSequence = some e.sequence

/-- The leases of a flush are entries of the log. -/
theorem flushEntry_of_issued {claimed : List ClaimedEntry} {leases : List SnapshotBacklogLease}
    (hinv : SystemInv s.backlog) (hsane : Sane codec r s)
    (hissued : claimed.all s.backlog.wasIssued) (h : claimed.mapM (decodeLease codec) = .ok leases) :
    ∀ lease ∈ leases, FlushLease codec s.backlog.log lease := by
  intro lease hlease
  obtain ⟨c, hc, hdecode⟩ := Checks.exists_of_forall₂_right (Checks.mapM_eq_ok.mp h) hlease
  obtain ⟨heq, hrest⟩ := decodeLease_issued hinv hsane (List.all_eq_true.mp hissued c hc) hdecode
  rw [← heq] at hrest
  exact hrest

theorem FlushLease.entry {log : List LoggedEntry} {lease : SnapshotBacklogLease}
    (h : FlushLease codec log lease) : FlushEntry codec r log lease.entry := by
  obtain ⟨e, he, -, -, hlogs, hround, hseq⟩ := h
  refine ⟨e.sequence, ?_, fun hr => ⟨e, he, ⟨hlogs, hr, hround⟩, rfl⟩⟩
  rw [SnapshotBacklogLease.entry, hseq]
  rfl

/-- Advancing the row keeps what does not concern the tables. -/
theorem Joint.advance {pg : Postgres} (h : Joint codec r s) (hpg : PgInv codec r s.backlog.log pg)
    (hadv : Advances r s.pg pg) : Joint codec r { s with pg } where
  pg := hpg
  flushed c hc hm := by
    obtain ⟨e, he, hframe, hn⟩ := h.flushed c hc hm
    exact ⟨e, he, hframe, hn.advance hadv⟩
  drained hnone e hlast := (h.drained hnone e hlast).advance hadv

theorem Joint.untouched {pg : Postgres} (h : Joint codec r s) (hun : Untouched r s.pg pg) :
    Joint codec r { s with pg } :=
  h.advance (h.pg.untouched hun) (Or.inl hun.snapshot)

/-- Without a reply the flush is rolled back or commits its saves. -/
theorem flush_joint {leases : List SnapshotBacklogLease} (hsane : Sane codec r s)
    (h : Joint codec r s) (hleases : ∀ lease ∈ leases, FlushLease codec s.backlog.log lease) :
    Joint codec r { s with pg := (saveBacklogLeases leases s.pg).2 } ∧
      Advances r s.pg (saveBacklogLeases leases s.pg).2 := by
  rcases saveBacklogLeases_state leases s.pg with heq | ⟨sorted, results, hperm, hrun⟩
  · rw [heq]
    exact ⟨h, Advances.refl r s.pg⟩
  · obtain ⟨hpg, hadv, -⟩ := saveEntries_inv hsane.ids h.pg (fun x hx => by
      obtain ⟨lease, hlease, rfl⟩ := List.mem_map.mp hx
      exact (hleases lease (hperm.mem_iff.mp hlease)).entry) hrun
    exact ⟨h.advance hpg hadv, hadv⟩

theorem finishFlush_joint {leases : List SnapshotBacklogLease} (ending : FlushEnding)
    (hsane : Sane codec r s) (h : Joint codec r s)
    (hleases : ∀ lease ∈ leases, FlushLease codec s.backlog.log lease) :
    Joint codec r (s.finishFlush leases ending) ∧
      Advances r s.pg (s.finishFlush leases ending).pg := by
  obtain ⟨hjoint, hadv⟩ := flush_joint hsane h hleases
  cases ending with
  | rolledBack => exact ⟨h, Advances.refl r s.pg⟩
  | lost => exact ⟨hjoint, hadv⟩
  | delivered =>
    rw [WriteBehind.finishFlush]
    split
    · rename_i e pg hsave
      rw [hsave] at hjoint hadv
      exact ⟨hjoint, hadv⟩
    · rename_i outcomes pg hsave
      rw [hsave] at hjoint hadv
      obtain ⟨sorted, results, hperm, hrun, hcommitted⟩ := saveBacklogLeases_ok hsave
      obtain ⟨-, -, hreached⟩ := saveEntries_inv hsane.ids h.pg (fun x hx => by
        obtain ⟨lease, hlease, rfl⟩ := List.mem_map.mp hx
        exact (hleases lease (hperm.mem_iff.mp hlease)).entry) hrun
      refine ⟨⟨hjoint.pg, fun c hc hm => ?_, hjoint.drained⟩, hadv⟩
      rcases List.mem_append.mp hc with hc | hc
      · exact hjoint.flushed c hc hm
      · -- a lease that was just committed: the row has reached its sequence
        obtain ⟨lease, hlease, rfl⟩ := List.mem_map.mp hc
        obtain ⟨outcome, hzip⟩ := hcommitted lease hlease
        have hin : lease ∈ leases := hperm.mem_iff.mp (List.of_mem_zip hzip).1
        obtain ⟨e, he, hframe, hmember, hlogs, -, hseq⟩ := hleases lease hin
        have hrecord : lease.request.record = r :=
          member_injective (by rw [← hlogs.1, hmember, hm])
        refine ⟨e, he, hframe, hreached lease.entry outcome e.sequence ?_ ?_ hrecord⟩
        · rw [List.zip_map_left]
          exact List.mem_map.mpr ⟨(lease, .ok outcome), hzip, rfl⟩
        · rw [SnapshotBacklogLease.entry, hseq]
          rfl

/-- Receipts only disappear in a cleanup. -/
theorem cleanup_untouched (pg : Postgres) (expired : List String) :
    Untouched r pg (pg.cleanup expired) := by
  refine ⟨rfl, fun id receipt hid hr => ⟨receipt, ?_, hr⟩⟩
  simp only [Postgres.cleanup] at hid
  split at hid
  · cases hid
  · exact hid

/-- Every backlog step but an enqueue keeps the log and the fence. -/
theorem step_log {encode : SnapshotWrite → Bytes} {b b' : BacklogSystem} {e : BacklogEvent}
    (hstep : b.step encode e = some b')
    (hother : ∀ clock score requests, e ≠ .enqueue clock score requests) :
    b'.log = b.log ∧ b'.redis.fenceSequence = b.redis.fenceSequence := by
  cases e with
  | enqueue clock score requests => exact absurd rfl (hother clock score requests)
  | claim clock leaseMs =>
    simp only [BacklogSystem.step, Option.ite_none_right_eq_some, Option.some.injEq] at hstep
    obtain ⟨-, rfl⟩ := hstep
    rw [Backlog.claimScript, ← claimLoop_eq]
    exact ⟨rfl, ((reclaimExpired_sameEntries _ _).trans (claimMultiLoop_sameEntries ..)).2⟩
  | claimMulti clock leaseMs maxItems =>
    simp only [BacklogSystem.step, Option.ite_none_right_eq_some, Option.some.injEq] at hstep
    obtain ⟨-, rfl⟩ := hstep
    exact ⟨rfl, ((reclaimExpired_sameEntries _ _).trans (claimMultiLoop_sameEntries ..)).2⟩
  | ack now lease =>
    simp only [BacklogSystem.step, Option.ite_none_right_eq_some, Option.some.injEq] at hstep
    obtain ⟨-, rfl⟩ := hstep
    exact ⟨rfl, (ackScript_tidies ..).shrinks.fenceSequence⟩
  | ackMulti now leases =>
    simp only [BacklogSystem.step, Option.ite_none_right_eq_some, Option.some.injEq] at hstep
    obtain ⟨-, rfl⟩ := hstep
    exact ⟨rfl, (ackMultiScript_tidies ..).shrinks.fenceSequence⟩
  | release now lease =>
    simp only [BacklogSystem.step, Option.ite_none_right_eq_some, Option.some.injEq] at hstep
    obtain ⟨-, rfl⟩ := hstep
    exact ⟨rfl, (releaseScript_tidies ..).shrinks.fenceSequence⟩
  | releaseMulti now leases =>
    simp only [BacklogSystem.step, Option.ite_none_right_eq_some, Option.some.injEq] at hstep
    obtain ⟨-, rfl⟩ := hstep
    exact ⟨rfl, (releaseMultiScript_tidies ..).shrinks.fenceSequence⟩
  | renew clock leaseMs lease =>
    simp only [BacklogSystem.step, Option.ite_none_right_eq_some, Option.some.injEq] at hstep
    obtain ⟨-, rfl⟩ := hstep
    exact ⟨rfl, (renewScript_tidies ..).shrinks.fenceSequence⟩

/-- The fence does not fall below `2 ^ 53` again. -/
theorem step_fence {encode : SnapshotWrite → Bytes} {b b' : BacklogSystem} {e : BacklogEvent}
    (hstep : b.step encode e = some b') (hfence : b'.redis.fenceSequence < 2 ^ 53) :
    b.redis.fenceSequence < 2 ^ 53 := by
  by_cases he : ∃ clock score requests, e = .enqueue clock score requests
  · obtain ⟨clock, score, requests, rfl⟩ := he
    obtain ⟨entries, -, hredis, -⟩ := step_enqueue hstep
    rw [hredis] at hfence
    exact lt_of_le_of_lt (enqueueLoop_fence_le hfence) hfence
  · rw [← (step_log hstep fun clock score requests heq => he ⟨clock, score, requests, heq⟩).2]
    exact hfence

/-- An enqueue for `r` leaves an entry; without one nothing was enqueued for `r`. -/
theorem enqueue_joint {clock : RedisClock} {score : ℕ} {requests : List SnapshotWrite}
    {b : BacklogSystem} (h : Joint codec r s)
    (hstep : s.backlog.step codec.encode (.enqueue clock score requests) = some b) :
    Joint codec r { s with backlog := b } := by
  obtain ⟨entries, hentries, hredis, hlog⟩ := step_enqueue hstep
  have hsub : ∀ e ∈ s.backlog.log, e ∈ b.log := by
    intro e he
    rw [hlog]
    exact List.mem_append_left _ he
  refine ⟨h.pg.mono hsub, fun c hc hm => ?_, fun hnone e hlast => ?_⟩
  · obtain ⟨e, he, hrest⟩ := h.flushed c hc hm
    exact ⟨e, hsub e he, hrest⟩
  · dsimp only at hnone hlast
    rw [hredis] at hnone
    obtain ⟨hbefore, hothers⟩ := enqueueLoop_none hnone
    rw [hlog, lastLogged_append_of_ne] at hlast
    · exact h.drained hbefore e hlast
    · intro x hx hmember
      have hin : x.member ∈ entries.map (·.member) := by
        rw [← @logEntries_members clock.unixMicros entries s.backlog.redis.fenceSequence]
        exact List.mem_map.mpr ⟨x, hx, rfl⟩
      obtain ⟨entry, hentry, heq⟩ := List.mem_map.mp hin
      refine hothers entry hentry ?_
      rw [mapM_prepare_keys hentries entry hentry, heq, hmember]

/-- A script removes the entry only for an acknowledgement of a flushed lease. -/
theorem script_joint {e : BacklogEvent} {b : BacklogSystem} (hinv : SystemInv s.backlog)
    (h : Joint codec r s) (hack : ∀ lease ∈ e.acknowledged, lease ∈ s.flushed)
    (hother : ∀ clock score requests, e ≠ .enqueue clock score requests)
    (hstep : s.backlog.step codec.encode e = some b) : Joint codec r { s with backlog := b } := by
  obtain ⟨hlog, -⟩ := step_log hstep hother
  refine ⟨hlog ▸ h.pg, fun c hc hm => hlog ▸ h.flushed c hc hm, fun hnone last hlast => ?_⟩
  dsimp only at hnone hlast
  rw [hlog] at hlast
  cases hentry : s.backlog.redis.entries (entryKey (member r)) with
  | none => exact h.drained hentry last hlast
  | some bytes =>
    obtain ⟨lease, hlease, hmember, -, hencoded⟩ := step_removes hstep hentry hnone
    obtain ⟨e', -, hframe, hreached⟩ := h.flushed lease (hack lease hlease) hmember
    obtain ⟨last', hlast', hbytes⟩ := hinv.inv.stored _ _ hentry
    -- the acknowledged bytes are those of the newest enqueue
    have heq : last' = last := Option.some.inj (hlast'.symm.trans hlast)
    have hsame : e'.frame = last.frame := by rw [← hframe, hencoded, hbytes, heq]
    rw [← (sequencedEntry_injective hsame).1]
    exact hreached

/-- **Every step** keeps the joint invariant of a record that it does not write directly,
and the row of the record only advances. -/
theorem step_joint {e : WriteBehindEvent} (hinv : SystemInv s.backlog) (hsane : Sane codec r s)
    (h : Joint codec r s) (hdirect : ∀ q ∈ e.directWrites, q.record ≠ r)
    (hstep : s.step codec e = some s') : Joint codec r s' ∧ Advances r s.pg s'.pg := by
  cases e with
  | backlog e =>
    simp only [WriteBehind.step, Option.ite_none_right_eq_some, Option.map_eq_some_iff] at hstep
    obtain ⟨hack, b, hb, rfl⟩ := hstep
    refine ⟨?_, Advances.refl r s.pg⟩
    by_cases henqueue : ∃ clock score requests, e = .enqueue clock score requests
    · obtain ⟨clock, score, requests, rfl⟩ := henqueue
      exact enqueue_joint h hb
    · refine script_joint hinv h (fun lease hlease => ?_)
        (fun clock score requests heq => henqueue ⟨clock, score, requests, heq⟩) hb
      simpa using List.all_eq_true.mp hack lease hlease
  | flush claimed ending =>
    simp only [WriteBehind.step, Option.ite_none_right_eq_some] at hstep
    obtain ⟨hissued, hstep⟩ := hstep
    split at hstep
    · cases hstep
    · rename_i leases hleases
      rw [Option.some_inj] at hstep
      subst hstep
      exact finishFlush_joint ending hsane h (flushEntry_of_issued hinv hsane hissued hleases)
  | direct requests =>
    simp only [WriteBehind.step, Option.some.injEq] at hstep
    subst hstep
    have hun := saveBatch_untouched (r := r) s.pg hdirect
    exact ⟨h.untouched hun, Or.inl hun.snapshot⟩
  | cleanup expired =>
    simp only [WriteBehind.step, Option.some.injEq] at hstep
    subst hstep
    have hun := cleanup_untouched (r := r) s.pg expired
    exact ⟨h.untouched hun, Or.inl hun.snapshot⟩

end Steps

/-! ### Runs -/

/-- All requests of a run in the order of their enqueues. -/
def enqueuedRequests (trace : List WriteBehindEvent) : List SnapshotWrite :=
  trace.flatMap (·.enqueued)

/-- The requests for one record. -/
def requestsFor (r : RecordKey) (trace : List WriteBehindEvent) : List SnapshotWrite :=
  (enqueuedRequests trace).filter (·.record = r)

def directRequests (trace : List WriteBehindEvent) : List SnapshotWrite :=
  trace.flatMap (·.directWrites)

section Runs

variable {codec : Bincode} {r : RecordKey}

/-- Only backlog events move the backlog. -/
theorem step_backlog {s s' : WriteBehind} {e : WriteBehindEvent}
    (hstep : s.step codec e = some s') :
    (∃ b, e = .backlog b ∧ s.backlog.step codec.encode b = some s'.backlog) ∨
      (e.enqueued = [] ∧ s'.backlog = s.backlog) := by
  cases e with
  | backlog e =>
    simp only [WriteBehind.step, Option.ite_none_right_eq_some, Option.map_eq_some_iff] at hstep
    obtain ⟨-, b, hb, rfl⟩ := hstep
    exact Or.inl ⟨e, rfl, hb⟩
  | flush claimed ending =>
    simp only [WriteBehind.step, Option.ite_none_right_eq_some] at hstep
    obtain ⟨-, hstep⟩ := hstep
    split at hstep
    · cases hstep
    · rw [Option.some_inj] at hstep
      subst hstep
      refine Or.inr ⟨rfl, ?_⟩
      cases ending with
      | rolledBack => rfl
      | lost => rfl
      | delivered =>
        rw [WriteBehind.finishFlush]
        split <;> rfl
  | direct requests =>
    simp only [WriteBehind.step, Option.some.injEq] at hstep
    exact Or.inr ⟨rfl, by rw [← hstep]⟩
  | cleanup expired =>
    simp only [WriteBehind.step, Option.some.injEq] at hstep
    exact Or.inr ⟨rfl, by rw [← hstep]⟩

/-- The log follows the enqueues. -/
theorem step_logs {s s' : WriteBehind} {e : WriteBehindEvent} {requests : List SnapshotWrite}
    (h : List.Forall₂ (LogsRequest codec) s.backlog.log requests)
    (hstep : s.step codec e = some s') :
    List.Forall₂ (LogsRequest codec) s'.backlog.log (requests ++ e.enqueued) := by
  rcases step_backlog hstep with ⟨b, rfl, hb⟩ | ⟨hnone, hsame⟩
  · by_cases henqueue : ∃ clock score requests', b = .enqueue clock score requests'
    · obtain ⟨clock, score, requests', rfl⟩ := henqueue
      obtain ⟨entries, hentries, -, hlog⟩ := step_enqueue hb
      rw [hlog]
      exact List.rel_append h (logEntries_logs (Checks.mapM_eq_ok.mp hentries))
    · rw [(step_log hb fun clock score requests' heq =>
        henqueue ⟨clock, score, requests', heq⟩).1]
      have hnone : (WriteBehindEvent.backlog b).enqueued = [] := by
        cases b <;> first | rfl | exact absurd ⟨_, _, _, rfl⟩ henqueue
      rw [hnone, List.append_nil]
      exact h
  · rw [hnone, List.append_nil, hsame]
    exact h

theorem step_systemInv_joint {s s' : WriteBehind} {e : WriteBehindEvent}
    (h : SystemInv s.backlog) (hstep : s.step codec e = some s') : SystemInv s'.backlog := by
  rcases step_backlog hstep with ⟨b, -, hb⟩ | ⟨-, hsame⟩
  · exact step_systemInv _ _ _ h hb
  · exact hsame ▸ h

/-- The request that a log entry of `r` stands for. -/
theorem logged_of_mem {log : List LoggedEntry} {requests : List SnapshotWrite} {e : LoggedEntry}
    (hlogs : List.Forall₂ (LogsRequest codec) log requests)
    (hcodec : ∀ q ∈ requests, codec.RoundTrips q) (he : e ∈ log) :
    ∃ q ∈ requests, LogsRequest codec e q ∧ codec.RoundTrips q := by
  obtain ⟨q, hq, hlog⟩ := Checks.exists_of_forall₂_right hlogs.flip he
  exact ⟨q, hq, hlog, hcodec q hq⟩

theorem forall₂_requestsFor {log : List LoggedEntry} {requests : List SnapshotWrite}
    (hlogs : List.Forall₂ (LogsRequest codec) log requests) :
    List.Forall₂ (LogsRequest codec) (log.filter (·.member = member r))
      (requests.filter (·.record = r)) := by
  refine List.rel_filter ?_ hlogs
  intro e q hlog
  simp only [decide_eq_true_eq]
  rw [hlog.1]
  exact member_injective.eq_iff

/-- The request id that the bytes of an entry carry. -/
def LoggedEntry.requestId (codec : Bincode) (e : LoggedEntry) : Option String :=
  (codec.decode e.encoded).toOption.map (·.requestId)

theorem LogsRequest.requestId {e : LoggedEntry} {q : SnapshotWrite} (hlog : LogsRequest codec e q)
    (hround : codec.RoundTrips q) : e.requestId codec = some q.requestId := by
  rw [LoggedEntry.requestId, hlog.2, hround]
  rfl

theorem map_requestId {log : List LoggedEntry} {requests : List SnapshotWrite}
    (hlogs : List.Forall₂ (LogsRequest codec) log requests)
    (hcodec : ∀ q ∈ requests, codec.RoundTrips q) :
    log.map (·.requestId codec) = (requests.map (·.requestId)).map some := by
  induction hlogs with
  | nil => rfl
  | cons hlog _ ih =>
    rw [List.map_cons, List.map_cons, List.map_cons,
      hlog.requestId (hcodec _ (List.mem_cons_self ..)),
      ih fun q hq => hcodec q (List.mem_cons_of_mem _ hq)]

theorem distinctIds_of_nodup {log : List LoggedEntry} {requests : List SnapshotWrite}
    (hlogs : List.Forall₂ (LogsRequest codec) log requests)
    (hcodec : ∀ q ∈ requests, codec.RoundTrips q)
    (hids : ((requests.filter (·.record = r)).map (·.requestId)).Nodup) :
    DistinctIds codec r log := by
  have hnodup : ((log.filter (·.member = member r)).map (·.requestId codec)).Nodup := by
    rw [map_requestId (forall₂_requestsFor hlogs) fun q hq => hcodec q (List.mem_of_mem_filter hq)]
    exact hids.map (Option.some_injective _)
  intro e he e' he' q q' hq hq' hid
  refine List.inj_on_of_nodup_map hnodup ?_ ?_ ?_
  · exact List.mem_filter.mpr ⟨he, by simp [hq.member]⟩
  · exact List.mem_filter.mpr ⟨he', by simp [hq'.member]⟩
  · rw [hq.logs.requestId hq.roundTrips, hq'.logs.requestId hq'.roundTrips, hid]

/-- The assumptions about the run, for one record: the codec reads the enqueued requests
back, their ids are distinct, and nobody writes the record directly. -/
structure QueuedOnly (codec : Bincode) (r : RecordKey) (trace : List WriteBehindEvent) :
    Prop where
  codec : ∀ q ∈ enqueuedRequests trace, codec.RoundTrips q
  ids : ((requestsFor r trace).map (·.requestId)).Nodup
  direct : ∀ q ∈ directRequests trace, q.record ≠ r

theorem QueuedOnly.init {trace : List WriteBehindEvent} {e : WriteBehindEvent}
    (h : QueuedOnly codec r (trace ++ [e])) :
    QueuedOnly codec r trace ∧ ∀ q ∈ e.directWrites, q.record ≠ r := by
  have henq : enqueuedRequests (trace ++ [e]) = enqueuedRequests trace ++ e.enqueued := by
    simp [enqueuedRequests]
  have hdir : directRequests (trace ++ [e]) = directRequests trace ++ e.directWrites := by
    simp [directRequests]
  refine ⟨⟨fun q hq => h.codec q ?_, ?_, fun q hq => h.direct q ?_⟩, fun q hq => h.direct q ?_⟩
  · rw [henq]
    exact List.mem_append_left _ hq
  · have hids := h.ids
    rw [requestsFor, henq, List.filter_append, List.map_append] at hids
    exact (List.nodup_append.mp hids).1
  · rw [hdir]
    exact List.mem_append_left _ hq
  · rw [hdir]
    exact List.mem_append_right _ hq

/-- What holds after every run. -/
structure RunInv (codec : Bincode) (r : RecordKey) (trace : List WriteBehindEvent)
    (s : WriteBehind) : Prop where
  system : SystemInv s.backlog
  logs : List.Forall₂ (LogsRequest codec) s.backlog.log (enqueuedRequests trace)
  joint : QueuedOnly codec r trace → s.backlog.redis.fenceSequence < 2 ^ 53 → Joint codec r s

theorem RunInv.sane {trace : List WriteBehindEvent} {s : WriteBehind}
    (h : RunInv codec r trace s) (hq : QueuedOnly codec r trace)
    (hfence : s.backlog.redis.fenceSequence < 2 ^ 53) : Sane codec r s where
  logged e he := by
    obtain ⟨q, -, hrest⟩ := logged_of_mem h.logs hq.codec he
    exact ⟨q, hrest⟩
  ids := distinctIds_of_nodup h.logs hq.codec hq.ids
  fence := hfence

theorem init_runInv : RunInv codec r [] {} where
  system := init_systemInv
  logs := .nil
  joint _ _ := by
    refine ⟨⟨?_, ?_⟩, ?_, ?_⟩
    · intro row hrow
      cases hrow
    · intro id receipt hid
      cases hid
    · intro c hc
      cases hc
    · intro _ e hlast
      cases hlast

theorem run_joint {trace : List WriteBehindEvent} {s : WriteBehind}
    (hrun : run (WriteBehind.step codec) {} trace = some s) : RunInv codec r trace s := by
  refine run_history (P := RunInv codec r) init_runInv ?_ hrun
  intro es m e t _ h hstep
  have hlogs := step_logs h.logs hstep
  rw [show enqueuedRequests es ++ e.enqueued = enqueuedRequests (es ++ [e]) by
    simp [enqueuedRequests]] at hlogs
  refine ⟨step_systemInv_joint h.system hstep, hlogs, fun hq hfence => ?_⟩
  obtain ⟨hq', hdirect⟩ := hq.init
  have hfence' : m.backlog.redis.fenceSequence < 2 ^ 53 := by
    rcases step_backlog hstep with ⟨b, -, hb⟩ | ⟨-, hsame⟩
    · exact step_fence hb hfence
    · exact hsame ▸ hfence
  exact (step_joint h.system (h.sane hq' hfence') (h.joint hq' hfence') hdirect hstep).1

/-- Entries of an increasing log with one sequence are the same. -/
theorem eq_of_sequence {log : List LoggedEntry} (hinc : (log.map (·.sequence)).Pairwise (· < ·))
    {e e' : LoggedEntry} (he : e ∈ log) (he' : e' ∈ log) (h : e.sequence = e'.sequence) :
    e = e' :=
  List.inj_on_of_nodup_map (hinc.imp ne_of_lt) he he' h

/-- No entry of a member has a larger sequence than the newest one. -/
theorem le_lastLogged {m : String} {log : List LoggedEntry}
    (hinc : (log.map (·.sequence)).Pairwise (· < ·)) {e last : LoggedEntry} (he : e ∈ log)
    (hm : e.member = m) (hlast : lastLogged m log = some last) : e.sequence ≤ last.sequence := by
  have hin : e ∈ log.filter (·.member = m) := List.mem_filter.mpr ⟨he, by simp [hm]⟩
  have hsorted : (log.filter (·.member = m)).Pairwise fun a b => a.sequence < b.sequence :=
    (List.pairwise_map.mp hinc).filter _
  obtain ⟨init, hinit⟩ := List.getLast?_eq_some_iff.mp hlast
  rw [hinit] at hin hsorted
  rcases List.mem_append.mp hin with hin | hin
  · exact le_of_lt ((List.pairwise_append.mp hsorted).2.2 e hin last (List.mem_singleton_self _))
  · rw [List.mem_singleton.mp hin]

/-- **Write-behind never regresses and never loses the last value.** -/
theorem write_behind_never_regresses (codec : Bincode) (r : RecordKey)
    (trace : List WriteBehindEvent) (s : WriteBehind)
    (hrun : run (WriteBehind.step codec) {} trace = some s) (hqueued : QueuedOnly codec r trace)
    (hfence : s.backlog.redis.fenceSequence < 2 ^ 53) :
    (List.Forall₂ (LogsRequest codec) s.backlog.log (enqueuedRequests trace) ∧
      (s.backlog.log.map (·.sequence)).Pairwise (· < ·)) ∧
    (∀ row, s.pg.snapshots r = some row →
      ∃ e ∈ s.backlog.log, ∃ q ∈ requestsFor r trace, LogsRequest codec e q ∧
        row.queuedSequence = some e.sequence ∧ row.payload = q.payload) ∧
    (∀ event s', s.step codec event = some s' → (∀ q ∈ event.directWrites, q.record ≠ r) →
      s'.pg.snapshots r = s.pg.snapshots r ∨
        ∃ n', s'.pg.queuedSequence r = some n' ∧ ∀ n, s.pg.queuedSequence r = some n → n < n') ∧
    (s.backlog.redis.entries (entryKey (member r)) = none →
      ∀ q, (requestsFor r trace).getLast? = some q →
        ∃ row, s.pg.snapshots r = some row ∧ row.payload = q.payload ∧
          row.schema = q.schema ∧ row.schemaVersion = q.schemaVersion ∧
          row.updatedAtUnixMs = q.updatedAtUnixMs) := by
  have hinv := run_joint (r := r) hrun
  have hsane := hinv.sane hqueued hfence
  have hjoint := hinv.joint hqueued hfence
  have hinc := (hinv.system.increasing hfence).1
  -- the request of a log entry is determined by its bytes
  have hrequest : ∀ {e q}, e ∈ s.backlog.log → Logged codec r e q → q ∈ requestsFor r trace := by
    intro e q he hq
    obtain ⟨q', hq', hlog', hround'⟩ := logged_of_mem hinv.logs hqueued.codec he
    have hsame : q' = q := by
      have hdecode := hround'
      rw [Bincode.RoundTrips, ← hlog'.2, hq.logs.2, hq.roundTrips] at hdecode
      exact (Except.ok.inj hdecode).symm
    rw [← hsame, requestsFor, List.mem_filter, hsame]
    exact ⟨hsame ▸ hq', by simp [hq.record]⟩
  refine ⟨⟨hinv.logs, hinc⟩, fun row hrow => ?_, fun event s' hstep hdirect => ?_,
    fun hnone q hq => ?_⟩
  · obtain ⟨e, he, q, hq, hval⟩ := hjoint.pg.row row hrow
    refine ⟨e, he, q, hrequest he hq, hq.logs, ?_, ?_⟩
    · rw [hval]
      rfl
    · rw [hval]
      rfl
  · exact (step_joint hinv.system hsane hjoint hdirect hstep).2
  · obtain ⟨last, hlast, hlogs⟩ := getLast_forall₂ (forall₂_requestsFor hinv.logs) hq
    have hround : codec.RoundTrips q := by
      have := List.mem_of_getLast? hq
      exact hqueued.codec q (List.mem_of_mem_filter this)
    obtain ⟨k, hk, hle⟩ := hjoint.drained hnone last hlast
    obtain ⟨row, hrow, hk⟩ := Option.bind_eq_some_iff.mp hk
    obtain ⟨e, he, q', hq', hval⟩ := hjoint.pg.row row hrow
    -- the row's sequence is at most that of the newest enqueue, so it is that one
    have hseq : row.queuedSequence = some e.sequence := by
      rw [hval]
      rfl
    have hke : k = e.sequence := Option.some.inj (hk.symm.trans hseq)
    have hmax := le_lastLogged hinc he hq'.member hlast
    have heq : e = last := eq_of_sequence hinc he (mem_of_lastLogged hlast).1 (by omega)
    have hqq : q' = q := by
      have hdecode := hq'.roundTrips
      rw [Bincode.RoundTrips, ← hq'.logs.2, heq, hlogs.2, hround] at hdecode
      exact (Except.ok.inj hdecode).symm
    rw [hqq] at hval
    refine ⟨row, hrow, ?_⟩
    rw [hval]
    exact ⟨rfl, rfl, rfl, rfl⟩

end Runs

/-! ### A stale worker -/

def sampleNewer : SnapshotWrite := { sampleQueued with requestId := "r-2", payload := [8] }

def staleClaim : ClaimedEntry :=
  ⟨"6:player:1:1", "1", sequencedEntry 1000000 (smallBincode sampleQueued)⟩

def newerClaim : ClaimedEntry :=
  ⟨"6:player:1:1", "2", sequencedEntry 1000001 (smallBincode sampleNewer)⟩

/-- A newer save overtakes a claimed one: its clock runs backwards, the first lease expires,
and the first worker flushes after everything was acknowledged. -/
def staleTrace : List WriteBehindEvent :=
  [.backlog (.enqueue ⟨1, 0, by decide⟩ 0 [sampleQueued]),
    .backlog (.claimMulti ⟨1, 0, by decide⟩ 1000 64),
    .backlog (.enqueue ⟨0, 5, by decide⟩ 0 [sampleNewer]),
    .backlog (.claimMulti ⟨9, 0, by decide⟩ 1000 64),
    .flush [newerClaim] .lost,
    .flush [newerClaim] .delivered,
    .cleanup ["r-2"],
    .backlog (.ackMulti 0 [newerClaim]),
    .flush [staleClaim] .delivered]

/-- After this run the row holds the newer save, although the older one was flushed last. -/
theorem write_behind_never_regresses_sample :
    ∃ s, run (WriteBehind.step smallCodec) {} staleTrace = some s ∧
      s.backlog.redis.entries (entryKey (member sampleNewer.record)) = none ∧
      staleClaim ∈ s.flushed ∧
      ∃ row, s.pg.snapshots sampleNewer.record = some row ∧ row.payload = [8] := by
  have hreach : ∃ s, run (WriteBehind.step smallCodec) {} staleTrace = some s ∧
      s.backlog.redis.fenceSequence < 2 ^ 53 ∧
      s.backlog.redis.entries (entryKey (member sampleNewer.record)) = none ∧
      staleClaim ∈ s.flushed :=
    exists_of_any (by decide +kernel)
  obtain ⟨s, hs, hfence, hnone, hstale⟩ := hreach
  have hqueued : QueuedOnly smallCodec sampleNewer.record staleTrace :=
    ⟨by decide +kernel, by decide +kernel, by decide⟩
  obtain ⟨row, hrow, hpayload, -⟩ :=
    (write_behind_never_regresses smallCodec _ _ s hs hqueued hfence).2.2.2 hnone sampleNewer
      (by decide +kernel)
  exact ⟨s, hs, hnone, hstale, row, hrow, hpayload⟩

end DbProxy
