/-
Write-behind with both flush paths and with entries from before the upgrade.

`FlushInv` relates, for one record, the log of its enqueues to its entry in
Redis, to what workers hold and may acknowledge, and to its row.  Scripts and
enqueues keep it in any order; a flush keeps it as long as it is in order
(`flush_inv`).

* `mixed_workers_never_regress` — sequenced entries and workers of both kinds:
  safe in every run whose flushes meet `OnceInOrder`;
  `once_flush_regresses` is a run that does not;
* `mixed_versions_keep_last` — entries with and without a sequence and fenced
  flushes: safe in every run whose flushes meet `LegacyInOrder`;
  `legacy_enqueues_lost` has two runs that do not.
-/
import DbProxy.FlushPaths
import DbProxy.Scatter

namespace DbProxy

open RedisSnapshotBacklog StepMachine

/-! ### Places in the log -/

section Log

variable {r : RecordKey} {log new : List QueuedEntry} {pg : Postgres} {o : Option ℕ}
  {codec : Bincode}

theorem At.append {i : ℕ} {e : QueuedEntry} (h : At log r i e) (new : List QueuedEntry) :
    At (log ++ new) r i e := by
  have hi : i < log.length := (List.getElem?_eq_some_iff.mp h.get).1
  exact ⟨by rw [List.getElem?_append_left hi, h.get], h.record⟩

theorem At.lt {i : ℕ} {e : QueuedEntry} (h : At log r i e) : i < log.length :=
  (List.getElem?_eq_some_iff.mp h.get).1

theorem At.mem {i : ℕ} {e : QueuedEntry} (h : At log r i e) : e ∈ log :=
  List.mem_of_getElem? h.get

/-- An entry behind one more enqueue. -/
theorem At.of_concat {i : ℕ} {e e' : QueuedEntry} (h : At (log ++ [e']) r i e) :
    At log r i e ∨ i = log.length ∧ e = e' := by
  by_cases hi : i < log.length
  · exact Or.inl ⟨by rw [← h.get, List.getElem?_append_left hi], h.record⟩
  · have hlt := h.lt
    rw [List.length_append, List.length_singleton] at hlt
    obtain rfl : i = log.length := by omega
    refine Or.inr ⟨rfl, ?_⟩
    have hget := h.get
    rw [List.getElem?_concat_length, Option.some_inj] at hget
    exact hget.symm

theorem PgAt.append (h : PgAt r log pg o) (new : List QueuedEntry) : PgAt r (log ++ new) pg o where
  row row hrow := by
    obtain ⟨i, e, ho, hat, hval⟩ := h.row row hrow
    exact ⟨i, e, ho, hat.append new, hval⟩
  empty := h.empty
  queued k hk := by
    obtain ⟨j, e, hat, hrest⟩ := h.queued k hk
    exact ⟨j, e, hat.append new, hrest⟩
  receipt id receipt hid hr := by
    obtain ⟨i, e, hat, hrest⟩ := h.receipt id receipt hid hr
    exact ⟨i, e, hat.append new, hrest⟩

/-- The enqueue whose value the row holds. -/
theorem PgAt.stored (h : PgAt r log pg o) {i : ℕ} (hi : o = some i) : ∃ e, At log r i e := by
  cases hrow : pg.snapshots r with
  | none =>
    rw [h.empty hrow] at hi
    cases hi
  | some row =>
    obtain ⟨j, e, hj, hat, -⟩ := h.row row hrow
    obtain rfl : j = i := Option.some.inj (hj.symm.trans hi)
    exact ⟨e, hat⟩

theorem Fenced.append (h : Fenced r log pg o) (hpg : PgAt r log pg o) (new : List QueuedEntry) :
    Fenced r (log ++ new) pg o := by
  intro i e hi hat
  obtain ⟨e', hat'⟩ := hpg.stored hi
  rw [hat.unique (hat'.append new)]
  exact h i e' hi hat'

/-! ### What the stored bytes say -/

/-- What the assumptions about a run say about its log. -/
structure LogSane (codec : Bincode) (r : RecordKey) (log : List QueuedEntry) : Prop where
  roundTrips : ∀ e ∈ log, codec.RoundTrips e.request
  untagged : ∀ e ∈ log, sequencedEntryTag.isPrefixOf (codec.encode e.request) = false
  small : ∀ e ∈ log, ∀ n, e.sequence = some n → n < bigintLimit
  ids : IdsOnce r log

theorem LogSane.decode (h : LogSane codec r log) {e : QueuedEntry} (he : e ∈ log) :
    decodeEntry codec (e.frame codec) = .ok (e.sequence, e.request) := by
  rw [QueuedEntry.frame]
  split
  · rename_i n hn
    rw [decodeEntry_sequencedEntry (h.small e he n hn) (h.roundTrips e he), hn]
  · rename_i hn
    have hround := h.roundTrips e he
    rw [Bincode.RoundTrips] at hround
    rw [decodeEntry, h.untagged e he, if_neg (by simp), decodeRequest, hround, hn]
    rfl

/-- The bytes of an enqueue of `r` are those of no other enqueue of the log. -/
theorem LogSane.frame_inj (h : LogSane codec r log) {i j : ℕ} {e e' : QueuedEntry}
    (hat : At log r i e) (hget : log[j]? = some e') (hframe : e'.frame codec = e.frame codec) :
    j = i := by
  have hdecode := h.decode (List.mem_of_getElem? hget)
  rw [hframe, h.decode hat.mem] at hdecode
  obtain ⟨-, hrequest⟩ := Prod.mk.inj (Except.ok.inj hdecode)
  exact h.ids j i e' e ⟨hget, by rw [← hrequest, hat.record]⟩ hat (by rw [hrequest])

theorem decodeLease_ok {c : ClaimedEntry} {lease : SnapshotBacklogLease}
    (h : decodeLease codec c = .ok lease) :
    lease.toClaimedEntry = c ∧
      decodeEntry codec c.encoded = .ok (lease.fenceSequence, lease.request) ∧
      member lease.request.record = c.member := by
  rw [decodeLease] at h
  obtain ⟨⟨fenceSequence, request⟩, hdecode, h⟩ := Checks.bind_eq_ok.mp h
  dsimp only at h
  split at h
  · cases h
  · rename_i hmember
    cases h
    exact ⟨rfl, hdecode, not_not.mp hmember⟩

end Log

/-! ### The entry in Redis -/

section Entry

variable {r : RecordKey} {log : List QueuedEntry} {o : Option ℕ} {codec : Bincode}

/-- The entry of `r` is that of its newest enqueue; without one the row has reached every
enqueue. -/
structure BacklogAt (codec : Bincode) (r : RecordKey) (b : Backlog) (log : List QueuedEntry)
    (o : Option ℕ) : Prop where
  entry : ∀ bytes, b.entries (entryKey (member r)) = some bytes →
    ∃ i e, At log r i e ∧ (∀ j e', At log r j e' → j ≤ i) ∧ bytes = e.frame codec
  drained : b.entries (entryKey (member r)) = none → ∀ i e, At log r i e → Holds o i

/-- One enqueue, of either kind. -/
theorem BacklogAt.enqueueOne {b b' : Backlog} {sequence : Option ℕ} {q : SnapshotWrite}
    (h : BacklogAt codec r b log o)
    (hentries : b'.entries = Function.update b.entries (entryKey (member q.record))
      (some (QueuedEntry.frame codec ⟨sequence, q⟩))) :
    BacklogAt codec r b' (log ++ [⟨sequence, q⟩]) o := by
  by_cases hr : q.record = r
  · -- the new entry is the newest one of `r`
    have hnew : b'.entries (entryKey (member r)) =
        some (QueuedEntry.frame codec ⟨sequence, q⟩) := by
      rw [hentries, hr, Function.update_self]
    refine ⟨fun bytes hbytes => ?_, fun hnone => ?_⟩
    · rw [hnew, Option.some_inj] at hbytes
      refine ⟨log.length, ⟨sequence, q⟩, ⟨List.getElem?_concat_length, hr⟩, fun j e' hat => ?_,
        hbytes.symm⟩
      have hlt := hat.lt
      rw [List.length_append, List.length_singleton] at hlt
      omega
    · rw [hnew] at hnone
      cases hnone
  · have hsame : b'.entries (entryKey (member r)) = b.entries (entryKey (member r)) := by
      rw [hentries, Function.update_of_ne]
      intro heq
      exact hr (member_injective (entryKey_injective heq)).symm
    have hold : ∀ {j e'}, At (log ++ [⟨sequence, q⟩]) r j e' → At log r j e' := by
      intro j e' hat
      rcases hat.of_concat with hat' | ⟨-, rfl⟩
      · exact hat'
      · exact absurd hat.record hr
    refine ⟨fun bytes hbytes => ?_, fun hnone i e hat => ?_⟩
    · obtain ⟨i, e, hat, hnewest, hframe⟩ := h.entry bytes (hsame ▸ hbytes)
      exact ⟨i, e, hat.append _, fun j e' hat' => hnewest j e' (hold hat'), hframe⟩
    · exact h.drained (hsame ▸ hnone) i e (hold hat)

/-- The enqueue script. -/
theorem enqueueLoop_backlogAt {score now : ℕ} :
    ∀ {requests : List SnapshotWrite} {entries : List EnqueueEntry} {sequence : ℕ} {b : Backlog}
      {log : List QueuedEntry},
      List.Forall₂ (fun q entry => prepare codec.encode q = .ok entry) requests entries →
      BacklogAt codec r b log o →
      BacklogAt codec r (b.enqueueLoop score now sequence entries)
        (log ++ sequencedLog now sequence requests) o
  | [], _, sequence, b, log, hall, h => by
    rw [List.forall₂_nil_left_iff] at hall
    rw [hall, sequencedLog, List.append_nil]
    exact ⟨h.entry, h.drained⟩
  | q :: requests, _, sequence, b, log, hall, h => by
    obtain ⟨entry, entries, hentry, hrest, rfl⟩ := List.forall₂_cons_left_iff.mp hall
    rw [sequencedLog, Backlog.enqueueLoop, List.append_cons]
    refine enqueueLoop_backlogAt hrest (h.enqueueOne ?_)
    rw [(prepare_ok hentry).2]
    rfl

/-- Entries that only disappear, and none without a reason. -/
theorem BacklogAt.shrink {b b' : Backlog} (h : BacklogAt codec r b log o)
    (hshrink : ∀ bytes, b'.entries (entryKey (member r)) = some bytes →
      b.entries (entryKey (member r)) = some bytes)
    (hgone : ∀ bytes, b.entries (entryKey (member r)) = some bytes →
      b'.entries (entryKey (member r)) = none → ∀ i e, At log r i e → Holds o i) :
    BacklogAt codec r b' log o where
  entry bytes hbytes := h.entry bytes (hshrink bytes hbytes)
  drained hnone := by
    cases hbefore : b.entries (entryKey (member r)) with
    | none => exact h.drained hbefore
    | some bytes => exact hgone bytes hbefore hnone

/-- A claim returns what is stored. -/
theorem claimMultiLoop_stored {deadline claimLimit : ℕ} :
    ∀ {rounds : ℕ} {claimed : List ClaimedEntry} {b : Backlog},
      ∀ c ∈ (b.claimMultiLoop deadline claimLimit rounds claimed).1,
        c ∈ claimed ∨ b.entries (entryKey c.member) = some c.encoded := by
  intro rounds
  induction rounds with
  | zero =>
    intro claimed b c hc
    exact Or.inl hc
  | succ rounds ih =>
    intro claimed b c hc
    rw [Backlog.claimMultiLoop] at hc
    split at hc
    · exact Or.inl hc
    · split at hc
      · exact Or.inl hc
      · rename_i entry b' hnext
        obtain ⟨hentry, -, -, hentries, -⟩ := claimNext_lease hnext
        rcases ih c hc with hc | hc
        · rcases List.mem_append.mp hc with hc | hc
          · exact Or.inl hc
          · exact Or.inr (List.mem_singleton.mp hc ▸ hentry)
        · exact Or.inr (hentries ▸ hc)
      · rename_i b' hnext
        rcases ih c hc with hc | hc
        · exact Or.inl hc
        · exact Or.inr ((claimNext_sameEntries hnext).1 ▸ hc)

/-- Every script but an enqueue: entries only disappear, and a new tuple carries what is
stored. -/
theorem step_scripts {encode : SnapshotWrite → Bytes} {b b' : BacklogSystem} {e : BacklogEvent}
    (hstep : b.step encode e = some b')
    (hother : ∀ clock score requests, e ≠ .enqueue clock score requests) :
    (∀ k bytes, b'.redis.entries k = some bytes → b.redis.entries k = some bytes) ∧
      ∀ c, b'.wasIssued c →
        b.wasIssued c ∨ b.redis.entries (entryKey c.member) = some c.encoded := by
  have hclaim : ∀ {now deadline claimLimit rounds : ℕ}, b' = b.claimed
      ((b.redis.reclaimExpired now).claimMultiLoop deadline claimLimit rounds []) →
      (∀ k bytes, b'.redis.entries k = some bytes → b.redis.entries k = some bytes) ∧
        ∀ c, b'.wasIssued c →
          b.wasIssued c ∨ b.redis.entries (entryKey c.member) = some c.encoded := by
    rintro now deadline claimLimit rounds rfl
    have hsame := reclaimExpired_sameEntries now b.redis
    refine ⟨fun k bytes hbytes => ?_, fun c hc => ?_⟩
    · rw [BacklogSystem.claimed, (hsame.trans (claimMultiLoop_sameEntries ..)).1] at hbytes
      exact hbytes
    · rw [BacklogSystem.wasIssued, BacklogSystem.claimed, List.any_append, Bool.or_eq_true] at hc
      rcases hc with hc | hc
      · exact Or.inl hc
      · obtain ⟨x, hx, hxc⟩ := List.any_eq_true.mp hc
        obtain ⟨c', hc', rfl⟩ := List.mem_map.mp hx
        obtain rfl : c' = c := by simpa using hxc
        rcases claimMultiLoop_stored c' hc' with hnil | hstored
        · cases hnil
        · exact Or.inr (hsame.1 ▸ hstored)
  have htidy : ∀ {redis : Backlog}, Tidies b.redis redis → b' = { b with redis } →
      (∀ k bytes, b'.redis.entries k = some bytes → b.redis.entries k = some bytes) ∧
        ∀ c, b'.wasIssued c →
          b.wasIssued c ∨ b.redis.entries (entryKey c.member) = some c.encoded := by
    rintro redis ht rfl
    exact ⟨ht.shrinks.entries, fun c hc => Or.inl hc⟩
  cases e with
  | enqueue clock score requests => exact absurd rfl (hother clock score requests)
  | claim clock leaseMs =>
    simp only [BacklogSystem.step, Option.ite_none_right_eq_some, Option.some.injEq] at hstep
    obtain ⟨-, hstep⟩ := hstep
    rw [Backlog.claimScript, ← claimLoop_eq] at hstep
    exact hclaim hstep.symm
  | claimMulti clock leaseMs maxItems =>
    simp only [BacklogSystem.step, Option.ite_none_right_eq_some, Option.some.injEq] at hstep
    exact hclaim hstep.2.symm
  | ack now lease =>
    simp only [BacklogSystem.step, Option.ite_none_right_eq_some, Option.some.injEq] at hstep
    exact htidy (ackScript_tidies ..) hstep.2.symm
  | ackMulti now leases =>
    simp only [BacklogSystem.step, Option.ite_none_right_eq_some, Option.some.injEq] at hstep
    exact htidy (ackMultiScript_tidies ..) hstep.2.symm
  | release now lease =>
    simp only [BacklogSystem.step, Option.ite_none_right_eq_some, Option.some.injEq] at hstep
    exact htidy (releaseScript_tidies ..) hstep.2.symm
  | releaseMulti now leases =>
    simp only [BacklogSystem.step, Option.ite_none_right_eq_some, Option.some.injEq] at hstep
    exact htidy (releaseMultiScript_tidies ..) hstep.2.symm
  | renew clock leaseMs lease =>
    simp only [BacklogSystem.step, Option.ite_none_right_eq_some, Option.some.injEq] at hstep
    exact htidy (renewScript_tidies ..) hstep.2.symm

end Entry

/-! ### The invariant -/

structure FlushInv (codec : Bincode) (r : RecordKey) (s : FlushSystem) : Prop where
  backlog : BacklogAt codec r s.backlog.redis s.log (s.stored r)
  issued : ∀ c, s.backlog.wasIssued c → c.member = member r →
    ∃ i e, At s.log r i e ∧ c.encoded = e.frame codec
  pg : PgAt r s.log s.pg (s.stored r)
  /-- what a worker may acknowledge has reached the row -/
  flushed : ∀ c ∈ s.flushed, c.member = member r →
    ∃ i e, At s.log r i e ∧ c.encoded = e.frame codec ∧ Holds (s.stored r) i

section Steps

variable {codec : Bincode} {r : RecordKey} {s s' : FlushSystem}

/-- A script other than an enqueue removes the entry only for a flushed lease. -/
theorem script_inv {e : BacklogEvent} {b : BacklogSystem} (hsane : LogSane codec r s.log)
    (h : FlushInv codec r s) (hack : ∀ lease ∈ e.acknowledged, lease ∈ s.flushed)
    (hother : ∀ clock score requests, e ≠ .enqueue clock score requests)
    (hstep : s.backlog.step codec.encode e = some b) :
    FlushInv codec r { s with backlog := b } := by
  obtain ⟨hshrink, hissued⟩ := step_scripts hstep hother
  refine ⟨h.backlog.shrink (hshrink _) fun bytes hbefore hnone i e' hat => ?_,
    fun c hc hmember => ?_, h.pg, h.flushed⟩
  · obtain ⟨lease, hlease, hmember, -, hencoded⟩ := step_removes hstep hbefore hnone
    obtain ⟨j, f, hatj, hframe, hholds⟩ := h.flushed lease (hack lease hlease) hmember
    obtain ⟨k, g, hatk, hnewest, hbytes⟩ := h.backlog.entry bytes hbefore
    -- the acknowledged bytes are those of the newest enqueue
    have hjk : j = k := hsane.frame_inj hatk hatj.get (by rw [← hframe, hencoded, hbytes])
    obtain ⟨m, hm, hjm⟩ := hholds
    exact ⟨m, hm, le_trans (hnewest i e' hat) (hjk ▸ hjm)⟩
  · rcases hissued c hc with hc | hstored
    · exact h.issued c hc hmember
    · rw [hmember] at hstored
      obtain ⟨i, e', hat, -, hbytes⟩ := h.backlog.entry _ hstored
      exact ⟨i, e', hat, hbytes⟩

/-- Enqueues of either kind. -/
theorem FlushInv.enqueue {backlog : BacklogSystem} {new : List QueuedEntry}
    (h : FlushInv codec r s) (hissued : backlog.issued = s.backlog.issued)
    (hbacklog : BacklogAt codec r backlog.redis (s.log ++ new) (s.stored r)) :
    FlushInv codec r { s with backlog, log := s.log ++ new } := by
  refine ⟨hbacklog, fun c hc hmember => ?_, h.pg.append new, fun c hc hmember => ?_⟩
  · rw [BacklogSystem.wasIssued, hissued] at hc
    obtain ⟨i, e, hat, hframe⟩ := h.issued c hc hmember
    exact ⟨i, e, hat.append new, hframe⟩
  · obtain ⟨i, e, hat, hrest⟩ := h.flushed c hc hmember
    exact ⟨i, e, hat.append new, hrest⟩

/-- What a claimed tuple of `r` decodes to. -/
theorem leaseAt_of_issued {c : ClaimedEntry} {lease : SnapshotBacklogLease}
    (hsane : LogSane codec r s.log) (h : FlushInv codec r s) (hissued : s.backlog.wasIssued c)
    (hdecode : decodeLease codec c = .ok lease) (hr : lease.request.record = r) :
    ∃ i e, LeaseAt codec s.log r lease i e ∧ s.position codec lease = some i := by
  obtain ⟨hclaimed, hentry, hmember⟩ := decodeLease_ok hdecode
  obtain ⟨i, e, hat, hframe⟩ := h.issued c hissued (by rw [← hmember, hr])
  rw [hframe, hsane.decode hat.mem] at hentry
  obtain ⟨hsequence, hrequest⟩ := Prod.mk.inj (Except.ok.inj hentry)
  have hencoded : lease.encoded = e.frame codec := by
    rw [← hframe, ← hclaimed]
  refine ⟨i, e, ⟨hat, hrequest.symm, hsequence.symm, hencoded⟩, ?_⟩
  rw [FlushSystem.position, List.findIdx?_eq_some_iff_getElem]
  obtain ⟨hi, hget⟩ := List.getElem?_eq_some_iff.mp hat.get
  refine ⟨hi, by simp [hget, hencoded], fun j hj hframe' => ?_⟩
  -- no earlier entry has these bytes
  have hij : j = i := by
    refine hsane.frame_inj hat (List.getElem?_eq_getElem (by omega)) ?_
    rw [← hencoded]
    simpa using hframe'
  omega

/-! ### A flush -/

section Noted

variable {stored : RecordKey → Option ℕ}
  {pairs : List (SnapshotBacklogLease × Except BackendError SnapshotWriteOutcome)}

theorem noteWrites_others (hothers : ∀ lease revision,
    (lease, .ok (.applied revision)) ∈ pairs → lease.request.record ≠ r) :
    s.noteWrites codec stored pairs r = stored r := by
  fun_induction FlushSystem.noteWrites codec s stored pairs with
  | case1 stored => rfl
  | case2 stored lease revision rest ih =>
    rw [ih fun lease' revision' hpair => hothers lease' revision' (List.mem_cons_of_mem _ hpair),
      Function.update_of_ne (hothers lease revision (List.mem_cons_self ..)).symm]
  | case3 stored pair rest _ ih =>
    exact ih fun lease' revision' hpair => hothers lease' revision' (List.mem_cons_of_mem _ hpair)

theorem noteWrites_applied {lease : SnapshotBacklogLease} {revision : Revision}
    (hnodup : (pairs.map (·.1.request.record)).Nodup)
    (hpair : (lease, .ok (.applied revision)) ∈ pairs) :
    s.noteWrites codec stored pairs lease.request.record = s.position codec lease := by
  fun_induction FlushSystem.noteWrites codec s stored pairs with
  | case1 stored => cases hpair
  | case2 stored first revision' rest ih =>
    rw [List.map_cons, List.nodup_cons] at hnodup
    rcases List.mem_cons.mp hpair with heq | hpair
    · -- nothing after the first lease is about its record
      obtain ⟨rfl, -⟩ := Prod.mk.inj heq
      rw [noteWrites_others, Function.update_self]
      intro lease' _ hpair' heq'
      exact hnodup.1 (List.mem_map.mpr ⟨_, hpair', heq'⟩)
    · exact ih hnodup.2 hpair
  | case3 stored pair rest hskip ih =>
    rw [List.map_cons, List.nodup_cons] at hnodup
    rcases List.mem_cons.mp hpair with rfl | hpair
    · exact absurd rfl (hskip lease revision)
    · exact ih hnodup.2 hpair

end Noted

/-- The row of `r` stays, or holds the value of no earlier enqueue than before. -/
def Forward (r : RecordKey) (s s' : FlushSystem) : Prop :=
  s'.pg.snapshots r = s.pg.snapshots r ∨
    ∃ m', s'.stored r = some m' ∧ ∀ m, s.stored r = some m → m ≤ m'

/-- The ghost follows the row. -/
theorem noteWrites_saved {leases : List SnapshotBacklogLease} {pg' : Postgres} {o' : Option ℕ}
    {outcomes : List (Except BackendError SnapshotWriteOutcome)} (hsane : LogSane codec r s.log)
    (hnodup : (leases.map (·.request.record)).Nodup)
    (hleases : ∀ lease ∈ leases, lease.request.record = r →
      ∃ i e, LeaseAt codec s.log r lease i e ∧ s.position codec lease = some i)
    (hsaved : LeasesSaved codec r s.log s.pg pg' (s.stored r) o' (leases.zip outcomes)) :
    s.noteWrites codec s.stored (leases.zip outcomes) r = o' := by
  have hpairs : ((leases.zip outcomes).map (·.1.request.record)).Nodup := by
    have hsub := (Scatter.map_fst_zip_sublist leases outcomes).map (·.request.record)
    rw [List.map_map] at hsub
    exact hnodup.sublist hsub
  rcases hsaved.noted with ⟨rfl, -, hothers⟩ | ⟨lease, revision, i, e, hpair, hat, rfl⟩
  · exact noteWrites_others hothers
  · have hr : lease.request.record = r := by rw [hat.request, hat.record]
    obtain ⟨j, e', hat', hposition⟩ := hleases lease (List.of_mem_zip hpair).1 hr
    have hji : j = i := hsane.ids j i e' e hat'.toAt hat.toAt (by rw [← hat'.request, hat.request])
    rw [← hr, noteWrites_applied hpairs hpair, hposition, hji]

/-- **A flush in order**: what it saved moves the row forward, and what it tells its worker
has reached the row. -/
theorem flush_inv {leases : List SnapshotBacklogLease} {pg' : Postgres} {o' : Option ℕ}
    {outcomes : List (Except BackendError SnapshotWriteOutcome)} (hsane : LogSane codec r s.log)
    (h : FlushInv codec r s) (hnodup : (leases.map (·.request.record)).Nodup)
    (hmembers : ∀ lease ∈ leases, member lease.request.record = lease.member)
    (hleases : ∀ lease ∈ leases, lease.request.record = r →
      ∃ i e, LeaseAt codec s.log r lease i e ∧ s.position codec lease = some i)
    (hsaved : LeasesSaved codec r s.log s.pg pg' (s.stored r) o' (leases.zip outcomes))
    (ending : FlushEnding) :
    FlushInv codec r (s.finishFlush codec leases (.ok outcomes, pg') ending) ∧
      Forward r s (s.finishFlush codec leases (.ok outcomes, pg') ending) := by
  have hstored := noteWrites_saved hsane hnodup hleases hsaved
  have hcommit : FlushInv codec r (s.commitFlush codec leases (.ok outcomes, pg')) := by
    refine ⟨⟨h.backlog.entry, fun hnone i e hat => ?_⟩, h.issued, ?_, fun c hc hmember => ?_⟩
    · show Holds (s.noteWrites codec s.stored (leases.zip outcomes) r) i
      rw [hstored]
      exact (h.backlog.drained hnone i e hat).grow hsaved.grows
    · show PgAt r s.log pg' (s.noteWrites codec s.stored (leases.zip outcomes) r)
      rw [hstored]
      exact hsaved.pgAt
    · obtain ⟨i, e, hat, hframe, hholds⟩ := h.flushed c hc hmember
      refine ⟨i, e, hat, hframe, ?_⟩
      show Holds (s.noteWrites codec s.stored (leases.zip outcomes) r) i
      rw [hstored]
      exact hholds.grow hsaved.grows
  have hforward : Forward r s (s.commitFlush codec leases (.ok outcomes, pg')) := by
    rcases hsaved.noted with ⟨-, hrow, -⟩ | ⟨lease, revision, i, e, -, -, rfl⟩
    · exact Or.inl hrow
    · refine Or.inr ⟨i, hstored, fun m hm => ?_⟩
      obtain ⟨m', hm', hle⟩ := hsaved.grows m hm
      obtain rfl : i = m' := Option.some.inj hm'
      exact hle
  cases ending with
  | rolledBack => exact ⟨h, Or.inl rfl⟩
  | lost => exact ⟨hcommit, hforward⟩
  | delivered =>
    refine ⟨⟨hcommit.backlog, hcommit.issued, hcommit.pg, fun c hc hmember => ?_⟩, hforward⟩
    rcases List.mem_append.mp hc with hc | hc
    · exact hcommit.flushed c hc hmember
    · -- a lease that was just committed
      obtain ⟨lease, hlease, rfl⟩ := List.mem_map.mp hc
      obtain ⟨⟨_, result⟩, hpair, rfl⟩ := List.mem_map.mp hlease
      obtain ⟨hpair, hok⟩ := List.mem_filter.mp hpair
      cases result with
      | error e => simp [Except.isOk, Except.toBool] at hok
      | ok outcome =>
        have hin := (List.of_mem_zip hpair).1
        have hr := member_injective ((hmembers _ hin).trans hmember)
        obtain ⟨i, e, hat, -⟩ := hleases _ hin hr
        refine ⟨i, e, hat.toAt, hat.encoded, ?_⟩
        show Holds (s.noteWrites codec s.stored (leases.zip outcomes) r) i
        rw [hstored]
        exact hsaved.reached _ outcome hpair i e hat

/-- The leases that a flush may hold: decoded from tuples that were issued. -/
structure Claimed (codec : Bincode) (s : FlushSystem) (leases : List SnapshotBacklogLease) :
    Prop where
  issued : ∀ lease ∈ leases, ∃ c, s.backlog.wasIssued c ∧ decodeLease codec c = .ok lease
  distinct : (leases.map (·.request.record)).Nodup

theorem Claimed.member {leases : List SnapshotBacklogLease} (h : Claimed codec s leases) :
    ∀ lease ∈ leases, member lease.request.record = lease.member := by
  intro lease hlease
  obtain ⟨c, -, hdecode⟩ := h.issued lease hlease
  obtain ⟨hclaimed, -, hmember⟩ := decodeLease_ok hdecode
  rw [hmember, ← hclaimed]

theorem Claimed.leaseAt {leases : List SnapshotBacklogLease} (h : Claimed codec s leases)
    (hsane : LogSane codec r s.log) (hinv : FlushInv codec r s) :
    ∀ lease ∈ leases, lease.request.record = r →
      ∃ i e, LeaseAt codec s.log r lease i e ∧ s.position codec lease = some i := by
  intro lease hlease hr
  obtain ⟨c, hissued, hdecode⟩ := h.issued lease hlease
  exact leaseAt_of_issued hsane hinv hissued hdecode hr

theorem claimed_batch {claimed : List ClaimedEntry} {leases : List SnapshotBacklogLease}
    (hissued : claimed.all s.backlog.wasIssued) (hdistinct : (claimed.map (·.member)).Nodup)
    (hdecode : claimed.mapM (decodeLease codec) = .ok leases) : Claimed codec s leases := by
  have hall := Checks.mapM_eq_ok.mp hdecode
  refine ⟨fun lease hlease => ?_, ?_⟩
  · obtain ⟨c, hc, hlease⟩ := Checks.exists_of_forall₂_right hall hlease
    exact ⟨c, List.all_eq_true.mp hissued c hc, hlease⟩
  · -- the members of the tuples are those of the records
    have hmembers : (leases.map (·.request.record)).map member = claimed.map (·.member) := by
      clear hdecode hissued hdistinct
      induction hall with
      | nil => rfl
      | cons hhead _ ih =>
        rw [List.map_cons, List.map_cons, List.map_cons, ih, (decodeLease_ok hhead).2.2]
    rw [← hmembers] at hdistinct
    exact hdistinct.of_map _

/-- A lone lease in order. -/
theorem flushOnce_inv {lease : SnapshotBacklogLease} (hsane : LogSane codec r s.log)
    (h : FlushInv codec r s) (hclaimed : Claimed codec s [lease])
    (horder : ∀ i e, LeaseAt codec s.log r lease i e → s.position codec lease = some i →
      s.pg.idempotency lease.request.requestId = none → InOrder s.pg r none i (s.stored r))
    (ending : FlushEnding) :
    FlushInv codec r (s.finishFlush codec [lease] (saveOnce lease s.pg) ending) ∧
      Forward r s (s.finishFlush codec [lease] (saveOnce lease s.pg) ending) := by
  have hleases := hclaimed.leaseAt hsane h
  obtain ⟨outcomes, pg', o', hsave, hsaved⟩ := saveOnce_pgAt codec lease hsane.ids h.pg
    fun hr => by
      obtain ⟨i, e, hat, hposition⟩ := hleases lease (List.mem_singleton_self _) hr
      exact ⟨i, e, hat, horder i e hat hposition⟩
  rw [hsave]
  exact flush_inv hsane h hclaimed.distinct hclaimed.member hleases hsaved ending

/-- A batch in order. -/
theorem flushBatch_inv {leases : List SnapshotBacklogLease} (hsane : LogSane codec r s.log)
    (h : FlushInv codec r s) (hclaimed : Claimed codec s leases)
    (horder : ∀ lease ∈ leases, ∀ i e, LeaseAt codec s.log r lease i e →
      s.position codec lease = some i → s.pg.idempotency lease.request.requestId = none →
      InOrder s.pg r (some e.fence) i (s.stored r)) (ending : FlushEnding) :
    (FlushInv codec r (s.finishFlush codec leases (saveBacklogLeases leases s.pg) ending) ∧
      Forward r s (s.finishFlush codec leases (saveBacklogLeases leases s.pg) ending)) ∧
    (Fenced r s.log s.pg (s.stored r) →
      Fenced r s.log (s.finishFlush codec leases (saveBacklogLeases leases s.pg) ending).pg
        ((s.finishFlush codec leases (saveBacklogLeases leases s.pg) ending).stored r)) := by
  have hleases := hclaimed.leaseAt hsane h
  rcases saveBacklogLeases_pgAt hsane.ids h.pg hclaimed.distinct fun lease hlease hr => by
      obtain ⟨i, e, hat, hposition⟩ := hleases lease hlease hr
      exact ⟨i, e, hat, horder lease hlease i e hat hposition⟩ with
    ⟨e, hsave⟩ | ⟨outcomes, pg', o', hsave, hsaved, hfenced⟩
  · -- rolled back by PostgreSQL
    rw [hsave]
    cases ending with
    | rolledBack => exact ⟨⟨h, Or.inl rfl⟩, id⟩
    | lost => exact ⟨⟨h, Or.inl rfl⟩, id⟩
    | delivered =>
      refine ⟨⟨⟨h.backlog, h.issued, h.pg, fun c hc => ?_⟩, Or.inl rfl⟩, id⟩
      rw [FlushSystem.finishFlush, FlushSystem.committedBy, List.append_nil] at hc
      exact h.flushed c hc
  · rw [hsave]
    refine ⟨flush_inv hsane h hclaimed.distinct hclaimed.member hleases hsaved ending, fun hf => ?_⟩
    have hstored := noteWrites_saved hsane hclaimed.distinct hleases hsaved
    have hcommitted : Fenced r s.log pg'
        (s.noteWrites codec s.stored (leases.zip outcomes) r) := hstored ▸ hfenced hf
    cases ending with
    | rolledBack => exact hf
    | lost => exact hcommitted
    | delivered => exact hcommitted

/-- A flush leaves the log and Redis alone. -/
theorem finishFlush_log (codec : Bincode) (s : FlushSystem) (leases : List SnapshotBacklogLease)
    (saved : FlushResult) (ending : FlushEnding) :
    (s.finishFlush codec leases saved ending).log = s.log ∧
      (s.finishFlush codec leases saved ending).backlog = s.backlog := by
  have hcommit : (s.commitFlush codec leases saved).log = s.log ∧
      (s.commitFlush codec leases saved).backlog = s.backlog := by
    obtain ⟨result, pg⟩ := saved
    cases result <;> exact ⟨rfl, rfl⟩
  cases ending with
  | rolledBack => exact ⟨rfl, rfl⟩
  | lost => exact hcommit
  | delivered => exact hcommit

/-- The flushes of an event are in order. -/
def EventInOrder (codec : Bincode) (r : RecordKey) (s : FlushSystem) : FlushEvent → Prop
  | .flushOnce claimed ending => ending = .rolledBack ∨
    ∀ lease, decodeLease codec claimed = .ok lease → ∀ i e, LeaseAt codec s.log r lease i e →
      s.position codec lease = some i → s.pg.idempotency lease.request.requestId = none →
      InOrder s.pg r none i (s.stored r)
  | .flushBatch claimed ending => ending = .rolledBack ∨
    ∀ c ∈ claimed, ∀ lease, decodeLease codec c = .ok lease → ∀ i e,
      LeaseAt codec s.log r lease i e → s.position codec lease = some i →
      s.pg.idempotency lease.request.requestId = none →
      InOrder s.pg r (some e.fence) i (s.stored r)
  | _ => True

/-- An enqueue of the scripts or of an older instance. -/
theorem step_enqueues {e : FlushEvent} (h : FlushInv codec r s)
    (hstep : s.step codec e = some s')
    (hkind : (∃ clock score requests, e = .backlog (.enqueue clock score requests)) ∨
      ∃ score request, e = .legacyEnqueue score request) :
    FlushInv codec r s' ∧ s'.pg = s.pg ∧ s'.stored = s.stored ∧
      ∃ new, s'.log = s.log ++ new := by
  rcases hkind with ⟨clock, score, requests, rfl⟩ | ⟨score, request, rfl⟩
  · simp only [FlushSystem.step, Option.ite_none_right_eq_some, Option.map_eq_some_iff] at hstep
    obtain ⟨-, b, hb, rfl⟩ := hstep
    obtain ⟨entries, hentries, hredis, -⟩ := step_enqueue hb
    have hissued : b.issued = s.backlog.issued := by
      rw [BacklogSystem.step] at hb
      split at hb
      · cases hb
      · rw [Option.some_inj] at hb
        rw [← hb]
    refine ⟨h.enqueue hissued ?_, rfl, rfl, _, rfl⟩
    rw [hredis]
    exact enqueueLoop_backlogAt (Checks.mapM_eq_ok.mp hentries) h.backlog
  · rw [FlushSystem.step] at hstep
    split at hstep
    · cases hstep
    · rename_i entry hentry
      rw [Option.some_inj] at hstep
      subst hstep
      refine ⟨h.enqueue rfl (h.backlog.enqueueOne ?_), rfl, rfl, _, rfl⟩
      rw [(prepare_ok hentry).2]
      rfl

/-- **Every step** whose flushes are in order keeps the invariant and moves the row forward;
without the lone path the row keeps its fence. -/
theorem step_flushInv {e : FlushEvent} (hsane : LogSane codec r s.log) (h : FlushInv codec r s)
    (horder : EventInOrder codec r s e) (hstep : s.step codec e = some s') :
    FlushInv codec r s' ∧ Forward r s s' ∧
      ((∀ claimed ending, e ≠ .flushOnce claimed ending) → Fenced r s.log s.pg (s.stored r) →
        Fenced r s'.log s'.pg (s'.stored r)) := by
  by_cases hkind : (∃ clock score requests, e = .backlog (.enqueue clock score requests)) ∨
      ∃ score request, e = .legacyEnqueue score request
  · obtain ⟨hinv, hpg, hstored, new, hlog⟩ := step_enqueues h hstep hkind
    refine ⟨hinv, Or.inl (by rw [hpg]), fun _ hf => ?_⟩
    rw [hpg, hstored, hlog]
    exact hf.append h.pg new
  cases e with
  | legacyEnqueue score request => exact absurd (Or.inr ⟨score, request, rfl⟩) hkind
  | backlog e =>
    have hother : ∀ clock score requests, e ≠ .enqueue clock score requests := by
      rintro clock score requests rfl
      exact hkind (Or.inl ⟨clock, score, requests, rfl⟩)
    have hnone : s.newEntries e = [] := by
      cases e <;> first | rfl | exact absurd rfl (hother _ _ _)
    simp only [FlushSystem.step, Option.ite_none_right_eq_some, Option.map_eq_some_iff] at hstep
    obtain ⟨hack, b, hb, rfl⟩ := hstep
    rw [hnone, List.append_nil]
    refine ⟨script_inv hsane h (fun lease hlease => ?_) hother hb, Or.inl rfl, fun _ hf => hf⟩
    simpa using List.all_eq_true.mp hack lease hlease
  | flushOnce claimed ending =>
    simp only [FlushSystem.step, Option.ite_none_right_eq_some] at hstep
    obtain ⟨hissued, hstep⟩ := hstep
    split at hstep
    · cases hstep
    · rename_i lease hdecode
      rw [Option.some_inj] at hstep
      subst hstep
      rcases horder with rfl | horder
      · exact ⟨h, Or.inl rfl, fun _ hf => hf⟩
      · have hclaimed : Claimed codec s [lease] :=
          ⟨fun l hl => ⟨claimed, hissued, List.mem_singleton.mp hl ▸ hdecode⟩,
            List.nodup_singleton _⟩
        obtain ⟨hinv, hforward⟩ := flushOnce_inv hsane h hclaimed (horder lease hdecode) ending
        exact ⟨hinv, hforward, fun honce => absurd rfl (honce claimed ending)⟩
  | flushBatch claimed ending =>
    simp only [FlushSystem.step, Option.ite_none_right_eq_some, Bool.and_eq_true,
      decide_eq_true_eq] at hstep
    obtain ⟨⟨hissued, hdistinct⟩, hstep⟩ := hstep
    split at hstep
    · cases hstep
    · rename_i leases hdecode
      rw [Option.some_inj] at hstep
      subst hstep
      rcases horder with rfl | horder
      · exact ⟨h, Or.inl rfl, fun _ hf => hf⟩
      · have hlog := finishFlush_log codec s leases (saveBacklogLeases leases s.pg) ending
        obtain ⟨⟨hinv, hforward⟩, hfenced⟩ := flushBatch_inv hsane h
          (claimed_batch hissued hdistinct hdecode) (fun lease hlease => by
            obtain ⟨c, hc, hlease⟩ :=
              Checks.exists_of_forall₂_right (Checks.mapM_eq_ok.mp hdecode) hlease
            exact horder c hc lease hlease) ending
        exact ⟨hinv, hforward, fun _ hf => hlog.1 ▸ hfenced hf⟩

end Steps

/-! ### Sequences -/

section Sequences

/-- Sequences increase along the log; none is zero or above `fence`. -/
structure Sequenced (fence : ℕ) (log : List QueuedEntry) : Prop where
  increasing : log.Pairwise fun a b =>
    ∀ n n', a.sequence = some n → b.sequence = some n' → n < n'
  bounded : ∀ e ∈ log, ∀ n, e.sequence = some n → 0 < n ∧ n ≤ fence

theorem Sequenced.concat {fence fence' : ℕ} {log : List QueuedEntry} {e : QueuedEntry}
    (h : Sequenced fence log) (hle : fence ≤ fence')
    (he : ∀ n, e.sequence = some n → fence < n ∧ n ≤ fence') : Sequenced fence' (log ++ [e]) := by
  refine ⟨List.pairwise_append.mpr ⟨h.increasing, List.pairwise_singleton _ _, ?_⟩, ?_⟩
  · intro a ha b hb n n' hn hn'
    rw [List.mem_singleton.mp hb] at hn'
    have hbound := h.bounded a ha n hn
    have hnew := he n' hn'
    omega
  · intro x hx n hn
    rcases List.mem_append.mp hx with hx | hx
    · have hbound := h.bounded x hx n hn
      omega
    · rw [List.mem_singleton.mp hx] at hn
      have hnew := he n hn
      omega

theorem sequencedLog_sequenced {score now : ℕ} {R : SnapshotWrite → EnqueueEntry → Prop} :
    ∀ {requests : List SnapshotWrite} {entries : List EnqueueEntry} {sequence : ℕ} {b : Backlog}
      {log : List QueuedEntry}, List.Forall₂ R requests entries → Sequenced sequence log →
      (b.enqueueLoop score now sequence entries).fenceSequence < 2 ^ 53 →
      Sequenced (b.enqueueLoop score now sequence entries).fenceSequence
        (log ++ sequencedLog now sequence requests)
  | [], _, sequence, b, log, hall, h, _ => by
    rw [List.forall₂_nil_left_iff] at hall
    rw [hall, sequencedLog, List.append_nil]
    exact h
  | q :: requests, _, sequence, b, log, hall, h, hfence => by
    obtain ⟨entry, entries, -, hrest, rfl⟩ := List.forall₂_cons_left_iff.mp hall
    rw [sequencedLog, List.append_cons]
    rw [Backlog.enqueueLoop] at hfence ⊢
    have hlt : sequence < nextSequence now sequence :=
      nextSequence_lt (lt_of_le_of_lt (enqueueLoop_fence_le hfence) hfence)
    refine sequencedLog_sequenced hrest (h.concat (le_of_lt hlt) fun n hn => ?_) hfence
    rw [← Option.some.inj hn]
    exact ⟨hlt, le_refl _⟩

/-- Sequences tell the order of the log. -/
theorem Sequenced.le_of_le {fence i j n n' : ℕ} {log : List QueuedEntry} {e e' : QueuedEntry}
    (h : Sequenced fence log) (hi : log[i]? = some e) (hj : log[j]? = some e')
    (hn : e.sequence = some n) (hn' : e'.sequence = some n') (hle : n ≤ n') : i ≤ j := by
  by_contra hlt
  obtain ⟨hilt, rfl⟩ := List.getElem?_eq_some_iff.mp hi
  obtain ⟨hjlt, rfl⟩ := List.getElem?_eq_some_iff.mp hj
  have := List.pairwise_iff_getElem.mp h.increasing j i hjlt hilt (by omega) n' n hn' hn
  omega

end Sequences

/-! ### Runs -/

/-- All requests of a run in the order of their enqueues. -/
def queuedRequests (trace : List FlushEvent) : List SnapshotWrite := trace.flatMap (·.enqueued)

/-- The assumptions about the enqueues of a run: bincode reads every request back and writes
the length of a non-empty request id first, and request ids are used once for `r`. -/
structure EnqueuedOnce (codec : Bincode) (r : RecordKey) (trace : List FlushEvent) : Prop where
  roundTrips : ∀ q ∈ queuedRequests trace, codec.RoundTrips q
  untagged : ∀ q ∈ queuedRequests trace, sequencedEntryTag.isPrefixOf (codec.encode q) = false
  ids : (((queuedRequests trace).filter (·.record = r)).map (·.requestId)).Nodup

section Runs

variable {codec : Bincode} {r : RecordKey}

theorem queuedRequests_concat (trace : List FlushEvent) (e : FlushEvent) :
    queuedRequests (trace ++ [e]) = queuedRequests trace ++ e.enqueued := by
  simp [queuedRequests]

theorem EnqueuedOnce.init {trace : List FlushEvent} {e : FlushEvent}
    (h : EnqueuedOnce codec r (trace ++ [e])) : EnqueuedOnce codec r trace := by
  have hmem : ∀ q ∈ queuedRequests trace, q ∈ queuedRequests (trace ++ [e]) := by
    intro q hq
    rw [queuedRequests_concat]
    exact List.mem_append_left _ hq
  refine ⟨fun q hq => h.roundTrips q (hmem q hq), fun q hq => h.untagged q (hmem q hq), ?_⟩
  have hids := h.ids
  rw [queuedRequests_concat, List.filter_append, List.map_append] at hids
  exact (List.nodup_append.mp hids).1

theorem sequencedLog_requests {now : ℕ} : ∀ {requests : List SnapshotWrite} {sequence : ℕ},
    (sequencedLog now sequence requests).map (·.request) = requests
  | [], _ => rfl
  | q :: requests, sequence => by
    rw [sequencedLog, List.map_cons, sequencedLog_requests]

/-- The log follows the enqueues, and its sequences increase. -/
structure LogInv (trace : List FlushEvent) (s : FlushSystem) : Prop where
  requests : s.log.map (·.request) = queuedRequests trace
  sequenced : s.backlog.redis.fenceSequence < 2 ^ 53 →
    Sequenced s.backlog.redis.fenceSequence s.log

theorem LogInv.sane {trace : List FlushEvent} {s : FlushSystem} (h : LogInv trace s)
    (hq : EnqueuedOnce codec r trace) (hfence : s.backlog.redis.fenceSequence < 2 ^ 53) :
    LogSane codec r s.log := by
  have hmem : ∀ e ∈ s.log, e.request ∈ queuedRequests trace := by
    intro e he
    rw [← h.requests]
    exact List.mem_map.mpr ⟨e, he, rfl⟩
  refine ⟨fun e he => hq.roundTrips _ (hmem e he), fun e he => hq.untagged _ (hmem e he),
    fun e he n hn => ?_, ?_⟩
  · have hbound := (h.sequenced hfence).bounded e he n hn
    exact lt_of_le_of_lt hbound.2 (lt_trans hfence (by decide))
  · -- distinct ids, place by place
    have hids := hq.ids
    rw [← h.requests, List.filter_map, List.map_map, List.nodup_iff_pairwise_ne,
      List.pairwise_map, List.pairwise_filter] at hids
    have hne : ∀ {i j : ℕ} {e e' : QueuedEntry}, i < j → At s.log r i e → At s.log r j e' →
        e.request.requestId ≠ e'.request.requestId := by
      intro i j e e' hij hi hj
      obtain ⟨hilt, rfl⟩ := List.getElem?_eq_some_iff.mp hi.get
      obtain ⟨hjlt, rfl⟩ := List.getElem?_eq_some_iff.mp hj.get
      exact List.pairwise_iff_getElem.mp hids i j hilt hjlt hij (decide_eq_true hi.record)
        (decide_eq_true hj.record)
    intro i j e e' hi hj hid
    rcases lt_trichotomy i j with hij | hij | hij
    · exact absurd hid (hne hij hi hj)
    · exact hij
    · exact absurd hid.symm (hne hij hj hi)

/-- The fence does not fall below `2 ^ 53` again. -/
theorem flushStep_fence {s s' : FlushSystem} {e : FlushEvent} (hstep : s.step codec e = some s')
    (hfence : s'.backlog.redis.fenceSequence < 2 ^ 53) :
    s.backlog.redis.fenceSequence < 2 ^ 53 := by
  cases e with
  | backlog e =>
    simp only [FlushSystem.step, Option.ite_none_right_eq_some, Option.map_eq_some_iff] at hstep
    obtain ⟨-, b, hb, rfl⟩ := hstep
    exact step_fence hb hfence
  | legacyEnqueue score request =>
    rw [FlushSystem.step] at hstep
    split at hstep
    · cases hstep
    · rw [Option.some_inj] at hstep
      subst hstep
      exact hfence
  | flushOnce claimed ending =>
    simp only [FlushSystem.step, Option.ite_none_right_eq_some] at hstep
    obtain ⟨-, hstep⟩ := hstep
    split at hstep
    · cases hstep
    · rw [Option.some_inj] at hstep
      subst hstep
      rwa [(finishFlush_log ..).2] at hfence
  | flushBatch claimed ending =>
    simp only [FlushSystem.step, Option.ite_none_right_eq_some] at hstep
    obtain ⟨-, hstep⟩ := hstep
    split at hstep
    · cases hstep
    · rw [Option.some_inj] at hstep
      subst hstep
      rwa [(finishFlush_log ..).2] at hfence

theorem flushStep_log {s s' : FlushSystem} {e : FlushEvent} {trace : List FlushEvent}
    (h : LogInv trace s) (hstep : s.step codec e = some s') : LogInv (trace ++ [e]) s' := by
  have hsame : s'.log = s.log → s'.backlog.redis.fenceSequence = s.backlog.redis.fenceSequence →
      e.enqueued = [] → LogInv (trace ++ [e]) s' := by
    intro hlog hfence hnone
    refine ⟨by rw [hlog, queuedRequests_concat, hnone, List.append_nil, h.requests], ?_⟩
    rw [hlog, hfence]
    exact h.sequenced
  cases e with
  | backlog e =>
    simp only [FlushSystem.step, Option.ite_none_right_eq_some, Option.map_eq_some_iff] at hstep
    obtain ⟨-, b, hb, rfl⟩ := hstep
    by_cases henqueue : ∃ clock score requests, e = .enqueue clock score requests
    · obtain ⟨clock, score, requests, rfl⟩ := henqueue
      obtain ⟨entries, hentries, hredis, -⟩ := step_enqueue hb
      refine ⟨?_, fun hfence => ?_⟩
      · rw [List.map_append, h.requests, queuedRequests_concat, FlushSystem.newEntries,
          sequencedLog_requests]
        rfl
      · dsimp only at hfence ⊢
        rw [hredis] at hfence ⊢
        exact sequencedLog_sequenced (Checks.mapM_eq_ok.mp hentries)
          (h.sequenced (lt_of_le_of_lt (enqueueLoop_fence_le hfence) hfence)) hfence
    · have hother : ∀ clock score requests, e ≠ .enqueue clock score requests :=
        fun clock score requests heq => henqueue ⟨clock, score, requests, heq⟩
      refine hsame ?_ (step_log hb hother).2 ?_
      · cases e <;> first | exact List.append_nil _ | exact absurd rfl (hother _ _ _)
      · cases e <;> first | rfl | exact absurd rfl (hother _ _ _)
  | legacyEnqueue score request =>
    rw [FlushSystem.step] at hstep
    split at hstep
    · cases hstep
    · rw [Option.some_inj] at hstep
      subst hstep
      refine ⟨?_, fun hfence => ?_⟩
      · rw [List.map_append, h.requests, queuedRequests_concat]
        rfl
      · exact (h.sequenced hfence).concat (le_refl _) fun n hn => by cases hn
  | flushOnce claimed ending =>
    simp only [FlushSystem.step, Option.ite_none_right_eq_some] at hstep
    obtain ⟨-, hstep⟩ := hstep
    split at hstep
    · cases hstep
    · rw [Option.some_inj] at hstep
      subst hstep
      exact hsame (finishFlush_log ..).1 (by rw [(finishFlush_log ..).2]) rfl
  | flushBatch claimed ending =>
    simp only [FlushSystem.step, Option.ite_none_right_eq_some] at hstep
    obtain ⟨-, hstep⟩ := hstep
    split at hstep
    · cases hstep
    · rw [Option.some_inj] at hstep
      subst hstep
      exact hsame (finishFlush_log ..).1 (by rw [(finishFlush_log ..).2]) rfl

/-- An invariant of the runs whose steps meet `C`. -/
theorem run_flush (codec : Bincode) (r : RecordKey) {C : FlushSystem → FlushEvent → Prop}
    {I : FlushSystem → Prop} (hinit : I {})
    (hstep : ∀ s e s', LogSane codec r s.log → Sequenced s.backlog.redis.fenceSequence s.log →
      I s → C s e → s.step codec e = some s' → I s') {trace : List FlushEvent} {s : FlushSystem}
    (hrun : run (FlushSystem.step codec) {} trace = some s) :
    LogInv trace s ∧ (EnqueuedOnce codec r trace → s.backlog.redis.fenceSequence < 2 ^ 53 →
      StepsMeet (FlushSystem.step codec) C {} trace → I s) := by
  refine run_history (P := fun trace s => LogInv trace s ∧ (EnqueuedOnce codec r trace →
    s.backlog.redis.fenceSequence < 2 ^ 53 → StepsMeet (FlushSystem.step codec) C {} trace →
    I s)) ?_ ?_ hrun
  · refine ⟨⟨rfl, fun _ => ⟨List.Pairwise.nil, fun e he => ?_⟩⟩, fun _ _ _ => hinit⟩
    cases he
  · intro es m e t hes h hm
    refine ⟨flushStep_log h.1 hm, fun hq hfence hmeet => ?_⟩
    have hfence' := flushStep_fence hm hfence
    refine hstep m e t (h.1.sane hq.init hfence') (h.1.sequenced hfence') ?_ ?_ hm
    · refine h.2 hq.init hfence' fun before e' after hsplit m' hm' => ?_
      exact hmeet before e' (after ++ [e]) (by rw [hsplit, List.append_assoc]; rfl) m' hm'
    · exact hmeet es e [] rfl m hes

theorem init_flushInv : FlushInv codec r {} where
  backlog := ⟨(fun _ h => by cases h), fun _ i e hat => absurd hat.lt (by simp)⟩
  issued c hc := by cases hc
  pg := ⟨(fun _ h => by cases h), fun _ => rfl, (fun _ h => by cases h),
    (fun _ _ h => by cases h)⟩
  flushed c hc := by cases hc

/-- The place of the last enqueue. -/
theorem exists_last {log : List QueuedEntry} {q : SnapshotWrite}
    (h : ((log.map (·.request)).filter (·.record = r)).getLast? = some q) :
    ∃ i e, At log r i e ∧ e.request = q ∧ ∀ j e', At log r j e' → j ≤ i := by
  rw [List.filter_map, List.getLast?_map, Option.map_eq_some_iff] at h
  obtain ⟨e, he, hq⟩ := h
  obtain ⟨init, hinit⟩ := List.getLast?_eq_some_iff.mp he
  obtain ⟨l₁, l₂, rfl, -, hlast⟩ := List.filter_eq_append_iff.mp hinit
  obtain ⟨l₃, l₄, rfl, -, hrecord, hnil⟩ := List.filter_eq_cons_iff.mp hlast
  have hlater : ∀ e' ∈ l₄, e'.request.record ≠ r := by
    intro e' he'
    simpa using List.filter_eq_nil_iff.mp hnil e' he'
  rw [← List.append_assoc]
  refine ⟨(l₁ ++ l₃).length, e, ⟨?_, by simpa using hrecord⟩, hq, fun j e' hat => ?_⟩
  · rw [List.getElem?_append_right (le_refl _), Nat.sub_self]
    rfl
  · by_contra hlt
    have hget := hat.get
    rw [List.getElem?_append_right (by omega)] at hget
    obtain ⟨k, hk⟩ : ∃ k, j - (l₁ ++ l₃).length = k + 1 :=
      ⟨j - (l₁ ++ l₃).length - 1, by omega⟩
    rw [hk, List.getElem?_cons_succ] at hget
    exact hlater e' (List.mem_of_getElem? hget) hat.record

/-- Without an entry the row holds the value of the last enqueue. -/
theorem FlushInv.drained {trace : List FlushEvent} {s : FlushSystem} {q : SnapshotWrite}
    (h : FlushInv codec r s) (hlog : LogInv trace s)
    (hnone : s.backlog.redis.entries (entryKey (member r)) = none)
    (hlast : ((queuedRequests trace).filter (·.record = r)).getLast? = some q) :
    ∃ row, s.pg.snapshots r = some row ∧ row.payload = q.payload ∧ row.schema = q.schema ∧
      row.schemaVersion = q.schemaVersion ∧ row.updatedAtUnixMs = q.updatedAtUnixMs := by
  rw [← hlog.requests] at hlast
  obtain ⟨i, e, hat, rfl, hnewest⟩ := exists_last hlast
  obtain ⟨m, hm, him⟩ := h.backlog.drained hnone i e hat
  cases hrow : s.pg.snapshots r with
  | none =>
    rw [h.pg.empty hrow] at hm
    cases hm
  | some row =>
    obtain ⟨m', e', hm', hat', hval⟩ := h.pg.row row hrow
    obtain rfl : m' = m := Option.some.inj (hm'.symm.trans hm)
    obtain rfl : m' = i := le_antisymm (hnewest m' e' hat') him
    rw [hat'.unique hat] at hval
    refine ⟨row, rfl, ?_⟩
    rw [hval]
    exact ⟨rfl, rfl, rfl, rfl⟩

end Runs

theorem sequencedLog_isSome {now : ℕ} : ∀ {requests : List SnapshotWrite} {sequence : ℕ},
    ∀ e ∈ sequencedLog now sequence requests, ∃ n, e.sequence = some n
  | [], _, e, he => by cases he
  | q :: requests, sequence, e, he => by
    rw [sequencedLog] at he
    rcases List.mem_cons.mp he with rfl | he
    · exact ⟨_, rfl⟩
    · exact sequencedLog_isSome e he

/-! ### Workers of both kinds -/

section Workers

variable {codec : Bincode} {r : RecordKey} {s : FlushSystem}

/-- A lease of `r` without a receipt whose enqueue is older than the one whose value the row
holds. -/
def FlushSystem.overtaken (codec : Bincode) (r : RecordKey) (s : FlushSystem)
    (lease : SnapshotBacklogLease) : Bool :=
  lease.request.record = r && (s.pg.idempotency lease.request.requestId).isNone &&
    (s.position codec lease).any fun i => (s.stored r).any fun m => i < m

/-- Rolled-back flushes apart, no flush of `process_backlog_once` is overtaken, and one of
`process_backlog_batch` only by a row whose sequence is at least its own. -/
def onceInOrder (codec : Bincode) (r : RecordKey) (s : FlushSystem) : FlushEvent → Bool
  | .flushOnce _ .rolledBack => true
  | .flushBatch _ .rolledBack => true
  | .flushOnce claimed _ =>
    (decodeLease codec claimed).toOption.all fun lease => !s.overtaken codec r lease
  | .flushBatch claimed _ =>
    claimed.all fun c => (decodeLease codec c).toOption.all fun lease =>
      !(s.overtaken codec r lease && s.pg.writes r (some (lease.fenceSequence.getD 0)))
  | _ => true

theorem overtaken_of_lt {lease : SnapshotBacklogLease} {i m : ℕ} {e : QueuedEntry}
    (hat : LeaseAt codec s.log r lease i e) (hposition : s.position codec lease = some i)
    (hfresh : s.pg.idempotency lease.request.requestId = none) (hm : s.stored r = some m)
    (hlt : i < m) : s.overtaken codec r lease = true := by
  have hr : lease.request.record = r := by rw [hat.request, hat.record]
  simp [FlushSystem.overtaken, hr, hfresh, hposition, hm, hlt]

theorem writes_false {pg : Postgres} {n : ℕ} (h : pg.writes r (some n) = false) :
    ∃ k, pg.queuedSequence r = some k ∧ n ≤ k := by
  rw [Postgres.writes, Option.all_some] at h
  cases hk : pg.queuedSequence r with
  | none => simp [hk] at h
  | some k => exact ⟨k, rfl, by simpa [hk] using h⟩

/-- Sequenced entries: the condition on the flushes is what keeps them in order. -/
theorem eventInOrder_of_once (h : FlushInv codec r s)
    (hsequenced : Sequenced s.backlog.redis.fenceSequence s.log)
    (hnew : ∀ e ∈ s.log, ∃ n, e.sequence = some n) {event : FlushEvent}
    (hmeet : onceInOrder codec r s event = true) : EventInOrder codec r s event := by
  have honce : ∀ {claimed}, ((decodeLease codec claimed).toOption.all fun lease =>
      !s.overtaken codec r lease) = true → ∀ lease, decodeLease codec claimed = .ok lease →
      ∀ i e, LeaseAt codec s.log r lease i e → s.position codec lease = some i →
      s.pg.idempotency lease.request.requestId = none → InOrder s.pg r none i (s.stored r) := by
    intro claimed hall lease hdecode i e hat hposition hfresh
    rw [hdecode] at hall
    refine ⟨fun _ m hm => ?_, fun hwrites => by cases hwrites⟩
    by_contra hlt
    have hover := overtaken_of_lt hat hposition hfresh hm (by omega)
    simp [Except.toOption, hover] at hall
  have hbatch : ∀ {claimed : List ClaimedEntry}, (claimed.all fun c =>
      (decodeLease codec c).toOption.all fun lease =>
        !(s.overtaken codec r lease && s.pg.writes r (some (lease.fenceSequence.getD 0)))) = true →
      ∀ c ∈ claimed, ∀ lease, decodeLease codec c = .ok lease → ∀ i e,
      LeaseAt codec s.log r lease i e → s.position codec lease = some i →
      s.pg.idempotency lease.request.requestId = none →
      InOrder s.pg r (some e.fence) i (s.stored r) := by
    intro claimed hall c hc lease hdecode i e hat hposition hfresh
    have hlease := List.all_eq_true.mp hall c hc
    rw [hdecode] at hlease
    refine ⟨fun hwrites m hm => ?_, fun hwrites => ?_⟩
    · by_contra hlt
      have hover := overtaken_of_lt hat hposition hfresh hm (by omega)
      rw [QueuedEntry.fence, ← hat.sequence] at hwrites
      simp [Except.toOption, hover, hwrites] at hlease
    · -- the sequence of the row is that of an enqueue it has reached
      obtain ⟨k, hk, hle⟩ := writes_false hwrites
      obtain ⟨j, e', hat', hfence, m, hm, hjm⟩ := h.pg.queued k hk
      obtain ⟨n, hn⟩ := hnew e hat.mem
      obtain ⟨n', hn'⟩ := hnew e' hat'.mem
      rw [QueuedEntry.fence, hn', Option.getD_some] at hfence
      rw [QueuedEntry.fence, hn, Option.getD_some] at hle
      have hij : i ≤ j := hsequenced.le_of_le hat.get hat'.get hn hn' (by omega)
      exact ⟨m, hm, by omega⟩
  cases event with
  | backlog e => trivial
  | legacyEnqueue score request => trivial
  | flushOnce claimed ending =>
    cases ending with
    | rolledBack => exact Or.inl rfl
    | lost => exact Or.inr (honce hmeet)
    | delivered => exact Or.inr (honce hmeet)
  | flushBatch claimed ending =>
    cases ending with
    | rolledBack => exact Or.inl rfl
    | lost => exact Or.inr (hbatch hmeet)
    | delivered => exact Or.inr (hbatch hmeet)

/-- Without legacy enqueues every entry of the log has a sequence. -/
theorem step_sequenced {s' : FlushSystem} {e : FlushEvent} (hkind : e.legacy = false)
    (h : ∀ e ∈ s.log, ∃ n, e.sequence = some n) (hstep : s.step codec e = some s') :
    ∀ e ∈ s'.log, ∃ n, e.sequence = some n := by
  cases e with
  | legacyEnqueue score request => cases hkind
  | backlog e =>
    simp only [FlushSystem.step, Option.ite_none_right_eq_some, Option.map_eq_some_iff] at hstep
    obtain ⟨-, b, hb, rfl⟩ := hstep
    intro x hx
    rcases List.mem_append.mp hx with hx | hx
    · exact h x hx
    · cases e with
      | enqueue clock score requests => exact sequencedLog_isSome x hx
      | _ => cases hx
  | flushOnce claimed ending =>
    simp only [FlushSystem.step, Option.ite_none_right_eq_some] at hstep
    obtain ⟨-, hstep⟩ := hstep
    split at hstep
    · cases hstep
    · rw [Option.some_inj] at hstep
      subst hstep
      rwa [(finishFlush_log ..).1]
  | flushBatch claimed ending =>
    simp only [FlushSystem.step, Option.ite_none_right_eq_some] at hstep
    obtain ⟨-, hstep⟩ := hstep
    split at hstep
    · cases hstep
    · rw [Option.some_inj] at hstep
      subst hstep
      rwa [(finishFlush_log ..).1]

/-- **Workers of both kinds**: in every run of sequenced enqueues whose flushes meet
`onceInOrder`, the row holds the value of an enqueue, a step replaces it by that of a later
one only, and without an entry it holds the value of the last enqueue. -/
theorem mixed_workers_never_regress (codec : Bincode) (r : RecordKey) (trace : List FlushEvent)
    (s : FlushSystem) (hrun : run (FlushSystem.step codec) {} trace = some s)
    (hqueued : EnqueuedOnce codec r trace) (hnew : ∀ e ∈ trace, e.legacy = false)
    (hfence : s.backlog.redis.fenceSequence < 2 ^ 53)
    (hmeet : StepsMeet (FlushSystem.step codec) (fun s e => onceInOrder codec r s e = true)
      {} trace) :
    s.log.map (·.request) = queuedRequests trace ∧
    (∀ row, s.pg.snapshots r = some row → ∃ i e, s.stored r = some i ∧ s.log[i]? = some e ∧
      e.request.record = r ∧ row.payload = e.request.payload) ∧
    (∀ event s', s.step codec event = some s' → onceInOrder codec r s event = true →
      s'.pg.snapshots r = s.pg.snapshots r ∨
        ∃ m', s'.stored r = some m' ∧ ∀ m, s.stored r = some m → m ≤ m') ∧
    (s.backlog.redis.entries (entryKey (member r)) = none →
      ∀ q, ((queuedRequests trace).filter (·.record = r)).getLast? = some q →
        ∃ row, s.pg.snapshots r = some row ∧ row.payload = q.payload ∧ row.schema = q.schema ∧
          row.schemaVersion = q.schemaVersion ∧ row.updatedAtUnixMs = q.updatedAtUnixMs) := by
  obtain ⟨hlog, hinv⟩ := run_flush codec r
    (C := fun s e => e.legacy = false ∧ onceInOrder codec r s e = true)
    (I := fun s => FlushInv codec r s ∧ ∀ e ∈ s.log, ∃ n, e.sequence = some n)
    ⟨init_flushInv, fun e he => by cases he⟩
    (fun m e t hsane hsequenced h hC hstep =>
      ⟨(step_flushInv hsane h.1 (eventInOrder_of_once h.1 hsequenced h.2 hC.2) hstep).1,
        step_sequenced hC.1 h.2 hstep⟩) hrun
  obtain ⟨h, hall⟩ := hinv hqueued hfence fun before e after hes m hm =>
    ⟨hnew e (by rw [hes]; simp), hmeet before e after hes m hm⟩
  refine ⟨hlog.requests, fun row hrow => ?_, fun event s' hstep horder => ?_,
    fun hnone q hq => h.drained hlog hnone hq⟩
  · obtain ⟨i, e, hi, hat, hval⟩ := h.pg.row row hrow
    refine ⟨i, e, hi, hat.get, hat.record, ?_⟩
    rw [hval]
    rfl
  · exact (step_flushInv (hlog.sane hqueued hfence) h
      (eventInOrder_of_once h (hlog.sequenced hfence) hall horder) hstep).2.1

end Workers

/-- The tuple of the first enqueue under the first lease. -/
def firstClaim : ClaimedEntry :=
  ⟨"6:player:1:1", "1", sequencedEntry 1000000 (smallBincode sampleQueued)⟩

/-- The tuple of the second enqueue under the second lease. -/
def secondClaim : ClaimedEntry :=
  ⟨"6:player:1:1", "2", sequencedEntry 2000000 (smallBincode sampleNewer)⟩

/-- A lone worker claims the first enqueue and stalls; the second one is enqueued, claimed
after the lease has expired, flushed in a batch and acknowledged. -/
def overtakenWorker : List FlushEvent :=
  [.backlog (.enqueue (wholeSecond 1) 0 [sampleQueued]),
    .backlog (.claim (wholeSecond 1) 1000),
    .backlog (.enqueue (wholeSecond 2) 0 [sampleNewer]),
    .backlog (.claimMulti (wholeSecond 9) 1000 64),
    .flushBatch [secondClaim] .delivered,
    .backlog (.ackMulti 0 [secondClaim])]

/-- The stalled worker flushes in time and its retry finds the receipt. -/
def timelyWorkers : List FlushEvent :=
  [.backlog (.enqueue (wholeSecond 1) 0 [sampleQueued]),
    .backlog (.claim (wholeSecond 1) 1000),
    .flushOnce firstClaim .lost,
    .backlog (.enqueue (wholeSecond 2) 0 [sampleNewer]),
    .backlog (.claimMulti (wholeSecond 9) 1000 64),
    .flushBatch [secondClaim] .delivered,
    .backlog (.ackMulti 0 [secondClaim]),
    .flushOnce firstClaim .delivered]
/-- After this run the row holds the newer save. -/
theorem mixed_workers_never_regress_timely :
    ∃ s, run (FlushSystem.step smallCodec) {} timelyWorkers = some s ∧
      firstClaim ∈ s.flushed ∧
      ∃ row, s.pg.snapshots sampleNewer.record = some row ∧ row.payload = [8] := by
  obtain ⟨s, hrun, hfence, hnone, hfirst⟩ := exists_of_any
    (o := run (FlushSystem.step smallCodec) {} timelyWorkers)
    (p := fun s => s.backlog.redis.fenceSequence < 2 ^ 53 ∧
      s.backlog.redis.entries (entryKey (member sampleNewer.record)) = none ∧
      firstClaim ∈ s.flushed)
    (by decide +kernel)
  have hqueued : EnqueuedOnce smallCodec sampleNewer.record timelyWorkers :=
    ⟨by decide +kernel, by decide +kernel, by decide +kernel⟩
  obtain ⟨row, hrow, hpayload, -⟩ :=
    (mixed_workers_never_regress smallCodec _ _ s hrun hqueued (by decide) hfence
      (stepsMeet_of_check (by decide +kernel))).2.2.2 hnone sampleNewer (by decide +kernel)
  exact ⟨s, hrun, hfirst, row, hrow, hpayload⟩

/-- **The stalled worker flushes late**: the flush of `process_backlog_once` replaces the
value of the second enqueue by that of the first one, and with no entry left the last enqueue
is lost. -/
theorem once_flush_regresses :
    EnqueuedOnce smallCodec sampleNewer.record
        (overtakenWorker ++ [.flushOnce firstClaim .delivered]) ∧
    (∀ e ∈ overtakenWorker ++ [.flushOnce firstClaim .delivered], e.legacy = false) ∧
    ∃ s s', run (FlushSystem.step smallCodec) {} overtakenWorker = some s ∧
      s.step smallCodec (.flushOnce firstClaim .delivered) = some s' ∧
      s'.backlog.redis.fenceSequence < 2 ^ 53 ∧
      s.stored sampleNewer.record = some 1 ∧ s'.stored sampleNewer.record = some 0 ∧
      s'.backlog.redis.entries (entryKey (member sampleNewer.record)) = none ∧
      ((queuedRequests (overtakenWorker ++ [.flushOnce firstClaim .delivered])).filter
        (·.record = sampleNewer.record)).getLast? = some sampleNewer ∧
      (s'.pg.snapshots sampleNewer.record).map (·.payload) = some [7] ∧
      sampleNewer.payload = [8] := by
  refine ⟨⟨by decide +kernel, by decide +kernel, by decide +kernel⟩, by decide, ?_⟩
  obtain ⟨s, hrun, hstored, hnext⟩ := exists_of_any
    (o := run (FlushSystem.step smallCodec) {} overtakenWorker)
    (p := fun s => s.stored sampleNewer.record = some 1 ∧
      (s.step smallCodec (.flushOnce firstClaim .delivered)).any fun s' =>
        decide (s'.backlog.redis.fenceSequence < 2 ^ 53 ∧
          s'.stored sampleNewer.record = some 0 ∧
          s'.backlog.redis.entries (entryKey (member sampleNewer.record)) = none ∧
          (s'.pg.snapshots sampleNewer.record).map (·.payload) = some [7]))
    (by decide +kernel)
  obtain ⟨s', hstep, hfence, hstored', hnone, hpayload⟩ := exists_of_any hnext
  exact ⟨s, s', hrun, hstep, hfence, hstored, hstored', hnone, by decide +kernel, hpayload, rfl⟩

/-! ### Entries of both kinds -/

section Versions

variable {codec : Bincode} {r : RecordKey} {s : FlushSystem}

/-- A lease without a sequence finds a row without one, or a row that is as new; a lease with
a sequence finds no value of a later entry without one. -/
def FlushSystem.fitsVersion (codec : Bincode) (r : RecordKey) (s : FlushSystem)
    (lease : SnapshotBacklogLease) : Bool :=
  match lease.fenceSequence with
  | none => (s.pg.queuedSequence r).isNone ||
      (s.position codec lease).any fun i => (s.stored r).any fun m => i ≤ m
  | some _ => (s.stored r).all fun m => s.log[m]?.all fun e => e.sequence.isSome ||
      (s.position codec lease).all fun i => m ≤ i

/-- Rolled-back flushes apart, every flush of a lease of `r` without a receipt fits. -/
def legacyInOrder (codec : Bincode) (r : RecordKey) (s : FlushSystem) : FlushEvent → Bool
  | .flushBatch _ .rolledBack => true
  | .flushBatch claimed _ =>
    claimed.all fun c => (decodeLease codec c).toOption.all fun lease =>
      !(lease.request.record = r && (s.pg.idempotency lease.request.requestId).isNone) ||
        s.fitsVersion codec r lease
  | _ => true

/-- Fenced flushes: the condition on the versions is what keeps them in order. -/
theorem inOrder_of_fits {lease : SnapshotBacklogLease} {i : ℕ} {e : QueuedEntry}
    (h : FlushInv codec r s) (hsequenced : Sequenced s.backlog.redis.fenceSequence s.log)
    (hfenced : Fenced r s.log s.pg (s.stored r)) (hat : LeaseAt codec s.log r lease i e)
    (hposition : s.position codec lease = some i) (hfits : s.fitsVersion codec r lease = true) :
    InOrder s.pg r (some e.fence) i (s.stored r) := by
  rw [FlushSystem.fitsVersion, hposition, hat.sequence] at hfits
  refine ⟨fun hwrites m hm => ?_, fun hwrites => ?_⟩
  · -- the row has a smaller fence, so this entry has a sequence
    obtain ⟨e', hat'⟩ := h.pg.stored hm
    rw [Postgres.writes, Option.all_some, hfenced m e' hm hat'] at hwrites
    have hlt : e'.fence < e.fence := by simpa using hwrites
    cases hn : e.sequence with
    | none =>
      rw [show e.fence = 0 by rw [QueuedEntry.fence, hn]; rfl] at hlt
      omega
    | some n =>
      cases hn' : e'.sequence with
      | none => simpa [hn, hm, hat'.get, hn'] using hfits
      | some n' =>
        rw [QueuedEntry.fence, QueuedEntry.fence, hn, hn', Option.getD_some,
          Option.getD_some] at hlt
        exact hsequenced.le_of_le hat'.get hat.get hn' hn (le_of_lt hlt)
  · obtain ⟨k, hk, hle⟩ := writes_false hwrites
    obtain ⟨-, -, -, -, m, hm, -⟩ := h.pg.queued k hk
    cases hn : e.sequence with
    | none =>
      have him : i ≤ m := by simpa [hn, hk, hm] using hfits
      exact ⟨m, hm, him⟩
    | some n =>
      -- a fence of at least one is that of an entry with a sequence
      obtain ⟨e', hat'⟩ := h.pg.stored hm
      have hk' : k = e'.fence := Option.some.inj (hk.symm.trans (hfenced m e' hm hat'))
      rw [QueuedEntry.fence, hn, Option.getD_some, hk'] at hle
      have hpos := (hsequenced.bounded e hat.mem n hn).1
      cases hn' : e'.sequence with
      | none =>
        rw [QueuedEntry.fence, hn', Option.getD_none] at hle
        omega
      | some n' =>
        rw [QueuedEntry.fence, hn', Option.getD_some] at hle
        exact ⟨m, hm, hsequenced.le_of_le hat.get hat'.get hn hn' hle⟩

theorem eventInOrder_of_legacy (h : FlushInv codec r s)
    (hsequenced : Sequenced s.backlog.redis.fenceSequence s.log)
    (hfenced : Fenced r s.log s.pg (s.stored r)) {event : FlushEvent} (hbatch : event.once = false)
    (hmeet : legacyInOrder codec r s event = true) : EventInOrder codec r s event := by
  have hfits : ∀ {claimed : List ClaimedEntry}, (claimed.all fun c =>
      (decodeLease codec c).toOption.all fun lease =>
        !(lease.request.record = r && (s.pg.idempotency lease.request.requestId).isNone) ||
          s.fitsVersion codec r lease) = true →
      ∀ c ∈ claimed, ∀ lease, decodeLease codec c = .ok lease → ∀ i e,
      LeaseAt codec s.log r lease i e → s.position codec lease = some i →
      s.pg.idempotency lease.request.requestId = none →
      InOrder s.pg r (some e.fence) i (s.stored r) := by
    intro claimed hall c hc lease hdecode i e hat hposition hfresh
    have hlease := List.all_eq_true.mp hall c hc
    have hr : lease.request.record = r := by rw [hat.request, hat.record]
    rw [hdecode] at hlease
    refine inOrder_of_fits h hsequenced hfenced hat hposition ?_
    simpa [Except.toOption, hr, hfresh] using hlease
  cases event with
  | backlog e => trivial
  | legacyEnqueue score request => trivial
  | flushOnce claimed ending => cases hbatch
  | flushBatch claimed ending =>
    cases ending with
    | rolledBack => exact Or.inl rfl
    | lost => exact Or.inr (hfits hmeet)
    | delivered => exact Or.inr (hfits hmeet)

/-- **Entries of both kinds**: in every run of fenced flushes that meet `legacyInOrder`,
without an entry the row holds the value of the last enqueue. -/
theorem mixed_versions_keep_last (codec : Bincode) (r : RecordKey) (trace : List FlushEvent)
    (s : FlushSystem) (hrun : run (FlushSystem.step codec) {} trace = some s)
    (hqueued : EnqueuedOnce codec r trace) (hbatch : ∀ e ∈ trace, e.once = false)
    (hfence : s.backlog.redis.fenceSequence < 2 ^ 53)
    (hmeet : StepsMeet (FlushSystem.step codec) (fun s e => legacyInOrder codec r s e = true)
      {} trace)
    (hnone : s.backlog.redis.entries (entryKey (member r)) = none) :
    ∀ q, ((queuedRequests trace).filter (·.record = r)).getLast? = some q →
      ∃ row, s.pg.snapshots r = some row ∧ row.payload = q.payload ∧ row.schema = q.schema ∧
        row.schemaVersion = q.schemaVersion ∧ row.updatedAtUnixMs = q.updatedAtUnixMs := by
  obtain ⟨hlog, hinv⟩ := run_flush codec r
    (C := fun s e => e.once = false ∧ legacyInOrder codec r s e = true)
    (I := fun s => FlushInv codec r s ∧ Fenced r s.log s.pg (s.stored r))
    ⟨init_flushInv, fun i e hi => by cases hi⟩
    (fun m e t hsane hsequenced h hC hstep => by
      have horder := eventInOrder_of_legacy h.1 hsequenced h.2 hC.1 hC.2
      obtain ⟨hinv, -, hfenced⟩ := step_flushInv hsane h.1 horder hstep
      refine ⟨hinv, hfenced (fun claimed ending heq => ?_) h.2⟩
      rw [heq] at hC
      cases hC.1) hrun
  obtain ⟨h, -⟩ := hinv hqueued hfence fun before e after hes m hm =>
    ⟨hbatch e (by rw [hes]; simp), hmeet before e after hes m hm⟩
  exact fun q hq => h.drained hlog hnone hq

end Versions

/-- The tuple of an entry without a sequence. -/
def legacyClaim (lease : String) (request : SnapshotWrite) : ClaimedEntry :=
  ⟨"6:player:1:1", lease, smallBincode request⟩

/-- An entry from before the upgrade is drained, then a sequenced one. -/
def upgraded : List FlushEvent :=
  [.legacyEnqueue 0 sampleQueued,
    .backlog (.claimMulti (wholeSecond 1) 1000 64),
    .flushBatch [legacyClaim "1" sampleQueued] .delivered,
    .backlog (.ackMulti 0 [legacyClaim "1" sampleQueued]),
    .backlog (.enqueue (wholeSecond 2) 0 [sampleNewer]),
    .backlog (.claimMulti (wholeSecond 9) 1000 64),
    .flushBatch [secondClaim] .delivered,
    .backlog (.ackMulti 0 [secondClaim])]

theorem mixed_versions_keep_last_upgraded :
    ∃ s, run (FlushSystem.step smallCodec) {} upgraded = some s ∧
      ∃ row, s.pg.snapshots sampleNewer.record = some row ∧ row.payload = [8] := by
  obtain ⟨s, hrun, hfence, hnone⟩ := exists_of_any
    (o := run (FlushSystem.step smallCodec) {} upgraded)
    (p := fun s => s.backlog.redis.fenceSequence < 2 ^ 53 ∧
      s.backlog.redis.entries (entryKey (member sampleNewer.record)) = none)
    (by decide +kernel)
  have hqueued : EnqueuedOnce smallCodec sampleNewer.record upgraded :=
    ⟨by decide +kernel, by decide +kernel, by decide +kernel⟩
  obtain ⟨row, hrow, hpayload, -⟩ := mixed_versions_keep_last smallCodec _ _ s hrun hqueued
    (by decide) hfence (stepsMeet_of_check (by decide +kernel)) hnone sampleNewer
    (by decide +kernel)
  exact ⟨s, hrun, row, hrow, hpayload⟩

/-- A sequenced entry is claimed by a worker that stalls, and the entry of an instance that still
runs the old version is drained; the lease has run out when the stalled worker flushes. -/
def stalledWorker : List FlushEvent :=
  [.backlog (.enqueue (wholeSecond 1) 0 [sampleQueued]),
    .backlog (.claimMulti (wholeSecond 1) 1000 64),
    .legacyEnqueue 0 sampleNewer,
    .backlog (.claimMulti (wholeSecond 9) 1000 64),
    .flushBatch [legacyClaim "2" sampleNewer] .delivered,
    .backlog (.ackMulti 0 [legacyClaim "2" sampleNewer]),
    .flushBatch [firstClaim] .delivered]

/-- A sequenced entry is drained, then one of an instance that still runs the old version. -/
def rollingUpgrade : List FlushEvent :=
  [.backlog (.enqueue (wholeSecond 1) 0 [sampleQueued]),
    .backlog (.claimMulti (wholeSecond 1) 1000 64),
    .flushBatch [firstClaim] .delivered,
    .backlog (.ackMulti 0 [firstClaim]),
    .legacyEnqueue 0 sampleNewer,
    .backlog (.claimMulti (wholeSecond 9) 1000 64),
    .flushBatch [legacyClaim "2" sampleNewer] .delivered,
    .backlog (.ackMulti 0 [legacyClaim "2" sampleNewer])]

/-- After the run nothing is queued, and the row does not hold the value of the last enqueue. -/
def LosesLast (codec : Bincode) (r : RecordKey) (trace : List FlushEvent) : Prop :=
  EnqueuedOnce codec r trace ∧ (∀ e ∈ trace, e.once = false) ∧
    ∃ s q row, run (FlushSystem.step codec) {} trace = some s ∧
      s.backlog.redis.fenceSequence < 2 ^ 53 ∧
      s.backlog.redis.entries (entryKey (member r)) = none ∧
      ((queuedRequests trace).filter (·.record = r)).getLast? = some q ∧
      s.pg.snapshots r = some row ∧ row.payload ≠ q.payload

theorem losesLast_of_run {trace : List FlushEvent}
    (hqueued : EnqueuedOnce smallCodec sampleNewer.record trace)
    (hbatch : ∀ e ∈ trace, e.once = false)
    (hlast : ((queuedRequests trace).filter (·.record = sampleNewer.record)).getLast? =
      some sampleNewer)
    (hrun : (run (FlushSystem.step smallCodec) {} trace).any fun s =>
      decide (s.backlog.redis.fenceSequence < 2 ^ 53 ∧
        s.backlog.redis.entries (entryKey (member sampleNewer.record)) = none ∧
        (s.pg.snapshots sampleNewer.record).map (·.payload) = some [7])) :
    LosesLast smallCodec sampleNewer.record trace := by
  obtain ⟨s, hrun, hfence, hnone, hpayload⟩ := exists_of_any hrun
  obtain ⟨row, hrow, hseven⟩ := Option.map_eq_some_iff.mp hpayload
  refine ⟨hqueued, hbatch, s, sampleNewer, row, hrun, hfence, hnone, hlast, hrow, ?_⟩
  rw [hseven]
  decide

/-- **The entry of the old instance is lost**: the stalled worker overwrites it with the value
of the enqueue before it, and after a sequenced one its flush counts as late, so that it is
acknowledged and the row keeps the older value. -/
theorem legacy_enqueues_lost :
    LosesLast smallCodec sampleNewer.record stalledWorker ∧
      LosesLast smallCodec sampleNewer.record rollingUpgrade := by
  constructor
  · exact losesLast_of_run ⟨by decide +kernel, by decide +kernel, by decide +kernel⟩ (by decide)
      (by decide +kernel) (by decide +kernel)
  · exact losesLast_of_run ⟨by decide +kernel, by decide +kernel, by decide +kernel⟩ (by decide)
      (by decide +kernel) (by decide +kernel)

end DbProxy
