/-
Which accepted saves can be flushed.

The enqueue path checks a save twice, in the conversion from the wire and in
`RedisSnapshotBacklog::validate`; the flush checks it again with the statements
it runs.  The two do not agree: nothing on the enqueue path looks at U+0000 in a
text or at the range of a timestamp.

* `poison_persists` — a request that cannot be stored stays in the backlog
  through every run of `process_backlog_batch`;
* `accepted_batch_flushes_iff` — an accepted batch is committed and acknowledged
  exactly when all of it can be stored;
* `poisoned_batch_blocks` — an accepted key with U+0000 keeps another record of
  the batch from being saved.
-/
import DbProxy.BacklogDrain
import DbProxy.BacklogRepresentation
import DbProxy.WireRequests
import DbProxy.WriteBehindSafety

namespace DbProxy

open EarlyReturn RedisSnapshotBacklog StepMachine Text

/-! ### The wire -/

/-- A batch that the enqueue path accepts into an empty backlog. -/
structure Accepted (codec : Bincode) (clock : RedisClock) (score : ℕ)
    (batch : List WireSaveSnapshotRequest) (requests : List SnapshotWrite) (s : BacklogSystem) :
    Prop where
  converted : batch.mapM (·.toSnapshotWrite) = .ok requests
  enqueued : BacklogSystem.step codec.encode {} (.enqueue clock score requests) = some s

/-! ### After the enqueue -/

theorem enqueueLoop_pending {score now : ℕ} {m : String} :
    ∀ {entries : List EnqueueEntry} {sequence : ℕ} {b : Backlog},
      m ∈ (b.enqueueLoop score now sequence entries).pending ↔
        m ∈ b.pending ∨ m ∈ entries.map (·.member)
  | [], _, b => by
    show m ∈ b.pending ↔ _
    simp
  | entry :: rest, sequence, b => by
    rw [Backlog.enqueueLoop, enqueueLoop_pending, List.map_cons, List.mem_cons,
      SortedSet.mem_zadd]
    tauto

theorem enqueueLoop_processing {score now : ℕ} :
    ∀ {entries : List EnqueueEntry} {sequence : ℕ} {b : Backlog},
      (b.enqueueLoop score now sequence entries).processing = b.processing
  | [], _, _ => rfl
  | entry :: rest, sequence, b => by rw [Backlog.enqueueLoop, enqueueLoop_processing]

theorem lastLogged_of_nodup {log : List LoggedEntry} {e : LoggedEntry}
    (hnodup : (log.map (·.member)).Nodup) (he : e ∈ log) :
    lastLogged e.member log = some e := by
  have hin : e ∈ log.filter (·.member = e.member) := List.mem_filter.mpr ⟨he, by simp⟩
  cases hlast : lastLogged e.member log with
  | none =>
    rw [lastLogged, List.getLast?_eq_none_iff] at hlast
    rw [hlast] at hin
    cases hin
  | some e' =>
    obtain ⟨he', hmember⟩ := mem_of_lastLogged hlast
    rw [List.inj_on_of_nodup_map hnodup he' he hmember]

theorem exists_log_of_zip {codec : Bincode} {log : List LoggedEntry}
    {requests : List SnapshotWrite} (h : List.Forall₂ (LogsRequest codec) log requests)
    {x : SnapshotWrite × ℕ} (hx : x ∈ requests.zip (log.map (·.sequence))) :
    ∃ e ∈ log, LogsRequest codec e x.1 ∧ e.sequence = x.2 := by
  induction h with
  | nil => simp at hx
  | @cons e q log requests hlogs _ ih =>
    rw [List.map_cons, List.zip_cons_cons] at hx
    rcases List.mem_cons.mp hx with rfl | hx
    · exact ⟨e, List.mem_cons_self .., hlogs, rfl⟩
    · obtain ⟨e', he', hrest⟩ := ih hx
      exact ⟨e', List.mem_cons_of_mem _ he', hrest⟩

/-- The batch with the sequences it got. -/
def sequenced (requests : List SnapshotWrite) (s : BacklogSystem) : List (SnapshotWrite × ℕ) :=
  requests.zip (s.log.map (·.sequence))

section Accepted

variable {codec : Bincode} {clock : RedisClock} {score : ℕ} {batch : List WireSaveSnapshotRequest}
  {requests : List SnapshotWrite} {s : BacklogSystem}

theorem Accepted.logs (h : Accepted codec clock score batch requests s) :
    List.Forall₂ (LogsRequest codec) s.log requests := by
  obtain ⟨entries, hentries, -, hlog⟩ := step_enqueue h.enqueued
  rw [hlog]
  exact logEntries_logs (Checks.mapM_eq_ok.mp hentries)

theorem Accepted.sequenced_fst (h : Accepted codec clock score batch requests s) :
    (sequenced requests s).map Prod.fst = requests := by
  rw [sequenced, List.map_fst_zip]
  rw [List.length_map, h.logs.length_eq]

theorem Accepted.valid (h : Accepted codec clock score batch requests s) :
    ∀ q ∈ requests, validate q = .ok () := by
  obtain ⟨entries, hentries, -, -⟩ := step_enqueue h.enqueued
  intro q hq
  obtain ⟨entry, -, hprepare⟩ := Checks.exists_of_forall₂_right
    (Checks.mapM_eq_ok.mp hentries).flip hq
  exact (prepare_ok hprepare).1

theorem mapM_prepare_members {entries : List EnqueueEntry}
    (h : List.Forall₂ (fun q entry => prepare codec.encode q = .ok entry) requests entries) :
    entries.map (·.member) = requests.map fun q => member q.record := by
  induction h with
  | nil => rfl
  | cons hprepare _ ih => rw [List.map_cons, List.map_cons, ih, (prepare_ok hprepare).2]

/-- The backlog holds the accepted batch and nothing else. -/
theorem Accepted.queued (h : Accepted codec clock score batch requests s)
    (hrecords : (requests.map (·.record)).Nodup) : Queued codec s.redis (sequenced requests s) := by
  have hinv := step_systemInv {} _ s init_systemInv h.enqueued
  obtain ⟨entries, hentries, hredis, hlog⟩ := step_enqueue h.enqueued
  have hmembers := mapM_prepare_members (Checks.mapM_eq_ok.mp hentries)
  have hbatch : (sequenced requests s).map (fun x => member x.1.record) =
      entries.map (·.member) := by
    rw [hmembers, show (fun x : SnapshotWrite × ℕ => member x.1.record) =
      (fun q => member q.record) ∘ Prod.fst from rfl, ← List.map_map, h.sequenced_fst]
  have hnodup : (entries.map (·.member)).Nodup := by
    rw [hmembers, show (fun q : SnapshotWrite => member q.record) =
      member ∘ fun q => q.record from rfl, ← List.map_map]
    exact hrecords.map member_injective
  refine ⟨?_, ?_, fun x hx => ?_⟩
  · rw [hbatch, List.perm_ext_iff_of_nodup s.redis.pending.nodup hnodup]
    intro m
    rw [← SortedSet.mem_def, hredis, enqueueLoop_pending]
    simp
  · rw [hredis, enqueueLoop_processing]
    rfl
  · -- the entry is there, with the bytes of the only enqueue of its member
    obtain ⟨e, he, hlogs, hseq⟩ := exists_log_of_zip h.logs hx
    have hlast : lastLogged (member x.1.record) s.log = some e := by
      rw [← hlogs.1]
      refine lastLogged_of_nodup ?_ he
      rw [hlog]
      show (logEntries _ _ entries).map (·.member) |>.Nodup
      rwa [logEntries_members]
    cases hentry : s.redis.entries (entryKey (member x.1.record)) with
    | none =>
      rw [hredis] at hentry
      obtain ⟨-, hothers⟩ := enqueueLoop_none hentry
      have hin : member x.1.record ∈ entries.map (·.member) :=
        hbatch ▸ List.mem_map.mpr ⟨x, hx, rfl⟩
      obtain ⟨entry, hmem, heq⟩ := List.mem_map.mp hin
      exact absurd (by rw [mapM_prepare_keys hentries entry hmem, heq]) (hothers entry hmem)
    | some bytes =>
      obtain ⟨e', hlast', hbytes⟩ := hinv.inv.stored _ _ hentry
      have heq : e' = e := Option.some.inj (hlast'.symm.trans hlast)
      rw [hbytes, heq, LoggedEntry.frame, hlogs.2, hseq]

end Accepted

/-! ### What cannot be stored -/

theorem prepareSave_bounds {q : SnapshotWrite} {n : ℕ} {p : PreparedSave}
    (h : prepareSave q (some n) = .ok p) : n < bigintLimit ∧ q.updatedAtUnixMs < bigintLimit := by
  obtain ⟨_, -, h⟩ := Checks.bind_eq_ok.mp h
  obtain ⟨fence, hfence, h⟩ := Checks.bind_eq_ok.mp h
  obtain ⟨expected, -, h⟩ := Checks.bind_eq_ok.mp h
  obtain ⟨updatedAt, htime, -⟩ := Checks.bind_eq_ok.mp h
  constructor
  · simp only [fenceToI64] at hfence
    split at hfence
    · cases hfence
    · split at hfence
      · assumption
      · cases hfence
  · rw [timestampToI64] at htime
    split at htime
    · assumption
    · cases htime

/-- An entry of a batch with a result could be stored. -/
theorem saveEntries_storable : ∀ {entries : List (SnapshotWrite × Option ℕ)} {pg pg' : Postgres}
    {results : List (Except StorageError SnapshotWriteOutcome)} {q : SnapshotWrite} {n : ℕ}
    {outcome : SnapshotWriteOutcome},
    (saveEntries entries).run pg = .ok results pg' →
    ((q, some n), .ok outcome) ∈ entries.zip results → Storable q n
  | [], _, _, _, _, _, _, _, hmem => by simp at hmem
  | x :: rest, pg, pg', results, q, n, outcome, hrun, hmem => by
    obtain ⟨result, results', m, rfl, hstep, hrest⟩ := saveEntries_cons hrun
    rw [List.zip_cons_cons] at hmem
    rcases List.mem_cons.mp hmem with hmem | hmem
    · obtain ⟨rfl, rfl⟩ := Prod.mk.inj hmem
      cases hstep with
      | saved hp hsave =>
        obtain ⟨hn, htime⟩ := prepareSave_bounds hp
        exact ⟨storableTexts_of_ok hsave, htime, hn⟩
    · exact saveEntries_storable hrest hmem

theorem decodeLease_claimed {codec : Bincode} {c : ClaimedEntry} {l : SnapshotBacklogLease}
    (h : decodeLease codec c = .ok l) : c = l.toClaimedEntry := by
  obtain ⟨r, -, h⟩ := Checks.bind_eq_ok.mp h
  dsimp only at h
  split at h
  · cases h
  · cases h
    rfl

/-- A lease with the stored bytes is one of the stored request. -/
theorem decodeLease_eq_ok {codec : Bincode} {n : ℕ} {q : SnapshotWrite} {c : ClaimedEntry}
    {l : SnapshotBacklogLease} (hcodec : codec.RoundTrips q)
    (hencoded : c.encoded = sequencedEntry n (codec.encode q))
    (h : decodeLease codec c = .ok l) : l.entry = (q, some n) := by
  obtain ⟨r, hdecode, h⟩ := Checks.bind_eq_ok.mp h
  rw [hencoded] at hdecode
  by_cases hn : n < bigintLimit
  · rw [decodeEntry_sequencedEntry hn hcodec] at hdecode
    cases hdecode
    dsimp only at h
    split at h
    · cases h
    · cases h
      rfl
  · rw [decodeEntry_sequenced, if_neg hn] at hdecode
    cases hdecode

/-- **A request that cannot be stored stays in the backlog**, whatever else a run of
`process_backlog_batch` claims and saves. -/
theorem poison_persists {codec : Bincode} {clock : RedisClock} {leaseMs maxItems now n : ℕ}
    {b : Backlog} {pg : Postgres} {q : SnapshotWrite} (hcodec : codec.RoundTrips q)
    (hbad : ¬ Storable q n)
    (hentry : b.entries (entryKey (member q.record)) = some (sequencedEntry n (codec.encode q))) :
    (processBacklogBatch codec clock leaseMs maxItems now b pg).2.1.entries
      (entryKey (member q.record)) = some (sequencedEntry n (codec.encode q)) := by
  rw [processBacklogBatch]
  split
  · exact hentry
  · obtain ⟨claimed, b', hclaim⟩ : ∃ claimed b', b.claimMultiScript clock leaseMs maxItems =
        (claimed, b') := ⟨_, _, rfl⟩
    have hsame : b'.entries = b.entries := by
      have h := ((reclaimExpired_sameEntries clock.unixMillis b).trans
        (claimMultiLoop_sameEntries (LuaNumber.add clock.unixMillis (LuaNumber.toDouble leaseMs))
          maxItems (reclaimLimit + maxItems) [] _)).1
      rw [← h]
      exact congrArg (fun r => r.2.entries) hclaim.symm
    rw [hclaim]
    dsimp only
    split
    · rw [hsame]
      exact hentry
    · rename_i leases hleases
      split
      · rw [releaseMultiScript_entries, hsame]
        exact hentry
      · rename_i outcomes pg' hsave
        suffices hack : (b'.ackMultiScript now ((committedLeases leases outcomes).map
            (·.toClaimedEntry))).2.entries (entryKey (member q.record)) =
            some (sequencedEntry n (codec.encode q)) by
          split <;> rw [releaseMultiScript_entries] <;> exact hack
        cases hafter : (b'.ackMultiScript now ((committedLeases leases outcomes).map
            (·.toClaimedEntry))).2.entries (entryKey (member q.record)) with
        | some bytes =>
          have hkept := (ackMultiScript_tidies now _ b').shrinks.entries _ _ hafter
          rw [hsame, hentry] at hkept
          exact hkept.symm
        | none =>
          -- the acknowledged lease is one of `q`, so `q` was stored
          obtain ⟨c, hc, -, -, hencoded⟩ := ackMultiScript_removes (hsame ▸ hentry) hafter
          obtain ⟨l, hl, rfl⟩ := List.mem_map.mp hc
          obtain ⟨sorted, results, hperm, hrun, hcommitted⟩ := saveBacklogLeases_ok hsave
          obtain ⟨outcome, hzip⟩ := hcommitted l hl
          obtain ⟨c', -, hdecode⟩ := Checks.exists_of_forall₂_right (Checks.mapM_eq_ok.mp hleases)
            (hperm.mem_iff.mp (List.of_mem_zip hzip).1)
          have hclaimed : c' = l.toClaimedEntry := decodeLease_claimed hdecode
          subst hclaimed
          have hentry' : l.entry = (q, some n) := decodeLease_eq_ok hcodec hencoded hdecode
          have hresult : ((q, some n), .ok outcome) ∈ (sorted.map (·.entry)).zip results := by
            rw [← hentry', List.zip_map_left]
            exact List.mem_map.mpr ⟨(l, .ok outcome), hzip, rfl⟩
          exact absurd (saveEntries_storable hrun hresult) hbad

/-! ### Batches and retries -/

/-- The parameters of one call of `process_backlog_batch`. -/
structure FlushCall where
  clock : RedisClock
  leaseMs : ℕ
  maxItems : ℕ
  now : ℕ

def FlushCall.run (codec : Bincode) (call : FlushCall) (redis : Backlog) (pg : Postgres) :
    Except BackendError (List SnapshotBacklogAck) × Backlog × Postgres :=
  processBacklogBatch codec call.clock call.leaseMs call.maxItems call.now redis pg

/-- The two stores after some calls. -/
def flushRetries (codec : Bincode) : List FlushCall → Backlog → Postgres → Backlog × Postgres
  | [], redis, pg => (redis, pg)
  | call :: rest, redis, pg =>
    let (_, redis, pg) := call.run codec redis pg
    flushRetries codec rest redis pg

/-- One call commits and acknowledges all requests against an empty PostgreSQL. -/
def FlushesAll (codec : Bincode) (call : FlushCall) (redis : Backlog)
    (requests : List SnapshotWrite) : Prop :=
  ∃ redis' pg, call.run codec redis {} =
      (.ok (List.replicate requests.length .removed), redis', pg) ∧
    ∀ q ∈ requests, redis'.entries (entryKey (member q.record)) = none ∧
      ∃ n, pg.snapshots q.record = some (rowOf q q.updatedAtUnixMs 1 (some n))

/-- Some number of calls removes the entry of `q` from the backlog. -/
def FlushesEventually (codec : Bincode) (redis : Backlog) (q : SnapshotWrite) : Prop :=
  ∃ calls, (flushRetries codec calls redis {}).1.entries (entryKey (member q.record)) = none

/-- No text contains U+0000, and timestamps and sequences are within `i64`. -/
def StorableBatch (requests : List SnapshotWrite) (s : BacklogSystem) : Prop :=
  (∀ q ∈ requests, storableTexts q ∧ q.updatedAtUnixMs < bigintLimit) ∧
    ∀ e ∈ s.log, e.sequence < bigintLimit

theorem flushRetries_poison {codec : Bincode} {n : ℕ} {q : SnapshotWrite}
    (hcodec : codec.RoundTrips q) (hbad : ¬ Storable q n) :
    ∀ {calls : List FlushCall} {b : Backlog} {pg : Postgres},
      b.entries (entryKey (member q.record)) = some (sequencedEntry n (codec.encode q)) →
      (flushRetries codec calls b pg).1.entries (entryKey (member q.record)) =
        some (sequencedEntry n (codec.encode q))
  | [], _, _, h => h
  | call :: rest, b, pg, h => by
    rw [flushRetries]
    exact flushRetries_poison hcodec hbad (poison_persists hcodec hbad h)

section Batches

variable {codec : Bincode} {clock : RedisClock} {score : ℕ} {batch : List WireSaveSnapshotRequest}
  {requests : List SnapshotWrite} {s : BacklogSystem}

theorem storableBatch_iff (h : Accepted codec clock score batch requests s) :
    StorableBatch requests s ↔ ∀ x ∈ sequenced requests s, Storable x.1 x.2 := by
  have hlength : s.log.length = requests.length := h.logs.length_eq
  constructor
  · rintro ⟨hrequests, hlog⟩ x hx
    obtain ⟨hq, hn⟩ := List.of_mem_zip hx
    obtain ⟨e, he, hseq⟩ := List.mem_map.mp hn
    obtain ⟨htexts, htime⟩ := hrequests x.1 hq
    exact ⟨htexts, htime, hseq ▸ hlog e he⟩
  · intro hall
    refine ⟨fun q hq => ?_, fun e he => ?_⟩
    · rw [← h.sequenced_fst] at hq
      obtain ⟨x, hx, rfl⟩ := List.mem_map.mp hq
      exact ⟨(hall x hx).texts, (hall x hx).timestamp⟩
    · have hsnd : (sequenced requests s).map Prod.snd = s.log.map (·.sequence) := by
        rw [sequenced, List.map_snd_zip]
        rw [List.length_map, hlength]
      have hin : e.sequence ∈ (sequenced requests s).map Prod.snd :=
        hsnd ▸ List.mem_map.mpr ⟨e, he, rfl⟩
      obtain ⟨x, hx, hseq⟩ := List.mem_map.mp hin
      exact hseq ▸ (hall x hx).sequence

/-- **When an accepted batch is flushed.**  A call that may claim the whole batch commits and
acknowledges all of it, and every request leaves the backlog after some retries, exactly
when all of the batch can be stored. -/
theorem accepted_batch_flushes_iff (call : FlushCall)
    (h : Accepted codec clock score batch requests s)
    (hrecords : (requests.map (·.record)).Nodup) (hids : (requests.map (·.requestId)).Nodup)
    (hcodec : ∀ q ∈ requests, codec.RoundTrips q)
    (hcheck : checkClaim call.leaseMs call.maxItems = .ok ())
    (hmax : requests.length ≤ call.maxItems) :
    (FlushesAll codec call s.redis requests ↔ StorableBatch requests s) ∧
      ((∀ q ∈ requests, FlushesEventually codec s.redis q) ↔ StorableBatch requests s) := by
  have hqueued := h.queued hrecords
  have hfst := h.sequenced_fst
  have hlength : (sequenced requests s).length = requests.length := by
    rw [← congrArg List.length hfst, List.length_map]
  have hcomplete : StorableBatch requests s → FlushesAll codec call s.redis requests := by
    intro hstorable
    rw [storableBatch_iff h] at hstorable
    have hmem : ∀ x ∈ sequenced requests s, x.1 ∈ requests := fun x hx =>
      hfst ▸ List.mem_map.mpr ⟨x, hx, rfl⟩
    obtain ⟨redis, pg, hrun, hrows⟩ := @processBacklogBatch_complete codec call.clock call.leaseMs
      call.maxItems call.now s.redis (sequenced requests s) hcheck (by omega) hqueued
      (by rw [← hfst, List.map_map] at hrecords; exact hrecords)
      (by rw [← hfst, List.map_map] at hids; exact hids)
      (fun x hx => ⟨hcodec x.1 (hmem x hx), h.valid x.1 (hmem x hx), hstorable x hx⟩)
    refine ⟨redis, pg, by rw [FlushCall.run, hrun, hlength], fun q hq => ?_⟩
    rw [← hfst] at hq
    obtain ⟨x, hx, rfl⟩ := List.mem_map.mp hq
    exact ⟨(hrows x hx).1, x.2, (hrows x hx).2⟩
  have heventually : FlushesAll codec call s.redis requests →
      ∀ q ∈ requests, FlushesEventually codec s.redis q := by
    rintro ⟨redis, pg, hrun, hrows⟩ q hq
    refine ⟨[call], ?_⟩
    rw [flushRetries, hrun]
    exact (hrows q hq).1
  have hnecessary : (∀ q ∈ requests, FlushesEventually codec s.redis q) →
      StorableBatch requests s := by
    intro hall
    rw [storableBatch_iff h]
    intro x hx
    -- otherwise the entry would stay through all retries
    by_contra hbad
    have hq : x.1 ∈ requests := hfst ▸ List.mem_map.mpr ⟨x, hx, rfl⟩
    obtain ⟨calls, hgone⟩ := hall x.1 hq
    rw [flushRetries_poison (hcodec x.1 hq) hbad (hqueued.entries x hx)] at hgone
    cases hgone
  exact ⟨⟨fun hflush => hnecessary (heventually hflush), hcomplete⟩,
    ⟨hnecessary, fun hstorable => heventually (hcomplete hstorable)⟩⟩

end Batches

/-! ### A key with U+0000 -/

def healthyWire : WireSaveSnapshotRequest :=
  ⟨"r-1", some ⟨"player", "1"⟩, "profile", 1, [7], none, 5⟩

def nulWire : WireSaveSnapshotRequest :=
  ⟨"r-2", some ⟨"player", "2\x00"⟩, "profile", 1, [8], none, 5⟩

def healthyWrite : SnapshotWrite := ⟨"r-1", ⟨"player", "1"⟩, "profile", 1, [7], none, 5⟩

def nulWrite : SnapshotWrite := ⟨"r-2", ⟨"player", "2\x00"⟩, "profile", 1, [8], none, 5⟩

def sampleClock : RedisClock := wholeSecond 1

def sampleCall : FlushCall := ⟨wholeSecond 2, 30000, 64, 0⟩

/-- Both saves are accepted, but the flush fails for both of them, and the one with U+0000
stays in the backlog through every retry. -/
theorem poisoned_batch_blocks :
    ∃ s, Accepted smallCodec sampleClock 0 [healthyWire, nulWire] [healthyWrite, nulWrite] s ∧
      (sampleCall.run smallCodec s.redis {}).1 = .error (.storage nulError) ∧
      (sampleCall.run smallCodec s.redis {}).2.2.snapshots healthyWrite.record = none ∧
      (sampleCall.run smallCodec s.redis {}).2.1.entries
        (entryKey (member healthyWrite.record)) ≠ none ∧
      ¬ FlushesAll smallCodec sampleCall s.redis [healthyWrite, nulWrite] ∧
      ¬ FlushesEventually smallCodec s.redis nulWrite := by
  have hreach : ∃ s, BacklogSystem.step smallCodec.encode {}
        (.enqueue sampleClock 0 [healthyWrite, nulWrite]) = some s ∧
      s.redis.entries (entryKey (member nulWrite.record)) =
        some (sequencedEntry 1000001 (smallCodec.encode nulWrite)) ∧
      (sampleCall.run smallCodec s.redis {}).1 = .error (.storage nulError) ∧
      (sampleCall.run smallCodec s.redis {}).2.2.snapshots healthyWrite.record = none ∧
      (sampleCall.run smallCodec s.redis {}).2.1.entries
        (entryKey (member healthyWrite.record)) ≠ none :=
    exists_of_any (by decide +kernel)
  obtain ⟨s, hs, hentry, hfails, hrow, hkept⟩ := hreach
  refine ⟨s, ⟨by decide +kernel, hs⟩, hfails, hrow, hkept, ?_, ?_⟩
  · rintro ⟨redis, pg, hrun, -⟩
    rw [hrun] at hfails
    cases hfails
  · rintro ⟨calls, hgone⟩
    have hbad : ¬ Storable nulWrite 1000001 := fun h => absurd h.texts (by decide +kernel)
    have hsmall : SmallWrite nulWrite :=
      ⟨by decide, by decide, by decide, by decide, by decide⟩
    rw [flushRetries_poison (smallCodec_roundTrips hsmall) hbad hentry] at hgone
    cases hgone

def secondWire : WireSaveSnapshotRequest :=
  ⟨"r-2", some ⟨"player", "2"⟩, "profile", 1, [8], none, 5⟩

def secondWrite : SnapshotWrite := ⟨"r-2", ⟨"player", "2"⟩, "profile", 1, [8], none, 5⟩

/-- A healthy batch is flushed by one call. -/
theorem accepted_batch_flushes_iff_sample :
    ∃ s, Accepted smallCodec sampleClock 0 [healthyWire, secondWire] [healthyWrite, secondWrite] s ∧
      FlushesAll smallCodec sampleCall s.redis [healthyWrite, secondWrite] := by
  have hreach : ∃ s, BacklogSystem.step smallCodec.encode {}
      (.enqueue sampleClock 0 [healthyWrite, secondWrite]) = some s ∧
      ∀ e ∈ s.log, e.sequence < bigintLimit :=
    exists_of_any (by decide +kernel)
  obtain ⟨s, hs, hlog⟩ := hreach
  have haccepted : Accepted smallCodec sampleClock 0 [healthyWire, secondWire]
      [healthyWrite, secondWrite] s := ⟨by decide +kernel, hs⟩
  refine ⟨s, haccepted, ?_⟩
  exact (accepted_batch_flushes_iff sampleCall haccepted (by decide) (by decide)
    (by decide +kernel) (by decide) (by decide)).1.mpr ⟨by decide +kernel, hlog⟩

end DbProxy
