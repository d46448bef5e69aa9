/-
An uninterrupted flush of a healthy batch.

What the invariants leave open is progress.  Here the scripts and the
statements are followed forward:

* `claimMultiLoop_complete` — a claim of enough items takes everything pending;
* `ackMultiScript_complete` — current leases with the stored bytes are removed;
* `saveEntries_fresh` — new records under new request ids are all applied;
* `processBacklogBatch_complete` — together: one run commits and acknowledges
  the whole backlog.
-/
import DbProxy.BacklogFlush
import DbProxy.BacklogInvariant

namespace DbProxy

open EarlyReturn RedisSnapshotBacklog

/-! ### Claiming everything -/

/-- Every pending member has an entry and no lease. -/
def Claimable (b : Backlog) : Prop :=
  ∀ m ∈ b.pending, (b.entries (entryKey m)).isSome ∧ m ∉ b.processing

theorem claimNext_of_claimable {deadline : ℕ} {b : Backlog} (h : Claimable b)
    (hne : b.pending.items ≠ []) :
    ∃ c b', b.claimNext deadline = some (some c, b') ∧
      b.pending.items.map (·.2) = c.member :: b'.pending.items.map (·.2) := by
  rw [Backlog.claimNext]
  cases hpop : b.pending.zpopmin with
  | none =>
    -- a set without a least member is empty
    obtain ⟨a, rest, hitems⟩ := List.exists_cons_of_ne_nil hne
    have hin : a.2 ∈ b.pending := by
      rw [SortedSet.mem_def, hitems]
      exact List.mem_cons_self ..
    exact absurd hin (SortedSet.zpopmin_eq_none hpop a.2)
  | some popped =>
    obtain ⟨m, pending⟩ := popped
    obtain ⟨hentry, hfree⟩ := h m (SortedSet.zpopmin_eq_some hpop).1
    obtain ⟨payload, hpayload⟩ := Option.isSome_iff_exists.mp hentry
    have hscore : (b.processing.zscore m).isSome = false := by
      rw [Bool.eq_false_iff]
      exact fun hscore => hfree (SortedSet.zscore_isSome.mp hscore)
    simp only [hpayload, hscore]
    exact ⟨_, _, rfl, SortedSet.zpopmin_items hpop⟩

theorem claimNext_of_empty {deadline : ℕ} {b : Backlog} (h : b.pending.items = []) :
    b.claimNext deadline = none := by
  rw [Backlog.claimNext]
  cases hpop : b.pending.zpopmin with
  | none => rfl
  | some popped =>
    have hmem := (SortedSet.zpopmin_eq_some hpop).1
    rw [SortedSet.mem_def, h] at hmem
    exact absurd hmem List.not_mem_nil

theorem claimMultiLoop_of_empty {deadline claimLimit rounds : ℕ} {claimed : List ClaimedEntry}
    {b : Backlog} (h : b.pending.items = []) :
    b.claimMultiLoop deadline claimLimit rounds claimed = (claimed, b) := by
  cases rounds with
  | zero => rfl
  | succ rounds =>
    rw [Backlog.claimMultiLoop, claimNext_of_empty h]
    split <;> rfl

/-- **A claim of enough items takes everything pending**, each with its stored bytes and
its own lease. -/
theorem claimMultiLoop_complete {deadline claimLimit : ℕ} :
    ∀ {rounds : ℕ} {claimed : List ClaimedEntry} {b : Backlog}, Claimable b →
      b.pending.items.length ≤ rounds → claimed.length + b.pending.items.length ≤ claimLimit →
      ∃ new, (b.claimMultiLoop deadline claimLimit rounds claimed).1 = claimed ++ new ∧
        new.map (·.member) = b.pending.items.map (·.2) ∧
        (∀ c ∈ new, b.entries (entryKey c.member) = some c.encoded ∧
          (b.claimMultiLoop deadline claimLimit rounds claimed).2.leases c.member =
            some c.leaseId) ∧
        ∀ m ∉ new.map (·.member),
          (b.claimMultiLoop deadline claimLimit rounds claimed).2.leases m = b.leases m := by
  intro rounds
  induction rounds with
  | zero =>
    intro claimed b _ hrounds _
    have hnil : b.pending.items = [] := List.eq_nil_of_length_eq_zero (by omega)
    exact ⟨[], (List.append_nil _).symm, by rw [hnil]; rfl, by simp, fun _ _ => rfl⟩
  | succ rounds ih =>
    intro claimed b h hrounds hlimit
    by_cases hnil : b.pending.items = []
    · rw [claimMultiLoop_of_empty hnil]
      exact ⟨[], (List.append_nil _).symm, by rw [hnil]; rfl, by simp, fun _ _ => rfl⟩
    · obtain ⟨c, b', hnext, hitems⟩ := @claimNext_of_claimable deadline b h hnil
      obtain ⟨hentry, -, -, hentries, hpending, hprocessing, hleases, -, -⟩ := claimNext_lease hnext
      have hlen : b.pending.items.length = b'.pending.items.length + 1 := by
        have := congrArg List.length hitems
        simpa using this
      have hnodup : c.member ∉ b'.pending.items.map (·.2) := by
        have := b.pending.nodup
        rw [hitems] at this
        exact (List.nodup_cons.mp this).1
      rw [Backlog.claimMultiLoop, if_neg (by omega), hnext]
      have h' : Claimable b' := by
        intro m hm
        obtain ⟨hm, hne⟩ := (hpending m).mp hm
        rw [hentries, hprocessing]
        refine ⟨(h m hm).1, ?_⟩
        rintro (heq | hin)
        · exact hne heq
        · exact (h m hm).2 hin
      obtain ⟨new, hnew, hmembers, hclaimed, hothers⟩ :=
        @ih (claimed ++ [c]) b' h' (by omega) (by rw [List.length_append]; simp; omega)
      have hc : c.member ∉ new.map (·.member) := by rwa [hmembers]
      refine ⟨c :: new, by rw [hnew, List.append_assoc]; rfl, ?_, ?_, ?_⟩
      · rw [List.map_cons, hmembers, hitems]
      · intro c' hc'
        rcases List.mem_cons.mp hc' with rfl | hc'
        · refine ⟨hentry, ?_⟩
          rw [hothers _ hc, hleases, Function.update_self]
        · rw [← hentries]
          exact hclaimed c' hc'
      · intro m hm
        rw [List.map_cons, List.mem_cons, not_or] at hm
        rw [hothers m hm.2, hleases, Function.update_of_ne hm.1]

/-! ### Acknowledging everything -/

theorem ackScript_removed {now : ℕ} {lease : ClaimedEntry} {b : Backlog}
    (hlease : b.leases lease.member = some lease.leaseId)
    (hentry : b.entries (entryKey lease.member) = some lease.encoded) :
    (b.ackScript now lease).1 = .removed ∧
      (b.ackScript now lease).2.entries =
        Function.update b.entries (entryKey lease.member) none ∧
      (b.ackScript now lease).2.leases = Function.update b.leases lease.member none := by
  have hentry' : (b.endLease lease.member).entries (entryKey lease.member) = some lease.encoded :=
    hentry
  rw [Backlog.ackScript, if_neg (by simp [hlease])]
  simp only [hentry', if_pos]
  exact ⟨trivial, rfl, rfl⟩

/-- Current leases with the stored bytes are all removed. -/
theorem ackMultiScript_complete {now : ℕ} : ∀ {leases : List ClaimedEntry} {b : Backlog},
    (leases.map (·.member)).Nodup →
    (∀ lease ∈ leases, b.leases lease.member = some lease.leaseId ∧
      b.entries (entryKey lease.member) = some lease.encoded) →
    (b.ackMultiScript now leases).1 = List.replicate leases.length .removed ∧
      ∀ lease ∈ leases, (b.ackMultiScript now leases).2.entries (entryKey lease.member) = none
  | [], _, _, _ => ⟨rfl, by simp⟩
  | lease :: rest, b, hnodup, h => by
    rw [List.map_cons, List.nodup_cons] at hnodup
    obtain ⟨hlease, hentry⟩ := h lease (List.mem_cons_self ..)
    obtain ⟨hremoved, hentries, hleases⟩ := @ackScript_removed now lease b hlease hentry
    have hrest : ∀ l ∈ rest, (b.ackScript now lease).2.leases l.member = some l.leaseId ∧
        (b.ackScript now lease).2.entries (entryKey l.member) = some l.encoded := by
      intro l hl
      have hne : l.member ≠ lease.member :=
        fun heq => hnodup.1 (List.mem_map.mpr ⟨l, hl, heq⟩)
      rw [hentries, hleases, Function.update_of_ne hne,
        Function.update_of_ne (by simpa using hne)]
      exact h l (List.mem_cons_of_mem _ hl)
    obtain ⟨hresults, hgone⟩ := @ackMultiScript_complete now rest _ hnodup.2 hrest
    refine ⟨?_, fun l hl => ?_⟩
    · show (b.ackScript now lease).1 :: ((b.ackScript now lease).2.ackMultiScript now rest).1 = _
      rw [hremoved, hresults]
      rfl
    · show ((b.ackScript now lease).2.ackMultiScript now rest).2.entries _ = none
      rcases List.mem_cons.mp hl with rfl | hl
      · -- what is gone stays gone
        have hnone : (b.ackScript now l).2.entries (entryKey l.member) = none := by
          rw [hentries, Function.update_self]
        by_contra hsome
        obtain ⟨bytes, hbytes⟩ := Option.ne_none_iff_exists'.mp hsome
        have := (ackMultiScript_tidies now rest _).shrinks.entries _ _ hbytes
        rw [hnone] at this
        cases this
      · exact hgone l hl

/-! ### Saving everything -/

/-- The texts of a request that PostgreSQL stores contain no U+0000. -/
def storableTexts (q : SnapshotWrite) : Bool :=
  !(hasNul q.requestId || hasNul q.record.ns || hasNul q.record.key || hasNul q.schema)

/-- The statements of an entry never bind a text with U+0000. -/
theorem storableTexts_of_ok {q : SnapshotWrite} {p : PreparedSave} {pg pg' : Postgres}
    {outcome : SnapshotWriteOutcome}
    (h : (saveSnapshotInTransaction q p).run pg = .ok outcome pg') : storableTexts q := by
  rw [saveSnapshotInTransaction] at h
  obtain ⟨claimed, m, hclaim, -⟩ := bind_run_eq_ok.mp h
  rw [claimReceipt] at hclaim
  obtain ⟨_, m', hbind, -⟩ := bind_run_eq_ok.mp hclaim
  have hnul := (bindTexts_ok hbind).2
  simp only [List.any_cons, List.any_nil, Bool.or_false, Bool.or_eq_false_iff] at hnul
  obtain ⟨hid, hns, hkey, hschema⟩ := hnul
  simp [storableTexts, hid, hns, hkey, hschema]

section Fresh

variable {q : SnapshotWrite} {p : PreparedSave} {pg : Postgres}

theorem claimReceipt_fresh
    (htexts : [q.requestId, q.record.ns, q.record.key, q.schema].any hasNul = false)
    (hid : pg.idempotency q.requestId = none) :
    (claimReceipt q p).run pg = .ok none { pg with
      idempotency := Function.update pg.idempotency q.requestId
        (some ⟨q.record, q.schema, q.schemaVersion, q.payload, p.expected, 0,
          some p.updatedAt⟩) } := by
  rw [claimReceipt, bind_run_ok (bindTexts_run htexts), get_bind, hid]
  rfl

theorem upsertFenced_fresh {updatedAt n : ℕ}
    (htexts : [q.record.ns, q.record.key, q.schema].any hasNul = false)
    (hrecord : pg.snapshots q.record = none) :
    (upsertFenced q updatedAt n).run pg = .ok (some 1) { pg with
      snapshots := Function.update pg.snapshots q.record
        (some (rowOf q updatedAt 1 (some n))) } := by
  rw [upsertFenced, bind_run_ok (bindTexts_run htexts), get_bind, hrecord]
  rfl

/-- A new record under a new request id is applied as revision one. -/
theorem save_fresh {n : ℕ} (htexts : storableTexts q) (hfence : p.fence = some n)
    (hid : pg.idempotency q.requestId = none) (hrecord : pg.snapshots q.record = none) :
    ∃ pg', (saveSnapshotInTransaction q p).run pg = .ok (.applied 1) pg' ∧
      pg'.snapshots = Function.update pg.snapshots q.record
        (some (rowOf q p.updatedAt 1 (some n))) ∧
      ∀ id ≠ q.requestId, pg'.idempotency id = pg.idempotency id := by
  simp only [storableTexts, Bool.not_eq_true', Bool.or_eq_false_iff] at htexts
  obtain ⟨⟨⟨hid', hns⟩, hkey⟩, hschema⟩ := htexts
  have hone : 1 < bigintLimit := by decide
  obtain ⟨pg₁, hclaim, hsame, hids⟩ : ∃ pg₁, (claimReceipt q p).run pg = .ok none pg₁ ∧
      pg₁.snapshots = pg.snapshots ∧ ∀ id ≠ q.requestId, pg₁.idempotency id = pg.idempotency id :=
    ⟨_, claimReceipt_fresh (by simp [*]) hid, rfl, fun id hne => Function.update_of_ne hne ..⟩
  have hrecord₁ : pg₁.snapshots q.record = none := by rw [hsame, hrecord]
  rw [saveSnapshotInTransaction, bind_run_ok hclaim, hfence]
  dsimp only
  rw [saveFencedSnapshot, bind_run_ok (upsertFenced_fresh (by simp [*]) hrecord₁)]
  dsimp only
  rw [bind_run_ok (setReceiptRevision_run (by simp [*]) hone),
    bind_run_ok (enqueueRepair_run (by simp [*]) hone)]
  refine ⟨_, rfl, by rw [hsame], fun id hne => ?_⟩
  dsimp only
  rw [Function.update_of_ne hne, hids id hne]

end Fresh

/-- What the flush can store: texts without U+0000, a timestamp and a sequence within `i64`. -/
structure Storable (q : SnapshotWrite) (n : ℕ) : Prop where
  texts : storableTexts q
  timestamp : q.updatedAtUnixMs < bigintLimit
  sequence : n < bigintLimit

theorem prepareSave_storable {q : SnapshotWrite} {n : ℕ} (hvalid : validate q = .ok ())
    (h : Storable q n) :
    ∃ p, prepareSave q (some n) = .ok p ∧ p.fence = some n ∧ p.updatedAt = q.updatedAtUnixMs := by
  simp only [validate] at hvalid
  split at hvalid
  · cases hvalid
  · rename_i hid
    split at hvalid
    · cases hvalid
    · rename_i hns
      split at hvalid
      · cases hvalid
      · rename_i hkey
        split at hvalid
        · cases hvalid
        · rename_i hexpected
          have hnone : q.expectedRevision = none := by simpa using hexpected
          refine ⟨⟨none, q.updatedAtUnixMs, some n⟩, ?_, rfl, rfl⟩
          simp only [prepareSave, validateRequest, fenceToI64, revisionToI64, timestampToI64, hid,
            hns, hkey, hnone, Bool.false_eq_true, if_false, Option.isSome_none, if_pos h.sequence,
            if_pos h.timestamp]
          rfl

/-- **New records under new request ids are all applied.** -/
theorem saveEntries_fresh : ∀ {entries : List (SnapshotWrite × ℕ)} {pg : Postgres},
    (entries.map (·.1.record)).Nodup → (entries.map (·.1.requestId)).Nodup →
    (∀ x ∈ entries, validate x.1 = .ok () ∧ Storable x.1 x.2 ∧
      pg.idempotency x.1.requestId = none ∧ pg.snapshots x.1.record = none) →
    ∃ pg', (saveEntries (entries.map fun x => (x.1, some x.2))).run pg =
        .ok (List.replicate entries.length (.ok (.applied 1))) pg' ∧
      (∀ x ∈ entries,
        pg'.snapshots x.1.record = some (rowOf x.1 x.1.updatedAtUnixMs 1 (some x.2))) ∧
      ∀ r ∉ entries.map (·.1.record), pg'.snapshots r = pg.snapshots r
  | [], pg, _, _, _ => ⟨pg, rfl, by simp, fun _ _ => rfl⟩
  | x :: rest, pg, hrecords, hids, h => by
    rw [List.map_cons, List.nodup_cons] at hrecords hids
    obtain ⟨hvalid, hstorable, hid, hrecord⟩ := h x (List.mem_cons_self ..)
    obtain ⟨p, hprepare, hfence, htime⟩ := prepareSave_storable hvalid hstorable
    obtain ⟨m, hsave, hsnapshots, hothers⟩ := save_fresh hstorable.texts hfence hid hrecord
    rw [htime] at hsnapshots
    have hentry : (saveEntry x.1 (some x.2)).run pg = .ok (.ok (.applied 1)) m := by
      rw [saveEntry, hprepare]
      show perEntry (saveSnapshotInTransaction x.1 p) pg = _
      rw [perEntry]
      rw [show saveSnapshotInTransaction x.1 p pg = .ok (.applied 1) m from hsave]
    have hrest : ∀ y ∈ rest, validate y.1 = .ok () ∧ Storable y.1 y.2 ∧
        m.idempotency y.1.requestId = none ∧ m.snapshots y.1.record = none := by
      intro y hy
      obtain ⟨hv, hs, hi, hr⟩ := h y (List.mem_cons_of_mem _ hy)
      have hine : y.1.requestId ≠ x.1.requestId :=
        fun heq => hids.1 (List.mem_map.mpr ⟨y, hy, heq⟩)
      have hrne : y.1.record ≠ x.1.record :=
        fun heq => hrecords.1 (List.mem_map.mpr ⟨y, hy, heq⟩)
      refine ⟨hv, hs, ?_, ?_⟩
      · rw [hothers _ hine, hi]
      · rw [hsnapshots, Function.update_of_ne hrne, hr]
    obtain ⟨pg', hrun, hrows, hframe⟩ := saveEntries_fresh hrecords.2 hids.2 hrest
    refine ⟨pg', ?_, fun y hy => ?_, fun r hr => ?_⟩
    · rw [List.map_cons, saveEntries, bind_run_ok hentry, bind_run_ok hrun]
      rfl
    · rcases List.mem_cons.mp hy with rfl | hy
      · rw [hframe _ hrecords.1, hsnapshots, Function.update_self]
      · exact hrows y hy
    · rw [List.map_cons, List.mem_cons, not_or] at hr
      rw [hframe r hr.2, hsnapshots, Function.update_of_ne hr.1]

/-! ### One run for the whole backlog -/

theorem rereadDuplicates_applied {revision : Revision} :
    ∀ {requests : List SnapshotWrite} {rows : RecordKey → Option SnapshotRow},
      rereadDuplicates rows (requests.zip
        (List.replicate requests.length (.ok (.applied revision)))) =
        List.replicate requests.length (.ok (.applied revision))
  | [], _ => rfl
  | q :: requests, rows => by
    rw [List.length_cons, List.replicate_succ, List.zip_cons_cons, rereadDuplicates,
      rereadDuplicates_applied]
    simp

theorem saveBacklogLeases_fresh {leases : List SnapshotBacklogLease} {pg : Postgres}
    (hrecords : (leases.map (·.request.record)).Nodup)
    (hids : (leases.map (·.request.requestId)).Nodup)
    (h : ∀ l ∈ leases, validate l.request = .ok () ∧
      Storable l.request (l.fenceSequence.getD 0) ∧
      pg.idempotency l.request.requestId = none ∧ pg.snapshots l.request.record = none) :
    ∃ pg', saveBacklogLeases leases pg =
        (.ok (List.replicate leases.length (.ok (.applied 1))), pg') ∧
      ∀ l ∈ leases, pg'.snapshots l.request.record =
        some (rowOf l.request l.request.updatedAtUnixMs 1 (some (l.fenceSequence.getD 0))) := by
  set indexed := sortOn (fun x : SnapshotBacklogLease × ℕ => x.1.request.record) leases.zipIdx
    with hindexed
  have hperm : (indexed.map Prod.fst).Perm leases := by
    refine ((sortOn_perm _ _).map Prod.fst).trans ?_
    rw [List.zipIdx_map_fst]
  have hlen : indexed.length = leases.length := by
    rw [hindexed, (sortOn_perm _ _).length_eq, List.length_zipIdx]
  -- the entries of the transaction, in the order of their records
  let entries : List (SnapshotWrite × ℕ) :=
    (indexed.map Prod.fst).map fun l => (l.request, l.fenceSequence.getD 0)
  have hentries : ∀ x ∈ entries, ∃ l ∈ leases, x = (l.request, l.fenceSequence.getD 0) := by
    intro x hx
    obtain ⟨l, hl, rfl⟩ := List.mem_map.mp hx
    exact ⟨l, hperm.mem_iff.mp hl, rfl⟩
  obtain ⟨pg', hrun, hrows, -⟩ := @saveEntries_fresh entries pg
    (by
      rw [List.map_map]
      exact ((hperm.map fun l => l.request.record).nodup_iff).mpr hrecords)
    (by
      rw [List.map_map]
      exact ((hperm.map fun l => l.request.requestId).nodup_iff).mpr hids)
    (fun x hx => by
      obtain ⟨l, hl, rfl⟩ := hentries x hx
      exact h l hl)
  refine ⟨pg', ?_, fun l hl => ?_⟩
  · have hzip : (indexed.map fun x => x.1.request).zip
        ((indexed.map fun x => x.1.fenceSequence.getD 0).map some) =
        entries.map fun x => (x.1, some x.2) := by
      rw [List.map_map, List.zip_map', List.map_map, List.map_map]
      rfl
    have hreplicate : List.replicate entries.length
        (.ok (.applied 1) : Except StorageError SnapshotWriteOutcome) =
        List.replicate (indexed.map fun x => x.1.request).length (.ok (.applied 1)) := by
      simp [entries]
    have hsave : TieredSnapshotStore.saveQueuedBatch (indexed.map fun x => x.1.request)
        (indexed.map fun x => x.1.fenceSequence.getD 0) pg =
        (.ok (List.replicate leases.length (.ok (.applied 1))), pg') := by
      rw [TieredSnapshotStore.saveQueuedBatch, saveQueuedBatch, if_neg (by simp), saveBatchFenced,
        hzip, hrun]
      dsimp only
      rw [hreplicate, rereadDuplicates_applied, List.length_map, hlen]
    rw [saveBacklogLeases]
    dsimp only
    rw [← hindexed, hsave]
    dsimp only
    rw [if_neg (by simp [hlen])]
    congr 1
    congr 1
    rw [List.eq_replicate_iff]
    constructor
    · rw [List.length_map, (sortOn_perm _ _).length_eq]
      simp [hlen]
    · intro o ho
      obtain ⟨⟨i, o'⟩, hmem, rfl⟩ := List.mem_map.mp ho
      have ho' := (List.of_mem_zip ((sortOn_perm _ _).mem_iff.mp hmem)).2
      rw [(List.mem_replicate.mp ho').2]
      rfl
  · have hin : (l.request, l.fenceSequence.getD 0) ∈ entries :=
      List.mem_map.mpr ⟨l, hperm.mem_iff.mpr hl, rfl⟩
    exact hrows _ hin

/-- The backlog holds exactly these requests, all waiting. -/
structure Queued (codec : Bincode) (b : Backlog) (batch : List (SnapshotWrite × ℕ)) : Prop where
  pending : (b.pending.items.map (·.2)).Perm (batch.map fun x => member x.1.record)
  processing : b.processing.items = []
  entries : ∀ x ∈ batch, b.entries (entryKey (member x.1.record)) =
    some (sequencedEntry x.2 (codec.encode x.1))

theorem Queued.claimable {codec : Bincode} {b : Backlog} {batch : List (SnapshotWrite × ℕ)}
    (h : Queued codec b batch) : Claimable b := by
  intro m hm
  obtain ⟨x, hx, rfl⟩ := List.mem_map.mp (h.pending.mem_iff.mp hm)
  refine ⟨by rw [h.entries x hx]; rfl, ?_⟩
  rw [SortedSet.mem_def, h.processing]
  exact List.not_mem_nil

theorem reclaimExpired_of_empty {now : ℕ} {b : Backlog} (h : b.processing.items = []) :
    b.reclaimExpired now = b := by
  rw [Backlog.reclaimExpired, SortedSet.zrangeByScore, h]
  rfl

theorem decodeLease_stored {codec : Bincode} {c : ClaimedEntry} {x : SnapshotWrite × ℕ}
    (hmember : c.member = member x.1.record)
    (hencoded : c.encoded = sequencedEntry x.2 (codec.encode x.1))
    (hcodec : codec.RoundTrips x.1) (hsequence : x.2 < bigintLimit) :
    decodeLease codec c = .ok { c with request := x.1, fenceSequence := some x.2 } := by
  rw [decodeLease, hencoded, decodeEntry_sequencedEntry hsequence hcodec]
  simp only [bind, Except.bind]
  rw [if_neg (by simp [hmember])]
  rfl

theorem committedLeases_replicate {leases : List SnapshotBacklogLease}
    {outcome : SnapshotWriteOutcome} :
    committedLeases leases (List.replicate leases.length (.ok outcome)) = leases ∧
      failedLeases leases (List.replicate leases.length (.ok outcome)) = [] := by
  induction leases with
  | nil => exact ⟨rfl, rfl⟩
  | cons l rest ih =>
    simp only [committedLeases, failedLeases, List.length_cons, List.replicate_succ,
      List.zip_cons_cons] at ih ⊢
    rw [List.filter_cons_of_pos rfl, List.filter_cons_of_neg (by simp [Except.isOk, Except.toBool]),
      List.map_cons, ih.1, ih.2]
    exact ⟨rfl, rfl⟩

theorem firstError_replicate {n : ℕ} {outcome : SnapshotWriteOutcome} :
    firstError (List.replicate n (.ok outcome)) = none := by
  rw [firstError, List.findSome?_eq_none_iff]
  intro o ho
  rw [(List.mem_replicate.mp ho).2]

/-- The batch that a claim returned, request by request. -/
theorem leases_perm_batch {batch : List (SnapshotWrite × ℕ)}
    {claimed : List ClaimedEntry} {leases : List SnapshotBacklogLease}
    (hrecords : (batch.map (·.1.record)).Nodup)
    (hmembers : (claimed.map (·.member)).Perm (batch.map fun x => member x.1.record))
    (hleases : List.Forall₂ (fun c l => ∃ x ∈ batch, c.member = member x.1.record ∧
      l = { c with request := x.1, fenceSequence := some x.2 }) claimed leases) :
    leases.map (·.toClaimedEntry) = claimed ∧
      (leases.map fun l => (l.request, l.fenceSequence.getD 0)).Perm batch := by
  have hclaimed : leases.map (·.toClaimedEntry) = claimed := by
    clear hmembers
    induction hleases with
    | nil => rfl
    | cons hl _ ih =>
      obtain ⟨x, -, -, rfl⟩ := hl
      rw [List.map_cons, ih]
  refine ⟨hclaimed, ?_⟩
  have hpair : ∀ l ∈ leases, ∃ x ∈ batch, l.member = member x.1.record ∧
      (l.request, l.fenceSequence.getD 0) = x := by
    intro l hl
    obtain ⟨c, -, x, hx, hmember, rfl⟩ := Checks.exists_of_forall₂_right hleases hl
    exact ⟨x, hx, hmember, rfl⟩
  have hbatch : batch.Nodup := List.Nodup.of_map _ hrecords
  have hnodup : (claimed.map (·.member)).Nodup := by
    rw [hmembers.nodup_iff, show (fun x : SnapshotWrite × ℕ => member x.1.record) =
      member ∘ fun x => x.1.record from rfl, ← List.map_map]
    exact hrecords.map member_injective
  have hmap : ((leases.map fun l => (l.request, l.fenceSequence.getD 0)).map
      fun x => member x.1.record) = claimed.map (·.member) := by
    rw [List.map_map, ← hclaimed, List.map_map]
    refine List.map_congr_left fun l hl => ?_
    obtain ⟨x, -, hmember, hx⟩ := hpair l hl
    show member (l.request, l.fenceSequence.getD 0).1.record = l.member
    rw [hx, hmember]
  have hleft : (leases.map fun l => (l.request, l.fenceSequence.getD 0)).Nodup :=
    List.Nodup.of_map (fun x : SnapshotWrite × ℕ => member x.1.record) (hmap ▸ hnodup)
  rw [List.perm_ext_iff_of_nodup hleft hbatch]
  intro x
  constructor
  · intro hx
    obtain ⟨l, hl, rfl⟩ := List.mem_map.mp hx
    obtain ⟨x, hx, -, heq⟩ := hpair l hl
    exact heq ▸ hx
  · intro hx
    -- the member of `x` was claimed, and members determine requests
    have hin : member x.1.record ∈ claimed.map (·.member) :=
      hmembers.mem_iff.mpr (List.mem_map.mpr ⟨x, hx, rfl⟩)
    rw [← hmap] at hin
    obtain ⟨y, hy, heq⟩ := List.mem_map.mp hin
    obtain ⟨l, hl, rfl⟩ := List.mem_map.mp hy
    obtain ⟨z, hz, -, hlz⟩ := hpair l hl
    have hxz : z = x := List.inj_on_of_nodup_map hrecords hz hx
      (member_injective (by rw [← hlz]; exact heq))
    rw [← hxz, ← hlz]
    exact hy

/-- **One run commits and acknowledges the whole backlog** when every request can be stored. -/
theorem processBacklogBatch_complete {codec : Bincode} {clock : RedisClock}
    {leaseMs maxItems now : ℕ} {b : Backlog} {batch : List (SnapshotWrite × ℕ)}
    (hcheck : checkClaim leaseMs maxItems = .ok ()) (hmax : batch.length ≤ maxItems)
    (hqueued : Queued codec b batch) (hrecords : (batch.map (·.1.record)).Nodup)
    (hids : (batch.map (·.1.requestId)).Nodup)
    (hbatch : ∀ x ∈ batch, codec.RoundTrips x.1 ∧ validate x.1 = .ok () ∧ Storable x.1 x.2) :
    ∃ redis pg, processBacklogBatch codec clock leaseMs maxItems now b {} =
        (.ok (List.replicate batch.length .removed), redis, pg) ∧
      ∀ x ∈ batch, redis.entries (entryKey (member x.1.record)) = none ∧
        pg.snapshots x.1.record = some (rowOf x.1 x.1.updatedAtUnixMs 1 (some x.2)) := by
  have hcount : b.pending.items.length = batch.length := by
    have := hqueued.pending.length_eq
    simpa using this
  -- the claim
  obtain ⟨claimed, hclaimed, hmembers, hcurrent, -⟩ := @claimMultiLoop_complete
    (LuaNumber.add clock.unixMillis (LuaNumber.toDouble leaseMs)) maxItems
    (reclaimLimit + maxItems) [] b hqueued.claimable (by omega) (by simp; omega)
  set after := (b.claimMultiLoop (LuaNumber.add clock.unixMillis (LuaNumber.toDouble leaseMs))
    maxItems (reclaimLimit + maxItems) []).2 with hafter
  have hscript : b.claimMultiScript clock leaseMs maxItems = (claimed, after) := by
    rw [Backlog.claimMultiScript, reclaimExpired_of_empty hqueued.processing]
    exact Prod.ext hclaimed rfl
  have hsame : after.entries = b.entries := (claimMultiLoop_sameEntries ..).1
  have hperm : (claimed.map (·.member)).Perm (batch.map fun x => member x.1.record) :=
    hmembers ▸ hqueued.pending
  -- decoding
  have hdecode : ∀ c ∈ claimed, ∃ l, decodeLease codec c = .ok l ∧ ∃ x ∈ batch,
      c.member = member x.1.record ∧ l = { c with request := x.1, fenceSequence := some x.2 } := by
    intro c hc
    obtain ⟨x, hx, hmember⟩ := List.mem_map.mp
      (hperm.mem_iff.mp (List.mem_map.mpr ⟨c, hc, rfl⟩))
    obtain ⟨hcodec, -, hstorable⟩ := hbatch x hx
    have hentry := (hcurrent c hc).1
    rw [← hmember, hqueued.entries x hx, Option.some_inj] at hentry
    exact ⟨_, decodeLease_stored hmember.symm hentry.symm hcodec hstorable.sequence, x, hx,
      hmember.symm, rfl⟩
  obtain ⟨leases, hleases⟩ := Checks.exists_forall₂ hdecode
  have hmapM : claimed.mapM (decodeLease codec) = .ok leases :=
    Checks.mapM_eq_ok.mpr (hleases.imp fun _ _ h => h.1)
  obtain ⟨htuples, hsorted⟩ := leases_perm_batch hrecords hperm (hleases.imp fun _ _ h => h.2)
  have hin : ∀ l ∈ leases, (l.request, l.fenceSequence.getD 0) ∈ batch := fun l hl =>
    hsorted.mem_iff.mp (List.mem_map.mpr ⟨l, hl, rfl⟩)
  -- the transaction
  obtain ⟨pg, hsave, hrows⟩ := @saveBacklogLeases_fresh leases {}
    (by
      have := ((hsorted.map fun x => x.1.record).nodup_iff).mpr hrecords
      rwa [List.map_map] at this)
    (by
      have := ((hsorted.map fun x => x.1.requestId).nodup_iff).mpr hids
      rwa [List.map_map] at this)
    (fun l hl => ⟨(hbatch _ (hin l hl)).2.1, (hbatch _ (hin l hl)).2.2, rfl, rfl⟩)
  -- the acknowledgements
  have hnodup : (claimed.map (·.member)).Nodup := by
    rw [hmembers]
    exact b.pending.nodup
  obtain ⟨hacks, hgone⟩ := @ackMultiScript_complete now claimed after hnodup fun c hc =>
    ⟨(hcurrent c hc).2, by rw [hsame]; exact (hcurrent c hc).1⟩
  have hlength : claimed.length = batch.length := by
    have := hperm.length_eq
    simpa using this
  refine ⟨(after.ackMultiScript now claimed).2, pg, ?_, fun x hx => ⟨?_, ?_⟩⟩
  · rw [processBacklogBatch, hcheck]
    dsimp only
    rw [hscript]
    dsimp only
    rw [hmapM]
    dsimp only
    rw [hsave]
    dsimp only
    rw [committedLeases_replicate.1, committedLeases_replicate.2, firstError_replicate, htuples]
    dsimp only
    rw [hacks, hlength]
    rfl
  · obtain ⟨c, hc, heq⟩ := List.mem_map.mp
      (hperm.mem_iff.mpr (List.mem_map.mpr ⟨x, hx, rfl⟩))
    rw [← heq]
    exact hgone c hc
  · obtain ⟨l, hl, rfl⟩ := List.mem_map.mp (hsorted.mem_iff.mpr hx)
    exact hrows l hl

end DbProxy
