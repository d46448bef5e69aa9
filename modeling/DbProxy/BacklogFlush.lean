/-
Flushing the backlog: from claimed tuples to PostgreSQL and back.

`RedisSnapshotBacklog::claim_multi` decodes what its script returned,
`save_backlog_leases` saves the leases in the order of their records and puts
the results back in the caller's order, and `process_backlog_batch` acknowledges
what was saved and releases the rest.

* `decodeEntry_sequencedEntry` — an entry decodes to its sequence and request;
* `member_injective` — the member name determines the record;
* `saveBacklogLeases_ok` — every lease meets the result of its own save.

Outside the repository: bincode, the parameter `Bincode`.
-/
import DbProxy.BacklogSystem
import DbProxy.LengthPrefix
import DbProxy.SnapshotSaves
import DbProxy.SortOn

namespace DbProxy

open LengthPrefix RedisSnapshotBacklog

/-! ### Decoding -/

/-- bincode of a snapshot write; `decode` may fail with a text. -/
structure Bincode where
  encode : SnapshotWrite → Bytes
  decode : Bytes → Except String SnapshotWrite

/-- The codec reads back what it wrote for this request. -/
def Bincode.RoundTrips (codec : Bincode) (request : SnapshotWrite) : Prop :=
  codec.decode (codec.encode request) = .ok request

instance (codec : Bincode) (request : SnapshotWrite) : Decidable (codec.RoundTrips request) :=
  inferInstanceAs (Decidable (_ = _))

structure SnapshotBacklogLease extends ClaimedEntry where
  request : SnapshotWrite
  fenceSequence : Option ℕ

/-- `text.parse::<u64>()`: digits after an optional plus sign. -/
def parseU64 (text : Bytes) : Option ℕ :=
  (Decimal.parse (if text.head? = some 43 then text.tail else text)).filter (· < 2 ^ 64)

def decodeRequest (codec : Bincode) (bytes : Bytes) : Except StorageError SnapshotWrite :=
  (codec.decode bytes).mapError .codec

/-- `decode_entry`: entries from before the upgrade have no tag and no sequence. -/
def decodeEntry (codec : Bincode) (bytes : Bytes) :
    Except StorageError (Option ℕ × SnapshotWrite) :=
  if sequencedEntryTag.isPrefixOf bytes then
    let rest := bytes.drop sequencedEntryTag.length
    match rest.findIdx? (· == 58) with
    | none => .error (.backlogProtocol "sequenced entry has no separator")
    | some separator =>
      match (parseU64 (rest.take separator)).filter (· < bigintLimit) with
      | none => .error (.backlogProtocol "sequenced entry has an invalid sequence")
      | some sequence => do
        let request ← decodeRequest codec (rest.drop (separator + 1))
        return (some sequence, request)
  else do
    let request ← decodeRequest codec bytes
    return (none, request)

/-- The checks of `claim_multi`. -/
def checkClaim (leaseMs maxItems : ℕ) : Except StorageError Unit :=
  if leaseMs = 0 then .error .invalidBacklogLease
  else if maxItems = 0 then .error (.backlogProtocol "batch claim size is zero")
  else if bigintLimit ≤ leaseMs then .error (.backlogLeaseTooLarge leaseMs)
  else if bigintLimit ≤ maxItems then .error (.backlogProtocol "batch claim size is too large")
  else .ok ()

/-- One tuple of `claim_multi`. -/
def decodeLease (codec : Bincode) (claimed : ClaimedEntry) :
    Except StorageError SnapshotBacklogLease := do
  let (fenceSequence, request) ← decodeEntry codec claimed.encoded
  if member request.record ≠ claimed.member then
    .error (.backlogProtocol "batch claim record member does not match payload")
  else return { claimed with request, fenceSequence }

/-! ### Saving -/

/-- Legacy entries flush with sequence zero. -/
def saveBacklogLeases (leases : List SnapshotBacklogLease) (pg : Postgres) :
    Except BackendError (List (Except BackendError SnapshotWriteOutcome)) × Postgres :=
  let indexed := sortOn (fun x => x.1.request.record) leases.zipIdx
  match TieredSnapshotStore.saveQueuedBatch (indexed.map (·.1.request))
      (indexed.map fun x => x.1.fenceSequence.getD 0) pg with
  | (.error e, pg) => (.error (.storage e), pg)
  | (.ok outcomes, pg) =>
    if outcomes.length ≠ indexed.length then
      (.error (.worker "queued batch save result count mismatch"), pg)
    else
      let restored := sortOn Prod.fst ((indexed.map Prod.snd).zip outcomes)
      (.ok (restored.map fun x => x.2.mapError .storage), pg)

/-- The leases whose save has a result. -/
def committedLeases (leases : List SnapshotBacklogLease)
    (outcomes : List (Except BackendError SnapshotWriteOutcome)) : List SnapshotBacklogLease :=
  ((leases.zip outcomes).filter (·.2.isOk)).map (·.1)

def failedLeases (leases : List SnapshotBacklogLease)
    (outcomes : List (Except BackendError SnapshotWriteOutcome)) : List SnapshotBacklogLease :=
  ((leases.zip outcomes).filter (!·.2.isOk)).map (·.1)

def firstError (outcomes : List (Except BackendError SnapshotWriteOutcome)) :
    Option BackendError :=
  outcomes.findSome? fun
    | .error e => some e
    | .ok _ => none

/-- `process_backlog_batch` without interruption; `now` is the worker's clock.  The count
check after `save_backlog_leases` repeats the one inside. -/
def processBacklogBatch (codec : Bincode) (clock : RedisClock) (leaseMs maxItems now : ℕ)
    (redis : Backlog) (pg : Postgres) :
    Except BackendError (List SnapshotBacklogAck) × Backlog × Postgres :=
  match checkClaim leaseMs maxItems with
  | .error e => (.error (.storage e), redis, pg)
  | .ok () =>
    let (claimed, redis) := redis.claimMultiScript clock leaseMs maxItems
    match claimed.mapM (decodeLease codec) with
    | .error e => (.error (.storage e), redis, pg)
    | .ok leases =>
      match saveBacklogLeases leases pg with
      | (.error e, pg) =>
        (.error e, (redis.releaseMultiScript now (leases.map (·.toClaimedEntry))).2, pg)
      | (.ok outcomes, pg) =>
        let committed := (committedLeases leases outcomes).map (·.toClaimedEntry)
        let failed := (failedLeases leases outcomes).map (·.toClaimedEntry)
        let (acknowledgements, redis) := redis.ackMultiScript now committed
        let redis := (redis.releaseMultiScript now failed).2
        match firstError outcomes with
        | some e => (.error e, redis, pg)
        | none => (.ok acknowledgements, redis, pg)

/-! ### The decoder reads what the script wrote -/

theorem parseU64_bytes (n : ℕ) :
    parseU64 (Decimal.bytes n) = if n < 2 ^ 64 then some n else none := by
  have hhead : (Decimal.bytes n).head? ≠ some 43 := by
    intro hplus
    have hdigit := Decimal.isDigit_of_mem_bytes (List.mem_of_mem_head? hplus)
    exact absurd hdigit (by decide)
  rw [parseU64, if_neg hhead, Decimal.parse_bytes, Option.filter_some]
  simp only [decide_eq_true_eq]

/-- The separator of an entry is the first colon after the tag. -/
theorem findIdx_separator (n : ℕ) (x : Bytes) :
    (Decimal.bytes n ++ 58 :: x).findIdx? (· == 58) = some (Decimal.bytes n).length := by
  have hnone : (Decimal.bytes n).findIdx? (· == 58) = none := by
    rw [List.findIdx?_eq_none_iff]
    intro b hb
    have hdigit := Decimal.isDigit_of_mem_bytes hb
    by_contra hcolon
    have heq : b = 58 := by simpa using hcolon
    rw [heq] at hdigit
    exact absurd hdigit (by decide)
  rw [List.findIdx?_append, hnone, List.findIdx?_cons]
  simp

/-- What the script stored decodes to its sequence, if that fits, and its request. -/
theorem decodeEntry_sequenced (codec : Bincode) (n : ℕ) (x : Bytes) :
    decodeEntry codec (sequencedEntry n x) =
      if n < bigintLimit then do
        let request ← decodeRequest codec x
        return (some n, request)
      else .error (.backlogProtocol "sequenced entry has an invalid sequence") := by
  have htag : sequencedEntryTag.isPrefixOf (sequencedEntry n x) = true := by
    rw [List.isPrefixOf_iff_prefix, sequencedEntry, List.append_assoc]
    exact List.prefix_append _ _
  have hrest : (sequencedEntry n x).drop sequencedEntryTag.length =
      Decimal.bytes n ++ 58 :: x := by
    rw [sequencedEntry, List.append_assoc, List.drop_left]
  have hdrop : (Decimal.bytes n ++ 58 :: x).drop ((Decimal.bytes n).length + 1) = x := by
    rw [List.append_cons, show (Decimal.bytes n).length + 1 = (Decimal.bytes n ++ [58]).length by
      simp, List.drop_left]
  rw [decodeEntry, if_pos htag, hrest]
  dsimp only
  rw [findIdx_separator]
  dsimp only
  rw [List.take_left, parseU64_bytes, hdrop]
  by_cases hn : n < bigintLimit
  · have hn' : n < 2 ^ 64 := lt_trans hn (by decide)
    rw [if_pos hn', Option.filter_some, if_pos (decide_eq_true hn), if_pos hn]
  · rw [if_neg hn]
    split
    · rfl
    · rename_i sequence hfilter
      obtain ⟨hsome, hsmall⟩ := Option.filter_eq_some_iff.mp hfilter
      rw [Option.ite_none_right_eq_some, Option.some_inj] at hsome
      rw [← hsome.2] at hsmall
      exact absurd (of_decide_eq_true hsmall) hn

theorem decodeEntry_sequencedEntry {codec : Bincode} {n : ℕ} {request : SnapshotWrite}
    (hn : n < bigintLimit) (hcodec : codec.RoundTrips request) :
    decodeEntry codec (sequencedEntry n (codec.encode request)) = .ok (some n, request) := by
  rw [decodeEntry_sequenced, if_pos hn, decodeRequest, hcodec]
  rfl

/-! ### Member names -/

/-- Different records have different members. -/
theorem member_injective : Function.Injective member := by
  intro r r' h
  have hlist := congrArg String.toList h
  simp only [member, String.toList_append, List.append_assoc] at hlist
  -- length, namespace, length, key
  obtain ⟨hnslen, hlist⟩ := repr_append_inj hlist
  obtain ⟨hns, hlist⟩ := text_append_inj hnslen hlist
  rw [List.append_cancel_left_eq] at hlist
  obtain ⟨-, hkey⟩ := repr_append_inj hlist
  have hkey : r.key = r'.key := String.ext hkey
  calc r = ⟨r.ns, r.key⟩ := rfl
    _ = ⟨r'.ns, r'.key⟩ := by rw [hns, hkey]

/-! ### Every lease meets its own result -/

theorem rereadDuplicates_length : ∀ {rows : RecordKey → Option SnapshotRow}
    {results : List (SnapshotWrite × Except StorageError SnapshotWriteOutcome)},
    (rereadDuplicates rows results).length = results.length
  | _, [] => rfl
  | rows, (request, .ok (.duplicate revision)) :: rest => by
    rw [rereadDuplicates, List.length_cons, List.length_cons, rereadDuplicates_length]
  | rows, (request, .ok (.applied revision)) :: rest => by
    rw [rereadDuplicates, List.length_cons, List.length_cons, rereadDuplicates_length]
    simp
  | rows, (request, .error e) :: rest => by
    rw [rereadDuplicates, List.length_cons, List.length_cons, rereadDuplicates_length]
    simp

/-- The re-read turns no failure into a success. -/
theorem rereadDuplicates_ok {γ : Type} {outcome : SnapshotWriteOutcome} {tag : γ} :
    ∀ {results : List (SnapshotWrite × Except StorageError SnapshotWriteOutcome)}
      {rows : RecordKey → Option SnapshotRow} {tags : List γ},
      (tag, .ok outcome) ∈ tags.zip (rereadDuplicates rows results) →
      (tag, .ok outcome) ∈ tags.zip (results.map Prod.snd)
  | [], rows, tags, h => by simp [rereadDuplicates] at h
  | _ :: _, rows, [], h => by simp at h
  | (request, .ok (.duplicate revision)) :: rest, rows, t :: tags, h => by
    rw [rereadDuplicates, List.zip_cons_cons] at h
    rw [List.map_cons, List.zip_cons_cons]
    rcases List.mem_cons.mp h with h | h
    · -- a duplicate that is still there keeps its result
      split at h
      · exact h ▸ List.mem_cons_self ..
      · simp at h
    · exact List.mem_cons_of_mem _ (rereadDuplicates_ok h)
  | (request, .ok (.applied revision)) :: rest, rows, t :: tags, h => by
    rw [rereadDuplicates, List.zip_cons_cons] at h
    · rw [List.map_cons, List.zip_cons_cons]
      rcases List.mem_cons.mp h with h | h
      · exact h ▸ List.mem_cons_self ..
      · exact List.mem_cons_of_mem _ (rereadDuplicates_ok h)
    · simp
  | (request, .error e) :: rest, rows, t :: tags, h => by
    rw [rereadDuplicates, List.zip_cons_cons] at h
    · rw [List.map_cons, List.zip_cons_cons]
      rcases List.mem_cons.mp h with h | h
      · exact h ▸ List.mem_cons_self ..
      · exact List.mem_cons_of_mem _ (rereadDuplicates_ok h)
    · simp

/-- The re-read leaves what was applied. -/
theorem rereadDuplicates_keeps_applied {γ : Type} {revision : Revision} {tag : γ} :
    ∀ {results : List (SnapshotWrite × Except StorageError SnapshotWriteOutcome)}
      {rows : RecordKey → Option SnapshotRow} {tags : List γ},
      (tag, .ok (.applied revision)) ∈ tags.zip (results.map Prod.snd) →
      (tag, .ok (.applied revision)) ∈ tags.zip (rereadDuplicates rows results)
  | [], rows, tags, h => by simp at h
  | _ :: _, rows, [], h => by simp at h
  | (request, .ok (.duplicate revision')) :: rest, rows, t :: tags, h => by
    rw [rereadDuplicates, List.zip_cons_cons]
    rw [List.map_cons, List.zip_cons_cons] at h
    rcases List.mem_cons.mp h with h | h
    · simp at h
    · exact List.mem_cons_of_mem _ (rereadDuplicates_keeps_applied h)
  | (request, .ok (.applied revision')) :: rest, rows, t :: tags, h => by
    rw [rereadDuplicates, List.zip_cons_cons]
    · rw [List.map_cons, List.zip_cons_cons] at h
      rcases List.mem_cons.mp h with h | h
      · exact h ▸ List.mem_cons_self ..
      · exact List.mem_cons_of_mem _ (rereadDuplicates_keeps_applied h)
    · simp
  | (request, .error e) :: rest, rows, t :: tags, h => by
    rw [rereadDuplicates, List.zip_cons_cons]
    · rw [List.map_cons, List.zip_cons_cons] at h
      rcases List.mem_cons.mp h with h | h
      · simp at h
      · exact List.mem_cons_of_mem _ (rereadDuplicates_keeps_applied h)
    · simp

/-- The entry of a lease in the shared transaction. -/
def SnapshotBacklogLease.entry (lease : SnapshotBacklogLease) : SnapshotWrite × Option ℕ :=
  (lease.request, some (lease.fenceSequence.getD 0))

theorem saveQueuedBatch_ok {leases : List SnapshotBacklogLease} {pg pg' : Postgres}
    {outcomes : List (Except StorageError SnapshotWriteOutcome)}
    (h : TieredSnapshotStore.saveQueuedBatch (leases.map (·.request))
      (leases.map fun lease => lease.fenceSequence.getD 0) pg = (.ok outcomes, pg')) :
    ∃ results, (saveEntries (leases.map (·.entry))).run pg = .ok results pg' ∧
      outcomes = rereadDuplicates pg'.snapshots ((leases.map (·.request)).zip results) := by
  have hentries : (leases.map (·.request)).zip
      ((leases.map fun lease => lease.fenceSequence.getD 0).map some) = leases.map (·.entry) := by
    rw [List.map_map, List.zip_map']
    rfl
  rw [TieredSnapshotStore.saveQueuedBatch, saveQueuedBatch, if_neg (by simp), saveBatchFenced,
    hentries] at h
  cases hrun : (saveEntries (leases.map (·.entry))).run pg with
  | error e m =>
    rw [hrun] at h
    simp at h
  | ok results m =>
    rw [hrun] at h
    simp only [Prod.mk.injEq, Except.ok.injEq] at h
    obtain ⟨rfl, rfl⟩ := h
    exact ⟨results, rfl, rfl⟩

theorem saveQueuedBatch_error {requests : List SnapshotWrite} {sequences : List ℕ}
    {pg pg' : Postgres} {e : StorageError}
    (h : TieredSnapshotStore.saveQueuedBatch requests sequences pg = (.error e, pg')) :
    pg' = pg := by
  rw [TieredSnapshotStore.saveQueuedBatch, saveQueuedBatch] at h
  split at h
  · rename_i e' m hsave
    split at hsave
    · cases hsave
      cases h
      rfl
    · rw [saveBatchFenced] at hsave
      split at hsave
      · cases hsave
      · cases hsave
        cases h
        rfl
  · cases h

/-- What a flush says about its leases: an error of the batch, or the result of every
lease. -/
theorem saveBacklogLeases_cases (leases : List SnapshotBacklogLease) (pg : Postgres) :
    (∃ e, saveBacklogLeases leases pg = (.error e, pg)) ∨
      ∃ (sorted : List SnapshotBacklogLease)
        (results : List (Except StorageError SnapshotWriteOutcome))
        (outcomes : List (Except BackendError SnapshotWriteOutcome)) (pg' : Postgres),
        saveBacklogLeases leases pg = (.ok outcomes, pg') ∧ sorted.Perm leases ∧
        (saveEntries (sorted.map (·.entry))).run pg = .ok results pg' ∧
        (leases.zip outcomes).Perm ((sorted.zip (rereadDuplicates pg'.snapshots
          ((sorted.map (·.request)).zip results))).map
            (Prod.map id (Except.mapError BackendError.storage))) := by
  set indexed := sortOn (fun x : SnapshotBacklogLease × ℕ => x.1.request.record) leases.zipIdx
    with hindexed
  have hperm : (indexed.map Prod.fst).Perm leases := by
    refine ((sortOn_perm _ _).map Prod.fst).trans ?_
    rw [List.zipIdx_map_fst]
  have hlength : indexed.length = leases.length := by
    rw [hindexed, (sortOn_perm _ leases.zipIdx).length_eq, List.length_zipIdx]
  rw [saveBacklogLeases]
  dsimp only
  rw [← hindexed,
    show indexed.map (fun x => x.1.request) = (indexed.map Prod.fst).map (·.request) by simp,
    show indexed.map (fun x => x.1.fenceSequence.getD 0) =
      (indexed.map Prod.fst).map fun lease => lease.fenceSequence.getD 0 by simp]
  cases hsave : TieredSnapshotStore.saveQueuedBatch ((indexed.map Prod.fst).map (·.request))
      ((indexed.map Prod.fst).map fun lease => lease.fenceSequence.getD 0) pg with
  | mk saved m =>
    cases saved with
    | error e =>
      rw [saveQueuedBatch_error hsave]
      exact Or.inl ⟨_, rfl⟩
    | ok saved =>
      obtain ⟨results, hrun, hsaved⟩ := saveQueuedBatch_ok hsave
      have hlen : saved.length = indexed.length := by
        have hresults := saveEntries_length hrun
        simp only [List.length_map] at hresults
        rw [hsaved, rereadDuplicates_length]
        simp [hresults]
      dsimp only
      rw [if_neg (not_not.mpr hlen)]
      refine Or.inr ⟨indexed.map Prod.fst, results, _, m, rfl, hperm, hrun, ?_⟩
      have hmap : (sortOn Prod.fst ((indexed.map Prod.snd).zip saved)).map
          (fun x => x.2.mapError BackendError.storage) =
          ((sortOn Prod.fst ((indexed.map Prod.snd).zip saved)).map Prod.snd).map
            (Except.mapError BackendError.storage) := by
        rw [List.map_map]
        rfl
      rw [hmap, List.zip_map_right, ← hsaved]
      exact (zip_restore_perm (fun x : SnapshotBacklogLease => x.request.record) leases saved
        (hlen.trans hlength)).map _

/-- The transaction of a flush: rolled back, or the saves of the leases in some order. -/
theorem saveBacklogLeases_state (leases : List SnapshotBacklogLease) (pg : Postgres) :
    (saveBacklogLeases leases pg).2 = pg ∨
      ∃ (sorted : List SnapshotBacklogLease)
        (results : List (Except StorageError SnapshotWriteOutcome)), sorted.Perm leases ∧
        (saveEntries (sorted.map (·.entry))).run pg =
          .ok results (saveBacklogLeases leases pg).2 := by
  rcases saveBacklogLeases_cases leases pg with
    ⟨e, hsave⟩ | ⟨sorted, results, outcomes, pg', hsave, hperm, hrun, -⟩
  · exact Or.inl (by rw [hsave])
  · rw [hsave]
    exact Or.inr ⟨sorted, results, hperm, hrun⟩

section Zip

variable {leases sorted : List SnapshotBacklogLease} {rows : RecordKey → Option SnapshotRow}
  {results : List (Except StorageError SnapshotWriteOutcome)}
  {outcomes : List (Except BackendError SnapshotWriteOutcome)} {lease : SnapshotBacklogLease}

/-- A result of a lease is one of its own save. -/
theorem result_of_zip {outcome : SnapshotWriteOutcome} (hlen : results.length = sorted.length)
    (hzip : (leases.zip outcomes).Perm ((sorted.zip (rereadDuplicates rows
      ((sorted.map (·.request)).zip results))).map
        (Prod.map id (Except.mapError BackendError.storage))))
    (h : (lease, .ok outcome) ∈ leases.zip outcomes) :
    (lease, .ok outcome) ∈ sorted.zip results := by
  obtain ⟨⟨lease', result⟩, hmem, hpair⟩ := List.mem_map.mp (hzip.mem_iff.mp h)
  simp only [Prod.map_apply, id_eq, Prod.mk.injEq, Checks.mapError_eq_ok] at hpair
  obtain ⟨rfl, rfl⟩ := hpair
  have hown := rereadDuplicates_ok hmem
  rwa [List.map_snd_zip] at hown
  simp [hlen]

/-- A lease that was applied is told so. -/
theorem applied_of_zip {revision : Revision} (hlen : results.length = sorted.length)
    (hzip : (leases.zip outcomes).Perm ((sorted.zip (rereadDuplicates rows
      ((sorted.map (·.request)).zip results))).map
        (Prod.map id (Except.mapError BackendError.storage))))
    (h : (lease, .ok (.applied revision)) ∈ sorted.zip results) :
    (lease, .ok (.applied revision)) ∈ leases.zip outcomes := by
  have hsnd : ((sorted.map (·.request)).zip results).map Prod.snd = results := by
    rw [List.map_snd_zip]
    simp [hlen]
  rw [← hsnd] at h
  exact hzip.mem_iff.mpr (List.mem_map.mpr ⟨_, rereadDuplicates_keeps_applied h, rfl⟩)

end Zip

/-- **A flush with results**: the leases were saved in one transaction, in some order, and a
lease counts as committed only with a result of its own save. -/
theorem saveBacklogLeases_ok {leases : List SnapshotBacklogLease} {pg pg' : Postgres}
    {outcomes : List (Except BackendError SnapshotWriteOutcome)}
    (h : saveBacklogLeases leases pg = (.ok outcomes, pg')) :
    ∃ (sorted : List SnapshotBacklogLease)
      (results : List (Except StorageError SnapshotWriteOutcome)), sorted.Perm leases ∧
      (saveEntries (sorted.map (·.entry))).run pg = .ok results pg' ∧
      ∀ lease ∈ committedLeases leases outcomes,
        ∃ outcome, (lease, .ok outcome) ∈ sorted.zip results := by
  rcases saveBacklogLeases_cases leases pg with
    ⟨e, hsave⟩ | ⟨sorted, results, outcomes', m, hsave, hperm, hrun, hzip⟩
  · rw [hsave] at h
    cases h
  · rw [hsave] at h
    cases h
    refine ⟨sorted, results, hperm, hrun, fun lease hlease => ?_⟩
    obtain ⟨⟨_, result⟩, hpair, rfl⟩ := List.mem_map.mp hlease
    obtain ⟨hpair, hok⟩ := List.mem_filter.mp hpair
    cases result with
    | error e => simp [Except.isOk, Except.toBool] at hok
    | ok outcome =>
      have hlen : results.length = sorted.length := by simpa using saveEntries_length hrun
      exact ⟨outcome, result_of_zip hlen hzip hpair⟩

end DbProxy
