/-
A batch read through the cache answers by position.

`Progress` is what holds of the answers and of the pending positions after some calls:
pending positions are distinct, point at their records and have no answer yet, and every
other position has an answer that the calls gave for its record.  `settle` is the one step
that all loops of the read make.

* `Told` — a successful round said something about a record;
* `lookup_assures` — one round: what it told, and that a failed round told nothing;
* `recheck_assures`, `fill_assures` — the loops over the positions;
* `load_cached_multi_by_position` — the whole read, for any replies.
-/
import DbProxy.CacheCoherence
import DbProxy.CachedReads

namespace DbProxy

open Interaction RedisSnapshotCache CachedRead

abbrev ReadTrace : Type := List ((c : CachedReadCall) × c.Reply)

/-! ### What the calls said -/

/-- A successful round of lookups. -/
def Round (codec : SnapshotCodec) (t : ReadTrace) (records : List RecordKey)
    (lookups : List CacheLookup) : Prop :=
  ∃ values, ⟨.mget (lookupKeys records), .ok values⟩ ∈ t ∧
    decodeLookups codec records.length values = .ok lookups

/-- A successful round said this of the record. -/
def Told (codec : SnapshotCodec) (t : ReadTrace) (record : RecordKey) (lookup : CacheLookup) :
    Prop :=
  ∃ records lookups, Round codec t records lookups ∧
    ∃ i : ℕ, records[i]? = some record ∧ lookups[i]? = some lookup

/-- Every successful round missed the record. -/
def Missed (codec : SnapshotCodec) (t : ReadTrace) (record : RecordKey) : Prop :=
  ∀ lookup, Told codec t record lookup → lookup = .miss

/-- The value is the one that PostgreSQL returned for the record, or it returned none. -/
def FromPostgres (t : ReadTrace) (record : RecordKey) (entry : Option SnapshotEnvelope) : Prop :=
  ∃ (asked : List RecordKey) (rows : List SnapshotColumns) (snapshots : List SnapshotEnvelope),
    ⟨.query (asked.map (·.ns)) (asked.map (·.key)), .ok rows⟩ ∈ t ∧ record ∈ asked ∧
    rows.mapM snapshotFromRow = .ok snapshots ∧
    (∀ s, entry = some s → s ∈ snapshots ∧ s.record = record) ∧
    (entry = none → ∀ s ∈ snapshots, s.record ≠ record)

/-- Where an answer for a record may come from. -/
def AnsweredBy (codec : SnapshotCodec) (t : ReadTrace) (record : RecordKey)
    (entry : Option SnapshotEnvelope) : Prop :=
  (∃ s, entry = some s ∧ (Told codec t record (.fresh s) ∨ Told codec t record (.stale s))) ∨
    (entry = none ∧ Told codec t record .negative) ∨ FromPostgres t record entry

/-- PostgreSQL is asked for records of the request that every successful round missed. -/
def AskedMissing (codec : SnapshotCodec) (records : List RecordKey) (t : ReadTrace) : Prop :=
  ∀ namespaces keys r, ⟨.query namespaces keys, r⟩ ∈ t → ∃ asked : List RecordKey,
    namespaces = asked.map (·.ns) ∧ keys = asked.map (·.key) ∧
    ∀ record ∈ asked, record ∈ records ∧ Missed codec t record

/-- What is written to the cache is the answer at a position of its record. -/
def WrittenInPlace (records : List RecordKey) (snapshots : List (Option SnapshotEnvelope))
    (pending : List Position) (t : ReadTrace) : Prop :=
  (∀ s r, ⟨.putCache s, r⟩ ∈ t → ∃ i : ℕ, records[i]? = some s.record ∧
    snapshots[i]? = some (some s) ∧ ∀ p ∈ pending, p.1 ≠ i) ∧
  ∀ record r, ⟨.putNegativeCache record, r⟩ ∈ t → ∃ i : ℕ, records[i]? = some record ∧
    snapshots[i]? = some none ∧ ∀ p ∈ pending, p.1 ≠ i

/-- Calls of the cache and of PostgreSQL; the others only coordinate. -/
def CachedReadCall.Silent : CachedReadCall → Prop
  | .mget _ | .query _ _ | .putCache _ | .putNegativeCache _ => False
  | _ => True

/-- No query and no write so far. -/
def Quiet (t : ReadTrace) : Prop :=
  ∀ call ∈ t, call.1.Silent ∨ ∃ keys, call.1 = .mget keys

section Trace

variable {codec : SnapshotCodec} {records : List RecordKey} {t more : ReadTrace}
  {record : RecordKey} {lookup : CacheLookup} {entry : Option SnapshotEnvelope}

theorem Told.append (h : Told codec t record lookup) : Told codec (t ++ more) record lookup := by
  obtain ⟨recs, lookups, ⟨values, hmem, hdecode⟩, hat⟩ := h
  exact ⟨recs, lookups, ⟨values, List.mem_append_left _ hmem, hdecode⟩, hat⟩

theorem AnsweredBy.append (h : AnsweredBy codec t record entry) :
    AnsweredBy codec (t ++ more) record entry := by
  rcases h with ⟨s, rfl, h | h⟩ | ⟨rfl, h⟩ | ⟨asked, rows, snapshots, hmem, h⟩
  · exact Or.inl ⟨s, rfl, Or.inl h.append⟩
  · exact Or.inl ⟨s, rfl, Or.inr h.append⟩
  · exact Or.inr (Or.inl ⟨rfl, h.append⟩)
  · exact Or.inr (Or.inr ⟨asked, rows, snapshots, List.mem_append_left _ hmem, h⟩)

/-- Only a lookup tells something new. -/
theorem Told.of_append {c : CachedReadCall} {r : c.Reply} (hc : ∀ keys, c ≠ .mget keys)
    (h : Told codec (t ++ [⟨c, r⟩]) record lookup) : Told codec t record lookup := by
  obtain ⟨recs, lookups, ⟨values, hmem, hdecode⟩, hat⟩ := h
  rcases List.mem_append.mp hmem with hmem | hmem
  · exact ⟨recs, lookups, ⟨values, hmem, hdecode⟩, hat⟩
  · exact absurd (congrArg Sigma.fst (List.mem_singleton.mp hmem)).symm (hc _)

theorem Missed.append {c : CachedReadCall} {r : c.Reply} (hc : ∀ keys, c ≠ .mget keys)
    (h : Missed codec t record) : Missed codec (t ++ [⟨c, r⟩]) record :=
  fun lookup htold => h lookup (htold.of_append hc)

theorem Silent.not_mget {c : CachedReadCall} (h : c.Silent) : ∀ keys, c ≠ .mget keys := by
  rintro keys rfl
  exact h

theorem lookupKeys_injective : Function.Injective lookupKeys := by
  intro l m h
  induction l generalizing m with
  | nil =>
    cases m with
    | nil => rfl
    | cons b m => cases h
  | cons a l ih =>
    cases m with
    | nil => cases h
    | cons b m =>
      rw [lookupKeys, lookupKeys, List.flatMap_cons, List.flatMap_cons] at h
      obtain ⟨hhead, hrest⟩ := List.append_inj h (by simp only [List.length_cons])
      have hkey : keyOf a .value = keyOf b .value := (List.cons.inj hhead).1
      rw [(keyOf_inj.mp hkey).1, ih hrest]

theorem length_chunks3 {α : Type} : ∀ {n : ℕ} {l : List α}, l.length = 3 * n →
    (chunks3 l).length = n
  | 0, [], _ => rfl
  | n + 1, a :: b :: c :: rest, h => by
    have hrest : rest.length = 3 * n := by
      simp only [List.length_cons] at h
      omega
    exact congrArg (· + 1) (length_chunks3 hrest)
  | n + 1, [], h => by simp at h
  | n + 1, [a], h => by simp at h; omega
  | n + 1, [a, b], h => by simp at h; omega
  | 0, a :: rest, h => by simp at h

theorem length_decodeLookups {count : ℕ} {values : List (Option Bytes)}
    {lookups : List CacheLookup} (h : decodeLookups codec count values = .ok lookups) :
    lookups.length = count := by
  rw [decodeLookups] at h
  split at h
  · cases h
  · rename_i hlength
    rw [not_not] at hlength
    rw [← (Checks.mapM_eq_ok.mp h).length_eq, length_chunks3 hlength]

end Trace

/-! ### Progress -/

/-- The answers so far, the positions that are pending and the calls that were made. -/
structure Progress (codec : SnapshotCodec) (records : List RecordKey)
    (snapshots : List (Option SnapshotEnvelope)) (pending : List Position) (t : ReadTrace) :
    Prop where
  length : snapshots.length = records.length
  nodup : (pending.map Prod.fst).Nodup
  position : ∀ p ∈ pending, records[p.1]? = some p.2
  empty : ∀ p ∈ pending, snapshots[p.1]? = some none
  settled : ∀ (i : ℕ) (record : RecordKey), records[i]? = some record →
    (∃ p ∈ pending, p.1 = i) ∨
      ∃ entry, snapshots[i]? = some entry ∧ AnsweredBy codec t record entry

namespace Progress

variable {codec : SnapshotCodec} {records : List RecordKey}
  {snapshots : List (Option SnapshotEnvelope)} {pending rest : List Position} {t more : ReadTrace}
  {p : Position} {entry : Option SnapshotEnvelope}

theorem append (h : Progress codec records snapshots pending t) :
    Progress codec records snapshots pending (t ++ more) := by
  refine ⟨h.length, h.nodup, h.position, h.empty, fun i record hi => ?_⟩
  rcases h.settled i record hi with hp | ⟨entry, hentry, hanswer⟩
  · exact Or.inl hp
  · exact Or.inr ⟨entry, hentry, hanswer.append⟩

theorem perm (h : Progress codec records snapshots pending t) (hperm : pending.Perm rest) :
    Progress codec records snapshots rest t where
  length := h.length
  nodup := (hperm.map _).nodup_iff.mp h.nodup
  position q hq := h.position q (hperm.mem_iff.mpr hq)
  empty q hq := h.empty q (hperm.mem_iff.mpr hq)
  settled i record hi := by
    rcases h.settled i record hi with ⟨q, hq, rfl⟩ | hentry
    · exact Or.inl ⟨q, hperm.mem_iff.mp hq, rfl⟩
    · exact Or.inr hentry

/-- The position of an answered record is set and is pending no longer. -/
theorem settle (h : Progress codec records snapshots (p :: rest) t)
    (hanswer : AnsweredBy codec t p.2 entry) :
    Progress codec records (snapshots.set p.1 entry) rest t := by
  have hnodup := h.nodup
  rw [List.map_cons, List.nodup_cons] at hnodup
  have hne : ∀ q ∈ rest, p.1 ≠ q.1 := fun q hq heq =>
    hnodup.1 (heq ▸ List.mem_map_of_mem hq)
  have hhere : p.1 < snapshots.length := by
    have := h.empty p List.mem_cons_self
    exact (List.getElem?_eq_some_iff.mp this).1
  refine ⟨?_, hnodup.2, fun q hq => h.position q (List.mem_cons_of_mem _ hq), ?_, ?_⟩
  · rw [List.length_set, h.length]
  · intro q hq
    rw [List.getElem?_set_ne (hne q hq)]
    exact h.empty q (List.mem_cons_of_mem _ hq)
  · intro i record hi
    by_cases hip : p.1 = i
    · subst hip
      have hrecord : p.2 = record :=
        Option.some.inj ((h.position p List.mem_cons_self).symm.trans hi)
      refine Or.inr ⟨entry, ?_, hrecord ▸ hanswer⟩
      rw [List.getElem?_set_self hhere]
    · rcases h.settled i record hi with ⟨q, hq, rfl⟩ | ⟨other, hother, hanswered⟩
      · rcases List.mem_cons.mp hq with rfl | hq
        · exact absurd rfl hip
        · exact Or.inl ⟨q, hq, rfl⟩
      · refine Or.inr ⟨other, ?_, hanswered⟩
        rw [List.getElem?_set_ne hip]
        exact hother

/-- An absence is the answer that the position already has. -/
theorem settle_none (h : Progress codec records snapshots (p :: rest) t)
    (hanswer : AnsweredBy codec t p.2 none) : Progress codec records snapshots rest t := by
  have hset : snapshots.set p.1 none = snapshots := by
    obtain ⟨hlt, hnone⟩ := List.getElem?_eq_some_iff.mp (h.empty p List.mem_cons_self)
    rw [← hnone]
    exact List.set_getElem_self hlt
  have := h.settle hanswer
  rwa [hset] at this

theorem record_mem (h : Progress codec records snapshots pending t) (hp : p ∈ pending) :
    p.2 ∈ records := List.mem_of_getElem? (h.position p hp)

/-- Distinct records of distinct positions. -/
theorem nodup_records (h : Progress codec records snapshots pending t) (hrecords : records.Nodup) :
    (pending.map Prod.snd).Nodup := by
  have hpending : pending.Nodup := h.nodup.of_map _
  refine hpending.map_on fun p hp q hq heq => ?_
  have hpq : records[p.1]? = records[q.1]? := by
    rw [h.position p hp, h.position q hq, heq]
  obtain ⟨hlt, -⟩ := List.getElem?_eq_some_iff.mp (h.position p hp)
  exact Prod.ext ((List.getElem?_inj hlt hrecords).mp hpq) heq

end Progress

/-! ### Lookup rounds -/

section Rounds

variable {codec : SnapshotCodec} {records asked : List RecordKey}
  {snapshots : List (Option SnapshotEnvelope)} {pending missing : List Position} {t : ReadTrace}
  {record : RecordKey} {lookup : CacheLookup}

theorem Quiet.append {c : CachedReadCall} {r : c.Reply} (h : Quiet t)
    (hc : c.Silent ∨ ∃ keys, c = .mget keys) : Quiet (t ++ [⟨c, r⟩]) := by
  intro call hcall
  rcases List.mem_append.mp hcall with hcall | hcall
  · exact h call hcall
  · rw [List.mem_singleton.mp hcall]
    exact hc

/-- What is told after one more `MGET` was told before or by it. -/
theorem Told.of_mget {r : (CachedReadCall.mget (lookupKeys asked)).Reply}
    (h : Told codec (t ++ [⟨.mget (lookupKeys asked), r⟩]) record lookup) :
    Told codec t record lookup ∨ ∃ values lookups, r = .ok values ∧
      decodeLookups codec asked.length values = .ok lookups ∧
      ∃ i : ℕ, asked[i]? = some record ∧ lookups[i]? = some lookup := by
  obtain ⟨recs, lookups, ⟨values, hmem, hdecode⟩, hat⟩ := h
  rcases List.mem_append.mp hmem with hmem | hmem
  · exact Or.inl ⟨recs, lookups, ⟨values, hmem, hdecode⟩, hat⟩
  · have hcall := List.mem_singleton.mp hmem
    rw [Sigma.mk.injEq] at hcall
    obtain rfl := lookupKeys_injective (CachedReadCall.mget.inj hcall.1)
    exact Or.inr ⟨values, lookups, (eq_of_heq hcall.2).symm, hdecode, hat⟩

/-- After a round that failed nothing new is told; after one that did not, each record is told
its own lookup. -/
def AfterLookup (codec : SnapshotCodec) (records : List RecordKey)
    (snapshots : List (Option SnapshotEnvelope)) (pending : List Position) :
    Except CachedReadError (Except CachedReadError (List CacheLookup)) → ReadTrace → Prop
  | .ok (.ok lookups), t => lookups.length = pending.length ∧
      Progress codec records snapshots pending t ∧ Quiet t ∧
      ∀ x ∈ pending.zip lookups, Told codec t x.1.2 x.2 ∧ (x.2 = .miss → Missed codec t x.1.2)
  | .ok (.error _), t => Progress codec records snapshots pending t ∧ Quiet t ∧
      ∀ p ∈ pending, Missed codec t p.2
  | .error _, _ => False

theorem lookup_assures (hrecords : records.Nodup)
    (h : Progress codec records snapshots pending t) (hmissed : ∀ p ∈ pending, Missed codec t p.2)
    (hquiet : Quiet t) :
    Assures (AfterLookup codec records snapshots pending)
      (attempt (lookupMulti codec (pending.map (·.2)))).run t := by
  rw [lookupMulti]
  by_cases hnil : pending.map (·.2) = []
  · rw [if_pos hnil]
    obtain rfl := List.map_eq_nil_iff.mp hnil
    exact ⟨rfl, h, hquiet, fun x hx => absurd hx List.not_mem_nil⟩
  · rw [if_neg hnil]
    intro r
    have hquiet' : Quiet (t ++ [⟨.mget (lookupKeys (pending.map (·.2))), r⟩]) :=
      hquiet.append (Or.inr ⟨_, rfl⟩)
    cases r with
    | error e =>
      refine ⟨h.append, hquiet', fun p hp lookup htold => ?_⟩
      rcases htold.of_mget with htold | ⟨values, _, hr, -⟩
      · exact hmissed p hp lookup htold
      · cases hr
    | ok values =>
      show AfterLookup codec records snapshots pending
        (.ok (decodeLookups codec (pending.map (·.2)).length values)) _
      cases hdecode : decodeLookups codec (pending.map (·.2)).length values with
      | error e =>
        refine ⟨h.append, hquiet', fun p hp lookup htold => ?_⟩
        rcases htold.of_mget with htold | ⟨values', lookups, hr, hdecode', -⟩
        · exact hmissed p hp lookup htold
        · obtain rfl := Except.ok.inj hr
          rw [hdecode] at hdecode'
          cases hdecode'
      | ok lookups =>
        have hlength : lookups.length = pending.length := by
          rw [length_decodeLookups hdecode, List.length_map]
        refine ⟨hlength, h.append, hquiet', fun x hx => ?_⟩
        obtain ⟨i, hi⟩ := List.mem_iff_getElem?.mp hx
        obtain ⟨hposition, hlookup⟩ := List.getElem?_zip_eq_some.mp hi
        have hat : (pending.map (·.2))[i]? = some x.1.2 := by
          rw [List.getElem?_map, hposition]
          rfl
        have hmem : (⟨.mget (lookupKeys (pending.map (·.2))), .ok values⟩ :
            (c : CachedReadCall) × c.Reply) ∈
            t ++ [⟨.mget (lookupKeys (pending.map (·.2))), .ok values⟩] :=
          List.mem_append_right _ List.mem_cons_self
        refine ⟨⟨_, lookups, ⟨values, hmem, hdecode⟩, i, hat, hlookup⟩,
          fun hmiss lookup htold => ?_⟩
        rcases htold.of_mget with htold | ⟨values', lookups', hr, hdecode', j, hj, hlookup'⟩
        · exact hmissed x.1 (List.mem_of_getElem? hposition) lookup htold
        · -- the record is looked up at one place only
          obtain rfl := Except.ok.inj hr
          rw [hdecode] at hdecode'
          obtain rfl := Except.ok.inj hdecode'
          obtain ⟨hlt, -⟩ := List.getElem?_eq_some_iff.mp hat
          have hij := (List.getElem?_inj hlt (h.nodup_records hrecords)).mp (hat.trans hj.symm)
          subst hij
          rw [hlookup] at hlookup'
          exact (Option.some.inj hlookup').symm.trans hmiss

/-- What the loop over a round leaves. -/
def AfterRecheck (codec : SnapshotCodec) (records : List RecordKey)
    (r : Except CachedReadError (List (Option SnapshotEnvelope) × List Position))
    (t : ReadTrace) : Prop :=
  ∃ out, r = .ok out ∧ Progress codec records out.1 out.2 t ∧ Quiet t ∧
    ∀ p ∈ out.2, Missed codec t p.2

theorem recheck_assures {pairs : List (Position × CacheLookup)}
    (h : Progress codec records snapshots (pairs.map Prod.fst ++ missing) t) (hquiet : Quiet t)
    (htold : ∀ x ∈ pairs, (x.2 ≠ .miss → Told codec t x.1.2 x.2) ∧
      (x.2 = .miss → Missed codec t x.1.2))
    (hmissed : ∀ p ∈ missing, Missed codec t p.2) :
    Assures (AfterRecheck codec records)
      (TieredSnapshotStore.recheck pairs snapshots missing).run t := by
  induction pairs generalizing snapshots missing t with
  | nil => exact ⟨(snapshots, missing), rfl, h, hquiet, hmissed⟩
  | cons pair rest ih =>
    obtain ⟨⟨index, record⟩, lookup⟩ := pair
    have hhead := htold _ List.mem_cons_self
    have hrest : ∀ x ∈ rest, (x.2 ≠ .miss → Told codec t x.1.2 x.2) ∧
        (x.2 = .miss → Missed codec t x.1.2) := fun x hx => htold x (List.mem_cons_of_mem _ hx)
    cases lookup with
    | fresh s =>
      refine ih (h.settle (Or.inl ⟨s, rfl, Or.inl ?_⟩)) hquiet hrest hmissed
      exact hhead.1 (by simp)
    | stale s =>
      intro r
      have hsilent : (CachedReadCall.scheduleCacheRefresh record).Silent := trivial
      refine ih (h.settle (Or.inl ⟨s, rfl, Or.inr ?_⟩)).append (hquiet.append (Or.inl hsilent))
        (fun x hx => ⟨fun hne => ((hrest x hx).1 hne).append, fun hmiss =>
          ((hrest x hx).2 hmiss).append (Silent.not_mget hsilent)⟩)
        (fun p hp => (hmissed p hp).append (Silent.not_mget hsilent))
      exact hhead.1 (by simp)
    | negative =>
      refine ih (h.settle_none (Or.inr (Or.inl ⟨rfl, ?_⟩))) hquiet hrest hmissed
      exact hhead.1 (by simp)
    | miss =>
      have hperm : (((index, record) :: rest.map Prod.fst) ++ missing).Perm
          (rest.map Prod.fst ++ (missing ++ [(index, record)])) := by
        rw [List.cons_append, ← List.append_assoc]
        exact (List.perm_append_singleton _ _).symm
      refine ih (h.perm hperm) hquiet hrest fun p hp => ?_
      rcases List.mem_append.mp hp with hp | hp
      · exact hmissed p hp
      · rw [List.mem_singleton.mp hp]
        exact hhead.2 rfl

end Rounds

/-- What a round leaves: the pending positions have been missed by all rounds. -/
structure ReadyToRead (codec : SnapshotCodec) (records : List RecordKey)
    (s : TieredSnapshotStore.ReadState) (t : ReadTrace) : Prop where
  progress : Progress codec records s.snapshots s.missing t
  missed : ∀ p ∈ s.missing, Missed codec t p.2
  quiet : Quiet t

namespace ReadyToRead

open TieredSnapshotStore

variable {codec : SnapshotCodec} {records : List RecordKey} {s : ReadState} {t : ReadTrace}

theorem append (h : ReadyToRead codec records s t) {c : CachedReadCall} {r : c.Reply}
    (hc : c.Silent) : ReadyToRead codec records s (t ++ [⟨c, r⟩]) :=
  ⟨h.progress.append, fun p hp => (h.missed p hp).append (Silent.not_mget hc),
    h.quiet.append (Or.inl hc)⟩

/-- Coordination keeps the state. -/
theorem silent (h : ReadyToRead codec records s t) {α : Type}
    {x : Interaction CachedReadCall CachedReadCall.Reply α}
    (hx : x.AllCalls CachedReadCall.Silent) :
    Assures (fun _ t => ReadyToRead codec records s t) x t :=
  assures_of_allCalls (fun _ _ _ hc ht => ht.append hc) hx h

/-- A second or third round. -/
theorem recheckRound (h : ReadyToRead codec records s t) (hrecords : records.Nodup) :
    Assures (fun r t => ∃ s', r = .ok s' ∧ ReadyToRead codec records s' t)
      (recheckRound codec s).run t := by
  rw [TieredSnapshotStore.recheckRound]
  by_cases hcache : (!s.cacheAvailable) = true
  · rw [if_pos hcache]
    exact ⟨s, rfl, h⟩
  · rw [if_neg hcache]
    refine assures_exceptT_bind (lookup_assures hrecords h.progress h.missed h.quiet)
      (fun e t hfalse => hfalse.elim) fun result t' hafter => ?_
    cases result with
    | error e => exact ⟨_, rfl, hafter.1, hafter.2.2, hafter.2.1⟩
    | ok refreshed =>
      obtain ⟨hlength, hprogress, hquiet, htold⟩ := hafter
      show Assures _ (if refreshed.length = (s.missing.map (·.2)).length then _ else _) t'
      rw [if_pos (by rw [hlength, List.length_map])]
      have hpairs : (s.missing.zip refreshed).map Prod.fst = s.missing :=
        List.map_fst_zip (by omega)
      refine assures_exceptT_bind (recheck_assures (by rwa [hpairs, List.append_nil]) hquiet
        (fun x hx => ⟨fun _ => (htold x hx).1, (htold x hx).2⟩)
        (fun p hp => absurd hp List.not_mem_nil)) ?_ fun out t'' hout => ?_
      · rintro e t'' ⟨out, hout, -⟩
        cases hout
      · obtain ⟨out', hout, hprogress, hquiet, hmissed⟩ := hout
        obtain rfl := Except.ok.inj hout
        exact ⟨_, rfl, hprogress, hmissed, hquiet⟩

theorem map_snd_positions (records : List RecordKey) :
    (positions records).map (·.2) = records := by
  rw [positions, List.map_map]
  exact List.zipIdx_map_fst 0 records

theorem progress_positions (codec : SnapshotCodec) (records : List RecordKey) :
    Progress codec records (List.replicate records.length none) (positions records) [] := by
  have hmem : ∀ {p : Position}, p ∈ positions records ↔ records[p.1]? = some p.2 := by
    intro p
    rw [positions, List.mem_map]
    constructor
    · rintro ⟨x, hx, rfl⟩
      exact List.mem_zipIdx_iff_getElem?.mp hx
    · intro hp
      exact ⟨(p.2, p.1), List.mem_zipIdx_iff_getElem?.mpr hp, rfl⟩
  refine ⟨List.length_replicate, ?_, fun p hp => hmem.mp hp, fun p hp => ?_, fun i record hi => ?_⟩
  · have hfst : (positions records).map Prod.fst = List.range' 0 records.length := by
      rw [positions, List.map_map]
      exact List.zipIdx_map_snd 0 records
    rw [hfst]
    exact List.nodup_range'
  · obtain ⟨hlt, -⟩ := List.getElem?_eq_some_iff.mp (hmem.mp hp)
    rw [List.getElem?_replicate, if_pos hlt]
  · exact Or.inl ⟨(i, record), hmem.mpr hi, rfl⟩

/-- The first round; when it fails, everything is missing. -/
theorem firstRound (codec : SnapshotCodec) (hrecords : records.Nodup) :
    Assures (fun r t => ∃ s, r = .ok s ∧ ReadyToRead codec records s t)
      (firstRound codec records).run [] := by
  have hnone : ∀ p ∈ positions records, Missed codec [] p.2 := by
    rintro p - lookup ⟨recs, lookups, ⟨values, hmem, -⟩, -⟩
    exact absurd hmem List.not_mem_nil
  have hlookup := lookup_assures hrecords (progress_positions codec records) hnone
    (fun call hcall => absurd hcall List.not_mem_nil)
  rw [map_snd_positions] at hlookup
  have hlength : (positions records).length = records.length := by
    rw [← List.length_map (·.2), map_snd_positions]
  -- both cases go through the same loop
  have hloop : ∀ {lookups : List CacheLookup} {cacheAvailable : Bool} {t : ReadTrace},
      lookups.length = records.length →
      Progress codec records (List.replicate records.length none) (positions records) t →
      Quiet t →
      (∀ x ∈ (positions records).zip lookups, (x.2 ≠ .miss → Told codec t x.1.2 x.2) ∧
        (x.2 = .miss → Missed codec t x.1.2)) →
      Assures (fun r t => ∃ s, r = .ok s ∧ ReadyToRead codec records s t)
        (recheck ((positions records).zip lookups) (List.replicate records.length none) [] >>=
          fun out => pure (ReadState.mk out.1 out.2 cacheAvailable) :
          CachedRead ReadState).run t := by
    intro lookups cacheAvailable t hlookups hprogress hquiet htold
    have hpairs : ((positions records).zip lookups).map Prod.fst = positions records :=
      List.map_fst_zip (by omega)
    refine assures_exceptT_bind (recheck_assures (by rwa [hpairs, List.append_nil]) hquiet htold
      (fun p hp => absurd hp List.not_mem_nil)) ?_ fun out t' hout => ?_
    · rintro e t' ⟨out, hout, -⟩
      cases hout
    · obtain ⟨out', hout, hprogress, hquiet, hmissed⟩ := hout
      obtain rfl := Except.ok.inj hout
      exact ⟨_, rfl, hprogress, hmissed, hquiet⟩
  rw [TieredSnapshotStore.firstRound]
  refine assures_exceptT_bind hlookup (fun e t hfalse => hfalse.elim) fun result t hafter => ?_
  cases result with
  | error e =>
    refine hloop List.length_replicate hafter.1 hafter.2.1 fun x hx => ?_
    have hmiss : x.2 = .miss := List.eq_of_mem_replicate (List.of_mem_zip hx).2
    exact ⟨fun hne => absurd hmiss hne, fun _ => hafter.2.2 x.1 (List.of_mem_zip hx).1⟩
  | ok lookups =>
    obtain ⟨hlookups, hprogress, hquiet, htold⟩ := hafter
    exact hloop (hlookups.trans hlength) hprogress hquiet
      fun x hx => ⟨fun _ => (htold x hx).1, (htold x hx).2⟩

end ReadyToRead

/-! ### Coordination -/

section Silent

open TieredSnapshotStore

theorem allCalls_reply_bind {α : Type} {c : CachedReadCall} {f : c.Reply → CachedRead α}
    (hc : c.Silent) (hf : ∀ r, AllCalls CachedReadCall.Silent (f r).run) :
    AllCalls CachedReadCall.Silent (reply c >>= f).run := ⟨hc, hf⟩

theorem acquireKeys_silent (records : List RecordKey) :
    AllCalls CachedReadCall.Silent (acquireKeys records).run := by
  induction records with
  | nil => trivial
  | cons record rest ih => exact allCalls_reply_bind trivial fun _ => ih

theorem releaseFallbackLocks_silent (locks : List CacheFallbackLock) :
    AllCalls CachedReadCall.Silent (releaseFallbackLocks locks).run := by
  induction locks with
  | nil => trivial
  | cons lock rest ih => exact allCalls_reply_bind trivial fun _ => ih

theorem acquireLocks_silent (records : List RecordKey) (locks : List CacheFallbackLock) :
    AllCalls CachedReadCall.Silent (acquireLocks records locks).run := by
  induction records generalizing locks with
  | nil => trivial
  | cons record rest ih =>
    refine allCalls_reply_bind trivial fun left => ?_
    split
    · trivial
    · refine allCalls_reply_bind trivial fun outcome => ?_
      cases outcome with
      | acquired lock => exact ih _
      | cacheFilled snapshot => exact ih _
      | negativeFilled => exact ih _
      | unavailable => trivial

theorem distributedLocks_silent (s : ReadState) :
    AllCalls CachedReadCall.Silent (distributedLocks s).run := by
  rw [distributedLocks]
  split
  · trivial
  · exact allCalls_exceptT_bind (acquireLocks_silent _ _) fun _ => trivial

end Silent

/-! ### The query -/

namespace PostgresSnapshotStore

theorem takeAll_eq {m : RecordKey → Option SnapshotEnvelope} {records : List RecordKey}
    (h : records.Nodup) : takeAll m records = records.map m := by
  induction records generalizing m with
  | nil => rfl
  | cons record rest ih =>
    rw [List.nodup_cons] at h
    rw [takeAll, ih h.2, List.map_cons]
    congr 1
    -- the record that is taken out is not asked for again
    refine List.map_congr_left fun r hr => Function.update_of_ne ?_ _ _
    rintro rfl
    exact h.1 hr

theorem foldl_insertRow (snapshots : List SnapshotEnvelope)
    (m : RecordKey → Option SnapshotEnvelope) (record : RecordKey) :
    (∀ s, snapshots.foldl insertRow m record = some s →
      (s ∈ snapshots ∧ s.record = record) ∨ m record = some s) ∧
    (snapshots.foldl insertRow m record = none →
      m record = none ∧ ∀ s ∈ snapshots, s.record ≠ record) := by
  induction snapshots generalizing m with
  | nil => exact ⟨fun s hs => Or.inr hs, fun hnone => ⟨hnone, fun s hs => nomatch hs⟩⟩
  | cons first rest ih =>
    obtain ⟨hsome, hnone⟩ := ih (insertRow m first)
    constructor
    · intro s hs
      rcases hsome s hs with ⟨hmem, hrecord⟩ | hm
      · exact Or.inl ⟨List.mem_cons_of_mem _ hmem, hrecord⟩
      · by_cases hfirst : record = first.record
        · subst hfirst
          rw [insertRow, Function.update_self] at hm
          obtain rfl := Option.some.inj hm
          exact Or.inl ⟨List.mem_cons_self, rfl⟩
        · rw [insertRow, Function.update_of_ne hfirst] at hm
          exact Or.inr hm
    · intro h
      obtain ⟨hm, hrest⟩ := hnone h
      have hfirst : record ≠ first.record := by
        rintro rfl
        rw [insertRow, Function.update_self] at hm
        cases hm
      rw [insertRow, Function.update_of_ne hfirst] at hm
      refine ⟨hm, fun s hs => ?_⟩
      rcases List.mem_cons.mp hs with rfl | hs
      · exact hfirst.symm
      · exact hrest s hs

theorem byRecord_eq_some {snapshots : List SnapshotEnvelope} {record : RecordKey}
    {s : SnapshotEnvelope} (h : byRecord snapshots record = some s) :
    s ∈ snapshots ∧ s.record = record := by
  rcases (foldl_insertRow snapshots (fun _ => none) record).1 s h with hfound | hnone
  · exact hfound
  · cases hnone

theorem byRecord_eq_none {snapshots : List SnapshotEnvelope} {record : RecordKey}
    (h : byRecord snapshots record = none) : ∀ s ∈ snapshots, s.record ≠ record :=
  ((foldl_insertRow snapshots (fun _ => none) record).2 h).2

end PostgresSnapshotStore

section Query

open TieredSnapshotStore

variable {codec : SnapshotCodec} {records : List RecordKey} {s : ReadState} {t : ReadTrace}
  {snapshots : List (Option SnapshotEnvelope)}

theorem AskedMissing.append {c : CachedReadCall} {r : c.Reply} (h : AskedMissing codec records t)
    (hmget : ∀ keys, c ≠ .mget keys) (hquery : ∀ namespaces keys, c ≠ .query namespaces keys) :
    AskedMissing codec records (t ++ [⟨c, r⟩]) := by
  intro namespaces keys r' hmem
  rcases List.mem_append.mp hmem with hmem | hmem
  · obtain ⟨asked, hns, hkeys, hasked⟩ := h namespaces keys r' hmem
    exact ⟨asked, hns, hkeys, fun record hrecord =>
      ⟨(hasked record hrecord).1, (hasked record hrecord).2.append hmget⟩⟩
  · exact absurd (congrArg Sigma.fst (List.mem_singleton.mp hmem)).symm (hquery _ _)

theorem AskedMissing.silent (h : AskedMissing codec records t) {α : Type}
    {x : Interaction CachedReadCall CachedReadCall.Reply α}
    (hx : x.AllCalls CachedReadCall.Silent) :
    Assures (fun _ t => AskedMissing codec records t) x t := by
  refine assures_of_allCalls (fun t c r hc ht => ht.append (Silent.not_mget hc) ?_) hx h
  rintro namespaces keys rfl
  exact hc

theorem Quiet.not_mem (h : Quiet t) {c : CachedReadCall} {r : c.Reply} (hmem : ⟨c, r⟩ ∈ t)
    (hsilent : ¬ c.Silent) (hmget : ∀ keys, c ≠ .mget keys) : False := by
  rcases h _ hmem with hc | ⟨keys, hc⟩
  · exact hsilent hc
  · exact hmget keys hc

theorem AskedMissing.of_quiet (h : Quiet t) : AskedMissing codec records t :=
  fun _ _ _ hmem => (h.not_mem hmem (fun hc => hc) (fun _ hc => nomatch hc)).elim

theorem WrittenInPlace.of_quiet {pending : List Position} (h : Quiet t) :
    WrittenInPlace records snapshots pending t :=
  ⟨fun _ _ hmem => (h.not_mem hmem (fun hc => hc) (fun _ hc => nomatch hc)).elim,
    fun _ _ hmem => (h.not_mem hmem (fun hc => hc) (fun _ hc => nomatch hc)).elim⟩

theorem WrittenInPlace.append {pending : List Position} {c : CachedReadCall} {r : c.Reply}
    (h : WrittenInPlace records snapshots pending t) (hput : ∀ s, c ≠ .putCache s)
    (hnegative : ∀ record, c ≠ .putNegativeCache record) :
    WrittenInPlace records snapshots pending (t ++ [⟨c, r⟩]) := by
  constructor
  · intro s r' hmem
    rcases List.mem_append.mp hmem with hmem | hmem
    · exact h.1 s r' hmem
    · exact absurd (congrArg Sigma.fst (List.mem_singleton.mp hmem)).symm (hput s)
  · intro record r' hmem
    rcases List.mem_append.mp hmem with hmem | hmem
    · exact h.2 record r' hmem
    · exact absurd (congrArg Sigma.fst (List.mem_singleton.mp hmem)).symm (hnegative record)

/-- The answers of the query are for the records that were asked for. -/
def AfterQuery (codec : SnapshotCodec) (records : List RecordKey) (s : ReadState) :
    Except CachedReadError (Except CachedReadError (List (Option SnapshotEnvelope))) →
      ReadTrace → Prop
  | .ok (.ok loaded), t => AskedMissing codec records t ∧
      Progress codec records s.snapshots s.missing t ∧
      WrittenInPlace records s.snapshots s.missing t ∧
      loaded.length = s.missing.length ∧ ∀ x ∈ s.missing.zip loaded, FromPostgres t x.1.2 x.2
  | .ok (.error _), t => AskedMissing codec records t
  | .error _, _ => False

/-- The call that asks for the pending records. -/
def queryOf (s : ReadState) : CachedReadCall :=
  .query ((s.missing.map (·.2)).map (·.ns)) ((s.missing.map (·.2)).map (·.key))

theorem ReadyToRead.asked (h : ReadyToRead codec records s t) (r : (queryOf s).Reply) :
    AskedMissing codec records (t ++ [⟨queryOf s, r⟩]) := by
  intro namespaces keys r' hmem
  rcases List.mem_append.mp hmem with hmem | hmem
  · exact (h.quiet.not_mem hmem (fun hc => hc) (fun _ hc => nomatch hc)).elim
  · have hcall := congrArg Sigma.fst (List.mem_singleton.mp hmem)
    obtain ⟨rfl, rfl⟩ := CachedReadCall.query.inj hcall
    refine ⟨s.missing.map (·.2), rfl, rfl, fun record hrecord => ?_⟩
    obtain ⟨p, hp, rfl⟩ := List.mem_map.mp hrecord
    exact ⟨h.progress.record_mem hp, (h.missed p hp).append fun _ hc => nomatch hc⟩

theorem fromPostgres_byRecord {rows : List SnapshotColumns} {found : List SnapshotEnvelope}
    {p : Position} (hmem : ⟨queryOf s, .ok rows⟩ ∈ t) (hp : p ∈ s.missing)
    (hrows : rows.mapM snapshotFromRow = .ok found) :
    FromPostgres t p.2 (PostgresSnapshotStore.byRecord found p.2) :=
  ⟨_, rows, found, hmem, List.mem_map_of_mem hp, hrows,
    fun _ hs => PostgresSnapshotStore.byRecord_eq_some hs, PostgresSnapshotStore.byRecord_eq_none⟩

theorem load_assures (h : ReadyToRead codec records s t) (hrecords : records.Nodup)
    (hne : s.missing ≠ []) :
    Assures (AfterQuery codec records s)
      (attempt (PostgresSnapshotStore.loadMulti (s.missing.map (·.2)))).run t := by
  rw [PostgresSnapshotStore.loadMulti, if_neg fun hnil => hne (List.map_eq_nil_iff.mp hnil)]
  intro r
  have hasked := h.asked r
  cases r with
  | error e => exact hasked
  | ok rows =>
    cases hrows : rows.mapM snapshotFromRow with
    | error e =>
      show Assures _ (Interaction.bind (orFail (rows.mapM snapshotFromRow) >>= _ :
        CachedRead _).run _) _
      rw [hrows]
      exact hasked
    | ok found =>
      show Assures _ (Interaction.bind (orFail (rows.mapM snapshotFromRow) >>= _ :
        CachedRead _).run _) _
      rw [hrows]
      have hmem : (⟨queryOf s, .ok rows⟩ : (c : CachedReadCall) × c.Reply) ∈
          t ++ [⟨queryOf s, .ok rows⟩] := List.mem_append_right _ List.mem_cons_self
      have hloaded : PostgresSnapshotStore.takeAll (PostgresSnapshotStore.byRecord found)
          (s.missing.map (·.2)) =
          s.missing.map fun p => PostgresSnapshotStore.byRecord found p.2 := by
        rw [PostgresSnapshotStore.takeAll_eq (h.progress.nodup_records hrecords), List.map_map]
        rfl
      show AfterQuery codec records s (.ok (.ok (PostgresSnapshotStore.takeAll _ _))) _
      rw [hloaded]
      refine ⟨hasked, h.progress.append, ?_, List.length_map .., fun x hx => ?_⟩
      · exact (WrittenInPlace.of_quiet h.quiet).append (fun _ hc => nomatch hc)
          (fun _ hc => nomatch hc)
      · rw [List.zip_map_right, List.zip_eq_zipWith, List.zipWith_self, List.map_map] at hx
        obtain ⟨p, hp, rfl⟩ := List.mem_map.mp hx
        exact fromPostgres_byRecord hmem hp hrows

/-! ### Filling the cache and the answers -/

theorem FromPostgres.append {more : ReadTrace} {record : RecordKey}
    {entry : Option SnapshotEnvelope} (h : FromPostgres t record entry) :
    FromPostgres (t ++ more) record entry := by
  obtain ⟨asked, rows, found, hmem, h⟩ := h
  exact ⟨asked, rows, found, List.mem_append_left _ hmem, h⟩

/-- Setting a pending position leaves the written ones. -/
theorem WrittenInPlace.settle {p : Position} {rest : List Position}
    {entry : Option SnapshotEnvelope} (h : WrittenInPlace records snapshots (p :: rest) t) :
    WrittenInPlace records (snapshots.set p.1 entry) rest t := by
  constructor
  · intro s r hmem
    obtain ⟨i, hi, hentry, hne⟩ := h.1 s r hmem
    refine ⟨i, hi, ?_, fun q hq => hne q (List.mem_cons_of_mem _ hq)⟩
    rw [List.getElem?_set_ne (hne p List.mem_cons_self)]
    exact hentry
  · intro record r hmem
    obtain ⟨i, hi, hentry, hne⟩ := h.2 record r hmem
    refine ⟨i, hi, ?_, fun q hq => hne q (List.mem_cons_of_mem _ hq)⟩
    rw [List.getElem?_set_ne (hne p List.mem_cons_self)]
    exact hentry

theorem WrittenInPlace.putCache {p : Position} {rest : List Position} {s : SnapshotEnvelope}
    {r : (CachedReadCall.putCache s).Reply} (h : WrittenInPlace records snapshots rest t)
    (hrecord : records[p.1]? = some s.record) (hentry : snapshots[p.1]? = some (some s))
    (hne : ∀ q ∈ rest, q.1 ≠ p.1) :
    WrittenInPlace records snapshots rest (t ++ [⟨.putCache s, r⟩]) := by
  constructor
  · intro s' r' hmem
    rcases List.mem_append.mp hmem with hmem | hmem
    · exact h.1 s' r' hmem
    · obtain rfl := CachedReadCall.putCache.inj (congrArg Sigma.fst (List.mem_singleton.mp hmem))
      exact ⟨p.1, hrecord, hentry, hne⟩
  · intro record r' hmem
    rcases List.mem_append.mp hmem with hmem | hmem
    · exact h.2 record r' hmem
    · cases congrArg Sigma.fst (List.mem_singleton.mp hmem)

theorem WrittenInPlace.putNegative {p : Position} {rest : List Position}
    {r : (CachedReadCall.putNegativeCache p.2).Reply} (h : WrittenInPlace records snapshots rest t)
    (hrecord : records[p.1]? = some p.2) (hentry : snapshots[p.1]? = some none)
    (hne : ∀ q ∈ rest, q.1 ≠ p.1) :
    WrittenInPlace records snapshots rest (t ++ [⟨.putNegativeCache p.2, r⟩]) := by
  constructor
  · intro s' r' hmem
    rcases List.mem_append.mp hmem with hmem | hmem
    · exact h.1 s' r' hmem
    · cases congrArg Sigma.fst (List.mem_singleton.mp hmem)
  · intro record r' hmem
    rcases List.mem_append.mp hmem with hmem | hmem
    · exact h.2 record r' hmem
    · obtain rfl :=
        CachedReadCall.putNegativeCache.inj (congrArg Sigma.fst (List.mem_singleton.mp hmem))
      exact ⟨p.1, hrecord, hentry, hne⟩

/-- What the whole read leaves. -/
def Answer (codec : SnapshotCodec) (records : List RecordKey) :
    Except CachedReadError (List (Option SnapshotEnvelope)) → ReadTrace → Prop
  | .ok result, t => Progress codec records result [] t ∧ AskedMissing codec records t ∧
      WrittenInPlace records result [] t
  | .error _, t => AskedMissing codec records t

theorem fill_assures {cacheAvailable : Bool}
    {pairs : List (Position × Option SnapshotEnvelope)} (hasked : AskedMissing codec records t)
    (h : Progress codec records snapshots (pairs.map Prod.fst) t)
    (hwritten : WrittenInPlace records snapshots (pairs.map Prod.fst) t)
    (hfrom : ∀ x ∈ pairs, FromPostgres t x.1.2 x.2) :
    Assures (Answer codec records) (fill cacheAvailable pairs snapshots).run t := by
  induction pairs generalizing snapshots t with
  | nil => exact ⟨h, hasked, hwritten⟩
  | cons pair rest ih =>
    obtain ⟨p, value⟩ := pair
    have hvalue := hfrom _ List.mem_cons_self
    have hrest : ∀ x ∈ rest, FromPostgres t x.1.2 x.2 :=
      fun x hx => hfrom x (List.mem_cons_of_mem _ hx)
    have hsettled := h.settle (Or.inr (Or.inr hvalue))
    have hplaced : WrittenInPlace records (snapshots.set p.1 value) (rest.map Prod.fst) t :=
      hwritten.settle
    have hnodup := h.nodup
    rw [List.map_cons, List.map_cons, List.nodup_cons] at hnodup
    have hne : ∀ q ∈ rest.map Prod.fst, q.1 ≠ p.1 := fun q hq heq =>
      hnodup.1 (heq ▸ List.mem_map_of_mem hq)
    have hrecord : records[p.1]? = some p.2 := h.position p List.mem_cons_self
    have hentry : (snapshots.set p.1 value)[p.1]? = some value := by
      obtain ⟨hlt, -⟩ := List.getElem?_eq_some_iff.mp (h.empty p List.mem_cons_self)
      exact List.getElem?_set_self hlt
    cases cacheAvailable with
    | false => exact ih hasked hsettled hplaced hrest
    | true =>
      cases value with
      | some s =>
        intro r
        have hsame : s.record = p.2 := by
          obtain ⟨asked, rows, found, -, -, -, hfound, -⟩ := hvalue
          exact (hfound s rfl).2
        exact ih (hasked.append (fun _ hc => nomatch hc) (fun _ _ hc => nomatch hc))
          hsettled.append (hplaced.putCache (hsame ▸ hrecord) hentry hne)
          (fun x hx => (hrest x hx).append)
      | none =>
        intro r
        exact ih (hasked.append (fun _ hc => nomatch hc) (fun _ _ hc => nomatch hc))
          hsettled.append (hplaced.putNegative hrecord hentry hne)
          (fun x hx => (hrest x hx).append)

/-- The end of a read with locks: they are released after the answer. -/
theorem release_assures {locks : List CacheFallbackLock} {result : List (Option SnapshotEnvelope)}
    (h : Answer codec records (.ok result) t) :
    Assures (Answer codec records)
      (releaseFallbackLocks locks >>= fun _ => pure result : CachedRead _).run t := by
  have hkeeps : Assures (fun _ t => Answer codec records (.ok result) t)
      (releaseFallbackLocks locks).run t := by
    refine assures_of_allCalls (fun t c r hc ht => ?_) (releaseFallbackLocks_silent locks) h
    have hquery : ∀ namespaces keys, c ≠ .query namespaces keys := by
      rintro namespaces keys rfl
      exact hc
    have hput : ∀ s, c ≠ .putCache s := by
      rintro s rfl
      exact hc
    have hnegative : ∀ record, c ≠ .putNegativeCache record := by
      rintro record rfl
      exact hc
    exact ⟨ht.1.append, ht.2.1.append (Silent.not_mget hc) hquery, ht.2.2.append hput hnegative⟩
  exact assures_exceptT_bind hkeeps (fun e t ht => ht.2.1) fun _ t ht => ht

theorem releaseAndFail_assures {locks : List CacheFallbackLock} {e : CachedReadError}
    (h : AskedMissing codec records t) :
    Assures (Answer codec records)
      (releaseFallbackLocks locks >>= fun _ => throw e : CachedRead _).run t :=
  assures_exceptT_bind (h.silent (releaseFallbackLocks_silent locks)) (fun _ _ ht => ht)
    fun _ _ ht => ht

theorem loadMissing_assures {locks : List CacheFallbackLock} (h : ReadyToRead codec records s t)
    (hrecords : records.Nodup) (hne : s.missing ≠ []) :
    Assures (Answer codec records) (loadMissing s locks).run t := by
  rw [loadMissing]
  intro allowed
  have hready := h.append (r := allowed) (show CachedReadCall.allowFallback.Silent from trivial)
  cases allowed with
  | error e => exact releaseAndFail_assures (AskedMissing.of_quiet hready.quiet)
  | ok _ =>
    refine assures_exceptT_bind (load_assures hready hrecords hne) (fun e t hfalse => hfalse.elim)
      fun result t' hafter => ?_
    cases result with
    | error e =>
      intro r
      exact releaseAndFail_assures (AskedMissing.append hafter (fun _ hc => nomatch hc)
        (fun _ _ hc => nomatch hc))
    | ok loaded =>
      obtain ⟨hasked, hprogress, hwritten, hlength, hfrom⟩ := hafter
      intro r
      have hpairs : (s.missing.zip loaded).map Prod.fst = s.missing :=
        List.map_fst_zip (by omega)
      refine assures_exceptT_bind (fill_assures
        (hasked.append (fun _ hc => nomatch hc) (fun _ _ hc => nomatch hc))
        (by rw [hpairs]; exact hprogress.append)
        (by rw [hpairs]; exact hwritten.append (fun _ hc => nomatch hc) (fun _ hc => nomatch hc))
        (fun x hx => (hfrom x hx).append)) (fun e t ht => ht) fun result t ht => ?_
      exact release_assures ht

/-- The read ends with an answer, whatever its calls reply. -/
theorem loadCachedMulti_assures (codec : SnapshotCodec) (hrecords : records.Nodup) :
    Assures (Answer codec records) (loadCachedMulti codec records).run [] := by
  have hanswer : ∀ {s : ReadState} {t : ReadTrace}, ReadyToRead codec records s t →
      s.missing = [] → Answer codec records (.ok s.snapshots) t := by
    intro s t h hnil
    exact ⟨hnil ▸ h.progress, AskedMissing.of_quiet h.quiet, WrittenInPlace.of_quiet h.quiet⟩
  rw [loadCachedMulti]
  refine assures_exceptT_bind (ReadyToRead.firstRound codec hrecords) ?_ fun s t hs => ?_
  · rintro e t ⟨s, hs, -⟩
    cases hs
  obtain ⟨s', hs', h⟩ := hs
  obtain rfl := Except.ok.inj hs'
  split
  · rename_i hnil
    exact hanswer h hnil
  intro allowed
  have hready := h.append (r := allowed) (show CachedReadCall.acquireFallback.Silent from trivial)
  cases allowed with
  | error e => exact AskedMissing.of_quiet hready.quiet
  | ok _ =>
    show Assures _ (acquireKeys _ >>= _ : CachedRead _).run _
    refine assures_exceptT_bind (hready.silent (acquireKeys_silent _))
      (fun e t ht => AskedMissing.of_quiet ht.quiet) fun _ t ht => ?_
    refine assures_exceptT_bind (ht.recheckRound hrecords) ?_ fun s t hs => ?_
    · rintro e t ⟨s, hs, -⟩
      cases hs
    obtain ⟨s', hs', h⟩ := hs
    obtain rfl := Except.ok.inj hs'
    split
    · rename_i hnil
      exact hanswer h hnil
    refine assures_exceptT_bind (h.silent (distributedLocks_silent _))
      (fun e t ht => AskedMissing.of_quiet ht.quiet) fun locks t ht => ?_
    refine assures_exceptT_bind (ht.recheckRound hrecords) ?_ fun s t hs => ?_
    · rintro e t ⟨s, hs, -⟩
      cases hs
    obtain ⟨s', hs', h⟩ := hs
    obtain rfl := Except.ok.inj hs'
    split
    · rename_i hnil
      exact release_assures (hanswer h hnil)
    · rename_i hne
      exact loadMissing_assures h hrecords hne

end Query

/-- **A batch read through the cache answers by position.**  Whatever the cache, the locks and
PostgreSQL reply to a read of distinct records, a read that succeeds has one entry for each
record: a value that the cache returned under the record's key, an absence that a negative marker
of the record reported, or what PostgreSQL returned for the record.  PostgreSQL is asked, also by
a read that fails, only for records that every successful round missed; and what is written to
the cache is the entry at a position of its own record. -/
theorem load_cached_multi_by_position (codec : SnapshotCodec) (records : List RecordKey)
    (hrecords : records.Nodup) (calls : ReadTrace)
    (outcome : Except CachedReadError (List (Option SnapshotEnvelope)))
    (hruns : Runs (TieredSnapshotStore.loadCachedMulti codec records).run calls outcome) :
    AskedMissing codec records calls ∧ ∀ result, outcome = .ok result →
      result.length = records.length ∧
      (∀ (i : ℕ) (record : RecordKey), records[i]? = some record →
        ∃ entry, result[i]? = some entry ∧
          ((∃ s, entry = some s ∧
            (Told codec calls record (.fresh s) ∨ Told codec calls record (.stale s))) ∨
          (entry = none ∧ Told codec calls record .negative) ∨
          FromPostgres calls record entry)) ∧
      (∀ s r, ⟨.putCache s, r⟩ ∈ calls → ∃ i : ℕ, records[i]? = some s.record ∧
        result[i]? = some (some s)) ∧
      ∀ record r, ⟨.putNegativeCache record, r⟩ ∈ calls → ∃ i : ℕ,
        records[i]? = some record ∧ result[i]? = some none := by
  have hanswer := (loadCachedMulti_assures codec hrecords).of_runs hruns
  rw [List.nil_append] at hanswer
  cases outcome with
  | error e => exact ⟨hanswer, fun result hresult => nomatch hresult⟩
  | ok result =>
    obtain ⟨hprogress, hasked, hput, hnegative⟩ := hanswer
    refine ⟨hasked, fun result' hresult => ?_⟩
    obtain rfl := Except.ok.inj hresult
    refine ⟨hprogress.length, fun i record hi => ?_, fun s r hmem => ?_, fun record r hmem => ?_⟩
    · rcases hprogress.settled i record hi with ⟨p, hp, -⟩ | hentry
      · exact absurd hp List.not_mem_nil
      · exact hentry
    · obtain ⟨i, hi, hentry, -⟩ := hput s r hmem
      exact ⟨i, hi, hentry⟩
    · obtain ⟨i, hi, hentry, -⟩ := hnegative record r hmem
      exact ⟨i, hi, hentry⟩

/-- The first record is cached; the second is read from PostgreSQL after a round that failed. -/
def halfCachedRecords : List RecordKey := [⟨"player", "1"⟩, ⟨"player", "2"⟩]

def halfCachedSnapshot : SnapshotEnvelope := ⟨⟨"player", "2"⟩, "profile", 1, 4, [9], 6⟩

def halfCachedCalls : ReadTrace :=
  [⟨.mget (lookupKeys halfCachedRecords),
      .ok [some (shortText "player" ++ shortText "1" ++ shortText "profile" ++ [1, 1, 1, 7, 5]),
        some marker, none, none, none, none]⟩,
    ⟨.acquireFallback, .ok ()⟩, ⟨.acquireKey ⟨"player", "2"⟩, ()⟩,
    ⟨.mget (lookupKeys [⟨"player", "2"⟩]), .ok [none, none]⟩,
    ⟨.lockWaitLeft, true⟩, ⟨.acquireFallbackLock ⟨"player", "2"⟩, .unavailable⟩,
    ⟨.mget (lookupKeys [⟨"player", "2"⟩]), .ok [none, none, none]⟩, ⟨.allowFallback, .ok ()⟩,
    ⟨.query ["player"] ["2"], .ok [⟨"player", "2", "profile", 1, 4, [9], 6⟩]⟩,
    ⟨.fallbackSucceeded, ()⟩, ⟨.putCache halfCachedSnapshot, .ok ()⟩]

theorem load_cached_multi_by_position_half :
    Runs (TieredSnapshotStore.loadCachedMulti smallSnapshotCodec halfCachedRecords).run
        halfCachedCalls (.ok [some firstSnapshot, some halfCachedSnapshot]) ∧
      ∃ i : ℕ, halfCachedRecords[i]? = some halfCachedSnapshot.record ∧
        [some firstSnapshot, some halfCachedSnapshot][i]? = some (some halfCachedSnapshot) := by
  have hruns : Runs (TieredSnapshotStore.loadCachedMulti smallSnapshotCodec halfCachedRecords).run
      halfCachedCalls (.ok [some firstSnapshot, some halfCachedSnapshot]) :=
    ⟨_, _, rfl, _, _, rfl, _, _, rfl, _, _, rfl, _, _, rfl, _, _, rfl, _, _, rfl, _, _, rfl,
      _, _, rfl, _, _, rfl, _, _, rfl, rfl, rfl⟩
  have hrecords : halfCachedRecords.Nodup := by decide
  obtain ⟨-, hresult⟩ := load_cached_multi_by_position smallSnapshotCodec halfCachedRecords
    hrecords halfCachedCalls _ hruns
  obtain ⟨-, -, hput, -⟩ := hresult _ rfl
  exact ⟨hruns, hput halfCachedSnapshot (.ok ()) (by simp [halfCachedCalls])⟩

end DbProxy
