/-
Schema migrations.

Every DBProxy process calls `migrate` before it serves, and several start at once, of
one release or of several.  `migrate` is one transaction under the advisory lock
`MIGRATION_LOCK_ID`: it creates the registry, runs the script of each migration that is not
registered, and commits only if both validations of the schema pass.  What the scripts and the
two validations do is left to the parameters of a `MigrationRelease`.

* `migrate_grows` — one call;
* `migrations_once` — the calls of any releases, in every interleaving;
* `releases_extend` — the calls of releases that extend each other.
-/
import DbProxy.Checks
import DbProxy.KeyedTable
import DbProxy.LockSystem

namespace DbProxy

open LockSystem StepMachine

/-- A row of `dbproxy_schema_migrations`. -/
structure MigrationRow where
  version : ℕ
  name : String
deriving DecidableEq

/-- The arguments of `apply_schema_migration`; the script may fail. -/
structure SchemaMigration (S : Type) where
  version : ℕ
  name : String
  sql : S → Option S

/-- The registry, if that table exists, and all other schema objects. -/
structure MigratedDatabase (S : Type) where
  registry : Option (KeyedTable MigrationRow.version)
  schema : S

inductive MigrationError
  | schemaMigrationConflict (version : ℕ) (expected actual : String)
  | invalidSnapshotPartitionLayout (message : String)
  | invalidSchemaIndex (message : String)
  /-- PostgreSQL refused a statement, or the connection broke. -/
  | postgres
deriving DecidableEq

/-- What a build of DBProxy knows. -/
structure MigrationRelease (S : Type) where
  snapshot : SchemaMigration S
  later : List (SchemaMigration S)
  validateSnapshotPartitionLayout : S → Except String Unit
  validateSchemaIndexes : S → Except String Unit

variable {S : Type}

def SchemaMigration.row (m : SchemaMigration S) : MigrationRow := ⟨m.version, m.name⟩

def MigrationRelease.migrations (r : MigrationRelease S) : List (SchemaMigration S) :=
  r.snapshot :: r.later

namespace MigratedDatabase

def rows (db : MigratedDatabase S) : List MigrationRow := db.registry.elim [] (·.rows)

/-- `SCHEMA_MIGRATION_BOOTSTRAP`, if the registry does not exist. -/
def bootstrap (db : MigratedDatabase S) : MigratedDatabase S :=
  { db with registry := some (db.registry.getD KeyedTable.empty) }

/-- `apply_schema_migration`. -/
def applySchemaMigration (db : MigratedDatabase S) (m : SchemaMigration S) :
    Except MigrationError (MigratedDatabase S) :=
  match db.registry with
  | none => .error .postgres
  | some registry =>
    match registry.lookup m.version with
    | some row =>
      if row.name ≠ m.name then .error (.schemaMigrationConflict m.version m.name row.name)
      else .ok db
    | none =>
      match m.sql db.schema with
      | none => .error .postgres
      | some schema =>
        -- the CHECK of the column
        if m.version = 0 then .error .postgres
        else .ok ⟨some (registry.insertNew m.row), schema⟩

/-- The transaction of `migrate`, up to its COMMIT. -/
def migrate (r : MigrationRelease S) (db : MigratedDatabase S) :
    Except MigrationError (MigratedDatabase S) := do
  let db ← db.bootstrap.applySchemaMigration r.snapshot
  (r.validateSnapshotPartitionLayout db.schema).mapError .invalidSnapshotPartitionLayout
  let db ← r.later.foldlM applySchemaMigration db
  (r.validateSchemaIndexes db.schema).mapError .invalidSchemaIndex
  .ok db

end MigratedDatabase

/-- What becomes of the connection that `migrate` uses. -/
inductive MigrationConnection
  | stable
  | lostBeforeCommit
  /-- The COMMIT is executed and its answer is lost. -/
  | lostAfterCommit
deriving DecidableEq

structure MigrationCall (S : Type) where
  release : MigrationRelease S
  connection : MigrationConnection

/-- What the call returns, and the database it leaves. -/
def MigrationCall.outcome (c : MigrationCall S) (db : MigratedDatabase S) :
    Except MigrationError Unit × MigratedDatabase S :=
  match c.connection, db.migrate c.release with
  | .lostBeforeCommit, _ => (.error .postgres, db)
  | _, .error e => (.error e, db)
  | .stable, .ok after => (.ok (), after)
  | .lostAfterCommit, .ok after => (.error .postgres, after)

/-- `pg_advisory_xact_lock`, the statements, and COMMIT or ROLLBACK. -/
def MigrationCall.program (c : MigrationCall S) :
    Program Unit (fun _ => MigratedDatabase S) (Except MigrationError Unit) :=
  .call () fun db => .done ((c.outcome db).1, [⟨(), (c.outcome db).2⟩])

/-- Processes that migrate one database. -/
abbrev MigrationSystem (S : Type) :=
  State Unit (fun _ => MigratedDatabase S) (MigrationCall S) (Except MigrationError Unit)

abbrev MigrationEvent (S : Type) := Event Unit (MigrationCall S)

def migrationStep : MigrationSystem S → MigrationEvent S → Option (MigrationSystem S) :=
  LockSystem.step MigrationCall.program

def MigratedDatabase.unattended (db : MigratedDatabase S) : MigrationSystem S :=
  ⟨fun _ => db, [], []⟩

/-! ### One call -/

/-- Run scripts one after the other. -/
def runScripts (schema : S) (ms : List (SchemaMigration S)) : Option S :=
  ms.foldlM (fun schema m => m.sql schema) schema

theorem runScripts_append {schema middle last : S} {ms ms' : List (SchemaMigration S)}
    (h : runScripts schema ms = some middle) (h' : runScripts middle ms' = some last) :
    runScripts schema (ms ++ ms') = some last := by
  have hms : List.foldlM (fun schema m => m.sql schema) schema ms = some middle := h
  rw [runScripts, List.foldlM_append, hms]
  exact h'

namespace MigratedDatabase

/-- `db'` is `db` after the scripts of `applied`, which are registered in this order. -/
structure Grown (db : MigratedDatabase S) (applied : List (SchemaMigration S))
    (db' : MigratedDatabase S) : Prop where
  rows : db'.rows = db.rows ++ applied.map SchemaMigration.row
  scripts : runScripts db.schema applied = some db'.schema

variable {db db' db'' : MigratedDatabase S} {applied applied' : List (SchemaMigration S)}
  {m : SchemaMigration S} {r : MigrationRelease S}

theorem Grown.refl (db : MigratedDatabase S) : db.Grown [] db :=
  ⟨(List.append_nil _).symm, rfl⟩

theorem Grown.trans (h : db.Grown applied db') (h' : db'.Grown applied' db'') :
    db.Grown (applied ++ applied') db'' where
  rows := by rw [h'.rows, h.rows, List.map_append, List.append_assoc]
  scripts := runScripts_append h.scripts h'.scripts

theorem Grown.mem {row : MigrationRow} (h : db.Grown applied db') (hrow : row ∈ db.rows) :
    row ∈ db'.rows := by
  rw [h.rows]
  exact List.mem_append_left _ hrow

theorem rows_nodup (db : MigratedDatabase S) : (db.rows.map MigrationRow.version).Nodup := by
  rw [rows]
  cases db.registry with
  | none => exact List.nodup_nil
  | some registry => exact registry.nodup

@[simp] theorem rows_bootstrap (db : MigratedDatabase S) : db.bootstrap.rows = db.rows := by
  rw [rows, rows, bootstrap]
  cases db.registry with
  | none => rfl
  | some registry => rfl

theorem bootstrap_grown (db : MigratedDatabase S) : db.Grown [] db.bootstrap :=
  ⟨by rw [rows_bootstrap, List.map_nil, List.append_nil], rfl⟩

/-- What `apply_schema_migration` can do. -/
theorem applySchemaMigration_cases (h : db.applySchemaMigration m = .ok db') :
    (m.row ∈ db.rows ∧ db' = db) ∨
    (m.version ∉ db.rows.map MigrationRow.version ∧ db.Grown [m] db') := by
  rw [applySchemaMigration] at h
  cases hregistry : db.registry with
  | none =>
    rw [hregistry] at h
    cases h
  | some registry =>
    rw [hregistry] at h
    have hrows : db.rows = registry.rows := by rw [rows, hregistry, Option.elim_some]
    cases hlookup : registry.lookup m.version with
    | some row =>
      simp only [hlookup] at h
      split at h
      · cases h
      · rename_i hname
        obtain ⟨hmem, hversion⟩ := KeyedTable.lookup_eq_some.mp hlookup
        have hrow : row = m.row := by
          cases row
          exact congrArg₂ MigrationRow.mk hversion (not_not.mp hname)
        refine Or.inl ⟨?_, (Except.ok.inj h).symm⟩
        rw [hrows, ← hrow]
        exact hmem
    | none =>
      simp only [hlookup] at h
      cases hsql : m.sql db.schema with
      | none =>
        rw [hsql] at h
        cases h
      | some schema =>
        simp only [hsql] at h
        split at h
        · cases h
        · obtain rfl := Except.ok.inj h
          refine Or.inr ⟨?_, ?_, ?_⟩
          · rw [hrows]
            exact KeyedTable.lookup_eq_none.mp hlookup
          · rw [hrows, rows, Option.elim_some, KeyedTable.insertNew_of_free hlookup]
            rfl
          · rw [runScripts, List.foldlM_cons, hsql]
            rfl

/-- What `apply_schema_migration` refuses. -/
theorem applySchemaMigration_error {e : MigrationError} (h : db.applySchemaMigration m = .error e) :
    e = .postgres ∨ ∃ row ∈ db.rows, row.version = m.version ∧ row.name ≠ m.name ∧
      e = .schemaMigrationConflict m.version m.name row.name := by
  rw [applySchemaMigration] at h
  cases hregistry : db.registry with
  | none =>
    rw [hregistry] at h
    exact Or.inl (Except.error.inj h).symm
  | some registry =>
    rw [hregistry] at h
    cases hlookup : registry.lookup m.version with
    | some row =>
      simp only [hlookup] at h
      obtain ⟨hmem, hversion⟩ := KeyedTable.lookup_eq_some.mp hlookup
      split at h
      · rename_i hname
        refine Or.inr ⟨row, ?_, hversion, hname, (Except.error.inj h).symm⟩
        rw [rows, hregistry]
        exact hmem
      · cases h
    | none =>
      simp only [hlookup] at h
      cases hsql : m.sql db.schema with
      | none =>
        rw [hsql] at h
        exact Or.inl (Except.error.inj h).symm
      | some schema =>
        simp only [hsql] at h
        split at h
        · exact Or.inl (Except.error.inj h).symm
        · cases h

/-- The loop over migrations. -/
theorem applyAll_grown {ms : List (SchemaMigration S)}
    (h : ms.foldlM applySchemaMigration db = .ok db') :
    ∃ applied, applied.Sublist ms ∧ db.Grown applied db' ∧ ∀ m ∈ ms, m.row ∈ db'.rows := by
  induction ms generalizing db with
  | nil =>
    obtain rfl := Except.ok.inj h
    exact ⟨[], List.Sublist.refl _, Grown.refl _, by simp⟩
  | cons m ms ih =>
    rw [List.foldlM_cons] at h
    obtain ⟨middle, hm, h⟩ := Checks.bind_eq_ok.mp h
    obtain ⟨applied, hsub, hgrown, hall⟩ := ih h
    rcases applySchemaMigration_cases hm with ⟨hrow, rfl⟩ | ⟨-, hone⟩
    · refine ⟨applied, hsub.cons _, hgrown, fun m' hm' => ?_⟩
      rcases List.mem_cons.mp hm' with rfl | hm'
      · exact hgrown.mem hrow
      · exact hall m' hm'
    · refine ⟨m :: applied, hsub.cons_cons _, hone.trans hgrown, fun m' hm' => ?_⟩
      rcases List.mem_cons.mp hm' with rfl | hm'
      · refine hgrown.mem ?_
        rw [hone.rows]
        exact List.mem_append_right _ (List.mem_singleton.mpr rfl)
      · exact hall m' hm'

/-- The validations decide whether there is a COMMIT, and change nothing. -/
theorem migrate_ok (h : db.migrate r = .ok db') :
    ∃ first, db.bootstrap.applySchemaMigration r.snapshot = .ok first ∧
      r.validateSnapshotPartitionLayout first.schema = .ok () ∧
      r.later.foldlM applySchemaMigration first = .ok db' ∧
      r.validateSchemaIndexes db'.schema = .ok () := by
  obtain ⟨first, hfirst, h⟩ := Checks.bind_eq_ok.mp h
  obtain ⟨⟨⟩, hlayout, h⟩ := Checks.bind_eq_ok.mp h
  obtain ⟨last, hlast, h⟩ := Checks.bind_eq_ok.mp h
  obtain ⟨⟨⟩, hindexes, h⟩ := Checks.bind_eq_ok.mp h
  obtain rfl := Except.ok.inj h
  exact ⟨first, hfirst, Checks.mapError_eq_ok.mp hlayout, hlast, Checks.mapError_eq_ok.mp hindexes⟩

theorem migrate_applyAll (h : db.migrate r = .ok db') :
    r.migrations.foldlM applySchemaMigration db.bootstrap = .ok db' := by
  obtain ⟨first, hfirst, -, hlast, -⟩ := migrate_ok h
  rw [MigrationRelease.migrations, List.foldlM_cons, hfirst]
  exact hlast

/-- A call that commits: scripts of unregistered migrations ran in the order of the release,
and all its migrations are registered. -/
theorem migrate_grows (h : db.migrate r = .ok db') :
    ∃ applied, applied.Sublist r.migrations ∧ db.Grown applied db' ∧
      ∀ m ∈ r.migrations, m.row ∈ db'.rows := by
  obtain ⟨applied, hsub, hgrown, hall⟩ := applyAll_grown (migrate_applyAll h)
  exact ⟨applied, hsub, (bootstrap_grown db).trans hgrown, hall⟩

end MigratedDatabase

namespace MigrationCall

variable {db : MigratedDatabase S} {c : MigrationCall S}

/-- A call commits what `migrate` made of the database, or nothing. -/
theorem outcome_cases (c : MigrationCall S) (db : MigratedDatabase S) :
    ((c.outcome db).1 ≠ .ok () ∧ (c.outcome db).2 = db) ∨
      db.migrate c.release = .ok (c.outcome db).2 := by
  rw [outcome]
  split
  · exact Or.inl ⟨by simp, rfl⟩
  · exact Or.inl ⟨by simp, rfl⟩
  · rename_i h
    exact Or.inr h
  · rename_i h
    exact Or.inr h

theorem outcome_error {e : MigrationError} (h : (c.outcome db).1 = .error e) :
    e = .postgres ∨ db.migrate c.release = .error e := by
  rw [outcome] at h
  split at h
  · exact Or.inl (Except.error.inj h).symm
  · rename_i hmigrate _
    obtain rfl := Except.error.inj h
    exact Or.inr hmigrate
  · cases h
  · exact Or.inl (Except.error.inj h).symm

theorem exec_program (c : MigrationCall S) (s : Unit → MigratedDatabase S) :
    LockSystem.exec c.program s = ((c.outcome (s ())).1, fun _ => (c.outcome (s ())).2) := by
  have hstored : ∀ db, commit [()] [⟨(), db⟩] s = fun _ => db := by
    intro db
    funext l
    cases l
    rw [commit_of_held (by simp), List.foldl_cons, List.foldl_nil, Function.update_self]
  show ((c.outcome (s ())).1, commit [()] _ s) = _
  rw [hstored]

theorem program_ascending (c : MigrationCall S) : Ascending (fun _ => 0) 0 c.program :=
  ⟨Nat.le_refl _, fun _ => trivial⟩

end MigrationCall

/-! ### All processes -/

/-- Calls one after the other. -/
theorem execAll_grown (calls : List (MigrationCall S)) (s : Unit → MigratedDatabase S) :
    ∃ applied, (s ()).Grown applied ((execAll MigrationCall.program s calls).2 ()) ∧
      (∀ m ∈ applied, ∃ c ∈ calls, m ∈ c.release.migrations) ∧
      ∀ p ∈ calls.zip (execAll MigrationCall.program s calls).1, p.2 = .ok () →
        ∀ m ∈ p.1.release.migrations,
          m.row ∈ ((execAll MigrationCall.program s calls).2 ()).rows := by
  induction calls generalizing s with
  | nil => exact ⟨[], MigratedDatabase.Grown.refl _, by simp, by simp⟩
  | cons c calls ih =>
    rw [execAll, c.exec_program]
    obtain ⟨applied, hgrown, hfrom, hall⟩ := ih fun _ => (c.outcome (s ())).2
    rcases c.outcome_cases (s ()) with ⟨herror, hsame⟩ | hmigrate
    · refine ⟨applied, ?_, fun m hm => ?_, fun p hp hok => ?_⟩
      · rw [hsame] at hgrown ⊢
        exact hgrown
      · obtain ⟨c', hc', hm'⟩ := hfrom m hm
        exact ⟨c', List.mem_cons_of_mem _ hc', hm'⟩
      · rw [List.zip_cons_cons] at hp
        rcases List.mem_cons.mp hp with rfl | hp
        · exact absurd hok herror
        · exact hall p hp hok
    · obtain ⟨first, hsub, hfirst, hrows⟩ := MigratedDatabase.migrate_grows hmigrate
      refine ⟨first ++ applied, hfirst.trans hgrown, fun m hm => ?_, fun p hp hok => ?_⟩
      · rcases List.mem_append.mp hm with hm | hm
        · exact ⟨c, List.mem_cons_self .., hsub.subset hm⟩
        · obtain ⟨c', hc', hm'⟩ := hfrom m hm
          exact ⟨c', List.mem_cons_of_mem _ hc', hm'⟩
      · rw [List.zip_cons_cons] at hp
        rcases List.mem_cons.mp hp with rfl | hp
        · exact fun m hm => hgrown.mem (hrows m hm)
        · exact hall p hp hok

/-- The serial order of a run: the calls that ended, with their results. -/
theorem order_serial {db : MigratedDatabase S} {events : List (MigrationEvent S)}
    {t : MigrationSystem S} (hrun : run migrationStep db.unattended events = some t) :
    execAll MigrationCall.program (fun _ => db) (t.order.map (·.2.1)) =
      (t.order.map (·.2.2), t.shared) :=
  (run_consistent MigrationCall.program_ascending hrun).serial

theorem mem_zip_of_order {order : List (ℕ × MigrationCall S × Except MigrationError Unit)}
    {i : ℕ} {c : MigrationCall S} {result : Except MigrationError Unit}
    (h : (i, c, result) ∈ order) :
    (c, result) ∈ (order.map (·.2.1)).zip (order.map (·.2.2)) := by
  rw [List.zip_map']
  exact List.mem_map.mpr ⟨_, h, rfl⟩

/-- **Every migration once.**  Whichever releases migrate a database, in whichever interleaving,
and whichever connections break:
* the database is the initial one after the scripts of the newly registered migrations, each
  executed once in the order of the registry, and earlier rows of the registry stay;
* every process that was told of success finds all its migrations registered;
* while a process has not ended its call, some process can go on. -/
theorem migrations_once (db : MigratedDatabase S) (events : List (MigrationEvent S))
    (t : MigrationSystem S) (hrun : run migrationStep db.unattended events = some t) :
    (∃ applied,
      runScripts db.schema applied = some (t.shared ()).schema ∧
      (t.shared ()).rows = db.rows ++ applied.map SchemaMigration.row ∧
      ((t.shared ()).rows.map MigrationRow.version).Nodup ∧
      ∀ m ∈ applied, ∃ c ∈ t.order.map (·.2.1), m ∈ c.release.migrations) ∧
    (∀ i c, (i, c, .ok ()) ∈ t.order →
      ∀ m ∈ c.release.migrations, m.row ∈ (t.shared ()).rows) ∧
    ∀ i, t.Unfinished i → ∃ j e, t.Unfinished j ∧ e.thread = some j ∧ e ≠ .cancel j ∧
      (migrationStep t e).isSome := by
  obtain ⟨applied, hgrown, hfrom, hall⟩ := execAll_grown (t.order.map (·.2.1)) fun _ => db
  rw [order_serial hrun] at hgrown hall
  refine ⟨⟨applied, hgrown.scripts, hgrown.rows, MigratedDatabase.rows_nodup _, hfrom⟩, ?_, ?_⟩
  · intro i c hc
    exact hall _ (mem_zip_of_order hc) rfl
  · intro i hi
    obtain ⟨j, hj, hfree⟩ := (run_consistent MigrationCall.program_ascending hrun).unblocked_exists
      (fun _ => Nat.one_pos) hi
    obtain ⟨e, he, hcancel, hstep⟩ := unblocked_moves hj hfree
    exact ⟨j, e, hj, he, hcancel, hstep⟩

/-! ### Releases that extend each other -/

/-- The migrations of this release; `sql` is what their scripts do. -/
def schemaMigrations (sql : ℕ → S → Option S) : List (SchemaMigration S) :=
  [⟨1, "snapshot", sql 1⟩,
   ⟨2, "transactional", sql 2⟩,
   ⟨3, "multi-transactional", sql 3⟩,
   ⟨4, "cache-repair", sql 4⟩,
   ⟨5, "trade-outbox", sql 5⟩,
   ⟨6, "operation-registry", sql 6⟩,
   ⟨7, "hardening", sql 7⟩,
   ⟨8, "generic-commit", sql 8⟩,
   ⟨9, "outbox-relay", sql 9⟩,
   ⟨10, "cache-repair-leases", sql 10⟩,
   ⟨11, "outbox-index-cleanup", sql 11⟩,
   ⟨12, "queued-fence", sql 12⟩,
   ⟨13, "query-indexes", sql 13⟩,
   ⟨14, "cache-repair-claim-indexes", sql 14⟩,
   ⟨15, "receipt-retention", sql 15⟩,
   ⟨16, "operation-retirement", sql 16⟩,
   ⟨17, "retired-operation-purge", sql 17⟩]

theorem schemaMigrations_versions (sql : ℕ → S → Option S) :
    ((schemaMigrations sql).map SchemaMigration.version).Nodup := by
  show [1, 2, 3, 4, 5, 6, 7, 8, 9, 10, 11, 12, 13, 14, 15, 16, 17].Nodup
  decide

namespace MigratedDatabase

variable {all : List (SchemaMigration S)} {base : S} {db db' : MigratedDatabase S} {j n : ℕ}
  {m : SchemaMigration S} {r : MigrationRelease S}

/-- The first `n` migrations are registered and were executed, on the schema `base`. -/
structure Current (all : List (SchemaMigration S)) (base : S) (n : ℕ) (db : MigratedDatabase S) :
    Prop where
  le : n ≤ all.length
  rows : db.rows = (all.take n).map SchemaMigration.row
  scripts : runScripts base (all.take n) = some db.schema

theorem Current.bootstrap (h : Current all base n db) : Current all base n db.bootstrap :=
  ⟨h.le, db.rows_bootstrap.trans h.rows, h.scripts⟩

theorem Current.grown (h : Current all base n db) (hm : all[n]? = some m)
    (hgrown : db.Grown [m] db') : Current all base (n + 1) db' := by
  have htake : all.take (n + 1) = all.take n ++ [m] := by
    rw [List.take_add_one, hm, Option.toList_some]
  obtain ⟨hlt, -⟩ := List.getElem?_eq_some_iff.mp hm
  refine ⟨hlt, ?_, ?_⟩
  · rw [hgrown.rows, h.rows, htake, List.map_append]
  · rw [htake]
    exact runScripts_append h.scripts hgrown.scripts

theorem eq_of_version (hversions : (all.map SchemaMigration.version).Nodup)
    {m m' : SchemaMigration S} (hm : m ∈ all) (hm' : m' ∈ all) (h : m.version = m'.version) :
    m = m' := List.inj_on_of_nodup_map hversions hm hm' h

/-- The registered migrations have the versions of the first `n`. -/
theorem Current.version_mem (hversions : (all.map SchemaMigration.version).Nodup)
    (h : Current all base n db) (hm : all[j]? = some m) :
    m.version ∈ db.rows.map MigrationRow.version ↔ j < n := by
  rw [h.rows, List.map_map]
  constructor
  · intro hmem
    obtain ⟨m', hm', hversion⟩ := List.mem_map.mp hmem
    obtain ⟨i, hi⟩ := List.getElem?_of_mem hm'
    obtain ⟨hlt, -⟩ := List.getElem?_eq_some_iff.mp hi
    rw [List.length_take] at hlt
    rw [List.getElem?_take_of_lt (by omega)] at hi
    obtain rfl := eq_of_version hversions (List.mem_of_getElem? hi) (List.mem_of_getElem? hm)
      hversion
    have hij : i = j := by
      obtain ⟨hi', -⟩ := List.getElem?_eq_some_iff.mp hi
      exact (List.getElem?_inj hi' hversions.of_map).mp (hi.trans hm.symm)
    omega
  · intro hlt
    exact List.mem_map.mpr ⟨m, List.mem_of_getElem? (by rwa [List.getElem?_take_of_lt hlt]), rfl⟩

theorem Current.apply (hversions : (all.map SchemaMigration.version).Nodup)
    (h : Current all base n db) (hm : all[j]? = some m) (hj : j ≤ n)
    (happly : db.applySchemaMigration m = .ok db') : Current all base (max n (j + 1)) db' := by
  rcases applySchemaMigration_cases happly with ⟨hrow, rfl⟩ | ⟨hnew, hgrown⟩
  · have hlt := (h.version_mem hversions hm).mp (List.mem_map_of_mem hrow)
    rwa [Nat.max_eq_left hlt]
  · rw [h.version_mem hversions hm] at hnew
    obtain rfl : j = n := by omega
    rw [Nat.max_eq_right (Nat.le_succ j)]
    exact h.grown hm hgrown

/-- A registered migration has the name that every release knows. -/
theorem Current.apply_error (hversions : (all.map SchemaMigration.version).Nodup)
    (h : Current all base n db) (hm : all[j]? = some m) {e : MigrationError}
    (happly : db.applySchemaMigration m = .error e) : e = .postgres := by
  rcases applySchemaMigration_error happly with he | ⟨row, hrow, hversion, hname, -⟩
  · exact he
  · rw [h.rows] at hrow
    obtain ⟨m', hm', rfl⟩ := List.mem_map.mp hrow
    obtain rfl := eq_of_version hversions (List.mem_of_mem_take hm') (List.mem_of_getElem? hm)
      hversion
    exact absurd rfl hname

theorem getElem?_of_prefix_drop {ms : List (SchemaMigration S)} (h : m :: ms <+: all.drop j) :
    all[j]? = some m ∧ ms <+: all.drop (j + 1) := by
  obtain ⟨rest, hrest⟩ := h
  constructor
  · rw [← List.head?_drop, ← hrest]
    rfl
  · refine ⟨rest, ?_⟩
    rw [← List.tail_drop, ← hrest]
    rfl

theorem Current.applyAll (hversions : (all.map SchemaMigration.version).Nodup)
    {ms : List (SchemaMigration S)} (h : Current all base n db) (hms : ms <+: all.drop j)
    (hj : j ≤ n) (happly : ms.foldlM applySchemaMigration db = .ok db') :
    Current all base (max n (j + ms.length)) db' := by
  induction ms generalizing db j n with
  | nil =>
    obtain rfl := Except.ok.inj happly
    rwa [List.length_nil, Nat.add_zero, Nat.max_eq_left hj]
  | cons m ms ih =>
    obtain ⟨hm, hrest⟩ := getElem?_of_prefix_drop hms
    rw [List.foldlM_cons] at happly
    obtain ⟨middle, hfirst, happly⟩ := Checks.bind_eq_ok.mp happly
    have hlast := ih (h.apply hversions hm hj hfirst) hrest (Nat.le_max_right ..) happly
    rwa [Nat.max_assoc, Nat.max_eq_right (show j + 1 ≤ j + 1 + ms.length by omega),
      show j + 1 + ms.length = j + (m :: ms).length by rw [List.length_cons]; omega] at hlast

theorem Current.applyAll_error (hversions : (all.map SchemaMigration.version).Nodup)
    {ms : List (SchemaMigration S)} (h : Current all base n db) (hms : ms <+: all.drop j)
    (hj : j ≤ n) {e : MigrationError} (happly : ms.foldlM applySchemaMigration db = .error e) :
    e = .postgres := by
  induction ms generalizing db j n with
  | nil => cases happly
  | cons m ms ih =>
    obtain ⟨hm, hrest⟩ := getElem?_of_prefix_drop hms
    rw [List.foldlM_cons] at happly
    rcases Checks.bind_eq_error.mp happly with hfirst | ⟨middle, hfirst, happly⟩
    · exact h.apply_error hversions hm hfirst
    · exact ih (h.apply hversions hm hj hfirst) hrest (Nat.le_max_right ..) happly

theorem Current.migrate (hversions : (all.map SchemaMigration.version).Nodup)
    (h : Current all base n db) (hr : r.migrations <+: all) (hmigrate : db.migrate r = .ok db') :
    Current all base (max n r.migrations.length) db' := by
  have hlast := h.bootstrap.applyAll hversions (j := 0) hr (Nat.zero_le n)
    (migrate_applyAll hmigrate)
  rwa [Nat.zero_add] at hlast

theorem Current.migrate_no_conflict (hversions : (all.map SchemaMigration.version).Nodup)
    (h : Current all base n db) (hr : r.migrations <+: all) (version : ℕ)
    (expected actual : String) :
    db.migrate r ≠ .error (.schemaMigrationConflict version expected actual) := by
  intro hmigrate
  have hall : r.snapshot :: r.later <+: all.drop 0 := hr
  obtain ⟨hm, hlater⟩ := getElem?_of_prefix_drop hall
  rcases Checks.bind_eq_error.mp hmigrate with hfirst | ⟨first, hfirst, hmigrate⟩
  · cases h.bootstrap.apply_error hversions hm hfirst
  · have hcurrent := h.bootstrap.apply hversions hm (Nat.zero_le n) hfirst
    rcases Checks.bind_eq_error.mp hmigrate with hlayout | ⟨⟨⟩, -, hmigrate⟩
    · cases hvalid : r.validateSnapshotPartitionLayout first.schema <;> rw [hvalid] at hlayout <;>
        cases hlayout
    · rcases Checks.bind_eq_error.mp hmigrate with hlast | ⟨last, -, hmigrate⟩
      · cases hcurrent.applyAll_error hversions hlater (Nat.le_max_right ..) hlast
      · rcases Checks.bind_eq_error.mp hmigrate with hindexes | ⟨⟨⟩, -, hmigrate⟩
        · cases hvalid : r.validateSchemaIndexes last.schema <;> rw [hvalid] at hindexes <;>
            cases hindexes
        · cases hmigrate

end MigratedDatabase

/-- Calls of releases that extend each other, one after the other. -/
theorem execAll_current {all : List (SchemaMigration S)} {base : S}
    (hversions : (all.map SchemaMigration.version).Nodup) (calls : List (MigrationCall S))
    (hcalls : ∀ c ∈ calls, c.release.migrations <+: all) :
    ∀ (s : Unit → MigratedDatabase S) (n : ℕ), MigratedDatabase.Current all base n (s ()) →
      ∃ n' ≥ n,
        MigratedDatabase.Current all base n' ((execAll MigrationCall.program s calls).2 ()) ∧
        ∀ p ∈ calls.zip (execAll MigrationCall.program s calls).1,
          (p.2 = .ok () → p.1.release.migrations.length ≤ n') ∧
          ∀ version expected actual,
            p.2 ≠ .error (.schemaMigrationConflict version expected actual) := by
  induction calls with
  | nil => exact fun s n h => ⟨n, Nat.le_refl n, h, by simp⟩
  | cons c calls ih =>
    intro s n h
    have hc := hcalls c (List.mem_cons_self ..)
    have hrest := ih fun c' hc' => hcalls c' (List.mem_cons_of_mem _ hc')
    -- what this call leaves, and its result
    obtain ⟨n₁, hn₁, hcurrent, hok⟩ : ∃ n₁ ≥ n,
        MigratedDatabase.Current all base n₁ (c.outcome (s ())).2 ∧
        ((c.outcome (s ())).1 = .ok () → c.release.migrations.length ≤ n₁) := by
      rcases c.outcome_cases (s ()) with ⟨herror, hsame⟩ | hmigrate
      · exact ⟨n, Nat.le_refl n, by rwa [hsame], fun hok => absurd hok herror⟩
      · exact ⟨_, Nat.le_max_left .., h.migrate hversions hc hmigrate,
          fun _ => Nat.le_max_right ..⟩
    obtain ⟨n₂, hn₂, hlast, hall⟩ := hrest (fun _ => (c.outcome (s ())).2) n₁ hcurrent
    rw [execAll, c.exec_program]
    refine ⟨n₂, Nat.le_trans hn₁ hn₂, hlast, fun p hp => ?_⟩
    rw [List.zip_cons_cons] at hp
    rcases List.mem_cons.mp hp with rfl | hp
    · refine ⟨fun hresult => Nat.le_trans (hok hresult) hn₂, ?_⟩
      intro version expected actual hresult
      rcases MigrationCall.outcome_error hresult with hpostgres | hmigrate
      · cases hpostgres
      · exact h.migrate_no_conflict hversions hc _ _ _ hmigrate
    · exact hall p hp

/-- The processes of a run are those that started. -/
theorem threads_started {P : MigrationCall S → Prop} {s t : MigrationSystem S}
    {events : List (MigrationEvent S)} (hs : ∀ thread ∈ s.threads, P thread.request)
    (hevents : ∀ c, Event.start c ∈ events → P c) (hrun : run migrationStep s events = some t) :
    ∀ thread ∈ t.threads, P thread.request := by
  refine run_invariant_of (P := fun u : MigrationSystem S => ∀ thread ∈ u.threads, P thread.request)
    (Q := fun e => ∀ c, e = .start c → P c) ?_ ?_ hs hrun
  · intro u e u' he hu hstep
    rcases LockSystem.step_cases hstep with ⟨c, hc, rfl⟩ | ⟨i, c, l, next, held, -, hi, -, rfl⟩ |
      ⟨i, c, a, writes, held, -, hi, rfl⟩ | ⟨i, l, c, outcome, held, -, hi, -, rfl⟩ |
      ⟨i, c, l, next, held, -, hi, rfl⟩
    · intro thread hthread
      rcases List.mem_append.mp hthread with hthread | hthread
      · exact hu thread hthread
      · obtain rfl := List.mem_singleton.mp hthread
        exact he c hc
    all_goals
      intro thread hthread
      rcases List.mem_or_eq_of_mem_set hthread with hthread | rfl
      · exact hu thread hthread
      · have hc : P c := hu _ (List.mem_of_getElem? hi)
        exact hc
  · rintro e he c rfl
    exact hevents c he

/-- **One sequence of migrations.**  A new database is migrated by processes of releases each of
which knows a prefix of the migrations below, in every interleaving and whichever connections
break.  Then the registry lists a prefix of them and the schema is what their scripts made of the
initial one, each executed once and in order.  No process is told of a conflict, and one that was
told of success finds all its migrations in the prefix. -/
theorem releases_extend (sql : ℕ → S → Option S) (db : MigratedDatabase S)
    (hfresh : db.registry = none) (events : List (MigrationEvent S)) (t : MigrationSystem S)
    (hreleases : ∀ c, Event.start c ∈ events → c.release.migrations <+: schemaMigrations sql)
    (hrun : run migrationStep db.unattended events = some t) :
    ∃ n ≤ (schemaMigrations sql).length,
      (t.shared ()).rows = ((schemaMigrations sql).take n).map SchemaMigration.row ∧
      runScripts db.schema ((schemaMigrations sql).take n) = some (t.shared ()).schema ∧
      (∀ i c, (i, c, .ok ()) ∈ t.order → c.release.migrations.length ≤ n) ∧
      ∀ i c version expected actual,
        (i, c, .error (.schemaMigrationConflict version expected actual)) ∉ t.order := by
  have hstarted := threads_started (s := db.unattended) (fun thread hthread => by cases hthread)
    hreleases hrun
  have hcalls : ∀ c ∈ t.order.map (·.2.1), c.release.migrations <+: schemaMigrations sql := by
    intro c hc
    obtain ⟨⟨i, _, result⟩, horder, rfl⟩ := List.mem_map.mp hc
    obtain ⟨held, hthread⟩ :=
      ((run_consistent MigrationCall.program_ascending hrun).finished i _ result).mp horder
    exact hstarted _ (List.mem_of_getElem? hthread)
  have hinit : MigratedDatabase.Current (schemaMigrations sql) db.schema 0 db :=
    ⟨Nat.zero_le _, by rw [MigratedDatabase.rows, hfresh]; rfl, rfl⟩
  obtain ⟨n, -, hcurrent, hall⟩ := execAll_current (schemaMigrations_versions sql)
    (t.order.map (·.2.1)) hcalls (fun _ => db) 0 hinit
  rw [order_serial hrun] at hcurrent hall
  refine ⟨n, hcurrent.le, hcurrent.rows, hcurrent.scripts, ?_, ?_⟩
  · intro i c horder
    exact (hall _ (mem_zip_of_order horder)).1 rfl
  · intro i c version expected actual horder
    exact (hall _ (mem_zip_of_order horder)).2 version expected actual rfl

/-- This release, where a script logs its version and the indexes are valid after all of them. -/
def loggedRelease (known : ℕ) : MigrationRelease (List ℕ) where
  snapshot := ⟨1, "snapshot", fun log => some (log ++ [1])⟩
  later := ((schemaMigrations fun version log => some (log ++ [version])).take known).tail
  validateSnapshotPartitionLayout _ := .ok ()
  validateSchemaIndexes log :=
    if log.length = known then .ok () else .error "an index is missing"

theorem loggedRelease_migrations {known : ℕ} (h : 0 < known) :
    (loggedRelease known).migrations =
      (schemaMigrations fun version log => some (log ++ [version])).take known := by
  obtain ⟨k, rfl⟩ := Nat.exists_eq_succ_of_ne_zero (Nat.ne_of_gt h)
  rfl

/-- An old and a new process start together; the answer to the new one's COMMIT is lost, and it
tries again after the old one was refused. -/
def overlappingMigrations : List (MigrationEvent (List ℕ)) :=
  [.start ⟨loggedRelease 16, .stable⟩, .start ⟨loggedRelease 17, .lostAfterCommit⟩, .acquire 1,
    .finish 1, .release 1 (), .start ⟨loggedRelease 17, .stable⟩, .acquire 0, .finish 0,
    .release 0 (), .acquire 2, .finish 2]

theorem migrations_once_overlapping :
    ∃ t, run migrationStep (MigratedDatabase.unattended ⟨none, []⟩) overlappingMigrations = some t ∧
      ∀ i c, (i, c, .ok ()) ∈ t.order →
        ∀ m ∈ c.release.migrations, m.row ∈ (t.shared ()).rows := by
  obtain ⟨t, ht⟩ := Option.isSome_iff_exists.mp (show (run migrationStep
    (MigratedDatabase.unattended ⟨none, []⟩) overlappingMigrations).isSome = true by decide)
  exact ⟨t, ht, (migrations_once ⟨none, []⟩ overlappingMigrations t ht).2.1⟩

/-- The new process is told of success in the end, so all migrations are registered. -/
theorem releases_extend_overlapping :
    ∃ t, run migrationStep (MigratedDatabase.unattended ⟨none, []⟩) overlappingMigrations = some t ∧
      (t.shared ()).rows =
        (schemaMigrations fun version (log : List ℕ) => some (log ++ [version])).map
          SchemaMigration.row := by
  have hended : ∃ t, run migrationStep (MigratedDatabase.unattended ⟨none, []⟩)
      overlappingMigrations = some t ∧
      ∃ o ∈ t.order, o.2.2.isOk = true ∧ o.2.1.release.migrations.length = 17 :=
    exists_of_any (by decide)
  obtain ⟨t, ht, ⟨i, c, result⟩, horder, hok, hlength⟩ := hended
  have hprefix : ∀ known, 0 < known → (loggedRelease known).migrations <+:
      schemaMigrations fun version log => some (log ++ [version]) := by
    intro known hknown
    rw [loggedRelease_migrations hknown]
    exact List.take_prefix _ _
  obtain ⟨n, -, hrows, -, hall, -⟩ := releases_extend (fun version log => some (log ++ [version]))
    ⟨none, []⟩ rfl overlappingMigrations t
    (fun c hc => by
      simp only [overlappingMigrations, List.mem_cons, Event.start.injEq, reduceCtorEq, false_or,
        List.not_mem_nil, or_false] at hc
      rcases hc with rfl | rfl | rfl
      · exact hprefix 16 (by decide)
      · exact hprefix 17 (by decide)
      · exact hprefix 17 (by decide)) ht
  cases result with
  | error e => cases hok
  | ok =>
    have hn : 17 ≤ n := hlength ▸ hall i c horder
    refine ⟨t, ht, ?_⟩
    rw [hrows, List.take_of_length_le (show 17 ≤ n from hn)]

end DbProxy
