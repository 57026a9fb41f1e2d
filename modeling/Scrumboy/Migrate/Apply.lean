import Scrumboy.Go.Errors
import Scrumboy.Go.Strings
import Scrumboy.Transition.Runs

/-!
# Migrations

`Apply` brings a database up to what the binary knows. It lists the migrations that are recorded,
and runs each of the others in a transaction that records it too. Several processes can start on one
database, of releases that know more or fewer migrations, while others serve it.

The statements of a migration are a parameter. What can go wrong around them comes with a step.
-/

set_option linter.dupNamespace false

namespace Scrumboy

namespace Migrate

open Go Transition

/-! ## The source -/

structure DirEntry where
  name : String
  isDir : Bool

def knownVersions (entries : List DirEntry) : List String :=
  sortStrings ((entries.filter (!·.isDir)).map (·.name))

structure MigrationRow where
  version : String
  appliedAt : ℤ

/-- `schema_migrations`, once it was created, and the rest of the database. -/
structure MigrateDB (σ : Type) where
  schemaMigrations : Option (List MigrationRow) := none
  data : σ

def MigrateDB.rows {σ : Type} (db : MigrateDB σ) : List MigrationRow := db.schemaMigrations.getD []

def MigrateDB.versions {σ : Type} (db : MigrateDB σ) : List String := db.rows.map (·.version)

/-- The call that fails. A failed commit can have stored its transaction. -/
inductive Fault
  | none
  | statement
  | conn
  | disable
  | begin
  | exec
  | record
  | commit (stored : Bool)
  | enable
  deriving DecidableEq

/-- Where a process is in `Apply`. -/
inductive ApplyPC
  | create
  | list
  /-- In the loop, with the versions that it found recorded and those that it has not looked at. -/
  | loop (applied rest : List String)
  | returned (err : Option String)

/-- A process, and whether its only connection checks foreign keys. -/
structure ApplyProc where
  known : List String
  pc : ApplyPC := .create
  foreignKeys : Bool := true

section

variable {σ : Type}

def createTable (fault : Fault) (db : MigrateDB σ) : MigrateDB σ × Option String :=
  let created := { db with schemaMigrations := some db.rows }
  match fault with
  | .none => (created, none)
  | .commit true => (created, some "create schema_migrations")
  | _ => (db, some "create schema_migrations")

def alreadyApplied (fault : Fault) (db : MigrateDB σ) : Except String (List String) := do
  reject (fault ≠ .none ∨ db.schemaMigrations.isNone) "list applied migrations"
  pure db.versions

/-- The transaction of `applyOne`, and the error that is returned after it. -/
def migrateTx (script : String → σ → Option σ) (fault : Fault) (now : ℤ) (version : String)
    (db : MigrateDB σ) : MigrateDB σ × Option String :=
  if fault = .begin then (db, some ("begin migration tx " ++ version))
  else
    match script version db.data with
    | none => (db, some ("exec migration " ++ version))
    | some data =>
        if fault = .exec then (db, some ("exec migration " ++ version))
        else if fault = .record ∨ db.schemaMigrations.isNone ∨ version ∈ db.versions then
          (db, some ("record migration " ++ version))
        else
          let stored := ⟨some (db.rows ++ [⟨version, now⟩]), data⟩
          match fault with
          | .commit true => (stored, some ("commit migration " ++ version))
          | .commit false => (db, some ("commit migration " ++ version))
          | .enable => (stored, some ("enable foreign_keys for migration " ++ version))
          | _ => (stored, none)

/-- The deferred statement switches foreign keys on again after an error, when it succeeds. -/
def applyOne (script : String → σ → Option σ) (fault : Fault) (reenables : Bool) (now : ℤ)
    (version : String) (foreignKeys : Bool) (db : MigrateDB σ) :
    MigrateDB σ × Bool × Option String :=
  if fault = .conn then (db, foreignKeys, some ("get conn for migration " ++ version))
  else if fault = .disable then (db, foreignKeys, some ("disable foreign_keys for migration " ++ version))
  else
    let (db, err) := migrateTx script fault now version db
    (db, err.isNone || reenables, err)

/-- The next statement of `Apply`. -/
def applyStep (script : String → σ → Option σ) (fault : Fault) (reenables : Bool) (now : ℤ)
    (p : ApplyProc) (db : MigrateDB σ) : ApplyProc × MigrateDB σ :=
  match p.pc with
  | .create =>
      let (db, err) := createTable fault db
      ({ p with pc := if err.isNone then .list else .returned err }, db)
  | .list =>
      match alreadyApplied fault db with
      | .ok applied => ({ p with pc := .loop applied p.known }, db)
      | .error err => ({ p with pc := .returned (some err) }, db)
  | .loop _ [] => ({ p with pc := .returned none }, db)
  | .loop applied (version :: rest) =>
      if version ∈ applied then ({ p with pc := .loop applied rest }, db)
      else
        let (db, foreignKeys, err) := applyOne script fault reenables now version p.foreignKeys db
        ({ p with pc := if err.isNone then .loop applied rest else .returned err, foreignKeys }, db)
  | .returned _ => (p, db)

def recoveryMinimumMigration : String := "049_add_oidc_identities.sql"

def requiredColumns : List (String × List String) :=
  [("users", ["id", "email", "password_hash", "system_role"]), ("sessions", ["user_id"]),
    ("login_2fa_pending", ["user_id"])]

/-- `columns` are the names that `PRAGMA table_info` lists. -/
def checkRecoverySchema (columns : σ → String → List String) (known : List String) (db : MigrateDB σ) :
    Except String Unit := do
  reject db.schemaMigrations.isNone ("schema is too old or incompatible (schema_migrations " ++
    "unavailable): back up the database and run the normal Scrumboy upgrade first")
  db.versions.forM fun version => reject (version ∉ known) ("database schema contains migration " ++
    quote version ++ " unknown to this binary; use the same or a newer compatible Scrumboy binary")
  reject (recoveryMinimumMigration ∉ db.versions) ("database schema is too old for owner recovery: " ++
    "back up the database, run the normal Scrumboy upgrade path, stop the service again, and rerun " ++
    "recover-owner")
  requiredColumns.forM fun table => table.2.forM fun column =>
    reject (column ∉ (columns db.data table.1).map toLower) ("database schema is incompatible: " ++
      "required column " ++ table.1 ++ "." ++ column ++
      " is missing; restore a backup or run the normal Scrumboy upgrade")

/-! ## Processes on one database -/

/-- What a transaction wrote. -/
inductive Write (σ : Type)
  | script (version : String)
  | edit (f : σ → σ)

def Write.version? : Write σ → Option String
  | .script version => some version
  | .edit _ => none

def Write.apply (script : String → σ → Option σ) (data : σ) : Write σ → Option σ
  | .script version => script version data
  | .edit f => some (f data)

/-- The database, the processes that were started on it, and what was written since. -/
structure Site (σ : Type) where
  db : MigrateDB σ
  procs : List ApplyProc := []
  log : List (Write σ) := []

/-- A process starts, goes on, or another one that serves the database writes to it. -/
inductive SiteAct (σ : Type)
  | start (entries : List DirEntry)
  | step (i : ℕ) (fault : Fault) (reenables : Bool) (now : ℤ)
  | edit (f : σ → σ)

def Site.step (script : String → σ → Option σ) (s : Site σ) : SiteAct σ → Site σ
  | .start entries => { s with procs := s.procs ++ [{ known := knownVersions entries }] }
  | .step i fault reenables now =>
      match s.procs[i]? with
      | none => s
      | some p =>
          let (p, db) := applyStep script fault reenables now p s.db
          { db, procs := s.procs.set i p
            log := s.log ++ (db.versions.drop s.db.versions.length).map .script }
  | .edit f => { s with db := { s.db with data := f s.db.data }, log := s.log ++ [.edit f] }

end

section

variable {σ : Type} {script : String → σ → Option σ} {fault : Fault} {reenables : Bool} {now : ℤ}
  {p p' : ApplyProc} {db db' : MigrateDB σ} {version : String}

/-- The transaction of a migration leaves the database alone, or runs a migration that is not recorded
and records it. It returns no error only in the second case. -/
theorem migrateTx_spec (script : String → σ → Option σ) (fault : Fault) (now : ℤ) (version : String)
    (db : MigrateDB σ) :
    ((migrateTx script fault now version db).1 = db ∧
        (migrateTx script fault now version db).2.isNone = false) ∨
      version ∉ db.versions ∧ ∃ data, script version db.data = some data ∧
        (migrateTx script fault now version db).1 =
          ⟨some (db.rows ++ [⟨version, now⟩]), data⟩ := by
  unfold migrateTx
  split
  · exact .inl ⟨rfl, rfl⟩
  · split
    · exact .inl ⟨rfl, rfl⟩
    · rename_i data hdata
      split
      · exact .inl ⟨rfl, rfl⟩
      · split
        · exact .inl ⟨rfl, rfl⟩
        · rename_i hrecord
          rw [not_or, not_or] at hrecord
          dsimp only
          split
          · exact .inr ⟨hrecord.2.2, data, hdata, rfl⟩
          · exact .inl ⟨rfl, rfl⟩
          · exact .inr ⟨hrecord.2.2, data, hdata, rfl⟩
          · exact .inr ⟨hrecord.2.2, data, hdata, rfl⟩

theorem MigrateDB.versions_record (db : MigrateDB σ) (now : ℤ) (version : String) (data : σ) :
    MigrateDB.versions ⟨some (db.rows ++ [⟨version, now⟩]), data⟩ = db.versions ++ [version] := by
  simp [MigrateDB.versions, MigrateDB.rows]

/-- What a process knows of the migrations that are recorded: it has passed only such, and its foreign
keys are on unless it has failed. -/
def ApplyProc.Knows (versions : List String) (p : ApplyProc) : Prop :=
  match p.pc with
  | .create | .list => p.foreignKeys = true
  | .loop applied rest => p.foreignKeys = true ∧ applied ⊆ versions ∧
      ∃ passed, p.known = passed ++ rest ∧ passed ⊆ versions
  | .returned none => p.foreignKeys = true ∧ p.known ⊆ versions
  | .returned (some _) => True

theorem ApplyProc.Knows.mono {versions versions' : List String} (h : p.Knows versions)
    (hsub : versions ⊆ versions') : p.Knows versions' := by
  unfold Knows at h ⊢
  split at h
  · exact h
  · exact h
  · obtain ⟨hkeys, happlied, passed, hknown, hpassed⟩ := h
    exact ⟨hkeys, List.Subset.trans happlied hsub, passed, hknown, List.Subset.trans hpassed hsub⟩
  · exact ⟨h.1, List.Subset.trans h.2 hsub⟩
  · trivial

/-- What one step of a process does to the database. It runs the migration behind those that it passed. -/
inductive StepsTo (script : String → σ → Option σ) (p : ApplyProc) (db : MigrateDB σ) :
    MigrateDB σ → List String → Prop
  | same {db' : MigrateDB σ} (hversions : db'.versions = db.versions) (hdata : db'.data = db.data) :
      StepsTo script p db db' []
  | ran {db' : MigrateDB σ} {version : String} {passed rest : List String}
      (hknown : p.known = passed ++ version :: rest) (hpassed : passed ⊆ db.versions)
      (hnew : version ∉ db.versions) (hversions : db'.versions = db.versions ++ [version])
      (hdata : script version db.data = some db'.data) : StepsTo script p db db' [version]

theorem StepsTo.versions_eq {ran : List String} (h : StepsTo script p db db' ran) :
    db'.versions = db.versions ++ ran := by
  cases h with
  | same hversions _ => rw [hversions, List.append_nil]
  | ran _ _ _ hversions _ => exact hversions

/-- A step of a process that knows what it has passed. -/
theorem applyStep_spec (script : String → σ → Option σ) (fault : Fault) (reenables : Bool) (now : ℤ)
    (hp : p.Knows db.versions) :
    let out := applyStep script fault reenables now p db
    out.1.known = p.known ∧ out.1.Knows out.2.versions ∧ ∃ ran, StepsTo script p db out.2 ran := by
  obtain ⟨known, pc, foreignKeys⟩ := p
  cases pc with
  | create =>
      have hsame : (createTable fault db).1.versions = db.versions ∧
          (createTable fault db).1.data = db.data := by
        unfold createTable
        split <;> exact ⟨rfl, rfl⟩
      refine ⟨rfl, ?_, [], .same hsame.1 hsame.2⟩
      simp only [applyStep]
      cases (createTable fault db).2 with
      | none => exact hp
      | some err => trivial
  | list =>
      simp only [applyStep]
      cases happlied : alreadyApplied fault db with
      | error err => exact ⟨rfl, trivial, [], .same rfl rfl⟩
      | ok applied =>
          simp only [alreadyApplied, bind_eq_ok, pure_eq_ok] at happlied
          obtain ⟨_, _, rfl⟩ := happlied
          exact ⟨rfl, ⟨hp, List.Subset.refl _, [], rfl, List.nil_subset _⟩, [], .same rfl rfl⟩
  | returned err => exact ⟨rfl, hp, [], .same rfl rfl⟩
  | loop applied rest =>
      obtain ⟨hkeys, happlied, passed, hknown, hpassed⟩ := hp
      dsimp only at hkeys hknown
      cases rest with
      | nil =>
          rw [List.append_nil] at hknown
          exact ⟨rfl, ⟨hkeys, hknown ▸ hpassed⟩, [], .same rfl rfl⟩
      | cons version rest =>
          have hnext : known = (passed ++ [version]) ++ rest := by
            rw [hknown]
            simp
          by_cases hskip : version ∈ applied
          · simp only [applyStep, if_pos hskip]
            refine ⟨trivial, ⟨hkeys, happlied, _, hnext, ?_⟩, [], .same rfl rfl⟩
            exact List.append_subset.mpr
              ⟨hpassed, List.cons_subset.mpr ⟨happlied hskip, List.nil_subset _⟩⟩
          · simp only [applyStep, if_neg hskip, applyOne]
            split
            · exact ⟨trivial, trivial, [], .same rfl rfl⟩
            · split
              · exact ⟨trivial, trivial, [], .same rfl rfl⟩
              · dsimp only
                rcases migrateTx_spec script fault now version db with
                  ⟨hdb, herr⟩ | ⟨hnew, data, hdata, hdb⟩
                · refine ⟨trivial, ?_, [], .same (by rw [hdb]) (by rw [hdb])⟩
                  cases herror : (migrateTx script fault now version db).2 with
                  | none =>
                      rw [herror] at herr
                      cases herr
                  | some err => trivial
                · have hversions : (migrateTx script fault now version db).1.versions =
                      db.versions ++ [version] := by
                    rw [hdb]
                    exact db.versions_record now version data
                  refine ⟨trivial, ?_, [version], .ran hknown hpassed hnew hversions (by rw [hdata, hdb])⟩
                  cases (migrateTx script fault now version db).2 with
                  | some err => trivial
                  | none =>
                      rw [hversions]
                      exact ⟨rfl, List.subset_append_of_subset_left _ happlied, _, hnext,
                        List.append_subset.mpr ⟨List.subset_append_of_subset_left _ hpassed,
                          List.subset_append_right _ _⟩⟩

/-- The recorded migrations are those of the start and those that ran since, each once, the data is what
the writes make of that of the start, and each process knows what it has passed. -/
structure Site.Inv (script : String → σ → Option σ) (db₀ : MigrateDB σ) (s : Site σ) : Prop where
  nodup : s.db.versions.Nodup
  versions : s.db.versions = db₀.versions ++ s.log.filterMap Write.version?
  data : s.log.foldlM (Write.apply script) db₀.data = some s.db.data
  procs : ∀ p ∈ s.procs, p.Knows s.db.versions

theorem Site.Inv.step {db₀ : MigrateDB σ} {s : Site σ} (h : s.Inv script db₀) (act : SiteAct σ) :
    (s.step script act).Inv script db₀ := by
  cases act with
  | start entries =>
      refine ⟨h.nodup, h.versions, h.data, fun p hp => ?_⟩
      rcases List.mem_append.mp hp with hp | hp
      · exact h.procs p hp
      · rw [List.mem_singleton.mp hp]
        exact rfl
  | edit f =>
      refine ⟨h.nodup, ?_, ?_, h.procs⟩
      · simp only [Site.step, List.filterMap_append]
        rw [show [Write.edit f].filterMap Write.version? = [] from rfl, List.append_nil]
        exact h.versions
      · simp [Site.step, Write.apply, List.foldlM_append, h.data]
  | step i fault reenables now =>
      simp only [Site.step]
      cases hproc : s.procs[i]? with
      | none => exact h
      | some p =>
          obtain ⟨-, hknows, ran, hran⟩ := applyStep_spec script fault reenables now
            (h.procs p (List.mem_of_getElem? hproc))
          have hversions := hran.versions_eq
          have hlog : (applyStep script fault reenables now p s.db).2.versions.drop
              s.db.versions.length = ran := by
            rw [hversions, List.drop_left]
          dsimp only
          rw [hlog]
          refine ⟨?_, ?_, ?_, fun q hq => ?_⟩
          · cases hran with
            | same heq _ => rw [heq]; exact h.nodup
            | ran _ _ hnew heq _ =>
                rw [heq]
                exact List.nodup_append.mpr ⟨h.nodup, List.nodup_singleton _, fun a ha b hb =>
                  List.mem_singleton.mp hb ▸ ne_of_mem_of_not_mem ha hnew⟩
          · have hmap : (ran.map (Write.script (σ := σ))).filterMap Write.version? = ran := by
              simp [List.filterMap_map, Function.comp_def, Write.version?]
            rw [List.filterMap_append, hmap, ← List.append_assoc, ← h.versions, hversions]
          · rw [List.foldlM_append, h.data]
            cases hran with
            | same _ heq => simp [heq]
            | ran _ _ _ _ hdata => simp [Write.apply, hdata]
          · rcases List.mem_or_eq_of_mem_set hq with hq | rfl
            · refine (h.procs q hq).mono ?_
              rw [hversions]
              exact List.subset_append_left _ _
            · exact hknows

/-- What is recorded stays at the beginning of a list when the next version of such a beginning is
recorded. -/
theorem isPrefix_concat {versions known passed rest : List String} {applied : List String}
    (hnodup : versions.Nodup) (happlied : applied <+: versions) (hknown : known <+: versions)
    (heq : known = passed ++ version :: rest) (hpassed : passed ⊆ applied) (hnew : version ∉ applied) :
    applied ++ [version] <+: versions := by
  have hnext : passed ++ [version] <+: versions :=
    (List.prefix_append_right_inj passed).mpr (List.prefix_append [version] rest) |>.trans (heq ▸ hknown)
  rcases List.prefix_or_prefix_of_prefix happlied hnext with h | h
  · rcases List.prefix_concat_iff.mp h with h | h
    · exact absurd (h ▸ List.mem_concat_self) hnew
    · have hlength : passed.length ≤ applied.length :=
        (List.subperm_of_subset (hnext.sublist.nodup hnodup).of_append_left hpassed).length_le
      rwa [h.eq_of_length_le hlength]
  · exact absurd (h.subset List.mem_concat_self) hnew

theorem Site.step_proc (script : String → σ → Option σ) (fault : Fault) (reenables : Bool) (now : ℤ)
    {s : Site σ} {i : ℕ} (hp : s.procs[i]? = some p) :
    (s.step script (.step i fault reenables now)).procs[i]? =
        some (applyStep script fault reenables now p s.db).1 ∧
      (s.step script (.step i fault reenables now)).db = (applyStep script fault reenables now p s.db).2 := by
  have hlt : i < s.procs.length := (List.getElem?_eq_some_iff.mp hp).1
  simp only [Site.step, hp]
  exact ⟨List.getElem?_set_self hlt, trivial⟩

/-- A process in the loop runs what it did not find recorded, and returns. -/
theorem Site.loop_returns (script : String → σ → Option σ) (reenables : Bool) (now : ℤ) {s : Site σ}
    {i : ℕ} {known applied rest : List String} {data : σ}
    (hp : s.procs[i]? = some ⟨known, .loop applied rest, true⟩) (htable : s.db.schemaMigrations.isNone = false)
    (hnodup : rest.Nodup) (hnew : ∀ v ∈ rest, v ∈ s.db.versions → v ∈ applied)
    (hdata : (rest.filter (· ∉ applied)).foldlM (fun d v => script v d) s.db.data = some data) :
    let s' := run (Site.step script) s (List.replicate (rest.length + 1) (.step i .none reenables now))
    s'.procs[i]? = some ⟨known, .returned none, true⟩ ∧ s'.db.data = data ∧
      s'.db.versions = s.db.versions ++ rest.filter (· ∉ applied) := by
  induction rest generalizing s with
  | nil =>
      obtain ⟨hproc, hdb⟩ := Site.step_proc script .none reenables now hp
      simp only [applyStep] at hproc hdb
      simp only [List.filter_nil, List.foldlM_nil, Option.pure_def, Option.some.injEq] at hdata
      simp [hproc, hdb, hdata]
  | cons version rest ih =>
      obtain ⟨hproc, hdb⟩ := Site.step_proc script .none reenables now hp
      rw [List.nodup_cons] at hnodup
      rw [List.length_cons, List.replicate_succ, run_cons]
      by_cases hskip : version ∈ applied
      · simp only [applyStep, if_pos hskip] at hproc hdb
        rw [List.filter_cons_of_neg (by simpa using hskip)] at hdata ⊢
        rw [← hdb] at htable hnew hdata ⊢
        exact ih hproc htable hnodup.2 (fun v hv => hnew v (List.mem_cons_of_mem _ hv)) hdata
      · rw [List.filter_cons_of_pos (by simpa using hskip)] at hdata ⊢
        rw [List.foldlM_cons, Option.bind_eq_bind, Option.bind_eq_some_iff] at hdata
        obtain ⟨data₁, hrun, hrest⟩ := hdata
        have hfree : version ∉ s.db.versions := fun h => hskip (hnew version List.mem_cons_self h)
        have htx : migrateTx script .none now version s.db =
            (⟨some (s.db.rows ++ [⟨version, now⟩]), data₁⟩, none) := by
          simp [migrateTx, hrun, htable, hfree]
        have hone : applyOne script .none reenables now version true s.db =
            (⟨some (s.db.rows ++ [⟨version, now⟩]), data₁⟩, true, none) := by
          simp [applyOne, htx]
        simp only [applyStep, if_neg hskip, hone] at hproc hdb
        have hversions := congrArg MigrateDB.versions hdb
        rw [s.db.versions_record] at hversions
        have hgoal := ih (s := s.step script (.step i .none reenables now)) hproc (by rw [hdb]; rfl) hnodup.2
          (fun v hv hmem => ?_) (by rw [hdb]; exact hrest)
        · rw [hversions, List.append_assoc] at hgoal
          exact hgoal
        · rw [hversions, List.mem_append, List.mem_singleton] at hmem
          rcases hmem with hmem | rfl
          · exact hnew v (List.mem_cons_of_mem _ hv) hmem
          · exact absurd hv hnodup.1

/-- A process that starts now and is not disturbed runs what is not recorded, and returns no error, if
the statements run. -/
def Site.Finishes (script : String → σ → Option σ) (s : Site σ) : Prop :=
  ∀ entries data reenables now, (knownVersions entries).Nodup →
    ((knownVersions entries).filter (· ∉ s.db.versions)).foldlM (fun d v => script v d) s.db.data =
      some data →
    let s' := run (Site.step script) s (.start entries ::
      List.replicate ((knownVersions entries).length + 3) (.step s.procs.length .none reenables now))
    s'.procs[s.procs.length]? = some ⟨knownVersions entries, .returned none, true⟩ ∧ s'.db.data = data ∧
      s'.db.versions = s.db.versions ++ (knownVersions entries).filter (· ∉ s.db.versions)

theorem Site.finishes (s : Site σ) : s.Finishes script := by
  intro entries data reenables now hnodup hdata
  have hstart : (s.step script (.start entries)).procs[s.procs.length]? =
      some { known := knownVersions entries } := by
    simp [Site.step]
  obtain ⟨hcreate, hcreated⟩ := Site.step_proc script .none reenables now hstart
  simp only [applyStep, createTable] at hcreate hcreated
  obtain ⟨hlist, hlisted⟩ := Site.step_proc script .none reenables now hcreate
  rw [hcreated] at hlist hlisted
  obtain ⟨hproc, hwritten, hversions⟩ := Site.loop_returns script reenables now hlist
    (by rw [hlisted]; rfl) hnodup (fun v _ hv => by rw [hlisted] at hv; exact hv)
    (by rw [hlisted]; exact hdata)
  exact ⟨hproc, hwritten, hversions.trans (by rw [hlisted]; rfl)⟩

/-- The columns that a recovery needs. -/
def Complete (columns : σ → String → List String) (data : σ) : Prop :=
  ∀ table ∈ requiredColumns, ∀ column ∈ table.2, column ∈ (columns data table.1).map toLower

theorem checkRecoverySchema_eq_ok_iff {columns : σ → String → List String} {known : List String} :
    checkRecoverySchema columns known db = .ok () ↔ db.versions ⊆ known ∧
      recoveryMinimumMigration ∈ db.versions ∧ Complete columns db.data := by
  simp only [checkRecoverySchema, bind_eq_ok, reject_eq_ok, forM_eq_ok, not_not, exists_const]
  refine ⟨fun h => h.2, fun h => ⟨?_, h⟩⟩
  cases htable : db.schemaMigrations with
  | some rows => simp
  | none =>
      have hmem := h.2.1
      simp [MigrateDB.versions, MigrateDB.rows, htable] at hmem

/-- Migrations on one database, whatever processes start, fail and go on beside each other and whatever
is written meanwhile, when each release knows a beginning of one list: those that are recorded are a
beginning of the list, and since the start each ran once, in this order, among the other writes. A
process that returns no error has left none of its own out and checks foreign keys again. One that
starts later and is not disturbed runs what is missing. A recovery goes on just when its release knows
all that is recorded, and the schema is recent enough. -/
theorem migrations_in_order (db : MigrateDB σ) {versions : List String} (hnodup : versions.Nodup)
    (hdb : db.versions <+: versions) (acts : List (SiteAct σ))
    (hreleases : ∀ entries, .start entries ∈ acts → knownVersions entries <+: versions) :
    let s := run (Site.step script) { db := db } acts
    s.db.versions <+: versions ∧
    s.db.versions = db.versions ++ s.log.filterMap Write.version? ∧
    s.log.foldlM (Write.apply script) db.data = some s.db.data ∧
    (∀ p ∈ s.procs, p.pc = .returned none → p.known <+: s.db.versions ∧ p.foreignKeys = true) ∧
    s.Finishes script ∧
    ∀ columns known, known <+: versions → (checkRecoverySchema columns known s.db = .ok () ↔
      s.db.versions <+: known ∧ recoveryMinimumMigration ∈ s.db.versions ∧ Complete columns s.db.data) := by
  -- two beginnings of the list of which one has all of the other
  have hbegins : ∀ l known : List String, l <+: versions → known <+: versions → l ⊆ known →
      l <+: known := by
    intro l known hl hknown hsub
    have hlength := (List.subperm_of_subset (hl.sublist.nodup hnodup) hsub).length_le
    exact List.prefix_of_prefix_length_le hl hknown hlength
  intro s
  have hrun : s.Inv script db ∧ (∀ p ∈ s.procs, p.known <+: versions) ∧ s.db.versions <+: versions := by
    refine run_history (P := fun past (s : Site σ) => (∀ entries, .start entries ∈ past →
        knownVersions entries <+: versions) → s.Inv script db ∧ (∀ p ∈ s.procs, p.known <+: versions) ∧
        s.db.versions <+: versions) ?_ ?_ acts hreleases
    · intro _
      exact ⟨⟨hdb.sublist.nodup hnodup, by simp, rfl, by simp⟩, by simp, hdb⟩
    · intro past s act ih hpast
      obtain ⟨hinv, hknown, hversions⟩ := ih fun entries h => hpast entries (List.mem_append_left _ h)
      refine ⟨hinv.step act, ?_⟩
      cases act with
      | edit f => exact ⟨hknown, hversions⟩
      | start entries =>
          refine ⟨fun p hp => ?_, hversions⟩
          rcases List.mem_append.mp hp with hp | hp
          · exact hknown p hp
          · rw [List.mem_singleton.mp hp]
            exact hpast entries (by simp)
      | step i fault reenables now =>
          simp only [Site.step]
          cases hproc : s.procs[i]? with
          | none => exact ⟨hknown, hversions⟩
          | some p =>
              have hmem := List.mem_of_getElem? hproc
              obtain ⟨hsame, -, ran, hran⟩ := applyStep_spec script fault reenables now
                (hinv.procs p hmem)
              refine ⟨fun q hq => ?_, ?_⟩
              · rcases List.mem_or_eq_of_mem_set hq with hq | rfl
                · exact hknown q hq
                · exact hsame ▸ hknown p hmem
              · cases hran with
                | same heq _ => exact heq ▸ hversions
                | ran hsplit hpassed hnew heq _ =>
                    dsimp only
                    rw [heq]
                    exact isPrefix_concat hnodup hversions (hknown p hmem) hsplit hpassed hnew
  obtain ⟨hinv, hknown, hversions⟩ := hrun
  refine ⟨hversions, hinv.versions, hinv.data, fun p hp hreturned => ?_, s.finishes,
    fun columns known hrelease => ?_⟩
  · have hp' := hinv.procs p hp
    rw [ApplyProc.Knows, hreturned] at hp'
    exact ⟨hbegins _ _ (hknown p hp) hversions hp'.2, hp'.1⟩
  · rw [checkRecoverySchema_eq_ok_iff]
    exact and_congr_left fun _ => ⟨hbegins _ _ hversions hrelease, fun h => h.subset⟩

end

/-- Two processes find nothing recorded, and each of them is to run the first migration. -/
def twoStarts : List (SiteAct ℕ) :=
  let entries := [⟨"002_add_tag_color.sql", false⟩, ⟨"001_init.sql", false⟩]
  [SiteAct.start entries, .start entries] ++ [0, 1, 0, 1, 0, 1, 0, 0].map fun i => .step i .none true 5

theorem migrations_two_starts :
    (run (Site.step fun _ n => some (n + 1)) ⟨⟨none, 0⟩, [], []⟩ twoStarts).db.versions <+:
      ["001_init.sql", "002_add_tag_color.sql"] := by
  refine (migrations_in_order ⟨none, 0⟩ (by decide) (by decide) twoStarts fun entries h => ?_).1
  have hentries : knownVersions entries = ["001_init.sql", "002_add_tag_color.sql"] := by
    simp only [twoStarts, List.cons_append, List.nil_append, List.mem_cons, SiteAct.start.injEq, List.mem_map,
      reduceCtorEq, and_false, exists_false, or_false, or_self] at h
    subst h
    decide +kernel
  exact hentries ▸ List.prefix_rfl

end Migrate

end Scrumboy
