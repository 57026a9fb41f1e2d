import Scrumboy.Store.Access
import Scrumboy.Store.Priorities

/-!
# Creating projects

A project is created under a slug made from its name, with a number behind it
when the slug is taken. The index on slugs ignores the projects of an unfinished
import. A new project gets its workflow and the default priorities, and its
creator becomes a maintainer.
-/

namespace Scrumboy

open Go Sql

def validateAgendaTitle (raw : String) : Result String := do
  let name := trimSpace raw
  reject (name = "" ∨ 200 < byteLen name) ⟨.validation, "invalid agenda title"⟩
  pure name

def validateAgendaColor (raw : String) : Result String := do
  reject (colorHexRe (trimSpace raw) = false) ⟨.validation, "invalid agenda color"⟩
  pure (trimSpace raw)

def reservedProjectSlugs : List String :=
  ["_app", "agora", "anon", "api", "auth", "dashboard", "healthz", "mcp", "oauth", "p", "temp",
   "en", "pseudo", "ar", "bn", "de", "es", "fa", "fr", "hi", "id", "it", "ja", "ko", "ms", "pl",
   "pt", "ru", "sw", "th", "tr", "uk", "ur", "vi", "zh"]

def isReservedProjectSlug (slug : String) : Bool :=
  toLower (trimSpace slug) ∈ reservedProjectSlugs

/-- The character that a character of a lower-case name leaves in the slug. -/
def slugRune (c : Char) : Option Char :=
  if isLetter c || isDigit c || c == '-' then
    if c.toNat ≤ 127 then some c else none
  else some '-'

/-- Runs of hyphens become one hyphen. -/
def squeezeHyphens : List Char → List Char
  | [] => []
  | c :: cs =>
      if c == '-' && cs.head? == some '-' then squeezeHyphens cs else c :: squeezeHyphens cs

def generateSlugFromName (name : String) : Result String := do
  let name := trimSpace name
  reject (name = "") ⟨.validation, "name cannot be empty"⟩
  let name := String.ofList (squeezeHyphens ((toLower name).toList.filterMap slugRune))
  let name := trimChar '-' name
  reject (name = "") ⟨.validation, "name cannot produce a valid slug"⟩
  let name := if maxSlugLen < byteLen name then trimSuffix '-' (takeBytes maxSlugLen name) else name
  reject (name = "") ⟨.validation, "name cannot produce a valid slug"⟩
  reject (name.toList.all fun c => !(isLetter c || isDigit c))
    ⟨.validation, "name cannot produce a valid slug"⟩
  pure name

/-- The slug of attempt `i`: the base itself, then `-2`, `-3` and so on, with the
base cut so that the whole has at most 32 bytes. -/
def slugCandidate (baseSlug : String) (i : ℕ) : String :=
  if i = 0 then baseSlug
  else
    let suffix := "-" ++ formatInt (i + 1)
    let maxBaseLen := maxSlugLen - byteLen suffix
    if maxBaseLen < byteLen baseSlug then trimRightChar '-' (takeBytes maxBaseLen baseSlug) ++ suffix
    else baseSlug ++ suffix

def slugExists (db : DB) (slug : String) : Bool :=
  db.projects.any fun p => p.slug == slug && p.importBatchID == none

/-- The grammar of slugs: lower-case letters, digits and single hyphens inside. -/
def isValidSlug (s : String) : Bool :=
  let s := (trimSpace s).toList
  !s.isEmpty && byteLen (String.ofList s) ≤ maxSlugLen && s.head? != some '-' &&
    s.getLast? != some '-' && s.all (fun c => isLowerAlnum c || c == '-') && squeezeHyphens s == s

def getProjectBySlug (db : DB) (slug : String) : Result ProjectRow := do
  let slug := trimSpace (toLower slug)
  reject (isValidSlug slug = false) ⟨.validation, "invalid slug"⟩
  match db.projects.find? fun p => p.slug == slug && p.importBatchID == none with
  | some p => pure p
  | none => throw ⟨.notFound, ""⟩

/-- The first of a hundred candidates that `ok` admits and no project has. -/
def freeSlug (db : DB) (ok : String → Bool) (baseSlug : String) : Result String :=
  match ((List.range 100).map (slugCandidate baseSlug)).find? fun slug =>
      ok slug && !slugExists db slug with
  | some slug => .ok slug
  | none => .error ⟨.conflict, "could not generate unique slug after 100 attempts"⟩

/-- A new row of the table with the values of `p`. -/
def appendProject (db : DB) (p : ProjectRow) : DB × ℤ :=
  let id := nextRowid (db.projects.map (·.id))
  ({ db with projects := db.projects ++ [{ p with id := id }] }, id)

/-- `INSERT OR IGNORE INTO project_members`. -/
def insertMaintainer (db : DB) (projectID userID nowMs : ℤ) : DB :=
  if db.members.any fun m => m.projectID == projectID && m.userID == userID then db
  else { db with members := db.members ++ [⟨projectID, userID, .maintainer, nowMs⟩] }

/-- The owner of a new project becomes a maintainer. -/
def insertOwner (db : DB) (projectID nowMs : ℤ) : Option ℤ → DB
  | none => db
  | some userID => insertMaintainer db projectID userID nowMs

/-- The columns of a project that an `INSERT` without them fills in. -/
def defaultProjectRow (nowMs : ℤ) : ProjectRow where
  id := 0
  name := ""
  image := none
  dominantColor := "#888888"
  slug := ""
  estimationMode := "MODIFIED_FIBONACCI"
  defaultSprintWeeks := 2
  sprintsEnabled := true
  agendaEnabled := false
  agendaTimezone := "UTC"
  agendaTitle := "Agenda"
  agendaColor := "#6366F1"
  ownerUserID := none
  creatorUserID := none
  lastActivityAt := nowMs
  expiresAt := none
  createdAt := nowMs
  updatedAt := nowMs
  importBatchID := none

def newProjectRow (nowMs : ℤ) (name slug : String) (ownerUserID : Option ℤ) : ProjectRow :=
  { defaultProjectRow nowMs with
    name := name
    image := some "/scrumboy.png"
    slug := slug
    ownerUserID := ownerUserID }

/-- The user that becomes the owner of a new project. -/
def projectOwner (ctx : Ctx) (db : DB) : Result (Option ℤ) :=
  if authEnabled db then
    match ctx.userID with
    | none => throw ⟨.unauthorized, ""⟩
    | some userID => pure (some userID)
  else pure none

/-- The default columns, or those of a custom workflow. -/
def createWorkflow (db : DB) (projectID : ℤ) : Option (List WorkflowColumn) → Result DB
  | none => ensureDefaultWorkflowColumns db projectID
  | some workflow => insertWorkflowColumns db projectID workflow

def createProjectWithWorkflow (ctx : Ctx) (db : DB) (name : String)
    (workflow : Option (List WorkflowColumn)) : Result (DB × ℤ) := do
  let name := trimSpace name
  reject (name = "" ∨ 200 < byteLen name) ⟨.validation, "invalid project name"⟩
  let ownerUserID ← projectOwner ctx db
  let baseSlug ← generateSlugFromName name
  let slug ← freeSlug db (fun slug => !isReservedProjectSlug slug) baseSlug
  let (db, id) := appendProject db (newProjectRow ctx.nowMs name slug ownerUserID)
  let db ← createWorkflow (insertOwner db id ctx.nowMs ownerUserID) id workflow
  pure (ensureDefaultPriorityTiers db id, id)

/-- What matching looks at in a project. -/
structure ProjectFace where
  id : ℤ
  slug : String
  expiresAt : Option ℤ
  creatorUserID : Option ℤ
  importBatchID : Option String
  deriving DecidableEq, Repr

def ProjectRow.face (p : ProjectRow) : ProjectFace :=
  ⟨p.id, p.slug, p.expiresAt, p.creatorUserID, p.importBatchID⟩

def DB.faces (db : DB) : List ProjectFace := db.projects.map ProjectRow.face

theorem DB.projectIDs_eq (db : DB) : db.projects.map (·.id) = db.faces.map (·.id) := by
  rw [DB.faces, List.map_map]
  rfl

theorem DB.mem_faces {db : DB} {f : ProjectFace} : f ∈ db.faces ↔ ∃ p ∈ db.projects, p.face = f :=
  List.mem_map

/-! ## What creating a project leaves alone -/

theorem createWorkflow_spec {db db' : DB} {projectID : ℤ} {workflow : Option (List WorkflowColumn)}
    (h : createWorkflow db projectID workflow = .ok db') :
    ColumnsOnly db db' ∧ (ColumnTable db.columns → ColumnTable db'.columns) ∧ KeepsKeys db db' := by
  cases workflow with
  | none =>
      obtain ⟨htables, hids, hkeys⟩ := ensureDefaultWorkflowColumns_spec h
      exact ⟨htables, hids, fun other k hk => (hkeys other k).mpr (.inl hk)⟩
  | some workflow =>
      refine ⟨insertWorkflowColumns_columnsOnly h, insertWorkflowColumns_columnTable h, ?_⟩
      intro other k hk
      rw [insertWorkflowColumns_columnKeys h]
      exact List.mem_append_left _ hk

theorem insertOwner_eq (db : DB) (projectID nowMs : ℤ) (owner : Option ℤ) :
    ∃ members, insertOwner db projectID nowMs owner = { db with members := members } := by
  cases owner with
  | none => exact ⟨_, rfl⟩
  | some userID =>
      unfold insertOwner insertMaintainer
      dsimp only
      split
      · exact ⟨_, rfl⟩
      · exact ⟨_, rfl⟩

/-- A new project touches the tables of projects, members, columns and priorities,
and takes no lane away. -/
theorem createProjectWithWorkflow_spec {ctx : Ctx} {db : DB} {name : String}
    {workflow : Option (List WorkflowColumn)} {out : DB × ℤ}
    (h : createProjectWithWorkflow ctx db name workflow = .ok out) :
    (∃ p : ProjectRow, ∃ members columns priorities, out.1 = { db with
      projects := db.projects ++ [{ p with id := nextRowid (db.projects.map (·.id)) }]
      members := members
      columns := columns
      priorities := priorities }) ∧
      (ColumnTable db.columns → ColumnTable out.1.columns) ∧ KeepsKeys db out.1 := by
  simp only [createProjectWithWorkflow, bind_eq_ok, pure_eq_ok] at h
  obtain ⟨_, _, owner, _, base, _, slug, _, db₂, hworkflow, rfl⟩ := h
  obtain ⟨htables, hids, hkeys⟩ := createWorkflow_spec hworkflow
  obtain ⟨columns, rfl⟩ := htables.exists_eq
  obtain ⟨members, hmembers⟩ := insertOwner_eq
    (appendProject db (newProjectRow ctx.nowMs (trimSpace name) slug owner)).1
    (appendProject db (newProjectRow ctx.nowMs (trimSpace name) slug owner)).2 ctx.nowMs owner
  rw [hmembers] at hids hkeys ⊢
  obtain ⟨priorities, hprio⟩ := (ensureDefaultPriorityTiers_prioritiesOnly _ _).exists_eq
  dsimp only
  rw [hprio]
  exact ⟨⟨newProjectRow ctx.nowMs (trimSpace name) slug owner, _, _, _, rfl⟩, hids, hkeys⟩

end Scrumboy
