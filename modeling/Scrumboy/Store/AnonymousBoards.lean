import Scrumboy.Store.Projects
import Scrumboy.Store.Tags

/-!
# Anonymous boards

A board that anybody can open: a project that expires, under a random slug. It gets the
default priorities with its row, and its tags and its workflow once the row is there.
-/

namespace Scrumboy

open Go Sql

def defaultTagsForAnonymousBoards : List (String × String) :=
  [("bug", "#FF0000"), ("feature", "#00FF00"), ("enhancement", "#800080"), ("tech-debt", "#808080"),
   ("infrastructure", "#A52A2A"), ("performance", "#ADD8E6"), ("security", "#00008B"),
   ("ui", "#FF00FF"), ("ux", "#FFC0CB"), ("backend", "#FFFF00"), ("frontend", "#FFA500"),
   ("api", "#DDA0DD"), ("database", "#008080"), ("testing", "#00CED1"), ("devops", "#708090"),
   ("documentation", "#87CEEB"), ("blocking", "#FF4500"), ("needs-investigation", "#FFD700"),
   ("regression", "#8B0000"), ("cleanup", "#D3D3D3")]

/-- `INSERT OR IGNORE INTO tags` for a tag of a board. -/
def insertOrIgnoreBoardTag (rt : Runtime) (ctx : Ctx) (projectID : ℤ) (db : DB)
    (tag : String × String) : DB :=
  let normalizedName := canonicalizeTag rt tag.1
  if db.tags.any fun t => t.projectID == some projectID && t.userID == none &&
      t.name == normalizedName then db
  else (appendTag db ⟨0, none, normalizedName, ctx.nowMs, some projectID, some tag.2⟩).1

def createDefaultBoardScopedTags (rt : Runtime) (ctx : Ctx) (db : DB) (projectID : ℤ) : DB :=
  defaultTagsForAnonymousBoards.foldl (insertOrIgnoreBoardTag rt ctx projectID) db

/-- The row of an anonymous board, or of a temporary one if somebody is signed in. -/
def anonymousBoardRow (ctx : Ctx) (slug : String) : ProjectRow :=
  { defaultProjectRow ctx.nowMs with
    name := if ctx.userID = none then "Anonymous Board" else "Temporary Board"
    image := some "/scrumboy.png"
    slug := slug
    creatorUserID := ctx.userID
    expiresAt := some (temporaryBoardExpiresAtMs ctx.nowMs) }

/-- The row of a board, with its priorities and its tags. -/
def insertAnonymousBoard (rt : Runtime) (ctx : Ctx) (db : DB) (slug : String) : DB × ℤ :=
  let (db, id) := appendProject db (anonymousBoardRow ctx slug)
  let db := ensureDefaultPriorityTiers db id
  (if ctx.userID = none then createDefaultBoardScopedTags rt ctx db id else db, id)

/-- A board with the first of ten random slugs that is free. The workflow is written
after the row was committed; if every slug is taken, it has no row to belong to. -/
def createAnonymousBoard (rt : Runtime) (ctx : Ctx) (db : DB) (draws : List String) :
    DB × Result ℤ :=
  match (draws.take 10).find? fun slug => !slugExists db slug with
  | none => (db, .error ⟨.internal, "ensure workflow column " ++ quote defaultColumnBacklog ++
      ": FOREIGN KEY constraint failed"⟩)
  | some slug =>
      let (db, id) := insertAnonymousBoard rt ctx db slug
      match ensureDefaultWorkflowColumns db id with
      | .error e => (db, .error e)
      | .ok db => (db, .ok id)

/-! ## What creating a board leaves alone -/

theorem createDefaultBoardScopedTags_tagsOnly (rt : Runtime) (ctx : Ctx) (db : DB) (projectID : ℤ) :
    TagsOnly db (createDefaultBoardScopedTags rt ctx db projectID) := by
  unfold createDefaultBoardScopedTags
  induction defaultTagsForAnonymousBoards generalizing db with
  | nil => exact .refl db
  | cons tag tags ih =>
      refine .trans ?_ (ih _)
      unfold insertOrIgnoreBoardTag
      dsimp only
      split
      · exact .refl db
      · exact appendTag_tagsOnly db _

theorem insertAnonymousBoard_spec (rt : Runtime) (ctx : Ctx) (db : DB) (slug : String) :
    (insertAnonymousBoard rt ctx db slug).2 = nextRowid (db.projects.map (·.id)) ∧
      ∃ p : ProjectRow, (p.id = (insertAnonymousBoard rt ctx db slug).2 ∧ p.slug = slug ∧
          p.importBatchID = none) ∧
        TagsOnly (ensureDefaultPriorityTiers { db with projects := db.projects ++ [p] } p.id)
          (insertAnonymousBoard rt ctx db slug).1 := by
  refine ⟨rfl, { anonymousBoardRow ctx slug with id := nextRowid (db.projects.map (·.id)) },
    ⟨rfl, rfl, rfl⟩, ?_⟩
  unfold insertAnonymousBoard
  dsimp only
  split
  · exact createDefaultBoardScopedTags_tagsOnly rt ctx _ _
  · exact .refl _

/-- Either no slug was free, or there is one project more, with the default tiers, under
a slug that was drawn. -/
theorem createAnonymousBoard_spec (rt : Runtime) (ctx : Ctx) (db : DB) (draws : List String) :
    (createAnonymousBoard rt ctx db draws).1 = db ∨
      ∃ p : ProjectRow, p.id = nextRowid (db.projects.map (·.id)) ∧
        (createAnonymousBoard rt ctx db draws).1.projects = db.projects ++ [p] ∧
        (createAnonymousBoard rt ctx db draws).1.priorities =
          (ensureDefaultPriorityTiers { db with projects := db.projects ++ [p] } p.id).priorities ∧
        (createAnonymousBoard rt ctx db draws).1.todos = db.todos ∧
        p.slug ∈ draws ∧ slugExists db p.slug = false ∧ p.importBatchID = none := by
  unfold createAnonymousBoard
  split
  · exact .inl rfl
  · rename_i slug hfind
    have hfree : slugExists db slug = false := by simpa using List.find?_some hfind
    have hdrawn := List.mem_of_mem_take (List.mem_of_find?_eq_some hfind)
    obtain ⟨hid, p, ⟨hp, rfl, hvisible⟩, htags⟩ := insertAnonymousBoard_spec rt ctx db slug
    generalize insertAnonymousBoard rt ctx db p.slug = out at hid hp htags ⊢
    obtain ⟨priorities, heq⟩ := (ensureDefaultPriorityTiers_prioritiesOnly
      { db with projects := db.projects ++ [p] } p.id).exists_eq
    obtain ⟨_, _, _, _, hout⟩ := htags.exists_eq
    right
    refine ⟨p, hp.trans hid, ?_⟩
    dsimp only
    split
    · rw [hout, heq]
      exact ⟨rfl, rfl, rfl, hdrawn, hfree, hvisible⟩
    · rename_i db' hok
      obtain ⟨_, rfl⟩ := (ensureDefaultWorkflowColumns_spec hok).1.exists_eq
      rw [hout, heq]
      exact ⟨rfl, rfl, rfl, hdrawn, hfree, hvisible⟩

end Scrumboy
