import Scrumboy.Go.Strings
import Scrumboy.Go.Errors
import Scrumboy.Sql.Order
import Scrumboy.Store.Schema

/-!
# Tags

The canonical form of a tag name, the rows behind a name, and the tags of a todo.
A tag belongs to a user, or to a board without accounts. Normalization form C of
Unicode comes from a library of its own, and is a field of the runtime here.
-/

namespace Scrumboy

open Go Sql

def maxTagRunes : ℕ := 32

/-- The state of the loop of `CanonicalizeTag`: the characters written so far in
reverse, whether a hyphen is due before the next one, and whether the segment has
a base character. -/
structure TagScan where
  written : List Char := []
  pendingHyphen : Bool := false
  hasBase : Bool := false

def TagScan.step (s : TagScan) (c : Char) : Option TagScan :=
  if isSpace c || c == '-' then
    some { s with pendingHyphen := s.pendingHyphen || !s.written.isEmpty, hasBase := false }
  else if isLetter c || isNumber c then
    some { written := c :: (if s.pendingHyphen then '-' :: s.written else s.written)
           pendingHyphen := false
           hasBase := true }
  else if isMark c && s.hasBase then some { s with written := c :: s.written }
  else none

/-- The canonical form of a tag name, or the empty text. -/
def canonicalizeTag (rt : Runtime) (name : String) : String :=
  let s := trimSpace name
  if s = "" then ""
  else
    match (rt.nfc (toLower (rt.nfc s))).toList.foldlM TagScan.step {} with
    | none => ""
    | some scan => if maxTagRunes < scan.written.length then "" else
        String.ofList scan.written.reverse

def tagGroupKey (rt : Runtime) (name : String) : String :=
  if canonicalizeTag rt name = "" then name else canonicalizeTag rt name

/-- The canonical names of a list without repetition, or the first name that has
none. -/
def normalizeTagNames (rt : Runtime) : List String → List String → Result (List String)
  | seen, [] => pure seen
  | seen, raw :: rest => do
      let t := canonicalizeTag rt raw
      reject (t = "") ⟨.validation, "invalid tag " ++ quote raw⟩
      normalizeTagNames rt (if t ∈ seen then seen else seen ++ [t]) rest

def normalizeTags (rt : Runtime) (tags : List String) : Result (List String) := do
  reject (20 < tags.length) ⟨.validation, "too many tags"⟩
  let out ← normalizeTagNames rt [] tags
  pure (sortStrings out)

/-- The row that stands for a name among the rows that `owned` selects: an exact
match, else the first in id order that has the name as its group key. -/
def findTagIDByGroupKey (rt : Runtime) (db : DB) (owned : TagRow → Bool) (groupKey : String) :
    Option ℤ :=
  match db.tags.find? fun t => owned t && t.name == groupKey with
  | some t => some t.id
  | none => ((orderBy (·.id) (db.tags.filter owned)).find? fun t =>
      tagGroupKey rt t.name == groupKey).map (·.id)

def appendTag (db : DB) (t : TagRow) : DB × ℤ :=
  let id := nextRowid (db.tags.map (·.id))
  ({ db with tags := db.tags ++ [{ t with id := id }] }, id)

def getOrCreateTagExact (rt : Runtime) (ctx : Ctx) (db : DB) (userID : ℤ) (name : String) :
    DB × ℤ :=
  match findTagIDByGroupKey rt db (fun t => t.userID == some userID) name with
  | some id => (db, id)
  | none => appendTag db ⟨0, some userID, name, ctx.nowMs, none, none⟩

def getOrCreateTag (rt : Runtime) (ctx : Ctx) (db : DB) (userID : ℤ) (name : String) :
    Result (DB × ℤ) := do
  let normalizedName := canonicalizeTag rt name
  reject (normalizedName = "") ⟨.validation, "invalid tag name"⟩
  pure (getOrCreateTagExact rt ctx db userID normalizedName)

def getOrCreateBoardTag (rt : Runtime) (ctx : Ctx) (db : DB) (projectID : ℤ) (name : String) :
    DB × ℤ :=
  match findTagIDByGroupKey rt db
      (fun t => t.projectID == some projectID && t.userID == none) name with
  | some id => (db, id)
  | none => appendTag db ⟨0, none, name, ctx.nowMs, some projectID, none⟩

/-- `INSERT OR IGNORE INTO project_tags`. -/
def linkProjectTag (ctx : Ctx) (db : DB) (projectID tagID : ℤ) : DB :=
  if db.projectTags.any fun r => r.projectID == projectID && r.tagID == tagID then db
  else { db with projectTags := db.projectTags ++ [⟨projectID, tagID, ctx.nowMs⟩] }

/-- `INSERT OR IGNORE INTO todo_tags`. -/
def linkTodoTag (db : DB) (todoID tagID : ℤ) : DB :=
  if ⟨todoID, tagID⟩ ∈ db.todoTags then db
  else { db with todoTags := db.todoTags ++ [⟨todoID, tagID⟩] }

/-- The row for one tag of a todo: of the board, or of the user. -/
def tagForTodo (rt : Runtime) (ctx : Ctx) (db : DB) (projectID : ℤ) (userID : Option ℤ)
    (isAnonymousBoard : Bool) (name : String) : Result (DB × ℤ) :=
  if isAnonymousBoard then pure (getOrCreateBoardTag rt ctx db projectID name)
  else match userID with
    | none => throw ⟨.internal, "userID required for user-owned tags"⟩
    | some userID => getOrCreateTag rt ctx db userID name

/-- One round of the loop of `setTodoTags`. -/
def setTodoTag (rt : Runtime) (ctx : Ctx) (projectID todoID : ℤ) (userID : Option ℤ)
    (isAnonymousBoard : Bool) (db : DB) (name : String) : Result DB :=
  let normalizedName := canonicalizeTag rt name
  if normalizedName = "" then pure db
  else do
    let (db, tagID) ← tagForTodo rt ctx db projectID userID isAnonymousBoard normalizedName
    pure (linkTodoTag (linkProjectTag ctx db projectID tagID) todoID tagID)

/-- `setTodoTags` replaces the tags of a todo. -/
def setTodoTags (rt : Runtime) (ctx : Ctx) (db : DB) (projectID todoID : ℤ) (userID : Option ℤ)
    (isAnonymousBoard : Bool) (tags : List String) : Result DB :=
  tags.foldlM (setTodoTag rt ctx projectID todoID userID isAnonymousBoard)
    { db with todoTags := deleteWhere (fun r => r.todoID == todoID) db.todoTags }

/-! ## What tag writes leave alone -/

/-- The tables of tags and their links; everything else is equal. -/
def TagsOnly (db db' : DB) : Prop :=
  db' = { db with
    tags := db'.tags
    todoTags := db'.todoTags
    projectTags := db'.projectTags
    userTagColors := db'.userTagColors }

theorem TagsOnly.exists_eq {db db' : DB} (h : TagsOnly db db') :
    ∃ tags todoTags projectTags userTagColors, db' = { db with
      tags := tags
      todoTags := todoTags
      projectTags := projectTags
      userTagColors := userTagColors } := ⟨_, _, _, _, h⟩

theorem TagsOnly.refl (db : DB) : TagsOnly db db := rfl

theorem TagsOnly.trans {a b c : DB} (hab : TagsOnly a b) (hbc : TagsOnly b c) : TagsOnly a c := by
  unfold TagsOnly at *
  rw [hbc, hab]

theorem appendTag_tagsOnly (db : DB) (t : TagRow) : TagsOnly db (appendTag db t).1 := rfl

theorem linkProjectTag_tagsOnly (ctx : Ctx) (db : DB) (projectID tagID : ℤ) :
    TagsOnly db (linkProjectTag ctx db projectID tagID) := by
  unfold linkProjectTag
  split <;> rfl

theorem linkTodoTag_tagsOnly (db : DB) (todoID tagID : ℤ) :
    TagsOnly db (linkTodoTag db todoID tagID) := by
  unfold linkTodoTag
  split <;> rfl

theorem getOrCreateTagExact_tagsOnly (rt : Runtime) (ctx : Ctx) (db : DB) (userID : ℤ)
    (name : String) : TagsOnly db (getOrCreateTagExact rt ctx db userID name).1 := by
  unfold getOrCreateTagExact
  split <;> rfl

theorem getOrCreateBoardTag_tagsOnly (rt : Runtime) (ctx : Ctx) (db : DB) (projectID : ℤ)
    (name : String) : TagsOnly db (getOrCreateBoardTag rt ctx db projectID name).1 := by
  unfold getOrCreateBoardTag
  split <;> rfl

theorem getOrCreateTag_tagsOnly {rt : Runtime} {ctx : Ctx} {db : DB} {userID : ℤ}
    {name : String} {out : DB × ℤ} (h : getOrCreateTag rt ctx db userID name = .ok out) :
    TagsOnly db out.1 := by
  simp only [getOrCreateTag, bind_eq_ok, pure_eq_ok] at h
  obtain ⟨_, _, rfl⟩ := h
  exact getOrCreateTagExact_tagsOnly rt ctx db userID _

theorem tagForTodo_tagsOnly {rt : Runtime} {ctx : Ctx} {db : DB} {projectID : ℤ}
    {userID : Option ℤ} {isAnonymousBoard : Bool} {name : String} {out : DB × ℤ}
    (h : tagForTodo rt ctx db projectID userID isAnonymousBoard name = .ok out) :
    TagsOnly db out.1 := by
  unfold tagForTodo at h
  split at h
  · rw [pure_eq_ok] at h
    exact h ▸ getOrCreateBoardTag_tagsOnly rt ctx db projectID name
  · split at h
    · cases h
    · exact getOrCreateTag_tagsOnly h

theorem setTodoTag_tagsOnly {rt : Runtime} {ctx : Ctx} {projectID todoID : ℤ}
    {userID : Option ℤ} {isAnonymousBoard : Bool} {db db' : DB} {name : String}
    (h : setTodoTag rt ctx projectID todoID userID isAnonymousBoard db name = .ok db') :
    TagsOnly db db' := by
  unfold setTodoTag at h
  dsimp only at h
  split at h
  · rw [pure_eq_ok] at h
    exact h ▸ TagsOnly.refl db
  · simp only [bind_eq_ok, pure_eq_ok] at h
    obtain ⟨⟨db₁, tagID⟩, hget, rfl⟩ := h
    exact ((tagForTodo_tagsOnly hget).trans
      (linkProjectTag_tagsOnly ctx db₁ projectID tagID)).trans (linkTodoTag_tagsOnly _ todoID tagID)

theorem setTodoTags_tagsOnly {rt : Runtime} {ctx : Ctx} {projectID todoID : ℤ}
    {userID : Option ℤ} {isAnonymousBoard : Bool} {db db' : DB} {tags : List String}
    (h : setTodoTags rt ctx db projectID todoID userID isAnonymousBoard tags = .ok db') :
    TagsOnly db db' := by
  have hclear : TagsOnly db
      { db with todoTags := deleteWhere (fun r => r.todoID == todoID) db.todoTags } := rfl
  exact foldlM_inv (P := TagsOnly db)
    (fun _ _ _ _ hs hstep => hs.trans (setTodoTag_tagsOnly hstep)) hclear h

end Scrumboy
