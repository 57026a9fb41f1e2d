import Scrumboy.Store.Projects

/-!
# Deleting a tag

`DeleteTag` decides first who may delete the row, and then deletes it by its id and its owner. For
a personal tag the owner of the statement is the requester, so that a maintainer of every project
with the tag, whom the decision lets through, deletes nothing.
-/

namespace Scrumboy

open Go Sql

/-- The projects with a todo that has the tag, or with the tag in their set. -/
def projectsWhereTagIsUsed (db : DB) (tagID : ℤ) : List ℤ :=
  (((db.todoTags.filter (·.tagID == tagID)).flatMap fun tt =>
      (db.todos.filter (·.id == tt.todoID)).map (·.projectID)) ++
    (db.projectTags.filter (·.tagID == tagID)).map (·.projectID)).dedup

/-- Who may delete a tag. -/
def authorizeDeleteTag (ctx : Ctx) (db : DB) (userID : ℤ) (t : TagRow) (isAnonymousBoard : Bool) :
    Result Unit :=
  match t.userID, t.projectID with
  | some ownerID, _ =>
      if ownerID = userID then pure ()
      else do
        let projectIDs := projectsWhereTagIsUsed db t.id
        reject (projectIDs = []) ⟨.unauthorized, "tag not owned by user"⟩
        reject (∃ pid ∈ projectIDs, hasMinimumRole (getProjectRole db pid userID) .maintainer = false)
          ⟨.unauthorized, "tag not owned by user"⟩
  | none, some projectID =>
      if isAnonymousBoard = false then do
        reject (userID = 0) ⟨.unauthorized, "unauthorized"⟩
        reject (hasMinimumRole (getProjectRole db projectID userID) .maintainer = false)
          ⟨.unauthorized, "project maintainer required"⟩
      else do
        let p ← getProject db projectID
        rejectIfExpiredTemporaryProject ctx p
        reject (p.expiresAt = none ∨ p.creatorUserID ≠ none) ⟨.unauthorized, "project is not anonymous"⟩
  | none, none => .error ⟨.conflict, "tag has neither user_id nor project_id"⟩

/-- The rows of a tag that the statement selects, with the ones that refer to the tag. The rows of
`project_tags` and `user_tag_colors` go with it by their foreign keys. -/
def deleteTagRows (db : DB) (tagID : ℤ) (selected : TagRow → Bool) : Result DB := do
  reject (db.tags.any selected = false) ⟨.notFound, "tag not found"⟩
  pure { db with
    todoTags := deleteWhere (·.tagID == tagID) db.todoTags
    tags := deleteWhere selected db.tags
    projectTags := deleteWhere (·.tagID == tagID) db.projectTags
    userTagColors := deleteWhere (·.tagID == tagID) db.userTagColors }

def findTag (db : DB) (tagID : ℤ) : Result TagRow :=
  match db.tags.find? (·.id == tagID) with
  | some t => .ok t
  | none => .error ⟨.notFound, "tag not found"⟩

def deleteTag (ctx : Ctx) (db : DB) (userID tagID : ℤ) (isAnonymousBoard : Bool) : Result DB := do
  let t ← findTag db tagID
  authorizeDeleteTag ctx db userID t isAnonymousBoard
  match t.userID with
  | some _ => deleteTagRows db tagID fun r => r.id == tagID && r.userID == some userID
  | none => deleteTagRows db tagID fun r => r.id == tagID && r.projectID == t.projectID

/-- `DeleteTag` as a transition: a call that fails leaves everything as it was. -/
def deleteTagStep (ctx : Ctx) (db : DB) (userID tagID : ℤ) (isAnonymousBoard : Bool) : DB :=
  (deleteTag ctx db userID tagID isAnonymousBoard).toOption.getD db

/-- The tag and everything that refers to it is gone, and nothing else. -/
def DB.withoutTag (db : DB) (tagID : ℤ) : DB :=
  { db with
    todoTags := deleteWhere (·.tagID == tagID) db.todoTags
    tags := deleteWhere (·.id == tagID) db.tags
    projectTags := deleteWhere (·.tagID == tagID) db.projectTags
    userTagColors := deleteWhere (·.tagID == tagID) db.userTagColors }

section

variable {ctx : Ctx} {db : DB} {userID tagID : ℤ} {t : TagRow} {isAnonymousBoard : Bool}

theorem findTag_of_mem (hids : (db.tags.map (·.id)).Nodup) (ht : t ∈ db.tags) : findTag db t.id = .ok t := by
  unfold findTag
  cases hfind : db.tags.find? (·.id == t.id) with
  | none => exact absurd (List.find?_eq_none.mp hfind t ht) (by simp)
  | some u =>
      have hid : u.id = t.id := by simpa using List.find?_some hfind
      rw [List.inj_on_of_nodup_map hids (List.mem_of_find?_eq_some hfind) ht hid]

/-- A statement that selects the row of the tag deletes it with everything that refers to it. -/
theorem deleteTagRows_of_selected {selected : TagRow → Bool} (hids : (db.tags.map (·.id)).Nodup)
    (ht : t ∈ db.tags) (hsel : selected t = true) (hid : ∀ r, selected r = true → r.id = t.id) :
    deleteTagRows db t.id selected = .ok (db.withoutTag t.id) := by
  have hany : ¬ db.tags.any selected = false := by
    rw [Bool.not_eq_false, List.any_eq_true]
    exact ⟨t, ht, hsel⟩
  have htags : deleteWhere selected db.tags = deleteWhere (·.id == t.id) db.tags := by
    refine List.filter_congr fun r hr => ?_
    by_cases heq : r.id = t.id
    · rw [List.inj_on_of_nodup_map hids hr ht heq, hsel]
      simp
    · have hno : selected r = false := Bool.eq_false_iff.mpr fun h => heq (hid r h)
      simp [hno, heq]
  rw [deleteTagRows, reject_bind_of_not hany, htags]
  rfl

/-- The statement selects no row of a tag that belongs to somebody else. -/
theorem deleteTagRows_of_other {selected : TagRow → Bool} (h : ∀ r ∈ db.tags, selected r = false) :
    deleteTagRows db tagID selected = .error ⟨.notFound, "tag not found"⟩ := by
  have hany : db.tags.any selected = false :=
    List.any_eq_false.mpr fun r hr => Bool.eq_false_iff.mp (h r hr)
  rw [deleteTagRows, reject, if_pos hany]
  rfl

end

/-- Deleting a tag does what its decision says exactly if the decision does not let a requester
through who is not the owner of a personal tag. -/
theorem deleteTag_follows_decision_iff {db : DB} (hids : (db.tags.map (·.id)).Nodup) {t : TagRow}
    (ht : t ∈ db.tags) (ctx : Ctx) (userID : ℤ) (isAnonymousBoard : Bool) :
    ((authorizeDeleteTag ctx db userID t isAnonymousBoard = .ok () →
          deleteTag ctx db userID t.id isAnonymousBoard = .ok (db.withoutTag t.id) ∧
            deleteTagStep ctx db userID t.id isAnonymousBoard = db.withoutTag t.id) ∧
        (authorizeDeleteTag ctx db userID t isAnonymousBoard ≠ .ok () →
          (∃ e, deleteTag ctx db userID t.id isAnonymousBoard = .error e) ∧
            deleteTagStep ctx db userID t.id isAnonymousBoard = db)) ↔
      (t.userID = none ∨ t.userID = some userID ∨ projectsWhereTagIsUsed db t.id = [] ∨
        ∃ pid ∈ projectsWhereTagIsUsed db t.id,
          hasMinimumRole (getProjectRole db pid userID) .maintainer = false) := by
  have hfind := findTag_of_mem hids ht
  constructor
  · rintro ⟨hadmits, -⟩
    by_contra hcondition
    simp only [not_or] at hcondition
    obtain ⟨howned, hother, hused, hrole⟩ := hcondition
    obtain ⟨ownerID, howner⟩ := Option.ne_none_iff_exists'.mp howned
    have hne : ownerID ≠ userID := fun heq => hother (heq ▸ howner)
    have hauth : authorizeDeleteTag ctx db userID t isAnonymousBoard = .ok () := by
      rw [authorizeDeleteTag, howner]
      dsimp only
      rw [if_neg hne, reject_bind_of_not hused]
      exact if_neg hrole
    have hdeleted := (hadmits hauth).1
    rw [deleteTag, hfind, ok_bind, hauth, ok_bind, howner] at hdeleted
    dsimp only at hdeleted
    rw [deleteTagRows_of_other] at hdeleted
    · cases hdeleted
    · intro r hr
      by_cases hid : r.id = t.id
      · rw [List.inj_on_of_nodup_map hids hr ht hid, howner]
        simp [hne]
      · simp [hid]
  · intro hcondition
    constructor
    · intro hauth
      have hdeleted : deleteTag ctx db userID t.id isAnonymousBoard = .ok (db.withoutTag t.id) := by
        rw [deleteTag, hfind, ok_bind, hauth, ok_bind]
        cases howner : t.userID with
        | none =>
            refine deleteTagRows_of_selected hids ht (by simp) fun r hr => ?_
            simp only [Bool.and_eq_true, beq_iff_eq] at hr
            exact hr.1
        | some ownerID =>
            have howns : ownerID = userID := by
              rcases hcondition with hnone | hself | hunused | hrole
              · rw [howner] at hnone
                cases hnone
              · exact Option.some.inj (howner.symm.trans hself)
              · by_contra hne
                rw [authorizeDeleteTag, howner] at hauth
                dsimp only at hauth
                rw [if_neg hne, hunused, reject, if_pos rfl] at hauth
                cases hauth
              · by_contra hne
                rw [authorizeDeleteTag, howner] at hauth
                dsimp only at hauth
                rw [if_neg hne, bind_eq_ok] at hauth
                obtain ⟨_, _, hreject⟩ := hauth
                exact (reject_eq_ok.mp hreject) hrole
            refine deleteTagRows_of_selected hids ht ?_ fun r hr => ?_
            · simp [howner, howns]
            · simp only [Bool.and_eq_true, beq_iff_eq] at hr
              exact hr.1
      refine ⟨hdeleted, ?_⟩
      rw [deleteTagStep, hdeleted]
      rfl
    · intro hrefused
      have herror : ∃ e, deleteTag ctx db userID t.id isAnonymousBoard = .error e := by
        rw [deleteTag, hfind, ok_bind]
        cases hauth : authorizeDeleteTag ctx db userID t isAnonymousBoard with
        | ok u => exact absurd hauth hrefused
        | error e => exact ⟨e, rfl⟩
      obtain ⟨e, he⟩ := herror
      refine ⟨⟨e, he⟩, ?_⟩
      rw [deleteTagStep, he]
      rfl

/-- A project of user 1 with a tag of theirs, and user 2 as another maintainer. -/
def sharedTagBoard : DB where
  users := [1, 2]
  projects := [{ defaultProjectRow 0 with id := 1, name := "Board", slug := "board" }]
  members := [⟨1, 1, .maintainer, 0⟩, ⟨1, 2, .maintainer, 0⟩]
  tags := [⟨1, some 1, "bug", 0, none, none⟩]
  projectTags := [⟨1, 1, 0⟩]
  userTagColors := [⟨2, 1, "#ff0000"⟩]

theorem owner_deletes_tag :
    sharedTagBoard.tags = [⟨1, some 1, "bug", 0, none, none⟩] ∧
      deleteTag ⟨some 1, 5⟩ sharedTagBoard 1 1 false = .ok (sharedTagBoard.withoutTag 1) := by
  have hids : (sharedTagBoard.tags.map (·.id)).Nodup := by decide
  have hiff := deleteTag_follows_decision_iff hids (List.mem_singleton_self _) ⟨some 1, 5⟩ 1 false
  exact ⟨rfl, ((hiff.mpr (.inr (.inl rfl))).1 rfl).1⟩

/-- Another maintainer of the only project with the tag is let through, and finds no tag. -/
theorem maintainer_deletes_no_tag :
    authorizeDeleteTag ⟨some 2, 5⟩ sharedTagBoard 2 ⟨1, some 1, "bug", 0, none, none⟩ false = .ok () ∧
      deleteTag ⟨some 2, 5⟩ sharedTagBoard 2 1 false = .error ⟨.notFound, "tag not found"⟩ ∧
      deleteTagStep ⟨some 2, 5⟩ sharedTagBoard 2 1 false = sharedTagBoard := by
  decide +kernel

end Scrumboy
