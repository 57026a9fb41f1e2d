import Scrumboy.Store.TagLookup
import Scrumboy.Store.Updates

/-!
# What an edit leaves alone

An edit of a todo rewrites the whole row, the tags and the custom field values from the
fields that the patch names and those that it keeps. `TodoRow.state` is what is stored
for each field, and `Names` says which fields a patch names. A field that is not named
keeps its state, with two exceptions in an edit by somebody who may edit everything: a
kept title is trimmed, and kept tags are looked up by their names among the tags of the
acting user or of the board.
-/

set_option linter.dupNamespace false

namespace Scrumboy

open Go Sql

/-! ## The fields of a todo -/

inductive TodoField
  | title
  | body
  | tags
  | assignee
  | sprint
  | points
  | dueAt
  | priority
  | custom (key : String)
  | lane
  | rank
  | doneAt
  deriving DecidableEq, Repr

inductive FieldState
  | text (s : String)
  | number (n : Option ℤ)
  | key (k : Option String)
  | tagIDs (ids : Set ℤ)
  | values (vs : List FieldValue)

/-- The values of a todo for a custom field; the key of the table allows one. -/
def fieldValues (db : DB) (todoID fieldID : ℤ) : List FieldValue :=
  (db.customFieldValues.filter fun v => v.todoID == todoID && v.fieldID == fieldID).map (·.value)

def customFieldByKey (db : DB) (projectID : ℤ) (key : String) : Option CustomField :=
  (listCustomFields db projectID).find? (·.key == key)

/-- The rows of the tags of a todo. -/
def attachedTags (db : DB) (todoID : ℤ) : Set ℤ := { id | ⟨todoID, id⟩ ∈ db.todoTags }

/-- What is stored for a field of a todo. -/
def TodoRow.state (db : DB) (t : TodoRow) : TodoField → FieldState
  | .title => .text t.title
  | .body => .text t.body
  | .tags => .tagIDs (attachedTags db t.id)
  | .assignee => .number t.assigneeUserID
  | .sprint => .number t.sprintID
  | .points => .number t.estimationPoints
  | .dueAt => .number t.dueAt
  | .priority => .key t.priorityKey
  | .custom key => .values ((customFieldByKey db t.projectID key).elim [] fun f => fieldValues db t.id f.id)
  | .lane => .text t.columnKey
  | .rank => .number (some t.rank)
  | .doneAt => .number t.doneAt

/-- The fields that a patch names: those that it does not keep, or that are present. -/
def UpdateTodoInput.Names (input : UpdateTodoInput) : TodoField → Prop
  | .title => input.keepTitle = false
  | .body => input.keepBody = false ∨ input.bodyAppend ≠ ""
  | .tags => input.keepTags = false
  | .assignee => input.keepAssigneeUserID = false
  | .sprint => input.clearSprint = true ∨ input.sprintID.isSome = true
  | .points => input.keepEstimationPoints = false
  | .dueAt => input.dueAtPresent = true
  | .priority => input.priorityKeyPresent = true
  | .custom key => key ∈ input.customFields.map (·.1)
  | .lane | .rank | .doneAt => False

/-- The fields that a patch does not name have the state that they had. -/
def KeepsUnnamed (db db' : DB) (t t' : TodoRow) (input : UpdateTodoInput) : Prop :=
  ∀ f, ¬ input.Names f → t'.state db' f = t.state db f

/-! ## The tags that are looked up -/

/-- An edit writes tags for a user, and on a board that expires. -/
def writesTags (ctx : Ctx) (p : ProjectRow) : Bool := ctx.userID.isSome || isTemporaryProject p

/-- The tags of an edit belong to the board. -/
def boardScopedTags (ctx : Ctx) (p : ProjectRow) : Bool :=
  isAnonymousTemporaryBoard p || (isTemporaryProject p && ctx.userID.isNone)

/-- The row that `setTodoTags` finds for a name. -/
def findTodoTag (rt : Runtime) (db : DB) (projectID : ℤ) (userID : Option ℤ) (isAnonymousBoard : Bool)
    (name : String) : Option ℤ :=
  if isAnonymousBoard then
    findTagIDByGroupKey rt db (fun t => t.projectID == some projectID && t.userID == none)
      (canonicalizeTag rt name)
  else
    userID.bind fun userID => findTagIDByGroupKey rt db (fun t => t.userID == some userID)
      (canonicalizeTag rt (canonicalizeTag rt name))

/-- The names under which the tags of a todo are written again. -/
def keptTagNames (rt : Runtime) (db : DB) (t : TodoRow) : List String :=
  ((normalizeTags rt (listTodoTags rt db t)).toOption.getD []).filter fun name =>
    canonicalizeTag rt name != ""

/-- The rows that an edit finds for the names of a todo's tags are the rows that the
todo has. -/
def TagsAsStored (rt : Runtime) (ctx : Ctx) (db : DB) (p : ProjectRow) (t : TodoRow) : Prop :=
  ∀ found : Option ℤ,
    found ∈ (keptTagNames rt db t).map (findTodoTag rt db p.id ctx.userID (boardScopedTags ctx p)) ↔
      ∃ id ∈ attachedTags db t.id, found = some id

theorem tagsAsStored_iff {rt : Runtime} {ctx : Ctx} {db : DB} {p : ProjectRow} {t : TodoRow} :
    TagsAsStored rt ctx db p t ↔
      (∀ found ∈ (keptTagNames rt db t).map
        (findTodoTag rt db p.id ctx.userID (boardScopedTags ctx p)),
        found ∈ (db.todoTags.filter (·.todoID == t.id)).map fun r => some r.tagID) ∧
      ∀ found ∈ (db.todoTags.filter (·.todoID == t.id)).map fun r => some r.tagID,
        found ∈ (keptTagNames rt db t).map
          (findTodoTag rt db p.id ctx.userID (boardScopedTags ctx p)) := by
  have hattached : ∀ found : Option ℤ, (∃ id ∈ attachedTags db t.id, found = some id) ↔
      found ∈ (db.todoTags.filter (·.todoID == t.id)).map fun r => some r.tagID := by
    intro found
    rw [List.mem_map]
    refine ⟨?_, ?_⟩
    · rintro ⟨id, hid, rfl⟩
      exact ⟨⟨t.id, id⟩, List.mem_filter.mpr ⟨hid, beq_self_eq_true _⟩, rfl⟩
    · rintro ⟨⟨todoID, id⟩, hr, rfl⟩
      obtain ⟨hr, htodo⟩ := List.mem_filter.mp hr
      have htodo : todoID = t.id := beq_iff_eq.mp htodo
      exact ⟨id, htodo ▸ hr, rfl⟩
  unfold TagsAsStored
  simp only [hattached, iff_def, forall_and]

instance (rt : Runtime) (ctx : Ctx) (db : DB) (p : ProjectRow) (t : TodoRow) :
    Decidable (TagsAsStored rt ctx db p t) := decidable_of_iff _ tagsAsStored_iff.symm

/-- A full edit finds what it keeps in the form in which it writes it. -/
@[mk_iff]
structure KeptAsStored (rt : Runtime) (ctx : Ctx) (db : DB) (p : ProjectRow) (t : TodoRow)
    (input : UpdateTodoInput) : Prop where
  title : editScope ctx db p t = .full → input.keepTitle = true → trimSpace t.title = t.title
  tags : editScope ctx db p t = .full → input.keepTags = true → writesTags ctx p = true →
    TagsAsStored rt ctx db p t

instance (rt : Runtime) (ctx : Ctx) (db : DB) (p : ProjectRow) (t : TodoRow) (input : UpdateTodoInput) :
    Decidable (KeptAsStored rt ctx db p t input) := decidable_of_iff _ (keptAsStored_iff ..).symm

/-! ## Writing tags -/

/-- A tag without the time at which it was made. -/
def TagRow.undated (t : TagRow) : TagRow := { t with createdAt := 0 }

/-- The row that `setTodoTags` makes for a name. -/
def newTodoTag (rt : Runtime) (projectID : ℤ) (userID : Option ℤ) (isAnonymousBoard : Bool)
    (name : String) (id : ℤ) : TagRow :=
  if isAnonymousBoard then ⟨id, none, canonicalizeTag rt name, 0, some projectID, none⟩
  else ⟨id, userID, canonicalizeTag rt (canonicalizeTag rt name), 0, none, none⟩

section

variable {rt : Runtime} {ctx : Ctx} {projectID todoID : ℤ} {userID : Option ℤ} {board : Bool}
  {db db' s s' : DB} {name : String}

theorem findTodoTag_congr (htags : db'.tags = db.tags) :
    findTodoTag rt db' projectID userID board name = findTodoTag rt db projectID userID board name := by
  rw [findTodoTag, findTodoTag]
  simp only [findTagIDByGroupKey_congr htags]

/-- The row for a tag is found, or it is new. -/
theorem tagForTodo_cases {out : DB × ℤ}
    (h : tagForTodo rt ctx db projectID userID board (canonicalizeTag rt name) = .ok out) :
    (findTodoTag rt db projectID userID board name = some out.2 ∧ out.1 = db) ∨
      (findTodoTag rt db projectID userID board name = none ∧
        out.2 = nextRowid (db.tags.map (·.id)) ∧
        ∃ t : TagRow, t.undated = newTodoTag rt projectID userID board name out.2 ∧
          out.1 = { db with tags := db.tags ++ [t] }) := by
  unfold tagForTodo at h
  unfold findTodoTag
  cases board with
  | true =>
      rw [if_pos rfl, pure_eq_ok] at h
      rw [if_pos rfl, ← h, getOrCreateBoardTag]
      split
      · rename_i id hfind
        exact .inl ⟨hfind, rfl⟩
      · rename_i hfind
        exact .inr ⟨hfind, rfl, _, rfl, rfl⟩
  | false =>
      rw [if_neg (by simp)] at h ⊢
      cases userID with
      | none => cases h
      | some u =>
          simp only [getOrCreateTag, bind_eq_ok, pure_eq_ok] at h
          obtain ⟨_, _, h⟩ := h
          rw [← h, getOrCreateTagExact, Option.bind_some]
          split
          · rename_i id hfind
            exact .inl ⟨hfind, rfl⟩
          · rename_i hfind
            exact .inr ⟨hfind, rfl, _, rfl, rfl⟩

/-- One round of `setTodoTags` attaches the row that it finds or makes. -/
theorem setTodoTag_cases (h : setTodoTag rt ctx projectID todoID userID board s name = .ok s')
    (hname : canonicalizeTag rt name ≠ "") :
    ∃ id, (∀ r, r ∈ s'.todoTags ↔ r ∈ s.todoTags ∨ r = ⟨todoID, id⟩) ∧
      ((findTodoTag rt s projectID userID board name = some id ∧ s'.tags = s.tags) ∨
        (findTodoTag rt s projectID userID board name = none ∧ id = nextRowid (s.tags.map (·.id)) ∧
          ∃ t : TagRow, t.undated = newTodoTag rt projectID userID board name id ∧
            s'.tags = s.tags ++ [t])) := by
  simp only [setTodoTag, if_neg hname, bind_eq_ok, pure_eq_ok] at h
  obtain ⟨⟨s₁, id⟩, htag, rfl⟩ := h
  have htags : (linkTodoTag (linkProjectTag ctx s₁ projectID id) todoID id).tags = s₁.tags := by
    unfold linkTodoTag
    split
    · exact linkProjectTag_keeps.2
    · exact linkProjectTag_keeps.2
  refine ⟨id, fun r => ?_, ?_⟩
  · have hsame : s₁.todoTags = s.todoTags := by
      rcases tagForTodo_cases htag with ⟨_, rfl⟩ | ⟨_, _, t, _, rfl⟩
      · rfl
      · rfl
    rw [mem_linkTodoTag, linkProjectTag_keeps.1, hsame]
  · rw [htags]
    rcases tagForTodo_cases htag with ⟨hfind, rfl⟩ | ⟨hfind, hid, t, ht, rfl⟩
    · exact .inl ⟨hfind, rfl⟩
    · exact .inr ⟨hfind, hid, t, ht, rfl⟩

theorem setTodoTag_of_empty (h : setTodoTag rt ctx projectID todoID userID board s name = .ok s')
    (hname : canonicalizeTag rt name = "") : s' = s := by
  simp only [setTodoTag, if_pos hname, pure_eq_ok] at h
  exact h.symm

/-- The todo has a tag that the table of `db` does not have. -/
def FreshTag (db : DB) (todoID : ℤ) (s : DB) : Prop :=
  (∀ t ∈ db.tags, t.id ∈ s.tags.map (·.id)) ∧ ∃ id ∈ attachedTags s todoID, id ∉ db.tags.map (·.id)

theorem FreshTag.setTodoTag (hs : FreshTag db todoID s)
    (h : Scrumboy.setTodoTag rt ctx projectID todoID userID board s name = .ok s') :
    FreshTag db todoID s' := by
  by_cases hname : canonicalizeTag rt name = ""
  · rwa [setTodoTag_of_empty h hname]
  · obtain ⟨id, hlinks, hcase⟩ := setTodoTag_cases h hname
    obtain ⟨hids, fresh, hfresh, hnew⟩ := hs
    refine ⟨fun t ht => ?_, fresh, (hlinks _).mpr (.inl hfresh), hnew⟩
    rcases hcase with ⟨_, htags⟩ | ⟨_, _, row, _, htags⟩
    · rw [htags]
      exact hids t ht
    · rw [htags, List.map_append]
      exact List.mem_append_left _ (hids t ht)

/-- The names that are looked up. -/
def taggable (rt : Runtime) (tags : List String) : List String :=
  tags.filter fun name => canonicalizeTag rt name != ""

/-- Either every name is found, and the rows that are found are attached, or the first
name that is not found gives the todo a new row. -/
theorem setTodoTag_fold {tags : List String} (hs : s.tags = db.tags)
    (h : tags.foldlM (Scrumboy.setTodoTag rt ctx projectID todoID userID board) s = .ok s') :
    (s'.tags = db.tags ∧ none ∉ (taggable rt tags).map (findTodoTag rt db projectID userID board) ∧
      ∀ id, id ∈ attachedTags s' todoID ↔ id ∈ attachedTags s todoID ∨
        some id ∈ (taggable rt tags).map (findTodoTag rt db projectID userID board)) ∨
    (none ∈ (taggable rt tags).map (findTodoTag rt db projectID userID board) ∧
      FreshTag db todoID s') := by
  induction tags generalizing s with
  | nil =>
      rw [List.foldlM_nil, pure_eq_ok] at h
      subst h
      exact .inl ⟨hs, List.not_mem_nil, fun id => by simp [taggable]⟩
  | cons name tags ih =>
      rw [List.foldlM_cons, bind_eq_ok] at h
      obtain ⟨s₁, hstep, hrest⟩ := h
      by_cases hname : canonicalizeTag rt name = ""
      · have htaggable : taggable rt (name :: tags) = taggable rt tags := by simp [taggable, hname]
        rw [setTodoTag_of_empty hstep hname] at hrest
        rw [htaggable]
        exact ih hs hrest
      · have htaggable : taggable rt (name :: tags) = name :: taggable rt tags := by
          simp [taggable, hname]
        rw [htaggable, List.map_cons]
        obtain ⟨id, hlinks, ⟨hfind, htags⟩ | ⟨hfind, hid, t, ht, htags⟩⟩ := setTodoTag_cases hstep hname
        · rw [findTodoTag_congr hs] at hfind
          rw [hfind]
          rcases ih (htags.trans hs) hrest with ⟨htags', hall, hattached⟩ | ⟨hnone, hfresh⟩
          · refine .inl ⟨htags', by simpa using hall, fun id' => ?_⟩
            rw [hattached id', List.mem_cons, Option.some.injEq]
            simp only [attachedTags, Set.mem_ofPred_eq, hlinks, TodoTagRow.mk.injEq, true_and, or_assoc]
          · exact .inr ⟨List.mem_cons_of_mem _ hnone, hfresh⟩
        · rw [findTodoTag_congr hs] at hfind
          rw [hfind]
          refine .inr ⟨List.mem_cons_self, ?_⟩
          have hfresh : FreshTag db todoID s₁ := by
            refine ⟨fun u hu => ?_, id, (hlinks _).mpr (.inr rfl), ?_⟩
            · rw [htags, hs, List.map_append]
              exact List.mem_append_left _ (List.mem_map_of_mem hu)
            · rw [hid, hs]
              exact nextRowid_not_mem _
          exact foldlM_inv (P := FreshTag db todoID) (fun _ _ _ _ hs hstep => hs.setTodoTag hstep) hfresh
            hrest

/-- The tags of a todo after they were set. -/
theorem setTodoTags_cases {tags : List String}
    (h : setTodoTags rt ctx db projectID todoID userID board tags = .ok db') :
    (db'.tags = db.tags ∧ none ∉ (taggable rt tags).map (findTodoTag rt db projectID userID board) ∧
      ∀ id, id ∈ attachedTags db' todoID ↔
        some id ∈ (taggable rt tags).map (findTodoTag rt db projectID userID board)) ∨
    (none ∈ (taggable rt tags).map (findTodoTag rt db projectID userID board) ∧
      FreshTag db todoID db') := by
  have hcleared : ({ db with todoTags := deleteWhere (fun r => r.todoID == todoID) db.todoTags } : DB).tags =
      db.tags := rfl
  rcases setTodoTag_fold hcleared h with ⟨htags, hall, hattached⟩ | hfresh
  · refine .inl ⟨htags, hall, fun id => ?_⟩
    rw [hattached id]
    refine or_iff_right fun hmem => ?_
    obtain ⟨_, hother⟩ := mem_deleteWhere.mp hmem
    simp at hother
  · exact .inr hfresh

/-- Where the rows that are found are those that the todo has, nothing changes. -/
theorem setTodoTags_of_found {tags : List String}
    (h : setTodoTags rt ctx db projectID todoID userID board tags = .ok db')
    (hfound : ∀ found, found ∈ (taggable rt tags).map (findTodoTag rt db projectID userID board) ↔
      ∃ id ∈ attachedTags db todoID, found = some id) :
    db'.tags = db.tags ∧ attachedTags db' todoID = attachedTags db todoID := by
  rcases setTodoTags_cases h with ⟨htags, _, hattached⟩ | ⟨hnone, _⟩
  · refine ⟨htags, Set.ext fun id => ?_⟩
    rw [hattached id, hfound (some id)]
    exact ⟨fun ⟨_, hid, heq⟩ => Option.some.inj heq ▸ hid, fun hid => ⟨id, hid, rfl⟩⟩
  · obtain ⟨_, _, hcontra⟩ := (hfound none).mp hnone
    cases hcontra

/-- The tags of a todo are set to the rows that it had if and only if these are the rows
that are found. -/
theorem setTodoTags_attached_iff {tags : List String}
    (hlinks : ∀ r ∈ db.todoTags, r.tagID ∈ db.tags.map (·.id))
    (h : setTodoTags rt ctx db projectID todoID userID board tags = .ok db') :
    attachedTags db' todoID = attachedTags db todoID ↔
      ∀ found, found ∈ (taggable rt tags).map (findTodoTag rt db projectID userID board) ↔
        ∃ id ∈ attachedTags db todoID, found = some id := by
  refine ⟨fun heq found => ?_, fun hfound => (setTodoTags_of_found h hfound).2⟩
  rcases setTodoTags_cases h with ⟨_, hall, hattached⟩ | ⟨_, _, id, hid, hnew⟩
  · cases found with
    | none => exact ⟨fun hmem => absurd hmem hall, fun ⟨_, _, hfound⟩ => by cases hfound⟩
    | some id =>
        rw [← hattached id, heq]
        exact ⟨fun hid => ⟨id, hid, rfl⟩, fun ⟨_, hid, hfound⟩ => Option.some.inj hfound ▸ hid⟩
  · exact absurd (hlinks _ (heq ▸ hid)) hnew

end

/-! ## Writing custom field values -/

/-- What one entry of a patch does to the values of its field, when `current` is the
value that was loaded. -/
def valueStep (current : Option FieldValue) (r : ResolvedCustomField) (vs : List FieldValue) :
    List FieldValue :=
  match r.value with
  | none => if current.isNone then vs else []
  | some value => if current = some value then vs else if vs = [] then [value] else vs.map fun _ => value

theorem fieldValues_eq_nil {db : DB} {todoID k : ℤ} : fieldValues db todoID k = [] ↔
    (db.customFieldValues.any fun v => v.todoID == todoID && v.fieldID == k) = false := by
  rw [fieldValues, List.map_eq_nil_iff, List.filter_eq_nil_iff, List.any_eq_false]

theorem fieldValues_upsert (db : DB) (todoID fieldID : ℤ) (value : FieldValue) (k : ℤ) :
    fieldValues (upsertFieldValue db todoID fieldID value) todoID k =
      if fieldID = k then
        if fieldValues db todoID k = [] then [value] else (fieldValues db todoID k).map fun _ => value
      else fieldValues db todoID k := by
  unfold upsertFieldValue
  split
  · rename_i hany
    -- the update keeps the keys of the rows
    have hfilter : fieldValues
        { db with
          customFieldValues := updateWhere (fun v => v.todoID == todoID && v.fieldID == fieldID)
            (fun v => { v with value := value }) db.customFieldValues } todoID k =
        (db.customFieldValues.filter fun v => v.todoID == todoID && v.fieldID == k).map fun v =>
          if v.todoID == todoID && v.fieldID == fieldID then value else v.value := by
      rw [fieldValues, updateWhere, List.filter_map, List.map_map]
      refine congrArg₂ List.map ?_ (List.filter_congr fun v _ => ?_)
      · funext v
        rw [Function.comp_apply]
        split
        · rfl
        · rfl
      · rw [Function.comp_apply]
        split
        · rfl
        · rfl
    rw [hfilter]
    split
    · rename_i hk
      subst hk
      have hne : fieldValues db todoID fieldID ≠ [] := fun hnil => by
        rw [fieldValues_eq_nil, hany] at hnil
        cases hnil
      rw [if_neg hne, fieldValues, List.map_map]
      refine List.map_congr_left fun v hv => ?_
      rw [if_pos (List.mem_filter.mp hv).2]
      rfl
    · rename_i hk
      rw [fieldValues]
      refine List.map_congr_left fun v hv => ?_
      have hv := (List.mem_filter.mp hv).2
      rw [Bool.and_eq_true, beq_iff_eq, beq_iff_eq] at hv
      rw [if_neg]
      rw [Bool.and_eq_true, beq_iff_eq, beq_iff_eq]
      exact fun hboth => hk (hboth.2.symm.trans hv.2)
  · rename_i hany
    rw [Bool.not_eq_true] at hany
    have happend : fieldValues
        { db with
          customFieldValues := db.customFieldValues ++ [⟨todoID, fieldID, value⟩] } todoID k =
        fieldValues db todoID k ++ if fieldID = k then [value] else [] := by
      rw [fieldValues, fieldValues, List.filter_append, List.map_append]
      by_cases hk : fieldID = k <;> simp [hk]
    rw [happend]
    split
    · rename_i hk
      subst hk
      rw [fieldValues_eq_nil.mpr hany, if_pos rfl]
      rfl
    · exact List.append_nil _

theorem fieldValues_delete (db : DB) (todoID fieldID k : ℤ) :
    fieldValues
      { db with
        customFieldValues := deleteWhere (fun v => v.todoID == todoID && v.fieldID == fieldID)
          db.customFieldValues } todoID k =
      if fieldID = k then [] else fieldValues db todoID k := by
  rw [fieldValues, fieldValues]
  split
  · rename_i hk
    subst hk
    rw [List.map_eq_nil_iff, List.filter_eq_nil_iff]
    intro v hv hsel
    rw [(mem_deleteWhere.mp hv).2] at hsel
    cases hsel
  · rename_i hk
    refine congrArg _ (filter_deleteWhere fun v _ hsel => ?_)
    rw [Bool.and_eq_true, beq_iff_eq, beq_iff_eq] at hsel
    rw [Bool.and_eq_false_iff]
    exact .inr (beq_eq_false_iff_ne.mpr fun heq => hk (heq.symm.trans hsel.2))

theorem fieldValues_applyCustomField (todoID : ℤ) (current : List (String × FieldValue))
    (s : DB × List String × List (String × FieldValue)) (r : ResolvedCustomField) (k : ℤ) :
    fieldValues (applyCustomField todoID current s r).1 todoID k =
      if r.fieldID = k then valueStep (current.lookup r.key) r (fieldValues s.1 todoID k)
      else fieldValues s.1 todoID k := by
  unfold applyCustomField valueStep
  cases r.value with
  | none =>
      dsimp only
      split
      · exact (ite_self _).symm
      · exact fieldValues_delete s.1 todoID r.fieldID k
  | some value =>
      dsimp only
      split
      · exact (ite_self _).symm
      · exact fieldValues_upsert s.1 todoID r.fieldID value k

/-- What a patch does to the values of one field. -/
def patchValues (current : List (String × FieldValue)) (patch : List ResolvedCustomField) (k : ℤ)
    (vs : List FieldValue) : List FieldValue :=
  (patch.filter (·.fieldID == k)).foldl (fun vs r => valueStep (current.lookup r.key) r vs) vs

theorem fieldValues_patchTodoFields (db : DB) (existing : Todo) (patch : List ResolvedCustomField) (k : ℤ) :
    fieldValues (patchTodoFields db existing patch).1 existing.row.id k =
      patchValues existing.customFields patch k (fieldValues db existing.row.id k) := by
  have hfold : ∀ s : DB × List String × List (String × FieldValue),
      fieldValues (patch.foldl (applyCustomField existing.row.id existing.customFields) s).1
        existing.row.id k =
      patchValues existing.customFields patch k (fieldValues s.1 existing.row.id k) := by
    induction patch with
    | nil => exact fun _ => rfl
    | cons r patch ih =>
        intro s
        rw [List.foldl_cons, ih, fieldValues_applyCustomField, patchValues, patchValues]
        by_cases hr : r.fieldID = k <;> simp [hr]
  unfold patchTodoFields
  split
  · rename_i hnil
    rw [hnil]
    rfl
  · exact hfold (db, [], existing.customFields)

/-- The value that a row of the table of values gives a key of a todo. -/
def keyedValue (fields : List CustomField) (todoID : ℤ) (key : String) (v : FieldValueRow) :
    Option FieldValue :=
  if v.todoID == todoID then
    ((fields.filter fun f => f.id == v.fieldID).filterMap fun f =>
      (readFieldValue f.type v.value).map fun value => (f.key, value)).lookup key
  else none

theorem lookup_loadTodoCustomFields (db : DB) (todoID : ℤ) (key : String) :
    (loadTodoCustomFields db todoID).lookup key =
      db.customFieldValues.findSome? (keyedValue db.customFields todoID key) := by
  unfold loadTodoCustomFields
  induction db.customFieldValues with
  | nil => rfl
  | cons v rows ih =>
      rw [List.findSome?_cons, ← ih, keyedValue]
      by_cases hv : v.todoID == todoID
      · rw [List.filter_cons_of_pos (by exact hv), List.flatMap_cons, List.lookup_append, if_pos hv]
        split
        · rename_i value hvalue
          rw [hvalue, Option.some_or]
        · rename_i hvalue
          rw [hvalue, Option.none_or]
      · rw [List.filter_cons_of_neg (by exact hv), if_neg hv]

theorem keyedValue_eq_none {fields : List CustomField} {todoID : ℤ} {key : String} {v : FieldValueRow}
    (h : ∀ g ∈ fields, g.id = v.fieldID → g.key ≠ key) : keyedValue fields todoID key v = none := by
  unfold keyedValue
  split
  · rw [List.lookup_eq_none_iff]
    intro pair hpair
    obtain ⟨g, hg, hread⟩ := List.mem_filterMap.mp hpair
    rw [List.mem_filter, beq_iff_eq] at hg
    obtain ⟨value, _, rfl⟩ := Option.map_eq_some_iff.mp hread
    rw [bne_iff_ne]
    exact fun hkey => h g hg.1 hg.2 hkey.symm
  · rfl

/-- An entry of a patch leaves the values under the other keys alone. -/
theorem lookup_applyCustomField {todoID : ℤ} {current : List (String × FieldValue)}
    {s : DB × List String × List (String × FieldValue)} {r : ResolvedCustomField} {key : String}
    (h : ∀ g ∈ s.1.customFields, g.id = r.fieldID → g.key ≠ key) :
    (loadTodoCustomFields (applyCustomField todoID current s r).1 todoID).lookup key =
      (loadTodoCustomFields s.1 todoID).lookup key := by
  have hnone : ∀ v : FieldValueRow, v.fieldID = r.fieldID →
      keyedValue s.1.customFields todoID key v = none := by
    intro v hv
    refine keyedValue_eq_none fun g hg hid => h g hg (hid.trans hv)
  simp only [lookup_loadTodoCustomFields]
  unfold applyCustomField
  cases r.value with
  | none =>
      dsimp only
      split
      · rfl
      · refine findSome?_deleteWhere fun v _ hv => hnone v ?_
        rw [Bool.and_eq_true, beq_iff_eq, beq_iff_eq] at hv
        exact hv.2
  | some value =>
      dsimp only
      split
      · rfl
      · unfold upsertFieldValue
        split
        · refine findSome?_updateWhere fun v _ hv => ?_
          rw [Bool.and_eq_true, beq_iff_eq, beq_iff_eq] at hv
          exact (hnone ⟨v.todoID, v.fieldID, value⟩ hv.2).trans (hnone v hv.2).symm
        · dsimp only
          rw [List.findSome?_append, List.findSome?_singleton, hnone _ rfl, Option.or_none]

theorem lookup_patchTodoFields {db : DB} {existing : Todo} {patch : List ResolvedCustomField} {key : String}
    (h : ∀ r ∈ patch, ∀ g ∈ db.customFields, g.id = r.fieldID → g.key ≠ key) :
    (loadTodoCustomFields (patchTodoFields db existing patch).1 existing.row.id).lookup key =
      (loadTodoCustomFields db existing.row.id).lookup key := by
  have hfold : ∀ s : DB × List String × List (String × FieldValue), s.1.customFields = db.customFields →
      (loadTodoCustomFields (patch.foldl (applyCustomField existing.row.id existing.customFields) s).1
        existing.row.id).lookup key = (loadTodoCustomFields s.1 existing.row.id).lookup key := by
    induction patch with
    | nil => exact fun _ _ => rfl
    | cons r patch ih =>
        intro s hs
        have hstep := (applyCustomField_fieldValuesOnly existing.row.id existing.customFields s r).exists_eq
        obtain ⟨values, hvalues⟩ := hstep
        rw [List.foldl_cons, ih (fun u hu => h u (List.mem_cons_of_mem _ hu)) _ (by rw [hvalues, ← hs]),
          lookup_applyCustomField (hs ▸ h r List.mem_cons_self)]
  unfold patchTodoFields
  split
  · rfl
  · exact hfold (db, [], existing.customFields) rfl

/-! ## What an edit writes -/

/-- What an edit leaves of the tables that hold a todo. -/
inductive EditWrites (rt : Runtime) (ctx : Ctx) (db : DB) (input : UpdateTodoInput) (p : ProjectRow)
    (t : TodoRow) (db' : DB) (t' : TodoRow) : Prop
  | body (hscope : editScope ctx db p t = .bodyOnly)
      (hrow : t' = t.withBody (input.newBody t) ctx.nowMs) (htags : db'.tags = db.tags)
      (hlinks : db'.todoTags = db.todoTags) (hfields : db'.customFields = db.customFields)
      (hvalues : db'.customFieldValues = db.customFieldValues)
  | full (hscope : editScope ctx db p t = .full)
      (hrow : t' = TodoRow.edited (input.resolve (loadTodo rt db t)) t ctx.nowMs t)
      (names tags : List String) (userID : Option ℤ) (todos : List TodoRow) (db₁ : DB)
      (hnames : normalizeTags rt (input.resolve (loadTodo rt db t)).tags = .ok names)
      (howner : tagOwner ctx db p names = .ok (tags, userID))
      (hset : setNewTodoTags rt ctx { db with todos := todos } p t.id userID tags = .ok db₁)
      (htags : db'.tags = db₁.tags) (hlinks : db'.todoTags = db₁.todoTags)
      (hfields : db'.customFields = db.customFields) (patch : List ResolvedCustomField)
      (hpatch : resolveCustomFieldPatch rt db t.projectID input.customFields = .ok patch)
      (hvalues : ∀ k, fieldValues db' t.id k =
        patchValues (loadTodoCustomFields db t.id) patch k (fieldValues db t.id k))
      (hloaded : ∀ key, (∀ r ∈ patch, ∀ g ∈ db.customFields, g.id = r.fieldID → g.key ≠ key) →
        (loadTodoCustomFields db' t.id).lookup key = (loadTodoCustomFields db t.id).lookup key)

section

variable {rt : Runtime} {ctx : Ctx} {db db' : DB} {todoID : ℤ} {input : UpdateTodoInput} {t t' : TodoRow}
  {p : ProjectRow}

theorem getTodo_of_updateWhere {f : TodoRow → TodoRow} (hf : ∀ t, (f t).id = t.id)
    (h : getTodo db todoID = .ok t) (htodos : db'.todos = updateWhere (·.id == todoID) f db.todos) :
    getTodo db' todoID = .ok (f t) := by
  have hfind := find?_updateWhere (k := todoID) TodoRow.id (fun r hr => (hf r).trans hr) todoID db.todos
  unfold getTodo at h ⊢
  split at h
  · rename_i u hu
    cases h
    rw [htodos, hfind, hu, Option.map_some, if_pos rfl]
  · cases h

theorem updateTodo_writes {todo : Todo} (h : updateTodo rt ctx db todoID input = .ok (db', todo)) :
    ∃ t p t', getTodo db todoID = .ok t ∧ getProjectForWrite ctx db t.projectID = .ok p ∧
      getTodo db' todoID = .ok t' ∧ EditWrites rt ctx db input p t db' t' := by
  simp only [updateTodo, bind_eq_ok, reject_eq_ok, not_not] at h
  obtain ⟨t, hget, p, hp, _, _, _, hscope, _, _, h⟩ := h
  have hid := (getTodo_eq_ok hget).2
  subst hid
  split at h
  · rename_i hbody
    simp only [updateTodoBody, bind_eq_ok, reject_eq_ok, pure_eq_ok, Prod.mk.injEq] at h
    obtain ⟨_, _, _, _, hdb, _⟩ := h
    obtain ⟨_, rfl⟩ := (ActivityOnly.of_touch hdb).exists_eq
    refine ⟨t, p, _, hget, hp, getTodo_of_updateWhere ?_ hget rfl, .body hbody rfl rfl rfl rfl rfl⟩
    exact fun _ => rfl
  · rename_i hbody
    have hfull : editScope ctx db p t = .full := by
      cases hs : editScope ctx db p t with
      | full => rfl
      | bodyOnly => exact absurd hs hbody
      | none => exact absurd hs hscope
    simp only [updateTodoFull, bind_eq_ok, reject_eq_ok, pure_eq_ok, Prod.mk.injEq] at h
    obtain ⟨_, _, _, _, _, _, names, hnames, _, _, _, _, _, _, _, _, _, _, patch, hpatch,
      ⟨tags, userID⟩, howner, db₁, htags, hdb, _⟩ := h
    obtain ⟨_, rfl⟩ := (ActivityOnly.of_touch hdb).exists_eq
    have hvalues : ∀ k, fieldValues db₁ t.id k = fieldValues db t.id k := by
      obtain ⟨_, _, _, _, rfl⟩ := (setNewTodoTags_tagsOnly htags).exists_eq
      exact fun _ => rfl
    have hpatched := fieldValues_patchTodoFields db₁ (loadTodo rt db t) patch
    have hloaded : ∀ key, (∀ r ∈ patch, ∀ g ∈ db₁.customFields, g.id = r.fieldID → g.key ≠ key) →
        (loadTodoCustomFields (patchTodoFields db₁ (loadTodo rt db t) patch).1 t.id).lookup key =
          (loadTodoCustomFields db₁ t.id).lookup key := fun _ hkey => lookup_patchTodoFields hkey
    obtain ⟨values, heq⟩ := (patchTodoFields_fieldValuesOnly db₁ (loadTodo rt db t) patch).exists_eq
    rw [heq] at hpatched hloaded
    rw [heq]
    obtain ⟨_, _, _, _, hdb₁⟩ := (setNewTodoTags_tagsOnly htags).exists_eq
    refine ⟨t, p, _, hget, hp, getTodo_of_updateWhere (f := TodoRow.edited
      (input.resolve (loadTodo rt db t)) t ctx.nowMs) (fun _ => rfl) hget ?_,
      .full hfull rfl names tags userID _ db₁ hnames howner htags rfl rfl ?_ patch hpatch (fun k => ?_)
        fun key hkey => ?_⟩
    · rw [hdb₁]
      rfl
    · rw [hdb₁]
    · rw [← hvalues k]
      exact hpatched k
    · have hsame : loadTodoCustomFields db₁ t.id = loadTodoCustomFields db t.id := by
        rw [hdb₁]
        rfl
      rw [← hsame]
      exact hloaded key (by rw [hdb₁]; exact hkey)

/-! ## The frame -/

/-- The keys of the tables behind a todo: a tag of a todo is a row, and a custom field
has an id of its own and a key of its own in its project. -/
structure TodoKeys (db : DB) : Prop where
  tagRows : ∀ r ∈ db.todoTags, r.tagID ∈ db.tags.map (·.id)
  fieldIDs : (db.customFields.map (·.id)).Nodup

theorem customFieldByKey_eq_some {projectID : ℤ} {key : String} {f : CustomField}
    (h : customFieldByKey db projectID key = some f) :
    f ∈ db.customFields ∧ f.projectID = projectID ∧ f.key = key := by
  unfold customFieldByKey at h
  have hkey := List.find?_some h
  have hmem := mem_orderBy.mp (List.mem_of_find?_eq_some h)
  rw [List.mem_filter, beq_iff_eq] at hmem
  exact ⟨hmem.1, hmem.2, beq_iff_eq.mp hkey⟩

theorem customFieldByKey_congr (hfields : db'.customFields = db.customFields) (projectID : ℤ) (key : String) :
    customFieldByKey db' projectID key = customFieldByKey db projectID key := by
  rw [customFieldByKey, customFieldByKey, listCustomFields, listCustomFields, hfields]

/-- An entry of a resolved patch is about the field of a key of the patch. -/
theorem mem_resolveCustomFieldPatch {projectID : ℤ} {values : CustomFieldValues}
    {patch : List ResolvedCustomField} (h : resolveCustomFieldPatch rt db projectID values = .ok patch)
    {r : ResolvedCustomField} (hr : r ∈ patch) :
    r.key ∈ values.map (·.1) ∧ ∃ f, customFieldByKey db projectID r.key = some f ∧ r.fieldID = f.id := by
  obtain ⟨⟨key, raw⟩, hmem, hresolve⟩ := mem_of_mapM h hr
  dsimp only at hresolve
  split at hresolve
  · cases hresolve
  · rename_i f hfind
    split at hresolve
    · rw [pure_eq_ok] at hresolve
      subst hresolve
      exact ⟨List.mem_map.mpr ⟨_, hmem, rfl⟩, f, hfind, rfl⟩
    · simp only [bind_eq_ok, pure_eq_ok] at hresolve
      obtain ⟨value, _, rfl⟩ := hresolve
      exact ⟨List.mem_map.mpr ⟨_, hmem, rfl⟩, f, hfind, rfl⟩

/-- A patch has entries only for the fields that it names. -/
theorem patchValues_of_unnamed (hids : (db.customFields.map (·.id)).Nodup) {projectID : ℤ}
    {values : CustomFieldValues} {patch : List ResolvedCustomField}
    (h : resolveCustomFieldPatch rt db projectID values = .ok patch) {key : String}
    (hkey : key ∉ values.map (·.1)) {f : CustomField} (hf : customFieldByKey db projectID key = some f)
    (current : List (String × FieldValue)) (vs : List FieldValue) :
    patchValues current patch f.id vs = vs := by
  have hnone : patch.filter (·.fieldID == f.id) = [] := by
    rw [List.filter_eq_nil_iff]
    intro r hr hid
    obtain ⟨hnamed, g, hg, hgid⟩ := mem_resolveCustomFieldPatch h hr
    obtain ⟨hfmem, _, hfkey⟩ := customFieldByKey_eq_some hf
    obtain ⟨hgmem, _, hgkey⟩ := customFieldByKey_eq_some hg
    have heq : g = f := List.inj_on_of_nodup_map hids hgmem hfmem (hgid.symm.trans (beq_iff_eq.mp hid))
    apply hkey
    rwa [← hfkey, ← heq, hgkey]
  rw [patchValues, hnone]
  rfl

/-- Tags are set for the user of the request or for the board, or not at all. -/
theorem setNewTodoTags_cases {names tags : List String} {userID : Option ℤ} {db₁ : DB}
    (howner : tagOwner ctx db p names = .ok (tags, userID)) {s : DB}
    (h : setNewTodoTags rt ctx s p todoID userID tags = .ok db₁) :
    (writesTags ctx p = true ∧
      setTodoTags rt ctx s p.id todoID ctx.userID (boardScopedTags ctx p) names = .ok db₁) ∨
    (writesTags ctx p = false ∧ db₁ = s) := by
  unfold tagOwner at howner
  unfold setNewTodoTags at h
  unfold writesTags boardScopedTags
  cases huser : ctx.userID with
  | some u =>
      simp only [huser, pure_eq_ok, Prod.mk.injEq] at howner
      obtain ⟨rfl, rfl⟩ := howner
      exact .inl ⟨rfl, h⟩
  | none =>
      simp only [huser] at howner
      cases htemp : isTemporaryProject p with
      | true =>
          simp only [htemp, or_true, if_true, pure_eq_ok, Prod.mk.injEq] at howner
          obtain ⟨rfl, rfl⟩ := howner
          simp only [htemp, Option.isSome_none, Option.isNone_none, Bool.and_self, Bool.or_true,
            if_true] at h
          exact .inl ⟨rfl, by simpa using h⟩
      | false =>
          have hanon : isAnonymousTemporaryBoard p = false := by
            unfold isTemporaryProject at htemp
            simp [isAnonymousTemporaryBoard, htemp]
          have hnobody : userID = none := by
            split at howner
            · exact (Prod.mk.inj (pure_eq_ok.mp howner)).2.symm
            · split at howner
              · cases howner
              · exact (Prod.mk.inj (pure_eq_ok.mp howner)).2.symm
          subst hnobody
          simp only [htemp, hanon, Option.isSome_none, Bool.false_and, Bool.or_self,
            Bool.false_eq_true, if_false, pure_eq_ok] at h
          exact .inr ⟨rfl, h.symm⟩

theorem keptTagNames_eq {names : List String} (hnames : normalizeTags rt (listTodoTags rt db t) = .ok names) :
    keptTagNames rt db t = taggable rt names := by
  rw [keptTagNames, hnames]
  rfl

section

variable {names tags : List String} {userID : Option ℤ} {todos : List TodoRow} {db₁ : DB}
  (hnames : normalizeTags rt (listTodoTags rt db t) = .ok names)
  (howner : tagOwner ctx db p names = .ok (tags, userID))
  (hset : setNewTodoTags rt ctx { db with todos := todos } p t.id userID tags = .ok db₁)

include hnames howner hset

/-- Kept tags that are found again stay, and no tag is made. -/
theorem attachedTags_of_found (hstored : writesTags ctx p = true → TagsAsStored rt ctx db p t) :
    db₁.tags = db.tags ∧ attachedTags db₁ t.id = attachedTags db t.id := by
  rcases setNewTodoTags_cases howner hset with ⟨hwrites, hset⟩ | ⟨_, rfl⟩
  · have hfound := hstored hwrites
    rw [TagsAsStored, keptTagNames_eq hnames] at hfound
    have hkept := setTodoTags_of_found hset hfound
    exact hkept
  · exact ⟨rfl, rfl⟩

/-- The tags of a todo that an edit keeps are the same rows if and only if they are found
again, where tags are written at all. -/
theorem attachedTags_kept_iff (hkeys : TodoKeys db) :
    attachedTags db₁ t.id = attachedTags db t.id ↔
      (writesTags ctx p = true → TagsAsStored rt ctx db p t) := by
  refine ⟨fun heq hw => ?_, fun hstored => (attachedTags_of_found hnames howner hset hstored).2⟩
  rcases setNewTodoTags_cases howner hset with ⟨_, hset⟩ | ⟨hwrites, _⟩
  · rw [TagsAsStored, keptTagNames_eq hnames]
    exact (setTodoTags_attached_iff (by exact hkeys.tagRows) hset).mp heq
  · rw [hwrites] at hw
    cases hw

end

/-- The values of a custom field that is not named. -/
theorem state_custom_of_unnamed {key : String} (hfields : db'.customFields = db.customFields)
    (hproject : t'.projectID = t.projectID) (hid : t'.id = t.id)
    (hvalues : ∀ f, customFieldByKey db t.projectID key = some f →
      fieldValues db' t.id f.id = fieldValues db t.id f.id) :
    t'.state db' (.custom key) = t.state db (.custom key) := by
  rw [TodoRow.state, TodoRow.state, hproject, hid, customFieldByKey_congr hfields]
  cases hf : customFieldByKey db t.projectID key with
  | none => rfl
  | some f => exact congrArg FieldState.values (hvalues f hf)

/-- A full edit leaves the fields alone that it does not name, apart from the title and
the tags. -/
theorem state_edited_of_unnamed (hids : (db.customFields.map (·.id)).Nodup) {patch : List ResolvedCustomField}
    (hfields : db'.customFields = db.customFields)
    (hpatch : resolveCustomFieldPatch rt db t.projectID input.customFields = .ok patch)
    (hvalues : ∀ k, fieldValues db' t.id k =
      patchValues (loadTodoCustomFields db t.id) patch k (fieldValues db t.id k))
    {f : TodoField} (hf : ¬ input.Names f) (htitle : f ≠ .title) (htags : f ≠ .tags) :
    (TodoRow.edited (input.resolve (loadTodo rt db t)) t ctx.nowMs t).state db' f = t.state db f := by
  cases f with
  | title => exact absurd rfl htitle
  | tags => exact absurd rfl htags
  | body =>
      simp only [UpdateTodoInput.Names, not_or, not_not, Bool.not_eq_false] at hf
      simp [TodoRow.state, TodoRow.edited, UpdateTodoInput.resolve, UpdateTodoInput.newBody, loadTodo, hf]
  | assignee =>
      simp only [UpdateTodoInput.Names, Bool.not_eq_false] at hf
      simp [TodoRow.state, TodoRow.edited, UpdateTodoInput.resolve, loadTodo, hf]
  | sprint =>
      simp only [UpdateTodoInput.Names, not_or, Bool.not_eq_true, Option.isSome_eq_false_iff,
        Option.isNone_iff_eq_none] at hf
      simp [TodoRow.state, TodoRow.edited, UpdateTodoInput.resolve, hf]
  | points =>
      simp only [UpdateTodoInput.Names, Bool.not_eq_false] at hf
      simp [TodoRow.state, TodoRow.edited, UpdateTodoInput.resolve, loadTodo, hf]
  | dueAt =>
      simp only [UpdateTodoInput.Names, Bool.not_eq_true] at hf
      simp [TodoRow.state, TodoRow.edited, UpdateTodoInput.resolve, UpdateTodoInput.effectiveDueAt, hf]
  | priority =>
      simp only [UpdateTodoInput.Names, Bool.not_eq_true] at hf
      simp [TodoRow.state, TodoRow.edited, UpdateTodoInput.resolve, UpdateTodoInput.effectivePriorityKey,
        hf]
  | custom key =>
      refine state_custom_of_unnamed hfields rfl rfl fun f hfield => ?_
      rw [hvalues, patchValues_of_unnamed hids hpatch hf hfield]
  | lane => rfl
  | rank => rfl
  | doneAt => rfl

/-- An edit by somebody who may change the body only. -/
theorem state_withBody_of_unnamed (hlinks : db'.todoTags = db.todoTags)
    (hfields : db'.customFields = db.customFields)
    (hvalues : db'.customFieldValues = db.customFieldValues) {f : TodoField}
    (hf : f = .body → ¬ input.Names .body) :
    (t.withBody (input.newBody t) ctx.nowMs).state db' f = t.state db f := by
  cases f with
  | body =>
      have hf := hf rfl
      simp only [UpdateTodoInput.Names, not_or, not_not, Bool.not_eq_false] at hf
      simp [TodoRow.state, TodoRow.withBody, UpdateTodoInput.newBody, hf]
  | tags =>
      rw [TodoRow.state, TodoRow.state, attachedTags, hlinks]
      rfl
  | custom key =>
      refine state_custom_of_unnamed hfields rfl rfl fun f _ => ?_
      rw [fieldValues, hvalues]
      rfl
  | title => rfl
  | assignee => rfl
  | sprint => rfl
  | points => rfl
  | dueAt => rfl
  | priority => rfl
  | lane => rfl
  | rank => rfl
  | doneAt => rfl

theorem title_edited_of_kept (hkeep : input.keepTitle = true) :
    (TodoRow.edited (input.resolve (loadTodo rt db t)) t ctx.nowMs t).title = trimSpace t.title := by
  simp [TodoRow.edited, UpdateTodoInput.resolve, loadTodo, hkeep]

theorem tags_resolve_of_kept (hkeep : input.keepTags = true) :
    (input.resolve (loadTodo rt db t)).tags = listTodoTags rt db t := by
  simp [UpdateTodoInput.resolve, loadTodo, hkeep]

/-- What is stored as it is written again stays, and kept tags make no tag. -/
theorem EditWrites.keeps (hids : (db.customFields.map (·.id)).Nodup)
    (h : EditWrites rt ctx db input p t db' t') (hstored : KeptAsStored rt ctx db p t input) :
    KeepsUnnamed db db' t t' input ∧ (input.keepTags = true → db'.tags = db.tags) := by
  cases h with
  | body hscope hrow htags hlinks hfields hvalues =>
      subst hrow
      refine ⟨fun f hf => state_withBody_of_unnamed hlinks hfields hvalues ?_, fun _ => htags⟩
      rintro rfl
      exact hf
  | full hscope hrow names tags userID todos db₁ hnames howner hset htags hlinks hfields patch hpatch
      hvalues hloaded =>
      subst hrow
      have hkept : input.keepTags = true → db'.tags = db.tags ∧
          attachedTags db' t.id = attachedTags db t.id := by
        intro hkeep
        rw [tags_resolve_of_kept hkeep] at hnames
        have hfound := attachedTags_of_found hnames howner hset (hstored.tags hscope hkeep)
        rw [htags, attachedTags, hlinks]
        exact hfound
      refine ⟨fun f hf => ?_, fun hkeep => (hkept hkeep).1⟩
      by_cases hft : f = .title
      · subst hft
        have hkeep : input.keepTitle = true := by simpa [UpdateTodoInput.Names] using hf
        rw [TodoRow.state, TodoRow.state, title_edited_of_kept hkeep, hstored.title hscope hkeep]
      · by_cases hfg : f = .tags
        · subst hfg
          have hkeep : input.keepTags = true := by simpa [UpdateTodoInput.Names] using hf
          exact congrArg FieldState.tagIDs (hkept hkeep).2
        · exact state_edited_of_unnamed hids hfields hpatch hvalues hf hft hfg

theorem EditWrites.keeps_iff (hkeys : TodoKeys db) (h : EditWrites rt ctx db input p t db' t') :
    KeepsUnnamed db db' t t' input ↔ KeptAsStored rt ctx db p t input := by
  refine ⟨fun hkeeps => ?_, fun hstored => (h.keeps hkeys.fieldIDs hstored).1⟩
  cases h with
  | body hscope hrow htags hlinks hfields hvalues =>
      have hnotfull : editScope ctx db p t ≠ .full := by
        rw [hscope]
        decide
      exact ⟨fun hfull => absurd hfull hnotfull, fun hfull => absurd hfull hnotfull⟩
  | full hscope hrow names tags userID todos db₁ hnames howner hset htags hlinks hfields patch hpatch
      hvalues hloaded =>
      subst hrow
      refine ⟨fun _ hkeep => ?_, fun _ hkeep => ?_⟩
      · have htitle := hkeeps .title (by simp [UpdateTodoInput.Names, hkeep])
        rw [TodoRow.state, TodoRow.state, title_edited_of_kept hkeep] at htitle
        exact FieldState.text.inj htitle
      · have hattached := FieldState.tagIDs.inj (hkeeps .tags (by simp [UpdateTodoInput.Names, hkeep]))
        rw [tags_resolve_of_kept hkeep] at hnames
        refine (attachedTags_kept_iff hnames howner hset hkeys).mp ?_
        rw [attachedTags, ← hlinks]
        exact hattached

end

end Scrumboy
