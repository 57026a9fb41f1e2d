import Scrumboy.Backup.Tagging
import Scrumboy.Backup.Stages

/-!
# What an import leaves of the tags

The logical tags of a story are the group keys of the tag rows that it is linked to. Writing tags
only adds rows to the table of tags and may change their colours, and it changes the links of one
story at most, so the logical tags of all other stories stay.
-/

set_option linter.dupNamespace false

namespace Scrumboy

open Go Sql

/-- The group keys of the tags of a story. -/
def logicalTags (rt : Runtime) (db : DB) (todoID : ℤ) : Set String :=
  {k | ∃ r ∈ db.todoTags, r.todoID = todoID ∧ ∃ t ∈ db.tags, t.id = r.tagID ∧ tagGroupKey rt t.name = k}

/-- The canonical forms of some names. -/
def canonicalNames (rt : Runtime) (names : List String) : Set String :=
  {k | ∃ n ∈ names, canonicalizeTag rt n = k}

/-- The tags with their names. -/
def DB.tagNames (db : DB) : List (ℤ × String) := db.tags.map fun t => (t.id, t.name)

/-- The tags stay with their ids and names, and so do the links of all but some stories. -/
structure TagsKeep (touched : Set ℤ) (db db' : DB) : Prop where
  names : db.tagNames <+: db'.tagNames
  ids : (db.tags.map (·.id)).Nodup → (db'.tags.map (·.id)).Nodup
  links : ∀ r : TodoTagRow, r.todoID ∉ touched → (r ∈ db'.todoTags ↔ r ∈ db.todoTags)

/-- The links of a story are to rows that exist. -/
def LinksResolve (db : DB) (todoID : ℤ) : Prop :=
  ∀ r ∈ db.todoTags, r.todoID = todoID → r.tagID ∈ db.tags.map (·.id)

section

variable {rt : Runtime} {ctx : Ctx} {db db' : DB} {projectID todoID : ℤ} {touched : Set ℤ}

theorem mem_tagNames {x : ℤ × String} :
    x ∈ db.tagNames ↔ ∃ t ∈ db.tags, t.id = x.1 ∧ t.name = x.2 := by
  obtain ⟨id, name⟩ := x
  simp [DB.tagNames]

theorem mem_logicalTags {k : String} : k ∈ logicalTags rt db todoID ↔
    ∃ r ∈ db.todoTags, r.todoID = todoID ∧ ∃ x ∈ db.tagNames, x.1 = r.tagID ∧ tagGroupKey rt x.2 = k := by
  refine exists_congr fun r => and_congr_right fun _ => and_congr_right fun _ => ?_
  constructor
  · rintro ⟨t, ht, hid, hkey⟩
    exact ⟨(t.id, t.name), mem_tagNames.mpr ⟨t, ht, rfl, rfl⟩, hid, hkey⟩
  · rintro ⟨x, hx, hid, hkey⟩
    obtain ⟨t, ht, htid, htname⟩ := mem_tagNames.mp hx
    exact ⟨t, ht, htid.trans hid, by rw [htname, hkey]⟩

theorem TagsKeep.of_eq (htags : db'.tags = db.tags) (hlinks : db'.todoTags = db.todoTags) :
    TagsKeep touched db db' where
  names := by simp only [DB.tagNames, htags, List.prefix_rfl]
  ids := by rw [htags]; exact id
  links r _ := by rw [hlinks]

theorem TagsKeep.refl (db : DB) : TagsKeep touched db db := .of_eq rfl rfl

theorem TagsKeep.trans {a b c : DB} (hab : TagsKeep touched a b) (hbc : TagsKeep touched b c) :
    TagsKeep touched a c where
  names := hab.names.trans hbc.names
  ids := hbc.ids ∘ hab.ids
  links r hr := (hbc.links r hr).trans (hab.links r hr)

theorem TagsKeep.resolve (h : TagsKeep touched db db') (htodo : todoID ∉ touched)
    (hlinks : LinksResolve db todoID) : LinksResolve db' todoID := by
  rintro r hr rfl
  obtain ⟨t, ht, hid⟩ := List.mem_map.mp (hlinks r ((h.links r htodo).mp hr) rfl)
  obtain ⟨t', ht', hid', -⟩ := mem_tagNames.mp
    (h.names.mem (mem_tagNames.mpr ⟨t, ht, rfl, rfl⟩ : (t.id, t.name) ∈ db.tagNames))
  exact List.mem_map.mpr ⟨t', ht', hid'.trans hid⟩

/-- A story that is not touched keeps its logical tags. -/
theorem TagsKeep.logicalTags_eq (h : TagsKeep touched db db') (htodo : todoID ∉ touched)
    (hids : (db.tags.map (·.id)).Nodup) (hlinks : LinksResolve db todoID) :
    logicalTags rt db' todoID = logicalTags rt db todoID := by
  ext k
  rw [mem_logicalTags, mem_logicalTags]
  constructor
  · rintro ⟨r, hr, rfl, x, hx, hid, hkey⟩
    have hold := (h.links r htodo).mp hr
    obtain ⟨t, ht, htid⟩ := List.mem_map.mp (hlinks r hold rfl)
    -- the row that the link had before is the only one with its id
    have hmem : (t.id, t.name) ∈ db.tagNames := mem_tagNames.mpr ⟨t, ht, rfl, rfl⟩
    have hnodup : (db'.tagNames.map (·.1)).Nodup := by
      have hfst : db'.tagNames.map (·.1) = db'.tags.map (·.id) := by simp [DB.tagNames]
      rw [hfst]
      exact h.ids hids
    have heq : x = (t.id, t.name) :=
      List.inj_on_of_nodup_map hnodup hx (h.names.mem hmem) (hid.trans htid.symm)
    exact ⟨r, hold, rfl, x, heq ▸ hmem, hid, hkey⟩
  · rintro ⟨r, hr, rfl, x, hx, hid, hkey⟩
    exact ⟨r, (h.links r htodo).mpr hr, rfl, x, h.names.mem hx, hid, hkey⟩

/-! ## Tags -/

theorem appendTag_tagsKeep (db : DB) (t : TagRow) : TagsKeep touched db (appendTag db t).1 where
  names := by simp [DB.tagNames, appendTag]
  ids h := by
    rw [appendTag, List.map_append]
    exact nodup_concat_nextRowid h
  links _ _ := .rfl

theorem getOrCreateTag_tagsKeep {userID : ℤ} {name : String} {out : DB × ℤ}
    (h : getOrCreateTag rt ctx db userID name = .ok out) : TagsKeep touched db out.1 := by
  simp only [getOrCreateTag, bind_eq_ok, pure_eq_ok] at h
  obtain ⟨_, _, rfl⟩ := h
  unfold getOrCreateTagExact
  split
  · exact .refl db
  · exact appendTag_tagsKeep db _

theorem linkProjectTag_tagsKeep {tagID : ℤ} :
    TagsKeep touched db (linkProjectTag ctx db projectID tagID) :=
  .of_eq linkProjectTag_keeps.2 linkProjectTag_keeps.1

theorem tagForTodo_tagsKeep {userID : Option ℤ} {isAnonymousBoard : Bool} {name : String}
    {out : DB × ℤ} (h : tagForTodo rt ctx db projectID userID isAnonymousBoard name = .ok out) :
    TagsKeep touched db out.1 := by
  unfold tagForTodo at h
  split at h
  · rw [← pure_eq_ok.mp h]
    unfold getOrCreateBoardTag
    split
    · exact .refl db
    · exact appendTag_tagsKeep db _
  · cases userID with
    | none => cases h
    | some userID => exact getOrCreateTag_tagsKeep h

theorem linkTodoTag_tagsKeep {tagID : ℤ} : TagsKeep {todoID} db (linkTodoTag db todoID tagID) where
  names := by simp only [DB.tagNames, linkTodoTag_tags, List.prefix_rfl]
  ids := by rw [linkTodoTag_tags]; exact id
  links r hr := by
    rw [mem_linkTodoTag]
    constructor
    · rintro (h | rfl)
      · exact h
      · exact absurd rfl hr
    · exact .inl

theorem setTodoTags_tagsKeep {userID : Option ℤ} {isAnonymousBoard : Bool} {names : List String}
    (h : setTodoTags rt ctx db projectID todoID userID isAnonymousBoard names = .ok db') :
    TagsKeep {todoID} db db' := by
  have hclear : TagsKeep {todoID} db
      { db with todoTags := deleteWhere (fun r => r.todoID == todoID) db.todoTags } :=
    ⟨List.prefix_rfl, id, fun r hr => by simpa using fun _ => hr⟩
  refine foldlM_inv (P := TagsKeep {todoID} db) (fun s name s' _ hs hstep => hs.trans ?_) hclear h
  unfold setTodoTag at hstep
  dsimp only at hstep
  split at hstep
  · exact pure_eq_ok.mp hstep ▸ .refl s
  · simp only [bind_eq_ok, pure_eq_ok] at hstep
    obtain ⟨⟨db₁, tagID⟩, htag, rfl⟩ := hstep
    exact ((tagForTodo_tagsKeep htag).trans linkProjectTag_tagsKeep).trans linkTodoTag_tagsKeep

theorem importTodoTags_tagsKeep {names : List String}
    (h : importTodoTags rt ctx db projectID todoID names = .ok db') : TagsKeep {todoID} db db' := by
  simp only [importTodoTags, bind_eq_ok] at h
  obtain ⟨p, _, user, _, h⟩ := h
  cases user with
  | none => exact pure_eq_ok.mp h ▸ .refl db
  | some userID =>
      simp only [bind_eq_ok] at h
      obtain ⟨tags, _, h⟩ := h
      exact setTodoTags_tagsKeep h

theorem setTagColor_tags (db : DB) (userID tagID : ℤ) (color : Option String) :
    (setTagColor db userID tagID color).tags = db.tags := by
  cases color with
  | none => rfl
  | some color =>
      dsimp only [setTagColor]
      split
      · rfl
      · unfold setUserTagColor
        split <;> rfl

theorem setTagColor_tagsKeep {userID tagID : ℤ} {color : Option String} :
    TagsKeep touched db (setTagColor db userID tagID color) :=
  .of_eq (setTagColor_tags db userID tagID color) (setTagColor_todoTags db userID tagID color)

theorem importTagRow_tagsKeep {p : ProjectRow} {userID : Option ℤ} {name : String}
    {color : Option String} {out : DB × ℤ}
    (h : importTagRow rt ctx db p userID name color = .ok out) : TagsKeep touched db out.1 := by
  unfold importTagRow at h
  split at h
  · rw [← pure_eq_ok.mp h]
    unfold importBoardTag
    split
    · exact appendTag_tagsKeep db _
    · rename_i t _
      split
      · exact .refl db
      · rename_i color
        split
        · exact .refl db
        · refine ⟨?_, ?_, fun _ _ => .rfl⟩
          · have hnames := map_updateWhere (p := fun t' => t'.id == t.id)
              (f := fun t' => { t' with color := some color }) (fun t : TagRow => (t.id, t.name))
              (fun _ => rfl) db.tags
            exact ⟨[], (List.append_nil _).trans hnames.symm⟩
          · have hids := map_updateWhere (p := fun t' => t'.id == t.id)
              (f := fun t' => { t' with color := some color }) (fun t : TagRow => t.id)
              (fun _ => rfl) db.tags
            exact fun h => hids ▸ h
  · cases userID with
    | none => cases h
    | some userID =>
        simp only [importUserTag, bind_eq_ok, pure_eq_ok] at h
        obtain ⟨⟨db₁, tagID⟩, hget, rfl⟩ := h
        exact (getOrCreateTag_tagsKeep hget).trans setTagColor_tagsKeep

theorem importTags_tagsKeep {tags : List TagExport}
    (h : tags.foldlM (importTag rt ctx projectID) db = .ok db') : TagsKeep touched db db' := by
  refine foldlM_inv (P := TagsKeep touched db) (fun s te s' _ hs hstep => hs.trans ?_) (.refl db) h
  simp only [importTag, bind_eq_ok] at hstep
  obtain ⟨p, _, user, _, hstep⟩ := hstep
  cases user with
  | none => exact pure_eq_ok.mp hstep ▸ .refl s
  | some userID =>
      simp only [bind_eq_ok] at hstep
      obtain ⟨tags, _, hstep⟩ := hstep
      split at hstep
      · cases hstep
      · simp only [bind_eq_ok, pure_eq_ok] at hstep
        obtain ⟨⟨db₁, tagID⟩, htag, rfl⟩ := hstep
        exact (importTagRow_tagsKeep htag).trans linkProjectTag_tagsKeep

theorem AroundOnly.tagsKeep (h : AroundOnly db db') : TagsKeep touched db db' :=
  .of_eq (by rw [h]) (by rw [h])

end

end Scrumboy
