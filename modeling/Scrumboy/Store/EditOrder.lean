import Scrumboy.Store.EditFrame
import Scrumboy.Store.Placement

/-!
# Edits in either order

Two edits that name disjoint fields give the same todo in either order. A field is
written by one of them at most; the other one keeps it, and what an edit writes to a
field depends on the field alone. For tags this takes the table of tags to be the same,
up to the times at which its rows were made.
-/

set_option linter.dupNamespace false

namespace Scrumboy

open Go Sql

/-! ## Tags -/

/-- The tables of tags agree up to the times at which the rows were made. -/
def TagsAgree (db db' : DB) : Prop := db'.tags.map TagRow.undated = db.tags.map TagRow.undated

section

variable {rt : Runtime} {ctx ctx' : Ctx} {projectID todoID : ℤ} {userID : Option ℤ} {board : Bool}
  {db db' s s' s₁ s₁' : DB} {name : String}

theorem map_find?_undated {sel : TagRow → Bool} (hsel : ∀ t : TagRow, sel t.undated = sel t)
    (l : List TagRow) : ((l.map TagRow.undated).find? sel).map (·.id) = (l.find? sel).map (·.id) := by
  have hcomp : sel ∘ TagRow.undated = sel := funext hsel
  rw [List.find?_map, hcomp, Option.map_map]
  rfl

theorem findTagIDByGroupKey_eq (rt : Runtime) (db : DB) (owned : TagRow → Bool) (key : String) :
    findTagIDByGroupKey rt db owned key =
      ((db.tags.find? fun t => owned t && t.name == key).map (·.id)).or
        (((orderBy (·.id) (db.tags.filter owned)).find? fun t => tagGroupKey rt t.name == key).map
          (·.id)) := by
  unfold findTagIDByGroupKey
  split
  · rename_i t hfind
    rw [hfind]
    rfl
  · rename_i hfind
    rw [hfind]
    rfl

/-- The lookup of a tag does not look at times. -/
theorem findTagIDByGroupKey_undated (hagree : TagsAgree db db') {owned : TagRow → Bool}
    (howned : ∀ t : TagRow, owned t.undated = owned t) (key : String) :
    findTagIDByGroupKey rt db' owned key = findTagIDByGroupKey rt db owned key := by
  have horder : ∀ l : List TagRow, (orderBy (·.id) (l.filter owned)).map TagRow.undated =
      orderBy (·.id) ((l.map TagRow.undated).filter owned) := by
    intro l
    have hcomp : owned ∘ TagRow.undated = owned := funext howned
    rw [List.filter_map, hcomp, orderBy, orderBy]
    exact List.map_insertionSort _ _ _ _ fun _ _ _ _ => Iff.rfl
  rw [findTagIDByGroupKey_eq, findTagIDByGroupKey_eq]
  congr 1
  · have hsel : ∀ t : TagRow, (owned t.undated && t.undated.name == key) = (owned t && t.name == key) :=
      fun t => by rw [howned]; rfl
    rw [← map_find?_undated hsel, ← map_find?_undated hsel db.tags, hagree]
  · have hsel : ∀ t : TagRow, (tagGroupKey rt t.undated.name == key) = (tagGroupKey rt t.name == key) :=
      fun _ => rfl
    rw [← map_find?_undated hsel, ← map_find?_undated hsel (orderBy (·.id) (db.tags.filter owned)),
      horder, horder, hagree]

theorem findTodoTag_undated (hagree : TagsAgree db db') :
    findTodoTag rt db' projectID userID board name = findTodoTag rt db projectID userID board name := by
  unfold findTodoTag
  split
  · exact findTagIDByGroupKey_undated hagree (fun _ => rfl) _
  · cases userID with
    | none => rfl
    | some u => exact findTagIDByGroupKey_undated hagree (fun _ => rfl) _

theorem TagsAgree.ids (h : TagsAgree db db') : db'.tags.map (·.id) = db.tags.map (·.id) := by
  have hids := congrArg (List.map TagRow.id) h
  rw [List.map_map, List.map_map] at hids
  exact hids

/-- One round of `setTodoTags` on tables that agree. -/
theorem setTodoTag_agree (hagree : TagsAgree s s₁)
    (hattached : attachedTags s₁ todoID = attachedTags s todoID)
    (h : setTodoTag rt ctx projectID todoID userID board s name = .ok s')
    (h₁ : setTodoTag rt ctx' projectID todoID userID board s₁ name = .ok s₁') :
    TagsAgree s' s₁' ∧ attachedTags s₁' todoID = attachedTags s' todoID := by
  by_cases hname : canonicalizeTag rt name = ""
  · rw [setTodoTag_of_empty h hname, setTodoTag_of_empty h₁ hname]
    exact ⟨hagree, hattached⟩
  · obtain ⟨id, hlinks, hcase⟩ := setTodoTag_cases h hname
    obtain ⟨id₁, hlinks₁, hcase₁⟩ := setTodoTag_cases h₁ hname
    rw [findTodoTag_undated hagree, hagree.ids] at hcase₁
    have hresult : id₁ = id ∧ TagsAgree s' s₁' := by
      rcases hcase with ⟨hfind, htags⟩ | ⟨hfind, hid, t, ht, htags⟩
      · rw [hfind] at hcase₁
        rcases hcase₁ with ⟨hfind₁, htags₁⟩ | ⟨hfind₁, _⟩
        · refine ⟨(Option.some.inj hfind₁).symm, ?_⟩
          rw [TagsAgree, htags, htags₁]
          exact hagree
        · cases hfind₁
      · rw [hfind] at hcase₁
        rcases hcase₁ with ⟨hfind₁, _⟩ | ⟨_, hid₁, t₁, ht₁, htags₁⟩
        · cases hfind₁
        · have heq : id₁ = id := hid₁.trans hid.symm
          refine ⟨heq, ?_⟩
          rw [TagsAgree, htags, htags₁, List.map_append, List.map_append, hagree, List.map_singleton,
            List.map_singleton, ht, ht₁, heq]
    refine ⟨hresult.2, Set.ext fun x => ?_⟩
    have hx : (⟨todoID, x⟩ ∈ s₁.todoTags) ↔ (⟨todoID, x⟩ ∈ s.todoTags) := Set.ext_iff.mp hattached x
    simp only [attachedTags, Set.mem_ofPred_eq, hlinks, hlinks₁, hresult.1, hx]

/-- Tags that are set by their names are the same rows on tables that agree. -/
theorem setTodoTags_agree {tags : List String} (htags : db'.tags = db.tags)
    (h : setTodoTags rt ctx db projectID todoID userID board tags = .ok s)
    (h' : setTodoTags rt ctx' db' projectID todoID userID board tags = .ok s') :
    attachedTags s' todoID = attachedTags s todoID := by
  have hfold : ∀ (l : List String) {s s' s₁ s₁' : DB}, TagsAgree s s₁ →
      attachedTags s₁ todoID = attachedTags s todoID →
      l.foldlM (setTodoTag rt ctx projectID todoID userID board) s = .ok s' →
      l.foldlM (setTodoTag rt ctx' projectID todoID userID board) s₁ = .ok s₁' →
      attachedTags s₁' todoID = attachedTags s' todoID := by
    intro l
    induction l with
    | nil =>
        intro s s' s₁ s₁' _ hattached hs hs₁
        rw [List.foldlM_nil, pure_eq_ok] at hs hs₁
        rw [← hs, ← hs₁, hattached]
    | cons name l ih =>
        intro s s' s₁ s₁' hagree hattached hs hs₁
        rw [List.foldlM_cons, bind_eq_ok] at hs hs₁
        obtain ⟨u, hu, hrest⟩ := hs
        obtain ⟨u₁, hu₁, hrest₁⟩ := hs₁
        obtain ⟨hagree', hattached'⟩ := setTodoTag_agree hagree hattached hu hu₁
        exact ih hagree' hattached' hrest hrest₁
  have hcleared : ∀ db₀ : DB, attachedTags { db₀ with
      todoTags := deleteWhere (fun r => r.todoID == todoID) db₀.todoTags } todoID = ∅ := by
    intro db₀
    refine Set.eq_empty_of_forall_notMem fun id hid => ?_
    obtain ⟨_, hother⟩ := mem_deleteWhere.mp hid
    simp at hother
  unfold setTodoTags at h h'
  refine hfold tags ?_ ?_ h h'
  · exact congrArg (List.map TagRow.undated) htags
  · rw [hcleared, hcleared]

end

/-! ## The same edit in two states -/

/-- Two requests of the same user, in states that an edit of a todo leads from one to
the other. -/
structure SameStage (ctx ctx' : Ctx) (db db' : DB) : Prop where
  user : ctx'.userID = ctx.userID
  users : db'.users = db.users
  members : db'.members = db.members
  fields : db'.customFields = db.customFields
  projects : db'.projects.map ProjectRow.quiet = db.projects.map ProjectRow.quiet

section

variable {rt : Runtime} {ctx ctx' : Ctx} {db db' : DB} {p p' : ProjectRow} {t t' : TodoRow}

theorem quiet_getProjectForWrite (hprojects : db'.projects.map ProjectRow.quiet =
    db.projects.map ProjectRow.quiet) {projectID : ℤ} (h : getProjectForWrite ctx db projectID = .ok p)
    (h' : getProjectForWrite ctx' db' projectID = .ok p') : p'.quiet = p.quiet := by
  have hget : ∀ {ctx : Ctx} {db : DB} {p : ProjectRow}, getProjectForWrite ctx db projectID = .ok p →
      (db.projects.map ProjectRow.quiet).find? (fun q => q.id == projectID && q.importBatchID == none) =
        some p.quiet := by
    intro ctx db p h
    have hp := getProjectForWrite_eq_ok h
    unfold getProject at hp
    split at hp
    · rename_i q hfind
      cases hp
      rw [List.find?_map]
      exact congrArg (Option.map ProjectRow.quiet) hfind
    · cases hp
  have heq := hget h'
  rw [hprojects, hget h] at heq
  exact (Option.some.inj heq).symm

/-- What the rules look at in a project. -/
theorem quiet_spec (h : p'.quiet = p.quiet) :
    p'.id = p.id ∧ p'.expiresAt.isSome = p.expiresAt.isSome ∧ p'.creatorUserID = p.creatorUserID := by
  have hid := congrArg ProjectRow.id h
  have hexpires := congrArg (fun q : ProjectRow => q.expiresAt.isSome) h
  have hcreator := congrArg ProjectRow.creatorUserID h
  simp only [ProjectRow.quiet, Option.isSome_map] at hid hexpires hcreator
  exact ⟨hid, hexpires, hcreator⟩

theorem SameStage.writesTags_eq (hstage : SameStage ctx ctx' db db') (h : p'.quiet = p.quiet) :
    writesTags ctx' p' = writesTags ctx p ∧ boardScopedTags ctx' p' = boardScopedTags ctx p := by
  obtain ⟨_, hexpires, hcreator⟩ := quiet_spec h
  simp only [writesTags, boardScopedTags, isTemporaryProject, isAnonymousTemporaryBoard, hstage.user,
    hexpires, hcreator, and_self]

/-- Whether somebody may edit everything does not depend on the todo. -/
theorem SameStage.editScope_full_iff (hstage : SameStage ctx ctx' db db') (h : p'.quiet = p.quiet) :
    editScope ctx' db' p' t' = .full ↔ editScope ctx db p t = .full := by
  obtain ⟨hid, hexpires, _⟩ := quiet_spec h
  have hdurable : p'.expiresAt.isNone = p.expiresAt.isNone := by
    rw [← Option.not_isSome, ← Option.not_isSome, hexpires]
  have hscope : ∀ role userID (t : TodoRow), getTodoEditScope role userID t = .full ↔
      role = some .maintainer := by
    intro role userID t
    unfold getTodoEditScope
    split
    · rename_i hrole
      simp [hrole]
    · rename_i hrole
      split
      · simp [hrole]
      · simp [hrole]
  unfold editScope
  rw [hdurable, authEnabled, authEnabled, hstage.users, hstage.user]
  split
  · cases ctx.userID with
    | none => simp
    | some userID =>
        simp only [hscope]
        rw [getProjectRole, getProjectRole, hstage.members, hid]
  · simp

theorem resolveCustomFieldPatch_congr (hfields : db'.customFields = db.customFields) (projectID : ℤ)
    (values : CustomFieldValues) :
    resolveCustomFieldPatch rt db' projectID values = resolveCustomFieldPatch rt db projectID values := by
  rw [resolveCustomFieldPatch, resolveCustomFieldPatch, listCustomFields, listCustomFields, hfields]

end

/-! ## What an edit writes to a field -/

/-- Two states of a todo agree on a field and on what is looked up when it is written. -/
structure FieldAgrees (db db' : DB) (t t' : TodoRow) (f : TodoField) : Prop where
  state : t'.state db' f = t.state db f
  tags : f = .tags → db'.tags = db.tags
  loaded : ∀ key, f = .custom key →
    (loadTodoCustomFields db' t.id).lookup key = (loadTodoCustomFields db t.id).lookup key

section

variable {rt : Runtime} {ctx ctx₁ : Ctx} {db db' db₁ db₁' : DB} {input : UpdateTodoInput}
  {p p₁ : ProjectRow} {t t' t₁ t₁' : TodoRow} {f : TodoField}

/-- An edit leaves what is loaded for the keys alone that it does not name. -/
theorem EditWrites.lookup_of_unnamed (hids : (db.customFields.map (·.id)).Nodup)
    (h : EditWrites rt ctx db input p t db' t') {key : String} (hkey : key ∉ input.customFields.map (·.1)) :
    (loadTodoCustomFields db' t.id).lookup key = (loadTodoCustomFields db t.id).lookup key := by
  cases h with
  | body hscope hrow htags hlinks hfields hvalues =>
      rw [loadTodoCustomFields, loadTodoCustomFields, hvalues, hfields]
  | full hscope hrow names tags userID todos db₁ hnames howner hset htags hlinks hfields patch hpatch
      hvalues hloaded =>
      refine hloaded key fun r hr g hg hid hgkey => ?_
      obtain ⟨hnamed, f, hf, hfid⟩ := mem_resolveCustomFieldPatch hpatch hr
      obtain ⟨hfmem, _, hfkey⟩ := customFieldByKey_eq_some hf
      have heq : g = f := List.inj_on_of_nodup_map hids hg hfmem (hid.trans hfid)
      apply hkey
      rwa [← hgkey, heq, hfkey]

theorem EditWrites.agrees (hids : (db.customFields.map (·.id)).Nodup)
    (h : EditWrites rt ctx db input p t db' t') (hstored : KeptAsStored rt ctx db p t input)
    (hf : ¬ input.Names f) : FieldAgrees db db' t t' f := by
  obtain ⟨hkeeps, htags⟩ := h.keeps hids hstored
  refine ⟨hkeeps f hf, ?_, ?_⟩
  · rintro rfl
    exact htags (by simpa [UpdateTodoInput.Names] using hf)
  · rintro key rfl
    exact h.lookup_of_unnamed hids hf

theorem newBody_congr (h : t₁.body = t.body) : input.newBody t₁ = input.newBody t := by
  rw [UpdateTodoInput.newBody, UpdateTodoInput.newBody, h]

theorem dueAt_edited (input : UpdateTodoInput) (t : TodoRow) (now : ℤ) :
    (TodoRow.edited input t now t).dueAt = input.effectiveDueAt t := by
  unfold TodoRow.edited
  dsimp only
  split
  · rename_i hsame
    exact hsame
  · rfl

/-- What a full edit writes to a field of the row depends on that field. -/
theorem state_edited_of_named {now now₁ : ℤ} (hf : input.Names f) (htags : f ≠ .tags)
    (hcustom : ∀ key, f ≠ .custom key) (hsame : t₁.state db₁ f = t.state db f) :
    (TodoRow.edited (input.resolve (loadTodo rt db₁ t₁)) t₁ now₁ t₁).state db₁' f =
      (TodoRow.edited (input.resolve (loadTodo rt db t)) t now t).state db' f := by
  cases f with
  | title =>
      have hf : input.keepTitle = false := hf
      simp [TodoRow.state, TodoRow.edited, UpdateTodoInput.resolve, hf]
  | body =>
      have hbody : t₁.body = t.body := FieldState.text.inj hsame
      exact congrArg FieldState.text (newBody_congr hbody)
  | tags => exact absurd rfl htags
  | assignee =>
      have hf : input.keepAssigneeUserID = false := hf
      simp [TodoRow.state, TodoRow.edited, UpdateTodoInput.resolve, hf]
  | sprint =>
      have hsprint : t₁.sprintID = t.sprintID := FieldState.number.inj hsame
      exact congrArg (fun s => FieldState.number (if input.clearSprint then none else input.sprintID.or s))
        hsprint
  | points =>
      have hf : input.keepEstimationPoints = false := hf
      simp [TodoRow.state, TodoRow.edited, UpdateTodoInput.resolve, hf]
  | dueAt =>
      have hf : input.dueAtPresent = true := hf
      rw [TodoRow.state, TodoRow.state, dueAt_edited, dueAt_edited]
      simp [UpdateTodoInput.effectiveDueAt, UpdateTodoInput.resolve, hf]
  | priority =>
      have hf : input.priorityKeyPresent = true := hf
      simp [TodoRow.state, TodoRow.edited, UpdateTodoInput.resolve, UpdateTodoInput.effectivePriorityKey,
        hf]
  | custom key => exact absurd rfl (hcustom key)
  | lane => cases hf
  | rank => cases hf
  | doneAt => cases hf

/-- What a patch writes under a key depends on what is stored and loaded under it. -/
theorem patchValues_congr (hids : (db.customFields.map (·.id)).Nodup) {projectID : ℤ}
    {values : CustomFieldValues} {patch : List ResolvedCustomField}
    (h : resolveCustomFieldPatch rt db projectID values = .ok patch) {key : String} {g : CustomField}
    (hg : customFieldByKey db projectID key = some g) {current current₁ : List (String × FieldValue)}
    (hcurrent : current₁.lookup key = current.lookup key) (vs : List FieldValue) :
    patchValues current₁ patch g.id vs = patchValues current patch g.id vs := by
  have hkey : ∀ r ∈ patch.filter (·.fieldID == g.id), current₁.lookup r.key = current.lookup r.key := by
    intro r hr
    rw [List.mem_filter, beq_iff_eq] at hr
    obtain ⟨_, k, hk, hkid⟩ := mem_resolveCustomFieldPatch h hr.1
    obtain ⟨hgmem, _, hgkey⟩ := customFieldByKey_eq_some hg
    obtain ⟨hkmem, _, hkkey⟩ := customFieldByKey_eq_some hk
    have heq : k = g := List.inj_on_of_nodup_map hids hkmem hgmem (hkid.symm.trans hr.2)
    rwa [← hkkey, heq, hgkey]
  rw [patchValues, patchValues]
  refine List.foldl_ext _ _ _ fun vs r hr => ?_
  rw [hkey r hr]

theorem state_custom_eq {key : String} {g : CustomField} (hg : customFieldByKey db t.projectID key = some g)
    (hfields : db₁.customFields = db.customFields) (hproject : t₁.projectID = t.projectID)
    (hid : t₁.id = t.id) (h : t₁.state db₁ (.custom key) = t.state db (.custom key)) :
    fieldValues db₁ t.id g.id = fieldValues db t.id g.id := by
  have hvalues := FieldState.values.inj h
  rw [hproject, hid, customFieldByKey_congr hfields, hg] at hvalues
  exact hvalues

/-- The same names set the same rows in states with the same tags. -/
theorem attachedTags_set_eq {names tags tags₁ : List String} {userID userID₁ : Option ℤ}
    {s s₁ u u₁ : DB} {todoID : ℤ} (hstage : SameStage ctx ctx₁ db db₁) (hquiet : p₁.quiet = p.quiet)
    (howner : tagOwner ctx db p names = .ok (tags, userID))
    (hset : setNewTodoTags rt ctx s p todoID userID tags = .ok u)
    (howner₁ : tagOwner ctx₁ db₁ p₁ names = .ok (tags₁, userID₁))
    (hset₁ : setNewTodoTags rt ctx₁ s₁ p₁ todoID userID₁ tags₁ = .ok u₁) (htags : s₁.tags = s.tags)
    (hbefore : attachedTags s₁ todoID = attachedTags s todoID) :
    attachedTags u₁ todoID = attachedTags u todoID := by
  obtain ⟨hwrites, hboard⟩ := hstage.writesTags_eq hquiet
  rcases setNewTodoTags_cases howner hset with ⟨hw, hset⟩ | ⟨hw, rfl⟩
  · rcases setNewTodoTags_cases howner₁ hset₁ with ⟨_, hset₁⟩ | ⟨hw₁, _⟩
    · rw [hboard, hstage.user, (quiet_spec hquiet).1] at hset₁
      exact setTodoTags_agree htags hset hset₁
    · rw [hwrites, hw] at hw₁
      cases hw₁
  · rcases setNewTodoTags_cases howner₁ hset₁ with ⟨hw₁, _⟩ | ⟨_, rfl⟩
    · rw [hwrites, hw] at hw₁
      cases hw₁
    · exact hbefore

/-- The same edit in two states that agree on a field writes the same to it. -/
theorem EditWrites.state_eq (hids : (db.customFields.map (·.id)).Nodup)
    (h : EditWrites rt ctx db input p t db' t') (h₁ : EditWrites rt ctx₁ db₁ input p₁ t₁ db₁' t₁')
    (hstage : SameStage ctx ctx₁ db db₁) (hquiet : p₁.quiet = p.quiet) (hid : t₁.id = t.id)
    (hproject : t₁.projectID = t.projectID) (hf : input.Names f) (hagrees : FieldAgrees db db₁ t t₁ f) :
    t₁'.state db₁' f = t'.state db' f := by
  cases h with
  | body hscope hrow htags hlinks hfields hvalues =>
      cases h₁ with
      | body hscope₁ hrow₁ htags₁ hlinks₁ hfields₁ hvalues₁ =>
          subst hrow hrow₁
          by_cases hbody : f = .body
          · subst hbody
            have hbody : t₁.body = t.body := FieldState.text.inj hagrees.state
            exact congrArg FieldState.text (newBody_congr hbody)
          · rw [state_withBody_of_unnamed hlinks hfields hvalues fun heq => absurd heq hbody,
              state_withBody_of_unnamed hlinks₁ hfields₁ hvalues₁ fun heq => absurd heq hbody]
            exact hagrees.state
      | full hscope₁ =>
          have hfull : editScope ctx db p t = .full := (hstage.editScope_full_iff hquiet).mp hscope₁
          rw [hscope] at hfull
          cases hfull
  | full hscope hrow names tags userID todos s hnames howner hset htags hlinks hfields patch hpatch
      hvalues hloaded =>
      have hfull : editScope ctx₁ db₁ p₁ t₁ = .full := (hstage.editScope_full_iff hquiet).mpr hscope
      cases h₁ with
      | body hscope₁ =>
          rw [hscope₁] at hfull
          cases hfull
      | full hscope₁ hrow₁ names₁ tags₁ userID₁ todos₁ s₁ hnames₁ howner₁ hset₁ htags₁ hlinks₁ hfields₁
          patch₁ hpatch₁ hvalues₁ hloaded₁ =>
          subst hrow hrow₁
          by_cases hft : f = .tags
          · subst hft
            have hf : input.keepTags = false := hf
            have hsame : names₁ = names := by
              simp only [UpdateTodoInput.resolve, hf, Bool.false_eq_true, if_false] at hnames hnames₁
              rw [hnames₁] at hnames
              exact Except.ok.inj hnames
            subst hsame
            have hbefore := FieldState.tagIDs.inj hagrees.state
            rw [hid] at hset₁ hbefore
            have hattached := attachedTags_set_eq hstage hquiet howner hset howner₁ hset₁
              (by exact hagrees.tags rfl) hbefore
            refine congrArg FieldState.tagIDs ?_
            rw [attachedTags, attachedTags, hlinks, hlinks₁]
            exact hid ▸ hattached
          · by_cases hfc : ∃ key, f = .custom key
            · obtain ⟨key, rfl⟩ := hfc
              have hpatches : patch₁ = patch := by
                rw [resolveCustomFieldPatch_congr hstage.fields, hproject, hpatch] at hpatch₁
                exact (Except.ok.inj hpatch₁).symm
              subst hpatches
              have hvalues : ∀ g, customFieldByKey db t.projectID key = some g →
                  fieldValues db₁' t.id g.id = fieldValues db' t.id g.id := by
                intro g hg
                have hbefore := state_custom_eq hg hstage.fields hproject hid hagrees.state
                rw [hvalues, ← hid, hvalues₁, hid, hbefore]
                exact patchValues_congr hids hpatch hg (hagrees.loaded key rfl) _
              refine congrArg FieldState.values ?_
              change (customFieldByKey db₁' t₁.projectID key).elim [] (fun g => fieldValues db₁' t₁.id g.id) =
                (customFieldByKey db' t.projectID key).elim [] fun g => fieldValues db' t.id g.id
              rw [hproject, hid, customFieldByKey_congr (hfields₁.trans hstage.fields),
                customFieldByKey_congr hfields]
              cases hg : customFieldByKey db t.projectID key with
              | none => rfl
              | some g => exact hvalues g hg
            · exact state_edited_of_named hf hft (fun key heq => hfc ⟨key, heq⟩) hagrees.state

theorem EditWrites.row_keys (h : EditWrites rt ctx db input p t db' t') :
    t'.id = t.id ∧ t'.projectID = t.projectID := by
  cases h with
  | body _ hrow => exact hrow ▸ ⟨rfl, rfl⟩
  | full _ hrow => exact hrow ▸ ⟨rfl, rfl⟩

end

/-! ## Two edits -/

/-- The edit of a todo finds what it keeps in the form in which it writes it. -/
def FindsKept (rt : Runtime) (ctx : Ctx) (db : DB) (todoID : ℤ) (input : UpdateTodoInput) : Prop :=
  ∀ t p, getTodo db todoID = .ok t → getProjectForWrite ctx db t.projectID = .ok p →
    KeptAsStored rt ctx db p t input

instance (rt : Runtime) (ctx : Ctx) (db : DB) (todoID : ℤ) (input : UpdateTodoInput) :
    Decidable (FindsKept rt ctx db todoID input) :=
  match hget : getTodo db todoID with
  | .error _ => isTrue fun _ _ h => by cases hget.symm.trans h
  | .ok t =>
      match hp : getProjectForWrite ctx db t.projectID with
      | .error _ => isTrue fun _ _ h hq => by
          cases hget.symm.trans h
          cases hp.symm.trans hq
      | .ok p => decidable_of_iff (KeptAsStored rt ctx db p t input)
          ⟨fun hkept _ _ h hq => by
            cases hget.symm.trans h
            cases hp.symm.trans hq
            exact hkept,
          fun h => h t p hget hp⟩

/-- Four edits that go two ways: `input₁` and then `input₂`, and the other way round. -/
structure BothWays (rt : Runtime) (ctx₁ ctx₁' ctx₂ ctx₂' : Ctx) (todoID : ℤ)
    (input₁ input₂ : UpdateTodoInput) (db db₁ db₂ db₁₂ db₂₁ : DB) : Prop where
  first : ∃ todo, updateTodo rt ctx₁ db todoID input₁ = .ok (db₁, todo)
  first_second : ∃ todo, updateTodo rt ctx₂' db₁ todoID input₂ = .ok (db₁₂, todo)
  second : ∃ todo, updateTodo rt ctx₂ db todoID input₂ = .ok (db₂, todo)
  second_first : ∃ todo, updateTodo rt ctx₁' db₂ todoID input₁ = .ok (db₂₁, todo)
  user₁ : ctx₁'.userID = ctx₁.userID
  user₂ : ctx₂'.userID = ctx₂.userID
  kept₁ : FindsKept rt ctx₁ db todoID input₁
  kept₁_second : FindsKept rt ctx₁' db₂ todoID input₁
  kept₂ : FindsKept rt ctx₂ db todoID input₂
  kept₂_first : FindsKept rt ctx₂' db₁ todoID input₂

section

variable {rt : Runtime} {ctx ctx₁ ctx₁' ctx₂ ctx₂' : Ctx} {db db' db₁ db₂ db₁₂ db₂₁ : DB} {todoID : ℤ}
  {input input₁ input₂ : UpdateTodoInput} {todo : Todo} {f : TodoField}

theorem SameStage.of_updateTodo (h : updateTodo rt ctx db todoID input = .ok (db', todo))
    (huser : ctx₁'.userID = ctx₁.userID) : SameStage ctx₁ ctx₁' db db' := by
  obtain ⟨_, _, _, _, _, hside, hquiet⟩ := updateTodo_spec h
  refine ⟨huser, ?_, ?_, ?_, hquiet⟩
  · rw [hside]
  · rw [hside]
  · rw [hside]

theorem BothWays.symm
    (h : BothWays rt ctx₁ ctx₁' ctx₂ ctx₂' todoID input₁ input₂ db db₁ db₂ db₁₂ db₂₁) :
    BothWays rt ctx₂ ctx₂' ctx₁ ctx₁' todoID input₂ input₁ db db₂ db₁ db₂₁ db₁₂ :=
  ⟨h.second, h.second_first, h.first, h.first_second, h.user₂, h.user₁, h.kept₂, h.kept₂_first, h.kept₁,
    h.kept₁_second⟩

/-- A field that the second edit does not name is as the first one writes it, whenever the
second one comes. -/
theorem BothWays.state_eq
    (h : BothWays rt ctx₁ ctx₁' ctx₂ ctx₂' todoID input₁ input₂ db db₁ db₂ db₁₂ db₂₁)
    (hids : (db.customFields.map (·.id)).Nodup) (hf : ¬ input₂.Names f) {t₁₂ t₂₁ : TodoRow}
    (h₁₂ : getTodo db₁₂ todoID = .ok t₁₂) (h₂₁ : getTodo db₂₁ todoID = .ok t₂₁) :
    t₂₁.state db₂₁ f = t₁₂.state db₁₂ f := by
  obtain ⟨⟨_, hfirst⟩, ⟨_, hfirst_second⟩, ⟨_, hsecond⟩, ⟨_, hsecond_first⟩, huser₁, huser₂, hkept₁,
    hkept₁_second, hkept₂, hkept₂_first⟩ := h
  obtain ⟨t, p, t₁, hget, hp, hget₁, hwrites₁⟩ := updateTodo_writes hfirst
  obtain ⟨_, p₂', t₁₂', hget₁', hp₂', hget₁₂, hwrites₁₂⟩ := updateTodo_writes hfirst_second
  obtain ⟨_, p₂, t₂, hget', hp₂, hget₂, hwrites₂⟩ := updateTodo_writes hsecond
  obtain ⟨_, p₁', t₂₁', hget₂', hp₁', hget₂₁, hwrites₂₁⟩ := updateTodo_writes hsecond_first
  cases hget₁.symm.trans hget₁'
  cases hget.symm.trans hget'
  cases hget₂.symm.trans hget₂'
  cases h₁₂.symm.trans hget₁₂
  cases h₂₁.symm.trans hget₂₁
  have hstage₁ := SameStage.of_updateTodo hfirst huser₂
  have hstage₂ := SameStage.of_updateTodo hsecond huser₁
  obtain ⟨hid, hproject⟩ := hwrites₂.row_keys
  have hquiet : p₁'.quiet = p.quiet := by
    rw [hproject] at hp₁'
    exact quiet_getProjectForWrite hstage₂.projects hp hp₁'
  have hbefore := hwrites₂.agrees hids (hkept₂ _ _ hget hp₂) hf
  have hafter := hwrites₁₂.agrees (hstage₁.fields ▸ hids) (hkept₂_first _ _ hget₁ hp₂') hf
  rw [hafter.state]
  by_cases hnamed : input₁.Names f
  · exact hwrites₁.state_eq hids hwrites₂₁ hstage₂ hquiet hid hproject hnamed hbefore
  · have hkeeps₁ := hwrites₁.agrees hids (hkept₁ _ _ hget hp) hnamed
    have hkeeps₂₁ := hwrites₂₁.agrees (hstage₂.fields ▸ hids) (hkept₁_second _ _ hget₂ hp₁') hnamed
    rw [hkeeps₂₁.state, hbefore.state, hkeeps₁.state]

/-- An edit leaves the fields alone that its patch does not name exactly if it finds what
it keeps in the form in which it writes it: the title has no space around it, and the
tags are found under their names among those of the acting user or of the board. Edits
that do and that name disjoint fields lead to the same todo in either order. -/
theorem updateTodo_frame (hkeys : TodoKeys db) :
    (∀ ctx todoID input db' todo t t', updateTodo rt ctx db todoID input = .ok (db', todo) →
      getTodo db todoID = .ok t → getTodo db' todoID = .ok t' →
      (KeepsUnnamed db db' t t' input ↔ FindsKept rt ctx db todoID input)) ∧
    ∀ ctx₁ ctx₁' ctx₂ ctx₂' todoID input₁ input₂ db₁ db₂ db₁₂ db₂₁ t₁₂ t₂₁,
      BothWays rt ctx₁ ctx₁' ctx₂ ctx₂' todoID input₁ input₂ db db₁ db₂ db₁₂ db₂₁ →
      (∀ f, ¬ (input₁.Names f ∧ input₂.Names f)) →
      getTodo db₁₂ todoID = .ok t₁₂ → getTodo db₂₁ todoID = .ok t₂₁ →
      t₁₂.state db₁₂ = t₂₁.state db₂₁ := by
  refine ⟨fun ctx todoID input db' todo t t' h hget hget' => ?_,
    fun ctx₁ ctx₁' ctx₂ ctx₂' todoID input₁ input₂ db₁ db₂ db₁₂ db₂₁ t₁₂ t₂₁ h hdisjoint h₁₂ h₂₁ => ?_⟩
  · obtain ⟨u, p, u', hu, hp, hu', hwrites⟩ := updateTodo_writes h
    cases hget.symm.trans hu
    cases hget'.symm.trans hu'
    rw [hwrites.keeps_iff hkeys]
    refine ⟨fun hkept s q hs hq => ?_, fun hfinds => hfinds t p hget hp⟩
    cases hget.symm.trans hs
    cases hp.symm.trans hq
    exact hkept
  · funext f
    by_cases hf : input₂.Names f
    · exact h.symm.state_eq hkeys.fieldIDs (fun hf₁ => hdisjoint f ⟨hf₁, hf⟩) h₂₁ h₁₂
    · exact (h.state_eq hkeys.fieldIDs hf h₁₂ h₂₁).symm

end

/-- A todo with a tag of the first of two maintainers. -/
def taggedBoard : DB where
  users := [1, 2]
  projects := [{ defaultProjectRow 0 with id := 1, name := "Board", slug := "board" }]
  members := [⟨1, 1, .maintainer, 0⟩, ⟨1, 2, .maintainer, 0⟩]
  todos := [{ id := 1, projectID := 1, localID := 1, title := "a", body := "", columnKey := "backlog"
              rank := 1000, estimationPoints := none, assigneeUserID := none, createdByUserID := some 1
              sprintID := none, priorityKey := none, createdAt := 0, updatedAt := 0, doneAt := none
              archivedAt := none, dueAt := none, dueRemindedAt := none }]
  tags := [⟨1, some 1, "ui", 0, none, none⟩]
  todoTags := [⟨1, 1⟩]

theorem taggedBoard_keys : TodoKeys taggedBoard := ⟨by decide, by decide⟩

/-- An edit that keeps everything. -/
def keepAll : UpdateTodoInput :=
  { keepTitle := true, keepBody := true, keepTags := true, keepEstimationPoints := true
    keepAssigneeUserID := true }

def titleEdit : UpdateTodoInput := { keepAll with keepTitle := false, title := "b" }

def bodyEdit : UpdateTodoInput := { keepAll with keepBody := false, body := "text" }

/-- The database after an edit; one that fails leaves it alone. -/
def DB.afterEdit (rt : Runtime) (ctx : Ctx) (db : DB) (todoID : ℤ) (input : UpdateTodoInput) : DB :=
  ((updateTodo rt ctx db todoID input).toOption.map Prod.fst).getD db

theorem updateTodo_afterEdit {rt : Runtime} {ctx : Ctx} {db : DB} {todoID : ℤ} {input : UpdateTodoInput}
    (h : (updateTodo rt ctx db todoID input).isOk = true) :
    ∃ todo, updateTodo rt ctx db todoID input = .ok (db.afterEdit rt ctx todoID input, todo) := by
  obtain ⟨⟨db', todo⟩, hok⟩ := exists_of_isOk h
  refine ⟨todo, ?_⟩
  rw [DB.afterEdit, hok]
  rfl

/-- The owner of the tag changes the title and the body. -/
theorem updateTodo_frame_owner :
    ∃ db₁ db₂ db₁₂ db₂₁ t₁ t₁₂ t₂₁,
      BothWays plainRuntime ⟨some 1, 5⟩ ⟨some 1, 8⟩ ⟨some 1, 6⟩ ⟨some 1, 7⟩ 1
        titleEdit bodyEdit taggedBoard db₁ db₂ db₁₂ db₂₁ ∧
      getTodo db₁₂ 1 = .ok t₁₂ ∧ getTodo db₂₁ 1 = .ok t₂₁ ∧ t₁₂.state db₁₂ = t₂₁.state db₂₁ ∧
      ∃ t, getTodo taggedBoard 1 = .ok t ∧ getTodo db₁ 1 = .ok t₁ ∧
        KeepsUnnamed taggedBoard db₁ t t₁ titleEdit := by
  have hways : BothWays plainRuntime ⟨some 1, 5⟩ ⟨some 1, 8⟩ ⟨some 1, 6⟩ ⟨some 1, 7⟩ 1
      titleEdit bodyEdit taggedBoard _ _ _ _ :=
    ⟨updateTodo_afterEdit (by decide +kernel), updateTodo_afterEdit (by decide +kernel),
      updateTodo_afterEdit (by decide +kernel), updateTodo_afterEdit (by decide +kernel), rfl, rfl,
      by decide +kernel, by decide +kernel, by decide +kernel, by decide +kernel⟩
  obtain ⟨todo, hfirst⟩ := hways.first
  obtain ⟨t, p, t₁, hget, _, hget₁, _⟩ := updateTodo_writes hfirst
  obtain ⟨_, _, t₁₂, _, _, hget₁₂, _⟩ := updateTodo_writes hways.first_second.choose_spec
  obtain ⟨_, _, t₂₁, _, _, hget₂₁, _⟩ := updateTodo_writes hways.second_first.choose_spec
  refine ⟨_, _, _, _, t₁, t₁₂, t₂₁, hways, hget₁₂, hget₂₁, ?_, t, hget, hget₁, ?_⟩
  · refine (updateTodo_frame taggedBoard_keys).2 _ _ _ _ _ _ _ _ _ _ _ _ _ hways ?_ hget₁₂ hget₂₁
    intro f
    cases f with
    | _ => simp [UpdateTodoInput.Names, titleEdit, bodyEdit, keepAll]
  · exact ((updateTodo_frame taggedBoard_keys).1 _ _ _ _ _ _ _ hfirst hget hget₁).mpr hways.kept₁

/-- The other maintainer changes the title and keeps the tags: the todo gets a tag of
theirs in place of the one that it had. -/
theorem updateTodo_retags :
    ∃ db' todo t t', TodoKeys taggedBoard ∧
      updateTodo plainRuntime ⟨some 2, 5⟩ taggedBoard 1 titleEdit = .ok (db', todo) ∧
      getTodo taggedBoard 1 = .ok t ∧ getTodo db' 1 = .ok t' ∧
      ¬ KeepsUnnamed taggedBoard db' t t' titleEdit := by
  have hisOk : (updateTodo plainRuntime ⟨some 2, 5⟩ taggedBoard 1 titleEdit).isOk = true := by
    decide +kernel
  obtain ⟨todo, hok⟩ := updateTodo_afterEdit hisOk
  obtain ⟨t, _, t', hget, _, hget', _⟩ := updateTodo_writes hok
  refine ⟨_, todo, t, t', taggedBoard_keys, hok, hget, hget', fun hkeeps => ?_⟩
  have htags := FieldState.tagIDs.inj (hkeeps .tags (by simp [UpdateTodoInput.Names, titleEdit, keepAll]))
  rw [(getTodo_eq_ok hget).2, (getTodo_eq_ok hget').2] at htags
  have hbefore : (1 : ℤ) ∈ attachedTags taggedBoard 1 := List.mem_singleton.mpr rfl
  rw [← htags] at hbefore
  have hafter : ⟨1, 1⟩ ∉ (taggedBoard.afterEdit plainRuntime ⟨some 2, 5⟩ 1 titleEdit).todoTags := by
    decide +kernel
  exact hafter hbefore

end Scrumboy
