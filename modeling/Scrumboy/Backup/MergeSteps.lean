import Scrumboy.Backup.Activities
import Scrumboy.Store.WorkflowShape

/-!
# A merge project by project

As long as no project of a merge matches one that the same merge made, every project of
the backup finds its destination as it was before the merge. An invariant is carried
through such a merge with the database before it in view.
-/

set_option linter.dupNamespace false

namespace Scrumboy

open Go Sql

/-- The todos and the columns of a project are the same in two databases. -/
structure SameBoard (q : ℤ) (db db' : DB) : Prop where
  todos : ∀ t : TodoRow, t.projectID = q → (t ∈ db'.todos ↔ t ∈ db.todos)
  columns : db'.columnsOf q = db.columnsOf q

section

variable {q : ℤ} {db db₁ db' : DB} {p : ProjectExport}

theorem SameBoard.refl (q : ℤ) (db : DB) : SameBoard q db db := ⟨fun _ _ => Iff.rfl, rfl⟩

theorem SameBoard.trans (h : SameBoard q db db₁) (h' : SameBoard q db₁ db') : SameBoard q db db' :=
  ⟨fun t ht => (h'.todos t ht).trans (h.todos t ht), h'.columns.trans h.columns⟩

theorem ContentOnly.sameBoard (h : ContentOnly db db') : SameBoard q db db' :=
  ⟨fun t _ => by rw [h.todos], by rw [DB.columnsOf, h.columns, DB.columnsOf]⟩

/-! ## Settings -/

theorem foldl_insertOrIgnoreColumn_other {projectID : ℤ} (hq : q ≠ projectID)
    (cols : List WorkflowColumn) (db : DB) :
    (cols.foldl (insertOrIgnoreColumn projectID) db).columnsOf q = db.columnsOf q := by
  induction cols generalizing db with
  | nil => rfl
  | cons col cols ih =>
      rw [List.foldl_cons, ih]
      unfold insertOrIgnoreColumn
      split
      · rfl
      · rw [appendColumn_columnsOf, if_neg hq, List.append_nil]

theorem replaceWorkflow_other {projectID : ℤ} (hq : q ≠ projectID)
    (h : replaceWorkflow db projectID p = .ok db') : db'.columnsOf q = db.columnsOf q := by
  obtain ⟨new, hdb, hnew, _⟩ := insertWorkflowColumns_spec h
  rw [columnsOf_append (fun c hc => (hnew c hc).1) hdb, if_neg hq, List.append_nil]
  apply filter_deleteWhere
  intro c _ hc
  rw [beq_iff_eq] at hc
  exact beq_eq_false_iff_ne.mpr (hc ▸ hq)

theorem importWorkflow_other {projectID : ℤ} (hq : q ≠ projectID)
    (h : importWorkflow db projectID p = .ok db') : db'.columnsOf q = db.columnsOf q := by
  unfold importWorkflow at h
  split at h
  · exact replaceWorkflow_other hq h
  · simp only [ensureDefaultWorkflowColumns, bind_eq_ok, pure_eq_ok] at h
    obtain ⟨_, _, rfl⟩ := h
    exact foldl_insertOrIgnoreColumn_other hq _ db

theorem mergeWorkflow_other {projectID : ℤ} (hq : q ≠ projectID)
    (h : mergeWorkflow db projectID p = .ok db') : db'.columnsOf q = db.columnsOf q := by
  unfold mergeWorkflow at h
  split at h
  · exact replaceWorkflow_other hq h
  · exact pure_eq_ok.mp h ▸ rfl

theorem Founds.sameBoard {face : ProjectFace} (h : Founds p face db db') (hq : q ≠ face.id) :
    SameBoard q db db' := by
  refine ⟨fun t _ => by rw [h.todos], ?_⟩
  obtain ⟨projects, members, db₁, db₂, sprints, _, _, _, hworkflow, htiers, hdb⟩ := h
  have hcolumns : db'.columns = db₁.columns := by
    rw [hdb]
    exact (replaceProjectPriorityTiersFromExport_prioritiesOnly htiers).columns
  have hother := importWorkflow_other hq hworkflow
  rw [DB.columnsOf, hcolumns]
  exact hother

theorem Rewrites.sameBoard {projectID : ℤ} (h : Rewrites p projectID db db') (hq : q ≠ projectID) :
    SameBoard q db db' := by
  refine ⟨fun t _ => by rw [h.todos], ?_⟩
  obtain ⟨projects, db₁, db₂, sprints, _, _, hworkflow, htiers, hdb⟩ := h
  have hcolumns : db'.columns = db₁.columns := by
    rw [hdb]
    exact (mergePriorities_prioritiesOnly htiers).columns
  have hother := mergeWorkflow_other hq hworkflow
  rw [DB.columnsOf, hcolumns]
  exact hother

end

/-! ## Todos -/

section

variable {projectID q : ℤ} {s s' : TodoScan} {t : TodoExport} {u : TodoRow} (hq : q ≠ projectID)

include hq

theorem LandsOn.sameBoard (hon : LandsOn projectID s s' t u) (htable : TodoTable s.db) :
    SameBoard q s.db s'.db := by
  refine ⟨fun v hv => ?_, by rw [DB.columnsOf, hon.boards.1, DB.columnsOf]⟩
  rw [hon.mem_todos htable]
  constructor
  · rintro (⟨_, rfl, _⟩ | ⟨hmem, _⟩)
    · exact absurd (hv.symm.trans hon.projectID_eq) hq
    · exact hmem
  · intro hmem
    refine .inr ⟨hmem, fun hid => ?_⟩
    rw [htable.eq_of_id hmem hon.mem hid, hon.projectID_eq] at hv
    exact hq hv.symm

theorem LandsNew.sameBoard (hnew : LandsNew projectID s s' t u) : SameBoard q s.db s'.db := by
  refine ⟨fun v hv => ?_, by rw [DB.columnsOf, hnew.boards.1, DB.columnsOf]⟩
  rw [hnew.todos, List.mem_append]
  refine or_iff_left fun hmem => ?_
  rw [List.mem_singleton.mp hmem, hnew.projectID_eq] at hv
  exact hq hv.symm

theorem LandsAll.sameBoard {todos : List TodoExport} (h : LandsAll projectID todos s s')
    (htable : TodoTable s.db) (hproject : projectID ∈ s.db.projects.map (·.id)) :
    SameBoard q s.db s'.db := by
  induction h with
  | nil s => exact .refl q s.db
  | cons hfirst _ ih =>
      refine SameBoard.trans ?_ (ih (hfirst.todoTable htable hproject)
        (hfirst.keepsSettings.projects ▸ hproject))
      rcases hfirst.lands with ⟨u, hon⟩ | ⟨u, hnew⟩
      · exact hon.sameBoard hq htable
      · exact hnew.sameBoard hq

end

/-! ## One project of a merge -/

/-- The project `projectID` gets its settings, and then the todos of the backup are
merged into it. -/
inductive Merges (rt : Runtime) (ctx : Ctx) (p : ProjectExport) (projectID : ℤ) (W : DB → Prop)
    (db' : DB) : Prop
  | intro (db₁ : DB) (sprintID : ℤ → Option ℤ) (r : ImportResult) (scan : TodoScan)
      (hsettings : W db₁) (htodos : mergeTodos rt ctx db₁ projectID sprintID p.todos r = .ok scan)
      (hcontent : ContentOnly scan.db db')

/-- What a merge that started from `db₀` does with one project of the backup: it merges
into the project that matched before, or into a new one. -/
inductive MergeStep (rt : Runtime) (ctx : Ctx) (selected : Selector) (p : ProjectExport)
    (db₀ db db' : DB) : Prop
  | found (row : ProjectRow) (hfind : findProject db₀ selected p.slug = some row)
      (hproject : row.id ∈ db.projects.map (·.id)) (hsame : SameBoard row.id db₀ db)
      (h : Merges rt ctx p row.id (Rewrites p row.id db) db')
  | new (hfind : findProject db₀ selected p.slug = none) (face : ProjectFace)
      (h : Merges rt ctx p face.id (Founds p face db) db')

/-- A merge that started from `db₀`, with the projects `rest` to go. -/
structure MergeWalk (db₀ : DB) (selected : Selector) (rest : List (ProjectExport × ℕ))
    (created : List String) (db : DB) : Prop where
  progress : Progress db₀ created db
  pending : ∀ qj ∈ rest, ∀ row, findProject db₀ selected qj.1.slug = some row →
    SameBoard row.id db₀ db

section

variable {rt : Runtime} {ctx : Ctx} {p : ProjectExport} {db₀ db db' : DB}
  {created : List String} {selected : Selector} {projectID : ℤ} {draws : ℕ → ProjectDraws} {i : ℕ}
  {rest : List (ProjectExport × ℕ)} {s s' : ImportTx × List ℤ}

theorem mergeTodos_keepsProjects {sprintID : ℤ → Option ℤ} {todos : List TodoExport}
    {s s' : TodoScan} (h : todos.foldlM (mergeTodo rt ctx projectID sprintID) s = .ok s') :
    KeepsProjects s.db s'.db := by
  refine foldlM_inv (P := fun s' => KeepsProjects s.db s'.db) (fun s₁ t s₂ _ hs hstep => ?_)
    ⟨rfl, rfl⟩ h
  refine hs.trans ?_
  rcases mergeTodo_cases hstep with ⟨u, _, hon⟩ | ⟨u, _, hnew, _⟩
  · obtain ⟨_, htags⟩ := hon.tables
    exact ⟨by simp only [DB.faces, htags.contentOnly.projects], htags.contentOnly.members⟩
  · exact ⟨by simp only [DB.faces, hnew.tables.contentOnly.projects], hnew.tables.contentOnly.members⟩

theorem Merges.brings {W : DB → Prop} (h : Merges rt ctx p projectID W db') :
    Brings p projectID W db' := by
  obtain ⟨db₁, sprintID, r, scan, hsettings, htodos, hcontent⟩ := h
  exact ⟨db₁, r, scan, hsettings, landsAll_of_foldlM (fun _ _ _ => mergeTodo_lands) htodos, hcontent⟩

/-- The boards of other projects after the todos of one project were merged. -/
theorem Merges.sameBoard {W : DB → Prop} (h : Merges rt ctx p projectID W db') {q : ℤ}
    (hq : q ≠ projectID)
    (hW : ∀ db₁, W db₁ → SameBoard q db db₁ ∧ TodoTable db₁ ∧ projectID ∈ db₁.projects.map (·.id)) :
    SameBoard q db db' := by
  obtain ⟨db₁, sprintID, r, scan, hsettings, htodos, hcontent⟩ := h
  obtain ⟨hsame, htable, hproject⟩ := hW db₁ hsettings
  have hall := landsAll_of_foldlM (fun _ _ _ => mergeTodo_lands) htodos
  exact (hsame.trans (hall.sameBoard hq htable hproject)).trans hcontent.sameBoard

/-- The rest of a merge is as it was after one project. -/
theorem MergeWalk.pending_of_step (projectID : ℤ) (hnodup : (db₀.projects.map (·.id)).Nodup)
    (h : MergeWalk db₀ selected ((p, i) :: rest) created db)
    (hslugs : ∀ qj ∈ rest, qj.1.slug ≠ p.slug)
    (hid : projectID ∉ db₀.projects.map (·.id) ∨
      ∃ row, findProject db₀ selected p.slug = some row ∧ row.id = projectID)
    (hsame : ∀ q, q ≠ projectID → SameBoard q db db') :
    ∀ qj ∈ rest, ∀ row, findProject db₀ selected qj.1.slug = some row → SameBoard row.id db₀ db' := by
  intro qj hqj row hrow
  refine (h.pending qj (List.mem_cons_of_mem _ hqj) row hrow).trans (hsame row.id ?_)
  obtain ⟨hmem, hslug⟩ := findProject_eq_some hrow
  rcases hid with hfresh | ⟨row', hrow', rfl⟩
  · rintro rfl
    exact hfresh (List.mem_map_of_mem hmem)
  · intro heq
    obtain ⟨hmem', hslug'⟩ := findProject_eq_some hrow'
    obtain rfl := List.inj_on_of_nodup_map hnodup hmem hmem' heq
    exact hslugs qj hqj (hslug.symm.trans hslug')

theorem MergeWalk.mergeProject (hnodup : (db₀.projects.map (·.id)).Nodup) (hlocal : IsLocal selected)
    (h : MergeWalk db₀ selected ((p, i) :: rest) created s.1.db) (hchecked : ProjectChecked p)
    (htable : TodoTable s.1.db) (hslugs : ∀ qj ∈ rest, qj.1.slug ≠ p.slug)
    (hcapture : findProject db₀ selected p.slug = none → p.slug ∉ created)
    (hok : Scrumboy.mergeProject rt ctx draws selected s (p, i) = .ok s') :
    MergeStep rt ctx selected p db₀ s.1.db s'.1.db ∧
    (((findProject db₀ selected p.slug).isSome = true ∧
      MergeWalk db₀ selected rest created s'.1.db ∧
      s'.1.db.faces.map (·.slug) = s.1.db.faces.map (·.slug)) ∨
    (findProject db₀ selected p.slug = none ∧ ∃ slug,
      newSlug (s.1.db.faces.map (·.slug)) (mergeSlugCandidates p (draws i)) = some slug ∧
      MergeWalk db₀ selected rest (created ++ [slug]) s'.1.db ∧
      s'.1.db.faces.map (·.slug) = s.1.db.faces.map (·.slug) ++ [slug])) := by
  obtain ⟨db₁, projectID, sprintID, r, scan, htarget, htodos, hcontent, _⟩ := mergeProject_writes hok
  have hloop := mergeTodos_keepsProjects htodos
  have hfaces : s'.1.db.faces = scan.db.faces := by
    simp only [DB.faces, hcontent.projects]
  rcases htarget with ⟨row', hfind', rfl, hrewrites⟩ | ⟨face, hfind', rfl, hslug, _, hfounds⟩
  · cases hfind : findProject db₀ selected p.slug with
    | none =>
        have hnone := (h.progress.findProject hlocal p.slug).2 hfind (hcapture hfind)
        rw [hnone] at hfind'
        cases hfind'
    | some row =>
        obtain ⟨row'', hrow'', hface⟩ := (h.progress.findProject hlocal p.slug).1 row hfind
        rw [hrow''] at hfind'
        obtain rfl := Option.some.inj hfind'
        have hid : row''.id = row.id := congrArg ProjectFace.id hface
        rw [hid] at hrewrites htodos
        have hproject := h.progress.mem_projects
          (List.mem_map_of_mem (f := fun p : ProjectRow => p.id) (findProject_eq_some hfind).1)
        have hmerges : Merges rt ctx p row.id (Rewrites p row.id s.1.db) s'.1.db :=
          ⟨db₁, sprintID, r, scan, hrewrites, htodos, hcontent⟩
        have hkeep := (hrewrites.setsUp hchecked.columnKey).2
        refine ⟨.found row hfind hproject (h.pending (p, i) List.mem_cons_self row hfind) hmerges,
          .inl ⟨rfl, ⟨?_, ?_⟩, ?_⟩⟩
        · exact ((h.progress.keeps hkeep).keeps hloop).content hcontent
        · refine h.pending_of_step row.id hnodup hslugs (.inr ⟨row, hfind, rfl⟩) fun q hq => ?_
          refine hmerges.sameBoard hq fun db₂ hdb₂ => ⟨hdb₂.sameBoard hq, hdb₂.todoTable htable, ?_⟩
          exact hdb₂.projectIDs ▸ hproject
        · rw [hfaces, hloop.faces, hkeep.faces]
  · have hfind : findProject db₀ selected p.slug = none := by
      cases hfind : findProject db₀ selected p.slug with
      | none => rfl
      | some row =>
          obtain ⟨row'', hrow'', _⟩ := (h.progress.findProject hlocal p.slug).1 row hfind
          rw [hrow''] at hfind'
          cases hfind'
    have hmerges : Merges rt ctx p face.id (Founds p face s.1.db) s'.1.db :=
      ⟨db₁, sprintID, r, scan, hfounds, htodos, hcontent⟩
    have hadds := (hfounds.setsUp hchecked.columnKey).2
    refine ⟨.new hfind face hmerges, .inr ⟨hfind, face.slug, firstFreeSlug_eq_ok hslug, ⟨?_, ?_⟩, ?_⟩⟩
    · exact ((h.progress.adds hadds).keeps hloop).content hcontent
    · refine h.pending_of_step face.id hnodup hslugs (.inl fun hmem => ?_) fun q hq => ?_
      · exact hadds.fresh (h.progress.mem_projects hmem) rfl
      · refine hmerges.sameBoard hq fun db₂ hdb₂ =>
          ⟨hdb₂.sameBoard hq, hdb₂.todoTable htable, ?_⟩
        rw [hdb₂.projectIDs.2]
        exact List.mem_append_right _ List.mem_cons_self
    · rw [hfaces, hloop.faces, hadds.faces, List.map_append, List.map_singleton]

/-- An invariant that every step keeps holds after the projects of a merge. -/
theorem MergeWalk.inv {I : DB → Prop} (hnodup : (db₀.projects.map (·.id)).Nodup)
    (hlocal : IsLocal selected) (htable : ∀ db, I db → TodoTable db)
    {l : List (ProjectExport × ℕ)}
    (hstep : ∀ pi ∈ l, ∀ db db', I db → MergeStep rt ctx selected pi.1 db₀ db db' → I db')
    (h : MergeWalk db₀ selected l created s.1.db) (hs : I s.1.db)
    (hchecked : ∀ pi ∈ l, ProjectChecked pi.1) (hslugs : (l.map (·.1.slug)).Nodup)
    (hcapture : NoCapture (fun slug => (findProject db₀ selected slug).isSome) draws
      (s.1.db.faces.map (·.slug)) created l)
    (hok : l.foldlM (Scrumboy.mergeProject rt ctx draws selected) s = .ok s') : I s'.1.db := by
  induction l generalizing s created with
  | nil =>
      rw [List.foldlM_nil, pure_eq_ok] at hok
      exact hok ▸ hs
  | cons pi l ih =>
      obtain ⟨p, i⟩ := pi
      rw [List.foldlM_cons, bind_eq_ok] at hok
      obtain ⟨s₁, hfirst, hrest⟩ := hok
      rw [List.map_cons, List.nodup_cons] at hslugs
      have hother : ∀ qj ∈ l, qj.1.slug ≠ p.slug :=
        fun qj hqj heq => hslugs.1 (List.mem_map.mpr ⟨qj, hqj, heq⟩)
      have hfree : findProject db₀ selected p.slug = none → p.slug ∉ created := by
        intro hnone
        rw [NoCapture, if_neg (by simp [hnone])] at hcapture
        exact hcapture.1
      obtain ⟨hmerged, hnext⟩ := h.mergeProject hnodup hlocal (hchecked _ List.mem_cons_self)
        (htable _ hs) hother hfree hfirst
      have hs₁ : I s₁.1.db := hstep _ List.mem_cons_self _ _ hs hmerged
      have hstep' := fun qj hqj => hstep qj (List.mem_cons_of_mem _ hqj)
      have hchecked' := fun qj hqj => hchecked qj (List.mem_cons_of_mem _ hqj)
      rcases hnext with ⟨hsome, hwalk, hfaces⟩ | ⟨hnone, slug, hslug, hwalk, hfaces⟩
      · refine ih hstep' hwalk hs₁ hchecked' hslugs.2 ?_ hrest
        rw [NoCapture, if_pos hsome] at hcapture
        rwa [hfaces]
      · refine ih hstep' hwalk hs₁ hchecked' hslugs.2 ?_ hrest
        rw [NoCapture, if_neg (by simp [hnone]), hslug] at hcapture
        rw [hfaces]
        exact hcapture.2

/-- An invariant that every step keeps, seen from the database before the merge, holds
after a merge in which no project matches a new one. -/
theorem importMerge_walk {I : DB → Prop} {data : ExportData} {r : ImportResult}
    (hnodup : (db.projects.map (·.id)).Nodup) (htable : ∀ db, I db → TodoTable db)
    (hchecked : BackupChecked .merge data)
    (hselected : exportableProjectsSelector ctx db .full = .ok selected)
    (hcapture : NoCapture (fun slug => (findProject db selected slug).isSome) draws
      (db.faces.map (·.slug)) [] data.projects.zipIdx)
    (hstep : ∀ p ∈ data.projects, ∀ db₁ db₂, I db₁ → MergeStep rt ctx selected p db db₁ db₂ → I db₂)
    (hdb : I db) (hok : importMerge rt ctx draws db data = .ok (db', r)) : I db' := by
  simp only [importMerge, bind_eq_ok, pure_eq_ok, Prod.mk.injEq] at hok
  obtain ⟨selected', hselected', _, _, ⟨tx, ids⟩, hfold, _, _, rfl, _⟩ := hok
  obtain rfl : selected = selected' := by
    rw [hselected] at hselected'
    exact Except.ok.inj hselected'
  obtain ⟨hslugs, hslug⟩ := hchecked.slugs rfl
  have hwalk : MergeWalk db selected data.projects.zipIdx [] db :=
    ⟨.refl db, fun _ _ _ _ => .refl _ _⟩
  refine hwalk.inv (s := (⟨db, {}⟩, [])) hnodup
    (exportableProjectsSelector_isLocal hselected) htable ?_ hdb ?_ ?_ hcapture hfold
  · exact fun pi hpi => hstep pi.1 (List.fst_mem_of_mem_zipIdx hpi)
  · exact fun pi hpi => hchecked.project _ (List.fst_mem_of_mem_zipIdx hpi)
  · have hmap : data.projects.zipIdx.map (·.1.slug) = data.projects.map (·.slug) := by
      rw [← List.zipIdx_map_fst 0 data.projects, List.map_map, List.zipIdx_map_fst]
      rfl
    rw [hmap]
    refine List.Nodup.of_map (fun slug => toLower (trimSpace slug)) ?_
    rwa [List.map_map]

end

end Scrumboy
