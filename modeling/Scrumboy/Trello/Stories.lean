import Scrumboy.Trello.Landing
import Scrumboy.Backup.Tagging

/-!
# The stories of a Trello board

The stories of a board that is accepted are inserted one by one into a new project. Nothing
stops them but the names of their tags.
-/

set_option linter.dupNamespace false

namespace Scrumboy

open Go Sql

section

variable {rt : Runtime} {ctx : Ctx} {db db' : DB} {projectID : ℤ} {isAnonymousBoard : Bool}
  {tagUser : Option (Option ℤ)}

/-- A story whose status names a column of the project. -/
structure Insertable (projectID : ℤ) (db : DB) (t : TodoExport) : Prop where
  points : t.estimationPoints = none
  lane : (resolveImportColumnKey db projectID t.status).2 = false

theorem Insertable.congr {t : TodoExport} (h : Insertable projectID db t) (hcolumns : db'.columns = db.columns) :
    Insertable projectID db' t :=
  ⟨h.points, by rw [resolveImportColumnKey_congr hcolumns]; exact h.lane⟩

theorem insertTodo_of_free {t : TodoRow} {e : StoreError}
    (hfree : ∀ u ∈ db.todos, u.projectID = t.projectID → u.localID ≠ t.localID) :
    insertTodo db t e = .ok ({ db with todos := db.todos ++ [{ t with id := nextRowid (db.todos.map (·.id)) }] },
      { t with id := nextRowid (db.todos.map (·.id)) }) := by
  have hnone : ¬ ∃ u ∈ db.todos, u.projectID = t.projectID ∧ u.localID = t.localID := by
    rintro ⟨u, hu, hp, hl⟩
    exact hfree u hu hp hl
  rw [insertTodo, reject_bind_of_not hnone]
  rfl

/-- The row that a story becomes. -/
def trelloRow (db : DB) (projectID : ℤ) (t : TodoExport) : TodoRow :=
  { importRow db projectID t.localID (resolveImportColumnKey db projectID t.status).1 t.rank none t with
    assigneeUserID := none
    priorityKey := none
    dueAt := none
    id := nextRowid (db.todos.map (·.id)) }

/-- The database with the row of a story. -/
def withTrelloRow (db : DB) (projectID : ℤ) (t : TodoExport) : DB :=
  { db with todos := db.todos ++ [trelloRow db projectID t] }

/-- What is left to do for a story is to write its tags. -/
theorem importTrelloTodo_eq {t : TodoExport} (hok : Insertable projectID db t)
    (hfree : ∀ u ∈ db.todos, u.projectID = projectID → u.localID ≠ t.localID) :
    importTrelloTodo rt ctx projectID db t =
      importTodoTags rt ctx (withTrelloRow db projectID t) projectID (trelloRow db projectID t).id t.tags := by
  have hpoints : ¬ ∃ v ∈ t.estimationPoints, v ∉ estimationScale := by simp [hok.points]
  have hlane : ¬ (resolveImportColumnKey db projectID t.status).2 = true := by simp [hok.lane]
  rw [importTrelloTodo, validateEstimationPoints, reject_bind_of_not hpoints]
  dsimp only
  rw [reject_bind_of_not hlane, insertTodo_of_free fun u hu hp hl => hfree u hu hp hl, ok_bind]
  rfl

/-- A story is only added to the stories, and its tags to the tags. -/
theorem importTrelloTodo_quiet {t : TodoExport} (h : importTrelloTodo rt ctx projectID db t = .ok db') :
    db'.projects = db.projects ∧ db'.users = db.users ∧ db'.columns = db.columns := by
  simp only [importTrelloTodo, bind_eq_ok, reject_eq_ok] at h
  obtain ⟨_, _, _, _, ⟨db₁, u⟩, hinsert, htags⟩ := h
  obtain ⟨_, _, rfl⟩ := insertTodo_eq_ok hinsert
  obtain ⟨_, _, _, _, rfl⟩ := (importTodoTags_tagsOnly htags).exists_eq
  exact ⟨rfl, rfl, rfl⟩

theorem importTrelloTodo_spec (hstable : CanonicalStable rt) {t : TodoExport}
    (hto : TagsGoTo ctx projectID isAnonymousBoard tagUser db) (hok : Insertable projectID db t)
    (hfree : ∀ u ∈ db.todos, u.projectID = projectID → u.localID ≠ t.localID)
    (hrefs : ∀ r ∈ db.todoTags, r.todoID ∈ db.todos.map (·.id))
    (hnames : tagUser.isSome = true → NormalTags rt t.tags) :
    ∃ db', importTrelloTodo rt ctx projectID db t = .ok db' ∧
      StoriesTagged rt (importOwned projectID isAnonymousBoard tagUser) tagUser.isSome [t.tags] db db'
        [trelloRow db projectID t] := by
  have hnew : ∀ r ∈ (withTrelloRow db projectID t).todoTags, r.todoID ≠ (trelloRow db projectID t).id := by
    intro r hr heq
    exact nextRowid_not_mem _ (heq ▸ hrefs r hr)
  have hto' : TagsGoTo ctx projectID isAnonymousBoard tagUser (withTrelloRow db projectID t) := hto.congr rfl rfl
  obtain ⟨db', htags, hgrows, hfound, hlinks⟩ := importTodoTags_spec hstable hto' hnames hnew
  have htodos : db'.todos = db.todos ++ [trelloRow db projectID t] := by
    obtain ⟨_, _, _, _, rfl⟩ := (importTodoTags_tagsOnly htags).exists_eq
    rfl
  refine ⟨db', (importTrelloTodo_eq hok hfree).trans htags, ⟨htodos, rfl, fun hids => ?_, ?_, ?_, fun r => ?_⟩⟩
  · rw [htodos, List.map_append]
    exact nodup_concat_nextRowid hids
  · exact ⟨hgrows.kept, hgrows.ids⟩
  · simpa using hfound
  · rw [hlinks]
    simp [withTrelloRow]

/-- The stories of a project without stories: the tables after all of them. -/
theorem importTrelloTodos_spec (hstable : CanonicalStable rt) {todos : List TodoExport}
    (hto : TagsGoTo ctx projectID isAnonymousBoard tagUser db) (hok : ∀ t ∈ todos, Insertable projectID db t)
    (hlocal : (todos.map (·.localID)).Nodup)
    (hfree : ∀ u ∈ db.todos, u.projectID = projectID → u.localID ∉ todos.map (·.localID))
    (hrefs : ∀ r ∈ db.todoTags, r.todoID ∈ db.todos.map (·.id))
    (hnames : tagUser.isSome = true → ∀ t ∈ todos, NormalTags rt t.tags) :
    ∃ db' rows, todos.foldlM (importTrelloTodo rt ctx projectID) db = .ok db' ∧
      StoriesTagged rt (importOwned projectID isAnonymousBoard tagUser) tagUser.isSome (todos.map (·.tags)) db db'
        rows := by
  induction todos generalizing db with
  | nil => exact ⟨db, [], rfl, .nil db⟩
  | cons t todos ih =>
      obtain ⟨hokt, hok⟩ := List.forall_mem_cons.mp hok
      rw [List.map_cons] at hlocal hfree
      obtain ⟨hnot, hlocal⟩ := List.nodup_cons.mp hlocal
      obtain ⟨db₁, hstep, htagged⟩ := importTrelloTodo_spec hstable hto hokt
        (fun u hu hp heq => hfree u hu hp (heq ▸ List.mem_cons_self)) hrefs
        (fun hsome => hnames hsome t List.mem_cons_self)
      obtain ⟨hprojects, husers, hcolumns⟩ := importTrelloTodo_quiet hstep
      have hfree₁ : ∀ u ∈ db₁.todos, u.projectID = projectID → u.localID ∉ todos.map (·.localID) := by
        intro u hu hp hmem
        rw [htagged.todos] at hu
        rcases List.mem_append.mp hu with hold | hnew
        · exact hfree u hold hp (List.mem_cons_of_mem _ hmem)
        · rw [List.mem_singleton.mp hnew] at hmem
          exact hnot hmem
      obtain ⟨db', rows, hloop, htagged'⟩ := ih (hto.congr hprojects husers) (fun t ht => (hok t ht).congr hcolumns)
        hlocal hfree₁ (htagged.refs hrefs) fun hsome t ht => hnames hsome t (List.mem_cons_of_mem _ ht)
      refine ⟨db', trelloRow db projectID t :: rows, ?_, htagged.append htagged'⟩
      rw [List.foldlM_cons, hstep]
      exact hloop

/-- Every story of an import has names that can be tags. -/
theorem normalTags_of_importTrelloTodos {userID : Option ℤ} {todos : List TodoExport}
    (hto : TagsGoTo ctx projectID isAnonymousBoard (some userID) db)
    (h : todos.foldlM (importTrelloTodo rt ctx projectID) db = .ok db') : ∀ t ∈ todos, NormalTags rt t.tags := by
  induction todos generalizing db with
  | nil => simp
  | cons t todos ih =>
      rw [List.foldlM_cons, bind_eq_ok] at h
      obtain ⟨db₁, hstep, hrest⟩ := h
      obtain ⟨hprojects, husers, _⟩ := importTrelloTodo_quiet hstep
      refine List.forall_mem_cons.mpr ⟨?_, ih (hto.congr hprojects husers) hrest⟩
      simp only [importTrelloTodo, bind_eq_ok, reject_eq_ok] at hstep
      obtain ⟨_, _, _, _, ⟨db₂, u⟩, hinsert, htags⟩ := hstep
      obtain ⟨_, _, rfl⟩ := insertTodo_eq_ok hinsert
      have hto₂ : TagsGoTo ctx projectID isAnonymousBoard (some userID) { db with todos := db.todos ++ [u] } :=
        hto.congr rfl rfl
      exact normalTags_of_importTodoTags hto₂ htags

end

end Scrumboy
