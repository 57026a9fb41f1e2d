import Scrumboy.Backup.Import

/-!
# Where the todos of a backup land

One todo of a backup either lands on a todo that is there, which it updates, or
becomes a new row. The import modes differ in when they do which and in the local
id of a new row; the two outcomes themselves, `LandsOn` and `LandsNew`, are the same
for all of them, and say everything that a step does to the database apart from tags.
-/

namespace Scrumboy

open Go Sql

/-! ## Tags -/

section

variable {rt : Runtime} {ctx : Ctx} {db db' : DB} {projectID : ℤ}

theorem importTodoTags_tagsOnly {todoID : ℤ} {tagNames : List String}
    (h : importTodoTags rt ctx db projectID todoID tagNames = .ok db') : TagsOnly db db' := by
  simp only [importTodoTags, bind_eq_ok] at h
  obtain ⟨p, _, user, _, h⟩ := h
  cases user with
  | none => exact pure_eq_ok.mp h ▸ .refl db
  | some userID =>
      simp only [bind_eq_ok] at h
      obtain ⟨tags, _, h⟩ := h
      exact setTodoTags_tagsOnly h

theorem setUserTagColor_tagsOnly (db : DB) (userID tagID : ℤ) (color : String) :
    TagsOnly db (setUserTagColor db userID tagID color) := by
  unfold setUserTagColor
  split <;> rfl

theorem setTagColor_tagsOnly (db : DB) (userID tagID : ℤ) (color : Option String) :
    TagsOnly db (setTagColor db userID tagID color) := by
  cases color with
  | none => exact .refl db
  | some color =>
      unfold setTagColor
      dsimp only
      split
      · exact .refl db
      · exact setUserTagColor_tagsOnly db userID tagID color

theorem importBoardTag_tagsOnly (ctx : Ctx) (db : DB) (projectID : ℤ) (name : String)
    (color : Option String) : TagsOnly db (importBoardTag ctx db projectID name color).1 := by
  unfold importBoardTag
  split
  · exact appendTag_tagsOnly db _
  · split
    · exact .refl db
    · split
      · exact .refl db
      · rfl

theorem importUserTag_tagsOnly {userID : Option ℤ} {name : String} {color : Option String}
    {out : DB × ℤ} (h : importUserTag rt ctx db userID name color = .ok out) :
    TagsOnly db out.1 := by
  cases userID with
  | none => cases h
  | some userID =>
      simp only [importUserTag, bind_eq_ok, pure_eq_ok] at h
      obtain ⟨⟨db₁, tagID⟩, hget, rfl⟩ := h
      exact (getOrCreateTag_tagsOnly hget).trans (setTagColor_tagsOnly db₁ userID tagID color)

theorem importTagRow_tagsOnly {p : ProjectRow} {userID : Option ℤ} {name : String}
    {color : Option String} {out : DB × ℤ}
    (h : importTagRow rt ctx db p userID name color = .ok out) : TagsOnly db out.1 := by
  unfold importTagRow at h
  split at h
  · exact pure_eq_ok.mp h ▸ importBoardTag_tagsOnly ctx db p.id name color
  · exact importUserTag_tagsOnly h

theorem importTag_tagsOnly {te : TagExport} (h : importTag rt ctx projectID db te = .ok db') :
    TagsOnly db db' := by
  simp only [importTag, bind_eq_ok] at h
  obtain ⟨p, _, user, _, h⟩ := h
  cases user with
  | none => exact pure_eq_ok.mp h ▸ .refl db
  | some userID =>
      simp only [bind_eq_ok] at h
      obtain ⟨tags, _, h⟩ := h
      split at h
      · cases h
      · simp only [bind_eq_ok, pure_eq_ok] at h
        obtain ⟨⟨db₁, tagID⟩, htag, rfl⟩ := h
        exact (importTagRow_tagsOnly htag).trans (linkProjectTag_tagsOnly ctx db₁ projectID tagID)

theorem importTags_tagsOnly {tags : List TagExport}
    (h : tags.foldlM (importTag rt ctx projectID) db = .ok db') : TagsOnly db db' :=
  foldlM_inv (P := TagsOnly db) (fun _ _ _ _ hs hstep => hs.trans (importTag_tagsOnly hstep))
    (.refl db) h

theorem bulkUpsertTag_tagsOnly {userID : ℤ} {s s' : DB × List (String × ℤ)} {te : TagExport}
    (h : bulkUpsertTag rt ctx projectID userID s te = .ok s') : TagsOnly s.1 s'.1 := by
  simp only [bulkUpsertTag, bind_eq_ok, pure_eq_ok] at h
  obtain ⟨⟨db₁, tagID⟩, hget, rfl⟩ := h
  exact ((getOrCreateTag_tagsOnly hget).trans (linkProjectTag_tagsOnly ctx db₁ projectID tagID)).trans
    (setTagColor_tagsOnly _ userID tagID te.color)

theorem bulkUpsertTags_tagsOnly {tags : List TagExport} {out : DB × List (String × ℤ)}
    (h : bulkUpsertTags rt ctx db projectID tags = .ok out) : TagsOnly db out.1 := by
  unfold bulkUpsertTags at h
  split at h
  · exact pure_eq_ok.mp h ▸ .refl db
  · simp only [bind_eq_ok] at h
    obtain ⟨deduped, _, h⟩ := h
    exact foldlM_inv (P := fun s => TagsOnly db s.1)
      (fun _ _ _ _ hs hstep => hs.trans (bulkUpsertTag_tagsOnly hstep)) (TagsOnly.refl db) h

theorem bulkLinkTodoTags_tagsOnly {todoTags : List (ℤ × List String)} {tagIDs : List (String × ℤ)}
    (h : bulkLinkTodoTags rt db todoTags tagIDs = .ok db') : TagsOnly db db' := by
  have hlink : ∀ (l : List ℤ) (todoID : ℤ) (db : DB),
      TagsOnly db (l.foldl (fun db tagID => linkTodoTag db todoID tagID) db) := by
    intro l todoID
    induction l with
    | nil => exact fun db => .refl db
    | cons tagID l ih => exact fun db => (linkTodoTag_tagsOnly db todoID tagID).trans (ih _)
  refine foldlM_inv (P := TagsOnly db) (fun s tt s' _ hs hstep => ?_) (.refl db) h
  simp only [bulkLinkTags, bind_eq_ok, pure_eq_ok] at hstep
  obtain ⟨names, _, rfl⟩ := hstep
  exact hs.trans (hlink _ tt.1 s)

end

/-! ## The two outcomes -/

/-- The todo lands on the row `u`, which had its local id before. -/
structure LandsOn (projectID : ℤ) (s s' : TodoScan) (t : TodoExport) (u : TodoRow) : Prop where
  mem : u ∈ s.db.todos
  projectID_eq : u.projectID = projectID
  localID_eq : u.localID = t.localID
  old : u.id ∉ s.imported.created
  tables : ∃ sprintID, TagsOnly { s.db with
      todos := updateWhere (·.id == u.id)
        (mergedRow s.db projectID (resolveImportColumnKey s.db projectID t.status).1 sprintID t)
        s.db.todos } s'.db
  imported : s'.imported = s.imported.record t.localID t.localID u.id false

/-- The todo becomes the new row `u`. -/
structure LandsNew (projectID : ℤ) (s s' : TodoScan) (t : TodoExport) (u : TodoRow) : Prop where
  id_eq : u.id = nextRowid (s.db.todos.map (·.id))
  free : ∀ v ∈ s.db.todos, v.projectID = projectID → v.localID ≠ u.localID
  row : ∃ sprintID, u = { importRow s.db projectID u.localID
    (resolveImportColumnKey s.db projectID t.status).1 u.rank sprintID t with id := u.id }
  rank_eq : u.rank = t.rank ∨ u.rank = importRank s.db projectID u.columnKey t.rank
  tables : TagsOnly { s.db with todos := s.db.todos ++ [u] } s'.db
  imported : s'.imported = s.imported.record t.localID u.localID u.id true

section

variable {rt : Runtime} {ctx : Ctx} {projectID : ℤ} {sprintID : ℤ → Option ℤ} {s s' : TodoScan}
  {t : TodoExport}

theorem todoByLocalID_eq_some {db : DB} {localID : ℤ} {u : TodoRow}
    (h : todoByLocalID db projectID localID = some u) :
    u ∈ db.todos ∧ u.projectID = projectID ∧ u.localID = localID := by
  have hsel := List.find?_some h
  simp only [Bool.and_eq_true, beq_iff_eq] at hsel
  exact ⟨List.mem_of_find?_eq_some h, hsel⟩

theorem le_maxLocalID {db : DB} {v : TodoRow} (hv : v ∈ db.todos) (hp : v.projectID = projectID) :
    v.localID ≤ maxLocalID db projectID := by
  apply le_coalesceMax
  exact List.mem_map.mpr ⟨v, List.mem_filter.mpr ⟨hv, by simpa using hp⟩, rfl⟩

/-- The second attempt of an insertion is the first one again, so it never helps. -/
theorem insertMergedTodo_eq_ok {db db' : DB} {row : ℤ → TodoRow} {localID : ℤ} {u : TodoRow}
    {r r' : ImportResult} (hrow : ∀ l, (row l).projectID = projectID ∧ (row l).localID = l)
    (h : insertMergedTodo db projectID row localID r = .ok (db', u, r')) :
    insertTodo db (row (mergeLocalID db projectID localID)) ⟨.internal, "insert todo"⟩ =
      .ok (db', u) := by
  unfold insertMergedTodo at h
  split at h
  · rename_i db₁ v hins
    simp only [pure_eq_ok, Prod.mk.injEq] at h
    obtain ⟨rfl, rfl, _⟩ := h
    exact hins
  · rename_i e hins
    simp only [bind_eq_ok] at h
    obtain ⟨⟨db₁, v⟩, hretry, _⟩ := h
    obtain ⟨hfree, _⟩ := insertTodo_eq_ok hretry
    exfalso
    -- Either the local id is above all others, or both attempts use the same one.
    have htaken : ∃ v ∈ db.todos, v.projectID = projectID ∧
        v.localID = mergeLocalID db projectID localID := by
      by_contra hnone
      have hnot : ¬ ∃ v ∈ db.todos,
          v.projectID = (row (mergeLocalID db projectID localID)).projectID ∧
          v.localID = (row (mergeLocalID db projectID localID)).localID := by
        rwa [(hrow _).1, (hrow _).2]
      rw [insertTodo, reject_bind_of_not hnot] at hins
      cases hins
    obtain ⟨v, hv, hp, hl⟩ := htaken
    by_cases hle : localID ≤ maxLocalID db projectID
    · rw [mergeLocalID, if_pos hle] at hl
      exact hfree v hv (by rw [(hrow _).1, hp]) (by rw [(hrow _).2, hl])
    · rw [mergeLocalID, if_neg hle] at hl
      exact hle (hl ▸ le_maxLocalID hv hp)

/-- A row of an import that was inserted. -/
theorem landsNew_of_insert {db db' : DB} {localID rank : ℤ} {sprint : Option ℤ} {e : StoreError}
    {u : TodoRow} (hins : insertTodo s.db (importRow s.db projectID localID
      (resolveImportColumnKey s.db projectID t.status).1 rank sprint t) e = .ok (db, u))
    (hrank : rank = t.rank ∨ rank = importRank s.db projectID
      (resolveImportColumnKey s.db projectID t.status).1 t.rank)
    (htags : TagsOnly db db') (hdb : s'.db = db')
    (himp : s'.imported = s.imported.record t.localID u.localID u.id true) :
    LandsNew projectID s s' t u ∧ u.localID = localID := by
  obtain ⟨hfree, hrow, rfl⟩ := insertTodo_eq_ok hins
  have hlid : u.localID = localID := by rw [hrow]; rfl
  refine ⟨⟨by rw [hrow], ?_, ⟨sprint, ?_⟩, ?_, hdb ▸ htags, himp⟩, hlid⟩
  · intro v hv hp
    rw [hlid]
    exact hfree v hv hp
  · rw [hrow]
    rfl
  · rw [hrow]
    exact hrank

/-- What a merge does with one todo. -/
theorem mergeTodo_cases (h : mergeTodo rt ctx projectID sprintID s t = .ok s') :
    (∃ u, mergeMatch s projectID t.localID = some u ∧ LandsOn projectID s s' t u) ∨
    ∃ u, mergeMatch s projectID t.localID = none ∧ LandsNew projectID s s' t u ∧
      u.localID = mergeLocalID s.db projectID t.localID := by
  simp only [mergeTodo, bind_eq_ok] at h
  obtain ⟨_, _, h⟩ := h
  split at h
  · rename_i u hmatch
    left
    obtain ⟨hfind, hold⟩ := Option.filter_eq_some_iff.mp hmatch
    obtain ⟨hmem, hpid, hlid⟩ := todoByLocalID_eq_some hfind
    simp only [bind_eq_ok, pure_eq_ok] at h
    obtain ⟨db, htags, rfl⟩ := h
    refine ⟨u, hmatch, hmem, hpid, hlid, ?_, ⟨_, importTodoTags_tagsOnly htags⟩, rfl⟩
    simpa [ImportedTodos.wasCreated] using hold
  · rename_i hmatch
    right
    simp only [bind_eq_ok, pure_eq_ok] at h
    obtain ⟨⟨db₁, u, r⟩, hins, db, htags, rfl⟩ := h
    have hins := insertMergedTodo_eq_ok (by intro l; exact ⟨rfl, rfl⟩) hins
    exact ⟨u, hmatch, landsNew_of_insert hins (.inl rfl) (importTodoTags_tagsOnly htags) rfl rfl⟩

theorem copyTodo_landsNew (h : copyTodo rt ctx projectID sprintID s t = .ok s') :
    ∃ u, LandsNew projectID s s' t u ∧ u.localID = copyLocalID s.db projectID t.localID := by
  simp only [copyTodo, bind_eq_ok, pure_eq_ok] at h
  obtain ⟨_, _, ⟨db₁, u⟩, hins, db, htags, rfl⟩ := h
  exact ⟨u, landsNew_of_insert hins (.inl rfl) (importTodoTags_tagsOnly htags) rfl rfl⟩

theorem boardTodo_landsNew (h : boardTodo rt ctx projectID s t = .ok s') :
    ∃ u, LandsNew projectID s s' t u ∧ u.localID = boardLocalID s.db projectID := by
  simp only [boardTodo, bind_eq_ok, pure_eq_ok] at h
  obtain ⟨_, _, _, _, ⟨db₁, u⟩, hins, db, htags, rfl⟩ := h
  exact ⟨u, landsNew_of_insert hins (.inl rfl) (importTodoTags_tagsOnly htags) rfl rfl⟩

theorem bulkInsertTodo_landsNew (h : bulkInsertTodo projectID sprintID s t = .ok s') :
    ∃ u, LandsNew projectID s s' t u ∧ u.localID = t.localID := by
  simp only [bulkInsertTodo, bind_eq_ok, pure_eq_ok] at h
  obtain ⟨_, _, ⟨db₁, u⟩, hins, rfl⟩ := h
  have hlid : u.localID = t.localID := by
    rw [(insertTodo_eq_ok hins).2.1]
    rfl
  exact ⟨u, landsNew_of_insert hins (.inr rfl) (.refl db₁) rfl (by rw [hlid])⟩

end

end Scrumboy
