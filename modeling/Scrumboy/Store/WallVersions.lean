import Scrumboy.Store.WallReplace

/-!
# The version of a wall

Every operation on a wall increases the version of the wall, or leaves the wall as it is. The
operations on notes and edges read the wall in one transaction and write it in another, so
for them it is also said which wall they write for the one that they have read.
-/

set_option linter.dupNamespace false

namespace Scrumboy

open Go Sql

/-! ## Edits of the document -/

/-- A mutation that reads the wall of a project and writes it back. -/
inductive WallEdit
  | createNote (draw : UInt64) (input : CreateNoteInput)
  | patchNote (noteID : String) (input : PatchNoteInput)
  | deleteNote (noteID : String)
  | createEdge (draw : UInt64) (fromEndpoint toEndpoint : String)
  | deleteEdge (edgeID : String)
  | replaceWall (draws : ℕ → UInt64) (notes : List WallNote)

def WallEdit.exec (ctx : Ctx) (db : DB) (projectID : ℤ) : WallEdit → Result DB
  | .createNote draw input => (Scrumboy.createNote ctx db projectID draw input).map (·.1)
  | .patchNote noteID input => (Scrumboy.patchNote ctx db projectID noteID input).map (·.1)
  | .deleteNote noteID => (Scrumboy.deleteNote ctx db projectID noteID).map (·.1)
  | .createEdge draw fromEndpoint toEndpoint =>
      (Scrumboy.createEdge ctx db projectID draw fromEndpoint toEndpoint).map (·.1)
  | .deleteEdge edgeID => (Scrumboy.deleteEdge ctx db projectID edgeID).map (·.1)
  | .replaceWall draws notes => (Scrumboy.replaceWall ctx db projectID draws notes).map (·.1)

/-- The wall that a mutation writes for the one that it has read, or none when it returns
without a write. -/
def WallEdit.plan (wall : Wall) : WallEdit → Result (Option Wall)
  | .createNote draw input => do
      validateWallColor input.color
      reject (maxWallTextBytes < byteLen input.text) ⟨.validation, "note text too long"⟩
      reject (maxWallNotes ≤ wall.notes.length) ⟨.validation, "wall note limit reached"⟩
      let note : WallNote :=
        { id := newNoteID draw
          x := clampNoteCoord input.x
          y := clampNoteCoord input.y
          width := clampNoteDim input.width defaultNoteWidth
          height := clampNoteDim input.height defaultNoteHeight
          color := trimSpace input.color
          text := input.text
          version := 1 }
      pure (some { wall with notes := wall.notes ++ [note], version := wall.version + 1 })
  | .patchNote noteID input => do
      reject (∃ c ∈ input.color, colorHexRe (trimSpace c) = false) ⟨.validation, "invalid color"⟩
      reject (∃ t ∈ input.text, maxWallTextBytes < byteLen t) ⟨.validation, "note text too long"⟩
      let some note := wall.notes.find? (·.id == noteID) | throw ⟨.notFound, ""⟩
      reject (input.ifVersion ≠ 0 ∧ note.version ≠ input.ifVersion) ⟨.conflict, "note version mismatch"⟩
      pure (some { wall with
        notes := wall.notes.set (wall.notes.findIdx (·.id == noteID)) (input.apply note)
        version := wall.version + 1 })
  | .deleteNote noteID => do
      reject (wall.notes.all fun n => n.id != noteID) ⟨.notFound, ""⟩
      pure (some { wall with
        notes := wall.notes.eraseP (·.id == noteID)
        edges := wall.edges.filter fun e => !e.touches noteID
        version := wall.version + 1 })
  | .createEdge draw fromEndpoint toEndpoint => do
      reject (trimSpace fromEndpoint = "" ∨ trimSpace toEndpoint = "") ⟨.validation, "from and to required"⟩
      let source ← parseWallEdgeEndpoint (trimSpace fromEndpoint)
      let target ← parseWallEdgeEndpoint (trimSpace toEndpoint)
      reject (source.canonical = target.canonical) ⟨.validation, "self-edges not allowed"⟩
      reject (resolveWallEdgeEndpoint wall source = false ∨ resolveWallEdgeEndpoint wall target = false)
        ⟨.notFound, ""⟩
      match wall.edges.find? fun e =>
          (e.fromRef == source.canonical && e.toRef == target.canonical) ||
            (e.fromRef == target.canonical && e.toRef == source.canonical) with
      | some _ => pure none
      | none => do
          reject (maxWallEdges ≤ wall.edges.length) ⟨.validation, "wall edge limit reached"⟩
          pure (some { wall with
            edges := wall.edges ++ [⟨newEdgeID draw, source.canonical, target.canonical⟩]
            version := wall.version + 1 })
  | .deleteEdge edgeID => do
      reject (wall.edges.all fun e => e.id != edgeID) ⟨.notFound, ""⟩
      pure (some { wall with edges := wall.edges.eraseP (·.id == edgeID), version := wall.version + 1 })
  | .replaceWall draws notes => do
      reject (maxWallNotes < notes.length) ⟨.validation, "wall note limit reached"⟩
      notes.forM checkReplacementNote
      pure (some { wall with notes := replacementNotes draws notes, version := wall.version + 1 })

/-- The write of a mutation, if it makes one. -/
def writePlanned (ctx : Ctx) (db : DB) (projectID : ℤ) : Option Wall → Result DB
  | none => pure db
  | some wall => writeWallLocked ctx db projectID wall

theorem map_bind_fst {α β γ : Type} (x : Result α) (f : α → Result (β × γ)) :
    (x >>= f).map (·.1) = x >>= fun a => (f a).map (·.1) := by
  cases x <;> rfl

theorem map_pure_fst {α β : Type} (a : α) (b : β) : (pure (a, b) : Result (α × β)).map (·.1) = pure a := rfl

/-- A mutation is its plan for the stored wall, and then the write. -/
theorem WallEdit.exec_eq (ctx : Ctx) (db : DB) (projectID : ℤ) (e : WallEdit) :
    e.exec ctx db projectID = e.plan (getWall db projectID) >>= writePlanned ctx db projectID := by
  cases e with
  | createNote draw input =>
      simp only [exec, plan, Scrumboy.createNote, map_bind_fst, map_pure_fst, bind_assoc, pure_bind, bind_pure,
        writePlanned]
  | patchNote noteID input =>
      simp only [exec, plan, Scrumboy.patchNote, map_bind_fst, bind_assoc]
      cases (getWall db projectID).notes.find? (·.id == noteID) with
      | none => rfl
      | some note =>
          simp only [map_bind_fst, map_pure_fst, bind_assoc, pure_bind, bind_pure, writePlanned]
  | deleteNote noteID =>
      simp only [exec, plan, Scrumboy.deleteNote, map_bind_fst, map_pure_fst, bind_assoc, pure_bind, bind_pure,
        writePlanned]
  | createEdge draw fromEndpoint toEndpoint =>
      simp only [exec, plan, Scrumboy.createEdge, map_bind_fst, bind_assoc]
      congr 1
      funext _
      congr 1
      funext source
      congr 1
      funext target
      congr 1
      funext _
      congr 1
      funext _
      cases (getWall db projectID).edges.find? fun e =>
          (e.fromRef == source.canonical && e.toRef == target.canonical) ||
            (e.fromRef == target.canonical && e.toRef == source.canonical) with
      | some e => rfl
      | none => simp only [map_bind_fst, map_pure_fst, bind_assoc, pure_bind, bind_pure, writePlanned]
  | deleteEdge edgeID =>
      simp only [exec, plan, Scrumboy.deleteEdge, map_bind_fst, map_pure_fst, bind_assoc, pure_bind, bind_pure,
        writePlanned]
  | replaceWall draws notes =>
      simp only [exec, plan, Scrumboy.replaceWall, map_bind_fst, map_pure_fst, bind_assoc, pure_bind, bind_pure,
        writePlanned]

/-! ## Versions -/

/-- The version of the wall does not decrease, and while it is the same so is the wall. -/
structure WallGrows (projectID : ℤ) (db db' : DB) : Prop where
  version_le : (getWall db projectID).version ≤ (getWall db' projectID).version
  eq_of_version : (getWall db' projectID).version = (getWall db projectID).version →
    getWall db' projectID = getWall db projectID

section

variable {ctx : Ctx} {db db₁ db' : DB} {projectID localID : ℤ}

theorem WallGrows.of_eq (h : getWall db' projectID = getWall db projectID) : WallGrows projectID db db' :=
  ⟨by rw [h], fun _ => h⟩

theorem WallGrows.of_lt (h : (getWall db projectID).version < (getWall db' projectID).version) :
    WallGrows projectID db db' :=
  ⟨h.le, fun heq => absurd heq h.ne'⟩

theorem WallGrows.trans (h : WallGrows projectID db db₁) (h' : WallGrows projectID db₁ db') :
    WallGrows projectID db db' := by
  refine ⟨h.version_le.trans h'.version_le, fun heq => ?_⟩
  have hfirst := le_antisymm (heq ▸ h'.version_le) h.version_le
  exact (h'.eq_of_version (heq.trans hfirst.symm)).trans (h.eq_of_version hfirst)

theorem getWall_version (db : DB) (projectID : ℤ) : (getWall db projectID).version =
    ((db.walls.find? fun w => w.projectID == projectID).map (·.version)).getD 0 := by
  unfold getWall
  cases db.walls.find? fun w => w.projectID == projectID <;> rfl

theorem WallEdit.plan_version {e : WallEdit} {wall wall' : Wall} (h : e.plan wall = .ok (some wall')) :
    wall'.version = wall.version + 1 := by
  cases e with
  | createNote draw input =>
      simp only [plan, bind_eq_ok, pure_eq_ok, Option.some.injEq] at h
      obtain ⟨_, _, _, _, _, _, rfl⟩ := h
      rfl
  | patchNote noteID input =>
      simp only [plan, bind_eq_ok] at h
      obtain ⟨_, _, _, _, h⟩ := h
      split at h
      · simp only [bind_eq_ok, pure_eq_ok, Option.some.injEq] at h
        obtain ⟨_, _, rfl⟩ := h
        rfl
      · cases h
  | deleteNote noteID =>
      simp only [plan, bind_eq_ok, pure_eq_ok, Option.some.injEq] at h
      obtain ⟨_, _, rfl⟩ := h
      rfl
  | createEdge draw fromEndpoint toEndpoint =>
      simp only [plan, bind_eq_ok] at h
      obtain ⟨_, _, source, _, target, _, _, _, _, _, h⟩ := h
      split at h
      · rw [pure_eq_ok] at h
        cases h
      · simp only [bind_eq_ok, pure_eq_ok, Option.some.injEq] at h
        obtain ⟨_, _, rfl⟩ := h
        rfl
  | deleteEdge edgeID =>
      simp only [plan, bind_eq_ok, pure_eq_ok, Option.some.injEq] at h
      obtain ⟨_, _, rfl⟩ := h
      rfl
  | replaceWall draws notes =>
      simp only [plan, bind_eq_ok, pure_eq_ok, Option.some.injEq] at h
      obtain ⟨_, _, _, _, rfl⟩ := h
      rfl

theorem writeWallLocked_version {wall : Wall} (h : writeWallLocked ctx db projectID wall = .ok db') :
    (getWall db' projectID).version = wall.version := by
  obtain ⟨_, hfind⟩ := upsertWall_spec (by intro v _; rfl) h
  rw [getWall_version, hfind, if_pos rfl]
  cases db.walls.find? fun v => v.projectID == projectID <;> rfl

theorem bumpWallVersion_version (h : bumpWallVersion ctx db projectID = .ok db') :
    (getWall db' projectID).version = (getWall db projectID).version + 1 := by
  obtain ⟨_, hfind⟩ := upsertWall_spec (by intro v hv; exact hv) h
  rw [getWall_version, getWall_version, hfind, if_pos rfl]
  cases db.walls.find? fun v => v.projectID == projectID <;> rfl

theorem removeWallStoryEdges_version (db : DB) (projectID : ℤ) (endpoint : String) :
    (getWall (removeWallStoryEdges db projectID endpoint).1 projectID).version =
      (getWall db projectID).version := by
  unfold removeWallStoryEdges
  split
  · rfl
  · rename_i w hw
    split
    · have hupdate := find?_updateWhere WallRow.projectID (k := projectID)
        (f := fun v => { v with edges := w.edges.filter fun e => !e.touches endpoint })
        (fun _ hv => hv) projectID db.walls
      rw [getWall_version, getWall_version, hupdate, hw]
      simp
    · rfl

theorem WallEdit.grows {e : WallEdit} (h : e.exec ctx db projectID = .ok db') : WallGrows projectID db db' := by
  rw [exec_eq, bind_eq_ok] at h
  obtain ⟨planned, hplan, hwrite⟩ := h
  cases planned with
  | none =>
      obtain rfl := pure_eq_ok.mp hwrite
      exact .of_eq rfl
  | some wall =>
      apply WallGrows.of_lt
      rw [writeWallLocked_version hwrite, plan_version hplan]
      exact lt_add_one _

/-- The version after changes outside the table of walls and then an increase. -/
theorem WallGrows.of_bump (h : bumpWallVersion ctx db₁ projectID = .ok db')
    (hversion : (getWall db₁ projectID).version = (getWall db projectID).version) :
    WallGrows projectID db db' := by
  apply WallGrows.of_lt
  rw [bumpWallVersion_version h, hversion]
  exact lt_add_one _

theorem pinWallStory_grows {x y : ℚ} {out : DB × WallStoryPlacement × Bool}
    (h : pinWallStory ctx db projectID localID x y = .ok out) : WallGrows projectID db out.1 := by
  simp only [pinWallStory, bind_eq_ok] at h
  obtain ⟨_, _, h⟩ := h
  split at h
  · split at h
    · obtain rfl := pure_eq_ok.mp h
      exact .of_eq rfl
    · simp only [bind_eq_ok, pure_eq_ok] at h
      obtain ⟨_, _, _, _, db₁, hbump, rfl⟩ := h
      exact .of_bump hbump (by rw [getWall_version, getWall_version])
  · cases h

theorem patchWallStory_grows {ifVersion : ℤ} {x y : ℚ} {out : DB × WallStoryPlacement}
    (h : patchWallStory ctx db projectID localID ifVersion x y = .ok out) : WallGrows projectID db out.1 := by
  simp only [patchWallStory] at h
  split at h
  · simp only [bind_eq_ok, pure_eq_ok] at h
    obtain ⟨_, _, db₁, hbump, rfl⟩ := h
    exact .of_bump hbump (by rw [getWall_version, getWall_version])
  · cases h

theorem unpinWallStory_grows (h : unpinWallStory ctx db projectID localID = .ok db') :
    WallGrows projectID db db' := by
  simp only [unpinWallStory] at h
  split at h
  · simp only [bind_eq_ok] at h
    obtain ⟨_, _, hbump⟩ := h
    refine .of_bump hbump ?_
    rw [removeWallStoryEdges_version, getWall_version, getWall_version]
  · cases h

/-! ## Tables around a wall -/

/-- What the schema and the operations keep about the tables that a wall is read from. -/
structure WallTables (projectID : ℤ) (db : DB) : Prop where
  project : projectID ∈ db.projects.map (·.id)
  projectIDs : (db.projects.map (·.id)).Nodup
  todoIDs : (db.todos.map (·.id)).Nodup
  placed : ∀ p ∈ db.placements, ∃ t ∈ db.todos, t.id = p.todoID ∧ t.projectID = p.projectID

/-- A wall is read from its row, the placements of its project, and the keys of their todos. -/
theorem getWall_congr (hwalls : db'.walls.find? (fun w => w.projectID == projectID) =
      db.walls.find? fun w => w.projectID == projectID)
    (hplacements : (db'.placements.filter fun p => p.projectID == projectID) =
      db.placements.filter fun p => p.projectID == projectID)
    (htodos : ∀ p ∈ db.placements, p.projectID = projectID →
      (db'.todos.filter fun t => t.id == p.todoID && t.projectID == p.projectID).map (·.localID) =
        (db.todos.filter fun t => t.id == p.todoID && t.projectID == p.projectID).map (·.localID)) :
    getWall db' projectID = getWall db projectID := by
  have hlist : listWallStoryPlacements db' projectID = listWallStoryPlacements db projectID := by
    unfold listWallStoryPlacements
    rw [hplacements]
    apply List.flatMap_congr
    intro p hp
    rw [mem_orderBy, List.mem_filter, beq_iff_eq] at hp
    have hlocal := congrArg (List.map fun l => (⟨p.todoID, l, p.x, p.y, p.version⟩ : WallStoryPlacement))
      (htodos p hp.1 hp.2)
    rwa [List.map_map, List.map_map] at hlocal
  unfold getWall
  rw [hwalls, hlist]

theorem WallEdit.tables {e : WallEdit} (hdb : WallTables projectID db)
    (h : e.exec ctx db projectID = .ok db') : WallTables projectID db' := by
  rw [exec_eq, bind_eq_ok] at h
  obtain ⟨planned, hplan, hwrite⟩ := h
  cases planned with
  | none =>
      obtain rfl := pure_eq_ok.mp hwrite
      exact hdb
  | some wall =>
      rw [(writeWallLocked_spec hwrite).1]
      exact ⟨hdb.project, hdb.projectIDs, hdb.todoIDs, hdb.placed⟩

/-- Placements that are among the old ones, or of todos that are there. -/
theorem WallTables.set_placements (hdb : WallTables projectID db) {walls : List WallRow}
    {placements : List PlacementRow}
    (h : ∀ p ∈ placements, ∃ t ∈ db.todos, t.id = p.todoID ∧ t.projectID = p.projectID) :
    WallTables projectID { db with walls := walls, placements := placements } :=
  ⟨hdb.project, hdb.projectIDs, hdb.todoIDs, h⟩

theorem pinWallStory_tables {x y : ℚ} {out : DB × WallStoryPlacement × Bool} (hdb : WallTables projectID db)
    (h : pinWallStory ctx db projectID localID x y = .ok out) : WallTables projectID out.1 := by
  simp only [pinWallStory, bind_eq_ok] at h
  obtain ⟨_, _, h⟩ := h
  split at h
  · rename_i t ht
    split at h
    · obtain rfl := pure_eq_ok.mp h
      exact hdb
    · simp only [bind_eq_ok, pure_eq_ok] at h
      obtain ⟨_, _, _, _, db₁, hbump, rfl⟩ := h
      rw [(bumpWallVersion_spec hbump).1]
      refine hdb.set_placements fun p hp => ?_
      rcases List.mem_append.mp hp with hp | hp
      · exact hdb.placed p hp
      · obtain rfl := List.mem_singleton.mp hp
        have hfound := List.find?_some ht
        simp only [Bool.and_eq_true, beq_iff_eq] at hfound
        exact ⟨t, List.mem_of_find?_eq_some ht, rfl, hfound.1⟩
  · cases h

theorem patchWallStory_tables {ifVersion : ℤ} {x y : ℚ} {out : DB × WallStoryPlacement}
    (hdb : WallTables projectID db) (h : patchWallStory ctx db projectID localID ifVersion x y = .ok out) :
    WallTables projectID out.1 := by
  simp only [patchWallStory] at h
  split at h
  · simp only [bind_eq_ok, pure_eq_ok] at h
    obtain ⟨_, _, db₁, hbump, rfl⟩ := h
    rw [(bumpWallVersion_spec hbump).1]
    refine hdb.set_placements fun p hp => ?_
    obtain ⟨q, hq, rfl⟩ := mem_updateWhere.mp hp
    obtain ⟨t, ht, hid, hproject⟩ := hdb.placed q hq
    refine ⟨t, ht, ?_⟩
    split <;> exact ⟨hid, hproject⟩
  · cases h

theorem unpinWallStory_tables (hdb : WallTables projectID db)
    (h : unpinWallStory ctx db projectID localID = .ok db') : WallTables projectID db' := by
  simp only [unpinWallStory] at h
  split at h
  · simp only [bind_eq_ok] at h
    obtain ⟨_, _, hbump⟩ := h
    rw [(bumpWallVersion_spec hbump).1]
    obtain ⟨walls, hremove, _⟩ := removeWallStoryEdges_spec _ projectID (formatWallStoryEndpoint localID)
    rw [hremove]
    refine hdb.set_placements fun p hp => ?_
    exact hdb.placed p (mem_deleteWhere.mp hp).1
  · cases h

/-! ## Deleting a todo -/

/-- The rows of the wall of one project do not change with those of another. -/
theorem bumpWallVersion_other {q : ℤ} (hq : projectID ≠ q) (h : bumpWallVersion ctx db q = .ok db') :
    db'.walls.find? (fun w => w.projectID == projectID) = db.walls.find? fun w => w.projectID == projectID := by
  obtain ⟨_, hfind⟩ := upsertWall_spec (by intro v hv; exact hv) h
  rw [hfind, if_neg hq]

theorem removeWallStoryEdges_other {q : ℤ} (hq : projectID ≠ q) (db : DB) (endpoint : String) :
    (removeWallStoryEdges db q endpoint).1.walls.find? (fun w => w.projectID == projectID) =
      db.walls.find? fun w => w.projectID == projectID := by
  unfold removeWallStoryEdges
  split
  · rfl
  · rename_i w hw
    split
    · have hupdate := find?_updateWhere WallRow.projectID (k := q)
        (f := fun v => { v with edges := w.edges.filter fun e => !e.touches endpoint })
        (fun _ hv => hv) projectID db.walls
      rw [hupdate]
      simp [hq]
    · rfl

theorem removeWallStoryEdges_unchanged {endpoint : String}
    (h : (removeWallStoryEdges db projectID endpoint).2 = false) :
    (removeWallStoryEdges db projectID endpoint).1 = db := by
  unfold removeWallStoryEdges at h ⊢
  split at h
  · rfl
  · split at h
    · cases h
    · rename_i hclean
      rw [if_neg hclean]

/-- A wall with no placement of a todo does not see that the row of the todo goes. -/
theorem getWall_deleteTodoRow {todoID : ℤ} {walls : List WallRow} {projects : List ProjectRow}
    {links : List LinkRow}
    (hnone : ∀ p ∈ db.placements, p.projectID = projectID → p.todoID ≠ todoID)
    (hwalls : walls.find? (fun w => w.projectID == projectID) = db.walls.find? fun w => w.projectID == projectID) :
    getWall { deleteTodoRow db todoID with walls := walls, projects := projects, links := links } projectID =
      getWall db projectID := by
  refine getWall_congr hwalls ?_ fun p hp hproject => ?_
  · refine filter_deleteWhere fun p hp hsel => ?_
    have hne := hnone p hp (by simpa using hsel)
    simpa using hne
  · congr 1
    refine filter_deleteWhere fun t ht hsel => ?_
    rw [Bool.and_eq_true, beq_iff_eq, beq_iff_eq] at hsel
    have hne := hnone p hp hproject
    simp [hsel.1, hne]

theorem deleteTodo_grows {todoID : ℤ} (hdb : WallTables projectID db)
    (h : deleteTodo ctx db todoID = .ok db') : WallGrows projectID db db' := by
  simp only [deleteTodo, bind_eq_ok, pure_eq_ok] at h
  obtain ⟨existing, hget, p, _, _, _, db₁, hbump, hactivity⟩ := h
  obtain ⟨hmem, hid⟩ := getTodo_eq_ok hget
  have hact := touch_update_activityOnly ctx db₁ existing.projectID
  rw [hactivity] at hact
  obtain ⟨projects, rfl⟩ := hact.exists_eq
  unfold bumpWallAfterDelete at hbump
  by_cases hproject : existing.projectID = projectID
  · subst hproject
    split at hbump
    · apply WallGrows.of_lt
      have hversion := bumpWallVersion_version hbump
      rw [removeWallStoryEdges_version] at hversion
      rw [getWall_version] at hversion ⊢
      rw [getWall_version, hversion, getWall_version]
      exact lt_add_one _
    · rename_i hquiet
      rw [Bool.or_eq_true, not_or, Bool.not_eq_true, decide_eq_true_eq, not_lt, Nat.le_zero,
        List.length_eq_zero_iff, List.filter_eq_nil_iff] at hquiet
      rw [removeWallStoryEdges_unchanged hquiet.1, pure_eq_ok] at hbump
      subst hbump
      refine .of_eq (getWall_deleteTodoRow (fun r hr hrow heq => ?_) rfl)
      exact hquiet.2 r hr (by simp [hrow, heq])
  · -- the todo is one of another project, so no placement on this wall is of it
    have hnone : ∀ r ∈ db.placements, r.projectID = projectID → r.todoID ≠ todoID := by
      intro r hr hrow heq
      obtain ⟨t, ht, htid, htp⟩ := hdb.placed r hr
      have htodo : t = existing := List.inj_on_of_nodup_map hdb.todoIDs ht hmem ((htid.trans heq).trans hid.symm)
      exact hproject (htodo ▸ htp.trans hrow)
    have hremoved := removeWallStoryEdges_other (Ne.symm hproject)
      (deleteTodoRow (deleteTodoLinks db existing) todoID) (formatWallStoryEndpoint existing.localID)
    obtain ⟨walls, hremove, _⟩ := removeWallStoryEdges_spec
      (deleteTodoRow (deleteTodoLinks db existing) todoID) existing.projectID
      (formatWallStoryEndpoint existing.localID)
    rw [hremove] at hbump hremoved
    split at hbump
    · have hwalls := bumpWallVersion_other (Ne.symm hproject) hbump
      rw [(bumpWallVersion_spec hbump).1]
      exact .of_eq (getWall_deleteTodoRow hnone (hwalls.trans hremoved))
    · obtain rfl := pure_eq_ok.mp hbump
      exact .of_eq (getWall_deleteTodoRow hnone hremoved)

theorem deleteTodo_tables {todoID : ℤ} (hdb : WallTables projectID db)
    (h : deleteTodo ctx db todoID = .ok db') : WallTables projectID db' := by
  obtain ⟨existing, _, _, ⟨projects, links, walls, rfl, hquiet⟩, _⟩ := deleteTodo_spec h
  have hids : projects.map (·.id) = db.projects.map (·.id) := by
    have := congrArg (List.map ProjectRow.id) hquiet
    rwa [List.map_map, List.map_map] at this
  refine ⟨?_, ?_, ?_, fun p hp => ?_⟩
  · exact hids ▸ hdb.project
  · exact hids ▸ hdb.projectIDs
  · exact hdb.todoIDs.sublist (List.filter_sublist.map _)
  · obtain ⟨hold, hne⟩ := mem_deleteWhere.mp hp
    obtain ⟨t, ht, htid, htp⟩ := hdb.placed p hold
    exact ⟨t, mem_deleteWhere.mpr ⟨ht, by rw [htid]; exact hne⟩, htid, htp⟩

end

end Scrumboy
