import Scrumboy.Graph.EdgeList
import Scrumboy.Store.Workflow

/-!
# Walls

The wall of a project: a document of sticky notes and of edges between them, and
the placements of stories on it, which are rows of a table. An edge names its
ends by text, a note by its id and a story by its local id behind the prefix
`story:`. Every operation holds the lock of the wall, so it is one step.

A new note or edge gets a random id. The random number is an argument of the
operation here.
-/

set_option linter.dupNamespace false

namespace Scrumboy

open Go Sql

/-! ## Endpoints -/

def wallStoryEndpointPrefix : String := "story:"

inductive WallEdgeEndpoint
  | note (id : String)
  | story (todoLocalID : ℤ)
  deriving DecidableEq, Repr

def formatWallStoryEndpoint (todoLocalID : ℤ) : String :=
  wallStoryEndpointPrefix ++ formatInt todoLocalID

/-- The stored form of an endpoint. -/
def WallEdgeEndpoint.canonical : WallEdgeEndpoint → String
  | .note id => id
  | .story todoLocalID => formatWallStoryEndpoint todoLocalID

def parseWallEdgeEndpoint (raw : String) : Result WallEdgeEndpoint :=
  let trimmed := trimSpace raw
  if trimmed = "" then throw ⟨.validation, "invalid edge endpoint"⟩
  else
    match cutPrefix trimmed wallStoryEndpointPrefix with
    | none => pure (.note trimmed)
    | some rest =>
        match parseInt rest with
        | none => throw ⟨.validation, "invalid story endpoint"⟩
        | some localID =>
            if localID ≤ 0 then throw ⟨.validation, "invalid story endpoint"⟩
            else pure (.story localID)

/-! ## Reading a wall -/

def maxWallNotes : ℕ := 500

def maxWallStories : ℕ := 500

def maxWallEdges : ℕ := 2000

def maxWallTextBytes : ℕ := 4000

def defaultNoteWidth : ℚ := 180

def defaultNoteHeight : ℚ := 140

def minNoteDimension : ℚ := 60

def maxNoteDimension : ℚ := 800

def maxNoteCoordinate : ℚ := 100000

/-- A placement with the local id of its todo. -/
structure WallStoryPlacement where
  todoID : ℤ
  todoLocalID : ℤ
  x : ℚ
  y : ℚ
  version : ℤ
  deriving DecidableEq, Repr

structure Wall where
  notes : List WallNote := []
  edges : List WallEdge := []
  stories : List WallStoryPlacement := []
  version : ℤ := 0
  updatedAt : ℤ := 0
  deriving DecidableEq, Repr

/-- The placements of a project joined with their todos. -/
def listWallStoryPlacements (db : DB) (projectID : ℤ) : List WallStoryPlacement :=
  (orderBy (·.todoID) (db.placements.filter fun p => p.projectID == projectID)).flatMap fun p =>
    (db.todos.filter fun t => t.id == p.todoID && t.projectID == p.projectID).map fun t =>
      ⟨p.todoID, t.localID, p.x, p.y, p.version⟩

/-- `GetWall`. A wall that was never written reads as an empty one. -/
def getWall (db : DB) (projectID : ℤ) : Wall :=
  match db.walls.find? fun w => w.projectID == projectID with
  | none => {}
  | some w => ⟨w.notes, w.edges, listWallStoryPlacements db projectID, w.version, w.updatedAt⟩

def resolveWallEdgeEndpoint (wall : Wall) : WallEdgeEndpoint → Bool
  | .story todoLocalID => wall.stories.any fun p => p.todoLocalID == todoLocalID
  | .note id => wall.notes.any fun n => n.id == id

/-! ## Writing a wall -/

def validateWallColor (c : String) : Result Unit :=
  reject (colorHexRe (trimSpace c) = false) ⟨.validation, "invalid color"⟩

def clampNoteDim (v fallback : ℚ) : ℚ :=
  if v = 0 then fallback
  else if v < minNoteDimension then minNoteDimension
  else if maxNoteDimension < v then maxNoteDimension
  else v

def clampNoteCoord (v : ℚ) : ℚ :=
  if v < -maxNoteCoordinate then -maxNoteCoordinate
  else if maxNoteCoordinate < v then maxNoteCoordinate
  else v

/-- Eight random bytes in hexadecimal. -/
def randomHex (draw : UInt64) : String := String.ofList (hexPadded 16 draw.toNat)

def newNoteID (draw : UInt64) : String := "n_" ++ randomHex draw

def newEdgeID (draw : UInt64) : String := "e_" ++ randomHex draw

/-- `INSERT … ON CONFLICT (project_id) DO UPDATE`: a row that is there is changed
by `f`, and else the row `w` is inserted, for which the project must exist. -/
def upsertWall (db : DB) (w : WallRow) (f : WallRow → WallRow) : Result DB :=
  if db.walls.any fun v => v.projectID == w.projectID then
    pure { db with walls := updateWhere (fun v => v.projectID == w.projectID) f db.walls }
  else do
    reject (w.projectID ∉ db.projects.map (·.id))
      ⟨.internal, "write wall: FOREIGN KEY constraint failed"⟩
    pure { db with walls := db.walls ++ [w] }

def writeWallLocked (ctx : Ctx) (db : DB) (projectID : ℤ) (wall : Wall) : Result DB :=
  let w : WallRow := ⟨projectID, wall.notes, wall.edges, wall.version, ctx.nowMs⟩
  upsertWall db w fun _ => w

def bumpWallVersion (ctx : Ctx) (db : DB) (projectID : ℤ) : Result DB :=
  upsertWall db ⟨projectID, [], [], 1, ctx.nowMs⟩ fun w =>
    { w with version := w.version + 1, updatedAt := ctx.nowMs }

structure CreateNoteInput where
  x : ℚ
  y : ℚ
  width : ℚ
  height : ℚ
  color : String
  text : String
  deriving DecidableEq, Repr

def createNote (ctx : Ctx) (db : DB) (projectID : ℤ) (draw : UInt64) (input : CreateNoteInput) :
    Result (DB × WallNote × Wall) := do
  validateWallColor input.color
  reject (maxWallTextBytes < byteLen input.text) ⟨.validation, "note text too long"⟩
  let wall := getWall db projectID
  reject (maxWallNotes ≤ wall.notes.length) ⟨.validation, "wall note limit reached"⟩
  let note : WallNote :=
    { id := newNoteID draw
      x := clampNoteCoord input.x
      y := clampNoteCoord input.y
      width := clampNoteDim input.width defaultNoteWidth
      height := clampNoteDim input.height defaultNoteHeight
      color := trimSpace input.color
      text := input.text
      version := 1 }
  let wall := { wall with notes := wall.notes ++ [note], version := wall.version + 1 }
  let db ← writeWallLocked ctx db projectID wall
  pure (db, note, { wall with updatedAt := ctx.nowMs })

structure PatchNoteInput where
  ifVersion : ℤ
  x : Option ℚ := none
  y : Option ℚ := none
  width : Option ℚ := none
  height : Option ℚ := none
  color : Option String := none
  text : Option String := none
  deriving DecidableEq, Repr

/-- The note after the fields of a patch were set. -/
def PatchNoteInput.apply (input : PatchNoteInput) (note : WallNote) : WallNote :=
  { note with
    x := (input.x.map clampNoteCoord).getD note.x
    y := (input.y.map clampNoteCoord).getD note.y
    width := (input.width.map fun v => clampNoteDim v defaultNoteWidth).getD note.width
    height := (input.height.map fun v => clampNoteDim v defaultNoteHeight).getD note.height
    color := (input.color.map trimSpace).getD note.color
    text := input.text.getD note.text
    version := note.version + 1 }

def patchNote (ctx : Ctx) (db : DB) (projectID : ℤ) (noteID : String) (input : PatchNoteInput) :
    Result (DB × WallNote × Wall) := do
  reject (∃ c ∈ input.color, colorHexRe (trimSpace c) = false) ⟨.validation, "invalid color"⟩
  reject (∃ t ∈ input.text, maxWallTextBytes < byteLen t) ⟨.validation, "note text too long"⟩
  let wall := getWall db projectID
  let some note := wall.notes.find? (·.id == noteID) | throw ⟨.notFound, ""⟩
  reject (input.ifVersion ≠ 0 ∧ note.version ≠ input.ifVersion)
    ⟨.conflict, "note version mismatch"⟩
  let note := input.apply note
  let wall := { wall with
    notes := wall.notes.set (wall.notes.findIdx (·.id == noteID)) note
    version := wall.version + 1 }
  let db ← writeWallLocked ctx db projectID wall
  pure (db, note, { wall with updatedAt := ctx.nowMs })

/-- The edge has the text as one of its ends. -/
def WallEdge.touches (endpoint : String) (e : WallEdge) : Bool :=
  e.fromRef == endpoint || e.toRef == endpoint

def deleteNote (ctx : Ctx) (db : DB) (projectID : ℤ) (noteID : String) : Result (DB × Wall) := do
  let wall := getWall db projectID
  reject (wall.notes.all fun n => n.id != noteID) ⟨.notFound, ""⟩
  let wall := { wall with
    notes := wall.notes.eraseP (·.id == noteID)
    edges := wall.edges.filter fun e => !e.touches noteID
    version := wall.version + 1 }
  let db ← writeWallLocked ctx db projectID wall
  pure (db, { wall with updatedAt := ctx.nowMs })

def createEdge (ctx : Ctx) (db : DB) (projectID : ℤ) (draw : UInt64)
    (fromEndpoint toEndpoint : String) : Result (DB × WallEdge × Wall) := do
  let fromEndpoint := trimSpace fromEndpoint
  let toEndpoint := trimSpace toEndpoint
  reject (fromEndpoint = "" ∨ toEndpoint = "") ⟨.validation, "from and to required"⟩
  let source ← parseWallEdgeEndpoint fromEndpoint
  let target ← parseWallEdgeEndpoint toEndpoint
  reject (source.canonical = target.canonical) ⟨.validation, "self-edges not allowed"⟩
  let wall := getWall db projectID
  reject (resolveWallEdgeEndpoint wall source = false ∨ resolveWallEdgeEndpoint wall target = false)
    ⟨.notFound, ""⟩
  match wall.edges.find? fun e =>
      (e.fromRef == source.canonical && e.toRef == target.canonical) ||
        (e.fromRef == target.canonical && e.toRef == source.canonical) with
  | some e => pure (db, e, wall)
  | none => do
      reject (maxWallEdges ≤ wall.edges.length) ⟨.validation, "wall edge limit reached"⟩
      let edge : WallEdge := ⟨newEdgeID draw, source.canonical, target.canonical⟩
      let wall := { wall with edges := wall.edges ++ [edge], version := wall.version + 1 }
      let db ← writeWallLocked ctx db projectID wall
      pure (db, edge, { wall with updatedAt := ctx.nowMs })

def deleteEdge (ctx : Ctx) (db : DB) (projectID : ℤ) (edgeID : String) : Result (DB × Wall) := do
  let wall := getWall db projectID
  reject (wall.edges.all fun e => e.id != edgeID) ⟨.notFound, ""⟩
  let wall := { wall with
    edges := wall.edges.eraseP (·.id == edgeID)
    version := wall.version + 1 }
  let db ← writeWallLocked ctx db projectID wall
  pure (db, { wall with updatedAt := ctx.nowMs })

/-- Every edge at a story leaves the wall of the project. The flag reports whether
there was one. -/
def removeWallStoryEdges (db : DB) (projectID : ℤ) (endpoint : String) : DB × Bool :=
  match db.walls.find? fun w => w.projectID == projectID with
  | none => (db, false)
  | some w =>
      if w.edges.any (·.touches endpoint) then
        ({ db with
            walls := updateWhere (fun v => v.projectID == projectID)
              (fun v => { v with edges := w.edges.filter fun e => !e.touches endpoint }) db.walls },
          true)
      else (db, false)

/-! ## Story placements -/

/-- `SELECT id FROM todos WHERE project_id = ? AND local_id = ?`. -/
def todoByLocalID (db : DB) (projectID localID : ℤ) : Option TodoRow :=
  db.todos.find? fun t => t.projectID == projectID && t.localID == localID

def pinWallStory (ctx : Ctx) (db : DB) (projectID localID : ℤ) (x y : ℚ) :
    Result (DB × WallStoryPlacement × Bool) := do
  reject (localID ≤ 0) ⟨.validation, "invalid todo local id"⟩
  let some t := todoByLocalID db projectID localID | throw ⟨.notFound, ""⟩
  match db.placements.find? fun p => p.projectID == projectID && p.todoID == t.id with
  | some p => pure (db, ⟨t.id, localID, p.x, p.y, p.version⟩, false)
  | none => do
      reject (maxWallStories ≤ (db.placements.filter fun p => p.projectID == projectID).length)
        ⟨.validation, "wall story limit reached"⟩
      reject (t.id ∈ db.placements.map (·.todoID))
        ⟨.internal, "insert wall story placement: UNIQUE constraint failed"⟩
      let db := { db with placements := db.placements ++
        [⟨projectID, t.id, clampNoteCoord x, clampNoteCoord y, 1⟩] }
      let db ← bumpWallVersion ctx db projectID
      pure (db, ⟨t.id, localID, clampNoteCoord x, clampNoteCoord y, 1⟩, true)

def patchWallStory (ctx : Ctx) (db : DB) (projectID localID ifVersion : ℤ) (x y : ℚ) :
    Result (DB × WallStoryPlacement) := do
  let some p := (listWallStoryPlacements db projectID).find? (·.todoLocalID == localID)
    | throw ⟨.notFound, ""⟩
  reject (ifVersion ≠ 0 ∧ p.version ≠ ifVersion) ⟨.conflict, "story placement version mismatch"⟩
  let p := { p with x := clampNoteCoord x, y := clampNoteCoord y, version := p.version + 1 }
  let db := { db with
    placements := updateWhere (fun r => r.projectID == projectID && r.todoID == p.todoID)
      (fun r => { r with x := p.x, y := p.y, version := p.version }) db.placements }
  let db ← bumpWallVersion ctx db projectID
  pure (db, p)

def unpinWallStory (ctx : Ctx) (db : DB) (projectID localID : ℤ) : Result DB := do
  let some t := todoByLocalID db projectID localID | throw ⟨.notFound, ""⟩
  reject (db.placements.all fun p => !(p.projectID == projectID && p.todoID == t.id))
    ⟨.notFound, ""⟩
  let db := { db with
    placements := deleteWhere (fun p => p.projectID == projectID && p.todoID == t.id)
      db.placements }
  let (db, _) := removeWallStoryEdges db projectID (formatWallStoryEndpoint localID)
  bumpWallVersion ctx db projectID

/-! ## What the operations do to the documents -/

/-- The notes and the edges of a project's wall. -/
def DB.wallDoc (db : DB) (projectID : ℤ) : List WallNote × List WallEdge :=
  ((db.walls.find? fun w => w.projectID == projectID).map fun w => (w.notes, w.edges)).getD ([], [])

theorem getWall_notes (db : DB) (projectID : ℤ) :
    (getWall db projectID).notes = (db.wallDoc projectID).1 := by
  unfold getWall DB.wallDoc
  cases db.walls.find? fun w => w.projectID == projectID <;> rfl

theorem getWall_edges (db : DB) (projectID : ℤ) :
    (getWall db projectID).edges = (db.wallDoc projectID).2 := by
  unfold getWall DB.wallDoc
  cases db.walls.find? fun w => w.projectID == projectID <;> rfl

theorem upsertWall_spec {db db' : DB} {w : WallRow} {f : WallRow → WallRow}
    (hf : ∀ v, v.projectID = w.projectID → (f v).projectID = w.projectID)
    (h : upsertWall db w f = .ok db') :
    db' = { db with walls := db'.walls } ∧ ∀ projectID,
      db'.walls.find? (fun v => v.projectID == projectID) =
        if projectID = w.projectID then
          some (((db.walls.find? fun v => v.projectID == projectID).map f).getD w)
        else db.walls.find? fun v => v.projectID == projectID := by
  unfold upsertWall at h
  split at h
  · rename_i hany
    cases h
    refine ⟨rfl, fun projectID => ?_⟩
    rw [find?_updateWhere WallRow.projectID hf]
    split
    · rename_i hpid
      subst hpid
      have hsome : (db.walls.find? fun v => v.projectID == w.projectID).isSome = true := by
        rw [List.find?_isSome]
        simpa using hany
      obtain ⟨v, hv⟩ := Option.isSome_iff_exists.mp hsome
      simp [hv]
    · simp
  · rename_i hany
    rw [bind_eq_ok] at h
    obtain ⟨_, _, h⟩ := h
    cases h
    refine ⟨rfl, fun projectID => ?_⟩
    have hnone : db.walls.find? (fun v => v.projectID == w.projectID) = none := by
      simpa using hany
    rw [List.find?_append]
    split
    · rename_i hpid
      simp [hpid, hnone]
    · rename_i hpid
      simp [Ne.symm hpid]

theorem writeWallLocked_spec {ctx : Ctx} {db db' : DB} {projectID : ℤ} {wall : Wall}
    (h : writeWallLocked ctx db projectID wall = .ok db') :
    db' = { db with walls := db'.walls } ∧ ∀ other, db'.wallDoc other =
      if other = projectID then (wall.notes, wall.edges) else db.wallDoc other := by
  obtain ⟨htables, hfind⟩ := upsertWall_spec (by intro v _; rfl) h
  refine ⟨htables, fun other => ?_⟩
  rw [DB.wallDoc, hfind]
  split
  · cases db.walls.find? fun v => v.projectID == other <;> rfl
  · rfl

theorem bumpWallVersion_spec {ctx : Ctx} {db db' : DB} {projectID : ℤ}
    (h : bumpWallVersion ctx db projectID = .ok db') :
    db' = { db with walls := db'.walls } ∧ ∀ other, db'.wallDoc other = db.wallDoc other := by
  obtain ⟨htables, hfind⟩ := upsertWall_spec (by intro v hv; exact hv) h
  refine ⟨htables, fun other => ?_⟩
  rw [DB.wallDoc, hfind, DB.wallDoc]
  split
  · cases db.walls.find? fun v => v.projectID == other <;> rfl
  · rfl

theorem removeWallStoryEdges_spec (db : DB) (projectID : ℤ) (endpoint : String) :
    ∃ walls, (removeWallStoryEdges db projectID endpoint).1 = { db with walls := walls } ∧
      ∀ other, DB.wallDoc { db with walls := walls } other =
        if other = projectID then
          ((db.wallDoc other).1, (db.wallDoc other).2.filter fun e => !e.touches endpoint)
        else db.wallDoc other := by
  unfold removeWallStoryEdges
  cases hfind : db.walls.find? fun w => w.projectID == projectID with
  | none =>
      refine ⟨db.walls, rfl, fun other => ?_⟩
      split
      · rename_i hother
        simp [DB.wallDoc, hother, hfind]
      · rfl
  | some w =>
      dsimp only
      split
      · refine ⟨_, rfl, fun other => ?_⟩
        have hupdate := find?_updateWhere WallRow.projectID (k := projectID)
          (f := fun v => { v with edges := w.edges.filter fun e => !e.touches endpoint })
          (fun _ hv => hv) other db.walls
        simp only [DB.wallDoc, hupdate]
        split
        · rename_i hother
          simp [hother, hfind]
        · simp
      · rename_i hclean
        refine ⟨db.walls, rfl, fun other => ?_⟩
        have hkept : w.edges.filter (fun e => !e.touches endpoint) = w.edges :=
          List.filter_eq_self.mpr fun e he => by simpa using fun h => hclean (List.any_eq_true.mpr ⟨e, he, h⟩)
        split
        · rename_i hother
          simp [DB.wallDoc, hother, hfind, hkept]
        · rfl

/-! ## What the operations leave alone -/

/-- The tables of walls and of placements; everything else is equal. -/
def WallOnly (db db' : DB) : Prop :=
  db' = { db with walls := db'.walls, placements := db'.placements }

theorem WallOnly.exists_eq {db db' : DB} (h : WallOnly db db') :
    ∃ walls placements, db' = { db with walls := walls, placements := placements } := ⟨_, _, h⟩

theorem writeWallLocked_wallOnly {ctx : Ctx} {db db' : DB} {projectID : ℤ} {wall : Wall}
    (h : writeWallLocked ctx db projectID wall = .ok db') : WallOnly db db' := by
  unfold WallOnly
  rw [(writeWallLocked_spec h).1]

theorem bumpWallVersion_wallOnly {ctx : Ctx} {db db₁ db' : DB} {projectID : ℤ}
    (h : bumpWallVersion ctx db₁ projectID = .ok db') (hdb₁ : WallOnly db db₁) :
    WallOnly db db' := by
  obtain ⟨walls, placements, rfl⟩ := hdb₁.exists_eq
  unfold WallOnly
  rw [(bumpWallVersion_spec h).1]

section

variable {ctx : Ctx} {db db' : DB} {projectID localID : ℤ}

theorem createNote_wallOnly {draw : UInt64} {input : CreateNoteInput}
    {out : DB × WallNote × Wall} (h : createNote ctx db projectID draw input = .ok out) :
    WallOnly db out.1 := by
  simp only [createNote, bind_eq_ok, pure_eq_ok] at h
  obtain ⟨_, _, _, _, _, _, db', hwrite, rfl⟩ := h
  exact writeWallLocked_wallOnly hwrite

theorem patchNote_wallOnly {noteID : String} {input : PatchNoteInput}
    {out : DB × WallNote × Wall} (h : patchNote ctx db projectID noteID input = .ok out) :
    WallOnly db out.1 := by
  simp only [patchNote, bind_eq_ok] at h
  obtain ⟨_, _, _, _, h⟩ := h
  split at h
  · simp only [bind_eq_ok, pure_eq_ok] at h
    obtain ⟨_, _, db', hwrite, rfl⟩ := h
    exact writeWallLocked_wallOnly hwrite
  · cases h

theorem deleteNote_wallOnly {noteID : String} {out : DB × Wall}
    (h : deleteNote ctx db projectID noteID = .ok out) : WallOnly db out.1 := by
  simp only [deleteNote, bind_eq_ok, pure_eq_ok] at h
  obtain ⟨_, _, db', hwrite, rfl⟩ := h
  exact writeWallLocked_wallOnly hwrite

theorem createEdge_wallOnly {draw : UInt64} {fromEndpoint toEndpoint : String}
    {out : DB × WallEdge × Wall}
    (h : createEdge ctx db projectID draw fromEndpoint toEndpoint = .ok out) :
    WallOnly db out.1 := by
  simp only [createEdge, bind_eq_ok] at h
  obtain ⟨_, _, source, _, target, _, _, _, _, _, h⟩ := h
  split at h
  · rw [pure_eq_ok] at h
    subst h
    rfl
  · simp only [bind_eq_ok, pure_eq_ok] at h
    obtain ⟨_, _, db', hwrite, rfl⟩ := h
    exact writeWallLocked_wallOnly hwrite

theorem deleteEdge_wallOnly {edgeID : String} {out : DB × Wall}
    (h : deleteEdge ctx db projectID edgeID = .ok out) : WallOnly db out.1 := by
  simp only [deleteEdge, bind_eq_ok, pure_eq_ok] at h
  obtain ⟨_, _, db', hwrite, rfl⟩ := h
  exact writeWallLocked_wallOnly hwrite

theorem pinWallStory_wallOnly {x y : ℚ} {out : DB × WallStoryPlacement × Bool}
    (h : pinWallStory ctx db projectID localID x y = .ok out) : WallOnly db out.1 := by
  simp only [pinWallStory, bind_eq_ok] at h
  obtain ⟨_, _, h⟩ := h
  split at h
  · split at h
    · rw [pure_eq_ok] at h
      subst h
      rfl
    · simp only [bind_eq_ok, pure_eq_ok] at h
      obtain ⟨_, _, _, _, db', hbump, rfl⟩ := h
      exact bumpWallVersion_wallOnly hbump rfl
  · cases h

theorem patchWallStory_wallOnly {ifVersion : ℤ} {x y : ℚ} {out : DB × WallStoryPlacement}
    (h : patchWallStory ctx db projectID localID ifVersion x y = .ok out) : WallOnly db out.1 := by
  simp only [patchWallStory] at h
  split at h
  · simp only [bind_eq_ok, pure_eq_ok] at h
    obtain ⟨_, _, db', hbump, rfl⟩ := h
    exact bumpWallVersion_wallOnly hbump rfl
  · cases h

theorem unpinWallStory_wallOnly (h : unpinWallStory ctx db projectID localID = .ok db') :
    WallOnly db db' := by
  simp only [unpinWallStory] at h
  split at h
  · simp only [bind_eq_ok] at h
    obtain ⟨_, _, hbump⟩ := h
    obtain ⟨walls, hremove, _⟩ := removeWallStoryEdges_spec _ projectID
      (formatWallStoryEndpoint localID)
    rw [hremove] at hbump
    exact bumpWallVersion_wallOnly hbump rfl
  · cases h

end

end Scrumboy
