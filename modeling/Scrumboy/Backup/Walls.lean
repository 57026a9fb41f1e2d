import Scrumboy.Backup.Format
import Scrumboy.Store.Wall

/-!
# The wall of a backup

`upsertWallForImportTx` writes the wall of a backup to a project. Notes keep their
ids; stories are named by local ids of the backup, and `resolveStory` gives the
local id that such a story has in the destination. What cannot be resolved is
dropped, some of it with a warning.
-/

namespace Scrumboy

open Go Sql

/-- The random numbers that an import of one project may draw: a slug, and the ids
of the notes and edges at each place of the backup that come without one. -/
structure ProjectDraws where
  slug : String
  note : ℕ → UInt64
  edge : ℕ → UInt64

/-- The text `s[:n]` as it is stored: each byte of a character that the cut goes
through is replaced. -/
def cutText (n : ℕ) (s : String) : String :=
  let kept := takeBytes n s
  kept ++ String.ofList (List.replicate (min n (byteLen s) - byteLen kept) (Char.ofNat 0xFFFD))

/-- One note of a backup in its stored form. -/
def importNote (id : String) (n : WallNote) : WallNote :=
  { id := id
    x := clampNoteCoord n.x
    y := clampNoteCoord n.y
    width := clampNoteDim n.width defaultNoteWidth
    height := clampNoteDim n.height defaultNoteHeight
    color := if colorHexRe (trimSpace n.color) then trimSpace n.color else "#FFFFFF"
    text := cutText maxWallTextBytes n.text
    version := if n.version ≤ 0 then 1 else n.version }

/-- The notes of a backup, without those that repeat an id. -/
def importNotes (draws : ProjectDraws) (notes : List WallNote) : List WallNote :=
  (notes.take maxWallNotes).zipIdx.foldl (fun kept ni =>
    let (n, i) := ni
    let id := if trimSpace n.id = "" then newNoteID (draws.note i) else trimSpace n.id
    if id ∈ kept.map (·.id) then kept else kept ++ [importNote id n]) []

/-- The loop over the stories of a wall: the local ids of the backup that were seen,
the local ids of the destination that are placed, and the warnings. -/
structure StoryScan where
  db : DB
  seen : List ℤ := []
  placed : List ℤ := []
  warnings : List String

def danglingStory (s : StoryScan) (localID : ℤ) : StoryScan :=
  { s with
    seen := localID :: s.seen
    warnings := s.warnings ++ ["Dropped dangling Wall placement for story #" ++ formatInt localID] }

def importStory (projectID : ℤ) (resolveStory : ℤ → Option ℤ) (s : StoryScan)
    (story : WallStoryPlacementExport) : Result StoryScan :=
  if story.localID ≤ 0 then
    pure { s with warnings := s.warnings ++ ["Dropped Wall story placement with invalid localId"] }
  else if story.localID ∈ s.seen then
    pure { s with
      warnings := s.warnings ++
        ["Dropped duplicate Wall placement for story #" ++ formatInt story.localID] }
  else
    match resolveStory story.localID with
    | none => pure (danglingStory s story.localID)
    | some destLocalID =>
        match todoByLocalID s.db projectID destLocalID with
        | none => pure (danglingStory s story.localID)
        | some t => do
            reject (t.id ∈ s.db.placements.map (·.todoID))
              ⟨.internal, "insert imported wall story #" ++ formatInt story.localID ++
                ": UNIQUE constraint failed"⟩
            pure { s with
              db := { s.db with placements := s.db.placements ++
                [⟨projectID, t.id, clampNoteCoord story.x, clampNoteCoord story.y,
                  if story.version ≤ 0 then 1 else story.version⟩] }
              seen := story.localID :: s.seen
              placed := s.placed ++ [destLocalID] }

/-- The local ids of the stories that are on the wall of a project. -/
def placedLocalIDs (db : DB) (projectID : ℤ) : List ℤ :=
  (db.placements.filter fun p => p.projectID == projectID).flatMap fun p =>
    (db.todos.filter fun t => t.id == p.todoID).map (·.localID)

/-- The stories of a backup replace those on the wall. A backup of a version that
had no stories leaves them alone. -/
def importStories (db : DB) (projectID : ℤ) (payload : WallExport)
    (resolveStory : ℤ → Option ℤ) (warnings : List String) : Result StoryScan :=
  if payload.storiesPresent || !payload.stories.isEmpty then
    payload.stories.foldlM (importStory projectID resolveStory)
      { db := { db with
          placements := deleteWhere (fun p => p.projectID == projectID) db.placements }
        warnings := warnings }
  else pure { db := db, placed := placedLocalIDs db projectID, warnings := warnings }

/-- The end of an edge in the destination, if there is one. -/
def resolveImportEndpoint (resolveStory : ℤ → Option ℤ) (noteIDs : List String) (placed : List ℤ) :
    WallEdgeEndpoint → Option WallEdgeEndpoint
  | .note id => if id ∈ noteIDs then some (.note id) else none
  | .story localID => do
      let dest ← resolveStory localID
      if dest ∈ placed then
        (parseWallEdgeEndpoint (formatWallStoryEndpoint dest)).toOption
      else none

/-- The key under which an edge is told apart from the others. -/
def edgeKey (a b : String) : String := if b < a then b ++ "|" ++ a else a ++ "|" ++ b

/-- The loop over the edges of a wall. -/
structure EdgeScan where
  kept : List WallEdge := []
  seen : List String := []
  warnings : List String

def EdgeScan.warn (s : EdgeScan) (what endpoint : String) : EdgeScan :=
  { s with warnings := s.warnings ++ ["Dropped Wall edge with " ++ what ++ " endpoint " ++
      quote endpoint] }

def importEdge (draws : ProjectDraws) (resolve : WallEdgeEndpoint → Option WallEdgeEndpoint)
    (s : EdgeScan) (ei : WallEdge × ℕ) : EdgeScan :=
  let (e, i) := ei
  match parseWallEdgeEndpoint e.fromRef, parseWallEdgeEndpoint e.toRef with
  | .error _, _ => s.warn "invalid" (trimSpace e.fromRef)
  | .ok _, .error _ => s.warn "invalid" (trimSpace e.toRef)
  | .ok source, .ok target =>
      if source.canonical = target.canonical then s
      else
        match resolve source, resolve target with
        | none, _ => s.warn "unknown" source.canonical
        | some _, none => s.warn "unknown" target.canonical
        | some source, some target =>
            let key := edgeKey source.canonical target.canonical
            if source.canonical = target.canonical ∨ key ∈ s.seen then s
            else
              { s with
                kept := s.kept ++
                  [⟨if trimSpace e.id = "" then newEdgeID (draws.edge i) else trimSpace e.id,
                    source.canonical, target.canonical⟩]
                seen := key :: s.seen }

def upsertWallForImport (ctx : Ctx) (draws : ProjectDraws) (db : DB) (projectID : ℤ)
    (payload : Option WallExport) (resolveStory : ℤ → Option ℤ) (warnings : List String) :
    Result (DB × List String) :=
  match payload with
  | none => pure (db, warnings)
  | some payload => do
      let notes := importNotes draws payload.notes
      let stories ← importStories db projectID payload resolveStory warnings
      let edges := (payload.edges.take maxWallEdges).zipIdx.foldl
        (importEdge draws (resolveImportEndpoint resolveStory (notes.map (·.id)) stories.placed))
        { warnings := stories.warnings }
      let w : WallRow :=
        ⟨projectID, notes, edges.kept, if payload.version ≤ 0 then 1 else payload.version, ctx.nowMs⟩
      let db ← upsertWall stories.db w fun _ => w
      pure (db, edges.warnings)

end Scrumboy
