import Scrumboy.Store.Projects
import Scrumboy.Store.Todos
import Scrumboy.Transition.Runs

/-!
# Requests

The interactive operations of the store as the inputs of one transition system.
A request that fails leaves the database as it was.
-/

namespace Scrumboy

open Go Sql

inductive Request
  | createProject (name : String) (workflow : Option (List WorkflowColumn))
  | addWorkflowColumn (projectID : ℤ) (name : String)
  | deleteWorkflowColumn (projectID : ℤ) (key : String)
  | createTodo (projectID : ℤ) (input : CreateTodoInput)
  | moveTodo (todoID : ℤ) (toColumnKey : String) (afterID beforeID : Option ℤ)
  | deleteTodo (todoID : ℤ)
  | archiveTodos (projectID : ℤ) (ids : List ℤ) (archive : Bool)
  | createNote (projectID : ℤ) (draw : UInt64) (input : CreateNoteInput)
  | patchNote (projectID : ℤ) (noteID : String) (input : PatchNoteInput)
  | deleteNote (projectID : ℤ) (noteID : String)
  | createEdge (projectID : ℤ) (draw : UInt64) (fromEndpoint toEndpoint : String)
  | deleteEdge (projectID : ℤ) (edgeID : String)
  | pinWallStory (projectID localID : ℤ) (x y : ℚ)
  | patchWallStory (projectID localID ifVersion : ℤ) (x y : ℚ)
  | unpinWallStory (projectID localID : ℤ)

/-- The database after a request, or the error that it returns. -/
def Request.exec (rt : Runtime) (ctx : Ctx) (db : DB) : Request → Result DB
  | .createProject name workflow => (·.1) <$> createProjectWithWorkflow ctx db name workflow
  | .addWorkflowColumn projectID name => (·.1) <$> Scrumboy.addWorkflowColumn db projectID name
  | .deleteWorkflowColumn projectID key => Scrumboy.deleteWorkflowColumn db projectID key
  | .createTodo projectID input => (·.1) <$> Scrumboy.createTodo rt ctx db projectID input
  | .moveTodo todoID toColumnKey afterID beforeID =>
      (·.1) <$> Scrumboy.moveTodo ctx db todoID toColumnKey afterID beforeID
  | .deleteTodo todoID => Scrumboy.deleteTodo ctx db todoID
  | .archiveTodos projectID ids archive =>
      (·.1) <$> archiveTodosByLocalID ctx db projectID ids archive
  | .createNote projectID draw input =>
      (·.1) <$> Scrumboy.createNote ctx db projectID draw input
  | .patchNote projectID noteID input => (·.1) <$> Scrumboy.patchNote ctx db projectID noteID input
  | .deleteNote projectID noteID => (·.1) <$> Scrumboy.deleteNote ctx db projectID noteID
  | .createEdge projectID draw fromEndpoint toEndpoint =>
      (·.1) <$> Scrumboy.createEdge ctx db projectID draw fromEndpoint toEndpoint
  | .deleteEdge projectID edgeID => (·.1) <$> Scrumboy.deleteEdge ctx db projectID edgeID
  | .pinWallStory projectID localID x y =>
      (·.1) <$> Scrumboy.pinWallStory ctx db projectID localID x y
  | .patchWallStory projectID localID ifVersion x y =>
      (·.1) <$> Scrumboy.patchWallStory ctx db projectID localID ifVersion x y
  | .unpinWallStory projectID localID => Scrumboy.unpinWallStory ctx db projectID localID

/-- A request as a transition: an error rolls everything back. -/
def serve (rt : Runtime) (db : DB) (r : Ctx × Request) : DB :=
  (r.2.exec rt r.1 db).toOption.getD db

/-- A property of the database that every successful request keeps holds after
every served request. -/
theorem serve_inv {rt : Runtime} {P : DB → Prop} {db : DB} {r : Ctx × Request} (hdb : P db)
    (h : ∀ db', r.2.exec rt r.1 db = .ok db' → P db') : P (serve rt db r) := by
  unfold serve
  cases hexec : r.2.exec rt r.1 db with
  | error e => exact hdb
  | ok db' => exact h db' hexec

/-- The requests that write the table of todos. -/
def Request.writesTodos : Request → Bool
  | .createTodo .. | .moveTodo .. | .deleteTodo .. | .archiveTodos .. => true
  | _ => false

/-- The requests that write the table of workflow columns. -/
def Request.writesColumns : Request → Bool
  | .createProject .. | .addWorkflowColumn .. | .deleteWorkflowColumn .. => true
  | _ => false

section

variable {rt : Runtime} {ctx : Ctx} {db db' : DB} {r : Request}

/-- A request of the wall changes walls and placements only. -/
theorem Request.exec_wallOnly (htodos : r.writesTodos = false) (hcols : r.writesColumns = false)
    (h : r.exec rt ctx db = .ok db') : WallOnly db db' := by
  cases r with
  | createProject name workflow => cases hcols
  | addWorkflowColumn projectID name => cases hcols
  | deleteWorkflowColumn projectID key => cases hcols
  | createTodo projectID input => cases htodos
  | moveTodo todoID toColumnKey afterID beforeID => cases htodos
  | deleteTodo todoID => cases htodos
  | archiveTodos projectID ids archive => cases htodos
  | createNote projectID draw input =>
      obtain ⟨out, hout, rfl⟩ := map_eq_ok.mp h
      exact createNote_wallOnly hout
  | patchNote projectID noteID input =>
      obtain ⟨out, hout, rfl⟩ := map_eq_ok.mp h
      exact patchNote_wallOnly hout
  | deleteNote projectID noteID =>
      obtain ⟨out, hout, rfl⟩ := map_eq_ok.mp h
      exact deleteNote_wallOnly hout
  | createEdge projectID draw fromEndpoint toEndpoint =>
      obtain ⟨out, hout, rfl⟩ := map_eq_ok.mp h
      exact createEdge_wallOnly hout
  | deleteEdge projectID edgeID =>
      obtain ⟨out, hout, rfl⟩ := map_eq_ok.mp h
      exact deleteEdge_wallOnly hout
  | pinWallStory projectID localID x y =>
      obtain ⟨out, hout, rfl⟩ := map_eq_ok.mp h
      exact pinWallStory_wallOnly hout
  | patchWallStory projectID localID ifVersion x y =>
      obtain ⟨out, hout, rfl⟩ := map_eq_ok.mp h
      exact patchWallStory_wallOnly hout
  | unpinWallStory projectID localID => exact unpinWallStory_wallOnly h

theorem Request.exec_todos (htodos : r.writesTodos = false) (h : r.exec rt ctx db = .ok db') :
    db'.todos = db.todos := by
  cases hcols : r.writesColumns with
  | false =>
      obtain ⟨_, _, rfl⟩ := (Request.exec_wallOnly htodos hcols h).exists_eq
      rfl
  | true =>
      cases r with
      | createProject name workflow =>
          obtain ⟨out, hout, rfl⟩ := map_eq_ok.mp h
          obtain ⟨⟨_, _, _, _, heq⟩, _⟩ := createProjectWithWorkflow_spec hout
          rw [heq]
      | addWorkflowColumn projectID name =>
          obtain ⟨out, hout, rfl⟩ := map_eq_ok.mp h
          rw [(addWorkflowColumn_spec hout).1]
      | deleteWorkflowColumn projectID key => rw [deleteWorkflowColumn_columnsOnly h]
      | _ => cases hcols

end

end Scrumboy
