import Scrumboy.Store.Placement
import Scrumboy.Store.Updates

/-!
# Expired boards

A board with an expiry date that has passed stays in the database until a janitor
deletes it. Until then every request is supposed to be turned away. The operations on
todos are, with one exception: a move asks for the project without asking whether it
expired, and then records activity, which gives the board a new term.
-/

namespace Scrumboy

open Go Sql

/-- The operations that change the todos of a project and their links. -/
inductive TodoMutation
  | createTodo (projectID : ℤ) (input : CreateTodoInput)
  | updateTodo (todoID : ℤ) (input : UpdateTodoInput)
  | moveTodo (todoID : ℤ) (toColumnKey : String) (afterID beforeID : Option ℤ)
  | moveTodoByLocalID (projectID localID : ℤ) (toColumnKey : String)
      (afterLocalID beforeLocalID : Option ℤ)
  | deleteTodo (todoID : ℤ)
  | archiveTodos (projectID : ℤ) (ids : List ℤ) (archive : Bool)
  | addLink (projectID fromLocalID toLocalID : ℤ) (linkType : String)
  | removeLink (projectID fromLocalID toLocalID : ℤ)

namespace TodoMutation

def exec (rt : Runtime) (ctx : Ctx) (db : DB) : TodoMutation → Result DB
  | .createTodo projectID input => (·.1) <$> Scrumboy.createTodo rt ctx db projectID input
  | .updateTodo todoID input => (·.1) <$> Scrumboy.updateTodo rt ctx db todoID input
  | .moveTodo todoID toColumnKey afterID beforeID =>
      (·.1) <$> Scrumboy.moveTodo ctx db todoID toColumnKey afterID beforeID
  | .moveTodoByLocalID projectID localID toColumnKey afterLocalID beforeLocalID =>
      (·.1) <$> Scrumboy.moveTodoByLocalID ctx db projectID localID toColumnKey afterLocalID
        beforeLocalID
  | .deleteTodo todoID => Scrumboy.deleteTodo ctx db todoID
  | .archiveTodos projectID ids archive => (·.1) <$> archiveTodosByLocalID ctx db projectID ids archive
  | .addLink projectID fromLocalID toLocalID linkType =>
      Scrumboy.addLink ctx db projectID fromLocalID toLocalID linkType
  | .removeLink projectID fromLocalID toLocalID =>
      Scrumboy.removeLink ctx db projectID fromLocalID toLocalID

/-- The mutation is one of the project. Where it names a todo by its id, it is one of
the project of that todo. -/
def IsOn (db : DB) (projectID : ℤ) : TodoMutation → Prop
  | .createTodo q _ | .moveTodoByLocalID q _ _ _ _ | .archiveTodos q _ _ | .addLink q _ _ _
  | .removeLink q _ _ => q = projectID
  | .updateTodo todoID _ | .moveTodo todoID _ _ _ | .deleteTodo todoID =>
      ∀ t, getTodo db todoID = .ok t → t.projectID = projectID

end TodoMutation

/-- What a move asks for besides the right to move: an active todo that is in a column
of its project, a column to go to, and neighbours there. -/
def MoveAccepted (db : DB) (todoID : ℤ) (toColumnKey : String) (afterID beforeID : Option ℤ) : Prop :=
  afterID ≠ some todoID ∧ beforeID ≠ some todoID ∧ ∃ t, getTodo db todoID = .ok t ∧
    t.archivedAt = none ∧ toColumnKey ∈ db.columnKeys t.projectID ∧
    t.columnKey ∈ db.columnKeys t.projectID ∧
    (computeNewRank db t.projectID toColumnKey (some todoID) afterID beforeID).isOk = true

/-- The mutation is a move that passes the checks of moves. -/
def TodoMutation.IsAcceptedMove (db : DB) : TodoMutation → Prop
  | .moveTodo todoID toColumnKey afterID beforeID =>
      MoveAccepted db todoID toColumnKey afterID beforeID
  | .moveTodoByLocalID projectID localID toColumnKey afterLocalID beforeLocalID =>
      ∃ t afterID beforeID, getTodoRowByLocalID db projectID localID = .ok t ∧
        neighbourID db projectID afterLocalID = .ok afterID ∧
        neighbourID db projectID beforeLocalID = .ok beforeID ∧
        MoveAccepted db t.id toColumnKey afterID beforeID
  | _ => False

/-- The mutation fails, and the todos, the links and the expiry date of the project are
what they were. -/
def TodoMutation.Frozen (rt : Runtime) (ctx : Ctx) (db : DB) (projectID : ℤ) (m : TodoMutation) :
    Prop :=
  (m.exec rt ctx db).isOk = false ∧ ∀ db', db' = (m.exec rt ctx db).toOption.getD db →
    (∀ t, t.projectID = projectID → (t ∈ db'.todos ↔ t ∈ db.todos)) ∧
    (∀ l : LinkRow, l.projectID = projectID → (l ∈ db'.links ↔ l ∈ db.links)) ∧
    (getProject db' projectID).toOption.bind (·.expiresAt) =
      (getProject db projectID).toOption.bind (·.expiresAt)

section

variable {rt : Runtime} {ctx : Ctx} {db : DB} {projectID : ℤ} {p : ProjectRow}

theorem getProjectForWrite_of_expired (hp : getProject db projectID = .ok p)
    (hexpired : ∃ ms ∈ p.expiresAt, ms ≤ ctx.nowMs) (q : ProjectRow) :
    getProjectForWrite ctx db projectID ≠ .ok q := by
  obtain ⟨ms, hms, hle⟩ := hexpired
  have hsome : p.expiresAt.isSome = true := Option.isSome_iff_exists.mpr ⟨ms, hms⟩
  intro h
  simp only [getProjectForWrite, hp, ok_bind, hsome, if_true, rejectIfExpiredTemporaryProject,
    bind_eq_ok, reject_eq_ok] at h
  obtain ⟨_, hlive, _⟩ := h
  exact hlive ⟨ms, hms, hle⟩

/-- Whether a move succeeds on a board that has an expiry date is not a matter of that
date. -/
theorem moveTodo_isOk_iff {todoID : ℤ} {toColumnKey : String} {afterID beforeID : Option ℤ}
    (hp : ∀ t, getTodo db todoID = .ok t → t.projectID = projectID)
    (hproject : getProject db projectID = .ok p) (htemp : p.expiresAt.isSome = true) :
    (moveTodo ctx db todoID toColumnKey afterID beforeID).isOk = true ↔
      MoveAccepted db todoID toColumnKey afterID beforeID := by
  have hright : ∀ right, requireTodoRight ctx db p right = .ok () := by
    intro right
    have hnone : p.expiresAt.isNone = false := by simpa using htemp
    simp [requireTodoRight, hnone, pure, Except.pure]
  constructor
  · intro hok
    obtain ⟨out, h⟩ := exists_of_isOk hok
    simp only [moveTodo, bind_eq_ok, reject_eq_ok, not_not] at h
    obtain ⟨_, hafter, _, hbefore, t, hget, q, hq, _, _, _, hactive, target, htarget, current, hcurrent,
      rank, hrank, _⟩ := h
    refine ⟨hafter, hbefore, t, hget, hactive, ?_, ?_, by rw [hrank]; rfl⟩
    · rw [← validateProjectColumnKey_isOk_iff, htarget]
      rfl
    · rw [← validateProjectColumnKey_isOk_iff, hcurrent]
      rfl
  · rintro ⟨hafter, hbefore, t, hget, hactive, htarget, hcurrent, hrank⟩
    obtain rfl := hp t hget
    rw [← validateProjectColumnKey_isOk_iff] at htarget hcurrent
    obtain ⟨target, htarget⟩ := exists_of_isOk htarget
    obtain ⟨current, hcurrent⟩ := exists_of_isOk hcurrent
    obtain ⟨⟨db₁, rank⟩, hrank⟩ := exists_of_isOk hrank
    rw [moveTodo, reject_bind_of_not hafter, reject_bind_of_not hbefore, hget, ok_bind, hproject,
      ok_bind, hright, ok_bind, reject_bind_of_not (by simp [hactive]), htarget, ok_bind, hcurrent,
      ok_bind, hrank, ok_bind]
    rfl

theorem getTodoRowByLocalID_eq_ok {localID : ℤ} {t : TodoRow}
    (h : getTodoRowByLocalID db projectID localID = .ok t) :
    t ∈ db.todos ∧ t.projectID = projectID := by
  unfold getTodoRowByLocalID at h
  split at h
  · rename_i u hfind
    cases h
    have hsel := List.find?_some hfind
    simp only [Bool.and_eq_true, beq_iff_eq] at hsel
    exact ⟨List.mem_of_find?_eq_some hfind, hsel.1⟩
  · cases h

theorem isOk_map {α β : Type} (f : α → β) (x : Result α) : (f <$> x).isOk = x.isOk := by
  cases x <;> rfl

/-- A mutation of an expired board succeeds exactly if it is a move that passes the
checks of moves. -/
theorem TodoMutation.isOk_of_expired {m : TodoMutation} (hids : (db.todos.map (·.id)).Nodup)
    (hp : getProject db projectID = .ok p) (hexpired : ∃ ms ∈ p.expiresAt, ms ≤ ctx.nowMs) (hon : m.IsOn db projectID) :
    (m.exec rt ctx db).isOk = true ↔ m.IsAcceptedMove db := by
  have hwrite := getProjectForWrite_of_expired hp hexpired
  have htemp : p.expiresAt.isSome = true := by
    obtain ⟨ms, hms, _⟩ := hexpired
    exact Option.isSome_iff_exists.mpr ⟨ms, hms⟩
  cases m with
  | createTodo q input =>
      cases hon
      refine iff_of_false (fun hok => ?_) id
      obtain ⟨out, h⟩ := exists_of_isOk hok
      obtain ⟨out, h, _⟩ := map_eq_ok.mp h
      simp only [Scrumboy.createTodo, bind_eq_ok] at h
      obtain ⟨_, _, q, hq, _⟩ := h
      exact hwrite q hq
  | updateTodo todoID input =>
      refine iff_of_false (fun hok => ?_) id
      obtain ⟨out, h⟩ := exists_of_isOk hok
      obtain ⟨out, h, _⟩ := map_eq_ok.mp h
      simp only [Scrumboy.updateTodo, bind_eq_ok] at h
      obtain ⟨t, hget, q, hq, _⟩ := h
      exact hwrite q (hon t hget ▸ hq)
  | moveTodo todoID toColumnKey afterID beforeID =>
      rw [exec, isOk_map, moveTodo_isOk_iff hon hp htemp]
      rfl
  | moveTodoByLocalID q localID toColumnKey afterLocalID beforeLocalID =>
      cases hon
      rw [exec, isOk_map]
      have hown : ∀ {t : TodoRow}, getTodoRowByLocalID db projectID localID = .ok t →
          ∀ u, getTodo db t.id = .ok u → u.projectID = projectID := by
        intro t ht u hu
        obtain ⟨htmem, htp⟩ := getTodoRowByLocalID_eq_ok ht
        obtain ⟨humem, hid⟩ := getTodo_eq_ok hu
        rw [List.inj_on_of_nodup_map hids humem htmem hid, htp]
      constructor
      · intro hok
        obtain ⟨out, h⟩ := exists_of_isOk hok
        simp only [Scrumboy.moveTodoByLocalID, bind_eq_ok] at h
        obtain ⟨t, hget, afterID, hafter, beforeID, hbefore, hmove⟩ := h
        refine ⟨t, afterID, beforeID, hget, hafter, hbefore, ?_⟩
        rw [← moveTodo_isOk_iff (hown hget) hp htemp, hmove]
        rfl
      · rintro ⟨t, afterID, beforeID, hget, hafter, hbefore, hmove⟩
        rw [← moveTodo_isOk_iff (hown hget) hp htemp] at hmove
        rwa [Scrumboy.moveTodoByLocalID, hget, ok_bind, hafter, ok_bind, hbefore, ok_bind]
  | deleteTodo todoID =>
      refine iff_of_false (fun hok => ?_) id
      obtain ⟨out, h⟩ := exists_of_isOk hok
      simp only [exec, Scrumboy.deleteTodo, bind_eq_ok] at h
      obtain ⟨t, hget, q, hq, _⟩ := h
      exact hwrite q (hon t hget ▸ hq)
  | archiveTodos q ids archive =>
      cases hon
      refine iff_of_false (fun hok => ?_) id
      obtain ⟨out, h⟩ := exists_of_isOk hok
      obtain ⟨out, h, _⟩ := map_eq_ok.mp h
      simp only [archiveTodosByLocalID, bind_eq_ok] at h
      obtain ⟨_, _, q, hq, _⟩ := h
      exact hwrite q hq
  | addLink q fromLocalID toLocalID linkType =>
      cases hon
      refine iff_of_false (fun hok => ?_) id
      obtain ⟨out, h⟩ := exists_of_isOk hok
      simp only [exec, Scrumboy.addLink, bind_eq_ok] at h
      obtain ⟨_, _, _, _, _, _, _, _, q, hq, _⟩ := h
      exact hwrite q hq
  | removeLink q fromLocalID toLocalID =>
      cases hon
      refine iff_of_false (fun hok => ?_) id
      obtain ⟨out, h⟩ := exists_of_isOk hok
      simp only [exec, Scrumboy.removeLink, bind_eq_ok] at h
      obtain ⟨q, hq, _⟩ := h
      exact hwrite q hq

/-- A mutation of a board whose expiry date has passed fails and changes nothing, unless
it is a move that passes the checks of moves. -/
theorem expired_board_frozen_iff (rt : Runtime) (ctx : Ctx) (db : DB)
    (hids : (db.todos.map (·.id)).Nodup) (projectID : ℤ) (p : ProjectRow)
    (hp : getProject db projectID = .ok p) (ms : ℤ) (hexpires : p.expiresAt = some ms)
    (hpast : ms < ctx.nowMs) (m : TodoMutation) (hon : m.IsOn db projectID) :
    m.Frozen rt ctx db projectID ↔ ¬ m.IsAcceptedMove db := by
  have hiff : (m.exec rt ctx db).isOk = true ↔ m.IsAcceptedMove db :=
    TodoMutation.isOk_of_expired hids hp ⟨ms, hexpires, hpast.le⟩ hon
  rw [← hiff, Bool.not_eq_true]
  refine ⟨fun h => h.1, fun h => ⟨h, ?_⟩⟩
  rintro db' rfl
  have hnone : (m.exec rt ctx db).toOption = none := by
    cases hexec : m.exec rt ctx db with
    | error e => rfl
    | ok db' =>
        rw [hexec] at h
        cases h
  rw [hnone]
  exact ⟨fun _ _ => Iff.rfl, fun _ _ => Iff.rfl, rfl⟩

end

/-- A temporary board that expired long ago. -/
def expiredBoard : DB :=
  { crowdedBoard with
    projects := [{ defaultProjectRow 0 with
      id := 1
      name := "Board"
      slug := "board"
      expiresAt := some 10 }] }

/-- A new todo on it is refused. -/
theorem expired_board_frozen_create :
    (TodoMutation.createTodo 1 { title := "t" }).Frozen plainRuntime ⟨none, 600000⟩ expiredBoard 1 :=
  (expired_board_frozen_iff plainRuntime ⟨none, 600000⟩ expiredBoard (by decide) 1 _ rfl 10 rfl
    (by decide) (.createTodo 1 { title := "t" }) rfl).mpr id

/-- A move goes through, and gives the board another ninety days. -/
theorem expired_board_moves :
    ¬ (TodoMutation.moveTodo 1 "done" none none).Frozen plainRuntime ⟨none, 600000⟩ expiredBoard 1 ∧
      ((getProject (((TodoMutation.moveTodo 1 "done" none none).exec plainRuntime ⟨none, 600000⟩
        expiredBoard).toOption.getD expiredBoard) 1).toOption.bind (·.expiresAt)) =
        some (temporaryBoardExpiresAtMs 600000) := by
  refine ⟨fun h => ?_, by decide +kernel⟩
  have hok : ((TodoMutation.moveTodo 1 "done" none none).exec plainRuntime ⟨none, 600000⟩
      expiredBoard).isOk = true := by decide +kernel
  rw [h.1] at hok
  cases hok

end Scrumboy
