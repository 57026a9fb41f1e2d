import Scrumboy.Store.Projects
import Scrumboy.Store.Updates
import Mathlib.Tactic.Ring

/-!
# The size of the backlog

`GetBacklogSize` gives one point for each day of a window. The scope of a day counts the todos
that were created up to its end, and the new todos of a day are those created behind its start and
up to its end, so that the days tell all instants of the window apart but the first.
-/

set_option linter.dupNamespace false

namespace Scrumboy

open Go Sql

/-- The milliseconds of a day in UTC. -/
def dayMs : ℤ := 86400000

/-- The midnight that the day of an instant starts with. -/
def midnight (t : ℤ) : ℤ := t / dayMs * dayMs

structure BurndownTodoEvent where
  id : ℤ
  columnKey : String
  createdAt : ℤ
  updatedAt : ℤ
  doneAt : Option ℤ
  estimationPoints : Option ℤ
  deriving DecidableEq, Repr

structure BurndownPoint where
  date : ℤ
  incompleteCount : Option ℕ
  totalScope : Option ℕ
  incompletePoints : Option ℤ
  totalScopePoints : Option ℤ
  newTodosCount : ℕ
  deriving DecidableEq, Repr

def loadBurndownTodos (db : DB) (projectID : ℤ) : List BurndownTodoEvent :=
  (orderBy (·.createdAt) (db.todos.filter (·.projectID == projectID))).map fun t =>
    ⟨t.id, t.columnKey, t.createdAt, t.updatedAt, t.doneAt, t.estimationPoints⟩

def getWorkflowDoneColumnKey (db : DB) (projectID : ℤ) : Result String :=
  match db.columns.find? fun c => c.projectID == projectID && c.isDone with
  | some c => .ok c.key
  | none => .error ⟨.validation, "project has no done column"⟩

def hasAnyEstimatedWork (todos : List BurndownTodoEvent) : Bool :=
  todos.any (·.estimationPoints.isSome)

def isIncompleteAtDayEnd (t : BurndownTodoEvent) (dayEnd : ℤ) (doneColumnKey : String) : Bool :=
  if t.columnKey ≠ doneColumnKey then true
  else decide (dayEnd < t.doneAt.getD t.updatedAt)

def workValue (t : BurndownTodoEvent) (usePoints : Bool) : ℤ :=
  if usePoints = false then 1 else t.estimationPoints.getD 0

/-- What the loop over the todos adds up for a day. -/
structure DayCounts where
  newTodosCount : ℕ := 0
  totalScope : ℕ := 0
  incompleteCount : ℕ := 0
  totalScopePoints : ℤ := 0
  incompletePoints : ℤ := 0
  deriving DecidableEq, Repr

/-- Whether a todo is new on the day that starts at `dayStart`. -/
def isNewOn (dayStart : ℤ) (t : BurndownTodoEvent) : Bool :=
  decide (dayStart < t.createdAt) && decide (t.createdAt ≤ dayStart + dayMs)

def countTodo (doneColumnKey : String) (pointsMode : Bool) (dayStart : ℤ) (c : DayCounts)
    (t : BurndownTodoEvent) : DayCounts :=
  let c := if isNewOn dayStart t then { c with newTodosCount := c.newTodosCount + 1 } else c
  if dayStart + dayMs < t.createdAt then c
  else
    let points := if pointsMode then workValue t true else 0
    let c := { c with
      totalScope := c.totalScope + 1
      totalScopePoints := c.totalScopePoints + points }
    if isIncompleteAtDayEnd t (dayStart + dayMs) doneColumnKey then
      { c with
        incompleteCount := c.incompleteCount + 1
        incompletePoints := c.incompletePoints + points }
    else c

/-- The point of a day. Before the first todo there are no counts. -/
def backlogPoint (todos : List BurndownTodoEvent) (doneColumnKey : String) (pointsMode : Bool)
    (dayStart : ℤ) : BurndownPoint :=
  let c := todos.foldl (countTodo doneColumnKey pointsMode dayStart) {}
  let counted := todos.head?.all fun t => decide (midnight t.createdAt ≤ dayStart)
  { date := dayStart
    incompleteCount := if counted then some c.incompleteCount else none
    totalScope := if counted then some c.totalScope else none
    incompletePoints := if counted && pointsMode then some c.incompletePoints else none
    totalScopePoints := if counted && pointsMode then some c.totalScopePoints else none
    newTodosCount := c.newTodosCount }

/-- The first midnight of the window: the one of the first todo, or the one thirteen days ago if
that is earlier. -/
def backlogStart (nowMs : ℤ) (todos : List BurndownTodoEvent) : ℤ :=
  let startDate := midnight nowMs - 13 * dayMs
  match todos.head? with
  | some t => if midnight t.createdAt < startDate then midnight t.createdAt else startDate
  | none => startDate

/-- The midnights from `currentDate` to today. -/
def backlogDays (todayStart currentDate : ℤ) : List ℤ :=
  if currentDate ≤ todayStart then currentDate :: backlogDays todayStart (currentDate + dayMs)
  else []
termination_by (todayStart + 1 - currentDate).toNat
decreasing_by
  unfold dayMs
  omega

def getBacklogSize (ctx : Ctx) (db : DB) (projectID : ℤ) : Result (List BurndownPoint) := do
  let project ← getProjectForRead ctx db projectID
  let doneColumnKey := (getWorkflowDoneColumnKey db projectID).toOption.getD "done"
  let todos := loadBurndownTodos db projectID
  let pointsMode := project.estimationMode == "MODIFIED_FIBONACCI" && hasAnyEstimatedWork todos
  pure ((backlogDays (midnight ctx.nowMs) (backlogStart ctx.nowMs todos)).map
    (backlogPoint todos doneColumnKey pointsMode))

/-! ## Days -/

theorem dayMs_dvd_midnight (t : ℤ) : dayMs ∣ midnight t := Dvd.intro_left _ rfl

theorem le_of_mem_backlogDays {day currentDate todayStart : ℤ}
    (h : day ∈ backlogDays todayStart currentDate) : currentDate ≤ day ∧ day ≤ todayStart := by
  induction currentDate using backlogDays.induct todayStart with
  | case1 currentDate hle ih =>
      rw [backlogDays, if_pos hle, List.mem_cons] at h
      rcases h with rfl | h
      · exact ⟨le_refl _, hle⟩
      · have hday := ih h
        unfold dayMs at hday
        omega
  | case2 currentDate hgt =>
      rw [backlogDays, if_neg hgt] at h
      cases h

/-- The days follow each other. -/
theorem backlogDays_getElem? (todayStart currentDate : ℤ) (i : ℕ) :
    (backlogDays todayStart currentDate)[i]? =
      if currentDate + i * dayMs ≤ todayStart then some (currentDate + i * dayMs) else none := by
  induction currentDate using backlogDays.induct todayStart generalizing i with
  | case1 currentDate hle ih =>
      rw [backlogDays, if_pos hle]
      cases i with
      | zero => simp [hle]
      | succ i =>
          have hstep : currentDate + dayMs + i * dayMs = currentDate + (i + 1 : ℕ) * dayMs := by
            push_cast
            ring
          rw [List.getElem?_cons_succ, ih, hstep]
  | case2 currentDate hgt =>
      have hpos : 0 ≤ (i : ℤ) * dayMs := by unfold dayMs; omega
      rw [backlogDays, if_neg hgt, List.getElem?_nil, if_neg (by omega)]

/-- An instant behind the first midnight and up to the end of the last day is new on one day. -/
theorem countP_isNewOn_eq_one {t : BurndownTodoEvent} {currentDate todayStart : ℤ}
    (hdvd : dayMs ∣ todayStart - currentDate) (hafter : currentDate < t.createdAt)
    (hbefore : t.createdAt ≤ todayStart + dayMs) (hle : currentDate ≤ todayStart) :
    (backlogDays todayStart currentDate).countP (isNewOn · t) = 1 := by
  induction currentDate using backlogDays.induct todayStart with
  | case1 currentDate hday ih =>
      rw [backlogDays, if_pos hday, List.countP_cons]
      by_cases hnew : t.createdAt ≤ currentDate + dayMs
      · have hrest : (backlogDays todayStart (currentDate + dayMs)).countP (isNewOn · t) = 0 := by
          rw [List.countP_eq_zero]
          intro day hmem
          have hlater := (le_of_mem_backlogDays hmem).1
          have hnot : ¬ day < t.createdAt := by omega
          simp [isNewOn, hnot]
        rw [hrest, if_pos (by simp [isNewOn, hafter, hnew])]
      · have hdvd' : dayMs ∣ todayStart - (currentDate + dayMs) := by
          rw [← sub_sub]
          exact Int.dvd_sub hdvd (dvd_refl _)
        have hle' : currentDate + dayMs ≤ todayStart := by
          obtain ⟨k, hk⟩ := hdvd
          unfold dayMs at hk hnew hbefore ⊢
          omega
        rw [ih hdvd' (by omega) hle', if_neg (by simp [isNewOn, hnew])]
  | case2 currentDate hgt => exact absurd hle hgt

/-- The first instant of the window is new on no day. -/
theorem countP_isNewOn_first {t : BurndownTodoEvent} (todayStart : ℤ) :
    (backlogDays todayStart t.createdAt).countP (isNewOn · t) = 0 := by
  rw [List.countP_eq_zero]
  intro day hmem
  have hlater := (le_of_mem_backlogDays hmem).1
  have hnot : ¬ day < t.createdAt := by omega
  simp [isNewOn, hnot]

theorem dayMs_dvd_window (nowMs : ℤ) (todos : List BurndownTodoEvent) :
    dayMs ∣ midnight nowMs - backlogStart nowMs todos := by
  have hthirteen : dayMs ∣ midnight nowMs - 13 * dayMs :=
    Int.dvd_sub (dayMs_dvd_midnight nowMs) (Dvd.intro_left _ rfl)
  have hstart : dayMs ∣ backlogStart nowMs todos := by
    unfold backlogStart
    dsimp only
    split
    · split
      · exact dayMs_dvd_midnight _
      · exact hthirteen
    · exact hthirteen
  exact Int.dvd_sub (dayMs_dvd_midnight nowMs) hstart

theorem backlogStart_le (nowMs : ℤ) (todos : List BurndownTodoEvent) :
    backlogStart nowMs todos ≤ midnight nowMs := by
  unfold backlogStart dayMs
  dsimp only
  split
  · split <;> omega
  · omega

/-! ## Counts -/

section

variable (doneColumnKey : String) (pointsMode : Bool) (dayStart : ℤ) (c : DayCounts)
  (t : BurndownTodoEvent)

theorem countTodo_newTodosCount :
    (countTodo doneColumnKey pointsMode dayStart c t).newTodosCount =
      c.newTodosCount + if isNewOn dayStart t then 1 else 0 := by
  unfold countTodo
  dsimp only
  cases isNewOn dayStart t <;> simp only [if_true, Bool.false_eq_true, if_false] <;> split_ifs <;> rfl

theorem countTodo_totalScope :
    (countTodo doneColumnKey pointsMode dayStart c t).totalScope =
      c.totalScope + if t.createdAt ≤ dayStart + dayMs then 1 else 0 := by
  unfold countTodo
  dsimp only
  have hsame : (if isNewOn dayStart t then { c with newTodosCount := c.newTodosCount + 1 } else c).totalScope =
      c.totalScope := by
    split_ifs <;> rfl
  by_cases hlater : dayStart + dayMs < t.createdAt
  · rw [if_pos hlater, hsame, if_neg (not_le.mpr hlater)]
    rfl
  · rw [if_neg hlater, if_pos (not_lt.mp hlater), ← hsame]
    split_ifs <;> rfl

end

/-- The loop counts the new todos and the scope of the day. -/
theorem foldl_countTodo (doneColumnKey : String) (pointsMode : Bool) (dayStart : ℤ)
    (todos : List BurndownTodoEvent) (c : DayCounts) :
    (todos.foldl (countTodo doneColumnKey pointsMode dayStart) c).newTodosCount =
        c.newTodosCount + todos.countP (isNewOn dayStart) ∧
      (todos.foldl (countTodo doneColumnKey pointsMode dayStart) c).totalScope =
        c.totalScope + todos.countP fun t => decide (t.createdAt ≤ dayStart + dayMs) := by
  induction todos generalizing c with
  | nil => exact ⟨rfl, rfl⟩
  | cons t todos ih =>
      obtain ⟨hnew, hscope⟩ := ih (countTodo doneColumnKey pointsMode dayStart c t)
      rw [List.foldl_cons, hnew, hscope, countTodo_newTodosCount, countTodo_totalScope, List.countP_cons,
        List.countP_cons]
      constructor
      · omega
      · simp only [decide_eq_true_eq]
        omega

/-- What is created up to the end of a day was created before it or is new on it. -/
theorem countP_scope_add (todos : List BurndownTodoEvent) (dayStart : ℤ) :
    (todos.countP fun t => decide (t.createdAt ≤ dayStart + dayMs)) =
      (todos.countP fun t => decide (t.createdAt ≤ dayStart)) + todos.countP (isNewOn dayStart) := by
  have hday : 0 < dayMs := by decide
  induction todos with
  | nil => rfl
  | cons t todos ih =>
      rw [List.countP_cons, List.countP_cons, List.countP_cons, ih]
      simp only [isNewOn, decide_eq_true_eq, Bool.and_eq_true]
      split_ifs <;> omega

/-- The points of a backlog conserve the todos: the scope grows by the new todos of the later
day, and every todo created inside the window is new on exactly one day. -/
structure ConservesTodos (todos : List BurndownTodoEvent) (nowMs : ℤ) (points : List BurndownPoint) :
    Prop where
  scope : ∀ (i : ℕ) (p q : BurndownPoint) (a b : ℕ), points[i]? = some p → points[i + 1]? = some q → p.totalScope = some a →
    q.totalScope = some b → (b : ℤ) - a = q.newTodosCount
  counts : ∀ p ∈ points, p.newTodosCount = todos.countP (isNewOn p.date)
  once : ∀ t ∈ todos, backlogStart nowMs todos ≤ t.createdAt → t.createdAt ≤ midnight nowMs + dayMs →
    points.countP (fun p => isNewOn p.date t) = 1

theorem backlogPoint_newTodosCount (todos : List BurndownTodoEvent) (doneColumnKey : String)
    (pointsMode : Bool) (dayStart : ℤ) :
    (backlogPoint todos doneColumnKey pointsMode dayStart).newTodosCount =
      todos.countP (isNewOn dayStart) := by
  have h := (foldl_countTodo doneColumnKey pointsMode dayStart todos {}).1
  rwa [Nat.zero_add] at h

theorem backlogPoint_totalScope {todos : List BurndownTodoEvent} {doneColumnKey : String}
    {pointsMode : Bool} {dayStart : ℤ} {n : ℕ}
    (h : (backlogPoint todos doneColumnKey pointsMode dayStart).totalScope = some n) :
    n = todos.countP fun t => decide (t.createdAt ≤ dayStart + dayMs) := by
  have hscope := (foldl_countTodo doneColumnKey pointsMode dayStart todos {}).2
  rw [Nat.zero_add] at hscope
  simp only [backlogPoint, Option.ite_none_right_eq_some, Option.some.injEq] at h
  rw [← h.2, hscope]

/-- The backlog conserves its todos exactly if none was created at the first instant of the
window. -/
theorem backlog_conserves_iff {ctx : Ctx} {db : DB} {projectID : ℤ} {points : List BurndownPoint}
    (h : getBacklogSize ctx db projectID = .ok points) :
    ConservesTodos (loadBurndownTodos db projectID) ctx.nowMs points ↔
      ∀ t ∈ loadBurndownTodos db projectID,
        t.createdAt ≠ backlogStart ctx.nowMs (loadBurndownTodos db projectID) := by
  obtain ⟨project, hproject, hpoints⟩ := bind_eq_ok.mp h
  rw [pure_eq_ok] at hpoints
  subst hpoints
  have honDays : ∀ (f : ℤ → BurndownPoint) (days : List ℤ) (t : BurndownTodoEvent),
      (∀ day, (f day).date = day) →
        (days.map f).countP (fun p => isNewOn p.date t) = days.countP (isNewOn · t) := by
    intro f days t hdate
    rw [List.countP_map]
    exact List.countP_congr fun day _ => by rw [Function.comp_apply, hdate]
  constructor
  · intro hconserves t ht hfirst
    have hend := backlogStart_le ctx.nowMs (loadBurndownTodos db projectID)
    have hday : 0 < dayMs := by decide
    have hone := hconserves.once t ht hfirst.ge (by omega)
    rw [honDays _ _ _ fun _ => rfl, ← hfirst, countP_isNewOn_first] at hone
    exact absurd hone (by decide)
  · intro hfirst
    refine ⟨?_, ?_, ?_⟩
    · intro i p q a b hp hq ha hb
      rw [List.getElem?_map, backlogDays_getElem?, Option.map_eq_some_iff] at hp hq
      obtain ⟨day, hday, rfl⟩ := hp
      obtain ⟨next, hnext, rfl⟩ := hq
      rw [Option.ite_none_right_eq_some, Option.some.injEq] at hday hnext
      have hfollows : next = day + dayMs := by
        rw [← hday.2, ← hnext.2]
        push_cast
        ring
      rw [backlogPoint_totalScope ha, backlogPoint_totalScope hb, backlogPoint_newTodosCount,
        countP_scope_add, hfollows]
      push_cast
      ring
    · intro p hp
      obtain ⟨day, -, rfl⟩ := List.mem_map.mp hp
      exact backlogPoint_newTodosCount _ _ _ day
    · intro t ht hafter hbefore
      rw [honDays _ _ _ fun _ => rfl]
      exact countP_isNewOn_eq_one (dayMs_dvd_window _ _) (lt_of_le_of_ne hafter (hfirst t ht).symm) hbefore
        (backlogStart_le _ _)

/-- A todo of the first day of a window behind its midnight, and one of the next midnight. -/
def backlogBoard : DB where
  projects := [{ defaultProjectRow 0 with id := 1, name := "Board", slug := "board" }]
  todos :=
    [⟨1, 1, 1, "a", "", "backlog", 1000, none, none, none, none, none, 1, 1, none, none, none, none⟩,
      ⟨2, 1, 2, "b", "", "backlog", 2000, none, none, none, none, none, dayMs, dayMs, none, none, none, none⟩]

/-- A todo of the first midnight of a window. -/
def midnightBoard : DB where
  projects := [{ defaultProjectRow 0 with id := 1, name := "Board", slug := "board" }]
  todos := [⟨1, 1, 1, "a", "", "backlog", 1000, none, none, none, none, none, 0, 0, none, none, none, none⟩]

theorem backlogDays_eq_map (currentDate : ℤ) (n : ℕ) :
    backlogDays (currentDate + n * dayMs) currentDate =
      (List.range (n + 1)).map fun i : ℕ => currentDate + i * dayMs := by
  refine List.ext_getElem? fun i => ?_
  rw [backlogDays_getElem?, List.getElem?_map]
  by_cases hi : i < n + 1
  · have hday : currentDate + i * dayMs ≤ currentDate + n * dayMs := by
      unfold dayMs
      omega
    rw [List.getElem?_range hi, if_pos hday]
    rfl
  · have hday : ¬ currentDate + i * dayMs ≤ currentDate + n * dayMs := by
      unfold dayMs
      omega
    rw [List.getElem?_eq_none (by rw [List.length_range]; omega), if_neg hday]
    rfl

theorem backlog_conserves_board :
    (getBacklogSize ⟨none, 13 * dayMs + 5⟩ backlogBoard 1).isOk = true ∧
      ∃ points, getBacklogSize ⟨none, 13 * dayMs + 5⟩ backlogBoard 1 = .ok points ∧
        ConservesTodos (loadBurndownTodos backlogBoard 1) (13 * dayMs + 5) points := by
  have hpoints : getBacklogSize ⟨none, 13 * dayMs + 5⟩ backlogBoard 1 = .ok _ := rfl
  exact ⟨by rw [hpoints]; rfl, _, hpoints, (backlog_conserves_iff hpoints).mpr (by decide +kernel)⟩

/-- A todo of the first midnight is in the scope of every day and new on none. -/
theorem first_midnight_is_never_new :
    getBacklogSize ⟨none, 13 * dayMs + 5⟩ midnightBoard 1 = .ok ((List.range 14).map fun i : ℕ =>
        ⟨i * dayMs, some 1, some 1, none, none, 0⟩) ∧
      backlogStart (13 * dayMs + 5) (loadBurndownTodos midnightBoard 1) = 0 ∧
      ¬ ∃ points, getBacklogSize ⟨none, 13 * dayMs + 5⟩ midnightBoard 1 = .ok points ∧
        ConservesTodos (loadBurndownTodos midnightBoard 1) (13 * dayMs + 5) points := by
  have hpoints : getBacklogSize ⟨none, 13 * dayMs + 5⟩ midnightBoard 1 =
      .ok ((List.range 14).map fun i : ℕ => ⟨i * dayMs, some 1, some 1, none, none, 0⟩) := by
    have hdays := backlogDays_eq_map 0 13
    change (Except.ok ((backlogDays (0 + (13 : ℕ) * dayMs) 0).map _) : Result _) = _
    rw [hdays]
    decide +kernel
  have hstart : backlogStart (13 * dayMs + 5) (loadBurndownTodos midnightBoard 1) = 0 := by decide +kernel
  refine ⟨hpoints, hstart, ?_⟩
  rintro ⟨points, hok, hconserves⟩
  rw [hpoints] at hok
  cases hok
  have hone := hconserves.once ⟨1, "backlog", 0, 0, none, none⟩ (by decide +kernel) hstart.le (by decide)
  exact absurd hone (by decide +kernel)

end Scrumboy
