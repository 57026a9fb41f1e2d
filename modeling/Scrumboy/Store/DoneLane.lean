import Scrumboy.Store.Actions
import Scrumboy.Store.WorkflowShape

/-!
# The done lane

A todo gets its done date when it enters the done lane of its project. No action moves
the flag of the done lane to another column, so a todo that is in it stays dated.
-/

namespace Scrumboy

open Go Sql

/-- The todo is in the done lane of its project. -/
def InDoneLane (db : DB) (t : TodoRow) : Prop := (t.columnKey, true) ∈ db.lanes t.projectID

instance (db : DB) (t : TodoRow) : Decidable (InDoneLane db t) :=
  inferInstanceAs (Decidable (_ ∈ db.lanes t.projectID))

/-- Every todo in the done lane of its project has a done date. -/
def Dated (db : DB) : Prop := ∀ t ∈ db.todos, InDoneLane db t → t.doneAt ≠ none

section

variable {limit : Option ℕ} {rt : Runtime} {ctx : Ctx} {db db' : DB} {a : Action} {projectID : ℤ}

theorem lanes_congr (h : db'.columns = db.columns) (q : ℤ) : db'.lanes q = db.lanes q := by
  simp only [DB.lanes, DB.columnsOf, h]

theorem Reshapes.lanes {n : ℕ} (h : Reshapes projectID n db db') {q : ℤ} (hq : q ≠ projectID) :
    db'.lanes q = db.lanes q := by
  rw [DB.lanes, h.other q hq, DB.lanes]

theorem mem_lanes_of_validate {key : String} {col : WorkflowColumn}
    (h : validateProjectColumnKey db projectID key = .ok col) :
    (key, col.isDone) ∈ db.lanes projectID := by
  obtain ⟨hmem, hproject, rfl⟩ := validateProjectColumnKey_eq_ok h
  exact List.mem_map.mpr ⟨col, DB.mem_columnsOf.mpr ⟨hmem, hproject⟩, rfl⟩

/-- A key is in the workflow of a project once. -/
theorem WorkflowInv.lane_unique (h : WorkflowInv limit db) {key : String} {done done' : Bool}
    (hlane : (key, done) ∈ db.lanes projectID) (hlane' : (key, done') ∈ db.lanes projectID) :
    done = done' := by
  obtain ⟨c, hc, hkey⟩ := List.mem_map.mp hlane
  obtain ⟨c', hc', hkey'⟩ := List.mem_map.mp hlane'
  obtain ⟨hmem, hproject⟩ := DB.mem_columnsOf.mp hc
  have hworkflow := h.workflow projectID (hproject ▸ h.owned c hmem)
  rw [Prod.mk.injEq] at hkey hkey'
  have heq : c = c' := List.inj_on_of_nodup_map hworkflow.keys hc hc' (hkey.1.trans hkey'.1.symm)
  rw [← hkey.2, heq, hkey'.2]

/-- An action leaves the done lane of every project where it is. -/
theorem SettingsStep.doneLane (h : SettingsStep ctx db db' a) (hinv : WorkflowInv limit db) {q : ℤ}
    (hq : q ∈ db.projects.map (·.id)) (key : String) :
    (key, true) ∈ db'.lanes q ↔ (key, true) ∈ db.lanes q := by
  cases h with
  | same hprojects hcolumns hpriorities => rw [lanes_congr hcolumns]
  | @createProject name workflow id hok =>
      obtain ⟨hfresh, hreshapes, _⟩ := createProjectWithWorkflow_reshapes hinv hok
      have hne : q ≠ id := fun heq => hfresh (heq ▸ hq)
      rw [hreshapes.lanes hne]
  | @addWorkflowColumn projectID name col hok =>
      obtain ⟨_, ⟨n, _, hreshapes⟩, newKey, hperm⟩ := addWorkflowColumn_reshapes hinv hok
      by_cases heq : q = projectID
      · rw [heq, hperm.mem_iff, List.mem_append, List.mem_singleton]
        simp
      · rw [hreshapes.lanes heq]
  | @deleteWorkflowColumn projectID oldKey hok =>
      obtain ⟨_, ⟨n, _, hreshapes⟩, gone, hperm⟩ := deleteWorkflowColumn_reshapes hinv hok
      by_cases heq : q = projectID
      · rw [heq, hperm.mem_iff, List.mem_cons]
        simp
      · rw [hreshapes.lanes heq]
  | addPriorityTier hok => rw [lanes_congr (addPriorityTier_prioritiesOnly hok).columns]
  | deletePriorityTier hok => rw [lanes_congr (deletePriorityTier_prioritiesOnly hok).columns]

/-- The done date of a row that an action changes is the old one, unless the row enters
the done lane from another. -/
theorem RowStep.doneAt {t t' : TodoRow} (h : RowStep ctx db t t') :
    t'.projectID = t.projectID ∧
      ((t'.columnKey = t.columnKey ∧ t'.doneAt = t.doneAt) ∨
        ∃ current target, (t.columnKey, current) ∈ db.lanes t.projectID ∧
          (t'.columnKey, target) ∈ db.lanes t.projectID ∧
          t'.doneAt = (resolveDoneAtForColumnTransition current target ctx.nowMs).or t.doneAt) := by
  cases h with
  | moved rank current target hactive hcurrent htarget =>
      refine ⟨rfl, .inr ⟨current.isDone, target.isDone, mem_lanes_of_validate hcurrent, ?_, rfl⟩⟩
      exact mem_lanes_of_validate htarget
  | ranked rank => exact ⟨rfl, .inl ⟨rfl, rfl⟩⟩
  | archived ms hchange => exact ⟨rfl, .inl ⟨rfl, rfl⟩⟩
  | body text => exact ⟨rfl, .inl ⟨rfl, rfl⟩⟩
  | edited p input hinput => exact ⟨rfl, .inl ⟨rfl, rfl⟩⟩
  | unassigned => exact ⟨rfl, .inl ⟨rfl, rfl⟩⟩
  | reminded hpending => exact ⟨rfl, .inl ⟨rfl, rfl⟩⟩

theorem RowStep.dated (hinv : WorkflowInv limit db) {t t' : TodoRow} (h : RowStep ctx db t t')
    (ht : InDoneLane db t → t.doneAt ≠ none) (hdone : InDoneLane db t') : t'.doneAt ≠ none := by
  obtain ⟨hproject, ⟨hkey, hdate⟩ | ⟨current, target, hcurrent, htarget, hdate⟩⟩ := h.doneAt
  · rw [InDoneLane, hproject, hkey] at hdone
    exact hdate ▸ ht hdone
  · rw [InDoneLane, hproject] at hdone
    obtain rfl := hinv.lane_unique htarget hdone
    rw [hdate]
    cases current with
    | false => simp [resolveDoneAtForColumnTransition]
    | true => simpa [resolveDoneAtForColumnTransition] using ht hcurrent

theorem NewTodo.dated (hinv : WorkflowInv limit db) {t : TodoRow} (h : NewTodo ctx db t)
    (hdone : InDoneLane db t) : t.doneAt ≠ none := by
  obtain ⟨target, htarget, hdate⟩ := h.column
  rw [hdate, hinv.lane_unique (mem_lanes_of_validate htarget) hdone]
  simp [resolveDoneAtForColumnTransition]

/-- An action keeps the todos of done lanes dated. -/
theorem Dated.exec_action (h : Dated db) (hinv : WorkflowInv limit db) (htable : TodoTable db)
    (hok : a.exec rt ctx db = .ok db') : Dated db' := by
  have hsettings := Action.exec_settingsStep hok
  intro t ht hdone
  rcases (Action.exec_todosStep htable.ids hok).source ht with ⟨u, hu, hstep⟩ | hnew
  · have hproject : t.projectID ∈ db.projects.map (·.id) := hstep.doneAt.1 ▸ htable.project u hu
    exact hstep.dated hinv (h u hu) ((hsettings.doneLane hinv hproject _).mp hdone)
  · exact hnew.dated hinv ((hsettings.doneLane hinv hnew.project_mem _).mp hdone)

/-- An action changes the done date of a todo only when it takes the todo from another
lane to the done lane. -/
theorem doneAt_of_action (hinv : WorkflowInv limit db) (htable : TodoTable db) (a : Ctx × Action)
    {t t' : TodoRow} (ht : t ∈ db.todos) (ht' : t' ∈ (act rt db a).todos) (hid : t'.id = t.id)
    (hchange : t'.doneAt ≠ t.doneAt) :
    ¬ InDoneLane db t ∧ InDoneLane (act rt db a) t' := by
  unfold act at ht' ⊢
  cases hok : a.2.exec rt a.1 db with
  | error e =>
      rw [hok] at ht'
      exact absurd (congrArg TodoRow.doneAt (htable.eq_of_id ht' ht hid)) hchange
  | ok db' =>
      rw [hok] at ht'
      dsimp only [Except.toOption, Option.getD_some] at ht' ⊢
      rcases (Action.exec_todosStep htable.ids hok).source ht' with ⟨u, hu, hstep⟩ | hnew
      · have hkey : u.id = t.id := (congrArg TodoKey.id hstep.key_eq).symm.trans hid
        obtain rfl := htable.eq_of_id hu ht hkey
        obtain ⟨hproject, ⟨_, hdate⟩ | ⟨current, target, hcurrent, htarget, hdate⟩⟩ := hstep.doneAt
        · exact absurd hdate hchange
        · -- The transition wrote a date, so it led from an open lane to the done one.
          have hflags : target = true ∧ current = false := by
            by_contra hnot
            apply hchange
            rw [hdate]
            cases target <;> cases current <;> simp_all [resolveDoneAtForColumnTransition]
          obtain ⟨rfl, rfl⟩ := hflags
          constructor
          · intro hdone
            exact absurd (hinv.lane_unique hcurrent hdone) (by simp)
          · rw [InDoneLane, hproject]
            exact ((Action.exec_settingsStep hok).doneLane hinv (htable.project u hu) _).mpr htarget
      · exfalso
        have hlt := lt_nextRowid (List.mem_map_of_mem (f := fun t : TodoRow => t.id) ht)
        rw [← hnew.id_eq, hid] at hlt
        exact lt_irrefl _ hlt

end

end Scrumboy
