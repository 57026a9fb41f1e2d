import Scrumboy.Store.Projects
import Scrumboy.Store.Sprints

/-!
# Runs of sprint operations

`SprintsStep` says what an operation can do to the table of sprints. From it follow the
state machine of sprints over whole runs, and the order of their planned dates in the
runs in which no start is moved behind the end on its own.
-/

set_option linter.dupNamespace false

namespace Scrumboy

open Go Sql Transition

/-- What an operation does to the table of sprints. -/
inductive SprintsStep (ctx : Ctx) (db : DB) (a : SprintAction) (sprints : List SprintRow) : Prop
  | kept (h : sprints = db.sprints)
  | created (row : SprintRow) (hid : row.id = nextRowid (db.sprints.map (·.id)))
      (hnumber : row.number = coalesceMax ((db.sprints.filter fun sp =>
        sp.projectID == row.projectID).map (·.number)) + 1)
      (hstate : row.state = .planned) (hstarted : row.startedAt = none)
      (hclosed : row.closedAt = none) (hdates : row.plannedStartAt ≤ row.plannedEndAt)
      (h : sprints = db.sprints ++ [row])
  | edited (sprintID : ℤ) (input : UpdateSprintInput) (sp : SprintRow) (hsp : sp ∈ db.sprints)
      (hid : sp.id = sprintID) (ha : a = .updateSprint sprintID input)
      (hstart : input.plannedStartAt.isSome → sp.state = .planned)
      (hend : ∀ endAt ∈ input.plannedEndAt, input.plannedStartAt.getD sp.plannedStartAt ≤ endAt)
      (h : sprints = updateWhere (fun sp => sp.id == sprintID) (SprintRow.edited input ctx.nowMs)
        db.sprints)
  | activated (projectID sprintID : ℤ) (sp : SprintRow) (hsp : sp ∈ db.sprints)
      (hid : sp.id = sprintID) (hproject : sp.projectID = projectID) (hstate : sp.state = .planned)
      (h : sprints = updateWhere (fun sp => sp.id == sprintID && sp.state == .planned)
        (SprintRow.activated ctx.nowMs)
        (updateWhere (fun sp => sp.projectID == projectID && sp.state == .active)
          (SprintRow.closed ctx.nowMs) db.sprints))
  | closed (projectID sprintID : ℤ)
      (h : sprints = updateWhere (fun sp => sp.id == sprintID && sp.projectID == projectID &&
        sp.state == .active) (SprintRow.closed ctx.nowMs) db.sprints)
  | deleted (sprintID : ℤ) (h : sprints = deleteWhere (fun sp => sp.id == sprintID) db.sprints)

section

variable {ctx : Ctx} {db db' : DB}

theorem getSprintByID_eq_ok {sprintID : ℤ} {sp : SprintRow} (h : getSprintByID db sprintID = .ok sp) :
    sp ∈ db.sprints ∧ sp.id = sprintID := by
  unfold getSprintByID at h
  split at h
  · rename_i sp' hfind
    cases h
    exact ⟨List.mem_of_find?_eq_some hfind, by simpa using List.find?_some hfind⟩
  · cases h

theorem createSprint_step {projectID plannedStartAt plannedEndAt : ℤ} {name : String}
    (h : createSprint ctx db projectID name plannedStartAt plannedEndAt = .ok db') :
    SprintsStep ctx db (.createSprint projectID name plannedStartAt plannedEndAt) db'.sprints := by
  simp only [createSprint, bind_eq_ok, reject_eq_ok, pure_eq_ok] at h
  obtain ⟨_, _, _, hdates, _, _, _, _, rfl⟩ := h
  exact .created _ rfl rfl rfl rfl rfl (not_lt.mp hdates) rfl

theorem activateSprint_step {projectID sprintID : ℤ}
    (h : activateSprint ctx db projectID sprintID = .ok db') :
    SprintsStep ctx db (.activateSprint projectID sprintID) db'.sprints := by
  simp only [activateSprint, bind_eq_ok, reject_eq_ok, not_not] at h
  obtain ⟨sp, hsp, _, hproject, _, _, h⟩ := h
  obtain ⟨hmem, hid⟩ := getSprintByID_eq_ok hsp
  split at h
  · rw [pure_eq_ok] at h
    exact .kept (h ▸ rfl)
  · simp only [bind_eq_ok, reject_eq_ok, pure_eq_ok, not_not] at h
    obtain ⟨_, hstate, _, _, _, _, rfl⟩ := h
    exact .activated projectID sprintID sp hmem hid hproject hstate rfl

theorem closeSprint_step {projectID sprintID : ℤ} (h : closeSprint ctx db projectID sprintID = .ok db') :
    SprintsStep ctx db (.closeSprint projectID sprintID) db'.sprints := by
  simp only [closeSprint, bind_eq_ok, reject_eq_ok, pure_eq_ok] at h
  obtain ⟨_, _, _, _, rfl⟩ := h
  exact .closed projectID sprintID rfl

theorem deleteSprint_step {projectID sprintID : ℤ} (h : deleteSprint db projectID sprintID = .ok db') :
    SprintsStep ctx db (.deleteSprint projectID sprintID) db'.sprints := by
  simp only [deleteSprint, bind_eq_ok, reject_eq_ok, pure_eq_ok] at h
  obtain ⟨_, _, _, _, _, _, rfl⟩ := h
  exact .deleted sprintID rfl

theorem checkSprintState_start {state : SprintState} {input : UpdateSprintInput} {u : Unit}
    (h : checkSprintState state input = .ok u) (hstart : input.plannedStartAt.isSome) :
    state = .planned := by
  cases state with
  | planned => rfl
  | active =>
      simp only [checkSprintState, reject_eq_ok] at h
      exact absurd (.inr hstart) h
  | closed =>
      simp only [checkSprintState, reject_eq_ok] at h
      exact absurd (.inl hstart) h

theorem updateSprint_step {sprintID : ℤ} {input : UpdateSprintInput}
    (h : updateSprint ctx db sprintID input = .ok db') :
    SprintsStep ctx db (.updateSprint sprintID input) db'.sprints := by
  simp only [updateSprint, bind_eq_ok] at h
  obtain ⟨sp, hsp, _, _, _, hstate, _, _, _, hend, h⟩ := h
  obtain ⟨hmem, hid⟩ := getSprintByID_eq_ok hsp
  split at h
  · rw [pure_eq_ok] at h
    exact .kept (h ▸ rfl)
  · rw [pure_eq_ok] at h
    refine .edited sprintID input sp hmem hid rfl (checkSprintState_start hstate) ?_ (h ▸ rfl)
    intro endAt hendAt
    rw [Option.mem_def.mp hendAt] at hend
    exact not_lt.mp (reject_eq_ok.mp hend)

/-- What a step does to the table of sprints. -/
theorem sprintStep_cases (db : DB) (a : Ctx × SprintAction) :
    SprintsStep a.1 db a.2 (sprintStep db a).sprints := by
  obtain ⟨ctx, a⟩ := a
  unfold sprintStep
  cases hexec : a.exec ctx db with
  | error e => exact .kept rfl
  | ok db' =>
      cases a with
      | createSprint projectID name plannedStartAt plannedEndAt => exact createSprint_step hexec
      | updateSprint sprintID input => exact updateSprint_step hexec
      | activateSprint projectID sprintID => exact activateSprint_step hexec
      | closeSprint projectID sprintID => exact closeSprint_step hexec
      | deleteSprint projectID sprintID => exact deleteSprint_step hexec

end

/-! ## The state machine -/

/-- The times of a sprint that its state goes with. -/
structure SprintRow.Stamped (sp : SprintRow) : Prop where
  started : sp.startedAt.isSome ↔ sp.state ≠ .planned
  closed : sp.closedAt.isSome ↔ sp.state = .closed

/-- How a step changes a sprint: it stays the same sprint and moves forward, if at all. -/
structure SprintRow.Moves (sp sp' : SprintRow) : Prop where
  id_eq : sp'.id = sp.id
  project_eq : sp'.projectID = sp.projectID
  number_eq : sp'.number = sp.number
  state : sp'.state = sp.state ∨ sp.state = .planned ∧ sp'.state = .active ∨
    sp.state = .active ∧ sp'.state = .closed

structure SprintMachine (sprints : List SprintRow) : Prop where
  ids : (sprints.map (·.id)).Nodup
  numbers : (sprints.map fun sp => (sp.projectID, sp.number)).Nodup
  active : ∀ sp ∈ sprints, ∀ sp' ∈ sprints, sp.projectID = sp'.projectID →
    sp.state = .active → sp'.state = .active → sp = sp'
  stamped : ∀ sp ∈ sprints, sp.Stamped

section

variable {ctx : Ctx} {db : DB} {a : SprintAction} {sprints : List SprintRow}

theorem SprintRow.Moves.refl (sp : SprintRow) : sp.Moves sp := ⟨rfl, rfl, rfl, .inl rfl⟩

/-- Rows that change in place. -/
theorem SprintMachine.map (h : SprintMachine sprints) {f : SprintRow → SprintRow}
    (hmoves : ∀ sp ∈ sprints, sp.Moves (f sp)) (hstamped : ∀ sp ∈ sprints, (f sp).Stamped)
    (hactive : ∀ sp ∈ sprints, ∀ sp' ∈ sprints, sp.projectID = sp'.projectID →
      (f sp).state = .active → (f sp').state = .active → sp = sp') :
    SprintMachine (sprints.map f) where
  ids := by
    have hids : (sprints.map f).map (·.id) = sprints.map (·.id) := by
      rw [List.map_map]
      exact List.map_congr_left fun sp hsp => (hmoves sp hsp).id_eq
    exact hids ▸ h.ids
  numbers := by
    have hkeys : (sprints.map f).map (fun sp => (sp.projectID, sp.number)) =
        sprints.map fun sp => (sp.projectID, sp.number) := by
      rw [List.map_map]
      exact List.map_congr_left fun sp hsp =>
        Prod.ext (hmoves sp hsp).project_eq (hmoves sp hsp).number_eq
    exact hkeys ▸ h.numbers
  active sp hsp sp' hsp' hproject hstate hstate' := by
    obtain ⟨u, hu, rfl⟩ := List.mem_map.mp hsp
    obtain ⟨u', hu', rfl⟩ := List.mem_map.mp hsp'
    rw [(hmoves u hu).project_eq, (hmoves u' hu').project_eq] at hproject
    rw [hactive u hu u' hu' hproject hstate hstate']
  stamped sp hsp := by
    obtain ⟨u, hu, rfl⟩ := List.mem_map.mp hsp
    exact hstamped u hu

/-- Rows that change in place, of which none becomes active. -/
theorem SprintMachine.map_of_inactive (h : SprintMachine sprints) {f : SprintRow → SprintRow}
    (hmoves : ∀ sp ∈ sprints, sp.Moves (f sp)) (hstamped : ∀ sp ∈ sprints, (f sp).Stamped)
    (hactive : ∀ sp ∈ sprints, (f sp).state = .active → sp.state = .active) :
    SprintMachine (sprints.map f) :=
  h.map hmoves hstamped fun sp hsp sp' hsp' hproject hstate hstate' =>
    h.active sp hsp sp' hsp' hproject (hactive sp hsp hstate) (hactive sp' hsp' hstate')

theorem SprintRow.moves_closed {sp : SprintRow} (h : sp.state = .active) :
    sp.Moves (sp.closed ctx.nowMs) := ⟨rfl, rfl, rfl, .inr (.inr ⟨h, rfl⟩)⟩

theorem SprintRow.moves_activated {sp : SprintRow} (h : sp.state = .planned) :
    sp.Moves (sp.activated ctx.nowMs) := ⟨rfl, rfl, rfl, .inr (.inl ⟨h, rfl⟩)⟩

theorem SprintRow.Stamped.close {sp : SprintRow} (h : sp.Stamped) (hstate : sp.state = .active) :
    (sp.closed ctx.nowMs).Stamped where
  started := by
    have hstarted := h.started.mpr (by simp [hstate])
    simpa [SprintRow.closed] using hstarted
  closed := by simp [SprintRow.closed]

theorem SprintRow.Stamped.activate {sp : SprintRow} (h : sp.Stamped) (hstate : sp.state = .planned) :
    (sp.activated ctx.nowMs).Stamped where
  started := by simp [SprintRow.activated]
  closed := by
    have hclosed := h.closed
    simpa [SprintRow.activated, hstate] using hclosed

/-- The rows of an activation: the active sprint of the project is closed, then the
planned one becomes active. -/
def activationRow (ctx : Ctx) (projectID sprintID : ℤ) (sp : SprintRow) : SprintRow :=
  if sp.projectID = projectID ∧ sp.state = .active then sp.closed ctx.nowMs
  else if sp.id = sprintID ∧ sp.state = .planned then sp.activated ctx.nowMs
  else sp

theorem activation_eq_map (ctx : Ctx) (projectID sprintID : ℤ) (sprints : List SprintRow) :
    updateWhere (fun sp => sp.id == sprintID && sp.state == .planned) (SprintRow.activated ctx.nowMs)
        (updateWhere (fun sp => sp.projectID == projectID && sp.state == .active)
          (SprintRow.closed ctx.nowMs) sprints) =
      sprints.map (activationRow ctx projectID sprintID) := by
  rw [updateWhere, updateWhere, List.map_map]
  apply List.map_congr_left
  intro sp _
  by_cases hactive : sp.projectID = projectID ∧ sp.state = .active
  · simp [activationRow, hactive, SprintRow.closed]
  · have hcond : ¬ ((sp.projectID == projectID && sp.state == .active) = true) := by
      simpa using hactive
    simp only [Function.comp_apply, activationRow, if_neg hactive, if_neg hcond]
    simp

theorem activationRow_moves (ctx : Ctx) (projectID sprintID : ℤ) (sp : SprintRow) :
    sp.Moves (activationRow ctx projectID sprintID sp) := by
  unfold activationRow
  split
  · rename_i hactive
    exact SprintRow.moves_closed hactive.2
  · split
    · rename_i hplanned
      exact SprintRow.moves_activated hplanned.2
    · exact .refl sp

theorem SprintMachine.activate (h : SprintMachine sprints) {projectID sprintID : ℤ} {sp : SprintRow}
    (hsp : sp ∈ sprints) (hid : sp.id = sprintID) (hproject : sp.projectID = projectID) :
    SprintMachine (sprints.map (activationRow ctx projectID sprintID)) := by
  have hsame : ∀ u ∈ sprints, u.id = sprintID → u = sp := fun u hu huid =>
    List.inj_on_of_nodup_map h.ids hu hsp (huid.trans hid.symm)
  refine h.map (fun u _ => activationRow_moves ctx projectID sprintID u) ?_ ?_
  · intro u hu
    unfold activationRow
    split
    · rename_i hactive
      exact (h.stamped u hu).close hactive.2
    · split
      · rename_i hplanned
        exact (h.stamped u hu).activate hplanned.2
      · exact h.stamped u hu
  · -- In the project of the sprint only the sprint itself is active afterwards.
    have hactive : ∀ u ∈ sprints, (activationRow ctx projectID sprintID u).state = .active →
        u.id = sprintID ∨ u.projectID ≠ projectID ∧ u.state = .active := by
      intro u hu hstate
      unfold activationRow at hstate
      split at hstate
      · cases hstate
      · rename_i hother
        split at hstate
        · rename_i htarget
          exact .inl htarget.1
        · exact .inr ⟨fun hp => hother ⟨hp, hstate⟩, hstate⟩
    intro u hu u' hu' hsameProject hstate hstate'
    rcases hactive u hu hstate with hu₁ | ⟨hu₁, hua⟩
    · rcases hactive u' hu' hstate' with hu₂ | ⟨hu₂, _⟩
      · rw [hsame u hu hu₁, hsame u' hu' hu₂]
      · rw [hsame u hu hu₁] at hsameProject
        exact absurd (hsameProject.symm.trans hproject) hu₂
    · rcases hactive u' hu' hstate' with hu₂ | ⟨_, hua'⟩
      · rw [hsame u' hu' hu₂] at hsameProject
        exact absurd (hsameProject.trans hproject) hu₁
      · exact h.active u hu u' hu' hsameProject hua hua'

theorem SprintMachine.concat (h : SprintMachine sprints) {row : SprintRow}
    (hid : row.id = nextRowid (sprints.map (·.id)))
    (hnumber : row.number = coalesceMax ((sprints.filter fun sp =>
      sp.projectID == row.projectID).map (·.number)) + 1)
    (hstate : row.state = .planned) (hstarted : row.startedAt = none) (hclosed : row.closedAt = none) :
    SprintMachine (sprints ++ [row]) where
  ids := by
    rw [List.map_append, List.map_singleton, hid]
    exact nodup_concat_nextRowid h.ids
  numbers := by
    rw [List.map_append, List.map_singleton, List.nodup_append]
    refine ⟨h.numbers, List.nodup_singleton _, fun k hk k' hk' => ?_⟩
    obtain ⟨sp, hsp, rfl⟩ := List.mem_map.mp hk
    rw [List.mem_singleton.mp hk']
    intro heq
    obtain ⟨hproject, hnum⟩ := Prod.mk.inj heq
    have hmem : sp.number ∈ (sprints.filter fun sp => sp.projectID == row.projectID).map (·.number) :=
      List.mem_map_of_mem (List.mem_filter.mpr ⟨hsp, by simpa using hproject⟩)
    have hle := le_coalesceMax hmem
    omega
  active sp hsp sp' hsp' hproject hactive hactive' := by
    have hold : ∀ u ∈ sprints ++ [row], u.state = .active → u ∈ sprints := by
      intro u hu hua
      rcases List.mem_append.mp hu with hu | hu
      · exact hu
      · rw [List.mem_singleton.mp hu, hstate] at hua
        cases hua
    exact h.active sp (hold sp hsp hactive) sp' (hold sp' hsp' hactive') hproject hactive hactive'
  stamped sp hsp := by
    rcases List.mem_append.mp hsp with hsp | hsp
    · exact h.stamped sp hsp
    · rw [List.mem_singleton.mp hsp]
      exact ⟨by simp [hstarted, hstate], by simp [hclosed, hstate]⟩

theorem SprintMachine.sublist {sprints' : List SprintRow} (h : SprintMachine sprints)
    (hsub : sprints'.Sublist sprints) : SprintMachine sprints' where
  ids := h.ids.sublist (hsub.map _)
  numbers := h.numbers.sublist (hsub.map _)
  active sp hsp sp' hsp' := h.active sp (hsub.subset hsp) sp' (hsub.subset hsp')
  stamped sp hsp := h.stamped sp (hsub.subset hsp)

/-- Every operation keeps the state machine. -/
theorem SprintMachine.step (h : SprintMachine db.sprints) (hstep : SprintsStep ctx db a sprints) :
    SprintMachine sprints := by
  cases hstep with
  | kept heq => exact heq ▸ h
  | created row hid hnumber hstate hstarted hclosed _ heq =>
      exact heq ▸ h.concat hid hnumber hstate hstarted hclosed
  | edited sprintID input sp _ _ _ _ _ heq =>
      subst heq
      refine h.map_of_inactive ?_ ?_ ?_ <;> intro u hu <;> dsimp only <;> split
      · exact ⟨rfl, rfl, rfl, .inl rfl⟩
      · exact .refl u
      · exact ⟨(h.stamped u hu).started, (h.stamped u hu).closed⟩
      · exact h.stamped u hu
      · exact id
      · exact id
  | activated projectID sprintID sp hsp hid hproject _ heq =>
      rw [activation_eq_map] at heq
      exact heq ▸ h.activate hsp hid hproject
  | closed projectID sprintID heq =>
      subst heq
      refine h.map_of_inactive ?_ ?_ ?_ <;> intro u hu <;> dsimp only <;> split
      · rename_i htarget
        simp only [Bool.and_eq_true, beq_iff_eq] at htarget
        exact SprintRow.moves_closed htarget.2
      · exact .refl u
      · rename_i htarget
        simp only [Bool.and_eq_true, beq_iff_eq] at htarget
        exact (h.stamped u hu).close htarget.2
      · exact h.stamped u hu
      · intro hstate
        cases hstate
      · exact id
  | deleted sprintID heq => exact heq ▸ h.sublist List.filter_sublist

/-- Where a sprint after a step comes from. -/
theorem SprintsStep.source (hstep : SprintsStep ctx db a sprints) {sp' : SprintRow}
    (hsp' : sp' ∈ sprints) : (∃ sp ∈ db.sprints, sp.Moves sp') ∨
      sp'.state = .planned ∧ sp'.id ∉ db.sprints.map (·.id) := by
  cases hstep with
  | kept heq => exact .inl ⟨sp', heq ▸ hsp', .refl sp'⟩
  | created row hid _ hstate _ _ _ heq =>
      rcases List.mem_append.mp (heq ▸ hsp') with hsp' | hsp'
      · exact .inl ⟨sp', hsp', .refl sp'⟩
      · rw [List.mem_singleton.mp hsp', hid]
        exact .inr ⟨hstate, nextRowid_not_mem _⟩
  | edited sprintID input sp _ _ _ _ _ heq =>
      obtain ⟨u, hu, rfl⟩ := mem_updateWhere.mp (heq ▸ hsp')
      refine .inl ⟨u, hu, ?_⟩
      split
      · exact ⟨rfl, rfl, rfl, .inl rfl⟩
      · exact .refl u
  | activated projectID sprintID sp _ _ _ _ heq =>
      rw [activation_eq_map] at heq
      obtain ⟨u, hu, rfl⟩ := List.mem_map.mp (heq ▸ hsp')
      exact .inl ⟨u, hu, activationRow_moves ctx projectID sprintID u⟩
  | closed projectID sprintID heq =>
      obtain ⟨u, hu, rfl⟩ := mem_updateWhere.mp (heq ▸ hsp')
      refine .inl ⟨u, hu, ?_⟩
      split
      · rename_i htarget
        simp only [Bool.and_eq_true, beq_iff_eq] at htarget
        exact SprintRow.moves_closed htarget.2
      · exact .refl u
  | deleted sprintID heq => exact .inl ⟨sp', (mem_deleteWhere.mp (heq ▸ hsp')).1, .refl sp'⟩

/-! ## Planned dates -/

/-- An edit that moves the start of a planned sprint and leaves its end puts the start
before the end. -/
def StartBeforeEnd (db : DB) : Ctx × SprintAction → Prop
  | (_, .updateSprint sprintID input) => input.plannedEndAt = none →
      ∀ start ∈ input.plannedStartAt, ∀ sp ∈ db.sprints, sp.id = sprintID → sp.state = .planned →
        start ≤ sp.plannedEndAt
  | _ => True

theorem SprintsStep.ordered (hids : (db.sprints.map (·.id)).Nodup)
    (hordered : ∀ sp ∈ db.sprints, sp.plannedStartAt ≤ sp.plannedEndAt)
    (hcond : StartBeforeEnd db (ctx, a)) (hstep : SprintsStep ctx db a sprints) :
    ∀ sp ∈ sprints, sp.plannedStartAt ≤ sp.plannedEndAt := by
  intro sp' hsp'
  cases hstep with
  | kept heq => exact hordered sp' (heq ▸ hsp')
  | created row _ _ _ _ _ hdates heq =>
      rcases List.mem_append.mp (heq ▸ hsp') with hsp' | hsp'
      · exact hordered sp' hsp'
      · exact List.mem_singleton.mp hsp' ▸ hdates
  | edited sprintID input sp hsp hid ha hstart hend heq =>
      obtain ⟨u, hu, rfl⟩ := mem_updateWhere.mp (heq ▸ hsp')
      split
      · rename_i htarget
        have hsame : u = sp := List.inj_on_of_nodup_map hids hu hsp
          ((beq_iff_eq.mp htarget).trans hid.symm)
        subst hsame
        show input.plannedStartAt.getD u.plannedStartAt ≤ input.plannedEndAt.getD u.plannedEndAt
        cases hend' : input.plannedEndAt with
        | some endAt => exact hend endAt hend'
        | none =>
            cases hstart' : input.plannedStartAt with
            | none => exact hordered u hu
            | some start =>
                subst ha
                exact hcond hend' start hstart' u hu hid (hstart (by simp [hstart']))
      · exact hordered u hu
  | activated projectID sprintID sp _ _ _ _ heq =>
      rw [activation_eq_map] at heq
      obtain ⟨u, hu, rfl⟩ := List.mem_map.mp (heq ▸ hsp')
      have hdates := hordered u hu
      unfold activationRow
      split
      · exact hdates
      · split
        · exact hdates
        · exact hdates
  | closed projectID sprintID heq =>
      obtain ⟨u, hu, rfl⟩ := mem_updateWhere.mp (heq ▸ hsp')
      have hdates := hordered u hu
      split
      · exact hdates
      · exact hdates
  | deleted sprintID heq => exact hordered sp' (mem_deleteWhere.mp (heq ▸ hsp')).1

end

theorem SprintMachine.run {db : DB} (h : SprintMachine db.sprints) (l : List (Ctx × SprintAction)) :
    SprintMachine (Transition.run sprintStep db l).sprints := by
  induction l generalizing db with
  | nil => exact h
  | cons a l ih => exact ih (h.step (sprintStep_cases db a))

/-- In every run from a store without sprints, sprints are a state machine: numbers tell
them apart, one is active at most, their times go with their states, and a step moves them
forward or adds a planned one. In a run in which no edit moves a start alone behind the
end, every sprint ends no earlier than it starts. -/
theorem sprint_runs {db : DB} (h0 : db.sprints = []) (l : List (Ctx × SprintAction)) :
    SprintMachine (run sprintStep db l).sprints ∧
      (∀ a, ∀ sp' ∈ (sprintStep (run sprintStep db l) a).sprints,
        (∃ sp ∈ (run sprintStep db l).sprints, sp.Moves sp') ∨
          sp'.state = .planned ∧ sp'.id ∉ (run sprintStep db l).sprints.map (·.id)) ∧
      (Along StartBeforeEnd sprintStep db l →
        ∀ sp ∈ (run sprintStep db l).sprints, sp.plannedStartAt ≤ sp.plannedEndAt) := by
  have hmachine : SprintMachine db.sprints := by
    rw [h0]
    exact ⟨List.nodup_nil, List.nodup_nil, by simp, by simp⟩
  refine ⟨hmachine.run l, ?_, ?_⟩
  · intro a sp' hsp'
    exact (sprintStep_cases _ a).source hsp'
  · intro hl
    have hinv := run_along (I := fun db => SprintMachine db.sprints ∧
        ∀ sp ∈ db.sprints, sp.plannedStartAt ≤ sp.plannedEndAt)
      (fun db a h hcond => ⟨h.1.step (sprintStep_cases db a),
        (sprintStep_cases db a).ordered h.1.ids h.2 hcond⟩) ⟨hmachine, by simp [h0]⟩ hl
    exact hinv.2

/-- A store with one project, in which sprints are enabled. -/
def sprintBoard : DB where
  projects := [{ defaultProjectRow 0 with
    id := 1, name := "Board", slug := "board", sprintsEnabled := true }]

/-- A sprint from 10 to 20 is planned, and its end is moved. -/
theorem sprint_runs_extended :
    (run sprintStep sprintBoard [(⟨none, 0⟩, .createSprint 1 "One" 10 20),
      (⟨none, 1⟩, .updateSprint 1 { plannedEndAt := some 30 })]).sprints.length = 1 ∧
    ∀ sp ∈ (run sprintStep sprintBoard [(⟨none, 0⟩, .createSprint 1 "One" 10 20),
      (⟨none, 1⟩, .updateSprint 1 { plannedEndAt := some 30 })]).sprints,
      sp.plannedStartAt ≤ sp.plannedEndAt := by
  refine ⟨by decide +kernel, (sprint_runs rfl _).2.2 ⟨trivial, ?_, trivial⟩⟩
  intro hnone
  cases hnone

/-- Not every run keeps the dates in order: a sprint from 10 to 20 is planned, and its start
is moved to 30. -/
theorem sprint_dates_reversed :
    ¬ ∀ l, ∀ sp ∈ (run sprintStep sprintBoard l).sprints, sp.plannedStartAt ≤ sp.plannedEndAt := by
  intro h
  have hdates : (run sprintStep sprintBoard [(⟨none, 0⟩, .createSprint 1 "One" 10 20),
      (⟨none, 1⟩, .updateSprint 1 { plannedStartAt := some 30 })]).sprints.map
        (fun sp => (sp.plannedStartAt, sp.plannedEndAt)) = [(30, 20)] := by decide +kernel
  have hmem := List.mem_singleton_self ((30, 20) : ℤ × ℤ)
  rw [← hdates] at hmem
  obtain ⟨sp, hsp, heq⟩ := List.mem_map.mp hmem
  obtain ⟨hstart, hend⟩ := Prod.mk.inj heq
  have hle := h _ sp hsp
  omega

end Scrumboy
