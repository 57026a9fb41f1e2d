import Scrumboy.Store.Updates

/-!
# Due reminders

A worker claims the reminders of todos whose due date comes near, marks them in the
same transaction, and delivers what the claim returned. The lead time is a setting of
the organization, whose stored text is a parameter here.
-/

namespace Scrumboy

open Go Sql

def defaultDueReminderLeadHours : ℤ := 24

def maxDueReminderLeadHours : ℤ := 24 * 90

def parseDueReminderLeadHours (raw : String) : Result ℤ :=
  match parseInt (trimSpace raw) with
  | some hours => do
      reject (hours < 0 ∨ maxDueReminderLeadHours < hours)
        ⟨.validation, "due reminder lead time must be a whole number of hours between 0 and 2160"⟩
      pure hours
  | none =>
      throw ⟨.validation, "due reminder lead time must be a whole number of hours between 0 and 2160"⟩

/-- The lead time in hours, where zero means that there are no reminders. -/
def getDueReminderLeadHours (setting : String) : Result ℤ :=
  if trimSpace setting = "" then pure defaultDueReminderLeadHours
  else parseDueReminderLeadHours setting

structure DueReminder where
  todo : Todo
  projectSlug : String
  leadHours : ℤ
  deriving DecidableEq, Repr

/-- The reminder for the due date is still to come, and the todo is not archived. -/
def TodoRow.isPending (t : TodoRow) : Bool :=
  t.dueAt.isSome && t.dueRemindedAt.isNone && t.archivedAt.isNone

def TodoRow.isDueBy (ms : ℤ) (t : TodoRow) : Bool := t.dueAt.any (· ≤ ms)

def TodoRow.markReminded (nowMs : ℤ) (t : TodoRow) : TodoRow :=
  { t with dueRemindedAt := some nowMs }

/-- The join of a todo with its project and its column: the project is durable and the
column is not the done one. -/
def remindable (db : DB) (t : TodoRow) : Bool :=
  (db.projects.any fun p => p.id == t.projectID && p.expiresAt == none) &&
    db.columns.any fun c => c.projectID == t.projectID && c.key == t.columnKey && !c.isDone

/-- The ids of the upcoming todos that a claim selects, the earliest due date first. -/
def upcomingReminders (db : DB) (nowMs windowEndMs : ℤ) (limit : ℕ) : List ℤ :=
  let upcoming := db.todos.filter fun t =>
    t.isPending && !t.isDueBy nowMs && t.isDueBy windowEndMs && remindable db t
  ((orderBy (fun t => toLex (t.dueAt.getD 0, t.id)) upcoming).take limit).map (·.id)

/-- `UPDATE todos SET due_reminded_at = ?` for the todos that are overdue. -/
def markOverdue (db : DB) (nowMs : ℤ) : DB :=
  { db with
    todos := updateWhere (fun t => t.isPending && t.isDueBy nowMs) (TodoRow.markReminded nowMs)
      db.todos }

/-- The same for the claimed ones. -/
def markClaimed (db : DB) (nowMs : ℤ) (ids : List ℤ) : DB :=
  { db with
    todos := updateWhere (fun t => decide (t.id ∈ ids)) (TodoRow.markReminded nowMs) db.todos }

def loadReminder (rt : Runtime) (db : DB) (leadHours : ℤ) (t : TodoRow) : Result DueReminder :=
  match db.projects.find? (·.id == t.projectID) with
  | some p => pure ⟨loadTodo rt db t, p.slug, leadHours⟩
  | none => throw ⟨.internal, "due reminder project slug: sql: no rows in result set"⟩

/-- `ClaimDueReminders`. Todos whose due date has passed are marked without being
returned. -/
def claimDueReminders (rt : Runtime) (ctx : Ctx) (db : DB) (setting : String) (limit : ℤ) :
    Result (DB × List DueReminder) := do
  let leadHours ← getDueReminderLeadHours setting
  if leadHours = 0 ∨ limit ≤ 0 then pure (db, [])
  else
    let windowEndMs := ctx.nowMs + leadHours * 60 * 60 * 1000
    let db := markOverdue db ctx.nowMs
    let claimed := upcomingReminders db ctx.nowMs windowEndMs limit.toNat
    let db := markClaimed db ctx.nowMs claimed
    let reminders ← (db.todos.filter fun t => decide (t.id ∈ claimed)).mapM
      (loadReminder rt db leadHours)
    pure (db, reminders)

/-! ## What a claim does -/

section

variable {rt : Runtime} {ctx : Ctx} {db db' : DB} {setting : String} {limit : ℤ}

theorem mem_upcomingReminders {nowMs windowEndMs id : ℤ} {n : ℕ}
    (h : id ∈ upcomingReminders db nowMs windowEndMs n) :
    ∃ t ∈ db.todos, t.id = id ∧ t.isPending = true ∧ t.isDueBy nowMs = false ∧
      remindable db t = true := by
  obtain ⟨t, ht, rfl⟩ := List.mem_map.mp h
  have hmem := mem_orderBy.mp (List.mem_of_mem_take ht)
  simp only [List.mem_filter, Bool.and_eq_true, Bool.not_eq_true'] at hmem
  obtain ⟨hmem, ⟨⟨hpending, hdue⟩, _⟩, hjoin⟩ := hmem
  exact ⟨t, hmem, rfl, hpending, hdue, hjoin⟩

theorem loadReminder_eq_ok {leadHours : ℤ} {t : TodoRow} {r : DueReminder}
    (h : loadReminder rt db leadHours t = .ok r) : r.todo.row = t := by
  unfold loadReminder at h
  split at h
  · cases h
    rfl
  · cases h

/-- A todo that is still pending after the overdue ones were marked was not marked. -/
theorem mem_markOverdue_of_isPending {nowMs : ℤ} {t : TodoRow}
    (ht : t ∈ (markOverdue db nowMs).todos) (hpending : t.isPending = true) : t ∈ db.todos := by
  obtain ⟨u, hu, rfl⟩ := mem_updateWhere.mp ht
  split at hpending
  · simp [TodoRow.isPending, TodoRow.markReminded] at hpending
  · rename_i hkeep
    rwa [if_neg hkeep]

/-- A claim marks todos that are pending. Those that it returns are among them, in a
durable project and in a column that is not done. -/
theorem claimDueReminders_spec (hids : (db.todos.map (·.id)).Nodup) {reminders : List DueReminder}
    (h : claimDueReminders rt ctx db setting limit = .ok (db', reminders)) :
    ∃ marked : TodoRow → Bool, (∀ t ∈ db.todos, marked t = true → t.isPending = true) ∧
      db' = { db with todos := updateWhere marked (TodoRow.markReminded ctx.nowMs) db.todos } ∧
      ∀ r ∈ reminders, ∃ t ∈ db.todos, marked t = true ∧ remindable db t = true ∧
        r.todo.row = t.markReminded ctx.nowMs := by
  simp only [claimDueReminders, bind_eq_ok] at h
  obtain ⟨leadHours, _, h⟩ := h
  split at h
  · rw [pure_eq_ok, Prod.mk.injEq] at h
    obtain ⟨rfl, rfl⟩ := h
    exact ⟨fun _ => false, by simp, by simp [updateWhere], by simp⟩
  · simp only [bind_eq_ok, pure_eq_ok, Prod.mk.injEq] at h
    obtain ⟨rs, hload, rfl, rfl⟩ := h
    generalize hclaimed : upcomingReminders _ _ _ _ = claimed at hload
    have hpick : ∀ id ∈ claimed, ∃ t ∈ db.todos, t.id = id ∧ t.isPending = true ∧
        remindable db t = true := by
      intro id hid
      rw [← hclaimed] at hid
      obtain ⟨t, ht, htid, hpending, _, hjoin⟩ := mem_upcomingReminders hid
      exact ⟨t, mem_markOverdue_of_isPending ht hpending, htid, hpending, hjoin⟩
    have hpending : ∀ t ∈ db.todos, t.id ∈ claimed → t.isPending = true ∧ remindable db t = true := by
      intro t ht hid
      obtain ⟨u, hu, huid, hup⟩ := hpick t.id hid
      rwa [← List.inj_on_of_nodup_map hids hu ht huid]
    have htodos : (markClaimed (markOverdue db ctx.nowMs) ctx.nowMs claimed).todos =
        updateWhere (fun t => t.isPending && t.isDueBy ctx.nowMs || decide (t.id ∈ claimed))
          (TodoRow.markReminded ctx.nowMs) db.todos := by
      apply updateWhere_updateWhere
      · intro t
        rfl
      · intro t
        rfl
    refine ⟨fun t => t.isPending && t.isDueBy ctx.nowMs || decide (t.id ∈ claimed), ?_, ?_, ?_⟩
    · intro t ht hmarked
      simp only [Bool.or_eq_true, Bool.and_eq_true, decide_eq_true_eq] at hmarked
      rcases hmarked with ⟨hp, _⟩ | hid
      · exact hp
      · exact (hpending t ht hid).1
    · rw [← htodos]
      rfl
    · intro r hr
      obtain ⟨t, ht, hrow⟩ := mem_of_mapM hload hr
      obtain ⟨htmem, hid⟩ := List.mem_filter.mp ht
      rw [htodos, mem_updateWhere] at htmem
      obtain ⟨u, hu, rfl⟩ := htmem
      rw [loadReminder_eq_ok hrow]
      have hid : u.id ∈ claimed := by
        split at hid <;> exact of_decide_eq_true hid
      exact ⟨u, hu, by simp [hid], (hpending u hu hid).2, by simp [hid]⟩

end

end Scrumboy
