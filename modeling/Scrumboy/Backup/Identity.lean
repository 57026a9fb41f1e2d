import Scrumboy.Backup.Landing
import Scrumboy.Store.Lanes
import Scrumboy.Store.Placement

/-!
# The local ids of a merge

A todo keeps its id, its project and its local id for life, so an import can only
append to the list of these keys. A merge gives a new todo its own local id only if
that is above every local id of the project at that moment. Whether the free local
ids of a backup survive is therefore a matter of the order in which it lists them.
-/

set_option linter.dupNamespace false

namespace Scrumboy

open Go Sql

/-- The local ids in use in a project. -/
def DB.localIDs (db : DB) (projectID : ℤ) : List ℤ :=
  (db.todos.filter fun t => t.projectID == projectID).map (·.localID)

theorem DB.mem_localIDs {db : DB} {projectID localID : ℤ} :
    localID ∈ db.localIDs projectID ↔
      ∃ t ∈ db.todos, t.projectID = projectID ∧ t.localID = localID := by
  simp [DB.localIDs, and_assoc]

theorem DB.localIDs_eq (db : DB) (projectID : ℤ) :
    db.localIDs projectID = (db.todoKeys.filter fun k => k.projectID == projectID).map (·.localID) := by
  simp only [DB.localIDs, DB.todoKeys, List.filter_map, List.map_map]
  rfl

theorem maxLocalID_eq (db : DB) (projectID : ℤ) :
    maxLocalID db projectID = coalesceMax (db.localIDs projectID) := rfl

theorem todoByLocalID_eq_none {db : DB} {projectID localID : ℤ} :
    todoByLocalID db projectID localID = none ↔ localID ∉ db.localIDs projectID := by
  rw [DB.mem_localIDs, todoByLocalID, List.find?_eq_none]
  simp

/-! ## One step -/

section

variable {projectID : ℤ} {s s' : TodoScan} {t : TodoExport} {u : TodoRow}

theorem LandsOn.todoKeys (h : LandsOn projectID s s' t u) : s'.db.todoKeys = s.db.todoKeys := by
  obtain ⟨sprintID, htags⟩ := h.tables
  obtain ⟨_, _, _, _, heq⟩ := htags.exists_eq
  rw [heq]
  apply map_updateWhere
  intro v
  rfl

theorem LandsNew.projectID_eq (h : LandsNew projectID s s' t u) : u.projectID = projectID := by
  obtain ⟨sprintID, hrow⟩ := h.row
  rw [hrow]
  rfl

theorem LandsNew.todos (h : LandsNew projectID s s' t u) : s'.db.todos = s.db.todos ++ [u] := by
  obtain ⟨_, _, _, _, heq⟩ := h.tables.exists_eq
  rw [heq]

theorem LandsNew.todoKeys (h : LandsNew projectID s s' t u) :
    s'.db.todoKeys = s.db.todoKeys ++ [u.key] := by
  simp [DB.todoKeys, h.todos]

theorem LandsNew.localIDs (h : LandsNew projectID s s' t u) :
    s'.db.localIDs projectID = s.db.localIDs projectID ++ [u.localID] := by
  simp [DB.localIDs, h.todos, h.projectID_eq]

theorem LandsOn.localIDs (h : LandsOn projectID s s' t u) :
    s'.db.localIDs projectID = s.db.localIDs projectID := by
  rw [DB.localIDs_eq, h.todoKeys, ← DB.localIDs_eq]

theorem LandsNew.id_lt (h : LandsNew projectID s s' t u) : ∀ k ∈ s.db.todoKeys, k.id < u.id := by
  intro k hk
  obtain ⟨v, hv, rfl⟩ := List.mem_map.mp hk
  rw [h.id_eq]
  exact lt_nextRowid (List.mem_map.mpr ⟨v, hv, rfl⟩)

theorem mergeMatch_eq_none_iff {localID : ℤ} : mergeMatch s projectID localID = none ↔
    ((s.db.todoKeys.find? fun k => k.projectID == projectID && k.localID == localID).filter
      fun k => !s.imported.wasCreated k.id) = none := by
  have hkey : (fun k : TodoKey => k.projectID == projectID && k.localID == localID) ∘ TodoRow.key =
      fun t => t.projectID == projectID && t.localID == localID := rfl
  rw [DB.todoKeys, List.find?_map, hkey]
  unfold mergeMatch todoByLocalID
  cases s.db.todos.find? fun t => t.projectID == projectID && t.localID == localID with
  | none => simp
  | some t => simp [Option.filter_eq_none_iff, TodoRow.key]

/-- A todo that lands on a row matches nothing anew. -/
theorem LandsOn.mergeMatch_eq_none (h : LandsOn projectID s s' t u) (localID : ℤ) :
    mergeMatch s' projectID localID = none ↔ mergeMatch s projectID localID = none := by
  rw [mergeMatch_eq_none_iff, mergeMatch_eq_none_iff, h.todoKeys, h.imported]
  rfl

/-- A new row is matched by no later todo, and only hides its own local id. -/
theorem LandsNew.mergeMatch_eq_none (h : LandsNew projectID s s' t u) {localID : ℤ}
    (hne : localID ≠ u.localID) :
    mergeMatch s' projectID localID = none ↔ mergeMatch s projectID localID = none := by
  have hu : (u.key.projectID == projectID && u.key.localID == localID) = false := by
    simp [TodoRow.key, hne.symm]
  have hfind : (s.db.todoKeys ++ [u.key]).find? (fun k => k.projectID == projectID &&
      k.localID == localID) = s.db.todoKeys.find? fun k => k.projectID == projectID &&
      k.localID == localID := by
    simp [List.find?_append, hu]
  rw [mergeMatch_eq_none_iff, mergeMatch_eq_none_iff, h.todoKeys, hfind, h.imported]
  cases hk : s.db.todoKeys.find? fun k => k.projectID == projectID && k.localID == localID with
  | none => simp
  | some k =>
      have hfresh : k.id ≠ u.id := (h.id_lt k (List.mem_of_find?_eq_some hk)).ne
      simp [Option.filter_eq_none_iff, ImportedTodos.wasCreated, ImportedTodos.record, hfresh]

end

/-! ## Growing tables -/

/-- The todos of one database after rows of larger ids were appended. -/
def KeysGrow (db db' : DB) : Prop :=
  ∃ new, db'.todoKeys = db.todoKeys ++ new ∧ ∀ k ∈ new, ∀ k₀ ∈ db.todoKeys, k₀.id < k.id

namespace KeysGrow

variable {db db₁ db₂ : DB}

theorem of_eq (h : db₁.todoKeys = db.todoKeys) : KeysGrow db db₁ := ⟨[], by simp [h], by simp⟩

theorem refl (db : DB) : KeysGrow db db := of_eq rfl

theorem trans (h₁ : KeysGrow db db₁) (h₂ : KeysGrow db₁ db₂) : KeysGrow db db₂ := by
  obtain ⟨new₁, heq₁, hlt₁⟩ := h₁
  obtain ⟨new₂, heq₂, hlt₂⟩ := h₂
  refine ⟨new₁ ++ new₂, by rw [heq₂, heq₁, List.append_assoc], ?_⟩
  intro k hk k₀ hk₀
  rcases List.mem_append.mp hk with hk | hk
  · exact hlt₁ k hk k₀ hk₀
  · exact hlt₂ k hk k₀ (heq₁ ▸ List.mem_append_left _ hk₀)

theorem mem (h : KeysGrow db db₁) {k : TodoKey} (hk : k ∈ db.todoKeys) : k ∈ db₁.todoKeys := by
  obtain ⟨new, heq, _⟩ := h
  exact heq ▸ List.mem_append_left _ hk

/-- No later row takes the id of a row. -/
theorem eq_of_id_eq (h : KeysGrow db db₁) {k k₀ : TodoKey} (hk₀ : k₀ ∈ db.todoKeys)
    (hk : k ∈ db₁.todoKeys) (hid : k.id = k₀.id) : k ∈ db.todoKeys := by
  obtain ⟨new, heq, hlt⟩ := h
  rcases List.mem_append.mp (heq ▸ hk) with hold | hnew
  · exact hold
  · exact absurd hid (hlt k hnew k₀ hk₀).ne'

end KeysGrow

section

variable {projectID : ℤ} {s s' : TodoScan} {t : TodoExport} {u : TodoRow}

theorem LandsOn.keysGrow (h : LandsOn projectID s s' t u) : KeysGrow s.db s'.db := .of_eq h.todoKeys

theorem LandsNew.keysGrow (h : LandsNew projectID s s' t u) : KeysGrow s.db s'.db := by
  refine ⟨[u.key], h.todoKeys, ?_⟩
  intro k hk k₀ hk₀
  rw [List.mem_singleton.mp hk]
  exact h.id_lt k₀ hk₀

end

/-! ## Free local ids -/

/-- The local ids of a backup that no todo of the project uses. -/
def freeLocalIDs (db : DB) (projectID : ℤ) (todos : List TodoExport) : List ℤ :=
  (todos.map (·.localID)).filter fun localID => !(db.localIDs projectID).contains localID

/-- Every local id of the list is above the ones before it and above `m`. Beyond the
largest integer the next local id is the smallest one, which therefore passes too. -/
def AscendingFrom : ℤ → List ℤ → Prop
  | _, [] => True
  | m, localID :: rest => (m < localID ∨ wrap (m + 1) = localID) ∧ AscendingFrom (max m localID) rest

instance AscendingFrom.decidable : ∀ m l, Decidable (AscendingFrom m l)
  | _, [] => .isTrue trivial
  | m, localID :: rest =>
      have : Decidable (AscendingFrom (max m localID) rest) :=
        AscendingFrom.decidable (max m localID) rest
      inferInstanceAs (Decidable (_ ∧ _))

theorem mergeLocalID_eq_self_iff {db : DB} {projectID localID : ℤ} :
    mergeLocalID db projectID localID = localID ↔
      maxLocalID db projectID < localID ∨ wrap (maxLocalID db projectID + 1) = localID := by
  unfold mergeLocalID
  by_cases hle : localID ≤ maxLocalID db projectID
  · rw [if_pos hle]
    exact ⟨.inr, fun h => h.resolve_left (not_lt.mpr hle)⟩
  · rw [if_neg hle]
    exact ⟨fun _ => .inl (not_le.mp hle), fun _ => rfl⟩

section

variable {rt : Runtime} {ctx : Ctx} {projectID : ℤ} {sprintID : ℤ → Option ℤ} {s s' : TodoScan}
  {todos : List TodoExport}

theorem mergeTodo_keysGrow {t : TodoExport} (h : mergeTodo rt ctx projectID sprintID s t = .ok s') :
    KeysGrow s.db s'.db := by
  rcases mergeTodo_cases h with ⟨u, _, hon⟩ | ⟨u, _, hnew, _⟩
  · exact hon.keysGrow
  · exact hnew.keysGrow

theorem mergeTodos_keysGrow (h : todos.foldlM (mergeTodo rt ctx projectID sprintID) s = .ok s') :
    KeysGrow s.db s'.db :=
  foldlM_inv (P := fun s' => KeysGrow s.db s'.db)
    (fun _ _ _ _ hs hstep => hs.trans (mergeTodo_keysGrow hstep)) (.refl s.db) h

/-- Every todo of the backup adds one entry to the list of where they landed. -/
theorem mergeTodos_todoIDs (h : todos.foldlM (mergeTodo rt ctx projectID sprintID) s = .ok s') :
    ∃ ids, s'.imported.todoIDs = s.imported.todoIDs ++ ids := by
  refine foldlM_inv (P := fun s' => ∃ ids, s'.imported.todoIDs = s.imported.todoIDs ++ ids)
    (fun s₁ t s₂ _ hs hstep => ?_) ⟨[], by simp⟩ h
  obtain ⟨ids, hids⟩ := hs
  rcases mergeTodo_cases hstep with ⟨u, _, hon⟩ | ⟨u, _, hnew, _⟩
  · exact ⟨ids ++ [u.id], by simp [hon.imported, ImportedTodos.record, hids]⟩
  · exact ⟨ids ++ [u.id], by simp [hnew.imported, ImportedTodos.record, hids]⟩

/-- The maximum after a row that kept its local id. -/
theorem LandsNew.maxLocalID_eq {t : TodoExport} {u : TodoRow} (h : LandsNew projectID s s' t u)
    (hlid : u.localID = mergeLocalID s.db projectID t.localID) (hkept : u.localID = t.localID) :
    maxLocalID s'.db projectID = max (maxLocalID s.db projectID) t.localID := by
  have hasc := mergeLocalID_eq_self_iff.mp (hlid.symm.trans hkept)
  rw [Scrumboy.maxLocalID_eq] at hasc ⊢
  rw [Scrumboy.maxLocalID_eq, h.localIDs, hkept]
  by_cases hempty : s.db.localIDs projectID = []
  · rw [hempty] at hasc ⊢
    have hpos : (0 : ℤ) ≤ t.localID := by
      rcases hasc with hlt | heq
      · exact hlt.le
      · rw [← heq]
        decide
    rw [List.nil_append, coalesceMax_singleton, coalesceMax_nil, max_eq_right hpos]
  · exact coalesceMax_concat hempty t.localID

/-- Of the todos of the backup that match nothing, all keep their local ids exactly
if these ascend. The induction follows the loop; once a local id was not kept, the
row with another one stays for good. -/
theorem mergeTodos_kept_iff (h : todos.foldlM (mergeTodo rt ctx projectID sprintID) s = .ok s')
    (hnodup : (todos.map (·.localID)).Nodup) {ids : List ℤ}
    (hids : s'.imported.todoIDs = s.imported.todoIDs ++ ids) :
    (∀ t todoID, (t, todoID) ∈ todos.zip ids → mergeMatch s projectID t.localID = none →
        ⟨todoID, projectID, t.localID⟩ ∈ s'.db.todoKeys) ↔
      AscendingFrom (maxLocalID s.db projectID)
        ((todos.map (·.localID)).filter fun localID => (mergeMatch s projectID localID).isNone) := by
  induction todos generalizing s ids with
  | nil => simp [AscendingFrom]
  | cons t todos ih =>
      rw [List.foldlM_cons, bind_eq_ok] at h
      obtain ⟨s₁, hstep, hrest⟩ := h
      rw [List.map_cons, List.nodup_cons] at hnodup
      obtain ⟨ids₁, hids₁⟩ := mergeTodos_todoIDs hrest
      have hgrow := mergeTodos_keysGrow hrest
      have ih := ih hrest hnodup.2 hids₁
      -- What matches nothing is the same before and after the step.
      have hsame : (∀ l ∈ todos.map (·.localID),
            (mergeMatch s₁ projectID l = none ↔ mergeMatch s projectID l = none)) →
          ((todos.map (·.localID)).filter fun l => (mergeMatch s₁ projectID l).isNone) =
            (todos.map (·.localID)).filter fun l => (mergeMatch s projectID l).isNone := by
        intro hl
        apply List.filter_congr
        intro l hmem
        rw [Bool.eq_iff_iff, Option.isNone_iff_eq_none, Option.isNone_iff_eq_none]
        exact hl l hmem
      have hmem : ∀ {t' todoID}, (t', todoID) ∈ todos.zip ids₁ → t'.localID ∈ todos.map (·.localID) :=
        fun hz => List.mem_map.mpr ⟨_, (List.of_mem_zip hz).1, rfl⟩
      rcases mergeTodo_cases hstep with ⟨u, hmatch, hon⟩ | ⟨u, hmatch, hnew, hlid⟩
      · have hcons : ids = u.id :: ids₁ := by
          rw [hids₁, hon.imported] at hids
          simpa [ImportedTodos.record] using hids.symm
        have hnone := hon.mergeMatch_eq_none
        rw [hsame (fun l _ => hnone l), maxLocalID_eq, hon.localIDs, ← maxLocalID_eq] at ih
        rw [hcons, List.zip_cons_cons, List.map_cons, List.filter_cons_of_neg (by simp [hmatch]), ← ih]
        constructor
        · intro hall t' todoID hz hm
          exact hall t' todoID (List.mem_cons_of_mem _ hz) ((hnone _).mp hm)
        · intro hall t' todoID hz hm
          rcases List.mem_cons.mp hz with heq | hz
          · rw [(Prod.mk.inj heq).1, hmatch] at hm
            cases hm
          · exact hall t' todoID hz ((hnone _).mpr hm)
      · have hcons : ids = u.id :: ids₁ := by
          rw [hids₁, hnew.imported] at hids
          simpa [ImportedTodos.record] using hids.symm
        have hu₁ : u.key ∈ s₁.db.todoKeys := by
          rw [hnew.todoKeys]
          exact List.mem_append_right _ (List.mem_singleton_self _)
        -- The row of this todo is the only one with its id, now and at the end.
        have hstored : (⟨u.id, projectID, t.localID⟩ : TodoKey) ∈ s'.db.todoKeys ↔
            u.localID = t.localID := by
          constructor
          · intro hk
            have hk₁ := hgrow.eq_of_id_eq hu₁ hk rfl
            rw [hnew.todoKeys] at hk₁
            rcases List.mem_append.mp hk₁ with hold | hself
            · exact absurd (hnew.id_lt _ hold) (lt_irrefl _)
            · exact (congrArg TodoKey.localID (List.mem_singleton.mp hself)).symm
          · intro hkept
            rw [← hkept, ← hnew.projectID_eq]
            exact hgrow.mem hu₁
        rw [hcons, List.zip_cons_cons, List.map_cons, List.filter_cons_of_pos (by simp [hmatch]),
          AscendingFrom, ← mergeLocalID_eq_self_iff, ← hlid]
        by_cases hkept : u.localID = t.localID
        · have hnone : ∀ l ∈ todos.map (·.localID),
              (mergeMatch s₁ projectID l = none ↔ mergeMatch s projectID l = none) := by
            intro l hl
            apply hnew.mergeMatch_eq_none
            rintro rfl
            exact hnodup.1 (hkept ▸ hl)
          rw [hsame hnone, hnew.maxLocalID_eq hlid hkept] at ih
          rw [← ih]
          constructor
          · intro hall
            refine ⟨hkept, fun t' todoID hz hm => ?_⟩
            exact hall t' todoID (List.mem_cons_of_mem _ hz) ((hnone _ (hmem hz)).mp hm)
          · rintro ⟨_, hall⟩ t' todoID hz hm
            rcases List.mem_cons.mp hz with heq | hz
            · obtain ⟨rfl, rfl⟩ := Prod.mk.inj heq
              exact hstored.mpr hkept
            · exact hall t' todoID hz ((hnone _ (hmem hz)).mpr hm)
        · refine iff_of_false (fun hall => ?_) (fun hasc => hkept hasc.1)
          exact hkept (hstored.mp (hall t u.id List.mem_cons_self hmatch))

/-- A merge stores every free local id of a backup project exactly if the backup
lists the free ones in ascending order, above those of the destination. -/
theorem merge_keeps_free_localIDs_iff (rt : Runtime) (ctx : Ctx) (db : DB) (projectID : ℤ)
    (sprintID : ℤ → Option ℤ) (todos : List TodoExport) (r : ImportResult) (scan : TodoScan)
    (hnodup : (todos.map (·.localID)).Nodup)
    (hok : mergeTodos rt ctx db projectID sprintID todos r = .ok scan) :
    (∀ t todoID, (t, todoID) ∈ todos.zip scan.imported.todoIDs →
        t.localID ∉ db.localIDs projectID →
        ⟨todoID, projectID, t.localID⟩ ∈ scan.db.todoKeys) ↔
      AscendingFrom (maxLocalID db projectID) (freeLocalIDs db projectID todos) := by
  have hfree : ∀ l, mergeMatch { db := db, result := r } projectID l = none ↔
      l ∉ db.localIDs projectID := by
    intro l
    rw [← todoByLocalID_eq_none, mergeMatch, Option.filter_eq_none_iff]
    constructor
    · intro hall
      cases hfind : todoByLocalID db projectID l with
      | none => rfl
      | some u => exact absurd rfl (hall u hfind)
    · intro hnone u hu
      rw [hnone] at hu
      cases hu
  have hids : scan.imported.todoIDs = [] ++ scan.imported.todoIDs := rfl
  have hkept := mergeTodos_kept_iff hok hnodup hids
  simp only [hfree] at hkept
  rw [hkept, freeLocalIDs]
  have hfilter : (fun l => (mergeMatch { db := db, result := r } projectID l).isNone) =
      fun l => !(db.localIDs projectID).contains l := by
    funext l
    rw [Bool.eq_iff_iff, Option.isNone_iff_eq_none, hfree]
    simp
  rw [hfilter]

end

/-- A todo of a backup in the backlog. -/
def backlogTodo (localID : ℤ) : TodoExport :=
  { localID := localID, title := "t", status := "BACKLOG" }

/-- The local ids 4 and 7 are free on a board whose todos have 1, 2 and 3; listed in
this order both are kept. -/
theorem merge_keeps_free_localIDs_ascending :
    ∃ scan, mergeTodos plainRuntime ⟨none, 5⟩ crowdedBoard 1 (fun _ => none)
        [backlogTodo 4, backlogTodo 2, backlogTodo 7] {} = .ok scan ∧
      ∀ t todoID, (t, todoID) ∈
          [backlogTodo 4, backlogTodo 2, backlogTodo 7].zip scan.imported.todoIDs →
        t.localID ∉ crowdedBoard.localIDs 1 → ⟨todoID, 1, t.localID⟩ ∈ scan.db.todoKeys := by
  obtain ⟨scan, hok⟩ := exists_of_isOk (x := mergeTodos plainRuntime ⟨none, 5⟩ crowdedBoard 1
    (fun _ => none) [backlogTodo 4, backlogTodo 2, backlogTodo 7] {}) (by decide +kernel)
  exact ⟨scan, hok, (merge_keeps_free_localIDs_iff _ _ _ _ _ _ _ _ (by decide) hok).mpr
    (by decide +kernel)⟩

/-- The same two in the other order, as a backup lists them when the later todo
ranks first: the todo with the free local id 4 is stored under 8. -/
theorem merge_regenerates_free_localID :
    ∃ scan, mergeTodos plainRuntime ⟨none, 5⟩ crowdedBoard 1 (fun _ => none)
        [backlogTodo 7, backlogTodo 4] {} = .ok scan ∧
      (⟨5, 1, 8⟩ : TodoKey) ∈ scan.db.todoKeys ∧
      ¬ ∀ t todoID, (t, todoID) ∈ [backlogTodo 7, backlogTodo 4].zip scan.imported.todoIDs →
        t.localID ∉ crowdedBoard.localIDs 1 → ⟨todoID, 1, t.localID⟩ ∈ scan.db.todoKeys := by
  have hrun : ((fun scan : TodoScan => (scan.imported.todoIDs, scan.db.todoKeys)) <$>
      mergeTodos plainRuntime ⟨none, 5⟩ crowdedBoard 1 (fun _ => none)
        [backlogTodo 7, backlogTodo 4] {}) =
      .ok ([4, 5], [⟨1, 1, 1⟩, ⟨2, 1, 2⟩, ⟨3, 1, 3⟩, ⟨4, 1, 7⟩, ⟨5, 1, 8⟩]) := by
    decide +kernel
  obtain ⟨scan, hok, heq⟩ := map_eq_ok.mp hrun
  obtain ⟨hids, hkeys⟩ := Prod.mk.inj heq
  refine ⟨scan, hok, by simp [hkeys], ?_⟩
  intro hall
  rw [hids, hkeys] at hall
  exact absurd (hall (backlogTodo 4) 5 (by simp) (by decide +kernel)) (by decide)

end Scrumboy
