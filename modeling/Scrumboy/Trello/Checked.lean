import Scrumboy.Trello.Landing
import Scrumboy.Trello.Labels
import Scrumboy.Backup.Columns
import Mathlib.Data.List.GetD

/-!
# The checks of the backup of a Trello board

The backup of a board that is accepted passes the checks of an import, unless an open list has no
name, the key of done stories is taken or the board is too large for a server without accounts.
-/

set_option linter.dupNamespace false

namespace Scrumboy

open Go Sql

/-! ## The stories of the backup -/

/-- What the stories of a converted board have in common. -/
structure Converted (nowMs : ℤ) (t : TodoExport) : Prop where
  localID : 0 < t.localID
  title : t.title ≠ ""
  points : t.estimationPoints = none
  dueAt : t.dueAt = none
  archivedAt : ∀ ms ∈ t.archivedAt, ms = nowMs
  priorityKey : t.priorityKey = none
  sprintNumber : t.sprintNumber = none
  customFields : t.customFields = []

theorem exists_of_forall₂_mem {α β : Type*} {R : α → β → Prop} {l : List α} {m : List β} (h : List.Forall₂ R l m)
    {b : β} (hb : b ∈ m) : ∃ a ∈ l, R a b := by
  induction h with
  | nil => cases hb
  | cons hab _ ih =>
      rcases List.mem_cons.mp hb with rfl | hb
      · exact ⟨_, List.mem_cons_self, hab⟩
      · obtain ⟨a, ha, hr⟩ := ih hb
        exact ⟨a, List.mem_cons_of_mem _ ha, hr⟩

section

variable {b : TrelloBoard} {nowMs : ℤ}

theorem cardTitle_ne_empty (card : TrelloCard) (list : TrelloList) : cardTitle card list ≠ "" := by
  have hlen : ∀ s : String, "[Closed List] " ++ s ≠ "" := by
    intro s h
    have hlen := congrArg String.length h
    have hprefix : "[Closed List] ".length = 14 := by decide
    rw [String.length_append, hprefix, String.length_empty] at hlen
    omega
  unfold cardTitle
  dsimp only
  split
  · exact hlen _
  · split
    · decide
    · assumption

theorem exportCards_converted {ranks : String → ℤ} {n : ℤ} {cards : List ConvertedCard} (hn : 0 < n)
    (htitle : ∀ c ∈ cards, c.title ≠ "") : ∀ t ∈ exportCards nowMs ranks n cards, Converted nowMs t := by
  induction cards generalizing ranks n with
  | nil => simp [exportCards]
  | cons c cards ih =>
      obtain ⟨hc, hcards⟩ := List.forall_mem_cons.mp htitle
      rw [exportCards, List.forall_mem_cons]
      refine ⟨⟨hn, hc, rfl, rfl, ?_, rfl, rfl, rfl⟩, ih (by omega) hcards⟩
      intro ms hms
      dsimp only at hms
      split at hms
      · exact (Option.some.inj hms).symm
      · cases hms

theorem exportCards_tags {ranks : String → ℤ} {n : ℤ} {cards : List ConvertedCard} :
    (exportCards nowMs ranks n cards).map (·.tags) = cards.map (·.tagNames) := by
  induction cards generalizing ranks n with
  | nil => rfl
  | cons c cards ih =>
      rw [exportCards, List.map_cons, ih]
      rfl

theorem Accepted.todos_converted (h : Accepted b) : ∀ t ∈ (b.projectExport nowMs).todos, Converted nowMs t := by
  refine exportCards_converted (by omega) fun c hc => ?_
  rw [h.convertedCards_eq] at hc
  obtain ⟨card, _, rfl⟩ := List.mem_map.mp hc
  exact cardTitle_ne_empty _ _

theorem Accepted.todos_tags (h : Accepted b) (nowMs : ℤ) :
    (b.projectExport nowMs).todos.map (·.tags) = b.cardsInOrder.map b.cardTagNames := by
  rw [TrelloBoard.projectExport, exportCards_tags, h.convertedCards_eq, List.map_map]
  rfl

theorem todos_localIDs (b : TrelloBoard) (nowMs : ℤ) : ((b.projectExport nowMs).todos.map (·.localID)).Nodup := by
  rw [TrelloBoard.projectExport, exportCards_localIDs]
  exact List.nodup_range.map fun i j hij => by simpa using hij

theorem Accepted.length_todos (h : Accepted b) : (b.projectExport nowMs).todos.length = b.cards.length := by
  have hlen := congrArg List.length (h.todos_tags nowMs)
  rwa [List.length_map, List.length_map, TrelloBoard.cardsInOrder, length_orderBy] at hlen

/-- Every story names a column of the backup. -/
theorem Accepted.todos_status (h : Accepted b) : ∀ t ∈ (b.projectExport nowMs).todos,
    ∃ col ∈ b.workflow.columns, t.status = toUpper col.key := by
  obtain ⟨keys, hkeyed⟩ := exists_boardKeyed h.workflow_errors
  have htodos := @exportCards_forall₂ nowMs (fun _ => 0) 1 b.convertedCards
  rw [h.convertedCards_eq, List.forall₂_map_left_iff] at htodos
  intro t ht
  rw [TrelloBoard.projectExport, h.convertedCards_eq] at ht
  obtain ⟨card, hcard, _, hstatus⟩ := exists_of_forall₂_mem htodos ht
  obtain ⟨_, _, col, _, _, _, hmem, _, _, hkey, _⟩ :=
    h.card_spec hkeyed (p := b.projectExport nowMs) rfl (mem_cardsInOrder.mp hcard)
  exact ⟨col, hmem, hkey ▸ hstatus⟩

/-! ## The checks of the backup -/

/-- The clock of the import is not behind that of the conversion. -/
theorem Accepted.validateBackupData (h : Accepted b) {ctx : Ctx} (hclock : 0 ≤ nowMs ∧ nowMs ≤ ctx.nowMs) :
    validateBackupData ctx (b.backup nowMs) = .ok () := by
  have hloop : ∀ (todos : List TodoExport) (seen : List ℤ), (∀ t ∈ todos, Converted nowMs t) →
      (todos.map (·.localID)).Nodup → (∀ t ∈ todos, t.localID ∉ seen) →
      ∃ seen', todos.foldlM (validateBackupTodo ctx "1.2" (trimSpace b.name)) seen = .ok seen' := by
    intro todos
    induction todos with
    | nil => exact fun seen _ _ _ => ⟨seen, rfl⟩
    | cons t todos ih =>
        intro seen hall hnodup hnew
        obtain ⟨ht, hall⟩ := List.forall_mem_cons.mp hall
        obtain ⟨hfresh, hnew⟩ := List.forall_mem_cons.mp hnew
        rw [List.map_cons, List.nodup_cons] at hnodup
        obtain ⟨seen', hrest⟩ := ih (t.localID :: seen) hall hnodup.2 fun u hu hmem => by
          rcases List.mem_cons.mp hmem with heq | hmem
          · exact hnodup.1 (heq ▸ List.mem_map_of_mem hu)
          · exact hnew u hu hmem
        have hstep : validateBackupTodo ctx "1.2" (trimSpace b.name) seen t = .ok (t.localID :: seen) := by
          have hpast : ¬ ∃ ms ∈ t.archivedAt, ms < 0 := by
            rintro ⟨ms, hms, hneg⟩
            rw [ht.archivedAt ms hms] at hneg
            omega
          have hfuture : ¬ ∃ ms ∈ t.archivedAt, ctx.nowMs + importArchivedAtFutureSlackMs < ms := by
            rintro ⟨ms, hms, hlt⟩
            rw [ht.archivedAt ms hms, importArchivedAtFutureSlackMs] at hlt
            omega
          rw [validateBackupTodo, reject_bind_of_not fun hdup => hfresh hdup.2,
            reject_bind_of_not fun hversion => absurd hversion.1 (by decide),
            reject_bind_of_not (by simp [ht.dueAt]), reject_bind_of_not hpast, reject_bind_of_not hfuture,
            if_neg (by have := ht.localID; omega)]
          rfl
        exact ⟨seen', by rw [List.foldlM_cons, hstep]; exact hrest⟩
  obtain ⟨seen, hseen⟩ := hloop (b.projectExport nowMs).todos [] h.todos_converted (todos_localIDs b nowMs) (by simp)
  have hproject : validateBackupProject ctx "1.2" (b.projectExport nowMs) = .ok () := by
    rw [validateBackupProject]
    exact congrArg (· >>= fun _ => pure ()) hseen
  have hversion : (b.backup nowMs).version = "1.2" := rfl
  rw [Scrumboy.validateBackupData, hversion, reject_bind_of_not (by decide), reject_bind_of_not (by decide)]
  exact forM_eq_ok.mpr fun p hp => by rw [List.mem_singleton.mp hp]; exact hproject

theorem Accepted.storedForm (h : Accepted b) : StoredForm b.workflow.columns := by
  obtain ⟨keys, hkeyed⟩ := exists_boardKeyed h.workflow_errors
  refine ⟨h.two_columns hkeyed, hkeyed.columns_valid, fun c hc => ?_⟩
  have hcolors : ∀ color ∈ "#ef4444" :: trelloWorkflowColors, trimSpace color ≠ "" ∧
      colorHexRe (trimSpace color) = true := by decide +kernel
  apply hcolors
  rw [hkeyed.columns] at hc
  obtain ⟨li, _, rfl⟩ := List.mem_map.mp hc
  show workflowColumnColor _ _ ∈ _
  unfold workflowColumnColor
  split
  · exact List.mem_cons_self
  · have hlt : li.2 % trelloWorkflowColors.length < trelloWorkflowColors.length := Nat.mod_lt _ (by decide)
    rw [List.getD_eq_getElem _ _ hlt]
    exact List.mem_cons_of_mem _ (List.getElem_mem hlt)

/-- The columns of the backup are complete exactly when the open lists have names and the key of
done stories is free. -/
theorem Accepted.complete_iff (h : Accepted b) :
    Complete b.workflow.columns ↔ (∀ l ∈ b.openLists, trimSpace l.name ≠ "") ∧ b.DoneKeyFree := by
  obtain ⟨keys, hkeyed⟩ := exists_boardKeyed h.workflow_errors
  have hnames : (∀ c ∈ b.workflow.columns, trimSpace c.name ≠ "") ↔ ∀ l ∈ b.openLists, trimSpace l.name ≠ "" := by
    have hcolumns : b.workflow.columns.map (·.name) = b.workflowLists.map fun l => trimSpace l.name := by
      rw [hkeyed.columns, List.map_map]
      calc (b.workflowLists.zip keys).zipIdx.map (fun p => trimSpace p.1.1.name)
          = ((b.workflowLists.zip keys).zipIdx.map (·.1)).map (fun p => trimSpace p.1.name) := by
            rw [List.map_map]; rfl
        _ = ((b.workflowLists.zip keys).map (·.1)).map (fun l => trimSpace l.name) := by
            rw [List.zipIdx_map_fst, List.map_map]; rfl
        _ = _ := by rw [List.map_fst_zip hkeyed.length_eq.ge]
    have hall := List.forall_mem_map (f := fun c : WorkflowColumnExport => c.name)
      (P := fun n => trimSpace n ≠ "") (l := b.workflow.columns)
    rw [← hall, hcolumns, List.forall_mem_map]
    simp only [trimSpace_trimSpace]
    unfold TrelloBoard.workflowLists workflowListsOf
    split
    · rw [List.forall_mem_append, List.forall_mem_singleton]
      exact and_iff_left (by decide +kernel)
    · rfl
  rw [← hkeyed.nodup_iff, ← hkeyed.columns_keys, ← hnames]
  constructor
  · exact fun hc => ⟨hc.names, hc.distinct⟩
  · rintro ⟨hnamed, hdistinct⟩
    refine ⟨hnamed, hdistinct, ?_⟩
    rw [hkeyed.columns_keys, hkeyed.nodup_iff] at hdistinct
    exact hkeyed.doneColumn_of_nodup h.openLists_ne_nil (BoardKeyed.ids_nodup_of_doneKeyFree hdistinct)

theorem labelBaseName_ne_empty (label : TrelloLabel) : labelBaseName label ≠ "" := by
  have hlen : ∀ s : String, "Trello " ++ s ++ " label" ≠ "" := by
    intro s h
    have hlen := congrArg String.length h
    have hprefix : "Trello ".length = 7 := by decide
    rw [String.length_append, String.length_append, hprefix, String.length_empty] at hlen
    omega
  unfold labelBaseName
  dsimp only
  split
  · assumption
  · split
    · exact hlen _
    · decide

theorem labelName_ne_empty (used : List String) (label : TrelloLabel) : labelName used label ≠ "" := by
  unfold labelName
  split
  · intro h
    have hlen := congrArg String.length h
    have hprefix : " (".length = 2 := by decide
    rw [String.length_append, String.length_append, String.length_append, hprefix, String.length_empty] at hlen
    omega
  · exact labelBaseName_ne_empty label

theorem namedLabels_ne_empty {used : List String} {labels : List TrelloLabel} :
    ∀ x ∈ namedLabels used labels, x.2 ≠ "" := by
  induction labels generalizing used with
  | nil => simp [namedLabels]
  | cons l labels ih =>
      rw [namedLabels, List.forall_mem_cons]
      exact ⟨labelName_ne_empty used l, ih⟩

theorem projectExport_tags (b : TrelloBoard) (nowMs : ℤ) : (b.projectExport nowMs).tags =
    (namedLabels [] (orderBy TrelloLabel.sortKey b.boardLabels)).map fun x =>
      { name := x.2, color := trelloLabelColorHex x.1.color } := by
  rw [TrelloBoard.projectExport, buildTagExports_eq]
  rfl

theorem Accepted.preflightTodo (h : Accepted b) {tiers : List String} : ∀ t ∈ (b.projectExport nowMs).todos,
    preflightTodo (b.projectExport nowMs) (some (b.workflow.columns.map (·.key)).reverse) tiers none t = .ok () := by
  intro t ht
  have hconverted := h.todos_converted t ht
  obtain ⟨col, hcol, hstatus⟩ := h.todos_status t ht
  have hkey : IsColumnKey col.key := h.storedForm.keys col hcol
  have hlane : statusResolvesInWorkflow t.status (b.workflow.columns.map (·.key)).reverse = true := by
    have hmem : col.key ∈ (b.workflow.columns.map (·.key)).reverse :=
      List.mem_reverse.mpr (List.mem_map_of_mem hcol)
    rw [hstatus]
    unfold statusResolvesInWorkflow
    dsimp only
    rw [hkey.toLower_trimSpace_toUpper, if_neg hkey.ne_empty, if_pos hmem]
  rw [Scrumboy.preflightTodo, reject_bind_of_not (by have := hconverted.localID; omega),
    reject_bind_of_not hconverted.title, validateEstimationPoints, hconverted.points]
  simp [reject, hlane, hconverted.priorityKey, preflightTodoSprint, hconverted.sprintNumber, Except.mapError]

theorem Accepted.name_ne_empty (h : Accepted b) : trimSpace b.name ≠ "" := by
  intro hname
  have hboard := h.boardErrors_eq
  simp [TrelloBoard.boardErrors, hname] at hboard

theorem Accepted.preflightProject_iff (h : Accepted b) (nowMs : ℤ) :
    (∃ seen, preflightProject .copy [] (b.projectExport nowMs, 0) = .ok seen) ↔ Complete b.workflow.columns := by
  have hcolumns : ∀ columns, preflightColumns (b.projectExport nowMs) = .ok columns ↔
      Complete b.workflow.columns ∧ columns = some (b.workflow.columns.map (·.key)).reverse :=
    fun columns => preflightColumns_iff (p := b.projectExport nowMs) h.storedForm
  constructor
  · rintro ⟨seen, hok⟩
    simp only [preflightProject, bind_eq_ok] at hok
    obtain ⟨_, _, _, _, columns, hpreflight, _⟩ := hok
    exact ((hcolumns columns).mp hpreflight).1
  · intro hcomplete
    obtain ⟨tiers, htiers⟩ := exists_of_isOk (x := preflightTiers (b.projectExport nowMs)) rfl
    have htags : (b.projectExport nowMs).tags.forM (preflightTag (b.projectExport nowMs)) = .ok () := by
      refine forM_eq_ok.mpr fun te hte => ?_
      rw [projectExport_tags] at hte
      obtain ⟨x, hx, rfl⟩ := List.mem_map.mp hte
      rw [preflightTag, reject, if_neg (namedLabels_ne_empty x hx)]
    refine ⟨[], ?_⟩
    rw [preflightProject, reject_bind_of_not (show ¬ (b.projectExport nowMs).name = "" from h.name_ne_empty)]
    have hslug : preflightSlug .copy [] (b.projectExport nowMs) = .ok [] := rfl
    have hsprints : preflightSprints (b.projectExport nowMs) = .ok none := rfl
    have htodos : (b.projectExport nowMs).todos.forM (Scrumboy.preflightTodo (b.projectExport nowMs)
        (some (b.workflow.columns.map (·.key)).reverse) tiers none) = .ok () :=
      forM_eq_ok.mpr h.preflightTodo
    have hlinks : (b.projectExport nowMs).links.forM (preflightLink (b.projectExport nowMs)) = .ok () := rfl
    rw [hslug, ok_bind, (hcolumns _).mpr ⟨hcomplete, rfl⟩, ok_bind, htiers, ok_bind, hsprints, ok_bind,
      htodos, ok_bind, hlinks, ok_bind, htags]
    rfl

theorem Accepted.preflight_iff (h : Accepted b) {rt : Runtime} {ctx : Ctx} {db : DB} {mode : Mode} :
    validateImportPreflight rt ctx db (b.backup nowMs) mode .copy = .ok () ↔ Complete b.workflow.columns ∧
      (mode = .anonymous → 1 ≤ rt.maxImportProjects ∧ b.cards.length ≤ rt.maxImportTodos) := by
  have hlimit : rejectImportWorkLimit rt (b.backup nowMs) = .ok () ↔
      1 ≤ rt.maxImportProjects ∧ b.cards.length ≤ rt.maxImportTodos := by
    have hcounts : importWorkCounts (b.backup nowMs) = (1, b.cards.length) := by
      rw [importWorkCounts, TrelloBoard.backup]
      simp [h.length_todos]
    simp [rejectImportWorkLimit, hcounts, Nat.one_le_iff_ne_zero]
  have horphans : preflightOrphans ctx db (b.backup nowMs) mode .copy = .ok () := by
    simp [preflightOrphans, pure, Except.pure]
  have hrights : preflightRights ctx db (b.backup nowMs) mode .copy = .ok () := by
    simp [preflightRights, pure, Except.pure]
  have hfields : validateImportCustomFieldsPreflight rt ctx db (b.backup nowMs) mode .copy = .ok () := by
    have hnone : projectExportUsesCustomFields (b.projectExport nowMs) = false := by
      simp only [projectExportUsesCustomFields, Bool.or_eq_false_iff, List.any_eq_false]
      exact ⟨rfl, fun t ht => by simp [(h.todos_converted t ht).customFields]⟩
    simp [validateImportCustomFieldsPreflight, TrelloBoard.backup, hnone, pure, Except.pure]
  have hrest : (do
      let _ ← (b.backup nowMs).projects.zipIdx.foldlM (preflightProject .copy) []
      preflightOrphans ctx db (b.backup nowMs) mode .copy
      preflightRights ctx db (b.backup nowMs) mode .copy
      validateImportCustomFieldsPreflight rt ctx db (b.backup nowMs) mode .copy) = .ok () ↔
        Complete b.workflow.columns := by
    rw [horphans, hrights, hfields, ← h.preflightProject_iff nowMs, bind_eq_ok]
    simp only [ok_bind, and_true]
    refine exists_congr fun seen => ?_
    rw [TrelloBoard.backup, List.zipIdx_singleton, List.foldlM_cons]
    simp only [List.foldlM_nil, bind_pure]
  rw [validateImportPreflight, if_neg (by simp [TrelloBoard.backup])]
  cases mode with
  | full => simpa using hrest
  | anonymous =>
      rw [if_pos rfl]
      constructor
      · intro hok
        obtain ⟨_, hwork, hok⟩ := bind_eq_ok.mp hok
        exact ⟨hrest.mp hok, fun _ => hlimit.mp hwork⟩
      · rintro ⟨hcomplete, hwork⟩
        exact bind_eq_ok.mpr ⟨(), hlimit.mpr (hwork rfl), hrest.mpr hcomplete⟩

end

end Scrumboy
