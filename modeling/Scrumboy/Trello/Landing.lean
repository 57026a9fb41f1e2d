import Scrumboy.Trello.Shape
import Scrumboy.Trello.Import
import Scrumboy.Backup.Settling

/-!
# Where the cards of a Trello board land

The key of a column is written as the status of a story and read again at the import. The
legacy literal `IN_PROGRESS` is read as the lane `doing`, so that exactly the cards of a list
whose key is `in_progress` end outside of the workflow of their board.
-/

set_option linter.dupNamespace false

namespace Scrumboy

open Go Sql

section

variable {rt : Runtime} {ctx : Ctx} {projectID : ℤ} {db db' : DB}

/-- A story of a backup and the row that it becomes. -/
structure Landed (projectID : ℤ) (db : DB) (t : TodoExport) (u : TodoRow) : Prop where
  project : u.projectID = projectID
  title : u.title = t.title
  lane : u.columnKey = (resolveImportColumnKey db projectID t.status).1

theorem resolveImportColumnKey_congr (h : db'.columns = db.columns) (status : String) :
    resolveImportColumnKey db' projectID status = resolveImportColumnKey db projectID status := by
  have hkeys : ∀ key, (validateProjectColumnKey db' projectID key).isOk =
      (validateProjectColumnKey db projectID key).isOk := by
    intro key
    rw [Bool.eq_iff_iff, validateProjectColumnKey_isOk_iff, validateProjectColumnKey_isOk_iff,
      columnKeys_congr h]
  simp only [resolveImportColumnKey, hkeys]

/-- The rows that a loop over stories adds. -/
theorem foldlM_landed {σ : Type} {step : σ → TodoExport → Result σ} {f : σ → DB}
    (hstep : ∀ s t s', step s t = .ok s' → ∃ u, (f s').todos = (f s).todos ++ [u] ∧
      (f s').columns = (f s).columns ∧ Landed projectID (f s) t u)
    {todos : List TodoExport} {s s' : σ} (h : todos.foldlM step s = .ok s') :
    ∃ rows, (f s').todos = (f s).todos ++ rows ∧ (f s').columns = (f s).columns ∧
      List.Forall₂ (Landed projectID (f s)) todos rows := by
  induction todos generalizing s with
  | nil =>
      rw [List.foldlM_nil, pure_eq_ok] at h
      subst h
      exact ⟨[], (List.append_nil _).symm, rfl, .nil⟩
  | cons t todos ih =>
      rw [List.foldlM_cons, bind_eq_ok] at h
      obtain ⟨s₁, hs₁, h⟩ := h
      obtain ⟨u, htodos, hcolumns, hlanded⟩ := hstep s t s₁ hs₁
      obtain ⟨rows, hrows, hcolumns', hall⟩ := ih h
      refine ⟨u :: rows, ?_, hcolumns'.trans hcolumns, .cons hlanded (hall.imp ?_)⟩
      · rw [hrows, htodos, List.append_assoc]
        rfl
      · intro t' u' hl
        exact ⟨hl.project, hl.title, by rw [hl.lane, resolveImportColumnKey_congr hcolumns]⟩

theorem copyTodo_landed {sprintID : ℤ → Option ℤ} {s s' : TodoScan} {t : TodoExport}
    (h : copyTodo rt ctx projectID sprintID s t = .ok s') :
    ∃ u, s'.db.todos = s.db.todos ++ [u] ∧ s'.db.columns = s.db.columns ∧ Landed projectID s.db t u := by
  obtain ⟨u, hnew, _⟩ := copyTodo_landsNew h
  refine ⟨u, hnew.tables.contentOnly.todos, hnew.tables.contentOnly.columns, ?_⟩
  obtain ⟨_, hrow⟩ := hnew.row
  constructor <;> rw [hrow] <;> rfl

theorem importTrelloTodo_landed {t : TodoExport} (h : importTrelloTodo rt ctx projectID db t = .ok db') :
    ∃ u, db'.todos = db.todos ++ [u] ∧ db'.columns = db.columns ∧ Landed projectID db t u := by
  simp only [importTrelloTodo, bind_eq_ok, reject_eq_ok] at h
  obtain ⟨_, _, _, _, ⟨db₁, u⟩, hinsert, htags⟩ := h
  obtain ⟨_, hrow, rfl⟩ := insertTodo_eq_ok hinsert
  have hcontent := (importTodoTags_tagsOnly htags).contentOnly
  refine ⟨u, hcontent.todos, hcontent.columns, ?_⟩
  constructor <;> rw [hrow] <;> rfl

/-! ## Imports of one project -/

/-- The columns of the backup are there, and its stories are the new rows. -/
def LandsBoard (p : ProjectExport) (db db' : DB) : Prop :=
  ∃ projectID db₁ rows, db₁.todos = db.todos ∧ db'.todos = db.todos ++ rows ∧ db'.columns = db₁.columns ∧
    (∀ c ∈ p.workflowColumns, c.key ∈ db₁.columnKeys projectID) ∧
    List.Forall₂ (Landed projectID db₁) p.todos rows

variable {p : ProjectExport} (hkeys : ∀ c ∈ p.workflowColumns, IsColumnKey c.key)
  (hlen : 2 ≤ p.workflowColumns.length)

include hkeys

theorem mem_backupKeys_of_valid {c : WorkflowColumnExport} (hc : c ∈ p.workflowColumns) :
    c.key ∈ backupKeys p := by
  refine List.mem_map.mpr ⟨c, hc, ?_⟩
  rw [(hkeys c hc).1, (hkeys c hc).toLower_eq]

theorem trimmed_valid : ∀ c ∈ p.workflowColumns, IsColumnKey (trimSpace c.key) := by
  intro c hc
  rw [(hkeys c hc).1]
  exact hkeys c hc

include hlen

theorem importCreateCopy_landsBoard {draws : ℕ → ProjectDraws} {data : ExportData} {mode : Mode}
    {r : ImportResult} (hdata : data.projects = [p])
    (h : importCreateCopy rt ctx draws db data mode = .ok (db', r)) : LandsBoard p db db' := by
  rw [importCreateCopy, hdata] at h
  simp only [List.zipIdx_singleton, List.foldlM_cons, List.foldlM_nil, bind_eq_ok, pure_eq_ok,
    Prod.mk.injEq] at h
  obtain ⟨tx, ⟨_, hcopy, rfl⟩, rfl, _⟩ := h
  obtain ⟨face, db₁, sprintID, r₁, scan, hsets, _, _, htodos, hcontent⟩ :=
    copyProject_stages (trimmed_valid hkeys) hcopy
  obtain ⟨rows, hrows, hcolumns, hall⟩ :=
    foldlM_landed (f := TodoScan.db) (fun _ _ _ hstep => copyTodo_landed hstep) htodos
  refine ⟨face.id, db₁, rows, hsets.tables.todos, ?_, hcontent.columns.trans hcolumns, fun c hc => ?_, hall⟩
  · rw [hcontent.todos, hrows, hsets.tables.todos]
  · refine hsets.keys c.key ?_
    rw [importKeys, if_pos hlen]
    exact mem_backupKeys_of_valid hkeys hc

omit hkeys hlen in
theorem insertTrelloProjectRow_tables {draws : List String} {mode : Mode} {out : DB × ℤ}
    (h : insertTrelloProjectRow ctx draws db p mode = .ok out) :
    out.1.todos = db.todos ∧ out.1.columns = db.columns := by
  have howner : ∀ (db : DB) (owner : Option ℤ), (insertOwner db out.2 ctx.nowMs owner).todos = db.todos ∧
      (insertOwner db out.2 ctx.nowMs owner).columns = db.columns := by
    intro db owner
    obtain ⟨_, heq⟩ := insertOwner_eq db out.2 ctx.nowMs owner
    rw [heq]
    exact ⟨rfl, rfl⟩
  simp only [insertTrelloProjectRow, bind_eq_ok] at h
  obtain ⟨_, _, h⟩ := h
  split at h
  · unfold insertTrelloTemporaryProjectRow at h
    split at h
    · cases h
    · rw [pure_eq_ok] at h
      subst h
      exact ⟨rfl, rfl⟩
  · simp only [insertTrelloDurableProjectRow, bind_eq_ok] at h
    obtain ⟨owner, _, h⟩ := h
    split at h
    · cases h
    · rw [pure_eq_ok] at h
      subst h
      exact howner _ owner

theorem importTrelloProject_landsBoard {draws : List String} {data : ExportData} {ids : List ℤ} {mode : Mode}
    {id : ℤ} (hdata : data.projects = [p])
    (h : importTrelloProject rt ctx draws db data ids mode = .ok (db', id)) : LandsBoard p db db' := by
  unfold importTrelloProject at h
  rw [hdata] at h
  simp only [bind_eq_ok, if_pos hlen, reject_eq_ok, pure_eq_ok, Prod.mk.injEq] at h
  obtain ⟨_, _, _, _, ⟨db₀, projectID⟩, hproject, db₁, hworkflow, db₂, htodos, _, _, db₃, htags, rfl, rfl⟩ := h
  obtain ⟨htodos₀, _⟩ := insertTrelloProjectRow_tables hproject
  have htodos₁ : db₁.todos = db₀.todos := (insertWorkflowColumns_columnsOnly hworkflow).settingsOnly.todos
  have htiers := ensureDefaultPriorityTiers_prioritiesOnly db₁ projectID
  obtain ⟨rows, hrows, hcolumns, hall⟩ :=
    foldlM_landed (f := fun db : DB => db) (fun _ _ _ hstep => importTrelloTodo_landed hstep) htodos
  have hcontent := (importTags_tagsOnly htags).contentOnly
  have hbefore : (ensureDefaultPriorityTiers db₁ projectID).todos = db.todos := by
    rw [htiers.settingsOnly.todos, htodos₁, htodos₀]
  refine ⟨projectID, ensureDefaultPriorityTiers db₁ projectID, rows, hbefore, ?_, ?_, fun c hc => ?_, hall⟩
  · rw [hcontent.todos, hrows, hbefore]
  · exact hcontent.columns.trans hcolumns
  · rw [columnKeys_congr htiers.columns, insertWorkflowColumns_columnKeys hworkflow, if_pos rfl]
    refine List.mem_append_right _ (mem_storedKeys (trimmed_valid hkeys) ?_)
    exact mem_backupKeys_of_valid hkeys hc

end

/-! ## The board -/

theorem forall₂_comp {α β γ : Type*} {R : α → β → Prop} {S : β → γ → Prop} {l : List α} {m : List β}
    {n : List γ} (h : List.Forall₂ R l m) (h' : List.Forall₂ S m n) :
    List.Forall₂ (fun a c => ∃ b, R a b ∧ S b c) l n := by
  induction h generalizing n with
  | nil =>
      cases h'
      exact .nil
  | cons hab _ ih =>
      cases h' with
      | cons hbc h' => exact .cons ⟨_, hab, hbc⟩ (ih h')

/-- A relation that only depends on the left side, for elements that belong together. -/
theorem forall₂_iff_forall_mem {α β : Type*} {R S : α → β → Prop} {P : α → Prop} {l : List α} {m : List β}
    (h : List.Forall₂ R l m) (hiff : ∀ a b, R a b → (S a b ↔ P a)) : List.Forall₂ S l m ↔ ∀ a ∈ l, P a := by
  induction h with
  | nil => simp
  | cons hab _ ih => rw [List.forall₂_cons, hiff _ _ hab, ih, List.forall_mem_cons]

/-- Every card is in the column that was made for its list, and this column is one of its
project. -/
def CardsLand (b : TrelloBoard) (p : ProjectExport) (db db' : DB) : Prop :=
  List.Forall₂ (fun card u => ∃ list col, b.sourceList card = some list ∧ b.cardColumn p card = some col ∧
    u.title = cardTitle card list ∧ u.columnKey = col.key ∧ u.columnKey ∈ db'.columnKeys u.projectID)
    b.cardsInOrder (db'.todos.drop db.todos.length)

section

variable {b : TrelloBoard} {keys : List String}

/-- The key `in_progress` belongs to the first list whose name leads to it. -/
theorem BoardKeyed.columnKey_eq_in_progress_iff (h : BoardKeyed b keys) {l : TrelloList}
    (hl : l.id ∈ b.workflowLists.map (·.id)) :
    b.columnKey l = "in_progress" ↔ b.inProgressList.map (·.id) = some l.id := by
  obtain ⟨i, m, hm, hid, hkey⟩ := h.columnKey_spec hl
  have hused : "in_progress" ∉ (if b.openLists.length = 1 then ["done"] else []) := by
    split <;> decide
  have hiff := assignKeys_getElem?_eq_iff h.assign isValidWorkflowKey_in_progress
    not_endsInDigit_in_progress (by decide) hused
  have hfind : b.inProgressList.map (·.id) = some l.id ↔
      ∃ j, b.workflowLists.findIdx? (Claims "in_progress") = some j ∧
        (b.workflowLists[j]?).map (·.id) = some l.id := by
    rw [TrelloBoard.inProgressList, List.find?_eq_bind_findIdx?_getElem?]
    cases b.workflowLists.findIdx? (Claims "in_progress") with
    | none => simp
    | some j => simp
  rw [hfind]
  constructor
  · intro heq
    rw [heq] at hkey
    exact ⟨i, (hiff i).mp hkey, by rw [hm]; exact congrArg some hid⟩
  · rintro ⟨j, hj, hjid⟩
    obtain ⟨m', hm', hid'⟩ := Option.map_eq_some_iff.mp hjid
    exact h.eq_of_id_eq hm hm' (hid.trans hid'.symm) hkey ((hiff j).mpr hj)

theorem Accepted.two_columns (h : Accepted b) (hkeyed : BoardKeyed b keys) : 2 ≤ b.workflow.columns.length := by
  have hlen : b.workflow.columns.length = b.workflowLists.length := by
    rw [← hkeyed.length_eq, ← hkeyed.columns_keys, List.length_map]
  have hpos : b.openLists.length ≠ 0 := fun hzero => h.openLists_ne_nil (List.length_eq_zero_iff.mp hzero)
  rw [hlen, TrelloBoard.workflowLists, workflowListsOf]
  split
  · rw [List.length_append, List.length_singleton]
    omega
  · omega

/-- Where a status that was written for a column leads. -/
theorem resolveImportColumnKey_written {db : DB} {projectID : ℤ} {key : String} (hkey : IsColumnKey key)
    (hmem : key ∈ db.columnKeys projectID) :
    (resolveImportColumnKey db projectID (toUpper key)).1 = key ↔ key ≠ "in_progress" := by
  constructor
  · rintro heq rfl
    have hparse : parseStatus (toUpper "in_progress") = some .inProgress := by decide +kernel
    rw [resolveImportColumnKey_of_parse hparse] at heq
    exact absurd heq (by decide)
  · exact fun hne => resolveImportColumnKey_exportStatus hkey hmem hne

/-- After an import, the cards are in their columns exactly when none of them goes to a column
with the key `in_progress`. -/
theorem Accepted.cardsLand_iff (h : Accepted b) {nowMs : ℤ} {db db' : DB}
    (hlands : LandsBoard (b.projectExport nowMs) db db') :
    CardsLand b (b.projectExport nowMs) db db' ↔ b.NoCardInProgress := by
  obtain ⟨keys, hkeyed⟩ := exists_boardKeyed h.workflow_errors
  obtain ⟨projectID, db₁, rows, _, hrows, hcolumns, hcreated, hall⟩ := hlands
  have hrows : db'.todos.drop db.todos.length = rows := by
    rw [hrows, List.drop_left]
  -- the rows in the order of the cards
  have hcards : List.Forall₂ (fun card u => card ∈ b.cards ∧ u.projectID = projectID ∧
      u.title = (b.converted card).title ∧
      u.columnKey = (resolveImportColumnKey db₁ projectID (toUpper (b.converted card).targetColumnKey)).1)
      b.cardsInOrder rows := by
    have htodos := @exportCards_forall₂ nowMs (fun _ => 0) 1 b.convertedCards
    rw [h.convertedCards_eq, List.forall₂_map_left_iff] at htodos
    rw [TrelloBoard.projectExport, h.convertedCards_eq] at hall
    refine (List.forall₂_and_left _ _).mpr ⟨fun card hcard => mem_cardsInOrder.mp hcard, ?_⟩
    refine (forall₂_comp htodos hall).imp ?_
    rintro card u ⟨t, ⟨htitle, hstatus⟩, hlanded⟩
    exact ⟨hlanded.project, hlanded.title.trans htitle, hstatus ▸ hlanded.lane⟩
  rw [CardsLand, hrows, forall₂_iff_forall_mem hcards (P := fun card =>
    ∀ list ∈ b.sourceList card, ∀ target ∈ b.targetList list,
      b.inProgressList.map (·.id) ≠ some target.id)]
  · exact forall_congr' fun card => by rw [mem_cardsInOrder]
  · rintro card u ⟨hcard, hproject, htitle, hlane⟩
    obtain ⟨list, target, col, hlist, htarget, hcol, hmem, hid, hcolkey, hkey, htitle'⟩ :=
      h.card_spec hkeyed (p := b.projectExport nowMs) rfl hcard
    have hwritten := resolveImportColumnKey_written (hkeyed.columns_valid col hmem) (hcreated col hmem)
    rw [hkey] at hlane
    have hcond : (∀ list ∈ b.sourceList card, ∀ target ∈ b.targetList list,
        b.inProgressList.map (·.id) ≠ some target.id) ↔ col.key ≠ "in_progress" := by
      rw [hcolkey, ne_eq, hkeyed.columnKey_eq_in_progress_iff hid, hlist]
      simp only [Option.mem_def, Option.some.injEq, forall_eq', htarget, ne_eq]
    rw [hcond, ← hwritten]
    constructor
    · rintro ⟨list', col', _, hcol', _, hkey', _⟩
      rw [hcol, Option.some.injEq] at hcol'
      rw [← hlane, hkey', hcol']
    · intro heq
      have heq := hlane.trans heq
      refine ⟨list, col, hlist, hcol, htitle.trans htitle', heq, ?_⟩
      rw [heq, hproject, columnKeys_congr hcolumns]
      exact hcreated col hmem

/-- A Trello board keeps its shape in the backup exactly when the key of done stories is free, and
its cards land in the columns of their lists exactly when none of them goes to a column with
the key `in_progress`, whether the backup is imported as a Trello board or, with a slug of any
kind, as a copy. -/
theorem trello_board_kept_iff (b : TrelloBoard) (nowMs : ℤ) (data : ExportData)
    (haccepted : (transformBoard b nowMs).exportData = some data) :
    ∃ p, data.projects = [p] ∧ (KeepsShape b p ↔ b.DoneKeyFree) ∧
      ∀ rt ctx mode db db',
        ((∃ draws id, importTrelloProject rt ctx draws db data (transformBoard b nowMs).metadataLocalIDs mode =
            .ok (db', id)) ∨
          ∃ draws slug r, importCreateCopy rt ctx draws db { data with projects := [{ p with slug }] } mode =
            .ok (db', r)) →
        (CardsLand b p db db' ↔ b.NoCardInProgress) := by
  obtain ⟨h, rfl⟩ := transformBoard_accepted haccepted
  obtain ⟨keys, hkeyed⟩ := exists_boardKeyed h.workflow_errors
  refine ⟨b.projectExport nowMs, rfl, h.keepsShape_iff nowMs, fun rt ctx mode db db' himport => ?_⟩
  apply h.cardsLand_iff
  rcases himport with ⟨draws, id, himport⟩ | ⟨draws, slug, r, himport⟩
  · exact importTrelloProject_landsBoard hkeyed.columns_valid (h.two_columns hkeyed) rfl himport
  · exact importCreateCopy_landsBoard (p := { b.projectExport nowMs with slug }) hkeyed.columns_valid
      (h.two_columns hkeyed) rfl himport

end

/-- Three open lists and a closed one. -/
def plannedBoard : TrelloBoard where
  name := "Plans"
  lists := [{ id := "5f0c1", name := "To do", pos := 1 }, { id := "5f0c2", name := "Doing", pos := 2 },
    { id := "5f0c3", name := "Finished!", pos := 3 },
    { id := "5f0c0", name := "Ideas", pos := 1/2, closed := true }]
  cards := [{ id := "6a01", name := "Write", idList := "5f0c2", pos := 2 },
    { id := "6a02", name := "Read", idList := "5f0c2", pos := 1 },
    { id := "6a03", name := "Dream", idList := "5f0c0", pos := 1 }]

/-- The backup of a board that is accepted. -/
def TrelloBoard.backup (b : TrelloBoard) (nowMs : ℤ) : ExportData :=
  { scope := "project", projects := [b.projectExport nowMs] }

theorem exportData_eq_backup {b : TrelloBoard} {nowMs : ℤ}
    (h : (transformBoard b nowMs).exportData.isSome = true) :
    (transformBoard b nowMs).exportData = some (b.backup nowMs) := by
  obtain ⟨data, hdata⟩ := Option.isSome_iff_exists.mp h
  obtain ⟨-, rfl⟩ := transformBoard_accepted hdata
  exact hdata

theorem trello_board_kept_planned :
    (transformBoard plannedBoard 5).exportData = some (plannedBoard.backup 5) ∧
      KeepsShape plannedBoard (plannedBoard.projectExport 5) ∧
      ∃ out, importTrelloProject plainRuntime ⟨none, 5⟩ [] {} (plannedBoard.backup 5) [1, 2, 3] .full =
          .ok out ∧
        CardsLand plannedBoard (plannedBoard.projectExport 5) {} out.1 := by
  have hdata : (transformBoard plannedBoard 5).exportData = some (plannedBoard.backup 5) :=
    exportData_eq_backup (by decide +kernel)
  obtain ⟨p, hp, hshape, hland⟩ := trello_board_kept_iff plannedBoard 5 _ hdata
  cases hp
  have hfree : plannedBoard.DoneKeyFree := by
    have hids : ∀ l ∈ plannedBoard.openLists, l.id ≠ syntheticDoneListID := by decide +kernel
    have hmany : plannedBoard.openLists.length ≠ 1 := by decide +kernel
    rw [TrelloBoard.DoneKeyFree, if_neg hmany]
    intro pre l post heq hid
    exact absurd hid (hids l (heq ▸ List.mem_append_right pre List.mem_cons_self))
  have hnone : plannedBoard.NoCardInProgress := by
    have hnone : plannedBoard.inProgressList = none := by decide +kernel
    intro card _ list _ target _
    rw [hnone]
    simp
  have hids : (transformBoard plannedBoard 5).metadataLocalIDs = [1, 2, 3] := by decide +kernel
  obtain ⟨out, himport⟩ := exists_of_isOk (x := importTrelloProject plainRuntime ⟨none, 5⟩ [] {}
    (plannedBoard.backup 5) [1, 2, 3] .full) (by decide +kernel)
  refine ⟨hdata, hshape.mpr hfree, out, himport, (hland plainRuntime ⟨none, 5⟩ .full {} out.1 ?_).mpr hnone⟩
  exact .inl ⟨[], out.2, hids.symm ▸ himport⟩

/-- A board with a card in progress. -/
def busyBoard : TrelloBoard where
  name := "Busy"
  lists := [{ id := "5f0d1", name := "In Progress", pos := 1 }, { id := "5f0d2", name := "Done", pos := 2 }]
  cards := [{ id := "6b01", name := "Write", idList := "5f0d1", pos := 1 }]

/-- The card lands in the lane `doing`, which the board does not have. -/
theorem in_progress_card_leaves_board :
    ¬ ∀ (b : TrelloBoard) (nowMs : ℤ) (data : ExportData), (transformBoard b nowMs).exportData = some data →
      ∃ p, data.projects = [p] ∧ KeepsShape b p ∧ ∀ rt ctx mode db db',
        ((∃ draws id, importTrelloProject rt ctx draws db data (transformBoard b nowMs).metadataLocalIDs mode =
            .ok (db', id)) ∨
          ∃ draws slug r, importCreateCopy rt ctx draws db { data with projects := [{ p with slug }] } mode =
            .ok (db', r)) →
        CardsLand b p db db' := by
  intro h
  have hdata : (transformBoard busyBoard 5).exportData = some (busyBoard.backup 5) :=
    exportData_eq_backup (by decide +kernel)
  obtain ⟨p, hp, _, hland⟩ := h busyBoard 5 _ hdata
  cases hp
  obtain ⟨out, himport⟩ := exists_of_isOk (x := importTrelloProject plainRuntime ⟨none, 5⟩ [] {}
    (busyBoard.backup 5) (transformBoard busyBoard 5).metadataLocalIDs .full) (by decide +kernel)
  have hland := hland plainRuntime ⟨none, 5⟩ .full {} out.1 (.inl ⟨[], out.2, himport⟩)
  have haccepted := (transformBoard_accepted hdata).1
  obtain ⟨keys, hkeyed⟩ := exists_boardKeyed haccepted.workflow_errors
  have hlands := importTrelloProject_landsBoard (p := busyBoard.projectExport 5) hkeyed.columns_valid
    (haccepted.two_columns hkeyed) rfl himport
  have hno := (haccepted.cardsLand_iff hlands).mp hland
  unfold TrelloBoard.NoCardInProgress at hno
  exact absurd hno (by decide +kernel)

end Scrumboy
