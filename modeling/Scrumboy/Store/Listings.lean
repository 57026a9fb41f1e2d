import Scrumboy.Sql.Walk
import Scrumboy.Store.Projects

/-!
# The stories of the dashboard

The open stories of a user are listed by pages, with the key of the last row as the cursor of the
next page. Stories are created, moved and edited while a client reads on, so a page and the next
one are read from different states.
-/

set_option linter.dupNamespace false

namespace Scrumboy

open Go Sql

/-! ## Cursor texts -/

/-- `strings.Split(raw, ":")` -/
def splitColons (raw : String) : List String := (raw.toList.splitOn ':').map String.ofList

/-- The text of a cursor: numbers with colons between them. -/
def cursorText : List ℤ → String
  | [] => ""
  | [n] => formatInt n
  | n :: m :: ns => formatInt n ++ ":" ++ cursorText (m :: ns)

theorem colon_not_mem_formatInt (n : ℤ) : ':' ∉ (formatInt n).toList := by
  intro hmem
  rcases isDigit_of_mem_formatInt hmem with h | h <;> revert h <;> decide

theorem splitColons_cursorText {ns : List ℤ} (hne : ns ≠ []) :
    splitColons (cursorText ns) = ns.map formatInt := by
  match ns with
  | [n] =>
      rw [cursorText, splitColons, List.splitOn_eq_singleton (colon_not_mem_formatInt n)]
      simp
  | n :: m :: ns =>
      have ih := splitColons_cursorText (List.cons_ne_nil m ns)
      have htext : (cursorText (n :: m :: ns)).toList =
          (formatInt n).toList ++ ':' :: (cursorText (m :: ns)).toList := by
        rw [cursorText]
        simp
      rw [splitColons, htext, List.splitOn_append_cons_self_of_not_mem (colon_not_mem_formatInt n),
        List.map_cons, ← splitColons, ih, String.ofList_toList]
      rfl

theorem isSpace_of_mem_cursorText {ns : List ℤ} {c : Char} (h : c ∈ (cursorText ns).toList) :
    isSpace c = false := by
  have hdigit : ∀ {n : ℤ}, c ∈ (formatInt n).toList → isSpace c = false := by
    intro n hc
    rcases isDigit_of_mem_formatInt hc with rfl | hd
    · decide
    · exact isSpace_of_isDigit hd
  match ns with
  | [] => exact absurd h (by simp [cursorText])
  | [n] => exact hdigit h
  | n :: m :: ns =>
      rw [cursorText, String.toList_append, String.toList_append, List.mem_append, List.mem_append] at h
      rcases h with (h | h) | h
      · exact hdigit h
      · rw [List.mem_singleton.mp h]
        decide
      · exact isSpace_of_mem_cursorText h

theorem trimSpace_cursorText (ns : List ℤ) : trimSpace (cursorText ns) = cursorText ns :=
  trimSpace_eq_self _ fun _ h => isSpace_of_mem_cursorText h

theorem cursorText_ne_empty {ns : List ℤ} (hne : ns ≠ []) : cursorText ns ≠ "" := by
  intro heq
  have hsplit := splitColons_cursorText hne
  rw [heq, splitColons] at hsplit
  match ns with
  | [n] =>
      have hempty : formatInt n = "" := by simpa using hsplit.symm
      have hlist := congrArg String.toList hempty
      rw [toList_formatInt] at hlist
      split at hlist <;> simp at hlist
  | n :: m :: ns => simp at hsplit

/-! ## The stories of the dashboard -/

structure DashboardTodo where
  id : ℤ
  localID : ℤ
  title : String
  projectID : ℤ
  projectName : String
  projectSlug : String
  projectImage : Option String
  projectDominantColor : String
  estimationPoints : Option ℤ
  sprintID : Option ℤ
  priorityKey : Option String
  columnKey : String
  statusName : String
  statusColor : String
  updatedAt : ℤ
  deriving DecidableEq, Repr

structure DashboardBoardRow where
  todo : DashboardTodo
  wcPos : ℤ
  rank : ℤ
  deriving DecidableEq, Repr

def upperFirst : List Char → List Char
  | [] => []
  | c :: cs => c.toUpper :: cs

def humanizeColumnKey (key : String) : String :=
  join " " ((key.toList.splitOn '_').map fun p => String.ofList (upperFirst p))

/-- One row of the query, as it is scanned. -/
def dashboardRow (t : TodoRow) (p : ProjectRow) (wc : WorkflowColumn) : DashboardBoardRow where
  todo :=
    { id := t.id
      localID := t.localID
      title := t.title
      projectID := t.projectID
      projectName := p.name
      projectSlug := p.slug
      projectImage := p.image.filter (· ≠ "")
      projectDominantColor := p.dominantColor
      estimationPoints := t.estimationPoints
      sprintID := if p.sprintsEnabled then t.sprintID else none
      priorityKey := t.priorityKey
      columnKey := t.columnKey
      statusName := if wc.name ≠ "" then wc.name else humanizeColumnKey t.columnKey
      statusColor := if wc.color ≠ "" then wc.color else "#64748b"
      updatedAt := t.updatedAt }
  wcPos := wc.position
  rank := t.rank

/-- The open stories of a user, joined with their projects and their columns. -/
def dashboardRows (db : DB) (userID : ℤ) : List DashboardBoardRow :=
  (db.todos.filter fun t => t.assigneeUserID == some userID && t.archivedAt.isNone).flatMap fun t =>
    (db.projects.filter fun p => p.id == t.projectID).flatMap fun p =>
      (db.columns.filter fun wc => wc.projectID == t.projectID && wc.key == t.columnKey && !wc.isDone).map
        (dashboardRow t p)

/-- `NormalizeDashboardTodoSort`, which is `true` for the order of the board. -/
def normalizeDashboardTodoSort (raw : String) : Bool := trimSpace (toLower raw) == "board"

def dashboardCursorRaw (cursor : Option String) : String := (cursor.map trimSpace).getD ""

def parseActivityCursorValues (raw : String) : Option (ℤ × ℤ) :=
  match splitColons raw with
  | [a, b] => do pure (← parseInt a, ← parseInt b)
  | _ => none

def parseBoardCursorValues (raw : String) : Option (ℤ × ℤ × ℤ × ℤ) :=
  match splitColons raw with
  | [a, b, c, d] => do pure (← parseInt a, ← parseInt b, ← parseInt c, ← parseInt d)
  | _ => none

def encodeDashboardCursor (updatedAtMs id : ℤ) : String := formatInt updatedAtMs ++ ":" ++ formatInt id

def encodeDashboardBoardCursor (projectID wcPos rank todoID : ℤ) : String :=
  formatInt projectID ++ ":" ++ (formatInt wcPos ++ ":" ++ (formatInt rank ++ ":" ++ formatInt todoID))

/-- The limit of a page, and how many rows are fetched for it. -/
def normalizeDashboardTodoPageLimits (limit : ℤ) : ℤ × ℤ :=
  let pageLimit := if limit ≤ 0 then 20 else if 100 < limit then 100 else limit
  if 100 ≤ pageLimit then (100, 101) else (pageLimit, pageLimit + 1)

/-- The rows behind the cursor, if there is one. -/
def dashboardRowsAfter {α : Type} (parse : String → Option α) (after : α → DashboardBoardRow → Bool)
    (raw : String) (rows : List DashboardBoardRow) : Result (List DashboardBoardRow) :=
  if raw = "" then .ok rows
  else
    match parse raw with
    | none => .error ⟨.validation, "invalid dashboard cursor"⟩
    | some c => .ok (rows.filter (after c))

/-- What both listings do. -/
def listDashboardPage {κ α : Type} [LinearOrder κ] (parse : String → Option α)
    (after : α → DashboardBoardRow → Bool) (key : DashboardBoardRow → κ) (encode : DashboardBoardRow → String)
    (db : DB) (userID limit : ℤ) (cursor : Option String) :
    Result (List DashboardTodo × Option String) := do
  let (pageLimit, fetchLimit) := normalizeDashboardTodoPageLimits limit
  let rows ← dashboardRowsAfter parse after (dashboardCursorRaw cursor) (dashboardRows db userID)
  let (page, last) := cutPage pageLimit (Sql.limit fetchLimit (orderBy key rows))
  pure (page.map (·.todo), last.map encode)

/-- `ORDER BY t.updated_at DESC, t.id DESC` -/
def activityOrderBy : Term DashboardBoardRow × Term DashboardBoardRow :=
  ({ value := (·.todo.updatedAt), desc := true }, { value := (·.todo.id), desc := true })

/-- The condition `t.updated_at < ? OR (t.updated_at = ? AND t.id < ?)`. -/
def activityAfter (c : ℤ × ℤ) (r : DashboardBoardRow) : Bool :=
  decide (r.todo.updatedAt < c.1) || (r.todo.updatedAt == c.1 && decide (r.todo.id < c.2))

def listDashboardTodosActivity : DB → ℤ → ℤ → Option String → Result (List DashboardTodo × Option String) :=
  listDashboardPage parseActivityCursorValues activityAfter (orderKey activityOrderBy)
    fun r => encodeDashboardCursor r.todo.updatedAt r.todo.id

/-- `(t.project_id, wc.position, t.rank, t.id)`, which compares as a row value. -/
def boardRowKey (r : DashboardBoardRow) : ℤ ×ₗ ℤ ×ₗ ℤ ×ₗ ℤ :=
  toLex (r.todo.projectID, toLex (r.wcPos, toLex (r.rank, r.todo.id)))

def boardAfter (c : ℤ × ℤ × ℤ × ℤ) (r : DashboardBoardRow) : Bool :=
  decide (toLex (c.1, toLex (c.2.1, toLex (c.2.2.1, c.2.2.2))) < boardRowKey r)

def listDashboardTodosBoard : DB → ℤ → ℤ → Option String → Result (List DashboardTodo × Option String) :=
  listDashboardPage parseBoardCursorValues boardAfter boardRowKey
    fun r => encodeDashboardBoardCursor r.todo.projectID r.wcPos r.rank r.todo.id

def listDashboardTodos (db : DB) (userID limit : ℤ) (cursor : Option String) (sort : String) :
    Result (List DashboardTodo × Option String) :=
  if normalizeDashboardTodoSort sort then listDashboardTodosBoard db userID limit cursor
  else listDashboardTodosActivity db userID limit cursor

/-- What the schema makes unique, and numbers of 64 bits. -/
structure DashboardTable (db : DB) : Prop where
  todos : (db.todos.map (·.id)).Nodup
  projects : (db.projects.map (·.id)).Nodup
  columns : (db.columns.map fun c => (c.projectID, c.key)).Nodup
  ints : ∀ t ∈ db.todos, IsInt64 t.id ∧ IsInt64 t.projectID ∧ IsInt64 t.rank ∧ IsInt64 t.updatedAt
  positions : ∀ c ∈ db.columns, IsInt64 c.position

section

variable {db db' : DB} {userID limit : ℤ} {r : DashboardBoardRow}

theorem mem_dashboardRows : r ∈ dashboardRows db userID ↔
    ∃ t ∈ db.todos, (t.assigneeUserID = some userID ∧ t.archivedAt = none) ∧
      ∃ p ∈ db.projects, p.id = t.projectID ∧
        ∃ wc ∈ db.columns, (wc.projectID = t.projectID ∧ wc.key = t.columnKey ∧ wc.isDone = false) ∧
          dashboardRow t p wc = r := by
  simp [dashboardRows, and_assoc]

theorem filter_eq_nil_or_singleton {α β : Type*} {f : α → β} {x : β} {l : List α} {p : α → Bool}
    (hf : (l.map f).Nodup) (hp : ∀ a ∈ l, p a = true → f a = x) :
    l.filter p = [] ∨ ∃ a, l.filter p = [a] := by
  have hsub : ((l.filter p).map f).Nodup := hf.sublist (List.filter_sublist.map f)
  have hall : (l.filter p).map f = List.replicate (l.filter p).length x := by
    rw [List.eq_replicate_iff]
    refine ⟨List.length_map f, fun y hy => ?_⟩
    obtain ⟨a, ha, rfl⟩ := List.mem_map.mp hy
    exact hp a (List.mem_filter.mp ha).1 (List.mem_filter.mp ha).2
  rw [hall, List.nodup_replicate] at hsub
  rcases Nat.le_one_iff_eq_zero_or_eq_one.mp hsub with hzero | hone
  · exact .inl (List.eq_nil_of_length_eq_zero hzero)
  · exact .inr (List.length_eq_one_iff.mp hone)

theorem map_flatMap_sublist {α β γ : Type*} {f : α → List β} {g : β → γ} {h : α → γ} {l : List α}
    (hf : ∀ a ∈ l, ((f a).map g).Sublist [h a]) : ((l.flatMap f).map g).Sublist (l.map h) := by
  induction l with
  | nil => exact .slnil
  | cons a l ih =>
      rw [List.flatMap_cons, List.map_append, List.map_cons]
      exact (hf a List.mem_cons_self).append (ih fun b hb => hf b (List.mem_cons_of_mem a hb))

/-- A story is in one row at most. -/
theorem DashboardTable.nodup_id (h : DashboardTable db) (userID : ℤ) :
    ((dashboardRows db userID).map (·.todo.id)).Nodup := by
  refine (h.todos.sublist (List.filter_sublist.map _)).sublist
    (map_flatMap_sublist (h := (·.id)) fun t _ => ?_)
  have hproject := filter_eq_nil_or_singleton (x := t.projectID)
    (p := fun p => p.id == t.projectID) h.projects fun p _ hp => beq_iff_eq.mp hp
  have hcolumn := filter_eq_nil_or_singleton (x := (t.projectID, t.columnKey))
    (p := fun wc => wc.projectID == t.projectID && wc.key == t.columnKey && !wc.isDone)
    h.columns fun c _ hc => by
      simp only [Bool.and_eq_true, beq_iff_eq] at hc
      rw [hc.1.1, hc.1.2]
  rcases hproject with hproject | ⟨p, hproject⟩
  · simp [hproject]
  · rcases hcolumn with hcolumn | ⟨wc, hcolumn⟩
    · simp [hproject, hcolumn]
    · simp [hproject, hcolumn, dashboardRow]

/-! ### The two orders -/

theorem pageLimit_pos (limit : ℤ) : 0 < (normalizeDashboardTodoPageLimits limit).1 := by
  simp only [normalizeDashboardTodoPageLimits]
  split_ifs <;> dsimp only <;> omega

theorem fetchLimit_eq (limit : ℤ) : (normalizeDashboardTodoPageLimits limit).2 =
    (normalizeDashboardTodoPageLimits limit).1 + 1 := by
  simp only [normalizeDashboardTodoPageLimits]
  split_ifs <;> rfl

/-- The numbers of a row have 64 bits. -/
structure RowInts (r : DashboardBoardRow) : Prop where
  id : IsInt64 r.todo.id
  projectID : IsInt64 r.todo.projectID
  wcPos : IsInt64 r.wcPos
  rank : IsInt64 r.rank
  updatedAt : IsInt64 r.todo.updatedAt

theorem DashboardTable.rowInts (h : DashboardTable db) (hr : r ∈ dashboardRows db userID) :
    RowInts r := by
  obtain ⟨t, ht, -, p, -, -, wc, hwc, -, rfl⟩ := mem_dashboardRows.mp hr
  obtain ⟨hid, hproject, hrank, hupdated⟩ := h.ints t ht
  exact ⟨hid, hproject, h.positions wc hwc, hrank, hupdated⟩

/-- The text of a cursor reads back as the place of its row in the order. -/
structure DashboardOrder {κ α : Type} [LinearOrder κ] (parse : String → Option α)
    (after : α → DashboardBoardRow → Bool) (key : DashboardBoardRow → κ) (encode : DashboardBoardRow → String)
    (token : κ → String) : Prop where
  id : ∀ {a b}, key a = key b → a.todo.id = b.todo.id
  token_key : ∀ r, token (key r) = encode r
  raw : ∀ r, dashboardCursorRaw (some (encode r)) = encode r ∧ encode r ≠ ""
  parse : ∀ {r}, RowInts r → ∃ c, parse (encode r) = some c ∧ ∀ b, after c b = decide (key r < key b)

theorem dashboardCursorRaw_cursorText (ns : List ℤ) :
    dashboardCursorRaw (some (cursorText ns)) = cursorText ns := by
  rw [dashboardCursorRaw, Option.map_some, Option.getD_some, trimSpace_cursorText]

abbrev activityKey : DashboardBoardRow → ℤ ×ₗ ℤ := orderKey activityOrderBy

/-- The cursor for a key of the activity order. -/
def activityToken (k : ℤ ×ₗ ℤ) : String := encodeDashboardCursor (-(ofLex k).1) (-(ofLex k).2)

theorem parseActivityCursorValues_cursorText {a b : ℤ} (ha : IsInt64 a) (hb : IsInt64 b) :
    parseActivityCursorValues (cursorText [a, b]) = some (a, b) := by
  rw [parseActivityCursorValues, splitColons_cursorText (List.cons_ne_nil _ _)]
  simp [parseInt_formatInt ha, parseInt_formatInt hb]

theorem parseBoardCursorValues_cursorText {a b c d : ℤ} (ha : IsInt64 a) (hb : IsInt64 b)
    (hc : IsInt64 c) (hd : IsInt64 d) :
    parseBoardCursorValues (cursorText [a, b, c, d]) = some (a, b, c, d) := by
  rw [parseBoardCursorValues, splitColons_cursorText (List.cons_ne_nil _ _)]
  simp [parseInt_formatInt ha, parseInt_formatInt hb, parseInt_formatInt hc, parseInt_formatInt hd]

/-- The condition on two columns in descending order is the order of the keys. -/
theorem activityAfter_eq (a b : DashboardBoardRow) :
    activityAfter (a.todo.updatedAt, a.todo.id) b = decide (activityKey a < activityKey b) := by
  rw [Bool.eq_iff_iff]
  simp only [activityAfter, activityKey, activityOrderBy, orderKey, Term.key, Prod.Lex.toLex_lt_toLex,
    if_true, Bool.or_eq_true, Bool.and_eq_true, decide_eq_true_eq, beq_iff_eq]
  omega

theorem activityOrder : DashboardOrder parseActivityCursorValues activityAfter activityKey
    (fun r => encodeDashboardCursor r.todo.updatedAt r.todo.id) activityToken where
  id h := by simpa [orderKey, activityOrderBy, Term.key] using congrArg (fun k => (ofLex k).2) h
  token_key r := by simp [activityToken, orderKey, activityOrderBy, Term.key]
  raw _ := ⟨dashboardCursorRaw_cursorText [_, _], cursorText_ne_empty (List.cons_ne_nil _ [_])⟩
  parse hr := ⟨_, parseActivityCursorValues_cursorText hr.updatedAt hr.id, activityAfter_eq _⟩

/-- The cursor for a key of the order of the board. -/
def boardToken (k : ℤ ×ₗ ℤ ×ₗ ℤ ×ₗ ℤ) : String :=
  let k₁ := ofLex (ofLex k).2
  let k₂ := ofLex k₁.2
  encodeDashboardBoardCursor (ofLex k).1 k₁.1 k₂.1 k₂.2

theorem boardOrder : DashboardOrder parseBoardCursorValues boardAfter boardRowKey
    (fun r => encodeDashboardBoardCursor r.todo.projectID r.wcPos r.rank r.todo.id) boardToken where
  id h := congrArg (fun k => (ofLex (ofLex (ofLex k).2).2).2) h
  token_key _ := rfl
  raw _ := ⟨dashboardCursorRaw_cursorText [_, _, _, _],
    cursorText_ne_empty (List.cons_ne_nil _ [_, _, _])⟩
  parse hr := ⟨_, parseBoardCursorValues_cursorText hr.projectID hr.wcPos hr.rank hr.id, fun _ => rfl⟩

/-! ### A walk -/

theorem orderBy_filter_cursor {α κ : Type*} [LinearOrder κ] (key : α → κ) (t : List α) (c : Option κ) :
    orderBy key (t.filter fun a => c.all fun k => decide (k < key a)) = rowsFrom key t c := by
  cases c with
  | none => simp [rowsFrom]
  | some k => rfl

theorem mem_cutPage {α : Type*} {pageLimit n : ℤ} {t : List α} {a : α}
    (h : (cutPage pageLimit (Sql.limit n t)).2 = some a) : a ∈ t := by
  have hlimit : ∀ b ∈ Sql.limit n t, b ∈ t := by
    intro b hb
    unfold Sql.limit at hb
    split at hb
    · exact hb
    · exact List.mem_of_mem_take hb
  unfold cutPage at h
  split at h
  · cases h
  · exact hlimit a (List.mem_of_mem_take (List.mem_of_getLast? h))

/-- A cursor that a listing has handed out. -/
def HandedOut {κ : Type} (key : DashboardBoardRow → κ) (c : Option κ) : Prop :=
  ∀ k ∈ c, ∃ db, DashboardTable db ∧ ∃ userID, k ∈ (dashboardRows db userID).map key

namespace DashboardOrder

variable {κ α : Type} [LinearOrder κ] {parse : String → Option α} {after : α → DashboardBoardRow → Bool}
  {key : DashboardBoardRow → κ} {encode : DashboardBoardRow → String} {token : κ → String}

theorem rowsAfter (h : DashboardOrder parse after key encode token) {c : Option κ} (hc : HandedOut key c)
    (rows : List DashboardBoardRow) :
    dashboardRowsAfter parse after (dashboardCursorRaw (c.map token)) rows =
      .ok (rows.filter fun r => c.all fun k => decide (k < key r)) := by
  cases c with
  | none => simp [dashboardCursorRaw, dashboardRowsAfter]
  | some k =>
      obtain ⟨db, hdb, userID, hk⟩ := hc k rfl
      obtain ⟨r, hr, rfl⟩ := List.mem_map.mp hk
      obtain ⟨c, hparse, hafter⟩ := h.parse (hdb.rowInts hr)
      rw [Option.map_some, h.token_key, (h.raw r).1, dashboardRowsAfter, if_neg (h.raw r).2, hparse]
      exact congrArg Except.ok (List.filter_congr fun b _ => hafter b)

/-- A listing answers with pages by keys. -/
theorem page_eq (h : DashboardOrder parse after key encode token) {c : Option κ} (hc : HandedOut key c) :
    listDashboardPage parse after key encode db userID limit (c.map token) =
      .ok ((keysetPage key (normalizeDashboardTodoPageLimits limit).1.toNat (dashboardRows db userID)
          c).1.map (·.todo),
        (keysetPage key (normalizeDashboardTodoPageLimits limit).1.toNat (dashboardRows db userID)
          c).2.map token) := by
  rw [listDashboardPage, h.rowsAfter hc]
  dsimp only
  rw [ok_bind, orderBy_filter_cursor, cutPage_limit (pageLimit_pos limit), ← fetchLimit_eq]
  refine congrArg Except.ok (Prod.ext rfl ?_)
  dsimp only
  rw [Option.map_map]
  exact congrArg (Option.map · _) (funext fun r => (h.token_key r).symm)

theorem readsPages (h : DashboardOrder parse after key encode token) (userID limit : ℤ) :
    ReadsPages (fun db cursor => listDashboardPage parse after key encode db userID limit cursor)
      DashboardTable (dashboardRows · userID) key (·.todo) token
      (normalizeDashboardTodoPageLimits limit).1.toNat where
  pos := by
    have := pageLimit_pos limit
    omega
  keys db hdb := by
    have hids := hdb.nodup_id userID
    rw [List.Nodup, List.pairwise_map] at hids ⊢
    exact hids.imp fun hne heq => hne (h.id heq)
  page db hdb c hc out hout := by
    rw [h.page_eq fun k hk => ?_] at hout
    · exact (Except.ok.inj hout).symm
    · obtain ⟨db', hdb', hk⟩ := hc k hk
      exact ⟨db', hdb', userID, hk⟩

/-- The cursor of an answer stands for a row of the state that it was read from, and is accepted. -/
theorem next_ok (h : DashboardOrder parse after key encode token) {userID' limit' : ℤ}
    (hdb : DashboardTable db) {cursor : Option String} {page : List DashboardTodo} {next : String}
    (hpage : listDashboardPage parse after key encode db userID limit cursor = .ok (page, some next)) :
    ∃ out, listDashboardPage parse after key encode db' userID' limit' (some next) = .ok out := by
  simp only [listDashboardPage, bind_eq_ok, pure_eq_ok, Prod.mk.injEq] at hpage
  obtain ⟨rows, hrows, -, hlast⟩ := hpage
  obtain ⟨r, hr, rfl⟩ := Option.map_eq_some_iff.mp hlast
  have hsub : rows ⊆ dashboardRows db userID := by
    unfold dashboardRowsAfter at hrows
    split at hrows
    · cases hrows
      exact List.Subset.refl _
    · split at hrows
      · cases hrows
      · cases hrows
        exact List.filter_subset_self _
  rw [← h.token_key]
  refine ⟨_, h.page_eq (c := some (key r)) fun k hk => ?_⟩
  cases hk
  exact ⟨db, hdb, userID, List.mem_map_of_mem (hsub (mem_orderBy.mp (mem_cutPage hr)))⟩

end DashboardOrder

/-- The place of a story in the order that is asked for, its id aside. -/
def dashboardPlace (sort : String) (r : DashboardBoardRow) : List ℤ :=
  if normalizeDashboardTodoSort sort then [r.todo.projectID, r.wcPos, r.rank] else [r.todo.updatedAt]

theorem boardRowKey_of_place {sort : String} (hsort : normalizeDashboardTodoSort sort = true)
    {a b : DashboardBoardRow} (hid : a.todo.id = b.todo.id)
    (hplace : dashboardPlace sort a = dashboardPlace sort b) : boardRowKey a = boardRowKey b := by
  simp only [dashboardPlace, if_pos hsort, List.cons.injEq, and_true] at hplace
  obtain ⟨hproject, hpos, hrank⟩ := hplace
  rw [boardRowKey, boardRowKey, hproject, hpos, hrank, hid]

theorem activityKey_le_iff {a b : DashboardBoardRow} (hid : a.todo.id = b.todo.id) :
    activityKey a ≤ activityKey b ↔ b.todo.updatedAt ≤ a.todo.updatedAt := by
  simp only [activityKey, orderKey, activityOrderBy, Term.key, Prod.Lex.toLex_le_toLex, if_true, hid]
  omega

theorem activityKey_of_place {sort : String} (hsort : ¬ normalizeDashboardTodoSort sort = true)
    {a b : DashboardBoardRow} (hid : a.todo.id = b.todo.id)
    (hplace : dashboardPlace sort a = dashboardPlace sort b) : activityKey a = activityKey b := by
  simp only [dashboardPlace, if_neg hsort, List.cons.injEq, and_true] at hplace
  exact le_antisymm ((activityKey_le_iff hid).mpr hplace.ge) ((activityKey_le_iff hid.symm).mpr hplace.le)

/-- Rows that agree in name and place have one key, if both determine it. -/
theorem exists_key_of_place {κ : Type*} {key : DashboardBoardRow → κ} {sort : String} {states : List DB}
    {id : ℤ} {place : List ℤ} (hne : states ≠ [])
    (hkey : ∀ a b : DashboardBoardRow, a.todo.id = b.todo.id →
      dashboardPlace sort a = dashboardPlace sort b → key a = key b)
    (hstays : ∀ db ∈ states, ∃ r ∈ dashboardRows db userID, r.todo.id = id ∧
      dashboardPlace sort r = place) :
    ∃ k, ∀ db ∈ states, ∃ r ∈ dashboardRows db userID, r.todo.id = id ∧ key r = k := by
  obtain ⟨db₀, hdb₀⟩ := List.exists_mem_of_ne_nil states hne
  obtain ⟨r₀, -, hid₀, hplace₀⟩ := hstays db₀ hdb₀
  refine ⟨key r₀, fun db hdb => ?_⟩
  obtain ⟨r, hr, hid, hplace⟩ := hstays db hdb
  exact ⟨r, hr, hid, hkey r r₀ (hid.trans hid₀.symm) (hplace.trans hplace₀.symm)⟩

/-- Reading the dashboard page by page while stories change. Each page shows open stories of the
user as they are then; a story that stays open, assigned and in its place is listed exactly once;
in the activity order no story is listed twice, unless its time of update goes back. The cursor of
a page is accepted whatever has happened since. -/
theorem dashboard_walk (userID limit : ℤ) (sort : String) {states : List DB}
    {pages : List (List DashboardTodo)} (hdb : ∀ db ∈ states, DashboardTable db)
    (hwalk : Walks (fun db cursor => listDashboardTodos db userID limit cursor sort) none states pages) :
    List.Forall₂ (fun db page => page ⊆ (dashboardRows db userID).map (·.todo)) states pages ∧
    (∀ id place, (∀ db ∈ states, ∃ r ∈ dashboardRows db userID, r.todo.id = id ∧
        dashboardPlace sort r = place) → (pages.flatten.map (·.id)).count id = 1) ∧
    (normalizeDashboardTodoSort sort = false → ∀ id,
      (states.Pairwise fun db db' => ∀ t ∈ db.todos, ∀ t' ∈ db'.todos, t.id = id → t'.id = id →
        t.updatedAt ≤ t'.updatedAt) → (pages.flatten.map (·.id)).count id ≤ 1) ∧
    ∀ db db' cursor page next userID' limit', DashboardTable db → DashboardTable db' →
      listDashboardTodos db userID limit cursor sort = .ok (page, some next) →
      ∃ out, listDashboardTodos db' userID' limit' (some next) sort = .ok out := by
  have hids : ∀ db, DashboardTable db →
      ((dashboardRows db userID).map fun r => (fun t : DashboardTodo => t.id) r.todo).Nodup :=
    fun db hdb => hdb.nodup_id userID
  by_cases hsort : normalizeDashboardTodoSort sort = true
  · have hlist : ∀ db userID limit cursor, listDashboardTodos db userID limit cursor sort =
        listDashboardTodosBoard db userID limit cursor := fun _ _ _ _ => if_pos hsort
    simp only [hlist] at hwalk ⊢
    have hpages := boardOrder.readsPages userID limit
    refine ⟨hpages.forall₂ hdb hwalk, fun id place hstays => ?_, fun hactivity => ?_,
      fun _ _ _ _ _ _ _ hgood _ hpage => boardOrder.next_ok hgood hpage⟩
    · obtain ⟨k, hk⟩ := exists_key_of_place hwalk.ne_nil (fun _ _ => boardRowKey_of_place hsort) hstays
      exact hpages.count_eq_one hdb hwalk hids hk
    · rw [hsort] at hactivity
      cases hactivity
  · have hlist : ∀ db userID limit cursor, listDashboardTodos db userID limit cursor sort =
        listDashboardTodosActivity db userID limit cursor := fun _ _ _ _ => if_neg hsort
    simp only [hlist] at hwalk ⊢
    have hpages := activityOrder.readsPages userID limit
    refine ⟨hpages.forall₂ hdb hwalk, fun id place hstays => ?_, fun _ id hforth => ?_,
      fun _ _ _ _ _ _ _ hgood _ hpage => activityOrder.next_ok hgood hpage⟩
    · obtain ⟨k, hk⟩ := exists_key_of_place hwalk.ne_nil (fun _ _ => activityKey_of_place hsort) hstays
      exact hpages.count_eq_one hdb hwalk hids hk
    · refine hpages.count_le_one hdb hwalk hids (hforth.imp fun {db db'} hforth a ha b hb hida hidb => ?_)
      obtain ⟨t, ht, -, p, -, -, wc, -, -, rfl⟩ := mem_dashboardRows.mp ha
      obtain ⟨t', ht', -, p', -, -, wc', -, -, rfl⟩ := mem_dashboardRows.mp hb
      exact (activityKey_le_iff (hidb.trans hida.symm)).mpr (hforth t ht t' ht' hida hidb)

end

/-- An open story of the first user. -/
def openStory (id updatedAt : ℤ) : TodoRow where
  id := id
  projectID := 1
  localID := id
  title := "Story"
  body := ""
  columnKey := "backlog"
  rank := 1000 * id
  estimationPoints := none
  assigneeUserID := some 1
  createdByUserID := none
  sprintID := none
  priorityKey := none
  createdAt := 0
  updatedAt := updatedAt
  doneAt := none
  archivedAt := none
  dueAt := none
  dueRemindedAt := none

def storyBoard (todos : List TodoRow) : DB where
  users := [1]
  projects := [{ defaultProjectRow 0 with id := 1, name := "Board", slug := "board" }]
  columns := [{ id := 1, projectID := 1, key := "backlog", name := "Backlog", color := "#64748b",
                position := 0, isDone := false, system := false }]
  todos := todos

theorem storyBoard_table {todos : List TodoRow} (hids : (todos.map (·.id)).Nodup)
    (hints : ∀ t ∈ todos, IsInt64 t.id ∧ IsInt64 t.projectID ∧ IsInt64 t.rank ∧ IsInt64 t.updatedAt) :
    DashboardTable (storyBoard todos) where
  todos := hids
  projects := List.nodup_singleton _
  columns := List.nodup_singleton _
  ints := hints
  positions c hc := by
    rw [List.mem_singleton.mp hc]
    decide

/-- Between the first page and the second one, a story that was still to come is edited and moves to
the front. The last story is listed all the same. -/
theorem dashboard_walk_edited :
    ∃ pages, Walks (fun db cursor => listDashboardTodos db 1 1 cursor "activity") none
        [storyBoard [openStory 1 30, openStory 2 20, openStory 3 10],
          storyBoard [openStory 1 30, openStory 2 40, openStory 3 10]] pages ∧
      (pages.flatten.map (·.id)).count 3 = 1 := by
  have hwalk : Walks (fun db cursor => listDashboardTodos db 1 1 cursor "activity") none
      [storyBoard [openStory 1 30, openStory 2 20, openStory 3 10],
        storyBoard [openStory 1 30, openStory 2 40, openStory 3 10]]
      ([openStory 1 30, openStory 3 10].map fun t => (dashboardRows (storyBoard [t]) 1).map (·.todo)) :=
    .more (show _ = Except.ok (_, some "30:1") by with_unfolding_all rfl) (.last (by with_unfolding_all rfl))
  refine ⟨_, hwalk, (dashboard_walk 1 1 "activity" ?_ hwalk).2.1 3 [10] ?_⟩
  · rintro db hdb
    rcases List.mem_pair.mp hdb with rfl | rfl <;> exact storyBoard_table (by decide) (by decide)
  · rintro db hdb
    rcases List.mem_pair.mp hdb with rfl | rfl <;> decide +kernel

end Scrumboy
