import Scrumboy.Backup.Operations

/-!
# Appending after imports

Requests and imports leave 64-bit ranks behind, but nothing keeps the ranks of a
backup away from the ends of the range. A todo without neighbours gets the largest
rank of its column plus one step, modulo `2 ^ 64`, and so it comes last exactly if
that step fits.
-/

set_option linter.dupNamespace false

namespace Scrumboy

open Go Sql

/-- The table numbers its todos, and their ranks are 64-bit integers. -/
structure RankInv (db : DB) : Prop where
  ids : (db.todos.map (·.id)).Nodup
  rank : ∀ t ∈ db.todos, IsInt64 t.rank

section

variable {db db' : DB}

theorem RankInv.congr (h : RankInv db)
    (hrows : db'.todos.map (fun t => (t.id, t.rank)) = db.todos.map fun t => (t.id, t.rank)) :
    RankInv db' := by
  have hids := congrArg (List.map Prod.fst) hrows
  simp only [List.map_map, Function.comp_def] at hids
  refine ⟨hids ▸ h.ids, fun t ht => ?_⟩
  have hmem : (t.id, t.rank) ∈ db.todos.map fun t => (t.id, t.rank) :=
    hrows ▸ List.mem_map_of_mem ht
  obtain ⟨u, hu, heq⟩ := List.mem_map.mp hmem
  exact (Prod.mk.inj heq).2 ▸ h.rank u hu

theorem RankInv.of_todos_eq (h : RankInv db) (heq : db'.todos = db.todos) : RankInv db' :=
  h.congr (by rw [heq])

theorem RankInv.sublist (h : RankInv db) (hsub : db'.todos.Sublist db.todos) : RankInv db' where
  ids := h.ids.sublist (hsub.map _)
  rank t ht := h.rank t (hsub.subset ht)

theorem RankInv.concat (h : RankInv db) {u : TodoRow} (hid : u.id = nextRowid (db.todos.map (·.id)))
    (hrank : IsInt64 u.rank) (htodos : db'.todos = db.todos ++ [u]) : RankInv db' where
  ids := by
    rw [htodos, List.map_append, List.map_singleton, hid]
    exact nodup_concat_nextRowid h.ids
  rank t ht := by
    rcases List.mem_append.mp (htodos ▸ ht) with ht | ht
    · exact h.rank t ht
    · exact List.mem_singleton.mp ht ▸ hrank

/-- An update of rows that leaves the ids alone and writes a 64-bit rank. -/
theorem RankInv.update (h : RankInv db) {p : TodoRow → Bool} {f : TodoRow → TodoRow}
    (htodos : db'.todos = updateWhere p f db.todos) (hid : ∀ t, (f t).id = t.id)
    (hrank : ∀ t, IsInt64 (f t).rank) : RankInv db' where
  ids := by
    rw [htodos, map_updateWhere _ hid]
    exact h.ids
  rank t ht := by
    rw [htodos, mem_updateWhere] at ht
    obtain ⟨u, hu, rfl⟩ := ht
    split
    · exact hrank u
    · exact h.rank u hu

/-! ## Requests -/

theorem RankInv.rebalanceColumn (h : RankInv db) (projectID : ℤ) (columnKey : String) :
    RankInv (rebalanceColumn db projectID columnKey) := by
  have hset : ∀ (ranks : List (ℤ × ℤ)) (db : DB), RankInv db → (∀ p ∈ ranks, IsInt64 p.2) →
      RankInv { db with todos := setRanks ranks db.todos } := by
    intro ranks
    induction ranks with
    | nil => exact fun db hdb _ => hdb
    | cons p ranks ih =>
        intro db hdb hall
        refine ih { db with
          todos := updateWhere (fun t => t.id == p.1) (fun t => { t with rank := p.2 }) db.todos } ?_
          fun q hq => hall q (List.mem_cons_of_mem _ hq)
        exact hdb.update rfl (fun _ => rfl) fun _ => hall p List.mem_cons_self
  apply hset _ db h
  intro p hp
  obtain ⟨q, _, rfl⟩ := List.mem_map.mp hp
  exact wrap_isInt64 _

theorem RankInv.getNeighbor (h : RankInv db) {projectID id : ℤ} {columnKey : String} {n : Neighbor}
    (hn : getNeighbor db projectID columnKey id = .ok n) : IsInt64 n.rank := by
  obtain ⟨t, ht, _, rfl⟩ := getNeighbor_eq_ok hn
  exact h.rank t (List.mem_filter.mp ht).1

/-- Half of a 64-bit integer is one. -/
theorem isInt64_tdiv_two {n : ℤ} (h : IsInt64 n) : IsInt64 (n.tdiv 2) := by
  unfold IsInt64 minInt64 maxInt64 at *
  rcases le_total 0 n with hn | hn
  · rw [Int.tdiv_eq_ediv_of_nonneg hn]
    omega
  · have hneg : n.tdiv 2 = -((-n) / 2) := by
      rw [← Int.tdiv_eq_ediv_of_nonneg (by omega), Int.neg_tdiv, neg_neg]
    rw [hneg]
    omega

theorem RankInv.computeNewRank (h : RankInv db) {projectID rank : ℤ} {columnKey : String}
    {movingID afterID beforeID : Option ℤ} {db₁ : DB}
    (hok : Scrumboy.computeNewRank db projectID columnKey movingID afterID beforeID =
      .ok (db₁, rank)) : RankInv db₁ ∧ IsInt64 rank := by
  simp only [Scrumboy.computeNewRank, bind_eq_ok] at hok
  obtain ⟨after, _, before, _, _, _, _, _, _, _, hok⟩ := hok
  have hbal := h.rebalanceColumn projectID columnKey
  rcases after with _ | after
  · rcases before with _ | before
    · simp only [pure_eq_ok, Prod.mk.injEq] at hok
      obtain ⟨rfl, rfl⟩ := hok
      exact ⟨h, wrap_isInt64 _⟩
    · simp only [rankBefore] at hok
      split at hok
      · cases hok
        exact ⟨h, wrap_isInt64 _⟩
      · simp only [bind_eq_ok] at hok
        obtain ⟨before₂, hbefore₂, hok⟩ := hok
        split at hok
        · simp only [pure_eq_ok, Prod.mk.injEq] at hok
          obtain ⟨rfl, rfl⟩ := hok
          exact ⟨hbal, wrap_isInt64 _⟩
        · simp only [pure_eq_ok, Prod.mk.injEq] at hok
          obtain ⟨rfl, rfl⟩ := hok
          exact ⟨hbal, isInt64_tdiv_two (hbal.getNeighbor hbefore₂)⟩
  · rcases before with _ | before
    · simp only [pure_eq_ok, Prod.mk.injEq] at hok
      obtain ⟨rfl, rfl⟩ := hok
      exact ⟨h, wrap_isInt64 _⟩
    · simp only [rankBetween] at hok
      split at hok
      · cases hok
        exact ⟨h, wrap_isInt64 _⟩
      · simp only [bind_eq_ok, pure_eq_ok, Prod.mk.injEq] at hok
        obtain ⟨_, _, _, _, _, _, _, _, rfl, rfl⟩ := hok
        exact ⟨hbal, wrap_isInt64 _⟩

theorem RankInv.exec (h : RankInv db) {rt : Runtime} {ctx : Ctx} {r : Request}
    (hok : r.exec rt ctx db = .ok db') : RankInv db' := by
  cases htodos : r.writesTodos with
  | false => exact h.of_todos_eq (Request.exec_todos htodos hok)
  | true =>
      cases r with
      | createTodo projectID input =>
          obtain ⟨out, hout, rfl⟩ := map_eq_ok.mp hok
          obtain ⟨db₁, rank, hrank, hrow, hrows, _, _⟩ := createTodo_spec hout
          obtain ⟨h₁, hint⟩ := h.computeNewRank hrank
          obtain ⟨r, rfl⟩ := computeNewRank_ranksOnly hrank
          refine h₁.concat ?_ (hrow.rank_eq ▸ hint) hrows
          simpa [DB.withRanks, Function.comp_def] using hrow.id_eq
      | moveTodo todoID toColumnKey afterID beforeID =>
          obtain ⟨out, hout, rfl⟩ := map_eq_ok.mp hok
          obtain ⟨_, db₁, rank, doneAt, _, _, _, hrank, _, hrows, _, _⟩ := moveTodo_spec hout
          obtain ⟨h₁, hint⟩ := h.computeNewRank hrank
          exact h₁.update hrows (fun _ => rfl) fun _ => hint
      | deleteTodo todoID =>
          obtain ⟨_, _, _, ⟨_, _, _, rfl, _⟩, _⟩ := deleteTodo_spec hok
          exact h.sublist List.filter_sublist
      | archiveTodos projectID ids archive =>
          obtain ⟨out, hout, rfl⟩ := map_eq_ok.mp hok
          exact h.congr (archiveTodosByLocalID_map hout _ fun _ => rfl)
      | _ => cases htodos

end

/-! ## Imports -/

/-- The ranks of a backup are 64-bit integers, as its decoder leaves them. -/
def ImportRequest.Int64Ranks (req : ImportRequest) : Prop :=
  ∀ p ∈ req.data.projects, ∀ t ∈ p.todos, IsInt64 t.rank

section

variable {rt : Runtime} {ctx : Ctx} {projectID : ℤ} {s s' : TodoScan} {t : TodoExport} {u : TodoRow}

theorem RankInv.landsOn (h : RankInv s.db) (hon : LandsOn projectID s s' t u)
    (hrank : IsInt64 t.rank) : RankInv s'.db := by
  obtain ⟨sprintID, htags⟩ := hon.tables
  exact h.update htags.contentOnly.todos (fun _ => rfl) fun _ => hrank

theorem RankInv.landsNew (h : RankInv s.db) (hnew : LandsNew projectID s s' t u)
    (hrank : IsInt64 t.rank) : RankInv s'.db := by
  refine h.concat hnew.id_eq ?_ hnew.todos
  rcases hnew.rank_eq with heq | heq
  · exact heq ▸ hrank
  · rw [heq, importRank]
    split
    · exact wrap_isInt64 _
    · exact hrank

variable {p : ProjectExport} (hvalid : ∀ c ∈ p.workflowColumns, IsColumnKey (trimSpace c.key))
  (hranks : ∀ t ∈ p.todos, IsInt64 t.rank)

include hvalid hranks

theorem RankInv.mergeProject {draws : ℕ → ProjectDraws} {selected : Selector} {i : ℕ}
    {s s' : ImportTx × List ℤ} (h : RankInv s.1.db)
    (hok : Scrumboy.mergeProject rt ctx draws selected s (p, i) = .ok s') : RankInv s'.1.db := by
  obtain ⟨db₁, projectID, _, _, scan, htarget, htodos, hcontent, _⟩ := mergeProject_stages hvalid hok
  have h₁ : RankInv db₁ := by
    cases htarget with
    | found row hfind hid hsets hkeep => exact h.of_todos_eq hsets.tables.todos
    | new face hfind hid hslug hbatch hsets hadds => exact h.of_todos_eq hsets.tables.todos
  have hscan : RankInv scan.db := by
    refine foldlM_inv (P := fun s => RankInv s.db) (fun s t s' ht hs hstep => ?_) h₁ htodos
    rcases mergeTodo_cases hstep with ⟨u, _, hon⟩ | ⟨u, _, hnew, _⟩
    · exact hs.landsOn hon (hranks t ht)
    · exact hs.landsNew hnew (hranks t ht)
  exact hscan.of_todos_eq hcontent.todos

theorem RankInv.copyProject {draws : ℕ → ProjectDraws} {mode : Mode} {i : ℕ} {s s' : ImportTx}
    (h : RankInv s.db) (hok : Scrumboy.copyProject rt ctx draws mode s (p, i) = .ok s') :
    RankInv s'.db := by
  obtain ⟨face, db₁, _, _, scan, hsets, _, _, htodos, hcontent⟩ := copyProject_stages hvalid hok
  have hscan : RankInv scan.db := by
    refine foldlM_inv (P := fun s => RankInv s.db) (fun s t s' ht hs hstep => ?_)
      (h.of_todos_eq hsets.tables.todos) htodos
    obtain ⟨u, hnew, _⟩ := copyTodo_landsNew hstep
    exact hs.landsNew hnew (hranks t ht)
  exact hscan.of_todos_eq hcontent.todos

theorem RankInv.stageProject {draws : ℕ → ProjectDraws} {mode : Mode} {batchID : String} {i : ℕ}
    {s s' : ImportTx} (h : RankInv s.db)
    (hok : Scrumboy.stageProject rt ctx draws mode batchID s (p, i) = .ok s') : RankInv s'.db := by
  obtain ⟨face, db₁, _, _, scan, hsets, _, _, htodos, hcontent⟩ := stageProject_stages hvalid hok
  simp only [bulkInsertTodos, bind_eq_ok] at htodos
  obtain ⟨_, _, htodos⟩ := htodos
  have hscan : RankInv scan.db := by
    refine foldlM_inv (P := fun s => RankInv s.db) (fun s t s' ht hs hstep => ?_)
      (h.of_todos_eq hsets.tables.todos) htodos
    obtain ⟨u, hnew, _⟩ := bulkInsertTodo_landsNew hstep
    exact hs.landsNew hnew (hranks t ht)
  exact hscan.of_todos_eq hcontent.todos

end

section

variable {rt : Runtime} {ctx : Ctx} {db : DB}

theorem RankInv.importBackup (h : RankInv db) {req : ImportRequest} (hranks : req.Int64Ranks) :
    RankInv (Scrumboy.importBackup rt ctx db req) := by
  rcases importBackup_cases rt ctx db req with heq | ⟨hchecked, _, hout⟩
  · rwa [heq]
  · have hvalid := fun p hp => (hchecked.project p hp).columnKey
    generalize Scrumboy.importBackup rt ctx db req = db' at hout ⊢
    cases hout with
    | replaced himport hout =>
        rw [← hout]
        refine importReplaceAll_inv (fun s p i s' hp hs hstep => ?_) ?_ ?_ h
        · exact hs.stageProject (hvalid p hp) (hranks p hp) hstep
        · exact fun db gone hdb => hdb.sublist List.filter_sublist
        · exact fun db db' hdb hok => hdb.of_todos_eq (by rw [promoteStaging_eq_ok hok])
    | merged himport hmode r hout =>
        simp only [importMerge, bind_eq_ok, pure_eq_ok, Prod.mk.injEq] at hout
        obtain ⟨selected, _, _, _, ⟨tx, ids⟩, hfold, _, _, rfl, _⟩ := hout
        refine foldlM_inv (P := fun s => RankInv s.1.db) (fun s pi s' hpi hs hstep => ?_) h hfold
        have hp := List.fst_mem_of_mem_zipIdx hpi
        exact hs.mergeProject (hvalid pi.1 hp) (hranks pi.1 hp) hstep
    | copied himport r hout =>
        refine importCreateCopy_inv (fun s p i s' hp hs hstep => ?_) h hout
        exact hs.copyProject (hvalid p hp) (hranks p hp) hstep

/-- Every operation leaves 64-bit ranks behind. -/
theorem RankInv.perform (h : RankInv db) {op : Ctx × Operation}
    (hranks : ∀ req, op.2 = .importBackup req → req.Int64Ranks) :
    RankInv (Scrumboy.perform rt db op) := by
  obtain ⟨ctx, op⟩ := op
  cases op with
  | request r => exact serve_inv h fun db' hok => h.exec hok
  | importBackup req => exact h.importBackup (hranks req rfl)

theorem RankInv.run (h : RankInv db) (ops : List (Ctx × Operation))
    (hranks : ∀ ctx req, (ctx, .importBackup req) ∈ ops → req.Int64Ranks) :
    RankInv (Transition.run (Scrumboy.perform rt) db ops) := by
  induction ops generalizing db with
  | nil => exact h
  | cons op ops ih =>
      apply ih
      · apply h.perform
        intro req heq
        exact hranks op.1 req (heq ▸ List.mem_cons_self)
      · exact fun ctx req hmem => hranks ctx req (List.mem_cons_of_mem _ hmem)

end

/-- The step behind the largest rank of a column fits, or the todo that is moved there
is above its company even after the wrap. -/
def AppendFits (db : DB) (projectID : ℤ) (columnKey : String) (movingID : Option ℤ) : Prop :=
  HasRoom db projectID columnKey ∨ ∃ todoID ∈ movingID, ∀ t ∈ db.lane projectID columnKey,
    t.id ≠ todoID → t.slot < toLex (maxRankInColumn db projectID columnKey - rankWrap, todoID)

/-- Whatever requests and imports led to a state, a todo that is created or moved
without neighbours comes last in its column exactly if its rank does not wrap. -/
theorem append_isLast_iff (rt : Runtime) (db₀ : DB) (hempty : db₀.todos = [])
    (ops : List (Ctx × Operation))
    (hranks : ∀ ctx req, (ctx, .importBackup req) ∈ ops → req.Int64Ranks) (db : DB)
    (hdb : db = Transition.run (perform rt) db₀ ops) :
    (∀ ctx projectID input db' todo, input.afterID = none → input.beforeID = none →
      createTodo rt ctx db projectID input = .ok (db', todo) →
        (IsLast db' projectID input.lane todo.row ↔ AppendFits db projectID input.lane none)) ∧
    (∀ ctx todoID columnKey db' row, moveTodo ctx db todoID columnKey none none = .ok (db', row) →
        (IsLast db' row.projectID columnKey row ↔
          AppendFits db row.projectID columnKey (some todoID))) := by
  have hinv : RankInv db := by
    rw [hdb]
    exact RankInv.run ⟨by simp [hempty], by simp [hempty]⟩ ops hranks
  have hint : ∀ projectID columnKey, ∀ t ∈ db.lane projectID columnKey, IsInt64 t.rank :=
    fun projectID columnKey t ht => hinv.rank t (List.mem_filter.mp ht).1
  constructor
  · intro ctx projectID input db' todo hafter hbefore hok
    rw [createTodo_isLast_iff (hint _ _) hafter hbefore rfl hok]
    simp [AppendFits]
  · intro ctx todoID columnKey db' row hok
    rw [moveTodo_isLast_iff hinv.ids (hint _ _) hok]
    simp [AppendFits]

/-- A backup of one project with one todo in the backlog, of the given rank. -/
def rankedBackup (rank : ℤ) : ImportRequest where
  data := { projects := [{ slug := "board", name := "Board", todos := [{ backlogTodo 1 with
    rank := rank }] }] }
  mode := .full
  importMode := .replace
  batchID := "batch"
  draws := fun _ => ⟨"slug", fun _ => 0, fun _ => 0⟩

/-- A server with one user, after they imported that backup. -/
def afterImport (rank : ℤ) : DB :=
  Transition.run (perform plainRuntime) { users := [1] }
    [(⟨some 1, 5⟩, .importBackup (rankedBackup rank))]

/-- After a todo of rank 5 was imported, a new one comes last. -/
theorem append_isLast_after_import :
    ∃ db' todo, createTodo plainRuntime ⟨some 1, 5⟩ (afterImport 5) 1 { title := "t" } =
        .ok (db', todo) ∧ IsLast db' 1 "backlog" todo.row := by
  obtain ⟨⟨db', todo⟩, hok⟩ := exists_of_isOk (x := createTodo plainRuntime ⟨some 1, 5⟩
    (afterImport 5) 1 { title := "t" }) (by decide +kernel)
  refine ⟨db', todo, hok, ?_⟩
  refine ((append_isLast_iff plainRuntime { users := [1] } rfl
    [(⟨some 1, 5⟩, .importBackup (rankedBackup 5))] ?_ (afterImport 5) rfl).1 _ _ _ _ _ rfl rfl
    hok).mpr (.inl ?_)
  · intro ctx req hmem
    simp only [List.mem_singleton, Prod.mk.injEq, Operation.importBackup.injEq] at hmem
    rw [hmem.2]
    unfold ImportRequest.Int64Ranks
    decide
  · unfold HasRoom
    decide +kernel

/-- After a todo of the largest rank was imported, a new one does not come last. -/
theorem append_wraps_after_import :
    ∃ db' todo, createTodo plainRuntime ⟨some 1, 5⟩ (afterImport maxInt64) 1 { title := "t" } =
        .ok (db', todo) ∧ ¬ IsLast db' 1 "backlog" todo.row := by
  obtain ⟨⟨db', todo⟩, hok⟩ := exists_of_isOk (x := createTodo plainRuntime ⟨some 1, 5⟩
    (afterImport maxInt64) 1 { title := "t" }) (by decide +kernel)
  refine ⟨db', todo, hok, ?_⟩
  rw [createTodo_isLast_iff (by decide +kernel) rfl rfl (by decide) hok]
  unfold HasRoom
  decide +kernel

end Scrumboy
