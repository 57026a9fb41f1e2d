import Scrumboy.Trello.Stories
import Scrumboy.Trello.Checked

/-!
# Labels of a Trello board after the import

When the backup of a board that is accepted can be imported, and when two stories of it share a tag
only if their cards share a label.
-/

set_option linter.dupNamespace false

namespace Scrumboy

open Go Sql

/-! ## The project -/

/-- A slug for the project is found. -/
def TrelloSlugFree (draws : List String) (db : DB) (name : String) (mode : Mode) : Prop :=
  if mode = .anonymous then ∃ slug ∈ draws.take 100, visibleSlugTaken db slug = false
  else ∃ slug ∈ trelloSlugCandidates name, isReservedProjectSlug slug = false ∧ visibleSlugTaken db slug = false

/-- Whose tags the import writes: those of the user, or of a board of a server without accounts. -/
def trelloTagUser (ctx : Ctx) (mode : Mode) : Option (Option ℤ) :=
  if mode = .anonymous ∨ ctx.userID.isSome = true then some ctx.userID else none

/-- The board belongs to nobody. -/
def isOwnerless (ctx : Ctx) (mode : Mode) : Bool := mode == .anonymous && ctx.userID.isNone

/-- The keys of the tables that the schema declares. -/
structure TrelloTables (db : DB) : Prop where
  todoIDs : (db.todos.map (·.id)).Nodup
  tagIDs : (db.tags.map (·.id)).Nodup
  todoProjects : ∀ t ∈ db.todos, t.projectID ∈ db.projects.map (·.id)
  columnProjects : ∀ c ∈ db.columns, c.projectID ∈ db.projects.map (·.id)
  todoTags : ∀ r ∈ db.todoTags, r.todoID ∈ db.todos.map (·.id)

section

variable {rt : Runtime} {ctx : Ctx} {db db₀ db₁ db₂ db' : DB} {mode : Mode} {draws : List String} {p : ProjectExport}
  {projectID : ℤ} {b : TrelloBoard} {nowMs : ℤ}

theorem insertTrelloProjectRow_spec (h : insertTrelloProjectRow ctx draws db p mode = .ok (db₀, projectID)) :
    ∃ row members, db₀ = { db with projects := db.projects ++ [row], members := members } ∧
      projectID = nextRowid (db.projects.map (·.id)) ∧ row.id = projectID ∧ row.importBatchID = none ∧
      isAnonymousTemporaryBoard row = isOwnerless ctx mode := by
  simp only [insertTrelloProjectRow, bind_eq_ok] at h
  obtain ⟨_, _, h⟩ := h
  cases mode with
  | anonymous =>
      rw [if_pos rfl, insertTrelloTemporaryProjectRow] at h
      split at h
      · cases h
      · cases h
        refine ⟨_, _, rfl, rfl, rfl, rfl, ?_⟩
        simp [isAnonymousTemporaryBoard, isOwnerless]
  | full =>
      rw [if_neg Mode.noConfusion] at h
      simp only [insertTrelloDurableProjectRow, bind_eq_ok] at h
      obtain ⟨owner, _, h⟩ := h
      split at h
      · cases h
      · rw [pure_eq_ok, Prod.mk.injEq] at h
        obtain ⟨rfl, rfl⟩ := h
        obtain ⟨members, heq⟩ := insertOwner_eq _ (nextRowid (db.projects.map (·.id))) ctx.nowMs owner
        exact ⟨_, members, heq, rfl, rfl, rfl, rfl⟩

theorem insertTrelloProjectRow_isOk_iff (hname : trimSpace p.name ≠ "") :
    (∃ out, insertTrelloProjectRow ctx draws db p mode = .ok out) ↔
      (mode = .full → authEnabled db = true → ctx.userID.isSome = true) ∧
        TrelloSlugFree draws db (trimSpace p.name) mode := by
  rw [insertTrelloProjectRow, reject_bind_of_not hname]
  cases mode with
  | anonymous =>
      rw [if_pos rfl, TrelloSlugFree, if_pos rfl, insertTrelloTemporaryProjectRow]
      have hfind : (∃ slug ∈ draws.take 100, visibleSlugTaken db slug = false) ↔
          ((draws.take 100).find? fun slug => !visibleSlugTaken db slug).isSome = true := by
        simp [List.find?_isSome]
      rw [hfind]
      split
      · next hnone => simp [hnone]
      · next slug hsome => simp [hsome, pure, Except.pure]
  | full =>
      rw [if_neg Mode.noConfusion, TrelloSlugFree, if_neg Mode.noConfusion]
      have howner : (∃ owner, projectOwner ctx db = .ok owner) ↔
          (Mode.full = .full → authEnabled db = true → ctx.userID.isSome = true) := by
        unfold projectOwner
        split
        · next henabled =>
          cases ctx.userID <;> simp [henabled, throw, throwThe, MonadExceptOf.throw, pure, Except.pure]
        · next henabled => simp [henabled, pure, Except.pure]
      have hfind : (∃ slug ∈ trelloSlugCandidates (trimSpace p.name), isReservedProjectSlug slug = false ∧
          visibleSlugTaken db slug = false) ↔ ((trelloSlugCandidates (trimSpace p.name)).find? fun slug =>
            !isReservedProjectSlug slug && !visibleSlugTaken db slug).isSome = true := by
        simp [List.find?_isSome]
      rw [hfind, ← howner]
      constructor
      · rintro ⟨out, h⟩
        simp only [insertTrelloDurableProjectRow, bind_eq_ok] at h
        obtain ⟨owner, hok, h⟩ := h
        refine ⟨⟨owner, hok⟩, ?_⟩
        split at h
        · cases h
        · next slug hsome => rw [hsome]; rfl
      · rintro ⟨⟨owner, hok⟩, hsome⟩
        obtain ⟨slug, hslug⟩ := Option.isSome_iff_exists.mp hsome
        rw [insertTrelloDurableProjectRow, hok, ok_bind]
        dsimp only
        rw [hslug]
        exact ⟨_, rfl⟩

/-! ## Before the stories -/

/-- The new project with its columns, and no story yet. -/
structure BeforeStories (ctx : Ctx) (mode : Mode) (projectID : ℤ) (p : ProjectExport) (db db₁ : DB) : Prop where
  tags : TagsGoTo ctx projectID (isOwnerless ctx mode) (trelloTagUser ctx mode) db₁
  keys : ∀ c ∈ p.workflowColumns, c.key ∈ db₁.columnKeys projectID
  fresh : ∀ u ∈ db₁.todos, u.projectID ≠ projectID
  todos_eq : db₁.todos = db.todos
  tags_eq : db₁.tags = db.tags
  todoTags_eq : db₁.todoTags = db.todoTags

theorem importTagUser_trello (howner : mode = .full → authEnabled db = true → ctx.userID.isSome = true) :
    importTagUser ctx db (isOwnerless ctx mode) = .ok (trelloTagUser ctx mode) := by
  unfold importTagUser trelloTagUser isOwnerless
  cases huser : ctx.userID with
  | some userID => simp [pure, Except.pure]
  | none =>
      cases mode with
      | anonymous => simp [pure, Except.pure]
      | full =>
          have hnone : authEnabled db = false := by simpa [huser] using howner rfl
          have hempty : db.users = [] := by simpa [authEnabled] using hnone
          simp [hnone, hempty, pure, Except.pure]

theorem getProject_new {row : ProjectRow} (hprojects : db'.projects = db.projects ++ [row])
    (hnew : row.id ∉ db.projects.map (·.id)) (hbatch : row.importBatchID = none) :
    getProject db' row.id = .ok row := by
  have hnone : db.projects.find? (fun p => p.id == row.id && p.importBatchID == none) = none := by
    rw [List.find?_eq_none]
    intro q hq hmatch
    rw [Bool.and_eq_true, beq_iff_eq] at hmatch
    exact hnew (hmatch.1 ▸ List.mem_map_of_mem hq)
  rw [getProject, hprojects, List.find?_append, hnone]
  simp [hbatch]

theorem beforeStories (htables : TrelloTables db) (hp : ∀ c ∈ p.workflowColumns, IsColumnKey c.key)
    (howner : mode = .full → authEnabled db = true → ctx.userID.isSome = true)
    (hrow : insertTrelloProjectRow ctx draws db p mode = .ok (db₀, projectID))
    (hcolumns : insertWorkflowColumns db₀ projectID (workflowColumnsFromExport p.workflowColumns) = .ok db₁)
    (htiers : PrioritiesOnly db₁ db₂) : BeforeStories ctx mode projectID p db db₂ := by
  obtain ⟨row, members, hdb₀, hid, hrowid, hbatch, hanon⟩ := insertTrelloProjectRow_spec hrow
  obtain ⟨columns, hdb₁⟩ := (insertWorkflowColumns_columnsOnly hcolumns).exists_eq
  obtain ⟨priorities, hdb₂⟩ := htiers.exists_eq
  have hprojects : db₂.projects = db.projects ++ [row] := by rw [hdb₂, hdb₁, hdb₀]
  have husers : db₂.users = db.users := by rw [hdb₂, hdb₁, hdb₀]
  have htodos : db₂.todos = db.todos := by rw [hdb₂, hdb₁, hdb₀]
  have hnew : projectID ∉ db.projects.map (·.id) := hid ▸ nextRowid_not_mem _
  constructor
  · refine ⟨⟨row, ?_, hrowid, hanon⟩, (importTagUser_congr husers).trans (importTagUser_trello howner)⟩
    rw [← hrowid]
    exact getProject_new hprojects (hrowid ▸ hnew) hbatch
  · intro c hc
    rw [columnKeys_congr htiers.columns, insertWorkflowColumns_columnKeys hcolumns projectID, if_pos rfl]
    refine List.mem_append_right _ (mem_storedKeys (trimmed_valid hp) ?_)
    exact mem_backupKeys_of_valid hp hc
  · intro u hu heq
    exact hnew (heq ▸ htables.todoProjects u (htodos ▸ hu))
  · exact htodos
  · rw [hdb₂, hdb₁, hdb₀]
  · rw [hdb₂, hdb₁, hdb₀]

theorem insertTrelloColumns_ok (htables : TrelloTables db) (h : StoredForm p.workflowColumns)
    (hcomplete : Complete p.workflowColumns)
    (hrow : insertTrelloProjectRow ctx draws db p mode = .ok (db₀, projectID)) :
    ∃ db₁, insertWorkflowColumns db₀ projectID (workflowColumnsFromExport p.workflowColumns) = .ok db₁ := by
  refine insertExportedColumns_ok h hcomplete ?_
  obtain ⟨row, members, rfl, hid, _⟩ := insertTrelloProjectRow_spec hrow
  have hnew : projectID ∉ db.projects.map (·.id) := hid ▸ nextRowid_not_mem _
  rw [DB.columnKeys, DB.columnsOf, List.map_eq_nil_iff, List.filter_eq_nil_iff]
  intro c hc heq
  exact hnew (beq_iff_eq.mp heq ▸ htables.columnProjects c hc)

/-! ## The stories -/

theorem BeforeStories.insertable (hbefore : BeforeStories ctx mode projectID (b.projectExport nowMs) db db₁)
    (h : Accepted b) : ∀ t ∈ (b.projectExport nowMs).todos, Insertable projectID db₁ t := by
  intro t ht
  obtain ⟨col, hcol, hstatus⟩ := h.todos_status t ht
  have hkey : IsColumnKey col.key := h.storedForm.keys col hcol
  refine ⟨(h.todos_converted t ht).points, ?_⟩
  cases hparse : parseStatus t.status with
  | some s => rw [resolveImportColumnKey_of_parse hparse]
  | none =>
      have hback : toLower (trimSpace t.status) = col.key := hstatus ▸ hkey.toLower_trimSpace_toUpper
      rw [resolveImportColumnKey_of_mem hparse (hback ▸ hbefore.keys col hcol) (hback ▸ hkey.ne_empty)]

/-- The stories are inserted, unless the names of their tags are imported and cannot all be tags. -/
theorem BeforeStories.todos (hbefore : BeforeStories ctx mode projectID (b.projectExport nowMs) db db₁)
    (hstable : CanonicalStable rt) (htables : TrelloTables db) (h : Accepted b)
    (hnames : (trelloTagUser ctx mode).isSome = true →
      ∀ t ∈ (b.projectExport nowMs).todos, NormalTags rt t.tags) :
    ∃ db₂ rows, (b.projectExport nowMs).todos.foldlM (importTrelloTodo rt ctx projectID) db₁ = .ok db₂ ∧
      StoriesTagged rt (importOwned projectID (isOwnerless ctx mode) (trelloTagUser ctx mode))
        (trelloTagUser ctx mode).isSome (b.cardsInOrder.map b.cardTagNames) db₁ db₂ rows := by
  have hfree : ∀ u ∈ db₁.todos, u.projectID = projectID →
      u.localID ∉ (b.projectExport nowMs).todos.map (·.localID) :=
    fun u hu heq => absurd heq (hbefore.fresh u hu)
  have hrefs : ∀ r ∈ db₁.todoTags, r.todoID ∈ db₁.todos.map (·.id) := by
    rw [hbefore.todoTags_eq, hbefore.todos_eq]
    exact htables.todoTags
  obtain ⟨db₂, rows, hloop, htagged⟩ := importTrelloTodos_spec hstable hbefore.tags (hbefore.insertable h)
    (todos_localIDs b nowMs) hfree hrefs hnames
  exact ⟨db₂, rows, hloop, h.todos_tags nowMs ▸ htagged⟩

theorem tagsGoTo_of_importTrelloTodos {todos : List TodoExport} {isAnonymousBoard : Bool}
    {tagUser : Option (Option ℤ)} (hto : TagsGoTo ctx projectID isAnonymousBoard tagUser db)
    (h : todos.foldlM (importTrelloTodo rt ctx projectID) db = .ok db') :
    TagsGoTo ctx projectID isAnonymousBoard tagUser db' :=
  foldlM_inv (P := TagsGoTo ctx projectID isAnonymousBoard tagUser) (fun _ _ _ _ hs hstep => by
    obtain ⟨hprojects, husers, _⟩ := importTrelloTodo_quiet hstep
    exact hs.congr hprojects husers) hto h

/-! ## Labels -/

/-- The names of the labels can be tags and differ in more than their case, and no card has more
than twenty labels. -/
structure LabelsImportable (rt : Runtime) (b : TrelloBoard) : Prop where
  canonical : ∀ l ∈ b.boardLabels, canonicalizeTag rt (labelBaseName l) ≠ ""
  distinct : DistinctLabels b
  few : ∀ card ∈ b.cards, card.labelIDs.dedup.length ≤ 20

theorem Accepted.labelsImportable_iff (h : Accepted b) (hparen : KeepsParentheses rt) (nowMs : ℤ) :
    (∀ te ∈ (b.projectExport nowMs).tags, canonicalizeTag rt te.name ≠ "") ∧
        (∀ t ∈ (b.projectExport nowMs).todos, NormalTags rt t.tags) ↔ LabelsImportable rt b := by
  have hperm := orderBy_perm TrelloLabel.sortKey b.boardLabels
  have hnames : (∀ te ∈ (b.projectExport nowMs).tags, canonicalizeTag rt te.name ≠ "") ↔
      DistinctLabels b ∧ ∀ l ∈ b.boardLabels, canonicalizeTag rt (labelBaseName l) ≠ "" := by
    rw [projectExport_tags, List.forall_mem_map, namedLabels_canonical_iff hparen, DistinctLabels,
      (hperm.map labelKey).nodup_iff]
    simp only [mem_orderBy]
  have htags : (∀ t ∈ (b.projectExport nowMs).todos, NormalTags rt t.tags) ↔
      ∀ card ∈ b.cards, NormalTags rt (b.cardTagNames card) := by
    have hall := List.forall_mem_map (f := fun t : TodoExport => t.tags) (P := NormalTags rt)
      (l := (b.projectExport nowMs).todos)
    rw [← hall, h.todos_tags nowMs, List.forall_mem_map]
    simp only [mem_cardsInOrder]
  rw [hnames, htags]
  constructor
  · rintro ⟨⟨hdistinct, hcanonical⟩, hall⟩
    exact ⟨hcanonical, hdistinct, fun card hcard => h.length_cardTagNames hdistinct hcard ▸ (hall card hcard).1⟩
  · intro hlabels
    refine ⟨⟨hlabels.distinct, hlabels.canonical⟩, fun card hcard => ⟨?_, fun n hn => ?_⟩⟩
    · rw [h.length_cardTagNames hlabels.distinct hcard]
      exact hlabels.few card hcard
    · obtain ⟨l, hl, _, rfl⟩ := (h.mem_cardTagNames hlabels.distinct hcard n).mp hn
      exact hlabels.canonical l hl

/-- Two cards share a label. -/
def SharesLabel (c d : TrelloCard) : Prop := ∃ id ∈ c.labelIDs, id ∈ d.labelIDs

/-- The stories of two cards share a tag only if the cards share a label. The stories are the new
ones, in the order of the cards. -/
def LabelsApart (b : TrelloBoard) (db db' : DB) : Prop :=
  (b.cardsInOrder.zip (db'.todos.drop db.todos.length)).Pairwise fun x y =>
    (∃ tagID, ⟨x.2.id, tagID⟩ ∈ db'.todoTags ∧ ⟨y.2.id, tagID⟩ ∈ db'.todoTags) → SharesLabel x.1 y.1

/-- Two cards with labels whose names have one canonical form share a label. -/
def CardsApart (rt : Runtime) (b : TrelloBoard) (c d : TrelloCard) : Prop :=
  ∀ l ∈ b.boardLabels, ∀ m ∈ b.boardLabels, l.id ∈ c.labelIDs → m.id ∈ d.labelIDs →
    canonicalizeTag rt (labelBaseName l) = canonicalizeTag rt (labelBaseName m) → SharesLabel c d

def NamesApart (rt : Runtime) (b : TrelloBoard) : Prop := b.cards.Pairwise (CardsApart rt b)

theorem CardsApart.symm {c d : TrelloCard} (h : CardsApart rt b c d) : CardsApart rt b d c := by
  intro l hl m hm hld hmc heq
  obtain ⟨id, hc, hd⟩ := h m hm l hl hmc hld heq.symm
  exact ⟨id, hd, hc⟩

theorem Accepted.namesApart_iff (h : Accepted b) (hdistinct : DistinctLabels b) :
    NamesApart rt b ↔ b.cardsInOrder.Pairwise fun c d =>
      (∃ n ∈ b.cardTagNames c, ∃ m ∈ b.cardTagNames d, canonicalizeTag rt n = canonicalizeTag rt m) →
        SharesLabel c d := by
  rw [NamesApart, ← (orderBy_perm b.cardKey b.cards).pairwise_iff fun h => h.symm, TrelloBoard.cardsInOrder]
  refine List.Pairwise.iff_of_mem fun {c d} hc hd => ?_
  have hc := mem_cardsInOrder.mp hc
  have hd := mem_cardsInOrder.mp hd
  constructor
  · rintro hcd ⟨n, hn, m, hm, heq⟩
    obtain ⟨l, hl, hlc, rfl⟩ := (h.mem_cardTagNames hdistinct hc n).mp hn
    obtain ⟨l', hl', hld, rfl⟩ := (h.mem_cardTagNames hdistinct hd m).mp hm
    exact hcd l hl l' hl' hlc hld heq
  · intro hcd l hl m hm hlc hmd heq
    exact hcd ⟨_, (h.mem_cardTagNames hdistinct hc _).mpr ⟨l, hl, hlc, rfl⟩, _,
      (h.mem_cardTagNames hdistinct hd _).mpr ⟨m, hm, hmd, rfl⟩, heq⟩

theorem BeforeStories.labelsApart_iff (hbefore : BeforeStories ctx mode projectID (b.projectExport nowMs) db db₁)
    (hstable : CanonicalStable rt) (htables : TrelloTables db) (h : Accepted b)
    (hlabels : (trelloTagUser ctx mode).isSome = true → LabelsImportable rt b) {rows : List TodoRow}
    (htagged : StoriesTagged rt (importOwned projectID (isOwnerless ctx mode) (trelloTagUser ctx mode))
      (trelloTagUser ctx mode).isSome (b.cardsInOrder.map b.cardTagNames) db₁ db₂ rows)
    {tags : List TagExport} (hrest : tags.foldlM (importTag rt ctx projectID) db₂ = .ok db') :
    LabelsApart b db db' ↔ ((trelloTagUser ctx mode).isSome = true → NamesApart rt b) := by
  have hrows : db'.todos.drop db.todos.length = rows := by
    rw [(importTags_tagsOnly hrest).contentOnly.todos, htagged.todos, hbefore.todos_eq, List.drop_left]
  have hrefs : ∀ r ∈ db₁.todoTags, r.todoID ∈ db₁.todos.map (·.id) := by
    rw [hbefore.todoTags_eq, hbefore.todos_eq]
    exact htables.todoTags
  have hnames : (trelloTagUser ctx mode).isSome = true → ∀ names ∈ b.cardsInOrder.map b.cardTagNames,
      ∀ n ∈ names, canonicalizeTag rt n ≠ "" := by
    intro hsome names hmem n hn
    obtain ⟨card, hcard, rfl⟩ := List.mem_map.mp hmem
    obtain ⟨l, hl, _, rfl⟩ :=
      (h.mem_cardTagNames (hlabels hsome).distinct (mem_cardsInOrder.mp hcard) n).mp hn
    exact (hlabels hsome).canonical l hl
  have hlen : b.cardsInOrder.length = rows.length := by rw [htagged.length, List.length_map]
  have hshare : ∀ x ∈ b.cardsInOrder.zip rows, ∀ y ∈ b.cardsInOrder.zip rows,
      (∃ tagID, ⟨x.2.id, tagID⟩ ∈ db'.todoTags ∧ ⟨y.2.id, tagID⟩ ∈ db'.todoTags) ↔
        (trelloTagUser ctx mode).isSome = true ∧ ∃ n ∈ b.cardTagNames x.1, ∃ m ∈ b.cardTagNames y.1,
          canonicalizeTag rt n = canonicalizeTag rt m := by
    intro x hx y hy
    have hzip : ∀ z ∈ b.cardsInOrder.zip rows,
        (b.cardTagNames z.1, z.2) ∈ (b.cardsInOrder.map b.cardTagNames).zip rows := by
      intro z hz
      rw [List.zip_map_left]
      exact List.mem_map_of_mem (f := Prod.map b.cardTagNames id) hz
    rw [importTags_todoTags hrest]
    exact htagged.share_iff hstable hrefs (hbefore.todos_eq ▸ htables.todoIDs) (hbefore.tags_eq ▸ htables.tagIDs)
      hnames (hzip x hx) (hzip y hy)
  have hcards : ∀ R : TrelloCard → TrelloCard → Prop,
      (b.cardsInOrder.zip rows).Pairwise (fun x y => R x.1 y.1) ↔ b.cardsInOrder.Pairwise R := by
    intro R
    rw [← List.pairwise_map, List.map_fst_zip hlen.le]
  have hpairs : LabelsApart b db db' ↔ b.cardsInOrder.Pairwise fun c d =>
      ((trelloTagUser ctx mode).isSome = true ∧ ∃ n ∈ b.cardTagNames c, ∃ m ∈ b.cardTagNames d,
        canonicalizeTag rt n = canonicalizeTag rt m) → SharesLabel c d := by
    rw [LabelsApart, hrows, ← hcards]
    refine List.Pairwise.iff_of_mem fun {x y} hx hy => ?_
    rw [hshare x hx y hy]
  rw [hpairs]
  by_cases hsome : (trelloTagUser ctx mode).isSome = true
  · rw [h.namesApart_iff (hlabels hsome).distinct]
    simp only [hsome, true_and, forall_const]
  · simp [hsome, List.pairwise_of_forall]

/-! ## The import -/

/-- The importer of copies asks for a slug, which the backup of a board does not have. -/
theorem importCreateCopy_trello (rt : Runtime) (ctx : Ctx) (draws : ℕ → ProjectDraws) (db : DB) (b : TrelloBoard)
    (nowMs : ℤ) (mode : Mode) :
    importCreateCopy rt ctx draws db (b.backup nowMs) mode = .error (invalid "project missing slug") := rfl

theorem importTrelloProject_stages (h : Accepted b) (hclock : 0 ≤ nowMs ∧ nowMs ≤ ctx.nowMs) :
    importTrelloProject rt ctx draws db (b.backup nowMs) ((b.projectExport nowMs).todos.map (·.localID)) mode =
        .ok (db', projectID) ↔
      validateImportPreflight rt ctx db (b.backup nowMs) mode .copy = .ok () ∧
        ∃ db₀, insertTrelloProjectRow ctx draws db (b.projectExport nowMs) mode = .ok (db₀, projectID) ∧
          ∃ db₁, insertWorkflowColumns db₀ projectID (workflowColumnsFromExport b.workflow.columns) = .ok db₁ ∧
            ∃ db₂, (b.projectExport nowMs).todos.foldlM (importTrelloTodo rt ctx projectID)
                (ensureDefaultPriorityTiers db₁ projectID) = .ok db₂ ∧
              (b.projectExport nowMs).tags.foldlM (importTag rt ctx projectID) db₂ = .ok db' := by
  obtain ⟨keys, hkeyed⟩ := exists_boardKeyed h.workflow_errors
  have hlen : 2 ≤ (b.projectExport nowMs).workflowColumns.length := h.two_columns hkeyed
  have hmetadata : ¬ ∃ id ∈ (b.projectExport nowMs).todos.map (·.localID),
      id ∉ (b.projectExport nowMs).todos.map (·.localID) := by
    rintro ⟨id, hid, hnot⟩
    exact hnot hid
  unfold importTrelloProject
  rw [TrelloBoard.backup]
  dsimp only
  rw [← TrelloBoard.backup, h.validateBackupData hclock, ok_bind]
  simp only [bind_eq_ok, if_pos hlen, reject_eq_ok, pure_eq_ok, Prod.mk.injEq]
  constructor
  · rintro ⟨_, hpreflight, ⟨db₀, _⟩, hrow, db₁, hcolumns, db₂, htodos, _, _, _, htags, rfl, rfl⟩
    exact ⟨hpreflight, db₀, hrow, db₁, hcolumns, db₂, htodos, htags⟩
  · rintro ⟨hpreflight, db₀, hrow, db₁, hcolumns, db₂, htodos, htags⟩
    exact ⟨(), hpreflight, (db₀, projectID), hrow, db₁, hcolumns, db₂, htodos, (), hmetadata, db', htags, rfl, rfl⟩

/-- When the backup of a board that is accepted is imported with labels apart. -/
structure TrelloImportable (rt : Runtime) (ctx : Ctx) (draws : List String) (db : DB) (mode : Mode)
    (b : TrelloBoard) : Prop where
  names : ∀ l ∈ b.openLists, trimSpace l.name ≠ ""
  doneKey : b.DoneKeyFree
  size : mode = .anonymous → 1 ≤ rt.maxImportProjects ∧ b.cards.length ≤ rt.maxImportTodos
  owner : mode = .full → authEnabled db = true → ctx.userID.isSome = true
  slug : TrelloSlugFree draws db (trimSpace b.name) mode
  labels : mode = .anonymous ∨ ctx.userID.isSome = true → LabelsImportable rt b ∧ NamesApart rt b

theorem trelloTagUser_isSome_iff : (trelloTagUser ctx mode).isSome = true ↔
    mode = .anonymous ∨ ctx.userID.isSome = true := by
  unfold trelloTagUser
  split
  · exact iff_of_true rfl ‹_›
  · exact iff_of_false Bool.noConfusion ‹_›

/-- The backup of a board that is accepted is never imported as a copy, since it has no slug. As a
Trello board it is imported, with tags that two cards share only if they share a label, exactly
when the names of its open lists, its size, its owner and its slug allow it and the names of its
labels are distinct tags: each with a canonical form, none coming again in another case, at
most twenty on a card, and those of one canonical form on cards that share a label. -/
theorem trello_labels_import_iff (hstable : CanonicalStable rt) (hparen : KeepsParentheses rt)
    {data : ExportData} (haccepted : (transformBoard b nowMs).exportData = some data)
    (hclock : 0 ≤ nowMs ∧ nowMs ≤ ctx.nowMs) (htables : TrelloTables db) :
    (∀ copyDraws out, importCreateCopy rt ctx copyDraws db data mode ≠ .ok out) ∧
      ((∃ db' id, importTrelloProject rt ctx draws db data (transformBoard b nowMs).metadataLocalIDs mode =
          .ok (db', id) ∧ LabelsApart b db db') ↔ TrelloImportable rt ctx draws db mode b) := by
  obtain ⟨h, rfl⟩ := transformBoard_accepted haccepted
  have hids : (transformBoard b nowMs).metadataLocalIDs = (b.projectExport nowMs).todos.map (·.localID) := by
    rw [transformBoard, if_neg (not_not.mpr h.hardErrors), if_neg (not_not.mpr h.cardErrors)]
  constructor
  · intro copyDraws out hok
    have hcopy := importCreateCopy_trello rt ctx copyDraws db b nowMs mode
    cases hok.symm.trans hcopy
  rw [hids]
  have hvalid : ∀ c ∈ (b.projectExport nowMs).workflowColumns, IsColumnKey c.key := h.storedForm.keys
  constructor
  · rintro ⟨db', id, himport, hapart⟩
    obtain ⟨hpreflight, db₀, hrow, db₁, hcolumns, db₂, htodos, htags⟩ :=
      (importTrelloProject_stages h hclock).mp himport
    obtain ⟨hcomplete, hsize⟩ := h.preflight_iff.mp hpreflight
    obtain ⟨hnames, hfree⟩ := h.complete_iff.mp hcomplete
    have hrow' := (insertTrelloProjectRow_isOk_iff (p := b.projectExport nowMs)
      (by rw [TrelloBoard.projectExport, trimSpace_trimSpace]; exact h.name_ne_empty)).mp ⟨_, hrow⟩
    have hbefore := beforeStories htables hvalid hrow'.1 hrow hcolumns
      (ensureDefaultPriorityTiers_prioritiesOnly db₁ id)
    have hto := tagsGoTo_of_importTrelloTodos hbefore.tags htodos
    have hlabels : (trelloTagUser ctx mode).isSome = true → LabelsImportable rt b := by
      intro hsome
      refine (h.labelsImportable_iff hparen nowMs).mp
        ⟨(importTags_isOk_iff hstable hto).mp ⟨db', htags⟩ hsome, ?_⟩
      obtain ⟨userID, huser⟩ := Option.isSome_iff_exists.mp hsome
      exact normalTags_of_importTrelloTodos (huser ▸ hbefore.tags) htodos
    obtain ⟨_, rows, htodos', htagged⟩ := hbefore.todos hstable htables h fun hsome =>
      ((h.labelsImportable_iff hparen nowMs).mpr (hlabels hsome)).2
    cases htodos.symm.trans htodos'
    have hnamesApart := (hbefore.labelsApart_iff hstable htables h hlabels htagged htags).mp hapart
    refine ⟨hnames, hfree, hsize, hrow'.1, ?_, fun huser => ?_⟩
    · have hslug := hrow'.2
      rwa [TrelloBoard.projectExport, trimSpace_trimSpace] at hslug
    · have hsome := trelloTagUser_isSome_iff.mpr huser
      exact ⟨hlabels hsome, hnamesApart hsome⟩
  · intro hc
    have hcomplete : Complete (b.projectExport nowMs).workflowColumns := h.complete_iff.mpr ⟨hc.names, hc.doneKey⟩
    have hname : trimSpace (b.projectExport nowMs).name = trimSpace b.name := trimSpace_trimSpace b.name
    obtain ⟨⟨db₀, id⟩, hrow⟩ : ∃ out, insertTrelloProjectRow ctx draws db (b.projectExport nowMs) mode = .ok out :=
      (insertTrelloProjectRow_isOk_iff (hname ▸ h.name_ne_empty)).mpr ⟨hc.owner, hname ▸ hc.slug⟩
    obtain ⟨db₁, hcolumns⟩ := insertTrelloColumns_ok htables h.storedForm hcomplete hrow
    have hbefore := beforeStories htables hvalid hc.owner hrow hcolumns
      (ensureDefaultPriorityTiers_prioritiesOnly db₁ id)
    have hlabels : (trelloTagUser ctx mode).isSome = true → LabelsImportable rt b := fun hsome =>
      (hc.labels (trelloTagUser_isSome_iff.mp hsome)).1
    obtain ⟨db₂, rows, htodos, htagged⟩ := hbefore.todos hstable htables h fun hsome =>
      ((h.labelsImportable_iff hparen nowMs).mpr (hlabels hsome)).2
    have hto := tagsGoTo_of_importTrelloTodos hbefore.tags htodos
    obtain ⟨db', htags⟩ : ∃ db', (b.projectExport nowMs).tags.foldlM (importTag rt ctx id) db₂ = .ok db' :=
      (importTags_isOk_iff hstable hto).mpr fun hsome =>
        ((h.labelsImportable_iff hparen nowMs).mpr (hlabels hsome)).1
    refine ⟨db', id, (importTrelloProject_stages h hclock).mpr
      ⟨h.preflight_iff.mpr ⟨hcomplete, hc.size⟩, db₀, hrow, db₁, hcolumns, db₂, htodos, htags⟩, ?_⟩
    refine (hbefore.labelsApart_iff hstable htables h hlabels htagged htags).mpr fun hsome => ?_
    exact (hc.labels (trelloTagUser_isSome_iff.mp hsome)).2

end

/-- A runtime for texts of lower-case letters. -/
def wordRuntime : Runtime :=
  { plainRuntime with nfc := fun s => if s.toList.all Char.isLower then s else "(" }

theorem wordRuntime_nfc (s : String) :
    wordRuntime.nfc s = if s.toList.all Char.isLower then s else "(" := rfl

theorem keepsParentheses_word : KeepsParentheses wordRuntime := by
  intro s hmem
  have hnot : ¬ s.toList.all Char.isLower = true := by
    intro hall
    exact absurd (List.all_eq_true.mp hall '(' hmem) (by decide)
  rw [wordRuntime_nfc, if_neg hnot]
  decide

theorem lower_spec {c : Char} (h : c.isLower = true) :
    toLowerRune c = c ∧ isSpace c = false ∧ c ≠ '-' ∧ isLetter c = true := by
  have hlt : c.toNat < 128 := by
    have h : (decide ('a'.val ≤ c.val) && decide (c.val ≤ 'z'.val)) = true := h
    simp only [Bool.and_eq_true, decide_eq_true_eq, UInt32.le_iff_toNat_le] at h
    exact lt_of_le_of_lt h.2 (by decide)
  have hall : ∀ n < 128, (Char.ofNat n).isLower = true → toLowerRune (Char.ofNat n) = Char.ofNat n ∧
      isSpace (Char.ofNat n) = false ∧ Char.ofNat n ≠ '-' ∧ isLetter (Char.ofNat n) = true := by
    decide +kernel
  exact forall_ascii (P := fun c => c.isLower = true → toLowerRune c = c ∧ isSpace c = false ∧ c ≠ '-' ∧
    isLetter c = true) hall c hlt h

theorem canonicalizeTag_word {s : String} (h : s.toList.all Char.isLower = true) (hne : s ≠ "") :
    canonicalizeTag wordRuntime s = if maxTagRunes < s.toList.length then "" else s := by
  have hlower : ∀ c ∈ s.toList, c.isLower = true := List.all_eq_true.mp h
  have htrim : trimSpace s = s := trimSpace_eq_self s fun c hc => (lower_spec (hlower c hc)).2.1
  have hsame : toLower s = s := by
    rw [toLower]
    exact mapRunes_eq_self _ _ fun c hc => (lower_spec (hlower c hc)).1
  have hscan : ∀ (l : List Char) (t : TagScan), (∀ c ∈ l, c.isLower = true) → t.pendingHyphen = false →
      ∃ base, l.foldlM TagScan.step t = some ⟨l.reverse ++ t.written, false, base⟩ := by
    intro l
    induction l with
    | nil => exact fun t _ ht => ⟨t.hasBase, by rw [List.foldlM_nil, ← ht]; rfl⟩
    | cons c l ih =>
        intro t hl ht
        obtain ⟨hc, hl⟩ := List.forall_mem_cons.mp hl
        obtain ⟨_, hspace, hhyphen, hletter⟩ := lower_spec hc
        obtain ⟨base, hrest⟩ := ih ⟨c :: t.written, false, true⟩ hl rfl
        refine ⟨base, ?_⟩
        have hstep : t.step c = some ⟨c :: t.written, false, true⟩ := by
          simp [TagScan.step, hspace, hhyphen, hletter, ht]
        rw [List.foldlM_cons, hstep, List.reverse_cons, List.append_assoc]
        exact hrest
  obtain ⟨base, hfold⟩ := hscan s.toList {} hlower rfl
  rw [List.append_nil] at hfold
  have hnfc : wordRuntime.nfc s = s := by rw [wordRuntime_nfc, if_pos h]
  rw [canonicalizeTag, htrim, if_neg hne, hnfc, hsame, hnfc, hfold]
  simp

theorem canonicalStable_word : CanonicalStable wordRuntime := by
  intro name hname
  have htrim : canonicalizeTag wordRuntime name = canonicalizeTag wordRuntime (trimSpace name) := by
    rw [canonicalizeTag, canonicalizeTag, trimSpace_trimSpace]
  by_cases hne : trimSpace name = ""
  · simp [canonicalizeTag, hne] at hname
  · by_cases hword : (trimSpace name).toList.all Char.isLower = true
    · rw [htrim, canonicalizeTag_word hword hne] at hname ⊢
      split at hname
      · exact absurd rfl hname
      · next hlen => rw [if_neg hlen, canonicalizeTag_word hword hne, if_neg hlen]
    · have hparen : wordRuntime.nfc (toLower "(") = "(" := by decide +kernel
      have hnone : "(".toList.foldlM TagScan.step {} = none := by decide +kernel
      simp only [canonicalizeTag, if_neg hne, wordRuntime_nfc (trimSpace name), if_neg hword, hparen, hnone] at hname
      exact absurd rfl hname

/-- Two labels on three cards. -/
def labelledBoard : TrelloBoard where
  name := "Plans"
  lists := [{ id := "5f0e1", name := "To do", pos := 1 }, { id := "5f0e2", name := "Done", pos := 2 }]
  labels := [{ id := "7c01", name := "bug", color := "red" }, { id := "7c02", name := "idea" }]
  cards := [{ id := "6c01", name := "Write", idList := "5f0e1", pos := 1, idLabels := ["7c01"] },
    { id := "6c02", name := "Read", idList := "5f0e1", pos := 2, idLabels := ["7c01", "7c02"] },
    { id := "6c03", name := "Dream", idList := "5f0e2", pos := 1 }]

theorem trello_labels_import_labelled :
    (transformBoard labelledBoard 5).exportData = some (labelledBoard.backup 5) ∧
      ∃ db' id, importTrelloProject wordRuntime ⟨none, 5⟩ ["k3x9"] {} (labelledBoard.backup 5)
          (transformBoard labelledBoard 5).metadataLocalIDs .anonymous = .ok (db', id) ∧
        LabelsApart labelledBoard {} db' := by
  have hdata : (transformBoard labelledBoard 5).exportData = some (labelledBoard.backup 5) :=
    exportData_eq_backup (by decide +kernel)
  have htables : TrelloTables {} :=
    ⟨List.nodup_nil, List.nodup_nil, List.forall_mem_nil _, List.forall_mem_nil _, List.forall_mem_nil _⟩
  have hfree : labelledBoard.DoneKeyFree := by
    have hids : ∀ l ∈ labelledBoard.openLists, l.id ≠ syntheticDoneListID := by decide +kernel
    have hmany : labelledBoard.openLists.length ≠ 1 := by decide +kernel
    rw [TrelloBoard.DoneKeyFree, if_neg hmany]
    intro pre l post heq hid
    exact absurd hid (hids l (heq ▸ List.mem_append_right pre List.mem_cons_self))
  have hlabels : LabelsImportable wordRuntime labelledBoard :=
    ⟨by decide +kernel, by unfold DistinctLabels; decide +kernel, by decide +kernel⟩
  have hapart : NamesApart wordRuntime labelledBoard := by
    unfold NamesApart CardsApart SharesLabel
    decide +kernel
  have hslug : TrelloSlugFree ["k3x9"] {} (trimSpace labelledBoard.name) .anonymous := by
    rw [TrelloSlugFree, if_pos rfl]
    decide +kernel
  refine ⟨hdata, (trello_labels_import_iff canonicalStable_word keepsParentheses_word hdata
    (by decide) htables).2.mpr ⟨by decide +kernel, hfree, fun _ => by decide +kernel, Mode.noConfusion, hslug, ?_⟩⟩
  exact fun _ => ⟨hlabels, hapart⟩

/-- The board with two labels of one name. -/
def twinBoard : TrelloBoard :=
  { labelledBoard with labels := [{ id := "7c01", name := "bug", color := "red" }, { id := "7c02", name := "bug" }] }

/-- The second label of the name gets a number in parentheses, which no tag has. -/
theorem twin_labels_stop_import :
    ¬ ∀ (rt : Runtime) (ctx : Ctx) (draws : List String) (db : DB) (mode : Mode) (b : TrelloBoard) (nowMs : ℤ)
        (data : ExportData), CanonicalStable rt → KeepsParentheses rt →
        (transformBoard b nowMs).exportData = some data → 0 ≤ nowMs ∧ nowMs ≤ ctx.nowMs → TrelloTables db →
        ∃ db', ((∃ id, importTrelloProject rt ctx draws db data (transformBoard b nowMs).metadataLocalIDs mode =
            .ok (db', id)) ∨ ∃ copyDraws r, importCreateCopy rt ctx copyDraws db data mode = .ok (db', r)) ∧
          LabelsApart b db db' := by
  intro h
  have hdata : (transformBoard twinBoard 5).exportData = some (twinBoard.backup 5) :=
    exportData_eq_backup (by decide +kernel)
  have htables : TrelloTables {} :=
    ⟨List.nodup_nil, List.nodup_nil, List.forall_mem_nil _, List.forall_mem_nil _, List.forall_mem_nil _⟩
  obtain ⟨db', himport, _⟩ := h wordRuntime ⟨none, 5⟩ ["k3x9"] {} .anonymous twinBoard 5 _ canonicalStable_word
    keepsParentheses_word hdata (by decide) htables
  rcases himport with ⟨id, himport⟩ | ⟨copyDraws, r, hcopy⟩
  · have herror : (importTrelloProject wordRuntime ⟨none, 5⟩ ["k3x9"] {} (twinBoard.backup 5)
        (transformBoard twinBoard 5).metadataLocalIDs .anonymous).isOk = false := by decide +kernel
    rw [himport] at herror
    cases herror
  · cases hcopy.symm.trans (importCreateCopy_trello wordRuntime ⟨none, 5⟩ copyDraws {} twinBoard 5 .anonymous)

end Scrumboy
