import Scrumboy.Store.Actions
import Scrumboy.Store.Placement
import Scrumboy.Sql.Keyset

/-!
# Links and the calls behind them

`ListLinksForTodo` and `ListBacklinksForTodo`, and the table of links as a record of the
calls that made it. A link is stored under its two ends and the type is no part of the key:
`INSERT OR IGNORE` leaves the type of a link that is there already, and `AddLink` reports
success. So the first call for a pair decides the type of its link, until the link is removed
or an end of it is deleted.
-/

set_option linter.dupNamespace false

namespace Scrumboy

open Go Sql Transition

structure TodoLinkTarget where
  localID : ℤ
  title : String
  linkType : String
  archivedAt : Option ℤ
  deriving DecidableEq, Repr

/-- The links of a todo at their end `near`, joined with the todos at their end `far`. -/
def linkTargets (db : DB) (projectID : ℤ) (near far : LinkRow → ℤ) (localID : ℤ) :
    List TodoLinkTarget :=
  orderBy (·.localID)
    ((db.links.filter fun l => l.projectID == projectID && near l == localID).flatMap fun l =>
      (db.todos.filter fun t => t.projectID == l.projectID && t.localID == far l).map fun t =>
        ⟨t.localID, t.title, l.linkType, t.archivedAt⟩)

def listLinksForTodo (ctx : Ctx) (db : DB) (projectID localID : ℤ) :
    Result (List TodoLinkTarget) := do
  let _ ← getProjectForRead ctx db projectID
  pure (linkTargets db projectID (·.fromLocalID) (·.toLocalID) localID)

def listBacklinksForTodo (ctx : Ctx) (db : DB) (projectID localID : ℤ) :
    Result (List TodoLinkTarget) := do
  let _ ← getProjectForRead ctx db projectID
  pure (linkTargets db projectID (·.toLocalID) (·.fromLocalID) localID)

/-! ## Histories -/

/-- The type that a link gets when none is given. -/
def givenLinkType (linkType : String) : String := if linkType = "" then "relates_to" else linkType

/-- A call on the links of a project, or on a todo of it, that succeeded. -/
inductive LinkEvent
  | added (source target : ℤ) (linkType : String)
  | removed (source target : ℤ)
  | deleted (localID : ℤ)
  deriving DecidableEq, Repr

/-- The type of the link from `source` to `target` behind a call. -/
def LinkEvent.after (source target : ℤ) (before : Option String) : LinkEvent → Option String
  | .added s t linkType => if s = source ∧ t = target then some (before.getD linkType) else before
  | .removed s t => if s = source ∧ t = target then none else before
  | .deleted localID => if localID = source ∨ localID = target then none else before

/-- The type of the first call for the pair that was not followed by the removal of the link
or by the deletion of an end. -/
def writtenLink (events : List LinkEvent) (source target : ℤ) : Option String :=
  events.foldl (LinkEvent.after source target) none

/-- The call that an action is to the links of a project. -/
def Action.linkEvent (db : DB) (projectID : ℤ) : Action → Option LinkEvent
  | .addLink id source target linkType =>
      if id = projectID then some (.added source target (givenLinkType linkType)) else none
  | .removeLink id source target => if id = projectID then some (.removed source target) else none
  | .request (.deleteTodo todoID) =>
      (getTodo db todoID).toOption.bind fun t =>
        if t.projectID = projectID then some (.deleted t.localID) else none
  | _ => none

/-- The calls that succeed in a step. -/
def linkEvents (rt : Runtime) (projectID : ℤ) (db : DB) (a : Ctx × Action) : List LinkEvent :=
  if (a.2.exec rt a.1 db).toBool then (a.2.linkEvent db projectID).toList else []

/-- The calls that succeed in a run. -/
def linkHistory (rt : Runtime) (projectID : ℤ) : DB → List (Ctx × Action) → List LinkEvent :=
  outputs (act rt) (linkEvents rt projectID)

/-- What the lists of links say about the calls that succeeded. -/
structure LinksReadBack (db : DB) (projectID : ℤ) (events : List LinkEvent) : Prop where
  links : ∀ ctx localID rows, listLinksForTodo ctx db projectID localID = .ok rows →
    (rows.map (·.localID)).Pairwise (· < ·) ∧ ∀ target linkType,
      (∃ r ∈ rows, r.localID = target ∧ r.linkType = linkType) ↔
        writtenLink events localID target = some linkType
  backlinks : ∀ ctx localID rows, listBacklinksForTodo ctx db projectID localID = .ok rows →
    (rows.map (·.localID)).Pairwise (· < ·) ∧ ∀ source linkType,
      (∃ r ∈ rows, r.localID = source ∧ r.linkType = linkType) ↔
        ∃ links, listLinksForTodo ctx db projectID source = .ok links ∧
          ∃ r ∈ links, r.localID = localID ∧ r.linkType = linkType
  irreflexive : ∀ ctx localID rows, listLinksForTodo ctx db projectID localID = .ok rows →
    ∀ r ∈ rows, r.localID ≠ localID

/-! ## What a call does to the links -/

def DB.linksOf (db : DB) (projectID : ℤ) : List LinkRow :=
  db.links.filter fun l => l.projectID == projectID

/-- The links of a project behind a call. An insert for a pair that is there is ignored. -/
def LinkEvent.store (projectID nowMs : ℤ) (links : List LinkRow) : LinkEvent → List LinkRow
  | .added source target linkType =>
      if links.any (LinkRow.isBetween projectID source target) then links
      else links ++ [⟨projectID, source, target, linkType, nowMs⟩]
  | .removed source target => deleteWhere (LinkRow.isBetween projectID source target) links
  | .deleted localID =>
      deleteWhere (fun l => l.fromLocalID == localID || l.toLocalID == localID) links

section

variable {rt : Runtime} {ctx : Ctx} {db db' : DB} {projectID : ℤ}

theorem mem_linksOf {l : LinkRow} : l ∈ db.linksOf projectID ↔ l ∈ db.links ∧ l.projectID = projectID := by
  simp [DB.linksOf]

theorem linksOf_congr (h : db'.links = db.links) : db'.linksOf projectID = db.linksOf projectID :=
  congrArg (List.filter fun l : LinkRow => l.projectID == projectID) h

theorem isBetween_iff {source target : ℤ} {l : LinkRow} :
    l.isBetween projectID source target = true ↔
      l.projectID = projectID ∧ l.fromLocalID = source ∧ l.toLocalID = target := by
  simp [LinkRow.isBetween, and_assoc]

/-- The links of a project that hold a condition under which no other project has any. -/
theorem any_linksOf {p : LinkRow → Bool} (h : ∀ l, p l = true → l.projectID = projectID) :
    (db.linksOf projectID).any p = db.links.any p := by
  rw [Bool.eq_iff_iff, List.any_eq_true, List.any_eq_true]
  constructor
  · rintro ⟨l, hl, hp⟩
    exact ⟨l, (mem_linksOf.mp hl).1, hp⟩
  · rintro ⟨l, hl, hp⟩
    exact ⟨l, mem_linksOf.mpr ⟨hl, h l hp⟩, hp⟩

theorem linksOf_deleteWhere {p q : LinkRow → Bool} (h : ∀ l : LinkRow, l.projectID = projectID → p l = q l) :
    (deleteWhere p db.links).filter (fun l => l.projectID == projectID) =
      deleteWhere q (db.linksOf projectID) := by
  rw [deleteWhere, deleteWhere, DB.linksOf, List.filter_filter, List.filter_filter]
  apply List.filter_congr
  intro l _
  by_cases hl : l.projectID = projectID
  · rw [h l hl, Bool.and_comm]
  · rw [beq_eq_false_iff_ne.mpr hl, Bool.and_false]
    rfl

theorem addLink_linksOf {id source target : ℤ} {linkType : String}
    (h : addLink ctx db id source target linkType = .ok db') :
    db'.linksOf projectID =
      if id = projectID then
        LinkEvent.store projectID ctx.nowMs (db.linksOf projectID) (.added source target (givenLinkType linkType))
      else db.linksOf projectID := by
  simp only [addLink, bind_eq_ok, pure_eq_ok] at h
  obtain ⟨_, _, _, _, _, _, _, _, _, _, _, _, rfl⟩ := h
  by_cases hid : id = projectID
  · subst hid
    rw [if_pos rfl, LinkEvent.store, any_linksOf fun l hl => (isBetween_iff.mp hl).1]
    split
    · rfl
    · simp [DB.linksOf, givenLinkType]
  · rw [if_neg hid]
    split
    · rfl
    · simp [DB.linksOf, hid]

theorem removeLink_linksOf {id source target : ℤ} (h : removeLink ctx db id source target = .ok db') :
    db'.linksOf projectID =
      if id = projectID then
        LinkEvent.store projectID ctx.nowMs (db.linksOf projectID) (.removed source target)
      else db.linksOf projectID := by
  simp only [removeLink, bind_eq_ok, pure_eq_ok] at h
  obtain ⟨_, _, _, _, _, _, rfl⟩ := h
  split
  · rename_i hid
    subst hid
    exact linksOf_deleteWhere fun _ _ => rfl
  · rename_i hid
    apply filter_deleteWhere
    intro l _ hl
    rw [beq_iff_eq] at hl
    rw [← Bool.not_eq_true, isBetween_iff]
    exact fun hbetween => hid (hbetween.1.symm.trans hl)

theorem deleteTodo_linksOf (projectID : ℤ) {todoID : ℤ} (h : deleteTodo ctx db todoID = .ok db') :
    ∃ t, getTodo db todoID = .ok t ∧ db'.linksOf projectID =
      if t.projectID = projectID then
        LinkEvent.store projectID ctx.nowMs (db.linksOf projectID) (.deleted t.localID)
      else db.linksOf projectID := by
  simp only [deleteTodo, bind_eq_ok, pure_eq_ok] at h
  obtain ⟨t, hget, p, _, _, _, db₁, hbump, hdb⟩ := h
  refine ⟨t, hget, ?_⟩
  obtain ⟨_, rfl⟩ := (ActivityOnly.of_touch hdb).exists_eq
  obtain ⟨_, hremove, _⟩ := removeWallStoryEdges_spec (deleteTodoRow (deleteTodoLinks db t) todoID)
    t.projectID (formatWallStoryEndpoint t.localID)
  rw [hremove] at hbump
  obtain ⟨⟨_, rfl⟩, _⟩ := bumpWallAfterDelete_spec hbump
  split
  · rename_i hid
    refine linksOf_deleteWhere fun l hl => ?_
    simp [hl, hid]
  · rename_i hid
    apply filter_deleteWhere
    intro l _ hl
    rw [beq_iff_eq] at hl
    have hne : l.projectID ≠ t.projectID := fun heq => hid (heq.symm.trans hl)
    simp [hne]

theorem SideTables.links_eq (h : SideTables db db') : db'.links = db.links := by
  rw [h]

/-- A request that deletes no todo leaves the links alone. -/
theorem Request.exec_links {r : Request} (h : r.exec rt ctx db = .ok db')
    (hr : ∀ todoID, r ≠ .deleteTodo todoID) : db'.links = db.links := by
  cases r with
  | createProject name workflow =>
      obtain ⟨out, hout, rfl⟩ := map_eq_ok.mp h
      obtain ⟨⟨_, _, _, _, heq⟩, _⟩ := createProjectWithWorkflow_spec hout
      rw [heq]
  | addWorkflowColumn id name =>
      obtain ⟨out, hout, rfl⟩ := map_eq_ok.mp h
      rw [(addWorkflowColumn_spec hout).1]
  | deleteWorkflowColumn id key => rw [deleteWorkflowColumn_columnsOnly h]
  | createTodo id input =>
      obtain ⟨⟨db', todo⟩, hout, rfl⟩ := map_eq_ok.mp h
      obtain ⟨_, _, _, _, _, hside, _⟩ := createTodo_spec hout
      exact hside.links_eq
  | moveTodo todoID toColumnKey afterID beforeID =>
      obtain ⟨⟨db', row⟩, hout, rfl⟩ := map_eq_ok.mp h
      obtain ⟨_, _, _, _, _, _, _, _, _, _, hside, _⟩ := moveTodo_spec hout
      exact hside.links_eq
  | deleteTodo todoID => exact absurd rfl (hr todoID)
  | archiveTodos id ids archive =>
      obtain ⟨out, hout, rfl⟩ := map_eq_ok.mp h
      exact (archiveTodosByLocalID_spec hout).1.links_eq
  | _ =>
      obtain ⟨_, _, rfl⟩ := (Request.exec_wallOnly rfl rfl h).exists_eq
      rfl

/-- The links of a project behind an action: those that its call leaves. -/
theorem Action.exec_linksOf {a : Action} (h : a.exec rt ctx db = .ok db') :
    db'.linksOf projectID =
      (a.linkEvent db projectID).toList.foldl (LinkEvent.store projectID ctx.nowMs) (db.linksOf projectID) := by
  cases a with
  | request r =>
      have hrequest : r.exec rt ctx db = .ok db' := h
      cases r with
      | deleteTodo todoID =>
          obtain ⟨t, hget, heq⟩ := deleteTodo_linksOf projectID hrequest
          rw [heq, linkEvent, hget]
          simp only [Except.toOption, Option.bind_some]
          split <;> rfl
      | _ => exact linksOf_congr (Request.exec_links hrequest fun _ hdelete => nomatch hdelete)
  | addLink id source target linkType =>
      rw [addLink_linksOf h, linkEvent]
      split <;> rfl
  | removeLink id source target =>
      rw [removeLink_linksOf h, linkEvent]
      split <;> rfl
  | updateTodo todoID input =>
      obtain ⟨⟨db', todo⟩, hout, rfl⟩ := map_eq_ok.mp h
      obtain ⟨_, _, _, _, _, hside, _⟩ := updateTodo_spec hout
      exact linksOf_congr hside.links_eq
  | addMember requesterID id targetUserID role =>
      simp only [exec, addProjectMember, bind_eq_ok, pure_eq_ok] at h
      obtain ⟨_, _, _, _, _, _, _, _, rfl⟩ := h
      rfl
  | changeMember req =>
      rcases MemberRequest.exec_eq_ok h with rfl | ⟨_, hcommit⟩
      · rfl
      · unfold MemberRequest.commit at hcommit
        split at hcommit
        · cases hcommit
        · cases req with
          | remove requesterID id targetUserID =>
              cases hcommit
              rfl
          | updateRole requesterID id targetUserID newRole =>
              cases hcommit
              rfl
  | addPriorityTier id name =>
      obtain ⟨_, rfl⟩ := (addPriorityTier_prioritiesOnly h).exists_eq
      rfl
  | deletePriorityTier id key =>
      obtain ⟨_, rfl⟩ := (deletePriorityTier_prioritiesOnly h).exists_eq
      rfl
  | claimDueReminders setting limit =>
      obtain ⟨⟨db', reminders⟩, hout, rfl⟩ := map_eq_ok.mp h
      simp only [Scrumboy.claimDueReminders, bind_eq_ok] at hout
      obtain ⟨leadHours, _, hout⟩ := hout
      split at hout
      · rw [pure_eq_ok, Prod.mk.injEq] at hout
        rw [← hout.1]
        rfl
      · simp only [bind_eq_ok, pure_eq_ok, Prod.mk.injEq] at hout
        obtain ⟨_, _, hdb, _⟩ := hout
        rw [← hdb]
        rfl

theorem act_linksOf (rt : Runtime) (db : DB) (projectID : ℤ) (a : Ctx × Action) :
    (act rt db a).linksOf projectID =
      (linkEvents rt projectID db a).foldl (LinkEvent.store projectID a.1.nowMs) (db.linksOf projectID) := by
  unfold act linkEvents
  cases hexec : a.2.exec rt a.1 db with
  | error e => rfl
  | ok db' => exact Action.exec_linksOf hexec

end

/-! ## What holds in every run -/

/-- The links of a project join different todos of it, and no pair twice. -/
structure LinkShape (db : DB) (projectID : ℤ) : Prop where
  keys : ((db.linksOf projectID).map fun l => (l.fromLocalID, l.toLocalID)).Nodup
  ends : ∀ l ∈ db.linksOf projectID, ∀ n, n = l.fromLocalID ∨ n = l.toLocalID →
    ∃ t ∈ db.todos, t.projectID = projectID ∧ t.localID = n
  ne : ∀ l ∈ db.linksOf projectID, l.fromLocalID ≠ l.toLocalID

section

variable {rt : Runtime} {db : DB} {projectID : ℤ}

theorem LinkShape.of_fresh (h : ∀ l ∈ db.links, l.projectID ≠ projectID) : LinkShape db projectID := by
  have hnil : db.linksOf projectID = [] := by
    rw [DB.linksOf, List.filter_eq_nil_iff]
    intro l hl
    simpa using h l hl
  exact ⟨by simp [hnil], by simp [hnil], by simp [hnil]⟩

theorem LinkShape.eq_of_ends (h : LinkShape db projectID) {l l' : LinkRow} (hl : l ∈ db.linksOf projectID)
    (hl' : l' ∈ db.linksOf projectID) (hsource : l.fromLocalID = l'.fromLocalID)
    (htarget : l.toLocalID = l'.toLocalID) : l = l' :=
  List.inj_on_of_nodup_map h.keys hl hl' (Prod.ext hsource htarget)

/-- A call keeps the keys apart. -/
theorem nodup_store {links : List LinkRow} {nowMs : ℤ} (hproject : ∀ l ∈ links, l.projectID = projectID)
    (h : (links.map fun l => (l.fromLocalID, l.toLocalID)).Nodup) (e : LinkEvent) :
    ((e.store projectID nowMs links).map fun l => (l.fromLocalID, l.toLocalID)).Nodup := by
  cases e with
  | added source target linkType =>
      rw [LinkEvent.store]
      split
      · exact h
      · rename_i hnone
        rw [List.map_append, List.map_singleton, List.nodup_append]
        refine ⟨h, List.nodup_singleton _, ?_⟩
        rintro k hk k' hk' rfl
        obtain ⟨l, hl, hkey⟩ := List.mem_map.mp hk
        obtain ⟨hsource, htarget⟩ := Prod.mk.inj (hkey.trans (List.mem_singleton.mp hk'))
        exact hnone (List.any_eq_true.mpr ⟨l, hl, isBetween_iff.mpr ⟨hproject l hl, hsource, htarget⟩⟩)
  | removed source target => exact h.sublist (List.filter_sublist.map _)
  | deleted localID => exact h.sublist (List.filter_sublist.map _)

/-- A link behind a call was there before, or the call adds it. -/
theorem mem_store {links : List LinkRow} {nowMs : ℤ} {e : LinkEvent} {l : LinkRow}
    (hl : l ∈ e.store projectID nowMs links) :
    l ∈ links ∨ ∃ linkType, e = .added l.fromLocalID l.toLocalID linkType := by
  cases e with
  | added source target linkType =>
      rw [LinkEvent.store] at hl
      split at hl
      · exact .inl hl
      · rcases List.mem_append.mp hl with hl | hl
        · exact .inl hl
        · rw [List.mem_singleton.mp hl]
          exact .inr ⟨linkType, rfl⟩
  | removed source target => exact .inl (mem_deleteWhere.mp hl).1
  | deleted localID => exact .inl (mem_deleteWhere.mp hl).1

theorem checkLinkEnds_eq_ok {source target : ℤ} (h : checkLinkEnds db projectID source target = .ok ()) :
    ∀ n, n = source ∨ n = target → ∃ t ∈ db.todos, t.projectID = projectID ∧ t.localID = n := by
  have hrow : ∀ {n : ℤ} {t : TodoRow}, getTodoRowByLocalID db projectID n = .ok t →
      ∃ t ∈ db.todos, t.projectID = projectID ∧ t.localID = n := by
    intro n t hget
    unfold getTodoRowByLocalID todoByLocalID at hget
    split at hget
    · rename_i u hfind
      have hsel := List.find?_some hfind
      simp only [Bool.and_eq_true, beq_iff_eq] at hsel
      exact ⟨u, List.mem_of_find?_eq_some hfind, hsel⟩
    · cases hget
  simp only [checkLinkEnds, bind_eq_ok] at h
  obtain ⟨_, hsource, _, htarget, _⟩ := h
  rintro n (rfl | rfl)
  · exact hrow hsource
  · exact hrow htarget

theorem added_mem_linkEvent {a : Action} {source target : ℤ} {linkType : String}
    (h : .added source target linkType ∈ (a.linkEvent db projectID).toList) :
    ∃ given, a = .addLink projectID source target given ∧ linkType = givenLinkType given := by
  rw [Option.mem_toList] at h
  cases a with
  | addLink id s t given =>
      rw [Action.linkEvent] at h
      split at h
      · rename_i hid
        cases h
        exact ⟨given, by rw [hid], rfl⟩
      · cases h
  | request r =>
      cases r with
      | deleteTodo todoID =>
          obtain ⟨t, _, ht⟩ := Option.bind_eq_some_iff.mp h
          split at ht <;> cases ht
      | _ => cases h
  | removeLink id s t =>
      rw [Action.linkEvent] at h
      split at h <;> cases h
  | _ => cases h

/-- The step behind a link that is added. -/
theorem added_mem_linkEvents {a : Ctx × Action} {source target : ℤ} {linkType : String}
    (h : .added source target linkType ∈ linkEvents rt projectID db a) :
    ∃ given, addLink a.1 db projectID source target given = .ok (act rt db a) := by
  unfold linkEvents at h
  split at h
  · rename_i hok
    obtain ⟨db', hexec⟩ := exists_of_isOk hok
    obtain ⟨given, ha, _⟩ := added_mem_linkEvent h
    have hact : act rt db a = db' := by rw [act, hexec]; rfl
    rw [ha] at hexec
    exact ⟨given, hact ▸ hexec⟩
  · cases h

/-- The ends of a link that a call adds. -/
theorem ends_of_added {a : Ctx × Action} {source target : ℤ} {linkType : String}
    (h : .added source target linkType ∈ linkEvents rt projectID db a) :
    source ≠ target ∧ (act rt db a).todos = db.todos ∧
      ∀ n, n = source ∨ n = target → ∃ t ∈ db.todos, t.projectID = projectID ∧ t.localID = n := by
  obtain ⟨given, hadd⟩ := added_mem_linkEvents h
  simp only [addLink, bind_eq_ok, reject_eq_ok, pure_eq_ok] at hadd
  obtain ⟨_, hne, _, _, _, _, _, _, _, _, _, hends, hdb⟩ := hadd
  refine ⟨hne, ?_, checkLinkEnds_eq_ok hends⟩
  rw [← hdb]
  split <;> rfl

/-- At most one call succeeds in a step. -/
theorem linkEvents_cases (rt : Runtime) (db : DB) (projectID : ℤ) (a : Ctx × Action) :
    linkEvents rt projectID db a = [] ∨ ∃ e, linkEvents rt projectID db a = [e] := by
  unfold linkEvents
  split
  · cases a.2.linkEvent db projectID with
    | none => exact .inl rfl
    | some e => exact .inr ⟨e, rfl⟩
  · exact .inl rfl

/-- A todo is there after a step, or its deletion is the call of the step. -/
theorem todo_kept (rt : Runtime) (htable : TodoTable db) (a : Ctx × Action) {t : TodoRow} (ht : t ∈ db.todos)
    (hproject : t.projectID = projectID) :
    (∃ u ∈ (act rt db a).todos, u.projectID = projectID ∧ u.localID = t.localID) ∨
      linkEvents rt projectID db a = [.deleted t.localID] := by
  cases hexec : a.2.exec rt a.1 db with
  | error e =>
      refine .inl ⟨t, ?_, hproject, rfl⟩
      simpa [act, hexec, Except.toOption] using ht
  | ok db' =>
      have hact : act rt db a = db' := by simp [act, hexec, Except.toOption]
      rcases (Action.exec_todosStep htable.ids hexec).kept ht with ⟨u, hu, hrow⟩ | hdelete
      · have hkey := hrow.key_eq
        refine .inl ⟨u, hact ▸ hu, ?_, congrArg TodoKey.localID hkey⟩
        exact (congrArg TodoKey.projectID hkey).trans hproject
      · have hget : getTodo db t.id = .ok t := by
          unfold getTodo
          cases hfind : db.todos.find? (·.id == t.id) with
          | none => exact absurd (List.find?_eq_none.mp hfind t ht) (by simp)
          | some u =>
              have hid : u.id = t.id := by simpa using List.find?_some hfind
              rw [htable.eq_of_id (List.mem_of_find?_eq_some hfind) ht hid]
        have hevent : a.2.linkEvent db projectID = some (.deleted t.localID) := by
          rw [hdelete, Action.linkEvent, hget]
          exact if_pos hproject
        refine .inr ?_
        rw [linkEvents, hexec, hevent]
        rfl

theorem LinkShape.act (h : LinkShape db projectID) (htable : TodoTable db) (a : Ctx × Action) :
    LinkShape (act rt db a) projectID := by
  have hproject : ∀ l ∈ db.linksOf projectID, l.projectID = projectID := fun l hl => (mem_linksOf.mp hl).2
  have hlinks := act_linksOf rt db projectID a
  rcases linkEvents_cases rt db projectID a with hnone | ⟨e, he⟩
  · rw [hnone] at hlinks
    rw [List.foldl_nil] at hlinks
    refine ⟨by rw [hlinks]; exact h.keys, fun l hl n hn => ?_, fun l hl => h.ne l (by rwa [hlinks] at hl)⟩
    rw [hlinks] at hl
    obtain ⟨t, ht, htp, rfl⟩ := h.ends l hl n hn
    rcases todo_kept rt htable a ht htp with hkept | hdelete
    · exact hkept
    · rw [hnone] at hdelete
      cases hdelete
  · rw [he, List.foldl_cons, List.foldl_nil] at hlinks
    -- a row that stays keeps its ends, unless one of them is what the call deletes
    have hstays : ∀ l ∈ db.linksOf projectID, l ∈ (Scrumboy.act rt db a).linksOf projectID →
        ∀ n, n = l.fromLocalID ∨ n = l.toLocalID →
          ∃ t ∈ (Scrumboy.act rt db a).todos, t.projectID = projectID ∧ t.localID = n := by
      intro l hold hl n hn
      obtain ⟨t, ht, htp, rfl⟩ := h.ends l hold n hn
      rcases todo_kept rt htable a ht htp with hkept | hdelete
      · exact hkept
      · rw [he, List.cons.injEq] at hdelete
        rw [hlinks, hdelete.1, LinkEvent.store, mem_deleteWhere] at hl
        rcases hn with hn | hn <;> simp [hn] at hl
    have hsource : ∀ l ∈ (Scrumboy.act rt db a).linksOf projectID, l ∈ db.linksOf projectID ∨
        ∃ linkType, .added l.fromLocalID l.toLocalID linkType ∈ linkEvents rt projectID db a := by
      intro l hl
      rw [hlinks] at hl
      rcases mem_store hl with hold | ⟨linkType, hadded⟩
      · exact .inl hold
      · exact .inr ⟨linkType, by rw [he, hadded]; exact List.mem_singleton_self _⟩
    refine ⟨?_, fun l hl => ?_, fun l hl => ?_⟩
    · rw [hlinks]
      exact nodup_store hproject h.keys e
    · rcases hsource l hl with hold | ⟨linkType, hadded⟩
      · exact hstays l hold hl
      · obtain ⟨_, htodos, hends⟩ := ends_of_added hadded
        rw [htodos]
        exact hends
    · rcases hsource l hl with hold | ⟨linkType, hadded⟩
      · exact h.ne l hold
      · exact (ends_of_added hadded).1

theorem TodoTable.act (h : TodoTable db) (a : Ctx × Action) : TodoTable (act rt db a) :=
  act_inv h fun _ hok => h.exec_action hok

end

/-! ## What the lists say -/

section

variable {ctx : Ctx} {db : DB} {projectID : ℤ}

theorem mem_linkTargets {near far : LinkRow → ℤ} {localID : ℤ} {r : TodoLinkTarget} :
    r ∈ linkTargets db projectID near far localID ↔
      ∃ l ∈ db.linksOf projectID, near l = localID ∧ ∃ t ∈ db.todos, t.projectID = projectID ∧
        t.localID = far l ∧ r = ⟨t.localID, t.title, l.linkType, t.archivedAt⟩ := by
  simp only [linkTargets, mem_orderBy, List.mem_flatMap, List.mem_filter, List.mem_map, Bool.and_eq_true,
    beq_iff_eq, mem_linksOf]
  constructor
  · rintro ⟨l, ⟨hl, rfl, rfl⟩, t, ⟨ht, htp, htl⟩, rfl⟩
    exact ⟨l, ⟨hl, rfl⟩, rfl, t, ht, htp, htl, rfl⟩
  · rintro ⟨l, ⟨hl, rfl⟩, rfl, t, ht, htp, htl, rfl⟩
    exact ⟨l, ⟨hl, rfl, rfl⟩, t, ⟨ht, htp, htl⟩, rfl⟩

/-- The rows of a list are in the order of their local ids, and there is one for each. -/
theorem pairwise_linkTargets (htable : TodoTable db) {near far : LinkRow → ℤ} {localID : ℤ}
    (hfar : ∀ l ∈ db.linksOf projectID, ∀ l' ∈ db.linksOf projectID, near l = near l' → far l = far l' → l = l')
    (hlinks : (db.linksOf projectID).Nodup) :
    ((linkTargets db projectID near far localID).map (·.localID)).Pairwise (· < ·) := by
  rw [List.pairwise_map]
  apply pairwise_lt_orderBy
  rw [List.Nodup, List.pairwise_map, List.pairwise_flatMap]
  have hmem : ∀ l ∈ db.links.filter (fun l => l.projectID == projectID && near l == localID),
      l ∈ db.linksOf projectID ∧ near l = localID := by
    intro l hl
    simp only [List.mem_filter, Bool.and_eq_true, beq_iff_eq] at hl
    exact ⟨mem_linksOf.mpr ⟨hl.1, hl.2.1⟩, hl.2.2⟩
  constructor
  · intro l _
    rw [List.pairwise_map]
    have hpairs := htable.localIDs
    rw [List.Nodup, List.pairwise_map] at hpairs
    refine (hpairs.filter _).imp_of_mem fun {t u} ht hu hne heq => hne ?_
    simp only [List.mem_filter, Bool.and_eq_true, beq_iff_eq] at ht hu
    exact Prod.ext (ht.2.1.trans hu.2.1.symm) heq
  · have hsub : (db.links.filter fun l => l.projectID == projectID && near l == localID).Sublist
        (db.linksOf projectID) := by
      have heq : db.links.filter (fun l => l.projectID == projectID && near l == localID) =
          (db.linksOf projectID).filter fun l => near l == localID := by
        rw [DB.linksOf, List.filter_filter]
        exact List.filter_congr fun l _ => Bool.and_comm _ _
      exact heq ▸ List.filter_sublist
    refine (hlinks.sublist hsub).imp_of_mem fun {l l'} hl hl' hne r hr r' hr' heq => hne ?_
    obtain ⟨hl, hnear⟩ := hmem l hl
    obtain ⟨hl', hnear'⟩ := hmem l' hl'
    simp only [List.mem_map, List.mem_filter, Bool.and_eq_true, beq_iff_eq] at hr hr'
    obtain ⟨t, ⟨_, _, ht⟩, rfl⟩ := hr
    obtain ⟨u, ⟨_, _, hu⟩, rfl⟩ := hr'
    exact hfar l hl l' hl' (hnear.trans hnear'.symm) (ht.symm.trans (heq.trans hu))

/-- A list has a row for each link whose other end is there. -/
theorem exists_linkTarget_iff {near far : LinkRow → ℤ} {localID other : ℤ} {linkType : String}
    (hends : ∀ l ∈ db.linksOf projectID, ∃ t ∈ db.todos, t.projectID = projectID ∧ t.localID = far l) :
    (∃ r ∈ linkTargets db projectID near far localID, r.localID = other ∧ r.linkType = linkType) ↔
      ∃ l ∈ db.linksOf projectID, near l = localID ∧ far l = other ∧ l.linkType = linkType := by
  constructor
  · rintro ⟨r, hr, rfl, rfl⟩
    obtain ⟨l, hl, hnear, t, _, _, htl, rfl⟩ := mem_linkTargets.mp hr
    exact ⟨l, hl, hnear, htl.symm, rfl⟩
  · rintro ⟨l, hl, hnear, rfl, rfl⟩
    obtain ⟨t, ht, htp, htl⟩ := hends l hl
    exact ⟨_, mem_linkTargets.mpr ⟨l, hl, hnear, t, ht, htp, htl, rfl⟩, htl, rfl⟩

theorem listLinksForTodo_eq_ok {localID : ℤ} {rows : List TodoLinkTarget} :
    listLinksForTodo ctx db projectID localID = .ok rows ↔
      (∃ p, getProjectForRead ctx db projectID = .ok p) ∧
        rows = linkTargets db projectID (·.fromLocalID) (·.toLocalID) localID := by
  simp only [listLinksForTodo, bind_eq_ok, pure_eq_ok, eq_comm (a := rows)]
  exact exists_and_right

theorem listBacklinksForTodo_eq_ok {localID : ℤ} {rows : List TodoLinkTarget} :
    listBacklinksForTodo ctx db projectID localID = .ok rows ↔
      (∃ p, getProjectForRead ctx db projectID = .ok p) ∧
        rows = linkTargets db projectID (·.toLocalID) (·.fromLocalID) localID := by
  simp only [listBacklinksForTodo, bind_eq_ok, pure_eq_ok, eq_comm (a := rows)]
  exact exists_and_right

/-- The stored links are those of a history. -/
def StoresLinks (db : DB) (projectID : ℤ) (events : List LinkEvent) : Prop :=
  ∀ source target linkType,
    (∃ l ∈ db.linksOf projectID, l.fromLocalID = source ∧ l.toLocalID = target ∧ l.linkType = linkType) ↔
      writtenLink events source target = some linkType

theorem StoresLinks.readBack {events : List LinkEvent} (h : StoresLinks db projectID events)
    (hshape : LinkShape db projectID) (htable : TodoTable db) : LinksReadBack db projectID events where
  links ctx localID rows hrows := by
    obtain ⟨_, rfl⟩ := listLinksForTodo_eq_ok.mp hrows
    refine ⟨pairwise_linkTargets htable (fun l hl l' hl' => hshape.eq_of_ends hl hl') hshape.keys.of_map, ?_⟩
    intro target linkType
    rw [exists_linkTarget_iff fun l hl => hshape.ends l hl _ (.inr rfl)]
    exact h localID target linkType
  backlinks ctx localID rows hrows := by
    obtain ⟨⟨p, hp⟩, rfl⟩ := listBacklinksForTodo_eq_ok.mp hrows
    refine ⟨pairwise_linkTargets htable (fun l hl l' hl' htarget hsource =>
      hshape.eq_of_ends hl hl' hsource htarget) hshape.keys.of_map, ?_⟩
    intro source linkType
    rw [exists_linkTarget_iff fun l hl => hshape.ends l hl _ (.inl rfl)]
    constructor
    · rintro ⟨l, hl, htarget, hsource, htype⟩
      refine ⟨_, listLinksForTodo_eq_ok.mpr ⟨⟨p, hp⟩, rfl⟩, ?_⟩
      rw [exists_linkTarget_iff fun l hl => hshape.ends l hl _ (.inr rfl)]
      exact ⟨l, hl, hsource, htarget, htype⟩
    · rintro ⟨links, hlinks, hrow⟩
      obtain ⟨_, rfl⟩ := listLinksForTodo_eq_ok.mp hlinks
      rw [exists_linkTarget_iff fun l hl => hshape.ends l hl _ (.inr rfl)] at hrow
      obtain ⟨l, hl, hsource, htarget, htype⟩ := hrow
      exact ⟨l, hl, htarget, hsource, htype⟩
  irreflexive ctx localID rows hrows r hr heq := by
    obtain ⟨_, rfl⟩ := listLinksForTodo_eq_ok.mp hrows
    obtain ⟨l, hl, hsource, t, _, _, htarget, rfl⟩ := mem_linkTargets.mp hr
    exact hshape.ne l hl (hsource.trans (heq.symm.trans htarget))

end

/-! ## Links as they were written -/

section

variable {rt : Runtime} {db : DB} {projectID : ℤ}

theorem writtenLink_concat (events : List LinkEvent) (e : LinkEvent) (source target : ℤ) :
    writtenLink (events ++ [e]) source target = e.after source target (writtenLink events source target) := by
  simp [writtenLink]

/-- What a call does to the links, pair by pair. -/
theorem StoresLinks.store {events : List LinkEvent} (h : StoresLinks db projectID events) (e : LinkEvent)
    (nowMs source target : ℤ) (linkType : String) :
    (∃ l ∈ e.store projectID nowMs (db.linksOf projectID),
        l.fromLocalID = source ∧ l.toLocalID = target ∧ l.linkType = linkType) ↔
      writtenLink (events ++ [e]) source target = some linkType := by
  rw [writtenLink_concat]
  have hold := h source target linkType
  cases e with
  | added s t given =>
      rw [LinkEvent.store, LinkEvent.after]
      by_cases hpair : s = source ∧ t = target
      · obtain ⟨rfl, rfl⟩ := hpair
        rw [if_pos (And.intro rfl rfl), Option.some.injEq]
        split
        · rename_i hany
          obtain ⟨l₀, hl₀, hbetween⟩ := List.any_eq_true.mp hany
          obtain ⟨_, hsource, htarget⟩ := isBetween_iff.mp hbetween
          have hwritten := (h s t l₀.linkType).mp ⟨l₀, hl₀, hsource, htarget, rfl⟩
          rw [hold, hwritten, Option.some.injEq]
          rfl
        · rename_i hnone
          have hfree : ∀ l ∈ db.linksOf projectID, l.fromLocalID = s → l.toLocalID ≠ t :=
            fun l hl hsource htarget => hnone (List.any_eq_true.mpr
              ⟨l, hl, isBetween_iff.mpr ⟨(mem_linksOf.mp hl).2, hsource, htarget⟩⟩)
          have hwritten : writtenLink events s t = none := by
            rw [Option.eq_none_iff_forall_ne_some]
            intro τ hτ
            obtain ⟨l, hl, hsource, htarget, _⟩ := (h s t τ).mpr hτ
            exact hfree l hl hsource htarget
          rw [hwritten, Option.getD_none]
          constructor
          · rintro ⟨l, hl, hsource, htarget, rfl⟩
            rcases List.mem_append.mp hl with hl | hl
            · exact absurd htarget (hfree l hl hsource)
            · rw [List.mem_singleton.mp hl]
          · rintro rfl
            exact ⟨_, List.mem_append_right _ (List.mem_singleton_self _), rfl, rfl, rfl⟩
      · rw [if_neg hpair, ← hold]
        split
        · rfl
        · constructor
          · rintro ⟨l, hl, hsource, htarget, htype⟩
            rcases List.mem_append.mp hl with hl | hl
            · exact ⟨l, hl, hsource, htarget, htype⟩
            · rw [List.mem_singleton.mp hl] at hsource htarget
              exact absurd ⟨hsource, htarget⟩ hpair
          · rintro ⟨l, hl, hrow⟩
            exact ⟨l, List.mem_append_left _ hl, hrow⟩
  | removed s t =>
      rw [LinkEvent.store, LinkEvent.after]
      by_cases hpair : s = source ∧ t = target
      · obtain ⟨rfl, rfl⟩ := hpair
        rw [if_pos ⟨rfl, rfl⟩]
        refine iff_of_false ?_ nofun
        rintro ⟨l, hl, hsource, htarget, _⟩
        rw [mem_deleteWhere, ← Bool.not_eq_true, isBetween_iff] at hl
        exact hl.2 ⟨(mem_linksOf.mp hl.1).2, hsource, htarget⟩
      · rw [if_neg hpair, ← hold]
        refine exists_congr fun l => ⟨fun ⟨hl, hrow⟩ => ⟨(mem_deleteWhere.mp hl).1, hrow⟩, ?_⟩
        rintro ⟨hl, rfl, rfl, htype⟩
        refine ⟨mem_deleteWhere.mpr ⟨hl, ?_⟩, rfl, rfl, htype⟩
        rw [← Bool.not_eq_true, isBetween_iff]
        exact fun hbetween => hpair ⟨hbetween.2.1.symm, hbetween.2.2.symm⟩
  | deleted n =>
      rw [LinkEvent.store, LinkEvent.after]
      by_cases hend : n = source ∨ n = target
      · rw [if_pos hend]
        refine iff_of_false ?_ nofun
        rintro ⟨l, hl, rfl, rfl, _⟩
        rw [mem_deleteWhere] at hl
        rcases hend with rfl | rfl
        · simp at hl
        · simp at hl
      · rw [if_neg hend, ← hold]
        rw [not_or] at hend
        refine exists_congr fun l => ⟨fun ⟨hl, hrow⟩ => ⟨(mem_deleteWhere.mp hl).1, hrow⟩, ?_⟩
        rintro ⟨hl, rfl, rfl, htype⟩
        refine ⟨mem_deleteWhere.mpr ⟨hl, ?_⟩, rfl, rfl, htype⟩
        simp [Ne.symm hend.1, Ne.symm hend.2]

theorem StoresLinks.act {events : List LinkEvent} (h : StoresLinks db projectID events) (a : Ctx × Action) :
    StoresLinks (act rt db a) projectID (events ++ linkEvents rt projectID db a) := by
  intro source target linkType
  rw [act_linksOf]
  rcases linkEvents_cases rt db projectID a with hnone | ⟨e, he⟩
  · rw [hnone, List.append_nil]
    exact h source target linkType
  · rw [he, List.foldl_cons, List.foldl_nil]
    exact h.store e a.1.nowMs source target linkType

theorem storesLinks_run (hfresh : ∀ l ∈ db.links, l.projectID ≠ projectID) (l : List (Ctx × Action)) :
    StoresLinks (run (act rt) db l) projectID (linkHistory rt projectID db l) := by
  induction l using List.reverseRecOn with
  | nil =>
      intro source target linkType
      refine iff_of_false ?_ nofun
      rintro ⟨l, hl, _⟩
      exact hfresh l (mem_linksOf.mp hl).1 (mem_linksOf.mp hl).2
  | append_singleton l a ih =>
      rw [run_concat, linkHistory, outputs_concat]
      exact ih.act a

theorem linkShape_run (htable : TodoTable db) (hfresh : ∀ l ∈ db.links, l.projectID ≠ projectID)
    (l : List (Ctx × Action)) : TodoTable (run (act rt) db l) ∧ LinkShape (run (act rt) db l) projectID :=
  run_history (P := fun _ s => TodoTable s ∧ LinkShape s projectID) ⟨htable, .of_fresh hfresh⟩
    (fun _ _ a h => ⟨h.1.act a, h.2.act h.1 a⟩) l

/-- Behind every run the lists of links say what the calls that succeeded wrote. -/
theorem links_read_back (rt : Runtime) (htable : TodoTable db)
    (hfresh : ∀ l ∈ db.links, l.projectID ≠ projectID) (l : List (Ctx × Action)) :
    LinksReadBack (run (act rt) db l) projectID (linkHistory rt projectID db l) := by
  obtain ⟨htodos, hshape⟩ := linkShape_run htable hfresh l
  exact (storesLinks_run hfresh l).readBack hshape htodos

end

/-- A project with two todos and no link, open to everybody. -/
def linkBoard : DB where
  projects := [{ defaultProjectRow 0 with id := 1, name := "Board", slug := "board" }]
  todos :=
    [⟨1, 1, 1, "a", "", "backlog", 1000, none, none, none, none, none, 0, 0, none, none, none, none⟩,
      ⟨2, 1, 2, "b", "", "backlog", 2000, none, none, none, none, none, 0, 0, none, none, none, none⟩]

theorem todoTable_linkBoard : TodoTable linkBoard where
  ids := by decide
  localIDs := by decide
  project := by decide

/-- Two links, one of them repeated and removed, and a todo that is archived and deleted. -/
def linkSession : List (Ctx × Action) :=
  [(⟨none, 5⟩, .addLink 1 1 2 "blocks"), (⟨none, 6⟩, .addLink 1 2 1 ""), (⟨none, 7⟩, .addLink 1 1 2 "blocks"),
    (⟨none, 8⟩, .request (.archiveTodos 1 [2] true)), (⟨none, 9⟩, .request (.archiveTodos 1 [2] false)),
    (⟨none, 10⟩, .removeLink 1 1 2), (⟨none, 11⟩, .request (.deleteTodo 2))]

theorem links_read_back_session :
    linkHistory plainRuntime 1 linkBoard linkSession =
        [.added 1 2 "blocks", .added 2 1 "relates_to", .added 1 2 "blocks", .removed 1 2, .deleted 2] ∧
      LinksReadBack (run (act plainRuntime) linkBoard linkSession) 1
        (linkHistory plainRuntime 1 linkBoard linkSession) :=
  ⟨by decide +kernel, links_read_back plainRuntime todoTable_linkBoard (fun _ hl => nomatch hl) linkSession⟩

/-- A link that is added again with another type keeps its type. -/
def secondType : List (Ctx × Action) :=
  [(⟨none, 5⟩, .addLink 1 1 2 ""), (⟨none, 6⟩, .addLink 1 1 2 "blocks")]

theorem second_type_is_ignored :
    linkHistory plainRuntime 1 linkBoard secondType = [.added 1 2 "relates_to", .added 1 2 "blocks"] ∧
      listLinksForTodo ⟨none, 7⟩ (run (act plainRuntime) linkBoard secondType) 1 1 =
        .ok [⟨2, "b", "relates_to", none⟩] := by
  decide +kernel

end Scrumboy
