import Scrumboy.Backup.TagFrames
import Scrumboy.Backup.Checked
import Scrumboy.Store.WallTags

/-!
# The tags of the stories of a backup

A copy and a merge give each story exactly the tags that it lists, whatever the tag list of its
project says. A replace links tags through a map that is made of this list, so a tag of a story
outside of the list is left out. Before the first account no user owns tags, and all modes skip
them.
-/

set_option linter.dupNamespace false

namespace Scrumboy

open Go Sql

section

variable {rt : Runtime} {ctx : Ctx} {db db' : DB} {projectID todoID : ℤ}

/-! ## Copy and merge -/

/-- Someone owns the tags that an import writes: a user, or a board without accounts. -/
def TagsOwned (ctx : Ctx) (db : DB) (projectID : ℤ) : Prop :=
  ctx.userID.isSome = true ∨ db.users ≠ [] ∨
    ∃ p, getProject db projectID = .ok p ∧ isAnonymousTemporaryBoard p = true

theorem TagsOwned.congr (h : TagsOwned ctx db projectID) (hprojects : db'.projects = db.projects)
    (husers : db'.users = db.users) : TagsOwned ctx db' projectID := by
  rw [TagsOwned, husers, getProject, hprojects]
  exact h

theorem tagsGoTo_of_importTodoTags {names : List String} (hown : TagsOwned ctx db projectID)
    (h : importTodoTags rt ctx db projectID todoID names = .ok db') :
    ∃ isAnonymousBoard userID, TagsGoTo ctx projectID isAnonymousBoard (some userID) db := by
  simp only [importTodoTags, bind_eq_ok] at h
  obtain ⟨p, hproject, tagUser, huser, -⟩ := h
  have hid : p.id = projectID := (getProject_eq_ok hproject).2.1
  refine ⟨isAnonymousTemporaryBoard p, ?_⟩
  cases tagUser with
  | some userID => exact ⟨userID, ⟨p, hproject, hid, rfl⟩, huser⟩
  | none =>
      exfalso
      unfold importTagUser at huser
      split at huser
      · cases huser
      · rename_i hnone
        split at huser
        · cases huser
        · rename_i hboard
          split at huser
          · cases huser
          · rename_i hauth
            rcases hown with huserID | husers | ⟨q, hq, hanon⟩
            · simp [hnone] at huserID
            · simp [authEnabled, husers] at hauth
            · cases Except.ok.inj (hproject.symm.trans hq)
              exact hboard hanon

/-- A story whose tags are written has the tags that its names stand for. -/
theorem importTodoTags_tagged (hstable : CanonicalStable rt) {names : List String}
    (hown : TagsOwned ctx db projectID) (hids : (db.tags.map (·.id)).Nodup)
    (h : importTodoTags rt ctx db projectID todoID names = .ok db') :
    logicalTags rt db' todoID = canonicalNames rt names ∧ LinksResolve db' todoID := by
  obtain ⟨isAnonymousBoard, userID, hto⟩ := tagsGoTo_of_importTodoTags hown h
  have hnames := normalTags_of_importTodoTags hto h
  obtain ⟨out, hout, hmem⟩ := hnames.normalizeTags
  have hcanonical : ∀ k ∈ out, IsCanonicalTag rt k := by
    intro k hk
    obtain ⟨n, hn, rfl⟩ := (hmem k).mp hk
    exact hstable.isCanonicalTag (hnames.2 n hn)
  obtain ⟨p, hproject, -, hanon⟩ := hto.project
  obtain ⟨db₁, hloop, hgrows, hsome, hlinks⟩ :=
    @setTodoTag_loop rt ctx projectID todoID _ _ hto.owner out hcanonical
      { db with todoTags := deleteWhere (fun r => r.todoID == todoID) db.todoTags }
  have hdb : db₁ = db' := by
    rw [importTodoTags, hproject, ok_bind, hanon, hto.user, ok_bind] at h
    dsimp only at h
    rw [hout, ok_bind, setTodoTags, hloop] at h
    exact Except.ok.inj h
  subst hdb
  have hrows : ∀ r ∈ db₁.todoTags, r.todoID = todoID → ∃ k ∈ out, findTagIDByGroupKey rt db₁
      (tagOwned projectID userID isAnonymousBoard) k = some r.tagID := by
    rintro r hr rfl
    rcases (hlinks r).mp hr with hold | ⟨-, hfound⟩
    · simp at hold
    · exact hfound
  have hids' := hgrows.ids hids
  constructor
  · ext k
    constructor
    · rintro ⟨r, hr, hid, t, ht, htid, hkey⟩
      obtain ⟨k', hk', hfind⟩ := hrows r hr hid
      obtain ⟨t', ht', htid', hkey'⟩ := findTagIDByGroupKey_eq_some (hcanonical k' hk') hfind
      cases List.inj_on_of_nodup_map hids' ht ht' (htid.trans htid'.symm)
      rw [← hkey, hkey']
      exact (hmem k').mp hk'
    · rintro ⟨n, hn, rfl⟩
      have hk := (hmem _).mpr ⟨n, hn, rfl⟩
      obtain ⟨id, hfind⟩ := Option.isSome_iff_exists.mp (hsome _ hk)
      obtain ⟨t, ht, htid, hkey⟩ := findTagIDByGroupKey_eq_some (hcanonical _ hk) hfind
      exact ⟨⟨todoID, id⟩, (hlinks _).mpr (.inr ⟨rfl, _, hk, hfind⟩), rfl, t, ht, htid, hkey⟩
  · intro r hr hid
    obtain ⟨k, hk, hfind⟩ := hrows r hr hid
    obtain ⟨t, ht, htid, -⟩ := findTagIDByGroupKey_eq_some (hcanonical k hk) hfind
    exact List.mem_map.mpr ⟨t, ht, htid⟩

/-! ## Replace -/

/-- Some row with the id has the group key. -/
def HasTagKey (rt : Runtime) (db : DB) (k : String) (id : ℤ) : Prop :=
  ∃ x ∈ db.tagNames, x.1 = id ∧ tagGroupKey rt x.2 = k

theorem HasTagKey.keep {touched : Set ℤ} {k : String} {id : ℤ} (h : HasTagKey rt db k id)
    (hkeep : TagsKeep touched db db') : HasTagKey rt db' k id := by
  obtain ⟨x, hx, hid, hkey⟩ := h
  exact ⟨x, hkeep.names.mem hx, hid, hkey⟩

theorem getOrCreateTag_hasTagKey {userID : ℤ} {k : String} {out : DB × ℤ} (hk : IsCanonicalTag rt k)
    (h : getOrCreateTag rt ctx db userID k = .ok out) : HasTagKey rt out.1 k out.2 := by
  simp only [getOrCreateTag, bind_eq_ok, pure_eq_ok] at h
  obtain ⟨_, _, rfl⟩ := h
  rw [hk.fixed, getOrCreateTagExact]
  split
  · rename_i id hfind
    obtain ⟨t, ht, htid, hkey⟩ := findTagIDByGroupKey_eq_some hk hfind
    exact ⟨(t.id, t.name), mem_tagNames.mpr ⟨t, ht, rfl, rfl⟩, htid, hkey⟩
  · exact ⟨(nextRowid (db.tags.map (·.id)), k), by simp [DB.tagNames, appendTag], rfl, hk.groupKey⟩

/-- The names of the list are the canonical forms of those of the backup. -/
theorem dedupeTags_names {tags acc out : List TagExport}
    (h : tags.foldlM (dedupeTags rt) acc = .ok out) :
    (∀ te ∈ tags, canonicalizeTag rt te.name ≠ "") ∧
      ∀ k, k ∈ out.map (·.name) ↔
        k ∈ acc.map (·.name) ∨ ∃ te ∈ tags, canonicalizeTag rt te.name = k := by
  induction tags generalizing acc with
  | nil =>
      rw [List.foldlM_nil, pure_eq_ok] at h
      subst h
      simp
  | cons te tags ih =>
      rw [List.foldlM_cons, bind_eq_ok] at h
      obtain ⟨acc', hstep, hrest⟩ := h
      obtain ⟨hcanonical, hnames⟩ := ih hrest
      simp only [dedupeTags, bind_eq_ok, reject_eq_ok] at hstep
      obtain ⟨_, hne, hstep⟩ := hstep
      have hacc : ∀ k, k ∈ acc'.map (·.name) ↔
          k ∈ acc.map (·.name) ∨ canonicalizeTag rt te.name = k := by
        intro k
        split at hstep
        · rename_i hold
          rw [← pure_eq_ok.mp hstep]
          have hsame : (acc.map fun t => if t.name == canonicalizeTag rt te.name then
              { t with color := t.color.or (validTagColor te.color) } else t).map (·.name) =
              acc.map (·.name) := by
            rw [List.map_map]
            apply List.map_congr_left
            intro t _
            simp only [Function.comp]
            split <;> rfl
          rw [hsame]
          constructor
          · exact .inl
          · rintro (hk | rfl)
            · exact hk
            · simpa using hold
        · rw [← pure_eq_ok.mp hstep]
          simp [eq_comm]
      refine ⟨List.forall_mem_cons.mpr ⟨hne, hcanonical⟩, fun k => ?_⟩
      rw [hnames, hacc, List.exists_mem_cons_iff, or_assoc]

/-- The map of a replace: its keys are the names, and each id is of a row with its key. -/
theorem bulkUpsertTag_loop {userID : ℤ} {tags : List TagExport} {s out : DB × List (String × ℤ)}
    (hcanonical : ∀ te ∈ tags, IsCanonicalTag rt te.name)
    (hs : ∀ x ∈ s.2, HasTagKey rt s.1 x.1 x.2)
    (h : tags.foldlM (bulkUpsertTag rt ctx projectID userID) s = .ok out) :
    TagsKeep ∅ s.1 out.1 ∧ (∀ x ∈ out.2, HasTagKey rt out.1 x.1 x.2) ∧
      out.2.map (·.1) = s.2.map (·.1) ++ tags.map (·.name) := by
  induction tags generalizing s with
  | nil =>
      rw [List.foldlM_nil, pure_eq_ok] at h
      subst h
      exact ⟨.refl _, hs, by simp⟩
  | cons te tags ih =>
      obtain ⟨hte, hcanonical⟩ := List.forall_mem_cons.mp hcanonical
      rw [List.foldlM_cons, bind_eq_ok] at h
      obtain ⟨s', hstep, hrest⟩ := h
      simp only [bulkUpsertTag, bind_eq_ok, pure_eq_ok] at hstep
      obtain ⟨⟨db₁, id⟩, hget, rfl⟩ := hstep
      have hwritten : TagsKeep ∅ db₁ (setTagColor (linkProjectTag ctx db₁ projectID id) userID id
          te.color) := linkProjectTag_tagsKeep.trans setTagColor_tagsKeep
      have hkeep := (getOrCreateTag_tagsKeep hget).trans hwritten
      have hs' : ∀ x ∈ s.2 ++ [(te.name, id)], HasTagKey rt
          (setTagColor (linkProjectTag ctx db₁ projectID id) userID id te.color) x.1 x.2 := by
        intro x hx
        rcases List.mem_append.mp hx with hold | hnew
        · exact (hs x hold).keep hkeep
        · rw [List.mem_singleton.mp hnew]
          exact (getOrCreateTag_hasTagKey hte hget).keep hwritten
      obtain ⟨hkeep', hids, hkeys⟩ := ih hcanonical hs' hrest
      refine ⟨hkeep.trans hkeep', hids, ?_⟩
      rw [hkeys, List.map_append, List.append_assoc]
      rfl

/-- The map has the names of the tag list of the project, if someone owns its tags. -/
theorem bulkUpsertTags_map (hstable : CanonicalStable rt) {tags : List TagExport}
    {out : DB × List (String × ℤ)} (h : bulkUpsertTags rt ctx db projectID tags = .ok out) :
    TagsKeep ∅ db out.1 ∧ (∀ k id, out.2.lookup k = some id → HasTagKey rt out.1 k id) ∧
      ∀ k, (out.2.lookup k).isSome = true ↔ (bulkTagUser ctx db).isSome = true ∧
        k ∈ canonicalNames rt (tags.map (·.name)) := by
  unfold bulkUpsertTags at h
  split at h
  · rename_i hnone
    rw [pure_eq_ok] at h
    subst h
    refine ⟨.refl db, fun k id hlookup => ?_, fun k => ?_⟩
    · cases hlookup
    · rw [hnone]
      exact iff_of_false Bool.false_ne_true fun hand => Bool.false_ne_true hand.1
  · rename_i userID hsome
    simp only [bind_eq_ok] at h
    obtain ⟨deduped, hdeduped, h⟩ := h
    obtain ⟨hne, hnames⟩ := dedupeTags_names hdeduped
    have hcanonical : ∀ te ∈ deduped, IsCanonicalTag rt te.name := by
      intro te hte
      rcases (hnames te.name).mp (List.mem_map_of_mem hte) with hnil | ⟨te₀, hte₀, heq⟩
      · cases hnil
      · rw [← heq]
        exact hstable.isCanonicalTag (hne te₀ hte₀)
    obtain ⟨hkeep, hids, hkeys⟩ := bulkUpsertTag_loop hcanonical (by simp) h
    refine ⟨hkeep, fun k id hlookup => ?_, fun k => ?_⟩
    · obtain ⟨l₁, l₂, heq, -⟩ := List.lookup_eq_some_iff.mp hlookup
      exact hids (k, id) (by rw [heq]; simp)
    · have hmem : (out.2.lookup k).isSome = true ↔ k ∈ out.2.map (·.1) := by
        rw [List.lookup_isSome_iff, List.mem_map]
        exact exists_congr fun p => and_congr_right fun _ => beq_iff_eq.trans eq_comm
      rw [hmem, hkeys, List.map_nil, List.nil_append, hnames]
      simp [hsome, canonicalNames]

/-- The links of a replace: for each story, the ids of its names in the map. -/
theorem bulkLinkTodoTags_links {todoTags : List (ℤ × List String)} {tagIDs : List (String × ℤ)}
    (h : bulkLinkTodoTags rt db todoTags tagIDs = .ok db') : db'.tags = db.tags ∧
      ∀ r, r ∈ db'.todoTags ↔ r ∈ db.todoTags ∨ ∃ x ∈ todoTags, r.todoID = x.1 ∧
        ∃ k ∈ canonicalNames rt x.2, tagIDs.lookup k = some r.tagID := by
  have hlink : ∀ (l : List ℤ) (todoID : ℤ) (db : DB),
      (l.foldl (fun db tagID => linkTodoTag db todoID tagID) db).tags = db.tags ∧
      ∀ r, r ∈ (l.foldl (fun db tagID => linkTodoTag db todoID tagID) db).todoTags ↔
        r ∈ db.todoTags ∨ r.todoID = todoID ∧ r.tagID ∈ l := by
    intro l todoID
    induction l with
    | nil => simp
    | cons tagID l ih =>
        intro db
        obtain ⟨htags, hrows⟩ := ih (linkTodoTag db todoID tagID)
        refine ⟨htags.trans (linkTodoTag_tags db todoID tagID), fun r => ?_⟩
        rw [List.foldl_cons, hrows, mem_linkTodoTag, or_assoc]
        refine or_congr_right ?_
        constructor
        · rintro (rfl | ⟨hid, hmem⟩)
          · exact ⟨rfl, List.mem_cons_self⟩
          · exact ⟨hid, List.mem_cons_of_mem _ hmem⟩
        · rintro ⟨rfl, hmem⟩
          rcases List.mem_cons.mp hmem with rfl | hmem
          · exact .inl rfl
          · exact .inr ⟨rfl, hmem⟩
  unfold bulkLinkTodoTags at h
  induction todoTags generalizing db with
  | nil =>
      rw [List.foldlM_nil, pure_eq_ok] at h
      subst h
      simp
  | cons x todoTags ih =>
      rw [List.foldlM_cons, bind_eq_ok] at h
      obtain ⟨db₁, hstep, hrest⟩ := h
      simp only [bulkLinkTags, bind_eq_ok, pure_eq_ok] at hstep
      obtain ⟨names, hnormal, rfl⟩ := hstep
      obtain ⟨out, hout, hmem⟩ := (normalTags_of_normalizeTags hnormal).normalizeTags
      cases Except.ok.inj (hnormal.symm.trans hout)
      obtain ⟨htags, hrows⟩ := hlink (names.filterMap fun name => tagIDs.lookup name) x.1 db
      obtain ⟨htags', hrows'⟩ := ih hrest
      refine ⟨htags'.trans htags, fun r => ?_⟩
      rw [hrows', hrows, or_assoc, List.exists_mem_cons_iff]
      refine or_congr_right (or_congr_left (and_congr_right fun _ => ?_))
      rw [List.mem_filterMap]
      exact exists_congr fun k => and_congr_left fun _ => hmem k

end

/-! ## Where the stories go -/

/-- The story of the backup is the row with the id, whose tags are as `T` says. -/
structure StoryArrived (T : DB → TodoExport → ℤ → Prop) (projectID : ℤ) (s : TodoScan) (t : TodoExport)
    (id : ℤ) : Prop where
  row : ∃ v ∈ s.db.todos, v.id = id ∧ v.projectID = projectID ∧ v.title = t.title ∧ v.body = t.body ∧
    (id ∈ s.imported.created ∨ v.localID = t.localID)
  tags : T s.db t id

/-- Each of the stories so far has a row of its own, and rows that were made are not among the old
ones. -/
structure ScanArrived (T : DB → TodoExport → ℤ → Prop) (projectID : ℤ) (old : List ℤ)
    (done : List TodoExport) (s : TodoScan) : Prop where
  length : s.imported.todoIDs.length = done.length
  nodup : s.imported.todoIDs.Nodup
  ids : (s.db.todos.map (·.id)).Nodup
  kept : old ⊆ s.db.todos.map (·.id)
  created : ∀ id ∈ s.imported.created, id ∉ old
  arrived : ∀ x ∈ done.zip s.imported.todoIDs, StoryArrived T projectID s x.1 x.2

section

variable {T : DB → TodoExport → ℤ → Prop} {projectID : ℤ} {old : List ℤ} {done todos : List TodoExport}
  {s s' : TodoScan} {t : TodoExport} {u : TodoRow}

theorem ScanArrived.mem (h : ScanArrived T projectID old done s) {id : ℤ} (hid : id ∈ s.imported.todoIDs) :
    ∃ t ∈ done, StoryArrived T projectID s t id := by
  obtain ⟨i, hi, rfl⟩ := List.mem_iff_getElem.mp hid
  have hi' : i < done.length := h.length ▸ hi
  have hzip : (done[i], s.imported.todoIDs[i]) ∈ done.zip s.imported.todoIDs :=
    List.mem_iff_getElem.mpr ⟨i, by simp [hi, hi'], by simp⟩
  exact ⟨done[i], List.getElem_mem hi', h.arrived _ hzip⟩

/-- A story lands on a row that no story before it landed on. -/
theorem ScanArrived.fresh (h : ScanArrived T projectID old done s)
    (hland : LandsOn projectID s s' t u ∨ LandsNew projectID s s' t u)
    (hlocal : t.localID ∉ done.map (·.localID)) : u.id ∉ s.imported.todoIDs := by
  intro hmem
  obtain ⟨t', ht', ⟨v, hv, hid, -, -, -, hlanded⟩, -⟩ := h.mem hmem
  rcases hland with hon | hnew
  · cases List.inj_on_of_nodup_map h.ids hv hon.mem hid
    rcases hlanded with hcreated | hsame
    · exact hon.old hcreated
    · exact hlocal (List.mem_map.mpr ⟨t', ht', (hsame.symm.trans hon.localID_eq)⟩)
  · have hlt := lt_nextRowid (List.mem_map_of_mem (f := fun v : TodoRow => v.id) hv)
    rw [hid, hnew.id_eq] at hlt
    exact absurd hlt (lt_irrefl _)

theorem landed_record (hland : LandsOn projectID s s' t u ∨ LandsNew projectID s s' t u) :
    s'.imported.todoIDs = s.imported.todoIDs ++ [u.id] ∧
      ∀ id ∈ s.imported.created, id ∈ s'.imported.created := by
  rcases hland with hon | hnew
  · rw [hon.imported]
    exact ⟨rfl, fun id hid => hid⟩
  · rw [hnew.imported]
    exact ⟨rfl, fun id hid => List.mem_append_left _ hid⟩

/-- One more story arrives, and those before stay as they are. -/
theorem ScanArrived.step (h : ScanArrived T projectID old done s)
    (hland : LandsOn projectID s s' t u ∨ LandsNew projectID s s' t u)
    (hlocal : t.localID ∉ done.map (·.localID)) (hT : T s'.db t u.id)
    (hkeep : ∀ t' id, id ≠ u.id → T s.db t' id → T s'.db t' id) :
    ScanArrived T projectID old (done ++ [t]) s' := by
  have hfresh := h.fresh hland hlocal
  obtain ⟨hrecord, hcreated⟩ := landed_record hland
  -- the rows of the stories before are still there
  have hrows : ∀ v ∈ s.db.todos, v.id ≠ u.id → v ∈ s'.db.todos := by
    intro v hv hne
    rcases hland with hon | hnew
    · obtain ⟨_, htables⟩ := hon.tables
      rw [htables.contentOnly.todos, mem_updateWhere]
      exact ⟨v, hv, by simp [hne]⟩
    · rw [hnew.todos]
      exact List.mem_append_left _ hv
  have hnewRow : ∃ v ∈ s'.db.todos, v.id = u.id ∧ v.projectID = projectID ∧ v.title = t.title ∧
      v.body = t.body ∧ (u.id ∈ s'.imported.created ∨ v.localID = t.localID) := by
    rcases hland with hon | hnew
    · obtain ⟨sprintID, htables⟩ := hon.tables
      refine ⟨mergedRow s.db projectID (resolveImportColumnKey s.db projectID t.status).1 sprintID t u,
        ?_, rfl, hon.projectID_eq, rfl, rfl, .inr hon.localID_eq⟩
      rw [htables.contentOnly.todos, mem_updateWhere]
      exact ⟨u, hon.mem, by simp⟩
    · obtain ⟨sprintID, hrow⟩ := hnew.row
      refine ⟨u, by rw [hnew.todos]; simp, rfl, hnew.projectID_eq, ?_, ?_, .inl ?_⟩
      · rw [hrow]
        rfl
      · rw [hrow]
        rfl
      · rw [hnew.imported]
        exact List.mem_append_right _ (List.mem_singleton.mpr rfl)
  have hids : (s'.db.todos.map (·.id) = s.db.todos.map (·.id) ∧
        s'.imported.created = s.imported.created) ∨
      (s'.db.todos.map (·.id) = s.db.todos.map (·.id) ++ [nextRowid (s.db.todos.map (·.id))] ∧
        s'.imported.created = s.imported.created ++ [nextRowid (s.db.todos.map (·.id))]) := by
    rcases hland with hon | hnew
    · have hmap := congrArg (List.map (·.id)) hon.todoKeys
      rw [DB.todoKeys, DB.todoKeys, List.map_map, List.map_map] at hmap
      exact .inl ⟨hmap, by rw [hon.imported]; rfl⟩
    · refine .inr ⟨?_, ?_⟩
      · rw [hnew.todos, List.map_append, List.map_singleton, hnew.id_eq]
      · rw [hnew.imported, ← hnew.id_eq]
        rfl
  refine ⟨?_, ?_, ?_, ?_, ?_, ?_⟩
  · rw [hrecord, List.length_append, List.length_append, h.length]
    rfl
  · rw [hrecord, List.nodup_append]
    refine ⟨h.nodup, List.nodup_singleton _, fun a ha b hb => ?_⟩
    rw [List.mem_singleton.mp hb]
    rintro rfl
    exact hfresh ha
  · rcases hids with ⟨heq, -⟩ | ⟨heq, -⟩
    · rw [heq]
      exact h.ids
    · rw [heq]
      exact nodup_concat_nextRowid h.ids
  · rcases hids with ⟨heq, -⟩ | ⟨heq, -⟩
    · rw [heq]
      exact h.kept
    · rw [heq]
      exact fun id hid => List.mem_append_left _ (h.kept hid)
  · intro id hid hold
    rcases hids with ⟨-, heq⟩ | ⟨-, heq⟩
    · exact h.created id (heq ▸ hid) hold
    · rcases List.mem_append.mp (heq ▸ hid) with hid | hid
      · exact h.created id hid hold
      · rw [List.mem_singleton.mp hid] at hold
        exact nextRowid_not_mem _ (h.kept hold)
  · intro x hx
    rw [hrecord, List.zip_append h.length.symm, List.mem_append] at hx
    rcases hx with hold | hnew
    · obtain ⟨⟨v, hv, hid, hproject, htitle, hbody, hlanded⟩, htags⟩ := h.arrived x hold
      have hne : x.2 ≠ u.id := by
        rintro heq
        exact hfresh (heq ▸ (List.of_mem_zip hold).2)
      refine ⟨⟨v, hrows v hv (hid ▸ hne), hid, hproject, htitle, hbody, ?_⟩, hkeep _ _ hne htags⟩
      rcases hlanded with hc | hl
      · exact .inl (hcreated _ hc)
      · exact .inr hl
    · cases List.mem_singleton.mp hnew
      exact ⟨hnewRow, hT⟩

/-- All stories of a backup arrive. -/
theorem scanArrived_of_foldlM {I : DB → Prop} {step : TodoScan → TodoExport → Result TodoScan}
    (hstep : ∀ s t s', I s.db → step s t = .ok s' → I s'.db ∧ ∃ u,
      (LandsOn projectID s s' t u ∨ LandsNew projectID s s' t u) ∧ T s'.db t u.id ∧
      ∀ t' id, id ≠ u.id → T s.db t' id → T s'.db t' id)
    (hs : ScanArrived T projectID old done s) (hI : I s.db)
    (hlocal : ((done ++ todos).map (·.localID)).Nodup) (h : todos.foldlM step s = .ok s') :
    ScanArrived T projectID old (done ++ todos) s' ∧ I s'.db := by
  induction todos generalizing done s with
  | nil =>
      rw [List.foldlM_nil, pure_eq_ok] at h
      subst h
      rw [List.append_nil]
      exact ⟨hs, hI⟩
  | cons t todos ih =>
      rw [List.foldlM_cons, bind_eq_ok] at h
      obtain ⟨s₁, hfirst, hrest⟩ := h
      obtain ⟨hI₁, u, hland, hT, hkeep⟩ := hstep s t s₁ hI hfirst
      have hnotMem : t.localID ∉ done.map (·.localID) := by
        rw [List.map_append, List.nodup_append] at hlocal
        exact fun hmem => hlocal.2.2 _ hmem _ (List.mem_map_of_mem List.mem_cons_self) rfl
      have hlist : done ++ t :: todos = done ++ [t] ++ todos := by simp
      rw [hlist]
      exact ih (hs.step hland hnotMem hT hkeep) hI₁ (hlist ▸ hlocal) hrest

end

/-! ## The stories of each mode -/

section

variable {rt : Runtime} {ctx : Ctx} {db db' : DB} {projectID : ℤ} {sprintID : ℤ → Option ℤ}
  {s s' : TodoScan} {t : TodoExport} {u : TodoRow}

/-- The story has exactly the tags that it lists. -/
def TaggedAsListed (rt : Runtime) (db : DB) (t : TodoExport) (id : ℤ) : Prop :=
  logicalTags rt db id = canonicalNames rt t.tags ∧ LinksResolve db id

/-- The tags can be written, and have ids of their own. -/
def TagsReady (ctx : Ctx) (projectID : ℤ) (db : DB) : Prop :=
  TagsOwned ctx db projectID ∧ (db.tags.map (·.id)).Nodup

theorem TaggedAsListed.keep {touched : Set ℤ} {id : ℤ} (h : TaggedAsListed rt db t id)
    (hids : (db.tags.map (·.id)).Nodup) (hkeep : TagsKeep touched db db') (hid : id ∉ touched) :
    TaggedAsListed rt db' t id :=
  ⟨(hkeep.logicalTags_eq hid hids h.2).trans h.1, hkeep.resolve hid h.2⟩

/-- Writing the tags of a story of which the row is written. -/
theorem tagged_of_importTodoTags {todos : List TodoRow} {u : TodoRow} (hstable : CanonicalStable rt)
    (hready : TagsReady ctx projectID db)
    (h : importTodoTags rt ctx { db with todos := todos } projectID u.id t.tags = .ok db') :
    TagsReady ctx projectID db' ∧ TaggedAsListed rt db' t u.id ∧
      ∀ t' id, id ≠ u.id → TaggedAsListed rt db t' id → TaggedAsListed rt db' t' id := by
  have hrow : TagsKeep {u.id} db { db with todos := todos } := .of_eq rfl rfl
  have hkeep := hrow.trans (importTodoTags_tagsKeep h)
  have hcontent := (importTodoTags_tagsOnly h).contentOnly
  have hown : TagsOwned ctx { db with todos := todos } projectID := hready.1.congr rfl rfl
  refine ⟨⟨hready.1.congr hcontent.projects hcontent.users, hkeep.ids hready.2⟩,
    importTodoTags_tagged hstable hown hready.2 h, fun t' id hne hold => ?_⟩
  exact hold.keep hready.2 hkeep hne

theorem copyTodo_tagged (hstable : CanonicalStable rt) (hready : TagsReady ctx projectID s.db)
    (h : copyTodo rt ctx projectID sprintID s t = .ok s') : TagsReady ctx projectID s'.db ∧ ∃ u,
      (LandsOn projectID s s' t u ∨ LandsNew projectID s s' t u) ∧ TaggedAsListed rt s'.db t u.id ∧
      ∀ t' id, id ≠ u.id → TaggedAsListed rt s.db t' id → TaggedAsListed rt s'.db t' id := by
  simp only [copyTodo, bind_eq_ok, pure_eq_ok] at h
  obtain ⟨_, _, ⟨db₁, u⟩, hins, db, htags, rfl⟩ := h
  have hnew : ∀ r, LandsNew projectID s ⟨db, s.imported.record t.localID u.localID u.id true, r⟩ t u :=
    fun r => (landsNew_of_insert hins (.inl rfl) (importTodoTags_tagsOnly htags) rfl rfl).1
  obtain ⟨-, -, rfl⟩ := insertTodo_eq_ok hins
  obtain ⟨hready', htagged, hkeep⟩ := tagged_of_importTodoTags hstable hready htags
  exact ⟨hready', u, .inr (hnew _), htagged, hkeep⟩

theorem mergeTodo_tagged (hstable : CanonicalStable rt) (hready : TagsReady ctx projectID s.db)
    (h : mergeTodo rt ctx projectID sprintID s t = .ok s') : TagsReady ctx projectID s'.db ∧ ∃ u,
      (LandsOn projectID s s' t u ∨ LandsNew projectID s s' t u) ∧ TaggedAsListed rt s'.db t u.id ∧
      ∀ t' id, id ≠ u.id → TaggedAsListed rt s.db t' id → TaggedAsListed rt s'.db t' id := by
  simp only [mergeTodo, bind_eq_ok] at h
  obtain ⟨_, _, h⟩ := h
  split at h
  · rename_i u hmatch
    obtain ⟨hfind, hold⟩ := Option.filter_eq_some_iff.mp hmatch
    obtain ⟨hmem, hpid, hlid⟩ := todoByLocalID_eq_some hfind
    simp only [bind_eq_ok, pure_eq_ok] at h
    obtain ⟨db, htags, rfl⟩ := h
    obtain ⟨hready', htagged, hkeep⟩ := tagged_of_importTodoTags hstable hready htags
    refine ⟨hready', u, .inl ⟨hmem, hpid, hlid, ?_, ⟨_, importTodoTags_tagsOnly htags⟩, rfl⟩, htagged,
      hkeep⟩
    simpa [ImportedTodos.wasCreated] using hold
  · simp only [bind_eq_ok, pure_eq_ok] at h
    obtain ⟨⟨db₁, u, r⟩, hins, db, htags, rfl⟩ := h
    have hins := insertMergedTodo_eq_ok (by intro l; exact ⟨rfl, rfl⟩) hins
    have hnew : ∀ r, LandsNew projectID s
        ⟨db, s.imported.record t.localID u.localID u.id true, r⟩ t u :=
      fun r => (landsNew_of_insert hins (.inl rfl) (importTodoTags_tagsOnly htags) rfl rfl).1
    obtain ⟨-, -, rfl⟩ := insertTodo_eq_ok hins
    obtain ⟨hready', htagged, hkeep⟩ := tagged_of_importTodoTags hstable hready htags
    exact ⟨hready', u, .inr (hnew _), htagged, hkeep⟩

/-- The story has no tags yet. -/
def Untagged (db : DB) (_ : TodoExport) (id : ℤ) : Prop :=
  0 < id ∧ ∀ r ∈ db.todoTags, r.todoID ≠ id

/-- Links are to stories that exist, and row ids are positive. -/
def LinksOfTodos (db : DB) : Prop :=
  (∀ v ∈ db.todos, 0 < v.id) ∧ ∀ r ∈ db.todoTags, r.todoID ∈ db.todos.map (·.id)

theorem bulkInsertTodo_untagged (hlinks : LinksOfTodos s.db)
    (h : bulkInsertTodo projectID sprintID s t = .ok s') : LinksOfTodos s'.db ∧ ∃ u,
      (LandsOn projectID s s' t u ∨ LandsNew projectID s s' t u) ∧ Untagged s'.db t u.id ∧
      ∀ t' id, id ≠ u.id → Untagged s.db t' id → Untagged s'.db t' id := by
  simp only [bulkInsertTodo, bind_eq_ok, pure_eq_ok] at h
  obtain ⟨_, _, ⟨db₁, u⟩, hins, rfl⟩ := h
  have hrow := insertTodo_eq_ok hins
  have hlid : u.localID = t.localID := by
    rw [hrow.2.1]
    rfl
  have hnew : ∀ r, LandsNew projectID s ⟨db₁, s.imported.record t.localID t.localID u.id true, r⟩ t u :=
    fun r => (landsNew_of_insert hins (.inr rfl) (.refl db₁) rfl (by rw [hlid])).1
  obtain ⟨-, -, rfl⟩ := hrow
  have hpos : 0 < u.id := by
    rw [(hnew {}).id_eq]
    apply nextRowid_pos
    intro x hx
    obtain ⟨v, hv, rfl⟩ := List.mem_map.mp hx
    exact hlinks.1 v hv
  refine ⟨⟨?_, ?_⟩, u, .inr (hnew _), ⟨hpos, ?_⟩, fun t' id _ hold => hold⟩
  · intro v hv
    rcases List.mem_append.mp hv with hv | hv
    · exact hlinks.1 v hv
    · rwa [List.mem_singleton.mp hv]
  · intro r hr
    rw [List.map_append, List.mem_append]
    exact .inl (hlinks.2 r hr)
  · intro r hr heq
    have hmem := hlinks.2 r hr
    rw [heq, (hnew {}).id_eq] at hmem
    exact nextRowid_not_mem _ hmem

/-- Ids are unique and positive, and the tags of stories are those of rows that exist. -/
structure TagTables (db : DB) : Prop where
  todos : (db.todos.map (·.id)).Nodup
  tags : (db.tags.map (·.id)).Nodup
  links : LinksOfTodos db

/-- The stories become rows of their own in the project, on which they land or which are new, and
their logical tags are as `tags` says. -/
def StoriesImported (rt : Runtime) (projectID : ℤ) (stories : List TodoExport)
    (tags : TodoExport → Set String) (db db' : DB) : Prop :=
  ∃ ids : List ℤ, ids.length = stories.length ∧ ids.Nodup ∧ ∀ x ∈ stories.zip ids,
    (∃ v ∈ db'.todos, v.id = x.2 ∧ v.projectID = projectID ∧ v.title = x.1.title ∧ v.body = x.1.body ∧
      (v.localID = x.1.localID ∨ x.2 ∉ db.todos.map (·.id))) ∧
    logicalTags rt db' x.2 = tags x.1

theorem scanArrived_start {T : DB → TodoExport → ℤ → Prop} {old : List ℤ} (r : ImportResult)
    (hids : (db.todos.map (·.id)).Nodup) (hold : old ⊆ db.todos.map (·.id)) :
    ScanArrived T projectID old [] { db := db, result := r } where
  length := rfl
  nodup := List.nodup_nil
  ids := hids
  kept := hold
  created _ h := absurd h List.not_mem_nil
  arrived _ h := absurd h List.not_mem_nil

/-- The rows of the stories, once the database is only written around them. -/
theorem ScanArrived.imported {T : DB → TodoExport → ℤ → Prop} {stories : List TodoExport}
    {tags : TodoExport → Set String} {db₀ : DB}
    (h : ScanArrived T projectID (db₀.todos.map (·.id)) stories s) (htodos : db'.todos = s.db.todos)
    (htags : ∀ t ∈ stories, ∀ id, T s.db t id → (t, id) ∈ stories.zip s.imported.todoIDs →
      logicalTags rt db' id = tags t) :
    StoriesImported rt projectID stories tags db₀ db' := by
  refine ⟨s.imported.todoIDs, h.length, h.nodup, fun x hx => ?_⟩
  obtain ⟨⟨v, hv, hid, hproject, htitle, hbody, hlanded⟩, hT⟩ := h.arrived x hx
  refine ⟨⟨v, htodos ▸ hv, hid, hproject, htitle, hbody, ?_⟩, htags x.1 (List.of_mem_zip hx).1 x.2 hT hx⟩
  rcases hlanded with hcreated | hlocal
  · exact .inr (h.created _ hcreated)
  · exact .inl hlocal

/-! ## One project of a backup -/

/-- The tables that the settings of a project leave alone. -/
structure SameStories (db db' : DB) : Prop where
  todos : db'.todos = db.todos
  tags : db'.tags = db.tags
  todoTags : db'.todoTags = db.todoTags
  users : db'.users = db.users

theorem SameStories.tagTables (h : SameStories db db') (hdb : TagTables db) : TagTables db' where
  todos := by rw [h.todos]; exact hdb.todos
  tags := by rw [h.tags]; exact hdb.tags
  links := by
    rw [LinksOfTodos, h.todos, h.todoTags]
    exact hdb.links

/-- The id of the project that an import makes. -/
def newProjectID (db : DB) : ℤ :=
  nextRowid (db.projects.map (·.id))

theorem Founds.id_eq {p : ProjectExport} {face : ProjectFace} (h : Founds p face db db') :
    face.id = newProjectID db := by
  obtain ⟨_, _, _, _, _, hid, _, _, _, _, _⟩ := h
  exact hid

theorem Founds.sameStories {p : ProjectExport} {face : ProjectFace} (h : Founds p face db db') :
    SameStories db db' := by
  obtain ⟨projects, members, db₁, db₂, sprints, _, _, _, hworkflow, htiers, rfl⟩ := h
  obtain ⟨_, rfl⟩ := (importWorkflow_columnsOnly hworkflow).exists_eq
  obtain ⟨_, rfl⟩ := (replaceProjectPriorityTiersFromExport_prioritiesOnly htiers).exists_eq
  exact ⟨rfl, rfl, rfl, rfl⟩

theorem Rewrites.sameStories {p : ProjectExport} (h : Rewrites p projectID db db') :
    SameStories db db' := by
  obtain ⟨projects, db₁, db₂, sprints, _, _, hworkflow, htiers, rfl⟩ := h
  obtain ⟨_, rfl⟩ := (mergeWorkflow_columnsOnly hworkflow).exists_eq
  obtain ⟨_, rfl⟩ := (mergePriorities_prioritiesOnly htiers).exists_eq
  exact ⟨rfl, rfl, rfl, rfl⟩

/-- A loop that tags each story as it lists, between the settings and what surrounds the stories. -/
theorem storiesImported_of_loop {db₀ : DB} {p : ProjectExport}
    {step : TodoScan → TodoExport → Result TodoScan} {r : ImportResult}
    (hstep : ∀ s t s', TagsReady ctx projectID s.db → step s t = .ok s' →
      TagsReady ctx projectID s'.db ∧ ∃ u, (LandsOn projectID s s' t u ∨ LandsNew projectID s s' t u) ∧
        TaggedAsListed rt s'.db t u.id ∧
        ∀ t' id, id ≠ u.id → TaggedAsListed rt s.db t' id → TaggedAsListed rt s'.db t' id)
    (hlocal : (p.todos.map (·.localID)).Nodup) (hdb : TagTables db₀) (hsame : SameStories db₀ db)
    (hown : TagsOwned ctx db projectID) (htodos : p.todos.foldlM step { db := db, result := r } = .ok s)
    (hkeep : TagsKeep ∅ s.db db') (hafter : db'.todos = s.db.todos) :
    StoriesImported rt projectID p.todos (fun t => canonicalNames rt t.tags) db₀ db' := by
  have hdb' := hsame.tagTables hdb
  obtain ⟨harrived, hready⟩ := scanArrived_of_foldlM (I := TagsReady ctx projectID) hstep
    (scanArrived_start (T := TaggedAsListed rt) r hdb'.todos
      (by rw [hsame.todos]; exact List.Subset.refl _))
    ⟨hown, hdb'.tags⟩ (by simpa using hlocal) htodos
  exact harrived.imported hafter fun t _ id htagged _ =>
    (htagged.keep hready.2 hkeep (Set.notMem_empty id)).1

theorem landed_projects (hland : LandsOn projectID s s' t u ∨ LandsNew projectID s s' t u) :
    s'.db.projects = s.db.projects ∧ s'.db.users = s.db.users := by
  rcases hland with hon | hnew
  · obtain ⟨_, htables⟩ := hon.tables
    exact ⟨htables.contentOnly.projects, htables.contentOnly.users⟩
  · exact ⟨hnew.tables.contentOnly.projects, hnew.tables.contentOnly.users⟩

theorem TagsOwned.before {step : TodoScan → TodoExport → Result TodoScan} {stories : List TodoExport}
    {r : ImportResult} (hown : TagsOwned ctx db' projectID)
    (hstep : ∀ s t s', step s t = .ok s' →
      ∃ u, LandsOn projectID s s' t u ∨ LandsNew projectID s s' t u)
    (htodos : stories.foldlM step { db := db, result := r } = .ok s) (hafter : ContentOnly s.db db') :
    TagsOwned ctx db projectID := by
  have hsame : s.db.projects = db.projects ∧ s.db.users = db.users := by
    refine foldlM_inv (P := fun s => s.db.projects = db.projects ∧ s.db.users = db.users)
      (fun s t s' _ hs hok => ?_) ⟨rfl, rfl⟩ htodos
    obtain ⟨u, hland⟩ := hstep s t s' hok
    obtain ⟨hprojects, husers⟩ := landed_projects hland
    exact ⟨hprojects.trans hs.1, husers.trans hs.2⟩
  exact hown.congr (hsame.1.symm.trans hafter.projects.symm) (hsame.2.symm.trans hafter.users.symm)

/-- A copy gives each story the tags that it lists. -/
theorem copyProject_tags (hstable : CanonicalStable rt) {draws : ℕ → ProjectDraws} {mode : Mode} {i : ℕ}
    {p : ProjectExport} {tx tx' : ImportTx} (hlocal : (p.todos.map (·.localID)).Nodup)
    (hdb : TagTables tx.db) (h : copyProject rt ctx draws mode tx (p, i) = .ok tx') :
    TagsOwned ctx tx'.db (newProjectID tx.db) →
      StoriesImported rt (newProjectID tx.db) p.todos (fun t => canonicalNames rt t.tags) tx.db
        tx'.db := by
  simp only [copyProject, bind_eq_ok, pure_eq_ok] at h
  obtain ⟨_, _, _, _, slug, hslug, ⟨db₀, projectID⟩, hcreate, db₁, hsprints, scan, htodos, db₂, htags,
    tx'', hcontent, rfl⟩ := h
  obtain ⟨sprints, rfl⟩ := insertSprintsForImport_sprintsOnly hsprints
  have hfounds : ∃ face : ProjectFace, face.id = projectID ∧
      Founds p face tx.db { db₀ with sprints := sprints } := by
    obtain ⟨face, hid, -, -, hfounds⟩ := createImportProject_founds hcreate
    exact ⟨face, hid, hfounds⟩
  obtain ⟨face, rfl, hfounds⟩ := hfounds
  have hcontent := importContent_aroundOnly hcontent
  have hafter := (importTags_tagsOnly htags).contentOnly.trans hcontent.contentOnly
  rw [← hfounds.id_eq]
  intro hown
  refine storiesImported_of_loop (fun s t s' hready hok => copyTodo_tagged hstable hready hok) hlocal hdb
    hfounds.sameStories (hown.before (fun s t s' hok => ?_) htodos hafter) htodos
    ((importTags_tagsKeep htags).trans hcontent.tagsKeep) hafter.todos
  obtain ⟨u, hnew, -⟩ := copyTodo_landsNew hok
  exact ⟨u, .inr hnew⟩

/-- A merge gives each story the tags that it lists, also one that it lands on. -/
theorem mergeProject_tags (hstable : CanonicalStable rt) {draws : ℕ → ProjectDraws}
    {selected : Selector} {i : ℕ} {p : ProjectExport} {tx tx' : ImportTx × List ℤ}
    (hlocal : (p.todos.map (·.localID)).Nodup) (hdb : TagTables tx.1.db)
    (h : mergeProject rt ctx draws selected tx (p, i) = .ok tx') :
    ∃ projectID, tx'.2 = tx.2 ++ [projectID] ∧ (TagsOwned ctx tx'.1.db projectID →
      StoriesImported rt projectID p.todos (fun t => canonicalNames rt t.tags) tx.1.db tx'.1.db) := by
  simp only [mergeProject, bind_eq_ok, pure_eq_ok] at h
  obtain ⟨_, _, _, _, ⟨tx₁, projectID⟩, htarget, db₁, hsprints, scan, htodos, db₂, htags, tx'',
    hcontent, rfl⟩ := h
  obtain ⟨sprints, rfl⟩ := insertSprintsForImport_sprintsOnly hsprints
  have hsame : SameStories tx.1.db { tx₁.db with sprints := sprints } := by
    rcases mergeTarget_writes htarget with ⟨_, _, _, hrewrites⟩ | ⟨_, _, _, _, _, hfounds⟩
    · exact hrewrites.sameStories
    · exact hfounds.sameStories
  have hlinks : AroundOnly db₂ (clearLinks db₂ projectID) := rfl
  have hcontent := hlinks.trans (importContent_aroundOnly hcontent)
  have hafter := (importTags_tagsOnly htags).contentOnly.trans hcontent.contentOnly
  refine ⟨projectID, rfl, fun hown => ?_⟩
  refine storiesImported_of_loop (fun s t s' hready hok => mergeTodo_tagged hstable hready hok) hlocal hdb
    hsame (hown.before (fun s t s' hok => ?_) htodos hafter) htodos
    ((importTags_tagsKeep htags).trans hcontent.tagsKeep) hafter.todos
  rcases mergeTodo_cases hok with ⟨u, _, hon⟩ | ⟨u, _, hnew, _⟩
  · exact ⟨u, .inl hon⟩
  · exact ⟨u, .inr hnew⟩

theorem mem_buildTodoTagMap {stories : List TodoExport} {imported : ImportedTodos}
    {x : ℤ × List String} : x ∈ buildTodoTagMap stories imported ↔
      ∃ y ∈ stories.zip imported.todoIDs, y.2 ≠ 0 ∧ y.1.tags ≠ [] ∧ x = (y.2, y.1.tags) := by
  rw [buildTodoTagMap, List.mem_filterMap]
  refine exists_congr fun y => and_congr_right fun _ => ?_
  obtain ⟨t, id⟩ := y
  dsimp only
  split
  · rename_i hskip
    exact iff_of_false (by simp) fun h => hskip.elim h.1 h.2.1
  · rename_i hkept
    rw [not_or] at hkept
    rw [Option.some.injEq, eq_comm]
    exact ⟨fun h => ⟨hkept.1, hkept.2, h⟩, fun h => h.2.2⟩

/-- Linking through the map gives a story the names of its own that the map has. -/
theorem linked_logicalTags {db₅ db₆ : DB} {p : ProjectExport} {imported : ImportedTodos}
    {tagIDs : List (String × ℤ)} {id : ℤ} {listed : Set String}
    (hkeys : ∀ k id, tagIDs.lookup k = some id → HasTagKey rt db₅ k id)
    (hsome : ∀ k, (tagIDs.lookup k).isSome = true ↔ k ∈ listed)
    (hids : (db₅.tags.map (·.id)).Nodup) (hnodup : imported.todoIDs.Nodup)
    (hlength : imported.todoIDs.length = p.todos.length)
    (hmem : (t, id) ∈ p.todos.zip imported.todoIDs) (hpos : 0 < id)
    (hnone : ∀ r ∈ db₅.todoTags, r.todoID ≠ id)
    (h : bulkLinkTodoTags rt db₅ (buildTodoTagMap p.todos imported) tagIDs = .ok db₆) :
    logicalTags rt db₆ id = canonicalNames rt t.tags ∩ listed ∧ LinksResolve db₆ id := by
  obtain ⟨htags, hlinks⟩ := bulkLinkTodoTags_links h
  have hzip : ((p.todos.zip imported.todoIDs).map (·.2)).Nodup := by
    rw [List.map_snd_zip hlength.le]
    exact hnodup
  have hrows : ∀ tagID, ⟨id, tagID⟩ ∈ db₆.todoTags ↔
      ∃ k ∈ canonicalNames rt t.tags, tagIDs.lookup k = some tagID := by
    intro tagID
    rw [hlinks]
    constructor
    · rintro (hold | ⟨x, hx, hid, hname⟩)
      · exact absurd rfl (hnone _ hold)
      · obtain ⟨y, hy, -, -, rfl⟩ := mem_buildTodoTagMap.mp hx
        cases List.inj_on_of_nodup_map hzip hmem hy hid
        exact hname
    · rintro ⟨k, ⟨n, hn, rfl⟩, hlookup⟩
      refine .inr ⟨(id, t.tags), mem_buildTodoTagMap.mpr ⟨(t, id), hmem, hpos.ne', ?_, rfl⟩, rfl, _,
        ⟨n, hn, rfl⟩, hlookup⟩
      rintro heq
      rw [heq] at hn
      cases hn
  have hkey : ∀ k tagID, tagIDs.lookup k = some tagID → ∀ row ∈ db₆.tags, row.id = tagID →
      tagGroupKey rt row.name = k := by
    intro k tagID hlookup row hrow hid
    obtain ⟨x, hx, hxid, hxkey⟩ := hkeys k tagID hlookup
    obtain ⟨row', hrow', hid', hname'⟩ := mem_tagNames.mp hx
    cases List.inj_on_of_nodup_map hids (htags ▸ hrow) hrow' (hid.trans (hxid.symm.trans hid'.symm))
    rw [hname', hxkey]
  have hfound : ∀ k tagID, tagIDs.lookup k = some tagID → ∃ row ∈ db₆.tags, row.id = tagID := by
    intro k tagID hlookup
    obtain ⟨x, hx, hxid, -⟩ := hkeys k tagID hlookup
    obtain ⟨row, hrow, hid, -⟩ := mem_tagNames.mp hx
    exact ⟨row, htags ▸ hrow, hid.trans hxid⟩
  constructor
  · ext k
    constructor
    · rintro ⟨r, hr, rfl, row, hrow, hid, rfl⟩
      obtain ⟨k, hk, hlookup⟩ := (hrows r.tagID).mp hr
      rw [hkey k r.tagID hlookup row hrow hid]
      exact ⟨hk, (hsome k).mp (by rw [hlookup]; rfl)⟩
    · rintro ⟨hk, hlisted⟩
      obtain ⟨tagID, hlookup⟩ := Option.isSome_iff_exists.mp ((hsome k).mpr hlisted)
      obtain ⟨row, hrow, hid⟩ := hfound k tagID hlookup
      exact ⟨⟨id, tagID⟩, (hrows tagID).mpr ⟨k, hk, hlookup⟩, rfl, row, hrow, hid,
        hkey k tagID hlookup row hrow hid⟩
  · rintro r hr rfl
    obtain ⟨k, -, hlookup⟩ := (hrows r.tagID).mp hr
    obtain ⟨row, hrow, hid⟩ := hfound k r.tagID hlookup
    exact List.mem_map.mpr ⟨row, hrow, hid⟩

theorem bulkInsertTodos_same {stories : List TodoExport} {r : ImportResult}
    (h : stories.foldlM (bulkInsertTodo projectID sprintID) { db := db, result := r } = .ok s) :
    s.db.tags = db.tags ∧ s.db.users = db.users := by
  refine foldlM_inv (P := fun s => s.db.tags = db.tags ∧ s.db.users = db.users)
    (fun s t s' _ hs hok => ?_) ⟨rfl, rfl⟩ h
  simp only [bulkInsertTodo, bind_eq_ok, pure_eq_ok] at hok
  obtain ⟨_, _, ⟨db₁, u⟩, hins, rfl⟩ := hok
  obtain ⟨-, -, rfl⟩ := insertTodo_eq_ok hins
  exact hs

/-- A replace gives each story the tags that it lists and its project lists too. -/
theorem stageProject_tags (hstable : CanonicalStable rt) {draws : ℕ → ProjectDraws} {mode : Mode}
    {batchID : String} {i : ℕ} {p : ProjectExport} {tx tx' : ImportTx}
    (hlocal : (p.todos.map (·.localID)).Nodup) (hdb : TagTables tx.db)
    (h : stageProject rt ctx draws mode batchID tx (p, i) = .ok tx') :
    (bulkTagUser ctx tx.db).isSome = true →
      StoriesImported rt (newProjectID tx.db) p.todos
        (fun t => canonicalNames rt t.tags ∩ canonicalNames rt (p.tags.map (·.name))) tx.db tx'.db := by
  simp only [stageProject, bind_eq_ok, pure_eq_ok] at h
  obtain ⟨⟨db₀, projectID⟩, hinsert, db₁, hagenda, db₂, hworkflow, db₃, htiers, db₄, hsprints, scan,
    htodos, ⟨db₅, tagIDs⟩, htags, db₆, hlink, tx'', hcontent, rfl⟩ := h
  obtain ⟨sprints, rfl⟩ := insertSprintsForImport_sprintsOnly hsprints
  have hfounds : ∃ face : ProjectFace, face.id = projectID ∧
      Founds p face tx.db { db₃ with sprints := sprints } := by
    obtain ⟨face, hid, -, hfounds⟩ := stageProject_founds hinsert hagenda hworkflow htiers
    exact ⟨face, hid, hfounds⟩
  obtain ⟨face, rfl, hfounds⟩ := hfounds
  have hsame := hfounds.sameStories
  have hdb' := hsame.tagTables hdb
  simp only [bulkInsertTodos, bind_eq_ok] at htodos
  obtain ⟨_, _, htodos⟩ := htodos
  obtain ⟨harrived, hlinks⟩ := scanArrived_of_foldlM (I := LinksOfTodos) (T := Untagged)
    (fun s t s' hlinks hok => bulkInsertTodo_untagged hlinks hok)
    (scanArrived_start tx.result hdb'.todos (by rw [hsame.todos]; exact List.Subset.refl _))
    hdb'.links (by simpa using hlocal) htodos
  obtain ⟨hscanTags, hscanUsers⟩ := bulkInsertTodos_same htodos
  have huser : bulkTagUser ctx scan.db = bulkTagUser ctx tx.db := by
    rw [bulkTagUser, hscanUsers, hsame.users]
    rfl
  obtain ⟨hkeep, hkeys, hsome⟩ := bulkUpsertTags_map hstable htags
  have hcontent := importContent_aroundOnly hcontent
  have hafter := ((bulkUpsertTags_tagsOnly htags).contentOnly.trans
    (bulkLinkTodoTags_tagsOnly hlink).contentOnly).trans hcontent.contentOnly
  rw [← hfounds.id_eq]
  intro hown
  refine harrived.imported hafter.todos fun t _ id huntagged hmem => ?_
  have hids := hkeep.ids (by rw [hscanTags]; exact hdb'.tags)
  have hnone : ∀ r ∈ db₅.todoTags, r.todoID ≠ id := fun r hr =>
    huntagged.2 r ((hkeep.links r (Set.notMem_empty _)).mp hr)
  have hlisted : ∀ k, (tagIDs.lookup k).isSome = true ↔ k ∈ canonicalNames rt (p.tags.map (·.name)) :=
    fun k => by rw [hsome, huser, and_iff_right hown]
  obtain ⟨hlogical, hresolve⟩ := linked_logicalTags hkeys hlisted hids harrived.nodup harrived.length
    hmem huntagged.1 hnone hlink
  have hids₆ : (db₆.tags.map (·.id)).Nodup := by
    rw [(bulkLinkTodoTags_links hlink).1]
    exact hids
  exact (hcontent.tagsKeep.logicalTags_eq (Set.notMem_empty id) hids₆ hresolve).trans hlogical

end

/-- A project with a story under a tag that its tag list does not have. -/
def bugProject : ProjectExport where
  slug := "board"
  name := "Board"
  todos := [{ localID := 1, title := "Story", status := "BACKLOG", tags := ["bug"] }]

end Scrumboy
