import Scrumboy.Backup.Activities
import Scrumboy.Store.Slugs

/-!
# Slugs through runs

The slugs of a store through runs of everything that makes or changes a slug: new
projects and boards, the backfill and the rewrite of slugs, and imports. An import is
less careful than the store. A replace takes the slug of the backup as it is, a copy
appends to the slug of the name without cutting it, and a merge puts its numbers behind
nothing when a random slug is taken. Where an import meets none of the three, every
project stays addressable.
-/

set_option linter.dupNamespace false

namespace Scrumboy

open Go Sql Transition

inductive ProjectOperation
  | createProject (name : String) (workflow : Option (List WorkflowColumn))
  | createAnonymousBoard (draws : List String)
  | ensureProjectHasSlug (projectID : ℤ) (name draw : String)
  | rewriteDurableProjectSlugs
  | importProjects (req : ImportRequest)

/-- An operation on projects as a transition: one that fails changes nothing, except for
what an import leaves behind. -/
def operate (rt : Runtime) (db : DB) (op : Ctx × ProjectOperation) : DB :=
  match op.2 with
  | .createProject name workflow =>
      ((createProjectWithWorkflow op.1 db name workflow).toOption.map (·.1)).getD db
  | .createAnonymousBoard draws => (createAnonymousBoard rt op.1 db draws).1
  | .ensureProjectHasSlug projectID name draw =>
      (ensureProjectHasSlug db projectID name draw).toOption.getD db
  | .rewriteDurableProjectSlugs => (rewriteDurableProjectSlugs db).toOption.getD db
  | .importProjects req => (importProjects rt op.1 db req).1

/-- The random slugs of an operation come from `randomSlug`. -/
def ProjectOperation.Drawn : ProjectOperation → Prop
  | .createProject .. => True
  | .createAnonymousBoard draws => ∀ slug ∈ draws, IsDraw slug
  | .ensureProjectHasSlug _ _ draw => IsDraw draw
  | .rewriteDurableProjectSlugs => True
  | .importProjects req => ∀ i, IsDraw (req.draws i).slug

/-! ## What an import must not meet -/

/-- The slugs that a replace takes from the backup are slugs. -/
def ReplaceSlugs (data : ExportData) : Prop :=
  ∀ p ∈ data.projects, p.slug ≠ "" → trimSpace p.slug = p.slug ∧ isValidSlug p.slug = true

/-- The slugs of the names leave room for what a copy appends. -/
def CopySlugs (data : ExportData) : Prop :=
  ∀ p ∈ data.projects, ∀ base, generateSlugFromName p.name = .ok base →
    byteLen base + byteLen "-imported" ≤ maxSlugLen

/-- The name gives no slug. -/
def NoSlug (name : String) : Prop := (generateSlugFromName name).isOk = false

/-- A slug that a merge draws, because the name gives none, is that of no project of the
store and of no project of the backup. -/
structure MergeSlugs (db : DB) (data : ExportData) (draws : ℕ → ProjectDraws) : Prop where
  store : ∀ pi ∈ data.projects.zipIdx, NoSlug pi.1.name → slugTaken db (draws pi.2).slug = false
  named : ∀ pi ∈ data.projects.zipIdx, NoSlug pi.1.name → ∀ q ∈ data.projects,
    generateSlugFromName q.name ≠ .ok (draws pi.2).slug
  drawn : data.projects.zipIdx.Pairwise fun pi qj => NoSlug pi.1.name → NoSlug qj.1.name →
    (draws pi.2).slug ≠ (draws qj.2).slug

/-- The condition on an import, by its mode. Without accounts a merge is a copy. -/
def ImportRequest.SlugsFit (db : DB) (req : ImportRequest) : Prop :=
  match req.importMode, req.mode with
  | .replace, _ => ReplaceSlugs req.data
  | .merge, .full => MergeSlugs db req.data req.draws
  | .merge, .anonymous => CopySlugs req.data
  | .copy, _ => CopySlugs req.data
  | .other _, _ => True

def SlugsFit (db : DB) (op : Ctx × ProjectOperation) : Prop :=
  match op.2 with
  | .importProjects req => req.IntoBoard ∨ req.SlugsFit db
  | _ => True

/-! ## The projects of an import -/

section

variable {rt : Runtime} {ctx : Ctx} {p : ProjectExport} {db db' : DB} {batchID : Option String}

theorem Founds.faces {face : ProjectFace} (h : Founds p face db db') :
    face.id = nextRowid (db.projects.map (·.id)) ∧ db'.faces = db.faces ++ [face] := by
  obtain ⟨projects, members, db₁, db₂, sprints, hid, hfaces, _, hworkflow, htiers, rfl⟩ := h
  obtain ⟨_, rfl⟩ := (importWorkflow_columnsOnly hworkflow).exists_eq
  obtain ⟨_, rfl⟩ := (replaceProjectPriorityTiersFromExport_prioritiesOnly htiers).exists_eq
  exact ⟨hid, hfaces⟩

theorem Rewrites.faces {projectID : ℤ} (h : Rewrites p projectID db db') : db'.faces = db.faces := by
  obtain ⟨projects, db₁, db₂, sprints, hfaces, _, hworkflow, htiers, rfl⟩ := h
  obtain ⟨_, rfl⟩ := (mergeWorkflow_columnsOnly hworkflow).exists_eq
  obtain ⟨_, rfl⟩ := (mergePriorities_prioritiesOnly htiers).exists_eq
  exact hfaces

theorem KeepsSettings.faces (h : KeepsSettings db db') : db'.faces = db.faces := by
  rw [DB.faces, DB.faces, h.projects]

/-- The projects do not change once the settings of a project are written. -/
theorem Brings.faces {projectID : ℤ} {W : DB → Prop} (h : Brings p projectID W db') :
    ∃ db₁, W db₁ ∧ db'.faces = db₁.faces := by
  obtain ⟨db₁, r, scan, hsettings, hall, hcontent⟩ := h
  exact ⟨db₁, hsettings, hcontent.keepsSettings.faces.trans hall.keepsSettings.faces⟩

/-- A new project of an import. -/
theorem SlugTable.founds (hdb : SlugTable batchID db.faces) {face : ProjectFace}
    (h : Founds p face db db') (hslug : IsSlug face.slug ∧ isReservedProjectSlug face.slug = false)
    (hbatch : face.importBatchID = none ∨ face.importBatchID = batchID)
    (hfree : face.importBatchID = none → slugTaken db face.slug = false) :
    SlugTable batchID db'.faces := by
  obtain ⟨hid, hfaces⟩ := h.faces
  rw [hfaces]
  refine hdb.add (hid ▸ nextRowid_not_mem_faces db) hslug hbatch fun hvisible f hf _ heq => ?_
  obtain ⟨q, hq, rfl⟩ := DB.mem_faces.mp hf
  exact List.any_eq_false.mp (hfree hvisible) q hq (beq_iff_eq.mpr heq)

theorem firstFreeSlug_spec {mode : Mode} {candidates : List String} {slug : String}
    (h : firstFreeSlug db mode candidates = .ok slug) :
    slug ∈ candidates ∧ (mode = .full → isReservedProjectSlug slug = false) ∧
      slugTaken db slug = false := by
  unfold firstFreeSlug at h
  split at h
  · rename_i found hfind
    cases h
    have hsat := List.find?_some hfind
    rw [Bool.and_eq_true, Bool.not_eq_true', Bool.not_eq_true'] at hsat
    refine ⟨List.mem_of_find?_eq_some hfind, ?_, hsat.2⟩
    rintro rfl
    simpa using hsat.1
  · cases h

/-! ## Copy -/

/-- A number of a list that is read as a list of integers. -/
theorem mem_cast_list {l : List ℕ} {i : ℤ}
    (h : i ∈ (do let a ← l; pure (a : ℤ) : List ℤ)) : ∃ n ∈ l, (n : ℤ) = i := by
  simp only [List.bind_eq_flatMap, List.mem_flatMap] at h
  obtain ⟨n, hn, hi⟩ := h
  exact ⟨n, hn, (List.mem_singleton.mp hi).symm⟩

theorem byteLen_imported : byteLen "-imported" = 9 := by decide +kernel

/-- What a copy appends keeps a short slug a slug. -/
theorem copySlugCandidates_isSlug {draws : ProjectDraws} (hdraw : IsDraw draws.slug)
    (hroom : ∀ base, generateSlugFromName p.name = .ok base →
      byteLen base + byteLen "-imported" ≤ maxSlugLen)
    {slug : String} (h : slug ∈ copySlugCandidates p draws) :
    IsSlug slug ∧ isReservedProjectSlug slug = false := by
  have hmax : maxSlugLen = 32 := rfl
  have hbase : IsSlug (baseSlugOrDraw p.name draws.slug) := isSlug_baseSlugOrDraw hdraw p.name
  have hsize : byteLen (baseSlugOrDraw p.name draws.slug) + byteLen "-imported" ≤ maxSlugLen := by
    unfold baseSlugOrDraw
    split
    · rename_i base hok
      exact hroom base hok
    · rw [hdraw.byteLen]
      decide +kernel
  change slug ∈ (baseSlugOrDraw p.name draws.slug ++ "-imported") ::
    (List.range' 3 99).map (fun i => baseSlugOrDraw p.name draws.slug ++ "-" ++ formatInt i) at h
  generalize baseSlugOrDraw p.name draws.slug = base at hbase hsize h
  have hall : IsSlug slug ∧ '-' ∈ slug.toList := by
    rcases List.mem_cons.mp h with rfl | h
    · have hword : SlugForm "imported".toList := slugForm_word (by decide +kernel)
        (List.all_eq_true.mp (by decide +kernel))
      exact ⟨.append (t := "imported") hbase.form hword hsize, by simp⟩
    · obtain ⟨i, hi, rfl⟩ := List.mem_map.mp h
      obtain ⟨n, hn, rfl⟩ := mem_cast_list hi
      rw [List.mem_range'_1] at hn
      have hsuffix := byteLen_suffix_le (n := n) (by omega)
      rw [byteLen_imported] at hsize
      rw [String.append_assoc]
      exact ⟨.append hbase.form (slugForm_formatInt n) (by omega), by simp⟩
  exact ⟨hall.1, hall.1.not_reserved hall.2⟩

theorem SlugTable.importCreateCopy {draws : ℕ → ProjectDraws} {data : ExportData} {mode : Mode}
    {r : ImportResult} (hdb : SlugTable batchID db.faces) (hdraws : ∀ i, IsDraw (draws i).slug)
    (hroom : CopySlugs data) (h : Scrumboy.importCreateCopy rt ctx draws db data mode = .ok (db', r)) :
    SlugTable batchID db'.faces := by
  refine importCreateCopy_inv (I := fun db => SlugTable batchID db.faces)
    (fun s p i s' hp hs hstep => ?_) hdb h
  obtain ⟨face, db₁, _, _, scan, ⟨hbatch, hslug⟩, hfounds, htodos, hcontent⟩ := copyProject_writes hstep
  have hall := landsAll_of_foldlM (fun _ _ _ => copyTodo_lands) htodos
  obtain ⟨hmem, _, hfree⟩ := firstFreeSlug_spec hslug
  rw [hcontent.keepsSettings.faces, hall.keepsSettings.faces]
  exact hs.founds hfounds (copySlugCandidates_isSlug (hdraws i) (hroom p hp) hmem) (.inl hbatch)
    fun _ => hfree

/-! ## Merge -/

theorem slugTaken_eq (db : DB) (slug : String) : slugTaken db slug = db.faces.any (·.slug == slug) := by
  rw [slugTaken, DB.faces, List.any_map]
  rfl

theorem hyphen_mem_slugCandidate (base : String) (i : ℕ) : '-' ∈ (slugCandidate base (i + 1)).toList := by
  rw [slugCandidate_succ, numberedSlug]
  split
  · simp
  · simp

/-- The slug that a merge finds for a new project, if a random one is not taken. -/
theorem mergeSlug_spec {draws : ProjectDraws} {slug : String} (hdraw : IsDraw draws.slug)
    (hfree : NoSlug p.name → slugTaken db draws.slug = false)
    (h : firstFreeSlug db .full (mergeSlugCandidates p draws) = .ok slug) :
    IsSlug slug ∧ (NoSlug p.name ∧ slug = draws.slug ∨ generateSlugFromName p.name = .ok slug ∨
      '-' ∈ slug.toList) := by
  unfold mergeSlugCandidates at h
  split at h
  · rename_i base hbase
    obtain ⟨i, hi, rfl⟩ := List.mem_map.mp (firstFreeSlug_spec h).1
    refine ⟨(isSlug_generateSlugFromName hbase).candidate (List.mem_range.mp hi), .inr ?_⟩
    cases i with
    | zero => exact .inl hbase
    | succ i => exact .inr (hyphen_mem_slugCandidate base i)
  · rename_i e hbase
    have hno : NoSlug p.name := by
      rw [NoSlug, hbase]
      rfl
    rw [firstFreeSlug, List.find?_cons_of_pos (by simp [hdraw.not_reserved, hfree hno])] at h
    cases h
    exact ⟨hdraw.isSlug, .inl ⟨hno, rfl⟩⟩

theorem SlugTable.mergeProjects {draws : ℕ → ProjectDraws} {selected : Selector}
    (hdraws : ∀ i, IsDraw (draws i).slug) {l : List (ProjectExport × ℕ)} {s s' : ImportTx × List ℤ}
    (hs : SlugTable batchID s.1.db.faces)
    (hstore : ∀ pi ∈ l, NoSlug pi.1.name → slugTaken s.1.db (draws pi.2).slug = false)
    (hnamed : ∀ pi ∈ l, NoSlug pi.1.name → ∀ qj ∈ l,
      generateSlugFromName qj.1.name ≠ .ok (draws pi.2).slug)
    (hdrawn : l.Pairwise fun pi qj => NoSlug pi.1.name → NoSlug qj.1.name →
      (draws pi.2).slug ≠ (draws qj.2).slug)
    (h : l.foldlM (mergeProject rt ctx draws selected) s = .ok s') :
    SlugTable batchID s'.1.db.faces := by
  induction l generalizing s with
  | nil =>
      rw [List.foldlM_nil, pure_eq_ok] at h
      exact h ▸ hs
  | cons pi l ih =>
      rw [List.foldlM_cons, bind_eq_ok] at h
      obtain ⟨s₁, hstep, hrest⟩ := h
      obtain ⟨db₁, projectID, _, r, scan, htarget, htodos, hcontent, _⟩ := mergeProject_writes hstep
      have hall := landsAll_of_foldlM (fun _ _ _ => mergeTodo_lands) htodos
      have hfaces : s₁.1.db.faces = db₁.faces :=
        hcontent.keepsSettings.faces.trans hall.keepsSettings.faces
      rw [List.pairwise_cons] at hdrawn
      have hnamed' : ∀ pi ∈ l, NoSlug pi.1.name → ∀ qj ∈ l,
          generateSlugFromName qj.1.name ≠ .ok (draws pi.2).slug := fun qj hqj hno rk hrk =>
        hnamed qj (List.mem_cons_of_mem _ hqj) hno rk (List.mem_cons_of_mem _ hrk)
      rcases htarget with ⟨row, _, _, hrewrites⟩ | ⟨face, _, _, hslug, hbatch, hfounds⟩
      · rw [hrewrites.faces] at hfaces
        refine ih (hfaces ▸ hs) (fun qj hqj hno => ?_) hnamed' hdrawn.2 hrest
        rw [slugTaken_eq, hfaces, ← slugTaken_eq]
        exact hstore qj (List.mem_cons_of_mem _ hqj) hno
      · obtain ⟨hform, hwhence⟩ := mergeSlug_spec (hdraws pi.2) (hstore pi List.mem_cons_self) hslug
        obtain ⟨_, hreserved, hfree⟩ := firstFreeSlug_spec hslug
        refine ih ?_ (fun qj hqj hno => ?_) hnamed' hdrawn.2 hrest
        · rw [hfaces]
          exact hs.founds hfounds ⟨hform, hreserved rfl⟩ (.inl hbatch) fun _ => hfree
        · -- the new slug is not one that a later project draws
          have hne : face.slug ≠ (draws qj.2).slug := by
            intro heq
            rcases hwhence with ⟨hno', heq'⟩ | hgen | hyphen
            · exact hdrawn.1 qj hqj hno' hno (heq'.symm.trans heq)
            · exact hnamed qj (List.mem_cons_of_mem _ hqj) hno pi List.mem_cons_self (heq ▸ hgen)
            · rw [heq] at hyphen
              exact ne_hyphen_of_isLowerAlnum ((hdraws qj.2).word.2 '-' hyphen) rfl
          have hbefore := hstore qj (List.mem_cons_of_mem _ hqj) hno
          rw [slugTaken_eq] at hbefore
          rw [slugTaken_eq, hfaces, hfounds.faces.2, List.any_append, hbefore]
          simpa using hne

theorem SlugTable.importMerge {draws : ℕ → ProjectDraws} {data : ExportData} {r : ImportResult}
    (hdb : SlugTable batchID db.faces) (hdraws : ∀ i, IsDraw (draws i).slug)
    (hslugs : MergeSlugs db data draws) (h : Scrumboy.importMerge rt ctx draws db data = .ok (db', r)) :
    SlugTable batchID db'.faces := by
  simp only [Scrumboy.importMerge, bind_eq_ok, pure_eq_ok, Prod.mk.injEq] at h
  obtain ⟨selected, _, _, _, ⟨tx, ids⟩, hfold, _, _, rfl, _⟩ := h
  exact hdb.mergeProjects hdraws hslugs.store
    (fun pi hpi hno qj hqj => hslugs.named pi hpi hno qj.1 (List.fst_mem_of_mem_zipIdx hqj))
    hslugs.drawn hfold

/-! ## Replace -/

theorem stagingSlug_spec {batch : String} {draws : ProjectDraws} {slug : String}
    (hdraw : IsDraw draws.slug)
    (hvalid : p.slug ≠ "" → trimSpace p.slug = p.slug ∧ isValidSlug p.slug = true)
    (h : stagingSlug db .full batch p draws = .ok slug) :
    IsSlug slug ∧ isReservedProjectSlug slug = false := by
  have hcandidates : ∀ base, IsSlug base → ∀ slug ∈ stagingSlugCandidates base, IsSlug slug := by
    intro base hbase slug hslug
    obtain ⟨i, hi, rfl⟩ := List.mem_map.mp hslug
    obtain ⟨n, hn, rfl⟩ := mem_cast_list hi
    have hlt := List.mem_range.mp hn
    exact hbase.numbered (n := n + 1) (by omega)
  unfold stagingSlug at h
  extract_lets base at h
  have hbase : IsSlug base := by
    change IsSlug (if p.slug ≠ "" then p.slug else baseSlugOrDraw p.name draws.slug)
    split
    · rename_i hne
      exact isSlug_iff.mpr (hvalid hne)
    · exact isSlug_baseSlugOrDraw hdraw p.name
  clear_value base
  split at h
  · split at h
    · rename_i found hfind
      cases h
      have hsat := List.find?_some hfind
      simp only [beq_self_eq_true, Bool.true_and, Bool.and_eq_true, Bool.not_eq_true'] at hsat
      exact ⟨hcandidates base hbase slug (List.mem_of_find?_eq_some hfind), hsat.1⟩
    · cases h
  · rename_i hkept
    cases h
    simp only [beq_self_eq_true, Bool.true_and, Bool.or_eq_true, not_or, Bool.not_eq_true] at hkept
    exact ⟨hbase, hkept.2⟩

theorem faces_deleteProjects (db : DB) (gone : ProjectRow → Bool) :
    (deleteProjects db gone).faces.Sublist db.faces := List.filter_sublist.map _

/-- What is left of a batch goes. -/
theorem SlugTable.cleanupStaging {batch : String} (h : SlugTable (some batch) db.faces) :
    SlugTable none (Scrumboy.cleanupStaging db batch).faces := by
  have hkept := h.sublist (faces_deleteProjects db (·.importBatchID == some batch))
  refine ⟨hkept.ids, hkept.slugs, hkept.unique, fun f hf => .inl ?_⟩
  refine (hkept.batches f hf).resolve_right fun hbatch => ?_
  obtain ⟨p, hp, rfl⟩ := DB.mem_faces.mp hf
  have hgone := (mem_deleteWhere.mp hp).2
  rw [beq_eq_false_iff_ne] at hgone
  exact hgone hbatch

/-- The staged projects come into sight, and the index makes sure of their slugs. -/
theorem SlugTable.swapStaging {batch : String} {mode : Mode} (h : SlugTable (some batch) db.faces)
    (hok : Scrumboy.swapStaging ctx db mode batch = .ok db') : SlugTable none db'.faces := by
  simp only [Scrumboy.swapStaging, promoteStaging, bind_eq_ok, reject_eq_ok, not_not, pure_eq_ok] at hok
  obtain ⟨_, _, selected, _, _, hnodup, rfl⟩ := hok
  have hkept := h.sublist (faces_deleteProjects db fun p => selected db p && p.importBatchID == none)
  generalize deleteProjects db (fun p => selected db p && p.importBatchID == none) = kept at hkept hnodup ⊢
  have hrows : ∀ f ∈ (updateWhere (·.importBatchID == some batch)
      (fun p : ProjectRow => { p with importBatchID := none }) kept.projects).map ProjectRow.face,
      (∃ g ∈ kept.faces, f.slug = g.slug) ∧ f.importBatchID = none := by
    intro f hf
    obtain ⟨q, hq, rfl⟩ := List.mem_map.mp hf
    obtain ⟨p, hp, rfl⟩ := mem_updateWhere.mp hq
    have hface := DB.mem_faces.mpr ⟨p, hp, rfl⟩
    split
    · exact ⟨⟨p.face, hface, rfl⟩, rfl⟩
    · rename_i hstays
      exact ⟨⟨p.face, hface, rfl⟩, (hkept.batches p.face hface).resolve_right fun hbatch =>
        hstays (beq_iff_eq.mpr hbatch)⟩
  refine ⟨?_, fun f hf => ?_, ?_, fun f hf => .inl (hrows f hf).2⟩
  · rw [← DB.projectIDs_eq]
    refine (congrArg List.Nodup (map_updateWhere ProjectRow.id ?_ kept.projects)).mpr ?_
    · exact fun _ => rfl
    · exact kept.projectIDs_eq ▸ hkept.ids
  · obtain ⟨⟨g, hg, heq⟩, _⟩ := hrows f hf
    rw [heq]
    exact hkept.slugs g hg
  · rw [DB.faces, List.filter_map, List.map_map]
    exact hnodup

/-- A replace that ends leaves no project staged. -/
theorem SlugTable.importReplaceAll {draws : ℕ → ProjectDraws} {data : ExportData} {batch : String}
    (hdb : SlugTable none db.faces) (hdraws : ∀ i, IsDraw (draws i).slug) (hslugs : ReplaceSlugs data) :
    SlugTable none (Scrumboy.importReplaceAll rt ctx draws batch db data .full).1.faces := by
  have hstaged : SlugTable (some batch)
      (stageProjects rt ctx draws .full batch ⟨db, {}⟩ data.projects.zipIdx).1.faces := by
    have hprojects : ∀ pi ∈ data.projects.zipIdx, pi.1 ∈ data.projects := fun pi hpi =>
      List.fst_mem_of_mem_zipIdx hpi
    refine stageProjects_inv (I := fun db => SlugTable (some batch) db.faces) ?_ hprojects
      (hdb.of_none _)
    intro s p i s' hp hs hstep
    obtain ⟨face, db₁, _, _, scan, ⟨hbatch, hslug⟩, hfounds, htodos, hcontent⟩ :=
      stageProject_writes hstep
    simp only [bulkInsertTodos, bind_eq_ok] at htodos
    obtain ⟨_, _, htodos⟩ := htodos
    have hall := landsAll_of_foldlM (fun _ _ _ => bulkInsertTodo_lands) htodos
    rw [hcontent.keepsSettings.faces, hall.keepsSettings.faces]
    refine hs.founds hfounds (stagingSlug_spec (hdraws i) (hslugs p hp) hslug) (.inr hbatch) ?_
    rw [hbatch]
    exact fun hvisible => nomatch hvisible
  unfold Scrumboy.importReplaceAll
  split
  · exact hdb
  · split
    · rename_i heq
      rw [heq] at hstaged
      exact hstaged.cleanupStaging
    · rename_i heq
      rw [heq] at hstaged
      split
      · exact hstaged.cleanupStaging
      · rename_i hok
        exact hstaged.swapStaging hok

/-! ## Imports and runs -/

theorem importIntoBoard_faces {data : ExportData} {targetSlug : String} {r : ImportResult}
    (h : importIntoBoard rt ctx db data targetSlug = .ok (db', r)) : db'.faces = db.faces := by
  simp only [importIntoBoard, bind_eq_ok, pure_eq_ok, Prod.mk.injEq] at h
  obtain ⟨row, _, _, _, _, _, _, _, tx, hfold, rfl, _⟩ := h
  have htx : tx.db.faces = db.faces := by
    refine foldlM_inv (P := fun s : ImportTx => s.db.faces = db.faces) (fun s p s' _ hs hstep => ?_) rfl
      hfold
    obtain ⟨db₁, rfl, hfaces⟩ := (boardProject_brings hstep).faces
    exact hfaces.trans hs
  refine Eq.trans ?_ htx
  apply map_updateWhere
  intro p
  rfl

/-- Without accounts nothing is replaced. -/
theorem importProjects_refused {req : ImportRequest} (hreplace : req.importMode = .replace)
    (hmode : req.mode = .anonymous) : (importProjects rt ctx db req).1 = db := by
  unfold importProjects
  cases hcheck : checkImport ctx req with
  | error e => rfl
  | ok u =>
      simp only [checkImport, bind_eq_ok, reject_eq_ok] at hcheck
      obtain ⟨_, _, _, _, hallowed⟩ := hcheck
      exact absurd ⟨hreplace, hmode⟩ hallowed

theorem SlugTable.importProjects {req : ImportRequest} (hdb : SlugTable none db.faces)
    (hdraws : ∀ i, IsDraw (req.draws i).slug) (hfit : req.IntoBoard ∨ req.SlugsFit db) :
    SlugTable none (Scrumboy.importProjects rt ctx db req).1.faces := by
  rcases importProjects_cases rt ctx db req with heq | ⟨_, r, hok⟩ | ⟨hboard, _, _, hout⟩
  · rwa [heq]
  · rwa [importIntoBoard_faces hok]
  · have hslugs := hfit.resolve_left hboard
    unfold ImportRequest.SlugsFit at hslugs
    cases hmode : req.mode with
    | full =>
        cases hout with
        | replaced himport hreplace =>
            rw [himport] at hslugs
            rw [← hreplace, hmode]
            exact hdb.importReplaceAll hdraws hslugs
        | merged himport _ r hmerge =>
            rw [himport, hmode] at hslugs
            exact hdb.importMerge hdraws hslugs hmerge
        | copied himport r hcopy =>
            rcases himport with himport | ⟨_, hanonymous⟩
            · rw [himport] at hslugs
              exact hdb.importCreateCopy hdraws hslugs hcopy
            · rw [hmode] at hanonymous
              cases hanonymous
    | anonymous =>
        cases hout with
        | replaced himport _ => rwa [importProjects_refused himport hmode]
        | merged _ hfull _ _ =>
            rw [hmode] at hfull
            cases hfull
        | copied himport r hcopy =>
            rcases himport with himport | ⟨himport, _⟩
            · rw [himport] at hslugs
              exact hdb.importCreateCopy hdraws hslugs hcopy
            · rw [himport, hmode] at hslugs
              exact hdb.importCreateCopy hdraws hslugs hcopy

end

theorem SlugTable.operate {rt : Runtime} {db : DB} {op : Ctx × ProjectOperation}
    (hdb : SlugTable none db.faces) (hdrawn : op.2.Drawn) (hfit : SlugsFit db op) :
    SlugTable none (Scrumboy.operate rt db op).faces := by
  obtain ⟨ctx, op⟩ := op
  cases op with
  | createProject name workflow =>
      simp only [Scrumboy.operate]
      cases h : Scrumboy.createProjectWithWorkflow ctx db name workflow with
      | error e => exact hdb
      | ok out => exact hdb.createProjectWithWorkflow h
  | createAnonymousBoard draws => exact hdb.createAnonymousBoard rt ctx hdrawn
  | ensureProjectHasSlug projectID name draw =>
      simp only [Scrumboy.operate]
      cases h : Scrumboy.ensureProjectHasSlug db projectID name draw with
      | error e => exact hdb
      | ok db' => exact hdb.ensureProjectHasSlug hdrawn h
  | rewriteDurableProjectSlugs =>
      simp only [Scrumboy.operate]
      cases h : Scrumboy.rewriteDurableProjectSlugs db with
      | error e => exact hdb
      | ok db' => exact hdb.rewriteDurableProjectSlugs h
  | importProjects req => exact hdb.importProjects hdrawn hfit

/-- A project can be reached by its slug, and by nothing else. -/
structure Addressable (db : DB) (p : ProjectRow) : Prop where
  visible : p.importBatchID = none
  valid : isValidSlug p.slug = true
  unreserved : isReservedProjectSlug p.slug = false
  unique : ∀ q ∈ db.projects, q.slug = p.slug → q = p
  found : getProjectBySlug db p.slug = .ok p

theorem SlugTable.addressable {db : DB} (h : SlugTable none db.faces) {p : ProjectRow}
    (hp : p ∈ db.projects) : Addressable db p := by
  have hvisible : ∀ q ∈ db.projects, q.importBatchID = none := fun q hq =>
    (h.batches q.face (DB.mem_faces.mpr ⟨q, hq, rfl⟩)).elim id id
  obtain ⟨hslug, hunreserved⟩ := h.slugs p.face (DB.mem_faces.mpr ⟨p, hp, rfl⟩)
  exact ⟨hvisible p hp, (isSlug_iff.mp hslug).2, hunreserved,
    fun q hq => h.eq_of_slug hp hq (hvisible p hp) (hvisible q hq), h.getProjectBySlug_eq hp (hvisible p hp)⟩

/-- Every project stays addressable in every run whose imports meet the conditions. -/
theorem projects_addressable (rt : Runtime) {db : DB} {ops : List (Ctx × ProjectOperation)}
    (hdb : SlugTable none db.faces) (hdrawn : ∀ op ∈ ops, op.2.Drawn)
    (hfit : Along SlugsFit (operate rt) db ops) :
    ∀ p ∈ (run (operate rt) db ops).projects, Addressable (run (operate rt) db ops) p := by
  induction ops generalizing db with
  | nil => exact fun p hp => hdb.addressable hp
  | cons op ops ih =>
      exact ih (hdb.operate (hdrawn op List.mem_cons_self) hfit.1)
        (fun op' hop' => hdrawn op' (List.mem_cons_of_mem _ hop')) hfit.2

/-- A backup of one project without todos. -/
def namedBackup (importMode : ImportMode) (slug name : String) : ImportRequest where
  data := { projects := [{ slug := slug, name := name }] }
  mode := .full
  importMode := importMode
  batchID := "batch"
  draws := fun _ => ⟨"00000000", fun _ => 0, fun _ => 0⟩

theorem isDraw_zeros : IsDraw "00000000" := ⟨List.replicate 8 0, rfl, by decide +kernel⟩

/-- A board, a copy of it, and a merge of a project whose name gives no slug. -/
def namedSession : List (Ctx × ProjectOperation) :=
  [(⟨some 1, 5⟩, .createProject "Board" none),
    (⟨some 1, 6⟩, .importProjects (namedBackup .copy "board" "Board")),
    (⟨some 1, 7⟩, .importProjects (namedBackup .merge "plan" "計画"))]

/-- The three projects of such a session are addressable. -/
theorem projects_addressable_session :
    (run (operate plainRuntime) { users := [1] } namedSession).projects.map (·.slug) =
        ["board", "board-imported", "00000000"] ∧
      ∀ p ∈ (run (operate plainRuntime) { users := [1] } namedSession).projects,
        Addressable (run (operate plainRuntime) { users := [1] } namedSession) p := by
  have hempty : SlugTable none ({ users := [1] } : DB).faces :=
    ⟨List.nodup_nil, fun _ hf => (nomatch hf), List.nodup_nil, fun _ hf => (nomatch hf)⟩
  have hcopy : ∀ base, generateSlugFromName "Board" = .ok base →
      byteLen base + byteLen "-imported" ≤ maxSlugLen := by
    intro base hbase
    have hboard : (generateSlugFromName "Board").toOption = some "board" := by decide +kernel
    rw [hbase] at hboard
    cases hboard
    decide +kernel
  refine ⟨by decide +kernel, projects_addressable plainRuntime hempty ?_ ⟨trivial, .inr ?_, .inr ?_, trivial⟩⟩
  · intro op hop
    simp only [namedSession, List.mem_cons, List.not_mem_nil, or_false] at hop
    rcases hop with rfl | rfl | rfl
    · exact trivial
    · exact fun _ => isDraw_zeros
    · exact fun _ => isDraw_zeros
  · intro p hp
    cases List.mem_singleton.mp hp
    exact hcopy
  · refine ⟨?_, ?_, List.pairwise_singleton _ _⟩
    · intro pi hpi _
      cases List.mem_singleton.mp hpi
      decide +kernel
    · intro pi hpi _ q hq heq
      cases List.mem_singleton.mp hq
      have hok : (generateSlugFromName "計画").isOk = true := congrArg Except.isOk heq
      exact absurd hok (by decide +kernel)

/-- A copy of a project with a long name, a replace with a slug that is none, and a merge
that draws the slug of a board: each leaves a project that has no valid slug and is not
found under the one it has. -/
theorem project_not_addressable :
    (∃ db, db = run (operate plainRuntime) { users := [1] }
        [(⟨some 1, 5⟩, .importProjects (namedBackup .copy "plan" "Quarterly planning of the team"))] ∧
      ∃ p ∈ db.projects, p.importBatchID = none ∧ p.slug = "quarterly-planning-of-the-team-imported" ∧
        isValidSlug p.slug = false ∧ (getProjectBySlug db p.slug).isOk = false) ∧
    (∃ db, db = run (operate plainRuntime) { users := [1] }
        [(⟨some 1, 5⟩, .importProjects (namedBackup .replace "My Board" "Board"))] ∧
      ∃ p ∈ db.projects, p.importBatchID = none ∧ p.slug = "My Board" ∧
        isValidSlug p.slug = false ∧ (getProjectBySlug db p.slug).isOk = false) ∧
    (∃ db, db = run (operate plainRuntime) { users := [1] }
        [(⟨some 1, 5⟩, .createAnonymousBoard ["00000000"]),
          (⟨some 1, 6⟩, .importProjects (namedBackup .merge "plan" "計画"))] ∧
      ∃ p ∈ db.projects, p.importBatchID = none ∧ p.slug = "-2" ∧
        isValidSlug p.slug = false ∧ (getProjectBySlug db p.slug).isOk = false) := by
  refine ⟨⟨_, rfl, ?_⟩, ⟨_, rfl, ?_⟩, ⟨_, rfl, ?_⟩⟩
  · decide +kernel
  · decide +kernel
  · decide +kernel

end Scrumboy
