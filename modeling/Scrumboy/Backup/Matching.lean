import Scrumboy.Backup.Operations

/-!
# Matching projects

A merge looks for the project of each slug in the database as its own earlier
projects have left it. What was there before keeps its slug and its members, so a
project that matched before the import still does; but a project that the import
made a moment ago can be matched as well, when its slug happens to be that of a later
project of the backup.
-/

set_option linter.dupNamespace false

namespace Scrumboy

open Go Sql

/-- A condition on projects that looks at the face of a project and at its members. -/
def IsLocal (selected : Selector) : Prop :=
  ∀ (db db' : DB) (p p' : ProjectRow), p'.face = p.face →
    (∀ m : MemberRow, m.projectID = p.id → (m ∈ db'.members ↔ m ∈ db.members)) →
    selected db' p' = selected db p

theorem exportableProjectsSelector_isLocal {ctx : Ctx} {db : DB} {mode : Mode} {selected : Selector}
    (h : exportableProjectsSelector ctx db mode = .ok selected) : IsLocal selected := by
  unfold exportableProjectsSelector at h
  split at h
  · cases h
  · split at h
    · split at h
      · cases h
      · rename_i userID _
        obtain rfl := pure_eq_ok.mp h
        intro db db' p p' hface hmembers
        obtain ⟨hid, _, hexpires, hcreator, _⟩ := ProjectFace.mk.inj hface
        have hany : (db'.members.any fun m => m.projectID == p'.id && m.userID == userID &&
            m.role == .maintainer) = db.members.any fun m => m.projectID == p.id && m.userID == userID &&
            m.role == .maintainer := by
          rw [Bool.eq_iff_iff, List.any_eq_true, List.any_eq_true, hid]
          constructor
          · rintro ⟨m, hm, hsel⟩
            simp only [Bool.and_eq_true, beq_iff_eq] at hsel
            exact ⟨m, (hmembers m hsel.1.1).mp hm, by simpa using hsel⟩
          · rintro ⟨m, hm, hsel⟩
            simp only [Bool.and_eq_true, beq_iff_eq] at hsel
            exact ⟨m, (hmembers m hsel.1.1).mpr hm, by simpa using hsel⟩
        simp only [hexpires, hcreator, hany]
    · obtain rfl := pure_eq_ok.mp h
      intro _ _ _ _ _ _
      rfl

theorem findProject_eq_some {db : DB} {selected : Selector} {slug : String} {row : ProjectRow}
    (h : findProject db selected slug = some row) : row ∈ db.projects ∧ row.slug = slug := by
  have hsel := List.find?_some h
  simp only [Bool.and_eq_true, beq_iff_eq] at hsel
  exact ⟨List.mem_of_find?_eq_some h, hsel.1⟩

/-- Two lists that show the same faces have the same first element that a condition
on faces selects. -/
theorem find?_face_congr {ps ps' : List ProjectRow} {f f' : ProjectRow → Bool}
    (hfaces : ps'.map ProjectRow.face = ps.map ProjectRow.face)
    (hf : ∀ p ∈ ps, ∀ p' ∈ ps', p'.face = p.face → f' p' = f p) :
    (ps'.find? f').map ProjectRow.face = (ps.find? f).map ProjectRow.face := by
  induction ps generalizing ps' with
  | nil =>
      rw [List.map_nil, List.map_eq_nil_iff] at hfaces
      rw [hfaces]
      rfl
  | cons p ps ih =>
      cases ps' with
      | nil => cases hfaces
      | cons p' ps' =>
          rw [List.map_cons, List.map_cons, List.cons.injEq] at hfaces
          have hhead := hf p List.mem_cons_self p' List.mem_cons_self hfaces.1
          have htail := ih hfaces.2 fun q hq q' hq' =>
            hf q (List.mem_cons_of_mem _ hq) q' (List.mem_cons_of_mem _ hq')
          rw [List.find?_cons, List.find?_cons, hhead]
          cases f p with
          | true => simp [hfaces.1]
          | false => exact htail

/-- The database `db` of an import that started from `db₀` and made projects under the
slugs `created`. -/
structure Progress (db₀ : DB) (created : List String) (db : DB) : Prop where
  faces : ∃ new : List ProjectFace, db.faces = db₀.faces ++ new ∧ new.map (·.slug) = created
  members : ∀ m : MemberRow, m.projectID ∈ db₀.projects.map (·.id) →
    (m ∈ db.members ↔ m ∈ db₀.members)

section

variable {db₀ db db' : DB} {created : List String}

theorem Progress.refl (db : DB) : Progress db [] db := ⟨⟨[], by simp⟩, fun _ _ => Iff.rfl⟩

theorem Progress.mem_projects (h : Progress db₀ created db) {id : ℤ}
    (hid : id ∈ db₀.projects.map (·.id)) : id ∈ db.projects.map (·.id) := by
  obtain ⟨new, hfaces, _⟩ := h.faces
  rw [DB.projectIDs_eq, hfaces, List.map_append, ← DB.projectIDs_eq]
  exact List.mem_append_left _ hid

theorem Progress.keeps (h : Progress db₀ created db) (hkeep : KeepsProjects db db') :
    Progress db₀ created db' where
  faces := by
    rw [hkeep.faces]
    exact h.faces
  members m hm := by rw [hkeep.members, h.members m hm]

theorem Progress.content (h : Progress db₀ created db) (hcontent : ContentOnly db db') :
    Progress db₀ created db' :=
  h.keeps ⟨by simp only [DB.faces, hcontent.projects], hcontent.members⟩

theorem AddsProject.fresh {face : ProjectFace} (hadds : AddsProject face db db') {id : ℤ}
    (hid : id ∈ db.projects.map (·.id)) : id ≠ face.id := by
  rw [hadds.id_eq]
  exact (lt_nextRowid hid).ne

theorem Progress.adds {face : ProjectFace} (h : Progress db₀ created db)
    (hadds : AddsProject face db db') : Progress db₀ (created ++ [face.slug]) db' where
  faces := by
    obtain ⟨new, hfaces, hnew⟩ := h.faces
    exact ⟨new ++ [face], by rw [hadds.faces, hfaces, List.append_assoc], by simp [hnew]⟩
  members m hm := by rw [hadds.members m (hadds.fresh (h.mem_projects hm)), h.members m hm]

/-- The face of the project of a slug: the one that matched before the import, or else
one that the import made. -/
theorem Progress.findProject (h : Progress db₀ created db) {selected : Selector}
    (hlocal : IsLocal selected) (slug : String) :
    (∀ row, Scrumboy.findProject db₀ selected slug = some row →
      ∃ row', Scrumboy.findProject db selected slug = some row' ∧ row'.face = row.face) ∧
    (Scrumboy.findProject db₀ selected slug = none → slug ∉ created →
      Scrumboy.findProject db selected slug = none) := by
  obtain ⟨new, hfaces, hnew⟩ := h.faces
  obtain ⟨old, made, hsplit, hold, hmade⟩ := List.map_eq_append_iff.mp hfaces
  have hfind : (old.find? fun p => p.slug == slug && selected db p).map ProjectRow.face =
      (Scrumboy.findProject db₀ selected slug).map ProjectRow.face := by
    refine find?_face_congr hold fun p hp p' _ hface => ?_
    have hslug : p'.slug = p.slug := congrArg ProjectFace.slug hface
    rw [hslug, hlocal db₀ db p p' hface]
    intro m hm
    exact h.members m (hm ▸ List.mem_map_of_mem hp)
  have hdb : Scrumboy.findProject db selected slug =
      (old.find? fun p => p.slug == slug && selected db p).or
        (made.find? fun p => p.slug == slug && selected db p) := by
    rw [Scrumboy.findProject, hsplit, List.find?_append]
  constructor
  · intro row hrow
    rw [hrow, Option.map_some, Option.map_eq_some_iff] at hfind
    obtain ⟨row', hrow', hface⟩ := hfind
    exact ⟨row', by rw [hdb, hrow', Option.some_or], hface⟩
  · intro hnone hslug
    rw [hnone, Option.map_none, Option.map_eq_none_iff] at hfind
    rw [hdb, hfind, Option.none_or, List.find?_eq_none]
    intro p hp hsel
    apply hslug
    rw [← hnew, ← hmade, List.map_map]
    simp only [Bool.and_eq_true, beq_iff_eq] at hsel
    exact List.mem_map.mpr ⟨p, hp, hsel.1⟩

end

/-! ## Slugs of new projects -/

/-- The slug of a new project among candidates, when the slugs `taken` are in use. -/
def newSlug (taken candidates : List String) : Option String :=
  candidates.find? fun slug => !isReservedProjectSlug slug && !taken.contains slug

/-- No project of a merge matches one that the same merge made. The projects of the
backup are gone through in order; `known` says which slugs matched before, `taken`
lists the slugs in use and `created` those that the merge made. -/
def NoCapture (known : String → Bool) (draws : ℕ → ProjectDraws) :
    List String → List String → List (ProjectExport × ℕ) → Prop
  | _, _, [] => True
  | taken, created, (p, i) :: rest =>
      if known p.slug then NoCapture known draws taken created rest
      else p.slug ∉ created ∧
        match newSlug taken (mergeSlugCandidates p (draws i)) with
        | none => True
        | some slug => NoCapture known draws (taken ++ [slug]) (created ++ [slug]) rest

instance NoCapture.decidable (known : String → Bool) (draws : ℕ → ProjectDraws) :
    ∀ taken created l, Decidable (NoCapture known draws taken created l)
  | _, _, [] => .isTrue trivial
  | taken, created, (p, i) :: rest =>
      have : Decidable (NoCapture known draws taken created rest) :=
        NoCapture.decidable known draws taken created rest
      have : ∀ slug, Decidable (NoCapture known draws (taken ++ [slug]) (created ++ [slug]) rest) :=
        fun slug => NoCapture.decidable known draws (taken ++ [slug]) (created ++ [slug]) rest
      have : Decidable (match newSlug taken (mergeSlugCandidates p (draws i)) with
          | none => True
          | some slug => NoCapture known draws (taken ++ [slug]) (created ++ [slug]) rest) :=
        match newSlug taken (mergeSlugCandidates p (draws i)) with
        | none => .isTrue trivial
        | some slug => this slug
      inferInstanceAs (Decidable (if known p.slug then _ else _ ∧ _))

theorem firstFreeSlug_eq_ok {db : DB} {candidates : List String} {slug : String}
    (h : firstFreeSlug db .full candidates = .ok slug) :
    newSlug (db.faces.map (·.slug)) candidates = some slug := by
  have hcontains : ∀ s, slugTaken db s = (db.faces.map (·.slug)).contains s := by
    intro s
    rw [slugTaken, DB.faces, List.map_map, Bool.eq_iff_iff, List.any_eq_true, List.contains_iff_mem,
      List.mem_map]
    simp [ProjectRow.face]
  unfold firstFreeSlug at h
  split at h
  · rename_i s hfind
    cases h
    simpa [newSlug, hcontains] using hfind
  · cases h

end Scrumboy
