import Scrumboy.Sql.Numbering
import Scrumboy.Store.Actions

/-!
# The shape of priority tiers

The tiers of a project have distinct keys and positions without gaps. Tiers are put at
the end, one by one, and a tier that goes closes the gap.
-/

set_option linter.dupNamespace false

namespace Scrumboy

open Go Sql

structure IsTierList (tiers : List PriorityTier) : Prop where
  keys : (tiers.map (·.key)).Nodup
  positions : Numbered (·.position) tiers

/-- The tiers of one project are written, and those of others stay. -/
structure Retiers (projectID : ℤ) (db db' : DB) : Prop where
  ids : (db.priorities.map (·.id)).Nodup → (db'.priorities.map (·.id)).Nodup
  tiers : IsTierList (db'.prioritiesOf projectID)
  other : ∀ q, q ≠ projectID → db'.prioritiesOf q = db.prioritiesOf q

/-- Every project has a list of tiers, and every tier belongs to a project. -/
structure TierInv (db : DB) : Prop where
  projects : (db.projects.map (·.id)).Nodup
  ids : (db.priorities.map (·.id)).Nodup
  owned : ∀ t ∈ db.priorities, t.projectID ∈ db.projects.map (·.id)
  tiers : ∀ q, IsTierList (db.prioritiesOf q)

section

variable {db db₁ db' : DB} {projectID : ℤ} {tier : PriorityTier} {tiers : List PriorityTier}

theorem isTierList_nil : IsTierList [] := ⟨List.nodup_nil, by decide⟩

theorem IsTierList.perm {tiers' : List PriorityTier} (h : IsTierList tiers)
    (hperm : tiers'.Perm tiers) : IsTierList tiers' :=
  ⟨(hperm.map _).nodup_iff.mpr h.keys, h.positions.perm hperm⟩

theorem Retiers.trans (h : Retiers projectID db db₁) (h' : Retiers projectID db₁ db') :
    Retiers projectID db db' where
  ids hids := h'.ids (h.ids hids)
  tiers := h'.tiers
  other q hq := (h'.other q hq).trans (h.other q hq)

theorem Retiers.congr {db₁' : DB} (h : Retiers projectID db₁ db₁')
    (hpriorities : db₁.priorities = db.priorities)
    (hpriorities' : db'.priorities = db₁'.priorities) : Retiers projectID db db' where
  ids hnodup := hpriorities' ▸ h.ids (hpriorities ▸ hnodup)
  tiers := by
    rw [DB.prioritiesOf, hpriorities']
    exact h.tiers
  other q hq := by
    rw [DB.prioritiesOf, hpriorities']
    refine (h.other q hq).trans ?_
    rw [DB.prioritiesOf, hpriorities, DB.prioritiesOf]

theorem DB.mem_prioritiesOf {q : ℤ} {t : PriorityTier} :
    t ∈ db.prioritiesOf q ↔ t ∈ db.priorities ∧ t.projectID = q := by
  simp [DB.prioritiesOf]

/-! ## Tiers at the end -/

theorem appendPriority_prioritiesOf (db : DB) (projectID q : ℤ) (tier : PriorityTier) :
    (appendPriority db projectID tier).prioritiesOf q = db.prioritiesOf q ++ if q = projectID then
      [({ tier with id := nextRowid (db.priorities.map (·.id)), projectID := projectID } : PriorityTier)]
        else [] := by
  rw [DB.prioritiesOf, appendPriority, List.filter_append]
  congr 1
  by_cases hq : q = projectID
  · simp [hq]
  · simp [hq, Ne.symm hq]

/-- A tier with a new key, in the next position. -/
theorem appendPriority_retiers (h : IsTierList (db.prioritiesOf projectID))
    (hkey : tier.key ∉ db.priorityKeys projectID)
    (hpos : tier.position = (db.prioritiesOf projectID).length) :
    Retiers projectID db (appendPriority db projectID tier) where
  ids hids := by simpa [appendPriority] using nodup_concat_nextRowid hids
  tiers := by
    rw [appendPriority_prioritiesOf, if_pos rfl]
    refine ⟨?_, h.positions.concat hpos⟩
    rw [List.map_append, List.map_singleton, ← List.concat_eq_append]
    exact List.Nodup.concat hkey h.keys
  other q hq := by rw [appendPriority_prioritiesOf, if_neg hq, List.append_nil]

theorem insertPriorityTier_eq_ok (h : insertPriorityTier projectID db tier = .ok db') :
    tier.key ∉ db.priorityKeys projectID ∧ db' = appendPriority db projectID tier := by
  unfold insertPriorityTier at h
  split at h
  · cases h
  · rename_i hkey
    cases h
    exact ⟨hkey, rfl⟩

/-- Tiers in the positions that follow. -/
theorem insertPriorityTiers_retiers (h : IsTierList (db.prioritiesOf projectID))
    (hpos : tiers.map (·.position) =
      (List.range' (db.prioritiesOf projectID).length tiers.length).map fun i : ℕ => (i : ℤ))
    (hok : insertPriorityTiers db projectID tiers = .ok db') :
    IsTierList (db'.prioritiesOf projectID) ∧ Retiers projectID db db' := by
  induction tiers generalizing db with
  | nil =>
      rw [insertPriorityTiers, List.foldlM_nil, pure_eq_ok] at hok
      exact hok ▸ ⟨h, id, h, fun _ _ => rfl⟩
  | cons tier tiers ih =>
      rw [insertPriorityTiers, List.foldlM_cons, bind_eq_ok] at hok
      obtain ⟨db₁, hins, hrest⟩ := hok
      obtain ⟨hkey, rfl⟩ := insertPriorityTier_eq_ok hins
      rw [List.map_cons, List.length_cons, List.range'_succ, List.map_cons, List.cons.injEq] at hpos
      have hfirst := appendPriority_retiers h hkey hpos.1
      have hlen : ((appendPriority db projectID tier).prioritiesOf projectID).length =
          (db.prioritiesOf projectID).length + 1 := by
        rw [appendPriority_prioritiesOf, if_pos rfl, List.length_append, List.length_singleton]
      obtain ⟨htiers, hrest⟩ := ih hfirst.tiers (hlen ▸ hpos.2) hrest
      exact ⟨htiers, hfirst.trans hrest⟩

/-- Without any of its keys there, a list of tiers is inserted as it is. -/
theorem insertPriorityTiers_eq_foldl (hnodup : (tiers.map (·.key)).Nodup)
    (hnew : ∀ tier ∈ tiers, tier.key ∉ db.priorityKeys projectID) :
    insertPriorityTiers db projectID tiers =
      .ok (tiers.foldl (insertOrIgnorePriority projectID) db) := by
  induction tiers generalizing db with
  | nil => rfl
  | cons tier tiers ih =>
      rw [List.map_cons, List.nodup_cons] at hnodup
      have hkey := hnew tier List.mem_cons_self
      have hins : insertPriorityTier projectID db tier = .ok (appendPriority db projectID tier) := by
        rw [insertPriorityTier, if_neg hkey]
      rw [insertPriorityTiers, List.foldlM_cons, hins, ok_bind, List.foldl_cons, insertOrIgnorePriority,
        if_neg hkey]
      refine ih hnodup.2 fun t ht hmem => ?_
      rw [DB.priorityKeys, appendPriority_prioritiesOf, if_pos rfl, List.map_append,
        List.map_singleton, List.mem_append, List.mem_singleton] at hmem
      rcases hmem with hmem | heq
      · exact hnew t (List.mem_cons_of_mem _ ht) hmem
      · exact hnodup.1 (List.mem_map.mpr ⟨t, ht, heq⟩)

/-- The default tiers of a project without any. -/
theorem ensureDefaultPriorityTiers_retiers (hempty : db.prioritiesOf projectID = []) :
    Retiers projectID db (ensureDefaultPriorityTiers db projectID) := by
  have hkeys : db.priorityKeys projectID = [] := by
    rw [DB.priorityKeys, hempty]
    rfl
  refine (insertPriorityTiers_retiers ?_ ?_ (insertPriorityTiers_eq_foldl ?_ (by simp [hkeys]))).2
  · rw [hempty]
    exact isTierList_nil
  · rw [hempty]
    decide
  · decide

/-! ## Tiers of a store -/

/-- A project that is not there has no tiers. -/
theorem TierInv.prioritiesOf_eq_nil (h : TierInv db) {q : ℤ} (hq : q ∉ db.projects.map (·.id)) :
    db.prioritiesOf q = [] := by
  rw [List.eq_nil_iff_forall_not_mem]
  intro t ht
  obtain ⟨hmem, hp⟩ := DB.mem_prioritiesOf.mp ht
  exact hq (hp ▸ h.owned t hmem)

theorem TierInv.congr (h : TierInv db) (hpriorities : db'.priorities = db.priorities)
    (hprojects : db'.projects.map (·.id) = db.projects.map (·.id)) : TierInv db' where
  projects := hprojects ▸ h.projects
  ids := hpriorities ▸ h.ids
  owned t ht := hprojects ▸ h.owned t (hpriorities ▸ ht)
  tiers q := by
    rw [DB.prioritiesOf, hpriorities]
    exact h.tiers q

theorem TierInv.retiers (h : TierInv db) (hr : Retiers projectID db db')
    (hnodup : (db'.projects.map (·.id)).Nodup)
    (hprojects : ∀ q, q ∈ db'.projects.map (·.id) ↔ q ∈ db.projects.map (·.id) ∨ q = projectID) :
    TierInv db' where
  projects := hnodup
  ids := hr.ids h.ids
  owned t ht := by
    rw [hprojects]
    by_cases hp : t.projectID = projectID
    · exact .inr hp
    · have hmem : t ∈ db'.prioritiesOf t.projectID := DB.mem_prioritiesOf.mpr ⟨ht, rfl⟩
      rw [hr.other _ hp] at hmem
      exact .inl (h.owned t (DB.mem_prioritiesOf.mp hmem).1)
  tiers q := by
    by_cases hp : q = projectID
    · exact hp ▸ hr.tiers
    · rw [hr.other q hp]
      exact h.tiers q

/-- A change of the tiers of a project that is there. -/
theorem TierInv.retiers_of_mem (h : TierInv db) (hr : Retiers projectID db db')
    (hproject : projectID ∈ db.projects.map (·.id))
    (hprojects : db'.projects.map (·.id) = db.projects.map (·.id)) : TierInv db' := by
  refine h.retiers hr (hprojects ▸ h.projects) fun q => ?_
  rw [hprojects]
  exact ⟨.inl, fun hq => hq.elim id fun heq => heq ▸ hproject⟩

/-- One project more, with its tiers. -/
theorem TierInv.adds (h : TierInv db) (hfresh : projectID ∉ db.projects.map (·.id))
    (hr : Retiers projectID db db')
    (hids : db'.projects.map (·.id) = db.projects.map (·.id) ++ [projectID]) : TierInv db' := by
  refine h.retiers hr ?_ fun q => ?_
  · rw [hids, ← List.concat_eq_append]
    exact List.Nodup.concat hfresh h.projects
  · rw [hids, List.mem_append, List.mem_singleton]

/-! ## Adding and deleting a tier -/

theorem getProjectPriorities_perm (db : DB) (projectID : ℤ) :
    (getProjectPriorities db projectID).Perm (db.prioritiesOf projectID) := orderBy_perm _ _

/-- A project with tiers is there. -/
theorem TierInv.mem_projects (h : TierInv db) (htiers : ¬ getProjectPriorities db projectID = []) :
    projectID ∈ db.projects.map (·.id) := by
  by_contra hproject
  have hperm := getProjectPriorities_perm db projectID
  rw [h.prioritiesOf_eq_nil hproject] at hperm
  exact htiers hperm.eq_nil

theorem addPriorityTier_retiers (h : TierInv db) {name : String}
    (hok : addPriorityTier db projectID name = .ok db') :
    projectID ∈ db.projects.map (·.id) ∧ Retiers projectID db db' ∧
      ∀ q, ∀ k ∈ db.priorityKeys q, k ∈ db'.priorityKeys q := by
  simp only [addPriorityTier, bind_eq_ok, mapError_eq_ok, reject_eq_ok] at hok
  obtain ⟨_, _, _, htiers, _, _, key, _, hins⟩ := hok
  obtain ⟨hkey, rfl⟩ := insertPriorityTier_eq_ok hins
  refine ⟨h.mem_projects htiers, appendPriority_retiers (h.tiers projectID) hkey ?_, fun q k hk => ?_⟩
  · exact congrArg _ (getProjectPriorities_perm db projectID).length_eq
  · rw [DB.priorityKeys, appendPriority_prioritiesOf, List.map_append]
    exact List.mem_append_left _ hk

theorem setPriorityPositions_eq (f : ℕ → ℤ) (rows : List PriorityTier) (db : DB) :
    setPriorityPositions db (rows.zipIdx.map fun p => (p.1.id, f p.2)) = { db with
      priorities := renumber (·.id) (fun t n => { t with position := n }) f rows db.priorities } := by
  unfold setPriorityPositions renumber
  generalize rows.zipIdx.map (fun p => (p.1.id, f p.2)) = ps
  induction ps generalizing db with
  | nil => rfl
  | cons p ps ih => rw [List.foldl_cons, ih, List.foldl_cons]

theorem deletePriorityTier_retiers (h : TierInv db) {key : String}
    (hok : deletePriorityTier db projectID key = .ok db') :
    projectID ∈ db.projects.map (·.id) ∧ Retiers projectID db db' ∧
      ∀ t ∈ db.todos, ∀ k ∈ t.priorityKey, k ∈ db.priorityKeys t.projectID →
        k ∈ db'.priorityKeys t.projectID := by
  simp only [deletePriorityTier, bind_eq_ok, reject_eq_ok] at hok
  obtain ⟨_, _, _, htiers, hok⟩ := hok
  split at hok
  · rename_i target hfind
    simp only [bind_eq_ok, reject_eq_ok, pure_eq_ok] at hok
    obtain ⟨_, _, _, hunused, rfl⟩ := hok
    refine ⟨h.mem_projects htiers, ?_⟩
    have htarget := List.find?_some hfind
    rw [beq_iff_eq] at htarget
    generalize hrest : (getProjectPriorities db projectID).eraseP (·.key == trimSpace key) = rest
    have hcons : (db.prioritiesOf projectID).Perm (target :: rest) :=
      (getProjectPriorities_perm db projectID).symm.trans (hrest ▸ find?_cons_eraseP_perm hfind)
    have hdelete := delete_owned_perm h.ids hcons
    have hids₂ : ((deleteWhere (fun t => t.id == target.id) db.priorities).map (·.id)).Nodup :=
      h.ids.sublist (List.filter_sublist.map _)
    obtain ⟨hids, hother, htiers'⟩ := renumber_owned
      (fun (t : PriorityTier) n => { t with position := n }) (fun i => (i : ℤ))
      (fun _ _ => rfl) (fun _ _ => rfl) hids₂ hdelete.symm
    have hsame := fun q hq => (hother q hq).trans
      (delete_owned_eq h.ids (hcons.mem_iff.mpr List.mem_cons_self) hq)
    have hkeys : (rest.zipIdx.map fun p => { p.1 with position := (p.2 : ℤ) }).map (·.key) =
        rest.map (·.key) := by
      rw [List.map_map, map_eq_zipIdx_map (·.key) rest]
      rfl
    have hnodup : ((target :: rest).map (·.key)).Nodup :=
      (hcons.map _).nodup_iff.mp (h.tiers projectID).keys
    rw [List.map_cons, List.nodup_cons] at hnodup
    have heq := setPriorityPositions_eq (fun i => (i : ℤ)) rest { db with
      priorities := deleteWhere (fun t => t.id == target.id) db.priorities }
    refine ⟨⟨fun _ => ?_, ?_, fun q hq => ?_⟩, fun t ht k hk hmem => ?_⟩
    · rw [heq]
      exact hids ▸ hids₂
    · rw [heq]
      refine IsTierList.perm ⟨hkeys ▸ hnodup.2, ?_⟩ htiers'
      refine numbered_zipIdx (fun (t : PriorityTier) (i : ℕ) => { t with position := (i : ℤ) })
        (fun _ _ => ?_) rest
      rfl
    · rw [heq]
      exact hsame q hq
    · rw [heq]
      by_cases hp : t.projectID = projectID
      · -- No todo of the project has the key that goes.
        have hne : k ≠ target.key := by
          rintro rfl
          refine hunused (List.any_eq_true.mpr ⟨t, ht, ?_⟩)
          simp [hp, Option.mem_def.mp hk, htarget]
        rw [hp] at hmem ⊢
        refine ((htiers'.map (·.key)).mem_iff).mpr ?_
        rw [hkeys]
        exact (List.mem_cons.mp ((hcons.map _).mem_iff.mp hmem)).resolve_left hne
      · have htiers := congrArg (List.map (·.key)) (hsame t.projectID hp)
        exact (congrArg (k ∈ ·) htiers).mpr hmem
  · cases hok

end

end Scrumboy
