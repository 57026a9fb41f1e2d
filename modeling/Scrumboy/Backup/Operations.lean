import Scrumboy.Backup.Checked

/-!
# Requests and imports

The store as one transition system: interactive requests, and imports of backups.
An invariant of the store is carried through an import project by project; the rules
here take care of the rest of each mode.
-/

namespace Scrumboy

open Go Sql

/-- `ImportProjects`, the entry that names no board. -/
def importBackup (rt : Runtime) (ctx : Ctx) (db : DB) (req : ImportRequest) : DB :=
  (importProjects rt ctx db { req with targetSlug := "" }).1

inductive Operation
  | request (r : Request)
  | importBackup (req : ImportRequest)

/-- An operation as a transition. -/
def perform (rt : Runtime) (db : DB) (op : Ctx × Operation) : DB :=
  match op.2 with
  | .request r => serve rt db (op.1, r)
  | .importBackup req => importBackup rt op.1 db req

/-- The ways in which an import that passed its checks changes the database. -/
inductive ImportOutcome (rt : Runtime) (ctx : Ctx) (db : DB) (req : ImportRequest) (db' : DB) : Prop
  | replaced (himport : req.importMode = .replace)
      (h : (importReplaceAll rt ctx req.draws req.batchID db req.data req.mode).1 = db')
  | merged (himport : req.importMode = .merge) (hmode : req.mode = .full) (r : ImportResult)
      (h : importMerge rt ctx req.draws db req.data = .ok (db', r))
  | copied (himport : req.importMode = .copy ∨ req.importMode = .merge ∧ req.mode = .anonymous)
      (r : ImportResult) (h : importCreateCopy rt ctx req.draws db req.data req.mode = .ok (db', r))

theorem transact_fst {α : Type} (db : DB) (x : Result (DB × α)) :
    (transact db x).1 = db ∨ ∃ a, x = .ok ((transact db x).1, a) := by
  cases x with
  | error e => exact .inl rfl
  | ok out => exact .inr ⟨out.2, rfl⟩

theorem importBackup_cases (rt : Runtime) (ctx : Ctx) (db : DB) (req : ImportRequest) :
    importBackup rt ctx db req = db ∨
      (BackupChecked req.importMode req.data ∧
        validateImportPreflight rt ctx db req.data req.mode req.importMode = .ok () ∧
        ImportOutcome rt ctx db req (importBackup rt ctx db req)) := by
  unfold importBackup importProjects
  cases hcheck : checkImport ctx { req with targetSlug := "" } with
  | error e => exact .inl rfl
  | ok u =>
      have hdata : validateBackupData ctx req.data = .ok () := by
        simp only [checkImport, bind_eq_ok] at hcheck
        exact hcheck.choose_spec.1
      simp only [ne_eq, not_true_eq_false, false_and, if_false]
      cases hpre : validateImportPreflight rt ctx db req.data req.mode req.importMode with
      | error e => exact .inl rfl
      | ok u =>
          have hchecked := backupChecked hdata hpre
          cases himport : req.importMode with
          | replace => exact .inr ⟨himport ▸ hchecked, rfl, .replaced himport rfl⟩
          | merge =>
              simp only
              rcases transact_fst db (importMergeUpdate rt ctx req.draws db req.data req.mode)
                with heq | ⟨r, hr⟩
              · exact .inl heq
              · refine .inr ⟨himport ▸ hchecked, trivial, ?_⟩
                generalize (transact db (importMergeUpdate rt ctx req.draws db req.data req.mode)).1 =
                  db' at hr ⊢
                unfold importMergeUpdate at hr
                split at hr
                · rename_i hmode
                  exact .copied (.inr ⟨himport, hmode⟩) r hr
                · rename_i hmode
                  refine .merged himport ?_ r hr
                  cases hm : req.mode with
                  | full => rfl
                  | anonymous => exact absurd hm hmode
          | copy =>
              simp only
              rcases transact_fst db (importCreateCopy rt ctx req.draws db req.data req.mode)
                with heq | ⟨r, hr⟩
              · exact .inl heq
              · exact .inr ⟨himport ▸ hchecked, trivial, .copied (.inl himport) r hr⟩
          | other name => exact .inl rfl

/-! ## Rules for invariants -/

section

variable {I : DB → Prop} {rt : Runtime} {ctx : Ctx} {draws : ℕ → ProjectDraws} {mode : Mode}
  {data : ExportData} {db : DB}

theorem importCreateCopy_inv {db' : DB} {r : ImportResult}
    (hproject : ∀ s p i s', p ∈ data.projects → I s.db →
      copyProject rt ctx draws mode s (p, i) = .ok s' → I s'.db)
    (hdb : I db) (h : importCreateCopy rt ctx draws db data mode = .ok (db', r)) : I db' := by
  simp only [importCreateCopy, bind_eq_ok, pure_eq_ok, Prod.mk.injEq] at h
  obtain ⟨tx, hfold, rfl, _⟩ := h
  refine foldlM_inv (P := fun s => I s.db) (fun s pi s' hpi hs hstep => ?_) hdb hfold
  exact hproject s pi.1 pi.2 s' (List.fst_mem_of_mem_zipIdx hpi) hs hstep

theorem stageProjects_inv {batchID : String}
    (hproject : ∀ s p i s', p ∈ data.projects → I s.db →
      stageProject rt ctx draws mode batchID s (p, i) = .ok s' → I s'.db)
    {s : ImportTx} {l : List (ProjectExport × ℕ)} (hl : ∀ pi ∈ l, pi.1 ∈ data.projects)
    (hs : I s.db) : I (stageProjects rt ctx draws mode batchID s l).1 := by
  induction l generalizing s with
  | nil => exact hs
  | cons pi l ih =>
      rw [stageProjects]
      cases hstage : stageProject rt ctx draws mode batchID s pi with
      | error e => exact hs
      | ok s' =>
          refine ih (fun qi hqi => hl qi (List.mem_cons_of_mem _ hqi)) ?_
          exact hproject s pi.1 pi.2 s' (hl pi List.mem_cons_self) hs hstage

theorem promoteStaging_eq_ok {db' : DB} {batchID : String} (h : promoteStaging db batchID = .ok db') :
    db' = { db with
      projects := updateWhere (·.importBatchID == some batchID)
        (fun p => { p with importBatchID := none }) db.projects } := by
  simp only [promoteStaging, bind_eq_ok, pure_eq_ok] at h
  obtain ⟨_, _, rfl⟩ := h
  rfl

/-- A replace stages, and then deletes and promotes, or only deletes. -/
theorem importReplaceAll_inv {batchID : String}
    (hproject : ∀ s p i s', p ∈ data.projects → I s.db →
      stageProject rt ctx draws mode batchID s (p, i) = .ok s' → I s'.db)
    (hdelete : ∀ db gone, I db → I (deleteProjects db gone))
    (hpromote : ∀ db db', I db → promoteStaging db batchID = .ok db' → I db') (hdb : I db) :
    I (importReplaceAll rt ctx draws batchID db data mode).1 := by
  have hstaged : I (stageProjects rt ctx draws mode batchID ⟨db, {}⟩ data.projects.zipIdx).1 :=
    stageProjects_inv hproject (fun pi hpi => List.fst_mem_of_mem_zipIdx hpi) hdb
  unfold importReplaceAll
  split
  · exact hdb
  · split
    · rename_i heq
      rw [heq] at hstaged
      exact hdelete _ _ hstaged
    · rename_i heq
      rw [heq] at hstaged
      split
      · exact hdelete _ _ hstaged
      · rename_i db' hswap
        simp only [swapStaging, bind_eq_ok] at hswap
        obtain ⟨_, _, selected, _, hswap⟩ := hswap
        exact hpromote _ _ (hdelete _ _ hstaged) hswap

end

end Scrumboy
