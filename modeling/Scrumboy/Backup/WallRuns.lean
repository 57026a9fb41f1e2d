import Scrumboy.Backup.WallMerges
import Scrumboy.Transition.Locked

/-!
# Walls under concurrent mutations

The mutations of one wall take its lock, except for a merge, which writes the wall in its own
transaction. An edit of the document reads the wall in one transaction and writes it in
another. So the mutations have run one after the other when no merge has changed the wall
between the two, and the version tells walls apart when every merge brings a larger one.
-/

set_option linter.dupNamespace false

namespace Scrumboy

open Go Sql Transition

/-- A mutation that holds the lock of the wall. -/
inductive LockedMutation
  | edit (e : WallEdit)
  | pinWallStory (localID : ℤ) (x y : ℚ)
  | patchWallStory (localID ifVersion : ℤ) (x y : ℚ)
  | unpinWallStory (localID : ℤ)
  | deleteTodo (todoID : ℤ)

inductive WallMutation
  | locked (m : LockedMutation)
  | importMerge (draws : ℕ → ProjectDraws) (data : ExportData)

def LockedMutation.exec (ctx : Ctx) (db : DB) (projectID : ℤ) : LockedMutation → Result DB
  | .edit e => e.exec ctx db projectID
  | .pinWallStory localID x y => (Scrumboy.pinWallStory ctx db projectID localID x y).map (·.1)
  | .patchWallStory localID ifVersion x y =>
      (Scrumboy.patchWallStory ctx db projectID localID ifVersion x y).map (·.1)
  | .unpinWallStory localID => Scrumboy.unpinWallStory ctx db projectID localID
  | .deleteTodo todoID => Scrumboy.deleteTodo ctx db todoID

def WallMutation.exec (rt : Runtime) (ctx : Ctx) (db : DB) (projectID : ℤ) : WallMutation → Result DB
  | .locked m => m.exec ctx db projectID
  | .importMerge draws data => (Scrumboy.importMerge rt ctx draws db data).map (·.1)

/-- The database after a call, and what the call returned. -/
def settle (db : DB) : Result DB → DB × Result Unit
  | .ok db' => (db', .ok ())
  | .error e => (db, .error e)

/-- A whole mutation as a transition. -/
def mutateWall (rt : Runtime) (projectID : ℤ) (db : DB) (m : Ctx × WallMutation) : DB × Result Unit :=
  settle db (m.2.exec rt m.1 db projectID)

/-- What an edit carries from its read to its write: the wall that it has read, and the wall
that it will write. -/
structure PlannedWrite where
  ctx : Ctx
  read : Wall
  write : Wall

/-- An edit returns from its read, or it goes on to a write. The other mutations are one
transaction. -/
def wallOperations (rt : Runtime) (projectID : ℤ) :
    Operations DB (Ctx × WallMutation) (Result Unit) PlannedWrite where
  start db m :=
    match m.2 with
    | .locked (.edit e) =>
        match e.plan (getWall db projectID) with
        | .error err => .inl (db, .error err)
        | .ok none => .inl (db, .ok ())
        | .ok (some wall) => .inr ⟨m.1, getWall db projectID, wall⟩
    | _ => .inl (mutateWall rt projectID db m)
  finish db g := settle db (writeWallLocked g.ctx db projectID g.write)

inductive WallEvent
  | lock (ctx : Ctx) (m : LockedMutation)
  | step
  | merge (ctx : Ctx) (draws : ℕ → ProjectDraws) (data : ExportData)

def WallEvent.lockEvent : WallEvent → LockEvent (Ctx × WallMutation)
  | .lock ctx m => .lock (ctx, .locked m)
  | .step => .step
  | .merge ctx draws data => .free (ctx, .importMerge draws data)

/-- The mutations of one wall in progress. -/
abbrev WallServer := Locked DB (Ctx × WallMutation) (Result Unit) PlannedWrite

def wallStep (rt : Runtime) (projectID : ℤ) (t : WallServer) (e : WallEvent) : WallServer :=
  (wallOperations rt projectID).step t e.lockEvent

/-- A write finds the wall as it was read, and a merge brings a larger version. -/
def WallFits (projectID : ℤ) (t : WallServer) : WallEvent → Prop
  | .lock _ _ => True
  | .step => ∀ g ∈ t.holder.bind (·.2), g.read = getWall t.store projectID
  | .merge ctx _ data => ∀ w ∈ mergedWalls ctx t.store data projectID,
      (getWall t.store projectID).version < w.storedVersion

instance (projectID : ℤ) (t : WallServer) : (e : WallEvent) → Decidable (WallFits projectID t e)
  | .lock _ _ => inferInstanceAs (Decidable True)
  | .step => inferInstanceAs (Decidable (∀ g ∈ t.holder.bind (·.2), g.read = getWall t.store projectID))
  | .merge ctx _ data => inferInstanceAs (Decidable (∀ w ∈ mergedWalls ctx t.store data projectID,
      (getWall t.store projectID).version < w.storedVersion))

section

variable {rt : Runtime} {ctx : Ctx} {projectID : ℤ} {db db' : DB}

/-- The two steps of a mutation together are the mutation. -/
theorem wallOperations_serial (rt : Runtime) (projectID : ℤ) :
    (wallOperations rt projectID).serial = mutateWall rt projectID := by
  funext db m
  obtain ⟨ctx, m⟩ := m
  match m with
  | .importMerge draws data => rfl
  | .locked (.pinWallStory localID x y) => rfl
  | .locked (.patchWallStory localID ifVersion x y) => rfl
  | .locked (.unpinWallStory localID) => rfl
  | .locked (.deleteTodo todoID) => rfl
  | .locked (.edit e) =>
      have hexec : mutateWall rt projectID db (ctx, .locked (.edit e)) =
          settle db (e.plan (getWall db projectID) >>= writePlanned ctx db projectID) := by
        rw [← e.exec_eq]
        rfl
      rw [hexec]
      unfold Operations.serial wallOperations
      dsimp only
      match e.plan (getWall db projectID) with
      | .error err => rfl
      | .ok none => rfl
      | .ok (some wall) => rfl

/-- An edit that finds the wall as it was read would plan the same write. -/
theorem wallOperations_start {a : Ctx × WallMutation} {g : PlannedWrite}
    (h : (wallOperations rt projectID).start db a = .inr g) (hread : g.read = getWall db' projectID) :
    (wallOperations rt projectID).start db' a = .inr g := by
  obtain ⟨ctx, m⟩ := a
  match m with
  | .importMerge draws data => cases h
  | .locked (.pinWallStory localID x y) => cases h
  | .locked (.patchWallStory localID ifVersion x y) => cases h
  | .locked (.unpinWallStory localID) => cases h
  | .locked (.deleteTodo todoID) => cases h
  | .locked (.edit e) =>
      dsimp only [wallOperations] at h ⊢
      match hplan : e.plan (getWall db projectID) with
      | .error err =>
          rw [hplan] at h
          cases h
      | .ok none =>
          rw [hplan] at h
          cases h
      | .ok (some wall) =>
          rw [hplan] at h
          cases h
          dsimp only at hread
          rw [← hread, hplan]

theorem LockedMutation.grows {m : LockedMutation} (hdb : WallTables projectID db)
    (h : m.exec ctx db projectID = .ok db') : WallTables projectID db' ∧ WallGrows projectID db db' := by
  cases m with
  | edit e => exact ⟨e.tables hdb h, e.grows h⟩
  | pinWallStory localID x y =>
      obtain ⟨out, hout, rfl⟩ := map_eq_ok.mp h
      exact ⟨pinWallStory_tables hdb hout, pinWallStory_grows hout⟩
  | patchWallStory localID ifVersion x y =>
      obtain ⟨out, hout, rfl⟩ := map_eq_ok.mp h
      exact ⟨patchWallStory_tables hdb hout, patchWallStory_grows hout⟩
  | unpinWallStory localID => exact ⟨unpinWallStory_tables hdb h, unpinWallStory_grows h⟩
  | deleteTodo todoID => exact ⟨deleteTodo_tables hdb h, deleteTodo_grows hdb h⟩

theorem WallMutation.grows {m : WallMutation} (hdb : WallTables projectID db)
    (hversion : ∀ draws data, m = .importMerge draws data → ∀ w ∈ mergedWalls ctx db data projectID,
      (getWall db projectID).version < w.storedVersion) (h : m.exec rt ctx db projectID = .ok db') :
    WallTables projectID db' ∧ WallGrows projectID db db' := by
  cases m with
  | locked m => exact m.grows hdb h
  | importMerge draws data =>
      obtain ⟨out, hout, rfl⟩ := map_eq_ok.mp h
      obtain ⟨htables, hwall⟩ := importMerge_wall hdb hout
      refine ⟨htables, ?_⟩
      rcases hwall with heq | ⟨w, hw, heq⟩
      · exact .of_eq heq
      · exact .of_lt (heq ▸ hversion draws data rfl w hw)

/-- What holds in every state that steps under the condition lead to. -/
structure WallRunInv (rt : Runtime) (projectID : ℤ) (db : DB) (t : WallServer) : Prop where
  serial : serially (mutateWall rt projectID) db (t.log.map (·.1)) = (t.store, t.log)
  tables : WallTables projectID t.store
  prepared : (wallOperations rt projectID).Prepared t
  holder : ∀ a g, t.holder = some (a, g) → ∃ m, a.2 = .locked m

theorem WallFits.current {t : WallServer} {e : WallEvent} (ht : (wallOperations rt projectID).Prepared t)
    (h : WallFits projectID t e) : (wallOperations rt projectID).Current t e.lockEvent := by
  cases e with
  | lock ctx m => trivial
  | merge ctx draws data => trivial
  | step =>
      intro a g hholder
      obtain ⟨db₁, hstart⟩ := ht a g hholder
      exact wallOperations_start hstart (h g (by simp [hholder]))

/-- Only mutations under the lock hold it. -/
theorem holder_wallStep {t : WallServer} (ht : ∀ a g, t.holder = some (a, g) → ∃ m, a.2 = .locked m)
    (e : WallEvent) : ∀ a g, (wallStep rt projectID t e).holder = some (a, g) → ∃ m, a.2 = .locked m := by
  intro a g h
  cases e with
  | lock ctx m =>
      dsimp only [wallStep, WallEvent.lockEvent, Operations.step] at h
      cases hold : t.holder with
      | none =>
          rw [hold] at h
          cases h
          exact ⟨m, rfl⟩
      | some held =>
          rw [hold] at h
          exact ht a g h
  | merge ctx draws data => exact ht a g h
  | step =>
      dsimp only [wallStep, WallEvent.lockEvent, Operations.step] at h
      match hold : t.holder with
      | none =>
          rw [hold] at h
          exact ht a g h
      | some (b, none) =>
          rw [hold] at h
          dsimp only at h
          split at h
          · cases h
          · cases h
            exact ht _ none hold
      | some (b, some g') =>
          rw [hold] at h
          cases h

theorem WallRunInv.step {t : WallServer} {e : WallEvent} (ht : WallRunInv rt projectID db t)
    (h : WallFits projectID t e) :
    WallRunInv rt projectID db (wallStep rt projectID t e) ∧
      WallGrows projectID t.store (wallStep rt projectID t e).store := by
  have hcurrent := h.current ht.prepared
  have hserial : serially (mutateWall rt projectID) db ((wallStep rt projectID t e).log.map (·.1)) =
      ((wallStep rt projectID t e).store, (wallStep rt projectID t e).log) := by
    have := ht.serial
    rw [← wallOperations_serial] at this ⊢
    exact Operations.serially_step this hcurrent
  suffices hstore : WallTables projectID (wallStep rt projectID t e).store ∧
      WallGrows projectID t.store (wallStep rt projectID t e).store from
    ⟨⟨hserial, hstore.1, Operations.prepared_step ht.prepared _, holder_wallStep ht.holder e⟩, hstore.2⟩
  rcases Operations.step_cases hcurrent with ⟨hsame, _⟩ | ⟨a, hevent, hstore, _⟩
  · rw [wallStep, hsame]
    exact ⟨ht.tables, .of_eq rfl⟩
  · -- a whole mutation has taken effect, or it has failed
    rw [wallStep, hstore, wallOperations_serial, mutateWall]
    cases hexec : a.2.exec rt a.1 t.store projectID with
    | error err => exact ⟨ht.tables, .of_eq rfl⟩
    | ok db' =>
        refine WallMutation.grows ht.tables (fun draws data hm => ?_) hexec
        rcases hevent with hfree | ⟨_, g, hholder⟩
        · cases e with
          | lock ctx m => cases hfree
          | step => cases hfree
          | merge ctx draws' data' =>
              cases hfree
              cases hm
              exact h
        · obtain ⟨m, hlocked⟩ := ht.holder a g hholder
          rw [hlocked] at hm
          cases hm

end

/-- When every write finds the wall as it was read and every merge brings a larger version,
the mutations that have returned ran one after the other, and between any two states of the
run the version of the wall has grown or the wall is the same. -/
theorem wall_updates_serial (rt : Runtime) {projectID : ℤ} {db : DB} (hdb : WallTables projectID db)
    {events : List WallEvent} (h : Along (WallFits projectID) (wallStep rt projectID) { store := db } events) :
    serially (mutateWall rt projectID) db ((run (wallStep rt projectID) { store := db } events).log.map (·.1)) =
      ((run (wallStep rt projectID) { store := db } events).store,
        (run (wallStep rt projectID) { store := db } events).log) ∧
    ∀ l₁ l₂, events = l₁ ++ l₂ → WallGrows projectID (run (wallStep rt projectID) { store := db } l₁).store
      (run (wallStep rt projectID) { store := db } events).store := by
  have hinv : WallRunInv rt projectID db { store := db } := by
    refine ⟨rfl, hdb, ?_, ?_⟩
    · intro a g hholder
      cases hholder
    · intro a g hholder
      cases hholder
  refine ⟨(run_along (fun _ _ ht he => (ht.step he).1) hinv h).serial, ?_⟩
  rintro l₁ l₂ rfl
  exact run_rel (R := fun t t' => WallGrows projectID t.store t'.store) (fun _ => .of_eq rfl)
    (fun _ _ _ => .trans) (fun _ _ ht he => ht.step he) hinv h

/-- A board of the user 1. -/
def ownedBoard : DB := run (serve plainRuntime) { users := [1] } [(⟨some 1, 0⟩, .createProject "Board" none)]

/-- A backup of the board with one note on its wall. -/
def wallBackup (version : ℤ) : ExportData where
  projects := [{
    slug := "board"
    name := "Board"
    wall := some { notes := [⟨"n_backup", 0, 0, 0, 0, "#FFFFFF", "b", 1⟩], version := version } }]

def noteEdit : LockedMutation := .edit (.createNote 1 ⟨0, 0, 0, 0, "#FFFFFF", "a"⟩)

def mergeWall (version : ℤ) : WallEvent := .merge ⟨some 1, 0⟩ (fun _ => noDraws) (wallBackup version)

/-- A merge while an edit has the lock and has not read yet. -/
def mergeBefore : List WallEvent := [.lock ⟨some 1, 0⟩ noteEdit, mergeWall 7, .step, .step]

theorem wall_updates_serial_before :
    (getWall (run (wallStep plainRuntime 1) { store := ownedBoard } mergeBefore).store 1).version = 8 ∧
      WallGrows 1 ownedBoard (run (wallStep plainRuntime 1) { store := ownedBoard } mergeBefore).store := by
  have htables : WallTables 1 ownedBoard := ⟨by decide +kernel, by decide +kernel, by decide +kernel, by decide +kernel⟩
  refine ⟨by decide +kernel, ?_⟩
  obtain ⟨_, hgrows⟩ := wall_updates_serial plainRuntime htables
    (show Along (WallFits 1) (wallStep plainRuntime 1) { store := ownedBoard } mergeBefore by decide +kernel)
  exact hgrows [] _ rfl

def noteMutation : Ctx × WallMutation := (⟨some 1, 0⟩, .locked noteEdit)

def mergeMutation (version : ℤ) : Ctx × WallMutation :=
  (⟨some 1, 0⟩, .importMerge (fun _ => noDraws) (wallBackup version))

/-- A merge between the read and the write of an edit. -/
def mergeAmid : List WallEvent := [.lock ⟨some 1, 0⟩ noteEdit, .step, mergeWall 7, .step]

/-- A merge that commits between the read and the write of an edit is lost, although both have
returned without an error: neither order of the two has that outcome, and the version goes
back. -/
theorem merge_lost_under_edit :
    (run (wallStep plainRuntime 1) { store := ownedBoard } mergeAmid).log.map (·.2) = [.ok (), .ok ()] ∧
    (∀ order ∈ [[noteMutation, mergeMutation 7], [mergeMutation 7, noteMutation]],
      (serially (mutateWall plainRuntime 1) ownedBoard order).1 ≠
        (run (wallStep plainRuntime 1) { store := ownedBoard } mergeAmid).store) ∧
    (getWall (run (wallStep plainRuntime 1) { store := ownedBoard } (mergeAmid.take 3)).store 1).version = 7 ∧
    (getWall (run (wallStep plainRuntime 1) { store := ownedBoard } mergeAmid).store 1).version = 1 := by
  decide +kernel

end Scrumboy
