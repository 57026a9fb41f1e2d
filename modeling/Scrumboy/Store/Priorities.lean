import Scrumboy.Store.Workflow

/-!
# Priority tiers

The priorities that a project offers for its todos, their validation, and the
operations that add and delete them. A project always keeps at least one tier,
and a tier in use cannot be deleted.
-/

namespace Scrumboy

open Go Sql

def maxPriorityTiers : ℕ := 12

def defaultPriorityColor : String := "#64748b"

def maxPriorityNameLen : ℕ := 200

/-- The classes of an invalid tier definition. -/
inductive PriorityReason
  | invalidPriorityKey
  | invalidPriorityTierName
  | invalidPriorityTierColor
  deriving DecidableEq, Repr

def priorityTierDefinitionReason (key name color : String) (requireKey allowEmptyColor : Bool) :
    Option PriorityReason :=
  if requireKey && !isValidColumnKey (toLower (trimSpace key)) then some .invalidPriorityKey
  else if trimSpace name = "" ∨ maxPriorityNameLen < byteLen (trimSpace name) then
    some .invalidPriorityTierName
  else if (!allowEmptyColor || trimSpace color != "") && !colorHexRe (trimSpace color) then
    some .invalidPriorityTierColor
  else none

def defaultPriorityTiers : List PriorityTier :=
  [⟨0, 0, "low", "Low", "#9CA3AF", 0⟩,
   ⟨0, 0, "medium", "Medium", "#F59E0B", 1⟩,
   ⟨0, 0, "high", "High", "#F97316", 2⟩,
   ⟨0, 0, "urgent", "Urgent", "#EF4444", 3⟩]

namespace DB

/-- The priority tiers of a project in insertion order. -/
def prioritiesOf (db : DB) (projectID : ℤ) : List PriorityTier :=
  db.priorities.filter fun t => t.projectID == projectID

/-- The keys of a project's priority tiers. -/
def priorityKeys (db : DB) (projectID : ℤ) : List String :=
  (db.prioritiesOf projectID).map PriorityTier.key

end DB

def appendPriority (db : DB) (projectID : ℤ) (tier : PriorityTier) : DB :=
  { db with priorities := db.priorities ++
      [{ tier with id := nextRowid (db.priorities.map (·.id)), projectID := projectID }] }

/-- `INSERT`, which fails on a key the project has already. -/
def insertPriorityTier (projectID : ℤ) (db : DB) (tier : PriorityTier) : Result DB :=
  if tier.key ∈ db.priorityKeys projectID then
    .error ⟨.internal, "insert priority tier " ++ quote tier.key ++ ": UNIQUE constraint failed"⟩
  else .ok (appendPriority db projectID tier)

/-- `INSERT OR IGNORE`. -/
def insertOrIgnorePriority (projectID : ℤ) (db : DB) (tier : PriorityTier) : DB :=
  if tier.key ∈ db.priorityKeys projectID then db else appendPriority db projectID tier

def ensureDefaultPriorityTiers (db : DB) (projectID : ℤ) : DB :=
  defaultPriorityTiers.foldl (insertOrIgnorePriority projectID) db

def deleteProjectPriorities (db : DB) (projectID : ℤ) : DB :=
  { db with priorities := deleteWhere (fun t => t.projectID == projectID) db.priorities }

def insertPriorityTiers (db : DB) (projectID : ℤ) (tiers : List PriorityTier) : Result DB :=
  tiers.foldlM (insertPriorityTier projectID) db

def getProjectPriorities (db : DB) (projectID : ℤ) : List PriorityTier :=
  orderBy (fun t => toLex (t.position, t.id)) (db.prioritiesOf projectID)

def validateProjectPriorityKey (db : DB) (projectID : ℤ) (priorityKey : String) :
    Result PriorityTier :=
  match db.priorities.find? fun t => t.projectID == projectID && t.key == priorityKey with
  | some t => .ok t
  | none => .error ⟨.validation, "invalid priorityKey"⟩

def addPriorityTier (db : DB) (projectID : ℤ) (name : String) : Result DB := do
  let name := trimSpace name
  reject (priorityTierDefinitionReason "" name defaultPriorityColor false false =
    some .invalidPriorityTierName) ⟨.validation, "invalid priority tier name"⟩
  let tiers := getProjectPriorities db projectID
  reject (tiers = []) ⟨.internal, "priority invariant: project has no priority tiers"⟩
  reject (maxPriorityTiers < tiers.length + 1)
    ⟨.validation, "project may have at most 12 priority tiers"⟩
  let key ← uniqueWorkflowKey (workflowKeyFromName name) (tiers.map (·.key))
  (insertPriorityTier projectID db ⟨0, 0, key, name, defaultPriorityColor, tiers.length⟩).mapError
    fun _ => ⟨.conflict, "priority tier key already exists"⟩

/-- `UPDATE project_priorities SET position = ? WHERE id = ?` for each pair. -/
def setPriorityPositions (db : DB) (ps : List (ℤ × ℤ)) : DB :=
  ps.foldl (fun db p => { db with
    priorities := updateWhere (fun t => t.id == p.1) (fun t => { t with position := p.2 })
      db.priorities }) db

def deletePriorityTier (db : DB) (projectID : ℤ) (key : String) : Result DB := do
  let key := trimSpace key
  reject (isValidColumnKey (toLower key) = false) ⟨.validation, "invalid priority tier key"⟩
  let tiers := getProjectPriorities db projectID
  reject (tiers = []) ⟨.internal, "priority invariant: project has no priority tiers"⟩
  let some target := tiers.find? (·.key == key) | throw ⟨.notFound, ""⟩
  reject (tiers.length ≤ 1) ⟨.validation, "project must have at least 1 priority tier"⟩
  reject (db.todos.any fun t => t.projectID == projectID && t.priorityKey == some key)
    ⟨.conflict, "priority tier is not empty"⟩
  let db := { db with priorities := deleteWhere (fun t => t.id == target.id) db.priorities }
  let rest := tiers.eraseP (·.key == key)
  pure (setPriorityPositions db (rest.zipIdx.map fun (t, i) => (t.id, (i : ℤ))))

/-! ## What changes of priorities leave alone -/

/-- The table of priorities; everything else is equal. -/
def PrioritiesOnly (db db' : DB) : Prop := db' = { db with priorities := db'.priorities }

theorem PrioritiesOnly.exists_eq {db db' : DB} (h : PrioritiesOnly db db') :
    ∃ priorities, db' = { db with priorities := priorities } := ⟨_, h⟩

theorem PrioritiesOnly.refl (db : DB) : PrioritiesOnly db db := rfl

theorem PrioritiesOnly.trans {a b c : DB} (hab : PrioritiesOnly a b) (hbc : PrioritiesOnly b c) :
    PrioritiesOnly a c := by
  unfold PrioritiesOnly at *
  rw [hbc, hab]

theorem PrioritiesOnly.columns {db db' : DB} (h : PrioritiesOnly db db') :
    db'.columns = db.columns := by rw [h]

theorem insertOrIgnorePriority_prioritiesOnly (projectID : ℤ) (db : DB) (tier : PriorityTier) :
    PrioritiesOnly db (insertOrIgnorePriority projectID db tier) := by
  unfold insertOrIgnorePriority
  split <;> rfl

theorem ensureDefaultPriorityTiers_prioritiesOnly (db : DB) (projectID : ℤ) :
    PrioritiesOnly db (ensureDefaultPriorityTiers db projectID) := by
  unfold ensureDefaultPriorityTiers
  induction defaultPriorityTiers generalizing db with
  | nil => exact .refl db
  | cons tier tiers ih => exact (insertOrIgnorePriority_prioritiesOnly projectID db tier).trans (ih _)

theorem insertPriorityTier_prioritiesOnly {projectID : ℤ} {db db' : DB} {tier : PriorityTier}
    (h : insertPriorityTier projectID db tier = .ok db') : PrioritiesOnly db db' := by
  unfold insertPriorityTier at h
  split at h
  · cases h
  · cases h
    rfl

theorem insertPriorityTiers_prioritiesOnly {db db' : DB} {projectID : ℤ}
    {tiers : List PriorityTier} (h : insertPriorityTiers db projectID tiers = .ok db') :
    PrioritiesOnly db db' :=
  foldlM_inv (P := PrioritiesOnly db)
    (fun _ _ _ _ hs hstep => hs.trans (insertPriorityTier_prioritiesOnly hstep)) (.refl db) h

end Scrumboy
