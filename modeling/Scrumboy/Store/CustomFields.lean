import Scrumboy.Store.Access
import Scrumboy.Store.Workflow

/-!
# Custom fields

The fields that a project defines for its todos, and their values. A request
gives values as a map from field keys to JSON values, in which a null clears the
field; it is a list here, in the order in which the map is visited.
-/

namespace Scrumboy

open Go Sql

def maxCustomFieldsPerProject : ℕ := 25

def maxCustomFieldNameLen : ℕ := 100

def maxCustomFieldValueLen : ℕ := 2000

/-- The bound `2 ^ 53` on the size of a number. -/
def maxCustomFieldNumber : ℚ := 9007199254740992

abbrev CustomFieldValues := List (String × JsonValue)

def listCustomFields (db : DB) (projectID : ℤ) : List CustomField :=
  orderBy (fun f => toLex (f.position, f.id))
    (db.customFields.filter fun f => f.projectID == projectID)

/-- A new definition with the values of `f`; the table numbers it and never
uses a number twice. -/
def insertCustomField (db : DB) (projectID : ℤ) (f : CustomField) : DB × CustomField :=
  let id := max (coalesceMax (db.customFields.map (·.id))) db.customFieldSeq + 1
  let f := { f with id := id, projectID := projectID }
  ({ db with customFields := db.customFields ++ [f], customFieldSeq := id }, f)

/-- The position after the last of some definitions. -/
def nextFieldPosition (fields : List CustomField) : ℤ :=
  fields.foldl (fun position f => if position ≤ f.position then f.position + 1 else position) 0

def createCustomField (ctx : Ctx) (db : DB) (projectID : ℤ) (key name : String)
    (type : CustomFieldType) : Result (DB × CustomField) := do
  let name := trimSpace name
  reject (name = "" ∨ maxCustomFieldNameLen < name.length)
    ⟨.validation, "invalid custom field name"⟩
  let key := toLower (trimSpace key)
  let key := if key = "" then workflowKeyFromName name else key
  reject (isValidColumnKey key = false) ⟨.validation, "invalid custom field key"⟩
  let existing := listCustomFields db projectID
  reject (maxCustomFieldsPerProject ≤ existing.length)
    ⟨.validation, "project may have at most 25 custom fields"⟩
  reject (key ∈ existing.map (·.key)) ⟨.conflict, "custom field key already exists"⟩
  let (db, f) := insertCustomField db projectID
    ⟨0, 0, key, name, type, nextFieldPosition existing⟩
  pure (touchProject db projectID ctx.nowMs, f)

/-- `DeleteCustomField`; the values of the field go with it. -/
def deleteCustomField (ctx : Ctx) (db : DB) (projectID : ℤ) (key : String) : Result DB := do
  let key := toLower (trimSpace key)
  let some f := db.customFields.find? fun f => f.projectID == projectID && f.key == key
    | throw ⟨.notFound, ""⟩
  let db := { db with
    customFields := deleteWhere (fun g => g.id == f.id) db.customFields
    customFieldValues := deleteWhere (fun v => v.fieldID == f.id) db.customFieldValues }
  pure (touchProject db projectID ctx.nowMs)

def badFieldValue (f : CustomField) (msg : String) : StoreError :=
  ⟨.validation, "custom field " ++ quote f.key ++ ": " ++ msg⟩

def normalizeCustomFieldValue (rt : Runtime) (f : CustomField) (v : JsonValue) :
    Result FieldValue :=
  match f.type, v with
  | .text, .str s => do
      let s := trimSpace s
      reject (s = "") (badFieldValue f "value cannot be empty (use null to clear)")
      reject (maxCustomFieldValueLen < s.length) (badFieldValue f "value too long")
      pure (.text s)
  | .text, _ => throw (badFieldValue f "expected a string")
  | .url, .str s => do
      let s := trimSpace s
      reject (maxCustomFieldValueLen < s.length) (badFieldValue f "value too long")
      reject (rt.isHTTPURL s = false) (badFieldValue f "expected an http(s) URL")
      pure (.text s)
  | .url, _ => throw (badFieldValue f "expected a string")
  | .number, .num q => do
      reject (maxCustomFieldNumber ≤ q ∨ q ≤ -maxCustomFieldNumber)
        (badFieldValue f "number out of range (must be below 2^53)")
      pure (.num q)
  | .number, _ => throw (badFieldValue f "expected a number")

/-- One entry of a resolved patch; without a value it clears the field. -/
structure ResolvedCustomField where
  key : String
  fieldID : ℤ
  value : Option FieldValue
  deriving DecidableEq, Repr

def resolveCustomFieldPatch (rt : Runtime) (db : DB) (projectID : ℤ)
    (patch : CustomFieldValues) : Result (List ResolvedCustomField) :=
  patch.mapM fun (key, raw) =>
    match (listCustomFields db projectID).find? (·.key == key) with
    | none => throw ⟨.validation, "unknown custom field " ++ quote key⟩
    | some f =>
        if raw = .null then pure ⟨key, f.id, none⟩
        else do
          let value ← normalizeCustomFieldValue rt f raw
          pure ⟨key, f.id, some value⟩

/-- `INSERT … ON CONFLICT(todo_id, field_id) DO UPDATE`. -/
def upsertFieldValue (db : DB) (todoID fieldID : ℤ) (value : FieldValue) : DB :=
  if db.customFieldValues.any fun v => v.todoID == todoID && v.fieldID == fieldID then
    { db with
      customFieldValues := updateWhere (fun v => v.todoID == todoID && v.fieldID == fieldID)
        (fun v => { v with value := value }) db.customFieldValues }
  else { db with customFieldValues := db.customFieldValues ++ [⟨todoID, fieldID, value⟩] }

/-- One round of the loop of `applyCustomFieldPatchTx`: the database, the keys
changed so far and the values of the todo. -/
def applyCustomField (todoID : ℤ) (current : List (String × FieldValue))
    (s : DB × List String × List (String × FieldValue)) (r : ResolvedCustomField) :
    DB × List String × List (String × FieldValue) :=
  let (db, changed, next) := s
  match r.value with
  | none =>
      if (current.lookup r.key).isNone then s
      else
        ({ db with
            customFieldValues := deleteWhere
              (fun v => v.todoID == todoID && v.fieldID == r.fieldID) db.customFieldValues },
          changed ++ [r.key], next.filter fun p => p.1 != r.key)
  | some value =>
      if current.lookup r.key = some value then s
      else
        (upsertFieldValue db todoID r.fieldID value, changed ++ [r.key],
          next.filter (fun p => p.1 != r.key) ++ [(r.key, value)])

def applyCustomFieldPatch (db : DB) (todoID : ℤ) (current : List (String × FieldValue))
    (patch : List ResolvedCustomField) : DB × List String × List (String × FieldValue) :=
  let (db, changed, next) := patch.foldl (applyCustomField todoID current) (db, [], current)
  (db, sortStrings changed, next)

/-- The value of a row as its field reads it. -/
def readFieldValue (type : CustomFieldType) (value : FieldValue) : Option FieldValue :=
  match type, value with
  | .number, .num q => some (.num q)
  | _, .text s => some (.text s)
  | _, .num _ => none

/-- The values of a todo by field key. -/
def loadTodoCustomFields (db : DB) (todoID : ℤ) : List (String × FieldValue) :=
  (db.customFieldValues.filter fun v => v.todoID == todoID).flatMap fun v =>
    (db.customFields.filter fun f => f.id == v.fieldID).filterMap fun f =>
      (readFieldValue f.type v.value).map fun value => (f.key, value)

/-! ## What value writes leave alone -/

/-- The table of custom field values; everything else is equal. -/
def FieldValuesOnly (db db' : DB) : Prop :=
  db' = { db with customFieldValues := db'.customFieldValues }

theorem FieldValuesOnly.exists_eq {db db' : DB} (h : FieldValuesOnly db db') :
    ∃ values, db' = { db with customFieldValues := values } := ⟨_, h⟩

theorem FieldValuesOnly.refl (db : DB) : FieldValuesOnly db db := rfl

theorem FieldValuesOnly.trans {a b c : DB} (hab : FieldValuesOnly a b)
    (hbc : FieldValuesOnly b c) : FieldValuesOnly a c := by
  unfold FieldValuesOnly at *
  rw [hbc, hab]

theorem upsertFieldValue_fieldValuesOnly (db : DB) (todoID fieldID : ℤ) (value : FieldValue) :
    FieldValuesOnly db (upsertFieldValue db todoID fieldID value) := by
  unfold upsertFieldValue
  split <;> rfl

theorem applyCustomField_fieldValuesOnly (todoID : ℤ) (current : List (String × FieldValue))
    (s : DB × List String × List (String × FieldValue)) (r : ResolvedCustomField) :
    FieldValuesOnly s.1 (applyCustomField todoID current s r).1 := by
  unfold applyCustomField
  cases r.value with
  | none =>
      dsimp only
      split <;> rfl
  | some value =>
      dsimp only
      split
      · rfl
      · exact upsertFieldValue_fieldValuesOnly s.1 todoID r.fieldID value

theorem applyCustomFieldPatch_fieldValuesOnly (db : DB) (todoID : ℤ)
    (current : List (String × FieldValue)) (patch : List ResolvedCustomField) :
    FieldValuesOnly db (applyCustomFieldPatch db todoID current patch).1 := by
  have hfold : ∀ (patch : List ResolvedCustomField) s,
      FieldValuesOnly s.1 (patch.foldl (applyCustomField todoID current) s).1 := by
    intro patch
    induction patch with
    | nil => exact fun s => .refl s.1
    | cons r patch ih =>
        intro s
        exact (applyCustomField_fieldValuesOnly todoID current s r).trans
          (ih (applyCustomField todoID current s r))
  exact hfold patch (db, [], current)

end Scrumboy
