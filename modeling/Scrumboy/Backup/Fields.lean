import Scrumboy.Backup.Format
import Scrumboy.Store.CustomFields

/-!
# Custom fields of a backup

A backup defines its custom fields by key, and each of its todos carries values
by key. The preflight plans the definitions against those of the destination
without writing; the import plans again and writes.
-/

namespace Scrumboy

open Go Sql

def invalid (text : String) : StoreError := ⟨.validation, text⟩

def parseCustomFieldType : String → Option CustomFieldType
  | "text" => some .text
  | "url" => some .url
  | "number" => some .number
  | _ => none

def CustomFieldType.string : CustomFieldType → String
  | .text => "text"
  | .url => "url"
  | .number => "number"

def projectExportUsesCustomFields (p : ProjectExport) : Bool :=
  !p.customFields.isEmpty || p.todos.any fun t => !t.customFields.isEmpty

/-- `byKey[f.Key] = f`. -/
def putField (byKey : List CustomField) (f : CustomField) : List CustomField :=
  byKey.filter (fun g => g.key != f.key) ++ [f]

def fieldByKey (byKey : List CustomField) (key : String) : Option CustomField :=
  byKey.find? fun f => f.key == key

/-- The plan so far: every definition that the project will have, and those that
are to be created. -/
structure FieldPlan where
  byKey : List CustomField
  toCreate : List CustomField := []
  position : ℤ

/-- One definition of a backup. One that is there already is kept if it has the
same type. -/
def planField (projectName : String) (plan : FieldPlan) (d : CustomFieldExport) :
    Result FieldPlan := do
  let key := toLower (trimSpace d.key)
  let name := trimSpace d.name
  match parseCustomFieldType d.type with
  | none => throw (invalid ("project " ++ quote projectName ++
      " has an invalid custom field definition " ++ quote d.key))
  | some type =>
      reject (isValidColumnKey key = false ∨ name = "" ∨ maxCustomFieldNameLen < name.length)
        (invalid ("project " ++ quote projectName ++ " has an invalid custom field definition " ++
          quote d.key))
      match fieldByKey plan.byKey key with
      | some cur =>
          reject (cur.type ≠ type) (invalid ("project " ++ quote projectName ++
            ": custom field " ++ quote key ++ " already exists with type " ++ cur.type.string ++
            ", backup has " ++ type.string))
          pure plan
      | none =>
          reject (maxCustomFieldsPerProject ≤ plan.byKey.length)
            (invalid ("project " ++ quote projectName ++ " may have at most 25 custom fields"))
          let f : CustomField := ⟨0, 0, key, name, type, plan.position⟩
          pure { byKey := putField plan.byKey f
                 toCreate := plan.toCreate ++ [f]
                 position := plan.position + 1 }

def planImportCustomFields (p : ProjectExport) (existing : List CustomField) :
    Result FieldPlan :=
  p.customFields.foldlM (planField p.name)
    { byKey := existing.foldl putField [], position := nextFieldPosition existing }

/-- The value that a todo of a backup has for one key. A null is skipped, and a
later value for the same field replaces an earlier one. -/
def resolveImportField (rt : Runtime) (p : ProjectExport) (t : TodoExport)
    (byKey : List CustomField) (patch : List ResolvedCustomField) (v : String × JsonValue) :
    Result (List ResolvedCustomField) :=
  match fieldByKey byKey (toLower (trimSpace v.1)) with
  | none => throw (invalid ("project " ++ quote p.name ++ ": todo " ++ formatInt t.localID ++
      " has a value for undefined custom field " ++ quote v.1))
  | some f =>
      if v.2 = .null then pure patch
      else do
        let value ← (normalizeCustomFieldValue rt f v.2).mapError fun e =>
          { e with text := "project " ++ quote p.name ++ ": todo " ++ formatInt t.localID ++
              ": " ++ e.text }
        pure (patch.filter (fun r => r.key != f.key) ++ [⟨f.key, f.id, some value⟩])

def resolveImportTodoCustomFields (rt : Runtime) (p : ProjectExport) (t : TodoExport)
    (byKey : List CustomField) : Result (List ResolvedCustomField) :=
  t.customFields.foldlM (resolveImportField rt p t byKey) []

def validateImportCustomFields (rt : Runtime) (p : ProjectExport) (existing : List CustomField) :
    Result Unit :=
  if projectExportUsesCustomFields p then do
    let plan ← planImportCustomFields p existing
    p.todos.forM fun t => do
      let _ ← resolveImportTodoCustomFields rt p t plan.byKey
      pure ()
  else pure ()

/-- The rows of new definitions, and the definitions under their ids. -/
def createPlannedFields (db : DB) (projectID : ℤ) (plan : FieldPlan) : DB × List CustomField :=
  plan.toCreate.foldl (fun s f =>
    let (db, f) := insertCustomField s.1 projectID f
    (db, putField s.2 f)) (db, plan.byKey)

/-- The values of one todo of a backup, written to the todo that it became. -/
def importFieldValues (rt : Runtime) (p : ProjectExport) (byKey : List CustomField) (db : DB)
    (ti : TodoExport × ℤ) : Result DB :=
  let (t, todoID) := ti
  if t.customFields = [] then pure db
  else do
    reject (todoID = 0) ⟨.internal, "custom fields for todo " ++ formatInt t.localID ++
      ": todo was not imported"⟩
    let current := loadTodoCustomFields db todoID
    let patch ← resolveImportTodoCustomFields rt p t byKey
    pure (applyCustomFieldPatch db todoID current patch).1

/-- `importCustomFieldsTx`, where `todoIDs` lists the todos that those of the backup
became. -/
def importCustomFields (rt : Runtime) (db : DB) (projectID : ℤ) (p : ProjectExport)
    (todoIDs : List ℤ) : Result DB :=
  if projectExportUsesCustomFields p then do
    let plan ← planImportCustomFields p (listCustomFields db projectID)
    let (db, byKey) := createPlannedFields db projectID plan
    (p.todos.zip todoIDs).foldlM (importFieldValues rt p byKey) db
  else pure db

end Scrumboy
