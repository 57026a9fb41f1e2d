import Scrumboy.Go.Strings
import Scrumboy.Go.Errors
import Scrumboy.Sql.Order
import Scrumboy.Store.Schema

/-!
# Workflow columns

The lanes of a project: their grammar, their validation, and the operations that
create, add and delete them. The legacy statuses, which backups still use to
name the five default lanes, are here as well.
-/

set_option linter.dupNamespace false

namespace Scrumboy

open Go Sql

/-! ## Legacy statuses -/

inductive Status
  | backlog
  | notStarted
  | inProgress
  | testing
  | done
  deriving DecidableEq, Repr

def Status.string : Status → String
  | .backlog => "BACKLOG"
  | .notStarted => "NOT_STARTED"
  | .inProgress => "IN_PROGRESS"
  | .testing => "TESTING"
  | .done => "DONE"

/-- `ParseStatus` knows exactly the five literals of a legacy status. -/
def parseStatus : String → Option Status
  | "BACKLOG" => some .backlog
  | "NOT_STARTED" => some .notStarted
  | "IN_PROGRESS" => some .inProgress
  | "TESTING" => some .testing
  | "DONE" => some .done
  | _ => none

def defaultColumnBacklog : String := "backlog"

def defaultColumnNotStarted : String := "not_started"

def defaultColumnDoing : String := "doing"

def defaultColumnTesting : String := "testing"

def defaultColumnDone : String := "done"

def statusToColumnKey : Status → String
  | .backlog => defaultColumnBacklog
  | .notStarted => defaultColumnNotStarted
  | .inProgress => defaultColumnDoing
  | .testing => defaultColumnTesting
  | .done => defaultColumnDone

theorem parseStatus_eq_some_iff {v : String} {s : Status} :
    parseStatus v = some s ↔ v = s.string := by
  constructor
  · intro h
    unfold parseStatus at h
    split at h <;> cases h <;> rfl
  · rintro rfl
    cases s <;> rfl

/-! ## Keys and colours -/

def maxSlugLen : ℕ := 32

def maxWorkflowColumns : ℕ := 12

def defaultWorkflowColor : String := "#64748b"

def maxWorkflowNameLength : ℕ := 200

def maxWorkflowKeyAttempts : ℕ := 1000

/-- The class `[a-z0-9]`. -/
def isLowerAlnum (c : Char) : Bool := ('a' ≤ c && c ≤ 'z') || ('0' ≤ c && c ≤ '9')

/-- The expression `^[a-z0-9](?:[a-z0-9_]*[a-z0-9])?$`. -/
def columnKeyRe (s : String) : Bool :=
  s.toList.all (fun c => isLowerAlnum c || c == '_') &&
    s.toList.head?.any isLowerAlnum && s.toList.getLast?.any isLowerAlnum

def isHexDigit (c : Char) : Bool :=
  ('0' ≤ c && c ≤ '9') || ('a' ≤ c && c ≤ 'f') || ('A' ≤ c && c ≤ 'F')

/-- The expression `^#[0-9a-fA-F]{6}$`. -/
def colorHexRe (s : String) : Bool :=
  match s.toList with
  | '#' :: ds => ds.length == 6 && ds.all isHexDigit
  | _ => false

def isValidColumnKey (key : String) : Bool :=
  let key := trimSpace key
  byteLen key != 0 && byteLen key ≤ maxSlugLen && columnKeyRe key

/-- A key in its stored form: trimmed, and accepted by the grammar. -/
def IsColumnKey (key : String) : Prop := trimSpace key = key ∧ isValidColumnKey key = true

theorem IsColumnKey.ne_empty {key : String} (h : IsColumnKey key) : key ≠ "" := by
  rintro rfl
  exact absurd h.2 (by decide +kernel)

theorem IsColumnKey.mem_class {key : String} (h : IsColumnKey key) {c : Char}
    (hc : c ∈ key.toList) : isLowerAlnum c = true ∨ c = '_' := by
  have hre : columnKeyRe key = true := by
    have := h.2
    simp only [isValidColumnKey, h.1, Bool.and_eq_true] at this
    exact this.2
  simp only [columnKeyRe, Bool.and_eq_true, List.all_eq_true] at hre
  simpa using hre.1.1 c hc

/-- The characters of a key are ASCII, are not white space in either case, and
come back from upper case. -/
theorem keyChar_spec {c : Char} (h : isLowerAlnum c = true ∨ c = '_') :
    isSpace c = false ∧ isSpace (toUpperRune c) = false ∧
      toLowerRune c = c ∧ toLowerRune (toUpperRune c) = c := by
  have hascii : c.toNat < 128 := by
    rcases h with h | rfl
    · simp only [isLowerAlnum, Bool.or_eq_true, Bool.and_eq_true, decide_eq_true_eq] at h
      rcases h with h | h
      · exact lt_of_le_of_lt h.2 (by decide)
      · exact lt_of_le_of_lt h.2 (by decide)
    · decide
  refine forall_ascii (P := fun c => isLowerAlnum c = true ∨ c = '_' →
    isSpace c = false ∧ isSpace (toUpperRune c) = false ∧
      toLowerRune c = c ∧ toLowerRune (toUpperRune c) = c) ?_ c hascii h
  decide +kernel

theorem IsColumnKey.toLower_eq {key : String} (h : IsColumnKey key) : toLower key = key := by
  rw [toLower]
  exact mapRunes_eq_self _ _ fun _ hc => (keyChar_spec (h.mem_class hc)).2.2.1

/-- A key is recovered from its upper-case form. -/
theorem IsColumnKey.toLower_trimSpace_toUpper {key : String} (h : IsColumnKey key) :
    toLower (trimSpace (toUpper key)) = key := by
  have htrim : trimSpace (toUpper key) = toUpper key := by
    apply trimSpace_eq_self
    intro c hc
    simp only [toUpper, toList_mapRunes, List.mem_map] at hc
    obtain ⟨d, hd, rfl⟩ := hc
    exact (keyChar_spec (h.mem_class hd)).2.1
  rw [htrim, toLower, toUpper, mapRunes_mapRunes]
  exact mapRunes_eq_self _ _ fun c hc => (keyChar_spec (h.mem_class hc)).2.2.2

/-- The loop of `workflowKeyFromName`: every run of characters outside the class
becomes one underscore. -/
def underscored : Bool → List Char → List Char
  | _, [] => []
  | last, c :: cs =>
      if isLowerAlnum c then c :: underscored false cs
      else if last then underscored true cs
      else '_' :: underscored true cs

def workflowKeyFromName (name : String) : String :=
  let key := join "_" (fields (toLower (trimSpace name)))
  let key := trimChar '_' (String.ofList (underscored false key.toList))
  let key := if maxSlugLen < byteLen key then trimChar '_' (takeBytes maxSlugLen key) else key
  if key = "" then "lane" else key

/-- The candidate of `uniqueWorkflowKey` with the numeric suffix `i`. -/
def workflowKeyCandidate (baseKey : String) (i : ℕ) : String :=
  let suffix := "_" ++ toString i
  let candidate :=
    if maxSlugLen < byteLen baseKey + byteLen suffix then
      trimChar '_' (takeBytes (maxSlugLen - byteLen suffix) baseKey)
    else baseKey
  let candidate :=
    if candidate = "" then
      if maxSlugLen < byteLen "lane" + byteLen suffix then
        takeBytes (maxSlugLen - byteLen suffix) "lane"
      else "lane"
    else candidate
  candidate ++ suffix

def uniqueWorkflowKey (baseKey : String) (used : List String) : Result String :=
  if baseKey ∉ used ∧ isValidColumnKey baseKey then .ok baseKey
  else
    match (List.range' 2 (maxWorkflowKeyAttempts - 1)).find? fun i =>
        isValidColumnKey (workflowKeyCandidate baseKey i) &&
          !used.contains (workflowKeyCandidate baseKey i) with
    | some i => .ok (workflowKeyCandidate baseKey i)
    | none => .error ⟨.conflict, "could not generate unique workflow column key"⟩

/-- The characters of a text are those of a key. -/
def KeyChars (s : String) : Prop := ∀ c ∈ s.toList, isLowerAlnum c = true ∨ c = '_'

theorem KeyChars.isColumnKey {key : String} (h : KeyChars key) (hvalid : isValidColumnKey key = true) :
    IsColumnKey key :=
  ⟨trimSpace_eq_self key fun c hc => (keyChar_spec (h c hc)).1, hvalid⟩

theorem KeyChars.trimChar {s : String} (h : KeyChars s) (c : Char) : KeyChars (trimChar c s) := by
  intro d hd
  rw [Go.trimChar, toList_trimFunc] at hd
  exact h d ((List.dropWhile_sublist _).subset ((List.rdropWhile_prefix _ _).subset hd))

theorem KeyChars.takeBytes {s : String} (h : KeyChars s) (n : ℕ) : KeyChars (takeBytes n s) := by
  intro c hc
  rw [Go.takeBytes, String.toList_ofList] at hc
  exact h c ((takeBytesList_isPrefix n _).subset hc)

theorem KeyChars.append {s t : String} (hs : KeyChars s) (ht : KeyChars t) : KeyChars (s ++ t) := by
  intro c hc
  rw [String.toList_append, List.mem_append] at hc
  exact hc.elim (hs c) (ht c)

theorem KeyChars.ite {s t : String} {c : Prop} [Decidable c] (hs : KeyChars s) (ht : KeyChars t) :
    KeyChars (if c then s else t) := by
  split
  · exact hs
  · exact ht

theorem KeyChars.of_all {s : String}
    (h : (s.toList.all fun c => isLowerAlnum c || c == '_') = true) : KeyChars s := by
  intro c hc
  simpa using List.all_eq_true.mp h c hc

theorem keyChars_lane : KeyChars "lane" := .of_all (by simp [isLowerAlnum])

theorem keyChars_suffix (i : ℕ) : KeyChars ("_" ++ toString i) := by
  apply KeyChars.append
  · exact .of_all (by simp)
  · intro c hc
    have hdigit : c.isDigit = true := by
      rw [Nat.toString_eq_ofList_toDigits, String.toList_ofList] at hc
      exact Nat.isDigit_of_mem_toDigits (by decide) (by decide) hc
    left
    simp only [Char.isDigit, Bool.and_eq_true, decide_eq_true_eq] at hdigit
    simp only [isLowerAlnum, Bool.or_eq_true, Bool.and_eq_true, decide_eq_true_eq]
    exact .inr hdigit

theorem keyChars_underscored (last : Bool) (l : List Char) :
    ∀ c ∈ underscored last l, isLowerAlnum c = true ∨ c = '_' := by
  induction l generalizing last with
  | nil => simp [underscored]
  | cons d l ih =>
      intro c hc
      rw [underscored] at hc
      split at hc
      · rename_i hd
        rcases List.mem_cons.mp hc with rfl | hc
        · exact .inl hd
        · exact ih false c hc
      · split at hc
        · exact ih true c hc
        · rcases List.mem_cons.mp hc with rfl | hc
          · exact .inr rfl
          · exact ih true c hc

theorem keyChars_workflowKeyFromName (name : String) : KeyChars (workflowKeyFromName name) := by
  unfold workflowKeyFromName
  dsimp only
  generalize join "_" (fields (toLower (trimSpace name))) = key
  have hkey : KeyChars (trimChar '_' (String.ofList (underscored false key.toList))) := by
    apply KeyChars.trimChar
    intro c hc
    rw [String.toList_ofList] at hc
    exact keyChars_underscored false _ c hc
  exact .ite keyChars_lane (((hkey.takeBytes _).trimChar _).ite hkey)

theorem keyChars_workflowKeyCandidate {baseKey : String} (h : KeyChars baseKey) (i : ℕ) :
    KeyChars (workflowKeyCandidate baseKey i) := by
  unfold workflowKeyCandidate
  dsimp only
  apply KeyChars.append _ (keyChars_suffix i)
  exact .ite (.ite (.takeBytes keyChars_lane _) keyChars_lane) (((h.takeBytes _).trimChar _).ite h)

/-- A generated key is in its stored form. -/
theorem isColumnKey_uniqueWorkflowKey {baseKey key : String} {used : List String}
    (hbase : KeyChars baseKey) (h : uniqueWorkflowKey baseKey used = .ok key) : IsColumnKey key := by
  unfold uniqueWorkflowKey at h
  split at h
  · rename_i hvalid
    cases h
    exact hbase.isColumnKey hvalid.2
  · split at h
    · rename_i i hfind
      cases h
      have hvalid := List.find?_some hfind
      rw [Bool.and_eq_true] at hvalid
      exact (keyChars_workflowKeyCandidate hbase i).isColumnKey hvalid.1
    · cases h

/-! ## The columns of a project -/

namespace DB

/-- The columns of a project in insertion order. -/
def columnsOf (db : DB) (projectID : ℤ) : List WorkflowColumn :=
  db.columns.filter fun c => c.projectID == projectID

/-- The keys of a project's columns. -/
def columnKeys (db : DB) (projectID : ℤ) : List String :=
  (db.columnsOf projectID).map WorkflowColumn.key

end DB

theorem DB.mem_columnKeys {db : DB} {projectID : ℤ} {key : String} :
    key ∈ db.columnKeys projectID ↔
      ∃ c ∈ db.columns, c.projectID = projectID ∧ c.key = key := by
  simp [DB.columnKeys, DB.columnsOf, and_assoc]

/-- The query behind every read of a workflow. -/
def loadWorkflow (db : DB) (projectID : ℤ) : List WorkflowColumn :=
  orderBy (fun c => toLex (c.position, c.id)) (db.columnsOf projectID)

def validateProjectColumnKey (db : DB) (projectID : ℤ) (columnKey : String) :
    Result WorkflowColumn :=
  match db.columns.find? fun c => c.projectID == projectID && c.key == columnKey with
  | some c => .ok c
  | none => .error ⟨.validation, "invalid columnKey"⟩

theorem validateProjectColumnKey_eq_ok {db : DB} {projectID : ℤ} {columnKey : String}
    {c : WorkflowColumn} (h : validateProjectColumnKey db projectID columnKey = .ok c) :
    c ∈ db.columns ∧ c.projectID = projectID ∧ c.key = columnKey := by
  unfold validateProjectColumnKey at h
  split at h
  · rename_i c' hfind
    cases h
    have hp := List.find?_some hfind
    simp only [Bool.and_eq_true, beq_iff_eq] at hp
    exact ⟨List.mem_of_find?_eq_some hfind, hp⟩
  · cases h

theorem validateProjectColumnKey_isOk_iff {db : DB} {projectID : ℤ} {columnKey : String} :
    (validateProjectColumnKey db projectID columnKey).isOk = true ↔
      columnKey ∈ db.columnKeys projectID := by
  rw [DB.mem_columnKeys]
  unfold validateProjectColumnKey
  split
  · rename_i c hfind
    have hp := List.find?_some hfind
    simp only [Bool.and_eq_true, beq_iff_eq] at hp
    exact iff_of_true rfl ⟨c, List.mem_of_find?_eq_some hfind, hp⟩
  · rename_i hnone
    refine iff_of_false (by simp [Except.isOk, Except.toBool]) ?_
    rintro ⟨c, hc, hpid, hkey⟩
    have := List.find?_eq_none.mp hnone c hc
    simp [hpid, hkey] at this

def validateExactlyOneDoneColumn (db : DB) (projectID : ℤ) : Result Unit :=
  reject (((db.columnsOf projectID).filter (·.isDone)).length ≠ 1)
    ⟨.validation, "project workflow must have exactly one done column"⟩

def defaultWorkflowColumns : List WorkflowColumn :=
  [⟨0, 0, defaultColumnBacklog, "Backlog", "#9CA3AF", 0, false, true⟩,
   ⟨0, 0, defaultColumnNotStarted, "Not Started", "#F59E0B", 1, false, true⟩,
   ⟨0, 0, defaultColumnDoing, "In Progress", "#10B981", 2, false, true⟩,
   ⟨0, 0, defaultColumnTesting, "Testing", "#3B82F6", 3, false, true⟩,
   ⟨0, 0, defaultColumnDone, "Done", "#EF4444", 4, true, true⟩]

/-- A new row with the values of `col`; the table numbers it. -/
def appendColumn (db : DB) (projectID : ℤ) (col : WorkflowColumn) : DB :=
  { db with columns := db.columns ++
      [{ col with id := nextRowid (db.columns.map (·.id)), projectID := projectID }] }

/-- `INSERT`, which fails on a key the project has already. -/
def insertWorkflowColumn (db : DB) (projectID : ℤ) (col : WorkflowColumn) : Result DB :=
  if col.key ∈ db.columnKeys projectID then
    .error ⟨.internal, "insert workflow column " ++ quote col.key ++ ": UNIQUE constraint failed"⟩
  else .ok (appendColumn db projectID col)

/-- `INSERT OR IGNORE`. -/
def insertOrIgnoreColumn (projectID : ℤ) (db : DB) (col : WorkflowColumn) : DB :=
  if col.key ∈ db.columnKeys projectID then db else appendColumn db projectID col

theorem appendColumn_columnKeys (db : DB) (projectID other : ℤ) (col : WorkflowColumn) :
    (appendColumn db projectID col).columnKeys other =
      db.columnKeys other ++ if projectID = other then [col.key] else [] := by
  by_cases h : projectID = other
  · simp [appendColumn, DB.columnKeys, DB.columnsOf, h]
  · simp [appendColumn, DB.columnKeys, DB.columnsOf, h]

theorem insertOrIgnoreColumn_columnKeys (db : DB) (projectID other : ℤ) (col : WorkflowColumn) :
    ∀ k, k ∈ (insertOrIgnoreColumn projectID db col).columnKeys other ↔
      k ∈ db.columnKeys other ∨ projectID = other ∧ k = col.key := by
  intro k
  unfold insertOrIgnoreColumn
  split
  · rename_i hmem
    constructor
    · exact Or.inl
    · rintro (h | ⟨rfl, rfl⟩)
      · exact h
      · exact hmem
  · rw [appendColumn_columnKeys]
    by_cases h : projectID = other <;> simp [h]

/-- A run of insertions adds columns and touches no other table. -/
theorem foldl_appendColumn (projectID : ℤ) (cols : List WorkflowColumn) (db : DB) :
    ∃ new, cols.foldl (fun db col => appendColumn db projectID col) db =
        { db with columns := db.columns ++ new } ∧
      (∀ c ∈ new, c.projectID = projectID) ∧
      new.map (fun c => { c with id := 0, projectID := 0 }) =
        cols.map (fun c => { c with id := 0, projectID := 0 }) := by
  induction cols generalizing db with
  | nil => exact ⟨[], by simp⟩
  | cons col cols ih =>
      obtain ⟨new, hdb, hpid, hnew⟩ := ih (appendColumn db projectID col)
      refine ⟨_ :: new, by rw [List.foldl_cons, hdb, appendColumn, List.append_assoc]; rfl, ?_, ?_⟩
      · simpa using hpid
      · simp [hnew]

theorem foldlM_insertWorkflowColumn {projectID : ℤ} {cols : List WorkflowColumn} {db db' : DB}
    (h : cols.foldlM (fun db col => insertWorkflowColumn db projectID col) db = .ok db') :
    db' = cols.foldl (fun db col => appendColumn db projectID col) db := by
  induction cols generalizing db with
  | nil =>
      rw [List.foldlM_nil, pure_eq_ok] at h
      exact h.symm
  | cons col cols ih =>
      rw [List.foldlM_cons, bind_eq_ok] at h
      obtain ⟨db₁, hins, hrest⟩ := h
      unfold insertWorkflowColumn at hins
      split at hins
      · cases hins
      · cases hins
        exact ih hrest

def ensureDefaultWorkflowColumns (db : DB) (projectID : ℤ) : Result DB := do
  let db := defaultWorkflowColumns.foldl (insertOrIgnoreColumn projectID) db
  validateExactlyOneDoneColumn db projectID
  pure db

/-- The normal form in which a column of a custom workflow is checked and stored. -/
def normalizeWorkflowColumn (i : ℕ) (col : WorkflowColumn) : WorkflowColumn :=
  let color := trimSpace col.color
  { col with
    name := trimSpace col.name
    key := trimSpace (toLower col.key)
    color := if color = "" then "#64748b" else color
    position := i
    system := false }

@[simp] theorem normalizeWorkflowColumn_key (i : ℕ) (col : WorkflowColumn) :
    (normalizeWorkflowColumn i col).key = trimSpace (toLower col.key) := rfl

@[simp] theorem normalizeWorkflowColumn_isDone (i : ℕ) (col : WorkflowColumn) :
    (normalizeWorkflowColumn i col).isDone = col.isDone := rfl

/-- The validation loop over a custom workflow, from the column at index `i` on
with the keys `seen` before it. -/
def checkWorkflowColumns : ℕ → List String → List WorkflowColumn → Result (List WorkflowColumn)
  | _, _, [] => pure []
  | i, seen, col :: cols => do
      let col := normalizeWorkflowColumn i col
      reject (col.name = "") ⟨.validation, "workflow column name cannot be empty"⟩
      reject (isValidColumnKey col.key = false)
        ⟨.validation, "invalid workflow column key " ++ quote col.key⟩
      reject (colorHexRe col.color = false)
        ⟨.validation, "invalid workflow column color " ++ quote col.color⟩
      reject (col.key ∈ seen) ⟨.validation, "duplicate workflow column key " ++ quote col.key⟩
      let rest ← checkWorkflowColumns (i + 1) (col.key :: seen) cols
      pure (col :: rest)

/-- `insertWorkflowColumnsExec`: a custom workflow is validated as a whole and
then inserted column by column. -/
def insertWorkflowColumns (db : DB) (projectID : ℤ) (cols : List WorkflowColumn) :
    Result DB := do
  reject (cols.length < 2) ⟨.validation, "project workflow must have at least 2 columns"⟩
  let cols ← checkWorkflowColumns 0 [] cols
  reject ((cols.filter (·.isDone)).length ≠ 1)
    ⟨.validation, "project workflow must have exactly one done column"⟩
  cols.foldlM (fun db col => insertWorkflowColumn db projectID col) db

theorem checkWorkflowColumns_spec {i : ℕ} {seen : List String} {cols out : List WorkflowColumn}
    (h : checkWorkflowColumns i seen cols = .ok out) :
    out = (cols.zipIdx i).map (fun p => normalizeWorkflowColumn p.2 p.1) ∧
      (∀ c ∈ out, IsColumnKey c.key ∧ c.key ∉ seen ∧ colorHexRe c.color = true ∧ c.name ≠ "") ∧
      (out.map (·.key)).Nodup := by
  induction cols generalizing i seen out with
  | nil =>
      simp only [checkWorkflowColumns, pure_eq_ok] at h
      simp [← h]
  | cons col cols ih =>
      simp only [checkWorkflowColumns, bind_eq_ok, reject_eq_ok, pure_eq_ok] at h
      obtain ⟨_, hname, _, hkey, _, hcolor, _, hseen, rest, hrest, rfl⟩ := h
      obtain ⟨heq, hall, hnodup⟩ := ih hrest
      refine ⟨by simp [heq], ?_, ?_⟩
      · intro c hc
        rcases List.mem_cons.mp hc with rfl | hc
        · have htrim : trimSpace (normalizeWorkflowColumn i col).key =
              (normalizeWorkflowColumn i col).key := by simp
          exact ⟨⟨htrim, by simpa using hkey⟩, hseen, by simpa using hcolor, hname⟩
        · obtain ⟨h₁, h₂, h₃⟩ := hall c hc
          exact ⟨h₁, fun h => h₂ (List.mem_cons_of_mem _ h), h₃⟩
      · rw [List.map_cons, List.nodup_cons]
        refine ⟨?_, hnodup⟩
        rw [List.mem_map]
        rintro ⟨c, hc, hck⟩
        exact (hall c hc).2.1 (hck ▸ List.mem_cons_self)

/-- A custom workflow that was accepted is stored column by column in its normal
form. -/
theorem insertWorkflowColumns_spec {db db' : DB} {projectID : ℤ} {cols : List WorkflowColumn}
    (h : insertWorkflowColumns db projectID cols = .ok db') :
    ∃ new, db' = { db with columns := db.columns ++ new } ∧
      (∀ c ∈ new, c.projectID = projectID ∧ IsColumnKey c.key) ∧
      new.map (fun c => { c with id := 0, projectID := 0 }) =
        cols.zipIdx.map (fun p =>
          { normalizeWorkflowColumn p.2 p.1 with id := 0, projectID := 0 }) ∧
      (new.map (·.key)).Nodup := by
  simp only [insertWorkflowColumns, bind_eq_ok, reject_eq_ok] at h
  obtain ⟨_, _, out, hout, _, _, hfold⟩ := h
  obtain ⟨heq, hall, hnodup⟩ := checkWorkflowColumns_spec hout
  obtain ⟨new, hdb, hpid, hnew⟩ := foldl_appendColumn projectID out db
  rw [← foldlM_insertWorkflowColumn hfold] at hdb
  have hkeys : new.map (·.key) = out.map (·.key) := by
    have := congrArg (List.map WorkflowColumn.key) hnew
    simpa [List.map_map, Function.comp_def] using this
  refine ⟨new, hdb, ?_, ?_, hkeys ▸ hnodup⟩
  · intro c hc
    refine ⟨hpid c hc, ?_⟩
    have hmem : c.key ∈ out.map (·.key) := hkeys ▸ List.mem_map_of_mem hc
    obtain ⟨d, hd, hdk⟩ := List.mem_map.mp hmem
    exact hdk ▸ (hall d hd).1
  · rw [hnew, heq, List.map_map]
    rfl

/-- The keys that a project has after a custom workflow was inserted. -/
theorem insertWorkflowColumns_columnKeys {db db' : DB} {projectID : ℤ}
    {cols : List WorkflowColumn} (h : insertWorkflowColumns db projectID cols = .ok db')
    (other : ℤ) :
    db'.columnKeys other = db.columnKeys other ++
      if projectID = other then cols.map (fun c => trimSpace (toLower c.key)) else [] := by
  obtain ⟨new, rfl, hall, hnew, _⟩ := insertWorkflowColumns_spec h
  have hkeys : new.map (·.key) = cols.map (fun c => trimSpace (toLower c.key)) := by
    have hmap := congrArg (List.map WorkflowColumn.key) hnew
    rw [List.map_map, List.map_map] at hmap
    have hfst : cols.zipIdx.map (fun p => trimSpace (toLower p.1.key)) =
        (cols.zipIdx.map Prod.fst).map (fun c => trimSpace (toLower c.key)) := by
      rw [List.map_map]
      rfl
    rw [List.zipIdx_map_fst] at hfst
    rw [← hfst]
    simpa [Function.comp_def] using hmap
  have hfilter : new.filter (fun c => c.projectID == other) =
      if projectID = other then new else [] := by
    split
    · rename_i heq
      exact List.filter_eq_self.mpr fun c hc => by simp [(hall c hc).1, heq]
    · rename_i hne
      exact List.filter_eq_nil_iff.mpr fun c hc => by simp [(hall c hc).1, hne]
  simp only [DB.columnKeys, DB.columnsOf, List.filter_append, List.map_append, hfilter]
  by_cases heq : projectID = other
  · simp [heq, hkeys]
  · simp [heq]

def deleteProjectWorkflowColumns (db : DB) (projectID : ℤ) : DB :=
  { db with columns := deleteWhere (fun c => c.projectID == projectID) db.columns }

/-- The workflow that a mutation starts from: a project without columns gets the
default ones first. The columns of a project that is not there violate the foreign key. -/
def workflowForUpdate (db : DB) (projectID : ℤ) : Result (DB × List WorkflowColumn) :=
  if loadWorkflow db projectID = [] then do
    reject (projectID ∉ db.projects.map (·.id))
      ⟨.internal, "ensure workflow column " ++ quote defaultColumnBacklog ++
        ": FOREIGN KEY constraint failed"⟩
    let db ← ensureDefaultWorkflowColumns db projectID
    pure (db, loadWorkflow db projectID)
  else pure (db, loadWorkflow db projectID)

/-- `UPDATE project_workflow_columns SET position = ? WHERE id = ?` for each pair. -/
def setColumnPositions (db : DB) (ps : List (ℤ × ℤ)) : DB :=
  ps.foldl (fun db p => { db with
    columns := updateWhere (fun c => c.id == p.1) (fun c => { c with position := p.2 })
      db.columns }) db

def addWorkflowColumn (db : DB) (projectID : ℤ) (name : String) :
    Result (DB × WorkflowColumn) := do
  let name := trimSpace name
  reject (name = "" ∨ maxWorkflowNameLength < byteLen name)
    ⟨.validation, "invalid workflow column name"⟩
  let (db, workflow) ← workflowForUpdate db projectID
  reject (maxWorkflowColumns ≤ workflow.length)
    ⟨.validation, "workflow may have at most 12 columns"⟩
  reject ((workflow.filter (·.isDone)).length ≠ 1)
    ⟨.validation, "project workflow must have exactly one done column"⟩
  let doneIdx := workflow.findIdx (·.isDone)
  let key ← uniqueWorkflowKey (workflowKeyFromName name) (workflow.map (·.key))
  let db := setColumnPositions db (workflow.zipIdx.map fun (c, i) =>
    (c.id, if doneIdx ≤ i then (i : ℤ) + 1 else i))
  let db ← (insertWorkflowColumn db projectID
    ⟨0, 0, key, name, defaultWorkflowColor, doneIdx, false, false⟩).mapError fun _ =>
      ⟨.conflict, "workflow column key already exists"⟩
  validateExactlyOneDoneColumn db projectID
  pure (db, ⟨coalesceMax (db.columns.map (·.id)), projectID, key, name, defaultWorkflowColor,
    doneIdx, false, false⟩)

def deleteWorkflowColumn (db : DB) (projectID : ℤ) (key : String) : Result DB := do
  let key := trimSpace key
  reject (key = "") ⟨.validation, "invalid workflow column key"⟩
  let (db, workflow) ← workflowForUpdate db projectID
  let some target := workflow.find? (·.key == key) | throw ⟨.notFound, ""⟩
  reject (target.isDone = true) ⟨.validation, "cannot delete done workflow column"⟩
  reject (workflow.length ≤ 2) ⟨.validation, "project workflow must have at least 2 columns"⟩
  reject (db.todos.any fun t => t.projectID == projectID && t.columnKey == key)
    ⟨.conflict, "workflow column is not empty"⟩
  let db := { db with columns := deleteWhere (fun c => c.id == target.id) db.columns }
  let rest := workflow.eraseP (·.key == key)
  let db := setColumnPositions db (rest.zipIdx.map fun (c, i) => (c.id, (i : ℤ)))
  validateExactlyOneDoneColumn db projectID
  pure db

/-! ## What changes of a workflow leave alone -/

/-- The table of columns; everything else is equal. -/
def ColumnsOnly (db db' : DB) : Prop := db' = { db with columns := db'.columns }

theorem ColumnsOnly.exists_eq {db db' : DB} (h : ColumnsOnly db db') :
    ∃ columns, db' = { db with columns := columns } := ⟨_, h⟩

theorem ColumnsOnly.refl (db : DB) : ColumnsOnly db db := rfl

theorem ColumnsOnly.trans {a b c : DB} (hab : ColumnsOnly a b) (hbc : ColumnsOnly b c) :
    ColumnsOnly a c := by
  unfold ColumnsOnly at *
  rw [hbc, hab]

/-- Every lane of the database is still there. -/
def KeepsKeys (db db' : DB) : Prop :=
  ∀ projectID, ∀ k ∈ db.columnKeys projectID, k ∈ db'.columnKeys projectID

theorem KeepsKeys.refl (db : DB) : KeepsKeys db db := fun _ _ hk => hk

theorem KeepsKeys.trans {a b c : DB} (hab : KeepsKeys a b) (hbc : KeepsKeys b c) :
    KeepsKeys a c := fun projectID k hk => hbc projectID k (hab projectID k hk)

/-- The table of columns numbers its rows, and its keys are in their stored form. -/
structure ColumnTable (columns : List WorkflowColumn) : Prop where
  ids : (columns.map (·.id)).Nodup
  keys : ∀ c ∈ columns, IsColumnKey c.key

theorem appendColumn_columnTable {db : DB} (h : ColumnTable db.columns) (projectID : ℤ)
    {col : WorkflowColumn} (hkey : IsColumnKey col.key) :
    ColumnTable (appendColumn db projectID col).columns where
  ids := by simpa [appendColumn] using nodup_concat_nextRowid h.ids
  keys c hc := by
    rcases List.mem_append.mp hc with hc | hc
    · exact h.keys c hc
    · rw [List.mem_singleton.mp hc]
      exact hkey

theorem insertOrIgnoreColumn_columnTable {db : DB} (h : ColumnTable db.columns) (projectID : ℤ)
    {col : WorkflowColumn} (hkey : IsColumnKey col.key) :
    ColumnTable (insertOrIgnoreColumn projectID db col).columns := by
  unfold insertOrIgnoreColumn
  split
  · exact h
  · exact appendColumn_columnTable h projectID hkey

theorem foldl_insertOrIgnoreColumn_columnTable {projectID : ℤ} {cols : List WorkflowColumn} {db : DB}
    (h : ColumnTable db.columns) (hkeys : ∀ col ∈ cols, IsColumnKey col.key) :
    ColumnTable (cols.foldl (insertOrIgnoreColumn projectID) db).columns := by
  induction cols generalizing db with
  | nil => exact h
  | cons col cols ih =>
      exact ih (insertOrIgnoreColumn_columnTable h projectID (hkeys col List.mem_cons_self))
        fun c hc => hkeys c (List.mem_cons_of_mem _ hc)

theorem foldl_appendColumn_columnIDs {projectID : ℤ} {cols : List WorkflowColumn} {db : DB}
    (h : (db.columns.map (·.id)).Nodup) :
    ((cols.foldl (fun db col => appendColumn db projectID col) db).columns.map (·.id)).Nodup := by
  induction cols generalizing db with
  | nil => exact h
  | cons col cols ih =>
      apply ih
      simpa [appendColumn] using nodup_concat_nextRowid h

theorem insertWorkflowColumns_columnTable {db db' : DB} {projectID : ℤ} {cols : List WorkflowColumn}
    (h : insertWorkflowColumns db projectID cols = .ok db') (htable : ColumnTable db.columns) :
    ColumnTable db'.columns where
  ids := by
    simp only [insertWorkflowColumns, bind_eq_ok] at h
    obtain ⟨_, _, out, _, _, _, hfold⟩ := h
    rw [foldlM_insertWorkflowColumn hfold]
    exact foldl_appendColumn_columnIDs htable.ids
  keys := by
    obtain ⟨new, rfl, hall, _⟩ := insertWorkflowColumns_spec h
    intro c hc
    rcases List.mem_append.mp hc with hc | hc
    · exact htable.keys c hc
    · exact (hall c hc).2

theorem insertWorkflowColumns_columnsOnly {db db' : DB} {projectID : ℤ}
    {cols : List WorkflowColumn} (h : insertWorkflowColumns db projectID cols = .ok db') :
    ColumnsOnly db db' := by
  obtain ⟨new, rfl, _⟩ := insertWorkflowColumns_spec h
  rfl

theorem insertOrIgnoreColumn_columnsOnly (projectID : ℤ) (db : DB) (col : WorkflowColumn) :
    ColumnsOnly db (insertOrIgnoreColumn projectID db col) := by
  unfold insertOrIgnoreColumn
  split <;> rfl

theorem foldl_insertOrIgnoreColumn_spec (projectID : ℤ) (cols : List WorkflowColumn) (db : DB) :
    ColumnsOnly db (cols.foldl (insertOrIgnoreColumn projectID) db) ∧
      ∀ other k, k ∈ (cols.foldl (insertOrIgnoreColumn projectID) db).columnKeys other ↔
        k ∈ db.columnKeys other ∨ projectID = other ∧ k ∈ cols.map (·.key) := by
  induction cols generalizing db with
  | nil => exact ⟨.refl db, by simp⟩
  | cons col cols ih =>
      obtain ⟨htables, hkeys⟩ := ih (insertOrIgnoreColumn projectID db col)
      refine ⟨(insertOrIgnoreColumn_columnsOnly projectID db col).trans htables, fun other k => ?_⟩
      rw [List.foldl_cons, hkeys, insertOrIgnoreColumn_columnKeys]
      simp only [List.map_cons, List.mem_cons]
      tauto

theorem isColumnKey_default : ∀ col ∈ defaultWorkflowColumns, IsColumnKey col.key := by
  unfold IsColumnKey
  decide +kernel

theorem ensureDefaultWorkflowColumns_spec {db db' : DB} {projectID : ℤ}
    (h : ensureDefaultWorkflowColumns db projectID = .ok db') :
    ColumnsOnly db db' ∧ (ColumnTable db.columns → ColumnTable db'.columns) ∧
      ∀ other k, k ∈ db'.columnKeys other ↔
        k ∈ db.columnKeys other ∨ projectID = other ∧ k ∈ defaultWorkflowColumns.map (·.key) := by
  simp only [ensureDefaultWorkflowColumns, bind_eq_ok, pure_eq_ok] at h
  obtain ⟨_, _, rfl⟩ := h
  obtain ⟨htables, hkeys⟩ := foldl_insertOrIgnoreColumn_spec projectID defaultWorkflowColumns db
  exact ⟨htables, fun h => foldl_insertOrIgnoreColumn_columnTable h isColumnKey_default, hkeys⟩

theorem workflowForUpdate_spec {db db₁ : DB} {projectID : ℤ} {workflow : List WorkflowColumn}
    (h : workflowForUpdate db projectID = .ok (db₁, workflow)) :
    ColumnsOnly db db₁ ∧ (ColumnTable db.columns → ColumnTable db₁.columns) ∧ KeepsKeys db db₁ ∧
      workflow = loadWorkflow db₁ projectID := by
  unfold workflowForUpdate at h
  split at h
  · simp only [bind_eq_ok, pure_eq_ok, Prod.mk.injEq] at h
    obtain ⟨_, _, _, hdb₁, rfl, rfl⟩ := h
    obtain ⟨htables, hids, hkeys⟩ := ensureDefaultWorkflowColumns_spec hdb₁
    exact ⟨htables, hids, fun other k hk => (hkeys other k).mpr (.inl hk), rfl⟩
  · rw [pure_eq_ok, Prod.mk.injEq] at h
    obtain ⟨rfl, rfl⟩ := h
    exact ⟨.refl db, id, .refl db, rfl⟩

theorem setColumnPositions_spec (db : DB) (ps : List (ℤ × ℤ)) :
    ColumnsOnly db (setColumnPositions db ps) ∧
      (setColumnPositions db ps).columns.map (fun c => { c with position := 0 }) =
        db.columns.map fun c => { c with position := 0 } := by
  unfold setColumnPositions
  induction ps generalizing db with
  | nil => exact ⟨.refl db, rfl⟩
  | cons p ps ih =>
      obtain ⟨htables, hmap⟩ := ih { db with
        columns := updateWhere (fun c => c.id == p.1) (fun c => { c with position := p.2 })
          db.columns }
      have hstep : ColumnsOnly db { db with
          columns := updateWhere (fun c => c.id == p.1) (fun c => { c with position := p.2 })
            db.columns } := rfl
      refine ⟨hstep.trans htables, hmap.trans ?_⟩
      apply map_updateWhere
      intro c
      rfl

/-- A table of columns that differs in positions only. -/
def SameButPositions (db db' : DB) : Prop :=
  db'.columns.map (fun c => { c with position := 0 }) =
    db.columns.map fun c => { c with position := 0 }

theorem SameButPositions.columnKeys {db db' : DB} (h : SameButPositions db db') (projectID : ℤ) :
    db'.columnKeys projectID = db.columnKeys projectID := by
  have hkeys : ∀ cols : List WorkflowColumn,
      (cols.filter fun c => c.projectID == projectID).map (·.key) =
        ((cols.map fun c => { c with position := 0 }).filter fun c =>
          c.projectID == projectID).map (·.key) := by
    intro cols
    rw [List.filter_map, List.map_map]
    rfl
  rw [DB.columnKeys, DB.columnsOf, hkeys, h, ← hkeys]
  rfl

theorem SameButPositions.columnIDs {db db' : DB} (h : SameButPositions db db') :
    db'.columns.map (·.id) = db.columns.map (·.id) := by
  have hids : ∀ cols : List WorkflowColumn, cols.map (·.id) =
      (cols.map fun c => { c with position := 0 }).map (·.id) := by
    intro cols
    rw [List.map_map]
    rfl
  rw [hids, h, ← hids]

theorem SameButPositions.columnTable {db db' : DB} (h : SameButPositions db db')
    (htable : ColumnTable db.columns) : ColumnTable db'.columns where
  ids := h.columnIDs ▸ htable.ids
  keys c hc := by
    have hmem : { c with position := 0 } ∈ db.columns.map fun c => { c with position := 0 } :=
      h ▸ List.mem_map_of_mem hc
    obtain ⟨d, hd, heq⟩ := List.mem_map.mp hmem
    have hkey : d.key = c.key := (WorkflowColumn.mk.inj heq).2.2.1
    exact hkey ▸ htable.keys d hd

theorem insertWorkflowColumn_eq_ok {db db' : DB} {projectID : ℤ} {col : WorkflowColumn}
    (h : insertWorkflowColumn db projectID col = .ok db') : db' = appendColumn db projectID col := by
  unfold insertWorkflowColumn at h
  split at h
  · cases h
  · cases h
    rfl

theorem addWorkflowColumn_spec {db : DB} {projectID : ℤ} {name : String}
    {out : DB × WorkflowColumn} (h : addWorkflowColumn db projectID name = .ok out) :
    ColumnsOnly db out.1 ∧ (ColumnTable db.columns → ColumnTable out.1.columns) ∧ KeepsKeys db out.1 := by
  simp only [addWorkflowColumn, bind_eq_ok, pure_eq_ok, mapError_eq_ok] at h
  obtain ⟨_, _, ⟨db₁, workflow⟩, hload, _, _, _, _, key, hkey, db₃, hins, _, _, rfl⟩ := h
  obtain ⟨htables, hids, hkeys, _⟩ := workflowForUpdate_spec hload
  obtain ⟨hpos, hmap⟩ := setColumnPositions_spec db₁ (workflow.zipIdx.map fun (c, i) =>
    (c.id, if workflow.findIdx (·.isDone) ≤ i then (i : ℤ) + 1 else i))
  have hmap : SameButPositions db₁ _ := hmap
  obtain rfl := insertWorkflowColumn_eq_ok hins
  refine ⟨(htables.trans hpos).trans rfl, ?_, hkeys.trans fun other k hk => ?_⟩
  · intro htable
    apply appendColumn_columnTable (hmap.columnTable (hids htable))
    exact isColumnKey_uniqueWorkflowKey (keyChars_workflowKeyFromName _) hkey
  · rw [appendColumn_columnKeys, hmap.columnKeys]
    exact List.mem_append_left _ hk

theorem deleteWorkflowColumn_columnsOnly {db db' : DB} {projectID : ℤ} {key : String}
    (h : deleteWorkflowColumn db projectID key = .ok db') : ColumnsOnly db db' := by
  simp only [deleteWorkflowColumn, bind_eq_ok] at h
  obtain ⟨_, _, ⟨db₁, workflow⟩, hload, h⟩ := h
  split at h
  · rename_i target _
    simp only [bind_eq_ok, pure_eq_ok] at h
    obtain ⟨_, _, _, _, _, _, _, _, rfl⟩ := h
    have hstep : ColumnsOnly db₁ { db₁ with
      columns := deleteWhere (fun c => c.id == target.id) db₁.columns } := rfl
    exact ((workflowForUpdate_spec hload).1.trans hstep).trans (setColumnPositions_spec _ _).1
  · cases h

/-- Deleting a lane takes away no lane that a todo is in. -/
theorem deleteWorkflowColumn_spec {db db' : DB} (htable : ColumnTable db.columns) {projectID : ℤ}
    {key : String} (h : deleteWorkflowColumn db projectID key = .ok db') :
    ColumnsOnly db db' ∧ ColumnTable db'.columns ∧
      ∀ t ∈ db.todos, t.columnKey ∈ db.columnKeys t.projectID →
        t.columnKey ∈ db'.columnKeys t.projectID := by
  simp only [deleteWorkflowColumn, bind_eq_ok, reject_eq_ok] at h
  obtain ⟨_, _, ⟨db₁, workflow⟩, hload, h⟩ := h
  split at h
  · rename_i target hfind
    simp only [bind_eq_ok, reject_eq_ok, pure_eq_ok] at h
    obtain ⟨_, _, _, _, _, hempty, _, _, rfl⟩ := h
    obtain ⟨htables, htable₁, hkeys, rfl⟩ := workflowForUpdate_spec hload
    have htable₁ := htable₁ htable
    have hstep : ColumnsOnly db₁ { db₁ with
      columns := deleteWhere (fun c => c.id == target.id) db₁.columns } := rfl
    obtain ⟨hpos, hmap⟩ := setColumnPositions_spec
      { db₁ with columns := deleteWhere (fun c => c.id == target.id) db₁.columns }
      (((loadWorkflow db₁ projectID).eraseP (·.key == trimSpace key)).zipIdx.map
        fun (c, i) => (c.id, (i : ℤ)))
    have hmap : SameButPositions _ _ := hmap
    refine ⟨(htables.trans hstep).trans hpos, ?_, fun t ht hmem => ?_⟩
    · refine hmap.columnTable ⟨htable₁.ids.sublist (List.Sublist.map _ List.filter_sublist), ?_⟩
      intro c hc
      exact htable₁.keys c (mem_deleteWhere.mp hc).1
    · rw [hmap.columnKeys, DB.mem_columnKeys]
      obtain ⟨c, hc, hcpid, hckey⟩ := DB.mem_columnKeys.mp (hkeys _ _ hmem)
      refine ⟨c, ?_, hcpid, hckey⟩
      rw [mem_deleteWhere]
      refine ⟨hc, beq_eq_false_iff_ne.mpr fun hcid => ?_⟩
      -- The deleted column is found under the key, and no todo is in its lane.
      have htarget : target ∈ db₁.columnsOf projectID := by
        simpa [loadWorkflow] using List.mem_of_find?_eq_some hfind
      have htkey : target.key = trimSpace key := by simpa using List.find?_some hfind
      obtain ⟨htmem, htpid⟩ := List.mem_filter.mp htarget
      obtain rfl := List.inj_on_of_nodup_map htable₁.ids hc htmem hcid
      obtain ⟨cols, rfl⟩ := htables.exists_eq
      apply hempty
      rw [List.any_eq_true]
      exact ⟨t, ht, by simp_all⟩
  · cases h

end Scrumboy
