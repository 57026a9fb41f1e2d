import Scrumboy.Trello.Board
import Scrumboy.Backup.Lanes
import Scrumboy.Go.Json

/-!
# From a Trello board to a backup

Every open list becomes a column, whose key is derived from the name of the list. A card of an
open list goes to its column and a card of a closed list to the column of done stories. A
board that cannot be imported leads to errors and no backup. The counts and warnings of the
preview and the metadata of the import are left out.
-/

set_option linter.dupNamespace false

namespace Scrumboy

open Go Sql

/-! ## Columns -/

def maxWorkflowKeyLen : ℕ := 32

def syntheticDoneListID : String := "__trello_import_done__"

def TrelloList.sortKey (l : TrelloList) : ℚ ×ₗ String := toLex (l.pos, l.id)

def sortLists (lists : List TrelloList) : List TrelloList := orderBy TrelloList.sortKey lists

def normalizeDoneName (name : String) : String :=
  String.ofList ((toLower (trimSpace name)).toList.filter isLowerAlnum)

def isCommonDoneListName (name : String) : Bool :=
  normalizeDoneName name ∈ ["done", "complete", "completed", "shipped", "finished"]

/-- The rightmost list with a common name for done stories, or the rightmost one. -/
def detectDoneList (openLists : List TrelloList) : Option TrelloList :=
  (openLists.reverse.find? (isCommonDoneListName ·.name)).or openLists.getLast?

def synthesizedDoneList : TrelloList where
  id := syntheticDoneListID
  name := "Done"
  pos := 1000000

/-- The same text as the function of the store. -/
def Trello.workflowKeyFromName (name : String) : String := Scrumboy.workflowKeyFromName name

def isValidWorkflowKey (key : String) : Bool :=
  key != "" && byteLen key ≤ maxWorkflowKeyLen &&
    key.toList.all (fun c => isLowerAlnum c || c == '_') &&
    key.toList.head? != some '_' && key.toList.getLast? != some '_'

/-- The key with a number behind it, cut to the length of a key. -/
def suffixedWorkflowKey (baseKey : String) (i : ℕ) : String :=
  let suffix := "_" ++ formatInt i
  let candidate :=
    if maxWorkflowKeyLen < byteLen baseKey + byteLen suffix then
      trimChar '_' (takeBytes (maxWorkflowKeyLen - byteLen suffix) baseKey)
    else baseKey
  (if candidate = "" then "lane" else candidate) ++ suffix

def Trello.uniqueWorkflowKey (baseKey : String) (used : List String) : Option String :=
  let free := fun key => key ∉ used ∧ isValidWorkflowKey key = true
  if free baseKey then some baseKey
  else ((List.range' 2 999).map (suffixedWorkflowKey baseKey)).find? free

def trelloWorkflowColors : List String :=
  ["#94a3b8", "#f59e0b", "#22c55e", "#3b82f6", "#8b5cf6", "#ec4899", "#14b8a6", "#f97316", "#84cc16",
    "#06b6d4", "#a855f7"]

def workflowColumnColor (position : ℕ) (isDone : Bool) : String :=
  if isDone then "#ef4444" else trelloWorkflowColors.getD (position % trelloWorkflowColors.length) ""

def quotedName (name : String) : String :=
  if trimSpace name = "" then "\"(unnamed)\"" else String.ofList (jsonText (trimSpace name).toList)

def workflowColumn (doneID : String) (list : TrelloList) (key : String) (idx : ℕ) : WorkflowColumnExport where
  key := key
  name := trimSpace list.name
  color := workflowColumnColor idx (list.id == doneID)
  position := idx
  isDone := list.id == doneID

/-- The loop over the lists of the workflow. -/
structure WorkflowScan where
  errors : List String := []
  columns : List WorkflowColumnExport := []
  listToColumnKey : List (String × String) := []
  usedColumnKeys : List String := []

/-- The key of the next list. -/
def keyFor (used : List String) (l : TrelloList) : Option String :=
  if l.id = syntheticDoneListID then some "done"
  else Trello.uniqueWorkflowKey (Trello.workflowKeyFromName l.name) used

def workflowStep (doneID : String) (s : WorkflowScan) (li : TrelloList × ℕ) : WorkflowScan :=
  let (list, idx) := li
  match keyFor s.usedColumnKeys list with
  | none => { s with
      errors := s.errors ++ ["Could not generate a unique workflow key for Trello list " ++
        quotedName list.name ++ "."] }
  | some key =>
      { s with
        usedColumnKeys := key :: s.usedColumnKeys
        listToColumnKey := (list.id, key) :: s.listToColumnKey
        columns := s.columns ++ [workflowColumn doneID list key idx] }

/-- The column of done stories: a list of the board, or a new one beside a single list. -/
def doneListOf (openLists : List TrelloList) : Option TrelloList :=
  if openLists.length = 1 then some synthesizedDoneList else detectDoneList openLists

def workflowListsOf (openLists : List TrelloList) : List TrelloList :=
  if openLists.length = 1 then openLists ++ [synthesizedDoneList] else openLists

def buildWorkflow (openLists : List TrelloList) : WorkflowScan :=
  (workflowListsOf openLists).zipIdx.foldl (workflowStep (((doneListOf openLists).map (·.id)).getD ""))
    { usedColumnKeys := if openLists.length = 1 then ["done"] else [] }

/-! ## The board -/

/-- The lists that have an id of their own, and the errors of the others. -/
structure ListScan where
  errors : List String := []
  lists : List TrelloList := []

def scanList (s : ListScan) (l : TrelloList) : ListScan :=
  let listID := trimSpace l.id
  if listID = "" then { s with errors := s.errors ++ ["A Trello list is missing its id."] }
  else if listID ∈ s.lists.map (·.id) then
    { s with errors := s.errors ++ ["Duplicate Trello list id: " ++ listID] }
  else { s with lists := s.lists ++ [{ l with id := listID }] }

def scanLists (lists : List TrelloList) : ListScan := lists.foldl scanList {}

/-- The errors of the cards so far, and the ids that are in use. -/
def scanCard (s : List String × List String) (card : TrelloCard) : List String × List String :=
  let cardID := trimSpace card.id
  if cardID = "" then (s.1 ++ ["A Trello card is missing its id."], s.2)
  else if cardID ∈ s.2 then (s.1 ++ ["Duplicate Trello card id: " ++ cardID], s.2)
  else (s.1, s.2 ++ [cardID])

namespace TrelloBoard

variable (b : TrelloBoard)

def listsByID : List TrelloList := (scanLists b.lists).lists

def openLists : List TrelloList := sortLists (b.listsByID.filter fun l => !l.closed)

def boardErrors : List String :=
  (if trimSpace b.name = "" then ["Trello board is missing its name."] else []) ++
    (if b.openLists.length = 0 then ["Trello board has no open lists to import."] else []) ++
    if maxWorkflowColumns < b.openLists.length then
      ["Trello boards with more than 12 open lists cannot be imported as-is."] else []

/-- The labels of the board and then those that only cards have. -/
def labelScan : List String × List TrelloLabel :=
  let (errors, labels) := b.labels.foldl (fun (errors, labels) label =>
    let labelID := trimSpace label.id
    if labelID = "" then (errors, labels)
    else if labelID ∈ labels.map (·.id) then (errors ++ ["Duplicate Trello label id: " ++ labelID], labels)
    else (errors, labels ++ [{ label with id := labelID }])) (([] : List String), ([] : List TrelloLabel))
  (errors, (b.cards.flatMap (·.labels)).foldl (fun labels label =>
    let labelID := trimSpace label.id
    if labelID = "" ∨ labelID ∈ labels.map (·.id) then labels
    else labels ++ [{ label with id := labelID }]) labels)

/-- The checklists that have an id. -/
def namedChecklists : List TrelloChecklist :=
  (b.checklists.map fun c => { c with id := trimSpace c.id }).filter (·.id ≠ "")

def checklistErrors : List String :=
  b.namedChecklists.filterMap fun c =>
    if trimSpace c.idCard = "" then some ("Checklist " ++ c.id ++ " is missing its card reference.") else none

def cardScan : List String × List String := b.cards.foldl scanCard ([], [])

def checklistCardErrors : List String :=
  b.checklists.filterMap fun c =>
    let cardID := trimSpace c.idCard
    if cardID ≠ "" ∧ cardID ∉ b.cardScan.2 then
      some ("Checklist " ++ trimSpace c.id ++ " references missing Trello card " ++ cardID ++ ".")
    else none

def texts : TrelloTexts where
  memberByID :=
    b.actions.foldl (fun m action => match action.memberCreator with
      | none => m
      | some creator =>
          let id := trimSpace creator.id
          if id = "" ∨ (m.lookup id).isSome then m else (id, creator) :: m)
      (b.members.foldl (fun m member =>
        let id := trimSpace member.id
        if id = "" then m else (id, { member with id := id }) :: m) [])
  checklists := b.namedChecklists
  comments := b.actions.filter fun a => a.type = "commentCard"
  customFieldByID := b.customFields.foldl (fun m field =>
    let id := trimSpace field.id
    if id = "" then m else (id, { field with id := id }) :: m) []
  customFieldOptionText := (b.customFields.filter fun field => trimSpace field.id ≠ "").foldl
    (fun m field => field.options.foldl (fun m option =>
      let id := trimSpace option.id
      if id = "" then m else (id, firstNonEmpty option.value.texts) :: m) m) []

def workflow : WorkflowScan := buildWorkflow b.openLists

def hardErrors : List String :=
  (scanLists b.lists).errors ++ b.boardErrors ++ b.labelScan.1 ++ b.checklistErrors ++ b.cardScan.1 ++
    b.checklistCardErrors ++ b.workflow.errors

end TrelloBoard

/-! ## Labels -/

def trelloLabelColors : List (String × String) :=
  [("green", "#61BD4F"), ("green_light", "#BAF3DB"), ("green_dark", "#4BCE97"),
    ("yellow", "#F2D600"), ("yellow_light", "#FCE29C"), ("yellow_dark", "#E2B203"),
    ("orange", "#FF9F1A"), ("orange_light", "#FDD0B5"), ("orange_dark", "#F38A3F"),
    ("red", "#EB5A46"), ("red_light", "#FFD5D2"), ("red_dark", "#F87168"),
    ("purple", "#C377E0"), ("purple_light", "#DFC0FF"), ("purple_dark", "#9F8FEF"),
    ("blue", "#0079BF"), ("blue_light", "#CCE0FF"), ("blue_dark", "#579DFF"),
    ("sky", "#00C2E0"), ("sky_light", "#C6EDFB"), ("sky_dark", "#6CC3E0"),
    ("lime", "#51E898"), ("lime_light", "#D3F1A7"), ("lime_dark", "#94C748"),
    ("pink", "#FF78CB"), ("pink_light", "#FDD0EC"), ("pink_dark", "#E774BB"),
    ("black", "#344563"), ("black_light", "#8590A2"), ("black_dark", "#626F86")]

def trelloLabelColorHex (color : String) : Option String := trelloLabelColors.lookup (toLower (trimSpace color))

def labelBaseName (label : TrelloLabel) : String :=
  let name := trimSpace label.name
  let color := trimSpace label.color
  if name ≠ "" then name
  else if color ≠ "" ∧ color ≠ "none" then "Trello " ++ toLower color ++ " label"
  else "Untitled Trello label"

def TrelloLabel.sortKey (l : TrelloLabel) : String ×ₗ String ×ₗ String :=
  toLex (toLower (trimSpace l.name), toLex (l.color, l.id))

/-- The names of the labels by their ids, and the tags. A name that comes again, in any case,
gets a number. -/
def buildTagExports (labels : List TrelloLabel) : List (String × String) × List TagExport :=
  let named := (orderBy TrelloLabel.sortKey labels).foldl (fun (out, used) label =>
    let baseName := labelBaseName label
    let n := used.count (toLower baseName) + 1
    let finalName := if 1 < n then baseName ++ " (" ++ formatInt n ++ ")" else baseName
    (out ++ [(label, finalName)], toLower baseName :: used))
    (([] : List (TrelloLabel × String)), ([] : List String))
  (named.1.map fun (label, name) => (label.id, name),
    named.1.map fun (label, name) => { name := name, color := trelloLabelColorHex label.color })

/-! ## Cards -/

structure ConvertedCard where
  card : TrelloCard
  sourceList : TrelloList
  targetColumnKey : String
  title : String
  body : String
  tagNames : List String

def cardTitle (card : TrelloCard) (list : TrelloList) : String :=
  let title := if trimSpace card.name = "" then "Untitled Trello card" else trimSpace card.name
  if list.closed then "[Closed List] " ++ title else title

namespace TrelloBoard

variable (b : TrelloBoard)

def labelNameByID : List (String × String) := (buildTagExports b.labelScan.2).1

def cardTagErrors (card : TrelloCard) : List String :=
  (card.idLabels.map trimSpace).filterMap fun labelID =>
    if labelID ≠ "" ∧ labelID ∉ b.labelScan.2.map (·.id) then
      some ("Card " ++ trimSpace card.id ++ " references missing Trello label " ++ labelID ++ ".")
    else none

def cardTagNames (card : TrelloCard) : List String :=
  (card.idLabels.map trimSpace).foldl (fun names labelID =>
    if labelID = "" ∨ labelID ∉ b.labelScan.2.map (·.id) then names
    else
      let name := (b.labelNameByID.lookup labelID).getD ""
      if name ∈ names then names else names ++ [name]) []

def columnKey (list : TrelloList) : String := (b.workflow.listToColumnKey.lookup list.id).getD ""

def doneList : Option TrelloList := doneListOf b.openLists

def sourceList (card : TrelloCard) : Option TrelloList := b.listsByID.find? (·.id == trimSpace card.idList)

/-- The list whose column the card goes to. -/
def targetList (list : TrelloList) : Option TrelloList := if list.closed then b.doneList else some list

/-- A card of the board, or the error that there is no list for it. -/
def convertCard (card : TrelloCard) : List String × Option ConvertedCard :=
  if trimSpace card.id = "" then ([], none)
  else
    match b.sourceList card with
    | none => (["Card " ++ trimSpace card.id ++ " references missing Trello list " ++ trimSpace card.idList ++
        "."], none)
    | some list =>
        (b.cardTagErrors card, some
          { card := card
            sourceList := list
            targetColumnKey := ((b.targetList list).map b.columnKey).getD ""
            title := cardTitle card list
            body := buildTodoBody b.texts card list
            tagNames := b.cardTagNames card })

def cardErrors : List String := b.cards.flatMap fun card => (b.convertCard card).1

end TrelloBoard

def ConvertedCard.sortKey (c : ConvertedCard) : ℚ ×ₗ ℚ ×ₗ String :=
  toLex (c.sourceList.pos, toLex (c.card.pos, c.card.id))

namespace TrelloBoard

variable (b : TrelloBoard)

/-- The cards by the position of the list, their own position and their id. -/
def convertedCards : List ConvertedCard :=
  orderBy ConvertedCard.sortKey (b.cards.filterMap fun card => (b.convertCard card).2)

end TrelloBoard

def Trello.rankStep : ℤ := 1000

/-- The loop over the cards, with the highest rank of each column so far. -/
def exportCards (nowMs : ℤ) : (String → ℤ) → ℤ → List ConvertedCard → List TodoExport
  | _, _, [] => []
  | columnRanks, localID, c :: cards =>
      let columnRanks := Function.update columnRanks c.targetColumnKey
        (columnRanks c.targetColumnKey + Trello.rankStep)
      { localID := localID
        title := c.title
        body := c.body
        status := toUpper c.targetColumnKey
        rank := columnRanks c.targetColumnKey
        tags := c.tagNames
        createdAt := nowMs
        updatedAt := nowMs
        priorityKeyPresent := true
        archivedAt := if c.card.closed then some nowMs else none
        archivedAtPresent := true } :: exportCards nowMs columnRanks (localID + 1) cards

/-- The errors of a board that cannot be imported, or its backup. The stories that come with
metadata are listed by their local ids. -/
structure TrelloBundle where
  hardErrors : List String := []
  exportData : Option ExportData := none
  metadataLocalIDs : List ℤ := []

def TrelloBoard.projectExport (b : TrelloBoard) (nowMs : ℤ) : ProjectExport where
  slug := ""
  name := trimSpace b.name
  createdAt := nowMs
  updatedAt := nowMs
  workflowColumns := b.workflow.columns
  priorityTiersPresent := true
  todos := exportCards nowMs (fun _ => 0) 1 b.convertedCards
  tags := (buildTagExports b.labelScan.2).2

def transformBoard (b : TrelloBoard) (nowMs : ℤ) : TrelloBundle :=
  if b.hardErrors ≠ [] then { hardErrors := dedupeStrings b.hardErrors }
  else if b.cardErrors ≠ [] then { hardErrors := dedupeStrings b.cardErrors }
  else
    { exportData := some { scope := "project", projects := [b.projectExport nowMs] }
      metadataLocalIDs := (b.projectExport nowMs).todos.map (·.localID) }

end Scrumboy
