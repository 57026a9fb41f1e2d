import Scrumboy.Store.Workflow
import Mathlib.Data.String.Basic

/-!
# Boards of Trello

The board that a Trello export holds after JSON decoding, and the text of a story that a card
becomes. Positions are only compared, so the rational number that a float stands for is as
good as the float. A map of the source is the list of its entries, the latest one first.
-/

set_option linter.dupNamespace false

namespace Scrumboy

open Go Sql

structure TrelloList where
  id : String
  name : String
  pos : ℚ := 0
  closed : Bool := false
  deriving DecidableEq, Repr

structure TrelloLabel where
  id : String
  name : String := ""
  color : String := ""
  deriving DecidableEq, Repr

structure TrelloMember where
  id : String := ""
  fullName : String := ""
  username : String := ""
  deriving DecidableEq, Repr

structure TrelloCheckItem where
  name : String
  state : String := ""
  pos : ℚ := 0
  deriving DecidableEq, Repr

structure TrelloChecklist where
  id : String
  name : String := ""
  idCard : String := ""
  checkItems : List TrelloCheckItem := []
  deriving DecidableEq, Repr

structure TrelloAction where
  id : String
  type : String
  date : String := ""
  idMemberCreator : String := ""
  text : String := ""
  cardID : String := ""
  memberCreator : Option TrelloMember := none
  deriving DecidableEq, Repr

structure TrelloAttachment where
  name : String
  url : String
  deriving DecidableEq, Repr

structure TrelloFieldValue where
  text : String := ""
  number : String := ""
  date : String := ""
  checked : String := ""
  deriving DecidableEq, Repr

structure TrelloFieldOption where
  id : String
  value : TrelloFieldValue
  deriving DecidableEq, Repr

structure TrelloFieldDefinition where
  id : String := ""
  name : String := ""
  type : String := ""
  options : List TrelloFieldOption := []
  deriving DecidableEq, Repr

structure TrelloFieldItem where
  idCustomField : String
  idValue : String := ""
  value : TrelloFieldValue := {}
  deriving DecidableEq, Repr

structure TrelloCard where
  id : String
  name : String
  desc : String := ""
  idList : String
  pos : ℚ := 0
  closed : Bool := false
  due : Option String := none
  start : Option String := none
  idLabels : List String := []
  idMembers : List String := []
  idChecklists : List String := []
  attachments : List TrelloAttachment := []
  customFieldItems : List TrelloFieldItem := []
  labels : List TrelloLabel := []
  deriving DecidableEq, Repr

structure TrelloBoard where
  name : String
  lists : List TrelloList
  cards : List TrelloCard
  labels : List TrelloLabel := []
  members : List TrelloMember := []
  checklists : List TrelloChecklist := []
  actions : List TrelloAction := []
  customFields : List TrelloFieldDefinition := []
  deriving DecidableEq, Repr

/-! ## Texts -/

def firstNonEmpty (values : List String) : String := ((values.map trimSpace).find? (· ≠ "")).getD ""

/-- `dedupeStrings` and `dedupeNonEmptyStrings`. -/
def dedupeStrings (values : List String) : List String :=
  values.foldl (fun out value =>
    if trimSpace value = "" ∨ trimSpace value ∈ out then out else out ++ [trimSpace value]) []

def TrelloFieldValue.texts (v : TrelloFieldValue) : List String :=
  [trimSpace v.text, trimSpace v.number, trimSpace v.date, trimSpace v.checked]

def memberDisplay (member : TrelloMember) (fallbackID : String) : String :=
  let fullName := trimSpace member.fullName
  let username := trimSpace member.username
  if fullName ≠ "" ∧ username ≠ "" then fullName ++ " (@" ++ username ++ ")"
  else if fullName ≠ "" then fullName
  else if username ≠ "" then "@" ++ username
  else if trimSpace fallbackID ≠ "" then trimSpace fallbackID
  else "Unknown member"

def fallbackChecklistName (name : String) : String :=
  if trimSpace name = "" then "Untitled checklist" else trimSpace name

/-- What the text of a story draws from the board. -/
structure TrelloTexts where
  memberByID : List (String × TrelloMember)
  checklists : List TrelloChecklist
  comments : List TrelloAction
  customFieldByID : List (String × TrelloFieldDefinition)
  customFieldOptionText : List (String × String)

def TrelloTexts.checklistsByCardID (x : TrelloTexts) (cardID : String) : List TrelloChecklist :=
  x.checklists.filter fun c => trimSpace c.idCard = cardID ∧ cardID ≠ ""

def TrelloTexts.commentsByCardID (x : TrelloTexts) (cardID : String) : List TrelloAction :=
  orderBy (fun a => toLex (a.date, a.id))
    (x.comments.filter fun a => trimSpace a.cardID = cardID ∧ cardID ≠ "")

def commentAuthorDisplay (x : TrelloTexts) (action : TrelloAction) : String :=
  let creator := trimSpace action.idMemberCreator
  match action.memberCreator, x.memberByID.lookup creator with
  | some member, _ => memberDisplay member creator
  | none, some member => memberDisplay member creator
  | none, none => if creator ≠ "" then creator else "Unknown author"

def orderedChecklistsForCard (card : TrelloCard) (checklists : List TrelloChecklist) : List TrelloChecklist :=
  if card.idChecklists = [] then orderBy (fun c => toLex (trimSpace c.name, c.id)) checklists
  else
    let named := card.idChecklists.filterMap fun id => checklists.reverse.find? (·.id == trimSpace id)
    named ++ checklists.filter fun c => c.id ∉ named.map (·.id)

def customFieldDisplayValue (x : TrelloTexts) (item : TrelloFieldItem) (field : TrelloFieldDefinition) :
    String :=
  let idValue := trimSpace item.idValue
  let text := trimSpace ((x.customFieldOptionText.lookup idValue).getD "")
  let value := firstNonEmpty item.value.texts
  if idValue ≠ "" then if text ≠ "" then text else idValue
  else if value ≠ "" then value
  else if trimSpace field.type ≠ "" then "(empty " ++ trimSpace field.type ++ ")"
  else "(empty)"

/-- A section of the text, unless it has no lines. -/
def bodySection (heading : String) (lines : List String) : List String :=
  if lines = [] then [] else [heading ++ "\n" ++ join "\n" lines]

def dateLines (card : TrelloCard) : List String :=
  let line := fun (label : String) (date : Option String) =>
    ((date.map trimSpace).filter (· ≠ "")).toList.map fun d => "- " ++ label ++ ": " ++ d
  line "Start" card.start ++ line "Due" card.due

def checklistLines (x : TrelloTexts) (card : TrelloCard) : List String :=
  (orderedChecklistsForCard card (x.checklistsByCardID card.id)).flatMap fun checklist =>
    ("### " ++ fallbackChecklistName checklist.name) ::
      (orderBy (fun i => toLex (i.pos, i.name)) checklist.checkItems).map fun item =>
        "- " ++ (if toLower (trimSpace item.state) = "complete" then "[x]" else "[ ]") ++ " " ++
          trimSpace item.name

def commentLines (x : TrelloTexts) (card : TrelloCard) : List String :=
  ((x.commentsByCardID card.id).filter fun c => trimSpace c.text ≠ "").map fun comment =>
    let line := commentAuthorDisplay x comment ++ ": " ++ trimSpace comment.text
    if trimSpace comment.date ≠ "" then "- " ++ trimSpace comment.date ++ " | " ++ line else "- " ++ line

def attachmentLines (card : TrelloCard) : List String :=
  card.attachments.filterMap fun attachment =>
    let name := trimSpace attachment.name
    let url := trimSpace attachment.url
    if name ≠ "" ∧ url ≠ "" then some ("- [" ++ name ++ "](" ++ url ++ ")")
    else if url ≠ "" then some ("- " ++ url)
    else if name ≠ "" then some ("- " ++ name)
    else none

def customFieldLines (x : TrelloTexts) (card : TrelloCard) : List String :=
  card.customFieldItems.map fun item =>
    let id := trimSpace item.idCustomField
    let field := (x.customFieldByID.lookup id).getD {}
    let name := if trimSpace field.name = "" then "Custom field " ++ id else trimSpace field.name
    "- " ++ name ++ ": " ++ customFieldDisplayValue x item field

def cardImportNotes (card : TrelloCard) (list : TrelloList) : List String :=
  (if list.closed then
    ["- Original Trello list: " ++ fallbackChecklistName list.name ++ " (closed in Trello)"] else []) ++
    if card.closed then ["- Archived in Trello: true"] else []

def buildTodoBody (x : TrelloTexts) (card : TrelloCard) (list : TrelloList) : String :=
  let desc := trimSpace card.desc
  let memberLines := (dedupeStrings card.idMembers).map fun id =>
    "- " ++ memberDisplay ((x.memberByID.lookup id).getD {}) id
  trimSpace (join "\n\n"
    ((if desc ≠ "" then [desc] else []) ++
      bodySection "## Trello dates" (dateLines card) ++
      bodySection "## Trello members" memberLines ++
      bodySection "## Trello checklists" (checklistLines x card) ++
      bodySection "## Imported Trello comments" (commentLines x card) ++
      bodySection "## Trello attachments" (attachmentLines card) ++
      bodySection "## Trello custom fields" (customFieldLines x card) ++
      bodySection "## Trello import notes" (cardImportNotes card list)))

end Scrumboy
