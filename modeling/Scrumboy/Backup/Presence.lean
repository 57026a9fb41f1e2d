import Scrumboy.Backup.Format
import Scrumboy.Go.JsonStruct

/-!
# Presence flags of a backup

`ProjectExport`, `TodoExport` and `WallExport` tell a member that is left out from one that is null
or empty. Their `MarshalJSON` takes members away by a flag, and their `UnmarshalJSON` reads the text
a second time, into a map, to see which members it has.
-/

set_option linter.dupNamespace false

namespace Scrumboy

open Go Go.Json

variable {J : Type} {S : Syntax J}

/-- How the types without a flag of their own are read and written. Of some of them, such as
`time.Time` and those with floating point numbers, only this is known. -/
structure ExportCodecs {J : Type} (S : Syntax J) where
  Time : Type
  CustomValues : Type
  Asset : Type
  Note : Type
  Edge : Type
  Story : Type
  text : Codec J String
  int : Codec J ℤ
  bool : Codec J Bool
  time : Codec J Time
  workflowColumn : Codec J WorkflowColumnExport
  priorityTier : Codec J PriorityTierExport
  sprint : Codec J SprintExport
  tag : Codec J TagExport
  link : Codec J LinkExport
  customField : Codec J CustomFieldExport
  customValues : Codec J CustomValues
  asset : Codec J Asset
  wallNote : Codec J Note
  wallEdge : Codec J Edge
  wallStory : Codec J Story
  slice : {α : Type} → Codec J α → Codec J (Option (List α))
  restores_text : ∀ s, text.Restores s
  restores_int : ∀ n, int.Restores n
  restores_bool : ∀ b, bool.Restores b
  restores_time : ∀ t, time.Restores t
  restores_workflowColumn : ∀ c, workflowColumn.Restores c
  restores_priorityTier : ∀ t, priorityTier.Restores t
  restores_sprint : ∀ s, sprint.Restores s
  restores_tag : ∀ t, tag.Restores t
  restores_link : ∀ l, link.Restores l
  restores_customField : ∀ f, customField.Restores f
  restores_customValues : ∀ m, customValues.Restores m
  restores_asset : ∀ a, asset.Restores a
  restores_wallNote : ∀ n, wallNote.Restores n
  restores_wallEdge : ∀ e, wallEdge.Restores e
  restores_wallStory : ∀ s, wallStory.Restores s
  restores_slice : ∀ {α : Type} (c : Codec J α) l, (∀ a ∈ l, c.Restores a) →
    (slice c).Restores (some l)
  restores_nil : ∀ {α : Type} (c : Codec J α), (slice c).Restores none
  isNullable_slice : ∀ {α : Type} (c : Codec J α),
    (slice c).IsNullable S fun l => l.isSome = true
  omitsZero_text : text.OmitsZero
  omitsZero_int : int.OmitsZero
  omitsZero_customValues : customValues.OmitsZero
  text_notNull : ∀ s, S.isNull (text.encode s) = false
  int_notNull : ∀ n, S.isNull (int.encode n) = false
  bool_notNull : ∀ b, S.isNull (bool.encode b) = false
  time_notNull : ∀ t, S.isNull (time.encode t) = false

/-! ## Stories -/

inductive TodoJsonField
  | localID | title | body | status | rank | sprintNumber | estimationPoints | assigneeUserId
  | createdByUserId | tags | createdAt | updatedAt | doneAt | archivedAt | dueAt | priorityKey
  | customFields
  deriving DecidableEq, Repr

namespace TodoJsonField

def all : List TodoJsonField :=
  [localID, title, body, status, rank, sprintNumber, estimationPoints, assigneeUserId,
    createdByUserId, tags, createdAt, updatedAt, doneAt, archivedAt, dueAt, priorityKey,
    customFields]

def tagName : TodoJsonField → String
  | localID => "localId"
  | title => "title"
  | body => "body"
  | status => "status"
  | rank => "rank"
  | sprintNumber => "sprintNumber"
  | estimationPoints => "estimationPoints"
  | assigneeUserId => "assigneeUserId"
  | createdByUserId => "createdByUserId"
  | tags => "tags"
  | createdAt => "createdAt"
  | updatedAt => "updatedAt"
  | doneAt => "doneAt"
  | archivedAt => "archivedAt"
  | dueAt => "dueAt"
  | priorityKey => "priorityKey"
  | customFields => "customFields"

def omitEmpty : TodoJsonField → Bool
  | sprintNumber | estimationPoints | assigneeUserId | createdByUserId | doneAt | dueAt
  | customFields => true
  | _ => false

def Value (C : ExportCodecs S) : TodoJsonField → Type
  | localID | rank => ℤ
  | title | body | status => String
  | sprintNumber | estimationPoints | assigneeUserId | createdByUserId | doneAt | archivedAt
  | dueAt => Option ℤ
  | tags => Option (List String)
  | createdAt | updatedAt => C.Time
  | priorityKey => Option String
  | customFields => C.CustomValues

def codec (C : ExportCodecs S) : ∀ f : TodoJsonField, Codec J (f.Value C)
  | localID | rank => C.int
  | title | body | status => C.text
  | sprintNumber | estimationPoints | assigneeUserId | createdByUserId | doneAt | archivedAt
  | dueAt => C.int.pointer S
  | tags => C.slice C.text
  | createdAt | updatedAt => C.time
  | priorityKey => C.text.pointer S
  | customFields => C.customValues

theorem mem_all (f : TodoJsonField) : f ∈ all := by
  cases f <;> decide

theorem all_nodup : (all.map fun f => foldName f.tagName).Nodup := by
  decide +kernel

end TodoJsonField

/-- `type alias TodoExport`. -/
def todoAlias (C : ExportCodecs S) : Struct J TodoJsonField where
  order := TodoJsonField.all
  name := TodoJsonField.tagName
  Value := TodoJsonField.Value C
  codec := TodoJsonField.codec C
  omitEmpty := TodoJsonField.omitEmpty
  mem_order := TodoJsonField.mem_all
  names_nodup := TodoJsonField.all_nodup

/-- A `TodoExport` with slices that may be nil. -/
structure DecodedTodo (C : ExportCodecs S) where
  fields : (todoAlias C).Record
  priorityKeyPresent : Bool
  archivedAtPresent : Bool

namespace DecodedTodo

variable {C : ExportCodecs S}

def archivedAt (t : DecodedTodo C) : Option ℤ := t.fields .archivedAt

def priorityKey (t : DecodedTodo C) : Option String := t.fields .priorityKey

/-- The members that are written. -/
def writtenFields (t : DecodedTodo C) : Go.Map String J :=
  let fields := mapOf ((todoAlias C).encodeMembers t.fields)
  let fields := if t.priorityKeyPresent then fields else fields.erase "priorityKey"
  if !t.archivedAtPresent && t.archivedAt.isNone then fields.erase "archivedAt" else fields

def marshalJSON (t : DecodedTodo C) : J := S.object (mapMembers t.writtenFields)

/-- The text is read into the alias and, a second time, into a map. -/
def unmarshalJSON (j : J) : Except String (DecodedTodo C) := do
  let decoded ← (todoAlias C).decode S j
  let fields ← S.decodeMap j
  return {
    fields := decoded
    priorityKeyPresent := "priorityKey" ∈ fields
    archivedAtPresent := "archivedAt" ∈ fields }

/-- A value is set only where its flag says that it is there. -/
structure Consistent (t : DecodedTodo C) : Prop where
  priorityKey : t.priorityKey.isSome = true → t.priorityKeyPresent = true
  archivedAt : t.archivedAt.isSome = true → t.archivedAtPresent = true

theorem restores_field (v : (todoAlias C).Record) (f : TodoJsonField) :
    ((todoAlias C).codec f).Restores (v f) := by
  have hint : ∀ n : Option ℤ, (C.int.pointer S).Restores n := fun n =>
    Codec.restores_pointer C.int_notNull fun m _ => C.restores_int m
  have htags : ∀ l : Option (List String), (C.slice C.text).Restores l := by
    rintro (_ | l)
    · exact C.restores_nil _
    · exact C.restores_slice _ l fun s _ => C.restores_text s
  cases f
  case localID | rank => exact C.restores_int _
  case title | body | status => exact C.restores_text _
  case sprintNumber | estimationPoints | assigneeUserId | createdByUserId | doneAt | archivedAt |
      dueAt => exact hint _
  case tags => exact htags _
  case createdAt | updatedAt => exact C.restores_time _
  case priorityKey => exact Codec.restores_pointer C.text_notNull fun s _ => C.restores_text s
  case customFields => exact C.restores_customValues _

theorem omitsZero_field (f : TodoJsonField) (h : (todoAlias C).omitEmpty f = true) :
    ((todoAlias C).codec f).OmitsZero := by
  cases f
  case sprintNumber | estimationPoints | assigneeUserId | createdByUserId | doneAt | dueAt =>
    exact Codec.omitsZero_pointer _
  case customFields => exact C.omitsZero_customValues
  all_goals exact absurd h Bool.false_ne_true

theorem unmarshalJSON_eq_ok {j : J} {t : DecodedTodo C} (h : unmarshalJSON j = .ok t) :
    ∃ ms, S.members j = some ms ∧ (todoAlias C).decodeMembers ms = .ok t.fields ∧
      t.priorityKeyPresent = decide ("priorityKey" ∈ mapOf ms) ∧
      t.archivedAtPresent = decide ("archivedAt" ∈ mapOf ms) := by
  obtain ⟨decoded, hdecoded, h⟩ := bind_eq_ok.mp h
  obtain ⟨fields, hfields, h⟩ := bind_eq_ok.mp h
  cases pure_eq_ok.mp h
  obtain ⟨ms, hms, hread, rfl⟩ := (todoAlias C).exists_members hdecoded hfields
  exact ⟨ms, hms, hread, rfl, rfl⟩

theorem holds_writtenFields (t : DecodedTodo C) :
    (todoAlias C).Holds t.fields t.writtenFields := by
  have hall := (todoAlias C).holds_encodeMembers (v := t.fields)
  unfold writtenFields
  split <;> split
  · exact hall.erase .archivedAt
  · exact hall
  · exact (hall.erase .priorityKey).erase .archivedAt
  · exact hall.erase .priorityKey

theorem covered_writtenFields {t : DecodedTodo C} (ht : t.Consistent) (f : TodoJsonField) :
    (todoAlias C).Covered t.fields t.writtenFields f := by
  have hall : (todoAlias C).Covered t.fields (mapOf ((todoAlias C).encodeMembers t.fields)) f :=
    (todoAlias C).covered_encodeMembers (omitsZero_field f)
  have hpriority : ¬ t.priorityKeyPresent = true →
      t.fields .priorityKey = ((todoAlias C).codec .priorityKey).zero := fun habsent =>
    Option.not_isSome_iff_eq_none.mp fun h => habsent (ht.priorityKey h)
  have harchived : (!t.archivedAtPresent && t.archivedAt.isNone) = true →
      t.fields .archivedAt = ((todoAlias C).codec .archivedAt).zero := fun h =>
    Option.isNone_iff_eq_none.mp (Bool.and_eq_true_iff.mp h).2
  unfold writtenFields
  split
  · split
    · exact hall.erase (i := TodoJsonField.archivedAt) (harchived ‹_›)
    · exact hall
  · have hrest := hall.erase (i := TodoJsonField.priorityKey) (hpriority ‹_›)
    split
    · exact hrest.erase (i := TodoJsonField.archivedAt) (harchived ‹_›)
    · exact hrest

theorem priorityKey_mem_writtenFields (t : DecodedTodo C) :
    "priorityKey" ∈ t.writtenFields ↔ t.priorityKeyPresent = true := by
  have hall : "priorityKey" ∈ mapOf ((todoAlias C).encodeMembers t.fields) :=
    (todoAlias C).mem_encodeMembers (i := .priorityKey) rfl
  unfold writtenFields
  split <;> split <;> simp [AList.mem_erase, *]

theorem archivedAt_mem_writtenFields {t : DecodedTodo C} (ht : t.Consistent) :
    "archivedAt" ∈ t.writtenFields ↔ t.archivedAtPresent = true := by
  have hall : "archivedAt" ∈ mapOf ((todoAlias C).encodeMembers t.fields) :=
    (todoAlias C).mem_encodeMembers (i := .archivedAt) rfl
  have hkept : "archivedAt" ∈ (if t.priorityKeyPresent = true
      then mapOf ((todoAlias C).encodeMembers t.fields)
      else (mapOf ((todoAlias C).encodeMembers t.fields)).erase "priorityKey") := by
    split
    · exact hall
    · exact AList.mem_erase.mpr ⟨by decide, hall⟩
  unfold writtenFields
  cases hpresent : t.archivedAtPresent with
  | true => simpa using hkept
  | false =>
      have hnone : t.archivedAt.isNone = true := by
        by_contra hsome
        have hset : t.archivedAt.isSome = true :=
          Option.isSome_iff_ne_none.mpr (by simpa using hsome)
        simp [ht.archivedAt hset] at hpresent
      simp [hnone]

/-- A story whose flags agree with its values is read back from its text. -/
theorem unmarshalJSON_marshalJSON {t : DecodedTodo C} (ht : t.Consistent) :
    unmarshalJSON t.marshalJSON = .ok t := by
  have hdecoded : (todoAlias C).decode S t.marshalJSON = .ok t.fields :=
    (todoAlias C).decode_object (restores_field t.fields) t.holds_writtenFields
      (covered_writtenFields ht)
  unfold unmarshalJSON
  rw [hdecoded, ok_bind, marshalJSON, decodeMap_object, ok_bind]
  simp only [mem_mapOf_mapMembers, priorityKey_mem_writtenFields, archivedAt_mem_writtenFields ht,
    Bool.decide_eq_true]
  rfl

def codec : Codec J (DecodedTodo C) where
  zero := { fields := (todoAlias C).zeroRecord, priorityKeyPresent := false, archivedAtPresent := false }
  encode := marshalJSON
  decode j _ := unmarshalJSON j
  isEmpty _ := false

end DecodedTodo

/-! ## Walls -/

inductive WallJsonField
  | notes | edges | stories | version
  deriving DecidableEq, Repr

namespace WallJsonField

def all : List WallJsonField := [notes, edges, stories, version]

def tagName : WallJsonField → String
  | notes => "notes"
  | edges => "edges"
  | stories => "stories"
  | version => "version"

def omitEmpty : WallJsonField → Bool
  | notes => false
  | edges | stories | version => true

def Value (C : ExportCodecs S) : WallJsonField → Type
  | notes => Option (List C.Note)
  | edges => List C.Edge
  | stories => Option (List C.Story)
  | version => ℤ

def codec (C : ExportCodecs S) : ∀ f : WallJsonField, Codec J (f.Value C)
  | notes => C.slice C.wallNote
  | edges => (C.slice C.wallEdge).nilOrEmpty
  | stories => C.slice C.wallStory
  | version => C.int

theorem mem_all (f : WallJsonField) : f ∈ all := by
  cases f <;> decide

theorem all_nodup : (all.map fun f => foldName f.tagName).Nodup := by
  decide +kernel

end WallJsonField

/-- `type alias WallExport`. -/
def wallAlias (C : ExportCodecs S) : Struct J WallJsonField where
  order := WallJsonField.all
  name := WallJsonField.tagName
  Value := WallJsonField.Value C
  codec := WallJsonField.codec C
  omitEmpty := WallJsonField.omitEmpty
  mem_order := WallJsonField.mem_all
  names_nodup := WallJsonField.all_nodup

/-- A `WallExport` with slices that may be nil. -/
structure DecodedWall (C : ExportCodecs S) where
  fields : (wallAlias C).Record
  storiesPresent : Bool

namespace DecodedWall

variable {C : ExportCodecs S}

def stories (w : DecodedWall C) : Option (List C.Story) := w.fields .stories

/-- The members that are written. -/
def writtenFields (w : DecodedWall C) : Go.Map String J :=
  let fields := mapOf ((wallAlias C).encodeMembers w.fields)
  let present := w.storiesPresent || w.stories.isSome
  if !present then fields.erase "stories"
  else fields.insert "stories" ((C.slice C.wallStory).encode (some (w.stories.getD [])))

def marshalJSON (w : DecodedWall C) : J := S.object (mapMembers w.writtenFields)

def unmarshalJSON (j : J) : Except String (DecodedWall C) := do
  let decoded ← (wallAlias C).decode S j
  let fields ← S.decodeMap j
  return { fields := decoded, storiesPresent := "stories" ∈ fields }

/-- The flag is set where there are stories, be it none. -/
def Consistent (w : DecodedWall C) : Prop := w.storiesPresent = w.stories.isSome

theorem restores_field (v : (wallAlias C).Record) (f : WallJsonField) :
    ((wallAlias C).codec f).Restores (v f) := by
  have hslice : ∀ {α : Type} (c : Codec J α) (l : Option (List α)), (∀ a, c.Restores a) →
      (C.slice c).Restores l := by
    rintro α c (_ | l) h
    · exact C.restores_nil _
    · exact C.restores_slice _ l fun a _ => h a
  cases f
  case notes => exact hslice _ _ C.restores_wallNote
  case edges => exact Codec.restores_nilOrEmpty (hslice _ _ C.restores_wallEdge)
  case stories => exact hslice _ _ C.restores_wallStory
  case version => exact C.restores_int _

theorem unmarshalJSON_eq_ok {j : J} {w : DecodedWall C} (h : unmarshalJSON j = .ok w) :
    ∃ ms, S.members j = some ms ∧ (wallAlias C).decodeMembers ms = .ok w.fields ∧
      w.storiesPresent = decide ("stories" ∈ mapOf ms) := by
  obtain ⟨decoded, hdecoded, h⟩ := bind_eq_ok.mp h
  obtain ⟨fields, hfields, h⟩ := bind_eq_ok.mp h
  cases pure_eq_ok.mp h
  obtain ⟨ms, hms, hread, rfl⟩ := (wallAlias C).exists_members hdecoded hfields
  exact ⟨ms, hms, hread, rfl⟩

theorem writtenFields_of_present {w : DecodedWall C} (hw : w.Consistent)
    (h : w.storiesPresent = true) :
    w.writtenFields = (mapOf ((wallAlias C).encodeMembers w.fields)).insert
      ((wallAlias C).name .stories) (((wallAlias C).codec .stories).encode (w.fields .stories)) := by
  obtain ⟨l, hl⟩ := Option.isSome_iff_exists.mp (hw.symm.trans h)
  have hfield : w.fields .stories = some l := hl
  rw [hfield]
  simp only [writtenFields, h, Bool.true_or, Bool.not_true, Bool.false_eq_true, if_false, hl,
    Option.getD_some]
  rfl

theorem writtenFields_of_absent {w : DecodedWall C} (hw : w.Consistent)
    (h : w.storiesPresent = false) :
    w.writtenFields =
      (mapOf ((wallAlias C).encodeMembers w.fields)).erase ((wallAlias C).name .stories) := by
  have hnone : w.stories.isSome = false := hw.symm.trans h
  simp only [writtenFields, h, hnone, Bool.or_self, Bool.not_false, if_true]
  rfl

theorem covered_encodeMembers (w : DecodedWall C) {f : WallJsonField} (hf : f ≠ .stories) :
    (wallAlias C).Covered w.fields (mapOf ((wallAlias C).encodeMembers w.fields)) f := by
  refine (wallAlias C).covered_encodeMembers fun homit => ?_
  cases f
  case notes => exact absurd homit Bool.false_ne_true
  case edges => exact Codec.omitsZero_nilOrEmpty _
  case stories => exact absurd rfl hf
  case version => exact C.omitsZero_int

theorem stories_eq_zero {w : DecodedWall C} (hw : w.Consistent) (h : w.storiesPresent = false) :
    w.fields .stories = ((wallAlias C).codec .stories).zero := by
  have hnone : w.fields .stories = none := Option.not_isSome_iff_eq_none.mp fun hsome =>
    Bool.false_ne_true (h.symm.trans (hw.trans hsome))
  have hzero : (C.slice C.wallStory).zero = none :=
    Option.not_isSome_iff_eq_none.mp (C.isNullable_slice C.wallStory).zero_unset
  exact hnone.trans hzero.symm

/-- A wall whose flag agrees with its stories is read back from its text. -/
theorem unmarshalJSON_marshalJSON {w : DecodedWall C} (hw : w.Consistent) :
    unmarshalJSON w.marshalJSON = .ok w := by
  have hall := (wallAlias C).holds_encodeMembers (v := w.fields)
  have hwritten : (wallAlias C).Holds w.fields w.writtenFields ∧
      (∀ f, (wallAlias C).Covered w.fields w.writtenFields f) ∧
      ("stories" ∈ w.writtenFields ↔ w.storiesPresent = true) := by
    cases h : w.storiesPresent with
    | true =>
        rw [writtenFields_of_present hw h]
        refine ⟨hall.insert .stories, fun f => Struct.Covered.insert w.covered_encodeMembers _, ?_⟩
        exact ⟨fun _ => rfl, fun _ => (AList.mem_insert _).mpr (.inl rfl)⟩
    | false =>
        rw [writtenFields_of_absent hw h]
        refine ⟨hall.erase .stories, fun f => ?_, ?_⟩
        · by_cases hf : f = .stories
          · intro _
            rw [hf, stories_eq_zero hw h]
          · exact (w.covered_encodeMembers hf).erase (stories_eq_zero hw h)
        · simp [AList.mem_erase, wallAlias, WallJsonField.tagName]
  have hdecoded : (wallAlias C).decode S w.marshalJSON = .ok w.fields :=
    (wallAlias C).decode_object (restores_field w.fields) hwritten.1 hwritten.2.1
  unfold unmarshalJSON
  rw [hdecoded, ok_bind, marshalJSON, decodeMap_object, ok_bind]
  simp only [mem_mapOf_mapMembers, hwritten.2.2, Bool.decide_eq_true]
  rfl

def codec : Codec J (DecodedWall C) where
  zero := { fields := (wallAlias C).zeroRecord, storiesPresent := false }
  encode := marshalJSON
  decode j _ := unmarshalJSON j
  isEmpty _ := false

end DecodedWall

/-! ## Projects -/

inductive ProjectJsonField
  | slug | name | estimationMode | image | dominantColor | defaultSprintWeeks | sprintsEnabled
  | agendaEnabled | agendaTimezone | agendaTitle | agendaColor | expiresAt | createdAt | updatedAt
  | workflowColumns | priorityTiers | sprints | todos | tags | links | wall | customFields | assets
  deriving DecidableEq, Repr

namespace ProjectJsonField

def all : List ProjectJsonField :=
  [slug, name, estimationMode, image, dominantColor, defaultSprintWeeks, sprintsEnabled,
    agendaEnabled, agendaTimezone, agendaTitle, agendaColor, expiresAt, createdAt, updatedAt,
    workflowColumns, priorityTiers, sprints, todos, tags, links, wall, customFields, assets]

def tagName : ProjectJsonField → String
  | slug => "slug"
  | name => "name"
  | estimationMode => "estimationMode"
  | image => "image"
  | dominantColor => "dominantColor"
  | defaultSprintWeeks => "defaultSprintWeeks"
  | sprintsEnabled => "sprintsEnabled"
  | agendaEnabled => "agendaEnabled"
  | agendaTimezone => "agendaTimezone"
  | agendaTitle => "agendaTitle"
  | agendaColor => "agendaColor"
  | expiresAt => "expiresAt"
  | createdAt => "createdAt"
  | updatedAt => "updatedAt"
  | workflowColumns => "workflowColumns"
  | priorityTiers => "priorityTiers"
  | sprints => "sprints"
  | todos => "todos"
  | tags => "tags"
  | links => "links"
  | wall => "wall"
  | customFields => "customFields"
  | assets => "assets"

def omitEmpty : ProjectJsonField → Bool
  | slug | name | expiresAt | createdAt | updatedAt | priorityTiers | todos | tags => false
  | _ => true

def Value (C : ExportCodecs S) : ProjectJsonField → Type
  | slug | name | estimationMode | dominantColor | agendaTimezone | agendaTitle | agendaColor =>
      String
  | image => Option String
  | defaultSprintWeeks => ℤ
  | sprintsEnabled | agendaEnabled => Option Bool
  | expiresAt => Option C.Time
  | createdAt | updatedAt => C.Time
  | workflowColumns => List WorkflowColumnExport
  | priorityTiers => Option (List PriorityTierExport)
  | sprints => List SprintExport
  | todos => Option (List (DecodedTodo C))
  | tags => Option (List TagExport)
  | links => List LinkExport
  | wall => Option (DecodedWall C)
  | customFields => List CustomFieldExport
  | assets => List C.Asset

def codec (C : ExportCodecs S) : ∀ f : ProjectJsonField, Codec J (f.Value C)
  | slug | name | estimationMode | dominantColor | agendaTimezone | agendaTitle | agendaColor =>
      C.text
  | image => C.text.pointer S
  | defaultSprintWeeks => C.int
  | sprintsEnabled | agendaEnabled => C.bool.pointer S
  | expiresAt => C.time.pointer S
  | createdAt | updatedAt => C.time
  | workflowColumns => (C.slice C.workflowColumn).nilOrEmpty
  | priorityTiers => C.slice C.priorityTier
  | sprints => (C.slice C.sprint).nilOrEmpty
  | todos => C.slice DecodedTodo.codec
  | tags => C.slice C.tag
  | links => (C.slice C.link).nilOrEmpty
  | wall => DecodedWall.codec.pointer S
  | customFields => (C.slice C.customField).nilOrEmpty
  | assets => (C.slice C.asset).nilOrEmpty

theorem mem_all (f : ProjectJsonField) : f ∈ all := by
  cases f <;> decide

theorem all_nodup : (all.map fun f => foldName f.tagName).Nodup := by
  decide +kernel

end ProjectJsonField

/-- `type alias ProjectExport`. -/
def projectAlias (C : ExportCodecs S) : Struct J ProjectJsonField where
  order := ProjectJsonField.all
  name := ProjectJsonField.tagName
  Value := ProjectJsonField.Value C
  codec := ProjectJsonField.codec C
  omitEmpty := ProjectJsonField.omitEmpty
  mem_order := ProjectJsonField.mem_all
  names_nodup := ProjectJsonField.all_nodup

/-- A `ProjectExport` with slices that may be nil. -/
structure DecodedProject (C : ExportCodecs S) where
  fields : (projectAlias C).Record
  priorityTiersPresent : Bool

namespace DecodedProject

variable {C : ExportCodecs S}

def priorityTiers (p : DecodedProject C) : Option (List PriorityTierExport) :=
  p.fields .priorityTiers

def todos (p : DecodedProject C) : Option (List (DecodedTodo C)) := p.fields .todos

def wall (p : DecodedProject C) : Option (DecodedWall C) := p.fields .wall

/-- The members that are written. -/
def writtenFields (p : DecodedProject C) : Go.Map String J :=
  let fields := mapOf ((projectAlias C).encodeMembers p.fields)
  if !p.priorityTiersPresent then fields.erase "priorityTiers"
  else if p.priorityTiers.isNone then fields.insert "priorityTiers" S.emptyArray
  else fields

def marshalJSON (p : DecodedProject C) : J := S.object (mapMembers p.writtenFields)

def unmarshalJSON (j : J) : Except String (DecodedProject C) := do
  let decoded ← (projectAlias C).decode S j
  let fields ← S.decodeMap j
  let raw := fields.lookup "priorityTiers"
  reject (raw.any S.isNull) "priorityTiers must be an array"
  return { fields := decoded, priorityTiersPresent := raw.isSome }

/-- The flags of the project, its stories and its wall agree with their values. -/
structure Consistent (p : DecodedProject C) : Prop where
  priorityTiers : p.priorityTiersPresent = p.priorityTiers.isSome
  todos : ∀ t ∈ p.todos.getD [], t.Consistent
  wall : ∀ w ∈ p.wall, w.Consistent

theorem restores_field {p : DecodedProject C} (hp : p.Consistent) (f : ProjectJsonField) :
    ((projectAlias C).codec f).Restores (p.fields f) := by
  have hslice : ∀ {α : Type} (c : Codec J α) (l : Option (List α)), (∀ a ∈ l.getD [], c.Restores a) →
      (C.slice c).Restores l := by
    rintro α c (_ | l) h
    · exact C.restores_nil _
    · exact C.restores_slice _ l h
  have hlist : ∀ {α : Type} (c : Codec J α) (l : List α), (∀ a, c.Restores a) →
      (C.slice c).nilOrEmpty.Restores l := fun c l h =>
    Codec.restores_nilOrEmpty (hslice c _ fun a _ => h a)
  cases f
  case slug | name | estimationMode | dominantColor | agendaTimezone | agendaTitle | agendaColor =>
    exact C.restores_text _
  case image => exact Codec.restores_pointer C.text_notNull fun s _ => C.restores_text s
  case defaultSprintWeeks => exact C.restores_int _
  case sprintsEnabled | agendaEnabled =>
    exact Codec.restores_pointer C.bool_notNull fun b _ => C.restores_bool b
  case expiresAt => exact Codec.restores_pointer C.time_notNull fun t _ => C.restores_time t
  case createdAt | updatedAt => exact C.restores_time _
  case workflowColumns => exact hlist _ _ C.restores_workflowColumn
  case priorityTiers => exact hslice _ _ fun t _ => C.restores_priorityTier t
  case sprints => exact hlist _ _ C.restores_sprint
  case todos => exact hslice _ _ fun t ht => DecodedTodo.unmarshalJSON_marshalJSON (hp.todos t ht)
  case tags => exact hslice _ _ fun t _ => C.restores_tag t
  case links => exact hlist _ _ C.restores_link
  case wall =>
    exact Codec.restores_pointer (fun w => S.isNull_object _) fun w hw =>
      DecodedWall.unmarshalJSON_marshalJSON (hp.wall w hw)
  case customFields => exact hlist _ _ C.restores_customField
  case assets => exact hlist _ _ C.restores_asset

theorem omitsZero_field (f : ProjectJsonField) (h : (projectAlias C).omitEmpty f = true) :
    ((projectAlias C).codec f).OmitsZero := by
  cases f
  case estimationMode | dominantColor | agendaTimezone | agendaTitle | agendaColor =>
    exact C.omitsZero_text
  case defaultSprintWeeks => exact C.omitsZero_int
  case image | sprintsEnabled | agendaEnabled | wall => exact Codec.omitsZero_pointer _
  case workflowColumns | sprints | links | customFields | assets =>
    exact Codec.omitsZero_nilOrEmpty _
  all_goals exact absurd h Bool.false_ne_true

theorem unmarshalJSON_eq_ok {j : J} {p : DecodedProject C} (h : unmarshalJSON j = .ok p) :
    ∃ ms, S.members j = some ms ∧ (projectAlias C).decodeMembers ms = .ok p.fields ∧
      p.priorityTiersPresent = decide ("priorityTiers" ∈ mapOf ms) := by
  obtain ⟨decoded, hdecoded, h⟩ := bind_eq_ok.mp h
  obtain ⟨fields, hfields, h⟩ := bind_eq_ok.mp h
  obtain ⟨-, -, h⟩ := bind_eq_ok.mp h
  cases pure_eq_ok.mp h
  obtain ⟨ms, hms, hread, rfl⟩ := (projectAlias C).exists_members hdecoded hfields
  refine ⟨ms, hms, hread, ?_⟩
  rw [Bool.eq_iff_iff, decide_eq_true_iff]
  exact AList.lookup_isSome (s := mapOf ms)

theorem writtenFields_of_present {p : DecodedProject C} (hp : p.Consistent)
    (h : p.priorityTiersPresent = true) :
    p.writtenFields = mapOf ((projectAlias C).encodeMembers p.fields) := by
  have hsome : p.priorityTiers.isNone = false := by
    rw [← Option.not_isSome, ← hp.priorityTiers, h, Bool.not_true]
  simp [writtenFields, h, hsome]

theorem writtenFields_of_absent {p : DecodedProject C} (h : p.priorityTiersPresent = false) :
    p.writtenFields = (mapOf ((projectAlias C).encodeMembers p.fields)).erase
      ((projectAlias C).name .priorityTiers) := by
  simp only [writtenFields, h, Bool.not_false, if_true]
  rfl

theorem priorityTiers_eq_zero {p : DecodedProject C} (hp : p.Consistent)
    (h : p.priorityTiersPresent = false) :
    p.fields .priorityTiers = ((projectAlias C).codec .priorityTiers).zero := by
  have hnone : p.fields .priorityTiers = none := Option.not_isSome_iff_eq_none.mp fun hsome =>
    Bool.false_ne_true (h.symm.trans (hp.priorityTiers.trans hsome))
  have hzero : (C.slice C.priorityTier).zero = none :=
    Option.not_isSome_iff_eq_none.mp (C.isNullable_slice C.priorityTier).zero_unset
  exact hnone.trans hzero.symm

theorem slice_notNull {α : Type} {c : Codec J α} {l : List α} (h : (C.slice c).Restores (some l)) :
    S.isNull ((C.slice c).encode (some l)) = false := by
  cases hnull : S.isNull ((C.slice c).encode (some l)) with
  | true => exact absurd rfl ((C.isNullable_slice c).decode_null _ _ _ hnull h)
  | false => rfl

/-- The member for the tiers is written with the flag only, and is not null then. -/
theorem lookup_priorityTiers {p : DecodedProject C} (hp : p.Consistent) :
    (p.writtenFields.lookup "priorityTiers").any S.isNull = false ∧
      (p.writtenFields.lookup "priorityTiers").isSome = p.priorityTiersPresent := by
  cases h : p.priorityTiersPresent with
  | true =>
      rw [writtenFields_of_present hp h]
      obtain ⟨l, hl⟩ := Option.isSome_iff_exists.mp (hp.priorityTiers.symm.trans h)
      have hfield : p.fields .priorityTiers = some l := hl
      have hmem : "priorityTiers" ∈ mapOf ((projectAlias C).encodeMembers p.fields) :=
        (projectAlias C).mem_encodeMembers (i := .priorityTiers) rfl
      obtain ⟨j, hj⟩ := Option.isSome_iff_exists.mp (AList.lookup_isSome.mpr hmem)
      obtain ⟨f, hf⟩ := (projectAlias C).holds_encodeMembers _ _ hj
      have hname : (projectAlias C).name .priorityTiers = (projectAlias C).name f :=
        congrArg Prod.fst hf
      cases (projectAlias C).name_injective hname
      have hencoded : j = (C.slice C.priorityTier).encode (some l) := by
        rw [← hfield]
        exact congrArg Prod.snd hf
      have hnotNull := slice_notNull (C.restores_slice C.priorityTier l fun t _ =>
        C.restores_priorityTier t)
      rw [hj, hencoded]
      simp [hnotNull]
  | false =>
      rw [writtenFields_of_absent h]
      have hnone : ((mapOf ((projectAlias C).encodeMembers p.fields)).erase
          ((projectAlias C).name .priorityTiers)).lookup "priorityTiers" = none :=
        AList.lookup_erase ..
      rw [hnone]
      exact ⟨rfl, rfl⟩

/-- A project whose flags agree with its values is read back from its text. -/
theorem unmarshalJSON_marshalJSON {p : DecodedProject C} (hp : p.Consistent) :
    unmarshalJSON p.marshalJSON = .ok p := by
  have hall := (projectAlias C).holds_encodeMembers (v := p.fields)
  have hcovered : ∀ f,
      (projectAlias C).Covered p.fields (mapOf ((projectAlias C).encodeMembers p.fields)) f :=
    fun f => (projectAlias C).covered_encodeMembers (omitsZero_field f)
  have hwritten : (projectAlias C).Holds p.fields p.writtenFields ∧
      ∀ f, (projectAlias C).Covered p.fields p.writtenFields f := by
    cases h : p.priorityTiersPresent with
    | true =>
        rw [writtenFields_of_present hp h]
        exact ⟨hall, hcovered⟩
    | false =>
        rw [writtenFields_of_absent h]
        exact ⟨hall.erase .priorityTiers, fun f => (hcovered f).erase (priorityTiers_eq_zero hp h)⟩
  have hdecoded : (projectAlias C).decode S p.marshalJSON = .ok p.fields :=
    (projectAlias C).decode_object (restores_field hp) hwritten.1 hwritten.2
  have hraw := lookup_priorityTiers hp
  unfold unmarshalJSON
  rw [hdecoded, ok_bind, marshalJSON, decodeMap_object, ok_bind]
  simp only [lookup_mapOf_mapMembers, hraw, reject, Bool.false_eq_true, if_false]
  rfl

end DecodedProject

end Scrumboy
