import Scrumboy.Backup.Presence

/-!
# Presence flags and decoded values

The alias of a type is read with its names in any letters, but the map that the presence flags are
taken from has the names as they are written. A text whose only tiers are named `PriorityTiers` thus
has tiers that are not present, and an import leaves them out.
-/

namespace Scrumboy

open Go Go.Json

variable {J : Type} {S : Syntax J}

section

variable (C : ExportCodecs S) {j : J}

theorem priorityTiers_flag_iff {p : DecodedProject C} (h : DecodedProject.unmarshalJSON j = .ok p) :
    (p.priorityTiers.isSome = true → p.priorityTiersPresent = true) ↔
      (projectAlias C).NamesAsWritten S .priorityTiers j := by
  obtain ⟨ms, hms, hread, hflag⟩ := DecodedProject.unmarshalJSON_eq_ok h
  have hiff := (projectAlias C).isSet_imp_mem_iff (i := .priorityTiers)
    (C.isNullable_slice C.priorityTier) hread
  rw [hflag, decide_eq_true_iff, Struct.namesAsWritten_iff _ hms]
  exact hiff

theorem priorityKey_flag_iff {t : DecodedTodo C} (h : DecodedTodo.unmarshalJSON j = .ok t) :
    (t.priorityKey.isSome = true → t.priorityKeyPresent = true) ↔
      (todoAlias C).NamesAsWritten S .priorityKey j := by
  obtain ⟨ms, hms, hread, hflag, -⟩ := DecodedTodo.unmarshalJSON_eq_ok h
  have hiff := (todoAlias C).isSet_imp_mem_iff (i := .priorityKey)
    (Codec.isNullable_pointer C.text) hread
  rw [hflag, decide_eq_true_iff, Struct.namesAsWritten_iff _ hms]
  exact hiff

theorem archivedAt_flag_iff {t : DecodedTodo C} (h : DecodedTodo.unmarshalJSON j = .ok t) :
    (t.archivedAt.isSome = true → t.archivedAtPresent = true) ↔
      (todoAlias C).NamesAsWritten S .archivedAt j := by
  obtain ⟨ms, hms, hread, -, hflag⟩ := DecodedTodo.unmarshalJSON_eq_ok h
  have hiff := (todoAlias C).isSet_imp_mem_iff (i := .archivedAt)
    (Codec.isNullable_pointer C.int) hread
  rw [hflag, decide_eq_true_iff, Struct.namesAsWritten_iff _ hms]
  exact hiff

theorem stories_flag_iff {w : DecodedWall C} (h : DecodedWall.unmarshalJSON j = .ok w) :
    (w.stories.isSome = true → w.storiesPresent = true) ↔
      (wallAlias C).NamesAsWritten S .stories j := by
  obtain ⟨ms, hms, hread, hflag⟩ := DecodedWall.unmarshalJSON_eq_ok h
  have hiff := (wallAlias C).isSet_imp_mem_iff (i := .stories)
    (C.isNullable_slice C.wallStory) hread
  rw [hflag, decide_eq_true_iff, Struct.namesAsWritten_iff _ hms]
  exact hiff

/-- A flag agrees with the decoded value just when the text names the field as it is written, and a
value whose flags agree is read back from its text. -/
theorem presence_flags_agree_iff :
    (∀ j (p : DecodedProject C), DecodedProject.unmarshalJSON j = .ok p →
      ((p.priorityTiers.isSome = true → p.priorityTiersPresent = true) ↔
        (projectAlias C).NamesAsWritten S .priorityTiers j)) ∧
    (∀ j (t : DecodedTodo C), DecodedTodo.unmarshalJSON j = .ok t →
      ((t.priorityKey.isSome = true → t.priorityKeyPresent = true) ↔
        (todoAlias C).NamesAsWritten S .priorityKey j) ∧
      ((t.archivedAt.isSome = true → t.archivedAtPresent = true) ↔
        (todoAlias C).NamesAsWritten S .archivedAt j)) ∧
    (∀ j (w : DecodedWall C), DecodedWall.unmarshalJSON j = .ok w →
      ((w.stories.isSome = true → w.storiesPresent = true) ↔
        (wallAlias C).NamesAsWritten S .stories j)) ∧
    (∀ p : DecodedProject C, p.Consistent → DecodedProject.unmarshalJSON p.marshalJSON = .ok p) ∧
    (∀ t : DecodedTodo C, t.Consistent → DecodedTodo.unmarshalJSON t.marshalJSON = .ok t) ∧
    ∀ w : DecodedWall C, w.Consistent → DecodedWall.unmarshalJSON w.marshalJSON = .ok w :=
  ⟨fun _ _ => priorityTiers_flag_iff C,
    fun _ _ h => ⟨priorityKey_flag_iff C h, archivedAt_flag_iff C h⟩,
    fun _ _ => stories_flag_iff C,
    fun _ => DecodedProject.unmarshalJSON_marshalJSON,
    fun _ => DecodedTodo.unmarshalJSON_marshalJSON,
    fun _ => DecodedWall.unmarshalJSON_marshalJSON⟩

end

/-! ## A text with capital letters -/

/-- JSON values, with the objects of the plain types as their values. -/
inductive PlainJson
  | null
  | bool (b : Bool)
  | number (n : ℤ)
  | text (s : String)
  | array (l : List PlainJson)
  | object (ms : List (String × PlainJson))
  | column (c : WorkflowColumnExport)
  | tier (t : PriorityTierExport)
  | sprint (s : SprintExport)
  | tag (t : TagExport)
  | link (l : LinkExport)
  | field (f : CustomFieldExport)

namespace PlainJson

def isNull : PlainJson → Bool
  | null => true
  | _ => false

def members : PlainJson → Option (List (String × PlainJson))
  | null => some []
  | object ms => some ms
  | _ => none

def plainSyntax : Syntax PlainJson where
  null := null
  isNull := isNull
  members := members
  object := object
  emptyArray := array []
  isNull_null := rfl
  isNull_object _ := rfl
  members_null := rfl
  members_object _ := rfl

/-- `null` leaves a value as it is. -/
def plain {α : Type} (zero : α) (wrap : α → PlainJson) (unwrap : PlainJson → Option α)
    (isEmpty : α → Bool) : Codec PlainJson α where
  zero := zero
  encode := wrap
  decode j old :=
    if j.isNull then .ok old
    else match unwrap j with
      | some a => .ok a
      | none => .error "json: cannot unmarshal"
  isEmpty := isEmpty

theorem restores_plain {α : Type} {zero : α} {wrap : α → PlainJson}
    {unwrap : PlainJson → Option α} {isEmpty : α → Bool} {a : α}
    (hnull : (wrap a).isNull = false) (h : unwrap (wrap a) = some a) :
    (plain zero wrap unwrap isEmpty).Restores a := by
  simp [Codec.Restores, plain, hnull, h]

def asText : PlainJson → Option String
  | text s => some s
  | _ => none

def asNumber : PlainJson → Option ℤ
  | number n => some n
  | _ => none

def asBool : PlainJson → Option Bool
  | bool b => some b
  | _ => none

def asColumn : PlainJson → Option WorkflowColumnExport
  | column c => some c
  | _ => none

def asTier : PlainJson → Option PriorityTierExport
  | tier t => some t
  | _ => none

def asSprint : PlainJson → Option SprintExport
  | sprint s => some s
  | _ => none

def asTag : PlainJson → Option TagExport
  | tag t => some t
  | _ => none

def asLink : PlainJson → Option LinkExport
  | link l => some l
  | _ => none

def asField : PlainJson → Option CustomFieldExport
  | field f => some f
  | _ => none

def textCodec : Codec PlainJson String := plain "" text asText fun s => s == ""

def intCodec : Codec PlainJson ℤ := plain 0 number asNumber fun n => n == 0

def never {α : Type} (_ : α) : Bool := false

theorem restores_text (s : String) : textCodec.Restores s := restores_plain rfl rfl

theorem omitsZero_text : textCodec.OmitsZero := fun _ h => eq_of_beq h

def sliceCodec {α : Type} (c : Codec PlainJson α) : Codec PlainJson (Option (List α)) where
  zero := none
  encode l := l.elim null fun l => array (l.map c.encode)
  decode j _ :=
    match j with
    | null => .ok none
    | array l => some <$> l.mapM fun j => c.decode j c.zero
    | _ => .error "json: cannot unmarshal"
  isEmpty l := (l.getD []).isEmpty

theorem restores_sliceCodec {α : Type} (c : Codec PlainJson α) (l : List α)
    (h : ∀ a ∈ l, c.Restores a) : (sliceCodec c).Restores (some l) := by
  have hread : (l.map c.encode).mapM (fun j => c.decode j c.zero) = .ok l := by
    induction l with
    | nil => rfl
    | cons a l ih =>
        have ha := h a (List.mem_cons_self ..)
        unfold Codec.Restores at ha
        rw [List.map_cons, List.mapM_cons, ha, ok_bind,
          ih fun b hb => h b (List.mem_cons_of_mem _ hb)]
        rfl
  simp [Codec.Restores, sliceCodec, hread]

theorem isNullable_sliceCodec {α : Type} (c : Codec PlainJson α) :
    (sliceCodec c).IsNullable plainSyntax fun l => l.isSome = true where
  zero_unset := Bool.false_ne_true
  decode_null j a b hnull h := by
    cases j
    case null => simp [← Except.ok.inj h]
    all_goals cases hnull
  decode_value j a b hnull h := by
    cases j
    case null => cases hnull
    case array l =>
      obtain ⟨v, -, rfl⟩ := map_eq_ok.mp h
      rfl
    all_goals cases h

/-- Codecs of the values, with texts for the types of which nothing is known. -/
def plainCodecs : ExportCodecs plainSyntax where
  Time := String
  CustomValues := String
  Asset := String
  Note := String
  Edge := String
  Story := String
  text := textCodec
  int := intCodec
  bool := plain false bool asBool never
  time := textCodec
  workflowColumn := plain ⟨"", "", "", 0, false⟩ column asColumn never
  priorityTier := plain ⟨"", "", "", 0⟩ tier asTier never
  sprint := plain ⟨0, "", 0, 0, "", none, none⟩ sprint asSprint never
  tag := plain ⟨"", none⟩ tag asTag never
  link := plain ⟨0, 0, ""⟩ link asLink never
  customField := plain ⟨"", "", "", 0⟩ field asField never
  customValues := textCodec
  asset := textCodec
  wallNote := textCodec
  wallEdge := textCodec
  wallStory := textCodec
  slice := sliceCodec
  restores_text := restores_text
  restores_int _ := restores_plain rfl rfl
  restores_bool _ := restores_plain rfl rfl
  restores_time := restores_text
  restores_workflowColumn _ := restores_plain rfl rfl
  restores_priorityTier _ := restores_plain rfl rfl
  restores_sprint _ := restores_plain rfl rfl
  restores_tag _ := restores_plain rfl rfl
  restores_link _ := restores_plain rfl rfl
  restores_customField _ := restores_plain rfl rfl
  restores_customValues := restores_text
  restores_asset := restores_text
  restores_wallNote := restores_text
  restores_wallEdge := restores_text
  restores_wallStory := restores_text
  restores_slice := restores_sliceCodec
  restores_nil _ := rfl
  isNullable_slice := isNullable_sliceCodec
  omitsZero_text := omitsZero_text
  omitsZero_int _ h := eq_of_beq h
  omitsZero_customValues := omitsZero_text
  text_notNull _ := rfl
  int_notNull _ := rfl
  bool_notNull _ := rfl
  time_notNull _ := rfl

end PlainJson

/-- A story with its archive time under another spelling of the name. -/
def capitalArchivedAt : PlainJson :=
  .object [("localId", .number 1), ("title", .text "Ship"), ("ArchivedAt", .number 1700000000000)]

theorem exists_unmarshalJSON_capitalArchivedAt :
    ∃ t : DecodedTodo PlainJson.plainCodecs, DecodedTodo.unmarshalJSON capitalArchivedAt = .ok t ∧
      t.archivedAt = some 1700000000000 ∧ t.archivedAtPresent = false := by
  have hread : (fun t : DecodedTodo PlainJson.plainCodecs => (t.archivedAt, t.archivedAtPresent)) <$>
      DecodedTodo.unmarshalJSON capitalArchivedAt = .ok (some 1700000000000, false) := rfl
  obtain ⟨t, ht, heq⟩ := map_eq_ok.mp hread
  exact ⟨t, ht, congrArg Prod.fst heq, congrArg Prod.snd heq⟩

/-- The archive time of the story is read, but it is not present. -/
theorem capitalArchivedAt_not_present :
    ¬ ∀ t : DecodedTodo PlainJson.plainCodecs, DecodedTodo.unmarshalJSON capitalArchivedAt = .ok t →
      t.archivedAt.isSome = true → t.archivedAtPresent = true := by
  intro h
  obtain ⟨t, ht, harchived, hflag⟩ := exists_unmarshalJSON_capitalArchivedAt
  have hpresent := h t ht (by rw [harchived]; rfl)
  exact Bool.false_ne_true (hflag.symm.trans hpresent)

theorem capitalArchivedAt_not_named :
    ¬ (todoAlias PlainJson.plainCodecs).NamesAsWritten PlainJson.plainSyntax .archivedAt
      capitalArchivedAt := by
  intro h
  obtain ⟨t, ht, harchived, hflag⟩ := exists_unmarshalJSON_capitalArchivedAt
  have hiff := ((presence_flags_agree_iff PlainJson.plainCodecs).2.1 _ t ht).2
  have hpresent := hiff.mpr h (by rw [harchived]; rfl)
  exact Bool.false_ne_true (hflag.symm.trans hpresent)

end Scrumboy
