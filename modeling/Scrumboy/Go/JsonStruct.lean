import Scrumboy.Sql.Order
import Scrumboy.Go.Errors
import Scrumboy.Go.Map
import Mathlib.Data.List.Induction
import Mathlib.Data.String.Basic

/-!
# Structs in JSON

How `encoding/json` writes a struct as an object and reads one into a struct. The reader takes a
member for the field with its name, or else for the one with its name in other letters; a member
that names no field is skipped, and of several members for one field the last one stays. Reading
into a map keeps the names as they are written. JSON values are a type of their own, of which only
objects and `null` are known.
-/

set_option linter.dupNamespace false

namespace Go.Json

/-- The values of JSON. The members of an object are those of the text, in its order. -/
structure Syntax (J : Type) where
  null : J
  isNull : J → Bool
  members : J → Option (List (String × J))
  object : List (String × J) → J
  emptyArray : J
  isNull_null : isNull null = true
  isNull_object : ∀ ms, isNull (object ms) = false
  members_null : members null = some []
  members_object : ∀ ms, members (object ms) = some ms

variable {J : Type}

/-- How the values of a type are written, and read into a value that is there already. -/
structure Codec (J α : Type) where
  zero : α
  encode : α → J
  decode : J → α → Except String α
  isEmpty : α → Bool

/-- The value is read back from what is written for it. -/
def Codec.Restores {α : Type} (c : Codec J α) (a : α) : Prop :=
  c.decode (c.encode a) c.zero = .ok a

/-- `null` is read as a value that is not set, and everything else as one that is. -/
structure Codec.IsNullable {α : Type} (S : Syntax J) (IsSet : α → Prop) (c : Codec J α) : Prop where
  zero_unset : ¬ IsSet c.zero
  decode_null : ∀ j a b, S.isNull j = true → c.decode j a = .ok b → ¬ IsSet b
  decode_value : ∀ j a b, S.isNull j = false → c.decode j a = .ok b → IsSet b

/-- The values that are left out are the zero value. -/
def Codec.OmitsZero {α : Type} (c : Codec J α) : Prop := ∀ a, c.isEmpty a = true → a = c.zero

/-- A pointer, which is nil for `null`. -/
def Codec.pointer {α : Type} (S : Syntax J) (c : Codec J α) : Codec J (Option α) where
  zero := none
  encode a := a.elim S.null c.encode
  decode j old :=
    if S.isNull j then .ok none
    else some <$> c.decode j (old.getD c.zero)
  isEmpty a := a.isNone

/-- A slice of which nil and the empty one are written alike. -/
def Codec.nilOrEmpty {α : Type} (c : Codec J (Option (List α))) : Codec J (List α) where
  zero := []
  encode l := c.encode (some l)
  decode j old := (·.getD []) <$> c.decode j (if old.isEmpty then c.zero else some old)
  isEmpty l := l.isEmpty

section

variable {α : Type} {S : Syntax J}

theorem Codec.isNullable_pointer (c : Codec J α) :
    (c.pointer S).IsNullable S fun a => a.isSome = true where
  zero_unset := by simp [Codec.pointer]
  decode_null j a b hnull h := by
    simp only [Codec.pointer, hnull, if_true] at h
    simp [← Except.ok.inj h]
  decode_value j a b hnull h := by
    simp only [Codec.pointer, hnull, Bool.false_eq_true, if_false] at h
    obtain ⟨v, -, rfl⟩ := map_eq_ok.mp h
    rfl

theorem Codec.restores_pointer {c : Codec J α} (hnull : ∀ a, S.isNull (c.encode a) = false)
    {a : Option α} (h : ∀ b, a = some b → c.Restores b) : (c.pointer S).Restores a := by
  cases a with
  | none => simp [Codec.Restores, Codec.pointer, S.isNull_null]
  | some b =>
      have hb := h b rfl
      unfold Codec.Restores at hb
      simp [Codec.Restores, Codec.pointer, hnull, hb]

theorem Codec.omitsZero_pointer (c : Codec J α) : (c.pointer S).OmitsZero := by
  intro a h
  simpa [Codec.pointer] using h

theorem Codec.restores_nilOrEmpty {c : Codec J (Option (List α))} {l : List α}
    (h : c.Restores (some l)) : c.nilOrEmpty.Restores l := by
  unfold Codec.Restores at h
  simp [Codec.Restores, Codec.nilOrEmpty, h]

theorem Codec.omitsZero_nilOrEmpty (c : Codec J (Option (List α))) : c.nilOrEmpty.OmitsZero := by
  intro l h
  simpa [Codec.nilOrEmpty] using h

end

/-! ## Names -/

/-- `foldRune` for the comparison with ASCII letters. -/
def foldRune (c : Char) : Char :=
  if 'a' ≤ c ∧ c ≤ 'z' then Char.ofNat (c.toNat - 32)
  else if c.toNat = 0x17F then 'S'
  else if c.toNat = 0x212A then 'K'
  else c

def foldName (name : String) : List Char := name.toList.map foldRune

/-- A struct with its fields in their order, told apart by their names in any letters. -/
structure Struct (J ι : Type) where
  order : List ι
  name : ι → String
  Value : ι → Type
  codec : ∀ i, Codec J (Value i)
  omitEmpty : ι → Bool
  mem_order : ∀ i, i ∈ order
  names_nodup : (order.map fun i => foldName (name i)).Nodup

namespace Struct

variable {ι : Type} (T : Struct J ι)

/-- The values of the fields. -/
abbrev Record := ∀ i, T.Value i

theorem foldName_inj {i j : ι} (h : foldName (T.name i) = foldName (T.name j)) : i = j :=
  List.inj_on_of_nodup_map T.names_nodup (T.mem_order i) (T.mem_order j) h

theorem name_injective : Function.Injective T.name := fun _ _ h => T.foldName_inj (congrArg _ h)

/-- The field that a member is for: the one with its name, or else with its folded name. -/
def findField (key : String) : Option ι :=
  (T.order.find? fun i => T.name i == key).or
    (T.order.find? fun i => foldName (T.name i) == foldName key)

theorem findField_eq_some_iff {key : String} {i : ι} :
    T.findField key = some i ↔ foldName (T.name i) = foldName key := by
  constructor
  · intro h
    rcases Option.or_eq_some_iff.mp h with h | ⟨-, h⟩
    · have heq : T.name i = key := by simpa using List.find?_some h
      rw [heq]
    · simpa using List.find?_some h
  · intro h
    cases hexact : T.order.find? fun i => T.name i == key with
    | some j =>
        have heq : T.name j = key := by simpa using List.find?_some hexact
        have hij : j = i := T.foldName_inj (by rw [heq, h])
        simp [findField, hexact, hij]
    | none =>
        cases hfold : T.order.find? fun i => foldName (T.name i) == foldName key with
        | some j =>
            have heq : foldName (T.name j) = foldName key := by simpa using List.find?_some hfold
            have hij : j = i := T.foldName_inj (by rw [heq, h])
            simp [findField, hexact, hfold, hij]
        | none =>
            have hnone := List.find?_eq_none.mp hfold i (T.mem_order i)
            simp [h] at hnone

@[simp] theorem findField_name (i : ι) : T.findField (T.name i) = some i :=
  T.findField_eq_some_iff.mpr rfl

/-! ## Reading -/

variable [DecidableEq ι]

def zeroRecord : T.Record := fun i => (T.codec i).zero

/-- A member is read into its field. -/
def decodeMember (v : T.Record) (member : String × J) : Except String T.Record :=
  match T.findField member.1 with
  | none => .ok v
  | some i => ((T.codec i).decode member.2 (v i)).map (Function.update v i)

def decodeMembers (ms : List (String × J)) : Except String T.Record :=
  ms.foldlM T.decodeMember T.zeroRecord

def decode (S : Syntax J) (j : J) : Except String T.Record :=
  match S.members j with
  | none => .error "json: cannot unmarshal into Go value"
  | some ms => T.decodeMembers ms

/-- The value that is read last for a field. -/
def lastFor (i : ι) (ms : List (String × J)) : Option J :=
  ((ms.filter fun m => T.findField m.1 == some i).map (·.2)).getLast?

theorem decodeMember_eq_ok {v w : T.Record} {m : String × J} (h : T.decodeMember v m = .ok w) :
    (T.findField m.1 = none ∧ w = v) ∨
      ∃ i b, T.findField m.1 = some i ∧ (T.codec i).decode m.2 (v i) = .ok b ∧
        w = Function.update v i b := by
  unfold decodeMember at h
  cases hfind : T.findField m.1 with
  | none =>
      rw [hfind] at h
      exact .inl ⟨rfl, (Except.ok.inj h).symm⟩
  | some i =>
      rw [hfind] at h
      obtain ⟨b, hb, hw⟩ := map_eq_ok.mp h
      exact .inr ⟨i, b, rfl, hb, hw.symm⟩

theorem lastFor_concat (i : ι) (ms : List (String × J)) (m : String × J) :
    T.lastFor i (ms ++ [m]) =
      if T.findField m.1 = some i then some m.2 else T.lastFor i ms := by
  unfold lastFor
  by_cases hfind : T.findField m.1 = some i
  · simp [hfind]
  · simp [hfind]

/-- A field that may be null is set when the last value that is read for it is not null. -/
theorem isSet_iff {S : Syntax J} {i : ι} {IsSet : T.Value i → Prop}
    (hc : (T.codec i).IsNullable S IsSet) {ms : List (String × J)} {v : T.Record}
    (h : T.decodeMembers ms = .ok v) :
    IsSet (v i) ↔ ∃ j, T.lastFor i ms = some j ∧ S.isNull j = false := by
  induction ms using List.reverseRecOn generalizing v with
  | nil =>
      cases Except.ok.inj h
      simp [lastFor, hc.zero_unset, zeroRecord]
  | append_singleton ms m ih =>
      rw [decodeMembers, List.foldlM_append] at h
      obtain ⟨w, hw, hm⟩ := bind_eq_ok.mp h
      rw [List.foldlM_cons] at hm
      obtain ⟨v', hv', hv⟩ := bind_eq_ok.mp hm
      cases Except.ok.inj hv
      rw [lastFor_concat]
      rcases T.decodeMember_eq_ok hv' with ⟨hnone, rfl⟩ | ⟨k, b, hk, hb, rfl⟩
      · rw [if_neg (by simp [hnone])]
        exact ih hw
      · by_cases hki : k = i
        · subst hki
          rw [if_pos hk, Function.update_self]
          cases hnull : S.isNull m.2 with
          | true => simp [hnull, hc.decode_null _ _ _ hnull hb]
          | false => simp [hnull, hc.decode_value _ _ _ hnull hb]
        · rw [if_neg (by simp [hk, hki]), Function.update_of_ne (Ne.symm hki)]
          exact ih hw

/-! ## Writing -/

/-- The member that a field is written as. -/
def memberOf (v : T.Record) (i : ι) : String × J := (T.name i, (T.codec i).encode (v i))

def encodeMembers (v : T.Record) : List (String × J) :=
  (T.order.filter fun i => !(T.omitEmpty i && (T.codec i).isEmpty (v i))).map (T.memberOf v)

/-- Members of their fields are read back, with the zero value for the other fields. -/
theorem foldlM_decodeMember {v : T.Record} (hv : ∀ i, (T.codec i).Restores (v i))
    {ms : List (String × J)} (hof : ∀ m ∈ ms, ∃ i, m = T.memberOf v i)
    (hkeys : (ms.map (·.1)).Nodup) {w : T.Record}
    (hw : ∀ i, T.name i ∈ ms.map (·.1) → w i = (T.codec i).zero) :
    ms.foldlM T.decodeMember w =
      .ok fun i => if T.name i ∈ ms.map (·.1) then v i else w i := by
  induction ms generalizing w with
  | nil => simp [pure_eq_ok]
  | cons m ms ih =>
      obtain ⟨i, rfl⟩ := hof m (List.mem_cons_self ..)
      have hnotMem : T.name i ∉ ms.map (·.1) := (List.nodup_cons.mp hkeys).1
      have hzero : w i = (T.codec i).zero := hw i (by simp [memberOf])
      have hread : T.decodeMember w (T.memberOf v i) = .ok (Function.update w i (v i)) := by
        have hrestores := hv i
        unfold Codec.Restores at hrestores
        simp only [decodeMember, memberOf, findField_name, hzero, hrestores]
        rfl
      rw [List.foldlM_cons, hread, ok_bind]
      have hrest := ih (fun m hm => hof m (List.mem_cons_of_mem _ hm)) (List.nodup_cons.mp hkeys).2
        (w := Function.update w i (v i)) fun k hk => by
          have hne : k ≠ i := by
            rintro rfl
            exact hnotMem hk
          rw [Function.update_of_ne hne]
          exact hw k (List.mem_cons_of_mem _ hk)
      rw [hrest]
      congr 1
      funext k
      by_cases hki : k = i
      · subst hki
        simp [memberOf, hnotMem]
      · have hname : T.name k ≠ T.name i := fun heq => hki (T.name_injective heq)
        simp only [memberOf, List.map_cons, List.mem_cons, hname, false_or,
          Function.update_of_ne hki]

end Struct

/-! ## Maps -/

/-- The members by their names as they are written. -/
def mapOf (ms : List (String × J)) : Go.Map String J :=
  ms.foldl (fun m e => m.insert e.1 e.2) ∅

/-- Reading into a `map[string]json.RawMessage`. -/
def Syntax.decodeMap (S : Syntax J) (j : J) : Except String (Go.Map String J) :=
  match S.members j with
  | none => .error "json: cannot unmarshal into Go value of type map[string]json.RawMessage"
  | some ms => .ok (mapOf ms)

/-- The members that a map is written as. -/
def mapMembers (m : Go.Map String J) : List (String × J) :=
  Sql.orderBy (·.1) (m.entries.map fun e => (e.1, e.2))

theorem mapOf_concat (ms : List (String × J)) (e : String × J) :
    mapOf (ms ++ [e]) = (mapOf ms).insert e.1 e.2 := by
  simp [mapOf]

theorem mem_mapOf {k : String} {ms : List (String × J)} : k ∈ mapOf ms ↔ k ∈ ms.map (·.1) := by
  induction ms using List.reverseRecOn with
  | nil => simp [mapOf]
  | append_singleton ms e ih =>
      rw [mapOf_concat, AList.mem_insert, ih]
      simp [or_comm]

theorem mem_of_lookup_mapOf {k : String} {j : J} {ms : List (String × J)}
    (h : (mapOf ms).lookup k = some j) : (k, j) ∈ ms := by
  induction ms using List.reverseRecOn with
  | nil => simp [mapOf] at h
  | append_singleton ms e ih =>
      rw [mapOf_concat] at h
      by_cases hk : k = e.1
      · subst hk
        rw [AList.lookup_insert] at h
        simp [← Option.some.inj h]
      · rw [AList.lookup_insert_ne hk] at h
        exact List.mem_append_left _ (ih h)

theorem mem_mapMembers {m : Go.Map String J} {e : String × J} :
    e ∈ mapMembers m ↔ m.lookup e.1 = some e.2 := by
  obtain ⟨k, j⟩ := e
  have hlookup : m.lookup k = some j ↔ (⟨k, j⟩ : Sigma fun _ => J) ∈ m.entries :=
    AList.mem_lookup_iff
  rw [mapMembers, Sql.mem_orderBy, hlookup]
  constructor
  · intro h
    obtain ⟨e, he, heq⟩ := List.mem_map.mp h
    cases heq
    exact he
  · intro h
    exact List.mem_map.mpr ⟨_, h, rfl⟩

theorem nodup_mapMembers (m : Go.Map String J) : ((mapMembers m).map (·.1)).Nodup := by
  have hperm : ((mapMembers m).map (·.1)).Perm m.keys := by
    have h := (Sql.orderBy_perm (·.1) (m.entries.map fun e => (e.1, e.2))).map (·.1)
    rwa [List.map_map] at h
  exact hperm.nodup_iff.mpr m.nodupKeys

@[simp] theorem lookup_mapOf_mapMembers (m : Go.Map String J) (k : String) :
    (mapOf (mapMembers m)).lookup k = m.lookup k := by
  cases h : (mapOf (mapMembers m)).lookup k with
  | some j => exact (mem_mapMembers.mp (mem_of_lookup_mapOf h)).symm
  | none =>
      have hnotMem : k ∉ mapOf (mapMembers m) := AList.lookup_eq_none.mp h
      cases hj : m.lookup k with
      | none => rfl
      | some j =>
          have hmem : (k, j) ∈ mapMembers m := mem_mapMembers.mpr hj
          exact absurd (mem_mapOf.mpr (List.mem_map.mpr ⟨(k, j), hmem, rfl⟩)) hnotMem

theorem mem_mapOf_mapMembers {m : Go.Map String J} {k : String} :
    k ∈ mapOf (mapMembers m) ↔ k ∈ m := by
  rw [← AList.lookup_isSome, ← AList.lookup_isSome, lookup_mapOf_mapMembers]

/-- The map is read back from what it is written as. -/
theorem decodeMap_object (S : Syntax J) (m : Go.Map String J) :
    S.decodeMap (S.object (mapMembers m)) = .ok (mapOf (mapMembers m)) := by
  simp only [Syntax.decodeMap, S.members_object]

namespace Struct

variable {ι : Type} (T : Struct J ι) {S : Syntax J} {v : T.Record}

/-- All entries of the map are the members of fields. -/
def Holds (v : T.Record) (m : Go.Map String J) : Prop :=
  ∀ k j, m.lookup k = some j → ∃ i, (k, j) = T.memberOf v i

/-- Without an entry in the map the field has its zero value. -/
def Covered (v : T.Record) (m : Go.Map String J) (i : ι) : Prop :=
  T.name i ∉ m → v i = (T.codec i).zero

theorem holds_encodeMembers : T.Holds v (mapOf (T.encodeMembers v)) := by
  intro k j h
  obtain ⟨i, -, hi⟩ := List.mem_map.mp (mem_of_lookup_mapOf h)
  exact ⟨i, hi.symm⟩

theorem covered_encodeMembers {i : ι} (homits : T.omitEmpty i = true → (T.codec i).OmitsZero) :
    T.Covered v (mapOf (T.encodeMembers v)) i := by
  intro h
  rw [mem_mapOf] at h
  by_cases hskip : T.omitEmpty i = true ∧ (T.codec i).isEmpty (v i) = true
  · exact homits hskip.1 _ hskip.2
  · refine absurd (List.mem_map.mpr ⟨T.memberOf v i, List.mem_map.mpr ⟨i, ?_, rfl⟩, rfl⟩) h
    have hwritten : (!(T.omitEmpty i && (T.codec i).isEmpty (v i))) = true := by
      rw [Bool.not_eq_true', Bool.eq_false_iff]
      simpa using hskip
    exact List.mem_filter.mpr ⟨T.mem_order i, hwritten⟩

variable {T} {m : Go.Map String J}

theorem Holds.erase (h : T.Holds v m) (i : ι) : T.Holds v (m.erase (T.name i)) := by
  intro k j hj
  by_cases hk : k = T.name i
  · rw [hk, AList.lookup_erase] at hj
    cases hj
  · exact h k j (by rwa [AList.lookup_erase_ne hk] at hj)

theorem Holds.insert (h : T.Holds v m) (i : ι) :
    T.Holds v (m.insert (T.name i) ((T.codec i).encode (v i))) := by
  intro k j hj
  by_cases hk : k = T.name i
  · subst hk
    rw [AList.lookup_insert] at hj
    exact ⟨i, by rw [memberOf, Option.some.inj hj]⟩
  · exact h k j (by rwa [AList.lookup_insert_ne hk] at hj)

theorem Covered.erase {i k : ι} (h : T.Covered v m k) (hi : v i = (T.codec i).zero) :
    T.Covered v (m.erase (T.name i)) k := by
  intro hnotMem
  by_cases hk : k = i
  · rw [hk, hi]
  · refine h fun hmem => hnotMem (AList.mem_erase.mpr ⟨?_, hmem⟩)
    exact fun heq => hk (T.name_injective heq)

theorem Covered.insert {i k : ι} (h : k ≠ i → T.Covered v m k) (j : J) :
    T.Covered v (m.insert (T.name i) j) k := by
  intro hnotMem
  rw [AList.mem_insert, not_or] at hnotMem
  exact h (fun hk => hnotMem.1 (congrArg _ hk)) hnotMem.2

variable (T)

/-- The two ways to read a text see the same members. -/
theorem exists_members [DecidableEq ι] {j : J} {m : Go.Map String J}
    (hdecoded : T.decode S j = .ok v) (hfields : S.decodeMap j = .ok m) :
    ∃ ms, S.members j = some ms ∧ T.decodeMembers ms = .ok v ∧ m = mapOf ms := by
  unfold decode at hdecoded
  unfold Syntax.decodeMap at hfields
  cases hms : S.members j with
  | none => simp [hms] at hfields
  | some ms =>
      rw [hms] at hdecoded hfields
      exact ⟨ms, rfl, hdecoded, (Except.ok.inj hfields).symm⟩

theorem mem_encodeMembers {i : ι} (h : T.omitEmpty i = false) :
    T.name i ∈ mapOf (T.encodeMembers v) := by
  rw [mem_mapOf]
  refine List.mem_map.mpr ⟨T.memberOf v i, List.mem_map.mpr ⟨i, ?_, rfl⟩, rfl⟩
  exact List.mem_filter.mpr ⟨T.mem_order i, by simp [h]⟩

/-- If the last value for a field is not null, a member has the name of the field as it is written.
-/
def NamedAsWritten [DecidableEq ι] (S : Syntax J) (i : ι) (ms : List (String × J)) : Prop :=
  ∀ j, T.lastFor i ms = some j → S.isNull j = false → T.name i ∈ ms.map (·.1)

/-- The texts whose last value for a field, if it is not null, comes with the name as written. -/
def NamesAsWritten [DecidableEq ι] (S : Syntax J) (i : ι) (j : J) : Prop :=
  ∀ ms, S.members j = some ms → T.NamedAsWritten S i ms

theorem namesAsWritten_iff [DecidableEq ι] {i : ι} {j : J} {ms : List (String × J)}
    (h : S.members j = some ms) : T.NamesAsWritten S i j ↔ T.NamedAsWritten S i ms := by
  simp [NamesAsWritten, h]

/-- The map has a member for each value that is set, if the value has the name as it is written. -/
theorem isSet_imp_mem_iff [DecidableEq ι] {i : ι} {IsSet : T.Value i → Prop}
    (hc : (T.codec i).IsNullable S IsSet) {ms : List (String × J)} (h : T.decodeMembers ms = .ok v) :
    (IsSet (v i) → T.name i ∈ mapOf ms) ↔ T.NamedAsWritten S i ms := by
  rw [T.isSet_iff hc h, mem_mapOf]
  constructor
  · intro himp j hj hnull
    exact himp ⟨j, hj, hnull⟩
  · rintro hnamed ⟨j, hj, hnull⟩
    exact hnamed j hj hnull

/-- A map with the members of the fields that are not zero is read back. -/
theorem decode_object [DecidableEq ι] (hv : ∀ i, (T.codec i).Restores (v i)) (hof : T.Holds v m)
    (hzero : ∀ i, T.Covered v m i) : T.decode S (S.object (mapMembers m)) = .ok v := by
  have hmembers : ∀ e ∈ mapMembers m, ∃ i, e = T.memberOf v i := fun e he =>
    hof e.1 e.2 (mem_mapMembers.mp he)
  have hread := T.foldlM_decodeMember hv hmembers (nodup_mapMembers m) (w := T.zeroRecord)
    fun i _ => rfl
  simp only [decode, S.members_object, decodeMembers]
  rw [hread]
  congr 1
  funext i
  split
  · rfl
  · rename_i hnotMem
    rw [← mem_mapOf, mem_mapOf_mapMembers] at hnotMem
    exact (hzero i hnotMem).symm

end Struct

end Go.Json
