import Scrumboy.Go.Strings

/-!
# JSON

The part of `encoding/json` that writes texts, integers and lists of texts, and the part
that reads an object whose members are texts, 64-bit integers or null. Decoding a struct
with fields of these types refuses everything else, be it broken or of another type, so
the reader refuses it as well. A text that is read holds one character for each byte of
the input beyond ASCII; texts are compared with texts of ASCII characters only.
-/

namespace Go

/-! ## Writing -/

/-- The escape of a character by a letter. -/
def jsonLetter (c : Char) : Option Char :=
  if c = '"' then some '"'
  else if c = '\\' then some '\\'
  else if c.toNat = 8 then some 'b'
  else if c.toNat = 12 then some 'f'
  else if c.toNat = 10 then some 'n'
  else if c.toNat = 13 then some 'r'
  else if c.toNat = 9 then some 't' else none

/-- The characters that are escaped by their code, for the sake of HTML and JavaScript too. -/
def jsonCoded (c : Char) : Bool :=
  c.toNat < 32 || c == '<' || c == '>' || c == '&' || c.toNat == 0x2028 || c.toNat == 0x2029

def jsonRune (c : Char) : List Char :=
  match jsonLetter c with
  | some e => ['\\', e]
  | none => if jsonCoded c then '\\' :: 'u' :: hexPadded 4 c.toNat else [c]

def jsonText (s : List Char) : List Char := '"' :: s.flatMap jsonRune ++ ['"']

/-- The texts of a list behind the first one. -/
def jsonTextsRest : List String → List Char
  | [] => [']']
  | s :: l => ',' :: jsonText s.toList ++ jsonTextsRest l

def jsonTexts : List String → List Char
  | [] => ['[', ']']
  | s :: l => '[' :: jsonText s.toList ++ jsonTextsRest l

/-- The members of an object behind the first one, with their values as they are written. -/
def jsonFieldsRest : List (String × List Char) → List Char
  | [] => ['}']
  | (key, value) :: fields => ',' :: jsonText key.toList ++ ':' :: value ++ jsonFieldsRest fields

def jsonFields : List (String × List Char) → List Char
  | [] => ['{', '}']
  | (key, value) :: fields => '{' :: jsonText key.toList ++ ':' :: value ++ jsonFieldsRest fields

/-! ## Reading -/

def skipJsonSpace (l : List Char) : List Char :=
  l.dropWhile fun c => c == ' ' || c == '\t' || c == '\r' || c == '\n'

def hexValue (c : Char) : Option ℕ :=
  if '0' ≤ c ∧ c ≤ '9' then some (c.toNat - 48)
  else if 'a' ≤ c ∧ c ≤ 'f' then some (c.toNat - 87)
  else if 'A' ≤ c ∧ c ≤ 'F' then some (c.toNat - 55) else none

/-- The character of a code; half of a surrogate pair is no character. -/
def jsonCode (a b c d : Char) : Option Char := do
  let n := (((← hexValue a) * 16 + (← hexValue b)) * 16 + (← hexValue c)) * 16 + (← hexValue d)
  pure (if 0xD800 ≤ n ∧ n < 0xE000 then Char.ofNat 0xFFFD else Char.ofNat n)

def jsonUnletter (e : Char) : Option Char :=
  if e = '"' then some '"'
  else if e = '\\' then some '\\'
  else if e = '/' then some '/'
  else if e = 'b' then some (Char.ofNat 8)
  else if e = 'f' then some (Char.ofNat 12)
  else if e = 'n' then some (Char.ofNat 10)
  else if e = 'r' then some (Char.ofNat 13)
  else if e = 't' then some (Char.ofNat 9) else none

/-- The text up to the closing quotation mark, and what follows. -/
def readJsonText : List Char → Option (List Char × List Char)
  | [] => none
  | c :: rest =>
      if c = '"' then some ([], rest)
      else if c = '\\' then
        match rest with
        | [] => none
        | e :: rest =>
            if e = 'u' then
              match rest with
              | h₁ :: h₂ :: h₃ :: h₄ :: rest =>
                  (jsonCode h₁ h₂ h₃ h₄).bind fun c => (readJsonText rest).map fun r => (c :: r.1, r.2)
              | _ => none
            else (jsonUnletter e).bind fun c => (readJsonText rest).map fun r => (c :: r.1, r.2)
      else if c.toNat < 32 then none
      else (readJsonText rest).map fun r => (c :: r.1, r.2)

def isJsonNumberChar (c : Char) : Bool :=
  c.isDigit || c == '-' || c == '+' || c == '.' || c == 'e' || c == 'E'

/-- The digits of an integer in JSON have no zero in front. -/
def isJsonInt (token : List Char) : Bool :=
  let ds := if token.head? = some '-' then token.tail else token
  ds.all Char.isDigit && (ds.head?.any (· != '0') || ds == ['0'])

def readJsonInt (l : List Char) : Option (ℤ × List Char) :=
  let token := l.takeWhile isJsonNumberChar
  if isJsonInt token then (parseInt (String.ofList token)).map (·, l.dropWhile isJsonNumberChar) else none

inductive JsonScalar
  | null
  | int (n : ℤ)
  | text (s : List Char)
  deriving DecidableEq, Repr

def readJsonScalar (l : List Char) : Option (JsonScalar × List Char) :=
  match l with
  | '"' :: rest => (readJsonText rest).map fun r => (.text r.1, r.2)
  | 'n' :: 'u' :: 'l' :: 'l' :: rest => some (.null, rest)
  | l => (readJsonInt l).map fun r => (.int r.1, r.2)

/-- The members of an object up to the closing brace, and what follows. -/
def readJsonMembers : ℕ → List Char → Option (List (List Char × JsonScalar) × List Char)
  | 0, _ => none
  | n + 1, l =>
      match skipJsonSpace l with
      | '"' :: l =>
          (readJsonText l).bind fun key =>
            match skipJsonSpace key.2 with
            | ':' :: l =>
                (readJsonScalar (skipJsonSpace l)).bind fun value =>
                  match skipJsonSpace value.2 with
                  | ',' :: l => (readJsonMembers n l).map fun r => ((key.1, value.1) :: r.1, r.2)
                  | '}' :: l => some ([(key.1, value.1)], l)
                  | _ => none
            | _ => none
      | _ => none

/-- An object; for a struct null is an object without members. -/
def readJsonObject (l : List Char) : Option (List (List Char × JsonScalar) × List Char) :=
  match skipJsonSpace l with
  | '{' :: l =>
      match skipJsonSpace l with
      | '}' :: l => some ([], l)
      | l => readJsonMembers l.length l
  | 'n' :: 'u' :: 'l' :: 'l' :: l => some ([], l)
  | _ => none

/-! ## What was written is read back -/

theorem hexValue_hexDigit : ∀ n < 16, hexValue (hexDigit n) = some n := by decide

theorem hexPadded_four (n : ℕ) : hexPadded 4 n = [hexDigit (n / 16 / 16 / 16 % 16),
    hexDigit (n / 16 / 16 % 16), hexDigit (n / 16 % 16), hexDigit (n % 16)] := rfl

theorem jsonCode_hexPadded {c : Char} (h : c.toNat < 65536) :
    jsonCode (hexDigit (c.toNat / 16 / 16 / 16 % 16)) (hexDigit (c.toNat / 16 / 16 % 16))
      (hexDigit (c.toNat / 16 % 16)) (hexDigit (c.toNat % 16)) = some c := by
  have hlt : ∀ m, m % 16 < 16 := fun m => Nat.mod_lt m (by decide)
  have hsum : ((c.toNat / 16 / 16 / 16 % 16 * 16 + c.toNat / 16 / 16 % 16) * 16 + c.toNat / 16 % 16) * 16 +
      c.toNat % 16 = c.toNat := by omega
  have hvalid : ¬ (0xD800 ≤ c.toNat ∧ c.toNat < 0xE000) := by
    have hv := c.valid
    simp only [UInt32.isValidChar, Nat.isValidChar] at hv
    change ¬ (0xD800 ≤ c.val.toNat ∧ c.val.toNat < 0xE000)
    omega
  simp only [jsonCode, hexValue_hexDigit _ (hlt _), Option.bind_eq_bind, Option.bind_some, hsum,
    if_neg hvalid, Char.ofNat_toNat]
  rfl

theorem readJsonText_cons (c : Char) (rest : List Char) :
    readJsonText (c :: rest) =
      if c = '"' then some ([], rest)
      else if c = '\\' then
        match rest with
        | [] => none
        | e :: rest =>
            if e = 'u' then
              match rest with
              | h₁ :: h₂ :: h₃ :: h₄ :: rest =>
                  (jsonCode h₁ h₂ h₃ h₄).bind fun c => (readJsonText rest).map fun r => (c :: r.1, r.2)
              | _ => none
            else (jsonUnletter e).bind fun c => (readJsonText rest).map fun r => (c :: r.1, r.2)
      else if c.toNat < 32 then none
      else (readJsonText rest).map fun r => (c :: r.1, r.2) := by
  conv_lhs => unfold readJsonText

@[simp] theorem readJsonText_end (rest : List Char) : readJsonText ('"' :: rest) = some ([], rest) := by
  rw [readJsonText_cons]
  simp

theorem readJsonText_letter {e : Char} (he : e ≠ 'u') (rest : List Char) :
    readJsonText ('\\' :: e :: rest) =
      (jsonUnletter e).bind fun c => (readJsonText rest).map fun r => (c :: r.1, r.2) := by
  rw [readJsonText_cons]
  simp [he]

theorem readJsonText_code (h₁ h₂ h₃ h₄ : Char) (rest : List Char) :
    readJsonText ('\\' :: 'u' :: h₁ :: h₂ :: h₃ :: h₄ :: rest) =
      (jsonCode h₁ h₂ h₃ h₄).bind fun c => (readJsonText rest).map fun r => (c :: r.1, r.2) := by
  rw [readJsonText_cons]
  simp

theorem readJsonText_plain {c : Char} (hquote : c ≠ '"') (hback : c ≠ '\\') (hcode : ¬ c.toNat < 32)
    (rest : List Char) :
    readJsonText (c :: rest) = (readJsonText rest).map fun r => (c :: r.1, r.2) := by
  rw [readJsonText_cons]
  simp [hquote, hback, hcode]

/-- The letter of a character stands for that character. -/
theorem jsonUnletter_jsonLetter {c e : Char} (h : jsonLetter c = some e) :
    jsonUnletter e = some c ∧ e ≠ 'u' := by
  have hchar : ∀ n, c.toNat = n → Char.ofNat n = c := by
    rintro n rfl
    exact Char.ofNat_toNat c
  unfold jsonLetter at h
  split at h
  · cases h
    exact ⟨by simp [jsonUnletter, *], by decide⟩
  split at h
  · cases h
    exact ⟨by simp [jsonUnletter, *], by decide⟩
  split at h
  · rename_i hc
    cases h
    exact ⟨congrArg some (hchar 8 hc), by decide⟩
  split at h
  · rename_i hc
    cases h
    exact ⟨congrArg some (hchar 12 hc), by decide⟩
  split at h
  · rename_i hc
    cases h
    exact ⟨congrArg some (hchar 10 hc), by decide⟩
  split at h
  · rename_i hc
    cases h
    exact ⟨congrArg some (hchar 13 hc), by decide⟩
  split at h
  · rename_i hc
    cases h
    exact ⟨congrArg some (hchar 9 hc), by decide⟩
  · cases h

/-- One character that was written is read back. -/
theorem readJsonText_rune (c : Char) (rest : List Char) :
    readJsonText (jsonRune c ++ rest) = (readJsonText rest).map fun r => (c :: r.1, r.2) := by
  unfold jsonRune
  cases hletter : jsonLetter c with
  | some e =>
      obtain ⟨hun, he⟩ := jsonUnletter_jsonLetter hletter
      simp only [List.cons_append, List.nil_append]
      rw [readJsonText_letter he, hun, Option.bind_some]
  | none =>
      dsimp only
      split
      · rename_i hcoded
        have hlt : c.toNat < 65536 := by
          simp only [jsonCoded, Bool.or_eq_true, decide_eq_true_eq, beq_iff_eq] at hcoded
          rcases hcoded with ((((h | rfl) | rfl) | rfl) | h) | h
          · omega
          · decide
          · decide
          · decide
          · omega
          · omega
        rw [hexPadded_four, List.cons_append, List.cons_append]
        simp only [List.cons_append, List.nil_append]
        rw [readJsonText_code, jsonCode_hexPadded hlt, Option.bind_some]
      · rename_i hcoded
        have hquote : c ≠ '"' := by
          rintro rfl
          simp [jsonLetter] at hletter
        have hback : c ≠ '\\' := by
          rintro rfl
          simp [jsonLetter] at hletter
        have hcode : ¬ c.toNat < 32 := by
          intro hlt
          simp [jsonCoded, hlt] at hcoded
        rw [List.singleton_append, readJsonText_plain hquote hback hcode]

theorem readJsonText_flatMap (s rest : List Char) :
    readJsonText (s.flatMap jsonRune ++ '"' :: rest) = some (s, rest) := by
  induction s with
  | nil => simp
  | cons c s ih =>
      rw [List.flatMap_cons, List.append_assoc, readJsonText_rune, ih]
      rfl

/-- A text is read back up to its closing quotation mark. -/
theorem jsonText_append_inj {s s' rest rest' : List Char}
    (h : jsonText s ++ rest = jsonText s' ++ rest') : s = s' ∧ rest = rest' := by
  simp only [jsonText, List.cons_append, List.append_assoc, List.cons.injEq, true_and, List.nil_append] at h
  have hread := readJsonText_flatMap s rest
  rw [h, readJsonText_flatMap s' rest', Option.some.injEq, Prod.mk.injEq] at hread
  exact ⟨hread.1.symm, hread.2.symm⟩

theorem jsonTextsRest_append_inj {l l' : List String} {rest rest' : List Char}
    (h : jsonTextsRest l ++ rest = jsonTextsRest l' ++ rest') : l = l' ∧ rest = rest' := by
  induction l generalizing l' with
  | nil =>
      cases l' with
      | nil => exact ⟨rfl, List.append_cancel_left h⟩
      | cons s' l' => simp [jsonTextsRest] at h
  | cons s l ih =>
      cases l' with
      | nil => simp [jsonTextsRest] at h
      | cons s' l' =>
          simp only [jsonTextsRest, List.cons_append, List.append_assoc, List.cons.injEq, true_and] at h
          obtain ⟨hs, hl⟩ := jsonText_append_inj h
          obtain ⟨rfl, hrest⟩ := ih hl
          exact ⟨by rw [String.toList_injective hs], hrest⟩

theorem jsonTexts_append_inj {l l' : List String} {rest rest' : List Char}
    (h : jsonTexts l ++ rest = jsonTexts l' ++ rest') : l = l' ∧ rest = rest' := by
  cases l with
  | nil =>
      cases l' with
      | nil => exact ⟨rfl, List.append_cancel_left h⟩
      | cons s' l' => simp [jsonTexts, jsonText] at h
  | cons s l =>
      cases l' with
      | nil => simp [jsonTexts, jsonText] at h
      | cons s' l' =>
          simp only [jsonTexts, List.cons_append, List.append_assoc, List.cons.injEq, true_and] at h
          obtain ⟨hs, hl⟩ := jsonText_append_inj h
          obtain ⟨rfl, hrest⟩ := jsonTextsRest_append_inj hl
          exact ⟨by rw [String.toList_injective hs], hrest⟩

/-- The key of a member is read back. -/
theorem jsonFieldsRest_cons_inj {k k' : String} {v v' : List Char} {fs fs' : List (String × List Char)}
    (h : jsonFieldsRest ((k, v) :: fs) = jsonFieldsRest ((k', v') :: fs')) :
    k = k' ∧ v ++ jsonFieldsRest fs = v' ++ jsonFieldsRest fs' := by
  simp only [jsonFieldsRest, List.cons_append, List.append_assoc, List.cons.injEq, true_and] at h
  obtain ⟨hk, hv⟩ := jsonText_append_inj h
  exact ⟨String.toList_injective hk, by simpa using hv⟩

theorem jsonFieldsRest_cons_ne_nil {k : String} {v : List Char} {fs : List (String × List Char)} :
    jsonFieldsRest ((k, v) :: fs) ≠ jsonFieldsRest [] := by
  simp [jsonFieldsRest]

/-! ## Integers -/

/-- What may follow a value in an object. -/
def EndsValue (rest : List Char) : Prop := rest.head? = some ',' ∨ rest.head? = some '}'

theorem EndsValue.not_number {rest : List Char} (h : EndsValue rest) :
    ∃ c l, rest = c :: l ∧ isJsonNumberChar c = false := by
  cases rest with
  | nil => simp [EndsValue] at h
  | cons c l =>
      simp only [EndsValue, List.head?_cons, Option.some.injEq] at h
      rcases h with rfl | rfl
      · exact ⟨_, _, rfl, by decide⟩
      · exact ⟨_, _, rfl, by decide⟩

theorem endsValue_jsonFieldsRest (fields : List (String × List Char)) (rest : List Char) :
    EndsValue (jsonFieldsRest fields ++ rest) := by
  cases fields with
  | nil => exact .inr rfl
  | cons f fields => exact .inl rfl

theorem isJsonNumberChar_of_mem_formatInt {n : ℤ} {c : Char} (h : c ∈ (formatInt n).toList) :
    isJsonNumberChar c = true := by
  rcases isDigit_of_mem_formatInt h with rfl | h
  · decide
  · simp [isJsonNumberChar, h]

/-- The token of an integer ends where the integer does. -/
theorem takeWhile_formatInt (n : ℤ) {rest : List Char} (h : EndsValue rest) :
    ((formatInt n).toList ++ rest).takeWhile isJsonNumberChar = (formatInt n).toList ∧
      ((formatInt n).toList ++ rest).dropWhile isJsonNumberChar = rest := by
  obtain ⟨c, l, rfl, hc⟩ := h.not_number
  have hall : ∀ c ∈ (formatInt n).toList, isJsonNumberChar c = true := fun _ =>
    isJsonNumberChar_of_mem_formatInt
  constructor
  · rw [List.takeWhile_append_of_pos hall, List.takeWhile_cons_of_neg (by simp [hc]), List.append_nil]
  · rw [List.dropWhile_append_of_pos hall, List.dropWhile_cons_of_neg (by simp [hc])]

theorem digitChar_ne_zero : ∀ d : ℕ, d < 10 → 0 < d → d.digitChar ≠ '0' := by decide

theorem head_toDigits_ne {n : ℕ} (h : 0 < n) : (Nat.toDigits 10 n).head? ≠ some '0' := by
  induction n using Nat.strong_induction_on with
  | _ n ih =>
      by_cases hlt : n < 10
      · rw [Nat.toDigits_of_lt_base hlt, List.head?_cons, ne_eq, Option.some.injEq]
        exact digitChar_ne_zero n hlt h
      · rw [Nat.toDigits_of_base_le (by decide) (by omega), List.head?_append_of_ne_nil _ Nat.toDigits_ne_nil]
        exact ih (n / 10) (by omega) (by omega)

theorem isJsonInt_formatInt (n : ℤ) : isJsonInt (formatInt n).toList = true := by
  have hdigits : (if (formatInt n).toList.head? = some '-' then (formatInt n).toList.tail
      else (formatInt n).toList) = Nat.toDigits 10 n.natAbs := by
    rw [toList_formatInt]
    by_cases hneg : n < 0
    · rw [if_pos hneg, List.head?_cons, if_pos rfl, List.tail_cons]
    · rw [if_neg hneg, if_neg]
      intro hhead
      have hminus := Nat.isDigit_of_mem_toDigits (by decide) (by decide) (List.mem_of_mem_head? hhead)
      exact absurd hminus (by decide)
  unfold isJsonInt
  simp only [hdigits, Bool.and_eq_true, List.all_eq_true, Bool.or_eq_true, beq_iff_eq]
  refine ⟨fun c hc => Nat.isDigit_of_mem_toDigits (by decide) (by decide) hc, ?_⟩
  rcases Nat.eq_zero_or_pos n.natAbs with hzero | hpos
  · exact .inr (by rw [hzero, Nat.toDigits_zero])
  · left
    have hne := head_toDigits_ne hpos
    cases hd : Nat.toDigits 10 n.natAbs with
    | nil => exact absurd hd Nat.toDigits_ne_nil
    | cons c cs =>
        rw [hd] at hne
        simpa using hne

/-- An integer is read back up to what follows it. -/
theorem readJsonInt_formatInt {n : ℤ} (hn : IsInt64 n) {rest : List Char} (h : EndsValue rest) :
    readJsonInt ((formatInt n).toList ++ rest) = some (n, rest) := by
  obtain ⟨htake, hdrop⟩ := takeWhile_formatInt n h
  unfold readJsonInt
  simp only [htake, hdrop, isJsonInt_formatInt, if_true, String.ofList_toList, parseInt_formatInt hn,
    Option.map_some]

theorem formatInt_inj {n m : ℤ} (h : formatInt n = formatInt m) : n = m := by
  have hlist := congrArg String.toList h
  rw [toList_formatInt, toList_formatInt] at hlist
  have hdigits : ∀ {k k' : ℕ}, Nat.toDigits 10 k = Nat.toDigits 10 k' → k = k' := by
    intro k k' heq
    have hread := parseDigits_toDigits k
    rw [heq, parseDigits_toDigits] at hread
    exact (Option.some.inj hread).symm
  have hminus : ∀ k k' : ℕ, '-' :: Nat.toDigits 10 k ≠ Nat.toDigits 10 k' := by
    intro k k' heq
    have hdigit := Nat.isDigit_of_mem_toDigits (b := 10) (n := k') (by decide) (by decide)
      (heq ▸ List.mem_cons_self)
    exact absurd hdigit (by decide)
  split at hlist
  · split at hlist
    · have heq := hdigits (List.cons.inj hlist).2
      omega
    · exact absurd hlist (hminus _ _)
  · split at hlist
    · exact absurd hlist.symm (hminus _ _)
    · have heq := hdigits hlist
      omega

theorem formatInt_append_inj {n m : ℤ} {rest rest' : List Char} (hrest : EndsValue rest)
    (hrest' : EndsValue rest') (h : (formatInt n).toList ++ rest = (formatInt m).toList ++ rest') :
    n = m ∧ rest = rest' := by
  have htake := (takeWhile_formatInt n hrest).1
  rw [h, (takeWhile_formatInt m hrest').1] at htake
  have heq := formatInt_inj (String.toList_injective htake).symm
  subst heq
  exact ⟨rfl, List.append_cancel_left h⟩

/-! ## Objects -/

theorem skipJsonSpace_cons {c : Char} (h : ¬ (c == ' ' || c == '\t' || c == '\r' || c == '\n') = true)
    (l : List Char) : skipJsonSpace (c :: l) = c :: l :=
  List.dropWhile_cons_of_neg h

/-- `value` is how `scalar` is written. -/
def ReadsAs (value : List Char) (scalar : JsonScalar) : Prop :=
  ∀ rest, EndsValue rest → readJsonScalar (skipJsonSpace (value ++ rest)) = some (scalar, rest)

theorem readsAs_text (s : List Char) : ReadsAs (jsonText s) (.text s) := by
  intro rest _
  simp only [jsonText, List.cons_append, List.append_assoc, List.nil_append]
  rw [skipJsonSpace_cons (by decide), readJsonScalar, readJsonText_flatMap]
  rfl

theorem readsAs_int {n : ℤ} (hn : IsInt64 n) : ReadsAs (formatInt n).toList (.int n) := by
  intro rest hrest
  have hread := readJsonInt_formatInt hn hrest
  cases hl : (formatInt n).toList with
  | nil =>
      rw [toList_formatInt] at hl
      split at hl
      · cases hl
      · exact absurd hl Nat.toDigits_ne_nil
  | cons c cs =>
      have hc : isJsonNumberChar c = true :=
        isJsonNumberChar_of_mem_formatInt (hl ▸ List.mem_cons_self)
      rw [hl, List.cons_append] at hread
      have hspace : (c == ' ' || c == '\t' || c == '\r' || c == '\n') = false := by
        by_contra hspace
        simp only [Bool.not_eq_false, Bool.or_eq_true, beq_iff_eq] at hspace
        rcases hspace with ((rfl | rfl) | rfl) | rfl <;> exact absurd hc (by decide)
      rw [List.cons_append, skipJsonSpace_cons (by simpa using hspace)]
      unfold readJsonScalar
      split
      · rename_i heq
        rw [List.cons.injEq] at heq
        rw [heq.1] at hc
        exact absurd hc (by decide)
      · rename_i heq
        rw [List.cons.injEq] at heq
        rw [heq.1] at hc
        exact absurd hc (by decide)
      · rw [hread]
        rfl

/-- The members that are written are read back. -/
theorem readJsonMembers_fields (key : String) {value : List Char} {scalar : JsonScalar}
    {fields : List (String × List Char)} {members : List (List Char × JsonScalar)} (n : ℕ)
    (rest : List Char) (hvalue : ReadsAs value scalar)
    (h : List.Forall₂ (fun f m => m.1 = f.1.toList ∧ ReadsAs f.2 m.2) fields members)
    (hn : fields.length < n) :
    readJsonMembers n (jsonText key.toList ++ ':' :: value ++ jsonFieldsRest fields ++ rest) =
      some ((key.toList, scalar) :: members, rest) := by
  induction h generalizing key value scalar n with
  | nil =>
      obtain ⟨n, rfl⟩ := Nat.exists_eq_succ_of_ne_zero hn.ne'
      have hread := hvalue ('}' :: rest) (.inr rfl)
      simp only [jsonText, List.cons_append, List.append_assoc, List.nil_append, jsonFieldsRest] at hread ⊢
      rw [readJsonMembers, skipJsonSpace_cons (by decide)]
      simp only [readJsonText_flatMap, Option.bind_some]
      simp (disch := decide) only [skipJsonSpace_cons, hread, Option.bind_some]
  | @cons f m fields members hf _ ih =>
      obtain ⟨n, rfl⟩ := Nat.exists_eq_succ_of_ne_zero (Nat.ne_zero_of_lt hn)
      obtain ⟨k, v⟩ := f
      obtain ⟨k', w⟩ := m
      obtain ⟨rfl, hv⟩ := hf
      have hread := hvalue _ (endsValue_jsonFieldsRest ((k, v) :: fields) rest)
      have hnext := ih k n hv (Nat.lt_of_succ_lt_succ hn)
      simp only [jsonText, List.cons_append, List.append_assoc, List.nil_append, jsonFieldsRest]
        at hread hnext ⊢
      rw [readJsonMembers, skipJsonSpace_cons (by decide)]
      simp only [readJsonText_flatMap, Option.bind_some]
      simp (disch := decide) only [skipJsonSpace_cons, hread, Option.bind_some, hnext, Option.map_some]

theorem length_le_jsonFieldsRest (fields : List (String × List Char)) :
    fields.length < (jsonFieldsRest fields).length := by
  induction fields with
  | nil => simp [jsonFieldsRest]
  | cons f fields ih =>
      simp only [jsonFieldsRest, List.length_cons, List.length_append]
      omega

/-- An object that is written is read back. -/
theorem readJsonObject_fields {key : String} {value : List Char} {scalar : JsonScalar}
    {fields : List (String × List Char)} {members : List (List Char × JsonScalar)}
    (hvalue : ReadsAs value scalar)
    (h : List.Forall₂ (fun f m => m.1 = f.1.toList ∧ ReadsAs f.2 m.2) fields members) :
    readJsonObject (jsonFields ((key, value) :: fields)) = some ((key.toList, scalar) :: members, []) := by
  have hlength := length_le_jsonFieldsRest fields
  have hread := readJsonMembers_fields key
    (jsonText key.toList ++ ':' :: value ++ jsonFieldsRest fields ++ []).length [] hvalue h (by
      simp only [List.length_append]
      omega)
  simp only [jsonText, List.cons_append, List.append_assoc, List.nil_append, List.append_nil] at hread
  simp only [jsonFields, jsonText, List.cons_append, List.append_assoc, List.nil_append]
  simp (disch := decide) only [readJsonObject, skipJsonSpace_cons]
  exact hread

end Go
