import Scrumboy.Application.PublicBoardRead

/-!
# The tokens of the public board

A token is the payload of a cursor as JSON in base64. The payload is read back from it, and
the token is short enough to be looked at, so what decides is the comparison with the lane
and the fingerprint. The text behind a fingerprint determines the query, and the one behind
the fingerprint that is bound to a project its slug as well.
-/

namespace Scrumboy

open Go Sql

/-! ## Characters -/

/-- The characters of a text that JSON leaves as they are, one byte each. -/
def IsPlain (c : Char) : Prop := c.toNat < 128 ∧ jsonRune c = [c]

instance (c : Char) : Decidable (IsPlain c) := inferInstanceAs (Decidable (_ ∧ _))

theorem isPlain_base64Char : ∀ n < 64, IsPlain (base64Char n) := by decide +kernel

theorem isPlain_keyChar {c : Char} (h : isLowerAlnum c = true ∨ c = '_') : IsPlain c := by
  have hascii : c.toNat < 128 := by
    rcases h with h | rfl
    · simp only [isLowerAlnum, Bool.or_eq_true, Bool.and_eq_true, decide_eq_true_eq] at h
      rcases h with h | h
      · exact lt_of_le_of_lt h.2 (by decide)
      · exact lt_of_le_of_lt h.2 (by decide)
    · decide
  refine forall_ascii (P := fun c => isLowerAlnum c = true ∨ c = '_' → IsPlain c) ?_ c hascii h
  decide +kernel

theorem isPlain_formatInt {n : ℤ} {c : Char} (h : c ∈ (formatInt n).toList) : c.toNat < 128 := by
  rcases isDigit_of_mem_formatInt h with rfl | h
  · decide
  · simp only [Char.isDigit, Bool.and_eq_true, decide_eq_true_eq] at h
    have hhigh : c.toNat ≤ 57 := h.2
    omega

theorem jsonText_of_plain {s : List Char} (h : ∀ c ∈ s, IsPlain c) : jsonText s = '"' :: s ++ ['"'] := by
  have hflat : s.flatMap jsonRune = s := by
    induction s with
    | nil => rfl
    | cons c s ih =>
        rw [List.flatMap_cons, (h c List.mem_cons_self).2, ih fun d hd => h d (List.mem_cons_of_mem _ hd)]
        rfl
  rw [jsonText, hflat]

theorem byteLen_of_ascii {s : String} (h : ∀ c ∈ s.toList, c.toNat < 128) : byteLen s = s.toList.length := by
  have hsize : s.toList.map Char.utf8Size = s.toList.map fun _ => 1 := by
    apply List.map_congr_left
    intro c hc
    exact forall_ascii (P := fun c => c.utf8Size = 1) (by decide +kernel) c (h c hc)
  rw [byteLen_eq_sum, hsize]
  simp

/-- A number of 64 bits has at most nineteen digits. -/
theorem length_formatInt {n : ℤ} (h : IsInt64 n) : (formatInt n).toList.length ≤ 20 := by
  have hdigits : (Nat.toDigits 10 n.natAbs).length ≤ 19 := by
    rw [Nat.length_toDigits_le_iff (by decide) (by decide)]
    unfold IsInt64 minInt64 maxInt64 at h
    have : n.natAbs ≤ 9223372036854775808 := by omega
    exact lt_of_le_of_lt this (by decide)
  rw [toList_formatInt]
  split
  · rw [List.length_cons]
    omega
  · omega

/-! ## Payloads -/

/-- The text of at most twelve bytes in base64. -/
def IsFingerprint (fingerprint : String) : Prop :=
  ∃ bs : List ℕ, bs.length ≤ 12 ∧ (∀ b ∈ bs, b < 256) ∧ fingerprint = encodeBytesToString bs

theorem isFingerprint_shortSum (s : String) : IsFingerprint (encodeBytesToString (shortSum s)) :=
  ⟨shortSum s, List.length_take_le _ _, fun _ hb => mem_sum256_lt (List.mem_of_mem_take hb), rfl⟩

theorem IsFingerprint.plain {fingerprint : String} (h : IsFingerprint fingerprint) :
    (∀ c ∈ fingerprint.toList, IsPlain c) ∧ fingerprint.toList.length ≤ 16 := by
  obtain ⟨bs, hlength, hbytes, rfl⟩ := h
  rw [encodeBytesToString, String.toList_ofList]
  constructor
  · intro c hc
    obtain ⟨n, hn, rfl⟩ := List.mem_map.mp hc
    exact isPlain_base64Char n (sextets_lt hbytes n hn)
  · have hsextets := length_sextets bs
    rw [List.length_map]
    omega

theorem IsColumnKey.plain {key : String} (h : IsColumnKey key) :
    (∀ c ∈ key.toList, IsPlain c) ∧ key.toList.length ≤ 32 := by
  have hplain : ∀ c ∈ key.toList, IsPlain c := fun c hc => isPlain_keyChar (h.mem_class hc)
  refine ⟨hplain, ?_⟩
  have hbytes : byteLen key ≤ maxSlugLen := by
    have := h.2
    simp only [isValidColumnKey, h.1, Bool.and_eq_true, decide_eq_true_eq] at this
    exact this.1.2
  rw [byteLen_of_ascii fun c hc => (hplain c hc).1] at hbytes
  exact hbytes

/-- A payload that the application writes. -/
structure IssuedPayload (p : CursorPayload) : Prop where
  version : p.version = 1
  columnKey : IsColumnKey p.columnKey
  rank : IsInt64 p.rank
  localID : IsInt64 p.localID
  fingerprint : IsFingerprint p.fingerprint

def payloadText (p : CursorPayload) : String := String.ofList (jsonFields (cursorFields p))

variable {p : CursorPayload}

theorem IssuedPayload.readCursorPayload_eq (h : IssuedPayload p) :
    readCursorPayload (payloadText p) = some p := by
  have hread : readJsonObject (jsonFields (cursorFields p)) =
      some ([("v".toList, .int p.version), ("c".toList, .text p.columnKey.toList),
        ("r".toList, .int p.rank), ("l".toList, .int p.localID),
        ("f".toList, .text p.fingerprint.toList)], []) := by
    have hversion : IsInt64 p.version := by
      rw [h.version]
      decide
    refine readJsonObject_fields (readsAs_int hversion) ?_
    exact .cons ⟨rfl, readsAs_text _⟩ (.cons ⟨rfl, readsAs_int h.rank⟩
      (.cons ⟨rfl, readsAs_int h.localID⟩ (.cons ⟨rfl, readsAs_text _⟩ .nil)))
  have hset : [(['v'], JsonScalar.int p.version), (['c'], .text p.columnKey.toList), (['r'], .int p.rank),
      (['l'], .int p.localID), (['f'], .text p.fingerprint.toList)].foldlM CursorPayload.set {} =
      some ⟨p.version, String.ofList p.columnKey.toList, p.rank, p.localID,
        String.ofList p.fingerprint.toList⟩ := rfl
  simp only [readCursorPayload, payloadText, String.toList_ofList, hread, Option.bind_eq_bind, Option.bind_some,
    String.reduceToList, hset, String.ofList_toList]
  rfl

/-- The text of a payload is ASCII and short. -/
theorem IssuedPayload.payloadText_spec (h : IssuedPayload p) :
    (∀ c ∈ (payloadText p).toList, c.toNat < 128) ∧ (payloadText p).toList.length ≤ 140 := by
  obtain ⟨hkey, hkeyLen⟩ := h.columnKey.plain
  obtain ⟨hfp, hfpLen⟩ := h.fingerprint.plain
  have hrank := length_formatInt h.rank
  have hlocal := length_formatInt h.localID
  have hv : (formatInt 1).toList = ['1'] := by decide +kernel
  have hnames : ∀ c ∈ ['v', 'c', 'r', 'l', 'f'], IsPlain c := fun c hc =>
    isPlain_keyChar (.inl (List.all_eq_true.mp
      (show ['v', 'c', 'r', 'l', 'f'].all isLowerAlnum = true from rfl) c hc))
  have hname : ∀ c ∈ ['v', 'c', 'r', 'l', 'f'], jsonText [c] = ['"', c, '"'] := by
    intro c hc
    rw [jsonText_of_plain (by simpa using hnames c hc)]
    rfl
  have htext : (payloadText p).toList = '{' :: '"' :: 'v' :: '"' :: ':' :: '1' ::
      ',' :: '"' :: 'c' :: '"' :: ':' :: '"' :: (p.columnKey.toList ++
      '"' :: ',' :: '"' :: 'r' :: '"' :: ':' :: ((formatInt p.rank).toList ++
      ',' :: '"' :: 'l' :: '"' :: ':' :: ((formatInt p.localID).toList ++
      ',' :: '"' :: 'f' :: '"' :: ':' :: '"' :: (p.fingerprint.toList ++ ['"', '}'])))) := by
    rw [payloadText, String.toList_ofList]
    simp [cursorFields, jsonFields, jsonFieldsRest, hname, jsonText_of_plain hkey, jsonText_of_plain hfp,
      h.version, hv]
  rw [htext]
  constructor
  · intro c hc
    simp only [List.mem_cons, List.mem_append, List.not_mem_nil, or_false] at hc
    rcases hc with rfl | rfl | rfl | rfl | rfl | rfl | rfl | rfl | rfl | rfl | rfl | rfl | hc | rfl | rfl |
      rfl | rfl | rfl | rfl | hc | rfl | rfl | rfl | rfl | rfl | hc | rfl | rfl | rfl | rfl | rfl | rfl |
      hc | rfl | rfl
    all_goals first | decide | exact (hkey c hc).1 | exact (hfp c hc).1 | exact isPlain_formatInt hc
  · simp only [List.length_cons, List.length_append, List.length_nil]
    omega

/-! ## Tokens -/

def cursorToken (p : CursorPayload) : String := encodeToString (payloadText p)

theorem byteLen_encodeToString {s : String} (h : ∀ c ∈ s.toList, c.toNat < 128) :
    byteLen (encodeToString s) ≤ 4 * ((s.toList.length + 2) / 3) := by
  have hbytes := utf8Bytes_of_ascii h
  have hlt : ∀ b ∈ utf8Bytes s, b < 256 := by
    rw [hbytes]
    intro b hb
    obtain ⟨c, hc, rfl⟩ := List.mem_map.mp hb
    exact (h c hc).trans (by decide)
  have hlength := length_sextets (utf8Bytes s)
  rw [hbytes, List.length_map, ← hbytes] at hlength
  rw [encodeToString, encodeBytesToString, byteLen_of_ascii]
  · rw [String.toList_ofList, List.length_map]
    exact hlength
  · intro c hc
    rw [String.toList_ofList] at hc
    obtain ⟨n, hn, rfl⟩ := List.mem_map.mp hc
    exact (isPlain_base64Char n (sextets_lt hlt n hn)).1

/-- A token of the application is read back; what is left is to match it. -/
theorem IssuedPayload.decodeCursor_eq (h : IssuedPayload p) (columnKey fingerprint : String) :
    decodeCursor (cursorToken p) columnKey fingerprint = (do
      reject (p.version ≠ 1 ∨ p.columnKey ≠ columnKey ∨ p.fingerprint ≠ fingerprint ∨ p.rank < 0 ∨ p.localID < 1)
        (.invalidQuery "cursor does not match this lane and filter")
      pure (some ⟨p.rank, p.localID⟩)) := by
  obtain ⟨hascii, hlength⟩ := h.payloadText_spec
  have hdecode := decodeString_encodeToString hascii
  have hread := h.readCursorPayload_eq
  have hsome : payloadText p ≠ "" := by
    intro hempty
    rw [hempty] at hread
    cases hread
  have htext : (payloadText p).toList.length ≠ 0 := by
    intro hzero
    exact hsome (String.toList_injective (List.length_eq_zero_iff.mp hzero))
  have hne : cursorToken p ≠ "" := by
    intro hempty
    rw [cursorToken] at hempty
    rw [hempty] at hdecode
    exact hsome (Option.some.inj hdecode).symm
  have hshort : ¬ maxCursorLength < byteLen (cursorToken p) := by
    have hle := byteLen_encodeToString hascii
    unfold maxCursorLength cursorToken
    omega
  have hfilter : (decodeString (cursorToken p)).filter (fun decoded =>
      decoded.toList.length ≠ 0 && decoded.toList.length ≤ maxCursorLength) = some (payloadText p) := by
    have hmax : (payloadText p).toList.length ≤ maxCursorLength := hlength.trans (by decide)
    rw [cursorToken, hdecode]
    simp only [Option.filter, htext, hmax, ne_eq, not_false_eq_true, decide_true, Bool.and_self, if_true]
  unfold decodeCursor
  rw [if_neg hne, reject_bind_of_not hshort, hfilter]
  dsimp only
  rw [hread]

/-- A token of the application is accepted for its own lane and fingerprint, and then only if
its position is not negative. -/
theorem IssuedPayload.decodeCursor_eq_ok (h : IssuedPayload p) {columnKey fingerprint : String}
    {after : Option PublicTodoOrder} :
    decodeCursor (cursorToken p) columnKey fingerprint = .ok after ↔
      (p.columnKey = columnKey ∧ p.fingerprint = fingerprint ∧ 0 ≤ p.rank ∧ 1 ≤ p.localID) ∧
        after = some ⟨p.rank, p.localID⟩ := by
  rw [h.decodeCursor_eq]
  simp only [bind_eq_ok, reject_eq_ok, pure_eq_ok, exists_const, h.version]
  constructor
  · rintro ⟨hmatch, rfl⟩
    refine ⟨?_, rfl⟩
    push Not at hmatch
    exact ⟨hmatch.2.1, hmatch.2.2.1, hmatch.2.2.2.1, hmatch.2.2.2.2⟩
  · rintro ⟨⟨hkey, hfp, hrank, hlocal⟩, rfl⟩
    refine ⟨?_, rfl⟩
    push Not
    exact ⟨rfl, hkey, hfp, hrank, hlocal⟩

/-! ## Fingerprints -/

/-- The members that may be left out. -/
def optionalFields (sprintNumber : Option ℤ) (priority : String) : List (String × List Char) :=
  (sprintNumber.toList.map fun n => ("s", (formatInt n).toList)) ++
    if priority = "" then [] else [("p", jsonText priority.toList)]

theorem jsonFieldsRest_priority_inj {p p' : String}
    (h : jsonFieldsRest (optionalFields none p) = jsonFieldsRest (optionalFields none p')) : p = p' := by
  simp only [optionalFields, Option.toList_none, List.map_nil, List.nil_append] at h
  split at h
  · rename_i hp
    split at h
    · rename_i hp'
      rw [hp, hp']
    · exact absurd h.symm jsonFieldsRest_cons_ne_nil
  · split at h
    · exact absurd h jsonFieldsRest_cons_ne_nil
    · have htext := (jsonFieldsRest_cons_inj h).2
      exact String.toList_injective (jsonText_append_inj htext).1

theorem optionalFields_some (n : ℤ) (priority : String) :
    optionalFields (some n) priority = ("s", (formatInt n).toList) :: optionalFields none priority := rfl

theorem jsonFieldsRest_sprint_ne {n : ℤ} {p p' : String} :
    jsonFieldsRest (optionalFields none p) ≠ jsonFieldsRest (optionalFields (some n) p') := by
  intro h
  rw [optionalFields_some] at h
  simp only [optionalFields, Option.toList_none, List.map_nil, List.nil_append] at h
  split at h
  · exact absurd h.symm jsonFieldsRest_cons_ne_nil
  · exact absurd (jsonFieldsRest_cons_inj h).1 (by decide)

theorem jsonFieldsRest_optional_inj {n n' : Option ℤ} {p p' : String}
    (h : jsonFieldsRest (optionalFields n p) = jsonFieldsRest (optionalFields n' p')) : n = n' ∧ p = p' := by
  cases n with
  | none =>
      cases n' with
      | none => exact ⟨rfl, jsonFieldsRest_priority_inj h⟩
      | some n' => exact absurd h jsonFieldsRest_sprint_ne
  | some n =>
      cases n' with
      | none => exact absurd h.symm jsonFieldsRest_sprint_ne
      | some n' =>
          rw [optionalFields_some, optionalFields_some] at h
          have hvalue := (jsonFieldsRest_cons_inj h).2
          have hends : ∀ p, EndsValue (jsonFieldsRest (optionalFields none p)) := by
            intro p
            have hends := endsValue_jsonFieldsRest (optionalFields none p) []
            rwa [List.append_nil] at hends
          obtain ⟨rfl, hrest⟩ := formatInt_append_inj (hends p) (hends p') hvalue
          exact ⟨rfl, jsonFieldsRest_priority_inj hrest⟩

/-- The text behind a fingerprint determines the query. -/
theorem fingerprintInput_inj {search search' : String} {tags tags' : List String} {n n' : Option ℤ}
    {p p' : String} (h : fingerprintInput search tags n p = fingerprintInput search' tags' n' p') :
    search = search' ∧ tags = tags' ∧ n = n' ∧ p = p' := by
  have hfields : ∀ (search : String) (tags : List String) (n : Option ℤ) (p : String),
      fingerprintInput search tags n p = '{' :: jsonText "q".toList ++ ':' :: (jsonText search.toList ++
        (',' :: jsonText "t".toList ++ ':' :: (jsonTexts tags ++ jsonFieldsRest (optionalFields n p)))) := by
    intro search tags n p
    simp [fingerprintInput, optionalFields, jsonFields, jsonFieldsRest]
  rw [hfields, hfields] at h
  have hsearch := List.cons.inj (List.append_cancel_left h)
  obtain ⟨hs, htags⟩ := jsonText_append_inj hsearch.2
  have htags := List.cons.inj (List.append_cancel_left htags)
  obtain ⟨ht, hrest⟩ := jsonTexts_append_inj htags.2
  obtain ⟨hn, hp⟩ := jsonFieldsRest_optional_inj hrest
  exact ⟨String.toList_injective hs, ht, hn, hp⟩

end Scrumboy
