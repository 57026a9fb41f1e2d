import Scrumboy.Go.Strings

/-!
# Base64 without padding

`base64.RawURLEncoding` of the standard library: three bytes become four characters of
the alphabet that is safe in a URL, and one or two bytes at the end become two or three
characters. The decoder skips line breaks, does not look at the bits of the last
character that no byte uses, and rejects a single character that is left over.

Bytes are numbers below 256. A text that was decoded is kept as one character for each
byte, which for a text of ASCII characters is the text itself.
-/

namespace Go

/-- The character of six bits in the URL-safe alphabet. -/
def base64Char (n : ℕ) : Char :=
  if n < 26 then Char.ofNat (65 + n)
  else if n < 52 then Char.ofNat (71 + n)
  else if n < 62 then Char.ofNat (n - 4)
  else if n = 62 then '-' else '_'

def base64Value (c : Char) : Option ℕ :=
  if 'A' ≤ c ∧ c ≤ 'Z' then some (c.toNat - 65)
  else if 'a' ≤ c ∧ c ≤ 'z' then some (c.toNat - 71)
  else if '0' ≤ c ∧ c ≤ '9' then some (c.toNat + 4)
  else if c = '-' then some 62
  else if c = '_' then some 63 else none

/-- The bits of some bytes in groups of six, filled up with zeros at the end. -/
def sextets : List ℕ → List ℕ
  | a :: b :: c :: rest =>
      a / 4 :: (a % 4 * 16 + b / 16) :: (b % 16 * 4 + c / 64) :: c % 64 :: sextets rest
  | [a, b] => [a / 4, a % 4 * 16 + b / 16, b % 16 * 4]
  | [a] => [a / 4, a % 4 * 16]
  | [] => []

/-- The bytes of groups of six bits. -/
def octets : List ℕ → Option (List ℕ)
  | a :: b :: c :: d :: rest =>
      (octets rest).map fun bs =>
        (a * 4 + b / 16) :: (b % 16 * 16 + c / 4) :: (c % 4 * 64 + d) :: bs
  | [a, b, c] => some [a * 4 + b / 16, b % 16 * 16 + c / 4]
  | [a, b] => some [a * 4 + b / 16]
  | [_] => none
  | [] => some []

/-- The bytes of a text in UTF-8. -/
def utf8Bytes (s : String) : List ℕ := (s.toList.flatMap String.utf8EncodeChar).map UInt8.toNat

/-- `RawURLEncoding.EncodeToString`. -/
def encodeBytesToString (bs : List ℕ) : String := String.ofList ((sextets bs).map base64Char)

/-- `RawURLEncoding.EncodeToString` of the bytes of a text. -/
def encodeToString (s : String) : String := encodeBytesToString (utf8Bytes s)

/-- `RawURLEncoding.DecodeString`. -/
def decodeString (s : String) : Option String := do
  let values ← (s.toList.filter fun c => c ≠ '\n' && c ≠ '\r').mapM base64Value
  let bytes ← octets values
  pure (String.ofList (bytes.map Char.ofNat))

theorem octets_sextets {bs : List ℕ} (h : ∀ b ∈ bs, b < 256) : octets (sextets bs) = some bs := by
  induction bs using sextets.induct with
  | case1 a b c rest ih =>
      have ha := h a (by simp)
      have hb := h b (by simp)
      have hc := h c (by simp)
      rw [sextets, octets, ih fun b hb => h b (by simp [hb]), Option.map_some]
      simp only [Option.some.injEq, List.cons.injEq, and_true]
      omega
  | case2 a b =>
      have ha := h a (by simp)
      have hb := h b (by simp)
      simp only [sextets, octets, Option.some.injEq, List.cons.injEq, and_true]
      omega
  | case3 a =>
      have ha := h a (by simp)
      simp only [sextets, octets, Option.some.injEq, List.cons.injEq, and_true]
      omega
  | case4 => rfl

theorem sextets_lt {bs : List ℕ} (h : ∀ b ∈ bs, b < 256) : ∀ n ∈ sextets bs, n < 64 := by
  induction bs using sextets.induct with
  | case1 a b c rest ih =>
      have ha := h a (by simp)
      have hb := h b (by simp)
      have hc := h c (by simp)
      have hrest := ih fun b hb => h b (by simp [hb])
      intro n hn
      rw [sextets] at hn
      simp only [List.mem_cons] at hn
      rcases hn with rfl | rfl | rfl | rfl | hn
      · omega
      · omega
      · omega
      · omega
      · exact hrest n hn
  | case2 a b =>
      have ha := h a (by simp)
      have hb := h b (by simp)
      simp only [sextets, List.mem_cons, List.not_mem_nil, or_false]
      omega
  | case3 a =>
      have ha := h a (by simp)
      simp only [sextets, List.mem_cons, List.not_mem_nil, or_false]
      omega
  | case4 => simp [sextets]

theorem base64Value_base64Char : ∀ n < 64, base64Value (base64Char n) = some n := by decide

theorem base64Char_ne : ∀ n < 64,
    (base64Char n ≠ '\n' && base64Char n ≠ '\r') = true ∧ isSpace (base64Char n) = false := by
  decide +kernel

theorem mapM_base64Value {ns : List ℕ} (h : ∀ n ∈ ns, n < 64) :
    (ns.map base64Char).mapM base64Value = some ns := by
  induction ns with
  | nil => rfl
  | cons n ns ih =>
      have hrest := ih fun m hm => h m (List.mem_cons_of_mem _ hm)
      rw [List.map_cons, List.mapM_cons, base64Value_base64Char n (h n List.mem_cons_self), hrest]
      rfl

theorem utf8Bytes_of_ascii {s : String} (h : ∀ c ∈ s.toList, c.toNat < 128) :
    utf8Bytes s = s.toList.map Char.toNat := by
  unfold utf8Bytes
  generalize s.toList = l at h
  induction l with
  | nil => rfl
  | cons c l ih =>
      have hc := h c List.mem_cons_self
      have hrest := ih fun d hd => h d (List.mem_cons_of_mem _ hd)
      have hchar : (String.utf8EncodeChar c).map UInt8.toNat = [c.toNat] := by
        have hval : c.val.toNat ≤ 127 := Nat.le_of_lt_succ hc
        rw [String.utf8EncodeChar, if_pos hval, List.map_singleton, UInt8.toNat_ofNat',
          Nat.mod_eq_of_lt (by omega)]
        rfl
      rw [List.flatMap_cons, List.map_append, hrest, hchar, List.map_cons]
      rfl

/-- A text of ASCII characters comes back from its encoding. -/
theorem decodeString_encodeToString {s : String} (h : ∀ c ∈ s.toList, c.toNat < 128) :
    decodeString (encodeToString s) = some s := by
  have hbytes := utf8Bytes_of_ascii h
  have hlt : ∀ b ∈ utf8Bytes s, b < 256 := by
    rw [hbytes]
    intro b hb
    obtain ⟨c, hc, rfl⟩ := List.mem_map.mp hb
    have := h c hc
    omega
  have hsextets := sextets_lt hlt
  have hfilter : (((sextets (utf8Bytes s)).map base64Char).filter fun c => c ≠ '\n' && c ≠ '\r') =
      (sextets (utf8Bytes s)).map base64Char := by
    apply List.filter_eq_self.mpr
    intro c hc
    obtain ⟨n, hn, rfl⟩ := List.mem_map.mp hc
    exact (base64Char_ne n (hsextets n hn)).1
  have htext : String.ofList ((utf8Bytes s).map Char.ofNat) = s := by
    rw [hbytes, List.map_map]
    simp [Function.comp_def]
  simp only [decodeString, encodeToString, encodeBytesToString, String.toList_ofList, hfilter]
  rw [mapM_base64Value hsextets]
  simp [octets_sextets hlt, htext]

theorem encodeBytesToString_inj {bs bs' : List ℕ} (h : ∀ b ∈ bs, b < 256) (h' : ∀ b ∈ bs', b < 256)
    (heq : encodeBytesToString bs = encodeBytesToString bs') : bs = bs' := by
  have hvalues := mapM_base64Value (sextets_lt h)
  rw [String.ofList_injective heq, mapM_base64Value (sextets_lt h'), Option.some.injEq] at hvalues
  have hbytes := octets_sextets h
  rw [← hvalues, octets_sextets h', Option.some.injEq] at hbytes
  exact hbytes.symm

theorem length_sextets (bs : List ℕ) : (sextets bs).length ≤ 4 * ((bs.length + 2) / 3) := by
  induction bs using sextets.induct with
  | case1 a b c rest ih =>
      simp only [sextets, List.length_cons]
      omega
  | case2 a b => simp [sextets]
  | case3 a => simp [sextets]
  | case4 => simp [sextets]

/-- An encoding has no blanks. -/
theorem trimSpace_encodeBytesToString {bs : List ℕ} (h : ∀ b ∈ bs, b < 256) :
    trimSpace (encodeBytesToString bs) = encodeBytesToString bs := by
  apply trimSpace_eq_self
  intro c hc
  rw [encodeBytesToString, String.toList_ofList] at hc
  obtain ⟨n, hn, rfl⟩ := List.mem_map.mp hc
  exact (base64Char_ne n (sextets_lt h n hn)).2

theorem utf8Bytes_lt {s : String} {b : ℕ} (hb : b ∈ utf8Bytes s) : b < 256 := by
  obtain ⟨c, _, rfl⟩ := List.mem_map.mp hb
  exact c.toNat_lt

/-- The encoding of a text is not blank. -/
theorem trimSpace_encodeToString_ne {s : String} (h : ∀ c ∈ s.toList, c.toNat < 128) (hs : s ≠ "") :
    trimSpace (encodeToString s) ≠ "" := by
  rw [encodeToString, trimSpace_encodeBytesToString fun b hb => utf8Bytes_lt hb]
  intro hempty
  have hdecode := decodeString_encodeToString h
  rw [encodeToString, hempty] at hdecode
  exact hs (Option.some.inj hdecode).symm

end Go
