import Scrumboy.Go.Int64
import Scrumboy.Go.Unicode.Tables
import Mathlib.Data.List.DropRight
import Mathlib.Data.List.Sort

/-!
# Strings

The operations of Go's `strings` and `strconv` packages that a store written in
Go performs on its texts. A text is a `String`, every operation works on its
list of characters, and `byteLen` is Go's `len`, which counts bytes.

Case conversion is the simple mapping of `unicode.ToLower` and
`unicode.ToUpper`: below 128 by arithmetic, above by the case tables. The facts
proved about it concern ASCII texts, which is where both directions undo each
other.
-/

namespace Go

/-- Membership of a code point in a category table. -/
def inRanges (rs : List (ℕ × ℕ)) (c : Char) : Bool :=
  rs.any fun r => r.1 ≤ c.toNat && c.toNat ≤ r.2

/-- `unicode.IsSpace`, the `White_Space` property. -/
def isSpace (c : Char) : Bool :=
  inRanges [(9, 13), (32, 32), (0x85, 0x85), (0xA0, 0xA0), (0x1680, 0x1680), (0x2000, 0x200A),
    (0x2028, 0x2029), (0x202F, 0x202F), (0x205F, 0x205F), (0x3000, 0x3000)] c

def isLetter (c : Char) : Bool := inRanges letterRanges c

def isDigit (c : Char) : Bool := inRanges digitRanges c

def isNumber (c : Char) : Bool := inRanges numberRanges c

def isMark (c : Char) : Bool := inRanges markRanges c

def isPrint (c : Char) : Bool := inRanges printRanges c

/-- The image of a character under a case table; a character that no range
covers is its own image. -/
def mapCase (rs : List CaseRange) (c : Char) : Char :=
  match rs.find? (fun r => r.covers c.toNat) with
  | some r => Char.ofNat ((c.toNat : ℤ) + r.delta).toNat
  | none => c

/-- `unicode.ToLower`. -/
def toLowerRune (c : Char) : Char :=
  if c.toNat < 128 then
    if 'A' ≤ c ∧ c ≤ 'Z' then Char.ofNat (c.toNat + 32) else c
  else mapCase lowerRanges c

/-- `unicode.ToUpper`. -/
def toUpperRune (c : Char) : Char :=
  if c.toNat < 128 then
    if 'a' ≤ c ∧ c ≤ 'z' then Char.ofNat (c.toNat - 32) else c
  else mapCase upperRanges c

/-- `strings.Map` for a mapping that drops no character. -/
def mapRunes (f : Char → Char) (s : String) : String := String.ofList (s.toList.map f)

/-- `strings.ToLower`. -/
def toLower (s : String) : String := mapRunes toLowerRune s

/-- `strings.ToUpper`. -/
def toUpper (s : String) : String := mapRunes toUpperRune s

/-- `strings.TrimFunc`. -/
def trimFunc (p : Char → Bool) (s : String) : String :=
  String.ofList ((s.toList.dropWhile p).rdropWhile p)

/-- `strings.TrimSpace`. -/
def trimSpace (s : String) : String := trimFunc isSpace s

/-- `strings.Trim` with a cutset of one character. -/
def trimChar (c : Char) (s : String) : String := trimFunc (· == c) s

/-- `strings.TrimRight` with a cutset of one character. -/
def trimRightChar (c : Char) (s : String) : String :=
  String.ofList (s.toList.rdropWhile (· == c))

/-- `strings.TrimSuffix` with a suffix of one character. -/
def trimSuffix (c : Char) (s : String) : String :=
  if s.toList.getLast? = some c then String.ofList s.toList.dropLast else s

/-- Go's `len` of a string. -/
def byteLen (s : String) : ℕ := s.utf8ByteSize

/-- The characters of `s[:n]`. A character that straddles the cut is dropped: a
text here never holds a broken encoding. -/
def takeBytesList : ℕ → List Char → List Char
  | _, [] => []
  | n, c :: cs => if c.utf8Size ≤ n then c :: takeBytesList (n - c.utf8Size) cs else []

def takeBytes (n : ℕ) (s : String) : String := String.ofList (takeBytesList n s.toList)

/-- The pieces of a list between the elements that satisfy `p`. There is one
piece more than there are separators. -/
def splitList (p : Char → Bool) : List Char → List (List Char)
  | [] => [[]]
  | c :: cs =>
      if p c then [] :: splitList p cs
      else match splitList p cs with
        | [] => [[c]]
        | w :: ws => (c :: w) :: ws

/-- `strings.Split` at a one-character separator. -/
def splitChar (c : Char) (s : String) : List String :=
  (splitList (· == c) s.toList).map String.ofList

/-- `strings.SplitN` at a one-character separator with a limit of two. -/
def splitTwo (c : Char) (s : String) : List String :=
  if c ∈ s.toList then
    [String.ofList (s.toList.takeWhile (· ≠ c)), String.ofList (s.toList.dropWhile (· ≠ c)).tail]
  else [s]

/-- `strings.Fields`. -/
def fields (s : String) : List String :=
  ((splitList isSpace s.toList).filter (· ≠ [])).map String.ofList

/-- `strings.Join`. -/
def join (sep : String) : List String → String
  | [] => ""
  | [s] => s
  | s :: t :: ss => s ++ sep ++ join sep (t :: ss)

/-- `strings.HasPrefix`. -/
def hasPrefix (s p : String) : Bool := p.toList.isPrefixOf s.toList

/-- `strings.CutPrefix`, with `none` for a missing prefix. -/
def cutPrefix (s p : String) : Option String :=
  if hasPrefix s p then some (String.ofList (s.toList.drop p.toList.length)) else none

/-- `sort.Strings`, which compares texts bytewise; on well-formed texts this is
the order of the code points. -/
def sortStrings (l : List String) : List String := l.insertionSort (· ≤ ·)

def hexDigit (n : ℕ) : Char :=
  if n < 10 then Char.ofNat (48 + n) else Char.ofNat (87 + n)

/-- The lower-case hexadecimal form of `n` in exactly `w` digits. -/
def hexPadded : ℕ → ℕ → List Char
  | 0, _ => []
  | w + 1, n => hexPadded w (n / 16) ++ [hexDigit (n % 16)]

/-- `strconv.FormatInt` to the base ten. -/
def formatInt (n : ℤ) : String := n.repr

/-- The value of a non-empty list of decimal digits. -/
def parseDigits : List Char → Option ℕ
  | [] => none
  | ds => ds.foldlM (fun n c => if '0' ≤ c ∧ c ≤ '9' then some (n * 10 + (c.toNat - 48)) else none) 0

/-- `strconv.ParseInt` to the base ten with 64 bits. -/
def parseInt (s : String) : Option ℤ :=
  let n := match s.toList with
    | '-' :: ds => (parseDigits ds).map fun n => -(n : ℤ)
    | '+' :: ds => (parseDigits ds).map fun n => (n : ℤ)
    | ds => (parseDigits ds).map fun n => (n : ℤ)
  n.filter fun n => -9223372036854775808 ≤ n && n ≤ 9223372036854775807

/-- One character of a `%q` literal, as `strconv.Quote` escapes it. -/
def quoteRune (c : Char) : List Char :=
  if c = '"' ∨ c = '\\' then ['\\', c]
  else if isPrint c then [c]
  else if c.toNat = 7 then ['\\', 'a']
  else if c.toNat = 8 then ['\\', 'b']
  else if c.toNat = 12 then ['\\', 'f']
  else if c.toNat = 10 then ['\\', 'n']
  else if c.toNat = 13 then ['\\', 'r']
  else if c.toNat = 9 then ['\\', 't']
  else if c.toNat = 11 then ['\\', 'v']
  else if c.toNat < 32 ∨ c.toNat = 127 then '\\' :: 'x' :: hexPadded 2 c.toNat
  else if c.toNat < 65536 then '\\' :: 'u' :: hexPadded 4 c.toNat
  else '\\' :: 'U' :: hexPadded 8 c.toNat

/-- `strconv.Quote`, the `%q` verb of `fmt`. -/
def quote (s : String) : String :=
  String.ofList ('"' :: s.toList.flatMap quoteRune ++ ['"'])

@[simp] theorem toList_mapRunes (f : Char → Char) (s : String) :
    (mapRunes f s).toList = s.toList.map f := by
  simp [mapRunes]

@[simp] theorem toList_trimFunc (p : Char → Bool) (s : String) :
    (trimFunc p s).toList = (s.toList.dropWhile p).rdropWhile p := by
  simp [trimFunc]

/-- A list that neither starts nor ends with a dropped character is left alone
by trimming. -/
theorem trim_eq_self_of_ends (p : Char → Bool) (l : List Char)
    (hhead : ∀ c, l.head? = some c → p c = false)
    (hlast : ∀ c, l.getLast? = some c → p c = false) :
    (l.dropWhile p).rdropWhile p = l := by
  cases l with
  | nil => simp
  | cons c cs =>
      have hc : p c = false := hhead c rfl
      rw [List.dropWhile_cons_of_neg (by simp [hc]), List.rdropWhile_eq_self_iff]
      intro hne
      have hget := hlast ((c :: cs).getLast hne) (List.getLast?_eq_some_getLast hne)
      simp [hget]

/-- Trimming leaves no dropped character in front. -/
theorem head_trim (p : Char → Bool) (l : List Char) (c : Char)
    (h : ((l.dropWhile p).rdropWhile p).head? = some c) : p c = false := by
  obtain ⟨t, ht⟩ := List.rdropWhile_prefix p (l.dropWhile p)
  have hhead : (l.dropWhile p).head? = some c := by
    rw [← ht]
    cases hl : (l.dropWhile p).rdropWhile p with
    | nil => simp [hl] at h
    | cons d ds => simpa [hl] using h
  have := List.head?_dropWhile_not p l
  rw [hhead] at this
  simpa using this

/-- Trimming leaves no dropped character at the end. -/
theorem getLast_rdropWhile (p : Char → Bool) (l : List Char) (c : Char)
    (h : (l.rdropWhile p).getLast? = some c) : p c = false := by
  rw [List.rdropWhile, List.getLast?_reverse] at h
  have := List.head?_dropWhile_not p l.reverse
  rw [h] at this
  simpa using this

theorem trimFunc_eq_self_of_ends (p : Char → Bool) (s : String)
    (hhead : ∀ c, s.toList.head? = some c → p c = false)
    (hlast : ∀ c, s.toList.getLast? = some c → p c = false) :
    trimFunc p s = s := by
  rw [trimFunc, trim_eq_self_of_ends p s.toList hhead hlast, String.ofList_toList]

@[simp] theorem trimFunc_trimFunc (p : Char → Bool) (s : String) :
    trimFunc p (trimFunc p s) = trimFunc p s := by
  apply trimFunc_eq_self_of_ends
  · intro c hc
    exact head_trim p s.toList c (by simpa using hc)
  · intro c hc
    exact getLast_rdropWhile p _ c (by simpa using hc)

@[simp] theorem trimSpace_trimSpace (s : String) :
    trimSpace (trimSpace s) = trimSpace s := trimFunc_trimFunc isSpace s

/-- A text without white space is its own trimmed form. -/
theorem trimSpace_eq_self (s : String) (h : ∀ c ∈ s.toList, isSpace c = false) :
    trimSpace s = s := by
  apply trimFunc_eq_self_of_ends
  · intro c hc
    exact h c (List.mem_of_head? hc)
  · intro c hc
    exact h c (List.mem_of_getLast? hc)

/-- A mapping that fixes every character of a text fixes the text. -/
theorem mapRunes_eq_self (f : Char → Char) (s : String) (h : ∀ c ∈ s.toList, f c = c) :
    mapRunes f s = s := by
  rw [mapRunes, List.map_congr_left h, List.map_id', String.ofList_toList]

/-- A property of the ASCII characters is settled by looking at the 128 of them. -/
theorem forall_ascii {P : Char → Prop} (h : ∀ n < 128, P (Char.ofNat n)) (c : Char)
    (hc : c.toNat < 128) : P c := by
  have := h c.toNat hc
  rwa [Char.ofNat_toNat] at this

theorem toNat_ofNat_le (n : ℕ) : (Char.ofNat n).toNat = n ∨ (Char.ofNat n).toNat = 0 := by
  by_cases hvalid : n.isValidChar
  · have hof : Char.ofNat n = Char.ofNatAux n hvalid := dif_pos hvalid
    exact .inl (by rw [hof]; rfl)
  · exact .inr (congrArg Char.toNat (dif_neg hvalid))

/-- A lower-case form is never a capital letter of ASCII. -/
theorem toLowerRune_not_capital (c : Char) : ¬ ('A' ≤ toLowerRune c ∧ toLowerRune c ≤ 'Z') := by
  by_cases hascii : c.toNat < 128
  · exact forall_ascii (P := fun c => ¬ ('A' ≤ toLowerRune c ∧ toLowerRune c ≤ 'Z')) (by decide) c hascii
  · have hrune : 90 < (toLowerRune c).toNat ∨ (toLowerRune c).toNat = 0 := by
      rw [toLowerRune, if_neg hascii, mapCase]
      split
      · rename_i r hfind
        -- every range of the table ends up above the capital letters
        have htable : ∀ r ∈ lowerRanges, 90 < (r.lo : ℤ) + r.delta := by decide +kernel
        have hr := htable r (List.mem_of_find?_eq_some hfind)
        have hcovers := List.find?_some hfind
        simp only [CaseRange.covers, Bool.and_eq_true, decide_eq_true_eq] at hcovers
        rcases toNat_ofNat_le ((c.toNat : ℤ) + r.delta).toNat with heq | heq
        · rw [heq]
          omega
        · exact .inr heq
      · omega
    rintro ⟨hlow, hhigh⟩
    have hlow : 65 ≤ (toLowerRune c).toNat := hlow
    have hhigh : (toLowerRune c).toNat ≤ 90 := hhigh
    omega

theorem mapRunes_mapRunes (f g : Char → Char) (s : String) :
    mapRunes f (mapRunes g s) = mapRunes (f ∘ g) s := by
  simp [mapRunes]

theorem hexDigit_inj {m n : ℕ} (hm : m < 16) (hn : n < 16) (h : hexDigit m = hexDigit n) :
    m = n := by
  have hall : ∀ m < 16, ∀ n < 16, hexDigit m = hexDigit n → m = n := by decide
  exact hall m hm n hn h

@[simp] theorem length_hexPadded (w n : ℕ) : (hexPadded w n).length = w := by
  induction w generalizing n with
  | zero => rfl
  | succ w ih => simp [hexPadded, ih]

/-- In enough digits, the hexadecimal form determines the number. -/
theorem hexPadded_inj {w m n : ℕ} (hm : m < 16 ^ w) (hn : n < 16 ^ w)
    (h : hexPadded w m = hexPadded w n) : m = n := by
  induction w generalizing m n with
  | zero => omega
  | succ w ih =>
      have happ := List.append_inj h (by simp)
      have hdigit := hexDigit_inj (Nat.mod_lt m (by decide)) (Nat.mod_lt n (by decide))
        (List.singleton_inj.mp happ.2)
      have hrest := ih (m := m / 16) (n := n / 16) (by omega) (by omega) happ.1
      omega

/-! ## Numbers as texts -/

theorem splitTwo_of_not_mem {c : Char} {s t : String} (h : c ∉ s.toList) :
    splitTwo c (s ++ String.singleton c ++ t) = [s, t] := by
  have hall : ∀ d ∈ s.toList, decide (d ≠ c) = true := by
    intro d hd
    exact decide_eq_true fun heq => h (heq ▸ hd)
  have htext : (s ++ String.singleton c ++ t).toList = s.toList ++ c :: t.toList := by simp
  rw [splitTwo, htext, if_pos (by simp), List.takeWhile_append_of_pos hall,
    List.dropWhile_append_of_pos hall, List.takeWhile_cons_of_neg (by simp),
    List.dropWhile_cons_of_neg (by simp)]
  simp

theorem digitChar_spec : ∀ d : ℕ, d < 10 → ('0' ≤ d.digitChar ∧ d.digitChar ≤ '9') ∧
    d.digitChar.toNat - 48 = d := by decide

/-- The digits of a number are read back. -/
theorem parseDigits_toDigits (n : ℕ) : parseDigits (Nat.toDigits 10 n) = some n := by
  have hfold : ∀ n, (Nat.toDigits 10 n).foldlM (fun n c => if '0' ≤ c ∧ c ≤ '9' then
      some (n * 10 + (c.toNat - 48)) else none) 0 = some n := by
    intro n
    induction n using Nat.strong_induction_on with
    | _ n ih =>
      rw [Nat.toDigits_eq_if (by decide)]
      split
      · rename_i hlt
        obtain ⟨hdigit, hvalue⟩ := digitChar_spec n hlt
        simp [hdigit, hvalue]
      · rename_i hle
        obtain ⟨hdigit, hvalue⟩ := digitChar_spec (n % 10) (Nat.mod_lt _ (by decide))
        have hn : n / 10 * 10 + n % 10 = n := by omega
        rw [List.foldlM_append, ih (n / 10) (by omega)]
        simp [hdigit, hvalue, hn]
  cases hdigits : Nat.toDigits 10 n with
  | nil => exact absurd hdigits Nat.toDigits_ne_nil
  | cons c cs =>
      rw [parseDigits, ← hdigits]
      · exact hfold n
      · simp

theorem toList_formatInt (n : ℤ) : (formatInt n).toList =
    if n < 0 then '-' :: Nat.toDigits 10 n.natAbs else Nat.toDigits 10 n.natAbs := by
  cases n with
  | ofNat m =>
      have hpos : ¬ Int.ofNat m < 0 := by simp
      rw [if_neg hpos, formatInt, Int.repr, Nat.repr_eq_ofList_toDigits, String.toList_ofList]
      rfl
  | negSucc m =>
      have hrepr : formatInt (Int.negSucc m) = "-" ++ Nat.repr (m + 1) := rfl
      rw [if_pos (Int.negSucc_lt_zero m), hrepr, Nat.repr_eq_ofList_toDigits]
      simp

theorem isDigit_of_mem_formatInt {n : ℤ} {c : Char} (h : c ∈ (formatInt n).toList) :
    c = '-' ∨ c.isDigit = true := by
  rw [toList_formatInt] at h
  split at h
  · rcases List.mem_cons.mp h with rfl | h
    · exact .inl rfl
    · exact .inr (Nat.isDigit_of_mem_toDigits (by decide) (by decide) h)
  · exact .inr (Nat.isDigit_of_mem_toDigits (by decide) (by decide) h)

theorem isSpace_of_isDigit {c : Char} (h : c.isDigit = true) : isSpace c = false := by
  simp only [Char.isDigit, Bool.and_eq_true, decide_eq_true_eq] at h
  have hlow : 48 ≤ c.toNat := h.1
  have hhigh : c.toNat ≤ 57 := h.2
  simp only [isSpace, inRanges, List.any_cons, List.any_nil, Bool.or_false, Bool.or_eq_false_iff,
    Bool.and_eq_false_iff, decide_eq_false_iff_not]
  omega

/-- A number reads back as itself, if it has 64 bits. -/
theorem parseInt_formatInt_filter (n : ℤ) : parseInt (formatInt n) =
    (some n).filter fun n => -9223372036854775808 ≤ n && n ≤ 9223372036854775807 := by
  unfold parseInt
  rw [toList_formatInt]
  by_cases hneg : n < 0
  · have habs : -|n| = n := by rw [abs_of_neg hneg, neg_neg]
    simp [hneg, parseDigits_toDigits, habs]
  · have habs : ((n.natAbs : ℕ) : ℤ) = n := by omega
    cases hdigits : Nat.toDigits 10 n.natAbs with
    | nil => exact absurd hdigits Nat.toDigits_ne_nil
    | cons c cs =>
        have hc : c.isDigit = true := Nat.isDigit_of_mem_toDigits (by decide) (by decide)
          (hdigits ▸ List.mem_cons_self)
        have hread := parseDigits_toDigits n.natAbs
        rw [hdigits] at hread
        rw [if_neg hneg]
        split
        · rename_i ds heq
          rw [List.cons.injEq] at heq
          rw [heq.1] at hc
          simp at hc
        · rename_i ds heq
          rw [List.cons.injEq] at heq
          rw [heq.1] at hc
          simp at hc
        · simp [hread, habs]

theorem parseInt_formatInt {n : ℤ} (h : IsInt64 n) : parseInt (formatInt n) = some n := by
  unfold IsInt64 minInt64 maxInt64 at h
  rw [parseInt_formatInt_filter]
  simp [h]

theorem eq_of_parseInt_formatInt {n m : ℤ} (h : parseInt (formatInt n) = some m) : m = n := by
  rw [parseInt_formatInt_filter, Option.filter_eq_some_iff] at h
  exact (Option.some.inj h.1).symm

/-! ## Lengths -/

theorem byteLen_append (s t : String) : byteLen (s ++ t) = byteLen s + byteLen t := by
  unfold byteLen
  exact String.utf8ByteSize_append

theorem byteLen_ofList (l : List Char) : byteLen (String.ofList l) = (l.map Char.utf8Size).sum := by
  induction l with
  | nil =>
      unfold byteLen
      rfl
  | cons c l ih =>
      have hc : byteLen (String.ofList [c]) = c.utf8Size := by
        unfold byteLen
        simp
      rw [← List.singleton_append, String.ofList_append, byteLen_append, ih, hc]
      simp

theorem byteLen_eq_sum (s : String) : byteLen s = (s.toList.map Char.utf8Size).sum := by
  rw [← byteLen_ofList, String.ofList_toList]

theorem sum_takeBytesList_le (n : ℕ) (l : List Char) :
    ((takeBytesList n l).map Char.utf8Size).sum ≤ min n (l.map Char.utf8Size).sum := by
  induction l generalizing n with
  | nil => simp [takeBytesList]
  | cons c l ih =>
      rw [takeBytesList]
      split
      · have := ih (n - c.utf8Size)
        simp only [List.map_cons, List.sum_cons]
        omega
      · simp

theorem takeBytesList_of_sum_le {n : ℕ} {l : List Char} (h : (l.map Char.utf8Size).sum ≤ n) :
    takeBytesList n l = l := by
  induction l generalizing n with
  | nil => rfl
  | cons c l ih =>
      simp only [List.map_cons, List.sum_cons] at h
      rw [takeBytesList, if_pos (by omega), ih (by omega)]

/-- A text within the limit is not cut. -/
theorem takeBytes_of_byteLen_le {n : ℕ} {s : String} (h : byteLen s ≤ n) : takeBytes n s = s := by
  unfold takeBytes
  rw [byteLen_eq_sum] at h
  rw [takeBytesList_of_sum_le h, String.ofList_toList]

theorem byteLen_takeBytes_le (n : ℕ) (s : String) : byteLen (takeBytes n s) ≤ min n (byteLen s) := by
  unfold takeBytes
  rw [byteLen_ofList, byteLen_eq_sum s]
  exact sum_takeBytesList_le n s.toList
/-! A comparison of two records of texts must not start to compute with the
texts, so the operations are opaque to unification. -/

attribute [irreducible] mapRunes toLower toUpper trimFunc trimSpace trimChar trimRightChar trimSuffix
  takeBytes splitChar splitTwo fields join cutPrefix sortStrings quote byteLen formatInt parseInt

theorem takeBytesList_isPrefix (n : ℕ) (l : List Char) : takeBytesList n l <+: l := by
  induction l generalizing n with
  | nil => exact List.nil_prefix
  | cons c l ih =>
      rw [takeBytesList]
      split
      · exact (List.prefix_cons_inj c).mpr (ih _)
      · exact List.nil_prefix

theorem byteLen_le_of_prefix {s t : String} (h : s.toList <+: t.toList) : byteLen s ≤ byteLen t := by
  obtain ⟨r, hr⟩ := h
  rw [byteLen_eq_sum, byteLen_eq_sum, ← hr, List.map_append, List.sum_append]
  exact Nat.le_add_right _ _

end Go
