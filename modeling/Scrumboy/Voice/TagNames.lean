import Scrumboy.Store.Tags
import Scrumboy.Text.Canonical
import Scrumboy.Web.ScriptText

/-!
# Names of tags before they are sent

The client tests a name before it sends it, and the server decides. The server counts characters
when they are in lower case and composed again, the client counts them before that, so it refuses
names that the server takes.
-/

set_option linter.dupNamespace false

namespace Scrumboy

open Go Canonical

/-! ## The client -/

def maxTagCodePoints : ℕ := 32

def normalizeSeparators (nfc : String → String) (input : String) : String :=
  trimChar '-' (replaceRuns (· == '-') '-' (replaceRuns isSpace '-' (nfc (trimScript input))))

/-- One character of the loop of `hasValidTagStructure`, which carries `hasBaseInSegment`. -/
def tagStructureStep (hasBase : Bool) (c : Char) : Option Bool :=
  if c = '-' then some false
  else if isLetter c || isNumber c then some true
  else if isMark c && hasBase then some hasBase
  else none

def hasValidTagStructure (value : String) : Bool :=
  if value = "" ∨ maxTagCodePoints < value.length then false
  else value.toList.foldlM tagStructureStep false == some true

def isTagNameCandidate (nfc : String → String) (input : String) : Bool :=
  hasValidTagStructure (normalizeSeparators nfc input)

/-! ## Classes of characters -/

/-- What a character is for a tag name. -/
inductive TagClass
  | separator
  | base
  | mark
  | other
  deriving DecidableEq

def isTagSeparator (c : Char) : Bool := isSpace c || c == '-'

def tagClass (c : Char) : TagClass :=
  if isTagSeparator c then .separator
  else if isLetter c || isNumber c then .base
  else if isMark c then .mark
  else .other

def separatorRanges : List (ℕ × ℕ) :=
  [(9, 13), (32, 32), (0x85, 0x85), (0xA0, 0xA0), (0x1680, 0x1680), (0x2000, 0x200A),
    (0x2028, 0x2029), (0x202F, 0x202F), (0x205F, 0x205F), (0x3000, 0x3000), (45, 45)]

def baseRanges : List (ℕ × ℕ) := letterRanges ++ numberRanges

theorem isTagSeparator_eq (c : Char) : isTagSeparator c = inRanges separatorRanges c := by
  have hhyphen : (c == '-') = (45 ≤ c.toNat && c.toNat ≤ 45) := by
    rw [Bool.eq_iff_iff, beq_iff_eq, Bool.and_eq_true, decide_eq_true_eq, decide_eq_true_eq,
      ← le_antisymm_iff]
    exact ⟨fun h => h ▸ rfl, fun h => Char.toNat_inj.mp h.symm⟩
  rw [isTagSeparator, hhyphen, isSpace]
  simp [inRanges, separatorRanges, Bool.or_assoc]

theorem isBase_eq (c : Char) : (isLetter c || isNumber c) = inRanges baseRanges c := by
  simp [isLetter, isNumber, inRanges, baseRanges]

/-- An interval of code points lies in one of a table, or meets none of it. -/
def covered (rs : List (ℕ × ℕ)) (lo hi : ℕ) : Bool := rs.any fun r => r.1.ble lo && hi.ble r.2

def missed (rs : List (ℕ × ℕ)) (lo hi : ℕ) : Bool := rs.all fun r => r.2.blt lo || hi.blt r.1

section

variable {rs : List (ℕ × ℕ)} {lo hi : ℕ} {c d : Char}

theorem inRanges_of_covered (h : covered rs lo hi = true) (hlo : lo ≤ c.toNat) (hhi : c.toNat ≤ hi) :
    inRanges rs c = true := by
  simp only [covered, List.any_eq_true, Bool.and_eq_true, Nat.ble_eq] at h
  obtain ⟨r, hr, hfrom, hto⟩ := h
  simp only [inRanges, List.any_eq_true, Bool.and_eq_true, decide_eq_true_eq]
  exact ⟨r, hr, by omega, by omega⟩

theorem inRanges_of_missed (h : missed rs lo hi = true) (hlo : lo ≤ c.toNat) (hhi : c.toNat ≤ hi) :
    inRanges rs c = false := by
  simp only [missed, List.all_eq_true, Bool.or_eq_true, Nat.blt_eq] at h
  simp only [inRanges, List.any_eq_false, Bool.and_eq_true, decide_eq_true_eq, not_and, not_le]
  intro r hr hfrom
  have hapart := h r hr
  omega

/-- Two intervals of one class: of letters and numbers, or of characters that no tag has. -/
def sameTagClass (lo hi lo' hi' : ℕ) : Bool :=
  missed separatorRanges lo hi && missed separatorRanges lo' hi' &&
    (covered baseRanges lo hi && covered baseRanges lo' hi' ||
      missed baseRanges lo hi && missed baseRanges lo' hi' &&
        missed markRanges lo hi && missed markRanges lo' hi')

theorem tagClass_eq_of_same {lo' hi' : ℕ} (h : sameTagClass lo hi lo' hi' = true) (hc : lo ≤ c.toNat)
    (hc' : c.toNat ≤ hi) (hd : lo' ≤ d.toNat) (hd' : d.toNat ≤ hi') : tagClass d = tagClass c := by
  simp only [sameTagClass, Bool.and_eq_true, Bool.or_eq_true] at h
  obtain ⟨⟨hsep, hsep'⟩, ⟨hbase, hbase'⟩ | ⟨⟨⟨hbase, hbase'⟩, hmark⟩, hmark'⟩⟩ := h
  · simp [tagClass, isTagSeparator_eq, isBase_eq, inRanges_of_missed hsep hc hc',
      inRanges_of_missed hsep' hd hd', inRanges_of_covered hbase hc hc', inRanges_of_covered hbase' hd hd']
  · simp [tagClass, isTagSeparator_eq, isBase_eq, isMark, inRanges_of_missed hsep hc hc',
      inRanges_of_missed hsep' hd hd', inRanges_of_missed hbase hc hc', inRanges_of_missed hbase' hd hd',
      inRanges_of_missed hmark hc hc', inRanges_of_missed hmark' hd hd']

end

/-- Where a case range sends a code point. -/
def caseImage (r : CaseRange) (n : ℕ) : ℕ := ((n : ℤ) + r.delta).toNat

/-- The class is kept, by the range as a whole or at each of its code points. -/
def keepsTagClass (r : CaseRange) : Bool :=
  sameTagClass r.lo r.hi (caseImage r r.lo) (caseImage r r.hi) ||
    (List.range' r.lo (r.hi + 1 - r.lo)).all fun n =>
      !r.covers n || sameTagClass n n (caseImage r n) (caseImage r n)

/-- The ranges lie among letters and numbers, and so do their images. Both tables go up, so a
part of the table is enough for the ranges that are left, and for images that are not below. -/
def keepsBase : List (ℕ × ℕ) → List CaseRange → Bool
  | _, [] => true
  | table, r :: rs =>
      let table := table.dropWhile fun b => b.2.blt r.lo
      let lo := caseImage r r.lo
      let hi := caseImage r r.hi
      (missed separatorRanges r.lo r.hi && missed separatorRanges lo hi && covered table r.lo r.hi &&
          covered (if r.lo.ble lo then table else baseRanges) lo hi || keepsTagClass r) && keepsBase table rs

theorem covered_mono {rs rs' : List (ℕ × ℕ)} (hsub : rs ⊆ rs') {lo hi : ℕ} (h : covered rs lo hi = true) :
    covered rs' lo hi = true := by
  rw [covered, List.any_eq_true] at h ⊢
  obtain ⟨r, hr, hin⟩ := h
  exact ⟨r, hsub hr, hin⟩

theorem keepsTagClass_of_keepsBase {table : List (ℕ × ℕ)} {rs : List CaseRange}
    (hsub : table ⊆ baseRanges) (h : keepsBase table rs = true) : ∀ r ∈ rs, keepsTagClass r = true := by
  induction rs generalizing table with
  | nil => exact fun _ hr => nomatch hr
  | cons r rs ih =>
      simp only [keepsBase, Bool.and_eq_true, Bool.or_eq_true] at h
      obtain ⟨hr, hrest⟩ := h
      have hdrop : table.dropWhile (fun b => b.2.blt r.lo) ⊆ baseRanges := fun b hb =>
        hsub (List.dropWhile_subset _ hb)
      refine List.forall_mem_cons.mpr ⟨?_, ih hdrop hrest⟩
      rcases hr with ⟨⟨⟨hsep, hsep'⟩, hbase⟩, himage⟩ | hr
      · have himage : covered baseRanges (caseImage r r.lo) (caseImage r r.hi) = true := by
          split at himage
          · exact covered_mono hdrop himage
          · exact himage
        simp [keepsTagClass, sameTagClass, hsep, hsep', covered_mono hdrop hbase, himage]
      · exact hr

theorem keepsTagClass_lowerRanges : ∀ r ∈ lowerRanges, keepsTagClass r = true :=
  keepsTagClass_of_keepsBase (List.subset_append_left letterRanges numberRanges) (by decide +kernel)

theorem caseImage_valid : ∀ r ∈ lowerRanges, caseImage r r.hi < 55296 ∨
    57343 < caseImage r r.lo ∧ caseImage r r.hi < 1114112 := by
  decide +kernel

theorem caseImage_mono (r : CaseRange) {m n : ℕ} (h : m ≤ n) : caseImage r m ≤ caseImage r n := by
  unfold caseImage
  omega

theorem toNat_ofNat {n : ℕ} (h : n.isValidChar) : (Char.ofNat n).toNat = n := by
  rw [Char.ofNat, dif_pos h]
  rfl

/-- Lower case changes no class. -/
theorem tagClass_toLowerRune (c : Char) : tagClass (toLowerRune c) = tagClass c := by
  by_cases hascii : c.toNat < 128
  · rw [toLowerRune, if_pos hascii]
    split_ifs with hcapital
    · have hlow : 65 ≤ c.toNat := hcapital.1
      have hhigh : c.toNat ≤ 90 := hcapital.2
      have himage : (Char.ofNat (c.toNat + 32)).toNat = c.toNat + 32 := toNat_ofNat (.inl (by omega))
      have hsame : sameTagClass 65 90 97 122 = true := by decide +kernel
      exact tagClass_eq_of_same hsame hlow hhigh (by omega) (by omega)
    · rfl
  · rw [toLowerRune, if_neg hascii, mapCase]
    split
    · next r hfind =>
      have hr := List.mem_of_find?_eq_some hfind
      have hcovers := List.find?_some hfind
      have hbounds : r.lo ≤ c.toNat ∧ c.toNat ≤ r.hi := by
        simp only [CaseRange.covers, Bool.and_eq_true, decide_eq_true_eq] at hcovers
        exact hcovers.1
      have hlow : caseImage r r.lo ≤ caseImage r c.toNat := caseImage_mono r hbounds.1
      have hhigh : caseImage r c.toNat ≤ caseImage r r.hi := caseImage_mono r hbounds.2
      have himage : (Char.ofNat (caseImage r c.toNat)).toNat = caseImage r c.toNat := by
        refine toNat_ofNat ?_
        rcases caseImage_valid r hr with hvalid | ⟨hfrom, hto⟩
        · exact .inl (by omega)
        · exact .inr ⟨by omega, by omega⟩
      have hkeeps := keepsTagClass_lowerRanges r hr
      rw [keepsTagClass, Bool.or_eq_true, List.all_eq_true] at hkeeps
      change tagClass (Char.ofNat (caseImage r c.toNat)) = tagClass c
      rcases hkeeps with hrange | hpoints
      · exact tagClass_eq_of_same hrange hbounds.1 hbounds.2 (by omega) (by omega)
      · have hpoint := hpoints c.toNat (List.mem_range'_1.mpr ⟨hbounds.1, by omega⟩)
        rw [hcovers, Bool.not_true, Bool.false_or] at hpoint
        exact tagClass_eq_of_same hpoint le_rfl le_rfl himage.ge himage.le
    · rfl

/-! ## The shape of a name -/

/-- How far a name has been read: between two segments, in a segment, or not a name. -/
inductive TagShape
  | gap (seen : Bool)
  | segment
  | refused
  deriving DecidableEq

def TagShape.read : TagShape → TagClass → TagShape
  | .refused, _ => .refused
  | .gap seen, .separator => .gap seen
  | .segment, .separator => .gap true
  | _, .base => .segment
  | .segment, .mark => .segment
  | .gap _, .mark => .refused
  | _, .other => .refused

def TagShape.step (s : TagShape) (c : Char) : TagShape := s.read (tagClass c)

/-- Segments of letters and numbers with their marks, one at least. -/
def TagShape.Named (s : TagShape) : Prop := s = .gap true ∨ s = .segment

def tagShape (l : List Char) : TagShape := l.foldl TagShape.step (.gap false)

/-- What the characters are composed of: a letter of a letter and more letters and marks, a mark of
marks, white space of white space, a hyphen of itself, and every other character of one like it
with characters behind it. Only marks change places. -/
structure ClassTable (t : Table Char) : Prop where
  separator : ∀ c, tagClass c = .separator →
    t.decompose c ≠ [] ∧ ∀ d ∈ t.decompose c, tagClass d = .separator
  base : ∀ c, tagClass c = .base → ∃ d rest, t.decompose c = d :: rest ∧ tagClass d = .base ∧
    ∀ e ∈ rest, tagClass e = .base ∨ tagClass e = .mark
  mark : ∀ c, tagClass c = .mark → t.decompose c ≠ [] ∧ ∀ d ∈ t.decompose c, tagClass d = .mark
  other : ∀ c, tagClass c = .other → ∃ d rest, t.decompose c = d :: rest ∧ tagClass d = .other
  combines : ∀ c, t.combines c → tagClass c = .mark

theorem foldl_fixed {l : List Char} {s : TagShape} (h : ∀ c ∈ l, s.step c = s) :
    l.foldl TagShape.step s = s := by
  induction l with
  | nil => rfl
  | cons c l ih =>
      rw [List.foldl_cons, h c List.mem_cons_self]
      exact ih fun d hd => h d (List.mem_cons_of_mem c hd)

theorem foldl_refused (l : List Char) : l.foldl TagShape.step .refused = .refused :=
  foldl_fixed fun _ _ => rfl

/-- Characters of one class that is read twice like once. -/
theorem foldl_class {k : TagClass} {l : List Char} (hne : l ≠ []) (h : ∀ c ∈ l, tagClass c = k)
    (s : TagShape) (htwice : (s.read k).read k = s.read k) : l.foldl TagShape.step s = s.read k := by
  obtain ⟨c, l, rfl⟩ := List.exists_cons_of_ne_nil hne
  have hfirst : s.step c = s.read k := congrArg s.read (h c List.mem_cons_self)
  rw [List.foldl_cons, hfirst]
  refine foldl_fixed fun d hd => ?_
  rw [TagShape.step, h d (List.mem_cons_of_mem c hd), htwice]

theorem ClassTable.foldl_decompose {t : Table Char} (h : ClassTable t) (s : TagShape) (c : Char) :
    (t.decompose c).foldl TagShape.step s = s.step c := by
  cases hc : tagClass c with
  | separator =>
      rw [foldl_class (h.separator c hc).1 (h.separator c hc).2 s (by cases s <;> rfl), TagShape.step, hc]
  | mark =>
      rw [foldl_class (h.mark c hc).1 (h.mark c hc).2 s (by cases s <;> rfl), TagShape.step, hc]
  | base =>
      obtain ⟨d, rest, heq, hd, hrest⟩ := h.base c hc
      have hstep : s.step d = s.step c := by rw [TagShape.step, TagShape.step, hd, hc]
      rw [heq, List.foldl_cons, hstep, TagShape.step, hc]
      refine foldl_fixed fun e he => ?_
      rcases hrest e he with hclass | hclass <;> rw [TagShape.step, hclass] <;> cases s <;> rfl
  | other =>
      obtain ⟨d, rest, heq, hd⟩ := h.other c hc
      have hrefused : ∀ s : TagShape, s.read .other = .refused := fun s => by cases s <;> rfl
      rw [heq, List.foldl_cons, TagShape.step, TagShape.step, hd, hc, hrefused, foldl_refused]

/-- Equivalent texts have one shape. -/
theorem tagShape_eq_of_equivalent {t : Table Char} (h : ClassTable t) {l l' : List Char}
    (hl : Equivalent t l l') : tagShape l = tagShape l' := by
  refine hl.foldl_eq h.foldl_decompose (fun s c d hc hd => ?_) _
  simp only [TagShape.step, h.combines c hc, h.combines d hd]

theorem tagShape_toLower (s : String) : tagShape (toLower s).toList = tagShape s.toList := by
  rw [toLower, toList_mapRunes, tagShape, List.foldl_map]
  refine congrArg (fun f => s.toList.foldl f _) ?_
  funext shape c
  rw [TagShape.step, TagShape.step, tagClass_toLowerRune]

/-! ### Separators at the ends -/

theorem step_separator {s : TagShape} {c : Char} (hc : isTagSeparator c = true) :
    s.step c = s.read .separator := by
  rw [TagShape.step, tagClass, if_pos hc]

theorem tagShape_dropWhile {p : Char → Bool} {l : List Char}
    (hp : ∀ c ∈ l, p c = true → isTagSeparator c = true) :
    tagShape (l.dropWhile p) = tagShape l := by
  induction l with
  | nil => rfl
  | cons c l ih =>
      rw [List.forall_mem_cons] at hp
      by_cases hc : p c = true
      · rw [List.dropWhile_cons_of_pos hc, ih hp.2]
        simp [tagShape, step_separator (hp.1 hc), TagShape.read]
      · rw [List.dropWhile_cons_of_neg hc]

theorem named_read_separator {s : TagShape} : (s.read .separator).Named ↔ s.Named := by
  cases s <;> simp [TagShape.read, TagShape.Named]

theorem named_rdropWhile {p : Char → Bool} {l : List Char}
    (hp : ∀ c ∈ l, p c = true → isTagSeparator c = true) :
    (tagShape (l.rdropWhile p)).Named ↔ (tagShape l).Named := by
  induction l using List.reverseRecOn with
  | nil => rw [List.rdropWhile_nil]
  | append_singleton l c ih =>
      by_cases hc : p c = true
      · have hsep := hp c (List.mem_append_right l List.mem_cons_self) hc
        rw [List.rdropWhile_concat_pos p l c hc, ih fun d hd => hp d (List.mem_append_left _ hd)]
        rw [tagShape, tagShape, List.foldl_append, List.foldl_cons, List.foldl_nil, step_separator hsep,
          named_read_separator]
      · rw [List.rdropWhile_concat_neg p l c hc]

/-- Separators at the ends do not matter. -/
theorem named_trimFunc {p : Char → Bool} {s : String}
    (hp : ∀ c ∈ s.toList, p c = true → isTagSeparator c = true) :
    (tagShape (trimFunc p s).toList).Named ↔ (tagShape s.toList).Named := by
  rw [toList_trimFunc, named_rdropWhile, tagShape_dropWhile hp]
  exact fun c hc => hp c ((List.dropWhile_sublist p).subset hc)

theorem not_other_of_named {l : List Char} (h : (tagShape l).Named) : ∀ c ∈ l, tagClass c ≠ .other := by
  intro c hc hother
  obtain ⟨before, after, rfl⟩ := List.append_of_mem hc
  have hrefused : tagShape (before ++ c :: after) = .refused := by
    rw [tagShape, List.foldl_append, List.foldl_cons, TagShape.step, hother]
    generalize before.foldl TagShape.step (.gap false) = s
    cases s <;> exact foldl_refused after
  rw [hrefused] at h
  exact h.elim nofun nofun

/-- The client trims a character that the server does not, but no name has it. -/
theorem isTagSeparator_of_script {c : Char} (h : isScriptSpace c = true) (hc : tagClass c ≠ .other) :
    isTagSeparator c = true := by
  by_cases hmark : c.toNat = 0xFEFF
  · obtain rfl : c = Char.ofNat 0xFEFF := Char.toNat_inj.mp (hmark.trans (by decide))
    exact absurd (by decide +kernel) hc
  · simp only [isScriptSpace, inRanges, List.any_cons, List.any_nil, Bool.or_false, Bool.or_eq_true,
      Bool.and_eq_true, decide_eq_true_eq] at h
    simp only [isTagSeparator, isSpace, inRanges, List.any_cons, List.any_nil, Bool.or_false, Bool.or_eq_true,
      Bool.and_eq_true, decide_eq_true_eq]
    omega

/-! ## The server -/

def TagScan.shape (s : TagScan) : TagShape := if s.hasBase then .segment else .gap (!s.written.isEmpty)

theorem shape_of_step {s s' : TagScan} {c : Char} (hbase : s.hasBase = true → s.written ≠ [])
    (h : s.step c = some s') : (s'.hasBase = true → s'.written ≠ []) ∧ s'.shape = s.shape.step c := by
  unfold TagScan.step at h
  rw [TagShape.step, tagClass]
  split at h
  · next hsep =>
    obtain rfl := Option.some.inj h
    refine ⟨nofun, ?_⟩
    rw [if_pos (show isTagSeparator c = true from hsep), TagScan.shape, TagScan.shape]
    cases hb : s.hasBase with
    | false => rfl
    | true =>
        obtain ⟨d, written, hwritten⟩ := List.exists_cons_of_ne_nil (hbase hb)
        rw [hwritten]
        rfl
  · next hsep =>
    rw [if_neg (show ¬ isTagSeparator c = true from hsep)]
    split at h
    · next hletter =>
      obtain rfl := Option.some.inj h
      refine ⟨fun _ => List.cons_ne_nil _ _, ?_⟩
      rw [if_pos hletter, TagScan.shape, TagScan.shape]
      cases s.hasBase <;> rfl
    · next hletter =>
      rw [if_neg hletter]
      split at h
      · next hmark =>
        obtain rfl := Option.some.inj h
        rw [Bool.and_eq_true] at hmark
        refine ⟨fun _ => List.cons_ne_nil _ _, ?_⟩
        rw [if_pos hmark.1, TagScan.shape, TagScan.shape]
        simp [hmark.2, TagShape.read]
      · cases h

theorem shape_of_scan {l : List Char} {s s' : TagScan} (hbase : s.hasBase = true → s.written ≠ [])
    (h : l.foldlM TagScan.step s = some s') :
    (s'.hasBase = true → s'.written ≠ []) ∧ s'.shape = l.foldl TagShape.step s.shape := by
  induction l generalizing s with
  | nil =>
      obtain rfl := Option.some.inj h
      exact ⟨hbase, rfl⟩
  | cons c l ih =>
      rw [List.foldlM_cons, Option.bind_eq_bind, Option.bind_eq_some_iff] at h
      obtain ⟨s₁, hstep, hrest⟩ := h
      obtain ⟨hbase₁, hshape⟩ := shape_of_step hbase hstep
      rw [List.foldl_cons, ← hshape]
      exact ih hbase₁ hrest

/-- What the platforms know about normal forms. -/
structure NfcAgrees (nfc : String → String) (t : Table Char) : Prop where
  equivalent : ∀ s, Equivalent t (nfc s).toList s.toList
  classes : ClassTable t

section

variable {rt : Runtime} {t : Table Char} {name : String}

/-- A name that the server takes has the shape of one. -/
theorem named_of_canonicalizeTag (hnfc : NfcAgrees rt.nfc t) (h : canonicalizeTag rt name ≠ "") :
    (tagShape name.toList).Named := by
  unfold canonicalizeTag at h
  dsimp only at h
  split at h
  · exact absurd rfl h
  · split at h
    · exact absurd rfl h
    · next scan hscan =>
      obtain ⟨hbase, hshape⟩ := shape_of_scan (s := {}) nofun hscan
      have hwritten : scan.written ≠ [] := by
        intro hnil
        rw [hnil] at h
        split_ifs at h <;> exact h rfl
      have hnamed : scan.shape.Named := by
        obtain ⟨c, written, heq⟩ := List.exists_cons_of_ne_nil hwritten
        rw [TagScan.shape, heq]
        cases scan.hasBase
        · exact .inl rfl
        · exact .inr rfl
      have hsame : ∀ s, tagShape (rt.nfc s).toList = tagShape s.toList := fun s =>
        tagShape_eq_of_equivalent hnfc.classes (hnfc.equivalent s)
      have heq : scan.shape = tagShape (trimSpace name).toList := by
        rw [hshape]
        exact ((hsame _).trans (tagShape_toLower _)).trans (hsame _)
      rw [heq, trimSpace, named_trimFunc fun c _ hc => by rw [isTagSeparator, hc, Bool.true_or]] at hnamed
      exact hnamed

end

/-! ## The words of a name -/

def tagWords (l : List Char) : List (List Char) := pieces isTagSeparator l

/-- A letter or a number, and behind it more of them and marks. -/
def IsTagWord (w : List Char) : Prop := ∃ c rest, w = c :: rest ∧ tagClass c = .base ∧
  ∀ d ∈ rest, tagClass d = .base ∨ tagClass d = .mark

theorem tagClass_eq_separator {c : Char} : tagClass c = .separator ↔ isTagSeparator c = true := by
  unfold tagClass
  split_ifs with h <;> simp [h]

/-- The pieces of what is read without a refusal: the first one goes on with the segment before it. -/
theorem words_of_shape {l : List Char} {s : TagShape} (h : l.foldl TagShape.step s ≠ .refused) :
    ∃ w ws, splitList isTagSeparator l = w :: ws ∧ (∀ v ∈ ws, v ≠ [] → IsTagWord v) ∧
      (s = .segment → ∀ d ∈ w, tagClass d = .base ∨ tagClass d = .mark) ∧
      (s ≠ .segment → w ≠ [] → IsTagWord w) := by
  induction l generalizing s with
  | nil =>
      exact ⟨[], [], rfl, List.forall_mem_nil _, fun _ => List.forall_mem_nil _, fun _ hne => absurd rfl hne⟩
  | cons c l ih =>
      rw [List.foldl_cons] at h
      obtain ⟨w, ws, hsplit, hws, hsegment, hgap⟩ := ih h
      by_cases hc : isTagSeparator c = true
      · refine ⟨[], w :: ws, by rw [splitList, if_pos hc, hsplit], ?_,
          fun _ => List.forall_mem_nil _, fun _ hne => absurd rfl hne⟩
        have hnot : s.step c ≠ .segment := by
          rw [step_separator hc]
          cases s <;> exact fun heq => TagShape.noConfusion heq
        exact List.forall_mem_cons.mpr ⟨hgap hnot, hws⟩
      · refine ⟨c :: w, ws, by rw [splitList, if_neg hc, hsplit], hws, ?_, ?_⟩
        · rintro rfl
          cases hclass : tagClass c with
          | separator => exact absurd (tagClass_eq_separator.mp hclass) hc
          | base =>
              exact List.forall_mem_cons.mpr
                ⟨.inl hclass, hsegment (congrArg (TagShape.read .segment) hclass)⟩
          | mark =>
              exact List.forall_mem_cons.mpr
                ⟨.inr hclass, hsegment (congrArg (TagShape.read .segment) hclass)⟩
          | other =>
              rw [TagShape.step, hclass] at h
              exact absurd (foldl_refused l) h
        · intro hs _
          have hbase : tagClass c = .base := by
            by_contra hclass
            refine h ?_
            have hrefused : s.step c = .refused := by
              rw [TagShape.step]
              cases hk : tagClass c with
              | separator => exact absurd (tagClass_eq_separator.mp hk) hc
              | base => exact absurd hk hclass
              | mark => cases s <;> first | rfl | exact absurd rfl hs
              | other => cases s <;> rfl
            rw [hrefused, foldl_refused]
          have hstep : s.step c = .segment ∨ s.step c = .refused := by
            rw [TagShape.step, hbase]
            cases s
            · exact .inl rfl
            · exact .inl rfl
            · exact .inr rfl
          rcases hstep with hstep | hstep
          · exact ⟨c, w, rfl, hbase, hsegment hstep⟩
          · rw [hstep, foldl_refused] at h
            exact absurd rfl h

theorem tagShape_of_no_words {l : List Char} (h : tagWords l = []) : tagShape l = .gap false := by
  induction l with
  | nil => rfl
  | cons c l ih =>
      by_cases hc : isTagSeparator c = true
      · rw [tagWords, pieces_pos hc] at h
        rw [tagShape, List.foldl_cons, step_separator hc]
        exact ih h
      · rw [tagWords, pieces, splitList, if_neg hc] at h
        split at h <;> simp at h

/-- A text with the shape of a name has words, and they are words of a tag. -/
theorem tagWords_of_named {l : List Char} (h : (tagShape l).Named) :
    tagWords l ≠ [] ∧ ∀ w ∈ tagWords l, IsTagWord w := by
  have hrefused : tagShape l ≠ .refused := fun heq => by
    rw [heq] at h
    exact h.elim nofun nofun
  refine ⟨fun hnil => ?_, fun w hw => ?_⟩
  · rw [tagShape_of_no_words hnil] at h
    exact h.elim nofun nofun
  · obtain ⟨v, vs, hsplit, hvs, _, hv⟩ := words_of_shape hrefused
    have hmem := List.mem_of_mem_filter hw
    rw [hsplit] at hmem
    rcases List.mem_cons.mp hmem with rfl | hmem
    · exact hv nofun (ne_nil_of_mem_pieces hw)
    · exact hvs w hmem (ne_nil_of_mem_pieces hw)

/-! ## What the client accepts -/

theorem not_hyphen {c : Char} (h : tagClass c ≠ .separator) : c ≠ '-' := by
  rintro rfl
  exact h (by decide +kernel)

theorem tagStructureStep_base {c : Char} (h : tagClass c = .base) (hasBase : Bool) :
    tagStructureStep hasBase c = some true := by
  have hhyphen := not_hyphen (c := c) (h ▸ nofun)
  unfold tagClass at h
  split_ifs at h with _ hletter
  rw [tagStructureStep, if_neg hhyphen, if_pos hletter]

theorem tagStructureStep_mark {c : Char} (h : tagClass c = .mark) : tagStructureStep true c = some true := by
  have hhyphen := not_hyphen (c := c) (h ▸ nofun)
  unfold tagClass at h
  split_ifs at h with _ hletter hmark
  rw [tagStructureStep, if_neg hhyphen, if_neg hletter, hmark]
  rfl

theorem tagStructure_of_word {w : List Char} (h : IsTagWord w) (hasBase : Bool) :
    w.foldlM tagStructureStep hasBase = some true := by
  obtain ⟨c, rest, rfl, hc, hrest⟩ := h
  rw [List.foldlM_cons, tagStructureStep_base hc]
  change rest.foldlM tagStructureStep true = some true
  induction rest with
  | nil => rfl
  | cons d rest ih =>
      rw [List.forall_mem_cons] at hrest
      have hd : tagStructureStep true d = some true := by
        rcases hrest.1 with hbase | hmark
        · exact tagStructureStep_base hbase true
        · exact tagStructureStep_mark hmark
      rw [List.foldlM_cons, hd]
      exact ih hrest.2

theorem tagStructure_of_words {ws : List (List Char)} (hne : ws ≠ []) (h : ∀ w ∈ ws, IsTagWord w)
    (hasBase : Bool) : (['-'].intercalate ws).foldlM tagStructureStep hasBase = some true := by
  induction ws generalizing hasBase with
  | nil => exact absurd rfl hne
  | cons w ws ih =>
      rw [List.forall_mem_cons] at h
      by_cases hnil : ws = []
      · rw [hnil, List.intercalate_singleton]
        exact tagStructure_of_word h.1 hasBase
      · rw [List.intercalate_cons_of_ne_nil hnil, List.append_assoc, List.foldlM_append,
          tagStructure_of_word h.1]
        exact ih hnil h.2 false

/-- How many code points a name has: those of its words, and one between two words. -/
def tagCodePoints (s : String) : ℕ := (['-'].intercalate (tagWords s.toList)).length

theorem toList_normalizeSeparators (nfc : String → String) (input : String) :
    (normalizeSeparators nfc input).toList = ['-'].intercalate (tagWords (nfc (trimScript input)).toList) := by
  have hruns : ∀ l, replaceRunsList (· == '-') '-' false (replaceRunsList isSpace '-' false l) =
      replaceRunsList isTagSeparator '-' false l := fun l =>
    replaceRunsList_replaceRunsList (q := (· == '-')) (beq_self_eq_true '-') id
  rw [normalizeSeparators, trimChar, toList_trimFunc, replaceRuns, replaceRuns, String.toList_ofList,
    String.toList_ofList, hruns, trim_replaceRunsList (by decide)]
  rfl

theorem isTagNameCandidate_of_named {nfc : String → String} {input : String}
    (h : (tagShape (nfc (trimScript input)).toList).Named) :
    isTagNameCandidate nfc input = true ↔ tagCodePoints (nfc (trimScript input)) ≤ maxTagCodePoints := by
  obtain ⟨hne, hwords⟩ := tagWords_of_named h
  have hlist := toList_normalizeSeparators nfc input
  have hempty : normalizeSeparators nfc input ≠ "" := by
    intro heq
    rw [heq] at hlist
    exact hne (intercalate_eq_nil (fun _ => ne_nil_of_mem_pieces) hlist.symm)
  rw [isTagNameCandidate, hasValidTagStructure, hlist, tagStructure_of_words hne hwords]
  rw [← String.length_toList, hlist, ← tagCodePoints]
  simp [hempty]

/-- Of the names that the server takes, the client accepts those that are not too long before they
are in lower case. -/
theorem tag_candidate_iff {rt : Runtime} {t : Table Char} {name : String} (hnfc : NfcAgrees rt.nfc t)
    (h : canonicalizeTag rt name ≠ "") : isTagNameCandidate rt.nfc name = true ↔
      tagCodePoints (rt.nfc (trimScript name)) ≤ maxTagCodePoints := by
  have hname := named_of_canonicalizeTag hnfc h
  have htrim : (tagShape (trimScript name).toList).Named := by
    rw [trimScript, named_trimFunc fun c hc hspace =>
      isTagSeparator_of_script hspace (not_other_of_named hname c hc)]
    exact hname
  refine isTagNameCandidate_of_named ?_
  rw [tagShape_eq_of_equivalent hnfc.classes (hnfc.equivalent (trimScript name))]
  exact htrim

/-- Normal forms of texts whose only composed character is a small `j` with a caron; there is no
such character for the capital letter. -/
def composeCaron : List Char → List Char
  | 'j' :: '\u030C' :: l => 'ǰ' :: composeCaron l
  | c :: l => c :: composeCaron l
  | [] => []

def caronTable : Table Char where
  decompose c := if c = 'ǰ' then ['j', '\u030C'] else [c]
  combines c := c = '\u030C'

def caronRuntime : Runtime :=
  { nfc := fun s => String.ofList (composeCaron s.toList)
    isHTTPURL := fun _ => false
    isLocation := fun _ => false }

theorem equivalent_composeCaron (l : List Char) : Equivalent caronTable (composeCaron l) l := by
  fun_induction composeCaron l with
  | case1 l ih =>
      exact .trans (.rel _ _ (.decompose [] (composeCaron l) 'ǰ')) ((ih.cons '\u030C').cons 'j')
  | case2 c l _ ih => exact ih.cons c
  | case3 => exact .refl []

theorem nfcAgrees_caron : NfcAgrees caronRuntime.nfc caronTable where
  equivalent s := by
    rw [caronRuntime, String.toList_ofList]
    exact equivalent_composeCaron s.toList
  classes := by
    have hsmall : tagClass 'ǰ' = .base := by decide +kernel
    have hj : tagClass 'j' = .base := by decide +kernel
    have hcaron : tagClass '\u030C' = .mark := by decide +kernel
    have hself : ∀ c, tagClass c ≠ .base → caronTable.decompose c = [c] := by
      intro c hc
      refine if_neg ?_
      rintro rfl
      exact hc hsmall
    refine ⟨fun c hc => ?_, fun c hc => ?_, fun c hc => ?_, fun c hc => ?_, ?_⟩
    · rw [hself c (hc ▸ nofun)]
      exact ⟨List.cons_ne_nil _ _, List.forall_mem_singleton.mpr hc⟩
    · by_cases hcaronj : c = 'ǰ'
      · exact ⟨'j', ['\u030C'], if_pos hcaronj, hj, List.forall_mem_singleton.mpr (.inr hcaron)⟩
      · exact ⟨c, [], if_neg hcaronj, hc, nofun⟩
    · rw [hself c (hc ▸ nofun)]
      exact ⟨List.cons_ne_nil _ _, List.forall_mem_singleton.mpr hc⟩
    · exact ⟨c, [], hself c (hc ▸ nofun), hc⟩
    · rintro c rfl
      exact hcaron

theorem tag_candidate_two_words : canonicalizeTag caronRuntime "Bug fix" = "bug-fix" ∧
    isTagNameCandidate caronRuntime.nfc "Bug fix" = true := by
  have hcanonical : canonicalizeTag caronRuntime "Bug fix" = "bug-fix" := by decide +kernel
  have hlength : tagCodePoints (caronRuntime.nfc (trimScript "Bug fix")) ≤ maxTagCodePoints := by
    decide +kernel
  exact ⟨hcanonical, (tag_candidate_iff nfcAgrees_caron (hcanonical ▸ by decide)).mpr hlength⟩

/-- A capital `J` with a caron, many times. -/
def caronName : String := String.ofList (List.replicate 17 ['J', '\u030C']).flatten

/-- In lower case a name is short enough that the client refuses. -/
theorem caron_name_refused : NfcAgrees caronRuntime.nfc caronTable ∧ canonicalizeTag caronRuntime caronName ≠ "" ∧
      (canonicalizeTag caronRuntime caronName).length = 17 ∧
      isTagNameCandidate caronRuntime.nfc caronName = false := by
  have hlist : caronName.toList = (List.replicate 17 ['J', '\u030C']).flatten := String.toList_ofList
  have htrim : trimSpace caronName = caronName := by
    simp only [trimSpace, trimFunc, hlist]
    exact congrArg String.ofList (by decide +kernel)
  have hwritten : ((caronRuntime.nfc (toLower (caronRuntime.nfc caronName))).toList.foldlM TagScan.step {}).map
      TagScan.written = some (List.replicate 17 'ǰ') := by
    simp only [caronRuntime, toLower, mapRunes, String.toList_ofList, hlist]
    decide +kernel
  obtain ⟨scan, hscan, hwritten⟩ := Option.map_eq_some_iff.mp hwritten
  have hcanonical : canonicalizeTag caronRuntime caronName = String.ofList (List.replicate 17 'ǰ') := by
    have hempty : caronName ≠ "" := fun h => absurd (hlist.symm.trans (congrArg String.toList h)) (by simp)
    simp only [canonicalizeTag, htrim, if_neg hempty, hscan, hwritten]
    rfl
  have hserver : (canonicalizeTag caronRuntime caronName).length = 17 := by
    rw [hcanonical, String.length_ofList, List.length_replicate]
  have hne : canonicalizeTag caronRuntime caronName ≠ "" := fun h => absurd (h ▸ hserver) (by decide)
  have hlength : tagCodePoints (caronRuntime.nfc (trimScript caronName)) = 34 := by
    simp only [tagCodePoints, caronRuntime, String.toList_ofList, trimScript, toList_trimFunc, hlist]
    decide +kernel
  refine ⟨nfcAgrees_caron, hne, hserver, Bool.eq_false_iff.mpr fun h => ?_⟩
  have hle := (tag_candidate_iff nfcAgrees_caron hne).mp h
  rw [hlength] at hle
  exact absurd hle (by decide)

end Scrumboy
