import Scrumboy.Go.Decimal

/-!
# ASCII in strings of bytes

Positions of a byte in a string, letter case, and what `unicode.IsControl` and `unicode.IsSpace`
say of the code points of a string. The bytes of a code point of several bytes are never those of
an ASCII character, and its first byte is none of the others, so that the string need not be decoded.
-/

namespace Go.Bytes

/-! ## Positions -/

/-- `strings.IndexByte`, with `none` for -1. -/
def indexByte : Bytes → UInt8 → Option ℕ
  | [], _ => none
  | b :: s, c => if b = c then some 0 else (indexByte s c).map (· + 1)

/-- `strings.LastIndexByte`, with `none` for -1. -/
def lastIndexByte : Bytes → UInt8 → Option ℕ
  | [], _ => none
  | b :: s, c => ((lastIndexByte s c).map (· + 1)).or (if b = c then some 0 else none)

/-- `strings.ContainsAny`. -/
def containsAny (s chars : Bytes) : Bool := s.any fun b => chars.contains b

section

variable {c : UInt8} {s t : Bytes}

theorem indexByte_append (h : c ∉ s) : indexByte (s ++ c :: t) c = some s.length := by
  induction s with
  | nil => simp [indexByte]
  | cons b s ih =>
      rw [List.mem_cons, not_or] at h
      rw [List.cons_append, indexByte, if_neg (Ne.symm h.1), ih h.2]
      rfl

theorem indexByte_eq_none (h : c ∉ s) : indexByte s c = none := by
  induction s with
  | nil => rfl
  | cons b s ih =>
      rw [List.mem_cons, not_or] at h
      rw [indexByte, if_neg (Ne.symm h.1), ih h.2]
      rfl

theorem lastIndexByte_eq_none (h : c ∉ s) : lastIndexByte s c = none := by
  induction s with
  | nil => rfl
  | cons b s ih =>
      rw [List.mem_cons, not_or] at h
      rw [lastIndexByte, if_neg (Ne.symm h.1), ih h.2]
      rfl

theorem lastIndexByte_append (h : c ∉ t) : lastIndexByte (s ++ c :: t) c = some s.length := by
  induction s with
  | nil =>
      rw [List.nil_append, lastIndexByte, lastIndexByte_eq_none h, if_pos rfl]
      rfl
  | cons b s ih =>
      rw [List.cons_append, lastIndexByte, ih]
      rfl

/-- A string is cut at the first of its bytes `c`. -/
theorem exists_cut_of_mem (h : c ∈ s) : ∃ a b, s = a ++ c :: b ∧ c ∉ a ∧ indexByte s c = some a.length := by
  obtain ⟨a, b, rfl, ha⟩ := List.eq_append_cons_of_mem h
  exact ⟨a, b, rfl, ha, indexByte_append ha⟩

end

/-! ## Letter case -/

def lowerByte (c : UInt8) : UInt8 := if 0x41 ≤ c && c ≤ 0x5A then c + 0x20 else c

/-- The string with its ASCII letters in lower case. -/
def asciiLower (s : Bytes) : Bytes := s.map lowerByte

def isAscii (s : Bytes) : Bool := s.all (· < 0x80)

/-- What holds of every byte is checked on the numbers below 256. -/
theorem exists_ofFin (c : UInt8) : ∃ n : Fin 256, .ofFin n = c := ⟨c.toFin, rfl⟩

theorem lowerByte_lowerByte (c : UInt8) : lowerByte (lowerByte c) = lowerByte c := by
  grind [lowerByte]

theorem asciiLower_append (s t : Bytes) : asciiLower (s ++ t) = asciiLower s ++ asciiLower t :=
  List.map_append

theorem length_asciiLower (s : Bytes) : (asciiLower s).length = s.length := List.length_map _

theorem asciiLower_asciiLower (s : Bytes) : asciiLower (asciiLower s) = asciiLower s := by
  rw [asciiLower, asciiLower, List.map_map]
  exact List.map_congr_left fun c _ => lowerByte_lowerByte c

theorem lowerByte_lt {c : UInt8} (h : c < 0x80) : lowerByte c < 0x80 := by
  grind [lowerByte]

theorem isAscii_asciiLower {s : Bytes} (h : isAscii s = true) : isAscii (asciiLower s) = true := by
  simp only [isAscii, List.all_eq_true, decide_eq_true_eq] at h ⊢
  intro c hc
  obtain ⟨b, hb, rfl⟩ := List.mem_map.mp hc
  exact lowerByte_lt (h b hb)

theorem asciiLower_of_fixed {s : Bytes} (h : ∀ c ∈ s, lowerByte c = c) : asciiLower s = s := by
  rw [asciiLower, List.map_congr_left h, List.map_id']

/-! ## Space and control characters -/

/-- The control characters below U+0020, and U+007F. -/
def isControl₁ (a : UInt8) : Bool := a ≤ 0x1F || a == 0x7F

/-- The control characters from U+0080 to U+009F. -/
def isControl₂ (a b : UInt8) : Bool := a == 0xC2 && (0x80 ≤ b && b ≤ 0x9F)

/-- Whether the first character is a space or a control character. -/
def startsSpaceOrControl : Bytes → Bool
  | a :: b :: c :: _ =>
      isControl₁ a || isSpace₁ a || isControl₂ a b || isSpace₂ a b || isSpace₃ a b c
  | [a, b] => isControl₁ a || isSpace₁ a || isControl₂ a b || isSpace₂ a b
  | [a] => isControl₁ a || isSpace₁ a
  | [] => false

/-- A character of ASCII that prints, other than the blank. -/
def IsGraphic (c : UInt8) : Prop := IsPlain c ∧ c ≠ 0x7F

instance (c : UInt8) : Decidable (IsGraphic c) := inferInstanceAs (Decidable (_ ∧ _))

theorem IsGraphic.not_control {a : UInt8} (h : IsGraphic a) :
    isControl₁ a = false ∧ ∀ b, isControl₂ a b = false := by
  obtain ⟨⟨hlow, hhigh⟩, hdel⟩ := h
  have hcontrol : ¬ (a ≤ 0x1F) := fun hle =>
    UInt8.not_le.mpr hlow (UInt8.le_trans hle (by decide))
  have hlead : a ≠ 0xC2 := by
    rintro rfl
    exact absurd hhigh (by decide)
  refine ⟨?_, fun b => ?_⟩
  · simp [isControl₁, hcontrol, hdel]
  · simp [isControl₂, hlead]

theorem startsSpaceOrControl_of_graphic {a : UInt8} {s : Bytes} (h : IsGraphic a) :
    startsSpaceOrControl (a :: s) = false := by
  obtain ⟨h₁, h₂, h₃, -, -⟩ := h.1.isSpace_eq_false
  obtain ⟨hc₁, hc₂⟩ := h.not_control
  match s with
  | [] => simp [startsSpaceOrControl, h₁, hc₁]
  | [b] => simp [startsSpaceOrControl, h₁, h₂, hc₁, hc₂]
  | b :: c :: s => simp [startsSpaceOrControl, h₁, h₂, h₃, hc₁, hc₂]

end Go.Bytes
