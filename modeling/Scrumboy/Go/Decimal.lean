import Scrumboy.Go.Bytes
import Scrumboy.Go.Int64

/-!
# Decimal numbers

`strconv.Atoi` on bytes. A `Number` is a non-empty list of decimal digits, which may start with
zeros; what `Atoi` takes is a number with a sign in front of it or without.
-/

namespace Go.Bytes

def isDecimal (c : UInt8) : Bool := 0x30 ≤ c && c ≤ 0x39

/-- `int(ch - '0')`. -/
def digitValue (c : UInt8) : ℕ := (c - 0x30).toNat

/-- The number that further digits make of a number. -/
def readDigits (n : ℕ) (ds : Bytes) : ℕ := ds.foldl (fun n c => n * 10 + digitValue c) n

inductive Sign
  | none
  | plus
  | minus
  deriving DecidableEq, Repr

namespace Sign

def text : Sign → Bytes
  | none => []
  | plus => [0x2B]
  | minus => [0x2D]

def value : Sign → ℤ
  | minus => -1
  | _ => 1

end Sign

/-- The sign in front of a text, and the rest. -/
def cutSign : Bytes → Sign × Bytes
  | [] => (.none, [])
  | c :: s => if c = 0x2D then (.minus, s) else if c = 0x2B then (.plus, s) else (.none, c :: s)

/-- `strconv.Atoi`. -/
def atoi (s : Bytes) : Option ℤ :=
  let (sign, ds) := cutSign s
  if ds = [] ∨ ds.all isDecimal = false then none
  else
    let n := sign.value * readDigits 0 ds
    if IsInt64 n then some n else none

/-- A number as its digits, which may start with zeros. -/
structure Number where
  digits : Bytes
  ne_nil : digits ≠ []
  isDecimal : ∀ c ∈ digits, isDecimal c = true

def Number.value (n : Number) : ℕ := readDigits 0 n.digits

theorem cutSign_eq (s : Bytes) : (cutSign s).1.text ++ (cutSign s).2 = s := by
  cases s with
  | nil => rfl
  | cons c s =>
      rw [cutSign]
      split_ifs with hminus hplus
      · rw [hminus]
        rfl
      · rw [hplus]
        rfl
      · rfl

theorem cutSign_text (sign : Sign) {c : UInt8} {s : Bytes} (hminus : c ≠ 0x2D) (hplus : c ≠ 0x2B) :
    cutSign (sign.text ++ c :: s) = (sign, c :: s) := by
  cases sign with
  | none => exact (if_neg hminus).trans (if_neg hplus)
  | plus => rfl
  | minus => rfl

theorem cutSign_digits (sign : Sign) (n : Number) :
    cutSign (sign.text ++ n.digits) = (sign, n.digits) := by
  obtain ⟨ds, hne, hds⟩ := n
  cases ds with
  | nil => exact absurd rfl hne
  | cons c ds =>
      have hc := hds c List.mem_cons_self
      refine cutSign_text sign ?_ ?_
      · rintro rfl
        exact absurd hc (by decide)
      · rintro rfl
        exact absurd hc (by decide)

theorem atoi_digits (sign : Sign) (n : Number) :
    atoi (sign.text ++ n.digits) =
      if IsInt64 (sign.value * n.value) then some (sign.value * n.value) else none := by
  have hall : ¬ (n.digits = [] ∨ n.digits.all isDecimal = false) := by
    rintro (hnil | hnot)
    · exact n.ne_nil hnil
    · rw [List.all_eq_true.mpr n.isDecimal] at hnot
      cases hnot
  unfold atoi
  rw [cutSign_digits]
  exact if_neg hall

theorem exists_number_of_atoi {s : Bytes} {w : ℤ} (h : atoi s = some w) :
    ∃ (sign : Sign) (n : Number), s = sign.text ++ n.digits := by
  have hcut := cutSign_eq s
  simp only [atoi] at h
  by_cases hds : (cutSign s).2 = [] ∨ (cutSign s).2.all isDecimal = false
  · rw [if_pos hds] at h
    cases h
  · rw [not_or, Bool.not_eq_false, List.all_eq_true] at hds
    exact ⟨(cutSign s).1, ⟨_, hds.1, hds.2⟩, hcut.symm⟩

/-! ## White space around a text -/

/-- A byte of ASCII that is no white space. -/
def IsPlain (c : UInt8) : Prop := 0x20 < c ∧ c < 0x80

instance (c : UInt8) : Decidable (IsPlain c) := inferInstanceAs (Decidable (_ ∧ _))

section

variable {a b c : UInt8} {s : Bytes}

theorem isPlain_of_isDecimal (h : isDecimal c = true) : IsPlain c := by
  simp only [isDecimal, Bool.and_eq_true, decide_eq_true_eq, UInt8.le_iff_toNat_le] at h
  rw [IsPlain, UInt8.lt_iff_toNat_lt, UInt8.lt_iff_toNat_lt]
  exact ⟨lt_of_lt_of_le (by decide) h.1, lt_of_le_of_lt h.2 (by decide)⟩

theorem IsPlain.isSpace_eq_false (h : IsPlain a) :
    isSpace₁ a = false ∧ (∀ b, isSpace₂ a b = false) ∧ (∀ b c, isSpace₃ a b c = false) ∧
      (∀ b, isSpace₂ b a = false) ∧ ∀ b c, isSpace₃ b c a = false := by
  obtain ⟨hlow, hhigh⟩ := h
  have hne : ∀ k : UInt8, 0x80 ≤ k → (a == k) = false := by
    intro k hk
    refine beq_eq_false_iff_ne.mpr ?_
    rintro rfl
    exact UInt8.not_lt.mpr hk hhigh
  have hnot : ¬ (0x80 ≤ a) := UInt8.not_le.mpr hhigh
  have hspace : ¬ (a ≤ 0x20) := UInt8.not_le.mpr hlow
  have hcontrol : ¬ (a ≤ 0x0D) := fun hle => hspace (UInt8.le_trans hle (by decide))
  have hblank : (a == 0x20) = false := by
    refine beq_eq_false_iff_ne.mpr ?_
    rintro rfl
    exact hspace (by decide)
  refine ⟨?_, fun b => ?_, fun b c => ?_, fun b => ?_, fun b c => ?_⟩
  · simp [isSpace₁, hcontrol, hblank]
  · simp [isSpace₂, hne 0xC2 (by decide)]
  · simp [isSpace₃, hne 0xE1 (by decide), hne 0xE2 (by decide), hne 0xE3 (by decide)]
  · simp [isSpace₂, hne 0x85 (by decide), hne 0xA0 (by decide)]
  · simp [isSpace₃, hnot, hne 0x80 (by decide), hne 0xA8 (by decide), hne 0xA9 (by decide),
      hne 0xAF (by decide), hne 0x9F (by decide)]

theorem trimSpaceLeft_of_plain (h : IsPlain a) : trimSpaceLeft (a :: s) = a :: s := by
  obtain ⟨h₁, h₂, h₃, -, -⟩ := h.isSpace_eq_false
  match s with
  | [] => simp [trimSpaceLeft, h₁]
  | [b] => simp [trimSpaceLeft, h₁, h₂]
  | b :: c :: s => simp [trimSpaceLeft, h₁, h₂, h₃]

theorem trimSpaceRev_of_plain (h : IsPlain a) : trimSpaceRev (a :: s) = a :: s := by
  obtain ⟨h₁, -, -, h₂, h₃⟩ := h.isSpace_eq_false
  match s with
  | [] => simp [trimSpaceRev, h₁]
  | [b] => simp [trimSpaceRev, h₁, h₂]
  | b :: c :: s => simp [trimSpaceRev, h₁, h₂, h₃]

theorem trimSpace_of_plain (h : ∀ c ∈ s, IsPlain c) : trimSpace s = s := by
  have hleft : trimSpaceLeft s = s := by
    cases s with
    | nil => rfl
    | cons a s => exact trimSpaceLeft_of_plain (h a List.mem_cons_self)
  have hrev : trimSpaceRev s.reverse = s.reverse := by
    cases hs : s.reverse with
    | nil => rfl
    | cons b t =>
        refine trimSpaceRev_of_plain (h b ?_)
        rw [← List.mem_reverse, hs]
        exact List.mem_cons_self
  rw [trimSpace, hleft, hrev, List.reverse_reverse]

end

end Go.Bytes
