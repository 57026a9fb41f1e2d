import Scrumboy.Go.Strings

/-!
# Letters and their lower case

Characters are the same letter if lower case forms lead from one to the other. The lower case of
ASCII, which databases know, is the lower case form of an ASCII character and no change of any
other.
-/

namespace Go

/-- The least equivalence under which a character is the same letter as its lower case form. -/
def SameLetter : Char → Char → Prop := Relation.EqvGen fun c d => d = toLowerRune c

theorem SameLetter.symm {c d : Char} (h : SameLetter c d) : SameLetter d c := Relation.EqvGen.symm _ _ h

theorem SameLetter.trans {c d e : Char} (h : SameLetter c d) (h' : SameLetter d e) : SameLetter c e :=
  Relation.EqvGen.trans _ _ _ h h'

theorem sameLetter_toLowerRune (c : Char) : SameLetter c (toLowerRune c) := .rel _ _ rfl

theorem toLower_of_not_capital {c : Char} (h : ¬ ('A' ≤ c ∧ c ≤ 'Z')) : c.toLower = c :=
  dif_neg h

theorem toLower_of_ascii {c : Char} (h : c.toNat < 128) : c.toLower = toLowerRune c :=
  forall_ascii (P := fun c => c.toLower = toLowerRune c) (by decide) c h

theorem toLower_of_not_ascii {c : Char} (h : ¬ c.toNat < 128) : c.toLower = c := by
  apply toLower_of_not_capital
  rintro ⟨-, hle⟩
  have hle : c.toNat ≤ 90 := hle
  omega

theorem sameLetter_toLower (c : Char) : SameLetter c c.toLower := by
  by_cases hc : c.toNat < 128
  · rw [toLower_of_ascii hc]
    exact sameLetter_toLowerRune c
  · rw [toLower_of_not_ascii hc]
    exact .refl c

/-- A lower case form is no capital letter of ASCII. -/
theorem toLower_toLowerRune (c : Char) : (toLowerRune c).toLower = toLowerRune c :=
  toLower_of_not_capital (toLowerRune_not_capital c)

/-- The letters of ASCII. -/
theorem isLetter_of_ascii {c : Char} (hascii : c.toNat < 128) (h : isLetter c = true) :
    ('A' ≤ c ∧ c ≤ 'Z') ∨ ('a' ≤ c ∧ c ≤ 'z') := by
  have htable : ∀ r ∈ letterRanges, 128 ≤ r.1 ∨ (65 ≤ r.1 ∧ r.2 ≤ 90) ∨ (97 ≤ r.1 ∧ r.2 ≤ 122) := by
    decide +kernel
  simp only [isLetter, inRanges, List.any_eq_true, Bool.and_eq_true, decide_eq_true_eq] at h
  obtain ⟨r, hr, hlo, hhi⟩ := h
  rcases htable r hr with hbeyond | ⟨hfrom, hto⟩ | ⟨hfrom, hto⟩
  · omega
  · exact .inl ⟨hfrom.trans hlo, hhi.trans hto⟩
  · exact .inr ⟨hfrom.trans hlo, hhi.trans hto⟩

/-- The digits of ASCII. -/
theorem isDigit_of_ascii {c : Char} (hascii : c.toNat < 128) (h : isDigit c = true) :
    '0' ≤ c ∧ c ≤ '9' := by
  have htable : ∀ r ∈ digitRanges, 128 ≤ r.1 ∨ (48 ≤ r.1 ∧ r.2 ≤ 57) := by decide +kernel
  simp only [isDigit, inRanges, List.any_eq_true, Bool.and_eq_true, decide_eq_true_eq] at h
  obtain ⟨r, hr, hlo, hhi⟩ := h
  rcases htable r hr with hbeyond | ⟨hfrom, hto⟩
  · omega
  · exact ⟨hfrom.trans hlo, hhi.trans hto⟩

theorem toLower_toLower (c : Char) : c.toLower.toLower = c.toLower := by
  by_cases hc : c.toNat < 128
  · rw [toLower_of_ascii hc, toLower_toLowerRune]
  · rw [toLower_of_not_ascii hc, toLower_of_not_ascii hc]

end Go
