import Mathlib.Data.List.Infix

/-!
# Cutting words into phrases

A list of words is composed of phrases if it can be cut into pieces each of which is one of them.
A reader that takes the longest phrase at each place finds a cut if it gets to the end, but the
longest phrase may leave words that no phrase begins with.
-/

namespace Phrases

variable {α : Type*} {phrases : List (List α)} {p words : List α}

/-- The words are phrases one behind the other. -/
inductive Composed (phrases : List (List α)) : List α → Prop
  | nil : Composed phrases []
  | append {p words : List α} (hp : p ∈ phrases) (h : Composed phrases words) :
      Composed phrases (p ++ words)

theorem Composed.exists_phrase (h : Composed phrases words) {w : α} (hw : w ∈ words) :
    ∃ p ∈ phrases, w ∈ p := by
  induction h with
  | nil => cases hw
  | append hp _ ih =>
      rcases List.mem_append.mp hw with hw | hw
      · exact ⟨_, hp, hw⟩
      · exact ih hw

/-- The phrase that the words begin with. -/
theorem Composed.exists_cons (h : Composed phrases words) (hne : [] ∉ phrases) {w : α}
    (hw : words.head? = some w) :
    ∃ p rest, p ∈ phrases ∧ p.head? = some w ∧ words = p ++ rest ∧ Composed phrases rest := by
  cases h with
  | nil => cases hw
  | @append p rest hp hrest =>
      cases p with
      | nil => exact absurd hp hne
      | cons v p => exact ⟨v :: p, rest, hp, hw, rfl, hrest⟩

variable [DecidableEq α]

/-- The length of the longest phrase that the words begin with. -/
def longest (phrases : List (List α)) (words : List α) : ℕ :=
  ((phrases.filter (·.isPrefixOf words)).map List.length).foldl max 0

theorem foldl_max_le {l : List ℕ} {m n : ℕ} : l.foldl max m ≤ n ↔ m ≤ n ∧ ∀ k ∈ l, k ≤ n := by
  induction l generalizing m with
  | nil => simp
  | cons k l ih => rw [List.foldl_cons, ih, Nat.max_le, List.forall_mem_cons, and_assoc]

theorem longest_le_iff {n : ℕ} :
    longest phrases words ≤ n ↔ ∀ p ∈ phrases, p <+: words → p.length ≤ n := by
  rw [longest, foldl_max_le, and_iff_right (Nat.zero_le n), List.forall_mem_map]
  refine forall_congr' fun p => ?_
  rw [List.mem_filter, List.isPrefixOf_iff_prefix, and_imp]

theorem length_le_longest (hp : p ∈ phrases) (h : p <+: words) : p.length ≤ longest phrases words :=
  longest_le_iff.mp le_rfl p hp h

theorem longest_le_length : longest phrases words ≤ words.length :=
  longest_le_iff.mpr fun _ _ h => h.length_le

/-- The longest phrase, if none is longer. -/
theorem longest_eq (hp : p ∈ phrases) (h : p <+: words)
    (hall : ∀ q ∈ phrases, q <+: words → q.length ≤ p.length) : longest phrases words = p.length :=
  le_antisymm (longest_le_iff.mpr hall) (length_le_longest hp h)

theorem longest_eq_zero (h : ∀ p ∈ phrases, ¬ p <+: words) : longest phrases words = 0 :=
  Nat.le_zero.mp (longest_le_iff.mpr fun p hp hbegins => absurd hbegins (h p hp))

/-- The longest phrase is one of them. -/
theorem take_longest_mem (h : longest phrases words ≠ 0) :
    words.take (longest phrases words) ∈ phrases := by
  by_contra hnot
  have hshort : longest phrases words ≤ longest phrases words - 1 := by
    refine longest_le_iff.mpr fun p hp hbegins => ?_
    have hle := length_le_longest hp hbegins
    have hne : p.length ≠ longest phrases words := by
      intro heq
      rw [← heq, ← List.prefix_iff_eq_take.mp hbegins] at hnot
      exact hnot hp
    omega
  omega

end Phrases
