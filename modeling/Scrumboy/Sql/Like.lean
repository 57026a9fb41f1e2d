import Scrumboy.Sql.Table
import Mathlib.Data.List.Infix

/-!
# Searching with `LIKE`

A pattern that stands for a piece of text somewhere in a column: each character with a meaning
has the escape character in front, and a `%` stands at either end. Such a pattern selects the
texts that contain the piece in either case of ASCII, whatever characters it is made of.
-/

namespace Sql

/-- The escape character goes in front of each character that a pattern has a meaning for. -/
def escapeLikeList (esc : Char) (piece : List Char) : List Char :=
  piece.flatMap fun c => if c = esc ∨ c = '%' ∨ c = '_' then [esc, c] else [c]

section

variable {esc : Char}

/-- An escaped character stands for itself, in front of any pattern. -/
theorem likeEscapeList_escaped (esc c : Char) (pattern text : List Char) :
    likeEscapeList esc ((if c = esc ∨ c = '%' ∨ c = '_' then [esc, c] else [c]) ++ pattern) text =
      match text with
      | [] => false
      | d :: text => c.toLower == d.toLower && likeEscapeList esc pattern text := by
  by_cases hspecial : c = esc ∨ c = '%' ∨ c = '_'
  · rw [if_pos hspecial]
    cases text with
    | nil => simp [likeEscapeList]
    | cons d text => simp [likeEscapeList]
  · rw [if_neg hspecial]
    obtain ⟨hesc, hpercent, hunder⟩ : c ≠ esc ∧ c ≠ '%' ∧ c ≠ '_' := by simpa only [not_or] using hspecial
    rw [List.singleton_append, likeEscapeList.eq_def]
    simp only [if_neg hesc, if_neg hpercent]
    cases text with
    | nil => rfl
    | cons d text =>
        dsimp only
        rw [beq_eq_false_iff_ne.mpr hunder, Bool.false_or]

/-- An escaped piece in front of a pattern takes a text of its length from the front. -/
theorem likeEscapeList_piece_iff {pattern : List Char} {piece text : List Char} :
    likeEscapeList esc (escapeLikeList esc piece ++ pattern) text = true ↔
      ∃ front rest, text = front ++ rest ∧ front.map Char.toLower = piece.map Char.toLower ∧
        likeEscapeList esc pattern rest = true := by
  induction piece generalizing text with
  | nil => simp [escapeLikeList]
  | cons c piece ih =>
      have hcons : escapeLikeList esc (c :: piece) ++ pattern =
          (if c = esc ∨ c = '%' ∨ c = '_' then [esc, c] else [c]) ++ (escapeLikeList esc piece ++ pattern) := by
        rw [escapeLikeList, List.flatMap_cons, List.append_assoc]
        rfl
      rw [hcons, likeEscapeList_escaped]
      cases text with
      | nil => simp
      | cons d text =>
          simp only [Bool.and_eq_true, beq_iff_eq, ih]
          constructor
          · rintro ⟨hcd, front, rest, rfl, hfront, hrest⟩
            exact ⟨d :: front, rest, rfl, by rw [List.map_cons, List.map_cons, hfront, hcd], hrest⟩
          · rintro ⟨front, rest, htext, hfront, hrest⟩
            cases front with
            | nil => cases hfront
            | cons e front =>
                obtain ⟨rfl, rfl⟩ := List.cons_eq_cons.mp htext
                obtain ⟨hed, hfront⟩ := List.cons_eq_cons.mp hfront
                exact ⟨hed.symm, front, rest, rfl, hfront, hrest⟩

theorem likeEscapeList_percent (hesc : esc ≠ '%') (pattern text : List Char) :
    likeEscapeList esc ('%' :: pattern) text = text.tails.any (likeEscapeList esc pattern) := by
  rw [likeEscapeList.eq_def]
  simp [hesc.symm]

theorem likeEscapeList_percent_nil (hesc : esc ≠ '%') (text : List Char) :
    likeEscapeList esc ['%'] text = true := by
  rw [likeEscapeList_percent hesc, List.any_eq_true]
  exact ⟨[], (List.mem_tails _ _).mpr (List.nil_suffix), rfl⟩

/-- The texts that contain a piece, in either case of ASCII. -/
theorem likeEscapeList_contains_iff (hesc : esc ≠ '%') {piece text : List Char} :
    likeEscapeList esc ('%' :: escapeLikeList esc piece ++ ['%']) text = true ↔
      ∃ found, found <:+: text ∧ found.map Char.toLower = piece.map Char.toLower := by
  rw [List.cons_append, likeEscapeList_percent hesc, List.any_eq_true]
  simp only [List.mem_tails, likeEscapeList_piece_iff, likeEscapeList_percent_nil hesc, and_true]
  constructor
  · rintro ⟨_, ⟨before, rfl⟩, found, rest, rfl, hfound⟩
    exact ⟨found, ⟨before, rest, List.append_assoc _ _ _⟩, hfound⟩
  · rintro ⟨found, ⟨before, rest, rfl⟩, hfound⟩
    exact ⟨found ++ rest, ⟨before, (List.append_assoc _ _ _).symm⟩, found, rest, rfl, hfound⟩

end

end Sql
