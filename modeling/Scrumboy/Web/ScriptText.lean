import Scrumboy.Go.Strings

/-!
# Texts of the client

White space as the language of the client has it, and the replacement of runs of characters.
-/

set_option linter.dupNamespace false

namespace Scrumboy

open Go

/-- The class `\s` of a regular expression, which is also what `trim` takes away. -/
def isScriptSpace (c : Char) : Bool :=
  inRanges [(9, 13), (32, 32), (0xA0, 0xA0), (0x1680, 0x1680), (0x2000, 0x200A), (0x2028, 0x2029),
    (0x202F, 0x202F), (0x205F, 0x205F), (0x3000, 0x3000), (0xFEFF, 0xFEFF)] c

/-- `trim()`. -/
def trimScript (s : String) : String := trimFunc isScriptSpace s

/-- `replace(/[...]+/g, "r")`: a run of characters of a class becomes one `r`. -/
def replaceRunsList (p : Char → Bool) (r : Char) : Bool → List Char → List Char
  | _, [] => []
  | inRun, c :: cs =>
      if p c then (if inRun then [] else [r]) ++ replaceRunsList p r true cs
      else c :: replaceRunsList p r false cs

def replaceRuns (p : Char → Bool) (r : Char) (s : String) : String :=
  String.ofList (replaceRunsList p r false s.toList)

section

variable {p q : Char → Bool} {r : Char}

theorem replaceRunsList_pos {c : Char} (hc : p c = true) (inRun : Bool) (l : List Char) :
    replaceRunsList p r inRun (c :: l) = (if inRun then [] else [r]) ++ replaceRunsList p r true l :=
  if_pos hc

theorem replaceRunsList_neg {c : Char} (hc : ¬ p c = true) (inRun : Bool) (l : List Char) :
    replaceRunsList p r inRun (c :: l) = c :: replaceRunsList p r false l := if_neg hc

/-- Runs of a class that are replaced first belong to the runs that are replaced next. -/
theorem replaceRunsList_replaceRunsList (hr : q r = true) {l : List Char} {inner outer : Bool}
    (h : inner = true → outer = true) :
    replaceRunsList q r outer (replaceRunsList p r inner l) =
      replaceRunsList (fun c => p c || q c) r outer l := by
  induction l generalizing inner outer with
  | nil => rfl
  | cons c l ih =>
      by_cases hp : p c = true
      · have hboth : (p c || q c) = true := by rw [hp, Bool.true_or]
        rw [replaceRunsList_pos hp, replaceRunsList_pos hboth]
        cases inner with
        | true =>
            rw [h rfl, if_pos rfl, List.nil_append, List.nil_append]
            exact ih fun _ => rfl
        | false =>
            rw [if_neg Bool.false_ne_true, List.singleton_append, replaceRunsList_pos hr, ih fun _ => rfl]
      · have hfalse : ∀ {b : Bool}, false = true → b = true := fun h => nomatch h
        rw [replaceRunsList_neg hp]
        by_cases hq : q c = true
        · have hboth : (p c || q c) = true := by rw [hq, Bool.or_true]
          rw [replaceRunsList_pos hq, replaceRunsList_pos hboth, ih hfalse]
        · have hnone : ¬ (p c || q c) = true := by simp [hp, hq]
          rw [replaceRunsList_neg hq, replaceRunsList_neg hnone, ih hfalse]

theorem mem_replaceRunsList {l : List Char} {inRun : Bool} {c : Char}
    (h : c ∈ replaceRunsList p r inRun l) : c = r ∨ c ∈ l ∧ ¬ p c = true := by
  induction l generalizing inRun with
  | nil => cases h
  | cons d l ih =>
      by_cases hd : p d = true
      · rw [replaceRunsList_pos hd] at h
        rcases List.mem_append.mp h with h | h
        · cases inRun with
          | true => cases h
          | false => exact .inl (List.mem_singleton.mp h)
        · exact (ih h).imp_right fun h => ⟨List.mem_cons_of_mem d h.1, h.2⟩
      · rw [replaceRunsList_neg hd] at h
        rcases List.mem_cons.mp h with rfl | h
        · exact .inr ⟨List.mem_cons_self, hd⟩
        · exact (ih h).imp_right fun h => ⟨List.mem_cons_of_mem d h.1, h.2⟩

theorem dropWhile_congr {l : List Char} (h : ∀ c ∈ l, p c = q c) : l.dropWhile p = l.dropWhile q := by
  induction l with
  | nil => rfl
  | cons c l ih =>
      rw [List.forall_mem_cons] at h
      rw [List.dropWhile_cons, List.dropWhile_cons, h.1, ih h.2]

/-- Where two classes have the same characters of a text, the text is trimmed alike. -/
theorem trim_congr {l : List Char} (h : ∀ c ∈ l, p c = q c) :
    (l.dropWhile p).rdropWhile p = (l.dropWhile q).rdropWhile q := by
  rw [dropWhile_congr h, List.rdropWhile, List.rdropWhile, dropWhile_congr]
  exact fun c hc => h c ((List.dropWhile_sublist q).subset (List.mem_reverse.mp hc))

theorem dropWhile_replaceRunsList (hr : p r = true) (l : List Char) :
    (replaceRunsList p r false l).dropWhile (· == r) = replaceRunsList p r true l := by
  have hne : ∀ c, ¬ p c = true → c ≠ r := fun c hc h => hc (h ▸ hr)
  have hkeep : (replaceRunsList p r true l).dropWhile (· == r) = replaceRunsList p r true l := by
    induction l with
    | nil => rfl
    | cons c l ih =>
        by_cases hc : p c = true
        · rw [replaceRunsList_pos hc]
          exact ih
        · simp [replaceRunsList_neg hc, hne c hc]
  cases l with
  | nil => rfl
  | cons c l =>
      by_cases hc : p c = true
      · rw [replaceRunsList_pos hc] at hkeep ⊢
        rw [replaceRunsList_pos hc]
        simpa using hkeep
      · simp [replaceRunsList_neg hc, hne c hc]

theorem rdropWhile_cons (a : Char) (l : List Char) : (a :: l).rdropWhile p =
    if l.rdropWhile p = [] then (if p a then [] else [a]) else a :: l.rdropWhile p := by
  rw [List.rdropWhile, List.reverse_cons, List.dropWhile_append, List.rdropWhile]
  cases h : l.reverse.dropWhile p with
  | nil => by_cases ha : p a = true <;> simp [ha]
  | cons b m => simp

/-- The pieces of a text between runs of a class. -/
def pieces (p : Char → Bool) (l : List Char) : List (List Char) := (splitList p l).filter (· ≠ [])

theorem ne_nil_of_mem_pieces {l w : List Char} (h : w ∈ pieces p l) : w ≠ [] := by
  simpa using List.of_mem_filter h

theorem pieces_pos {c : Char} (hc : p c = true) (l : List Char) : pieces p (c :: l) = pieces p l := by
  simp [pieces, splitList, hc]

theorem pieces_neg_pos {c d : Char} (hc : ¬ p c = true) (hd : p d = true) (l : List Char) :
    pieces p (c :: d :: l) = [c] :: pieces p l := by
  simp [pieces, splitList, hc, hd]

theorem pieces_neg_neg {c d : Char} (hc : ¬ p c = true) (hd : ¬ p d = true) (l : List Char) :
    ∃ w ws, pieces p (d :: l) = w :: ws ∧ pieces p (c :: d :: l) = (c :: w) :: ws := by
  cases h : splitList p l with
  | nil => exact ⟨[d], [], by simp [pieces, splitList, hd, h], by simp [pieces, splitList, hc, hd, h]⟩
  | cons w ws =>
      exact ⟨d :: w, ws.filter (· ≠ []), by simp [pieces, splitList, hd, h],
        by simp [pieces, splitList, hc, hd, h]⟩

theorem not_of_mem_splitList {l w : List Char} (h : w ∈ splitList p l) : ∀ c ∈ w, ¬ p c = true := by
  induction l generalizing w with
  | nil =>
      obtain rfl := List.mem_singleton.mp h
      exact nofun
  | cons c l ih =>
      by_cases hc : p c = true
      · rw [splitList, if_pos hc] at h
        rcases List.mem_cons.mp h with rfl | h
        · exact nofun
        · exact ih h
      · rw [splitList, if_neg hc] at h
        split at h
        · obtain rfl := List.mem_singleton.mp h
          exact List.forall_mem_singleton.mpr hc
        · next v vs hsplit =>
          rw [hsplit] at ih
          rcases List.mem_cons.mp h with rfl | h
          · exact List.forall_mem_cons.mpr ⟨hc, ih List.mem_cons_self⟩
          · exact ih (List.mem_cons_of_mem v h)

theorem not_of_mem_pieces {l w : List Char} (h : w ∈ pieces p l) : ∀ c ∈ w, ¬ p c = true :=
  not_of_mem_splitList (List.mem_of_mem_filter h)

theorem splitList_of_none {w : List Char} (h : ∀ c ∈ w, ¬ p c = true) : splitList p w = [w] := by
  induction w with
  | nil => rfl
  | cons c w ih =>
      rw [List.forall_mem_cons] at h
      rw [splitList, if_neg h.1, ih h.2]

theorem splitList_append {w l : List Char} {c : Char} (h : ∀ d ∈ w, ¬ p d = true) (hc : p c = true) :
    splitList p (w ++ c :: l) = w :: splitList p l := by
  induction w with
  | nil => rw [List.nil_append, splitList, if_pos hc]
  | cons d w ih =>
      rw [List.forall_mem_cons] at h
      rw [List.cons_append, splitList, if_neg h.1, ih h.2]

/-- Words are the pieces of what they are put together to. -/
theorem pieces_intercalate {ws : List (List Char)} (h : ∀ w ∈ ws, w ≠ [] ∧ r ∉ w) :
    pieces (· == r) ([r].intercalate ws) = ws := by
  have hnone : ∀ {w : List Char}, r ∉ w → ∀ c ∈ w, ¬ (c == r) = true := fun hw c hc heq =>
    hw (beq_iff_eq.mp heq ▸ hc)
  induction ws with
  | nil => rfl
  | cons w ws ih =>
      rw [List.forall_mem_cons] at h
      by_cases hnil : ws = []
      · rw [hnil, List.intercalate_singleton, pieces, splitList_of_none (hnone h.1.2)]
        simp [h.1.1]
      · rw [List.intercalate_cons_of_ne_nil hnil, List.append_assoc, List.singleton_append, pieces,
          splitList_append (hnone h.1.2) (beq_self_eq_true r), List.filter_cons_of_pos (by simpa using h.1.1)]
        exact congrArg (w :: ·) (ih h.2)

theorem intercalate_eq_nil {sep : List Char} {ws : List (List Char)} (hne : ∀ w ∈ ws, w ≠ [])
    (h : sep.intercalate ws = []) : ws = [] := by
  cases ws with
  | nil => rfl
  | cons w ws =>
      have hw := hne w List.mem_cons_self
      cases ws with
      | nil => exact absurd (by simpa using h) hw
      | cons v vs =>
          rw [List.intercalate_cons_cons, List.append_assoc, List.append_eq_nil_iff] at h
          exact absurd h.1 hw

/-- What is left of a text when runs of a class become one character, and the ends none. -/
theorem trim_replaceRunsList (hr : p r = true) (l : List Char) :
    ((replaceRunsList p r false l).dropWhile (· == r)).rdropWhile (· == r) =
      [r].intercalate (pieces p l) := by
  rw [dropWhile_replaceRunsList hr]
  induction l with
  | nil => rfl
  | cons c l ih =>
      by_cases hc : p c = true
      · rw [replaceRunsList_pos hc, pieces_pos hc]
        exact ih
      · have hne : ¬ (c == r) = true := fun h => hc ((beq_iff_eq.mp h) ▸ hr)
        rw [replaceRunsList_neg hc]
        cases l with
        | nil => simp [replaceRunsList, pieces, splitList, hc, rdropWhile_cons, hne]
        | cons d l =>
            by_cases hd : p d = true
            · rw [replaceRunsList_pos hd, if_pos rfl, List.nil_append, pieces_pos hd] at ih
              rw [replaceRunsList_pos hd, if_neg Bool.false_ne_true, List.singleton_append, rdropWhile_cons,
                rdropWhile_cons, ih, pieces_neg_pos hc hd]
              by_cases hnil : pieces p l = []
              · simp [hnil, hne]
              · have hnil' : ¬ [r].intercalate (pieces p l) = [] := fun h =>
                  hnil (intercalate_eq_nil (fun _ => ne_nil_of_mem_pieces) h)
                rw [List.intercalate_cons_of_ne_nil hnil]
                simp [hnil']
            · obtain ⟨w, ws, hd', hcd⟩ := pieces_neg_neg hc hd l
              rw [replaceRunsList_neg hd] at ih ⊢
              have hnil : ¬ [r].intercalate (w :: ws) = [] := by
                intro h
                have hall : ∀ v ∈ w :: ws, v ≠ [] := by
                  rw [← hd']
                  exact fun _ => ne_nil_of_mem_pieces
                exact List.cons_ne_nil _ _ (intercalate_eq_nil hall h)
              rw [rdropWhile_cons, ih, hd', hcd, if_neg hnil]
              cases ws <;> simp [List.intercalate_cons_cons]

end

end Scrumboy
