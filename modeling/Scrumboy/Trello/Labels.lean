import Scrumboy.Trello.Shape
import Scrumboy.Store.TagLookup
import Mathlib.Data.List.Dedup

/-!
# The labels of a Trello board

A label becomes a tag with the name of the label. A name that comes again, in any case, gets a
number in parentheses, and parentheses have no canonical form: so all labels have names that can
be tags exactly when their own names can and none comes again.
-/

set_option linter.dupNamespace false

namespace Scrumboy

open Go Sql

/-- The labels of a card by their ids. -/
def TrelloCard.labelIDs (card : TrelloCard) : List String := (card.idLabels.map trimSpace).filter (· ≠ "")

/-- The name that a label is told apart by. -/
def labelKey (label : TrelloLabel) : String := toLower (labelBaseName label)

/-- The name of a label behind labels with the keys `used`. -/
def labelName (used : List String) (label : TrelloLabel) : String :=
  if 1 < used.count (labelKey label) + 1 then
    labelBaseName label ++ " (" ++ formatInt (used.count (labelKey label) + 1 : ℕ) ++ ")"
  else labelBaseName label

def namedLabels : List String → List TrelloLabel → List (TrelloLabel × String)
  | _, [] => []
  | used, label :: labels => (label, labelName used label) :: namedLabels (labelKey label :: used) labels

/-! ## Names -/

section

variable {rt : Runtime}

/-- An opening parenthesis is a character of its own in every text. -/
def KeepsParentheses (rt : Runtime) : Prop := ∀ s : String, '(' ∈ s.toList → '(' ∈ (rt.nfc s).toList

theorem canonicalizeTag_of_paren (h : KeepsParentheses rt) {name : String} (hname : '(' ∈ name.toList) :
    canonicalizeTag rt name = "" :=
  canonicalizeTag_of_refused (by decide +kernel) (by decide) (by decide +kernel) (by decide +kernel)
    (by decide +kernel) h hname

theorem paren_mem_labelName {used : List String} {label : TrelloLabel} (h : labelKey label ∈ used) :
    '(' ∈ (labelName used label).toList := by
  have hcount := List.count_pos_iff.mpr h
  rw [labelName, if_pos (by omega)]
  simp only [String.toList_append, List.mem_append]
  exact .inl (.inl (.inr (by decide)))

theorem labelName_of_not_mem {used : List String} {label : TrelloLabel} (h : labelKey label ∉ used) :
    labelName used label = labelBaseName label := by
  rw [labelName, List.count_eq_zero.mpr h]
  rfl

theorem namedLabels_of_nodup {used : List String} {labels : List TrelloLabel} (h : (labels.map labelKey).Nodup)
    (hnew : ∀ l ∈ labels, labelKey l ∉ used) :
    namedLabels used labels = labels.map fun l => (l, labelBaseName l) := by
  induction labels generalizing used with
  | nil => rfl
  | cons l labels ih =>
      obtain ⟨hl, hnew⟩ := List.forall_mem_cons.mp hnew
      rw [List.map_cons, List.nodup_cons] at h
      rw [namedLabels, labelName_of_not_mem hl, List.map_cons, ih h.2 fun m hm hmem => ?_]
      rcases List.mem_cons.mp hmem with heq | hmem
      · exact h.1 (heq ▸ List.mem_map_of_mem hm)
      · exact hnew m hm hmem

theorem nodup_of_namedLabels {used : List String} {labels : List TrelloLabel}
    (h : ∀ x ∈ namedLabels used labels, '(' ∉ x.2.toList) :
    (labels.map labelKey).Nodup ∧ ∀ l ∈ labels, labelKey l ∉ used := by
  induction labels generalizing used with
  | nil => simp
  | cons l labels ih =>
      rw [namedLabels] at h
      obtain ⟨hl, h⟩ := List.forall_mem_cons.mp h
      obtain ⟨hnodup, hnew⟩ := ih h
      rw [List.map_cons, List.nodup_cons, List.forall_mem_cons]
      refine ⟨⟨fun hmem => ?_, hnodup⟩, fun hmem => hl (paren_mem_labelName hmem), fun m hm hmem => ?_⟩
      · obtain ⟨m, hm, heq⟩ := List.mem_map.mp hmem
        exact hnew m hm (heq ▸ List.mem_cons_self)
      · exact hnew m hm (List.mem_cons_of_mem _ hmem)

/-- The names can all be tags exactly when those of the labels can and none comes again. -/
theorem namedLabels_canonical_iff (hparen : KeepsParentheses rt) (labels : List TrelloLabel) :
    (∀ x ∈ namedLabels [] labels, canonicalizeTag rt x.2 ≠ "") ↔
      (labels.map labelKey).Nodup ∧ ∀ l ∈ labels, canonicalizeTag rt (labelBaseName l) ≠ "" := by
  constructor
  · intro h
    have hnodup := (nodup_of_namedLabels fun x hx hmem => h x hx (canonicalizeTag_of_paren hparen hmem)).1
    refine ⟨hnodup, fun l hl => ?_⟩
    rw [namedLabels_of_nodup hnodup (by simp)] at h
    exact h _ (List.mem_map_of_mem hl)
  · rintro ⟨hnodup, hcanonical⟩ x hx
    rw [namedLabels_of_nodup hnodup (by simp)] at hx
    obtain ⟨l, hl, rfl⟩ := List.mem_map.mp hx
    exact hcanonical l hl

theorem buildTagExports_eq (labels : List TrelloLabel) :
    buildTagExports labels =
      ((namedLabels [] (orderBy TrelloLabel.sortKey labels)).map fun x => (x.1.id, x.2),
        (namedLabels [] (orderBy TrelloLabel.sortKey labels)).map fun x =>
          { name := x.2, color := trelloLabelColorHex x.1.color }) := by
  have hfold : ∀ (labels : List TrelloLabel) (out : List (TrelloLabel × String)) (used : List String),
      (labels.foldl (fun (s : List (TrelloLabel × String) × List String) label =>
        (s.1 ++ [(label, labelName s.2 label)], labelKey label :: s.2)) (out, used)).1 =
          out ++ namedLabels used labels := by
    intro labels
    induction labels with
    | nil => exact fun out used => (List.append_nil out).symm
    | cons l labels ih =>
        intro out used
        rw [List.foldl_cons, ih, namedLabels, List.append_assoc]
        rfl
  have heq := hfold (orderBy TrelloLabel.sortKey labels) [] []
  rw [List.nil_append] at heq
  rw [← heq]
  rfl

end

/-! ## Labels of a board -/

namespace TrelloBoard

/-- The labels of the board: each id once. -/
def boardLabels (b : TrelloBoard) : List TrelloLabel := b.labelScan.2

end TrelloBoard

section

variable {b : TrelloBoard}

theorem boardLabels_ids (b : TrelloBoard) : (b.boardLabels.map (·.id)).Nodup := by
  have hnew : ∀ (labels : List TrelloLabel) (l : TrelloLabel) (id : String), (labels.map (·.id)).Nodup →
      id ∉ labels.map (·.id) → ((labels ++ [({ l with id := id } : TrelloLabel)]).map (·.id)).Nodup := by
    intro labels l id h hid
    rw [List.map_append, List.map_singleton]
    refine List.nodup_append.mpr ⟨h, List.nodup_singleton _, fun a ha c hc => ?_⟩
    rw [List.mem_singleton.mp hc]
    rintro rfl
    exact hid ha
  have hboard : ∀ (labels : List TrelloLabel) (s : List String × List TrelloLabel), (s.2.map (·.id)).Nodup →
      ((labels.foldl (fun (s : List String × List TrelloLabel) (label : TrelloLabel) =>
        let labelID := trimSpace label.id
        if labelID = "" then (s.1, s.2)
        else if labelID ∈ s.2.map (·.id) then (s.1 ++ ["Duplicate Trello label id: " ++ labelID], s.2)
        else (s.1, s.2 ++ [{ label with id := labelID }])) s).2.map (·.id)).Nodup := by
    intro labels
    induction labels with
    | nil => exact fun _ h => h
    | cons l labels ih =>
        intro s h
        refine ih _ ?_
        dsimp only
        split
        · exact h
        · split
          · exact h
          · exact hnew s.2 l _ h ‹_›
  have hcards : ∀ (labels out : List TrelloLabel), (out.map (·.id)).Nodup →
      ((labels.foldl (fun (labels : List TrelloLabel) (label : TrelloLabel) =>
        let labelID := trimSpace label.id
        if labelID = "" ∨ labelID ∈ labels.map (·.id) then labels
        else labels ++ [{ label with id := labelID }]) out).map (·.id)).Nodup := by
    intro labels
    induction labels with
    | nil => exact fun _ h => h
    | cons l labels ih =>
        intro out h
        refine ih _ ?_
        dsimp only
        split
        · exact h
        · next hskip => exact hnew out l _ h fun hmem => hskip (.inr hmem)
  exact hcards _ _ (hboard b.labels ([], []) List.nodup_nil)

/-- No label comes again, up to the case of its name. -/
def DistinctLabels (b : TrelloBoard) : Prop := (b.boardLabels.map labelKey).Nodup

theorem lookup_map_of_nodup {f : TrelloLabel → String} {labels : List TrelloLabel}
    (h : (labels.map (·.id)).Nodup) {l : TrelloLabel} (hl : l ∈ labels) :
    (labels.map fun l => (l.id, f l)).lookup l.id = some (f l) := by
  induction labels with
  | nil => cases hl
  | cons m labels ih =>
      rw [List.map_cons, List.nodup_cons] at h
      rw [List.map_cons]
      rcases List.mem_cons.mp hl with rfl | hl
      · rw [List.lookup_cons, beq_self_eq_true]
      · have hne : (l.id == m.id) = false := by
          rw [beq_eq_false_iff_ne]
          exact fun heq => h.1 (heq ▸ List.mem_map_of_mem hl)
        rw [List.lookup_cons, hne]
        exact ih h.2 hl

theorem DistinctLabels.namedLabels (h : DistinctLabels b) :
    namedLabels [] (orderBy TrelloLabel.sortKey b.boardLabels) =
      (orderBy TrelloLabel.sortKey b.boardLabels).map fun l => (l, labelBaseName l) :=
  namedLabels_of_nodup (((orderBy_perm _ _).map _).nodup_iff.mpr h) (by simp)

/-- Each label keeps its own name. -/
theorem DistinctLabels.lookup_eq (h : DistinctLabels b) {l : TrelloLabel} (hl : l ∈ b.boardLabels) :
    b.labelNameByID.lookup l.id = some (labelBaseName l) := by
  have hids : ((orderBy TrelloLabel.sortKey b.boardLabels).map (·.id)).Nodup :=
    ((orderBy_perm _ _).map _).nodup_iff.mpr (boardLabels_ids b)
  rw [TrelloBoard.labelNameByID, buildTagExports_eq]
  dsimp only
  rw [← TrelloBoard.boardLabels, h.namedLabels, List.map_map]
  exact lookup_map_of_nodup hids (mem_orderBy.mpr hl)

theorem foldl_insertNew {α β : Type*} [DecidableEq β] {skip : α → Prop} [DecidablePred skip] (f : α → β)
    (l : List α) (out : List β) (hout : out.Nodup) :
    (l.foldl (fun out a => if skip a then out else if f a ∈ out then out else out ++ [f a]) out).Nodup ∧
      ∀ c, c ∈ l.foldl (fun out a => if skip a then out else if f a ∈ out then out else out ++ [f a]) out ↔
        c ∈ out ∨ ∃ a ∈ l, ¬ skip a ∧ f a = c := by
  induction l generalizing out with
  | nil => exact ⟨hout, by simp⟩
  | cons a l ih =>
      rw [List.foldl_cons]
      by_cases hskip : skip a
      · rw [if_pos hskip]
        obtain ⟨hnodup, hmem⟩ := ih out hout
        exact ⟨hnodup, fun c => by simp [hmem, hskip]⟩
      · rw [if_neg hskip]
        split
        · next hold =>
          obtain ⟨hnodup, hmem⟩ := ih out hout
          refine ⟨hnodup, fun c => ?_⟩
          rw [hmem, List.exists_mem_cons_iff]
          constructor
          · exact fun h => h.imp_right .inr
          · rintro (h | ⟨_, rfl⟩ | h)
            · exact .inl h
            · exact .inl hold
            · exact .inr h
        · next hnew =>
          obtain ⟨hnodup, hmem⟩ := ih (out ++ [f a])
            (List.nodup_append.mpr ⟨hout, List.nodup_singleton _, fun x hx y hy => by
              rw [List.mem_singleton.mp hy]
              rintro rfl
              exact hnew hx⟩)
          refine ⟨hnodup, fun c => ?_⟩
          rw [hmem, List.exists_mem_cons_iff, List.mem_append, List.mem_singleton, or_assoc]
          refine or_congr_right (or_congr_left ⟨fun h => ⟨hskip, h.symm⟩, fun h => h.2.symm⟩)

/-! ## Labels of a card -/

namespace Accepted

variable (h : Accepted b)

include h

theorem exists_label {card : TrelloCard} (hcard : card ∈ b.cards) {id : String} (hid : id ∈ card.labelIDs) :
    ∃ l ∈ b.boardLabels, l.id = id := by
  obtain ⟨list, hlist, hblank⟩ := h.exists_sourceList hcard
  have hnone : (b.convertCard card).1 = [] := List.flatMap_eq_nil_iff.mp h.cardErrors card hcard
  simp only [TrelloBoard.convertCard, hlist, if_neg hblank] at hnone
  obtain ⟨hmem, hne⟩ := List.mem_filter.mp hid
  by_contra hunknown
  have hnot : id ∉ b.labelScan.2.map (·.id) := fun hin => by
    obtain ⟨l, hl, rfl⟩ := List.mem_map.mp hin
    exact hunknown ⟨l, hl, rfl⟩
  have hne : id ≠ "" := of_decide_eq_true hne
  have herror := List.filterMap_eq_nil_iff.mp hnone id hmem
  rw [if_pos ⟨hne, hnot⟩] at herror
  cases herror

/-- The names of the tags of a card are those of its labels. -/
theorem mem_cardTagNames (hdistinct : DistinctLabels b) {card : TrelloCard} (hcard : card ∈ b.cards) (n : String) :
    n ∈ b.cardTagNames card ↔ ∃ l ∈ b.boardLabels, l.id ∈ card.labelIDs ∧ labelBaseName l = n := by
  rw [TrelloBoard.cardTagNames, (foldl_insertNew (fun id => (b.labelNameByID.lookup id).getD "")
    (card.idLabels.map trimSpace) [] List.nodup_nil).2]
  constructor
  · rintro (hnil | ⟨id, hid, hskip, rfl⟩)
    · cases hnil
    · push Not at hskip
      have hmem : id ∈ card.labelIDs := List.mem_filter.mpr ⟨hid, decide_eq_true hskip.1⟩
      obtain ⟨l, hl, rfl⟩ := h.exists_label hcard hmem
      exact ⟨l, hl, hmem, by rw [hdistinct.lookup_eq hl]; rfl⟩
  · rintro ⟨l, hl, hid, rfl⟩
    obtain ⟨hmem, hne⟩ := List.mem_filter.mp hid
    refine .inr ⟨l.id, hmem, ?_, by rw [hdistinct.lookup_eq hl]; rfl⟩
    push Not
    exact ⟨of_decide_eq_true hne, List.mem_map_of_mem hl⟩

/-- There are as many as the card has labels. -/
theorem length_cardTagNames (hdistinct : DistinctLabels b) {card : TrelloCard} (hcard : card ∈ b.cards) :
    (b.cardTagNames card).length = card.labelIDs.dedup.length := by
  have hname : ∀ id ∈ card.labelIDs, ∃ l ∈ b.boardLabels, l.id = id ∧
      (b.labelNameByID.lookup id).getD "" = labelBaseName l := by
    intro id hid
    obtain ⟨l, hl, rfl⟩ := h.exists_label hcard hid
    exact ⟨l, hl, rfl, by rw [hdistinct.lookup_eq hl]; rfl⟩
  have hnodup : (card.labelIDs.dedup.map fun id => (b.labelNameByID.lookup id).getD "").Nodup := by
    refine List.Nodup.map_on (fun id hid id' hid' heq => ?_) (List.nodup_dedup _)
    obtain ⟨l, hl, rfl, hl'⟩ := hname id (List.mem_dedup.mp hid)
    obtain ⟨m, hm, rfl, hm'⟩ := hname id' (List.mem_dedup.mp hid')
    have hkey : labelKey l = labelKey m := by rw [labelKey, labelKey, ← hl', ← hm', heq]
    rw [List.inj_on_of_nodup_map hdistinct hl hm hkey]
  have hperm : (b.cardTagNames card).Perm (card.labelIDs.dedup.map fun id => (b.labelNameByID.lookup id).getD "") := by
    refine (List.perm_ext_iff_of_nodup ?_ hnodup).mpr fun n => ?_
    · exact (foldl_insertNew _ (card.idLabels.map trimSpace) [] List.nodup_nil).1
    · rw [h.mem_cardTagNames hdistinct hcard, List.mem_map]
      constructor
      · rintro ⟨l, hl, hid, rfl⟩
        exact ⟨l.id, List.mem_dedup.mpr hid, by rw [hdistinct.lookup_eq hl]; rfl⟩
      · rintro ⟨id, hid, rfl⟩
        obtain ⟨l, hl, rfl, heq⟩ := hname id (List.mem_dedup.mp hid)
        exact ⟨l, hl, List.mem_dedup.mp hid, heq.symm⟩
  rw [hperm.length_eq, List.length_map]

end Accepted

end

end Scrumboy
