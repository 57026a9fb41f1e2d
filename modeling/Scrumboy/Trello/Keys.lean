import Scrumboy.Trello.Transform

/-!
# The keys of the columns of a Trello board

The keys are assigned from left to right. A generated key is new, so that all keys are
distinct as long as the list that stands for done stories does not take its fixed key from
another list. A key that does not end in a digit belongs to the first list whose name leads
to it.
-/

set_option linter.dupNamespace false

namespace Scrumboy

open Go Sql

/-! ## One key -/

theorem isColumnKey_of_isValidWorkflowKey {key : String} (h : isValidWorkflowKey key = true) :
    IsColumnKey key := by
  simp only [isValidWorkflowKey, Bool.and_eq_true, bne_iff_ne, ne_eq, decide_eq_true_eq] at h
  obtain ⟨⟨⟨⟨hne, hlen⟩, hall⟩, hhead⟩, hlast⟩ := h
  have hchars : KeyChars key := .of_all hall
  have htrim : trimSpace key = key := trimSpace_eq_self key fun c hc => (keyChar_spec (hchars c hc)).1
  have hlist : key.toList ≠ [] := by
    intro hnil
    exact hne (String.toList_inj.mp hnil)
  have hend : ∀ c ∈ key.toList, some c ≠ some '_' → isLowerAlnum c = true := by
    intro c hc hcne
    exact (hchars c hc).resolve_right fun heq => hcne (heq ▸ rfl)
  refine hchars.isColumnKey ?_
  simp only [isValidColumnKey, htrim, Bool.and_eq_true, bne_iff_ne, ne_eq, decide_eq_true_eq, columnKeyRe]
  refine ⟨⟨?_, hlen⟩, ⟨hall, ?_⟩, ?_⟩
  · intro hzero
    rw [byteLen, String.utf8ByteSize_eq_zero_iff] at hzero
    exact hne hzero
  · rw [List.head?_eq_some_head hlist] at hhead ⊢
    exact hend _ (List.head_mem hlist) hhead
  · rw [List.getLast?_eq_some_getLast hlist] at hlast ⊢
    exact hend _ (List.getLast_mem hlist) hlast

/-- The last character of a text is a digit. -/
def EndsInDigit (s : String) : Prop := ∃ c, s.toList.getLast? = some c ∧ c.isDigit = true

theorem endsInDigit_suffixedWorkflowKey (baseKey : String) (i : ℕ) :
    EndsInDigit (suffixedWorkflowKey baseKey i) := by
  have hdigits : (formatInt (i : ℤ)).toList = Nat.toDigits 10 i := by
    rw [toList_formatInt, if_neg (by omega), Int.natAbs_natCast]
  have hne : Nat.toDigits 10 i ≠ [] := Nat.toDigits_ne_nil
  refine ⟨(Nat.toDigits 10 i).getLast hne, ?_, ?_⟩
  · rw [suffixedWorkflowKey, String.toList_append, String.toList_append, hdigits, List.getLast?_append,
      List.getLast?_append, List.getLast?_eq_some_getLast hne]
    rfl
  · exact Nat.isDigit_of_mem_toDigits (by decide) (by decide) (List.getLast_mem hne)

theorem uniqueWorkflowKey_spec {baseKey key : String} {used : List String}
    (h : Trello.uniqueWorkflowKey baseKey used = some key) :
    key ∉ used ∧ isValidWorkflowKey key = true ∧ (key = baseKey ∨ EndsInDigit key) := by
  unfold Trello.uniqueWorkflowKey at h
  dsimp only at h
  split at h
  · next hfree =>
    cases h
    exact ⟨hfree.1, hfree.2, .inl rfl⟩
  · have hfree : key ∉ used ∧ isValidWorkflowKey key = true := by simpa using List.find?_some h
    obtain ⟨i, _, rfl⟩ := List.mem_map.mp (List.mem_of_find?_eq_some h)
    exact ⟨hfree.1, hfree.2, .inr (endsInDigit_suffixedWorkflowKey baseKey i)⟩

/-- A key that cannot come from a number is the name that leads to it. -/
theorem uniqueWorkflowKey_eq_iff {baseKey key k : String} {used : List String}
    (h : Trello.uniqueWorkflowKey baseKey used = some key) (hvalid : isValidWorkflowKey k = true)
    (hdigit : ¬ EndsInDigit k) (hused : k ∉ used) : key = k ↔ baseKey = k := by
  constructor
  · rintro rfl
    exact ((uniqueWorkflowKey_spec h).2.2.resolve_right hdigit).symm
  · rintro rfl
    rw [Trello.uniqueWorkflowKey, if_pos ⟨hused, hvalid⟩] at h
    exact (Option.some.inj h).symm

theorem isValidWorkflowKey_done : isValidWorkflowKey "done" = true := by decide +kernel

theorem not_endsInDigit_done : ¬ EndsInDigit "done" := by
  rintro ⟨c, hc, hdigit⟩
  have : c = 'e' := (Option.some.inj hc).symm
  rw [this] at hdigit
  exact absurd hdigit (by decide)

theorem isValidWorkflowKey_in_progress : isValidWorkflowKey "in_progress" = true := by decide +kernel

theorem not_endsInDigit_in_progress : ¬ EndsInDigit "in_progress" := by
  rintro ⟨c, hc, hdigit⟩
  have : c = 's' := (Option.some.inj hc).symm
  rw [this] at hdigit
  exact absurd hdigit (by decide)

/-! ## All keys -/

def assignKeys : List String → List TrelloList → Option (List String)
  | _, [] => some []
  | used, l :: ls => do
      let key ← keyFor used l
      let keys ← assignKeys (key :: used) ls
      pure (key :: keys)

theorem keyFor_valid {used : List String} {l : TrelloList} {key : String} (h : keyFor used l = some key) :
    isValidWorkflowKey key = true := by
  unfold keyFor at h
  split at h
  · cases h
    exact isValidWorkflowKey_done
  · exact (uniqueWorkflowKey_spec h).2.1

theorem assignKeys_cons {used : List String} {l : TrelloList} {ls : List TrelloList} {keys : List String}
    (h : assignKeys used (l :: ls) = some keys) :
    ∃ key rest, keyFor used l = some key ∧ assignKeys (key :: used) ls = some rest ∧ keys = key :: rest := by
  simp only [assignKeys, bind, Option.bind_eq_some_iff, pure, Option.some.injEq] at h
  obtain ⟨key, hkey, rest, hrest, rfl⟩ := h
  exact ⟨key, rest, hkey, hrest, rfl⟩

theorem assignKeys_length {used : List String} {ls : List TrelloList} {keys : List String}
    (h : assignKeys used ls = some keys) : keys.length = ls.length := by
  induction ls generalizing used keys with
  | nil =>
      cases h
      rfl
  | cons l ls ih =>
      obtain ⟨key, rest, _, hrest, rfl⟩ := assignKeys_cons h
      rw [List.length_cons, List.length_cons, ih hrest]

theorem assignKeys_getElem? {used : List String} {ls : List TrelloList} {keys : List String} {i : ℕ}
    {l : TrelloList} {key : String} (h : assignKeys used ls = some keys) (hl : ls[i]? = some l)
    (hkey : keys[i]? = some key) : ∃ used, keyFor used l = some key := by
  induction ls generalizing used keys i with
  | nil => simp at hl
  | cons m ls ih =>
      obtain ⟨first, rest, hfirst, hrest, rfl⟩ := assignKeys_cons h
      cases i with
      | zero =>
          rw [List.getElem?_cons_zero, Option.some.injEq] at hl hkey
          exact ⟨used, hl ▸ hkey ▸ hfirst⟩
      | succ i =>
          rw [List.getElem?_cons_succ] at hl hkey
          exact ih hrest hl hkey

theorem assignKeys_valid {used : List String} {ls : List TrelloList} {keys : List String}
    (h : assignKeys used ls = some keys) : ∀ key ∈ keys, isValidWorkflowKey key = true := by
  induction ls generalizing used keys with
  | nil =>
      cases h
      exact fun key hkey => absurd hkey List.not_mem_nil
  | cons l ls ih =>
      obtain ⟨key, rest, hkey, hrest, rfl⟩ := assignKeys_cons h
      intro k hk
      rcases List.mem_cons.mp hk with rfl | hk
      · exact keyFor_valid hkey
      · exact ih hrest k hk

theorem assignKeys_append {used : List String} {pre post : List TrelloList} {keys : List String}
    (h : assignKeys used (pre ++ post) = some keys) :
    ∃ k₁ k₂, assignKeys used pre = some k₁ ∧ assignKeys (k₁.reverse ++ used) post = some k₂ ∧
      keys = k₁ ++ k₂ := by
  induction pre generalizing used keys with
  | nil => exact ⟨[], keys, rfl, h, rfl⟩
  | cons l pre ih =>
      obtain ⟨key, rest, hkey, hrest, rfl⟩ := assignKeys_cons h
      obtain ⟨k₁, k₂, hpre, hpost, rfl⟩ := ih hrest
      refine ⟨key :: k₁, k₂, ?_, ?_, rfl⟩
      · rw [assignKeys, hkey]
        simp only [bind, Option.bind_some, hpre]
        rfl
      · rwa [List.reverse_cons, List.append_assoc]

/-- Without the fixed key, all keys are new and distinct. -/
theorem assignKeys_nodup {used : List String} {ls : List TrelloList} {keys : List String}
    (h : assignKeys used ls = some keys) (hids : ∀ l ∈ ls, l.id ≠ syntheticDoneListID) :
    keys.Nodup ∧ ∀ key ∈ keys, key ∉ used := by
  induction ls generalizing used keys with
  | nil =>
      cases h
      exact ⟨List.nodup_nil, fun key hkey => absurd hkey List.not_mem_nil⟩
  | cons l ls ih =>
      obtain ⟨key, rest, hkey, hrest, rfl⟩ := assignKeys_cons h
      rw [keyFor, if_neg (hids l List.mem_cons_self)] at hkey
      have hnew := (uniqueWorkflowKey_spec hkey).1
      obtain ⟨hnodup, hfresh⟩ := ih hrest fun m hm => hids m (List.mem_cons_of_mem l hm)
      refine ⟨List.nodup_cons.mpr ⟨fun hmem => hfresh key hmem List.mem_cons_self, hnodup⟩, ?_⟩
      intro k hk
      rcases List.mem_cons.mp hk with rfl | hk
      · exact hnew
      · exact fun hused => hfresh k hk (List.mem_cons_of_mem key hused)

/-- Without the fixed key, a key that cannot come from a number is there if a name leads to it. -/
theorem mem_assignKeys_iff {used : List String} {ls : List TrelloList} {keys : List String} {k : String}
    (h : assignKeys used ls = some keys) (hids : ∀ l ∈ ls, l.id ≠ syntheticDoneListID)
    (hvalid : isValidWorkflowKey k = true) (hdigit : ¬ EndsInDigit k) (hused : k ∉ used) :
    k ∈ keys ↔ ∃ l ∈ ls, Trello.workflowKeyFromName l.name = k := by
  induction ls generalizing used keys with
  | nil =>
      cases h
      simp
  | cons l ls ih =>
      obtain ⟨key, rest, hkey, hrest, rfl⟩ := assignKeys_cons h
      rw [keyFor, if_neg (hids l List.mem_cons_self)] at hkey
      have hfirst := uniqueWorkflowKey_eq_iff hkey hvalid hdigit hused
      rw [List.mem_cons, List.exists_mem_cons_iff, ← hfirst]
      by_cases heq : key = k
      · simp [heq]
      · have hused' : k ∉ key :: used := List.not_mem_cons_of_ne_of_not_mem (Ne.symm heq) hused
        rw [ih hrest (fun m hm => hids m (List.mem_cons_of_mem l hm)) hused', eq_comm]

/-- A list gets the key that its name leads to. -/
def Claims (k : String) (l : TrelloList) : Bool :=
  l.id != syntheticDoneListID && Trello.workflowKeyFromName l.name == k

theorem keyFor_eq_iff {used : List String} {l : TrelloList} {key k : String} (h : keyFor used l = some key)
    (hvalid : isValidWorkflowKey k = true) (hdigit : ¬ EndsInDigit k) (hdone : k ≠ "done") (hused : k ∉ used) :
    key = k ↔ Claims k l = true := by
  unfold keyFor at h
  unfold Claims
  split at h
  · next hid =>
    cases h
    simp [hid, Ne.symm hdone]
  · next hid =>
    rw [uniqueWorkflowKey_eq_iff h hvalid hdigit hused]
    simp [hid]

theorem not_mem_assignKeys {used : List String} {ls : List TrelloList} {keys : List String} {k : String}
    (h : assignKeys used ls = some keys) (hdone : k ≠ "done") (hused : k ∈ used) : k ∉ keys := by
  induction ls generalizing used keys with
  | nil =>
      cases h
      exact List.not_mem_nil
  | cons l ls ih =>
      obtain ⟨key, rest, hkey, hrest, rfl⟩ := assignKeys_cons h
      refine List.not_mem_cons_of_ne_of_not_mem ?_ (ih hrest (List.mem_cons_of_mem key hused))
      rintro rfl
      unfold keyFor at hkey
      split at hkey
      · exact hdone (Option.some.inj hkey).symm
      · exact (uniqueWorkflowKey_spec hkey).1 hused

/-- The first list whose name leads to a key has it, and no other one. -/
theorem assignKeys_getElem?_eq_iff {used : List String} {ls : List TrelloList} {keys : List String} {k : String}
    (h : assignKeys used ls = some keys) (hvalid : isValidWorkflowKey k = true) (hdigit : ¬ EndsInDigit k)
    (hdone : k ≠ "done") (hused : k ∉ used) (i : ℕ) :
    keys[i]? = some k ↔ ls.findIdx? (Claims k) = some i := by
  induction ls generalizing used keys i with
  | nil =>
      cases h
      simp
  | cons l ls ih =>
      obtain ⟨key, rest, hkey, hrest, rfl⟩ := assignKeys_cons h
      have hfirst := keyFor_eq_iff hkey hvalid hdigit hdone hused
      rw [List.findIdx?_cons]
      by_cases hclaims : Claims k l = true
      · have hrest := not_mem_assignKeys hrest hdone (hfirst.mpr hclaims ▸ List.mem_cons_self)
        rw [if_pos hclaims]
        cases i with
        | zero => simpa using hfirst.mpr hclaims
        | succ i =>
            simp only [List.getElem?_cons_succ, Option.some.injEq, reduceCtorEq, iff_false]
            exact fun hmem => hrest (List.mem_of_getElem? hmem)
      · have hne : key ≠ k := fun heq => hclaims (hfirst.mp heq)
        have hused' : k ∉ key :: used := List.not_mem_cons_of_ne_of_not_mem (Ne.symm hne) hused
        rw [if_neg hclaims]
        cases i with
        | zero => simpa using hne
        | succ i =>
            rw [List.getElem?_cons_succ, ih hrest hused']
            simp

/-! ## The columns -/

theorem workflowStep_errors {doneID : String} {s : WorkflowScan} {ls : List (TrelloList × ℕ)}
    (h : (ls.foldl (workflowStep doneID) s).errors = []) : s.errors = [] := by
  induction ls generalizing s with
  | nil => exact h
  | cons li ls ih =>
      have h := ih h
      unfold workflowStep at h
      dsimp only at h
      split at h
      · exact (List.append_eq_nil_iff.mp h).1
      · exact h

/-- What the loop leaves when every list got a key. -/
theorem foldl_workflowStep {doneID : String} {s : WorkflowScan} {ls : List TrelloList} {n : ℕ}
    (h : ((ls.zipIdx n).foldl (workflowStep doneID) s).errors = []) :
    ∃ keys, assignKeys s.usedColumnKeys ls = some keys ∧
      ((ls.zipIdx n).foldl (workflowStep doneID) s).columns =
        s.columns ++ ((ls.zip keys).zipIdx n).map (fun p => workflowColumn doneID p.1.1 p.1.2 p.2) ∧
      ((ls.zipIdx n).foldl (workflowStep doneID) s).listToColumnKey =
        ((ls.map (·.id)).zip keys).reverse ++ s.listToColumnKey := by
  induction ls generalizing s n with
  | nil => exact ⟨[], rfl, by simp, by simp⟩
  | cons l ls ih =>
      rw [List.zipIdx_cons, List.foldl_cons] at h ⊢
      cases hkey : keyFor s.usedColumnKeys l with
      | none =>
          have herrors := workflowStep_errors h
          simp only [workflowStep, hkey] at herrors
          exact absurd herrors (by simp)
      | some key =>
          simp only [workflowStep, hkey] at h ⊢
          obtain ⟨keys, hassign, hcolumns, hmap⟩ := ih h
          refine ⟨key :: keys, ?_, ?_, ?_⟩
          · rw [assignKeys, hkey]
            simp only [bind, Option.bind_some, hassign]
            rfl
          · rw [hcolumns, List.zip_cons_cons, List.zipIdx_cons, List.map_cons, List.append_assoc]
            rfl
          · rw [hmap, List.map_cons, List.zip_cons_cons, List.reverse_cons, List.append_assoc]
            rfl

end Scrumboy
