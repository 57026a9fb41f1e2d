import Scrumboy.Go.Case
import Scrumboy.Store.AnonymousBoards
import Mathlib.Data.List.Chain

/-!
# The slugs of projects

A board is addressed by its slug: at most 32 bytes of lower-case letters and digits,
with single hyphens between them, and none of the words that name a page of the
application. Every slug that the store makes from a name or draws at random has this
form, and a number behind it does not change that, because the base is cut to make room.

The two ways in which an existing project gets a new slug are modelled here: the
backfill of a project without one, and the rewrite of all durable projects.
-/

set_option linter.dupNamespace false

namespace Scrumboy

open Go Sql

def slugAlphabet : List Char := "0123456789abcdefghijklmnopqrstuvwxyz".toList

/-- The slug of a number of random bytes. -/
def randomSlug (b : List UInt8) : String :=
  String.ofList (b.map fun x => slugAlphabet.getD (x.toNat % slugAlphabet.length) '0')

/-- The slug that `randomSlug(8)` may return. -/
def IsDraw (slug : String) : Prop := ∃ b : List UInt8, b.length = 8 ∧ randomSlug b = slug

/-- The base of the slugs that are tried for a name: made from it if possible, and else
drawn at random. -/
def baseSlugOrDraw (name draw : String) : String :=
  match generateSlugFromName name with
  | .ok base => base
  | .error _ => draw

def setProjectSlug (db : DB) (projectID : ℤ) (slug : String) : DB :=
  { db with
    projects := updateWhere (·.id == projectID) (fun p => { p with slug := slug }) db.projects }

/-- A slug for a project that has none. The last candidate ends in a number and is not
reserved, so the loop ends with a free slug or with the error. -/
def ensureProjectHasSlug (db : DB) (projectID : ℤ) (name draw : String) : Result DB := do
  let slug ← (freeSlug db (fun slug => !isReservedProjectSlug slug) (baseSlugOrDraw name draw)).mapError
    fun _ => ⟨.internal, "could not generate unique slug after 100 attempts"⟩
  pure (setProjectSlug db projectID slug)

/-- `SELECT EXISTS(SELECT 1 FROM projects WHERE slug = ? AND id <> ? AND import_batch_id IS NULL)`. -/
def slugExistsExcludingID (db : DB) (slug : String) (id : ℤ) : Bool :=
  db.projects.any fun p => p.slug == slug && p.id != id && p.importBatchID == none

/-- One project of the rewrite. The base is never cut down to nothing, as it begins with
a letter or a digit. -/
def rewriteProjectSlug (db : DB) (row : ProjectRow) : Result DB := do
  let baseSlug ← (generateSlugFromName row.name).mapError fun e => ⟨.validation,
    "cannot generate slug for project id=" ++ formatInt row.id ++ " name=" ++ quote row.name ++ ": " ++
      e.text⟩
  match ((List.range 100).map (slugCandidate baseSlug)).find? fun slug =>
      !isReservedProjectSlug slug && !slugExistsExcludingID db slug row.id with
  | some slug => pure (setProjectSlug db row.id slug)
  | none => throw ⟨.conflict, "could not generate unique slug for project id=" ++ formatInt row.id⟩

/-- Every durable project gets the slug of its name, in the order of the ids. -/
def rewriteDurableProjectSlugs (db : DB) : Result DB :=
  (orderBy (·.id) (db.projects.filter fun p => p.expiresAt == none && p.importBatchID == none)).foldlM
    rewriteProjectSlug db

/-! ## The grammar -/

/-- Lower-case letters, digits and single hyphens. -/
structure Hyphenated (l : List Char) : Prop where
  chars : ∀ c ∈ l, isLowerAlnum c = true ∨ c = '-'
  single : l.IsChain fun a b => ¬ (a = '-' ∧ b = '-')

/-- The characters of a slug: hyphens are inside only. -/
structure SlugForm (l : List Char) : Prop extends Hyphenated l where
  ne_nil : l ≠ []
  head : l.head? ≠ some '-'
  last : l.getLast? ≠ some '-'

/-- A slug as it is stored. -/
structure IsSlug (s : String) : Prop where
  form : SlugForm s.toList
  size : byteLen s ≤ maxSlugLen

section

variable {l l' : List Char}

theorem Hyphenated.of_isInfix (h : Hyphenated l) (hl : l' <:+: l) : Hyphenated l' :=
  ⟨fun c hc => h.chars c (hl.subset hc), h.single.infix hl⟩

theorem squeezeHyphens_subset (l : List Char) : squeezeHyphens l ⊆ l := by
  induction l with
  | nil => exact List.Subset.refl _
  | cons c l ih =>
      rw [squeezeHyphens]
      split
      · exact List.subset_cons_of_subset c ih
      · exact List.cons_subset_cons c ih

theorem head?_squeezeHyphens (l : List Char) : (squeezeHyphens l).head? = l.head? := by
  induction l with
  | nil => rfl
  | cons c l ih =>
      rw [squeezeHyphens]
      split
      · rename_i hc
        rw [Bool.and_eq_true, beq_iff_eq, beq_iff_eq] at hc
        rw [ih, hc.2, hc.1]
        rfl
      · rfl

theorem isChain_squeezeHyphens (l : List Char) :
    (squeezeHyphens l).IsChain fun a b => ¬ (a = '-' ∧ b = '-') := by
  induction l with
  | nil => exact List.IsChain.nil
  | cons c l ih =>
      rw [squeezeHyphens]
      split
      · exact ih
      · rename_i hc
        rw [List.isChain_cons]
        refine ⟨fun d hd hboth => hc ?_, ih⟩
        rw [head?_squeezeHyphens, Option.mem_def] at hd
        simp [hboth.1, hd, hboth.2]

/-- Nothing is squeezed where no hyphen follows a hyphen. -/
theorem squeezeHyphens_eq_self_iff :
    squeezeHyphens l = l ↔ l.IsChain fun a b => ¬ (a = '-' ∧ b = '-') := by
  constructor
  · intro h
    rw [← h]
    exact isChain_squeezeHyphens l
  · intro h
    induction l with
    | nil => rfl
    | cons c l ih =>
        rw [List.isChain_cons] at h
        rw [squeezeHyphens, if_neg, ih h.2]
        intro hc
        rw [Bool.and_eq_true, beq_iff_eq, beq_iff_eq] at hc
        exact h.1 '-' hc.2 ⟨hc.1, rfl⟩

theorem slugChar_ascii {c : Char} (h : isLowerAlnum c = true ∨ c = '-') : c.toNat < 128 := by
  rcases h with h | rfl
  · simp only [isLowerAlnum, Bool.or_eq_true, Bool.and_eq_true, decide_eq_true_eq] at h
    rcases h with h | h
    · exact lt_of_le_of_lt h.2 (by decide)
    · exact lt_of_le_of_lt h.2 (by decide)
  · decide

/-- The characters of a slug are single bytes, no white space, and in lower case. -/
theorem slugChar_spec {c : Char} (h : isLowerAlnum c = true ∨ c = '-') :
    isSpace c = false ∧ toLowerRune c = c ∧ c.utf8Size = 1 := by
  refine forall_ascii (P := fun c => isLowerAlnum c = true ∨ c = '-' →
    isSpace c = false ∧ toLowerRune c = c ∧ c.utf8Size = 1) ?_ c (slugChar_ascii h) h
  decide +kernel

theorem Hyphenated.trimSpace_eq {s : String} (h : Hyphenated s.toList) : trimSpace s = s :=
  trimSpace_eq_self s fun c hc => (slugChar_spec (h.chars c hc)).1

theorem Hyphenated.toLower_eq {s : String} (h : Hyphenated s.toList) : toLower s = s := by
  rw [toLower]
  exact mapRunes_eq_self _ _ fun c hc => (slugChar_spec (h.chars c hc)).2.1

/-- A slug in its stored form is what the grammar accepts, without white space around. -/
theorem isSlug_iff {s : String} : IsSlug s ↔ trimSpace s = s ∧ isValidSlug s = true := by
  constructor
  · rintro ⟨hform, hsize⟩
    refine ⟨hform.trimSpace_eq, ?_⟩
    have hchars : ∀ c ∈ s.toList, (isLowerAlnum c || c == '-') = true := fun c hc => by
      simpa using hform.chars c hc
    simp only [isValidSlug, hform.trimSpace_eq, String.ofList_toList, Bool.and_eq_true,
      Bool.not_eq_true', List.isEmpty_eq_false_iff, decide_eq_true_eq, bne_iff_ne, List.all_eq_true,
      beq_iff_eq]
    exact ⟨⟨⟨⟨⟨hform.ne_nil, hsize⟩, hform.head⟩, hform.last⟩, hchars⟩,
      squeezeHyphens_eq_self_iff.mpr hform.single⟩
  · rintro ⟨htrim, hvalid⟩
    simp only [isValidSlug, htrim, String.ofList_toList, Bool.and_eq_true, Bool.not_eq_true',
      List.isEmpty_eq_false_iff, decide_eq_true_eq, bne_iff_ne, List.all_eq_true, beq_iff_eq] at hvalid
    obtain ⟨⟨⟨⟨⟨hne, hsize⟩, hhead⟩, hlast⟩, hchars⟩, hsqueeze⟩ := hvalid
    refine ⟨⟨⟨fun c hc => ?_, squeezeHyphens_eq_self_iff.mp hsqueeze⟩, hne, hhead, hlast⟩, hsize⟩
    simpa using hchars c hc

end

/-! ## The slug of a name -/

theorem isLowerAlnum_of_ascii {c : Char} (hascii : c.toNat < 128) (hcap : ¬ ('A' ≤ c ∧ c ≤ 'Z'))
    (h : (isLetter c || isDigit c) = true) : isLowerAlnum c = true := by
  rw [isLowerAlnum, Bool.or_eq_true, Bool.and_eq_true, Bool.and_eq_true, decide_eq_true_eq,
    decide_eq_true_eq, decide_eq_true_eq, decide_eq_true_eq]
  rcases Bool.or_eq_true_iff.mp h with hletter | hdigit
  · exact .inl ((isLetter_of_ascii hascii hletter).resolve_left hcap)
  · exact .inr (isDigit_of_ascii hascii hdigit)

theorem slugRune_toLowerRune {c d : Char} (h : slugRune (toLowerRune c) = some d) :
    isLowerAlnum d = true ∨ d = '-' := by
  unfold slugRune at h
  split at h
  · rename_i hclass
    split at h
    · rename_i hascii
      cases h
      rw [Bool.or_eq_true, beq_iff_eq] at hclass
      rcases hclass with hclass | hhyphen
      · exact .inl (isLowerAlnum_of_ascii (by omega) (toLowerRune_not_capital c) hclass)
      · exact .inr hhyphen
    · cases h
  · cases h
    exact .inr rfl

theorem hyphenated_squeezed (name : String) :
    Hyphenated (squeezeHyphens ((toLower name).toList.filterMap slugRune)) := by
  refine ⟨fun c hc => ?_, isChain_squeezeHyphens _⟩
  obtain ⟨d, hd, hrune⟩ := List.mem_filterMap.mp (squeezeHyphens_subset _ hc)
  rw [toLower, toList_mapRunes] at hd
  obtain ⟨e, _, rfl⟩ := List.mem_map.mp hd
  exact slugRune_toLowerRune hrune

section

variable {l l' : List Char}

/-- The beginning of a slug is one, if no hyphen is left at its end. -/
theorem SlugForm.of_prefix (h : SlugForm l) (hl : l' <+: l) (hne : l' ≠ [])
    (hlast : l'.getLast? ≠ some '-') : SlugForm l' where
  toHyphenated := h.toHyphenated.of_isInfix hl.isInfix
  ne_nil := hne
  head := by
    obtain ⟨t, rfl⟩ := hl
    rw [← List.head?_append_of_ne_nil l' hne]
    exact h.head
  last := hlast

/-- Before a hyphen there is none. -/
theorem Hyphenated.getLast?_dropLast (h : Hyphenated l) (hlast : l.getLast? = some '-') :
    l.dropLast.getLast? ≠ some '-' := by
  intro hbefore
  have hsplit := List.dropLast_append_getLast? '-' hlast
  have hchain := h.single
  rw [← hsplit, List.isChain_append] at hchain
  exact hchain.2.2 '-' hbefore '-' rfl ⟨rfl, rfl⟩

theorem ne_hyphen_of_isLowerAlnum {c : Char} (h : isLowerAlnum c = true) : c ≠ '-' := by
  rintro rfl
  revert h
  decide

/-- A word of letters and digits. -/
theorem slugForm_word (hne : l ≠ []) (h : ∀ c ∈ l, isLowerAlnum c = true) : SlugForm l where
  chars c hc := .inl (h c hc)
  single := by
    refine List.Pairwise.isChain (List.pairwise_of_forall_mem_list ?_)
    intro a ha b _ hboth
    exact ne_hyphen_of_isLowerAlnum (h a ha) hboth.1
  ne_nil := hne
  head hhead := ne_hyphen_of_isLowerAlnum (h '-' (List.mem_of_head? hhead)) rfl
  last hlast := ne_hyphen_of_isLowerAlnum (h '-' (List.mem_of_getLast? hlast)) rfl

/-- A slug, a hyphen and a slug. -/
theorem SlugForm.append (h : SlugForm l) (h' : SlugForm l') : SlugForm (l ++ '-' :: l') where
  chars c hc := by
    rcases List.mem_append.mp hc with hc | hc
    · exact h.chars c hc
    · rcases List.mem_cons.mp hc with rfl | hc
      · exact .inr rfl
      · exact h'.chars c hc
  single := by
    rw [List.isChain_append, List.isChain_cons]
    refine ⟨h.single, ⟨fun d hd hboth => h'.head (hboth.2 ▸ hd), h'.single⟩, ?_⟩
    intro c hc d _ hboth
    exact h.last (hboth.1 ▸ hc)
  ne_nil := by simp
  head := by
    rw [List.head?_append_of_ne_nil _ h.ne_nil]
    exact h.head
  last := by
    rw [List.getLast?_append_of_ne_nil _ (List.cons_ne_nil _ _), List.getLast?_cons_of_ne_nil h'.ne_nil]
    exact h'.last

end

/-! ## The slugs that the store makes -/

theorem isSlug_generateSlugFromName {name slug : String} (h : generateSlugFromName name = .ok slug) :
    IsSlug slug := by
  simp only [generateSlugFromName, bind_eq_ok, reject_eq_ok, pure_eq_ok] at h
  obtain ⟨_, _, _, hne, _, hcut, _, _, rfl⟩ := h
  generalize hl : squeezeHyphens ((toLower (trimSpace name)).toList.filterMap slugRune) = l at hne hcut ⊢
  have hyphenated : Hyphenated l := hl ▸ hyphenated_squeezed _
  have hform : SlugForm (trimChar '-' (String.ofList l)).toList := by
    rw [trimChar, toList_trimFunc, String.toList_ofList]
    refine ⟨hyphenated.of_isInfix ?_, ?_, ?_, ?_⟩
    · exact (List.rdropWhile_prefix _ _).isInfix.trans (List.dropWhile_suffix _).isInfix
    · intro hnil
      apply hne
      rw [trimChar, trimFunc, String.toList_ofList, hnil]
    · intro hhead
      simpa using head_trim (· == '-') l '-' hhead
    · intro hlast
      simpa using getLast_rdropWhile (· == '-') _ '-' hlast
  generalize trimChar '-' (String.ofList l) = t at hform hcut ⊢
  split at hcut
  · rename_i hlong
    rw [if_pos hlong]
    have hlen : byteLen (takeBytes maxSlugLen t) ≤ maxSlugLen :=
      (byteLen_takeBytes_le _ _).trans (min_le_left _ _)
    have hprefix : (takeBytes maxSlugLen t).toList <+: t.toList := by
      rw [takeBytes, String.toList_ofList]
      exact takeBytesList_isPrefix _ _
    generalize takeBytes maxSlugLen t = u at hlen hprefix hcut ⊢
    unfold trimSuffix at hcut ⊢
    split at hcut
    · rename_i hlast
      rw [if_pos hlast]
      refine ⟨?_, ?_⟩
      · rw [String.toList_ofList]
        refine hform.of_prefix ((List.dropLast_prefix _).trans hprefix) (fun hnil => hcut ?_) ?_
        · rw [hnil]
        · exact (hform.toHyphenated.of_isInfix hprefix.isInfix).getLast?_dropLast hlast
      · refine le_trans ?_ hlen
        apply byteLen_le_of_prefix
        rw [String.toList_ofList]
        exact List.dropLast_prefix _
    · rename_i hlast
      rw [if_neg hlast]
      exact ⟨hform.of_prefix hprefix (fun hnil => hcut (String.toList_eq_nil_iff.mp hnil)) hlast, hlen⟩
  · rename_i hshort
    rw [if_neg hshort]
    exact ⟨hform, not_lt.mp hshort⟩

theorem IsSlug.ascii {s : String} (h : IsSlug s) {c : Char} (hc : c ∈ s.toList) : c.utf8Size = 1 :=
  (slugChar_spec (h.form.chars c hc)).2.2

/-- A number behind a base, which is cut to make room for it. -/
def numberedSlug (base : String) (n : ℤ) : String :=
  if maxSlugLen - byteLen ("-" ++ formatInt n) < byteLen base then
    trimRightChar '-' (takeBytes (maxSlugLen - byteLen ("-" ++ formatInt n)) base) ++ ("-" ++ formatInt n)
  else base ++ ("-" ++ formatInt n)

theorem slugCandidate_succ (base : String) (i : ℕ) :
    slugCandidate base (i + 1) = numberedSlug base ((i : ℤ) + 1 + 1) := by
  rw [slugCandidate, if_neg (Nat.succ_ne_zero i)]
  rfl

theorem slugForm_formatInt (n : ℕ) : SlugForm (formatInt n).toList := by
  rw [toList_formatInt, if_neg (by simp)]
  refine slugForm_word Nat.toDigits_ne_nil fun c hc => ?_
  have hdigit := Nat.isDigit_of_mem_toDigits (by decide) (by decide) hc
  simp only [Char.isDigit, Bool.and_eq_true, decide_eq_true_eq] at hdigit
  simp only [isLowerAlnum, Bool.or_eq_true, Bool.and_eq_true, decide_eq_true_eq]
  exact .inr hdigit

theorem byteLen_suffix_le {n : ℕ} (h : n < 102) : byteLen ("-" ++ formatInt n) ≤ 4 := by
  have hall : ∀ n < 102, byteLen ("-" ++ formatInt (n : ℕ)) ≤ 4 := by decide +kernel
  exact hall n h

/-- What is left of a slug when it is cut. -/
theorem IsSlug.cut {base : String} (h : IsSlug base) {n : ℕ} (hn : 0 < n) :
    SlugForm (trimRightChar '-' (takeBytes n base)).toList ∧
      byteLen (trimRightChar '-' (takeBytes n base)) ≤ n := by
  have hprefix : (takeBytes n base).toList <+: base.toList := by
    rw [takeBytes, String.toList_ofList]
    exact takeBytesList_isPrefix _ _
  have hcut : (trimRightChar '-' (takeBytes n base)).toList <+: (takeBytes n base).toList := by
    rw [trimRightChar, String.toList_ofList]
    exact List.rdropWhile_prefix _ _
  refine ⟨h.form.of_prefix (hcut.trans hprefix) ?_ ?_, ?_⟩
  · -- the first character stays
    cases hbase : base.toList with
    | nil => exact absurd hbase h.form.ne_nil
    | cons c cs =>
        have hsize : c.utf8Size ≤ n := by
          rw [h.ascii (hbase ▸ List.mem_cons_self)]
          exact hn
        rw [trimRightChar, String.toList_ofList, takeBytes, String.toList_ofList, hbase, takeBytesList,
          if_pos hsize, Ne, List.rdropWhile_eq_nil_iff]
        intro hall
        apply h.form.head
        rw [hbase, ← beq_iff_eq.mp (hall c List.mem_cons_self)]
        rfl
  · intro hlast
    rw [trimRightChar, String.toList_ofList] at hlast
    simpa using getLast_rdropWhile (· == '-') _ '-' hlast
  · calc byteLen (trimRightChar '-' (takeBytes n base))
      _ ≤ byteLen (takeBytes n base) := byteLen_le_of_prefix hcut
      _ ≤ n := (byteLen_takeBytes_le n base).trans (min_le_left _ _)

theorem IsSlug.append {s : String} (h : SlugForm s.toList) {t : String} (ht : SlugForm t.toList)
    (hsize : byteLen s + byteLen ("-" ++ t) ≤ maxSlugLen) : IsSlug (s ++ ("-" ++ t)) where
  form := by
    rw [String.toList_append, String.toList_append]
    exact h.append ht
  size := by
    rw [byteLen_append]
    exact hsize

theorem IsSlug.numbered {base : String} (h : IsSlug base) {n : ℕ} (hn : n < 102) :
    IsSlug (numberedSlug base n) := by
  have hsuffix := byteLen_suffix_le hn
  have hroom : 0 < maxSlugLen - byteLen ("-" ++ formatInt n) := by
    have : maxSlugLen = 32 := rfl
    omega
  unfold numberedSlug
  split
  · obtain ⟨hform, hsize⟩ := h.cut hroom
    exact .append hform (slugForm_formatInt n) (by omega)
  · exact .append h.form (slugForm_formatInt n) (by omega)

theorem IsSlug.candidate {base : String} (h : IsSlug base) {i : ℕ} (hi : i < 100) :
    IsSlug (slugCandidate base i) := by
  cases i with
  | zero => exact h
  | succ i =>
      rw [slugCandidate_succ]
      exact h.numbered (n := i + 2) (by omega)

/-- A slug with a hyphen in it is no reserved word. -/
theorem IsSlug.not_reserved {s : String} (h : IsSlug s) (hyphen : '-' ∈ s.toList) :
    isReservedProjectSlug s = false := by
  rw [isReservedProjectSlug, h.form.trimSpace_eq, h.form.toLower_eq, decide_eq_false_iff_not]
  intro hmem
  have hwords : ∀ w ∈ reservedProjectSlugs, '-' ∉ w.toList := by decide +kernel
  exact hwords s hmem hyphen

theorem IsDraw.word {slug : String} (h : IsDraw slug) :
    slug.toList.length = 8 ∧ ∀ c ∈ slug.toList, isLowerAlnum c = true := by
  obtain ⟨b, hlen, rfl⟩ := h
  rw [randomSlug, String.toList_ofList, List.length_map]
  refine ⟨hlen, fun c hc => ?_⟩
  obtain ⟨x, _, rfl⟩ := List.mem_map.mp hc
  have hall : ∀ k < slugAlphabet.length, isLowerAlnum (slugAlphabet.getD k '0') = true := by
    decide +kernel
  exact hall _ (Nat.mod_lt _ (by decide +kernel))

theorem IsDraw.byteLen {slug : String} (h : IsDraw slug) : byteLen slug = 8 := by
  obtain ⟨hlen, hall⟩ := h.word
  rw [byteLen_eq_sum, List.map_congr_left fun c hc => (slugChar_spec (.inl (hall c hc))).2.2,
    List.map_const', List.sum_replicate_nat, hlen]

theorem IsDraw.isSlug {slug : String} (h : IsDraw slug) : IsSlug slug where
  form := slugForm_word (fun hnil => by simpa [hnil] using h.word.1) h.word.2
  size := by
    rw [h.byteLen]
    decide

theorem IsDraw.not_reserved {slug : String} (h : IsDraw slug) : isReservedProjectSlug slug = false := by
  rw [isReservedProjectSlug, h.isSlug.form.trimSpace_eq, h.isSlug.form.toLower_eq,
    decide_eq_false_iff_not]
  intro hmem
  have hwords : ∀ w ∈ reservedProjectSlugs, w.toList.length ≠ 8 := by decide +kernel
  exact hwords slug hmem h.word.1

theorem isSlug_baseSlugOrDraw {draw : String} (h : IsDraw draw) (name : String) :
    IsSlug (baseSlugOrDraw name draw) := by
  unfold baseSlugOrDraw
  split
  · rename_i base hbase
    exact isSlug_generateSlugFromName hbase
  · exact h.isSlug

/-! ## The table of projects -/

/-- Every project has a slug of its own that names no page. The projects of the batch
`batchID` are staged, and all the others can be seen. -/
structure SlugTable (batchID : Option String) (l : List ProjectFace) : Prop where
  ids : (l.map (·.id)).Nodup
  slugs : ∀ f ∈ l, IsSlug f.slug ∧ isReservedProjectSlug f.slug = false
  unique : ((l.filter (·.importBatchID == none)).map (·.slug)).Nodup
  batches : ∀ f ∈ l, f.importBatchID = none ∨ f.importBatchID = batchID

def ProjectFace.setSlug (projectID : ℤ) (slug : String) (f : ProjectFace) : ProjectFace :=
  if f.id = projectID then { f with slug := slug } else f

theorem faces_setProjectSlug (db : DB) (projectID : ℤ) (slug : String) :
    (setProjectSlug db projectID slug).faces = db.faces.map (.setSlug projectID slug) := by
  rw [DB.faces, DB.faces, setProjectSlug, updateWhere, List.map_map, List.map_map]
  apply List.map_congr_left
  intro p _
  by_cases hp : p.id = projectID <;> simp [ProjectFace.setSlug, ProjectRow.face, hp]

namespace SlugTable

variable {batchID : Option String} {l : List ProjectFace}

theorem of_none (h : SlugTable none l) (batchID : Option String) : SlugTable batchID l where
  ids := h.ids
  slugs := h.slugs
  unique := h.unique
  batches f hf := .inl ((h.batches f hf).elim id id)

theorem sublist (h : SlugTable batchID l) {l' : List ProjectFace} (hl : l'.Sublist l) :
    SlugTable batchID l' where
  ids := h.ids.sublist (hl.map _)
  slugs f hf := h.slugs f (hl.subset hf)
  unique := h.unique.sublist ((hl.filter _).map _)
  batches f hf := h.batches f (hl.subset hf)

/-- One project more, with a slug that no project in sight has. -/
theorem add (h : SlugTable batchID l) {f : ProjectFace} (hid : f.id ∉ l.map (·.id))
    (hslug : IsSlug f.slug ∧ isReservedProjectSlug f.slug = false)
    (hbatch : f.importBatchID = none ∨ f.importBatchID = batchID)
    (hfree : f.importBatchID = none → ∀ g ∈ l, g.importBatchID = none → g.slug ≠ f.slug) :
    SlugTable batchID (l ++ [f]) where
  ids := by
    rw [List.map_append, List.map_singleton, ← List.concat_eq_append]
    exact List.Nodup.concat hid h.ids
  slugs g hg := by
    rcases List.mem_append.mp hg with hg | hg
    · exact h.slugs g hg
    · rwa [List.mem_singleton.mp hg]
  unique := by
    rw [List.filter_append, List.map_append]
    by_cases hvisible : f.importBatchID = none
    · rw [List.filter_cons_of_pos (by simpa using hvisible), List.filter_nil, List.map_singleton,
        ← List.concat_eq_append]
      refine List.Nodup.concat (fun hmem => ?_) h.unique
      obtain ⟨g, hg, heq⟩ := List.mem_map.mp hmem
      rw [List.mem_filter, beq_iff_eq] at hg
      exact hfree hvisible g hg.1 hg.2 heq
    · rw [List.filter_cons_of_neg (by simpa using hvisible), List.filter_nil, List.map_nil,
        List.append_nil]
      exact h.unique
  batches g hg := by
    rcases List.mem_append.mp hg with hg | hg
    · exact h.batches g hg
    · rwa [List.mem_singleton.mp hg]

/-- Another slug for one project. -/
theorem setSlug (h : SlugTable batchID l) {projectID : ℤ} {slug : String}
    (hslug : IsSlug slug ∧ isReservedProjectSlug slug = false)
    (hfree : ∀ g ∈ l, g.id ≠ projectID → g.importBatchID = none → g.slug ≠ slug) :
    SlugTable batchID (l.map (.setSlug projectID slug)) := by
  have hids : ∀ f : ProjectFace, (f.setSlug projectID slug).id = f.id ∧
      (f.setSlug projectID slug).importBatchID = f.importBatchID := by
    intro f
    unfold ProjectFace.setSlug
    split
    · exact ⟨rfl, rfl⟩
    · exact ⟨rfl, rfl⟩
  refine ⟨?_, ?_, ?_, ?_⟩
  · have heq : l.map (fun f => (f.setSlug projectID slug).id) = l.map (·.id) :=
      List.map_congr_left fun f _ => (hids f).1
    rw [List.map_map]
    exact heq ▸ h.ids
  · intro f hf
    obtain ⟨g, hg, rfl⟩ := List.mem_map.mp hf
    unfold ProjectFace.setSlug
    split
    · exact hslug
    · exact h.slugs g hg
  · rw [List.filter_map, List.map_map, List.filter_congr fun f _ => by
      rw [Function.comp_apply, (hids f).2]]
    refine List.Nodup.map_on ?_ ((List.Nodup.of_map _ h.ids).filter _)
    intro f hf g hg heq
    rw [List.mem_filter, beq_iff_eq] at hf hg
    simp only [Function.comp_apply, ProjectFace.setSlug] at heq
    split at heq
    · rename_i hfid
      split at heq
      · rename_i hgid
        exact List.inj_on_of_nodup_map h.ids hf.1 hg.1 (hfid.trans hgid.symm)
      · rename_i hgid
        exact absurd heq.symm (hfree g hg.1 hgid hg.2)
    · rename_i hfid
      split at heq
      · exact absurd heq (hfree f hf.1 hfid hf.2)
      · exact List.inj_on_of_nodup_map h.unique (List.mem_filter.mpr ⟨hf.1, by simpa using hf.2⟩)
          (List.mem_filter.mpr ⟨hg.1, by simpa using hg.2⟩) heq
  · intro f hf
    obtain ⟨g, hg, rfl⟩ := List.mem_map.mp hf
    rw [(hids g).2]
    exact h.batches g hg

end SlugTable

/-! ## Addresses -/

/-- No two projects in sight have the same slug. -/
theorem SlugTable.eq_of_slug {batchID : Option String} {db : DB} (h : SlugTable batchID db.faces)
    {p q : ProjectRow} (hp : p ∈ db.projects) (hq : q ∈ db.projects) (hpvisible : p.importBatchID = none)
    (hqvisible : q.importBatchID = none) (heq : q.slug = p.slug) : q = p := by
  have hmem : ∀ r ∈ db.projects, r.importBatchID = none →
      r.face ∈ db.faces.filter (·.importBatchID == none) := fun r hr hvisible =>
    List.mem_filter.mpr ⟨DB.mem_faces.mpr ⟨r, hr, rfl⟩, by simpa [ProjectRow.face] using hvisible⟩
  have hface : q.face = p.face :=
    List.inj_on_of_nodup_map h.unique (hmem q hq hqvisible) (hmem p hp hpvisible) heq
  have hids : (db.projects.map (·.id)).Nodup := db.projectIDs_eq ▸ h.ids
  exact List.inj_on_of_nodup_map hids hq hp (congrArg ProjectFace.id hface)

/-- A project of a sound table is found under its slug. -/
theorem SlugTable.getProjectBySlug_eq {batchID : Option String} {db : DB} (h : SlugTable batchID db.faces)
    {p : ProjectRow} (hp : p ∈ db.projects) (hvisible : p.importBatchID = none) :
    getProjectBySlug db p.slug = .ok p := by
  obtain ⟨hslug, _⟩ := h.slugs p.face (DB.mem_faces.mpr ⟨p, hp, rfl⟩)
  obtain ⟨htrim, hvalid⟩ := isSlug_iff.mp (show IsSlug p.slug from hslug)
  have hlower : toLower p.slug = p.slug := hslug.form.toLower_eq
  have hfind : (db.projects.find? fun q => q.slug == p.slug && q.importBatchID == none) = some p := by
    cases hq : db.projects.find? fun q => q.slug == p.slug && q.importBatchID == none with
    | none =>
        have hnot := List.find?_eq_none.mp hq p hp
        simp [hvisible] at hnot
    | some q =>
        have hsat := List.find?_some hq
        rw [Bool.and_eq_true, beq_iff_eq, beq_iff_eq] at hsat
        rw [h.eq_of_slug hp (List.mem_of_find?_eq_some hq) hvisible hsat.2 hsat.1]
  simp only [getProjectBySlug, hlower, htrim, hvalid, hfind]
  rfl

/-! ## Creating projects and changing their slugs -/

theorem not_mem_of_slugExists {db : DB} {slug : String} (h : slugExists db slug = false) :
    ∀ f ∈ db.faces, f.importBatchID = none → f.slug ≠ slug := by
  intro f hf hvisible heq
  obtain ⟨p, hp, rfl⟩ := DB.mem_faces.mp hf
  apply List.any_eq_false.mp h p hp
  rw [Bool.and_eq_true, beq_iff_eq, beq_iff_eq]
  exact ⟨heq, hvisible⟩

theorem freeSlug_eq_ok {db : DB} {ok : String → Bool} {base slug : String}
    (h : freeSlug db ok base = .ok slug) :
    (∃ i < 100, slug = slugCandidate base i) ∧ ok slug = true ∧
      ∀ f ∈ db.faces, f.importBatchID = none → f.slug ≠ slug := by
  unfold freeSlug at h
  split at h
  · rename_i found hfind
    cases h
    obtain ⟨i, hi, rfl⟩ := List.mem_map.mp (List.mem_of_find?_eq_some hfind)
    have hsat := List.find?_some hfind
    rw [Bool.and_eq_true, Bool.not_eq_true'] at hsat
    exact ⟨⟨i, List.mem_range.mp hi, rfl⟩, hsat.1, not_mem_of_slugExists hsat.2⟩
  · cases h

/-- The slug that the store finds for a base. -/
theorem freeSlug_isSlug {db : DB} {base slug : String} (hbase : IsSlug base)
    (h : freeSlug db (fun slug => !isReservedProjectSlug slug) base = .ok slug) :
    IsSlug slug ∧ isReservedProjectSlug slug = false := by
  obtain ⟨⟨i, hi, rfl⟩, hok, _⟩ := freeSlug_eq_ok h
  exact ⟨hbase.candidate hi, by simpa using hok⟩

theorem nextRowid_not_mem_faces (db : DB) :
    nextRowid (db.projects.map (·.id)) ∉ db.faces.map (·.id) := by
  rw [← DB.projectIDs_eq]
  exact nextRowid_not_mem _

theorem SlugTable.createProjectWithWorkflow {batchID : Option String} {ctx : Ctx} {db : DB} {name : String}
    {workflow : Option (List WorkflowColumn)} {out : DB × ℤ} (hdb : SlugTable batchID db.faces)
    (h : Scrumboy.createProjectWithWorkflow ctx db name workflow = .ok out) :
    SlugTable batchID out.1.faces := by
  simp only [Scrumboy.createProjectWithWorkflow, bind_eq_ok, pure_eq_ok] at h
  obtain ⟨_, _, owner, _, base, hbase, slug, hslug, db₂, hworkflow, rfl⟩ := h
  have hfaces : (ensureDefaultPriorityTiers db₂ (appendProject db
      (newProjectRow ctx.nowMs (trimSpace name) slug owner)).2).faces = db.faces ++
        [⟨nextRowid (db.projects.map (·.id)), slug, none, none, none⟩] := by
    obtain ⟨columns, rfl⟩ := (createWorkflow_spec hworkflow).1.exists_eq
    obtain ⟨members, hmembers⟩ := insertOwner_eq
      (appendProject db (newProjectRow ctx.nowMs (trimSpace name) slug owner)).1
      (appendProject db (newProjectRow ctx.nowMs (trimSpace name) slug owner)).2 ctx.nowMs owner
    obtain ⟨priorities, hprio⟩ := (ensureDefaultPriorityTiers_prioritiesOnly _ _).exists_eq
    rw [hprio, hmembers, DB.faces, DB.faces]
    simp [appendProject, ProjectRow.face, newProjectRow, defaultProjectRow]
  rw [hfaces]
  exact hdb.add (nextRowid_not_mem_faces db) (freeSlug_isSlug (isSlug_generateSlugFromName hbase) hslug)
    (.inl rfl) fun _ => (freeSlug_eq_ok hslug).2.2

theorem SlugTable.createAnonymousBoard {batchID : Option String} {db : DB} (hdb : SlugTable batchID db.faces)
    (rt : Runtime) (ctx : Ctx) {draws : List String} (hdraws : ∀ slug ∈ draws, IsDraw slug) :
    SlugTable batchID (Scrumboy.createAnonymousBoard rt ctx db draws).1.faces := by
  rcases createAnonymousBoard_spec rt ctx db draws with
    heq | ⟨p, hid, hprojects, _, _, hdrawn, hfree, hvisible⟩
  · rwa [heq]
  · rw [DB.faces, hprojects, List.map_append, List.map_singleton]
    have hdraw := hdraws p.slug hdrawn
    refine hdb.add (f := p.face) ?_ ⟨hdraw.isSlug, hdraw.not_reserved⟩ (.inl hvisible) fun _ => ?_
    · rw [show p.face.id = nextRowid (db.projects.map (·.id)) from hid]
      exact nextRowid_not_mem_faces db
    · exact not_mem_of_slugExists hfree

theorem SlugTable.ensureProjectHasSlug {batchID : Option String} {db db' : DB} {projectID : ℤ}
    {name draw : String} (hdb : SlugTable batchID db.faces) (hdraw : IsDraw draw)
    (h : Scrumboy.ensureProjectHasSlug db projectID name draw = .ok db') : SlugTable batchID db'.faces := by
  simp only [Scrumboy.ensureProjectHasSlug, bind_eq_ok, mapError_eq_ok, pure_eq_ok] at h
  obtain ⟨slug, hslug, rfl⟩ := h
  rw [faces_setProjectSlug]
  exact hdb.setSlug (freeSlug_isSlug (isSlug_baseSlugOrDraw hdraw name) hslug) fun f hf _ =>
    (freeSlug_eq_ok hslug).2.2 f hf

theorem SlugTable.rewriteProjectSlug {batchID : Option String} {db db' : DB} {row : ProjectRow}
    (hdb : SlugTable batchID db.faces) (h : Scrumboy.rewriteProjectSlug db row = .ok db') :
    SlugTable batchID db'.faces := by
  simp only [Scrumboy.rewriteProjectSlug, bind_eq_ok, mapError_eq_ok] at h
  obtain ⟨base, hbase, h⟩ := h
  split at h
  · rename_i slug hfind
    rw [pure_eq_ok] at h
    obtain ⟨i, hi, rfl⟩ := List.mem_map.mp (List.mem_of_find?_eq_some hfind)
    have hsat := List.find?_some hfind
    simp only [Bool.and_eq_true, Bool.not_eq_true', slugExistsExcludingID, List.any_eq_false] at hsat
    rw [← h, faces_setProjectSlug]
    refine hdb.setSlug ⟨(isSlug_generateSlugFromName hbase).candidate (List.mem_range.mp hi), hsat.1⟩ ?_
    intro f hf hid hvisible heq
    obtain ⟨p, hp, rfl⟩ := DB.mem_faces.mp hf
    apply hsat.2 p hp
    rw [beq_iff_eq, bne_iff_ne, beq_iff_eq]
    exact ⟨⟨heq, hid⟩, hvisible⟩
  · cases h

theorem SlugTable.rewriteDurableProjectSlugs {batchID : Option String} {db db' : DB}
    (hdb : SlugTable batchID db.faces) (h : Scrumboy.rewriteDurableProjectSlugs db = .ok db') :
    SlugTable batchID db'.faces :=
  foldlM_inv (P := fun db => SlugTable batchID db.faces)
    (fun _ _ _ _ hs hstep => hs.rewriteProjectSlug hstep) hdb h

end Scrumboy
