import Mathlib.Data.List.Infix
import Scrumboy.Go.Bytes

/-!
# Where a sign-in returns to

A return target is a path of the server with a query. The path is decoded once, checked against
what could make it name another host, and handed to the browser, which reads it by its own
rules.
-/

namespace Scrumboy

open Go Go.Bytes

/-- The characters that no target may have. -/
def deniedInReturnTo (c : UInt8) : Bool :=
  c == backslash || c == carriageReturn || c == lineFeed || c == 0

/-- The decoded path of a trimmed target, and its query as it is. -/
def splitReturnTo (raw : Bytes) : Option (Bytes × Bytes) :=
  if raw = [] then none
  else (pathUnescape (raw.takeWhile (· != question))).map fun path =>
    (trimSpace path, raw.dropWhile (· != question))

/-- The checks of `SanitizeReturnTo`. -/
def acceptsReturnTo (raw decodedPath : Bytes) : Bool :=
  !decodedPath.isEmpty && !raw.any deniedInReturnTo && !decodedPath.any deniedInReturnTo &&
    [slash].isPrefixOf decodedPath && !([slash, slash].isPrefixOf decodedPath) &&
    !decide ([colon, slash, slash] <:+: decodedPath) && !raw.contains hash && !decodedPath.contains hash &&
    !(decodedPath.splitOn slash).any fun seg => seg == [dot] || seg == [dot, dot]

/-- The target of an input that is not rejected. -/
def returnTo? (raw : Bytes) : Option Bytes :=
  match splitReturnTo (trimSpace raw) with
  | some (decodedPath, query) =>
      if acceptsReturnTo (trimSpace raw) decodedPath then some (decodedPath ++ query) else none
  | none => none

def sanitizeReturnTo (raw : Bytes) : Bytes := (returnTo? raw).getD [slash]

/-! ## The browser -/

def isC0ControlOrSpace (c : UInt8) : Bool := c ≤ 0x20

def isTabOrNewline (c : UInt8) : Bool := c == tab || c == lineFeed || c == carriageReturn

/-- A reference as the parser of a browser sees it. -/
def browserReference (s : Bytes) : Bytes :=
  (((s.dropWhile isC0ControlOrSpace).rdropWhile isC0ControlOrSpace).filter (!isTabOrNewline ·)).map
    fun c => if c = backslash then slash else c

/-- A reference that begins with exactly one slash stays on the server's origin. -/
def SameOrigin (s : Bytes) : Prop :=
  ∃ rest, browserReference s = slash :: rest ∧ rest.head? ≠ some slash

/-- A plain target: an absolute path without percent signs, perhaps with a query behind it, and
without white space around either. -/
def PlainReturnTo (raw : Bytes) : Prop :=
  ∃ path query, raw = path ++ query ∧ [slash] <+: path ∧ percent ∉ path ∧ question ∉ path ∧
    (query = [] ∨ [question] <+: query) ∧ trimSpace path = path ∧ trimSpace raw = raw

/-- Behind its first slash the path has nothing but tabs before the next one. -/
def slashBehindTabs (decodedPath : Bytes) : Bool :=
  (decodedPath.tail.dropWhile (· == tab)).head? == some slash

/-! ## What the browser makes of a path -/

theorem head_browser_iff {l : Bytes} (hlf : lineFeed ∉ l) (hcr : carriageReturn ∉ l) (hback : backslash ∉ l) :
    (((l.rdropWhile isC0ControlOrSpace).filter (!isTabOrNewline ·)).map
        fun c => if c = backslash then slash else c).head? = some slash ↔
      (l.dropWhile (· == tab)).head? = some slash := by
  induction l with
  | nil => simp
  | cons c l ih =>
      rw [List.mem_cons, not_or] at hlf hcr hback
      rw [rdropWhile_cons]
      by_cases htab : c = tab
      · -- a tab is dropped, whether the rest is stripped or not
        have hfilter : List.filter (!isTabOrNewline ·) (if l.rdropWhile isC0ControlOrSpace = [] ∧
            isC0ControlOrSpace c = true then [] else c :: l.rdropWhile isC0ControlOrSpace) =
            (l.rdropWhile isC0ControlOrSpace).filter (!isTabOrNewline ·) := by
          split
          · rename_i hempty
            rw [hempty.1]
          · rw [List.filter_cons_of_neg (by rw [htab]; decide)]
        rw [hfilter, ih hlf.2 hcr.2 hback.2, List.dropWhile_cons_of_pos (by simp [htab])]
      · rw [List.dropWhile_cons_of_neg (by simp [htab]), List.head?_cons]
        have hkept : isTabOrNewline c = false := by
          simp [isTabOrNewline, htab, Ne.symm hlf.1, Ne.symm hcr.1]
        split
        · rename_i hstripped
          refine iff_of_false (by simp) fun heq => ?_
          rw [Option.some.injEq] at heq
          rw [heq] at hstripped
          exact absurd hstripped.2 (by decide)
        · rw [List.filter_cons_of_pos (by rw [hkept]; rfl), List.map_cons, List.head?_cons,
            if_neg (Ne.symm hback.1)]

/-- A path with one slash in front goes elsewhere if only tabs stand before its next slash. -/
theorem sameOrigin_cons_iff {body : Bytes} (hlf : lineFeed ∉ body) (hcr : carriageReturn ∉ body)
    (hback : backslash ∉ body) :
    SameOrigin (slash :: body) ↔ (body.dropWhile (· == tab)).head? ≠ some slash := by
  have href : browserReference (slash :: body) =
      slash :: ((body.rdropWhile isC0ControlOrSpace).filter (!isTabOrNewline ·)).map
        fun c => if c = backslash then slash else c := by
    have hslash : isC0ControlOrSpace slash = false := by decide
    rw [browserReference, List.dropWhile_cons_of_neg (by simp [hslash]), rdropWhile_cons,
      if_neg (by simp [hslash]), List.filter_cons_of_pos (by decide), List.map_cons]
    rfl
  rw [SameOrigin, href, Ne, ← not_congr (head_browser_iff hlf hcr hback)]
  constructor
  · rintro ⟨rest, heq, hrest⟩
    obtain ⟨_, rfl⟩ := List.cons.inj heq
    exact hrest
  · exact fun hrest => ⟨_, rfl, hrest⟩

theorem acceptsReturnTo_spec {raw decodedPath : Bytes} (h : acceptsReturnTo raw decodedPath = true) :
    (∀ c ∈ raw, deniedInReturnTo c = false) ∧ (∀ c ∈ decodedPath, deniedInReturnTo c = false) ∧
      ∃ body, decodedPath = slash :: body := by
  simp only [acceptsReturnTo, Bool.and_eq_true, Bool.not_eq_true', List.any_eq_false] at h
  obtain ⟨⟨⟨⟨⟨⟨⟨⟨_, hraw⟩, hpath⟩, hprefix⟩, _⟩, _⟩, _⟩, _⟩, _⟩ := h
  refine ⟨fun c hc => by simpa using hraw c hc, fun c hc => by simpa using hpath c hc, ?_⟩
  cases decodedPath with
  | nil => cases hprefix
  | cons c body =>
      simp only [List.isPrefixOf, Bool.and_true, beq_iff_eq] at hprefix
      exact ⟨body, by rw [ hprefix]⟩

theorem not_mem_of_denied {s : Bytes} (h : ∀ c ∈ s, deniedInReturnTo c = false) :
    lineFeed ∉ s ∧ carriageReturn ∉ s ∧ backslash ∉ s :=
  ⟨fun hc => absurd (h _ hc) (by decide), fun hc => absurd (h _ hc) (by decide),
    fun hc => absurd (h _ hc) (by decide)⟩

/-- The query begins with a question mark, so it has no part in what follows the first slash. -/
theorem head_dropWhile_append {path raw : Bytes} :
    ((path ++ raw.dropWhile (· != question)).dropWhile (· == tab)).head? = some slash ↔
      (path.dropWhile (· == tab)).head? = some slash := by
  induction path with
  | nil =>
      rw [List.nil_append, List.dropWhile_nil, List.head?_nil]
      refine iff_of_false (fun h => ?_) (by simp)
      cases hquery : raw.dropWhile (· != question) with
      | nil => simp [hquery] at h
      | cons c query =>
          have hc : c = question := by
            have hhead := List.head?_dropWhile_not (p := (· != question)) raw
            rw [hquery] at hhead
            simpa using hhead
          rw [hquery, hc, List.dropWhile_cons_of_neg (by decide), List.head?_cons] at h
          exact absurd h (by decide)
  | cons c path ih =>
      by_cases htab : c = tab
      · rw [List.cons_append, List.dropWhile_cons_of_pos (by simp [htab]),
          List.dropWhile_cons_of_pos (by simp [htab]), ih]
      · rw [List.cons_append, List.dropWhile_cons_of_neg (by simp [htab]),
          List.dropWhile_cons_of_neg (by simp [htab]), List.head?_cons, List.head?_cons]

theorem sameOrigin_root : SameOrigin [slash] :=
  (@sameOrigin_cons_iff [] (by simp) (by simp) (by simp)).mpr (by simp)

theorem splitReturnTo_eq_some {raw decodedPath query : Bytes}
    (h : splitReturnTo raw = some (decodedPath, query)) : query = raw.dropWhile (· != question) := by
  unfold splitReturnTo at h
  split at h
  · cases h
  · obtain ⟨path, _, heq⟩ := Option.map_eq_some_iff.mp h
    exact (Prod.mk.inj heq).2.symm

/-- A target that is not rejected stays on the origin unless tabs hide a second slash. -/
theorem sameOrigin_of_accepts {raw decodedPath query : Bytes}
    (h : splitReturnTo raw = some (decodedPath, query)) (haccepts : acceptsReturnTo raw decodedPath = true) :
    SameOrigin (decodedPath ++ query) ↔ slashBehindTabs decodedPath = false := by
  obtain rfl := splitReturnTo_eq_some h
  obtain ⟨hraw, hpath, body, rfl⟩ := acceptsReturnTo_spec haccepts
  have hbody : ∀ c ∈ body ++ raw.dropWhile (· != question), deniedInReturnTo c = false := by
    intro c hc
    rcases List.mem_append.mp hc with hc | hc
    · exact hpath c (List.mem_cons_of_mem _ hc)
    · exact hraw c ((List.dropWhile_sublist _).subset hc)
  obtain ⟨hlf, hcr, hback⟩ := not_mem_of_denied hbody
  rw [List.cons_append, sameOrigin_cons_iff hlf hcr hback, Ne, head_dropWhile_append]
  simp [slashBehindTabs]

/-! ## Plain targets -/

theorem takeWhile_dropWhile_plain {path query : Bytes} (hpath : question ∉ path)
    (hquery : query = [] ∨ [question] <+: query) :
    (path ++ query).takeWhile (· != question) = path ∧ (path ++ query).dropWhile (· != question) = query := by
  have hall : ∀ c ∈ path, (c != question) = true := by
    intro c hc
    rw [bne_iff_ne]
    rintro rfl
    exact hpath hc
  rw [List.takeWhile_append_of_pos hall, List.dropWhile_append_of_pos hall]
  rcases hquery with rfl | ⟨rest, rfl⟩
  · simp
  · simp

/-- A plain target that is not rejected is the one that was given. -/
theorem returnTo?_plain {raw target : Bytes} (hplain : PlainReturnTo raw) (h : returnTo? raw = some target) :
    target = raw := by
  obtain ⟨path, query, rfl, _, hpercent, hquestion, hquery, hpathTrim, htrim⟩ := hplain
  obtain ⟨htake, hdrop⟩ := takeWhile_dropWhile_plain hquestion hquery
  unfold returnTo? splitReturnTo at h
  rw [htrim, htake, hdrop, pathUnescape_of_not_mem hpercent] at h
  split at h
  · rename_i decodedPath query' hsplit
    split at hsplit
    · cases hsplit
    · rw [Option.map_some, hpathTrim, Option.some.injEq, Prod.mk.injEq] at hsplit
      obtain ⟨rfl, rfl⟩ := hsplit
      split at h
      · exact (Option.some.inj h).symm
      · cases h
  · cases h

/-- A sign-in or a logout stays on the server, and leaves plain targets alone, exactly if the
decoded path is rejected or has something other than tabs between its first two slashes. -/
theorem sanitizeReturnTo_safe_iff (raw : Bytes) :
    (SameOrigin (sanitizeReturnTo raw) ∧
        (PlainReturnTo raw → returnTo? raw ≠ none → sanitizeReturnTo raw = raw)) ↔
      ∀ decodedPath query, splitReturnTo (trimSpace raw) = some (decodedPath, query) →
        acceptsReturnTo (trimSpace raw) decodedPath = true → slashBehindTabs decodedPath = false := by
  have hplain : PlainReturnTo raw → returnTo? raw ≠ none → sanitizeReturnTo raw = raw := by
    intro hplain haccepted
    obtain ⟨target, htarget⟩ := Option.ne_none_iff_exists'.mp haccepted
    rw [sanitizeReturnTo, htarget, Option.getD_some, returnTo?_plain hplain htarget]
  rw [and_iff_left hplain]
  cases hsplit : splitReturnTo (trimSpace raw) with
  | none =>
      have hroot : sanitizeReturnTo raw = [slash] := by
        rw [sanitizeReturnTo, returnTo?, hsplit]
        rfl
      rw [hroot]
      exact iff_of_true sameOrigin_root fun _ _ heq => by cases heq
  | some parts =>
      obtain ⟨decodedPath, query⟩ := parts
      by_cases haccepts : acceptsReturnTo (trimSpace raw) decodedPath = true
      · have htarget : sanitizeReturnTo raw = decodedPath ++ query := by
          rw [sanitizeReturnTo, returnTo?, hsplit]
          dsimp only
          rw [if_pos haccepts]
          rfl
        rw [htarget, sameOrigin_of_accepts hsplit haccepts]
        constructor
        · rintro hsafe _ _ heq _
          cases heq
          exact hsafe
        · exact fun h => h decodedPath query rfl haccepts
      · have hroot : sanitizeReturnTo raw = [slash] := by
          rw [sanitizeReturnTo, returnTo?, hsplit]
          dsimp only
          rw [if_neg haccepts]
          rfl
        rw [hroot]
        refine iff_of_true sameOrigin_root ?_
        rintro _ _ heq haccepted
        cases heq
        exact absurd haccepted haccepts

/-- `/%09/a` has a tab between its slashes, which the browser drops. -/
theorem sanitizeReturnTo_leaves_origin :
    sanitizeReturnTo [slash, percent, 0x30, 0x39, slash, 0x61] = [slash, tab, slash, 0x61] ∧
      ¬ SameOrigin (sanitizeReturnTo [slash, percent, 0x30, 0x39, slash, 0x61]) := by
  have hresult : sanitizeReturnTo [slash, percent, 0x30, 0x39, slash, 0x61] = [slash, tab, slash, 0x61] := by
    decide
  rw [hresult, sameOrigin_cons_iff (by decide) (by decide) (by decide)]
  exact ⟨rfl, by decide⟩

end Scrumboy
