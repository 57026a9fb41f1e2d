import Scrumboy.Application.PublicBoardRead
import Scrumboy.Sql.Like

/-!
# What a public search finds

The pattern of a search is lower case after Go, which knows the letters of every script, and the
column it is compared with is lower case after SQLite, which knows those of ASCII. A todo that is
found has the text of the search in some case, but a todo that has it word for word is found only
if the two lower case forms of the text are the same.
-/

namespace Scrumboy

open Go Sql

/-- The text has the piece in it, character for character. -/
def Contains (piece text : String) : Prop := piece.toList <:+: text.toList

/-- The text has the piece in it, up to the case of letters. -/
def ContainsAnyCase (piece text : String) : Prop :=
  ∃ found, found <:+: text.toList ∧ List.Forall₂ SameLetter found piece.toList

/-- What a search is for: a todo that the rest of a query selects is selected if it has the text
of the search in its title or body, and only if it has it in some case. -/
structure FindsWritten (search : String) : Prop where
  finds : ∀ db projectID columnKey (query : PublicBoardQuery) includeAfter t, query.search = search →
    publicTodoWhere db projectID columnKey { query with search := "" } includeAfter t = true →
    Contains search t.title ∨ Contains search t.body →
    publicTodoWhere db projectID columnKey query includeAfter t = true
  found : ∀ db projectID columnKey (query : PublicBoardQuery) includeAfter t, query.search = search →
    publicTodoWhere db projectID columnKey query includeAfter t = true →
    ContainsAnyCase search t.title ∨ ContainsAnyCase search t.body

/-- The two lower case forms of a text are the same. -/
def SameLower (search : String) : Prop := ∀ c ∈ search.toList, toLowerRune c = c.toLower

instance (search : String) : Decidable (SameLower search) :=
  List.decidableBAll _ search.toList

section

variable {search title body text : String}

theorem toList_publicLikePattern (value : String) :
    (publicLikePattern value).toList = '%' :: escapeLikeList '\\' (value.toList.map toLowerRune) ++ ['%'] := by
  simp [publicLikePattern, escapeLikeList, toLower]

theorem lower_pattern (search : String) :
    (search.toList.map toLowerRune).map Char.toLower = search.toList.map toLowerRune := by
  rw [List.map_map]
  exact List.map_congr_left fun c _ => toLower_toLowerRune c

/-- The lower case of a column is compared with the pattern. -/
theorem likeEscape_publicLikePattern :
    likeEscape '\\' (publicLikePattern search) (lower text) = true ↔
      ∃ found, found <:+: text.toList ∧ found.map Char.toLower = search.toList.map toLowerRune := by
  rw [likeEscape, toList_publicLikePattern, likeEscapeList_contains_iff (by decide), lower_pattern, lower,
    String.toList_ofList]
  constructor
  · rintro ⟨lowered, hlowered, heq⟩
    obtain ⟨found, hfound, rfl⟩ := List.infix_map_iff.mp hlowered
    refine ⟨found, hfound, ?_⟩
    rw [← heq, List.map_map]
    exact List.map_congr_left fun c _ => (toLower_toLower c).symm
  · rintro ⟨found, hfound, heq⟩
    exact ⟨found.map Char.toLower, hfound.map _, by rw [heq, lower_pattern]⟩

theorem publicSearchMatches_iff (hsearch : search ≠ "") :
    publicSearchMatches search title body = true ↔
      ∃ found, (found <:+: title.toList ∨ found <:+: body.toList) ∧
        found.map Char.toLower = search.toList.map toLowerRune := by
  simp only [publicSearchMatches, Bool.or_eq_true, beq_iff_eq, hsearch, false_or,
    likeEscape_publicLikePattern, or_and_right, exists_or]

/-- A search is one more condition. -/
theorem publicTodoWhere_search (db : DB) (projectID : ℤ) (columnKey : String) (query : PublicBoardQuery)
    (includeAfter : Bool) (t : TodoRow) :
    publicTodoWhere db projectID columnKey query includeAfter t =
      (publicTodoWhere db projectID columnKey { query with search := "" } includeAfter t &&
        publicSearchMatches query.search t.title t.body) := by
  have hempty : publicSearchMatches "" t.title t.body = true := rfl
  simp only [publicTodoWhere, hempty, Bool.and_true]
  ac_rfl

/-- Characters with the same lower case forms, one of ASCII and one of every script. -/
theorem forall₂_sameLetter {found piece : List Char}
    (h : found.map Char.toLower = piece.map toLowerRune) : List.Forall₂ SameLetter found piece := by
  induction found generalizing piece with
  | nil =>
      rw [List.map_nil, eq_comm, List.map_eq_nil_iff] at h
      subst h
      exact .nil
  | cons c found ih =>
      cases piece with
      | nil => cases h
      | cons d piece =>
          obtain ⟨hcd, h⟩ := List.cons_eq_cons.mp h
          refine .cons ?_ (ih h)
          exact ((sameLetter_toLower c).trans (hcd ▸ (sameLetter_toLowerRune d).symm))

theorem containsAnyCase_of_found (h : publicSearchMatches search title body = true) :
    ContainsAnyCase search title ∨ ContainsAnyCase search body := by
  by_cases hsearch : search = ""
  · subst hsearch
    exact .inl ⟨[], List.nil_infix, .nil⟩
  · obtain ⟨found, hfound, heq⟩ := (publicSearchMatches_iff hsearch).mp h
    exact hfound.imp (fun h => ⟨found, h, forall₂_sameLetter heq⟩)
      fun h => ⟨found, h, forall₂_sameLetter heq⟩

/-- A todo whose title is the text of the search is found if and only if the lower case forms
are the same. -/
theorem publicSearchMatches_self_iff (hsearch : search ≠ "") :
    publicSearchMatches search search "" = true ↔ SameLower search := by
  rw [publicSearchMatches_iff hsearch]
  constructor
  · rintro ⟨found, hfound, heq⟩
    have hlength : found.length = search.toList.length := by simpa using congrArg List.length heq
    have hself : found = search.toList := by
      rcases hfound with hfound | hfound
      · exact hfound.sublist.eq_of_length hlength
      · have hnil : found = [] := List.infix_nil.mp hfound
        rw [hnil, List.length_nil, eq_comm, List.length_eq_zero_iff] at hlength
        rw [hnil, hlength]
    subst hself
    intro c hc
    exact (List.map_inj_left.mp heq c hc).symm
  · intro hsame
    exact ⟨search.toList, .inl List.infix_rfl, List.map_congr_left fun c hc => (hsame c hc).symm⟩

theorem FindsWritten.of_sameLower (h : SameLower search) : FindsWritten search where
  finds db projectID columnKey query includeAfter t hquery hrest hwritten := by
    rw [publicTodoWhere_search, hrest, hquery, Bool.true_and]
    by_cases hsearch : search = ""
    · rw [hsearch]
      rfl
    · rw [publicSearchMatches_iff hsearch]
      exact ⟨search.toList, hwritten, List.map_congr_left fun c hc => (h c hc).symm⟩
  found db projectID columnKey query includeAfter t hquery hwhere := by
    rw [publicTodoWhere_search, Bool.and_eq_true, hquery] at hwhere
    exact containsAnyCase_of_found hwhere.2

/-- A todo of a board with nothing but a title. -/
def titledTodo (title : String) : TodoRow where
  id := 1
  projectID := 1
  localID := 1
  title := title
  body := ""
  columnKey := "backlog"
  rank := 1000
  estimationPoints := none
  assigneeUserID := none
  createdByUserID := none
  sprintID := none
  priorityKey := none
  createdAt := 0
  updatedAt := 0
  doneAt := none
  archivedAt := none
  dueAt := none
  dueRemindedAt := none

theorem FindsWritten.sameLower (h : FindsWritten search) : SameLower search := by
  by_cases hsearch : search = ""
  · subst hsearch
    exact fun c hc => absurd hc List.not_mem_nil
  · have hwhere := h.finds {} 1 "backlog" { search, limit := 20 } false (titledTodo search) rfl rfl
      (.inl List.infix_rfl)
    rw [publicTodoWhere_search, Bool.and_eq_true] at hwhere
    exact (publicSearchMatches_self_iff hsearch).mp hwhere.2

end

theorem normalizeQuery_search {rt : Runtime} {input : QueryInput} {query : NormalizedQuery}
    (h : normalizeQuery rt input = .ok query) : query.storeQuery.search = trimSpace input.search := by
  simp only [normalizeQuery, bind_eq_ok, pure_eq_ok] at h
  obtain ⟨_, _, _, _, _, _, _, _, _, _, _, _, rfl⟩ := h
  rfl

end Scrumboy
