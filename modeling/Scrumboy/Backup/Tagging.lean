import Scrumboy.Backup.Landing
import Scrumboy.Store.TagLookup

/-!
# The tags of imported stories

The tags of a backup go to the importing user or to a board without accounts; before the first
account they are skipped. A story whose names have canonical forms gets exactly the tags that
they find, and one with a name that has none stops the import.
-/

namespace Scrumboy

open Go Sql

section

variable {rt : Runtime} {ctx : Ctx} {db db' : DB} {projectID todoID : ℤ} {isAnonymousBoard : Bool}
  {tagUser : Option (Option ℤ)}

/-- Whose tags an import into the project writes, if it writes any. -/
structure TagsGoTo (ctx : Ctx) (projectID : ℤ) (isAnonymousBoard : Bool) (tagUser : Option (Option ℤ))
    (db : DB) : Prop where
  project : ∃ p, getProject db projectID = .ok p ∧ p.id = projectID ∧
    isAnonymousTemporaryBoard p = isAnonymousBoard
  user : importTagUser ctx db isAnonymousBoard = .ok tagUser

/-- The tags among which those of the import are looked up. -/
def importOwned (projectID : ℤ) (isAnonymousBoard : Bool) (tagUser : Option (Option ℤ)) (t : TagRow) : Bool :=
  tagOwned projectID tagUser.join isAnonymousBoard t

theorem importTagUser_congr (husers : db'.users = db.users) :
    importTagUser ctx db' isAnonymousBoard = importTagUser ctx db isAnonymousBoard := by
  simp only [importTagUser, authEnabled, husers]
  rfl

theorem TagsGoTo.congr (h : TagsGoTo ctx projectID isAnonymousBoard tagUser db)
    (hprojects : db'.projects = db.projects) (husers : db'.users = db.users) :
    TagsGoTo ctx projectID isAnonymousBoard tagUser db' where
  project := by rw [getProject, hprojects]; exact h.project
  user := (importTagUser_congr husers).trans h.user

theorem TagsGoTo.owner {userID : Option ℤ} (h : TagsGoTo ctx projectID isAnonymousBoard (some userID) db) :
    isAnonymousBoard = true ∨ userID.isSome = true := by
  have huser := h.user
  unfold importTagUser at huser
  split at huser
  · cases huser
    exact .inr rfl
  · split at huser
    · exact .inl ‹_›
    · split at huser
      · cases huser
      · rw [pure_eq_ok] at huser
        obtain ⟨u, _, rfl⟩ := Option.map_eq_some_iff.mp huser
        exact .inr rfl

/-! ## One story -/

/-- Which tags the story has when it had none before. -/
theorem importTodoTags_spec (hstable : CanonicalStable rt) {names : List String}
    (hto : TagsGoTo ctx projectID isAnonymousBoard tagUser db)
    (hnames : tagUser.isSome = true → NormalTags rt names) (hnew : ∀ r ∈ db.todoTags, r.todoID ≠ todoID) :
    ∃ db', importTodoTags rt ctx db projectID todoID names = .ok db' ∧
      TagsGrow rt (importOwned projectID isAnonymousBoard tagUser) db db' ∧
      (tagUser.isSome = true → ∀ n ∈ names, (findTagIDByGroupKey rt db'
        (importOwned projectID isAnonymousBoard tagUser) (canonicalizeTag rt n)).isSome = true) ∧
      ∀ r, r ∈ db'.todoTags ↔ r ∈ db.todoTags ∨ tagUser.isSome = true ∧ r.todoID = todoID ∧
        ∃ n ∈ names, findTagIDByGroupKey rt db' (importOwned projectID isAnonymousBoard tagUser)
          (canonicalizeTag rt n) = some r.tagID := by
  obtain ⟨p, hproject, hid, hanon⟩ := hto.project
  cases tagUser with
  | none =>
      refine ⟨db, ?_, .refl db, by simp, by simp⟩
      rw [importTodoTags, hproject, ok_bind, hanon, hto.user]
      rfl
  | some userID =>
      obtain ⟨out, hout, hmem⟩ := (hnames rfl).normalizeTags
      have hcanonical : ∀ k ∈ out, IsCanonicalTag rt k := by
        intro k hk
        obtain ⟨n, hn, rfl⟩ := (hmem k).mp hk
        exact hstable.isCanonicalTag ((hnames rfl).2 n hn)
      have hclear : deleteWhere (fun r => r.todoID == todoID) db.todoTags = db.todoTags := by
        rw [deleteWhere, List.filter_eq_self]
        intro r hr
        simpa using hnew r hr
      obtain ⟨db', hloop, hgrows, hsome, hlinks⟩ :=
        @setTodoTag_loop rt ctx projectID todoID _ _ hto.owner out hcanonical db
      refine ⟨db', ?_, hgrows, fun _ n hn => hsome _ ((hmem _).mpr ⟨n, hn, rfl⟩), fun r => ?_⟩
      · rw [importTodoTags, hproject, ok_bind, hanon, hto.user, ok_bind]
        dsimp only
        rw [hout, ok_bind, setTodoTags, hclear]
        exact hloop
      · rw [hlinks, Option.isSome_some]
        simp only [true_and]
        refine or_congr_right (and_congr_right fun _ => ?_)
        constructor
        · rintro ⟨k, hk, hfind⟩
          obtain ⟨n, hn, rfl⟩ := (hmem k).mp hk
          exact ⟨n, hn, hfind⟩
        · rintro ⟨n, hn, hfind⟩
          exact ⟨_, (hmem _).mpr ⟨n, hn, rfl⟩, hfind⟩

theorem normalTags_of_importTodoTags {userID : Option ℤ} {names : List String}
    (hto : TagsGoTo ctx projectID isAnonymousBoard (some userID) db)
    (h : importTodoTags rt ctx db projectID todoID names = .ok db') : NormalTags rt names := by
  obtain ⟨p, hproject, _, hanon⟩ := hto.project
  rw [importTodoTags, hproject, ok_bind, hanon, hto.user, ok_bind] at h
  simp only [bind_eq_ok] at h
  obtain ⟨tags, htags, _⟩ := h
  exact normalTags_of_normalizeTags htags

/-! ## The tags of the project -/

theorem importTag_isOk_iff (hstable : CanonicalStable rt) {userID : Option ℤ}
    (hto : TagsGoTo ctx projectID isAnonymousBoard (some userID) db) (te : TagExport) :
    (∃ db', importTag rt ctx projectID db te = .ok db') ↔ canonicalizeTag rt te.name ≠ "" := by
  obtain ⟨p, hproject, _, hanon⟩ := hto.project
  constructor
  · rintro ⟨db', h⟩
    rw [importTag, hproject, ok_bind, hanon, hto.user, ok_bind] at h
    simp only [bind_eq_ok] at h
    obtain ⟨tags, htags, _⟩ := h
    exact (normalTags_of_normalizeTags htags).2 te.name List.mem_cons_self
  · intro hname
    have htags : normalizeTags rt [te.name] = .ok [canonicalizeTag rt te.name] := by
      simp [normalizeTags, normalizeTagNames, reject, hname, sortStrings]
    have hk := hstable.isCanonicalTag hname
    obtain ⟨out, hrow⟩ : ∃ out,
        importTagRow rt ctx db p userID (canonicalizeTag rt te.name) te.color = .ok out := by
      rw [importTagRow, hanon]
      split
      · exact ⟨_, rfl⟩
      · next hnot =>
        obtain ⟨u, rfl⟩ := Option.isSome_iff_exists.mp (hto.owner.resolve_left hnot)
        simp [importUserTag, getOrCreateTag, hk.fixed, hk.nonempty, reject, pure, Except.pure]
    refine ⟨linkProjectTag ctx out.1 projectID out.2, ?_⟩
    rw [importTag, hproject, ok_bind, hanon, hto.user, ok_bind]
    dsimp only
    rw [htags, ok_bind]
    dsimp only [List.head?_cons]
    rw [hrow]
    rfl

theorem importTag_skips (hto : TagsGoTo ctx projectID isAnonymousBoard none db) (te : TagExport) :
    importTag rt ctx projectID db te = .ok db := by
  obtain ⟨p, hproject, _, hanon⟩ := hto.project
  rw [importTag, hproject, ok_bind, hanon, hto.user]
  rfl

/-- The tags of a project are imported if there is no one to own them or each has a canonical
form. -/
theorem importTags_isOk_iff (hstable : CanonicalStable rt) {tags : List TagExport}
    (hto : TagsGoTo ctx projectID isAnonymousBoard tagUser db) :
    (∃ db', tags.foldlM (importTag rt ctx projectID) db = .ok db') ↔
      (tagUser.isSome = true → ∀ te ∈ tags, canonicalizeTag rt te.name ≠ "") := by
  induction tags generalizing db with
  | nil => exact iff_of_true ⟨db, rfl⟩ (by simp)
  | cons te tags ih =>
      have hafter : ∀ {db₁}, importTag rt ctx projectID db te = .ok db₁ →
          TagsGoTo ctx projectID isAnonymousBoard tagUser db₁ := by
        intro db₁ h
        obtain ⟨_, _, _, _, rfl⟩ := (importTag_tagsOnly h).exists_eq
        exact hto.congr rfl rfl
      simp only [List.foldlM_cons, bind_eq_ok, List.forall_mem_cons]
      cases tagUser with
      | none =>
          simp only [importTag_skips hto, Except.ok.injEq, exists_eq_left', ih hto]
          simp
      | some userID =>
          have hone := importTag_isOk_iff hstable hto te
          constructor
          · rintro ⟨db', db₁, hstep, hrest⟩ hsome
            exact ⟨hone.mp ⟨db₁, hstep⟩, (ih (hafter hstep)).mp ⟨db', hrest⟩ hsome⟩
          · intro hall
            obtain ⟨db₁, hstep⟩ := hone.mpr (hall rfl).1
            obtain ⟨db', hrest⟩ := (ih (hafter hstep)).mpr fun _ => (hall rfl).2
            exact ⟨db', db₁, hstep, hrest⟩

/-! ## What the tags of a project leave alone -/

theorem getOrCreateTag_todoTags {userID : ℤ} {name : String} {out : DB × ℤ}
    (h : getOrCreateTag rt ctx db userID name = .ok out) : out.1.todoTags = db.todoTags := by
  simp only [getOrCreateTag, bind_eq_ok, pure_eq_ok] at h
  obtain ⟨_, _, rfl⟩ := h
  unfold getOrCreateTagExact
  split <;> rfl

theorem setTagColor_todoTags (db : DB) (userID tagID : ℤ) (color : Option String) :
    (setTagColor db userID tagID color).todoTags = db.todoTags := by
  cases color with
  | none => rfl
  | some color =>
      dsimp only [setTagColor]
      split
      · rfl
      · unfold setUserTagColor
        split <;> rfl

theorem importTagRow_todoTags {p : ProjectRow} {userID : Option ℤ} {name : String} {color : Option String}
    {out : DB × ℤ} (h : importTagRow rt ctx db p userID name color = .ok out) :
    out.1.todoTags = db.todoTags := by
  unfold importTagRow at h
  split at h
  · rw [pure_eq_ok] at h
    subst h
    unfold importBoardTag
    split
    · rfl
    · split
      · rfl
      · split <;> rfl
  · cases userID with
    | none => cases h
    | some userID =>
        simp only [importUserTag, bind_eq_ok, pure_eq_ok] at h
        obtain ⟨⟨db₁, tagID⟩, hget, rfl⟩ := h
        exact (setTagColor_todoTags db₁ userID tagID color).trans (getOrCreateTag_todoTags hget)

/-- The tags of the stories stay as they are. -/
theorem importTags_todoTags {tags : List TagExport}
    (h : tags.foldlM (importTag rt ctx projectID) db = .ok db') : db'.todoTags = db.todoTags := by
  refine foldlM_inv (P := fun s => s.todoTags = db.todoTags) (fun s te s' _ hs hstep => ?_) rfl h
  rw [← hs]
  simp only [importTag, bind_eq_ok] at hstep
  obtain ⟨p, _, user, _, hstep⟩ := hstep
  cases user with
  | none => exact pure_eq_ok.mp hstep ▸ rfl
  | some userID =>
      simp only [bind_eq_ok] at hstep
      obtain ⟨tags, _, hstep⟩ := hstep
      split at hstep
      · cases hstep
      · simp only [bind_eq_ok, pure_eq_ok] at hstep
        obtain ⟨⟨db₁, tagID⟩, htag, rfl⟩ := hstep
        exact linkProjectTag_keeps.1.trans (importTagRow_todoTags htag)

/-! ## Several stories -/

/-- What new stories become: rows of their own, each with exactly the tags that its names find. -/
structure StoriesTagged (rt : Runtime) (owned : TagRow → Bool) (tagged : Bool) (tagLists : List (List String))
    (db db' : DB) (rows : List TodoRow) : Prop where
  todos : db'.todos = db.todos ++ rows
  length : rows.length = tagLists.length
  ids : (db.todos.map (·.id)).Nodup → (db'.todos.map (·.id)).Nodup
  grows : TagsGrow rt owned db db'
  found : tagged = true → ∀ names ∈ tagLists, ∀ n ∈ names,
    (findTagIDByGroupKey rt db' owned (canonicalizeTag rt n)).isSome = true
  todoTags : ∀ r, r ∈ db'.todoTags ↔ r ∈ db.todoTags ∨ tagged = true ∧ ∃ x ∈ tagLists.zip rows,
    r.todoID = x.2.id ∧ ∃ n ∈ x.1, findTagIDByGroupKey rt db' owned (canonicalizeTag rt n) = some r.tagID

namespace StoriesTagged

variable {owned : TagRow → Bool} {tagged : Bool} {tagLists : List (List String)} {rows : List TodoRow}

theorem nil (db : DB) : StoriesTagged rt owned tagged [] db db [] where
  todos := (List.append_nil _).symm
  length := rfl
  ids := id
  grows := .refl db
  found := by simp
  todoTags := by simp

theorem append {db₁ db₂ : DB} {tagLists' : List (List String)} {rows' : List TodoRow}
    (h : StoriesTagged rt owned tagged tagLists db db₁ rows)
    (h' : StoriesTagged rt owned tagged tagLists' db₁ db₂ rows') :
    StoriesTagged rt owned tagged (tagLists ++ tagLists') db db₂ (rows ++ rows') := by
  -- a name that was found is found again
  have hkept : tagged = true → ∀ names ∈ tagLists, ∀ n ∈ names,
      findTagIDByGroupKey rt db₂ owned (canonicalizeTag rt n) =
        findTagIDByGroupKey rt db₁ owned (canonicalizeTag rt n) := by
    intro htagged names hnames n hn
    obtain ⟨id, hid⟩ := Option.isSome_iff_exists.mp (h.found htagged names hnames n hn)
    rw [hid, h'.grows.kept _ _ hid]
  refine ⟨?_, ?_, h'.ids ∘ h.ids, h.grows.trans h'.grows, ?_, fun r => ?_⟩
  · rw [h'.todos, h.todos, List.append_assoc]
  · rw [List.length_append, List.length_append, h.length, h'.length]
  · intro htagged names hnames n hn
    rcases List.mem_append.mp hnames with hold | hnew
    · rw [hkept htagged names hold n hn]
      exact h.found htagged names hold n hn
    · exact h'.found htagged names hnew n hn
  · rw [h'.todoTags, h.todoTags, List.zip_append h.length.symm, or_assoc, ← and_or_left]
    refine or_congr_right (and_congr_right fun htagged => ?_)
    have hsame : (∃ x ∈ tagLists.zip rows, r.todoID = x.2.id ∧
        ∃ n ∈ x.1, findTagIDByGroupKey rt db₁ owned (canonicalizeTag rt n) = some r.tagID) ↔
        ∃ x ∈ tagLists.zip rows, r.todoID = x.2.id ∧
          ∃ n ∈ x.1, findTagIDByGroupKey rt db₂ owned (canonicalizeTag rt n) = some r.tagID := by
      refine exists_congr fun x => and_congr_right fun hx => and_congr_right fun _ => ?_
      refine exists_congr fun n => and_congr_right fun hn => ?_
      rw [hkept htagged x.1 (List.of_mem_zip hx).1 n hn]
    simp only [hsame, List.mem_append, or_and_right, exists_or]

/-- The stories of the rows that are there before. -/
theorem refs (h : StoriesTagged rt owned tagged tagLists db db' rows)
    (hrefs : ∀ r ∈ db.todoTags, r.todoID ∈ db.todos.map (·.id)) :
    ∀ r ∈ db'.todoTags, r.todoID ∈ db'.todos.map (·.id) := by
  intro r hr
  rw [h.todos, List.map_append, List.mem_append]
  rcases (h.todoTags r).mp hr with hold | ⟨_, x, hx, hid, _⟩
  · exact .inl (hrefs r hold)
  · exact .inr (hid ▸ List.mem_map_of_mem (List.of_mem_zip hx).2)

/-- Two of the stories share a tag exactly when they have names of one canonical form. -/
theorem share_iff (h : StoriesTagged rt owned tagged tagLists db db' rows) (hstable : CanonicalStable rt)
    (hrefs : ∀ r ∈ db.todoTags, r.todoID ∈ db.todos.map (·.id)) (hids : (db.todos.map (·.id)).Nodup)
    (htagIDs : (db.tags.map (·.id)).Nodup)
    (hnames : tagged = true → ∀ names ∈ tagLists, ∀ n ∈ names, canonicalizeTag rt n ≠ "")
    {x y : List String × TodoRow} (hx : x ∈ tagLists.zip rows) (hy : y ∈ tagLists.zip rows) :
    (∃ tagID, ⟨x.2.id, tagID⟩ ∈ db'.todoTags ∧ ⟨y.2.id, tagID⟩ ∈ db'.todoTags) ↔
      tagged = true ∧ ∃ n ∈ x.1, ∃ m ∈ y.1, canonicalizeTag rt n = canonicalizeTag rt m := by
  have hids' := h.ids hids
  rw [h.todos, List.map_append] at hids'
  obtain ⟨_, hrows, hapart⟩ := List.nodup_append.mp hids'
  have hzip : ((tagLists.zip rows).map fun x => x.2.id).Nodup := by
    have hsnd : (tagLists.zip rows).map (fun x => x.2.id) = rows.map (·.id) := by
      rw [← List.map_snd_zip h.length.le, List.map_map, List.map_snd_zip h.length.le]
      rfl
    rwa [hsnd]
  -- the tags of a new story are those of its own names
  have htags : ∀ z ∈ tagLists.zip rows, ∀ tagID, ⟨z.2.id, tagID⟩ ∈ db'.todoTags ↔ tagged = true ∧
      ∃ n ∈ z.1, findTagIDByGroupKey rt db' owned (canonicalizeTag rt n) = some tagID := by
    intro z hz tagID
    rw [h.todoTags]
    constructor
    · rintro (hold | ⟨htagged, z', hz', hid, hname⟩)
      · exact absurd rfl (hapart _ (hrefs _ hold) _ (List.mem_map_of_mem (List.of_mem_zip hz).2))
      · cases List.inj_on_of_nodup_map hzip hz hz' hid
        exact ⟨htagged, hname⟩
    · rintro ⟨htagged, hname⟩
      exact .inr ⟨htagged, z, hz, rfl, hname⟩
  simp only [htags x hx, htags y hy]
  constructor
  · rintro ⟨tagID, ⟨htagged, n, hn, hfind⟩, _, m, hm, hfind'⟩
    have hcanonical : ∀ z ∈ tagLists.zip rows, ∀ k ∈ z.1, IsCanonicalTag rt (canonicalizeTag rt k) :=
      fun z hz k hk => hstable.isCanonicalTag (hnames htagged z.1 (List.of_mem_zip hz).1 k hk)
    exact ⟨htagged, n, hn, m, hm, findTagIDByGroupKey_inj (h.grows.ids htagIDs) (hcanonical x hx n hn)
      (hcanonical y hy m hm) hfind hfind'⟩
  · rintro ⟨htagged, n, hn, m, hm, heq⟩
    obtain ⟨tagID, hfind⟩ := Option.isSome_iff_exists.mp (h.found htagged x.1 (List.of_mem_zip hx).1 n hn)
    exact ⟨tagID, ⟨htagged, n, hn, hfind⟩, htagged, m, hm, heq ▸ hfind⟩

end StoriesTagged

end

end Scrumboy
