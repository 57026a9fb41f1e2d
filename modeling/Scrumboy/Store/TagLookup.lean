import Scrumboy.Store.Tags
import Scrumboy.Store.Access

/-!
# Looking up tags

A canonical name finds at most one row among the tags of an owner, rows under other names do not
change what it finds, and a row that is made for it is found from then on. So two stories share a
tag exactly when they have names of one canonical form.
-/

namespace Scrumboy

open Go Sql

theorem mem_trimFunc {p : Char → Bool} {c : Char} (hp : p c = false) {s : String} :
    c ∈ (trimFunc p s).toList ↔ c ∈ s.toList := by
  have hdrop : ∀ l : List Char, c ∈ l.dropWhile p ↔ c ∈ l := by
    intro l
    constructor
    · exact fun h => (List.dropWhile_suffix p).subset h
    · intro h
      rw [← List.takeWhile_append_dropWhile (p := p) (l := l), List.mem_append] at h
      refine h.resolve_left fun htake => ?_
      rw [List.mem_takeWhile_imp htake] at hp
      cases hp
  rw [toList_trimFunc, List.rdropWhile, List.mem_reverse, hdrop, List.mem_reverse, hdrop]

/-- A name with a character that no tag has has no canonical form. -/
theorem canonicalizeTag_of_refused {rt : Runtime} {c : Char} (hspace : isSpace c = false)
    (hhyphen : (c == '-') = false) (hletter : (isLetter c || isNumber c) = false) (hmark : isMark c = false)
    (hlower : toLowerRune c = c) (hkeep : ∀ s : String, c ∈ s.toList → c ∈ (rt.nfc s).toList) {name : String}
    (hname : c ∈ name.toList) :
    canonicalizeTag rt name = "" := by
  have hstep : ∀ s : TagScan, s.step c = none := by
    intro s
    simp [TagScan.step, hspace, hhyphen, hletter, hmark]
  have hscan : ∀ (l : List Char) (s : TagScan), c ∈ l → l.foldlM TagScan.step s = none := by
    intro l
    induction l with
    | nil => simp
    | cons d l ih =>
        intro s hmem
        rcases List.mem_cons.mp hmem with rfl | hmem
        · rw [List.foldlM_cons, hstep]
          rfl
        · rw [List.foldlM_cons]
          cases s.step d with
          | none => rfl
          | some s' => exact ih s' hmem
  have htrim : c ∈ (trimSpace name).toList := by rwa [trimSpace, mem_trimFunc hspace]
  have hlow : c ∈ (toLower (rt.nfc (trimSpace name))).toList := by
    rw [toLower, toList_mapRunes, ← hlower]
    exact List.mem_map_of_mem (hkeep _ htrim)
  unfold canonicalizeTag
  dsimp only
  split
  · rfl
  · rw [hscan _ _ (hkeep _ hlow)]

/-- The canonical form of a canonical form is the same text. -/
def CanonicalStable (rt : Runtime) : Prop :=
  ∀ name, canonicalizeTag rt name ≠ "" →
    canonicalizeTag rt (canonicalizeTag rt name) = canonicalizeTag rt name

/-- A text that is its own canonical form. -/
structure IsCanonicalTag (rt : Runtime) (name : String) : Prop where
  nonempty : name ≠ ""
  fixed : canonicalizeTag rt name = name

section

variable {rt : Runtime} {ctx : Ctx} {db db' : DB} {owned : TagRow → Bool} {k : String} {id : ℤ}

theorem CanonicalStable.isCanonicalTag (h : CanonicalStable rt) {name : String}
    (hname : canonicalizeTag rt name ≠ "") : IsCanonicalTag rt (canonicalizeTag rt name) :=
  ⟨hname, h name hname⟩

theorem IsCanonicalTag.groupKey (h : IsCanonicalTag rt k) : tagGroupKey rt k = k := by
  rw [tagGroupKey, h.fixed, if_neg h.nonempty]

theorem findTagIDByGroupKey_congr (h : db'.tags = db.tags) (owned : TagRow → Bool) (k : String) :
    findTagIDByGroupKey rt db' owned k = findTagIDByGroupKey rt db owned k := by
  rw [findTagIDByGroupKey, findTagIDByGroupKey, h]

/-- The row that a canonical name finds has it as its group key. -/
theorem findTagIDByGroupKey_eq_some (hk : IsCanonicalTag rt k)
    (h : findTagIDByGroupKey rt db owned k = some id) :
    ∃ t ∈ db.tags, t.id = id ∧ tagGroupKey rt t.name = k := by
  unfold findTagIDByGroupKey at h
  split at h
  · next t hfind =>
    have hmatch := List.find?_some hfind
    rw [Bool.and_eq_true, beq_iff_eq] at hmatch
    exact ⟨t, List.mem_of_find?_eq_some hfind, Option.some.inj h, hmatch.2 ▸ (hmatch.2 ▸ hk).groupKey⟩
  · obtain ⟨t, hfind, rfl⟩ := Option.map_eq_some_iff.mp h
    have hmem := mem_orderBy.mp (List.mem_of_find?_eq_some hfind)
    exact ⟨t, List.mem_of_mem_filter hmem, rfl, by simpa using List.find?_some hfind⟩

/-- Two canonical names that find the same tag are the same name. -/
theorem findTagIDByGroupKey_inj {k' : String} (hids : (db.tags.map (·.id)).Nodup) (hk : IsCanonicalTag rt k)
    (hk' : IsCanonicalTag rt k') (h : findTagIDByGroupKey rt db owned k = some id)
    (h' : findTagIDByGroupKey rt db owned k' = some id) : k = k' := by
  obtain ⟨t, ht, hid, hkey⟩ := findTagIDByGroupKey_eq_some hk h
  obtain ⟨t', ht', hid', hkey'⟩ := findTagIDByGroupKey_eq_some hk' h'
  have heq : t = t' := List.inj_on_of_nodup_map hids ht ht' (hid.trans hid'.symm)
  rw [← hkey, ← hkey', heq]

/-! ## Growing tables -/

/-- The tags that names find are found again. -/
structure TagsGrow (rt : Runtime) (owned : TagRow → Bool) (db db' : DB) : Prop where
  kept : ∀ k id, findTagIDByGroupKey rt db owned k = some id → findTagIDByGroupKey rt db' owned k = some id
  ids : (db.tags.map (·.id)).Nodup → (db'.tags.map (·.id)).Nodup

theorem TagsGrow.refl (db : DB) : TagsGrow rt owned db db := ⟨fun _ _ => id, id⟩

theorem TagsGrow.of_eq (h : db'.tags = db.tags) : TagsGrow rt owned db db' where
  kept k id hfind := by rwa [findTagIDByGroupKey_congr h]
  ids hids := by rwa [h]

theorem TagsGrow.trans {db₁ db₂ db₃ : DB} (h : TagsGrow rt owned db₁ db₂) (h' : TagsGrow rt owned db₂ db₃) :
    TagsGrow rt owned db₁ db₃ :=
  ⟨fun k id hfind => h'.kept k id (h.kept k id hfind), fun hids => h'.ids (h.ids hids)⟩

theorem appendTag_grows {t : TagRow} (hname : IsCanonicalTag rt t.name)
    (hnone : findTagIDByGroupKey rt db owned t.name = none) : TagsGrow rt owned db (appendTag db t).1 := by
  constructor
  · intro k id hfind
    have hne : t.name ≠ k := by
      rintro rfl
      rw [hnone] at hfind
      cases hfind
    have hkey : tagGroupKey rt t.name ≠ k := hname.groupKey.symm ▸ hne
    rw [← hfind]
    dsimp only [findTagIDByGroupKey, appendTag]
    -- the new row matches neither by its name nor by its group key
    have hexact : (db.tags ++ [{ t with id := nextRowid (db.tags.map (fun t : TagRow => t.id)) }]).find?
        (fun t => owned t && t.name == k) = db.tags.find? fun t => owned t && t.name == k := by
      simp [List.find?_append, hne]
    have hgroup : (orderBy (fun t : TagRow => t.id) ((db.tags ++ [{ t with id := nextRowid (db.tags.map (fun t : TagRow => t.id)) }]).filter
        owned)).find? (fun t => tagGroupKey rt t.name == k) =
          (orderBy (fun t : TagRow => t.id) (db.tags.filter owned)).find? fun t => tagGroupKey rt t.name == k := by
      rw [List.filter_append, List.filter_cons, List.filter_nil]
      split
      · rw [orderBy_concat, List.find?_append]
        · simp [hkey]
        · intro a ha
          exact (lt_nextRowid (List.mem_map_of_mem (List.mem_of_mem_filter ha))).le
      · rw [List.append_nil]
    rw [hexact, hgroup]
  · intro hids
    rw [appendTag, List.map_append]
    exact nodup_concat_nextRowid hids

theorem appendTag_finds {t : TagRow} (howned : ∀ id, owned { t with id } = true)
    (hnone : findTagIDByGroupKey rt db owned t.name = none) :
    findTagIDByGroupKey rt (appendTag db t).1 owned t.name = some (appendTag db t).2 := by
  have hexact : db.tags.find? (fun u => owned u && u.name == t.name) = none := by
    unfold findTagIDByGroupKey at hnone
    split at hnone
    · cases hnone
    · assumption
  have hfind : (appendTag db t).1.tags.find? (fun u => owned u && u.name == t.name) =
      some { t with id := nextRowid (db.tags.map (·.id)) } := by
    rw [appendTag, List.find?_append, hexact]
    simp [howned]
  rw [findTagIDByGroupKey, hfind]
  rfl

/-! ## Tags of a story -/

/-- The tags among which the tags of a story are looked up: those of the board, or of the user. -/
def tagOwned (projectID : ℤ) (userID : Option ℤ) (isAnonymousBoard : Bool) (t : TagRow) : Bool :=
  if isAnonymousBoard then t.projectID == some projectID && t.userID == none else t.userID == userID

variable {projectID todoID : ℤ} {userID : Option ℤ} {isAnonymousBoard : Bool}

/-- Tags need an owner: the board, or a user. -/
theorem tagForTodo_spec (hk : IsCanonicalTag rt k) (howner : isAnonymousBoard = true ∨ userID.isSome = true) :
    ∃ db' id, tagForTodo rt ctx db projectID userID isAnonymousBoard k = .ok (db', id) ∧
      findTagIDByGroupKey rt db' (tagOwned projectID userID isAnonymousBoard) k = some id ∧
      TagsGrow rt (tagOwned projectID userID isAnonymousBoard) db db' ∧ db'.todoTags = db.todoTags := by
  cases isAnonymousBoard with
  | true =>
      have howned : tagOwned projectID userID true = fun t => t.projectID == some projectID && t.userID == none := by
        funext t
        simp [tagOwned]
      rw [howned]
      cases hfind : findTagIDByGroupKey rt db (fun t => t.projectID == some projectID && t.userID == none) k with
      | some id =>
          refine ⟨db, id, ?_, hfind, .refl db, rfl⟩
          rw [tagForTodo.eq_def, if_pos rfl, getOrCreateBoardTag, hfind]
          rfl
      | none =>
          refine ⟨_, _, ?_, appendTag_finds (t := ⟨0, none, k, ctx.nowMs, some projectID, none⟩) (by simp) hfind,
            appendTag_grows hk hfind, rfl⟩
          rw [tagForTodo.eq_def, if_pos rfl, getOrCreateBoardTag, hfind]
          rfl
  | false =>
      obtain ⟨u, rfl⟩ := Option.isSome_iff_exists.mp (howner.resolve_left Bool.false_ne_true)
      have howned : tagOwned projectID (some u) false = fun t => t.userID == some u := by
        funext t
        simp [tagOwned]
      rw [howned]
      cases hfind : findTagIDByGroupKey rt db (fun t => t.userID == some u) k with
      | some id =>
          refine ⟨db, id, ?_, hfind, .refl db, rfl⟩
          simp [tagForTodo, getOrCreateTag, getOrCreateTagExact, hk.fixed, hk.nonempty, hfind, reject]
      | none =>
          refine ⟨_, _, ?_, appendTag_finds (t := ⟨0, some u, k, ctx.nowMs, none, none⟩) (by simp) hfind,
            appendTag_grows hk hfind, rfl⟩
          simp [tagForTodo, getOrCreateTag, getOrCreateTagExact, hk.fixed, hk.nonempty, hfind, reject]

theorem mem_linkTodoTag {tagID : ℤ} {r : TodoTagRow} :
    r ∈ (linkTodoTag db todoID tagID).todoTags ↔ r ∈ db.todoTags ∨ r = ⟨todoID, tagID⟩ := by
  unfold linkTodoTag
  split
  · next hmem =>
    constructor
    · exact .inl
    · rintro (h | rfl)
      · exact h
      · exact hmem
  · exact List.mem_append.trans (or_congr_right List.mem_singleton)

theorem linkProjectTag_keeps {tagID : ℤ} : (linkProjectTag ctx db projectID tagID).todoTags = db.todoTags ∧
    (linkProjectTag ctx db projectID tagID).tags = db.tags := by
  unfold linkProjectTag
  split
  · exact ⟨rfl, rfl⟩
  · exact ⟨rfl, rfl⟩

theorem linkTodoTag_tags (db : DB) (todoID tagID : ℤ) : (linkTodoTag db todoID tagID).tags = db.tags := by
  unfold linkTodoTag
  split <;> rfl

theorem setTodoTag_spec (hk : IsCanonicalTag rt k) (howner : isAnonymousBoard = true ∨ userID.isSome = true) :
    ∃ db' id, setTodoTag rt ctx projectID todoID userID isAnonymousBoard db k = .ok db' ∧
      findTagIDByGroupKey rt db' (tagOwned projectID userID isAnonymousBoard) k = some id ∧
      TagsGrow rt (tagOwned projectID userID isAnonymousBoard) db db' ∧
      ∀ r, r ∈ db'.todoTags ↔ r ∈ db.todoTags ∨ r = ⟨todoID, id⟩ := by
  obtain ⟨db₁, id, htag, hfind, hgrows, htodoTags⟩ := @tagForTodo_spec rt ctx db k projectID _ _ hk howner
  have hsame : (linkTodoTag (linkProjectTag ctx db₁ projectID id) todoID id).tags = db₁.tags := by
    rw [linkTodoTag_tags, linkProjectTag_keeps.2]
  refine ⟨linkTodoTag (linkProjectTag ctx db₁ projectID id) todoID id, id, ?_, ?_, ?_, fun r => ?_⟩
  · rw [setTodoTag, hk.fixed, if_neg hk.nonempty, htag]
    rfl
  · rwa [findTagIDByGroupKey_congr hsame]
  · exact hgrows.trans (.of_eq hsame)
  · rw [mem_linkTodoTag, linkProjectTag_keeps.1, htodoTags]

/-- The tags of a story after the loop are those that its names find. -/
theorem setTodoTag_loop (howner : isAnonymousBoard = true ∨ userID.isSome = true) {names : List String}
    (hnames : ∀ k ∈ names, IsCanonicalTag rt k) (db : DB) :
    ∃ db', names.foldlM (setTodoTag rt ctx projectID todoID userID isAnonymousBoard) db = .ok db' ∧
      TagsGrow rt (tagOwned projectID userID isAnonymousBoard) db db' ∧
      (∀ k ∈ names, (findTagIDByGroupKey rt db' (tagOwned projectID userID isAnonymousBoard) k).isSome = true) ∧
      ∀ r, r ∈ db'.todoTags ↔ r ∈ db.todoTags ∨ r.todoID = todoID ∧
        ∃ k ∈ names, findTagIDByGroupKey rt db' (tagOwned projectID userID isAnonymousBoard) k = some r.tagID := by
  induction names generalizing db with
  | nil => exact ⟨db, rfl, .refl db, by simp, by simp⟩
  | cons k names ih =>
      obtain ⟨hk, hnames⟩ := List.forall_mem_cons.mp hnames
      obtain ⟨db₁, id, hset, hfind, hgrows, hlinks⟩ :=
        @setTodoTag_spec rt ctx db k projectID todoID _ _ hk howner
      obtain ⟨db', hloop, hgrows', hsome, hlinks'⟩ := ih hnames db₁
      have hfind' := hgrows'.kept k id hfind
      refine ⟨db', ?_, hgrows.trans hgrows', ?_, fun r => ?_⟩
      · rw [List.foldlM_cons, hset]
        exact hloop
      · rw [List.forall_mem_cons, hfind']
        exact ⟨rfl, hsome⟩
      · rw [hlinks', hlinks, List.exists_mem_cons_iff, hfind', Option.some.injEq]
        constructor
        · rintro ((h | rfl) | ⟨htodo, h⟩)
          · exact .inl h
          · exact .inr ⟨rfl, .inl rfl⟩
          · exact .inr ⟨htodo, .inr h⟩
        · rintro (h | ⟨rfl, rfl | h⟩)
          · exact .inl (.inl h)
          · exact .inl (.inr rfl)
          · exact .inr ⟨rfl, h⟩

/-! ## Normalized names -/

/-- The names are normalized if each of them has a canonical form. -/
theorem normalizeTagNames_ok {names : List String} (h : ∀ n ∈ names, canonicalizeTag rt n ≠ "")
    (seen : List String) :
    ∃ out, normalizeTagNames rt seen names = .ok out ∧
      ∀ k, k ∈ out ↔ k ∈ seen ∨ ∃ n ∈ names, canonicalizeTag rt n = k := by
  induction names generalizing seen with
  | nil => exact ⟨seen, rfl, by simp⟩
  | cons n names ih =>
      obtain ⟨hn, hnames⟩ := List.forall_mem_cons.mp h
      obtain ⟨out, hout, hmem⟩ :=
        ih hnames (if canonicalizeTag rt n ∈ seen then seen else seen ++ [canonicalizeTag rt n])
      have hseen : ∀ k, k ∈ (if canonicalizeTag rt n ∈ seen then seen else seen ++ [canonicalizeTag rt n]) ↔
          k ∈ seen ∨ canonicalizeTag rt n = k := by
        intro k
        split
        · next hold =>
          constructor
          · exact .inl
          · rintro (h | rfl)
            · exact h
            · exact hold
        · rw [List.mem_append, List.mem_singleton, eq_comm]
      refine ⟨out, ?_, fun k => ?_⟩
      · rw [normalizeTagNames, reject_bind_of_not hn]
        exact hout
      · rw [hmem, hseen, List.exists_mem_cons_iff, or_assoc]

theorem normalizeTagNames_canonical {seen names out : List String}
    (h : normalizeTagNames rt seen names = .ok out) : ∀ n ∈ names, canonicalizeTag rt n ≠ "" := by
  induction names generalizing seen with
  | nil => simp
  | cons n names ih =>
      simp only [normalizeTagNames, bind_eq_ok, reject_eq_ok] at h
      obtain ⟨_, hn, h⟩ := h
      exact List.forall_mem_cons.mpr ⟨hn, ih h⟩

/-- At most twenty names, each with a canonical form. -/
def NormalTags (rt : Runtime) (names : List String) : Prop :=
  names.length ≤ 20 ∧ ∀ n ∈ names, canonicalizeTag rt n ≠ ""

theorem NormalTags.normalizeTags {names : List String} (h : NormalTags rt names) :
    ∃ out, normalizeTags rt names = .ok out ∧ ∀ k, k ∈ out ↔ ∃ n ∈ names, canonicalizeTag rt n = k := by
  obtain ⟨out, hout, hmem⟩ := normalizeTagNames_ok h.2 []
  refine ⟨sortStrings out, ?_, fun k => ?_⟩
  · rw [Scrumboy.normalizeTags, reject_bind_of_not (not_lt.mpr h.1), hout]
    rfl
  · rw [sortStrings, List.mem_insertionSort, hmem]
    simp

theorem normalTags_of_normalizeTags {names out : List String} (h : normalizeTags rt names = .ok out) :
    NormalTags rt names := by
  simp only [normalizeTags, bind_eq_ok, reject_eq_ok] at h
  obtain ⟨_, hlen, _, hout, _⟩ := h
  exact ⟨not_lt.mp hlen, normalizeTagNames_canonical hout⟩

end

end Scrumboy
