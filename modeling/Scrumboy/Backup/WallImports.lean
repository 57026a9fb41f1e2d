import Mathlib.Data.Finset.Card
import Mathlib.Data.String.Basic
import Scrumboy.Backup.Walls
import Scrumboy.Sql.Firsts
import Scrumboy.Store.WallGraph

/-!
# Walls that an import writes

The three loops of `upsertWallForImport` on their own: the notes are those whose id is new,
the stories those that can be placed, and the edges those with two different ends in the
destination, each under a key that is new. From this follows which walls an import leaves,
and which edges it loses.
-/

set_option linter.dupNamespace false

namespace Scrumboy

open Go Sql

/-! ## Notes -/

section Notes

variable {draws : ProjectDraws} {notes : List WallNote}

/-- The id that a note at a place of the backup gets. -/
def importNoteID (draws : ProjectDraws) (ni : WallNote × ℕ) : String :=
  if trimSpace ni.1.id = "" then newNoteID (draws.note ni.2) else trimSpace ni.1.id

theorem importNotes_eq (draws : ProjectDraws) (notes : List WallNote) :
    importNotes draws notes =
      (firsts (importNoteID draws) (notes.take maxWallNotes).zipIdx).map fun ni =>
        importNote (importNoteID draws ni) ni.1 := by
  have hfold : importNotes draws notes = (notes.take maxWallNotes).zipIdx.foldl (fun kept ni =>
      if importNoteID draws ni ∈ kept.map (·.id) then kept
      else kept ++ [importNote (importNoteID draws ni) ni.1]) [] := rfl
  rw [hfold]
  induction (notes.take maxWallNotes).zipIdx using List.reverseRecOn with
  | nil => rfl
  | append_singleton l ni ih =>
      have hids : ∀ l : List (WallNote × ℕ),
          (l.map fun ni => importNote (importNoteID draws ni) ni.1).map (·.id) =
            l.map (importNoteID draws) := by
        intro l
        rw [List.map_map]
        rfl
      rw [List.foldl_append, ih, firsts_concat, List.foldl_cons, List.foldl_nil, hids]
      by_cases hseen : importNoteID draws ni ∈ (firsts (importNoteID draws) l).map (importNoteID draws)
      · rw [if_pos hseen, if_pos hseen]
      · rw [if_neg hseen, if_neg hseen, List.map_append]
        rfl

theorem nodup_importNotes (draws : ProjectDraws) (notes : List WallNote) :
    ((importNotes draws notes).map (·.id)).Nodup := by
  rw [importNotes_eq, List.map_map]
  exact nodup_map_firsts (importNoteID draws) _

theorem length_importNotes_le (draws : ProjectDraws) (notes : List WallNote) :
    (importNotes draws notes).length ≤ maxWallNotes := by
  rw [importNotes_eq, List.length_map]
  refine (firsts_sublist _ _).length_le.trans ?_
  rw [List.length_zipIdx]
  exact List.length_take_le _ _

/-- The cut at the limit goes through no character. -/
def CutFits (text : String) : Prop :=
  byteLen text ≤ maxWallTextBytes ∨ byteLen (takeBytes maxWallTextBytes text) = maxWallTextBytes

/-- A text keeps within the limit when its cut goes through no character: each byte of a
broken character is stored as a character of three bytes. -/
theorem byteLen_cutText_le_iff (text : String) :
    byteLen (cutText maxWallTextBytes text) ≤ maxWallTextBytes ↔ CutFits text := by
  have hkept := byteLen_takeBytes_le maxWallTextBytes text
  have hsize : ∀ k, byteLen (String.ofList (List.replicate k (Char.ofNat 0xFFFD))) = k * 3 := by
    intro k
    have hchar : (Char.ofNat 0xFFFD).utf8Size = 3 := by decide
    rw [byteLen_ofList, List.map_replicate, hchar, List.sum_replicate_nat]
  have hlen : byteLen text ≤ maxWallTextBytes → byteLen (takeBytes maxWallTextBytes text) = byteLen text := by
    intro hle
    rw [takeBytes_of_byteLen_le hle]
  unfold CutFits cutText
  rw [byteLen_append, hsize]
  omega

/-- Every note of the backup that is kept, the first 500 without those that repeat an id,
has a text that fits or is cut between two characters. -/
def TextsFit (draws : ProjectDraws) (notes : List WallNote) : Prop :=
  ∀ (l₁ : List (WallNote × ℕ)) ni l₂, (notes.take maxWallNotes).zipIdx = l₁ ++ ni :: l₂ →
    importNoteID draws ni ∉ l₁.map (importNoteID draws) → CutFits ni.1.text

theorem importNotes_texts_iff (draws : ProjectDraws) (notes : List WallNote) :
    (∀ n ∈ importNotes draws notes, byteLen n.text ≤ maxWallTextBytes) ↔ TextsFit draws notes := by
  rw [importNotes_eq]
  constructor
  · intro h l₁ ni l₂ hsplit hnew
    have hmem := mem_firsts.mpr ⟨l₁, l₂, hsplit, hnew⟩
    exact (byteLen_cutText_le_iff _).mp (h _ (List.mem_map_of_mem hmem))
  · intro h n hn
    obtain ⟨ni, hni, rfl⟩ := List.mem_map.mp hn
    obtain ⟨l₁, l₂, hsplit, hnew⟩ := mem_firsts.mp hni
    exact (byteLen_cutText_le_iff _).mpr (h l₁ ni l₂ hsplit hnew)

end Notes

/-! ## Stories -/

section Stories

variable {db : DB} {projectID : ℤ} {resolveStory : ℤ → Option ℤ} {s s' : StoryScan}

/-- A story of the backup that has a todo in the destination. -/
def Placeable (db : DB) (projectID : ℤ) (resolveStory : ℤ → Option ℤ) (localID : ℤ) : Prop :=
  0 < localID ∧ ∃ dest ∈ resolveStory localID, (todoByLocalID db projectID dest).isSome

instance (db : DB) (projectID : ℤ) (resolveStory : ℤ → Option ℤ) (localID : ℤ) :
    Decidable (Placeable db projectID resolveStory localID) :=
  inferInstanceAs (Decidable (_ ∧ _))

/-- What the loop does with one story. -/
inductive StoryStep (projectID : ℤ) (resolveStory : ℤ → Option ℤ) (s : StoryScan)
    (story : WallStoryPlacementExport) (s' : StoryScan) : Prop
  | dropped (hdb : s'.db = s.db) (hplaced : s'.placed = s.placed) (hseen : s'.seen = s.seen)
      (hreason : story.localID ≤ 0 ∨ story.localID ∈ s.seen)
  | dangling (hdb : s'.db = s.db) (hplaced : s'.placed = s.placed)
      (hseen : s'.seen = story.localID :: s.seen) (hpos : 0 < story.localID) (hnew : story.localID ∉ s.seen)
      (hreason : ¬ Placeable s.db projectID resolveStory story.localID)
  | placed (p : PlacementRow) (t : TodoRow) (dest : ℤ) (hproject : p.projectID = projectID)
      (htodo : p.todoID = t.id) (ht : todoByLocalID s.db projectID dest = some t)
      (hdest : resolveStory story.localID = some dest)
      (hdb : s'.db = { s.db with placements := s.db.placements ++ [p] })
      (hplaced : s'.placed = s.placed ++ [dest]) (hseen : s'.seen = story.localID :: s.seen)
      (hpos : 0 < story.localID) (hnew : story.localID ∉ s.seen)

theorem importStory_step {story : WallStoryPlacementExport}
    (h : importStory projectID resolveStory s story = .ok s') :
    StoryStep projectID resolveStory s story s' := by
  unfold importStory at h
  split at h
  · rename_i hpos
    rw [pure_eq_ok] at h
    subst h
    exact .dropped rfl rfl rfl (.inl hpos)
  · rename_i hpos
    split at h
    · rename_i hseen
      rw [pure_eq_ok] at h
      subst h
      exact .dropped rfl rfl rfl (.inr hseen)
    · rename_i hnew
      split at h
      · rename_i hnone
        rw [pure_eq_ok] at h
        subst h
        refine .dangling rfl rfl rfl (not_le.mp hpos) hnew ?_
        rintro ⟨_, dest, hdest, _⟩
        rw [hnone] at hdest
        cases hdest
      · rename_i dest hdest
        split at h
        · rename_i hnone
          rw [pure_eq_ok] at h
          subst h
          refine .dangling rfl rfl rfl (not_le.mp hpos) hnew ?_
          rintro ⟨_, dest', hdest', hsome⟩
          obtain rfl := Option.some.inj (hdest.symm.trans hdest')
          rw [hnone] at hsome
          cases hsome
        · rename_i t ht
          simp only [bind_eq_ok, reject_eq_ok, pure_eq_ok] at h
          obtain ⟨_, _, rfl⟩ := h
          exact .placed _ t dest rfl rfl ht hdest rfl rfl rfl (not_le.mp hpos) hnew

theorem placeable_congr {db db' : DB} (h : db'.todos = db.todos) (localID : ℤ) :
    Placeable db' projectID resolveStory localID ↔ Placeable db projectID resolveStory localID := by
  unfold Placeable todoByLocalID
  rw [h]

/-- The stories that a loop places are those that can be placed, each once. -/
theorem foldlM_importStory {stories : List WallStoryPlacementExport}
    (h : stories.foldlM (importStory projectID resolveStory) s = .ok s') :
    s'.db.todos = s.db.todos ∧ ∃ new : List PlacementRow, s'.db.placements = s.db.placements ++ new ∧
      (∀ p ∈ new, p.projectID = projectID) ∧
      ∃ accepted : List ℤ, accepted.Nodup ∧ accepted.length = new.length ∧
        ∀ localID, localID ∈ accepted ↔ localID ∉ s.seen ∧ localID ∈ stories.map (·.localID) ∧
          Placeable s.db projectID resolveStory localID := by
  induction stories generalizing s with
  | nil =>
      simp only [List.foldlM_nil, pure_eq_ok] at h
      subst h
      exact ⟨rfl, [], by simp, by simp, [], by simp, rfl, by simp⟩
  | cons story stories ih =>
      rw [List.foldlM_cons, bind_eq_ok] at h
      obtain ⟨s₁, hstep, hrest⟩ := h
      obtain ⟨htodos, new, hnew, hproject, accepted, hnodup, hlength, hmem⟩ := ih hrest
      cases importStory_step hstep with
      | dropped hdb hplaced hseen hreason =>
          rw [hdb] at htodos hnew hmem
          rw [hseen] at hmem
          refine ⟨htodos, new, hnew, hproject, accepted, hnodup, hlength, fun localID => ?_⟩
          rw [hmem, List.map_cons, List.mem_cons]
          constructor
          · rintro ⟨hns, hin, hp⟩
            exact ⟨hns, .inr hin, hp⟩
          · rintro ⟨hns, rfl | hin, hp⟩
            · exact (hreason.elim (fun hle => absurd hp.1 (not_lt.mpr hle)) fun hs => absurd hs hns)
            · exact ⟨hns, hin, hp⟩
      | dangling hdb hplaced hseen hpos hfresh hreason =>
          rw [hdb] at htodos hnew hmem
          rw [hseen] at hmem
          refine ⟨htodos, new, hnew, hproject, accepted, hnodup, hlength, fun localID => ?_⟩
          rw [hmem, List.map_cons, List.mem_cons, List.mem_cons, not_or]
          constructor
          · rintro ⟨hns, hin, hp⟩
            exact ⟨hns.2, .inr hin, hp⟩
          · rintro ⟨hns, hin, hp⟩
            have hne : localID ≠ story.localID := fun heq => hreason (heq ▸ hp)
            exact ⟨⟨hne, hns⟩, hin.resolve_left hne, hp⟩
      | placed p t dest hp htodo ht hdest hdb hplaced hseen hpos hfresh =>
          have htodos₁ : s₁.db.todos = s.db.todos := by rw [hdb]
          have hplacements : s₁.db.placements = s.db.placements ++ [p] := by rw [hdb]
          rw [hplacements, List.append_assoc] at hnew
          refine ⟨htodos.trans htodos₁, p :: new, hnew, ?_, story.localID :: accepted, ?_, by simp [hlength],
            fun localID => ?_⟩
          · intro q hq
            rcases List.mem_cons.mp hq with rfl | hq
            · exact hp
            · exact hproject q hq
          · refine List.nodup_cons.mpr ⟨fun hmem' => ?_, hnodup⟩
            have hns := ((hmem _).mp hmem').1
            rw [hseen] at hns
            exact hns List.mem_cons_self
          · have hplaceable : Placeable s.db projectID resolveStory story.localID :=
              ⟨hpos, dest, hdest, by rw [ht]; rfl⟩
            rw [List.mem_cons, hmem, hseen, placeable_congr htodos₁, List.map_cons, List.mem_cons, List.mem_cons,
              not_or]
            constructor
            · rintro (rfl | ⟨hns, hin, hp⟩)
              · exact ⟨hfresh, .inl rfl, hplaceable⟩
              · exact ⟨hns.2, .inr hin, hp⟩
            · rintro ⟨hns, hin, hp⟩
              by_cases heq : localID = story.localID
              · exact .inl heq
              · exact .inr ⟨⟨heq, hns⟩, hin.resolve_left heq, hp⟩

theorem mem_placedLocalIDs {localID : ℤ} : localID ∈ placedLocalIDs db projectID ↔
    ∃ p ∈ db.placements, p.projectID = projectID ∧ ∃ t ∈ db.todos, t.id = p.todoID ∧ t.localID = localID := by
  simp [placedLocalIDs, and_assoc]

/-- What the loop takes for placed is placed. -/
theorem importStory_placed {stories : List WallStoryPlacementExport}
    (h : stories.foldlM (importStory projectID resolveStory) s = .ok s')
    (hs : ∀ dest ∈ s.placed, dest ∈ placedLocalIDs s.db projectID) :
    ∀ dest ∈ s'.placed, dest ∈ placedLocalIDs s'.db projectID := by
  refine foldlM_inv (P := fun s => ∀ dest ∈ s.placed, dest ∈ placedLocalIDs s.db projectID) ?_ hs h
  intro s story s₁ _ hs hstep
  cases importStory_step hstep with
  | dropped hdb hplaced _ _ =>
      rw [hdb, hplaced]
      exact hs
  | dangling hdb hplaced _ _ _ _ =>
      rw [hdb, hplaced]
      exact hs
  | placed p t dest hp htodo ht hdest hdb hplaced _ _ _ =>
      intro d hd
      rw [hplaced] at hd
      rw [mem_placedLocalIDs, hdb]
      rcases List.mem_append.mp hd with hd | hd
      · obtain ⟨q, hq, hqp, t', ht', heq⟩ := mem_placedLocalIDs.mp (hs d hd)
        exact ⟨q, List.mem_append_left _ hq, hqp, t', ht', heq⟩
      · obtain rfl := List.mem_singleton.mp hd
        have hlocal : t.localID = d := by
          have hfound := List.find?_some ht
          simp only [Bool.and_eq_true, beq_iff_eq] at hfound
          exact hfound.2
        exact ⟨p, List.mem_append_right _ (List.mem_singleton_self _), hp, t,
          List.mem_of_find?_eq_some ht, htodo.symm, hlocal⟩

/-- The stories that the wall will have fit in its limit: those of the backup that can be
placed, or, when the backup has none, those that are there. -/
def StoriesFit (db : DB) (projectID : ℤ) (payload : WallExport) (resolveStory : ℤ → Option ℤ) : Prop :=
  if payload.storiesPresent || !payload.stories.isEmpty then
    ((payload.stories.map (·.localID)).toFinset.filter
      (Placeable db projectID resolveStory)).card ≤ maxWallStories
  else (db.placements.filter fun p => p.projectID == projectID).length ≤ maxWallStories

/-- The stories on the wall after the loop. -/
theorem importStories_spec {payload : WallExport} {warnings : List String}
    (h : importStories db projectID payload resolveStory warnings = .ok s) :
    (∀ dest ∈ s.placed, dest ∈ placedLocalIDs s.db projectID) ∧
      ((s.db.placements.filter fun p => p.projectID == projectID).length ≤ maxWallStories ↔
        StoriesFit db projectID payload resolveStory) := by
  unfold importStories at h
  unfold StoriesFit
  split at h
  · rename_i hpresent
    rw [if_pos hpresent]
    refine ⟨importStory_placed h (by simp), ?_⟩
    obtain ⟨_, new, hnew, hproject, accepted, hnodup, hlength, hmem⟩ := foldlM_importStory h
    have hnone : (deleteWhere (fun p => p.projectID == projectID) db.placements).filter
        (fun p => p.projectID == projectID) = [] := by
      simp [deleteWhere, List.filter_filter]
    have hall : new.filter (fun p => p.projectID == projectID) = new := by
      rw [List.filter_eq_self]
      intro p hp
      simpa using hproject p hp
    rw [hnew, List.filter_append, hnone, hall, List.nil_append, ← hlength,
      ← List.toFinset_card_of_nodup hnodup]
    have hset : accepted.toFinset = (payload.stories.map (·.localID)).toFinset.filter
        (Placeable db projectID resolveStory) := by
      ext localID
      rw [List.mem_toFinset, hmem, Finset.mem_filter, List.mem_toFinset]
      exact ⟨fun h => ⟨h.2.1, h.2.2⟩, fun h => ⟨List.not_mem_nil, h.1, h.2⟩⟩
    rw [hset]
  · rename_i habsent
    rw [pure_eq_ok] at h
    subst h
    rw [if_neg habsent]
    exact ⟨fun dest hdest => hdest, Iff.rfl⟩

end Stories

/-! ## Edges -/

section Edges

/-- The stored form of an edge of the backup whose ends are in the destination and differ. -/
def importedEdge (draws : ProjectDraws) (resolve : WallEdgeEndpoint → Option WallEdgeEndpoint)
    (ei : WallEdge × ℕ) : Option WallEdge := do
  let source ← (parseWallEdgeEndpoint ei.1.fromRef).toOption
  let target ← (parseWallEdgeEndpoint ei.1.toRef).toOption
  if source.canonical = target.canonical then none
  else do
    let source ← resolve source
    let target ← resolve target
    if source.canonical = target.canonical then none
    else some ⟨if trimSpace ei.1.id = "" then newEdgeID (draws.edge ei.2) else trimSpace ei.1.id,
      source.canonical, target.canonical⟩

/-- The key of a stored edge. -/
def WallEdge.key (e : WallEdge) : String := edgeKey e.fromRef e.toRef

/-- What the loop does with one edge. -/
theorem importEdge_eq (draws : ProjectDraws) (resolve : WallEdgeEndpoint → Option WallEdgeEndpoint)
    (s : EdgeScan) (ei : WallEdge × ℕ) :
    (importEdge draws resolve s ei).kept = s.kept ∧ (importEdge draws resolve s ei).seen = s.seen ∧
        (importedEdge draws resolve ei = none ∨ ∃ e, importedEdge draws resolve ei = some e ∧ e.key ∈ s.seen) ∨
      ∃ e, importedEdge draws resolve ei = some e ∧ e.key ∉ s.seen ∧
        (importEdge draws resolve s ei).kept = s.kept ++ [e] ∧
        (importEdge draws resolve s ei).seen = e.key :: s.seen := by
  obtain ⟨e, i⟩ := ei
  cases hsource : parseWallEdgeEndpoint e.fromRef with
  | error err =>
      left
      simp [importEdge, importedEdge, hsource, Except.toOption, EdgeScan.warn]
  | ok source =>
      cases htarget : parseWallEdgeEndpoint e.toRef with
      | error err =>
          left
          simp [importEdge, importedEdge, hsource, htarget, Except.toOption, EdgeScan.warn]
      | ok target =>
          by_cases hloop : source.canonical = target.canonical
          · left
            simp [importEdge, importedEdge, hsource, htarget, hloop, Except.toOption]
          · cases hsource' : resolve source with
            | none =>
                left
                simp [importEdge, importedEdge, hsource, htarget, hsource', hloop, Except.toOption,
                  EdgeScan.warn]
            | some source' =>
                cases htarget' : resolve target with
                | none =>
                    left
                    simp [importEdge, importedEdge, hsource, htarget, hsource', htarget', hloop,
                      Except.toOption, EdgeScan.warn]
                | some target' =>
                    by_cases hloop' : source'.canonical = target'.canonical
                    · left
                      simp [importEdge, importedEdge, hsource, htarget, hsource', htarget', hloop, hloop',
                        Except.toOption]
                    · by_cases hseen : edgeKey source'.canonical target'.canonical ∈ s.seen
                      · left
                        simp [importEdge, importedEdge, hsource, htarget, hsource', htarget', hloop, hloop',
                          hseen, Except.toOption, WallEdge.key]
                      · right
                        simp [importEdge, importedEdge, hsource, htarget, hsource', htarget', hloop, hloop',
                          hseen, Except.toOption, WallEdge.key]

/-- The loop keeps the edges whose key is new. -/
theorem foldl_importEdge_kept (draws : ProjectDraws) (resolve : WallEdgeEndpoint → Option WallEdgeEndpoint)
    (warnings : List String) (l : List (WallEdge × ℕ)) :
    (l.foldl (importEdge draws resolve) { warnings }).kept =
      firsts WallEdge.key (l.filterMap (importedEdge draws resolve)) := by
  suffices h : (l.foldl (importEdge draws resolve) { warnings }).kept =
      firsts WallEdge.key (l.filterMap (importedEdge draws resolve)) ∧
      ∀ k, k ∈ (l.foldl (importEdge draws resolve) { warnings }).seen ↔
        k ∈ (firsts WallEdge.key (l.filterMap (importedEdge draws resolve))).map WallEdge.key from h.1
  induction l using List.reverseRecOn with
  | nil => simp
  | append_singleton l ei ih =>
      rw [List.foldl_append, List.foldl_cons, List.foldl_nil, List.filterMap_append]
      generalize l.foldl (importEdge draws resolve) { warnings } = s at ih ⊢
      obtain ⟨hkept, hseen⟩ := ih
      rcases importEdge_eq draws resolve s ei with
        ⟨hkept', hseen', hnone | ⟨e, he, hold⟩⟩ | ⟨e, he, hnew, hkept', hseen'⟩
      · rw [hkept', hseen', List.filterMap_cons_none hnone, List.filterMap_nil, List.append_nil]
        exact ⟨hkept, hseen⟩
      · rw [hkept', hseen', List.filterMap_cons_some he, List.filterMap_nil, firsts_concat,
          if_pos ((hseen _).mp hold)]
        exact ⟨hkept, hseen⟩
      · rw [hkept', hseen', List.filterMap_cons_some he, List.filterMap_nil, firsts_concat,
          if_neg fun hin => hnew ((hseen _).mpr hin)]
        refine ⟨by rw [hkept], fun k => ?_⟩
        rw [List.mem_cons, hseen, List.map_append, List.mem_append, List.map_singleton, List.mem_singleton,
          or_comm]

theorem importedEdge_eq_some {draws : ProjectDraws} {resolve : WallEdgeEndpoint → Option WallEdgeEndpoint}
    {ei : WallEdge × ℕ} {e : WallEdge} (h : importedEdge draws resolve ei = some e) :
    ∃ source target source' target', resolve source = some source' ∧ resolve target = some target' ∧
      e.fromRef = source'.canonical ∧ e.toRef = target'.canonical ∧ e.fromRef ≠ e.toRef := by
  simp only [importedEdge, Option.bind_eq_bind, Option.bind_eq_some_iff] at h
  obtain ⟨source, _, target, _, h⟩ := h
  split at h
  · cases h
  · simp only [Option.bind_eq_some_iff] at h
    obtain ⟨source', hsource', target', htarget', h⟩ := h
    split at h
    · cases h
    · rename_i hloop
      cases h
      exact ⟨source, target, source', target', hsource', htarget', rfl, rfl, hloop⟩

theorem parse_formatWallStoryEndpoint {localID : ℤ} {endpoint : WallEdgeEndpoint}
    (h : parseWallEdgeEndpoint (formatWallStoryEndpoint localID) = .ok endpoint) :
    endpoint = .story localID := by
  have hchars : ∀ c ∈ (formatWallStoryEndpoint localID).toList, isSpace c = false := by
    intro c hc
    rw [formatWallStoryEndpoint, String.toList_append] at hc
    rcases List.mem_append.mp hc with hc | hc
    · have hall : wallStoryEndpointPrefix.toList.all (fun c => !isSpace c) = true := by decide +kernel
      simpa using List.all_eq_true.mp hall c hc
    · rcases isDigit_of_mem_formatInt hc with rfl | hdigit
      · decide +kernel
      · exact isSpace_of_isDigit hdigit
  have hcut : cutPrefix (formatWallStoryEndpoint localID) wallStoryEndpointPrefix =
      some (formatInt localID) := by
    unfold cutPrefix hasPrefix formatWallStoryEndpoint
    simp
  unfold parseWallEdgeEndpoint at h
  simp only [trimSpace_eq_self _ hchars, hcut] at h
  split at h
  · cases h
  · split at h
    · cases h
    · rename_i n hn
      split at h
      · cases h
      · rw [pure_eq_ok] at h
        rw [← h, eq_of_parseInt_formatInt hn]

/-- The end of an imported edge is on the wall. -/
theorem resolveImportEndpoint_mem {resolveStory : ℤ → Option ℤ} {notes : List WallNote} {placed : List ℤ}
    {story : ℤ → Prop} (hplaced : ∀ dest ∈ placed, story dest) {endpoint endpoint' : WallEdgeEndpoint}
    (h : resolveImportEndpoint resolveStory (notes.map (·.id)) placed endpoint = some endpoint') :
    endpoint'.canonical ∈ wallVertices notes story := by
  cases endpoint with
  | note id =>
      simp only [resolveImportEndpoint] at h
      split at h
      · rename_i hid
        cases h
        exact .inl (List.mem_map.mp hid)
      · cases h
  | story localID =>
      simp only [resolveImportEndpoint, Option.bind_eq_bind, Option.bind_eq_some_iff] at h
      obtain ⟨dest, _, h⟩ := h
      split at h
      · rename_i hdest
        cases hparse : parseWallEdgeEndpoint (formatWallStoryEndpoint dest) with
        | error err =>
            rw [hparse] at h
            cases h
        | ok e =>
            rw [hparse] at h
            cases h
            rw [parse_formatWallStoryEndpoint hparse]
            exact .inr ⟨dest, hplaced dest hdest, rfl⟩
      · cases h

theorem edgeKey_comm (a b : String) : edgeKey a b = edgeKey b a := by
  unfold edgeKey
  rcases lt_trichotomy a b with h | rfl | h
  · rw [if_neg (lt_asymm h), if_pos h]
  · rfl
  · rw [if_pos h, if_neg (lt_asymm h)]

/-- Edges on the same unordered pair have the same key. -/
theorem WallEdge.key_eq_of_samePair {e f : WallEdge} (h : Graph.SamePair e.ends f.ends) : e.key = f.key := by
  unfold WallEdge.key
  rcases h with h | h
  · obtain ⟨hsource, htarget⟩ := Prod.mk.inj h
    rw [hsource, htarget]
  · obtain ⟨hsource, htarget⟩ := Prod.mk.inj h
    rw [hsource, htarget, edgeKey_comm]
    rfl

/-- The edges of an imported wall make a simple graph. -/
theorem isSimple_importEdges {draws : ProjectDraws} {resolveStory : ℤ → Option ℤ} {notes : List WallNote}
    {placed : List ℤ} {story : ℤ → Prop} (hplaced : ∀ dest ∈ placed, story dest)
    (l : List (WallEdge × ℕ)) :
    Graph.IsSimple WallEdge.ends (wallVertices notes story) (firsts WallEdge.key
      (l.filterMap (importedEdge draws (resolveImportEndpoint resolveStory (notes.map (·.id)) placed)))) := by
  have hvalid : ∀ e ∈ firsts WallEdge.key (l.filterMap
      (importedEdge draws (resolveImportEndpoint resolveStory (notes.map (·.id)) placed))),
      e.ends.1 ∈ wallVertices notes story ∧ e.ends.2 ∈ wallVertices notes story ∧ e.ends.1 ≠ e.ends.2 := by
    intro e he
    obtain ⟨ei, _, hei⟩ := List.mem_filterMap.mp ((firsts_sublist _ _).subset he)
    obtain ⟨source, target, source', target', hsource, htarget, hfrom, hto, hne⟩ := importedEdge_eq_some hei
    refine ⟨?_, ?_, hne⟩
    · rw [WallEdge.ends, hfrom]
      exact resolveImportEndpoint_mem hplaced hsource
    · rw [WallEdge.ends, hto]
      exact resolveImportEndpoint_mem hplaced htarget
  refine ⟨fun e he => ⟨(hvalid e he).1, (hvalid e he).2.1⟩, fun e he => (hvalid e he).2.2, ?_⟩
  have hkeys := List.pairwise_map.mp (nodup_map_firsts WallEdge.key (l.filterMap
    (importedEdge draws (resolveImportEndpoint resolveStory (notes.map (·.id)) placed))))
  exact hkeys.imp fun hne hsame => hne (WallEdge.key_eq_of_samePair hsame)

end Edges

/-! ## The wall after an import -/

section Wall

variable {ctx : Ctx} {draws : ProjectDraws} {db db' : DB} {projectID : ℤ} {payload : WallExport}
  {resolveStory : ℤ → Option ℤ} {warnings warnings' : List String}

theorem upsertWall_step {w : WallRow} (h : upsertWall db w (fun _ => w) = .ok db') :
    w ∈ db'.walls ∧ (∀ v ∈ db'.walls, v.projectID = w.projectID → v = w) ∧
      db'.placements = db.placements ∧ db'.todos = db.todos := by
  unfold upsertWall at h
  split at h
  · rename_i hany
    rw [pure_eq_ok] at h
    subst h
    refine ⟨?_, fun v hv hproject => ?_, rfl, rfl⟩
    · obtain ⟨v, hv, heq⟩ := List.any_eq_true.mp hany
      exact mem_updateWhere.mpr ⟨v, hv, by rw [if_pos heq]⟩
    · obtain ⟨v₀, _, rfl⟩ := mem_updateWhere.mp hv
      split
      · rfl
      · rename_i hne
        rw [if_neg hne] at hproject
        exact absurd (by simpa using hproject) hne
  · rename_i hnone
    simp only [bind_eq_ok, reject_eq_ok, pure_eq_ok] at h
    obtain ⟨_, _, rfl⟩ := h
    refine ⟨List.mem_append_right _ (List.mem_singleton_self _), fun v hv hproject => ?_, rfl, rfl⟩
    rcases List.mem_append.mp hv with hv | hv
    · exact absurd (List.any_eq_true.mpr ⟨v, hv, by simpa using hproject⟩) hnone
    · exact List.mem_singleton.mp hv

/-- The edges of the backup, in stored form and in their order, whose ends are two different
notes or stories of the wall. -/
def validEdges (draws : ProjectDraws) (payload : WallExport) (resolveStory : ℤ → Option ℤ)
    (notes : List WallNote) (placed : List ℤ) : List WallEdge :=
  payload.edges.zipIdx.filterMap
    (importedEdge draws (resolveImportEndpoint resolveStory (notes.map (·.id)) placed))

/-- What an import writes: the wall, next to the stories that it has placed. -/
theorem upsertWallForImport_step
    (h : upsertWallForImport ctx draws db projectID (some payload) resolveStory warnings =
      .ok (db', warnings')) :
    ∃ stories w, importStories db projectID payload resolveStory warnings = .ok stories ∧
      w ∈ db'.walls ∧ w.projectID = projectID ∧ (∀ v ∈ db'.walls, v.projectID = projectID → v = w) ∧
      db'.placements = stories.db.placements ∧ db'.todos = stories.db.todos ∧
      w.notes = importNotes draws payload.notes ∧
      w.edges = firsts WallEdge.key ((payload.edges.take maxWallEdges).zipIdx.filterMap
        (importedEdge draws (resolveImportEndpoint resolveStory (w.notes.map (·.id)) stories.placed))) := by
  simp only [upsertWallForImport, bind_eq_ok, pure_eq_ok, Prod.mk.injEq] at h
  obtain ⟨stories, hstories, db₁, hwall, rfl, _⟩ := h
  obtain ⟨hmem, hall, hplacements, htodos⟩ := upsertWall_step hwall
  exact ⟨stories, _, hstories, hmem, rfl, hall, hplacements, htodos, rfl, foldl_importEdge_kept _ _ _ _⟩

/-- A wall keeps the rules that the operations on walls enforce. -/
structure WallOK (db : DB) (projectID : ℤ) : Prop where
  doc : ∀ w ∈ db.walls, w.projectID = projectID →
    DocOK (· ∈ placedLocalIDs db projectID) (w.notes, w.edges)
  texts : ∀ w ∈ db.walls, w.projectID = projectID → ∀ n ∈ w.notes, byteLen n.text ≤ maxWallTextBytes
  stories : (db.placements.filter fun p => p.projectID == projectID).length ≤ maxWallStories

/-- An imported wall is well formed, except that a text that is cut within a character and
more stories than a wall may hold go over the limits. -/
theorem imported_wall_ok_iff
    (h : upsertWallForImport ctx draws db projectID (some payload) resolveStory warnings =
      .ok (db', warnings')) :
    WallOK db' projectID ↔ TextsFit draws payload.notes ∧ StoriesFit db projectID payload resolveStory := by
  obtain ⟨stories, w, hstories, hmem, hproject, hall, hplacements, htodos, hnotes, hedges⟩ :=
    upsertWallForImport_step h
  obtain ⟨hplaced, hcount⟩ := importStories_spec hstories
  rw [← importNotes_texts_iff, ← hcount, ← hplacements]
  constructor
  · intro hok
    rw [← hnotes]
    exact ⟨hok.texts w hmem hproject, hok.stories⟩
  · rintro ⟨htexts, hlimit⟩
    refine ⟨fun v hv hvp => ?_, fun v hv hvp => ?_, hlimit⟩
    · obtain rfl := hall v hv hvp
      have hplaced' : ∀ dest ∈ stories.placed, dest ∈ placedLocalIDs db' projectID := by
        intro dest hdest
        have hold := hplaced dest hdest
        unfold placedLocalIDs at hold ⊢
        rwa [hplacements, htodos]
      refine ⟨?_, ?_, ?_, ?_⟩
      · rw [hedges]
        exact isSimple_importEdges hplaced' _
      · rw [hnotes]
        exact nodup_importNotes draws payload.notes
      · rw [hnotes]
        exact length_importNotes_le draws payload.notes
      · rw [hedges]
        refine (firsts_sublist _ _).length_le.trans ((List.length_filterMap_le _ _).trans ?_)
        rw [List.length_zipIdx]
        exact List.length_take_le _ _
    · obtain rfl := hall v hv hvp
      rw [hnotes]
      exact htexts

/-- The draws of an import that needs none. -/
def noDraws : ProjectDraws := ⟨"", fun _ => 0, fun _ => 0⟩

/-- A note with an id and a text. -/
def plainNote (id text : String) : WallNote := ⟨id, 0, 0, 100, 100, "#FFFFFF", text, 1⟩

/-- A project without a wall. -/
def bareProject : DB where
  projects := [{ defaultProjectRow 0 with id := 1 }]

/-- Two notes and an edge between them. -/
def twoNotes : WallExport where
  notes := [plainNote "a" "A", plainNote "b" "B"]
  edges := [⟨"e", "a", "b"⟩]

theorem imported_wall_ok_two_notes :
    ∃ out, upsertWallForImport ⟨none, 0⟩ noDraws bareProject 1 (some twoNotes) (fun _ => none) [] = .ok out ∧
      WallOK out.1 1 := by
  obtain ⟨⟨db', warnings'⟩, h⟩ := exists_of_isOk (show (upsertWallForImport ⟨none, 0⟩ noDraws bareProject 1
    (some twoNotes) (fun _ => none) []).isOk = true by decide +kernel)
  refine ⟨(db', warnings'), h, (imported_wall_ok_iff h).mpr ⟨?_, ?_⟩⟩
  · intro l₁ ni l₂ hsplit _
    have hmem : ni ∈ (twoNotes.notes.take maxWallNotes).zipIdx := by simp [hsplit]
    have hall : ∀ ni ∈ (twoNotes.notes.take maxWallNotes).zipIdx, byteLen ni.1.text ≤ maxWallTextBytes := by
      decide +kernel
    exact .inl (hall ni hmem)
  · exact (by decide +kernel : ([] : List PlacementRow).length ≤ maxWallStories)

/-- A text whose last character takes three bytes. -/
def longText (k : ℕ) : String := String.ofList (List.replicate k 'a' ++ ['€'])

theorem byteLen_longText (k : ℕ) : byteLen (longText k) = k + 3 := by
  have ha : 'a'.utf8Size = 1 := by decide
  have heuro : '€'.utf8Size = 3 := by decide
  rw [longText, byteLen_ofList, List.map_append, List.map_replicate, ha, List.sum_append,
    List.sum_replicate_nat, mul_one, List.map_singleton, heuro, List.sum_singleton]

theorem byteLen_takeBytes_longText (k : ℕ) : byteLen (takeBytes (k + 1) (longText k)) = k := by
  have ha : 'a'.utf8Size = 1 := by decide
  have hlist : ∀ k, takeBytesList (k + 1) (List.replicate k 'a' ++ ['€']) = List.replicate k 'a' := by
    intro k
    induction k with
    | zero => decide
    | succ k ih =>
        rw [List.replicate_succ, List.cons_append, takeBytesList, ha, if_pos (by omega),
          Nat.add_sub_cancel, ih]
  unfold takeBytes longText
  rw [String.toList_ofList, hlist, byteLen_ofList, List.map_replicate, ha, List.sum_replicate_nat, mul_one]

/-- The limit falls into the last character of such a text with 4002 bytes. -/
theorem not_cutFits_longText : ¬ CutFits (longText 3999) := by
  have hlen := byteLen_longText 3999
  have hcut := byteLen_takeBytes_longText 3999
  rintro (hfits | hfits)
  · rw [hlen, maxWallTextBytes] at hfits
    omega
  · have hmax : maxWallTextBytes = 3999 + 1 := by decide
    rw [hmax, hcut] at hfits
    omega

/-- Not every imported wall keeps the limits: such a text is stored with 4002 bytes. -/
theorem imported_text_too_long :
    ¬ ∀ (payload : WallExport) (resolveStory : ℤ → Option ℤ) (out : DB × List String),
      upsertWallForImport ⟨none, 0⟩ noDraws bareProject 1 (some payload) resolveStory [] = .ok out →
        WallOK out.1 1 := by
  intro h
  obtain ⟨⟨db', warnings'⟩, hout⟩ := exists_of_isOk (show (upsertWallForImport ⟨none, 0⟩ noDraws bareProject
    1 (some { notes := [plainNote "a" (longText 3999)] }) (fun _ => none) []).isOk = true by decide +kernel)
  have hok := h _ _ _ hout
  obtain ⟨_, w, _, hmem, hproject, _, _, _, hnotes, _⟩ := upsertWallForImport_step hout
  have hnote : ∃ n ∈ w.notes, n.text = cutText maxWallTextBytes (longText 3999) := by
    rw [hnotes, importNotes_eq]
    exact ⟨_, List.mem_map_of_mem (mem_firsts.mpr ⟨[], [], rfl, List.not_mem_nil⟩), rfl⟩
  obtain ⟨n, hn, htext⟩ := hnote
  have hlimit := hok.texts w hmem hproject n hn
  rw [htext] at hlimit
  exact not_cutFits_longText ((byteLen_cutText_le_iff _).mp hlimit)

/-- Every valid edge that does not repeat the pair of an earlier one is on the wall. -/
def KeepsValidEdges (draws : ProjectDraws) (payload : WallExport) (resolveStory : ℤ → Option ℤ)
    (placed : List ℤ) (w : WallRow) : Prop :=
  ∀ (l₁ : List WallEdge) e l₂, validEdges draws payload resolveStory w.notes placed = l₁ ++ e :: l₂ →
    (∀ f ∈ l₁, ¬ Graph.SamePair f.ends e.ends) → e ∈ w.edges

/-- An import within the limit keeps every valid edge exactly when no two of them on
different pairs have the same key. -/
theorem imported_edges_kept_iff (hlimit : payload.edges.length ≤ maxWallEdges)
    (h : upsertWallForImport ctx draws db projectID (some payload) resolveStory warnings =
      .ok (db', warnings')) {stories : StoryScan}
    (hstories : importStories db projectID payload resolveStory warnings = .ok stories) {w : WallRow}
    (hw : w ∈ db'.walls) (hproject : w.projectID = projectID) :
    KeepsValidEdges draws payload resolveStory stories.placed w ↔
      ∀ e ∈ validEdges draws payload resolveStory w.notes stories.placed,
        ∀ f ∈ validEdges draws payload resolveStory w.notes stories.placed,
          e.key = f.key → Graph.SamePair e.ends f.ends := by
  obtain ⟨stories', w', hstories', _, _, hall, _, _, _, hedges⟩ := upsertWallForImport_step h
  obtain rfl := Except.ok.inj (hstories.symm.trans hstories')
  obtain rfl := hall w hw hproject
  rw [List.take_of_length_le hlimit] at hedges
  unfold KeepsValidEdges
  rw [hedges]
  have hpairs : Equivalence fun e f : WallEdge => Graph.SamePair e.ends f.ends :=
    ⟨fun _ => Graph.samePair_equivalence.refl _, fun h => Graph.samePair_equivalence.symm h,
      fun h h' => Graph.samePair_equivalence.trans h h'⟩
  exact firsts_keep_classes_iff hpairs (fun _ _ => WallEdge.key_eq_of_samePair) _

theorem imported_edges_kept_two_notes :
    ∃ out stories, upsertWallForImport ⟨none, 0⟩ noDraws bareProject 1 (some twoNotes) (fun _ => none) [] =
        .ok out ∧
      importStories bareProject 1 twoNotes (fun _ => none) [] = .ok stories ∧
      ∃ w ∈ out.1.walls, KeepsValidEdges noDraws twoNotes (fun _ => none) stories.placed w := by
  obtain ⟨⟨db', warnings'⟩, h⟩ := exists_of_isOk (show (upsertWallForImport ⟨none, 0⟩ noDraws bareProject 1
    (some twoNotes) (fun _ => none) []).isOk = true by decide +kernel)
  obtain ⟨stories, w, hstories, hmem, hproject, _⟩ := upsertWallForImport_step h
  refine ⟨_, stories, h, hstories, w, hmem,
    (imported_edges_kept_iff (by decide +kernel) h hstories hmem hproject).mpr ?_⟩
  -- there is one edge only
  have hone : ∀ placed, (validEdges noDraws twoNotes (fun _ => none) w.notes placed).length ≤ 1 :=
    fun placed => (List.length_filterMap_le _ _).trans (by decide +kernel)
  intro e he f hf _
  have hle := hone stories.placed
  generalize validEdges noDraws twoNotes (fun _ => none) w.notes stories.placed = l at he hf hle
  match l, hle with
  | [x], _ =>
      rw [List.mem_singleton.mp he, List.mem_singleton.mp hf]
      exact .inl rfl

/-- Two edges whose ends differ, but not when they are written one after the other. -/
def barNotes : WallExport where
  notes := [plainNote "a|b" "", plainNote "c" "", plainNote "a" "", plainNote "b|c" ""]
  edges := [⟨"e", "a|b", "c"⟩, ⟨"f", "a", "b|c"⟩]

/-- Not every valid edge is kept: the second of these is lost. -/
theorem imported_edge_lost :
    ¬ ∀ (payload : WallExport) (resolveStory : ℤ → Option ℤ) (out : DB × List String),
      payload.notes.length ≤ maxWallNotes → payload.edges.length ≤ maxWallEdges →
      (payload.notes.map (·.id)).Nodup → (payload.edges.map (·.id)).Nodup →
      upsertWallForImport ⟨none, 0⟩ noDraws bareProject 1 (some payload) resolveStory [] = .ok out →
      ∀ stories, importStories bareProject 1 payload resolveStory [] = .ok stories →
      ∀ w ∈ out.1.walls, KeepsValidEdges noDraws payload resolveStory stories.placed w := by
  intro h
  have hout : ∃ w, upsertWallForImport ⟨none, 0⟩ noDraws bareProject 1 (some barNotes) (fun _ => none) [] =
      .ok ({ bareProject with walls := [w] }, []) ∧ w.notes.map (·.id) = ["a|b", "c", "a", "b|c"] ∧
        w.edges = [⟨"e", "a|b", "c"⟩] := by
    refine ⟨⟨1, barNotes.notes, [⟨"e", "a|b", "c"⟩], 1, 0⟩, ?_, by decide +kernel, rfl⟩
    decide +kernel
  obtain ⟨w, hout, hids, hedges⟩ := hout
  have hkeeps := h barNotes (fun _ => none) _ (by decide +kernel) (by decide +kernel) (by decide +kernel)
    (by decide +kernel) hout { db := bareProject, warnings := [] } rfl w (List.mem_singleton_self _)
  have hvalid : validEdges noDraws barNotes (fun _ => none) w.notes [] =
      [⟨"e", "a|b", "c"⟩, ⟨"f", "a", "b|c"⟩] := by
    unfold validEdges
    rw [hids]
    decide +kernel
  have hkept := hkeeps [⟨"e", "a|b", "c"⟩] ⟨"f", "a", "b|c"⟩ [] hvalid (by decide +kernel)
  rw [hedges] at hkept
  revert hkept
  decide

end Wall

end Scrumboy
