import Scrumboy.Store.Placement
import Scrumboy.Store.Requests

/-!
# The graph of a wall

The notes and the placed stories of a wall are the vertices of a graph whose
edges the wall document lists. The graph is kept in two places, the document and
the table of placements, and this module shows that the requests keep the two
together: in every state that requests reach, every edge joins two different
vertices that are there, and no two edges join the same pair.
-/

set_option linter.dupNamespace false

namespace Scrumboy

open Go Sql

def WallEdge.ends (e : WallEdge) : String × String := (e.fromRef, e.toRef)

/-- The texts that name a note, or a story among those that `story` selects. -/
def wallVertices (notes : List WallNote) (story : ℤ → Prop) : Set String :=
  {v | (∃ n ∈ notes, n.id = v) ∨ ∃ localID, story localID ∧ formatWallStoryEndpoint localID = v}

/-- A wall as a client sees it is a simple graph within its limits. -/
structure Wall.WellFormed (wall : Wall) : Prop where
  graph : Graph.IsSimple WallEdge.ends
    (wallVertices wall.notes fun localID => ∃ s ∈ wall.stories, s.todoLocalID = localID) wall.edges
  noteIDs : (wall.notes.map (·.id)).Nodup
  notes_le : wall.notes.length ≤ maxWallNotes
  edges_le : wall.edges.length ≤ maxWallEdges

/-- The story with a local id is placed on the wall of a project. -/
def DB.OnWall (db : DB) (projectID localID : ℤ) : Prop :=
  ∃ p ∈ db.placements, ∃ t ∈ db.todos,
    p.projectID = projectID ∧ t.id = p.todoID ∧ t.projectID = projectID ∧ t.localID = localID

theorem DB.onWall_iff {db : DB} {projectID localID : ℤ} :
    db.OnWall projectID localID ↔
      ∃ s ∈ listWallStoryPlacements db projectID, s.todoLocalID = localID := by
  unfold DB.OnWall listWallStoryPlacements
  constructor
  · rintro ⟨p, hp, t, ht, rfl, hid, htp, rfl⟩
    refine ⟨⟨p.todoID, t.localID, p.x, p.y, p.version⟩, ?_, rfl⟩
    rw [List.mem_flatMap]
    exact ⟨p, by simpa using hp, List.mem_map.mpr ⟨t, by simp [ht, hid, htp], rfl⟩⟩
  · rintro ⟨s, hs, rfl⟩
    obtain ⟨p, hp, hs⟩ := List.mem_flatMap.mp hs
    obtain ⟨t, ht, rfl⟩ := List.mem_map.mp hs
    simp only [mem_orderBy, List.mem_filter, beq_iff_eq, Bool.and_eq_true] at hp ht
    exact ⟨p, hp.1, t, ht.1, hp.2, ht.2.1, ht.2.2.trans hp.2, rfl⟩

/-! ## Documents -/

/-- A document of notes and edges, next to the stories on the wall. -/
structure DocOK (story : ℤ → Prop) (doc : List WallNote × List WallEdge) : Prop where
  graph : Graph.IsSimple WallEdge.ends (wallVertices doc.1 story) doc.2
  noteIDs : (doc.1.map (·.id)).Nodup
  notes_le : doc.1.length ≤ maxWallNotes
  edges_le : doc.2.length ≤ maxWallEdges

section

variable {story story' : ℤ → Prop} {notes notes' : List WallNote} {edges : List WallEdge}

theorem DocOK.empty (story : ℤ → Prop) : DocOK story ([], []) :=
  ⟨.nil, .nil, Nat.zero_le _, Nat.zero_le _⟩

theorem DocOK.mono {doc : List WallNote × List WallEdge} (h : DocOK story doc)
    (hstory : ∀ localID, story localID → story' localID) : DocOK story' doc where
  graph := h.graph.mono fun _ _ hfst hsnd =>
    ⟨hfst.imp_right fun ⟨l, hl, heq⟩ => ⟨l, hstory l hl, heq⟩,
     hsnd.imp_right fun ⟨l, hl, heq⟩ => ⟨l, hstory l hl, heq⟩⟩
  noteIDs := h.noteIDs
  notes_le := h.notes_le
  edges_le := h.edges_le

theorem DocOK.add_note (h : DocOK story (notes, edges)) {n : WallNote}
    (hlen : notes.length < maxWallNotes) (hid : n.id ∉ notes.map (·.id)) :
    DocOK story (notes ++ [n], edges) where
  graph := h.graph.mono fun _ _ hfst hsnd =>
    ⟨hfst.imp_left fun ⟨m, hm, heq⟩ => ⟨m, List.mem_append_left _ hm, heq⟩,
     hsnd.imp_left fun ⟨m, hm, heq⟩ => ⟨m, List.mem_append_left _ hm, heq⟩⟩
  noteIDs := by
    rw [List.map_append, List.nodup_append]
    refine ⟨h.noteIDs, List.nodup_singleton _, fun x hx y hy => ?_⟩
    rw [List.map_singleton, List.mem_singleton] at hy
    rintro rfl
    exact hid (hy ▸ hx)
  notes_le := by simpa [Nat.succ_le_iff] using hlen
  edges_le := h.edges_le

/-- Notes may change in everything but their ids. -/
theorem DocOK.set_notes (h : DocOK story (notes, edges))
    (hids : notes'.map (·.id) = notes.map (·.id)) : DocOK story (notes', edges) where
  graph := by
    have hset : wallVertices notes' story = wallVertices notes story := by
      have hmem : ∀ v, (∃ n ∈ notes', n.id = v) ↔ ∃ n ∈ notes, n.id = v := by
        intro v
        rw [← List.mem_map, ← List.mem_map, hids]
      unfold wallVertices
      simp only [hmem]
    exact hset ▸ h.graph
  noteIDs := hids ▸ h.noteIDs
  notes_le := by
    have hlen := congrArg List.length hids
    simp only [List.length_map] at hlen
    exact hlen ▸ h.notes_le
  edges_le := h.edges_le

/-- The edges that survive the deletion of a vertex. -/
theorem WallEdge.ends_ne_of_not_touches {v : String} {e : WallEdge}
    (h : (!e.touches v) = true) : e.ends.1 ≠ v ∧ e.ends.2 ≠ v := by
  simpa [WallEdge.touches, WallEdge.ends] using h

theorem DocOK.delete_note (h : DocOK story (notes, edges)) (noteID : String) :
    DocOK story (notes.eraseP (·.id == noteID), edges.filter fun e => !e.touches noteID) where
  graph := by
    refine h.graph.delete_vertex (v := noteID) (fun _ => WallEdge.ends_ne_of_not_touches) ?_
    intro x hx hne
    refine hx.imp_left fun ⟨n, hn, heq⟩ => ⟨n, ?_, heq⟩
    exact (List.mem_eraseP_of_neg (by simpa [heq] using hne)).mpr hn
  noteIDs := h.noteIDs.sublist (List.eraseP_sublist.map _)
  notes_le := List.eraseP_sublist.length_le.trans h.notes_le
  edges_le := List.filter_sublist.length_le.trans h.edges_le

theorem DocOK.add_edge (h : DocOK story (notes, edges)) {e : WallEdge}
    (hlen : edges.length < maxWallEdges) (hfst : e.fromRef ∈ wallVertices notes story)
    (hsnd : e.toRef ∈ wallVertices notes story) (hloop : e.fromRef ≠ e.toRef)
    (hnew : ∀ f ∈ edges, ¬ Graph.SamePair f.ends e.ends) : DocOK story (notes, edges ++ [e]) where
  graph := h.graph.concat hfst hsnd hloop hnew
  noteIDs := h.noteIDs
  notes_le := h.notes_le
  edges_le := by simpa [Nat.succ_le_iff] using hlen

theorem DocOK.delete_edges (h : DocOK story (notes, edges)) {edges' : List WallEdge}
    (hsub : edges'.Sublist edges) : DocOK story (notes, edges') where
  graph := h.graph.sublist hsub
  noteIDs := h.noteIDs
  notes_le := h.notes_le
  edges_le := hsub.length_le.trans h.edges_le

/-- A story that leaves the wall takes its edges along. -/
theorem DocOK.delete_story (h : DocOK story (notes, edges)) {localID : ℤ}
    (hstory : ∀ m, story m → m ≠ localID → story' m) :
    DocOK story' (notes, edges.filter fun e => !e.touches (formatWallStoryEndpoint localID)) where
  graph := by
    refine h.graph.delete_vertex (v := formatWallStoryEndpoint localID)
      (fun _ => WallEdge.ends_ne_of_not_touches) ?_
    intro x hx hne
    refine hx.imp_right fun ⟨m, hm, heq⟩ => ⟨m, hstory m hm ?_, heq⟩
    rintro rfl
    exact hne heq.symm
  noteIDs := h.noteIDs
  notes_le := h.notes_le
  edges_le := List.filter_sublist.length_le.trans h.edges_le

end

/-! ## The invariant -/

theorem newNoteID_inj {d d' : UInt64} (h : newNoteID d = newNoteID d') : d = d' := by
  have hchars : hexPadded 16 d.toNat = hexPadded 16 d'.toNat := by
    have := congrArg String.toList h
    simpa [newNoteID, randomHex] using this
  have hlt : ∀ d : UInt64, d.toNat < 16 ^ 16 := fun d => by
    have := d.toNat_lt
    omega
  exact UInt64.toNat_inj.mp (hexPadded_inj (hlt d) (hlt d') hchars)

/-- The state of the walls after the random numbers `used` were drawn for notes. -/
structure WallInv (used : List UInt64) (db : DB) : Prop where
  todoIDs : (db.todos.map (·.id)).Nodup
  docs : ∀ projectID, DocOK (db.OnWall projectID) (db.wallDoc projectID)
  drawn : ∀ projectID, ∀ n ∈ (db.wallDoc projectID).1, ∃ d ∈ used, n.id = newNoteID d

theorem WallInv.initial {db : DB} (hids : (db.todos.map (·.id)).Nodup) (hwalls : db.walls = []) :
    WallInv [] db where
  todoIDs := hids
  docs projectID := by
    rw [DB.wallDoc, hwalls]
    exact .empty _
  drawn projectID n hn := by
    rw [DB.wallDoc, hwalls] at hn
    cases hn

section

variable {used used' : List UInt64} {db db' : DB} {projectID : ℤ} {ctx : Ctx}

theorem WallInv.used_mono (h : WallInv used db) (hused : used ⊆ used') : WallInv used' db where
  todoIDs := h.todoIDs
  docs := h.docs
  drawn projectID n hn := by
    obtain ⟨d, hd, heq⟩ := h.drawn projectID n hn
    exact ⟨d, hused hd, heq⟩

/-- A change elsewhere, which may add todos but keeps the identity of the others. -/
theorem WallInv.frame (h : WallInv used db) (hids : (db'.todos.map (·.id)).Nodup)
    (hwalls : db'.walls = db.walls) (hplacements : db'.placements = db.placements)
    (htodos : ∀ t ∈ db.todos, ∃ t' ∈ db'.todos,
      t'.id = t.id ∧ t'.projectID = t.projectID ∧ t'.localID = t.localID) : WallInv used db' where
  todoIDs := hids
  docs projectID := by
    rw [DB.wallDoc, hwalls]
    refine (h.docs projectID).mono ?_
    rintro localID ⟨p, hp, t, ht, hpp, hid, htp, hl⟩
    obtain ⟨t', ht', hid', hpid', hlid'⟩ := htodos t ht
    exact ⟨p, hplacements ▸ hp, t', ht', hpp, hid'.trans hid, hpid'.trans htp, hlid'.trans hl⟩
  drawn projectID n hn := by
    rw [DB.wallDoc, hwalls] at hn
    exact h.drawn projectID n hn

/-- Writing back the document of a wall. -/
theorem WallInv.write (h : WallInv used db) {wall : Wall}
    (hwrite : writeWallLocked ctx db projectID wall = .ok db') (hused : used ⊆ used')
    (hdoc : DocOK (db.OnWall projectID) (wall.notes, wall.edges))
    (hdrawn : ∀ n ∈ wall.notes, ∃ d ∈ used', n.id = newNoteID d) : WallInv used' db' := by
  obtain ⟨htables, hdocs⟩ := writeWallLocked_spec hwrite
  rw [htables]
  refine ⟨h.todoIDs, fun other => ?_, fun other n hn => ?_⟩
  · rw [← htables, hdocs]
    have honwall : db'.OnWall = db.OnWall := by rw [htables]; rfl
    rw [honwall]
    split
    · rename_i hother
      exact hother ▸ hdoc
    · exact h.docs other
  · rw [← htables, hdocs] at hn
    split at hn
    · exact hdrawn n hn
    · obtain ⟨d, hd, heq⟩ := h.drawn other n hn
      exact ⟨d, hused hd, heq⟩

/-- The document that `getWall` reads is the one that the invariant is about. -/
theorem WallInv.getWall_doc (h : WallInv used db) (projectID : ℤ) :
    DocOK (db.OnWall projectID) ((getWall db projectID).notes, (getWall db projectID).edges) := by
  rw [getWall_notes, getWall_edges]
  exact h.docs projectID

theorem WallInv.getWall_drawn (h : WallInv used db) (projectID : ℤ) :
    ∀ n ∈ (getWall db projectID).notes, ∃ d ∈ used, n.id = newNoteID d := by
  rw [getWall_notes]
  exact h.drawn projectID

theorem WallInv.createNote (h : WallInv used db) {draw : UInt64} (hdraw : draw ∉ used)
    {input : CreateNoteInput} {out : DB × WallNote × Wall}
    (hok : Scrumboy.createNote ctx db projectID draw input = .ok out) :
    WallInv (used ++ [draw]) out.1 := by
  simp only [Scrumboy.createNote, bind_eq_ok, reject_eq_ok, pure_eq_ok] at hok
  obtain ⟨_, _, _, _, _, hlen, db', hwrite, rfl⟩ := hok
  refine h.write hwrite (List.subset_append_left _ _) ?_ ?_
  · refine (h.getWall_doc projectID).add_note (not_le.mp hlen) fun hmem => ?_
    obtain ⟨n, hn, heq⟩ := List.mem_map.mp hmem
    obtain ⟨d, hd, hid⟩ := h.getWall_drawn projectID n hn
    exact hdraw (newNoteID_inj (heq.symm.trans hid) ▸ hd)
  · intro n hn
    rcases List.mem_append.mp hn with hn | hn
    · obtain ⟨d, hd, hid⟩ := h.getWall_drawn projectID n hn
      exact ⟨d, List.mem_append_left _ hd, hid⟩
    · rw [List.mem_singleton.mp hn]
      exact ⟨draw, by simp, rfl⟩

/-- Setting the note that a search found, in place and under its id. -/
theorem map_id_set_find {notes : List WallNote} {noteID : String} {note note' : WallNote}
    (hfind : notes.find? (·.id == noteID) = some note) (hid : note'.id = note.id) :
    (notes.set (notes.findIdx (·.id == noteID)) note').map (·.id) = notes.map (·.id) := by
  rw [List.find?_eq_getElem?_findIdx, List.getElem?_eq_some_iff] at hfind
  obtain ⟨hlt, rfl⟩ := hfind
  rw [List.map_set, hid]
  have hself := @List.set_getElem_self _ (notes.map (·.id)) (notes.findIdx (·.id == noteID))
    (by simpa using hlt)
  rwa [List.getElem_map] at hself

theorem WallInv.patchNote (h : WallInv used db) {noteID : String} {input : PatchNoteInput}
    {out : DB × WallNote × Wall} (hok : Scrumboy.patchNote ctx db projectID noteID input = .ok out) :
    WallInv used out.1 := by
  simp only [Scrumboy.patchNote, bind_eq_ok] at hok
  obtain ⟨_, _, _, _, hok⟩ := hok
  split at hok
  · rename_i note hfind
    simp only [bind_eq_ok, pure_eq_ok] at hok
    obtain ⟨_, _, db', hwrite, rfl⟩ := hok
    have hids := @map_id_set_find _ _ _ (input.apply note) hfind rfl
    refine h.write hwrite (List.Subset.refl _) ((h.getWall_doc projectID).set_notes hids) ?_
    intro n hn
    have hmem : n.id ∈ (getWall db projectID).notes.map (·.id) := hids ▸ List.mem_map_of_mem hn
    obtain ⟨m, hm, heq⟩ := List.mem_map.mp hmem
    exact heq ▸ h.getWall_drawn projectID m hm
  · cases hok

theorem WallInv.deleteNote (h : WallInv used db) {noteID : String} {out : DB × Wall}
    (hok : Scrumboy.deleteNote ctx db projectID noteID = .ok out) : WallInv used out.1 := by
  simp only [Scrumboy.deleteNote, bind_eq_ok, pure_eq_ok] at hok
  obtain ⟨_, _, db', hwrite, rfl⟩ := hok
  exact h.write hwrite (List.Subset.refl _) ((h.getWall_doc projectID).delete_note noteID)
    fun n hn => h.getWall_drawn projectID n (List.eraseP_sublist.subset hn)

/-- An endpoint that resolves on a wall names one of its vertices. -/
theorem canonical_mem_wallVertices {endpoint : WallEdgeEndpoint}
    (h : resolveWallEdgeEndpoint (getWall db projectID) endpoint = true) :
    endpoint.canonical ∈ wallVertices (getWall db projectID).notes (db.OnWall projectID) := by
  cases endpoint with
  | note id =>
      obtain ⟨n, hn, heq⟩ := List.any_eq_true.mp h
      exact .inl ⟨n, hn, beq_iff_eq.mp heq⟩
  | story localID =>
      obtain ⟨s, hs, heq⟩ := List.any_eq_true.mp h
      refine .inr ⟨localID, DB.onWall_iff.mpr ⟨s, ?_, by simpa using heq⟩, rfl⟩
      unfold getWall at hs
      split at hs
      · cases hs
      · exact hs

theorem WallInv.createEdge (h : WallInv used db) {draw : UInt64} {fromEndpoint toEndpoint : String}
    {out : DB × WallEdge × Wall}
    (hok : Scrumboy.createEdge ctx db projectID draw fromEndpoint toEndpoint = .ok out) :
    WallInv used out.1 := by
  simp only [Scrumboy.createEdge, bind_eq_ok, reject_eq_ok, not_or, Bool.not_eq_false] at hok
  obtain ⟨_, _, source, _, target, _, _, hloop, _, ⟨hsource, htarget⟩, hok⟩ := hok
  split at hok
  · rw [pure_eq_ok] at hok
    subst hok
    exact h
  · rename_i hnone
    simp only [bind_eq_ok, reject_eq_ok, pure_eq_ok] at hok
    obtain ⟨_, hlen, db', hwrite, rfl⟩ := hok
    refine h.write hwrite (List.Subset.refl _) ?_ (h.getWall_drawn projectID)
    refine (h.getWall_doc projectID).add_edge (not_le.mp hlen) (canonical_mem_wallVertices hsource)
      (canonical_mem_wallVertices htarget) hloop ?_
    intro f hf hsame
    have hf := List.find?_eq_none.mp hnone f hf
    rcases hsame with heq | heq
    · obtain ⟨hfrom, hto⟩ := Prod.mk.inj heq
      simp [hfrom, hto] at hf
    · obtain ⟨hfrom, hto⟩ := Prod.mk.inj heq
      simp [hfrom, hto, WallEdge.ends] at hf

theorem WallInv.deleteEdge (h : WallInv used db) {edgeID : String} {out : DB × Wall}
    (hok : Scrumboy.deleteEdge ctx db projectID edgeID = .ok out) : WallInv used out.1 := by
  simp only [Scrumboy.deleteEdge, bind_eq_ok, pure_eq_ok] at hok
  obtain ⟨_, _, db', hwrite, rfl⟩ := hok
  exact h.write hwrite (List.Subset.refl _)
    ((h.getWall_doc projectID).delete_edges List.eraseP_sublist) (h.getWall_drawn projectID)

/-- Bumping the version of a wall keeps the documents, so placements may grow before it. -/
theorem WallInv.bump (h : WallInv used db) {db₁ : DB} {placements : List PlacementRow}
    (hdb₁ : db₁ = { db with placements := placements })
    (hstory : ∀ projectID localID, db.OnWall projectID localID → db₁.OnWall projectID localID)
    (hbump : bumpWallVersion ctx db₁ projectID = .ok db') : WallInv used db' := by
  obtain ⟨htables, hdocs⟩ := bumpWallVersion_spec hbump
  have hdoc : ∀ other, db'.wallDoc other = db.wallDoc other := by
    intro other
    rw [hdocs, hdb₁]
    rfl
  have honwall : db'.OnWall = db₁.OnWall := by rw [htables]; rfl
  refine ⟨?_, fun other => ?_, fun other n hn => ?_⟩
  · rw [htables, hdb₁]
    exact h.todoIDs
  · rw [hdoc, honwall]
    exact (h.docs other).mono (hstory other)
  · rw [hdoc] at hn
    exact h.drawn other n hn

theorem WallInv.pinWallStory (h : WallInv used db) {localID : ℤ} {x y : ℚ}
    {out : DB × WallStoryPlacement × Bool}
    (hok : Scrumboy.pinWallStory ctx db projectID localID x y = .ok out) : WallInv used out.1 := by
  simp only [Scrumboy.pinWallStory, bind_eq_ok] at hok
  obtain ⟨_, _, hok⟩ := hok
  split at hok
  · split at hok
    · rw [pure_eq_ok] at hok
      subst hok
      exact h
    · simp only [bind_eq_ok, pure_eq_ok] at hok
      obtain ⟨_, _, _, _, db', hbump, rfl⟩ := hok
      refine h.bump rfl ?_ hbump
      rintro projectID localID ⟨p, hp, rest⟩
      exact ⟨p, List.mem_append_left _ hp, rest⟩
  · cases hok

theorem WallInv.patchWallStory (h : WallInv used db) {localID ifVersion : ℤ} {x y : ℚ}
    {out : DB × WallStoryPlacement}
    (hok : Scrumboy.patchWallStory ctx db projectID localID ifVersion x y = .ok out) :
    WallInv used out.1 := by
  simp only [Scrumboy.patchWallStory] at hok
  split at hok
  · simp only [bind_eq_ok, pure_eq_ok] at hok
    obtain ⟨_, _, db', hbump, rfl⟩ := hok
    refine h.bump rfl ?_ hbump
    rintro projectID localID ⟨p, hp, t, ht, hpp, hid, rest⟩
    refine ⟨_, mem_updateWhere.mpr ⟨p, hp, rfl⟩, t, ht, ?_, ?_, rest⟩
    · split <;> exact hpp
    · split <;> exact hid
  · cases hok

/-- A story leaves the wall of a project: its placement goes, and its edges with it. -/
theorem WallInv.drop_story (h : WallInv used db) {t : TodoRow}
    (hids : (db'.todos.map (·.id)).Nodup)
    (hdocs : ∀ other, db'.wallDoc other = if other = t.projectID then
        ((db.wallDoc other).1, (db.wallDoc other).2.filter fun e =>
          !e.touches (formatWallStoryEndpoint t.localID))
      else db.wallDoc other)
    (hstory : ∀ projectID localID, db.OnWall projectID localID →
      ¬ (projectID = t.projectID ∧ localID = t.localID) → db'.OnWall projectID localID) :
    WallInv used db' where
  todoIDs := hids
  docs other := by
    rw [hdocs]
    split
    · rename_i hother
      exact (h.docs other).delete_story fun m hm hne => hstory other m hm fun heq => hne heq.2
    · rename_i hother
      exact (h.docs other).mono fun m hm => hstory other m hm fun heq => hother heq.1
  drawn other n hn := by
    rw [hdocs] at hn
    split at hn <;> exact h.drawn other n hn

theorem WallInv.unpinWallStory (h : WallInv used db) {localID : ℤ}
    (hok : Scrumboy.unpinWallStory ctx db projectID localID = .ok db') : WallInv used db' := by
  simp only [Scrumboy.unpinWallStory] at hok
  split at hok
  · rename_i t hfind
    simp only [bind_eq_ok] at hok
    obtain ⟨_, _, hbump⟩ := hok
    have ht := List.mem_of_find?_eq_some hfind
    have hsel := List.find?_some hfind
    simp only [Bool.and_eq_true, beq_iff_eq] at hsel
    obtain ⟨rfl, rfl⟩ := hsel
    obtain ⟨walls, hremove, hdoc⟩ := removeWallStoryEdges_spec { db with
      placements := deleteWhere (fun p => p.projectID == t.projectID && p.todoID == t.id)
        db.placements } t.projectID (formatWallStoryEndpoint t.localID)
    rw [hremove] at hbump
    obtain ⟨htables, hdocs⟩ := bumpWallVersion_spec hbump
    refine h.drop_story (t := t) ?_ (fun other => (hdocs other).trans (hdoc other)) ?_
    · rw [htables]
      exact h.todoIDs
    · rintro other m ⟨p, hp, u, hu, hpp, hid, hup, hul⟩ hne
      rw [htables]
      refine ⟨p, ?_, u, hu, hpp, hid, hup, hul⟩
      rw [mem_deleteWhere]
      refine ⟨hp, Bool.eq_false_iff.mpr fun hdel => ?_⟩
      simp only [Bool.and_eq_true, beq_iff_eq] at hdel
      -- The placement is of the story itself, since ids are distinct.
      obtain rfl := List.inj_on_of_nodup_map h.todoIDs hu ht (hid.trans hdel.2)
      exact hne ⟨hup.symm, hul.symm⟩
  · cases hok

theorem WallInv.deleteTodo (h : WallInv used db) {todoID : ℤ}
    (hok : Scrumboy.deleteTodo ctx db todoID = .ok db') : WallInv used db' := by
  obtain ⟨t, ht, rfl, ⟨projects, links, walls, rfl, _⟩, hdocs⟩ := deleteTodo_spec hok
  refine h.drop_story ?_ hdocs ?_
  · exact h.todoIDs.sublist (List.Sublist.map _ List.filter_sublist)
  · rintro other m ⟨p, hp, u, hu, hpp, hid, hup, hul⟩ hne
    have hut : u.id ≠ t.id := by
      intro heq
      obtain rfl := List.inj_on_of_nodup_map h.todoIDs hu ht heq
      exact hne ⟨hup.symm, hul.symm⟩
    exact ⟨p, mem_deleteWhere.mpr ⟨hp, by simpa [← hid] using hut⟩, u,
      mem_deleteWhere.mpr ⟨hu, by simpa using hut⟩, hpp, hid, hup, hul⟩

theorem WallInv.createTodo (h : WallInv used db) {rt : Runtime} {input : CreateTodoInput}
    {out : DB × Todo} (hok : Scrumboy.createTodo rt ctx db projectID input = .ok out) :
    WallInv used out.1 := by
  obtain ⟨db₁, rank, hrank, hrow, htodos, hside, _⟩ := createTodo_spec hok
  obtain ⟨r, rfl⟩ := computeNewRank_ranksOnly hrank
  refine h.frame ?_ (by rw [hside]) (by rw [hside]) fun t ht => ?_
  · have hmap : out.1.todos.map (·.id) = db.todos.map (·.id) ++ [nextRowid (db.todos.map (·.id))] := by
      simp [htodos, DB.withRanks, Function.comp_def, hrow.id_eq]
    rw [hmap]
    exact nodup_concat_nextRowid h.todoIDs
  · exact ⟨{ t with rank := r t }, by
      rw [htodos]
      exact List.mem_append_left _ (List.mem_map_of_mem ht), rfl, rfl, rfl⟩

theorem WallInv.moveTodo (h : WallInv used db) {todoID : ℤ} {toColumnKey : String}
    {afterID beforeID : Option ℤ} {out : DB × TodoRow}
    (hok : Scrumboy.moveTodo ctx db todoID toColumnKey afterID beforeID = .ok out) :
    WallInv used out.1 := by
  obtain ⟨existing, db₁, rank, doneAt, _, _, _, hrank, _, htodos, hside, _⟩ := moveTodo_spec hok
  obtain ⟨r, rfl⟩ := computeNewRank_ranksOnly hrank
  refine h.frame ?_ (by rw [hside]) (by rw [hside]) fun t ht => ?_
  · have hmap : out.1.todos.map (·.id) = db.todos.map (·.id) := by
      rw [htodos, map_updateWhere]
      · simp [DB.withRanks, Function.comp_def]
      · intro t
        rfl
    rw [hmap]
    exact h.todoIDs
  · have hmem : { t with rank := r t } ∈ (db.withRanks r).todos := List.mem_map_of_mem ht
    by_cases hid : t.id = todoID
    · refine ⟨TodoRow.moved toColumnKey rank ctx.nowMs doneAt { t with rank := r t }, ?_, rfl, rfl, rfl⟩
      rw [htodos, mem_updateWhere]
      exact ⟨_, hmem, by simp [hid]⟩
    · refine ⟨{ t with rank := r t }, ?_, rfl, rfl, rfl⟩
      rw [htodos, mem_updateWhere]
      exact ⟨_, hmem, by simp [hid]⟩

theorem WallInv.archiveTodos (h : WallInv used db) {ids : List ℤ} {archive : Bool}
    {out : DB × TodoArchiveBatchResult}
    (hok : archiveTodosByLocalID ctx db projectID ids archive = .ok out) : WallInv used out.1 := by
  obtain ⟨hside, hmap, _⟩ := archiveTodosByLocalID_spec hok
  have hids : out.1.todos.map (·.id) = db.todos.map (·.id) := by
    have := congrArg (List.map TodoRow.id) hmap
    simpa [Function.comp_def] using this
  refine h.frame (hids ▸ h.todoIDs) (by rw [hside]) (by rw [hside]) fun t ht => ?_
  have hmem : { t with archivedAt := none } ∈ out.1.todos.map fun t => { t with archivedAt := none } :=
    hmap ▸ List.mem_map_of_mem ht
  obtain ⟨t', ht', heq⟩ := List.mem_map.mp hmem
  rw [TodoRow.mk.injEq] at heq
  obtain ⟨hid, hpid, hlid, _⟩ := heq
  exact ⟨t', ht', hid, hpid, hlid⟩

theorem WallInv.of_columns (h : WallInv used db) (hcols : ColumnsOnly db db') : WallInv used db' := by
  obtain ⟨columns, rfl⟩ := hcols.exists_eq
  exact h.frame h.todoIDs rfl rfl fun t ht => ⟨t, ht, rfl, rfl, rfl⟩

end

/-- The random number that a request draws for a note. -/
def Request.noteDraw : Request → Option UInt64
  | .createNote _ draw _ => some draw
  | _ => none

theorem WallInv.exec {used : List UInt64} {db db' : DB} {rt : Runtime} {ctx : Ctx} {r : Request}
    (h : WallInv used db) (hfresh : ∀ d ∈ r.noteDraw, d ∉ used) (hok : r.exec rt ctx db = .ok db') :
    WallInv (used ++ r.noteDraw.toList) db' := by
  have hnone : ∀ {db'}, WallInv used db' → WallInv (used ++ []) db' := fun h => by
    rwa [List.append_nil]
  cases r with
  | createProject name workflow =>
      obtain ⟨out, hout, rfl⟩ := map_eq_ok.mp hok
      obtain ⟨⟨_, _, _, _, heq⟩, _⟩ := createProjectWithWorkflow_spec hout
      apply hnone
      rw [heq]
      exact h.frame h.todoIDs rfl rfl fun t ht => ⟨t, ht, rfl, rfl, rfl⟩
  | addWorkflowColumn projectID name =>
      obtain ⟨out, hout, rfl⟩ := map_eq_ok.mp hok
      exact hnone (h.of_columns (addWorkflowColumn_spec hout).1)
  | deleteWorkflowColumn projectID key =>
      exact hnone (h.of_columns (deleteWorkflowColumn_columnsOnly hok))
  | createTodo projectID input =>
      obtain ⟨out, hout, rfl⟩ := map_eq_ok.mp hok
      exact hnone (h.createTodo hout)
  | moveTodo todoID toColumnKey afterID beforeID =>
      obtain ⟨out, hout, rfl⟩ := map_eq_ok.mp hok
      exact hnone (h.moveTodo hout)
  | deleteTodo todoID => exact hnone (h.deleteTodo hok)
  | archiveTodos projectID ids archive =>
      obtain ⟨out, hout, rfl⟩ := map_eq_ok.mp hok
      exact hnone (h.archiveTodos hout)
  | createNote projectID draw input =>
      obtain ⟨out, hout, rfl⟩ := map_eq_ok.mp hok
      exact h.createNote (hfresh draw rfl) hout
  | patchNote projectID noteID input =>
      obtain ⟨out, hout, rfl⟩ := map_eq_ok.mp hok
      exact hnone (h.patchNote hout)
  | deleteNote projectID noteID =>
      obtain ⟨out, hout, rfl⟩ := map_eq_ok.mp hok
      exact hnone (h.deleteNote hout)
  | createEdge projectID draw fromEndpoint toEndpoint =>
      obtain ⟨out, hout, rfl⟩ := map_eq_ok.mp hok
      exact hnone (h.createEdge hout)
  | deleteEdge projectID edgeID =>
      obtain ⟨out, hout, rfl⟩ := map_eq_ok.mp hok
      exact hnone (h.deleteEdge hout)
  | pinWallStory projectID localID x y =>
      obtain ⟨out, hout, rfl⟩ := map_eq_ok.mp hok
      exact hnone (h.pinWallStory hout)
  | patchWallStory projectID localID ifVersion x y =>
      obtain ⟨out, hout, rfl⟩ := map_eq_ok.mp hok
      exact hnone (h.patchWallStory hout)
  | unpinWallStory projectID localID => exact hnone (h.unpinWallStory hok)

/-- The random numbers that a list of requests draws for notes. -/
def noteDraws (rs : List (Ctx × Request)) : List UInt64 := rs.filterMap fun r => r.2.noteDraw

theorem WallInv.run {rt : Runtime} {db : DB} (h : WallInv [] db) (rs : List (Ctx × Request))
    (hdraws : (noteDraws rs).Nodup) :
    WallInv (noteDraws rs) (Transition.run (serve rt) db rs) := by
  refine Transition.run_history
    (P := fun past s => (noteDraws past).Nodup → WallInv (noteDraws past) s)
    (fun _ => h) ?_ rs hdraws
  intro past s r ih hdraws
  have hsplit : noteDraws (past ++ [r]) = noteDraws past ++ r.2.noteDraw.toList := by
    cases hr : r.2.noteDraw <;> simp [noteDraws, hr]
  rw [hsplit] at hdraws ⊢
  have ih := ih (List.nodup_append.mp hdraws).1
  refine serve_inv (ih.used_mono (List.subset_append_left _ _)) fun db' hok => ih.exec ?_ hok
  intro d hd hused
  exact (List.nodup_append.mp hdraws).2.2 d hused d (by simpa using hd) rfl

/-- From a database without walls, whatever requests follow, every wall is a simple
graph on its notes and its placed stories. -/
theorem wall_graph_reachable {rt : Runtime} {db : DB} (hids : (db.todos.map (·.id)).Nodup)
    (hwalls : db.walls = []) {rs : List (Ctx × Request)} (hdraws : (noteDraws rs).Nodup)
    (projectID : ℤ) : (getWall (Transition.run (serve rt) db rs) projectID).WellFormed := by
  have hinv : WallInv (noteDraws rs) (Transition.run (serve rt) db rs) :=
    (WallInv.initial hids hwalls).run rs hdraws
  have hdoc := hinv.getWall_doc projectID
  have hstories : ∀ db : DB, (getWall db projectID).edges = [] ∨
      (getWall db projectID).stories = listWallStoryPlacements db projectID := by
    intro db
    unfold getWall
    split
    · exact .inl rfl
    · exact .inr rfl
  refine ⟨?_, hdoc.noteIDs, hdoc.notes_le, hdoc.edges_le⟩
  rcases hstories (Transition.run (serve rt) db rs) with hnil | heq
  · rw [hnil]
    exact .nil
  · have honwall : (Transition.run (serve rt) db rs).OnWall projectID = fun localID =>
        ∃ s ∈ listWallStoryPlacements (Transition.run (serve rt) db rs) projectID,
          s.todoLocalID = localID := funext fun _ => propext DB.onWall_iff
    rw [heq, ← honwall]
    exact hdoc.graph

/-- Two notes, a story and three edges, of which the second note takes two along. -/
def wallSession : List (Ctx × Request) :=
  [.createNote 1 1 ⟨0, 0, 0, 0, "#FFFFFF", "a"⟩, .createNote 1 2 ⟨0, 0, 0, 0, "#FFFFFF", "b"⟩,
   .pinWallStory 1 1 5 5,
   .createEdge 1 3 "n_0000000000000001" "story:1",
   .createEdge 1 4 "n_0000000000000002" " story:+1 ",
   .createEdge 1 5 "n_0000000000000001" "n_0000000000000002",
   .deleteNote 1 "n_0000000000000002"].map fun r => (⟨none, 0⟩, r)

theorem wall_graph_reachable_session :
    (noteDraws wallSession).Nodup ∧
      (getWall (Transition.run (serve plainRuntime) crowdedBoard wallSession) 1).edges.map
        WallEdge.ends = [("n_0000000000000001", "story:1")] ∧
      (getWall (Transition.run (serve plainRuntime) crowdedBoard wallSession) 1).WellFormed :=
  ⟨by decide, by decide +kernel,
    wall_graph_reachable (by decide) rfl (by decide) 1⟩

end Scrumboy
