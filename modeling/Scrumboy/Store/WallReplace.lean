import Scrumboy.Store.WallGraph

/-!
# Replacing the notes of a wall

A replacement swaps the list of notes and leaves the edges and the placed stories as they
are. Whether the wall is still a graph depends on the ids that the new notes have.
-/

set_option linter.dupNamespace false

namespace Scrumboy

open Go Sql

/-- A note of a replacement as it is stored. One without an id gets a new one. -/
def replacementNote (draw : UInt64) (n : WallNote) : WallNote :=
  { n with
    x := clampNoteCoord n.x
    y := clampNoteCoord n.y
    width := clampNoteDim n.width defaultNoteWidth
    height := clampNoteDim n.height defaultNoteHeight
    id := if n.id = "" then newNoteID draw else n.id
    version := if n.version = 0 then 1 else n.version }

def checkReplacementNote (n : WallNote) : Result Unit := do
  validateWallColor n.color
  reject (maxWallTextBytes < byteLen n.text) ⟨.validation, "note text too long"⟩

/-- The notes of a replacement with the random numbers that are drawn for them. -/
def replacementNotes (draws : ℕ → UInt64) (notes : List WallNote) : List WallNote :=
  notes.zipIdx.map fun ni => replacementNote (draws ni.2) ni.1

def replaceWall (ctx : Ctx) (db : DB) (projectID : ℤ) (draws : ℕ → UInt64) (notes : List WallNote) :
    Result (DB × Wall) := do
  reject (maxWallNotes < notes.length) ⟨.validation, "wall note limit reached"⟩
  notes.forM checkReplacementNote
  let wall := getWall db projectID
  let wall := { wall with notes := replacementNotes draws notes, version := wall.version + 1 }
  let db ← writeWallLocked ctx db projectID wall
  pure (db, { wall with updatedAt := ctx.nowMs })

/-- The notes of the REST endpoint have neither ids nor versions. -/
structure NoteDraft where
  x : ℚ
  y : ℚ
  width : ℚ
  height : ℚ
  color : String
  text : String
  deriving DecidableEq, Repr

def NoteDraft.note (d : NoteDraft) : WallNote := ⟨"", d.x, d.y, d.width, d.height, d.color, d.text, 0⟩

/-- `PreparedRESTReplacement.Replace`. -/
def restReplaceWall (ctx : Ctx) (db : DB) (projectID : ℤ) (draws : ℕ → UInt64) (drafts : List NoteDraft) :
    Result (DB × Wall) :=
  replaceWall ctx db projectID draws (drafts.map NoteDraft.note)

section

variable {ctx : Ctx} {db : DB} {projectID : ℤ} {draws : ℕ → UInt64} {notes : List WallNote} {out : DB × Wall}

theorem replaceWall_spec (h : replaceWall ctx db projectID draws notes = .ok out) :
    out.1 = { db with walls := out.1.walls } ∧
      out.1.wallDoc projectID = (replacementNotes draws notes, (db.wallDoc projectID).2) ∧
      notes.length ≤ maxWallNotes := by
  simp only [replaceWall, bind_eq_ok, reject_eq_ok, pure_eq_ok] at h
  obtain ⟨_, hlen, _, _, db', hwrite, rfl⟩ := h
  obtain ⟨htables, hdocs⟩ := writeWallLocked_spec hwrite
  refine ⟨htables, ?_, not_lt.mp hlen⟩
  rw [hdocs, if_pos rfl, getWall_edges]

theorem replaceWall_onWall (h : replaceWall ctx db projectID draws notes = .ok out) :
    out.1.OnWall = db.OnWall := by
  rw [(replaceWall_spec h).1]
  rfl

/-- A wall is well formed just when its document is, next to the placed stories. -/
theorem getWall_wellFormed_iff (db : DB) (projectID : ℤ) :
    (getWall db projectID).WellFormed ↔ DocOK (db.OnWall projectID) (db.wallDoc projectID) := by
  have honwall : db.OnWall projectID = fun localID =>
      ∃ s ∈ listWallStoryPlacements db projectID, s.todoLocalID = localID :=
    funext fun _ => propext DB.onWall_iff
  have hgraph : Graph.IsSimple WallEdge.ends (wallVertices (getWall db projectID).notes fun localID =>
      ∃ s ∈ (getWall db projectID).stories, s.todoLocalID = localID) (getWall db projectID).edges ↔
      Graph.IsSimple WallEdge.ends (wallVertices (db.wallDoc projectID).1 (db.OnWall projectID))
        (db.wallDoc projectID).2 := by
    rw [honwall]
    unfold getWall DB.wallDoc
    cases db.walls.find? fun w => w.projectID == projectID with
    | none => exact ⟨fun _ => .nil, fun _ => .nil⟩
    | some w => exact Iff.rfl
  have hnotes := getWall_notes db projectID
  have hedges := getWall_edges db projectID
  constructor
  · intro h
    exact ⟨hgraph.mp h.graph, hnotes ▸ h.noteIDs, hnotes ▸ h.notes_le, hedges ▸ h.edges_le⟩
  · intro h
    exact ⟨hgraph.mpr h.graph, hnotes ▸ h.noteIDs, hnotes ▸ h.notes_le, hedges ▸ h.edges_le⟩

/-- The document of a wall with other notes, when the old one was well formed and no note had
the name of a story. -/
theorem DocOK.replace_notes_iff {story : ℤ → Prop} {notes notes' : List WallNote} {edges : List WallEdge}
    (h : DocOK story (notes, edges)) (hnames : ∀ n ∈ notes, ∀ l, formatWallStoryEndpoint l ≠ n.id)
    (hlen : notes'.length ≤ maxWallNotes) :
    DocOK story (notes', edges) ↔ (notes'.map (·.id)).Nodup ∧
      ∀ n ∈ notes, (∃ e ∈ edges, e.touches n.id) → n.id ∈ notes'.map (·.id) := by
  have hvertex : ∀ n ∈ notes, n.id ∈ wallVertices notes' story → n.id ∈ notes'.map (·.id) := by
    intro n hn hmem
    rcases hmem with ⟨m, hm, heq⟩ | ⟨l, _, heq⟩
    · exact heq ▸ List.mem_map_of_mem hm
    · exact absurd heq (hnames n hn l)
  constructor
  · intro h'
    refine ⟨h'.noteIDs, ?_⟩
    rintro n hn ⟨e, he, htouch⟩
    apply hvertex n hn
    have hanchored := h'.graph.anchored e he
    simp only [WallEdge.touches, Bool.or_eq_true, beq_iff_eq] at htouch
    rcases htouch with heq | heq
    · exact heq ▸ hanchored.1
    · exact heq ▸ hanchored.2
  · rintro ⟨hnodup, hkept⟩
    have hkeeps : ∀ e ∈ edges, ∀ v, e.touches v = true → v ∈ wallVertices notes story →
        v ∈ wallVertices notes' story := by
      intro e he v htouch hv
      rcases hv with ⟨n, hn, rfl⟩ | hstory
      · obtain ⟨m, hm, heq⟩ := List.mem_map.mp (hkept n hn ⟨e, he, htouch⟩)
        exact .inl ⟨m, hm, heq⟩
      · exact .inr hstory
    refine ⟨h.graph.mono fun e he hfst hsnd => ⟨?_, ?_⟩, hnodup, hlen, h.edges_le⟩
    · exact hkeeps e he _ (by simp [WallEdge.touches, WallEdge.ends]) hfst
    · exact hkeeps e he _ (by simp [WallEdge.touches, WallEdge.ends]) hsnd

theorem newNoteID_ne_story (draw : UInt64) (l : ℤ) : formatWallStoryEndpoint l ≠ newNoteID draw := by
  intro h
  have := congrArg (fun s => s.toList.head?) h
  simp [formatWallStoryEndpoint, wallStoryEndpointPrefix, newNoteID] at this

theorem replacementNotes_length (draws : ℕ → UInt64) (notes : List WallNote) :
    (replacementNotes draws notes).length = notes.length := by
  simp [replacementNotes]

theorem WallInv.replaceWall_iff {used : List UInt64} (hinv : WallInv used db)
    (h : replaceWall ctx db projectID draws notes = .ok out) :
    (getWall out.1 projectID).WellFormed ↔ ((replacementNotes draws notes).map (·.id)).Nodup ∧
      ∀ n ∈ (getWall db projectID).notes, (∃ e ∈ (getWall db projectID).edges, e.touches n.id) →
        n.id ∈ (replacementNotes draws notes).map (·.id) := by
  obtain ⟨_, hdoc, hlen⟩ := replaceWall_spec h
  rw [getWall_wellFormed_iff, hdoc, replaceWall_onWall h, getWall_notes, getWall_edges]
  refine (hinv.docs projectID).replace_notes_iff (fun n hn l => ?_) ?_
  · obtain ⟨d, _, heq⟩ := hinv.drawn projectID n hn
    rw [heq]
    exact newNoteID_ne_story d l
  · rw [replacementNotes_length]
    exact hlen

/-- Every end of an edge names a note or a placed story. -/
def Wall.EndsNamed (wall : Wall) : Prop :=
  ∀ e ∈ wall.edges, ∀ v, e.touches v = true →
    v ∈ wallVertices wall.notes fun localID => ∃ s ∈ wall.stories, s.todoLocalID = localID

theorem getWall_endsNamed_iff (db : DB) (projectID : ℤ) :
    (getWall db projectID).EndsNamed ↔ ∀ e ∈ (db.wallDoc projectID).2, ∀ v, e.touches v = true →
      v ∈ wallVertices (db.wallDoc projectID).1 (db.OnWall projectID) := by
  have honwall : db.OnWall projectID = fun localID =>
      ∃ s ∈ listWallStoryPlacements db projectID, s.todoLocalID = localID :=
    funext fun _ => propext DB.onWall_iff
  rw [honwall]
  unfold Wall.EndsNamed getWall DB.wallDoc
  cases db.walls.find? fun w => w.projectID == projectID with
  | none => simp
  | some w => exact Iff.rfl

/-- The ids of notes that came without one. -/
theorem replacementNotes_ids (hids : ∀ n ∈ notes, n.id = "") :
    (replacementNotes draws notes).map (·.id) = (List.range notes.length).map fun i => newNoteID (draws i) := by
  have hidx : List.range notes.length = notes.zipIdx.map (·.2) := by
    rw [List.zipIdx_map_snd]
    exact List.range_eq_range'
  rw [replacementNotes, hidx, List.map_map, List.map_map]
  apply List.map_congr_left
  intro ni hni
  have hn := hids ni.1 (List.fst_mem_of_mem_zipIdx hni)
  simp [replacementNote, hn]

end

theorem replacementNotes_nodup {draws : ℕ → UInt64} {notes : List WallNote} (hids : ∀ n ∈ notes, n.id = "")
    (hdraws : ((List.range notes.length).map draws).Nodup) :
    ((replacementNotes draws notes).map (·.id)).Nodup := by
  rw [replacementNotes_ids hids, ← Function.comp_def, ← List.map_map]
  exact hdraws.map fun _ _ => newNoteID_inj

/-- A replacement keeps the edges. After it every end of an edge names a note or a placed
story just when it names one of the new notes or a placed story, and notes that came without
ids have distinct ones. A wall that other operations have made is well formed after it just
when the new ids are distinct and every note at an edge is among them, and with new ids only
just when no edge is at a note. -/
theorem replaceWall_graph {ctx : Ctx} {db : DB} {projectID : ℤ} {draws : ℕ → UInt64} {notes : List WallNote}
    {out : DB × Wall} (h : replaceWall ctx db projectID draws notes = .ok out) :
    (getWall out.1 projectID).edges = (getWall db projectID).edges ∧
    ((getWall out.1 projectID).EndsNamed ↔ ∀ e ∈ (getWall db projectID).edges, ∀ v, e.touches v = true →
      v ∈ wallVertices (replacementNotes draws notes) (db.OnWall projectID)) ∧
    ((∀ n ∈ notes, n.id = "") → ((List.range notes.length).map draws).Nodup →
      ((getWall out.1 projectID).notes.map (·.id)).Nodup) ∧
    ∀ rt db₀ rs, (db₀.todos.map (·.id)).Nodup → db₀.walls = [] → (noteDraws rs).Nodup →
      db = Transition.run (serve rt) db₀ rs →
      ((getWall out.1 projectID).WellFormed ↔ ((replacementNotes draws notes).map (·.id)).Nodup ∧
        ∀ n ∈ (getWall db projectID).notes, (∃ e ∈ (getWall db projectID).edges, e.touches n.id) →
          n.id ∈ (replacementNotes draws notes).map (·.id)) ∧
      ((∀ n ∈ notes, n.id = "") → (noteDraws rs ++ (List.range notes.length).map draws).Nodup →
        ((getWall out.1 projectID).WellFormed ↔
          ∀ n ∈ (getWall db projectID).notes, ∀ e ∈ (getWall db projectID).edges, e.touches n.id = false)) := by
  obtain ⟨_, hdoc, _⟩ := replaceWall_spec h
  refine ⟨?_, ?_, ?_, ?_⟩
  · rw [getWall_edges, getWall_edges, hdoc]
  · rw [getWall_endsNamed_iff, hdoc, replaceWall_onWall h, getWall_edges]
  · intro hempty hdraws
    rw [getWall_notes, hdoc]
    exact replacementNotes_nodup hempty hdraws
  · rintro rt db₀ rs hids hwalls hdraws rfl
    have hinv : WallInv (noteDraws rs) (Transition.run (serve rt) db₀ rs) :=
      (WallInv.initial hids hwalls).run rs hdraws
    have hiff := hinv.replaceWall_iff h
    refine ⟨hiff, fun hempty hfresh => hiff.trans ?_⟩
    obtain ⟨_, hnew, hapart⟩ := List.nodup_append.mp hfresh
    -- a new id is none of the old ones
    have hgone : ∀ n ∈ (getWall (Transition.run (serve rt) db₀ rs) projectID).notes,
        n.id ∉ (replacementNotes draws notes).map (·.id) := by
      intro n hn hmem
      rw [replacementNotes_ids hempty] at hmem
      obtain ⟨i, hi, heq⟩ := List.mem_map.mp hmem
      obtain ⟨d, hd, hid⟩ := hinv.getWall_drawn projectID n hn
      exact hapart d hd (draws i) (List.mem_map_of_mem hi) (newNoteID_inj (hid.symm.trans heq.symm))
    constructor
    · rintro ⟨_, hkept⟩ n hn e he
      by_contra htouch
      rw [Bool.not_eq_false] at htouch
      exact hgone n hn (hkept n hn ⟨e, he, htouch⟩)
    · intro hfree
      refine ⟨replacementNotes_nodup hempty hnew, ?_⟩
      rintro n hn ⟨e, he, htouch⟩
      rw [hfree n hn e he] at htouch
      cases htouch

/-- A wall of two notes, without an edge or with one between them. -/
def pairSession (joined : Bool) : List (Ctx × Request) :=
  let notes : List Request :=
    [.createNote 1 1 ⟨0, 0, 0, 0, "#FFFFFF", "a"⟩, .createNote 1 2 ⟨0, 0, 0, 0, "#FFFFFF", "b"⟩]
  let edges : List Request :=
    if joined then [.createEdge 1 3 "n_0000000000000001" "n_0000000000000002"] else []
  (notes ++ edges).map fun r => (⟨none, 0⟩, r)

def pairBoard (joined : Bool) : DB := Transition.run (serve plainRuntime) crowdedBoard (pairSession joined)

/-- A replacement by one note that came without an id. -/
def pairReplaced (joined : Bool) : Result (DB × Wall) :=
  restReplaceWall ⟨none, 0⟩ (pairBoard joined) 1 (fun _ => 9) [⟨0, 0, 0, 0, "#FFFFFF", "c"⟩]

theorem replaceWall_graph_unjoined :
    ∃ out, pairReplaced false = .ok out ∧ (getWall out.1 1).WellFormed := by
  have hok : (pairReplaced false).isOk = true := by decide +kernel
  obtain ⟨out, hout⟩ := exists_of_isOk hok
  refine ⟨out, hout, ?_⟩
  obtain ⟨_, _, _, hreach⟩ := replaceWall_graph hout
  obtain ⟨_, hnew⟩ := hreach plainRuntime crowdedBoard (pairSession false) (by decide) rfl (by decide) rfl
  refine (hnew (by decide) (by decide)).mpr ?_
  decide +kernel

/-- The edge stays behind when the notes that it joined are replaced. -/
theorem replaced_notes_leave_edge :
    (noteDraws (pairSession true)).Nodup ∧
      ∃ out, pairReplaced true = .ok out ∧ ¬ (getWall out.1 1).EndsNamed := by
  have hok : (pairReplaced true).isOk = true := by decide +kernel
  obtain ⟨out, hout⟩ := exists_of_isOk hok
  refine ⟨by decide, out, hout, fun hnamed => ?_⟩
  have hwall : (getWall out.1 1).stories = [] ∧ (getWall out.1 1).notes.map (·.id) = ["n_0000000000000009"] ∧
      (getWall out.1 1).edges.map (·.fromRef) = ["n_0000000000000001"] := by
    have hcheck : (pairReplaced true).map (fun o => ((getWall o.1 1).stories,
        (getWall o.1 1).notes.map (·.id), (getWall o.1 1).edges.map (·.fromRef))) =
        .ok ([], ["n_0000000000000009"], ["n_0000000000000001"]) := by decide +kernel
    rw [hout] at hcheck
    simpa [Except.map] using hcheck
  obtain ⟨hstories, hnotes, hedges⟩ := hwall
  obtain ⟨e, he, hfrom⟩ := List.mem_map.mp (hedges ▸ List.mem_singleton_self "n_0000000000000001")
  have hend := hnamed e he "n_0000000000000001" (by simp [WallEdge.touches, hfrom])
  rw [hstories] at hend
  rcases hend with ⟨n, hn, hid⟩ | ⟨_, ⟨_, hs, _⟩, _⟩
  · have hmem := List.mem_map_of_mem (f := (·.id)) hn
    rw [hnotes, List.mem_singleton] at hmem
    exact absurd (hid.symm.trans hmem) (by decide)
  · cases hs

end Scrumboy
