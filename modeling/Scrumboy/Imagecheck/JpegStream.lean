import Scrumboy.Imagecheck.Jpeg

/-!
# What is in a stored JPEG

The sanitizer knows the segments in front of the first scan. A reader of the image goes on: it
takes the entropy-coded data of the scan up to the next marker, then more segments, which may
start further scans, until the end marker. Nothing in the sanitizer looks at what it finds there.
-/

namespace Scrumboy

open Go

namespace Jpeg

inductive Item
  | segment (seg : Segment)
  | entropy (bytes : Bytes)
  deriving DecidableEq, Repr

structure Stream where
  items : List Item
  /-- What follows the end marker, when one is reached. -/
  behind : Option Bytes
  deriving DecidableEq, Repr

def isRestart (marker : UInt8) : Bool := 0xD0 ≤ marker && marker ≤ 0xD7

/-- A byte of a scan, by what follows it: `FF` belongs to the scan in front of `00` or a restart
marker. -/
def inScan (b : UInt8) (rest : Bytes) : Bool :=
  b != 0xFF || rest.head? == some 0x00 || (rest.dropWhile (· == 0xFF)).head?.any isRestart

/-- The entropy-coded data, and what follows it. -/
def readScan : Bytes → Bytes × Bytes
  | [] => ([], [])
  | b :: rest => if inScan b rest then (b :: (readScan rest).1, (readScan rest).2) else ([], b :: rest)

/-- The stream behind `SOI`, up to the end marker or to data that no reader understands. -/
def readStream : ℕ → Bytes → Stream
  | 0, _ => ⟨[], none⟩
  | fuel + 1, data =>
      match readSegment data with
      | .ok (seg, rest) =>
          if seg.marker = sos then
            let stream := readStream fuel (readScan rest).2
            ⟨.segment seg :: .entropy (readScan rest).1 :: stream.items, stream.behind⟩
          else
            let stream := readStream fuel rest
            ⟨.segment seg :: stream.items, stream.behind⟩
      | .error _ =>
          match readMarker data with
          | some (_, marker, rest) => ⟨[], if marker = eoi then some rest else none⟩
          | none => ⟨[], none⟩

def readJpeg (data : Bytes) : Stream := readStream data.length (data.drop 2)

def Item.segment? : Item → Option Segment
  | .segment seg => some seg
  | .entropy _ => none

def Stream.segments (stream : Stream) : List Segment := stream.items.filterMap Item.segment?

def Stream.exif (stream : Stream) : List Segment := stream.segments.filter (·.marker == app1)

/-- No comments and no IPTC, and zero bytes at most behind the end. -/
structure Stream.Plain (stream : Stream) : Prop where
  segments : ∀ seg ∈ stream.segments, seg.marker ≠ app13 ∧ seg.marker ≠ com
  behind : ∀ bytes, stream.behind = some bytes → ∀ b ∈ bytes, b = 0x00

/-- Of the metadata there is the orientation at most. -/
structure Stream.Clean (stream : Stream) (orientation : ℕ) : Prop extends stream.Plain where
  exif : stream.exif = [] ∨ stream.exif = [orientationSegment orientation]

def Item.isKept : Item → Bool
  | .segment seg => !isMetadata seg.marker
  | .entropy _ => true

/-- All that is not metadata is there, in its order. -/
def KeepsRest (data out : Bytes) : Prop :=
  (readJpeg out).items.filter (·.isKept) = (readJpeg data).items.filter (·.isKept)

/-- What the sanitizer returns carries no metadata, and the rest of the image. -/
def StoredClean (data : Bytes) : Prop :=
  ∀ out orientation, sanitize data = .ok (out, orientation) →
    (readJpeg out).Clean orientation ∧ KeepsRest data out

/-- From the first scan of the image on there is no metadata, nor anything behind the end. An
orientation of 1, for which the sanitizer writes no segment, may stand there. -/
def CleanScans (data : Bytes) : Prop :=
  ∀ segs scan, header data = .ok (segs, scan) →
    (readStream scan.length scan).Plain ∧
      ((readStream scan.length scan).exif = [] ∨
        orientationOf segs = 1 ∧ (readStream scan.length scan).exif = [orientationSegment 1])

/-! ## The stream behind a header -/

theorem readScan_append (data : Bytes) : (readScan data).1 ++ (readScan data).2 = data := by
  induction data with
  | nil => rfl
  | cons b rest ih =>
      rw [readScan]
      split
      · rw [List.cons_append, ih]
      · rfl

theorem length_readScan_le (data : Bytes) : (readScan data).2.length ≤ data.length := by
  have h := congrArg List.length (readScan_append data)
  rw [List.length_append] at h
  omega

/-- The length of the data is enough fuel. -/
theorem readStream_fuel {fuel fuel' : ℕ} {data : Bytes} (h : data.length ≤ fuel)
    (h' : data.length ≤ fuel') : readStream fuel data = readStream fuel' data := by
  induction fuel generalizing fuel' data with
  | zero =>
      rw [List.eq_nil_of_length_eq_zero (Nat.le_zero.mp h)]
      cases fuel' <;> rfl
  | succ fuel ih =>
      cases fuel' with
      | zero =>
          rw [List.eq_nil_of_length_eq_zero (Nat.le_zero.mp h')]
          rfl
      | succ fuel' =>
          rw [readStream, readStream]
          cases hread : readSegment data with
          | error e => rfl
          | ok p =>
              obtain ⟨seg, rest⟩ := p
              obtain ⟨rfl, hseg⟩ := readSegment_eq_ok hread
              rw [List.length_append] at h h'
              have hlen := hseg.1
              have hscan := length_readScan_le rest
              dsimp only
              rw [@ih fuel' rest (by omega) (by omega),
                @ih fuel' (readScan rest).2 (by omega) (by omega)]

theorem readStream_rawBytes {fuel : ℕ} {segs : List Segment} {scan : Bytes} (h : IsHeader segs scan)
    (hfuel : (rawBytes segs ++ scan).length ≤ fuel) :
    readStream fuel (rawBytes segs ++ scan) =
      ⟨segs.map .segment ++ (readStream scan.length scan).items,
        (readStream scan.length scan).behind⟩ := by
  induction segs generalizing fuel with
  | nil => exact readStream_fuel hfuel le_rfl
  | cons seg segs ih =>
      have hseg := h.segment seg List.mem_cons_self
      have hlen := hseg.1
      rw [rawBytes_cons, List.append_assoc] at hfuel ⊢
      rw [List.length_append] at hfuel
      obtain ⟨n, rfl⟩ := Nat.exists_eq_add_of_lt (show 0 < fuel by omega)
      rw [readStream, hseg.2.2]
      dsimp only
      rw [if_neg (h.notScan seg List.mem_cons_self), ih h.tail (by omega)]
      rfl

/-- The stream of an image is its header and what the scan reads as. -/
theorem readJpeg_rawBytes {segs : List Segment} {scan : Bytes} (h : IsHeader segs scan) :
    readJpeg ([0xFF, soi] ++ rawBytes segs ++ scan) =
      ⟨segs.map .segment ++ (readStream scan.length scan).items,
        (readStream scan.length scan).behind⟩ := by
  rw [readJpeg, List.append_assoc]
  exact readStream_rawBytes h (Nat.le_add_right _ 2)

theorem segments_append (segs : List Segment) (items : List Item) (behind : Option Bytes) :
    Stream.segments ⟨segs.map .segment ++ items, behind⟩ =
      segs ++ Stream.segments ⟨items, behind⟩ := by
  rw [Stream.segments, List.filterMap_append, List.filterMap_map]
  congr 1
  exact List.filterMap_some

/-! ## What is stored -/

/-- The only EXIF segment in front of the first scan is the one that says the orientation. -/
theorem exif_insertOrientation (orientation : ℕ) (segs : List Segment) :
    (insertOrientation orientation (kept segs)).filter (·.marker == app1) =
      if orientation = 1 then [] else [orientationSegment orientation] := by
  have hkept : (kept segs).filter (·.marker == app1) = [] :=
    List.filter_eq_nil_iff.mpr fun seg hseg => marker_of_mem_kept hseg
  by_cases hone : orientation = 1
  · rw [hone, insertOrientation_one, hkept, if_pos rfl]
  · obtain ⟨before, behind, heq, hinsert⟩ := insertOrientation_of_ne hone (kept segs)
    rw [heq, List.filter_append, List.append_eq_nil_iff] at hkept
    rw [hinsert, List.filter_append, List.filter_cons_of_pos rfl, hkept.1, hkept.2, if_neg hone]
    rfl

/-- What is stored, as a stream: the segments that were kept, and what the scan reads as. -/
def storedStream (segs : List Segment) (scan : Stream) : Stream :=
  ⟨(insertOrientation (orientationOf segs) (kept segs)).map .segment ++ scan.items, scan.behind⟩

theorem plain_storedStream {segs : List Segment} {scan : Stream} :
    (storedStream segs scan).Plain ↔ scan.Plain := by
  have hsegments : (storedStream segs scan).segments =
      insertOrientation (orientationOf segs) (kept segs) ++ scan.segments :=
    segments_append _ _ _
  constructor
  · intro h
    refine ⟨fun seg hseg => h.segments seg ?_, h.behind⟩
    rw [hsegments]
    exact List.mem_append_right _ hseg
  · intro h
    refine ⟨fun seg hseg => ?_, h.behind⟩
    rw [hsegments, List.mem_append] at hseg
    rcases hseg with hseg | hseg
    · rcases mem_insertOrientation hseg with hseg | rfl
      · have hmeta := (mem_kept.mp hseg).2
        simp only [isMetadata, Bool.or_eq_false_iff, beq_eq_false_iff_ne] at hmeta
        exact ⟨hmeta.1.2, hmeta.2⟩
      · exact ⟨fun heq => absurd (show app1 = app13 from heq) (by decide),
          fun heq => absurd (show app1 = com from heq) (by decide)⟩
    · exact h.segments seg hseg

theorem exif_storedStream (segs : List Segment) (scan : Stream) :
    (storedStream segs scan).exif =
      (if orientationOf segs = 1 then [] else [orientationSegment (orientationOf segs)]) ++
        scan.exif := by
  have hsegments : (storedStream segs scan).segments =
      insertOrientation (orientationOf segs) (kept segs) ++ scan.segments :=
    segments_append _ _ _
  rw [Stream.exif, hsegments, List.filter_append, exif_insertOrientation]
  rfl

theorem clean_storedStream {segs : List Segment} {scan : Stream} :
    (storedStream segs scan).Clean (orientationOf segs) ↔
      scan.Plain ∧ (scan.exif = [] ∨
        orientationOf segs = 1 ∧ scan.exif = [orientationSegment 1]) := by
  have hclean : ∀ {stream : Stream} {o : ℕ}, stream.Clean o ↔
      stream.Plain ∧ (stream.exif = [] ∨ stream.exif = [orientationSegment o]) :=
    fun {_ _} => ⟨fun h => ⟨h.toPlain, h.exif⟩, fun h => ⟨h.1, h.2⟩⟩
  rw [hclean, plain_storedStream, exif_storedStream]
  by_cases hone : orientationOf segs = 1
  · simp [hone]
  · simp [hone]

theorem keepsRest_storedStream (segs : List Segment) (scan : Stream) :
    (storedStream segs scan).items.filter (·.isKept) =
      (segs.map Item.segment ++ scan.items).filter (·.isKept) := by
  have hmap : ∀ l : List Segment, (l.map Item.segment).filter (·.isKept) =
      (l.filter (!isMetadata ·.marker)).map Item.segment := fun l => List.filter_map
  rw [storedStream, List.filter_append, List.filter_append, hmap, hmap]
  exact congrArg (fun l => l.map Item.segment ++ _) (kept_insertOrientation _ segs)

/-- A comment between the scans of an image. -/
def commentedScan : Bytes :=
  [0xFF, soi, 0xFF, sos, 0x00, 0x02, 0x3F, 0xFF, com, 0x00, 0x03, 0x41, 0xFF, eoi]

end Jpeg

end Scrumboy
