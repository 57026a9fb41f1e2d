import Mathlib.Tactic.IntervalCases
import Scrumboy.Imagecheck.Limits

/-!
# JPEG images

A JPEG is a sequence of segments, each behind a marker, and entropy-coded data behind each
segment that starts a scan. The sanitizer walks the segments up to the first scan, drops the
ones that carry metadata, and puts a segment of its own with the orientation in their place; the
rest, from the first scan on, it copies.
-/

namespace Scrumboy

open Go

namespace Jpeg

def soi : UInt8 := 0xD8

def eoi : UInt8 := 0xD9

def sos : UInt8 := 0xDA

def app0 : UInt8 := 0xE0

def app1 : UInt8 := 0xE1

def app13 : UInt8 := 0xED

def com : UInt8 := 0xFE

/-- The markers that stand without a length: `TEM` and the restart markers. -/
def standsAlone (marker : UInt8) : Bool := marker == 0x01 || (0xD0 ≤ marker && marker ≤ 0xD7)

/-- The metadata that is dropped: EXIF and XMP, IPTC, and comments. -/
def isMetadata (marker : UInt8) : Bool := marker == app1 || marker == app13 || marker == com

structure Segment where
  marker : UInt8
  raw : Bytes
  payload : Bytes
  deriving DecidableEq, Repr

def bigEndian16 (a b : UInt8) : ℕ := a.toNat * 256 + b.toNat

/-- The next marker with the fill bytes in front of it, and what follows. -/
def readMarker (data : Bytes) : Option (Bytes × UInt8 × Bytes) :=
  match data.takeWhile (· == 0xFF), data.dropWhile (· == 0xFF) with
  | f :: fill, marker :: rest => some (f :: fill, marker, rest)
  | _, _ => none

/-- The next segment, and what follows. -/
def readSegment (data : Bytes) : Except ImageError (Segment × Bytes) :=
  match readMarker data with
  | none => .error .corrupt
  | some (fill, marker, rest) =>
      if marker = soi ∨ marker = eoi ∨ marker = 0x00 then .error .corrupt
      else if standsAlone marker then .ok (⟨marker, fill ++ [marker], []⟩, rest)
      else
        match rest with
        | a :: b :: _ =>
            let length := bigEndian16 a b
            if length < 2 ∨ rest.length < length then .error .corrupt
            else .ok (⟨marker, fill ++ marker :: rest.take length, (rest.take length).drop 2⟩,
              rest.drop length)
        | _ => .error .corrupt

/-- The segments before the first scan, and the data from there on. A segment takes two bytes or
more, so the length of the data is enough fuel. -/
def readHeader : ℕ → Bytes → Except ImageError (List Segment × Bytes)
  | 0, _ => .error .corrupt
  | fuel + 1, data => do
      let (seg, rest) ← readSegment data
      if seg.marker = sos then pure ([], data)
      else do
        let (segs, scan) ← readHeader fuel rest
        pure (seg :: segs, scan)

def exifHeader : Bytes := [0x45, 0x78, 0x69, 0x66, 0x00, 0x00]

/-- Two or four bytes in the byte order of a TIFF structure. -/
def tiffUint (littleEndian : Bool) (bytes : Bytes) : ℕ :=
  Bytes.bigEndian (if littleEndian then bytes.reverse else bytes)

/-- The orientation in an entry of the directory. -/
def entryOrientation (littleEndian : Bool) (entry : Bytes) : ℕ :=
  if tiffUint littleEndian (Bytes.slice entry 2 2) ≠ 3 ∨
      tiffUint littleEndian (Bytes.slice entry 4 4) ≠ 1 then 1
  else
    let v := tiffUint littleEndian (Bytes.slice entry 8 2)
    if v < 1 ∨ 8 < v then 1 else v

/-- The first directory of a TIFF structure. -/
def directoryOrientation (littleEndian : Bool) (tiff : Bytes) : ℕ :=
  let ifd := tiffUint littleEndian (Bytes.slice tiff 4 4)
  if tiffUint littleEndian (Bytes.slice tiff 2 2) ≠ 42 then 1
  else if ifd < 8 ∨ tiff.length < ifd + 2 then 1
  else
    let count := tiffUint littleEndian (Bytes.slice tiff ifd 2)
    if tiff.length < ifd + 2 + count * 12 then 1
    else
      let entries := (List.range count).map fun i => Bytes.slice tiff (ifd + 2 + i * 12) 12
      match entries.find? fun entry => tiffUint littleEndian (Bytes.slice entry 0 2) == 0x0112 with
      | some entry => entryOrientation littleEndian entry
      | none => 1

/-- `exifOrientation`, where anything that is malformed counts as 1. -/
def exifOrientation (tiff : Bytes) : ℕ :=
  if tiff.length < 8 then 1
  else if tiff.take 2 = [0x49, 0x49] then directoryOrientation true tiff
  else if tiff.take 2 = [0x4D, 0x4D] then directoryOrientation false tiff
  else 1

def isExif (seg : Segment) : Bool := seg.marker == app1 && exifHeader.isPrefixOf seg.payload

/-- The orientation in the first EXIF segment. -/
def orientationOf (segs : List Segment) : ℕ :=
  match segs.find? isExif with
  | some seg => exifOrientation (seg.payload.drop exifHeader.length)
  | none => 1

def orientationPayload (orientation : ℕ) : Bytes :=
  [0x45, 0x78, 0x69, 0x66, 0x00, 0x00,
    0x49, 0x49, 0x2A, 0x00, 0x08, 0x00, 0x00, 0x00,
    0x01, 0x00,
    0x12, 0x01, 0x03, 0x00, 0x01, 0x00, 0x00, 0x00, UInt8.ofNat orientation, 0x00, 0x00, 0x00,
    0x00, 0x00, 0x00, 0x00]

/-- A whole EXIF segment that says the orientation and nothing else. -/
def orientationSegment (orientation : ℕ) : Segment :=
  ⟨app1, [0xFF, app1, 0x00, 0x22] ++ orientationPayload orientation, orientationPayload orientation⟩

/-- The orientation goes in front, but behind a leading APP0. -/
def insertOrientation (orientation : ℕ) (kept : List Segment) : List Segment :=
  if orientation = 1 then kept
  else
    match kept with
    | seg :: rest =>
        if seg.marker = app0 then seg :: orientationSegment orientation :: rest
        else orientationSegment orientation :: seg :: rest
    | [] => [orientationSegment orientation]

def rawBytes (segs : List Segment) : Bytes := segs.flatMap (·.raw)

/-- The scans end with EOI, perhaps with zero bytes behind it. -/
def endsWithEOI (scan : Bytes) : Bool := [0xFF, eoi].isSuffixOf (scan.rdropWhile (· == 0x00))

/-- `sanitizeJPEG`. -/
def sanitize (data : Bytes) : Except ImageError (Bytes × ℕ) :=
  match data with
  | 0xFF :: 0xD8 :: a :: b :: rest => do
      let (segs, scan) ← readHeader data.length (a :: b :: rest)
      reject (endsWithEOI scan = false) .trailingData
      let kept := segs.filter (!isMetadata ·.marker)
      let orientation := orientationOf segs
      pure ([0xFF, soi] ++ rawBytes (insertOrientation orientation kept) ++ scan, orientation)
  | _ => .error .corrupt

/-! ## Reading a segment again -/

theorem takeWhile_dropWhile_fill {fill rest : Bytes} {marker : UInt8} (hfill : ∀ b ∈ fill, b = 0xFF)
    (hmarker : marker ≠ 0xFF) : (fill ++ marker :: rest).takeWhile (· == 0xFF) = fill ∧
      (fill ++ marker :: rest).dropWhile (· == 0xFF) = marker :: rest := by
  have hall : ∀ b ∈ fill, (b == 0xFF) = true := fun b hb => beq_iff_eq.mpr (hfill b hb)
  rw [List.takeWhile_append_of_pos hall, List.dropWhile_append_of_pos hall]
  simp [hmarker]

theorem readMarker_append {fill rest : Bytes} {marker : UInt8} (hne : fill ≠ [])
    (hfill : ∀ b ∈ fill, b = 0xFF) (hmarker : marker ≠ 0xFF) :
    readMarker (fill ++ marker :: rest) = some (fill, marker, rest) := by
  obtain ⟨htake, hdrop⟩ := @takeWhile_dropWhile_fill fill rest marker hfill hmarker
  rw [readMarker, htake, hdrop]
  cases fill with
  | nil => exact absurd rfl hne
  | cons f fill => rfl

theorem readMarker_eq_some {data fill rest : Bytes} {marker : UInt8}
    (h : readMarker data = some (fill, marker, rest)) :
    data = fill ++ marker :: rest ∧ fill ≠ [] ∧ (∀ b ∈ fill, b = 0xFF) ∧ marker ≠ 0xFF := by
  unfold readMarker at h
  split at h
  · rename_i f fill' marker' rest' htake hdrop
    simp only [Option.some.injEq, Prod.mk.injEq] at h
    obtain ⟨rfl, rfl, rfl⟩ := h
    refine ⟨?_, by simp, fun b hb => ?_, fun heq => ?_⟩
    · rw [← htake, ← hdrop, List.takeWhile_append_dropWhile]
    · rw [← htake] at hb
      simpa using List.mem_takeWhile_imp hb
    · have hhead := List.head?_dropWhile_not (p := (· == (0xFF : UInt8))) data
      rw [hdrop] at hhead
      simp [heq] at hhead
  · cases h

/-- A segment that is read back from its bytes, whatever follows. -/
def IsSegment (seg : Segment) : Prop :=
  2 ≤ seg.raw.length ∧ seg.raw.head? = some 0xFF ∧
    ∀ rest, readSegment (seg.raw ++ rest) = .ok (seg, rest)

theorem readSegment_eq_ok {data rest : Bytes} {seg : Segment} (h : readSegment data = .ok (seg, rest)) :
    data = seg.raw ++ rest ∧ IsSegment seg := by
  unfold readSegment at h
  split at h
  · cases h
  · rename_i fill marker behind hmarker
    obtain ⟨rfl, hne, hfill, hnot⟩ := readMarker_eq_some hmarker
    have hhead : ∀ tail : Bytes, (fill ++ tail).head? = some 0xFF := by
      intro tail
      cases fill with
      | nil => exact absurd rfl hne
      | cons f fill => rw [hfill f List.mem_cons_self]; rfl
    have hlen : 1 ≤ fill.length := List.length_pos_iff.mpr hne
    split at h
    · cases h
    · rename_i hmark
      split at h
      · rename_i halone
        cases h
        refine ⟨by simp, by simp; omega, hhead _, fun rest => ?_⟩
        rw [List.append_assoc, List.singleton_append, readSegment, readMarker_append hne hfill hnot]
        dsimp only
        rw [if_neg hmark, if_pos halone]
      · rename_i halone
        split at h
        · rename_i a b tail
          dsimp only at h
          split at h
          · cases h
          · rename_i hlength
            cases h
            rw [not_or, Nat.not_lt, Nat.not_lt] at hlength
            have htake : (a :: b :: tail).take (bigEndian16 a b) =
                a :: b :: tail.take (bigEndian16 a b - 2) := by
              obtain ⟨n, hn⟩ := Nat.exists_eq_add_of_le' hlength.1
              rw [hn]
              rfl
            refine ⟨?_, by simp; omega, hhead _, fun rest => ?_⟩
            · rw [List.append_assoc, List.cons_append, List.take_append_drop]
            · rw [List.append_assoc, List.cons_append, readSegment, readMarker_append hne hfill hnot]
              dsimp only
              rw [if_neg hmark, if_neg halone]
              have hrest : (a :: b :: tail).take (bigEndian16 a b) ++ rest =
                  a :: b :: (tail.take (bigEndian16 a b - 2) ++ rest) := by rw [htake]; rfl
              have hsize : ((a :: b :: tail).take (bigEndian16 a b)).length = bigEndian16 a b := by
                rw [List.length_take]
                omega
              have hagain : ((a :: b :: tail).take (bigEndian16 a b) ++ rest).take (bigEndian16 a b) =
                  (a :: b :: tail).take (bigEndian16 a b) := by
                rw [List.take_append_of_le_length hsize.ge, List.take_of_length_le hsize.le]
              rw [hrest]
              dsimp only
              rw [← hrest, if_neg (by rw [List.length_append]; omega), hagain,
                List.drop_append_of_le_length hsize.ge, List.drop_of_length_le hsize.le,
                List.nil_append]
        · cases h

/-! ## The header -/

/-- The segments of a header, and the scan they end at. -/
structure IsHeader (segs : List Segment) (scan : Bytes) : Prop where
  segment : ∀ seg ∈ segs, IsSegment seg
  notScan : ∀ seg ∈ segs, seg.marker ≠ sos
  scan : ∃ seg rest, readSegment scan = .ok (seg, rest) ∧ seg.marker = sos

theorem IsHeader.tail {seg : Segment} {segs : List Segment} {scan : Bytes}
    (h : IsHeader (seg :: segs) scan) : IsHeader segs scan where
  segment s hs := h.segment s (List.mem_cons_of_mem _ hs)
  notScan s hs := h.notScan s (List.mem_cons_of_mem _ hs)
  scan := h.scan

@[simp] theorem rawBytes_cons (seg : Segment) (segs : List Segment) :
    rawBytes (seg :: segs) = seg.raw ++ rawBytes segs := rfl

theorem rawBytes_cons_append (seg : Segment) (segs : List Segment) (data : Bytes) :
    rawBytes (seg :: segs) ++ data = seg.raw ++ (rawBytes segs ++ data) := List.append_assoc _ _ _

@[simp] theorem rawBytes_append (before behind : List Segment) :
    rawBytes (before ++ behind) = rawBytes before ++ rawBytes behind := List.flatMap_append

theorem readHeader_eq_ok {fuel : ℕ} {data scan : Bytes} {segs : List Segment}
    (h : readHeader fuel data = .ok (segs, scan)) :
    data = rawBytes segs ++ scan ∧ IsHeader segs scan := by
  induction fuel generalizing data segs with
  | zero => cases h
  | succ fuel ih =>
      rw [readHeader, bind_eq_ok] at h
      obtain ⟨⟨seg, rest⟩, hread, h⟩ := h
      dsimp only at h
      split at h
      · rename_i hsos
        cases h
        exact ⟨rfl, by simp, by simp, seg, rest, hread, hsos⟩
      · rename_i hsos
        rw [bind_eq_ok] at h
        obtain ⟨⟨segs', scan'⟩, hrest, h⟩ := h
        cases h
        obtain ⟨rfl, hhead⟩ := ih hrest
        obtain ⟨rfl, hseg⟩ := readSegment_eq_ok hread
        refine ⟨by rw [rawBytes_cons, List.append_assoc], ?_, ?_, hhead.scan⟩
        · exact List.forall_mem_cons.mpr ⟨hseg, hhead.segment⟩
        · exact List.forall_mem_cons.mpr ⟨hsos, hhead.notScan⟩

/-- The header is read back from its bytes. -/
theorem readHeader_rawBytes {fuel : ℕ} {segs : List Segment} {scan : Bytes} (h : IsHeader segs scan)
    (hfuel : segs.length < fuel) : readHeader fuel (rawBytes segs ++ scan) = .ok (segs, scan) := by
  induction segs generalizing fuel with
  | nil =>
      obtain ⟨n, rfl⟩ := Nat.exists_eq_add_of_lt hfuel
      obtain ⟨seg, rest, hread, hsos⟩ := h.scan
      rw [rawBytes, List.flatMap_nil, List.nil_append, readHeader, hread, ok_bind]
      dsimp only
      rw [if_pos hsos]
      rfl
  | cons seg segs ih =>
      obtain ⟨n, rfl⟩ := Nat.exists_eq_add_of_lt hfuel
      have hread := (h.segment seg List.mem_cons_self).2.2 (rawBytes segs ++ scan)
      rw [rawBytes_cons_append, readHeader, hread, ok_bind]
      dsimp only
      rw [if_neg (h.notScan seg List.mem_cons_self), ih h.tail (by rw [List.length_cons]; omega)]
      rfl

theorem length_le_rawBytes {segs : List Segment} (h : ∀ seg ∈ segs, IsSegment seg) :
    2 * segs.length ≤ (rawBytes segs).length := by
  induction segs with
  | nil => simp
  | cons seg segs ih =>
      have hseg := (h seg List.mem_cons_self).1
      have hsegs := ih fun s hs => h s (List.mem_cons_of_mem _ hs)
      rw [rawBytes_cons, List.length_append, List.length_cons]
      omega

theorem IsHeader.head_rawBytes {segs : List Segment} {scan : Bytes} (h : IsHeader segs scan) :
    ∃ rest, rawBytes segs ++ scan = 0xFF :: rest := by
  have hstart : ∀ {seg : Segment} (tail : Bytes), IsSegment seg →
      ∃ rest, seg.raw ++ tail = 0xFF :: rest := by
    intro seg tail hseg
    obtain ⟨tail', htail⟩ := List.head?_eq_some_iff.mp hseg.2.1
    exact ⟨tail' ++ tail, by rw [htail, List.cons_append]⟩
  cases segs with
  | nil =>
      obtain ⟨seg, rest, hread, -⟩ := h.scan
      obtain ⟨rfl, hseg⟩ := readSegment_eq_ok hread
      exact hstart rest hseg
  | cons seg segs =>
      rw [rawBytes_cons, List.append_assoc]
      exact hstart _ (h.segment seg List.mem_cons_self)

theorem IsHeader.two_le_length {segs : List Segment} {scan : Bytes} (h : IsHeader segs scan) :
    2 + 2 * segs.length ≤ (rawBytes segs ++ scan).length := by
  obtain ⟨seg, rest, hread, -⟩ := h.scan
  obtain ⟨rfl, hseg⟩ := readSegment_eq_ok hread
  have hsegs := length_le_rawBytes h.segment
  have hlen := hseg.1
  simp only [List.length_append]
  omega

/-! ## What the sanitizer does -/

/-- The header of an image, which the sanitizer reads. -/
def header (data : Bytes) : Except ImageError (List Segment × Bytes) :=
  readHeader data.length (data.drop 2)

def kept (segs : List Segment) : List Segment := segs.filter (!isMetadata ·.marker)

theorem sanitize_eq_ok {data out : Bytes} {orientation : ℕ}
    (h : sanitize data = .ok (out, orientation)) : ∃ segs scan,
      header data = .ok (segs, scan) ∧ IsHeader segs scan ∧
      data = [0xFF, soi] ++ rawBytes segs ++ scan ∧ endsWithEOI scan = true ∧
      orientation = orientationOf segs ∧
      out = [0xFF, soi] ++ rawBytes (insertOrientation orientation (kept segs)) ++ scan := by
  unfold sanitize at h
  split at h
  · simp only [bind_eq_ok, reject_eq_ok, pure_eq_ok, Bool.not_eq_false, Prod.mk.injEq] at h
    obtain ⟨⟨segs, scan⟩, hhead, -, hend, rfl, rfl⟩ := h
    obtain ⟨hdata, hheader⟩ := readHeader_eq_ok hhead
    refine ⟨segs, scan, hhead, hheader, ?_, hend, rfl, rfl⟩
    rw [List.append_assoc, ← hdata]
    rfl
  · cases h

/-- An image of a header and a scan that ends is accepted. -/
theorem sanitize_rawBytes {segs : List Segment} {scan : Bytes} (h : IsHeader segs scan)
    (hend : endsWithEOI scan = true) :
    sanitize ([0xFF, soi] ++ rawBytes segs ++ scan) = .ok
      ([0xFF, soi] ++ rawBytes (insertOrientation (orientationOf segs) (kept segs)) ++ scan,
        orientationOf segs) := by
  have hlen := h.two_le_length
  obtain ⟨a, b, rest, hdata⟩ : ∃ a b rest, rawBytes segs ++ scan = a :: b :: rest := by
    cases hbytes : rawBytes segs ++ scan with
    | nil => simp [hbytes] at hlen
    | cons a tail =>
        cases tail with
        | nil =>
            rw [hbytes, List.length_singleton] at hlen
            omega
        | cons b rest => exact ⟨a, b, rest, rfl⟩
  have hread : readHeader ([0xFF, soi] ++ rawBytes segs ++ scan).length (a :: b :: rest) =
      .ok (segs, scan) := by
    rw [← hdata]
    refine readHeader_rawBytes h ?_
    rw [List.append_assoc, List.length_append]
    omega
  have hshape : [0xFF, soi] ++ rawBytes segs ++ scan = 0xFF :: 0xD8 :: a :: b :: rest := by
    rw [List.append_assoc, hdata]
    rfl
  rw [hshape] at hread ⊢
  rw [sanitize, hread, ok_bind]
  dsimp only
  rw [reject_bind_of_not (by rw [hend]; decide)]
  rfl

theorem mem_kept {seg : Segment} {segs : List Segment} :
    seg ∈ kept segs ↔ seg ∈ segs ∧ isMetadata seg.marker = false := by
  simp [kept]

theorem marker_of_mem_kept {seg : Segment} {segs : List Segment} (h : seg ∈ kept segs) :
    ¬ (seg.marker == app1) = true := by
  intro happ
  have hmeta := (mem_kept.mp h).2
  rw [isMetadata, happ] at hmeta
  cases hmeta

theorem isSegment_orientationSegment (orientation : ℕ) :
    IsSegment (orientationSegment orientation) := by
  refine ⟨?_, rfl, fun rest => ?_⟩
  · simp [orientationSegment, orientationPayload]
  · have hmarker : readMarker ([0xFF] ++ app1 :: (0x00 :: 0x22 ::
        (orientationPayload orientation ++ rest))) = some ([0xFF], app1, 0x00 :: 0x22 ::
          (orientationPayload orientation ++ rest)) :=
      readMarker_append (by simp) (by simp) (by decide)
    have hlength : bigEndian16 0x00 0x22 = 34 := rfl
    have hsize : (orientationPayload orientation).length = 32 := rfl
    have htake : (orientationPayload orientation ++ rest).take 32 = orientationPayload orientation :=
      List.take_left' hsize
    have hdrop : (orientationPayload orientation ++ rest).drop 32 = rest := List.drop_left' hsize
    have hbytes : (orientationSegment orientation).raw ++ rest = [0xFF] ++ app1 ::
        (0x00 :: 0x22 :: (orientationPayload orientation ++ rest)) := rfl
    rw [hbytes, readSegment, hmarker]
    dsimp only
    rw [if_neg (by decide), if_neg (by decide), hlength,
      if_neg (by simp only [List.length_cons, List.length_append]; omega)]
    simp only [List.take_succ_cons, List.drop_succ_cons, List.drop_zero, htake, hdrop]
    rfl

theorem insertOrientation_one (segs : List Segment) : insertOrientation 1 segs = segs := if_pos rfl

/-- The segment with the orientation goes somewhere between the others. -/
theorem insertOrientation_of_ne {orientation : ℕ} (h : orientation ≠ 1) (segs : List Segment) :
    ∃ before behind, segs = before ++ behind ∧
      insertOrientation orientation segs = before ++ orientationSegment orientation :: behind := by
  unfold insertOrientation
  rw [if_neg h]
  split
  · split
    · exact ⟨[_], _, rfl, rfl⟩
    · exact ⟨[], _, rfl, rfl⟩
  · exact ⟨[], [], rfl, rfl⟩

theorem mem_insertOrientation {orientation : ℕ} {segs : List Segment} {seg : Segment}
    (h : seg ∈ insertOrientation orientation segs) :
    seg ∈ segs ∨ seg = orientationSegment orientation := by
  by_cases hone : orientation = 1
  · rw [hone, insertOrientation_one] at h
    exact .inl h
  · obtain ⟨before, behind, rfl, heq⟩ := insertOrientation_of_ne hone segs
    rw [heq] at h
    simp only [List.mem_append, List.mem_cons] at h ⊢
    tauto

/-- What the sanitizer writes is a header again. -/
theorem IsHeader.sanitized {segs : List Segment} {scan : Bytes} (h : IsHeader segs scan)
    (orientation : ℕ) : IsHeader (insertOrientation orientation (kept segs)) scan where
  segment seg hseg := by
    rcases mem_insertOrientation hseg with hseg | rfl
    · exact h.segment seg (mem_kept.mp hseg).1
    · exact isSegment_orientationSegment orientation
  notScan seg hseg := by
    rcases mem_insertOrientation hseg with hseg | rfl
    · exact h.notScan seg (mem_kept.mp hseg).1
    · exact fun heq => absurd (show app1 = sos from heq) (by decide)
  scan := h.scan

/-! ## Sanitizing again -/

@[simp] theorem kept_kept (segs : List Segment) : kept (kept segs) = kept segs := by
  rw [kept, kept, List.filter_filter]
  congr 1
  funext seg
  exact Bool.and_self _

theorem kept_insertOrientation (orientation : ℕ) (segs : List Segment) :
    kept (insertOrientation orientation (kept segs)) = kept segs := by
  by_cases hone : orientation = 1
  · rw [hone, insertOrientation_one, kept_kept]
  · obtain ⟨before, behind, heq, hinsert⟩ := insertOrientation_of_ne hone (kept segs)
    rw [hinsert, kept, List.filter_append, List.filter_cons_of_neg Bool.false_ne_true,
      ← List.filter_append, ← heq]
    exact kept_kept segs

theorem exifOrientation_mem (tiff : Bytes) : 1 ≤ exifOrientation tiff ∧ exifOrientation tiff ≤ 8 := by
  have hentry : ∀ le entry, 1 ≤ entryOrientation le entry ∧ entryOrientation le entry ≤ 8 := by
    intro le entry
    unfold entryOrientation
    split
    · omega
    · dsimp only
      split <;> omega
  have hdirectory : ∀ le, 1 ≤ directoryOrientation le tiff ∧ directoryOrientation le tiff ≤ 8 := by
    intro le
    unfold directoryOrientation
    dsimp only
    split
    · omega
    · split
      · omega
      · split
        · omega
        · split
          · exact hentry le _
          · omega
  unfold exifOrientation
  split
  · omega
  · split
    · exact hdirectory true
    · split
      · exact hdirectory false
      · omega

theorem orientationOf_mem (segs : List Segment) : 1 ≤ orientationOf segs ∧ orientationOf segs ≤ 8 := by
  unfold orientationOf
  split
  · exact exifOrientation_mem _
  · omega

/-- The orientation that is written is the one that is read. -/
theorem exifOrientation_orientationPayload {orientation : ℕ} (h : 1 ≤ orientation ∧ orientation ≤ 8) :
    exifOrientation ((orientationPayload orientation).drop exifHeader.length) = orientation := by
  obtain ⟨hlow, hhigh⟩ := h
  interval_cases orientation <;> decide

theorem orientationOf_sanitized (segs : List Segment) :
    orientationOf (insertOrientation (orientationOf segs) (kept segs)) = orientationOf segs := by
  have hkept : ∀ seg ∈ kept segs, ¬ isExif seg = true := by
    intro seg hseg hexif
    rw [isExif, Bool.and_eq_true] at hexif
    exact marker_of_mem_kept hseg hexif.1
  have hrange := orientationOf_mem segs
  generalize orientationOf segs = orientation at hrange ⊢
  by_cases hone : orientation = 1
  · rw [hone, insertOrientation_one, orientationOf, List.find?_eq_none.mpr hkept]
  · obtain ⟨before, behind, heq, hinsert⟩ := insertOrientation_of_ne hone (kept segs)
    have hbefore : before.find? isExif = none :=
      List.find?_eq_none.mpr fun seg hseg => hkept seg (heq ▸ List.mem_append_left _ hseg)
    have hexif : isExif (orientationSegment orientation) = true := rfl
    rw [hinsert, orientationOf, List.find?_append, hbefore, Option.none_or,
      List.find?_cons_of_pos hexif]
    exact exifOrientation_orientationPayload hrange

/-- What is returned is accepted, and returned again. -/
theorem sanitize_again {data out : Bytes} {orientation : ℕ}
    (h : sanitize data = .ok (out, orientation)) : sanitize out = .ok (out, orientation) := by
  obtain ⟨segs, scan, -, hheader, -, hend, rfl, rfl⟩ := sanitize_eq_ok h
  rw [sanitize_rawBytes (hheader.sanitized _) hend, orientationOf_sanitized, kept_insertOrientation]

/-! ## Lengths -/

/-- The bytes that the metadata of a header takes. -/
def droppedLength (segs : List Segment) : ℕ := (rawBytes (segs.filter (isMetadata ·.marker))).length

theorem length_rawBytes_kept (segs : List Segment) :
    (rawBytes (kept segs)).length + droppedLength segs = (rawBytes segs).length := by
  unfold droppedLength kept
  induction segs with
  | nil => rfl
  | cons seg segs ih =>
      cases hmeta : isMetadata seg.marker with
      | true =>
          rw [List.filter_cons_of_neg (by simp [hmeta]), List.filter_cons_of_pos (by simp [hmeta]),
            rawBytes_cons, rawBytes_cons, List.length_append, List.length_append]
          omega
      | false =>
          rw [List.filter_cons_of_pos (by simp [hmeta]), List.filter_cons_of_neg (by simp [hmeta]),
            rawBytes_cons, rawBytes_cons, List.length_append, List.length_append]
          omega

theorem length_insertOrientation (orientation : ℕ) (segs : List Segment) :
    (rawBytes (insertOrientation orientation segs)).length =
      (rawBytes segs).length + if orientation = 1 then 0 else 36 := by
  by_cases hone : orientation = 1
  · rw [hone, insertOrientation_one, if_pos rfl, Nat.add_zero]
  · obtain ⟨before, behind, rfl, hinsert⟩ := insertOrientation_of_ne hone segs
    have hsize : (orientationSegment orientation).raw.length = 36 := rfl
    rw [hinsert, if_neg hone]
    simp only [rawBytes_append, rawBytes_cons, List.length_append, hsize]
    omega

/-- What is returned is as long as the image without its metadata and with the orientation. -/
theorem length_sanitize {data out : Bytes} {orientation : ℕ}
    (h : sanitize data = .ok (out, orientation)) : ∃ segs scan, header data = .ok (segs, scan) ∧
      orientation = orientationOf segs ∧
      out.length + droppedLength segs = data.length + if orientation = 1 then 0 else 36 := by
  obtain ⟨segs, scan, hhead, -, rfl, -, rfl, rfl⟩ := sanitize_eq_ok h
  refine ⟨segs, scan, hhead, rfl, ?_⟩
  have hkept := length_rawBytes_kept segs
  simp only [List.length_append, length_insertOrientation]
  omega

end Jpeg

end Scrumboy
