import Scrumboy.Go.Hex
import Scrumboy.Go.Sha256
import Scrumboy.Imagecheck.Gif
import Scrumboy.Imagecheck.Jpeg
import Scrumboy.Imagecheck.Png

/-!
# Validating an image twice

`Validate` returns the bytes to store. An image that is exported and uploaded again is validated
again, under the same limits: what was taken out must not be missed, and what was put in must fit.
-/

namespace Scrumboy

open Go

/-- What the decoders of the standard library say of an image: its dimensions, and whether its
pixels decode. -/
structure Decoders where
  pngConfig : Bytes → Option (ℤ × ℤ)
  pngDecodes : Bytes → Bool
  jpegConfig : Bytes → Option (ℤ × ℤ)
  jpegDecodes : Bytes → Bool
  gifConfig : Bytes → Option (ℤ × ℤ)
  gifDecodes : Bytes → Bool

/-- The dimensions of an image do not depend on the chunks and segments that are dropped. -/
structure Decoders.IgnoresDropped (dec : Decoders) : Prop where
  png : ∀ (before : List Png.Chunk) (chunk : Png.Chunk) (behind : Bytes),
    (∀ c ∈ before, Png.IsChunk c) → Png.IsChunk chunk → Png.isDropped chunk = true →
      dec.pngConfig (Png.signature ++ Png.rawBytes before ++ (chunk.raw ++ behind)) =
        dec.pngConfig (Png.signature ++ Png.rawBytes before ++ behind)
  jpeg : ∀ (before : List Jpeg.Segment) (seg : Jpeg.Segment) (behind : Bytes),
    (∀ s ∈ before, Jpeg.IsSegment s ∧ s.marker ≠ Jpeg.sos) → Jpeg.IsSegment seg →
      Jpeg.isMetadata seg.marker = true →
      dec.jpegConfig ([0xFF, Jpeg.soi] ++ Jpeg.rawBytes before ++ (seg.raw ++ behind)) =
        dec.jpegConfig ([0xFF, Jpeg.soi] ++ Jpeg.rawBytes before ++ behind)

structure ImageResult where
  mime : String
  ext : String
  width : ℤ
  height : ℤ
  frames : ℕ
  orientation : ℕ
  animated : Bool
  data : Bytes
  sha256 : String := ""
  deriving DecidableEq, Repr

def decodeConfig (config : Option (ℤ × ℤ)) (lim : Limits) : Except ImageError (ℤ × ℤ) := do
  match config with
  | none => .error .corrupt
  | some (width, height) => do
      checkDims width height lim
      pure (width, height)

def validatePNG (dec : Decoders) (data : Bytes) (lim : Limits) : Except ImageError ImageResult := do
  let (width, height) ← decodeConfig (dec.pngConfig data) lim
  let (out, frames) ← Png.sanitize data width height lim
  reject (dec.pngDecodes out = false) .corrupt
  pure
    { mime := "image/png", ext := "png", width, height, frames, orientation := 1
      animated := 1 < frames, data := out }

def validateJPEG (dec : Decoders) (data : Bytes) (lim : Limits) : Except ImageError ImageResult := do
  let (width, height) ← decodeConfig (dec.jpegConfig data) lim
  let (out, orientation) ← Jpeg.sanitize data
  reject (dec.jpegDecodes out = false) .corrupt
  pure
    { mime := "image/jpeg", ext := "jpg", width, height, frames := 1, orientation
      animated := false, data := out }

def validateGIF (dec : Decoders) (data : Bytes) (lim : Limits) : Except ImageError ImageResult := do
  let (width, height) ← decodeConfig (dec.gifConfig data) lim
  let frames ← Gif.scan data lim
  reject (dec.gifDecodes data = false) .corrupt
  pure
    { mime := "image/gif", ext := "gif", width, height, frames, orientation := 1
      animated := 1 < frames, data }

def jpegStart : Bytes := [0xFF, 0xD8, 0xFF]

def gif87a : Bytes := [0x47, 0x49, 0x46, 0x38, 0x37, 0x61]

def gif89a : Bytes := [0x47, 0x49, 0x46, 0x38, 0x39, 0x61]

/-- The check for the format that the data starts as. -/
def validateFormat (dec : Decoders) (data : Bytes) (lim : Limits) : Except ImageError ImageResult :=
  if Png.signature.isPrefixOf data then validatePNG dec data lim
  else if jpegStart.isPrefixOf data then validateJPEG dec data lim
  else if gif87a.isPrefixOf data || gif89a.isPrefixOf data then validateGIF dec data lim
  else .error .unsupportedFormat

def hexSha256 (data : Bytes) : String := encodeHex (sum256 (data.map (·.toNat)))

/-- `Validate`. -/
def validate (dec : Decoders) (data : Bytes) (lim : Limits) : Except ImageError ImageResult := do
  reject (data = []) .corrupt
  reject (exceeds lim.maxBytes data.length) .tooLarge
  let res ← validateFormat dec data lim
  pure { res with sha256 := hexSha256 res.data }

/-- The image can be uploaded as it was stored, with the same result. -/
def StoredAgain (dec : Decoders) (data : Bytes) (lim : Limits) : Prop :=
  ∀ res, validate dec data lim = .ok res →
    validate dec res.data lim = .ok res ∧ ¬ exceeds lim.maxBytes res.data.length

/-- The segment with the orientation of a JPEG fits in the room that the metadata leaves. -/
def FitsAgain (data : Bytes) (lim : Limits) : Prop :=
  jpegStart.isPrefixOf data = true →
    match Jpeg.header data with
    | .ok (segs, _) =>
        Jpeg.orientationOf segs = 1 ∨
          ¬ exceeds lim.maxBytes (data.length - Jpeg.droppedLength segs + 36)
    | .error _ => True

instance (data : Bytes) (lim : Limits) : Decidable (FitsAgain data lim) := by
  unfold FitsAgain
  split <;> infer_instance

/-! ## The formats -/

theorem Decoders.IgnoresDropped.pngConfig_kept {dec : Decoders} (h : dec.IgnoresDropped)
    {before chunks : List Png.Chunk} (hbefore : ∀ c ∈ before, Png.IsChunk c)
    (hchunks : ∀ c ∈ chunks, Png.IsChunk c) :
    dec.pngConfig (Png.signature ++ Png.rawBytes before ++ Png.rawBytes chunks) =
      dec.pngConfig (Png.signature ++ Png.rawBytes before ++
        Png.rawBytes (chunks.filter (!Png.isDropped ·))) := by
  induction chunks generalizing before with
  | nil => rfl
  | cons chunk chunks ih =>
      obtain ⟨hchunk, hchunks⟩ := List.forall_mem_cons.mp hchunks
      have hcons : ∀ l, Png.rawBytes (chunk :: l) = chunk.raw ++ Png.rawBytes l := fun _ => rfl
      by_cases hdrop : Png.isDropped chunk = true
      · rw [List.filter_cons_of_neg (by simp [hdrop]), hcons, h.png before chunk _ hbefore hchunk hdrop]
        exact ih hbefore hchunks
      · have hsnoc : ∀ l, Png.signature ++ Png.rawBytes before ++ (chunk.raw ++ l) =
            Png.signature ++ Png.rawBytes (before ++ [chunk]) ++ l := by
          intro l
          simp [Png.rawBytes]
        rw [List.filter_cons_of_pos (by simp [hdrop]), hcons, hcons, hsnoc, hsnoc]
        refine ih (fun c hc => ?_) hchunks
        rcases List.mem_append.mp hc with hc | hc
        · exact hbefore c hc
        · exact List.mem_singleton.mp hc ▸ hchunk

theorem Decoders.IgnoresDropped.jpegConfig_kept {dec : Decoders} (h : dec.IgnoresDropped)
    {before segs : List Jpeg.Segment} (scan : Bytes)
    (hbefore : ∀ s ∈ before, Jpeg.IsSegment s ∧ s.marker ≠ Jpeg.sos)
    (hsegs : ∀ s ∈ segs, Jpeg.IsSegment s ∧ s.marker ≠ Jpeg.sos) :
    dec.jpegConfig ([0xFF, Jpeg.soi] ++ Jpeg.rawBytes before ++ (Jpeg.rawBytes segs ++ scan)) =
      dec.jpegConfig ([0xFF, Jpeg.soi] ++ Jpeg.rawBytes before ++
        (Jpeg.rawBytes (Jpeg.kept segs) ++ scan)) := by
  induction segs generalizing before with
  | nil => rfl
  | cons seg segs ih =>
      obtain ⟨hseg, hsegs⟩ := List.forall_mem_cons.mp hsegs
      by_cases hdrop : Jpeg.isMetadata seg.marker = true
      · rw [Jpeg.kept, List.filter_cons_of_neg (by simp [hdrop]), Jpeg.rawBytes_cons_append,
          h.jpeg before seg _ hbefore hseg.1 hdrop]
        exact ih hbefore hsegs
      · have hsnoc : ∀ l, [0xFF, Jpeg.soi] ++ Jpeg.rawBytes before ++ (seg.raw ++ l) =
            [0xFF, Jpeg.soi] ++ Jpeg.rawBytes (before ++ [seg]) ++ l := by
          intro l
          simp [Jpeg.rawBytes]
        rw [Jpeg.kept, List.filter_cons_of_pos (by simp [hdrop]), Jpeg.rawBytes_cons_append,
          Jpeg.rawBytes_cons_append, hsnoc, hsnoc]
        refine ih (fun s hs => ?_) hsegs
        rcases List.mem_append.mp hs with hs | hs
        · exact hbefore s hs
        · exact List.mem_singleton.mp hs ▸ hseg

/-- The dimensions of what is stored are those of the image. -/
theorem Decoders.IgnoresDropped.jpegConfig_sanitize {dec : Decoders} (h : dec.IgnoresDropped)
    {data out : Bytes} {orientation : ℕ} (hout : Jpeg.sanitize data = .ok (out, orientation)) :
    dec.jpegConfig out = dec.jpegConfig data := by
  obtain ⟨segs, scan, -, hheader, rfl, -, rfl, rfl⟩ := Jpeg.sanitize_eq_ok hout
  have hkept : ∀ {l : List Jpeg.Segment}, Jpeg.IsHeader l scan →
      dec.jpegConfig ([0xFF, Jpeg.soi] ++ Jpeg.rawBytes l ++ scan) =
        dec.jpegConfig ([0xFF, Jpeg.soi] ++ Jpeg.rawBytes (Jpeg.kept l) ++ scan) := by
    intro l hl
    rw [List.append_assoc, List.append_assoc]
    exact @Decoders.IgnoresDropped.jpegConfig_kept dec h [] l scan (by simp) fun s hs => ⟨hl.segment s hs, hl.notScan s hs⟩
  rw [hkept (hheader.sanitized _), Jpeg.kept_insertOrientation, ← hkept hheader]

theorem validatePNG_again {dec : Decoders} (h : dec.IgnoresDropped) {data : Bytes} {lim : Limits}
    {res : ImageResult} (hsign : Png.signature <+: data) (hres : validatePNG dec data lim = .ok res) :
    Png.signature <+: res.data ∧ validatePNG dec res.data lim = .ok res := by
  simp only [validatePNG, bind_eq_ok, reject_eq_ok, pure_eq_ok] at hres
  obtain ⟨⟨width, height⟩, hconfig, ⟨out, frames⟩, hout, -, hdecodes, rfl⟩ := hres
  obtain ⟨chunks, hchunks, rfl, rfl, hagain⟩ := Png.sanitize_eq_ok hsign hout
  have hsame := @Decoders.IgnoresDropped.pngConfig_kept dec h [] chunks (by simp) hchunks
  rw [Png.rawBytes, List.flatMap_nil, List.append_nil] at hsame
  refine ⟨List.prefix_append _ _, ?_⟩
  rw [validatePNG, ← hsame, hconfig, ok_bind]
  dsimp only
  rw [hagain, ok_bind]
  dsimp only
  rw [reject_bind_of_not hdecodes]
  rfl

theorem validateJPEG_again {dec : Decoders} (h : dec.IgnoresDropped) {data : Bytes} {lim : Limits}
    {res : ImageResult} (hres : validateJPEG dec data lim = .ok res) :
    jpegStart <+: res.data ∧ validateJPEG dec res.data lim = .ok res := by
  simp only [validateJPEG, bind_eq_ok, reject_eq_ok, pure_eq_ok] at hres
  obtain ⟨⟨width, height⟩, hconfig, ⟨out, orientation⟩, hout, -, hdecodes, rfl⟩ := hres
  have hsame := h.jpegConfig_sanitize hout
  refine ⟨?_, ?_⟩
  · obtain ⟨segs, scan, -, hheader, -, -, -, rfl⟩ := Jpeg.sanitize_eq_ok hout
    obtain ⟨tail, htail⟩ := (hheader.sanitized orientation).head_rawBytes
    dsimp only
    rw [List.append_assoc, htail]
    exact ⟨tail, rfl⟩
  · rw [validateJPEG, hsame, hconfig, ok_bind]
    dsimp only
    rw [Jpeg.sanitize_again hout, ok_bind]
    dsimp only
    rw [reject_bind_of_not hdecodes]
    rfl

theorem not_signature_of_jpegStart {data : Bytes} (h : jpegStart <+: data) :
    Png.signature.isPrefixOf data = false := by
  obtain ⟨tail, rfl⟩ := h
  rfl

/-- An image is stored in a form that is checked with the same result. -/
theorem validateFormat_again {dec : Decoders} (h : dec.IgnoresDropped) {data : Bytes} {lim : Limits}
    {res : ImageResult} (hres : validateFormat dec data lim = .ok res) :
    validateFormat dec res.data lim = .ok res := by
  have hformat : validateFormat dec data lim = .ok res := hres
  unfold validateFormat at hres
  split at hres
  · rename_i hsign
    obtain ⟨hsign', hagain⟩ := validatePNG_again h (List.isPrefixOf_iff_prefix.mp hsign) hres
    rw [validateFormat, if_pos (List.isPrefixOf_iff_prefix.mpr hsign'), hagain]
  · split at hres
    · obtain ⟨hstart, hagain⟩ := validateJPEG_again h hres
      rw [validateFormat, not_signature_of_jpegStart hstart, if_neg Bool.false_ne_true,
        if_pos (List.isPrefixOf_iff_prefix.mpr hstart), hagain]
    · split at hres
      · -- A GIF is returned as it came.
        have hdata : res.data = data := by
          simp only [validateGIF, bind_eq_ok, reject_eq_ok, pure_eq_ok] at hres
          obtain ⟨-, -, frames, -, -, -, rfl⟩ := hres
          rfl
        rw [hdata, hformat]
      · cases hres

/-- What is stored is no longer than the image, but for a JPEG with an orientation. -/
theorem length_validateFormat {dec : Decoders} {data : Bytes} {lim : Limits} {res : ImageResult}
    (hres : validateFormat dec data lim = .ok res) :
    (jpegStart.isPrefixOf data = true ∧ Jpeg.sanitize data = .ok (res.data, res.orientation)) ∨
      (jpegStart.isPrefixOf data = false ∧ res.data.length ≤ data.length) := by
  unfold validateFormat at hres
  split at hres
  · rename_i hsign
    rw [List.isPrefixOf_iff_prefix] at hsign
    simp only [validatePNG, bind_eq_ok, reject_eq_ok, pure_eq_ok] at hres
    obtain ⟨⟨width, height⟩, -, ⟨out, frames⟩, hout, -, -, rfl⟩ := hres
    obtain ⟨chunks, -, rfl, rfl, -⟩ := Png.sanitize_eq_ok hsign hout
    refine .inr ⟨rfl, ?_⟩
    dsimp only
    rw [List.length_append, List.length_append]
    exact Nat.add_le_add_left (Png.length_rawBytes_filter_le _ chunks) _
  · split at hres
    · rename_i hstart
      simp only [validateJPEG, bind_eq_ok, reject_eq_ok, pure_eq_ok] at hres
      obtain ⟨⟨width, height⟩, -, ⟨out, orientation⟩, hout, -, -, rfl⟩ := hres
      exact .inl ⟨hstart, hout⟩
    · rename_i hstart
      split at hres
      · simp only [validateGIF, bind_eq_ok, reject_eq_ok, pure_eq_ok] at hres
        obtain ⟨-, -, frames, -, -, -, rfl⟩ := hres
        exact .inr ⟨Bool.eq_false_iff.mpr hstart, le_rfl⟩
      · cases hres

theorem validate_eq_ok {dec : Decoders} {data : Bytes} {lim : Limits} {res : ImageResult}
    (hres : validate dec data lim = .ok res) : data ≠ [] ∧ ¬ exceeds lim.maxBytes data.length ∧
      ∃ res', validateFormat dec data lim = .ok res' ∧
        res = { res' with sha256 := hexSha256 res'.data } := by
  simp only [validate, bind_eq_ok, reject_eq_ok, pure_eq_ok] at hres
  obtain ⟨-, hne, -, hover, res', hformat, rfl⟩ := hres
  exact ⟨hne, hover, res', hformat, rfl⟩

/-- The format is decided by the first bytes, so what is stored is not empty. -/
theorem ne_nil_of_validateFormat {dec : Decoders} {data : Bytes} {lim : Limits} {res : ImageResult}
    (hres : validateFormat dec data lim = .ok res) : data ≠ [] := by
  rintro rfl
  cases hres

/-- What is stored is stored again, if only it is within the limit. -/
theorem storedAgain_iff_within {dec : Decoders} (h : dec.IgnoresDropped) (data : Bytes)
    (lim : Limits) : StoredAgain dec data lim ↔
      ∀ res, validate dec data lim = .ok res → ¬ exceeds lim.maxBytes res.data.length := by
  refine ⟨fun hstored res hres => (hstored res hres).2, fun hwithin res hres => ?_⟩
  refine ⟨?_, hwithin res hres⟩
  have hover := hwithin res hres
  obtain ⟨-, -, res', hformat, rfl⟩ := validate_eq_ok hres
  have hagain := validateFormat_again h hformat
  dsimp only at hover ⊢
  rw [validate, reject_bind_of_not (ne_nil_of_validateFormat hagain), reject_bind_of_not hover, hagain]
  rfl

/-- Validation is idempotent exactly on the images that leave room for the orientation. -/
theorem storedAgain_iff {dec : Decoders} (h : dec.IgnoresDropped) (data : Bytes) (lim : Limits) :
    StoredAgain dec data lim ↔ ((validate dec data lim).isOk = true → FitsAgain data lim) := by
  rw [storedAgain_iff_within h]
  -- On an accepted image the two conditions speak of the same length.
  have hlength : ∀ {res : ImageResult}, validate dec data lim = .ok res →
      (¬ exceeds lim.maxBytes res.data.length ↔ FitsAgain data lim) := by
    intro res hres
    obtain ⟨-, hover, res', hformat, rfl⟩ := validate_eq_ok hres
    dsimp only
    rcases length_validateFormat hformat with ⟨hstart, hout⟩ | ⟨hstart, hlen⟩
    · obtain ⟨segs, scan, hhead, horientation, hlen⟩ := Jpeg.length_sanitize hout
      have hfits : FitsAgain data lim ↔ Jpeg.orientationOf segs = 1 ∨
          ¬ exceeds lim.maxBytes (data.length - Jpeg.droppedLength segs + 36) := by
        unfold FitsAgain
        rw [hhead]
        exact ⟨fun hf => hf hstart, fun hf _ => hf⟩
      rw [hfits, ← horientation]
      by_cases hone : res'.orientation = 1
      · rw [if_pos hone] at hlen
        exact iff_of_true (fun ho => hover (exceeds_mono (by omega) ho)) (.inl hone)
      · rw [if_neg hone] at hlen
        have heq : (res'.data.length : ℤ) = data.length - Jpeg.droppedLength segs + 36 := by omega
        rw [heq, or_iff_right hone]
    · refine iff_of_true (fun ho => hover (exceeds_mono (by omega) ho)) fun hstart' => ?_
      rw [hstart] at hstart'
      cases hstart'
  constructor
  · intro hwithin hok
    obtain ⟨res, hres⟩ := exists_of_isOk hok
    exact (hlength hres).mp (hwithin res hres)
  · intro hfits res hres
    exact (hlength hres).mpr (hfits (by rw [hres]; rfl))

/-- What the decoders say of an image of one pixel. -/
def onePixel : Decoders where
  pngConfig _ := some (1, 1)
  pngDecodes _ := true
  jpegConfig _ := some (1, 1)
  jpegDecodes _ := true
  gifConfig _ := some (1, 1)
  gifDecodes _ := true

theorem ignoresDropped_onePixel : onePixel.IgnoresDropped :=
  ⟨fun _ _ _ _ _ _ => rfl, fun _ _ _ _ _ _ => rfl⟩

/-- A JPEG of one grey pixel: a quantization table, a frame, two Huffman tables and a scan. -/
def greyPixel : Bytes :=
  [0xFF, 0xDB, 0x00, 0x43, 0x00] ++ List.replicate 64 0x01 ++
    [0xFF, 0xC0, 0x00, 0x0B, 0x08, 0x00, 0x01, 0x00, 0x01, 0x01, 0x01, 0x11, 0x00] ++
    [0xFF, 0xC4, 0x00, 0x14, 0x00, 0x01] ++ List.replicate 16 0x00 ++
    [0xFF, 0xC4, 0x00, 0x14, 0x10, 0x01] ++ List.replicate 16 0x00 ++
    [0xFF, 0xDA, 0x00, 0x08, 0x01, 0x01, 0x00, 0x00, 0x3F, 0x00, 0x3F, 0xFF, 0xD9]

/-- The shortest EXIF segment with an orientation, of 32 bytes: nothing follows its one entry. -/
def shortOrientation : Bytes :=
  [0xFF, 0xE1, 0x00, 0x1E, 0x45, 0x78, 0x69, 0x66, 0x00, 0x00,
    0x49, 0x49, 0x2A, 0x00, 0x08, 0x00, 0x00, 0x00, 0x01, 0x00,
    0x12, 0x01, 0x03, 0x00, 0x01, 0x00, 0x00, 0x00, 0x06, 0x00, 0x00, 0x00]

/-- The pixel on its side. -/
def turnedPixel : Bytes := [0xFF, 0xD8] ++ shortOrientation ++ greyPixel

/-- There is room for four bytes more than the image has. -/
theorem storedAgain_turnedPixel : StoredAgain onePixel turnedPixel { defaultLimits with maxBytes := 177 } :=
  (storedAgain_iff ignoresDropped_onePixel turnedPixel { defaultLimits with maxBytes := 177 }).mpr
    fun _ => by decide +kernel

/-- At the limit the stored image is too large to be uploaded. -/
theorem turnedPixel_tooLarge :
    ¬ ∀ dec : Decoders, dec.IgnoresDropped → ∀ data lim, StoredAgain dec data lim := by
  intro h
  have hok : (validate onePixel turnedPixel { defaultLimits with maxBytes := 173 }).isOk = true := by
    decide +kernel
  obtain ⟨res, hres⟩ := exists_of_isOk hok
  have hwithin := (h onePixel ignoresDropped_onePixel _ _ res hres).2
  obtain ⟨-, -, res', hformat, rfl⟩ := validate_eq_ok hres
  have hout : Jpeg.sanitize turnedPixel =
      .ok ([0xFF, 0xD8] ++ (Jpeg.orientationSegment 6).raw ++ greyPixel, 6) := by decide +kernel
  rcases length_validateFormat hformat with ⟨-, hout'⟩ | ⟨hstart, -⟩
  · rw [hout] at hout'
    rw [Except.ok.injEq, Prod.mk.injEq] at hout'
    dsimp only at hwithin
    rw [← hout'.1] at hwithin
    exact hwithin (by decide +kernel)
  · cases hstart

end Scrumboy
