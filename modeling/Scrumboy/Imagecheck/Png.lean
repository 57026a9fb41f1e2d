import Mathlib
import Scrumboy.Imagecheck.Limits

/-!
# PNG images

A PNG is a signature and a sequence of chunks. The sanitizer walks the chunks with the state of a
possible animation, and drops the ones with text, times and EXIF data. No check on the way looks
at a chunk that is dropped, so that what is written is walked in the same way again.
-/

namespace Scrumboy

open Go

namespace Png

def signature : Bytes := [0x89, 0x50, 0x4E, 0x47, 0x0D, 0x0A, 0x1A, 0x0A]

def ihdr : Bytes := [0x49, 0x48, 0x44, 0x52]

def idat : Bytes := [0x49, 0x44, 0x41, 0x54]

def iend : Bytes := [0x49, 0x45, 0x4E, 0x44]

def actl : Bytes := [0x61, 0x63, 0x54, 0x4C]

def fctl : Bytes := [0x66, 0x63, 0x54, 0x4C]

def fdat : Bytes := [0x66, 0x64, 0x41, 0x54]

/-- The chunk types eXIf, tEXt, iTXt, zTXt and tIME. -/
def droppedChunks : List Bytes :=
  [[0x65, 0x58, 0x49, 0x66], [0x74, 0x45, 0x58, 0x74], [0x69, 0x54, 0x58, 0x74],
    [0x7A, 0x54, 0x58, 0x74], [0x74, 0x49, 0x4D, 0x45]]

def uint32 (bytes : Bytes) : UInt32 := UInt32.ofNat (Bytes.bigEndian bytes)

/-- `crc32.ChecksumIEEE`, bit by bit. -/
def crc32 (bytes : Bytes) : UInt32 :=
  let bit (crc : UInt32) : UInt32 := if crc &&& 1 = 1 then (crc >>> 1) ^^^ 0xEDB88320 else crc >>> 1
  let byte (crc : UInt32) (b : UInt8) : UInt32 := bit^[8] (crc ^^^ b.toUInt32)
  bytes.foldl byte 0xFFFFFFFF ^^^ 0xFFFFFFFF

structure Chunk where
  kind : Bytes
  body : Bytes
  raw : Bytes
  deriving DecidableEq, Repr

def isDropped (chunk : Chunk) : Bool := droppedChunks.contains chunk.kind

/-- The next chunk, with its checksum verified, and what follows. -/
def readChunk (data : Bytes) : Except ImageError (Chunk × Bytes) := do
  reject (data.length < 12) .corrupt
  let length := (uint32 (Bytes.slice data 0 4)).toNat
  reject (data.length - 12 < length) .corrupt
  reject (crc32 (Bytes.slice data 4 (4 + length)) ≠ uint32 (Bytes.slice data (8 + length) 4)) .corrupt
  pure (⟨Bytes.slice data 4 4, Bytes.slice data 8 length, data.take (12 + length)⟩,
    data.drop (12 + length))

structure ApngState where
  hasACTL : Bool := false
  numFrames : UInt32 := 0
  fcTLCount : UInt32 := 0
  nextSeq : UInt32 := 0
  frameOpen : Bool := false
  areaSum : ℤ := 0
  deriving DecidableEq, Repr

/-- A frame control chunk. -/
def ApngState.fcTL (st : ApngState) (body : Bytes) (seenIDAT : Bool) (width height : ℤ)
    (lim : Limits) : Except ImageError ApngState := do
  reject (st.hasACTL = false ∨ body.length ≠ 26 ∨ st.frameOpen = true) .invalidAnimation
  reject (uint32 (Bytes.slice body 0 4) ≠ st.nextSeq) .invalidAnimation
  let w := uint32 (Bytes.slice body 4 4)
  let h := uint32 (Bytes.slice body 8 4)
  let x := uint32 (Bytes.slice body 12 4)
  let y := uint32 (Bytes.slice body 16 4)
  reject (w = 0 ∨ h = 0 ∨ 2 < body.getD 24 0 ∨ 1 < body.getD 25 0) .invalidAnimation
  reject (width < x.toNat + w.toNat ∨ height < y.toNat + h.toNat) .invalidAnimation
  -- The default image is the first frame: it must cover the whole canvas.
  reject (seenIDAT = false ∧
    (st.fcTLCount ≠ 0 ∨ x ≠ 0 ∨ y ≠ 0 ∨ (w.toNat : ℤ) ≠ width ∨ (h.toNat : ℤ) ≠ height))
    .invalidAnimation
  let fcTLCount := st.fcTLCount + 1
  reject (st.numFrames < fcTLCount) .invalidAnimation
  let areaSum := wrap (st.areaSum + wrap (w.toNat * h.toNat))
  reject (exceeds lim.maxTotalFramePixels areaSum) .tooManyFrames
  pure { st with nextSeq := st.nextSeq + 1, fcTLCount, areaSum, frameOpen := true }

structure WalkState where
  first : Bool := true
  seenIDAT : Bool := false
  seenIEND : Bool := false
  apng : ApngState := {}
  deriving DecidableEq, Repr

/-- The checks on one chunk. -/
def WalkState.step (st : WalkState) (chunk : Chunk) (width height : ℤ) (lim : Limits) :
    Except ImageError WalkState := do
  reject (st.first = true ∧ (chunk.kind ≠ ihdr ∨ chunk.body.length ≠ 13)) .corrupt
  let st := { st with first := false }
  if chunk.kind = idat then
    pure { st with seenIDAT := true, apng := { st.apng with frameOpen := false } }
  else if chunk.kind = iend then pure { st with seenIEND := true }
  else if chunk.kind = actl then do
    reject (st.apng.hasACTL = true ∨ st.seenIDAT = true ∨ chunk.body.length ≠ 8) .invalidAnimation
    let numFrames := uint32 (Bytes.slice chunk.body 0 4)
    reject (numFrames = 0) .invalidAnimation
    -- The limit is converted to uint32 for the comparison.
    reject (0 < lim.maxFrames ∧ lim.maxFrames % 4294967296 < numFrames.toNat) .tooManyFrames
    pure { st with apng := { st.apng with hasACTL := true, numFrames } }
  else if chunk.kind = fctl then do
    let apng ← st.apng.fcTL chunk.body st.seenIDAT width height lim
    pure { st with apng }
  else if chunk.kind = fdat then do
    reject (st.apng.hasACTL = false ∨ st.apng.fcTLCount = 0 ∨ st.seenIDAT = false ∨
      chunk.body.length < 4) .invalidAnimation
    reject (uint32 (Bytes.slice chunk.body 0 4) ≠ st.apng.nextSeq) .invalidAnimation
    pure { st with apng := { st.apng with nextSeq := st.apng.nextSeq + 1, frameOpen := false } }
  else pure st

/-- The chunks of the rest of the data. Each takes twelve bytes or more, so the length of the data
is enough fuel. -/
def walk (width height : ℤ) (lim : Limits) :
    ℕ → WalkState → Bytes → Except ImageError (List Chunk × WalkState)
  | _, st, [] => pure ([], st)
  | 0, _, _ => .error .corrupt
  | fuel + 1, st, data => do
      reject (st.seenIEND = true) .trailingData
      let (chunk, rest) ← readChunk data
      let st ← st.step chunk width height lim
      let (chunks, st) ← walk width height lim fuel st rest
      pure (chunk :: chunks, st)

def rawBytes (chunks : List Chunk) : Bytes := chunks.flatMap (·.raw)

/-- `sanitizePNG`. -/
def sanitize (data : Bytes) (width height : ℤ) (lim : Limits) : Except ImageError (Bytes × ℕ) := do
  let (chunks, st) ← walk width height lim data.length {} (data.drop signature.length)
  reject (st.seenIEND = false ∨ st.seenIDAT = false) .corrupt
  let out := signature ++ rawBytes (chunks.filter (!isDropped ·))
  if st.apng.hasACTL = false then pure (out, 1)
  else do
    reject (st.apng.frameOpen = true ∨ st.apng.fcTLCount ≠ st.apng.numFrames) .invalidAnimation
    pure (out, st.apng.numFrames.toNat)

/-! ## Reading a chunk again -/

/-- A chunk that is read back from its bytes, whatever follows. -/
def IsChunk (chunk : Chunk) : Prop :=
  chunk.raw ≠ [] ∧ ∀ rest, readChunk (chunk.raw ++ rest) = .ok (chunk, rest)

theorem readChunk_eq_ok {data rest : Bytes} {chunk : Chunk} (h : readChunk data = .ok (chunk, rest)) :
    data = chunk.raw ++ rest ∧ IsChunk chunk := by
  simp only [readChunk, bind_eq_ok, reject_eq_ok, pure_eq_ok, Prod.mk.injEq, not_lt, not_not] at h
  obtain ⟨-, hlen, -, hlength, -, hcrc, rfl, rfl⟩ := h
  set n := (uint32 (Bytes.slice data 0 4)).toNat with hn
  have hsize : (data.take (12 + n)).length = 12 + n := List.length_take_of_le (by omega)
  refine ⟨(List.take_append_drop _ _).symm, ?_, fun rest => ?_⟩
  · exact List.ne_nil_of_length_pos (by dsimp only; omega)
  · have hslice : ∀ {start k : ℕ}, start + k ≤ 12 + n →
        Bytes.slice (data.take (12 + n) ++ rest) start k = Bytes.slice data start k :=
      fun hk => Bytes.slice_take_append hk (by omega)
    have hnum : (uint32 (Bytes.slice (data.take (12 + n) ++ rest) 0 4)).toNat = n := by
      rw [hslice (by omega)]
    dsimp only
    rw [readChunk, reject_bind_of_not (by rw [List.length_append]; omega)]
    dsimp only
    rw [hnum, reject_bind_of_not (by rw [List.length_append]; omega), hslice (by omega),
      hslice (by omega), reject_bind_of_not (not_not.mpr hcrc), hslice (by omega), hslice (by omega),
      List.take_left' hsize, List.drop_left' hsize]
    rfl

/-! ## Walking what was kept -/

/-- No check looks at a chunk that is dropped. -/
theorem step_of_isDropped {st st' : WalkState} {chunk : Chunk} {width height : ℤ} {lim : Limits}
    (hdrop : isDropped chunk = true) (h : st.step chunk width height lim = .ok st') : st' = st := by
  have hne : ∀ kind : Bytes, droppedChunks.contains kind = false → chunk.kind ≠ kind := by
    intro kind hkind heq
    rw [isDropped, heq, hkind] at hdrop
    cases hdrop
  simp only [WalkState.step, bind_eq_ok, reject_eq_ok, not_and_or, not_or, not_not,
    if_neg (hne idat rfl), if_neg (hne iend rfl), if_neg (hne actl rfl), if_neg (hne fctl rfl),
    if_neg (hne fdat rfl), pure_eq_ok] at h
  obtain ⟨-, hfirst, rfl⟩ := h
  rcases hfirst with hfirst | hfirst
  · cases st with
    | mk first seenIDAT seenIEND apng =>
        cases first with
        | false => rfl
        | true => exact absurd rfl hfirst
  · exact absurd hfirst.1 (hne ihdr rfl)

theorem walk_cons {width height : ℤ} {lim : Limits} {fuel : ℕ} {st : WalkState} {data : Bytes}
    (h : data ≠ []) : walk width height lim (fuel + 1) st data = (do
      reject (st.seenIEND = true) .trailingData
      let (chunk, rest) ← readChunk data
      let st ← st.step chunk width height lim
      let (chunks, st) ← walk width height lim fuel st rest
      pure (chunk :: chunks, st)) := by
  cases data with
  | nil => exact absurd rfl h
  | cons b data => rfl

/-- The chunks that are kept are walked to the same state. -/
theorem walk_kept {width height : ℤ} {lim : Limits} {fuel : ℕ} {st last : WalkState} {data : Bytes}
    {chunks : List Chunk} (h : walk width height lim fuel st data = .ok (chunks, last)) :
    data = rawBytes chunks ∧ (∀ chunk ∈ chunks, IsChunk chunk) ∧
      ∀ fuel', (chunks.filter (!isDropped ·)).length ≤ fuel' →
        walk width height lim fuel' st (rawBytes (chunks.filter (!isDropped ·))) =
          .ok (chunks.filter (!isDropped ·), last) := by
  induction fuel generalizing st data chunks with
  | zero =>
      cases data with
      | nil =>
          cases h
          exact ⟨rfl, by simp, fun fuel' _ => by cases fuel' <;> rfl⟩
      | cons b data => cases h
  | succ fuel ih =>
      by_cases hdata : data = []
      · subst hdata
        cases h
        exact ⟨rfl, by simp, fun fuel' _ => by cases fuel' <;> rfl⟩
      · rw [walk_cons hdata] at h
        simp only [bind_eq_ok, reject_eq_ok, pure_eq_ok, Prod.mk.injEq] at h
        obtain ⟨-, hend, ⟨chunk, rest⟩, hread, st', hstep, ⟨chunks', last'⟩, hwalk, rfl, rfl⟩ := h
        obtain ⟨rfl, hchunk⟩ := readChunk_eq_ok hread
        dsimp only at hstep hwalk ⊢
        obtain ⟨hrest, hchunks, hagain⟩ := ih hwalk
        refine ⟨by rw [hrest]; rfl, List.forall_mem_cons.mpr ⟨hchunk, hchunks⟩, ?_⟩
        intro fuel' hfuel'
        by_cases hdrop : isDropped chunk = true
        · rw [List.filter_cons_of_neg (by simp [hdrop])] at hfuel' ⊢
          rw [← step_of_isDropped hdrop hstep]
          exact hagain fuel' hfuel'
        · rw [List.filter_cons_of_pos (by simp [hdrop])] at hfuel' ⊢
          obtain ⟨n, rfl⟩ := Nat.exists_eq_add_of_lt (lt_of_lt_of_le (Nat.succ_pos _) hfuel')
          have hraw : rawBytes (chunk :: chunks'.filter (!isDropped ·)) =
              chunk.raw ++ rawBytes (chunks'.filter (!isDropped ·)) := rfl
          have hne : chunk.raw ++ rawBytes (chunks'.filter (!isDropped ·)) ≠ [] :=
            List.append_ne_nil_of_left_ne_nil hchunk.1 _
          rw [hraw, walk_cons hne, reject_bind_of_not hend, hchunk.2, ok_bind]
          dsimp only
          rw [hstep, ok_bind, hagain _ (by rw [List.length_cons] at hfuel'; omega)]
          rfl

theorem length_le_rawBytes {chunks : List Chunk} (h : ∀ chunk ∈ chunks, IsChunk chunk) :
    chunks.length ≤ (rawBytes chunks).length := by
  induction chunks with
  | nil => exact le_rfl
  | cons chunk chunks ih =>
      have hraw := List.length_pos_iff.mpr (h chunk List.mem_cons_self).1
      have hchunks := ih fun c hc => h c (List.mem_cons_of_mem _ hc)
      have hcons : rawBytes (chunk :: chunks) = chunk.raw ++ rawBytes chunks := rfl
      rw [hcons, List.length_append, List.length_cons]
      omega

theorem length_rawBytes_filter_le (p : Chunk → Bool) (chunks : List Chunk) :
    (rawBytes (chunks.filter p)).length ≤ (rawBytes chunks).length :=
  (List.filter_sublist.flatMap _).length_le

/-- An image that is accepted, in its chunks: the ones that are kept are written, and are accepted
as they are. -/
theorem sanitize_eq_ok {data out : Bytes} {frames : ℕ} {width height : ℤ} {lim : Limits}
    (hsign : signature <+: data) (h : sanitize data width height lim = .ok (out, frames)) :
    ∃ chunks, (∀ chunk ∈ chunks, IsChunk chunk) ∧ data = signature ++ rawBytes chunks ∧
      out = signature ++ rawBytes (chunks.filter (!isDropped ·)) ∧
      sanitize out width height lim = .ok (out, frames) := by
  obtain ⟨tail, rfl⟩ := hsign
  rw [sanitize, bind_eq_ok, List.drop_left' rfl] at h
  obtain ⟨⟨chunks, st⟩, hwalk, h⟩ := h
  rw [bind_eq_ok] at h
  obtain ⟨u, hend, h⟩ := h
  obtain ⟨rfl, hchunks, hagain⟩ := walk_kept hwalk
  have hkept : ∀ chunk ∈ chunks.filter (!isDropped ·), IsChunk chunk :=
    fun chunk hchunk => hchunks chunk (List.mem_of_mem_filter hchunk)
  have hfilter : (chunks.filter (!isDropped ·)).filter (!isDropped ·) =
      chunks.filter (!isDropped ·) := by
    rw [List.filter_filter]
    congr 1
    funext chunk
    exact Bool.and_self _
  have hout : out = signature ++ rawBytes (chunks.filter (!isDropped ·)) := by
    dsimp only at h
    split at h
    · cases h
      rfl
    · rw [bind_eq_ok] at h
      obtain ⟨-, -, h⟩ := h
      cases h
      rfl
  refine ⟨chunks, hchunks, rfl, hout, ?_⟩
  rw [hout] at h ⊢
  rw [sanitize, List.drop_left' rfl, hagain _ ?_, ok_bind]
  · dsimp only
    rw [hend, ok_bind, hfilter]
    exact h
  · have hlen := length_le_rawBytes hkept
    rw [List.length_append]
    omega

end Png

end Scrumboy
