import Scrumboy.Go.Cursor
import Scrumboy.Imagecheck.Png

/-!
# The PNG sanitizer with its cursor

`sanitizePNG` as the source walks it, with its cursor and its indexes into the chunks. It takes no
index outside of a slice, and does what `sanitize` does, which reads the chunks off a list.
-/

namespace Scrumboy

open Go

namespace Png

/-- The big-endian number in `data[low:low+4]`. -/
def readUint32 (data : Bytes) (low : ℕ) : Except (Stop ImageError) UInt32 := uint32 <$> readSlice data low 4

def readChunkAt (data : Bytes) (pos : ℕ) : Except (Stop ImageError) (Chunk × ℕ) := do
  reject (data.length - pos < 12) (.failed .corrupt)
  let length ← readUint32 data pos
  reject (data.length - pos - 12 < length.toNat) (.failed .corrupt)
  let kind ← readSlice data (pos + 4) 4
  let body ← readSlice data (pos + 8) length.toNat
  let crc ← readUint32 data (pos + 8 + length.toNat)
  let covered ← readSlice data (pos + 4) (4 + length.toNat)
  reject (crc32 covered ≠ crc) (.failed .corrupt)
  let raw ← readSlice data pos (12 + length.toNat)
  pure (⟨kind, body, raw⟩, pos + (12 + length.toNat))

def ApngState.fcTLAt (st : ApngState) (body : Bytes) (seenIDAT : Bool) (width height : ℤ)
    (lim : Limits) : Except (Stop ImageError) ApngState := do
  reject (st.hasACTL = false ∨ body.length ≠ 26 ∨ st.frameOpen = true) (.failed .invalidAnimation)
  let seq ← readUint32 body 0
  reject (seq ≠ st.nextSeq) (.failed .invalidAnimation)
  let w ← readUint32 body 4
  let h ← readUint32 body 8
  let x ← readUint32 body 12
  let y ← readUint32 body 16
  let dispose ← readAt body 24
  let blend ← readAt body 25
  reject (w = 0 ∨ h = 0 ∨ 2 < dispose ∨ 1 < blend) (.failed .invalidAnimation)
  reject (width < x.toNat + w.toNat ∨ height < y.toNat + h.toNat) (.failed .invalidAnimation)
  reject (seenIDAT = false ∧
    (st.fcTLCount ≠ 0 ∨ x ≠ 0 ∨ y ≠ 0 ∨ (w.toNat : ℤ) ≠ width ∨ (h.toNat : ℤ) ≠ height))
    (.failed .invalidAnimation)
  let fcTLCount := st.fcTLCount + 1
  reject (st.numFrames < fcTLCount) (.failed .invalidAnimation)
  let areaSum := wrap (st.areaSum + wrap (w.toNat * h.toNat))
  reject (exceeds lim.maxTotalFramePixels areaSum) (.failed .tooManyFrames)
  pure { st with nextSeq := st.nextSeq + 1, fcTLCount, areaSum, frameOpen := true }

def WalkState.stepAt (st : WalkState) (chunk : Chunk) (width height : ℤ) (lim : Limits) :
    Except (Stop ImageError) WalkState := do
  reject (st.first = true ∧ (chunk.kind ≠ ihdr ∨ chunk.body.length ≠ 13)) (.failed .corrupt)
  let st := { st with first := false }
  if chunk.kind = idat then
    pure { st with seenIDAT := true, apng := { st.apng with frameOpen := false } }
  else if chunk.kind = iend then pure { st with seenIEND := true }
  else if chunk.kind = actl then do
    reject (st.apng.hasACTL = true ∨ st.seenIDAT = true ∨ chunk.body.length ≠ 8) (.failed .invalidAnimation)
    let numFrames ← readUint32 chunk.body 0
    reject (numFrames = 0) (.failed .invalidAnimation)
    reject (0 < lim.maxFrames ∧ lim.maxFrames % 4294967296 < numFrames.toNat) (.failed .tooManyFrames)
    pure { st with apng := { st.apng with hasACTL := true, numFrames } }
  else if chunk.kind = fctl then do
    let apng ← st.apng.fcTLAt chunk.body st.seenIDAT width height lim
    pure { st with apng }
  else if chunk.kind = fdat then do
    reject (st.apng.hasACTL = false ∨ st.apng.fcTLCount = 0 ∨ st.seenIDAT = false ∨
      chunk.body.length < 4) (.failed .invalidAnimation)
    let seq ← readUint32 chunk.body 0
    reject (seq ≠ st.apng.nextSeq) (.failed .invalidAnimation)
    pure { st with apng := { st.apng with nextSeq := st.apng.nextSeq + 1, frameOpen := false } }
  else pure st

def walkAt (data : Bytes) (width height : ℤ) (lim : Limits) :
    ℕ → WalkState → ℕ → Except (Stop ImageError) (List Chunk × WalkState)
  | 0, st, pos => if data.length ≤ pos then pure ([], st) else .error .unfinished
  | fuel + 1, st, pos =>
      if data.length ≤ pos then pure ([], st)
      else do
        reject (st.seenIEND = true) (.failed .trailingData)
        let (chunk, pos) ← readChunkAt data pos
        let st ← st.stepAt chunk width height lim
        let (chunks, st) ← walkAt data width height lim fuel st pos
        pure (chunk :: chunks, st)

def sanitizePNG (data : Bytes) (width height : ℤ) (lim : Limits) :
    Except (Stop ImageError) (Bytes × ℕ) := do
  let (chunks, st) ← walkAt data width height lim data.length {} signature.length
  reject (st.seenIEND = false ∨ st.seenIDAT = false) (.failed .corrupt)
  let out := signature ++ rawBytes (chunks.filter (!isDropped ·))
  if st.apng.hasACTL = false then pure (out, 1)
  else do
    reject (st.apng.frameOpen = true ∨ st.apng.fcTLCount ≠ st.apng.numFrames) (.failed .invalidAnimation)
    pure (out, st.apng.numFrames.toNat)

section

variable {data : Bytes} {pos : ℕ} {width height : ℤ} {lim : Limits}

theorem readUint32_eq (h : pos + 4 ≤ data.length) :
    readUint32 data pos = .ok (uint32 (Bytes.slice data pos 4)) := by
  rw [readUint32, readSlice_eq h]
  rfl

/-- A chunk read at a position is the one read from what is left there. -/
theorem readChunkAt_eq : readChunkAt data pos =
    (readChunk (data.drop pos) >>= fun r => pure (r.1, data.length - r.2.length)).mapError .failed := by
  have hleft : (data.drop pos).length = data.length - pos := List.length_drop
  have hzero : ∀ n, Bytes.slice data pos n = Bytes.slice (data.drop pos) 0 n := slice_drop data pos 0
  rw [readChunkAt, readChunk, hleft]
  simp only [bind_assoc]
  refine failed_reject fun hshort => ?_
  rw [readUint32_eq (by omega), hzero]
  simp only [ok_bind]
  refine failed_reject fun hlong => ?_
  set n := (uint32 (Bytes.slice (data.drop pos) 0 4)).toNat with hn
  rw [readSlice_eq (by omega), readSlice_eq (by omega), readUint32_eq (by omega), readSlice_eq (by omega),
    add_assoc, slice_drop data pos 4 4, slice_drop data pos 8, slice_drop data pos (8 + n),
    slice_drop data pos 4]
  simp only [ok_bind]
  refine failed_reject fun _ => ?_
  have hend : data.length - ((data.drop pos).drop (12 + n)).length = pos + (12 + n) := by
    rw [List.length_drop, hleft]
    omega
  rw [readSlice_eq (by omega), hzero, pure_bind, hend]
  rfl

theorem fcTLAt_eq (st : ApngState) (body : Bytes) (seenIDAT : Bool) :
    st.fcTLAt body seenIDAT width height lim = (st.fcTL body seenIDAT width height lim).mapError .failed := by
  refine failed_reject fun h => ?_
  have hlength : body.length = 26 := not_not.mp fun hne => h (.inr (.inl hne))
  have hbyte : ∀ k, k < 26 → (readAt body k : Except (Stop ImageError) UInt8) = .ok (body.getD k 0) := by
    intro k hk
    have hread : (readAt body (0 + k) : Except (Stop ImageError) UInt8) = .ok ((body.drop 0).getD k 0) :=
      readAt_getD (by rw [List.drop_zero]; omega)
    rwa [Nat.zero_add, List.drop_zero] at hread
  rw [readUint32_eq (by omega), readUint32_eq (by omega), readUint32_eq (by omega), readUint32_eq (by omega),
    readUint32_eq (by omega), hbyte 24 (by omega), hbyte 25 (by omega)]
  simp only [ok_bind]
  refine failed_reject fun _ => failed_reject fun _ => failed_reject fun _ => failed_reject fun _ =>
    failed_reject fun _ => failed_reject fun _ => rfl

theorem stepAt_eq (st : WalkState) (chunk : Chunk) :
    st.stepAt chunk width height lim = (st.step chunk width height lim).mapError .failed := by
  refine failed_reject fun _ => ?_
  dsimp only
  split
  · rfl
  · split
    · rfl
    · split
      · refine failed_reject fun h => ?_
        have hlength : chunk.body.length = 8 := not_not.mp fun hne => h (.inr (.inr hne))
        rw [readUint32_eq (by omega)]
        exact failed_reject fun _ => failed_reject fun _ => rfl
      · split
        · rw [fcTLAt_eq]
          cases st.apng.fcTL chunk.body st.seenIDAT width height lim <;> rfl
        · split
          · refine failed_reject fun h => ?_
            have hlength : 4 ≤ chunk.body.length := not_lt.mp fun hlt => h (.inr (.inr (.inr hlt)))
            rw [readUint32_eq (by omega)]
            exact failed_reject fun _ => rfl
          · rfl

theorem readChunk_length {chunk : Chunk} {rest : Bytes} (h : readChunk data = .ok (chunk, rest)) :
    rest <:+ data ∧ rest.length < data.length := by
  obtain ⟨rfl, hchunk⟩ := readChunk_eq_ok h
  refine ⟨List.suffix_append _ _, ?_⟩
  have hraw := List.length_pos_iff.mpr hchunk.1
  rw [List.length_append]
  omega

theorem walkAt_eq {fuel : ℕ} {st : WalkState} (h : (data.drop pos).length ≤ fuel) :
    walkAt data width height lim fuel st pos =
      (walk width height lim fuel st (data.drop pos)).mapError .failed := by
  induction fuel generalizing st pos with
  | zero =>
      have hend : data.length ≤ pos := by
        rw [List.length_drop] at h
        omega
      rw [walkAt, if_pos hend, List.drop_eq_nil_of_le hend]
      rfl
  | succ fuel ih =>
      rw [walkAt]
      by_cases hend : data.length ≤ pos
      · rw [if_pos hend, List.drop_eq_nil_of_le hend]
        rfl
      · rw [if_neg hend, walk_cons (by rwa [ne_eq, List.drop_eq_nil_iff])]
        refine failed_reject fun _ => ?_
        rw [readChunkAt_eq]
        cases hread : readChunk (data.drop pos) with
        | error e => rfl
        | ok r =>
            obtain ⟨chunk, rest⟩ := r
            obtain ⟨hsuffix, hlt⟩ := readChunk_length hread
            have hdrop := drop_length_sub (hsuffix.trans (List.drop_suffix pos data))
            simp only [ok_bind, Except.mapError, pure, Except.pure]
            rw [stepAt_eq]
            cases st.step chunk width height lim with
            | error e => rfl
            | ok st' =>
                have hfuel : (data.drop (data.length - rest.length)).length ≤ fuel := by
                  rw [hdrop]
                  omega
                have hrest : walkAt data width height lim fuel st' _ = _ := ih hfuel
                rw [hdrop] at hrest
                simp only [Except.mapError, ok_bind]
                rw [hrest]
                cases walk width height lim fuel st' rest <;> rfl

/-- `sanitizePNG` ends, takes no index outside a slice, and is `sanitize`. -/
theorem sanitizePNG_eq (data : Bytes) (width height : ℤ) (lim : Limits) :
    sanitizePNG data width height lim = (sanitize data width height lim).mapError .failed := by
  have hwalk : walkAt data width height lim data.length {} signature.length =
      (walk width height lim data.length {} (data.drop signature.length)).mapError .failed :=
    walkAt_eq (by rw [List.length_drop]; omega)
  rw [sanitizePNG, sanitize, hwalk]
  cases walk width height lim data.length {} (data.drop signature.length) with
  | error e => rfl
  | ok r =>
      refine failed_reject fun _ => ?_
      by_cases hanimated : r.2.apng.hasACTL = false
      · rw [if_pos hanimated, if_pos hanimated]
        rfl
      · rw [if_neg hanimated, if_neg hanimated]
        exact failed_reject fun _ => rfl

end

end Png

end Scrumboy
