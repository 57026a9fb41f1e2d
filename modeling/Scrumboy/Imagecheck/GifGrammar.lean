import Scrumboy.Go.Cursor
import Scrumboy.Go.Wrap
import Scrumboy.Imagecheck.Gif

/-!
# The grammar of a GIF

What the scanner accepts, as bytes that are put together: a header, the colour table that its
flags announce, blocks, and the trailer. The scanner of `Gif` walks what is left of the data;
`scanGIF` reads the data at a cursor, as the source does, and a read behind its end would be a
result of its own.
-/

namespace Scrumboy

open Go

namespace Gif

/-! ## The scanner with its cursor -/

/-- The little-endian number in `data[low:low+2]`. -/
def readUint16 (data : Bytes) (low : ℕ) : Except (Stop ImageError) ℕ := uint16 <$> readSlice data low 2

def skipSubBlocksAt (data : Bytes) : ℕ → ℕ → Except (Stop ImageError) ℕ
  | 0, _ => .error .unfinished
  | fuel + 1, pos => do
      reject (data.length ≤ pos) (.failed .corrupt)
      let n ← readAt data pos
      if n = 0 then pure (pos + 1)
      else do
        reject (data.length - (pos + 1) < n.toNat) (.failed .corrupt)
        skipSubBlocksAt data fuel (pos + 1 + n.toNat)

/-- Where the data goes on behind a colour table, which may be behind its end. -/
def colorTableEnd (flags : UInt8) (pos : ℕ) : ℕ :=
  if flags &&& 0x80 ≠ 0 then pos + 3 <<< ((flags &&& 7).toNat + 1) else pos

def scanBlocksAt (data : Bytes) (screenW screenH : ℕ) (lim : Limits) :
    ℕ → ℕ → ℕ → ℤ → Except (Stop ImageError) ℕ
  | 0, _, _, _ => .error .unfinished
  | fuel + 1, pos, frames, area => do
      reject (data.length ≤ pos) (.failed .corrupt)
      let kind ← readAt data pos
      if kind = 0x21 then do
        reject (data.length < pos + 2) (.failed .corrupt)
        let pos ← skipSubBlocksAt data data.length (pos + 2)
        scanBlocksAt data screenW screenH lim fuel pos frames area
      else if kind = 0x2C then do
        reject (data.length < pos + 10) (.failed .corrupt)
        let left ← readUint16 data (pos + 1)
        let top ← readUint16 data (pos + 3)
        let w ← readUint16 data (pos + 5)
        let h ← readUint16 data (pos + 7)
        let flags ← readAt data (pos + 9)
        reject (w = 0 ∨ h = 0 ∨ screenW < left + w ∨ screenH < top + h) (.failed .corrupt)
        let pos := colorTableEnd flags (pos + 10)
        reject (data.length ≤ pos) (.failed .corrupt)
        let lzw ← readAt data pos
        reject (lzw < 2 ∨ 8 < lzw) (.failed .corrupt)
        let pos ← skipSubBlocksAt data data.length (pos + 1)
        let area := wrap (area + w * h)
        reject (exceeds lim.maxFrames (frames + 1 : ℕ) ∨ exceeds lim.maxTotalFramePixels area)
          (.failed .tooManyFrames)
        scanBlocksAt data screenW screenH lim fuel pos (frames + 1) area
      else if kind = 0x3B then do
        reject (pos + 1 ≠ data.length) (.failed .trailingData)
        reject (frames = 0) (.failed .corrupt)
        pure frames
      else .error (.failed .corrupt)

def scanGIF (data : Bytes) (lim : Limits) : Except (Stop ImageError) ℕ := do
  reject (data.length < 13) (.failed .corrupt)
  let screenW ← readUint16 data 6
  let screenH ← readUint16 data 8
  let packed ← readAt data 10
  scanBlocksAt data screenW screenH lim data.length (colorTableEnd packed 13) 0 0

section

variable {data rest : Bytes} {pos fuel : ℕ}

theorem readUint16_eq (h : pos + 2 ≤ data.length) :
    readUint16 data pos = .ok (uint16 (Bytes.slice data pos 2)) := by
  rw [readUint16, readSlice_eq h]
  rfl

/-- Where the data goes on, as a position. -/
def atCursor (data : Bytes) (x : Except ImageError Bytes) : Except (Stop ImageError) ℕ :=
  (x.map fun rest => data.length - rest.length).mapError .failed

theorem atCursor_ok : atCursor data (.ok rest) = .ok (data.length - rest.length) := rfl

/-- The cursor and what is left of the data take the same way through sub-blocks. -/
theorem skipSubBlocksAt_eq {fuel fuel' : ℕ} (h : (data.drop pos).length < fuel)
    (h' : (data.drop pos).length < fuel') :
    skipSubBlocksAt data fuel pos = atCursor data (skipSubBlocks fuel' (data.drop pos)) := by
  induction fuel generalizing pos fuel' with
  | zero => exact absurd h (Nat.not_lt_zero _)
  | succ fuel ih =>
      obtain ⟨fuel', rfl⟩ := Nat.exists_eq_succ_of_ne_zero (Nat.ne_zero_of_lt h')
      rw [skipSubBlocksAt]
      cases hdrop : data.drop pos with
      | nil =>
          rw [reject_bind_of (List.drop_eq_nil_iff.mp hdrop)]
          rfl
      | cons n rest =>
          have hrest : data.drop (pos + 1) = rest := drop_of_drop [n] hdrop
          have hlength : data.length - (pos + 1) = rest.length := by rw [← hrest, List.length_drop]
          rw [reject_bind_of_not (not_le.mpr (lt_of_drop hdrop)), readAt_of_drop hdrop, ok_bind,
            skipSubBlocks]
          split
          · have hpos := lt_of_drop hdrop
            have heq : data.length - rest.length = pos + 1 := by omega
            rw [atCursor, Except.map, Except.mapError, heq]
            rfl
          · by_cases hshort : rest.length < n.toNat
            · rw [hlength, reject_bind_of hshort, if_pos hshort]
              rfl
            · rw [hlength, reject_bind_of_not hshort, if_neg hshort, ← hrest, List.drop_drop]
              rw [hdrop, List.length_cons] at h h'
              refine ih ?_ ?_ <;> rw [← List.drop_drop, hrest, List.length_drop] <;> omega

theorem skipSubBlocks_suffix {fuel : ℕ} (h : skipSubBlocks fuel data = .ok rest) : rest <:+ data := by
  induction fuel generalizing data with
  | zero => cases h
  | succ fuel ih =>
      cases data with
      | nil => cases h
      | cons n data =>
          rw [skipSubBlocks] at h
          split at h
          · cases h
            exact List.suffix_cons n _
          · split at h
            · cases h
            · exact (ih h).trans ((List.drop_suffix _ data).trans (List.suffix_cons n data))

theorem drop_colorTableEnd (data : Bytes) (pos : ℕ) (flags : UInt8) :
    data.drop (colorTableEnd flags pos) = skipColorTable flags (data.drop pos) := by
  unfold colorTableEnd skipColorTable
  split
  · rw [List.drop_drop]
  · rfl

theorem le_colorTableEnd (flags : UInt8) (pos : ℕ) : pos ≤ colorTableEnd flags pos := by
  unfold colorTableEnd
  split
  · exact Nat.le_add_right _ _
  · exact le_rfl

theorem scanBlocks_other {screenW screenH : ℕ} {lim : Limits} {fuel frames : ℕ} {area : ℤ}
    {kind : UInt8} (hextension : kind ≠ 0x21) (himage : kind ≠ 0x2C) (htrailer : kind ≠ 0x3B) :
    scanBlocks screenW screenH lim (fuel + 1) frames area (kind :: rest) = .error .corrupt := by
  unfold scanBlocks
  split
  · rename_i heq
    exact absurd (List.cons.inj heq).1 hextension
  · rename_i heq
    exact absurd (List.cons.inj heq).1 himage
  · rename_i heq
    exact absurd (List.cons.inj heq).1 htrailer
  · rfl

/-- The same for whole blocks: no read is behind the end of the data. -/
theorem scanBlocksAt_eq {screenW screenH : ℕ} {lim : Limits} {fuel frames : ℕ} {area : ℤ}
    (h : (data.drop pos).length < fuel) :
    scanBlocksAt data screenW screenH lim fuel pos frames area =
      (scanBlocks screenW screenH lim fuel frames area (data.drop pos)).mapError .failed := by
  induction fuel generalizing pos frames area with
  | zero => exact absurd h (Nat.not_lt_zero _)
  | succ fuel ih =>
      rw [scanBlocksAt]
      cases hdrop : data.drop pos with
      | nil =>
          rw [reject_bind_of (List.drop_eq_nil_iff.mp hdrop)]
          rfl
      | cons kind rest =>
          have hrest : data.drop (pos + 1) = rest := drop_of_drop [kind] hdrop
          have hpos := lt_of_drop hdrop
          have hlength : data.length = pos + 1 + rest.length := by
            rw [← hrest, List.length_drop]
            omega
          rw [hdrop, List.length_cons] at h
          rw [reject_bind_of_not (not_le.mpr hpos), readAt_of_drop hdrop, ok_bind]
          by_cases hext : kind = 0x21
          · subst hext
            rw [if_pos rfl]
            cases rest with
            | nil =>
                rw [reject_bind_of (by rw [hlength, List.length_nil]; omega)]
                rfl
            | cons label rest =>
                have hrest : data.drop (pos + 2) = rest := drop_of_drop [0x21, label] hdrop
                have hinner : (data.drop (pos + 2)).length < (0x21 :: label :: rest).length := by
                  rw [hrest, List.length_cons, List.length_cons]
                  omega
                have houter : (data.drop (pos + 2)).length < data.length := by
                  rw [List.length_drop]
                  omega
                rw [List.length_cons] at hlength h
                rw [reject_bind_of_not (by omega), skipSubBlocksAt_eq houter hinner, hrest, scanBlocks]
                cases hskip : skipSubBlocks (0x21 :: label :: rest).length rest with
                | error e => rfl
                | ok r =>
                    have hr := skipSubBlocks_suffix hskip
                    have hdropr := drop_length_sub (hr.trans (hrest ▸ List.drop_suffix _ _))
                    have hlt : (data.drop (data.length - r.length)).length < fuel := by
                      rw [hdropr]
                      have := hr.length_le
                      omega
                    exact (ih hlt).trans (by rw [hdropr]; rfl)
          · by_cases himage : kind = 0x2C
            · subst himage
              rw [if_neg (by decide), if_pos rfl]
              by_cases hshort : (0x2C :: rest).length < 10
              · rw [reject_bind_of (by rw [List.length_cons] at hshort; omega), scanBlocks,
                  reject_bind_of hshort]
                rfl
              · have hlong : pos + 10 ≤ data.length := by
                  rw [List.length_cons] at hshort
                  omega
                rw [reject_bind_of_not (not_lt.mpr hlong), readUint16_eq (by omega), readUint16_eq (by omega),
                  readUint16_eq (by omega), readUint16_eq (by omega), readAt_getD (by rw [hdrop]; omega),
                  slice_drop, slice_drop, slice_drop, slice_drop, hdrop, scanBlocks, reject_bind_of_not hshort]
                simp only [ok_bind]
                refine failed_reject fun _ => ?_
                have htable := drop_colorTableEnd data (pos + 10) ((0x2C :: rest).getD 9 0)
                rw [← List.drop_drop, hdrop] at htable
                cases hcut : skipColorTable ((0x2C :: rest).getD 9 0) (List.drop 10 (0x2C :: rest)) with
                | nil =>
                    rw [reject_bind_of (List.drop_eq_nil_iff.mp (htable.trans hcut))]
                    rfl
                | cons lzw body =>
                    rw [hcut] at htable
                    have hbody := drop_of_drop [lzw] htable
                    rw [List.length_singleton] at hbody
                    have hsub : body.length < (data.drop pos).length := by
                      have hle := congrArg List.length hbody
                      rw [List.length_drop] at hle ⊢
                      have : pos + 10 ≤ colorTableEnd ((0x2C :: rest).getD 9 0) (pos + 10) := le_colorTableEnd _ _
                      have := lt_of_drop htable
                      omega
                    rw [reject_bind_of_not (not_le.mpr (lt_of_drop htable)), readAt_of_drop htable, ok_bind]
                    refine failed_reject fun _ => ?_
                    have houter : (data.drop (colorTableEnd ((0x2C :: rest).getD 9 0) (pos + 10) + 1)).length <
                        data.length := by
                      rw [List.length_drop]
                      omega
                    have hinner : (data.drop (colorTableEnd ((0x2C :: rest).getD 9 0) (pos + 10) + 1)).length <
                        (0x2C :: rest).length := by
                      rw [hbody, ← hdrop]
                      exact hsub
                    rw [skipSubBlocksAt_eq houter hinner, hbody]
                    cases hskip : skipSubBlocks (0x2C :: rest).length body with
                    | error e => rfl
                    | ok r =>
                        have hr := skipSubBlocks_suffix hskip
                        have hdropr := drop_length_sub (hr.trans (hbody ▸ List.drop_suffix _ _))
                        have hlt : (data.drop (data.length - r.length)).length < fuel := by
                          rw [hdropr]
                          have := hr.length_le
                          rw [hdrop, List.length_cons] at hsub
                          omega
                        rw [atCursor_ok, ok_bind, ok_bind]
                        refine failed_reject fun _ => ?_
                        exact (ih hlt).trans (by rw [hdropr])
            · rw [if_neg hext, if_neg himage]
              by_cases htrailer : kind = 0x3B
              · subst htrailer
                rw [if_pos rfl, scanBlocks]
                have hend : pos + 1 ≠ data.length ↔ rest ≠ [] := by
                  rw [hlength, ne_eq, ne_eq, ← List.length_eq_zero_iff]
                  omega
                rw [reject_congr hend]
                refine failed_reject fun _ => failed_reject fun _ => rfl
              · rw [if_neg htrailer, scanBlocks_other hext himage htrailer]
                rfl

/-- `scanGIF` ends, reads nothing behind the end of the data, and is `scan`. -/
theorem scanGIF_eq (data : Bytes) (lim : Limits) : scanGIF data lim = (scan data lim).mapError .failed := by
  refine failed_reject fun hlong => ?_
  have h13 : 13 ≤ data.length := not_lt.mp hlong
  have hflags : (readAt data (0 + 10) : Except (Stop ImageError) UInt8) = .ok ((data.drop 0).getD 10 0) :=
    readAt_getD (by rw [List.drop_zero]; omega)
  rw [Nat.zero_add, List.drop_zero] at hflags
  rw [readUint16_eq (by omega), readUint16_eq (by omega), hflags]
  simp only [ok_bind]
  rw [scanBlocksAt_eq, drop_colorTableEnd]
  rw [List.length_drop]
  have := le_colorTableEnd (data.getD 10 0) 13
  omega

end

/-! ## The grammar -/

inductive IsSubBlocks : Bytes → Prop
  | terminator : IsSubBlocks [0]
  | block {n : UInt8} {body rest : Bytes} (hn : n ≠ 0) (hbody : body.length = n.toNat)
      (hrest : IsSubBlocks rest) : IsSubBlocks (n :: (body ++ rest))

/-- Sub-blocks with their terminator. -/
structure SubBlocks where
  bytes : Bytes
  isSubBlocks : IsSubBlocks bytes

/-- The colour table that flags announce. -/
def IsColorTable (flags : UInt8) (table : Bytes) : Prop :=
  table.length = if flags &&& 0x80 ≠ 0 then 3 * 2 ^ ((flags &&& 7).toNat + 1) else 0

/-- An image on a screen. The rectangle is left, top, width and height. -/
structure ImageBlock (screenW screenH : ℕ) where
  rectangle : Bytes
  flags : UInt8
  table : Bytes
  lzw : UInt8
  pixels : SubBlocks
  length_rectangle : rectangle.length = 8
  width_pos : 0 < uint16 (Bytes.slice rectangle 4 2)
  height_pos : 0 < uint16 (Bytes.slice rectangle 6 2)
  right_le : uint16 (Bytes.slice rectangle 0 2) + uint16 (Bytes.slice rectangle 4 2) ≤ screenW
  bottom_le : uint16 (Bytes.slice rectangle 2 2) + uint16 (Bytes.slice rectangle 6 2) ≤ screenH
  announced : IsColorTable flags table
  two_le_lzw : 2 ≤ lzw
  lzw_le : lzw ≤ 8

variable {screenW screenH : ℕ}

def ImageBlock.bytes (i : ImageBlock screenW screenH) : Bytes :=
  0x2C :: (i.rectangle ++ i.flags :: (i.table ++ i.lzw :: i.pixels.bytes))

def ImageBlock.area (i : ImageBlock screenW screenH) : ℕ :=
  uint16 (Bytes.slice i.rectangle 4 2) * uint16 (Bytes.slice i.rectangle 6 2)

inductive Block (screenW screenH : ℕ)
  | extension (label : UInt8) (data : SubBlocks)
  | image (i : ImageBlock screenW screenH)

def Block.bytes : Block screenW screenH → Bytes
  | .extension label data => 0x21 :: label :: data.bytes
  | .image i => i.bytes

def Block.area : Block screenW screenH → Option ℕ
  | .extension _ _ => none
  | .image i => some i.area

/-- The areas of the frames among some blocks. -/
def areas (blocks : List (Block screenW screenH)) : List ℕ := blocks.filterMap Block.area

theorem areas_image (i : ImageBlock screenW screenH) (blocks : List (Block screenW screenH)) :
    areas (.image i :: blocks) = i.area :: areas blocks := rfl

/-- The bytes of blocks and of the trailer. -/
def blockBytes (blocks : List (Block screenW screenH)) : Bytes := blocks.flatMap Block.bytes ++ [0x3B]

structure GifFile where
  header : Bytes
  table : Bytes
  blocks : List (Block (uint16 (Bytes.slice header 6 2)) (uint16 (Bytes.slice header 8 2)))
  length_header : header.length = 13
  announced : IsColorTable (header.getD 10 0) table

def GifFile.bytes (g : GifFile) : Bytes := g.header ++ (g.table ++ blockBytes g.blocks)

def GifFile.areas (g : GifFile) : List ℕ := Gif.areas g.blocks

/-- A GIF of `n` frames within the limits. -/
def IsGif (data : Bytes) (lim : Limits) (n : ℕ) : Prop :=
  ∃ g : GifFile, g.bytes = data ∧ g.areas.length = n ∧ 1 ≤ n ∧ ¬ exceeds lim.maxFrames n ∧
    ¬ exceeds lim.maxTotalFramePixels g.areas.sum

/-! ## What the scanner accepts -/

section

variable {data rest : Bytes} {lim : Limits} {fuel frames n : ℕ} {area : ℤ}

theorem skipSubBlocks_append (subs : SubBlocks) (h : (subs.bytes ++ rest).length < fuel) :
    skipSubBlocks fuel (subs.bytes ++ rest) = .ok rest := by
  obtain ⟨bytes, hsubs⟩ := subs
  dsimp only at h ⊢
  induction hsubs generalizing fuel with
  | terminator =>
      obtain ⟨fuel, rfl⟩ := Nat.exists_eq_succ_of_ne_zero (Nat.ne_zero_of_lt h)
      rfl
  | @block n body more hn hbody _ ih =>
      obtain ⟨fuel, rfl⟩ := Nat.exists_eq_succ_of_ne_zero (Nat.ne_zero_of_lt h)
      rw [List.cons_append, List.append_assoc] at h ⊢
      rw [skipSubBlocks, if_neg hn, if_neg, ← hbody, List.drop_left]
      · refine ih ?_
        simp only [List.length_cons, List.length_append] at h ⊢
        omega
      · rw [List.length_append]
        omega

theorem exists_subBlocks (h : skipSubBlocks fuel data = .ok rest) :
    ∃ subs : SubBlocks, data = subs.bytes ++ rest := by
  induction fuel generalizing data with
  | zero => cases h
  | succ fuel ih =>
      cases data with
      | nil => cases h
      | cons n data =>
          rw [skipSubBlocks] at h
          split at h
          · rename_i hn
            cases h
            exact ⟨⟨[0], .terminator⟩, by rw [hn]; rfl⟩
          · rename_i hn
            split at h
            · cases h
            · rename_i hlong
              obtain ⟨⟨more, hmore⟩, heq⟩ := ih h
              refine ⟨⟨_, .block hn (List.length_take_of_le (not_lt.mp hlong)) hmore⟩, ?_⟩
              rw [List.cons_append, List.append_assoc, ← heq, List.take_append_drop]

/-- Sub-blocks tell where they end. -/
theorem SubBlocks.append_inj {subs subs' : SubBlocks} {rest rest' : Bytes}
    (h : subs.bytes ++ rest = subs'.bytes ++ rest') : rest = rest' := by
  have hskip := skipSubBlocks_append subs (Nat.lt_succ_self (subs.bytes ++ rest).length)
  have hskip' := skipSubBlocks_append subs' (Nat.lt_succ_self (subs'.bytes ++ rest').length)
  rw [h, hskip'] at hskip
  exact (Except.ok.inj hskip).symm

theorem skipColorTable_append {flags : UInt8} {table : Bytes} (h : IsColorTable flags table) :
    skipColorTable flags (table ++ rest) = rest := by
  unfold IsColorTable at h
  unfold skipColorTable
  split at h
  · rename_i hflag
    rw [if_pos hflag, Nat.shiftLeft_eq, ← h, List.drop_left]
  · rename_i hflag
    rw [if_neg hflag, List.eq_nil_of_length_eq_zero h, List.nil_append]

theorem exists_colorTable {flags : UInt8} (hne : skipColorTable flags data ≠ []) :
    ∃ table, IsColorTable flags table ∧ data = table ++ skipColorTable flags data := by
  unfold skipColorTable IsColorTable at *
  split at hne
  · rename_i hflag
    simp only [if_pos hflag, Nat.shiftLeft_eq] at hne ⊢
    rw [ne_eq, List.drop_eq_nil_iff, not_le] at hne
    exact ⟨_, List.length_take_of_le hne.le, (List.take_append_drop _ _).symm⟩
  · rename_i hflag
    simp only [if_neg hflag]
    exact ⟨[], rfl, rfl⟩

theorem slice_cons_append {head : UInt8} {front : Bytes} {k : ℕ} (h : k + 2 ≤ front.length) :
    Bytes.slice (head :: (front ++ rest)) (k + 1) 2 = Bytes.slice front k 2 := slice_append h

theorem scanBlocks_extension (label : UInt8) (subs : SubBlocks) :
    scanBlocks screenW screenH lim (fuel + 1) frames area
        ((Block.extension label subs : Block screenW screenH).bytes ++ rest) =
      scanBlocks screenW screenH lim fuel frames area rest := by
  change scanBlocks _ _ _ _ _ _ (0x21 :: label :: (subs.bytes ++ rest)) = _
  rw [scanBlocks, skipSubBlocks_append, ok_bind]
  simp only [List.length_cons]
  omega

theorem scanBlocks_image (i : ImageBlock screenW screenH) :
    scanBlocks screenW screenH lim (fuel + 1) frames area ((Block.image i).bytes ++ rest) =
      (do
        reject (exceeds lim.maxFrames (frames + 1 : ℕ) ∨
          exceeds lim.maxTotalFramePixels (wrap (area + i.area))) .tooManyFrames
        scanBlocks screenW screenH lim fuel (frames + 1) (wrap (area + i.area)) rest) := by
  have hbytes : (Block.image i).bytes ++ rest =
      0x2C :: (i.rectangle ++ (i.flags :: (i.table ++ (i.lzw :: (i.pixels.bytes ++ rest))))) := by
    simp [Block.bytes, ImageBlock.bytes]
  have hlength := i.length_rectangle
  obtain ⟨more, hmore⟩ : ∃ more, i.flags :: (i.table ++ (i.lzw :: (i.pixels.bytes ++ rest))) = more :=
    ⟨_, rfl⟩
  have hflags : (0x2C :: (i.rectangle ++ more)).getD 9 0 = i.flags := by
    rw [← hmore, List.getD_eq_getElem?_getD, List.getElem?_cons_succ, List.getElem?_append_right (by omega),
      hlength]
    rfl
  have hdrop : (0x2C :: (i.rectangle ++ more)).drop 10 = i.table ++ (i.lzw :: (i.pixels.bytes ++ rest)) := by
    rw [← hmore, List.drop_succ_cons, show 9 = i.rectangle.length + 1 by omega, ← List.drop_drop,
      List.drop_left]
    rfl
  have hshort : ¬ (0x2C :: (i.rectangle ++ more)).length < 10 := by
    rw [← hmore]
    simp only [List.length_cons, List.length_append]
    omega
  have hpixels : (i.pixels.bytes ++ rest).length < (0x2C :: (i.rectangle ++ more)).length := by
    rw [← hmore]
    simp only [List.length_cons, List.length_append]
    omega
  have hrectangle : ¬ (uint16 (Bytes.slice i.rectangle 4 2) = 0 ∨ uint16 (Bytes.slice i.rectangle 6 2) = 0 ∨
      screenW < uint16 (Bytes.slice i.rectangle 0 2) + uint16 (Bytes.slice i.rectangle 4 2) ∨
      screenH < uint16 (Bytes.slice i.rectangle 2 2) + uint16 (Bytes.slice i.rectangle 6 2)) := by
    have := i.width_pos
    have := i.height_pos
    have := i.right_le
    have := i.bottom_le
    omega
  have hlzw : ¬ (i.lzw < 2 ∨ 8 < i.lzw) :=
    not_or.mpr ⟨UInt8.not_lt.mpr i.two_le_lzw, UInt8.not_lt.mpr i.lzw_le⟩
  rw [hbytes, hmore, scanBlocks, reject_bind_of_not hshort, slice_cons_append (by omega),
    slice_cons_append (by omega), slice_cons_append (by omega), slice_cons_append (by omega)]
  dsimp only
  rw [reject_bind_of_not hrectangle, hflags, hdrop, skipColorTable_append i.announced]
  dsimp only
  rw [reject_bind_of_not hlzw, skipSubBlocks_append i.pixels hpixels, ok_bind, ImageBlock.area, Nat.cast_mul]

theorem scanBlocks_trailer : scanBlocks screenW screenH lim (fuel + 1) frames area (0x3B :: rest) = .ok n ↔
    rest = [] ∧ frames ≠ 0 ∧ n = frames := by
  simp only [scanBlocks, bind_eq_ok, reject_eq_ok, pure_eq_ok, not_not]
  constructor
  · rintro ⟨_, hrest, _, hframes, rfl⟩
    exact ⟨hrest, hframes, rfl⟩
  · rintro ⟨hrest, hframes, rfl⟩
    exact ⟨(), hrest, (), hframes, rfl⟩

/-- A scan that succeeds meets a block or the trailer. -/
theorem exists_block (h : scanBlocks screenW screenH lim (fuel + 1) frames area data = .ok n) :
    (∃ (block : Block screenW screenH) (rest : Bytes), data = block.bytes ++ rest) ∨
      ∃ rest, data = 0x3B :: rest := by
  unfold scanBlocks at h
  split at h
  · rename_i label rest
    obtain ⟨_, hskip, _⟩ := bind_eq_ok.mp h
    obtain ⟨subs, rfl⟩ := exists_subBlocks hskip
    exact .inl ⟨.extension label subs, _, rfl⟩
  · rename_i rest
    simp only [bind_eq_ok, reject_eq_ok] at h
    obtain ⟨_, hshort, _, hrectangle, h⟩ := h
    rw [List.length_cons] at hshort
    obtain ⟨rectangle, flags, more, hlength, rfl⟩ :
        ∃ rectangle flags more, rectangle.length = 8 ∧ rest = rectangle ++ flags :: more := by
      have height : 8 < rest.length := by omega
      refine ⟨rest.take 8, rest[8], rest.drop 9, List.length_take_of_le height.le, ?_⟩
      rw [← List.drop_eq_getElem_cons, List.take_append_drop]
    have hflags : (0x2C :: (rectangle ++ flags :: more)).getD 9 0 = flags := by
      rw [List.getD_eq_getElem?_getD, List.getElem?_cons_succ, List.getElem?_append_right (by omega), hlength]
      rfl
    have hdrop : (0x2C :: (rectangle ++ flags :: more)).drop 10 = more := by
      rw [List.drop_succ_cons, show 9 = rectangle.length + 1 by omega, ← List.drop_drop, List.drop_left]
      rfl
    rw [slice_cons_append (by omega), slice_cons_append (by omega), slice_cons_append (by omega),
      slice_cons_append (by omega)] at hrectangle
    rw [hflags, hdrop] at h
    split at h
    · cases h
    · rename_i lzw body hcut
      simp only [bind_eq_ok, reject_eq_ok] at h
      obtain ⟨_, hlzw, tail, hskip, _⟩ := h
      obtain ⟨pixels, rfl⟩ := exists_subBlocks hskip
      obtain ⟨table, htable, hmore⟩ := exists_colorTable (hcut ▸ List.cons_ne_nil _ _)
      rw [not_or, not_or, not_or] at hrectangle
      obtain ⟨hwidth, hheight, hright, hbottom⟩ := hrectangle
      rw [not_or] at hlzw
      let i : ImageBlock screenW screenH :=
        { rectangle, flags, table, lzw, pixels
          length_rectangle := hlength
          width_pos := Nat.pos_of_ne_zero hwidth
          height_pos := Nat.pos_of_ne_zero hheight
          right_le := not_lt.mp hright
          bottom_le := not_lt.mp hbottom
          announced := htable
          two_le_lzw := UInt8.not_lt.mp hlzw.1
          lzw_le := UInt8.not_lt.mp hlzw.2 }
      refine .inl ⟨.image i, tail, ?_⟩
      rw [hmore, hcut]
      simp [Block.bytes, ImageBlock.bytes, i]
  · exact .inr ⟨_, rfl⟩
  · cases h

/-- The limits hold at every frame on the way, with the area as the loop has it. -/
def WithinLimits (lim : Limits) (frames : ℕ) (area : ℤ) (areas : List ℕ) : Prop :=
  ∀ l, l <+: areas → l ≠ [] → ¬ (exceeds lim.maxFrames (frames + l.length : ℕ) ∨
    exceeds lim.maxTotalFramePixels (wrap (area + (l.sum : ℕ))))

theorem withinLimits_nil : WithinLimits lim frames area [] :=
  fun _ hl hne => absurd (List.prefix_nil.mp hl) hne

theorem withinLimits_cons {a : ℕ} {l : List ℕ} : WithinLimits lim frames area (a :: l) ↔
    ¬ (exceeds lim.maxFrames (frames + 1 : ℕ) ∨ exceeds lim.maxTotalFramePixels (wrap (area + a))) ∧
      WithinLimits lim (frames + 1) (wrap (area + a)) l := by
  have hcons : ∀ l₁ : List ℕ, wrap (area + ((a :: l₁).sum : ℕ)) = wrap (wrap (area + a) + (l₁.sum : ℕ)) ∧
      frames + (a :: l₁).length = frames + 1 + l₁.length := by
    intro l₁
    rw [List.sum_cons, List.length_cons, Nat.cast_add, ← add_assoc, wrap_add_left]
    exact ⟨rfl, by omega⟩
  constructor
  · intro h
    constructor
    · have hone := h [a] ⟨l, rfl⟩ (List.cons_ne_nil _ _)
      simpa using hone
    · intro l₁ hl₁ _
      have hmore := h (a :: l₁) (List.cons_prefix_cons.mpr ⟨rfl, hl₁⟩) (List.cons_ne_nil _ _)
      rwa [(hcons l₁).1, (hcons l₁).2] at hmore
  · rintro ⟨hone, hmore⟩ l₁ hl₁ hne
    cases l₁ with
    | nil => exact absurd rfl hne
    | cons b l₁ =>
        obtain ⟨rfl, hprefix⟩ := List.cons_prefix_cons.mp hl₁
        by_cases hnil : l₁ = []
        · subst hnil
          simpa using hone
        · rw [(hcons l₁).1, (hcons l₁).2]
          exact hmore l₁ hprefix hnil

theorem blockBytes_cons (block : Block screenW screenH) (blocks : List (Block screenW screenH)) :
    blockBytes (block :: blocks) = block.bytes ++ blockBytes blocks := by
  simp [blockBytes]

theorem Block.bytes_ne_nil (block : Block screenW screenH) : block.bytes ≠ [] := by
  cases block <;> exact List.cons_ne_nil _ _

theorem scanBlocks_eq_ok (h : data.length < fuel) :
    scanBlocks screenW screenH lim fuel frames area data = .ok n ↔
    ∃ blocks : List (Block screenW screenH), data = blockBytes blocks ∧
      WithinLimits lim frames area (areas blocks) ∧ n = frames + (areas blocks).length ∧ n ≠ 0 := by
  induction fuel generalizing frames area data with
  | zero => exact absurd h (Nat.not_lt_zero _)
  | succ fuel ih =>
      constructor
      · intro hscan
        rcases exists_block hscan with ⟨block, rest, rfl⟩ | ⟨rest, rfl⟩
        · have hlt : rest.length < fuel := by
            have hpos := List.length_pos_iff.mpr block.bytes_ne_nil
            rw [List.length_append] at h
            omega
          cases block with
          | extension label subs =>
              rw [scanBlocks_extension, ih hlt] at hscan
              obtain ⟨blocks, rfl, hwithin, hn⟩ := hscan
              exact ⟨.extension label subs :: blocks, (blockBytes_cons _ _).symm, hwithin, hn⟩
          | image i =>
              rw [scanBlocks_image] at hscan
              simp only [bind_eq_ok, reject_eq_ok] at hscan
              obtain ⟨_, hone, hscan⟩ := hscan
              obtain ⟨blocks, rfl, hwithin, hn, hne⟩ := (ih hlt).mp hscan
              refine ⟨.image i :: blocks, (blockBytes_cons _ _).symm,
                withinLimits_cons.mpr ⟨hone, hwithin⟩, ?_, hne⟩
              rw [hn, areas_image, List.length_cons]
              omega
        · obtain ⟨rfl, hframes, rfl⟩ := scanBlocks_trailer.mp hscan
          exact ⟨[], rfl, withinLimits_nil, rfl, hframes⟩
      · rintro ⟨blocks, rfl, hwithin, hn, hne⟩
        cases blocks with
        | nil =>
            have hframes : n = frames := hn
            exact scanBlocks_trailer.mpr ⟨rfl, hframes ▸ hne, hframes⟩
        | cons block blocks =>
            rw [blockBytes_cons] at h ⊢
            have hlt : (blockBytes blocks).length < fuel := by
              have hpos := List.length_pos_iff.mpr block.bytes_ne_nil
              rw [List.length_append] at h
              omega
            cases block with
            | extension label subs =>
                rw [scanBlocks_extension, ih hlt]
                exact ⟨blocks, rfl, hwithin, hn, hne⟩
            | image i =>
                obtain ⟨hone, hwithin⟩ := withinLimits_cons.mp hwithin
                rw [scanBlocks_image, reject_bind_of_not hone, ih hlt]
                refine ⟨blocks, rfl, hwithin, ?_, hne⟩
                rw [hn, areas_image, List.length_cons]
                omega

/-- The bytes of a block tell where it ends and what its area is. -/
theorem Block.append_inj {block block' : Block screenW screenH} {rest rest' : Bytes}
    (h : block.bytes ++ rest = block'.bytes ++ rest') : block.area = block'.area ∧ rest = rest' := by
  cases block with
  | extension label subs =>
      cases block' with
      | extension label' subs' => exact ⟨rfl, SubBlocks.append_inj (List.cons.inj (List.cons.inj h).2).2⟩
      | image i => exact absurd (List.cons.inj h).1 (by decide)
  | image i =>
      cases block' with
      | extension label' subs' => exact absurd (List.cons.inj h).1 (by decide)
      | image i' =>
          have h : i.rectangle ++ i.flags :: (i.table ++ i.lzw :: i.pixels.bytes) ++ rest =
              i'.rectangle ++ i'.flags :: (i'.table ++ i'.lzw :: i'.pixels.bytes) ++ rest' :=
            (List.cons.inj h).2
          rw [List.append_assoc, List.append_assoc] at h
          obtain ⟨hrectangle, h⟩ := List.append_inj h (i.length_rectangle.trans i'.length_rectangle.symm)
          obtain ⟨hflags, h⟩ := List.cons.inj h
          have htable : i.table.length = i'.table.length := by
            rw [i.announced, i'.announced, hflags]
          have h : i.table ++ i.lzw :: i.pixels.bytes ++ rest =
              i'.table ++ i'.lzw :: i'.pixels.bytes ++ rest' := h
          rw [List.append_assoc, List.append_assoc] at h
          obtain ⟨_, h⟩ := List.append_inj h htable
          refine ⟨?_, SubBlocks.append_inj (List.cons.inj h).2⟩
          rw [Block.area, Block.area, ImageBlock.area, ImageBlock.area, hrectangle]

theorem areas_eq {blocks blocks' : List (Block screenW screenH)}
    (h : blockBytes blocks = blockBytes blocks') : areas blocks = areas blocks' := by
  have htrailer : ∀ (block : Block screenW screenH) (blocks : List (Block screenW screenH)),
      [0x3B] ≠ blockBytes (block :: blocks) := by
    intro block blocks heq
    rw [blockBytes_cons] at heq
    cases block with
    | extension label subs => exact absurd (List.cons.inj heq).1 (by decide)
    | image i => exact absurd (List.cons.inj heq).1 (by decide)
  induction blocks generalizing blocks' with
  | nil =>
      cases blocks' with
      | nil => rfl
      | cons block blocks => exact absurd h (htrailer block blocks)
  | cons block blocks ih =>
      cases blocks' with
      | nil => exact absurd h.symm (htrailer block blocks)
      | cons block' blocks' =>
          rw [blockBytes_cons, blockBytes_cons] at h
          obtain ⟨harea, hrest⟩ := Block.append_inj h
          have hmore := ih hrest
          rw [areas, areas] at hmore ⊢
          rw [List.filterMap_cons, List.filterMap_cons, harea, hmore]

/-- The bytes of a file determine its frames. -/
theorem GifFile.areas_eq {g g' : GifFile} (h : g.bytes = g'.bytes) : g.areas = g'.areas := by
  obtain ⟨header, table, blocks, hheader, htable⟩ := g
  obtain ⟨header', table', blocks', hheader', htable'⟩ := g'
  obtain ⟨rfl, h⟩ := List.append_inj h (hheader.trans hheader'.symm)
  obtain ⟨_, h⟩ := List.append_inj h (htable.trans htable'.symm)
  exact Gif.areas_eq h

theorem scan_eq_ok : scan data lim = .ok n ↔
    ∃ g : GifFile, g.bytes = data ∧ WithinLimits lim 0 0 g.areas ∧ n = g.areas.length ∧ n ≠ 0 := by
  have hfile : ∀ header rest : Bytes, header.length = 13 →
      (scan (header ++ rest) lim = .ok n ↔
        scanBlocks (uint16 (Bytes.slice header 6 2)) (uint16 (Bytes.slice header 8 2)) lim
          (header ++ rest).length 0 0 (skipColorTable (header.getD 10 0) rest) = .ok n) := by
    intro header rest hheader
    have hflags : (header ++ rest).getD 10 0 = header.getD 10 0 := by
      rw [List.getD_eq_getElem?_getD, List.getElem?_append_left (by omega), List.getD_eq_getElem?_getD]
    have hlong : ¬ (header ++ rest).length < 13 := by
      rw [List.length_append]
      omega
    rw [scan, reject_bind_of_not hlong, slice_append (by omega), slice_append (by omega), hflags, ← hheader,
      List.drop_left]
  constructor
  · intro h
    obtain ⟨_, hlong, _⟩ := bind_eq_ok.mp h
    rw [reject_eq_ok, not_lt] at hlong
    obtain ⟨header, rest, hheader, rfl⟩ : ∃ header rest, header.length = 13 ∧ data = header ++ rest :=
      ⟨_, _, List.length_take_of_le hlong, (List.take_append_drop 13 data).symm⟩
    have hlt : (skipColorTable (header.getD 10 0) rest).length < (header ++ rest).length := by
      have hle : (skipColorTable (header.getD 10 0) rest).length ≤ rest.length := by
        unfold skipColorTable
        split
        · exact (List.drop_sublist _ _).length_le
        · exact le_rfl
      rw [List.length_append]
      omega
    rw [hfile header rest hheader, scanBlocks_eq_ok hlt] at h
    obtain ⟨blocks, hblocks, hwithin, hn, hne⟩ := h
    have hne_nil : skipColorTable (header.getD 10 0) rest ≠ [] := by
      rw [hblocks, blockBytes]
      exact List.append_ne_nil_of_right_ne_nil _ (List.cons_ne_nil _ _)
    obtain ⟨table, htable, hrest⟩ := exists_colorTable hne_nil
    refine ⟨⟨header, table, blocks, hheader, htable⟩, ?_, hwithin, by rw [hn, Nat.zero_add]; rfl, hne⟩
    rw [GifFile.bytes, ← hblocks, ← hrest]
  · rintro ⟨⟨header, table, blocks, hheader, htable⟩, rfl, hwithin, hn, hne⟩
    refine (hfile header _ hheader).mpr ?_
    dsimp only
    rw [skipColorTable_append htable, scanBlocks_eq_ok]
    · exact ⟨blocks, rfl, hwithin, by rw [hn, Nat.zero_add]; rfl, hne⟩
    · rw [List.length_append, List.length_append]
      omega

theorem wrap_le_self {x : ℤ} (h : 0 ≤ x) : wrap x ≤ x := by
  unfold wrap
  omega

/-- A GIF within the limits is within them at every frame. -/
theorem IsGif.withinLimits {g : GifFile} (hframes : ¬ exceeds lim.maxFrames g.areas.length)
    (harea : ¬ exceeds lim.maxTotalFramePixels g.areas.sum) : WithinLimits lim 0 0 g.areas := by
  rintro l hl - (hover | hover)
  · refine hframes (exceeds_mono ?_ hover)
    rw [Nat.zero_add, Nat.cast_le]
    exact hl.length_le
  · refine harea (exceeds_mono ?_ hover)
    rw [zero_add]
    refine (wrap_le_self (Int.natCast_nonneg _)).trans ?_
    obtain ⟨more, hmore⟩ := hl
    rw [Nat.cast_le, ← hmore, List.sum_append]
    exact Nat.le_add_right _ _

end

/-- A GIF with frames whose areas are over the budget together, while their sum as an `int64` is
within the limits at every frame on the way. -/
def WrapsWithinBudget (data : Bytes) (lim : Limits) : Prop :=
  ∃ g : GifFile, g.bytes = data ∧ g.areas ≠ [] ∧ exceeds lim.maxTotalFramePixels g.areas.sum ∧
    WithinLimits lim 0 0 g.areas

/-- A frame that fills the widest screen. -/
def wideFrame : ImageBlock 65535 65535 where
  rectangle := [0, 0, 0, 0, 255, 255, 255, 255]
  flags := 0
  table := []
  lzw := 2
  pixels := ⟨[0], .terminator⟩
  length_rectangle := rfl
  width_pos := by decide
  height_pos := by decide
  right_le := by decide
  bottom_le := by decide
  announced := rfl
  two_le_lzw := by decide
  lzw_le := by decide

/-- A number of such frames. -/
def wideFrames (n : ℕ) : GifFile where
  header := [0x47, 0x49, 0x46, 0x38, 0x39, 0x61, 255, 255, 255, 255, 0, 0, 0]
  table := []
  blocks := List.replicate n (.image wideFrame)
  length_header := rfl
  announced := rfl

/-- The budget is the largest `int64`. -/
def int64Budget : Limits := ⟨0, 0, 0, 0, maxInt64⟩

theorem areas_wideFrames (n : ℕ) : (wideFrames n).areas = List.replicate n 4294836225 := by
  have harea : (Block.image wideFrame).area = some 4294836225 := by decide +kernel
  exact List.filterMap_replicate_of_some harea

theorem scanGIF_wideFrames {n : ℕ} (h : n ≠ 0) : scanGIF (wideFrames n).bytes int64Budget = .ok n := by
  have hwithin : WithinLimits int64Budget 0 0 (wideFrames n).areas := by
    rintro l - - (hframes | harea)
    · exact absurd hframes.1 (by decide)
    · exact absurd harea.2 (not_lt.mpr (wrap_isInt64 _).2)
  rw [scanGIF_eq, mapError_eq_ok, scan_eq_ok]
  exact ⟨wideFrames n, rfl, hwithin, by rw [areas_wideFrames, List.length_replicate], h⟩

end Gif

end Scrumboy
