import Scrumboy.Imagecheck.Limits

/-!
# GIF images

A GIF is stored as it is. Its blocks are walked first, without decoding a pixel, so that the
decoder only runs within the limits.
-/

namespace Scrumboy

open Go

namespace Gif

def uint16 (bytes : Bytes) : ℕ := Bytes.bigEndian bytes.reverse

/-- Sub-blocks up to the empty one, and what follows. -/
def skipSubBlocks : ℕ → Bytes → Except ImageError Bytes
  | 0, _ => .error .corrupt
  | _ + 1, [] => .error .corrupt
  | fuel + 1, n :: rest =>
      if n = 0 then .ok rest
      else if rest.length < n.toNat then .error .corrupt
      else skipSubBlocks fuel (rest.drop n.toNat)

/-- A colour table, when the flags announce one. -/
def skipColorTable (flags : UInt8) (data : Bytes) : Bytes :=
  if flags &&& 0x80 ≠ 0 then data.drop (3 <<< ((flags &&& 7).toNat + 1)) else data

/-- The blocks up to the trailer, with the frames and their area so far. A block takes a byte or
more, so that the length of the data is enough fuel. -/
def scanBlocks (screenW screenH : ℕ) (lim : Limits) : ℕ → ℕ → ℤ → Bytes → Except ImageError ℕ
  | 0, _, _, _ => .error .corrupt
  | fuel + 1, frames, area, data =>
      match data with
      | 0x21 :: _ :: rest => do
          let rest ← skipSubBlocks data.length rest
          scanBlocks screenW screenH lim fuel frames area rest
      | 0x2C :: _ => do
          reject (data.length < 10) .corrupt
          let left := uint16 (Bytes.slice data 1 2)
          let top := uint16 (Bytes.slice data 3 2)
          let w := uint16 (Bytes.slice data 5 2)
          let h := uint16 (Bytes.slice data 7 2)
          reject (w = 0 ∨ h = 0 ∨ screenW < left + w ∨ screenH < top + h) .corrupt
          match skipColorTable (data.getD 9 0) (data.drop 10) with
          | [] => .error .corrupt
          | lzw :: rest => do
              reject (lzw < 2 ∨ 8 < lzw) .corrupt
              let rest ← skipSubBlocks data.length rest
              let area := wrap (area + w * h)
              reject (exceeds lim.maxFrames (frames + 1 : ℕ) ∨ exceeds lim.maxTotalFramePixels area)
                .tooManyFrames
              scanBlocks screenW screenH lim fuel (frames + 1) area rest
      | 0x3B :: rest => do
          reject (rest ≠ []) .trailingData
          reject (frames = 0) .corrupt
          pure frames
      | _ => .error .corrupt

/-- `scanGIF`, the number of frames. -/
def scan (data : Bytes) (lim : Limits) : Except ImageError ℕ := do
  reject (data.length < 13) .corrupt
  scanBlocks (uint16 (Bytes.slice data 6 2)) (uint16 (Bytes.slice data 8 2)) lim data.length 0 0
    (skipColorTable (data.getD 10 0) (data.drop 13))

end Gif

end Scrumboy
