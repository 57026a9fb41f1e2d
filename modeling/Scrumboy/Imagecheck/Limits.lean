import Scrumboy.Go.Bytes
import Scrumboy.Go.Errors
import Scrumboy.Go.Int64

/-!
# What an image may be

The limits that an image of a story note is checked against, and the ways in which it fails.
-/

namespace Scrumboy

open Go

inductive ImageError
  | tooLarge
  | unsupportedFormat
  | dimensions
  | corrupt
  | trailingData
  | tooManyFrames
  | invalidAnimation
  deriving DecidableEq, Repr

/-- A limit that is not positive is off. -/
structure Limits where
  maxBytes : ℤ
  maxPixels : ℤ
  maxSide : ℤ
  maxFrames : ℤ
  maxTotalFramePixels : ℤ
  deriving DecidableEq, Repr

def defaultLimits : Limits where
  maxBytes := 10485760
  maxPixels := 25000000
  maxSide := 16384
  maxFrames := 300
  maxTotalFramePixels := 100000000

/-- A value is over a limit that is on. -/
def exceeds (limit value : ℤ) : Prop := 0 < limit ∧ limit < value

instance (limit value : ℤ) : Decidable (exceeds limit value) := inferInstanceAs (Decidable (_ ∧ _))

theorem exceeds_mono {limit value value' : ℤ} (h : value ≤ value') (hover : exceeds limit value) :
    exceeds limit value' :=
  ⟨hover.1, lt_of_lt_of_le hover.2 h⟩

/-- The dimensions of an image are positive and within the limits. -/
def checkDims (width height : ℤ) (lim : Limits) : Except ImageError Unit := do
  reject (width ≤ 0 ∨ height ≤ 0) .dimensions
  reject (exceeds lim.maxSide width ∨ exceeds lim.maxSide height) .dimensions
  reject (exceeds lim.maxPixels (wrap (width * height))) .dimensions

end Scrumboy
