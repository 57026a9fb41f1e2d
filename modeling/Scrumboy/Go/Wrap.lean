import Scrumboy.Go.Int64
import Mathlib.Data.Int.ModEq

/-!
# Wrapped arithmetic

`wrap` keeps an integer modulo `2 ^ 64`, so that a chain of wrapped operations has the wrapped value
of the exact result, whatever overflowed on the way.
-/

namespace Go

theorem wrap_modEq (a : ℤ) : wrap a ≡ a [ZMOD 18446744073709551616] := by
  unfold wrap Int.ModEq
  omega

theorem wrap_eq_wrap_iff {a b : ℤ} : wrap a = wrap b ↔ a ≡ b [ZMOD 18446744073709551616] := by
  unfold wrap Int.ModEq
  omega

@[simp] theorem wrap_add_left (a b : ℤ) : wrap (wrap a + b) = wrap (a + b) :=
  wrap_eq_wrap_iff.mpr ((wrap_modEq a).add_right b)

@[simp] theorem wrap_add_right (a b : ℤ) : wrap (a + wrap b) = wrap (a + b) :=
  wrap_eq_wrap_iff.mpr ((wrap_modEq b).add_left a)

@[simp] theorem wrap_mul_left (a b : ℤ) : wrap (wrap a * b) = wrap (a * b) :=
  wrap_eq_wrap_iff.mpr ((wrap_modEq a).mul_right b)

@[simp] theorem wrap_mul_right (a b : ℤ) : wrap (a * wrap b) = wrap (a * b) :=
  wrap_eq_wrap_iff.mpr ((wrap_modEq b).mul_left a)

end Go
