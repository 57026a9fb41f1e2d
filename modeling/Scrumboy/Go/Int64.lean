import Mathlib.Tactic.NormNum

/-!
# Machine integers

Go's `int64` values are modelled as integers, and an operation that may leave
the 64-bit range is followed by `wrap`, the two's complement reduction. Inside
the range `wrap` does nothing, so a proof that bounds its operands can forget
about it.
-/

namespace Go

def minInt64 : ℤ := -9223372036854775808

def maxInt64 : ℤ := 9223372036854775807

/-- Reduction modulo `2 ^ 64` into the signed range. -/
def wrap (n : ℤ) : ℤ := (n + 9223372036854775808) % 18446744073709551616 - 9223372036854775808

/-- A value of type `int64`. -/
def IsInt64 (n : ℤ) : Prop := minInt64 ≤ n ∧ n ≤ maxInt64

instance (n : ℤ) : Decidable (IsInt64 n) := inferInstanceAs (Decidable (_ ∧ _))

theorem wrap_isInt64 (n : ℤ) : IsInt64 (wrap n) := by
  unfold IsInt64 wrap minInt64 maxInt64
  omega

theorem wrap_eq_self {n : ℤ} (h : IsInt64 n) : wrap n = n := by
  unfold IsInt64 minInt64 maxInt64 at h
  unfold wrap
  omega

/-- Above the range the reduction takes off `2 ^ 64`. -/
theorem wrap_eq_sub {n : ℤ} (h : maxInt64 < n) (h' : n ≤ maxInt64 + 18446744073709551616) :
    wrap n = n - 18446744073709551616 := by
  unfold maxInt64 at h h'
  unfold wrap
  omega

end Go
