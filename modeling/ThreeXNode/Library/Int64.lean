import Mathlib.Tactic.Ring

namespace ThreeXNode.Library

/-- Two's-complement reduction to the range of a signed 64-bit integer. -/
def wrap64 (x : Int) : Int := (x + 9223372036854775808) % 18446744073709551616 - 9223372036854775808

def InInt64 (x : Int) : Prop := -9223372036854775808 ≤ x ∧ x < 9223372036854775808

instance (x : Int) : Decidable (InInt64 x) := by unfold InInt64; infer_instance

theorem wrap64_range (x : Int) : InInt64 (wrap64 x) := by
  unfold wrap64 InInt64
  omega

theorem wrap64_eq {x : Int} (h : InInt64 x) : wrap64 x = x := by
  unfold InInt64 at h
  unfold wrap64
  omega

theorem wrap64_add (a b : Int) : wrap64 (wrap64 a + b) = wrap64 (a + b) := by
  unfold wrap64
  omega

end ThreeXNode.Library
