/- source: none
   digest: The order of wrapped numbers inside a window of half their range. -/

import Mathlib.Algebra.Order.Ring.Int

set_option autoImplicit false

namespace AndroidBoot.Foundation.HalfRange

variable {w : Nat} {b x y : BitVec w}

def ahead (b x : BitVec w) : Nat := (x - b).toNat

/-- `x` is in the half of the range that starts at `b`. -/
def Within (b x : BitVec w) : Prop := 2 * ahead b x < 2 ^ w

instance decidableWithin (b x : BitVec w) : Decidable (Within b x) :=
  inferInstanceAs (Decidable (_ < _))

theorem toInt_sub_of_within (hx : Within b x) (hy : Within b y) :
    (x - y).toInt = (ahead b x : Int) - ahead b y := by
  have shifted : x - y = (x - b) - (y - b) := by grind
  have left : (x - b).toInt = ahead b x := BitVec.toInt_eq_toNat_of_lt hx
  have right : (y - b).toInt = ahead b y := BitVec.toInt_eq_toNat_of_lt hy
  unfold Within at hx hy
  rw [shifted, BitVec.toInt_sub, left, right]
  apply Int.bmod_eq_of_le_mul_two
  · omega
  · omega

theorem ahead_add {d : BitVec w} (fits : 2 * (ahead b x + d.toNat) < 2 ^ w) :
    ahead b (x + d) = ahead b x + d.toNat := by
  have shifted : x + d - b = (x - b) + d := by grind
  unfold ahead at *
  rw [shifted]
  apply BitVec.toNat_add_of_lt
  omega

theorem within_add {d : BitVec w} (fits : 2 * (ahead b x + d.toNat) < 2 ^ w) :
    Within b (x + d) := by
  unfold Within
  rwa [ahead_add fits]

end AndroidBoot.Foundation.HalfRange
