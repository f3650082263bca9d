import Mathlib.Algebra.Group.Int.Defs
import Mathlib.Tactic.SplitIfs

namespace Lib.Signed

-- Two's complement: from 2^62 on the double of a positive word is negative.
theorem toInt_double (x : Int64) (h : 0 < x.toInt) :
    (x * 2).toInt = if x.toInt < 2 ^ 62 then x.toInt * 2 else x.toInt * 2 - 2 ^ 64 := by
  have hlt := x.toInt_lt
  have htwo : (2 : Int64).toInt = 2 := rfl
  rw [Int64.toInt_mul, htwo, Int.bmod_def]
  split_ifs <;> omega

theorem toInt_add_of_nonneg {x y : Int64} (hx : 0 ≤ x.toInt) (hy : 0 ≤ y.toInt) :
    (x + y).toInt =
      if x.toInt + y.toInt < 2 ^ 63 then x.toInt + y.toInt else x.toInt + y.toInt - 2 ^ 64 := by
  have hxlt := x.toInt_lt
  have hylt := y.toInt_lt
  rw [Int64.toInt_add, Int.bmod_def]
  split_ifs <;> omega

theorem toInt_half (x : Int64) : (x / 2).toInt = x.toInt.tdiv 2 :=
  Int64.toInt_div_of_ne_right x 2 (by decide)

-- A field that is not set has its default.
theorem toInt_default_pos (x : Int64) {default : Int64} (h : 0 < default.toInt) :
    0 < (if x ≤ 0 then default else x).toInt := by
  split_ifs with hx
  · exact h
  · rw [Int64.le_iff_toInt_le] at hx
    exact Int.not_le.mp hx

theorem toInt_ite_lt (x y : Int64) : (if x < y then y else x).toInt = max x.toInt y.toInt := by
  simp only [Int64.lt_iff_toInt_lt]
  split_ifs <;> omega

theorem toInt_ite_gt (x y : Int64) : (if x > y then y else x).toInt = min x.toInt y.toInt := by
  simp only [gt_iff_lt, Int64.lt_iff_toInt_lt]
  split_ifs <;> omega

-- The built-in functions min and max.
def least (x y : Int64) : Int64 := if x > y then y else x

def greatest (x y : Int64) : Int64 := if x < y then y else x

theorem toInt_least (x y : Int64) : (least x y).toInt = min x.toInt y.toInt := toInt_ite_gt x y

theorem toInt_greatest (x y : Int64) : (greatest x y).toInt = max x.toInt y.toInt :=
  toInt_ite_lt x y

end Lib.Signed
