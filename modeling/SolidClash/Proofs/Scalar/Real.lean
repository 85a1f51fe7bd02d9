import Mathlib.Analysis.Real.Sqrt
import SolidClash.Proofs.Scalar.Order

namespace SolidClash

open scoped Classical in
noncomputable instance : Scalar ℝ where
  decLe _ _ := inferInstance
  decLt _ _ := inferInstance
  sqrt := Real.sqrt
  isFinite _ := true
  cell a := Scalar.clampCell ⌊a⌋

instance : OrderedScalar ℝ where
  trans_le := le_trans
  lt_iff_le := lt_iff_le_not_ge
  total_le _ _ := le_total _ _
  left_number _ := le_rfl
  right_number _ := le_rfl
  finite_number _ := le_rfl

namespace Scalar

variable (a b : ℝ)

@[simp] lemma isNumber_real : IsNumber a := le_rfl

@[simp] lemma isZero_real : IsZero a ↔ a = 0 := le_antisymm_iff.symm

@[simp] lemma abs_real : Scalar.abs a = |a| := by
  rw [Scalar.abs]
  split
  · rw [abs_of_neg ‹_›]
  · rw [abs_of_nonneg (not_lt.mp ‹_›)]

@[simp] lemma inf_real : inf a b = min a b := by
  simp [inf, min_def]

@[simp] lemma sup_real : sup a b = max a b := by
  simp [sup, max_def']

@[simp] lemma minNum_real : minNum a b = min a b := by
  simp [minNum, min_def]

@[simp] lemma maxNum_real : maxNum a b = max a b := by
  simp [maxNum, max_def']

lemma range_real (a b c : ℝ) :
    range [a, b, c] = some (min (min a b) c, max (max a b) c) := by
  simp [range]

end Scalar

end SolidClash
