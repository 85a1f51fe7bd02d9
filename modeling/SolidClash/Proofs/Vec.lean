import Mathlib.Tactic.FieldSimp
import Mathlib.Tactic.LinearCombination
import SolidClash.Proofs.Scalar.Real
import SolidClash.Vec

namespace SolidClash

namespace Vec

variable {v w n x : Vec ℝ} {k m : Axis}

lemma dot_comm (v w : Vec ℝ) : v.dot w = w.dot v := by
  simp only [dot]
  ring

lemma dot_add (n p q : Vec ℝ) : n.dot (p + q) = n.dot p + n.dot q := by
  change n.x * (p.x + q.x) + n.y * (p.y + q.y) + n.z * (p.z + q.z) = _
  rw [dot, dot]
  ring

lemma dot_sub (n p q : Vec ℝ) : n.dot (p - q) = n.dot p - n.dot q := by
  change n.x * (p.x - q.x) + n.y * (p.y - q.y) + n.z * (p.z - q.z) = _
  rw [dot, dot]
  ring

lemma scale_dot (v w : Vec ℝ) (r : ℝ) : (v.scale r).dot w = r * v.dot w := by
  simp only [scale, map, dot]
  ring

lemma flipped_dot (v w : Vec ℝ) : (v.scale (-1)).dot w = -v.dot w := by
  rw [scale_dot, neg_one_mul]

lemma sub_scale_dot (w n p : Vec ℝ) (r : ℝ) :
    (w - n.scale r).dot p = w.dot p - r * n.dot p := by
  change (w.x - n.x * r) * p.x + (w.y - n.y * r) * p.y + (w.z - n.z * r) * p.z = _
  rw [dot, dot]
  ring

lemma sub_scale_along (w n : Vec ℝ) (r : ℝ) (k : Axis) :
    (w - n.scale r).along k = w.along k - n.along k * r := by
  cases k <;> rfl

lemma along_scale (v : Vec ℝ) (r : ℝ) (m : Axis) : (v.scale r).along m = v.along m * r := by
  cases m <;> rfl

lemma along_add (v w : Vec ℝ) (k : Axis) : (v + w).along k = v.along k + w.along k := by
  cases k <;> rfl

lemma along_sub (v w : Vec ℝ) (k : Axis) : (v - w).along k = v.along k - w.along k := by
  cases k <;> rfl

lemma dot_onto (h : w.along m = 0) (p : Vec ℝ) :
    (p.onto m.others).dot (w.onto m.others) = w.dot p := by
  cases m <;> simp only [along] at h <;> simp [onto, Axis.others, Vec2.dot, dot, along, h] <;> ring

lemma eq_of_along {p q : Vec ℝ} (h : ∀ k, p.along k = q.along k) : p = q := by
  obtain ⟨x, y, z⟩ := p
  obtain ⟨x', y', z'⟩ := q
  have hx : x = x' := h .x
  have hy : y = y' := h .y
  have hz : z = z' := h .z
  rw [hx, hy, hz]

lemma eq_of_onto {p q : Vec ℝ} (hm : n.along m ≠ 0) (hn : n.dot p = n.dot q)
    (hpq : p.onto m.others = q.onto m.others) : p = q := by
  obtain ⟨x, y, z⟩ := p
  obtain ⟨x', y', z'⟩ := q
  obtain ⟨h₁, h₂⟩ := Vec2.mk.inj hpq
  simp only [dot] at hn
  cases m <;> simp only [along, Axis.others] at hm h₁ h₂ <;> subst h₁ h₂ <;> simp_all

lemma along_dominant_ne_zero (h : v ≠ ⟨0, 0, 0⟩) : v.along v.dominant ≠ 0 := by
  intro hzero
  apply h
  obtain ⟨x, y, z⟩ := v
  simp only [dominant, map, Scalar.abs_real] at hzero
  have hx := abs_nonneg x
  have hy := abs_nonneg y
  have hz := abs_nonneg z
  have hle {a b : ℝ} (h : ¬ |a| < |b|) (ha : a = 0) : b = 0 := by
    rw [ha, abs_zero] at h
    exact abs_nonpos_iff.mp (not_lt.mp h)
  have hlt {a b : ℝ} (h : |a| < |b|) (hb : b = 0) : False := by
    rw [hb, abs_zero] at h
    exact (abs_nonneg a).not_gt h
  split_ifs at hzero with hxy hyz hxz <;> simp only [along] at hzero
  · exact (hlt hyz hzero).elim
  · exact (hlt hxy hzero).elim
  · exact (hlt hxz hzero).elim
  · rw [hzero, hle hxy hzero, hle hxz hzero]

lemma unit_spec {least : ℝ} (hl : 0 ≤ least) (h : v.unit? least = some n) :
    n.dot n = 1 ∧ ∃ r, n = v.scale r := by
  rw [unit?] at h
  split at h
  · simp at h
  · rename_i hlong
    obtain rfl := Option.some.inj h
    have hpos : 0 < v.norm := hl.trans_lt (not_le.mp hlong)
    have hsq : v.norm * v.norm = v.dot v :=
      Real.mul_self_sqrt (add_nonneg (add_nonneg (mul_self_nonneg _) (mul_self_nonneg _))
        (mul_self_nonneg _))
    have hscale : v.map (· / v.norm) = v.scale (1 / v.norm) := by
      simp only [scale, map, mul_one_div]
    refine ⟨?_, _, hscale⟩
    rw [hscale, scale_dot, dot_comm, scale_dot, ← hsq]
    field_simp

lemma eq_zero_of_dot_self (h : v.dot v = 0) : v = ⟨0, 0, 0⟩ := by
  obtain ⟨x, y, z⟩ := v
  simp only [dot] at h
  have hx := mul_self_nonneg x
  have hy := mul_self_nonneg y
  have hz := mul_self_nonneg z
  rw [mul_self_eq_zero.mp (by linarith : x * x = 0), mul_self_eq_zero.mp (by linarith : y * y = 0),
    mul_self_eq_zero.mp (by linarith : z * z = 0)]

lemma cross_dot_left (v w : Vec ℝ) : (v.cross w).dot v = 0 := by
  simp only [dot, cross]
  ring

lemma cross_dot_right (v w : Vec ℝ) : (v.cross w).dot w = 0 := by
  simp only [dot, cross]
  ring

lemma cross_of_onto (hv : v.onto m.others = ⟨0, 0⟩) (hw : w.onto m.others = ⟨0, 0⟩) :
    v.cross w = ⟨0, 0, 0⟩ := by
  obtain ⟨hv, hv'⟩ := Vec2.mk.inj hv
  obtain ⟨hw, hw'⟩ := Vec2.mk.inj hw
  cases m <;> simp_all [cross, along, Axis.others]

lemma cross_of_across {a b : Vec ℝ} (ha : a.dot v = 0) (hb : b.dot v = 0) (r : ℝ) :
    ((a.cross b).scale r).cross v = ⟨0, 0, 0⟩ := by
  simp only [dot] at ha hb
  simp only [scale, map, cross]
  congr 1
  · linear_combination b.x * r * ha - a.x * r * hb
  · linear_combination b.y * r * ha - a.y * r * hb
  · linear_combination b.z * r * ha - a.z * r * hb

lemma dot_of_cross (h : v.cross w = ⟨0, 0, 0⟩) (hw : w.dot w = 1) (x : Vec ℝ) :
    v.dot x = v.dot w * w.dot x := by
  obtain ⟨hx, hy, hz⟩ := Vec.mk.inj h
  simp only [dot] at hw ⊢
  -- the difference is the product of two cross products
  linear_combination (-(v.x * x.x + v.y * x.y + v.z * x.z)) * hw +
    (x.y * w.z - x.z * w.y) * hx + (x.z * w.x - x.x * w.z) * hy + (x.x * w.y - x.y * w.x) * hz

lemma dot_of_across {a b : Vec ℝ} (ha : a.dot v = 0) (hb : b.dot v = 0) (w : Vec ℝ) (m : Axis) :
    w.dot v * (a.cross b).along m = v.along m * w.dot (a.cross b) := by
  simp only [dot] at ha hb ⊢
  cases m <;> simp only [along, cross]
  · linear_combination (w.y * b.z - w.z * b.y) * ha - (w.y * a.z - w.z * a.y) * hb
  · linear_combination (w.z * b.x - w.x * b.z) * ha - (w.z * a.x - w.x * a.z) * hb
  · linear_combination (w.x * b.y - w.y * b.x) * ha - (w.x * a.y - w.y * a.x) * hb

end Vec

end SolidClash
