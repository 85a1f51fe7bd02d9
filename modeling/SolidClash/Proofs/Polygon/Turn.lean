import SolidClash.Proofs.Vec

namespace SolidClash

namespace Vec2

noncomputable def toward (p q : Vec2 ℝ) (r : ℝ) : Vec2 ℝ :=
  ⟨p.x + (q.x - p.x) * r, p.y + (q.y - p.y) * r⟩

variable (a b c d o p q : Vec2 ℝ) (r s : ℝ)

lemma turn_rotate : turn b c a = turn a b c := by
  simp only [turn]
  ring

lemma turn_swap : turn a c b = -turn a b c := by
  simp only [turn]
  ring

@[simp] lemma turn_self_left : turn a a c = 0 := by
  simp only [turn]
  ring

@[simp] lemma turn_self_right : turn a b b = 0 := by
  simp only [turn]
  ring

@[simp] lemma turn_self_outer : turn a b a = 0 := by
  simp only [turn]
  ring

lemma turn_toward : turn a b (toward p q r) = (1 - r) * turn a b p + r * turn a b q := by
  simp only [turn, toward]
  ring

lemma toward_turn : turn (toward p q r) b c = (1 - r) * turn p b c + r * turn q b c := by
  simp only [turn, toward]
  ring

lemma turn_mul_turn :
    turn o b c * turn a b d = turn a b c * turn o b d + turn o a b * turn b c d := by
  simp only [turn]
  ring

lemma turn_mul_sub_turn_mul : turn a b q * turn b c p - turn a b p * turn b c q =
    -(turn p q b * turn a b c) := by
  simp only [turn]
  ring

@[simp] lemma toward_zero : toward p q 0 = p := by
  simp only [toward, mul_zero, add_zero]

@[simp] lemma toward_one : toward p q 1 = q := by
  simp only [toward, mul_one, add_sub_cancel]

lemma toward_toward_left : toward p (toward p q s) r = toward p q (s * r) := by
  simp only [toward]
  congr 1 <;> ring

lemma toward_toward_right : toward (toward p q s) q r = toward p q (s + (1 - s) * r) := by
  simp only [toward]
  congr 1 <;> ring

variable {a b c d o p q}

lemma exists_toward (hne : p ≠ q) (h : turn p q a = 0) : ∃ r, a = toward p q r := by
  obtain ⟨x, y⟩ := p
  obtain ⟨x', y'⟩ := q
  obtain ⟨u, v⟩ := a
  simp only [turn] at h
  simp only [toward]
  by_cases hx : x' - x = 0
  · have hy : y' - y ≠ 0 := by
      intro hy
      exact hne (by rw [sub_eq_zero.mp hx, sub_eq_zero.mp hy])
    refine ⟨(v - y) / (y' - y), ?_⟩
    congr 1
    · rw [hx, zero_mul, zero_sub, neg_eq_zero] at h
      rw [hx, zero_mul, add_zero]
      exact sub_eq_zero.mp ((mul_eq_zero.mp h).resolve_left hy)
    · field_simp
      ring
  · refine ⟨(u - x) / (x' - x), ?_⟩
    congr 1
    · field_simp
      ring
    · field_simp
      linarith

lemma ne_of_turn (h : 0 < turn a b c) : a ≠ b := by
  rintro rfl
  exact h.ne' (turn_self_left a c)

lemma nonneg_of_turn (h : 0 < turn a b c) (hr : 0 ≤ turn a b (toward b c r)) : 0 ≤ r := by
  rw [turn_toward, turn_self_right, mul_zero, zero_add] at hr
  exact nonneg_of_mul_nonneg_left hr h

lemma le_one_of_turn (h : 0 < turn a b c) (hr : 0 ≤ turn b c (toward a b r)) : r ≤ 1 := by
  rw [turn_toward, turn_self_outer, mul_zero, add_zero, turn_rotate] at hr
  exact sub_nonneg.mp (nonneg_of_mul_nonneg_left hr h)

end Vec2

end SolidClash
