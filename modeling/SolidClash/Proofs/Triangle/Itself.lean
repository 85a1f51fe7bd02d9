import SolidClash.Proofs.Triangle.Interior

namespace SolidClash.Triangle

open Vec

variable {t : Triangle ℝ} {m : Axis}

namespace Triple

variable {p : Triple (Vec2 ℝ)} {e : Vec2 ℝ}

lemma Proper.width_pos (hp : p.Proper) (he : e.dot e ≠ 0) :
    0 < max (max (p.a.dot e) (p.b.dot e)) (p.c.dot e) -
      min (min (p.a.dot e) (p.b.dot e)) (p.c.dot e) := by
  by_contra h
  have hflat := sub_nonpos.mp (not_lt.mp h)
  have hsame {x y : ℝ} (hx : x ≤ max (max (p.a.dot e) (p.b.dot e)) (p.c.dot e))
      (hy : min (min (p.a.dot e) (p.b.dot e)) (p.c.dot e) ≤ y) : x ≤ y :=
    hx.trans (hflat.trans hy)
  have hb : p.b.dot e = p.a.dot e :=
    le_antisymm (hsame (by simp) (by simp)) (hsame (by simp) (by simp))
  have hc : p.c.dot e = p.a.dot e :=
    le_antisymm (hsame (by simp) (by simp)) (hsame (by simp) (by simp))
  exact hp (Vec2.turn_of_dot he hb hc)

lemma Proper.not_separatedOn_self (hp : p.Proper) (he : e.dot e ≠ 0) (ε : ℝ) :
    ¬ SeparatedOn p p e ε := by
  have hwidth := hp.width_pos he
  rw [separatedOn_iff, min_self, max_self, min_self, not_le]
  -- the tolerance is at most a quarter of the width
  refine (min_le_right _ _).trans_lt ?_
  linarith

end Triple

lemma shadowsOverlap_self (h : (t.outline m).Proper) (ε : ℝ) : ShadowsOverlap t t m ε := by
  intro e he
  rw [List.mem_append, or_self] at he
  obtain ⟨d, -, hd⟩ := List.mem_filterMap.mp he
  have hone : e.dot e = 1 := Vec2.dot_self_of_unit (by norm_num) hd
  exact h.not_separatedOn_self (hone.trans_ne one_ne_zero) ε

lemma isDegenerate_iff (t : Triangle ℝ) : t.IsDegenerate ↔ t.normal.norm ≤ 1e-20 := by
  rw [IsDegenerate, unitNormal?, unit?]
  split <;> simp [*]

/-- A triangle meets itself exactly if its normal is long enough to have a direction, however thin,
large or tilted it is and whatever the tolerances are. -/
theorem intersects_self_iff (t : Triangle ℝ) (ε ε₂ : ℝ) :
    t.intersects t ε ε₂ = true ↔ 1e-20 < t.normal.norm := by
  rw [← not_le, ← isDegenerate_iff, IsDegenerate]
  cases hn : t.unitNormal? with
  | none => simp [intersects, hn]
  | some n =>
    obtain ⟨hone, hplane⟩ := dot_unitNormal hn
    have hflat : ∀ p ∈ t.corners, n.dot (p - t.a) = 0 := by
      intro p hp
      rw [dot_sub, hplane p hp, sub_self]
    have hproper : (t.outline n.dominant).Proper :=
      proper_outline (normal_along_ne_zero hn (along_unitNormal_ne_zero hn))
    rw [intersects_flat_iff hn hn hflat]
    exact iff_of_true ⟨hone ▸ zero_le_one, shadowsOverlap_self hproper ε⟩ (by simp)

end SolidClash.Triangle
