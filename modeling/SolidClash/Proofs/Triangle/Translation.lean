import SolidClash.Proofs.Mesh.Contact

namespace SolidClash

namespace Vec

lemma add_sub_add_right (p q v : Vec ℝ) : p + v - (q + v) = p - q := by
  apply eq_of_along
  intro k
  rw [along_sub, along_add, along_add, along_sub, add_sub_add_right_eq_sub]

lemma inf_add_add_right (p q v : Vec ℝ) : (p + v).inf (q + v) = p.inf q + v := by
  have hinf (p q : Vec ℝ) (k : Axis) : (p.inf q).along k = min (p.along k) (q.along k) := by
    cases k <;> exact Scalar.inf_real _ _
  apply eq_of_along
  intro k
  rw [hinf, along_add, along_add, along_add, hinf, min_add_add_right]

lemma sup_add_add_right (p q v : Vec ℝ) : (p + v).sup (q + v) = p.sup q + v := by
  have hsup (p q : Vec ℝ) (k : Axis) : (p.sup q).along k = max (p.along k) (q.along k) := by
    cases k <;> exact Scalar.sup_real _ _
  apply eq_of_along
  intro k
  rw [hsup, along_add, along_add, along_add, hsup, max_add_add_right]

end Vec

namespace Box

def translated (b : Box ℝ) (v : Vec ℝ) : Box ℝ := ⟨b.min + v, b.max + v⟩

lemma overlaps_translated (a b : Box ℝ) (v : Vec ℝ) :
    (a.translated v).Overlaps (b.translated v) ↔ a.Overlaps b := by
  simp only [overlaps_iff, translated, Vec.along_add, add_le_add_iff_right]

end Box

namespace Triangle

def translated (t : Triangle ℝ) (v : Vec ℝ) : Triangle ℝ := ⟨t.a + v, t.b + v, t.c + v⟩

variable {s t : Triangle ℝ} {v : Vec ℝ} {ε : ℝ}

lemma mapCorners_translated {β : Type} (t : Triangle ℝ) (v : Vec ℝ) (f : Vec ℝ → β) :
    (t.translated v).mapCorners f = t.mapCorners fun p => f (p + v) := rfl

lemma normal_translated (t : Triangle ℝ) (v : Vec ℝ) : (t.translated v).normal = t.normal := by
  simp only [normal, translated, Vec.add_sub_add_right]

lemma unitNormal_translated (t : Triangle ℝ) (v : Vec ℝ) :
    (t.translated v).unitNormal? = t.unitNormal? := by
  rw [unitNormal?, normal_translated, unitNormal?]

lemma bounds_translated (t : Triangle ℝ) (v : Vec ℝ) :
    (t.translated v).bounds = t.bounds.translated v := by
  simp only [bounds, Box.translated, translated, Box.ofPoint, Box.cover, Vec.inf_add_add_right,
    Vec.sup_add_add_right]

lemma distances_translated (t : Triangle ℝ) (v n o : Vec ℝ) (least : ℝ) :
    (t.translated v).distances n (o + v) least = t.distances n o least := by
  simp only [distances, mapCorners_translated, Vec.add_sub_add_right]

lemma overlapInPlane_translated (s t : Triangle ℝ) (v n₁ n₂ : Vec ℝ) (ε : ℝ) :
    overlapInPlane (s.translated v) (t.translated v) n₁ n₂ ε = overlapInPlane s t n₁ n₂ ε := by
  have ha : (s.translated v).a = s.a + v := rfl
  simp only [overlapInPlane, mapCorners_translated, ha, Vec.add_sub_add_right]

lemma overlapOnLine_translated (s t : Triangle ℝ) (v n₁ n₂ : Vec ℝ) (ds dt : Triple ℝ) (ε : ℝ) :
    overlapOnLine (s.translated v) (t.translated v) n₁ n₂ ds dt ε =
      overlapOnLine s t n₁ n₂ ds dt ε := by
  have ha : (s.translated v).a = s.a + v := rfl
  simp only [overlapOnLine, mapCorners_translated, ha, Vec.along_add, add_sub_add_right_eq_sub]

lemma intersects_translated (hsnap : (s.translated v).snap (t.translated v) ε = s.snap t ε)
    (ε₂ : ℝ) :
    (s.translated v).intersects (t.translated v) ε ε₂ = s.intersects t ε ε₂ := by
  have hs : (s.translated v).a = s.a + v := rfl
  have ht : (t.translated v).a = t.a + v := rfl
  simp only [intersects, unitNormal_translated, hsnap, hs, ht, distances_translated,
    overlapInPlane_translated, overlapOnLine_translated]

/-- No corner's coordinate is so large that its rounding noise exceeds `ε`. -/
def NoiseWithin (t : Triangle ℝ) (ε : ℝ) : Prop := planeNoise * (1 + t.magnitude) ≤ ε

lemma NoiseWithin.snap_eq (hs : s.NoiseWithin ε) (ht : t.NoiseWithin ε) : s.snap t ε = ε := by
  rw [snap, Scalar.maxNum_real, Scalar.maxNum_real, max_eq_left]
  rcases max_choice s.magnitude t.magnitude with h | h
  · rwa [h]
  · rwa [h]

lemma noiseWithin_of_le {r : ℝ} (h : ∀ p ∈ t.corners, ∀ k, |p.along k| ≤ r)
    (hr : planeNoise * (1 + r) ≤ ε) : t.NoiseWithin ε := by
  obtain ⟨ha, hb, hc⟩ := forall_mem_corners.mp h
  have hall {p : Vec ℝ} (hp : ∀ k, |p.along k| ≤ r) : |p.x| ≤ r ∧ |p.y| ≤ r ∧ |p.z| ≤ r :=
    ⟨hp .x, hp .y, hp .z⟩
  have hle : t.magnitude ≤ r := by
    simp [magnitude, corners, Vec.toList, hall ha, hall hb, hall hc]
  have hpos : (0 : ℝ) ≤ planeNoise := by norm_num [planeNoise]
  exact (mul_le_mul_of_nonneg_left (by linarith) hpos).trans hr

lemma abs_along_translated_le {r q : ℝ}
    (h : ∀ p ∈ t.corners, ∀ k, |p.along k| ≤ r) (hv : ∀ k, |v.along k| ≤ q) :
    ∀ p ∈ (t.translated v).corners, ∀ k, |p.along k| ≤ r + q := by
  have hsum {p : Vec ℝ} (hp : ∀ k, |p.along k| ≤ r) (k : Axis) : |(p + v).along k| ≤ r + q := by
    rw [Vec.along_add]
    exact (abs_add_le _ _).trans (add_le_add (hp k) (hv k))
  obtain ⟨ha, hb, hc⟩ := forall_mem_corners.mp h
  exact forall_mem_corners.mpr ⟨hsum ha, hsum hb, hsum hc⟩

end Triangle

end SolidClash
