import SolidClash.Proofs.Triangle.Touching
import SolidClash.Proofs.Mesh.Contact

namespace SolidClash.Triangle

open Vec

variable {s t : Triangle ℝ} {k : Axis} {n₁ n₂ : Vec ℝ} {ε : ℝ}

def InPlane (s t : Triangle ℝ) (n₁ n₂ : Vec ℝ) (ε : ℝ) : Prop :=
  (s.heights t n₂ ε).AllZero ∨ (t.heights s n₁ ε).AllZero

def Sees (s t : Triangle ℝ) (n₁ n₂ : Vec ℝ) (ε : ℝ) (k : Axis) : Prop :=
  InPlane s t n₁ n₂ ε ∧ n₁.dominant ≠ k ∨ ¬ InPlane s t n₁ n₂ ε ∧ (n₁.cross n₂).dominant = k

/-- What lets triangles that are at most in contact on an axis pass for penetrating each other: they
are flush, or corners are snapped while the test does not look along the axis, or an edge of a
shadow is too short. -/
inductive Grazes (s t : Triangle ℝ) (k : Axis) (ε : ℝ) : Prop
  | flush (h : s.Flush t k)
  | snapped (n₁ n₂ : Vec ℝ) (hs : s.unitNormal? = some n₁) (ht : t.unitNormal? = some n₂)
      (hunseen : ¬ Sees s t n₁ n₂ ε k) (hsnap : Snapped s t n₁ n₂ ε)
  | short (n₁ n₂ : Vec ℝ) (hs : s.unitNormal? = some n₁) (ht : t.unitNormal? = some n₂)
      (hplane : InPlane s t n₁ n₂ ε) (hshort : HasShortShadow s t n₁.dominant)

lemma flat_of_inPlane (hs : s.unitNormal? = some n₁) (ht : t.unitNormal? = some n₂)
    (hz : InPlane s t n₁ n₂ ε) (hsnap : ¬ Snapped s t n₁ n₂ ε) :
    ∀ q ∈ t.corners, n₁.dot q = n₁.dot s.a := by
  obtain ⟨hos, hot⟩ := heights_of_not_snapped hsnap
  have hzero {r : Triangle ℝ} {n o : Vec ℝ} (h : (r.offsets n o).AllZero) :
      ∀ p ∈ r.corners, n.dot p = n.dot o := by
    obtain ⟨ha, hb, hc⟩ := h
    simp only [offsets, mapCorners, dot_sub, Scalar.isZero_real, sub_eq_zero] at ha hb hc
    exact forall_mem_corners.mpr ⟨ha, hb, hc⟩
  rcases hz with hz | hz
  · rw [hos] at hz
    have hs' := hzero hz
    obtain ⟨ha, -⟩ := forall_mem_corners.mp hs'
    obtain ⟨hone, hplane⟩ := dot_unitNormal ht
    have hpar := dot_of_flat hone hs hs'
    intro q hq
    rw [hpar q, hpar s.a, hplane q hq, ha]
  · rw [hot] at hz
    exact hzero hz

section Bounds

lemma bounds_min_along (t : Triangle ℝ) (k : Axis) :
    t.bounds.min.along k = min (min (t.a.along k) (t.b.along k)) (t.c.along k) := by
  cases k <;> simp [bounds, Box.ofPoint, Box.cover, Vec.inf, Vec.sup, Vec.zipWith, Vec.along]

lemma bounds_max_along (t : Triangle ℝ) (k : Axis) :
    t.bounds.max.along k = max (max (t.a.along k) (t.b.along k)) (t.c.along k) := by
  cases k <;> simp [bounds, Box.ofPoint, Box.cover, Vec.inf, Vec.sup, Vec.zipWith, Vec.along]

lemma mem_bounds (t : Triangle ℝ) (k : Axis) : ∀ p ∈ t.corners,
    t.bounds.min.along k ≤ p.along k ∧ p.along k ≤ t.bounds.max.along k := by
  rw [bounds_min_along, bounds_max_along]
  exact forall_mem_corners.mpr (by simp)

lemma exists_at_min (t : Triangle ℝ) (k : Axis) :
    ∃ p ∈ t.corners, p.along k = t.bounds.min.along k := by
  rw [bounds_min_along]
  rcases min_choice (min (t.a.along k) (t.b.along k)) (t.c.along k) with h | h
  · rcases min_choice (t.a.along k) (t.b.along k) with h' | h' <;> rw [h, h']
    · exact ⟨t.a, by simp [corners], rfl⟩
    · exact ⟨t.b, by simp [corners], rfl⟩
  · exact ⟨t.c, by simp [corners], h.symm⟩

lemma exists_at_max (t : Triangle ℝ) (k : Axis) :
    ∃ p ∈ t.corners, p.along k = t.bounds.max.along k := by
  rw [bounds_max_along]
  rcases max_choice (max (t.a.along k) (t.b.along k)) (t.c.along k) with h | h
  · rcases max_choice (t.a.along k) (t.b.along k) with h' | h' <;> rw [h, h']
    · exact ⟨t.a, by simp [corners], rfl⟩
    · exact ⟨t.b, by simp [corners], rfl⟩
  · exact ⟨t.c, by simp [corners], h.symm⟩

lemma exists_touching (ho : s.bounds.Overlaps t.bounds) (hk : s.bounds.ApartOn t.bounds k) :
    ∃ r c, r ≠ 0 ∧ Touching s t (axial k r) c := by
  obtain ⟨hst, hts⟩ := Box.overlaps_iff.mp ho k
  rcases hk with hk | hk
  · have heq : s.bounds.max.along k = t.bounds.min.along k := le_antisymm hk hst
    refine ⟨1, s.bounds.max.along k, one_ne_zero, ?_⟩
    constructor <;> simp only [dot_axial, one_mul]
    · exact fun p hp => (s.mem_bounds k p hp).2
    · exact fun q hq => heq.trans_le (t.mem_bounds k q hq).1
    · exact s.exists_at_max k
    · exact heq ▸ t.exists_at_min k
  · have heq : t.bounds.max.along k = s.bounds.min.along k := le_antisymm hk hts
    refine ⟨-1, -t.bounds.max.along k, by norm_num, ?_⟩
    constructor <;> simp only [dot_axial, neg_one_mul, neg_le_neg_iff, neg_inj]
    · exact fun p hp => heq.trans_le (s.mem_bounds k p hp).1
    · exact fun q hq => (t.mem_bounds k q hq).2
    · exact heq ▸ s.exists_at_min k
    · exact t.exists_at_max k

end Bounds

lemma grazes_of_intersects (ho : s.bounds.Overlaps t.bounds) (hk : s.bounds.ApartOn t.bounds k)
    (hε : 0 ≤ ε) (hi : s.intersects t ε (ε * ε) = true) : Grazes s t k ε := by
  obtain ⟨r, c, hr, h⟩ := exists_touching ho hk
  cases hs : s.unitNormal? with
  | none => simp [intersects, hs] at hi
  | some n₁ =>
    cases ht : t.unitNormal? with
    | none => simp [intersects, hs, ht] at hi
    | some n₂ =>
      by_cases hz : InPlane s t n₁ n₂ ε
      · obtain ⟨-, -, hover⟩ := (intersects_inPlane_iff hs ht hz).mp hi
        by_cases hshort : HasShortShadow s t n₁.dominant
        · exact .short n₁ n₂ hs ht hz hshort
        by_cases hsnap : Snapped s t n₁ n₂ ε
        · refine .snapped n₁ n₂ hs ht (fun hsees => ?_) hsnap
          obtain ⟨-, hne⟩ := hsees.resolve_right fun h => h.1 hz
          exact h.not_shadowsOverlap hε (axial_ne_zero k hr) (axial_along_of_ne r hne) hs hshort
            hover
        · exact .flush (h.flush_of_inPlane hr hε hs (flat_of_inPlane hs ht hz hsnap) hshort hover)
      · obtain ⟨hz₁, hz₂⟩ := not_or.mp hz
        obtain ⟨hds, hdt, hspan⟩ := (intersects_onLine_iff hs ht hz₁ hz₂).mp hi
        by_cases hsnap : Snapped s t n₁ n₂ ε
        · refine .snapped n₁ n₂ hs ht (fun hsees => ?_) hsnap
          obtain ⟨-, rfl⟩ := hsees.resolve_left fun h => hz h.1
          exact not_spansOverlap_of_contact hε hds hdt (s.mem_bounds _) (t.mem_bounds _) hk hspan
        · obtain ⟨hos, hot⟩ := heights_of_not_snapped hsnap
          rw [hos, hot] at hspan
          rw [hos] at hds
          rw [hot] at hdt
          exact .flush (flush_of_dot hr (h.eq_of_onLine hε hs ht hds hdt hspan))

end SolidClash.Triangle
