import SolidClash.Proofs.Triangle.Grazing
import SolidClash.Proofs.Triangle.Spans

namespace SolidClash.Triangle

open Vec

def Spread (s t : Triangle ℝ) (m : Axis) (r : ℝ) : Prop :=
  ∀ p ∈ s.corners ++ t.corners, |p.along m - s.a.along m| ≤ r ∧ |p.along m - t.a.along m| ≤ r

noncomputable def depth (i j : ℝ × ℝ) : ℝ := min (i.2 - j.1) (j.2 - i.1)

structure EvenHandedAt (s t : Triangle ℝ) (n₁ n₂ : Vec ℝ) (ε : ℝ) : Prop where
  /-- If one lies in the plane of the other, up to the snap, and they do not face away, each lies in
  the plane of the other or straddles it, and both normals are longest along one axis. -/
  inPlane : 0 ≤ n₁.dot n₂ → (s.heights t n₂ ε).AllZero ∨ (t.heights s n₁ ε).AllZero →
    (s.heights t n₂ ε).Reaches (ε * ε) ∧ (t.heights s n₁ ε).Reaches (ε * ε) ∧
      n₁.dominant = n₂.dominant
  /-- If each straddles the plane of the other, their intervals on the common line are at most `ε`
  deep in each other, or more than `ε` times a length of at least 1 within which all corners are
  from both first corners. -/
  onLine : (s.heights t n₂ ε).Straddles (ε * ε) → (t.heights s n₁ ε).Straddles (ε * ε) →
    ∀ i j, span? s (n₁.cross n₂).dominant (s.heights t n₂ ε) = some i →
      span? t (n₁.cross n₂).dominant (t.heights s n₁ ε) = some j →
      depth i j ≤ ε ∨ ∃ r, 1 ≤ r ∧ Spread s t (n₁.cross n₂).dominant r ∧ ε * r < depth i j

def EvenHanded (s t : Triangle ℝ) (ε : ℝ) : Prop :=
  ∀ n₁ n₂, s.unitNormal? = some n₁ → t.unitNormal? = some n₂ → EvenHandedAt s t n₁ n₂ ε

/-- Every corner lies in the plane of the other triangle or off it by the snap at least, and all
corners are within 1 of both first corners. -/
structure Sharp (s t : Triangle ℝ) (ε : ℝ) : Prop where
  unsnapped : ∀ n₁ n₂, s.unitNormal? = some n₁ → t.unitNormal? = some n₂ → ¬ Snapped s t n₁ n₂ ε
  near : ∀ m, Spread s t m 1

variable {s t r : Triangle ℝ} {n n₁ n₂ : Vec ℝ} {m : Axis} {d ds dt : Triple ℝ} {i j : ℝ × ℝ}
  {ε k M : ℝ}

section Line

lemma exists_span_between (hd : d.Straddles (ε * ε)) (t : Triangle ℝ) (m : Axis) :
    ∃ b, span? t m d = some b ∧ b.1 ≤ b.2 ∧ (∃ p ∈ t.corners, p.along m ≤ b.1) ∧
      ∃ q ∈ t.corners, b.2 ≤ q.along m := by
  obtain ⟨_, _, _, b, _, _, _, hspan, hends⟩ := spans_of_straddles hd t m 0
  rw [interval_from] at hspan
  obtain ⟨b, hb, rfl⟩ := Option.map_eq_some_iff.mp hspan
  refine ⟨b, hb, ?_, ?_, ?_⟩
  · simpa using hends.ordered
  · simpa using hends.above
  · simpa using hends.below

lemma abs_sub_le_of_between {x lo hi : ℝ} (hlo : lo ≤ x) (hhi : x ≤ hi) (h : |lo - k| ≤ M)
    (h' : |hi - k| ≤ M) : |x - k| ≤ M := by
  rw [abs_le] at h h' ⊢
  constructor <;> linarith

lemma close_of_sub_le {x y : ℝ} (hyx : y ≤ x) (h : x - y ≤ ε) (k : ℝ) :
    Close (x - k) (y - k) ε := by
  have hone : 1 ≤ max (max 1 |x - k|) |y - k| := (le_max_left _ _).trans (le_max_left _ _)
  have hε : 0 ≤ ε := (sub_nonneg.mpr hyx).trans h
  rw [Close, sub_sub_sub_cancel_right]
  simp only [Scalar.abs_real, Scalar.maxNum_real]
  rw [abs_of_nonneg (sub_nonneg.mpr hyx)]
  exact h.trans (le_mul_of_one_le_right hε hone)

lemma not_close_of_lt_sub {x y : ℝ} (hyx : y ≤ x) (hM : 1 ≤ M) (hx : |x - k| ≤ M)
    (hy : |y - k| ≤ M) (h : ε * M < x - y) : ¬ Close (x - k) (y - k) ε := by
  have hmax : max (max 1 |x - k|) |y - k| ≤ M := max_le (max_le hM hx) hy
  have hone : 1 ≤ max (max 1 |x - k|) |y - k| := (le_max_left _ _).trans (le_max_left _ _)
  rw [Close, sub_sub_sub_cancel_right]
  simp only [Scalar.abs_real, Scalar.maxNum_real]
  rw [abs_of_nonneg (sub_nonneg.mpr hyx)]
  intro hle
  have hε : 0 ≤ ε :=
    nonneg_of_mul_nonneg_left ((sub_nonneg.mpr hyx).trans hle) (zero_lt_one.trans_le hone)
  exact (hle.trans (mul_le_mul_of_nonneg_left hmax hε)).not_gt h

def EndsWithin (i j : ℝ × ℝ) (k M : ℝ) : Prop :=
  |i.1 - k| ≤ M ∧ |i.2 - k| ≤ M ∧ |j.1 - k| ≤ M ∧ |j.2 - k| ≤ M

lemma spansOverlap_iff_of_depth (hi : span? s m ds = some i) (hj : span? t m dt = some j)
    (h : depth i j ≤ ε ∨ ∃ M, 1 ≤ M ∧ EndsWithin i j k M ∧ ε * M < depth i j) :
    SpansOverlap s t m ds dt k ε ↔ j.1 ≤ i.2 ∧ i.1 ≤ j.2 ∧ ¬ depth i j ≤ ε := by
  simp only [SpansOverlap, hi, hj, Option.some.injEq, exists_and_left, exists_eq_left']
  refine and_congr_right fun hji => and_congr_right fun hij => ?_
  constructor
  · rintro ⟨hc, hc'⟩ hdeep
    rcases min_le_iff.mp hdeep with hle | hle
    · exact hc (close_of_sub_le hji hle k)
    · exact hc' (close_of_sub_le hij hle k)
  · intro hdeep
    obtain ⟨M, hM, ⟨hi₁, hi₂, hj₁, hj₂⟩, hlt⟩ := h.resolve_left hdeep
    obtain ⟨hlt, hlt'⟩ := lt_min_iff.mp hlt
    exact ⟨not_close_of_lt_sub hji hM hi₂ hj₁ hlt, not_close_of_lt_sub hij hM hj₂ hi₁ hlt'⟩

lemma exists_spans (hds : ds.Straddles (ε * ε)) (hdt : dt.Straddles (ε * ε)) (s t : Triangle ℝ)
    (m : Axis) :
    ∃ i j, span? s m ds = some i ∧ span? t m dt = some j ∧ ∀ M, Spread s t m M →
      EndsWithin i j (s.a.along m) M ∧ EndsWithin i j (t.a.along m) M := by
  obtain ⟨i, hi, hle, ⟨p, hp, hpi⟩, q, hq, hqi⟩ := exists_span_between hds s m
  obtain ⟨j, hj, hle', ⟨p', hp', hpj⟩, q', hq', hqj⟩ := exists_span_between hdt t m
  refine ⟨i, j, hi, hj, fun M h => ?_⟩
  obtain ⟨hs, ht⟩ := List.forall_mem_append.mp h
  have hends {k : ℝ} (hp : |p.along m - k| ≤ M) (hq : |q.along m - k| ≤ M)
      (hp' : |p'.along m - k| ≤ M) (hq' : |q'.along m - k| ≤ M) : EndsWithin i j k M :=
    ⟨abs_sub_le_of_between hpi (hle.trans hqi) hp hq,
      abs_sub_le_of_between (hpi.trans hle) hqi hp hq,
      abs_sub_le_of_between hpj (hle'.trans hqj) hp' hq',
      abs_sub_le_of_between (hpj.trans hle') hqj hp' hq'⟩
  exact ⟨hends (hs p hp).1 (hs q hq).1 (ht p' hp').1 (ht q' hq').1,
    hends (hs p hp).2 (hs q hq).2 (ht p' hp').2 (ht q' hq').2⟩

end Line

lemma EvenHandedAt.unbiased (h : EvenHandedAt s t n₁ n₂ ε) : Unbiased s t n₁ n₂ ε where
  inPlane hz hdot := by
    obtain ⟨hs, ht, hm⟩ := h.inPlane hdot hz
    simp only [hs, ht, hm]
  onLine hds hdt := by
    obtain ⟨i, j, hi, hj, hends⟩ := exists_spans hds hdt s t (n₁.cross n₂).dominant
    have hdepth := h.onLine hds hdt i j hi hj
    -- both sides come to the same condition on the two intervals
    rw [spansOverlap_iff_of_depth hi hj, spansOverlap_iff_of_depth hi hj]
    · apply hdepth.imp_right
      rintro ⟨M, hM, hspread, hlt⟩
      exact ⟨M, hM, (hends M hspread).2, hlt⟩
    · apply hdepth.imp_right
      rintro ⟨M, hM, hspread, hlt⟩
      exact ⟨M, hM, (hends M hspread).1, hlt⟩

lemma EvenHanded.intersects_comm (h : s.EvenHanded t ε) :
    s.intersects t ε (ε * ε) = t.intersects s ε (ε * ε) :=
  (s.intersects_comm_iff t ε).mpr fun n₁ n₂ hs ht => (h n₁ n₂ hs ht).unbiased

section Flat

lemma allZero_heights_of_flat (h : ∀ p ∈ r.corners, n.dot p = n.dot t.a) (ε : ℝ) :
    (r.heights t n ε).AllZero := by
  obtain ⟨ha, hb, hc⟩ := forall_mem_corners.mp h
  simp [heights, distances, mapCorners, Triple.AllZero, dot_sub, ha, hb, hc]

lemma normals_eq_of_flat (hs : s.unitNormal? = some n₁) (ht : t.unitNormal? = some n₂)
    (hflat : ∀ q ∈ t.corners, n₁.dot q = n₁.dot s.a) (hdot : 0 ≤ n₁.dot n₂) : n₁ = n₂ := by
  have hone := (dot_unitNormal hs).1
  have hpar := dot_of_flat hone ht hflat
  have hsq : n₁.dot n₂ * n₁.dot n₂ = 1 := by
    rw [← (dot_unitNormal ht).1, hpar n₂, dot_comm n₂ n₁]
  have hcos : n₁.dot n₂ = 1 := by nlinarith
  have hall (x : Vec ℝ) : n₁.dot x = n₂.dot x := by
    rw [hpar x, dot_comm n₂ n₁, hcos, one_mul]
  apply eq_of_along
  intro k
  cases k
  · simpa [dot, along] using hall ⟨1, 0, 0⟩
  · simpa [dot, along] using hall ⟨0, 1, 0⟩
  · simpa [dot, along] using hall ⟨0, 0, 1⟩

lemma evenHandedAt_of_flat (hs : s.unitNormal? = some n₁) (ht : t.unitNormal? = some n₂)
    (hflat : ∀ q ∈ t.corners, n₁.dot q = n₁.dot s.a) (ε : ℝ) : EvenHandedAt s t n₁ n₂ ε := by
  obtain ⟨hone, hplane⟩ := dot_unitNormal hs
  have hpar := dot_of_flat hone ht hflat
  have hback : ∀ p ∈ s.corners, n₂.dot p = n₂.dot t.a := by
    intro p hp
    rw [hpar p, hpar t.a, hplane p hp, hflat t.a (by simp [corners])]
  have hzero := allZero_heights_of_flat hflat ε
  have hzero' := allZero_heights_of_flat hback ε
  refine ⟨fun hdot _ => ?_, fun _ h => (h.not_allZero hzero).elim⟩
  exact ⟨.inl hzero', .inl hzero, by rw [normals_eq_of_flat hs ht hflat hdot]⟩

end Flat

lemma Sharp.evenHanded (h : s.Sharp t ε) : s.EvenHanded t ε := by
  intro n₁ n₂ hs ht
  have hsnap := h.unsnapped n₁ n₂ hs ht
  refine ⟨fun hdot hz => ?_, fun _ _ i j _ _ => ?_⟩
  · exact (evenHandedAt_of_flat hs ht (flat_of_inPlane hs ht hz hsnap) ε).inPlane hdot hz
  · rcases le_or_gt (depth i j) ε with hle | hlt
    · exact .inl hle
    · exact .inr ⟨1, le_rfl, h.near _, by rwa [mul_one]⟩

end SolidClash.Triangle
