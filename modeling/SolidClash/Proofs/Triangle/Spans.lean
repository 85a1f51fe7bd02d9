import SolidClash.Proofs.Triangle.Piercing

namespace SolidClash.Triangle

open Vec

structure Compared (s t : Triangle ℝ) (n₁ n₂ : Vec ℝ) (ε ε₂ : ℝ) : Prop where
  hasNormal : s.unitNormal? = some n₁
  otherHasNormal : t.unitNormal? = some n₂
  notInPlane : ¬ (s.heights t n₂ ε).AllZero
  otherNotInPlane : ¬ (t.heights s n₁ ε).AllZero
  straddles : (s.heights t n₂ ε).Straddles ε₂
  otherStraddles : (t.heights s n₁ ε).Straddles ε₂

structure IsLone (d : Triple ℝ) (i : Corner) : Prop where
  off : d.get i ≠ 0
  alone : ∀ j, j ≠ i → d.get i * d.get j ≤ 0

def CrossesAt (t : Triangle ℝ) (d : Triple ℝ) (i j : Corner) (p : Vec ℝ) : Prop :=
  ∃ r, 0 < r ∧ r ≤ 1 ∧ ((Triple.only i).blend (Triple.only j) r).mean d = 0 ∧
    t.pointAt ((Triple.only i).blend (Triple.only j) r) = p

structure EndsAt (t : Triangle ℝ) (d : Triple ℝ) (m : Axis) (origin : ℝ) (i : Corner)
    (b : ℝ × ℝ) : Prop where
  ordered : b.1 ≤ b.2
  above : ∃ p ∈ t.corners, p.along m - origin ≤ b.1
  below : ∃ p ∈ t.corners, b.2 ≤ p.along m - origin
  crossings : ∃ p q, t.CrossesAt d i i.others.1 p ∧ t.CrossesAt d i i.others.2 q ∧
    (b = (p.along m - origin, q.along m - origin) ∨ b = (q.along m - origin, p.along m - origin))

structure Spans (t : Triangle ℝ) (d : Triple ℝ) (m : Axis) (origin : ℝ) : Prop where
  front : ∃ i, 0 < d.get i
  back : ∃ i, d.get i < 0
  interval : ∃ i b, d.lone? = some i ∧ IsLone d i ∧ (∀ j, j ≠ i → d.get i - d.get j ≠ 0) ∧
    interval? (t.mapCorners fun p => p.along m - origin) d = some b ∧ t.EndsAt d m origin i b

variable {s t : Triangle ℝ} {n₁ n₂ : Vec ℝ} {m : Axis} {d : Triple ℝ} {i j : Corner} {ε ε₂ k : ℝ}

lemma Corner.eq_others (h : j ≠ i) : j = i.others.1 ∨ j = i.others.2 := by
  cases i <;> cases j <;> simp_all [others]

lemma Triple.Straddles.of_square (hε₂ : 0 ≤ ε₂) (h : d.Straddles ε₂) :
    d.Straddles (√ε₂ * √ε₂) := by
  rwa [Real.mul_self_sqrt hε₂]

lemma Triple.Straddles.signs (h : d.Straddles (ε * ε)) :
    (∃ i, 0 < d.get i) ∧ ∃ i, d.get i < 0 := by
  have hpair {i j : Corner} (hij : d.get i * d.get j < -(ε * ε)) :
      (∃ i, 0 < d.get i) ∧ ∃ i, d.get i < 0 := by
    have hneg := hij.trans_le (neg_nonpos.mpr (mul_self_nonneg ε))
    rcases mul_neg_iff.mp hneg with ⟨hi, hj⟩ | ⟨hi, hj⟩
    · exact ⟨⟨i, hi⟩, j, hj⟩
    · exact ⟨⟨j, hj⟩, i, hi⟩
  rcases h with h | h | h
  · exact hpair (i := .a) (j := .b) h
  · exact hpair (i := .a) (j := .c) h
  · exact hpair (i := .b) (j := .c) h

lemma isLone_of_lone (hd : d.Straddles (ε * ε)) (hi : d.lone? = some i) : IsLone d i := by
  obtain ⟨hne, h₁, h₂⟩ := lone_opposite hd hi
  refine ⟨hne, fun j hj => ?_⟩
  rcases Corner.eq_others hj with rfl | rfl
  · exact h₁
  · exact h₂

lemma IsLone.sub_ne_zero (h : IsLone d i) (hj : j ≠ i) : d.get i - d.get j ≠ 0 := by
  intro hzero
  have hle := h.alone j hj
  rw [← sub_eq_zero.mp hzero] at hle
  exact hle.not_gt (mul_self_pos.mpr h.off)

lemma crossesAt_meeting (h : IsLone d i) (hj : j ≠ i) (t : Triangle ℝ) :
    t.CrossesAt d i j (t.meeting d i j) := by
  obtain ⟨r, hpos, hle, -, hzero, hcross⟩ := exists_share h.off (h.alone j hj)
  refine ⟨r, hpos, hle, ?_, eq_of_along fun k => ?_⟩
  · rw [Triple.mean_blend, Triple.mean_only, Triple.mean_only, hzero]
  · rw [along_pointAt, meeting_along, hcross, Triple.mean_blend, Triple.mean_only,
      Triple.mean_only]

lemma CrossesAt.along_mem {p : Vec ℝ} (h : t.CrossesAt d i j p) (m : Axis) :
    (∃ q ∈ t.corners, q.along m ≤ p.along m) ∧ ∃ q ∈ t.corners, p.along m ≤ q.along m := by
  obtain ⟨r, hpos, hle, -, rfl⟩ := h
  rw [along_pointAt, Triple.mean_blend, Triple.mean_only, Triple.mean_only, get_mapCorners,
    get_mapCorners]
  have hi := t.corner_mem i
  have hj := t.corner_mem j
  rcases le_total ((t.corner i).along m) ((t.corner j).along m) with hij | hij
  · exact ⟨⟨_, hi, by nlinarith⟩, _, hj, by nlinarith⟩
  · exact ⟨⟨_, hj, by nlinarith⟩, _, hi, by nlinarith⟩

lemma ends_of_crossesAt {l : Corner} {p q : Vec ℝ} (hp : t.CrossesAt d i j p)
    (hq : t.CrossesAt d i l q) (hpq : p.along m ≤ q.along m) (k : ℝ) :
    p.along m - k ≤ q.along m - k ∧ (∃ v ∈ t.corners, v.along m - k ≤ p.along m - k) ∧
      ∃ w ∈ t.corners, q.along m - k ≤ w.along m - k := by
  obtain ⟨⟨v, hv, hvp⟩, -⟩ := hp.along_mem m
  obtain ⟨-, w, hw, hqw⟩ := hq.along_mem m
  exact ⟨sub_le_sub_right hpq k, ⟨v, hv, sub_le_sub_right hvp k⟩, w, hw, sub_le_sub_right hqw k⟩

lemma spans_of_straddles (hd : d.Straddles (ε * ε)) (t : Triangle ℝ) (m : Axis) (k : ℝ) :
    t.Spans d m k := by
  obtain ⟨i, hi⟩ := exists_lone hd
  have hlone := isLone_of_lone hd hi
  have hfirst : i.others.1 ≠ i := by cases i <;> simp [Corner.others]
  have hsecond : i.others.2 ≠ i := by cases i <;> simp [Corner.others]
  have hp := crossesAt_meeting hlone hfirst t
  have hq := crossesAt_meeting hlone hsecond t
  have hspan : span? t m d = some (if (t.meeting d i i.others.1).along m ≤
      (t.meeting d i i.others.2).along m then
        ((t.meeting d i i.others.1).along m, (t.meeting d i i.others.2).along m)
      else ((t.meeting d i i.others.2).along m, (t.meeting d i i.others.1).along m)) := by
    simp only [span?, interval?, hi, Option.map_some, meeting_along]
  refine ⟨hd.signs.1, hd.signs.2, i, _, hi, hlone, fun j hj => hlone.sub_ne_zero hj,
    by rw [interval_from, hspan, Option.map_some], ?_⟩
  split
  · obtain ⟨hle, hlo, hhi⟩ := ends_of_crossesAt hp hq ‹_› k
    exact ⟨hle, hlo, hhi, _, _, hp, hq, Or.inl rfl⟩
  · obtain ⟨hle, hlo, hhi⟩ := ends_of_crossesAt hq hp (not_le.mp ‹_›).le k
    exact ⟨hle, hlo, hhi, _, _, hp, hq, Or.inr rfl⟩

lemma Compared.intersects_eq (h : Compared s t n₁ n₂ ε ε₂) : s.intersects t ε ε₂ =
    overlapOnLine s t n₁ n₂ (s.heights t n₂ ε) (t.heights s n₁ ε) ε := by
  have hds : s.distances n₂ t.a (s.snap t ε) = s.heights t n₂ ε := by rw [heights, snap_comm]
  have hdt : t.distances n₁ s.a (s.snap t ε) = t.heights s n₁ ε := rfl
  simp [intersects, h.hasNormal, h.otherHasNormal, hds, hdt, h.notInPlane, h.otherNotInPlane,
    h.straddles, h.otherStraddles]

/-- Whenever the test compares intervals, both triangles have one. -/
theorem spans_of_compared (hε₂ : 0 ≤ ε₂) (h : Compared s t n₁ n₂ ε ε₂) :
    s.intersects t ε ε₂ =
      overlapOnLine s t n₁ n₂ (s.heights t n₂ ε) (t.heights s n₁ ε) ε ∧
    s.Spans (s.heights t n₂ ε) (n₁.cross n₂).dominant (s.a.along (n₁.cross n₂).dominant) ∧
    t.Spans (t.heights s n₁ ε) (n₁.cross n₂).dominant (s.a.along (n₁.cross n₂).dominant) :=
  ⟨h.intersects_eq, spans_of_straddles (h.straddles.of_square hε₂) s _ _,
    spans_of_straddles (h.otherStraddles.of_square hε₂) t _ _⟩

theorem spans_of_compared_ridge :
    (0 : ℝ) ≤ 1 / 64 ∧ Compared (roof 2) (fin 3 1) ⟨0, 0, 1⟩ ⟨1, 0, 0⟩ (1 / 8) (1 / 64) ∧
    (roof 2).Spans ⟨-1, 1, 0⟩ .y 0 ∧ (fin 3 1).Spans ⟨-1, 1, 0⟩ .y 0 := by
  have h : Ridge 2 3 1 (1 / 8) := by constructor <;> norm_num
  have hroof := h.heights_roof
  have hfin := h.heights_fin
  have hsquare : (1 / 8 * (1 / 8) : ℝ) = 1 / 64 := by norm_num
  have hstraddles := h.straddles
  rw [hsquare] at hstraddles
  have hcompared : Compared (roof 2) (fin 3 1) ⟨0, 0, 1⟩ ⟨1, 0, 0⟩ (1 / 8) (1 / 64) := by
    refine ⟨h.unitNormal_roof, h.unitNormal_fin, ?_, ?_, ?_, ?_⟩
    · exact hroof ▸ h.straddles.not_allZero
    · exact hfin ▸ h.straddles.not_allZero
    · exact hroof ▸ hstraddles
    · exact hfin ▸ hstraddles
  have haxis : ((⟨0, 0, 1⟩ : Vec ℝ).cross ⟨1, 0, 0⟩).dominant = .y := by
    norm_num [cross, dominant, map]
  have horigin : (roof 2).a.along .y = 0 := rfl
  obtain ⟨-, hs, ht⟩ := spans_of_compared (by norm_num) hcompared
  rw [haxis, horigin] at hs ht
  exact ⟨by norm_num, hcompared, hroof ▸ hs, hfin ▸ ht⟩

end SolidClash.Triangle
