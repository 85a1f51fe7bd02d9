import Mathlib.Analysis.Convex.Segment
import SolidClash.Proofs.Mesh.Ridge
import SolidClash.Proofs.Triangle.Points

namespace SolidClash

namespace Vec

lemma eq_of_across {a b p q : Vec ℝ} {m : Axis} (ha : a.dot p = a.dot q) (hb : b.dot p = b.dot q)
    (hm : p.along m = q.along m) (hline : (a.cross b).along m ≠ 0) : p = q := by
  have hzero {n : Vec ℝ} (h : n.dot p = n.dot q) : n.dot (p - q) = 0 := by
    rw [dot_sub, h, sub_self]
  refine eq_of_along fun k => ?_
  have hk := dot_of_across (hzero ha) (hzero hb) (axial k 1) m
  rw [dot_axial, along_sub, along_sub, hm, sub_self, zero_mul, one_mul] at hk
  exact sub_eq_zero.mp ((mul_eq_zero.mp hk).resolve_right hline)

end Vec

namespace Triangle

open Vec

variable {s t : Triangle ℝ} {n o n₁ n₂ : Vec ℝ} {m : Axis} {d w : Triple ℝ} {ε : ℝ}

section Height

def Crosses (t : Triangle ℝ) (n o : Vec ℝ) : Prop :=
  ∃ p ∈ t.corners, ∃ q ∈ t.corners, n.dot (p - o) < 0 ∧ 0 < n.dot (q - o)

/-- Every corner lies in the plane or farther from it than `least`, and not all lie in it. -/
structure ClearOf (t : Triangle ℝ) (n o : Vec ℝ) (least : ℝ) : Prop where
  far : ∀ p ∈ t.corners, n.dot (p - o) ≠ 0 → least < |n.dot (p - o)|
  off : ∃ p ∈ t.corners, n.dot (p - o) ≠ 0

lemma ClearOf.not_allZero {least : ℝ} (h : t.ClearOf n o least) : ¬ (t.offsets n o).AllZero := by
  rintro ⟨ha, hb, hc⟩
  simp only [offsets, mapCorners, Scalar.isZero_real] at ha hb hc
  obtain ⟨p, hp, hne⟩ := h.off
  have hzero : ∀ p ∈ t.corners, n.dot (p - o) = 0 := forall_mem_corners.mpr ⟨ha, hb, hc⟩
  exact hne (hzero p hp)

lemma not_snapped (hs : s.ClearOf n₂ t.a (s.snap t ε)) (ht : t.ClearOf n₁ s.a (s.snap t ε)) :
    ¬ Snapped s t n₁ n₂ ε := by
  rintro (⟨p, hp, hne, hlt⟩ | ⟨q, hq, hne, hlt⟩)
  · exact hlt.not_gt (hs.far p hp hne)
  · exact hlt.not_gt (ht.far q hq hne)

lemma snap_eq (s t : Triangle ℝ) (ε : ℝ) :
    s.snap t ε = max ε (1e-12 * (1 + max s.magnitude t.magnitude)) := by
  simp only [snap, planeNoise, Scalar.maxNum_real]

lemma le_snap (s t : Triangle ℝ) (ε : ℝ) : ε ≤ s.snap t ε :=
  (snap_eq s t ε).symm ▸ le_max_left _ _

lemma Triple.Straddles.crosses (h : (t.offsets n o).Straddles (ε * ε)) : t.Crosses n o := by
  have hkept (x : ℝ) : (if Scalar.abs x < 0 then 0 else x) = x :=
    if_neg (by rw [Scalar.abs_real]; exact (abs_nonneg x).not_gt)
  have hdist : (t.distances n o 0).Straddles (ε * ε) := by
    simpa only [distances, hkept, offsets] using h
  exact hdist.exists_opposite

lemma Triple.straddles_of_get {i j : Corner} (h : d.get i * d.get j < -(ε * ε)) :
    d.Straddles (ε * ε) := by
  have hsq (x : ℝ) : ¬ x * x < -(ε * ε) := by nlinarith [mul_self_nonneg x, mul_self_nonneg ε]
  have hsymm : d.get j * d.get i < -(ε * ε) := by rwa [mul_comm]
  cases i <;> cases j <;> first
    | exact (hsq _ h).elim
    | exact Or.inl h
    | exact Or.inl hsymm
    | exact Or.inr (Or.inl h)
    | exact Or.inr (Or.inl hsymm)
    | exact Or.inr (Or.inr h)
    | exact Or.inr (Or.inr hsymm)

lemma Crosses.straddles {least : ℝ} (hε : 0 ≤ ε) (hleast : ε ≤ least) (h : t.Crosses n o)
    (hfar : t.ClearOf n o least) : (t.offsets n o).Straddles (ε * ε) := by
  obtain ⟨p, hp, q, hq, hneg, hpos⟩ := h
  have hlow := hfar.far p hp hneg.ne
  have hhigh := hfar.far q hq hpos.ne'
  rw [abs_of_neg hneg] at hlow
  rw [abs_of_pos hpos] at hhigh
  have hprod : ε * ε < -n.dot (p - o) * n.dot (q - o) :=
    mul_lt_mul'' (hleast.trans_lt hlow) (hleast.trans_lt hhigh) hε hε
  obtain ⟨i, rfl⟩ := exists_corner hp
  obtain ⟨j, rfl⟩ := exists_corner hq
  apply Triple.straddles_of_get (i := i) (j := j)
  rw [offsets, get_mapCorners, get_mapCorners]
  linarith

end Height

section Line

lemma exists_blend_of_level {i : Corner} (hd : d.Straddles (ε * ε)) (hi : d.lone? = some i)
    (hw : w.IsShares) (hlevel : w.mean d = 0) : ∃ r, 0 ≤ r ∧ r ≤ 1 ∧ ∀ along : Triple ℝ,
      w.mean along = crossing along d i i.others.1 +
        (crossing along d i i.others.2 - crossing along d i i.others.1) * r := by
  obtain ⟨hne, h₁, h₂⟩ := lone_opposite hd hi
  obtain ⟨r₁, hr₁, -, -, hzero₁, hcross₁⟩ := exists_share hne h₁
  obtain ⟨r₂, hr₂, -, -, hzero₂, hcross₂⟩ := exists_share hne h₂
  rw [Triple.mean_eq w d i] at hlevel
  have hsum := hw.sum_from i
  have hother {x r : ℝ} (hr : 0 < r) (h : d.get i + (x - d.get i) * r = 0) :
      x = d.get i * (1 - 1 / r) := by
    field_simp
    linarith
  rw [hother hr₁ hzero₁, hother hr₂ hzero₂] at hlevel
  -- each of the two points gets the share of its corner, over how far it is along the edge
  have hparts : w.get i.others.1 / r₁ + w.get i.others.2 / r₂ = 1 := by
    apply mul_left_cancel₀ hne
    linear_combination d.get i * hsum - hlevel
  have hfirst : w.get i.others.1 = r₁ * (1 - w.get i.others.2 / r₂) := by
    rw [← hparts, add_sub_cancel_right, mul_div_cancel₀ _ hr₁.ne']
  have hsecond : w.get i.others.2 = r₂ * (w.get i.others.2 / r₂) :=
    (mul_div_cancel₀ _ hr₂.ne').symm
  have hnonneg := div_nonneg (hw.nonneg i.others.1) hr₁.le
  refine ⟨w.get i.others.2 / r₂, div_nonneg (hw.nonneg _) hr₂.le, by linarith, fun along => ?_⟩
  rw [Triple.mean_eq w along i, hcross₁, hcross₂]
  linear_combination along.get i * hsum + (along.get i.others.1 - along.get i) * hfirst +
    (along.get i.others.2 - along.get i) * hsecond

lemma exists_shares_of_crossing {i j : Corner} (hne : d.get i ≠ 0)
    (hij : d.get i * d.get j ≤ 0) : ∃ w : Triple ℝ, w.IsShares ∧ w.mean d = 0 ∧
      ∀ along, w.mean along = crossing along d i j := by
  obtain ⟨r, hpos, hle, -, hzero, hcross⟩ := exists_share hne hij
  refine ⟨(Triple.only i).blend (Triple.only j) r,
    (Triple.isShares_only i).blend (Triple.isShares_only j) hpos.le hle, ?_, fun along => ?_⟩
  · rw [Triple.mean_blend, Triple.mean_only, Triple.mean_only, hzero]
  · rw [Triple.mean_blend, Triple.mean_only, Triple.mean_only, hcross]

lemma exists_lone (hd : d.Straddles (ε * ε)) : ∃ i, d.lone? = some i := by
  by_contra h
  have hnone : d.lone? = none := Option.eq_none_iff_forall_not_mem.mpr fun i hi => h ⟨i, hi⟩
  simp only [Triple.lone?] at hnone
  split_ifs at hnone with hab hac hbc hb hc
  exact hd.not_allZero ⟨not_not.mp (not_or.mp hbc).2, hb, hc⟩

lemma mem_uIcc_crossing_iff {i : Corner} {x : ℝ} (hd : d.Straddles (ε * ε))
    (hi : d.lone? = some i) (along : Triple ℝ) :
    x ∈ Set.uIcc (crossing along d i i.others.1) (crossing along d i i.others.2) ↔
      ∃ w : Triple ℝ, w.IsShares ∧ w.mean d = 0 ∧ w.mean along = x := by
  obtain ⟨hne, h₁, h₂⟩ := lone_opposite hd hi
  rw [← segment_eq_uIcc, segment_eq_image']
  constructor
  · rintro ⟨r, ⟨hr, hr'⟩, rfl⟩
    obtain ⟨w₁, hw₁, hzero₁, hmean₁⟩ := exists_shares_of_crossing hne h₁
    obtain ⟨w₂, hw₂, hzero₂, hmean₂⟩ := exists_shares_of_crossing hne h₂
    refine ⟨w₁.blend w₂ r, hw₁.blend hw₂ hr hr', ?_, ?_⟩
    · rw [Triple.mean_blend, hzero₁, hzero₂, sub_self, zero_mul, add_zero]
    · rw [Triple.mean_blend, hmean₁, hmean₂, mul_comm]
      rfl
  · rintro ⟨w, hw, hlevel, rfl⟩
    obtain ⟨r, hr, hr', hmean⟩ := exists_blend_of_level hd hi hw hlevel
    refine ⟨r, ⟨hr, hr'⟩, ?_⟩
    rw [hmean, mul_comm _ r]
    rfl

lemma mem_span_iff {b : ℝ × ℝ} {x : ℝ} (hd : d.Straddles (ε * ε)) (hb : span? t m d = some b) :
    x ∈ Set.Icc b.1 b.2 ↔ ∃ w : Triple ℝ, w.IsShares ∧ w.mean d = 0 ∧
      w.mean (t.mapCorners (·.along m)) = x := by
  obtain ⟨i, hi, rfl⟩ := Option.map_eq_some_iff.mp hb
  rw [← mem_uIcc_crossing_iff hd hi]
  dsimp only
  split
  · rw [Set.uIcc_of_le ‹_›]
  · rw [Set.uIcc_of_ge (not_le.mp ‹_›).le]

lemma mem_span_iff_holds {b : ℝ × ℝ} {x : ℝ} (hd : (t.offsets n o).Straddles (ε * ε))
    (hb : span? t m (t.offsets n o) = some b) : x ∈ Set.Icc b.1 b.2 ↔
      ∃ p, t.Holds p ∧ n.dot (p - o) = 0 ∧ p.along m = x := by
  rw [mem_span_iff hd hb]
  constructor
  · rintro ⟨w, hw, hlevel, rfl⟩
    exact ⟨t.pointAt w, ⟨w, hw, rfl⟩, (dot_pointAt_sub hw.sum_eq t n o).trans hlevel,
      along_pointAt t w m⟩
  · rintro ⟨p, ⟨w, hw, rfl⟩, hlevel, rfl⟩
    exact ⟨w, hw, (dot_pointAt_sub hw.sum_eq t n o).symm.trans hlevel, (along_pointAt t w m).symm⟩

lemma exists_span (hd : d.Straddles (ε * ε)) (t : Triangle ℝ) (m : Axis) :
    ∃ b, span? t m d = some b := by
  obtain ⟨i, hi⟩ := exists_lone hd
  exact ⟨_, congrArg _ hi⟩

lemma span_le {b : ℝ × ℝ} (hb : span? t m d = some b) : b.1 ≤ b.2 := by
  obtain ⟨i, -, rfl⟩ := Option.map_eq_some_iff.mp hb
  dsimp only
  split
  · assumption
  · exact (not_le.mp ‹_›).le

noncomputable def reach (s t : Triangle ℝ) (m : Axis) : ℝ :=
  ((s.corners ++ t.corners).map fun p => |p.along m - s.a.along m|).foldr max 0

lemma le_reach {p : Vec ℝ} (hp : p ∈ s.corners ++ t.corners) :
    |p.along m - s.a.along m| ≤ reach s t m :=
  List.le_max_of_le' 0 (List.mem_map_of_mem hp) le_rfl

lemma not_close {x y M : ℝ} (hε : 0 ≤ ε) (hx : |x| ≤ M) (hy : |y| ≤ M)
    (hgap : ε * max 1 M < x - y) : ¬ Close x y ε := by
  simp only [Close, Scalar.abs_real, Scalar.maxNum_real, not_le]
  calc ε * max (max 1 |x|) |y| ≤ ε * max 1 M := by
        apply mul_le_mul_of_nonneg_left _ hε
        exact max_le (max_le_max le_rfl hx) (hy.trans (le_max_right _ _))
    _ < x - y := hgap
    _ ≤ |x - y| := le_abs_self _

lemma span_within_reach {r : Triangle ℝ} {b : ℝ × ℝ} {x : ℝ} (hd : d.Straddles (ε * ε))
    (hb : span? r m d = some b) (hr : ∀ p ∈ r.corners, p ∈ s.corners ++ t.corners)
    (hx : x ∈ Set.Icc b.1 b.2) :
    |b.1 - s.a.along m| ≤ reach s t m ∧ |b.2 - s.a.along m| ≤ reach s t m := by
  have hwithin : s.a.along m - reach s t m ≤ b.1 ∧ b.2 ≤ s.a.along m + reach s t m := by
    apply span_mem hd hb
    intro p hp
    obtain ⟨hlo, hhi⟩ := abs_le.mp (le_reach (m := m) (hr p hp))
    constructor <;> linarith
  obtain ⟨hlo, hhi⟩ := hwithin
  obtain ⟨hx, hx'⟩ := hx
  constructor <;> rw [abs_le] <;> constructor <;> linarith

variable (hs : s.unitNormal? = some n₁) (ht : t.unitNormal? = some n₂)
  (hds : (s.offsets n₂ t.a).Straddles (ε * ε)) (hdt : (t.offsets n₁ s.a).Straddles (ε * ε))

include hs ht hds hdt

lemma exists_held_of_spans {k : ℝ} (hspan : SpansOverlap s t (n₁.cross n₂).dominant
    (s.offsets n₂ t.a) (t.offsets n₁ s.a) k ε) : ∃ p, s.Holds p ∧ t.Holds p := by
  obtain ⟨i, j, hi, hj, hji, hij, -, -⟩ := hspan
  have hplace : max i.1 j.1 ∈ Set.Icc i.1 i.2 ∧ max i.1 j.1 ∈ Set.Icc j.1 j.2 :=
    ⟨⟨le_max_left _ _, max_le (span_le hi) hji⟩, ⟨le_max_right _ _, max_le hij (span_le hj)⟩⟩
  obtain ⟨p, hp, hlevel, hpm⟩ := (mem_span_iff_holds hds hi).mp hplace.1
  obtain ⟨q, hq, hlevel', hqm⟩ := (mem_span_iff_holds hdt hj).mp hplace.2
  rw [dot_sub, sub_eq_zero] at hlevel hlevel'
  have hn₁ : n₁.dot p = n₁.dot q :=
    (hp.dot_eq (dot_unitNormal hs).2).trans hlevel'.symm
  have hn₂ : n₂.dot p = n₂.dot q :=
    hlevel.trans (hq.dot_eq (dot_unitNormal ht).2).symm
  -- both planes hold one point only at that place on the axis
  have hpq : p = q := eq_of_across hn₁ hn₂ (hpm.trans hqm.symm)
    (along_dominant_ne_zero (cross_ne_zero ht hdt))
  exact ⟨p, hp, hpq ▸ hq⟩

lemma spansOverlap_of_held (hε : 0 ≤ ε) {p q : Vec ℝ} (hp : s.Holds p ∧ t.Holds p)
    (hq : s.Holds q ∧ t.Holds q)
    (hlong : ε * max 1 (reach s t m) < q.along m - p.along m) :
    SpansOverlap s t m (s.offsets n₂ t.a) (t.offsets n₁ s.a) (s.a.along m) ε := by
  obtain ⟨i, hi⟩ := exists_span hds s m
  obtain ⟨j, hj⟩ := exists_span hdt t m
  have hlevel {v : Vec ℝ} (hv : s.Holds v ∧ t.Holds v) :
      n₂.dot (v - t.a) = 0 ∧ n₁.dot (v - s.a) = 0 := by
    rw [dot_sub, dot_sub, hv.1.dot_eq (dot_unitNormal hs).2, hv.2.dot_eq (dot_unitNormal ht).2]
    exact ⟨sub_self _, sub_self _⟩
  have hspans {v : Vec ℝ} (hv : s.Holds v ∧ t.Holds v) :
      v.along m ∈ Set.Icc i.1 i.2 ∧ v.along m ∈ Set.Icc j.1 j.2 :=
    ⟨(mem_span_iff_holds hds hi).mpr ⟨v, hv.1, (hlevel hv).1, rfl⟩,
      (mem_span_iff_holds hdt hj).mpr ⟨v, hv.2, (hlevel hv).2, rfl⟩⟩
  obtain ⟨⟨hpi, hpi'⟩, hpj, hpj'⟩ := hspans hp
  obtain ⟨⟨hqi, hqi'⟩, hqj, hqj'⟩ := hspans hq
  have hpos : 0 ≤ ε * max 1 (reach s t m) :=
    mul_nonneg hε (zero_le_one.trans (le_max_left _ _))
  obtain ⟨hlo, hhi⟩ := span_within_reach hds hi (fun _ h => List.mem_append_left _ h)
    ⟨hpi, hpi'⟩
  obtain ⟨hlo', hhi'⟩ := span_within_reach hdt hj (fun _ h => List.mem_append_right _ h)
    ⟨hpj, hpj'⟩
  refine ⟨i, j, hi, hj, by linarith, by linarith, not_close hε hhi hlo' ?_,
    not_close hε hhi' hlo ?_⟩ <;> linarith

end Line

/-- Let each corner lie in the plane of the other triangle or farther from it than the test snaps,
and neither triangle in the other's plane. Then only triangles that cross each other's planes and
have a point in common are taken to penetrate each other, and all that cross the planes and have
more in common than the tolerance of the ends are. -/
theorem intersects_of_clear (hs : s.unitNormal? = some n₁) (ht : t.unitNormal? = some n₂)
    (hε : 0 ≤ ε)
    (hcs : s.ClearOf n₂ t.a (max ε (1e-12 * (1 + max s.magnitude t.magnitude))))
    (hct : t.ClearOf n₁ s.a (max ε (1e-12 * (1 + max s.magnitude t.magnitude)))) :
    (s.intersects t ε (ε * ε) = true →
      s.Crosses n₂ t.a ∧ t.Crosses n₁ s.a ∧ ∃ p, s.Holds p ∧ t.Holds p) ∧
    (s.Crosses n₂ t.a → t.Crosses n₁ s.a →
      (∃ p q, (s.Holds p ∧ t.Holds p) ∧ (s.Holds q ∧ t.Holds q) ∧
        ε * max 1 (reach s t (n₁.cross n₂).dominant) <
          q.along (n₁.cross n₂).dominant - p.along (n₁.cross n₂).dominant) →
      s.intersects t ε (ε * ε) = true) := by
  rw [← snap_eq] at hcs hct
  obtain ⟨hos, hot⟩ := heights_of_not_snapped (not_snapped hcs hct)
  have hiff := intersects_onLine_iff hs ht (hos ▸ hcs.not_allZero) (hot ▸ hct.not_allZero)
  rw [hos, hot] at hiff
  rw [hiff]
  constructor
  · rintro ⟨hds, hdt, hspan⟩
    exact ⟨hds.crosses, hdt.crosses, exists_held_of_spans hs ht hds hdt hspan⟩
  · rintro hs' ht' ⟨p, q, hp, hq, hlong⟩
    have hds := hs'.straddles hε (le_snap s t ε) hcs
    have hdt := ht'.straddles hε (le_snap s t ε) hct
    exact ⟨hds, hdt, spansOverlap_of_held hs ht hds hdt hε hp hq hlong⟩

lemma clearOf_of_offsets {least : ℝ} (hleast : least < 1) (h : t.offsets n o = ⟨-1, 1, 0⟩) :
    t.ClearOf n o least := by
  have hget (i : Corner) : n.dot (t.corner i - o) = Triple.get ⟨-1, 1, 0⟩ i := by
    rw [← h, offsets, get_mapCorners]
  constructor
  · intro p hp
    obtain ⟨i, rfl⟩ := exists_corner hp
    rw [hget]
    cases i <;> simp [Triple.get, hleast]
  · exact ⟨t.corner .a, t.corner_mem .a, by rw [hget]; simp [Triple.get]⟩

theorem intersects_of_clear_ridge :
    (roof 2).unitNormal? = some ⟨0, 0, 1⟩ ∧ (fin 3 1).unitNormal? = some ⟨1, 0, 0⟩ ∧
    (0 : ℝ) ≤ 1 / 8 ∧ (roof 2).ClearOf ⟨1, 0, 0⟩ (fin 3 1).a
      (max (1 / 8) (1e-12 * (1 + max (roof 2).magnitude (fin 3 1).magnitude))) ∧
    (fin 3 1).ClearOf ⟨0, 0, 1⟩ (roof 2).a
      (max (1 / 8) (1e-12 * (1 + max (roof 2).magnitude (fin 3 1).magnitude))) ∧
    (roof 2).intersects (fin 3 1) (1 / 8) (1 / 8 * (1 / 8)) = true ∧
    ∃ p, (roof 2).Holds p ∧ (fin 3 1).Holds p := by
  have h : Ridge 2 3 1 (1 / 8) := by constructor <;> norm_num
  have hsnap :
      max (1 / 8) (1e-12 * (1 + max (roof 2).magnitude (fin 3 1).magnitude)) < (1 : ℝ) := by
    rw [h.magnitude_roof, h.magnitude_fin]
    norm_num
  have hcs : (roof 2).ClearOf ⟨1, 0, 0⟩ (fin 3 1).a _ := clearOf_of_offsets hsnap (by
    norm_num [offsets, mapCorners, roof, fin, dot])
  have hct : (fin 3 1).ClearOf ⟨0, 0, 1⟩ (roof 2).a _ := clearOf_of_offsets hsnap (by
    norm_num [offsets, mapCorners, roof, fin, dot])
  have haxis : ((⟨0, 0, 1⟩ : Vec ℝ).cross ⟨1, 0, 0⟩).dominant = .y := by
    norm_num [cross, dominant, map]
  have hmid : (⟨1 / 4, 1 / 4, 1 / 2⟩ : Triple ℝ).IsShares :=
    ⟨by norm_num, fun i => by cases i <;> norm_num [Triple.get]⟩
  have hp : (roof 2).Holds ⟨0, 1, 0⟩ ∧ (fin 3 1).Holds ⟨0, 1, 0⟩ :=
    ⟨⟨_, hmid, by norm_num [pointAt, Triple.mean, mapCorners, roof]⟩,
      ⟨_, Triple.isShares_only .c, by
        norm_num [pointAt, Triple.mean, Triple.only, mapCorners, fin]⟩⟩
  have hq : (roof 2).Holds ⟨0, 2, 0⟩ ∧ (fin 3 1).Holds ⟨0, 2, 0⟩ :=
    ⟨⟨_, Triple.isShares_only .c, by
        norm_num [pointAt, Triple.mean, Triple.only, mapCorners, roof]⟩,
      ⟨_, hmid, by norm_num [pointAt, Triple.mean, mapCorners, fin]⟩⟩
  obtain ⟨hforth, hback⟩ :=
    intersects_of_clear h.unitNormal_roof h.unitNormal_fin h.pos.le hcs hct
  have hi := hback
    ⟨(roof 2).a, by simp [corners], (roof 2).b, by simp [corners], by
      norm_num [roof, fin, dot]⟩
    ⟨(fin 3 1).a, by simp [corners], (fin 3 1).b, by simp [corners], by
      norm_num [roof, fin, dot]⟩
    ⟨_, _, hp, hq, by
      rw [haxis]
      norm_num [reach, corners, roof, fin, along]⟩
  exact ⟨h.unitNormal_roof, h.unitNormal_fin, h.pos.le, hcs, hct, hi, (hforth hi).2.2⟩

end Triangle

end SolidClash
