import Mathlib.Tactic.NormNum
import SolidClash.Mesh.Clash
import SolidClash.Proofs.Triangle.Symmetry

namespace SolidClash

@[simp] lemma Vec.mk_sub_mk (a b c d e f : ℝ) :
    (⟨a, b, c⟩ - ⟨d, e, f⟩ : Vec ℝ) = ⟨a - d, b - e, c - f⟩ := rfl

lemma Vec.unit_eq_some {v : Vec ℝ} {least r : ℝ} (h : v.dot v = r * r) (hr : 0 ≤ r)
    (hl : least < r) : v.unit? least = some (v.map (· / r)) := by
  have hn : v.norm = r := by
    change Real.sqrt (v.dot v) = r
    rw [h, Real.sqrt_mul_self hr]
  rw [unit?, hn, if_neg hl.not_ge]

namespace Triangle

def roof (q : ℝ) : Triangle ℝ := ⟨⟨-1, 0, 0⟩, ⟨1, 0, 0⟩, ⟨0, q, 0⟩⟩

def fin (u v : ℝ) : Triangle ℝ := ⟨⟨0, u, -1⟩, ⟨0, u, 1⟩, ⟨0, v, 0⟩⟩

structure Ridge (q u v ε : ℝ) : Prop where
  one_le_q : 1 ≤ q
  one_le_v : 1 ≤ v
  gap : v + 1 ≤ u
  q_le : q ≤ 100
  u_le : u ≤ 100
  tiny_le : 1e-9 ≤ ε
  lt_one : ε < 1

lemma normal_roof (q : ℝ) : (roof q).normal = ⟨0, 0, 2 * q⟩ := by
  simp only [normal, roof, Vec.mk_sub_mk, Vec.cross]
  congr 1 <;> ring

lemma normal_fin (u v : ℝ) : (fin u v).normal = ⟨2 * (u - v), 0, 0⟩ := by
  simp only [normal, fin, Vec.mk_sub_mk, Vec.cross]
  congr 1 <;> ring

lemma lone_of_first_two : Triple.lone? (⟨-1, 1, 0⟩ : Triple ℝ) = some .a := by
  norm_num [Triple.lone?]

namespace Ridge

variable {q u v ε : ℝ} (h : Ridge q u v ε)

include h

lemma pos : 0 < ε := lt_of_lt_of_le (by norm_num) h.tiny_le

lemma unitNormal_roof : (roof q).unitNormal? = some ⟨0, 0, 1⟩ := by
  have hq := h.one_le_q
  have hd : (⟨0, 0, 2 * q⟩ : Vec ℝ).dot ⟨0, 0, 2 * q⟩ = 2 * q * (2 * q) := by simp [Vec.dot]
  have hq' : 2 * q ≠ 0 := by linarith
  rw [unitNormal?, normal_roof, Vec.unit_eq_some hd (by linarith) (by norm_num; linarith)]
  simp [Vec.map, hq']

lemma unitNormal_fin : (fin u v).unitNormal? = some ⟨1, 0, 0⟩ := by
  have huv := h.gap
  have hd : (⟨2 * (u - v), 0, 0⟩ : Vec ℝ).dot ⟨2 * (u - v), 0, 0⟩ =
      2 * (u - v) * (2 * (u - v)) := by simp [Vec.dot]
  have huv' : 2 * (u - v) ≠ 0 := by linarith
  rw [unitNormal?, normal_fin, Vec.unit_eq_some hd (by linarith) (by norm_num; linarith)]
  simp [Vec.map, huv']

lemma magnitude_roof : (roof q).magnitude = q := by
  have hq := h.one_le_q
  have hq₀ : 0 ≤ q := by linarith
  simp [magnitude, corners, roof, Vec.toList, abs_of_nonneg hq₀, hq₀, hq]

lemma magnitude_fin : (fin u v).magnitude = u := by
  have hv := h.one_le_v
  have huv := h.gap
  have hu₀ : 0 ≤ u := by linarith
  have hv₀ : 0 ≤ v := by linarith
  have hvu : v ≤ u := by linarith
  have hu₁ : max u 1 = u := max_eq_left (by linarith)
  simp [magnitude, corners, fin, Vec.toList, abs_of_nonneg hu₀, abs_of_nonneg hv₀, hu₀, hu₁, hvu]

lemma snap_fin_roof : (fin u v).snap (roof q) ε = ε := by
  rw [snap, h.magnitude_roof, h.magnitude_fin, Scalar.maxNum_real, Scalar.maxNum_real]
  apply max_eq_left
  have hm : max u q ≤ 100 := max_le h.u_le h.q_le
  have hε := h.tiny_le
  simp only [planeNoise]
  norm_num at hε ⊢
  linarith

lemma heights_roof : (roof q).heights (fin u v) ⟨1, 0, 0⟩ ε = ⟨-1, 1, 0⟩ := by
  rw [heights, h.snap_fin_roof]
  simp [distances, mapCorners, roof, fin, Vec.dot, h.pos, h.lt_one.le]

lemma heights_fin : (fin u v).heights (roof q) ⟨0, 0, 1⟩ ε = ⟨-1, 1, 0⟩ := by
  rw [heights, snap_comm, h.snap_fin_roof]
  simp [distances, mapCorners, roof, fin, Vec.dot, h.pos, h.lt_one.le]

lemma straddles : Triple.Straddles (⟨-1, 1, 0⟩ : Triple ℝ) (ε * ε) := by
  have hp := h.pos
  have hl := h.lt_one
  apply Or.inl
  change (-1 : ℝ) * 1 < _
  nlinarith

lemma span_roof : span? (roof q) .y ⟨-1, 1, 0⟩ = some (0, q) := by
  have hq : 0 ≤ q := zero_le_one.trans h.one_le_q
  simp [span?, interval?, lone_of_first_two, crossing, mapCorners, Triple.get, Corner.others, roof,
    Vec.along, hq]

lemma span_fin : span? (fin u v) .y ⟨-1, 1, 0⟩ = some (v, u) := by
  have hvu : ¬ u ≤ v := not_le.mpr (by linarith [h.gap])
  simp [span?, interval?, lone_of_first_two, crossing, mapCorners, Triple.get, Corner.others, fin,
    Vec.along, div_neg, hvu]

lemma spansOverlap_iff (k : ℝ) :
    SpansOverlap (roof q) (fin u v) .y ⟨-1, 1, 0⟩ ⟨-1, 1, 0⟩ k ε ↔
      v ≤ q ∧ ¬ Close (q - k) (v - k) ε ∧ ¬ Close (u - k) (0 - k) ε := by
  have hu : 0 ≤ u := by linarith [h.gap, h.one_le_v]
  simp [SpansOverlap, h.span_roof, h.span_fin, hu]

lemma intersects_roof : (roof q).intersects (fin u v) ε (ε * ε) = true ↔
    v ≤ q ∧ ¬ Close q v ε ∧ ¬ Close u 0 ε := by
  have hz := h.straddles.not_allZero
  have haxis : ((⟨0, 0, 1⟩ : Vec ℝ).cross ⟨1, 0, 0⟩).dominant = .y := by
    norm_num [Vec.cross, Vec.dominant, Vec.map]
  -- the roof measures from `y = 0`
  have hk : (roof q).a.along .y = 0 := rfl
  rw [intersects_onLine_iff h.unitNormal_roof h.unitNormal_fin (h.heights_roof ▸ hz)
    (h.heights_fin ▸ hz), h.heights_roof, h.heights_fin, haxis, h.spansOverlap_iff, hk]
  simp [h.straddles]

lemma intersects_fin : (fin u v).intersects (roof q) ε (ε * ε) = true ↔
    v ≤ q ∧ ¬ Close (q - u) (v - u) ε ∧ ¬ Close (u - u) (0 - u) ε := by
  have hz := h.straddles.not_allZero
  have haxis : ((⟨1, 0, 0⟩ : Vec ℝ).cross ⟨0, 0, 1⟩).dominant = .y := by
    norm_num [Vec.cross, Vec.dominant, Vec.map]
  -- the fin measures from `y = u`
  have hk : (fin u v).a.along .y = u := rfl
  rw [intersects_onLine_iff h.unitNormal_fin h.unitNormal_roof (h.heights_fin ▸ hz)
    (h.heights_roof ▸ hz), h.heights_roof, h.heights_fin, haxis, spansOverlap_comm,
    h.spansOverlap_iff, hk]
  simp only [h.straddles, true_and]

lemma overlaps_iff : (roof q).bounds.Overlaps (fin u v).bounds ↔ v ≤ q := by
  have hq : 0 ≤ q := zero_le_one.trans h.one_le_q
  have hvu : v ≤ u := by linarith [h.gap]
  have hu : 0 ≤ u := by linarith [h.one_le_v]
  have hr : (roof q).bounds = ⟨⟨-1, 0, 0⟩, ⟨1, q, 0⟩⟩ := by
    simp [bounds, roof, Box.ofPoint, Box.cover, Vec.inf, Vec.sup, Vec.zipWith, hq]
  have hf : (fin u v).bounds = ⟨⟨0, v, -1⟩, ⟨0, u, 1⟩⟩ := by
    simp [bounds, fin, Box.ofPoint, Box.cover, Vec.inf, Vec.sup, Vec.zipWith, hvu]
  simp [hr, hf, Box.Overlaps, hu]

end Ridge

end Triangle

namespace Mesh

lemma triangles_ofTriangles (ts : List (Triangle ℝ)) : (ofTriangles ts).triangles = ts := by
  simp [triangles, ofTriangles, Function.comp_def]

lemma clash_single (s t : Triangle ℝ) (ε : ℝ) :
    (ofTriangles [s]).clash (ofTriangles [t]) ε = trianglesClash ε s t := by
  simp [clash, triangles_ofTriangles]

end Mesh

end SolidClash
