import SolidClash.Proofs.Mesh.Ridge
import SolidClash.Proofs.Triangle.Translation

namespace SolidClash

namespace Mesh

open Triangle

def translated (m : Mesh ℝ) (v : Vec ℝ) : Mesh ℝ where
  points := m.points.map (· + v)
  faces := m.faces.map fun f => ⟨f.corners, f.triangle.translated v⟩
  undecodable := m.undecodable

lemma triangles_translated (m : Mesh ℝ) (v : Vec ℝ) :
    (m.translated v).triangles = m.triangles.map (·.translated v) := by
  simp [triangles, translated]

lemma trianglesClash_translated {s t : Triangle ℝ} {v : Vec ℝ} {ε : ℝ}
    (hsnap : (s.translated v).snap (t.translated v) ε = s.snap t ε) :
    trianglesClash ε (s.translated v) (t.translated v) = trianglesClash ε s t := by
  simp only [trianglesClash, bounds_translated, Box.overlaps_translated,
    intersects_translated hsnap]

/-- Meshes that are moved together clash as before, unless the rounding noise of a coordinate
exceeds the tolerance at the one place or the other. -/
theorem clash_translated (a b : Mesh ℝ) (v : Vec ℝ) {ε : ℝ}
    (hnoise : ∀ t ∈ a.triangles ++ b.triangles,
      t.NoiseWithin ε ∧ (t.translated v).NoiseWithin ε) :
    (a.translated v).clash (b.translated v) ε = a.clash b ε := by
  obtain ⟨ha, hb⟩ := List.forall_mem_append.mp hnoise
  rw [Bool.eq_iff_iff]
  simp only [clash, triangles_translated, List.any_map, Function.comp_def, List.any_eq_true]
  refine exists_congr fun s => and_congr_right fun hs => exists_congr fun t =>
    and_congr_right fun ht => ?_
  obtain ⟨hs, hs'⟩ := ha s hs
  obtain ⟨ht, ht'⟩ := hb t ht
  rw [trianglesClash_translated ((hs'.snap_eq ht').trans (hs.snap_eq ht).symm)]

theorem clash_translated_ridge :
    (∀ t ∈ (ofTriangles [roof 2]).triangles ++ (ofTriangles [fin 3 1]).triangles,
      t.NoiseWithin 1e-5 ∧ (t.translated ⟨-2.5e6, 5e6, 120⟩).NoiseWithin 1e-5) ∧
    ((ofTriangles [roof 2]).translated ⟨-2.5e6, 5e6, 120⟩).clash
      ((ofTriangles [fin 3 1]).translated ⟨-2.5e6, 5e6, 120⟩) 1e-5 = true := by
  have h : Ridge 2 3 1 1e-5 := by constructor <;> norm_num
  have hclash : (ofTriangles [roof 2]).clash (ofTriangles [fin 3 1]) 1e-5 = true := by
    have hroof : (roof 2).intersects (fin 3 1) 1e-5 (1e-5 * 1e-5) = true := by
      rw [h.intersects_roof]
      norm_num [Close]
    rw [clash_single, trianglesClash, hroof, Bool.and_true, decide_eq_true_iff, h.overlaps_iff]
    norm_num
  have hnoise : ∀ t ∈ (ofTriangles [roof 2]).triangles ++ (ofTriangles [fin 3 1]).triangles,
      t.NoiseWithin 1e-5 ∧ (t.translated ⟨-2.5e6, 5e6, 120⟩).NoiseWithin 1e-5 := by
    have hboth {t : Triangle ℝ} (h : ∀ p ∈ t.corners, ∀ k, |p.along k| ≤ 3) :
        t.NoiseWithin 1e-5 ∧ (t.translated ⟨-2.5e6, 5e6, 120⟩).NoiseWithin 1e-5 := by
      refine ⟨noiseWithin_of_le h (by norm_num [planeNoise]),
        noiseWithin_of_le (abs_along_translated_le (q := 5e6) h ?_) (by norm_num [planeNoise])⟩
      rintro (_ | _ | _) <;> norm_num [Vec.along]
    have hroof : ∀ p ∈ (roof 2).corners, ∀ k, |p.along k| ≤ 3 := by
      refine forall_mem_corners.mpr ⟨?_, ?_, ?_⟩ <;> rintro (_ | _ | _) <;>
        norm_num [Vec.along, roof]
    have hfin : ∀ p ∈ (fin 3 1).corners, ∀ k, |p.along k| ≤ 3 := by
      refine forall_mem_corners.mpr ⟨?_, ?_, ?_⟩ <;> rintro (_ | _ | _) <;>
        norm_num [Vec.along, fin]
    simpa [triangles, ofTriangles] using ⟨hboth hroof, hboth hfin⟩
  exact ⟨hnoise, (clash_translated _ _ _ hnoise).trans hclash⟩

end Mesh

end SolidClash
