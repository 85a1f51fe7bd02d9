import SolidClash.Proofs.Mesh.Pruning
import SolidClash.Proofs.Triangle.EvenHanded

/-! Whether two meshes clash does not depend on their order as long as every pair of triangles is
even-handed. Three pairs that are not show that it can. -/

namespace SolidClash

namespace Mesh

open Triangle

lemma trianglesClash_comm {s t : Triangle ℝ} {ε : ℝ}
    (h : s.bounds.Overlaps t.bounds → s.EvenHanded t ε) :
    trianglesClash ε s t = trianglesClash ε t s := by
  simp only [trianglesClash, Box.overlaps_comm t.bounds]
  by_cases ho : s.bounds.Overlaps t.bounds
  · rw [(h ho).intersects_comm]
  · simp [ho]

lemma clash_comm_of_pairs {a b : Mesh ℝ} {ε : ℝ}
    (h : ∀ s ∈ a.triangles, ∀ t ∈ b.triangles, trianglesClash ε s t = trianglesClash ε t s) :
    a.clash b ε = b.clash a ε := by
  rw [Bool.eq_iff_iff]
  simp only [clash, List.any_eq_true]
  constructor
  · rintro ⟨s, hs, t, ht, hc⟩
    exact ⟨t, ht, s, hs, h s hs t ht ▸ hc⟩
  · rintro ⟨t, ht, s, hs, hc⟩
    exact ⟨s, hs, t, ht, (h s hs t ht).symm ▸ hc⟩

/-- In exact arithmetic the order of two even-handed triangles makes no difference to their verdict,
and so it makes none for meshes whose triangles are even-handed where their boxes overlap. Sharp
triangles are even-handed. -/
theorem clash_comm (a b : Mesh ℝ) (ε : ℝ) :
    (∀ s t : Triangle ℝ, s.EvenHanded t ε →
      s.intersects t ε (ε * ε) = t.intersects s ε (ε * ε)) ∧
    (∀ s t : Triangle ℝ, s.Sharp t ε → s.EvenHanded t ε) ∧
    ((∀ s ∈ a.triangles, ∀ t ∈ b.triangles, s.bounds.Overlaps t.bounds → s.EvenHanded t ε) →
      a.clash b ε = b.clash a ε) ∧
    ((∀ s ∈ a.triangles, ∀ t ∈ b.triangles, s.bounds.Overlaps t.bounds → s.Sharp t ε) →
      a.clash b ε = b.clash a ε) := by
  refine ⟨fun _ _ h => h.intersects_comm, fun _ _ h => h.evenHanded, fun h => ?_, fun h => ?_⟩
  · exact clash_comm_of_pairs fun s hs t ht => trianglesClash_comm (h s hs t ht)
  · refine clash_comm_of_pairs fun s hs t ht => trianglesClash_comm fun ho => ?_
    exact (h s hs t ht ho).evenHanded

section Ridge

variable {q u v ε r : ℝ} (h : Ridge q u v ε)

include h

lemma spread_ridge (hq : q ≤ r) (hu : u ≤ r) : Spread (roof q) (fin u v) .y r := by
  have hq₀ := h.one_le_q
  have hv₀ := h.one_le_v
  have huv := h.gap
  rw [Spread, List.forall_mem_append, forall_mem_corners, forall_mem_corners]
  simp only [roof, fin, Vec.along, abs_le]
  refine ⟨⟨?_, ?_, ?_⟩, ?_, ?_, ?_⟩ <;> constructor <;> constructor <;> linarith

lemma evenHanded_fin (hr : 1 ≤ r) (hq : q ≤ r) (hu : u ≤ r)
    (hdeep : ε * r < min (q - v) (u - 0)) : (roof q).EvenHanded (fin u v) ε := by
  intro n₁ n₂ h₁ h₂
  obtain rfl := Option.some.inj (h.unitNormal_roof.symm.trans h₁)
  obtain rfl := Option.some.inj (h.unitNormal_fin.symm.trans h₂)
  have haxis : ((⟨0, 0, 1⟩ : Vec ℝ).cross ⟨1, 0, 0⟩).dominant = .y := by
    norm_num [Vec.cross, Vec.dominant, Vec.map]
  refine ⟨fun _ hzero => ?_, fun _ _ i j hi hj => .inr ⟨r, hr, haxis ▸ spread_ridge h hq hu, ?_⟩⟩
  · rw [h.heights_roof, h.heights_fin, or_self] at hzero
    exact (h.straddles.not_allZero hzero).elim
  · rw [haxis, h.heights_roof, h.span_roof] at hi
    rw [haxis, h.heights_fin, h.span_fin] at hj
    obtain rfl := Option.some.inj hi
    obtain rfl := Option.some.inj hj
    exact hdeep

lemma evenHanded_roof (q' : ℝ) : (roof q).EvenHanded (roof q') ε := by
  intro n₁ n₂ h₁ h₂
  obtain rfl := Option.some.inj (h.unitNormal_roof.symm.trans h₁)
  refine evenHandedAt_of_flat h₁ h₂ (forall_mem_corners.mpr ?_) ε
  simp [roof, Vec.dot]

end Ridge

def flap (w h : ℝ) : Triangle ℝ := ⟨⟨0, 0, 0⟩, ⟨w, 0, -h⟩, ⟨0, w, 0⟩⟩

lemma unitNormal_flap {w h r : ℝ} (hw : 1 ≤ w) (hr : 1 ≤ r) (hlong : w * w + h * h = r * r) :
    (flap w h).unitNormal? = some ⟨h / r, 0, w / r⟩ := by
  have hw₀ : 0 < w := zero_lt_one.trans_le hw
  have hr₀ : 0 < r := zero_lt_one.trans_le hr
  have hnormal : (flap w h).normal = ⟨w * h, 0, w * w⟩ := by
    simp only [normal, flap, Vec.mk_sub_mk, Vec.cross]
    congr 1 <;> ring
  have hd : (⟨w * h, 0, w * w⟩ : Vec ℝ).dot ⟨w * h, 0, w * w⟩ = w * r * (w * r) := by
    simp only [Vec.dot]
    linear_combination w * w * hlong
  have hwr : 1 ≤ w * r := one_le_mul_of_one_le_of_one_le hw hr
  rw [unitNormal?, hnormal, Vec.unit_eq_some hd (by positivity) (lt_of_lt_of_le (by norm_num) hwr)]
  simp only [Vec.map, zero_div, mul_div_mul_left _ _ hw₀.ne']

lemma unitNormal_flat {w : ℝ} (hw : 1 ≤ w) : (flap w 0).unitNormal? = some ⟨0, 0, 1⟩ := by
  have hw₀ : w ≠ 0 := by linarith
  rw [unitNormal_flap hw hw (by ring), zero_div, div_self hw₀]

def screen (h : ℝ) : Triangle ℝ := ⟨⟨h, h, -h⟩, ⟨h, h, h⟩, ⟨1, h, 0⟩⟩

lemma unitNormal_screen : (screen (1 / 4)).unitNormal? = some ⟨0, 1, 0⟩ := by
  have hnormal : (screen (1 / 4)).normal = ⟨0, 3 / 8, 0⟩ := by norm_num [normal, screen, Vec.cross]
  have hd : (⟨0, 3 / 8, 0⟩ : Vec ℝ).dot ⟨0, 3 / 8, 0⟩ = 3 / 8 * (3 / 8) := by norm_num [Vec.dot]
  rw [unitNormal?, hnormal, Vec.unit_eq_some hd (by norm_num) (by norm_num)]
  norm_num [Vec.map]

lemma sharp_screen : (flap 1 0).Sharp (screen (1 / 4)) (1 / 8) where
  unsnapped n₁ n₂ h₁ h₂ := by
    obtain rfl := Option.some.inj ((unitNormal_flat le_rfl).symm.trans h₁)
    obtain rfl := Option.some.inj (unitNormal_screen.symm.trans h₂)
    have hsnap : (flap 1 0).snap (screen (1 / 4)) (1 / 8) = 1 / 8 := by
      norm_num [snap, magnitude, corners, flap, screen, Vec.toList, planeNoise, Scalar.maxNum_real,
        abs_of_pos]
    rw [Snapped, hsnap]
    push Not
    rw [forall_mem_corners, forall_mem_corners]
    norm_num [flap, screen, Vec.dot, abs_of_pos]
  near m := by
    rw [Spread, List.forall_mem_append, forall_mem_corners, forall_mem_corners]
    cases m <;> norm_num [flap, screen, Vec.along, abs_le]

theorem clash_comm_ridge :
    (∀ s ∈ (ofTriangles [roof 2]).triangles, ∀ t ∈ (ofTriangles [fin 3 1, roof 1]).triangles,
      s.bounds.Overlaps t.bounds → s.EvenHanded t (1 / 8)) ∧
    (ofTriangles [roof 2]).clash (ofTriangles [fin 3 1, roof 1]) (1 / 8) = true ∧
    (ofTriangles [fin 3 1, roof 1]).clash (ofTriangles [roof 2]) (1 / 8) = true ∧
    (flap 1 0).Sharp (screen (1 / 4)) (1 / 8) ∧
    (flap 1 0).intersects (screen (1 / 4)) (1 / 8) (1 / 8 * (1 / 8)) =
      (screen (1 / 4)).intersects (flap 1 0) (1 / 8) (1 / 8 * (1 / 8)) ∧
    (ofTriangles [flap 1 0]).clash (ofTriangles [screen (1 / 4)]) (1 / 8) =
      (ofTriangles [screen (1 / 4)]).clash (ofTriangles [flap 1 0]) (1 / 8) := by
  have h : Ridge 2 3 1 (1 / 8) := by constructor <;> norm_num
  have hfin : (roof 2).EvenHanded (fin 3 1) (1 / 8) :=
    evenHanded_fin (r := 3) h (by norm_num) (by norm_num) le_rfl (by norm_num)
  have hall : ∀ s ∈ (ofTriangles [roof 2]).triangles,
      ∀ t ∈ (ofTriangles [fin 3 1, roof 1]).triangles,
      s.bounds.Overlaps t.bounds → s.EvenHanded t (1 / 8) := by
    simp only [triangles_ofTriangles, List.forall_mem_cons, List.not_mem_nil, false_imp_iff,
      implies_true, and_true]
    exact ⟨fun _ => hfin, fun _ => evenHanded_roof h 1⟩
  have hroof : (roof 2).intersects (fin 3 1) (1 / 8) (1 / 8 * (1 / 8)) = true := by
    rw [h.intersects_roof]
    norm_num [Close]
  have hclash : (ofTriangles [roof 2]).clash (ofTriangles [fin 3 1, roof 1]) (1 / 8) = true := by
    simp only [clash, triangles_ofTriangles, List.any_cons, trianglesClash, hroof, Bool.and_true,
      h.overlaps_iff]
    norm_num
  have hsharp : ∀ s ∈ (ofTriangles [flap 1 0]).triangles,
      ∀ t ∈ (ofTriangles [screen (1 / 4)]).triangles,
      s.bounds.Overlaps t.bounds → s.Sharp t (1 / 8) := by
    simpa [triangles_ofTriangles] using fun _ => sharp_screen
  have hmesh := (clash_comm (ofTriangles [roof 2]) (ofTriangles [fin 3 1, roof 1]) (1 / 8)).2.2.1
  obtain ⟨hpair, hpairs, -, hsharps⟩ :=
    clash_comm (ofTriangles [flap 1 0]) (ofTriangles [screen (1 / 4)]) (1 / 8)
  exact ⟨hall, hclash, hmesh hall ▸ hclash, sharp_screen, hpair _ _ (hpairs _ _ sharp_screen),
    hsharps hsharp⟩

lemma overlaps_flaps {w h : ℝ} (hw : 0 ≤ w) (hh : 0 ≤ h) :
    (flap w 0).bounds.Overlaps (flap w h).bounds := by
  have hb : ∀ h : ℝ, 0 ≤ h → (flap w h).bounds = ⟨⟨0, 0, -h⟩, ⟨w, w, 0⟩⟩ := by
    intro h hh
    simp [Triangle.bounds, flap, Box.ofPoint, Box.cover, Vec.inf, Vec.sup, Vec.zipWith, hw, hh]
  simp [hb, Box.Overlaps, hw, hh]

lemma clash_flaps {w h ε : ℝ} {u v : Bool} (hw : 0 ≤ w) (hh : 0 ≤ h)
    (hu : (flap w 0).intersects (flap w h) ε (ε * ε) = u)
    (hv : (flap w h).intersects (flap w 0) ε (ε * ε) = v) :
    (ofTriangles [flap w 0]).clash (ofTriangles [flap w h]) ε = u ∧
      (ofTriangles [flap w h]).clash (ofTriangles [flap w 0]) ε = v := by
  have ho := overlaps_flaps hw hh
  have ho' : (flap w h).bounds.Overlaps (flap w 0).bounds := (Box.overlaps_comm _ _).mp ho
  simp only [clash_single, trianglesClash, ho, ho', hu, hv, decide_true, Bool.true_and, and_self]

lemma wide_flaps {w h h' : ℝ} (hw : 0 < w) {e : Vec ℝ}
    (he : e ∈ (flap w h).edges ++ (flap w h').edges) :
    Wide ((flap w h).mapCorners (·.onto Axis.z.others))
      ((flap w h').mapCorners (·.onto Axis.z.others)) (e.onto Axis.z.others).turned := by
  have hww : 0 < w * w := mul_pos hw hw
  simp [edges, flap] at he
  rcases he with rfl | rfl | rfl | rfl | rfl | rfl
  all_goals
    simp [Wide, mapCorners, flap, Vec.onto, Axis.others, Vec.along, Vec2.dot, Vec2.turned, hww.le]
  all_goals linarith

lemma intersects_of_wide_flaps {w h h' ε : ℝ} {n₁ n₂ : Vec ℝ} (hw : 0 < w)
    (hs : (flap w h).unitNormal? = some n₁) (ht : (flap w h').unitNormal? = some n₂)
    (hdot : 0 ≤ n₁.dot n₂) (haxis : n₁.dominant = .z)
    (hz : ((flap w h').heights (flap w h) n₁ ε).AllZero) :
    (flap w h).intersects (flap w h') ε (ε * ε) = true := by
  refine intersects_of_wide hs ht hdot hz fun e he => .inr ?_
  rw [haxis]
  exact wide_flaps hw he

lemma intersects_hanging : (flap 4 0).intersects (flap 4 3) (5 / 2) (5 / 2 * (5 / 2)) = false ∧
    (flap 4 3).intersects (flap 4 0) (5 / 2) (5 / 2 * (5 / 2)) = true := by
  have hs : (flap 4 0).unitNormal? = some ⟨0, 0, 1⟩ := unitNormal_flat (by norm_num)
  have ht : (flap 4 3).unitNormal? = some ⟨3 / 5, 0, 4 / 5⟩ :=
    unitNormal_flap (by norm_num) (by norm_num) (by norm_num)
  have haxis : (⟨3 / 5, 0, 4 / 5⟩ : Vec ℝ).dominant = .z := by
    norm_num [Vec.dominant, Vec.map, abs_of_pos]
  have hsnap : (flap 4 3).snap (flap 4 0) (5 / 2) = 5 / 2 := by
    norm_num [snap, magnitude, corners, flap, Vec.toList, planeNoise, Scalar.maxNum_real]
  have hzero : ((flap 4 0).heights (flap 4 3) ⟨3 / 5, 0, 4 / 5⟩ (5 / 2)).AllZero := by
    rw [heights, hsnap]
    norm_num [distances, mapCorners, flap, Triple.AllZero, Vec.dot, abs_of_pos]
  have hdeep : (flap 4 3).heights (flap 4 0) ⟨0, 0, 1⟩ (5 / 2) = ⟨0, -3, 0⟩ := by
    rw [heights, snap_comm, hsnap]
    norm_num [distances, mapCorners, flap, Vec.dot]
  constructor
  · rw [← Bool.not_eq_true, intersects_inPlane_iff hs ht (.inl hzero), hdeep]
    norm_num [Triple.Reaches, Triple.AllZero, Triple.Straddles]
  · exact intersects_of_wide_flaps (by norm_num) ht hs (by norm_num [Vec.dot]) haxis hzero

lemma intersects_steep : (flap 3 0).intersects (flap 3 4) 8 (8 * 8) = true ∧
    (flap 3 4).intersects (flap 3 0) 8 (8 * 8) = false := by
  have hs : (flap 3 0).unitNormal? = some ⟨0, 0, 1⟩ := unitNormal_flat (by norm_num)
  have ht : (flap 3 4).unitNormal? = some ⟨4 / 5, 0, 3 / 5⟩ :=
    unitNormal_flap (by norm_num) (by norm_num) (by norm_num)
  have haxis : (⟨0, 0, 1⟩ : Vec ℝ).dominant = .z := by norm_num [Vec.dominant, Vec.map]
  have haxis' : (⟨4 / 5, 0, 3 / 5⟩ : Vec ℝ).dominant = .x := by
    norm_num [Vec.dominant, Vec.map, abs_of_pos]
  have hsnap : (flap 3 4).snap (flap 3 0) 8 = 8 := by
    norm_num [snap, magnitude, corners, flap, Vec.toList, planeNoise, Scalar.maxNum_real]
  have hzero : ((flap 3 4).heights (flap 3 0) ⟨0, 0, 1⟩ 8).AllZero := by
    rw [heights, snap_comm, hsnap]
    norm_num [distances, mapCorners, flap, Triple.AllZero, Vec.dot]
  constructor
  · exact intersects_of_wide_flaps (by norm_num) hs ht (by norm_num [Vec.dot]) haxis hzero
  · rw [← Bool.not_eq_true, intersects_inPlane_iff ht hs (.inl hzero), haxis']
    rintro ⟨-, -, hover⟩
    have hedge : Vec.axial .y (-3) ∈ (flap 3 0).edges := by
      simp [edges, flap, Vec.axial]
    refine not_shadowsOverlap_of_contact (m := .z) (c := 0) (by norm_num) (.inr hedge)
      (by norm_num) (by decide) (by decide) (by decide) (.inr ?_) (.inr ?_) hover
    · simp [corners, flap, Vec.along]
    · simp [corners, flap, Vec.along]

/-- A gap of one is within an eighth of sixteen but not within an eighth of two. A flap hangs below
the ground farther than the ground lies off its plane, or it has its shadows along another axis. -/
theorem clash_depends_on_order :
    ((ofTriangles [roof 16]).clash (ofTriangles [fin 17 15]) (1 / 8) = false ∧
      (ofTriangles [fin 17 15]).clash (ofTriangles [roof 16]) (1 / 8) = true) ∧
    ((ofTriangles [flap 4 0]).clash (ofTriangles [flap 4 3]) (5 / 2) = false ∧
      (ofTriangles [flap 4 3]).clash (ofTriangles [flap 4 0]) (5 / 2) = true) ∧
    (ofTriangles [flap 3 0]).clash (ofTriangles [flap 3 4]) 8 = true ∧
      (ofTriangles [flap 3 4]).clash (ofTriangles [flap 3 0]) 8 = false := by
  have h : Ridge 16 17 15 (1 / 8) := by constructor <;> norm_num
  have hroof : (roof 16).intersects (fin 17 15) (1 / 8) (1 / 8 * (1 / 8)) = false := by
    rw [← Bool.not_eq_true, h.intersects_roof]
    norm_num [Close]
  have hfin : (fin 17 15).intersects (roof 16) (1 / 8) (1 / 8 * (1 / 8)) = true := by
    rw [h.intersects_fin]
    norm_num [Close]
  refine ⟨⟨by rw [clash_single, trianglesClash, hroof, Bool.and_false], ?_⟩,
    clash_flaps (by norm_num) (by norm_num) intersects_hanging.1 intersects_hanging.2,
    clash_flaps (by norm_num) (by norm_num) intersects_steep.1 intersects_steep.2⟩
  rw [clash_single, trianglesClash, hfin, Bool.and_true, decide_eq_true_iff, Box.overlaps_comm,
    h.overlaps_iff]
  norm_num

end Mesh

end SolidClash
