import SolidClash.Proofs.Triangle.Grazing

/-! The boxes of two meshes that clash overlap. They need not clash, since faces in one plane may
make meshes clash that are no more than in contact. -/

namespace SolidClash

namespace Box

variable {a b outer outer' : Box ℝ} {k : Axis}

lemma Fits.along (h : outer.Fits a) (k : Axis) :
    outer.min.along k ≤ a.min.along k ∧ a.max.along k ≤ outer.max.along k := by
  obtain ⟨hx, hy, hz, hx', hy', hz'⟩ := h
  cases k
  · exact ⟨hx, hx'⟩
  · exact ⟨hy, hy'⟩
  · exact ⟨hz, hz'⟩

lemma ApartOn.of_fits (h : outer.ApartOn outer' k) (ha : outer.Fits a) (hb : outer'.Fits b) :
    a.ApartOn b k :=
  h.imp (fun h => (ha.along k).2.trans (h.trans (hb.along k).1))
    fun h => (hb.along k).2.trans (h.trans (ha.along k).1)

end Box

namespace Triangle

def Wide (p q : Triple (Vec2 ℝ)) (e : Vec2 ℝ) : Prop :=
  let lo (t : Triple (Vec2 ℝ)) := min (min (t.a.dot e) (t.b.dot e)) (t.c.dot e)
  let hi (t : Triple (Vec2 ℝ)) := max (max (t.a.dot e) (t.b.dot e)) (t.c.dot e)
  0.25 * min (hi p - lo p) (hi q - lo q) < min (hi p) (hi q) - max (lo p) (lo q)

lemma not_separatedOn_of_wide {p q : Triple (Vec2 ℝ)} {e n : Vec2 ℝ} (h : Wide p q e)
    (hn : e.unit? 1e-20 = some n) (ε : ℝ) : ¬ SeparatedOn p q n ε := by
  rw [Vec2.unit?] at hn
  split at hn
  · simp at hn
  · rename_i hlong
    obtain rfl := Option.some.inj hn
    have hc : 0 < 1 / e.norm := one_div_pos.mpr (lt_trans (by norm_num) (not_le.mp hlong))
    have hdot (v : Vec2 ℝ) : v.dot ⟨e.x / e.norm, e.y / e.norm⟩ = 1 / e.norm * v.dot e := by
      simp only [Vec2.dot]
      ring
    rw [separatedOn_iff, not_le]
    simp only [hdot, ← mul_max_of_nonneg _ _ hc.le, ← mul_min_of_nonneg _ _ hc.le, ← mul_sub]
    refine (min_le_right _ _).trans_lt ?_
    rw [mul_left_comm]
    exact mul_lt_mul_of_pos_left h hc

lemma intersects_of_wide {s t : Triangle ℝ} {n₁ n₂ : Vec ℝ} {ε : ℝ} (hs : s.unitNormal? = some n₁)
    (ht : t.unitNormal? = some n₂) (hdot : 0 ≤ n₁.dot n₂) (hz : (t.heights s n₁ ε).AllZero)
    (hwide : ∀ e ∈ s.edges ++ t.edges, (e.onto n₁.dominant.others).norm ≤ 1e-20 ∨
      Wide (s.mapCorners (·.onto n₁.dominant.others)) (t.mapCorners (·.onto n₁.dominant.others))
        (e.onto n₁.dominant.others).turned) :
    s.intersects t ε (ε * ε) = true := by
  rw [intersects_inPlane_iff hs ht (Or.inr hz)]
  refine ⟨hdot, Or.inl hz, fun n hn => ?_⟩
  rw [edgeNormals_onto, edgeNormals_onto, ← List.filterMap_append] at hn
  obtain ⟨e, he, hn⟩ := List.mem_filterMap.mp hn
  rcases hwide e he with hshort | hwide
  · rw [Vec2.unit?, Vec2.norm_turned, if_pos hshort] at hn
    cases hn
  · exact not_separatedOn_of_wide hwide hn ε

end Triangle

namespace Mesh

open Triangle

variable {a b : Mesh ℝ} {ε : ℝ}

lemma exists_bounds {t : Triangle ℝ} (ht : t ∈ a.triangles) :
    ∃ A, a.bounds? = some A ∧ ∀ s ∈ a.triangles, A.Fits s.bounds := by
  have hall : ∀ b ∈ a.triangles.map Triangle.bounds, b.IsNumeric :=
    List.forall_mem_map.mpr fun _ _ => bounds_numeric ⟨le_rfl, le_rfl, le_rfl⟩
  obtain ⟨A, hA, -⟩ := Box.unionAll_fits hall (List.mem_map_of_mem ht)
  refine ⟨A, hA, fun s hs => ?_⟩
  obtain ⟨A', hA', hfits⟩ := Box.unionAll_fits hall (List.mem_map_of_mem hs)
  obtain rfl := Option.some.inj (hA.symm.trans hA')
  exact hfits

/-- Meshes that clash have boxes that overlap. The boxes clash as well, unless they are in contact
on an axis on which all clashing triangles graze each other. -/
theorem boxes_of_clash (hε : 0 ≤ ε) (h : a.clash b ε = true) :
    ∃ A B, a.bounds? = some A ∧ b.bounds? = some B ∧ A.Overlaps B ∧
      (A.Clashes B ∨ ∃ k, A.ApartOn B k ∧ ∀ s ∈ a.triangles, ∀ t ∈ b.triangles,
        trianglesClash ε s t = true → s.Grazes t k ε) := by
  obtain ⟨s, hs, t, ht, ho, _⟩ := clash_eq_true.mp h
  obtain ⟨A, hA, hfits⟩ := exists_bounds hs
  obtain ⟨B, hB, hfits'⟩ := exists_bounds ht
  refine ⟨A, B, hA, hB, ?_, ?_⟩
  · have hAt := Box.overlaps_of_fits (hfits s hs) ho
    exact (Box.overlaps_comm _ _).mp
      (Box.overlaps_of_fits (hfits' t ht) ((Box.overlaps_comm _ _).mp hAt))
  · rw [or_iff_not_imp_left]
    intro hapart
    obtain ⟨k, hk⟩ := Box.exists_apartOn hapart
    refine ⟨k, hk, fun s hs t ht hst => ?_⟩
    rw [trianglesClash, Bool.and_eq_true, decide_eq_true_iff] at hst
    exact grazes_of_intersects hst.1 (hk.of_fits (hfits s hs) (hfits' t ht)) hε hst.2

theorem boxes_of_clash_ridge : (0 : ℝ) ≤ 1 / 8 ∧
    (ofTriangles [roof 2]).clash (ofTriangles [fin 3 1]) (1 / 8) = true ∧
    ∃ A B, (ofTriangles [roof 2]).bounds? = some A ∧ (ofTriangles [fin 3 1]).bounds? = some B ∧
      A.Overlaps B ∧ (A.Clashes B ∨ ∃ k, A.ApartOn B k ∧
        ∀ s ∈ (ofTriangles [roof 2]).triangles, ∀ t ∈ (ofTriangles [fin 3 1]).triangles,
          trianglesClash (1 / 8) s t = true → s.Grazes t k (1 / 8)) := by
  have h : Ridge 2 3 1 (1 / 8) := by constructor <;> norm_num
  have hclash : (ofTriangles [roof 2]).clash (ofTriangles [fin 3 1]) (1 / 8) = true := by
    rw [clash_single, trianglesClash, Bool.and_eq_true, decide_eq_true_iff, h.overlaps_iff,
      h.intersects_roof]
    norm_num [Close]
  exact ⟨by norm_num, hclash, boxes_of_clash (by norm_num) hclash⟩

noncomputable def patch (t : Triangle ℝ) : Mesh ℝ :=
  ofBuffers [0, 1, 2] (t.corners.flatMap Vec.toList) none 1

lemma triangles_patch (t : Triangle ℝ) : (patch t).triangles = [t] := by
  have hcorner (p : Vec ℝ) : p.scale 1 = p := by simp [Vec.scale, Vec.map]
  have hfinite (p : Vec ℝ) : p.IsFinite := ⟨rfl, rfl, rfl⟩
  have htriples : triples [0, 1, 2] = [some (0, 1, 2)] := rfl
  have hpoints : pointsOf (t.corners.flatMap Vec.toList) = [t.a, t.b, t.c] := rfl
  have hface : face? #[t.a, t.b, t.c] (some (0, 1, 2)) = some ⟨(0, 1, 2), t⟩ := by
    simp [face?, corner?, hfinite, Option.filter]
  simp [patch, triangles, ofBuffers, htriples, hpoints, hcorner, hface]

def Missed (a b : Mesh ℝ) (ε : ℝ) : Prop :=
  a.clash b ε = true ∧ ∃ A B, a.bounds? = some A ∧ b.bounds? = some B ∧ ¬ A.Clashes B

lemma missed_of_intersects {s t : Triangle ℝ} (ho : s.bounds.Overlaps t.bounds)
    (hc : ¬ s.bounds.Clashes t.bounds) (hi : s.intersects t ε (ε * ε) = true) :
    Missed (patch s) (patch t) ε := by
  refine ⟨clash_eq_true.mpr ⟨s, ?_, t, ?_, ho, hi⟩, s.bounds, t.bounds, ?_, ?_, hc⟩
  · simp [triangles_patch]
  · simp [triangles_patch]
  · simp [bounds?, triangles_patch, Box.unionAll?]
  · simp [bounds?, triangles_patch, Box.unionAll?]

def sheet (z : ℝ) : Triangle ℝ := ⟨⟨0, 0, 0⟩, ⟨4, 0, 0⟩, ⟨0, 3, z⟩⟩

lemma unitNormal_sheet (z : ℝ) :
    ∃ n, (sheet z).unitNormal? = some n ∧ 0 ≤ (⟨0, 0, 1⟩ : Vec ℝ).dot n := by
  have hnormal : (sheet z).normal = ⟨0, -(4 * z), 12⟩ := by
    simp [normal, sheet, Vec.cross]
    norm_num
  have hlong : 12 ≤ (sheet z).normal.norm := by
    rw [hnormal]
    refine Real.le_sqrt_of_sq_le ?_
    simp only [Vec.dot]
    nlinarith [mul_self_nonneg z]
  rw [unitNormal?, Vec.unit?, if_neg (not_le.mpr (lt_of_lt_of_le (by norm_num) hlong))]
  refine ⟨_, rfl, ?_⟩
  rw [hnormal] at hlong ⊢
  simp only [Vec.dot, Vec.map, zero_mul, one_mul, zero_add]
  exact div_nonneg (by norm_num) (by linarith)

lemma intersects_sheet {z : ℝ} (hz : |z| < ε) :
    (sheet 0).intersects (sheet z) ε (ε * ε) = true := by
  have hs : (sheet 0).unitNormal? = some ⟨0, 0, 1⟩ := by
    have hnormal : (sheet 0).normal = ⟨0, 0, 12⟩ := by
      simp [normal, sheet, Vec.cross]
      norm_num
    have hd : (⟨0, 0, 12⟩ : Vec ℝ).dot ⟨0, 0, 12⟩ = 12 * 12 := by simp [Vec.dot]
    rw [unitNormal?, hnormal, Vec.unit_eq_some hd (by norm_num) (by norm_num)]
    simp [Vec.map]
  obtain ⟨n, ht, hdot⟩ := unitNormal_sheet z
  have haxis : (⟨0, 0, 1⟩ : Vec ℝ).dominant = .z := by norm_num [Vec.dominant, Vec.map]
  have hsnap : |z| < (sheet 0).snap (sheet z) ε := by
    rw [snap, Scalar.maxNum_real]
    exact hz.trans_le (le_max_left _ _)
  refine intersects_of_wide hs ht hdot ?_ ?_
  · simp [heights, distances, mapCorners, Triple.AllZero, sheet, Vec.dot] at hsnap ⊢
    exact fun h => absurd hsnap h.not_gt
  · rw [haxis]
    intro e he
    right
    simp [edges, sheet] at he
    rcases he with rfl | rfl | rfl | rfl | rfl | rfl
    all_goals
      norm_num [Wide, mapCorners, sheet, Vec.onto, Axis.others, Vec.along, Vec2.dot, Vec2.turned,
        max_def, min_def]

def board : Triangle ℝ := ⟨⟨0, 3, 0⟩, ⟨-9, 0, 0⟩, ⟨0, -9, 0⟩⟩

def ramp : Triangle ℝ := ⟨⟨0, 8, 1⟩, ⟨1, -20, -3⟩, ⟨5, 28, 1⟩⟩

lemma snap_board_ramp : board.snap ramp (1 / 2) = 1 / 2 := by
  norm_num [snap, magnitude, corners, board, ramp, Vec.toList, planeNoise, Scalar.maxNum_real]

lemma heights_board : board.heights ramp ⟨4 / 9, -1 / 9, 8 / 9⟩ (1 / 2) = ⟨0, -4, 1⟩ := by
  rw [heights, snap_comm, snap_board_ramp]
  norm_num [distances, mapCorners, board, ramp, Vec.dot, abs_of_pos, abs_of_neg]

lemma heights_ramp : ramp.heights board ⟨0, 0, 1⟩ (1 / 2) = ⟨1, -3, 1⟩ := by
  rw [heights, snap_board_ramp]
  norm_num [distances, mapCorners, board, ramp, Vec.dot]

lemma intersects_board : board.intersects ramp (1 / 2) (1 / 2 * (1 / 2)) = true := by
  have hs : board.unitNormal? = some ⟨0, 0, 1⟩ := by
    have hnormal : board.normal = ⟨0, 0, 108⟩ := by norm_num [normal, board, Vec.cross]
    have hd : (⟨0, 0, 108⟩ : Vec ℝ).dot ⟨0, 0, 108⟩ = 108 * 108 := by simp [Vec.dot]
    rw [unitNormal?, hnormal, Vec.unit_eq_some hd (by norm_num) (by norm_num)]
    simp [Vec.map]
  have ht : ramp.unitNormal? = some ⟨4 / 9, -1 / 9, 8 / 9⟩ := by
    have hnormal : ramp.normal = ⟨80, -20, 160⟩ := by norm_num [normal, ramp, Vec.cross]
    have hd : (⟨80, -20, 160⟩ : Vec ℝ).dot ⟨80, -20, 160⟩ = 180 * 180 := by norm_num [Vec.dot]
    rw [unitNormal?, hnormal, Vec.unit_eq_some hd (by norm_num) (by norm_num)]
    norm_num [Vec.map]
  have haxis : ((⟨0, 0, 1⟩ : Vec ℝ).cross ⟨4 / 9, -1 / 9, 8 / 9⟩).dominant = .y := by
    norm_num [Vec.cross, Vec.dominant, Vec.map, abs_of_pos]
  have hds : Triple.Straddles (⟨0, -4, 1⟩ : Triple ℝ) (1 / 2 * (1 / 2)) := by
    norm_num [Triple.Straddles]
  have hdt : Triple.Straddles (⟨1, -3, 1⟩ : Triple ℝ) (1 / 2 * (1 / 2)) := by
    norm_num [Triple.Straddles]
  have hboard : span? board .y ⟨0, -4, 1⟩ = some (-36 / 5, 3) := by
    norm_num [span?, interval?, Triple.lone?, crossing, mapCorners, Triple.get, Corner.others,
      board, Vec.along]
  have hramp : span? ramp .y ⟨1, -3, 1⟩ = some (1, 16) := by
    norm_num [span?, interval?, Triple.lone?, crossing, mapCorners, Triple.get, Corner.others,
      ramp, Vec.along]
  rw [intersects_onLine_iff hs ht (heights_board ▸ hds.not_allZero)
    (heights_ramp ▸ hdt.not_allZero), heights_board, heights_ramp, haxis]
  refine ⟨hds, hdt, _, _, hboard, hramp, by norm_num, by norm_num, ?_, ?_⟩
  · norm_num [Close, board, Vec.along]
  · norm_num [Close, board, Vec.along]

def sliver (p q : Vec ℝ) : Triangle ℝ := ⟨⟨0, 0, 0⟩, p, q⟩

lemma unitNormal_sliver {p q : Vec ℝ} (h : (sliver p q).normal = ⟨0, -0.75e-19, 1e-19⟩) :
    (sliver p q).unitNormal? = some ⟨0, -3 / 5, 4 / 5⟩ := by
  have hd : (⟨0, -0.75e-19, 1e-19⟩ : Vec ℝ).dot ⟨0, -0.75e-19, 1e-19⟩ = 1.25e-19 * 1.25e-19 := by
    norm_num [Vec.dot]
  rw [unitNormal?, h, Vec.unit_eq_some hd (by norm_num) (by norm_num)]
  norm_num [Vec.map]

lemma intersects_sliver (ε : ℝ) : (sliver ⟨0, 1e-20, 0.75e-20⟩ ⟨-10, 0, 0⟩).intersects
    (sliver ⟨10, 0, 0⟩ ⟨0, 1e-20, 0.75e-20⟩) ε (ε * ε) = true := by
  have hs : (sliver ⟨0, 1e-20, 0.75e-20⟩ ⟨-10, 0, 0⟩).unitNormal? = some ⟨0, -3 / 5, 4 / 5⟩ :=
    unitNormal_sliver (by norm_num [normal, sliver, Vec.cross])
  have ht : (sliver ⟨10, 0, 0⟩ ⟨0, 1e-20, 0.75e-20⟩).unitNormal? = some ⟨0, -3 / 5, 4 / 5⟩ :=
    unitNormal_sliver (by norm_num [normal, sliver, Vec.cross])
  have haxis : (⟨0, -3 / 5, 4 / 5⟩ : Vec ℝ).dominant = .z := by
    norm_num [Vec.dominant, Vec.map]
  refine intersects_of_wide hs ht (by norm_num [Vec.dot]) ?_ ?_
  · norm_num [heights, distances, mapCorners, Triple.AllZero, sliver, Vec.dot]
  · rw [haxis]
    intro e he
    simp only [edges, sliver, List.cons_append, List.nil_append, List.mem_cons, List.not_mem_nil,
      or_false] at he
    have hshort {e : Vec ℝ} (hx : e.x = 0) (hy : e.y * e.y = 1e-20 * 1e-20) :
        (e.onto Axis.z.others).norm ≤ 1e-20 := by
      change Real.sqrt (e.x * e.x + e.y * e.y) ≤ 1e-20
      rw [hx, hy, zero_mul, zero_add]
      exact (Real.sqrt_mul_self (by norm_num)).le
    rcases he with rfl | rfl | rfl | rfl | rfl | rfl
    on_goal 1 => exact Or.inl (hshort (by norm_num) (by norm_num))
    on_goal 5 => exact Or.inl (hshort (by norm_num) (by norm_num))
    all_goals
      right
      norm_num [Wide, mapCorners, sliver, Vec.onto, Axis.others, Vec.along, Vec2.dot, Vec2.turned,
        max_def, min_def]

/-- None of the exceptions can be left out: sheets in one plane, a sheet that is lifted by less than
the tolerance, a board with a corner that is taken to lie on the ramp, and triangles of which one
edge has no direction clash although their boxes do not. -/
theorem clash_of_boxes_apart : Missed (patch (sheet 0)) (patch (sheet 0)) 1e-5 ∧
    Missed (patch (sheet 0)) (patch (sheet 1e-6)) 1e-5 ∧
    Missed (patch board) (patch ramp) (1 / 2) ∧
    Missed (patch (sliver ⟨0, 1e-20, 0.75e-20⟩ ⟨-10, 0, 0⟩))
      (patch (sliver ⟨10, 0, 0⟩ ⟨0, 1e-20, 0.75e-20⟩)) 1e-5 := by
  refine ⟨missed_of_intersects ?_ ?_ (intersects_sheet (by norm_num)),
    missed_of_intersects ?_ ?_ (intersects_sheet (by norm_num)),
    missed_of_intersects ?_ ?_ intersects_board,
    missed_of_intersects ?_ ?_ (intersects_sliver _)⟩
  all_goals
    norm_num [Box.Overlaps, Box.Clashes, Triangle.bounds, Box.ofPoint, Box.cover, Vec.inf, Vec.sup,
      Vec.zipWith, sheet, board, ramp, sliver]

end Mesh

end SolidClash
