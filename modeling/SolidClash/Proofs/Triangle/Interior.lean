import SolidClash.Proofs.Mesh.Contact
import SolidClash.Proofs.Triangle.Separation

namespace SolidClash

namespace Vec2

lemma exists_at_distance (c : Vec2 ℝ) {e : Vec2 ℝ} (he : e.dot e = 1) (k : ℝ) :
    ∃ v : Vec2 ℝ, (v - c).norm = |k| ∧ v.dot e = c.dot e + k := by
  rw [dot] at he
  refine ⟨⟨c.x + e.x * k, c.y + e.y * k⟩, ?_, ?_⟩
  · change Real.sqrt ((c.x + e.x * k - c.x) * (c.x + e.x * k - c.x) +
      (c.y + e.y * k - c.y) * (c.y + e.y * k - c.y)) = |k|
    rw [← Real.sqrt_mul_self_eq_abs]
    congr 1
    linear_combination k * k * he
  · simp only [dot]
    linear_combination k * he

lemma abs_le_norm (v : Vec2 ℝ) : |v.x| ≤ v.norm ∧ |v.y| ≤ v.norm := by
  have hx := mul_self_nonneg v.x
  have hy := mul_self_nonneg v.y
  constructor <;> apply Real.abs_le_sqrt <;> rw [dot, sq] <;> linarith

lemma dot_self_of_unit {v e : Vec2 ℝ} {least : ℝ} (hl : 0 ≤ least) (h : v.unit? least = some e) :
    e.dot e = 1 := by
  rw [unit?] at h
  split at h
  · simp at h
  · rename_i hlong
    obtain rfl := Option.some.inj h
    have hpos : 0 < v.norm := hl.trans_lt (not_le.mp hlong)
    have hsq : v.norm * v.norm = v.dot v :=
      Real.mul_self_sqrt (add_nonneg (mul_self_nonneg _) (mul_self_nonneg _))
    rw [dot] at hsq ⊢
    field_simp
    linarith

end Vec2

namespace Triangle

open Vec

variable {s t : Triangle ℝ} {n n₁ n₂ : Vec ℝ} {m : Axis} {ε : ℝ}

lemma intersects_flat_iff (hs : s.unitNormal? = some n₁) (ht : t.unitNormal? = some n₂)
    (hflat : ∀ q ∈ t.corners, n₁.dot (q - s.a) = 0) (ε ε₂ : ℝ) :
    s.intersects t ε ε₂ = true ↔ 0 ≤ n₁.dot n₂ ∧ ShadowsOverlap s t n₁.dominant ε := by
  have hzero : (t.distances n₁ s.a (s.snap t ε)).AllZero := heights_allZero hflat
  simp only [intersects, hs, ht, if_pos hzero, overlapInPlane_iff]

section Outline

def outline (t : Triangle ℝ) (m : Axis) : Triple (Vec2 ℝ) := t.mapCorners (·.onto m.others)

lemma outline_mem_shadow (t : Triangle ℝ) (m : Axis) (i : Corner) :
    (t.outline m).get i ∈ t.shadow m := by
  cases i <;> simp [outline, mapCorners, Triple.get, shadow, corners]

lemma exists_outline {v : Vec2 ℝ} (h : v ∈ t.shadow m) : ∃ i, (t.outline m).get i = v := by
  obtain ⟨p, hp, rfl⟩ := List.mem_map.mp h
  obtain ⟨i, rfl⟩ := exists_corner hp
  exact ⟨i, get_mapCorners _ _ _⟩

lemma onto_pointAt (t : Triangle ℝ) (w : Triple ℝ) (m : Axis) :
    (t.pointAt w).onto m.others = (t.outline m).point w := by
  cases m <;> rfl

lemma encloses_outline_iff {v : Vec2 ℝ} :
    (t.outline m).Encloses v ↔ ∃ p, t.HoldsInside p ∧ p.onto m.others = v := by
  constructor
  · rintro ⟨w, hw, rfl⟩
    exact ⟨_, ⟨w, hw, rfl⟩, onto_pointAt t w m⟩
  · rintro ⟨_, ⟨w, hw, rfl⟩, rfl⟩
    exact ⟨w, hw, (onto_pointAt t w m).symm⟩

lemma proper_outline (h : t.normal.along m ≠ 0) : (t.outline m).Proper := by
  intro hturn
  apply h
  cases m
  · exact hturn
  · change (t.b.z - t.a.z) * (t.c.x - t.a.x) - (t.b.x - t.a.x) * (t.c.z - t.a.z) = 0
    change (t.b.x - t.a.x) * (t.c.z - t.a.z) - (t.b.z - t.a.z) * (t.c.x - t.a.x) = 0 at hturn
    linear_combination -hturn
  · exact hturn

lemma normal_along_ne_zero (hn : t.unitNormal? = some n) (hm : n.along m ≠ 0) :
    t.normal.along m ≠ 0 := by
  obtain ⟨-, r, rfl⟩ := unit_spec (by norm_num) hn
  rw [along_scale] at hm
  exact left_ne_zero_of_mul hm

end Outline

section Overlap

lemma exists_share_pos (hε : 0 ≤ ε) (hlong : ¬ HasShortShadow s t m)
    (hproper : (s.outline m).Proper) (hover : ShadowsOverlap s t m ε) (i : Corner) :
    ∃ j, 0 < (s.outline m).share i ((t.outline m).get j) := by
  by_contra hnone
  push Not at hnone
  refine not_shadowsOverlap_of_parts hε
    (Or.inl ⟨s.outline_mem_shadow m _, s.outline_mem_shadow m _⟩) (Triple.get_next_ne hproper i) ?_
    hlong hover
  refine ⟨-Vec2.turn (s.outline m).a (s.outline m).b (s.outline m).c,
    fun x => -(s.outline m).share i x, fun x => ?_, fun x hx => ?_, fun y hy => ?_⟩
  · rw [neg_mul_neg, Triple.share, mul_div_cancel₀ _ hproper]
  · obtain ⟨k, rfl⟩ := exists_outline hx
    have hown : 0 ≤ (s.outline m).share i ((s.outline m).get k) := by
      rw [Triple.share_own hproper]
      split <;> norm_num
    exact neg_nonpos.mpr hown
  · obtain ⟨k, rfl⟩ := exists_outline hy
    exact neg_nonneg.mpr (hnone k)

lemma HasShortShadow.symm (h : HasShortShadow s t m) : HasShortShadow t s m := by
  obtain ⟨e, he, hshort⟩ := h
  exact ⟨e, List.mem_append.mpr (List.mem_append.mp he).symm, hshort⟩

lemma dot_self_of_edgeNormals {p : Triple (Vec2 ℝ)} {e : Vec2 ℝ} (h : e ∈ p.edgeNormals) :
    e.dot e = 1 := by
  obtain ⟨v, -, hv⟩ := List.mem_filterMap.mp h
  exact Vec2.dot_self_of_unit (by norm_num) hv

variable (hs : (s.outline m).Proper) (ht : (t.outline m).Proper)

include hs ht

lemma exists_encloses_of_overlap (hε : 0 ≤ ε) (hlong : ¬ HasShortShadow s t m)
    (hover : ShadowsOverlap s t m ε) :
    ∃ v, (s.outline m).Encloses v ∧ (t.outline m).Encloses v :=
  Triple.exists_encloses hs ht (exists_share_pos hε hlong hs hover)
    (exists_share_pos hε (fun h => hlong h.symm) ht ((shadowsOverlap_comm s t m ε).mp hover))

lemma shadowsOverlap_of_wide
    (hwide : ∀ e : Vec2 ℝ, e.dot e = 1 → ∃ x y,
      ((s.outline m).Encloses x ∧ (t.outline m).Encloses x) ∧
      ((s.outline m).Encloses y ∧ (t.outline m).Encloses y) ∧ ε ≤ y.dot e - x.dot e) :
    ShadowsOverlap s t m ε := by
  intro e he
  have hone : e.dot e = 1 :=
    (List.mem_append.mp he).elim dot_self_of_edgeNormals dot_self_of_edgeNormals
  obtain ⟨x, y, hx, hy, hxy⟩ := hwide e hone
  exact Triple.not_separatedOn_of_encloses hs ht (hone.trans_ne one_ne_zero) hx hy hxy

lemma shadowsOverlap_of_disc (hε : 0 ≤ ε) {c : Vec2 ℝ} {r : ℝ} (hr : ε < 2 * r)
    (hdisc : ∀ v, (v - c).norm < r → (s.outline m).Encloses v ∧ (t.outline m).Encloses v) :
    ShadowsOverlap s t m ε := by
  have hradius : |ε / 2| < r := by
    rw [abs_of_nonneg (by linarith)]
    linarith
  refine shadowsOverlap_of_wide hs ht fun e he => ?_
  obtain ⟨x, hx, hxe⟩ := Vec2.exists_at_distance c he (-(ε / 2))
  obtain ⟨y, hy, hye⟩ := Vec2.exists_at_distance c he (ε / 2)
  rw [abs_neg] at hx
  exact ⟨x, y, hdisc x (hx.trans_lt hradius), hdisc y (hy.trans_lt hradius), by linarith⟩

end Overlap

section Flat

variable (hs : s.unitNormal? = some n₁) (ht : t.unitNormal? = some n₂)
  (hflat : ∀ q ∈ t.corners, n₁.dot q = n₁.dot s.a)

include hs hflat

lemma exists_holdsInside_iff : (∃ p, s.HoldsInside p ∧ t.HoldsInside p) ↔
    ∃ v, (s.outline n₁.dominant).Encloses v ∧ (t.outline n₁.dominant).Encloses v := by
  constructor
  · rintro ⟨p, hp, hq⟩
    exact ⟨_, encloses_outline_iff.mpr ⟨p, hp, rfl⟩, encloses_outline_iff.mpr ⟨p, hq, rfl⟩⟩
  · rintro ⟨v, hv, hv'⟩
    obtain ⟨p, hp, hpv⟩ := encloses_outline_iff.mp hv
    obtain ⟨q, hq, hqv⟩ := encloses_outline_iff.mp hv'
    have hlevel : n₁.dot p = n₁.dot q :=
      (hp.holds.dot_eq (dot_unitNormal hs).2).trans (hq.holds.dot_eq hflat).symm
    have hpq : p = q := eq_of_onto (along_unitNormal_ne_zero hs) hlevel (hpv.trans hqv.symm)
    exact ⟨p, hp, hpq ▸ hq⟩

include ht

lemma proper_outlines (hdot : n₁.dot n₂ ≠ 0) :
    (s.outline n₁.dominant).Proper ∧ (t.outline n₁.dominant).Proper := by
  have halong := along_unitNormal_ne_zero hs
  have halong' : n₂.along n₁.dominant ≠ 0 := by
    have hpar := dot_of_flat (dot_unitNormal hs).1 ht hflat (axial n₁.dominant 1)
    rw [dot_comm n₂, dot_comm n₁ (axial _ _), dot_axial, dot_axial, one_mul, one_mul,
      dot_comm n₂] at hpar
    exact hpar ▸ mul_ne_zero hdot halong
  exact ⟨proper_outline (normal_along_ne_zero hs halong),
    proper_outline (normal_along_ne_zero ht halong')⟩

end Flat

/-- Triangles in one plane, with edges that are not too short when seen along the dominant axis of
the plane. If they face opposite ways, they do not penetrate each other, whatever the tolerances. If
they face the same way, without a tolerance they do exactly if they have a point in common that lies
inside both; with one they do only then, and they do whenever the insides seen along the axis have a
disc in common that is wider than the tolerance. -/
theorem intersects_flat (hs : s.unitNormal? = some n₁) (ht : t.unitNormal? = some n₂)
    (hflat : ∀ q ∈ t.corners, n₁.dot (q - s.a) = 0)
    (hlong : ∀ e ∈ s.edges ++ t.edges, 1e-20 < (e.onto n₁.dominant.others).norm) :
    (n₁.dot n₂ < 0 → ∀ ε ε₂, s.intersects t ε ε₂ = false) ∧
    (0 < n₁.dot n₂ → ∀ ε₂,
      (s.intersects t 0 ε₂ = true ↔ ∃ p, s.HoldsInside p ∧ t.HoldsInside p) ∧
      ∀ ε, 0 ≤ ε →
        (s.intersects t ε ε₂ = true → ∃ p, s.HoldsInside p ∧ t.HoldsInside p) ∧
        ((∃ c r, ε < 2 * r ∧ ∀ v, (v - c).norm < r →
            (∃ p, s.HoldsInside p ∧ p.onto n₁.dominant.others = v) ∧
              ∃ q, t.HoldsInside q ∧ q.onto n₁.dominant.others = v) →
          s.intersects t ε ε₂ = true)) := by
  have hiff := intersects_flat_iff hs ht hflat
  refine ⟨fun hdot ε ε₂ => ?_, fun hdot ε₂ => ?_⟩
  · rw [← Bool.not_eq_true, hiff]
    exact fun h => hdot.not_ge h.1
  have hlevel : ∀ q ∈ t.corners, n₁.dot q = n₁.dot s.a := by
    intro q hq
    exact sub_eq_zero.mp ((dot_sub n₁ q s.a).symm.trans (hflat q hq))
  have hshort : ¬ HasShortShadow s t n₁.dominant := by
    rintro ⟨e, he, -, hle⟩
    exact hle.not_gt (hlong e he)
  obtain ⟨hproper, hproper'⟩ := proper_outlines hs ht hlevel hdot.ne'
  have hsound (ε : ℝ) (hε : 0 ≤ ε) (h : s.intersects t ε ε₂ = true) :
      ∃ p, s.HoldsInside p ∧ t.HoldsInside p := by
    rw [exists_holdsInside_iff hs hlevel]
    exact exists_encloses_of_overlap hproper hproper' hε hshort ((hiff ε ε₂).mp h).2
  refine ⟨⟨hsound 0 le_rfl, fun h => ?_⟩, fun ε hε => ⟨hsound ε hε, ?_⟩⟩
  · obtain ⟨v, hv⟩ := (exists_holdsInside_iff hs hlevel).mp h
    refine (hiff 0 ε₂).mpr ⟨hdot.le, shadowsOverlap_of_wide hproper hproper' fun e _ => ?_⟩
    exact ⟨v, v, hv, hv, (sub_self _).ge⟩
  · rintro ⟨c, r, hr, hdisc⟩
    simp only [← encloses_outline_iff] at hdisc
    exact (hiff ε ε₂).mpr ⟨hdot.le, shadowsOverlap_of_disc hproper hproper' hε hr hdisc⟩

section Halves

def half (x : ℝ) : Triangle ℝ := ⟨⟨x, x, 0⟩, ⟨x + 1, x, 0⟩, ⟨x, x + 1, 0⟩⟩

lemma unitNormal_half (x : ℝ) : (half x).unitNormal? = some ⟨0, 0, 1⟩ := by
  have hnormal : (half x).normal = ⟨0, 0, 1⟩ := by
    norm_num [normal, half, cross]
  rw [unitNormal?, hnormal, unit_eq_some (r := 1) (by norm_num [dot]) (by norm_num) (by norm_num)]
  norm_num [map]

lemma long_of_mem_edges {x : ℝ} : ∀ e ∈ (half x).edges, 1e-20 < (e.onto (.x, .y)).norm := by
  have hlong {v : Vec2 ℝ} (h : 1 ≤ v.dot v) : 1e-20 < v.norm :=
    lt_of_lt_of_le (by norm_num) (Real.one_le_sqrt.mpr h)
  intro e he
  apply hlong
  simp only [edges, half, List.mem_cons, List.not_mem_nil, or_false] at he
  rcases he with rfl | rfl | rfl <;> norm_num [onto, along, Vec2.dot]

lemma holdsInside_half {x u v : ℝ} (hu : x < u) (hv : x < v) (huv : u + v < 2 * x + 1) :
    (half x).HoldsInside ⟨u, v, 0⟩ := by
  refine ⟨⟨1 - (u - x) - (v - x), u - x, v - x⟩, ⟨by ring, fun i => ?_⟩, ?_⟩
  · cases i <;> simp only [Triple.get] <;> linarith
  · simp only [pointAt, Triple.mean, mapCorners, half]
    congr 1 <;> ring

theorem intersects_flat_halves :
    (half 0).unitNormal? = some ⟨0, 0, 1⟩ ∧ (half (1 / 4)).unitNormal? = some ⟨0, 0, 1⟩ ∧
    (∀ q ∈ (half (1 / 4)).corners, (⟨0, 0, 1⟩ : Vec ℝ).dot (q - (half 0).a) = 0) ∧
    (∀ e ∈ (half 0).edges ++ (half (1 / 4)).edges,
      1e-20 < (e.onto (⟨0, 0, 1⟩ : Vec ℝ).dominant.others).norm) ∧
    (half 0).intersects (half (1 / 4)) (1 / 10) (1 / 100) = true ∧
    ∃ p, (half 0).HoldsInside p ∧ (half (1 / 4)).HoldsInside p := by
  have haxis : (⟨0, 0, 1⟩ : Vec ℝ).dominant = .z := by norm_num [dominant, map]
  have hflat : ∀ q ∈ (half (1 / 4)).corners, (⟨0, 0, 1⟩ : Vec ℝ).dot (q - (half 0).a) = 0 := by
    norm_num [corners, half, dot]
  have hlong : ∀ e ∈ (half 0).edges ++ (half (1 / 4)).edges,
      1e-20 < (e.onto (⟨0, 0, 1⟩ : Vec ℝ).dominant.others).norm := by
    rw [haxis]
    exact fun e he => (List.mem_append.mp he).elim (long_of_mem_edges e) (long_of_mem_edges e)
  obtain ⟨-, hfacing⟩ :=
    intersects_flat (unitNormal_half 0) (unitNormal_half (1 / 4)) hflat hlong
  obtain ⟨-, htol⟩ := hfacing (by norm_num [dot]) (1 / 100)
  obtain ⟨hsound, hdisc⟩ := htol (1 / 10) (by norm_num)
  have hi := hdisc ⟨⟨2 / 5, 2 / 5⟩, 1 / 10, by norm_num, fun v hv => by
    obtain ⟨x, y⟩ := v
    obtain ⟨hx, hx'⟩ : -(1 / 10) < x - 2 / 5 ∧ x - 2 / 5 < 1 / 10 :=
      abs_lt.mp ((Vec2.abs_le_norm _).1.trans_lt hv)
    obtain ⟨hy, hy'⟩ : -(1 / 10) < y - 2 / 5 ∧ y - 2 / 5 < 1 / 10 :=
      abs_lt.mp ((Vec2.abs_le_norm _).2.trans_lt hv)
    rw [haxis]
    exact ⟨⟨⟨x, y, 0⟩, holdsInside_half (by linarith) (by linarith) (by linarith), rfl⟩,
      ⟨x, y, 0⟩, holdsInside_half (by linarith) (by linarith) (by linarith), rfl⟩⟩
  exact ⟨unitNormal_half 0, unitNormal_half (1 / 4), hflat, hlong, hi, hsound hi⟩

end Halves

end Triangle

end SolidClash
