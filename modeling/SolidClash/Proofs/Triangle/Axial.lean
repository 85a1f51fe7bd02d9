import SolidClash.Proofs.Triangle.Symmetry

namespace SolidClash

namespace Vec

def axial (k : Axis) (r : ℝ) : Vec ℝ :=
  match k with
  | .x => ⟨r, 0, 0⟩
  | .y => ⟨0, r, 0⟩
  | .z => ⟨0, 0, r⟩

lemma axial_ne_zero (k : Axis) {r : ℝ} (hr : r ≠ 0) : axial k r ≠ ⟨0, 0, 0⟩ := by
  cases k <;> simpa [axial] using hr

lemma axial_along_of_ne {k m : Axis} (r : ℝ) (h : m ≠ k) : (axial k r).along m = 0 := by
  cases k <;> cases m <;> first
    | exact (h rfl).elim
    | rfl

lemma dot_axial (k : Axis) (r : ℝ) (v : Vec ℝ) : (axial k r).dot v = r * v.along k := by
  cases k <;> simp [axial, dot, along]

lemma unit_axial {k : Axis} {r least : ℝ} {n : Vec ℝ} (h : (axial k r).unit? least = some n) :
    n = axial k (r / |r|) := by
  have hn : (axial k r).norm = |r| := by
    change Real.sqrt ((axial k r).dot (axial k r)) = |r|
    rw [dot_axial, ← Real.sqrt_mul_self_eq_abs]
    cases k <;> rfl
  rw [unit?, hn] at h
  split at h
  · simp at h
  · obtain rfl := Option.some.inj h
    cases k <;> simp [axial, map]

lemma dominant_axial (k : Axis) {r : ℝ} (hr : r ≠ 0) : (axial k r).dominant = k := by
  have h := abs_pos.mpr hr
  cases k <;> simp [axial, dominant, map, h, h.not_gt]

lemma dominant_cross_axial {k l m : Axis} (hkl : k ≠ l) (hk : m ≠ k) (hl : m ≠ l) {r q : ℝ}
    (hr : r ≠ 0) (hq : q ≠ 0) : ((axial k r).cross (axial l q)).dominant = m := by
  have h : ¬ |r| * |q| < 0 := (mul_nonneg (abs_nonneg r) (abs_nonneg q)).not_gt
  cases k <;> cases l <;> cases m <;> first
    | exact (hkl rfl).elim
    | exact (hk rfl).elim
    | exact (hl rfl).elim
    | simp [axial, cross, dominant, map, h, hr, hq]

end Vec

namespace Vec2

variable {w : ℝ}

lemma unit_of_norm {v : Vec2 ℝ} {r : ℝ} (h : v.dot v = r * r) (hr : 1e-20 < |r|) :
    v.unit? 1e-20 = some ⟨v.x / |r|, v.y / |r|⟩ := by
  have hn : v.norm = |r| := by
    change Real.sqrt (v.dot v) = |r|
    rw [h, Real.sqrt_mul_self_eq_abs]
  rw [unit?, hn, if_neg hr.not_ge]

lemma div_abs_eq (hw : 1e-20 < |w|) : w / |w| = 1 ∨ w / |w| = -1 := by
  have hne : w ≠ 0 := by
    rintro rfl
    norm_num at hw
  rcases abs_choice w with h | h
  · exact Or.inl (by rw [h, div_self hne])
  · exact Or.inr (by rw [h, div_neg, div_self hne])

lemma exists_unit_turned_right (hw : 1e-20 < |w|) :
    ∃ u, (⟨w, 0⟩ : Vec2 ℝ).turned.unit? 1e-20 = some u ∧
      ((∀ v : Vec2 ℝ, v.dot u = v.y) ∨ ∀ v : Vec2 ℝ, v.dot u = -v.y) := by
  refine ⟨_, unit_of_norm (r := w) (by simp [turned, dot]) hw, ?_⟩
  apply (div_abs_eq hw).imp
  · intro h v
    simp [turned, dot, h]
  · intro h v
    simp [turned, dot, h]

lemma exists_unit_turned_up (hw : 1e-20 < |w|) :
    ∃ u, (⟨0, w⟩ : Vec2 ℝ).turned.unit? 1e-20 = some u ∧
      ((∀ v : Vec2 ℝ, v.dot u = v.x) ∨ ∀ v : Vec2 ℝ, v.dot u = -v.x) := by
  refine ⟨_, unit_of_norm (r := w) (by simp [turned, dot]) hw, ?_⟩
  apply (div_abs_eq hw).symm.imp
  · intro h v
    simp [turned, dot, h, neg_div]
  · intro h v
    simp [turned, dot, h, neg_div]

end Vec2

namespace Triangle

open Scalar

def edges (t : Triangle ℝ) : List (Vec ℝ) := [t.b - t.a, t.c - t.b, t.a - t.c]

lemma forall_mem_corners {t : Triangle ℝ} {P : Vec ℝ → Prop} :
    (∀ p ∈ t.corners, P p) ↔ P t.a ∧ P t.b ∧ P t.c := by
  simp [corners]

lemma Triple.forall_mem_toList {β : Type} {d : Triple β} {P : β → Prop} :
    (∀ x ∈ d.toList, P x) ↔ P d.a ∧ P d.b ∧ P d.c := by
  simp [Triple.toList]

lemma edgeNormals_onto (t : Triangle ℝ) (axis : Axis) :
    (t.mapCorners (·.onto axis.others)).edgeNormals =
      t.edges.filterMap fun e => (e.onto axis.others).turned.unit? 1e-20 := by
  cases axis <;> rfl

lemma exists_normal_of_axial {w : ℝ} (hw : 1e-20 < |w|) {axis j m : Axis} (hj : j ≠ axis)
    (hm : m ≠ axis) (hmj : m ≠ j) :
    ∃ u, ((Vec.axial j w).onto axis.others).turned.unit? 1e-20 = some u ∧
      ((∀ p : Vec ℝ, (p.onto axis.others).dot u = p.along m) ∨
        ∀ p : Vec ℝ, (p.onto axis.others).dot u = -p.along m) := by
  obtain ⟨u, hu, hdot⟩ := Vec2.exists_unit_turned_right hw
  obtain ⟨u', hu', hdot'⟩ := Vec2.exists_unit_turned_up hw
  have hright := hdot.imp (fun h (p : Vec ℝ) => h (p.onto axis.others))
    fun h (p : Vec ℝ) => h (p.onto axis.others)
  have hup := hdot'.imp (fun h (p : Vec ℝ) => h (p.onto axis.others))
    fun h (p : Vec ℝ) => h (p.onto axis.others)
  cases axis <;> cases j <;> cases m <;> first
    | exact absurd rfl hj
    | exact absurd rfl hm
    | exact absurd rfl hmj
    | exact ⟨u, hu, hright⟩
    | exact ⟨u', hu', hup⟩

lemma separatedOn_of_contact {p q : Triple (Vec2 ℝ)} {e : Vec2 ℝ} {ε c : ℝ} (hε : 0 ≤ ε)
    (hhi : (∀ v ∈ p.toList, v.dot e ≤ c) ∨ ∀ v ∈ q.toList, v.dot e ≤ c)
    (hlo : (∀ v ∈ p.toList, c ≤ v.dot e) ∨ ∀ v ∈ q.toList, c ≤ v.dot e) :
    SeparatedOn p q e ε := by
  rw [separatedOn_iff]
  rw [Triple.forall_mem_toList, Triple.forall_mem_toList] at hhi hlo
  generalize p.a.dot e = p₁ at *
  generalize p.b.dot e = p₂ at *
  generalize p.c.dot e = p₃ at *
  generalize q.a.dot e = q₁ at *
  generalize q.b.dot e = q₂ at *
  generalize q.c.dot e = q₃ at *
  have hupper : min (max (max p₁ p₂) p₃) (max (max q₁ q₂) q₃) ≤ c := by
    rcases hhi with ⟨h₁, h₂, h₃⟩ | ⟨h₁, h₂, h₃⟩
    · exact (min_le_left _ _).trans (max_le (max_le h₁ h₂) h₃)
    · exact (min_le_right _ _).trans (max_le (max_le h₁ h₂) h₃)
  have hlower : c ≤ max (min (min p₁ p₂) p₃) (min (min q₁ q₂) q₃) := by
    rcases hlo with ⟨h₁, h₂, h₃⟩ | ⟨h₁, h₂, h₃⟩
    · exact (le_min (le_min h₁ h₂) h₃).trans (le_max_left _ _)
    · exact (le_min (le_min h₁ h₂) h₃).trans (le_max_right _ _)
  have hwidth (a b c : ℝ) : 0 ≤ max (max a b) c - min (min a b) c :=
    sub_nonneg.mpr ((min_le_right _ _).trans (le_max_right _ _))
  have hroom := le_min hε (mul_nonneg (by norm_num : (0 : ℝ) ≤ 0.25)
    (le_min (hwidth p₁ p₂ p₃) (hwidth q₁ q₂ q₃)))
  exact (sub_nonpos.mpr (hupper.trans hlower)).trans hroom

lemma not_shadowsOverlap_of_contact {s t : Triangle ℝ} {axis j m : Axis} {w ε c : ℝ} (hε : 0 ≤ ε)
    (he : Vec.axial j w ∈ s.edges ∨ Vec.axial j w ∈ t.edges) (hw : 1e-20 < |w|) (hj : j ≠ axis)
    (hm : m ≠ axis) (hmj : m ≠ j)
    (hhi : (∀ p ∈ s.corners, p.along m ≤ c) ∨ ∀ p ∈ t.corners, p.along m ≤ c)
    (hlo : (∀ p ∈ s.corners, c ≤ p.along m) ∨ ∀ p ∈ t.corners, c ≤ p.along m) :
    ¬ ShadowsOverlap s t axis ε := by
  obtain ⟨u, hu, hdot⟩ := exists_normal_of_axial hw hj hm hmj
  have hmem : u ∈ (s.mapCorners (·.onto axis.others)).edgeNormals ++
      (t.mapCorners (·.onto axis.others)).edgeNormals := by
    rw [List.mem_append, edgeNormals_onto, edgeNormals_onto]
    exact he.imp (fun he => List.mem_filterMap.mpr ⟨_, he, hu⟩)
      fun he => List.mem_filterMap.mpr ⟨_, he, hu⟩
  intro h
  apply h u hmem
  rw [forall_mem_corners, forall_mem_corners] at hhi hlo
  rcases hdot with hdot | hdot
  · apply separatedOn_of_contact hε (c := c)
    · simpa [mapCorners, Triple.forall_mem_toList, hdot] using hhi
    · simpa [mapCorners, Triple.forall_mem_toList, hdot] using hlo
  · apply separatedOn_of_contact hε (c := -c)
    · simpa [mapCorners, Triple.forall_mem_toList, hdot] using hlo
    · simpa [mapCorners, Triple.forall_mem_toList, hdot] using hhi

lemma Triple.Straddles.exists_opposite {t : Triangle ℝ} {n o : Vec ℝ} {least ε : ℝ}
    (h : (t.distances n o least).Straddles (ε * ε)) :
    ∃ p ∈ t.corners, ∃ q ∈ t.corners, n.dot (p - o) < 0 ∧ 0 < n.dot (q - o) := by
  have hε := mul_self_nonneg ε
  have hpair : ∃ p ∈ t.corners, ∃ q ∈ t.corners,
      (if Scalar.abs (n.dot (p - o)) < least then 0 else n.dot (p - o)) *
        (if Scalar.abs (n.dot (q - o)) < least then 0 else n.dot (q - o)) < 0 := by
    rcases h with h | h | h
    · exact ⟨t.a, by simp [corners], t.b, by simp [corners], h.trans_le (by linarith)⟩
    · exact ⟨t.a, by simp [corners], t.c, by simp [corners], h.trans_le (by linarith)⟩
    · exact ⟨t.b, by simp [corners], t.c, by simp [corners], h.trans_le (by linarith)⟩
  obtain ⟨p, hp, q, hq, hpq⟩ := hpair
  split_ifs at hpq with h₁ h₂ h₂
  · simp at hpq
  · simp at hpq
  · simp at hpq
  · rcases mul_neg_iff.mp hpq with ⟨hpos, hneg⟩ | ⟨hneg, hpos⟩
    · exact ⟨q, hq, p, hp, hneg, hpos⟩
    · exact ⟨p, hp, q, hq, hneg, hpos⟩

lemma between_of_straddles {t : Triangle ℝ} {k : Axis} {r lo hi least ε : ℝ} {o : Vec ℝ}
    (h : (t.distances (Vec.axial k r) o least).Straddles (ε * ε))
    (ht : ∀ p ∈ t.corners, lo ≤ p.along k ∧ p.along k ≤ hi) :
    lo < o.along k ∧ o.along k < hi := by
  obtain ⟨p, hp, q, hq, hneg, hpos⟩ := h.exists_opposite
  rw [Vec.dot_axial, Vec.along_sub] at hneg hpos
  have hp := ht p hp
  have hq := ht q hq
  rcases mul_neg_iff.mp hneg with ⟨hr, hd⟩ | ⟨hr, hd⟩
  · have hd' := (pos_iff_pos_of_mul_pos hpos).mp hr
    constructor <;> linarith
  · have hd' := (neg_iff_neg_of_mul_pos hpos).mp hr
    constructor <;> linarith

lemma close_self (x : ℝ) {ε : ℝ} (hε : 0 ≤ ε) : Close x x ε := by
  simp only [Close, abs_real, maxNum_real, sub_self, abs_zero]
  exact mul_nonneg hε (zero_le_one.trans ((le_max_left _ _).trans (le_max_left _ _)))

section Span

variable {along d : Triple ℝ}

lemma neg_of_pos_of_neg {x y z : ℝ} (hxy : 0 < x * y) (hxz : x * z < 0) : y * z < 0 := by
  rcases mul_pos_iff.mp hxy with ⟨hx, hy⟩ | ⟨hx, hy⟩
  · exact mul_neg_of_pos_of_neg hy (pos_iff_neg_of_mul_neg hxz |>.mp hx)
  · exact mul_neg_of_neg_of_pos hy (neg_iff_pos_of_mul_neg hxz |>.mp hx)

lemma lone_opposite {ε : ℝ} {i : Corner} (hd : d.Straddles (ε * ε)) (h : d.lone? = some i) :
    d.get i ≠ 0 ∧ d.get i * d.get i.others.1 ≤ 0 ∧ d.get i * d.get i.others.2 ≤ 0 := by
  obtain ⟨a, b, c⟩ := d
  have hε := mul_self_nonneg ε
  have hd : a * b < 0 ∨ a * c < 0 ∨ b * c < 0 :=
    hd.imp (fun h => by linarith) (Or.imp (fun h => by linarith) fun h => by linarith)
  simp only [Triple.lone?, isZero_real] at h
  split_ifs at h with hab hac hbc hb hc <;> obtain rfl := Option.some.inj h
  · have hc : a * c < 0 ∧ b * c < 0 := by
      rcases hd with hd | hd | hd
      · exact absurd hab hd.not_gt
      · exact ⟨hd, neg_of_pos_of_neg hab hd⟩
      · exact ⟨neg_of_pos_of_neg (mul_comm a b ▸ hab) hd, hd⟩
    exact ⟨right_ne_zero_of_mul hc.1.ne, mul_comm a c ▸ hc.1.le, mul_comm b c ▸ hc.2.le⟩
  · have hb : a * b < 0 ∧ c * b < 0 := by
      rcases hd with hd | hd | hd
      · exact ⟨hd, neg_of_pos_of_neg hac hd⟩
      · exact absurd hac hd.not_gt
      · rw [mul_comm] at hd
        exact ⟨neg_of_pos_of_neg (mul_comm a c ▸ hac) hd, hd⟩
    exact ⟨right_ne_zero_of_mul hb.1.ne, mul_comm a b ▸ hb.1.le, mul_comm c b ▸ hb.2.le⟩
  · refine ⟨?_, not_lt.mp hab, not_lt.mp hac⟩
    rintro (rfl : a = 0)
    rcases hbc with hbc | ha
    · rcases hd with hd | hd | hd
      · simp at hd
      · simp at hd
      · exact hbc.not_gt hd
    · exact ha rfl
  · obtain ⟨_, ha⟩ := not_or.mp hbc
    obtain rfl := not_not.mp ha
    subst hb
    exact ⟨hc, (mul_zero c).le, (mul_zero c).le⟩
  · obtain ⟨hpos, ha⟩ := not_or.mp hbc
    obtain rfl := not_not.mp ha
    exact ⟨hb, (mul_zero b).le, not_lt.mp hpos⟩

lemma exists_share {i j : Corner} (hne : d.get i ≠ 0) (h : d.get i * d.get j ≤ 0) :
    ∃ r, 0 < r ∧ r ≤ 1 ∧ (d.get j ≠ 0 → r < 1) ∧ d.get i + (d.get j - d.get i) * r = 0 ∧
      ∀ along, crossing along d i j = along.get i + (along.get j - along.get i) * r := by
  have hcross (along : Triple ℝ) : crossing along d i j =
      along.get i + (along.get j - along.get i) * (d.get i / (d.get i - d.get j)) := by
    rw [crossing, mul_div_assoc]
  have hzero (hdiff : d.get i - d.get j ≠ 0) :
      d.get i + (d.get j - d.get i) * (d.get i / (d.get i - d.get j)) = 0 := by
    field_simp
    ring
  rcases lt_or_gt_of_ne hne with hneg | hpos
  · have hj : 0 ≤ d.get j := nonneg_of_mul_nonpos_right h hneg
    have hlt : d.get i - d.get j < 0 := by linarith
    refine ⟨_, div_pos_of_neg_of_neg hneg hlt, (div_le_one_of_neg hlt).mpr (by linarith),
      fun hj' => (div_lt_one_of_neg hlt).mpr ?_, hzero hlt.ne, hcross⟩
    linarith [hj.lt_of_ne' hj']
  · have hj : d.get j ≤ 0 := nonpos_of_mul_nonpos_right h hpos
    have hlt : 0 < d.get i - d.get j := by linarith
    refine ⟨_, div_pos hpos hlt, (div_le_one hlt).mpr (by linarith),
      fun hj' => (div_lt_one hlt).mpr ?_, hzero hlt.ne', hcross⟩
    linarith [hj.lt_of_ne hj']

lemma crossing_mem {lo hi : ℝ} {i j : Corner} (hi' : lo ≤ along.get i ∧ along.get i ≤ hi)
    (hj : lo ≤ along.get j ∧ along.get j ≤ hi) (hne : d.get i ≠ 0) (h : d.get i * d.get j ≤ 0) :
    lo ≤ crossing along d i j ∧ crossing along d i j ≤ hi := by
  obtain ⟨r, hpos, hle, -, -, hcross⟩ := exists_share hne h
  rw [hcross]
  constructor <;> nlinarith

lemma span_mem {t : Triangle ℝ} {axis : Axis} {ε lo hi : ℝ} {i : ℝ × ℝ}
    (hd : d.Straddles (ε * ε)) (h : span? t axis d = some i)
    (ht : ∀ p ∈ t.corners, lo ≤ p.along axis ∧ p.along axis ≤ hi) : lo ≤ i.1 ∧ i.2 ≤ hi := by
  have hmem (k : Corner) : lo ≤ (t.mapCorners (·.along axis)).get k ∧
      (t.mapCorners (·.along axis)).get k ≤ hi := by
    obtain ⟨ha, hb, hc⟩ := forall_mem_corners.mp ht
    cases k
    · exact ha
    · exact hb
    · exact hc
  obtain ⟨k, hk, rfl⟩ := Option.map_eq_some_iff.mp h
  obtain ⟨hne, h₁, h₂⟩ := lone_opposite hd hk
  have hp := crossing_mem (hmem k) (hmem k.others.1) hne h₁
  have hq := crossing_mem (hmem k) (hmem k.others.2) hne h₂
  dsimp only
  split
  · exact ⟨hp.1, hq.2⟩
  · exact ⟨hq.1, hp.2⟩

lemma not_spansOverlap_of_contact {s t : Triangle ℝ} {axis : Axis} {ds dt : Triple ℝ}
    {o ε lo₁ hi₁ lo₂ hi₂ : ℝ} (hε : 0 ≤ ε) (hds : ds.Straddles (ε * ε))
    (hdt : dt.Straddles (ε * ε))
    (hs : ∀ p ∈ s.corners, lo₁ ≤ p.along axis ∧ p.along axis ≤ hi₁)
    (ht : ∀ p ∈ t.corners, lo₂ ≤ p.along axis ∧ p.along axis ≤ hi₂)
    (hgap : hi₁ ≤ lo₂ ∨ hi₂ ≤ lo₁) : ¬ SpansOverlap s t axis ds dt o ε := by
  rintro ⟨i, j, hi, hj, hij, hji, hclose, hclose'⟩
  obtain ⟨hi₁, hi₂⟩ := span_mem hds hi hs
  obtain ⟨hj₁, hj₂⟩ := span_mem hdt hj ht
  -- the ends meet, and what meets is close
  rcases hgap with hgap | hgap
  · have heq : i.2 = j.1 := le_antisymm (hi₂.trans (hgap.trans hj₁)) hij
    exact hclose (heq ▸ close_self _ hε)
  · have heq : j.2 = i.1 := le_antisymm (hj₂.trans (hgap.trans hi₁)) hji
    exact hclose' (heq ▸ close_self _ hε)

end Span

end Triangle

end SolidClash
