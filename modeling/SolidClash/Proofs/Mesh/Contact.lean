import SolidClash.Proofs.Triangle.Axial
import SolidClash.Proofs.Mesh.Ridge
import SolidClash.Proofs.Mesh.Shortcuts

namespace SolidClash

namespace Axis

lemma exists_third (k l : Axis) : ∃ j, j ≠ k ∧ j ≠ l := by
  cases k <;> cases l <;> first
    | exact ⟨.x, by decide⟩
    | exact ⟨.y, by decide⟩
    | exact ⟨.z, by decide⟩

end Axis

namespace Box

lemma overlaps_iff {a b : Box ℝ} :
    a.Overlaps b ↔ ∀ k, b.min.along k ≤ a.max.along k ∧ a.min.along k ≤ b.max.along k := by
  constructor
  · rintro ⟨hx, hx', hy, hy', hz, hz'⟩ k
    cases k
    · exact ⟨hx, hx'⟩
    · exact ⟨hy, hy'⟩
    · exact ⟨hz, hz'⟩
  · intro h
    exact ⟨(h .x).1, (h .x).2, (h .y).1, (h .y).2, (h .z).1, (h .z).2⟩

/-- Wide enough on every axis for its edges to have a direction. -/
def Thick (b : Box ℝ) : Prop := ∀ k, 1e-20 < b.extents.along k

lemma Thick.lt {b : Box ℝ} (h : b.Thick) (k : Axis) : b.min.along k < b.max.along k := by
  have hk := h k
  rw [extents, Vec.along_sub] at hk
  exact sub_pos.mp (lt_trans (by norm_num) hk)

def StrictlyInside (inner outer : Box ℝ) : Prop :=
  ∀ k, outer.min.along k < inner.min.along k ∧ inner.max.along k < outer.max.along k

/-- No two faces of the boxes cross: they do not clash, or one holds the other. -/
def SurfacesApart (a b : Box ℝ) : Prop :=
  ¬ a.Clashes b ∨ a.StrictlyInside b ∨ b.StrictlyInside a

def ApartOn (a b : Box ℝ) (k : Axis) : Prop :=
  a.max.along k ≤ b.min.along k ∨ b.max.along k ≤ a.min.along k

def side (b : Box ℝ) (k : Axis) (far : Bool) : ℝ := if far then b.max.along k else b.min.along k

variable {a b : Box ℝ} {k l : Axis} {far far' : Bool}

lemma exists_apartOn (h : ¬ a.Clashes b) : ∃ k, a.ApartOn b k := by
  by_contra hn
  simp only [ApartOn, not_exists, not_or, not_le] at hn
  exact h ⟨(hn .x).1, (hn .x).2, (hn .y).1, (hn .y).2, (hn .z).1, (hn .z).2⟩

lemma Thick.side_mem (h : b.Thick) (k : Axis) (far : Bool) :
    b.min.along k ≤ b.side k far ∧ b.side k far ≤ b.max.along k := by
  have hk := (h.lt k).le
  cases far
  · exact ⟨le_rfl, hk⟩
  · exact ⟨hk, le_rfl⟩

lemma StrictlyInside.side_mem (h : a.StrictlyInside b) (ha : a.Thick) (k : Axis) (far : Bool) :
    b.min.along k < a.side k far ∧ a.side k far < b.max.along k := by
  obtain ⟨hmin, hmax⟩ := h k
  obtain ⟨hlo, hhi⟩ := ha.side_mem k far
  exact ⟨hmin.trans_le hlo, hhi.trans_lt hmax⟩

lemma side_not_between (b : Box ℝ) (k : Axis) (far : Bool) :
    ¬ (b.min.along k < b.side k far ∧ b.side k far < b.max.along k) := by
  cases far <;> simp [side]

lemma SurfacesApart.exists_of_side_eq (h : a.SurfacesApart b) (ha : a.Thick) (hb : b.Thick)
    (hside : a.side k far = b.side k far) : ∃ j, j ≠ k ∧ a.ApartOn b j := by
  rcases h with h | h | h
  · obtain ⟨j, hj⟩ := exists_apartOn h
    refine ⟨j, ?_, hj⟩
    rintro rfl
    have ha' := ha.lt j
    have hb' := hb.lt j
    cases far <;> simp only [side, Bool.false_eq_true, ↓reduceIte] at hside <;>
      rcases hj with hj | hj <;> linarith
  · exact (side_not_between b k far (hside ▸ h.side_mem ha k far)).elim
  · exact (side_not_between a k far (hside ▸ h.side_mem hb k far)).elim

lemma SurfacesApart.exists_of_between (h : a.SurfacesApart b) (ha : a.Thick) (hb : b.Thick)
    (hk : b.min.along k < a.side k far ∧ a.side k far < b.max.along k)
    (hl : a.min.along l < b.side l far' ∧ b.side l far' < a.max.along l) :
    ∃ j, j ≠ k ∧ j ≠ l ∧ a.ApartOn b j := by
  rcases h with h | h | h
  · obtain ⟨j, hj⟩ := exists_apartOn h
    refine ⟨j, ?_, ?_, hj⟩
    · rintro rfl
      have ha' := ha.side_mem j far
      rcases hj with hj | hj <;> linarith
    · rintro rfl
      have hb' := hb.side_mem j far'
      rcases hj with hj | hj <;> linarith
  · obtain ⟨hmin, hmax⟩ := h l
    exact (side_not_between b l far' ⟨hmin.trans hl.1, hl.2.trans hmax⟩).elim
  · obtain ⟨hmin, hmax⟩ := h k
    exact (side_not_between a k far ⟨hmin.trans hk.1, hk.2.trans hmax⟩).elim

end Box

namespace Triangle

lemma bounds_along {t : Triangle ℝ} {k : Axis} {c : ℝ} (h : ∀ p ∈ t.corners, p.along k = c) :
    t.bounds.min.along k = c ∧ t.bounds.max.along k = c := by
  obtain ⟨ha, hb, hc⟩ := forall_mem_corners.mp h
  cases k <;> simp_all [bounds, Box.ofPoint, Box.cover, Vec.inf, Vec.sup, Vec.zipWith, Vec.along]

def outward (far : Bool) : ℝ := if far then 1 else -1

structure Facet (b : Box ℝ) (k : Axis) (far : Bool) (t : Triangle ℝ) : Prop where
  flat : ∀ p ∈ t.corners, p.along k = b.side k far
  within : ∀ p ∈ t.corners, ∀ j, b.min.along j ≤ p.along j ∧ p.along j ≤ b.max.along j
  edge : ∀ j, j ≠ k →
    Vec.axial j (b.extents.along j) ∈ t.edges ∨ Vec.axial j (-b.extents.along j) ∈ t.edges
  normal : t.normal = Vec.axial k
    (outward far * (b.extents.along k.others.1 * b.extents.along k.others.2))

lemma facets_cuboid {b : Box ℝ} (hb : ∀ k, b.min.along k ≤ b.max.along k) :
    List.Forall₂ (fun t (side : Axis × Bool) => Facet b side.1 side.2 t)
      (Mesh.cuboid b.min b.max).triangles
      [(.z, false), (.z, false), (.z, true), (.z, true), (.x, false), (.x, false),
        (.x, true), (.x, true), (.y, false), (.y, false), (.y, true), (.y, true)] := by
  obtain ⟨⟨x, y, z⟩, ⟨x', y', z'⟩⟩ := b
  have hx : x ≤ x' := hb .x
  have hy : y ≤ y' := hb .y
  have hz : z ≤ z' := hb .z
  simp only [Mesh.triangles, Mesh.cuboid, Mesh.cuboidFaces, Mesh.cuboidPoint, List.map_cons,
    List.map_nil, List.forall₂_cons, List.forall₂_nil_left_iff, and_true]
  refine ⟨?_, ?_, ?_, ?_, ?_, ?_, ?_, ?_, ?_, ?_, ?_, ?_⟩
  all_goals
    constructor
    case flat => simp [corners, Box.side, Vec.along]
    case within =>
      intro p hp j
      simp only [corners, List.mem_cons, List.not_mem_nil, or_false] at hp
      rcases hp with rfl | rfl | rfl <;> cases j <;> simp [Vec.along, hx, hy, hz]
    case edge =>
      intro j hj
      cases j <;> simp [edges, Vec.axial, Box.extents, Vec.along] at hj ⊢
    case normal =>
      simp [normal, Vec.cross, outward, Vec.axial, Box.extents, Vec.along, Axis.others, mul_comm]

lemma exists_facet {b : Box ℝ} (hb : b.Thick) {t : Triangle ℝ}
    (ht : t ∈ (Mesh.cuboid b.min b.max).triangles) : ∃ k far, Facet b k far t := by
  have h := facets_cuboid fun k => (hb.lt k).le
  obtain ⟨i, hi, rfl⟩ := List.getElem_of_mem ht
  exact ⟨_, _, h.get hi (h.length_eq ▸ hi)⟩

lemma outward_ne_zero (far : Bool) : outward far ≠ 0 := by
  cases far <;> norm_num [outward]

lemma eq_of_dot_outward {k : Axis} {far far' : Bool}
    (h : 0 ≤ (Vec.axial k (outward far)).dot (Vec.axial k (outward far'))) : far = far' := by
  rw [Vec.dot_axial] at h
  cases far <;> cases far' <;> first
    | rfl
    | cases k <;> norm_num [outward, Vec.axial, Vec.along] at h

lemma heights_allZero {s t : Triangle ℝ} {n : Vec ℝ} {ε : ℝ}
    (h : ∀ p ∈ t.corners, n.dot (p - s.a) = 0) : (t.heights s n ε).AllZero := by
  obtain ⟨ha, hb, hc⟩ := forall_mem_corners.mp h
  simp [heights, distances, mapCorners, Triple.AllZero, ha, hb, hc]

namespace Facet

variable {A B : Box ℝ} {k l : Axis} {far far' : Bool} {s t : Triangle ℝ} {n : Vec ℝ} {ε : ℝ}

lemma unitNormal (h : Facet A k far s) (hA : A.Thick) (hn : s.unitNormal? = some n) :
    n = Vec.axial k (outward far) := by
  have hpos (j : Axis) : 0 < A.extents.along j := lt_trans (by norm_num) (hA j)
  have harea := mul_pos (hpos k.others.1) (hpos k.others.2)
  rw [unitNormal?, h.normal] at hn
  rw [Vec.unit_axial hn]
  cases far
  · simp only [outward, Bool.false_eq_true, ↓reduceIte, neg_mul, one_mul, abs_neg,
      abs_of_pos harea, neg_div, div_self harea.ne']
  · simp only [outward, ↓reduceIte, one_mul, abs_of_pos harea, div_self harea.ne']

lemma exists_edge (h : Facet A k far s) (hA : A.Thick) {j : Axis} (hj : j ≠ k) :
    ∃ w, Vec.axial j w ∈ s.edges ∧ 1e-20 < |w| := by
  rcases h.edge j hj with he | he
  · exact ⟨_, he, (hA j).trans_le (le_abs_self _)⟩
  · exact ⟨_, he, (hA j).trans_le (abs_neg (A.extents.along j) ▸ le_abs_self _)⟩

lemma side_eq (hs : Facet A k far s) (ht : Facet B k far' t) (ho : s.bounds.Overlaps t.bounds) :
    A.side k far = B.side k far' := by
  obtain ⟨hst, hts⟩ := Box.overlaps_iff.mp ho k
  rw [(bounds_along hs.flat).1, (bounds_along ht.flat).2] at hts
  rw [(bounds_along hs.flat).2, (bounds_along ht.flat).1] at hst
  exact le_antisymm hts hst

lemma along_first (h : Facet A k far s) : s.a.along k = A.side k far :=
  (forall_mem_corners.mp h.flat).1

lemma not_intersects_parallel (hs : Facet A k far s) (ht : Facet B k far' t) (hA : A.Thick)
    (hB : B.Thick) (hε : 0 ≤ ε) (hAB : A.SurfacesApart B)
    (ho : s.bounds.Overlaps t.bounds) (hn : s.unitNormal? = some (Vec.axial k (outward far)))
    (hn' : t.unitNormal? = some (Vec.axial k (outward far'))) :
    ¬ s.intersects t ε (ε * ε) = true := by
  have hside := hs.side_eq ht ho
  have hzero : (t.heights s (Vec.axial k (outward far)) ε).AllZero := by
    apply heights_allZero
    intro p hp
    rw [Vec.dot_axial, Vec.along_sub, ht.flat p hp, hs.along_first, hside, sub_self, mul_zero]
  rw [intersects_inPlane_iff hn hn' (Or.inr hzero), Vec.dominant_axial k (outward_ne_zero far)]
  rintro ⟨hdot, _, hover⟩
  obtain rfl := eq_of_dot_outward hdot
  obtain ⟨j, hjk, hj⟩ := hAB.exists_of_side_eq hA hB hside
  obtain ⟨i, hik, hij⟩ := Axis.exists_third k j
  obtain ⟨w, he, hw⟩ := hs.exists_edge hA hik
  rcases hj with hj | hj
  · refine not_shadowsOverlap_of_contact hε (Or.inl he) hw hik hjk hij.symm
      (Or.inl fun p hp => (hs.within p hp j).2) (Or.inr fun p hp => ?_) hover
    exact hj.trans (ht.within p hp j).1
  · refine not_shadowsOverlap_of_contact hε (Or.inl he) hw hik hjk hij.symm
      (Or.inr fun p hp => (ht.within p hp j).2) (Or.inl fun p hp => ?_) hover
    exact hj.trans (hs.within p hp j).1

lemma not_intersects_across (hs : Facet A k far s) (ht : Facet B l far' t) (hkl : k ≠ l)
    (hA : A.Thick) (hB : B.Thick) (hε : 0 ≤ ε) (hAB : A.SurfacesApart B)
    (hn : s.unitNormal? = some (Vec.axial k (outward far)))
    (hn' : t.unitNormal? = some (Vec.axial l (outward far'))) :
    ¬ s.intersects t ε (ε * ε) = true := by
  by_cases hz : (s.heights t (Vec.axial l (outward far')) ε).AllZero ∨
      (t.heights s (Vec.axial k (outward far)) ε).AllZero
  · rw [intersects_inPlane_iff hn hn' hz, Vec.dominant_axial k (outward_ne_zero far)]
    rintro ⟨_, _, hover⟩
    obtain ⟨j, hjk, hjl⟩ := Axis.exists_third k l
    obtain ⟨w, he, hw⟩ := ht.exists_edge hB hjl
    exact not_shadowsOverlap_of_contact hε (Or.inr he) hw hjk hkl.symm hjl.symm
      (Or.inr fun p hp => (ht.flat p hp).le) (Or.inr fun p hp => (ht.flat p hp).ge) hover
  · obtain ⟨hz, hz'⟩ := not_or.mp hz
    rw [intersects_onLine_iff hn hn' hz hz']
    rintro ⟨hds, hdt, hspan⟩
    have hk := between_of_straddles hdt fun p hp => ht.within p hp k
    have hl := between_of_straddles hds fun p hp => hs.within p hp l
    rw [hs.along_first] at hk
    rw [ht.along_first] at hl
    obtain ⟨j, hjk, hjl, hj⟩ := hAB.exists_of_between hA hB hk hl
    rw [Vec.dominant_cross_axial hkl hjk hjl (outward_ne_zero far) (outward_ne_zero far')] at hspan
    exact not_spansOverlap_of_contact hε hds hdt (fun p hp => hs.within p hp j)
      (fun p hp => ht.within p hp j) hj hspan

lemma not_intersects (hs : Facet A k far s) (ht : Facet B l far' t) (hA : A.Thick)
    (hB : B.Thick) (hε : 0 ≤ ε) (hAB : A.SurfacesApart B)
    (ho : s.bounds.Overlaps t.bounds) : ¬ s.intersects t ε (ε * ε) = true := by
  cases hn : s.unitNormal? with
  | none => simp [intersects, hn]
  | some n =>
    cases hn' : t.unitNormal? with
    | none => simp [intersects, hn']
    | some n' =>
      obtain rfl := hs.unitNormal hA hn
      obtain rfl := ht.unitNormal hB hn'
      by_cases hkl : k = l
      · subst hkl
        exact hs.not_intersects_parallel ht hA hB hε hAB ho hn hn'
      · exact hs.not_intersects_across ht hkl hA hB hε hAB hn hn'

end Facet

end Triangle

namespace Mesh

open Triangle

/-- Boxes that do not clash, or of which one lies strictly inside the other, have surfaces that do
not clash: not even where faces lie in one plane, nor when the boxes are thinner than the
tolerance. -/
theorem not_clash_of_contact {A B : Box ℝ} (hA : A.Thick) (hB : B.Thick) {ε : ℝ} (hε : 0 ≤ ε)
    (hAB : ¬ A.Clashes B ∨ A.StrictlyInside B ∨ B.StrictlyInside A) :
    (cuboid A.min A.max).clash (cuboid B.min B.max) ε = false := by
  rw [← Bool.not_eq_true, clash_eq_true]
  rintro ⟨s, hs, t, ht, ho, hi⟩
  obtain ⟨k, far, hs⟩ := exists_facet hA hs
  obtain ⟨l, far', ht⟩ := exists_facet hB ht
  exact hs.not_intersects ht hA hB hε hAB ho hi

noncomputable def slab (x : ℝ) : Box ℝ := ⟨⟨x, 0, 0⟩, ⟨x + 1, 1, 1e-6⟩⟩

lemma thick_slab (x : ℝ) : (slab x).Thick := by
  intro k
  cases k <;> norm_num [slab, Box.extents, Vec.along]

theorem not_clash_of_contact_slabs : (slab 0).Thick ∧ (slab 1).Thick ∧
    ¬ (slab 0).Clashes (slab 1) ∧
    (cuboid (slab 0).min (slab 0).max).clash (cuboid (slab 1).min (slab 1).max) 1e-5 = false := by
  have hapart : ¬ (slab 0).Clashes (slab 1) := by norm_num [slab, Box.Clashes]
  exact ⟨thick_slab 0, thick_slab 1, hapart,
    not_clash_of_contact (thick_slab 0) (thick_slab 1) (by norm_num) (Or.inl hapart)⟩

end Mesh

end SolidClash
