import SolidClash.Proofs.Triangle.Touching

/-! The points of a triangle, each given by the shares that the three corners have in it. What
varies evenly over space is at a point the mean of what it is at the corners. -/

namespace SolidClash

namespace Triangle

open Vec

namespace Triple

def mean (w d : Triple ℝ) : ℝ := w.a * d.a + w.b * d.b + w.c * d.c

structure IsShares (w : Triple ℝ) : Prop where
  sum_eq : w.a + w.b + w.c = 1
  nonneg : ∀ i, 0 ≤ w.get i

structure IsInner (w : Triple ℝ) : Prop where
  sum_eq : w.a + w.b + w.c = 1
  pos : ∀ i, 0 < w.get i

def only : Corner → Triple ℝ
  | .a => ⟨1, 0, 0⟩
  | .b => ⟨0, 1, 0⟩
  | .c => ⟨0, 0, 1⟩

def blend (w v : Triple ℝ) (r : ℝ) : Triple ℝ :=
  ⟨w.a + (v.a - w.a) * r, w.b + (v.b - w.b) * r, w.c + (v.c - w.c) * r⟩

variable {w v d : Triple ℝ} {r : ℝ}

lemma IsInner.isShares (h : w.IsInner) : w.IsShares := ⟨h.sum_eq, fun i => (h.pos i).le⟩

lemma mean_only (i : Corner) (d : Triple ℝ) : (only i).mean d = d.get i := by
  cases i <;> simp [only, mean, get]

lemma mean_blend (w v d : Triple ℝ) (r : ℝ) :
    (w.blend v r).mean d = w.mean d + (v.mean d - w.mean d) * r := by
  simp only [mean, blend]
  ring

lemma mean_eq (w d : Triple ℝ) (i : Corner) : w.mean d = w.get i * d.get i +
    w.get i.others.1 * d.get i.others.1 + w.get i.others.2 * d.get i.others.2 := by
  cases i <;> simp only [mean, get, Corner.others] <;> ring

lemma isShares_only (i : Corner) : (only i).IsShares := by
  constructor
  · cases i <;> norm_num [only]
  · intro j
    cases i <;> cases j <;> norm_num [only, get]

lemma IsShares.sum_from (h : w.IsShares) (i : Corner) :
    w.get i + w.get i.others.1 + w.get i.others.2 = 1 := by
  have hsum := h.sum_eq
  cases i <;> simp only [get, Corner.others] <;> linarith

lemma get_blend (w v : Triple ℝ) (r : ℝ) (i : Corner) :
    (w.blend v r).get i = (1 - r) * w.get i + r * v.get i := by
  cases i <;> simp only [blend, get] <;> ring

lemma sum_blend (hw : w.a + w.b + w.c = 1) (hv : v.a + v.b + v.c = 1) (r : ℝ) :
    (w.blend v r).a + (w.blend v r).b + (w.blend v r).c = 1 := by
  simp only [blend]
  linear_combination (1 - r) * hw + r * hv

lemma IsShares.blend (hw : w.IsShares) (hv : v.IsShares) (hr : 0 ≤ r) (hr' : r ≤ 1) :
    (w.blend v r).IsShares := by
  refine ⟨sum_blend hw.sum_eq hv.sum_eq r, fun i => ?_⟩
  rw [get_blend]
  exact add_nonneg (mul_nonneg (sub_nonneg.mpr hr') (hw.nonneg i)) (mul_nonneg hr (hv.nonneg i))

lemma IsShares.blend_isInner (hw : w.IsShares) (hv : v.IsInner) (hr : 0 < r) (hr' : r ≤ 1) :
    (w.blend v r).IsInner := by
  refine ⟨sum_blend hw.sum_eq hv.sum_eq r, fun i => ?_⟩
  rw [get_blend]
  exact add_pos_of_nonneg_of_pos (mul_nonneg (sub_nonneg.mpr hr') (hw.nonneg i))
    (mul_pos hr (hv.pos i))

end Triple

noncomputable def pointAt (t : Triangle ℝ) (w : Triple ℝ) : Vec ℝ :=
  ⟨w.mean (t.mapCorners (·.x)), w.mean (t.mapCorners (·.y)), w.mean (t.mapCorners (·.z))⟩

def Holds (t : Triangle ℝ) (p : Vec ℝ) : Prop := ∃ w : Triple ℝ, w.IsShares ∧ t.pointAt w = p

def HoldsInside (t : Triangle ℝ) (p : Vec ℝ) : Prop :=
  ∃ w : Triple ℝ, w.IsInner ∧ t.pointAt w = p

variable {t : Triangle ℝ} {n o : Vec ℝ} {c : ℝ} {w : Triple ℝ}

lemma exists_corner {p : Vec ℝ} (hp : p ∈ t.corners) : ∃ i, t.corner i = p := by
  simp only [corners, List.mem_cons, List.not_mem_nil, or_false] at hp
  rcases hp with rfl | rfl | rfl
  · exact ⟨.a, rfl⟩
  · exact ⟨.b, rfl⟩
  · exact ⟨.c, rfl⟩

lemma along_pointAt (t : Triangle ℝ) (w : Triple ℝ) (k : Axis) :
    (t.pointAt w).along k = w.mean (t.mapCorners (·.along k)) := by
  cases k <;> rfl

lemma dot_pointAt (t : Triangle ℝ) (w : Triple ℝ) (n : Vec ℝ) :
    n.dot (t.pointAt w) = w.mean (t.mapCorners n.dot) := by
  simp only [pointAt, Triple.mean, mapCorners, dot]
  ring

lemma dot_pointAt_sub (hw : w.a + w.b + w.c = 1) (t : Triangle ℝ) (n o : Vec ℝ) :
    n.dot (t.pointAt w - o) = w.mean (t.offsets n o) := by
  simp only [dot_sub, dot_pointAt, offsets, mapCorners, Triple.mean]
  linear_combination n.dot o * hw

lemma dot_pointAt_of_plane (hw : w.a + w.b + w.c = 1) (h : ∀ p ∈ t.corners, n.dot p = c) :
    n.dot (t.pointAt w) = c := by
  obtain ⟨ha, hb, hc⟩ := forall_mem_corners.mp h
  simp only [dot_pointAt, mapCorners, Triple.mean, ha, hb, hc]
  linear_combination c * hw

lemma HoldsInside.holds {p : Vec ℝ} (h : t.HoldsInside p) : t.Holds p := by
  obtain ⟨w, hw, hp⟩ := h
  exact ⟨w, hw.isShares, hp⟩

lemma Holds.dot_eq {p : Vec ℝ} (h : t.Holds p) (hplane : ∀ q ∈ t.corners, n.dot q = c) :
    n.dot p = c := by
  obtain ⟨w, hw, rfl⟩ := h
  exact dot_pointAt_of_plane hw.sum_eq hplane

end Triangle

end SolidClash
