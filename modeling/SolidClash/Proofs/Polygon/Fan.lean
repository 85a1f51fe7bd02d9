import Mathlib.Tactic.IntervalCases
import SolidClash.Proofs.Polygon.Flat
import SolidClash.Proofs.Triangle.Points

namespace SolidClash.Polygon

open Vec

variable {ps : List (Vec ℝ)} {n : Vec ℝ}

def IsInside (t : SolidClash.Triangle ℝ) (x : Vec ℝ) : Prop := t.normal ≠ 0 ∧ t.HoldsInside x

/-- A simple polygon across `n` that turns one way only. -/
structure IsConvexFace (ps : List (Vec ℝ)) (n : Vec ℝ) : Prop where
  four_le : 4 ≤ ps.length
  simple : IsSimple ps
  level : IsLevel ps n
  bends : BendsOneWay ps n

structure Splits (ps : List (Vec ℝ)) (n : Vec ℝ) (ts : List Triangle) : Prop where
  length_eq : ts.length + 2 = ps.length
  lt_length : ∀ t ∈ ts, t.1 < ps.length ∧ t.2.1 < ps.length ∧ t.2.2 < ps.length
  uses : ∀ i < ps.length, ∃ t ∈ ts, i = t.1 ∨ i = t.2.1 ∨ i = t.2.2
  wound : ∀ t ∈ ts, 0 < n.dot (face ps t).normal ∨ (face ps t).normal = 0
  disjoint : ts.Pairwise fun t u => ∀ x, ¬ (IsInside (face ps t) x ∧ IsInside (face ps u) x)
  sum_eq : (ts.map fun t => (face ps t).normal).sum =
    if 0 < n.dot (normal ps) then normal ps else -normal ps

section Along

lemma dot_scale_self (n : Vec ℝ) (r : ℝ) : n.dot (n.scale r) = r * n.dot n := by
  rw [Vec.dot_comm, scale_dot]

lemma scale_zero (n : Vec ℝ) : n.scale 0 = 0 := eq_of_along fun k => by
  rw [along_scale, mul_zero, along_zero]

lemma exists_scale_sum {vs : List (Vec ℝ)} (h : ∀ v ∈ vs, ∃ r, 0 ≤ r ∧ v = n.scale r) :
    ∃ r, 0 ≤ r ∧ vs.sum = n.scale r := by
  induction vs with
  | nil => exact ⟨0, le_rfl, (scale_zero n).symm⟩
  | cons v vs ih =>
    obtain ⟨r, hr, hv⟩ := h v List.mem_cons_self
    obtain ⟨s, hs, hvs⟩ := ih fun v hv => h v (List.mem_cons_of_mem _ hv)
    refine ⟨r + s, add_nonneg hr hs, eq_of_along fun k => ?_⟩
    rw [List.sum_cons, hv, hvs, along_add, along_scale, along_scale, along_scale, mul_add]

variable (hlevel : IsLevel ps n) (hps : ps ≠ [])

include hlevel hps

lemma exists_scale_face (t : Triangle) : ∃ r, (face ps t).normal = n.scale r := by
  have hlong := dot_self_pos hlevel.ne_zero
  have hacross (i j : ℕ) : (vertex ps i - vertex ps j).dot n = 0 := by
    rw [Vec.dot_comm, dot_sub, dot_vertex hlevel hps i j, sub_self]
  refine ⟨n.dot (face ps t).normal / n.dot n, eq_of_along fun k => ?_⟩
  rw [along_scale, mul_div_assoc', eq_div_iff hlong.ne', mul_comm]
  exact dot_of_across (hacross t.2.1 t.1) (hacross t.2.2 t.1) n k

lemma face_normal_eq_zero {t : Triangle} (h : n.dot (face ps t).normal = 0) :
    (face ps t).normal = 0 := by
  obtain ⟨r, hr⟩ := exists_scale_face hlevel hps t
  rw [hr, dot_scale_self] at h
  obtain rfl := (mul_eq_zero.mp h).resolve_right (dot_self_pos hlevel.ne_zero).ne'
  rw [hr, scale_zero]

end Along

section Upright

lemma upright_eq_or (ps : List (Vec ℝ)) (n : Vec ℝ) (t : Triangle) :
    upright ps n t = t ∨ upright ps n t = (t.1, t.2.2, t.2.1) := by
  rw [upright]
  split
  · exact Or.inr rfl
  · exact Or.inl rfl

lemma normal_swap (t : Triangle) :
    (face ps (t.1, t.2.2, t.2.1)).normal = -(face ps t).normal := (neg_cross _ _).symm

lemma holdsInside_swap {a b c x : Vec ℝ} (h : SolidClash.Triangle.HoldsInside ⟨a, b, c⟩ x) :
    SolidClash.Triangle.HoldsInside ⟨a, c, b⟩ x := by
  obtain ⟨w, hw, rfl⟩ := h
  refine ⟨⟨w.a, w.c, w.b⟩, ⟨?_, ?_⟩, ?_⟩
  · rw [add_right_comm, hw.sum_eq]
  · rintro (_ | _ | _)
    · exact hw.pos .a
    · exact hw.pos .c
    · exact hw.pos .b
  · apply eq_of_along
    intro k
    rw [SolidClash.Triangle.along_pointAt, SolidClash.Triangle.along_pointAt]
    exact add_right_comm _ _ _

lemma isInside_of_upright {t : Triangle} {x : Vec ℝ} (h : IsInside (face ps (upright ps n t)) x) :
    IsInside (face ps t) x := by
  rw [upright] at h
  split at h
  · obtain ⟨hne, hx⟩ := h
    rw [normal_swap, neg_ne_zero] at hne
    exact ⟨hne, holdsInside_swap hx⟩
  · exact h

lemma exists_scale_upright (hlevel : IsLevel ps n) (hps : ps ≠ []) (t : Triangle) :
    ∃ r, 0 ≤ r ∧ (face ps (upright ps n t)).normal = n.scale r := by
  obtain ⟨r, hr⟩ := exists_scale_face hlevel hps t
  have hlong := dot_self_pos hlevel.ne_zero
  rw [upright]
  split
  · rename_i hneg
    rw [hr, dot_scale_self] at hneg
    refine ⟨-r, neg_nonneg.mpr (neg_of_mul_neg_left hneg hlong.le).le, eq_of_along fun k => ?_⟩
    rw [normal_swap, hr, along_neg, along_scale, along_scale, mul_neg]
  · rename_i hneg
    rw [hr, dot_scale_self] at hneg
    exact ⟨r, nonneg_of_mul_nonneg_left (not_lt.mp hneg) hlong, hr⟩

end Upright

def IsConvexAround (ps : List (Vec ℝ)) (n : Vec ℝ) : Prop :=
  ∀ i j k, i < j → j < k → k < ps.length → 0 ≤ n.dot (face ps (i, j, k)).normal

lemma IsConvexAround.disjoint (hconvex : IsConvexAround ps n) (hlevel : IsLevel ps n) {i j : ℕ}
    (hij : i < j) (hj : j + 2 < ps.length) {x : Vec ℝ}
    (hi : IsInside (face ps (0, i + 1, i + 2)) x) : ¬ IsInside (face ps (0, j + 1, j + 2)) x := by
  rintro ⟨hne, w', hw', hx'⟩
  obtain ⟨-, w, hw, hx⟩ := hi
  have hps : ps ≠ [] := List.length_pos_iff.mp (by omega)
  let o := vertex ps 0
  let d := vertex ps (j + 1) - o
  have hside (v : Vec ℝ) : (n.cross d).dot v = n.dot (d.cross v) := by
    simp only [Vec.dot, cross]
    ring
  have hd : (n.cross d).dot d = 0 := cross_dot_right n d
  have hleft {k : ℕ} (hk : 0 < k) (hkj : k ≤ j + 1) : (n.cross d).dot (vertex ps k - o) ≤ 0 := by
    rcases hkj.eq_or_lt with rfl | hkj
    · exact hd.le
    · have hk : 0 ≤ n.dot ((vertex ps k - o).cross d) := hconvex 0 k (j + 1) hk hkj (by omega)
      rw [hside, ← neg_cross, Vec.dot_comm, neg_dot, Vec.dot_comm]
      exact neg_nonpos.mpr hk
  have hright : 0 < (n.cross d).dot (vertex ps (j + 2) - o) := by
    rw [hside]
    exact (hconvex 0 (j + 1) (j + 2) (by omega) (by omega) hj).lt_of_ne' fun h =>
      hne (face_normal_eq_zero hlevel hps h)
  have ho : (n.cross d).dot (o - o) = 0 := by
    rw [dot_sub, sub_self]
  have hle : (n.cross d).dot (x - o) ≤ 0 := by
    rw [← hx, SolidClash.Triangle.dot_pointAt_sub hw.sum_eq]
    change w.a * (n.cross d).dot (o - o) + w.b * (n.cross d).dot (vertex ps (i + 1) - o) +
      w.c * (n.cross d).dot (vertex ps (i + 2) - o) ≤ 0
    rw [ho, mul_zero, zero_add]
    exact add_nonpos (mul_nonpos_of_nonneg_of_nonpos (hw.pos .b).le (hleft (by omega) (by omega)))
      (mul_nonpos_of_nonneg_of_nonpos (hw.pos .c).le (hleft (by omega) (by omega)))
  have hpos : 0 < (n.cross d).dot (x - o) := by
    rw [← hx', SolidClash.Triangle.dot_pointAt_sub hw'.sum_eq]
    change 0 < w'.a * (n.cross d).dot (o - o) + w'.b * (n.cross d).dot d +
      w'.c * (n.cross d).dot (vertex ps (j + 2) - o)
    rw [ho, hd, mul_zero, mul_zero, zero_add, zero_add]
    exact mul_pos (hw'.pos .c) hright
  exact hpos.not_ge hle

lemma IsConvexFace.ne_nil (h : IsConvexFace ps n) : ps ≠ [] :=
  List.length_pos_iff.mp (four_pos.trans_le h.four_le)

lemma IsConvexFace.convexAround (h : IsConvexFace ps n) :
    IsConvexAround ps n ∨ IsConvexAround ps (-n) := by
  refine h.bends.imp (fun hbend i j k hij hjk hk => ?_) fun hbend i j k hij hjk hk => ?_
  · exact face_normal_nonneg h.level h.ne_nil h.simple hbend hij hjk hk
  · apply face_normal_nonneg h.level.neg h.ne_nil h.simple _ hij hjk hk
    intro i
    rw [neg_dot]
    exact neg_nonneg.mpr (hbend i)

lemma mem_fan {m : ℕ} {t : Triangle} : t ∈ fan m ↔ ∃ i, i + 2 < m ∧ (0, i + 1, i + 2) = t := by
  simp only [fan, List.mem_map, List.mem_range]
  exact exists_congr fun i => and_congr_left fun _ => by omega

lemma IsConvexFace.normals_upright (h : IsConvexFace ps n) :
    (∀ t ∈ fan ps.length, (face ps (upright ps n t)).normal = (face ps t).normal) ∨
      ∀ t ∈ fan ps.length, (face ps (upright ps n t)).normal = -(face ps t).normal := by
  refine h.convexAround.imp (fun hconvex t ht => ?_) fun hconvex t ht => ?_
  · obtain ⟨i, hi, rfl⟩ := mem_fan.mp ht
    rw [upright, if_neg (hconvex 0 _ _ i.succ_pos (Nat.lt_succ_self _) hi).not_gt]
  · obtain ⟨i, hi, rfl⟩ := mem_fan.mp ht
    have hi := hconvex 0 _ _ i.succ_pos (Nat.lt_succ_self _) hi
    rw [neg_dot, neg_nonneg] at hi
    rw [upright]
    split
    · exact normal_swap _
    · rename_i hneg
      rw [face_normal_eq_zero h.level h.ne_nil (le_antisymm hi (not_lt.mp hneg)), neg_zero]

lemma IsConvexFace.disjoint (h : IsConvexFace ps n) {i j : ℕ} (hij : i < j)
    (hj : j + 2 < ps.length) {x : Vec ℝ} (hi : IsInside (face ps (0, i + 1, i + 2)) x) :
    ¬ IsInside (face ps (0, j + 1, j + 2)) x := by
  rcases h.convexAround with hconvex | hconvex
  · exact hconvex.disjoint h.level hij hj hi
  · exact hconvex.disjoint h.level.neg hij hj hi

lemma IsConvexFace.sum_upright (h : IsConvexFace ps n) :
    ((fan ps.length).map fun t => (face ps (upright ps n t)).normal).sum =
      if 0 < n.dot (normal ps) then normal ps else -normal ps := by
  have hfour := h.four_le
  have hlong := dot_self_pos h.level.ne_zero
  obtain ⟨r, hr, hsum⟩ : ∃ r, 0 ≤ r ∧
      ((fan ps.length).map fun t => (face ps (upright ps n t)).normal).sum = n.scale r := by
    apply exists_scale_sum
    intro v hv
    obtain ⟨t, -, rfl⟩ := List.mem_map.mp hv
    exact exists_scale_upright h.level h.ne_nil t
  have hnormal : n.scale r = normal ps ∨ n.scale r = -normal ps := by
    rw [← hsum, normal_eq_sum_fan (by omega), List.sum_neg, List.map_map]
    exact h.normals_upright.imp (fun h => congrArg List.sum (List.map_congr_left h))
      fun h => congrArg List.sum (List.map_congr_left h)
  rw [hsum]
  rcases hnormal with hnormal | hnormal
  · rw [← hnormal, dot_scale_self]
    split
    · rfl
    · rename_i hle
      obtain rfl := le_antisymm (nonpos_of_mul_nonpos_left (not_lt.mp hle) hlong) hr
      rw [scale_zero, neg_zero]
  · have hdot : n.dot (normal ps) ≤ 0 := by
      rw [← neg_neg (normal ps), ← hnormal, Vec.dot_comm, neg_dot, Vec.dot_comm, dot_scale_self]
      exact neg_nonpos.mpr (mul_nonneg hr hlong.le)
    rw [if_neg hdot.not_gt, hnormal]

lemma IsConvexFace.splits (h : IsConvexFace ps n) :
    Splits ps n ((fan ps.length).map (upright ps n)) where
  length_eq := by
    have hfour := h.four_le
    rw [List.length_map, fan, List.length_map, List.length_range]
    omega
  lt_length := by
    intro t ht
    obtain ⟨t, hfan, rfl⟩ := List.mem_map.mp ht
    obtain ⟨i, hi, rfl⟩ := mem_fan.mp hfan
    rcases upright_eq_or ps n (0, i + 1, i + 2) with hup | hup <;> rw [hup] <;> dsimp only <;> omega
  uses := by
    intro i hi
    have hfour := h.four_le
    obtain ⟨j, hj, hij⟩ : ∃ j, j + 2 < ps.length ∧ (i = 0 ∨ i = j + 1 ∨ i = j + 2) :=
      ⟨i - 2, by omega, by omega⟩
    refine ⟨_, List.mem_map_of_mem (mem_fan.mpr ⟨j, hj, rfl⟩), ?_⟩
    rcases upright_eq_or ps n (0, j + 1, j + 2) with hup | hup <;> rw [hup] <;> dsimp only <;> omega
  wound := by
    intro t ht
    obtain ⟨t, -, rfl⟩ := List.mem_map.mp ht
    obtain ⟨r, hr, hnormal⟩ := exists_scale_upright h.level h.ne_nil t
    rcases hr.eq_or_lt with rfl | hr
    · exact Or.inr (hnormal.trans (scale_zero n))
    · rw [hnormal, dot_scale_self]
      exact Or.inl (mul_pos hr (dot_self_pos h.level.ne_zero))
  disjoint := by
    rw [List.pairwise_map, fan, List.pairwise_map]
    apply List.pairwise_lt_range.imp_of_mem
    rintro i j - hj hij x ⟨hx, hx'⟩
    have hj := List.mem_range.mp hj
    exact h.disjoint hij (by omega) (isInside_of_upright hx) (isInside_of_upright hx')
  sum_eq := by
    rw [List.map_map]
    exact h.sum_upright

/-- A convex polygon is split without loss or overlap, whichever way the normal faces. The normal
that the polygon has by itself is a sum over its border, the same from any corner on. -/
theorem triangulate_convex :
    (∀ ps n, IsConvexFace ps n → ∃ ts, triangulate ps n = .ok ts ∧ Splits ps n ts) ∧
    ∀ ps : List (Vec ℝ), normal ps = ((cyclicPairs ps).map fun (p, q) => p.cross q).sum ∧
      ∀ k, normal (readFrom ps k) = normal ps := by
  refine ⟨fun ps n h => ?_, fun ps => ⟨normal_eq_sum ps, normal_readFrom ps⟩⟩
  have hfour := h.four_le
  refine ⟨_, ?_, h.splits⟩
  have hconvex := isConvex_flatten h.level (by omega) h.bends
  simp only [triangulate, if_neg (by omega : ¬ ps.length < 3), if_neg (by omega : ps.length ≠ 3),
    hconvex, if_true]
  congr 1
  apply List.map_congr_left
  intro t ht
  obtain ⟨i, hi, rfl⟩ := mem_fan.mp ht
  exact wind_flatten h.level (i.zero_lt_succ.trans (Nat.lt_of_succ_lt hi)) (Nat.lt_of_succ_lt hi) hi

def slope : List (Vec ℝ) := [⟨-1, -1, -1⟩, ⟨1, -1, 1⟩, ⟨1, 1, 1⟩, ⟨0, 1, 0⟩, ⟨-1, 1, -1⟩]

lemma isSimple_slope : IsSimple slope := by
  intro i hi j hj r s hr hr' hs hs' h
  have hx := congrArg (·.along .x) h
  have hy := congrArg (·.along .y) h
  simp only [along_edgePoint] at hx hy
  simp only [slope, List.length_cons, List.length_nil] at hi hj
  interval_cases i <;> interval_cases j <;> simp [vertex, slope, along] at hx hy ⊢ <;> linarith

lemma isConvexFace_slope : IsConvexFace slope ⟨1, 0, -1⟩ where
  four_le := by simp [slope]
  simple := isSimple_slope
  level := by
    constructor
    · intro h
      exact one_ne_zero (congrArg Vec.x h)
    · simp [slope, Vec.dot]
  bends := by
    right
    intro i
    rw [← bend_mod]
    have hi : i % slope.length < 5 := Nat.mod_lt i (by simp [slope])
    have hsub (p q : Vec ℝ) : p - q = ⟨p.x - q.x, p.y - q.y, p.z - q.z⟩ := rfl
    interval_cases i % slope.length <;> norm_num [bend, vertex, slope, cross, Vec.dot, hsub]

theorem triangulate_convex_slope : IsConvexFace slope ⟨1, 0, -1⟩ ∧
    ∃ ts, triangulate slope ⟨1, 0, -1⟩ = .ok ts ∧ Splits slope ⟨1, 0, -1⟩ ts :=
  ⟨isConvexFace_slope, triangulate_convex.1 slope _ isConvexFace_slope⟩

end SolidClash.Polygon
