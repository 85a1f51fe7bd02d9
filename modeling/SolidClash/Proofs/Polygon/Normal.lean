import Mathlib.Algebra.BigOperators.Group.List.Basic
import Mathlib.Data.List.GetD
import Mathlib.Data.List.Rotate
import Mathlib.Data.Nat.Periodic
import SolidClash.Polygon.Corner
import SolidClash.Proofs.Vec
import SolidClash.Triangle

namespace SolidClash

namespace Vec

instance : Neg (Vec ℝ) := ⟨fun v => v.scale (-1)⟩

lemma along_zero (k : Axis) : (0 : Vec ℝ).along k = 0 := by
  cases k <;> rfl

lemma along_neg (v : Vec ℝ) (k : Axis) : (-v).along k = -v.along k := by
  rw [← mul_neg_one]
  exact along_scale v (-1) k

lemma neg_dot (v w : Vec ℝ) : (-v).dot w = -v.dot w := flipped_dot v w

lemma dot_self_pos {n : Vec ℝ} (hn : n ≠ 0) : 0 < n.dot n := by
  apply lt_of_le_of_ne _ fun h => hn (eq_zero_of_dot_self h.symm)
  exact add_nonneg (add_nonneg (mul_self_nonneg _) (mul_self_nonneg _)) (mul_self_nonneg _)

lemma along_cross (v w : Vec ℝ) (k : Axis) : (v.cross w).along k =
    v.along k.next * w.along k.next.next - v.along k.next.next * w.along k.next := by
  cases k <;> rfl

lemma neg_cross (v w : Vec ℝ) : -v.cross w = w.cross v := by
  apply eq_of_along
  intro k
  rw [along_neg, along_cross, along_cross]
  ring

lemma cross_sub_sub (o p q : Vec ℝ) :
    (p - o).cross (q - o) + o.cross q = o.cross p + p.cross q := by
  apply eq_of_along
  intro k
  simp only [along_add, along_cross, along_sub]
  ring

end Vec

namespace Polygon

open Vec

noncomputable scoped instance : AddCommGroup (Vec ℝ) where
  add_assoc u v w := eq_of_along fun k => by simp only [along_add, add_assoc]
  zero_add v := eq_of_along fun k => by rw [along_add, along_zero, zero_add]
  add_zero v := eq_of_along fun k => by rw [along_add, along_zero, add_zero]
  neg_add_cancel v := eq_of_along fun k => by rw [along_add, along_neg, along_zero, neg_add_cancel]
  add_comm v w := eq_of_along fun k => by rw [along_add, along_add, add_comm]
  sub_eq_add_neg v w := eq_of_along fun k => by rw [along_sub, along_add, along_neg, sub_eq_add_neg]
  nsmul := nsmulRec
  zsmul := zsmulRec

section Cycle

variable {β : Type}

lemma cyclicPairs_eq (bs : List β) : cyclicPairs bs = bs.zip (bs.rotate 1) := by
  cases bs with
  | nil => rfl
  | cons b bs => rw [List.rotate_eq_drop_append_take (by simp)]; rfl

lemma readFrom_eq_rotate {bs : List β} {k : ℕ} (hk : k ≤ bs.length) : readFrom bs k = bs.rotate k :=
  (List.rotate_eq_drop_append_take hk).symm

lemma cyclicPairs_rotate (bs : List β) (k : ℕ) :
    cyclicPairs (bs.rotate k) = (cyclicPairs bs).rotate k := by
  rw [cyclicPairs_eq, cyclicPairs_eq, List.rotate_rotate, Nat.add_comm k 1, ← List.rotate_rotate]
  exact (List.zipWith_rotate_distrib Prod.mk _ _ k (List.length_rotate _ _).symm).symm

lemma sum_cyclicPairs_snd {M : Type} [AddCommMonoid M] (f : β → M) (bs : List β) :
    ((cyclicPairs bs).map fun e => f e.2).sum = ((cyclicPairs bs).map fun e => f e.1).sum := by
  have hfst : (cyclicPairs bs).map Prod.fst = bs := by
    rw [cyclicPairs_eq, List.map_fst_zip (by simp)]
  have hsnd : (cyclicPairs bs).map Prod.snd = bs.rotate 1 := by
    rw [cyclicPairs_eq, List.map_snd_zip (by simp)]
  calc ((cyclicPairs bs).map fun e => f e.2).sum
      = (((cyclicPairs bs).map Prod.snd).map f).sum := by rw [List.map_map]; rfl
    _ = (((cyclicPairs bs).map Prod.fst).map f).sum := by
      rw [hfst, hsnd]
      exact ((bs.rotate_perm 1).map f).sum_eq
    _ = ((cyclicPairs bs).map fun e => f e.1).sum := by rw [List.map_map]; rfl

end Cycle

variable (ps : List (Vec ℝ))

def products (p : Vec ℝ) : Vec ℝ := ⟨p.y * p.z, p.z * p.x, p.x * p.y⟩

lemma edgeNormal_add (p q : Vec ℝ) :
    edgeNormal p q + products q = p.cross q + products p := by
  apply eq_of_along
  intro k
  rw [along_add, along_add]
  cases k <;> simp only [along, edgeNormal, products, cross] <;> ring

lemma normal_eq_sum : normal ps = ((cyclicPairs ps).map fun (p, q) => p.cross q).sum := by
  have hfold : normal ps = ((cyclicPairs ps).map fun (p, q) => edgeNormal p q).sum := by
    rw [List.sum_eq_foldl, List.foldl_map]
    rfl
  apply add_right_cancel (b := ((cyclicPairs ps).map fun e => products e.2).sum)
  rw [hfold, ← List.sum_map_add, sum_cyclicPairs_snd, ← List.sum_map_add]
  exact congrArg List.sum (List.map_congr_left fun e _ => edgeNormal_add e.1 e.2)

lemma normal_readFrom (k : ℕ) : normal (readFrom ps k) = normal ps := by
  rcases le_or_gt k ps.length with hk | hk
  · rw [normal_eq_sum, normal_eq_sum, readFrom_eq_rotate hk, cyclicPairs_rotate]
    exact (((cyclicPairs ps).rotate_perm k).map _).sum_eq
  · rw [readFrom, List.drop_eq_nil_of_le hk.le, List.take_of_length_le hk.le, List.nil_append]

noncomputable def vertex (i : ℕ) : Vec ℝ := ps.getD (i % ps.length) 0

noncomputable def face (t : Triangle) : SolidClash.Triangle ℝ :=
  ⟨vertex ps t.1, vertex ps t.2.1, vertex ps t.2.2⟩

lemma vertex_periodic : Function.Periodic (vertex ps) ps.length := by
  intro i
  rw [vertex, vertex, Nat.add_mod_right]

variable {ps}

lemma vertex_eq_getElem {i j : ℕ} (hi : i < ps.length) (hj : j % ps.length = i) :
    vertex ps j = ps[i] := by
  rw [vertex, hj, List.getD_eq_getElem _ _ hi]

lemma vertex_mem (h : ps ≠ []) (i : ℕ) : vertex ps i ∈ ps := by
  have hi : i % ps.length < ps.length := Nat.mod_lt i (List.length_pos_iff.mpr h)
  rw [vertex_eq_getElem hi rfl]
  exact List.getElem_mem hi

lemma getElem_rotate_eq_vertex {i k : ℕ} (hi : i < (ps.rotate k).length) :
    (ps.rotate k)[i] = vertex ps (i + k) := by
  rw [List.getElem_rotate, ← vertex_eq_getElem _ rfl]

lemma cyclicPairs_eq_map (ps : List (Vec ℝ)) :
    cyclicPairs ps = (List.range ps.length).map fun i => (vertex ps i, vertex ps (i + 1)) := by
  apply List.ext_getElem
  · simp [cyclicPairs_eq]
  · intro i hi hi'
    rw [List.length_map, List.length_range] at hi'
    simp only [cyclicPairs_eq, List.getElem_zip, List.getElem_map, List.getElem_range,
      getElem_rotate_eq_vertex, vertex_eq_getElem hi' (Nat.mod_eq_of_lt hi')]

lemma sum_fan (v : ℕ → Vec ℝ) (m : ℕ) :
    ((List.range m).map fun i => (v (i + 1) - v 0).cross (v (i + 2) - v 0)).sum +
      (v 0).cross (v (m + 1)) = ((List.range (m + 1)).map fun i => (v i).cross (v (i + 1))).sum := by
  induction m with
  | zero => simp
  | succ m ih =>
    rw [List.sum_range_succ _ m, List.sum_range_succ _ (m + 1), ← ih, add_assoc, cross_sub_sub,
      add_assoc]

lemma normal_eq_sum_fan (h : 2 ≤ ps.length) :
    normal ps = ((fan ps.length).map fun t => (face ps t).normal).sum := by
  obtain ⟨m, hm⟩ : ∃ m, ps.length = m + 2 := ⟨ps.length - 2, by omega⟩
  have hlast : vertex ps (m + 2) = vertex ps 0 := hm ▸ (vertex_periodic ps).eq
  calc normal ps
      = ((List.range (m + 2)).map fun i => (vertex ps i).cross (vertex ps (i + 1))).sum := by
        rw [normal_eq_sum, cyclicPairs_eq_map, List.map_map, hm]
        rfl
    _ = ((List.range m).map fun i => (face ps (0, i + 1, i + 2)).normal).sum +
          (vertex ps 0).cross (vertex ps (m + 1)) + (vertex ps (m + 1)).cross (vertex ps 0) := by
        rw [List.sum_range_succ, ← sum_fan, hlast]
        rfl
    _ = ((fan ps.length).map fun t => (face ps t).normal).sum := by
        rw [← neg_cross (vertex ps 0), add_neg_cancel_right, fan, List.map_map, hm]
        rfl

end Polygon

end SolidClash
