import Mathlib.Algebra.BigOperators.Group.List.Basic
import SolidClash.Mesh.Measure
import SolidClash.Proofs.Mesh.Relisted
import SolidClash.Proofs.Mesh.Translation
import SolidClash.Proofs.Mesh.Watertight

/-! The volume of closed surfaces in exact arithmetic. Another apex of the tetrahedra adds a term
for every side of a triangle, and the terms of a side and of its reverse cancel. -/

namespace SolidClash

lemma Scalar.sum_real (as : List ℝ) : Scalar.sum as = as.sum := List.sum_eq_foldl.symm

namespace Triangle

lemma sides_back (t : Triangle ℝ) : t.back.sides.Perm (t.sides.map Prod.swap) :=
  List.Perm.trans (.swap (t.c, t.b) (t.a, t.c) [(t.b, t.a)])
    (List.perm_append_singleton (t.b, t.a) [(t.c, t.b), (t.a, t.c)])

lemma sides_translated (t : Triangle ℝ) (v : Vec ℝ) :
    (t.translated v).sides = t.sides.map (Prod.map (· + v) (· + v)) := rfl

end Triangle

namespace Mesh

open Triangle

variable {ts ts' : List (Triangle ℝ)}

section Balanced

/-- By exact equality of points, every side occurs as often as its reverse. -/
def Balanced (ts : List (Triangle ℝ)) : Prop :=
  ∀ p q, (ts.flatMap sides).countP (· = (p, q)) = (ts.flatMap sides).countP (· = (q, p))

lemma balanced_iff_perm :
    Balanced ts ↔ ((ts.flatMap sides).map Prod.swap).Perm (ts.flatMap sides) := by
  let _ : BEq (Vec ℝ × Vec ℝ) := instBEqOfDecidableEq
  have hswap (s : Vec ℝ × Vec ℝ) :
      ((ts.flatMap sides).map Prod.swap).count s = (ts.flatMap sides).countP (· = s.swap) := by
    rw [List.count, List.countP_map]
    exact List.countP_congr fun r _ => by simp [Prod.ext_iff, and_comm]
  have hcount (s : Vec ℝ × Vec ℝ) :
      (ts.flatMap sides).count s = (ts.flatMap sides).countP (· = s) :=
    List.countP_congr fun r _ => by simp
  rw [List.perm_iff_count]
  simp only [hswap, hcount, Prod.forall, Prod.swap_prod_mk, Balanced]
  exact ⟨fun h p q => (h p q).symm, fun h p q => (h p q).symm⟩

lemma Balanced.of_perm {k : Vec ℝ × Vec ℝ → Vec ℝ × Vec ℝ} (hk : ∀ s, (k s).swap = k s.swap)
    (h : Balanced ts) (hperm : (ts'.flatMap sides).Perm ((ts.flatMap sides).map k)) :
    Balanced ts' := by
  rw [balanced_iff_perm] at h ⊢
  have hmap : ((ts.flatMap sides).map k).map Prod.swap = ((ts.flatMap sides).map Prod.swap).map k := by
    simp only [List.map_map, Function.comp_def, hk]
  exact ((hperm.map _).trans (.of_eq hmap)).trans ((h.map k).trans hperm.symm)

lemma Balanced.translated (h : Balanced ts) (v : Vec ℝ) :
    Balanced (ts.map (·.translated v)) := by
  refine h.of_perm (k := Prod.map (· + v) (· + v)) (fun _ => rfl) (List.Perm.of_eq ?_)
  simp only [List.flatMap_map, List.map_flatMap, sides_translated]

lemma Balanced.relisted (h : Balanced ts) (hts : Relisted ts ts') : Balanced ts' :=
  h.of_perm (k := id) (fun _ => rfl) (by simpa using hts.sides_perm)

lemma Balanced.back (h : Balanced ts) : Balanced (ts.map Triangle.back) := by
  refine h.of_perm (k := Prod.swap) (fun _ => rfl) ?_
  rw [List.flatMap_map, List.map_flatMap]
  exact List.Perm.flatMap_left _ fun t _ => t.sides_back

lemma Balanced.sum_eq_zero (h : Balanced ts) {f : Vec ℝ × Vec ℝ → ℝ} (hf : ∀ s, f s.swap = -f s) :
    ((ts.flatMap sides).map f).sum = 0 := by
  have hneg : ((ts.flatMap sides).map f).sum = -((ts.flatMap sides).map f).sum := by
    calc ((ts.flatMap sides).map f).sum
        = (((ts.flatMap sides).map Prod.swap).map f).sum :=
          ((balanced_iff_perm.mp h).map f).sum_eq.symm
      _ = (((ts.flatMap sides).map f).map Neg.neg).sum := by
          simp only [List.map_map, Function.comp_def, hf]
      _ = -((ts.flatMap sides).map f).sum := (List.sum_neg _).symm
  exact self_eq_neg.mp hneg

end Balanced

section Apex

lemma fan_eq (p : Vec ℝ) (t : Triangle ℝ) : fan p t =
    t.a.dot (t.b.cross t.c) - (t.sides.map fun s => p.dot (s.1.cross s.2)).sum := by
  have hsub (v : Vec ℝ) : v - p = ⟨v.x - p.x, v.y - p.y, v.z - p.z⟩ := rfl
  simp only [fan, hsub, Vec.dot, Vec.cross, sides, List.map_cons, List.map_nil, List.sum_cons,
    List.sum_nil]
  ring

lemma sum_fan (ts : List (Triangle ℝ)) (p : Vec ℝ) : (ts.map (fan p)).sum =
    (ts.map fun t => t.a.dot (t.b.cross t.c)).sum -
      ((ts.flatMap sides).map fun s => p.dot (s.1.cross s.2)).sum := by
  induction ts with
  | nil => simp
  | cons t ts ih =>
    simp only [List.map_cons, List.sum_cons, List.flatMap_cons, List.map_append, List.sum_append,
      ih, fan_eq]
    ring

lemma Balanced.sum_fan (h : Balanced ts) (p : Vec ℝ) :
    (ts.map (fan p)).sum = (ts.map fun t => t.a.dot (t.b.cross t.c)).sum := by
  have hswap (s : Vec ℝ × Vec ℝ) :
      p.dot (s.swap.1.cross s.swap.2) = -p.dot (s.1.cross s.2) := by
    simp only [Vec.dot, Vec.cross, Prod.fst_swap, Prod.snd_swap]
    ring
  rw [Mesh.sum_fan, h.sum_eq_zero hswap, sub_zero]

lemma Relisted.sum_eq (h : Relisted ts ts') {f : Triangle ℝ → ℝ} (hf : ∀ t, f t.turned = f t) :
    (ts'.map f).sum = (ts.map f).sum := by
  obtain ⟨us, hperm, hus⟩ := h
  rw [← (hperm.map f).sum_eq]
  clear hperm
  induction hus with
  | nil => rfl
  | cons htu _ ih =>
    rw [List.map_cons, List.sum_cons, List.map_cons, List.sum_cons, ih]
    rcases htu with rfl | rfl | rfl
    · rfl
    · rw [hf]
    · rw [hf, hf]

end Apex

variable {m m' : Mesh ℝ} {p v : Vec ℝ}

lemma volume_of_balanced (h : Balanced m.triangles) (p : Vec ℝ) :
    m.volume = |(m.triangles.map (fan p)).sum| / 6 := by
  rw [volume]
  split
  · rename_i hnone
    have hempty : m.triangles = [] := by
      cases hm : m.triangles with
      | nil => rfl
      | cons t ts => simp [bounds?, hm, Box.unionAll?] at hnone
    simp [hempty]
  · rw [Scalar.sum_real, h.sum_fan, h.sum_fan p, Scalar.abs_real, abs_div]
    norm_num

lemma volume_translated (h : Balanced m.triangles)
    (hm' : m'.triangles = m.triangles.map (·.translated v)) : m'.volume = m.volume := by
  have hfan (t : Triangle ℝ) : fan (0 + v) (t.translated v) = fan 0 t := by
    simp only [fan, Triangle.translated, Vec.add_sub_add_right]
  rw [volume_of_balanced (hm' ▸ h.translated v) (0 + v), volume_of_balanced h 0, hm', List.map_map]
  simp only [Function.comp_def, hfan]

lemma volume_relisted (h : Balanced m.triangles) (hm' : Relisted m.triangles m'.triangles) :
    m'.volume = m.volume := by
  have hfan (t : Triangle ℝ) : fan 0 t.turned = fan 0 t := by
    simp only [fan, Triangle.turned, Vec.dot, Vec.cross]
    ring
  rw [volume_of_balanced (h.relisted hm') 0, volume_of_balanced h 0, hm'.sum_eq hfan]

lemma volume_back (h : Balanced m.triangles)
    (hm' : m'.triangles = m.triangles.map Triangle.back) : m'.volume = m.volume := by
  have hfan (t : Triangle ℝ) : fan 0 t.back = -fan 0 t := by
    simp only [fan, Triangle.back, Vec.dot, Vec.cross]
    ring
  have hneg : (m'.triangles.map (fan 0)).sum = -(m.triangles.map (fan 0)).sum := by
    rw [hm', List.sum_neg, List.map_map, List.map_map]
    simp only [Function.comp_def, hfan]
  rw [volume_of_balanced (hm' ▸ h.back) 0, volume_of_balanced h 0, hneg, abs_neg]

section Cuboid

variable (p q : Vec ℝ) (l : ℝ)

def cuboidSides : List (UInt32 × UInt32) :=
  cuboidFaces.flatMap fun f => [(f.1, f.2.1), (f.2.1, f.2.2), (f.2.2, f.1)]

lemma sides_cuboid : (cuboid p q).triangles.flatMap sides =
    cuboidSides.map (Prod.map (cuboidPoint p q) (cuboidPoint p q)) := by
  rfl

lemma balanced_cuboid : Balanced (cuboid p q).triangles := by
  have hnumbers : (cuboidSides.map Prod.swap).Perm cuboidSides := by decide +kernel
  rw [balanced_iff_perm, sides_cuboid]
  simpa only [List.map_map, Prod.map_comp_swap] using
    hnumbers.map (Prod.map (cuboidPoint p q) (cuboidPoint p q))

lemma volume_cuboid : (cuboid p q).volume = |(q.x - p.x) * (q.y - p.y) * (q.z - p.z)| := by
  have hsub (v w : Vec ℝ) : v - w = ⟨v.x - w.x, v.y - w.y, v.z - w.z⟩ := rfl
  -- the last corner is the default case, and no numeral unfolds to it
  have hlast : cuboidPoint p q 7 = ⟨p.x, q.y, q.z⟩ := rfl
  have hsum : ((cuboid p q).triangles.map (fan p)).sum =
      (q.x - p.x) * (q.y - p.y) * (q.z - p.z) * 6 := by
    simp only [cuboid, triangles, cuboidFaces, fan, hsub, Vec.dot, Vec.cross, List.map_cons,
      List.map_nil, List.sum_cons, List.sum_nil, hlast]
    simp only [cuboidPoint]
    ring
  rw [volume_of_balanced (balanced_cuboid p q) p, hsum, abs_mul]
  norm_num

noncomputable def cube : Mesh ℝ := cuboid p ⟨p.x + l, p.y + l, p.z + l⟩

lemma volume_cube : (cube p l).volume = |l| ^ 3 := by
  rw [cube, volume_cuboid]
  simp only [add_sub_cancel_left, abs_mul]
  ring

end Cuboid

/-- If every side of a surface occurs as often as its reverse, its volume is the same from any apex,
the origin among them. So it stays when the mesh is moved, when its triangles are listed otherwise
and when they are all turned over. -/
theorem volume_from_anywhere {m : Mesh ℝ} (h : Balanced m.triangles) :
    m.volume = |(m.triangles.map fun t => t.a.dot (t.b.cross t.c)).sum| / 6 ∧
    (∀ p, m.volume = |(m.triangles.map (fan p)).sum| / 6) ∧
    (∀ (v : Vec ℝ) (m' : Mesh ℝ), m'.triangles = m.triangles.map (·.translated v) →
      m'.volume = m.volume) ∧
    (∀ m' : Mesh ℝ, Relisted m.triangles m'.triangles → m'.volume = m.volume) ∧
    ∀ m' : Mesh ℝ, m'.triangles = m.triangles.map Triangle.back → m'.volume = m.volume := by
  refine ⟨?_, volume_of_balanced h, fun _ _ => volume_translated h, fun _ => volume_relisted h,
    fun _ => volume_back h⟩
  rw [volume_of_balanced h 0, h.sum_fan]

theorem volume_from_anywhere_cube :
    Balanced (cube ⟨500000, 5000000, 120⟩ (1 / 2)).triangles ∧
      (cube ⟨500000, 5000000, 120⟩ (1 / 2)).volume = 1 / 8 ∧
      |((cube ⟨500000, 5000000, 120⟩ (1 / 2)).triangles.map
        fun t => t.a.dot (t.b.cross t.c)).sum| / 6 = 1 / 8 ∧
      ((cube ⟨500000, 5000000, 120⟩ (1 / 2)).translated ⟨-500000, -5000000, -120⟩).volume =
        1 / 8 := by
  have hbalanced : Balanced (cube ⟨500000, 5000000, 120⟩ (1 / 2)).triangles := balanced_cuboid _ _
  have hvolume : (cube ⟨500000, 5000000, 120⟩ (1 / 2)).volume = 1 / 8 := by
    rw [volume_cube]
    norm_num
  obtain ⟨horigin, -, hmoved, -⟩ := volume_from_anywhere hbalanced
  exact ⟨hbalanced, hvolume, horigin ▸ hvolume,
    (hmoved _ _ (triangles_translated _ _)).trans hvolume⟩

end Mesh

end SolidClash
