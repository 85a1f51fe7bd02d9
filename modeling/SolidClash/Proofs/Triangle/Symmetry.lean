import Mathlib.Tactic.Linarith
import SolidClash.Proofs.Vec
import SolidClash.Triangle.Intersection

/-! The order of two triangles makes a difference only where the test measures with a tolerance. -/

namespace SolidClash

lemma Vec.dominant_cross_comm (v w : Vec ℝ) : (v.cross w).dominant = (w.cross v).dominant := by
  have hx : |v.y * w.z - v.z * w.y| = |w.y * v.z - w.z * v.y| := by rw [abs_sub_comm]; ring_nf
  have hy : |v.z * w.x - v.x * w.z| = |w.z * v.x - w.x * v.z| := by rw [abs_sub_comm]; ring_nf
  have hz : |v.x * w.y - v.y * w.x| = |w.x * v.y - w.y * v.x| := by rw [abs_sub_comm]; ring_nf
  simp only [dominant, cross, map, Scalar.abs_real, hx, hy, hz]

namespace Triangle

open Scalar

section Plane

def ShadowsOverlap (s t : Triangle ℝ) (axis : Axis) (ε : ℝ) : Prop :=
  let p := s.mapCorners (·.onto axis.others)
  let q := t.mapCorners (·.onto axis.others)
  ∀ e ∈ p.edgeNormals ++ q.edgeNormals, ¬ SeparatedOn p q e ε

def Triple.moved (p : Triple (Vec2 ℝ)) (k : Vec2 ℝ) : Triple (Vec2 ℝ) :=
  ⟨p.a - k, p.b - k, p.c - k⟩

lemma Triple.edgeNormals_moved (p : Triple (Vec2 ℝ)) (k : Vec2 ℝ) :
    (p.moved k).edgeNormals = p.edgeNormals := by
  have hsub (v w : Vec2 ℝ) : (v - k) - (w - k) = v - w := by
    change (⟨_, _⟩ : Vec2 ℝ) = ⟨_, _⟩
    congr 1 <;> exact sub_sub_sub_cancel_right _ _ _
  simp only [edgeNormals, moved, hsub]

lemma separatedOn_iff (p q : Triple (Vec2 ℝ)) (e : Vec2 ℝ) (ε : ℝ) :
    SeparatedOn p q e ε ↔
      min (max (max (p.a.dot e) (p.b.dot e)) (p.c.dot e))
          (max (max (q.a.dot e) (q.b.dot e)) (q.c.dot e)) -
        max (min (min (p.a.dot e) (p.b.dot e)) (p.c.dot e))
          (min (min (q.a.dot e) (q.b.dot e)) (q.c.dot e)) ≤
      min ε (0.25 * min
        (max (max (p.a.dot e) (p.b.dot e)) (p.c.dot e) -
          min (min (p.a.dot e) (p.b.dot e)) (p.c.dot e))
        (max (max (q.a.dot e) (q.b.dot e)) (q.c.dot e) -
          min (min (q.a.dot e) (q.b.dot e)) (q.c.dot e))) := by
  simp only [SeparatedOn, Triple.toList, List.map_cons, List.map_nil, range_real, minNum_real,
    maxNum_real]

lemma separatedOn_comm (p q : Triple (Vec2 ℝ)) (e : Vec2 ℝ) (ε : ℝ) :
    SeparatedOn p q e ε ↔ SeparatedOn q p e ε := by
  rw [separatedOn_iff, separatedOn_iff]
  simp only [min_comm, max_comm]

lemma separatedOn_moved (p q : Triple (Vec2 ℝ)) (k e : Vec2 ℝ) (ε : ℝ) :
    SeparatedOn (p.moved k) (q.moved k) e ε ↔ SeparatedOn p q e ε := by
  have hdot (v : Vec2 ℝ) : (v - k).dot e = v.dot e - k.dot e := by
    change (v.x - k.x) * e.x + (v.y - k.y) * e.y = _
    simp only [Vec2.dot]
    ring
  rw [separatedOn_iff, separatedOn_iff]
  simp only [Triple.moved, hdot, min_sub_sub_right, max_sub_sub_right, sub_sub_sub_cancel_right]

lemma shadowsOverlap_comm (s t : Triangle ℝ) (axis : Axis) (ε : ℝ) :
    ShadowsOverlap s t axis ε ↔ ShadowsOverlap t s axis ε := by
  simp only [ShadowsOverlap, List.mem_append, or_comm, separatedOn_comm]

lemma overlapInPlane_iff (s t : Triangle ℝ) (n₁ n₂ : Vec ℝ) (ε : ℝ) :
    overlapInPlane s t n₁ n₂ ε = true ↔
      0 ≤ n₁.dot n₂ ∧ ShadowsOverlap s t n₁.dominant ε := by
  have hflat (r : Triangle ℝ) : (r.mapCorners fun p => (p - s.a).onto n₁.dominant.others) =
      (r.mapCorners (·.onto n₁.dominant.others)).moved (s.a.onto n₁.dominant.others) := by
    cases n₁.dominant <;> rfl
  rw [overlapInPlane]
  split
  · rename_i h
    simp [not_le.mpr h]
  · rename_i h
    simp only [hflat, Triple.edgeNormals_moved, separatedOn_moved, not_lt.mp h, true_and,
      ShadowsOverlap, List.all_eq_true, decide_eq_true_eq]

end Plane

section Line

noncomputable def span? (r : Triangle ℝ) (axis : Axis) (d : Triple ℝ) : Option (ℝ × ℝ) :=
  interval? (r.mapCorners (·.along axis)) d

def SpansOverlap (s t : Triangle ℝ) (axis : Axis) (ds dt : Triple ℝ) (origin ε : ℝ) : Prop :=
  ∃ i j, span? s axis ds = some i ∧ span? t axis dt = some j ∧ j.1 ≤ i.2 ∧ i.1 ≤ j.2 ∧
    ¬ Close (i.2 - origin) (j.1 - origin) ε ∧ ¬ Close (j.2 - origin) (i.1 - origin) ε

lemma spansOverlap_comm (s t : Triangle ℝ) (axis : Axis) (ds dt : Triple ℝ) (k ε : ℝ) :
    SpansOverlap s t axis ds dt k ε ↔ SpansOverlap t s axis dt ds k ε := by
  constructor <;>
  · rintro ⟨i, j, hi, hj, hij, hji, hc, hc'⟩
    exact ⟨j, i, hj, hi, hji, hij, hc', hc⟩

lemma crossing_from (r : Triangle ℝ) (axis : Axis) (d : Triple ℝ) (k : ℝ) (i j : Corner) :
    crossing (r.mapCorners fun p => p.along axis - k) d i j =
      crossing (r.mapCorners (·.along axis)) d i j - k := by
  have hget (m : Corner) : (r.mapCorners fun p => p.along axis - k).get m =
      (r.mapCorners (·.along axis)).get m - k := by
    cases m <;> rfl
  simp only [crossing, hget, sub_sub_sub_cancel_right]
  ring

lemma interval_from (r : Triangle ℝ) (axis : Axis) (d : Triple ℝ) (k : ℝ) :
    interval? (r.mapCorners fun p => p.along axis - k) d =
      (span? r axis d).map fun i => (i.1 - k, i.2 - k) := by
  simp only [span?, interval?]
  cases d.lone? with
  | none => rfl
  | some lone =>
    simp only [Option.map_some, crossing_from, sub_le_sub_iff_right]
    split <;> rfl

lemma overlapOnLine_iff (s t : Triangle ℝ) (n₁ n₂ : Vec ℝ) (ds dt : Triple ℝ) (ε : ℝ) :
    overlapOnLine s t n₁ n₂ ds dt ε = true ↔
      SpansOverlap s t (n₁.cross n₂).dominant ds dt (s.a.along (n₁.cross n₂).dominant) ε := by
  simp only [overlapOnLine, interval_from, SpansOverlap]
  cases span? s (n₁.cross n₂).dominant ds with
  | none => simp
  | some i =>
    cases span? t (n₁.cross n₂).dominant dt with
    | none => simp
    | some j =>
      simp only [Option.map_some, Option.some.injEq, exists_and_left, exists_eq_left',
        sub_lt_sub_iff_right, not_lt, Bool.decide_and, Bool.and_eq_true, decide_eq_true_eq]
      tauto

end Line

lemma snap_comm (s t : Triangle ℝ) (ε : ℝ) : s.snap t ε = t.snap s ε := by
  simp only [snap, maxNum_real, max_comm]

noncomputable def heights (r other : Triangle ℝ) (n : Vec ℝ) (ε : ℝ) : Triple ℝ :=
  r.distances n other.a (other.snap r ε)

def Triple.Reaches (d : Triple ℝ) (ε₂ : ℝ) : Prop := d.AllZero ∨ d.Straddles ε₂

lemma Triple.Straddles.not_allZero {d : Triple ℝ} {ε : ℝ} (h : d.Straddles (ε * ε)) :
    ¬ d.AllZero := by
  rintro ⟨ha, hb, hc⟩
  simp only [isZero_real] at ha hb hc
  simp only [Straddles, ha, hb, hc, mul_zero, or_self] at h
  nlinarith

variable {s t : Triangle ℝ} {n₁ n₂ : Vec ℝ} {ε : ℝ}

lemma intersects_inPlane_iff (hs : s.unitNormal? = some n₁) (ht : t.unitNormal? = some n₂)
    (hz : (s.heights t n₂ ε).AllZero ∨ (t.heights s n₁ ε).AllZero) :
    s.intersects t ε (ε * ε) = true ↔
      0 ≤ n₁.dot n₂ ∧ (t.heights s n₁ ε).Reaches (ε * ε) ∧ ShadowsOverlap s t n₁.dominant ε := by
  have hds : s.distances n₂ t.a (s.snap t ε) = s.heights t n₂ ε := by rw [heights, snap_comm]
  have hdt : t.distances n₁ s.a (s.snap t ε) = t.heights s n₁ ε := rfl
  simp only [intersects, hs, ht, hds, hdt, Triple.Reaches]
  by_cases hz₁ : (t.heights s n₁ ε).AllZero
  · simp [hz₁, overlapInPlane_iff]
  · have hz₂ := hz.resolve_right hz₁
    by_cases hc : (t.heights s n₁ ε).Straddles (ε * ε)
    · simp [hz₁, hz₂, hc, overlapInPlane_iff]
    · simp [hz₁, hc]

lemma intersects_onLine_iff (hs : s.unitNormal? = some n₁) (ht : t.unitNormal? = some n₂)
    (hz : ¬ (s.heights t n₂ ε).AllZero) (hz' : ¬ (t.heights s n₁ ε).AllZero) :
    s.intersects t ε (ε * ε) = true ↔
      (s.heights t n₂ ε).Straddles (ε * ε) ∧ (t.heights s n₁ ε).Straddles (ε * ε) ∧
        SpansOverlap s t (n₁.cross n₂).dominant (s.heights t n₂ ε) (t.heights s n₁ ε)
          (s.a.along (n₁.cross n₂).dominant) ε := by
  have hds : s.distances n₂ t.a (s.snap t ε) = s.heights t n₂ ε := by rw [heights, snap_comm]
  have hdt : t.distances n₁ s.a (s.snap t ε) = t.heights s n₁ ε := rfl
  simp only [intersects, hs, ht, hds, hdt]
  by_cases hc : (t.heights s n₁ ε).Straddles (ε * ε)
  · by_cases hc' : (s.heights t n₂ ε).Straddles (ε * ε)
    · simp [hz, hz', hc, hc', overlapOnLine_iff]
    · simp [hz, hz', hc, hc']
  · simp [hz', hc]

structure Unbiased (s t : Triangle ℝ) (n₁ n₂ : Vec ℝ) (ε : ℝ) : Prop where
  inPlane : (s.heights t n₂ ε).AllZero ∨ (t.heights s n₁ ε).AllZero → 0 ≤ n₁.dot n₂ →
    ((t.heights s n₁ ε).Reaches (ε * ε) ∧ ShadowsOverlap s t n₁.dominant ε ↔
      (s.heights t n₂ ε).Reaches (ε * ε) ∧ ShadowsOverlap s t n₂.dominant ε)
  onLine : (s.heights t n₂ ε).Straddles (ε * ε) → (t.heights s n₁ ε).Straddles (ε * ε) →
    (SpansOverlap s t (n₁.cross n₂).dominant (s.heights t n₂ ε) (t.heights s n₁ ε)
        (s.a.along (n₁.cross n₂).dominant) ε ↔
      SpansOverlap s t (n₁.cross n₂).dominant (s.heights t n₂ ε) (t.heights s n₁ ε)
        (t.a.along (n₁.cross n₂).dominant) ε)

lemma intersects_comm_iff_unbiased (hs : s.unitNormal? = some n₁) (ht : t.unitNormal? = some n₂) :
    s.intersects t ε (ε * ε) = t.intersects s ε (ε * ε) ↔ Unbiased s t n₁ n₂ ε := by
  rw [Bool.eq_iff_iff]
  by_cases hz : (s.heights t n₂ ε).AllZero ∨ (t.heights s n₁ ε).AllZero
  · rw [intersects_inPlane_iff hs ht hz, intersects_inPlane_iff ht hs hz.symm, Vec.dot_comm n₂,
      shadowsOverlap_comm t, and_congr_right_iff]
    refine ⟨fun h => ⟨fun _ => h, fun hc hc' => ?_⟩, fun h => h.inPlane hz⟩
    exact (hz.elim hc.not_allZero hc'.not_allZero).elim
  · obtain ⟨hz, hz'⟩ := not_or.mp hz
    rw [intersects_onLine_iff hs ht hz hz', intersects_onLine_iff ht hs hz' hz,
      Vec.dominant_cross_comm n₂, spansOverlap_comm t, and_left_comm (b := Triple.Straddles _ _),
      and_congr_right_iff, and_congr_right_iff]
    refine ⟨fun h => ⟨fun h' => ?_, fun hc hc' => h hc' hc⟩, fun h hc hc' => h.onLine hc' hc⟩
    exact (h'.elim hz hz').elim

def Impartial (s t : Triangle ℝ) (ε : ℝ) : Prop :=
  ∀ n₁ n₂, s.unitNormal? = some n₁ → t.unitNormal? = some n₂ → Unbiased s t n₁ n₂ ε

lemma intersects_comm_iff (s t : Triangle ℝ) (ε : ℝ) :
    s.intersects t ε (ε * ε) = t.intersects s ε (ε * ε) ↔ Impartial s t ε := by
  rw [Impartial]
  cases hs : s.unitNormal? with
  | none => simp [intersects, hs]
  | some n₁ =>
    cases ht : t.unitNormal? with
    | none => simp [intersects, ht]
    | some n₂ =>
      rw [intersects_comm_iff_unbiased hs ht]
      constructor
      · intro h m₁ m₂ h₁ h₂
        obtain rfl := Option.some.inj h₁
        obtain rfl := Option.some.inj h₂
        exact h
      · intro h
        exact h n₁ n₂ rfl rfl

end Triangle

end SolidClash
