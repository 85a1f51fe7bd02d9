import SolidClash.Proofs.Triangle.Parting

/-! Triangles on either side of a plane that touches both, and what lets the test take them to
penetrate each other. -/

namespace SolidClash

namespace Triangle

open Vec

variable {s t : Triangle ℝ} {k m : Axis} {n n₁ n₂ w : Vec ℝ} {ε c r : ℝ}

lemma dot_unitNormal (hn : t.unitNormal? = some n) :
    n.dot n = 1 ∧ ∀ p ∈ t.corners, n.dot p = n.dot t.a := by
  obtain ⟨hone, r, rfl⟩ := unit_spec (by norm_num) hn
  have hedge {v : Vec ℝ} (h : t.normal.dot (v - t.a) = 0) :
      (t.normal.scale r).dot v = (t.normal.scale r).dot t.a := by
    rw [dot_sub, sub_eq_zero] at h
    rw [scale_dot, scale_dot, h]
  exact ⟨hone, forall_mem_corners.mpr
    ⟨rfl, hedge (cross_dot_left _ _), hedge (cross_dot_right _ _)⟩⟩

lemma along_unitNormal_ne_zero (hn : t.unitNormal? = some n) : n.along n.dominant ≠ 0 := by
  apply along_dominant_ne_zero
  rintro rfl
  simpa [dot] using (dot_unitNormal hn).1

lemma dot_of_flat (hone : n.dot n = 1) (ht : t.unitNormal? = some n₂)
    (hflat : ∀ q ∈ t.corners, n.dot q = c) (x : Vec ℝ) : n₂.dot x = n₂.dot n * n.dot x := by
  obtain ⟨-, r, rfl⟩ := unit_spec (by norm_num) ht
  obtain ⟨ha, hb, hc⟩ := forall_mem_corners.mp hflat
  have hedge {p : Vec ℝ} (hp : n.dot p = c) : (p - t.a).dot n = 0 := by
    rw [dot_comm, dot_sub, hp, ha, sub_self]
  exact dot_of_cross (cross_of_across (hedge hb) (hedge hc) r) hone x

lemma exists_shadow_ne (hn : t.unitNormal? = some n) (m : Axis) :
    ∃ u ∈ t.shadow m, ∃ v ∈ t.shadow m, u ≠ v := by
  by_contra h
  push Not at h
  have hall {p : Vec ℝ} (hp : p ∈ t.corners) : (p - t.a).onto m.others = ⟨0, 0⟩ := by
    have heq := h _ (List.mem_map_of_mem hp) _ (List.mem_map_of_mem (by simp [corners] : t.a ∈ _))
    rw [onto_sub, heq]
    exact congrArg₂ Vec2.mk (sub_self _) (sub_self _)
  have hnormal : t.normal = ⟨0, 0, 0⟩ :=
    cross_of_onto (hall (by simp [corners])) (hall (by simp [corners]))
  have hnorm : t.normal.norm = 0 := by
    rw [hnormal]
    simp [Vec.norm, dot, Scalar.sqrt]
  rw [unitNormal?, unit?, if_pos (by rw [hnorm]; norm_num)] at hn
  cases hn

structure Touching (s t : Triangle ℝ) (w : Vec ℝ) (c : ℝ) : Prop where
  below : ∀ p ∈ s.corners, w.dot p ≤ c
  above : ∀ q ∈ t.corners, c ≤ w.dot q
  meetsBelow : ∃ p ∈ s.corners, w.dot p = c
  meetsAbove : ∃ q ∈ t.corners, w.dot q = c

def Flush (s t : Triangle ℝ) (k : Axis) : Prop := ∃ h, ∀ p ∈ s.corners ++ t.corners, p.along k = h

lemma flush_of_dot (hr : r ≠ 0) (h : ∀ p ∈ s.corners ++ t.corners, (axial k r).dot p = c) :
    s.Flush t k := by
  refine ⟨c / r, fun p hp => ?_⟩
  rw [eq_div_iff hr, mul_comm, ← dot_axial, h p hp]

/-- Some corner lies off the plane of the other triangle, but so near that the test takes it to lie
on it. -/
def Snapped (s t : Triangle ℝ) (n₁ n₂ : Vec ℝ) (ε : ℝ) : Prop :=
  (∃ p ∈ s.corners, n₂.dot (p - t.a) ≠ 0 ∧ |n₂.dot (p - t.a)| < s.snap t ε) ∨
    ∃ q ∈ t.corners, n₁.dot (q - s.a) ≠ 0 ∧ |n₁.dot (q - s.a)| < s.snap t ε

def offsets (t : Triangle ℝ) (n o : Vec ℝ) : Triple ℝ := t.mapCorners fun p => n.dot (p - o)

lemma heights_of_not_snapped (h : ¬ Snapped s t n₁ n₂ ε) :
    s.heights t n₂ ε = s.offsets n₂ t.a ∧ t.heights s n₁ ε = t.offsets n₁ s.a := by
  obtain ⟨hs, ht⟩ := not_or.mp h
  have hkept {d least : ℝ} (h : ¬ (d ≠ 0 ∧ |d| < least)) :
      (if Scalar.abs d < least then 0 else d) = d := by
    rw [Scalar.abs_real]
    split
    · exact (not_not.mp fun hd => h ⟨hd, ‹_›⟩).symm
    · rfl
  constructor
  · rw [heights, snap_comm, distances]
    have hs (p : Vec ℝ) (hp : p ∈ s.corners) := hkept fun h => hs ⟨p, hp, h⟩
    obtain ⟨ha, hb, hc⟩ := forall_mem_corners.mp hs
    simp only [offsets, mapCorners, ha, hb, hc]
  · rw [heights, distances]
    have ht (q : Vec ℝ) (hq : q ∈ t.corners) := hkept fun h => ht ⟨q, hq, h⟩
    obtain ⟨ha, hb, hc⟩ := forall_mem_corners.mp ht
    simp only [offsets, mapCorners, ha, hb, hc]

section Meeting

variable {d : Triple ℝ} {i j : Corner}

def corner (t : Triangle ℝ) (i : Corner) : Vec ℝ := (t.mapCorners id).get i

lemma get_mapCorners {β : Type} (t : Triangle ℝ) (f : Vec ℝ → β) (i : Corner) :
    (t.mapCorners f).get i = f (t.corner i) := by
  cases i <;> rfl

lemma corner_mem (t : Triangle ℝ) (i : Corner) : t.corner i ∈ t.corners := by
  cases i <;> simp [corner, mapCorners, Triple.get, corners]

noncomputable def meeting (t : Triangle ℝ) (d : Triple ℝ) (i j : Corner) : Vec ℝ :=
  ⟨crossing (t.mapCorners (·.along .x)) d i j, crossing (t.mapCorners (·.along .y)) d i j,
    crossing (t.mapCorners (·.along .z)) d i j⟩

def IsMeeting (t : Triangle ℝ) (d : Triple ℝ) (p : Vec ℝ) : Prop :=
  ∃ i, d.lone? = some i ∧ (p = t.meeting d i i.others.1 ∨ p = t.meeting d i i.others.2)

lemma meeting_along (t : Triangle ℝ) (d : Triple ℝ) (i j : Corner) (k : Axis) :
    (t.meeting d i j).along k = crossing (t.mapCorners (·.along k)) d i j := by
  cases k <;> rfl

lemma dot_meeting (t : Triangle ℝ) (n : Vec ℝ) (d : Triple ℝ) (i j : Corner) :
    n.dot (t.meeting d i j) = crossing (t.mapCorners n.dot) d i j := by
  simp only [dot, meeting, crossing, get_mapCorners, along]
  ring

lemma exists_isMeeting {b : ℝ × ℝ} (h : span? t m d = some b) :
    (∃ p, IsMeeting t d p ∧ p.along m = b.1) ∧ ∃ p, IsMeeting t d p ∧ p.along m = b.2 := by
  obtain ⟨i, hi, rfl⟩ := Option.map_eq_some_iff.mp h
  have hp : IsMeeting t d (t.meeting d i i.others.1) := ⟨i, hi, Or.inl rfl⟩
  have hq : IsMeeting t d (t.meeting d i i.others.2) := ⟨i, hi, Or.inr rfl⟩
  dsimp only
  split
  · exact ⟨⟨_, hp, meeting_along _ _ _ _ _⟩, _, hq, meeting_along _ _ _ _ _⟩
  · exact ⟨⟨_, hq, meeting_along _ _ _ _ _⟩, _, hp, meeting_along _ _ _ _ _⟩

lemma forall_corners_iff {P : Vec ℝ → Prop} (i : Corner) :
    (∀ p ∈ t.corners, P p) ↔
      P (t.corner i) ∧ P (t.corner i.others.1) ∧ P (t.corner i.others.2) := by
  rw [forall_mem_corners]
  cases i
  · exact Iff.rfl
  · exact and_left_comm
  · constructor
    · rintro ⟨ha, hb, hc⟩
      exact ⟨hc, ha, hb⟩
    · rintro ⟨hc, ha, hb⟩
      exact ⟨ha, hb, hc⟩

lemma Triple.Straddles.others_ne_zero (hd : d.Straddles (ε * ε)) (i : Corner) :
    d.get i.others.1 ≠ 0 ∨ d.get i.others.2 ≠ 0 := by
  by_contra h
  obtain ⟨h₁, h₂⟩ := not_or.mp h
  have hε := mul_self_nonneg ε
  cases i <;> simp_all [Triple.get, Corner.others, Triple.Straddles] <;> linarith

lemma IsMeeting.exists_share {p : Vec ℝ} (hd : d.Straddles (ε * ε)) (h : IsMeeting t d p) :
    ∃ i j r, 0 < r ∧ r ≤ 1 ∧ d.get i + (d.get j - d.get i) * r = 0 ∧ ∀ n : Vec ℝ,
      n.dot p = n.dot (t.corner i) + (n.dot (t.corner j) - n.dot (t.corner i)) * r := by
  have hshare {i j : Corner} (hne : d.get i ≠ 0) (hij : d.get i * d.get j ≤ 0)
      (hp : p = t.meeting d i j) :
      ∃ i j r, 0 < r ∧ r ≤ 1 ∧ d.get i + (d.get j - d.get i) * r = 0 ∧ ∀ n : Vec ℝ,
        n.dot p = n.dot (t.corner i) + (n.dot (t.corner j) - n.dot (t.corner i)) * r := by
    obtain ⟨r, hpos, hle, -, hzero, hcross⟩ := Triangle.exists_share hne hij
    refine ⟨i, j, r, hpos, hle, hzero, fun n => ?_⟩
    rw [hp, dot_meeting, hcross, get_mapCorners, get_mapCorners]
  obtain ⟨i, hi, hp⟩ := h
  obtain ⟨hne, h₁, h₂⟩ := lone_opposite hd hi
  exact hp.elim (hshare hne h₁) (hshare hne h₂)

namespace IsMeeting

variable {p o : Vec ℝ}

lemma dot_le (hd : d.Straddles (ε * ε)) (h : IsMeeting t d p)
    (hle : ∀ q ∈ t.corners, w.dot q ≤ c) : w.dot p ≤ c := by
  obtain ⟨i, j, r, hpos, hr, -, hdot⟩ := h.exists_share hd
  have hi := hle _ (t.corner_mem i)
  have hj := hle _ (t.corner_mem j)
  rw [hdot]
  nlinarith

lemma dot_eq (hd : d.Straddles (ε * ε)) (h : IsMeeting t d p)
    (heq : ∀ q ∈ t.corners, w.dot q = c) : w.dot p = c := by
  obtain ⟨i, j, r, -, -, -, hdot⟩ := h.exists_share hd
  rw [hdot, heq _ (t.corner_mem i), heq _ (t.corner_mem j), sub_self, zero_mul, add_zero]

lemma dot_eq_of_offsets (hd : (t.offsets n o).Straddles (ε * ε))
    (h : IsMeeting t (t.offsets n o) p) : n.dot p = n.dot o := by
  obtain ⟨i, j, r, -, -, hzero, hdot⟩ := h.exists_share hd
  rw [offsets, get_mapCorners, get_mapCorners, dot_sub, dot_sub] at hzero
  rw [hdot]
  linarith

end IsMeeting

lemma eq_of_meetings {i : Corner} (hd : d.Straddles (ε * ε)) (hi : d.lone? = some i)
    (hle : ∀ p ∈ t.corners, w.dot p ≤ c) (hm : ∀ p, IsMeeting t d p → w.dot p = c) :
    ∀ p ∈ t.corners, w.dot p = c := by
  obtain ⟨hne, h₁, h₂⟩ := lone_opposite hd hi
  have hedge {j : Corner} (hij : d.get i * d.get j ≤ 0) (hj : IsMeeting t d (t.meeting d i j)) :
      w.dot (t.corner j) = c ∧ (d.get j ≠ 0 → w.dot (t.corner i) = c) := by
    obtain ⟨r, hpos, hle', hlt, -, hcross⟩ := exists_share hne hij
    have hmj := hm _ hj
    rw [dot_meeting, hcross, get_mapCorners, get_mapCorners] at hmj
    have hi := hle _ (t.corner_mem i)
    have hj := hle _ (t.corner_mem j)
    have hj' : w.dot (t.corner j) = c := by
      by_contra hne
      nlinarith [hj.lt_of_ne hne]
    refine ⟨hj', fun hj => ?_⟩
    rw [hj'] at hmj
    have hr := hlt hj
    by_contra hne
    nlinarith [hi.lt_of_ne hne]
  have hp := hedge h₁ ⟨i, hi, Or.inl rfl⟩
  have hq := hedge h₂ ⟨i, hi, Or.inr rfl⟩
  exact (forall_corners_iff i).mpr
    ⟨(hd.others_ne_zero i).elim hp.2 hq.2, hp.1, hq.1⟩

lemma cross_ne_zero (ht : t.unitNormal? = some n₂)
    (hd : (t.offsets n₁ s.a).Straddles (ε * ε)) : n₁.cross n₂ ≠ ⟨0, 0, 0⟩ := by
  intro hcross
  obtain ⟨hone, hplane⟩ := dot_unitNormal ht
  have hsame : ∀ q ∈ t.corners, n₁.dot (q - s.a) = n₁.dot (t.a - s.a) := by
    intro q hq
    rw [dot_sub, dot_sub, dot_of_cross hcross hone q, dot_of_cross hcross hone t.a, hplane q hq]
  obtain ⟨-, hb, hc⟩ := forall_mem_corners.mp hsame
  have hε := mul_self_nonneg ε
  have hsq := mul_self_nonneg (n₁.dot (t.a - s.a))
  simp only [offsets, mapCorners, Triple.Straddles, hb, hc, or_self] at hd
  linarith

lemma exists_slope (hs : s.unitNormal? = some n₁) (ht : t.unitNormal? = some n₂)
    (hds : (s.offsets n₂ t.a).Straddles (ε * ε)) (hdt : (t.offsets n₁ s.a).Straddles (ε * ε))
    (w : Vec ℝ) : ∃ r, ∀ p q, IsMeeting s (s.offsets n₂ t.a) p → IsMeeting t (t.offsets n₁ s.a) q →
      w.dot p - w.dot q =
        (p.along (n₁.cross n₂).dominant - q.along (n₁.cross n₂).dominant) * r := by
  have hline := along_dominant_ne_zero (cross_ne_zero ht hdt)
  obtain ⟨-, hplane⟩ := dot_unitNormal hs
  obtain ⟨-, hplane'⟩ := dot_unitNormal ht
  refine ⟨w.dot (n₁.cross n₂) / (n₁.cross n₂).along (n₁.cross n₂).dominant, fun p q hp hq => ?_⟩
  have h₁ : n₁.dot (p - q) = 0 := by
    rw [dot_sub, hp.dot_eq hds hplane, hq.dot_eq_of_offsets hdt, sub_self]
  have h₂ : n₂.dot (p - q) = 0 := by
    rw [dot_sub, hp.dot_eq_of_offsets hds, hq.dot_eq hdt hplane', sub_self]
  have hpq := dot_of_across h₁ h₂ w (n₁.cross n₂).dominant
  rw [dot_sub, along_sub] at hpq
  rw [mul_div_assoc', eq_div_iff hline, hpq]

end Meeting

namespace Touching

lemma swap (h : Touching s t w c) : Touching t s (w.scale (-1)) (-c) := by
  have hneg := flipped_dot w
  constructor
  · exact fun q hq => (hneg q).trans_le (neg_le_neg (h.above q hq))
  · exact fun p hp => (neg_le_neg (h.below p hp)).trans_eq (hneg p).symm
  · obtain ⟨q, hq, hqc⟩ := h.meetsAbove
    exact ⟨q, hq, (hneg q).trans (congrArg _ hqc)⟩
  · obtain ⟨p, hp, hpc⟩ := h.meetsBelow
    exact ⟨p, hp, (hneg p).trans (congrArg _ hpc)⟩

lemma tilt (h : Touching s t w c) {d : ℝ} (hs : ∀ p ∈ s.corners, r * n.dot p = d)
    (ht : ∀ q ∈ t.corners, r * n.dot q = d) : Touching s t (w - n.scale r) (c - d) := by
  have hs (p : Vec ℝ) (hp : p ∈ s.corners) : (w - n.scale r).dot p = w.dot p - d := by
    rw [sub_scale_dot, hs p hp]
  have ht (q : Vec ℝ) (hq : q ∈ t.corners) : (w - n.scale r).dot q = w.dot q - d := by
    rw [sub_scale_dot, ht q hq]
  constructor
  · exact fun p hp => (hs p hp).trans_le (sub_le_sub_right (h.below p hp) d)
  · exact fun q hq => (sub_le_sub_right (h.above q hq) d).trans_eq (ht q hq).symm
  · obtain ⟨p, hp, hpc⟩ := h.meetsBelow
    exact ⟨p, hp, (hs p hp).trans (congrArg (· - d) hpc)⟩
  · obtain ⟨q, hq, hqc⟩ := h.meetsAbove
    exact ⟨q, hq, (ht q hq).trans (congrArg (· - d) hqc)⟩

lemma not_shadowsOverlap (h : Touching s t w c) (hε : 0 ≤ ε) (hw : w ≠ ⟨0, 0, 0⟩)
    (hm : w.along m = 0) (hn : s.unitNormal? = some n) (hlong : ¬ HasShortShadow s t m) :
    ¬ ShadowsOverlap s t m ε := by
  have hshadow (p : Vec ℝ) : (p.onto m.others).dot (w.onto m.others) = w.dot p := dot_onto hm p
  have hwide : (w.onto m.others).dot (w.onto m.others) ≠ 0 := by
    rw [hshadow]
    exact fun hzero => hw (eq_zero_of_dot_self hzero)
  refine not_shadowsOverlap_of_touching (w := w.onto m.others) (c := c) hε hwide ?_ ?_ ?_ ?_
    (exists_shadow_ne hn m) hlong
  · exact List.forall_mem_map.mpr fun p hp => (hshadow p).trans_le (h.below p hp)
  · exact List.forall_mem_map.mpr fun q hq => (h.above q hq).trans_eq (hshadow q).symm
  · obtain ⟨p, hp, hpc⟩ := h.meetsBelow
    exact ⟨_, List.mem_map_of_mem hp, (hshadow p).trans hpc⟩
  · obtain ⟨q, hq, hqc⟩ := h.meetsAbove
    exact ⟨_, List.mem_map_of_mem hq, (hshadow q).trans hqc⟩

lemma flush_of_inPlane (h : Touching s t (axial k r) c) (hr : r ≠ 0) (hε : 0 ≤ ε)
    (hn : s.unitNormal? = some n) (hflat : ∀ q ∈ t.corners, n.dot q = n.dot s.a)
    (hlong : ¬ HasShortShadow s t n.dominant) (hover : ShadowsOverlap s t n.dominant ε) :
    s.Flush t k := by
  obtain ⟨-, hs⟩ := dot_unitNormal hn
  have hzero := along_unitNormal_ne_zero hn
  -- tilted about the common plane, the touched plane has no part along the dominant axis
  let q : ℝ := (axial k r).along n.dominant / n.along n.dominant
  have htilt : Touching s t (axial k r - n.scale q) (c - q * n.dot s.a) :=
    h.tilt (fun p hp => congrArg _ (hs p hp)) fun p hp => congrArg _ (hflat p hp)
  have halong : (axial k r - n.scale q).along n.dominant = 0 := by
    rw [sub_scale_along, mul_div_cancel₀ _ hzero, sub_self]
  have hsame : axial k r - n.scale q = ⟨0, 0, 0⟩ := by
    by_contra hne
    exact htilt.not_shadowsOverlap hε hne halong hn hlong hover
  refine flush_of_dot (c := q * n.dot s.a) hr fun p hp => ?_
  have hp : n.dot p = n.dot s.a := (List.mem_append.mp hp).elim (hs p) (hflat p)
  have hdot := sub_scale_dot (axial k r) n p q
  have hnone : (⟨0, 0, 0⟩ : Vec ℝ).dot p = 0 := by simp [dot]
  rw [hsame, hp, hnone] at hdot
  exact sub_eq_zero.mp hdot.symm

lemma eq_of_onLine (h : Touching s t w c) (hε : 0 ≤ ε) (hs : s.unitNormal? = some n₁)
    (ht : t.unitNormal? = some n₂) {o : ℝ} (hds : (s.offsets n₂ t.a).Straddles (ε * ε))
    (hdt : (t.offsets n₁ s.a).Straddles (ε * ε))
    (hspan : SpansOverlap s t (n₁.cross n₂).dominant (s.offsets n₂ t.a) (t.offsets n₁ s.a) o ε) :
    ∀ p ∈ s.corners ++ t.corners, w.dot p = c := by
  obtain ⟨r, hr⟩ := exists_slope hs ht hds hdt w
  have hbelow {p : Vec ℝ} (hp : IsMeeting s (s.offsets n₂ t.a) p) : w.dot p ≤ c :=
    hp.dot_le hds h.below
  have habove {q : Vec ℝ} (hq : IsMeeting t (t.offsets n₁ s.a) q) : c ≤ w.dot q := by
    have hle := hq.dot_le hdt h.swap.below
    rw [flipped_dot] at hle
    exact neg_le_neg_iff.mp hle
  obtain ⟨i, j, hi, hj, hij, hji, hfar, hfar'⟩ := hspan
  obtain ⟨⟨p, hp, hpi⟩, p', hp', hpi'⟩ := exists_isMeeting hi
  obtain ⟨⟨q, hq, hqj⟩, q', hq', hqj'⟩ := exists_isMeeting hj
  have hflat : r = 0 := by
    by_contra hne
    rcases lt_or_gt_of_ne hne with hneg | hpos
    · have hle : (i.1 - j.2) * r ≤ 0 := by
        rw [← hpi, ← hqj', ← hr p q' hp hq']
        linarith [hbelow hp, habove hq']
      have heq : j.2 = i.1 :=
        le_antisymm (sub_nonneg.mp (nonneg_of_mul_nonpos_left hle hneg)) hji
      exact hfar' (heq ▸ close_self _ hε)
    · have hle : (i.2 - j.1) * r ≤ 0 := by
        rw [← hpi', ← hqj, ← hr p' q hp' hq]
        linarith [hbelow hp', habove hq]
      have heq : i.2 = j.1 :=
        le_antisymm (sub_nonpos.mp (nonpos_of_mul_nonpos_left hle hpos)) hij
      exact hfar (heq ▸ close_self _ hε)
  have hsame {p q : Vec ℝ} (hp : IsMeeting s (s.offsets n₂ t.a) p)
      (hq : IsMeeting t (t.offsets n₁ s.a) q) : w.dot p = w.dot q := by
    have hpq := hr p q hp hq
    rw [hflat, mul_zero] at hpq
    exact sub_eq_zero.mp hpq
  obtain ⟨_, hlone, -⟩ := id hp
  obtain ⟨_, hlone', -⟩ := id hq
  intro v hv
  rcases List.mem_append.mp hv with hv | hv
  · refine eq_of_meetings hds hlone h.below (fun p hp => ?_) v hv
    exact le_antisymm (hbelow hp) ((habove hq).trans_eq (hsame hp hq).symm)
  · have hneg := eq_of_meetings hdt hlone' h.swap.below (fun q hq => ?_) v hv
    · rw [flipped_dot] at hneg
      exact neg_inj.mp hneg
    · rw [flipped_dot]
      exact congrArg _ (le_antisymm ((hsame hp hq).symm.trans_le (hbelow hp)) (habove hq))

end Touching

end Triangle

end SolidClash
