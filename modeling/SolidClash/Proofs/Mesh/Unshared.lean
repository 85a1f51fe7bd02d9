import Mathlib
import SolidClash.Proofs.Mesh.Relisted
import SolidClash.Proofs.Weld.Scan

/-! Surfaces whose corners are copied and jittered. Copies of one point are welded and copies of two
points are not, so every copy gets the number of its original, and the half-edges are the same. -/

namespace SolidClash

namespace Vec.Within

variable {ε ε' : ℝ} {p q r : Vec ℝ}

lemma symm (h : p.Within ε q) : q.Within ε p := by
  simpa only [Within, abs_sub_comm] using h

lemma trans (h : p.Within ε q) (h' : q.Within ε' r) : p.Within (ε + ε') r := by
  have step {x y z : ℝ} (hxy : |y - x| ≤ ε) (hyz : |z - y| ≤ ε') : |z - x| ≤ ε + ε' := by
    have := abs_sub_le z y x
    linarith
  exact ⟨step h.1 h'.1, step h.2.1 h'.2.1, step h.2.2 h'.2.2⟩

lemma mono (h : p.Within ε q) (hε : ε ≤ ε') : p.Within ε' q :=
  ⟨h.1.trans hε, h.2.1.trans hε, h.2.2.trans hε⟩

end Vec.Within

namespace Weld

structure Alike (ε : ℝ) (R : Vec ℝ → Vec ℝ → Prop) (w w' : Weld ℝ) : Prop where
  filed : w.Filed
  filed' : w'.Filed
  tolerance : w.tolerance = ε
  tolerance' : w'.tolerance = ε
  points : List.Forall₂ R w.points.toList w'.points.toList

variable {ε : ℝ} {R : Vec ℝ → Vec ℝ → Prop} {w w' : Weld ℝ} {p p' : Vec ℝ}

lemma alike_new (ε : ℝ) (R : Vec ℝ → Vec ℝ → Prop) : Alike ε R (new ε) (new ε) :=
  ⟨filed_new ε, filed_new ε, rfl, rfl, .nil⟩

lemma exists_getElem?_of_forall₂ {l l' : List (Vec ℝ)} (h : List.Forall₂ R l l') {i : ℕ}
    {q : Vec ℝ} (hq : l[i]? = some q) : ∃ q', l'[i]? = some q' ∧ R q q' := by
  obtain ⟨hi, rfl⟩ := List.getElem?_eq_some_iff.mp hq
  have hi' := h.length_eq ▸ hi
  exact ⟨_, List.getElem?_eq_getElem hi', h.get hi hi'⟩

def Respects (ε : ℝ) (R : Vec ℝ → Vec ℝ → Prop) : Prop :=
  ∀ ⦃p p' q q'⦄, R p p' → R q q' → (p.Within ε q ↔ p'.Within ε q')

lemma Alike.find?_eq (h : Alike ε R w w') (hR : Respects ε R) (hp : R p p') :
    w.find? p = w'.find? p' := by
  have hsets : {i : ℕ | ∃ q, w.points[i]? = some q ∧ p.Within w.tolerance q} =
      {i : ℕ | ∃ q, w'.points[i]? = some q ∧ p'.Within w'.tolerance q} := by
    rw [h.tolerance, h.tolerance']
    ext i
    simp only [Set.mem_ofPred_eq, ← Array.getElem?_toList]
    constructor
    · rintro ⟨q, hq, hpq⟩
      obtain ⟨q', hq', hR'⟩ := exists_getElem?_of_forall₂ h.points hq
      exact ⟨q', hq', (hR hp hR').mp hpq⟩
    · rintro ⟨q', hq', hpq⟩
      obtain ⟨q, hq, hR'⟩ := exists_getElem?_of_forall₂ (List.Forall₂.flip h.points) hq'
      exact ⟨q, hq, (hR hp hR').mpr hpq⟩
  ext id
  rw [h.filed.find?_eq_some_iff, h.filed'.find?_eq_some_iff, hsets]

lemma Alike.insert (h : Alike ε R w w') (hR : Respects ε R) (hp : R p p') :
    (w.insert p).1 = (w'.insert p').1 ∧ Alike ε R (w.insert p).2 (w'.insert p').2 := by
  rw [Weld.insert, Weld.insert, h.find?_eq hR hp]
  cases w'.find? p' with
  | some id => exact ⟨rfl, h⟩
  | none =>
    refine ⟨by simpa using h.points.length_eq, h.filed.push p, h.filed'.push p', h.tolerance,
      h.tolerance', ?_⟩
    simp only [points_push, Array.toList_push]
    exact List.rel_append h.points (.cons hp .nil)

lemma Alike.insertAll {ps ps' : List (Vec ℝ)} (h : Alike ε R w w') (hR : Respects ε R)
    (hps : List.Forall₂ R ps ps') : (w.insertAll ps).1 = (w'.insertAll ps').1 := by
  induction hps generalizing w w' with
  | nil => rfl
  | cons hp _ ih =>
    obtain ⟨hid, hw⟩ := h.insert hR hp
    simp only [Weld.insertAll, hid, ih hw]

end Weld

def Triangle.Within (δ : ℝ) (t t' : Triangle ℝ) : Prop :=
  t.a.Within δ t'.a ∧ t.b.Within δ t'.b ∧ t.c.Within δ t'.c

namespace Mesh

variable {δ : ℝ} {ts ts' : List (Triangle ℝ)}

lemma respects_copies {ε : ℝ} {ps : List (Vec ℝ)} (hδ : δ + δ ≤ ε)
    (hapart : ∀ p ∈ ps, ∀ q ∈ ps, p.Within (δ + ε + δ) q → p = q) :
    Weld.Respects ε fun p p' => p ∈ ps ∧ p.Within δ p' := by
  rintro p p' q q' ⟨hp, hpp'⟩ ⟨hq, hqq'⟩
  have hδ₀ : 0 ≤ δ := (abs_nonneg _).trans hpp'.1
  -- on either side only copies of one point are near each other
  constructor
  · intro h
    obtain rfl := hapart p hp q hq (h.mono (by linarith))
    exact (hpp'.symm.trans hqq').mono hδ
  · intro h
    obtain rfl := hapart p hp q hq ((hpp'.trans h).trans hqq'.symm)
    simp [Vec.Within, (add_nonneg hδ₀ hδ₀).trans hδ]

lemma forall₂_corners (h : List.Forall₂ (Triangle.Within δ) ts ts') :
    List.Forall₂ (fun p p' => p ∈ ts.flatMap Triangle.corners ∧ p.Within δ p')
      (ts.flatMap Triangle.corners) (ts'.flatMap Triangle.corners) := by
  rw [List.forall₂_and_left]
  refine ⟨fun _ hp => hp, List.rel_flatMap h fun t t' ht => ?_⟩
  exact .cons ht.1 (.cons ht.2.1 (.cons ht.2.2 .nil))

lemma weldedCorners_of_copies (hδ : δ + δ ≤ weldTolerance)
    (hapart : ∀ p ∈ ts.flatMap Triangle.corners, ∀ q ∈ ts.flatMap Triangle.corners,
      p.Within (δ + weldTolerance + δ) q → p = q)
    (h : List.Forall₂ (Triangle.Within δ) ts ts') : weldedCorners ts' = weldedCorners ts :=
  ((Weld.alike_new _ _).insertAll (respects_copies hδ hapart) (forall₂_corners h)).symm

/-- Each corner becomes a copy of its own, a little displaced. If different corners are far enough
apart, the surface stays closed, open or undecodable, whatever corners it shared. -/
theorem closedness_of_copies {m m' : Mesh ℝ}
    (hapart : ∀ p ∈ m.triangles.flatMap Triangle.corners,
      ∀ q ∈ m.triangles.flatMap Triangle.corners, p ≠ q →
        2e-8 < |q.x - p.x| ∨ 2e-8 < |q.y - p.y| ∨ 2e-8 < |q.z - p.z|)
    (hcopies : List.Forall₂ (Triangle.Within 5e-9) m.triangles m'.triangles)
    (hdecoded : m'.undecodable = 0 ↔ m.undecodable = 0) : m'.closedness = m.closedness := by
  have hwelded : weldedCorners m'.triangles = weldedCorners m.triangles := by
    refine weldedCorners_of_copies (by norm_num [weldTolerance]) (fun p hp q hq hpq => ?_) hcopies
    by_contra hne
    have hwide : p.Within 2e-8 q := hpq.mono (by norm_num [weldTolerance])
    rcases hapart p hp q hq hne with h | h | h
    · exact hwide.1.not_gt h
    · exact hwide.2.1.not_gt h
    · exact hwide.2.2.not_gt h
  have hempty : m'.triangles.isEmpty = m.triangles.isEmpty := by
    rw [Bool.eq_iff_iff, List.isEmpty_iff_length_eq_zero, List.isEmpty_iff_length_eq_zero,
      hcopies.length_eq]
  have hwatertight : isWatertight m'.triangles = isWatertight m.triangles := by
    rw [isWatertight, isWatertight, hwelded, hempty]
  have hdropped : 0 < m'.undecodable ↔ 0 < m.undecodable := by
    rw [Nat.pos_iff_ne_zero, Nat.pos_iff_ne_zero, ne_eq, hdecoded]
  rw [closedness, closedness, hwatertight]
  exact if_congr hdropped rfl rfl

lemma corners_folded : [face, face.back].flatMap Triangle.corners ⊆ face.corners := by
  simp [Triangle.corners, Triangle.back]

lemma isWatertight_folded : isWatertight [face, face.back] = true := by
  obtain ⟨hab, hbc, hca⟩ := number_face [face, face.back] List.mem_cons_self corners_folded
  have hes : (weldedEdges [face, face.back]).Nodup := by
    rw [weldedEdges_eq_map, sides_of_two]
    exact nodup_folded hab hbc hca
  rw [isWatertight_eq_true, isEmpty_foldl_pairUp_of_nodup hes, weldedEdges_eq_map, sides_of_two]
  exact ⟨by simp, swap_mem_folded hab hbc hca⟩

noncomputable def folded : Mesh ℝ :=
  ofBuffers [0, 1, 2, 0, 2, 1] [0, 0, 0, 1, 0, 0, 0, 1, 0] none 1

noncomputable def unshared : Mesh ℝ :=
  ofTriangles [⟨⟨5e-9, 0, 0⟩, ⟨1, -5e-9, 0⟩, ⟨0, 1, 0⟩⟩,
    ⟨⟨-5e-9, 0, 0⟩, ⟨0, 1, 3e-9⟩, ⟨1, 5e-9, 0⟩⟩]

lemma corner?_real (points : Array (Vec ℝ)) (i : UInt32) :
    corner? points i = points[i.toNat]? := by
  rw [corner?]
  cases points[i.toNat]? <;> simp [Vec.IsFinite, Scalar.isFinite]

lemma triangles_folded : folded.triangles = [face, face.back] := by
  simp [folded, ofBuffers, triples, pointsOf, face?, corner?_real, triangles, face, Triangle.back,
    Vec.scale, Vec.map]

lemma triangles_unshared : unshared.triangles =
    [⟨⟨5e-9, 0, 0⟩, ⟨1, -5e-9, 0⟩, ⟨0, 1, 0⟩⟩,
      ⟨⟨-5e-9, 0, 0⟩, ⟨0, 1, 3e-9⟩, ⟨1, 5e-9, 0⟩⟩] := rfl

theorem closedness_of_copies_folded :
    folded.points.size = 3 ∧ unshared.points.size = 6 ∧
      folded.closedness = .closed ∧ unshared.closedness = .closed := by
  have hcopies : List.Forall₂ (Triangle.Within 5e-9) folded.triangles unshared.triangles := by
    rw [triangles_folded, triangles_unshared]
    norm_num [Triangle.Within, Vec.Within, face, Triangle.back, abs_le]
  have hapart : ∀ p ∈ folded.triangles.flatMap Triangle.corners,
      ∀ q ∈ folded.triangles.flatMap Triangle.corners, p ≠ q →
        2e-8 < |q.x - p.x| ∨ 2e-8 < |q.y - p.y| ∨ 2e-8 < |q.z - p.z| := by
    intro p hp q hq
    rw [triangles_folded] at hp hq
    replace hp := corners_folded hp
    replace hq := corners_folded hq
    simp only [face, Triangle.corners, List.mem_cons, List.not_mem_nil, or_false] at hp hq
    rcases hp with rfl | rfl | rfl <;> rcases hq with rfl | rfl | rfl <;> norm_num
  have hdropped : folded.undecodable = 0 := by
    simp [folded, ofBuffers, triples, pointsOf, face?, corner?_real]
  have hclosed : folded.closedness = .closed := by
    rw [closedness, hdropped, triangles_folded, isWatertight_folded]
    rfl
  have hsame := closedness_of_copies hapart hcopies (iff_of_true rfl hdropped)
  exact ⟨by simp [folded, ofBuffers, pointsOf], by simp [unshared, ofTriangles, Triangle.corners],
    hclosed, hsame.trans hclosed⟩

end Mesh

end SolidClash
