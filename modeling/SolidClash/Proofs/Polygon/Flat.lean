import SolidClash.Polygon.Triangulation
import SolidClash.Proofs.Polygon.Convex
import SolidClash.Proofs.Polygon.Normal

namespace SolidClash.Polygon

open Vec Vec2

variable {ps : List (Vec ℝ)} {n : Vec ℝ}

section Onto

variable {p q : Vec ℝ}

lemma turn_onto (n a b c : Vec ℝ) :
    turn (a.onto (axesAlong n)) (b.onto (axesAlong n)) (c.onto (axesAlong n)) =
      if n.along n.dominant < 0 then -((b - a).cross (c - a)).along n.dominant
      else ((b - a).cross (c - a)).along n.dominant := by
  simp only [turn, onto, axesAlong, along_cross, along_sub]
  split <;> ring

lemma exists_turn_onto (hn : n ≠ 0) : ∃ r, 0 < r ∧ ∀ a b c, n.dot a = n.dot b → n.dot a = n.dot c →
    turn (a.onto (axesAlong n)) (b.onto (axesAlong n)) (c.onto (axesAlong n)) =
      r * n.dot ((b - a).cross (c - a)) := by
  have hk : n.along n.dominant ≠ 0 := along_dominant_ne_zero hn
  have hlong := dot_self_pos hn
  refine ⟨|n.along n.dominant| / n.dot n, div_pos (abs_pos.mpr hk) hlong, fun a b c hb hc => ?_⟩
  have hacross {x : Vec ℝ} (hx : n.dot a = n.dot x) : (x - a).dot n = 0 := by
    rw [Vec.dot_comm, dot_sub, hx, sub_self]
  have halong := dot_of_across (hacross hb) (hacross hc) n n.dominant
  rw [turn_onto, div_mul_eq_mul_div, eq_div_iff hlong.ne']
  split
  · rw [abs_of_neg ‹_›]
    linarith
  · rw [abs_of_nonneg (not_lt.mp ‹_›)]
    linarith

lemma eq_of_onto_axesAlong (hn : n ≠ 0) (hpq : n.dot p = n.dot q)
    (h : p.onto (axesAlong n) = q.onto (axesAlong n)) : p = q := by
  apply eq_of_onto (along_dominant_ne_zero hn) hpq
  have hboth : p.along n.dominant.next = q.along n.dominant.next ∧
      p.along n.dominant.next.next = q.along n.dominant.next.next := by
    simp only [onto, axesAlong, Vec2.mk.injEq] at h
    split at h
    · exact h.symm
    · exact h
  cases hk : n.dominant <;> simp only [hk, Axis.next] at hboth
  · exact congrArg₂ Vec2.mk hboth.1 hboth.2
  · exact congrArg₂ Vec2.mk hboth.2 hboth.1
  · exact congrArg₂ Vec2.mk hboth.1 hboth.2

end Onto

noncomputable def edgePoint (ps : List (Vec ℝ)) (i : ℕ) (r : ℝ) : Vec ℝ :=
  vertex ps i + (vertex ps (i + 1) - vertex ps i).scale r

def IsSimple (ps : List (Vec ℝ)) : Prop :=
  ∀ i < ps.length, ∀ j < ps.length, ∀ r s, 0 ≤ r → r < 1 → 0 ≤ s → s < 1 →
    edgePoint ps i r = edgePoint ps j s → i = j

noncomputable def bend (ps : List (Vec ℝ)) (i : ℕ) : Vec ℝ :=
  (vertex ps (i + 1) - vertex ps i).cross (vertex ps (i + 2) - vertex ps (i + 1))

structure IsLevel (ps : List (Vec ℝ)) (n : Vec ℝ) : Prop where
  ne_zero : n ≠ 0
  dot_eq : ∀ p ∈ ps, ∀ q ∈ ps, n.dot p = n.dot q

noncomputable def shadow (ps : List (Vec ℝ)) (n : Vec ℝ) (i : ℕ) : Vec2 ℝ :=
  (vertex ps i).onto (axesAlong n)

lemma along_edgePoint (ps : List (Vec ℝ)) (i : ℕ) (r : ℝ) (k : Axis) :
    (edgePoint ps i r).along k =
      (vertex ps i).along k + ((vertex ps (i + 1)).along k - (vertex ps i).along k) * r := by
  rw [edgePoint, along_add, along_scale, along_sub]

lemma onto_edgePoint (i : ℕ) (r : ℝ) : (edgePoint ps i r).onto (axesAlong n) =
    toward (shadow ps n i) (shadow ps n (i + 1)) r := by
  simp only [onto, along_edgePoint, shadow, toward]

lemma edgePoint_mod (ps : List (Vec ℝ)) (i : ℕ) (r : ℝ) :
    edgePoint ps (i % ps.length) r = edgePoint ps i r := by
  simp only [edgePoint, vertex, Nat.mod_add_mod, Nat.mod_mod]

lemma bend_mod (ps : List (Vec ℝ)) (i : ℕ) : bend ps (i % ps.length) = bend ps i := by
  simp only [bend, vertex, Nat.mod_add_mod, Nat.mod_mod]

lemma bend_eq (ps : List (Vec ℝ)) (i : ℕ) : bend ps i = (face ps (i, i + 1, i + 2)).normal := by
  apply eq_of_along
  intro k
  simp only [bend, face, SolidClash.Triangle.normal, along_cross, along_sub]
  ring

section Level

variable (hlevel : IsLevel ps n) (hps : ps ≠ [])

include hlevel hps

lemma dot_vertex (i j : ℕ) : n.dot (vertex ps i) = n.dot (vertex ps j) :=
  hlevel.dot_eq _ (vertex_mem hps i) _ (vertex_mem hps j)

lemma dot_edgePoint (i : ℕ) (r : ℝ) : n.dot (edgePoint ps i r) = n.dot (vertex ps 0) := by
  have hedge : n.dot (vertex ps (i + 1) - vertex ps i) = 0 := by
    rw [dot_sub, dot_vertex hlevel hps (i + 1) i, sub_self]
  rw [edgePoint, dot_add, Vec.dot_comm n (scale _ r), scale_dot, Vec.dot_comm _ n, hedge, mul_zero,
    add_zero, dot_vertex hlevel hps i 0]

lemma isRing_shadow (hsimple : IsSimple ps) : IsRing ps.length (shadow ps n) where
  round i := by rw [shadow, vertex_periodic, shadow]
  simple {i j r s} hr hr' hs hs' heq := by
    have hlen : 0 < ps.length := List.length_pos_iff.mpr hps
    rw [← onto_edgePoint, ← onto_edgePoint] at heq
    apply hsimple _ (Nat.mod_lt i hlen) _ (Nat.mod_lt j hlen) r s hr hr' hs hs'
    rw [edgePoint_mod, edgePoint_mod]
    apply eq_of_onto_axesAlong hlevel.ne_zero _ heq
    rw [dot_edgePoint hlevel hps, dot_edgePoint hlevel hps]

lemma exists_turn_shadow : ∃ r, 0 < r ∧
    ∀ i j k, turnAt (shadow ps n) i j k = r * n.dot (face ps (i, j, k)).normal := by
  obtain ⟨r, hr, hturn⟩ := exists_turn_onto hlevel.ne_zero
  exact ⟨r, hr, fun i j k => hturn _ _ _ (dot_vertex hlevel hps i j) (dot_vertex hlevel hps i k)⟩

lemma face_normal_nonneg (hsimple : IsSimple ps) (hbend : ∀ i, 0 ≤ n.dot (bend ps i)) {i j k : ℕ}
    (hij : i < j) (hjk : j < k) (hk : k < ps.length) :
    0 ≤ n.dot (face ps (i, j, k)).normal := by
  obtain ⟨r, hr, hturn⟩ := exists_turn_shadow hlevel hps
  have hconvex : IsConvexRing ps.length (shadow ps n) := by
    apply isConvexRing_of_turns (isRing_shadow hlevel hps hsimple)
    intro i
    rw [hturn, ← bend_eq]
    exact mul_nonneg hr.le (hbend i)
  have hijk := hconvex i j k hij hjk hk
  rw [hturn] at hijk
  exact nonneg_of_mul_nonneg_right hijk hr

end Level

lemma IsLevel.neg (h : IsLevel ps n) : IsLevel ps (-n) where
  ne_zero hn := h.ne_zero (neg_eq_zero.mp hn)
  dot_eq p hp q hq := by rw [neg_dot, neg_dot, h.dot_eq p hp q hq]

def BendsOneWay (ps : List (Vec ℝ)) (n : Vec ℝ) : Prop :=
  (∀ i, 0 ≤ n.dot (bend ps i)) ∨ ∀ i, n.dot (bend ps i) ≤ 0

lemma flatten_rotate (ps : List (Vec ℝ)) (n : Vec ℝ) (k : ℕ) :
    (flatten ps n).rotate k = flatten (ps.rotate k) n := (List.map_rotate _ ps k).symm

lemma turns_flatten (h : 2 ≤ ps.length) : turns (flatten ps n) =
    (List.range ps.length).map fun i => turnAt (shadow ps n) i (i + 1) (i + 2) := by
  have hread {k : ℕ} (hk : k ≤ ps.length) :
      (flatten ps n).drop k ++ (flatten ps n).take k = flatten (ps.rotate k) n := by
    rw [← flatten_rotate]
    exact readFrom_eq_rotate (by rwa [flatten, List.length_map])
  simp only [turns, hread h, hread (one_le_two.trans h)]
  apply List.ext_getElem
  · simp [flatten]
  · intro i hi hi'
    rw [List.length_map, List.length_range] at hi'
    simp only [flatten, List.getElem_map, List.getElem_zip, List.getElem_range,
      getElem_rotate_eq_vertex, shadow, turnAt, vertex_eq_getElem hi' (Nat.mod_eq_of_lt hi')]

lemma isConvex_of_turns {qs : List (Vec2 ℝ)}
    (h : (∀ t ∈ turns qs, 0 ≤ t) ∨ ∀ t ∈ turns qs, t ≤ 0) : isConvex qs = true := by
  have hbent {t : ℝ} (ht : t ∈ (turns qs).filter fun t => ¬ Scalar.abs t ≤ straight) :
      t ∈ turns qs ∧ t ≠ 0 := by
    obtain ⟨ht, hlong⟩ := List.mem_filter.mp ht
    refine ⟨ht, ?_⟩
    rintro rfl
    rw [decide_eq_true_iff, Scalar.abs_real, abs_zero, straight] at hlong
    norm_num at hlong
  rw [isConvex]
  split
  · rfl
  · rename_i t ts hts
    rw [hts] at hbent
    rw [List.all_eq_true]
    intro s hs
    obtain ⟨ht, ht0⟩ := hbent List.mem_cons_self
    obtain ⟨hs, hs0⟩ := hbent (List.mem_cons_of_mem _ hs)
    rw [decide_eq_true_iff]
    rcases h with h | h
    · exact Or.inl ⟨(h t ht).lt_of_ne' ht0, (h s hs).lt_of_ne' hs0⟩
    · exact Or.inr ⟨(h t ht).lt_of_ne ht0, (h s hs).lt_of_ne hs0⟩

lemma isConvex_flatten (hlevel : IsLevel ps n) (hlen : 2 ≤ ps.length) (hbend : BendsOneWay ps n) :
    isConvex (flatten ps n) = true := by
  obtain ⟨r, hr, hturn⟩ := exists_turn_shadow hlevel (List.length_pos_iff.mp (by omega))
  apply isConvex_of_turns
  simp only [turns_flatten hlen, List.forall_mem_map, hturn, ← bend_eq]
  exact hbend.imp (fun h i _ => mul_nonneg hr.le (h i))
    fun h i _ => mul_nonpos_of_nonneg_of_nonpos hr.le (h i)

noncomputable def upright (ps : List (Vec ℝ)) (n : Vec ℝ) (t : Triangle) : Triangle :=
  if n.dot (face ps t).normal < 0 then (t.1, t.2.2, t.2.1) else t

lemma wind_flatten (hlevel : IsLevel ps n) {t : Triangle} (h₁ : t.1 < ps.length)
    (h₂ : t.2.1 < ps.length) (h₃ : t.2.2 < ps.length) :
    wind (flatten ps n).toArray t = upright ps n t := by
  have hflat {i : ℕ} (hi : i < ps.length) : (flatten ps n).toArray[i]? = some (shadow ps n i) := by
    simp [flatten, shadow, vertex_eq_getElem hi (Nat.mod_eq_of_lt hi), hi]
  obtain ⟨r, hr, hturn⟩ := exists_turn_shadow hlevel (List.length_pos_iff.mp (by omega))
  have hsign : turn (shadow ps n t.1) (shadow ps n t.2.1) (shadow ps n t.2.2) < 0 ↔
      n.dot (face ps t).normal < 0 := by
    have hturn := hturn t.1 t.2.1 t.2.2
    rw [turnAt] at hturn
    rw [hturn]
    exact smul_neg_iff_of_pos_left hr
  simp only [wind, hflat h₁, hflat h₂, hflat h₃, upright, hsign]

end SolidClash.Polygon
