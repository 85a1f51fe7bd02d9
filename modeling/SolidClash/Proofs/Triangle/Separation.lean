import Mathlib.Analysis.Convex.Radon
import SolidClash.Proofs.Triangle.Points

/-! Separation of triangles in a plane. If no edge of either parts them, they have a point in common
that is on no edge: of the six half-planes that they are made of, three at a time have a point in
common, and by Helly's theorem all have. -/

namespace SolidClash

lemma Vec2.turn_of_dot {u v x e : Vec2 ℝ} (he : e.dot e ≠ 0) (hv : v.dot e = u.dot e)
    (hx : x.dot e = u.dot e) : turn u v x = 0 := by
  have hzero : e.dot e * turn u v x = 0 := by
    simp only [dot, turn] at hv hx ⊢
    linear_combination ((x.y - u.y) * e.x - (x.x - u.x) * e.y) * hv -
      ((v.y - u.y) * e.x - (v.x - u.x) * e.y) * hx
  exact (mul_eq_zero.mp hzero).resolve_left he

namespace Triangle

instance : Nonempty Corner := ⟨.a⟩

instance : Fintype Corner := ⟨{.a, .b, .c}, fun i => by cases i <;> decide⟩

def Corner.next : Corner → Corner
  | a => b
  | b => c
  | c => a

lemma exists_mem_of_convex {A B : Corner → Set (ℝ × ℝ)} (hA : ∀ i, Convex ℝ (A i))
    (hB : ∀ j, Convex ℝ (B j)) (hAB : ∀ j, ∃ z ∈ B j, ∀ i, z ∈ A i)
    (hBA : ∀ i, ∃ z ∈ A i, ∀ j, z ∈ B j) : ∃ z, (∀ i, z ∈ A i) ∧ ∀ j, z ∈ B j := by
  have hmeet : (⋂ k ∈ (Finset.univ : Finset (Corner ⊕ Corner)), Sum.elim A B k).Nonempty := by
    apply Convex.helly_theorem' (𝕜 := ℝ)
    · rintro (i | j) -
      · exact hA i
      · exact hB j
    · intro I _ hI
      have hdim : Module.finrank ℝ (ℝ × ℝ) = 2 := by simp
      rw [hdim, ← Finset.card_toLeft_add_card_toRight] at hI
      have hone {J : Finset Corner} (hJ : J.card ≤ 1) : ∃ j, ∀ i ∈ J, i = j := by
        obtain ⟨j, hj⟩ := Finset.card_le_one_iff_subset_singleton.mp hJ
        exact ⟨j, fun i hi => Finset.mem_singleton.mp (hj hi)⟩
      -- of at most three sets, at most one comes from one of the two sides
      rcases le_or_gt I.toRight.card 1 with h | h
      · obtain ⟨j, hj⟩ := hone h
        obtain ⟨z, hz, hall⟩ := hAB j
        refine ⟨z, Set.mem_iInter₂.mpr ?_⟩
        rintro (i | i) hi
        · exact hall i
        · exact hj i (Finset.mem_toRight.mpr hi) ▸ hz
      · obtain ⟨j, hj⟩ := hone (by omega : I.toLeft.card ≤ 1)
        obtain ⟨z, hz, hall⟩ := hBA j
        refine ⟨z, Set.mem_iInter₂.mpr ?_⟩
        rintro (i | i) hi
        · exact hj i (Finset.mem_toLeft.mpr hi) ▸ hz
        · exact hall i
  obtain ⟨z, hz⟩ := hmeet
  simp only [Finset.mem_univ, Set.iInter_true, Set.mem_iInter, Sum.forall, Sum.elim_inl,
    Sum.elim_inr] at hz
  exact ⟨z, hz⟩

namespace Triple

def map {β γ : Type} (f : β → γ) (d : Triple β) : Triple γ := ⟨f d.a, f d.b, f d.c⟩

lemma get_map {β γ : Type} (f : β → γ) (d : Triple β) (i : Corner) :
    (d.map f).get i = f (d.get i) := by
  cases i <;> rfl

def Proper (p : Triple (Vec2 ℝ)) : Prop := Vec2.turn p.a p.b p.c ≠ 0

noncomputable def share (p : Triple (Vec2 ℝ)) (i : Corner) (v : Vec2 ℝ) : ℝ :=
  Vec2.turn (p.get i.next) (p.get i.next.next) v / Vec2.turn p.a p.b p.c

noncomputable def point (p : Triple (Vec2 ℝ)) (w : Triple ℝ) : Vec2 ℝ :=
  ⟨w.mean (p.map (·.x)), w.mean (p.map (·.y))⟩

def Encloses (p : Triple (Vec2 ℝ)) (v : Vec2 ℝ) : Prop := ∃ w : Triple ℝ, w.IsInner ∧ p.point w = v

variable {p q : Triple (Vec2 ℝ)} {w d : Triple ℝ} {v e : Vec2 ℝ} {i : Corner}

lemma turn_point (hw : w.a + w.b + w.c = 1) (p : Triple (Vec2 ℝ)) (u v : Vec2 ℝ) :
    Vec2.turn u v (p.point w) = w.mean (p.map (Vec2.turn u v)) := by
  simp only [point, mean, map, Vec2.turn]
  linear_combination ((v.x - u.x) * u.y - (v.y - u.y) * u.x) * hw

lemma dot_point (p : Triple (Vec2 ℝ)) (w : Triple ℝ) (e : Vec2 ℝ) :
    (p.point w).dot e = w.mean (p.map (·.dot e)) := by
  simp only [point, mean, map, Vec2.dot]
  ring

lemma share_point (hw : w.a + w.b + w.c = 1) (p q : Triple (Vec2 ℝ)) (i : Corner) :
    p.share i (q.point w) = w.mean (q.map (p.share i)) := by
  rw [share, turn_point hw]
  simp only [mean, map, share]
  ring

lemma share_own (hp : p.Proper) (i j : Corner) :
    p.share i (p.get j) = if i = j then 1 else 0 := by
  have hcycle : Vec2.turn p.b p.c p.a = Vec2.turn p.a p.b p.c := by
    simp only [Vec2.turn]
    ring
  have hcycle' : Vec2.turn p.c p.a p.b = Vec2.turn p.a p.b p.c := by
    simp only [Vec2.turn]
    ring
  have hfirst (u v : Vec2 ℝ) : Vec2.turn u v u = 0 := by simp [Vec2.turn]
  have hsecond (u v : Vec2 ℝ) : Vec2.turn u v v = 0 := by simp [Vec2.turn, mul_comm]
  cases i <;> cases j <;>
    simp [share, get, Corner.next, hcycle, hcycle', hfirst, hsecond, div_self hp]

lemma get_next_ne (hp : p.Proper) (i : Corner) : p.get i.next ≠ p.get i.next.next := by
  intro h
  have hone := share_own hp i i
  rw [share, h] at hone
  simp [Vec2.turn] at hone

lemma share_point_own (hp : p.Proper) (hw : w.a + w.b + w.c = 1) (i : Corner) :
    p.share i (p.point w) = w.get i := by
  have ha := share_own hp i .a
  have hb := share_own hp i .b
  have hc := share_own hp i .c
  rw [share_point hw]
  cases i <;> simp_all [mean, map, get]

lemma sum_share (hp : p.Proper) (v : Vec2 ℝ) :
    p.share .a v + p.share .b v + p.share .c v = 1 := by
  simp only [share, ← add_div, get, Corner.next]
  rw [div_eq_one_iff_eq hp]
  simp only [Vec2.turn]
  ring

lemma point_share (hp : p.Proper) (v : Vec2 ℝ) :
    p.point ⟨p.share .a v, p.share .b v, p.share .c v⟩ = v := by
  have hmean {x : ℝ} {f : Vec2 ℝ → ℝ} (h : x * Vec2.turn p.a p.b p.c =
      Vec2.turn p.b p.c v * f p.a + Vec2.turn p.c p.a v * f p.b + Vec2.turn p.a p.b v * f p.c) :
      mean ⟨p.share .a v, p.share .b v, p.share .c v⟩ (p.map f) = x := by
    simp only [mean, map, share, get, Corner.next, div_mul_eq_mul_div, ← add_div]
    rw [div_eq_iff hp, h]
  obtain ⟨x, y⟩ := v
  exact congrArg₂ Vec2.mk (hmean (by simp only [Vec2.turn]; ring))
    (hmean (by simp only [Vec2.turn]; ring))

lemma encloses_iff (hp : p.Proper) : p.Encloses v ↔ ∀ i, 0 < p.share i v := by
  constructor
  · rintro ⟨w, hw, rfl⟩ i
    rw [share_point_own hp hw.sum_eq]
    exact hw.pos i
  · intro h
    refine ⟨_, ⟨sum_share hp v, fun i => ?_⟩, point_share hp v⟩
    cases i <;> exact h _

lemma isInner_center : (⟨1 / 3, 1 / 3, 1 / 3⟩ : Triple ℝ).IsInner :=
  ⟨by norm_num, fun i => by cases i <;> norm_num [get]⟩

lemma exists_isInner_of_pos (h : 0 < d.get i) : ∃ w : Triple ℝ, w.IsInner ∧ 0 < w.mean d := by
  -- so little of the way from the corner to the center that what is gained or lost stays below
  let g := mean ⟨1 / 3, 1 / 3, 1 / 3⟩ d - d.get i
  have hpos : 0 < d.get i + |g| := add_pos_of_pos_of_nonneg h (abs_nonneg g)
  refine ⟨(only i).blend ⟨1 / 3, 1 / 3, 1 / 3⟩ (d.get i / (d.get i + |g|)),
    (isShares_only i).blend_isInner isInner_center (div_pos h hpos)
      ((div_le_one hpos).mpr (le_add_of_nonneg_right (abs_nonneg g))), ?_⟩
  rw [mean_blend, mean_only]
  calc 0 < d.get i * (d.get i + (|g| + g)) / (d.get i + |g|) :=
        div_pos (mul_pos h (by linarith [neg_abs_le g])) hpos
    _ = d.get i + g * (d.get i / (d.get i + |g|)) := by
        field_simp
        ring

def side (p : Triple (Vec2 ℝ)) (i : Corner) : Set (ℝ × ℝ) := {z | 0 < p.share i ⟨z.1, z.2⟩}

lemma convex_side (p : Triple (Vec2 ℝ)) (i : Corner) : Convex ℝ (p.side i) := by
  intro x hx y hy a b ha hb hab
  have hshare : p.share i ⟨(a • x + b • y).1, (a • x + b • y).2⟩ =
      a • p.share i ⟨x.1, x.2⟩ + b • p.share i ⟨y.1, y.2⟩ := by
    simp only [share, Vec2.turn, Prod.fst_add, Prod.snd_add, Prod.smul_fst, Prod.smul_snd,
      smul_eq_mul]
    obtain rfl := eq_sub_of_add_eq hab
    ring
  exact lt_of_lt_of_eq (convex_Ioi (0 : ℝ) hx hy ha hb hab) hshare.symm

lemma exists_mem_side (hq : q.Proper) (h : ∃ j, 0 < p.share i (q.get j)) :
    ∃ z ∈ p.side i, ∀ j, z ∈ q.side j := by
  obtain ⟨j, hj⟩ := h
  rw [← get_map (p.share i)] at hj
  obtain ⟨w, hw, hpos⟩ := exists_isInner_of_pos hj
  have hinside : ∀ j, 0 < q.share j (q.point w) := (encloses_iff hq).mp ⟨w, hw, rfl⟩
  rw [← share_point hw.sum_eq] at hpos
  exact ⟨((q.point w).x, (q.point w).y), hpos, hinside⟩

lemma exists_encloses (hp : p.Proper) (hq : q.Proper) (hpq : ∀ i, ∃ j, 0 < p.share i (q.get j))
    (hqp : ∀ j, ∃ i, 0 < q.share j (p.get i)) : ∃ v, p.Encloses v ∧ q.Encloses v := by
  obtain ⟨z, hz, hz'⟩ := exists_mem_of_convex p.convex_side q.convex_side
    (fun j => exists_mem_side hp (hqp j)) fun i => exists_mem_side hq (hpq i)
  exact ⟨⟨z.1, z.2⟩, (encloses_iff hp).mpr hz, (encloses_iff hq).mpr hz'⟩

lemma IsInner.eq_of_le (hw : w.IsInner) (hd : ∀ i, d.get i ≤ w.mean d) (i : Corner) :
    d.get i = w.mean d := by
  have hgap (i : Corner) : 0 ≤ w.get i * (w.mean d - d.get i) :=
    mul_nonneg (hw.pos i).le (sub_nonneg.mpr (hd i))
  have hsum : w.get .a * (w.mean d - d.get .a) + w.get .b * (w.mean d - d.get .b) +
      w.get .c * (w.mean d - d.get .c) = 0 := by
    simp only [mean, get]
    linear_combination (w.a * d.a + w.b * d.b + w.c * d.c) * hw.sum_eq
  have hzero : w.get i * (w.mean d - d.get i) = 0 := by
    cases i <;> linarith [hgap .a, hgap .b, hgap .c]
  exact (sub_eq_zero.mp ((mul_eq_zero.mp hzero).resolve_left (hw.pos i).ne')).symm

lemma Encloses.exists_dot_lt (hp : p.Proper) (he : e.dot e ≠ 0) (h : p.Encloses v) :
    ∃ i, v.dot e < (p.get i).dot e := by
  by_contra hnone
  push Not at hnone
  obtain ⟨w, hw, rfl⟩ := h
  have hsame := hw.eq_of_le fun i =>
    (get_map (·.dot e) p i).trans_le ((hnone i).trans_eq (dot_point p w e))
  exact hp (Vec2.turn_of_dot he ((hsame .b).trans (hsame .a).symm)
    ((hsame .c).trans (hsame .a).symm))

lemma not_separatedOn_of_encloses {x y : Vec2 ℝ} {ε : ℝ} (hp : p.Proper) (hq : q.Proper)
    (he : e.dot e ≠ 0) (hx : p.Encloses x ∧ q.Encloses x) (hy : p.Encloses y ∧ q.Encloses y)
    (hwide : ε ≤ y.dot e - x.dot e) : ¬ SeparatedOn p q e ε := by
  have hhi {r : Triple (Vec2 ℝ)} (hr : r.Proper) (h : r.Encloses y) :
      y.dot e < max (max (r.a.dot e) (r.b.dot e)) (r.c.dot e) := by
    obtain ⟨i, hi⟩ := h.exists_dot_lt hr he
    cases i <;> simp [get] at hi <;> simp [hi]
  have hlo {r : Triple (Vec2 ℝ)} (hr : r.Proper) (h : r.Encloses x) :
      min (min (r.a.dot e) (r.b.dot e)) (r.c.dot e) < x.dot e := by
    have hneg (u : Vec2 ℝ) : u.dot ⟨-e.x, -e.y⟩ = -u.dot e := by
      simp only [Vec2.dot]
      ring
    have he' : (⟨-e.x, -e.y⟩ : Vec2 ℝ).dot ⟨-e.x, -e.y⟩ ≠ 0 := by
      simpa [Vec2.dot] using he
    obtain ⟨i, hi⟩ := h.exists_dot_lt hr he'
    rw [hneg, hneg, neg_lt_neg_iff] at hi
    cases i <;> simp [get] at hi <;> simp [hi]
  rw [separatedOn_iff, not_le]
  calc min ε _ ≤ ε := min_le_left _ _
    _ ≤ y.dot e - x.dot e := hwide
    _ < _ := sub_lt_sub (lt_min (hhi hp hy.1) (hhi hq hy.2)) (max_lt (hlo hp hx.1) (hlo hq hx.2))

end Triple

end Triangle

end SolidClash
