import Mathlib.Data.Set.Finite.List
import SolidClash.Proofs.Triangle.Axial

/-! Shadows on either side of a line that touches both. The line may run along no edge, but another
one does that parts them as well, and its direction is among those that the test tries. -/

namespace SolidClash

namespace Vec2

/-- The line through two points has the points of the lists on either side: up to a factor, turning
from it measures something that is negative in the one list and positive in the other. -/
def Parts (u v : Vec2 ℝ) (ps qs : List (Vec2 ℝ)) : Prop :=
  ∃ (r : ℝ) (h : Vec2 ℝ → ℝ), (∀ x, turn u v x = r * h x) ∧ (∀ x ∈ ps, h x ≤ 0) ∧ ∀ y ∈ qs, 0 ≤ h y

variable {ps qs : List (Vec2 ℝ)} {u v w p q : Vec2 ℝ}

lemma Parts.sides (h : Parts u v ps qs) {n : Vec2 ℝ} {r : ℝ}
    (hn : ∀ x, x.dot n = u.dot n + r * turn u v x) :
    (∀ x ∈ ps, x.dot n ≤ u.dot n) ∧ (∀ y ∈ qs, u.dot n ≤ y.dot n) ∨
      (∀ y ∈ qs, y.dot n ≤ u.dot n) ∧ ∀ x ∈ ps, u.dot n ≤ x.dot n := by
  obtain ⟨r', h, hturn, hp, hq⟩ := h
  have hdiff (x : Vec2 ℝ) : x.dot n = u.dot n + r * r' * h x := by
    rw [hn, hturn, mul_assoc]
  have hup {x : Vec2 ℝ} (hx : 0 ≤ r * r' * h x) : u.dot n ≤ x.dot n := by linarith [hdiff x]
  have hdown {x : Vec2 ℝ} (hx : r * r' * h x ≤ 0) : x.dot n ≤ u.dot n := by linarith [hdiff x]
  rcases le_total 0 (r * r') with hr | hr
  · exact Or.inl ⟨fun x hx => hdown (mul_nonpos_of_nonneg_of_nonpos hr (hp x hx)),
      fun y hy => hup (mul_nonneg hr (hq y hy))⟩
  · exact Or.inr ⟨fun y hy => hdown (mul_nonpos_of_nonpos_of_nonneg hr (hq y hy)),
      fun x hx => hup (mul_nonneg_of_nonpos_of_nonpos hr (hp x hx))⟩

section Frame

variable {f g : Vec2 ℝ → ℝ} {k : ℝ}

def Frame (f g : Vec2 ℝ → ℝ) (k : ℝ) : Prop :=
  k ≠ 0 ∧ ∀ u v x, k * turn u v x = (f v - f u) * (g x - g u) - (g v - g u) * (f x - f u)

lemma exists_parts_of_points (hk : Frame f g k) (hps : ∀ x ∈ ps, f x < 0 ∨ x = p)
    (hqs : ∀ y ∈ qs, 0 < f y ∨ y = q) (hp : f p = 0) (hq : f q = 0) (hpq : g p ≤ g q)
    (hne : ∃ v ∈ ps, v ≠ p) :
    ∃ u v, (u = p ∧ v ∈ ps ∨ u = q ∧ v ∈ qs) ∧ u ≠ v ∧ Parts u v ps qs := by
  obtain ⟨hk, hturn⟩ := hk
  let rays : Set (Vec2 ℝ × Vec2 ℝ) :=
    {r | (r.1 = p ∧ r.2 ∈ ps ∨ r.1 = q ∧ r.2 ∈ qs) ∧ f r.2 ≠ 0}
  let slope (r : Vec2 ℝ × Vec2 ℝ) : ℝ := (g r.2 - g r.1) / f r.2
  have hfinite : rays.Finite := by
    refine ((List.finite_toSet (ps.map (p, ·) ++ qs.map (q, ·)))).subset ?_
    rintro ⟨u, v⟩ ⟨h | h, -⟩
    · obtain ⟨rfl, hv⟩ := h
      exact List.mem_append_left _ (List.mem_map_of_mem hv)
    · obtain ⟨rfl, hv⟩ := h
      exact List.mem_append_right _ (List.mem_map_of_mem hv)
  have hnonempty : rays.Nonempty := by
    obtain ⟨v, hv, hvp⟩ := hne
    exact ⟨(p, v), Or.inl ⟨rfl, hv⟩, ((hps v hv).resolve_right hvp).ne⟩
  obtain ⟨⟨u, v⟩, ⟨huv, hv⟩, hleast⟩ := Set.exists_min_image rays slope hfinite hnonempty
  have hu : f u = 0 ∧ g p ≤ g u ∧ g u ≤ g q := by
    rcases huv with ⟨rfl, _⟩ | ⟨rfl, _⟩
    · exact ⟨hp, le_rfl, hpq⟩
    · exact ⟨hq, hpq, le_rfl⟩
  let m := slope (u, v)
  have hm : g v - g u = m * f v := (div_mul_cancel₀ _ hv).symm
  refine ⟨u, v, huv, ?_, f v / k, fun x => g x - g u - m * f x, ?_, ?_, ?_⟩
  · rintro rfl
    exact hv hu.1
  · intro x
    rw [div_mul_eq_mul_div, eq_div_iff hk, mul_comm (turn u v x), hturn, hu.1, hm]
    ring
  · intro x hx
    have hx : g x - g p ≤ m * f x := by
      rcases hps x hx with hneg | rfl
      · have h := hleast (p, x) ⟨Or.inl ⟨rfl, hx⟩, hneg.ne⟩
        exact (le_div_iff_of_neg hneg).mp h
      · simp [hp]
    linarith [hu.2.1]
  · intro y hy
    have hy : m * f y ≤ g y - g q := by
      rcases hqs y hy with hpos | rfl
      · have h := hleast (q, y) ⟨Or.inr ⟨rfl, hy⟩, hpos.ne'⟩
        exact (le_div_iff₀ hpos).mp h
      · simp [hq]
    linarith [hu.2.2]

lemma frame_normal (hw : w.dot w ≠ 0) (c : ℝ) {k : ℝ} (hk : k ≠ 0) :
    Frame (fun x => x.dot w - c) (fun x => k * x.dot w.turned) (k * w.dot w) := by
  refine ⟨mul_ne_zero hk hw, fun u v x => ?_⟩
  simp only [turn, dot, turned]
  ring

end Frame

lemma parts_on_line {c : ℝ} (hw : w.dot w ≠ 0) (hps : ∀ x ∈ ps, x.dot w ≤ c)
    (hqs : ∀ y ∈ qs, c ≤ y.dot w) (hu : u.dot w = c) (hv : v.dot w = c) : Parts u v ps qs := by
  refine ⟨-(v.dot w.turned - u.dot w.turned) / w.dot w, fun x => x.dot w - c, fun x => ?_,
    fun x hx => sub_nonpos.mpr (hps x hx), fun y hy => sub_nonneg.mpr (hqs y hy)⟩
  obtain ⟨-, hturn⟩ := frame_normal hw c one_ne_zero
  have hturn := hturn u v x
  simp only [one_mul, hu, hv] at hturn
  rw [div_mul_eq_mul_div, eq_div_iff hw, mul_comm, hturn]
  ring

lemma exists_parts {c : ℝ} (hw : w.dot w ≠ 0) (hps : ∀ x ∈ ps, x.dot w ≤ c)
    (hqs : ∀ y ∈ qs, c ≤ y.dot w) (hp : p ∈ ps) (hpc : p.dot w = c) (hq : q ∈ qs)
    (hqc : q.dot w = c) (hne : ∃ v ∈ ps, v ≠ p) :
    ∃ u v, (u ∈ ps ∧ v ∈ ps ∨ u ∈ qs ∧ v ∈ qs) ∧ u ≠ v ∧ Parts u v ps qs := by
  by_cases hline : ∃ u v, (u ∈ ps ∧ v ∈ ps ∨ u ∈ qs ∧ v ∈ qs) ∧ u ≠ v ∧
      u.dot w = c ∧ v.dot w = c
  · obtain ⟨u, v, huv, hne, hu, hv⟩ := hline
    exact ⟨u, v, huv, hne, parts_on_line hw hps hqs hu hv⟩
  · have hps' : ∀ x ∈ ps, x.dot w - c < 0 ∨ x = p := by
      intro x hx
      by_contra h
      obtain ⟨hx', hxp⟩ := not_or.mp h
      have hxc : x.dot w = c := le_antisymm (hps x hx) (by linarith)
      exact hline ⟨x, p, Or.inl ⟨hx, hp⟩, hxp, hxc, hpc⟩
    have hqs' : ∀ y ∈ qs, 0 < y.dot w - c ∨ y = q := by
      intro y hy
      by_contra h
      obtain ⟨hy', hyq⟩ := not_or.mp h
      have hyc : y.dot w = c := le_antisymm (by linarith) (hqs y hy)
      exact hline ⟨y, q, Or.inr ⟨hy, hq⟩, hyq, hyc, hqc⟩
    have hfound {k : ℝ} (hk : k ≠ 0) (hpq : k * p.dot w.turned ≤ k * q.dot w.turned) :
        ∃ u v, (u ∈ ps ∧ v ∈ ps ∨ u ∈ qs ∧ v ∈ qs) ∧ u ≠ v ∧ Parts u v ps qs := by
      obtain ⟨u, v, huv, hparts⟩ := exists_parts_of_points (frame_normal hw c hk) hps' hqs'
        (sub_eq_zero.mpr hpc) (sub_eq_zero.mpr hqc) hpq hne
      refine ⟨u, v, huv.imp ?_ ?_, hparts⟩
      · rintro ⟨rfl, hv⟩
        exact ⟨hp, hv⟩
      · rintro ⟨rfl, hv⟩
        exact ⟨hq, hv⟩
    rcases le_total (p.dot w.turned) (q.dot w.turned) with h | h
    · exact hfound one_ne_zero (by linarith)
    · exact hfound (neg_ne_zero.mpr one_ne_zero) (by linarith)

lemma eq_of_sub (h : u - v = ⟨0, 0⟩) : u = v := by
  obtain ⟨a, b⟩ := u
  obtain ⟨c, d⟩ := v
  obtain ⟨hx, hy⟩ := Vec2.mk.inj h
  exact congrArg₂ Vec2.mk (sub_eq_zero.mp hx) (sub_eq_zero.mp hy)

lemma norm_turned (d : Vec2 ℝ) : d.turned.norm = d.norm := by
  simp only [norm, turned, dot]
  congr 1
  ring

lemma exists_normal {d : Vec2 ℝ} (h : v - u = d ∨ u - v = d) (hd : 1e-20 < d.norm) :
    ∃ n, d.turned.unit? 1e-20 = some n ∧ ∃ r, ∀ x, x.dot n = u.dot n + r * turn u v x := by
  refine ⟨⟨-d.y / d.norm, d.x / d.norm⟩, ?_, ?_⟩
  · rw [unit?, norm_turned, if_neg hd.not_ge]
    rfl
  · rcases h with rfl | rfl
    · refine ⟨1 / (v - u).norm, fun x => ?_⟩
      have hx : (v - u).x = v.x - u.x := rfl
      have hy : (v - u).y = v.y - u.y := rfl
      rw [dot, dot, turn, hx, hy]
      ring
    · refine ⟨-1 / (u - v).norm, fun x => ?_⟩
      have hx : (u - v).x = u.x - v.x := rfl
      have hy : (u - v).y = u.y - v.y := rfl
      rw [dot, dot, turn, hx, hy]
      ring

end Vec2

namespace Triangle

section Shadows

variable {s t : Triangle ℝ} {m : Axis} {ε : ℝ}

/-- The shadow along an axis of some edge is so short that no direction across it is tried. -/
def HasShortShadow (s t : Triangle ℝ) (m : Axis) : Prop :=
  ∃ e ∈ s.edges ++ t.edges, e.onto m.others ≠ ⟨0, 0⟩ ∧ (e.onto m.others).norm ≤ 1e-20

lemma sub_mem_edges {p q : Vec ℝ} (hp : p ∈ s.corners) (hq : q ∈ s.corners) :
    p = q ∨ q - p ∈ s.edges ∨ p - q ∈ s.edges := by
  simp only [corners, List.mem_cons, List.not_mem_nil, or_false] at hp hq
  rcases hp with rfl | rfl | rfl <;> rcases hq with rfl | rfl | rfl <;> simp [edges]

noncomputable def shadow (t : Triangle ℝ) (m : Axis) : List (Vec2 ℝ) :=
  t.corners.map (·.onto m.others)

lemma onto_sub (p q : Vec ℝ) (m : Axis) :
    (p - q).onto m.others = p.onto m.others - q.onto m.others := by
  cases m <;> rfl

lemma exists_edgeNormal {u v : Vec2 ℝ} (hu : u ∈ s.shadow m) (hv : v ∈ s.shadow m) (hne : u ≠ v)
    (hlong : ∀ e ∈ s.edges, e.onto m.others ≠ ⟨0, 0⟩ → 1e-20 < (e.onto m.others).norm) :
    ∃ n ∈ (s.mapCorners (·.onto m.others)).edgeNormals,
      ∃ r, ∀ x, x.dot n = u.dot n + r * Vec2.turn u v x := by
  obtain ⟨p, hp, rfl⟩ := List.mem_map.mp hu
  obtain ⟨q, hq, rfl⟩ := List.mem_map.mp hv
  obtain ⟨e, he, hpq⟩ : ∃ e ∈ s.edges,
      q.onto m.others - p.onto m.others = e.onto m.others ∨
        p.onto m.others - q.onto m.others = e.onto m.others := by
    rcases sub_mem_edges hp hq with rfl | h | h
    · exact (hne rfl).elim
    · exact ⟨_, h, Or.inl (onto_sub q p m).symm⟩
    · exact ⟨_, h, Or.inr (onto_sub p q m).symm⟩
  have hzero : e.onto m.others ≠ ⟨0, 0⟩ := by
    intro h
    rw [h] at hpq
    exact hne (hpq.elim (fun h => (Vec2.eq_of_sub h).symm) Vec2.eq_of_sub)
  obtain ⟨n, hn, hr⟩ := Vec2.exists_normal hpq (hlong e he hzero)
  rw [edgeNormals_onto]
  exact ⟨n, List.mem_filterMap.mpr ⟨e, he, hn⟩, hr⟩

lemma not_shadowsOverlap_of_parts {u v : Vec2 ℝ} (hε : 0 ≤ ε)
    (huv : u ∈ s.shadow m ∧ v ∈ s.shadow m ∨ u ∈ t.shadow m ∧ v ∈ t.shadow m) (hne : u ≠ v)
    (hparts : Vec2.Parts u v (s.shadow m) (t.shadow m)) (hlong : ¬ HasShortShadow s t m) :
    ¬ ShadowsOverlap s t m ε := by
  have hlong (e : Vec ℝ) (he : e ∈ s.edges ++ t.edges) (hne : e.onto m.others ≠ ⟨0, 0⟩) :
      1e-20 < (e.onto m.others).norm := by
    by_contra h
    exact hlong ⟨e, he, hne, not_lt.mp h⟩
  obtain ⟨n, hn, r, hr⟩ : ∃ n ∈ (s.mapCorners (·.onto m.others)).edgeNormals ++
      (t.mapCorners (·.onto m.others)).edgeNormals,
      ∃ r, ∀ x, x.dot n = u.dot n + r * Vec2.turn u v x := by
    rcases huv with ⟨hu, hv⟩ | ⟨hu, hv⟩
    · obtain ⟨n, hn, hr⟩ := exists_edgeNormal hu hv hne fun e he =>
        hlong e (List.mem_append_left _ he)
      exact ⟨n, List.mem_append_left _ hn, hr⟩
    · obtain ⟨n, hn, hr⟩ := exists_edgeNormal hu hv hne fun e he =>
        hlong e (List.mem_append_right _ he)
      exact ⟨n, List.mem_append_right _ hn, hr⟩
  intro hover
  apply hover n hn
  rcases hparts.sides hr with ⟨hps, hqs⟩ | ⟨hqs, hps⟩
  · exact separatedOn_of_contact hε (Or.inl hps) (Or.inr hqs)
  · exact separatedOn_of_contact hε (Or.inr hqs) (Or.inl hps)

lemma not_shadowsOverlap_of_touching {w : Vec2 ℝ} {c : ℝ} (hε : 0 ≤ ε) (hw : w.dot w ≠ 0)
    (hs : ∀ x ∈ s.shadow m, x.dot w ≤ c) (ht : ∀ y ∈ t.shadow m, c ≤ y.dot w)
    (hs' : ∃ p ∈ s.shadow m, p.dot w = c) (ht' : ∃ q ∈ t.shadow m, q.dot w = c)
    (hwide : ∃ u ∈ s.shadow m, ∃ v ∈ s.shadow m, u ≠ v) (hlong : ¬ HasShortShadow s t m) :
    ¬ ShadowsOverlap s t m ε := by
  obtain ⟨p, hp, hpc⟩ := hs'
  obtain ⟨q, hq, hqc⟩ := ht'
  have hne : ∃ v ∈ s.shadow m, v ≠ p := by
    obtain ⟨u, hu, v, hv, huv⟩ := hwide
    by_cases h : u = p
    · exact ⟨v, hv, fun hvp => huv (h.trans hvp.symm)⟩
    · exact ⟨u, hu, h⟩
  obtain ⟨u, v, huv, hne, hparts⟩ := Vec2.exists_parts hw hs ht hp hpc hq hqc hne
  exact not_shadowsOverlap_of_parts hε huv hne hparts hlong

end Shadows

end Triangle

end SolidClash
