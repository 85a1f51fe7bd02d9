import Mathlib.Data.Finset.Max
import Mathlib.Data.Nat.ModEq
import Mathlib.Data.Nat.Periodic
import SolidClash.Proofs.Polygon.Turn

/-! Rings in the plane that pass through no point twice and turn left at every point. Where such a
ring runs into a region between its own path and the line of its next edge, all the edges that
follow stay in there, since the ring would have to cross itself to leave. -/

namespace SolidClash.Polygon

open Vec2

/-- The corners of a polygon in order, counted on from one round to the next. Its border passes
through no point twice. -/
structure IsRing (n : ℕ) (P : ℕ → Vec2 ℝ) : Prop where
  round : Function.Periodic P n
  simple : ∀ {i j r s}, 0 ≤ r → r < 1 → 0 ≤ s → s < 1 →
    toward (P i) (P (i + 1)) r = toward (P j) (P (j + 1)) s → i ≡ j [MOD n]

abbrev turnAt (P : ℕ → Vec2 ℝ) (i j k : ℕ) : ℝ := turn (P i) (P j) (P k)

variable {n : ℕ} {P : ℕ → Vec2 ℝ}

namespace IsRing

lemma eq_of_point (h : IsRing n P) {i j : ℕ} (hij : P i = P j) : i ≡ j [MOD n] := by
  apply h.simple le_rfl one_pos le_rfl one_pos
  rw [toward_zero, toward_zero, hij]

lemma point_ne (h : IsRing n P) {i j : ℕ} (hi : i < n) (hj : j < n) (hij : i ≠ j) : P i ≠ P j :=
  fun he => hij ((h.eq_of_point he).eq_of_lt_of_lt hi hj)

lemma exists_edge (h : IsRing n P) {e : ℕ} (he : e < n) {r : ℝ} (hr : 0 ≤ r) (hr' : r ≤ 1) :
    ∃ i s, i < n ∧ (i = e ∨ i = e + 1 ∨ i = 0 ∧ e + 1 = n) ∧ 0 ≤ s ∧ s < 1 ∧
      toward (P e) (P (e + 1)) r = toward (P i) (P (i + 1)) s := by
  rcases hr'.lt_or_eq with hlt | rfl
  · exact ⟨e, r, he, Or.inl rfl, hr, hlt, rfl⟩
  · by_cases hlast : e + 1 = n
    · refine ⟨0, 0, by omega, Or.inr (Or.inr ⟨rfl, hlast⟩), le_rfl, one_pos, ?_⟩
      rw [toward_one, toward_zero, hlast, h.round.eq]
    · refine ⟨e + 1, 0, by omega, Or.inr (Or.inl rfl), le_rfl, one_pos, ?_⟩
      rw [toward_one, toward_zero]

lemma apart (h : IsRing n P) {e m : ℕ} (hem : e + 2 ≤ m) (hm : m < n) (hlast : m + 1 < n ∨ 1 ≤ e)
    {r s : ℝ} (hr : 0 ≤ r) (hr' : r ≤ 1) (hs : 0 ≤ s) (hs' : s ≤ 1) :
    toward (P e) (P (e + 1)) r ≠ toward (P m) (P (m + 1)) s := by
  intro heq
  obtain ⟨i, r', hi, hie, hr, hr', her⟩ := h.exists_edge (by omega : e < n) hr hr'
  obtain ⟨j, s', hj, hjm, hs, hs', hms⟩ := h.exists_edge hm hs hs'
  have hij := (h.simple hr hr' hs hs' (her.symm.trans (heq.trans hms))).eq_of_lt_of_lt hi hj
  omega

end IsRing

section Ahead

variable {a m : ℕ} (hnext : ∀ e, a ≤ e → e + 1 ≤ m → 0 < turnAt P e (e + 1) (m + 1))

include hnext

lemma exists_first_crossing {e : ℕ} (he : a ≤ e) (hem : e + 1 ≤ m)
    (hcross : turnAt P e (e + 1) (m + 2) ≤ 0) :
    ∃ f s, a ≤ f ∧ f + 1 ≤ m ∧ 0 < s ∧ s ≤ 1 ∧
      turn (P f) (P (f + 1)) (toward (P (m + 1)) (P (m + 2)) s) = 0 ∧
      ∀ e, a ≤ e → e + 1 ≤ m → 0 ≤ turn (P e) (P (e + 1)) (toward (P (m + 1)) (P (m + 2)) s) := by
  -- the share of the edge up to the line of `e`
  let time (e : ℕ) : ℝ :=
    turnAt P e (e + 1) (m + 1) / (turnAt P e (e + 1) (m + 1) - turnAt P e (e + 1) (m + 2))
  let crossed := {e ∈ Finset.range m | a ≤ e ∧ turnAt P e (e + 1) (m + 2) ≤ 0}
  have hmem {e : ℕ} : e ∈ crossed ↔ a ≤ e ∧ e + 1 ≤ m ∧ turnAt P e (e + 1) (m + 2) ≤ 0 := by
    simp only [crossed, Finset.mem_filter, Finset.mem_range]
    exact and_left_comm
  obtain ⟨f, hf, hfirst⟩ := crossed.exists_min_image time ⟨e, hmem.mpr ⟨he, hem, hcross⟩⟩
  obtain ⟨haf, hfm, hcross⟩ := hmem.mp hf
  have hX := hnext f haf hfm
  have htime : 0 < time f := div_pos hX (by linarith)
  have htime' : time f ≤ 1 := (div_le_one (by linarith)).mpr (by linarith)
  refine ⟨f, time f, haf, hfm, htime, htime', ?_, fun e he hem => ?_⟩
  · have hdiv := div_mul_cancel₀ (turnAt P f (f + 1) (m + 1))
      (by linarith : turnAt P f (f + 1) (m + 1) - turnAt P f (f + 1) (m + 2) ≠ 0)
    rw [turn_toward]
    linarith
  · rw [turn_toward]
    have hX := hnext e he hem
    rcases le_or_gt (turnAt P e (e + 1) (m + 2)) 0 with hcross | hcross
    · have hle : time f ≤ time e := hfirst e (hmem.mpr ⟨he, hem, hcross⟩)
      have hle := (le_div_iff₀ (by linarith)).mp hle
      linarith
    · exact add_nonneg (mul_nonneg (sub_nonneg.mpr htime') hX.le) (mul_pos htime hcross).le

lemma ahead_of_apart (hleft : ∀ k, 0 < turnAt P k (k + 1) (k + 2))
    (hapart : ∀ e r s, a ≤ e → e + 1 ≤ m → 0 ≤ r → r ≤ 1 → 0 ≤ s → s ≤ 1 →
      toward (P e) (P (e + 1)) r ≠ toward (P (m + 1)) (P (m + 2)) s)
    (hbehind : ∀ r s, 0 < s → s ≤ 1 →
      toward (P a) (P (a + 1)) r = toward (P (m + 1)) (P (m + 2)) s → 0 ≤ r)
    {e : ℕ} (he : a ≤ e) (hem : e + 1 ≤ m) : 0 < turnAt P e (e + 1) (m + 2) := by
  by_contra hcross
  obtain ⟨f, s, haf, hfm, hs, hs', hon, hside⟩ :=
    exists_first_crossing hnext he hem (not_lt.mp hcross)
  obtain ⟨r, hr⟩ := exists_toward (ne_of_turn (hnext f haf hfm)) hon
  -- the neighbours of the edge from `f` leave no other place on its line than the edge itself
  apply hapart f r s haf hfm _ _ hs.le hs' hr.symm
  · rcases haf.eq_or_lt with rfl | haf
    · exact hbehind r s hs hs' hr.symm
    · obtain ⟨f, rfl⟩ : ∃ e, f = e + 1 := ⟨f - 1, by omega⟩
      apply nonneg_of_turn _ (hleft f)
      rw [← hr]
      exact hside f (by omega) (by omega)
  · apply le_one_of_turn _ (hleft f)
    rw [← hr]
    rcases hfm.eq_or_lt with rfl | hfm
    · rw [turn_toward, turn_self_right, mul_zero, zero_add]
      exact (mul_pos hs (hleft (f + 1))).le
    · exact hside (f + 1) (by omega) hfm

end Ahead

/-- The edge from point `m` runs into a region between the path from point `a` to its own start and
its own line, which crosses the edge from `a`. -/
structure Trap (P : ℕ → Vec2 ℝ) (a m : ℕ) : Prop where
  lt : a < m
  next : ∀ e, a ≤ e → e + 1 ≤ m → 0 < turnAt P e (e + 1) (m + 1)
  before : turnAt P m (m + 1) a ≤ 0
  after : 0 < turnAt P m (m + 1) (a + 1)

lemma exists_sign_change {f : ℕ → ℝ} {k l : ℕ} (hkl : k ≤ l) (hk : f k ≤ 0) (hl : 0 < f l) :
    ∃ i, k ≤ i ∧ i < l ∧ f i ≤ 0 ∧ 0 < f (i + 1) := by
  induction l, hkl using Nat.le_induction with
  | base => exact absurd hl hk.not_gt
  | succ l hkl ih =>
    rcases le_or_gt (f l) 0 with h | h
    · exact ⟨l, hkl, l.lt_succ_self, h, hl⟩
    · obtain ⟨i, hki, hil, hi⟩ := ih h
      exact ⟨i, hki, hil.trans l.lt_succ_self, hi⟩

section Left

variable {a m : ℕ} (hleft : ∀ k, 0 < turnAt P k (k + 1) (k + 2))

include hleft

lemma exists_trap {k : ℕ} (hkm : k < m)
    (hnext : ∀ e, k ≤ e → e + 1 ≤ m → 0 < turnAt P e (e + 1) (m + 1))
    (hk : turnAt P m (m + 1) k ≤ 0) : ∃ a, Trap P a m := by
  obtain ⟨l, rfl⟩ : ∃ l, m = l + 1 := ⟨m - 1, by omega⟩
  have hl : 0 < turnAt P (l + 1) (l + 2) l := by
    rw [turnAt, turn_rotate]
    exact hleft l
  obtain ⟨a, hka, hal, hbefore, hafter⟩ := exists_sign_change (Nat.lt_succ_iff.mp hkm) hk hl
  exact ⟨a, by omega, fun e he => hnext e (hka.trans he), hbefore, hafter⟩

lemma IsRing.ahead (h : IsRing n P) (hm : m + 1 < n) (hlast : m + 2 < n ∨ 1 ≤ a)
    (hnext : ∀ e, a ≤ e → e + 1 ≤ m → 0 < turnAt P e (e + 1) (m + 1))
    (hbehind : ∀ r s, 0 < s → s ≤ 1 →
      toward (P a) (P (a + 1)) r = toward (P (m + 1)) (P (m + 2)) s → 0 ≤ r)
    {e : ℕ} (he : a ≤ e) (hem : e ≤ m) : 0 < turnAt P e (e + 1) (m + 2) := by
  rcases hem.eq_or_lt with rfl | hem
  · exact hleft e
  · apply ahead_of_apart hnext hleft _ hbehind he hem
    intro e r s he hem hr hr' hs hs'
    exact h.apart (by omega) hm (by omega) hr hr' hs hs'

lemma Trap.step (h : IsRing n P) (htrap : Trap P a m) (hm : m + 1 < n) :
    ∃ b, Trap P b (m + 1) := by
  obtain ⟨ham, hnext, hbefore, hafter⟩ := htrap
  have hlast : m + 2 < n ∨ 1 ≤ a := by
    by_contra hne
    obtain ⟨rfl, rfl⟩ : a = 0 ∧ n = m + 2 := by omega
    have hround : P (m + 2) = P 0 := h.round.eq
    rw [turnAt, ← hround] at hbefore
    exact (hleft m).not_ge hbefore
  have hahead (e : ℕ) (he : a ≤ e) (hem : e ≤ m) : 0 < turnAt P e (e + 1) (m + 2) := by
    apply h.ahead hleft hm hlast hnext _ he hem
    intro r s hs hs' heq
    -- the edge stays on the left of the one before, and so does what it meets
    have hY := mul_pos hs (hleft m)
    have hturn := turn_toward (P m) (P (m + 1)) (P (m + 1)) (P (m + 2)) s
    rw [turn_self_right, mul_zero, zero_add, ← heq, turn_toward] at hturn
    by_contra hr
    have h₁ := mul_nonpos_of_nonneg_of_nonpos (by linarith : 0 ≤ 1 - r) hbefore
    have h₂ := mul_neg_of_neg_of_pos (not_le.mp hr) hafter
    linarith
  have hturn := turn_mul_sub_turn_mul (P m) (P (m + 1)) (P (m + 2)) (P a) (P (a + 1))
  have hpos := mul_pos (hnext a le_rfl ham) (hleft m)
  rcases le_or_gt (turnAt P (m + 1) (m + 2) a) 0 with hk | hk
  · exact exists_trap hleft (by omega) (fun e he hem => hahead e he (by omega)) hk
  · have hk' : turnAt P (m + 1) (m + 2) (a + 1) ≤ 0 := by
      by_contra hk'
      have h₁ := mul_pos hafter hk
      have h₂ := mul_nonpos_of_nonpos_of_nonneg hbefore (not_le.mp hk').le
      linarith
    exact exists_trap hleft (by omega) (fun e he hem => hahead e (by omega) (by omega)) hk'

lemma Trap.run (h : IsRing n P) (htrap : Trap P a m) {l : ℕ} (hml : m ≤ l) (hl : l < n) :
    ∃ b, Trap P b l := by
  induction l, hml using Nat.le_induction with
  | base => exact ⟨a, htrap⟩
  | succ l hml ih =>
    obtain ⟨b, hb⟩ := ih (by omega)
    exact hb.step hleft h hl

end Left

end SolidClash.Polygon
