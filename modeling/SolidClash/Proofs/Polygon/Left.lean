import SolidClash.Proofs.Polygon.Trap

/-! Rings that turn left at every point turn left at any three of their points in order. They are
looked at from their farthest point, around which they cannot turn right for the trap there. -/

namespace SolidClash.Polygon

open Vec2

variable {n : ℕ} {P : ℕ → Vec2 ℝ}

def IsEvenFrom (o : Vec2 ℝ) (g : Vec2 ℝ → ℝ) : Prop :=
  ∀ a b c, g b * turn o a c = g c * turn o a b + g a * turn o b c

lemma IsEvenFrom.turn_pos {o : Vec2 ℝ} {g : Vec2 ℝ → ℝ} (hg : IsEvenFrom o g) {j l : ℕ}
    (hpos : ∀ i, j ≤ i → i ≤ l → 0 < g (P i))
    (hstep : ∀ i, j ≤ i → i < l → 0 < turn o (P i) (P (i + 1)))
    {a b : ℕ} (hja : j ≤ a) (hab : a < b) (hbl : b ≤ l) : 0 < turn o (P a) (P b) := by
  induction b, hab using Nat.le_induction with
  | base => exact hstep a hja (by omega)
  | succ b hab ih =>
    have hab : a < b := hab
    have h₁ := mul_pos (hpos (b + 1) (by omega) hbl) (ih (by omega))
    have h₂ := mul_pos (hpos a hja (by omega)) (hstep b (by omega) (by omega))
    have heven := hg (P a) (P b) (P (b + 1))
    exact pos_of_mul_pos_right (heven ▸ add_pos h₁ h₂) (hpos b (by omega) (by omega)).le

def behind (o p : Vec2 ℝ) : ℝ := o.x * (o.x - p.x) + o.y * (o.y - p.y)

lemma isEvenFrom_behind (o : Vec2 ℝ) : IsEvenFrom o (behind o) := by
  intro a b c
  simp only [behind, turn]
  ring

lemma isEvenFrom_turn (o p : Vec2 ℝ) : IsEvenFrom o (turn p · o) := by
  intro a b c
  simp only [turn]
  ring

lemma behind_pos {o p : Vec2 ℝ} (hfar : p.x ^ 2 + p.y ^ 2 ≤ o.x ^ 2 + o.y ^ 2) (hne : p ≠ o) :
    0 < behind o p := by
  obtain ⟨x, y⟩ := p
  obtain ⟨u, v⟩ := o
  have hdist : 0 < (u - x) ^ 2 + (v - y) ^ 2 := by
    by_contra h
    have hx := sq_nonneg (u - x)
    have hy := sq_nonneg (v - y)
    have hx : u - x = 0 := sq_eq_zero_iff.mp (by linarith)
    have hy : v - y = 0 := sq_eq_zero_iff.mp (by linarith)
    exact hne (by rw [sub_eq_zero.mp hx, sub_eq_zero.mp hy])
  simp only [behind] at hfar ⊢
  linarith

section Left

variable (hleft : ∀ k, 0 < turnAt P k (k + 1) (k + 2))
  (hbehind : ∀ i, 0 < i → i < n → 0 < behind (P 0) (P i))

include hbehind

lemma around_pos {j : ℕ} (hj : j < n) (hfan : ∀ k, 1 ≤ k → k < j → 0 < turnAt P 0 k (k + 1))
    {a b : ℕ} (ha : 1 ≤ a) (hab : a < b) (hbj : b ≤ j) : 0 < turnAt P 0 a b :=
  (isEvenFrom_behind (P 0)).turn_pos (fun i hi hij => hbehind i hi (hij.trans_lt hj)) hfan ha hab
    hbj

lemma edge_turn_pos {j : ℕ} (hleft : ∀ k, 0 < turnAt P k (k + 1) (k + 2)) (hj : j < n)
    (hfan : ∀ k, 1 ≤ k → k < j → 0 < turnAt P 0 k (k + 1)) {e : ℕ} (he : e + 2 ≤ j) :
    0 < turnAt P e (e + 1) j := by
  obtain ⟨d, hd⟩ := Nat.exists_eq_add_of_le he
  induction d generalizing e with
  | zero =>
    obtain rfl : j = e + 2 := hd
    exact hleft e
  | succ d ih =>
    have haround {a : ℕ} (ha : 1 ≤ a) (haj : a < j) : 0 < turnAt P 0 a j :=
      around_pos hbehind hj hfan ha haj le_rfl
    rcases e.eq_zero_or_pos with rfl | hpos
    · exact haround le_rfl (by omega)
    · have hnext : 0 < turnAt P (e + 1) (e + 2) j := ih (by omega) (by omega)
      have h₁ := mul_pos (hleft e) (haround (by omega : 1 ≤ e + 1) (by omega))
      have h₂ := mul_pos (hfan e hpos (by omega)) hnext
      have hturn := turn_mul_turn (P e) (P (e + 1)) (P (e + 2)) (P j) (P 0)
      exact pos_of_mul_pos_right (hturn ▸ add_pos h₁ h₂) (hfan (e + 1) (by omega) (by omega)).le

lemma not_trap_last {a m : ℕ} (h : IsRing n P) (hm : m + 1 = n) : ¬ Trap P a m := by
  rintro ⟨ham, hnext, hbefore, hafter⟩
  have hround : P (m + 1) = P 0 := hm ▸ h.round.eq
  have hac : turn (P 0) (P a) (P m) ≤ 0 := by rwa [turn_rotate, ← hround]
  have hbc : 0 < turn (P 0) (P (a + 1)) (P m) := by rwa [turn_rotate, ← hround]
  have hab : 0 < turn (P 0) (P a) (P (a + 1)) := by
    rw [← turn_rotate, ← hround]
    exact hnext a le_rfl ham
  have ha : a ≠ 0 := by
    rintro rfl
    exact hab.ne' (turn_self_left _ _)
  have heven := isEvenFrom_behind (P 0) (P a) (P (a + 1)) (P m)
  have h₁ := mul_pos (hbehind m (by omega) (by omega)) hab
  have h₂ := mul_pos (hbehind a (by omega) (by omega)) hbc
  have h₃ := mul_nonpos_of_nonneg_of_nonpos (hbehind (a + 1) (by omega) (by omega)).le hac
  linarith

include hleft

lemma fan_turn_pos (h : IsRing n P) {k : ℕ} (hk : 1 ≤ k) (hkn : k + 1 < n) :
    0 < turnAt P 0 k (k + 1) := by
  induction k using Nat.strong_induction_on with
  | h j ih =>
    by_contra hright
    have hright := not_lt.mp hright
    obtain ⟨m, rfl⟩ : ∃ m, j = m + 1 := ⟨j - 1, by omega⟩
    have hm : 0 < m := by
      by_contra hm
      obtain rfl : m = 0 := by omega
      exact (hleft 0).not_ge hright
    have hfan (k : ℕ) (hk : 1 ≤ k) (hkm : k < m + 1) : 0 < turnAt P 0 k (k + 1) :=
      ih k hkm hk (by omega)
    have hnext (e : ℕ) (he : e + 1 ≤ m) : 0 < turnAt P e (e + 1) (m + 1) :=
      edge_turn_pos hbehind hleft (by omega) hfan (by omega)
    have hahead (e : ℕ) (he : e ≤ m) : 0 < turnAt P e (e + 1) (m + 2) := by
      apply h.ahead hleft (by omega) (by omega) (fun e _ => hnext e) _ e.zero_le he
      intro r s hs hs' heq
      have hturn := turn_toward (P 0) (P (m + 1)) (P (m + 1)) (P (m + 2)) s
      rw [turn_self_right, mul_zero, zero_add, ← heq, turn_toward, turn_self_outer, mul_zero,
        zero_add, turn_swap, mul_neg] at hturn
      have hdown := mul_nonpos_of_nonneg_of_nonpos hs.le hright
      exact nonneg_of_mul_nonneg_left (by linarith) (hnext 0 hm)
    obtain ⟨a, htrap⟩ := exists_trap hleft (Nat.succ_pos m) (fun e _ he => hahead e (by omega))
      (by rwa [turnAt, turn_rotate])
    obtain ⟨b, hb⟩ := htrap.run (l := n - 1) hleft h (by omega) (by omega)
    exact not_trap_last hbehind h (by omega) hb

lemma turn_pos_of_left (h : IsRing n P) {i j k : ℕ} (hij : i < j) (hjk : j < k) (hk : k < n) :
    0 < turnAt P i j k := by
  have hfan (l : ℕ) (hl : 1 ≤ l) (hlk : l < k) : 0 < turnAt P 0 l (l + 1) :=
    fan_turn_pos hleft hbehind h hl (by omega)
  have haround {a b : ℕ} (ha : 1 ≤ a) (hab : a < b) (hbk : b ≤ k) : 0 < turnAt P 0 a b :=
    around_pos hbehind hk hfan ha hab hbk
  rcases i.eq_zero_or_pos with rfl | hi
  · exact haround hij hjk le_rfl
  · obtain ⟨l, rfl⟩ : ∃ l, k = l + 1 := ⟨k - 1, by omega⟩
    rw [turnAt, ← turn_rotate, ← turn_rotate]
    apply (isEvenFrom_turn (P (l + 1)) (P 0)).turn_pos (j := 1) (l := l) _ _ hi hij (by omega)
    · exact fun a ha hal => haround ha (by omega) le_rfl
    · intro a ha hal
      rw [← turn_rotate]
      exact edge_turn_pos hbehind hleft hk hfan (by omega)

end Left

end SolidClash.Polygon
