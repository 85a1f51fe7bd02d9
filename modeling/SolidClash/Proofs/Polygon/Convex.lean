import SolidClash.Proofs.Polygon.Left

/-! Rings that nowhere turn right do not turn right at any three of their points in order. Points
where they go straight on can be left out one by one, until they turn left at all that remain. -/

namespace SolidClash.Polygon

open Vec2

variable {n m : ℕ} {P : ℕ → Vec2 ℝ}

def IsConvexRing (n : ℕ) (P : ℕ → Vec2 ℝ) : Prop :=
  ∀ i j k, i < j → j < k → k < n → 0 ≤ turnAt P i j k

lemma IsRing.shift (h : IsRing n P) (s : ℕ) : IsRing n (fun i => P (i + s)) where
  round i := by
    change P (i + n + s) = P (i + s)
    rw [Nat.add_right_comm, h.round]
  simple {i j r s'} hr hr' hs hs' heq := by
    apply Nat.ModEq.add_right_cancel' s
    apply h.simple hr hr' hs hs'
    rw [Nat.add_right_comm i s 1, Nat.add_right_comm j s 1]
    exact heq

lemma turnAt_shift (s k : ℕ) : turnAt (fun i => P (i + s)) k (k + 1) (k + 2) =
    turnAt P (k + s) (k + s + 1) (k + s + 2) := by
  rw [turnAt, Nat.add_right_comm k 1, Nat.add_right_comm k 2]

lemma turnAt_round (h : Function.Periodic P n) (k : ℕ) :
    turnAt P (k + n) (k + n + 1) (k + n + 2) = turnAt P k (k + 1) (k + 2) := by
  rw [turnAt, Nat.add_right_comm k n 1, Nat.add_right_comm k n 2, h, h, h]

lemma isConvexRing_of_shift (h : Function.Periodic P n) {s : ℕ}
    (hconvex : IsConvexRing n fun i => P (i + s)) : IsConvexRing n P := by
  intro i j k hij hjk hk
  let t := s % n
  have ht : t < n := Nat.mod_lt s (by omega)
  have hs (i : ℕ) : P (i + s) = P (i + t) := by
    rw [← h.map_mod_nat (i + s), ← h.map_mod_nat (i + t), Nat.add_mod_mod]
  have hhigh {i : ℕ} (hi : t ≤ i) : P i = P (i - t + s) := by
    rw [hs, Nat.sub_add_cancel hi]
  have hlow {i : ℕ} (hi : i < t) : P i = P (i + (n - t) + s) := by
    rw [hs, ← h i]
    congr 1
    omega
  rw [turnAt]
  rcases le_or_gt t i with hti | hti
  · rw [hhigh hti, hhigh (by omega : t ≤ j), hhigh (by omega : t ≤ k)]
    exact hconvex _ _ _ (by omega) (by omega) (by omega)
  · rw [hlow hti]
    rcases le_or_gt t j with htj | htj
    · rw [hhigh htj, hhigh (by omega : t ≤ k), ← turn_rotate]
      exact hconvex _ _ _ (by omega) (by omega) (by omega)
    · rw [hlow htj]
      rcases le_or_gt t k with htk | htk
      · rw [hhigh htk, ← turn_rotate, ← turn_rotate]
        exact hconvex _ _ _ (by omega) (by omega) (by omega)
      · rw [hlow htk]
        exact hconvex _ _ _ (by omega) (by omega) (by omega)

lemma isConvexRing_of_left (h : IsRing n P) (hleft : ∀ k, 0 < turnAt P k (k + 1) (k + 2)) :
    IsConvexRing n P := by
  intro i j k hij hjk hk
  obtain ⟨s, hs, hfar⟩ := (Finset.range n).exists_max_image (fun i => (P i).x ^ 2 + (P i).y ^ 2)
    ⟨0, Finset.mem_range.mpr (by omega)⟩
  revert i j k
  apply isConvexRing_of_shift h.round (s := s)
  intro i j k hij hjk hk
  apply (turn_pos_of_left (P := fun i => P (i + s)) _ _ (h.shift s) hij hjk hk).le
  · intro k
    rw [turnAt_shift]
    exact hleft (k + s)
  · intro i hi hin
    apply behind_pos _ ((h.shift s).point_ne hin (hi.trans hin) hi.ne')
    have hi := hfar ((i + s) % n) (Finset.mem_range.mpr (Nat.mod_lt _ (hi.trans hin)))
    rw [h.round.map_mod_nat] at hi
    rwa [Nat.zero_add]

lemma IsRing.exists_between (h : IsRing (m + 1) P) (hm : 2 ≤ m)
    (hflat : turnAt P m (m + 1) (m + 2) = 0) :
    ∃ r, 0 < r ∧ r < 1 ∧ P 0 = toward (P m) (P 1) r := by
  have hlast : P (m + 1) = P 0 := h.round.eq
  have hnext : P (m + 2) = P 1 := by rw [show m + 2 = 1 + (m + 1) by omega, h.round]
  obtain ⟨r, hr⟩ : ∃ r, P 0 = toward (P m) (P 1) r := by
    apply exists_toward (h.point_ne (by omega) (by omega) (by omega))
    rw [turn_swap, neg_eq_zero, ← hlast, ← hnext]
    exact hflat
  refine ⟨r, ?_, ?_, hr⟩
  · by_contra hpos
    -- otherwise the edge from point 0 passes through point `m`
    have hm0 : P m = toward (P 0) (P 1) (-r / (1 - r)) := by
      rw [hr, toward_toward_right, mul_div_cancel₀ _ (by linarith), add_neg_cancel, toward_zero]
    have hmod : 0 ≡ m [MOD m + 1] := by
      apply h.simple (r := -r / (1 - r)) (s := 0) (div_nonneg (by linarith) (by linarith))
        ((div_lt_one (by linarith)).mpr (by linarith)) le_rfl one_pos
      rw [toward_zero, ← hm0]
    have := hmod.eq_of_lt_of_lt (by omega) (by omega)
    omega
  · by_contra hlt
    -- otherwise the edge from point `m` passes through point 1
    have h1 : P 1 = toward (P m) (P 0) (1 / r) := by
      rw [hr, toward_toward_left, mul_one_div_cancel (by linarith), toward_one]
    rcases (not_lt.mp hlt).eq_or_lt with rfl | hlt
    · rw [div_one, toward_one] at h1
      exact h.point_ne (by omega) (by omega) one_ne_zero h1
    · have hmod : m ≡ 1 [MOD m + 1] := by
        apply h.simple (r := 1 / r) (s := 0) (by positivity) ((div_lt_one (by linarith)).mpr hlt)
          le_rfl one_pos
        rw [toward_zero, hlast, ← h1]
      have := hmod.eq_of_lt_of_lt (by omega) (by omega)
      omega

section Cut

variable {r : ℝ}

def cut (m : ℕ) (P : ℕ → Vec2 ℝ) (i : ℕ) : Vec2 ℝ := P (i % m + 1)

lemma cut_of_lt {i : ℕ} (hi : i < m) : cut m P i = P (i + 1) := by
  rw [cut, Nat.mod_eq_of_lt hi]

lemma cut_add (i c : ℕ) : cut m P (i + c) = cut m P (i % m + c) := by
  rw [cut, cut, Nat.mod_add_mod]

lemma cut_round (m : ℕ) (P : ℕ → Vec2 ℝ) : Function.Periodic (cut m P) m := by
  intro i
  rw [cut, cut, Nat.add_mod_right]

variable (h : IsRing (m + 1) P) (hr : 0 < r) (hr' : r < 1) (hbetween : P 0 = toward (P m) (P 1) r)

include h hr hr' hbetween

lemma exists_edge_of_cut (hm : 0 < m) (i : ℕ) {s : ℝ} (hs : 0 ≤ s) (hs' : s < 1) :
    ∃ e t, e ≤ m ∧ (e = i % m + 1 ∨ e = 0 ∧ i % m + 1 = m) ∧ 0 ≤ t ∧ t < 1 ∧
      toward (cut m P i) (cut m P (i + 1)) s = toward (P e) (P (e + 1)) t := by
  have hi : i % m < m := Nat.mod_lt i hm
  rw [cut_add i 1, show cut m P i = P (i % m + 1) from rfl]
  rcases (Nat.succ_le_of_lt hi).eq_or_lt with hlast | hlt
  · have hlast : i % m + 1 = m := hlast
    rw [hlast, (cut_round m P).eq, cut_of_lt hm]
    rcases lt_or_ge s r with hsr | hrs
    · refine ⟨m, s / r, le_rfl, Or.inl rfl, by positivity, (div_lt_one hr).mpr hsr, ?_⟩
      rw [h.round.eq, hbetween, toward_toward_left, mul_div_cancel₀ _ hr.ne']
    · refine ⟨0, (s - r) / (1 - r), m.zero_le, Or.inr ⟨rfl, rfl⟩,
        div_nonneg (by linarith) (by linarith), (div_lt_one (by linarith)).mpr (by linarith), ?_⟩
      rw [hbetween, toward_toward_right, mul_div_cancel₀ _ (by linarith), add_sub_cancel]
  · exact ⟨i % m + 1, s, by omega, Or.inl rfl, hs, hs', by rw [cut_of_lt hlt]⟩

lemma isRing_cut (hm : 0 < m) : IsRing m (cut m P) where
  round := cut_round m P
  simple {i j s t} hs hs' ht ht' heq := by
    obtain ⟨e, s, hem, hei, hs, hs', hes⟩ := exists_edge_of_cut h hr hr' hbetween hm i hs hs'
    obtain ⟨f, t, hfm, hfj, ht, ht', hft⟩ := exists_edge_of_cut h hr hr' hbetween hm j ht ht'
    have hef := h.simple hs hs' ht ht' (hes.symm.trans (heq.trans hft))
    have hef := hef.eq_of_lt_of_lt (by omega) (by omega)
    change i % m = j % m
    omega

lemma turnAt_cut_nonneg (hm : 2 ≤ m) (hleft : ∀ k, 0 ≤ turnAt P k (k + 1) (k + 2)) (k : ℕ) :
    0 ≤ turnAt (cut m P) k (k + 1) (k + 2) := by
  have hk : k % m < m := Nat.mod_lt k (by omega)
  rw [turnAt, cut_add k 1, cut_add k 2, show cut m P k = P (k % m + 1) from rfl]
  generalize k % m = l at hk
  rcases (by omega : l + 2 < m ∨ m = l + 2 ∨ m = l + 1) with hl | rfl | rfl
  · rw [cut_of_lt hl, cut_of_lt (by omega)]
    exact hleft (l + 1)
  · have hturn := hleft (l + 1)
    rw [turnAt, h.round.eq, hbetween, turn_toward, turn_self_right, mul_zero, zero_add] at hturn
    rw [(cut_round _ P).eq, cut_of_lt (by omega), cut_of_lt (by omega)]
    exact nonneg_of_mul_nonneg_right hturn hr
  · have hturn := hleft 0
    rw [turnAt, hbetween, toward_turn, turn_self_left, mul_zero, add_zero] at hturn
    rw [(cut_round _ P).eq, cut_of_lt (by omega), show l + 2 = 1 + (l + 1) by omega, cut_round,
      cut_of_lt hm]
    exact nonneg_of_mul_nonneg_right hturn (by linarith)

lemma isConvexRing_of_cut (hconvex : IsConvexRing m (cut m P)) : IsConvexRing (m + 1) P := by
  have hcut {i j k : ℕ} (hi : 0 < i) (hij : i < j) (hjk : j < k) (hk : k < m + 1) :
      0 ≤ turnAt P i j k := by
    have hle := hconvex (i - 1) (j - 1) (k - 1) (by omega) (by omega) (by omega)
    rwa [turnAt, cut_of_lt (by omega), cut_of_lt (by omega), cut_of_lt (by omega),
      Nat.sub_add_cancel (by omega), Nat.sub_add_cancel (by omega), Nat.sub_add_cancel (by omega)]
      at hle
  intro i j k hij hjk hk
  rcases i.eq_zero_or_pos with rfl | hi
  · have hlast : 0 ≤ turnAt P m j k := by
      rcases (Nat.lt_succ_iff.mp hk).eq_or_lt with rfl | hk
      · exact (turn_self_outer _ _).ge
      · rw [turnAt, ← turn_rotate]
        exact hcut hij hjk hk (by omega)
    have hfirst : 0 ≤ turnAt P 1 j k := by
      rcases (Nat.succ_le_of_lt hij).eq_or_lt with rfl | hj
      · exact (turn_self_left _ _).ge
      · exact hcut one_pos hj hjk hk
    rw [turnAt, hbetween, toward_turn]
    exact add_nonneg (mul_nonneg (by linarith) hlast) (mul_nonneg hr.le hfirst)
  · exact hcut hi hij hjk hk

end Cut

theorem isConvexRing_of_turns (h : IsRing n P) (hleft : ∀ k, 0 ≤ turnAt P k (k + 1) (k + 2)) :
    IsConvexRing n P := by
  induction n generalizing P with
  | zero => exact fun i j k hij hjk hk => absurd hk k.not_lt_zero
  | succ m ih =>
    by_cases hm : 2 ≤ m
    · by_cases hflat : ∃ k, turnAt P k (k + 1) (k + 2) = 0
      · obtain ⟨k, hk⟩ := hflat
        apply isConvexRing_of_shift h.round (s := k + 1)
        have hshift := h.shift (k + 1)
        obtain ⟨r, hr, hr', hbetween⟩ : ∃ r, 0 < r ∧ r < 1 ∧
            P (0 + (k + 1)) = toward (P (m + (k + 1))) (P (1 + (k + 1))) r := by
          apply hshift.exists_between hm
          rw [turnAt_shift, show m + (k + 1) = k + (m + 1) by omega, turnAt_round h.round, hk]
        apply isConvexRing_of_cut hshift hr hr' hbetween
        apply ih (isRing_cut hshift hr hr' hbetween (by omega))
        apply turnAt_cut_nonneg hshift hr hr' hbetween hm
        intro l
        rw [turnAt_shift]
        exact hleft (l + (k + 1))
      · exact isConvexRing_of_left h fun k =>
          (hleft k).lt_of_ne fun hk => hflat ⟨k, hk.symm⟩
    · intro i j k hij hjk hk
      omega

end SolidClash.Polygon
