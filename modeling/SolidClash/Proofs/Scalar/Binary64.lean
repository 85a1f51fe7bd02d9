import SolidClash.Proofs.Scalar.Order

namespace SolidClash.Binary64

open Float.Model

abbrev Rank := Int ×ₗ Int ×ₗ Int

def rank? : UnpackedFloat → Option Rank
  | .notANumber => none
  | .infinity .negative => some (toLex (-2, toLex (0, 0)))
  | .finite .negative m e _ => some (toLex (-1, toLex (-e, -m)))
  | .zero _ => some (toLex (0, toLex (0, 0)))
  | .finite .positive m e _ => some (toLex (1, toLex (e, m)))
  | .infinity .positive => some (toLex (2, toLex (0, 0)))

theorem compare_eq (a b : UnpackedFloat) :
    a.compare b = (rank? a).bind fun x => (rank? b).map fun y =>
      if x < y then .lt else if x = y then .eq else .gt := by
  rcases a with (_ | _) | _ | (_ | _) | ⟨_ | _, m, e, _⟩ <;>
    rcases b with (_ | _) | _ | (_ | _) | ⟨_ | _, m', e', _⟩ <;>
    dsimp only [UnpackedFloat.compare, rank?] <;>
    simp [Prod.Lex.toLex_lt_toLex, compare, compareOfLessAndEq]
  -- two finite numbers of one sign are left
  all_goals grind [Ordering.then, Ordering.swap]

def rankOf? (a : Float) : Option Rank := rank? a.toModel.unpack

theorem le_iff (a b : Float) :
    a ≤ b ↔ ∃ x y, rankOf? a = some x ∧ rankOf? b = some y ∧ x ≤ y := by
  apply Iff.trans (decide_eq_true_iff (p := a.toModel.unpack.le b.toModel.unpack = true))
  rw [UnpackedFloat.le, compare_eq]
  simp only [rankOf?]
  cases rank? a.toModel.unpack with
  | none => simp
  | some x =>
    cases rank? b.toModel.unpack with
    | none => simp
    | some y =>
      rcases lt_trichotomy x y with h | h | h
      · simp [h, h.le]
      · simp [h]
      · simp [h.not_gt, h.ne', h]

theorem lt_iff (a b : Float) :
    a < b ↔ ∃ x y, rankOf? a = some x ∧ rankOf? b = some y ∧ x < y := by
  apply Iff.trans (decide_eq_true_iff (p := a.toModel.unpack.lt b.toModel.unpack = true))
  rw [UnpackedFloat.lt, compare_eq]
  simp only [rankOf?]
  cases rank? a.toModel.unpack with
  | none => simp
  | some x =>
    cases rank? b.toModel.unpack with
    | none => simp
    | some y =>
      rcases lt_trichotomy x y with h | h | h
      · simp [h]
      · simp [h]
      · simp [h.not_gt, h.ne']

theorem rankOf_isSome_of_isFinite {a : Float} (h : a.isFinite = true) :
    ∃ x, rankOf? a = some x := by
  change a.toModel.unpack.isFinite = true at h
  rw [rankOf?]
  revert h
  rcases a.toModel.unpack with (_ | _) | _ | (_ | _) | ⟨_ | _, m, e, _⟩ <;>
    dsimp only [UnpackedFloat.isFinite, rank?] <;> simp

theorem rank_bounds {r : UnpackedFloat} {x : Rank} (h : rank? r = some x) :
    toLex (-2, toLex (0, 0)) ≤ x ∧ x ≤ toLex (2, toLex (0, 0)) := by
  revert h
  rcases r with (_ | _) | _ | (_ | _) | ⟨_ | _, m, e, _⟩ <;> dsimp only [rank?] <;> intro h <;>
    cases h <;> simp [Prod.Lex.toLex_le_toLex]

theorem isFinite_pack {r : UnpackedFloat} (h : r.isFinite = false) :
    (pack r).unpack.isFinite = false := by
  rcases r with (_ | _) | _ | _ | _
  · decide +kernel
  · decide +kernel
  · decide +kernel
  · cases h
  · cases h

theorem isFinite_mul {a : Float} (h : a.isFinite = false) (k : Float) :
    (a * k).isFinite = false := by
  change a.toModel.unpack.isFinite = false at h
  refine isFinite_pack (r := .mul .binary64 a.toModel.unpack k.toModel.unpack) ?_
  generalize a.toModel.unpack = x, k.toModel.unpack = y at h
  rcases x with _ | _ | _ | _
  · cases y <;> rfl
  · rfl
  · cases h
  · cases h

end SolidClash.Binary64

namespace SolidClash

open Binary64

instance : OrderedScalar Float where
  trans_le {a b c} h h' := by
    obtain ⟨x, y, ha, hb, hxy⟩ := (le_iff a b).mp h
    obtain ⟨y', z, hb', hc, hyz⟩ := (le_iff b c).mp h'
    obtain rfl : y = y' := Option.some.inj (hb.symm.trans hb')
    exact (le_iff a c).mpr ⟨x, z, ha, hc, hxy.trans hyz⟩
  lt_iff_le {a b} := by
    apply (lt_iff a b).trans
    rw [le_iff a b, le_iff b a]
    constructor
    · rintro ⟨x, y, ha, hb, h⟩
      refine ⟨⟨x, y, ha, hb, h.le⟩, ?_⟩
      rintro ⟨y', x', hb', ha', h'⟩
      obtain rfl : x = x' := Option.some.inj (ha.symm.trans ha')
      obtain rfl : y = y' := Option.some.inj (hb.symm.trans hb')
      exact h.not_ge h'
    · rintro ⟨⟨x, y, ha, hb, _⟩, hn⟩
      exact ⟨x, y, ha, hb, not_le.mp fun h => hn ⟨y, x, hb, ha, h⟩⟩
  total_le {a b} ha hb := by
    obtain ⟨x, _, ha, _, _⟩ := (le_iff a a).mp ha
    obtain ⟨y, _, hb, _, _⟩ := (le_iff b b).mp hb
    exact (le_total x y).imp (fun h => (le_iff a b).mpr ⟨x, y, ha, hb, h⟩)
      fun h => (le_iff b a).mpr ⟨y, x, hb, ha, h⟩
  left_number {a b} h := by
    obtain ⟨x, _, ha, _, _⟩ := (le_iff a b).mp h
    exact (le_iff a a).mpr ⟨x, x, ha, ha, le_rfl⟩
  right_number {a b} h := by
    obtain ⟨_, y, _, hb, _⟩ := (le_iff a b).mp h
    exact (le_iff b b).mpr ⟨y, y, hb, hb, le_rfl⟩
  finite_number {a} h := by
    obtain ⟨x, ha⟩ := rankOf_isSome_of_isFinite h
    exact (le_iff a a).mpr ⟨x, x, ha, ha, le_rfl⟩

theorem Scalar.IsNumber.between_infinities {a : Float} (h : IsNumber a) :
    -(1.0 / 0.0) ≤ a ∧ a ≤ 1.0 / 0.0 := by
  obtain ⟨x, _, hx, _, _⟩ := (le_iff a a).mp h
  have hneg : rankOf? (-(1.0 / 0.0)) = some (toLex (-2, toLex (0, 0))) := by decide +kernel
  have hpos : rankOf? (1.0 / 0.0) = some (toLex (2, toLex (0, 0))) := by decide +kernel
  obtain ⟨hlo, hhi⟩ := rank_bounds hx
  exact ⟨(le_iff _ _).mpr ⟨_, _, hneg, hx, hlo⟩, (le_iff _ _).mpr ⟨_, _, hx, hpos, hhi⟩⟩

end SolidClash
