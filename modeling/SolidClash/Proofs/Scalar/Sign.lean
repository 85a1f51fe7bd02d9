import Mathlib
import SolidClash.Proofs.Scalar.Binary64

namespace SolidClash.Binary64

open Float.Model Float.Model.UnpackedFloat

def sign? : UnpackedFloat → Option Sign
  | .notANumber => none
  | .infinity s => some s
  | .zero s => some s
  | .finite s _ _ _ => some s

def Nonneg (x : UnpackedFloat) : Prop := (∃ s, x = .zero s) ∨ sign? x = some .positive

theorem zero_le_iff (a : Float) : 0 ≤ a ↔ Nonneg a.toModel.unpack := by
  have hzero : rankOf? 0 = some (toLex (0, toLex (0, 0))) := by decide +kernel
  rw [le_iff, hzero, rankOf?, Nonneg]
  rcases a.toModel.unpack with (_ | _) | _ | _ | ⟨_ | _, m, e, _⟩ <;>
    simp [rank?, sign?, Prod.Lex.toLex_le_toLex]

theorem sign_packComponents (s : Sign) (e : BitVec 11) (m : BitVec 52) :
    Sign.ofBitVec (unpackSign (packComponents .binary64 s e m)) = s := by
  rw [unpackSign_packComponents, Sign.ofBitVec_toBitVec]

theorem sign?_pack {x : UnpackedFloat} {s : Sign} (h : sign? x = some s) :
    sign? (Float.Model.pack x).unpack = none ∨ sign? (Float.Model.pack x).unpack = some s := by
  have hsign : Sign.ofBitVec
      (@unpackSign .binary64 (UnpackedFloat.pack .binary64 x)) = s := by
    rcases x with _ | _ | _ | ⟨_, m, e, _⟩
    · exact (sign_packComponents _ _ _).trans (Option.some.inj h)
    · cases h
    · exact (sign_packComponents _ _ _).trans (Option.some.inj h)
    · rw [← Option.some.inj h, UnpackedFloat.pack]
      dsimp only
      split_ifs <;> exact sign_packComponents _ _ _
  change sign? (UnpackedFloat.unpack .binary64 (UnpackedFloat.pack .binary64 x)) = none ∨
    sign? (UnpackedFloat.unpack .binary64 (UnpackedFloat.pack .binary64 x)) = some s
  rw [UnpackedFloat.unpack, hsign]
  dsimp only
  split_ifs <;> simp [sign?]

theorem nonneg_pack {x : UnpackedFloat} (h : Nonneg x)
    (hn : sign? (Float.Model.pack x).unpack ≠ none) : Nonneg (Float.Model.pack x).unpack := by
  rcases h with ⟨s, rfl⟩ | h
  · exact Or.inl ⟨s, by cases s <;> rfl⟩
  · exact Or.inr ((sign?_pack h).resolve_left hn)

theorem sign?_ne_none {a : Float} (h : Scalar.IsNumber a) : sign? a.toModel.unpack ≠ none := by
  obtain ⟨x, _, hx, _⟩ := (le_iff a a).mp h
  rw [rankOf?] at hx
  intro hnone
  revert hx hnone
  rcases a.toModel.unpack with _ | _ | _ | _ <;> simp [sign?, rank?]

def Canonical : UnpackedFloat → Prop
  | .finite _ m e _ => m < 2 ^ 53 ∧ -1074 ≤ e ∧ (e = -1074 ∨ 2 ^ 52 ≤ m)
  | _ => True

theorem canonical_unpack (f : Float.Model) : Canonical f.unpack := by
  have happend (m : BitVec 52) : (1#1 ++ m).toNat = 2 ^ 52 + m.toNat := by
    rw [BitVec.toNat_append, ← Nat.shiftLeft_add_eq_or_of_lt m.isLt]
    rfl
  have hzero (e : BitVec 11) (h : ¬ e = 0#11) : 1 ≤ e.toNat :=
    Nat.one_le_iff_ne_zero.mpr fun h0 => h (BitVec.eq_of_toNat_eq h0)
  have hbias : Format.binary64.exponentBias = 1023 := rfl
  have hm := (@unpackMantissa .binary64 f.toBits.toBitVec).isLt
  rw [Float.Model.unpack, UnpackedFloat.unpack]
  dsimp only at hm ⊢
  split_ifs with hinf hm0 he0 hm0'
  · trivial
  · trivial
  · trivial
  · refine ⟨?_, ?_, Or.inl ?_⟩
    · omega
    · rw [hbias, he0]
      decide
    · rw [hbias, he0]
      decide
  · have he := hzero _ he0
    refine ⟨?_, ?_, Or.inr ?_⟩
    · rw [happend]
      omega
    · rw [hbias]
      omega
    · rw [happend]
      omega

theorem nonneg_round (m : ℕ) (e : ℤ) :
    Nonneg (UnpackedFloat.round .binary64 .positive m e) := by
  unfold UnpackedFloat.round roundWithAccuracy
  dsimp only
  split
  · exact Or.inl ⟨_, rfl⟩
  · exact Or.inr rfl

theorem nonneg_normalize {m : ℤ} (h : 0 ≤ m) (e : ℤ) :
    Nonneg (UnpackedFloat.normalize .binary64 m e .positive) := by
  rw [UnpackedFloat.normalize]
  split
  · rename_i hlt
    rw [compare_lt_iff_lt] at hlt
    exact absurd h hlt.not_ge
  · exact Or.inl ⟨_, rfl⟩
  · exact nonneg_round _ _

theorem shift_le {m m' : ℕ} {e e' : ℤ} (hm : m < 2 ^ 53) (he : -1074 ≤ e)
    (hm' : e' = -1074 ∨ 2 ^ 52 ≤ m') (h : e < e' ∨ e = e' ∧ m ≤ m') :
    m <<< (e - min e e').toNat ≤ m' <<< (e' - min e e').toNat := by
  rcases h with hlt | ⟨rfl, hle⟩
  · rw [min_eq_left hlt.le, Int.sub_self, Int.toNat_zero, Nat.shiftLeft_zero, Nat.shiftLeft_eq]
    have hlead : 2 ^ 52 ≤ m' := hm'.resolve_left (by omega)
    have hpow : 2 ^ 1 ≤ 2 ^ (e' - e).toNat := Nat.pow_le_pow_right (by decide) (by omega)
    calc m ≤ 2 ^ 52 * 2 ^ 1 := hm.le
      _ ≤ m' * 2 ^ (e' - e).toNat := Nat.mul_le_mul hlead hpow
  · simpa using hle

theorem isFinite_of_sub {x y : UnpackedFloat}
    (h : (UnpackedFloat.sub .binary64 y x).isFinite = true) :
    y.isFinite = true ∧ x.isFinite = true := by
  rcases y with s | _ | s | ⟨s, m, e, _⟩
  · rcases x with s' | _ | s' | _
    · rw [UnpackedFloat.sub] at h
      split at h <;> cases h
    all_goals cases h
  · rcases x with _ | _ | _ | _ <;> cases h
  all_goals
    rcases x with s' | _ | s' | ⟨s', m', e', _⟩
    · cases h
    · cases h
    · exact ⟨rfl, rfl⟩
    · exact ⟨rfl, rfl⟩

theorem nonneg_sub {x y : UnpackedFloat} {u v : Rank} (hx : Canonical x) (hy : Canonical y)
    (hu : rank? x = some u) (hv : rank? y = some v) (h : u ≤ v)
    (hfinite : (UnpackedFloat.sub .binary64 y x).isFinite = true) :
    Nonneg (UnpackedFloat.sub .binary64 y x) := by
  obtain ⟨hyf, hxf⟩ := isFinite_of_sub hfinite
  have hle {u' v' : Rank} (hu' : rank? x = some u') (hv' : rank? y = some v') : u' ≤ v' := by
    rwa [← Option.some.inj (hu.symm.trans hu'), ← Option.some.inj (hv.symm.trans hv')]
  clear hu hv h
  rcases y with _ | _ | s | ⟨_ | _, m, e, hpos⟩
  · cases hyf
  · cases hyf
  · rcases x with _ | _ | s' | ⟨_ | _, m', e', hpos'⟩
    · cases hxf
    · cases hxf
    · rw [UnpackedFloat.sub]
      split <;> exact Or.inl ⟨_, rfl⟩
    · exact Or.inr rfl
    · have h := hle rfl rfl
      simp [Prod.Lex.toLex_le_toLex] at h
  · rcases x with _ | _ | s' | ⟨_ | _, m', e', hpos'⟩
    · cases hxf
    · cases hxf
    · have h := hle rfl rfl
      simp [Prod.Lex.toLex_le_toLex] at h
    · refine nonneg_normalize ?_ _
      have h := hle rfl rfl
      simp [Prod.Lex.toLex_le_toLex] at h
      have hshift := shift_le hy.1 hy.2.1 hx.2.2 (by omega)
      simp only [Sign.apply]
      omega
    · have h := hle rfl rfl
      simp [Prod.Lex.toLex_le_toLex] at h
  · rcases x with _ | _ | s' | ⟨_ | _, m', e', hpos'⟩
    · cases hxf
    · cases hxf
    · exact Or.inr rfl
    · refine nonneg_normalize ?_ _
      simp only [Sign.apply, Int.sub_neg]
      exact Int.add_nonneg (Int.natCast_nonneg _) (Int.natCast_nonneg _)
    · refine nonneg_normalize ?_ _
      have h := hle rfl rfl
      simp [Prod.Lex.toLex_le_toLex] at h
      have hshift := shift_le hx.1 hx.2.1 hy.2.2 (by omega)
      rw [min_comm] at hshift
      simp only [Sign.apply]
      omega

end SolidClash.Binary64

namespace SolidClash.Scalar

open Binary64 Float.Model

theorem difference_nonneg {a b : Float} (h : a ≤ b) (hfinite : (b - a).isFinite = true) :
    0 ≤ b - a := by
  obtain ⟨u, v, hu, hv, huv⟩ := (le_iff a b).mp h
  let x := UnpackedFloat.sub .binary64 b.toModel.unpack a.toModel.unpack
  have hround : x.isFinite = true := by
    by_contra hn
    have hpack : (b - a).isFinite = false := isFinite_pack (Bool.eq_false_iff.mpr hn)
    rw [hpack] at hfinite
    cases hfinite
  refine (zero_le_iff _).mpr (nonneg_pack (x := x) ?_ ?_)
  · exact nonneg_sub (canonical_unpack _) (canonical_unpack _) hu hv huv hround
  · exact sign?_ne_none (OrderedScalar.finite_number hfinite)

theorem negation_nonneg {a z : Float} (hz : rankOf? z = some (toLex (0, toLex (0, 0)))) (h : a < z)
    (hn : IsNumber (-a)) : 0 ≤ -a := by
  obtain ⟨u, v, hu, hv, huv⟩ := (lt_iff a z).mp h
  obtain rfl := Option.some.inj (hz.symm.trans hv)
  refine (zero_le_iff _).mpr (nonneg_pack (x := a.toModel.unpack.neg) ?_ (sign?_ne_none hn))
  rw [rankOf?] at hu
  revert hu
  rcases a.toModel.unpack with (_ | _) | _ | s | ⟨_ | _, m, e, _⟩ <;> intro hu <;> cases hu
  · exact Or.inr rfl
  · simp [Prod.Lex.toLex_lt_toLex] at huv
  · simp at huv
  · exact Or.inr rfl
  · simp [Prod.Lex.toLex_lt_toLex] at huv

theorem magnitude_nonneg {a : Float} (h : IsNumber (Scalar.abs a)) : 0 ≤ Scalar.abs a := by
  revert h
  rw [Scalar.abs]
  split
  · rename_i hlt
    intro h
    exact negation_nonneg (by decide +kernel) hlt h
  · rename_i hlt
    intro h
    have hzero : (0 : Float) ≤ (Zero.zero : Float) := by decide +kernel
    exact OrderedScalar.trans_le hzero (OrderedScalar.le_of_not_lt (by decide +kernel) h hlt)

end SolidClash.Scalar
