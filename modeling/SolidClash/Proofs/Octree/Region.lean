import SolidClash.Octree
import SolidClash.Proofs.Box

/-! Two boxes that clash take paths of which one continues the other. Only the order of the
coordinates matters. -/

namespace SolidClash

open OrderedScalar

variable {α : Type} [Scalar α]

namespace Octant

lemma lt_of_side {lo hi mid : α} {s : Bool} (h : side? lo hi mid = some s) :
    if s then mid < lo else hi < mid := by
  rw [side?] at h
  split at h
  · obtain rfl := Option.some.inj h
    simpa
  · split at h
    · obtain rfl := Option.some.inj h
      simpa
    · simp at h

lemma sides_of_holding {mid : Vec α} {b : Box α} {o : Octant} (h : holding? mid b = some o) :
    side? b.min.x b.max.x mid.x = some o.right ∧ side? b.min.y b.max.y mid.y = some o.back ∧
      side? b.min.z b.max.z mid.z = some o.upper := by
  simp only [holding?, Option.bind_eq_bind, Option.bind_eq_some_iff, Option.pure_def,
    Option.some.injEq] at h
  obtain ⟨r, hr, k, hk, u, hu, rfl⟩ := h
  simp only [right_ofSides, back_ofSides, upper_ofSides]
  exact ⟨hr, hk, hu⟩

lemma eq_of_sides {o p : Octant} (hr : o.right = p.right) (hb : o.back = p.back)
    (hu : o.upper = p.upper) : o = p := by
  revert hr hb hu
  cases o <;> cases p <;> decide

variable [OrderedScalar α]

lemma side_eq_of_clash {lo hi lo' hi' mid : α} {s s' : Bool} (h : side? lo hi mid = some s)
    (h' : side? lo' hi' mid = some s') (hc : lo' < hi) (hc' : lo < hi') : s = s' := by
  have hs := lt_of_side h
  have hs' := lt_of_side h'
  -- intervals on two sides of `mid` would be apart
  cases s <;> cases s' <;> simp only [Bool.false_eq_true, ↓reduceIte] at hs hs'
  · rfl
  · exact (asymm_lt (trans_lt hs hs') hc).elim
  · exact (asymm_lt (trans_lt hs' hs) hc').elim
  · rfl

lemma holding_eq_of_clashes {mid : Vec α} {b c : Box α} {o p : Octant}
    (hb : holding? mid b = some o) (hc : holding? mid c = some p) (h : b.Clashes c) : o = p := by
  obtain ⟨bx, by', bz⟩ := sides_of_holding hb
  obtain ⟨cx, cy, cz⟩ := sides_of_holding hc
  obtain ⟨hx, hx', hy, hy', hz, hz'⟩ := h
  exact eq_of_sides (side_eq_of_clash bx cx hx hx') (side_eq_of_clash by' cy hy hy')
    (side_eq_of_clash bz cz hz hz')

lemma part_fits {mid : Vec α} {b c : Box α} {o : Octant} (h : holding? mid c = some o)
    (hf : b.Fits c) : (o.part b mid).Fits c := by
  obtain ⟨hx, hy, hz⟩ := sides_of_holding h
  obtain ⟨fx, fy, fz, fx', fy', fz'⟩ := hf
  have sx := lt_of_side hx
  have sy := lt_of_side hy
  have sz := lt_of_side hz
  simp only [Box.Fits, part]
  refine ⟨?_, ?_, ?_, ?_, ?_, ?_⟩ <;> split_ifs <;> simp_all [weaken_lt]

end Octant

namespace Octree

/-- The path of at most `depth` octants from a node with box `b` to the deepest one that holds
`value`. -/
def descent (value : Box α) : (depth : ℕ) → (b : Box α) → Path
  | 0, _ => []
  | depth + 1, b =>
    match Octant.holding? b.center value with
    | none => []
    | some o => o :: descent value depth (o.part b b.center)

def region (b : Box α) : Path → Box α
  | [] => b
  | o :: p => region (o.part b b.center) p

lemma length_descent_le (v : Box α) (d : ℕ) (b : Box α) : (descent v d b).length ≤ d := by
  induction d generalizing b with
  | zero => simp [descent]
  | succ d ih =>
    rw [descent]
    split
    · simp
    · simpa using ih _

variable [OrderedScalar α]

lemma region_fits {v b : Box α} {d : ℕ} {p : Path} (hf : b.Fits v) (hp : p <+: descent v d b) :
    (region b p).Fits v := by
  induction p generalizing b d with
  | nil => exact hf
  | cons o p ih =>
    cases d with
    | zero => simp [descent] at hp
    | succ d =>
      rw [descent] at hp
      split at hp
      · simp at hp
      · rename_i o' ho
        obtain ⟨rfl, hp'⟩ := List.cons_prefix_cons.mp hp
        exact ih (Octant.part_fits ho hf) hp'

lemma descent_comparable {v w : Box α} (h : v.Clashes w) (d : ℕ) (b : Box α) :
    descent v d b <+: descent w d b ∨ descent w d b <+: descent v d b := by
  induction d generalizing b with
  | zero => exact Or.inl List.nil_prefix
  | succ d ih =>
    simp only [descent]
    cases hv : Octant.holding? b.center v with
    | none => exact Or.inl List.nil_prefix
    | some o =>
      cases hw : Octant.holding? b.center w with
      | none => exact Or.inr List.nil_prefix
      | some p =>
        obtain rfl := Octant.holding_eq_of_clashes hv hw h
        simpa only [List.cons_prefix_cons, true_and] using ih _

end Octree

end SolidClash
