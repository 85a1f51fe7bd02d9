namespace SolidClash

structure Pair where
  low : UInt64
  high : UInt64
  low_le_high : low ≤ high
deriving DecidableEq, Repr

namespace Pair

def of (a b : UInt64) : Pair :=
  if h : a ≤ b then ⟨a, b, h⟩ else ⟨b, a, UInt64.le_of_lt (UInt64.not_le.mp h)⟩

def text (p : Pair) : String := toString p.low.toNat ++ "_" ++ toString p.high.toNat

instance : Ord Pair where
  compare p q := (compare p.low q.low).then (compare p.high q.high)

theorem compare_def (p q : Pair) :
    compare p q = (compare p.low q.low).then (compare p.high q.high) := rfl

instance : Std.TransOrd Pair where
  eq_swap {p q} := by
    simp only [compare_def, Ordering.swap_then]
    rw [Std.OrientedOrd.eq_swap (a := p.low), Std.OrientedOrd.eq_swap (a := p.high)]
  isLE_trans {p q r} := by
    have h : Std.TransCmp (compareLex (compareOn Pair.low) (compareOn Pair.high)) := inferInstance
    exact h.isLE_trans

instance : Std.LawfulEqOrd Pair where
  eq_of_compare {p q} h := by
    rw [compare_def, Ordering.then_eq_eq] at h
    obtain ⟨h₁, h₂⟩ := h
    cases p
    cases q
    simp_all

theorem of_comm (a b : UInt64) : of a b = of b a := by
  unfold of
  split <;> split <;> simp_all <;> grind

end Pair

end SolidClash
