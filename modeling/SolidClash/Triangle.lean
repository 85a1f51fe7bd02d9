import SolidClash.Box

namespace SolidClash

structure Triangle (α : Type) where
  a : Vec α
  b : Vec α
  c : Vec α
deriving Repr

namespace Triangle

variable {α : Type}

def corners (t : Triangle α) : List (Vec α) := [t.a, t.b, t.c]

def normal [Sub α] [Mul α] (t : Triangle α) : Vec α := (t.b - t.a).cross (t.c - t.a)

variable [Scalar α]

def bounds (t : Triangle α) : Box α := ((Box.ofPoint t.a).cover t.b).cover t.c

def unitNormal? (t : Triangle α) : Option (Vec α) := t.normal.unit? 1e-20

def area (t : Triangle α) : α := t.normal.norm * 0.5

def IsDegenerate (t : Triangle α) : Prop := t.unitNormal? = none

instance (t : Triangle α) : Decidable t.IsDegenerate :=
  decidable_of_iff (t.unitNormal?.isNone) (by simp [IsDegenerate])

def magnitude (t : Triangle α) : α :=
  (t.corners.flatMap Vec.toList).foldl (fun m k => Scalar.maxNum m (Scalar.abs k)) 0

end Triangle

end SolidClash
