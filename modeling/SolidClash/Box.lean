import SolidClash.Vec

/-! Boxes with sides along the axes. `Clashes` is strict, so boxes that share only a face do not
clash; `Overlaps` counts touching boxes. -/

namespace SolidClash

structure Box (α : Type) where
  min : Vec α
  max : Vec α
deriving Repr, BEq

namespace Box

variable {α : Type} [Scalar α]

def ofPoint (p : Vec α) : Box α := ⟨p, p⟩

def cover (b : Box α) (p : Vec α) : Box α := ⟨b.min.inf p, b.max.sup p⟩

def union (a b : Box α) : Box α := ⟨a.min.inf b.min, a.max.sup b.max⟩

def unionAll? : List (Box α) → Option (Box α)
  | [] => none
  | b :: bs => some (bs.foldl union b)

/-- Both corners times a factor; a negative one swaps them. -/
def scaled (b : Box α) (k : α) : Box α :=
  let p := b.min.scale k
  let q := b.max.scale k
  ⟨p.inf q, p.sup q⟩

def center (b : Box α) : Vec α := (b.min + b.max).scale 0.5

def extents (b : Box α) : Vec α := b.max - b.min

def IsEmpty (b : Box α) : Prop :=
  b.max.x < b.min.x ∨ b.max.y < b.min.y ∨ b.max.z < b.min.z

def IsFinite (b : Box α) : Prop := b.min.IsFinite ∧ b.max.IsFinite

def Fits (outer inner : Box α) : Prop :=
  outer.min.x ≤ inner.min.x ∧ outer.min.y ≤ inner.min.y ∧ outer.min.z ≤ inner.min.z ∧
    inner.max.x ≤ outer.max.x ∧ inner.max.y ≤ outer.max.y ∧ inner.max.z ≤ outer.max.z

def Clashes (a b : Box α) : Prop :=
  b.min.x < a.max.x ∧ a.min.x < b.max.x ∧ b.min.y < a.max.y ∧ a.min.y < b.max.y ∧
    b.min.z < a.max.z ∧ a.min.z < b.max.z

def Overlaps (a b : Box α) : Prop :=
  b.min.x ≤ a.max.x ∧ a.min.x ≤ b.max.x ∧ b.min.y ≤ a.max.y ∧ a.min.y ≤ b.max.y ∧
    b.min.z ≤ a.max.z ∧ a.min.z ≤ b.max.z

instance (b : Box α) : Decidable b.IsEmpty := inferInstanceAs (Decidable (_ ∨ _))
instance (b : Box α) : Decidable b.IsFinite := inferInstanceAs (Decidable (_ ∧ _))
instance (a b : Box α) : Decidable (a.Fits b) := inferInstanceAs (Decidable (_ ∧ _))
instance (a b : Box α) : Decidable (a.Clashes b) := inferInstanceAs (Decidable (_ ∧ _))
instance (a b : Box α) : Decidable (a.Overlaps b) := inferInstanceAs (Decidable (_ ∧ _))

theorem clashes_comm (a b : Box α) : a.Clashes b ↔ b.Clashes a := by
  simp only [Clashes]
  grind

theorem overlaps_comm (a b : Box α) : a.Overlaps b ↔ b.Overlaps a := by
  simp only [Overlaps]
  grind

def toList (b : Box α) : List α := b.min.toList ++ b.max.toList

def empty : Box Float :=
  let inf : Float := 1.0 / 0.0
  ⟨⟨inf, inf, inf⟩, ⟨-inf, -inf, -inf⟩⟩

def ofPoints (ps : List (Vec Float)) : Box Float := ps.foldl cover empty

end Box

end SolidClash
