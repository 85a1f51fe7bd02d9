import SolidClash.Scalar

namespace SolidClash

inductive Axis where
  | x | y | z
deriving DecidableEq, Repr

def Axis.next : Axis → Axis
  | x => y
  | y => z
  | z => x

def Axis.others : Axis → Axis × Axis
  | x => (y, z)
  | y => (x, z)
  | z => (x, y)

structure Vec (α : Type) where
  x : α
  y : α
  z : α
deriving Repr, BEq

namespace Vec

variable {α : Type}

def along (v : Vec α) : Axis → α
  | .x => v.x
  | .y => v.y
  | .z => v.z

def toList (v : Vec α) : List α := [v.x, v.y, v.z]

@[inline]
def map {β : Type} (f : α → β) (v : Vec α) : Vec β := ⟨f v.x, f v.y, f v.z⟩

@[inline]
def zipWith (f : α → α → α) (v w : Vec α) : Vec α := ⟨f v.x w.x, f v.y w.y, f v.z w.z⟩

instance [Zero α] : Zero (Vec α) := ⟨⟨0, 0, 0⟩⟩
instance [Add α] : Add (Vec α) := ⟨zipWith (· + ·)⟩
instance [Sub α] : Sub (Vec α) := ⟨zipWith (· - ·)⟩

@[inline]
def scale [Mul α] (v : Vec α) (k : α) : Vec α := v.map (· * k)

@[inline]
def dot [Add α] [Mul α] (v w : Vec α) : α := v.x * w.x + v.y * w.y + v.z * w.z

@[inline]
def cross [Sub α] [Mul α] (v w : Vec α) : Vec α :=
  ⟨v.y * w.z - v.z * w.y, v.z * w.x - v.x * w.z, v.x * w.y - v.y * w.x⟩

variable [Scalar α]

def inf (v w : Vec α) : Vec α := v.zipWith Scalar.inf w

def sup (v w : Vec α) : Vec α := v.zipWith Scalar.sup w

def norm (v : Vec α) : α := Scalar.sqrt (v.dot v)

def unit? (v : Vec α) (least : α) : Option (Vec α) :=
  if v.norm ≤ least then none else some (v.map (· / v.norm))

def dominant (v : Vec α) : Axis :=
  let m := v.map Scalar.abs
  if m.x < m.y then
    if m.y < m.z then .z else .y
  else
    if m.x < m.z then .z else .x

def IsFinite (v : Vec α) : Prop :=
  Scalar.isFinite v.x ∧ Scalar.isFinite v.y ∧ Scalar.isFinite v.z

instance (v : Vec α) : Decidable v.IsFinite := inferInstanceAs (Decidable (_ ∧ _))

end Vec

structure Vec2 (α : Type) where
  x : α
  y : α
deriving Repr, BEq

namespace Vec2

variable {α : Type}

instance [Sub α] : Sub (Vec2 α) := ⟨fun v w => ⟨v.x - w.x, v.y - w.y⟩⟩

def dot [Add α] [Mul α] (v w : Vec2 α) : α := v.x * w.x + v.y * w.y

def turned [Neg α] (v : Vec2 α) : Vec2 α := ⟨-v.y, v.x⟩

def turn [Sub α] [Mul α] (a b c : Vec2 α) : α :=
  (b.x - a.x) * (c.y - a.y) - (b.y - a.y) * (c.x - a.x)

def bend [Sub α] [Mul α] (a b c : Vec2 α) : α :=
  (b.x - a.x) * (c.y - b.y) - (b.y - a.y) * (c.x - b.x)

variable [Scalar α]

def norm (v : Vec2 α) : α := Scalar.sqrt (v.dot v)

def unit? (v : Vec2 α) (least : α) : Option (Vec2 α) :=
  if v.norm ≤ least then none else some ⟨v.x / v.norm, v.y / v.norm⟩

def Coincides (v w : Vec2 α) : Prop := (v.x ≤ w.x ∧ w.x ≤ v.x) ∧ v.y ≤ w.y ∧ w.y ≤ v.y

instance (v w : Vec2 α) : Decidable (v.Coincides w) := inferInstanceAs (Decidable (_ ∧ _))

end Vec2

def Vec.onto {α : Type} (v : Vec α) (axes : Axis × Axis) : Vec2 α :=
  ⟨v.along axes.1, v.along axes.2⟩

/-- A projective map of space: three columns for the axes, one for the origin, and the row that
gives the divisor. -/
structure Placement (α : Type) where
  xAxis : Vec α
  yAxis : Vec α
  zAxis : Vec α
  origin : Vec α
  divisor : Vec α
  unit : α
deriving Repr, BEq

namespace Placement

variable {α : Type} [Scalar α]

def ofColumns? : List α → Option (Placement α)
  | [xx, xy, xz, xw, yx, yy, yz, yw, zx, zy, zz, zw, ox, oy, oz, ow] =>
    some ⟨⟨xx, xy, xz⟩, ⟨yx, yy, yz⟩, ⟨zx, zy, zz⟩, ⟨ox, oy, oz⟩, ⟨xw, yw, zw⟩, ow⟩
  | _ => none

def apply (m : Placement α) (p : Vec α) : Vec α :=
  let q := m.xAxis.scale p.x + m.yAxis.scale p.y + m.zAxis.scale p.z + m.origin
  let w := m.divisor.dot p + m.unit
  if Scalar.IsZero w then q else q.map (· / w)

end Placement

end SolidClash
