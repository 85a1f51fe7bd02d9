import SolidClash.Polygon.Corner

/-! Square grids over flat polygons. A curve runs through the cells of a grid, quadrant by quadrant,
so that the cells of a box lie on it between those of the least and the greatest corner of the box.
-/

namespace SolidClash.Polygon

def interleave (i j : Nat) : Nat :=
  if i = 0 ∧ j = 0 then 0
  else i % 2 + 2 * (j % 2) + 4 * interleave (i / 2) (j / 2)
termination_by i + j

variable {α : Type} [Scalar α]

structure Grid (α : Type) where
  cellsPerUnit : α

namespace Grid

def single : Grid α := ⟨0⟩

def fitting (ring : List (Vertex α)) : Grid α :=
  match Scalar.range (ring.flatMap fun v => [v.2.x, v.2.y]) with
  | some (_, size) => if Scalar.IsZero size then single else ⟨32767.0 / size⟩
  | none => single

def covers (g : Grid α) (ring : List (Vertex α)) : Bool :=
  ring.all fun v =>
    Scalar.isFinite (v.2.x * g.cellsPerUnit) && Scalar.isFinite (v.2.y * g.cellsPerUnit)

def place (g : Grid α) (p : Vec2 α) : Nat :=
  interleave (Scalar.cell (p.x * g.cellsPerUnit)).toNat (Scalar.cell (p.y * g.cellsPerUnit)).toNat

def isNear (g : Grid α) (a b c p : Vec2 α) : Bool :=
  let box (pick : α → α → α) : Vec2 α := ⟨pick a.x (pick b.x c.x), pick a.y (pick b.y c.y)⟩
  g.place (box Scalar.minNum) ≤ g.place p && g.place p ≤ g.place (box Scalar.maxNum)

end Grid

end SolidClash.Polygon
