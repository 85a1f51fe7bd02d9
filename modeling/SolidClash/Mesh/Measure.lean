import SolidClash.Mesh

namespace SolidClash.Mesh

open Scalar

variable {α : Type} [Scalar α]

def fan (apex : Vec α) (t : Triangle α) : α :=
  (t.a - apex).dot ((t.b - apex).cross (t.c - apex))

/-- The enclosed volume, summed over tetrahedra from the centre of the box. It means something for
closed meshes only. -/
def volume (m : Mesh α) : α :=
  match m.bounds? with
  | none => 0
  | some box => Scalar.abs (Scalar.sum (m.triangles.map (fan box.center)) / 6.0)

def area (m : Mesh α) : α := Scalar.sum (m.triangles.map Triangle.area)

end SolidClash.Mesh
