import SolidClash.Mesh
import SolidClash.Polygon.Triangulation
import SolidClash.Solid.Partition

/-! The solid shared by two meshes. Each mesh stands for the inside of the partition that the planes
of its triangles make of space. -/

namespace SolidClash.Solid

inductive Error where
  | nonFinite
  | other (reason : String)
deriving DecidableEq, Repr

def Error.reason : Error → String
  | nonFinite => "non-finite vertex in boolean result"
  | other reason => reason

def Error.message (e : Error) : String := "Intersection failed: " ++ e.reason

def facetsOf (origin : Vec Float) (m : Mesh Float) : List Facet :=
  (m.triangles.filter fun t => (t.normal.unit? 1e-12).isSome).map fun t =>
    .ofTriangle ⟨t.a - origin, t.b - origin, t.c - origin⟩

def trianglesOf (ps : List (Vec Float)) : List (Triangle Float) :=
  let n := Polygon.normal ps
  if n.norm ≤ 1e-20 then []
  else
    match Polygon.triangulate ps n with
    | .ok ts =>
      let points := ps.toArray
      ts.filterMap fun (i, j, k) => do
        return ⟨← points[i]?, ← points[j]?, ← points[k]?⟩
    | .error _ => []

/-- The solid shared by two meshes, worked out around the centre of the first. -/
def intersection (a b : Mesh Float) : Except Error (Mesh Float) :=
  match a.bounds?, b.bounds? with
  | some boxA, some boxB =>
    if boxA.Overlaps boxB then
      let origin := boxA.center
      let shared := Partition.shared (facetsOf origin a) (facetsOf origin b)
      let polygons := shared.map fun f => f.corners.map (· + origin)
      if polygons.any fun ps => ps.any fun p => ¬ p.IsFinite then .error .nonFinite
      else .ok (.ofTriangles (polygons.flatMap trianglesOf))
    else .ok (.ofTriangles [])
  | _, _ => .ok (.ofTriangles [])

end SolidClash.Solid
