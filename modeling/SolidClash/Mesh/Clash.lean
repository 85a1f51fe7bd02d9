import SolidClash.Mesh.Watertight
import SolidClash.Octree.Walk
import SolidClash.Triangle.Intersection

namespace SolidClash.Mesh

variable {α : Type} [Scalar α]

def trianglesClash (ε : α) (s t : Triangle α) : Bool :=
  s.bounds.Overlaps t.bounds && s.intersects t ε (ε * ε)

def clash (a b : Mesh α) (ε : α) : Bool :=
  let ts := b.triangles
  a.triangles.any fun s => ts.any fun t => trianglesClash ε s t

def triangleIndex (root : Box α) (m : Mesh α) (maxDepth : Nat) :
    Except (OctreeError α) (Octree α Nat) := do
  (← Octree.new root maxDepth).insertAll (m.triangles.zipIdx.map fun (t, n) => ⟨t.bounds, n⟩)

def lookUp (index : Octree α Nat) (query : Box α) : List Nat :=
  (index.walkDown [] fun s => .when (s.bounds.Overlaps query)).flatMap fun s =>
    (s.entries.filter fun e => e.bounds.Overlaps query).map (·.value)

def clashIndexed (a b : Mesh α) (index : Octree α Nat) (ε : α) : Bool :=
  let ts := b.triangles.toArray
  a.triangles.any fun s =>
    (lookUp index s.bounds).any fun n => ts[n]?.any fun t => s.intersects t ε (ε * ε)

end SolidClash.Mesh
