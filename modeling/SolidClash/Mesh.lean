import SolidClash.Triangle

/-! Triangle meshes. Triples of the index buffer that name no triangle are dropped and counted. -/

namespace SolidClash

structure Face (α : Type) where
  corners : UInt32 × UInt32 × UInt32
  triangle : Triangle α
deriving Repr

structure Mesh (α : Type) where
  points : Array (Vec α)
  faces : List (Face α)
  undecodable : Nat

namespace Mesh

variable {α : Type} [Scalar α]

def triangles (m : Mesh α) : List (Triangle α) := m.faces.map Face.triangle

def indices (m : Mesh α) : List UInt32 :=
  m.faces.flatMap fun f => [f.corners.1, f.corners.2.1, f.corners.2.2]

def IsEmpty (m : Mesh α) : Prop := m.faces = []

instance (m : Mesh α) : Decidable m.IsEmpty :=
  decidable_of_iff (m.faces.isEmpty) (by simp [IsEmpty])

def bounds? (m : Mesh α) : Option (Box α) := Box.unionAll? (m.triangles.map Triangle.bounds)

def bounds (m : Mesh Float) : Box Float := m.bounds?.getD Box.empty

/-- Consecutive triples of the index buffer; one or two indices left over make a torn triple. -/
def triples : List UInt32 → List (Option (UInt32 × UInt32 × UInt32))
  | i :: j :: k :: rest => some (i, j, k) :: triples rest
  | [] => []
  | _ => [none]

def pointsOf : List α → List (Vec α)
  | x :: y :: z :: rest => ⟨x, y, z⟩ :: pointsOf rest
  | _ => []

def corner? (points : Array (Vec α)) (i : UInt32) : Option (Vec α) :=
  points[i.toNat]?.filter fun p => p.IsFinite

def face? (points : Array (Vec α)) : Option (UInt32 × UInt32 × UInt32) → Option (Face α)
  | none => none
  | some (i, j, k) =>
    match corner? points i, corner? points j, corner? points k with
    | some a, some b, some c => some ⟨(i, j, k), ⟨a, b, c⟩⟩
    | _, _, _ => none

def ofBuffers (indices : List UInt32) (coordinates : List α) (place : Option (Placement α))
    (scale : α) : Mesh α :=
  let points := ((pointsOf coordinates).map fun p => (place.elim p (·.apply p)).scale scale).toArray
  let faces := (triples indices).map (face? points)
  ⟨points, faces.filterMap id, faces.countP Option.isNone⟩

def ofTriangles (ts : List (Triangle α)) : Mesh α :=
  let points := (ts.flatMap Triangle.corners).toArray
  let faces := ts.zipIdx.map fun (t, n) =>
    ⟨(UInt32.ofNat (3 * n), UInt32.ofNat (3 * n + 1), UInt32.ofNat (3 * n + 2)), t⟩
  ⟨points, faces, 0⟩

def cuboidFaces : List (UInt32 × UInt32 × UInt32) :=
  [(0, 2, 1), (0, 3, 2), (4, 5, 6), (4, 6, 7), (0, 4, 7), (0, 7, 3),
    (1, 2, 6), (1, 6, 5), (0, 1, 5), (0, 5, 4), (3, 7, 6), (3, 6, 2)]

def cuboidPoint (p q : Vec α) (i : UInt32) : Vec α :=
  match i with
  | 0 => ⟨p.x, p.y, p.z⟩
  | 1 => ⟨q.x, p.y, p.z⟩
  | 2 => ⟨q.x, q.y, p.z⟩
  | 3 => ⟨p.x, q.y, p.z⟩
  | 4 => ⟨p.x, p.y, q.z⟩
  | 5 => ⟨q.x, p.y, q.z⟩
  | 6 => ⟨q.x, q.y, q.z⟩
  | _ => ⟨p.x, q.y, q.z⟩

def cuboid (p q : Vec α) : Mesh α :=
  ⟨([0, 1, 2, 3, 4, 5, 6, 7].map (cuboidPoint p q)).toArray,
    cuboidFaces.map fun (i, j, k) =>
      ⟨(i, j, k), ⟨cuboidPoint p q i, cuboidPoint p q j, cuboidPoint p q k⟩⟩, 0⟩

end Mesh

end SolidClash
