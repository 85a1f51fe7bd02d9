import SolidClash.Mesh
import SolidClash.Weld
import Std.Data.HashSet

/-! A mesh is watertight when its welded half-edges pair up with their reverses. Half-edges are
taken in order: each one closes a waiting reverse, or else waits itself. -/

namespace SolidClash.Mesh

variable {α : Type} [Scalar α]

abbrev HalfEdge := Nat × Nat

def weldTolerance : α := 1e-8

def halfEdges : List Nat → List HalfEdge
  | a :: b :: c :: rest => (a, b) :: (b, c) :: (c, a) :: halfEdges rest
  | _ => []

def pairUp (waiting : Std.HashSet HalfEdge) (e : HalfEdge) : Std.HashSet HalfEdge :=
  if waiting.contains e.swap then waiting.erase e.swap else waiting.insert e

def weldedCorners (ts : List (Triangle α)) : List Nat :=
  ((Weld.new weldTolerance).insertAll (ts.flatMap Triangle.corners)).1

def isWatertight (ts : List (Triangle α)) : Bool :=
  !ts.isEmpty && ((halfEdges (weldedCorners ts)).foldl pairUp ∅).isEmpty

inductive Closedness where
  | closed
  | opened
  | undecodable
deriving DecidableEq, Repr

def closedness (m : Mesh α) : Closedness :=
  if 0 < m.undecodable then .undecodable else if isWatertight m.triangles then .closed else .opened

end SolidClash.Mesh
