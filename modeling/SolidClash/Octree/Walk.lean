import SolidClash.Octree

/-! Walks over an octree. A visitor says of each node whether it is reported and whether its
children are visited too. -/

namespace SolidClash.Octree

structure Spot (α β : Type) where
  path : Path
  node : Node α β

structure Visit where
  matched : Bool
  descend : Bool
deriving DecidableEq, Repr

namespace Visit

def all : Visit := ⟨true, true⟩

def prune : Visit := ⟨false, false⟩

def when (c : Bool) : Visit := ⟨c, c⟩

end Visit

namespace Spot

variable {α β : Type} [Scalar α]

def depth (s : Spot α β) : Nat := s.node.depth

def bounds (s : Spot α β) : Box α := s.node.bounds

def entries (s : Spot α β) : List (Entry α β) := s.node.entries.toList

def children (s : Spot α β) : List (Spot α β) :=
  Octant.all.filterMap fun o => (s.node.child? o).map fun c => ⟨s.path ++ [o], c⟩

end Spot

variable {α β : Type} [Scalar α]

def spot? (t : Octree α β) (p : Path) : Option (Spot α β) := (t.node? p).map (⟨p, ·⟩)

def descendLevels (visit : Spot α β → Visit) : (levels : Nat) → List (Spot α β) → List (Spot α β)
  | 0, _ => []
  | _, [] => []
  | levels + 1, level =>
    level ++ descendLevels visit levels
      ((level.filter fun s => (visit s).descend).flatMap Spot.children)

def visitedDown (t : Octree α β) (start : Path) (visit : Spot α β → Visit) : List (Spot α β) :=
  descendLevels visit (t.maxDepth + 1) (t.spot? start).toList

def climb (t : Octree α β) : (levels : Nat) → (next : Option Path) → List (Spot α β)
  | 0, _ => []
  | _, none => []
  | levels + 1, some key =>
    match t.spot? key with
    | none => []
    | some s => s :: t.climb levels s.node.parent

def visitedUp (t : Octree α β) (start : Path) : List (Spot α β) :=
  t.climb t.maxDepth ((t.node? start).bind Node.parent)

def walkDown (t : Octree α β) (start : Path) (visit : Spot α β → Visit) : List (Spot α β) :=
  (t.visitedDown start visit).filter fun s => (visit s).matched

def walkUp (t : Octree α β) (start : Path) (visit : Spot α β → Visit) : List (Spot α β) :=
  (t.visitedUp start).filter fun s => (visit s).matched

def walkUpDown (t : Octree α β) (start : Path) (visit : Spot α β → Visit) : List (Spot α β) :=
  t.walkUp start visit ++ t.walkDown start visit

def spots (t : Octree α β) : List (Spot α β) := t.visitedDown [] fun _ => .all

def entries (t : Octree α β) : List (Spot α β × Entry α β) :=
  t.spots.flatMap fun s => s.entries.map (s, ·)

def nodeCount (t : Octree α β) : Nat := t.spots.length

end SolidClash.Octree
