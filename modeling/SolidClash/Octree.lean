import SolidClash.Octant

/-! Octrees of boxed values. A value lies at the deepest node whose box fully holds it: one that
touches a split plane stays at the node where the split happens. -/

namespace SolidClash

inductive OctreeError (α : Type) where
  | outsideRoot (value root : Box α)
  | unusableRoot (box : Box α)

namespace Octree

abbrev Path := List Octant

structure Entry (α β : Type) where
  bounds : Box α
  value : β

/-- What a node is given when it is made and keeps. -/
structure Place (α : Type) where
  key : Path
  bounds : Box α
  depth : Nat
  parent : Option Path

namespace Place

variable {α : Type} [Scalar α]

def root (b : Box α) : Place α := ⟨[], b, 0, none⟩

def mid (pl : Place α) : Vec α := pl.bounds.center

def child (pl : Place α) (o : Octant) : Place α :=
  ⟨pl.key ++ [o], o.part pl.bounds pl.mid, pl.depth + 1, some pl.key⟩

def turn? (pl : Place α) (maxDepth : Nat) (value : Box α) : Option Octant :=
  if maxDepth ≤ pl.depth then none else Octant.holding? pl.mid value

end Place

inductive Node (α β : Type) where
  | mk (place : Place α) (entries : Array (Entry α β)) (children : Octants (Option (Node α β)))

namespace Node

variable {α β : Type}

def place : Node α β → Place α
  | mk pl _ _ => pl

def entries : Node α β → Array (Entry α β)
  | mk _ es _ => es

def children : Node α β → Octants (Option (Node α β))
  | mk _ _ cs => cs

def key (n : Node α β) : Path := n.place.key

def bounds (n : Node α β) : Box α := n.place.bounds

def depth (n : Node α β) : Nat := n.place.depth

def parent (n : Node α β) : Option Path := n.place.parent

def child? (n : Node α β) (o : Octant) : Option (Node α β) := n.children.get o

def bare (pl : Place α) : Node α β := mk pl #[] (.const none)

def at? (n : Node α β) : Path → Option (Node α β)
  | [] => some n
  | o :: p => (n.child? o).bind fun c => c.at? p

/-- Walks down from a node, over at most `levels` levels and making the children that are missing on
the way, and stores the entry where the walk ends. The key of that node comes first. -/
def insert [Scalar α] (maxDepth : Nat) (e : Entry α β) :
    (levels : Nat) → Node α β → Path × Node α β
  | 0, mk pl es cs => (pl.key, mk pl (es.push e) cs)
  | levels + 1, mk pl es cs =>
    match pl.turn? maxDepth e.bounds with
    | none => (pl.key, mk pl (es.push e) cs)
    | some o =>
      let (key, child) := ((cs.get o).getD (bare (pl.child o))).insert maxDepth e levels
      (key, mk pl es (cs.set (some child) o))

end Node

end Octree

structure Octree (α β : Type) where
  root : Octree.Node α β
  maxDepth : Nat
  length : Nat

namespace Octree

variable {α β : Type} [Scalar α]

def defaultMaxDepth : Nat := 24

def new (b : Box α) (maxDepth : Nat) : Except (OctreeError α) (Octree α β) :=
  if b.IsEmpty ∨ ¬ b.IsFinite then .error (.unusableRoot b)
  else .ok ⟨.bare (.root b), maxDepth, 0⟩

def bounds (t : Octree α β) : Box α := t.root.bounds

def node? (t : Octree α β) (p : Path) : Option (Node α β) := t.root.at? p

/-- The key of the node that the value is stored at, or why it is not, and the tree after that. -/
def insert (t : Octree α β) (b : Box α) (value : β) :
    Except (OctreeError α) Path × Octree α β :=
  if t.bounds.Fits b then
    let (key, root) := t.root.insert t.maxDepth ⟨b, value⟩ t.maxDepth
    (.ok key, { t with root, length := t.length + 1 })
  else (.error (.outsideRoot b t.bounds), t)

def insertAll (t : Octree α β) : List (Entry α β) → Except (OctreeError α) (Octree α β)
  | [] => .ok t
  | e :: es =>
    match t.insert e.bounds e.value with
    | (.error err, _) => .error err
    | (.ok _, t) => t.insertAll es

end Octree

end SolidClash
