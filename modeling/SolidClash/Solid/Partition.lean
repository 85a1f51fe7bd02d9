import SolidClash.Solid.Facet

/-! Binary partitions of space: a plane with its facets splits the space in two, and either side may
be split again. What lies behind a plane and is not split further is inside the solid, what lies in
front is outside. -/

namespace SolidClash.Solid

inductive Partition where
  | space
  | split (plane : Plane) (facets : List Facet) (front back : Partition)

namespace Partition

def cost (fs : List Facet) (pl : Plane) : Nat :=
  let reaches := fs.map (Facet.reach pl)
  let front := reaches.count (true, false)
  let back := reaches.count (false, true)
  8 * reaches.count (true, true) + ((front : Int) - back).natAbs

def choose (f : Facet) (fs : List Facet) : Nat × Plane :=
  let rated (g : Facet) (i : Nat) := (cost (f :: fs) g.plane, i, g.plane)
  let others := ((fs.take 19).zipIdx 1).map fun (g, i) => rated g i
  (others.foldl (fun best next => if next.1 < best.1 then next else best) (rated f 0)).2

def partsAt (i : Nat) (pl : Plane) (fs : List Facet) : Parts :=
  .gather (fs.zipIdx.map fun (f, k) => if k = i then ⟨[f], [], []⟩ else f.cut pl)

def insert : (levels : Nat) → Partition → List Facet → Partition
  | 0, t, _ => t
  | _ + 1, t, [] => t
  | n + 1, space, f :: fs =>
    let (i, pl) := choose f fs
    let parts := partsAt i pl (f :: fs)
    split pl parts.on (insert n space parts.front) (insert n space parts.back)
  | n + 1, split pl gs front back, fs =>
    let parts := Parts.ofFacets pl fs
    split pl (gs ++ parts.on) (insert n front parts.front) (insert n back parts.back)

def invert : Partition → Partition
  | space => space
  | split pl fs front back => split pl.flip (fs.map Facet.flip) back.invert front.invert

def clip : Partition → List Facet → List Facet
  | space, fs => fs
  | split pl _ front back, fs =>
    let (before, behind) := Parts.sides pl fs
    let inner := match back with
      | space => []
      | back => back.clip behind
    front.clip before ++ inner

def clipTo (t other : Partition) : Partition :=
  match t with
  | space => space
  | split pl fs front back => split pl (other.clip fs) (front.clipTo other) (back.clipTo other)

def facets : Partition → List Facet
  | space => []
  | split _ fs front back => fs ++ back.facets ++ front.facets

def shared (fs gs : List Facet) : List Facet :=
  let levels := 2 * (fs.length + gs.length)
  let a := (insert levels space fs).invert
  let b := ((insert levels space gs).clipTo a).invert
  let a := a.clipTo b
  let b := b.clipTo a
  (insert levels a b.facets).invert.facets

end Partition

end SolidClash.Solid
