import SolidClash.Solid.Plane
import SolidClash.Triangle

namespace SolidClash.Solid

structure Facet where
  corners : List (Vec Float)
  plane : Plane
deriving Repr

structure Parts where
  on : List Facet
  front : List Facet
  back : List Facet

namespace Facet

def ofTriangle (t : Triangle Float) : Facet := ⟨t.corners, ⟨t.a, t.b, t.c⟩⟩

def ofCorners? (ps : List (Vec Float)) : Option Facet :=
  (Plane.ofCorners? ps).map fun pl => ⟨ps, pl⟩

def flip (f : Facet) : Facet := ⟨f.corners.reverse, f.plane.flip⟩

def reach (pl : Plane) (f : Facet) : Bool × Bool :=
  f.corners.foldl (fun (front, back) p =>
    match pl.side p with
    | .front => (true, back)
    | .on => (front, back)
    | .back => (front, true)) (false, false)

def partOn (pl : Plane) (s : Side) (cs : List (Vec Float × Side)) : List (Vec Float) :=
  (Polygon.cyclicPairs cs).flatMap fun ((p, sp), (q, sq)) =>
    let kept := if sp = s ∨ sp = .on then [p] else []
    let crossed := if sp ≠ .on ∧ sq ≠ .on ∧ sp ≠ sq then (pl.crossing? p q).toList else []
    kept ++ crossed

def cut (pl : Plane) (f : Facet) : Parts :=
  let cs := f.corners.map fun p => (p, pl.side p)
  match cs.any (·.2 = .front), cs.any (·.2 = .back) with
  | false, false => ⟨[f], [], []⟩
  | true, false => ⟨[], [f], []⟩
  | false, true => ⟨[], [], [f]⟩
  | true, true =>
    ⟨[], (ofCorners? (partOn pl .front cs)).toList, (ofCorners? (partOn pl .back cs)).toList⟩

end Facet

namespace Parts

def gather (parts : List Parts) : Parts :=
  ⟨parts.flatMap Parts.on, parts.flatMap Parts.front, parts.flatMap Parts.back⟩

def ofFacets (pl : Plane) (fs : List Facet) : Parts := gather (fs.map (Facet.cut pl))

def sides (pl : Plane) (fs : List Facet) : List Facet × List Facet :=
  let parts := fs.map (Facet.cut pl)
  let front (p : Parts) := p.front ++ p.on.filter fun f => pl.facing f.plane = .front
  let back (p : Parts) := p.back ++ p.on.filter fun f => pl.facing f.plane ≠ .front
  (parts.flatMap front, parts.flatMap back)

end Parts

end SolidClash.Solid
