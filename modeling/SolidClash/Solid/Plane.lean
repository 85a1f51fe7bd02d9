import SolidClash.Binary
import SolidClash.Polygon

namespace SolidClash.Solid

def negligible : Float := 1e-8

structure Plane where
  a : Vec Float
  b : Vec Float
  c : Vec Float
deriving Repr

inductive Side where
  | front
  | on
  | back
deriving DecidableEq, Repr

namespace Plane

def flip (pl : Plane) : Plane := ⟨pl.b, pl.a, pl.c⟩

def normal (pl : Plane) : Vec Float :=
  let n := (pl.b - pl.a).cross (pl.c - pl.a)
  if n.norm < negligible then 0 else n.map (· / n.norm)

def commonExponent (ps : List (Vec Float)) : Int :=
  let xs := (ps.flatMap Vec.toList).filter fun x => x != 0
  match xs.map fun x => (Binary.ofFloat x).exponent with
  | [] => 0
  | e :: es => es.foldl min e

def exactSpan (pl : Plane) (p : Vec Float) : Float :=
  let e := commonExponent [pl.a, pl.b, pl.c, p]
  let whole (q : Vec Float) : Vec Int := q.map fun x => (Binary.ofFloat x).units e
  let arm (q : Vec Float) := whole q - whole p
  Binary.toFloat ⟨(arm pl.a).dot ((arm pl.b).cross (arm pl.c)), 3 * e⟩

def sideOf (span : Float) : Side :=
  if negligible < span then .back else if span < -negligible then .front else .on

def side (pl : Plane) (p : Vec Float) : Side :=
  let (u, v, w) := (pl.a - p, pl.b - p, pl.c - p)
  let rough := u.z * (v.x * w.y - w.x * v.y) + v.z * (w.x * u.y - u.x * w.y) +
    w.z * (u.x * v.y - v.x * u.y)
  let size := ((v.x * w.y).abs + (w.x * v.y).abs) * u.z.abs +
    ((w.x * u.y).abs + (u.x * w.y).abs) * v.z.abs + ((u.x * v.y).abs + (v.x * u.y).abs) * w.z.abs
  let error := size * 7.771561172376103e-16
  if error < rough.abs then sideOf rough
  else if error * 2 ≤ negligible then .on
  else if [pl.a, pl.b, pl.c, p].all fun q => q.IsFinite then sideOf (pl.exactSpan p)
  else .on

def facing (pl other : Plane) : Side := pl.side (other.a + other.normal)

def crossing? (pl : Plane) (p q : Vec Float) : Option (Vec Float) :=
  let n := pl.normal
  let slope := n.dot (q - p)
  if negligible < slope.abs then some (p + (q - p).scale ((n.dot pl.a - n.dot p) / slope))
  else none

def pairs {β : Type} : List β → List (β × β)
  | [] => []
  | b :: bs => bs.map (fun c => (b, c)) ++ pairs bs

def largest? {β : Type} (size : β → Float) : List β → Option β
  | [] => none
  | b :: bs =>
    let exceeds (m c : β) := size m ≤ size c ∨ ¬ Scalar.IsNumber (size m)
    some (bs.foldl (fun m c => if exceeds m c then c else m) b)

def ofCorners? (ps : List (Vec Float)) : Option Plane := do
  let first : Plane ← match ps with
    | a :: b :: c :: _ => some ⟨a, b, c⟩
    | _ => none
  if ps.length = 3 then return first
  let square (v : Vec Float) := v.dot v
  let tiny := negligible * negligible
  let ((p, i), (q, j)) ← largest? (fun (p, q) => square (p.1 - q.1)) (pairs ps.zipIdx)
  let area (r : Vec Float) := square ((r - p).cross (q - p))
  let rest := ps.zipIdx.filter fun (_, k) => k ≠ i ∧ k ≠ j
  let (r, _) ← largest? (fun r => area r.1) rest
  if square (q - p) < tiny ∨ ¬ tiny < area r then return first
  let chosen : Plane := ⟨p, q, r⟩
  let outline := (Polygon.cyclicPairs ps).foldl (fun n (p, q) => n + p.cross q) 0
  return if chosen.normal.dot outline < 0 then chosen.flip else chosen

end Plane

end SolidClash.Solid
