import SolidClash.Polygon.Dissection

namespace SolidClash.Polygon

variable {α : Type} [Scalar α]

def wind (ps : Array (Vec2 α)) (t : Triangle) : Triangle :=
  match ps[t.1]?, ps[t.2.1]?, ps[t.2.2]? with
  | some a, some b, some c => if Vec2.turn a b c < 0 then (t.1, t.2.2, t.2.1) else t
  | _, _, _ => t

inductive Error where
  | tooFewPoints (n : Nat)
  | offGrid
deriving DecidableEq, Repr

def Error.reason : Error → String
  | tooFewPoints n => "face with " ++ toString n ++ " points"
  | offGrid => "Unknown"

def Error.message (e : Error) : String := "Triangulation failed: " ++ e.reason

def triangulate (ps : List (Vec α)) (n : Vec α) : Except Error (List Triangle) :=
  if ps.length < 3 then .error (.tooFewPoints ps.length)
  else if ps.length = 3 then .ok [(0, 1, 2)]
  else
    let flat := flatten ps n
    match if isConvex flat then some (fan ps.length) else triangles? flat with
    | some ts => .ok (ts.map (wind flat.toArray))
    | none => .error .offGrid

end SolidClash.Polygon
