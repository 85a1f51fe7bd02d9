import SolidClash.Vec

namespace SolidClash.Polygon

variable {α : Type} [Scalar α]

def cyclicPairs {β : Type} (bs : List β) : List (β × β) := bs.zip (bs.drop 1 ++ bs.take 1)

def edgeNormal (p q : Vec α) : Vec α :=
  ⟨(p.y - q.y) * (p.z + q.z), (p.z - q.z) * (p.x + q.x), (p.x - q.x) * (p.y + q.y)⟩

def normal (ps : List (Vec α)) : Vec α :=
  (cyclicPairs ps).foldl (fun n (p, q) => n + edgeNormal p q) 0

def axesAlong (n : Vec α) : Axis × Axis :=
  let k := n.dominant
  if n.along k < 0 then (k.next.next, k.next) else (k.next, k.next.next)

def flatten (ps : List (Vec α)) (n : Vec α) : List (Vec2 α) := ps.map (·.onto (axesAlong n))

def turns (ps : List (Vec2 α)) : List α :=
  let followers := (ps.drop 1 ++ ps.take 1).zip (ps.drop 2 ++ ps.take 2)
  (ps.zip followers).map fun (a, b, c) => Vec2.turn a b c

def straight : α := 1e-12

def SameSign (s t : α) : Prop := (0 < s ∧ 0 < t) ∨ (s < 0 ∧ t < 0)

instance (s t : α) : Decidable (SameSign s t) := inferInstanceAs (Decidable (_ ∨ _))

def isConvex (ps : List (Vec2 α)) : Bool :=
  match (turns ps).filter fun t => ¬ Scalar.abs t ≤ straight with
  | [] => true
  | t :: ts => ts.all fun s => SameSign t s

abbrev Triangle := Nat × Nat × Nat

def fan (n : Nat) : List Triangle := (List.range (n - 2)).map fun i => (0, i + 1, i + 2)

end SolidClash.Polygon
