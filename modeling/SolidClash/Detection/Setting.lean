import SolidClash.Mesh.Clash
import SolidClash.Options
import SolidClash.Results
import SolidClash.Rules.TypeFilter
import SolidClash.Solid.Intersection

namespace SolidClash.Detection

inductive Side where
  | first
  | second
deriving DecidableEq, Repr

structure Item where
  side : Side
  object : Object
  geometry : Geometry
  type : TypeId

/-- Works out the solid shared by two meshes, given the number of earlier calls in the run. -/
abbrev Solver := Nat → Mesh Float → Mesh Float → Except Solid.Error (Mesh Float)

/-- The solver that takes the shared solid as it is. -/
def Solver.exact : Solver := fun _ a b => Solid.intersection a b

structure Setting where
  rules : Rules
  options : Options
  solver : Solver
  filter : TypeFilter
  first : Model
  second : Model
  selfCheck : Bool
  secondCount : Nat

namespace Setting

def model (s : Setting) : Side → Model
  | .first => s.first
  | .second => s.second

def isAnchor (s : Setting) (i : Item) : Bool := s.selfCheck || i.side = .first

def isCandidate (s : Setting) (i : Item) : Bool := s.selfCheck || i.side = .second

end Setting

end SolidClash.Detection
