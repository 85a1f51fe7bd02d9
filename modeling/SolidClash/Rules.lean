import SolidClash.Decimal.Shortest

namespace SolidClash

structure TypeCombination where
  typeName : String
  combinedWith : List String
deriving DecidableEq, Repr

def TypeCombination.pairs (c : TypeCombination) : List (String × String) :=
  if c.combinedWith.isEmpty then [(c.typeName, c.typeName)]
  else c.combinedWith.map fun other => (c.typeName, other)

/-- What one run checks, and which clashes it keeps. Lengths are in metres. -/
structure Rules where
  name : Option String := none
  id : Option String := none
  epsilon : Float := 1e-5
  skipDefaultRules : Bool := false
  onlyCheckWithOwnType : List String := []
  typesToIgnore : List TypeCombination := []
  typesToCheck : List TypeCombination := []
  computeVolumes : Bool := false
  minClashVolume : Float := 0.0
  minClashHorizontal : Float := 0.0
  minClashVertical : Float := 0.0
  volumeTriangleThreshold : Nat := 5000
  property : Option String := none
  propertySet : Option String := none
deriving Repr

namespace Rules

inductive Error where
  | negativeOrNonFinite (field : String) (value : Float)
  | propertyWithoutSet
deriving Repr

def Error.message : Error → String
  | negativeOrNonFinite field value =>
    "Invalid clash rules: " ++ field ++ " must be a non-negative number, got " ++ Decimal.text value
  | propertyWithoutSet => "Invalid clash rules: property and propertySet must be given together"

def IsTolerance (x : Float) : Prop := x.isFinite ∧ ¬ x < 0

instance (x : Float) : Decidable (IsTolerance x) := inferInstanceAs (Decidable (_ ∧ _))

/-- The fields that must not be negative, in the order in which they are checked. -/
def tolerances (r : Rules) : List (String × Float) :=
  [("epsilon", r.epsilon), ("minClashVolume", r.minClashVolume),
    ("minClashHorizontal", r.minClashHorizontal), ("minClashVertical", r.minClashVertical)]

def fault? (r : Rules) : Option Error :=
  match r.tolerances.find? fun (_, x) => ¬ IsTolerance x with
  | some (field, x) => some (.negativeOrNonFinite field x)
  | none => if r.property.isSome != r.propertySet.isSome then some .propertyWithoutSet else none

def validate (r : Rules) : Except Error Unit :=
  match r.fault? with
  | some e => .error e
  | none => .ok ()

theorem fault?_of_validate {r : Rules} (h : r.validate = .ok ()) : r.fault? = none := by
  rw [validate] at h
  cases hf : r.fault? with
  | none => rfl
  | some e => simp [hf] at h

theorem isTolerance_of_fault? {r : Rules} (h : r.fault? = none) {p : String × Float}
    (hp : p ∈ r.tolerances) : IsTolerance p.2 := by
  rw [fault?] at h
  split at h
  · cases h
  · rename_i hfind
    simpa using List.find?_eq_none.mp hfind p hp

def usesProperty (r : Rules) : Bool := r.property.isSome && r.propertySet.isSome

def needsVolume (r : Rules) : Bool :=
  r.computeVolumes || 0 < r.minClashVolume || 0 < r.minClashHorizontal || 0 < r.minClashVertical

def accepts (r : Rules) (volume width height : Float) : Bool :=
  r.minClashVolume ≤ volume && r.minClashHorizontal ≤ width && r.minClashVertical ≤ height

end Rules

end SolidClash
