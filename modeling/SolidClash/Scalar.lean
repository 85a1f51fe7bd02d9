/-! The arithmetic that the geometry asks of its coordinates. Comparisons may fail both ways (a
NaN): `inf` and `sup` then take their second argument, `minNum` and `maxNum` pass over a NaN. -/

namespace SolidClash

class Scalar (α : Type) extends Add α, Sub α, Mul α, Div α, Neg α, LE α, LT α, Zero α, One α,
    OfScientific α where
  decLe (a b : α) : Decidable (a ≤ b)
  decLt (a b : α) : Decidable (a < b)
  sqrt : α → α
  isFinite : α → Bool
  cell : α → Int

namespace Scalar

variable {α : Type} [Scalar α]

instance (a b : α) : Decidable (a ≤ b) := decLe a b
instance (a b : α) : Decidable (a < b) := decLt a b

def inf (a b : α) : α := if a ≤ b then a else b

def sup (a b : α) : α := if b ≤ a then a else b

protected def abs (a : α) : α := if a < 0 then -a else a

def IsZero (a : α) : Prop := a ≤ 0 ∧ 0 ≤ a

instance (a : α) : Decidable (IsZero a) := inferInstanceAs (Decidable (_ ∧ _))

def IsNumber (a : α) : Prop := a ≤ a

instance (a : α) : Decidable (IsNumber a) := inferInstanceAs (Decidable (_ ≤ _))

def minNum (a b : α) : α := if a ≤ b then a else if IsNumber b then b else a

def maxNum (a b : α) : α := if b ≤ a then a else if IsNumber b then b else a

def range (as : List α) : Option (α × α) :=
  as.foldl (fun r a =>
    if IsNumber a then
      match r with
      | none => some (a, a)
      | some (lo, hi) => some (minNum lo a, maxNum hi a)
    else r) none

def sum (as : List α) : α := as.foldl (· + ·) 0

end Scalar

def Scalar.clampCell (z : Int) : Int := max Int64.minValue.toInt (min Int64.maxValue.toInt z)

instance : Scalar Float where
  zero := 0.0
  one := 1.0
  decLe := Float.decLe
  decLt := Float.decLt
  sqrt := Float.sqrt
  isFinite := Float.isFinite
  cell a := a.floor.toInt64.toInt

end SolidClash
