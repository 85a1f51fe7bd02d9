import SolidClash.Binary
import SolidClash.Decimal

/-! The shortest decimal of a floating-point number: the fewest digits that read back to the same
number, and of those the nearest. All comparisons are between natural numbers. -/

namespace SolidClash.Decimal

structure Interval where
  low : Nat
  value : Nat
  high : Nat
  denominator : Nat
  closed : Bool
deriving Repr

def Interval.ofBinary (mantissa : Nat) (exponent : Int) (atPower : Bool) : Interval :=
  let up := Nat.pow 2 (exponent - 2).toNat
  { low := (4 * mantissa - if atPower then 1 else 2) * up
    value := 4 * mantissa * up
    high := (4 * mantissa + 2) * up
    denominator := Nat.pow 2 (2 - exponent).toNat
    closed := mantissa % 2 == 0 }

def Interval.ofFloat (x : Float) : Interval :=
  let b := Binary.ofFloat x
  let m := b.mantissa.natAbs
  .ofBinary m b.exponent (m == Nat.pow 2 52 && -1074 < b.exponent)

def powerAbove (num den : Nat) : (fuel : Nat) → (k : Int) → Int
  | 0, k => k
  | fuel + 1, k =>
    if num * ten (-k) < den * ten k then k else powerAbove num den fuel (k + 1)

namespace Interval

def onGrid (i : Interval) (place : Int) : Nat × Nat :=
  (i.denominator * ten place, ten (-place))

def Holds (i : Interval) (place : Int) (c : Nat) : Prop :=
  let (a, b) := i.onGrid place
  if i.closed then i.low * b ≤ c * a ∧ c * a ≤ i.high * b
  else i.low * b < c * a ∧ c * a < i.high * b

instance (i : Interval) (place : Int) (c : Nat) : Decidable (i.Holds place c) := by
  unfold Holds
  infer_instance

def neighbour? (i : Interval) (place : Int) : Option Nat :=
  let (a, b) := i.onGrid place
  let c := i.value * b / a
  let belowNearer : Bool := i.value * b - c * a < (c + 1) * a - i.value * b
  if i.Holds place c then
    if i.Holds place (c + 1) then some (if belowNearer then c else c + 1) else some c
  else if i.Holds place (c + 1) then some (c + 1)
  else none

def coarsest (i : Interval) : (grids : Nat) → (place : Int) → Decimal
  | 0, place => ⟨i.value * (i.onGrid place).2 / (i.onGrid place).1, place⟩
  | grids + 1, place =>
    match i.neighbour? place with
    | some c => ⟨c, place⟩
    | none => i.coarsest grids (place - 1)

end Interval

def shortest (x : Float) : Decimal :=
  let i := Interval.ofFloat x
  (i.coarsest 17 (powerAbove i.value i.denominator 700 (-330) - 1)).trim

def text (x : Float) : String :=
  if x.isNaN then "NaN"
  else if x.isInf then if x < 0 then "-inf" else "inf"
  else
    let sign := if x.toBits < 0x8000000000000000 then "" else "-"
    if x == 0.0 then sign ++ "0" else sign ++ (shortest x.abs).positional

end SolidClash.Decimal
