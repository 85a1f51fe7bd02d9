namespace SolidClash

structure Decimal where
  digits : Nat
  exponent : Int
deriving DecidableEq, Repr

namespace Decimal

def ten (exponent : Int) : Nat := Nat.pow 10 exponent.toNat

def trim (d : Decimal) : Decimal :=
  if h : 0 < d.digits ∧ d.digits % 10 = 0 then trim ⟨d.digits / 10, d.exponent + 1⟩ else d
termination_by d.digits
decreasing_by omega

def positional (d : Decimal) : String :=
  if 0 ≤ d.exponent then toString (d.digits * ten d.exponent)
  else
    let places := (-d.exponent).toNat
    let ds := (toString d.digits).toList
    let ds := List.replicate (places + 1 - ds.length) '0' ++ ds
    let whole := ds.length - places
    String.ofList (ds.take whole ++ '.' :: ds.drop whole)

def toFloat (d : Decimal) : Float :=
  if d.digits = 0 then 0.0
  else
    let magnitude := (Nat.log2 d.digits * 30103 / 100000 : Nat) + d.exponent
    if 400 < magnitude then 1.0 / 0.0
    else if magnitude < -500 then 0.0
    else if d.exponent < 0 then Float.ofScientific d.digits true (-d.exponent).toNat
    else Float.ofScientific d.digits false d.exponent.toNat

end Decimal

end SolidClash
