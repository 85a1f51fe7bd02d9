namespace SolidClash

structure Binary where
  mantissa : Int
  exponent : Int
deriving DecidableEq, Repr

namespace Binary

def ofFloat (x : Float) : Binary :=
  let bits : Nat := x.toBits.toNat
  let unit := Nat.pow 2 52
  let fraction := bits % unit
  let field := bits / unit % 2048
  let m : Int := if field = 0 then fraction else unit + fraction
  ⟨if bits < Nat.pow 2 63 then m else -m, max field 1 - 1075⟩

def units (b : Binary) (exponent : Int) : Int :=
  b.mantissa * Nat.pow 2 (b.exponent - exponent).toNat / Nat.pow 2 (exponent - b.exponent).toNat

def toFloat (b : Binary) : Float :=
  let n := b.mantissa.natAbs
  let places := n.log2 - 62
  let unit := Nat.pow 2 places
  let q := if n % unit = 0 then n / unit else n / unit / 2 * 2 + 1
  let x := (UInt64.ofNat q).toFloat.scaleB (b.exponent + places)
  if b.mantissa < 0 then -x else x

end Binary

end SolidClash
