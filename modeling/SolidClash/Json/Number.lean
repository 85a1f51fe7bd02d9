import SolidClash.Decimal.Reader
import SolidClash.Json

namespace SolidClash.Json

structure Numeral where
  negative : Bool
  whole : List Char
  fraction : Option (List Char)
  exponent : Option (Bool × List Char)

def tornNumeral : Flaw := ⟨.ended, some .malformed⟩

def digitMissing : List Char → Flaw
  | [] => tornNumeral
  | _ => .plain .malformed

def scanExponent (negative : Bool) (whole : List Char) (fraction : Option (List Char)) :
    List Char → Except Flaw (Numeral × List Char)
  | cs@(c :: rest) =>
    if c = 'e' ∨ c = 'E' then
      let (below, rest) : Bool × List Char := match rest with
        | '-' :: r => (true, r)
        | '+' :: r => (false, r)
        | r => (false, r)
      let (ds, after) := Decimal.spanDigits rest
      if ds.isEmpty then .error (digitMissing after)
      else .ok (⟨negative, whole, fraction, some (below, ds)⟩, after)
    else .ok (⟨negative, whole, fraction, none⟩, cs)
  | [] => .ok (⟨negative, whole, fraction, none⟩, [])

def scanFraction (negative : Bool) (whole : List Char) :
    List Char → Except Flaw (Numeral × List Char)
  | '.' :: rest =>
    let (ds, after) := Decimal.spanDigits rest
    if ds.isEmpty then .error (digitMissing after)
    else scanExponent negative whole (some ds) after
  | cs => scanExponent negative whole none cs

def scanNumeral (cs : List Char) : Except Flaw (Numeral × List Char) :=
  let (negative, cs) : Bool × List Char := match cs with
    | '-' :: rest => (true, rest)
    | cs => (false, cs)
  let (ds, after) := Decimal.spanDigits cs
  match ds with
  | [] => .error (digitMissing after)
  | '0' :: _ :: _ => .error (.plain .malformed)
  | _ => scanFraction negative ds after

namespace Numeral

def pack (n : Nat) : List Char → Nat × List Char
  | [] => (n, [])
  | d :: ds =>
    let m := Decimal.digitsValue n [d]
    if m < UInt64.size then pack m ds else (n, d :: ds)

def scaleTen (x : Float) : (fuel : Nat) → (e : Int) → Option Float
  | 0, _ => some x
  | fuel + 1, e =>
    if e.natAbs ≤ 308 then
      let power := Float.ofScientific 1 false e.natAbs
      if 0 ≤ e then
        let y := x * power
        if y.isInf then none else some y
      else some (x / power)
    else if x == 0.0 then some x
    else if 0 ≤ e then none
    else scaleTen (x / 1e308) fuel (e + 308)

def clampExponent (e : Int) : Int := max Int32.minValue.toInt (min Int32.maxValue.toInt e)

def value? (n : Numeral) : Option Number :=
  let (kept, spare) := pack 0 n.whole
  let signed (x : Float) : Number := .float (if n.negative then -x else x)
  if n.fraction.isNone ∧ n.exponent.isNone ∧ spare.isEmpty then
    if n.negative then
      if 0 < kept ∧ Int64.minValue.toInt ≤ -kept then some (.integer (-kept))
      else some (signed (Float.ofScientific kept false 0))
    else some (.integer kept)
  else
    let ds := n.fraction.getD []
    let (kept, unread) := pack kept ds
    let shift : Int := spare.length - (ds.length - unread.length : Nat)
    let (below, es) := n.exponent.getD (false, [])
    let e : Int := Decimal.digitsValue 0 es
    if Int32.maxValue.toInt < e then
      if kept ≠ 0 ∧ ¬ below then none else some (signed 0.0)
    else
      let shift := clampExponent (if below then shift - e else shift + e)
      (scaleTen (Float.ofScientific kept false 0) (shift.natAbs / 308 + 1) shift).map signed

end Numeral

def readNumber (cs : List Char) : Json × Option (List Char) :=
  match scanNumeral cs with
  | .error f => (.flawed f true, none)
  | .ok (n, rest) =>
    match n.value? with
    | some x => (.number x, some rest)
    | none => (.flawed ⟨.malformed, none⟩ true, some rest)

end SolidClash.Json
