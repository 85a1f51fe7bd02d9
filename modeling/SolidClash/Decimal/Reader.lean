import SolidClash.Decimal

namespace SolidClash.Decimal

def digitsValue (n : Nat) (cs : List Char) : Nat :=
  cs.foldl (fun n c => 10 * n + (c.toNat - '0'.toNat)) n

def spanDigits (cs : List Char) : List Char × List Char :=
  (cs.takeWhile Char.isDigit, cs.dropWhile Char.isDigit)

def readNat? (limit : Nat) (s : String) : Option Nat :=
  let cs := match s.toList with
    | '+' :: cs => cs
    | cs => cs
  if cs.isEmpty ∨ ¬ cs.all Char.isDigit then none
  else
    let n := digitsValue 0 cs
    if n < limit then some n else none

def readExponent? : List Char → Option Int
  | [] => some 0
  | c :: cs =>
    if c = 'e' ∨ c = 'E' then
      let (negative, ds) : Bool × List Char := match cs with
        | '-' :: ds => (true, ds)
        | '+' :: ds => (false, ds)
        | ds => (false, ds)
      if ds.isEmpty ∨ ¬ ds.all Char.isDigit then none
      else
        let n : Int := digitsValue 0 ds
        some (if negative then -n else n)
    else none

def readUnsigned? (cs : List Char) : Option Decimal :=
  let (whole, rest) := spanDigits cs
  let (places, rest) := match rest with
    | '.' :: rest => spanDigits rest
    | rest => ([], rest)
  if whole.isEmpty ∧ places.isEmpty then none
  else
    (readExponent? rest).map fun e =>
      ⟨digitsValue (digitsValue 0 whole) places, e - places.length⟩

def readFloat? (s : String) : Option Float :=
  let (negative, cs) : Bool × List Char := match s.toList with
    | '-' :: cs => (true, cs)
    | '+' :: cs => (false, cs)
    | cs => (false, cs)
  let magnitude :=
    match String.ofList (cs.map Char.toLower) with
    | "inf" | "infinity" => some (1.0 / 0.0 : Float)
    | "nan" => some (0.0 / 0.0 : Float)
    | _ => (readUnsigned? cs).map toFloat
  magnitude.map fun x => if negative then -x else x

end SolidClash.Decimal
