/-! JSON values as they are read. A value may be flawed, and a list or an object may end in a flaw,
so that the faults of a text are met in the order in which they stand there. -/

namespace SolidClash

namespace Json

inductive Fault where
  | ended
  | malformed
  | mismatched
deriving DecidableEq, Repr

/-- A fault in the text: what it means for a value that is read, and for one that is skipped; some
faults do not matter to a value that is skipped. -/
structure Flaw where
  read : Fault
  skip : Option Fault
deriving DecidableEq, Repr

def Flaw.plain (f : Fault) : Flaw := ⟨f, some f⟩

inductive Number where
  | integer (n : Int)
  | float (x : Float)

structure Key where
  spelling : Option (List Char)
  text : Except Flaw String

def Key.ofString (s : String) : Key := ⟨some (s.toList ++ ['"']), .ok s⟩

end Json

inductive Json where
  | null
  | bool (b : Bool)
  | number (n : Json.Number)
  | string (s : String)
  | array (items : List Json) (broken : Option Json.Flaw)
  | object (fields : List (Json.Key × Json)) (broken : Option Json.Flaw)
  | flawed (f : Json.Flaw) (bare : Bool)

namespace Json

def ofNat (n : Nat) : Json := number (.integer n)

def ofFloat (x : Float) : Json := if x.isFinite then number (.float x) else null

def ofList {β : Type} (f : β → Json) (bs : List β) : Json := array (bs.map f) none

def ofOption {β : Type} (f : β → Json) (b : Option β) : Json := b.elim null f

def ofFields (fs : List (String × Json)) : Json :=
  object (fs.map fun (k, v) => (Key.ofString k, v)) none

mutual

def skipFault : Json → Option Fault
  | flawed f _ => f.skip
  | array items broken => (skipItems items).or (broken.bind Flaw.skip)
  | object fields broken => (skipFields fields).or (broken.bind Flaw.skip)
  | _ => none

def skipItems : List Json → Option Fault
  | [] => none
  | j :: js => (skipFault j).or (skipItems js)

def skipFields : List (Key × Json) → Option Fault
  | [] => none
  | (k, j) :: fs =>
    match k.text with
    | .error ⟨_, some f⟩ => some f
    | _ => (skipFault j).or (skipFields fs)

end

mutual

def readFault : (depth : Nat) → Json → Option Fault
  | _, flawed f _ => some f.read
  | depth, array items broken =>
    if depth ≤ 1 then some .malformed
    else (readItems (depth - 1) items).or (broken.map Flaw.read)
  | depth, object fields broken =>
    if depth ≤ 1 then some .malformed
    else (readFields (depth - 1) fields).or (broken.map Flaw.read)
  | _, _ => none

def readItems : (depth : Nat) → List Json → Option Fault
  | _, [] => none
  | depth, j :: js => (readFault depth j).or (readItems depth js)

def readFields : (depth : Nat) → List (Key × Json) → Option Fault
  | _, [] => none
  | depth, (k, j) :: fs =>
    match k.text with
    | .error f => some f.read
    | .ok _ => (readFault depth j).or (readFields depth fs)

end

end Json

end SolidClash
