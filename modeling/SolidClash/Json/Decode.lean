import SolidClash.Json.Reader

/-! Reading values by a schema. A key that the schema refuses is met before its value, a missing
field only at the end of its object. -/

namespace SolidClash.Json

abbrev Decoder (β : Type) := Json → Except Fault β

namespace Decoder

variable {β : Type}

def mismatch : Json → Except Fault β
  | flawed f _ => .error f.read
  | _ => .error .mismatched

def bool : Decoder Bool
  | .bool b => .ok b
  | j => mismatch j

def string : Decoder String
  | .string s => .ok s
  | j => mismatch j

def float : Decoder Float
  | .number (.float x) => .ok x
  | .number (.integer n) =>
    let x := Float.ofScientific n.natAbs false 0
    .ok (if n < 0 then -x else x)
  | j => mismatch j

def nat (limit : Nat) : Decoder Nat
  | .number (.integer n) => if 0 ≤ n ∧ n < limit then .ok n.toNat else .error .mismatched
  | j => mismatch j

def word : Decoder UInt64 := fun j => (nat UInt64.size j).map UInt64.ofNat

def option (item : Decoder β) : Decoder (Option β)
  | .null => .ok none
  | j => (item j).map some

def close : Option Flaw → Except Fault Unit
  | none => .ok ()
  | some f => .error f.read

def items (item : Decoder β) : List Json → Except Fault (List β)
  | [] => .ok []
  | j :: js => do
    let b ← item j
    return b :: (← items item js)

def list (item : Decoder β) : Decoder (List β)
  | .array js broken => do
    let bs ← items item js
    close broken
    return bs
  | j => mismatch j

def entries {κ : Type} (key : Key → Except Fault κ) (value : Decoder β) :
    List (Key × Json) → Except Fault (List (κ × β))
  | [] => .ok []
  | (k, j) :: fs => do
    let k ← key k
    let b ← value j
    return (k, b) :: (← entries key value fs)

def dictionary {κ : Type} (key : Key → Except Fault κ) (value : Decoder β) : Decoder (List (κ × β))
  | .object fs broken => do
    let es ← entries key value fs
    close broken
    return es
  | j => mismatch j

end Decoder

def Key.read (k : Key) : Except Fault String :=
  match k.text with
  | .ok s => .ok s
  | .error f => .error f.read

def Key.readWord (k : Key) : Except Fault UInt64 :=
  match k.spelling with
  | none => k.read.bind fun _ => .error .malformed
  | some cs =>
    if cs.head?.any fun c => c = '-' ∨ c.isDigit then
      let (j, rest) := readNumber cs
      match Decoder.word j, rest with
      | .ok n, some ('"' :: _) => .ok n
      | .ok _, _ => .error .malformed
      | .error f, _ => .error f
    else .error .malformed

structure Field where
  name : String
  required : Bool
  check : Json → Except Fault Unit

def Field.of {β : Type} (name : String) (required : Bool) (d : Decoder β) : Field :=
  ⟨name, required, fun j => (d j).map fun _ => ()⟩

abbrev Record := List (String × Json)

namespace Record

def ofObject (schema : List Field) (strict : Bool) :
    Record → List (Key × Json) → Except Fault Record
  | seen, [] => .ok seen
  | seen, (k, j) :: fs => do
    let name ← k.read
    match schema.find? (·.name == name) with
    | none =>
      if strict then throw .mismatched
      match j.skipFault with
      | some f => throw f
      | none => ofObject schema strict seen fs
    | some field =>
      if (seen.lookup name).isSome then throw .mismatched
      field.check j
      ofObject schema strict (seen ++ [(name, j)]) fs

def ofArray : (schema : List Field) → List Json → (broken : Option Flaw) → Except Fault Record
  | [], [], broken => (Decoder.close broken).map fun _ => []
  | [], _ :: _, _ => .error .malformed
  | field :: schema, [], broken => do
    Decoder.close broken
    if field.required then .error .mismatched else ofArray schema [] none
  | field :: schema, j :: js, broken => do
    field.check j
    return (field.name, j) :: (← ofArray schema js broken)

def ofJson (schema : List Field) (strict : Bool) : Decoder Record
  | .object fs broken => do
    let r ← ofObject schema strict [] fs
    Decoder.close broken
    if schema.all fun f => !f.required || (r.lookup f.name).isSome then return r
    else throw .mismatched
  | .array js broken => ofArray schema js broken
  | j => Decoder.mismatch j

variable {β : Type}

def get (r : Record) (name : String) (d : Decoder β) : Except Fault β :=
  match r.lookup name with
  | some j => d j
  | none => .error .mismatched

def getD (r : Record) (name : String) (d : Decoder β) (default : β) : Except Fault β :=
  match r.lookup name with
  | some j => d j
  | none => .ok default

end Record

def decodeText {β : Type} (d : Decoder β) (s : String) : Except Fault β := do
  let doc := Document.ofString s
  let b ← d doc.value
  if doc.trailing then throw .malformed else return b

end SolidClash.Json
