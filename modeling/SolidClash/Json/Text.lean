import SolidClash.Json

namespace SolidClash.Json

inductive TextUnit where
  | char (c : Char)
  | code (n : Nat)

def hexValue? (c : Char) : Option Nat :=
  if c.isDigit then some (c.toNat - '0'.toNat)
  else if 'a' ≤ c ∧ c ≤ 'f' then some (c.toNat - 'a'.toNat + 10)
  else if 'A' ≤ c ∧ c ≤ 'F' then some (c.toNat - 'A'.toNat + 10)
  else none

def hexCode : List Char → Except Fault (Nat × List Char)
  | a :: b :: c :: d :: rest =>
    match hexValue? a, hexValue? b, hexValue? c, hexValue? d with
    | some a, some b, some c, some d => .ok (((a * 16 + b) * 16 + c) * 16 + d, rest)
    | _, _, _, _ => .error .malformed
  | cs => if (String.ofList cs).utf8ByteSize < 4 then .error .ended else .error .malformed

theorem length_of_hexCode {cs rest : List Char} {n : Nat} (h : hexCode cs = .ok (n, rest)) :
    rest.length < cs.length := by
  unfold hexCode at h
  split at h
  · split at h
    · cases h
      simp only [List.length_cons]
      omega
    · simp at h
  · split at h <;> simp at h

def escaped? : Char → Option Char
  | '"' => some '"'
  | '\\' => some '\\'
  | '/' => some '/'
  | 'b' => some '\x08'
  | 'f' => some '\x0c'
  | 'n' => some '\n'
  | 'r' => some '\r'
  | 't' => some '\t'
  | _ => none

def scanText (cs : List Char) : List TextUnit × Except Fault (List Char) :=
  match cs with
  | [] => ([], .error .ended)
  | '"' :: rest => ([], .ok rest)
  | ['\\'] => ([], .error .ended)
  | '\\' :: 'u' :: rest =>
    match _h : hexCode rest with
    | .error f => ([], .error f)
    | .ok (n, rest') =>
      let (us, r) := scanText rest'
      (.code n :: us, r)
  | '\\' :: c :: rest =>
    match escaped? c with
    | none => ([], .error .malformed)
    | some c =>
      let (us, r) := scanText rest
      (.char c :: us, r)
  | c :: rest =>
    if c.toNat < 0x20 then ([], .error .malformed)
    else
      let (us, r) := scanText rest
      (.char c :: us, r)
termination_by cs.length
decreasing_by
  · have := length_of_hexCode _h
    simp_wf
    omega
  all_goals decreasing_tactic

def joinUnits (close : Option Fault) : List TextUnit → Except Fault (List Char)
  | [] => match close with
    | some f => .error f
    | none => .ok []
  | .char c :: us => (joinUnits close us).map (c :: ·)
  | .code n :: us =>
    if 0xDC00 ≤ n ∧ n ≤ 0xDFFF then .error .malformed
    else if 0xD800 ≤ n ∧ n ≤ 0xDBFF then
      match us with
      | .code m :: us =>
        if 0xDC00 ≤ m ∧ m ≤ 0xDFFF then
          (joinUnits close us).map
            (Char.ofNat (0x10000 + (n - 0xD800) * 0x400 + (m - 0xDC00)) :: ·)
        else .error .malformed
      | .char _ :: _ => .error .malformed
      | [] => .error (close.getD .malformed)
    else (joinUnits close us).map (Char.ofNat n :: ·)

def readText (cs : List Char) : Except Flaw String × Option (List Char) :=
  let (us, r) := scanText cs
  match r with
  | .ok rest =>
    match joinUnits none us with
    | .ok s => (.ok (String.ofList s), some rest)
    | .error f => (.error ⟨f, none⟩, some rest)
  | .error f =>
    match joinUnits (some f) us with
    | .ok _ => (.error (.plain f), none)
    | .error g => (.error ⟨g, some f⟩, none)

def readKey (cs : List Char) : Key × Option (List Char) :=
  let (text, rest) := readText cs
  (⟨some (cs.take (cs.length - (rest.elim 0 List.length))), text⟩, rest)

end SolidClash.Json
