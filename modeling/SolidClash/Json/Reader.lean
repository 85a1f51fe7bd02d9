import SolidClash.Json.Number
import SolidClash.Json.Text

namespace SolidClash.Json

def isBlank (c : Char) : Bool := c = ' ' ∨ c = '\n' ∨ c = '\t' ∨ c = '\r'

def skipBlanks (cs : List Char) : List Char := cs.dropWhile isBlank

def strayAt : List Char → Flaw
  | [] => .plain .ended
  | _ => .plain .malformed

def readWord (value : Json) : (word : List Char) → List Char → Json × Option (List Char)
  | [], cs => (value, some cs)
  | w :: ws, c :: cs =>
    if c = w then readWord value ws cs else (.flawed (.plain .malformed) true, none)
  | _ :: _, [] => (.flawed (.plain .ended) true, none)

mutual

def readValue : (fuel : Nat) → List Char → Json × Option (List Char)
  | 0, _ => (.flawed (.plain .ended) false, none)
  | fuel + 1, cs =>
    match skipBlanks cs with
    | 'n' :: rest => readWord .null ['u', 'l', 'l'] rest
    | 't' :: rest => readWord (.bool true) ['r', 'u', 'e'] rest
    | 'f' :: rest => readWord (.bool false) ['a', 'l', 's', 'e'] rest
    | '"' :: rest =>
      match readText rest with
      | (.ok s, r) => (.string s, r)
      | (.error f, r) => (.flawed f false, r)
    | '[' :: rest =>
      match skipBlanks rest with
      | ']' :: rest => (.array [] none, some rest)
      | [] => (.array [] (some (.plain .ended)), none)
      | rest =>
        let (items, broken, r) := readItemsFrom fuel rest
        (.array items broken, r)
    | '{' :: rest =>
      match skipBlanks rest with
      | '}' :: rest => (.object [] none, some rest)
      | rest =>
        let (fields, broken, r) := readFieldsFrom fuel rest
        (.object fields broken, r)
    | c :: rest =>
      if c = '-' ∨ c.isDigit then readNumber (c :: rest)
      else (.flawed (.plain .malformed) false, none)
    | [] => (.flawed (.plain .ended) false, none)

def readItemsFrom : (fuel : Nat) → List Char → List Json × Option Flaw × Option (List Char)
  | 0, _ => ([], some (.plain .ended), none)
  | fuel + 1, cs =>
    match readValue fuel cs with
    | (j, none) => ([j], some (.plain .ended), none)
    | (j, some rest) =>
      match skipBlanks rest with
      | ',' :: rest =>
        let (js, broken, r) := readItemsFrom fuel rest
        (j :: js, broken, r)
      | ']' :: rest => ([j], none, some rest)
      | rest => ([j], some (strayAt rest), none)

def readFieldsFrom :
    (fuel : Nat) → List Char → List (Key × Json) × Option Flaw × Option (List Char)
  | 0, _ => ([], some (.plain .ended), none)
  | fuel + 1, cs =>
    match skipBlanks cs with
    | '"' :: rest =>
      match readKey rest with
      | (k, none) => ([(k, .flawed (.plain .ended) false)], some (.plain .ended), none)
      | (k, some rest) =>
        match skipBlanks rest with
        | ':' :: rest =>
          match readValue fuel rest with
          | (j, none) => ([(k, j)], some (.plain .ended), none)
          | (j, some rest) =>
            match skipBlanks rest with
            | ',' :: rest =>
              let (fs, broken, r) := readFieldsFrom fuel rest
              ((k, j) :: fs, broken, r)
            | '}' :: rest => ([(k, j)], none, some rest)
            | rest => ([(k, j)], some (strayAt rest), none)
        | rest => ([(k, .flawed (strayAt rest) false)], some (.plain .ended), none)
    | rest =>
      let f := strayAt rest
      ([(⟨none, .error f⟩, .flawed f false)], some f, none)

end

structure Document where
  value : Json
  trailing : Bool

def Document.ofString (s : String) : Document :=
  let cs := s.toList
  let (value, rest) := readValue (2 * cs.length + 2) cs
  ⟨value, rest.any fun r => !(skipBlanks r).isEmpty⟩

end SolidClash.Json
