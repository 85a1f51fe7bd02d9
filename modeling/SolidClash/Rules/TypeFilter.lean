import SolidClash.Model
import SolidClash.Rules
import Std.Data.HashSet

/-! Decides by type which objects are compared at all. Type names get numbers; number 0 is the
wildcard. -/

namespace SolidClash

/-- A type name without its leading `Ifc`, if a capital follows. -/
def bareTypeName (name : String) : String :=
  match name.toList with
  | 'I' :: 'f' :: 'c' :: c :: rest => if c.isUpper then String.ofList (c :: rest) else name
  | _ => name

inductive TypeSource where
  | typeName
  | property (set name : String)
deriving DecidableEq, Repr

namespace TypeSource

def ofRules (r : Rules) : TypeSource :=
  match r.propertySet, r.property with
  | some set, some name => .property set name
  | _, _ => .typeName

def key (s : TypeSource) (name : String) : String :=
  match s with
  | .typeName => bareTypeName name
  | .property .. => name

def nameOf (s : TypeSource) (o : Object) : String :=
  match s with
  | .typeName => o.typeName
  | .property set name => o.properties.getD (set, name) ""

end TypeSource

abbrev TypeId := Nat

structure TypeFilter where
  source : TypeSource
  names : Array String
  ids : Std.HashMap String TypeId
  check : Std.HashSet (TypeId × TypeId)
  ignore : Std.HashSet (TypeId × TypeId)
  ownTypeOnly : Std.HashSet TypeId

namespace TypeFilter

def wildcard : String := "*"

def any : TypeId := 0

def empty (source : TypeSource) : TypeFilter :=
  { source, names := #[wildcard], ids := (∅ : Std.HashMap String TypeId).insert wildcard any,
    check := ∅, ignore := ∅, ownTypeOnly := ∅ }

def intern (f : TypeFilter) (name : String) : TypeId × TypeFilter :=
  let key := f.source.key name
  match f.ids[key]? with
  | some id => (id, f)
  | none =>
    let id := f.names.size
    (id, { f with names := f.names.push key, ids := f.ids.insert key id })

def resolve (f : TypeFilter) (o : Object) : TypeId × TypeFilter := f.intern (f.source.nameOf o)

def resolveAll (f : TypeFilter) : List Object → List TypeId × TypeFilter
  | [] => ([], f)
  | o :: os =>
    let (id, f) := f.resolve o
    let (ids, f) := f.resolveAll os
    (id :: ids, f)

def name (f : TypeFilter) (id : TypeId) : String := f.names[id]?.getD wildcard

def ordered (a b : TypeId) : TypeId × TypeId := if a ≤ b then (a, b) else (b, a)

def addOwnTypeOnly (f : TypeFilter) (name : String) : TypeFilter :=
  let (id, f) := f.intern name
  { f with ownTypeOnly := f.ownTypeOnly.insert id }

def internPair (f : TypeFilter) (names : String × String) : (TypeId × TypeId) × TypeFilter :=
  let (a, f) := f.intern names.1
  let (b, f) := f.intern names.2
  (ordered a b, f)

def addIgnore (f : TypeFilter) (names : String × String) : TypeFilter :=
  let (p, f) := f.internPair names
  { f with ignore := f.ignore.insert p }

def addCheck (f : TypeFilter) (names : String × String) : TypeFilter :=
  let (p, f) := f.internPair names
  { f with check := f.check.insert p }

def defaultOwnTypeOnly : List String := ["Space", "Site"]

def defaultIgnored : List (String × String) :=
  [("Wall", "OpeningElement"), ("WallStandardCase", "OpeningElement"), ("Slab", "OpeningElement"),
    ("Wall", "Window"), ("WallStandardCase", "Window"), ("Wall", "Door"),
    ("WallStandardCase", "Door"), ("OpeningElement", "Window"), ("OpeningElement", "Door")]

def ownTypeOnlyNames (r : Rules) : List String :=
  (if r.skipDefaultRules then [] else defaultOwnTypeOnly) ++ r.onlyCheckWithOwnType

def ignoredNames (r : Rules) : List (String × String) :=
  (if r.skipDefaultRules then [] else defaultIgnored) ++ r.typesToIgnore.flatMap (·.pairs)

def checkedNames (r : Rules) : List (String × String) := r.typesToCheck.flatMap (·.pairs)

def ofRules (r : Rules) : TypeFilter :=
  let f := (ownTypeOnlyNames r).foldl addOwnTypeOnly (empty (.ofRules r))
  let f := (ignoredNames r).foldl addIgnore f
  (checkedNames r).foldl addCheck f

def listed (pairs : Std.HashSet (TypeId × TypeId)) (a b : TypeId) : Bool :=
  pairs.contains (ordered a b) || pairs.contains (any, a) || pairs.contains (any, b)

def admits (f : TypeFilter) (idA : UInt64) (typeA : TypeId) (idB : UInt64) (typeB : TypeId) :
    Bool :=
  idA != idB && (f.check.isEmpty || listed f.check typeA typeB) &&
    (typeA == typeB || !(f.ownTypeOnly.contains typeA || f.ownTypeOnly.contains typeB)) &&
    !listed f.ignore typeA typeB

end TypeFilter

end SolidClash
