import SolidClash.Json.Decode
import SolidClash.Rules

namespace SolidClash

open Json Json.Decoder

namespace TypeCombination

def schema : List Field :=
  [.of "type" true string, .of "combinedWith" false (list string)]

def ofJson : Decoder TypeCombination := fun j => do
  let r ← Record.ofJson schema true j
  return ⟨← r.get "type" string, ← r.getD "combinedWith" (list string) []⟩

def toJson (c : TypeCombination) : Json :=
  .ofFields [("type", .string c.typeName), ("combinedWith", .ofList .string c.combinedWith)]

end TypeCombination

namespace Rules

def schema : List Field :=
  [.of "name" false (option string), .of "id" false (option string), .of "epsilon" false float,
    .of "skipDefaultRules" false bool, .of "onlyCheckWithOwnType" false (list string),
    .of "typesToIgnore" false (list TypeCombination.ofJson),
    .of "typesToCheck" false (list TypeCombination.ofJson),
    .of "computeVolumes" false bool, .of "minClashVolume" false float,
    .of "minClashHorizontal" false float, .of "minClashVertical" false float,
    .of "volumeTriangleThreshold" false (nat UInt64.size), .of "property" false (option string),
    .of "propertySet" false (option string)]

def ofJson : Decoder Rules := fun j => do
  let r ← Record.ofJson schema true j
  let d : Rules := {}
  return {
    name := ← r.getD "name" (option string) d.name
    id := ← r.getD "id" (option string) d.id
    epsilon := ← r.getD "epsilon" float d.epsilon
    skipDefaultRules := ← r.getD "skipDefaultRules" bool d.skipDefaultRules
    onlyCheckWithOwnType := ← r.getD "onlyCheckWithOwnType" (list string) d.onlyCheckWithOwnType
    typesToIgnore := ← r.getD "typesToIgnore" (list TypeCombination.ofJson) d.typesToIgnore
    typesToCheck := ← r.getD "typesToCheck" (list TypeCombination.ofJson) d.typesToCheck
    computeVolumes := ← r.getD "computeVolumes" bool d.computeVolumes
    minClashVolume := ← r.getD "minClashVolume" float d.minClashVolume
    minClashHorizontal := ← r.getD "minClashHorizontal" float d.minClashHorizontal
    minClashVertical := ← r.getD "minClashVertical" float d.minClashVertical
    volumeTriangleThreshold :=
      ← r.getD "volumeTriangleThreshold" (nat UInt64.size) d.volumeTriangleThreshold
    property := ← r.getD "property" (option string) d.property
    propertySet := ← r.getD "propertySet" (option string) d.propertySet }

def toJson (r : Rules) : Json :=
  .ofFields [
    ("name", .ofOption .string r.name), ("id", .ofOption .string r.id),
    ("epsilon", .ofFloat r.epsilon), ("skipDefaultRules", .bool r.skipDefaultRules),
    ("onlyCheckWithOwnType", .ofList .string r.onlyCheckWithOwnType),
    ("typesToIgnore", .ofList TypeCombination.toJson r.typesToIgnore),
    ("typesToCheck", .ofList TypeCombination.toJson r.typesToCheck),
    ("computeVolumes", .bool r.computeVolumes), ("minClashVolume", .ofFloat r.minClashVolume),
    ("minClashHorizontal", .ofFloat r.minClashHorizontal),
    ("minClashVertical", .ofFloat r.minClashVertical),
    ("volumeTriangleThreshold", .ofNat r.volumeTriangleThreshold),
    ("property", .ofOption .string r.property), ("propertySet", .ofOption .string r.propertySet)]

inductive TextError where
  | unreadable (f : Fault)
  | unusable (e : Error)

def ofText (s : String) : Except TextError Rules :=
  match decodeText ofJson s with
  | .error f => .error (.unreadable f)
  | .ok r =>
    match r.validate with
    | .error e => .error (.unusable e)
    | .ok () => .ok r

theorem validate_of_ofText {s : String} {r : Rules} (h : ofText s = .ok r) :
    r.validate = .ok () := by
  unfold ofText at h
  split at h
  · simp at h
  · split at h
    · simp at h
    · next hv => cases h; exact hv

theorem fault?_of_ofText {s : String} {r : Rules} (h : ofText s = .ok r) : r.fault? = none :=
  fault?_of_validate (validate_of_ofText h)

end Rules

end SolidClash
