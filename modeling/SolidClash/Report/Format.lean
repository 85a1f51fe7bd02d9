import SolidClash.Json.Decode
import SolidClash.Report

namespace SolidClash

open Json Json.Decoder

namespace RunState

def all : List RunState := [configured, indexBuilding, traversing, finished, cancelled, errored]

def text : RunState → String
  | configured => "configured"
  | indexBuilding => "indexBuilding"
  | traversing => "traversing"
  | finished => "finished"
  | cancelled => "cancelled"
  | errored => "errored"

def ofText? (s : String) : Option RunState := all.find? fun st => st.text == s

theorem ofText?_text (s : RunState) : ofText? s.text = some s := by
  cases s <;> decide +kernel

def named (s : String) : Except Fault RunState :=
  match ofText? s with
  | some st => .ok st
  | none => .error .mismatched

def ofJson : Decoder RunState
  | .string s => named s
  | .object ((k, j) :: rest) broken => do
    let st ← k.read.bind named
    match j with
    | .null => pure ()
    | j => mismatch j
    if rest.isEmpty then Decoder.close broken else throw .malformed
    return st
  | .flawed f false => .error f.read
  | _ => .error .malformed

end RunState

namespace Metrics

def toList (m : Metrics) : List (String × Nat) :=
  [("totalObjects", m.totalObjects), ("objectsWithGeometry", m.objectsWithGeometry),
    ("objectsWithoutGeometry", m.objectsWithoutGeometry),
    ("objectsWithOpenGeometry", m.objectsWithOpenGeometry),
    ("objectsWithUndecodableGeometry", m.objectsWithUndecodableGeometry),
    ("totalCombinations", m.totalCombinations), ("checkedCombinations", m.checkedCombinations),
    ("examinedPairs", m.examinedPairs), ("notEnoughData", m.notEnoughData), ("errors", m.errors),
    ("clashVolumeErrors", m.clashVolumeErrors), ("clashes", m.clashes)]

def names : List String := (toList {}).map Prod.fst

def ofCounts {ε : Type} (count : String → Except ε Nat) : Except ε Metrics := do
  return {
    totalObjects := ← count "totalObjects"
    objectsWithGeometry := ← count "objectsWithGeometry"
    objectsWithoutGeometry := ← count "objectsWithoutGeometry"
    objectsWithOpenGeometry := ← count "objectsWithOpenGeometry"
    objectsWithUndecodableGeometry := ← count "objectsWithUndecodableGeometry"
    totalCombinations := ← count "totalCombinations"
    checkedCombinations := ← count "checkedCombinations"
    examinedPairs := ← count "examinedPairs"
    notEnoughData := ← count "notEnoughData"
    errors := ← count "errors"
    clashVolumeErrors := ← count "clashVolumeErrors"
    clashes := ← count "clashes" }

end Metrics

namespace ReportMetrics

def count : Decoder Nat := nat UInt64.size

def schema : List Field :=
  [.of "state" true RunState.ofJson, .of "triangleTimeMs" true count, .of "durationMs" true count]

def depthLimit : Nat := 126

def collect : Record → Record → List (Key × Json) → Except Fault (Record × Record)
  | own, counters, [] => .ok (own, counters)
  | own, counters, (k, j) :: fs => do
    let name ← k.read
    match schema.find? (·.name == name) with
    | some field =>
      if (own.lookup name).isSome then throw .mismatched
      field.check j
      collect (own ++ [(name, j)]) counters fs
    | none =>
      match j.readFault depthLimit with
      | some f => throw f
      | none => collect own (counters ++ [(name, j)]) fs

def countIn (counters : Record) (name : String) : Except Fault Nat :=
  match counters.filter (·.1 == name) with
  | [(_, j)] => count j
  | _ => .error .mismatched

def ofJson : Decoder ReportMetrics
  | .object fs broken => do
    let (own, counters) ← collect [] [] fs
    Decoder.close broken
    return {
      state := ← own.get "state" RunState.ofJson
      triangleTime := ← own.get "triangleTimeMs" count
      duration := ← own.get "durationMs" count
      counters := ← Metrics.ofCounts (countIn counters) }
  | j => mismatch j

def toJson (m : ReportMetrics) : Json :=
  .ofFields (m.counters.toList.map (fun (name, n) => (name, .ofNat n)) ++
    [("state", .string m.state.text), ("triangleTimeMs", .ofNat m.triangleTime),
      ("durationMs", .ofNat m.duration)])

end ReportMetrics

namespace VisibleRange

def schema : List Field := [.of "offset" true (nat UInt64.size), .of "count" true (nat UInt64.size)]

def ofJson : Decoder VisibleRange := fun j => do
  let r ← Record.ofJson schema false j
  return ⟨← r.get "offset" (nat UInt64.size), ← r.get "count" (nat UInt64.size)⟩

def toJson (v : VisibleRange) : Json :=
  .ofFields [("offset", .ofNat v.offset), ("count", .ofNat v.count)]

end VisibleRange

def textMap {β : Type} (d : Decoder β) : Decoder (Std.ExtTreeMap String β) := fun j =>
  (dictionary Key.read d j).map fun es => Std.ExtTreeMap.ofList es

def idMap {β : Type} (d : Decoder β) : Decoder (Std.ExtTreeMap UInt64 β) := fun j =>
  (dictionary Key.readWord d j).map fun es => Std.ExtTreeMap.ofList es

def textMapToJson {β : Type} (f : β → Json) (m : Std.ExtTreeMap String β) : Json :=
  .ofFields (m.toList.map fun (k, b) => (k, f b))

def idMapToJson {β : Type} (f : β → Json) (m : Std.ExtTreeMap UInt64 β) : Json :=
  .ofFields (m.toList.map fun (k, b) => (toString k.toNat, f b))

namespace ClashMeshes

def schema : List Field :=
  [.of "indices" true (list (nat UInt32.size)), .of "positions" true (list float),
    .of "volumes" true (textMap float), .of "visibleRanges" true (textMap VisibleRange.ofJson)]

def ofJson : Decoder (ClashMeshes Float) := fun j => do
  let r ← Record.ofJson schema false j
  return {
    indices := ← r.get "indices" (list (nat UInt32.size))
    positions := ← r.get "positions" (list float)
    volumes := ← r.get "volumes" (textMap float)
    visibleRanges := ← r.get "visibleRanges" (textMap VisibleRange.ofJson) }

def toJson (m : ClashMeshes Float) : Json :=
  .ofFields [("indices", .ofList .ofNat m.indices), ("positions", .ofList .ofFloat m.positions),
    ("volumes", textMapToJson .ofFloat m.volumes),
    ("visibleRanges", textMapToJson VisibleRange.toJson m.visibleRanges)]

end ClashMeshes

namespace Report

def schema : List Field :=
  [.of "left" true (idMap (list word)), .of "right" true (idMap (list word)),
    .of "clashMeshes" true ClashMeshes.ofJson, .of "metrics" true ReportMetrics.ofJson]

def ofJson : Decoder (Report Float) := fun j => do
  let r ← Record.ofJson schema false j
  return {
    left := ← r.get "left" (idMap (list word))
    right := ← r.get "right" (idMap (list word))
    meshes := ← r.get "clashMeshes" ClashMeshes.ofJson
    metrics := ← r.get "metrics" ReportMetrics.ofJson }

def idList (ids : List UInt64) : Json := .ofList (fun id => .ofNat id.toNat) ids

def toJson (r : Report Float) : Json :=
  .ofFields [("left", idMapToJson idList r.left), ("right", idMapToJson idList r.right),
    ("clashMeshes", r.meshes.toJson), ("metrics", r.metrics.toJson)]

end Report

end SolidClash
