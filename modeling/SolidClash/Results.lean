import SolidClash.Mesh.Measure
import SolidClash.Pair
import Std.Data.ExtTreeMap
import Std.Data.ExtTreeSet

namespace SolidClash

inductive RunState where
  | configured
  | indexBuilding
  | traversing
  | finished
  | cancelled
  | errored
deriving DecidableEq, Repr

structure ClashVolume (α : Type) where
  solid : Option (Mesh α)
  volume : α
  width : α
  height : α

namespace ClashVolume

variable {α : Type} [Scalar α]

def ofSolid (m : Mesh α) : ClashVolume α :=
  match m.bounds? with
  | none => ⟨some m, m.volume, 0, 0⟩
  | some b => ⟨some m, m.volume, Scalar.maxNum b.extents.x b.extents.y, b.extents.z⟩

def dropSolid (v : ClashVolume α) : ClashVolume α := { v with solid := none }

end ClashVolume

structure Metrics where
  totalObjects : Nat := 0
  objectsWithGeometry : Nat := 0
  objectsWithoutGeometry : Nat := 0
  objectsWithOpenGeometry : Nat := 0
  objectsWithUndecodableGeometry : Nat := 0
  totalCombinations : Nat := 0
  checkedCombinations : Nat := 0
  examinedPairs : Nat := 0
  notEnoughData : Nat := 0
  errors : Nat := 0
  clashVolumeErrors : Nat := 0
  clashes : Nat := 0
deriving DecidableEq, Repr

abbrev Adjacency := Std.ExtTreeMap UInt64 (Std.ExtTreeSet UInt64)

namespace Adjacency

def others (g : Adjacency) (id : UInt64) : Std.ExtTreeSet UInt64 := g.getD id ∅

def add (g : Adjacency) (id other : UInt64) : Adjacency := g.insert id ((others g id).insert other)

end Adjacency

structure Results (α : Type) where
  model1 : UInt64
  model2 : UInt64
  selfCheck : Bool
  state : RunState := .configured
  left : Adjacency := ∅
  right : Adjacency := ∅
  volumes : Std.ExtTreeMap Pair (ClashVolume α) := ∅
  openMeshes : Std.ExtTreeSet UInt64 := ∅
  undecodableMeshes : Std.ExtTreeSet UInt64 := ∅
  metrics : Metrics := {}

namespace Results

variable {α : Type}

def addClash (r : Results α) (anchor other : UInt64) : Results α :=
  let known := (Adjacency.others r.left anchor).contains other
  let left := Adjacency.add r.left anchor other
  { r with
    left := if r.selfCheck then Adjacency.add left other anchor else left
    right := if r.selfCheck then r.right else Adjacency.add r.right other anchor
    metrics := { r.metrics with clashes := r.metrics.clashes + if known then 0 else 1 } }

def setVolume (r : Results α) (a b : UInt64) (v : ClashVolume α) : Results α :=
  { r with volumes := r.volumes.insert (.of a b) v }

def partners (r : Results α) (id : UInt64) : Std.ExtTreeSet UInt64 :=
  (Adjacency.others r.right id).foldl (·.insert ·) (Adjacency.others r.left id)

def volume? (r : Results α) (a b : UInt64) : Option (ClashVolume α) := r.volumes[Pair.of a b]?

end Results

end SolidClash
