import SolidClash.Results
import SolidClash.Weld

namespace SolidClash

structure VisibleRange where
  offset : Nat
  count : Nat
deriving DecidableEq, Repr

/-- All solids over one buffer of points, in millimetres. -/
structure ClashMeshes (α : Type) where
  indices : List Nat := []
  positions : List α := []
  volumes : Std.ExtTreeMap String α := ∅
  visibleRanges : Std.ExtTreeMap String VisibleRange := ∅

structure ReportMetrics where
  counters : Metrics
  state : RunState
  triangleTime : Nat := 0
  duration : Nat := 0
deriving DecidableEq, Repr

structure Report (α : Type) where
  left : Std.ExtTreeMap UInt64 (List UInt64)
  right : Std.ExtTreeMap UInt64 (List UInt64)
  meshes : ClashMeshes α
  metrics : ReportMetrics

namespace ClashMeshes

variable {α : Type} [Scalar α]

def add (w : Weld α) (m : ClashMeshes α) (p : Pair) (v : ClashVolume α) : Weld α × ClashMeshes α :=
  let m := { m with volumes := m.volumes.insert p.text v.volume }
  match v.solid with
  | none => (w, m)
  | some solid =>
    if solid.IsEmpty then (w, m)
    else
      let (ids, w) := w.insertAll (solid.triangles.flatMap Triangle.corners)
      (w, { m with
        indices := m.indices ++ ids
        visibleRanges := m.visibleRanges.insert p.text ⟨m.indices.length, ids.length⟩ })

def addAll (w : Weld α) (m : ClashMeshes α) :
    List (Pair × ClashVolume α) → Weld α × ClashMeshes α
  | [] => (w, m)
  | (p, v) :: rest =>
    let (w, m) := add w m p v
    addAll w m rest

def millimetres : α := 1000.0

def ofVolumes (tolerance : α) (vs : Std.ExtTreeMap Pair (ClashVolume α)) : ClashMeshes α :=
  let (w, m) := addAll (Weld.new tolerance) {} vs.toList
  { m with positions := w.coordinates millimetres }

end ClashMeshes

namespace Report

variable {α : Type} [Scalar α]

def adjacencyLists (g : Adjacency) : Std.ExtTreeMap UInt64 (List UInt64) :=
  g.map fun _ others => others.toList

/-- The report of a run; corners within `tolerance` metres are welded. There is no clock here, so both
times are zero. -/
def ofResults (tolerance : α) (r : Results α) : Report α :=
  { left := adjacencyLists r.left
    right := adjacencyLists r.right
    meshes := .ofVolumes tolerance r.volumes
    metrics := ⟨r.metrics, r.state, 0, 0⟩ }

end Report

end SolidClash
