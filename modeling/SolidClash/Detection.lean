import SolidClash.Detection.Schedule
import SolidClash.Octree.Error

/-! Clash detection between the objects of two models, or among the objects of one. -/

namespace SolidClash

namespace Detection

inductive Error where
  | rules (e : Rules.Error)
  | geometry (e : OctreeError Float)

def Error.message : Error → String
  | rules e => e.message
  | geometry e => "Geometry error: " ++ e.message

def indexable (m : Model) (side : Side) (types : List TypeId) : List Entry × Nat :=
  let entries := (m.objects.zip types).map fun (o, type) => do
    let g ← o.geometry
    let b := g.bounds.scaled m.multiplier
    if b.IsEmpty ∨ ¬ b.IsFinite then none else some (⟨b, ⟨side, o, g, type⟩⟩ : Entry)
  (entries.filterMap id, entries.countP Option.isNone)

structure Outcome where
  results : Results Float
  reports : List (Nat × Nat)
  solved : List (Mesh Float × Mesh Float)

def conclude (p : Progress) : Outcome :=
  let r := p.tally.results
  let m := { r.metrics with
    objectsWithOpenGeometry := r.openMeshes.size
    objectsWithUndecodableGeometry := r.undecodableMeshes.size }
  let r := { r with
    metrics := m
    state := if p.monitor.cancelled then .cancelled else .finished }
  let monitor :=
    if p.monitor.cancelled then p.monitor
    else p.monitor.report m.checkedCombinations m.totalCombinations
  ⟨r, monitor.reports.reverse, p.tally.solved.reverse⟩

end Detection

structure Detection where
  first : Model
  second : Model
  rules : Rules
  options : Options := {}
  solver : Detection.Solver := .exact

namespace Detection

def isSelfCheck (d : Detection) : Bool := d.first.id == d.second.id

def other (d : Detection) : Model := if d.isSelfCheck then d.first else d.second

def resolved (d : Detection) : TypeFilter × List TypeId × List TypeId :=
  let (types, f) := (TypeFilter.ofRules d.rules).resolveAll d.first.objects
  if d.isSelfCheck then (f, types, types)
  else
    let (types', f) := f.resolveAll d.second.objects
    (f, types, types')

def blank (d : Detection) : Results Float :=
  { model1 := d.first.id, model2 := d.other.id, selfCheck := d.isSelfCheck }

def bounds (d : Detection) : Box Float := d.first.boundsInMetres.union d.other.boundsInMetres

def objectCount (d : Detection) : Nat :=
  d.first.objects.length + if d.isSelfCheck then 0 else d.second.objects.length

def runIn (d : Detection) (signals : Signals) (box : Box Float) : Except Error Outcome :=
  let (filter, types, types') := d.resolved
  let (as, withoutA) := indexable d.first .first types
  let (bs, withoutB) := if d.isSelfCheck then ([], 0) else indexable d.second .second types'
  let tree := do (← Octree.new box d.options.maxOctreeDepth).insertAll (as ++ bs)
  match tree with
  | .error e => .error (.geometry e)
  | .ok tree =>
    let secondCount := if d.isSelfCheck then as.length else bs.length
    let s : Setting :=
      { rules := d.rules, options := d.options, solver := d.solver, filter, first := d.first
        second := d.other, selfCheck := d.isSelfCheck, secondCount }
    let metrics : Metrics :=
      { totalObjects := d.objectCount
        objectsWithGeometry := as.length + bs.length
        objectsWithoutGeometry := withoutA + withoutB
        totalCombinations := as.length * secondCount }
    let start : Progress :=
      { tally := { results := { d.blank with metrics } }
        monitor := .new d.options.progressInterval }
    .ok (conclude (start.run s signals (Step.schedule s tree)))

/-- Runs a detection. Rules that are unusable and a box outside the octree are errors; whatever is
wrong with a single object is counted. -/
def run (d : Detection) (signals : Signals) : Except Error Outcome :=
  match d.rules.validate with
  | .error e => .error (.rules e)
  | .ok () =>
    if d.bounds.IsEmpty then
      let metrics : Metrics :=
        { totalObjects := d.objectCount, objectsWithoutGeometry := d.objectCount }
      .ok ⟨{ d.blank with state := .finished, metrics }, [], []⟩
    else d.runIn signals d.bounds

end Detection

end SolidClash
