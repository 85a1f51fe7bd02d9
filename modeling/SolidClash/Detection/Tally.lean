import SolidClash.Detection.Setting

/-! What a run has found out so far, and how one pair of objects adds to it. -/

namespace SolidClash.Detection

abbrev MeshId := UInt64 × UInt64

structure Decoded where
  mesh : Mesh Float
  bounds : Box Float
  closedness : Mesh.Closedness
  index : Option (Option (Octree Float Nat)) := none

namespace Decoded

def ofMesh (m : Mesh Float) : Decoded := ⟨m, m.bounds, m.closedness, none⟩

def withIndex (d : Decoded) (maxDepth : Nat) : Option (Octree Float Nat) :=
  d.index.getD (Mesh.triangleIndex d.bounds d.mesh maxDepth).toOption

end Decoded

structure Tally where
  results : Results Float
  meshes : Std.HashMap MeshId Decoded := ∅
  finished : Std.HashSet UInt64 := ∅
  solved : List (Mesh Float × Mesh Float) := []

namespace Tally

def countWith (t : Tally) (f : Metrics → Metrics) : Tally :=
  { t with results := { t.results with metrics := f t.results.metrics } }

def meshId (s : Setting) (i : Item) : MeshId := ((s.model i.side).id, i.geometry.id)

def freshMesh? (s : Setting) (i : Item) : Option (Mesh Float) :=
  i.geometry.data.bind fun d => d.mesh? i.geometry.place (s.model i.side).multiplier

def note (t : Tally) (id : UInt64) (d : Decoded) : Tally :=
  let r := t.results
  match d.closedness with
  | .closed => t
  | .opened => { t with results := { r with openMeshes := r.openMeshes.insert id } }
  | .undecodable =>
    { t with results := { r with undecodableMeshes := r.undecodableMeshes.insert id } }

def fetch (s : Setting) (i : Item) (t : Tally) : Option Decoded × Tally :=
  match t.meshes[meshId s i]? with
  | some d => (some d, t.note i.object.id d)
  | none =>
    match freshMesh? s i with
    | none => (none, t)
    | some m =>
      let d := Decoded.ofMesh m
      (some d, { t with meshes := t.meshes.insert (meshId s i) d }.note i.object.id d)

/-- Whether two meshes clash. An octree that cannot be built counts as an error once, and all pairs
of triangles are compared instead. -/
def clash (s : Setting) (idB : MeshId) (a b : Decoded) (t : Tally) : Bool × Tally :=
  let ε := s.rules.epsilon
  if a.mesh.IsEmpty ∨ b.mesh.IsEmpty ∨ ¬ a.bounds.Overlaps b.bounds then (false, t)
  else
    match s.options.strategy with
    | .bruteForce => (a.mesh.clash b.mesh ε, t)
    | .triangleOctree =>
      let index := b.withIndex s.options.maxOctreeDepth
      let t' := { t with meshes := t.meshes.insert idB { b with index := some index } }
      match index with
      | some octree => (a.mesh.clashIndexed b.mesh octree ε, t')
      | none =>
        let isFirst : Bool := b.index.isNone
        let t' := t'.countWith fun m => { m with errors := m.errors + if isFirst then 1 else 0 }
        (a.mesh.clash b.mesh ε, t')

def wantsVolume (s : Setting) (a b : Decoded) : Bool :=
  let limit := s.rules.volumeTriangleThreshold
  s.rules.needsVolume && a.closedness = .closed && b.closedness = .closed &&
    a.mesh.faces.length ≤ limit && b.mesh.faces.length ≤ limit

def volume (s : Setting) (a b : Decoded) (t : Tally) : Option (ClashVolume Float) × Tally :=
  if wantsVolume s a b then
    let t' := { t with solved := (a.mesh, b.mesh) :: t.solved }
    match s.solver t.solved.length a.mesh b.mesh with
    | .ok solid =>
      let v := ClashVolume.ofSolid solid
      (some (if s.rules.computeVolumes then v else v.dropSolid), t')
    | .error _ =>
      (none, t'.countWith fun m => { m with clashVolumeErrors := m.clashVolumeErrors + 1 })
  else (none, t)

def record (s : Setting) (a b : UInt64) (v : Option (ClashVolume Float)) (t : Tally) : Tally :=
  match v with
  | none => { t with results := t.results.addClash a b }
  | some v =>
    if s.rules.accepts v.volume v.width v.height then
      let r := t.results.addClash a b
      { t with results := if s.rules.computeVolumes then r.setVolume a b v else r }
    else t

def compare (s : Setting) (a b : Item) (t : Tally) : Tally :=
  let t := t.countWith fun m => { m with examinedPairs := m.examinedPairs + 1 }
  let (da, t) := t.fetch s a
  let (db, t) := t.fetch s b
  match da, db with
  | some da, some db =>
    let (hit, t) := t.clash s (meshId s b) da db
    if hit then
      let (v, t) := t.volume s da db
      t.record s a.object.id b.object.id v
    else t
  | _, _ => t.countWith fun m => { m with notEnoughData := m.notEnoughData + 1 }

def isWorth (s : Setting) (a b : Octree.Entry Float Item) (t : Tally) : Bool :=
  !(s.selfCheck && t.finished.contains b.value.object.id) &&
    s.filter.admits a.value.object.id a.value.type b.value.object.id b.value.type &&
    a.bounds.Clashes b.bounds

def examine (s : Setting) (a b : Octree.Entry Float Item) (t : Tally) : Tally :=
  if t.isWorth s a b then t.compare s a.value b.value else t

def finish (s : Setting) (a : Octree.Entry Float Item) (t : Tally) : Tally :=
  let t := if s.selfCheck then { t with finished := t.finished.insert a.value.object.id } else t
  t.countWith fun m => { m with checkedCombinations := m.checkedCombinations + s.secondCount }

end Tally

end SolidClash.Detection
