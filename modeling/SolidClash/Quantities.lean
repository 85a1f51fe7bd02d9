import SolidClash.Mesh.Measure
import SolidClash.Mesh.Watertight
import SolidClash.Model
import SolidClash.Progress
import Std.Data.ExtTreeMap

namespace SolidClash

structure Quantities where
  area : Float := 0.0
  volume : Float := 0.0
deriving Repr

namespace Quantities

def ofMesh (m : Mesh Float) : Quantities :=
  ⟨m.area, if m.closedness = .closed then m.volume else 0.0⟩

def ofData (multiplier : Float) (d : GeometryData) : Quantities :=
  (d.mesh? none multiplier).elim {} ofMesh

structure Run where
  quantities : Std.ExtTreeMap UInt64 Quantities
  monitor : Monitor

def workOff (s : Signals) (multiplier : Float) (total : Nat) :
    (done : Nat) → List GeometryData → Run → Run
  | _, [], r => r
  | done, d :: ds, r =>
    let r := { r with monitor := r.monitor.poll s done total }
    if r.monitor.cancelled then r
    else workOff s multiplier total (done + 1) ds
      { r with quantities := r.quantities.insert d.id (ofData multiplier d) }

/-- The quantities of all records; those of the records before it if the run is cancelled. A later
record replaces one with the same id. -/
def calculate (s : Signals) (multiplier : Float) (ds : List GeometryData) : Run :=
  let total := ds.length
  let r := workOff s multiplier total 0 ds ⟨∅, .new defaultProgressInterval⟩
  if r.monitor.cancelled then r else { r with monitor := r.monitor.report total total }

end Quantities

end SolidClash
