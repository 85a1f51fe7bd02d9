import SolidClash.Vec
import Std.Data.HashMap

/-! Welding of points: a point within the tolerance of a stored one, on every axis, shares its
number, and the first point near a place stays. -/

namespace SolidClash

abbrev Cell := Int × Int × Int

structure Weld (α : Type) where
  tolerance : α
  points : Array (Vec α)
  grid : Std.HashMap Cell (List Nat)

namespace Weld

variable {α : Type} [Scalar α]

def new (tolerance : α) : Weld α := ⟨tolerance, #[], ∅⟩

/-- Cells are never narrower than this, so a zero tolerance means exact matching. -/
def leastCell : α := 1e-12

def cellSize (w : Weld α) : α := Scalar.maxNum w.tolerance leastCell

def cellAt (w : Weld α) (p : Vec α) : Cell :=
  (Scalar.cell (p.x / w.cellSize), Scalar.cell (p.y / w.cellSize), Scalar.cell (p.z / w.cellSize))

def around (c : Cell) : List Cell :=
  let steps : List Int := [-1, 0, 1]
  steps.flatMap fun dx => steps.flatMap fun dy => steps.map fun dz =>
    (Scalar.clampCell (c.1 + dx), Scalar.clampCell (c.2.1 + dy), Scalar.clampCell (c.2.2 + dz))

def Near (w : Weld α) (p q : Vec α) : Prop :=
  Scalar.abs (q.x - p.x) ≤ w.tolerance ∧ Scalar.abs (q.y - p.y) ≤ w.tolerance ∧
    Scalar.abs (q.z - p.z) ≤ w.tolerance

instance (w : Weld α) (p q : Vec α) : Decidable (w.Near p q) := inferInstanceAs (Decidable (_ ∧ _))

def Matches (w : Weld α) (p : Vec α) (id : Nat) : Prop := ∃ q ∈ w.points[id]?, w.Near p q

instance (w : Weld α) (p : Vec α) (id : Nat) : Decidable (w.Matches p id) :=
  decidable_of_iff (w.points[id]?.any fun q => w.Near p q) (by simp [Matches, Option.any_eq_true])

def find? (w : Weld α) (p : Vec α) : Option Nat :=
  (((around (w.cellAt p)).flatMap fun c => w.grid.getD c []).filter fun id => w.Matches p id).min?

def push (w : Weld α) (p : Vec α) : Weld α :=
  { w with
    points := w.points.push p
    grid := w.grid.alter (w.cellAt p) fun ids => some (w.points.size :: ids.getD []) }

def insert (w : Weld α) (p : Vec α) : Nat × Weld α :=
  match w.find? p with
  | some id => (id, w)
  | none => (w.points.size, w.push p)

def insertAll (w : Weld α) : List (Vec α) → List Nat × Weld α
  | [] => ([], w)
  | p :: ps =>
    let (id, w) := w.insert p
    let (ids, w) := w.insertAll ps
    (id :: ids, w)

def coordinates (w : Weld α) (k : α) : List α := w.points.toList.flatMap fun p => (p.scale k).toList

@[simp] theorem points_push (w : Weld α) (p : Vec α) : (w.push p).points = w.points.push p := rfl

@[simp] theorem tolerance_push (w : Weld α) (p : Vec α) : (w.push p).tolerance = w.tolerance := rfl

end Weld

end SolidClash
