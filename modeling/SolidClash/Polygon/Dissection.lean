import SolidClash.Polygon.Ears
import SolidClash.Polygon.Diagonal

/-! Ears are cut off until none is left, then the ring is straightened, untied and at last split in
two. Long polygons and the parts of a split are laid on a grid. -/

namespace SolidClash.Polygon

variable {α : Type} [Scalar α]

def exhaust (grid : Option (Grid α)) (ring : List (Vertex α)) : List Triangle × List (Vertex α) :=
  let first := cutEars grid ring
  let straightened := cutEars grid (straighten first.2)
  let untied := uncross straightened.2
  let last := cutEars grid untied.2
  (first.1 ++ straightened.1 ++ untied.1 ++ last.1, last.2)

theorem length_exhaust_le (grid : Option (Grid α)) (ring : List (Vertex α)) :
    (exhaust grid ring).2.length ≤ ring.length := by
  simp only [exhaust]
  exact Nat.le_trans (length_cutEars_le _ _) <| Nat.le_trans (length_uncross_le _) <|
    Nat.le_trans (length_cutEars_le _ _) <| Nat.le_trans (length_straighten_le _) <|
      length_cutEars_le _ _

def parts? (ring : List (Vertex α)) : Option (List (Vertex α) × List (Vertex α)) :=
  (split? ring).map fun (r, s) => (straightenFirst r, straightenFirst s)

theorem length_lt_of_parts? {ring r s : List (Vertex α)} (h : parts? ring = some (r, s)) :
    r.length < ring.length ∧ s.length < ring.length := by
  obtain ⟨⟨u, v⟩, huv, hrs⟩ := Option.map_eq_some_iff.1 h
  obtain ⟨rfl, rfl⟩ := Prod.mk.inj hrs
  have hl := length_lt_of_split? huv
  exact ⟨Nat.lt_of_le_of_lt (length_straightenFirst_le u) hl.1,
    Nat.lt_of_le_of_lt (length_straightenFirst_le v) hl.2⟩

def splitUp? (grid : Grid α) (ring : List (Vertex α)) : Option (List Triangle) :=
  match _h : parts? ring with
  | some (r, s) =>
    if grid.covers r && grid.covers s then do
      let left := exhaust (some grid) r
      let right := exhaust (some grid) s
      let ts ← splitUp? grid left.2
      let us ← splitUp? grid right.2
      return left.1 ++ ts ++ right.1 ++ us
    else none
  | none => some []
termination_by ring.length
decreasing_by
  · exact Nat.lt_of_le_of_lt (length_exhaust_le _ _) (length_lt_of_parts? _h).1
  · exact Nat.lt_of_le_of_lt (length_exhaust_le _ _) (length_lt_of_parts? _h).2

def dissect? (grid : Option (Grid α)) (ring : List (Vertex α)) : Option (List Triangle) :=
  let (ts, left) := exhaust grid ring
  (splitUp? (grid.getD .single) left).map (ts ++ ·)

def doubleArea (ps : List (Vec2 α)) : α :=
  Scalar.sum ((cyclicPairs (readFromLast ps)).map fun (p, q) => (p.x - q.x) * (p.y + q.y))

def ring (ps : List (Vec2 α)) : List (Vertex α) :=
  let vs := ps.zipIdx.map fun (p, i) => (i, p)
  match readFromLast (if 0 < doubleArea ps then vs else vs.reverse) with
  | p :: q :: vs => if p.2.Coincides q.2 then q :: vs else p :: q :: vs
  | vs => vs

def fromLeast (ring : List (Vertex α)) : List (Vertex α) :=
  match Scalar.range (ring.map (·.2.x)), Scalar.range (ring.map (·.2.y)) with
  | some (x, _), some (y, _) => ring.map fun (i, p) => (i, p - ⟨x, y⟩)
  | _, _ => ring

def longRing : Nat := 40

def triangles? (ps : List (Vec2 α)) : Option (List Triangle) :=
  if ps.length < longRing then dissect? none (ring ps)
  else
    let long := fromLeast (ring ps)
    let grid := Grid.fitting long
    if grid.covers long then dissect? (some grid) long else none

end SolidClash.Polygon
