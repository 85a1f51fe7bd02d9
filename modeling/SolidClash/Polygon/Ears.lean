import SolidClash.Polygon.Grid

namespace SolidClash.Polygon

variable {α : Type} [Scalar α]

def holds (a b c p : Vec2 α) : Bool :=
  0 ≤ Vec2.turn p c a && 0 ≤ Vec2.turn p a b && 0 ≤ Vec2.turn p b c

def isClear (within : Vec2 α → Bool) : List (Vertex α) → Bool
  | p :: q :: r :: path =>
    !(Vec2.bend p.2 q.2 r.2 ≤ 0 && within q.2) && isClear within (q :: r :: path)
  | _ => true

namespace Corner

def rest (c : Corner α) : List (Vertex α) := c.after :: c.others

def wholeRest (c : Corner α) : List (Vertex α) :=
  if c.others.length = 1 then c.rest ++ c.tip :: c.rest else c.rest

/-- A corner whose bend is not a number counts as one that turns left. On a grid only the points
near the triangle are looked at, which are all that it can hold if nothing is rounded. -/
def isEar (grid : Option (Grid α)) (c : Corner α) : Bool :=
  let (a, b, d) := (c.before.2, c.tip.2, c.after.2)
  !(c.bend ≤ 0) &&
    match grid with
    | none => isClear (holds a b d) c.wholeRest
    | some g => isClear (fun p => holds a b d p && g.isNear a b d p) c.rest

end Corner

def cutEars (grid : Option (Grid α)) (ring : List (Vertex α)) :
    List Triangle × List (Vertex α) :=
  match _h : Corner.find? ring (Corner.isEar grid) with
  | some c =>
    let (ts, left) := cutEars grid c.cut
    (c.triangle :: ts, left)
  | none => ([], ring)
termination_by ring.length
decreasing_by
  have := Corner.length_of_find? _h
  simp only [Corner.length_cut]
  omega

theorem length_cutEars_le (grid : Option (Grid α)) (ring : List (Vertex α)) :
    (cutEars grid ring).2.length ≤ ring.length := by
  fun_induction cutEars grid ring with
  | case1 ring c h ts left hc ih =>
    have := Corner.length_of_find? h
    simp only [hc, Corner.length_cut] at ih ⊢
    omega
  | case2 => exact Nat.le_refl _

end SolidClash.Polygon
