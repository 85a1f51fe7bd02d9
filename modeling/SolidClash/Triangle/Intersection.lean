import SolidClash.Triangle

/-! Whether two triangles penetrate each other. Mere contact (a shared corner, a shared edge, a
corner on a face) is no intersection. -/

namespace SolidClash.Triangle

open Scalar

variable {α : Type} [Scalar α]

structure Triple (α : Type) where
  a : α
  b : α
  c : α
deriving Repr

inductive Corner where
  | a | b | c
deriving DecidableEq, Repr

def Triple.get {β : Type} (t : Triple β) : Corner → β
  | .a => t.a
  | .b => t.b
  | .c => t.c

def Triple.toList {β : Type} (t : Triple β) : List β := [t.a, t.b, t.c]

def mapCorners {β : Type} (t : Triangle α) (f : Vec α → β) : Triple β := ⟨f t.a, f t.b, f t.c⟩

def Corner.others : Corner → Corner × Corner
  | a => (b, c)
  | b => (a, c)
  | c => (a, b)

def planeNoise : α := 1e-12

/-- The distance to a plane below which a corner lies on it. -/
def snap (s t : Triangle α) (ε : α) : α :=
  maxNum ε (planeNoise * (1 + maxNum s.magnitude t.magnitude))

def distances (t : Triangle α) (normal origin : Vec α) (least : α) : Triple α :=
  t.mapCorners fun p =>
    let d := normal.dot (p - origin)
    if Scalar.abs d < least then 0 else d

def Triple.AllZero (d : Triple α) : Prop := IsZero d.a ∧ IsZero d.b ∧ IsZero d.c

instance (d : Triple α) : Decidable d.AllZero := inferInstanceAs (Decidable (_ ∧ _))

def Triple.Straddles (d : Triple α) (ε₂ : α) : Prop :=
  d.a * d.b < -ε₂ ∨ d.a * d.c < -ε₂ ∨ d.b * d.c < -ε₂

instance (d : Triple α) (ε₂ : α) : Decidable (d.Straddles ε₂) := inferInstanceAs (Decidable (_ ∨ _))

def Triple.lone? (d : Triple α) : Option Corner :=
  if 0 < d.a * d.b then some .c
  else if 0 < d.a * d.c then some .b
  else if 0 < d.b * d.c ∨ ¬ IsZero d.a then some .a
  else if ¬ IsZero d.b then some .b
  else if ¬ IsZero d.c then some .c
  else none

def crossing (along dist : Triple α) (i j : Corner) : α :=
  along.get i + (along.get j - along.get i) * dist.get i / (dist.get i - dist.get j)

def interval? (along dist : Triple α) : Option (α × α) :=
  dist.lone?.map fun lone =>
    let p := crossing along dist lone lone.others.1
    let q := crossing along dist lone lone.others.2
    if p ≤ q then (p, q) else (q, p)

/-- Equal up to `ε`, relative to the larger number when that exceeds one. -/
def Close (x y ε : α) : Prop :=
  Scalar.abs (x - y) ≤ ε * maxNum (maxNum 1 (Scalar.abs x)) (Scalar.abs y)

instance (x y ε : α) : Decidable (Close x y ε) := inferInstanceAs (Decidable (_ ≤ _))

/-- The shadows of both triangles on `axis` overlap by no more than `ε` or a quarter of the narrower
shadow. -/
def SeparatedOn (s t : Triple (Vec2 α)) (axis : Vec2 α) (ε : α) : Prop :=
  match range (s.toList.map (·.dot axis)), range (t.toList.map (·.dot axis)) with
  | some (lo₁, hi₁), some (lo₂, hi₂) =>
    minNum hi₁ hi₂ - maxNum lo₁ lo₂ ≤ minNum ε (0.25 * minNum (hi₁ - lo₁) (hi₂ - lo₂))
  | _, _ => True

instance (s t : Triple (Vec2 α)) (axis : Vec2 α) (ε : α) : Decidable (SeparatedOn s t axis ε) := by
  unfold SeparatedOn
  split <;> infer_instance

def Triple.edgeNormals (t : Triple (Vec2 α)) : List (Vec2 α) :=
  [t.b - t.a, t.c - t.b, t.a - t.c].filterMap fun e => e.turned.unit? 1e-20

def overlapInPlane (s t : Triangle α) (n₁ n₂ : Vec α) (ε : α) : Bool :=
  if n₁.dot n₂ < 0 then false
  else
    let flat (r : Triangle α) := r.mapCorners fun p => (p - s.a).onto n₁.dominant.others
    let p := flat s
    let q := flat t
    (p.edgeNormals ++ q.edgeNormals).all fun axis => ¬ SeparatedOn p q axis ε

def overlapOnLine (s t : Triangle α) (n₁ n₂ : Vec α) (ds dt : Triple α) (ε : α) : Bool :=
  let axis := (n₁.cross n₂).dominant
  let along (r : Triangle α) := r.mapCorners fun p => p.along axis - s.a.along axis
  match interval? (along s) ds, interval? (along t) dt with
  | some (lo₁, hi₁), some (lo₂, hi₂) =>
    ¬ Close hi₁ lo₂ ε ∧ ¬ Close hi₂ lo₁ ε ∧ ¬ hi₁ < lo₂ ∧ ¬ hi₂ < lo₁
  | _, _ => false

/-- Whether two triangles penetrate each other. A corner within `ε` of a plane lies on it, and
interval ends within `ε` touch; a triangle straddles a plane when the product of two of its
distances is below `-ε₂`. -/
def intersects (s t : Triangle α) (ε ε₂ : α) : Bool :=
  match s.unitNormal?, t.unitNormal? with
  | some n₁, some n₂ =>
    let least := snap s t ε
    let dt := t.distances n₁ s.a least
    if dt.AllZero then overlapInPlane s t n₁ n₂ ε
    else if ¬ dt.Straddles ε₂ then false
    else
      let ds := s.distances n₂ t.a least
      if ds.AllZero then overlapInPlane s t n₁ n₂ ε
      else if ¬ ds.Straddles ε₂ then false
      else overlapOnLine s t n₁ n₂ ds dt ε
  | _, _ => false

end SolidClash.Triangle
