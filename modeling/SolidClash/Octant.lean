import SolidClash.Box

namespace SolidClash

/-- One of the eight parts of a box split at a point: upper is towards `+z`, back towards `+y`,
right towards `+x`. -/
inductive Octant where
  | upperBackLeft
  | upperBackRight
  | upperFrontLeft
  | upperFrontRight
  | lowerBackLeft
  | lowerBackRight
  | lowerFrontLeft
  | lowerFrontRight
deriving DecidableEq, Repr

namespace Octant

def all : List Octant :=
  [upperBackLeft, upperBackRight, upperFrontLeft, upperFrontRight,
    lowerBackLeft, lowerBackRight, lowerFrontLeft, lowerFrontRight]

theorem mem_all (o : Octant) : o ∈ all := by cases o <;> decide

theorem nodup_all : all.Nodup := by decide

def index : Octant → Nat
  | upperBackLeft => 0
  | upperBackRight => 1
  | upperFrontLeft => 2
  | upperFrontRight => 3
  | lowerBackLeft => 4
  | lowerBackRight => 5
  | lowerFrontLeft => 6
  | lowerFrontRight => 7

def ofSides (right back upper : Bool) : Octant :=
  match upper, back, right with
  | true, true, false => upperBackLeft
  | true, true, true => upperBackRight
  | true, false, false => upperFrontLeft
  | true, false, true => upperFrontRight
  | false, true, false => lowerBackLeft
  | false, true, true => lowerBackRight
  | false, false, false => lowerFrontLeft
  | false, false, true => lowerFrontRight

def right : Octant → Bool
  | upperBackRight | upperFrontRight | lowerBackRight | lowerFrontRight => true
  | _ => false

def back : Octant → Bool
  | upperBackLeft | upperBackRight | lowerBackLeft | lowerBackRight => true
  | _ => false

def upper : Octant → Bool
  | upperBackLeft | upperBackRight | upperFrontLeft | upperFrontRight => true
  | _ => false

@[simp] theorem right_ofSides (r b u : Bool) : (ofSides r b u).right = r := by
  cases r <;> cases b <;> cases u <;> rfl

@[simp] theorem back_ofSides (r b u : Bool) : (ofSides r b u).back = b := by
  cases r <;> cases b <;> cases u <;> rfl

@[simp] theorem upper_ofSides (r b u : Bool) : (ofSides r b u).upper = u := by
  cases r <;> cases b <;> cases u <;> rfl

variable {α : Type} [Scalar α]

def part (o : Octant) (box : Box α) (mid : Vec α) : Box α where
  min :=
    { x := if o.right then mid.x else box.min.x
      y := if o.back then mid.y else box.min.y
      z := if o.upper then mid.z else box.min.z }
  max :=
    { x := if o.right then box.max.x else mid.x
      y := if o.back then box.max.y else mid.y
      z := if o.upper then box.max.z else mid.z }

def side? (lo hi mid : α) : Option Bool :=
  if hi < mid then some false else if mid < lo then some true else none

def holding? (mid : Vec α) (b : Box α) : Option Octant := do
  let right ← side? b.min.x b.max.x mid.x
  let back ← side? b.min.y b.max.y mid.y
  let upper ← side? b.min.z b.max.z mid.z
  return ofSides right back upper

end Octant

structure Octants (γ : Type) where
  upperBackLeft : γ
  upperBackRight : γ
  upperFrontLeft : γ
  upperFrontRight : γ
  lowerBackLeft : γ
  lowerBackRight : γ
  lowerFrontLeft : γ
  lowerFrontRight : γ
deriving Repr

namespace Octants

variable {γ : Type}

def const (c : γ) : Octants γ := ⟨c, c, c, c, c, c, c, c⟩

def get (cs : Octants γ) : Octant → γ
  | .upperBackLeft => cs.upperBackLeft
  | .upperBackRight => cs.upperBackRight
  | .upperFrontLeft => cs.upperFrontLeft
  | .upperFrontRight => cs.upperFrontRight
  | .lowerBackLeft => cs.lowerBackLeft
  | .lowerBackRight => cs.lowerBackRight
  | .lowerFrontLeft => cs.lowerFrontLeft
  | .lowerFrontRight => cs.lowerFrontRight

def set (cs : Octants γ) (c : γ) : Octant → Octants γ
  | .upperBackLeft => { cs with upperBackLeft := c }
  | .upperBackRight => { cs with upperBackRight := c }
  | .upperFrontLeft => { cs with upperFrontLeft := c }
  | .upperFrontRight => { cs with upperFrontRight := c }
  | .lowerBackLeft => { cs with lowerBackLeft := c }
  | .lowerBackRight => { cs with lowerBackRight := c }
  | .lowerFrontLeft => { cs with lowerFrontLeft := c }
  | .lowerFrontRight => { cs with lowerFrontRight := c }

@[simp] theorem get_const (c : γ) (o : Octant) : (const c).get o = c := by cases o <;> rfl

theorem get_set (cs : Octants γ) (c : γ) (o p : Octant) :
    (cs.set c o).get p = if p = o then c else cs.get p := by
  cases o <;> cases p <;> rfl

end Octants

end SolidClash
