import SolidClash.Polygon

/-! Rings: the numbered points of a flat polygon in cyclic order, written as a list that may start
at any of them. A corner is a ring read at one of its points. -/

namespace SolidClash.Polygon

variable {α : Type}

abbrev Vertex (α : Type) := Nat × Vec2 α

def readFrom {β : Type} (ring : List β) (i : Nat) : List β := ring.drop i ++ ring.take i

def readFromLast {β : Type} (ring : List β) : List β := readFrom ring (ring.length - 1)

@[simp]
theorem length_readFrom {β : Type} (ring : List β) (i : Nat) :
    (readFrom ring i).length = ring.length := by
  simp only [readFrom, List.length_append, List.length_drop, List.length_take]
  omega

@[simp]
theorem length_readFromLast {β : Type} (ring : List β) :
    (readFromLast ring).length = ring.length := length_readFrom ring _

structure Corner (α : Type) where
  before : Vertex α
  tip : Vertex α
  after : Vertex α
  others : List (Vertex α)

namespace Corner

def first? : List (Vertex α) → Option (Corner α)
  | tip :: after :: ps => some ⟨(after :: ps).getLast (by simp), tip, after, ps⟩
  | _ => none

def find? (ring : List (Vertex α)) (asked : Corner α → Bool) : Option (Corner α) :=
  (List.range ring.length).findSome? fun i => (first? (readFrom ring i)).filter asked

def triangle (c : Corner α) : Triangle := (c.before.1, c.tip.1, c.after.1)

def cut (c : Corner α) : List (Vertex α) := c.others ++ [c.after]

def straight (c : Corner α) : List (Vertex α) := readFromLast (c.after :: c.others)

theorem length_of_first? {ring : List (Vertex α)} {c : Corner α} (h : first? ring = some c) :
    c.others.length + 2 = ring.length := by
  unfold first? at h
  split at h
  · obtain rfl := Option.some.inj h
    simp
  · exact absurd h (by simp)

theorem length_of_find? {ring : List (Vertex α)} {asked : Corner α → Bool} {c : Corner α}
    (h : find? ring asked = some c) : c.others.length + 2 = ring.length := by
  obtain ⟨i, _, hc⟩ := List.exists_of_findSome?_eq_some h
  simpa using length_of_first? (Option.filter_eq_some_iff.1 hc).1

@[simp]
theorem length_cut (c : Corner α) : c.cut.length = c.others.length + 1 := by simp [cut]

@[simp]
theorem length_straight (c : Corner α) : c.straight.length = c.others.length + 1 := by
  simp [straight]

variable [Scalar α]

def bend (c : Corner α) : α := Vec2.bend c.before.2 c.tip.2 c.after.2

def isFlat (c : Corner α) : Bool :=
  c.tip.2.Coincides c.after.2 || Scalar.IsZero c.bend

def opensTo (c : Corner α) (p : Vec2 α) : Bool :=
  let (a, b, d) := (c.before.2, c.tip.2, c.after.2)
  if 0 < c.bend then Vec2.bend b p d ≤ 0 && Vec2.bend b a p ≤ 0
  else 0 < Vec2.bend b p a || 0 < Vec2.bend b d p

end Corner

variable [Scalar α]

def straighten (ring : List (Vertex α)) : List (Vertex α) :=
  match _h : Corner.find? ring Corner.isFlat with
  | some c => straighten c.straight
  | none => ring
termination_by ring.length
decreasing_by
  have := Corner.length_of_find? _h
  simp only [Corner.length_straight]
  omega

theorem length_straighten_le (ring : List (Vertex α)) :
    (straighten ring).length ≤ ring.length := by
  fun_induction straighten ring with
  | case1 ring c h ih =>
    have := Corner.length_of_find? h
    simp only [Corner.length_straight] at ih
    omega
  | case2 => exact Nat.le_refl _

def straightenFirst (ring : List (Vertex α)) : List (Vertex α) :=
  match (Corner.first? ring).filter Corner.isFlat with
  | some c => straighten c.straight
  | none => readFrom ring 1

theorem length_straightenFirst_le (ring : List (Vertex α)) :
    (straightenFirst ring).length ≤ ring.length := by
  unfold straightenFirst
  split
  · rename_i c h
    have hc := Corner.length_of_first? (Option.filter_eq_some_iff.1 h).1
    have hs := length_straighten_le c.straight
    simp only [Corner.length_straight] at hs
    omega
  · simp

end SolidClash.Polygon
