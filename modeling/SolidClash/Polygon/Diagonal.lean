import SolidClash.Polygon.Corner

namespace SolidClash.Polygon

variable {α : Type} [Scalar α]

def crosses (p q r s : Vec2 α) : Bool :=
  (p.Coincides r && q.Coincides s) || (p.Coincides s && q.Coincides r) ||
    ((Vec2.bend p q r < 0) != (Vec2.bend p q s < 0) &&
      (Vec2.bend r s p < 0) != (Vec2.bend r s q < 0))

def encloses (ring : List (Vertex α)) (m : Vec2 α) : Bool :=
  (cyclicPairs ring).foldl (fun inside (p, q) =>
    let (a, b) := (p.2, q.2)
    inside != ((m.y < a.y) != (m.y < b.y) &&
      m.x < (b.x - a.x) * (m.y - a.y) / (b.y - a.y) + a.x)) false

def untie? (ring : List (Vertex α)) : Option (Triangle × List (Vertex α)) :=
  match Corner.first? ring, Corner.first? (readFrom ring 3) with
  | some c, some d =>
    let (a, b) := (c.tip.2, d.tip.2)
    if !a.Coincides b && crosses a c.after.2 d.before.2 b && c.opensTo b && d.opensTo a then
      some ((c.tip.1, c.after.1, d.tip.1), ring.drop 3 ++ ring.take 1)
    else none
  | _, _ => none

def untieFirst? (n : Nat) (ring : List (Vertex α)) : Option (Triangle × List (Vertex α)) :=
  (List.range n).findSome? fun i => untie? (readFrom ring i)

theorem length_lt_of_untieFirst? {n : Nat} {ring left : List (Vertex α)} {t : Triangle}
    (h : untieFirst? n ring = some (t, left)) : left.length < ring.length := by
  obtain ⟨i, _, hi⟩ := List.exists_of_findSome?_eq_some h
  unfold untie? at hi
  simp only at hi
  split at hi
  · rename_i c d hc _
    have := Corner.length_of_first? hc
    split at hi
    · obtain ⟨_, rfl⟩ := Prod.mk.inj (Option.some.inj hi)
      simp only [List.length_append, List.length_drop, List.length_take, length_readFrom] at this ⊢
      omega
    · exact absurd hi (by simp)
  · exact absurd hi (by simp)

def untieOn (ring : List (Vertex α)) : List Triangle × List (Vertex α) :=
  match _h : untieFirst? (ring.length - 1) ring with
  | some (t, left) =>
    let (ts, left) := untieOn left
    (t :: ts, left)
  | none => ([], ring)
termination_by ring.length
decreasing_by exact length_lt_of_untieFirst? _h

theorem length_untieOn_le (ring : List (Vertex α)) :
    (untieOn ring).2.length ≤ ring.length := by
  fun_induction untieOn ring with
  | case1 ring t next h ts left hl ih =>
    have := length_lt_of_untieFirst? h
    simp only [hl] at ih
    exact Nat.le_trans ih (Nat.le_of_lt this)
  | case2 => exact Nat.le_refl _

def uncross (ring : List (Vertex α)) : List Triangle × List (Vertex α) :=
  match untieFirst? ring.length (readFromLast ring) with
  | some (t, left) =>
    let (ts, left) := untieOn left
    (t :: ts, left)
  | none => ([], ring)

theorem length_uncross_le (ring : List (Vertex α)) :
    (uncross ring).2.length ≤ ring.length := by
  unfold uncross
  split
  · rename_i t left h
    have h₁ := length_lt_of_untieFirst? h
    have h₂ := length_untieOn_le left
    rw [length_readFromLast] at h₁
    exact Nat.le_trans h₂ (Nat.le_of_lt h₁)
  · exact Nat.le_refl _

def cutAlong? (ring : List (Vertex α)) (j : Nat) :
    Option (List (Vertex α) × List (Vertex α)) :=
  let (right, left) := (ring.take j, ring.drop j)
  match Corner.first? ring, Corner.first? (left ++ right) with
  | some c, some d =>
    let (a, b) := (c.tip.2, d.tip.2)
    let middle : Vec2 α := ⟨(a.x + b.x) / 2.0, (a.y + b.y) / 2.0⟩
    let isFree (path : List (Vertex α)) :=
      (path.zip (path.drop 1)).all fun (p, q) => !crosses p.2 q.2 a b
    if c.opensTo b && d.opensTo a && isFree (right.drop 1) && isFree (left.drop 1) &&
        encloses ring middle then
      some (c.tip :: left, d.tip :: right)
    else none
  | _, _ => none

def split? (ring : List (Vertex α)) : Option (List (Vertex α) × List (Vertex α)) :=
  (List.range ring.length).findSome? fun i =>
    (List.range' 2 (ring.length - 3)).findSome? (cutAlong? (readFrom ring i))

theorem length_lt_of_split? {ring r s : List (Vertex α)} (h : split? ring = some (r, s)) :
    r.length < ring.length ∧ s.length < ring.length := by
  obtain ⟨i, _, hi⟩ := List.exists_of_findSome?_eq_some h
  obtain ⟨j, hj, hc⟩ := List.exists_of_findSome?_eq_some hi
  rw [List.mem_range'_1] at hj
  unfold cutAlong? at hc
  simp only at hc
  split at hc
  · split at hc
    · simp only [Option.some.injEq, Prod.mk.injEq] at hc
      simp only [← hc.1, ← hc.2, List.length_cons, List.length_drop, List.length_take,
        length_readFrom]
      omega
    · exact absurd hc (by simp)
  · exact absurd hc (by simp)

end SolidClash.Polygon
