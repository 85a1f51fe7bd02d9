import Mathlib.Data.List.Range
import SolidClash.Weld

namespace SolidClash.Weld

variable {α : Type} [Scalar α] {w : Weld α}

/-- The grid lists the stored points by their cells, and nothing else. -/
def Filed (w : Weld α) : Prop :=
  ∀ c id, id ∈ w.grid.getD c [] ↔ ∃ p, w.points[id]? = some p ∧ w.cellAt p = c

lemma filed_new (tolerance : α) : (new tolerance).Filed := by
  simp [Filed, new]

lemma Filed.push (h : w.Filed) (p : Vec α) : (w.push p).Filed := by
  intro c id
  have hcell (q : Vec α) : (w.push p).cellAt q = w.cellAt q := rfl
  have hgrid : id ∈ (w.push p).grid.getD c [] ↔
      id ∈ w.grid.getD c [] ∨ (id = w.points.size ∧ w.cellAt p = c) := by
    rw [Weld.push, Std.HashMap.getD_alter]
    by_cases hc : w.cellAt p = c
    · subst hc
      simp [Std.HashMap.getD_eq_getD_getElem?, or_comm]
    · simp [hc]
  rw [hgrid, h, points_push, Array.getElem?_push]
  simp only [hcell]
  by_cases hid : id = w.points.size
  · simp [hid]
  · simp [hid]

def scan (w : Weld α) (p : Vec α) : Option ℕ :=
  (List.range w.points.size).find? fun id => w.Matches p id

lemma Filed.find?_eq_scan (h : w.Filed) {p : Vec α} (hself : w.cellAt p ∈ around (w.cellAt p))
    (hcell : ∀ q ∈ w.points, w.Near p q → w.cellAt q = w.cellAt p) : w.find? p = w.scan p := by
  have hmem (id : ℕ) :
      id ∈ ((around (w.cellAt p)).flatMap fun c => w.grid.getD c []).filter
        (fun id => w.Matches p id) ↔ id < w.points.size ∧ w.Matches p id := by
    simp only [List.mem_filter, List.mem_flatMap, decide_eq_true_eq, and_congr_left_iff]
    rintro ⟨q, hq, hnear⟩
    constructor
    · rintro ⟨c, _, _⟩
      exact (Array.getElem?_eq_some_iff.mp hq).1
    · intro _
      have hqp := hcell q (Array.mem_of_getElem? hq) hnear
      exact ⟨w.cellAt p, hself, (h _ _).mpr ⟨q, hq, hqp⟩⟩
  rw [find?, scan]
  cases hs : (List.range w.points.size).find? fun id => w.Matches p id with
  | none =>
    rw [List.find?_range_eq_none] at hs
    rw [List.min?_eq_none_iff, List.eq_nil_iff_forall_not_mem]
    intro id hid
    obtain ⟨hlt, hm⟩ := (hmem id).mp hid
    simpa [hm] using hs id hlt
  | some id =>
    obtain ⟨hm, hlt, hleast⟩ := List.find?_range_eq_some.mp hs
    rw [List.min?_eq_some_iff]
    refine ⟨(hmem id).mpr ⟨List.mem_range.mp hlt, by simpa using hm⟩, fun j hj => ?_⟩
    by_contra hji
    simpa [((hmem j).mp hj).2] using hleast j (Nat.lt_of_not_le hji)

def scanAll (w : Weld α) : List (Vec α) → List ℕ
  | [] => []
  | p :: ps =>
    match w.scan p with
    | some id => id :: scanAll w ps
    | none => w.points.size :: scanAll (w.push p) ps

lemma Filed.insertAll_eq_scanAll (h : w.Filed)
    (hself : ∀ p, w.cellAt p ∈ around (w.cellAt p)) {ps : List (Vec α)}
    (hcell : ∀ p ∈ ps, ∀ q, q ∈ w.points ∨ q ∈ ps → w.Near p q → w.cellAt q = w.cellAt p) :
    (w.insertAll ps).1 = w.scanAll ps := by
  induction ps generalizing w with
  | nil => rfl
  | cons p ps ih =>
    have hfind := h.find?_eq_scan (hself p) fun q hq =>
      hcell p List.mem_cons_self q (Or.inl hq)
    rw [insertAll, insert, hfind, scanAll]
    cases hs : w.scan p with
    | some id =>
      refine congrArg (id :: ·) (ih h hself fun p' hp' q hq => ?_)
      exact hcell p' (List.mem_cons_of_mem _ hp') q (hq.imp_right (List.mem_cons_of_mem _))
    | none =>
      refine congrArg (w.points.size :: ·) (ih (h.push p) hself fun p' hp' q hq => ?_)
      refine hcell p' (List.mem_cons_of_mem _ hp') q ?_
      rw [points_push, Array.mem_push, or_assoc] at hq
      exact hq.imp_right List.mem_cons.mpr

lemma self_mem_around (w : Weld Float) (p : Vec Float) : w.cellAt p ∈ around (w.cellAt p) := by
  have hclamp (x : Float) : Scalar.clampCell (Scalar.cell x + 0) = Scalar.cell x := by
    have hlow := Int64.minValue_le_toInt x.floor.toInt64
    have hhigh := Int64.toInt_le x.floor.toInt64
    simp only [Scalar.clampCell, Scalar.cell]
    omega
  simp only [around, List.mem_flatMap, List.mem_map]
  exact ⟨0, by simp, 0, by simp, 0, by simp, by simp only [cellAt, hclamp]⟩

end SolidClash.Weld
