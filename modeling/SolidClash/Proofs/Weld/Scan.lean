import Mathlib.Algebra.Order.Floor.Ring
import SolidClash.Proofs.Weld.Number

/-! Points within the tolerance of each other lie in cells that touch, also across zero and at the
limits of the range, where cells are held back. -/

namespace SolidClash

def Vec.Within (ε : ℝ) (p q : Vec ℝ) : Prop :=
  |q.x - p.x| ≤ ε ∧ |q.y - p.y| ≤ ε ∧ |q.z - p.z| ≤ ε

namespace Weld

lemma abs_floor_sub_le {x y : ℝ} (h : |y - x| ≤ 1) : |⌊y⌋ - ⌊x⌋| ≤ 1 := by
  obtain ⟨hlow, hhigh⟩ := abs_le.mp h
  have hxy : ⌊x⌋ ≤ ⌊y⌋ + 1 := by
    rw [← Int.floor_add_one]
    exact Int.floor_mono (by linarith)
  have hyx : ⌊y⌋ ≤ ⌊x⌋ + 1 := by
    rw [← Int.floor_add_one]
    exact Int.floor_mono (by linarith)
  exact abs_le.mpr ⟨by linarith, by linarith⟩

lemma exists_step {a b : ℤ} (h : |b - a| ≤ 1) :
    ∃ d ∈ ([-1, 0, 1] : List ℤ),
      Scalar.clampCell (Scalar.clampCell a + d) = Scalar.clampCell b := by
  have hrange : Int64.minValue.toInt ≤ Int64.maxValue.toInt := by decide
  obtain ⟨hlow, hhigh⟩ := abs_le.mp h
  simp only [Scalar.clampCell]
  by_cases ha : Int64.minValue.toInt ≤ a ∧ a ≤ Int64.maxValue.toInt
  · refine ⟨b - a, ?_, by omega⟩
    simp only [List.mem_cons, List.not_mem_nil, or_false]
    omega
  · -- beyond the range both are held to the same limit
    exact ⟨0, by simp, by omega⟩

lemma exists_step_of_close {c ε x y : ℝ} (hc : 0 < c) (hε : ε ≤ c) (h : |y - x| ≤ ε) :
    ∃ d ∈ ([-1, 0, 1] : List ℤ),
      Scalar.clampCell (Scalar.cell (x / c) + d) = Scalar.cell (y / c) := by
  have hdiv : |y / c - x / c| ≤ 1 := by
    rw [← sub_div, abs_div, abs_of_pos hc, div_le_one hc]
    exact h.trans hε
  exact exists_step (abs_floor_sub_le hdiv)

variable {w : Weld ℝ} {p q : Vec ℝ}

lemma near_iff_within : w.Near p q ↔ p.Within w.tolerance q := by
  simp [Near, Vec.Within]

lemma mem_around_of_within (h : p.Within w.tolerance q) : w.cellAt q ∈ around (w.cellAt p) := by
  have hsize : w.cellSize = max w.tolerance leastCell := Scalar.maxNum_real _ _
  have hpos : 0 < w.cellSize := by
    rw [hsize]
    exact lt_max_of_lt_right (by norm_num [leastCell])
  have hle : w.tolerance ≤ w.cellSize := hsize ▸ le_max_left _ _
  obtain ⟨hx, hy, hz⟩ := h
  obtain ⟨dx, hdx, hcx⟩ := exists_step_of_close hpos hle hx
  obtain ⟨dy, hdy, hcy⟩ := exists_step_of_close hpos hle hy
  obtain ⟨dz, hdz, hcz⟩ := exists_step_of_close hpos hle hz
  simp only [around, List.mem_flatMap, List.mem_map]
  exact ⟨dx, hdx, dy, hdy, dz, hdz, by rw [cellAt, hcx, hcy, hcz, cellAt]⟩

lemma offers_iff {id : ℕ} :
    w.Offers p id ↔ ∃ q, w.points[id]? = some q ∧ p.Within w.tolerance q := by
  simp only [Offers, near_iff_within]
  constructor
  · rintro ⟨q, hq, _, hpq⟩
    exact ⟨q, hq, hpq⟩
  · rintro ⟨q, hq, hpq⟩
    exact ⟨q, hq, mem_around_of_within hpq, hpq⟩

lemma Filed.find?_eq_some_iff (h : w.Filed) {id : ℕ} :
    w.find? p = some id ↔
      IsLeast {i | ∃ q, w.points[i]? = some q ∧ p.Within w.tolerance q} id := by
  simp only [h.find?_eq_some, offers_iff]
  rfl

lemma Filed.find?_eq_none_iff (h : w.Filed) :
    w.find? p = none ↔ ∀ q ∈ w.points, ¬ p.Within w.tolerance q := by
  constructor
  · intro hp q hq hpq
    obtain ⟨id, hid⟩ := Array.mem_iff_getElem?.mp hq
    exact h.not_offers hp id (offers_iff.mpr ⟨q, hid, hpq⟩)
  · intro hnone
    cases hp : w.find? p with
    | none => rfl
    | some id =>
      obtain ⟨q, hq, hpq⟩ := (h.find?_eq_some_iff.mp hp).1
      exact (hnone q (Array.mem_of_getElem? hq) hpq).elim

def Apart (w : Weld ℝ) : Prop := w.points.toList.Pairwise fun q r => ¬ r.Within w.tolerance q

lemma Apart.insert (ha : w.Apart) (h : w.Filed) (p : Vec ℝ) : (w.insert p).2.Apart := by
  rw [Weld.insert]
  cases hp : w.find? p with
  | some id => exact ha
  | none =>
    have hnew := h.find?_eq_none_iff.mp hp
    rw [Apart, points_push, tolerance_push, Array.toList_push, List.pairwise_append]
    refine ⟨ha, List.pairwise_singleton _ _, fun q hq r hr => ?_⟩
    obtain rfl := List.mem_singleton.mp hr
    exact hnew q (Array.mem_toList_iff.mp hq)

lemma Apart.insertAll (ha : w.Apart) (h : w.Filed) (ps : List (Vec ℝ)) :
    (w.insertAll ps).2.Apart := by
  induction ps generalizing w with
  | nil => exact ha
  | cons p ps ih => exact ih (ha.insert h p) (h.insert p)

section Numbers

variable {α : Type} [Scalar α] {w : Weld α}

lemma Filed.insert_cases (h : w.Filed) (p : Vec α) :
    (∃ id < w.points.size, w.insert p = (id, w)) ∨ w.insert p = (w.points.size, w.push p) := by
  rw [Weld.insert]
  cases hp : w.find? p with
  | some id => exact Or.inl ⟨id, (h.find?_eq_some.mp hp).1.lt_size, rfl⟩
  | none => exact Or.inr rfl

lemma prefix_insert (p : Vec α) : w.points.toList <+: (w.insert p).2.points.toList := by
  rw [Weld.insert]
  cases w.find? p with
  | some id => exact List.prefix_rfl
  | none =>
    rw [points_push, Array.toList_push]
    exact List.prefix_append _ _

lemma prefix_insertAll (ps : List (Vec α)) :
    w.points.toList <+: (w.insertAll ps).2.points.toList := by
  induction ps generalizing w with
  | nil => exact List.prefix_rfl
  | cons p ps ih => exact (prefix_insert p).trans ih

lemma size_le_insertAll (ps : List (Vec α)) : w.points.size ≤ (w.insertAll ps).2.points.size := by
  simpa using (prefix_insertAll (w := w) ps).length_le

lemma getElem?_insertAll {id : ℕ} {q : Vec α} (hq : w.points[id]? = some q) (ps : List (Vec α)) :
    (w.insertAll ps).2.points[id]? = some q := by
  rw [← Array.getElem?_toList] at hq ⊢
  obtain ⟨rest, hrest⟩ := prefix_insertAll (w := w) ps
  rw [← hrest, List.getElem?_append_left (List.getElem?_eq_some_iff.mp hq).1, hq]

lemma Filed.eraseDups_insertAll (h : w.Filed) (ps : List (Vec α)) :
    ((w.insertAll ps).1.filter fun id => w.points.size ≤ id).eraseDups =
      List.range' w.points.size ((w.insertAll ps).2.points.size - w.points.size) := by
  induction ps generalizing w with
  | nil => simp [Weld.insertAll]
  | cons p ps ih =>
    rw [Weld.insertAll]
    rcases h.insert_cases p with ⟨id, hid, hp⟩ | hp
    · simp only [hp]
      rw [List.filter_cons_of_neg (by simpa using hid), ih h]
    · have hrest := ih (h.push p)
      have hsize := size_le_insertAll (w := w.push p) ps
      rw [points_push, Array.size_push] at hrest hsize
      simp only [hp]
      generalize hall : (w.push p).insertAll ps = all at hrest hsize
      have hlater :
          (all.1.filter fun id => w.points.size ≤ id).filter (fun id => id != w.points.size) =
            all.1.filter fun id => w.points.size + 1 ≤ id := by
        rw [List.filter_filter]
        congr 1
        funext id
        rw [Bool.eq_iff_iff]
        simp
        omega
      have hcount : all.2.points.size - w.points.size =
          all.2.points.size - (w.points.size + 1) + 1 := by omega
      rw [List.filter_cons_of_pos (by simp), List.eraseDups_cons, hcount, List.range'_succ, ← hrest,
        ← hlater]
      rfl

lemma Filed.lookup_insertAll (h : w.Filed) {id : ℕ} (hid : w.points.size ≤ id)
    (ps : List (Vec α)) :
    ((w.insertAll ps).1.zip ps).lookup id = (w.insertAll ps).2.points[id]? := by
  induction ps generalizing w with
  | nil => simp [Weld.insertAll, hid]
  | cons p ps ih =>
    rw [Weld.insertAll]
    rcases h.insert_cases p with ⟨old, hold, hp⟩ | hp
    · have hne : (id == old) = false := by simpa using (hold.trans_le hid).ne'
      simp only [hp, List.zip_cons_cons, List.lookup_cons, hne]
      exact ih h hid
    · simp only [hp, List.zip_cons_cons, List.lookup_cons]
      by_cases heq : id = w.points.size
      · subst heq
        have hstored : (w.push p).points[w.points.size]? = some p := by simp
        simp [getElem?_insertAll hstored]
      · have hne : (id == w.points.size) = false := by simpa using heq
        simp only [hne]
        exact ih (h.push p) (by rw [points_push, Array.size_push]; omega)

end Numbers

/-- The numbers `ids` that the points `ps` get and the store `w` that they leave, told without the
cells. -/
structure Welded (ε : ℝ) (ps : List (Vec ℝ)) (ids : List ℕ) (w : Weld ℝ) : Prop where
  found : ∀ p id, w.find? p = some id ↔
    IsLeast {i | ∃ q, w.points[i]? = some q ∧ p.Within ε q} id
  missed : ∀ p, w.find? p = none ↔ ∀ q ∈ w.points, ¬ p.Within ε q
  apart : w.points.toList.Pairwise fun q r =>
    ε < |q.x - r.x| ∨ ε < |q.y - r.y| ∨ ε < |q.z - r.z|
  near : List.Forall₂ (fun id p => ∃ q, w.points[id]? = some q ∧ p.Within ε q) ids ps
  inOrder : ids.eraseDups = List.range w.points.size
  first : ∀ id, (ids.zip ps).lookup id = w.points[id]?
  kept : ∀ qs, w.points.toList <+: (w.insertAll qs).2.points.toList
  again : ∀ qs, List.Forall₂
    (fun id p => (w.insertAll qs).2.insert p = (id, (w.insertAll qs).2)) ids ps

/-- However large the coordinates are: points are welded as a scan of all stored points would do it,
and what a point gets it keeps. -/
theorem insertAll_welded {ε : ℝ} (hε : 0 ≤ ε) (ps : List (Vec ℝ)) :
    Welded ε ps ((new ε).insertAll ps).1 ((new ε).insertAll ps).2 := by
  have hnew : (new ε : Weld ℝ).Filed := filed_new ε
  have hfiled := hnew.insertAll ps
  have htol : ((new ε).insertAll ps).2.tolerance = ε := tolerance_insertAll ps
  have hself (p : Vec ℝ) : (new ε).cellAt p ∈ around ((new ε).cellAt p) := self_mem_around_real _ p
  have hnear (p : Vec ℝ) : (new ε).Near p p := near_self_real _ hε p
  have hfinds := hnew.insertAll_eq_find? hself hnear ps
  have hnearest := hnew.insertAll_near hself hnear ps
  have horder := hnew.eraseDups_insertAll ps
  have hapart : (new ε : Weld ℝ).Apart := List.Pairwise.nil
  replace hapart := hapart.insertAll hnew ps
  have hfirst (id : ℕ) := hnew.lookup_insertAll (Nat.zero_le id) ps
  generalize (new ε).insertAll ps = all at *
  obtain ⟨ids, w⟩ := all
  dsimp only at *
  subst htol
  constructor
  · exact fun p id => hfiled.find?_eq_some_iff
  · exact fun p => hfiled.find?_eq_none_iff
  · refine hapart.imp fun {q r} hqr => ?_
    simpa only [Vec.Within, not_and_or, not_le] using hqr
  · refine hnearest.imp fun id p hid => ?_
    obtain ⟨q, hq, hpq⟩ := hid
    exact ⟨q, hq, near_iff_within.mp hpq⟩
  · simpa [new, List.range_eq_range'] using horder
  · exact hfirst
  · exact prefix_insertAll
  · intro qs
    rw [← List.forall₂_eq_eq_eq, List.forall₂_map_left_iff, List.forall₂_map_right_iff] at hfinds
    refine hfinds.imp fun id p hid => ?_
    rw [Weld.insert, hfiled.find?_insertAll hid.symm qs]

lemma Filed.insert_of_apart (h : w.Filed) (hp : ∀ q ∈ w.points, ¬ p.Within w.tolerance q) :
    w.insert p = (w.points.size, w.push p) := by
  rw [Weld.insert, h.find?_eq_none_iff.mpr hp]

noncomputable def scattered : List (Vec ℝ) :=
  [⟨0.09, -0.01, 0⟩, ⟨1e30, 0, 0⟩, ⟨3e30, 0, 0⟩]

lemma insertAll_scattered : ((new (1 / 10)).insertAll scattered).1 = [0, 1, 2] ∧
    ((new (1 / 10)).insertAll scattered).2.points = scattered.toArray := by
  have h₀ : (new (1 / 10) : Weld ℝ).Filed := filed_new _
  have h₁ := h₀.push ⟨0.09, -0.01, 0⟩
  have h₂ := h₁.push ⟨1e30, 0, 0⟩
  have hp₀ := h₀.insert_of_apart (p := ⟨0.09, -0.01, 0⟩) (by simp [new])
  have hp₁ := h₁.insert_of_apart (p := ⟨1e30, 0, 0⟩) (by
    norm_num [new, Vec.Within, abs_le])
  have hp₂ := h₂.insert_of_apart (p := ⟨3e30, 0, 0⟩) (by
    norm_num [new, Vec.Within, abs_le])
  simp only [scattered, insertAll, hp₀, hp₁, hp₂]
  simp [new]

theorem insertAll_welded_scattered : (0 : ℝ) ≤ 1 / 10 ∧
    ((new (1 / 10)).insertAll scattered).1 = [0, 1, 2] ∧
      ((new (1 / 10)).insertAll scattered).2.find? ⟨0.11, 0.01, 0⟩ = some 0 ∧
      ((new (1 / 10)).insertAll scattered).2.find? ⟨3e30 + 0.05, 0, 0⟩ = some 2 := by
  have hε : (0 : ℝ) ≤ 1 / 10 := by norm_num
  obtain ⟨hids, hpoints⟩ := insertAll_scattered
  have h := insertAll_welded hε scattered
  have hstored (i : ℕ) : ((new (1 / 10)).insertAll scattered).2.points[i]? = scattered[i]? := by
    rw [hpoints, List.getElem?_toArray]
  refine ⟨hε, hids, (h.found _ _).mpr ⟨⟨_, hstored 0, ?_⟩, fun _ _ => Nat.zero_le _⟩,
    (h.found _ _).mpr ⟨⟨_, hstored 2, ?_⟩, ?_⟩⟩
  · norm_num [Vec.Within, abs_le]
  · norm_num [Vec.Within, abs_le]
  · rintro i ⟨q, hq, hx, _⟩
    rw [hstored] at hq
    -- the first two points are far off
    match i with
    | 0 =>
      obtain rfl := Option.some.inj hq
      norm_num [abs_le] at hx
    | 1 =>
      obtain rfl := Option.some.inj hq
      norm_num [abs_le] at hx
    | i + 2 => omega

end Weld

end SolidClash
