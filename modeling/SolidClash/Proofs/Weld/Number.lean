import SolidClash.Proofs.Scalar.Real
import SolidClash.Proofs.Weld

/-! The numbers that points get. A point keeps its number while more points are stored, so in exact
arithmetic the numbers of a list of points are those that a search finds at its end. -/

namespace SolidClash.Weld

variable {α : Type} [Scalar α] {w : Weld α}

def Offers (w : Weld α) (p : Vec α) (id : ℕ) : Prop :=
  ∃ q, w.points[id]? = some q ∧ w.cellAt q ∈ around (w.cellAt p) ∧ w.Near p q

lemma Filed.mem_offers (h : w.Filed) {p : Vec α} {id : ℕ} :
    id ∈ ((around (w.cellAt p)).flatMap fun c => w.grid.getD c []).filter
      (fun id => w.Matches p id) ↔ w.Offers p id := by
  simp only [List.mem_filter, List.mem_flatMap, decide_eq_true_eq, Offers]
  constructor
  · rintro ⟨⟨c, hc, hid⟩, q, hq, hnear⟩
    obtain ⟨q', hq', rfl⟩ := (h c id).mp hid
    obtain rfl := Option.some.inj (hq.symm.trans hq')
    exact ⟨q, hq, hc, hnear⟩
  · rintro ⟨q, hq, hc, hnear⟩
    exact ⟨⟨w.cellAt q, hc, (h _ id).mpr ⟨q, hq, rfl⟩⟩, q, hq, hnear⟩

lemma Filed.find?_eq_some (h : w.Filed) {p : Vec α} {id : ℕ} :
    w.find? p = some id ↔ w.Offers p id ∧ ∀ j, w.Offers p j → id ≤ j := by
  simp only [find?, List.min?_eq_some_iff, h.mem_offers]

lemma Filed.not_offers (h : w.Filed) {p : Vec α} (hp : w.find? p = none) (id : ℕ) :
    ¬ w.Offers p id := by
  rw [find?, List.min?_eq_none_iff] at hp
  rw [← h.mem_offers, hp]
  exact List.not_mem_nil

lemma offers_push {p q : Vec α} {id : ℕ} :
    (w.push q).Offers p id ↔ w.Offers p id ∨
      (id = w.points.size ∧ w.cellAt q ∈ around (w.cellAt p) ∧ w.Near p q) := by
  have hcell (r : Vec α) : (w.push q).cellAt r = w.cellAt r := rfl
  have hnear (r : Vec α) : (w.push q).Near p r ↔ w.Near p r := Iff.rfl
  simp only [Offers, hcell, hnear, points_push, Array.getElem?_push]
  by_cases hid : id = w.points.size
  · simp [hid]
  · simp [hid]

lemma Offers.lt_size {p : Vec α} {id : ℕ} (h : w.Offers p id) : id < w.points.size := by
  obtain ⟨q, hq, _⟩ := h
  exact (Array.getElem?_eq_some_iff.mp hq).1

lemma Filed.find?_push (h : w.Filed) {p : Vec α} {id : ℕ} (hp : w.find? p = some id)
    (q : Vec α) : (w.push q).find? p = some id := by
  obtain ⟨hid, hleast⟩ := h.find?_eq_some.mp hp
  refine (h.push q).find?_eq_some.mpr ⟨offers_push.mpr (Or.inl hid), fun j hj => ?_⟩
  rcases offers_push.mp hj with hj | ⟨rfl, _⟩
  · exact hleast j hj
  · exact hid.lt_size.le

lemma Filed.find?_push_self (h : w.Filed) {p : Vec α} (hp : w.find? p = none)
    (hself : w.cellAt p ∈ around (w.cellAt p)) (hnear : w.Near p p) :
    (w.push p).find? p = some w.points.size := by
  refine (h.push p).find?_eq_some.mpr ⟨offers_push.mpr (Or.inr ⟨rfl, hself, hnear⟩), ?_⟩
  intro j hj
  rcases offers_push.mp hj with hj | ⟨rfl, _⟩
  · exact (h.not_offers hp j hj).elim
  · exact le_rfl

lemma Filed.insert (h : w.Filed) (p : Vec α) : (w.insert p).2.Filed := by
  rw [Weld.insert]
  cases w.find? p with
  | none => exact h.push p
  | some id => exact h

lemma Filed.find?_insertAll (h : w.Filed) {p : Vec α} {id : ℕ} (hp : w.find? p = some id)
    (ps : List (Vec α)) : (w.insertAll ps).2.find? p = some id := by
  induction ps generalizing w with
  | nil => exact hp
  | cons q ps ih =>
    have hq : (w.insert q).2.find? p = some id := by
      rw [Weld.insert]
      cases w.find? q with
      | none => exact h.find?_push hp q
      | some id => exact hp
    exact ih (h.insert q) hq

lemma Filed.insertAll_eq_find? (h : w.Filed) (hself : ∀ p, w.cellAt p ∈ around (w.cellAt p))
    (hnear : ∀ p, w.Near p p) (ps : List (Vec α)) :
    (w.insertAll ps).1.map some = ps.map (w.insertAll ps).2.find? := by
  induction ps generalizing w with
  | nil => rfl
  | cons p ps ih =>
    have hfind : (w.insert p).2.find? p = some (w.insert p).1 := by
      rw [Weld.insert]
      cases hp : w.find? p with
      | none => exact h.find?_push_self hp (hself p) (hnear p)
      | some id => exact hp
    have hkept := (h.insert p).find?_insertAll hfind ps
    have hrest : ((w.insert p).2.insertAll ps).1.map some =
        ps.map ((w.insert p).2.insertAll ps).2.find? := by
      refine ih (h.insert p) ?_ ?_
      · rw [Weld.insert]
        cases w.find? p <;> exact hself
      · rw [Weld.insert]
        cases w.find? p <;> exact hnear
    simp only [insertAll, List.map_cons, hkept, hrest]

lemma Filed.insertAll (h : w.Filed) (ps : List (Vec α)) : (w.insertAll ps).2.Filed := by
  induction ps generalizing w with
  | nil => exact h
  | cons p ps ih => exact ih (h.insert p)

lemma mem_points_insertAll {q : Vec α} {ps : List (Vec α)} (h : q ∈ (w.insertAll ps).2.points) :
    q ∈ w.points ∨ q ∈ ps := by
  induction ps generalizing w with
  | nil => exact Or.inl h
  | cons p ps ih =>
    rcases ih (w := (w.insert p).2) h with h | h
    · rw [Weld.insert] at h
      cases hp : w.find? p with
      | none =>
        rw [hp, points_push, Array.mem_push] at h
        rcases h with h | rfl
        · exact Or.inl h
        · exact Or.inr List.mem_cons_self
      | some id =>
        rw [hp] at h
        exact Or.inl h
    · exact Or.inr (List.mem_cons_of_mem _ h)

lemma tolerance_insert (p : Vec α) : (w.insert p).2.tolerance = w.tolerance := by
  rw [Weld.insert]
  cases w.find? p <;> rfl

lemma tolerance_insertAll (ps : List (Vec α)) : (w.insertAll ps).2.tolerance = w.tolerance := by
  induction ps generalizing w with
  | nil => rfl
  | cons p ps ih => exact ih.trans (tolerance_insert p)

lemma insertAll_append (ps qs : List (Vec α)) :
    w.insertAll (ps ++ qs) =
      ((w.insertAll ps).1 ++ ((w.insertAll ps).2.insertAll qs).1,
        ((w.insertAll ps).2.insertAll qs).2) := by
  induction ps generalizing w with
  | nil => rfl
  | cons p ps ih => simp only [List.cons_append, insertAll, ih]

lemma length_insertAll (ps : List (Vec α)) : (w.insertAll ps).1.length = ps.length := by
  induction ps generalizing w with
  | nil => rfl
  | cons p ps ih => exact congrArg (· + 1) ih

lemma Filed.insertAll_near (h : w.Filed) (hself : ∀ p, w.cellAt p ∈ around (w.cellAt p))
    (hnear : ∀ p, w.Near p p) (ps : List (Vec α)) :
    List.Forall₂ (fun id p => ∃ q, (w.insertAll ps).2.points[id]? = some q ∧ w.Near p q)
      (w.insertAll ps).1 ps := by
  have hfind := List.forall₂_eq_eq_eq ▸ h.insertAll_eq_find? hself hnear ps
  have hkept := w.tolerance_insertAll ps
  rw [List.forall₂_map_left_iff, List.forall₂_map_right_iff] at hfind
  refine hfind.imp fun id p hid => ?_
  obtain ⟨⟨q, hq, _, hqp⟩, _⟩ := (h.insertAll ps).find?_eq_some.mp hid.symm
  exact ⟨q, hq, by rwa [Near, hkept] at hqp⟩

lemma Filed.find?_inj (h : w.Filed) {p q : Vec α} {id : ℕ} (hp : w.find? p = some id)
    (hq : w.find? q = some id) (hapart : ∀ r ∈ w.points, ∀ s, s = p ∨ s = q → w.Near s r → r = s) :
    p = q := by
  obtain ⟨⟨r, hr, _, hnear⟩, _⟩ := h.find?_eq_some.mp hp
  obtain ⟨⟨r', hr', _, hnear'⟩, _⟩ := h.find?_eq_some.mp hq
  obtain rfl := Option.some.inj (hr.symm.trans hr')
  have hmem := Array.mem_of_getElem? hr
  exact (hapart r hmem p (Or.inl rfl) hnear).symm.trans (hapart r hmem q (Or.inr rfl) hnear')

lemma self_mem_around_real (w : Weld ℝ) (p : Vec ℝ) : w.cellAt p ∈ around (w.cellAt p) := by
  have hclamp (x : ℝ) : Scalar.clampCell (Scalar.cell x + 0) = Scalar.cell x := by
    simp only [Scalar.clampCell, Scalar.cell]
    omega
  simp only [around, List.mem_flatMap, List.mem_map]
  exact ⟨0, by simp, 0, by simp, 0, by simp, by simp only [cellAt, hclamp]⟩

lemma near_self_real (w : Weld ℝ) (hw : 0 ≤ w.tolerance) (p : Vec ℝ) : w.Near p p := by
  simp [Near, hw]

end SolidClash.Weld
