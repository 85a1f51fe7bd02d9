import SolidClash.Mesh.Watertight
import SolidClash.Proofs.Mesh.Bounds
import SolidClash.Proofs.Mesh.Packed

namespace SolidClash

namespace Bytes

variable {bytes : List UInt8}

def element? (width : ℕ) (bytes : List UInt8) (k : ℕ) : Option (List UInt8) :=
  if width * k + width ≤ bytes.length then some ((bytes.drop (width * k)).take width) else none

def index? (bytes : List UInt8) (k : ℕ) : Option ℤ :=
  (element? 4 bytes k).map fun b => (value b : ℤ).bmod (2 ^ 32)

def number? (bytes : List UInt8) (k : ℕ) : Option Float :=
  (element? 8 bytes k).map fun b => Float.ofBits (UInt64.ofNat (value b))

lemma element?_zero {b : List UInt8} : element? b.length (b ++ bytes) 0 = some b := by
  simp [element?]

lemma element?_succ {b : List UInt8} {k : ℕ} :
    element? b.length (b ++ bytes) (k + 1) = element? b.length bytes k := by
  have hdrop : (b ++ bytes).drop (b.length * (k + 1)) = bytes.drop (b.length * k) := by
    rw [Nat.mul_succ, Nat.add_comm, List.drop_length_add_append]
  rw [element?, element?, hdrop, List.length_append]
  exact if_congr (by rw [Nat.mul_succ]; omega) rfl rfl

lemma element?_of_short {width k : ℕ} (h : bytes.length < width) :
    element? width bytes k = none :=
  if_neg (by omega)

lemma length_of_element? {width k : ℕ} {b : List UInt8} (h : element? width bytes k = some b) :
    b.length = width := by
  rw [element?] at h
  split at h
  · obtain rfl := Option.some.inj h
    rw [List.length_take, List.length_drop]
    omega
  · cases h

lemma value_lt (b : List UInt8) : value b < 256 ^ b.length := by
  induction b with
  | nil => decide
  | cons d b ih =>
    have hd := d.toNat_lt
    rw [value, List.length_cons, pow_succ]
    omega

lemma exists_append {width : ℕ} (h : ¬ bytes.length < width) :
    ∃ b rest, b.length = width ∧ bytes = b ++ rest :=
  ⟨bytes.take width, bytes.drop width, by simpa using h, (List.take_append_drop _ _).symm⟩

lemma getElem?_floats (bytes : List UInt8) (k : ℕ) : (floats bytes)[k]? = number? bytes k := by
  by_cases hshort : bytes.length < 8
  · have hnil : floats bytes = [] := by
      match bytes, hshort with
      | [], _ | [_], _ | [_, _], _ | [_, _, _], _ | [_, _, _, _], _ | [_, _, _, _, _], _
      | [_, _, _, _, _, _], _ | [_, _, _, _, _, _, _], _ => rfl
    rw [hnil, number?, element?_of_short hshort]
    rfl
  · obtain ⟨b, rest, hb, rfl⟩ := exists_append hshort
    have hcons : floats (b ++ rest) = Float.ofBits (UInt64.ofNat (value b)) :: floats rest := by
      match b, hb with
      | [_, _, _, _, _, _, _, _], _ => rfl
    rw [hcons, number?, ← hb]
    cases k with
    | zero => rw [element?_zero, List.getElem?_cons_zero, Option.map_some]
    | succ k => rw [element?_succ, List.getElem?_cons_succ, getElem?_floats rest k, number?, hb]
termination_by bytes.length
decreasing_by simp_all

lemma getElem?_words (torn : UInt32) (bytes : List UInt8) (k : ℕ) :
    (words torn bytes)[k]? = ((element? 4 bytes k).map fun b => UInt32.ofNat (value b)).or
      (if 4 * k < bytes.length then some torn else none) := by
  by_cases hshort : bytes.length < 4
  · rw [element?_of_short hshort]
    match bytes, hshort with
    | [], _ => simp [words]
    | [_], _ | [_, _], _ | [_, _, _], _ => cases k <;> simp [words] <;> omega
  · obtain ⟨b, rest, hb, rfl⟩ := exists_append hshort
    have hcons : words torn (b ++ rest) = UInt32.ofNat (value b) :: words torn rest := by
      match b, hb with
      | [_, _, _, _], _ => rfl
    rw [hcons, ← hb]
    cases k with
    | zero => rw [element?_zero, List.getElem?_cons_zero, Option.map_some, Option.some_or]
    | succ k =>
      rw [element?_succ, List.getElem?_cons_succ, getElem?_words torn rest k, hb]
      congr 1
      exact if_congr (by rw [List.length_append]; omega) rfl rfl
termination_by bytes.length
decreasing_by simp_all

lemma length_words (torn : UInt32) (bytes : List UInt8) :
    (words torn bytes).length = bytes.length ⌈/⌉ 4 := by
  refine eq_of_forall_ge_iff fun k => ?_
  rw [← List.getElem?_eq_none_iff, getElem?_words, ceilDiv_le_iff_le_mul (by decide)]
  simp [element?]
  omega

end Bytes

namespace Mesh

section Lists

variable {α : Type}

lemma getElem?_triples {is : List UInt32} {n : ℕ} {i j k : UInt32} :
    (triples is)[n]? = some (some (i, j, k)) ↔
      is[3 * n]? = some i ∧ is[3 * n + 1]? = some j ∧ is[3 * n + 2]? = some k := by
  match is, n with
  | [], n => simp [triples]
  | [_], 0 | [_, _], 0 => simp [triples]
  | [_], n + 1 | [_, _], n + 1 => simp [triples]
  | i :: j :: k :: rest, 0 => simp [triples]
  | i :: j :: k :: rest, n + 1 =>
    rw [triples, List.getElem?_cons_succ, getElem?_triples]
    rfl

lemma length_triples (is : List UInt32) : (triples is).length = is.length ⌈/⌉ 3 := by
  rw [Nat.ceilDiv_eq_add_pred_div]
  match is with
  | [] | [_] | [_, _] => simp [triples]
  | i :: j :: k :: rest =>
    rw [triples, List.length_cons, length_triples rest, Nat.ceilDiv_eq_add_pred_div]
    simp only [List.length_cons]
    omega

def point? (coordinate? : ℕ → Option α) (i : ℕ) : Option (Vec α) := do
  return ⟨← coordinate? (3 * i), ← coordinate? (3 * i + 1), ← coordinate? (3 * i + 2)⟩

lemma getElem?_pointsOf (xs : List α) (i : ℕ) :
    (pointsOf xs)[i]? = point? (fun k => xs[k]?) i := by
  match xs, i with
  | [], i => simp [pointsOf, point?]
  | [_], 0 | [_, _], 0 => simp [pointsOf, point?]
  | [_], i + 1 | [_, _], i + 1 => simp [pointsOf, point?]
  | x :: y :: z :: rest, 0 => simp [pointsOf, point?]
  | x :: y :: z :: rest, i + 1 =>
    rw [pointsOf, List.getElem?_cons_succ, getElem?_pointsOf]
    rfl

lemma exists_positions (l : List (Option α)) : ∃ ns : List ℕ, ns.Pairwise (· < ·) ∧
    List.Forall₂ (fun n x => l[n]? = some (some x)) ns (l.filterMap id) ∧
      ∀ n x, l[n]? = some (some x) → n ∈ ns := by
  induction l with
  | nil => exact ⟨[], .nil, .nil, by simp⟩
  | cons a l ih =>
    obtain ⟨ns, hsorted, hkept, hall⟩ := ih
    have hsorted' : (ns.map Nat.succ).Pairwise (· < ·) :=
      List.pairwise_map.mpr (hsorted.imp Nat.succ_lt_succ)
    have hkept' : List.Forall₂ (fun n x => (a :: l)[n]? = some (some x)) (ns.map Nat.succ)
        (l.filterMap id) := List.forall₂_map_left_iff.mpr hkept
    cases a with
    | none =>
      refine ⟨ns.map Nat.succ, hsorted', hkept', fun n x hx => ?_⟩
      cases n with
      | zero => simp at hx
      | succ n => exact List.mem_map_of_mem (hall n x hx)
    | some y =>
      refine ⟨0 :: ns.map Nat.succ, .cons (by simp) hsorted', .cons rfl hkept', fun n x hx => ?_⟩
      cases n with
      | zero => exact List.mem_cons_self
      | succ n => exact List.mem_cons_of_mem _ (List.mem_map_of_mem (hall n x hx))

lemma length_kept_add_dropped (l : List (Option α)) :
    (l.filterMap id).length + l.countP Option.isNone = l.length := by
  have hdropped : Option.isNone = fun a : Option α => decide ¬ (id a).isSome := by
    funext a
    cases a <;> rfl
  rw [List.length_filterMap_eq_countP, hdropped, ← List.length_eq_countP_add_countP]

end Lists

section Buffers

variable (indices coordinates : List UInt8) (place : Option (Placement Float)) (scale : Float)

def vertex? (i : ℕ) : Option (Vec Float) :=
  (point? (Bytes.number? coordinates) i).map fun p => (place.elim p (·.apply p)).scale scale

structure IsCorner (k : ℕ) (i : UInt32) (p : Vec Float) : Prop where
  index : Bytes.index? indices k = some (i.toNat : ℤ)
  vertex : vertex? coordinates place scale i.toNat = some p
  finite : p.IsFinite

structure Spells (n : ℕ) (f : Face Float) : Prop where
  a : IsCorner indices coordinates place scale (3 * n) f.corners.1 f.triangle.a
  b : IsCorner indices coordinates place scale (3 * n + 1) f.corners.2.1 f.triangle.b
  c : IsCorner indices coordinates place scale (3 * n + 2) f.corners.2.2 f.triangle.c

structure Accounts (m : Mesh Float) : Prop where
  points : ∀ i, m.points[i]? = vertex? coordinates place scale i
  counted : m.faces.length + m.undecodable = indices.length ⌈/⌉ 4 ⌈/⌉ 3
  kept : ∃ ns : List ℕ, ns.Pairwise (· < ·) ∧
    List.Forall₂ (Spells indices coordinates place scale) ns m.faces ∧
      ∀ n f, Spells indices coordinates place scale n f → n ∈ ns
  inRange : ∀ i ∈ m.indices, i.toNat < m.points.size
  holds : ∀ t ∈ m.triangles, ∀ p ∈ t.corners, m.bounds.Fits (.ofPoint p)
  least : ∀ b : Box Float, b.IsNumeric →
    (∀ t ∈ m.triangles, ∀ p ∈ t.corners, b.Fits (.ofPoint p)) → b.Fits m.bounds
  empty : m.bounds.IsEmpty ↔ m.IsEmpty
  closed : m.closedness = .closed → m.undecodable = 0

variable {indices coordinates place scale}

lemma getElem?_points (i : ℕ) :
    (ofBytes indices coordinates place scale).points[i]? = vertex? coordinates place scale i := by
  simp only [ofBytes, ofBuffers, List.getElem?_toArray, List.getElem?_map, getElem?_pointsOf,
    Bytes.getElem?_floats, vertex?]

lemma size_points :
    (ofBytes indices coordinates place scale).points.size = coordinates.length / 24 := by
  have hlength : (Bytes.floats coordinates).length = coordinates.length / 8 := by
    refine eq_of_forall_ge_iff fun k => ?_
    rw [← List.getElem?_eq_none_iff, Bytes.getElem?_floats]
    simp [Bytes.number?, Bytes.element?]
    omega
  simp [ofBytes, ofBuffers, length_pointsOf, hlength, Nat.div_div_eq_div_mul]

lemma signedIndex_eq_iff {w i : UInt32} :
    signedIndex w = i ∧ i ≠ noPoint ↔ (w.toNat : ℤ).bmod (2 ^ 32) = i.toNat := by
  have hw := w.toNat_lt
  have hmax : noPoint.toNat = 2 ^ 32 - 1 := by decide
  rw [signedIndex, Int.bmod_eq_emod, Int.emod_eq_of_lt (by omega) (by omega)]
  split
  · rename_i hlow
    rw [UInt32.lt_iff_toNat_lt] at hlow
    change w.toNat < 2 ^ 31 at hlow
    rw [if_neg (by omega), ← UInt32.toNat_inj, ne_eq, ← UInt32.toNat_inj, hmax]
    omega
  · rename_i hhigh
    rw [UInt32.lt_iff_toNat_lt] at hhigh
    change ¬ w.toNat < 2 ^ 31 at hhigh
    rw [if_pos (by omega)]
    constructor
    · exact fun h => (h.2 h.1.symm).elim
    · omega

lemma index?_eq_some_iff {k : ℕ} {i : UInt32} :
    Bytes.index? indices k = some (i.toNat : ℤ) ↔
      ((Bytes.words noPoint indices).map signedIndex)[k]? = some i ∧ i ≠ noPoint := by
  rw [List.getElem?_map, Bytes.getElem?_words, Bytes.index?]
  cases hk : Bytes.element? 4 indices k with
  | none =>
    have hnone : signedIndex noPoint = noPoint := by decide
    split <;> simp [hnone, eq_comm]
  | some b =>
    have hlt : Bytes.value b < 2 ^ 32 :=
      (Bytes.value_lt b).trans_eq (by rw [Bytes.length_of_element? hk]; rfl)
    simp only [Option.map_some, Option.some_or, Option.some.injEq]
    rw [signedIndex_eq_iff, UInt32.toNat_ofNat_of_lt' hlt]

lemma isCorner_iff (h : coordinates.length / 24 < 2 ^ 32 - 1) {k : ℕ} {i : UInt32}
    {p : Vec Float} :
    IsCorner indices coordinates place scale k i p ↔
      ((Bytes.words noPoint indices).map signedIndex)[k]? = some i ∧
        corner? (ofBytes indices coordinates place scale).points i = some p := by
  rw [corner?_eq_some]
  constructor
  · intro hc
    exact ⟨(index?_eq_some_iff.mp hc.index).1, (getElem?_points _).trans hc.vertex, hc.finite⟩
  · rintro ⟨hi, hp, hfinite⟩
    refine ⟨index?_eq_some_iff.mpr ⟨hi, ?_⟩, (getElem?_points _).symm.trans hp, hfinite⟩
    -- there are too few points for the number that stands for none
    rintro rfl
    have hlt := (Array.getElem?_eq_some_iff.mp hp).1
    rw [size_points] at hlt
    exact absurd (hlt.trans h) (by decide)

lemma getElem?_faces {points : Array (Vec Float)} {ts : List (Option (UInt32 × UInt32 × UInt32))}
    {n : ℕ} {f : Face Float} : (ts.map (face? points))[n]? = some (some f) ↔
      ts[n]? = some (some f.corners) ∧ HasCorners points f := by
  rw [List.getElem?_map, Option.map_eq_some_iff]
  simp only [face?_eq_some, and_left_comm, exists_eq_left]

lemma spells_iff (h : coordinates.length / 24 < 2 ^ 32 - 1) {n : ℕ} {f : Face Float} :
    Spells indices coordinates place scale n f ↔
      ((triples ((Bytes.words noPoint indices).map signedIndex)).map
        (face? (ofBytes indices coordinates place scale).points))[n]? = some (some f) := by
  rw [getElem?_faces, getElem?_triples]
  constructor
  · rintro ⟨ha, hb, hc⟩
    obtain ⟨hi, ha⟩ := (isCorner_iff h).mp ha
    obtain ⟨hj, hb⟩ := (isCorner_iff h).mp hb
    obtain ⟨hk, hc⟩ := (isCorner_iff h).mp hc
    exact ⟨⟨hi, hj, hk⟩, ha, hb, hc⟩
  · rintro ⟨⟨hi, hj, hk⟩, ha, hb, hc⟩
    exact ⟨(isCorner_iff h).mpr ⟨hi, ha⟩, (isCorner_iff h).mpr ⟨hj, hb⟩,
      (isCorner_iff h).mpr ⟨hk, hc⟩⟩

lemma ofBytes_counted :
    (ofBytes indices coordinates place scale).faces.length +
      (ofBytes indices coordinates place scale).undecodable = indices.length ⌈/⌉ 4 ⌈/⌉ 3 := by
  rw [ofBytes, ofBuffers, length_kept_add_dropped, List.length_map, length_triples,
    List.length_map, Bytes.length_words]

lemma ofBytes_kept (h : coordinates.length / 24 < 2 ^ 32 - 1) :
    ∃ ns : List ℕ, ns.Pairwise (· < ·) ∧
      List.Forall₂ (Spells indices coordinates place scale) ns
        (ofBytes indices coordinates place scale).faces ∧
      ∀ n f, Spells indices coordinates place scale n f → n ∈ ns := by
  obtain ⟨ns, hsorted, hkept, hall⟩ :=
    exists_positions ((triples ((Bytes.words noPoint indices).map signedIndex)).map
      (face? (ofBytes indices coordinates place scale).points))
  exact ⟨ns, hsorted, hkept.imp fun _ _ => (spells_iff h).mpr,
    fun n f hf => hall n f ((spells_iff h).mp hf)⟩

lemma ofBuffers_inRange (is : List UInt32) (xs : List Float) :
    ∀ i ∈ (ofBuffers is xs place scale).indices,
      i.toNat < (ofBuffers is xs place scale).points.size := by
  have hlt {i : UInt32} {p : Vec Float}
      (hp : corner? (ofBuffers is xs place scale).points i = some p) :
      i.toNat < (ofBuffers is xs place scale).points.size :=
    (Array.getElem?_eq_some_iff.mp (corner?_eq_some.mp hp).1).1
  intro i hi
  obtain ⟨f, hf, hi⟩ := List.mem_flatMap.mp hi
  obtain ⟨_, hmem, rfl⟩ := List.mem_filterMap.mp hf
  obtain ⟨t, _, ht⟩ := List.mem_map.mp hmem
  obtain ⟨-, ha, hb, hc⟩ := face?_eq_some.mp ht
  simp only [List.mem_cons, List.not_mem_nil, or_false] at hi
  rcases hi with rfl | rfl | rfl
  · exact hlt ha
  · exact hlt hb
  · exact hlt hc

lemma undecodable_of_closed {m : Mesh Float} (h : m.closedness = .closed) : m.undecodable = 0 := by
  rw [closedness] at h
  split at h
  · cases h
  · rename_i hnone
    exact Nat.eq_zero_of_not_pos hnone

theorem ofBytes_accounts (indices : List UInt8) {coordinates : List UInt8}
    (place : Option (Placement Float)) (scale : Float)
    (h : coordinates.length / 24 < 2 ^ 32 - 1) :
    Accounts indices coordinates place scale (ofBytes indices coordinates place scale) := by
  have hfinite := isFinite_ofBytes indices coordinates place scale
  exact
    { points := getElem?_points
      counted := ofBytes_counted
      kept := ofBytes_kept h
      inRange := ofBuffers_inRange _ _
      holds := fun _ ht => hfinite.bounds_fits_corner ht
      least := fun _ => fits_bounds
      empty := hfinite.bounds_isEmpty_iff
      closed := undecodable_of_closed }

def tornIndices : List UInt8 :=
  Bytes.ofWords [0, 1, 2, 0, 1, 3, 0, 0xffffffff, 2, 0, 1, 4, 2, 1, 0, 0] ++ [1, 0]

def tornVertices : List UInt8 :=
  Bytes.ofFloats [0, 0, 0, 1, 0, 0, 0, 1, 0, 1e308, 0, 0, 5, 5] ++ [0, 0, 0]

theorem ofBytes_accounts_torn :
    tornVertices.length / 24 < 2 ^ 32 - 1 ∧
      (ofBytes tornIndices tornVertices none 10).indices = [0, 1, 2, 2, 1, 0] ∧
      (ofBytes tornIndices tornVertices none 10).undecodable = 4 ∧
      tornIndices.length ⌈/⌉ 4 ⌈/⌉ 3 = 6 ∧
      Accounts tornIndices tornVertices none 10 (ofBytes tornIndices tornVertices none 10) := by
  have h : tornVertices.length / 24 < 2 ^ 32 - 1 := by decide
  exact ⟨h, by decide +kernel, by decide +kernel, by decide, ofBytes_accounts tornIndices none 10 h⟩

end Buffers

end Mesh

end SolidClash
