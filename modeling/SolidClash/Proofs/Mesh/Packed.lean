import Mathlib
import SolidClash.Model

namespace SolidClash

namespace Bytes

lemma words_ofWords (torn : UInt32) (ws : List UInt32) : words torn (ofWords ws) = ws := by
  induction ws with
  | nil => rfl
  | cons w ws ih =>
    change UInt32.ofNat (value (ofNat 4 w.toNat)) :: words torn (ofWords ws) = w :: ws
    rw [ih, value_ofNat 4 _ w.toNat_lt, UInt32.ofNat_toNat]

open Float.Model in
lemma ofBits_toBits (x : Float) : Float.ofBits x.toBits = x := by
  obtain ⟨⟨bits, hvalid⟩⟩ := x
  have hbits : UnpackedFloat.pack .binary64 (UnpackedFloat.unpack .binary64 bits.toBitVec) =
      bits.toBitVec := by
    rw [UnpackedFloat.pack_unpack]
    split
    · rename_i hnan
      obtain ⟨hexponent, hmantissa⟩ := of_decide_eq_true hnan
      exact (hvalid.eq_packedNaN hexponent hmantissa).symm
    · rfl
  change Float.ofModel (Float.Model.mk ⟨_⟩ _) = _
  simp only [Float.ofModel.injEq, Float.Model.mk.injEq]
  exact congrArg UInt64.ofBitVec hbits

lemma floats_ofFloats (xs : List Float) : floats (ofFloats xs) = xs := by
  induction xs with
  | nil => rfl
  | cons x xs ih =>
    change Float.ofBits (UInt64.ofNat (value (ofNat 8 x.toBits.toNat))) :: floats (ofFloats xs) =
      x :: xs
    rw [ih, value_ofNat 8 _ x.toBits.toNat_lt, UInt64.ofNat_toNat, ofBits_toBits]

lemma isEmpty_ofWords (ws : List UInt32) : (ofWords ws).isEmpty = true ↔ ws = [] := by
  cases ws <;> simp [ofWords, ofNat]

lemma isEmpty_ofFloats (xs : List Float) : (ofFloats xs).isEmpty = true ↔ xs = [] := by
  cases xs <;> simp [ofFloats, ofNat]

end Bytes

namespace Mesh

variable {points : Array (Vec Float)}

lemma length_pointsOf {α : Type} (xs : List α) : (pointsOf xs).length = xs.length / 3 := by
  match xs with
  | [] | [_] | [_, _] => simp [pointsOf]
  | x :: y :: z :: rest =>
    simp only [pointsOf, List.length_cons, length_pointsOf rest]
    omega

lemma triples_map (f : UInt32 → UInt32) (is : List UInt32) :
    triples (is.map f) = (triples is).map (Option.map fun (i, j, k) => (f i, f j, f k)) := by
  match is with
  | [] | [_] | [_, _] => rfl
  | i :: j :: k :: rest => simp [triples, triples_map f rest]

lemma signedIndex_eq_or (h : points.size < 2 ^ 31) (i : UInt32) :
    signedIndex i = i ∨ corner? points i = none ∧ corner? points (signedIndex i) = none := by
  have hnone {j : UInt32} (hj : 2 ^ 31 ≤ j.toNat) : corner? points j = none := by
    rw [corner?, Array.getElem?_eq_none (h.le.trans hj)]
    rfl
  rw [signedIndex]
  split
  · exact Or.inl rfl
  · rename_i hi
    refine Or.inr ⟨hnone ?_, hnone (by decide)⟩
    rwa [UInt32.lt_iff_toNat_lt, not_lt] at hi

lemma face?_signed (h : points.size < 2 ^ 31) (t : Option (UInt32 × UInt32 × UInt32)) :
    face? points (t.map fun (i, j, k) => (signedIndex i, signedIndex j, signedIndex k)) =
      face? points t := by
  rcases t with _ | ⟨i, j, k⟩
  · rfl
  simp only [Option.map_some, face?]
  -- a corner that is no point spoils the face on either side
  rcases signedIndex_eq_or h i with hi | ⟨hi, hi'⟩
  · rcases signedIndex_eq_or h j with hj | ⟨hj, hj'⟩
    · rcases signedIndex_eq_or h k with hk | ⟨hk, hk'⟩
      · rw [hi, hj, hk]
      · simp [hk, hk']
    · simp [hj, hj']
  · simp [hi, hi']

lemma ofBytes_packed (is : List UInt32) {xs : List Float} (place : Option (Placement Float))
    (scale : Float) (h : xs.length / 3 < 2 ^ 31) :
    ofBytes (Bytes.ofWords is) (Bytes.ofFloats xs) place scale = ofBuffers is xs place scale := by
  have hsize : ((pointsOf xs).map fun p =>
      (place.elim p (·.apply p)).scale scale).toArray.size < 2 ^ 31 := by
    simpa [length_pointsOf] using h
  have hfaces := funext (face?_signed hsize)
  rw [ofBytes, Bytes.words_ofWords, Bytes.floats_ofFloats, ofBuffers, ofBuffers, triples_map,
    List.map_map]
  simp only [Function.comp_def, hfaces]

end Mesh

namespace GeometryData

/-- Packed geometry has a mesh unless a buffer is empty, and it is the mesh over the buffers. -/
theorem mesh?_ofBuffers (id : UInt64) (is : List UInt32) (xs : List Float)
    (place : Option (Placement Float)) (scale : Float) (h : xs.length / 3 < 2 ^ 31) :
    ((ofBuffers id is xs).mesh? place scale = none ↔ is = [] ∨ xs = []) ∧
      (is ≠ [] → xs ≠ [] →
        (ofBuffers id is xs).mesh? place scale = some (Mesh.ofBuffers is xs place scale)) := by
  have hmesh : (ofBuffers id is xs).mesh? place scale =
      if is = [] ∨ xs = [] then none else some (Mesh.ofBuffers is xs place scale) := by
    simp only [mesh?, buffers?, ofBuffers, Bool.or_eq_true, Bytes.isEmpty_ofWords,
      Bytes.isEmpty_ofFloats]
    split
    · rfl
    · exact congrArg some (Mesh.ofBytes_packed is place scale h)
  rw [hmesh]
  refine ⟨by simp [or_iff_not_imp_left], fun his hxs => ?_⟩
  rw [if_neg (not_or.mpr ⟨his, hxs⟩)]

theorem mesh?_ofBuffers_ragged :
    let is : List UInt32 := [0, 1, 2, 0, 1, 0x80000001, 2]
    let xs : List Float := [0, 0, 0, 1, 0, 0, 0, 0 / 0, 0, 5]
    xs.length / 3 < 2 ^ 31 ∧
      (ofBuffers 7 is xs).mesh? none 1 = some (Mesh.ofBuffers is xs none 1) :=
  ⟨by decide, (mesh?_ofBuffers 7 _ _ none 1 (by decide)).2 (by simp) (by simp)⟩

end GeometryData

end SolidClash
