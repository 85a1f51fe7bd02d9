import SolidClash.Proofs.Mesh.Extent
import SolidClash.Proofs.Scalar.Sign
import SolidClash.Results

namespace SolidClash

open OrderedScalar

variable {α : Type} [Scalar α]

namespace Mesh

def IsFinite (m : Mesh α) : Prop :=
  ∀ t ∈ m.triangles, t.a.IsFinite ∧ t.b.IsFinite ∧ t.c.IsFinite

variable [OrderedScalar α] {m : Mesh α}

lemma IsFinite.bounds_inOrder (h : m.IsFinite) {b : Box α} (hb : m.bounds? = some b) :
    b.min.x ≤ b.max.x ∧ b.min.y ≤ b.max.y ∧ b.min.z ≤ b.max.z := by
  obtain ⟨t, ht⟩ : ∃ t, t ∈ m.triangles := by
    refine List.exists_mem_of_ne_nil _ fun hnil => ?_
    simp [bounds?, hnil, Box.unionAll?] at hb
  have hall : ∀ c ∈ m.triangles.map Triangle.bounds, c.IsNumeric :=
    List.forall_mem_map.mpr fun t ht => Triangle.bounds_numeric (h t ht).2.2.numeric
  obtain ⟨outer, houter, hfits⟩ := Box.unionAll_fits hall (List.mem_map_of_mem ht)
  obtain rfl := Option.some.inj (houter.symm.trans hb)
  obtain ⟨hx, hy, hz, hx', hy', hz'⟩ := hfits
  -- the last corner of the triangle lies between
  obtain ⟨cx, cy, cz⟩ := (h t ht).2.2.numeric
  exact ⟨trans_le hx (trans_le (Scalar.inf_le_second cx)
      (trans_le (Scalar.second_le_sup cx) hx')),
    trans_le hy (trans_le (Scalar.inf_le_second cy) (trans_le (Scalar.second_le_sup cy) hy')),
    trans_le hz (trans_le (Scalar.inf_le_second cz) (trans_le (Scalar.second_le_sup cz) hz'))⟩

end Mesh

namespace ClashVolume

def IsFinite (v : ClashVolume α) : Prop :=
  Scalar.isFinite v.volume ∧ Scalar.isFinite v.width ∧ Scalar.isFinite v.height

lemma ofSolid_nonneg {m : Mesh Float} (hm : m.IsFinite) (hv : (ofSolid m).IsFinite) :
    0 ≤ (ofSolid m).volume ∧ 0 ≤ (ofSolid m).width ∧ 0 ≤ (ofSolid m).height := by
  obtain ⟨hvolume, hwidth, hheight⟩ := hv
  have hzero : (0 : Float) ≤ (Zero.zero : Float) := by decide +kernel
  rw [ofSolid] at hvolume hwidth hheight ⊢
  cases hb : m.bounds? with
  | none =>
    rw [Mesh.volume, hb]
    exact ⟨hzero, hzero, hzero⟩
  | some b =>
    obtain ⟨hx, hy, hz⟩ := hm.bounds_inOrder hb
    rw [hb] at hvolume hwidth hheight
    dsimp only at hvolume hwidth hheight ⊢
    refine ⟨?_, ?_, Scalar.difference_nonneg hz hheight⟩
    · rw [Mesh.volume, hb] at hvolume ⊢
      exact Scalar.magnitude_nonneg (finite_number hvolume)
    · revert hwidth
      rw [Scalar.maxNum]
      split_ifs <;> intro hwidth
      · exact Scalar.difference_nonneg hx hwidth
      · exact Scalar.difference_nonneg hy hwidth
      · exact Scalar.difference_nonneg hx hwidth

end ClashVolume

end SolidClash
