import SolidClash.Mesh.Decode
import SolidClash.Proofs.Box
import SolidClash.Proofs.Scalar.Binary64

namespace SolidClash

variable {α : Type} [Scalar α]

namespace Mesh

def IsNumeric (m : Mesh α) : Prop := ∀ t ∈ m.triangles, t.bounds.IsNumeric

instance (m : Mesh α) : Decidable m.IsNumeric :=
  inferInstanceAs (Decidable (∀ t ∈ m.triangles, t.bounds.IsNumeric))

lemma corner?_eq_some {points : Array (Vec α)} {i : UInt32} {p : Vec α} :
    corner? points i = some p ↔ points[i.toNat]? = some p ∧ p.IsFinite := by
  simp [corner?, Option.filter_eq_some_iff]

def HasCorners (points : Array (Vec α)) (f : Face α) : Prop :=
  corner? points f.corners.1 = some f.triangle.a ∧
    corner? points f.corners.2.1 = some f.triangle.b ∧
      corner? points f.corners.2.2 = some f.triangle.c

lemma face?_eq_some {points : Array (Vec α)} {t : Option (UInt32 × UInt32 × UInt32)}
    {f : Face α} : face? points t = some f ↔ t = some f.corners ∧ HasCorners points f := by
  constructor
  · intro h
    simp only [face?] at h
    split at h
    · cases h
    · split at h
      · rename_i ha hb hc
        obtain rfl := Option.some.inj h
        exact ⟨rfl, ha, hb, hc⟩
      · cases h
  · rintro ⟨rfl, ha, hb, hc⟩
    simp only [face?, ha, hb, hc]

end Mesh

variable [OrderedScalar α]

lemma Triangle.bounds_numeric {t : Triangle α} (hc : t.c.IsNumeric) : t.bounds.IsNumeric :=
  ⟨hc.inf, hc.sup⟩

namespace Mesh

lemma IsNumeric.bounds_fits {m : Mesh Float} (h : m.IsNumeric) {t : Triangle Float}
    (ht : t ∈ m.triangles) : m.bounds.Fits t.bounds := by
  have hall : ∀ b ∈ m.triangles.map Triangle.bounds, b.IsNumeric := List.forall_mem_map.mpr h
  obtain ⟨outer, hm, hf⟩ := Box.unionAll_fits hall (List.mem_map_of_mem ht)
  rwa [Mesh.bounds, bounds?, hm]

end Mesh

end SolidClash
