import SolidClash.Proofs.Mesh.Measure

namespace SolidClash

variable {α : Type} [Scalar α]

namespace Scalar

variable {a b c : α}

lemma le_inf (ha : c ≤ a) (hb : c ≤ b) : c ≤ inf a b := by
  rw [inf]
  split <;> assumption

lemma sup_le (ha : a ≤ c) (hb : b ≤ c) : sup a b ≤ c := by
  rw [sup]
  split <;> assumption

lemma isFinite_inf (ha : isFinite a = true) (hb : isFinite b = true) :
    isFinite (inf a b) = true := by
  rw [inf]
  split <;> assumption

lemma isFinite_sup (ha : isFinite a = true) (hb : isFinite b = true) :
    isFinite (sup a b) = true := by
  rw [sup]
  split <;> assumption

end Scalar

namespace Box

variable {a b c : Box α}

lemma fits_union (ha : c.Fits a) (hb : c.Fits b) : c.Fits (a.union b) := by
  obtain ⟨hx, hy, hz, hx', hy', hz'⟩ := ha
  obtain ⟨kx, ky, kz, kx', ky', kz'⟩ := hb
  exact ⟨Scalar.le_inf hx kx, Scalar.le_inf hy ky, Scalar.le_inf hz kz, Scalar.sup_le hx' kx',
    Scalar.sup_le hy' ky', Scalar.sup_le hz' kz'⟩

lemma IsFinite.union (ha : a.IsFinite) (hb : b.IsFinite) : (a.union b).IsFinite := by
  obtain ⟨⟨hx, hy, hz⟩, hx', hy', hz'⟩ := ha
  obtain ⟨⟨kx, ky, kz⟩, kx', ky', kz'⟩ := hb
  exact ⟨⟨Scalar.isFinite_inf hx kx, Scalar.isFinite_inf hy ky, Scalar.isFinite_inf hz kz⟩,
    Scalar.isFinite_sup hx' kx', Scalar.isFinite_sup hy' ky', Scalar.isFinite_sup hz' kz'⟩

lemma isFinite_ofPoint {p : Vec α} (h : p.IsFinite) : (ofPoint p).IsFinite := ⟨h, h⟩

lemma isNumeric_ofPoint {p : Vec α} (h : p.IsNumeric) : (ofPoint p).IsNumeric := ⟨h, h⟩

lemma IsNumeric.fits_union [OrderedScalar α] (ha : a.IsNumeric) (hb : b.IsNumeric) :
    (a.union b).Fits a ∧ (a.union b).Fits b :=
  ⟨union_fits_left ha hb, union_fits_right hb⟩

lemma unionAll_induction {P : Box α → Prop} (hunion : ∀ a b, P a → P b → P (a.union b))
    {bs : List (Box α)} (hbs : ∀ b ∈ bs, P b) {outer : Box α} (h : unionAll? bs = some outer) :
    P outer := by
  cases bs with
  | nil => cases h
  | cons b bs =>
    obtain rfl := Option.some.inj h
    have hb := hbs b List.mem_cons_self
    replace hbs := fun c hc => hbs c (List.mem_cons_of_mem _ hc)
    clear h
    induction bs generalizing b with
    | nil => exact hb
    | cons c bs ih =>
      exact ih (b.union c) (hunion b c hb (hbs c List.mem_cons_self))
        fun d hd => hbs d (List.mem_cons_of_mem _ hd)

end Box

namespace Triangle

variable {t : Triangle α}

lemma bounds_eq_union :
    t.bounds = ((Box.ofPoint t.a).union (.ofPoint t.b)).union (.ofPoint t.c) := rfl

lemma fits_bounds {b : Box α} (h : ∀ p ∈ t.corners, b.Fits (.ofPoint p)) : b.Fits t.bounds :=
  Box.fits_union (Box.fits_union (h t.a (by simp [corners])) (h t.b (by simp [corners])))
    (h t.c (by simp [corners]))

lemma bounds_isFinite (ha : t.a.IsFinite) (hb : t.b.IsFinite) (hc : t.c.IsFinite) :
    t.bounds.IsFinite := by
  rw [bounds_eq_union]
  exact ((Box.isFinite_ofPoint ha).union (Box.isFinite_ofPoint hb)).union (Box.isFinite_ofPoint hc)

lemma bounds_fits [OrderedScalar α] (ha : t.a.IsNumeric) (hb : t.b.IsNumeric)
    (hc : t.c.IsNumeric) : ∀ p ∈ t.corners, t.bounds.Fits (.ofPoint p) := by
  replace ha := Box.isNumeric_ofPoint ha
  replace hb := Box.isNumeric_ofPoint hb
  replace hc := Box.isNumeric_ofPoint hc
  have hab := ha.fits_union hb
  have habc := (Box.IsNumeric.union (a := .ofPoint t.a) hb).fits_union hc
  simp only [corners, bounds_eq_union, List.forall_mem_cons, List.not_mem_nil, false_imp_iff,
    implies_true, and_true]
  exact ⟨habc.1.trans hab.1, habc.1.trans hab.2, habc.2⟩

end Triangle

namespace Mesh

lemma isFinite_ofBuffers (indices : List UInt32) (coordinates : List α)
    (place : Option (Placement α)) (scale : α) :
    (ofBuffers indices coordinates place scale).IsFinite := by
  intro t ht
  simp only [triangles, ofBuffers, List.mem_map, List.mem_filterMap, id_eq, exists_eq_right] at ht
  obtain ⟨f, ⟨ijk, _, hf⟩, rfl⟩ := ht
  obtain ⟨-, ha, hb, hc⟩ := face?_eq_some.mp hf
  exact ⟨(corner?_eq_some.mp ha).2, (corner?_eq_some.mp hb).2, (corner?_eq_some.mp hc).2⟩

lemma isFinite_ofBytes (indices coordinates : List UInt8) (place : Option (Placement Float))
    (scale : Float) : (ofBytes indices coordinates place scale).IsFinite :=
  isFinite_ofBuffers _ _ _ _

variable {m : Mesh Float}

lemma bounds_of_isEmpty (h : m.IsEmpty) : m.bounds = Box.empty := by
  rw [IsEmpty] at h
  simp [bounds, bounds?, triangles, h, Box.unionAll?]

lemma bounds?_of_not_isEmpty (h : ¬ m.IsEmpty) : m.bounds? = some m.bounds := by
  rw [IsEmpty] at h
  obtain ⟨f, fs, hfs⟩ := List.exists_cons_of_ne_nil h
  simp [bounds, bounds?, triangles, hfs, Box.unionAll?]

lemma fits_bounds {b : Box Float} (hb : b.IsNumeric)
    (h : ∀ t ∈ m.triangles, ∀ p ∈ t.corners, b.Fits (.ofPoint p)) : b.Fits m.bounds := by
  by_cases hm : m.IsEmpty
  · obtain ⟨⟨hx, hy, hz⟩, hx', hy', hz'⟩ := hb
    rw [bounds_of_isEmpty hm]
    exact ⟨hx.between_infinities.2, hy.between_infinities.2, hz.between_infinities.2,
      hx'.between_infinities.1, hy'.between_infinities.1, hz'.between_infinities.1⟩
  · exact Box.unionAll_induction (fun _ _ => Box.fits_union)
      (List.forall_mem_map.mpr fun t ht => Triangle.fits_bounds (h t ht))
      (bounds?_of_not_isEmpty hm)

namespace IsFinite

variable (h : m.IsFinite)

include h

lemma numeric : m.IsNumeric := fun t ht => Triangle.bounds_numeric (h t ht).2.2.numeric

lemma bounds_isFinite (hm : ¬ m.IsEmpty) : m.bounds.IsFinite :=
  Box.unionAll_induction (fun _ _ => Box.IsFinite.union)
    (List.forall_mem_map.mpr fun t ht =>
      Triangle.bounds_isFinite (h t ht).1 (h t ht).2.1 (h t ht).2.2)
    (bounds?_of_not_isEmpty hm)

lemma bounds_isEmpty_iff : m.bounds.IsEmpty ↔ m.IsEmpty := by
  constructor
  · intro hempty
    by_contra hm
    obtain ⟨hx, hy, hz⟩ := h.bounds_inOrder (bounds?_of_not_isEmpty hm)
    rcases hempty with hlt | hlt | hlt
    · exact (OrderedScalar.lt_iff_le.mp hlt).2 hx
    · exact (OrderedScalar.lt_iff_le.mp hlt).2 hy
    · exact (OrderedScalar.lt_iff_le.mp hlt).2 hz
  · intro hm
    rw [bounds_of_isEmpty hm]
    decide +kernel

lemma bounds_fits_corner {t : Triangle Float} (ht : t ∈ m.triangles) :
    ∀ p ∈ t.corners, m.bounds.Fits (.ofPoint p) := fun p hp =>
  (h.numeric.bounds_fits ht).trans
    (Triangle.bounds_fits (h t ht).1.numeric (h t ht).2.1.numeric (h t ht).2.2.numeric p hp)

end IsFinite

end Mesh

end SolidClash
