import SolidClash.Box
import SolidClash.Proofs.Scalar.Order

namespace SolidClash

open OrderedScalar

variable {α : Type} [Scalar α]

namespace Vec

def IsNumeric (v : Vec α) : Prop :=
  Scalar.IsNumber v.x ∧ Scalar.IsNumber v.y ∧ Scalar.IsNumber v.z

instance (v : Vec α) : Decidable v.IsNumeric := inferInstanceAs (Decidable (_ ∧ _))

end Vec

namespace Box

def IsNumeric (b : Box α) : Prop := b.min.IsNumeric ∧ b.max.IsNumeric

instance (b : Box α) : Decidable b.IsNumeric := inferInstanceAs (Decidable (_ ∧ _))

variable {a b : Box α}

lemma IsNumeric.fits_self (h : a.IsNumeric) : a.Fits a :=
  ⟨h.1.1, h.1.2.1, h.1.2.2, h.2.1, h.2.2.1, h.2.2.2⟩

lemma union_fits_right (hb : b.IsNumeric) : (a.union b).Fits b :=
  ⟨Scalar.inf_le_second hb.1.1, Scalar.inf_le_second hb.1.2.1, Scalar.inf_le_second hb.1.2.2,
    Scalar.second_le_sup hb.2.1, Scalar.second_le_sup hb.2.2.1, Scalar.second_le_sup hb.2.2.2⟩

end Box

variable [OrderedScalar α]

lemma Vec.IsFinite.numeric {v : Vec α} (h : v.IsFinite) : v.IsNumeric :=
  ⟨finite_number h.1, finite_number h.2.1, finite_number h.2.2⟩

lemma Vec.IsNumeric.inf {v w : Vec α} (hw : w.IsNumeric) : (v.inf w).IsNumeric :=
  ⟨left_number (Scalar.inf_le_second hw.1), left_number (Scalar.inf_le_second hw.2.1),
    left_number (Scalar.inf_le_second hw.2.2)⟩

lemma Vec.IsNumeric.sup {v w : Vec α} (hw : w.IsNumeric) : (v.sup w).IsNumeric :=
  ⟨right_number (Scalar.second_le_sup hw.1), right_number (Scalar.second_le_sup hw.2.1),
    right_number (Scalar.second_le_sup hw.2.2)⟩

namespace Box

variable {a b : Box α}

lemma Fits.trans {outer inner b : Box α} (h : outer.Fits inner) (h' : inner.Fits b) :
    outer.Fits b := by
  obtain ⟨hx, hy, hz, hx', hy', hz'⟩ := h
  obtain ⟨kx, ky, kz, kx', ky', kz'⟩ := h'
  exact ⟨trans_le hx kx, trans_le hy ky, trans_le hz kz, trans_le kx' hx', trans_le ky' hy',
    trans_le kz' hz'⟩

lemma clashes_of_fits {outer b c : Box α} (hf : outer.Fits b) (hc : b.Clashes c) :
    outer.Clashes c := by
  obtain ⟨hx, hy, hz, hx', hy', hz'⟩ := hf
  obtain ⟨cx, cx', cy, cy', cz, cz'⟩ := hc
  exact ⟨trans_lt_le cx hx', trans_le_lt hx cx', trans_lt_le cy hy', trans_le_lt hy cy',
    trans_lt_le cz hz', trans_le_lt hz cz'⟩

lemma overlaps_of_fits {outer b c : Box α} (hf : outer.Fits b) (hc : b.Overlaps c) :
    outer.Overlaps c := by
  obtain ⟨hx, hy, hz, hx', hy', hz'⟩ := hf
  obtain ⟨cx, cx', cy, cy', cz, cz'⟩ := hc
  exact ⟨trans_le cx hx', trans_le hx cx', trans_le cy hy', trans_le hy cy', trans_le cz hz',
    trans_le hz cz'⟩

lemma IsNumeric.union (hb : b.IsNumeric) : (a.union b).IsNumeric := ⟨hb.1.inf, hb.2.sup⟩

lemma union_fits_left (ha : a.IsNumeric) (hb : b.IsNumeric) : (a.union b).Fits a :=
  ⟨inf_le_first ha.1.1 hb.1.1, inf_le_first ha.1.2.1 hb.1.2.1, inf_le_first ha.1.2.2 hb.1.2.2,
    first_le_sup ha.2.1 hb.2.1, first_le_sup ha.2.2.1 hb.2.2.1, first_le_sup ha.2.2.2 hb.2.2.2⟩

lemma foldl_union_fits {bs : List (Box α)} (ha : a.IsNumeric) (hbs : ∀ b ∈ bs, b.IsNumeric) :
    ∀ b ∈ a :: bs, (bs.foldl Box.union a).Fits b := by
  induction bs generalizing a with
  | nil => simpa using ha.fits_self
  | cons c bs ih =>
    have hc := hbs c List.mem_cons_self
    have hall := ih (a := a.union c) hc.union fun b hb => hbs b (List.mem_cons_of_mem _ hb)
    have htop := hall _ List.mem_cons_self
    intro b hb
    rcases List.mem_cons.mp hb with rfl | hb
    · exact htop.trans (union_fits_left ha hc)
    · rcases List.mem_cons.mp hb with rfl | hb
      · exact htop.trans (union_fits_right hc)
      · exact hall b (List.mem_cons_of_mem _ hb)

lemma isNumeric_foldl_union {bs : List (Box α)} (ha : a.IsNumeric)
    (hbs : ∀ b ∈ bs, b.IsNumeric) : (bs.foldl Box.union a).IsNumeric := by
  induction bs generalizing a with
  | nil => exact ha
  | cons c bs ih => exact ih (hbs c List.mem_cons_self).union fun b hb => hbs b (.tail _ hb)

lemma unionAll_fits {bs : List (Box α)} (h : ∀ b ∈ bs, b.IsNumeric) (hb : b ∈ bs) :
    ∃ outer, unionAll? bs = some outer ∧ outer.Fits b := by
  cases bs with
  | nil => simp at hb
  | cons c bs =>
    exact ⟨_, rfl, foldl_union_fits (h c List.mem_cons_self)
      (fun b hb => h b (List.mem_cons_of_mem _ hb)) b hb⟩

structure IsProper (b : Box α) : Prop where
  x : Scalar.InOrder b.min.x b.max.x
  y : Scalar.InOrder b.min.y b.max.y
  z : Scalar.InOrder b.min.z b.max.z

lemma IsProper.not_isEmpty (h : b.IsProper) : ¬ b.IsEmpty := by
  rintro (hx | hy | hz)
  · exact h.x.not_lt hx
  · exact h.y.not_lt hy
  · exact h.z.not_lt hz

lemma IsProper.union (h : b.IsProper) (a : Box α) : (a.union b).IsProper :=
  ⟨h.x.outer _ _, h.y.outer _ _, h.z.outer _ _⟩

lemma isProper_scaled (b : Box α) (k : α) : (b.scaled k).IsProper :=
  ⟨(Scalar.InOrder.refl _).outer _ _, (Scalar.InOrder.refl _).outer _ _,
    (Scalar.InOrder.refl _).outer _ _⟩

lemma IsFinite.isProper (h : b.IsFinite) (he : ¬ b.IsEmpty) : b.IsProper := by
  obtain ⟨hl, hh⟩ := h
  have hl := hl.numeric
  have hh := hh.numeric
  simp only [IsEmpty, not_or] at he
  exact ⟨Or.inl (le_of_not_lt hl.1 hh.1 he.1), Or.inl (le_of_not_lt hl.2.1 hh.2.1 he.2.1),
    Or.inl (le_of_not_lt hl.2.2 hh.2.2 he.2.2)⟩

end Box

end SolidClash
