import SolidClash.Proofs.Detection.Lockstep
import SolidClash.Proofs.Detection.Volumes
import SolidClash.Proofs.Mesh.Measure

namespace SolidClash

open OrderedScalar

namespace Rules

variable {r r' : Rules}

/-- The rules keep clashes that are as small, and have no solid of a larger mesh. -/
structure Laxer (r r' : Rules) : Prop where
  volume : r.minClashVolume ≤ r'.minClashVolume
  horizontal : r.minClashHorizontal ≤ r'.minClashHorizontal
  vertical : r.minClashVertical ≤ r'.minClashVertical
  threshold : r.volumeTriangleThreshold ≤ r'.volumeTriangleThreshold

lemma Laxer.accepts (h : r.Laxer r') {volume width height : Float}
    (ha : r'.accepts volume width height = true) : r.accepts volume width height = true := by
  simp only [Rules.accepts, Bool.and_eq_true, decide_eq_true_eq] at ha ⊢
  obtain ⟨⟨hv, hw⟩, hh⟩ := ha
  exact ⟨⟨trans_le h.volume hv, trans_le h.horizontal hw⟩, trans_le h.vertical hh⟩

lemma laxer_of_switch (h : r.fault? = none) (compute : Bool) :
    r.Laxer { r with computeVolumes := compute } ∧
      Laxer { r with computeVolumes := compute } r := by
  have hrefl (p : String × Float) (hp : p ∈ r.tolerances) : p.2 ≤ p.2 :=
    finite_number (isTolerance_of_fault? h hp).1
  have hv : r.minClashVolume ≤ r.minClashVolume :=
    hrefl ("minClashVolume", _) (by simp [tolerances])
  have hh : r.minClashHorizontal ≤ r.minClashHorizontal :=
    hrefl ("minClashHorizontal", _) (by simp [tolerances])
  have hw : r.minClashVertical ≤ r.minClashVertical :=
    hrefl ("minClashVertical", _) (by simp [tolerances])
  exact ⟨⟨hv, hh, hw, le_rfl⟩, ⟨hv, hh, hw, le_rfl⟩⟩

lemma le_zero_of_not_needsVolume (h : r.fault? = none) (hn : r.needsVolume = false) :
    r.minClashVolume ≤ 0 ∧ r.minClashHorizontal ≤ 0 ∧ r.minClashVertical ≤ 0 := by
  have hle {x : Float} (hx : IsTolerance x) (h0 : ¬ 0 < x) : x ≤ 0 :=
    le_of_not_lt (finite_number hx.1) (by decide +kernel) h0
  simp only [needsVolume, Bool.or_eq_false_iff, decide_eq_false_iff_not] at hn
  obtain ⟨⟨⟨-, hv⟩, hh⟩, hw⟩ := hn
  exact ⟨hle (isTolerance_of_fault? h (p := ("minClashVolume", _)) (by simp [tolerances])) hv,
    hle (isTolerance_of_fault? h (p := ("minClashHorizontal", _)) (by simp [tolerances])) hh,
    hle (isTolerance_of_fault? h (p := ("minClashVertical", _)) (by simp [tolerances])) hw⟩

end Rules

namespace Detection

def Solver.IsFinite (solve : Solver) : Prop :=
  ∀ n a b solid, solve n a b = .ok solid → solid.IsFinite ∧ (ClashVolume.ofSolid solid).IsFinite

lemma keeps_of_laxer {s : Setting} {r' : Rules} (hsolver : s.solver.IsFinite)
    (hr' : r'.fault? = none) (h : s.rules.Laxer r') {a b : Decoded}
    (hk : ({ s with rules := r' } : Setting).keeps a b = true) : s.keeps a b = true := by
  rw [Setting.keeps] at hk ⊢
  cases hw : Tally.wantsVolume s a b with
  | false => rfl
  | true =>
    cases hsolid : s.solver 0 a.mesh b.mesh with
    | error e => rfl
    | ok solid =>
      rw [hsolid] at hk
      simp only [Bool.not_true, Bool.false_or]
      cases hn : r'.needsVolume with
      | true =>
        have hw' : Tally.wantsVolume { s with rules := r' } a b = true := by
          simp only [Tally.wantsVolume, Bool.and_eq_true, decide_eq_true_eq, hn] at hw ⊢
          obtain ⟨⟨⟨⟨-, ha⟩, hb⟩, hla⟩, hlb⟩ := hw
          exact ⟨⟨⟨⟨trivial, ha⟩, hb⟩, hla.trans h.threshold⟩, hlb.trans h.threshold⟩
        rw [hw'] at hk
        exact h.accepts hk
      | false =>
        obtain ⟨hvolume, hwidth, hheight⟩ := Rules.le_zero_of_not_needsVolume hr' hn
        obtain ⟨hfinite, hmeasures⟩ := hsolver _ _ _ _ hsolid
        obtain ⟨hv, hw, hh⟩ := ClashVolume.ofSolid_nonneg hfinite hmeasures
        simp only [Rules.accepts, Bool.and_eq_true, decide_eq_true_eq]
        exact ⟨⟨trans_le h.volume (trans_le hvolume hv),
          trans_le h.horizontal (trans_le hwidth hw)⟩,
          trans_le h.vertical (trans_le hheight hh)⟩

def Covers (g g' : Links) : Prop :=
  ∀ x y, (y ∈ Adjacency.others g'.1 x → y ∈ Adjacency.others g.1 x) ∧
    (y ∈ Adjacency.others g'.2 x → y ∈ Adjacency.others g.2 x)

lemma mem_left_join (c : Bool) (a b x y : UInt64) (g : Links) :
    y ∈ Adjacency.others (join c a b g).1 x ↔
      (c = true ∧ x = b ∧ y = a) ∨ (x = a ∧ y = b) ∨ y ∈ Adjacency.others g.1 x := by
  cases c <;> simp [join, Adjacency.mem_others_add]

lemma mem_right_join (c : Bool) (a b x y : UInt64) (g : Links) :
    y ∈ Adjacency.others (join c a b g).2 x ↔
      (c = false ∧ x = b ∧ y = a) ∨ y ∈ Adjacency.others g.2 x := by
  cases c <;> simp [join, Adjacency.mem_others_add]

lemma Covers.join {g g' : Links} (h : Covers g g') (c : Bool) (a b : UInt64) :
    Covers (join c a b g) (join c a b g') := by
  intro x y
  rw [mem_left_join, mem_left_join, mem_right_join, mem_right_join]
  exact ⟨Or.imp_right (Or.imp_right (h x y).1), Or.imp_right (h x y).2⟩

lemma covers_join (c : Bool) (a b : UInt64) (g : Links) : Covers (join c a b g) g := by
  intro x y
  rw [mem_left_join, mem_right_join]
  exact ⟨fun h => Or.inr (Or.inr h), Or.inr⟩

lemma Covers.trans {g g' g'' : Links} (h : Covers g g') (h' : Covers g' g'') : Covers g g'' :=
  fun x y => ⟨(h x y).1 ∘ (h' x y).1, (h x y).2 ∘ (h' x y).2⟩

section Sizes

variable {s : Setting} {r' : Rules}

lemma keeps_covers (hsolver : s.solver.IsFinite) (hr' : r'.fault? = none)
    (h : s.rules.Laxer r') : Keeps s r' Covers := by
  intro c x y da db g g' hg
  cases hk' : ({ s with rules := r' } : Setting).keeps da db with
  | true =>
    rw [keeps_of_laxer hsolver hr' h hk']
    exact hg.join c x y
  | false =>
    cases s.keeps da db with
    | true => exact (covers_join c x y g).trans hg
    | false => exact hg

lemma keeps_eq_of_laxer (hsolver : s.solver.IsFinite) (hr : s.rules.fault? = none)
    (hr' : r'.fault? = none) (h : s.rules.Laxer r') (h' : r'.Laxer s.rules) :
    Keeps s r' Eq := by
  rintro c x y da db g _ rfl
  have hk : s.keeps da db = ({ s with rules := r' } : Setting).keeps da db :=
    Bool.eq_iff_iff.mpr
      ⟨keeps_of_laxer (s := { s with rules := r' }) hsolver hr h', keeps_of_laxer hsolver hr' h⟩
  rw [hk]

end Sizes

lemma fault_of_ok {d : Detection} {signals : Signals} {o : Outcome} (h : d.run signals = .ok o) :
    d.rules.fault? = none := by
  rw [run_eq] at h
  cases hr : d.rules.fault? with
  | none => rfl
  | some e => simp [hr] at h

/-- Two finished runs under rules that differ in sizes alone have the same counters, open meshes and
undecodable meshes, and differ at most in the clashes. Under the laxer sizes no clash is lost.
Whether solids are computed has no part in what clashes. -/
theorem run_monotone_in_sizes {d : Detection} {r' : Rules} (hagree : d.rules.AgreeBesideSizes r')
    (hpure : d.solver.IsPure) (hfinite : d.solver.IsFinite) {signals signals' : Signals}
    {o o' : Outcome} (hrun : d.run signals = .ok o)
    (hrun' : ({ d with rules := r' } : Detection).run signals' = .ok o')
    (hdone : o.results.state = .finished) (hdone' : o'.results.state = .finished) :
    o.results.AgreeBesideClashes o'.results ∧
      (d.rules.Laxer r' → ∀ x y,
        (y ∈ Adjacency.others o'.results.left x → y ∈ Adjacency.others o.results.left x) ∧
          (y ∈ Adjacency.others o'.results.right x → y ∈ Adjacency.others o.results.right x)) ∧
      (∀ compute, r' = { d.rules with computeVolumes := compute } →
        o'.results.left = o.results.left ∧ o'.results.right = o.results.right) := by
  have hr := fault_of_ok hrun
  have hr' := fault_of_ok hrun'
  have hlockstep {G : Links → Links → Prop} (hG : Keeps d.setting r' G)
      (hempty : G (∅, ∅) (∅, ∅)) :=
    finished_lockstep hagree hpure hG hempty hrun hrun' hdone hdone'
  have hany : Keeps d.setting r' fun _ _ => True := fun _ _ _ _ _ _ _ _ => trivial
  refine ⟨(hlockstep hany trivial).1, fun h => ?_, ?_⟩
  · exact (hlockstep (keeps_covers (s := d.setting) hfinite hr' h) fun _ _ => ⟨id, id⟩).2
  · rintro compute rfl
    obtain ⟨h, h'⟩ := Rules.laxer_of_switch hr compute
    have hlinks := (hlockstep (keeps_eq_of_laxer (s := d.setting) hfinite hr hr' h h') rfl).2
    obtain ⟨hleft, hright⟩ := Prod.mk.inj hlinks
    exact ⟨hleft.symm, hright.symm⟩

lemma exists_run_resized {d : Detection} {r' : Rules} (hagree : d.rules.AgreeBesideSizes r')
    (hr' : r'.fault? = none) (solve : Solver) {signals : Signals}
    (hnever : ∀ k, signals.cancelled k = false) {o : Outcome} (hrun : d.run signals = .ok o) :
    ∃ o', ({ d with rules := r', solver := solve } : Detection).run signals = .ok o' ∧
      o'.results.state = .finished := by
  let d' : Detection := { d with rules := r', solver := solve }
  obtain ⟨hb, -⟩ | ⟨hb, tree, ht, -⟩ := cases_of_ok hrun
  · refine ⟨d'.nothing, ?_, rfl⟩
    rw [run_eq]
    dsimp only
    rw [hr']
    exact if_pos hb
  · have ht' : d'.tree? d'.bounds = .ok tree := (tree_resized hagree _).trans ht
    refine ⟨_, run_ok (d := d') hr' hb ht' signals, ?_⟩
    simp [conclude, Progress.not_cancelled_run hnever d'.setting _ (p := d'.start) rfl]

def leafy (r : Rules) : Detection :=
  { roses 1 with rules := r, solver := fun _ _ _ => .ok leafMesh }

def wideRules : Rules := { roseRules with minClashHorizontal := 1.0 }

lemma isFinite_leafy (r : Rules) : (leafy r).solver.IsFinite := by
  intro n a b solid h
  obtain rfl := Except.ok.inj h
  refine ⟨?_, ?_⟩
  · rw [Mesh.IsFinite]
    decide +kernel
  · rw [ClashVolume.IsFinite]
    decide +kernel

lemma exists_run_leafy {r : Rules} (hagree : roseRules.AgreeBesideSizes r)
    (hr : r.fault? = none) :
    ∃ o, (leafy r).run (.constant false) = .ok o ∧ o.results.state = .finished := by
  obtain ⟨o, hrun, -⟩ := exists_run_roses 1
  exact exists_run_resized (d := roses 1) hagree hr _ (fun _ => rfl) hrun

lemma isCandidate_leafy {a c : Entry} (h : [a, c].Sublist (leafy wideRules).order)
    (hne : a.value.object.id ≠ c.value.object.id) (hac : a.bounds.Clashes c.bounds) :
    (leafy wideRules).setting.IsCandidate (leafy wideRules).order a c := by
  obtain ⟨hc, hi, ho⟩ := rules_resolved (leafy wideRules)
  exact ⟨h, admits_of_no_rules hc hi ho hne _ _, hac⟩

lemma clash_wide (s t : TypeId) :
    (leafy wideRules).setting.Clash (leafEntry .first s).value (thornEntry .first t).value ∧
      (leafy wideRules).setting.Clash (thornEntry .first t).value (leafEntry .first s).value := by
  have haccept {m n : Mesh Float} (v : ClashVolume Float)
      (hv : (leafy wideRules).setting.volume? m n = some v) :
      wideRules.accepts v.volume v.width v.height = true := by
    rw [Setting.volume?] at hv
    split at hv
    · obtain rfl := Option.some.inj hv
      decide +kernel
    · cases hv
  have hleaf : Tally.freshMesh? (leafy wideRules).setting (leafEntry .first s).value =
      some leafMesh := @freshMesh_leaf 1 .first s
  have hthorn : Tally.freshMesh? (leafy wideRules).setting (thornEntry .first t).value =
      some thornMesh := @freshMesh_thorn 1 .first t
  refine ⟨⟨_, _, hleaf, hthorn, ?_, haccept⟩, ⟨_, _, hthorn, hleaf, ?_, haccept⟩⟩
  · change leafMesh.clash thornMesh 1e-5 = true
    decide +kernel
  · change thornMesh.clash leafMesh 1e-5 = true
    decide +kernel

lemma mem_left_of_links {d : Detection} (hfirst : d.first.WellFormed) (hother : d.other.WellFormed)
    (hpure : d.solver.IsPure) {signals : Signals} {o : Outcome} (hrun : d.run signals = .ok o)
    (hdone : o.results.state = .finished) {a c : Entry} (hac : d.setting.IsCandidate d.order a c)
    {x y : UInt64} (h : d.setting.Links x y a.value c.value) :
    y ∈ Adjacency.others o.results.left x := by
  obtain ⟨hempty, rfl⟩ | ⟨_, tree, ht, rfl⟩ := cases_of_ok hrun
  · exact (not_isPair_of_isEmpty hother hempty hac.1).elim
  · have horder : d.order = orderOf tree := by simp [order, ht]
    rw [horder] at hac
    exact (mem_left_runIn hfirst hother hpure ht (not_cancelled_of_finished hdone) x y).mpr
      ⟨a, c, hac, h⟩

lemma linked_wide {signals : Signals} {o : Outcome}
    (hrun : (leafy wideRules).run signals = .ok o) (hdone : o.results.state = .finished) :
    2 ∈ Adjacency.others o.results.left 1 := by
  have hlisted {a c : Entry} (hac : (leafy wideRules).setting.IsCandidate _ a c)
      (h : (leafy wideRules).setting.Links 1 2 a.value c.value) :=
    mem_left_of_links (d := leafy wideRules) (wellFormed_rose 1) (wellFormed_rose 1)
      (fun _ _ _ _ => rfl) hrun hdone hac h
  have hperm := (leafy wideRules).order_perm
  obtain ⟨s, t, hitems⟩ := items_roses_first 1
  have hentries : (leafy wideRules).entries = [leafEntry .first s, thornEntry .first t] :=
    (List.append_nil _).trans hitems
  rw [hentries, List.perm_pair] at hperm
  obtain ⟨hlt, htl⟩ := clash_wide s t
  rcases hperm with h | h
  · exact hlisted (isCandidate_leafy (by rw [h]) (show (1 : UInt64) ≠ 2 by decide)
      clashes_leaf_thorn) ⟨hlt, Or.inl ⟨rfl, rfl⟩⟩
  · exact hlisted (isCandidate_leafy (by rw [h]) (show (2 : UInt64) ≠ 1 by decide)
      ((Box.clashes_comm _ _).mp clashes_leaf_thorn)) ⟨htl, Or.inr ⟨rfl, rfl, rfl⟩⟩

theorem run_monotone_in_sizes_leafy : ∃ o o' o'' : Outcome,
    (leafy roseRules).run (.constant false) = .ok o ∧ o.results.state = .finished ∧
      (leafy wideRules).run (.constant false) = .ok o' ∧ o'.results.state = .finished ∧
      (leafy { roseRules with computeVolumes := false }).run (.constant false) = .ok o'' ∧
      o''.results.state = .finished ∧ o.results.AgreeBesideClashes o'.results ∧
      2 ∈ Adjacency.others o'.results.left 1 ∧ 2 ∈ Adjacency.others o.results.left 1 ∧
      o''.results.left = o.results.left := by
  have hwide : roseRules.AgreeBesideSizes wideRules := ⟨true, 0.0, 1.0, 0.0, 5000, rfl⟩
  have hplain : roseRules.AgreeBesideSizes { roseRules with computeVolumes := false } :=
    ⟨false, 0.0, 0.0, 0.0, 5000, rfl⟩
  have hsame : roseRules.AgreeBesideSizes roseRules := ⟨true, 0.0, 0.0, 0.0, 5000, rfl⟩
  obtain ⟨o, hrun, hdone⟩ := exists_run_leafy hsame (fault?_eq_none (by decide +kernel) rfl)
  obtain ⟨o', hrun', hdone'⟩ := exists_run_leafy hwide (fault?_eq_none (by decide +kernel) rfl)
  obtain ⟨o'', hrun'', hdone''⟩ :=
    exists_run_leafy hplain (fault?_eq_none (by decide +kernel) rfl)
  have hpure : (leafy roseRules).solver.IsPure := fun _ _ _ _ => rfl
  obtain ⟨hagree, hcovers, -⟩ := run_monotone_in_sizes (d := leafy roseRules) hwide hpure
    (isFinite_leafy _) hrun hrun' hdone hdone'
  obtain ⟨-, -, hneutral⟩ := run_monotone_in_sizes (d := leafy roseRules) hplain hpure
    (isFinite_leafy _) hrun hrun'' hdone hdone''
  have hlax : roseRules.Laxer wideRules :=
    ⟨by decide +kernel, by decide +kernel, by decide +kernel, le_rfl⟩
  have hlinked : 2 ∈ Adjacency.others o'.results.left 1 := linked_wide hrun' hdone'
  exact ⟨o, o', o'', hrun, hdone, hrun', hdone', hrun'', hdone'', hagree, hlinked,
    (hcovers hlax 1 2).1 hlinked, (hneutral false rfl).1⟩

end Detection

end SolidClash
