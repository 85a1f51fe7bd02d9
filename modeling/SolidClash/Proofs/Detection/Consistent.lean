import Mathlib.Algebra.BigOperators.Ring.Finset
import SolidClash.Proofs.Detection.Volumes

namespace SolidClash

namespace Adjacency

variable (g : Adjacency) (a b : UInt64)

def total : ℕ := (g.toList.map fun p => p.2.size).sum

lemma total_eq_sum : g.total = ∑ x ∈ g.keys.toFinset, (others g x).size := by
  have hsizes : g.toList.map (fun p => p.2.size) = g.keys.map fun x => (others g x).size := by
    rw [← Std.ExtTreeMap.map_fst_toList_eq_keys, List.map_map]
    apply List.map_congr_left
    intro p hp
    have hget := Std.ExtTreeMap.mem_toList_iff_getElem?_eq_some.mp hp
    simp [others, Std.ExtTreeMap.getD_eq_getD_getElem?, hget]
  rw [total, hsizes, List.sum_toFinset _ Std.ExtTreeMap.nodup_keys]

lemma others_of_not_mem {x : UInt64} (h : x ∉ g) : others g x = ∅ :=
  Std.ExtTreeMap.getD_eq_fallback h

lemma others_add_self : others (add g a b) a = (others g a).insert b := by
  simp [others, add]

lemma others_add_of_ne {x : UInt64} (h : x ≠ a) : others (add g a b) x = others g x := by
  simp [others, add, Std.ExtTreeMap.getD_insert, h.symm]

lemma total_add : (add g a b).total = g.total + if (others g a).contains b then 0 else 1 := by
  have hkeys : (add g a b).keys.toFinset = insert a g.keys.toFinset := by
    ext x
    rw [List.mem_toFinset, Std.ExtTreeMap.mem_keys, add, Std.ExtTreeMap.mem_insert,
      Std.LawfulEqCmp.compare_eq_iff_eq, Finset.mem_insert, List.mem_toFinset,
      Std.ExtTreeMap.mem_keys, eq_comm]
  have hold : g.total = ∑ x ∈ insert a g.keys.toFinset, (others g x).size := by
    rw [total_eq_sum]
    refine Finset.sum_subset (Finset.subset_insert _ _) fun x _ hx => ?_
    rw [others_of_not_mem g (by simpa using hx), Std.ExtTreeSet.size_empty]
  have hrest : ∑ x ∈ (insert a g.keys.toFinset).erase a, (others (add g a b) x).size =
      ∑ x ∈ (insert a g.keys.toFinset).erase a, (others g x).size := by
    refine Finset.sum_congr rfl fun x hx => ?_
    rw [others_add_of_ne g a b (Finset.ne_of_mem_erase hx)]
  rw [hold, total_eq_sum, hkeys, ← Finset.add_sum_erase _ _ (Finset.mem_insert_self _ _), hrest,
    ← Finset.add_sum_erase _ _ (Finset.mem_insert_self a g.keys.toFinset), others_add_self,
    Std.ExtTreeSet.size_insert]
  split <;> omega

def Filled : Prop := ∀ x ∈ g, others g x ≠ ∅

variable {g} in
lemma Filled.add (h : g.Filled) : (add g a b).Filled := by
  intro x hx
  by_cases hxa : x = a
  · rw [hxa, others_add_self]
    exact Std.ExtTreeSet.insert_ne_empty
  · rw [Adjacency.add, Std.ExtTreeMap.mem_insert, Std.LawfulEqCmp.compare_eq_iff_eq] at hx
    rw [others_add_of_ne g a b hxa]
    exact h x (hx.resolve_left (Ne.symm hxa))

end Adjacency

namespace Results

variable {α : Type} {r : Results α} {a b : UInt64}

structure Consistent (r : Results α) : Prop where
  irrefl : ∀ x, x ∉ Adjacency.others r.left x
  within : r.selfCheck = true →
    r.right = ∅ ∧ ∀ x y, y ∈ Adjacency.others r.left x ↔ x ∈ Adjacency.others r.left y
  across : r.selfCheck = false →
    ∀ x y, y ∈ Adjacency.others r.left x ↔ x ∈ Adjacency.others r.right y
  left_filled : Adjacency.Filled r.left
  right_filled : Adjacency.Filled r.right
  total_left : Adjacency.total r.left = (if r.selfCheck then 2 else 1) * r.metrics.clashes
  volumes : ∀ k ∈ r.volumes, k.low ≤ k.high ∧
    (k.high ∈ Adjacency.others r.left k.low ∨ k.low ∈ Adjacency.others r.left k.high)

namespace Consistent

lemma total_addClash (h : r.Consistent) (hab : a ≠ b) :
    Adjacency.total (r.addClash a b).left =
      (if r.selfCheck then 2 else 1) * (r.addClash a b).metrics.clashes := by
  have hcount := h.total_left
  rw [addClash]
  cases hs : r.selfCheck with
  | false =>
    simp only [hs, Bool.false_eq_true, ↓reduceIte, one_mul] at hcount ⊢
    rw [Adjacency.total_add, hcount]
  | true =>
    -- the second direction is as new as the first
    have hback : (Adjacency.others (Adjacency.add r.left a b) b).contains a =
        (Adjacency.others r.left a).contains b := by
      rw [Adjacency.others_add_of_ne _ _ _ hab.symm, Bool.eq_iff_iff,
        ← Std.ExtTreeSet.mem_iff_contains, ← Std.ExtTreeSet.mem_iff_contains, (h.within hs).2]
    simp only [hs, ↓reduceIte] at hcount ⊢
    rw [Adjacency.total_add, Adjacency.total_add, hback, hcount]
    split <;> omega

lemma addClash (h : r.Consistent) (hab : a ≠ b) : (r.addClash a b).Consistent where
  irrefl x := by
    rw [r.mem_left_addClash]
    have := h.irrefl x
    grind
  within hs := by
    have hs : r.selfCheck = true := hs
    obtain ⟨hright, hsymm⟩ := h.within hs
    refine ⟨by simp [Results.addClash, hs, hright], fun x y => ?_⟩
    rw [r.mem_left_addClash, r.mem_left_addClash, hsymm x y]
    tauto
  across hs x y := by
    have hs : r.selfCheck = false := hs
    have hright : (r.addClash a b).right = Adjacency.add r.right b a := by
      simp [Results.addClash, hs]
    rw [r.mem_left_addClash, hright, Adjacency.mem_others_add, h.across hs x y, hs]
    tauto
  left_filled := by
    rw [Results.addClash]
    split
    · exact (h.left_filled.add _ _).add _ _
    · exact h.left_filled.add _ _
  right_filled := by
    rw [Results.addClash]
    split
    · exact h.right_filled
    · exact h.right_filled.add _ _
  total_left := h.total_addClash hab
  volumes k hk := by
    obtain ⟨hle, hmem⟩ := h.volumes k hk
    rw [r.mem_left_addClash, r.mem_left_addClash]
    exact ⟨hle, hmem.imp Or.inl Or.inl⟩

lemma setVolume (h : r.Consistent) (hab : b ∈ Adjacency.others r.left a) (v : ClashVolume α) :
    (r.setVolume a b v).Consistent :=
  { h with
    volumes := by
      intro k hk
      refine ⟨k.low_le_high, ?_⟩
      rcases Std.ExtTreeMap.mem_insert.mp hk with hk | hk
      · obtain rfl := Std.LawfulEqOrd.eq_of_compare hk
        rw [Pair.of]
        split
        · exact Or.inl hab
        · exact Or.inr hab
      · exact (h.volumes k hk).2 }

lemma enter {r : Results Float} (h : r.Consistent) {f : Finding} (hf : f.anchor ≠ f.other) :
    (r.enter f).Consistent := by
  have hclash := h.addClash hf
  rw [Results.enter]
  cases f.volume with
  | none => exact hclash
  | some v =>
    refine hclash.setVolume ?_ v
    rw [r.mem_left_addClash]
    exact Or.inr (Or.inl ⟨rfl, rfl⟩)

lemma foldl {r : Results Float} (h : r.Consistent) {fs : List Finding}
    (hfs : ∀ f ∈ fs, f.anchor ≠ f.other) : (fs.foldl Results.enter r).Consistent := by
  induction fs generalizing r with
  | nil => exact h
  | cons f fs ih =>
    rw [List.forall_mem_cons] at hfs
    exact ih (h.enter hfs.1) hfs.2

end Consistent

lemma volumes_foldl_of_none {r : Results Float} {fs : List Finding}
    (h : ∀ f ∈ fs, f.volume = none) : (fs.foldl enter r).volumes = r.volumes := by
  induction fs generalizing r with
  | nil => rfl
  | cons f fs ih =>
    rw [List.forall_mem_cons] at h
    rw [List.foldl_cons, ih h.2, r.volumes_enter, h.1]
    rfl

lemma selfCheck_foldl {r : Results Float} (fs : List Finding) :
    (fs.foldl enter r).selfCheck = r.selfCheck := by
  induction fs generalizing r with
  | nil => rfl
  | cons f fs ih =>
    rw [List.foldl_cons, ih, enter]
    cases f.volume <;> rfl

end Results

namespace Detection

variable {d : Detection} {signals : Signals} {o : Outcome}

lemma consistent_blank (d : Detection) : d.blank.Consistent := by
  constructor <;> simp [blank, Adjacency.others, Adjacency.total_eq_sum, Adjacency.Filled]

lemma selfCheck_run (h : d.run signals = .ok o) : o.results.selfCheck = d.isSelfCheck := by
  obtain ⟨_, rfl⟩ | ⟨_, tree, _, rfl⟩ := cases_of_ok h
  · rfl
  · have hledger := congrArg Results.selfCheck (ledger_foldl (s := d.setting)
      (Progress.taken d.setting signals (Step.schedule d.setting tree) d.start) d.start.tally)
    rw [← Progress.tally_run, Results.selfCheck_foldl] at hledger
    exact hledger

lemma ids_ne_of_mem_findings {f : Finding} (hf : f ∈ d.findings signals) :
    f.anchor ≠ f.other := by
  obtain ⟨e, he, hef⟩ := List.mem_filterMap.mp hf
  obtain ⟨hanchor, hother⟩ := Examination.of_finding hef
  have hworth := (List.mem_filter.mp he).2
  simp only [Examination.isWorth, Tally.isWorth, TypeFilter.admits, Bool.and_eq_true] at hworth
  rw [hanchor, hother]
  exact bne_iff_ne.mp hworth.1.2.1.1.1

lemma volume_eq_none_of_mem_findings (hv : d.rules.computeVolumes = false) {f : Finding}
    (hf : f ∈ d.findings signals) : f.volume = none := by
  obtain ⟨e, _, hef⟩ := List.mem_filterMap.mp hf
  have hv : d.setting.rules.computeVolumes = false := hv
  rw [Examination.finding?, Tally.finding?] at hef
  dsimp only at hef
  split at hef
  · split at hef
    · obtain rfl := Option.some.inj hef
      simp [hv]
    · simp at hef
  · simp at hef

/-- Whatever the models, the rules, the clock and the sink are, and wherever the run was cancelled:
what it returns is consistent, and has no volumes unless the rules ask for them. -/
theorem run_consistent (h : d.run signals = .ok o) :
    o.results.selfCheck = d.isSelfCheck ∧ o.results.Consistent ∧
      (d.rules.computeVolumes = false → o.results.volumes = ∅) := by
  obtain ⟨hleft, hright, hvolumes, hclashes⟩ := graph_run h
  have hself := selfCheck_run h
  have hne : ∀ f ∈ d.findings signals, f.anchor ≠ f.other := fun f => ids_ne_of_mem_findings
  have hfold := (consistent_blank d).foldl hne
  have hsame := Results.selfCheck_foldl (r := d.blank) (d.findings signals)
  refine ⟨hself, ?_, fun hv => ?_⟩
  · have hcheck := hself.trans hsame.symm
    constructor
    · rw [hleft]
      exact hfold.irrefl
    · rw [hleft, hright, hcheck]
      exact hfold.within
    · rw [hleft, hright, hcheck]
      exact hfold.across
    · rw [hleft]
      exact hfold.left_filled
    · rw [hright]
      exact hfold.right_filled
    · rw [hleft, hclashes, hcheck]
      exact hfold.total_left
    · rw [hleft, hvolumes]
      exact hfold.volumes
  · rw [hvolumes, Results.volumes_foldl_of_none fun f => volume_eq_none_of_mem_findings hv]
    rfl

lemma recorded_roses (hrun : (roses 1).run signals = .ok o) (hdone : o.results.state = .finished) :
    2 ∈ Adjacency.others o.results.left 1 ∨ 1 ∈ Adjacency.others o.results.left 2 := by
  obtain ⟨s, t, hitems⟩ := items_roses_first 1
  have horder := (roses 1).order_perm
  rw [entries, items_second_within rfl, List.append_nil, hitems, List.perm_pair] at horder
  have hpair {a c : Entry} (h : (roses 1).order = [a, c]) :
      (roses 1).setting.IsPair (roses 1).order a c := by
    rw [Setting.IsPair, if_pos (by rfl), h]
  have hlisted {a c : Entry} (h : ∃ e ∈ (roses 1).measured signals o.results, e.pair = (a, c)) :
      c.value.object.id ∈ Adjacency.others o.results.left a.value.object.id := by
    obtain ⟨e, he, hpe⟩ := h
    obtain ⟨rfl, rfl⟩ := Prod.mk.inj hpe
    have hmem := (List.mem_filter.mp he).2
    rw [Bool.and_eq_true, ← Std.ExtTreeSet.mem_iff_contains] at hmem
    exact hmem.1
  rcases horder with h | h
  · obtain ⟨e, he, hpe, _⟩ := measured_leaf_thorn hrun hdone (hpair h)
    exact Or.inl (hlisted ⟨e, he, hpe⟩)
  · obtain ⟨e, he, hpe, _⟩ := measured_thorn_leaf hrun hdone (hpair h)
    exact Or.inr (hlisted ⟨e, he, hpe⟩)

theorem run_consistent_rose : ∃ o, (roses 1).run (.constant false) = .ok o ∧
    o.results.selfCheck = true ∧ o.results.Consistent ∧
      2 ∈ Adjacency.others o.results.left 1 ∧ 1 ∈ Adjacency.others o.results.left 2 := by
  obtain ⟨o, hrun, hdone⟩ := exists_run_roses 1
  obtain ⟨hself, hcons, -⟩ := run_consistent hrun
  have hsymm := (hcons.within hself).2 1 2
  have hlisted : 2 ∈ Adjacency.others o.results.left 1 :=
    (recorded_roses hrun hdone).elim id hsymm.mpr
  exact ⟨o, hrun, hself, hcons, hlisted, hsymm.mp hlisted⟩

end Detection

end SolidClash
