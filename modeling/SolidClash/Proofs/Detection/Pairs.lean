import SolidClash.Proofs.Detection.Run
import SolidClash.Proofs.Octree.Query

namespace SolidClash.Detection

open Octree

variable {s : Setting} {b : Box Float} {depth : ℕ} {tree : Index} {es : List Entry}

lemma mem_entries {t : Index} (ht : t.Linked) {n : Spot Float Item} {e : Entry} :
    (n, e) ∈ t.entries ↔ t.spot? n.path = some n ∧ e ∈ n.entries := by
  simp only [Octree.entries, List.mem_flatMap, List.mem_map, Prod.mk.injEq, mem_spots ht]
  constructor
  · rintro ⟨m, hm, f, hf, rfl, rfl⟩
    exact ⟨hm, hf⟩
  · rintro ⟨hn, he⟩
    exact ⟨n, hn, e, he, rfl, rfl⟩

lemma mem_candidates (h : Grown b depth tree es) {n : Spot Float Item} {a c : Entry}
    (ha : (n, a) ∈ tree.entries) (hc : c.bounds.Clashes a.bounds) :
    c ∈ Step.candidates s tree n.path a ↔ c ∈ es ∧ s.isCandidate c.value = true := by
  obtain ⟨hn, han⟩ := (mem_entries h.linked).mp ha
  have hnode := spot_self.mp hn
  simp only [Step.candidates, List.mem_flatMap, List.mem_filter, h.mem_iff]
  constructor
  · rintro ⟨m, hm, hcm, hs⟩
    exact ⟨⟨m, spot_of_mem_walkUpDown h.linked hnode hm, hcm⟩, hs⟩
  · rintro ⟨⟨m, hm, hcm⟩, hs⟩
    exact ⟨m, h.mem_query hnode (Array.mem_toList_iff.mp han) hm hcm hc, hcm, hs⟩

lemma mem_pairsAfter {before : List UInt64} {anchors : List (Path × Entry)} {a c : Entry} :
    (a, c) ∈ pairsAfter s tree before anchors ↔
      ∃ done p rest, anchors = done ++ (p, a) :: rest ∧ c ∈ Step.candidates s tree p a ∧
        worth s ((done.map fun q => q.2.value.object.id).reverse ++ before) a c = true := by
  induction anchors generalizing before with
  | nil => simp [pairsAfter]
  | cons pe anchors ih =>
    obtain ⟨p, e⟩ := pe
    simp only [pairsAfter, List.mem_append, List.mem_map, List.mem_filter, Prod.mk.injEq, ih]
    constructor
    · rintro (⟨c, ⟨hc, hw⟩, rfl, rfl⟩ | ⟨done, q, rest, rfl, hc, hw⟩)
      · exact ⟨[], p, anchors, rfl, hc, hw⟩
      · exact ⟨(p, e) :: done, q, rest, rfl, hc, by simpa using hw⟩
    · rintro ⟨done, q, rest, hl, hc, hw⟩
      cases done with
      | nil =>
        simp only [List.nil_append, List.cons.injEq, Prod.mk.injEq] at hl
        obtain ⟨⟨rfl, rfl⟩, rfl⟩ := hl
        exact Or.inl ⟨c, ⟨hc, hw⟩, rfl, rfl⟩
      | cons d done =>
        simp only [List.cons_append, List.cons.injEq] at hl
        obtain ⟨rfl, rfl⟩ := hl
        exact Or.inr ⟨done, q, rest, rfl, hc, by simpa using hw⟩

lemma mem_anchors {p : Path} {a : Entry} :
    (p, a) ∈ Step.anchors s tree ↔
      ∃ n : Spot Float Item, n.path = p ∧ (n, a) ∈ tree.entries ∧ s.isAnchor a.value = true := by
  simp only [Step.anchors, List.mem_map, List.mem_filter, Prod.exists, Prod.mk.injEq]
  constructor
  · rintro ⟨n, e, ⟨he, hs⟩, rfl, rfl⟩
    exact ⟨n, rfl, he, hs⟩
  · rintro ⟨n, rfl, ha, hs⟩
    exact ⟨n, a, ⟨ha, hs⟩, rfl, rfl⟩

def orderOf (tree : Index) : List Entry := tree.entries.map Prod.snd

lemma mem_orderOf (h : Grown b depth tree es) {e : Entry} : e ∈ orderOf tree ↔ e ∈ es :=
  h.entries_perm.mem_iff

def Setting.IsPair (s : Setting) (entries : List Entry) (a c : Entry) : Prop :=
  if s.selfCheck then [a, c].Sublist entries
  else a ∈ entries ∧ c ∈ entries ∧ a.value.side = .first ∧ c.value.side = .second

def Setting.IsCandidate (s : Setting) (entries : List Entry) (a c : Entry) : Prop :=
  s.IsPair entries a c ∧
    s.filter.admits a.value.object.id a.value.type c.value.object.id c.value.type = true ∧
    a.bounds.Clashes c.bounds

lemma worth_iff {before : List UInt64} {a c : Entry} :
    worth s before a c = true ↔ (s.selfCheck = true → c.value.object.id ∉ before) ∧
      s.filter.admits a.value.object.id a.value.type c.value.object.id c.value.type = true ∧
      a.bounds.Clashes c.bounds := by
  simp [worth, and_assoc, imp_iff_not_or]

lemma mem_pairs_across (h : Grown b depth tree es) (hs : s.selfCheck = false) {a c : Entry} :
    (a, c) ∈ pairs s tree ↔ s.IsCandidate (orderOf tree) a c := by
  have hworth (before : List UInt64) : worth s before a c = true ↔
      s.filter.admits a.value.object.id a.value.type c.value.object.id c.value.type = true ∧
        a.bounds.Clashes c.bounds := by
    simp [worth_iff, hs]
  simp only [pairs, mem_pairsAfter, hworth, Setting.IsCandidate, Setting.IsPair, hs,
    Bool.false_eq_true, ↓reduceIte, mem_orderOf h]
  constructor
  · rintro ⟨done, p, rest, hl, hc, hadm, hcl⟩
    have hmem : (p, a) ∈ Step.anchors s tree := by simp [hl]
    obtain ⟨n, rfl, ha, hside⟩ := mem_anchors.mp hmem
    obtain ⟨hces, hcand⟩ := (mem_candidates h ha ((Box.clashes_comm _ _).mp hcl)).mp hc
    have hae : a ∈ es := h.mem_iff.mpr ⟨n, (mem_entries h.linked).mp ha⟩
    refine ⟨⟨hae, hces, ?_, ?_⟩, hadm, hcl⟩
    · simpa [Setting.isAnchor, hs] using hside
    · simpa [Setting.isCandidate, hs] using hcand
  · rintro ⟨⟨hae, hces, hside, hcand⟩, hadm, hcl⟩
    obtain ⟨n, hn, han⟩ := h.mem_iff.mp hae
    have ha := (mem_entries h.linked).mpr ⟨hn, han⟩
    have hmem : (n.path, a) ∈ Step.anchors s tree :=
      mem_anchors.mpr ⟨n, rfl, ha, by simp [Setting.isAnchor, hside]⟩
    obtain ⟨done, rest, hl⟩ := List.append_of_mem hmem
    refine ⟨done, n.path, rest, hl, ?_, hadm, hcl⟩
    refine (mem_candidates h ha ((Box.clashes_comm _ _).mp hcl)).mpr ⟨hces, ?_⟩
    simp [Setting.isCandidate, hcand]

lemma pair_sublist_iff {α : Type} {l : List α} {x y : α} :
    [x, y].Sublist l ↔ ∃ l₁ l₂, l = l₁ ++ x :: l₂ ∧ y ∈ l₂ := by
  constructor
  · intro h
    obtain ⟨r₁, r₂, rfl, hx, hy⟩ := List.cons_sublist_iff.mp h
    obtain ⟨l₁, l₂, rfl⟩ := List.append_of_mem hx
    exact ⟨l₁, l₂ ++ r₂, by simp, List.mem_append_right _ (List.singleton_sublist.mp hy)⟩
  · rintro ⟨l₁, l₂, rfl, hy⟩
    exact ((List.singleton_sublist.mpr hy).cons_cons x).trans (List.sublist_append_right _ _)

lemma mem_pairs_within (h : Grown b depth tree es) (hs : s.selfCheck = true)
    (hid : (es.map fun e => e.value.object.id).Nodup) {a c : Entry} :
    (a, c) ∈ pairs s tree ↔ s.IsCandidate (orderOf tree) a c := by
  have hids : ((orderOf tree).map fun e => e.value.object.id).Nodup :=
    (h.entries_perm.map _).nodup_iff.mpr hid
  have hsnd : (Step.anchors s tree).map Prod.snd = orderOf tree := by
    rw [Step.anchors, orderOf]
    rw [List.filter_eq_self.mpr (by simp [Setting.isAnchor, hs]), List.map_map]
    rfl
  simp only [pairs, mem_pairsAfter, worth_iff, Setting.IsCandidate, Setting.IsPair, hs,
    true_imp_iff, ↓reduceIte, List.append_nil, List.mem_reverse]
  constructor
  · rintro ⟨done, p, rest, hl, hc, hnew, hadm, hcl⟩
    have hmem : (p, a) ∈ Step.anchors s tree := by simp [hl]
    obtain ⟨n, rfl, ha, _⟩ := mem_anchors.mp hmem
    have hces := ((mem_candidates h ha ((Box.clashes_comm _ _).mp hcl)).mp hc).1
    have horder : orderOf tree = done.map Prod.snd ++ a :: rest.map Prod.snd := by
      rw [← hsnd, hl]
      simp
    have hcorder := (mem_orderOf h).mpr hces
    rw [horder, List.mem_append, List.mem_cons] at hcorder
    refine ⟨pair_sublist_iff.mpr ⟨_, _, horder, ?_⟩, hadm, hcl⟩
    rcases hcorder with hcd | rfl | hcr
    · obtain ⟨q, hq, rfl⟩ := List.mem_map.mp hcd
      exact (hnew (List.mem_map_of_mem hq)).elim
    · simp [TypeFilter.admits] at hadm
    · exact hcr
  · rintro ⟨hac, hadm, hcl⟩
    obtain ⟨l₁, l₂, horder, hc⟩ := pair_sublist_iff.mp hac
    obtain ⟨done, rest', hl, rfl, hrest'⟩ := List.map_eq_append_iff.mp (hsnd.trans horder)
    obtain ⟨⟨p, _⟩, rest, rfl, rfl, rfl⟩ := List.map_eq_cons_iff.mp hrest'
    have hmem := hl ▸ List.mem_append_right done List.mem_cons_self
    obtain ⟨n, rfl, ha, _⟩ := mem_anchors.mp hmem
    have hces : c ∈ es := (mem_orderOf h).mp (by rw [horder]; simp [hc])
    refine ⟨done, n.path, rest, hl, ?_, ?_, hadm, hcl⟩
    · refine (mem_candidates h ha ((Box.clashes_comm _ _).mp hcl)).mpr ⟨hces, ?_⟩
      simp [Setting.isCandidate, hs]
    · intro hold
      obtain ⟨q, hq, hqc⟩ := List.mem_map.mp hold
      rw [horder, List.map_append, List.nodup_append] at hids
      refine hids.2.2 _ ?_ _ ?_ hqc
      · exact List.mem_map_of_mem (List.mem_map_of_mem hq)
      · exact List.mem_map_of_mem (List.mem_cons_of_mem _ hc)

end SolidClash.Detection
