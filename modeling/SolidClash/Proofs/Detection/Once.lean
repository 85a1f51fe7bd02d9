import SolidClash.Proofs.Detection.Complete
import SolidClash.Proofs.Detection.Trace

namespace SolidClash.Detection

open Octree

variable {s : Setting} {b : Box Float} {depth : ℕ} {tree : Index} {es : List Entry}

lemma nodup_flatMap_of_subset {γ δ : Type} {l k : List γ} {g : γ → List δ} (hl : l.Nodup)
    (hs : l ⊆ k) (h : (k.flatMap g).Nodup) : (l.flatMap g).Nodup := by
  obtain ⟨m, hm, hsub⟩ := hl.subperm hs
  obtain ⟨r, hr⟩ := hsub.exists_perm_append
  have hall := (hr.flatMap_right g).nodup_iff.mp h
  rw [List.flatMap_append] at hall
  exact (hm.flatMap_right g).nodup_iff.mp hall.of_append_left

lemma orderOf_eq (tree : Index) : orderOf tree = tree.spots.flatMap Spot.entries := by
  simp [orderOf, Octree.entries, List.map_flatMap, Function.comp_def]

lemma nodup_orderOf (h : Grown b depth tree es) (hes : es.Nodup) : (orderOf tree).Nodup :=
  h.entries_perm.nodup_iff.mpr hes

lemma nodup_candidates (h : Grown b depth tree es) (hes : es.Nodup) {n : Spot Float Item}
    {a : Entry} (ha : (n, a) ∈ tree.entries) : (Step.candidates s tree n.path a).Nodup := by
  have hn := spot_self.mp ((mem_entries h.linked).mp ha).1
  rw [Step.candidates, ← List.filter_flatMap]
  refine List.Nodup.filter _ (nodup_flatMap_of_subset (k := tree.spots)
    (nodup_walkUpDown h.linked hn _).of_map ?_ ?_)
  · exact fun m hm => (mem_spots h.linked).mpr (spot_of_mem_walkUpDown h.linked hn hm)
  · exact orderOf_eq tree ▸ nodup_orderOf h hes

lemma nodup_pairsAfter {before : List UInt64} {anchors : List (Path × Entry)}
    (ha : (anchors.map Prod.snd).Nodup)
    (hc : ∀ q ∈ anchors, (Step.candidates s tree q.1 q.2).Nodup) :
    (pairsAfter s tree before anchors).Nodup := by
  induction anchors generalizing before with
  | nil => exact List.nodup_nil
  | cons pa anchors ih =>
    obtain ⟨p, a⟩ := pa
    obtain ⟨hfresh, hrest⟩ := List.nodup_cons.mp ha
    have hown := (hc (p, a) List.mem_cons_self).filter (worth s before a)
    rw [pairsAfter, List.nodup_append]
    refine ⟨hown.map fun _ _ h => (Prod.mk.inj h).2,
      ih hrest fun q hq => hc q (List.mem_cons_of_mem _ hq), ?_⟩
    rintro ⟨x, y⟩ hx ⟨x', y'⟩ hy heq
    obtain ⟨c, _, hc⟩ := List.mem_map.mp hx
    obtain ⟨rfl, rfl⟩ := Prod.mk.inj heq
    obtain ⟨rfl, rfl⟩ := Prod.mk.inj hc
    obtain ⟨done, q, rest, hl, _⟩ := mem_pairsAfter.mp hy
    -- the later pairs have later anchors
    exact hfresh (List.mem_map.mpr ⟨(q, a), by simp [hl], rfl⟩)

lemma nodup_pairs (h : Grown b depth tree es) (hes : es.Nodup) : (pairs s tree).Nodup := by
  apply nodup_pairsAfter
  · have hsub : ((Step.anchors s tree).map Prod.snd).Sublist (orderOf tree) := by
      rw [Step.anchors, List.map_map]
      exact List.filter_sublist.map _
    exact (nodup_orderOf h hes).sublist hsub
  · rintro ⟨p, a⟩ hpa
    obtain ⟨n, rfl, ha, _⟩ := mem_anchors.mp hpa
    exact nodup_candidates h hes ha

variable {d : Detection}

section Ids

variable (hfirst : (d.first.objects.map Object.id).Nodup)
  (hother : (d.other.objects.map Object.id).Nodup)

include hfirst hother

lemma nodup_ids_items (side : Side) :
    ((d.items side).1.map fun e => e.value.object.id).Nodup := by
  cases side with
  | first => exact hfirst.sublist (ids_indexable _ _ _)
  | second =>
    cases hs : d.isSelfCheck with
    | true => simp [items_second_within hs]
    | false =>
      have hmodel : d.other = d.second := by simp [other, hs]
      rw [items_second_across hs]
      exact (hmodel ▸ hother).sublist (ids_indexable _ _ _)

omit hfirst hother in
lemma side_of_mem_items {side : Side} {e : Entry} (h : e ∈ (d.items side).1) :
    e.value.side = side := by
  cases side with
  | first => exact (mem_indexable h).1
  | second =>
    cases hs : d.isSelfCheck with
    | true => simp [items_second_within hs] at h
    | false =>
      rw [items_second_across hs] at h
      exact (mem_indexable h).1

omit hfirst hother in
lemma mem_entries_iff {e : Entry} : e ∈ d.entries ↔ e ∈ (d.items e.value.side).1 := by
  rw [entries, List.mem_append]
  constructor
  · rintro (h | h) <;> rwa [side_of_mem_items h]
  · intro h
    cases hside : e.value.side <;> rw [hside] at h
    · exact Or.inl h
    · exact Or.inr h

lemma eq_of_same_id {e f : Entry} (he : e ∈ d.entries) (hf : f ∈ d.entries)
    (hside : e.value.side = f.value.side) (hid : e.value.object.id = f.value.object.id) :
    e = f := by
  rw [mem_entries_iff] at he hf
  rw [← hside] at hf
  exact List.inj_on_of_nodup_map (nodup_ids_items hfirst hother _) he hf hid

lemma nodup_entries : d.entries.Nodup := by
  refine List.Nodup.append (nodup_ids_items hfirst hother .first).of_map
    (nodup_ids_items hfirst hother .second).of_map fun e he he' => ?_
  exact nomatch (side_of_mem_items he).symm.trans (side_of_mem_items he')

omit hfirst hother in
lemma sides_of_isPair {a c : Entry} (h : d.setting.IsPair (orderOf tree) a c)
    (ht : d.tree? b = .ok tree) :
    a ∈ d.entries ∧ c ∈ d.entries ∧ a.value.side = .first ∧
      c.value.side = if d.isSelfCheck then .first else .second := by
  obtain ⟨ha, hc⟩ := mem_of_isPair h
  have ha := (mem_orderOf (grown_of_tree ht)).mp ha
  have hc := (mem_orderOf (grown_of_tree ht)).mp hc
  have hfirst {e : Entry} (he : e ∈ d.entries) (hs : d.isSelfCheck = true) :
      e.value.side = .first := by
    have := (model_of_mem_entries he).1
    cases hside : e.value.side with
    | first => rfl
    | second => simp [this hside] at hs
  refine ⟨ha, hc, ?_⟩
  cases hs : d.isSelfCheck with
  | true => exact ⟨hfirst ha hs, hfirst hc hs⟩
  | false =>
    rw [Setting.IsPair, if_neg (by simp [setting, hs])] at h
    exact h.2.2

lemma eq_of_mem_pairs (ht : d.tree? b = .ok tree) {p q : Entry × Entry}
    (hp : p ∈ pairs d.setting tree) (hq : q ∈ pairs d.setting tree)
    (h₁ : p.1.value.object.id = q.1.value.object.id)
    (h₂ : p.2.value.object.id = q.2.value.object.id) : p = q := by
  obtain ⟨ha, hc, hsa, hsc⟩ := sides_of_isPair ((mem_pairs hfirst ht).mp hp).1 ht
  obtain ⟨ha', hc', hsa', hsc'⟩ := sides_of_isPair ((mem_pairs hfirst ht).mp hq).1 ht
  exact Prod.ext (eq_of_same_id hfirst hother ha ha' (hsa.trans hsa'.symm) h₁)
    (eq_of_same_id hfirst hother hc hc' (hsc.trans hsc'.symm) h₂)

omit hfirst hother in
lemma not_sublist_swapped {α : Type} {l : List α} (hl : l.Nodup) {x y : α}
    (h : [x, y].Sublist l) : ¬ [y, x].Sublist l := by
  intro h'
  induction l with
  | nil => simp at h
  | cons z l ih =>
    obtain ⟨hz, hl⟩ := List.nodup_cons.mp hl
    -- `z` is not the first of either pair, as the second of the other one would come before it
    rcases List.sublist_cons_iff.mp h with hxy | ⟨_, ⟨⟩, hy⟩
    · rcases List.sublist_cons_iff.mp h' with hyx | ⟨_, ⟨⟩, _⟩
      · exact ih hl hxy hyx
      · exact hz (hxy.subset (List.mem_cons_of_mem x List.mem_cons_self))
    · rcases List.sublist_cons_iff.mp h' with hyx | ⟨_, ⟨⟩, _⟩
      · exact hz (hyx.subset (List.mem_cons_of_mem y List.mem_cons_self))
      · exact hz (hy.subset List.mem_cons_self)

lemma not_swapped_of_mem_pairs (hs : d.isSelfCheck = true) (ht : d.tree? b = .ok tree)
    {p q : Entry × Entry} (hp : p ∈ pairs d.setting tree) (hq : q ∈ pairs d.setting tree)
    (h : p.1.value.object.id = q.2.value.object.id) :
    p.2.value.object.id ≠ q.1.value.object.id := by
  intro h'
  have hpp := ((mem_pairs hfirst ht).mp hp).1
  have hqp := ((mem_pairs hfirst ht).mp hq).1
  obtain ⟨ha, hc, hsa, hsc⟩ := sides_of_isPair hpp ht
  obtain ⟨ha', hc', hsa', hsc'⟩ := sides_of_isPair hqp ht
  rw [if_pos hs] at hsc hsc'
  have h₁ := eq_of_same_id hfirst hother ha hc' (hsa.trans hsc'.symm) h
  have h₂ := eq_of_same_id hfirst hother hc ha' (hsc.trans hsa'.symm) h'
  rw [Setting.IsPair, if_pos (by exact hs)] at hpp hqp
  rw [← h₁, ← h₂] at hqp
  exact not_sublist_swapped (nodup_orderOf (grown_of_tree ht) (nodup_entries hfirst hother)) hpp hqp

variable {signals : Signals} {e e' : Examination}

lemma nodup_examined : ((d.examined signals).map Examination.pair).Nodup := by
  cases ht : d.tree? d.bounds with
  | error e => simp [examined, examinations, ht]
  | ok tree =>
    exact (nodup_pairs (grown_of_tree ht) (nodup_entries hfirst hother)).sublist
      (prefix_pairs ht signals).sublist

lemma eq_of_mem_examined (he : e ∈ d.examined signals) (he' : e' ∈ d.examined signals)
    (h₁ : e.anchor.value.object.id = e'.anchor.value.object.id)
    (h₂ : e.candidate.value.object.id = e'.candidate.value.object.id) : e = e' := by
  obtain ⟨tree, ht⟩ := exists_tree_of_examined he
  have hpairs := prefix_pairs ht signals
  refine List.inj_on_of_nodup_map (nodup_examined hfirst hother) he he'
    (eq_of_mem_pairs hfirst hother ht ?_ ?_ h₁ h₂)
  · exact hpairs.subset (List.mem_map_of_mem he)
  · exact hpairs.subset (List.mem_map_of_mem he')

lemma not_swapped_of_mem_examined (hs : d.isSelfCheck = true) (he : e ∈ d.examined signals)
    (he' : e' ∈ d.examined signals)
    (h : e.anchor.value.object.id = e'.candidate.value.object.id) :
    e.candidate.value.object.id ≠ e'.anchor.value.object.id := by
  obtain ⟨tree, ht⟩ := exists_tree_of_examined he
  have hpairs := prefix_pairs ht signals
  exact not_swapped_of_mem_pairs hfirst hother hs ht (hpairs.subset (List.mem_map_of_mem he))
    (hpairs.subset (List.mem_map_of_mem he')) h

end Ids

end SolidClash.Detection
