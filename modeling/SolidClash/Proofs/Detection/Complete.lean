import Mathlib.Data.List.Permutation
import SolidClash.Proofs.Detection.Graph
import SolidClash.Proofs.Detection.Input

namespace SolidClash.Detection

open Octree

variable {d : Detection}

lemma model_of_mem_entries {e : Entry} (h : e ∈ d.entries) :
    (e.value.side = .second → d.isSelfCheck = false) ∧
      e.value.object ∈ (d.setting.model e.value.side).objects ∧
      e.value.object.geometry = some e.value.geometry := by
  rcases List.mem_append.mp h with h | h
  · obtain ⟨hs, ho, hg⟩ := mem_indexable h
    rw [hs]
    exact ⟨fun h => (nomatch h), ho, hg⟩
  · cases hself : d.isSelfCheck with
    | true => simp [items_second_within hself] at h
    | false =>
      rw [items_second_across hself] at h
      obtain ⟨hs, ho, hg⟩ := mem_indexable h
      have hm : d.setting.model .second = d.second := by
        simp [setting, Setting.model, other, hself]
      rw [hs, hm]
      exact ⟨fun _ => rfl, ho, hg⟩

lemma side_eq_of_model {e e' : Entry} (he : e ∈ d.entries) (he' : e' ∈ d.entries)
    (h : (d.setting.model e.value.side).id = (d.setting.model e'.value.side).id) :
    e.value.side = e'.value.side := by
  have hids : d.isSelfCheck = false → d.first.id ≠ d.other.id := by
    intro hself
    have hother : d.other = d.second := by simp [other, hself]
    rw [hother]
    simpa [isSelfCheck] using hself
  have hs := (model_of_mem_entries he).1
  have hs' := (model_of_mem_entries he').1
  cases hside : e.value.side with
  | first =>
    cases hside' : e'.value.side with
    | first => rfl
    | second =>
      rw [hside, hside'] at h
      exact (hids (hs' hside') h).elim
  | second =>
    cases hside' : e'.value.side with
    | first =>
      rw [hside, hside'] at h
      exact (hids (hs hside) h.symm).elim
    | second => rfl

lemma coherent (hfirst : d.first.WellFormed) (hother : d.other.WellFormed) :
    Coherent d.setting fun i => ∃ e ∈ d.entries, e.value = i := by
  rintro _ _ ⟨e, he, rfl⟩ ⟨e', he', rfl⟩ hid
  obtain ⟨hs, ho, hg⟩ := model_of_mem_entries he
  obtain ⟨hs', ho', hg'⟩ := model_of_mem_entries he'
  obtain ⟨hmodel, hgeometry⟩ := Prod.mk.inj hid
  have hside := side_eq_of_model he he' hmodel
  have hwf : (d.setting.model e.value.side).WellFormed := by
    cases e.value.side
    · exact hfirst
    · exact hother
  obtain ⟨hplace, hdata⟩ := hwf.shared _ ho _ (hside ▸ ho') _ _ hg hg' hgeometry
  simp only [Tally.freshMesh?]
  rw [hplace, hdata, hside]

lemma grown_of_tree {box : Box Float} {tree : Index} (h : d.tree? box = .ok tree) :
    Grown box d.options.maxOctreeDepth tree d.entries := grown_of_insertAll h

lemma order_perm (d : Detection) : d.order.Perm d.entries := by
  rw [order]
  split
  · rename_i tree h
    exact (grown_of_tree h).entries_perm
  · exact .refl _

lemma mem_pairs (hfirst : (d.first.objects.map Object.id).Nodup) {box : Box Float} {tree : Index}
    (h : d.tree? box = .ok tree) {a c : Entry} :
    (a, c) ∈ pairs d.setting tree ↔ d.setting.IsCandidate (orderOf tree) a c := by
  cases hs : d.isSelfCheck with
  | false => exact mem_pairs_across (grown_of_tree h) hs
  | true =>
    apply mem_pairs_within (grown_of_tree h) hs
    rw [entries, items_second_within hs, List.append_nil]
    exact hfirst.sublist (ids_indexable _ _ _)

lemma mem_of_isPair {s : Setting} {es : List Entry} {a c : Entry} (h : s.IsPair es a c) :
    a ∈ es ∧ c ∈ es := by
  rw [Setting.IsPair] at h
  split at h
  · exact ⟨h.subset (by simp), h.subset (by simp)⟩
  · exact ⟨h.1, h.2.1⟩

lemma mem_left_runIn (hfirst : d.first.WellFormed) (hother : d.other.WellFormed)
    (hsolve : d.solver.IsPure) {signals : Signals} {box : Box Float} {tree : Index}
    (ht : d.tree? box = .ok tree)
    (hdone : (d.start.run d.setting signals (Step.schedule d.setting tree)).monitor.cancelled =
      false) (x y : UInt64) :
    y ∈ Adjacency.others (d.start.run d.setting signals
        (Step.schedule d.setting tree)).tally.results.left x ↔
      ∃ a c, d.setting.IsCandidate (orderOf tree) a c ∧ d.setting.Links x y a.value c.value := by
  have hpairs : ∀ q ∈ pairs d.setting tree,
      (∃ e ∈ d.entries, e.value = q.1.value) ∧ ∃ e ∈ d.entries, e.value = q.2.value := by
    rintro ⟨a, c⟩ hq
    obtain ⟨ha, hc⟩ := mem_of_isPair ((mem_pairs hfirst.ids ht).mp hq).1
    exact ⟨⟨a, (mem_orderOf (grown_of_tree ht)).mp ha, rfl⟩,
      ⟨c, (mem_orderOf (grown_of_tree ht)).mp hc, rfl⟩⟩
  rw [mem_left_run rfl rfl rfl rfl (coherent hfirst hother) hsolve hpairs hdone]
  simp only [Prod.exists, mem_pairs hfirst.ids ht]

lemma not_isPair_of_isEmpty (hother : d.other.WellFormed) (hempty : d.bounds.IsEmpty)
    {a c : Entry} : ¬ d.setting.IsPair d.order a c := by
  intro hp
  have hc : c ∈ d.entries := d.order_perm.mem_iff.mp (mem_of_isPair hp).2
  obtain ⟨_, ho, hg⟩ := model_of_mem_entries hc
  have hmodel : d.setting.model c.value.side = d.other := by
    rw [Setting.IsPair] at hp
    cases hs : d.isSelfCheck with
    | true =>
      have hsame : d.first = d.other := by simp [other, hs]
      cases c.value.side
      · exact hsame
      · rfl
    | false =>
      rw [if_neg (by simp [setting, hs])] at hp
      rw [hp.2.2.2]
      rfl
  rw [hmodel] at ho
  -- the second model's box is not lost in the union
  exact ((hother.isProper ho hg).union _).not_isEmpty hempty

lemma not_cancelled_of_finished {p : Progress} (h : (conclude p).results.state = .finished) :
    p.monitor.cancelled = false := by
  cases hc : p.monitor.cancelled with
  | false => rfl
  | true => simp [conclude, hc] at h

/-- A finished run lists `y` for `x` exactly if they are the items of a pair that the type filter
admits, whose boxes clash, whose fresh meshes clash triangle by triangle, and whose solid is not too
small. In a self-check the pair is taken in the order of the octree and counts for both items. -/
theorem run_finds_all_clashes (hfirst : d.first.WellFormed) (hother : d.other.WellFormed)
    (hsolve : d.solver.IsPure) {signals : Signals} {o : Outcome} (hrun : d.run signals = .ok o)
    (hdone : o.results.state = .finished) :
    d.order.Perm d.entries ∧ ∀ x y, y ∈ Adjacency.others o.results.left x ↔
      ∃ a c, d.setting.IsCandidate d.order a c ∧ d.setting.Links x y a.value c.value := by
  refine ⟨d.order_perm, fun x y => ?_⟩
  rw [run] at hrun
  split at hrun
  · simp at hrun
  · split at hrun
    · rename_i hempty
      obtain rfl := Except.ok.inj hrun
      have hnone :
          ¬ ∃ a c, d.setting.IsCandidate d.order a c ∧ d.setting.Links x y a.value c.value := by
        rintro ⟨_, _, hp, _⟩
        exact not_isPair_of_isEmpty hother hempty hp.1
      simp [hnone, blank, Adjacency.others]
    · rw [runIn_eq] at hrun
      cases ht : d.tree? d.bounds with
      | error e => simp [ht] at hrun
      | ok tree =>
        rw [ht] at hrun
        obtain rfl := Except.ok.inj hrun
        have horder : d.order = orderOf tree := by simp [order, ht]
        rw [horder]
        exact mem_left_runIn hfirst hother hsolve ht (not_cancelled_of_finished hdone) x y

lemma admits_of_no_rules {f : TypeFilter} (hc : f.check = ∅) (hi : f.ignore = ∅)
    (ho : f.ownTypeOnly = ∅) {x y : UInt64} (hxy : x ≠ y) (s t : TypeId) :
    f.admits x s y t = true := by
  simp [TypeFilter.admits, TypeFilter.listed, hc, hi, ho, hxy]

lemma rules_resolveAll (f : TypeFilter) (os : List Object) :
    (f.resolveAll os).2.check = f.check ∧ (f.resolveAll os).2.ignore = f.ignore ∧
      (f.resolveAll os).2.ownTypeOnly = f.ownTypeOnly := by
  induction os generalizing f with
  | nil => exact ⟨rfl, rfl, rfl⟩
  | cons o os ih =>
    have hf : (f.resolve o).2.check = f.check ∧ (f.resolve o).2.ignore = f.ignore ∧
        (f.resolve o).2.ownTypeOnly = f.ownTypeOnly := by
      rw [TypeFilter.resolve, TypeFilter.intern]
      dsimp only
      split <;> exact ⟨rfl, rfl, rfl⟩
    obtain ⟨hc, hi, ho⟩ := ih (f.resolve o).2
    exact ⟨hc.trans hf.1, hi.trans hf.2.1, ho.trans hf.2.2⟩

lemma rules_resolved (d : Detection) :
    d.resolved.1.check = (TypeFilter.ofRules d.rules).check ∧
      d.resolved.1.ignore = (TypeFilter.ofRules d.rules).ignore ∧
      d.resolved.1.ownTypeOnly = (TypeFilter.ofRules d.rules).ownTypeOnly := by
  obtain ⟨hc, hi, ho⟩ := rules_resolveAll (TypeFilter.ofRules d.rules) d.first.objects
  rw [resolved]
  cases d.isSelfCheck with
  | true => exact ⟨hc, hi, ho⟩
  | false =>
    obtain ⟨hc', hi', ho'⟩ := rules_resolveAll
      ((TypeFilter.ofRules d.rules).resolveAll d.first.objects).2 d.second.objects
    exact ⟨hc'.trans hc, hi'.trans hi, ho'.trans ho⟩

lemma fault?_eq_none {r : Rules} (ht : ∀ p ∈ r.tolerances, Rules.IsTolerance p.2)
    (hp : r.property.isSome = r.propertySet.isSome) : r.fault? = none := by
  rw [Rules.fault?]
  split
  · rename_i field x hfind
    have hx := List.find?_some hfind
    simp [ht _ (List.mem_of_find?_eq_some hfind)] at hx
  · simp [hp]

def tileGeometry : Geometry where
  id := 7
  bounds := ⟨⟨0, 0, 0⟩, ⟨4, 4, 0⟩⟩
  data := some (.ofBuffers 7 [0, 1, 2] [0, 0, 0, 4, 0, 0, 0, 4, 0])

def pinGeometry : Geometry where
  id := 8
  bounds := ⟨⟨1, 1, -1⟩, ⟨2, 1, 1⟩⟩
  data := some (.ofBuffers 8 [0, 1, 2] [1, 1, -1, 1, 1, 1, 2, 1, 0])

def tile : Object := { id := 1, typeName := "Tile", geometry := some tileGeometry }

def pin : Object := { id := 2, typeName := "Pin", geometry := some pinGeometry }

def pinned : Model := { id := 1, objects := [tile, pin] }

lemma wellFormed_pinned : pinned.WellFormed where
  ids := by decide
  boxes := by
    intro o ho g hg
    simp only [pinned, List.mem_cons, List.not_mem_nil, or_false] at ho
    rcases ho with rfl | rfl <;> obtain rfl := Option.some.inj hg <;> decide +kernel
  declared := by
    intro b hb
    simp [pinned] at hb
  shared := by
    intro o ho o' ho' g g' hg hg' hid
    simp only [pinned, List.mem_cons, List.not_mem_nil, or_false] at ho ho'
    rcases ho with rfl | rfl <;> rcases ho' with rfl | rfl <;>
      obtain rfl := Option.some.inj hg <;> obtain rfl := Option.some.inj hg'
    · exact ⟨rfl, rfl⟩
    · exact absurd hid (by decide)
    · exact absurd hid (by decide)
    · exact ⟨rfl, rfl⟩

def pinnedCheck : Detection :=
  { first := pinned, second := pinned, rules := { skipDefaultRules := true } }

def tileEntry (type : TypeId) : Entry :=
  ⟨tileGeometry.bounds.scaled 1.0, ⟨.first, tile, tileGeometry, type⟩⟩

def pinEntry (type : TypeId) : Entry :=
  ⟨pinGeometry.bounds.scaled 1.0, ⟨.first, pin, pinGeometry, type⟩⟩

lemma indexable_pinned {types : List TypeId} (h : types.length = 2) :
    ∃ s t, (indexable pinned .first types).1 = [tileEntry s, pinEntry t] := by
  have htile : ¬ ((tileGeometry.bounds.scaled 1.0).IsEmpty ∨
      ¬ (tileGeometry.bounds.scaled 1.0).IsFinite) := by decide +kernel
  have hpin : ¬ ((pinGeometry.bounds.scaled 1.0).IsEmpty ∨
      ¬ (pinGeometry.bounds.scaled 1.0).IsFinite) := by decide +kernel
  obtain ⟨s, t, rfl⟩ := List.length_eq_two.mp h
  exact ⟨s, t, by simp [indexable, pinned, tile, pin, htile, hpin, tileEntry, pinEntry]⟩

lemma entries_pinnedCheck : ∃ s t, pinnedCheck.entries = [tileEntry s, pinEntry t] := by
  have hself : pinnedCheck.isSelfCheck = true := rfl
  rw [entries, items_second_within hself, List.append_nil]
  exact indexable_pinned pinnedCheck.length_types_first

def tileMesh : Mesh Float :=
  .ofBytes (Bytes.ofWords [0, 1, 2]) (Bytes.ofFloats [0, 0, 0, 4, 0, 0, 0, 4, 0]) none 1.0

def pinMesh : Mesh Float :=
  .ofBytes (Bytes.ofWords [0, 1, 2]) (Bytes.ofFloats [1, 1, -1, 1, 1, 1, 2, 1, 0]) none 1.0

lemma clash_pinnedCheck (s t : TypeId) :
    pinnedCheck.setting.Clash (tileEntry s).value (pinEntry t).value ∧
      pinnedCheck.setting.Clash (pinEntry t).value (tileEntry s).value := by
  have htile : Tally.freshMesh? pinnedCheck.setting (tileEntry s).value = some tileMesh := rfl
  have hpin : Tally.freshMesh? pinnedCheck.setting (pinEntry t).value = some pinMesh := rfl
  have hvolume : pinnedCheck.rules.needsVolume = false := by decide +kernel
  have hnone (m n : Mesh Float) : pinnedCheck.setting.volume? m n = none := by
    simp [Setting.volume?, Tally.wantsVolume, setting, hvolume]
  refine ⟨⟨_, _, htile, hpin, ?_, fun v hv => ?_⟩, ⟨_, _, hpin, htile, ?_, fun v hv => ?_⟩⟩
  · change tileMesh.clash pinMesh 1e-5 = true
    decide +kernel
  · simp [hnone] at hv
  · change pinMesh.clash tileMesh 1e-5 = true
    decide +kernel
  · simp [hnone] at hv

lemma isCandidate_pinnedCheck {a c : Entry} (h : [a, c].Sublist pinnedCheck.order)
    (hne : a.value.object.id ≠ c.value.object.id) (hac : a.bounds.Clashes c.bounds) :
    pinnedCheck.setting.IsCandidate pinnedCheck.order a c := by
  obtain ⟨hc, hi, ho⟩ := rules_resolved pinnedCheck
  exact ⟨h, admits_of_no_rules hc hi ho hne _ _, hac⟩

lemma exists_run_of_entries {d : Detection} {s t : TypeId}
    (hentries : d.entries = [tileEntry s, pinEntry t]) (hrules : d.rules.fault? = none)
    (hbox : ¬ d.bounds.IsEmpty ∧ d.bounds.IsFinite ∧
      d.bounds.Fits (tileGeometry.bounds.scaled 1.0) ∧
      d.bounds.Fits (pinGeometry.bounds.scaled 1.0)) :
    ∃ o, d.run (.constant false) = .ok o ∧ o.results.state = .finished := by
  obtain ⟨hb, hf, htile, hpin⟩ := hbox
  have hfits : ∀ e ∈ d.entries, d.bounds.Fits e.bounds := by
    rw [hentries]
    exact List.forall_mem_cons.mpr ⟨htile, List.forall_mem_singleton.mpr hpin⟩
  exact exists_run hrules hb hf hfits
    (fun _ => rfl : ∀ k, (Signals.constant false).cancelled k = false)

lemma exists_run_pinnedCheck :
    ∃ o, pinnedCheck.run (.constant false) = .ok o ∧ o.results.state = .finished := by
  obtain ⟨s, t, he⟩ := entries_pinnedCheck
  exact exists_run_of_entries he (fault?_eq_none (by decide +kernel) rfl) (by decide +kernel)

theorem run_finds_all_clashes_pinned : ∃ o, pinnedCheck.run (.constant false) = .ok o ∧
    o.results.state = .finished ∧ 2 ∈ Adjacency.others o.results.left 1 ∧
    1 ∈ Adjacency.others o.results.left 2 := by
  obtain ⟨s, t, he⟩ := entries_pinnedCheck
  obtain ⟨o, hrun, hdone⟩ := exists_run_pinnedCheck
  obtain ⟨hperm, hleft⟩ := run_finds_all_clashes (d := pinnedCheck) wellFormed_pinned
    wellFormed_pinned (fun _ _ _ _ => rfl) hrun hdone
  obtain ⟨htp, hpt⟩ := clash_pinnedCheck s t
  have hboxes : (tileGeometry.bounds.scaled 1.0).Clashes (pinGeometry.bounds.scaled 1.0) := by
    decide +kernel
  rw [he, List.perm_pair] at hperm
  refine ⟨o, hrun, hdone, ?_⟩
  -- whichever of the two comes first, the pair counts for both
  rcases hperm with horder | horder
  · have hc : pinnedCheck.setting.IsCandidate pinnedCheck.order (tileEntry s) (pinEntry t) :=
      isCandidate_pinnedCheck (by rw [horder]) (show (1 : UInt64) ≠ 2 by decide) hboxes
    exact ⟨(hleft 1 2).mpr ⟨_, _, hc, htp, Or.inl ⟨rfl, rfl⟩⟩,
      (hleft 2 1).mpr ⟨_, _, hc, htp, Or.inr ⟨rfl, rfl, rfl⟩⟩⟩
  · have hc : pinnedCheck.setting.IsCandidate pinnedCheck.order (pinEntry t) (tileEntry s) :=
      isCandidate_pinnedCheck (by rw [horder]) (show (2 : UInt64) ≠ 1 by decide)
        ((Box.clashes_comm _ _).mp hboxes)
    exact ⟨(hleft 1 2).mpr ⟨_, _, hc, hpt, Or.inr ⟨rfl, rfl, rfl⟩⟩,
      (hleft 2 1).mpr ⟨_, _, hc, hpt, Or.inl ⟨rfl, rfl⟩⟩⟩

end SolidClash.Detection
