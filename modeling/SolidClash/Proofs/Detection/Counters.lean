import Mathlib.Data.Set.Card
import SolidClash.Proofs.Detection.Notes
import SolidClash.Proofs.Detection.Once
import SolidClash.Proofs.Detection.Trace

namespace SolidClash.Detection

def Examination.unordered (e : Examination) : Sym2 Entry := s(e.anchor, e.candidate)

variable (d : Detection)

def otherItems : List Entry := (d.items (if d.isSelfCheck then .first else .second)).1

/-- The pairs of items that the type filter admits and whose boxes clash, in no order. -/
def candidatePairs : Set (Sym2 Entry) :=
  {p | ∃ a ∈ (d.items .first).1, ∃ c ∈ d.otherItems, s(a, c) = p ∧
    d.resolved.1.admits a.value.object.id a.value.type c.value.object.id c.value.type = true ∧
    a.bounds.Clashes c.bounds}

variable {d} {b : Box Float} {tree : Index}

lemma ncard_mem_of_nodup {α : Type} {l : List α} (h : l.Nodup) : {x | x ∈ l}.ncard = l.length := by
  classical
  rw [← List.toFinset_card_of_nodup h, ← Set.ncard_coe_finset, List.coe_toFinset]

lemma sublist_or_sublist {α : Type} {l : List α} {x y : α} (hx : x ∈ l) (hy : y ∈ l) (h : x ≠ y) :
    [x, y].Sublist l ∨ [y, x].Sublist l := by
  obtain ⟨l₁, l₂, rfl⟩ := List.append_of_mem hx
  rcases List.mem_append.mp hy with hy | hy
  · exact Or.inr ((List.singleton_sublist.mpr hy).append (by simp))
  · have hy := (List.mem_cons.mp hy).resolve_left h.symm
    exact Or.inl (pair_sublist_iff.mpr ⟨l₁, l₂, rfl, hy⟩)

lemma mem_order_iff (ht : d.tree? b = .ok tree) {e : Entry} :
    e ∈ orderOf tree ↔ e ∈ (d.items e.value.side).1 :=
  (mem_orderOf (grown_of_tree ht)).trans mem_entries_iff

lemma mem_candidatePairs (hfirst : (d.first.objects.map Object.id).Nodup)
    (ht : d.tree? b = .ok tree) {q : Sym2 Entry} :
    q ∈ d.candidatePairs ↔ ∃ p ∈ pairs d.setting tree, s(p.1, p.2) = q := by
  constructor
  · rintro ⟨a, ha, c, hc, rfl, hadm, hcl⟩
    have hsa := side_of_mem_items ha
    have hsc := side_of_mem_items hc
    have hao := (mem_order_iff ht).mpr (hsa ▸ ha)
    have hco := (mem_order_iff ht).mpr (by rwa [hsc])
    cases hs : d.isSelfCheck with
    | false =>
      rw [hs] at hsc
      refine ⟨(a, c), (mem_pairs hfirst ht).mpr ⟨?_, hadm, hcl⟩, rfl⟩
      rw [Setting.IsPair, if_neg (by simp [setting, hs])]
      exact ⟨hao, hco, hsa, hsc⟩
    | true =>
      have hne : a ≠ c := by
        rintro rfl
        simp [TypeFilter.admits] at hadm
      have hpair {x y : Entry} (h : [x, y].Sublist (orderOf tree)) :
          d.setting.IsPair (orderOf tree) x y := by
        rwa [Setting.IsPair, if_pos (by exact hs)]
      -- the one that comes first in the tree is the anchor
      rcases sublist_or_sublist hao hco hne with h | h
      · exact ⟨(a, c), (mem_pairs hfirst ht).mpr ⟨hpair h, hadm, hcl⟩, rfl⟩
      · refine ⟨(c, a), (mem_pairs hfirst ht).mpr ⟨hpair h, ?_, (Box.clashes_comm _ _).mp hcl⟩,
          Sym2.eq_swap⟩
        exact (d.resolved.1.admits_comm _ _ _ _).trans hadm
  · rintro ⟨⟨a, c⟩, hp, rfl⟩
    obtain ⟨hpair, hadm, hcl⟩ := (mem_pairs hfirst ht).mp hp
    obtain ⟨ha, hc, hsa, hsc⟩ := sides_of_isPair hpair ht
    refine ⟨a, hsa ▸ mem_entries_iff.mp ha, c, ?_, rfl, hadm, hcl⟩
    rw [otherItems, ← hsc]
    exact mem_entries_iff.mp hc

lemma nodup_unordered (hfirst : (d.first.objects.map Object.id).Nodup)
    (hother : (d.other.objects.map Object.id).Nodup) (ht : d.tree? b = .ok tree) :
    ((pairs d.setting tree).map fun p => s(p.1, p.2)).Nodup := by
  refine (nodup_pairs (grown_of_tree ht) (nodup_entries hfirst hother)).map_on ?_
  rintro ⟨a, c⟩ hp ⟨a', c'⟩ hq heq
  rcases Sym2.eq_iff.mp heq with ⟨rfl, rfl⟩ | ⟨rfl, rfl⟩
  · rfl
  · obtain ⟨_, _, hsa, hsc⟩ := sides_of_isPair ((mem_pairs hfirst ht).mp hp).1 ht
    obtain ⟨_, _, hsa', _⟩ := sides_of_isPair ((mem_pairs hfirst ht).mp hq).1 ht
    cases hs : d.isSelfCheck with
    | true => exact (not_swapped_of_mem_pairs hfirst hother hs ht hp hq rfl rfl).elim
    | false =>
      rw [hs] at hsc
      exact nomatch hsa'.symm.trans hsc

lemma ncard_candidatePairs (hfirst : (d.first.objects.map Object.id).Nodup)
    (hother : (d.other.objects.map Object.id).Nodup) (ht : d.tree? b = .ok tree)
    (f : Entry × Entry → Bool) (P : Sym2 Entry → Prop) (hf : ∀ p, f p = true ↔ P s(p.1, p.2)) :
    {q ∈ d.candidatePairs | P q}.ncard = (pairs d.setting tree).countP f := by
  have hset : {q ∈ d.candidatePairs | P q} =
      {q | q ∈ ((pairs d.setting tree).filter f).map fun p => s(p.1, p.2)} := by
    ext q
    simp only [Set.mem_ofPred_eq, mem_candidatePairs hfirst ht, List.mem_map, List.mem_filter, hf]
    constructor
    · rintro ⟨⟨p, hp, rfl⟩, hP⟩
      exact ⟨p, ⟨hp, hP⟩, rfl⟩
    · rintro ⟨p, ⟨hp, hP⟩, rfl⟩
      exact ⟨⟨p, hp, rfl⟩, hP⟩
  have hnodup := (nodup_unordered hfirst hother ht).sublist
    ((List.filter_sublist (p := f)).map fun p => s(p.1, p.2))
  rw [hset, ncard_mem_of_nodup hnodup, List.length_map, List.countP_eq_length_filter]

lemma length_indexable (m : Model) (side : Side) {types : List TypeId}
    (h : types.length = m.objects.length) :
    (indexable m side types).1.length + (indexable m side types).2 = m.objects.length := by
  have hsplit {α : Type} (l : List (Option α)) :
      (l.filterMap id).length + l.countP Option.isNone = l.length := by
    rw [List.length_filterMap_eq_countP, l.length_eq_countP_add_countP Option.isSome]
    congr 2
    funext o
    cases o <;> rfl
  rw [indexable]
  dsimp only
  rw [hsplit, List.length_map, List.length_zip, h, Nat.min_self]

lemma objectCount_eq (d : Detection) :
    d.objectCount = (d.items .first).1.length + (d.items .second).1.length +
      ((d.items .first).2 + (d.items .second).2) := by
  have hitems := length_indexable d.first .first d.length_types_first
  rw [objectCount]
  cases hs : d.isSelfCheck with
  | true =>
    rw [items_second_within hs]
    exact hitems.symm
  | false =>
    have hitems' := length_indexable d.second .second (length_types_second hs)
    rw [items_second_across hs, items]
    simp
    omega

lemma otherItems_of_isEmpty (hother : d.other.WellFormed) (h : d.bounds.IsEmpty) :
    d.otherItems = [] := by
  refine List.eq_nil_iff_forall_not_mem.mpr fun e he => ?_
  have hmodel : e.value.object ∈ d.other.objects ∧
      e.value.object.geometry = some e.value.geometry := by
    rw [otherItems] at he
    cases hs : d.isSelfCheck with
    | true =>
      rw [hs] at he
      simpa [other, hs] using (mem_indexable he).2
    | false =>
      rw [hs, if_neg Bool.false_ne_true, items_second_across hs] at he
      simpa [other, hs] using (mem_indexable he).2
  exact ((hother.isProper hmodel.1 hmodel.2).union _).not_isEmpty h

lemma candidatePairs_of_isEmpty (hother : d.other.WellFormed) (h : d.bounds.IsEmpty) :
    d.candidatePairs = ∅ := by
  simp [candidatePairs, otherItems_of_isEmpty hother h]

def Item.IsComplete (i : Item) : Prop :=
  ∃ g is vs, i.geometry.data = some g ∧ g.indices = some is ∧ g.vertices = some vs ∧
    is ≠ [] ∧ vs ≠ []

/-- The counters of a run say what there is to be examined, whatever the octree is like. -/
structure CountsExact (d : Detection) (r : Results Float) : Prop where
  objects : r.metrics.totalObjects = d.objectCount ∧
    r.metrics.totalObjects = r.metrics.objectsWithGeometry + r.metrics.objectsWithoutGeometry
  combinations : r.metrics.totalCombinations = (d.items .first).1.length * d.otherItems.length
  examined : r.metrics.examinedPairs = d.candidatePairs.ncard
  incomplete : r.metrics.notEnoughData =
    {p ∈ d.candidatePairs | ∃ e ∈ p, ¬ e.value.IsComplete}.ncard
  undecodable : ∀ x, x ∈ r.undecodableMeshes ↔ ∃ p ∈ d.candidatePairs, ∃ e ∈ p,
    e.value.object.id = x ∧ ∃ m, Tally.freshMesh? d.setting e.value = some m ∧ 0 < m.undecodable
  opened : ∀ x, x ∈ r.openMeshes ↔ ∃ p ∈ d.candidatePairs, ∃ e ∈ p,
    e.value.object.id = x ∧ ∃ m, Tally.freshMesh? d.setting e.value = some m ∧
      m.undecodable = 0 ∧ Mesh.isWatertight m.triangles = false
  undecodableCount : r.metrics.objectsWithUndecodableGeometry = r.undecodableMeshes.size
  openCount : r.metrics.objectsWithOpenGeometry = r.openMeshes.size

lemma isComplete_iff {s : Setting} {i : Item} :
    i.IsComplete ↔ (Tally.freshMesh? s i).isSome = true := by
  rw [Item.IsComplete, Tally.freshMesh?]
  cases i.geometry.data with
  | none => simp
  | some g =>
    simp only [GeometryData.mesh?, Option.bind_some, Option.isSome_map, Option.isSome_iff_exists,
      Prod.exists, GeometryData.buffers?_eq_some, Option.some.injEq, exists_and_left,
      exists_eq_left']

lemma lacks_iff {s : Setting} {p : Entry × Entry} :
    s.lacks p = true ↔ ∃ e ∈ s(p.1, p.2), ¬ e.value.IsComplete := by
  simp [Setting.lacks, isComplete_iff (s := s)]

lemma countsExact_nothing (hother : d.other.WellFormed) (h : d.bounds.IsEmpty) :
    d.CountsExact d.nothing.results := by
  have hitems := otherItems_of_isEmpty hother h
  have hpairs := candidatePairs_of_isEmpty hother h
  constructor <;> simp [nothing, blank, hitems, hpairs]

lemma countsExact_conclude (hfirst : d.first.WellFormed) (hother : d.other.WellFormed)
    {tree : Index} (ht : d.tree? b = .ok tree) {signals : Signals}
    (hdone : (d.start.run d.setting signals (Step.schedule d.setting tree)).monitor.cancelled =
      false) :
    d.CountsExact (conclude (d.start.run d.setting signals
      (Step.schedule d.setting tree))).results := by
  have hdecoded : Coherent d.setting fun i => ∃ e ∈ d.entries, e.value = i := coherent hfirst hother
  have hpairs : ∀ p ∈ pairs d.setting tree,
      (∃ e ∈ d.entries, e.value = p.1.value) ∧ ∃ e ∈ d.entries, e.value = p.2.value := by
    rintro ⟨a, c⟩ hp
    obtain ⟨ha, hc, _, _⟩ := sides_of_isPair ((mem_pairs hfirst.ids ht).mp hp).1 ht
    exact ⟨⟨a, ha, rfl⟩, ⟨c, hc, rfl⟩⟩
  have hsound : d.start.tally.findings.Sound d.setting fun i => ∃ e ∈ d.entries, e.value = i :=
    fun i _ m hm => by simp [start, Tally.findings, Tally.withBooks] at hm
  have hnotes := hsound.notes_compareAll hdecoded hpairs
  rw [← findings_run d.setting signals tree rfl hdone] at hnotes
  generalize d.start.run d.setting signals (Step.schedule d.setting tree) = p at hnotes hdone
  have hmetrics := congrArg Results.metrics hnotes
  rw [metrics_foldl_count] at hmetrics
  have hnoted {k : Mesh.Closedness} (hk : k ≠ .closed) (x : UInt64) :
      x ∈ p.tally.results.noted k ↔ ∃ q ∈ d.candidatePairs, ∃ e ∈ q,
        e.value.object.id = x ∧ d.setting.IsOf k e.value := by
    have hsame : p.tally.results.noted k = (notes p.tally.findings.results).noted k := by
      cases k <;> rfl
    have hnone : x ∉ (notes d.start.tally.findings.results).noted k := by
      cases k <;> simp [Results.noted, notes, start, blank, Tally.findings, Tally.withBooks]
    rw [hsame, hnotes, mem_noted_foldl_count hk, or_iff_right hnone]
    simp only [mem_candidatePairs hfirst.ids ht]
    constructor
    · rintro ⟨q, hq, he⟩
      exact ⟨_, ⟨q, hq, rfl⟩, he⟩
    · rintro ⟨_, ⟨q, hq, rfl⟩, he⟩
      exact ⟨q, hq, he⟩
  have hcount := ncard_candidatePairs hfirst.ids hother.ids ht
  have hfield (f : Metrics → ℕ) := congrArg f hmetrics
  constructor
  · have htotal := hfield Metrics.totalObjects
    have hwith := hfield Metrics.objectsWithGeometry
    have hwithout := hfield Metrics.objectsWithoutGeometry
    exact ⟨htotal, (htotal.trans d.objectCount_eq).trans (congrArg₂ (· + ·) hwith hwithout).symm⟩
  · refine (hfield Metrics.totalCombinations).trans ?_
    change (d.items .first).1.length * d.setting.secondCount = _
    rw [otherItems, setting]
    cases d.isSelfCheck <;> rfl
  · have h := hcount (fun _ => true) (fun _ => True) (by simp)
    simp only [and_true, Set.ofPred_mem_eq, List.countP_true] at h
    exact (hfield Metrics.examinedPairs).trans (h ▸ Nat.zero_add _)
  · rw [hcount d.setting.lacks _ fun _ => lacks_iff]
    exact (hfield Metrics.notEnoughData).trans (Nat.zero_add _)
  · intro x
    have h := hnoted (k := .undecodable) (by decide) x
    simp only [Setting.IsOf, Mesh.closedness_eq_undecodable] at h
    exact h
  · intro x
    have h := hnoted (k := .opened) (by decide) x
    simp only [Setting.IsOf, Mesh.closedness_eq_opened] at h
    exact h
  · rfl
  · rfl

/-- A finished run has examined every pair exactly once, and its counters are exact. -/
theorem run_counts_exact (hfirst : d.first.WellFormed) (hother : d.other.WellFormed)
    {signals : Signals} {o : Outcome} (hrun : d.run signals = .ok o)
    (hdone : o.results.state = .finished) :
    ((d.examined signals).map Examination.unordered).Nodup ∧
      (∀ q, q ∈ (d.examined signals).map Examination.unordered ↔ q ∈ d.candidatePairs) ∧
      d.CountsExact o.results := by
  obtain ⟨hempty, rfl⟩ | ⟨_, tree, ht, rfl⟩ := cases_of_ok hrun
  · have hpairs := candidatePairs_of_isEmpty hother hempty
    refine ⟨?_, ?_, countsExact_nothing hother hempty⟩ <;>
      simp [examined, examinations_of_isEmpty hempty, hpairs]
  · have hdone := not_cancelled_of_finished hdone
    have hexamined : (d.examined signals).map Examination.unordered =
        (pairs d.setting tree).map fun p => s(p.1, p.2) := by
      rw [← pairs_examined ht hdone, List.map_map]
      rfl
    refine ⟨?_, fun q => ?_, countsExact_conclude hfirst hother ht hdone⟩
    · exact hexamined ▸ nodup_unordered hfirst.ids hother.ids ht
    · rw [hexamined, List.mem_map, mem_candidatePairs hfirst.ids ht]

theorem run_counts_exact_pinned : ∃ o, pinnedCheck.run (.constant false) = .ok o ∧
    o.results.state = .finished ∧ pinnedCheck.CountsExact o.results ∧
    o.results.metrics.totalCombinations = 4 := by
  obtain ⟨o, hrun, hdone⟩ := exists_run_pinnedCheck
  obtain ⟨_, _, h⟩ :=
    run_counts_exact (d := pinnedCheck) wellFormed_pinned wellFormed_pinned hrun hdone
  obtain ⟨s, t, he⟩ := entries_pinnedCheck
  have hitems : (pinnedCheck.items .first).1 = [tileEntry s, pinEntry t] := by
    rw [← he, entries, items_second_within rfl, List.append_nil]
  refine ⟨o, hrun, hdone, h, ?_⟩
  rw [h.combinations, otherItems, if_pos (by rfl : pinnedCheck.isSelfCheck = true), hitems]
  rfl

end SolidClash.Detection
