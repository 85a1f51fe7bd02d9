import Mathlib.Algebra.Order.BigOperators.Group.List
import Mathlib.Algebra.Order.Ring.Nat
import SolidClash.Proofs.Detection.Cancellation
import SolidClash.Proofs.Detection.Counters

namespace SolidClash

namespace Metrics

def counters (m : Metrics) : List ℕ :=
  [m.totalObjects, m.objectsWithGeometry, m.objectsWithoutGeometry, m.objectsWithOpenGeometry,
    m.objectsWithUndecodableGeometry, m.totalCombinations, m.checkedCombinations, m.examinedPairs,
    m.notEnoughData, m.errors, m.clashVolumeErrors, m.clashes]

def standing (m : Metrics) : Metrics :=
  { m with
    checkedCombinations := 0, examinedPairs := 0, notEnoughData := 0, errors := 0
    clashVolumeErrors := 0, clashes := 0 }

/-- On the way from `m` to `m'` at most `n` pairs are compared and `c` combinations are done. -/
structure Advance (n c : ℕ) (m m' : Metrics) : Prop where
  standing : m'.standing = m.standing
  checked : m'.checkedCombinations = m.checkedCombinations + c
  examined : m'.examinedPairs ≤ m.examinedPairs + n
  missing : m'.notEnoughData ≤ m.notEnoughData + n
  errors : m'.errors ≤ m.errors + n
  failed : m'.clashVolumeErrors ≤ m.clashVolumeErrors + n
  clashes : m'.clashes ≤ m.clashes + n

lemma Advance.refl (m : Metrics) : Advance 0 0 m m := by constructor <;> simp

lemma Advance.trans {n c n' c' : ℕ} {m m' m'' : Metrics} (h : Advance n c m m')
    (h' : Advance n' c' m' m'') : Advance (n + n') (c + c') m m'' where
  standing := h'.standing.trans h.standing
  checked := by rw [h'.checked, h.checked, Nat.add_assoc]
  examined := by have := h.examined; have := h'.examined; omega
  missing := by have := h.missing; have := h'.missing; omega
  errors := by have := h.errors; have := h'.errors; omega
  failed := by have := h.failed; have := h'.failed; omega
  clashes := by have := h.clashes; have := h'.clashes; omega

end Metrics

namespace Detection

namespace Tally

variable (s : Setting) (t : Tally)

lemma metrics_note (id : UInt64) (d : Decoded) :
    (t.note id d).results.metrics = t.results.metrics := by
  rw [note]
  cases d.closedness <;> rfl

lemma metrics_fetch (i : Item) : (t.fetch s i).2.results.metrics = t.results.metrics := by
  rw [fetch]
  cases t.meshes[meshId s i]? with
  | some d => exact t.metrics_note _ _
  | none =>
    cases freshMesh? s i with
    | none => rfl
    | some m => exact metrics_note { t with meshes := t.meshes.insert (meshId s i) (.ofMesh m) } _ _

lemma metrics_fetchBoth (a b : Item) : (t.fetchBoth s a b).2.results.metrics =
    { t.results.metrics with examinedPairs := t.results.metrics.examinedPairs + 1 } :=
  (metrics_fetch s _ b).trans (metrics_fetch s _ a)

lemma exists_metrics_clash (id : MeshId) (a b : Decoded) : ∃ k ≤ 1,
    (t.clash s id a b).2.results.metrics =
      { t.results.metrics with errors := t.results.metrics.errors + k } := by
  rw [clash]
  dsimp only
  split
  · exact ⟨0, by omega, rfl⟩
  · cases s.options.strategy with
    | bruteForce => exact ⟨0, by omega, rfl⟩
    | triangleOctree =>
      cases b.withIndex s.options.maxOctreeDepth with
      | some index => exact ⟨0, by omega, rfl⟩
      | none => exact ⟨_, by split <;> omega, rfl⟩

lemma exists_metrics_volume (a b : Decoded) : ∃ k ≤ 1,
    (t.volume s a b).2.results.metrics =
      { t.results.metrics with
        clashVolumeErrors := t.results.metrics.clashVolumeErrors + k } := by
  rw [volume]
  split
  · dsimp only
    cases s.solver t.solved.length a.mesh b.mesh with
    | ok solid => exact ⟨0, by omega, rfl⟩
    | error e => exact ⟨1, by omega, rfl⟩
  · exact ⟨0, by omega, rfl⟩

lemma exists_metrics_record (a b : UInt64) (v : Option (ClashVolume Float)) : ∃ k ≤ 1,
    (t.record s a b v).results.metrics =
      { t.results.metrics with clashes := t.results.metrics.clashes + k } := by
  have hclash : ∃ k ≤ 1, (t.results.addClash a b).metrics =
      { t.results.metrics with clashes := t.results.metrics.clashes + k } :=
    ⟨_, by split <;> omega, rfl⟩
  simp only [record]
  cases v with
  | none => exact hclash
  | some v =>
    dsimp only
    split
    · cases s.rules.computeVolumes <;> exact hclash
    · exact ⟨0, by omega, rfl⟩

lemma advance_compare (a b : Item) :
    Metrics.Advance 1 0 t.results.metrics (t.compare s a b).results.metrics := by
  have hboth := metrics_fetchBoth s t a b
  rw [compare_eq]
  generalize t.fetchBoth s a b = both at hboth
  obtain ⟨_ | ⟨da, db⟩, u⟩ := both
  · dsimp only [countWith] at hboth ⊢
    rw [hboth]
    constructor <;> simp [Metrics.standing]
  · obtain ⟨i, hi, hclash⟩ := exists_metrics_clash s u (meshId s b) da db
    dsimp only at hboth ⊢
    rw [hboth] at hclash
    split
    · obtain ⟨j, hj, hvolume⟩ := exists_metrics_volume s (u.clash s (meshId s b) da db).2 da db
      obtain ⟨k, hk, hrecord⟩ := exists_metrics_record s
        ((u.clash s (meshId s b) da db).2.volume s da db).2 a.object.id b.object.id
        ((u.clash s (meshId s b) da db).2.volume s da db).1
      rw [hrecord, hvolume, hclash]
      constructor <;> simp [Metrics.standing, hi, hj, hk]
    · rw [hclash]
      constructor <;> simp [Metrics.standing, hi]

end Tally

namespace Step

def isExamine : Step → Bool
  | examine _ _ => true
  | _ => false

def isFinish : Step → Bool
  | finish _ => true
  | _ => false

end Step

lemma Tally.advance_take (s : Setting) (t : Tally) (st : Step) :
    Metrics.Advance (if st.isExamine then 1 else 0) (if st.isFinish then s.secondCount else 0)
      t.results.metrics (t.take s st).results.metrics := by
  cases st with
  | poll => exact .refl _
  | finish a =>
    rw [take, finish_eq]
    constructor <;> simp [Metrics.standing, withBooks, Step.isExamine, Step.isFinish]
  | examine a c =>
    change Metrics.Advance 1 0 _ (t.examine s a c).results.metrics
    rw [examine]
    split
    · exact t.advance_compare s _ _
    · constructor <;> simp

lemma Tally.advance_foldl (s : Setting) (sts : List Step) (t : Tally) :
    Metrics.Advance (sts.countP Step.isExamine) (sts.countP Step.isFinish * s.secondCount)
      t.results.metrics (sts.foldl (take s) t).results.metrics := by
  induction sts generalizing t with
  | nil => simpa using .refl _
  | cons st sts ih =>
    have hexamined : (st :: sts).countP Step.isExamine =
        (if st.isExamine then 1 else 0) + sts.countP Step.isExamine := by
      rw [List.countP_cons, Nat.add_comm]
    have hchecked : (st :: sts).countP Step.isFinish * s.secondCount =
        (if st.isFinish then s.secondCount else 0) +
          sts.countP Step.isFinish * s.secondCount := by
      rw [List.countP_cons, Nat.add_mul, Nat.add_comm]
      split <;> simp
    rw [hexamined, hchecked]
    exact (t.advance_take s st).trans (ih (t.take s st))

namespace Step

variable {s : Setting} {t : Index}

lemma countP_isFinish_schedule :
    (schedule s t).countP isFinish = (anchors s t).length := by
  have hone (p : Octree.Path) (e : Entry) : (ofAnchor s t p e).countP isFinish = 1 := by
    simp [ofAnchor, List.countP_flatMap, Function.comp_def, isFinish]
  simp [schedule, List.countP_flatMap, Function.comp_def, hone]

lemma countP_isExamine_ofAnchor (p : Octree.Path) (e : Entry) :
    (ofAnchor s t p e).countP isExamine = (candidates s t p e).length := by
  have hone (c : Entry) : [examine e c, poll].countP isExamine = 1 := rfl
  simp [ofAnchor, List.countP_flatMap, Function.comp_def, isExamine, hone]

end Step

lemma length_flatMap_le_of_subset {γ δ : Type} {l k : List γ} {g : γ → List δ} (hl : l.Nodup)
    (hs : l ⊆ k) : (l.flatMap g).length ≤ (k.flatMap g).length := by
  obtain ⟨m, hm, hsub⟩ := hl.subperm hs
  rw [← (hm.flatMap_right g).length_eq]
  exact (hsub.flatMap g).length_le

section Index

open Octree

variable {s : Setting} {b : Box Float} {depth : ℕ} {tree : Index} {es : List Entry}

lemma length_candidates_le (h : Grown b depth tree es) {p : Path} {a : Entry}
    (ha : (p, a) ∈ Step.anchors s tree) :
    (Step.candidates s tree p a).length ≤ es.countP fun e => s.isCandidate e.value := by
  obtain ⟨n, rfl, hna, _⟩ := mem_anchors.mp ha
  have hn := spot_self.mp ((mem_entries h.linked).mp hna).1
  have hwalk := (nodup_walkUpDown h.linked hn fun m => .when (m.bounds.Clashes a.bounds)).of_map
  have hperm : (tree.spots.flatMap Spot.entries).Perm es := orderOf_eq tree ▸ h.entries_perm
  rw [← hperm.countP_eq, List.countP_eq_length_filter, List.filter_flatMap]
  exact length_flatMap_le_of_subset hwalk fun m hm =>
    (mem_spots h.linked).mpr (spot_of_mem_walkUpDown h.linked hn hm)

lemma countP_isExamine_schedule_le (h : Grown b depth tree es) :
    (Step.schedule s tree).countP Step.isExamine ≤
      (Step.anchors s tree).length * es.countP fun e => s.isCandidate e.value := by
  rw [Step.schedule, List.countP_flatMap]
  refine (List.sum_le_card_nsmul _ (es.countP fun e => s.isCandidate e.value) ?_).trans_eq ?_
  · intro n hn
    obtain ⟨⟨p, a⟩, ha, rfl⟩ := List.mem_map.mp hn
    exact (Step.countP_isExamine_ofAnchor p a).trans_le (length_candidates_le h ha)
  · rw [List.length_map, smul_eq_mul]

variable {d : Detection}

lemma length_anchors (ht : d.tree? b = .ok tree) :
    (Step.anchors d.setting tree).length = (d.items .first).1.length := by
  have hperm := (grown_of_tree ht).entries_perm
  have hcount : (Step.anchors d.setting tree).length =
      d.entries.countP fun e => d.setting.isAnchor e.value := by
    rw [← hperm.countP_eq, List.countP_map, Step.anchors, List.length_map,
      ← List.countP_eq_length_filter]
    rfl
  have hfirst : ∀ e ∈ (d.items .first).1, d.setting.isAnchor e.value = true := fun e he => by
    simp [Setting.isAnchor, side_of_mem_items he]
  have hsecond : ∀ e ∈ (d.items .second).1, ¬ d.setting.isAnchor e.value = true := fun e he => by
    cases hs : d.isSelfCheck with
    | true => simp [items_second_within hs] at he
    | false => simp [Setting.isAnchor, setting, hs, side_of_mem_items he]
  rw [hcount, entries, List.countP_append, List.countP_eq_length.mpr hfirst,
    List.countP_eq_zero.mpr hsecond, Nat.add_zero]

lemma countP_isCandidate (d : Detection) :
    (d.entries.countP fun e => d.setting.isCandidate e.value) = d.setting.secondCount := by
  rw [entries, List.countP_append]
  cases hs : d.isSelfCheck with
  | true =>
    have hall : ∀ e ∈ (d.items .first).1, d.setting.isCandidate e.value = true := fun _ _ => by
      simp [Setting.isCandidate, setting, hs]
    rw [List.countP_eq_length.mpr hall, items_second_within hs]
    simp [setting, hs]
  | false =>
    have hfirst : ∀ e ∈ (d.items .first).1, ¬ d.setting.isCandidate e.value = true :=
      fun e he => by simp [Setting.isCandidate, setting, hs, side_of_mem_items he]
    have hsecond : ∀ e ∈ (d.items .second).1, d.setting.isCandidate e.value = true :=
      fun e he => by simp [Setting.isCandidate, side_of_mem_items he]
    rw [List.countP_eq_zero.mpr hfirst, List.countP_eq_length.mpr hsecond, Nat.zero_add]
    simp [setting, hs]

end Index

section Noted

variable {s : Setting} {t : Tally} {ids : List UInt64}

def Tally.NotesOnly (ids : List UInt64) (t : Tally) : Prop :=
  ∀ k x, x ∈ t.results.noted k → x ∈ ids

namespace Tally

lemma noted_notes (r : Results Float) (k : Mesh.Closedness) :
    (Detection.notes r).noted k = r.noted k := by
  cases k <;> rfl

lemma NotesOnly.of_notes {u : Tally} (h : t.NotesOnly ids)
    (hu : Detection.notes u.results = Detection.notes t.results) : u.NotesOnly ids := by
  intro k x hx
  rw [← noted_notes, hu, noted_notes] at hx
  exact h k x hx

lemma eq_or_mem_noted {id x : UInt64} {d : Decoded} {k : Mesh.Closedness}
    (h : x ∈ (t.note id d).results.noted k) : id = x ∨ x ∈ t.results.noted k := by
  rw [Tally.note] at h
  cases hd : d.closedness <;> cases k <;>
    simp_all [Results.noted, Std.ExtTreeSet.mem_insert]

lemma NotesOnly.note (h : t.NotesOnly ids) {id : UInt64} (hid : id ∈ ids) (d : Decoded) :
    (t.note id d).NotesOnly ids := by
  intro k x hx
  rcases eq_or_mem_noted hx with rfl | hx
  · exact hid
  · exact h k x hx

lemma NotesOnly.fetch (h : t.NotesOnly ids) {i : Item} (hi : i.object.id ∈ ids) :
    (t.fetch s i).2.NotesOnly ids := by
  rw [Tally.fetch]
  cases t.meshes[meshId s i]? with
  | some d => exact h.note hi d
  | none =>
    cases freshMesh? s i with
    | none => exact h
    | some m =>
      exact NotesOnly.note (t := { t with meshes := t.meshes.insert (meshId s i) (.ofMesh m) })
        h hi _

lemma NotesOnly.compare (h : t.NotesOnly ids) {a b : Item} (ha : a.object.id ∈ ids)
    (hb : b.object.id ∈ ids) : (t.compare s a b).NotesOnly ids := by
  have hcount : (t.countWith fun m => { m with examinedPairs := m.examinedPairs + 1 }).NotesOnly
      ids := h
  have hboth : (t.fetchBoth s a b).2.NotesOnly ids := (hcount.fetch ha).fetch hb
  rw [compare_eq]
  generalize t.fetchBoth s a b = both at hboth
  obtain ⟨_ | ⟨da, db⟩, u⟩ := both
  · exact hboth
  · have hclash := hboth.of_notes (notes_clash (s := s) (meshId s b) da db)
    dsimp only
    split
    · exact (hclash.of_notes (notes_volume da db)).of_notes (notes_record _ _ _)
    · exact hclash

lemma NotesOnly.foldl (h : t.NotesOnly ids) {sts : List Step}
    (hsts : ∀ a c, Step.examine a c ∈ sts →
      a.value.object.id ∈ ids ∧ c.value.object.id ∈ ids) :
    (sts.foldl (take s) t).NotesOnly ids := by
  induction sts generalizing t with
  | nil => exact h
  | cons st sts ih =>
    refine ih ?_ fun a c hac => hsts a c (List.mem_cons_of_mem _ hac)
    cases st with
    | poll => exact h
    | finish a =>
      rw [take, finish_eq]
      exact h
    | examine a c =>
      obtain ⟨ha, hc⟩ := hsts a c List.mem_cons_self
      rw [take, Tally.examine]
      split
      · exact h.compare ha hc
      · exact h

lemma NotesOnly.size_le (h : t.NotesOnly ids) (k : Mesh.Closedness) :
    (t.results.noted k).size ≤ ids.length := size_le_length (h k)

end Tally

lemma mem_of_examine_mem_schedule {b : Box Float} {depth : ℕ} {tree : Index} {es : List Entry}
    (h : Octree.Grown b depth tree es) {a c : Entry}
    (hac : Step.examine a c ∈ Step.schedule s tree) : a ∈ es ∧ c ∈ es := by
  obtain ⟨⟨p, a'⟩, ha, hmem⟩ := List.mem_flatMap.mp hac
  obtain ⟨n, rfl, hna, _⟩ := mem_anchors.mp ha
  have hnode := (mem_entries h.linked).mp hna
  have hmem : a = a' ∧ c ∈ Step.candidates s tree n.path a' := by
    simpa [Step.ofAnchor, eq_comm, and_comm] using hmem
  obtain ⟨rfl, hc⟩ := hmem
  obtain ⟨m, hm, hcm⟩ := List.mem_flatMap.mp hc
  exact ⟨h.mem_iff.mpr ⟨n, hnode⟩, h.mem_iff.mpr ⟨m,
    Octree.spot_of_mem_walkUpDown h.linked (Octree.spot_self.mp hnode.1) hm,
    List.mem_of_mem_filter hcm⟩⟩

end Noted

section Bounds

lemma counters_conclude_lt {p : Progress} {n : ℕ}
    (h : ∀ c ∈ p.tally.results.metrics.counters, c < n)
    (hsize : ∀ k, (p.tally.results.noted k).size < n) :
    ∀ c ∈ (conclude p).results.metrics.counters, c < n := by
  simp only [Metrics.counters, List.forall_mem_cons] at h ⊢
  obtain ⟨hobjects, hwith, hwithout, _, _, hrest⟩ := h
  exact ⟨hobjects, hwith, hwithout, hsize .opened, hsize .undecodable, hrest⟩

variable {d : Detection} {b : Box Float} {tree : Index} {sts : List Step}

lemma length_entries_le (d : Detection) : d.entries.length ≤ d.objectCount := by
  rw [d.objectCount_eq, entries, List.length_append]
  exact Nat.le_add_right _ _

lemma length_items_first_le (d : Detection) :
    (d.items .first).1.length ≤ d.first.objects.length :=
  (Nat.le_add_right _ _).trans_eq (length_indexable d.first .first d.length_types_first)

lemma secondCount_le (d : Detection) : d.setting.secondCount ≤ d.other.objects.length := by
  cases hs : d.isSelfCheck with
  | true => simpa [setting, other, hs] using d.length_items_first_le
  | false =>
    have hitems := length_indexable d.second .second (length_types_second hs)
    simp only [setting, other, hs, Bool.false_eq_true, ↓reduceIte, items_second_across hs]
    exact (Nat.le_add_right _ _).trans_eq hitems

lemma exists_advance (ht : d.tree? b = .ok tree) (h : sts <+: Step.schedule d.setting tree) :
    ∃ n k, n ≤ (d.items .first).1.length * d.setting.secondCount ∧
      k ≤ (d.items .first).1.length ∧
      Metrics.Advance n (k * d.setting.secondCount) d.start.tally.results.metrics
        (sts.foldl (Tally.take d.setting) d.start.tally).results.metrics := by
  refine ⟨_, _, ?_, ?_, d.start.tally.advance_foldl d.setting sts⟩
  · refine (h.sublist.countP_le (p := Step.isExamine)).trans ?_
    rw [← length_anchors ht, ← countP_isCandidate]
    exact countP_isExamine_schedule_le (grown_of_tree ht)
  · rw [← length_anchors ht, ← Step.countP_isFinish_schedule]
    exact h.sublist.countP_le

lemma notesOnly_foldl (ht : d.tree? b = .ok tree) (h : sts <+: Step.schedule d.setting tree) :
    (sts.foldl (Tally.take d.setting) d.start.tally).NotesOnly
      (d.entries.map fun e => e.value.object.id) := by
  refine Tally.NotesOnly.foldl (fun k x hx => ?_) fun a c hac => ?_
  · cases k <;> simp [Results.noted, start, blank] at hx
  · obtain ⟨ha, hc⟩ := mem_of_examine_mem_schedule (grown_of_tree ht) (h.subset hac)
    exact ⟨List.mem_map_of_mem ha, List.mem_map_of_mem hc⟩

variable (hfirst : d.first.objects.length < UInt32.size)
  (hother : d.other.objects.length < UInt32.size)

include hfirst hother

lemma objectCount_lt : d.objectCount < UInt64.size := by
  have hcount : d.objectCount ≤ d.first.objects.length + d.other.objects.length := by
    rw [objectCount, other]
    cases d.isSelfCheck <;> simp
  simp only [UInt32.size, UInt64.size] at *
  omega

lemma combinations_lt : (d.items .first).1.length * d.setting.secondCount < UInt64.size := by
  refine (Nat.mul_le_mul d.length_items_first_le d.secondCount_le).trans_lt ?_
  exact Nat.mul_lt_mul'' hfirst hother

lemma counters_foldl_lt (ht : d.tree? b = .ok tree) (h : sts <+: Step.schedule d.setting tree) :
    ∀ c ∈ (sts.foldl (Tally.take d.setting) d.start.tally).results.metrics.counters,
      c < UInt64.size := by
  obtain ⟨n, k, hn, hk, hm⟩ := exists_advance ht h
  have hobjects := objectCount_lt hfirst hother
  have hsplit := d.objectCount_eq
  have hpairs := combinations_lt hfirst hother
  have hchecked := Nat.mul_le_mul_right d.setting.secondCount hk
  have hstanding {f : Metrics → ℕ} (hf : ∀ m, f m.standing = f m) :
      f _ = f d.start.tally.results.metrics :=
    (hf _).symm.trans ((congrArg f hm.standing).trans (hf _))
  have hstart : d.start.tally.results.metrics =
      { totalObjects := d.objectCount
        objectsWithGeometry := (d.items .first).1.length + (d.items .second).1.length
        objectsWithoutGeometry := (d.items .first).2 + (d.items .second).2
        totalCombinations := (d.items .first).1.length * d.setting.secondCount } := rfl
  obtain ⟨_, hc, he, hl, hr, hf, hx⟩ := hm
  simp only [Metrics.counters, List.forall_mem_cons, List.not_mem_nil, IsEmpty.forall_iff,
    implies_true, and_true]
  rw [hstanding (f := Metrics.totalObjects) fun _ => rfl,
    hstanding (f := Metrics.objectsWithGeometry) fun _ => rfl,
    hstanding (f := Metrics.objectsWithoutGeometry) fun _ => rfl,
    hstanding (f := Metrics.objectsWithOpenGeometry) fun _ => rfl,
    hstanding (f := Metrics.objectsWithUndecodableGeometry) fun _ => rfl,
    hstanding (f := Metrics.totalCombinations) fun _ => rfl]
  rw [hstart] at *
  simp only [Nat.zero_add] at *
  omega

lemma counters_lt {signals : Signals} {o : Outcome} (h : d.run signals = .ok o) :
    ∀ c ∈ o.results.metrics.counters, c < UInt64.size := by
  have hobjects := objectCount_lt hfirst hother
  obtain ⟨_, rfl⟩ | ⟨_, tree, ht, rfl⟩ := cases_of_ok h
  · simpa [nothing, Metrics.counters, UInt64.size] using hobjects
  · have hprefix :=
      Progress.prefix_taken d.setting signals (Step.schedule d.setting tree) d.start
    have hall := counters_foldl_lt hfirst hother ht hprefix
    have hnotes := notesOnly_foldl ht hprefix
    rw [← Progress.tally_run] at hall hnotes
    have hids : (d.entries.map fun e => e.value.object.id).length < UInt64.size := by
      rw [List.length_map]
      exact d.length_entries_le.trans_lt hobjects
    exact counters_conclude_lt hall fun k => (hnotes.size_le k).trans_lt hids

end Bounds

end Detection

end SolidClash
