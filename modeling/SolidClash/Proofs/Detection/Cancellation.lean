import Mathlib.Data.List.Perm.Subperm
import SolidClash.Proofs.Detection.Complete
import SolidClash.Proofs.Detection.Trace

/-! A cancelled run examines the first pairs of the whole run, with the same effects. -/

namespace SolidClash

def Metrics.AtMost (m n : Metrics) : Prop :=
  m.totalObjects ≤ n.totalObjects ∧ m.objectsWithGeometry ≤ n.objectsWithGeometry ∧
    m.objectsWithoutGeometry ≤ n.objectsWithoutGeometry ∧
    m.objectsWithOpenGeometry ≤ n.objectsWithOpenGeometry ∧
    m.objectsWithUndecodableGeometry ≤ n.objectsWithUndecodableGeometry ∧
    m.totalCombinations ≤ n.totalCombinations ∧ m.checkedCombinations ≤ n.checkedCombinations ∧
    m.examinedPairs ≤ n.examinedPairs ∧ m.notEnoughData ≤ n.notEnoughData ∧ m.errors ≤ n.errors ∧
    m.clashVolumeErrors ≤ n.clashVolumeErrors ∧ m.clashes ≤ n.clashes

lemma Metrics.AtMost.refl (m : Metrics) : m.AtMost m := by simp [AtMost]

lemma Metrics.AtMost.trans {l m n : Metrics} (h : l.AtMost m) (h' : m.AtMost n) : l.AtMost n := by
  unfold AtMost at *
  omega

/-- Everything in the first results is in the second ones too, and no counter is larger. -/
structure Results.Within {α : Type} (r r' : Results α) : Prop where
  left : ∀ x y, y ∈ Adjacency.others r.left x → y ∈ Adjacency.others r'.left x
  right : ∀ x y, y ∈ Adjacency.others r.right x → y ∈ Adjacency.others r'.right x
  volumes : ∀ p, p ∈ r.volumes → p ∈ r'.volumes
  openMeshes : ∀ x, x ∈ r.openMeshes → x ∈ r'.openMeshes
  undecodableMeshes : ∀ x, x ∈ r.undecodableMeshes → x ∈ r'.undecodableMeshes
  metrics : r.metrics.AtMost r'.metrics

namespace Results.Within

variable {α : Type}

lemma refl (r : Results α) : r.Within r :=
  ⟨fun _ _ => id, fun _ _ => id, fun _ => id, fun _ => id, fun _ => id, .refl _⟩

lemma trans {r r' r'' : Results α} (h : r.Within r') (h' : r'.Within r'') : r.Within r'' where
  left x y hy := h'.left x y (h.left x y hy)
  right x y hy := h'.right x y (h.right x y hy)
  volumes p hp := h'.volumes p (h.volumes p hp)
  openMeshes x hx := h'.openMeshes x (h.openMeshes x hx)
  undecodableMeshes x hx := h'.undecodableMeshes x (h.undecodableMeshes x hx)
  metrics := h.metrics.trans h'.metrics

lemma of_metrics (r : Results α) {m : Metrics} (h : r.metrics.AtMost m) :
    r.Within { r with metrics := m } := { refl r with metrics := h }

end Results.Within

lemma Results.within_addClash {α : Type} (r : Results α) (a b : UInt64) :
    r.Within (r.addClash a b) where
  left x y hy := (r.mem_left_addClash a b x y).mpr (Or.inl hy)
  right x y hy := by
    rw [addClash]
    split
    · exact hy
    · exact (Adjacency.mem_others_add _ _ _ _ _).mpr (Or.inr hy)
  volumes _ := id
  openMeshes _ := id
  undecodableMeshes _ := id
  metrics := by simp [Metrics.AtMost, addClash]

lemma Results.within_setVolume {α : Type} (r : Results α) (a b : UInt64) (v : ClashVolume α) :
    r.Within (r.setVolume a b v) :=
  { Within.refl r with
    volumes := fun p hp => by
      rw [setVolume, Std.ExtTreeMap.mem_insert]
      exact Or.inr hp }

namespace Detection

namespace Tally

variable (s : Setting) (t : Tally)

lemma within_note (id : UInt64) (d : Decoded) : t.results.Within (t.note id d).results := by
  rw [note]
  cases d.closedness with
  | closed => exact .refl _
  | opened =>
    exact { Results.Within.refl t.results with
      openMeshes := fun x hx => Std.ExtTreeSet.mem_insert.mpr (Or.inr hx) }
  | undecodable =>
    exact { Results.Within.refl t.results with
      undecodableMeshes := fun x hx => Std.ExtTreeSet.mem_insert.mpr (Or.inr hx) }

lemma within_fetch (i : Item) : t.results.Within (t.fetch s i).2.results := by
  rw [fetch]
  cases t.meshes[meshId s i]? with
  | some d => exact t.within_note _ _
  | none =>
    cases freshMesh? s i with
    | none => exact .refl _
    | some m => exact within_note { t with meshes := t.meshes.insert (meshId s i) (.ofMesh m) } _ _

lemma within_clash (id : MeshId) (a b : Decoded) :
    t.results.Within (t.clash s id a b).2.results := by
  rw [clash]
  dsimp only
  split
  · exact .refl _
  · cases s.options.strategy with
    | bruteForce => exact .refl _
    | triangleOctree =>
      cases b.withIndex s.options.maxOctreeDepth with
      | some index => exact .refl _
      | none => exact .of_metrics _ (by simp [Metrics.AtMost])

lemma within_volume (a b : Decoded) : t.results.Within (t.volume s a b).2.results := by
  rw [volume]
  split
  · dsimp only
    cases s.solver t.solved.length a.mesh b.mesh with
    | ok solid => exact .refl _
    | error e => exact .of_metrics _ (by simp [Metrics.AtMost])
  · exact .refl _

lemma within_record (a b : UInt64) (v : Option (ClashVolume Float)) :
    t.results.Within (t.record s a b v).results := by
  simp only [record]
  cases v with
  | none => exact t.results.within_addClash a b
  | some v =>
    dsimp only
    split
    · dsimp only
      split
      · exact (t.results.within_addClash a b).trans (Results.within_setVolume _ a b v)
      · exact t.results.within_addClash a b
    · exact .refl _

lemma within_compare (a b : Item) : t.results.Within (t.compare s a b).results := by
  have hcount : t.results.Within
      (t.countWith fun m => { m with examinedPairs := m.examinedPairs + 1 }).results :=
    .of_metrics _ (by simp [Metrics.AtMost])
  have hboth : t.results.Within (t.fetchBoth s a b).2.results :=
    (hcount.trans (within_fetch s _ a)).trans (within_fetch s _ b)
  rw [compare_eq]
  generalize t.fetchBoth s a b = both at hboth
  obtain ⟨_ | ⟨da, db⟩, t⟩ := both
  · exact hboth.trans (.of_metrics _ (by simp [Metrics.AtMost]))
  · dsimp only
    split
    · exact ((hboth.trans (within_clash s _ _ _ _)).trans (within_volume s _ _ _)).trans
        (within_record s _ _ _ _)
    · exact hboth.trans (within_clash s _ _ _ _)

lemma within_take (st : Step) : t.results.Within (t.take s st).results := by
  cases st with
  | poll => exact .refl _
  | examine a b =>
    rw [take, examine]
    split
    · exact t.within_compare s _ _
    · exact .refl _
  | finish a =>
    rw [take, finish_eq]
    exact .of_metrics _ (by simp [Metrics.AtMost])

lemma within_foldl (steps : List Step) :
    t.results.Within (steps.foldl (take s) t).results := by
  induction steps generalizing t with
  | nil => exact .refl _
  | cons st steps ih => exact (t.within_take s st).trans (ih _)

end Tally

lemma size_le_length {u : Std.ExtTreeSet UInt64} {l : List UInt64} (h : ∀ x, x ∈ u → x ∈ l) :
    u.size ≤ l.length := by
  have hu : u.toList.Nodup := u.distinct_toList.imp fun hne heq => hne (by simp [heq])
  rw [← Std.ExtTreeSet.length_toList]
  exact (hu.subperm fun x hx => h x (Std.ExtTreeSet.mem_toList.mp hx)).length_le

lemma size_le_of_subset {u v : Std.ExtTreeSet UInt64} (h : ∀ x, x ∈ u → x ∈ v) :
    u.size ≤ v.size :=
  (size_le_length fun x hx => Std.ExtTreeSet.mem_toList.mpr (h x hx)).trans_eq
    Std.ExtTreeSet.length_toList

lemma within_conclude {p p' : Progress} (h : p.tally.results.Within p'.tally.results) :
    (conclude p).results.Within (conclude p').results :=
  { h with
    metrics := by
      have hopen := size_le_of_subset h.openMeshes
      have hbad := size_le_of_subset h.undecodableMeshes
      have hm := h.metrics
      simp only [Metrics.AtMost, conclude] at hm ⊢
      omega }

lemma results_conclude {p p' : Progress} (h : p.tally.results = p'.tally.results)
    (hc : p.monitor.cancelled = p'.monitor.cancelled) :
    (conclude p).results = (conclude p').results := by
  simp [conclude, h, hc]

lemma Progress.exists_rest {s s' : Setting} (hs : Tally.take s = Tally.take s')
    (signals : Signals) {signals' : Signals} (p p' : Progress) (hp : p.tally = p'.tally)
    {steps : List Step} (hdone : (run s' signals' steps p').monitor.cancelled = false) :
    ∃ rest, taken s signals steps p ++ rest = taken s' signals' steps p' ∧
      (run s' signals' steps p').tally = rest.foldl (Tally.take s) (run s signals steps p).tally ∧
      ((run s signals steps p).monitor.cancelled = false → rest = []) := by
  obtain ⟨rest, hrest⟩ := prefix_taken s signals steps p
  rw [tally_run, tally_run, taken_of_not_cancelled _ _ _ hdone]
  refine ⟨rest, hrest, ?_, fun hend => ?_⟩
  · rw [← List.foldl_append, hrest, hs, hp]
  · simpa [taken_of_not_cancelled _ _ _ hend] using hrest

variable (d : Detection)

def atInterval (interval : ℕ) : Detection :=
  { d with options := { d.options with progressInterval := interval } }

variable {d} {i j : ℕ}

lemma take_atInterval :
    Tally.take (d.atInterval i).setting = Tally.take (d.atInterval j).setting := rfl

lemma examinations_atInterval (sts : List Step) (t : Tally) :
    t.examinations (d.atInterval i).setting sts = t.examinations (d.atInterval j).setting sts := by
  induction sts generalizing t with
  | nil => rfl
  | cons st sts ih =>
    cases st with
    | poll => exact ih t
    | examine a b => exact congrArg _ (ih _)
    | finish a => exact ih _

/-- Whatever the clock and the sink do, and however often reports are due: either both runs fail
alike, or the pairs that one of them examines are, with their effects, the first ones of a run that
ends by itself, and so are its results contained in those of that run. If it ends by itself too, the
results are the same. -/
theorem run_within_uncancelled (d : Detection) (i j : ℕ) (signals signals' : Signals) :
    (∀ e, (d.atInterval i).run signals = .error e ↔ (d.atInterval j).run signals' = .error e) ∧
      ∀ o o', (d.atInterval i).run signals = .ok o → (d.atInterval j).run signals' = .ok o' →
        o'.results.state = .finished →
        (d.atInterval i).examinations signals <+: (d.atInterval j).examinations signals' ∧
          o.results.Within o'.results ∧
          (o.results.state = .finished → o.results = o'.results) := by
  have hrules : (d.atInterval i).rules = (d.atInterval j).rules := rfl
  have hbounds : (d.atInterval i).bounds = (d.atInterval j).bounds := rfl
  have htree : (d.atInterval i).tree? = (d.atInterval j).tree? := rfl
  have hnothing : (d.atInterval i).nothing = (d.atInterval j).nothing := rfl
  rw [run_eq, run_eq, hrules, hbounds, htree, hnothing]
  cases (d.atInterval j).rules.fault? with
  | some e => simp
  | none =>
    dsimp only
    split
    · rename_i hempty
      refine ⟨fun e => Iff.rfl, ?_⟩
      rintro o o' ⟨⟩ ⟨⟩ -
      rw [examinations_of_isEmpty (d := d.atInterval i) hempty]
      exact ⟨List.nil_prefix, .refl _, fun _ => rfl⟩
    · cases ht : (d.atInterval j).tree? (d.atInterval j).bounds with
      | error e => simp
      | ok tree =>
        refine ⟨by simp, ?_⟩
        rintro o o' ⟨⟩ ⟨⟩ hdone
        have hdone := not_cancelled_of_finished hdone
        obtain ⟨rest, hrest, htally, hend⟩ := Progress.exists_rest (take_atInterval (i := i))
          signals (d.atInterval i).start (d.atInterval j).start rfl hdone
        rw [examinations_ok (d := d.atInterval i) ht, examinations_ok ht,
          examinations_atInterval (j := j)]
        refine ⟨?_, within_conclude ?_, fun hfinished => ?_⟩
        · rw [← hrest, Tally.examinations_append]
          exact List.prefix_append _ _
        · rw [htally]
          exact Tally.within_foldl _ _ rest
        · have hself := not_cancelled_of_finished hfinished
          rw [hend hself] at htally
          exact results_conclude (congrArg Tally.results htally.symm) (hself.trans hdone.symm)

open Octree

def shallowCheck : Detection := { pinnedCheck with options := { maxOctreeDepth := 0 } }

def shallowTree (es : List Entry) : Index :=
  ⟨.mk (.root shallowCheck.bounds) es.toArray (.const none), 0, es.length⟩

lemma tree_shallowCheck {s t : TypeId} (h : shallowCheck.entries = [tileEntry s, pinEntry t]) :
    shallowCheck.tree? shallowCheck.bounds = .ok (shallowTree [tileEntry s, pinEntry t]) := by
  have hroot : ¬ (shallowCheck.bounds.IsEmpty ∨ ¬ shallowCheck.bounds.IsFinite) := by
    decide +kernel
  have htile : shallowCheck.bounds.Fits (tileEntry s).bounds := by
    change shallowCheck.bounds.Fits (tileGeometry.bounds.scaled 1.0)
    decide +kernel
  have hpin : shallowCheck.bounds.Fits (pinEntry t).bounds := by
    change shallowCheck.bounds.Fits (pinGeometry.bounds.scaled 1.0)
    decide +kernel
  have hdepth : shallowCheck.options.maxOctreeDepth = 0 := rfl
  simp only [tree?, h, Octree.new, hroot, hdepth, ↓reduceIte, bind, Except.bind, insertAll,
    Octree.insert, Octree.bounds, Node.bare, Node.bounds, Node.place, Place.root, htile, hpin,
    Node.insert]
  rfl

lemma candidates_shallowTree (es : List Entry) {a : Entry}
    (ha : shallowCheck.bounds.Clashes a.bounds) :
    Step.candidates shallowCheck.setting (shallowTree es) [] a = es := by
  have hself (i : Item) : shallowCheck.setting.isCandidate i = true := rfl
  simp [Step.candidates, walkUpDown, walkUp, walkDown, visitedUp, visitedDown, climb,
    descendLevels, spot?, node?, shallowTree, Spot.bounds, Spot.entries, Node.bounds, Node.place,
    Place.root, Node.entries, Visit.when, ha, hself]

lemma schedule_shallowTree (s t : TypeId) :
    Step.schedule shallowCheck.setting (shallowTree [tileEntry s, pinEntry t]) =
      [.poll, .examine (tileEntry s) (tileEntry s), .poll, .examine (tileEntry s) (pinEntry t),
        .poll, .finish (tileEntry s), .poll, .examine (pinEntry t) (tileEntry s), .poll,
        .examine (pinEntry t) (pinEntry t), .poll, .finish (pinEntry t)] := by
  have htile : shallowCheck.bounds.Clashes (tileEntry s).bounds := by
    change shallowCheck.bounds.Clashes (tileGeometry.bounds.scaled 1.0)
    decide +kernel
  have hpin : shallowCheck.bounds.Clashes (pinEntry t).bounds := by
    change shallowCheck.bounds.Clashes (pinGeometry.bounds.scaled 1.0)
    decide +kernel
  have hanchors : Step.anchors shallowCheck.setting (shallowTree [tileEntry s, pinEntry t]) =
      [([], tileEntry s), ([], pinEntry t)] := rfl
  simp [Step.schedule, hanchors, Step.ofAnchor, candidates_shallowTree _ htile,
    candidates_shallowTree _ hpin]

def stopped : Signals := ⟨fun _ => 0, fun k => 1 < k⟩

lemma exists_runs_shallowCheck : ∃ o o',
    (shallowCheck.atInterval 0).run stopped = .ok o ∧ o.results.state = .cancelled ∧
      o.reports.length = 3 ∧
      ((shallowCheck.atInterval 0).examinations stopped).map
        (fun e => (e.anchor.value.object.id, e.candidate.value.object.id)) = [(1, 1), (1, 2)] ∧
      (shallowCheck.atInterval 7).run (.constant false) = .ok o' ∧
      o'.results.state = .finished := by
  obtain ⟨s, t, hentries⟩ := entries_pinnedCheck
  have htree (i : ℕ) : (shallowCheck.atInterval i).tree? (shallowCheck.atInterval i).bounds =
      .ok (shallowTree [tileEntry s, pinEntry t]) := tree_shallowCheck hentries
  have hsteps (i : ℕ) : Step.schedule (shallowCheck.atInterval i).setting _ = _ :=
    schedule_shallowTree s t
  have hrules : shallowCheck.rules.fault? = none := fault?_eq_none (by decide +kernel) rfl
  have hbounds : ¬ shallowCheck.bounds.IsEmpty := by decide +kernel
  have hrun (i : ℕ) (signals : Signals) :=
    run_ok (d := shallowCheck.atInterval i) hrules hbounds (htree i) signals
  obtain ⟨o, ho⟩ : ∃ o, (shallowCheck.atInterval 0).run stopped = .ok o := ⟨_, hrun _ _⟩
  obtain ⟨o', ho'⟩ : ∃ o', (shallowCheck.atInterval 7).run (.constant false) = .ok o' :=
    ⟨_, hrun _ _⟩
  have hstopped : o.results.state = .cancelled ∧ o.reports.length = 3 := by
    obtain rfl := Except.ok.inj ((hrun _ _).symm.trans ho)
    rw [hsteps 0]
    exact ⟨rfl, rfl⟩
  have hdone : o'.results.state = .finished := by
    obtain rfl := Except.ok.inj ((hrun _ _).symm.trans ho')
    rw [hsteps 7]
    rfl
  refine ⟨o, o', ho, hstopped.1, hstopped.2, ?_, ho', hdone⟩
  rw [examinations_ok (htree 0), hsteps 0]
  rfl

theorem run_within_uncancelled_stopped : ∃ o o',
    (shallowCheck.atInterval 0).run stopped = .ok o ∧ o.results.state = .cancelled ∧
      (shallowCheck.atInterval 7).run (.constant false) = .ok o' ∧
      o'.results.state = .finished ∧
      ((shallowCheck.atInterval 0).examinations stopped).map
        (fun e => (e.anchor.value.object.id, e.candidate.value.object.id)) = [(1, 1), (1, 2)] ∧
      (shallowCheck.atInterval 0).examinations stopped <+:
        (shallowCheck.atInterval 7).examinations (.constant false) ∧
      o.results.Within o'.results := by
  obtain ⟨o, o', ho, hstopped, _, hexamined, ho', hdone⟩ := exists_runs_shallowCheck
  obtain ⟨_, h⟩ := run_within_uncancelled shallowCheck 0 7 stopped (.constant false)
  obtain ⟨hpairs, hwithin, _⟩ := h o o' ho ho' hdone
  exact ⟨o, o', ho, hstopped, ho', hdone, hexamined, hpairs, hwithin⟩

end Detection

end SolidClash
