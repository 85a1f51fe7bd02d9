import Mathlib.Data.List.Infix
import SolidClash.Detection

/-! A run takes a prefix of its schedule, and what it finds out is what comparing the pairs worth it
gives. -/

namespace SolidClash.Detection

def Tally.take (s : Setting) (t : Tally) : Step → Tally
  | .poll => t
  | .examine a b => t.examine s a b
  | .finish a => t.finish s a

lemma Progress.tally_step (s : Setting) (signals : Signals) (p : Progress) (st : Step) :
    (p.step s signals st).tally = p.tally.take s st := by
  cases st <;> rfl

namespace Progress

def taken (s : Setting) (signals : Signals) : List Step → Progress → List Step
  | [], _ => []
  | st :: sts, p =>
    let p := p.step s signals st
    st :: if p.monitor.cancelled then [] else taken s signals sts p

variable (s : Setting) (signals : Signals) (steps : List Step) (p : Progress)

lemma prefix_taken : taken s signals steps p <+: steps := by
  induction steps generalizing p with
  | nil => exact List.prefix_rfl
  | cons st steps ih =>
    rw [taken, List.prefix_cons_inj]
    split
    · exact List.nil_prefix
    · exact ih _

lemma tally_run :
    (run s signals steps p).tally = (taken s signals steps p).foldl (Tally.take s) p.tally := by
  induction steps generalizing p with
  | nil => rfl
  | cons st steps ih =>
    by_cases hc : (p.step s signals st).monitor.cancelled
    · simp [run, taken, hc, tally_step]
    · simp [run, taken, hc, ih, tally_step]

variable {p}

lemma taken_of_not_cancelled (h : (run s signals steps p).monitor.cancelled = false) :
    taken s signals steps p = steps := by
  induction steps generalizing p with
  | nil => rfl
  | cons st steps ih =>
    by_cases hc : (p.step s signals st).monitor.cancelled
    · simp [run, hc] at h
    · simp only [run, hc, Bool.false_eq_true, ↓reduceIte] at h
      simp [taken, hc, ih h]

lemma tally_of_not_cancelled (h : (run s signals steps p).monitor.cancelled = false) :
    (run s signals steps p).tally = steps.foldl (Tally.take s) p.tally := by
  rw [tally_run, taken_of_not_cancelled _ _ _ h]

end Progress

lemma Progress.not_cancelled_run {signals : Signals} (h : ∀ k, signals.cancelled k = false)
    (s : Setting) (steps : List Step) {p : Progress} (hp : p.monitor.cancelled = false) :
    (run s signals steps p).monitor.cancelled = false := by
  induction steps generalizing p with
  | nil => exact hp
  | cons st steps ih =>
    have hstep : (p.step s signals st).monitor.cancelled = false := by
      cases st with
      | poll =>
        dsimp only [step, Monitor.poll]
        split
        · exact h _
        · exact hp
      | examine a b => exact hp
      | finish a => exact hp
    simp only [run, hstep, Bool.false_eq_true, ↓reduceIte]
    exact ih hstep

/-- A change of counters that no comparison looks at or touches. -/
structure Aside (g : Metrics → Metrics) : Prop where
  examined : ∀ m, g { m with examinedPairs := m.examinedPairs + 1 } =
    { g m with examinedPairs := (g m).examinedPairs + 1 }
  missing : ∀ m, g { m with notEnoughData := m.notEnoughData + 1 } =
    { g m with notEnoughData := (g m).notEnoughData + 1 }
  errors : ∀ m k, g { m with errors := m.errors + k } = { g m with errors := (g m).errors + k }
  volumeErrors : ∀ m, g { m with clashVolumeErrors := m.clashVolumeErrors + 1 } =
    { g m with clashVolumeErrors := (g m).clashVolumeErrors + 1 }
  clashes : ∀ m k, g { m with clashes := m.clashes + k } = { g m with clashes := (g m).clashes + k }

namespace Tally

def aside (t : Tally) (finished : Std.HashSet UInt64) (g : Metrics → Metrics) : Tally :=
  { t with finished, results := { t.results with metrics := g t.results.metrics } }

section Aside

variable (s : Setting) (t : Tally) (f : Std.HashSet UInt64) {g : Metrics → Metrics}

lemma note_aside (id : UInt64) (d : Decoded) :
    (t.aside f g).note id d = (t.note id d).aside f g := by
  simp only [note]
  cases d.closedness <;> rfl

lemma fetch_aside (i : Item) :
    (t.aside f g).fetch s i = ((t.fetch s i).1, (t.fetch s i).2.aside f g) := by
  have hm : (t.aside f g).meshes = t.meshes := rfl
  simp only [fetch]
  rw [hm]
  cases t.meshes[meshId s i]? with
  | some d => simp only [note_aside]
  | none =>
    cases freshMesh? s i with
    | none => rfl
    | some m =>
      let t' := { t with meshes := t.meshes.insert (meshId s i) (.ofMesh m) }
      exact Prod.ext rfl (note_aside t' f _ _)

lemma clash_aside (hg : Aside g) (id : MeshId) (a b : Decoded) :
    (t.aside f g).clash s id a b = ((t.clash s id a b).1, (t.clash s id a b).2.aside f g) := by
  unfold clash
  dsimp only
  split
  · rfl
  · cases s.options.strategy with
    | bruteForce => rfl
    | triangleOctree =>
      cases b.withIndex s.options.maxOctreeDepth with
      | some index => rfl
      | none => simp only [aside, countWith, hg.errors]

lemma volume_aside (hg : Aside g) (a b : Decoded) :
    (t.aside f g).volume s a b = ((t.volume s a b).1, (t.volume s a b).2.aside f g) := by
  have hs : (t.aside f g).solved = t.solved := rfl
  simp only [volume]
  rw [hs]
  split
  · cases s.solver t.solved.length a.mesh b.mesh with
    | ok solid => rfl
    | error e => simp only [aside, countWith, hg.volumeErrors]
  · rfl

lemma record_aside (hg : Aside g) (a b : UInt64) (v : Option (ClashVolume Float)) :
    (t.aside f g).record s a b v = (t.record s a b v).aside f g := by
  have hclash : (t.aside f g).results.addClash a b =
      { t.results.addClash a b with metrics := g (t.results.addClash a b).metrics } := by
    simp only [Results.addClash, hg.clashes]
    rfl
  simp only [record]
  cases v with
  | none =>
    rw [hclash]
    rfl
  | some v =>
    dsimp only
    rw [hclash]
    split
    · cases s.rules.computeVolumes <;> rfl
    · rfl

def fetchBoth (s : Setting) (a b : Item) (t : Tally) : Option (Decoded × Decoded) × Tally :=
  let t := t.countWith fun m => { m with examinedPairs := m.examinedPairs + 1 }
  let fa := t.fetch s a
  let fb := fa.2.fetch s b
  (fa.1.bind fun da => fb.1.map fun db => (da, db), fb.2)

lemma compare_eq (a b : Item) :
    t.compare s a b =
      match t.fetchBoth s a b with
      | (none, t) => t.countWith fun m => { m with notEnoughData := m.notEnoughData + 1 }
      | (some (da, db), t) =>
        let hit := t.clash s (meshId s b) da db
        if hit.1 then
          let v := hit.2.volume s da db
          v.2.record s a.object.id b.object.id v.1
        else hit.2 := by
  rw [compare, fetchBoth]
  generalize (t.countWith fun m => { m with examinedPairs := m.examinedPairs + 1 }).fetch s a = fa
  obtain ⟨da, t⟩ := fa
  dsimp only
  generalize t.fetch s b = fb
  obtain ⟨db, t⟩ := fb
  cases da <;> cases db <;> rfl

lemma fetchBoth_aside (hg : Aside g) (a b : Item) :
    (t.aside f g).fetchBoth s a b = ((t.fetchBoth s a b).1, (t.fetchBoth s a b).2.aside f g) := by
  have hexamined :
      (t.aside f g).countWith (fun m => { m with examinedPairs := m.examinedPairs + 1 }) =
        (t.countWith fun m => { m with examinedPairs := m.examinedPairs + 1 }).aside f g := by
    simp only [countWith, aside, hg.examined]
  simp only [fetchBoth, hexamined, fetch_aside]

lemma compare_aside (hg : Aside g) (a b : Item) :
    (t.aside f g).compare s a b = (t.compare s a b).aside f g := by
  rw [compare_eq, compare_eq, fetchBoth_aside s t f hg]
  generalize t.fetchBoth s a b = both
  obtain ⟨_ | ⟨da, db⟩, t⟩ := both
  · simp only [countWith, aside, hg.missing]
  · simp only [clash_aside s _ f hg, volume_aside s _ f hg, record_aside s _ f hg]
    split <;> rfl

end Aside

def withBooks (t : Tally) (finished : Std.HashSet UInt64) (checked : ℕ) : Tally :=
  { t with
    finished
    results := { t.results with
      metrics := { t.results.metrics with checkedCombinations := checked } } }

variable (s : Setting) (t : Tally) (f : Std.HashSet UInt64) (c : ℕ)

lemma compare_withBooks (a b : Item) :
    (t.withBooks f c).compare s a b = (t.compare s a b).withBooks f c :=
  compare_aside s t f (g := fun m => { m with checkedCombinations := c })
    ⟨fun _ => rfl, fun _ => rfl, fun _ _ => rfl, fun _ => rfl, fun _ _ => rfl⟩ a b

lemma finished_compare (a b : Item) : (t.compare s a b).finished = t.finished :=
  (congrArg Tally.finished
    (compare_withBooks s t t.finished t.results.metrics.checkedCombinations a b) :)

def compareAll (s : Setting) (t : Tally) (ps : List (Entry × Entry)) : Tally :=
  ps.foldl (fun t p => t.compare s p.1.value p.2.value) t

def findings (t : Tally) : Tally := t.withBooks ∅ 0

lemma findings_withBooks : (t.withBooks f c).findings = t.findings := rfl

end Tally

def worth (s : Setting) (before : List UInt64) (a b : Entry) : Bool :=
  !(s.selfCheck && before.contains b.value.object.id) &&
    s.filter.admits a.value.object.id a.value.type b.value.object.id b.value.type &&
    a.bounds.Clashes b.bounds

def pairsAfter (s : Setting) (tree : Index) :
    List UInt64 → List (Octree.Path × Entry) → List (Entry × Entry)
  | _, [] => []
  | before, (p, a) :: rest =>
    ((Step.candidates s tree p a).filter (worth s before a)).map (a, ·) ++
      pairsAfter s tree (a.value.object.id :: before) rest

def pairs (s : Setting) (tree : Index) : List (Entry × Entry) :=
  pairsAfter s tree [] (Step.anchors s tree)

variable {s : Setting} {before : List UInt64}

def Tally.Books (s : Setting) (before : List UInt64) (t : Tally) : Prop :=
  s.selfCheck = true → ∀ id, t.finished.contains id = before.contains id

lemma Tally.Books.isWorth_eq {t : Tally} (h : t.Books s before) (a b : Entry) :
    t.isWorth s a b = worth s before a b := by
  rw [isWorth, worth]
  cases hs : s.selfCheck with
  | false => rfl
  | true => rw [h hs]

lemma Tally.finish_eq (t : Tally) (a : Entry) :
    t.finish s a = t.withBooks
      (if s.selfCheck then t.finished.insert a.value.object.id else t.finished)
      (t.results.metrics.checkedCombinations + s.secondCount) := by
  rw [finish]
  cases s.selfCheck <;> rfl

lemma Tally.Books.finish {t : Tally} (h : t.Books s before) (a : Entry) :
    (t.finish s a).Books s (a.value.object.id :: before) := by
  intro hs id
  rw [finish_eq, hs]
  change (t.finished.insert a.value.object.id).contains id = _
  rw [Std.HashSet.contains_insert, h hs, List.contains_cons, BEq.comm]

lemma Tally.Books.examine {t : Tally} (h : t.Books s before) (a c : Entry) :
    (t.examine s a c).Books s before := by
  intro hs id
  rw [Tally.examine]
  split
  · rw [finished_compare, h hs]
  · exact h hs id

structure Examination where
  anchor : Entry
  candidate : Entry
  before : Tally
  after : Tally

namespace Examination

def pair (e : Examination) : Entry × Entry := (e.anchor, e.candidate)

def isWorth (s : Setting) (e : Examination) : Bool := e.before.isWorth s e.anchor e.candidate

end Examination

namespace Tally

def examinations (s : Setting) : List Step → Tally → List Examination
  | [], _ => []
  | .examine a b :: sts, t => ⟨a, b, t, t.examine s a b⟩ :: examinations s sts (t.examine s a b)
  | .poll :: sts, t => examinations s sts t
  | .finish a :: sts, t => examinations s sts (t.finish s a)

def examined (s : Setting) (sts : List Step) (t : Tally) : List Examination :=
  (t.examinations s sts).filter (Examination.isWorth s)

lemma examinations_append (t : Tally) (s : Setting) (sts sts' : List Step) :
    t.examinations s (sts ++ sts') =
      t.examinations s sts ++ (sts.foldl (take s) t).examinations s sts' := by
  induction sts generalizing t with
  | nil => rfl
  | cons st sts ih => cases st <;> simp [examinations, take, ih]

lemma examined_append (t : Tally) (s : Setting) (sts sts' : List Step) :
    t.examined s (sts ++ sts') = t.examined s sts ++ (sts.foldl (take s) t).examined s sts' := by
  rw [examined, examinations_append, List.filter_append]
  rfl

lemma examined_of_worth {t : Tally} {a c : Entry} (h : t.isWorth s a c = true) (sts : List Step) :
    t.examined s (.examine a c :: sts) =
      ⟨a, c, t, t.compare s a.value c.value⟩ :: (t.compare s a.value c.value).examined s sts := by
  have ht : t.examine s a c = t.compare s a.value c.value := if_pos h
  rw [examined, examinations, List.filter_cons_of_pos (by exact h), ht]
  rfl

lemma examined_of_not_worth {t : Tally} {a c : Entry} (h : ¬ t.isWorth s a c = true)
    (sts : List Step) : t.examined s (.examine a c :: sts) = t.examined s sts := by
  have ht : t.examine s a c = t := if_neg h
  rw [examined, examinations, List.filter_cons_of_neg (by exact h), ht]
  rfl

lemma findings_foldl (s : Setting) (sts : List Step) (t : Tally) :
    (sts.foldl (take s) t).findings =
      t.findings.compareAll s ((t.examined s sts).map Examination.pair) := by
  induction sts generalizing t with
  | nil => rfl
  | cons st sts ih =>
    rw [List.foldl_cons, ih]
    cases st with
    | poll => rfl
    | finish a =>
      rw [take, finish_eq, findings_withBooks, ← finish_eq]
      rfl
    | examine a c =>
      by_cases hw : t.isWorth s a c
      · rw [examined_of_worth hw, take, examine, if_pos hw]
        simp only [findings, List.map_cons, compareAll, List.foldl_cons, compare_withBooks]
        rfl
      · rw [examined_of_not_worth hw, take, examine, if_neg hw]

lemma Books.examined_candidates {t : Tally} (h : t.Books s before) (a : Entry) (cs : List Entry) :
    ((t.examined s (cs.flatMap fun c => [.examine a c, .poll])).map Examination.pair =
      (cs.filter (worth s before a)).map (a, ·)) ∧
      ((cs.flatMap fun c => [Step.examine a c, .poll]).foldl (take s) t).Books s before := by
  induction cs generalizing t with
  | nil => exact ⟨rfl, h⟩
  | cons c cs ih =>
    obtain ⟨hpairs, hbooks⟩ := ih (h.examine a c)
    refine ⟨?_, hbooks⟩
    rw [List.flatMap_cons, List.cons_append]
    by_cases hw : t.isWorth s a c
    · rw [examined_of_worth hw, List.map_cons, List.filter_cons_of_pos (h.isWorth_eq a c ▸ hw),
        List.map_cons, ← hpairs, Tally.examine, if_pos hw]
      rfl
    · rw [examined_of_not_worth hw, List.filter_cons_of_neg (h.isWorth_eq a c ▸ hw), ← hpairs,
        Tally.examine, if_neg hw]
      rfl

lemma Books.examined_anchors {t : Tally} (h : t.Books s before) (tree : Index)
    (anchors : List (Octree.Path × Entry)) :
    (t.examined s (anchors.flatMap fun (p, e) => Step.ofAnchor s tree p e)).map Examination.pair =
      pairsAfter s tree before anchors := by
  induction anchors generalizing t before with
  | nil => rfl
  | cons pa anchors ih =>
    obtain ⟨p, a⟩ := pa
    obtain ⟨hpairs, hbooks⟩ := h.examined_candidates a (Step.candidates s tree p a)
    let compared := (Step.candidates s tree p a).flatMap fun c => [Step.examine a c, .poll]
    let rest := anchors.flatMap fun (p, e) => Step.ofAnchor s tree p e
    have hsteps : (((p, a) :: anchors).flatMap fun (p, e) => Step.ofAnchor s tree p e) =
        .poll :: (compared ++ .finish a :: rest) := by
      simp [Step.ofAnchor, compared, rest]
    have hsplit : t.examined s (.poll :: (compared ++ .finish a :: rest)) =
        t.examined s compared ++ ((compared.foldl (take s) t).finish s a).examined s rest :=
      t.examined_append s compared (.finish a :: rest)
    rw [hsteps, hsplit, List.map_append, hpairs, ih (hbooks.finish a), pairsAfter]

lemma pairs_examined (s : Setting) (tree : Index) {t : Tally} (h : t.finished = ∅) :
    (t.examined s (Step.schedule s tree)).map Examination.pair = pairs s tree := by
  refine Books.examined_anchors (fun _ id => ?_) tree _
  rw [h]
  simp

end Tally

lemma findings_run (s : Setting) (signals : Signals) (tree : Index) {p : Progress}
    (hf : p.tally.finished = ∅)
    (h : (p.run s signals (Step.schedule s tree)).monitor.cancelled = false) :
    (p.run s signals (Step.schedule s tree)).tally.findings =
      p.tally.findings.compareAll s (pairs s tree) := by
  rw [Progress.tally_of_not_cancelled _ _ _ h, Tally.findings_foldl,
    Tally.pairs_examined s tree hf]

end SolidClash.Detection
