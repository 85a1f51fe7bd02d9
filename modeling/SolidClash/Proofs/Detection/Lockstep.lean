import SolidClash.Proofs.Detection.Complete
import SolidClash.Proofs.Detection.Trace

/-! Two runs under rules that differ in sizes alone. They take the same steps and find the same
meshes to clash, and may part only in which of the clashes they keep. -/

namespace SolidClash

def Rules.AgreeBesideSizes (r r' : Rules) : Prop :=
  ∃ compute volume horizontal vertical limit,
    r' = { r with
      computeVolumes := compute
      minClashVolume := volume
      minClashHorizontal := horizontal
      minClashVertical := vertical
      volumeTriangleThreshold := limit }

def Results.AgreeBesideClashes (r r' : Results Float) : Prop :=
  ∃ left right volumes errors clashes,
    r' = { r with
      left := left
      right := right
      volumes := volumes
      metrics := { r.metrics with clashVolumeErrors := errors, clashes := clashes } }

namespace Detection

def Setting.keeps (s : Setting) (a b : Decoded) : Bool :=
  !Tally.wantsVolume s a b ||
    match s.solver 0 a.mesh b.mesh with
    | .ok solid =>
      let v := ClashVolume.ofSolid solid
      s.rules.accepts v.volume v.width v.height
    | .error _ => true

abbrev Links := Adjacency × Adjacency

def links (r : Results Float) : Links := (r.left, r.right)

def join (selfCheck : Bool) (a b : UInt64) (g : Links) : Links :=
  let left := Adjacency.add g.1 a b
  (if selfCheck then Adjacency.add left b a else left,
    if selfCheck then g.2 else Adjacency.add g.2 b a)

namespace Tally

def bare (t : Tally) : Tally :=
  { t with
    solved := []
    results := { t.results with
      left := ∅
      right := ∅
      volumes := ∅
      metrics := { t.results.metrics with clashVolumeErrors := 0, clashes := 0 } } }

def sight (s : Setting) (a b : Item) (t : Tally) : Option (Decoded × Decoded) × Tally :=
  match t.fetchBoth s a b with
  | (none, t) => (none, t.countWith fun m => { m with notEnoughData := m.notEnoughData + 1 })
  | (some (da, db), t) =>
    let hit := t.clash s (meshId s b) da db
    (if hit.1 then some (da, db) else none, hit.2)

variable {s : Setting} {t t' : Tally} {a b : Item}

lemma agree_of_bare (h : t.bare = t'.bare) : t.results.AgreeBesideClashes t'.results := by
  refine ⟨t'.results.left, t'.results.right, t'.results.volumes,
    t'.results.metrics.clashVolumeErrors, t'.results.metrics.clashes, ?_⟩
  have hr := congrArg Tally.results h
  exact (congrArg (fun r : Results Float =>
    { r with
      left := t'.results.left
      right := t'.results.right
      volumes := t'.results.volumes
      metrics := { r.metrics with
        clashVolumeErrors := t'.results.metrics.clashVolumeErrors
        clashes := t'.results.metrics.clashes } }) hr).symm

lemma compare_eq_sight : t.compare s a b =
    match t.sight s a b with
    | (none, t) => t
    | (some (da, db), t) =>
      let v := t.volume s da db
      v.2.record s a.object.id b.object.id v.1 := by
  rw [compare_eq, sight]
  generalize t.fetchBoth s a b = both
  obtain ⟨_ | ⟨da, db⟩, t⟩ := both
  · rfl
  · dsimp only
    split <;> rfl

lemma note_bare (id : UInt64) (d : Decoded) : t.bare.note id d = (t.note id d).bare := by
  simp only [note]
  cases d.closedness <;> rfl

lemma fetch_bare (i : Item) :
    t.bare.fetch s i = ((t.fetch s i).1, (t.fetch s i).2.bare) := by
  have hm : t.bare.meshes = t.meshes := rfl
  simp only [fetch]
  rw [hm]
  cases t.meshes[meshId s i]? with
  | some d => simp only [note_bare]
  | none =>
    cases freshMesh? s i with
    | none => rfl
    | some m =>
      let t' := { t with meshes := t.meshes.insert (meshId s i) (.ofMesh m) }
      exact Prod.ext rfl (note_bare (t := t') _ _)

lemma fetchBoth_bare :
    t.bare.fetchBoth s a b = ((t.fetchBoth s a b).1, (t.fetchBoth s a b).2.bare) := by
  have hexamined :
      t.bare.countWith (fun m => { m with examinedPairs := m.examinedPairs + 1 }) =
        (t.countWith fun m => { m with examinedPairs := m.examinedPairs + 1 }).bare := rfl
  simp only [fetchBoth, hexamined, fetch_bare]

lemma clash_bare (id : MeshId) (da db : Decoded) :
    t.bare.clash s id da db = ((t.clash s id da db).1, (t.clash s id da db).2.bare) := by
  unfold clash
  dsimp only
  split
  · rfl
  · cases s.options.strategy with
    | bruteForce => rfl
    | triangleOctree => cases db.withIndex s.options.maxOctreeDepth <;> rfl

lemma sight_bare : t.bare.sight s a b = ((t.sight s a b).1, (t.sight s a b).2.bare) := by
  rw [sight, sight, fetchBoth_bare]
  generalize t.fetchBoth s a b = both
  obtain ⟨_ | ⟨da, db⟩, t⟩ := both
  · rfl
  · simp only [clash_bare]

lemma sight_congr (h : t.bare = t'.bare) : (t.sight s a b).1 = (t'.sight s a b).1 ∧
    (t.sight s a b).2.bare = (t'.sight s a b).2.bare := by
  have hs := congrArg (sight s a b) h
  rw [sight_bare, sight_bare] at hs
  exact Prod.mk.inj hs

lemma links_of_ledger {r r' : Results Float} (h : ledger r = ledger r') :
    links r = links r' ∧ r.selfCheck = r'.selfCheck :=
  ⟨(congrArg links h :), (congrArg Results.selfCheck h :)⟩

lemma links_sight : links (t.sight s a b).2.results = links t.results ∧
    (t.sight s a b).2.results.selfCheck = t.results.selfCheck := by
  have hl : ledger (t.sight s a b).2.results = ledger t.results := by
    rw [← ledger_fetchBoth s a b t, sight]
    generalize t.fetchBoth s a b = both
    obtain ⟨_ | ⟨da, db⟩, t⟩ := both
    · rfl
    · exact ledger_clash _ _ _ _ _
  exact links_of_ledger hl

lemma bare_record (x y : UInt64) (v : Option (ClashVolume Float)) :
    (t.record s x y v).bare = t.bare := by
  simp only [record]
  cases v with
  | none => rfl
  | some v =>
    dsimp only
    split
    · cases s.rules.computeVolumes <;> rfl
    · rfl

lemma bare_volume (da db : Decoded) : (t.volume s da db).2.bare = t.bare := by
  rw [volume]
  split
  · dsimp only
    cases s.solver t.solved.length da.mesh db.mesh <;> rfl
  · rfl

lemma links_volume (da db : Decoded) :
    links (t.volume s da db).2.results = links t.results ∧
      (t.volume s da db).2.results.selfCheck = t.results.selfCheck :=
  links_of_ledger (ledger_volume s da db t)

lemma links_record (x y : UInt64) (v : Option (ClashVolume Float)) :
    links (t.record s x y v).results =
      if v.all fun v => s.rules.accepts v.volume v.width v.height then
        join t.results.selfCheck x y (links t.results)
      else links t.results := by
  simp only [record]
  cases v with
  | none => rfl
  | some v =>
    dsimp only [Option.all_some]
    split
    · cases s.rules.computeVolumes <;> rfl
    · rfl

lemma keeps_eq (hsolve : s.solver.IsPure) (da db : Decoded) :
    s.keeps da db =
      (t.volume s da db).1.all fun v => s.rules.accepts v.volume v.width v.height := by
  rw [Setting.keeps, volume, hsolve 0 t.solved.length]
  cases wantsVolume s da db with
  | false => rfl
  | true =>
    cases s.solver t.solved.length da.mesh db.mesh with
    | error e => rfl
    | ok solid =>
      cases s.rules.computeVolumes <;> rfl

lemma links_compare (hsolve : s.solver.IsPure) : links (t.compare s a b).results =
    if (t.sight s a b).1.any fun m => s.keeps m.1 m.2 then
      join t.results.selfCheck a.object.id b.object.id (links t.results)
    else links t.results := by
  obtain ⟨hlinks, hself⟩ := links_sight (s := s) (t := t) (a := a) (b := b)
  rw [compare_eq_sight, ← hlinks, ← hself]
  generalize t.sight s a b = seen
  obtain ⟨_ | ⟨da, db⟩, t⟩ := seen
  · rfl
  · obtain ⟨hl, hs⟩ := links_volume (s := s) (t := t) da db
    rw [links_record, hl, hs, ← keeps_eq hsolve]
    rfl

lemma finish_bare (e : Entry) : (t.finish s e).bare = t.bare.finish s e := by
  rw [finish_eq, finish_eq]
  rfl

lemma links_finish (e : Entry) : links (t.finish s e).results = links t.results := by
  rw [finish_eq]
  rfl

lemma bare_compare : (t.compare s a b).bare = (t.sight s a b).2.bare := by
  rw [compare_eq_sight]
  generalize t.sight s a b = seen
  obtain ⟨_ | ⟨da, db⟩, t⟩ := seen
  · rfl
  · exact (bare_record _ _ _).trans (bare_volume _ _)

lemma sight_resized {r' : Rules} (h : r'.epsilon = s.rules.epsilon) :
    t.sight { s with rules := r' } a b = t.sight s a b := by
  rw [sight, sight]
  have hboth : t.fetchBoth { s with rules := r' } a b = t.fetchBoth s a b := rfl
  rw [hboth]
  generalize t.fetchBoth s a b = both
  obtain ⟨_ | ⟨da, db⟩, t⟩ := both
  · rfl
  · dsimp only [clash]
    rw [h]
    rfl

end Tally

section Lockstep

variable {s : Setting} {r' : Rules} {G : Links → Links → Prop}

def Keeps (s : Setting) (r' : Rules) (G : Links → Links → Prop) : Prop :=
  ∀ c x y da db g g', G g g' →
    G (if s.keeps da db then join c x y g else g)
      (if ({ s with rules := r' } : Setting).keeps da db then join c x y g' else g')

lemma compare_lockstep (hsolve : s.solver.IsPure) (hr : r'.epsilon = s.rules.epsilon)
    (hG : Keeps s r' G) {t t' : Tally} (hbare : t.bare = t'.bare)
    (h : G (links t.results) (links t'.results)) (a b : Item) :
    (t.compare s a b).bare = (t'.compare { s with rules := r' } a b).bare ∧
      G (links (t.compare s a b).results)
        (links (t'.compare { s with rules := r' } a b).results) := by
  have hself : t.results.selfCheck = t'.results.selfCheck :=
    (congrArg (fun t => t.results.selfCheck) hbare :)
  obtain ⟨hseen, hrest⟩ := Tally.sight_congr (s := s) (a := a) (b := b) hbare
  rw [Tally.bare_compare, Tally.bare_compare, Tally.sight_resized hr]
  refine ⟨hrest, ?_⟩
  rw [Tally.links_compare hsolve, Tally.links_compare (s := { s with rules := r' }) hsolve,
    Tally.sight_resized hr, hseen, hself]
  cases (t'.sight s a b).1 with
  | none => exact h
  | some m => exact hG _ _ _ _ _ _ _ h

lemma take_lockstep (hsolve : s.solver.IsPure) (hr : r'.epsilon = s.rules.epsilon)
    (hG : Keeps s r' G) {t t' : Tally} (hbare : t.bare = t'.bare)
    (h : G (links t.results) (links t'.results)) (st : Step) :
    (t.take s st).bare = (t'.take { s with rules := r' } st).bare ∧
      G (links (t.take s st).results) (links (t'.take { s with rules := r' } st).results) := by
  cases st with
  | poll => exact ⟨hbare, h⟩
  | examine a c =>
    have hfinished : t.finished = t'.finished := (congrArg Tally.finished hbare :)
    have hworth : t'.isWorth { s with rules := r' } a c = t.isWorth s a c := by
      simp only [Tally.isWorth, hfinished]
    simp only [Tally.take, Tally.examine, hworth]
    split
    · exact compare_lockstep hsolve hr hG hbare h a.value c.value
    · exact ⟨hbare, h⟩
  | finish a =>
    simp only [Tally.take, Tally.finish_bare, Tally.links_finish, hbare]
    exact ⟨rfl, h⟩

lemma run_lockstep (hsolve : s.solver.IsPure) (hr : r'.epsilon = s.rules.epsilon)
    (hG : Keeps s r' G) (steps : List Step) {t t' : Tally} (hbare : t.bare = t'.bare)
    (h : G (links t.results) (links t'.results)) :
    (steps.foldl (Tally.take s) t).bare =
        (steps.foldl (Tally.take { s with rules := r' }) t').bare ∧
      G (links (steps.foldl (Tally.take s) t).results)
        (links (steps.foldl (Tally.take { s with rules := r' }) t').results) := by
  induction steps generalizing t t' with
  | nil => exact ⟨hbare, h⟩
  | cons st steps ih =>
    obtain ⟨hbare, h⟩ := take_lockstep hsolve hr hG hbare h st
    exact ih hbare h

end Lockstep

section Resized

variable {d : Detection} {r' : Rules}

lemma setting_resized (h : d.rules.AgreeBesideSizes r') :
    ({ d with rules := r' } : Detection).setting = { d.setting with rules := r' } := by
  obtain ⟨_, _, _, _, _, rfl⟩ := h
  rfl

lemma start_resized (h : d.rules.AgreeBesideSizes r') :
    ({ d with rules := r' } : Detection).start = d.start := by
  obtain ⟨_, _, _, _, _, rfl⟩ := h
  rfl

lemma tree_resized (h : d.rules.AgreeBesideSizes r') (box : Box Float) :
    ({ d with rules := r' } : Detection).tree? box = d.tree? box := by
  obtain ⟨_, _, _, _, _, rfl⟩ := h
  rfl

lemma agree_conclude {p p' : Progress} (h : p.tally.results.AgreeBesideClashes p'.tally.results)
    (hp : p.monitor.cancelled = p'.monitor.cancelled) :
    (conclude p).results.AgreeBesideClashes (conclude p').results := by
  obtain ⟨left, right, volumes, errors, clashes, h⟩ := h
  refine ⟨left, right, volumes, errors, clashes, ?_⟩
  simp only [conclude, h, hp]

lemma finished_lockstep {G : Links → Links → Prop} (hagree : d.rules.AgreeBesideSizes r')
    (hpure : d.solver.IsPure) (hG : Keeps d.setting r' G) (hempty : G (∅, ∅) (∅, ∅))
    {signals signals' : Signals} {o o' : Outcome} (hrun : d.run signals = .ok o)
    (hrun' : ({ d with rules := r' } : Detection).run signals' = .ok o')
    (hdone : o.results.state = .finished) (hdone' : o'.results.state = .finished) :
    o.results.AgreeBesideClashes o'.results ∧ G (links o.results) (links o'.results) := by
  obtain ⟨hb, rfl⟩ | ⟨hb, tree, ht, rfl⟩ := cases_of_ok hrun
  · obtain ⟨-, rfl⟩ | ⟨hb', -⟩ := cases_of_ok hrun'
    · exact ⟨⟨_, _, _, _, _, rfl⟩, hempty⟩
    · exact (hb' hb).elim
  · obtain ⟨hb', -⟩ | ⟨-, tree', ht', rfl⟩ := cases_of_ok hrun'
    · exact (hb hb').elim
    · obtain rfl : tree = tree' :=
        Except.ok.inj (ht.symm.trans ((tree_resized hagree _).symm.trans ht'))
      have hc := not_cancelled_of_finished hdone
      have hc' := not_cancelled_of_finished hdone'
      have hepsilon : r'.epsilon = d.setting.rules.epsilon := by
        obtain ⟨_, _, _, _, _, rfl⟩ := hagree
        rfl
      -- both runs take all steps of one schedule
      obtain ⟨hbare, hlinks⟩ := run_lockstep (s := d.setting) hpure hepsilon hG
        (Step.schedule d.setting tree) (t := d.start.tally) rfl hempty
      have hschedule : Step.schedule ({ d with rules := r' } : Detection).setting tree =
          Step.schedule d.setting tree := by
        rw [setting_resized hagree]
        rfl
      have ht := Progress.tally_of_not_cancelled _ _ _ hc
      have ht' := Progress.tally_of_not_cancelled _ _ _ hc'
      rw [hschedule, setting_resized hagree, start_resized hagree] at ht' hc' ⊢
      rw [← ht, ← ht'] at hbare hlinks
      exact ⟨agree_conclude (Tally.agree_of_bare hbare) (hc.trans hc'.symm), hlinks⟩

end Resized

end Detection

end SolidClash
