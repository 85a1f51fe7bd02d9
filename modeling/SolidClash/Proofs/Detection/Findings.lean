import SolidClash.Proofs.Detection.Compare
import SolidClash.Proofs.Detection.Trace

namespace SolidClash

structure Finding where
  anchor : UInt64
  other : UInt64
  volume : Option (ClashVolume Float)

def Results.enter (r : Results Float) (f : Finding) : Results Float :=
  let r := r.addClash f.anchor f.other
  match f.volume with
  | none => r
  | some v => r.setVolume f.anchor f.other v

namespace Detection

namespace Tally

variable {s : Setting} {t : Tally}

def finding? (s : Setting) (a b : Item) (t : Tally) : Option Finding :=
  let t := t.countWith fun m => { m with examinedPairs := m.examinedPairs + 1 }
  let fa := t.fetch s a
  let fb := fa.2.fetch s b
  match fa.1, fb.1 with
  | some da, some db =>
    let hit := fb.2.clash s (meshId s b) da db
    let v := (hit.2.volume s da db).1
    if hit.1 && v.all fun v => s.rules.accepts v.volume v.width v.height then
      some ⟨a.object.id, b.object.id, if s.rules.computeVolumes then v else none⟩
    else none
  | _, _ => none

lemma record_eq (x y : UInt64) (v : Option (ClashVolume Float)) :
    (t.record s x y v).results =
      if v.all fun v => s.rules.accepts v.volume v.width v.height then
        t.results.enter ⟨x, y, if s.rules.computeVolumes then v else none⟩
      else t.results := by
  simp only [record]
  cases v with
  | none => cases s.rules.computeVolumes <;> rfl
  | some v =>
    dsimp only [Option.all_some]
    split
    · cases s.rules.computeVolumes <;> rfl
    · rfl

lemma ledger_enter (r : Results Float) (f : Finding) : ledger (r.enter f) = (ledger r).enter f := by
  rw [Results.enter, Results.enter]
  cases f.volume <;> rfl

lemma finding?_eq (a b : Item) :
    t.finding? s a b =
      match t.fetchBoth s a b with
      | (none, _) => none
      | (some (da, db), t) =>
        let hit := t.clash s (meshId s b) da db
        let v := (hit.2.volume s da db).1
        if hit.1 && v.all fun v => s.rules.accepts v.volume v.width v.height then
          some ⟨a.object.id, b.object.id, if s.rules.computeVolumes then v else none⟩
        else none := by
  rw [finding?, fetchBoth]
  dsimp only
  generalize (t.countWith fun m => { m with examinedPairs := m.examinedPairs + 1 }).fetch s a = fa
  generalize fa.2.fetch s b = fb
  cases fa.1 <;> cases fb.1 <;> rfl

lemma ledger_compare (a b : Item) :
    ledger (t.compare s a b).results =
      (t.finding? s a b).elim (ledger t.results) (ledger t.results).enter := by
  rw [compare_eq, finding?_eq, ← ledger_fetchBoth s a b t]
  generalize t.fetchBoth s a b = both
  obtain ⟨_ | ⟨da, db⟩, t⟩ := both
  · rfl
  · have hclash := ledger_clash s (meshId s b) da db t
    dsimp only
    generalize t.clash s (meshId s b) da db = hit at *
    have hvolume := (ledger_volume s da db hit.2).trans hclash
    cases hit.1 with
    | false => exact hclash
    | true =>
      rw [if_pos rfl, record_eq, Bool.true_and]
      split
      · rw [ledger_enter, hvolume]
        rfl
      · exact hvolume

lemma solved_fetch (i : Item) : (t.fetch s i).2.solved = t.solved := by
  have hnote (t : Tally) (id : UInt64) (d : Decoded) : (t.note id d).solved = t.solved := by
    rw [note]
    cases d.closedness <;> rfl
  rw [fetch]
  cases t.meshes[meshId s i]? with
  | some d => exact hnote _ _ _
  | none =>
    cases freshMesh? s i with
    | none => rfl
    | some m => exact hnote _ _ _

lemma solved_fetchBoth (s : Setting) (a b : Item) (t : Tally) :
    (t.fetchBoth s a b).2.solved = t.solved :=
  (solved_fetch b).trans (solved_fetch a)

lemma solved_clash (id : MeshId) (a b : Decoded) : (t.clash s id a b).2.solved = t.solved := by
  rw [clash]
  dsimp only
  split
  · rfl
  · cases s.options.strategy with
    | bruteForce => rfl
    | triangleOctree => cases b.withIndex s.options.maxOctreeDepth <;> rfl

lemma solved_record (x y : UInt64) (v : Option (ClashVolume Float)) :
    (t.record s x y v).solved = t.solved := by
  simp only [record]
  cases v with
  | none => rfl
  | some v =>
    dsimp only
    split <;> rfl

lemma solved_volume (a b : Decoded) :
    (t.volume s a b).2.solved =
      if wantsVolume s a b then (a.mesh, b.mesh) :: t.solved else t.solved := by
  rw [volume]
  split
  · dsimp only
    cases s.solver t.solved.length a.mesh b.mesh <;> rfl
  · rfl

lemma Sound.finding_eq {K : Item → Prop} (h : t.Sound s K) (hK : Coherent s K) {a b : Item}
    (ha : K a) (hb : K b) {m n : Mesh Float} (hm : freshMesh? s a = some m)
    (hn : freshMesh? s b = some n) (hclash : m.clash n s.rules.epsilon = true)
    (hw : wantsVolume s (.ofMesh m) (.ofMesh n) = true) {solid : Mesh Float}
    (hsolve : s.solver t.solved.length m n = .ok solid) {v : ClashVolume Float}
    (hsolid : v = .ofSolid solid) (hv : s.rules.computeVolumes = true)
    (haccept : s.rules.accepts v.volume v.width v.height = true) :
    t.finding? s a b = some ⟨a.object.id, b.object.id, some v⟩ := by
  have hsolved := solved_fetchBoth s a b t
  obtain ⟨hs, hmeshes⟩ := h.of_fetchBoth hK ha hb
  rw [finding?_eq]
  generalize t.fetchBoth s a b = both at *
  obtain ⟨_, t⟩ := both
  obtain ⟨da, db, rfl, ⟨hma, hra⟩, hmb, hrb⟩ := hmeshes.resolve_left (by simp [hm, hn])
  obtain rfl : da.mesh = m := Option.some.inj (hma.symm.trans hm)
  obtain rfl : db.mesh = n := Option.some.inj (hmb.symm.trans hn)
  obtain ⟨hhit, -⟩ := hs.of_clash hK hb hm hn hra hrb
  have hcalls := (solved_clash (s := s) (meshId s b) da db).trans hsolved
  dsimp only
  generalize t.clash s (meshId s b) da db = hit at *
  have hwants : wantsVolume s da db = true := (wantsVolume_eq hra hrb).trans hw
  have hvolume : (hit.2.volume s da db).1 = some v := by
    rw [volume, if_pos hwants, hcalls, hsolve, hsolid]
    simp [hv]
  simp [hvolume, hhit, hclash, haccept, hv]

end Tally

namespace Examination

def finding? (s : Setting) (e : Examination) : Option Finding :=
  e.before.finding? s e.anchor.value e.candidate.value

def solid? (solve : Solver) (e : Examination) : Option (Mesh Float) :=
  if e.before.solved.length < e.after.solved.length then
    e.after.solved.head?.bind fun (m, n) => (solve e.before.solved.length m n).toOption
  else none

end Examination

variable {s : Setting} {t : Tally}

lemma Tally.solved_compare (hv : s.rules.computeVolumes = true) {a b : Item} {f : Finding}
    (h : t.finding? s a b = some f) :
    (∃ m n, (t.compare s a b).solved = (m, n) :: t.solved ∧
      f.volume = (s.solver t.solved.length m n).toOption.map .ofSolid) ∨
      ((t.compare s a b).solved = t.solved ∧ f.volume = none) := by
  have hsolved := solved_fetchBoth s a b t
  rw [compare_eq]
  rw [finding?_eq] at h
  generalize t.fetchBoth s a b = both at *
  obtain ⟨_ | ⟨da, db⟩, t'⟩ := both
  · simp at h
  · dsimp only at h ⊢
    have hclash := (solved_clash (s := s) (meshId s b) da db).trans hsolved
    generalize t'.clash s (meshId s b) da db = hit at *
    split at h
    · rename_i hhit
      rw [Bool.and_eq_true] at hhit
      obtain rfl := Option.some.inj h
      rw [if_pos hhit.1, solved_record, solved_volume, hclash]
      dsimp only
      rw [volume, hclash]
      by_cases hw : wantsVolume s da db
      · refine Or.inl ⟨da.mesh, db.mesh, if_pos hw, ?_⟩
        rw [if_pos hw]
        cases s.solver t.solved.length da.mesh db.mesh <;> simp [Except.toOption, hv]
      · exact Or.inr ⟨if_neg hw, by rw [if_neg hw]⟩
    · simp at h

lemma Tally.after_examined {sts : List Step} {e : Examination} (h : e ∈ t.examined s sts) :
    e.after = e.before.compare s e.anchor.value e.candidate.value := by
  induction sts generalizing t with
  | nil => simp [examined, examinations] at h
  | cons st sts ih =>
    cases st with
    | poll => exact ih h
    | finish a => exact ih h
    | examine a c =>
      by_cases hw : t.isWorth s a c
      · rw [examined_of_worth hw, List.mem_cons] at h
        rcases h with rfl | h
        · rfl
        · exact ih h
      · rw [examined_of_not_worth hw] at h
        exact ih h

lemma volume_finding (hv : s.rules.computeVolumes = true) {sts : List Step} {e : Examination}
    (he : e ∈ t.examined s sts) {f : Finding} (hf : e.finding? s = some f) :
    f.volume = (e.solid? s.solver).map .ofSolid := by
  rw [Examination.solid?, Tally.after_examined he]
  rcases Tally.solved_compare hv hf with ⟨m, n, hsolved, hvolume⟩ | ⟨hsolved, hvolume⟩
  · simp [hsolved, hvolume]
  · simp [hsolved, hvolume]

lemma ledger_foldl (sts : List Step) (t : Tally) :
    ledger (sts.foldl (Tally.take s) t).results =
      ((t.examined s sts).filterMap (Examination.finding? s)).foldl Results.enter
        (ledger t.results) := by
  induction sts generalizing t with
  | nil => rfl
  | cons st sts ih =>
    rw [List.foldl_cons, ih]
    cases st with
    | poll => rfl
    | finish a =>
      have hfinish : ledger (t.finish s a).results = ledger t.results := by
        rw [Tally.finish_eq]
        rfl
      rw [Tally.take, hfinish]
      rfl
    | examine a c =>
      by_cases hw : t.isWorth s a c
      · rw [Tally.examined_of_worth hw, Tally.take, Tally.examine, if_pos hw, Tally.ledger_compare,
          List.filterMap_cons, Examination.finding?]
        dsimp only
        cases t.finding? s a.value c.value <;> rfl
      · rw [Tally.examined_of_not_worth hw, Tally.take, Tally.examine, if_neg hw]

variable (d : Detection)

def findings (signals : Signals) : List Finding :=
  (d.examined signals).filterMap (Examination.finding? d.setting)

variable {d}

lemma graph_run {signals : Signals} {o : Outcome} (h : d.run signals = .ok o) :
    let r := (d.findings signals).foldl Results.enter d.blank
    o.results.left = r.left ∧ o.results.right = r.right ∧ o.results.volumes = r.volumes ∧
      o.results.metrics.clashes = r.metrics.clashes := by
  obtain ⟨hempty, rfl⟩ | ⟨_, tree, ht, rfl⟩ := cases_of_ok h
  · rw [findings, examined, examinations_of_isEmpty hempty]
    exact ⟨rfl, rfl, rfl, rfl⟩
  · have hledger := ledger_foldl (s := d.setting)
      (Progress.taken d.setting signals (Step.schedule d.setting tree) d.start) d.start.tally
    rw [← Progress.tally_run] at hledger
    rw [findings, examined, examinations_ok ht]
    exact ⟨(congrArg Results.left hledger :), (congrArg Results.right hledger :),
      (congrArg Results.volumes hledger :), (congrArg (fun r => r.metrics.clashes) hledger :)⟩

end Detection

end SolidClash
