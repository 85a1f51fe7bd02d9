import SolidClash.Proofs.Detection.Input

namespace SolidClash.Detection

variable (d : Detection)

def nothing : Outcome where
  results :=
    { d.blank with
      state := .finished
      metrics := { totalObjects := d.objectCount, objectsWithoutGeometry := d.objectCount } }
  reports := []
  solved := []

lemma run_eq (signals : Signals) :
    d.run signals =
      match d.rules.fault? with
      | some e => .error (.rules e)
      | none =>
        if d.bounds.IsEmpty then .ok d.nothing
        else
          match d.tree? d.bounds with
          | .error e => .error (.geometry e)
          | .ok tree =>
            .ok (conclude (d.start.run d.setting signals (Step.schedule d.setting tree))) := by
  rw [run, Rules.validate]
  cases d.rules.fault? with
  | some e => rfl
  | none => rfl

def examinations (signals : Signals) : List Examination :=
  match d.tree? d.bounds with
  | .error _ => []
  | .ok tree =>
    d.start.tally.examinations d.setting
      (Progress.taken d.setting signals (Step.schedule d.setting tree) d.start)

def examined (signals : Signals) : List Examination :=
  (d.examinations signals).filter (Examination.isWorth d.setting)

variable {d}

lemma run_ok (hrules : d.rules.fault? = none) (hb : ¬ d.bounds.IsEmpty) {tree : Index}
    (ht : d.tree? d.bounds = .ok tree) (signals : Signals) :
    d.run signals =
      .ok (conclude (d.start.run d.setting signals (Step.schedule d.setting tree))) := by
  rw [run_eq, hrules, ht]
  exact if_neg hb

lemma cases_of_ok {signals : Signals} {o : Outcome} (h : d.run signals = .ok o) :
    (d.bounds.IsEmpty ∧ o = d.nothing) ∨
      (¬ d.bounds.IsEmpty ∧ ∃ tree, d.tree? d.bounds = .ok tree ∧
        o = conclude (d.start.run d.setting signals (Step.schedule d.setting tree))) := by
  rw [run_eq] at h
  cases hr : d.rules.fault? with
  | some e => simp [hr] at h
  | none =>
    rw [hr] at h
    dsimp only at h
    split at h
    · exact Or.inl ⟨‹_›, (Except.ok.inj h).symm⟩
    · cases ht : d.tree? d.bounds with
      | error e => simp [ht] at h
      | ok tree =>
        rw [ht] at h
        exact Or.inr ⟨‹_›, tree, rfl, (Except.ok.inj h).symm⟩

lemma eq_nothing {signals : Signals} {o : Outcome} (h : d.run signals = .ok o)
    (hempty : d.bounds.IsEmpty) : o = d.nothing := by
  obtain ⟨_, rfl⟩ | ⟨hne, _⟩ := cases_of_ok h
  · rfl
  · exact absurd hempty hne

lemma examinations_of_isEmpty (h : d.bounds.IsEmpty) (signals : Signals) :
    d.examinations signals = [] := by
  simp [examinations, tree?, Octree.new, h, bind, Except.bind]

lemma examinations_ok {tree : Index} (h : d.tree? d.bounds = .ok tree) (signals : Signals) :
    d.examinations signals =
      d.start.tally.examinations d.setting
        (Progress.taken d.setting signals (Step.schedule d.setting tree) d.start) := by
  rw [examinations, h]

lemma exists_tree_of_examined {signals : Signals} {e : Examination} (h : e ∈ d.examined signals) :
    ∃ tree, d.tree? d.bounds = .ok tree := by
  rw [examined, examinations] at h
  cases ht : d.tree? d.bounds with
  | ok tree => exact ⟨tree, rfl⟩
  | error e => simp [ht] at h

lemma prefix_pairs {tree : Index} (h : d.tree? d.bounds = .ok tree) (signals : Signals) :
    (d.examined signals).map Examination.pair <+: pairs d.setting tree := by
  obtain ⟨rest, hrest⟩ :=
    Progress.prefix_taken d.setting signals (Step.schedule d.setting tree) d.start
  rw [← Tally.pairs_examined d.setting tree (t := d.start.tally) rfl, ← hrest,
    Tally.examined_append, List.map_append, examined, examinations_ok h]
  exact List.prefix_append _ _

lemma pairs_examined {tree : Index} (h : d.tree? d.bounds = .ok tree) {signals : Signals}
    (hdone : (d.start.run d.setting signals (Step.schedule d.setting tree)).monitor.cancelled =
      false) :
    (d.examined signals).map Examination.pair = pairs d.setting tree := by
  rw [examined, examinations_ok h, Progress.taken_of_not_cancelled _ _ _ hdone]
  exact Tally.pairs_examined d.setting tree rfl

end SolidClash.Detection
