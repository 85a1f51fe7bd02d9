import SolidClash.Proofs.Job.Percent

namespace SolidClash

namespace Detection

variable {d : Detection} {tree : Index} {signals : Signals}

lemma run_of_cancelled (h : ∀ k, signals.cancelled k = true) (d : Detection) (tree : Index) :
    (d.start.run d.setting signals (Step.schedule d.setting tree)).tally = d.start.tally ∧
      ((d.start.run d.setting signals (Step.schedule d.setting tree)).monitor.cancelled = true ↔
        Step.anchors d.setting tree ≠ []) := by
  by_cases hanchors : Step.anchors d.setting tree = []
  · simp [Step.schedule, hanchors, Progress.run, start, Monitor.new]
  · obtain ⟨sts, hsts⟩ := Step.exists_schedule_poll hanchors
    -- the first poll sees it
    have hpoll : (d.start.step d.setting signals .poll).monitor.cancelled = true := h 0
    rw [hsts, Progress.run, if_pos hpoll]
    exact ⟨rfl, iff_of_true hpoll hanchors⟩

lemma results_run_congr {signals' : Signals} {b : Bool} (h : ∀ k, signals.cancelled k = b)
    (h' : ∀ k, signals'.cancelled k = b) (d : Detection) :
    (d.run signals).map Outcome.results = (d.run signals').map Outcome.results := by
  rw [run_eq, run_eq]
  cases d.rules.fault? with
  | some e => rfl
  | none =>
    dsimp only
    split
    · rfl
    · cases d.tree? d.bounds with
      | error e => rfl
      | ok tree =>
        refine congrArg Except.ok ?_
        cases b with
        | false =>
          have hc := Progress.not_cancelled_run h d.setting (Step.schedule d.setting tree)
            (p := d.start) rfl
          have hc' := Progress.not_cancelled_run h' d.setting (Step.schedule d.setting tree)
            (p := d.start) rfl
          refine results_conclude (congrArg Tally.results ?_) (hc.trans hc'.symm)
          rw [Progress.tally_of_not_cancelled _ _ _ hc, Progress.tally_of_not_cancelled _ _ _ hc']
        | true =>
          obtain ⟨htally, hc⟩ := run_of_cancelled h d tree
          obtain ⟨htally', hc'⟩ := run_of_cancelled h' d tree
          exact results_conclude (congrArg Tally.results (htally.trans htally'.symm))
            (Bool.eq_iff_iff.mpr (hc.trans hc'.symm))

lemma results_of_cancelled (h : ∀ k, signals.cancelled k = true) {o : Outcome}
    (ho : d.run signals = .ok o) :
    o.results.left = ∅ ∧ o.results.right = ∅ ∧ o.results.volumes = ∅ ∧
      o.results.metrics.clashes = 0 := by
  obtain ⟨_, rfl⟩ | ⟨_, tree, _, rfl⟩ := cases_of_ok ho
  · exact ⟨rfl, rfl, rfl, rfl⟩
  · obtain ⟨htally, _⟩ := run_of_cancelled h d tree
    generalize d.start.run d.setting signals (Step.schedule d.setting tree) = p at htally
    obtain ⟨t, m⟩ := p
    obtain rfl : t = d.start.tally := htally
    exact ⟨rfl, rfl, rfl, rfl⟩

end Detection

namespace Job

def Loaded (ms : List Model) (id : UInt64) (m : Model) : Prop :=
  ∃ before after, ms = before ++ m :: after ∧ m.id = id ∧ ∀ m' ∈ after, m'.id ≠ id

lemma ofModels_eq_ok {ms : List Model} {id : UInt64} {m : Model} :
    Source.ofModels ms id = .ok m ↔ Loaded ms id m := by
  have hfind : Source.ofModels ms id = .ok m ↔
      (ms.reverse.find? fun m => m.id == id) = some m := by
    rw [Source.ofModels]
    cases ms.reverse.find? fun m => m.id == id <;> simp
  rw [hfind, List.find?_eq_some_iff_append]
  constructor
  · rintro ⟨hid, after, before, hms, hafter⟩
    refine ⟨before.reverse, after.reverse, ?_, by simpa using hid, by simpa using hafter⟩
    simpa using congrArg List.reverse hms
  · rintro ⟨before, after, rfl, hid, hafter⟩
    exact ⟨by simpa using hid, after.reverse, before.reverse, by simp, by simpa using hafter⟩

lemma ofModels_eq_error {ms : List Model} {id : UInt64} (h : ∀ m ∈ ms, m.id ≠ id) :
    Source.ofModels ms id = .error (.error (.load (.notFound id))) := by
  have hnone : (ms.reverse.find? fun m => m.id == id) = none := by simpa using h
  rw [Source.ofModels, hnone]

lemma loaded_or_missing (ms : List Model) (id : UInt64) :
    (∃ m, Loaded ms id m) ∨ ∀ m ∈ ms, m.id ≠ id := by
  cases h : ms.reverse.find? fun m => m.id == id with
  | none => exact .inr (by simpa using h)
  | some m => exact .inl ⟨m, ofModels_eq_ok.mp (by rw [Source.ofModels, h])⟩

inductive Refused (ms : List Model) (r : Request) : Error → Prop
  | rules {e} : Rules.ofText r.rules = .error e → Refused ms r (.rules e)
  | first {rules} : Rules.ofText r.rules = .ok rules → (∀ m ∈ ms, m.id ≠ r.model1) →
      Refused ms r (.load (.notFound r.model1))
  | second {rules first} : Rules.ofText r.rules = .ok rules → Loaded ms r.model1 first →
      r.model2 ≠ r.model1 → (∀ m ∈ ms, m.id ≠ r.model2) →
      Refused ms r (.load (.notFound r.model2))

/-- The detection that a request asks for. -/
structure Asked (ms : List Model) (r : Request) (options : Options) (solver : Detection.Solver)
    (d : Detection) : Prop where
  rules : Rules.ofText r.rules = .ok d.rules
  first : Loaded ms r.model1 d.first
  second : Loaded ms r.model2 d.second
  options : d.options = options
  solver : d.solver = solver
  selfCheck : d.isSelfCheck = true ↔ r.model1 = r.model2

inductive Answers (ms : List Model) (r : Request) (options : Options) (solver : Detection.Solver)
    (signals : Signals) : Except Error (Report Float) → Prop
  | refused {e} : Refused ms r e → Answers ms r options solver signals (.error e)
  | failed {d e} : Asked ms r options solver d → d.run signals = .error (.geometry e) →
      Answers ms r options solver signals (.error (.detection (.geometry e)))
  | report {d o} : Asked ms r options solver d → d.run signals = .ok o →
      Answers ms r options solver signals (.ok (.ofResults options.reportWeldEpsilon o.results))

section Answers

variable {ms : List Model} {r : Request} {options : Options} {solver : Detection.Solver}
  {signals signals' : Signals} {d : Detection} {a : Except Error (Report Float)}

lemma detection?_of_refused {e : Error} (h : Refused ms r e) :
    detection? (.ofModels ms) r options solver = .error (.error e) := by
  cases h with
  | rules hrules => simp [detection?, hrules, Except.mapError, bind, Except.bind]
  | first hrules hfirst =>
    simp [detection?, hrules, ofModels_eq_error hfirst, Except.mapError, bind, Except.bind]
  | second hrules hfirst hne hsecond =>
    simp [detection?, hrules, ofModels_eq_ok.mpr hfirst, hne, ofModels_eq_error hsecond,
      Except.mapError, bind, Except.bind]

lemma detection?_of_asked (h : Asked ms r options solver d) :
    detection? (.ofModels ms) r options solver = .ok d := by
  have hfirst := ofModels_eq_ok.mpr h.first
  have hsecond := ofModels_eq_ok.mpr h.second
  obtain ⟨first, second, rules, _, _⟩ := d
  obtain rfl := h.options
  obtain rfl := h.solver
  by_cases hids : r.model2 = r.model1
  · rw [hids] at hsecond
    obtain rfl : first = second := Except.ok.inj (hfirst.symm.trans hsecond)
    simp [detection?, h.rules, hfirst, hids, Except.mapError, bind, Except.bind, pure, Except.pure]
  · simp [detection?, h.rules, hfirst, hsecond, hids, Except.mapError, bind, Except.bind, pure,
      Except.pure]

lemma asked_of_loaded {rules : Rules} {first second : Model}
    (hrules : Rules.ofText r.rules = .ok rules) (hfirst : Loaded ms r.model1 first)
    (hsecond : Loaded ms r.model2 second) :
    Asked ms r options solver { first, second, rules, options, solver } where
  rules := hrules
  first := hfirst
  second := hsecond
  options := rfl
  solver := rfl
  selfCheck := by
    obtain ⟨_, _, _, hid, _⟩ := hfirst
    obtain ⟨_, _, _, hid', _⟩ := hsecond
    simp [Detection.isSelfCheck, hid, hid']

lemma asked_or_refused (ms : List Model) (r : Request) (options : Options)
    (solver : Detection.Solver) :
    (∃ d, Asked ms r options solver d) ∨ ∃ e, Refused ms r e := by
  cases hrules : Rules.ofText r.rules with
  | error e => exact .inr ⟨_, .rules hrules⟩
  | ok rules =>
    obtain ⟨first, hfirst⟩ | hfirst := loaded_or_missing ms r.model1
    · by_cases hids : r.model2 = r.model1
      · exact .inl ⟨_, asked_of_loaded hrules hfirst (hids ▸ hfirst)⟩
      · obtain ⟨second, hsecond⟩ | hsecond := loaded_or_missing ms r.model2
        · exact .inl ⟨_, asked_of_loaded hrules hfirst hsecond⟩
        · exact .inr ⟨_, .second hrules hfirst hids hsecond⟩
    · exact .inr ⟨_, .first hrules hfirst⟩

lemma geometry_of_error (h : Asked ms r options solver d) {e : Detection.Error}
    (he : d.run signals = .error e) : ∃ e', e = .geometry e' := by
  rw [Detection.run_eq, Rules.fault?_of_ofText h.rules] at he
  dsimp only at he
  split at he
  · exact nomatch he
  · cases ht : d.tree? d.bounds with
    | error e' => exact ⟨e', by simpa [ht] using he.symm⟩
    | ok tree => simp [ht] at he

lemma report_of_refused {e : Error} (h : Refused ms r e) :
    (run (.ofModels ms) r options solver signals).report = .error e := by
  rw [run_of_stop (detection?_of_refused h)]
  rfl

lemma answers_run (ms : List Model) (r : Request) (options : Options) (solver : Detection.Solver)
    (signals : Signals) :
    Answers ms r options solver signals
      (run (.ofModels ms) r options solver signals).report := by
  obtain ⟨d, hd⟩ | ⟨e, he⟩ := asked_or_refused ms r options solver
  · have hjob := detection?_of_asked hd
    cases hrun : d.run signals with
    | ok o =>
      rw [run_of_ok hjob hrun]
      exact .report hd hrun
    | error e =>
      obtain ⟨e, rfl⟩ := geometry_of_error hd hrun
      rw [run_of_error hjob hrun]
      exact .failed hd hrun
  · rw [report_of_refused he]
    exact .refused he

lemma Answers.report_eq (h : Answers ms r options solver signals a) :
    (run (.ofModels ms) r options solver signals).report = a := by
  cases h with
  | refused he => exact report_of_refused he
  | failed hd hrun =>
    rw [run_of_error (detection?_of_asked hd) hrun]
    rfl
  | report hd hrun =>
    rw [run_of_ok (detection?_of_asked hd) hrun]
    rfl

lemma Answers.congr (h : Answers ms r options solver signals a)
    (hsame : ∀ d : Detection, (d.run signals).map Detection.Outcome.results =
      (d.run signals').map Detection.Outcome.results) :
    Answers ms r options solver signals' a := by
  cases h with
  | refused he => exact .refused he
  | @failed d e hd hrun =>
    have hresults := hsame d
    rw [hrun] at hresults
    cases hrun' : d.run signals' with
    | ok o => exact nomatch hrun' ▸ hresults
    | error e' =>
      obtain rfl : Detection.Error.geometry e = e' := by
        simpa [hrun', Except.map] using hresults
      exact .failed hd hrun'
  | @report d o hd hrun =>
    have hresults := hsame d
    rw [hrun] at hresults
    cases hrun' : d.run signals' with
    | error e => exact nomatch hrun' ▸ hresults
    | ok o' =>
      have hresults : o.results = o'.results := by
        simpa [hrun', Except.map] using hresults
      exact hresults ▸ .report hd hrun'

end Answers

lemma ofVolumes_empty (ε : Float) : ClashMeshes.ofVolumes ε ∅ = {} := rfl

/-- The state cell goes from started to running to the state that says how the report came out. -/
structure Outcome.Agrees (o : Outcome) : Prop where
  turns : ∃ k, o.shown.map Cells.state = .started :: List.replicate (k + 1) .running ++ [o.state]
  ended : o.state ≠ .started ∧ o.state ≠ .running
  errored : o.state = .errored ↔ ∃ e, o.report = .error e
  cancelled : o.state = .cancelled ↔ ∃ rep, o.report = .ok rep ∧ rep.metrics.state = .cancelled
  finished : o.state = .finished ↔ ∃ rep, o.report = .ok rep ∧ rep.metrics.state = .finished

lemma scanl_state (c : Cells) (last : State) (reports : List (ℕ × ℕ)) :
    ((reports.map (fun (c, t) => Write.progress c t) ++ [Write.state last]).scanl Cells.write c).map
        Cells.state = List.replicate (reports.length + 1) c.state ++ [last] := by
  induction reports generalizing c with
  | nil => rfl
  | cons p reports ih =>
    obtain ⟨current, total⟩ := p
    simp only [List.map_cons, List.cons_append, List.scanl_cons, ih, Cells.write, List.length_cons]
    rw [List.replicate_succ (n := reports.length + 1), List.cons_append]

lemma states_settled (report : Except Error (Report Float)) (reports : List (ℕ × ℕ)) :
    (settled report reports).shown.map Cells.state =
      .started :: List.replicate (reports.length + 1) .running ++ [endState report] := by
  have h := scanl_state ⟨-1, .running⟩ (endState report) reports
  rw [Outcome.shown, settled, List.cons_append, List.scanl_cons, List.map_cons]
  exact congrArg _ h

lemma agrees_settled {report : Except Error (Report Float)} (reports : List (ℕ × ℕ))
    (hends : ∀ rep, report = .ok rep →
      rep.metrics.state = .cancelled ∨ rep.metrics.state = .finished) :
    (settled report reports).Agrees := by
  have hstate := state_settled report reports
  have hreport : (settled report reports).report = report := rfl
  refine ⟨⟨reports.length, hstate ▸ states_settled report reports⟩, ?_, ?_, ?_, ?_⟩ <;>
    rw [hstate]
  all_goals
    cases report with
    | error e => simp [hreport, endState]
    | ok rep => rcases hends rep rfl with h | h <;> simp [hreport, endState, h]

lemma agrees_run (source : Source) (r : Request) (options : Options) (solver : Detection.Solver)
    (signals : Signals) : (run source r options solver signals).Agrees := by
  obtain ⟨e, he⟩ | ⟨d, o, _, ho, hrun⟩ := cases_run source r options solver signals
  · rw [he]
    exact agrees_settled [] fun _ h => nomatch h
  · rw [hrun]
    refine agrees_settled o.reports ?_
    rintro _ ⟨⟩
    exact or_iff_not_imp_left.mpr fun hc => ((Detection.onPace_run ho).done hc).1

lemma report_of_panic {source : Source} {r : Request} {rules : Rules}
    (hrules : Rules.ofText r.rules = .ok rules) (h : source r.model1 = .error .panic)
    (options : Options) (solver : Detection.Solver) (signals : Signals) :
    (run source r options solver signals).report = .error .panicked ∧
      (run source r options solver signals).state = .errored := by
  have hstop : detection? source r options solver = .error .panic := by
    simp [detection?, hrules, h, Except.mapError, bind, Except.bind]
  rw [run_of_stop hstop]
  exact ⟨rfl, rfl⟩

/-- With one answer to all questions whether it is cancelled, a job comes to what a detection over
the models it loads does, whatever the clocks, and its state says so. Cancelled from the start it
has found nothing. -/
theorem run_answers (ms : List Model) (r : Request) (options : Options)
    (solver : Detection.Solver) (b : Bool) (clock clock' : ℕ → ℕ) {o : Outcome}
    (h : run (.ofModels ms) r options solver ⟨clock, fun _ => b⟩ = o) :
    (∀ a, o.report = a ↔ Answers ms r options solver ⟨clock', fun _ => b⟩ a) ∧ o.Agrees ∧
      (b = true → ∀ rep, o.report = .ok rep → rep.left = ∅ ∧ rep.right = ∅ ∧ rep.meshes = {} ∧
        rep.metrics.counters.clashes = 0) := by
  obtain rfl := h
  refine ⟨fun a => ⟨?_, fun ha => ?_⟩, agrees_run _ _ _ _ _, ?_⟩
  · rintro rfl
    exact (answers_run ms r options solver _).congr
      (Detection.results_run_congr (fun _ => rfl) fun _ => rfl)
  · exact (ha.congr (Detection.results_run_congr (fun _ => rfl) fun _ => rfl)).report_eq
  · rintro rfl rep hrep
    obtain ⟨e, he⟩ | ⟨d, o, _, ho, hrun⟩ := cases_run (.ofModels ms) r options solver _
    · rw [he] at hrep
      exact nomatch hrep
    · rw [hrun] at hrep
      obtain rfl := Except.ok.inj hrep
      obtain ⟨hleft, hright, hvolumes, hclashes⟩ :=
        Detection.results_of_cancelled (fun _ => rfl) ho
      refine ⟨?_, ?_, ?_, hclashes⟩
      · rw [Report.ofResults, hleft]
        rfl
      · rw [Report.ofResults, hright]
        rfl
      · rw [Report.ofResults, hvolumes]
        exact ofVolumes_empty _

open Detection (pinned)

theorem run_answers_cancelled : ∃ o rep,
    run (.ofModels [pinned, vacant]) ⟨1, 1, "{}"⟩ {} .exact (.constant true) = o ∧
      o.report = .ok rep ∧ o.state = .cancelled ∧ rep.left = ∅ ∧
      Answers [pinned, vacant] ⟨1, 1, "{}"⟩ {} .exact ⟨id, fun _ => true⟩ (.ok rep) := by
  obtain ⟨rules, hrules⟩ := exists_rules
  obtain ⟨hbounds, _, hfull, _⟩ := exists_run_pinnedAgainst (.inl rfl) hrules
  obtain ⟨tree, ht⟩ : ∃ tree, (pinnedAgainst pinned rules).tree?
      (pinnedAgainst pinned rules).bounds = .ok tree := by
    obtain ⟨hempty, _⟩ | ⟨_, tree, ht, _⟩ := Detection.cases_of_ok hfull
    · exact absurd hempty hbounds
    · exact ⟨tree, ht⟩
  have hanchors : Detection.Step.anchors (pinnedAgainst pinned rules).setting tree ≠ [] := by
    obtain ⟨⟨s, t, hfirst⟩, _⟩ := items_pinnedAgainst (.inl rfl) rules
    rw [← List.length_pos_iff, Detection.length_anchors ht, hfirst]
    exact Nat.succ_pos _
  obtain ⟨o, ho, hcancelled⟩ : ∃ o, (pinnedAgainst pinned rules).run (.constant true) = .ok o ∧
      o.results.state = .cancelled := by
    refine ⟨_, Detection.run_ok (Rules.fault?_of_ofText hrules) hbounds ht _, if_pos ?_⟩
    exact (Detection.run_of_cancelled (fun _ => rfl) _ tree).2.mpr hanchors
  obtain ⟨hanswers, hagrees, hnothing⟩ := run_answers [pinned, vacant] ⟨1, 1, "{}"⟩ {} .exact
    true (fun _ => 0) id (run_pinnedAgainst (.inl rfl) hrules ho)
  exact ⟨_, _, run_pinnedAgainst (.inl rfl) hrules ho, rfl,
    hagrees.cancelled.mpr ⟨_, rfl, hcancelled⟩, (hnothing rfl _ rfl).1, (hanswers _).mp rfl⟩

end Job

end SolidClash
