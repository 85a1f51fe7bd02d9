import SolidClash.Proofs.Detection.Advance

namespace SolidClash.Detection

structure Log (unit total checked : ℕ) (reports : List (ℕ × ℕ)) : Prop where
  entries : ∀ r ∈ reports, r.2 = total ∧ unit ∣ r.1 ∧ r.1 ≤ checked
  descending : reports.Pairwise fun r r' => r'.1 ≤ r.1

lemma Log.mono {unit total checked checked' : ℕ} {reports : List (ℕ × ℕ)}
    (h : Log unit total checked reports) (hle : checked ≤ checked') :
    Log unit total checked' reports where
  entries r hr := (h.entries r hr).imp_right (.imp_right (·.trans hle))
  descending := h.descending

lemma Log.report {unit total checked : ℕ} {reports : List (ℕ × ℕ)}
    (h : Log unit total checked reports) (hc : unit ∣ checked) :
    Log unit total checked ((checked, total) :: reports) where
  entries := List.forall_mem_cons.mpr ⟨⟨rfl, hc, le_rfl⟩, h.entries⟩
  descending := List.pairwise_cons.mpr ⟨fun r hr => (h.entries r hr).2.2, h.descending⟩

structure Progress.InStep (s : Setting) (signals : Signals) (total : ℕ) (p : Progress) : Prop where
  combinations : p.tally.results.metrics.totalCombinations = total
  checked : s.secondCount ∣ p.tally.results.metrics.checkedCombinations
  log : Log s.secondCount total p.tally.results.metrics.checkedCombinations p.monitor.reports
  questions : p.monitor.questions = p.monitor.reports.length
  seen : p.monitor.cancelled = true →
    ∃ n, p.monitor.questions = n + 1 ∧ signals.cancelled n = true

namespace Progress

variable {s : Setting} {signals : Signals} {total : ℕ} {p : Progress}

lemma InStep.of_advance (h : p.InStep s signals total) {n k : ℕ} {u : Tally}
    (hu : Metrics.Advance n (k * s.secondCount) p.tally.results.metrics u.results.metrics) :
    ({ p with tally := u } : Progress).InStep s signals total where
  combinations := (congrArg Metrics.totalCombinations hu.standing :).trans h.combinations
  checked := by
    rw [hu.checked]
    exact Nat.dvd_add h.checked (Nat.dvd_mul_left _ _)
  log := h.log.mono ((Nat.le_add_right _ _).trans_eq hu.checked.symm)
  questions := h.questions
  seen := h.seen

lemma InStep.poll (h : p.InStep s signals total) :
    (p.step s signals .poll).InStep s signals total := by
  have hlog := h.log.report h.checked
  rw [← h.combinations] at hlog
  dsimp only [step, Monitor.poll]
  split
  · exact {
      combinations := h.combinations
      checked := h.checked
      log := h.combinations ▸ hlog
      questions := by rw [List.length_cons, h.questions]
      seen := fun hc => ⟨_, rfl, hc⟩ }
  · exact ⟨h.combinations, h.checked, h.log, h.questions, h.seen⟩

lemma InStep.step (h : p.InStep s signals total) (st : Step) :
    (p.step s signals st).InStep s signals total := by
  have hadvance := p.tally.advance_take s st
  cases st with
  | poll => exact h.poll
  | examine a c => exact h.of_advance (k := 0) (by simpa [Step.isFinish, Tally.take] using hadvance)
  | finish a => exact h.of_advance (k := 1) (by simpa [Step.isFinish, Tally.take] using hadvance)

lemma InStep.run (h : p.InStep s signals total) (sts : List Step) :
    (p.run s signals sts).InStep s signals total := by
  induction sts generalizing p with
  | nil => exact h
  | cons st sts ih =>
    rw [Progress.run]
    split
    · exact h.step st
    · exact ih (h.step st)

lemma InStep.exists_log (h : p.InStep s signals total) :
    ∃ reports, (conclude p).reports = reports.reverse ∧
      Log s.secondCount total p.tally.results.metrics.checkedCombinations reports ∧
      p.monitor.reports <:+ reports := by
  cases hc : p.monitor.cancelled with
  | true => exact ⟨p.monitor.reports, by simp [conclude, hc], h.log, List.suffix_rfl⟩
  | false =>
    refine ⟨_, ?_, h.log.report h.checked, List.suffix_cons _ _⟩
    simp [conclude, hc, Monitor.report, h.combinations]

lemma suffix_reports_step (st : Step) :
    p.monitor.reports <:+ (p.step s signals st).monitor.reports := by
  cases st with
  | poll =>
    dsimp only [step, Monitor.poll]
    split
    · exact List.suffix_cons _ _
    · exact List.suffix_rfl
  | examine a c => exact List.suffix_rfl
  | finish a => exact List.suffix_rfl

lemma suffix_reports_run (sts : List Step) :
    p.monitor.reports <:+ (p.run s signals sts).monitor.reports := by
  induction sts generalizing p with
  | nil => exact List.suffix_rfl
  | cons st sts ih =>
    rw [run]
    split
    · exact suffix_reports_step st
    · exact (suffix_reports_step st).trans ih

lemma exists_taken_of_cancelled {sts : List Step} (hp : p.monitor.cancelled = false)
    (h : (p.run s signals sts).monitor.cancelled = true) :
    ∃ before, taken s signals sts p = before ++ [.poll] := by
  induction sts generalizing p with
  | nil => exact absurd (hp.symm.trans h) Bool.false_ne_true
  | cons st sts ih =>
    rw [run] at h
    rw [taken]
    cases hc : (p.step s signals st).monitor.cancelled with
    | false =>
      rw [hc] at h
      obtain ⟨before, hbefore⟩ := ih hc h
      exact ⟨st :: before, by simp [hbefore]⟩
    | true =>
      cases st with
      | poll => exact ⟨[], rfl⟩
      | examine a c => exact absurd (hp.symm.trans hc) Bool.false_ne_true
      | finish a => exact absurd (hp.symm.trans hc) Bool.false_ne_true

end Progress

namespace Step

variable {s : Setting} {t : Index}

lemma exists_schedule_poll (h : anchors s t ≠ []) : ∃ sts, schedule s t = .poll :: sts := by
  obtain ⟨⟨p, a⟩, rest, hrest⟩ := List.exists_cons_of_ne_nil h
  exact ⟨_, by rw [schedule, hrest]; rfl⟩

lemma exists_schedule_finish (h : anchors s t ≠ []) :
    ∃ sts a, schedule s t = sts ++ [.finish a] := by
  obtain ⟨init, ⟨p, a⟩, hinit⟩ := (List.eq_nil_or_concat _).resolve_left h
  refine ⟨init.flatMap (fun q => ofAnchor s t q.1 q.2) ++ .poll ::
    (candidates s t p a).flatMap (fun c => [examine a c, .poll]), a, ?_⟩
  rw [schedule, hinit]
  simp [ofAnchor]

end Step

/-- The reports of a run count the combinations up to all of them, and how it ends fits them. -/
structure OnPace (d : Detection) (signals : Signals) (o : Outcome) : Prop where
  total : ¬ d.bounds.IsEmpty → o.results.metrics.totalCombinations =
    (d.items .first).1.length * d.setting.secondCount
  totals : ∀ r ∈ o.reports, r.2 = o.results.metrics.totalCombinations
  ascending : o.reports.Pairwise fun r r' => r.1 ≤ r'.1
  bounded : ∀ r ∈ o.reports, r.1 ≤ o.results.metrics.checkedCombinations
  checked : o.results.metrics.checkedCombinations ≤ o.results.metrics.totalCombinations
  multiples : ∀ r ∈ o.reports, d.setting.secondCount ∣ r.1
  first : ¬ d.bounds.IsEmpty → (d.items .first).1 ≠ [] →
    o.reports.head? = some (0, o.results.metrics.totalCombinations)
  stopped : o.results.state = .cancelled →
    (∃ n, o.reports.length = n + 1 ∧ signals.cancelled n = true) ∧
      ∃ k < (d.items .first).1.length,
        o.results.metrics.checkedCombinations = k * d.setting.secondCount
  done : o.results.state ≠ .cancelled → o.results.state = .finished ∧
    o.results.metrics.checkedCombinations = o.results.metrics.totalCombinations ∧
      (¬ d.bounds.IsEmpty → o.reports.getLast? =
        some (o.results.metrics.totalCombinations, o.results.metrics.totalCombinations))

variable {d : Detection} {signals : Signals} {b : Box Float} {tree : Index} {o : Outcome}

lemma inStep_start (d : Detection) (signals : Signals) :
    d.start.InStep d.setting signals ((d.items .first).1.length * d.setting.secondCount) where
  combinations := rfl
  checked := Nat.dvd_zero _
  log := ⟨by simp [start, Monitor.new], .nil⟩
  questions := rfl
  seen := by simp [start, Monitor.new]

lemma checked_run (d : Detection) (tree : Index) (signals : Signals) :
    (d.start.run d.setting signals
      (Step.schedule d.setting tree)).tally.results.metrics.checkedCombinations =
    (Progress.taken d.setting signals (Step.schedule d.setting tree) d.start).countP
      Step.isFinish * d.setting.secondCount := by
  rw [Progress.tally_run, (d.start.tally.advance_foldl d.setting _).checked]
  exact Nat.zero_add _

lemma countP_taken_lt (ht : d.tree? b = .ok tree) (signals : Signals)
    (hc : (d.start.run d.setting signals (Step.schedule d.setting tree)).monitor.cancelled =
      true) :
    (Progress.taken d.setting signals (Step.schedule d.setting tree) d.start).countP
      Step.isFinish < (d.items .first).1.length := by
  obtain ⟨before, hbefore⟩ := Progress.exists_taken_of_cancelled rfl hc
  have hprefix := Progress.prefix_taken d.setting signals (Step.schedule d.setting tree) d.start
  rw [hbefore] at hprefix ⊢
  have hanchors : Step.anchors d.setting tree ≠ [] := by
    intro hnil
    simp [Step.schedule, hnil] at hprefix
  obtain ⟨init, a, hlast⟩ := Step.exists_schedule_finish hanchors
  rw [hlast, List.prefix_concat_iff] at hprefix
  rcases hprefix with hall | hinit
  · -- the last step taken is a poll, the last step of all is not
    simpa using (List.append_inj' hall rfl).2
  · calc (before ++ [Step.poll]).countP Step.isFinish
        ≤ init.countP Step.isFinish := hinit.sublist.countP_le
      _ < (init ++ [Step.finish a]).countP Step.isFinish := by simp [Step.isFinish]
      _ = (d.items .first).1.length := by
        rw [← hlast, Step.countP_isFinish_schedule, length_anchors ht]

lemma getLast?_reports_run (ht : d.tree? b = .ok tree) (signals : Signals)
    (hitems : (d.items .first).1 ≠ []) :
    (d.start.run d.setting signals (Step.schedule d.setting tree)).monitor.reports.getLast? =
      some (0, (d.items .first).1.length * d.setting.secondCount) := by
  have hanchors : Step.anchors d.setting tree ≠ [] := by
    rw [← List.length_pos_iff, length_anchors ht, List.length_pos_iff]
    exact hitems
  obtain ⟨sts, hsts⟩ := Step.exists_schedule_poll hanchors
  have hfirst : (d.start.step d.setting signals .poll).monitor.reports =
      [(0, (d.items .first).1.length * d.setting.secondCount)] := rfl
  have hrest : (d.start.step d.setting signals .poll).monitor.reports <:+
      (d.start.run d.setting signals (Step.schedule d.setting tree)).monitor.reports := by
    rw [hsts, Progress.run]
    split
    · exact List.suffix_rfl
    · exact Progress.suffix_reports_run sts
  obtain ⟨later, hlater⟩ := hrest
  rw [← hlater, hfirst, List.getLast?_append]
  rfl

lemma onPace_nothing (d : Detection) (signals : Signals) (h : d.bounds.IsEmpty) :
    d.OnPace signals d.nothing := by
  constructor <;> simp [nothing, h]

lemma checked_run_le (ht : d.tree? b = .ok tree) (signals : Signals) :
    (d.start.run d.setting signals
      (Step.schedule d.setting tree)).tally.results.metrics.checkedCombinations ≤
    (d.items .first).1.length * d.setting.secondCount := by
  have hprefix := Progress.prefix_taken d.setting signals (Step.schedule d.setting tree) d.start
  rw [checked_run, ← length_anchors ht, ← Step.countP_isFinish_schedule]
  exact Nat.mul_le_mul_right _ hprefix.sublist.countP_le

lemma checked_run_of_not_cancelled (ht : d.tree? b = .ok tree) (signals : Signals)
    (hc : (d.start.run d.setting signals (Step.schedule d.setting tree)).monitor.cancelled =
      false) :
    (d.start.run d.setting signals
      (Step.schedule d.setting tree)).tally.results.metrics.checkedCombinations =
    (d.items .first).1.length * d.setting.secondCount := by
  rw [checked_run, Progress.taken_of_not_cancelled _ _ _ hc, Step.countP_isFinish_schedule,
    length_anchors ht]

lemma onPace_conclude (ht : d.tree? d.bounds = .ok tree) (signals : Signals) :
    d.OnPace signals
      (conclude (d.start.run d.setting signals (Step.schedule d.setting tree))) := by
  have hstep := (inStep_start d signals).run (Step.schedule d.setting tree)
  have hchecked := checked_run d tree signals
  have hle := checked_run_le ht signals
  have hall := checked_run_of_not_cancelled ht signals
  have hlt := countP_taken_lt ht signals
  have hfirst := getLast?_reports_run ht signals
  generalize d.start.run d.setting signals (Step.schedule d.setting tree) = p at *
  obtain ⟨reports, hreports, hlog, hlater⟩ := hstep.exists_log
  have htotal : (conclude p).results.metrics.totalCombinations = _ := hstep.combinations
  have hentries := fun r hr => hlog.entries r (List.mem_reverse.mp (hreports ▸ hr))
  rw [← htotal] at hentries hle hall hfirst
  refine {
    total := fun _ => htotal
    totals := fun r hr => (hentries r hr).1
    ascending := hreports ▸ List.pairwise_reverse.mpr hlog.descending
    bounded := fun r hr => (hentries r hr).2.2
    checked := hle
    multiples := fun r hr => (hentries r hr).2.1
    first := fun _ hitems => ?_
    stopped := fun hstate => ?_
    done := fun hstate => ?_ }
  · obtain ⟨later, rfl⟩ := hlater
    rw [hreports, List.head?_reverse, List.getLast?_append, hfirst hitems]
    rfl
  · have hc : p.monitor.cancelled = true := by
      by_contra hc
      simp [conclude, hc] at hstate
    obtain ⟨n, hn, hseen⟩ := hstep.seen hc
    refine ⟨⟨n, ?_, hseen⟩, _, hlt hc, hchecked⟩
    simp [conclude, hc, ← hstep.questions, hn]
  · have hc : p.monitor.cancelled = false := by
      by_contra hc
      simp [conclude, hc] at hstate
    have hdone := hall hc
    refine ⟨by simp [conclude, hc], hdone, fun _ => ?_⟩
    have hlast : (conclude p).reports.getLast? =
        some (p.tally.results.metrics.checkedCombinations,
          (conclude p).results.metrics.totalCombinations) := by
      simp [conclude, hc, Monitor.report]
    rw [hlast, hdone]

lemma onPace_run (h : d.run signals = .ok o) : d.OnPace signals o := by
  obtain ⟨hempty, rfl⟩ | ⟨_, tree, ht, rfl⟩ := cases_of_ok h
  · exact onPace_nothing d signals hempty
  · exact onPace_conclude ht signals

lemma checked_lt_of_cancelled (h : d.run signals = .ok o) (hc : o.results.state = .cancelled) :
    o.results.metrics.totalCombinations = 0 ∨
      o.results.metrics.checkedCombinations < o.results.metrics.totalCombinations := by
  have hpace := onPace_run h
  have hbounds : ¬ d.bounds.IsEmpty := fun hempty => by
    obtain rfl := eq_nothing h hempty
    exact nomatch hc
  obtain ⟨_, k, hk, hchecked⟩ := hpace.stopped hc
  rw [hchecked, hpace.total hbounds]
  rcases Nat.eq_zero_or_pos d.setting.secondCount with hunit | hunit
  · exact .inl (by rw [hunit, Nat.mul_zero])
  · exact .inr (Nat.mul_lt_mul_of_pos_right hk hunit)

lemma OnPace.exists_last_report (h : d.OnPace signals o) (hc : o.results.state = .cancelled) :
    ∃ c ≤ o.results.metrics.checkedCombinations,
      o.reports.getLast? = some (c, o.results.metrics.totalCombinations) := by
  obtain ⟨⟨n, hn, _⟩, _⟩ := h.stopped hc
  obtain ⟨init, ⟨c, t⟩, hreports⟩ :=
    (List.eq_nil_or_concat o.reports).resolve_left fun hnil => by simp [hnil] at hn
  have hmem : (c, t) ∈ o.reports := by simp [hreports]
  obtain rfl : t = _ := h.totals _ hmem
  exact ⟨c, h.bounded _ hmem, by simp [hreports]⟩

/-- Whatever the clock and the sink do: the reports of a run count the combinations done, in steps
of the second side, from none to all of them unless an answer cancels it, and no counter outgrows a
machine word while it runs or at its end. -/
theorem run_keeps_pace (hfirst : d.first.objects.length < UInt32.size)
    (hother : d.other.objects.length < UInt32.size) (h : d.run signals = .ok o) :
    d.OnPace signals o ∧
      (∀ tree, d.tree? d.bounds = .ok tree → ∀ sts, sts <+: Step.schedule d.setting tree →
        ∀ c ∈ (sts.foldl (Tally.take d.setting) d.start.tally).results.metrics.counters,
          c < UInt64.size) ∧
      ∀ c ∈ o.results.metrics.counters, c < UInt64.size :=
  ⟨onPace_run h, fun _ ht _ hsts => counters_foldl_lt hfirst hother ht hsts,
    counters_lt hfirst hother h⟩

theorem run_keeps_pace_shallow : shallowCheck.first.objects.length < UInt32.size ∧ ∃ o o',
    (shallowCheck.atInterval 0).run stopped = .ok o ∧ o.results.state = .cancelled ∧
      o.reports.length = 3 ∧ o.reports.head? = some (0, 4) ∧
      (shallowCheck.atInterval 7).run (.constant false) = .ok o' ∧
      o'.results.state = .finished ∧ o'.reports.head? = some (0, 4) ∧
      o'.reports.getLast? = some (4, 4) := by
  have hsize : shallowCheck.first.objects.length < UInt32.size := by decide
  have hbounds : ¬ shallowCheck.bounds.IsEmpty := by decide +kernel
  obtain ⟨s, t, hentries⟩ := entries_pinnedCheck
  have hitems (i : ℕ) : ((shallowCheck.atInterval i).items .first).1 =
      [tileEntry s, pinEntry t] := by
    rw [← hentries, entries, items_second_within rfl, List.append_nil]
    rfl
  have hunit (i : ℕ) : (shallowCheck.atInterval i).setting.secondCount = 2 :=
    congrArg List.length (hitems i)
  obtain ⟨o, o', ho, hstopped, hlength, _, ho', hdone⟩ := exists_runs_shallowCheck
  obtain ⟨h, _⟩ := run_keeps_pace (d := shallowCheck.atInterval 0) hsize hsize ho
  obtain ⟨h', _⟩ := run_keeps_pace (d := shallowCheck.atInterval 7) hsize hsize ho'
  have hfirst := h.first hbounds (by simp [hitems])
  have hfirst' := h'.first hbounds (by simp [hitems])
  obtain ⟨_, _, hlast⟩ := h'.done (by simp [hdone])
  have hlast := hlast hbounds
  rw [h.total hbounds, hitems, hunit] at hfirst
  rw [h'.total hbounds, hitems, hunit] at hfirst' hlast
  exact ⟨hsize, o, o', ho, hstopped, hlength, hfirst, ho', hdone, hfirst', hlast⟩

end SolidClash.Detection
