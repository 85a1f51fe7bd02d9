import SolidClash.Job
import SolidClash.Proofs.Detection.Pace

namespace SolidClash

section Percent

variable {current current' total : ℕ}

lemma percent_mono (h : current ≤ current') : percent current total ≤ percent current' total := by
  unfold percent
  split
  · exact le_rfl
  · exact Nat.div_le_div_right (Nat.mul_le_mul_right _ (min_le_min_right _ h))

lemma percent_lt (h : total = 0 ∨ current < total) : percent current total < 100 := by
  unfold percent
  split
  · omega
  · rw [min_eq_left (by omega), Nat.div_lt_iff_lt_mul (by omega)]
    omega

lemma percent_self (h : 0 < total) : percent total total = 100 := by
  rw [percent, if_neg h.ne', min_self, Nat.mul_div_cancel_left _ h]

end Percent

namespace Job

open Detection (OnPace)

def settled (report : Except Error (Report Float)) (reports : List (ℕ × ℕ)) : Outcome where
  report := report
  writes := .state .running :: reports.map (fun (c, t) => .progress c t) ++
    [.state (endState report)]

section Cells

variable {source : Source} {r : Request} {options : Options} {solver : Detection.Solver}
  {signals : Signals}

lemma run_of_stop {e : Stop} (h : detection? source r options solver = .error e) :
    run source r options solver signals = settled (caught (.error e)) [] := by
  simp only [run, work, h]
  rfl

lemma run_of_error {d : Detection} {e : Detection.Error}
    (h : detection? source r options solver = .ok d) (he : d.run signals = .error e) :
    run source r options solver signals = settled (.error (.detection e)) [] := by
  simp only [run, work, h, he]
  rfl

lemma run_of_ok {d : Detection} {o : Detection.Outcome}
    (h : detection? source r options solver = .ok d) (ho : d.run signals = .ok o) :
    run source r options solver signals =
      settled (.ok (.ofResults options.reportWeldEpsilon o.results)) o.reports := by
  simp only [run, work, h, ho]
  rfl

lemma cases_run (source : Source) (r : Request) (options : Options) (solver : Detection.Solver)
    (signals : Signals) :
    (∃ e, run source r options solver signals = settled (.error e) []) ∨
      ∃ d o, detection? source r options solver = .ok d ∧ d.run signals = .ok o ∧
        run source r options solver signals =
          settled (.ok (.ofResults options.reportWeldEpsilon o.results)) o.reports := by
  cases h : detection? source r options solver with
  | error e =>
    rw [run_of_stop h]
    cases e with
    | error e => exact .inl ⟨e, rfl⟩
    | panic => exact .inl ⟨.panicked, rfl⟩
  | ok d =>
    cases hd : d.run signals with
    | error e => exact .inl ⟨_, run_of_error h hd⟩
    | ok o => exact .inr ⟨d, o, rfl, hd, run_of_ok h hd⟩

variable (report : Except Error (Report Float)) (reports : List (ℕ × ℕ))

lemma state_settled : (settled report reports).state = endState report := by
  simp [Outcome.state, Outcome.cells, settled, Cells.write]

lemma scanl_progress (c : Cells) (last : State) :
    ((reports.map (fun (c, t) => Write.progress c t) ++ [Write.state last]).scanl Cells.write c).map
        Cells.progress =
      c.progress :: (reports.map fun (c, t) => (percent c t : ℤ)) ++
        [(reports.map fun (c, t) => (percent c t : ℤ)).getLastD c.progress] := by
  induction reports generalizing c with
  | nil => rfl
  | cons p reports ih =>
    obtain ⟨current, total⟩ := p
    have hlast (l : List ℤ) (x y : ℤ) : (x :: l).getLastD y = l.getLastD x := by
      cases l <;> rfl
    simp only [List.map_cons, List.cons_append, List.scanl_cons, ih, hlast, Cells.write]

lemma progress_settled : (settled report reports).progress =
    -1 :: -1 :: (reports.map fun (c, t) => (percent c t : ℤ)) ++
      [(reports.map fun (c, t) => (percent c t : ℤ)).getLastD (-1)] := by
  have h := scanl_progress reports ⟨-1, .running⟩ (endState report)
  rw [Outcome.progress, Outcome.shown, settled, List.cons_append, List.scanl_cons, List.map_cons]
  exact congrArg _ h

variable {reports}

lemma lastProgress_settled {c t : ℕ} (h : reports.getLast? = some (c, t)) :
    (settled report reports).lastProgress = percent c t := by
  obtain ⟨reports, rfl⟩ := List.getLast?_eq_some_iff.mp h
  simp [Outcome.lastProgress, Outcome.cells, settled, Cells.write]

lemma mem_progress_settled {x : ℤ} (h : x ∈ (settled report reports).progress) :
    x = -1 ∨ 0 ≤ x ∧ x ≤ 100 := by
  have hpercent : ∀ y ∈ reports.map fun (c, t) => (percent c t : ℤ), y = -1 ∨ 0 ≤ y ∧ y ≤ 100 := by
    intro y hy
    obtain ⟨⟨c, t⟩, _, rfl⟩ := List.mem_map.mp hy
    have := percent_le c t
    dsimp only
    exact .inr (by omega)
  rw [progress_settled] at h
  simp only [List.cons_append, List.mem_cons, List.mem_append, List.not_mem_nil, or_false] at h
  rcases h with rfl | rfl | h | rfl
  · exact .inl rfl
  · exact .inl rfl
  · exact hpercent x h
  · rcases List.eq_nil_or_concat (reports.map fun (c, t) => (percent c t : ℤ)) with hl | ⟨l, y, hl⟩
    · simp [hl]
    · rw [hl, List.concat_eq_append, List.getLastD_concat]
      exact hpercent y (by simp [hl])

lemma pairwise_progress_settled {total : ℕ} (htotal : ∀ p ∈ reports, p.2 = total)
    (h : reports.Pairwise fun p q => p.1 ≤ q.1) :
    (settled report reports).progress.Pairwise (· ≤ ·) := by
  have hpairs : (reports.map fun (c, t) => (percent c t : ℤ)).Pairwise (· ≤ ·) := by
    refine List.pairwise_map.mpr (h.imp_of_mem fun {p q} hp hq hpq => ?_)
    have hsame : p.2 = q.2 := (htotal p hp).trans (htotal q hq).symm
    dsimp only
    rw [hsame]
    exact_mod_cast percent_mono hpq
  have hlow : ∀ y ∈ (settled report reports).progress, -1 ≤ y := by
    intro y hy
    rcases mem_progress_settled report hy with rfl | ⟨h0, _⟩ <;> omega
  rw [progress_settled] at hlow ⊢
  generalize (reports.map fun (c, t) => (percent c t : ℤ)) = l at hpairs hlow
  refine List.pairwise_cons.mpr ⟨fun y hy => hlow y (List.mem_cons_of_mem _ hy),
    List.pairwise_cons.mpr ⟨fun y hy => hlow y (List.mem_cons_of_mem _ (List.mem_cons_of_mem _ hy)),
      ?_⟩⟩
  -- the last value is shown once more when the state is written
  rcases List.eq_nil_or_concat l with rfl | ⟨l, z, rfl⟩
  · simp
  · rw [List.concat_eq_append, List.getLastD_concat]
    rw [List.concat_eq_append] at hpairs
    refine List.pairwise_append.mpr ⟨hpairs, List.pairwise_singleton _ _, fun x hx y hy => ?_⟩
    obtain rfl := List.mem_singleton.mp hy
    rcases List.mem_append.mp hx with hx | hx
    · exact (List.pairwise_append.mp hpairs).2.2 x hx _ (List.mem_singleton_self _)
    · exact (List.mem_singleton.mp hx).le

end Cells

lemma lastProgress_of_finished {d : Detection} {signals : Signals} {o : Detection.Outcome}
    (h : d.OnPace signals o) (hstate : o.results.state ≠ .cancelled) (hbounds : ¬ d.bounds.IsEmpty)
    (report : Except Error (Report Float)) :
    (settled report o.reports).lastProgress =
      percent o.results.metrics.totalCombinations o.results.metrics.totalCombinations := by
  obtain ⟨_, _, hlast⟩ := h.done hstate
  exact lastProgress_settled report (hlast hbounds)

/-- What a job shows is -1 or a percentage and never goes back. It ends below 100 if the run is
cancelled. If the run ends by itself it ends at 100, or at 0 if a side has nothing to compare. -/
theorem progress_run {source : Source} {r : Request} {options : Options}
    {solver : Detection.Solver} {signals : Signals} {o : Outcome}
    (h : run source r options solver signals = o) :
    (∀ x ∈ o.progress, x = -1 ∨ 0 ≤ x ∧ x ≤ 100) ∧ o.progress.Pairwise (· ≤ ·) ∧
      (o.state = .cancelled → o.lastProgress < 100) ∧
      ∀ rep, o.report = .ok rep → o.state = .finished →
        (0 < rep.metrics.counters.totalCombinations → o.lastProgress = 100) ∧
        ∀ d, detection? source r options solver = .ok d → ¬ d.bounds.IsEmpty →
          rep.metrics.counters.totalCombinations = 0 → o.lastProgress = 0 := by
  obtain ⟨e, he⟩ | ⟨d, o', hd, ho, hrun⟩ := cases_run source r options solver signals
  · obtain rfl := he.symm.trans h
    have hnone : ∀ p ∈ ([] : List (ℕ × ℕ)), p.2 = 0 := by simp
    refine ⟨fun x hx => mem_progress_settled _ hx, pairwise_progress_settled _ hnone .nil, ?_, ?_⟩
    · simp [state_settled, endState]
    · rintro _ ⟨⟩
  · have hpace := Detection.onPace_run ho
    obtain rfl := hrun.symm.trans h
    refine ⟨fun x hx => mem_progress_settled _ hx,
      pairwise_progress_settled _ hpace.totals hpace.ascending, fun hstate => ?_, ?_⟩
    · have hc : o'.results.state = .cancelled := by
        by_contra hc
        simp [state_settled, endState, Report.ofResults, hc] at hstate
      obtain ⟨c, hle, hlast⟩ := hpace.exists_last_report hc
      rw [lastProgress_settled _ hlast]
      exact_mod_cast percent_lt ((Detection.checked_lt_of_cancelled ho hc).imp_right hle.trans_lt)
    · rintro _ ⟨⟩ hstate
      have hc : o'.results.state ≠ .cancelled := by
        intro hc
        simp [state_settled, endState, Report.ofResults, hc] at hstate
      refine ⟨fun hpos => ?_, fun d' hd' hbounds hzero => ?_⟩
      · have hbounds : ¬ d.bounds.IsEmpty := fun hempty => by
          obtain rfl := Detection.eq_nothing ho hempty
          exact absurd hpos (lt_irrefl 0)
        rw [lastProgress_of_finished hpace hc hbounds]
        exact_mod_cast percent_self hpos
      · obtain rfl := Except.ok.inj (hd.symm.trans hd')
        have hzero : o'.results.metrics.totalCombinations = 0 := hzero
        rw [lastProgress_of_finished hpace hc hbounds, hzero]
        rfl

open Detection (pinned tileEntry pinEntry tileGeometry pinGeometry)

lemma exists_rules : ∃ rules, Rules.ofText "{}" = .ok rules := by
  have hok : (Rules.ofText "{}").toOption.isSome = true := by decide +kernel
  cases h : Rules.ofText "{}" with
  | ok rules => exact ⟨rules, rfl⟩
  | error e => simp [h, Except.toOption] at hok

def vacant : Model := { id := 2, objects := [] }

def pinnedAgainst (m : Model) (rules : Rules) : Detection :=
  { first := pinned, second := m, rules }

variable {m : Model} {rules : Rules}

lemma items_pinnedAgainst (hm : m = pinned ∨ m = vacant) (rules : Rules) :
    (∃ s t, ((pinnedAgainst m rules).items .first).1 = [tileEntry s, pinEntry t]) ∧
      ((pinnedAgainst m rules).items .second).1 = [] := by
  refine ⟨Detection.indexable_pinned (pinnedAgainst m rules).length_types_first, ?_⟩
  rcases hm with rfl | rfl
  · rw [Detection.items_second_within rfl]
  · rw [Detection.items_second_across rfl]
    rfl

lemma run_pinnedAgainst (hm : m = pinned ∨ m = vacant) (hrules : Rules.ofText "{}" = .ok rules)
    {signals : Signals} {o : Detection.Outcome}
    (ho : (pinnedAgainst m rules).run signals = .ok o) :
    run (.ofModels [pinned, vacant]) ⟨1, m.id, "{}"⟩ {} .exact signals =
      settled (.ok (.ofResults ({} : Options).reportWeldEpsilon o.results)) o.reports := by
  have hjob : detection? (.ofModels [pinned, vacant]) ⟨1, m.id, "{}"⟩ {} .exact =
      .ok (pinnedAgainst m rules) := by
    rcases hm with rfl | rfl <;> simp only [detection?, hrules] <;> rfl
  exact run_of_ok hjob ho

lemma exists_run_pinnedAgainst (hm : m = pinned ∨ m = vacant)
    (hrules : Rules.ofText "{}" = .ok rules) :
    ¬ (pinnedAgainst m rules).bounds.IsEmpty ∧
      ∃ o, (pinnedAgainst m rules).run (.constant false) = .ok o ∧
        o.results.state = .finished := by
  have hbounds : (pinnedAgainst m rules).bounds =
      pinned.boundsInMetres.union m.boundsInMetres := by
    rcases hm with rfl | rfl <;> rfl
  have hbox : ¬ (pinned.boundsInMetres.union m.boundsInMetres).IsEmpty ∧
      (pinned.boundsInMetres.union m.boundsInMetres).IsFinite ∧
      (pinned.boundsInMetres.union m.boundsInMetres).Fits (tileGeometry.bounds.scaled 1.0) ∧
      (pinned.boundsInMetres.union m.boundsInMetres).Fits (pinGeometry.bounds.scaled 1.0) := by
    rcases hm with rfl | rfl <;> decide +kernel
  rw [← hbounds] at hbox
  obtain ⟨⟨s, t, hfirst⟩, hsecond⟩ := items_pinnedAgainst hm rules
  have hentries : (pinnedAgainst m rules).entries = [tileEntry s, pinEntry t] := by
    rw [Detection.entries, hfirst, hsecond, List.append_nil]
  exact ⟨hbox.1, Detection.exists_run_of_entries hentries (Rules.fault?_of_ofText hrules) hbox⟩

theorem progress_run_pinned : ∃ o rep,
    run (.ofModels [pinned, vacant]) ⟨1, 1, "{}"⟩ {} .exact (.constant false) = o ∧
      o.report = .ok rep ∧ o.state = .finished ∧ 0 < rep.metrics.counters.totalCombinations ∧
      o.progress.Pairwise (· ≤ ·) ∧ o.lastProgress = 100 := by
  obtain ⟨rules, hrules⟩ := exists_rules
  obtain ⟨hbounds, o, ho, hdone⟩ := exists_run_pinnedAgainst (.inl rfl) hrules
  have hrun := run_pinnedAgainst (.inl rfl) hrules ho
  obtain ⟨_, hmono, _, hend⟩ := progress_run hrun
  have hstate : (settled (.ok (.ofResults ({} : Options).reportWeldEpsilon o.results))
      o.reports).state = .finished := by
    simp [state_settled, endState, Report.ofResults, hdone]
  have htotal : 0 < o.results.metrics.totalCombinations := by
    obtain ⟨⟨s, t, hfirst⟩, _⟩ := items_pinnedAgainst (.inl rfl) rules
    have hunit : (pinnedAgainst pinned rules).setting.secondCount = 2 := congrArg List.length hfirst
    rw [(Detection.onPace_run ho).total hbounds, hfirst, hunit]
    exact Nat.succ_pos _
  exact ⟨_, _, hrun, rfl, hstate, htotal, hmono, (hend _ rfl hstate).1 htotal⟩

theorem lastProgress_vacant :
    (run (.ofModels [pinned, vacant]) ⟨1, 2, "{}"⟩ {} .exact (.constant false)).state =
        .finished ∧
      (run (.ofModels [pinned, vacant]) ⟨1, 2, "{}"⟩ {} .exact (.constant false)).lastProgress =
        0 := by
  obtain ⟨rules, hrules⟩ := exists_rules
  obtain ⟨hbounds, o, ho, hdone⟩ := exists_run_pinnedAgainst (.inr rfl) hrules
  have hrun : run _ ⟨1, 2, "{}"⟩ _ _ _ = _ := run_pinnedAgainst (.inr rfl) hrules ho
  have hpace := Detection.onPace_run ho
  have htotal : o.results.metrics.totalCombinations = 0 := by
    obtain ⟨_, hsecond⟩ := items_pinnedAgainst (.inr rfl) rules
    have hunit : (pinnedAgainst vacant rules).setting.secondCount = 0 :=
      congrArg List.length hsecond
    rw [hpace.total hbounds, hunit, Nat.mul_zero]
  rw [hrun, lastProgress_of_finished hpace (by simp [hdone]) hbounds, htotal]
  exact ⟨by simp [state_settled, endState, Report.ofResults, hdone], rfl⟩

end Job

end SolidClash
