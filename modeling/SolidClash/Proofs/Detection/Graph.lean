import SolidClash.Proofs.Detection.Compare

namespace SolidClash

lemma Adjacency.mem_others_add (g : Adjacency) (a b x y : UInt64) :
    y ∈ others (add g a b) x ↔ (x = a ∧ y = b) ∨ y ∈ others g x := by
  unfold others add
  rw [Std.ExtTreeMap.getD_insert]
  by_cases hx : x = a
  · subst hx
    simp [others, Std.ExtTreeSet.mem_insert, eq_comm (a := y)]
  · simp [hx, Ne.symm hx]

lemma Results.mem_left_addClash {α : Type} (r : Results α) (a b x y : UInt64) :
    y ∈ Adjacency.others (r.addClash a b).left x ↔
      y ∈ Adjacency.others r.left x ∨ (x = a ∧ y = b) ∨ (r.selfCheck = true ∧ x = b ∧ y = a) := by
  rw [addClash]
  cases r.selfCheck <;> simp [Adjacency.mem_others_add] <;> tauto

namespace Detection

/-- Two items clash: both have complete buffers, triangles of their meshes clash, and the solid they
share is not too small, unless it is not wanted or cannot be had. -/
def Setting.Clash (s : Setting) (a b : Item) : Prop :=
  ∃ m n, Tally.freshMesh? s a = some m ∧ Tally.freshMesh? s b = some n ∧
    m.clash n s.rules.epsilon = true ∧
    ∀ v, s.volume? m n = some v → s.rules.accepts v.volume v.width v.height = true

def Setting.Links (s : Setting) (x y : UInt64) (a b : Item) : Prop :=
  s.Clash a b ∧ (x = a.object.id ∧ y = b.object.id ∨
    s.selfCheck = true ∧ x = b.object.id ∧ y = a.object.id)

variable {s : Setting} {r : Results Float} {a b : Item} {x y : UInt64}

lemma record_accepted {v : Option (ClashVolume Float)}
    (h : ∀ w, v = some w → s.rules.accepts w.volume w.width w.height = true) :
    ∃ volumes, (Tally.record s x y v { results := r }).results =
      { r.addClash x y with volumes := volumes } := by
  simp only [Tally.record]
  cases v with
  | none => exact ⟨r.volumes, rfl⟩
  | some w =>
    dsimp only
    rw [if_pos (h w rfl)]
    cases s.rules.computeVolumes
    · exact ⟨r.volumes, rfl⟩
    · exact ⟨_, rfl⟩

lemma enter_of_clash (h : s.Clash a b) :
    ∃ volumes, s.enter r a b = { r.addClash a.object.id b.object.id with volumes := volumes } := by
  obtain ⟨m, n, ha, hb, hc, hv⟩ := h
  rw [Setting.enter]
  rw [ha, hb]
  dsimp only
  rw [if_pos hc]
  exact record_accepted hv

lemma enter_of_not_clash (h : ¬ s.Clash a b) : s.enter r a b = r := by
  rw [Setting.enter]
  cases ha : Tally.freshMesh? s a with
  | none => rfl
  | some m =>
    cases hb : Tally.freshMesh? s b with
    | none => rfl
    | some n =>
      dsimp only
      split
      · rename_i hc
        simp only [Tally.record]
        cases hv : s.volume? m n with
        | none =>
          refine (h ⟨m, n, ha, hb, hc, fun v hv' => ?_⟩).elim
          simp [hv] at hv'
        | some v =>
          have hacc : ¬ s.rules.accepts v.volume v.width v.height = true := by
            intro hacc
            refine h ⟨m, n, ha, hb, hc, fun w hw => ?_⟩
            obtain rfl := Option.some.inj (hv.symm.trans hw)
            exact hacc
          dsimp only
          rw [if_neg hacc]
      · rfl

lemma selfCheck_enter : (s.enter r a b).selfCheck = r.selfCheck := by
  by_cases h : s.Clash a b
  · obtain ⟨_, hr⟩ := enter_of_clash (r := r) h
    rw [hr]
    rfl
  · rw [enter_of_not_clash h]

lemma mem_left_enter (hr : r.selfCheck = s.selfCheck) :
    y ∈ Adjacency.others (s.enter r a b).left x ↔
      y ∈ Adjacency.others r.left x ∨ s.Links x y a b := by
  by_cases h : s.Clash a b
  · obtain ⟨_, hv⟩ := enter_of_clash (r := r) h
    have hl := r.mem_left_addClash a.object.id b.object.id x y
    rw [hr] at hl
    rw [hv]
    simpa only [Setting.Links, h, true_and] using hl
  · simp [enter_of_not_clash h, Setting.Links, h]

lemma mem_left_foldl_enter {ps : List (Entry × Entry)} (hr : r.selfCheck = s.selfCheck) :
    y ∈ Adjacency.others (ps.foldl (fun r p => s.enter r p.1.value p.2.value) r).left x ↔
      y ∈ Adjacency.others r.left x ∨ ∃ p ∈ ps, s.Links x y p.1.value p.2.value := by
  induction ps generalizing r with
  | nil => simp
  | cons p ps ih =>
    rw [List.foldl_cons, ih (selfCheck_enter.trans hr), mem_left_enter hr, or_assoc,
      List.exists_mem_cons_iff]

lemma left_ledger_findings (t : Tally) : (ledger t.findings.results).left = t.results.left := rfl

lemma mem_left_run {K : Item → Prop} {tree : Index} {p : Progress} {signals : Signals}
    (hbooks : p.tally.finished = ∅) (hcache : p.tally.meshes = ∅) (hleft : p.tally.results.left = ∅)
    (hself : p.tally.results.selfCheck = s.selfCheck) (hK : Coherent s K)
    (hsolve : s.solver.IsPure) (hpairs : ∀ q ∈ pairs s tree, K q.1.value ∧ K q.2.value)
    (hdone : (p.run s signals (Step.schedule s tree)).monitor.cancelled = false) :
    y ∈ Adjacency.others (p.run s signals (Step.schedule s tree)).tally.results.left x ↔
      ∃ q ∈ pairs s tree, s.Links x y q.1.value q.2.value := by
  have hsound : p.tally.findings.Sound s K := by
    intro i _ e he
    change p.tally.meshes[_]? = some e at he
    simp [hcache] at he
  have hsame : (ledger p.tally.findings.results).selfCheck = s.selfCheck := hself
  rw [← left_ledger_findings, findings_run s signals tree hbooks hdone,
    hsound.of_compareAll hK hsolve hpairs, mem_left_foldl_enter hsame, left_ledger_findings, hleft]
  simp [Adjacency.others]

end Detection

end SolidClash
