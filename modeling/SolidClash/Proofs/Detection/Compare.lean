import SolidClash.Proofs.Detection.Run
import SolidClash.Proofs.Mesh.Bounds
import SolidClash.Proofs.Mesh.Shortcuts

/-! The cache is transparent: the verdict on two items is that of their fresh meshes. -/

namespace SolidClash.Detection

structure Decoded.Right (depth : ℕ) (d : Decoded) : Prop where
  bounds : d.bounds = d.mesh.bounds
  closedness : d.closedness = d.mesh.closedness
  index : ∀ index, d.index = some index →
    index = (Mesh.triangleIndex d.mesh.bounds d.mesh depth).toOption

lemma Decoded.right_ofMesh (depth : ℕ) (m : Mesh Float) : (ofMesh m).Right depth :=
  ⟨rfl, rfl, fun _ h => nomatch h⟩

lemma Decoded.Right.withIndex {depth : ℕ} {d : Decoded} (h : d.Right depth) :
    d.withIndex depth = (Mesh.triangleIndex d.mesh.bounds d.mesh depth).toOption := by
  rw [Decoded.withIndex]
  cases hi : d.index with
  | none => rw [Option.getD_none, h.bounds]
  | some index => exact h.index index hi

lemma Decoded.Right.indexed {depth : ℕ} {d : Decoded} (h : d.Right depth) :
    { d with index := some (d.withIndex depth) }.Right depth :=
  ⟨h.bounds, h.closedness, fun _ hi => (Option.some.inj hi).symm.trans h.withIndex⟩

def Coherent (s : Setting) (K : Item → Prop) : Prop :=
  ∀ i j, K i → K j → Tally.meshId s i = Tally.meshId s j →
    Tally.freshMesh? s i = Tally.freshMesh? s j

lemma isFinite_of_freshMesh {s : Setting} {i : Item} {m : Mesh Float}
    (h : Tally.freshMesh? s i = some m) : m.IsFinite := by
  obtain ⟨d, _, hd⟩ := Option.bind_eq_some_iff.mp h
  obtain ⟨_, _, rfl⟩ := Option.map_eq_some_iff.mp hd
  exact Mesh.isFinite_ofBytes _ _ _ _

namespace Tally

/-- Every item of a family finds its own mesh in the cache, if it finds one. -/
def Sound (s : Setting) (K : Item → Prop) (t : Tally) : Prop :=
  ∀ i, K i → ∀ d, t.meshes[meshId s i]? = some d →
    freshMesh? s i = some d.mesh ∧ d.Right s.options.maxOctreeDepth

variable {s : Setting} {K : Item → Prop} {t : Tally}

lemma Sound.of_insert (h : t.Sound s K) (hK : Coherent s K) {i : Item} (hi : K i) {d : Decoded}
    (hm : freshMesh? s i = some d.mesh) (hd : d.Right s.options.maxOctreeDepth) :
    { t with meshes := t.meshes.insert (meshId s i) d }.Sound s K := by
  intro j hj e he
  rw [Std.HashMap.getElem?_insert] at he
  by_cases hij : meshId s i = meshId s j
  · rw [if_pos (by simpa using hij)] at he
    obtain rfl := Option.some.inj he
    exact ⟨(hK i j hi hj hij) ▸ hm, hd⟩
  · rw [if_neg (by simpa using hij)] at he
    exact h j hj e he

lemma meshes_note (id : UInt64) (d : Decoded) : (t.note id d).meshes = t.meshes := by
  rw [note]
  cases d.closedness <;> rfl

lemma Sound.of_note (h : t.Sound s K) (id : UInt64) (d : Decoded) : (t.note id d).Sound s K := by
  rw [Sound, meshes_note]
  exact h

lemma Sound.of_fetch (h : t.Sound s K) (hK : Coherent s K) {i : Item} (hi : K i) :
    (t.fetch s i).1.map Decoded.mesh = freshMesh? s i ∧
      (∀ d, (t.fetch s i).1 = some d → d.Right s.options.maxOctreeDepth) ∧
      (t.fetch s i).2.Sound s K := by
  rw [fetch]
  cases hc : t.meshes[meshId s i]? with
  | some d =>
    obtain ⟨hm, hd⟩ := h i hi d hc
    refine ⟨hm.symm, ?_, h.of_note _ _⟩
    rintro _ ⟨⟩
    exact hd
  | none =>
    cases hf : freshMesh? s i with
    | none =>
      refine ⟨rfl, ?_, h⟩
      rintro _ ⟨⟩
    | some m =>
      have hd := Decoded.right_ofMesh s.options.maxOctreeDepth m
      refine ⟨rfl, ?_, (h.of_insert hK hi (d := .ofMesh m) hf hd).of_note _ _⟩
      rintro _ ⟨⟩
      exact hd

lemma Sound.of_fetchBoth (h : t.Sound s K) (hK : Coherent s K) {a b : Item} (ha : K a)
    (hb : K b) :
    (t.fetchBoth s a b).2.Sound s K ∧
      (((t.fetchBoth s a b).1 = none ∧ (freshMesh? s a = none ∨ freshMesh? s b = none)) ∨
        ∃ da db, (t.fetchBoth s a b).1 = some (da, db) ∧
          (freshMesh? s a = some da.mesh ∧ da.Right s.options.maxOctreeDepth) ∧
          (freshMesh? s b = some db.mesh ∧ db.Right s.options.maxOctreeDepth)) := by
  have hs : (t.countWith fun m => { m with examinedPairs := m.examinedPairs + 1 }).Sound s K := h
  obtain ⟨hma, hra, hsa⟩ := hs.of_fetch hK ha
  obtain ⟨hmb, hrb, hsb⟩ := hsa.of_fetch hK hb
  rw [fetchBoth]
  dsimp only
  generalize (t.countWith fun m => { m with examinedPairs := m.examinedPairs + 1 }).fetch s a = fa
    at *
  generalize fa.2.fetch s b = fb at *
  refine ⟨hsb, ?_⟩
  rw [← hma, ← hmb]
  cases hfa : fa.1 with
  | none => exact Or.inl ⟨rfl, Or.inl rfl⟩
  | some da =>
    cases hfb : fb.1 with
    | none => exact Or.inl ⟨rfl, Or.inr rfl⟩
    | some db => exact Or.inr ⟨da, db, rfl, ⟨rfl, hra da hfa⟩, ⟨rfl, hrb db hfb⟩⟩

lemma Sound.of_clash (h : t.Sound s K) (hK : Coherent s K) {i j : Item} (hj : K j)
    {a b : Decoded} (ha : freshMesh? s i = some a.mesh) (hb : freshMesh? s j = some b.mesh)
    (hra : a.Right s.options.maxOctreeDepth) (hrb : b.Right s.options.maxOctreeDepth) :
    (t.clash s (meshId s j) a b).1 = a.mesh.clash b.mesh s.rules.epsilon ∧
      (t.clash s (meshId s j) a b).2.Sound s K := by
  have hna := (isFinite_of_freshMesh ha).numeric
  have hnb := (isFinite_of_freshMesh hb).numeric
  rw [clash]
  dsimp only
  split
  · rename_i hskip
    refine ⟨Eq.symm ?_, h⟩
    rw [hra.bounds, hrb.bounds] at hskip
    rcases hskip with he | he | ho
    · simp [Mesh.clash, Mesh.triangles, show a.mesh.faces = [] from he]
    · simp [Mesh.clash, Mesh.triangles, show b.mesh.faces = [] from he]
    · -- decoded meshes have no NaN, so the box test loses nothing
      exact Mesh.clash_eq_false hna hnb ho _
  · cases s.options.strategy with
    | bruteForce => exact ⟨rfl, h⟩
    | triangleOctree =>
      have hs := h.of_insert hK hj
        (d := { b with index := some (b.withIndex s.options.maxOctreeDepth) }) hb hrb.indexed
      have hw := hrb.withIndex
      dsimp only
      cases hx : b.withIndex s.options.maxOctreeDepth with
      | none =>
        rw [hx] at hs
        exact ⟨rfl, hs⟩
      | some index =>
        rw [hx] at hs hw
        cases ht : Mesh.triangleIndex b.mesh.bounds b.mesh s.options.maxOctreeDepth with
        | error e => simp [ht, Except.toOption] at hw
        | ok index' =>
          simp only [ht, Except.toOption, Option.some.injEq] at hw
          exact ⟨Mesh.clashIndexed_eq_clash (hw ▸ ht) _, hs⟩

lemma Sound.of_volume (h : t.Sound s K) (a b : Decoded) : (t.volume s a b).2.Sound s K := by
  rw [volume]
  split
  · dsimp only
    cases s.solver t.solved.length a.mesh b.mesh <;> exact h
  · exact h

lemma Sound.of_record (h : t.Sound s K) (a b : UInt64) (v : Option (ClashVolume Float)) :
    (t.record s a b v).Sound s K := by
  simp only [record]
  cases v with
  | none => exact h
  | some v =>
    dsimp only
    split
    · exact h
    · exact h

end Tally

def ledger (r : Results Float) : Results Float :=
  { r with openMeshes := ∅, undecodableMeshes := ∅, metrics := { clashes := r.metrics.clashes } }

def Setting.volume? (s : Setting) (a b : Mesh Float) : Option (ClashVolume Float) :=
  if Tally.wantsVolume s (.ofMesh a) (.ofMesh b) then
    match s.solver 0 a b with
    | .ok solid =>
      let v := ClashVolume.ofSolid solid
      some (if s.rules.computeVolumes then v else v.dropSolid)
    | .error _ => none
  else none

def Setting.enter (s : Setting) (r : Results Float) (a b : Item) : Results Float :=
  match Tally.freshMesh? s a, Tally.freshMesh? s b with
  | some m, some n =>
    if m.clash n s.rules.epsilon then
      (Tally.record s a.object.id b.object.id (s.volume? m n) { results := r }).results
    else r
  | _, _ => r

/-- A solver that looks at nothing but the two meshes. -/
def Solver.IsPure (solve : Solver) : Prop := ∀ m n a b, solve m a b = solve n a b

namespace Tally

variable {s : Setting} {K : Item → Prop} {t : Tally}

lemma ledger_note (t : Tally) (id : UInt64) (d : Decoded) :
    ledger (t.note id d).results = ledger t.results := by
  rw [note]
  cases d.closedness <;> rfl

lemma ledger_fetch (s : Setting) (i : Item) (t : Tally) :
    ledger (t.fetch s i).2.results = ledger t.results := by
  rw [fetch]
  cases t.meshes[meshId s i]? with
  | some d => exact ledger_note _ _ _
  | none =>
    cases freshMesh? s i with
    | none => rfl
    | some m => exact ledger_note _ _ _

lemma ledger_fetchBoth (s : Setting) (a b : Item) (t : Tally) :
    ledger (t.fetchBoth s a b).2.results = ledger t.results :=
  (ledger_fetch s b _).trans (ledger_fetch s a _)

lemma ledger_clash (s : Setting) (id : MeshId) (a b : Decoded) (t : Tally) :
    ledger (t.clash s id a b).2.results = ledger t.results := by
  rw [clash]
  dsimp only
  split
  · rfl
  · cases s.options.strategy with
    | bruteForce => rfl
    | triangleOctree => cases b.withIndex s.options.maxOctreeDepth <;> rfl

lemma ledger_volume (s : Setting) (a b : Decoded) (t : Tally) :
    ledger (t.volume s a b).2.results = ledger t.results := by
  rw [volume]
  split
  · dsimp only
    cases s.solver t.solved.length a.mesh b.mesh <;> rfl
  · rfl

lemma wantsVolume_eq {a b : Decoded} (ha : a.Right s.options.maxOctreeDepth)
    (hb : b.Right s.options.maxOctreeDepth) :
    wantsVolume s a b = wantsVolume s (.ofMesh a.mesh) (.ofMesh b.mesh) := by
  rw [wantsVolume, ha.closedness, hb.closedness]
  rfl

lemma volume_eq {a b : Decoded} (hsolve : s.solver.IsPure)
    (ha : a.Right s.options.maxOctreeDepth) (hb : b.Right s.options.maxOctreeDepth) :
    (t.volume s a b).1 = s.volume? a.mesh b.mesh := by
  rw [volume, Setting.volume?, wantsVolume_eq ha hb, hsolve 0 t.solved.length]
  split
  · dsimp only
    cases s.solver t.solved.length a.mesh b.mesh <;> rfl
  · rfl

lemma ledger_record (x y : UInt64) (v : Option (ClashVolume Float)) :
    ledger (t.record s x y v).results =
      (record s x y v { results := ledger t.results }).results := by
  simp only [record]
  cases v with
  | none => rfl
  | some v =>
    dsimp only
    split
    · cases s.rules.computeVolumes <;> rfl
    · rfl

lemma enter_of_missing {a b : Item} (h : freshMesh? s a = none ∨ freshMesh? s b = none)
    (r : Results Float) : s.enter r a b = r := by
  rw [Setting.enter]
  rcases h with h | h
  · rw [h]
  · rw [h]
    cases freshMesh? s a <;> rfl

lemma Sound.of_compare (h : t.Sound s K) (hK : Coherent s K) (hsolve : s.solver.IsPure)
    {a b : Item} (ha : K a) (hb : K b) :
    (t.compare s a b).Sound s K ∧
      ledger (t.compare s a b).results = s.enter (ledger t.results) a b := by
  rw [compare_eq, ← ledger_fetchBoth s a b t]
  obtain ⟨hs, hmeshes⟩ := h.of_fetchBoth hK ha hb
  generalize t.fetchBoth s a b = both at *
  obtain ⟨_, t⟩ := both
  rcases hmeshes with ⟨rfl, hmissing⟩ | ⟨da, db, rfl, ⟨hma, hra⟩, hmb, hrb⟩
  · exact ⟨hs, (enter_of_missing hmissing _).symm⟩
  · obtain ⟨hc, hsc⟩ := hs.of_clash hK hb hma hmb hra hrb
    have hledger := ledger_clash s (meshId s b) da db t
    rw [Setting.enter, hma, hmb]
    dsimp only
    rw [← hc]
    generalize t.clash s (meshId s b) da db = hit at *
    split
    · refine ⟨(hsc.of_volume da db).of_record _ _ _, ?_⟩
      rw [ledger_record, volume_eq hsolve hra hrb, ledger_volume, hledger]
    · exact ⟨hsc, hledger⟩

lemma Sound.of_compareAll (h : t.Sound s K) (hK : Coherent s K) (hsolve : s.solver.IsPure)
    {ps : List (Entry × Entry)} (hps : ∀ p ∈ ps, K p.1.value ∧ K p.2.value) :
    ledger (t.compareAll s ps).results =
      ps.foldl (fun r p => s.enter r p.1.value p.2.value) (ledger t.results) := by
  induction ps generalizing t with
  | nil => rfl
  | cons p ps ih =>
    obtain ⟨hp₁, hp₂⟩ := hps p List.mem_cons_self
    obtain ⟨hs, hl⟩ := h.of_compare hK hsolve hp₁ hp₂
    simp only [compareAll, List.foldl_cons] at ih ⊢
    rw [ih hs fun q hq => hps q (List.mem_cons_of_mem _ hq), hl]

end Tally

end SolidClash.Detection
