import SolidClash.Proofs.Detection.Advance
import SolidClash.Proofs.Detection.Consistent

namespace SolidClash

namespace Mesh

def HasIndex (m : Mesh Float) : Prop :=
  ∀ depth, ∃ index, triangleIndex m.bounds m depth = .ok index ∧ index.length = m.faces.length ∧
    (index.entries.map fun e => e.2.value).Perm (List.range m.faces.length)

lemma map_value_numbered (m : Mesh Float) :
    m.numbered.map Octree.Entry.value = List.range m.faces.length := by
  simp [numbered, Function.comp_def, List.range_eq_range', triangles]

lemma IsFinite.hasIndex {m : Mesh Float} (h : m.IsFinite) (hm : ¬ m.IsEmpty) : m.HasIndex := by
  intro depth
  obtain ⟨index, hindex⟩ := exists_triangleIndex h.numeric (mt h.bounds_isEmpty_iff.mp hm)
    (h.bounds_isFinite hm) depth
  have hgrown := grown_of_triangleIndex hindex
  have hperm := hgrown.entries_perm.map Octree.Entry.value
  rw [map_value_numbered, List.map_map] at hperm
  refine ⟨index, hindex, ?_, hperm⟩
  rw [hgrown.length_eq, ← List.length_map Octree.Entry.value, map_value_numbered,
    List.length_range]

end Mesh

namespace Detection

/-- As it comes from buffers, perhaps with the octree over it. -/
structure Decoded.Usable (depth : ℕ) (d : Decoded) : Prop where
  finite : d.mesh.IsFinite
  right : d.Right depth

lemma Decoded.Usable.exists_index {depth : ℕ} {d : Decoded} (h : d.Usable depth)
    (hm : ¬ d.mesh.IsEmpty) : ∃ index, d.withIndex depth = some index := by
  obtain ⟨index, hindex, -⟩ := h.finite.hasIndex hm depth
  exact ⟨index, by rw [h.right.withIndex, hindex]; rfl⟩

def Setting.FallsBack (s : Setting) (a b : Decoded) : Prop :=
  s.options.strategy = .triangleOctree ∧ ¬ a.mesh.IsEmpty ∧ ¬ b.mesh.IsEmpty ∧
    a.bounds.Overlaps b.bounds ∧ b.withIndex s.options.maxOctreeDepth = none

lemma Decoded.Usable.not_fallsBack {s : Setting} {a b : Decoded}
    (h : b.Usable s.options.maxOctreeDepth) : ¬ s.FallsBack a b := by
  rintro ⟨-, -, hb, -, hnone⟩
  obtain ⟨index, hindex⟩ := h.exists_index hb
  simp [hnone] at hindex

namespace Tally

structure Flawless (s : Setting) (t : Tally) : Prop where
  usable : ∀ (id : MeshId) (d : Decoded), t.meshes[id]? = some d →
    d.Usable s.options.maxOctreeDepth
  errors : t.results.metrics.errors = 0

variable {s : Setting} {t t' : Tally}

lemma Flawless.of_eq (h : t.Flawless s) (hm : t'.meshes = t.meshes)
    (he : t'.results.metrics.errors = t.results.metrics.errors) : t'.Flawless s :=
  ⟨hm ▸ h.usable, he.trans h.errors⟩

lemma Flawless.of_insert (h : t.Flawless s) (id : MeshId) {d : Decoded}
    (hd : d.Usable s.options.maxOctreeDepth) :
    { t with meshes := t.meshes.insert id d }.Flawless s := by
  refine ⟨fun id' d' hd' => ?_, h.errors⟩
  rw [Std.HashMap.getElem?_insert] at hd'
  split at hd'
  · obtain rfl := Option.some.inj hd'
    exact hd
  · exact h.usable id' d' hd'

lemma Flawless.note (h : t.Flawless s) (id : UInt64) (d : Decoded) : (t.note id d).Flawless s :=
  h.of_eq (meshes_note id d) (by rw [metrics_note])

lemma Flawless.fetch (h : t.Flawless s) (i : Item) :
    (∀ d, (t.fetch s i).1 = some d → d.Usable s.options.maxOctreeDepth) ∧
      (t.fetch s i).2.Flawless s := by
  rw [Tally.fetch]
  cases hc : t.meshes[meshId s i]? with
  | some d =>
    refine ⟨?_, h.note _ _⟩
    rintro _ ⟨⟩
    exact h.usable _ d hc
  | none =>
    cases hf : freshMesh? s i with
    | none =>
      refine ⟨?_, h⟩
      rintro _ ⟨⟩
    | some m =>
      have hd : (Decoded.ofMesh m).Usable s.options.maxOctreeDepth :=
        ⟨isFinite_of_freshMesh hf, Decoded.right_ofMesh _ m⟩
      refine ⟨?_, (h.of_insert (meshId s i) hd).note _ _⟩
      rintro _ ⟨⟩
      exact hd

lemma Flawless.fetchBoth (h : t.Flawless s) (a b : Item) :
    (∀ da db, (t.fetchBoth s a b).1 = some (da, db) → db.Usable s.options.maxOctreeDepth) ∧
      (t.fetchBoth s a b).2.Flawless s := by
  have hcounted :
      (t.countWith fun m => { m with examinedPairs := m.examinedPairs + 1 }).Flawless s :=
    h.of_eq rfl rfl
  obtain ⟨hb, ht⟩ := (hcounted.fetch a).2.fetch b
  refine ⟨fun da db hboth => hb db ?_, ht⟩
  obtain ⟨_, _, hdb⟩ := Option.bind_eq_some_iff.mp hboth
  obtain ⟨_, hdb, heq⟩ := Option.map_eq_some_iff.mp hdb
  rw [hdb, (Prod.mk.inj heq).2]

lemma Flawless.clash (h : t.Flawless s) (id : MeshId) (a : Decoded) {b : Decoded}
    (hb : b.Usable s.options.maxOctreeDepth) : (t.clash s id a b).2.Flawless s := by
  rw [Tally.clash]
  dsimp only
  split
  · exact h
  · rename_i hboth
    rw [not_or, not_or] at hboth
    cases s.options.strategy with
    | bruteForce => exact h
    | triangleOctree =>
      -- the octree is there, so no error is counted
      obtain ⟨index, hindex⟩ := hb.exists_index hboth.2.1
      have hindexed := hb.right.indexed
      dsimp only
      rw [hindex] at hindexed ⊢
      exact h.of_insert id ⟨hb.finite, hindexed⟩

lemma Flawless.volume (h : t.Flawless s) (a b : Decoded) : (t.volume s a b).2.Flawless s := by
  rw [Tally.volume]
  split
  · dsimp only
    cases s.solver t.solved.length a.mesh b.mesh <;> exact h.of_eq rfl rfl
  · exact h

lemma Flawless.record (h : t.Flawless s) (a b : UInt64) (v : Option (ClashVolume Float)) :
    (t.record s a b v).Flawless s := by
  simp only [Tally.record]
  cases v with
  | none => exact h.of_eq rfl rfl
  | some v =>
    dsimp only
    split
    · cases s.rules.computeVolumes <;> exact h.of_eq rfl rfl
    · exact h

lemma Flawless.compare (h : t.Flawless s) (a b : Item) : (t.compare s a b).Flawless s := by
  obtain ⟨hb, ht⟩ := h.fetchBoth a b
  rw [compare_eq]
  generalize t.fetchBoth s a b = both at hb ht
  obtain ⟨_ | ⟨da, db⟩, t⟩ := both
  · exact ht.of_eq rfl rfl
  · have hclash := ht.clash (meshId s b) da (hb da db rfl)
    dsimp only
    split
    · exact (hclash.volume da db).record _ _ _
    · exact hclash

lemma Flawless.examine (h : t.Flawless s) (a c : Entry) : (t.examine s a c).Flawless s := by
  rw [Tally.examine]
  split
  · exact h.compare _ _
  · exact h

lemma Flawless.take (h : t.Flawless s) (st : Step) : (t.take s st).Flawless s := by
  cases st with
  | poll => exact h
  | examine a c => exact h.examine a c
  | finish a =>
    rw [Tally.take, finish_eq]
    exact h.of_eq rfl rfl

lemma Flawless.foldl (h : t.Flawless s) (sts : List Step) :
    (sts.foldl (Tally.take s) t).Flawless s := by
  induction sts generalizing t with
  | nil => exact h
  | cons st sts ih => exact ih (h.take st)

lemma Flawless.before_examinations (h : t.Flawless s) (sts : List Step) :
    ∀ e ∈ t.examinations s sts, e.before.Flawless s := by
  induction sts generalizing t with
  | nil => simp [examinations]
  | cons st sts ih =>
    cases st with
    | poll => exact ih h
    | finish a => exact ih (h.take (.finish a))
    | examine a c => exact List.forall_mem_cons.mpr ⟨h, ih (h.examine a c)⟩

end Tally

variable {d : Detection} {signals : Signals} {o : Outcome}

lemma flawless_start : d.start.tally.Flawless d.setting :=
  ⟨fun id d hd => by simp [start] at hd, rfl⟩

lemma errors_eq_zero (h : d.run signals = .ok o) : o.results.metrics.errors = 0 := by
  obtain ⟨_, rfl⟩ | ⟨_, tree, _, rfl⟩ := cases_of_ok h
  · rfl
  · rw [conclude, Progress.tally_run]
    exact (flawless_start.foldl _).errors

lemma before_examined_flawless : ∀ e ∈ d.examined signals, e.before.Flawless d.setting := by
  intro e he
  replace he := List.mem_of_mem_filter he
  rw [examinations] at he
  cases ht : d.tree? d.bounds with
  | error _ => simp [ht] at he
  | ok tree =>
    rw [ht] at he
    exact flawless_start.before_examinations _ e he

/-- Whatever the buffers hold, the octree over a decoded mesh that is not empty can be built. So no
run counts an error, and no comparison falls back to all pairs of triangles. -/
theorem decoded_meshes_have_index :
    (∀ (is : List UInt32) (xs : List Float) (place : Option (Placement Float)) (scale : Float),
      ¬ (Mesh.ofBuffers is xs place scale).IsEmpty → (Mesh.ofBuffers is xs place scale).HasIndex) ∧
    (∀ (is vs : List UInt8) (place : Option (Placement Float)) (scale : Float),
      ¬ (Mesh.ofBytes is vs place scale).IsEmpty → (Mesh.ofBytes is vs place scale).HasIndex) ∧
    ∀ (d : Detection) (signals : Signals) (o : Outcome), d.run signals = .ok o →
      o.results.metrics.errors = 0 ∧
      ∀ e ∈ d.examined signals, ∀ a b,
        (e.before.fetchBoth d.setting e.anchor.value e.candidate.value).1 = some (a, b) →
          ¬ d.setting.FallsBack a b := by
  refine ⟨fun is xs place scale => (Mesh.isFinite_ofBuffers is xs place scale).hasIndex,
    fun is vs place scale => (Mesh.isFinite_ofBytes is vs place scale).hasIndex,
    fun d signals o h => ⟨errors_eq_zero h, fun e he a b hboth => ?_⟩⟩
  exact (((before_examined_flawless e he).fetchBoth _ _).1 a b hboth).not_fallsBack

theorem decoded_meshes_have_index_rose :
    (∃ o, (roses 1).run (.constant false) = .ok o ∧
      (roses 1).options.strategy = .triangleOctree ∧
      (2 ∈ Adjacency.others o.results.left 1 ∨ 1 ∈ Adjacency.others o.results.left 2) ∧
      o.results.metrics.errors = 0) ∧
    (Mesh.ofBuffers [0, 1, 2, 0, 1, 3] [0, 0, 0, 1, 0, 0, 0, 1, 0] none 1).HasIndex ∧
    (Mesh.ofBytes (Bytes.ofWords [0, 1, 2] ++ [0]) (Bytes.ofFloats [0, 0, 0, 1, 0, 0, 0, 1, 0])
      none 1).HasIndex := by
  obtain ⟨hbuffers, hbytes, hruns⟩ := decoded_meshes_have_index
  obtain ⟨o, hrun, hdone⟩ := exists_run_roses 1
  exact ⟨⟨o, hrun, rfl, recorded_roses hrun hdone, (hruns _ _ _ hrun).1⟩,
    hbuffers _ _ _ _ (by decide +kernel), hbytes _ _ _ _ (by decide +kernel)⟩

end Detection

end SolidClash
