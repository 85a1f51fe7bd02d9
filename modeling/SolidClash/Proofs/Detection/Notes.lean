import Mathlib.Data.Sym.Sym2
import SolidClash.Proofs.Detection.Compare

namespace SolidClash

namespace Mesh

variable {α : Type} [Scalar α] {m : Mesh α}

lemma closedness_eq_undecodable : m.closedness = .undecodable ↔ 0 < m.undecodable := by
  rw [closedness]
  split_ifs <;> simp_all

lemma closedness_eq_opened :
    m.closedness = .opened ↔ m.undecodable = 0 ∧ isWatertight m.triangles = false := by
  rw [closedness]
  split_ifs <;> simp_all; omega

end Mesh

def Results.noted {α : Type} (r : Results α) : Mesh.Closedness → Std.ExtTreeSet UInt64
  | .closed => ∅
  | .opened => r.openMeshes
  | .undecodable => r.undecodableMeshes

namespace Detection

def notes (r : Results Float) : Results Float :=
  { r with
    left := ∅
    right := ∅
    volumes := ∅
    metrics :=
      { r.metrics with
        checkedCombinations := 0, errors := 0, clashVolumeErrors := 0, clashes := 0 } }

def Setting.note (s : Setting) (r : Results Float) (i : Item) : Results Float :=
  match Tally.freshMesh? s i with
  | none => r
  | some m => (Tally.note { results := r } i.object.id (.ofMesh m)).results

def countExamined (r : Results Float) : Results Float :=
  { r with metrics := { r.metrics with examinedPairs := r.metrics.examinedPairs + 1 } }

def countMissing (r : Results Float) : Results Float :=
  { r with metrics := { r.metrics with notEnoughData := r.metrics.notEnoughData + 1 } }

def Setting.count (s : Setting) (r : Results Float) (a b : Item) : Results Float :=
  let r := s.note (s.note (countExamined r) a) b
  match Tally.freshMesh? s a, Tally.freshMesh? s b with
  | some _, some _ => r
  | _, _ => countMissing r

namespace Tally

variable {s : Setting} {K : Item → Prop} {t : Tally}

lemma notes_note (id : UInt64) (d : Decoded) :
    notes (t.note id d).results = (note { results := notes t.results } id d).results := by
  simp only [note]
  cases d.closedness <;> rfl

lemma note_ofMesh {d : Decoded} (hd : d.Right s.options.maxOctreeDepth) (t : Tally)
    (id : UInt64) : t.note id (.ofMesh d.mesh) = t.note id d := by
  rw [note, note, hd.closedness]
  rfl

lemma Sound.notes_fetch (h : t.Sound s K) {i : Item} (hi : K i) :
    notes (t.fetch s i).2.results = s.note (notes t.results) i := by
  rw [fetch, Setting.note]
  cases hc : t.meshes[meshId s i]? with
  | some d =>
    obtain ⟨hm, hd⟩ := h i hi d hc
    rw [hm]
    dsimp only
    rw [note_ofMesh hd]
    exact notes_note _ _
  | none =>
    cases freshMesh? s i with
    | none => rfl
    | some m =>
      exact notes_note (t := { t with meshes := t.meshes.insert (meshId s i) (.ofMesh m) }) _ _

lemma Sound.notes_fetchBoth (h : t.Sound s K) (hK : Coherent s K) {a b : Item} (ha : K a)
    (hb : K b) : notes (t.fetchBoth s a b).2.results =
      s.note (s.note (countExamined (notes t.results)) a) b := by
  have hs : (t.countWith fun m => { m with examinedPairs := m.examinedPairs + 1 }).Sound s K := h
  have hnotes := (hs.of_fetch hK ha).2.2.notes_fetch hb
  rw [hs.notes_fetch ha] at hnotes
  exact hnotes

lemma count_of_missing {a b : Item} (h : freshMesh? s a = none ∨ freshMesh? s b = none)
    (r : Results Float) :
    s.count r a b = countMissing (s.note (s.note (countExamined r) a) b) := by
  rw [Setting.count]
  rcases h with h | h
  · rw [h]
  · rw [h]
    cases freshMesh? s a <;> rfl

lemma notes_clash (id : MeshId) (a b : Decoded) :
    notes (t.clash s id a b).2.results = notes t.results := by
  rw [clash]
  dsimp only
  split
  · rfl
  · cases s.options.strategy with
    | bruteForce => rfl
    | triangleOctree => cases b.withIndex s.options.maxOctreeDepth <;> rfl

lemma notes_volume (a b : Decoded) :
    notes (t.volume s a b).2.results = notes t.results := by
  rw [volume]
  split
  · dsimp only
    cases s.solver t.solved.length a.mesh b.mesh <;> rfl
  · rfl

lemma notes_record (a b : UInt64) (v : Option (ClashVolume Float)) :
    notes (t.record s a b v).results = notes t.results := by
  simp only [record]
  cases v with
  | none => rfl
  | some v =>
    dsimp only
    split
    · cases s.rules.computeVolumes <;> rfl
    · rfl

lemma Sound.notes_compare (h : t.Sound s K) (hK : Coherent s K) {a b : Item} (ha : K a)
    (hb : K b) :
    (t.compare s a b).Sound s K ∧
      notes (t.compare s a b).results = s.count (notes t.results) a b := by
  have hnotes := h.notes_fetchBoth hK ha hb
  obtain ⟨hs, hmeshes⟩ := h.of_fetchBoth hK ha hb
  rw [compare_eq]
  generalize t.fetchBoth s a b = both at *
  obtain ⟨_, t⟩ := both
  rcases hmeshes with ⟨rfl, hmissing⟩ | ⟨da, db, rfl, ⟨hma, hra⟩, hmb, hrb⟩
  · rw [count_of_missing hmissing, ← hnotes]
    exact ⟨hs, rfl⟩
  · obtain ⟨_, hsc⟩ := hs.of_clash hK hb hma hmb hra hrb
    have hclash := (notes_clash (s := s) (t := t) (meshId s b) da db).trans hnotes
    rw [Setting.count, hma, hmb]
    dsimp only
    split
    · exact ⟨(hsc.of_volume da db).of_record _ _ _,
        (notes_record _ _ _).trans ((notes_volume _ _).trans hclash)⟩
    · exact ⟨hsc, hclash⟩

lemma Sound.notes_compareAll (h : t.Sound s K) (hK : Coherent s K) {ps : List (Entry × Entry)}
    (hps : ∀ p ∈ ps, K p.1.value ∧ K p.2.value) :
    notes (t.compareAll s ps).results =
      ps.foldl (fun r p => s.count r p.1.value p.2.value) (notes t.results) := by
  induction ps generalizing t with
  | nil => rfl
  | cons p ps ih =>
    obtain ⟨hp₁, hp₂⟩ := hps p List.mem_cons_self
    obtain ⟨hs, hn⟩ := h.notes_compare hK hp₁ hp₂
    simp only [compareAll, List.foldl_cons] at ih ⊢
    rw [ih hs fun q hq => hps q (List.mem_cons_of_mem _ hq), hn]

end Tally

section Count

variable {s : Setting} {r : Results Float} {i a b : Item} {k : Mesh.Closedness} {x : UInt64}

def Setting.IsOf (s : Setting) (k : Mesh.Closedness) (i : Item) : Prop :=
  ∃ m, Tally.freshMesh? s i = some m ∧ m.closedness = k

def Setting.lacks (s : Setting) (p : Entry × Entry) : Bool :=
  (Tally.freshMesh? s p.1.value).isNone || (Tally.freshMesh? s p.2.value).isNone

lemma metrics_note : (s.note r i).metrics = r.metrics := by
  rw [Setting.note]
  cases Tally.freshMesh? s i with
  | none => rfl
  | some m =>
    dsimp only [Tally.note]
    cases (Decoded.ofMesh m).closedness <;> rfl

lemma mem_noted_note (hk : k ≠ .closed) :
    x ∈ (s.note r i).noted k ↔ x ∈ r.noted k ∨ i.object.id = x ∧ s.IsOf k i := by
  rw [Setting.note, Setting.IsOf]
  cases Tally.freshMesh? s i with
  | none => simp
  | some m =>
    have hm : (Decoded.ofMesh m).closedness = m.closedness := rfl
    dsimp only [Tally.note]
    rw [hm]
    cases k <;> cases hc : m.closedness <;>
      simp_all [Results.noted, Std.ExtTreeSet.mem_insert, or_comm]

lemma metrics_count (p : Entry × Entry) :
    (s.count r p.1.value p.2.value).metrics =
      { r.metrics with
        examinedPairs := r.metrics.examinedPairs + 1
        notEnoughData := r.metrics.notEnoughData + if s.lacks p then 1 else 0 } := by
  rw [Setting.count, Setting.lacks]
  cases Tally.freshMesh? s p.1.value <;> cases Tally.freshMesh? s p.2.value <;>
    simp [countMissing, countExamined, metrics_note]

lemma mem_noted_count (hk : k ≠ .closed) :
    x ∈ (s.count r a b).noted k ↔
      x ∈ r.noted k ∨ (a.object.id = x ∧ s.IsOf k a) ∨ (b.object.id = x ∧ s.IsOf k b) := by
  have hcount : (s.count r a b).noted k = (s.note (s.note (countExamined r) a) b).noted k := by
    rw [Setting.count]
    cases Tally.freshMesh? s a <;> cases Tally.freshMesh? s b <;> cases k <;> rfl
  have hr : (countExamined r).noted k = r.noted k := by
    cases k <;> rfl
  rw [hcount, mem_noted_note hk, mem_noted_note hk, hr, or_assoc]

lemma metrics_foldl_count (ps : List (Entry × Entry)) :
    (ps.foldl (fun r p => s.count r p.1.value p.2.value) r).metrics =
      { r.metrics with
        examinedPairs := r.metrics.examinedPairs + ps.length
        notEnoughData := r.metrics.notEnoughData + ps.countP s.lacks } := by
  induction ps generalizing r with
  | nil => rfl
  | cons p ps ih =>
    rw [List.foldl_cons, ih, metrics_count, List.length_cons, List.countP_cons]
    simp only [Metrics.mk.injEq, true_and, and_true]
    omega

lemma mem_noted_foldl_count (hk : k ≠ .closed) (ps : List (Entry × Entry)) :
    x ∈ (ps.foldl (fun r p => s.count r p.1.value p.2.value) r).noted k ↔
      x ∈ r.noted k ∨ ∃ p ∈ ps, ∃ e ∈ s(p.1, p.2), e.value.object.id = x ∧ s.IsOf k e.value := by
  induction ps generalizing r with
  | nil => simp
  | cons p ps ih =>
    rw [List.foldl_cons, ih, mem_noted_count hk, or_assoc, List.exists_mem_cons_iff]
    simp only [Sym2.mem_iff, exists_eq_or_imp, exists_eq_left]

end Count

end Detection

end SolidClash
