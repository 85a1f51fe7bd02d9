import SolidClash.Mesh.Clash
import SolidClash.Proofs.Mesh.Extent
import SolidClash.Proofs.Octree.Growth

namespace SolidClash.Mesh

open Octree

lemma clash_eq_true {α : Type} [Scalar α] {a b : Mesh α} {ε : α} :
    a.clash b ε = true ↔ ∃ s ∈ a.triangles, ∃ t ∈ b.triangles,
      s.bounds.Overlaps t.bounds ∧ s.intersects t ε (ε * ε) = true := by
  simp [clash, trianglesClash]

section Index

variable {α : Type} [Scalar α] {root query : Box α} {depth : ℕ} {index : Octree α ℕ}

def numbered (m : Mesh α) : List (Entry α ℕ) := m.triangles.zipIdx.map fun (t, n) => ⟨t.bounds, n⟩

lemma grown_of_triangleIndex {m : Mesh α} (h : triangleIndex root m depth = .ok index) :
    Grown root depth index m.numbered := grown_of_insertAll h

lemma mem_numbered {m : Mesh α} {e : Entry α ℕ} :
    e ∈ m.numbered ↔ ∃ t, m.triangles[e.value]? = some t ∧ e.bounds = t.bounds := by
  simp only [numbered, List.mem_map, Prod.exists, List.mem_zipIdx_iff_getElem?]
  constructor
  · rintro ⟨t, n, ht, rfl⟩
    exact ⟨t, ht, rfl⟩
  · rintro ⟨t, ht, hb⟩
    exact ⟨t, e.value, ht, by rw [← hb]⟩

variable [OrderedScalar α]

lemma mem_lookUp {es : List (Entry α ℕ)} (h : Grown root depth index es) {n : ℕ} :
    n ∈ lookUp index query ↔ ∃ e ∈ es, e.bounds.Overlaps query ∧ e.value = n := by
  simp only [lookUp, List.mem_flatMap, List.mem_map, List.mem_filter, decide_eq_true_eq]
  constructor
  · rintro ⟨s, hs, e, ⟨he, ho⟩, rfl⟩
    exact ⟨e, h.mem_iff.mpr ⟨s, spot_of_mem_walkDown h.linked hs, he⟩, ho, rfl⟩
  · rintro ⟨e, he, ho, rfl⟩
    obtain ⟨s, hs, hse⟩ := h.mem_iff.mp he
    let top : Spot α ℕ := ⟨[], index.root⟩
    refine ⟨s, mem_walkDown_when (s := top) h.linked rfl hs List.nil_prefix ?_, e, ⟨hse, ho⟩, rfl⟩
    intro m hm hms
    simpa using Box.overlaps_of_fits (h.fits_above hs hse hm hms) ho

lemma clashIndexed_eq_clash {a b : Mesh α} (h : triangleIndex root b depth = .ok index) (ε : α) :
    a.clashIndexed b index ε = a.clash b ε := by
  rw [Bool.eq_iff_iff, clash_eq_true]
  simp only [clashIndexed, List.any_eq_true, mem_lookUp (grown_of_triangleIndex h), mem_numbered]
  constructor
  · rintro ⟨s, hs, n, ⟨e, ⟨t, ht, hb⟩, ho, rfl⟩, hi⟩
    rw [List.getElem?_toArray, ht] at hi
    exact ⟨s, hs, t, List.mem_of_getElem? ht, (Box.overlaps_comm _ _).mp (hb ▸ ho), hi⟩
  · rintro ⟨s, hs, t, ht, ho, hi⟩
    obtain ⟨n, hn⟩ := List.getElem?_of_mem ht
    refine ⟨s, hs, n, ⟨⟨t.bounds, n⟩, ⟨t, hn, rfl⟩, (Box.overlaps_comm _ _).mp ho, rfl⟩, ?_⟩
    rw [List.getElem?_toArray, hn]
    exact hi

end Index

lemma clash_eq_false {a b : Mesh Float} (ha : a.IsNumeric) (hb : b.IsNumeric)
    (h : ¬ a.bounds.Overlaps b.bounds) (ε : Float) : a.clash b ε = false := by
  by_contra hc
  obtain ⟨s, hs, t, ht, ho, _⟩ := clash_eq_true.mp (Bool.not_eq_false _ ▸ hc)
  have hst := Box.overlaps_of_fits (ha.bounds_fits hs) ho
  exact h ((Box.overlaps_comm _ _).mp
    (Box.overlaps_of_fits (hb.bounds_fits ht) ((Box.overlaps_comm _ _).mp hst)))

lemma exists_triangleIndex {m : Mesh Float} (hn : m.IsNumeric) (hb : ¬ m.bounds.IsEmpty)
    (hf : m.bounds.IsFinite) (depth : ℕ) : ∃ index, triangleIndex m.bounds m depth = .ok index := by
  refine exists_insertAll hb hf depth fun e (he : e ∈ m.numbered) => ?_
  obtain ⟨t, ht, hb⟩ := mem_numbered.mp he
  exact hb ▸ hn.bounds_fits (List.mem_of_getElem? ht)

/-- Looking triangles up and looking at the boxes of the meshes first does not change the verdict,
provided, for the boxes, that there are no NaNs. -/
theorem shortcuts_agree (a b : Mesh Float) (ε : Float) :
    (∀ depth index, triangleIndex b.bounds b depth = .ok index →
      a.clashIndexed b index ε = a.clash b ε) ∧
    (a.IsNumeric → b.IsNumeric → ¬ a.bounds.Overlaps b.bounds → a.clash b ε = false) :=
  ⟨fun _ _ h => clashIndexed_eq_clash h ε, fun ha hb h => clash_eq_false ha hb h ε⟩

def pin : Mesh Float := ofTriangles [⟨⟨1, 1, -1⟩, ⟨1, 1, 1⟩, ⟨2, 1, 0⟩⟩]

def tile : Triangle Float := ⟨⟨0, 0, 0⟩, ⟨4, 0, 0⟩, ⟨0, 4, 0⟩⟩

def farTile : Triangle Float := ⟨⟨10, 0, 0⟩, ⟨12, 0, 0⟩, ⟨10, 2, 0⟩⟩

theorem shortcuts_agree_far : ∃ index, triangleIndex pin.bounds pin 3 = .ok index ∧
    (ofTriangles [tile]).clashIndexed pin index 1e-5 = true ∧
    (ofTriangles [farTile]).IsNumeric ∧ pin.IsNumeric ∧
    ¬ (ofTriangles [farTile]).bounds.Overlaps pin.bounds ∧
    (ofTriangles [farTile]).clash pin 1e-5 = false := by
  obtain ⟨index, hi⟩ := exists_triangleIndex (m := pin) (by decide +kernel) (by decide +kernel)
    (by decide +kernel) 3
  have hfar : (ofTriangles [farTile]).IsNumeric := by decide +kernel
  have hpin : pin.IsNumeric := by decide +kernel
  have hapart : ¬ (ofTriangles [farTile]).bounds.Overlaps pin.bounds := by decide +kernel
  refine ⟨index, hi, ?_, hfar, hpin, hapart, (shortcuts_agree _ pin 1e-5).2 hfar hpin hapart⟩
  rw [(shortcuts_agree _ pin 1e-5).1 3 index hi]
  decide +kernel

def forgetful : Mesh Float :=
  ofTriangles [tile, ⟨⟨0, 0, 0⟩, ⟨1, 0, 0⟩, ⟨0.0 / 0.0, 1, 0⟩⟩, farTile]

theorem clash_of_forgotten_box : ¬ forgetful.IsEmpty ∧ ¬ pin.IsEmpty ∧
    ¬ forgetful.bounds.Overlaps pin.bounds ∧ forgetful.clash pin 1e-5 = true := by
  decide +kernel

end SolidClash.Mesh
