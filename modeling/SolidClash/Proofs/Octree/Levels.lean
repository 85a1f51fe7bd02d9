import Mathlib.Data.List.Nodup
import Mathlib.Logic.Relation
import SolidClash.Proofs.Octree.Placement

namespace SolidClash.Octree

variable {α β : Type}

namespace Spot

lemma mem_children {s c : Spot α β} :
    c ∈ s.children ↔ ∃ o m, s.node.child? o = some m ∧ c = ⟨s.path ++ [o], m⟩ := by
  simp only [children, List.mem_filterMap, Option.map_eq_some_iff]
  constructor
  · rintro ⟨o, _, m, hm, rfl⟩
    exact ⟨o, m, hm, rfl⟩
  · rintro ⟨o, m, hm, rfl⟩
    exact ⟨o, Octant.mem_all o, m, hm, rfl⟩

lemma nodup_children (s : Spot α β) : (s.children.map Spot.path).Nodup := by
  rw [children, List.map_filterMap]
  apply Octant.nodup_all.filterMap
  intro o p q ho hp
  simp only [Option.map_map, Option.mem_def, Option.map_eq_some_iff] at ho hp
  obtain ⟨_, _, rfl⟩ := ho
  obtain ⟨_, _, hq⟩ := hp
  simpa using hq.symm

end Spot

def Enters (visit : Spot α β → Visit) (s c : Spot α β) : Prop :=
  (visit s).descend = true ∧ c ∈ s.children

def nextLevel (visit : Spot α β → Visit) (level : List (Spot α β)) : List (Spot α β) :=
  (level.filter fun s => (visit s).descend).flatMap Spot.children

lemma descendLevels_succ (visit : Spot α β → Visit) (k : ℕ) (level : List (Spot α β)) :
    descendLevels visit (k + 1) level =
      level ++ descendLevels visit k (nextLevel visit level) := by
  cases level with
  | nil => cases k <;> simp [descendLevels, nextLevel]
  | cons s level => rfl

lemma mem_nextLevel {visit : Spot α β → Visit} {level : List (Spot α β)} {c : Spot α β} :
    c ∈ nextLevel visit level ↔ ∃ s ∈ level, Enters visit s c := by
  simp only [nextLevel, List.mem_flatMap, List.mem_filter, Enters, and_assoc]

lemma nodup_nextLevel (visit : Spot α β → Visit) {level : List (Spot α β)}
    (h : (level.map Spot.path).Nodup) : ((nextLevel visit level).map Spot.path).Nodup := by
  rw [nextLevel, List.map_flatMap, List.nodup_flatMap]
  refine ⟨fun s _ => s.nodup_children, ?_⟩
  have hp : (level.filter fun s => (visit s).descend).Pairwise fun s t => s.path ≠ t.path :=
    (List.pairwise_map.mp h).filter _
  refine hp.imp fun {s t} hst => ?_
  intro q hs ht
  obtain ⟨c, hc, rfl⟩ := List.mem_map.mp hs
  obtain ⟨c', hc', hq⟩ := List.mem_map.mp ht
  obtain ⟨o, _, _, rfl⟩ := Spot.mem_children.mp hc
  obtain ⟨o', _, _, rfl⟩ := Spot.mem_children.mp hc'
  exact hst (List.append_inj_left' hq rfl).symm

lemma Enters.length {visit : Spot α β → Visit} {s c : Spot α β} (h : Enters visit s c) :
    c.path.length = s.path.length + 1 := by
  obtain ⟨o, m, _, rfl⟩ := Spot.mem_children.mp h.2
  simp

abbrev Reaches (visit : Spot α β → Visit) : Spot α β → Spot α β → Prop :=
  Relation.ReflTransGen (Enters visit)

lemma Reaches.length_le {visit : Spot α β → Visit} {s c : Spot α β} (h : Reaches visit s c) :
    s.path.length ≤ c.path.length := by
  induction h with
  | refl => exact le_rfl
  | tail _ he ih =>
    rw [he.length]
    omega

lemma mem_descendLevels {visit : Spot α β → Visit} {k : ℕ} {level : List (Spot α β)}
    {c : Spot α β} :
    c ∈ descendLevels visit k level ↔
      ∃ s ∈ level, Reaches visit s c ∧ c.path.length < s.path.length + k := by
  induction k generalizing level with
  | zero =>
    simp only [descendLevels, List.not_mem_nil, false_iff, not_exists, not_and]
    intro s _ h
    have := h.length_le
    omega
  | succ k ih =>
    rw [descendLevels_succ, List.mem_append, ih]
    constructor
    · rintro (hc | ⟨s, hs, hr, hl⟩)
      · exact ⟨c, hc, .refl, by omega⟩
      · obtain ⟨s', hs', he⟩ := mem_nextLevel.mp hs
        have := he.length
        exact ⟨s', hs', .head he hr, by omega⟩
    · rintro ⟨s, hs, hr, hl⟩
      rcases hr.cases_head with rfl | ⟨s', he, hr⟩
      · exact Or.inl hs
      · have := he.length
        exact Or.inr ⟨s', mem_nextLevel.mpr ⟨s, hs, he⟩, hr, by omega⟩

lemma length_nextLevel {visit : Spot α β → Visit} {level : List (Spot α β)} {l : ℕ}
    (h : ∀ s ∈ level, s.path.length = l) : ∀ s ∈ nextLevel visit level, s.path.length = l + 1 := by
  intro s hs
  obtain ⟨s', hs', he⟩ := mem_nextLevel.mp hs
  rw [he.length, h s' hs']

lemma le_length_of_mem {visit : Spot α β → Visit} {k l : ℕ} {level : List (Spot α β)}
    (h : ∀ s ∈ level, s.path.length = l) :
    ∀ c ∈ descendLevels visit k level, l ≤ c.path.length := by
  intro c hc
  obtain ⟨s, hs, hr, _⟩ := mem_descendLevels.mp hc
  exact (h s hs).symm.trans_le hr.length_le

lemma nodup_descendLevels (visit : Spot α β → Visit) (k : ℕ) {l : ℕ} {level : List (Spot α β)}
    (h : ∀ s ∈ level, s.path.length = l) (hn : (level.map Spot.path).Nodup) :
    ((descendLevels visit k level).map Spot.path).Nodup := by
  induction k generalizing level l with
  | zero => simp [descendLevels]
  | succ k ih =>
    rw [descendLevels_succ, List.map_append]
    apply hn.append (ih (length_nextLevel h) (nodup_nextLevel visit hn))
    intro p hp hp'
    obtain ⟨s, hs, rfl⟩ := List.mem_map.mp hp
    obtain ⟨c, hc, hcs⟩ := List.mem_map.mp hp'
    have := le_length_of_mem (length_nextLevel h) c hc
    rw [hcs, h s hs] at this
    omega

lemma flatMap_filterMap {γ δ ε : Type} (l : List γ) (f : γ → Option δ) (g : δ → List ε) :
    (l.filterMap f).flatMap g = l.flatMap fun c => (f c).elim [] g := by
  induction l with
  | nil => rfl
  | cons c l ih => cases h : f c <;> simp [h, ih]

lemma contents_children (k : ℕ) (s : Spot α β) :
    (s.children.flatMap fun c => c.node.contents k) =
      Octant.all.flatMap fun o => (s.node.child? o).elim [] (Node.contents k) := by
  rw [Spot.children, flatMap_filterMap]
  apply List.flatMap_congr
  intro o _
  cases s.node.child? o <;> rfl

lemma entries_descendLevels (k : ℕ) (level : List (Spot α β)) :
    ((descendLevels (fun _ => .all) (k + 1) level).flatMap Spot.entries).Perm
      (level.flatMap fun s => s.node.contents k) := by
  induction k generalizing level with
  | zero =>
    simp only [descendLevels_succ, descendLevels, List.append_nil]
    exact .refl _
  | succ k ih =>
    have hnext : (nextLevel (fun _ => .all) level).flatMap (fun s => s.node.contents k) =
        level.flatMap fun s => Octant.all.flatMap fun o =>
          (s.node.child? o).elim [] (Node.contents k) := by
      simp only [nextLevel, Visit.all, List.filter_true, List.flatMap_assoc, contents_children]
    rw [descendLevels_succ, List.flatMap_append]
    apply ((ih _).append_left _).trans
    rw [hnext]
    exact List.flatMap_append_perm _ _ _

end SolidClash.Octree
