import Mathlib.Data.List.Perm.Subperm
import SolidClash.Proofs.Octree.Growth
import SolidClash.Proofs.Scalar.Binary64

namespace SolidClash.Octree

variable {α β : Type}

lemma flatMap_perm_of_subset {γ δ : Type} {l l' : List γ} {g : γ → List δ} (hl : l.Nodup)
    (hl' : l'.Nodup) (hs : l ⊆ l') (hg : ∀ x ∈ l', x ∉ l → g x = []) :
    (l.flatMap g).Perm (l'.flatMap g) := by
  obtain ⟨m, hm, hsub⟩ := hl.subperm hs
  obtain ⟨r, hr⟩ := hsub.exists_perm_append
  replace hr := hr.trans (hm.append_right r)
  have hd := (List.nodup_append.mp (hr.nodup_iff.mp hl')).2.2
  have hempty : r.flatMap g = [] := by
    apply List.flatMap_eq_nil_iff.mpr
    intro x hx
    exact hg x (hr.mem_iff.mpr (List.mem_append_right _ hx)) fun h => hd x h x hx rfl
  refine List.Perm.symm ((hr.flatMap_right g).trans ?_)
  rw [List.flatMap_append, hempty, List.append_nil]

variable [Scalar α]

def query (t : Octree α β) (k : Path) (c : Box α) : List (Spot α β) :=
  t.walkUpDown k fun n => .when (n.bounds.Clashes c)

variable [OrderedScalar α] {b : Box α} {depth : ℕ} {t : Octree α β} {es : List (Entry α β)}

lemma Grown.mem_query (h : Grown b depth t es) {k : Path} {n : Node α β} {e f : Entry α β}
    {s : Spot α β} (hn : t.node? k = some n) (he : e ∈ n.entries) (hs : t.spot? s.path = some s)
    (hf : f ∈ s.entries) (hc : f.bounds.Clashes e.bounds) : s ∈ t.query k e.bounds := by
  have hk : t.spot? (⟨k, n⟩ : Spot α β).path = some ⟨k, n⟩ := spot_self.mpr hn
  have hke : descent e.bounds depth b = k := ((h.node hn).2.2 e he).2
  have hsf : descent f.bounds depth b = s.path :=
    ((h.node (spot_self.mp hs)).2.2 f (Array.mem_toList_iff.mp hf)).2
  have habove : ∀ m : Spot α β, t.spot? m.path = some m → m.path <+: s.path →
      m.bounds.Clashes e.bounds :=
    fun m hm hms => Box.clashes_of_fits (h.fits_above hs hf hm hms) hc
  have hmatch : (Visit.when (s.bounds.Clashes e.bounds)).matched = true := by
    simpa [Visit.when] using habove s hs List.prefix_rfl
  have hdown : k <+: s.path → s ∈ t.query k e.bounds := by
    intro hks
    apply List.mem_append_right
    apply mem_walkDown_when h.linked hk hs hks
    intro m hm hms
    simpa using habove m hm hms
  -- the paths of the two values are comparable: `s` lies above `k`, at it or below
  rcases descent_comparable hc depth b with hp | hp
  · rw [hsf, hke] at hp
    by_cases heq : s.path = k
    · exact hdown (heq ▸ List.prefix_rfl)
    · exact List.mem_append_left _ (mem_walkUp.mpr ⟨(mem_visitedUp h.linked hk).mpr ⟨hs, hp, heq⟩, hmatch⟩)
  · rw [hsf, hke] at hp
    exact hdown hp

/-- From the node of a stored value the query returns no node twice, and the entries of the nodes
it returns whose boxes clash with the value's box are all such entries that were ever inserted. -/
theorem query_complete (h : Grown b depth t es) {k : Path} {n : Node α β} {e : Entry α β}
    (hn : t.node? k = some n) (he : e ∈ n.entries) :
    ((t.query k e.bounds).map Spot.path).Nodup ∧
      (∀ s ∈ t.query k e.bounds, t.spot? s.path = some s) ∧
      ((t.query k e.bounds).flatMap fun s =>
        s.entries.filter fun f => f.bounds.Clashes e.bounds).Perm
          (es.filter fun f => f.bounds.Clashes e.bounds) := by
  have hnodup := nodup_walkUpDown h.linked hn fun n => .when (n.bounds.Clashes e.bounds)
  have hspot : ∀ s ∈ t.query k e.bounds, t.spot? s.path = some s :=
    fun s hs => spot_of_mem_walkUpDown h.linked hn hs
  refine ⟨hnodup, hspot, ?_⟩
  have hall : (es.filter fun f => f.bounds.Clashes e.bounds).Perm
      (t.spots.flatMap fun s => s.entries.filter fun f => f.bounds.Clashes e.bounds) := by
    refine (h.entries_perm.symm.filter _).trans (List.Perm.of_eq ?_)
    simp [entries, List.map_flatMap, List.filter_flatMap, Function.comp_def]
  refine List.Perm.trans ?_ hall.symm
  refine flatMap_perm_of_subset hnodup.of_map (nodup_visitedDown t [] _).of_map ?_ ?_
  · exact fun s hs => (mem_spots h.linked).mpr (hspot s hs)
  · intro s hs hns
    refine List.filter_eq_nil_iff.mpr fun f hf hc => hns ?_
    exact h.mem_query hn he ((mem_spots h.linked).mp hs) hf (by simpa using hc)

def crossing : List (Entry Float ℕ) :=
  [⟨⟨⟨2, 1, 1⟩, ⟨7, 2, 2⟩⟩, 0⟩, ⟨⟨⟨6, 1, 1⟩, ⟨3, 2, 2⟩⟩, 1⟩, ⟨⟨⟨8, 0, 0⟩, ⟨8, 16, 16⟩⟩, 2⟩,
    ⟨⟨⟨1, 1, 1⟩, ⟨9, 9, 9⟩⟩, 3⟩, ⟨⟨⟨12, 12, 12⟩, ⟨13, 13, 13⟩⟩, 4⟩]

theorem query_complete_crossing : ∃ t k n, Grown ⟨⟨0, 0, 0⟩, ⟨16, 16, 16⟩⟩ 3 t crossing ∧
    t.node? k = some n ∧ crossing[0] ∈ n.entries ∧
    ((t.query k crossing[0].bounds).map Spot.path).Nodup ∧
      (∀ s ∈ t.query k crossing[0].bounds, t.spot? s.path = some s) ∧
      ((t.query k crossing[0].bounds).flatMap fun s =>
        s.entries.filter fun f => f.bounds.Clashes crossing[0].bounds).Perm
          [crossing[0], crossing[1], crossing[3]] := by
  have hfits : ∀ e ∈ crossing, Box.Fits ⟨⟨0, 0, 0⟩, ⟨16, 16, 16⟩⟩ e.bounds := by decide +kernel
  obtain ⟨t, hbuild⟩ := exists_insertAll (by decide +kernel) (by decide +kernel) 3 hfits
  have ht := grown_of_insertAll hbuild
  obtain ⟨s, hs, he⟩ := ht.mem_iff.mp (List.mem_cons_self : crossing[0] ∈ crossing)
  have hn := spot_self.mp hs
  have hq := query_complete ht hn (Array.mem_toList_iff.mp he)
  exact ⟨t, s.path, s.node, ht, hn, Array.mem_toList_iff.mp he, hq⟩

end SolidClash.Octree
