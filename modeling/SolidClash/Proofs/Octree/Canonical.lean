import SolidClash.Proofs.Octree.Alike
import SolidClash.Proofs.Octree.Arranged

/-! Trees do not remember the order of their insertions. -/

namespace SolidClash.Octree

variable {α β : Type}

namespace Node

def entriesAt (n : Node α β) (p : Path) : List (Entry α β) :=
  (n.at? p).elim [] fun m => m.entries.toList

lemma entriesAt_cons (n : Node α β) (o : Octant) (p : Path) :
    n.entriesAt (o :: p) = (n.child? o).elim [] fun c => c.entriesAt p := by
  rw [entriesAt, at_cons]
  cases n.child? o <;> rfl

lemma entriesAt_bare (pl : Place α) (p : Path) : (bare pl : Node α β).entriesAt p = [] := by
  cases p with
  | nil => rfl
  | cons o p => rw [entriesAt_cons, child_bare, Option.elim_none]

lemma entriesAt_store [Scalar α] (e : Entry α β) (p q : Path) (n : Node α β) :
    (n.store e p).entriesAt q = n.entriesAt q ++ if q = p then [e] else [] := by
  induction p generalizing n q with
  | nil =>
    obtain ⟨pl, es, cs⟩ := n
    cases q with
    | nil => simp [entriesAt, Node.store, entries]
    | cons o q => simp [entriesAt_cons, Node.store, child?, children]
  | cons o p ih =>
    obtain ⟨pl, es, cs⟩ := n
    cases q with
    | nil => simp [entriesAt, Node.store, entries]
    | cons o' q =>
      -- a child that is made on the way holds nothing yet
      have hchild : ((cs.get o).getD (bare (pl.child o))).entriesAt q =
          (cs.get o).elim [] fun c => c.entriesAt q := by
        cases cs.get o with
        | none => exact entriesAt_bare _ _
        | some c => rfl
      by_cases ho : o' = o
      · simp [entriesAt_cons, Node.store, child?, children, Octants.get_set, ho, ih, hchild]
      · simp [entriesAt_cons, Node.store, child?, children, Octants.get_set, ho]

def SameContents (n n' : Node α β) : Prop :=
  n.place = n'.place ∧ n.entries.toList.Perm n'.entries.toList

end Node

structure Spot.Same (s s' : Spot α β) : Prop where
  path : s.path = s'.path
  bounds : s.bounds = s'.bounds
  depth : s.depth = s'.depth
  entries : s.entries.Perm s'.entries

lemma Spot.Related.same {s s' : Spot α β} (h : s.Related Node.SameContents s') : s.Same s' :=
  ⟨h.1, congrArg Place.bounds h.2.root.1, congrArg Place.depth h.2.root.1, h.2.root.2⟩

variable [Scalar α] {b : Box α} {depth : ℕ} {t t' : Octree α β} {es es' : List (Entry α β)}

lemma Grown.entriesAt (h : Grown b depth t es) (p : Path) :
    t.root.entriesAt p = es.filter fun e => descent e.bounds depth b = p := by
  induction h with
  | new h =>
    obtain ⟨_, _, rfl⟩ := new_eq_ok h
    exact Node.entriesAt_bare _ p
  | @insert t t' es e q hg hi ih =>
    obtain ⟨_, rfl, rfl⟩ := hg.insert_eq_ok hi
    rw [stored, Node.entriesAt_store, ih, List.filter_append]
    simp [List.filter_cons, eq_comm]

lemma Grown.node_entries (h : Grown b depth t es) {p : Path} {n : Node α β}
    (hn : t.node? p = some n) :
    n.entries.toList = es.filter fun e => descent e.bounds depth b = p := by
  have hn' : t.root.at? p = some n := hn
  rw [← h.entriesAt p, Node.entriesAt, hn', Option.elim_some]

lemma Grown.related (h : Grown b depth t es) (h' : Grown b depth t' es') (hes : es.Perm es') :
    t.root.Related Node.SameContents t'.root := by
  intro p
  have hsome : (t.node? p).isSome ↔ (t'.node? p).isSome := by
    simp only [h.isSome_node, h'.isSome_node, hes.mem_iff]
  change Option.Rel _ (t.node? p) (t'.node? p)
  cases hn : t.node? p with
  | none =>
    have hn' : t'.node? p = none := by simpa [hn] using hsome
    rw [hn']
    exact .none
  | some n =>
    obtain ⟨n', hn'⟩ := Option.isSome_iff_exists.mp (hsome.mp (by rw [hn]; rfl))
    rw [hn']
    refine .some ⟨(h.node hn).2.1.trans (h'.node hn').2.1.symm, ?_⟩
    rw [h.node_entries hn, h'.node_entries hn']
    exact hes.filter _

/-- Whatever was inserted before, a value goes to the path to which its box descends from the root
box. So every node holds exactly the values that were taken and descend to it, and trees over the
same insertions, in any two orders, have the same nodes at the same paths, with the same boxes and
the same values; a visitor who looks only at boxes and depths is led through them alike. -/
theorem offerAll_canonical (hnew : Octree.new b depth = .ok t) :
    (∀ (es : List (Entry α β)) v x,
      (b.Fits v → ∃ u, (t.offerAll es).insert v x = (.ok (descent v depth b), u)) ∧
      ∀ p u, (t.offerAll es).insert v x = (.ok p, u) → p = descent v depth b) ∧
    (∀ es, ∀ s ∈ (t.offerAll es).spots,
      s.entries = es.filter fun e => b.Fits e.bounds ∧ descent e.bounds depth b = s.path) ∧
    ∀ es es', es.Perm es' →
      (∀ p, Option.Rel Spot.Same ((t.offerAll es).spot? p) ((t.offerAll es').spot? p)) ∧
      (t.offerAll es).nodeCount = (t.offerAll es').nodeCount ∧
      ∀ start (look : Box α → ℕ → Visit),
        ((t.offerAll es).visitedDown start fun s => look s.bounds s.depth).map Spot.path =
          ((t.offerAll es').visitedDown start fun s => look s.bounds s.depth).map Spot.path ∧
        ((t.offerAll es).walkDown start fun s => look s.bounds s.depth).map Spot.path =
          ((t.offerAll es').walkDown start fun s => look s.bounds s.depth).map Spot.path := by
  have hgrown (es : List (Entry α β)) :
      Grown b depth (t.offerAll es) (es.filter fun e => b.Fits e.bounds) := by
    simpa using (Grown.new hnew).offerAll es
  refine ⟨fun es v x => ⟨fun hv => (hgrown es).insert_of_fits hv x,
    fun p u hu => ((hgrown es).insert_eq_ok hu).2.1⟩, fun es s hs => ?_, fun es es' hes => ?_⟩
  · have hn := (hgrown es).node_entries (spot_self.mp ((hgrown es).spot hs))
    rw [Spot.entries, hn, List.filter_filter]
    simp only [Bool.decide_and, Bool.and_comm]
  · have hrel := (hgrown es).related (hgrown es') (hes.filter _)
    have hdepth : (t.offerAll es).maxDepth = (t.offerAll es').maxDepth :=
      (hgrown es).placed.1.trans (hgrown es').placed.1.symm
    refine ⟨fun p => ?_, (related_visitedDown hrel hdepth (fun _ _ _ => rfl) []).length_eq,
      fun start look => ?_⟩
    · have hspot := related_spot hrel p
      generalize (t.offerAll es).spot? p = s, (t.offerAll es').spot? p = s' at hspot
      cases hspot with
      | none => exact .none
      | some hs => exact .some hs.same
    · have hlook : ∀ s s' : Spot α β, s.Related Node.SameContents s' →
          look s.bounds s.depth = look s'.bounds s'.depth := by
        intro s s' hs
        rw [hs.same.bounds, hs.same.depth]
      exact ⟨related_paths (related_visitedDown hrel hdepth hlook start),
        related_paths (related_walkDown hrel hdepth hlook start)⟩

theorem offerAll_canonical_crossing :
    ∃ t : Octree Float ℕ, Octree.new ⟨⟨0, 0, 0⟩, ⟨16, 16, 16⟩⟩ 3 = .ok t ∧
      (t.offerAll crossing.reverse).nodeCount = 4 ∧
      ∃ u, (t.offerAll crossing.reverse).insert ⟨⟨6, 1, 1⟩, ⟨3, 2, 2⟩⟩ 5 =
        (.ok [.lowerFrontLeft, .lowerFrontLeft], u) := by
  have hnew := new_of_usable (β := ℕ) (b := (⟨⟨0, 0, 0⟩, ⟨16, 16, 16⟩⟩ : Box Float))
    (by decide +kernel) (by decide +kernel) 3
  obtain ⟨hinsert, -, hperm⟩ := offerAll_canonical hnew
  obtain ⟨-, hcount, -⟩ := hperm crossing.reverse crossing (List.reverse_perm _)
  have hpath : descent (⟨⟨6, 1, 1⟩, ⟨3, 2, 2⟩⟩ : Box Float) 3 ⟨⟨0, 0, 0⟩, ⟨16, 16, 16⟩⟩ =
      [.lowerFrontLeft, .lowerFrontLeft] := by decide +kernel
  refine ⟨_, hnew, hcount.trans (by decide +kernel), ?_⟩
  exact hpath ▸ (hinsert crossing.reverse _ 5).1 (by decide +kernel)

end SolidClash.Octree
