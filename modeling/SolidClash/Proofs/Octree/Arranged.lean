import SolidClash.Proofs.Octree.Query

namespace SolidClash

open OrderedScalar

lemma Box.Fits.numeric {α : Type} [Scalar α] [OrderedScalar α] {outer b : Box α}
    (h : outer.Fits b) : b.IsNumeric :=
  ⟨⟨right_number h.1, right_number h.2.1, right_number h.2.2.1⟩,
    left_number h.2.2.2.1, left_number h.2.2.2.2.1, left_number h.2.2.2.2.2⟩

namespace Octree

section Links

variable {α β : Type} {t : Octree α β}

lemma exists_parent (ht : t.Linked) {s : Spot α β} (hs : s ∈ t.spots) (hne : s.path ≠ []) :
    ∃ p ∈ t.spots, s.node.parent = some p.node.key := by
  have hn := spot_self.mp ((mem_spots ht).mp hs)
  rw [← List.dropLast_append_getLast hne] at hn
  have hb := hn
  rw [node_append] at hb
  obtain ⟨m, hm, _⟩ := Option.bind_eq_some_iff.mp hb
  have hp : t.spot? s.path.dropLast = some ⟨s.path.dropLast, m⟩ := spot_eq_some.mpr ⟨rfl, hm⟩
  refine ⟨⟨s.path.dropLast, m⟩, (mem_spots ht).mpr hp, ?_⟩
  rw [ht.parent _ _ _ hn, ht.key _ m hm]

lemma mem_children_iff (ht : t.Linked) {p c : Spot α β} (hp : p ∈ t.spots) :
    c ∈ p.children ↔ c ∈ t.spots ∧ c.node.parent = some p.node.key := by
  rw [mem_spots ht] at hp ⊢
  rw [spot_child hp, ht.key _ _ (spot_self.mp hp)]
  apply and_congr_right
  intro hc
  have hn := spot_self.mp hc
  constructor
  · rintro ⟨o, ho⟩
    exact ht.parent _ o _ (ho ▸ hn)
  · intro hpar
    rcases List.eq_nil_or_concat c.path with hnil | ⟨q, o, hq⟩
    · rw [hnil] at hn
      have hroot : t.root = c.node := Option.some.inj hn
      simp [← hroot, ht.root] at hpar
    · rw [List.concat_eq_append] at hq
      have hpar' := ht.parent q o _ (hq ▸ hn)
      obtain rfl : q = p.path := Option.some.inj (hpar'.symm.trans hpar)
      exact ⟨o, hq⟩

lemma reaches_of_append {s c : Spot α β} (hs : t.spot? s.path = some s)
    (hc : t.spot? c.path = some c) (hp : s.path <+: c.path) : Reaches (fun _ => .all) s c :=
  reaches_of_below hs hc hp fun _ _ _ _ => rfl

lemma exists_append_of_mem_visitedUp (ht : t.Linked) {s m : Spot α β}
    (hs : t.spot? s.path = some s) (hm : m ∈ t.visitedUp s.path) :
    ∃ o, m.path ++ [o] <+: s.path := by
  obtain ⟨_, ⟨r, hr⟩, hne⟩ := (mem_visitedUp ht hs).mp hm
  cases r with
  | nil => exact (hne (by simpa using hr)).elim
  | cons o r => exact ⟨o, r, by simpa using hr⟩

end Links

variable {α β : Type} [Scalar α]

lemma Node.isSome_at_store (e : Entry α β) (p q : Path) (n : Node α β) :
    ((n.store e p).at? q).isSome ↔ (n.at? q).isSome ∨ q <+: p := by
  induction p generalizing n q with
  | nil =>
    obtain ⟨pl, es, cs⟩ := n
    cases q with
    | nil => simp
    | cons o q => simp [Node.store, Node.at_cons, Node.child?, Node.children]
  | cons o p ih =>
    obtain ⟨b, es, cs⟩ := n
    cases q with
    | nil => simp
    | cons o' q =>
      simp only [Node.store, Node.at_cons, Node.child?, Node.children, Octants.get_set,
        List.cons_prefix_cons]
      by_cases ho : o' = o
      · subst ho
        simp only [↓reduceIte, Option.bind_some, ih, true_and]
        cases cs.get o' with
        | some c => rfl
        | none =>
          -- a child made on the way has no node below it yet
          cases q with
          | nil => simp
          | cons o q => simp [Node.at_cons]
      · simp [ho]

lemma region_append (b : Box α) (p : Path) (o : Octant) :
    region b (p ++ [o]) = o.part (region b p) (region b p).center := by
  induction p generalizing b with
  | nil => rfl
  | cons o' p ih => exact ih _

lemma holding_of_descent {v b : Box α} {d : ℕ} {p : Path} {o : Octant}
    (h : p ++ [o] <+: descent v d b) : Octant.holding? (region b p).center v = some o := by
  induction p generalizing b d with
  | nil =>
    obtain ⟨r, hr⟩ := h
    cases d with
    | zero => simp [descent] at hr
    | succ d => exact (descent_succ_eq_cons.mp hr.symm).1
  | cons o' p ih =>
    obtain ⟨r, hr⟩ := h
    cases d with
    | zero => simp [descent] at hr
    | succ d =>
      obtain ⟨_, hd⟩ := descent_succ_eq_cons.mp hr.symm
      exact ih ⟨r, hd.symm⟩

lemma descent_ends (v b : Box α) (d : ℕ) :
    (descent v d b).length = d ∨ Octant.holding? (region b (descent v d b)).center v = none := by
  induction d generalizing b with
  | zero => exact Or.inl rfl
  | succ d ih =>
    cases ho : Octant.holding? b.center v with
    | none =>
      have hd : descent v (d + 1) b = [] := by simp [descent, ho]
      rw [hd]
      exact Or.inr ho
    | some o =>
      rw [descent_succ_eq_cons.mpr ⟨ho, rfl⟩]
      exact (ih (o.part b b.center)).imp (congrArg (· + 1)) id

variable {b : Box α} {depth : ℕ} {t : Octree α β} {es : List (Entry α β)}

lemma Grown.isSome_node (h : Grown b depth t es) (q : Path) :
    (t.node? q).isSome ↔ q = [] ∨ ∃ e ∈ es, q <+: descent e.bounds depth b := by
  induction h with
  | new h =>
    obtain ⟨_, _, rfl⟩ := new_eq_ok h
    cases q with
    | nil => simp [node?]
    | cons o q => simp [node?, Node.at_cons]
  | @insert t t' es e p hg hi ih =>
    obtain ⟨_, rfl, rfl⟩ := hg.insert_eq_ok hi
    simp only [node?, stored] at ih ⊢
    rw [Node.isSome_at_store, ih]
    simp [or_assoc, or_and_right, exists_or]

def offer (t : Octree α β) (e : Entry α β) : Octree α β := (t.insert e.bounds e.value).2

def offerAll (t : Octree α β) (es : List (Entry α β)) : Octree α β := es.foldl offer t

lemma Grown.offerAll (h : Grown b depth t es) (es' : List (Entry α β)) :
    Grown b depth (t.offerAll es') (es ++ es'.filter fun e => b.Fits e.bounds) := by
  induction es' generalizing t es with
  | nil => simpa [Octree.offerAll] using h
  | cons e es' ih =>
    have hi := h.insert_eq e.bounds e.value
    by_cases he : b.Fits e.bounds
    · rw [if_pos he] at hi
      have hg := ih (h.insert hi)
      rw [Octree.offerAll, List.foldl_cons, offer, hi]
      simpa [he, Octree.offerAll] using hg
    · rw [if_neg he] at hi
      rw [Octree.offerAll, List.foldl_cons, offer, hi]
      simpa [he, Octree.offerAll] using ih h

/-- How a tree with root box `b` and the values `es` hangs together: the links that its nodes keep,
their boxes, and where the values lie. -/
structure Arranged (b : Box α) (depth : ℕ) (t : Octree α β) (es : List (Entry α β)) : Prop where
  root : t.bounds = b ∧ t.maxDepth = depth ∧ t.root.depth = 0 ∧ t.root.parent = none
  keyed : ∀ s ∈ t.spots, s.node.key = s.path ∧ t.node? s.node.key = some s.node
  once : (t.spots.map fun s => s.node.key).Nodup
  parent : ∀ s ∈ t.spots, s.node.key ≠ t.root.key →
    ∃ p ∈ t.spots, s.node.parent = some p.node.key
  child : ∀ p ∈ t.spots, ∀ c, c ∈ p.children ↔ c ∈ t.spots ∧ c.node.parent = some p.node.key
  rooted : ∀ s ∈ t.spots, Reaches (fun _ => .all) ⟨[], t.root⟩ s ∧
    (s.node.key ≠ t.root.key → (t.visitedUp s.node.key).getLast? = some ⟨[], t.root⟩)
  deeper : ∀ p ∈ t.spots, ∀ c ∈ p.children, c.depth = p.depth + 1 ∧ c.depth ≤ depth
  part : ∀ p ∈ t.spots, ∀ o c, p.node.child? o = some c →
    c.bounds = o.part p.bounds p.bounds.center
  held : ∀ s ∈ t.spots, ∀ e ∈ s.entries,
    s.bounds.Fits e.bounds ∧ ∀ m ∈ t.visitedUp s.path, m.bounds.Fits e.bounds
  deepest : ∀ s ∈ t.spots, ∀ e ∈ s.entries,
    s.depth = depth ∨ Octant.holding? s.bounds.center e.bounds = none
  turned : ∀ s ∈ t.spots, ∀ e ∈ s.entries, ∀ m ∈ t.visitedUp s.path,
    ∃ o, Octant.holding? m.bounds.center e.bounds = some o ∧ m.path ++ [o] <+: s.path
  needed : ∀ s ∈ t.spots, s.path ≠ [] → ∃ c, Reaches (fun _ => .all) s c ∧ c.entries ≠ []
  stored : (t.entries.map Prod.snd).Perm es
  counted : t.length = es.length

lemma Grown.spot (h : Grown b depth t es) {s : Spot α β} (hs : s ∈ t.spots) :
    t.spot? s.path = some s := (mem_spots h.linked).mp hs

lemma Grown.spot_bounds (h : Grown b depth t es) {s : Spot α β} (hs : s ∈ t.spots) :
    s.bounds = region b s.path := h.node_bounds (spot_self.mp (h.spot hs))

lemma Grown.spot_depth (h : Grown b depth t es) {s : Spot α β} (hs : s ∈ t.spots) :
    s.depth = s.path.length := h.linked.depth _ _ (spot_self.mp (h.spot hs))

lemma Grown.spot_key (h : Grown b depth t es) {s : Spot α β} (hs : s ∈ t.spots) :
    s.node.key = s.path := h.linked.key _ _ (spot_self.mp (h.spot hs))

lemma Grown.descent_eq (h : Grown b depth t es) {s : Spot α β} (hs : s ∈ t.spots)
    {e : Entry α β} (he : e ∈ s.entries) : descent e.bounds depth b = s.path :=
  ((h.node (spot_self.mp (h.spot hs))).2.2 e (Array.mem_toList_iff.mp he)).2

lemma Grown.child_placed (h : Grown b depth t es) {p c : Spot α β} (hp : p ∈ t.spots)
    (hc : c ∈ p.children) : c.depth = p.depth + 1 ∧ c.depth ≤ depth := by
  obtain ⟨hs, o, ho⟩ := (spot_child (h.spot hp)).mp hc
  rw [h.spot_depth hp, h.spot_depth ((mem_spots h.linked).mpr hs)]
  exact ⟨by simp [ho], (h.node (spot_self.mp hs)).1⟩

lemma Grown.child_bounds (h : Grown b depth t es) {p : Spot α β} (hp : p ∈ t.spots) {o : Octant}
    {c : Node α β} (hc : p.node.child? o = some c) :
    c.bounds = o.part p.bounds p.bounds.center := by
  have hn : t.node? (p.path ++ [o]) = some c := by
    rw [node_append, spot_self.mp (h.spot hp)]
    simpa using hc
  rw [h.node_bounds hn, region_append, h.spot_bounds hp]

lemma Grown.exists_entry_below (h : Grown b depth t es) {s : Spot α β} (hs : s ∈ t.spots)
    (hne : s.path ≠ []) : ∃ c, Reaches (fun _ => .all) s c ∧ c.entries ≠ [] := by
  have hsome : (t.node? s.path).isSome := by rw [spot_self.mp (h.spot hs)]; rfl
  obtain ⟨e, he, hp⟩ := ((h.isSome_node _).mp hsome).resolve_left hne
  obtain ⟨c, hc, hec⟩ := h.mem_iff.mp he
  rw [h.descent_eq ((mem_spots h.linked).mpr hc) hec] at hp
  exact ⟨c, reaches_of_append (h.spot hs) hc hp, List.ne_nil_of_mem hec⟩

lemma Grown.exists_spot_offerAll (h : Grown b depth t es) {s : Spot α β} (hs : s ∈ t.spots)
    (later : List (Entry α β)) :
    ∃ s' ∈ (t.offerAll later).spots, s'.path = s.path ∧ s'.node.place = s.node.place := by
  have hg := h.offerAll later
  have hsome : (t.node? s.path).isSome := by rw [spot_self.mp (h.spot hs)]; rfl
  have hkept : ((t.offerAll later).node? s.path).isSome := by
    rw [hg.isSome_node]
    apply ((h.isSome_node _).mp hsome).imp_right
    rintro ⟨e, he, hp⟩
    exact ⟨e, List.mem_append_left _ he, hp⟩
  obtain ⟨n, hn⟩ := Option.isSome_iff_exists.mp hkept
  have hmem : (⟨s.path, n⟩ : Spot α β) ∈ (t.offerAll later).spots :=
    (mem_spots hg.linked).mpr (spot_self.mpr hn)
  exact ⟨⟨s.path, n⟩, hmem, rfl,
    (hg.node hn).2.1.trans (h.node (spot_self.mp (h.spot hs))).2.1.symm⟩

lemma Grown.turned (h : Grown b depth t es) {s m : Spot α β} (hs : s ∈ t.spots) {e : Entry α β}
    (he : e ∈ s.entries) (hm : m ∈ t.visitedUp s.path) :
    ∃ o, Octant.holding? m.bounds.center e.bounds = some o ∧ m.path ++ [o] <+: s.path := by
  obtain ⟨o, ho⟩ := exists_append_of_mem_visitedUp h.linked (h.spot hs) hm
  have hspot := ((mem_visitedUp h.linked (h.spot hs)).mp hm).1
  refine ⟨o, ?_, ho⟩
  rw [h.spot_bounds ((mem_spots h.linked).mpr hspot)]
  exact holding_of_descent (h.descent_eq hs he ▸ ho)

lemma Grown.deepest (h : Grown b depth t es) {s : Spot α β} (hs : s ∈ t.spots) {e : Entry α β}
    (he : e ∈ s.entries) :
    s.depth = depth ∨ Octant.holding? s.bounds.center e.bounds = none := by
  rw [h.spot_bounds hs, h.spot_depth hs, ← h.descent_eq hs he]
  exact descent_ends _ _ _

variable [OrderedScalar α]

lemma Grown.arranged (h : Grown b depth t es) : t.Arranged b depth es where
  root := ⟨h.bounds_eq, h.placed.1, h.linked.depth [] _ rfl, h.linked.root⟩
  keyed s hs := by
    rw [h.spot_key hs]
    exact ⟨rfl, spot_self.mp (h.spot hs)⟩
  once := by
    rw [List.map_congr_left fun s hs => h.spot_key hs]
    exact nodup_visitedDown t [] _
  parent s hs hne := by
    rw [h.spot_key hs, h.linked.key [] _ rfl] at hne
    exact exists_parent h.linked hs hne
  child _ hp _ := mem_children_iff h.linked hp
  rooted s hs := by
    refine ⟨reaches_of_append rfl (h.spot hs) List.nil_prefix, fun hne => ?_⟩
    rw [h.spot_key hs, h.linked.key [] _ rfl] at hne
    rw [h.spot_key hs]
    exact h.linked.getLast_visitedUp (by rw [spot_self.mp (h.spot hs)]; rfl) hne
  deeper _ hp _ hc := h.child_placed hp hc
  part _ hp _ _ hc := h.child_bounds hp hc
  held s hs e he := by
    have hfit := fun m => h.fits_above (m := m) (h.spot hs) he
    refine ⟨hfit s (h.spot hs) List.prefix_rfl, fun m hm => ?_⟩
    obtain ⟨hspot, hp, _⟩ := (mem_visitedUp h.linked (h.spot hs)).mp hm
    exact hfit m hspot hp
  deepest _ hs _ he := h.deepest hs he
  turned _ hs _ he _ hm := h.turned hs he hm
  needed _ hs hne := h.exists_entry_below hs hne
  stored := h.entries_perm
  counted := h.length_eq

/-- After any insertions, taken or refused, the tree is arranged over those whose box fits the root,
and these are the ones taken: a box with a NaN is not among them. What is refused changes nothing,
what is taken is counted and lies at the node whose key is returned, and no node is lost or changes
its place later on. -/
theorem offerAll_arranged (hnew : Octree.new b depth = .ok t) (es : List (Entry α β)) :
    (t.offerAll es).Arranged b depth (es.filter fun e => b.Fits e.bounds) ∧
      (∀ v x, (∃ p u, (t.offerAll es).insert v x = (.ok p, u)) ↔ b.Fits v) ∧
      (∀ v, b.Fits v → v.IsNumeric) ∧
      (∀ v x err u, (t.offerAll es).insert v x = (.error err, u) →
        err = .outsideRoot v b ∧ u = t.offerAll es) ∧
      (∀ v x p u, (t.offerAll es).insert v x = (.ok p, u) →
        u.length = (t.offerAll es).length + 1 ∧
          ∃ s ∈ u.spots, s.node.key = p ∧ ⟨v, x⟩ ∈ s.entries) ∧
      ∀ s ∈ (t.offerAll es).spots, ∀ later, ∃ s' ∈ ((t.offerAll es).offerAll later).spots,
        s'.path = s.path ∧ s'.node.place = s.node.place := by
  have hg := (Grown.new hnew).offerAll es
  rw [List.nil_append] at hg
  refine ⟨hg.arranged, fun v x => ?_, fun v => Box.Fits.numeric, fun v x err u herr => ?_,
    fun v x p u hu => ?_, fun s hs later => hg.exists_spot_offerAll hs later⟩
  · constructor
    · rintro ⟨p, u, hu⟩
      exact (hg.insert_eq_ok hu).1
    · intro hv
      obtain ⟨u, hu⟩ := hg.insert_of_fits hv x
      exact ⟨_, u, hu⟩
  · rw [hg.insert_eq] at herr
    split at herr
    · simp at herr
    · obtain ⟨hfault, htree⟩ := Prod.mk.inj herr
      exact ⟨(Except.error.inj hfault).symm, htree.symm⟩
  · have hu' : Grown b depth u _ := hg.insert (e := ⟨v, x⟩) hu
    obtain ⟨_, rfl, rfl⟩ := hg.insert_eq_ok hu
    obtain ⟨s, hs, he⟩ := hu'.mem_iff.mp (List.mem_append_right _ (List.mem_singleton_self _))
    have hmem := (mem_spots hu'.linked).mpr hs
    exact ⟨rfl, s, hmem, (hu'.spot_key hmem).trans (hu'.descent_eq hmem he).symm, he⟩

def strays : List (Entry Float ℕ) :=
  [⟨⟨⟨1, 1, 1⟩, ⟨2, 0 / 0, 2⟩⟩, 5⟩, ⟨⟨⟨15, 15, 15⟩, ⟨17, 16, 16⟩⟩, 6⟩,
    ⟨⟨⟨0, 0, 0⟩, ⟨1 / 0, 1, 1⟩⟩, 7⟩]

theorem offerAll_arranged_crossing :
    ∃ t : Octree Float ℕ, Octree.new ⟨⟨0, 0, 0⟩, ⟨16, 16, 16⟩⟩ 3 = .ok t ∧
      (t.offerAll (strays ++ crossing)).Arranged ⟨⟨0, 0, 0⟩, ⟨16, 16, 16⟩⟩ 3 crossing ∧
      (t.offerAll (strays ++ crossing)).length = 5 := by
  have hnew := new_of_usable (β := ℕ) (b := (⟨⟨0, 0, 0⟩, ⟨16, 16, 16⟩⟩ : Box Float))
    (by decide +kernel) (by decide +kernel) 3
  have hfits : ∀ e ∈ crossing, Box.Fits ⟨⟨0, 0, 0⟩, ⟨16, 16, 16⟩⟩ e.bounds := by decide +kernel
  have hstray : ∀ e ∈ strays, ¬ Box.Fits ⟨⟨0, 0, 0⟩, ⟨16, 16, 16⟩⟩ e.bounds := by
    decide +kernel
  obtain ⟨harr, _⟩ := offerAll_arranged hnew (strays ++ crossing)
  rw [List.filter_append, List.filter_eq_nil_iff.mpr (by simpa using hstray), List.nil_append,
    List.filter_eq_self.mpr (by simpa using hfits)] at harr
  exact ⟨_, hnew, harr, harr.counted⟩

end Octree

end SolidClash
