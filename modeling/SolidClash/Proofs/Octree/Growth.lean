import SolidClash.Proofs.Octree.Visited

namespace SolidClash.Octree

variable {α β : Type} [Scalar α]

/-- The trees with root box `b` that insertions lead to, with the entries inserted so far. An entry
that does not fit the root leads to no new tree. -/
inductive Grown (b : Box α) (depth : ℕ) : Octree α β → List (Entry α β) → Prop
  | new {t} : Octree.new b depth = .ok t → Grown b depth t []
  | insert {t t' es e p} : Grown b depth t es → t.insert e.bounds e.value = (.ok p, t') →
      Grown b depth t' (es ++ [e])

variable {b : Box α} {depth : ℕ} {t t' : Octree α β} {es es' : List (Entry α β)}

lemma new_eq_ok (h : Octree.new b depth = .ok t) :
    ¬ b.IsEmpty ∧ b.IsFinite ∧ t = ⟨.bare (.root b), depth, 0⟩ := by
  rw [Octree.new] at h
  split at h
  · simp at h
  · rename_i hb
    rw [not_or, not_not] at hb
    exact ⟨hb.1, hb.2, (Except.ok.inj h).symm⟩

lemma new_of_usable (hb : ¬ b.IsEmpty) (hf : b.IsFinite) (depth : ℕ) :
    Octree.new b depth = .ok (⟨.bare (.root b), depth, 0⟩ : Octree α β) := by
  simp [Octree.new, hb, hf]

def stored (t : Octree α β) (e : Entry α β) (p : Path) : Octree α β :=
  { t with root := t.root.store e p, length := t.length + 1 }

def Placed (b : Box α) (depth : ℕ) (t : Octree α β) : Prop :=
  t.maxDepth = depth ∧ Node.Placed (fun e => b.Fits e.bounds) depth (.root b) t.root

lemma Placed.insert_eq (h : t.Placed b depth) (v : Box α) (x : β) :
    t.insert v x =
      if b.Fits v then (.ok (descent v depth b), t.stored ⟨v, x⟩ (descent v depth b))
      else (.error (.outsideRoot v b), t) := by
  obtain ⟨rfl, hroot⟩ := h
  have hb : t.bounds = b := congrArg Place.bounds (hroot [] _ rfl).2.1
  have hwalk := hroot.insert_eq (Nat.zero_add _) ⟨v, x⟩
  rw [Octree.insert, hb, hwalk]
  rfl

lemma insertAll_cons {e : Entry α β} :
    t.insertAll (e :: es) = .ok t' ↔
      ∃ u p, t.insert e.bounds e.value = (.ok p, u) ∧ u.insertAll es = .ok t' := by
  simp only [insertAll]
  rcases t.insert e.bounds e.value with ⟨_ | p, u⟩
  · simp
  · simp

lemma Grown.insertAll (h : Grown b depth t es) (hi : t.insertAll es' = .ok t') :
    Grown b depth t' (es ++ es') := by
  induction es' generalizing t es with
  | nil =>
    obtain rfl := Except.ok.inj hi
    simpa using h
  | cons e es' ih =>
    obtain ⟨u, p, hu, hi⟩ := insertAll_cons.mp hi
    simpa using ih (h.insert hu) hi

lemma grown_of_insertAll (h : (do (← Octree.new b depth).insertAll es) = Except.ok t) :
    Grown b depth t es := by
  cases hnew : (Octree.new b depth : Except (OctreeError α) (Octree α β)) with
  | error e => simp [hnew, bind, Except.bind] at h
  | ok t =>
    simp only [hnew, bind, Except.bind] at h
    exact (Grown.new hnew).insertAll h

lemma Grown.placed (h : Grown b depth t es) : t.Placed b depth := by
  induction h with
  | new h =>
    obtain ⟨_, _, rfl⟩ := new_eq_ok h
    exact ⟨rfl, Node.placed_bare _ _ _⟩
  | insert _ hi ih =>
    rw [ih.insert_eq] at hi
    split at hi
    · rename_i hf
      obtain ⟨_, rfl⟩ := Prod.mk.inj hi
      exact ⟨ih.1, ih.2.store hf⟩
    · simp at hi

lemma Grown.insert_eq (h : Grown b depth t es) (v : Box α) (x : β) :
    t.insert v x =
      if b.Fits v then (.ok (descent v depth b), t.stored ⟨v, x⟩ (descent v depth b))
      else (.error (.outsideRoot v b), t) := h.placed.insert_eq v x

lemma Grown.insert_eq_ok (h : Grown b depth t es) {v : Box α} {x : β} {p : Path}
    (hi : t.insert v x = (.ok p, t')) : b.Fits v ∧ p = descent v depth b ∧ t' = t.stored ⟨v, x⟩ p := by
  rw [h.insert_eq] at hi
  split at hi
  · rename_i hf
    obtain ⟨hp, rfl⟩ := Prod.mk.inj hi
    obtain rfl := Except.ok.inj hp
    exact ⟨hf, rfl, rfl⟩
  · simp at hi

lemma Grown.insert_of_fits (h : Grown b depth t es) {v : Box α} (hv : b.Fits v) (x : β) :
    ∃ u, t.insert v x = (.ok (descent v depth b), u) :=
  ⟨_, (h.insert_eq v x).trans (if_pos hv)⟩

lemma Grown.node (h : Grown b depth t es) {p : Path} {n : Node α β} (hn : t.node? p = some n) :
    p.length ≤ depth ∧ n.place = (Place.root b).below p ∧
      ∀ e ∈ n.entries, b.Fits e.bounds ∧ descent e.bounds depth b = p :=
  h.placed.2 p n hn

lemma Grown.node_bounds (h : Grown b depth t es) {p : Path} {n : Node α β}
    (hn : t.node? p = some n) : n.bounds = region b p := by
  rw [Node.bounds, (h.node hn).2.1, Place.bounds_below]
  rfl

lemma Grown.bounds_eq (h : Grown b depth t es) : t.bounds = b := h.node_bounds (p := []) rfl

lemma Grown.linked (h : Grown b depth t es) : t.Linked where
  length_le p n hn := by
    rw [h.placed.1]
    exact (h.node hn).1
  key p n hn := by
    rw [Node.key, (h.node hn).2.1, Place.key_below]
    rfl
  depth p n hn := by
    rw [Node.depth, (h.node hn).2.1, Place.depth_below]
    exact Nat.zero_add _
  root := congrArg Place.parent (h.node (p := []) rfl).2.1
  parent p o n hn := by
    rw [Node.parent, (h.node hn).2.1, Place.parent_below]
    rfl

lemma Grown.exists_insertAll (h : Grown b depth t es) (hf : ∀ e ∈ es', b.Fits e.bounds) :
    ∃ t', t.insertAll es' = .ok t' := by
  induction es' generalizing t es with
  | nil => exact ⟨t, rfl⟩
  | cons e es' ih =>
    obtain ⟨u, hi⟩ := h.insert_of_fits (hf e List.mem_cons_self) e.value
    obtain ⟨t', ht'⟩ := ih (h.insert hi) fun e he => hf e (List.mem_cons_of_mem _ he)
    exact ⟨t', insertAll_cons.mpr ⟨_, _, hi, ht'⟩⟩

lemma exists_insertAll (hb : ¬ b.IsEmpty) (hf : b.IsFinite) (depth : ℕ)
    (h : ∀ e ∈ es, b.Fits e.bounds) :
    ∃ t, (do (← Octree.new b depth).insertAll es) = Except.ok t := by
  have hnew := new_of_usable (β := β) hb hf depth
  obtain ⟨t, ht⟩ := (Grown.new hnew).exists_insertAll h
  rw [hnew]
  exact ⟨t, ht⟩

lemma Grown.entries_perm (h : Grown b depth t es) : (t.entries.map Prod.snd).Perm es := by
  apply (entries_perm_contents t).trans
  induction h with
  | new h =>
    obtain ⟨_, _, rfl⟩ := new_eq_ok h
    simp [Node.contents_bare]
  | @insert t t' es e p hg hi ih =>
    obtain ⟨_, rfl, rfl⟩ := hg.insert_eq_ok hi
    have hle : (descent e.bounds depth b).length ≤ t.maxDepth :=
      (length_descent_le _ _ _).trans_eq hg.placed.1.symm
    apply (Node.contents_store _ _ hle).trans
    exact (ih.cons _).trans (List.perm_append_singleton _ _).symm

lemma Grown.length_eq (h : Grown b depth t es) : t.length = es.length := by
  induction h with
  | new h =>
    obtain ⟨_, _, rfl⟩ := new_eq_ok h
    rfl
  | insert hg hi ih =>
    obtain ⟨_, _, rfl⟩ := hg.insert_eq_ok hi
    rw [stored, ih, List.length_append, List.length_singleton]

lemma Grown.mem_iff (h : Grown b depth t es) {e : Entry α β} :
    e ∈ es ↔ ∃ s : Spot α β, t.spot? s.path = some s ∧ e ∈ s.entries := by
  rw [← h.entries_perm.mem_iff]
  simp only [entries, List.map_flatMap, List.map_map, List.mem_flatMap, Function.comp_def,
    List.map_id', mem_spots h.linked]

lemma Grown.fits_above [OrderedScalar α] (h : Grown b depth t es) {s m : Spot α β}
    {e : Entry α β} (hs : t.spot? s.path = some s) (he : e ∈ s.entries)
    (hm : t.spot? m.path = some m) (hms : m.path <+: s.path) : m.bounds.Fits e.bounds := by
  obtain ⟨_, _, hes⟩ := h.node (spot_self.mp hs)
  obtain ⟨hfit, hd⟩ := hes e (Array.mem_toList_iff.mp he)
  have hb : m.bounds = region b m.path := h.node_bounds (spot_self.mp hm)
  rw [hb]
  exact region_fits hfit (hd ▸ hms)

end SolidClash.Octree
