import Mathlib.Data.List.Induction
import SolidClash.Proofs.Octree.Levels

namespace SolidClash.Octree

variable {α β : Type}

/-- What the nodes of a tree keep of their place fits where they are. -/
structure Linked (t : Octree α β) : Prop where
  length_le : ∀ p n, t.node? p = some n → p.length ≤ t.maxDepth
  key : ∀ p n, t.node? p = some n → n.key = p
  depth : ∀ p n, t.node? p = some n → n.depth = p.length
  root : t.root.parent = none
  parent : ∀ p o n, t.node? (p ++ [o]) = some n → n.parent = some p

lemma spot_eq_some {t : Octree α β} {p : Path} {s : Spot α β} :
    t.spot? p = some s ↔ s.path = p ∧ t.node? p = some s.node := by
  simp only [spot?, Option.map_eq_some_iff]
  constructor
  · rintro ⟨n, hn, rfl⟩
    exact ⟨rfl, hn⟩
  · rintro ⟨rfl, hn⟩
    exact ⟨s.node, hn, rfl⟩

lemma spot_self {t : Octree α β} {s : Spot α β} :
    t.spot? s.path = some s ↔ t.node? s.path = some s.node := by
  simp [spot_eq_some]

lemma node_append (t : Octree α β) (p q : Path) :
    t.node? (p ++ q) = (t.node? p).bind fun n => n.at? q := t.root.at_append p q

lemma spot_child {t : Octree α β} {s c : Spot α β} (hs : t.spot? s.path = some s) :
    c ∈ s.children ↔ t.spot? c.path = some c ∧ ∃ o, c.path = s.path ++ [o] := by
  rw [spot_self] at hs ⊢
  rw [Spot.mem_children]
  constructor
  · rintro ⟨o, m, hm, rfl⟩
    exact ⟨by simp [node_append, hs, Node.at_cons, hm], o, rfl⟩
  · rintro ⟨hc, o, ho⟩
    refine ⟨o, c.node, ?_, ?_⟩
    · rw [ho, node_append, hs] at hc
      simpa using hc
    · cases c
      simpa using ho

lemma Reaches.spot {t : Octree α β} {visit : Spot α β → Visit} {s c : Spot α β}
    (h : Reaches visit s c) (hs : t.spot? s.path = some s) : t.spot? c.path = some c := by
  induction h with
  | refl => exact hs
  | tail _ he ih => exact ((spot_child ih).mp he.2).1

lemma Reaches.path_below {visit : Spot α β → Visit} {s c : Spot α β}
    (h : Reaches visit s c) : s.path <+: c.path := by
  induction h with
  | refl => exact List.prefix_rfl
  | tail _ he ih =>
    obtain ⟨o, m, _, rfl⟩ := Spot.mem_children.mp he.2
    exact ih.trans (List.prefix_append _ _)

lemma reaches_of_below {t : Octree α β} {visit : Spot α β → Visit} {s c : Spot α β}
    (hs : t.spot? s.path = some s) (hc : t.spot? c.path = some c) (hp : s.path <+: c.path)
    (hv : ∀ m, t.spot? m.path = some m → s.path <+: m.path → m.path <+: c.path →
      (visit m).descend = true) : Reaches visit s c := by
  obtain ⟨r, hr⟩ := hp
  -- the rest of the path grows at its end: the last node is a child of the one before it
  induction r using List.reverseRecOn generalizing c with
  | nil =>
    rw [List.append_nil] at hr
    rw [← hr] at hc
    obtain rfl := Option.some.inj (hs.symm.trans hc)
    exact .refl
  | append_singleton r o ih =>
    have hcn := spot_self.mp hc
    rw [← hr, ← List.append_assoc, node_append] at hcn
    obtain ⟨n, hn, _⟩ := Option.bind_eq_some_iff.mp hcn
    let m : Spot α β := ⟨s.path ++ r, n⟩
    have hm : t.spot? m.path = some m := spot_self.mpr hn
    have hmc : m.path <+: c.path := ⟨[o], by simp [m, ← hr]⟩
    have hsm : s.path <+: m.path := List.prefix_append _ _
    refine .tail (ih hm (fun m' hm' h h' => hv m' hm' h (h'.trans hmc)) rfl)
      ⟨hv m hm hsm hmc, (spot_child hm).mpr ⟨hc, o, ?_⟩⟩
    simp [m, ← hr]

lemma mem_visitedDown {t : Octree α β} (ht : t.Linked) {start : Path}
    {visit : Spot α β → Visit} {c : Spot α β} :
    c ∈ t.visitedDown start visit ↔ ∃ s, t.spot? start = some s ∧ Reaches visit s c := by
  simp only [visitedDown, mem_descendLevels, Option.mem_toList]
  constructor
  · rintro ⟨s, hs, hr, _⟩
    exact ⟨s, hs, hr⟩
  · rintro ⟨s, hs, hr⟩
    obtain ⟨rfl, _⟩ := spot_eq_some.mp hs
    have := ht.length_le _ _ (spot_self.mp (hr.spot hs))
    exact ⟨s, hs, hr, by omega⟩

lemma length_of_mem_spot {t : Octree α β} {start : Path} :
    ∀ s ∈ (t.spot? start).toList, s.path.length = start.length := by
  intro s hs
  rw [(spot_eq_some.mp (by simpa using hs)).1]

lemma nodup_visitedDown (t : Octree α β) (start : Path) (visit : Spot α β → Visit) :
    ((t.visitedDown start visit).map Spot.path).Nodup := by
  apply nodup_descendLevels visit _ length_of_mem_spot
  cases t.spot? start <;> simp

lemma mem_spots {t : Octree α β} (ht : t.Linked) {s : Spot α β} :
    s ∈ t.spots ↔ t.spot? s.path = some s := by
  let top : Spot α β := ⟨[], t.root⟩
  have htop : t.spot? top.path = some top := rfl
  rw [spots, mem_visitedDown ht]
  constructor
  · rintro ⟨r, hr, h⟩
    obtain ⟨hp, _⟩ := spot_eq_some.mp hr
    exact h.spot (hp ▸ hr)
  · intro hs
    exact ⟨top, htop, reaches_of_below htop hs List.nil_prefix fun _ _ _ _ => rfl⟩

lemma entries_perm_contents (t : Octree α β) :
    (t.entries.map Prod.snd).Perm (t.root.contents t.maxDepth) := by
  have hs : t.entries.map Prod.snd = t.spots.flatMap Spot.entries := by
    simp [entries, List.map_flatMap, Function.comp_def]
  rw [hs]
  apply (entries_descendLevels t.maxDepth (t.spot? []).toList).trans
  simp [spot?, node?]

def ancestors (p : Path) : List Path := (List.range p.length).reverse.map p.take

lemma ancestors_append (p : Path) (o : Octant) : ancestors (p ++ [o]) = p :: ancestors p := by
  simp only [ancestors, List.length_append, List.length_singleton, List.range_succ,
    List.reverse_append, List.reverse_singleton, List.singleton_append, List.map_cons,
    List.take_left]
  congr 1
  apply List.map_congr_left
  intro k hk
  rw [List.mem_reverse, List.mem_range] at hk
  exact List.take_append_of_le_length hk.le

lemma mem_ancestors {p q : Path} : q ∈ ancestors p ↔ q <+: p ∧ q ≠ p := by
  simp only [ancestors, List.mem_map, List.mem_reverse, List.mem_range]
  constructor
  · rintro ⟨k, hk, rfl⟩
    refine ⟨List.take_prefix k p, fun h => ?_⟩
    have := congrArg List.length h
    rw [List.length_take] at this
    omega
  · rintro ⟨h, hne⟩
    refine ⟨q.length, ?_, (List.prefix_iff_eq_take.mp h).symm⟩
    exact lt_of_le_of_ne h.length_le fun hl => hne (h.eq_of_length hl)

lemma nodup_ancestors (p : Path) : (ancestors p).Nodup := by
  refine List.Nodup.map_on ?_ (List.nodup_reverse.mpr List.nodup_range)
  intro i hi j hj h
  rw [List.mem_reverse, List.mem_range] at hi hj
  have := congrArg List.length h
  rw [List.length_take, List.length_take] at this
  omega

lemma Linked.climb_eq {t : Octree α β} (ht : t.Linked) {p : Path} {n : Node α β}
    (hn : t.node? p = some n) {levels : ℕ} (hl : p.length ≤ levels) :
    t.climb levels n.parent = (ancestors p).filterMap t.spot? := by
  induction p using List.reverseRecOn generalizing n levels with
  | nil =>
    obtain rfl := Option.some.inj hn
    rw [ht.root]
    cases levels <;> rfl
  | append_singleton p o ih =>
    rw [List.length_append, List.length_singleton] at hl
    obtain ⟨levels, rfl⟩ : ∃ k, levels = k + 1 := ⟨levels - 1, by omega⟩
    have hn' := hn
    rw [node_append] at hn'
    obtain ⟨m, hm, _⟩ := Option.bind_eq_some_iff.mp hn'
    have hs : t.spot? p = some ⟨p, m⟩ := spot_eq_some.mpr ⟨rfl, hm⟩
    rw [ht.parent p o n hn, ancestors_append, climb, List.filterMap_cons, hs]
    exact congrArg _ (ih hm (by omega))

lemma Linked.visitedUp_eq {t : Octree α β} (ht : t.Linked) {start : Path} {n : Node α β}
    (hn : t.node? start = some n) :
    t.visitedUp start = (ancestors start).filterMap t.spot? := by
  rw [visitedUp, hn, Option.bind_some]
  exact ht.climb_eq hn (ht.length_le _ _ hn)

lemma visitedUp_of_none {t : Octree α β} {start : Path} (hn : t.node? start = none) :
    t.visitedUp start = [] := by
  rw [visitedUp, hn, Option.bind_none]
  cases t.maxDepth <;> rfl

lemma mem_visitedUp {t : Octree α β} (ht : t.Linked) {s c : Spot α β}
    (hs : t.spot? s.path = some s) :
    c ∈ t.visitedUp s.path ↔ t.spot? c.path = some c ∧ c.path <+: s.path ∧ c.path ≠ s.path := by
  rw [ht.visitedUp_eq (spot_self.mp hs), List.mem_filterMap]
  simp only [mem_ancestors]
  constructor
  · rintro ⟨p, hp, hc⟩
    obtain ⟨rfl, _⟩ := spot_eq_some.mp hc
    exact ⟨hc, hp⟩
  · rintro ⟨hc, hp⟩
    exact ⟨c.path, hp, hc⟩

lemma nodup_visitedUp {t : Octree α β} (ht : t.Linked) (start : Path) :
    ((t.visitedUp start).map Spot.path).Nodup := by
  cases hn : t.node? start with
  | none => simp [visitedUp_of_none hn]
  | some n =>
    rw [ht.visitedUp_eq hn, List.map_filterMap]
    apply (nodup_ancestors start).filterMap
    intro p q r hp hq
    obtain ⟨s, hs, rfl⟩ := Option.map_eq_some_iff.mp hp
    obtain ⟨s', hs', hr⟩ := Option.map_eq_some_iff.mp hq
    rw [← (spot_eq_some.mp hs).1, ← (spot_eq_some.mp hs').1, hr]

lemma exists_spot_of_append {t : Octree α β} {p : Path} {o : Octant}
    (hs : (t.node? (p ++ [o])).isSome) : ∃ m, t.spot? p = some m := by
  obtain ⟨c, hc⟩ := Option.isSome_iff_exists.mp hs
  rw [node_append] at hc
  obtain ⟨m, hm, -⟩ := Option.bind_eq_some_iff.mp hc
  exact ⟨⟨p, m⟩, spot_eq_some.mpr ⟨rfl, hm⟩⟩

lemma Linked.visitedUp_nil {t : Octree α β} (ht : t.Linked) : t.visitedUp [] = [] := by
  rw [ht.visitedUp_eq (rfl : t.node? [] = some t.root)]
  rfl

lemma Linked.visitedUp_append {t : Octree α β} (ht : t.Linked) {s : Spot α β} {p : Path}
    {o : Octant} (hp : t.spot? p = some s) (hs : (t.node? (p ++ [o])).isSome) :
    t.visitedUp (p ++ [o]) = s :: t.visitedUp p := by
  obtain ⟨n, hn⟩ := Option.isSome_iff_exists.mp hs
  have hn' := (spot_eq_some.mp hp).2
  rw [ht.visitedUp_eq hn, ht.visitedUp_eq hn', ancestors_append, List.filterMap_cons, hp]

lemma Linked.getLast_visitedUp {t : Octree α β} (ht : t.Linked) {start : Path}
    (hs : (t.node? start).isSome) (hne : start ≠ []) :
    (t.visitedUp start).getLast? = some ⟨[], t.root⟩ := by
  induction start using List.reverseRecOn with
  | nil => exact (hne rfl).elim
  | append_singleton p o ih =>
    obtain ⟨m, hm⟩ := exists_spot_of_append hs
    rw [ht.visitedUp_append hm hs]
    cases p with
    | nil =>
      obtain rfl : ⟨[], t.root⟩ = m := Option.some.inj hm
      rw [ht.visitedUp_nil]
      rfl
    | cons o' p =>
      have hsome : (t.node? (o' :: p)).isSome := by rw [(spot_eq_some.mp hm).2]; rfl
      rw [List.getLast?_cons, ih hsome (List.cons_ne_nil _ _), Option.getD_some]

lemma mem_walkUp {t : Octree α β} {k : Path} {visit : Spot α β → Visit} {s : Spot α β} :
    s ∈ t.walkUp k visit ↔ s ∈ t.visitedUp k ∧ (visit s).matched = true := List.mem_filter

lemma mem_walkDown {t : Octree α β} {k : Path} {visit : Spot α β → Visit} {s : Spot α β} :
    s ∈ t.walkDown k visit ↔ s ∈ t.visitedDown k visit ∧ (visit s).matched = true :=
  List.mem_filter

lemma spot_of_mem_walkDown {t : Octree α β} (ht : t.Linked) {k : Path}
    {visit : Spot α β → Visit} {s : Spot α β} (hs : s ∈ t.walkDown k visit) :
    t.spot? s.path = some s := by
  obtain ⟨r, hr, h⟩ := (mem_visitedDown ht).mp (mem_walkDown.mp hs).1
  exact h.spot ((spot_eq_some.mp hr).1 ▸ hr)

lemma mem_walkDown_when {t : Octree α β} (ht : t.Linked) {s c : Spot α β}
    (hs : t.spot? s.path = some s) (hc : t.spot? c.path = some c) (hp : s.path <+: c.path)
    {q : Spot α β → Bool} (hq : ∀ m, t.spot? m.path = some m → m.path <+: c.path → q m = true) :
    c ∈ t.walkDown s.path fun m => .when (q m) :=
  mem_walkDown.mpr ⟨(mem_visitedDown ht).mpr ⟨s, hs, reaches_of_below hs hc hp
    fun m hm _ hmc => hq m hm hmc⟩, hq c hc List.prefix_rfl⟩

lemma spot_of_mem_walkUpDown {t : Octree α β} (ht : t.Linked) {k : Path} {n : Node α β}
    (hn : t.node? k = some n) {visit : Spot α β → Visit} {s : Spot α β}
    (hs : s ∈ t.walkUpDown k visit) : t.spot? s.path = some s := by
  have hk : t.spot? (⟨k, n⟩ : Spot α β).path = some ⟨k, n⟩ := spot_self.mpr hn
  rcases List.mem_append.mp hs with h | h
  · exact ((mem_visitedUp ht hk).mp (mem_walkUp.mp h).1).1
  · exact spot_of_mem_walkDown ht h

lemma nodup_walkUpDown {t : Octree α β} (ht : t.Linked) {k : Path} {n : Node α β}
    (hn : t.node? k = some n) (visit : Spot α β → Visit) :
    ((t.walkUpDown k visit).map Spot.path).Nodup := by
  have hk : t.spot? (⟨k, n⟩ : Spot α β).path = some ⟨k, n⟩ := spot_self.mpr hn
  have hup : ((t.walkUp k visit).map Spot.path).Nodup :=
    (nodup_visitedUp ht k).sublist (List.filter_sublist.map _)
  have hdown : ((t.walkDown k visit).map Spot.path).Nodup :=
    (nodup_visitedDown t k visit).sublist (List.filter_sublist.map _)
  rw [walkUpDown, List.map_append]
  apply hup.append hdown
  intro p hp hp'
  obtain ⟨a, ha, rfl⟩ := List.mem_map.mp hp
  obtain ⟨c, hc, hca⟩ := List.mem_map.mp hp'
  obtain ⟨_, hak, hne⟩ := (mem_visitedUp ht hk).mp (mem_walkUp.mp ha).1
  obtain ⟨s, hs, hr⟩ := (mem_visitedDown ht).mp (mem_walkDown.mp hc).1
  obtain rfl := Option.some.inj (hk.symm.trans hs)
  -- an ancestor's path is shorter than `k`, a path met on the way down is not
  have hkc : k <+: a.path := hca ▸ hr.path_below
  exact hne (hak.eq_of_length (Nat.le_antisymm hak.length_le hkc.length_le))

end SolidClash.Octree
