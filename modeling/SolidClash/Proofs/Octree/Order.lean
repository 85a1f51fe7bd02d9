import Mathlib.Data.List.Shortlex
import SolidClash.Proofs.Octree.Arranged

/-! A walk with a queue of paths visits the same nodes as level by level. -/

namespace SolidClash.Octree

/-- A walk with a queue of paths visits the listed nodes and ends: the first path is taken off, its
node is visited if the tree has it, and the children that the visitor asks for queue up. -/
inductive Walks {α β : Type} (t : Octree α β) (visit : Spot α β → Visit) :
    List Path → List (Spot α β) → Prop
  | done : Walks t visit [] []
  | skip {p queue ss} (h : t.spot? p = none) (hw : Walks t visit queue ss) :
      Walks t visit (p :: queue) ss
  | enter {p s queue ss} (h : t.spot? p = some s)
      (hw : Walks t visit
        (queue ++ if (visit s).descend then s.children.map Spot.path else []) ss) :
      Walks t visit (p :: queue) (s :: ss)

inductive Climbs {α β : Type} (t : Octree α β) : Path → List (Spot α β) → Prop
  | root : Climbs t [] []
  | step {p o s ss} (h : t.spot? p = some s) (hc : Climbs t p ss) : Climbs t (p ++ [o]) (s :: ss)

def Octant.Before (o o' : Octant) : Prop := o.index < o'.index

variable {α β : Type} {t : Octree α β} {visit : Spot α β → Visit} {start : Path}

section Queue

variable {queue : List Path} {level next ss ss' : List (Spot α β)}

lemma Walks.eq (h : Walks t visit queue ss) (h' : Walks t visit queue ss') : ss = ss' := by
  induction h generalizing ss' with
  | done =>
    cases h'
    rfl
  | skip hp _ ih =>
    cases h' with
    | skip _ hw => exact ih hw
    | enter hs _ => exact absurd (hp.symm.trans hs) (by simp)
  | enter hs _ ih =>
    cases h' with
    | skip hp _ => exact absurd (hp.symm.trans hs) (by simp)
    | enter hs' hw =>
      obtain rfl := Option.some.inj (hs.symm.trans hs')
      rw [ih hw]

lemma walks_level (hlevel : ∀ s ∈ level, t.spot? s.path = some s)
    (h : Walks t visit ((next ++ nextLevel visit level).map Spot.path) ss) :
    Walks t visit ((level ++ next).map Spot.path) (level ++ ss) := by
  induction level generalizing next with
  | nil => simpa [nextLevel] using h
  | cons s level ih =>
    refine .enter (hlevel s List.mem_cons_self) ?_
    have hnext : nextLevel visit (s :: level) =
        (if (visit s).descend then s.children else []) ++ nextLevel visit level := by
      by_cases hs : (visit s).descend <;> simp [nextLevel, hs]
    rw [hnext, ← List.append_assoc] at h
    have hw := ih (fun c hc => hlevel c (List.mem_cons_of_mem s hc)) h
    rw [← List.append_assoc, List.map_append] at hw
    by_cases hs : (visit s).descend <;> simpa [hs] using hw

lemma walks_descendLevels (ht : t.Linked) {k l : ℕ}
    (hlevel : ∀ s ∈ level, t.spot? s.path = some s ∧ s.path.length = l) (hk : t.maxDepth < l + k) :
    Walks t visit (level.map Spot.path) (descendLevels visit k level) := by
  induction k generalizing level l with
  | zero =>
    cases level with
    | nil => exact .done
    | cons s level =>
      -- no node lies deeper than the tree is
      obtain ⟨hs, hl⟩ := hlevel s List.mem_cons_self
      have := ht.length_le _ _ (spot_self.mp hs)
      omega
  | succ k ih =>
    have hnext : ∀ c ∈ nextLevel visit level, t.spot? c.path = some c ∧ c.path.length = l + 1 := by
      intro c hc
      obtain ⟨s, hs, he⟩ := mem_nextLevel.mp hc
      obtain ⟨hspot, hl⟩ := hlevel s hs
      exact ⟨((spot_child hspot).mp he.2).1, by rw [he.length, hl]⟩
    have hw : Walks t visit ((level ++ []).map Spot.path)
        (level ++ descendLevels visit k (nextLevel visit level)) :=
      walks_level (fun s hs => (hlevel s hs).1) (ih hnext (by omega))
    rwa [List.append_nil, ← descendLevels_succ] at hw

lemma walks_visitedDown (ht : t.Linked) (start : Path) (visit : Spot α β → Visit) :
    Walks t visit [start] (t.visitedDown start visit) := by
  cases hs : t.spot? start with
  | none =>
    have hnone : t.visitedDown start visit = [] := by
      rw [visitedDown, hs, Option.toList_none, descendLevels_succ]
      cases t.maxDepth <;> rfl
    exact hnone ▸ .skip hs .done
  | some s =>
    obtain ⟨rfl, -⟩ := spot_eq_some.mp hs
    have hw : Walks t visit ([s].map Spot.path) (descendLevels visit (t.maxDepth + 1) [s]) :=
      walks_descendLevels (l := s.path.length) ht (by simpa using hs) (by omega)
    rwa [visitedDown, hs]

end Queue

section Order

lemma before_of_lex {p q : Path} (h : List.Lex Octant.Before p q) (hl : p.length = q.length)
    (p' q' : Path) : List.Lex Octant.Before (p ++ p') (q ++ q') := by
  induction h with
  | nil => simp at hl
  | cons _ ih => exact .cons (ih (by simpa using hl))
  | rel h => exact .rel h

lemma pairwise_before_all : Octant.all.Pairwise Octant.Before := by
  simp [Octant.all, Octant.Before, Octant.index]

lemma pairwise_children (s : Spot α β) :
    (s.children.map Spot.path).Pairwise (List.Lex Octant.Before) := by
  rw [Spot.children, List.map_filterMap, List.pairwise_filterMap]
  refine pairwise_before_all.imp fun {o o'} hoo p hp q hq => ?_
  simp only [Option.map_map, Option.map_eq_some_iff] at hp hq
  obtain ⟨_, _, rfl⟩ := hp
  obtain ⟨_, _, rfl⟩ := hq
  exact List.Lex.append_left _ (.rel hoo) s.path

lemma pairwise_nextLevel {level : List (Spot α β)} {l : ℕ} (hl : ∀ s ∈ level, s.path.length = l)
    (h : (level.map Spot.path).Pairwise (List.Lex Octant.Before)) :
    ((nextLevel visit level).map Spot.path).Pairwise (List.Lex Octant.Before) := by
  rw [nextLevel, List.map_flatMap, List.pairwise_flatMap]
  refine ⟨fun s _ => pairwise_children s, ?_⟩
  have hfilter := (List.pairwise_map.mp h).filter fun s => (visit s).descend
  refine hfilter.imp_of_mem fun {s s'} hs hs' hlex p hp q hq => ?_
  obtain ⟨c, hc, rfl⟩ := List.mem_map.mp hp
  obtain ⟨c', hc', rfl⟩ := List.mem_map.mp hq
  obtain ⟨o, _, _, rfl⟩ := Spot.mem_children.mp hc
  obtain ⟨o', _, _, rfl⟩ := Spot.mem_children.mp hc'
  have hlength := (hl s (List.mem_of_mem_filter hs)).trans (hl s' (List.mem_of_mem_filter hs')).symm
  exact before_of_lex hlex hlength [o] [o']

lemma pairwise_descendLevels (k : ℕ) {level : List (Spot α β)} {l : ℕ}
    (hl : ∀ s ∈ level, s.path.length = l)
    (h : (level.map Spot.path).Pairwise (List.Lex Octant.Before)) :
    ((descendLevels visit k level).map Spot.path).Pairwise (List.Shortlex Octant.Before) := by
  induction k generalizing level l with
  | zero => simp [descendLevels]
  | succ k ih =>
    rw [descendLevels_succ, List.map_append, List.pairwise_append]
    refine ⟨?_, ih (length_nextLevel hl) (pairwise_nextLevel hl h), fun p hp q hq => ?_⟩
    · rw [List.pairwise_map] at h ⊢
      refine h.imp_of_mem fun {s s'} hs hs' hlex => ?_
      exact .of_lex ((hl s hs).trans (hl s' hs').symm) hlex
    · obtain ⟨s, hs, rfl⟩ := List.mem_map.mp hp
      obtain ⟨c, hc, rfl⟩ := List.mem_map.mp hq
      have hlt := le_length_of_mem (length_nextLevel hl) c hc
      exact .of_length_lt (by rw [hl s hs]; omega)

lemma pairwise_visitedDown (t : Octree α β) (start : Path) (visit : Spot α β → Visit) :
    ((t.visitedDown start visit).map Spot.path).Pairwise (List.Shortlex Octant.Before) := by
  apply pairwise_descendLevels _ length_of_mem_spot
  cases t.spot? start <;> simp

end Order

section Climb

variable {s : Spot α β}

lemma climbs_visitedUp (ht : t.Linked) (hs : (t.node? start).isSome) :
    Climbs t start (t.visitedUp start) := by
  induction start using List.reverseRecOn with
  | nil => exact ht.visitedUp_nil ▸ .root
  | append_singleton p o ih =>
    obtain ⟨m, hm⟩ := exists_spot_of_append hs
    have hp : (t.node? p).isSome := by rw [(spot_eq_some.mp hm).2]; rfl
    exact ht.visitedUp_append hm hs ▸ .step hm (ih hp)

lemma pairwise_visitedUp (ht : t.Linked) (start : Path) :
    (t.visitedUp start).Pairwise fun s s' => s'.depth < s.depth := by
  cases hn : t.node? start with
  | none => simp [visitedUp_of_none hn]
  | some n =>
    rw [ht.visitedUp_eq hn]
    refine List.pairwise_filterMap.mpr ?_
    rw [ancestors, List.pairwise_map, List.pairwise_reverse]
    refine List.pairwise_lt_range.imp_of_mem fun {i j} hi hj hij s hs s' hs' => ?_
    obtain ⟨hp, hn⟩ := spot_eq_some.mp hs
    obtain ⟨hp', hn'⟩ := spot_eq_some.mp hs'
    rw [List.mem_range] at hi hj
    rw [Spot.depth, Spot.depth, ht.depth _ _ hn, ht.depth _ _ hn', List.length_take,
      List.length_take]
    omega

end Climb

structure VisitsDown (t : Octree α β) (visit : Spot α β → Visit) (start : Path)
    (ss : List (Spot α β)) : Prop where
  walks : ∀ ss', Walks t visit [start] ss' ↔ ss' = ss
  reached : ∀ c, c ∈ ss ↔ ∃ s, t.spot? start = some s ∧ Reaches visit s c
  once : (ss.map Spot.path).Nodup
  ordered : (ss.map Spot.path).Pairwise (List.Shortlex Octant.Before)
  reported : t.walkDown start visit = ss.filter fun s => (visit s).matched

structure VisitsUp (t : Octree α β) (start : Path) (ss : List (Spot α β)) : Prop where
  climbs : (t.spot? start).isSome → Climbs t start ss
  above : ∀ c, c ∈ ss ↔
    (t.spot? start).isSome ∧ t.spot? c.path = some c ∧ c.path <+: start ∧ c.path ≠ start
  once : (ss.map Spot.path).Nodup
  nearestFirst : ss.Pairwise fun s s' => s'.depth < s.depth
  upToRoot : (t.spot? start).isSome → start ≠ [] → ss.getLast? = some ⟨[], t.root⟩
  reported : ∀ visit, t.walkUp start visit = ss.filter fun s => (visit s).matched

lemma visitsDown_visitedDown (ht : t.Linked) (start : Path) (visit : Spot α β → Visit) :
    t.VisitsDown visit start (t.visitedDown start visit) where
  walks ss' := by
    have hw := walks_visitedDown ht start visit
    constructor
    · exact fun h => h.eq hw
    · rintro rfl
      exact hw
  reached _ := mem_visitedDown ht
  once := nodup_visitedDown t start visit
  ordered := pairwise_visitedDown t start visit
  reported := rfl

lemma visitsUp_visitedUp (ht : t.Linked) (start : Path) :
    t.VisitsUp start (t.visitedUp start) where
  climbs hs := climbs_visitedUp ht (by simpa [spot?] using hs)
  above c := by
    cases hs : t.spot? start with
    | none => simp [visitedUp_of_none (by simpa [spot?] using hs : t.node? start = none)]
    | some s =>
      obtain ⟨rfl, -⟩ := spot_eq_some.mp hs
      simp [mem_visitedUp ht hs]
  once := nodup_visitedUp ht start
  nearestFirst := pairwise_visitedUp ht start
  upToRoot hs := ht.getLast_visitedUp (by simpa [spot?] using hs)
  reported _ := rfl

/-- After any insertions, taken or refused, the walk with a queue ends, from any start and for any
visitor, and so does the climb. -/
theorem walks_in_order [Scalar α] {b : Box α} {depth : ℕ} (hnew : Octree.new b depth = .ok t)
    (es : List (Entry α β)) (start : Path) (visit : Spot α β → Visit) :
    (t.offerAll es).VisitsDown visit start ((t.offerAll es).visitedDown start visit) ∧
      (t.offerAll es).VisitsUp start ((t.offerAll es).visitedUp start) := by
  have hg := (Grown.new hnew).offerAll es
  exact ⟨visitsDown_visitedDown hg.linked start visit, visitsUp_visitedUp hg.linked start⟩

theorem walks_in_order_crossing :
    ∃ t : Octree Float ℕ, Octree.new ⟨⟨0, 0, 0⟩, ⟨16, 16, 16⟩⟩ 3 = .ok t ∧
      (∃ ss, (t.offerAll crossing).VisitsDown
          (fun s => ⟨s.children.isEmpty, s.bounds.min.x < 8⟩) [] ss ∧
        ss.map Spot.path = [[], [.upperBackRight], [.lowerFrontLeft],
          [.lowerFrontLeft, .lowerFrontLeft]]) ∧
      ∃ ss, (t.offerAll crossing).VisitsUp [.lowerFrontLeft, .lowerFrontLeft] ss ∧
        ss.map Spot.path = [[.lowerFrontLeft], []] := by
  have hnew := new_of_usable (β := ℕ) (b := (⟨⟨0, 0, 0⟩, ⟨16, 16, 16⟩⟩ : Box Float))
    (by decide +kernel) (by decide +kernel) 3
  obtain ⟨hdown, -⟩ := walks_in_order hnew crossing []
    fun s => ⟨s.children.isEmpty, s.bounds.min.x < 8⟩
  obtain ⟨-, hup⟩ := walks_in_order hnew crossing [.lowerFrontLeft, .lowerFrontLeft] fun _ => .all
  exact ⟨_, hnew, ⟨_, hdown, by decide +kernel⟩, _, hup, by decide +kernel⟩

end SolidClash.Octree
