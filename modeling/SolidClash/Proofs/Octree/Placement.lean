import Mathlib.Data.List.Perm.Basic
import SolidClash.Octree.Walk
import SolidClash.Proofs.Octree.Region

/-! In a tree that grew by insertion every node has the place of its path, and every value lies at
the end of its own path. -/

namespace SolidClash.Octree

variable {α β : Type}

namespace Node

@[simp] lemma at_nil (n : Node α β) : n.at? [] = some n := rfl

lemma at_cons (n : Node α β) (o : Octant) (p : Path) :
    n.at? (o :: p) = (n.child? o).bind fun c => c.at? p := rfl

@[simp] lemma at_singleton (n : Node α β) (o : Octant) : n.at? [o] = n.child? o := by
  rw [at_cons]
  cases n.child? o <;> rfl

lemma at_append (n : Node α β) (p q : Path) :
    n.at? (p ++ q) = (n.at? p).bind fun c => c.at? q := by
  induction p generalizing n with
  | nil => rfl
  | cons o p ih => simp only [List.cons_append, at_cons, Option.bind_assoc, ih]

@[simp] lemma child_bare (pl : Place α) (o : Octant) : (bare pl : Node α β).child? o = none := by
  simp [bare, child?, children]

def contents : ℕ → Node α β → List (Entry α β)
  | 0, n => n.entries.toList
  | d + 1, n => n.entries.toList ++ Octant.all.flatMap fun o => (n.child? o).elim [] (contents d)

lemma contents_bare (d : ℕ) (pl : Place α) : contents d (bare pl : Node α β) = [] := by
  cases d <;> simp [contents, bare, entries, child?, children]

lemma flatMap_perm_cons {γ δ : Type} {l : List γ} {f g : γ → List δ} {c : γ} {x : δ}
    (hl : l.Nodup) (hc : c ∈ l) (hx : (g c).Perm (x :: f c)) (hg : ∀ y ≠ c, g y = f y) :
    (l.flatMap g).Perm (x :: l.flatMap f) := by
  induction l with
  | nil => simp at hc
  | cons y l ih =>
    obtain ⟨hy, hl⟩ := List.nodup_cons.mp hl
    simp only [List.flatMap_cons]
    rcases List.mem_cons.mp hc with rfl | hc
    · have hrest : l.flatMap g = l.flatMap f :=
        List.flatMap_congr fun z hz => hg z fun h => hy (h ▸ hz)
      rw [hrest]
      exact hx.append_right _
    · rw [hg y fun h => hy (h ▸ hc)]
      exact ((ih hl hc).append_left _).trans List.perm_middle

end Node

variable [Scalar α]

lemma descent_succ_eq_cons {v b : Box α} {d : ℕ} {o : Octant} {p : Path} :
    descent v (d + 1) b = o :: p ↔
      Octant.holding? b.center v = some o ∧ descent v d (o.part b b.center) = p := by
  simp only [descent]
  cases Octant.holding? b.center v with
  | none => simp
  | some o' =>
    simp only [List.cons.injEq, Option.some.injEq]
    constructor
    · rintro ⟨rfl, h⟩
      exact ⟨rfl, h⟩
    · rintro ⟨rfl, h⟩
      exact ⟨rfl, h⟩

namespace Place

def below (pl : Place α) (p : Path) : Place α := p.foldl child pl

variable (pl : Place α) (o : Octant) (p : Path)

@[simp] lemma below_nil : pl.below [] = pl := rfl

@[simp] lemma below_cons : pl.below (o :: p) = (pl.child o).below p := rfl

lemma below_append : pl.below (p ++ [o]) = (pl.below p).child o := by
  simp only [below, List.foldl_append, List.foldl_cons, List.foldl_nil]

@[simp] lemma key_below : (pl.below p).key = pl.key ++ p := by
  induction p generalizing pl with
  | nil => simp
  | cons o p ih => simp [ih, child]

@[simp] lemma depth_below : (pl.below p).depth = pl.depth + p.length := by
  induction p generalizing pl with
  | nil => rfl
  | cons o p ih =>
    rw [below_cons, ih, List.length_cons]
    simp only [child]
    omega

@[simp] lemma bounds_below : (pl.below p).bounds = region pl.bounds p := by
  induction p generalizing pl with
  | nil => rfl
  | cons o p ih => exact ih (pl.child o)

lemma parent_below : (pl.below (p ++ [o])).parent = some (pl.key ++ p) := by
  rw [below_append, child, key_below]

end Place

namespace Node

def store (e : Entry α β) : Path → Node α β → Node α β
  | [], mk pl es cs => mk pl (es.push e) cs
  | o :: p, mk pl es cs =>
    mk pl es (cs.set (some (store e p ((cs.get o).getD (bare (pl.child o))))) o)

/-- All nodes below `n`, which stands at `pl`, stand where they belong, and so do their values, which
all satisfy `H`. -/
def Placed (H : Entry α β → Prop) (d : ℕ) (pl : Place α) (n : Node α β) : Prop :=
  ∀ p m, n.at? p = some m →
    p.length ≤ d ∧ m.place = pl.below p ∧ ∀ e ∈ m.entries, H e ∧ descent e.bounds d pl.bounds = p

variable {H : Entry α β → Prop} {d : ℕ} {pl : Place α} {n : Node α β}

lemma placed_iff :
    Placed H d pl n ↔
      n.place = pl ∧ (∀ e ∈ n.entries, H e ∧ descent e.bounds d pl.bounds = []) ∧
      ∀ o c, n.child? o = some c → ∃ d', d = d' + 1 ∧
        Placed (fun e => H e ∧ Octant.holding? pl.mid e.bounds = some o) d' (pl.child o) c := by
  constructor
  · intro h
    obtain ⟨_, hpl, he⟩ := h [] n rfl
    refine ⟨hpl, he, fun o c hc => ?_⟩
    have hlen : 1 ≤ d := (h [o] c (by simp [at_cons, hc])).1
    obtain ⟨d', rfl⟩ : ∃ d', d = d' + 1 := ⟨d - 1, by omega⟩
    refine ⟨d', rfl, fun p m hm => ?_⟩
    obtain ⟨hl, hpl, he⟩ := h (o :: p) m (by simp [at_cons, hc, hm])
    refine ⟨by simpa using hl, hpl, fun e hme => ?_⟩
    obtain ⟨hH, hd⟩ := he e hme
    obtain ⟨ho, hd⟩ := descent_succ_eq_cons.mp hd
    exact ⟨⟨hH, ho⟩, hd⟩
  · rintro ⟨hpl, he, hc⟩ p m hm
    cases p with
    | nil =>
      obtain rfl := Option.some.inj hm
      exact ⟨Nat.zero_le _, hpl, he⟩
    | cons o p =>
      obtain ⟨c, ho, hm⟩ := Option.bind_eq_some_iff.mp hm
      obtain ⟨d', rfl, hp⟩ := hc o c ho
      obtain ⟨hl, hpl, he⟩ := hp p m hm
      refine ⟨by simpa using hl, hpl, fun e hme => ?_⟩
      obtain ⟨⟨hH, ho⟩, hd⟩ := he e hme
      exact ⟨hH, descent_succ_eq_cons.mpr ⟨ho, hd⟩⟩

lemma placed_bare (H : Entry α β → Prop) (d : ℕ) (pl : Place α) : Placed H d pl (bare pl) := by
  refine placed_iff.mpr ⟨rfl, ?_, fun o c hc => ?_⟩
  · simp [bare, entries]
  · simp at hc

lemma Placed.child {es : Array (Entry α β)} {cs : Octants (Option (Node α β))}
    (h : Placed H (d + 1) pl (mk pl es cs)) (o : Octant) :
    Placed (fun e => H e ∧ Octant.holding? pl.mid e.bounds = some o) d (pl.child o)
      ((cs.get o).getD (bare (pl.child o))) := by
  obtain ⟨_, _, hcs⟩ := placed_iff.mp h
  cases hg : cs.get o with
  | none => exact placed_bare _ _ _
  | some c =>
    obtain ⟨d', hd', hp⟩ := hcs o c hg
    obtain rfl := Nat.succ.inj hd'
    exact hp

lemma Placed.push {es : Array (Entry α β)} {cs : Octants (Option (Node α β))}
    (h : Placed H d pl (mk pl es cs)) {e : Entry α β} (he : H e)
    (hd : descent e.bounds d pl.bounds = []) : Placed H d pl (mk pl (es.push e) cs) := by
  obtain ⟨_, hes, hcs⟩ := placed_iff.mp h
  refine placed_iff.mpr ⟨rfl, fun e' he' => ?_, hcs⟩
  rcases Array.mem_push.mp he' with h' | rfl
  · exact hes e' h'
  · exact ⟨he, hd⟩

lemma Placed.store {e : Entry α β} (h : Placed H d pl n) (he : H e) :
    Placed H d pl (n.store e (descent e.bounds d pl.bounds)) := by
  -- below an octant the values satisfy more than `H`: they are held by that octant
  induction d generalizing pl n H with
  | zero =>
    obtain ⟨pl', es, cs⟩ := n
    obtain rfl : pl' = pl := (placed_iff.mp h).1
    exact h.push he rfl
  | succ d ih =>
    obtain ⟨pl', es, cs⟩ := n
    obtain ⟨hpl, hes, hcs⟩ := placed_iff.mp h
    obtain rfl : pl' = pl := hpl
    cases ho : Octant.holding? pl'.mid e.bounds with
    | none =>
      have hd : descent e.bounds (d + 1) pl'.bounds = [] := by
        rw [Place.mid] at ho
        simp [descent, ho]
      rw [hd]
      exact h.push he hd
    | some o =>
      have hd := descent_succ_eq_cons (d := d).mpr ⟨ho, rfl⟩
      rw [hd]
      refine placed_iff.mpr ⟨rfl, hes, fun p c hc => ?_⟩
      simp only [Node.store, child?, children, Octants.get_set] at hc
      split at hc
      · rename_i hp
        subst hp
        obtain rfl := Option.some.inj hc
        exact ⟨d, rfl, ih (h.child p) ⟨he, ho⟩⟩
      · exact hcs p c hc

lemma Placed.insert_eq {maxDepth : ℕ} (h : Placed H d pl n) (hd : pl.depth + d = maxDepth)
    (e : Entry α β) :
    n.insert maxDepth e d =
      (pl.key ++ descent e.bounds d pl.bounds, n.store e (descent e.bounds d pl.bounds)) := by
  induction d generalizing pl n H with
  | zero =>
    obtain ⟨pl', es, cs⟩ := n
    obtain rfl : pl' = pl := (placed_iff.mp h).1
    simp [Node.insert, descent, Node.store]
  | succ d ih =>
    obtain ⟨pl', es, cs⟩ := n
    obtain rfl : pl' = pl := (placed_iff.mp h).1
    have hturn : pl'.turn? maxDepth e.bounds = Octant.holding? pl'.mid e.bounds :=
      if_neg (by omega)
    rw [Node.insert, hturn, descent]
    simp only [Place.mid]
    cases Octant.holding? pl'.bounds.center e.bounds with
    | none => simp [Node.store]
    | some o =>
      have hchild := ih (h.child o) (by simp only [Place.child]; omega)
      simp only [hchild, Node.store]
      simp [Place.child, Place.mid]

lemma contents_store (e : Entry α β) {d : ℕ} {p : Path} (n : Node α β) (hp : p.length ≤ d) :
    (contents d (n.store e p)).Perm (e :: contents d n) := by
  induction p generalizing d n with
  | nil =>
    cases n with
    | mk pl es cs =>
      cases d with
      | zero => simp [contents, Node.store, entries]
      | succ d =>
        simp only [contents, Node.store, entries, Array.toList_push, child?, children]
        exact (List.perm_append_singleton e es.toList).append_right _
  | cons o p ih =>
    cases d with
    | zero => simp at hp
    | succ d =>
      cases n with
      | mk pl es cs =>
        simp only [contents, Node.store, entries, child?, children, Octants.get_set]
        refine ((flatMap_perm_cons Octant.nodup_all (Octant.mem_all o) (x := e) ?_ ?_).append_left
          _).trans List.perm_middle
        · simp only [↓reduceIte, Option.elim_some]
          apply (ih _ (by simpa using hp)).trans
          cases cs.get o with
          | none => simp [contents_bare]
          | some c => simp
        · intro q hq
          simp [hq]

end Node

end SolidClash.Octree
