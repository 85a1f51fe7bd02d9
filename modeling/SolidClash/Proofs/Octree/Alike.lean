import Mathlib.Data.List.Forall2
import SolidClash.Proofs.Octree.Placement

/-! Octrees look at boxes only: trees into which boxes are put in the same order have the same
shape. -/

namespace SolidClash.Octree

open List (Forall₂)

variable {α β γ : Type} (R : β → γ → Prop)

def Entry.Alike (e : Entry α β) (e' : Entry α γ) : Prop :=
  e.bounds = e'.bounds ∧ R e.value e'.value

namespace Node

def Related (S : Node α β → Node α γ → Prop) (n : Node α β) (n' : Node α γ) : Prop :=
  ∀ p, Option.Rel S (n.at? p) (n'.at? p)

def Alike (n : Node α β) (n' : Node α γ) : Prop :=
  ∀ p, Option.Rel (fun m m' => m.place = m'.place ∧
    Forall₂ (Entry.Alike R) m.entries.toList m'.entries.toList) (n.at? p) (n'.at? p)

variable {R} {S : Node α β → Node α γ → Prop} {n : Node α β} {n' : Node α γ}

lemma Related.root (h : n.Related S n') : S n n' := by
  obtain ⟨h⟩ := h []
  exact h

lemma Related.below (h : n.Related S n') (p : Path) :
    Option.Rel (Related S) (n.at? p) (n'.at? p) := by
  have hp := h p
  have hbelow := fun q => h (p ++ q)
  simp only [at_append] at hbelow
  generalize n.at? p = m, n'.at? p = m' at hp hbelow
  cases hp with
  | none => exact .none
  | some _ => exact .some hbelow

lemma Related.child (h : n.Related S n') (o : Octant) :
    Option.Rel (Related S) (n.child? o) (n'.child? o) := by
  simpa only [at_singleton] using h.below [o]

lemma Alike.root (h : n.Alike R n') :
    n.place = n'.place ∧ Forall₂ (Entry.Alike R) n.entries.toList n'.entries.toList :=
  Related.root h

lemma Alike.child (h : n.Alike R n') (o : Octant) :
    Option.Rel (Alike R) (n.child? o) (n'.child? o) := Related.child h o

lemma alike_bare (pl : Place α) : (bare pl : Node α β).Alike R (bare pl : Node α γ) := by
  intro p
  cases p with
  | nil => exact .some ⟨rfl, .nil⟩
  | cons o p => simp [at?, bare, child?, children]

lemma Alike.push {pl pl' : Place α} {es : Array (Entry α β)} {es' : Array (Entry α γ)}
    {cs : Octants (Option (Node α β))} {cs' : Octants (Option (Node α γ))}
    (h : (mk pl es cs).Alike R (mk pl' es' cs')) {e : Entry α β} {e' : Entry α γ}
    (he : e.Alike R e') : (mk pl (es.push e) cs).Alike R (mk pl' (es'.push e') cs') := by
  obtain ⟨hpl, hes⟩ := h.root
  intro p
  cases p with
  | nil =>
    refine .some ⟨hpl, ?_⟩
    simpa [entries] using List.rel_append hes (.cons he .nil)
  | cons o p => exact h (o :: p)

lemma Alike.insert [Scalar α] (h : n.Alike R n') {e : Entry α β} {e' : Entry α γ}
    (he : e.Alike R e') (maxDepth levels : ℕ) :
    (n.insert maxDepth e levels).1 = (n'.insert maxDepth e' levels).1 ∧
      (n.insert maxDepth e levels).2.Alike R (n'.insert maxDepth e' levels).2 := by
  induction levels generalizing n n' with
  | zero =>
    obtain ⟨pl, es, cs⟩ := n
    obtain ⟨pl', es', cs'⟩ := n'
    obtain rfl : pl = pl' := h.root.1
    exact ⟨rfl, h.push he⟩
  | succ levels ih =>
    obtain ⟨pl, es, cs⟩ := n
    obtain ⟨pl', es', cs'⟩ := n'
    obtain rfl : pl = pl' := h.root.1
    rw [Node.insert, Node.insert, ← he.1]
    cases pl.turn? maxDepth e.bounds with
    | none => exact ⟨rfl, h.push he⟩
    | some o =>
      have hchild : ((cs.get o).getD (bare (pl.child o))).Alike R
          ((cs'.get o).getD (bare (pl.child o))) := by
        have hc : Option.Rel (Alike R) (cs.get o) (cs'.get o) := h.child o
        generalize cs.get o = c, cs'.get o = c' at hc
        cases hc with
        | none => exact alike_bare _
        | some hc => exact hc
      obtain ⟨hkey, hnode⟩ := ih hchild
      refine ⟨hkey, fun p => ?_⟩
      cases p with
      | nil => exact .some h.root
      | cons o' p =>
        simp only [at?, child?, children, Octants.get_set]
        by_cases ho : o' = o
        · simpa [ho] using hnode p
        · simpa [ho, at?, child?, children] using h (o' :: p)

end Node

section Related

variable {S : Node α β → Node α γ → Prop}

def Spot.Related (S : Node α β → Node α γ → Prop) (m : Spot α β) (m' : Spot α γ) : Prop :=
  m.path = m'.path ∧ m.node.Related S m'.node

lemma Spot.Related.children {m : Spot α β} {m' : Spot α γ} (h : m.Related S m') :
    Forall₂ (Spot.Related S) m.children m'.children := by
  refine List.rel_filterMap (R := Eq) (fun o o' ho => ?_) (List.forall₂_same.mpr fun _ _ => rfl)
  subst ho
  have hc := h.2.child o
  generalize m.node.child? o = c, m'.node.child? o = c' at hc
  cases hc with
  | none => exact .none
  | some hc => exact .some ⟨by rw [h.1], hc⟩

lemma related_paths {l : List (Spot α β)} {l' : List (Spot α γ)}
    (h : Forall₂ (Spot.Related S) l l') : l.map Spot.path = l'.map Spot.path := by
  rw [← List.forall₂_eq_eq_eq, List.forall₂_map_left_iff, List.forall₂_map_right_iff]
  exact h.imp fun _ _ hs => hs.1

variable {visit : Spot α β → Visit} {visit' : Spot α γ → Visit}

lemma related_descendLevels (hv : ∀ m m', m.Related S m' → visit m = visit' m') (levels : ℕ)
    {l : List (Spot α β)} {l' : List (Spot α γ)} (h : Forall₂ (Spot.Related S) l l') :
    Forall₂ (Spot.Related S) (descendLevels visit levels l) (descendLevels visit' levels l') := by
  induction levels generalizing l l' with
  | zero => simp [descendLevels]
  | succ levels ih =>
    cases h with
    | nil => simp [descendLevels]
    | cons hm hl =>
      have h := Forall₂.cons hm hl
      rw [descendLevels, descendLevels]
      · refine List.rel_append h (ih (List.rel_flatMap (List.rel_filter ?_ h) ?_))
        · intro m m' hm
          simp [hv m m' hm]
        · exact fun m m' hm => hm.children
      · simp
      · simp

variable {t : Octree α β} {t' : Octree α γ}

lemma related_spot (h : t.root.Related S t'.root) (p : Path) :
    Option.Rel (Spot.Related S) (t.spot? p) (t'.spot? p) := by
  have hn := h.below p
  rw [spot?, spot?, node?, node?]
  generalize t.root.at? p = n, t'.root.at? p = n' at hn
  cases hn with
  | none => exact .none
  | some hn => exact .some ⟨rfl, hn⟩

lemma related_climb (h : t.root.Related S t'.root) (hS : ∀ n n', S n n' → n.parent = n'.parent)
    (levels : ℕ) (next : Option Path) :
    Forall₂ (Spot.Related S) (t.climb levels next) (t'.climb levels next) := by
  induction levels generalizing next with
  | zero => exact .nil
  | succ levels ih =>
    cases next with
    | none => exact .nil
    | some key =>
      have hs := related_spot h key
      rw [climb, climb]
      generalize t.spot? key = m, t'.spot? key = m' at hs
      cases hs with
      | none => exact .nil
      | some hs => exact .cons hs (hS _ _ hs.2.root ▸ ih _)

lemma related_visitedUp (h : t.root.Related S t'.root) (hd : t.maxDepth = t'.maxDepth)
    (hS : ∀ n n', S n n' → n.parent = n'.parent) (p : Path) :
    Forall₂ (Spot.Related S) (t.visitedUp p) (t'.visitedUp p) := by
  have hnext : (t.node? p).bind Node.parent = (t'.node? p).bind Node.parent := by
    have hn := h p
    rw [node?, node?]
    generalize t.root.at? p = n, t'.root.at? p = n' at hn
    cases hn with
    | none => rfl
    | some hn => exact hS _ _ hn
  rw [visitedUp, visitedUp, hnext, hd]
  exact related_climb h hS _ _

lemma related_visitedDown (h : t.root.Related S t'.root) (hd : t.maxDepth = t'.maxDepth)
    (hv : ∀ m m', m.Related S m' → visit m = visit' m') (p : Path) :
    Forall₂ (Spot.Related S) (t.visitedDown p visit) (t'.visitedDown p visit') := by
  rw [visitedDown, visitedDown, hd]
  apply related_descendLevels hv
  have hs := related_spot h p
  generalize t.spot? p = m, t'.spot? p = m' at hs
  cases hs with
  | none => exact .nil
  | some hs => exact .cons hs .nil

lemma related_filter {l : List (Spot α β)} {l' : List (Spot α γ)}
    (hv : ∀ m m', m.Related S m' → visit m = visit' m') (h : Forall₂ (Spot.Related S) l l') :
    Forall₂ (Spot.Related S) (l.filter fun m => (visit m).matched)
      (l'.filter fun m' => (visit' m').matched) := by
  refine List.rel_filter ?_ h
  intro m m' hm
  simp only [hv m m' hm]

lemma related_walkDown (h : t.root.Related S t'.root) (hd : t.maxDepth = t'.maxDepth)
    (hv : ∀ m m', m.Related S m' → visit m = visit' m') (p : Path) :
    Forall₂ (Spot.Related S) (t.walkDown p visit) (t'.walkDown p visit') :=
  related_filter hv (related_visitedDown h hd hv p)

lemma related_walkUpDown (h : t.root.Related S t'.root) (hd : t.maxDepth = t'.maxDepth)
    (hS : ∀ n n', S n n' → n.parent = n'.parent)
    (hv : ∀ m m', m.Related S m' → visit m = visit' m') (p : Path) :
    Forall₂ (Spot.Related S) (t.walkUpDown p visit) (t'.walkUpDown p visit') :=
  List.rel_append (related_filter hv (related_visitedUp h hd hS p)) (related_walkDown h hd hv p)

end Related

variable {R}

def Spot.Alike (R : β → γ → Prop) (m : Spot α β) (m' : Spot α γ) : Prop :=
  m.path = m'.path ∧ m.node.Alike R m'.node

lemma Spot.Alike.bounds {m : Spot α β} {m' : Spot α γ} (h : m.Alike R m') :
    m.bounds = m'.bounds := congrArg Place.bounds h.2.root.1

lemma Spot.Alike.entries {m : Spot α β} {m' : Spot α γ} (h : m.Alike R m') :
    Forall₂ (Entry.Alike R) m.entries m'.entries := h.2.root.2

structure Alike (R : β → γ → Prop) (t : Octree α β) (t' : Octree α γ) : Prop where
  root : t.root.Alike R t'.root
  maxDepth : t.maxDepth = t'.maxDepth

variable {t : Octree α β} {t' : Octree α γ} {visit : Spot α β → Visit} {visit' : Spot α γ → Visit}

lemma Alike.visitedDown (h : t.Alike R t') (hv : ∀ m m', m.Alike R m' → visit m = visit' m')
    (p : Path) : Forall₂ (Spot.Alike R) (t.visitedDown p visit) (t'.visitedDown p visit') :=
  related_visitedDown h.root h.maxDepth hv p

lemma Alike.walkUpDown (h : t.Alike R t') (hv : ∀ m m', m.Alike R m' → visit m = visit' m')
    (p : Path) : Forall₂ (Spot.Alike R) (t.walkUpDown p visit) (t'.walkUpDown p visit') :=
  related_walkUpDown h.root h.maxDepth (fun _ _ hs => congrArg Place.parent hs.1) hv p

lemma Alike.entries (h : t.Alike R t') :
    Forall₂ (fun e e' => e.1.Alike R e'.1 ∧ e.2.Alike R e'.2) t.entries t'.entries := by
  refine List.rel_flatMap (h.visitedDown (fun _ _ _ => rfl) []) fun m m' hm => ?_
  exact List.rel_map (fun e e' he => ⟨hm, he⟩) hm.entries

lemma Alike.insertAll [Scalar α] (h : t.Alike R t') {es : List (Entry α β)}
    {es' : List (Entry α γ)} (hes : Forall₂ (Entry.Alike R) es es') :
    (∃ u u', t.insertAll es = .ok u ∧ t'.insertAll es' = .ok u' ∧ u.Alike R u') ∨
      ∃ e, t.insertAll es = .error e ∧ t'.insertAll es' = .error e := by
  induction hes generalizing t t' with
  | nil => exact Or.inl ⟨t, t', rfl, rfl, h⟩
  | @cons e e' es es' he hes ih =>
    have hbounds : t.bounds = t'.bounds := congrArg Place.bounds h.root.root.1
    rw [Octree.insertAll, Octree.insertAll, Octree.insert, Octree.insert, ← hbounds, ← h.maxDepth,
      ← he.1]
    by_cases hf : t.bounds.Fits e.bounds
    · have hstored : Entry.Alike R ⟨e.bounds, e.value⟩ (⟨e.bounds, e'.value⟩ : Entry α γ) :=
        ⟨rfl, he.2⟩
      simp only [hf, if_true]
      exact ih ⟨(h.root.insert hstored _ _).2, rfl⟩
    · simp [hf]

end SolidClash.Octree
