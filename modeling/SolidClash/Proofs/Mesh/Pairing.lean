import Mathlib.Data.List.Induction
import Mathlib.Data.List.Nodup
import SolidClash.Mesh.Watertight

/-! Only the half-edges along one edge meet each other, and of these at most one waits: a repeated
one is lost in it. -/

namespace SolidClash.Mesh

def along (e : HalfEdge) (es : List HalfEdge) : List HalfEdge :=
  es.filter fun d => d = e ∨ d = e.swap

/-- Runs of half-edges, each closed by one reverse. A collapsed half-edge is its own reverse, so its
runs are single. -/
inductive Settled : List HalfEdge → Prop
  | nil : Settled []
  | run {d : HalfEdge} {k : ℕ} {l : List HalfEdge} : (d.swap = d → k = 0) → Settled l →
      Settled (List.replicate (k + 1) d ++ d.swap :: l)

def waiting : Option HalfEdge → HalfEdge → Option HalfEdge
  | none, e => some e
  | some d, e => if e = d.swap then none else some d

lemma mem_along {d e : HalfEdge} {es : List HalfEdge} :
    d ∈ along e es ↔ d ∈ es ∧ (d = e ∨ d = e.swap) := by
  simp [along]

lemma mem_of_waiting {l : List HalfEdge} {d : HalfEdge} (h : l.foldl waiting none = some d) :
    d ∈ l := by
  induction l using List.reverseRecOn generalizing d with
  | nil => simp at h
  | append_singleton l e ih =>
    rw [List.foldl_append, List.foldl_cons, List.foldl_nil] at h
    cases hl : l.foldl waiting none with
    | none => simp_all [waiting]
    | some c =>
      rw [hl, waiting] at h
      split at h
      · simp at h
      · obtain rfl := Option.some.inj h
        exact List.mem_append_left _ (ih hl)

lemma mem_pairUp {w : Std.HashSet HalfEdge} {d e : HalfEdge} :
    d ∈ pairUp w e ↔
      (e.swap ∈ w ∧ d ∈ w ∧ d ≠ e.swap) ∨ (e.swap ∉ w ∧ (d ∈ w ∨ d = e)) := by
  simp only [pairUp, Std.HashSet.contains_iff_mem]
  split
  · rename_i h
    simp only [h, Std.HashSet.mem_erase, true_and, not_true_eq_false, false_and, or_false,
      beq_eq_false_iff_ne]
    exact and_comm.trans (and_congr_right fun _ => ne_comm)
  · rename_i h
    simp only [h, Std.HashSet.mem_insert, beq_iff_eq, false_and, not_false_eq_true, true_and,
      false_or]
    exact or_comm.trans (or_congr_right eq_comm)

lemma mem_foldl_pairUp (es : List HalfEdge) {d e : HalfEdge} (hd : d = e ∨ d = e.swap) :
    d ∈ es.foldl pairUp ∅ ↔ (along e es).foldl waiting none = some d := by
  induction es using List.reverseRecOn generalizing d with
  | nil => simp [along]
  | append_singleton es x ih =>
    have hsplit : along e (es ++ [x]) = along e es ++ along e [x] := List.filter_append ..
    rw [List.foldl_append, hsplit, List.foldl_append, List.foldl_cons, List.foldl_nil, mem_pairUp]
    by_cases hx : x = e ∨ x = e.swap
    · have hone : along e [x] = [x] := by simp [along, hx]
      have hswap : x.swap = e ∨ x.swap = e.swap := by
        rcases hx with rfl | rfl
        · exact Or.inr rfl
        · exact Or.inl (Prod.swap_swap e)
      rw [hone, List.foldl_cons, List.foldl_nil, ih hd, ih hswap]
      cases hw : (along e es).foldl waiting none with
      | none => simp [waiting, eq_comm]
      | some f =>
        have hf := (mem_along.mp (mem_of_waiting hw)).2
        by_cases hxf : x = f.swap
        · subst hxf
          simp only [waiting, Prod.swap_swap, ↓reduceIte, Option.some.injEq, true_and,
            not_true_eq_false, false_and, or_false, reduceCtorEq, iff_false, not_and, not_not]
          exact Eq.symm
        · -- a half-edge that meets no reverse here meets itself
          have heq : x = f := by
            rcases hx with rfl | rfl <;> rcases hf with rfl | rfl <;> simp_all
          subst heq
          have hne : ¬ x = x.swap := hxf
          simp [waiting, hne, eq_comm]
    · have hnone : along e [x] = [] := by simp [along, hx]
      have hdx : d ≠ x ∧ d ≠ x.swap := by
        rw [not_or] at hx
        constructor
        · rintro rfl
          exact hd.elim hx.1 hx.2
        · rintro rfl
          rcases hd with hd | hd
          · exact hx.2 (by rw [← hd, Prod.swap_swap])
          · exact hx.1 (Prod.swap_inj.mp hd)
      rw [hnone, List.foldl_nil, ← ih hd]
      by_cases h : x.swap ∈ es.foldl pairUp ∅
      · simp [h, hdx]
      · simp [h, hdx]

lemma foldl_waiting_some {d : HalfEdge} {l : List HalfEdge} (hl : ∀ x ∈ l, x = d ∨ x = d.swap) :
    l.foldl waiting (some d) = none ↔ ∃ k r, l = List.replicate k d ++ d.swap :: r ∧
      (d.swap = d → k = 0) ∧ r.foldl waiting none = none := by
  induction l with
  | nil => simp
  | cons x l ih =>
    obtain ⟨hx, hl⟩ := List.forall_mem_cons.mp hl
    by_cases hxd : x = d.swap
    · subst hxd
      simp only [List.foldl_cons, waiting, ↓reduceIte]
      constructor
      · intro h
        exact ⟨0, l, rfl, fun _ => rfl, h⟩
      · rintro ⟨k, r, hk, hself, hr⟩
        have hzero : k = 0 := by
          cases k with
          | zero => rfl
          | succ k => exact hself (List.cons.inj hk).1
        subst hzero
        rw [(List.cons.inj hk).2]
        exact hr
    · have hxd' := hx.resolve_right hxd
      subst hxd'
      simp only [List.foldl_cons, waiting, hxd, ↓reduceIte, ih hl]
      constructor
      · rintro ⟨k, r, rfl, hself, hr⟩
        exact ⟨k + 1, r, rfl, fun h => (hxd h.symm).elim, hr⟩
      · rintro ⟨k, r, hk, hself, hr⟩
        cases k with
        | zero => exact (hxd (List.cons.inj hk).1).elim
        | succ k => exact ⟨k, r, (List.cons.inj hk).2, fun h => (hxd h.symm).elim, hr⟩

lemma foldl_waiting_replicate {d : HalfEdge} {k : ℕ} (h : d.swap = d → k = 0) :
    (List.replicate k d).foldl waiting (some d) = some d := by
  induction k with
  | zero => rfl
  | succ k ih =>
    have hd : d.swap ≠ d := fun hd => Nat.succ_ne_zero k (h hd)
    rw [List.replicate_succ, List.foldl_cons, waiting, if_neg hd.symm]
    exact ih fun hd' => (hd hd').elim

lemma settled_iff {e : HalfEdge} {l : List HalfEdge} (hl : ∀ x ∈ l, x = e ∨ x = e.swap) :
    l.foldl waiting none = none ↔ Settled l := by
  constructor
  · intro h
    -- the first run and its reverse are taken off at once
    induction hn : l.length using Nat.strongRecOn generalizing l with
    | _ n ih =>
      cases l with
      | nil => exact .nil
      | cons d l =>
        have hd : ∀ x ∈ l, x = d ∨ x = d.swap := by
          intro x hx
          have hx := hl x (List.mem_cons_of_mem _ hx)
          rcases hl d List.mem_cons_self with rfl | rfl
          · exact hx
          · simpa using hx.symm
        obtain ⟨k, r, rfl, hself, hr⟩ := (foldl_waiting_some hd).mp h
        refine .run hself (ih r.length ?_ (fun x hx => hl x (by simp [hx])) hr rfl)
        simp only [← hn, List.length_cons, List.length_append]
        omega
  · intro h
    clear hl
    induction h with
    | nil => rfl
    | @run d k l hself _ ih =>
      rw [List.replicate_succ, List.cons_append, List.foldl_cons, waiting, List.foldl_append,
        foldl_waiting_replicate hself, List.foldl_cons, waiting, if_pos rfl]
      exact ih

lemma isEmpty_foldl_pairUp (es : List HalfEdge) :
    (es.foldl pairUp ∅).isEmpty = true ↔ ∀ e ∈ es, Settled (along e es) := by
  rw [Std.HashSet.isEmpty_iff_forall_not_mem]
  constructor
  · intro h e _
    apply (settled_iff fun x hx => (mem_along.mp hx).2).mp
    cases hw : (along e es).foldl waiting none with
    | none => rfl
    | some d => exact (h d ((mem_foldl_pairUp es (mem_along.mp (mem_of_waiting hw)).2).mpr hw)).elim
  · intro h d hd
    have hw := (mem_foldl_pairUp es (Or.inl rfl)).mp hd
    have hs := h d (mem_along.mp (mem_of_waiting hw)).1
    rw [← settled_iff fun x hx => (mem_along.mp hx).2, hw] at hs
    simp at hs

lemma Settled.swap_mem {l : List HalfEdge} (h : Settled l) (hn : l.Nodup) :
    ∀ e ∈ l, e.swap ≠ e ∧ e.swap ∈ l := by
  induction h with
  | nil => simp
  | @run d k l _ _ ih =>
    obtain ⟨_, hn', hdis⟩ := List.nodup_append.mp hn
    have hd : d ∈ List.replicate (k + 1) d := by simp
    have hne : d.swap ≠ d := fun h => hdis d hd d.swap List.mem_cons_self h.symm
    intro e he
    rw [List.mem_append, List.mem_cons] at he ⊢
    rcases he with he | rfl | he
    · obtain rfl := List.eq_of_mem_replicate he
      exact ⟨hne, Or.inr (Or.inl rfl)⟩
    · rw [Prod.swap_swap]
      exact ⟨hne.symm, Or.inl hd⟩
    · exact ⟨(ih hn'.of_cons e he).1, Or.inr (Or.inr (ih hn'.of_cons e he).2)⟩

lemma settled_of_nodup {e : HalfEdge} {l : List HalfEdge} (hn : l.Nodup) (hne : e.swap ≠ e)
    (hl : ∀ x, x ∈ l ↔ x = e ∨ x = e.swap) : Settled l := by
  have hpair : [e, e.swap].Nodup := by simpa using hne.symm
  have hperm : l.Perm [e, e.swap] := (List.perm_ext_iff_of_nodup hn hpair).mpr (by simpa using hl)
  obtain ⟨a, b, rfl⟩ := List.length_eq_two.mp hperm.length_eq
  have hab : a ≠ b := by simpa using hn
  have hb : b = a.swap := by
    rcases (hl a).mp (by simp) with rfl | rfl <;> rcases (hl b).mp (by simp) with rfl | rfl <;>
      simp_all
  subst hb
  exact .run (k := 0) (fun _ => rfl) .nil

lemma isEmpty_foldl_pairUp_of_nodup {es : List HalfEdge} (hes : es.Nodup) :
    (es.foldl pairUp ∅).isEmpty = true ↔ ∀ e ∈ es, e.swap ≠ e ∧ e.swap ∈ es := by
  rw [isEmpty_foldl_pairUp]
  apply forall₂_congr
  intro e he
  have hn : (along e es).Nodup := hes.filter _
  constructor
  · intro h
    obtain ⟨hne, hs⟩ := h.swap_mem hn e (mem_along.mpr ⟨he, Or.inl rfl⟩)
    exact ⟨hne, (mem_along.mp hs).1⟩
  · rintro ⟨hne, hs⟩
    apply settled_of_nodup hn hne
    intro x
    rw [mem_along]
    constructor
    · exact And.right
    · rintro (rfl | rfl)
      · exact ⟨he, Or.inl rfl⟩
      · exact ⟨hs, Or.inr rfl⟩

end SolidClash.Mesh
