import Mathlib.Data.Sym.Sym2
import SolidClash.Rules.TypeFilter

/-! The type filter in terms of names. Numbers stand for names throughout: whether two objects are
compared depends on their ids and on the names of their types only, and not on their order. -/

namespace SolidClash.TypeFilter

lemma ordered_comm (a b : TypeId) : ordered a b = ordered b a := by
  unfold ordered
  rcases Nat.lt_trichotomy a b with h | rfl | h
  · simp [Nat.le_of_lt h, Nat.not_le_of_gt h]
  · rfl
  · simp [Nat.le_of_lt h, Nat.not_le_of_gt h]

lemma ordered_eq_ordered {a b c d : TypeId} :
    ordered a b = ordered c d ↔ s(a, b) = s(c, d) := by
  rw [Sym2.eq_iff]
  unfold ordered
  grind

lemma listed_comm (pairs : Std.HashSet (TypeId × TypeId)) (a b : TypeId) :
    listed pairs a b = listed pairs b a := by
  rw [listed, listed, ordered_comm, Bool.or_right_comm]

lemma admits_comm (f : TypeFilter) (x : UInt64) (s : TypeId) (y : UInt64) (t : TypeId) :
    f.admits x s y t = f.admits y t x s := by
  rw [admits, admits, bne_comm, listed_comm f.check, BEq.comm (a := s), listed_comm f.ignore,
    Bool.or_comm (f.ownTypeOnly.contains s)]

lemma length_resolveAll (f : TypeFilter) (os : List Object) :
    (f.resolveAll os).1.length = os.length := by
  induction os generalizing f with
  | nil => rfl
  | cons o os ih => exact congrArg (· + 1) (ih _)

def Corresponds {ν ι : Type} (R : ν → ι → Prop) (l : List ν) (S : ι → Prop) : Prop :=
  (∀ i, S i → ∃ n ∈ l, R n i) ∧ ∀ n ∈ l, ∃ i, S i ∧ R n i

lemma Corresponds.mono {ν ι : Type} {R R' : ν → ι → Prop} {l : List ν} {S : ι → Prop}
    (h : Corresponds R l S) (hR : ∀ n i, R n i → R' n i) : Corresponds R' l S := by
  refine ⟨fun i hi => ?_, fun n hn => ?_⟩
  · obtain ⟨n, hn, hni⟩ := h.1 i hi
    exact ⟨n, hn, hR n i hni⟩
  · obtain ⟨i, hi, hni⟩ := h.2 n hn
    exact ⟨i, hi, hR n i hni⟩

lemma Corresponds.concat {ν ι : Type} {R : ν → ι → Prop} {l : List ν} {S S' : ι → Prop}
    (h : Corresponds R l S) {n : ν} {i : ι} (hn : R n i) (hS : ∀ j, S' j ↔ i = j ∨ S j) :
    Corresponds R (l ++ [n]) S' := by
  refine ⟨fun j hj => ?_, fun m hm => ?_⟩
  · rcases (hS j).mp hj with rfl | hj
    · exact ⟨n, by simp, hn⟩
    · obtain ⟨m, hm, hmj⟩ := h.1 j hj
      exact ⟨m, List.mem_append_left _ hm, hmj⟩
  · rcases List.mem_append.mp hm with hm | hm
    · obtain ⟨j, hj, hmj⟩ := h.2 m hm
      exact ⟨j, (hS j).mpr (Or.inr hj), hmj⟩
    · obtain rfl := List.mem_singleton.mp hm
      exact ⟨i, (hS i).mpr (Or.inl rfl), hn⟩

def Number (f : TypeFilter) (name : String) (id : TypeId) : Prop :=
  f.ids[f.source.key name]? = some id

def Numbers (f : TypeFilter) (names : String × String) (p : TypeId × TypeId) : Prop :=
  ∃ a b, f.Number names.1 a ∧ f.Number names.2 b ∧ ordered a b = p

/-- Every name has a number of its own, and the rules on numbers are the given ones on names. -/
structure Holds (f : TypeFilter) (source : TypeSource) (own : List String)
    (ignored checked : List (String × String)) : Prop where
  source : f.source = source
  wild : f.ids[wildcard]? = some any
  ids : ∀ (k : String) (i : TypeId), f.ids[k]? = some i ↔ f.names[i]? = some k
  own : Corresponds f.Number own (· ∈ f.ownTypeOnly)
  ignore : Corresponds f.Numbers ignored (· ∈ f.ignore)
  check : Corresponds f.Numbers checked (· ∈ f.check)

variable {f : TypeFilter} {source : TypeSource} {own : List String}
  {ignored checked : List (String × String)}

lemma holds_empty (source : TypeSource) : (empty source).Holds source [] [] [] where
  source := rfl
  wild := by simp [empty]
  ids := by
    intro k i
    by_cases hk : wildcard = k <;> cases i <;>
      simp [empty, any, hk]
  own := ⟨by simp [empty], by simp⟩
  ignore := ⟨by simp [empty], by simp⟩
  check := ⟨by simp [empty], by simp⟩

def Extends (g f : TypeFilter) : Prop := ∀ n i, f.Number n i → g.Number n i

lemma Extends.numbers {g : TypeFilter} (h : g.Extends f) {n : String × String}
    {p : TypeId × TypeId} : f.Numbers n p → g.Numbers n p := by
  rintro ⟨a, b, ha, hb, hp⟩
  exact ⟨a, b, h _ _ ha, h _ _ hb, hp⟩

lemma extends_intern (f : TypeFilter) (name : String) : (f.intern name).2.Extends f := by
  intro n i hn
  rw [intern]
  dsimp only
  cases hk : f.ids[f.source.key name]? with
  | some id => exact hn
  | none =>
    have hne : f.source.key name ≠ f.source.key n := by
      intro heq
      rw [Number, ← heq, hk] at hn
      simp at hn
    dsimp only [Number]
    rwa [Std.HashMap.getElem?_insert, if_neg (by simpa using hne)]

lemma source_intern (f : TypeFilter) (name : String) : (f.intern name).2.source = f.source := by
  rw [TypeFilter.intern]
  dsimp only
  cases f.ids[f.source.key name]? <;> rfl

lemma number_intern (f : TypeFilter) (name : String) :
    (f.intern name).2.Number name (f.intern name).1 := by
  rw [TypeFilter.intern]
  dsimp only
  cases hk : f.ids[f.source.key name]? with
  | some id => exact hk
  | none => simp [Number]

lemma Holds.intern (h : f.Holds source own ignored checked) (name : String) :
    (f.intern name).2.Holds source own ignored checked := by
  have hext := f.extends_intern name
  have hown := h.own.mono hext
  have hignore := h.ignore.mono fun _ _ => hext.numbers
  have hcheck := h.check.mono fun _ _ => hext.numbers
  have hsource := (f.source_intern name).trans h.source
  rw [TypeFilter.intern] at hown hignore hcheck hsource ⊢
  dsimp only at hown hignore hcheck hsource ⊢
  cases hk : f.ids[f.source.key name]? with
  | some id => exact h
  | none =>
    rw [hk] at hown hignore hcheck hsource
    have hfresh (i : TypeId) : f.names[i]? ≠ some (f.source.key name) := by
      rw [Ne, ← h.ids, hk]
      simp
    refine ⟨hsource, ?_, fun k i => ?_, hown, hignore, hcheck⟩
    · dsimp only
      rw [Std.HashMap.getElem?_insert, if_neg, h.wild]
      simp only [beq_iff_eq]
      rintro heq
      simp [heq, h.wild] at hk
    · dsimp only
      rw [Std.HashMap.getElem?_insert, Array.getElem?_push]
      by_cases hkey : f.source.key name = k
      · subst hkey
        by_cases hi : i = f.names.size
        · simp [hi]
        · simp [hi, hfresh i, Ne.symm hi]
      · rw [if_neg (by simpa using hkey), h.ids]
        by_cases hi : i = f.names.size
        · simp [hi, hkey]
        · simp [hi]

lemma Holds.addOwnTypeOnly (h : f.Holds source own ignored checked) (name : String) :
    (f.addOwnTypeOnly name).Holds source (own ++ [name]) ignored checked := by
  have hi := h.intern name
  exact { hi with
    own := hi.own.concat (f.number_intern name) fun j => by simp [TypeFilter.addOwnTypeOnly] }

lemma Holds.internPair (h : f.Holds source own ignored checked) (names : String × String) :
    (f.internPair names).2.Holds source own ignored checked ∧
      (f.internPair names).2.Numbers names (f.internPair names).1 := by
  refine ⟨(h.intern _).intern _, _, _, ?_, number_intern _ _, rfl⟩
  exact extends_intern _ _ _ _ (number_intern _ _)

lemma Holds.addIgnore (h : f.Holds source own ignored checked) (names : String × String) :
    (f.addIgnore names).Holds source own (ignored ++ [names]) checked := by
  obtain ⟨hi, hn⟩ := h.internPair names
  exact { hi with
    ignore := hi.ignore.concat hn fun j => by simp [TypeFilter.addIgnore] }

lemma Holds.addCheck (h : f.Holds source own ignored checked) (names : String × String) :
    (f.addCheck names).Holds source own ignored (checked ++ [names]) := by
  obtain ⟨hi, hn⟩ := h.internPair names
  exact { hi with
    check := hi.check.concat hn fun j => by simp [TypeFilter.addCheck] }

lemma foldl_appended {ν σ : Type} {P : List ν → σ → Prop} {step : σ → ν → σ}
    (hstep : ∀ l s n, P l s → P (l ++ [n]) (step s n)) {l : List ν} {s : σ} (h : P l s)
    (ns : List ν) :
    P (l ++ ns) (ns.foldl step s) := by
  induction ns generalizing l s with
  | nil => simpa using h
  | cons n ns ih => simpa using ih (hstep l s n h)

lemma holds_ofRules (r : Rules) :
    (ofRules r).Holds (.ofRules r) (ownTypeOnlyNames r) (ignoredNames r) (checkedNames r) := by
  have hown := foldl_appended (P := fun l (f : TypeFilter) => f.Holds (.ofRules r) l [] [])
    (fun _ _ n h => h.addOwnTypeOnly n) (holds_empty _) (ownTypeOnlyNames r)
  have hignore := foldl_appended (P := fun l (f : TypeFilter) => f.Holds (.ofRules r) _ l [])
    (fun _ _ n h => h.addIgnore n) hown (ignoredNames r)
  exact foldl_appended (P := fun l (f : TypeFilter) => f.Holds (.ofRules r) _ _ l)
    (fun _ _ n h => h.addCheck n) hignore (checkedNames r)

inductive Request where
  | intern (name : String)
  | resolve (object : Object)

def Request.name (source : TypeSource) : Request → String
  | intern name => name
  | resolve o => source.nameOf o

def answer (f : TypeFilter) : Request → TypeId × TypeFilter
  | .intern name => f.intern name
  | .resolve o => f.resolve o

def answerAll (f : TypeFilter) : List Request → List TypeId × TypeFilter
  | [] => ([], f)
  | q :: qs =>
    let (id, f) := f.answer q
    let (ids, f) := f.answerAll qs
    (id :: ids, f)

lemma answer_eq_intern (f : TypeFilter) (q : Request) :
    f.answer q = f.intern (q.name f.source) := by
  cases q <;> rfl

lemma answerAll_resolve (f : TypeFilter) (os : List Object) :
    f.answerAll (os.map .resolve) = f.resolveAll os := by
  induction os generalizing f with
  | nil => rfl
  | cons o os ih => simp only [List.map_cons, answerAll, answer, resolveAll, ih]

lemma Holds.answerAll (h : f.Holds source own ignored checked) (qs : List Request) :
    (f.answerAll qs).2.Holds source own ignored checked ∧ (f.answerAll qs).2.Extends f ∧
      List.Forall₂ (fun q id => (f.answerAll qs).2.Number (q.name source) id) qs
        (f.answerAll qs).1 := by
  induction qs generalizing f with
  | nil => exact ⟨h, fun _ _ => id, .nil⟩
  | cons q qs ih =>
    have hq := h.source ▸ f.answer_eq_intern q
    have hstep := h.intern (q.name source)
    have hnumber := f.number_intern (q.name source)
    have hext := f.extends_intern (q.name source)
    rw [← hq] at hstep hnumber hext
    obtain ⟨hh, hext', hall⟩ := ih hstep
    exact ⟨hh, fun n i hn => hext' n i (hext n i hn), .cons (hext' _ _ hnumber) hall⟩

lemma Holds.resolveAll (h : f.Holds source own ignored checked) (os : List Object) :
    (f.resolveAll os).2.Holds source own ignored checked ∧ (f.resolveAll os).2.Extends f ∧
      List.Forall₂ (fun o id => (f.resolveAll os).2.Number (source.nameOf o) id) os
        (f.resolveAll os).1 := by
  have hall := h.answerAll (os.map .resolve)
  rwa [answerAll_resolve, List.forall₂_map_left_iff] at hall

def Lists (source : TypeSource) (pairs : List (String × String)) (k l : String) : Prop :=
  ∃ n ∈ pairs, s(source.key n.1, source.key n.2) ∈ [s(k, l), s(wildcard, k), s(wildcard, l)]

lemma Holds.eq_of_ids (h : f.Holds source own ignored checked) {k l : String} {i : TypeId}
    (hk : f.ids[k]? = some i) (hl : f.ids[l]? = some i) : k = l :=
  Option.some.inj (((h.ids _ _).mp hk).symm.trans ((h.ids _ _).mp hl))

lemma Holds.ordered_mem (h : f.Holds source own ignored checked) {S : Std.HashSet (TypeId × TypeId)}
    {pairs : List (String × String)} (hS : Corresponds f.Numbers pairs (· ∈ S)) {k l : String}
    {a b : TypeId} (ha : f.ids[k]? = some a) (hb : f.ids[l]? = some b) :
    ordered a b ∈ S ↔ ∃ n ∈ pairs, s(source.key n.1, source.key n.2) = s(k, l) := by
  constructor
  · intro hmem
    obtain ⟨n, hn, c, d, hc, hd, hcd⟩ := hS.1 _ hmem
    rw [Number, h.source] at hc hd
    refine ⟨n, hn, ?_⟩
    rcases Sym2.eq_iff.mp (ordered_eq_ordered.mp hcd) with ⟨rfl, rfl⟩ | ⟨rfl, rfl⟩
    · rw [h.eq_of_ids hc ha, h.eq_of_ids hd hb]
    · rw [h.eq_of_ids hc hb, h.eq_of_ids hd ha, Sym2.eq_swap]
  · rintro ⟨n, hn, hkl⟩
    obtain ⟨p, hp, c, d, hc, hd, rfl⟩ := hS.2 n hn
    rw [Number, h.source] at hc hd
    have hcd : s(a, b) = s(c, d) := by
      rcases Sym2.eq_iff.mp hkl with ⟨rfl, rfl⟩ | ⟨rfl, rfl⟩
      · rw [Option.some.inj (hc.symm.trans ha), Option.some.inj (hd.symm.trans hb)]
      · rw [Option.some.inj (hc.symm.trans hb), Option.some.inj (hd.symm.trans ha), Sym2.eq_swap]
    rwa [ordered_eq_ordered.mpr hcd]

lemma Holds.listed_iff (h : f.Holds source own ignored checked) {S : Std.HashSet (TypeId × TypeId)}
    {pairs : List (String × String)} (hS : Corresponds f.Numbers pairs (· ∈ S)) {k l : String}
    {a b : TypeId} (ha : f.ids[k]? = some a) (hb : f.ids[l]? = some b) :
    listed S a b = true ↔ Lists source pairs k l := by
  have hany (i : TypeId) : (any, i) = ordered any i := by simp [ordered, any]
  rw [listed, hany a, hany b]
  simp only [Bool.or_eq_true, Std.HashSet.contains_iff_mem, h.ordered_mem hS ha hb,
    h.ordered_mem hS h.wild ha, h.ordered_mem hS h.wild hb, Lists, List.mem_cons,
    List.not_mem_nil, or_false, ← exists_or, ← and_or_left, or_assoc]

def Admits (source : TypeSource) (own : List String) (ignored checked : List (String × String))
    (k l : String) : Prop :=
  (checked = [] ∨ Lists source checked k l) ∧
    (k = l ∨ ∀ n ∈ own, source.key n ≠ k ∧ source.key n ≠ l) ∧ ¬ Lists source ignored k l

lemma Holds.isEmpty_check (h : f.Holds source own ignored checked) :
    f.check.isEmpty = true ↔ checked = [] := by
  rw [Std.HashSet.isEmpty_iff_forall_not_mem, List.eq_nil_iff_forall_not_mem]
  constructor
  · intro hnone n hn
    obtain ⟨p, hp, -⟩ := h.check.2 n hn
    exact hnone p hp
  · intro hnone p hp
    obtain ⟨n, hn, -⟩ := h.check.1 p hp
    exact hnone n hn

lemma Holds.mem_ownTypeOnly (h : f.Holds source own ignored checked) {k : String} {a : TypeId}
    (ha : f.ids[k]? = some a) : a ∈ f.ownTypeOnly ↔ ∃ n ∈ own, source.key n = k := by
  constructor
  · intro hmem
    obtain ⟨n, hn, hna⟩ := h.own.1 a hmem
    rw [Number, h.source] at hna
    exact ⟨n, hn, h.eq_of_ids hna ha⟩
  · rintro ⟨n, hn, rfl⟩
    obtain ⟨i, hi, hni⟩ := h.own.2 n hn
    rw [Number, h.source] at hni
    rwa [Option.some.inj (ha.symm.trans hni)]

lemma Holds.admits_iff (h : f.Holds source own ignored checked) {k l : String} {a b : TypeId}
    (ha : f.ids[k]? = some a) (hb : f.ids[l]? = some b) {x y : UInt64} :
    f.admits x a y b = true ↔ x ≠ y ∧ Admits source own ignored checked k l := by
  have hsame : a = b ↔ k = l := by
    constructor
    · rintro rfl
      exact h.eq_of_ids ha hb
    · rintro rfl
      exact Option.some.inj (ha.symm.trans hb)
  have hneither : ¬ (a ∈ f.ownTypeOnly ∨ b ∈ f.ownTypeOnly) ↔
      ∀ n ∈ own, source.key n ≠ k ∧ source.key n ≠ l := by
    rw [h.mem_ownTypeOnly ha, h.mem_ownTypeOnly hb]
    grind
  rw [admits, Admits, ← h.isEmpty_check, ← h.listed_iff h.check ha hb, ← hsame, ← hneither,
    ← h.listed_iff h.ignore ha hb]
  simp [and_assoc]

end SolidClash.TypeFilter
