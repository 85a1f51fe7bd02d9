import SolidClash.Proofs.Detection.Counters
import SolidClash.Proofs.Detection.Retyped

namespace SolidClash

open List (Forall₂)

def Metrics.skip (m : Metrics) : Metrics :=
  { m with
    totalObjects := m.totalObjects + 1
    objectsWithoutGeometry := m.objectsWithoutGeometry + 1 }

namespace Model

def adding (m : Model) (i : ℕ) (o : Object) : Model :=
  { m with objects := m.objects.take i ++ o :: m.objects.drop i }

/-- The index passes an object over: it has no box, or in metres the box is empty or not finite. -/
def Skips (m : Model) (o : Object) : Prop :=
  ∀ g, o.geometry = some g →
    (g.bounds.scaled m.multiplier).IsEmpty ∨ ¬ (g.bounds.scaled m.multiplier).IsFinite

end Model

namespace Detection

def boxed? (m : Model) (side : Side) (p : Object × TypeId) : Option Entry := do
  let g ← p.1.geometry
  let b := g.bounds.scaled m.multiplier
  if b.IsEmpty ∨ ¬ b.IsFinite then none else some ⟨b, ⟨side, p.1, g, p.2⟩⟩

lemma indexable_fst (m : Model) (side : Side) (types : List TypeId) :
    (indexable m side types).1 = (m.objects.zip types).filterMap (boxed? m side) := by
  rw [indexable, List.filterMap_map]
  rfl

lemma boxed?_eq_none_iff {m : Model} {side : Side} {o : Object} {type : TypeId} :
    boxed? m side (o, type) = none ↔ m.Skips o := by
  rw [boxed?, Model.Skips]
  cases hg : o.geometry with
  | none => simp
  | some g => simp [or_iff_not_imp_left]

variable {source : TypeSource} {f f' : TypeFilter} {m : Model}

lemma alike_boxed? (side : Side) {o : Object} {type type' : TypeId}
    (h : f.Number (source.nameOf o) type) (h' : f'.Number (source.nameOf o) type') :
    Option.Rel (Octree.Entry.Alike (Item.Alike source f f')) (boxed? m side (o, type))
      (boxed? m side (o, type')) := by
  cases hg : o.geometry with
  | none => simp [boxed?, hg]
  | some g =>
    simp only [boxed?, hg, Option.bind_eq_bind, Option.bind_some]
    split
    · exact .none
    · exact .some ⟨rfl, rfl, rfl, rfl, h, h'⟩

lemma alike_zip (side : Side) {os : List Object} {types types' : List TypeId}
    (h : Forall₂ (fun o id => f.Number (source.nameOf o) id) os types)
    (h' : Forall₂ (fun o id => f'.Number (source.nameOf o) id) os types') :
    Forall₂ (Octree.Entry.Alike (Item.Alike source f f'))
      ((os.zip types).filterMap (boxed? m side)) ((os.zip types').filterMap (boxed? m side)) := by
  induction h generalizing types' with
  | nil =>
    cases h'
    exact .nil
  | @cons o type os types hn _ ih =>
    cases h' with
    | @cons _ type' _ types' hn' hns' =>
      have ho := alike_boxed? (m := m) side hn hn'
      simp only [List.zip_cons_cons, List.filterMap_cons]
      generalize boxed? m side (o, type) = e, boxed? m side (o, type') = e' at ho
      cases ho with
      | none => exact ih hns'
      | some he => exact .cons he (ih hns')

lemma exists_append_of_forall₂ {α β : Type} {R : α → β → Prop} {l₁ l₂ : List α} {l : List β}
    (h : Forall₂ R (l₁ ++ l₂) l) : ∃ k₁ k₂, k₁ ++ k₂ = l ∧ Forall₂ R l₁ k₁ ∧ Forall₂ R l₂ k₂ :=
  ⟨_, _, l.take_append_drop l₁.length, (List.forall₂_take_append _ _ _ h.flip).flip,
    (List.forall₂_drop_append _ _ _ h.flip).flip⟩

lemma exists_indexable_adding (o : Object) (i : ℕ) (side : Side) {types types' : List TypeId}
    (h : Forall₂ (fun o id => f.Number (source.nameOf o) id) m.objects types)
    (h' : Forall₂ (fun o id => f'.Number (source.nameOf o) id) (m.adding i o).objects types') :
    ∃ es₁ es₂ es₁' type es₂', (indexable m side types).1 = es₁ ++ es₂ ∧
      (indexable (m.adding i o) side types').1 =
        es₁' ++ ((boxed? m side (o, type)).toList ++ es₂') ∧
      Forall₂ (Octree.Entry.Alike (Item.Alike source f f')) es₁ es₁' ∧
      Forall₂ (Octree.Entry.Alike (Item.Alike source f f')) es₂ es₂' := by
  have hos := m.objects.take_append_drop i
  rw [← hos] at h
  obtain ⟨ts₁, ts₂, rfl, h₁, h₂⟩ := exists_append_of_forall₂ h
  obtain ⟨ts₁', _, rfl, h₁', hcons⟩ := exists_append_of_forall₂ h'
  obtain ⟨type, ts₂', -, h₂', rfl⟩ := List.forall₂_cons_left_iff.mp hcons
  refine ⟨_, _, _, type, _, ?_, ?_, alike_zip (m := m) side h₁ h₁',
    alike_zip (m := m) side h₂ h₂'⟩
  · rw [indexable_fst, ← List.filterMap_append, ← List.zip_append h₁.length_eq, hos]
  · have hentry : boxed? (m.adding i o) side = boxed? m side := rfl
    have hobjects : (m.adding i o).objects = m.objects.take i ++ o :: m.objects.drop i := rfl
    rw [indexable_fst, hentry, hobjects, List.zip_append h₁'.length_eq, List.zip_cons_cons,
      List.filterMap_append, List.filterMap_cons]
    cases boxed? m side (o, type) <;> rfl

def model (d : Detection) : Side → Model
  | .first => d.first
  | .second => d.second

def adding (d : Detection) (side : Side) (i : ℕ) (o : Object) : Detection :=
  match side with
  | .first => { d with first := d.first.adding i o }
  | .second => { d with second := d.second.adding i o }

abbrev SameItem (d d' : Detection) : Item → Item → Prop :=
  Item.Alike (.ofRules d.rules) d.resolved.1 d'.resolved.1

variable {d : Detection} {side : Side} {o : Object}

lemma isSelfCheck_adding (d : Detection) (side : Side) (i : ℕ) (o : Object) :
    (d.adding side i o).isSelfCheck = d.isSelfCheck := by
  cases side <;> rfl

lemma rules_adding (i : ℕ) : (d.adding side i o).rules = d.rules := by
  cases side <;> rfl

lemma options_adding (i : ℕ) : (d.adding side i o).options = d.options := by
  cases side <;> rfl

lemma blank_adding (i : ℕ) : (d.adding side i o).blank = d.blank := by
  simp only [blank, other, isSelfCheck_adding]
  cases side <;> cases d.isSelfCheck <;> rfl

lemma fetches_adding (i : ℕ) :
    d.setting.Fetches (d.adding side i o).first (d.adding side i o).other := by
  have hself := isSelfCheck_adding d side i o
  refine ⟨?_, ?_⟩
  · cases side <;> exact ⟨rfl, rfl⟩
  · simp only [other, setting, hself]
    cases side <;> cases d.isSelfCheck <;> exact ⟨rfl, rfl⟩

lemma alike_items_of_ne {at' : Side} (hne : at' ≠ side) (i : ℕ) :
    Forall₂ (Octree.Entry.Alike (d.SameItem (d.adding side i o))) (d.items at').1
      ((d.adding side i o).items at').1 := by
  have hself := isSelfCheck_adding d side i o
  cases at' with
  | first =>
    obtain rfl : side = .second := by cases side <;> simp at hne ⊢
    have h' := (holds_resolved (d.adding .second i o)).2
    rw [items, items, indexable_fst, indexable_fst]
    exact alike_zip .first (holds_resolved d).2 h'
  | second =>
    obtain rfl : side = .first := by cases side <;> simp at hne ⊢
    cases hs : d.isSelfCheck with
    | true =>
      rw [items_second_within hs, items_second_within (hself.trans hs)]
      exact .nil
    | false =>
      rw [items_second_across hs, items_second_across (hself.trans hs), indexable_fst,
        indexable_fst]
      exact alike_zip .second (numbers_second hs) (numbers_second (hself.trans hs))

section Adding

variable (hside : side = .second → d.isSelfCheck = false)

include hside

lemma exists_items_adding (o : Object) (i : ℕ) :
    ∃ es₁ es₂ es₁' type es₂', (d.items side).1 = es₁ ++ es₂ ∧
      ((d.adding side i o).items side).1 =
        es₁' ++ ((boxed? (d.model side) side (o, type)).toList ++ es₂') ∧
      Forall₂ (Octree.Entry.Alike (d.SameItem (d.adding side i o))) es₁ es₁' ∧
      Forall₂ (Octree.Entry.Alike (d.SameItem (d.adding side i o))) es₂ es₂' := by
  cases side with
  | first =>
    exact exists_indexable_adding o i .first (holds_resolved d).2
      (holds_resolved (d.adding .first i o)).2
  | second =>
    have hs := hside rfl
    have hs' : (d.adding .second i o).isSelfCheck = false := hs
    rw [items_second_across hs, items_second_across hs']
    exact exists_indexable_adding o i .second (numbers_second hs) (numbers_second hs')

lemma objectCount_adding (i : ℕ) : (d.adding side i o).objectCount = d.objectCount + 1 := by
  have hlength (m : Model) : (m.adding i o).objects.length = m.objects.length + 1 := by
    simp only [Model.adding, List.length_append, List.length_cons, List.length_take,
      List.length_drop]
    omega
  rw [objectCount, objectCount, isSelfCheck_adding]
  cases side with
  | first => simp only [adding, hlength, Nat.add_right_comm]
  | second => simp [adding, hlength, hside rfl, Nat.add_assoc]

lemma length_items_of_indexed (ho : ¬ (d.model side).Skips o) (i : ℕ) :
    ((d.adding side i o).items .first).1.length + ((d.adding side i o).items .second).1.length =
      (d.items .first).1.length + (d.items .second).1.length + 1 := by
  have hone : ((d.adding side i o).items side).1.length = (d.items side).1.length + 1 := by
    obtain ⟨es₁, es₂, es₁', type, es₂', he, he', h₁, h₂⟩ := exists_items_adding hside o i
    obtain ⟨e, hnew⟩ := Option.ne_none_iff_exists'.mp (mt boxed?_eq_none_iff.mp ho)
    have hlength₁ := h₁.length_eq
    have hlength₂ := h₂.length_eq
    rw [he, he', hnew]
    simp only [Option.toList_some, List.length_append, List.length_singleton]
    omega
  have hsame {at' : Side} (hne : at' ≠ side) :
      ((d.adding side i o).items at').1.length = (d.items at').1.length :=
    (alike_items_of_ne hne i).length_eq.symm
  cases side with
  | first => rw [hone, hsame (by decide), Nat.add_right_comm]
  | second => rw [hone, hsame (by decide), Nat.add_assoc]

variable (ho : (d.model side).Skips o) (i : ℕ)

include ho

lemma alike_items (at' : Side) :
    Forall₂ (Octree.Entry.Alike (d.SameItem (d.adding side i o))) (d.items at').1
      ((d.adding side i o).items at').1 := by
  by_cases hat : at' = side
  · obtain ⟨es₁, es₂, es₁', type, es₂', he, he', h₁, h₂⟩ := exists_items_adding hside o i
    rw [boxed?_eq_none_iff.mpr ho] at he'
    rw [hat, he, he']
    exact List.rel_append h₁ h₂
  · exact alike_items_of_ne hat i

lemma length_items (at' : Side) :
    ((d.adding side i o).items at').1.length = (d.items at').1.length :=
  (alike_items hside ho i at').length_eq.symm

lemma setting_adding :
    (d.adding side i o).setting = d.setting.retyped (d.adding side i o).resolved.1
      (d.adding side i o).first (d.adding side i o).other := by
  simp only [setting, Setting.retyped, length_items hside ho, isSelfCheck_adding, rules_adding]
  cases side <;> rfl

lemma alike_tree? (box : Box Float) :
    (∃ t t', d.tree? box = .ok t ∧ (d.adding side i o).tree? box = .ok t' ∧
      t.Alike (d.SameItem (d.adding side i o)) t') ∨
      ∃ e, d.tree? box = .error e ∧ (d.adding side i o).tree? box = .error e := by
  have hentries := List.rel_append (alike_items hside ho i .first) (alike_items hside ho i .second)
  rw [tree?, tree?, options_adding]
  cases hroot : (Octree.new box d.options.maxOctreeDepth : Except _ Index) with
  | error e => exact Or.inr ⟨e, rfl, rfl⟩
  | ok t =>
    have hbare : t.Alike (d.SameItem (d.adding side i o)) t := by
      rw [Octree.new] at hroot
      split at hroot
      · simp at hroot
      · obtain rfl := Except.ok.inj hroot
        exact ⟨Octree.Node.alike_bare _, rfl⟩
    exact hbare.insertAll hentries

end Adding

lemma Tally.take_aside {g : Metrics → Metrics} (hg : Aside g)
    (hchecked : ∀ m k, g { m with checkedCombinations := m.checkedCombinations + k } =
      { g m with checkedCombinations := (g m).checkedCombinations + k })
    (s : Setting) (t : Tally) (st : Step) :
    (t.aside t.finished g).take s st = (t.take s st).aside (t.take s st).finished g := by
  cases st with
  | poll => rfl
  | examine a c =>
    have hworth : (t.aside t.finished g).isWorth s a c = t.isWorth s a c := rfl
    rw [take, take, examine, examine, hworth]
    split
    · rw [finished_compare, compare_aside s t _ hg]
    · rfl
  | finish a =>
    rw [take, take, finish, finish]
    cases s.selfCheck <;> simp only [aside, countWith, hchecked] <;> rfl

def Tally.skipping (t : Tally) : Tally := t.aside t.finished Metrics.skip

def Progress.skipping (p : Progress) : Progress := { p with tally := p.tally.skipping }

def Outcome.skipping (o : Outcome) : Outcome :=
  { o with results := { o.results with metrics := o.results.metrics.skip } }

lemma Progress.run_skipping (s : Setting) (signals : Signals) (steps : List Step) (p : Progress) :
    p.skipping.run s signals steps = (p.run s signals steps).skipping := by
  have htake (t : Tally) (st : Step) : t.skipping.take s st = (t.take s st).skipping :=
    Tally.take_aside ⟨fun _ => rfl, fun _ => rfl, fun _ _ => rfl, fun _ => rfl, fun _ _ => rfl⟩
      (fun _ _ => rfl) s t st
  induction steps generalizing p with
  | nil => rfl
  | cons st steps ih =>
    have hstep : p.skipping.step s signals st = (p.step s signals st).skipping := by
      cases st with
      | poll => rfl
      | examine a c => exact congrArg (Progress.mk · p.monitor) (htake p.tally (.examine a c))
      | finish a => exact congrArg (Progress.mk · p.monitor) (htake p.tally (.finish a))
    rw [run, run, hstep, ih]
    exact (apply_ite Progress.skipping _ _ _).symm

lemma conclude_skipping (p : Progress) : conclude p.skipping = (conclude p).skipping := rfl

lemma Tally.indexed_take (s : Setting) (t : Tally) (st : Step) :
    (t.take s st).results.metrics.objectsWithGeometry =
      t.results.metrics.objectsWithGeometry := by
  have h := take_aside
    (g := fun m => { m with objectsWithGeometry := t.results.metrics.objectsWithGeometry })
    ⟨fun _ => rfl, fun _ => rfl, fun _ _ => rfl, fun _ => rfl, fun _ _ => rfl⟩ (fun _ _ => rfl)
    s t st
  exact (congrArg (fun t => t.results.metrics.objectsWithGeometry) h :)

lemma indexed_of_run {signals : Signals} {r : Outcome} (h : d.run signals = .ok r)
    (he : ¬ d.bounds.IsEmpty) : r.results.metrics.objectsWithGeometry =
      (d.items .first).1.length + (d.items .second).1.length := by
  have hfold (sts : List Step) (t : Tally) :
      (sts.foldl (Tally.take d.setting) t).results.metrics.objectsWithGeometry =
        t.results.metrics.objectsWithGeometry := by
    induction sts generalizing t with
    | nil => rfl
    | cons st sts ih => exact (ih _).trans (t.indexed_take d.setting st)
  have hconclude (p : Progress) : (conclude p).results.metrics.objectsWithGeometry =
      p.tally.results.metrics.objectsWithGeometry := rfl
  obtain ⟨he', -⟩ | ⟨-, tree, -, rfl⟩ := cases_of_ok h
  · exact absurd he' he
  · rw [hconclude, Progress.tally_run, hfold]
    rfl

section Skipped

variable (hside : side = .second → d.isSelfCheck = false) (ho : (d.model side).Skips o) (i : ℕ)

include hside ho

lemma start_adding : (d.adding side i o).start = d.start.skipping := by
  have hcount := objectCount_adding (o := o) hside i
  have hwithout : ((d.adding side i o).items .first).2 + ((d.adding side i o).items .second).2 =
      (d.items .first).2 + (d.items .second).2 + 1 := by
    have h := objectCount_eq d
    have h' := objectCount_eq (d.adding side i o)
    rw [length_items hside ho, length_items hside ho] at h'
    omega
  have hsecond : (d.adding side i o).setting.secondCount = d.setting.secondCount := by
    rw [setting_adding hside ho]
    rfl
  rw [start, start, hcount, hwithout, blank_adding, options_adding, hsecond,
    length_items hside ho, length_items hside ho]
  rfl

lemma runIn_adding (signals : Signals) (box : Box Float) :
    (d.adding side i o).runIn signals box = (d.runIn signals box).map Outcome.skipping := by
  rw [runIn_eq, runIn_eq]
  rcases alike_tree? hside ho i box with ⟨t, t', ht, ht', halike⟩ | ⟨e, ht, ht'⟩
  · have h := (holds_resolved d).1
    have h' := (holds_resolved (d.adding side i o)).1
    rw [rules_adding] at h'
    rw [ht, ht', start_adding hside ho, setting_adding hside ho]
    dsimp only
    rw [(fetches_adding i).run_retyped h h' (alike_schedule halike), Progress.run_skipping,
      conclude_skipping, Except.map]
  · rw [ht, ht']
    rfl

end Skipped

def runWithin (d : Detection) (signals : Signals) (box : Box Float) : Except Error Outcome :=
  match d.rules.fault? with
  | some e => .error (.rules e)
  | none => if box.IsEmpty then .ok d.nothing else d.runIn signals box

lemma run_eq_runWithin (d : Detection) (signals : Signals) :
    d.run signals = d.runWithin signals d.bounds := d.run_eq signals

lemma run_adding (hside : side = .second → d.isSelfCheck = false) (ho : (d.model side).Skips o)
    (i : ℕ) (signals : Signals) : (d.adding side i o).run signals =
      (d.runWithin signals (d.adding side i o).bounds).map Outcome.skipping := by
  rw [run_eq_runWithin, runWithin, runWithin, rules_adding, nothing, objectCount_adding hside,
    blank_adding, runIn_adding hside ho]
  cases d.rules.fault? with
  | some e => rfl
  | none =>
    dsimp only
    split <;> rfl

lemma run_of_unbounded (hrules : d.rules.fault? = none) (he : ¬ d.bounds.IsEmpty)
    (hf : ¬ d.bounds.IsFinite) (signals : Signals) :
    d.run signals = .error (.geometry (.unusableRoot d.bounds)) := by
  have htree : d.tree? d.bounds = .error (.unusableRoot d.bounds) := by
    rw [tree?, Octree.new, if_pos (Or.inr hf)]
    rfl
  rw [run_eq, hrules, htree]
  exact if_neg he

end Detection

lemma Box.union_empty {b : Box Float} (h : b.IsNumeric) : b.union empty = b := by
  obtain ⟨⟨hx, hy, hz⟩, hx', hy', hz'⟩ := h
  have hinf {a : Float} (ha : Scalar.IsNumber a) : Scalar.inf a (1.0 / 0.0) = a :=
    if_pos ha.between_infinities.2
  have hsup {a : Float} (ha : Scalar.IsNumber a) : Scalar.sup a (-(1.0 / 0.0)) = a :=
    if_pos ha.between_infinities.1
  simp only [union, empty, Vec.inf, Vec.sup, Vec.zipWith, hinf hx, hinf hy, hinf hz, hsup hx',
    hsup hy', hsup hz']

lemma Box.not_isFinite_scaled_empty (k : Float) : ¬ (empty.scaled k).IsFinite := by
  have hpos := Binary64.isFinite_mul (a := 1.0 / 0.0) (by decide +kernel) k
  have hneg := Binary64.isFinite_mul (a := -(1.0 / 0.0)) (by decide +kernel) k
  rintro ⟨⟨hx, _⟩, _⟩
  change (Scalar.inf (1.0 / 0.0 * k) (-(1.0 / 0.0) * k)).isFinite = true at hx
  rw [Scalar.inf] at hx
  split at hx
  · simp [hpos] at hx
  · simp [hneg] at hx

namespace Model

variable {m : Model} {o : Object} {g : Geometry}

lemma skips_iff : m.Skips o ↔
    ∀ g, o.geometry = some g → ¬ (g.bounds.scaled m.multiplier).IsFinite := by
  simp only [Skips, (Box.isProper_scaled _ _).not_isEmpty, false_or]

lemma skips_of_empty (hg : o.geometry = some g) (hb : g.bounds = .empty) : m.Skips o := by
  rw [skips_iff]
  intro g' hg'
  obtain rfl : g = g' := Option.some.inj (hg.symm.trans hg')
  rw [hb]
  exact Box.not_isFinite_scaled_empty _

lemma modelBounds_adding (hg : o.geometry = some g) (hb : g.bounds = .empty)
    (hm : ∀ p ∈ m.objects, ∀ g, p.geometry = some g → g.bounds.IsNumeric) (i : ℕ) :
    (m.adding i o).modelBounds = m.modelBounds := by
  have hfold : (((m.objects.take i).filterMap Object.geometry).foldl
      (fun b g => b.union g.bounds) Box.empty).IsNumeric := by
    rw [← List.foldl_map]
    refine Box.isNumeric_foldl_union (by decide +kernel) fun b hb => ?_
    obtain ⟨g, hg, rfl⟩ := List.mem_map.mp hb
    obtain ⟨p, hp, hpg⟩ := List.mem_filterMap.mp hg
    exact hm p (List.mem_of_mem_take hp) g hpg
  conv_rhs => rw [modelBounds, ← m.objects.take_append_drop i]
  rw [modelBounds, adding]
  simp only [List.filterMap_append, List.filterMap_cons_some hg, List.foldl_append,
    List.foldl_cons, hb, Box.union_empty hfold]

end Model

namespace Detection

variable {d : Detection} {side : Side} {o : Object}

lemma bounds_adding_of_empty {g : Geometry} (hg : o.geometry = some g) (hb : g.bounds = .empty)
    (hm : ∀ p ∈ (d.model side).objects, ∀ g, p.geometry = some g → g.bounds.IsNumeric) (i : ℕ) :
    (d.adding side i o).bounds = d.bounds := by
  have hmetres : ((d.model side).adding i o).boundsInMetres = (d.model side).boundsInMetres := by
    rw [Model.boundsInMetres, Model.boundsInMetres, Model.modelBounds_adding hg hb hm i]
    rfl
  rw [bounds, bounds, other, other, isSelfCheck_adding]
  cases side with
  | first =>
    rw [model] at hmetres
    simp only [adding, apply_ite Model.boundsInMetres, hmetres]
  | second =>
    rw [model] at hmetres
    simp only [adding, apply_ite Model.boundsInMetres, hmetres]

/-- What another object does to a run. One that is not indexed only counts, and its box has a part
in the box of the whole: if that stays the same, so do all results. One that is indexed counts as
such. If the box of the whole is no longer finite, there is no result. -/
theorem run_adding_exact (hside : side = .second → d.isSelfCheck = false) (i : ℕ)
    (signals : Signals) :
    let d' := d.adding side i o
    ((d.model side).Skips o →
        d'.run signals = (d.runWithin signals d'.bounds).map Outcome.skipping ∧
          (d'.bounds = d.bounds → d'.run signals = (d.run signals).map Outcome.skipping)) ∧
      (¬ (d.model side).Skips o → ¬ d.bounds.IsEmpty → ¬ d'.bounds.IsEmpty →
        ∀ r r', d.run signals = .ok r → d'.run signals = .ok r' →
          r'.results.metrics.objectsWithGeometry = r.results.metrics.objectsWithGeometry + 1) ∧
      (d.rules.fault? = none → ¬ d'.bounds.IsEmpty → ¬ d'.bounds.IsFinite →
        d'.run signals = .error (.geometry (.unusableRoot d'.bounds))) := by
  intro d'
  refine ⟨fun ho => ?_, fun ho he he' r r' hr hr' => ?_, fun hrules he hf => ?_⟩
  · have hrun := run_adding hside ho i signals
    refine ⟨hrun, fun hb => ?_⟩
    rw [hrun, hb, ← run_eq_runWithin]
  · rw [indexed_of_run hr he, indexed_of_run hr' he', length_items_of_indexed hside ho]
  · exact run_of_unbounded (by rwa [rules_adding]) he hf signals

def hollow : Object :=
  { id := 3, typeName := "Tile", geometry := some { id := 9, bounds := .empty } }

theorem run_adding_exact_hollow : ∃ o, pinnedCheck.run (.constant false) = .ok o ∧
    (pinnedCheck.adding .first 1 hollow).run (.constant false) = .ok o.skipping := by
  obtain ⟨o, hrun, -⟩ := exists_run_pinnedCheck
  have hskips : (pinnedCheck.model .first).Skips hollow := Model.skips_of_empty rfl rfl
  have hnumeric : ∀ p ∈ (pinnedCheck.model .first).objects, ∀ g, p.geometry = some g →
      g.bounds.IsNumeric := by
    intro p hp g hg
    obtain ⟨hl, hh⟩ := (wellFormed_pinned.boxes p hp g hg).1
    exact ⟨hl.numeric, hh.numeric⟩
  have hside : Side.first = .second → pinnedCheck.isSelfCheck = false := fun h => nomatch h
  obtain ⟨hadding, -, -⟩ := run_adding_exact (o := hollow) hside 1 (.constant false)
  refine ⟨o, hrun, ?_⟩
  rw [(hadding hskips).2 (bounds_adding_of_empty rfl rfl hnumeric 1), hrun]
  rfl

def unbounded : Object :=
  { id := 3, typeName := "Tile",
    geometry := some { id := 9, bounds := ⟨⟨0, 0, 0⟩, ⟨1.0 / 0.0, 1, 1⟩⟩ } }

theorem run_fails_of_unbounded : (pinnedCheck.model .first).Skips unbounded ∧
    (∃ o, pinnedCheck.run (.constant false) = .ok o) ∧
    ∃ b, (pinnedCheck.adding .first 2 unbounded).run (.constant false) =
      .error (.geometry (.unusableRoot b)) := by
  obtain ⟨o, hrun, -⟩ := exists_run_pinnedCheck
  refine ⟨?_, ⟨o, hrun⟩, _, run_of_unbounded ?_ ?_ ?_ _⟩
  · intro g hg
    obtain rfl := Option.some.inj hg
    decide +kernel
  · exact fault?_eq_none (by decide +kernel) rfl
  · decide +kernel
  · decide +kernel

end Detection

end SolidClash
