import SolidClash.Proofs.Detection.Compare
import SolidClash.Proofs.Detection.Pairs
import SolidClash.Proofs.Rules.Filter

namespace SolidClash

/-- Objects have ids of their own, and boxes with corners in order; a declared box is not empty; and
geometries with one id are one geometry. -/
structure Model.WellFormed (m : Model) : Prop where
  ids : (m.objects.map Object.id).Nodup
  boxes : ∀ o ∈ m.objects, ∀ g, o.geometry = some g → g.bounds.IsFinite ∧ ¬ g.bounds.IsEmpty
  declared : ∀ b, m.bounds = some b → ¬ b.IsEmpty
  shared : ∀ o ∈ m.objects, ∀ o' ∈ m.objects, ∀ g g', o.geometry = some g → o'.geometry = some g' →
    g.id = g'.id → g.place = g'.place ∧ g.data = g'.data

lemma Model.WellFormed.isProper {m : Model} (h : m.WellFormed) {o : Object} (ho : o ∈ m.objects)
    {g : Geometry} (hg : o.geometry = some g) : m.boundsInMetres.IsProper := by
  have hne : ¬ m.modelBounds.IsEmpty := by
    rw [modelBounds]
    cases hb : m.bounds with
    | some b => exact h.declared b hb
    | none =>
      have hmem : g ∈ m.objects.filterMap Object.geometry := List.mem_filterMap.mpr ⟨o, ho, hg⟩
      obtain ⟨gs, g', hgs⟩ := (List.eq_nil_or_concat _).resolve_left (List.ne_nil_of_mem hmem)
      have hmem' : g' ∈ m.objects.filterMap Object.geometry := by simp [hgs]
      obtain ⟨o', ho', hg'⟩ := List.mem_filterMap.mp hmem'
      obtain ⟨hf, he⟩ := h.boxes o' ho' g' hg'
      rw [Option.getD_none, hgs, List.concat_eq_append, List.foldl_append]
      exact ((hf.isProper he).union _).not_isEmpty
  rw [boundsInMetres]
  rw [if_neg hne]
  exact Box.isProper_scaled _ _

namespace Detection

lemma mem_indexable {m : Model} {side : Side} {types : List TypeId} {e : Entry}
    (h : e ∈ (indexable m side types).1) :
    e.value.side = side ∧ e.value.object ∈ m.objects ∧
      e.value.object.geometry = some e.value.geometry := by
  simp only [indexable, List.mem_filterMap, List.mem_map, Prod.exists, id_eq] at h
  obtain ⟨_, ⟨o, type, ho, rfl⟩, he⟩ := h
  obtain ⟨g, hg, he⟩ := Option.bind_eq_some_iff.mp he
  split at he
  · simp at he
  · obtain rfl := Option.some.inj he
    exact ⟨rfl, (List.of_mem_zip ho).1, hg⟩

lemma ids_sublist {f : Object × TypeId → Option Entry}
    (hf : ∀ p e, f p = some e → e.value.object = p.1) (os : List Object) (types : List TypeId) :
    (((os.zip types).filterMap f).map fun e => e.value.object.id).Sublist (os.map Object.id) := by
  induction os generalizing types with
  | nil => simp
  | cons o os ih =>
    cases types with
    | nil => simp
    | cons type types =>
      rw [List.zip_cons_cons, List.filterMap_cons, List.map_cons]
      cases he : f (o, type) with
      | none => exact (ih types).cons _
      | some e =>
        rw [List.map_cons, hf _ e he]
        exact (ih types).cons_cons _

lemma ids_indexable (m : Model) (side : Side) (types : List TypeId) :
    ((indexable m side types).1.map fun e => e.value.object.id).Sublist
      (m.objects.map Object.id) := by
  rw [indexable, List.filterMap_map]
  refine ids_sublist (fun p e he => ?_) _ _
  obtain ⟨g, _, he⟩ := Option.bind_eq_some_iff.mp he
  dsimp only at he
  split at he
  · simp at he
  · obtain rfl := Option.some.inj he
    rfl

variable (d : Detection)

def items : Side → List Entry × ℕ
  | .first => indexable d.first .first d.resolved.2.1
  | .second => if d.isSelfCheck then ([], 0) else indexable d.second .second d.resolved.2.2

variable {d} in
lemma items_second_within (h : d.isSelfCheck = true) : d.items .second = ([], 0) := if_pos h

variable {d} in
lemma items_second_across (h : d.isSelfCheck = false) :
    d.items .second = indexable d.second .second d.resolved.2.2 := by
  simp [items, h]

lemma length_types_first : d.resolved.2.1.length = d.first.objects.length := by
  rw [resolved]
  cases d.isSelfCheck <;> exact TypeFilter.length_resolveAll _ _

variable {d} in
lemma length_types_second (h : d.isSelfCheck = false) :
    d.resolved.2.2.length = d.second.objects.length := by
  simp only [resolved, h]
  exact TypeFilter.length_resolveAll _ _

lemma holds_resolved : d.resolved.1.Holds (.ofRules d.rules) (TypeFilter.ownTypeOnlyNames d.rules)
      (TypeFilter.ignoredNames d.rules) (TypeFilter.checkedNames d.rules) ∧
    List.Forall₂ (fun o id => d.resolved.1.Number ((TypeSource.ofRules d.rules).nameOf o) id)
      d.first.objects d.resolved.2.1 := by
  have hfirst := (TypeFilter.holds_ofRules d.rules).resolveAll d.first.objects
  rw [resolved]
  cases d.isSelfCheck with
  | true => exact ⟨hfirst.1, hfirst.2.2⟩
  | false =>
    have hsecond := hfirst.1.resolveAll d.second.objects
    exact ⟨hsecond.1, hfirst.2.2.imp fun o id h => hsecond.2.1 _ _ h⟩

variable {d} in
lemma numbers_second (h : d.isSelfCheck = false) :
    List.Forall₂ (fun o id => d.resolved.1.Number ((TypeSource.ofRules d.rules).nameOf o) id)
      d.second.objects d.resolved.2.2 := by
  have hfirst := (TypeFilter.holds_ofRules d.rules).resolveAll d.first.objects
  rw [resolved, h]
  exact (hfirst.1.resolveAll d.second.objects).2.2

def entries : List Entry := (d.items .first).1 ++ (d.items .second).1

def setting : Setting :=
  { rules := d.rules, options := d.options, solver := d.solver, filter := d.resolved.1
    first := d.first, second := d.other, selfCheck := d.isSelfCheck
    secondCount :=
      if d.isSelfCheck then (d.items .first).1.length else (d.items .second).1.length }

def start : Progress :=
  { tally :=
      { results :=
          { d.blank with
            metrics :=
              { totalObjects := d.objectCount
                objectsWithGeometry := (d.items .first).1.length + (d.items .second).1.length
                objectsWithoutGeometry := (d.items .first).2 + (d.items .second).2
                totalCombinations := (d.items .first).1.length * d.setting.secondCount } } }
    monitor := .new d.options.progressInterval }

def tree? (box : Box Float) : Except (OctreeError Float) Index := do
  (← Octree.new box d.options.maxOctreeDepth).insertAll d.entries

def order : List Entry :=
  match d.tree? d.bounds with
  | .ok tree => orderOf tree
  | .error _ => d.entries

lemma runIn_eq (signals : Signals) (box : Box Float) :
    d.runIn signals box =
      match d.tree? box with
      | .error e => .error (.geometry e)
      | .ok tree =>
        .ok (conclude (d.start.run d.setting signals (Step.schedule d.setting tree))) := rfl

variable {d}

lemma exists_tree {box : Box Float} (hb : ¬ box.IsEmpty) (hf : box.IsFinite)
    (h : ∀ e ∈ d.entries, box.Fits e.bounds) : ∃ tree, d.tree? box = .ok tree :=
  Octree.exists_insertAll hb hf _ h

lemma exists_run {signals : Signals} (hrules : d.rules.fault? = none) (hb : ¬ d.bounds.IsEmpty)
    (hf : d.bounds.IsFinite) (h : ∀ e ∈ d.entries, d.bounds.Fits e.bounds)
    (hc : ∀ k, signals.cancelled k = false) :
    ∃ o, d.run signals = .ok o ∧ o.results.state = .finished := by
  obtain ⟨tree, ht⟩ := exists_tree hb hf h
  refine ⟨conclude (d.start.run d.setting signals (Step.schedule d.setting tree)), ?_, ?_⟩
  · simp only [run, Rules.validate, hrules, hb, ↓reduceIte, runIn_eq, ht]
  · simp [conclude, Progress.not_cancelled_run hc d.setting _ (p := d.start) rfl]

end Detection

end SolidClash
