import SolidClash.Proofs.Weld.Number
import SolidClash.Report
import Std.Data.String.ToNat

namespace SolidClash

lemma Pair.text_injective : Function.Injective Pair.text := by
  have hdigits (n : UInt64) : ∀ c ∈ (toString n.toNat).toList, c.isDigit = true :=
    fun c hc => Nat.isDigit_of_mem_toDigits (b := 10) (n := n.toNat) (by decide) (by decide)
      (by simpa using hc)
  have hlow (p : Pair) : p.text.toList.takeWhile Char.isDigit = (toString p.low.toNat).toList := by
    simp only [Pair.text, String.toList_append, List.append_assoc]
    rw [List.takeWhile_append_of_pos (hdigits p.low)]
    simp
  have hhigh (p : Pair) :
      p.text.toList.dropWhile Char.isDigit = '_' :: (toString p.high.toNat).toList := by
    simp only [Pair.text, String.toList_append, List.append_assoc]
    rw [List.dropWhile_append_of_pos (hdigits p.low)]
    simp
  have hinj {m n : UInt64} (h : (toString m.toNat).toList = (toString n.toNat).toList) : m = n :=
    UInt64.toNat_inj.mp (Nat.repr_injective (String.toList_injective h))
  intro p q h
  have hl : p.low = q.low := hinj (by rw [← hlow, ← hlow, h])
  have hh : p.high = q.high := hinj (List.cons.inj ((hhigh p).symm.trans (h ▸ hhigh q))).2
  cases p
  cases q
  simp_all

namespace ClashMeshes

section Layout

variable {α : Type}

def drawn (vs : List (Pair × ClashVolume α)) : List (Pair × Mesh α) :=
  vs.filterMap fun (p, v) => (v.solid.filter fun m => ¬ m.IsEmpty).map (p, ·)

def cornersOf (ds : List (Pair × Mesh α)) : List (Vec α) :=
  ds.flatMap fun d => d.2.triangles.flatMap Triangle.corners

def laid (start : ℕ) : List (Pair × Mesh α) → List (String × VisibleRange)
  | [] => []
  | (p, m) :: ds =>
    let count := 3 * m.triangles.length
    (p.text, ⟨start, count⟩) :: laid (start + count) ds

def measured (vs : List (Pair × ClashVolume α)) : List (String × α) :=
  vs.map fun (p, v) => (p.text, v.volume)

lemma length_cornersOf_cons (d : Pair × Mesh α) (ds : List (Pair × Mesh α)) :
    (cornersOf (d :: ds)).length = 3 * d.2.triangles.length + (cornersOf ds).length := by
  simp [cornersOf, Triangle.corners, List.length_flatMap, Nat.mul_comm]

lemma laid_append (start : ℕ) (ds es : List (Pair × Mesh α)) :
    laid start (ds ++ es) = laid start ds ++ laid (start + (cornersOf ds).length) es := by
  induction ds generalizing start with
  | nil => rfl
  | cons d ds ih =>
    simp only [List.cons_append, laid, ih, length_cornersOf_cons, Nat.add_assoc]

variable [Scalar α]

lemma add_eq (w : Weld α) (m : ClashMeshes α) (p : Pair) (v : ClashVolume α) :
    add w m p v = ((w.insertAll (cornersOf (drawn [(p, v)]))).2,
      { m with
        indices := m.indices ++ (w.insertAll (cornersOf (drawn [(p, v)]))).1
        volumes := m.volumes.insertMany (measured [(p, v)])
        visibleRanges :=
          m.visibleRanges.insertMany (laid m.indices.length (drawn [(p, v)])) }) := by
  rw [add]
  cases hv : v.solid with
  | none => simp [drawn, hv, cornersOf, Weld.insertAll, laid, measured]
  | some solid =>
    by_cases hs : solid.IsEmpty
    · simp [drawn, hv, hs, cornersOf, Weld.insertAll, laid, measured]
    · have hdrawn : drawn [(p, v)] = [(p, solid)] := by simp [drawn, hv, hs]
      have hcorners : cornersOf [(p, solid)] = solid.triangles.flatMap Triangle.corners := by
        simp [cornersOf]
      have hlength := length_cornersOf_cons (p, solid) []
      rw [hcorners] at hlength
      simp only [hs, hdrawn, hcorners, ↓reduceIte, Weld.length_insertAll, hlength]
      simp [cornersOf, laid, measured]

lemma addAll_eq (w : Weld α) (m : ClashMeshes α) (vs : List (Pair × ClashVolume α)) :
    addAll w m vs = ((w.insertAll (cornersOf (drawn vs))).2,
      { m with
        indices := m.indices ++ (w.insertAll (cornersOf (drawn vs))).1
        volumes := m.volumes.insertMany (measured vs)
        visibleRanges := m.visibleRanges.insertMany (laid m.indices.length (drawn vs)) }) := by
  induction vs generalizing w m with
  | nil => simp [addAll, drawn, cornersOf, Weld.insertAll, laid, measured]
  | cons pv vs ih =>
    have hdrawn : drawn (pv :: vs) = drawn [pv] ++ drawn vs :=
      List.filterMap_append (l := [pv])
    have hcorners : cornersOf (drawn (pv :: vs)) =
        cornersOf (drawn [pv]) ++ cornersOf (drawn vs) := by
      rw [hdrawn, cornersOf, List.flatMap_append]
      rfl
    have hmeasured : measured (pv :: vs) = measured [pv] ++ measured vs := rfl
    rw [addAll, add_eq, hcorners, Weld.insertAll_append, hmeasured, hdrawn, laid_append]
    simp only [ih, List.append_assoc, List.length_append, Weld.length_insertAll,
      Std.ExtTreeMap.insertMany_append]

lemma ofVolumes_eq (tolerance : α) (vs : Std.ExtTreeMap Pair (ClashVolume α)) :
    ofVolumes tolerance vs =
      { indices := ((Weld.new tolerance).insertAll (cornersOf (drawn vs.toList))).1
        positions :=
          ((Weld.new tolerance).insertAll (cornersOf (drawn vs.toList))).2.coordinates millimetres
        volumes := .ofList (measured vs.toList)
        visibleRanges := .ofList (laid 0 (drawn vs.toList)) } := by
  rw [ofVolumes, addAll_eq]
  simp [Std.ExtTreeMap.ofList_eq_insertMany_empty]

omit [Scalar α] in
lemma map_fst_laid (start : ℕ) (ds : List (Pair × Mesh α)) :
    (laid start ds).map Prod.fst = ds.map fun d => d.1.text := by
  induction ds generalizing start with
  | nil => rfl
  | cons d ds ih => simp only [laid, List.map_cons, ih]

def Tiles : ℕ → List VisibleRange → ℕ → Prop
  | start, [], stop => start = stop
  | start, r :: rs, stop => r.offset = start ∧ Tiles (start + r.count) rs stop

omit [Scalar α] in
lemma tiles_laid (start : ℕ) (ds : List (Pair × Mesh α)) :
    Tiles start ((laid start ds).map Prod.snd) (start + (cornersOf ds).length) := by
  induction ds generalizing start with
  | nil => rfl
  | cons d ds ih =>
    rw [length_cornersOf_cons, ← Nat.add_assoc]
    exact ⟨rfl, ih _⟩

def slice (indices : List ℕ) (r : VisibleRange) : List ℕ := (indices.drop r.offset).take r.count

omit [Scalar α] in
lemma forall₂_laid {R : ℕ → Vec α → Prop} {indices : List ℕ} {start : ℕ}
    {ds : List (Pair × Mesh α)} (h : List.Forall₂ R (indices.drop start) (cornersOf ds)) :
    List.Forall₂ (fun d e => e.1 = d.1.text ∧ e.2.count = 3 * d.2.triangles.length ∧
      List.Forall₂ R (slice indices e.2) (d.2.triangles.flatMap Triangle.corners))
      ds (laid start ds) := by
  induction ds generalizing start with
  | nil => exact .nil
  | cons d ds ih =>
    have hlength : (d.2.triangles.flatMap Triangle.corners).length = 3 * d.2.triangles.length := by
      simp [Triangle.corners, List.length_flatMap, Nat.mul_comm]
    have htake := List.forall₂_take_append _ _ _ h
    have hdrop := List.forall₂_drop_append _ _ _ h
    rw [hlength] at htake
    rw [hlength, List.drop_drop] at hdrop
    exact .cons ⟨rfl, rfl, htake⟩ (ih hdrop)

omit [Scalar α] in
lemma mem_drawn {vs : List (Pair × ClashVolume α)} {p : Pair} {solid : Mesh α} :
    (p, solid) ∈ drawn vs ↔ ∃ v, (p, v) ∈ vs ∧ v.solid = some solid ∧ ¬ solid.IsEmpty := by
  simp only [drawn, List.mem_filterMap, Prod.exists]
  constructor
  · rintro ⟨q, v, hv, hmap⟩
    obtain ⟨s, hs, heq⟩ := Option.map_eq_some_iff.mp hmap
    obtain ⟨hs, hne⟩ := Option.filter_eq_some_iff.mp hs
    obtain ⟨rfl, rfl⟩ := Prod.mk.inj heq
    exact ⟨v, hv, hs, by simpa using hne⟩
  · rintro ⟨v, hv, hs, hne⟩
    exact ⟨p, v, hv, by simp [hs, hne]⟩

end Layout

noncomputable def point? (positions : List ℝ) (i : ℕ) : Option (Vec ℝ) :=
  match positions[3 * i]?, positions[3 * i + 1]?, positions[3 * i + 2]? with
  | some x, some y, some z => some ⟨x / 1000, y / 1000, z / 1000⟩
  | _, _, _ => none

lemma length_coordinates (w : Weld ℝ) : (w.coordinates millimetres).length = 3 * w.points.size := by
  simp [Weld.coordinates, Vec.toList, List.length_flatMap, Nat.mul_comm]

lemma point?_coordinates (w : Weld ℝ) (i : ℕ) :
    point? (w.coordinates millimetres) i = w.points[i]? := by
  have hlist (ps : List (Vec ℝ)) (i : ℕ) :
      point? (ps.flatMap fun p => (p.scale millimetres).toList) i = ps[i]? := by
    induction ps generalizing i with
    | nil => simp [point?]
    | cons p ps ih =>
      cases i with
      | zero =>
        have hback (x : ℝ) : x * 1000.0 / 1000 = x := by norm_num
        simp [point?, Vec.toList, Vec.scale, Vec.map, millimetres, hback]
      | succ i => simpa [point?, Vec.toList, Nat.mul_add] using ih i
  rw [Weld.coordinates, hlist, Array.getElem?_toList]

def Close (tolerance : ℝ) (p q : Vec ℝ) : Prop :=
  |q.x - p.x| ≤ tolerance ∧ |q.y - p.y| ≤ tolerance ∧ |q.z - p.z| ≤ tolerance

def Draws (tolerance : ℝ) (m : ClashMeshes ℝ) (i : ℕ) (corner : Vec ℝ) : Prop :=
  ∃ q, point? m.positions i = some q ∧ Close tolerance corner q

/-- The meshes are those of the pairs, with their volumes. -/
structure Reproduces (tolerance : ℝ) (m : ClashMeshes ℝ)
    (vs : Std.ExtTreeMap Pair (ClashVolume ℝ)) : Prop where
  volume : ∀ p : Pair, m.volumes[p.text]? = vs[p]?.map ClashVolume.volume
  exists_of_volume : ∀ text ∈ m.volumes, ∃ p ∈ vs, p.text = text
  size_volumes : m.volumes.size = vs.size
  mem_drawn : ∀ p solid, (p, solid) ∈ drawn vs.toList ↔
    ∃ v, vs[p]? = some v ∧ v.solid = some solid ∧ ¬ solid.IsEmpty
  ascending : (drawn vs.toList).Pairwise fun d e =>
    d.1.low < e.1.low ∨ d.1.low = e.1.low ∧ d.1.high < e.1.high
  ranges : ∃ rs : List VisibleRange,
    List.Forall₂ (fun d r => m.visibleRanges[d.1.text]? = some r ∧
      r.count = 3 * d.2.triangles.length ∧
      List.Forall₂ (Draws tolerance m) (slice m.indices r)
        (d.2.triangles.flatMap Triangle.corners)) (drawn vs.toList) rs ∧
    Tiles 0 rs m.indices.length
  exists_of_range : ∀ text ∈ m.visibleRanges, ∃ d ∈ drawn vs.toList, d.1.text = text
  size_ranges : m.visibleRanges.size = (drawn vs.toList).length
  index_lt : ∀ i ∈ m.indices, i < m.positions.length / 3
  welded : ∀ i ∈ m.indices, ∃ q ∈ cornersOf (drawn vs.toList), point? m.positions i = some q ∧
    ∀ p, Draws tolerance m i p → Close tolerance p q

lemma distinct_measured {α : Type} (vs : Std.ExtTreeMap Pair (ClashVolume α)) :
    (measured vs.toList).Pairwise fun a b => ¬ compare a.1 b.1 = .eq := by
  refine List.pairwise_map.mpr (vs.distinct_keys_toList.imp fun h heq => h ?_)
  rw [Std.LawfulEqCmp.compare_eq_iff_eq] at heq ⊢
  exact Pair.text_injective heq

lemma ascending_drawn {α : Type} (vs : Std.ExtTreeMap Pair (ClashVolume α)) :
    (drawn vs.toList).Pairwise fun d e =>
      d.1.low < e.1.low ∨ d.1.low = e.1.low ∧ d.1.high < e.1.high := by
  refine List.pairwise_filterMap.mpr (vs.ordered_keys_toList.imp fun {pv qv} h => ?_)
  intro d hd e he
  obtain ⟨s, -, rfl⟩ := Option.map_eq_some_iff.mp hd
  obtain ⟨t, -, rfl⟩ := Option.map_eq_some_iff.mp he
  rw [Pair.compare_def, Ordering.then_eq_lt] at h
  simpa [Std.compare_eq_lt] using h

lemma distinct_laid {α : Type} (vs : Std.ExtTreeMap Pair (ClashVolume α)) :
    (laid 0 (drawn vs.toList)).Pairwise fun a b => ¬ compare a.1 b.1 = .eq := by
  have hkeys : ((laid 0 (drawn vs.toList)).map Prod.fst).Nodup := by
    rw [map_fst_laid]
    refine List.pairwise_map.mpr ((ascending_drawn vs).imp fun h heq => ?_)
    obtain heq := Pair.text_injective heq
    rw [heq] at h
    simp at h
  refine (List.pairwise_map.mp hkeys).imp fun h heq => h ?_
  rwa [Std.LawfulEqCmp.compare_eq_iff_eq] at heq

lemma getElem?_ofList_iff {β : Type} {l : List (String × β)}
    (h : l.Pairwise fun a b => ¬ compare a.1 b.1 = .eq) {k : String} {v : β} :
    (Std.ExtTreeMap.ofList l)[k]? = some v ↔ (k, v) ∈ l := by
  have hof {u : β} (hu : (k, u) ∈ l) : (Std.ExtTreeMap.ofList l)[k]? = some u :=
    Std.ExtTreeMap.getElem?_ofList_of_mem (k := k) (by simp) h hu
  refine ⟨fun hv => ?_, hof⟩
  have hmem : k ∈ Std.ExtTreeMap.ofList l := by
    rw [Std.ExtTreeMap.mem_iff_isSome_getElem?, hv]
    rfl
  obtain ⟨u, hu⟩ : ∃ u, (k, u) ∈ l := by simpa using hmem
  rwa [Option.some.inj (hv.symm.trans (hof hu))]

lemma getElem?_measured {α : Type} (vs : Std.ExtTreeMap Pair (ClashVolume α)) (p : Pair) :
    (Std.ExtTreeMap.ofList (measured vs.toList))[p.text]? = vs[p]?.map ClashVolume.volume := by
  ext v
  rw [getElem?_ofList_iff (distinct_measured vs), measured, List.mem_map, Option.map_eq_some_iff]
  simp only [Prod.exists, Std.ExtTreeMap.mem_toList_iff_getElem?_eq_some, Prod.mk.injEq]
  constructor
  · rintro ⟨q, u, hu, htext, rfl⟩
    obtain rfl := Pair.text_injective htext
    exact ⟨u, hu, rfl⟩
  · rintro ⟨u, hu, rfl⟩
    exact ⟨p, u, hu, rfl, rfl⟩

lemma draws_ofVolumes {tolerance : ℝ} (h : 0 ≤ tolerance)
    (vs : Std.ExtTreeMap Pair (ClashVolume ℝ)) :
    List.Forall₂ (Draws tolerance (ofVolumes tolerance vs)) (ofVolumes tolerance vs).indices
      (cornersOf (drawn vs.toList)) := by
  have hnear := (Weld.filed_new tolerance).insertAll_near (Weld.self_mem_around_real _)
    (Weld.near_self_real _ h) (cornersOf (drawn vs.toList))
  rw [ofVolumes_eq]
  refine hnear.imp fun i p ⟨q, hq, hclose⟩ => ⟨q, ?_, ?_⟩
  · rw [point?_coordinates, hq]
  · simpa [Weld.Near, Weld.new, Close] using hclose

lemma exists_of_forall₂ {β γ : Type} {R : β → γ → Prop} {l : List β} {l' : List γ}
    (h : List.Forall₂ R l l') {b : β} (hb : b ∈ l) : ∃ c ∈ l', R b c := by
  induction h with
  | nil => simp at hb
  | @cons b' c bs cs hR _ ih =>
    rcases List.mem_cons.mp hb with rfl | hb
    · exact ⟨c, List.mem_cons_self, hR⟩
    · obtain ⟨c, hc, hR⟩ := ih hb
      exact ⟨c, List.mem_cons_of_mem _ hc, hR⟩

lemma point?_of_mem {tolerance : ℝ} (h : 0 ≤ tolerance)
    (vs : Std.ExtTreeMap Pair (ClashVolume ℝ)) {i : ℕ}
    (hi : i ∈ (ofVolumes tolerance vs).indices) :
    i < (ofVolumes tolerance vs).positions.length / 3 ∧
      ∃ q ∈ cornersOf (drawn vs.toList), point? (ofVolumes tolerance vs).positions i = some q := by
  obtain ⟨_, -, q, hq, -⟩ := exists_of_forall₂ (draws_ofVolumes h vs) hi
  rw [ofVolumes_eq] at hq ⊢
  rw [length_coordinates]
  rw [point?_coordinates] at hq ⊢
  obtain ⟨hlt, -⟩ := Array.getElem?_eq_some_iff.mp hq
  have hmem := Weld.mem_points_insertAll (Array.mem_of_getElem? hq)
  refine ⟨by omega, q, ?_, hq⟩
  simpa [Weld.new] using hmem

lemma reproduces_ofVolumes {tolerance : ℝ} (h : 0 ≤ tolerance)
    (vs : Std.ExtTreeMap Pair (ClashVolume ℝ)) :
    Reproduces tolerance (ofVolumes tolerance vs) vs := by
  have hdraws := draws_ofVolumes h vs
  have hlaid := @forall₂_laid _ _ _ 0 _ hdraws
  have hvolumes : (ofVolumes tolerance vs).volumes = .ofList (measured vs.toList) := by
    rw [ofVolumes_eq]
  have hranges : (ofVolumes tolerance vs).visibleRanges = .ofList (laid 0 (drawn vs.toList)) := by
    rw [ofVolumes_eq]
  refine
    { volume := fun p => hvolumes ▸ getElem?_measured vs p
      exists_of_volume := fun text htext => ?_
      size_volumes := ?_
      mem_drawn := fun p solid => by
        simp only [mem_drawn, Std.ExtTreeMap.mem_toList_iff_getElem?_eq_some]
      ascending := ascending_drawn vs
      ranges := ⟨(laid 0 (drawn vs.toList)).map Prod.snd, ?_, ?_⟩
      exists_of_range := fun text htext => ?_
      size_ranges := ?_
      index_lt := fun i hi => (point?_of_mem h vs hi).1
      welded := fun i hi => ?_ }
  · rw [hvolumes, Std.ExtTreeMap.mem_ofList, List.contains_iff_mem, measured] at htext
    obtain ⟨_, hmem, rfl⟩ := List.mem_map.mp htext
    obtain ⟨⟨p, v⟩, hp, rfl⟩ := List.mem_map.mp hmem
    rw [Std.ExtTreeMap.mem_toList_iff_getElem?_eq_some] at hp
    exact ⟨p, Std.ExtTreeMap.mem_iff_isSome_getElem?.mpr (by rw [hp]; rfl), rfl⟩
  · rw [hvolumes, Std.ExtTreeMap.size_ofList (distinct_measured vs), measured, List.length_map,
      Std.ExtTreeMap.length_toList]
  · rw [List.forall₂_map_right_iff, List.forall₂_iff_zip]
    refine ⟨hlaid.length_eq, fun {d e} hde => ?_⟩
    obtain ⟨htext, hcount, hread⟩ := List.forall₂_zip hlaid hde
    refine ⟨?_, hcount, hread⟩
    rw [hranges, ← htext, getElem?_ofList_iff (distinct_laid vs)]
    exact (List.of_mem_zip hde).2
  · rw [hdraws.length_eq]
    simpa using tiles_laid 0 (drawn vs.toList)
  · rw [hranges, Std.ExtTreeMap.mem_ofList, map_fst_laid] at htext
    simpa using htext
  · rw [hranges, Std.ExtTreeMap.size_ofList (distinct_laid vs), ← List.length_map Prod.fst,
      map_fst_laid, List.length_map]
  · obtain ⟨-, q, hmem, hq⟩ := point?_of_mem h vs hi
    refine ⟨q, hmem, hq, fun p ⟨q', hq', hclose⟩ => ?_⟩
    rwa [Option.some.inj (hq.symm.trans hq')]

end ClashMeshes

namespace Report

def Lists (lists : Std.ExtTreeMap UInt64 (List UInt64)) (g : Adjacency) : Prop :=
  ∀ id, (id ∈ lists ↔ id ∈ g) ∧ ∀ others, lists[id]? = some others →
    others.Pairwise (· < ·) ∧ ∀ other, other ∈ others ↔ other ∈ g.others id

lemma lists_adjacencyLists (g : Adjacency) : Lists (adjacencyLists g) g := by
  intro id
  refine ⟨Std.ExtTreeMap.mem_map, fun others h => ?_⟩
  rw [adjacencyLists, Std.ExtTreeMap.getElem?_map, Option.map_eq_some_iff] at h
  obtain ⟨s, hs, rfl⟩ := h
  refine ⟨s.ordered_toList.imp Std.compare_eq_lt.mp, fun other => ?_⟩
  rw [Std.ExtTreeSet.mem_toList, Adjacency.others, Std.ExtTreeMap.getD_eq_getD_getElem?, hs,
    Option.getD_some]

/-- A report repeats the clash graph, and its meshes are the solids of the results, each under the
text of its pair, which no other pair shares. -/
theorem reproduces_ofResults {tolerance : ℝ} (h : 0 ≤ tolerance) (r : Results ℝ) :
    Function.Injective Pair.text ∧
      ClashMeshes.Reproduces tolerance (ofResults tolerance r).meshes r.volumes ∧
      Lists (ofResults tolerance r).left r.left ∧ Lists (ofResults tolerance r).right r.right :=
  ⟨Pair.text_injective, ClashMeshes.reproduces_ofVolumes h r.volumes, lists_adjacencyLists r.left,
    lists_adjacencyLists r.right⟩

noncomputable def cubes : Results ℝ :=
  let r : Results ℝ := { model1 := 1, model2 := 1, selfCheck := true }
  ((r.addClash 2 1).addClash 3 1).setVolume 2 1 (.ofSolid (.cuboid ⟨0, 0, 0⟩ ⟨1, 1, 1⟩))
    |>.setVolume 1 3 (.ofSolid (.cuboid ⟨1, 0, 0⟩ ⟨2, 1, 1⟩))

lemma drawn_cubes : ClashMeshes.drawn cubes.volumes.toList =
    [(.of 1 2, .cuboid ⟨0, 0, 0⟩ ⟨1, 1, 1⟩), (.of 1 3, .cuboid ⟨1, 0, 0⟩ ⟨2, 1, 1⟩)] := by
  rfl

theorem reproduces_ofResults_cubes : (0 : ℝ) ≤ 1 / 10000 ∧
    (ofResults (1 / 10000) cubes).meshes.indices.length = 72 ∧
    (ofResults (1 / 10000) cubes).meshes.visibleRanges["1_2"]? = some ⟨0, 36⟩ ∧
    (ofResults (1 / 10000) cubes).meshes.visibleRanges["1_3"]? = some ⟨36, 36⟩ := by
  have htolerance : (0 : ℝ) ≤ 1 / 10000 := by norm_num
  obtain ⟨-, hmeshes, -⟩ := reproduces_ofResults htolerance cubes
  obtain ⟨rs, hrs, htiles⟩ := hmeshes.ranges
  rw [drawn_cubes] at hrs
  obtain _ | @⟨_, ⟨start, count⟩, _, _, ⟨hfirst, hcount, -⟩,
    _ | @⟨_, ⟨start', count'⟩, _, _, ⟨hsecond, hcount', -⟩, _ | _⟩⟩ := hrs
  obtain ⟨hstart, hstart', htotal⟩ := htiles
  obtain rfl : count = 36 := hcount
  obtain rfl : count' = 36 := hcount'
  obtain rfl : start = 0 := hstart
  obtain rfl : start' = 36 := hstart'
  exact ⟨htolerance, htotal.symm, hfirst, hsecond⟩

end Report

end SolidClash
