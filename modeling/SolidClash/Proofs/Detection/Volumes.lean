import Mathlib.Data.List.Dedup
import SolidClash.Proofs.Detection.Findings
import SolidClash.Proofs.Detection.Graph
import SolidClash.Proofs.Detection.Notes
import SolidClash.Proofs.Detection.Once
import SolidClash.Proofs.Mesh.Watertight

/-! A volume is kept under the two ids in order, so two pairs of a run share a place only if one is
the other with the ids swapped. -/

namespace SolidClash

lemma Pair.of_eq_of {a b c d : UInt64} :
    of a b = of c d ↔ (a = c ∧ b = d) ∨ (a = d ∧ b = c) := by
  constructor
  · intro h
    unfold of at h
    split at h <;> split at h <;> simp only [Pair.mk.injEq] at h <;> grind
  · rintro (⟨rfl, rfl⟩ | ⟨rfl, rfl⟩)
    · rfl
    · exact of_comm _ _

def Finding.ids (f : Finding) : Pair := .of f.anchor f.other

section Fold

variable {fs : List Finding} {r : Results Float} {k : Pair}

lemma Results.volumes_enter (r : Results Float) (f : Finding) :
    (r.enter f).volumes = f.volume.elim r.volumes fun v => r.volumes.insert f.ids v := by
  rw [enter]
  cases f.volume <;> rfl

def volumesAt (k : Pair) (fs : List Finding) : List (ClashVolume Float) :=
  (fs.filter fun f => f.ids = k).filterMap Finding.volume

lemma volumesAt_append (fs gs : List Finding) :
    volumesAt k (fs ++ gs) = volumesAt k fs ++ volumesAt k gs := by
  rw [volumesAt, List.filter_append, List.filterMap_append]
  rfl

lemma volume_foldl :
    (fs.foldl Results.enter r).volumes[k]? = (volumesAt k fs).getLast?.or r.volumes[k]? := by
  induction fs using List.reverseRecOn with
  | nil => simp [volumesAt]
  | append_singleton fs f ih =>
    rw [List.foldl_append, List.foldl_cons, List.foldl_nil, Results.volumes_enter,
      volumesAt_append, List.getLast?_append, Option.or_assoc, ← ih]
    by_cases hk : f.ids = k
    · cases hv : f.volume <;> simp [volumesAt, hk, hv]
    · cases hv : f.volume <;> simp [volumesAt, hk, Std.ExtTreeMap.getElem?_insert]

lemma mem_volumes_foldl (hr : r.volumes = ∅) :
    k ∈ (fs.foldl Results.enter r).volumes ↔ ∃ v, v ∈ volumesAt k fs := by
  rw [Std.ExtTreeMap.mem_iff_isSome_getElem?, volume_foldl, hr]
  cases h : volumesAt k fs with
  | nil => simp
  | cons v vs => simp [List.getLast?_cons]

lemma mem_left_foldl {x y : UInt64} :
    y ∈ Adjacency.others (fs.foldl Results.enter r).left x ↔
      y ∈ Adjacency.others r.left x ∨ ∃ f ∈ fs, (x = f.anchor ∧ y = f.other) ∨
        (r.selfCheck = true ∧ x = f.other ∧ y = f.anchor) := by
  induction fs generalizing r with
  | nil => simp
  | cons f fs ih =>
    have hself : (r.enter f).selfCheck = r.selfCheck := by
      rw [Results.enter]
      cases f.volume <;> rfl
    have hleft : (r.enter f).left = (r.addClash f.anchor f.other).left := by
      rw [Results.enter]
      cases f.volume <;> rfl
    rw [List.foldl_cons, ih, hleft, hself, r.mem_left_addClash, or_assoc,
      List.exists_mem_cons_iff]

end Fold

namespace Detection

namespace Examination

def ids (e : Examination) : Pair := .of e.anchor.value.object.id e.candidate.value.object.id

def volume? (solve : Solver) (e : Examination) : Option (ClashVolume Float) :=
  (e.solid? solve).map .ofSolid

/-- Two examinations are of one another's ids, swapped. -/
def Mirrors (e e' : Examination) : Prop :=
  e.anchor.value.object.id = e'.candidate.value.object.id ∧
    e.candidate.value.object.id = e'.anchor.value.object.id

lemma of_finding {s : Setting} {e : Examination} {f : Finding} (h : e.finding? s = some f) :
    f.anchor = e.anchor.value.object.id ∧ f.other = e.candidate.value.object.id := by
  rw [finding?, Tally.finding?] at h
  dsimp only at h
  split at h
  · split at h
    · obtain rfl := Option.some.inj h
      exact ⟨rfl, rfl⟩
    · simp at h
  · simp at h

end Examination

variable (d : Detection) (signals : Signals)

def measured (r : Results Float) : List Examination :=
  (d.examined signals).filter fun e =>
    (Adjacency.others r.left e.anchor.value.object.id).contains e.candidate.value.object.id &&
      (e.volume? d.solver).isSome

variable {d signals} {o : Outcome}

lemma volume_of_examined (hv : d.rules.computeVolumes = true) {e : Examination}
    (he : e ∈ d.examined signals) {f : Finding} (hf : e.finding? d.setting = some f) :
    f.volume = e.volume? d.solver := by
  obtain ⟨tree, ht⟩ := exists_tree_of_examined he
  rw [examined, examinations_ok ht] at he
  exact volume_finding (s := d.setting) hv he hf

lemma volume_isSome {r : Results Float} {e : Examination} (he : e ∈ d.measured signals r) :
    ∃ v, e.volume? d.solver = some v := by
  rw [measured, List.mem_filter, Bool.and_eq_true, Option.isSome_iff_exists] at he
  exact he.2.2

section Ids

variable (hfirst : (d.first.objects.map Object.id).Nodup)
  (hother : (d.other.objects.map Object.id).Nodup)

include hfirst hother

lemma recorded_iff (hrun : d.run signals = .ok o) {e : Examination} (he : e ∈ d.examined signals) :
    e.candidate.value.object.id ∈ Adjacency.others o.results.left e.anchor.value.object.id ↔
      (e.finding? d.setting).isSome = true := by
  obtain ⟨hleft, -⟩ := graph_run hrun
  have hnone (x y : UInt64) : y ∉ Adjacency.others d.blank.left x := by
    simp [blank, Adjacency.others]
  rw [hleft, mem_left_foldl, or_iff_right (hnone _ _)]
  constructor
  · rintro ⟨f, hf, hids⟩
    obtain ⟨e', he', hf⟩ := List.mem_filterMap.mp hf
    obtain ⟨hanchor, hcandidate⟩ := Examination.of_finding hf
    rw [hanchor, hcandidate] at hids
    rcases hids with ⟨h₁, h₂⟩ | ⟨hself, h₁, h₂⟩
    · rw [eq_of_mem_examined hfirst hother he he' h₁ h₂, hf]
      rfl
    · exact (not_swapped_of_mem_examined hfirst hother hself he he' h₁ h₂).elim
  · intro h
    obtain ⟨f, hf⟩ := Option.isSome_iff_exists.mp h
    obtain ⟨hanchor, hcandidate⟩ := Examination.of_finding hf
    exact ⟨f, List.mem_filterMap.mpr ⟨e, he, hf⟩, Or.inl ⟨hanchor.symm, hcandidate.symm⟩⟩

lemma eq_or_mirrors {e e' : Examination} (he : e ∈ d.measured signals o.results)
    (he' : e' ∈ d.measured signals o.results) (h : e'.ids = e.ids) : e' = e ∨ e'.Mirrors e := by
  rcases Pair.of_eq_of.mp h with ⟨h₁, h₂⟩ | hm
  · exact Or.inl (eq_of_mem_examined hfirst hother (List.mem_filter.mp he').1
      (List.mem_filter.mp he).1 h₁ h₂)
  · exact Or.inr hm

variable (hv : d.rules.computeVolumes = true)

include hv

lemma mem_volumesAt_findings (hrun : d.run signals = .ok o) {k : Pair} {v : ClashVolume Float} :
    v ∈ volumesAt k (d.findings signals) ↔
      ∃ e ∈ d.measured signals o.results, e.ids = k ∧ e.volume? d.solver = some v := by
  simp only [volumesAt, findings, List.mem_filterMap, List.mem_filter, measured, Bool.and_eq_true,
    decide_eq_true_eq]
  constructor
  · rintro ⟨f, ⟨⟨e, he, hf⟩, hk⟩, hfv⟩
    obtain ⟨hanchor, hcandidate⟩ := Examination.of_finding hf
    have hev : e.volume? d.solver = some v := (volume_of_examined hv he hf).symm.trans hfv
    refine ⟨e, ⟨he, ?_, by simp [hev]⟩, ?_, hev⟩
    · rw [← Std.ExtTreeSet.mem_iff_contains, recorded_iff hfirst hother hrun he, hf]
      rfl
    · rw [Examination.ids, ← hanchor, ← hcandidate]
      exact hk
  · rintro ⟨e, ⟨he, hrec, _⟩, hk, hev⟩
    rw [← Std.ExtTreeSet.mem_iff_contains, recorded_iff hfirst hother hrun he] at hrec
    obtain ⟨f, hf⟩ := Option.isSome_iff_exists.mp hrec
    obtain ⟨hanchor, hcandidate⟩ := Examination.of_finding hf
    refine ⟨f, ⟨⟨e, he, hf⟩, ?_⟩, (volume_of_examined hv he hf).trans hev⟩
    rw [Finding.ids, hanchor, hcandidate]
    exact hk

lemma volume_of_measured (hrun : d.run signals = .ok o) {e : Examination}
    (he : e ∈ d.measured signals o.results)
    (halone : ∀ e' ∈ d.measured signals o.results, ¬ e'.Mirrors e) :
    o.results.volume? e.anchor.value.object.id e.candidate.value.object.id =
      e.volume? d.solver := by
  obtain ⟨-, -, hvolumes, -⟩ := graph_run hrun
  obtain ⟨v, hev⟩ := volume_isSome he
  have hmem := (mem_volumesAt_findings hfirst hother hv hrun).mpr ⟨e, he, rfl, hev⟩
  have hlast : (volumesAt e.ids (d.findings signals)).getLast? = some v := by
    rw [List.getLast?_eq_getLast_of_ne_nil (List.ne_nil_of_mem hmem)]
    have hin := List.getLast_mem (List.ne_nil_of_mem hmem)
    obtain ⟨e', he', hids, hev'⟩ := (mem_volumesAt_findings hfirst hother hv hrun).mp hin
    rcases eq_or_mirrors hfirst hother he he' hids with rfl | hm
    · exact hev'.symm.trans hev
    · exact (halone e' he' hm).elim
  rw [Results.volume?, hvolumes, ← Examination.ids, volume_foldl, hlast, hev]
  rfl

lemma size_volumes (hrun : d.run signals = .ok o) :
    o.results.volumes.size = ((d.measured signals o.results).map Examination.ids).dedup.length := by
  obtain ⟨-, -, hvolumes, -⟩ := graph_run hrun
  rw [← Std.ExtTreeMap.length_keys]
  refine ((List.perm_ext_iff_of_nodup Std.ExtTreeMap.nodup_keys (List.nodup_dedup _)).mpr
    fun k => ?_).length_eq
  rw [Std.ExtTreeMap.mem_keys, hvolumes, mem_volumes_foldl rfl, List.mem_dedup, List.mem_map]
  simp only [mem_volumesAt_findings hfirst hother hv hrun]
  constructor
  · rintro ⟨_, e, he, hk, _⟩
    exact ⟨e, he, hk⟩
  · rintro ⟨e, he, hk⟩
    obtain ⟨v, hev⟩ := volume_isSome he
    exact ⟨v, e, he, hk, hev⟩

end Ids

lemma Tally.Sound.before_examined {s : Setting} {K : Item → Prop} {t : Tally} (h : t.Sound s K)
    (hK : Coherent s K) {sts : List Step}
    (hall : ∀ e ∈ t.examined s sts, K e.anchor.value ∧ K e.candidate.value) :
    ∀ e ∈ t.examined s sts, e.before.Sound s K := by
  induction sts generalizing t with
  | nil => simp [examined, examinations]
  | cons st sts ih =>
    cases st with
    | poll => exact ih h hall
    | finish a =>
      refine ih (t := t.finish s a) ?_ hall
      rw [finish_eq]
      exact h
    | examine a c =>
      by_cases hw : t.isWorth s a c
      · rw [examined_of_worth hw, List.forall_mem_cons] at hall ⊢
        exact ⟨h, ih (h.notes_compare hK hall.1.1 hall.1.2).1 hall.2⟩
      · rw [examined_of_not_worth hw] at hall ⊢
        exact ih h hall

lemma exists_measured (hfirst : d.first.WellFormed) (hother : d.other.WellFormed)
    (hv : d.rules.computeVolumes = true) (hrun : d.run signals = .ok o)
    (hdone : o.results.state = .finished) {a c : Entry} (hac : d.setting.IsCandidate d.order a c)
    {m n solid : Mesh Float} (hm : Tally.freshMesh? d.setting a.value = some m)
    (hn : Tally.freshMesh? d.setting c.value = some n) (hclash : m.clash n d.rules.epsilon = true)
    (hw : Tally.wantsVolume d.setting (.ofMesh m) (.ofMesh n) = true)
    (hsolve : ∀ k, d.solver k m n = .ok solid) {v : ClashVolume Float} (hsolid : v = .ofSolid solid)
    (haccept : d.rules.accepts v.volume v.width v.height = true) :
    ∃ e ∈ d.measured signals o.results, e.pair = (a, c) ∧ e.volume? d.solver = some v := by
  obtain ⟨hempty, rfl⟩ | ⟨_, tree, ht, rfl⟩ := cases_of_ok hrun
  · exact (not_isPair_of_isEmpty hother hempty hac.1).elim
  · have hdone := not_cancelled_of_finished hdone
    have horder : d.order = orderOf tree := by simp [order, ht]
    rw [horder, ← mem_pairs hfirst.ids ht, ← pairs_examined ht hdone] at hac
    obtain ⟨e, he, hpair⟩ := List.mem_map.mp hac
    have hK : ∀ e ∈ d.examined signals, (∃ f ∈ d.entries, f.value = e.anchor.value) ∧
        ∃ f ∈ d.entries, f.value = e.candidate.value := by
      intro e he
      have hin := (prefix_pairs ht signals).subset (List.mem_map_of_mem he)
      obtain ⟨ha, hc, _, _⟩ := sides_of_isPair ((mem_pairs hfirst.ids ht).mp hin).1 ht
      exact ⟨⟨_, ha, rfl⟩, ⟨_, hc, rfl⟩⟩
    have hbefore : e.before.Sound d.setting fun i => ∃ f ∈ d.entries, f.value = i := by
      have hstart : d.start.tally.Sound d.setting fun i => ∃ f ∈ d.entries, f.value = i :=
        fun i _ m hm => by simp [start] at hm
      rw [examined, examinations_ok ht] at hK he
      exact hstart.before_examined (coherent hfirst hother) hK e he
    obtain ⟨rfl, rfl⟩ := Prod.mk.inj hpair
    have hf := hbefore.finding_eq (coherent hfirst hother) (hK e he).1 (hK e he).2 hm hn hclash hw
      (hsolve _) hsolid hv haccept
    have hev := (volume_of_examined hv he hf).symm
    refine ⟨e, List.mem_filter.mpr ⟨he, ?_⟩, rfl, hev⟩
    rw [Bool.and_eq_true, ← Std.ExtTreeSet.mem_iff_contains,
      recorded_iff hfirst.ids hother.ids hrun he, Examination.finding?, hf, hev]
    exact ⟨rfl, rfl⟩

/-- A run that computes volumes keeps the volume of every clash whose solid the solver gave, unless
another such clash has the same two ids, swapped; in a self-check none has. There is one volume for
each two ids, so one for each such clash if no two of them have their ids swapped. -/
theorem run_keeps_volumes (hfirst : (d.first.objects.map Object.id).Nodup)
    (hother : (d.other.objects.map Object.id).Nodup) (hv : d.rules.computeVolumes = true)
    (hrun : d.run signals = .ok o) :
    (∀ e ∈ d.measured signals o.results,
      (∀ e' ∈ d.measured signals o.results, ¬ e'.Mirrors e) →
        o.results.volume? e.anchor.value.object.id e.candidate.value.object.id =
          e.volume? d.solver) ∧
      o.results.volumes.size =
        ((d.measured signals o.results).map Examination.ids).dedup.length ∧
      ((∀ e ∈ d.measured signals o.results, ∀ e' ∈ d.measured signals o.results,
        ¬ e'.Mirrors e) → o.results.volumes.size = (d.measured signals o.results).length) ∧
      (d.isSelfCheck = true → ∀ e ∈ d.measured signals o.results,
        ∀ e' ∈ d.measured signals o.results, ¬ e'.Mirrors e) := by
  have hsize := size_volumes hfirst hother hv hrun
  refine ⟨fun e he => volume_of_measured hfirst hother hv hrun he, hsize, fun halone => ?_,
    fun hs e he e' he' hm => ?_⟩
  · have hnodup : ((d.measured signals o.results).map Examination.ids).Nodup := by
      refine (List.Nodup.filter _ (nodup_examined hfirst hother).of_map).map_on ?_
      intro e he e' he' hids
      exact (eq_or_mirrors hfirst hother he' he hids).resolve_right (halone e' he' e he)
    rw [hsize, hnodup.dedup, List.length_map]
  · exact not_swapped_of_mem_examined hfirst hother hs (List.mem_filter.mp he').1
      (List.mem_filter.mp he).1 hm.1 hm.2

def leafGeometry : Geometry :=
  { tileGeometry with data := some (.ofBuffers 7 [0, 1, 2, 0, 2, 1] [0, 0, 0, 4, 0, 0, 0, 4, 0]) }

def thornGeometry : Geometry :=
  { pinGeometry with data := some (.ofBuffers 8 [0, 1, 2, 0, 2, 1] [1, 1, -1, 1, 1, 1, 2, 1, 0]) }

def leaf : Object := { id := 1, typeName := "Leaf", geometry := some leafGeometry }

def thorn : Object := { id := 2, typeName := "Thorn", geometry := some thornGeometry }

def rose (id : UInt64) : Model := { id, objects := [leaf, thorn] }

def roseRules : Rules := { skipDefaultRules := true, computeVolumes := true }

def roses (id : UInt64) : Detection where
  first := rose 1
  second := rose id
  rules := roseRules
  solver := fun _ m _ => .ok m

lemma wellFormed_rose (id : UInt64) : (rose id).WellFormed where
  ids := by
    change [(1 : UInt64), 2].Nodup
    decide
  boxes := by
    intro o ho g hg
    simp only [rose, List.mem_cons, List.not_mem_nil, or_false] at ho
    rcases ho with rfl | rfl <;> obtain rfl := Option.some.inj hg <;> decide +kernel
  declared := by
    intro b hb
    simp [rose] at hb
  shared := by
    intro o ho o' ho' g g' hg hg' hid
    simp only [rose, List.mem_cons, List.not_mem_nil, or_false] at ho ho'
    rcases ho with rfl | rfl <;> rcases ho' with rfl | rfl <;>
      obtain rfl := Option.some.inj hg <;> obtain rfl := Option.some.inj hg'
    · exact ⟨rfl, rfl⟩
    · exact absurd hid (by decide)
    · exact absurd hid (by decide)
    · exact ⟨rfl, rfl⟩

def leafEntry (side : Side) (type : TypeId) : Entry :=
  ⟨leafGeometry.bounds.scaled 1.0, ⟨side, leaf, leafGeometry, type⟩⟩

def thornEntry (side : Side) (type : TypeId) : Entry :=
  ⟨thornGeometry.bounds.scaled 1.0, ⟨side, thorn, thornGeometry, type⟩⟩

lemma indexable_rose (id : UInt64) (side : Side) {types : List TypeId} (h : types.length = 2) :
    ∃ s t, (indexable (rose id) side types).1 = [leafEntry side s, thornEntry side t] := by
  obtain ⟨s, t, rfl⟩ := List.length_eq_two.mp h
  have hleaf : ¬ ((leafGeometry.bounds.scaled 1.0).IsEmpty ∨
      ¬ (leafGeometry.bounds.scaled 1.0).IsFinite) := by decide +kernel
  have hthorn : ¬ ((thornGeometry.bounds.scaled 1.0).IsEmpty ∨
      ¬ (thornGeometry.bounds.scaled 1.0).IsFinite) := by decide +kernel
  exact ⟨s, t, by simp [indexable, rose, leaf, thorn, hleaf, hthorn, leafEntry, thornEntry]⟩

def leafMesh : Mesh Float :=
  .ofBytes (Bytes.ofWords [0, 1, 2, 0, 2, 1]) (Bytes.ofFloats [0, 0, 0, 4, 0, 0, 0, 4, 0]) none 1.0

def thornMesh : Mesh Float :=
  .ofBytes (Bytes.ofWords [0, 1, 2, 0, 2, 1]) (Bytes.ofFloats [1, 1, -1, 1, 1, 1, 2, 1, 0]) none 1.0

lemma closedness_leafMesh : leafMesh.closedness = .closed :=
  Mesh.closedness_folded rfl rfl (by decide +kernel) (by decide +kernel)

lemma closedness_thornMesh : thornMesh.closedness = .closed :=
  Mesh.closedness_folded rfl rfl (by decide +kernel) (by decide +kernel)

section Rose

variable {id : UInt64} {side side' : Side} {s t : TypeId}

lemma multiplier_roses (side : Side) : ((roses id).setting.model side).multiplier = 1.0 := by
  cases side with
  | first => rfl
  | second =>
    simp only [setting, Setting.model, other]
    split <;> rfl

lemma freshMesh_leaf :
    Tally.freshMesh? (roses id).setting (leafEntry side s).value = some leafMesh := by
  rw [Tally.freshMesh?]
  change leafGeometry.data.bind (fun d => d.mesh? none
    ((roses id).setting.model side).multiplier) = some leafMesh
  rw [multiplier_roses]
  rfl

lemma freshMesh_thorn :
    Tally.freshMesh? (roses id).setting (thornEntry side t).value = some thornMesh := by
  rw [Tally.freshMesh?]
  change thornGeometry.data.bind (fun d => d.mesh? none
    ((roses id).setting.model side).multiplier) = some thornMesh
  rw [multiplier_roses]
  rfl

lemma isCandidate_roses {a c : Entry} (h : (roses id).setting.IsPair (roses id).order a c)
    (hne : a.value.object.id ≠ c.value.object.id) (hac : a.bounds.Clashes c.bounds) :
    (roses id).setting.IsCandidate (roses id).order a c := by
  obtain ⟨hc, hi, ho⟩ := rules_resolved (roses id)
  exact ⟨h, admits_of_no_rules hc hi ho hne _ _, hac⟩

lemma clashes_leaf_thorn : (leafEntry side s).bounds.Clashes (thornEntry side' t).bounds := by
  change (leafGeometry.bounds.scaled 1.0).Clashes (thornGeometry.bounds.scaled 1.0)
  decide +kernel

lemma wantsVolume_rose {m n : Mesh Float} (hm : m.closedness = .closed)
    (hn : n.closedness = .closed) (hsize : m.faces.length ≤ 5000 ∧ n.faces.length ≤ 5000) :
    Tally.wantsVolume (roses id).setting (.ofMesh m) (.ofMesh n) = true := by
  have hlimit : (roses id).setting.rules.volumeTriangleThreshold = 5000 := rfl
  have hneeds : (roses id).setting.rules.needsVolume = true := rfl
  simp [Tally.wantsVolume, hneeds, hlimit, Decoded.ofMesh, hm, hn, hsize]

lemma wellFormed_other : (roses id).other.WellFormed := by
  rw [other]
  split <;> exact wellFormed_rose _

section Run

variable {signals : Signals} {o : Outcome} (hrun : (roses id).run signals = .ok o)
  (hdone : o.results.state = .finished)

include hrun hdone

lemma measured_leaf_thorn
    (h : (roses id).setting.IsPair (roses id).order (leafEntry side s) (thornEntry side' t)) :
    ∃ e ∈ (roses id).measured signals o.results,
      e.pair = (leafEntry side s, thornEntry side' t) ∧
        e.volume? (roses id).solver = some (.ofSolid leafMesh) := by
  have hne : (1 : UInt64) ≠ 2 := by decide
  have hclash : leafMesh.clash thornMesh roseRules.epsilon = true := by decide +kernel
  have haccept : let v := ClashVolume.ofSolid leafMesh
      roseRules.accepts v.volume v.width v.height = true := by decide +kernel
  exact exists_measured (wellFormed_rose 1) wellFormed_other rfl hrun hdone
    (isCandidate_roses h hne clashes_leaf_thorn) freshMesh_leaf freshMesh_thorn hclash
    (wantsVolume_rose closedness_leafMesh closedness_thornMesh (by decide +kernel))
    (fun _ => rfl) rfl haccept

lemma measured_thorn_leaf
    (h : (roses id).setting.IsPair (roses id).order (thornEntry side t) (leafEntry side' s)) :
    ∃ e ∈ (roses id).measured signals o.results,
      e.pair = (thornEntry side t, leafEntry side' s) ∧
        e.volume? (roses id).solver = some (.ofSolid thornMesh) := by
  have hne : (2 : UInt64) ≠ 1 := by decide
  have hclash : thornMesh.clash leafMesh roseRules.epsilon = true := by decide +kernel
  have haccept : let v := ClashVolume.ofSolid thornMesh
      roseRules.accepts v.volume v.width v.height = true := by decide +kernel
  exact exists_measured (wellFormed_rose 1) wellFormed_other rfl hrun hdone
    (isCandidate_roses h hne ((Box.clashes_comm _ _).mp clashes_leaf_thorn)) freshMesh_thorn
    freshMesh_leaf hclash
    (wantsVolume_rose closedness_thornMesh closedness_leafMesh (by decide +kernel))
    (fun _ => rfl) rfl haccept

end Run

lemma items_roses_first (id : UInt64) : ∃ s t, ((roses id).items .first).1 =
    [leafEntry .first s, thornEntry .first t] :=
  indexable_rose 1 .first (roses id).length_types_first

lemma items_roses_second (h : (roses id).isSelfCheck = false) : ∃ s t,
    ((roses id).items .second).1 = [leafEntry .second s, thornEntry .second t] := by
  rw [items_second_across h]
  exact indexable_rose id .second (length_types_second h)

lemma exists_run_roses (id : UInt64) :
    ∃ o, (roses id).run (.constant false) = .ok o ∧ o.results.state = .finished := by
  have hrules : roseRules.fault? = none := fault?_eq_none (by decide +kernel) rfl
  have hbounds : (roses id).bounds = (roses 1).bounds := by
    rw [bounds, other]
    split <;> rfl
  have hleaf : (roses 1).bounds.Fits (leafGeometry.bounds.scaled 1.0) := by decide +kernel
  have hthorn : (roses 1).bounds.Fits (thornGeometry.bounds.scaled 1.0) := by decide +kernel
  have hfits : ∀ e ∈ (roses id).entries, (roses id).bounds.Fits e.bounds := by
    obtain ⟨s, t, hfirst⟩ := items_roses_first id
    rw [hbounds, entries, hfirst]
    cases hs : (roses id).isSelfCheck with
    | true =>
      rw [items_second_within hs]
      simpa using ⟨hleaf, hthorn⟩
    | false =>
      obtain ⟨s', t', hsecond⟩ := items_roses_second hs
      rw [hsecond]
      simpa using ⟨hleaf, hthorn, hleaf, hthorn⟩
  have hnever : ∀ k, (Signals.constant false).cancelled k = false := fun _ => rfl
  refine exists_run hrules ?_ ?_ hfits hnever
  · rw [hbounds]
    decide +kernel
  · rw [hbounds]
    decide +kernel

end Rose

theorem run_keeps_volumes_rose : ∃ o, (roses 1).run (.constant false) = .ok o ∧
    ∃ e ∈ (roses 1).measured (.constant false) o.results, (e.volume? (roses 1).solver).isSome ∧
      o.results.volume? e.anchor.value.object.id e.candidate.value.object.id =
        e.volume? (roses 1).solver ∧
      o.results.volumes.size = ((roses 1).measured (.constant false) o.results).length := by
  obtain ⟨o, hrun, hdone⟩ := exists_run_roses 1
  obtain ⟨hkept, -, hcount, halone⟩ :=
    run_keeps_volumes (wellFormed_rose 1).ids wellFormed_other.ids rfl hrun
  have halone := halone rfl
  obtain ⟨s, t, hitems⟩ := items_roses_first 1
  have horder := (roses 1).order_perm
  rw [entries, items_second_within rfl, List.append_nil, hitems, List.perm_pair] at horder
  have hpair {a c : Entry} (h : (roses 1).order = [a, c]) :
      (roses 1).setting.IsPair (roses 1).order a c := by
    rw [Setting.IsPair, if_pos (by rfl), h]
  obtain ⟨e, he, v, hv⟩ : ∃ e ∈ (roses 1).measured (.constant false) o.results,
      ∃ v, e.volume? (roses 1).solver = some v := by
    rcases horder with h | h
    · obtain ⟨e, he, _, hv⟩ := measured_leaf_thorn hrun hdone (hpair h)
      exact ⟨e, he, _, hv⟩
    · obtain ⟨e, he, _, hv⟩ := measured_thorn_leaf hrun hdone (hpair h)
      exact ⟨e, he, _, hv⟩
  exact ⟨o, hrun, e, he, by simp [hv], hkept e he fun e' he' => halone e he e' he',
    hcount halone⟩

theorem volume_lost_of_swapped : ∃ o, (roses 2).run (.constant false) = .ok o ∧
    o.results.state = .finished ∧ (roses 2).rules.computeVolumes = true ∧
    ((roses 2).first.objects.map Object.id).Nodup ∧
    ((roses 2).other.objects.map Object.id).Nodup ∧
    (¬ ∀ e ∈ (roses 2).measured (.constant false) o.results,
      o.results.volume? e.anchor.value.object.id e.candidate.value.object.id =
        e.volume? (roses 2).solver) ∧
    o.results.volumes.size ≠ ((roses 2).measured (.constant false) o.results).length := by
  obtain ⟨o, hrun, hdone⟩ := exists_run_roses 2
  have hself : (roses 2).isSelfCheck = false := rfl
  obtain ⟨s, t, hfirst⟩ := items_roses_first 2
  obtain ⟨s', t', hsecond⟩ := items_roses_second hself
  have hmem : ∀ f, f ∈ (roses 2).order ↔ f ∈ [leafEntry .first s, thornEntry .first t,
      leafEntry .second s', thornEntry .second t'] := by
    intro f
    rw [(roses 2).order_perm.mem_iff, entries, hfirst, hsecond]
    rfl
  have hpair {a c : Entry} (ha : a ∈ (roses 2).order) (hc : c ∈ (roses 2).order)
      (hsa : a.value.side = .first) (hsc : c.value.side = .second) :
      (roses 2).setting.IsPair (roses 2).order a c := by
    rw [Setting.IsPair, if_neg (by simp [setting, hself])]
    exact ⟨ha, hc, hsa, hsc⟩
  obtain ⟨e, he, hpe, hve⟩ := measured_leaf_thorn hrun hdone (s := s) (t := t')
    (hpair ((hmem _).mpr (by simp)) ((hmem _).mpr (by simp)) rfl rfl)
  obtain ⟨e', he', hpe', hve'⟩ := measured_thorn_leaf hrun hdone (s := s') (t := t)
    (hpair ((hmem _).mpr (by simp)) ((hmem _).mpr (by simp)) rfl rfl)
  obtain ⟨ha, hc⟩ := Prod.mk.inj hpe
  obtain ⟨ha', hc'⟩ := Prod.mk.inj hpe'
  have hwidth : (ClashVolume.ofSolid leafMesh).width ≠ (ClashVolume.ofSolid thornMesh).width := by
    decide +kernel
  have hne : e ≠ e' := by
    rintro rfl
    exact hwidth (congrArg ClashVolume.width (Option.some.inj (hve.symm.trans hve')))
  have hids : e.ids = e'.ids := by
    rw [Examination.ids, Examination.ids, ha, hc, ha', hc']
    exact Pair.of_comm _ _
  refine ⟨o, hrun, hdone, rfl, (wellFormed_rose 1).ids, wellFormed_other.ids, fun hall => ?_,
    fun hsize => ?_⟩
  · have hone := congrArg (o.results.volumes[·]?) hids
    have hsame := (hall e he).symm.trans (hone.trans (hall e' he'))
    rw [hve, hve'] at hsame
    exact hwidth (congrArg ClashVolume.width (Option.some.inj hsame))
  · rw [size_volumes (wellFormed_rose 1).ids wellFormed_other.ids rfl hrun] at hsize
    have hdedup := (List.dedup_sublist _).eq_of_length (hsize.trans (List.length_map _).symm)
    exact hne (List.inj_on_of_nodup_map (List.dedup_eq_self.mp hdedup) he he' hids)

end Detection

end SolidClash
