import SolidClash.Job
import SolidClash.Proofs.Json.Decode

namespace SolidClash

open Json Json.Decoder Record

lemma TypeCombination.ofJson_toJson (c : TypeCombination) : ofJson c.toJson = .ok c := by
  have hothers : list string (.ofList .string c.combinedWith) = .ok c.combinedWith :=
    list_ofList fun _ _ => rfl
  have hrecord : Record.ofJson schema true c.toJson = .ok _ :=
    ofJson_ofFields (by decide) (.cons ⟨rfl, rfl⟩ (.cons ⟨rfl, check_of hothers _ _⟩ .nil))
  simp [ofJson, hrecord, ok_bind, Record.get, getD, List.lookup_cons, hothers, pure, Except.pure,
    Decoder.string]

lemma Rules.ofJson_toJson {r : Rules} (h : r.validate = .ok ())
    (hthreshold : r.volumeTriangleThreshold < UInt64.size) : ofJson r.toJson = .ok r := by
  have hname := option_string r.name
  have hid := option_string r.id
  have howns : list string (.ofList .string r.onlyCheckWithOwnType) = .ok r.onlyCheckWithOwnType :=
    list_ofList fun _ _ => rfl
  have hignore := list_ofList fun c (_ : c ∈ r.typesToIgnore) => c.ofJson_toJson
  have hcheck := list_ofList fun c (_ : c ∈ r.typesToCheck) => c.ofJson_toJson
  have hproperty := option_string r.property
  have hset := option_string r.propertySet
  have hlimit := nat_ofNat hthreshold
  have hfinite : ∀ e ∈ r.tolerances, float (.ofFloat e.2) = .ok e.2 := fun e he =>
    float_ofFloat (isTolerance_of_fault? (fault?_of_validate h) he).1
  simp only [tolerances, List.forall_mem_cons] at hfinite
  obtain ⟨hepsilon, hvolume, hhorizontal, hvertical, -⟩ := hfinite
  have hrecord : Record.ofJson schema true r.toJson = .ok _ :=
    ofJson_ofFields (by decide) <|
      .cons ⟨rfl, check_of hname _ _⟩ <| .cons ⟨rfl, check_of hid _ _⟩ <|
      .cons ⟨rfl, check_of hepsilon _ _⟩ <| .cons ⟨rfl, rfl⟩ <|
      .cons ⟨rfl, check_of howns _ _⟩ <| .cons ⟨rfl, check_of hignore _ _⟩ <|
      .cons ⟨rfl, check_of hcheck _ _⟩ <| .cons ⟨rfl, rfl⟩ <|
      .cons ⟨rfl, check_of hvolume _ _⟩ <| .cons ⟨rfl, check_of hhorizontal _ _⟩ <|
      .cons ⟨rfl, check_of hvertical _ _⟩ <| .cons ⟨rfl, check_of hlimit _ _⟩ <|
      .cons ⟨rfl, check_of hproperty _ _⟩ <| .cons ⟨rfl, check_of hset _ _⟩ .nil
  simp [ofJson, hrecord, ok_bind, getD, List.lookup_cons, hname, hid, hepsilon, howns, hignore,
    hcheck, hvolume, hhorizontal, hvertical, hlimit, hproperty, hset, Decoder.bool, pure,
    Except.pure]

lemma Request.ofJson_toJson (r : Request) : ofJson r.toJson = .ok r := by
  have hfirst := word_ofNat r.model1
  have hsecond := word_ofNat r.model2
  have hrecord : Record.ofJson schema false r.toJson = .ok _ :=
    ofJson_ofFields (by decide) <| .cons ⟨rfl, check_of hfirst _ _⟩ <|
      .cons ⟨rfl, check_of hsecond _ _⟩ <| .cons ⟨rfl, rfl⟩ .nil
  simp [ofJson, hrecord, ok_bind, Record.get, List.lookup_cons, hfirst, hsecond, Decoder.string,
    pure, Except.pure]

section Maps

variable {β κ : Type} {d : Decoder β} {f : β → Json}

lemma ofList_toList [Ord κ] [Std.TransOrd κ] [Std.LawfulEqOrd κ] [BEq κ] [Std.LawfulBEqOrd κ]
    (m : Std.ExtTreeMap κ β) :
    Std.ExtTreeMap.ofList m.toList = m := by
  have hof {k : κ} {v : β} (h : m[k]? = some v) : (Std.ExtTreeMap.ofList m.toList)[k]? = some v :=
    Std.ExtTreeMap.getElem?_ofList_of_mem Std.ReflOrd.compare_self m.distinct_keys_toList
      (Std.ExtTreeMap.mem_toList_iff_getElem?_eq_some.mpr h)
  refine Std.ExtTreeMap.ext_getElem? fun k => ?_
  cases hk : m[k]? with
  | some v => exact hof hk
  | none =>
    refine Std.ExtTreeMap.getElem?_ofList_of_contains_eq_false ?_
    rw [Std.ExtTreeMap.map_fst_toList_eq_keys, Std.ExtTreeMap.contains_keys,
      Std.ExtTreeMap.contains_eq_isSome_getElem?, hk]
    rfl

lemma textMap_toJson {m : Std.ExtTreeMap String β} (h : ∀ e ∈ m.toList, d (f e.2) = .ok e.2) :
    textMap d (textMapToJson f m) = .ok m := by
  have hread := dictionary_ofFields Key.read (fun k => k) (fun _ _ => rfl) h
  simp only [textMap, textMapToJson, hread, Except.map, ofList_toList]

lemma idMap_toJson {m : Std.ExtTreeMap UInt64 β} (h : ∀ e ∈ m.toList, d (f e.2) = .ok e.2) :
    idMap d (idMapToJson f m) = .ok m := by
  have hread := dictionary_ofFields Key.readWord (fun k => toString k.toNat)
    (fun e _ => Key.readWord_ofString e.1) h
  simp only [idMap, idMapToJson, hread, Except.map, ofList_toList]

end Maps

namespace VisibleRange

def IsStorable (v : VisibleRange) : Prop := v.offset < UInt64.size ∧ v.count < UInt64.size

lemma ofJson_toJson {v : VisibleRange} (h : v.IsStorable) : ofJson v.toJson = .ok v := by
  have hoffset := nat_ofNat h.1
  have hcount := nat_ofNat h.2
  have hrecord : Record.ofJson schema false v.toJson = .ok _ :=
    ofJson_ofFields (by decide) <| .cons ⟨rfl, check_of hoffset _ _⟩ <|
      .cons ⟨rfl, check_of hcount _ _⟩ .nil
  simp [ofJson, hrecord, ok_bind, Record.get, List.lookup_cons, hoffset, hcount, pure, Except.pure]

end VisibleRange

namespace ClashMeshes

structure IsStorable (m : ClashMeshes Float) : Prop where
  indices : ∀ i ∈ m.indices, i < UInt32.size
  positions : ∀ x ∈ m.positions, x.isFinite = true
  volumes : ∀ e ∈ m.volumes.toList, e.2.isFinite = true
  visibleRanges : ∀ e ∈ m.visibleRanges.toList, e.2.IsStorable

lemma ofJson_toJson {m : ClashMeshes Float} (h : m.IsStorable) : ofJson m.toJson = .ok m := by
  have hindices := list_ofList fun i hi => nat_ofNat (h.indices i hi)
  have hpositions := list_ofList fun x hx => float_ofFloat (h.positions x hx)
  have hvolumes := textMap_toJson fun e he => float_ofFloat (h.volumes e he)
  have hranges := textMap_toJson fun e he => VisibleRange.ofJson_toJson (h.visibleRanges e he)
  have hrecord : Record.ofJson schema false m.toJson = .ok _ :=
    ofJson_ofFields (by decide) <| .cons ⟨rfl, check_of hindices _ _⟩ <|
      .cons ⟨rfl, check_of hpositions _ _⟩ <| .cons ⟨rfl, check_of hvolumes _ _⟩ <|
      .cons ⟨rfl, check_of hranges _ _⟩ .nil
  simp [ofJson, hrecord, ok_bind, Record.get, List.lookup_cons, hindices, hpositions, hvolumes,
    hranges, pure, Except.pure]

end ClashMeshes

namespace ReportMetrics

variable {own counters : Record}

structure IsStorable (m : ReportMetrics) : Prop where
  counters : ∀ e ∈ m.counters.toList, e.2 < UInt64.size
  triangleTime : m.triangleTime < UInt64.size
  duration : m.duration < UInt64.size

lemma collect_counters {cs : Record} (rest : List (Key × Json))
    (h : ∀ e ∈ cs, schema.find? (·.name == e.1) = none ∧ e.2.readFault depthLimit = none) :
    collect own counters (cs.map (fun e => (Key.ofString e.1, e.2)) ++ rest) =
      collect own (counters ++ cs) rest := by
  induction cs generalizing counters with
  | nil => simp
  | cons e cs ih =>
    obtain ⟨hunknown, hsound⟩ := h e List.mem_cons_self
    rw [List.map_cons, List.cons_append, collect, Key.read, Key.ofString]
    simp only [ok_bind, hunknown, hsound]
    rw [ih fun e he => h e (List.mem_cons_of_mem _ he), List.append_assoc]
    rfl

lemma collect_own (own : Record) {fs : Record} (hknown : ∀ e ∈ fs, Known schema e)
    (hnodup : ((own ++ fs).map Prod.fst).Nodup) :
    collect own counters (fs.map fun e => (Key.ofString e.1, e.2)) =
      .ok (own ++ fs, counters) := by
  induction fs generalizing own with
  | nil => simp [collect]
  | cons e fs ih =>
    obtain ⟨f, hf, hcheck⟩ := hknown e List.mem_cons_self
    have hfresh := lookup_of_nodup hnodup
    have hrest := ih (own ++ [e]) (fun e he => hknown e (List.mem_cons_of_mem _ he))
      (by simpa using hnodup)
    rw [List.map_cons, collect, Key.read, Key.ofString]
    simp only [ok_bind, hf, hfresh, Option.isSome_none, Bool.false_eq_true, ↓reduceIte, hcheck]
    simpa using hrest

lemma filter_name {β : Type} {cs : List (String × β)} (hnodup : (cs.map Prod.fst).Nodup)
    {e : String × β} (he : e ∈ cs) : cs.filter (·.1 == e.1) = [e] := by
  induction cs with
  | nil => cases he
  | cons c cs ih =>
    rw [List.map_cons, List.nodup_cons] at hnodup
    rcases List.mem_cons.mp he with rfl | he
    · rw [List.filter_cons_of_pos (by simp), List.filter_eq_nil_iff.mpr]
      intro d hd hname
      exact hnodup.1 (eq_of_beq hname ▸ List.mem_map_of_mem hd)
    · rw [List.filter_cons_of_neg, ih hnodup.2 he]
      intro hname
      exact hnodup.1 (eq_of_beq hname ▸ List.mem_map_of_mem he)

lemma countIn_map {cs : List (String × ℕ)} (hnodup : (cs.map Prod.fst).Nodup)
    {e : String × ℕ} (he : e ∈ cs) (hlt : e.2 < UInt64.size) :
    countIn (cs.map fun e => (e.1, ofNat e.2)) e.1 = .ok e.2 := by
  have hfilter := filter_name hnodup he
  rw [countIn, List.filter_map]
  simp only [Function.comp_def, hfilter]
  exact nat_ofNat hlt

lemma ofCounts_eq {ε : Type} {count : String → Except ε ℕ} {m : Metrics}
    (h : ∀ e ∈ m.toList, count e.1 = .ok e.2) : Metrics.ofCounts count = .ok m := by
  simp only [Metrics.toList, List.forall_mem_cons] at h
  simp [Metrics.ofCounts, h]
  rfl

lemma ofJson_toJson {m : ReportMetrics} (h : m.IsStorable) : ofJson m.toJson = .ok m := by
  let own : Record := [("state", .string m.state.text), ("triangleTimeMs", .ofNat m.triangleTime),
    ("durationMs", .ofNat m.duration)]
  let counters : Record := m.counters.toList.map fun e => (e.1, ofNat e.2)
  have hstate : RunState.ofJson (.string m.state.text) = .ok m.state := by
    simp [RunState.ofJson, RunState.named, RunState.ofText?_text]
  have htime : count (.ofNat m.triangleTime) = .ok m.triangleTime := nat_ofNat h.triangleTime
  have hduration : count (.ofNat m.duration) = .ok m.duration := nat_ofNat h.duration
  have hcounters : ∀ e ∈ counters,
      schema.find? (·.name == e.1) = none ∧ e.2.readFault depthLimit = none := by
    simp [counters, Metrics.toList, schema, Field.of, ofNat, readFault]
  have hnodup : (schema.map Field.name).Nodup := by decide
  have hown : ∀ e ∈ own, Known schema e :=
    known_of_suits hnodup <| .cons ⟨rfl, check_of hstate _ _⟩ <|
      .cons ⟨rfl, check_of htime _ _⟩ <| .cons ⟨rfl, check_of hduration _ _⟩ .nil
  have hnames : (m.counters.toList.map Prod.fst).Nodup := by
    change Metrics.names.Nodup
    decide
  have hcounts : Metrics.ofCounts (countIn counters) = .ok m.counters :=
    ofCounts_eq fun e he => countIn_map hnames he (h.counters e he)
  have hcollect : collect [] [] ((counters ++ own).map fun e => (Key.ofString e.1, e.2)) =
      .ok (own, counters) := by
    rw [List.map_append, collect_counters _ hcounters]
    exact collect_own [] hown (hnodup : (schema.map Field.name).Nodup)
  have hjson : m.toJson = .object ((counters ++ own).map fun e => (Key.ofString e.1, e.2)) none :=
    rfl
  rw [hjson, ofJson, hcollect]
  simp [ok_bind, Decoder.close, own, Record.get, List.lookup_cons, hstate, htime, hduration,
    hcounts, pure, Except.pure]

end ReportMetrics

namespace Report

structure IsStorable (r : Report Float) : Prop where
  meshes : r.meshes.IsStorable
  metrics : r.metrics.IsStorable

lemma ofJson_toJson {r : Report Float} (h : r.IsStorable) : ofJson r.toJson = .ok r := by
  have hids (ids : List UInt64) : list word (idList ids) = .ok ids :=
    list_ofList fun id _ => word_ofNat id
  have hleft := idMap_toJson fun e (_ : e ∈ r.left.toList) => hids e.2
  have hright := idMap_toJson fun e (_ : e ∈ r.right.toList) => hids e.2
  have hmeshes := ClashMeshes.ofJson_toJson h.meshes
  have hmetrics := ReportMetrics.ofJson_toJson h.metrics
  have hrecord : Record.ofJson schema false r.toJson = .ok _ :=
    ofJson_ofFields (by decide) <| .cons ⟨rfl, check_of hleft _ _⟩ <|
      .cons ⟨rfl, check_of hright _ _⟩ <| .cons ⟨rfl, check_of hmeshes _ _⟩ <|
      .cons ⟨rfl, check_of hmetrics _ _⟩ .nil
  simp [ofJson, hrecord, ok_bind, Record.get, List.lookup_cons, hleft, hright, hmeshes, hmetrics,
    pure, Except.pure]

end Report

namespace Json

lemma decodeText_of_value {β : Type} {d : Decoder β} {j : Json} {b : β} (h : d j = .ok b)
    {text : String} (htext : Document.ofString text = ⟨j, false⟩) : decodeText d text = .ok b := by
  rw [decodeText, htext]
  simp only [h, ok_bind]
  rfl

/-- What is written reads back as what it was, and rules that are read can be used. -/
theorem formats_restore :
    (∀ r : Rules, r.validate = .ok () → r.volumeTriangleThreshold < UInt64.size →
      Rules.ofJson r.toJson = .ok r ∧
        ∀ text, Document.ofString text = ⟨r.toJson, false⟩ → Rules.ofText text = .ok r) ∧
    (∀ r : Request, Request.ofJson r.toJson = .ok r) ∧
    (∀ r : Report Float, r.IsStorable → Report.ofJson r.toJson = .ok r) ∧
    ∀ text r, Rules.ofText text = .ok r → r.validate = .ok () := by
  refine ⟨fun r h hthreshold => ?_, Request.ofJson_toJson, fun r h => Report.ofJson_toJson h,
    fun text r h => Rules.validate_of_ofText h⟩
  have hread := Rules.ofJson_toJson h hthreshold
  refine ⟨hread, fun text htext => ?_⟩
  rw [Rules.ofText, decodeText_of_value hread htext]
  simp only [h]

def namedRules : Rules :=
  { name := some "Wände", epsilon := 0.25, onlyCheckWithOwnType := [""],
    typesToIgnore := [⟨"Slab", []⟩, ⟨"*", ["Door", "門"]⟩], minClashVolume := 0.5,
    volumeTriangleThreshold := 0, property := some "", propertySet := some "Pset" }

def filledReport : Report Float where
  left := .ofList [((18446744073709551615 : UInt64), [(0 : UInt64), 7])]
  right := ∅
  meshes :=
    { indices := [4294967295], positions := [-0.0, 0.1],
      volumes := .ofList [("0_7", (0.125 : Float))],
      visibleRanges := .ofList [("0_7", VisibleRange.mk 0 1)] }
  metrics := ⟨{ clashes := 18446744073709551615 }, .cancelled, 3, 0⟩

lemma isStorable_filledReport : filledReport.IsStorable := by
  have honly {β : Type} (b : β) : ∀ e ∈ (Std.ExtTreeMap.ofList [("0_7", b)]).toList, e.2 = b := by
    rintro ⟨text, c⟩ h
    rw [Std.ExtTreeMap.mem_toList_iff_getElem?_eq_some, Std.ExtTreeMap.ofList_singleton,
      Std.ExtTreeMap.getElem?_insert] at h
    split at h
    · exact (Option.some.inj h).symm
    · simp at h
  refine ⟨⟨by decide, by decide +kernel, fun e he => ?_, fun e he => ?_⟩, by decide, by decide,
    by decide⟩
  · rw [honly _ e he]
    decide +kernel
  · rw [honly _ e he]
    exact ⟨by decide, by decide⟩

theorem formats_restore_filled :
    (namedRules.validate = .ok () ∧ namedRules.volumeTriangleThreshold < UInt64.size ∧
      Rules.ofJson namedRules.toJson = .ok namedRules) ∧
    filledReport.IsStorable ∧ Report.ofJson filledReport.toJson = .ok filledReport := by
  have hvalid : namedRules.validate = .ok () := by rfl
  obtain ⟨hrules, -, hreport, -⟩ := formats_restore
  exact ⟨⟨hvalid, by decide, (hrules _ hvalid (by decide)).1⟩, isStorable_filledReport,
    hreport _ isStorable_filledReport⟩

end Json

end SolidClash
