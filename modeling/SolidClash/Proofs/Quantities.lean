import Mathlib.Data.Nat.Basic
import Mathlib.Tactic.Tauto
import SolidClash.Quantities

namespace SolidClash

/-- The reports name, in order, work done before `bound`, and the run is cancelled exactly if one of
the answers so far said so. -/
structure Monitor.Follows (m : Monitor) (s : Signals) (total bound : ℕ) : Prop where
  entries : ∀ r ∈ m.reports, r.1 < bound ∧ r.2 = total
  ascending : m.reports.Pairwise fun later earlier => earlier.1 < later.1
  seen : m.cancelled = true ↔ ∃ q < m.questions, s.cancelled q = true

namespace Monitor

variable {m : Monitor} {s : Signals} {total bound bound' : ℕ}

lemma follows_new (s : Signals) (interval total bound : ℕ) :
    (Monitor.new interval).Follows s total bound := by
  constructor <;> simp [Monitor.new]

lemma Follows.mono (h : m.Follows s total bound) (hle : bound ≤ bound') :
    m.Follows s total bound' where
  entries r hr := (h.entries r hr).imp_left fun hlt => Nat.lt_of_lt_of_le hlt hle
  ascending := h.ascending
  seen := h.seen

lemma Follows.poll (h : m.Follows s total bound) (hm : m.cancelled = false) :
    (m.poll s bound total).Follows s total (bound + 1) := by
  have hnone : ¬ ∃ q < m.questions, s.cancelled q = true := by
    rw [← h.seen, hm]
    exact Bool.false_ne_true
  rw [Monitor.poll]
  dsimp only
  split
  · refine ⟨?_, List.pairwise_cons.mpr ⟨fun r hr => (h.entries r hr).1, h.ascending⟩, ?_⟩
    · have := h.mono (Nat.le_succ bound)
      simpa using this.entries
    · constructor
      · exact fun hc => ⟨m.questions, Nat.lt_succ_self _, hc⟩
      · rintro ⟨q, hq, hc⟩
        rcases Nat.lt_succ_iff_lt_or_eq.mp hq with hlt | rfl
        · exact (hnone ⟨q, hlt, hc⟩).elim
        · exact hc
  · have := h.mono (Nat.le_succ bound)
    exact ⟨this.entries, this.ascending, this.seen⟩

lemma Follows.report (h : m.Follows s total total) :
    (m.report total total).Follows s total (total + 1) where
  entries := List.forall_mem_cons.mpr
    ⟨⟨Nat.lt_succ_self total, rfl⟩, (h.mono (Nat.le_succ total)).entries⟩
  ascending := List.pairwise_cons.mpr ⟨fun r hr => (h.entries r hr).1, h.ascending⟩
  seen := h.seen

end Monitor

namespace Quantities

open Std (ExtTreeMap LawfulEqCmp)

inductive Measures (multiplier : Float) (d : GeometryData) : Quantities → Prop
  | absent (h : ∀ is vs, d.indices = some is → d.vertices = some vs → is = [] ∨ vs = []) :
      Measures multiplier d ⟨0.0, 0.0⟩
  | closed {is vs} (hi : d.indices = some is) (hv : d.vertices = some vs) (his : is ≠ [])
      (hvs : vs ≠ []) (hc : (Mesh.ofBytes is vs none multiplier).closedness = .closed) :
      Measures multiplier d
        ⟨(Mesh.ofBytes is vs none multiplier).area, (Mesh.ofBytes is vs none multiplier).volume⟩
  | notClosed {is vs} (hi : d.indices = some is) (hv : d.vertices = some vs) (his : is ≠ [])
      (hvs : vs ≠ []) (hc : (Mesh.ofBytes is vs none multiplier).closedness ≠ .closed) :
      Measures multiplier d ⟨(Mesh.ofBytes is vs none multiplier).area, 0.0⟩

variable {s : Signals} {multiplier : Float} {total done : ℕ} {r : Run} {d : GeometryData}
  {ds : List GeometryData}

lemma measures_of_buffers {is vs : List UInt8} (hi : d.indices = some is)
    (hv : d.vertices = some vs) (his : is ≠ []) (hvs : vs ≠ []) :
    Measures multiplier d (ofMesh (Mesh.ofBytes is vs none multiplier)) := by
  rw [ofMesh]
  split
  · exact .closed hi hv his hvs ‹_›
  · exact .notClosed hi hv his hvs ‹_›

lemma measures_ofData (multiplier : Float) (d : GeometryData) :
    Measures multiplier d (ofData multiplier d) := by
  rw [ofData, GeometryData.mesh?]
  cases hb : d.buffers? with
  | none =>
    refine .absent fun is vs hi hv => or_iff_not_imp_left.mpr fun his => ?_
    by_contra hvs
    rw [GeometryData.buffers?_eq_some.mpr ⟨hi, hv, his, hvs⟩] at hb
    cases hb
  | some b =>
    obtain ⟨hi, hv, his, hvs⟩ := GeometryData.buffers?_eq_some.mp hb
    exact measures_of_buffers hi hv his hvs

def enter (multiplier : Float) (m : ExtTreeMap UInt64 Quantities) (ds : List GeometryData) :
    ExtTreeMap UInt64 Quantities :=
  ds.foldl (fun m d => m.insert d.id (ofData multiplier d)) m

lemma mem_enter (m : ExtTreeMap UInt64 Quantities) (ds : List GeometryData) (id : UInt64) :
    id ∈ enter multiplier m ds ↔ id ∈ m ∨ ∃ d ∈ ds, d.id = id := by
  induction ds generalizing m with
  | nil => simp [enter]
  | cons d ds ih =>
    have hcons : enter multiplier m (d :: ds) =
        enter multiplier (m.insert d.id (ofData multiplier d)) ds := rfl
    rw [hcons, ih, ExtTreeMap.mem_insert, LawfulEqCmp.compare_eq_iff_eq]
    simp only [List.mem_cons, exists_eq_or_imp, or_assoc]
    tauto

lemma enter_append (m : ExtTreeMap UInt64 Quantities) (ds ds' : List GeometryData) :
    enter multiplier m (ds ++ ds') = enter multiplier (enter multiplier m ds) ds' :=
  List.foldl_append

lemma getElem?_enter_of_not_mem (m : ExtTreeMap UInt64 Quantities) {id : UInt64}
    (h : ∀ d ∈ ds, d.id ≠ id) : (enter multiplier m ds)[id]? = m[id]? := by
  induction ds generalizing m with
  | nil => rfl
  | cons d ds ih =>
    obtain ⟨hd, hds⟩ := List.forall_mem_cons.mp h
    have hcons : enter multiplier m (d :: ds) =
        enter multiplier (m.insert d.id (ofData multiplier d)) ds := rfl
    rw [hcons, ih _ hds, ExtTreeMap.getElem?_insert, if_neg]
    rwa [LawfulEqCmp.compare_eq_iff_eq]

lemma getElem?_enter_last (m : ExtTreeMap UInt64 Quantities) {before after : List GeometryData}
    (h : ∀ d' ∈ after, d'.id ≠ d.id) :
    (enter multiplier m (before ++ d :: after))[d.id]? = some (ofData multiplier d) := by
  have hcons : enter multiplier (enter multiplier m before) (d :: after) =
      enter multiplier ((enter multiplier m before).insert d.id (ofData multiplier d)) after := rfl
  rw [enter_append, hcons, getElem?_enter_of_not_mem _ h, ExtTreeMap.getElem?_insert_self]

lemma exists_workOff (multiplier : Float) (ds : List GeometryData)
    (hm : r.monitor.cancelled = false) (h : r.monitor.Follows s total done) :
    ∃ k ≤ ds.length,
      (workOff s multiplier total done ds r).quantities =
        enter multiplier r.quantities (ds.take k) ∧
      (workOff s multiplier total done ds r).monitor.Follows s total (done + ds.length) ∧
      ((workOff s multiplier total done ds r).monitor.cancelled = true ↔ k < ds.length) := by
  induction ds generalizing done r with
  | nil => exact ⟨0, le_rfl, rfl, h, by simp [workOff, hm]⟩
  | cons d ds ih =>
    have hpoll := h.poll hm
    rw [workOff]
    dsimp only
    cases hc : (r.monitor.poll s done total).cancelled with
    | true =>
      rw [if_pos rfl]
      refine ⟨0, Nat.zero_le _, rfl, hpoll.mono ?_, by simp [hc]⟩
      rw [List.length_cons]
      omega
    | false =>
      rw [if_neg Bool.false_ne_true]
      obtain ⟨k, hk, hq, hf, hiff⟩ := ih
        (r := ⟨r.quantities.insert d.id (ofData multiplier d), r.monitor.poll s done total⟩) hc hpoll
      refine ⟨k + 1, Nat.succ_le_succ hk, hq, ?_, ?_⟩
      · rwa [Nat.add_right_comm] at hf
      · rw [hiff, List.length_cons, Nat.add_lt_add_iff_right]

lemma exists_calculate (s : Signals) (multiplier : Float) (ds : List GeometryData) :
    ∃ k ≤ ds.length, (calculate s multiplier ds).quantities = enter multiplier ∅ (ds.take k) ∧
      (calculate s multiplier ds).monitor.Follows s ds.length (ds.length + 1) ∧
      ((calculate s multiplier ds).monitor.cancelled = true ↔ k < ds.length) ∧
      (k < ds.length → ∀ p ∈ (calculate s multiplier ds).monitor.reports, p.1 < ds.length) ∧
      (k = ds.length →
        (calculate s multiplier ds).monitor.reports.head? = some (ds.length, ds.length)) := by
  obtain ⟨k, hk, hq, hf, hc⟩ := exists_workOff multiplier ds
    (r := ⟨∅, .new defaultProgressInterval⟩) rfl (Monitor.follows_new s _ ds.length 0)
  rw [Nat.zero_add] at hf
  rw [calculate]
  split
  · rename_i hcancelled
    have hlt := hc.mp hcancelled
    exact ⟨k, hk, hq, hf.mono (Nat.le_succ _), hc, fun _ p hp => (hf.entries p hp).1,
      fun heq => absurd heq (Nat.ne_of_lt hlt)⟩
  · rename_i hcancelled
    have hnlt := mt hc.mpr hcancelled
    exact ⟨k, hk, hq, hf.report, hc, fun hlt => absurd hlt hnlt, fun _ => rfl⟩

lemma calculate_of_quiet (hs : ∀ q, s.cancelled q = false) (multiplier : Float)
    (ds : List GeometryData) : (calculate s multiplier ds).quantities = enter multiplier ∅ ds := by
  obtain ⟨k, hk, hq, hf, hc, -⟩ := exists_calculate s multiplier ds
  have hnot : ¬ k < ds.length := by
    rw [← hc, hf.seen]
    rintro ⟨q, -, hq⟩
    exact Bool.false_ne_true ((hs q).symm.trans hq)
  rw [hq, List.take_of_length_le (Nat.not_lt.mp hnot)]

/-- Whatever the clock says and whenever the run is cancelled, there is a first part of the records,
all of them if no answer asked for cancellation, such that the quantities are those of an
undisturbed run over that part: by the last record of each id in it, and of no other ids. -/
theorem calculate_first_part (s : Signals) (multiplier : Float) (ds : List GeometryData) :
    ∃ k ≤ ds.length,
      (∀ s' : Signals, (∀ q, s'.cancelled q = false) →
        (calculate s multiplier ds).quantities =
          (calculate s' multiplier (ds.take k)).quantities) ∧
      (k = ds.length ↔
        ∀ q < (calculate s multiplier ds).monitor.questions, s.cancelled q = false) ∧
      (∀ id, id ∈ (calculate s multiplier ds).quantities ↔ ∃ d ∈ ds.take k, d.id = id) ∧
      (∀ before d after, ds.take k = before ++ d :: after → (∀ d' ∈ after, d'.id ≠ d.id) →
        ∃ q, (calculate s multiplier ds).quantities[d.id]? = some q ∧ Measures multiplier d q) ∧
      (calculate s multiplier ds).monitor.reports.Pairwise
        (fun later earlier => earlier.1 < later.1) ∧
      (∀ p ∈ (calculate s multiplier ds).monitor.reports, p.2 = ds.length) ∧
      ((ds.length, ds.length) ∈ (calculate s multiplier ds).monitor.reports ↔ k = ds.length) ∧
      (k = ds.length →
        (calculate s multiplier ds).monitor.reports.head? = some (ds.length, ds.length)) := by
  obtain ⟨k, hk, hq, hf, hc, hbefore, hlast⟩ := exists_calculate s multiplier ds
  refine ⟨k, hk, fun s' hs' => ?_, ?_, fun id => ?_, fun before d after hd hafter => ?_,
    hf.ascending, fun p hp => (hf.entries p hp).2, ?_, hlast⟩
  · rw [hq, calculate_of_quiet hs']
  · have hlt : k < ds.length ↔ k ≠ ds.length := Nat.lt_iff_le_and_ne.trans (and_iff_right hk)
    rw [← not_iff_not, ← ne_eq, ← hlt, ← hc, hf.seen]
    simp
  · simp [hq, mem_enter]
  · rw [hq, hd, getElem?_enter_last _ hafter]
    exact ⟨_, rfl, measures_ofData multiplier d⟩
  · constructor
    · intro hmem
      by_contra hne
      exact Nat.lt_irrefl _ (hbefore (Nat.lt_of_le_of_ne hk hne) _ hmem)
    · exact fun heq => List.mem_of_mem_head? (hlast heq)

end Quantities

end SolidClash
