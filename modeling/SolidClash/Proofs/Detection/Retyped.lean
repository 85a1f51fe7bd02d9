import SolidClash.Proofs.Detection.Run
import SolidClash.Proofs.Octree.Alike
import SolidClash.Proofs.Rules.Filter

/-! Runs do not depend on the numbers of the types, nor on the counters of what is left out. -/

namespace SolidClash.Detection

open List (Forall₂)

structure Item.Alike (source : TypeSource) (f f' : TypeFilter) (i i' : Item) : Prop where
  side : i.side = i'.side
  object : i.object = i'.object
  geometry : i.geometry = i'.geometry
  number : f.Number (source.nameOf i.object) i.type
  number' : f'.Number (source.nameOf i.object) i'.type

variable {source : TypeSource} {f f' : TypeFilter} {own : List String}
  {ignored checked : List (String × String)}

lemma Item.Alike.admits {i i' j j' : Item} (hi : i.Alike source f f' i')
    (hj : j.Alike source f f' j') (h : f.Holds source own ignored checked)
    (h' : f'.Holds source own ignored checked) (x y : UInt64) :
    f'.admits x i'.type y j'.type = f.admits x i.type y j.type := by
  have hni := hi.number
  have hnj := hj.number
  have hni' := hi.number'
  have hnj' := hj.number'
  rw [TypeFilter.Number, h.source] at hni hnj
  rw [TypeFilter.Number, h'.source] at hni' hnj'
  rw [Bool.eq_iff_iff, h.admits_iff hni hnj, h'.admits_iff hni' hnj']

inductive Step.Alike (R : Item → Item → Prop) : Step → Step → Prop
  | poll : Alike R .poll .poll
  | examine {a a' c c' : Entry} : Octree.Entry.Alike R a a' → Octree.Entry.Alike R c c' →
      Alike R (.examine a c) (.examine a' c')
  | finish {a a' : Entry} : Octree.Entry.Alike R a a' → Alike R (.finish a) (.finish a')

def Setting.retyped (s : Setting) (f : TypeFilter) (m m' : Model) : Setting :=
  { s with filter := f, first := m, second := m' }

section Schedule

variable {s : Setting} {m m' : Model} {t t' : Index}

lemma alike_candidates (h : t.Alike (Item.Alike source f f') t') {a a' : Entry}
    (ha : Octree.Entry.Alike (Item.Alike source f f') a a') (p : Octree.Path) :
    Forall₂ (Octree.Entry.Alike (Item.Alike source f f')) (Step.candidates s t p a)
      (Step.candidates (s.retyped f' m m') t' p a') := by
  refine List.rel_flatMap (h.walkUpDown (fun n n' hn => ?_) p) fun n n' hn =>
    List.rel_filter ?_ hn.entries
  · rw [hn.bounds, ha.1]
  · intro e e' he
    simp only [Setting.isCandidate, Setting.retyped, he.2.side]

lemma alike_anchors (h : t.Alike (Item.Alike source f f') t') :
    Forall₂ (fun q q' => q.1 = q'.1 ∧ Octree.Entry.Alike (Item.Alike source f f') q.2 q'.2)
      (Step.anchors s t) (Step.anchors (s.retyped f' m m') t') := by
  refine List.rel_map (fun q q' hq => ⟨hq.1.1, hq.2⟩) (List.rel_filter ?_ h.entries)
  intro q q' hq
  simp only [Setting.isAnchor, Setting.retyped, hq.2.2.side]

lemma alike_schedule (h : t.Alike (Item.Alike source f f') t') :
    Forall₂ (Step.Alike (Item.Alike source f f')) (Step.schedule s t)
      (Step.schedule (s.retyped f' m m') t') := by
  refine List.rel_flatMap (alike_anchors h) ?_
  rintro ⟨p, a⟩ ⟨p', a'⟩ ⟨rfl, ha⟩
  have hc : Forall₂ _ (Step.candidates s t p a) (Step.candidates (s.retyped f' m m') t' p a') :=
    alike_candidates h ha p
  refine .cons .poll (List.rel_append (List.rel_flatMap hc fun c c' hcc => ?_) ?_)
  · exact .cons (.examine ha hcc) (.cons .poll .nil)
  · exact .cons (.finish ha) .nil

end Schedule

section Run

variable {s : Setting} {m m' : Model}

structure Setting.Fetches (s : Setting) (m m' : Model) : Prop where
  first : m.id = s.first.id ∧ m.multiplier = s.first.multiplier
  second : m'.id = s.second.id ∧ m'.multiplier = s.second.multiplier

lemma Setting.Fetches.fetch_retyped (hm : s.Fetches m m') {i i' : Item}
    (hi : i.Alike source f f' i') (t : Tally) : t.fetch (s.retyped f' m m') i' = t.fetch s i := by
  have hside : ((s.retyped f' m m').model i'.side).id = (s.model i.side).id ∧
      ((s.retyped f' m m').model i'.side).multiplier = (s.model i.side).multiplier := by
    rw [← hi.side]
    cases i.side
    · exact hm.first
    · exact hm.second
  have hid : Tally.meshId (s.retyped f' m m') i' = Tally.meshId s i := by
    rw [Tally.meshId, Tally.meshId, hside.1, hi.geometry]
  have hmesh : Tally.freshMesh? (s.retyped f' m m') i' = Tally.freshMesh? s i := by
    rw [Tally.freshMesh?, Tally.freshMesh?, hside.2, hi.geometry]
  rw [Tally.fetch, Tally.fetch, hid, hmesh, hi.object]

lemma Setting.Fetches.compare_retyped (hm : s.Fetches m m') {i i' j j' : Item}
    (hi : i.Alike source f f' i') (hj : j.Alike source f f' j') (t : Tally) :
    t.compare (s.retyped f' m m') i' j' = t.compare s i j := by
  have hid : Tally.meshId (s.retyped f' m m') j' = Tally.meshId s j := by
    cases hside : j.side <;> simp only [Tally.meshId, Setting.model, ← hj.side, hside,
      ← hj.geometry, Setting.retyped, hm.first.1, hm.second.1]
  have hboth : t.fetchBoth (s.retyped f' m m') i' j' = t.fetchBoth s i j := by
    simp only [Tally.fetchBoth, hm.fetch_retyped hi, hm.fetch_retyped hj]
  rw [Tally.compare_eq, Tally.compare_eq, hboth, hid, hi.object, hj.object]
  rfl

variable {a a' c c' : Entry}

lemma alike_isWorth (h : s.filter.Holds source own ignored checked)
    (h' : f'.Holds source own ignored checked)
    (ha : Octree.Entry.Alike (Item.Alike source s.filter f') a a')
    (hc : Octree.Entry.Alike (Item.Alike source s.filter f') c c') (t : Tally) :
    t.isWorth (s.retyped f' m m') a' c' = t.isWorth s a c := by
  rw [Tally.isWorth, Tally.isWorth, ha.1, hc.1, ha.2.object, hc.2.object]
  congr 2
  exact ha.2.admits hc.2 h h' _ _

lemma Setting.Fetches.take_retyped (hm : s.Fetches m m')
    (h : s.filter.Holds source own ignored checked) (h' : f'.Holds source own ignored checked)
    {st st' : Step} (hst : st.Alike (Item.Alike source s.filter f') st') (t : Tally) :
    t.take (s.retyped f' m m') st' = t.take s st := by
  cases hst with
  | poll => rfl
  | examine ha hc =>
    simp only [Tally.take, Tally.examine]
    rw [alike_isWorth h h' ha hc, hm.compare_retyped ha.2 hc.2]
  | finish ha =>
    simp only [Tally.take, Tally.finish]
    rw [ha.2.object]
    rfl

lemma Setting.Fetches.run_retyped (hm : s.Fetches m m')
    (h : s.filter.Holds source own ignored checked) (h' : f'.Holds source own ignored checked)
    {steps steps' : List Step} (hsteps : Forall₂ (Step.Alike (Item.Alike source s.filter f'))
      steps steps') (signals : Signals) (p : Progress) :
    p.run (s.retyped f' m m') signals steps' = p.run s signals steps := by
  induction hsteps generalizing p with
  | nil => rfl
  | @cons st st' steps steps' hst hsteps ih =>
    have hstep : p.step (s.retyped f' m m') signals st' = p.step s signals st := by
      have htake := hm.take_retyped h h' hst p.tally
      cases hst with
      | poll => rfl
      | examine ha hc => exact congrArg (fun t => { p with tally := t }) htake
      | finish ha => exact congrArg (fun t => { p with tally := t }) htake
    rw [Progress.run, Progress.run, hstep, ih]

end Run

end SolidClash.Detection
