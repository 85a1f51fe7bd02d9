import SolidClash.Proofs.Mesh.Pairing
import SolidClash.Proofs.Weld.Number

/-! As long as no half-edge is repeated, a surface is watertight if each half-edge has its reverse.
A repeated one may be lost, and then the order of the triangles decides. -/

namespace SolidClash

namespace Triangle

variable {α : Type}

def sides (t : Triangle α) : List (Vec α × Vec α) := [(t.a, t.b), (t.b, t.c), (t.c, t.a)]

def turned (t : Triangle α) : Triangle α := ⟨t.b, t.c, t.a⟩

def back (t : Triangle α) : Triangle α := ⟨t.a, t.c, t.b⟩

lemma sides_turned (t : Triangle α) : t.turned.sides.Perm t.sides :=
  (List.perm_append_singleton (t.a, t.b) [(t.b, t.c), (t.c, t.a)])

lemma corners_of_mem_sides {t : Triangle α} {s : Vec α × Vec α} (h : s ∈ t.sides) :
    s.1 ∈ t.corners ∧ s.2 ∈ t.corners := by
  simp only [sides, List.mem_cons, List.not_mem_nil, or_false] at h
  rcases h with rfl | rfl | rfl <;> simp [corners]

end Triangle

namespace Mesh

variable {α : Type}

def Relisted (ts ts' : List (Triangle α)) : Prop :=
  ∃ us, us.Perm ts ∧
    List.Forall₂ (fun u t => t = u ∨ t = u.turned ∨ t = u.turned.turned) us ts'

lemma Relisted.sides_perm {ts ts' : List (Triangle α)} (h : Relisted ts ts') :
    (ts'.flatMap Triangle.sides).Perm (ts.flatMap Triangle.sides) := by
  obtain ⟨us, hperm, hus⟩ := h
  refine List.Perm.trans ?_ (hperm.flatMap_right _)
  clear hperm
  induction hus with
  | nil => exact .refl _
  | cons htu _ ih =>
    simp only [List.flatMap_cons]
    apply List.Perm.append _ ih
    rcases htu with rfl | rfl | rfl
    · exact .refl _
    · exact Triangle.sides_turned _
    · exact (Triangle.sides_turned _).trans (Triangle.sides_turned _)

lemma halfEdges_map (n : Vec α → ℕ) (ts : List (Triangle α)) :
    halfEdges ((ts.flatMap Triangle.corners).map n) =
      (ts.flatMap Triangle.sides).map (Prod.map n n) := by
  induction ts with
  | nil => rfl
  | cons t ts ih =>
    simp only [List.flatMap_cons, List.map_append, ← ih]
    rfl

def weldedEdges [Scalar α] (ts : List (Triangle α)) : List HalfEdge :=
  halfEdges (weldedCorners ts)

noncomputable def number (ts : List (Triangle ℝ)) (p : Vec ℝ) : ℕ :=
  (((Weld.new weldTolerance).insertAll (ts.flatMap Triangle.corners)).2.find? p).getD 0

lemma weldTolerance_nonneg : (0 : ℝ) ≤ weldTolerance := by
  norm_num [weldTolerance]

lemma insertAll_corners (ts : List (Triangle ℝ)) :
    (weldedCorners ts).map some = (ts.flatMap Triangle.corners).map
      ((Weld.new weldTolerance).insertAll (ts.flatMap Triangle.corners)).2.find? :=
  (Weld.filed_new (weldTolerance : ℝ)).insertAll_eq_find? (Weld.self_mem_around_real _)
    (Weld.near_self_real _ weldTolerance_nonneg) _

lemma exists_number {ts : List (Triangle ℝ)} {p : Vec ℝ}
    (hp : p ∈ ts.flatMap Triangle.corners) :
    ∃ id, ((Weld.new weldTolerance).insertAll (ts.flatMap Triangle.corners)).2.find? p =
      some id := by
  have hmem := List.mem_map_of_mem (f := ((Weld.new (weldTolerance : ℝ)).insertAll
    (ts.flatMap Triangle.corners)).2.find?) hp
  rw [← insertAll_corners, List.mem_map] at hmem
  obtain ⟨id, _, hid⟩ := hmem
  exact ⟨id, hid.symm⟩

lemma weldedCorners_eq_map (ts : List (Triangle ℝ)) :
    weldedCorners ts = (ts.flatMap Triangle.corners).map (number ts) := by
  have h := congrArg (List.map fun n : Option ℕ => n.getD 0) (insertAll_corners ts)
  simp only [List.map_map, Function.comp_def, Option.getD_some, List.map_id'] at h
  exact h

lemma number_eq_iff {ts : List (Triangle ℝ)}
    (hapart : ∀ p ∈ ts.flatMap Triangle.corners, ∀ q ∈ ts.flatMap Triangle.corners,
      (Weld.new (weldTolerance : ℝ)).Near p q → q = p) {p q : Vec ℝ}
    (hp : p ∈ ts.flatMap Triangle.corners) (hq : q ∈ ts.flatMap Triangle.corners) :
    number ts p = number ts q ↔ p = q := by
  refine ⟨fun h => ?_, congrArg _⟩
  have hfiled := (Weld.filed_new (weldTolerance : ℝ)).insertAll (ts.flatMap Triangle.corners)
  obtain ⟨i, hi⟩ := exists_number hp
  obtain ⟨j, hj⟩ := exists_number hq
  rw [number, number, hi, hj, Option.getD_some, Option.getD_some] at h
  subst h
  apply hfiled.find?_inj hi hj
  intro r hr s hs hnear
  have hr := (Weld.mem_points_insertAll hr).resolve_left (by simp [Weld.new])
  rw [Weld.Near, Weld.tolerance_insertAll] at hnear
  rcases hs with rfl | rfl
  · exact hapart s hp r hr hnear
  · exact hapart s hq r hr hnear

lemma weldedEdges_eq_map (ts : List (Triangle ℝ)) :
    weldedEdges ts = (ts.flatMap Triangle.sides).map (Prod.map (number ts) (number ts)) := by
  rw [weldedEdges, weldedCorners_eq_map, halfEdges_map]

lemma isWatertight_eq_true {ts : List (Triangle α)} [Scalar α] :
    isWatertight ts = true ↔ ts ≠ [] ∧ ((weldedEdges ts).foldl pairUp ∅).isEmpty = true := by
  simp [isWatertight, weldedEdges]

def Partnered (n : Vec ℝ → ℕ) (ss : List (Vec ℝ × Vec ℝ)) : Prop :=
  ∀ s ∈ ss, n s.1 ≠ n s.2 ∧ ∃ r ∈ ss, n r.1 = n s.2 ∧ n r.2 = n s.1

lemma partnered_iff (n : Vec ℝ → ℕ) (ss : List (Vec ℝ × Vec ℝ)) :
    Partnered n ss ↔
      ∀ e ∈ ss.map (Prod.map n n), e.swap ≠ e ∧ e.swap ∈ ss.map (Prod.map n n) := by
  rw [Partnered, List.forall_mem_map]
  simp only [List.mem_map]
  apply forall₂_congr
  intro s _
  apply and_congr
  · simp [Prod.ext_iff, eq_comm]
  · simp [Prod.ext_iff]

lemma isWatertight_iff_partnered {ts : List (Triangle ℝ)}
    (hes : (weldedEdges ts).Nodup) :
    isWatertight ts = true ↔ ts ≠ [] ∧ Partnered (number ts) (ts.flatMap Triangle.sides) := by
  rw [isWatertight_eq_true, isEmpty_foldl_pairUp_of_nodup hes, partnered_iff,
    weldedEdges_eq_map]

lemma corners_of_mem_flatMap {ts : List (Triangle α)} {s : Vec α × Vec α}
    (hs : s ∈ ts.flatMap Triangle.sides) :
    s.1 ∈ ts.flatMap Triangle.corners ∧ s.2 ∈ ts.flatMap Triangle.corners := by
  obtain ⟨t, ht, hs⟩ := List.mem_flatMap.mp hs
  have h := Triangle.corners_of_mem_sides hs
  exact ⟨List.mem_flatMap.mpr ⟨t, ht, h.1⟩, List.mem_flatMap.mpr ⟨t, ht, h.2⟩⟩

def WeldedAlike (ts ts' : List (Triangle ℝ)) : Prop :=
  ∀ p ∈ ts.flatMap Triangle.corners, ∀ q ∈ ts.flatMap Triangle.corners,
    number ts p = number ts q ↔ number ts' p = number ts' q

namespace WeldedAlike

variable {ts ts' : List (Triangle ℝ)} (hsame : WeldedAlike ts ts')

include hsame

lemma partnered :
    Partnered (number ts) (ts.flatMap Triangle.sides) ↔
      Partnered (number ts') (ts.flatMap Triangle.sides) := by
  apply forall₂_congr
  intro s hs
  obtain ⟨h₁, h₂⟩ := corners_of_mem_flatMap hs
  rw [ne_eq, hsame _ h₁ _ h₂]
  apply and_congr_right
  intro _
  apply exists_congr
  intro r
  apply and_congr_right
  intro hr
  obtain ⟨k₁, k₂⟩ := corners_of_mem_flatMap hr
  rw [hsame _ k₁ _ h₂, hsame _ k₂ _ h₁]

lemma nodup :
    ((ts.flatMap Triangle.sides).map (Prod.map (number ts) (number ts))).Nodup ↔
      ((ts.flatMap Triangle.sides).map (Prod.map (number ts') (number ts'))).Nodup := by
  simp only [List.Nodup, List.pairwise_map]
  apply List.Pairwise.iff_of_mem
  intro s r hs hr
  obtain ⟨h₁, h₂⟩ := corners_of_mem_flatMap hs
  obtain ⟨k₁, k₂⟩ := corners_of_mem_flatMap hr
  simp [Prod.ext_iff, hsame _ h₁ _ k₁, hsame _ h₂ _ k₂]

end WeldedAlike

lemma isWatertight_of_relisted {ts ts' : List (Triangle ℝ)}
    (hes : (weldedEdges ts).Nodup) (h : Relisted ts ts') (hsame : WeldedAlike ts ts') :
    isWatertight ts' = isWatertight ts := by
  have hperm := h.sides_perm
  have hes' : (weldedEdges ts').Nodup := by
    rw [weldedEdges_eq_map] at hes ⊢
    exact (hperm.map _).nodup_iff.mpr (hsame.nodup.mp hes)
  have hnil : ts' ≠ [] ↔ ts ≠ [] := by
    obtain ⟨us, hus, hts⟩ := h
    rw [not_iff_not, ← List.length_eq_zero_iff, ← hts.length_eq, hus.length_eq,
      List.length_eq_zero_iff]
  have hpart : Partnered (number ts') (ts'.flatMap Triangle.sides) ↔
      Partnered (number ts) (ts.flatMap Triangle.sides) := by
    rw [hsame.partnered]
    simp only [Partnered, hperm.mem_iff]
  rw [Bool.eq_iff_iff, isWatertight_iff_partnered hes', isWatertight_iff_partnered hes, hnil, hpart]

noncomputable def face : Triangle ℝ := ⟨⟨0, 0, 0⟩, ⟨1, 0, 0⟩, ⟨0, 1, 0⟩⟩

lemma near_face {p q : Vec ℝ} (hp : p ∈ face.corners) (hq : q ∈ face.corners)
    (h : (Weld.new (weldTolerance : ℝ)).Near p q) : q = p := by
  simp only [face, Triangle.corners, List.mem_cons, List.not_mem_nil, or_false] at hp hq
  revert h
  rcases hp with rfl | rfl | rfl <;> rcases hq with rfl | rfl | rfl <;>
    norm_num [Weld.Near, Weld.new, weldTolerance]

lemma number_face (ts : List (Triangle ℝ)) (h : face ∈ ts)
    (hts : ts.flatMap Triangle.corners ⊆ face.corners) :
    number ts face.a ≠ number ts face.b ∧ number ts face.b ≠ number ts face.c ∧
      number ts face.c ≠ number ts face.a := by
  have hmem (p : Vec ℝ) (hp : p ∈ face.corners) : p ∈ ts.flatMap Triangle.corners :=
    List.mem_flatMap.mpr ⟨face, h, hp⟩
  have hne {p q : Vec ℝ} (hp : p ∈ face.corners) (hq : q ∈ face.corners) (h : p ≠ q) :
      number ts p ≠ number ts q := by
    rwa [ne_eq, number_eq_iff (fun p hp q hq => near_face (hts hp) (hts hq)) (hmem p hp)
      (hmem q hq)]
  exact ⟨hne (by simp [Triangle.corners]) (by simp [Triangle.corners]) (by simp [face]),
    hne (by simp [Triangle.corners]) (by simp [Triangle.corners]) (by simp [face]),
    hne (by simp [Triangle.corners]) (by simp [Triangle.corners]) (by simp [face])⟩

def rim (a b c : ℕ) : List HalfEdge := [(a, b), (b, c), (c, a)]

section Doubled

variable {a b c : ℕ} (hab : a ≠ b) (hbc : b ≠ c) (hca : c ≠ a)

include hab hbc hca

lemma isEmpty_doubled :
    ((rim a b c ++ rim a b c ++ rim a c b).foldl pairUp ∅).isEmpty = true := by
  have hs (i j : ℕ) (h : i ≠ j) : Settled [(i, j), (i, j), (j, i)] :=
    .run (k := 1) (fun he => (h (Prod.mk.inj he).2).elim) .nil
  rw [isEmpty_foldl_pairUp]
  simp [rim, along, hab, hbc, hca, hab.symm, hbc.symm, hca.symm, hs]

lemma isEmpty_back_between :
    ((rim a b c ++ rim a c b ++ rim a b c).foldl pairUp ∅).isEmpty = false := by
  rw [Bool.eq_false_iff, ne_eq, isEmpty_foldl_pairUp]
  intro h
  have hw := h (a, b) (by simp [rim])
  rw [← settled_iff fun x hx => (mem_along.mp hx).2] at hw
  simp [rim, along, waiting, hab, hca, hab.symm, hbc.symm] at hw

lemma count_doubled : (rim a b c ++ rim a b c ++ rim a c b).count (a, b) = 2 := by
  simp [rim, hab, hbc, hca, hab.symm, hbc.symm, hca.symm]

lemma nodup_folded : (rim a b c ++ rim a c b).Nodup := by
  simp [rim, hab, hbc, hca, hab.symm, hbc.symm, hca.symm]

lemma swap_mem_folded :
    ∀ e ∈ rim a b c ++ rim a c b, e.swap ≠ e ∧ e.swap ∈ rim a b c ++ rim a c b := by
  simp [rim, hab, hbc, hca, hab.symm, hbc.symm, hca.symm]

end Doubled

lemma sides_of_three {n : Vec ℝ → ℕ} {s t u : Triangle ℝ} :
    ([s, t, u].flatMap Triangle.sides).map (Prod.map n n) =
      rim (n s.a) (n s.b) (n s.c) ++ rim (n t.a) (n t.b) (n t.c) ++
        rim (n u.a) (n u.b) (n u.c) := rfl

lemma sides_of_two {n : Vec ℝ → ℕ} {s t : Triangle ℝ} :
    ([s, t].flatMap Triangle.sides).map (Prod.map n n) =
      rim (n s.a) (n s.b) (n s.c) ++ rim (n t.a) (n t.b) (n t.c) := rfl

lemma weldedAlike_of_face {ts ts' : List (Triangle ℝ)}
    (hts : ts.flatMap Triangle.corners ⊆ face.corners)
    (hts' : ts'.flatMap Triangle.corners ⊆ face.corners)
    (hall : face.corners ⊆ ts'.flatMap Triangle.corners) : WeldedAlike ts ts' := by
  intro p hp q hq
  rw [number_eq_iff (fun p hp q hq => near_face (hts hp) (hts hq)) hp hq,
    number_eq_iff (fun p hp q hq => near_face (hts' hp) (hts' hq)) (hall (hts hp)) (hall (hts hq))]

/-- A surface is watertight exactly if the half-edges along each of its edges settle. Without a
repeated half-edge this means that each has a reverse other than itself, and then another order of
the triangles and of their corners does not matter as long as the same corners are one. -/
theorem isWatertight_pairs (ts : List (Triangle ℝ)) :
    (isWatertight ts = true ↔ ts ≠ [] ∧ ∀ e ∈ weldedEdges ts,
      Settled (along e (weldedEdges ts))) ∧
    ((weldedEdges ts).Nodup →
      (isWatertight ts = true ↔ ts ≠ [] ∧ ∀ e ∈ weldedEdges ts,
        e.swap ≠ e ∧ e.swap ∈ weldedEdges ts) ∧
      ∀ ts', Relisted ts ts' → WeldedAlike ts ts' → isWatertight ts' = isWatertight ts) := by
  refine ⟨?_, fun hes => ⟨?_, fun ts' h hsame => isWatertight_of_relisted hes h hsame⟩⟩
  · rw [isWatertight_eq_true, isEmpty_foldl_pairUp]
  · rw [isWatertight_eq_true, isEmpty_foldl_pairUp_of_nodup hes]

theorem isWatertight_pairs_folded :
    (weldedEdges [face, face.back]).Nodup ∧
      isWatertight [face, face.back] = true ∧ isWatertight [face.back, face.turned] = true := by
  have hsub : [face, face.back].flatMap Triangle.corners ⊆ face.corners := by
    simp [Triangle.corners, Triangle.back]
  have hsub' : [face.back, face.turned].flatMap Triangle.corners ⊆ face.corners := by
    simp [Triangle.corners, Triangle.back, Triangle.turned]
  have hall : face.corners ⊆ [face.back, face.turned].flatMap Triangle.corners := by
    simp [Triangle.corners, Triangle.back, Triangle.turned]
  obtain ⟨hab, hbc, hca⟩ := number_face [face, face.back] List.mem_cons_self hsub
  have hes : (weldedEdges [face, face.back]).Nodup := by
    rw [weldedEdges_eq_map, sides_of_two]
    exact nodup_folded hab hbc hca
  obtain ⟨hpairs, hlisted⟩ := (isWatertight_pairs [face, face.back]).2 hes
  have hclosed : isWatertight [face, face.back] = true := by
    rw [hpairs, weldedEdges_eq_map, sides_of_two]
    exact ⟨by simp, swap_mem_folded hab hbc hca⟩
  have hrel : Relisted [face, face.back] [face.back, face.turned] :=
    ⟨[face.back, face], .swap _ _ _, by simp⟩
  refine ⟨hes, hclosed, ?_⟩
  rw [hlisted _ hrel (weldedAlike_of_face hsub hsub' hall), hclosed]

theorem isWatertight_of_doubled :
    isWatertight [face, face, face.back] = true ∧
      (¬ ∀ e ∈ weldedEdges [face, face, face.back],
        (weldedEdges [face, face, face.back]).count e = 1 ∧
          (weldedEdges [face, face, face.back]).count e.swap = 1) ∧
      Relisted [face, face, face.back] [face, face.back, face] ∧
      WeldedAlike [face, face, face.back] [face, face.back, face] ∧
      isWatertight [face, face.back, face] = false := by
  have hsub : [face, face, face.back].flatMap Triangle.corners ⊆ face.corners := by
    simp [Triangle.corners, Triangle.back]
  have hsub' : [face, face.back, face].flatMap Triangle.corners ⊆ face.corners := by
    simp [Triangle.corners, Triangle.back]
  have hall : face.corners ⊆ [face, face.back, face].flatMap Triangle.corners := by
    simp [Triangle.corners, Triangle.back]
  obtain ⟨hab, hbc, hca⟩ := number_face [face, face, face.back] List.mem_cons_self hsub
  obtain ⟨hab', hbc', hca'⟩ := number_face [face, face.back, face] List.mem_cons_self hsub'
  refine ⟨?_, ?_, ⟨[face, face.back, face], .cons _ (.swap _ _ _), by simp⟩,
    weldedAlike_of_face hsub hsub' hall, ?_⟩
  · rw [isWatertight_eq_true, weldedEdges_eq_map, sides_of_three]
    exact ⟨by simp, isEmpty_doubled hab hbc hca⟩
  · intro h
    rw [weldedEdges_eq_map, sides_of_three] at h
    have htwice := count_doubled hab hbc hca
    have hone := (h (number [face, face, face.back] face.a, number [face, face, face.back] face.b)
      (by simp [rim])).1
    exact absurd (htwice.symm.trans hone) (by decide)
  · rw [Bool.eq_false_iff, ne_eq, isWatertight_eq_true, weldedEdges_eq_map,
      sides_of_three]
    rintro ⟨_, h⟩
    exact absurd ((isEmpty_back_between hab' hbc' hca').symm.trans h) (by decide)

end Mesh

end SolidClash
