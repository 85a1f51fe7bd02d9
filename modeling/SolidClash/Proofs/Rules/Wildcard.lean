import SolidClash.Proofs.Rules.Meaning

/-! Rules with the wildcard in place of a name. Paired with a name the wildcard stands for every
type, so a combination matches no fewer pairs of types after it took the place of a name, unless it
is left paired with itself. -/

namespace SolidClash

/-- The wildcard takes the place of one name. -/
inductive TypeCombination.Widened : TypeCombination → TypeCombination → Prop
  | type (t : String) (ps : List String) : Widened ⟨t, ps⟩ ⟨"*", ps⟩
  | partner (t : String) (ps : List String) (n : String) (qs : List String) :
      Widened ⟨t, ps ++ n :: qs⟩ ⟨t, ps ++ "*" :: qs⟩

namespace Rules

variable {r : Rules} {k l m n m' n' : String}

lemma spells_wildcard : r.Spells n "*" ↔ n = "*" := by
  have hbare : ¬ Unprefixed n "*" := by
    rintro ⟨-, c, hc, hA, -⟩
    obtain rfl : '*' = c := by simpa using hc
    exact absurd hA (by decide)
  rw [Spells]
  split
  · exact eq_comm
  · constructor
    · rintro (h | ⟨-, h⟩)
      · exact absurd h hbare
      · exact h.symm
    · rintro rfl
      exact normalized_iff.mpr (by decide)

def PairMatches (r : Rules) (m n k l : String) : Prop :=
  (r.Spells m k ∧ r.Spells n l ∨ r.Spells m l ∧ r.Spells n k) ∨
    m = "*" ∧ (r.Spells n k ∨ r.Spells n l) ∨ n = "*" ∧ (r.Spells m k ∨ r.Spells m l)

lemma matches_iff_exists {paired : String → String → Prop} :
    r.Matches paired k l ↔ ∃ m n, paired m n ∧ r.PairMatches m n k l := by
  simp only [Matches, Joins, spells_wildcard, PairMatches]
  grind

def PairWidened (m n m' n' : String) : Prop :=
  m' = m ∧ n' = n ∨ m' = "*" ∧ n' = n ∧ n ≠ "*" ∨ m' = m ∧ n' = "*" ∧ m ≠ "*"

lemma PairMatches.widened (h : r.PairMatches m n k l) (hw : PairWidened m n m' n') :
    r.PairMatches m' n' k l := by
  unfold PairMatches at h ⊢
  rcases hw with ⟨rfl, rfl⟩ | ⟨rfl, rfl, hn⟩ | ⟨rfl, rfl, hm⟩
  · exact h
  · grind
  · grind

lemma matches_widened {paired paired' : String → String → Prop}
    (h : ∀ m n, paired m n → ∃ m' n', paired' m' n' ∧ PairWidened m n m' n')
    (hm : r.Matches paired k l) : r.Matches paired' k l := by
  rw [matches_iff_exists] at hm ⊢
  obtain ⟨m, n, hp, hm⟩ := hm
  obtain ⟨m', n', hp', hw⟩ := h m n hp
  exact ⟨m', n', hp', hm.widened hw⟩

end Rules

namespace TypeCombination

open Rules

variable {c c' : TypeCombination} {m n : String}

lemma Widened.exists_pair (h : c.Widened c') (hwild : ¬ c'.Pairs "*" "*") (hp : c.Pairs m n) :
    ∃ m' n', c'.Pairs m' n' ∧ PairWidened m n m' n' := by
  unfold Pairs at hwild hp ⊢
  unfold PairWidened
  cases h with
  | type t ps =>
    simp only [true_and, not_or, and_true] at hwild
    obtain ⟨rfl, hn | ⟨hps, -⟩⟩ := hp
    · exact ⟨"*", n, ⟨rfl, Or.inl hn⟩, Or.inr (Or.inl ⟨rfl, rfl, fun hn' => hwild.1 (hn' ▸ hn)⟩)⟩
    · exact absurd hps hwild.2
  | partner t ps u qs =>
    have ht : t ≠ "*" := by
      rintro rfl
      exact hwild ⟨rfl, Or.inl (by simp)⟩
    obtain ⟨rfl, hn | ⟨hps, -⟩⟩ := hp
    · by_cases hnu : n = u
      · exact ⟨m, "*", ⟨rfl, Or.inl (by simp)⟩, Or.inr (Or.inr ⟨rfl, rfl, ht⟩)⟩
      · exact ⟨m, n, ⟨rfl, Or.inl (by simp at hn ⊢; grind)⟩, Or.inl ⟨rfl, rfl⟩⟩
    · simp at hps

lemma Widened.exists_pair_of_mem (h : c.Widened c') (hwild : ¬ c'.Pairs "*" "*")
    {cs ds : List TypeCombination} (hp : ∃ b ∈ cs ++ c :: ds, b.Pairs m n) :
    ∃ m' n', (∃ b ∈ cs ++ c' :: ds, b.Pairs m' n') ∧ PairWidened m n m' n' := by
  obtain ⟨b, hb, hp⟩ := hp
  rw [List.mem_append, List.mem_cons] at hb
  rcases hb with hb | hb | hb
  · exact ⟨m, n, ⟨b, List.mem_append_left _ hb, hp⟩, Or.inl ⟨rfl, rfl⟩⟩
  · obtain ⟨m', n', hp', hw⟩ := h.exists_pair hwild (hb ▸ hp)
    exact ⟨m', n', ⟨c', by simp, hp'⟩, hw⟩
  · exact ⟨m, n, ⟨b, by simp [hb], hp⟩, Or.inl ⟨rfl, rfl⟩⟩

end TypeCombination

namespace Rules

variable {r : Rules} {c c' : TypeCombination} {cs ds : List TypeCombination} {k l : String}

lemma allows_of_widened_ignore (hc : c.Widened c') (hwild : ¬ c'.Pairs "*" "*")
    (hr : r.typesToIgnore = cs ++ c :: ds)
    (h : { r with typesToIgnore := cs ++ c' :: ds }.Allows k l) : r.Allows k l := by
  obtain ⟨hcheck, hown, hignore⟩ := h
  refine ⟨hcheck, hown, fun hm => hignore (matches_widened (r := r) (fun m n hp => ?_) hm)⟩
  rcases hp with hp | hp
  · exact ⟨m, n, Or.inl hp, Or.inl ⟨rfl, rfl⟩⟩
  · obtain ⟨m', n', hp', hw⟩ := hc.exists_pair_of_mem hwild (hr ▸ hp)
    exact ⟨m', n', Or.inr hp', hw⟩

lemma allows_of_widened_check (hc : c.Widened c') (hwild : ¬ c'.Pairs "*" "*")
    (hr : r.typesToCheck = cs ++ c :: ds) (h : r.Allows k l) :
    { r with typesToCheck := cs ++ c' :: ds }.Allows k l := by
  obtain ⟨hcheck, hown, hignore⟩ := h
  refine ⟨Or.inr ?_, hown, hignore⟩
  have hm := hcheck.resolve_left (by simp [hr])
  exact matches_widened (r := r) (fun m n hp => hc.exists_pair_of_mem hwild (hr ▸ hp)) hm

end Rules

namespace TypeFilter

def Keeps (verdict : Bool) (r r' : Rules) : Prop :=
  ∀ qs rs q q' id id' jd jd' x y, Answers r qs q id → Answers r qs q' id' → Answers r' rs q jd →
    Answers r' rs q' jd' → (after r qs).admits x id y id' = verdict →
    (after r' rs).admits x jd y jd' = verdict

variable {r r' : Rules}

lemma keeps_true_of_allows (hkey : ∀ q k, r.IsKey q k → r'.IsKey q k)
    (hallow : ∀ k l, r.Allows k l → r'.Allows k l) : Keeps true r r' := by
  intro qs rs q q' id id' jd jd' x y h h' hj hj' hmeet
  have hk := Rules.isKey_iff (r := r) (q := q).mpr rfl
  have hl := Rules.isKey_iff (r := r) (q := q').mpr rfl
  rw [admits_after h h' hk hl] at hmeet
  rw [admits_after hj hj' (hkey _ _ hk) (hkey _ _ hl)]
  exact ⟨hmeet.1, hallow _ _ hmeet.2⟩

lemma keeps_false_iff : Keeps false r r' ↔ Keeps true r' r := by
  constructor
  · intro h rs qs q q' jd jd' id id' x y hj hj' hi hi' hmeet
    by_contra hapart
    have hapart' := h qs rs q q' id id' jd jd' x y hi hi' hj hj' (Bool.not_eq_true _ ▸ hapart)
    simp [hmeet] at hapart'
  · intro h qs rs q q' id id' jd jd' x y hi hi' hj hj' hapart
    by_contra hmeet
    have hmeet' := h rs qs q q' jd jd' id id' x y hj hj' hi hi' (Bool.not_eq_false _ ▸ hmeet)
    simp [hapart] at hmeet'

/-- Objects kept apart stay apart after the wildcard took the place of a name in a combination to
ignore, and objects let through are let through after it did so in a combination to check, as long
as it is not left paired with itself. -/
theorem wildcard_matches_more (r : Rules) {c c' : TypeCombination} (hc : c.Widened c')
    (hwild : ¬ c'.Pairs "*" "*") (cs ds : List TypeCombination) :
    (r.typesToIgnore = cs ++ c :: ds →
      Keeps false r { r with typesToIgnore := cs ++ c' :: ds }) ∧
    (r.typesToCheck = cs ++ c :: ds →
      Keeps true r { r with typesToCheck := cs ++ c' :: ds }) := by
  refine ⟨fun hr => keeps_false_iff.mpr ?_, fun hr => ?_⟩
  · exact keeps_true_of_allows (fun _ _ => id) fun _ _ =>
      Rules.allows_of_widened_ignore hc hwild hr
  · exact keeps_true_of_allows (fun _ _ => id) fun _ _ =>
      Rules.allows_of_widened_check hc hwild hr

def ignoring (c : TypeCombination) : Rules := { skipDefaultRules := true, typesToIgnore := [c] }

def checking (c : TypeCombination) : Rules := { skipDefaultRules := true, typesToCheck := [c] }

theorem wildcard_matches_more_slab :
    TypeCombination.Widened ⟨"IfcWall", ["IfcSlab"]⟩ ⟨"*", ["IfcSlab"]⟩ ∧
      ¬ TypeCombination.Pairs ⟨"*", ["IfcSlab"]⟩ "*" "*" ∧
      Keeps false (ignoring ⟨"IfcWall", ["IfcSlab"]⟩) (ignoring ⟨"*", ["IfcSlab"]⟩) ∧
      Keeps true (checking ⟨"IfcWall", ["IfcSlab"]⟩) (checking ⟨"*", ["IfcSlab"]⟩) := by
  have hc : TypeCombination.Widened ⟨"IfcWall", ["IfcSlab"]⟩ ⟨"*", ["IfcSlab"]⟩ := .type _ _
  have hwild : ¬ TypeCombination.Pairs ⟨"*", ["IfcSlab"]⟩ "*" "*" := by
    simp [TypeCombination.Pairs]
  exact ⟨hc, hwild, (wildcard_matches_more (ignoring _) hc hwild [] []).1 rfl,
    (wildcard_matches_more (checking _) hc hwild [] []).2 rfl⟩

section Alone

variable {c c' : TypeCombination} {k l : String}

lemma allows_ignoring :
    (ignoring c).Allows k l ↔ ¬ ∃ m n, c.Pairs m n ∧ (ignoring c).PairMatches m n k l := by
  simp [Rules.Allows, Rules.IsOwn, Rules.MarksOwn, Rules.matches_iff_exists, Rules.Ignores,
    ignoring]

lemma allows_checking :
    (checking c).Allows k l ↔ ∃ m n, c.Pairs m n ∧ (checking c).PairMatches m n k l := by
  simp [Rules.Allows, Rules.IsOwn, Rules.MarksOwn, Rules.matches_iff_exists, Rules.Ignores,
    Rules.Checks, checking]

lemma Keeps.allows (h : Keeps true r r') {name key : String} (hk : r.Spells name key)
    (hk' : r'.Spells name key) (hallow : r.Allows key key) : r'.Allows key key := by
  obtain ⟨id, hid⟩ := exists_answer (r := r) (List.mem_singleton_self (Request.intern name))
  obtain ⟨jd, hjd⟩ := exists_answer (r := r') (List.mem_singleton_self (Request.intern name))
  have hmeet := (admits_after hid hid hk hk 1 2).mpr ⟨by decide, hallow⟩
  exact ((admits_after hjd hjd hk' hk' 1 2).mp (h _ _ _ _ _ _ _ _ _ _ hid hid hjd hjd hmeet)).2

lemma spells_wall (r : Rules) : r.Spells "Wall" "Wall" := by
  rw [Rules.spells_iff]
  cases TypeSource.ofRules r
  · decide
  · rfl

lemma pairMatches_wall (r : Rules) {m n : String}
    (h : (m, n) ∈ [("Wall", "Wall"), ("Wall", "*"), ("*", "Wall")]) :
    r.PairMatches m n "Wall" "Wall" := by
  have hwall := spells_wall r
  simp only [List.mem_cons, Prod.mk.injEq, List.not_mem_nil, or_false] at h
  rcases h with ⟨rfl, rfl⟩ | ⟨rfl, rfl⟩ | ⟨rfl, rfl⟩ <;> simp [Rules.PairMatches, hwall]

lemma not_pairMatches_wildcard (r : Rules) : ¬ r.PairMatches "*" "*" "Wall" "Wall" := by
  have hstar := Rules.spells_iff.mp (Rules.spells_wildcard (r := r).mpr rfl)
  have hother : ¬ r.Spells "*" "Wall" := by
    rw [Rules.spells_iff, hstar]
    decide
  simp [Rules.PairMatches, hother]

variable {m n : String} (hp : c.Pairs m n)
  (hwall : (m, n) ∈ [("Wall", "Wall"), ("Wall", "*"), ("*", "Wall")])
  (halone : ∀ m n, c'.Pairs m n → m = "*" ∧ n = "*")

include hp hwall halone

lemma not_keeps_ignoring : ¬ Keeps false (ignoring c) (ignoring c') := by
  intro h
  have hmeet : (ignoring c').Allows "Wall" "Wall" := by
    rw [allows_ignoring]
    rintro ⟨m, n, hp, hm⟩
    obtain ⟨rfl, rfl⟩ := halone m n hp
    exact not_pairMatches_wildcard _ hm
  exact allows_ignoring.mp ((keeps_false_iff.mp h).allows (spells_wall _) (spells_wall _) hmeet)
    ⟨m, n, hp, pairMatches_wall _ hwall⟩

lemma not_keeps_checking : ¬ Keeps true (checking c) (checking c') := by
  intro h
  have hmeet : (checking c).Allows "Wall" "Wall" :=
    allows_checking.mpr ⟨m, n, hp, pairMatches_wall _ hwall⟩
  obtain ⟨m, n, hp, hm⟩ := allows_checking.mp (h.allows (spells_wall _) (spells_wall _) hmeet)
  obtain ⟨rfl, rfl⟩ := halone m n hp
  exact not_pairMatches_wildcard _ hm

end Alone

theorem wildcard_alone_matches_less :
    (TypeCombination.Widened ⟨"Wall", []⟩ ⟨"*", []⟩ ∧
      ¬ Keeps false (ignoring ⟨"Wall", []⟩) (ignoring ⟨"*", []⟩) ∧
      ¬ Keeps true (checking ⟨"Wall", []⟩) (checking ⟨"*", []⟩)) ∧
    (TypeCombination.Widened ⟨"Wall", ["*"]⟩ ⟨"*", ["*"]⟩ ∧
      ¬ Keeps false (ignoring ⟨"Wall", ["*"]⟩) (ignoring ⟨"*", ["*"]⟩) ∧
      ¬ Keeps true (checking ⟨"Wall", ["*"]⟩) (checking ⟨"*", ["*"]⟩)) ∧
    TypeCombination.Widened ⟨"*", ["Wall"]⟩ ⟨"*", ["*"]⟩ ∧
      ¬ Keeps false (ignoring ⟨"*", ["Wall"]⟩) (ignoring ⟨"*", ["*"]⟩) ∧
      ¬ Keeps true (checking ⟨"*", ["Wall"]⟩) (checking ⟨"*", ["*"]⟩) := by
  have hlone : ∀ m n, TypeCombination.Pairs ⟨"*", []⟩ m n → m = "*" ∧ n = "*" := by
    simp [TypeCombination.Pairs]
  have hboth : ∀ m n, TypeCombination.Pairs ⟨"*", ["*"]⟩ m n → m = "*" ∧ n = "*" := by
    simp [TypeCombination.Pairs]
  have hself : TypeCombination.Pairs ⟨"Wall", []⟩ "Wall" "Wall" := by simp [TypeCombination.Pairs]
  have hwith : TypeCombination.Pairs ⟨"Wall", ["*"]⟩ "Wall" "*" := by simp [TypeCombination.Pairs]
  have hback : TypeCombination.Pairs ⟨"*", ["Wall"]⟩ "*" "Wall" := by simp [TypeCombination.Pairs]
  refine ⟨⟨.type _ _, ?_, ?_⟩, ⟨.type _ _, ?_, ?_⟩, .partner _ [] _ [], ?_, ?_⟩
  · exact not_keeps_ignoring hself (by simp) hlone
  · exact not_keeps_checking hself (by simp) hlone
  · exact not_keeps_ignoring hwith (by simp) hboth
  · exact not_keeps_checking hwith (by simp) hboth
  · exact not_keeps_ignoring hback (by simp) hboth
  · exact not_keeps_checking hback (by simp) hboth

end TypeFilter

end SolidClash
