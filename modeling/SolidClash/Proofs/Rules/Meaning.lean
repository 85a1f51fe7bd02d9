import SolidClash.Proofs.Rules.Filter

namespace SolidClash

def Unprefixed (name bare : String) : Prop :=
  name = "Ifc" ++ bare ∧ ∃ c, bare.toList.head? = some c ∧ 'A' ≤ c ∧ c ≤ 'Z'

def Normalized (name key : String) : Prop :=
  Unprefixed name key ∨ (∀ bare, ¬ Unprefixed name bare) ∧ key = name

lemma isUpper_iff (c : Char) : c.isUpper = true ↔ 'A' ≤ c ∧ c ≤ 'Z' :=
  decide_eq_true_iff

lemma unprefixed_iff {name bare : String} :
    Unprefixed name bare ↔ ∃ c rest, name.toList = 'I' :: 'f' :: 'c' :: c :: rest ∧
      c.isUpper = true ∧ bare = String.ofList (c :: rest) := by
  constructor
  · rintro ⟨rfl, c, hc, hupper⟩
    obtain ⟨rest, hrest⟩ := List.head?_eq_some_iff.mp hc
    refine ⟨c, rest, ?_, (isUpper_iff c).mpr hupper, ?_⟩
    · rw [String.toList_append, hrest]
      rfl
    · rw [← hrest, String.ofList_toList]
  · rintro ⟨c, rest, hname, hupper, rfl⟩
    refine ⟨?_, c, by simp, (isUpper_iff c).mp hupper⟩
    apply String.toList_injective
    simp [hname]

lemma normalized_iff {name key : String} : Normalized name key ↔ bareTypeName name = key := by
  unfold Normalized
  simp only [unprefixed_iff]
  unfold bareTypeName
  split
  next c rest hname =>
    simp only [hname, List.cons.injEq, true_and]
    by_cases hc : c.isUpper = true
    · simp only [if_pos hc]
      grind
    · simp only [if_neg hc]
      grind
  next hname => grind

def TypeCombination.Pairs (c : TypeCombination) (m n : String) : Prop :=
  m = c.typeName ∧ (n ∈ c.combinedWith ∨ c.combinedWith = [] ∧ n = c.typeName)

lemma TypeCombination.mem_pairs {c : TypeCombination} {m n : String} :
    (m, n) ∈ c.pairs ↔ c.Pairs m n := by
  rw [pairs, Pairs]
  cases c.combinedWith <;> simp; grind

lemma TypeCombination.pairs_ne_nil (c : TypeCombination) : c.pairs ≠ [] := by
  rw [pairs]
  cases hc : c.combinedWith <;> simp

namespace Rules

variable {r : Rules}

def Spells (r : Rules) (name key : String) : Prop :=
  if r.usesProperty then key = name else Normalized name key

def IsKey (r : Rules) (q : TypeFilter.Request) (key : String) : Prop :=
  match q, r.propertySet, r.property with
  | .intern name, _, _ => r.Spells name key
  | .resolve o, some set, some name => key = o.properties[(set, name)]?.getD ""
  | .resolve o, _, _ => r.Spells o.typeName key

def MarksOwn (r : Rules) (n : String) : Prop :=
  r.skipDefaultRules = false ∧ n ∈ TypeFilter.defaultOwnTypeOnly ∨ n ∈ r.onlyCheckWithOwnType

def Ignores (r : Rules) (m n : String) : Prop :=
  r.skipDefaultRules = false ∧ (m, n) ∈ TypeFilter.defaultIgnored ∨
    ∃ c ∈ r.typesToIgnore, c.Pairs m n

def Checks (r : Rules) (m n : String) : Prop := ∃ c ∈ r.typesToCheck, c.Pairs m n

def Joins (r : Rules) (paired : String → String → Prop) (k l : String) : Prop :=
  ∃ m n, paired m n ∧ (r.Spells m k ∧ r.Spells n l ∨ r.Spells m l ∧ r.Spells n k)

def Matches (r : Rules) (paired : String → String → Prop) (k l : String) : Prop :=
  r.Joins paired k l ∨ r.Joins paired "*" k ∨ r.Joins paired "*" l

def IsOwn (r : Rules) (k : String) : Prop := ∃ n, r.MarksOwn n ∧ r.Spells n k

def Allows (r : Rules) (k l : String) : Prop :=
  (r.typesToCheck = [] ∨ r.Matches r.Checks k l) ∧ (k = l ∨ ¬ r.IsOwn k ∧ ¬ r.IsOwn l) ∧
    ¬ r.Matches r.Ignores k l

lemma spells_iff {name key : String} :
    r.Spells name key ↔ (TypeSource.ofRules r).key name = key := by
  rw [Spells, usesProperty, TypeSource.ofRules]
  cases r.propertySet <;> cases r.property <;> simp [normalized_iff, TypeSource.key, eq_comm]

lemma isKey_iff {q : TypeFilter.Request} {key : String} :
    r.IsKey q key ↔
      (TypeSource.ofRules r).key (q.name (.ofRules r)) = key := by
  rcases q with name | o
  · exact spells_iff
  · cases hs : r.propertySet <;> cases hp : r.property <;>
      simp [IsKey, spells_iff, TypeFilter.Request.name, TypeSource.ofRules, TypeSource.nameOf,
        TypeSource.key, hs, hp, eq_comm, Std.HashMap.getD_eq_getD_getElem?]

lemma mem_ownTypeOnlyNames {n : String} : n ∈ TypeFilter.ownTypeOnlyNames r ↔ r.MarksOwn n := by
  rw [TypeFilter.ownTypeOnlyNames, MarksOwn, List.mem_append]
  cases r.skipDefaultRules <;> simp

lemma mem_ignoredNames {m n : String} : (m, n) ∈ TypeFilter.ignoredNames r ↔ r.Ignores m n := by
  rw [TypeFilter.ignoredNames, Ignores, List.mem_append, List.mem_flatMap]
  cases r.skipDefaultRules <;> simp [TypeCombination.mem_pairs]

lemma mem_checkedNames {m n : String} : (m, n) ∈ TypeFilter.checkedNames r ↔ r.Checks m n := by
  simp [TypeFilter.checkedNames, Checks, TypeCombination.mem_pairs]

lemma checkedNames_eq_nil : TypeFilter.checkedNames r = [] ↔ r.typesToCheck = [] := by
  rw [TypeFilter.checkedNames, List.flatMap_eq_nil_iff]
  simp only [TypeCombination.pairs_ne_nil]
  exact List.eq_nil_iff_forall_not_mem.symm

lemma matches_iff {paired : String → String → Prop} {pairs : List (String × String)}
    (h : ∀ m n, (m, n) ∈ pairs ↔ paired m n) {k l : String} :
    TypeFilter.Lists (.ofRules r) pairs k l ↔ r.Matches paired k l := by
  have hjoins (a b : String) : r.Joins paired a b ↔ ∃ n ∈ pairs,
      s((TypeSource.ofRules r).key n.1, (TypeSource.ofRules r).key n.2) = s(a, b) := by
    simp only [Joins, spells_iff, Prod.exists, h, Sym2.eq_iff]
  simp only [Matches, hjoins, TypeFilter.Lists, List.mem_cons, List.not_mem_nil, or_false,
    ← exists_or, ← and_or_left, TypeFilter.wildcard]

lemma allows_iff {k l : String} :
    TypeFilter.Admits (.ofRules r) (TypeFilter.ownTypeOnlyNames r) (TypeFilter.ignoredNames r)
      (TypeFilter.checkedNames r) k l ↔ r.Allows k l := by
  have hown : (∀ n ∈ TypeFilter.ownTypeOnlyNames r,
      (TypeSource.ofRules r).key n ≠ k ∧ (TypeSource.ofRules r).key n ≠ l) ↔
        ¬ r.IsOwn k ∧ ¬ r.IsOwn l := by
    simp only [IsOwn, spells_iff, mem_ownTypeOnlyNames]
    grind
  rw [TypeFilter.Admits, Allows, checkedNames_eq_nil, hown,
    matches_iff fun _ _ => mem_checkedNames, matches_iff fun _ _ => mem_ignoredNames]

end Rules

namespace TypeFilter

def after (r : Rules) (qs : List Request) : TypeFilter := ((ofRules r).answerAll qs).2

def Answers (r : Rules) (qs : List Request) (q : Request) (id : TypeId) : Prop :=
  (q, id) ∈ qs.zip ((ofRules r).answerAll qs).1

variable {r : Rules} {qs rs : List Request} {q q' : Request} {id id' : TypeId} {k l : String}

lemma exists_answer (h : q ∈ qs) : ∃ id, Answers r qs q id := by
  obtain ⟨-, -, hall⟩ := (holds_ofRules r).answerAll qs
  obtain ⟨i, hi, rfl⟩ := List.getElem_of_mem h
  have hi' := hall.length_eq ▸ hi
  exact ⟨_, List.mem_iff_getElem.mpr ⟨i, by rw [List.length_zip]; omega, List.getElem_zip⟩⟩

lemma after_holds (r : Rules) (qs : List Request) :
    (after r qs).Holds (.ofRules r) (ownTypeOnlyNames r) (ignoredNames r) (checkedNames r) :=
  ((holds_ofRules r).answerAll qs).1

lemma number_of_answers (h : Answers r qs q id) (hk : r.IsKey q k) :
    (after r qs).ids[k]? = some id := by
  obtain ⟨hh, -, hall⟩ := (holds_ofRules r).answerAll qs
  have hid := (List.forall₂_iff_zip.mp hall).2 h
  rwa [Number, hh.source, Rules.isKey_iff.mp hk] at hid

lemma id_eq_iff (h : Answers r qs q id) (h' : Answers r qs q' id') (hk : r.IsKey q k)
    (hl : r.IsKey q' l) : id = id' ↔ k = l := by
  have hid := number_of_answers h hk
  have hid' := number_of_answers h' hl
  constructor
  · rintro rfl
    exact (after_holds r qs).eq_of_ids hid hid'
  · rintro rfl
    exact Option.some.inj (hid.symm.trans hid')

lemma admits_after (h : Answers r qs q id) (h' : Answers r qs q' id') (hk : r.IsKey q k)
    (hl : r.IsKey q' l) (x y : UInt64) :
    (after r qs).admits x id y id' = true ↔ x ≠ y ∧ r.Allows k l := by
  rw [← Rules.allows_iff]
  exact (after_holds r qs).admits_iff (number_of_answers h hk) (number_of_answers h' hl)

/-- Two answers are the same number if and only if they are about the same key, and whether two
objects are compared depends on their ids and keys alone, not on what else was asked, nor when. -/
theorem answers_mean_names (r : Rules) (qs : List Request) :
    (∀ q, ∃! k, r.IsKey q k) ∧ (∀ q ∈ qs, ∃ id, Answers r qs q id) ∧
      ∀ q q' id id' k l, Answers r qs q id → Answers r qs q' id' → r.IsKey q k → r.IsKey q' l →
        (id = id' ↔ k = l) ∧
          ∀ x y, ((after r qs).admits x id y id' = true ↔ x ≠ y ∧ r.Allows k l) ∧
            (after r qs).admits y id' x id = (after r qs).admits x id y id' ∧
            ∀ rs jd jd', Answers r rs q jd → Answers r rs q' jd' →
              (after r rs).admits x jd y jd' = (after r qs).admits x id y id' := by
  refine ⟨fun q => ?_, fun q => exists_answer, ?_⟩
  · exact ⟨_, Rules.isKey_iff.mpr rfl, fun k hk => (Rules.isKey_iff.mp hk).symm⟩
  · intro q q' id id' k l h h' hk hl
    refine ⟨id_eq_iff h h' hk hl, fun x y => ⟨admits_after h h' hk hl x y, ?_, ?_⟩⟩
    · exact admits_comm _ y id' x id
    · intro rs jd jd' hj hj'
      rw [Bool.eq_iff_iff, admits_after hj hj' hk hl, admits_after h h' hk hl]

def partitions : Rules :=
  { skipDefaultRules := true, onlyCheckWithOwnType := ["Space"],
    typesToIgnore := [⟨"IfcWall", ["IfcSlab"]⟩] }

def partitionNames : List Request := [.intern "IfcSlab", .intern "Wall", .intern "IfcWall"]

lemma allows_partitions : partitions.Allows "Wall" "Wall" ∧ ¬ partitions.Allows "Wall" "Slab" := by
  rw [← Rules.allows_iff, ← Rules.allows_iff]
  simp [partitions, Admits, Lists, TypeSource.ofRules, TypeSource.key, bareTypeName, wildcard,
    ownTypeOnlyNames, ignoredNames, checkedNames, TypeCombination.pairs]

theorem answers_mean_names_partitions :
    ∃ wall bare slab, Answers partitions partitionNames (.intern "IfcWall") wall ∧
      Answers partitions partitionNames (.intern "Wall") bare ∧
      Answers partitions partitionNames (.intern "IfcSlab") slab ∧
      partitions.IsKey (.intern "IfcWall") "Wall" ∧ partitions.IsKey (.intern "Wall") "Wall" ∧
      partitions.IsKey (.intern "IfcSlab") "Slab" ∧ wall = bare ∧ wall ≠ slab ∧
      (after partitions partitionNames).admits 1 wall 2 bare = true ∧
      (after partitions partitionNames).admits 1 wall 2 slab = false := by
  obtain ⟨-, hanswer, hmeans⟩ := answers_mean_names partitions partitionNames
  obtain ⟨wall, hwall⟩ := hanswer (.intern "IfcWall") (by simp [partitionNames])
  obtain ⟨bare, hbare⟩ := hanswer (.intern "Wall") (by simp [partitionNames])
  obtain ⟨slab, hslab⟩ := hanswer (.intern "IfcSlab") (by simp [partitionNames])
  have hwallKey : partitions.IsKey (.intern "IfcWall") "Wall" := Rules.isKey_iff.mpr (by decide)
  have hbareKey : partitions.IsKey (.intern "Wall") "Wall" := Rules.isKey_iff.mpr (by decide)
  have hslabKey : partitions.IsKey (.intern "IfcSlab") "Slab" := Rules.isKey_iff.mpr (by decide)
  obtain ⟨hsame, hmeet⟩ := hmeans _ _ _ _ _ _ hwall hbare hwallKey hbareKey
  obtain ⟨hother, hpart⟩ := hmeans _ _ _ _ _ _ hwall hslab hwallKey hslabKey
  refine ⟨wall, bare, slab, hwall, hbare, hslab, hwallKey, hbareKey, hslabKey, hsame.mpr rfl,
    fun heq => absurd (hother.mp heq) (by decide), ?_, ?_⟩
  · exact (hmeet 1 2).1.mpr ⟨by decide, allows_partitions.1⟩
  · rw [← Bool.not_eq_true, (hpart 1 2).1]
    exact fun h => allows_partitions.2 h.2

end TypeFilter

end SolidClash
