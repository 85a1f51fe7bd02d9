import Mathlib.Data.List.Basic
import Mathlib.Order.Basic
import Mathlib.Tactic.IntervalCases
import SolidClash.Json.Decode

namespace SolidClash.Json

lemma ok_bind {β γ : Type} (b : β) (f : β → Except Fault γ) : (Except.ok b >>= f) = f b := (rfl)

namespace Decoder

lemma float_ofFloat {x : Float} (h : x.isFinite = true) : float (ofFloat x) = .ok x := by
  rw [ofFloat, if_pos h, float]

lemma nat_ofNat {limit n : ℕ} (h : n < limit) : nat limit (ofNat n) = .ok n := by
  simp [ofNat, nat, h]

lemma word_ofNat (n : UInt64) : word (ofNat n.toNat) = .ok n := by
  rw [word, nat_ofNat n.toNat_lt, Except.map, UInt64.ofNat_toNat]

section Containers

variable {β κ : Type} {d : Decoder β} {f : β → Json}

lemma items_map {bs : List β} (h : ∀ b ∈ bs, d (f b) = .ok b) : items d (bs.map f) = .ok bs := by
  induction bs with
  | nil => rfl
  | cons b bs ih =>
    rw [List.map_cons, items, h b List.mem_cons_self,
      ih fun b hb => h b (List.mem_cons_of_mem _ hb)]
    rfl

lemma list_ofList {bs : List β} (h : ∀ b ∈ bs, d (f b) = .ok b) :
    list d (ofList f bs) = .ok bs := by
  rw [ofList, list, items_map h]
  rfl

lemma option_string (s : Option String) : option string (ofOption .string s) = .ok s := by
  cases s <;> rfl

lemma entries_ofFields {key : Key → Except Fault κ} {name : κ → String} {es : List (κ × β)}
    (hkey : ∀ e ∈ es, key (Key.ofString (name e.1)) = .ok e.1)
    (hvalue : ∀ e ∈ es, d (f e.2) = .ok e.2) :
    entries key d (es.map fun e => (Key.ofString (name e.1), f e.2)) = .ok es := by
  induction es with
  | nil => rfl
  | cons e es ih =>
    rw [List.map_cons, entries, hkey e List.mem_cons_self, hvalue e List.mem_cons_self,
      ih (fun e he => hkey e (List.mem_cons_of_mem _ he))
        fun e he => hvalue e (List.mem_cons_of_mem _ he)]
    rfl

lemma dictionary_ofFields (key : Key → Except Fault κ) (name : κ → String) {es : List (κ × β)}
    (hkey : ∀ e ∈ es, key (Key.ofString (name e.1)) = .ok e.1)
    (hvalue : ∀ e ∈ es, d (f e.2) = .ok e.2) :
    dictionary key d (ofFields (es.map fun e => (name e.1, f e.2))) = .ok es := by
  rw [ofFields, List.map_map, dictionary]
  exact congrArg (Except.bind · _) (entries_ofFields hkey hvalue)

end Containers

end Decoder

section Keys

lemma Numeral.le_digitsValue (n : ℕ) (ds : List Char) : n ≤ Decimal.digitsValue n ds := by
  induction ds generalizing n with
  | nil => exact le_rfl
  | cons d ds ih => exact le_trans (by dsimp only; omega) (ih _)

lemma Numeral.pack_of_lt {n : ℕ} {ds : List Char} (h : Decimal.digitsValue n ds < UInt64.size) :
    pack n ds = (Decimal.digitsValue n ds, []) := by
  induction ds generalizing n with
  | nil => rfl
  | cons d ds ih =>
    have hd : Decimal.digitsValue n [d] < UInt64.size := (le_digitsValue _ ds).trans_lt h
    rw [pack, if_pos hd]
    exact ih h

lemma Numeral.value_toDigits {n : ℕ} (h : n < UInt64.size) :
    value? ⟨false, Nat.toDigits 10 n, none, none⟩ = some (.integer n) := by
  have hvalue : Decimal.digitsValue 0 (Nat.toDigits 10 n) = n := Nat.ofDigitChars_ten_toDigits
  have hpack := pack_of_lt (n := 0) (hvalue.trans_lt h)
  rw [hvalue] at hpack
  simp [value?, hpack]

lemma isDigit_toDigits (n : ℕ) : ∀ c ∈ Nat.toDigits 10 n, c.isDigit = true :=
  fun _ hc => Nat.isDigit_of_mem_toDigits (by decide) (by decide) hc

lemma toDigits_ne_zero_cons {n : ℕ} (h : 0 < n) (ds : List Char) :
    Nat.toDigits 10 n ≠ '0' :: ds := by
  induction n using Nat.strong_induction_on generalizing ds with
  | _ n ih =>
    rcases lt_or_ge n 10 with hn | hn
    · rw [Nat.toDigits_of_lt_base hn]
      interval_cases n <;> simp_all [Nat.digitChar]
    · rw [Nat.toDigits_of_base_le (by decide) hn]
      intro heq
      rcases List.append_eq_cons_iff.mp heq with ⟨hnil, -⟩ | ⟨es, hes, -⟩
      · exact Nat.toDigits_ne_nil hnil
      · exact ih (n / 10) (by omega) (by omega) es hes

lemma spanDigits_toDigits (n : ℕ) (rest : List Char) :
    Decimal.spanDigits (Nat.toDigits 10 n ++ '"' :: rest) = (Nat.toDigits 10 n, '"' :: rest) := by
  rw [Decimal.spanDigits, List.takeWhile_append_of_pos (isDigit_toDigits n),
    List.dropWhile_append_of_pos (isDigit_toDigits n)]
  simp [Char.isDigit]

lemma scanNumeral_toDigits (n : ℕ) (rest : List Char) :
    scanNumeral (Nat.toDigits 10 n ++ '"' :: rest) =
      .ok (⟨false, Nat.toDigits 10 n, none, none⟩, '"' :: rest) := by
  have hspan := spanDigits_toDigits n rest
  rcases Nat.eq_zero_or_pos n with rfl | hpos
  · rfl
  obtain ⟨d, ds, hds⟩ := List.exists_cons_of_ne_nil (Nat.toDigits_ne_nil (b := 10) (n := n))
  have hminus : d ≠ '-' := by
    rintro rfl
    simpa using isDigit_toDigits n '-' (by simp [hds])
  have hzero : d ≠ '0' := by
    rintro rfl
    exact toDigits_ne_zero_cons hpos ds hds
  rw [hds, List.cons_append] at hspan ⊢
  simp [scanNumeral, hminus, hspan, hzero, scanFraction, scanExponent]

lemma Key.readWord_ofString (n : UInt64) :
    (Key.ofString (toString n.toNat)).readWord = .ok n := by
  have hread : readNumber (Nat.toDigits 10 n.toNat ++ ['"']) =
      (ofNat n.toNat, some ['"']) := by
    rw [readNumber, scanNumeral_toDigits]
    simp only [Numeral.value_toDigits n.toNat_lt, ofNat]
  obtain ⟨d, ds, hds⟩ := List.exists_cons_of_ne_nil (Nat.toDigits_ne_nil (b := 10) (n := n.toNat))
  have hdigit : d.isDigit = true := isDigit_toDigits n.toNat d (by simp [hds])
  rw [hds] at hread
  simp [Key.readWord, Key.ofString, hds, hdigit, hread, Decoder.word_ofNat] at hread ⊢

end Keys

namespace Record

variable {schema : List Field} {strict : Bool} {seen fs : Record}

lemma check_of {β : Type} {d : Decoder β} {j : Json} {b : β} (h : d j = .ok b) (name : String)
    (required : Bool) : (Field.of name required d).check j = .ok () := by
  simp [Field.of, h, Except.map]

def Known (schema : List Field) (e : String × Json) : Prop :=
  ∃ f, schema.find? (·.name == e.1) = some f ∧ f.check e.2 = .ok ()

lemma lookup_of_nodup {e : String × Json} (h : ((seen ++ e :: fs).map Prod.fst).Nodup) :
    seen.lookup e.1 = none := by
  rw [List.lookup_eq_none_iff]
  intro e' he'
  have hnodup := List.nodup_append.mp (List.map_append ▸ h)
  simpa using (hnodup.2.2 e'.1 (List.mem_map_of_mem he') e.1 (by simp)).symm

lemma ofObject_ofFields (strict : Bool) (seen : Record) (hknown : ∀ e ∈ fs, Known schema e)
    (hnodup : ((seen ++ fs).map Prod.fst).Nodup) :
    ofObject schema strict seen (fs.map fun e => (Key.ofString e.1, e.2)) = .ok (seen ++ fs) := by
  induction fs generalizing seen with
  | nil => simp [ofObject]
  | cons e fs ih =>
    obtain ⟨f, hf, hcheck⟩ := hknown e List.mem_cons_self
    have hfresh := lookup_of_nodup hnodup
    have hrest := ih (seen ++ [e]) (fun e he => hknown e (List.mem_cons_of_mem _ he))
      (by simpa using hnodup)
    rw [List.map_cons, ofObject, Key.read, Key.ofString]
    simp only [bind, Except.bind, hf, hfresh, Option.isSome_none, Bool.false_eq_true, ↓reduceIte,
      hcheck]
    simpa using hrest

lemma find?_name (hnodup : (schema.map Field.name).Nodup) {f : Field} (hf : f ∈ schema) :
    schema.find? (·.name == f.name) = some f := by
  induction schema with
  | nil => cases hf
  | cons g schema ih =>
    rw [List.map_cons, List.nodup_cons] at hnodup
    rcases List.mem_cons.mp hf with rfl | hf
    · simp
    · have hne : g.name ≠ f.name := fun h => hnodup.1 (h ▸ List.mem_map_of_mem hf)
      simp [hne, ih hnodup.2 hf]

def Suits (f : Field) (e : String × Json) : Prop := f.name = e.1 ∧ f.check e.2 = .ok ()

lemma names_of_suits (h : List.Forall₂ Suits schema fs) :
    fs.map Prod.fst = schema.map Field.name := by
  induction h with
  | nil => rfl
  | cons hfe _ ih => rw [List.map_cons, List.map_cons, ih, hfe.1]

lemma known_of_suits (hnodup : (schema.map Field.name).Nodup)
    (h : List.Forall₂ Suits schema fs) : ∀ e ∈ fs, Known schema e := by
  intro e he
  have hfield : ∃ f ∈ schema, Suits f e := by
    clear hnodup
    induction h with
    | nil => cases he
    | @cons f _ schema _ hfe _ ih =>
      rcases List.mem_cons.mp he with rfl | he
      · exact ⟨f, List.mem_cons_self, hfe⟩
      · obtain ⟨g, hg, hge⟩ := ih he
        exact ⟨g, List.mem_cons_of_mem f hg, hge⟩
  obtain ⟨f, hf, hname, hcheck⟩ := hfield
  exact ⟨f, hname ▸ find?_name hnodup hf, hcheck⟩

lemma ofJson_ofFields (hnodup : (schema.map Field.name).Nodup)
    (h : List.Forall₂ Suits schema fs) : ofJson schema strict (ofFields fs) = .ok fs := by
  have hnames := names_of_suits h
  have hall : (schema.all fun f => !f.required || (fs.lookup f.name).isSome) = true := by
    rw [List.all_eq_true]
    intro f hf
    obtain ⟨e, he, hname⟩ := List.mem_map.mp (hnames ▸ List.mem_map_of_mem hf)
    rw [List.lookup_isSome_iff.mpr ⟨e, he, by simp [hname]⟩, Bool.or_true]
  have hobject := ofObject_ofFields strict [] (known_of_suits hnodup h)
    (by simpa [hnames] using hnodup)
  rw [List.nil_append] at hobject
  simp only [ofFields, ofJson, hobject, ok_bind, Decoder.close, hall, ↓reduceIte]
  rfl

end Record

end SolidClash.Json
