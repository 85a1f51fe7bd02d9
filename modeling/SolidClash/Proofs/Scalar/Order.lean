import Mathlib.Data.Prod.Lex
import Mathlib.Tactic.Common
import SolidClash.Scalar

/-! Comparison as the geometry uses it: a linear order of the numbers, apart from values (NaNs) that
compare with nothing. Floating-point numbers are ordered this way. -/

namespace SolidClash

class OrderedScalar (α : Type) [Scalar α] : Prop where
  trans_le : ∀ {a b c : α}, a ≤ b → b ≤ c → a ≤ c
  lt_iff_le : ∀ {a b : α}, a < b ↔ a ≤ b ∧ ¬ b ≤ a
  total_le : ∀ {a b : α}, Scalar.IsNumber a → Scalar.IsNumber b → a ≤ b ∨ b ≤ a
  left_number : ∀ {a b : α}, a ≤ b → Scalar.IsNumber a
  right_number : ∀ {a b : α}, a ≤ b → Scalar.IsNumber b
  finite_number : ∀ {a : α}, Scalar.isFinite a = true → Scalar.IsNumber a

namespace Scalar

variable {α : Type} [Scalar α] {a b : α}

theorem inf_le_second (hb : IsNumber b) : inf a b ≤ b := by
  rw [inf]
  split
  · assumption
  · exact hb

theorem second_le_sup (hb : IsNumber b) : b ≤ sup a b := by
  rw [sup]
  split
  · assumption
  · exact hb

def InOrder (lo hi : α) : Prop := lo ≤ hi ∨ ¬ IsNumber lo ∧ ¬ IsNumber hi

theorem InOrder.refl (a : α) : InOrder a a := (em (IsNumber a)).imp id fun h => ⟨h, h⟩

end Scalar

namespace OrderedScalar

variable {α : Type} [Scalar α] [OrderedScalar α] {a b c : α}

theorem weaken_lt (h : a < b) : a ≤ b := (lt_iff_le.mp h).1

theorem trans_lt_le (h : a < b) (h' : b ≤ c) : a < c :=
  lt_iff_le.mpr ⟨trans_le (weaken_lt h) h', fun hc => (lt_iff_le.mp h).2 (trans_le h' hc)⟩

theorem trans_le_lt (h : a ≤ b) (h' : b < c) : a < c :=
  lt_iff_le.mpr ⟨trans_le h (weaken_lt h'), fun hc => (lt_iff_le.mp h').2 (trans_le hc h)⟩

theorem trans_lt (h : a < b) (h' : b < c) : a < c := trans_lt_le h (weaken_lt h')

theorem irrefl_lt (a : α) : ¬ a < a := fun h => (lt_iff_le.mp h).2 (weaken_lt h)

theorem asymm_lt (h : a < b) : ¬ b < a := fun h' => irrefl_lt a (trans_lt h h')

theorem le_of_not_lt (ha : Scalar.IsNumber a) (hb : Scalar.IsNumber b) (h : ¬ b < a) : a ≤ b := by
  rcases total_le ha hb with hab | hba
  · exact hab
  · by_contra hn
    exact h (lt_iff_le.mpr ⟨hba, hn⟩)

theorem inf_le_first (ha : Scalar.IsNumber a) (hb : Scalar.IsNumber b) : Scalar.inf a b ≤ a := by
  rw [Scalar.inf]
  split
  · exact ha
  · rename_i h
    exact (total_le ha hb).resolve_left h

theorem first_le_sup (ha : Scalar.IsNumber a) (hb : Scalar.IsNumber b) : a ≤ Scalar.sup a b := by
  rw [Scalar.sup]
  split
  · exact ha
  · rename_i h
    exact (total_le hb ha).resolve_left h

end OrderedScalar

namespace Scalar.InOrder

open OrderedScalar

variable {α : Type} [Scalar α] [OrderedScalar α] {a b c : α}

theorem not_lt (h : InOrder a b) : ¬ b < a := by
  intro hlt
  rcases h with h | ⟨h, _⟩
  · exact (lt_iff_le.mp hlt).2 h
  · exact h (right_number (weaken_lt hlt))

theorem outer (h : InOrder b c) (a d : α) : InOrder (inf a b) (sup d c) := by
  rcases h with h | ⟨hb, hc⟩
  · exact Or.inl (trans_le (trans_le (inf_le_second (left_number h)) h)
      (second_le_sup (right_number h)))
  · -- what is no number is not compared: both ends are the second ones
    rw [inf, if_neg fun hab => hb (right_number hab), sup, if_neg fun hcd => hc (left_number hcd)]
    exact Or.inr ⟨hb, hc⟩

end Scalar.InOrder

end SolidClash
