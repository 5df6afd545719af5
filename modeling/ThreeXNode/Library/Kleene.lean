import Mathlib

namespace ThreeXNode.Library

/-! # Truth values of SQL -/

abbrev Truth := Option Bool

namespace Truth

def and : Truth → Truth → Truth
  | some false, _ => some false
  | some true, b => b
  | none, some false => some false
  | none, _ => none

def or : Truth → Truth → Truth
  | some true, _ => some true
  | some false, b => b
  | none, some true => some true
  | none, _ => none

def not (a : Truth) : Truth := a.map (!·)

def is (p : Prop) [Decidable p] : Truth := some (decide p)

theorem and_is {p q : Prop} [Decidable p] [Decidable q] : (is p).and (is q) = is (p ∧ q) := by
  by_cases p <;> by_cases q <;> simp_all [is, and]

theorem or_is {p q : Prop} [Decidable p] [Decidable q] : (is p).or (is q) = is (p ∨ q) := by
  by_cases p <;> by_cases q <;> simp_all [is, or]

theorem not_is {p : Prop} [Decidable p] : (is p).not = is (¬p) := by
  by_cases p <;> simp_all [is, not]

@[simp] theorem is_eq_true {p : Prop} [Decidable p] : is p = some true ↔ p := by
  simp [is]

theorem and_eq_true {a b : Truth} : a.and b = some true ↔ a = some true ∧ b = some true := by
  cases a with
  | none => cases b with
    | none => simp [and]
    | some b => cases b <;> simp [and]
  | some a => cases a <;> simp [and]

theorem or_eq_true {a b : Truth} : a.or b = some true ↔ a = some true ∨ b = some true := by
  cases a with
  | none => cases b with
    | none => simp [or]
    | some b => cases b <;> simp [or]
  | some a => cases a <;> simp [or]

theorem or_none {a b : Truth} (h : a.or b ≠ none) (left : a = none) : b = some true := by
  subst left
  cases b with
  | none => exact absurd rfl h
  | some b => cases b with
    | false => exact absurd rfl h
    | true => rfl

theorem none_or {a b : Truth} (h : a.or b ≠ none) (right : b = none) : a = some true := by
  subst right
  cases a with
  | none => exact absurd rfl h
  | some a => cases a with
    | false => exact absurd rfl h
    | true => rfl

end Truth

/-! ## Aggregates -/

/-- `MAX` passes over NULL. -/
def sqlMax : List (Option Int) → Option Int
  | [] => none
  | none :: rest => sqlMax rest
  | some n :: rest => some (match sqlMax rest with | none => n | some m => max n m)

/-- The items of one page, where `offset` rows are passed over. -/
def pageOf {α : Type*} (offset limit : Nat) (rows : List α) : List α := (rows.drop offset).take limit

theorem flatMap_pageOf {α : Type*} (size n : Nat) (rows : List α) :
    ((List.range n).flatMap fun k => pageOf (k * size) size rows) = rows.take (n * size) := by
  induction n with
  | zero => simp
  | succ n ih =>
      rw [List.range_succ, List.flatMap_append, ih, List.flatMap_singleton, pageOf, Nat.succ_mul, List.take_add]

end ThreeXNode.Library
