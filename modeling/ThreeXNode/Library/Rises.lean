import Mathlib.Data.List.Basic
import Mathlib.Order.Lattice
import Mathlib.Tactic.Ring

namespace ThreeXNode.Library

/-- The sum of the positive steps of a sequence. -/
def rises : List Int → Int
  | a :: b :: rest => max (b - a) 0 + rises (b :: rest)
  | _ => 0

theorem rises_append {values : List Int} {last : Int} (ends : values.getLast? = some last) (a : Int) :
    rises (values ++ [a]) = rises values + max (a - last) 0 := by
  induction values with
  | nil => cases ends
  | cons b rest ih =>
      cases rest with
      | nil =>
          cases ends
          simp [rises]
      | cons c rest =>
          rw [List.getLast?_cons_cons] at ends
          have tail := ih ends
          simp only [List.cons_append, rises] at tail ⊢
          rw [tail, add_assoc]

@[simp] theorem rises_nil : rises [] = 0 := rfl

@[simp] theorem rises_single (a : Int) : rises [a] = 0 := rfl

end ThreeXNode.Library
