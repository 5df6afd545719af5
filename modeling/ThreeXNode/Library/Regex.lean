import Mathlib.Computability.Language

namespace ThreeXNode.Library

inductive Regex (α : Type*) where
  | never
  | empty
  | letter (p : α → Bool)
  | either (r s : Regex α)
  | next (r s : Regex α)
  | many (r : Regex α)

namespace Regex

variable {α : Type*}

def language : Regex α → Language α
  | never => 0
  | empty => 1
  | letter p => {w | ∃ a, p a = true ∧ w = [a]}
  | either r s => r.language + s.language
  | next r s => r.language * s.language
  | many r => KStar.kstar r.language

def nullable : Regex α → Bool
  | never => false
  | empty => true
  | letter _ => false
  | either r s => r.nullable || s.nullable
  | next r s => r.nullable && s.nullable
  | many _ => true

def derivative (a : α) : Regex α → Regex α
  | never => never
  | empty => never
  | letter p => if p a then empty else never
  | either r s => either (derivative a r) (derivative a s)
  | next r s =>
      if r.nullable then either (next (derivative a r) s) (derivative a s) else next (derivative a r) s
  | many r => next (derivative a r) (many r)

def accepts (r : Regex α) : List α → Bool
  | [] => r.nullable
  | a :: w => accepts (derivative a r) w

theorem mem_letter {p : α → Bool} {w : List α} : w ∈ (letter p).language ↔ ∃ a, p a = true ∧ w = [a] := Iff.rfl

theorem nullable_iff (r : Regex α) : r.nullable = true ↔ [] ∈ r.language := by
  induction r with
  | never => simp [nullable, language, Language.notMem_zero]
  | empty => simp [nullable, language]
  | letter p => simp [nullable, mem_letter]
  | either r s ihr ihs => simp [nullable, language, Language.mem_add, ihr, ihs]
  | next r s ihr ihs => simp [nullable, language, Language.mem_mul, ihr, ihs]
  | many r ih => simp [nullable, language, Language.nil_mem_kstar]

theorem derivative_iff (a : α) (r : Regex α) (w : List α) :
    w ∈ (derivative a r).language ↔ a :: w ∈ r.language := by
  induction r generalizing w with
  | never => simp [derivative, language, Language.notMem_zero]
  | empty => simp [derivative, language, Language.notMem_zero, Language.mem_one]
  | letter p =>
      by_cases here : p a = true
      · simp only [derivative, here, ↓reduceIte, mem_letter]
        refine (Language.mem_one w).trans ⟨fun last => ⟨a, here, by rw [last]⟩, ?_⟩
        rintro ⟨b, _, same⟩
        exact (List.cons.injEq .. ▸ same).2
      · simp only [derivative, here, Bool.false_eq_true, ↓reduceIte, mem_letter]
        refine iff_of_false (Language.notMem_zero w) ?_
        rintro ⟨b, holds, same⟩
        rw [List.cons.injEq] at same
        exact here (same.1 ▸ holds)
  | either r s ihr ihs => simp [derivative, language, Language.mem_add, ihr, ihs]
  | next r s ihr ihs =>
      -- The symbol belongs to the first part, or the first part is empty.
      have split : a :: w ∈ r.language * s.language ↔
          (∃ t ∈ (derivative a r).language, ∃ u ∈ s.language, t ++ u = w) ∨
            (r.nullable = true ∧ w ∈ (derivative a s).language) := by
        rw [Language.mem_mul, ihs, nullable_iff]
        constructor
        · rintro ⟨t, inr, u, ins, whole⟩
          cases t with
          | nil => exact .inr ⟨inr, by rwa [← whole]⟩
          | cons b t =>
              rw [List.cons_append, List.cons.injEq] at whole
              obtain ⟨rfl, whole⟩ := whole
              exact .inl ⟨t, (ihr t).mpr inr, u, ins, whole⟩
        · rintro (⟨t, inr, u, ins, rfl⟩ | ⟨inr, ins⟩)
          · exact ⟨a :: t, (ihr t).mp inr, u, ins, rfl⟩
          · exact ⟨[], inr, a :: w, ins, rfl⟩
      by_cases null : r.nullable = true
      · simp only [derivative, null, ↓reduceIte, language, Language.mem_add, Language.mem_mul, split, true_and]
      · simp only [derivative, null, Bool.false_eq_true, ↓reduceIte, language, Language.mem_mul, split, false_and,
          or_false]
  | many r ih =>
      simp only [derivative, language, Language.mem_mul]
      constructor
      · rintro ⟨t, inr, u, ins, rfl⟩
        obtain ⟨parts, rfl, all⟩ := Language.mem_kstar.mp ins
        refine Language.mem_kstar.mpr ⟨(a :: t) :: parts, by simp, ?_⟩
        rintro part (_ | ⟨_, mem⟩)
        · exact (ih t).mp inr
        · exact all part mem
      · intro mem
        obtain ⟨parts, whole, all⟩ := Language.mem_kstar_iff_exists_nonempty.mp mem
        cases parts with
        | nil => cases whole
        | cons part parts =>
            obtain ⟨inr, nonempty⟩ := all part List.mem_cons_self
            obtain ⟨b, t, rfl⟩ := List.exists_cons_of_ne_nil nonempty
            rw [List.flatten_cons, List.cons_append, List.cons.injEq] at whole
            obtain ⟨rfl, rfl⟩ := whole
            exact ⟨t, (ih t).mpr inr, parts.flatten,
              Language.mem_kstar.mpr ⟨parts, rfl, fun y there => (all y (List.mem_cons_of_mem _ there)).1⟩, rfl⟩

theorem accepts_iff (r : Regex α) (w : List α) : r.accepts w = true ↔ w ∈ r.language := by
  induction w generalizing r with
  | nil => exact r.nullable_iff
  | cons a w ih => rw [accepts, ih, derivative_iff]

def word [DecidableEq α] : List α → Regex α
  | [] => empty
  | a :: w => next (letter (· = a)) (word w)

def plus (p : α → Bool) : Regex α := next (letter p) (many (letter p))

theorem mem_next {r s : Regex α} {w : List α} :
    w ∈ (next r s).language ↔ ∃ t ∈ r.language, ∃ u ∈ s.language, t ++ u = w := Language.mem_mul

theorem mem_either {r s : Regex α} {w : List α} :
    w ∈ (either r s).language ↔ w ∈ r.language ∨ w ∈ s.language := Language.mem_add ..

theorem mem_word [DecidableEq α] {w v : List α} : v ∈ (word w).language ↔ v = w := by
  induction w generalizing v with
  | nil => exact Language.mem_one v
  | cons a w ih =>
      simp only [word, mem_next, mem_letter, decide_eq_true_eq, ih]
      constructor
      · rintro ⟨_, ⟨_, rfl, rfl⟩, _, rfl, rfl⟩
        rfl
      · rintro rfl
        exact ⟨[a], ⟨a, rfl, rfl⟩, w, rfl, rfl⟩

theorem mem_plus {p : α → Bool} {w : List α} :
    w ∈ (plus p).language ↔ w ≠ [] ∧ ∀ a ∈ w, p a = true := by
  rw [plus, mem_next]
  constructor
  · rintro ⟨_, ⟨a, here, rfl⟩, _, ⟨parts, rfl, all⟩, rfl⟩
    refine ⟨by simp, fun b mem => ?_⟩
    rcases List.mem_cons.mp mem with rfl | mem
    · exact here
    · obtain ⟨part, there, mem⟩ := List.mem_flatten.mp mem
      obtain ⟨c, holds, rfl⟩ := all part there
      exact List.mem_singleton.mp mem ▸ holds
  · rintro ⟨nonempty, all⟩
    obtain ⟨a, w, rfl⟩ := List.exists_cons_of_ne_nil nonempty
    refine ⟨[a], ⟨a, all a List.mem_cons_self, rfl⟩, w, ⟨w.map ([·]), by simp [← List.flatMap_def], ?_⟩, rfl⟩
    · intro part mem
      obtain ⟨b, there, rfl⟩ := List.mem_map.mp mem
      exact ⟨b, all b (List.mem_cons_of_mem _ there), rfl⟩

end Regex

end ThreeXNode.Library
