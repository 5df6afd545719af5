import Mathlib.Order.Basic
import Mathlib.Data.List.Basic

namespace ThreeXNode.Library

/-- A system whose steps are chosen by actions; `next s a` is `none` where `a` cannot happen. -/
structure System (State Action : Type*) where
  next : State → Action → Option State

variable {State Action : Type*}

namespace System

/-- The states reached from `s` by steps that all meet `ok`. -/
inductive Path (sys : System State Action) (ok : State → Action → Prop) (s : State) : State → Prop where
  | refl : Path sys ok s s
  | tail {t u : State} {a : Action} : Path sys ok s t → ok t a → sys.next t a = some u → Path sys ok s u

abbrev Reaches (sys : System State Action) : State → State → Prop :=
  sys.Path fun _ _ => True

variable {sys : System State Action} {ok ok' : State → Action → Prop} {s t u : State}

namespace Path

theorem trans (front : sys.Path ok s t) (back : sys.Path ok t u) : sys.Path ok s u := by
  induction back with
  | refl => exact front
  | tail _ good step ih => exact ih.tail good step

theorem weaken (path : sys.Path ok s t) (le : ∀ s a, ok s a → ok' s a) : sys.Path ok' s t := by
  induction path with
  | refl => exact .refl
  | tail _ good step ih => exact ih.tail (le _ _ good) step

theorem reaches (path : sys.Path ok s t) : sys.Reaches s t :=
  path.weaken fun _ _ _ => trivial

theorem invariant (inv : State → Prop) (path : sys.Path ok s t) (start : inv s)
    (keeps : ∀ t a u, inv t → ok t a → sys.next t a = some u → inv u) : inv t := by
  induction path with
  | refl => exact start
  | tail _ good step ih => exact keeps _ _ _ ih good step

/-- A path along which `inv` holds may be assumed to take only steps from states with `inv`. -/
theorem guarded (inv : State → Prop) (path : sys.Path ok s t) (start : inv s)
    (keeps : ∀ t a u, inv t → ok t a → sys.next t a = some u → inv u) :
    sys.Path (fun t a => inv t ∧ ok t a) s t := by
  induction path with
  | refl => exact .refl
  | tail front good step ih => exact ih.tail ⟨front.invariant inv start keeps, good⟩ step

end Path

/-- The state after a list of actions, `none` when one of them cannot happen. -/
def run (sys : System State Action) : State → List Action → Option State
  | s, [] => some s
  | s, a :: as => (sys.next s a).bind (sys.run · as)

theorem run_append (as bs : List Action) :
    sys.run s (as ++ bs) = (sys.run s as).bind (sys.run · bs) := by
  induction as generalizing s with
  | nil => rfl
  | cons a as ih => cases h : sys.next s a <;> simp [run, h, ih]

theorem run_reaches {as : List Action} (h : sys.run s as = some t) : sys.Reaches s t := by
  induction as generalizing s with
  | nil => cases h; exact .refl
  | cons a as ih =>
      cases step : sys.next s a with
      | none => simp [run, step] at h
      | some mid =>
          simp only [run, step, Option.bind_some] at h
          exact (Path.refl.tail trivial step).trans (ih h)

def runWith (sys : System State Action) (ok : State → Action → Prop) [∀ s a, Decidable (ok s a)] :
    State → List Action → Option State
  | s, [] => some s
  | s, a :: as => if ok s a then (sys.next s a).bind (sys.runWith ok · as) else none

theorem runWith_path [∀ s a, Decidable (ok s a)] {as : List Action} (h : sys.runWith ok s as = some t) :
    sys.Path ok s t := by
  induction as generalizing s with
  | nil => cases h; exact .refl
  | cons a as ih =>
      simp only [runWith] at h
      split at h
      · rename_i good
        obtain ⟨mid, step, rest⟩ := Option.bind_eq_some_iff.mp h
        exact (Path.refl.tail good step).trans (ih rest)
      · cases h

end System

end ThreeXNode.Library
