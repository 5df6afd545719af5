import Mathlib

namespace ThreeXNode.Library

variable {α : Type*} [DecidableEq α]

/-- Cuts at the leftmost occurrences of `sep`; `skip` symbols of one are still to be passed over. -/
def splitFrom (sep : List α) : Nat → List α → List α → List (List α)
  | _, piece, [] => [piece]
  | skip + 1, piece, _ :: rest => splitFrom sep skip piece rest
  | 0, piece, a :: rest =>
      if sep <+: a :: rest then piece :: splitFrom sep (sep.length - 1) [] rest
      else splitFrom sep 0 (piece ++ [a]) rest

def splitOn (sep s : List α) : List (List α) := splitFrom sep 0 [] s

theorem splitFrom_ne_nil (sep : List α) (skip : Nat) (piece s : List α) : splitFrom sep skip piece s ≠ [] := by
  induction s generalizing skip piece with
  | nil => cases skip <;> simp [splitFrom]
  | cons a rest ih =>
      cases skip with
      | succ skip => exact ih skip piece
      | zero =>
          unfold splitFrom
          split
          · simp
          · exact ih 0 _

theorem intercalate_splitFrom {sep : List α} (nonempty : sep ≠ []) (skip : Nat) (piece s : List α) :
    sep.intercalate (splitFrom sep skip piece s) = piece ++ s.drop skip := by
  induction s generalizing skip piece with
  | nil => cases skip <;> simp [splitFrom]
  | cons a rest ih =>
      cases skip with
      | succ skip => simpa [splitFrom] using ih skip piece
      | zero =>
          unfold splitFrom
          split
          · rename_i found
            obtain ⟨tail, whole⟩ := found
            have length : sep.length = sep.length - 1 + 1 := by
              have := List.length_pos_iff.mpr nonempty
              omega
            have passed : rest.drop (sep.length - 1) = tail := by
              have dropped := congrArg (List.drop sep.length) whole
              rw [List.drop_left, length, List.drop_succ_cons] at dropped
              simpa using dropped.symm
            rw [List.intercalate_cons_of_ne_nil (splitFrom_ne_nil sep _ _ _), ih, passed]
            simp [whole]
          · rw [ih]
            simp

theorem intercalate_splitOn {sep : List α} (nonempty : sep ≠ []) (s : List α) :
    sep.intercalate (splitOn sep s) = s := by
  simpa [splitOn] using intercalate_splitFrom nonempty 0 [] s

theorem splitFrom_skip (sep piece passed s : List α) :
    splitFrom sep passed.length piece (passed ++ s) = splitFrom sep 0 piece s := by
  induction passed with
  | nil => rfl
  | cons a passed ih => simpa [splitFrom] using ih

theorem splitFrom_append {sep : List α} (nonempty : sep ≠ []) (piece a b : List α)
    (clear : ∀ i < a.length, ¬sep <+: (a ++ (sep ++ b)).drop i) :
    splitFrom sep 0 piece (a ++ (sep ++ b)) = (piece ++ a) :: splitOn sep b := by
  induction a generalizing piece with
  | nil =>
      obtain ⟨x, xs, rfl⟩ := List.exists_cons_of_ne_nil nonempty
      have found : x :: xs <+: x :: (xs ++ b) := ⟨b, rfl⟩
      simp only [List.nil_append, List.cons_append, splitFrom, found, ↓reduceIte, List.length_cons,
        Nat.add_sub_cancel, List.append_nil]
      rw [splitFrom_skip]
      rfl
  | cons x a ih =>
      have here : ¬sep <+: x :: (a ++ (sep ++ b)) := clear 0 (by simp)
      simp only [List.cons_append, splitFrom, here, ↓reduceIte]
      rw [ih (piece ++ [x]) fun i bound => clear (i + 1) (by simpa using bound)]
      simp

theorem splitOn_append {sep : List α} (nonempty : sep ≠ []) (a b : List α)
    (clear : ∀ i < a.length, ¬sep <+: (a ++ (sep ++ b)).drop i) :
    splitOn sep (a ++ (sep ++ b)) = a :: splitOn sep b := by
  simpa [splitOn] using splitFrom_append nonempty [] a b clear

theorem splitOn_single {sep : List α} (a : List α) (clear : ∀ i < a.length, ¬sep <+: a.drop i) :
    splitOn sep a = [a] := by
  suffices go : ∀ piece, splitFrom sep 0 piece a = [piece ++ a] by simpa [splitOn] using go []
  induction a with
  | nil => simp [splitFrom]
  | cons x a ih =>
      intro piece
      have here : ¬sep <+: x :: a := clear 0 (by simp)
      simp only [splitFrom, here, ↓reduceIte]
      rw [ih (fun i bound => clear (i + 1) (by simpa using bound)) (piece ++ [x])]
      simp

theorem splitFrom_head {sep piece s first : List α} {rest : List (List α)}
    (cut : splitFrom sep 0 piece s = first :: rest) :
    ∃ a, first = piece ++ a ∧ ∀ i < a.length, ¬sep <+: s.drop i := by
  induction s generalizing piece with
  | nil =>
      rw [splitFrom, List.cons.injEq] at cut
      exact ⟨[], by rw [← cut.1, List.append_nil], fun i bound => absurd bound (Nat.not_lt_zero i)⟩
  | cons x s ih =>
      unfold splitFrom at cut
      split at cut
      · rw [List.cons.injEq] at cut
        exact ⟨[], by rw [← cut.1, List.append_nil], fun i bound => absurd bound (Nat.not_lt_zero i)⟩
      · rename_i here
        obtain ⟨a, whole, clear⟩ := ih cut
        refine ⟨x :: a, by rw [whole, List.append_assoc]; rfl, fun i bound => ?_⟩
        cases i with
        | zero => exact here
        | succ i => exact clear i (by simpa using bound)

theorem clear_of_splitOn {sep s first : List α} {rest : List (List α)} (cut : splitOn sep s = first :: rest) :
    ∀ i < first.length, ¬sep <+: s.drop i := by
  obtain ⟨a, whole, clear⟩ := splitFrom_head cut
  rw [List.nil_append] at whole
  exact whole ▸ clear

/-! ## Where a separator of one repeated symbol starts -/

omit [DecidableEq α] in
theorem clear_of_not_mem {x : α} {k : Nat} {a b : List α} (absent : x ∉ a) :
    ∀ i < a.length, ¬List.replicate (k + 1) x <+: (a ++ b).drop i := by
  intro i bound found
  rw [List.drop_append_of_le_length bound.le, List.drop_eq_getElem_cons bound] at found
  obtain ⟨tail, whole⟩ := found
  rw [List.replicate_succ, List.cons_append, List.cons_append, List.cons.injEq] at whole
  exact absent (whole.1 ▸ List.getElem_mem bound)

omit [DecidableEq α] in
/-- No separator starts in a piece that does not contain it and does not end in its symbol. -/
theorem clear_of_not_infix {x : α} {k : Nat} {a b : List α} (outside : ¬List.replicate (k + 1) x <:+: a)
    (ending : a.getLast? ≠ some x) : ∀ i < a.length, ¬List.replicate (k + 1) x <+: (a ++ b).drop i := by
  intro i bound found
  rw [List.drop_append_of_le_length bound.le] at found
  rcases List.prefix_or_prefix_of_prefix found (List.prefix_append (a.drop i) b) with inside | beyond
  · exact outside (inside.isInfix.trans (List.drop_suffix i a).isInfix)
  · -- The separator reaches over the end of the piece, whose last symbol is then one of its own.
    have nonempty : a.drop i ≠ [] := by simpa using bound
    have last : a.getLast? = some ((a.drop i).getLast nonempty) := by
      rw [← List.getLast?_eq_some_getLast nonempty, List.getLast?_drop, if_neg (by omega)]
    refine ending (last.trans (congrArg some ?_))
    exact List.eq_of_mem_replicate (beyond.subset (List.getLast_mem nonempty))

/-! ## Separators of one symbol -/

theorem splitFrom_symbol_append (x : α) (piece a b : List α) :
    splitFrom [x] 0 piece (a ++ x :: b) = splitFrom [x] 0 piece a ++ splitOn [x] b := by
  induction a generalizing piece with
  | nil => simp [splitFrom, splitOn]
  | cons y a ih =>
      by_cases same : x = y
      · simpa [splitFrom, same] using ih []
      · simpa [splitFrom, same] using ih (piece ++ [y])

theorem splitOn_symbol_append (x : α) (a b : List α) :
    splitOn [x] (a ++ x :: b) = splitOn [x] a ++ splitOn [x] b :=
  splitFrom_symbol_append x [] a b

theorem splitOn_symbol_single {x : α} {a : List α} (absent : x ∉ a) : splitOn [x] a = [a] := by
  refine splitOn_single a fun i bound => ?_
  simpa using clear_of_not_mem (k := 0) (b := []) absent i bound

theorem splitOn_intercalate {x : α} {pieces : List (List α)} (nonempty : pieces ≠ []) (absent : ∀ piece ∈ pieces, x ∉ piece) :
    splitOn [x] ([x].intercalate pieces) = pieces := by
  induction pieces with
  | nil => contradiction
  | cons piece pieces ih =>
      have own := absent piece List.mem_cons_self
      cases pieces with
      | nil =>
          rw [List.intercalate_singleton]
          exact splitOn_symbol_single own
      | cons next rest =>
          rw [List.intercalate_cons_cons, List.append_assoc, List.singleton_append, splitOn_symbol_append,
            splitOn_symbol_single own, ih (by simp) fun p mem => absent p (List.mem_cons_of_mem _ mem)]
          rfl

omit [DecidableEq α] in
theorem mem_intercalate {sep piece : List α} {pieces : List (List α)} {x : α} (mem : piece ∈ pieces) (inside : x ∈ piece) :
    x ∈ sep.intercalate pieces := by
  induction pieces with
  | nil => cases mem
  | cons first rest ih =>
      cases rest with
      | nil =>
          rw [List.mem_singleton.mp mem] at inside
          simpa using inside
      | cons next rest =>
          rw [List.intercalate_cons_cons, List.mem_append, List.mem_append]
          rcases List.mem_cons.mp mem with rfl | later
          · exact .inl (.inl inside)
          · exact .inr (ih later)

/-! ## Pages -/

theorem pages_join {α : Type} (all : List α) (size n : Nat) :
    (List.range n).flatMap (fun i => (all.drop (i * size)).take size) = all.take (n * size) := by
  induction n with
  | zero => simp
  | succ n ih => rw [List.range_succ, List.flatMap_append, ih, List.flatMap_singleton, Nat.succ_mul, List.take_add]

end ThreeXNode.Library
