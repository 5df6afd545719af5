import Mathlib.Data.Finset.SDiff
import Mathlib.Data.Finset.Lattice.Lemmas

namespace ThreeXNode.Library

/-! # Sets kept up by differences

A whole is the union of a part and the rest. When the part changes, what it gains is added and what it gives up is
removed, without a look at the rest. -/

variable {α : Type*} [DecidableEq α] {rest before after gained given : Finset α}

theorem patched_eq_iff (gains : gained ⊆ after) (covers : after ⊆ gained ∪ before)
    (keeps : before ⊆ given ∪ after) :
    (rest ∪ before ∪ gained) \ given = rest ∪ after ↔ ∀ a ∈ given, a ∉ rest ∪ after := by
  constructor
  · intro same a gone wanted
    rw [← same, Finset.mem_sdiff] at wanted
    exact wanted.2 gone
  · intro apart
    ext a
    simp only [Finset.mem_sdiff, Finset.mem_union]
    constructor
    · rintro ⟨(mem | mem) | mem, left⟩
      · exact .inl mem
      · exact (Finset.mem_union.mp (keeps mem)).elim (fun gone => absurd gone left) .inr
      · exact .inr (gains mem)
    · intro mem
      refine ⟨?_, fun gone => apart a gone (Finset.mem_union.mpr mem)⟩
      rcases mem with mem | mem
      · exact .inl (.inl mem)
      · exact (Finset.mem_union.mp (covers mem)).elim .inr fun old => .inl (.inr old)

theorem forgotten_eq_iff : rest ∪ before = rest ↔ before ⊆ rest := Finset.union_eq_left

end ThreeXNode.Library
