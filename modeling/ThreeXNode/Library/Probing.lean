import Mathlib

namespace ThreeXNode.Library.Probing

/-! ## One probe -/

def probeWith (used : List Int) : Nat → Int → Int
  | 0, slot => slot
  | fuel + 1, slot => if slot ∈ used then probeWith used fuel (slot + 1) else slot

/-- The first slot from `start` on that is not used; no more slots than there are can be passed. -/
def probe (used : List Int) (start : Int) : Int := probeWith used used.length start

theorem probeWith_ge (used : List Int) (fuel : Nat) (start : Int) : start ≤ probeWith used fuel start := by
  induction fuel generalizing start with
  | zero => exact le_rfl
  | succ fuel ih =>
      rw [probeWith]
      split
      · have next := ih (start + 1)
        omega
      · exact le_rfl

theorem probeWith_passed (used : List Int) (fuel : Nat) (start slot : Int) (low : start ≤ slot)
    (high : slot < probeWith used fuel start) : slot ∈ used := by
  induction fuel generalizing start with
  | zero =>
      rw [probeWith] at high
      omega
  | succ fuel ih =>
      rw [probeWith] at high
      split at high
      next taken =>
        by_cases first : slot = start
        · exact first ▸ taken
        · exact ih (start + 1) (by omega) high
      next => omega

theorem probeWith_stops (used : List Int) (fuel : Nat) (start : Int) :
    probeWith used fuel start ∉ used ∨ probeWith used fuel start = start + fuel := by
  induction fuel generalizing start with
  | zero => exact .inr (by simp [probeWith])
  | succ fuel ih =>
      rw [probeWith]
      split
      · rcases ih (start + 1) with free | far
        · exact .inl free
        · exact .inr (by rw [far]; push_cast; ring)
      next free => exact .inl free

theorem probe_ge (used : List Int) (start : Int) : start ≤ probe used start := probeWith_ge used _ start

theorem probe_passed {used : List Int} {start slot : Int} (low : start ≤ slot) (high : slot < probe used start) :
    slot ∈ used :=
  probeWith_passed used _ start slot low high

theorem probe_free (used : List Int) (start : Int) : probe used start ∉ used := by
  rcases probeWith_stops used used.length start with free | far
  · exact free
  · -- One slot more than the list is long would be in the list.
    intro taken
    have all : Finset.Icc start (start + used.length) ⊆ used.toFinset := by
      intro slot inside
      rw [Finset.mem_Icc] at inside
      rw [List.mem_toFinset]
      by_cases last : slot = probe used start
      · exact last ▸ taken
      · have below : slot < probe used start := by
          have : probe used start = start + used.length := far
          omega
        exact probe_passed inside.1 below
    have many := (Finset.card_le_card all).trans (List.toFinset_card_le used)
    rw [Int.card_Icc] at many
    omega

theorem probe_le {used : List Int} {start slot : Int} (low : start ≤ slot) (free : slot ∉ used) :
    probe used start ≤ slot := by
  by_contra above
  exact free (probe_passed low (by omega))

theorem probe_congr {used used' : List Int} (same : ∀ slot, slot ∈ used ↔ slot ∈ used') (start : Int) :
    probe used start = probe used' start :=
  le_antisymm (probe_le (probe_ge used' start) fun taken => probe_free used' start ((same _).mp taken))
    (probe_le (probe_ge used start) fun taken => probe_free used start ((same _).mpr taken))

/-! ## Probes one after the other -/

/-- The slots that probes from these starts take, each out of what is left by those before it. -/
def place (used : List Int) : List Int → List Int
  | [] => []
  | start :: starts => probe used start :: place (probe used start :: used) starts

theorem place_congr {used used' : List Int} (same : ∀ slot, slot ∈ used ↔ slot ∈ used') (starts : List Int) :
    place used starts = place used' starts := by
  induction starts generalizing used used' with
  | nil => rfl
  | cons start starts ih =>
      rw [place, place, probe_congr same]
      congr 1
      apply ih
      intro slot
      rw [List.mem_cons, List.mem_cons, same]

theorem place_append (used left right : List Int) :
    place used (left ++ right) = place used left ++ place (place used left ++ used) right := by
  induction left generalizing used with
  | nil => rfl
  | cons start left ih =>
      rw [List.cons_append, place, place, ih]
      have same : ∀ slot, slot ∈ place (probe used start :: used) left ++ probe used start :: used ↔
          slot ∈ probe used start :: place (probe used start :: used) left ++ used := by
        intro slot
        simp only [List.mem_append, List.mem_cons]
        tauto
      rw [place_congr same, List.cons_append, List.cons_append]

theorem place_length (used starts : List Int) : (place used starts).length = starts.length := by
  induction starts generalizing used with
  | nil => rfl
  | cons start starts ih => rw [place, List.length_cons, List.length_cons, ih]

theorem place_free (used starts : List Int) : ∀ slot ∈ place used starts, slot ∉ used := by
  induction starts generalizing used with
  | nil => intro slot taken; cases taken
  | cons start starts ih =>
      intro slot placed
      rcases List.mem_cons.mp placed with rfl | later
      · exact probe_free used start
      · exact fun taken => ih (probe used start :: used) slot later (List.mem_cons_of_mem _ taken)

theorem place_nodup (used starts : List Int) : (place used starts).Nodup := by
  induction starts generalizing used with
  | nil => exact List.nodup_nil
  | cons start starts ih =>
      refine List.nodup_cons.mpr ⟨?_, ih _⟩
      exact fun again => place_free (probe used start :: used) starts _ again List.mem_cons_self

theorem place_ge (used starts : List Int) (floor : Int) (above : ∀ start ∈ starts, floor ≤ start) :
    ∀ slot ∈ place used starts, floor ≤ slot := by
  induction starts generalizing used with
  | nil => intro slot placed; cases placed
  | cons start starts ih =>
      intro slot placed
      rcases List.mem_cons.mp placed with rfl | later
      · exact (above start List.mem_cons_self).trans (probe_ge used start)
      · exact ih _ (fun s member => above s (List.mem_cons_of_mem _ member)) slot later

/-! ## When every probe stays below a limit -/

noncomputable def free (used : List Int) (limit floor : Int) : Finset Int := (Finset.Icc floor limit).filter (· ∉ used)

/-- From every slot on, at most as many probes start as there are slots left up to the limit. -/
def Fits (limit : Int) (used starts : List Int) : Prop :=
  ∀ floor, starts.countP (floor ≤ ·) ≤ (free used limit floor).card

theorem mem_free {used : List Int} {limit floor slot : Int} :
    slot ∈ free used limit floor ↔ (floor ≤ slot ∧ slot ≤ limit) ∧ slot ∉ used := by
  rw [free, Finset.mem_filter, Finset.mem_Icc]

theorem free_cons_of_lt {used : List Int} {limit floor slot : Int} (below : slot < floor) :
    free (slot :: used) limit floor = free used limit floor := by
  ext other
  rw [mem_free, mem_free, List.mem_cons]
  constructor
  · exact fun ⟨inside, left⟩ => ⟨inside, fun taken => left (.inr taken)⟩
  · intro ⟨inside, left⟩
    refine ⟨inside, ?_⟩
    rintro (rfl | taken)
    · omega
    · exact left taken

theorem free_cons_of_le {used : List Int} {limit floor slot : Int} (low : floor ≤ slot) (high : slot ≤ limit)
    (fresh : slot ∉ used) : (free (slot :: used) limit floor).card + 1 = (free used limit floor).card := by
  have here : slot ∈ free used limit floor := mem_free.mpr ⟨⟨low, high⟩, fresh⟩
  have without : free (slot :: used) limit floor = (free used limit floor).erase slot := by
    ext other
    rw [Finset.mem_erase, mem_free, mem_free, List.mem_cons]
    tauto
  rw [without, Finset.card_erase_of_mem here]
  have := Finset.card_pos.mpr ⟨slot, here⟩
  omega

theorem free_of_passed {used : List Int} {limit start floor : Int} (low : start ≤ floor) (high : floor ≤ probe used start) :
    free used limit floor = free used limit start := by
  ext slot
  rw [mem_free, mem_free]
  constructor
  · exact fun ⟨inside, left⟩ => ⟨⟨by omega, inside.2⟩, left⟩
  · intro ⟨inside, left⟩
    have far := probe_le inside.1 left
    exact ⟨⟨by omega, inside.2⟩, left⟩

theorem fits_cons (limit : Int) (used : List Int) (start : Int) (starts : List Int) :
    Fits limit used (start :: starts) ↔
      probe used start ≤ limit ∧ Fits limit (probe used start :: used) starts := by
  have fresh := probe_free used start
  have after := probe_ge used start
  constructor
  · intro fits
    have room : probe used start ≤ limit := by
      have one := fits start
      rw [List.countP_cons_of_pos (by simp)] at one
      obtain ⟨slot, left⟩ := Finset.card_pos.mp (show 0 < (free used limit start).card by omega)
      rw [mem_free] at left
      exact (probe_le left.1.1 left.2).trans left.1.2
    refine ⟨room, fun floor => ?_⟩
    rcases lt_or_ge (probe used start) floor with past | upTo
    · -- Above the slot taken nothing has changed.
      rw [free_cons_of_lt past]
      have rest := fits floor
      rwa [List.countP_cons_of_neg (by simp; omega)] at rest
    · have left := free_cons_of_le upTo room fresh
      rcases le_or_gt floor start with early | between
      · have all := fits floor
        rw [List.countP_cons_of_pos (by simpa using early)] at all
        omega
      · -- The slots from the start to here were taken before, so the count at the start decides.
        have all := fits start
        rw [List.countP_cons_of_pos (by simp), ← free_of_passed between.le upTo] at all
        have fewer : starts.countP (floor ≤ ·) ≤ starts.countP (start ≤ ·) := by
          apply List.countP_mono_left
          intro other _ above
          simp only [decide_eq_true_eq] at above ⊢
          omega
        omega
  · intro ⟨room, fits⟩ floor
    rcases lt_or_ge (probe used start) floor with past | upTo
    · rw [List.countP_cons_of_neg (by simp; omega), ← free_cons_of_lt past]
      exact fits floor
    · have rest := fits floor
      have left := free_cons_of_le upTo room fresh
      rw [List.countP_cons]
      split <;> omega

theorem place_le_iff (limit : Int) (used starts : List Int) :
    (∀ slot ∈ place used starts, slot ≤ limit) ↔ Fits limit used starts := by
  induction starts generalizing used with
  | nil => simp [place, Fits]
  | cons start starts ih => rw [fits_cons, place, List.forall_mem_cons, ih]

/-! ## The first free name -/

section
variable {α : Type*} [DecidableEq α] {name : Nat → α} {taken : List α}

def firstFree (name : Nat → α) (taken : List α) : α :=
  (((List.range (taken.length + 1)).map name).find? (· ∉ taken)).getD (name 0)

theorem firstFree_zero (free : name 0 ∉ taken) : firstFree name taken = name 0 := by
  rw [firstFree, List.range_succ_eq_map, List.map_cons, List.find?_cons_of_pos (by simpa using free)]
  rfl

theorem firstFree_mem (name : Nat → α) (taken : List α) : ∃ k, firstFree name taken = name k := by
  unfold firstFree
  cases found : ((List.range (taken.length + 1)).map name).find? (· ∉ taken) with
  | none => exact ⟨0, rfl⟩
  | some a =>
      obtain ⟨k, -, same⟩ := List.mem_map.mp (List.mem_of_find?_eq_some found)
      exact ⟨k, same.symm⟩

theorem firstFree_free (distinct : name.Injective) : firstFree name taken ∉ taken := by
  unfold firstFree
  cases found : ((List.range (taken.length + 1)).map name).find? (· ∉ taken) with
  | some a => simpa using List.find?_some found
  | none =>
      -- More names than the list is long would be in the list.
      have all : ((List.range (taken.length + 1)).map name) ⊆ taken := by
        intro a member
        simpa using List.find?_eq_none.mp found a member
      have long := ((List.nodup_range.map distinct).subperm all).length_le
      rw [List.length_map, List.length_range] at long
      omega

end

end ThreeXNode.Library.Probing
