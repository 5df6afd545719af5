import ThreeXNode.Panel.BulkPasses

namespace ThreeXNode.Panel
open Library Classical

/-! # Where the limits of a client stand -/

@[ext]
structure Holder where
  id : Nat
  email : String
  limits : Limits

/-- The limits as they stand in the records, in the traffic rows and in the settings of each inbound, and which records
are linked to which inbounds. -/
@[ext]
structure Copies where
  records : List Holder
  rows : List ListedClient
  shown : Nat → Option (List ListedClient)
  links : Nat → Nat → Bool

def ClientRecord.holder (rec : ClientRecord) : Holder := ⟨rec.id, rec.email, rec.limits⟩

def copies (db : Database) : Copies where
  records := db.clients.map ClientRecord.holder
  rows := db.clientTraffics.map fun row => (row.email, row.limits)
  shown := shownAt db
  links := linked db

/-! ## Agreement -/

/-- The settings of an inbound list those clients that are linked to it. -/
structure NamesAt (c : Copies) (id : Nat) : Prop where
  trimmed : ∀ listed, c.shown id = some listed → ∀ e ∈ listed, trimSpace e.1 = e.1
  named : ∀ listed, c.shown id = some listed → ∀ e ∈ listed, e.1 ≠ "" → ∃ r ∈ c.records, r.email = e.1 ∧ c.links r.id id
  linked : ∀ clientId, c.links clientId id → ∃ r ∈ c.records, r.id = clientId ∧ r.email ≠ "" ∧
    ∃ listed, c.shown id = some listed ∧ r.email ∈ listed.map (·.1)

def LimitsAt (c : Copies) (id : Nat) : Prop :=
  ∀ listed, c.shown id = some listed → ∀ e ∈ listed, ∀ r ∈ c.records, r.email = e.1 → e.1 ≠ "" → r.limits = e.2

structure KeyedCopies (c : Copies) : Prop where
  ids : (c.records.map Holder.id).Nodup
  emails : (c.records.map Holder.email).Nodup

structure Consistent (c : Copies) : Prop where
  keyed : KeyedCopies c
  names : ∀ id, NamesAt c id
  limits : ∀ id, LimitsAt c id
  rows : ∀ row ∈ c.rows, ∀ r ∈ c.records, r.email = row.1 → r.limits = row.2

theorem KeyedCopies.of_id {c : Copies} (keyed : KeyedCopies c) {r s : Holder} (r_mem : r ∈ c.records) (s_mem : s ∈ c.records)
    (same : r.id = s.id) : r = s := List.inj_on_of_nodup_map keyed.ids r_mem s_mem same

theorem KeyedCopies.of_email {c : Copies} (keyed : KeyedCopies c) {r s : Holder} (r_mem : r ∈ c.records) (s_mem : s ∈ c.records)
    (same : r.email = s.email) : r = s := List.inj_on_of_nodup_map keyed.emails r_mem s_mem same

/-! ## Edits -/

def Copies.committed (c : Copies) (id : Nat) (listed : List ListedClient) (target : String → Limits) : Copies :=
  { c with
    records := c.records.map fun r => if c.links r.id id then { r with limits := target r.email } else r
    shown := Function.update c.shown id (some listed) }

noncomputable def Copies.edited (c : Copies) (change : String → Limits → Limits) (passes : Nat → Prop) : Copies :=
  { c with
    records := c.records.map fun r =>
      if ∃ id, c.links r.id id ∧ passes id then { r with limits := change r.email r.limits } else r
    shown := fun id => (c.shown id).map fun listed =>
      if passes id then listed.map fun e => (e.1, change e.1 e.2) else listed }

/-- A traffic row changes where no inbound of its client fails and its own update does not. -/
noncomputable def Copies.adjusted (c : Copies) (change : String → Limits → Limits) (passes : Nat → Prop)
    (rowPasses : String → Prop) : Copies :=
  { c.edited change passes with
    rows := c.rows.map fun row =>
      if (∃ r ∈ c.records, r.email = row.1 ∧ ∃ id, c.links r.id id ∧ ¬passes id) ∨ ¬rowPasses row.1 then row
      else (row.1, change row.1 row.2) }

theorem edited_none (c : Copies) (change : String → Limits → Limits) : c.edited change (fun _ => False) = c := by
  unfold Copies.edited
  simp

theorem adjusted_same {c : Copies} {change : String → Limits → Limits} {passes : Nat → Prop} {rowPasses : String → Prop}
    (stays : ∀ email limits, change email limits = limits) : c.adjusted change passes rowPasses = c := by
  unfold Copies.adjusted Copies.edited
  refine Copies.ext ?_ ?_ (funext fun id => ?_) rfl
  · simp [stays]
  · simp [stays]
  · simp [stays]

theorem edited_committed {c : Copies} {change : String → Limits → Limits} {passed : Nat → Prop} {id : Nat}
    (new : ¬passed id) {listed : List ListedClient} (shown : c.shown id = some listed) {target : String → Limits}
    (targets : ∀ r ∈ c.records, target r.email = change r.email r.limits) :
    (c.edited change passed).committed id (listed.map fun e => (e.1, change e.1 e.2)) target =
      c.edited change fun other => passed other ∨ other = id := by
  unfold Copies.committed Copies.edited
  simp only [List.map_map, Copies.mk.injEq, true_and, and_true]
  constructor
  · refine List.map_congr_left fun r mem => ?_
    have kept : (if ∃ other, c.links r.id other ∧ passed other then { r with limits := change r.email r.limits } else r).id =
        r.id := by split <;> rfl
    have kept' : (if ∃ other, c.links r.id other ∧ passed other then { r with limits := change r.email r.limits } else r).email =
        r.email := by split <;> rfl
    simp only [Function.comp_apply, kept, kept', targets r mem]
    by_cases here : c.links r.id id = true
    · rw [if_pos here, if_pos ⟨id, here, .inr rfl⟩]
    · rw [if_neg here]
      refine ite_congr (propext ?_) (fun _ => rfl) fun _ => rfl
      constructor
      · rintro ⟨other, there, before⟩
        exact ⟨other, there, .inl before⟩
      · rintro ⟨other, there, before | rfl⟩
        · exact ⟨other, there, before⟩
        · exact absurd there here
  · funext other
    by_cases own : other = id
    · subst own
      simp [shown]
    · simp [own]

theorem edited_congr {c : Copies} (names : ∀ id, NamesAt c id) {change : String → Limits → Limits} {passes passes' : Nat → Prop}
    (blank : ∀ limits, change "" limits = limits)
    (same : ∀ id r, r ∈ c.records → c.links r.id id → (∀ limits, change r.email limits = limits) ∨ (passes id ↔ passes' id)) :
    c.edited change passes = c.edited change passes' := by
  unfold Copies.edited
  simp only [Copies.mk.injEq, true_and, and_true]
  constructor
  · refine List.map_congr_left fun r mem => ?_
    by_cases stays : ∀ limits, change r.email limits = limits
    · simp [stays]
    · refine ite_congr (propext (exists_congr fun id => and_congr_right fun there => ?_)) (fun _ => rfl) fun _ => rfl
      exact (same id r mem there).resolve_left stays
  · funext id
    cases shown : c.shown id with
    | none => rfl
    | some listed =>
        rw [Option.map_some, Option.map_some]
        by_cases equal : passes id ↔ passes' id
        · simp only [equal]
        · have stays : listed.map (fun e => (e.1, change e.1 e.2)) = listed := by
            refine (List.map_congr_left fun e mem => ?_).trans (List.map_id listed)
            by_cases empty : e.1 = ""
            · exact Prod.ext rfl ((congrArg (change · e.2) empty).trans (blank e.2))
            · obtain ⟨r, here, own, there⟩ := (names id).named listed shown e mem empty
              have kept := (same id r here there).resolve_right equal e.2
              exact Prod.ext rfl (own ▸ kept)
          rw [stays, ite_self, ite_self]

/-! ## What edits keep -/

section Kept

variable {c : Copies} {change : String → Limits → Limits} {passes : Nat → Prop} {rowPasses : String → Prop} {id : Nat}

theorem mem_edited {s : Holder} : s ∈ (c.edited change passes).records ↔ ∃ r ∈ c.records, s.id = r.id ∧ s.email = r.email ∧
    s.limits = if ∃ id, c.links r.id id ∧ passes id then change r.email r.limits else r.limits := by
  unfold Copies.edited
  rw [List.mem_map]
  refine exists_congr fun r => and_congr_right fun _ => ?_
  cases s
  split <;> simp [Holder.ext_iff, eq_comm]

theorem edited_mem {r : Holder} (mem : r ∈ c.records) :
    (⟨r.id, r.email, if ∃ id, c.links r.id id ∧ passes id then change r.email r.limits else r.limits⟩ : Holder) ∈
      (c.edited change passes).records := mem_edited.mpr ⟨r, mem, rfl, rfl, rfl⟩

theorem edited_shown {listed : List ListedClient} : (c.edited change passes).shown id = some listed ↔
    ∃ before, c.shown id = some before ∧
      (if passes id then before.map fun e => (e.1, change e.1 e.2) else before) = listed := Option.map_eq_some_iff

theorem edited_keyed (keyed : KeyedCopies c) : KeyedCopies (c.edited change passes) := by
  have kept : ∀ {α : Type} (field : Holder → α), (∀ (r : Holder) limits, field { r with limits := limits } = field r) →
      (c.edited change passes).records.map field = c.records.map field := by
    intro α field stays
    unfold Copies.edited
    rw [List.map_map]
    refine List.map_congr_left fun r _ => ?_
    rw [Function.comp_apply]
    split
    · exact stays r _
    · rfl
  exact ⟨(kept Holder.id fun _ _ => rfl) ▸ keyed.ids, (kept Holder.email fun _ _ => rfl) ▸ keyed.emails⟩

theorem edited_emails {before : List ListedClient} :
    (if passes id then before.map fun e => (e.1, change e.1 e.2) else before).map (·.1) = before.map (·.1) := by
  split
  · rw [List.map_map]
    rfl
  · rfl

theorem edited_names (names : NamesAt c id) : NamesAt (c.edited change passes) id := by
  refine ⟨?_, ?_, ?_⟩
  · intro listed edited e mem
    obtain ⟨before, shown, rfl⟩ := edited_shown.mp edited
    have mem := List.mem_map_of_mem (f := fun e : ListedClient => e.1) mem
    rw [edited_emails] at mem
    obtain ⟨e', here, same⟩ := List.mem_map.mp mem
    exact same ▸ names.trimmed before shown e' here
  · intro listed edited e mem nonblank
    obtain ⟨before, shown, rfl⟩ := edited_shown.mp edited
    have mem := List.mem_map_of_mem (f := fun e : ListedClient => e.1) mem
    rw [edited_emails] at mem
    obtain ⟨e', here, same⟩ := List.mem_map.mp mem
    obtain ⟨r, r_mem, own, there⟩ := names.named before shown e' here (same ▸ nonblank)
    exact ⟨_, edited_mem r_mem, own.trans same, there⟩
  · intro clientId there
    obtain ⟨r, r_mem, own, nonblank, listed, shown, here⟩ := names.linked clientId there
    refine ⟨_, edited_mem r_mem, own, nonblank, _, edited_shown.mpr ⟨listed, shown, rfl⟩, ?_⟩
    rw [edited_emails]
    exact here

theorem edited_limits (keyed : KeyedCopies c) (names : NamesAt c id) (limits : LimitsAt c id) (pass : passes id) :
    LimitsAt (c.edited change passes) id := by
  intro listed edited e mem s s_mem named nonblank
  obtain ⟨before, shown, rfl⟩ := edited_shown.mp edited
  rw [if_pos pass] at mem
  obtain ⟨e', here, rfl⟩ := List.mem_map.mp mem
  obtain ⟨r, r_mem, -, own, changed⟩ := mem_edited.mp s_mem
  have same : r.email = e'.1 := own.symm.trans named
  obtain ⟨r', r_mem', own', there⟩ := names.named before shown e' here nonblank
  have rfl := keyed.of_email r_mem' r_mem (own'.trans same.symm)
  rw [changed, if_pos ⟨id, rfl ▸ there, pass⟩, same, limits before shown e' here r r_mem same nonblank]

/-- Each client that changes has inbounds that all pass or all fail, and a traffic row of it is updated if and only if
one of its inbounds passes. -/
def WholeEdit (c : Copies) (change : String → Limits → Limits) (passes : Nat → Prop) (rowPasses : String → Prop) : Prop :=
  ∀ r ∈ c.records, change r.email r.limits ≠ r.limits →
    ((∀ id, c.links r.id id → passes id) ∨ ∀ id, c.links r.id id → ¬passes id) ∧
      ((∃ row ∈ c.rows, row.1 = r.email) →
        ((∃ id, c.links r.id id ∧ passes id) ↔ (∀ id, c.links r.id id → passes id) ∧ rowPasses r.email))

theorem adjusted_shown {listed : List ListedClient} : (c.adjusted change passes rowPasses).shown id = some listed ↔
    ∃ before, c.shown id = some before ∧
      (if passes id then before.map fun e => (e.1, change e.1 e.2) else before) = listed := edited_shown

theorem adjusted_names (names : NamesAt c id) : NamesAt (c.adjusted change passes rowPasses) id :=
  have kept := (@edited_names _ change passes) names
  ⟨kept.trimmed, kept.named, kept.linked⟩

theorem adjusted_keyed (keyed : KeyedCopies c) : KeyedCopies (c.adjusted change passes rowPasses) :=
  have kept := (@edited_keyed _ change passes) keyed
  ⟨kept.ids, kept.emails⟩

theorem mem_changed {before : List ListedClient} {e : ListedClient} (mem : e ∈ before) :
    (e.1, if passes id then change e.1 e.2 else e.2) ∈
      if passes id then before.map (fun e => (e.1, change e.1 e.2)) else before := by
  split
  · exact List.mem_map_of_mem mem
  · exact mem

theorem changed_mem {before : List ListedClient} {e : ListedClient}
    (mem : e ∈ if passes id then before.map (fun e => (e.1, change e.1 e.2)) else before) :
    ∃ e' ∈ before, e = (e'.1, if passes id then change e'.1 e'.2 else e'.2) := by
  by_cases pass : passes id
  · rw [if_pos pass] at mem
    obtain ⟨e', here, rfl⟩ := List.mem_map.mp mem
    exact ⟨e', here, by rw [if_pos pass]⟩
  · rw [if_neg pass] at mem
    exact ⟨e, mem, by rw [if_neg pass]⟩

theorem ite_ne_iff {α : Type} {p q : Prop} [Decidable p] [Decidable q] {x y : α} (ne : x ≠ y)
    (same : (if p then x else y) = if q then x else y) : p ↔ q := by
  by_cases hp : p <;> by_cases hq : q <;> simp_all

theorem entry_of_link (consistent : Consistent c) {r : Holder} (mem : r ∈ c.records) (there : c.links r.id id = true) :
    r.email ≠ "" ∧ ∃ listed, c.shown id = some listed ∧ (r.email, r.limits) ∈ listed := by
  obtain ⟨s, s_mem, own, nonblank, listed, shown, here⟩ := (consistent.names id).linked r.id there
  cases consistent.keyed.of_id s_mem mem own
  obtain ⟨e, e_mem, named⟩ := List.mem_map.mp here
  have limits := consistent.limits id listed shown e e_mem r mem named.symm (named ▸ nonblank)
  exact ⟨nonblank, listed, shown, by rw [limits, ← named]; exact e_mem⟩

theorem adjusted_row (keyed : KeyedCopies c) {r : Holder} (mem : r ∈ c.records) {row : ListedClient} (named : r.email = row.1)
    (agree : r.limits = row.2) :
    (if (∃ s ∈ c.records, s.email = row.1 ∧ ∃ id, c.links s.id id ∧ ¬passes id) ∨ ¬rowPasses row.1 then row
      else (row.1, change row.1 row.2)) =
      (r.email, if (∀ id, c.links r.id id → passes id) ∧ rowPasses r.email then change r.email r.limits else r.limits) := by
  have stays : (∃ s ∈ c.records, s.email = row.1 ∧ ∃ id, c.links s.id id ∧ ¬passes id) ∨ ¬rowPasses row.1 ↔
      ¬((∀ id, c.links r.id id → passes id) ∧ rowPasses r.email) := by
    rw [not_and_or, named]
    refine or_congr_left ?_
    constructor
    · rintro ⟨s, s_mem, own, id, there, fails⟩ all
      cases keyed.of_email s_mem mem (own.trans named.symm)
      exact fails (all id there)
    · intro fails
      push Not at fails
      exact ⟨r, mem, named, fails⟩
  by_cases updated : (∀ id, c.links r.id id → passes id) ∧ rowPasses r.email
  · rw [if_neg (fun kept => stays.mp kept updated), if_pos updated, named, agree]
  · rw [if_pos (stays.mpr updated), if_neg updated, named, agree]

theorem adjusted_consistent (consistent : Consistent c) :
    Consistent (c.adjusted change passes rowPasses) ↔ WholeEdit c change passes rowPasses := by
  have keyed := consistent.keyed
  constructor
  · intro after r mem changes
    have mem' : (⟨r.id, r.email, if ∃ id, c.links r.id id ∧ passes id then change r.email r.limits else r.limits⟩ : Holder) ∈
        (c.adjusted change passes rowPasses).records := edited_mem mem
    have same : ∀ id, c.links r.id id → ((∃ id, c.links r.id id ∧ passes id) ↔ passes id) := by
      intro id there
      obtain ⟨nonblank, listed, shown, here⟩ := entry_of_link consistent mem there
      exact ite_ne_iff changes (after.limits id _ (adjusted_shown.mpr ⟨listed, shown, rfl⟩) _ (mem_changed here) _ mem' rfl nonblank)
    refine ⟨?_, ?_⟩
    · by_cases some' : ∃ id, c.links r.id id ∧ passes id
      · exact .inl fun id there => (same id there).mp some'
      · exact .inr fun id there pass => some' ⟨id, there, pass⟩
    · rintro ⟨row, row_mem, named⟩
      have agree := consistent.rows row row_mem r mem named.symm
      have row' := after.rows _ (List.mem_map_of_mem row_mem) _ mem'
      rw [adjusted_row keyed mem named.symm agree] at row'
      exact ite_ne_iff changes (row' rfl)
  · intro whole
    have agrees : ∀ r ∈ c.records, ∀ id, c.links r.id id → (change r.email r.limits = r.limits ∨
        ((∃ id, c.links r.id id ∧ passes id) ↔ passes id)) := by
      intro r mem id there
      by_cases changes : change r.email r.limits = r.limits
      · exact .inl changes
      · refine .inr ⟨?_, fun pass => ⟨id, there, pass⟩⟩
        rintro ⟨other, linked, pass⟩
        rcases (whole r mem changes).1 with all | none
        · exact all id there
        · exact absurd pass (none other linked)
    refine ⟨adjusted_keyed keyed, fun id => adjusted_names (consistent.names id), ?_, ?_⟩
    · intro id listed adjusted e mem s s_mem named nonblank
      obtain ⟨before, shown, rfl⟩ := adjusted_shown.mp adjusted
      obtain ⟨e', here, rfl⟩ := changed_mem mem
      obtain ⟨r, r_mem, -, own, changed⟩ := mem_edited.mp s_mem
      have same : r.email = e'.1 := own.symm.trans named
      obtain ⟨r', r_mem', own', there⟩ := (consistent.names id).named before shown e' here nonblank
      cases keyed.of_email r_mem' r_mem (own'.trans same.symm)
      have limits := consistent.limits id before shown e' here r r_mem same nonblank
      rw [changed, ← same, ← limits]
      rcases agrees r r_mem id there with stays | iff
      · rw [stays, ite_self, ite_self]
      · exact if_congr iff rfl rfl
    · intro row row_mem s s_mem named
      obtain ⟨row', here, rfl⟩ := List.mem_map.mp row_mem
      obtain ⟨r, r_mem, -, own, changed⟩ := mem_edited.mp s_mem
      have first : (if (∃ r ∈ c.records, r.email = row'.1 ∧ ∃ id, c.links r.id id ∧ ¬passes id) ∨ ¬rowPasses row'.1 then row'
          else (row'.1, change row'.1 row'.2)).1 = row'.1 := by split <;> rfl
      have same : r.email = row'.1 := own.symm.trans (named.trans first)
      rw [adjusted_row keyed r_mem same (consistent.rows row' here r r_mem same), changed]
      by_cases changes : change r.email r.limits = r.limits
      · rw [changes, ite_self, ite_self]
      · exact if_congr ((whole r r_mem changes).2 ⟨row', here, same.symm⟩) rfl rfl

end Kept

/-! ## Committed passes -/

section Committed

variable {db db' : Database} {id : Nat}

theorem mem_records {r : Holder} : r ∈ (copies db).records ↔ ∃ rec ∈ db.clients, rec.holder = r := List.mem_map

theorem idOfEmail_iff (keyed : KeyedCopies (copies db)) {email : String} {clientId : Nat} :
    idOfEmail db email = some clientId ↔ ∃ r ∈ (copies db).records, r.email = email ∧ r.id = clientId := by
  unfold idOfEmail
  rw [Option.map_eq_some_iff]
  constructor
  · rintro ⟨rec, found, rfl⟩
    have named := List.find?_some found
    exact ⟨rec.holder, mem_records.mpr ⟨rec, List.mem_of_find?_eq_some found, rfl⟩, of_decide_eq_true named, rfl⟩
  · rintro ⟨r, mem, rfl, rfl⟩
    obtain ⟨rec, here, rfl⟩ := mem_records.mp mem
    obtain ⟨first, found⟩ := Option.isSome_iff_exists.mp
      (List.find?_isSome (p := fun other => decide (other.email = rec.email)) |>.mpr ⟨rec, here, decide_eq_true rfl⟩)
    have named : first.email = rec.email := by simpa using List.find?_some found
    have same := keyed.of_email (mem_records.mpr ⟨first, List.mem_of_find?_eq_some found, rfl⟩) mem named
    exact ⟨first, found, congrArg Holder.id same⟩

theorem links_iff (keyed : KeyedCopies (copies db)) (names : NamesAt (copies db) id) {listed before : List ListedClient}
    (shown : shownAt db id = some before) (same : listed.map (·.1) = before.map (·.1)) {r : Holder}
    (mem : r ∈ (copies db).records) :
    linked db r.id id = true ↔ r.email ≠ "" ∧ r.email ∈ listed.map fun e => trimSpace e.1 := by
  have trimmed : (listed.map fun e => trimSpace e.1) = before.map (·.1) := by
    have split : (listed.map fun e => trimSpace e.1) = (listed.map (·.1)).map trimSpace := by
      rw [List.map_map]
      rfl
    rw [split, same, List.map_map]
    exact List.map_congr_left fun e here => names.trimmed before shown e here
  rw [trimmed]
  constructor
  · intro there
    obtain ⟨s, s_mem, own, nonblank, listed', shown', in'⟩ := names.linked r.id there
    have rfl := keyed.of_id s_mem mem own
    cases shown.symm.trans shown'
    exact ⟨rfl ▸ nonblank, rfl ▸ in'⟩
  · rintro ⟨nonblank, in'⟩
    obtain ⟨e, here, named⟩ := List.mem_map.mp in'
    obtain ⟨s, s_mem, own, there⟩ := names.named before shown e here (named ▸ nonblank)
    have rfl := keyed.of_email s_mem mem (own.trans named)
    exact rfl ▸ there

theorem committed_copies (keyed : KeyedCopies (copies db)) (names : NamesAt (copies db) id) {before listed : List ListedClient}
    (shown : shownAt db id = some before) (same : listed.map (·.1) = before.map (·.1)) {settings : Fields}
    (shown' : listedIn (some settings) = some listed) {target : String → Limits}
    (committed : Committed db id settings listed target db') :
    copies db' = (copies db).committed id listed target := by
  obtain ⟨row, ⟨f, mapped, kept⟩, links, traffics⟩ := committed
  unfold copies Copies.committed
  rw [mapped, traffics]
  simp only [Copies.mk.injEq, List.map_map, true_and]
  refine ⟨List.map_congr_left fun rec mem => ?_, ?_, ?_⟩
  · obtain ⟨ids, emails, limits⟩ := kept rec
    have there : linked db rec.id id = true ↔ rec.email ≠ "" ∧ rec.email ∈ listed.map fun e => trimSpace e.1 :=
      links_iff keyed names shown same (mem_records.mpr ⟨rec, mem, rfl⟩)
    show (f rec).holder = if linked db rec.id id = true then { rec.holder with limits := target rec.email } else rec.holder
    by_cases here : linked db rec.id id = true
    · rw [if_pos here]
      simp only [ClientRecord.holder, ids, emails, limits]
      rw [if_pos (there.mp here)]
    · rw [if_neg here]
      simp only [ClientRecord.holder, ids, emails, limits]
      rw [if_neg (mt there.mpr here)]
  · funext other
    unfold shownAt
    rw [row]
    by_cases own : other = id
    · subst own
      rw [if_pos rfl, Function.update_self]
      obtain ⟨ib, found, -⟩ := Option.bind_eq_some_iff.mp shown
      rw [found]
      exact shown'
    · rw [if_neg own, Function.update_of_ne own]
  · funext clientId other
    rw [links]
    by_cases own : other = id
    · subst own
      rw [if_pos rfl, Bool.eq_iff_iff, decide_eq_true_eq]
      constructor
      · rintro ⟨e, here, nonblank, found⟩
        obtain ⟨r, mem, named, rfl⟩ := (idOfEmail_iff keyed).mp found
        exact (links_iff keyed names shown same mem).mpr ⟨named ▸ nonblank, List.mem_map.mpr ⟨e, here, named.symm⟩⟩
      · intro there
        obtain ⟨r, mem, rfl, -⟩ := names.linked clientId there
        obtain ⟨nonblank, in'⟩ := (links_iff keyed names shown same mem).mp there
        obtain ⟨e, here, named⟩ := List.mem_map.mp in'
        exact ⟨e, here, named ▸ nonblank, (idOfEmail_iff keyed).mpr ⟨r, mem, named.symm, rfl⟩⟩
    · rw [if_neg own]

end Committed

end ThreeXNode.Panel
