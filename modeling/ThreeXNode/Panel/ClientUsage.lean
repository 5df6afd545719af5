import ThreeXNode.Panel.ClientBuckets

namespace ThreeXNode.Panel.ClientPaging
open ThreeXNode.Library

/-! # The usage a query counts and the usage a row shows -/

variable {env : Env} {db : Db}

/-- Usage is pushed for no email that another client has in another spelling. -/
def Spelled (env : Env) (db : Db) : Prop :=
  ∀ g ∈ db.globals, env.isFresh g → ∀ c ∈ db.clients, ∀ c' ∈ db.clients, c.email = g.email →
    env.toLower c'.email = env.toLower c.email → c'.email = c.email

def raisedShown (env : Env) (db : Db) (r : Shown) : Shown :=
  if db.globals.any env.isFresh then (db.globals.filter fun g => g.email = r.email ∧ env.isFresh g).foldl Shown.raisedBy r
  else r

def shownTraffic (env : Env) (db : Db) (c : ClientRecord) : Option Shown :=
  if c.email = "" then none
  else (db.traffics.find? (·.email = c.email)).map fun t => raisedShown env db t.shown

theorem foldl_raisedBy_email (gs : List ClientGlobalTraffic) (r : Shown) : (gs.foldl Shown.raisedBy r).email = r.email :=
  foldl_frame Shown.email fun _ _ _ => rfl

theorem raisedShown_email (r : Shown) : (raisedShown env db r).email = r.email := by
  unfold raisedShown
  split
  · exact foldl_raisedBy_email _ r
  · rfl

theorem firstSpellings_spec (env : Env) (rows : List Shown) :
    (∀ k ∈ firstSpellings env rows, k ∈ rows) ∧
      ∀ r ∈ rows, ∃ k ∈ firstSpellings env rows, env.toLower k.email = env.toLower r.email := by
  unfold firstSpellings
  refine foldl_keeps (fun (done kept : List Shown) => (∀ k ∈ kept, k ∈ rows) ∧
    ∀ r ∈ done, ∃ k ∈ kept, env.toLower k.email = env.toLower r.email) rows (by simp) ?_
  rintro done r kept mem ⟨own, covers⟩
  split
  · rename_i found
    obtain ⟨k, here, same⟩ := List.any_eq_true.mp found
    refine ⟨own, fun r' mem' => ?_⟩
    rcases List.mem_append.mp mem' with before | last
    · exact covers r' before
    · rw [List.mem_singleton.mp last]
      exact ⟨k, here, eq_of_beq same⟩
  · refine ⟨fun k here => ?_, fun r' mem' => ?_⟩
    · rcases List.mem_append.mp here with before | last
      · exact own k before
      · exact List.mem_singleton.mp last ▸ mem
    · rcases List.mem_append.mp mem' with before | last
      · obtain ⟨k, here, same⟩ := covers r' before
        exact ⟨k, List.mem_append_left _ here, same⟩
      · rw [List.mem_singleton.mp last]
        exact ⟨r, List.mem_append_right _ (List.mem_singleton_self r), rfl⟩

theorem overlay_eq {emails : List String} {rows : List Shown} (own : ∀ r ∈ rows, r.email ∈ emails)
    (named : ∀ r ∈ rows, r.email ≠ "")
    (spelled : ∀ g ∈ db.globals, env.isFresh g → ∀ a ∈ emails, ∀ b ∈ emails, a = g.email →
      env.toLower b = env.toLower a → b = a) :
    overlayGlobalTraffic env db rows = rows.map (raisedShown env db) := by
  unfold overlayGlobalTraffic raisedShown
  split
  · have all : rows.filter (·.email ≠ "") = rows := List.filter_eq_self.mpr fun r mem => by simpa using named r mem
    rw [all]
    obtain ⟨inside, covers⟩ := firstSpellings_spec env rows
    apply List.map_congr_left
    intro r mem
    rw [if_neg (named r mem), List.filter_filter]
    congr 1
    apply List.filter_congr
    intro g pushed
    rw [← Bool.decide_and, decide_eq_decide]
    constructor
    · rintro ⟨same, asked, fresh⟩
      obtain ⟨k, here, email⟩ := List.mem_map.mp asked
      have spelling := spelled g pushed fresh k.email (own k (inside k here)) r.email (own r mem) email
        (same.symm.trans (congrArg env.toLower email.symm))
      exact ⟨email.symm.trans spelling.symm, fresh⟩
    · rintro ⟨same, fresh⟩
      obtain ⟨k, here, key⟩ := covers r mem
      have email := spelled g pushed fresh r.email (own r mem) k.email (own k (inside k here)) same.symm key
      exact ⟨congrArg env.toLower same, same ▸ email ▸ List.mem_map_of_mem here, fresh⟩
  · simp

theorem pageStats_find (spelled : Spelled env db) {ids : List Nat} {c : ClientRecord} (stored : c ∈ db.clients)
    (paged : c.id ∈ ids) : (pageStats env db ids).find? (·.email = c.email) = shownTraffic env db c := by
  let emails := ((db.clients.filter (·.id ∈ ids)).map (·.email)).filter (· ≠ "")
  have client : ∀ email ∈ emails, email ≠ "" ∧ ∃ c' ∈ db.clients, c'.email = email := by
    intro email mem
    obtain ⟨mem, named⟩ := List.mem_filter.mp mem
    obtain ⟨c', here, same⟩ := List.mem_map.mp mem
    exact ⟨by simpa using named, c', (List.mem_filter.mp here).1, same⟩
  have row : ∀ r ∈ (db.traffics.filter (·.email ∈ emails)).map ClientTraffic.shown, r.email ∈ emails := by
    intro r mem
    obtain ⟨t, here, rfl⟩ := List.mem_map.mp mem
    exact of_decide_eq_true (List.mem_filter.mp here).2
  have distinct : ∀ g ∈ db.globals, env.isFresh g → ∀ a ∈ emails, ∀ b ∈ emails, a = g.email →
      env.toLower b = env.toLower a → b = a := by
    intro g pushed fresh a mem b mem' email same
    obtain ⟨-, x, here, rfl⟩ := client a mem
    obtain ⟨-, y, here', rfl⟩ := client b mem'
    exact spelled g pushed fresh x here y here' email same
  have overlaid := (@overlay_eq _ db) row (fun r mem => (client r.email (row r mem)).1) distinct
  show (overlayGlobalTraffic env db ((db.traffics.filter (·.email ∈ emails)).map ClientTraffic.shown)).find? _ = _
  rw [overlaid, List.map_map, List.find?_map, List.find?_filter]
  have email : ∀ t : ClientTraffic, (raisedShown env db t.shown).email = t.email := fun t => raisedShown_email t.shown
  simp only [Function.comp_apply, Function.comp_def, email]
  unfold shownTraffic
  by_cases empty : c.email = ""
  · rw [if_pos empty, Option.map_eq_none_iff, List.find?_eq_none]
    intro t _ found
    simp only [decide_eq_true_eq] at found
    exact (client t.email found.1).1 (found.2.trans empty)
  · rw [if_neg empty]
    have asked : c.email ∈ emails := by
      refine List.mem_filter.mpr ⟨List.mem_map.mpr ⟨c, List.mem_filter.mpr ⟨stored, by simpa using paged⟩, rfl⟩, ?_⟩
      simpa using empty
    have same : (fun t : ClientTraffic => decide (decide (t.email ∈ emails) = true ∧ decide (t.email = c.email) = true)) =
        fun t => decide (t.email = c.email) := by
      funext t
      rw [decide_eq_decide, decide_eq_true_eq, decide_eq_true_eq]
      exact and_iff_right_of_imp fun here => here ▸ asked
    rw [same]

/-! ## Clients with counters of their own -/

theorem foldl_raisedBy_max {gs : List ClientGlobalTraffic} {r : Shown} (up : 0 ≤ r.up) (down : 0 ≤ r.down) :
    (gs.foldl Shown.raisedBy r).up = max r.up ((sqlMax (gs.map (·.up))).getD 0) ∧
      (gs.foldl Shown.raisedBy r).down = max r.down ((sqlMax (gs.map (·.down))).getD 0) := by
  induction gs generalizing r with
  | nil => simp [sqlMax, up, down]
  | cons g gs ih =>
      have next : ∀ (local' : Int) (pushed rest : Option Int), 0 ≤ local' →
          max (if pushed.getD 0 > local' then pushed.getD 0 else local') (rest.getD 0) =
            max local' ((match pushed, rest with
              | none, rest => rest
              | some n, none => some n
              | some n, some m => some (max n m)).getD 0) := by
        intro local' pushed rest nonneg
        cases pushed with
        | none =>
            simp only [Option.getD_none]
            split <;> omega
        | some n =>
            cases rest with
            | none =>
                simp only [Option.getD_none, Option.getD_some]
                split <;> omega
            | some m =>
                simp only [Option.getD_some]
                split <;> omega
      have grown : ∀ l : List (Option Int), ∀ pushed : Option Int, sqlMax (pushed :: l) = (match pushed, sqlMax l with
          | none, rest => rest
          | some n, none => some n
          | some n, some m => some (max n m)) := by
        intro l pushed
        cases pushed with
        | none => rfl
        | some n => rw [sqlMax]; cases sqlMax l <;> rfl
      have raised := ih (r := r.raisedBy g)
        (by simp only [Shown.raisedBy]; split <;> omega) (by simp only [Shown.raisedBy]; split <;> omega)
      rw [List.foldl_cons, List.map_cons, List.map_cons, raised.1, raised.2, grown, grown]
      exact ⟨next _ _ _ up, next _ _ _ down⟩

theorem raise_max (pushed local' : Option Int) : raise pushed local' = max (local'.getD 0) (pushed.getD 0) := by
  unfold raise
  split <;> omega

def Counted (db : Db) (c : ClientRecord) : Prop :=
  c.email ≠ "" ∧ ∃ t ∈ db.traffics, t.email = c.email ∧ 0 ≤ t.up.getD 0 ∧ 0 ≤ t.down.getD 0

theorem usedExpr_counted (formed : db.WellFormed) {c : ClientRecord} (counted : Counted db c) :
    (newClientQuery env db).usedExpr ((newClientQuery env db).joined db c) = usedOf (shownTraffic env db c) := by
  obtain ⟨named, t, mem, email, up, down⟩ := counted
  have found : db.traffics.find? (fun u => u.email = c.email) = some t := by
    rw [← email]
    exact (@find_of_mem _ _ _ (fun u : ClientTraffic => u.email)) formed.traffics mem
  unfold ClientQuery.usedExpr shownTraffic ClientQuery.joined raisedShown
  rw [if_neg named]
  simp only [found, Option.bind_some, Option.map_some]
  unfold newClientQuery
  simp only
  split
  · have shown : t.shown.email = c.email := email
    have nonneg : 0 ≤ t.shown.up ∧ 0 ≤ t.shown.down := ⟨up, down⟩
    obtain ⟨raisedUp, raisedDown⟩ := (@foldl_raisedBy_max (db.globals.filter fun g => g.email = t.shown.email ∧ env.isFresh g))
      nonneg.1 nonneg.2
    rw [raise_max, raise_max, usedOf, Option.elim_some, raisedUp, raisedDown, shown]
    unfold pushedTo
    cases pushed : db.globals.filter fun g => g.email = c.email ∧ env.isFresh g with
    | nil => rfl
    | cons g gs => rfl
  · rfl

end ThreeXNode.Panel.ClientPaging
