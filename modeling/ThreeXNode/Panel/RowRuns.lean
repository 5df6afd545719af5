import ThreeXNode.Library.Transition
import ThreeXNode.Panel.RowWrites

namespace ThreeXNode.Panel
open Library

/-! ## Runs of edits and of the writer -/

structure Rewritten (float64 : NumLit → Option NumLit) (edit : Edit) (row : Inbound) where
  known : String → Bool
  settings : Fields
  made : edit.newSettings float64 known row = some settings

def Rewritten.saved {float64 : NumLit → Option NumLit} {edit : Edit} {row : Inbound} (w : Rewritten float64 edit row) :
    Inbound := { row with settings := some w.settings }

/-- An edit under way: the row as it read it, and what it has computed from it. -/
structure Editing (float64 : NumLit → Option NumLit) where
  edit : Edit
  row : Inbound
  rewritten : Option (Rewritten float64 edit row)

inductive WriterTx where
  | count (traffics : List Traffic) (clientTraffics : List ClientUse) (clock : Clock)
  | maintain (clock : Clock)
  | merge (tick : Tick) (nodeId : Nat)

namespace WriterTx

def apply (db : Database) : WriterTx → Option Database
  | .count traffics clientTraffics clock => countTraffic db traffics clientTraffics clock
  | .maintain clock => Panel.maintain db clock
  | .merge tick nodeId => (setRemoteTraffic db tick nodeId).toOption

def counts (db : Database) (id : Nat) : WriterTx → Bool
  | .count traffics _ _ => traffics.any fun traffic => (rowAt db id).any traffic.countsInto
  | .maintain _ => false
  | .merge _ nodeId => onNode db nodeId id

/-- Whether the transaction writes settings of an inbound: those of the clients it activates, renews or disables, or all
that its node shows. -/
def rewrites (db : Database) (id : Nat) : WriterTx → Bool
  | .count _ clientTraffics _ => id ∈ linkedInboundIds db (activatedEmails db clientTraffics)
  | .maintain clock => maintains db clock id
  | .merge _ nodeId => onNode db nodeId id

theorem merge_ok {db db' : Database} {tick : Tick} {nodeId : Nat} (done : apply db (.merge tick nodeId) = some db') :
    setRemoteTraffic db tick nodeId = .ok db' := by
  have done : (setRemoteTraffic db tick nodeId).toOption = some db' := done
  cases result : setRemoteTraffic db tick nodeId with
  | error reason =>
      rw [result] at done
      cases done
  | ok db' =>
      rw [result] at done
      cases done
      rfl

end WriterTx

/-- The database, the edits under way and which of them hold the lock of an inbound, with the history of the rows: the
counters as they were reported, and the entries of each client as the last transaction left them that was about it. -/
structure RowState (float64 : NumLit → Option NumLit) where
  db : Database
  editing : Nat → Option (Editing float64)
  holder : Nat → Option Nat
  counted : Nat → Counter
  committed : Nat → String → List (Option Json)

namespace RowState

variable {float64 : NumLit → Option NumLit}

/-- A node reports its counters whole, a poll what is to be added to them. -/
def observe (s : RowState float64) (tx : WriterTx) (db : Database) : RowState float64 :=
  { s with
    db := db
    counted := fun id =>
      match tx with
      | .count traffics _ _ => ((rowAt s.db id).map fun ib => raised traffics ib (s.counted id)).getD (s.counted id)
      | .maintain _ => s.counted id
      | .merge _ nodeId => if onNode s.db nodeId id then countersAt db id else s.counted id
    committed := fun id email => if tx.rewrites s.db id then entriesAt db id email else s.committed id email }

def record (s : RowState float64) (e : Editing float64) (db : Database) : RowState float64 :=
  { s with
    db := db
    committed := fun id email =>
      if id = e.row.id ∧ e.edit.touches e.row email then entriesAt db id email else s.committed id email }

def drop (s : RowState float64) (k : Nat) (e : Editing float64) : RowState float64 :=
  { s with
    editing := Function.update s.editing k none
    holder := if e.edit.locks then Function.update s.holder e.row.id none else s.holder }

/-- Every increment is in the counters, and every client has the entries it was last given. -/
def Kept (s : RowState float64) : Prop :=
  ∀ id, countersAt s.db id = s.counted id ∧ ∀ email ≠ "", entriesAt s.db id email = s.committed id email

def start (db : Database) : RowState float64 := ⟨db, fun _ => none, fun _ => none, countersAt db, entriesAt db⟩

end RowState

inductive RowAction where
  | read (k id : Nat) (edit : Edit)
  | rewrite (k : Nat)
  /-- The edit ends without saving: a check fails, there is nothing to change, or its transaction is rolled back. -/
  | stop (k : Nat)
  | commit (k : Nat) (now : Int)
  | write (tx : WriterTx)

def rows (float64 : NumLit → Option NumLit) : System (RowState float64) RowAction where
  next s
    | .read k id edit => do
        let row ← rowAt s.db id
        if (s.editing k).isSome || (edit.locks && (s.holder id).isSome) then none
        else some { s with
          editing := Function.update s.editing k (some ⟨edit, row, none⟩)
          holder := if edit.locks then Function.update s.holder id (some k) else s.holder }
    | .rewrite k => do
        let e ← s.editing k
        if e.rewritten.isSome then none
        else match made : e.edit.newSettings float64 (knownEmail s.db) e.row with
        | some settings => some { s with
            editing := Function.update s.editing k (some ⟨e.edit, e.row, some ⟨knownEmail s.db, settings, made⟩⟩) }
        | none => none
    | .stop k => do
        let e ← s.editing k
        return s.drop k e
    | .commit k now => do
        let e ← s.editing k
        let w ← e.rewritten
        let db ← e.edit.commit s.db now e.row w.saved
        return (s.record e db).drop k e
    | .write tx => some ((tx.apply s.db).elim s (s.observe tx))

variable {float64 : NumLit → Option NumLit}

/-! ## What comes between a read and a save -/

/-- From `s` to `t` the row of an edit has other counters, or a client that the edit is not about other entries. -/
def Overtaken (s t : RowState float64) (e : Editing float64) : Prop :=
  countersAt t.db e.row.id ≠ countersAt s.db e.row.id ∨
    ∃ email ≠ "", e.edit.touches e.row email = false ∧ entriesAt t.db e.row.id email ≠ entriesAt s.db e.row.id email

/-- Decoding and compaction take something from the entries a client has: it has no record, or one of their numbers is
not one that a float holds. -/
def Lossy (float64 : NumLit → Option NumLit) (known : String → Bool) (edit : Edit) (row : Inbound) (email : String) : Prop :=
  entriesOf row.settings email ≠ [] ∧ ((edit.compacts = true ∧ known email = false) ∨
    ∃ entry ∈ entriesOf row.settings email, entry.reencode float64 ≠ entry.reencode some)

/-- A step takes from the edit `k` what it has read: the edit itself computes settings that lose something of a client it
is not about, or another transaction overtakes it. -/
def Disturbs (s : RowState float64) (a : RowAction) (k : Nat) : Prop :=
  ∃ e t, s.editing k = some e ∧ (rows float64).next s a = some t ∧
    ((a = .rewrite k ∧ ∃ email ≠ "", e.edit.touches e.row email = false ∧
        Lossy float64 (knownEmail s.db) e.edit e.row email) ∨
      ((∀ now, a ≠ .commit k now) ∧ Overtaken s t e))

def Calm (s : RowState float64) (a : RowAction) : Prop := ∀ k, ¬Disturbs s a k

/-! ## What a save does to the rows -/

theorem syncInboundClients_inbounds (db : Database) (now : Int) (id : Nat) (clients : List Client) (detach : List String)
    (prune : Bool) : (syncInboundClients db now id clients detach prune).inbounds = db.inbounds := rfl

theorem renameRecord_inbounds (db : Database) (old new : String) : (renameRecord db old new).inbounds = db.inbounds := by
  unfold renameRecord
  split <;> rfl

theorem sync_inbounds {db db' : Database} {now : Int} {row saved : Inbound} {edit : Edit}
    (done : edit.sync db now row saved = some db') : db'.inbounds = db.inbounds := by
  cases edit with
  | addInboundClient wire =>
      obtain ⟨_, _, done⟩ := Option.bind_eq_some_iff.mp done
      obtain ⟨_, _, done⟩ := Option.bind_eq_some_iff.mp done
      obtain ⟨_, _, done⟩ := Option.bind_eq_some_iff.mp done
      rw [← Option.some.inj done, applyInboundClientDelta, syncInboundClients_inbounds]
  | updateInboundClient oldEmail wire =>
      obtain ⟨_, _, done⟩ := Option.bind_eq_some_iff.mp done
      obtain ⟨changed, _, done⟩ := Option.bind_eq_some_iff.mp done
      rw [← Option.some.inj done, applyInboundClientDelta, syncInboundClients_inbounds]
      split
      · exact renameRecord_inbounds _ _ _
      · rfl
  | bulkDelInboundClients _ | bulkAdjustInboundClients _ _ _ | bulkSetEnableInboundClients _ _ _ =>
      obtain ⟨_, _, done⟩ := Option.bind_eq_some_iff.mp done
      rw [← Option.some.inj done, syncInbound, syncInboundClients_inbounds]
  | delInboundClientByEmail _ | delInboundClients _ =>
      rw [← Option.some.inj done, applyInboundClientDelta, syncInboundClients_inbounds]
  | addToGroup _ _ | replaceGroupValue _ _ => rw [← Option.some.inj done]

theorem commit_rows {db db' : Database} {now : Int} {e : Editing float64} {w : Rewritten float64 e.edit e.row}
    (done : e.edit.commit db now e.row w.saved = some db') :
    rowAt db' e.row.id = some w.saved ∧ ∀ id ≠ e.row.id, rowAt db' id = rowAt db id := by
  have same := rowAt_congr (sync_inbounds done)
  refine ⟨(same _).trans (rowAt_saveInbound_self db w.saved), fun id other => (same id).trans ?_⟩
  exact rowAt_saveInbound_other db other

/-! ## What an edit saves of the clients it is not about -/

theorem saved_same {edit : Edit} {row : Inbound} (w : Rewritten float64 edit row) {email : String} (named : email ≠ "")
    (other : edit.touches row email = false) :
    (entriesOf (some w.settings) email).map (Json.reencode some) = (entriesOf row.settings email).map (Json.reencode some) ↔
      ¬Lossy float64 w.known edit row email := by
  obtain ⟨settings, decoded, -⟩ := Option.bind_eq_some_iff.mp w.made
  rw [newSettings_keeps named other decoded w.made, leaves]
  have entries := decodedEntriesOf decoded email
  unfold Lossy
  generalize entriesOf row.settings email = before at entries
  by_cases dropped : edit.compacts = true ∧ w.known email = false
  · rw [if_pos (by simp [dropped]), List.map_nil]
    cases before with
    | nil => simp
    | cons entry rest => simp [dropped]
  · rw [if_neg (by simpa using dropped)]
    generalize entriesOf (some settings) email = after at entries
    induction entries with
    | nil => simp
    | @cons entry entry' rest rest' read _ ih =>
        have again := Json.reencode_again read
        rw [List.map_cons, List.map_cons, List.cons.injEq, again, ← read]
        refine (and_congr_right fun _ => ih).trans ?_
        by_cases whole : entry.reencode float64 = entry.reencode some
        · cases rest <;> simp [dropped, whole]
        · simp [whole]

/-! ## The invariant -/

/-- The edits under way agree with the row on all they are not about, and hold the locks they have taken. -/
structure Sound (s : RowState float64) : Prop where
  kept : s.Kept
  counters : ∀ k e, s.editing k = some e → countersAt s.db e.row.id = e.row.counters
  entries : ∀ k e, s.editing k = some e → ∀ email ≠ "", e.edit.touches e.row email = false →
    entriesAt s.db e.row.id email = (entriesOf e.row.settings email).map (Json.reencode some)
  whole : ∀ k e w, s.editing k = some e → e.rewritten = some w → ∀ email ≠ "", e.edit.touches e.row email = false →
    ¬Lossy float64 w.known e.edit e.row email
  locked : ∀ k e, s.editing k = some e → e.edit.locks = true → s.holder e.row.id = some k

theorem start_sound (db : Database) : Sound (RowState.start db : RowState float64) where
  kept := fun _ => ⟨rfl, fun _ _ => rfl⟩
  counters := fun _ _ none => absurd none (by simp [RowState.start])
  entries := fun _ _ none => absurd none (by simp [RowState.start])
  whole := fun _ _ _ none => absurd none (by simp [RowState.start])
  locked := fun _ _ none => absurd none (by simp [RowState.start])

/-! ### The edits that stay -/

theorem drop_editing {s : RowState float64} {k : Nat} {e : Editing float64} {j : Nat} {e' : Editing float64}
    (at' : (s.drop k e).editing j = some e') : j ≠ k ∧ s.editing j = some e' := by
  simp only [RowState.drop, Function.update_apply] at at'
  split at at'
  · cases at'
  · rename_i other
    exact ⟨other, at'⟩

theorem drop_locked {s : RowState float64} {k : Nat} {e : Editing float64} (here : s.editing k = some e)
    (locked : ∀ k e, s.editing k = some e → e.edit.locks = true → s.holder e.row.id = some k) {j : Nat} {e' : Editing float64}
    (there : s.editing j = some e') (other : j ≠ k) (locks : e'.edit.locks = true) :
    (s.drop k e).holder e'.row.id = some j := by
  have held := locked j e' there locks
  unfold RowState.drop
  dsimp only
  split
  · rename_i gives
    have apart : e'.row.id ≠ e.row.id := by
      intro same
      have own := locked k e here gives
      rw [← same, held] at own
      exact other (Option.some.inj own)
    rw [Function.update_of_ne apart]
    exact held
  · exact held

theorem not_overtaken {s t : RowState float64} {e : Editing float64} (calm : ¬Overtaken s t e) :
    countersAt t.db e.row.id = countersAt s.db e.row.id ∧
      ∀ email ≠ "", e.edit.touches e.row email = false → entriesAt t.db e.row.id email = entriesAt s.db e.row.id email := by
  refine ⟨not_not.mp fun differ => calm (.inl differ), fun email named other => ?_⟩
  exact not_not.mp fun differ => calm (.inr ⟨email, named, other, differ⟩)

theorem quiet_db {s t : RowState float64} {a : RowAction} (step : (rows float64).next s a = some t)
    (saves : ∀ k now, a ≠ .commit k now) (writes : ∀ tx, a ≠ .write tx) : t.db = s.db := by
  cases a with
  | read k id edit =>
      simp only [rows, Option.bind_eq_bind, Option.bind_eq_some_iff] at step
      obtain ⟨row, -, step⟩ := step
      split at step
      · cases step
      · cases step
        rfl
  | rewrite k =>
      simp only [rows, Option.bind_eq_bind, Option.bind_eq_some_iff] at step
      obtain ⟨e, -, step⟩ := step
      split at step
      · cases step
      · split at step
        · cases step
          rfl
        · cases step
  | stop k =>
      simp only [rows, Option.bind_eq_bind, Option.bind_eq_some_iff] at step
      obtain ⟨e, -, step⟩ := step
      cases step
      rfl
  | commit k now => exact absurd rfl (saves k now)
  | write tx => exact absurd rfl (writes tx)

theorem same_overtaken {s t : RowState float64} (same : t.db = s.db) (e : Editing float64) : ¬Overtaken s t e := by
  unfold Overtaken
  simp [same]

/-! ### Reading and computing -/

section Steps

variable {s t : RowState float64} (sound : Sound s)
include sound

theorem read_sound {k id : Nat} {edit : Edit} (step : (rows float64).next s (.read k id edit) = some t) : Sound t := by
  simp only [rows, Option.bind_eq_bind, Option.bind_eq_some_iff] at step
  obtain ⟨row, here, step⟩ := step
  split at step
  · cases step
  · rename_i free
    cases step
    simp only [Bool.or_eq_true, Bool.and_eq_true, not_or, not_and, Bool.not_eq_true, Option.isSome_eq_false_iff,
      Option.isNone_iff_eq_none] at free
    have own := rowAt_id here
    refine ⟨sound.kept, ?_, ?_, ?_, ?_⟩
    · intro j e at'
      simp only [Function.update_apply] at at'
      split at at'
      · cases at'
        rw [countersAt, own, here]
        rfl
      · exact sound.counters j e at'
    · intro j e at' email named other
      simp only [Function.update_apply] at at'
      split at at'
      · cases at'
        rw [entriesAt, own, here]
        rfl
      · exact sound.entries j e at' email named other
    · intro j e w at' ready
      simp only [Function.update_apply] at at'
      split at at'
      · cases at'
        cases ready
      · exact sound.whole j e w at' ready
    · intro j e at' locks
      simp only [Function.update_apply] at at'
      split at at'
      · rename_i same
        cases at'
        rw [if_pos locks, own]
        exact (Function.update_self id (some k) s.holder).trans (congrArg some same.symm)
      · have held := sound.locked j e at' locks
        split
        · rename_i takes
          have apart : e.row.id ≠ id := by
            intro same
            rw [same, free.2 takes] at held
            cases held
          exact (Function.update_of_ne apart (some k) s.holder).trans held
        · exact held

theorem rewrite_sound {k : Nat} (calm : Calm s (.rewrite k)) (step : (rows float64).next s (.rewrite k) = some t) :
    Sound t := by
  have taken := step
  simp only [rows, Option.bind_eq_bind, Option.bind_eq_some_iff] at step
  obtain ⟨e, here, step⟩ := step
  split at step
  · cases step
  · split at step
    · rename_i settings made
      cases step
      have spared : ∀ email ≠ "", e.edit.touches e.row email = false →
          ¬Lossy float64 (knownEmail s.db) e.edit e.row email :=
        fun email named other lossy => calm k ⟨e, _, here, taken, .inl ⟨rfl, email, named, other, lossy⟩⟩
      have back : ∀ {j : Nat} {e' : Editing float64}, Function.update s.editing k
          (some ⟨e.edit, e.row, some ⟨knownEmail s.db, settings, made⟩⟩) j = some e' →
          ∃ e'', s.editing j = some e'' ∧ e''.edit = e'.edit ∧ e''.row = e'.row := by
        intro j e' at'
        simp only [Function.update_apply] at at'
        split at at'
        · rename_i same
          cases at'
          exact ⟨e, same ▸ here, rfl, rfl⟩
        · exact ⟨e', at', rfl, rfl⟩
      refine ⟨sound.kept, ?_, ?_, ?_, ?_⟩
      · intro j e' at'
        obtain ⟨e'', before, -, row⟩ := back at'
        exact row ▸ sound.counters j e'' before
      · intro j e' at' email named other
        obtain ⟨e'', before, edit, row⟩ := back at'
        rw [← edit, ← row] at other
        rw [← row]
        exact sound.entries j e'' before email named other
      · intro j e' w at' ready
        simp only [Function.update_apply] at at'
        split at at'
        · cases at'
          cases ready
          exact spared
        · exact sound.whole j e' w at' ready
      · intro j e' at' locks
        obtain ⟨e'', before, edit, row⟩ := back at'
        rw [← row]
        exact sound.locked j e'' before (edit ▸ locks)
    · cases step

/-! ### Ending -/

theorem stop_sound {k : Nat} (step : (rows float64).next s (.stop k) = some t) : Sound t := by
  simp only [rows, Option.bind_eq_bind, Option.bind_eq_some_iff] at step
  obtain ⟨e, here, step⟩ := step
  cases step
  refine ⟨sound.kept, ?_, ?_, ?_, ?_⟩
  · intro j e' at'
    exact sound.counters j e' (drop_editing at').2
  · intro j e' at'
    exact sound.entries j e' (drop_editing at').2
  · intro j e' w at'
    exact sound.whole j e' w (drop_editing at').2
  · intro j e' at' locks
    obtain ⟨other, there⟩ := drop_editing at'
    exact drop_locked here sound.locked there other locks

/-! ### Saving -/

omit sound in
theorem commit_next {k : Nat} {now : Int} (step : (rows float64).next s (.commit k now) = some t) :
    ∃ e, ∃ w : Rewritten float64 e.edit e.row, ∃ db, s.editing k = some e ∧ e.rewritten = some w ∧
      e.edit.commit s.db now e.row w.saved = some db ∧ t = (s.record e db).drop k e := by
  simp only [rows, Option.bind_eq_bind, Option.bind_eq_some_iff] at step
  obtain ⟨e, here, w, ready, db, done, made⟩ := step
  cases made
  exact ⟨e, w, db, here, ready, done, rfl⟩

theorem commit_kept {k : Nat} {now : Int} (step : (rows float64).next s (.commit k now) = some t) : t.Kept := by
  obtain ⟨e, w, db, here, ready, done, rfl⟩ := commit_next step
  obtain ⟨own, elsewhere⟩ := commit_rows done
  intro id
  by_cases at' : id = e.row.id
  · subst at'
    have saved : countersAt db e.row.id = e.row.counters := by
      rw [countersAt, own]
      rfl
    refine ⟨saved.trans ((sound.counters k e here).symm.trans (sound.kept e.row.id).1), fun email named => ?_⟩
    simp only [RowState.drop, RowState.record, true_and]
    split
    · rfl
    · rename_i other
      have other : e.edit.touches e.row email = false := by simpa using other
      have same := (saved_same w named other).mpr (sound.whole k e w here ready email named other)
      have shown : entriesAt db e.row.id email = (entriesOf (some w.settings) email).map (Json.reencode some) := by
        rw [entriesAt, own]
        rfl
      exact (shown.trans same).trans
        ((sound.entries k e here email named other).symm.trans ((sound.kept e.row.id).2 email named))
  · have same := elsewhere id at'
    refine ⟨(countersAt_congr (congrArg (Option.map _) same)).trans (sound.kept id).1, fun email named => ?_⟩
    simp only [RowState.drop, RowState.record, at', false_and, ↓reduceIte]
    exact (entriesAt_congr (congrArg (Option.map _) same) email).trans ((sound.kept id).2 email named)

theorem commit_sound {k : Nat} {now : Int} (calm : Calm s (.commit k now))
    (step : (rows float64).next s (.commit k now) = some t) : Sound t := by
  have kept := commit_kept sound step
  have left : ∀ j e', s.editing j = some e' → j ≠ k → ¬Overtaken s t e' := by
    intro j e' there other overtaken
    refine calm j ⟨e', t, there, step, .inr ⟨fun now' same => ?_, overtaken⟩⟩
    cases same
    exact other rfl
  obtain ⟨e, w, db, here, ready, done, rfl⟩ := commit_next step
  refine ⟨kept, ?_, ?_, ?_, ?_⟩
  · intro j e' at'
    obtain ⟨other, there⟩ := drop_editing at'
    exact (not_overtaken (left j e' there other)).1.trans (sound.counters j e' there)
  · intro j e' at' email named untouched
    obtain ⟨other, there⟩ := drop_editing at'
    exact ((not_overtaken (left j e' there other)).2 email named untouched).trans
      (sound.entries j e' there email named untouched)
  · intro j e' w' at'
    exact sound.whole j e' w' (drop_editing at').2
  · intro j e' at' locks
    obtain ⟨other, there⟩ := drop_editing at'
    exact drop_locked (s := s.record e db) here sound.locked there other locks

/-! ### The writer -/

theorem observe_kept {tx : WriterTx} {db : Database} (done : tx.apply s.db = some db) : (s.observe tx db).Kept := by
  intro id
  obtain ⟨counters, entries⟩ := sound.kept id
  have left : ∀ (spared : tx.rewrites s.db id = false → (rowAt db id).map (·.settings) = (rowAt s.db id).map (·.settings))
      (email : String), email ≠ "" → entriesAt db id email =
        if tx.rewrites s.db id then entriesAt db id email else s.committed id email := by
    intro spared email named
    split
    · rfl
    · rename_i away
      exact (entriesAt_congr (spared (by simpa using away)) email).trans (entries email named)
  cases tx with
  | count traffics uses clock =>
      obtain ⟨counted, settings⟩ := countTraffic_rows done id
      refine ⟨?_, left fun away => settings (by simpa [WriterTx.rewrites] using away)⟩
      simp only [RowState.observe, ← counters]
      rw [countersAt, counted, countersAt]
      cases rowAt s.db id <;> rfl
  | maintain clock =>
      obtain ⟨counted, settings⟩ := maintain_rows done id
      exact ⟨(countersAt_congr counted).trans counters, left fun away => settings away⟩
  | merge tick nodeId =>
      have merged := WriterTx.merge_ok done
      refine ⟨?_, left fun away => by rw [setRemoteTraffic_row merged away]⟩
      simp only [RowState.observe]
      split
      · rfl
      · rename_i away
        exact (countersAt_congr (by rw [setRemoteTraffic_row merged (by simpa using away)])).trans counters

theorem write_sound {tx : WriterTx} (calm : Calm s (.write tx)) (step : (rows float64).next s (.write tx) = some t) :
    Sound t := by
  have left : ∀ j e, s.editing j = some e → ¬Overtaken s t e := fun j e here overtaken =>
    calm j ⟨e, t, here, step, .inr ⟨fun _ same => RowAction.noConfusion same, overtaken⟩⟩
  cases step
  cases done : tx.apply s.db with
  | none => exact sound
  | some db =>
      rw [done] at left
      refine ⟨observe_kept sound done, ?_, ?_, sound.whole, sound.locked⟩
      · intro j e here
        exact (not_overtaken (left j e here)).1.trans (sound.counters j e here)
      · intro j e here email named other
        exact ((not_overtaken (left j e here)).2 email named other).trans (sound.entries j e here email named other)

theorem step_sound {a : RowAction} (calm : Calm s a) (step : (rows float64).next s a = some t) : Sound t := by
  cases a with
  | read k id edit => exact read_sound sound step
  | rewrite k => exact rewrite_sound sound calm step
  | stop k => exact stop_sound sound step
  | commit k now => exact commit_sound sound calm step
  | write tx => exact write_sound sound calm step

/-! ## What is lost -/

omit sound in
theorem commit_restores {k : Nat} {now : Int} {e : Editing float64} (here : t.editing k = some e)
    {u : RowState float64} (step : (rows float64).next t (.commit k now) = some u) :
    countersAt u.db e.row.id = e.row.counters ∧ u.counted = t.counted ∧
      ∃ w : Rewritten float64 e.edit e.row, e.rewritten = some w ∧ ∀ email, e.edit.touches e.row email = false →
        entriesAt u.db e.row.id email = (entriesOf (some w.settings) email).map (Json.reencode some) ∧
          u.committed e.row.id email = t.committed e.row.id email := by
  obtain ⟨e', w, db, here', ready, done, rfl⟩ := commit_next step
  cases here.symm.trans here'
  obtain ⟨own, -⟩ := commit_rows done
  refine ⟨?_, rfl, w, ready, fun email other => ⟨?_, ?_⟩⟩
  · exact (congrArg (fun row : Option Inbound => (row.map (·.counters)).getD ⟨0, 0⟩) own).trans rfl
  · exact congrArg (fun row : Option Inbound => (entriesOf (row.bind (·.settings)) email).map (Json.reencode some)) own
  · simp [RowState.drop, RowState.record, other]

theorem lossy_lost {k : Nat} {e : Editing float64} (here : s.editing k = some e) {email : String} (named : email ≠ "")
    (other : e.edit.touches e.row email = false) (lossy : Lossy float64 (knownEmail s.db) e.edit e.row email)
    (step : (rows float64).next s (.rewrite k) = some t) {now : Int} {u : RowState float64}
    (saves : (rows float64).next t (.commit k now) = some u) : ¬u.Kept := by
  simp only [rows, Option.bind_eq_bind, Option.bind_eq_some_iff] at step
  obtain ⟨e', here', step⟩ := step
  cases here.symm.trans here'
  split at step
  · cases step
  · split at step
    · rename_i settings made
      cases step
      have there : Function.update s.editing k (some ⟨e.edit, e.row, some ⟨knownEmail s.db, settings, made⟩⟩) k =
          some ⟨e.edit, e.row, some ⟨knownEmail s.db, settings, made⟩⟩ := Function.update_self ..
      obtain ⟨-, -, w, ready, restores⟩ := commit_restores there saves
      cases ready
      obtain ⟨shown, committed⟩ := restores email other
      intro kept
      have same := shown.symm.trans (((kept e.row.id).2 email named).trans committed)
      have before := ((sound.kept e.row.id).2 email named).symm.trans (sound.entries k e here email named other)
      exact (saved_same ⟨knownEmail s.db, settings, made⟩ named other).mp (same.trans before) lossy
    · cases step

theorem overtaken_lost {a : RowAction} {k : Nat} {e : Editing float64} (here : s.editing k = some e)
    (step : (rows float64).next s a = some t) (another : ∀ now, a ≠ .commit k now) (overtaken : Overtaken s t e) {now : Int}
    {u : RowState float64} (saves : (rows float64).next t (.commit k now) = some u) : ¬u.Kept := by
  have changed : t.Kept ∧ t.editing k = some e := by
    cases a with
    | read _ _ _ | rewrite _ | stop _ =>
        have same := quiet_db step (fun _ _ same => RowAction.noConfusion same) fun _ same => RowAction.noConfusion same
        exact absurd overtaken (same_overtaken same e)
    | commit j now' =>
        refine ⟨commit_kept sound step, ?_⟩
        have apart : k ≠ j := by
          rintro rfl
          exact another now' rfl
        obtain ⟨e', w, db, -, -, -, rfl⟩ := commit_next step
        exact (Function.update_of_ne apart none s.editing).trans here
    | write tx =>
        cases step
        cases done : tx.apply s.db with
        | none => exact ⟨sound.kept, here⟩
        | some db => exact ⟨observe_kept sound done, here⟩
  obtain ⟨counters, counted, w, ready, restores⟩ := commit_restores changed.2 saves
  intro kept
  rcases overtaken with differ | ⟨email, named, other, differ⟩
  · apply differ
    rw [(changed.1 e.row.id).1, ← counted, ← (kept e.row.id).1, counters, sound.counters k e here]
  · apply differ
    obtain ⟨shown, committed⟩ := restores email other
    have same := (saved_same w named other).mpr (sound.whole k e w here ready email named other)
    rw [(changed.1 e.row.id).2 email named, ← committed, ← (kept e.row.id).2 email named, shown, same,
      sound.entries k e here email named other]

/-! ## Who overtakes -/

omit sound in
theorem writer_overtakes {tx : WriterTx} {e : Editing float64} (step : (rows float64).next s (.write tx) = some t)
    (overtaken : Overtaken s t e) : tx.counts s.db e.row.id = true ∨ tx.rewrites s.db e.row.id = true := by
  by_contra neither
  simp only [not_or, Bool.not_eq_true] at neither
  obtain ⟨silent, spared⟩ := neither
  have same : (rowAt t.db e.row.id).map (·.counters) = (rowAt s.db e.row.id).map (·.counters) ∧
      (rowAt t.db e.row.id).map (·.settings) = (rowAt s.db e.row.id).map (·.settings) := by
    cases step
    cases done : tx.apply s.db with
    | none => exact ⟨rfl, rfl⟩
    | some db =>
        cases tx with
        | count traffics uses clock =>
            obtain ⟨counters, settings⟩ := countTraffic_rows done e.row.id
            refine ⟨counters.trans ?_, settings (by simpa [WriterTx.rewrites] using spared)⟩
            cases row : rowAt s.db e.row.id with
            | none => rfl
            | some ib =>
                refine congrArg some (raised_none (fun traffic mem => ?_) ib.counters)
                by_contra counts
                rw [WriterTx.counts, row, List.any_eq_false] at silent
                exact silent traffic mem (by simpa using counts)
        | maintain clock =>
            obtain ⟨counters, settings⟩ := maintain_rows done e.row.id
            exact ⟨counters, settings spared⟩
        | merge tick nodeId =>
            have row := setRemoteTraffic_row (WriterTx.merge_ok done) spared
            exact ⟨congrArg (Option.map _) row, congrArg (Option.map _) row⟩
  rcases overtaken with differ | ⟨email, -, -, differ⟩
  · exact differ (countersAt_congr same.1)
  · exact differ (entriesAt_congr same.2 email)

theorem edit_overtakes {j k : Nat} {now : Int} {e : Editing float64} (here : s.editing k = some e) (differ : j ≠ k)
    (step : (rows float64).next s (.commit j now) = some t) (overtaken : Overtaken s t e) :
    ∃ e', s.editing j = some e' ∧ e'.row.id = e.row.id ∧ ¬(e'.edit.locks = true ∧ e.edit.locks = true) := by
  obtain ⟨e', w, db, there, -, done, rfl⟩ := commit_next step
  have own : e'.row.id = e.row.id := by
    by_contra apart
    have same := (commit_rows done).2 e.row.id (Ne.symm apart)
    rcases overtaken with differ | ⟨email, -, -, differ⟩
    · exact differ (countersAt_congr (congrArg (Option.map _) same))
    · exact differ (entriesAt_congr (congrArg (Option.map _) same) email)
  refine ⟨e', there, own, fun ⟨locks', locks⟩ => differ ?_⟩
  have held := sound.locked j e' there locks'
  rw [own, sound.locked k e here locks] at held
  exact (Option.some.inj held).symm

end Steps

/-- No update of a row is lost in a run in which no step takes from an edit what it has read. A step that does, and that
the edit follows with its save, loses one. Only the writer and edits without the lock can overtake an edit. -/
theorem row_edits {db : Database} {s : RowState float64} (run : (rows float64).Path Calm (RowState.start db) s) :
    s.Kept ∧
      (∀ a k t now u, Disturbs s a k → (rows float64).next s a = some t →
        (rows float64).next t (.commit k now) = some u → ¬u.Kept) ∧
      (∀ tx k, Disturbs s (.write tx) k → ∃ e, s.editing k = some e ∧
        (tx.counts s.db e.row.id = true ∨ tx.rewrites s.db e.row.id = true)) ∧
      ∀ j now k, Disturbs s (.commit j now) k → ∃ e e', s.editing k = some e ∧ s.editing j = some e' ∧
        e'.row.id = e.row.id ∧ ¬(e'.edit.locks = true ∧ e.edit.locks = true) := by
  have sound : Sound s := run.invariant Sound (start_sound db) fun s a t sound calm step => step_sound sound calm step
  refine ⟨sound.kept, ?_, ?_, ?_⟩
  · rintro a k t now u ⟨e, t', here, step', disturbed⟩ step saves
    cases step.symm.trans step'
    rcases disturbed with ⟨rfl, email, named, other, lossy⟩ | ⟨another, overtaken⟩
    · exact lossy_lost sound here named other lossy step saves
    · exact overtaken_lost sound here step another overtaken saves
  · rintro tx k ⟨e, t, here, step, disturbed⟩
    rcases disturbed with ⟨own, -⟩ | ⟨-, overtaken⟩
    · exact RowAction.noConfusion own
    · exact ⟨e, here, writer_overtakes step overtaken⟩
  · rintro j now k ⟨e, t, here, step, disturbed⟩
    rcases disturbed with ⟨own, -⟩ | ⟨another, overtaken⟩
    · exact RowAction.noConfusion own
    · have differ : j ≠ k := by
        rintro rfl
        exact another now rfl
      obtain ⟨e', there, same, locks⟩ := edit_overtakes sound here differ step overtaken
      exact ⟨e, e', here, there, same, locks⟩

theorem idle_calm {s : RowState float64} (idle : ∀ k, s.editing k = none) (a : RowAction) : Calm s a := by
  rintro k ⟨e, t, here, -, -⟩
  rw [idle k] at here
  cases here

theorem alone_calm {s : RowState float64} {k : Nat} {e : Editing float64} (alone : ∀ j ≠ k, s.editing j = none)
    (here : s.editing k = some e) (whole : ∀ email, ¬Lossy float64 (knownEmail s.db) e.edit e.row email) :
    Calm s (.rewrite k) ∧ ∀ now, Calm s (.commit k now) := by
  constructor
  · rintro j ⟨e', t, there, step, ⟨own, email, named, other, lossy⟩ | ⟨-, overtaken⟩⟩
    · cases own
      cases here.symm.trans there
      exact whole email lossy
    · have same := quiet_db step (fun _ _ same => RowAction.noConfusion same) fun _ same => RowAction.noConfusion same
      exact same_overtaken same e' overtaken
  · rintro now j ⟨e', t, there, step, ⟨own, -⟩ | ⟨another, -⟩⟩
    · exact RowAction.noConfusion own
    · by_cases own : j = k
      · subst own
        exact another now rfl
      · rw [alone j own] at there
        cases there

namespace Example

def stored (email : String) : Json := .obj [("email", .str email), ("enable", .bool true), ("id", .str email)]

def office : Fields := .ofList [("clients", Json.arr [stored "alice", stored "bob"])]

def quota (email : String) (total : Int) : ClientTraffic := ⟨1, true, email, 0, 0, 0, total, 0, 0, 0, 0, 0⟩

def panel : Database :=
  let db : Database := ⟨"", [], [⟨1, none, "", "in-443", "", 443, .vmess, some office, none, "", "never", 1, 0, true, "", 1,
    0, 0, 0, 0, false, []⟩], 2, [], 1, [], [quota "alice" 0, quota "bob" 100], [], []⟩
  ((getClients (some office)).map (syncInbound db 0 1)).getD db

def poll : Clock := ⟨5000, 5000, fun _ => false, fun expiry _ => expiry + 1⟩

def useOfBob : RowAction := .write (.count [⟨true, "in-443", 0, 150⟩] [⟨"bob", 0, 150⟩] poll)

def addCarol : Edit := .addInboundClient [stored "carol"]

def disableAlice : Edit := .bulkSetEnableInboundClients ["alice"] false 6000

end Example

namespace Example

def serial : List RowAction := [useOfBob, .read 0 1 disableAlice, .rewrite 0, .commit 0 6000]

theorem serial_calm {s : RowState some} (ended : (rows some).run (RowState.start panel) serial = some s) :
    (rows some).Path Calm (RowState.start panel) s := by
  simp only [serial, System.run, Option.bind_eq_some_iff] at ended
  obtain ⟨p, polls, r, reads, w, rewrites, _, commits, ended⟩ := ended
  cases ended
  have idle : ∀ k, p.editing k = none := by
    cases polls
    intro k
    cases WriterTx.apply (RowState.start panel : RowState some).db _ <;> rfl
  have first := (System.Path.refl.tail (idle_calm (fun _ => rfl) useOfBob) polls).tail (idle_calm idle _) reads
  simp only [rows, Option.bind_eq_bind, Option.bind_eq_some_iff] at reads
  obtain ⟨row, -, reads⟩ := reads
  split at reads
  · cases reads
  · cases reads
    have whole : ∀ (known : String → Bool) (email : String), ¬Lossy some known disableAlice row email := by
      rintro known email ⟨-, ⟨compacts, -⟩ | ⟨entry, -, differ⟩⟩
      · cases compacts
      · exact differ rfl
    have alone : ∀ (e : Editing some) (j : Nat), j ≠ 0 → Function.update p.editing 0 (some e) j = none := by
      intro e j other
      rw [Function.update_of_ne other]
      exact idle j
    have second := first.tail (alone_calm (e := ⟨disableAlice, row, none⟩) (alone _) rfl (whole _)).1 rewrites
    simp only [rows, Option.bind_eq_bind, Option.bind_eq_some_iff] at rewrites
    obtain ⟨e, here, rewrites⟩ := rewrites
    rw [Function.update_self] at here
    cases here
    split at rewrites
    · cases rewrites
    · split at rewrites
      · cases rewrites
        refine second.tail ((alone_calm (k := 0) (fun j other => ?_) rfl (whole _)).2 6000) commits
        exact (Function.update_of_ne other ..).trans (alone _ j other)
      · cases rewrites

end Example

open Example in
/-- The traffic is counted before the edit reads, so its save keeps it. -/
theorem row_edits_serial : ∃ s : RowState some, s.Kept ∧ countersAt s.db 1 = ⟨0, 150⟩ ∧
    entriesAt s.db 1 "alice" ≠ entriesAt panel 1 "alice" := by
  have runs : ((rows some).run (RowState.start panel) serial).isSome = true := by decide +kernel
  have shows (h) : (fun s : RowState some => countersAt s.db 1 = ⟨0, 150⟩ ∧
      entriesAt s.db 1 "alice" ≠ entriesAt panel 1 "alice") (((rows some).run (RowState.start panel) serial).get h) := by
    revert h
    decide +kernel
  exact ⟨_, (row_edits (serial_calm (Option.some_get runs).symm)).1, shows runs⟩

open Example in
/-- An add reads the row, the poll counts the traffic of bob and disables him, and the add saves what it read. -/
theorem row_edit_lost :
    ∃ s, (rows some).Reaches (RowState.start panel) s ∧ countersAt s.db 1 = ⟨0, 0⟩ ∧ s.counted 1 = ⟨0, 150⟩ ∧
      entriesAt s.db 1 "bob" = [some (stored "bob")] ∧ s.committed 1 "bob" ≠ [some (stored "bob")] := by
  have runs : ((rows some).run (RowState.start panel) [.read 0 1 addCarol, useOfBob, .write (.maintain poll), .rewrite 0,
      .commit 0 6000]).isSome = true := by decide +kernel
  have lost (h) : (fun s : RowState some => countersAt s.db 1 = ⟨0, 0⟩ ∧ s.counted 1 = ⟨0, 150⟩ ∧
      entriesAt s.db 1 "bob" = [some (stored "bob")] ∧ s.committed 1 "bob" ≠ [some (stored "bob")])
      (((rows some).run (RowState.start panel) [.read 0 1 addCarol, useOfBob, .write (.maintain poll), .rewrite 0,
        .commit 0 6000]).get h) := by
    revert h
    decide +kernel
  exact ⟨_, System.run_reaches (Option.some_get runs).symm, lost runs⟩

end ThreeXNode.Panel
