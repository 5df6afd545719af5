import ThreeXNode.Library.Slots
import ThreeXNode.Service.Ports

namespace ThreeXNode.Service.LoginLimiter
open Library

/-! # Limits on failed logins -/

abbrev Text := List Char

structure Rule where
  maxFailures : Nat
  window : Int
  cooldown : Int

/-- The zero time is `none`. -/
structure Record where
  failures : List Int
  blockedUntil : Option Int
  deriving DecidableEq

def fresh : Record := ⟨[], none⟩

structure Limiter where
  rule : Rule
  attempts : List (Text × Record)

def minute : Int := 60 * 1000000000

def loginLimitMaxFailures : Nat := 5
def loginLimitWindow : Int := 5 * minute
def loginLimitCooldown : Int := 15 * minute
def loginLimitMaxRecords : Nat := 10000

def newLoginLimiter (rule : Rule) : Limiter := ⟨rule, []⟩

def defaultRule : Rule := ⟨loginLimitMaxFailures, loginLimitWindow, loginLimitCooldown⟩

def defaultLoginLimiter : Limiter := newLoginLimiter defaultRule

def Record.isBlocked (r : Record) (now : Int) : Bool := r.blockedUntil.any (now < ·)

def pruneLoginFailures (failures : List Int) (cutoff : Int) : List Int := failures.dropWhile (· < cutoff)

def loginLimitKey (toLower : Text → Text) (ip username : Text) : Text :=
  Ports.trimSpace ip ++ Char.ofNat 0 :: toLower (Ports.trimSpace username)

namespace Limiter

def delete (l : Limiter) (key : Text) : Limiter := { l with attempts := l.attempts.filter (·.1 ≠ key) }

def put (l : Limiter) (key : Text) (r : Record) : Limiter :=
  { l with attempts := (key, r) :: l.attempts.filter (·.1 ≠ key) }

def recordFor (l : Limiter) (key : Text) : Record := (entryAt l.attempts key).getD fresh

def allow (l : Limiter) (key : Text) (now : Int) : Limiter × Option Int :=
  match entryAt l.attempts key with
  | none => (l, none)
  | some r =>
      if r.isBlocked now then (l, r.blockedUntil)
      else
        let failures := pruneLoginFailures r.failures (now - l.rule.window)
        (if failures = [] then l.delete key else l.put key ⟨failures, none⟩, none)

def reclaim (rule : Rule) (now : Int) (entry : Text × Record) : Option (Text × Record) :=
  if entry.2.isBlocked now then some entry
  else
    let failures := pruneLoginFailures entry.2.failures (now - rule.window)
    if failures = [] then none else some (entry.1, { entry.2 with failures := failures })

def reclaimed (l : Limiter) (now : Int) : Limiter := { l with attempts := l.attempts.filterMap (reclaim l.rule now) }

/-- The record that has to go at the ceiling; the map is walked in any order. -/
def overflow (l : Limiter) (now : Int) (walk : List (Text × Record) → List (Text × Record)) : Option Text :=
  if l.attempts.length < loginLimitMaxRecords then none
  else
    match (walk l.attempts).find? (fun entry => !entry.2.isBlocked now) with
    | some entry => some entry.1
    | none => (walk l.attempts).head?.map (·.1)

def evictForRoom (l : Limiter) (now : Int) (walk : List (Text × Record) → List (Text × Record)) : Limiter :=
  if l.attempts.length < loginLimitMaxRecords then l
  else
    match (l.reclaimed now).overflow now walk with
    | some key => (l.reclaimed now).delete key
    | none => l.reclaimed now

def withRoom (l : Limiter) (key : Text) (now : Int) (walk : List (Text × Record) → List (Text × Record)) : Limiter :=
  if (entryAt l.attempts key).isSome then l else l.evictForRoom now walk

def registerFailure (l : Limiter) (key : Text) (now : Int) (walk : List (Text × Record) → List (Text × Record)) :
    Limiter × Option Int :=
  let room := l.withRoom key now walk
  let record := l.recordFor key
  let failures := pruneLoginFailures record.failures (now - l.rule.window) ++ [now]
  if l.rule.maxFailures ≤ failures.length then
    (room.put key ⟨[], some (now + l.rule.cooldown)⟩, some (now + l.rule.cooldown))
  else (room.put key { record with failures := failures }, none)

def registerSuccess (l : Limiter) (key : Text) : Limiter := l.delete key

end Limiter

inductive Call where
  | allow (ip username : Text)
  | registerFailure (ip username : Text) (walk : List (Text × Record) → List (Text × Record))
  | registerSuccess (ip username : Text)

structure Event where
  time : Int
  call : Call

def Event.run (toLower : Text → Text) (l : Limiter) (e : Event) : Limiter × Option Int :=
  match e.call with
  | .allow ip username => l.allow (loginLimitKey toLower ip username) e.time
  | .registerFailure ip username walk => l.registerFailure (loginLimitKey toLower ip username) e.time walk
  | .registerSuccess ip username => (l.registerSuccess (loginLimitKey toLower ip username), none)

def answers (toLower : Text → Text) (l : Limiter) : List Event → List (Option Int)
  | [] => []
  | e :: rest => (e.run toLower l).2 :: answers toLower (e.run toLower l).1 rest

/-! ## The rule for one key, with every failure kept -/

def Record.refusal (r : Record) (now : Int) : Option Int := if r.isBlocked now then r.blockedUntil else none

def Rule.locks (rule : Rule) (r : Record) (now : Int) : Bool :=
  rule.maxFailures ≤ (r.failures.filter (now - rule.window ≤ ·)).length + 1

def Rule.fail (rule : Rule) (r : Record) (now : Int) : Record :=
  if rule.locks r now then ⟨[], some (now + rule.cooldown)⟩ else { r with failures := r.failures ++ [now] }

/-- A record that can still matter. -/
def Rule.Counts (rule : Rule) (now : Int) (r : Record) : Prop :=
  r.isBlocked now = true ∨ ∃ failure ∈ r.failures, now - rule.window ≤ failure

def Event.dropped (toLower : Text → Text) (l : Limiter) (e : Event) : Option Text :=
  match e.call with
  | .registerFailure ip username walk =>
      if (entryAt l.attempts (loginLimitKey toLower ip username)).isSome then none
      else if l.attempts.length < loginLimitMaxRecords then none
      else (l.reclaimed e.time).overflow e.time walk
  | _ => none

def forget (w : Text → Record) : Option Text → Text → Record
  | some key => Function.update w key fresh
  | none => w

def Event.watched (toLower : Text → Text) (l : Limiter) (w : Text → Record) (e : Event) : Text → Record :=
  match e.call with
  | .allow _ _ => w
  | .registerSuccess ip username => Function.update w (loginLimitKey toLower ip username) fresh
  | .registerFailure ip username _ =>
      Function.update (forget w (e.dropped toLower l)) (loginLimitKey toLower ip username)
        (l.rule.fail (w (loginLimitKey toLower ip username)) e.time)

def Event.ruling (toLower : Text → Text) (rule : Rule) (w : Text → Record) (e : Event) : Option Int :=
  match e.call with
  | .allow ip username => (w (loginLimitKey toLower ip username)).refusal e.time
  | .registerSuccess _ _ => none
  | .registerFailure ip username _ =>
      if rule.locks (w (loginLimitKey toLower ip username)) e.time then some (e.time + rule.cooldown) else none

def rulings (toLower : Text → Text) (l : Limiter) (w : Text → Record) : List Event → List (Option Int)
  | [] => []
  | e :: rest => e.ruling toLower l.rule w :: rulings toLower (e.run toLower l).1 (e.watched toLower l w) rest

def watches (toLower : Text → Text) (l : Limiter) (w : Text → Record) : List Event → Text → Record
  | [] => w
  | e :: rest => watches toLower (e.run toLower l).1 (e.watched toLower l w) rest

def Event.Fair (e : Event) : Prop :=
  ∀ ip username walk, e.call = .registerFailure ip username walk → ∀ l, (walk l).Perm l

/-! ## Records without what is too old -/

/-- A record that may have lost failures that are too old, and a block that is over. -/
structure Follows (rule : Rule) (now : Int) (r w : Record) : Prop where
  older : ∃ old, w.failures = old ++ r.failures ∧ ∀ failure ∈ old, failure < now - rule.window
  sorted : r.failures.Pairwise (· ≤ ·)
  past : ∀ failure ∈ r.failures, failure ≤ now
  blocked : r.blockedUntil = w.blockedUntil ∨ r.blockedUntil = none ∧ w.isBlocked now = false

section Follows

variable {rule : Rule} {now moment : Int} {r w : Record}

theorem follows_self (none_failed : w.failures = []) : Follows rule now w w := by
  refine ⟨⟨[], rfl, fun failure mem => absurd mem List.not_mem_nil⟩, ?_, ?_, .inl rfl⟩
  · rw [none_failed]
    exact .nil
  · rw [none_failed]
    exact fun failure mem => absurd mem List.not_mem_nil

theorem isBlocked_later (ended : r.isBlocked now = false) (le : now ≤ moment) : r.isBlocked moment = false := by
  unfold Record.isBlocked at ended ⊢
  cases until_ : r.blockedUntil with
  | none => rfl
  | some time =>
      rw [until_] at ended
      simp only [Option.any_some, decide_eq_false_iff_not] at ended ⊢
      omega

theorem Follows.later (follows : Follows rule now r w) (le : now ≤ moment) : Follows rule moment r w := by
  obtain ⟨old, same, aged⟩ := follows.older
  refine ⟨⟨old, same, fun failure mem => ?_⟩, follows.sorted, fun failure mem => ?_, ?_⟩
  · have before := aged failure mem
    omega
  · exact (follows.past failure mem).trans le
  · exact follows.blocked.imp_right fun both => ⟨both.1, isBlocked_later both.2 le⟩

theorem prune_sorted {failures : List Int} (sorted : failures.Pairwise (· ≤ ·)) (cutoff : Int) :
    pruneLoginFailures failures cutoff = failures.filter (cutoff ≤ ·) := by
  unfold pruneLoginFailures
  induction failures with
  | nil => rfl
  | cons failure rest ih =>
      rw [List.pairwise_cons] at sorted
      by_cases old : failure < cutoff
      · rw [List.dropWhile_cons_of_pos (by simpa using old), List.filter_cons_of_neg (by simpa using old)]
        exact ih sorted.2
      · have kept : ∀ other ∈ failure :: rest, decide (cutoff ≤ other) = true := by
          intro other mem
          rcases List.mem_cons.mp mem with rfl | mem
          · simpa using old
          · have le := sorted.1 other mem
            exact decide_eq_true (by omega)
        rw [List.dropWhile_cons_of_neg (by simpa using old), List.filter_eq_self.mpr kept]

theorem Follows.recent (follows : Follows rule now r w) :
    w.failures.filter (now - rule.window ≤ ·) = pruneLoginFailures r.failures (now - rule.window) := by
  obtain ⟨old, same, aged⟩ := follows.older
  have none_old : old.filter (now - rule.window ≤ ·) = [] := by
    rw [List.filter_eq_nil_iff]
    intro failure mem
    have before := aged failure mem
    exact fun late => absurd (of_decide_eq_true late) (not_le.mpr before)
  rw [prune_sorted follows.sorted, same, List.filter_append, none_old, List.nil_append]

theorem Follows.pruned (follows : Follows rule now r w) :
    Follows rule now { r with failures := pruneLoginFailures r.failures (now - rule.window) } w := by
  obtain ⟨old, same, aged⟩ := follows.older
  have kept : (pruneLoginFailures r.failures (now - rule.window)).Sublist r.failures := List.dropWhile_sublist _
  refine ⟨⟨old ++ r.failures.takeWhile (· < now - rule.window), ?_, fun failure mem => ?_⟩, follows.sorted.sublist kept,
    fun failure mem => follows.past failure (kept.subset mem), follows.blocked⟩
  · rw [List.append_assoc, pruneLoginFailures, List.takeWhile_append_dropWhile]
    exact same
  · rcases List.mem_append.mp mem with front | back
    · exact aged failure front
    · simpa using List.mem_takeWhile_imp back

theorem Follows.unblocked (follows : Follows rule now r w) (ended : r.isBlocked now = false) :
    Follows rule now { r with blockedUntil := none } w := by
  refine ⟨follows.older, follows.sorted, follows.past, .inr ⟨rfl, ?_⟩⟩
  rcases follows.blocked with same | gone
  · unfold Record.isBlocked at ended ⊢
    rw [← same]
    exact ended
  · exact gone.2

theorem Follows.refusal (follows : Follows rule now r w) : r.refusal now = w.refusal now := by
  rcases follows.blocked with same | ⟨open_, gone⟩
  · unfold Record.refusal Record.isBlocked
    rw [same]
  · unfold Record.refusal
    rw [gone, open_]
    simp

theorem Follows.locks (follows : Follows rule now r w) :
    rule.maxFailures ≤ (pruneLoginFailures r.failures (now - rule.window) ++ [now]).length ↔
      rule.locks w now = true := by
  unfold Rule.locks
  rw [follows.recent]
  simp

theorem Follows.counts (follows : Follows rule now r w)
    (live : r.isBlocked now = true ∨ pruneLoginFailures r.failures (now - rule.window) ≠ []) : rule.Counts now w := by
  rcases live with blocked | recent
  · refine .inl ?_
    rcases follows.blocked with same | gone
    · unfold Record.isBlocked at blocked ⊢
      rw [← same]
      exact blocked
    · unfold Record.isBlocked at blocked
      rw [gone.1] at blocked
      cases blocked
  · rw [← follows.recent] at recent
    obtain ⟨failure, mem⟩ := List.exists_mem_of_ne_nil _ recent
    obtain ⟨mem, late⟩ := List.mem_filter.mp mem
    exact .inr ⟨failure, mem, of_decide_eq_true late⟩

theorem Follows.failed (follows : Follows rule now r w) :
    Follows rule now { r with failures := pruneLoginFailures r.failures (now - rule.window) ++ [now] }
      { w with failures := w.failures ++ [now] } := by
  obtain ⟨old, same, aged⟩ := follows.pruned.older
  refine ⟨⟨old, ?_, aged⟩, ?_, fun failure mem => ?_, follows.blocked⟩
  · show w.failures ++ [now] = old ++ (pruneLoginFailures r.failures (now - rule.window) ++ [now])
    rw [same, List.append_assoc]
  · refine List.pairwise_append.mpr
      ⟨follows.pruned.sorted, List.pairwise_singleton _ _, fun failure mem other is_now => ?_⟩
    rw [List.mem_singleton.mp is_now]
    exact follows.pruned.past failure mem
  · rcases List.mem_append.mp mem with front | back
    · exact follows.pruned.past failure front
    · rw [List.mem_singleton.mp back]

end Follows

/-! ## Records in the map -/

section Map

variable {l : Limiter} {now : Int} {key other : Text}

theorem entryAt_filter (entries : List (Text × Record)) (key other : Text) :
    entryAt (entries.filter (·.1 ≠ key)) other = if other = key then none else entryAt entries other := by
  split
  · rename_i same
    rw [entryAt_none, same]
    intro mem
    obtain ⟨entry, entry_mem, own⟩ := List.mem_map.mp mem
    exact (of_decide_eq_true (List.mem_filter.mp entry_mem).2) own
  · rename_i unlike
    unfold entryAt
    rw [List.find?_filter]
    congr 2
    funext entry
    by_cases own : entry.1 = other
    · simp [own, unlike]
    · simp [own]

theorem recordFor_delete : (l.delete key).recordFor other = if other = key then fresh else l.recordFor other := by
  unfold Limiter.recordFor Limiter.delete
  rw [entryAt_filter]
  split <;> rfl

theorem recordFor_put {r : Record} : (l.put key r).recordFor other = if other = key then r else l.recordFor other := by
  unfold Limiter.recordFor Limiter.put
  rw [entryAt_cons, entryAt_filter]
  by_cases same : other = key
  · simp [same]
  · simp [same, Ne.symm same]

theorem reclaim_some {rule : Rule} {entry entry' : Text × Record} (kept : Limiter.reclaim rule now entry = some entry') :
    entry'.1 = entry.1 ∧
      (entry.2.isBlocked now = true ∨ pruneLoginFailures entry.2.failures (now - rule.window) ≠ []) := by
  unfold Limiter.reclaim at kept
  by_cases blocked : entry.2.isBlocked now = true
  · rw [if_pos blocked] at kept
    cases kept
    exact ⟨rfl, .inl blocked⟩
  · rw [if_neg blocked] at kept
    by_cases empty : pruneLoginFailures entry.2.failures (now - rule.window) = []
    · simp only [empty, if_true] at kept
      cases kept
    · simp only [empty, if_false] at kept
      cases kept
      exact ⟨rfl, .inr empty⟩

theorem keys_reclaimed (rule : Rule) (now : Int) (entries : List (Text × Record)) :
    ((entries.filterMap (Limiter.reclaim rule now)).map (·.1)).Sublist (entries.map (·.1)) := by
  induction entries with
  | nil => exact .slnil
  | cons entry rest ih =>
      rw [List.filterMap_cons, List.map_cons]
      cases kept : Limiter.reclaim rule now entry with
      | none => exact ih.cons _
      | some entry' =>
          rw [List.map_cons, (reclaim_some kept).1]
          exact ih.cons_cons _

structure Tracks (now : Int) (l : Limiter) (w : Text → Record) : Prop where
  distinct : (l.attempts.map (·.1)).Nodup
  small : l.attempts.length ≤ loginLimitMaxRecords
  follows : ∀ key, Follows l.rule now (l.recordFor key) (w key)

theorem distinct_delete (distinct : (l.attempts.map (·.1)).Nodup) : ((l.delete key).attempts.map (·.1)).Nodup :=
  distinct.sublist (List.filter_sublist.map _)

theorem distinct_put (distinct : (l.attempts.map (·.1)).Nodup) {r : Record} :
    ((l.put key r).attempts.map (·.1)).Nodup := by
  refine List.nodup_cons.mpr ⟨fun mem => ?_, distinct_delete distinct⟩
  obtain ⟨entry, entry_mem, own⟩ := List.mem_map.mp mem
  exact (of_decide_eq_true (List.mem_filter.mp entry_mem).2) own

theorem length_delete (known : (entryAt l.attempts key).isSome) :
    (l.delete key).attempts.length < l.attempts.length := by
  refine List.length_filter_lt_length_iff_exists.mpr ?_
  obtain ⟨r, found⟩ := Option.isSome_iff_exists.mp known
  obtain ⟨entry, found', -⟩ := Option.map_eq_some_iff.mp found
  exact ⟨entry, List.mem_of_find?_eq_some found', by simpa using List.find?_some found'⟩

theorem length_put {r : Record} (room : (entryAt l.attempts key).isSome ∨ l.attempts.length < loginLimitMaxRecords)
    (small : l.attempts.length ≤ loginLimitMaxRecords) : (l.put key r).attempts.length ≤ loginLimitMaxRecords := by
  show (l.delete key).attempts.length + 1 ≤ loginLimitMaxRecords
  rcases room with known | below
  · exact (length_delete known).trans_le small
  · have shorter : (l.delete key).attempts.length ≤ l.attempts.length := List.length_filter_le _ _
    omega

variable {w : Text → Record}

theorem Tracks.later {later : Int} (tracks : Tracks now l w) (le : now ≤ later) : Tracks later l w :=
  ⟨tracks.distinct, tracks.small, fun key => (tracks.follows key).later le⟩

theorem Tracks.deleted (tracks : Tracks now l w) (key : Text) :
    Tracks now (l.delete key) (Function.update w key fresh) := by
  refine ⟨distinct_delete tracks.distinct, (List.length_filter_le _ _).trans tracks.small, fun other => ?_⟩
  rw [recordFor_delete]
  by_cases same : other = key
  · subst same
    rw [if_pos rfl, Function.update_self]
    exact follows_self rfl
  · rw [if_neg same, Function.update_of_ne same]
    exact tracks.follows other

theorem Tracks.stored (tracks : Tracks now l w)
    (room : (entryAt l.attempts key).isSome ∨ l.attempts.length < loginLimitMaxRecords) {r r' : Record}
    (follows : Follows l.rule now r r') : Tracks now (l.put key r) (Function.update w key r') := by
  refine ⟨distinct_put tracks.distinct, length_put room tracks.small, fun other => ?_⟩
  rw [recordFor_put]
  by_cases same : other = key
  · subst same
    rw [if_pos rfl, Function.update_self]
    exact follows
  · rw [if_neg same, Function.update_of_ne same]
    exact tracks.follows other

theorem distinct_reclaimed (distinct : (l.attempts.map (·.1)).Nodup) : ((l.reclaimed now).attempts.map (·.1)).Nodup :=
  distinct.sublist (keys_reclaimed l.rule now l.attempts)

theorem entryAt_reclaimed (distinct : (l.attempts.map (·.1)).Nodup) :
    entryAt (l.reclaimed now).attempts key =
      (entryAt l.attempts key).bind fun r => (Limiter.reclaim l.rule now (key, r)).map (·.2) := by
  ext r'
  rw [entryAt_some (distinct_reclaimed distinct), Option.bind_eq_some_iff]
  unfold Limiter.reclaimed
  rw [List.mem_filterMap]
  constructor
  · rintro ⟨source, source_mem, kept⟩
    have own : key = source.1 := (reclaim_some kept).1
    subst own
    exact ⟨source.2, (entryAt_some distinct).mpr source_mem, Option.map_eq_some_iff.mpr ⟨_, kept, rfl⟩⟩
  · rintro ⟨r, found, kept⟩
    obtain ⟨entry, reclaimed, rfl⟩ := Option.map_eq_some_iff.mp kept
    have own : entry.1 = key := (reclaim_some reclaimed).1
    subst own
    exact ⟨_, (entryAt_some distinct).mp found, reclaimed⟩

theorem Follows.reclaimed {rule : Rule} {r r' : Record} (follows : Follows rule now r r') (key : Text) :
    Follows rule now (((Limiter.reclaim rule now (key, r)).map (·.2)).getD fresh) r' := by
  unfold Limiter.reclaim
  by_cases live : r.isBlocked now = true
  · rw [if_pos live]
    exact follows
  · rw [if_neg live]
    by_cases empty : pruneLoginFailures r.failures (now - rule.window) = []
    · have pruned := follows.pruned.unblocked (by simpa [Record.isBlocked] using live)
      rw [empty] at pruned
      simp only [empty, if_true]
      exact pruned
    · simp only [empty, if_false]
      exact follows.pruned

theorem Tracks.reclaimed (tracks : Tracks now l w) : Tracks now (l.reclaimed now) w := by
  refine ⟨distinct_reclaimed tracks.distinct, (List.length_filterMap_le _ _).trans tracks.small, fun key => ?_⟩
  have follows := tracks.follows key
  unfold Limiter.recordFor at follows ⊢
  rw [entryAt_reclaimed tracks.distinct]
  cases before : entryAt l.attempts key with
  | none =>
      rw [before] at follows
      exact follows
  | some r =>
      rw [before] at follows
      exact follows.reclaimed key

end Map

/-! ## Making room -/

section Room

variable {l : Limiter} {now : Int} {w : Text → Record} {walk : List (Text × Record) → List (Text × Record)}

theorem overflow_some {key : Text} (walks : ∀ l, (walk l).Perm l) (dropped : l.overflow now walk = some key) :
    loginLimitMaxRecords ≤ l.attempts.length ∧ (entryAt l.attempts key).isSome := by
  have known : ∀ entry ∈ walk l.attempts, (entryAt l.attempts entry.1).isSome := by
    intro entry mem
    have listed : entry.1 ∈ l.attempts.map (·.1) := List.mem_map_of_mem ((walks _).mem_iff.mp mem)
    rw [Option.isSome_iff_ne_none, Ne, entryAt_none, not_not]
    exact listed
  unfold Limiter.overflow at dropped
  split at dropped
  · cases dropped
  · rename_i full
    refine ⟨not_lt.mp full, ?_⟩
    split at dropped
    · rename_i entry found
      cases dropped
      exact known entry (List.mem_of_find?_eq_some found)
    · obtain ⟨entry, first, rfl⟩ := Option.map_eq_some_iff.mp dropped
      exact known entry (List.mem_of_head? first)

theorem overflow_none (walks : ∀ l, (walk l).Perm l) (dropped : l.overflow now walk = none) :
    l.attempts.length < loginLimitMaxRecords := by
  unfold Limiter.overflow at dropped
  split at dropped
  · assumption
  · rename_i full
    split at dropped
    · cases dropped
    · rw [Option.map_eq_none_iff, List.head?_eq_none_iff] at dropped
      have nothing := (walks l.attempts).length_eq
      rw [dropped, List.length_nil] at nothing
      exact absurd (nothing ▸ (by decide : 0 < loginLimitMaxRecords)) full

theorem Tracks.flooded (tracks : Tracks now l w) (walks : ∀ l, (walk l).Perm l) {key : Text}
    (dropped : (l.reclaimed now).overflow now walk = some key) :
    ∃ keys : List Text, keys.Nodup ∧ loginLimitMaxRecords ≤ keys.length ∧
      ∀ other ∈ keys, l.rule.Counts now (w other) := by
  refine ⟨(l.reclaimed now).attempts.map (·.1), tracks.reclaimed.distinct, ?_, fun other mem => ?_⟩
  · rw [List.length_map]
    exact (overflow_some walks dropped).1
  · obtain ⟨entry, entry_mem, own⟩ := List.mem_map.mp mem
    obtain ⟨source, source_mem, kept⟩ := List.mem_filterMap.mp entry_mem
    have follows := tracks.follows source.1
    unfold Limiter.recordFor at follows
    rw [(entryAt_some tracks.distinct).mpr (show (source.1, source.2) ∈ l.attempts from source_mem)] at follows
    obtain ⟨same, live⟩ := reclaim_some kept
    rw [← own, same]
    exact follows.counts live

theorem evictForRoom_rule : (l.evictForRoom now walk).rule = l.rule := by
  unfold Limiter.evictForRoom
  split
  · rfl
  · split <;> rfl

theorem Tracks.evicted (tracks : Tracks now l w) (walks : ∀ l, (walk l).Perm l) :
    Tracks now (l.evictForRoom now walk)
        (forget w (if l.attempts.length < loginLimitMaxRecords then none else (l.reclaimed now).overflow now walk)) ∧
      (l.evictForRoom now walk).attempts.length < loginLimitMaxRecords := by
  unfold Limiter.evictForRoom
  by_cases below : l.attempts.length < loginLimitMaxRecords
  · rw [if_pos below, if_pos below]
    exact ⟨tracks, below⟩
  · rw [if_neg below, if_neg below]
    cases dropped : (l.reclaimed now).overflow now walk with
    | none => exact ⟨tracks.reclaimed, overflow_none walks dropped⟩
    | some key =>
        refine ⟨tracks.reclaimed.deleted key, ?_⟩
        exact (length_delete (overflow_some walks dropped).2).trans_le tracks.reclaimed.small

end Room

/-! ## Runs -/

section Runs

variable {toLower : Text → Text}

theorem run_rule (l : Limiter) (e : Event) : (e.run toLower l).1.rule = l.rule := by
  unfold Event.run
  cases e.call with
  | allow ip username =>
      show (l.allow _ _).1.rule = l.rule
      unfold Limiter.allow
      split
      · rfl
      · split
        · rfl
        · dsimp only
          split <;> rfl
  | registerFailure ip username walk =>
      have room : (l.withRoom (loginLimitKey toLower ip username) e.time walk).rule = l.rule := by
        unfold Limiter.withRoom
        split
        · rfl
        · exact evictForRoom_rule
      show (l.registerFailure _ _ _).1.rule = l.rule
      unfold Limiter.registerFailure
      dsimp only
      split <;> exact room
  | registerSuccess ip username => rfl

theorem allow_tracks {l : Limiter} {now : Int} {w : Text → Record} (tracks : Tracks now l w) (key : Text) :
    (l.allow key now).2 = (w key).refusal now ∧ Tracks now (l.allow key now).1 w := by
  have follows := tracks.follows key
  have same := follows.refusal
  unfold Limiter.recordFor at follows same
  unfold Limiter.allow
  cases known : entryAt l.attempts key with
  | none =>
      rw [known] at same
      exact ⟨same, tracks⟩
  | some r =>
      rw [known] at follows same
      by_cases live : r.isBlocked now = true
      · have refused : (w key).refusal now = r.blockedUntil := by
          rw [← same]
          exact if_pos live
        simp only [live, if_true]
        exact ⟨refused.symm, tracks⟩
      · have open_ : (w key).refusal now = none := by
          rw [← same]
          exact if_neg live
        have next : Follows l.rule now ⟨pruneLoginFailures r.failures (now - l.rule.window), none⟩ (w key) :=
          follows.pruned.unblocked (by simpa [Record.isBlocked] using live)
        simp only [live, if_false, Bool.false_eq_true]
        refine ⟨open_.symm, ?_⟩
        split
        · rename_i empty
          rw [empty] at next
          refine ⟨distinct_delete tracks.distinct, (List.length_filter_le _ _).trans tracks.small, fun other => ?_⟩
          rw [recordFor_delete]
          split
          · rename_i own
            rw [own]
            exact next
          · exact tracks.follows other
        · have kept := tracks.stored (.inl (Option.isSome_iff_exists.mpr ⟨r, known⟩)) next
          rwa [Function.update_eq_self] at kept

theorem failure_tracks {l : Limiter} {now : Int} {w : Text → Record} (tracks : Tracks now l w) (key : Text)
    {walk : List (Text × Record) → List (Text × Record)} (walks : ∀ l, (walk l).Perm l) :
    (l.registerFailure key now walk).2 = (if l.rule.locks (w key) now then some (now + l.rule.cooldown) else none) ∧
      Tracks now (l.registerFailure key now walk).1 (Function.update
        (forget w (if (entryAt l.attempts key).isSome then none
          else if l.attempts.length < loginLimitMaxRecords then none else (l.reclaimed now).overflow now walk))
        key (l.rule.fail (w key) now)) := by
  have follows := tracks.follows key
  have room : Tracks now (l.withRoom key now walk) (forget w (if (entryAt l.attempts key).isSome then none
      else if l.attempts.length < loginLimitMaxRecords then none else (l.reclaimed now).overflow now walk)) ∧
      ((entryAt (l.withRoom key now walk).attempts key).isSome ∨
        (l.withRoom key now walk).attempts.length < loginLimitMaxRecords) ∧
      (l.withRoom key now walk).rule = l.rule := by
    unfold Limiter.withRoom
    by_cases known : (entryAt l.attempts key).isSome = true
    · rw [if_pos known, if_pos known]
      exact ⟨tracks, .inl known, rfl⟩
    · rw [if_neg known, if_neg known]
      obtain ⟨evicted, below⟩ := tracks.evicted walks
      exact ⟨evicted, .inr below, evictForRoom_rule⟩
  obtain ⟨tracks', fits, same_rule⟩ := room
  have locks := follows.locks
  unfold Limiter.registerFailure Rule.fail
  by_cases many : l.rule.maxFailures ≤
      (pruneLoginFailures (l.recordFor key).failures (now - l.rule.window) ++ [now]).length
  · rw [if_pos many, if_pos (locks.mp many), if_pos (locks.mp many)]
    refine ⟨rfl, tracks'.stored fits ?_⟩
    exact follows_self rfl
  · rw [if_neg many, if_neg (mt locks.mpr many), if_neg (mt locks.mpr many)]
    refine ⟨rfl, tracks'.stored fits ?_⟩
    rw [same_rule]
    exact follows.failed

theorem run_tracks {l : Limiter} {now : Int} {w : Text → Record} (tracks : Tracks now l w) {e : Event} (fair : e.Fair)
    (later : now ≤ e.time) :
    (e.run toLower l).2 = e.ruling toLower l.rule w ∧ Tracks e.time (e.run toLower l).1 (e.watched toLower l w) := by
  have tracks := tracks.later later
  unfold Event.run Event.ruling Event.watched Event.dropped
  cases call : e.call with
  | allow ip username => exact allow_tracks tracks _
  | registerFailure ip username walk => exact failure_tracks tracks _ (fair ip username walk call)
  | registerSuccess ip username => exact ⟨rfl, tracks.deleted _⟩

theorem dropped_flooded {l : Limiter} {now : Int} {w : Text → Record} (tracks : Tracks now l w) {e : Event}
    (fair : e.Fair) (later : now ≤ e.time) (given : e.dropped toLower l ≠ none) :
    ∃ keys : List Text, keys.Nodup ∧ loginLimitMaxRecords ≤ keys.length ∧
      ∀ key ∈ keys, l.rule.Counts e.time (w key) := by
  unfold Event.dropped at given
  cases call : e.call with
  | allow ip username => simp [call] at given
  | registerSuccess ip username => simp [call] at given
  | registerFailure ip username walk =>
      simp only [call] at given
      split at given
      · exact absurd rfl given
      · split at given
        · exact absurd rfl given
        · obtain ⟨key, dropped⟩ := Option.ne_none_iff_exists'.mp given
          exact (tracks.later later).flooded (fair ip username walk call) dropped

/-- The rule is what the limiter answers by, as long as no flood makes it give up a record. -/
structure Ruled (toLower : Text → Text) (l : Limiter) (w : Text → Record) (events : List Event) : Prop where
  answers : answers toLower l events = rulings toLower l w events
  small : ∀ done, done <+: events → (done.foldl (fun l e => (e.run toLower l).1) l).attempts.length ≤ loginLimitMaxRecords
  flooded : ∀ done e rest, events = done ++ e :: rest →
    e.dropped toLower (done.foldl (fun l e => (e.run toLower l).1) l) ≠ none →
      ∃ keys : List Text, keys.Nodup ∧ loginLimitMaxRecords ≤ keys.length ∧
        ∀ key ∈ keys, l.rule.Counts e.time (watches toLower l w done key)

theorem ruled (events : List Event) : ∀ {l : Limiter} {now : Int} {w : Text → Record}, Tracks now l w →
    (∀ e ∈ events, e.Fair) → (∀ e ∈ events, now ≤ e.time) → events.Pairwise (·.time ≤ ·.time) →
    Ruled toLower l w events := by
  induction events with
  | nil =>
      intro l now w tracks _ _ _
      refine ⟨rfl, fun done front => ?_, fun done e rest same => ?_⟩
      · rw [List.prefix_nil.mp front]
        exact tracks.small
      · cases done <;> cases same
  | cons e rest ih =>
      intro l now w tracks fair later ordered
      rw [List.pairwise_cons] at ordered
      obtain ⟨same, tracks'⟩ :=
        @run_tracks toLower l now w tracks e (fair e List.mem_cons_self) (later e List.mem_cons_self)
      have next := ih tracks' (fun other mem => fair other (List.mem_cons_of_mem e mem)) ordered.1 ordered.2
      refine ⟨?_, fun done front => ?_, fun done other after parts given => ?_⟩
      · rw [LoginLimiter.answers, rulings, same, next.answers]
      · cases done with
        | nil => exact tracks.small
        | cons first done =>
            obtain ⟨rfl, front'⟩ := List.cons_prefix_cons.mp front
            exact next.small done front'
      · cases done with
        | nil =>
            obtain ⟨rfl, rfl⟩ := List.cons.inj parts
            exact dropped_flooded tracks (fair e List.mem_cons_self) (later e List.mem_cons_self) given
        | cons first done =>
            obtain ⟨rfl, parts'⟩ := List.cons.inj parts
            have counted := next.flooded done other after parts' given
            rw [run_rule] at counted
            exact counted

/-- However calls for different keys interleave, the limiter answers as a rule that keeps every failure of a key until it
locks the key, a login succeeds or the record is given up for room. It never holds more records than its ceiling, and
gives one up only when that many still matter. -/
theorem limiter_ruled (rule : Rule) {events : List Event} (fair : ∀ e ∈ events, e.Fair)
    (ordered : events.Pairwise (·.time ≤ ·.time)) : Ruled toLower (newLoginLimiter rule) (fun _ => fresh) events := by
  cases events with
  | nil =>
      refine ⟨rfl, fun done front => ?_, fun done e rest same => ?_⟩
      · rw [List.prefix_nil.mp front]
        exact Nat.zero_le _
      · cases done <;> cases same
  | cons e rest =>
      have start : Tracks e.time (newLoginLimiter rule) fun _ => fresh :=
        ⟨.nil, Nat.zero_le _, fun _ => follows_self rfl⟩
      refine ruled (e :: rest) start fair (fun other mem => ?_) ordered
      rcases List.mem_cons.mp mem with rfl | mem
      · exact le_rfl
      · exact (List.pairwise_cons.mp ordered).1 other mem

end Runs

def lockedOut : List Event :=
  [⟨0, .registerFailure "10.0.0.1".toList "ann".toList id⟩, ⟨minute, .registerFailure "10.0.0.1".toList " Ann".toList id⟩,
    ⟨2 * minute, .registerFailure "10.0.0.1".toList "ANN".toList id⟩,
    ⟨3 * minute, .registerFailure "10.0.0.1".toList "ann ".toList id⟩,
    ⟨4 * minute, .registerFailure "10.0.0.1".toList "aNN".toList id⟩, ⟨10 * minute, .allow "10.0.0.1".toList "ANN".toList⟩,
    ⟨11 * minute, .allow "10.0.0.2".toList "ann".toList⟩, ⟨19 * minute, .allow "10.0.0.1".toList "ann".toList⟩]

theorem lockedOut_fair : ∀ e ∈ lockedOut, e.Fair := by
  intro e mem ip username walk call entries
  simp only [lockedOut, List.mem_cons, List.not_mem_nil, or_false] at mem
  rcases mem with rfl | rfl | rfl | rfl | rfl | rfl | rfl | rfl
  all_goals cases call
  all_goals exact .refl _

theorem limiter_ruled_lockedOut :
    answers (List.map Char.toLower) defaultLoginLimiter lockedOut =
        [none, none, none, none, some (19 * minute), some (19 * minute), none, none] ∧
      Ruled (List.map Char.toLower) defaultLoginLimiter (fun _ => fresh) lockedOut :=
  ⟨by decide +kernel, limiter_ruled defaultRule lockedOut_fair (by decide +kernel)⟩

end ThreeXNode.Service.LoginLimiter
