import ThreeXNode.Leaf.Sample
import ThreeXNode.Library.Maps

namespace ThreeXNode.Leaf
open Library

structure Account where
  id : String
  flow : String
  deriving DecidableEq

abbrev Users := Std.ExtTreeMap String Account

structure LiveInbound where
  tag : String
  listen : String
  port : Int
  stream : Fields
  users : Users
  deriving DecidableEq

abbrev Live := List LiveInbound

namespace State

/-- Vision rides raw TCP only. -/
def account (ib : Inbound) (c : Client) : Account where
  id := c.text "id"
  flow := if ib.disableFlow ∨ ib.streamSettings.text "network" = "xhttp" then "" else c.text "flow"

def serves (s : State) (now : Int) (c : Client) : Bool :=
  match s.traffic[c.text "email"]? with
  | none => false
  | some t => c.enabled "enable" && !s.exhausted t now

def users (s : State) (now : Int) (ib : Inbound) : Users :=
  ib.clientsOrNil.foldl
    (fun users c => if s.serves now c then users.insert (c.text "email") (account ib c) else users) ∅

def liveInbound (s : State) (now : Int) (ib : Inbound) : LiveInbound where
  tag := ib.tag
  listen := ib.listen
  port := ib.port
  stream := ib.streamSettings
  users := s.users now ib

def desired (s : State) (now : Int) : Live :=
  s.inbounds.filterMap fun ib => if ib.enable = false ∨ ib.spent now then none else some (s.liveInbound now ib)

end State

def Live.Has (live : Live) (tag email : String) : Prop := ∃ ib ∈ live, ib.tag = tag ∧ email ∈ ib.users

instance (live : Live) (tag email : String) : Decidable (live.Has tag email) := by
  unfold Live.Has
  infer_instance

/-! ## The Xray process and what the node remembers of it -/

structure Core where
  served : Option Live
  live : Live
  generation : Nat
  deriving DecidableEq

/-- How one start of the process goes: up and answering, no process at all, or one that never answers. -/
inductive StartOutcome where
  | ready
  | refused
  | failed
  deriving DecidableEq

/-- How one call goes; one that is lost may have been carried out. -/
inductive RpcOutcome where
  | done
  | lost (applied : Bool)
  deriving DecidableEq

/-- What happens to one `Apply`: a process that has exited, the order in which the maps are walked,
the calls, and the two starts of a restart. -/
structure ApplyWeather where
  exited : Bool
  orders : List (List String × List String)
  rpcs : List RpcOutcome
  first : StartOutcome
  second : StartOutcome

def skeleton (live : Live) : Live := live.map fun ib => { ib with users := ∅ }

def arrange (order keys : List String) : List String :=
  (order.filter (· ∈ keys)).dedup ++ keys.filter (· ∉ order)

theorem mem_arrange {order keys : List String} {k : String} : k ∈ arrange order keys ↔ k ∈ keys := by
  by_cases ordered : k ∈ order <;> simp [arrange, ordered]

def alterUser (email : String) (a : Option Account) (ib : LiveInbound) : LiveInbound :=
  { ib with users := match a with
      | some a => ib.users.insert email a
      | none => ib.users.erase email }

def alterInbound (tag email : String) (a : Option Account) (served : Live) : Live :=
  served.map fun ib => if ib.tag = tag then alterUser email a ib else ib

/-- The loop variables of `hot`; after a failed call nothing more happens. -/
structure Hot where
  live : Live
  served : Live
  rpcs : List RpcOutcome
  failed : Bool

namespace Hot

def call (j : Nat) (tag email : String) (a : Option Account) (h : Hot) : Hot :=
  match h.rpcs with
  | .lost applied :: rest =>
      let served := if applied then alterInbound tag email a h.served else h.served
      { h with served, rpcs := rest, failed := true }
  | _ =>
      let live := h.live.modify j (alterUser email a)
      { h with live, served := alterInbound tag email a h.served, rpcs := h.rpcs.tail }

def usersAt (j : Nat) (h : Hot) : Users := ((h.live[j]?).map (·.users)).getD ∅

def tagAt (j : Nat) (h : Hot) : String := ((h.live[j]?).map (·.tag)).getD ""

def removeUser (want : LiveInbound) (j : Nat) (h : Hot) (email : String) : Hot :=
  if h.failed then h
  else if want.users[email]? = (h.usersAt j)[email]? then h
  else h.call j (h.tagAt j) email none

def addUser (want : LiveInbound) (j : Nat) (h : Hot) (email : String) : Hot :=
  if h.failed then h
  else if (h.usersAt j)[email]? = want.users[email]? then h
  else h.call j (h.tagAt j) email want.users[email]?

def inbound (orders : List (List String × List String)) (h : Hot) (entry : LiveInbound × Nat) : Hot :=
  let (want, j) := entry
  let (removals, additions) := (orders[j]?).getD ([], [])
  let h := (arrange removals (h.usersAt j).keys).foldl (removeUser want j) h
  (arrange additions want.users.keys).foldl (addUser want j) h

end Hot

def hot (w : ApplyWeather) (next : Live) (live served : Live) : Hot :=
  next.zipIdx.foldl (Hot.inbound w.orders) ⟨live, served, w.rpcs, false⟩

namespace Core

def stop (c : Core) : Core := { c with served := none }

def start (outcome : StartOutcome) (next : Live) (c : Core) : Core × Except String Unit :=
  match outcome with
  | .ready => ({ served := some next, live := next, generation := c.generation + 1 }, .ok ())
  | .refused => (c, .error "Xray API port unavailable")
  | .failed => ({ c with served := some next, generation := c.generation + 1 }, .error "Xray API did not become ready")

def restart (w : ApplyWeather) (next : Live) (c : Core) : Core × Except String Unit :=
  let old := c.live
  match c.stop.start w.first next with
  | (c, .ok _) => (c, .ok ())
  | (c, .error _) => match c.stop.start w.second old with
      | (c, .ok _) => (c, .error "invalid replacement; previous core restored")
      | (c, .error _) => (c.stop, .error "start and rollback failed")

def apply (w : ApplyWeather) (next : Live) (c : Core) : Core × Except String Unit :=
  match if w.exited then none else c.served with
  | none => c.stop.restart w next
  | some served =>
      if skeleton c.live ≠ skeleton next then c.restart w next
      else
        let h := hot w next c.live served
        let altered := { c with live := h.live, served := some h.served }
        if h.failed then
          -- A call that timed out may have been carried out, so the old configuration is started anew.
          match altered.restart w c.live with
          | (c, .ok _) => (c, .error "hot update failed")
          | (c, .error _) => (c.stop, .error "hot update failed; rollback failed, core stopped")
        else (altered, .ok ())

end Core

/-! ## A hot update that goes through -/

theorem alterUser_tag (email : String) (a : Option Account) (ib : LiveInbound) : (alterUser email a ib).tag = ib.tag := rfl

theorem alterInbound_eq_modify {live : Live} (distinct : (live.map (·.tag)).Nodup) {j : Nat} {ib : LiveInbound}
    (place : live[j]? = some ib) (email : String) (a : Option Account) :
    alterInbound ib.tag email a live = live.modify j (alterUser email a) := by
  apply List.ext_getElem?
  intro i
  simp only [alterInbound, List.getElem?_map, List.getElem?_modify]
  cases here : live[i]? with
  | none => rfl
  | some other =>
      by_cases same : j = i
      · subst same
        rw [place] at here
        cases here
        simp
      · have apart : other.tag ≠ ib.tag := by
          intro equal
          obtain ⟨bound, atJ⟩ := List.getElem?_eq_some_iff.mp place
          obtain ⟨bound', atI⟩ := List.getElem?_eq_some_iff.mp here
          have boundJ : j < (live.map (·.tag)).length := by simpa using bound
          have boundI : i < (live.map (·.tag)).length := by simpa using bound'
          have tags : (live.map (·.tag))[j] = (live.map (·.tag))[i] := by simp [atJ, atI, equal]
          exact same (distinct.getElem_inj_iff.mp tags)
        simp [same, apart]

namespace Hot

/-- A hot update that has not failed and has reached place `j`, where the users are `u`. -/
structure At (base : Live) (want : LiveInbound) (j : Nat) (u : Users) (h : Hot) : Prop where
  mirror : h.served = h.live
  distinct : (h.live.map (·.tag)).Nodup
  others : ∀ i, i ≠ j → h.live[i]? = base[i]?
  here : h.live[j]? = some { want with users := u }

variable {base : Live} {want : LiveInbound} {j : Nat} {u : Users} {h : Hot}

theorem At.usersAt (place : At base want j u h) : h.usersAt j = u := by
  simp [Hot.usersAt, place.here]

theorem At.tagAt (place : At base want j u h) : h.tagAt j = want.tag := by
  simp [Hot.tagAt, place.here]

theorem At.call (place : At base want j u h) {email : String} {a : Option Account}
    (through : (h.call j want.tag email a).failed = false) :
    At base want j (alterUser email a { want with users := u }).users (h.call j want.tag email a) := by
  have altered : alterInbound want.tag email a h.served = h.live.modify j (alterUser email a) := by
    rw [place.mirror]
    exact alterInbound_eq_modify place.distinct place.here email a
  unfold Hot.call at *
  split at through
  · cases through
  · refine ⟨altered, ?_, ?_, ?_⟩
    · have tags : (h.live.modify j (alterUser email a)).map (·.tag) = h.live.map (·.tag) := by
        apply List.ext_getElem?
        intro i
        simp only [List.getElem?_map, List.getElem?_modify]
        cases h.live[i]? with
        | none => rfl
        | some ib => by_cases same : j = i <;> simp [same, alterUser_tag]
      exact tags ▸ place.distinct
    · intro i differs
      rw [List.getElem?_modify, place.others i differs]
      simp [Ne.symm differs]
    · rw [List.getElem?_modify, place.here]
      simp [alterUser]

private theorem removeUser_failed (h : Hot) (email : String) (through : (removeUser want j h email).failed = false) :
    h.failed = false := by
  unfold removeUser at through
  split at through
  · exact through
  · rename_i going
    simpa using going

private theorem addUser_failed (h : Hot) (email : String) (through : (addUser want j h email).failed = false) :
    h.failed = false := by
  unfold addUser at through
  split at through
  · exact through
  · rename_i going
    simpa using going

theorem removals {order : List String} (place : h.failed = false → At base want j u h) :
    let h' := (arrange order u.keys).foldl (removeUser want j) h
    h'.failed = false → ∃ v : Users, At base want j v h' ∧
      ∀ (email : String) (a : Account), v[email]? = some a → want.users[email]? = some a := by
  intro h' through
  have kept := foldl_keeps (fun done h' => h'.failed = false → ∃ v : Users, At base want j v h' ∧
      (∀ (email : String) (a : Account), v[email]? = some a → u[email]? = some a) ∧
      ∀ email ∈ done, ∀ a : Account, v[email]? = some a → want.users[email]? = some a)
    (f := removeUser want j) (s := h) (arrange order u.keys)
    (fun through => ⟨u, place through, fun _ _ found => found, by simp⟩) ?_
  · obtain ⟨v, held, sub, done⟩ := kept through
    refine ⟨v, held, fun email a found => done email ?_ a found⟩
    rw [mem_arrange, Std.ExtTreeMap.mem_keys, mem_iff_some]
    exact ⟨a, sub email a found⟩
  · intro done email h _ held through
    have before := removeUser_failed h email through
    obtain ⟨v, place, sub, settled⟩ := held before
    unfold removeUser at through ⊢
    rw [if_neg (by simp [before])] at through ⊢
    rw [place.usersAt, place.tagAt] at *
    split at through
    · rename_i same
      rw [if_pos same]
      refine ⟨v, place, sub, fun other mem a found => ?_⟩
      rcases List.mem_append.mp mem with mem | mem
      · exact settled other mem a found
      · cases List.mem_singleton.mp mem
        exact same.trans found
    · rename_i differs
      rw [if_neg differs]
      refine ⟨_, place.call through, fun other a found => ?_, fun other mem a found => ?_⟩
      · simp only [alterUser, Std.ExtTreeMap.getElem?_erase] at found
        split at found
        · cases found
        · exact sub other a found
      · simp only [alterUser, Std.ExtTreeMap.getElem?_erase] at found
        split at found
        · cases found
        · rename_i apart
          rcases List.mem_append.mp mem with mem | mem
          · exact settled other mem a found
          · exact absurd (by simp [List.mem_singleton.mp mem]) apart

theorem additions {order : List String} (place : h.failed = false → ∃ v : Users, At base want j v h ∧
      ∀ (email : String) (a : Account), v[email]? = some a → want.users[email]? = some a) :
    let h' := (arrange order want.users.keys).foldl (addUser want j) h
    h'.failed = false → At base want j want.users h' := by
  intro h' through
  have kept := foldl_keeps (fun done h' => h'.failed = false → ∃ v : Users, At base want j v h' ∧
      (∀ (email : String) (a : Account), v[email]? = some a → want.users[email]? = some a) ∧
      ∀ email ∈ done, v[email]? = want.users[email]?)
    (f := addUser want j) (s := h) (arrange order want.users.keys) ?_ ?_
  · obtain ⟨v, held, sub, done⟩ := kept through
    have same : v = want.users := by
      apply Std.ExtTreeMap.ext_getElem?
      intro email
      by_cases present : email ∈ want.users
      · exact done email (mem_arrange.mpr (Std.ExtTreeMap.mem_keys.mpr present))
      · have absent : want.users[email]? = none := by
          by_contra some
          exact present (mem_iff_some.mpr (Option.ne_none_iff_exists'.mp some))
        rw [absent]
        by_contra some
        obtain ⟨a, found⟩ := Option.ne_none_iff_exists'.mp some
        rw [sub email a found] at absent
        cases absent
    exact same ▸ held
  · intro through
    obtain ⟨v, held, sub⟩ := place through
    exact ⟨v, held, sub, by simp⟩
  · intro done email h mem held through
    have before := addUser_failed h email through
    obtain ⟨v, place, sub, settled⟩ := held before
    unfold addUser at through ⊢
    rw [if_neg (by simp [before])] at through ⊢
    rw [place.usersAt, place.tagAt] at *
    split at through
    · rename_i same
      rw [if_pos same]
      refine ⟨v, place, sub, fun other mem => ?_⟩
      rcases List.mem_append.mp mem with mem | mem
      · exact settled other mem
      · rw [List.mem_singleton.mp mem]
        exact same
    · rename_i differs
      rw [if_neg differs]
      obtain ⟨a, wanted⟩ := mem_iff_some.mp (Std.ExtTreeMap.mem_keys.mp (mem_arrange.mp mem))
      rw [wanted] at through ⊢
      refine ⟨_, place.call through, fun other b found => ?_, fun other mem => ?_⟩
      · simp only [alterUser, Std.ExtTreeMap.getElem?_insert] at found
        split at found
        · rename_i same
          obtain rfl : email = other := by simpa using same
          rw [wanted, found]
        · exact sub other b found
      · simp only [alterUser, Std.ExtTreeMap.getElem?_insert]
        split
        · rename_i same
          obtain rfl : email = other := by simpa using same
          exact wanted.symm
        · rename_i apart
          rcases List.mem_append.mp mem with mem | mem
          · exact settled other mem
          · exact absurd (by simp [List.mem_singleton.mp mem]) apart

theorem removeUser_foldl_failed (h : Hot) (emails : List String)
    (through : (emails.foldl (removeUser want j) h).failed = false) : h.failed = false := by
  induction emails generalizing h with
  | nil => exact through
  | cons email emails ih => exact removeUser_failed h email (ih _ through)

theorem addUser_foldl_failed (h : Hot) (emails : List String)
    (through : (emails.foldl (addUser want j) h).failed = false) : h.failed = false := by
  induction emails generalizing h with
  | nil => exact through
  | cons email emails ih => exact addUser_failed h email (ih _ through)

theorem inbound_through {orders : List (List String × List String)}
    (through : (h.inbound orders (want, j)).failed = false) :
    h.failed = false ∧ (At base want j u h → At base want j want.users (h.inbound orders (want, j))) := by
  unfold Hot.inbound at *
  simp only at through ⊢
  have early := addUser_foldl_failed _ _ through
  refine ⟨removeUser_foldl_failed _ _ early, fun place => ?_⟩
  rw [place.usersAt] at through ⊢
  exact additions (fun early => removals (fun _ => place) early) through

end Hot

theorem skeleton_eq {live next : Live} (same : skeleton live = skeleton next) {j : Nat} {want : LiveInbound}
    (place : next[j]? = some want) : ∃ u : Users, live[j]? = some { want with users := u } := by
  have at_j := congrArg (·[j]?) same
  simp only [skeleton, List.getElem?_map, place, Option.map_some, Option.map_eq_some_iff] at at_j
  obtain ⟨ib, here, same⟩ := at_j
  refine ⟨ib.users, here.trans ?_⟩
  simp only [LiveInbound.mk.injEq, and_true] at same
  obtain ⟨tag, listen, port, stream⟩ := same
  cases ib
  simp_all

theorem hot_through {w : ApplyWeather} {next live : Live} (same : skeleton live = skeleton next)
    (distinct : (next.map (·.tag)).Nodup) (through : (hot w next live live).failed = false) :
    (hot w next live live).live = next ∧ (hot w next live live).served = next := by
  have tags : live.map (·.tag) = next.map (·.tag) := by
    have mapped := congrArg (List.map (·.tag)) same
    simpa [skeleton, Function.comp_def] using mapped
  have kept := foldl_keeps (fun done h => h.failed = false → h.served = h.live ∧ (h.live.map (·.tag)).Nodup ∧
      ∀ i, h.live[i]? = if i ∈ done.map Prod.snd then next[i]? else live[i]?)
    (f := Hot.inbound w.orders) (s := ⟨live, live, w.rpcs, false⟩) next.zipIdx
    (fun _ => ⟨rfl, tags ▸ distinct, by simp⟩) ?_
  · obtain ⟨mirror, _, each⟩ := kept through
    have all : (hot w next live live).live = next := by
      apply List.ext_getElem?
      intro i
      refine (each i).trans ?_
      split
      · rfl
      · rename_i outside
        have length : live.length = next.length := by simpa using congrArg List.length tags
        have beyond : next.length ≤ i := by
          by_contra inside
          refine outside (List.mem_map.mpr ⟨(next.get ⟨i, by omega⟩, i), ?_, rfl⟩)
          exact List.mem_zipIdx_iff_getElem?.mpr (by simp)
        rw [List.getElem?_eq_none (by omega), List.getElem?_eq_none beyond]
    exact ⟨all, mirror.trans all⟩
  · rintro done ⟨want, j⟩ h mem held through
    have place : next[j]? = some want := List.mem_zipIdx_iff_getElem?.mp mem
    obtain ⟨before, turn⟩ : h.failed = false ∧ (Hot.At h.live want j (h.usersAt j) h →
        Hot.At h.live want j want.users (h.inbound w.orders (want, j))) := Hot.inbound_through through
    obtain ⟨mirror, distinct, each⟩ := held before
    have here : h.live[j]? = some { want with users := h.usersAt j } := by
      have found : ∃ u : Users, h.live[j]? = some { want with users := u } := by
        rw [each j]
        split
        · exact ⟨want.users, place⟩
        · exact skeleton_eq same place
      obtain ⟨u, found⟩ := found
      simp [Hot.usersAt, found]
    have done_at := turn ⟨mirror, distinct, fun _ _ => rfl, here⟩
    refine ⟨done_at.mirror, done_at.distinct, fun i => ?_⟩
    by_cases same : i = j
    · subst same
      simpa [place] using done_at.here
    · have more : i ∈ (done ++ [(want, j)]).map Prod.snd ↔ i ∈ done.map Prod.snd := by simp [same]
      rw [done_at.others i same, each i]
      simp only [more]

/-! ## What an `Apply` can do -/

namespace Core

def Agrees (c : Core) : Prop := ∀ served, c.served = some served → served = c.live

theorem restart_ok {w : ApplyWeather} {next : Live} {c d : Core} (h : c.restart w next = (d, .ok ())) :
    d = { served := some next, live := next, generation := c.generation + 1 } := by
  unfold restart at h
  cases first : w.first with
  | ready => simpa [first, start, stop, eq_comm] using h
  | refused => cases second : w.second <;> simp [first, second, start, stop] at h
  | failed => cases second : w.second <;> simp [first, second, start, stop] at h

theorem restart_error {w : ApplyWeather} {next : Live} {c d : Core} {e : String}
    (h : c.restart w next = (d, .error e)) : c.generation ≤ d.generation ∧
      (d.served = none ∨ (d.served = some c.live ∧ d.live = c.live ∧ c.generation < d.generation ∧
        w.first ≠ .ready ∧ w.second = .ready)) := by
  unfold restart at h
  cases first : w.first with
  | ready => simp [first, start] at h
  | refused =>
      cases second : w.second <;> simp only [first, second, start, stop, Prod.mk.injEq] at h <;>
        obtain ⟨rfl, -⟩ := h <;> simp
  | failed =>
      cases second : w.second <;> simp only [first, second, start, stop, Prod.mk.injEq] at h <;>
        obtain ⟨rfl, -⟩ := h <;> simp <;> omega

theorem apply_ok {w : ApplyWeather} {next : Live} {c d : Core} (agrees : c.Agrees)
    (distinct : (next.map (·.tag)).Nodup) (h : c.apply w next = (d, .ok ())) :
    d.served = some next ∧ d.live = next ∧
      ((d.generation = c.generation ∧ c.served.isSome) ∨ d.generation = c.generation + 1) := by
  unfold apply at h
  split at h
  · cases restart_ok h
    exact ⟨rfl, rfl, .inr rfl⟩
  · rename_i served running
    have there : c.served = some served := by
      split at running
      · cases running
      · exact running
    obtain rfl := agrees served there
    split at h
    · cases restart_ok h
      exact ⟨rfl, rfl, .inr rfl⟩
    · rename_i same
      simp only at h
      split at h
      · split at h <;> cases h
      · rename_i through
        simp only [Prod.mk.injEq, and_true] at h
        obtain ⟨live, served⟩ := hot_through (not_not.mp same) distinct (by simpa using through)
        subst h
        exact ⟨by simp [served], live, .inl ⟨rfl, by simp [there]⟩⟩

theorem apply_error {w : ApplyWeather} {next : Live} {c d : Core} {e : String} (h : c.apply w next = (d, .error e)) :
    c.generation ≤ d.generation ∧ (d.served = none ∨ (d.served = some c.live ∧ d.live = c.live ∧
      c.generation < d.generation ∧ (c.served = none → w.first ≠ .ready ∧ w.second = .ready))) := by
  have refallen {c' : Core} {next : Live} (same : c'.live = c.live ∧ c'.generation = c.generation)
      (h : c'.restart w next = (d, .error e)) : c.generation ≤ d.generation ∧ (d.served = none ∨
        (d.served = some c.live ∧ d.live = c.live ∧ c.generation < d.generation ∧
          (c.served = none → w.first ≠ .ready ∧ w.second = .ready))) := by
    obtain ⟨grows, left⟩ := restart_error h
    rw [same.1, same.2] at *
    refine ⟨grows, left.imp_right fun ⟨served, live, more, fallback⟩ => ⟨served, live, more, fun _ => fallback⟩⟩
  unfold apply at h
  split at h
  · exact refallen ⟨rfl, rfl⟩ h
  · rename_i served running
    have there : c.served = some served := by
      split at running
      · cases running
      · exact running
    split at h
    · exact refallen ⟨rfl, rfl⟩ h
    · simp only at h
      split at h
      · split at h
        · rename_i mid _ again
          cases restart_ok again
          cases h
          exact ⟨by simp, .inr ⟨rfl, rfl, by simp, by simp [there]⟩⟩
        · rename_i mid _ again
          cases h
          exact ⟨(restart_error again).1, .inl rfl⟩
      · cases h

theorem Agrees.of_served {c : Core} {live : Live} (served : c.served = some live) (same : c.live = live) :
    c.Agrees := by
  intro other h
  rw [served] at h
  cases h
  exact same.symm

theorem Agrees.of_stopped {c : Core} (stopped : c.served = none) : c.Agrees := by
  intro other h
  rw [stopped] at h
  cases h

theorem Agrees.of_error {w : ApplyWeather} {next : Live} {c d : Core} {e : String}
    (h : c.apply w next = (d, .error e)) : d.Agrees := by
  obtain ⟨_, stopped | ⟨served, same, _⟩⟩ := apply_error h
  · exact .of_stopped stopped
  · exact .of_served served same

end Core

end ThreeXNode.Leaf
