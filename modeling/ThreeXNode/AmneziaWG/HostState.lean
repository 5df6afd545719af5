import ThreeXNode.Library.Deltas
import ThreeXNode.AmneziaWG.Manager

namespace ThreeXNode.AmneziaWG
open Library

variable {Opt : Type} (env : Env Opt)

/-! ## What the host should hold -/

def values (aliases : Std.ExtTreeMap String V6Alias) : Finset V6Alias := (aliases.toList.map (·.2)).toFinset

def desiredOn (ifaces : Std.ExtTreeMap Nat Managed) : Finset V6Alias :=
  (ifaces.toList.flatMap fun e => (desiredV6Aliases env.net e.2.inst).toList.map (·.2)).toFinset

def wantedBy (cur : Option Managed) : Finset V6Alias := values (Manager.aliasesOf env cur)

/-- The listeners of each interface are the wanted ones but for those that did not open. -/
def Listens (m : Manager) : Prop :=
  ∀ (id : Nat) (cur : Managed), m.ifaces[id]? = some cur →
    cur.listeners = desiredPortForwardKeys env.net cur.inst \ cur.failed

structure Follows (m : Manager) : Prop where
  aliases : m.host = desiredOn env m.ifaces
  listeners : Listens env m

theorem mem_values {aliases : Std.ExtTreeMap String V6Alias} {a : V6Alias} :
    a ∈ values aliases ↔ ∃ email : String, aliases[email]? = some a := by
  simp only [values, List.mem_toFinset, List.mem_map, Prod.exists, exists_eq_right, Std.ExtTreeMap.mem_toList_iff_getElem?_eq_some]

theorem mem_desiredOn {ifaces : Std.ExtTreeMap Nat Managed} {a : V6Alias} :
    a ∈ desiredOn env ifaces ↔ ∃ id : Nat, a ∈ wantedBy env ifaces[id]? := by
  simp only [desiredOn, List.mem_toFinset, List.mem_flatMap, List.mem_map, Prod.exists, exists_eq_right,
    Std.ExtTreeMap.mem_toList_iff_getElem?_eq_some]
  constructor
  · rintro ⟨id, cur, here, email, found⟩
    exact ⟨id, by rw [here]; exact mem_values.mpr ⟨email, found⟩⟩
  · rintro ⟨id, wanted⟩
    obtain ⟨email, found⟩ := mem_values.mp wanted
    cases here : ifaces[id]? with
    | none => simp [here, Manager.aliasesOf] at found
    | some cur =>
        rw [here] at found
        exact ⟨id, cur, here, email, found⟩

theorem desiredOn_split (ifaces : Std.ExtTreeMap Nat Managed) (id : Nat) :
    desiredOn env ifaces = desiredOn env (ifaces.erase id) ∪ wantedBy env ifaces[id]? := by
  ext a
  simp only [Finset.mem_union, mem_desiredOn]
  constructor
  · rintro ⟨other, wanted⟩
    by_cases same : other = id
    · exact .inr (same ▸ wanted)
    · exact .inl ⟨other, by simpa [Std.ExtTreeMap.getElem?_erase, Ne.symm same] using wanted⟩
  · rintro (⟨other, wanted⟩ | wanted)
    · by_cases same : other = id
      · simp [same, wantedBy, Manager.aliasesOf, values] at wanted
      · exact ⟨other, by simpa [Std.ExtTreeMap.getElem?_erase, Ne.symm same] using wanted⟩
    · exact ⟨id, wanted⟩

theorem desiredOn_insert (ifaces : Std.ExtTreeMap Nat Managed) (id : Nat) (next : Managed) :
    desiredOn env (ifaces.insert id next) = desiredOn env (ifaces.erase id) ∪ wantedBy env (some next) := by
  rw [desiredOn_split env _ id, Std.ExtTreeMap.getElem?_insert_self]
  congr 2
  apply Std.ExtTreeMap.ext_getElem?
  intro k
  by_cases same : id = k <;> simp [Std.ExtTreeMap.getElem?_erase, Std.ExtTreeMap.getElem?_insert, same]

/-! ## One update of the host -/

/-- What the interface `id` gives up on its way to `next` nobody wants any more. -/
def Releases (m : Manager) (id : Nat) (next : Std.ExtTreeMap String V6Alias) : Prop :=
  ∀ a ∈ (diffV6Aliases (Manager.aliasesOf env m.ifaces[id]?) next).2, a ∉ desiredOn env (m.ifaces.erase id) ∪ values next

theorem patched_iff {m : Manager} (follows : m.host = desiredOn env m.ifaces) (id : Nat)
    (next : Std.ExtTreeMap String V6Alias) :
    applyV6Aliases m.host (diffV6Aliases (Manager.aliasesOf env m.ifaces[id]?) next) =
      desiredOn env (m.ifaces.erase id) ∪ values next ↔ Releases env m id next := by
  have gained : ∀ {old new : Std.ExtTreeMap String V6Alias} {a : V6Alias},
      a ∈ ((new.toList.filter fun e => decide (old[e.1]? ≠ some e.2)).map (·.2)).toFinset ↔
        ∃ email : String, new[email]? = some a ∧ old[email]? ≠ some a := by
    intro old new a
    simp [Std.ExtTreeMap.mem_toList_iff_getElem?_eq_some]
  have patched := @patched_eq_iff _ _ (desiredOn env (m.ifaces.erase id)) (wantedBy env m.ifaces[id]?) (values next)
    (diffV6Aliases (Manager.aliasesOf env m.ifaces[id]?) next).1.toFinset
    (diffV6Aliases (Manager.aliasesOf env m.ifaces[id]?) next).2.toFinset ?gains ?covers ?keeps
  · rw [applyV6Aliases, follows, desiredOn_split env m.ifaces id, patched]
    simp [Releases]
  case gains =>
    intro a mem
    obtain ⟨email, here, _⟩ := gained.mp mem
    exact mem_values.mpr ⟨email, here⟩
  case covers =>
    intro a mem
    obtain ⟨email, here⟩ := mem_values.mp mem
    rw [Finset.mem_union]
    by_cases same : (Manager.aliasesOf env m.ifaces[id]?)[email]? = some a
    · exact .inr (mem_values.mpr ⟨email, same⟩)
    · exact .inl (gained.mpr ⟨email, here, same⟩)
  case keeps =>
    intro a mem
    obtain ⟨email, here⟩ := mem_values.mp mem
    rw [Finset.mem_union]
    by_cases same : next[email]? = some a
    · exact .inr (mem_values.mpr ⟨email, same⟩)
    · exact .inl (gained.mpr ⟨email, here, same⟩)

/-! ## Single calls -/

def InPlace (m : Manager) (inst : Instance) (cur : Managed) : Prop :=
  m.ifaces[inst.id]? = some cur ∧ cur.structFP = addressFingerprint inst

def Succeeds (m : Manager) (luck : Luck) (d : Desired Opt) : Prop :=
  ∃ conf, env.buildUAPIConfig d.inst d.opts = some conf ∧
    ((∃ cur, InPlace m d.inst cur ∧ (conf = cur.uapiConfig ∨ luck.ipcSet = true)) ∨
      ((∀ cur, ¬InPlace m d.inst cur) ∧ luck.newDevice = true ∧ luck.configure = true))

/-- The aliases given up are wanted by nobody; where a device is closed and its successor fails, other interfaces want
all the aliases it leaves behind. -/
def EnsureFits (m : Manager) (luck : Luck) (d : Desired Opt) : Prop :=
  (Succeeds env m luck d → Releases env m d.inst.id (desiredV6Aliases env.net d.inst)) ∧
    (¬Succeeds env m luck d → (∀ cur, ¬InPlace m d.inst cur) →
      wantedBy env m.ifaces[d.inst.id]? ⊆ desiredOn env (m.ifaces.erase d.inst.id))

def RemoveFits (m : Manager) (id : Nat) : Prop := Releases env m id ∅

theorem inPlace_iff {m : Manager} {inst : Instance} {cur : Managed} :
    (m.ifaces[inst.id]?).filter (·.structFP = addressFingerprint inst) = some cur ↔ InPlace m inst cur := by
  simp [Option.filter_eq_some_iff, InPlace]

theorem ensure_cases (m : Manager) (luck : Luck) (d : Desired Opt) :
    (Succeeds env m luck d ∧ ∃ next : Managed, next.inst = d.inst ∧
        next.listeners = desiredPortForwardKeys env.net d.inst \ next.failed ∧
        (m.ensureLocked env luck d).1 = m.put env d.inst.id next) ∨
      (¬Succeeds env m luck d ∧ (∃ cur, InPlace m d.inst cur) ∧ (m.ensureLocked env luck d).1 = m) ∨
      (¬Succeeds env m luck d ∧ (∀ cur, ¬InPlace m d.inst cur) ∧
        (m.ensureLocked env luck d).1 = { m with ifaces := m.ifaces.erase d.inst.id }) := by
  have ports : ∀ cur : Managed, (cur.reconcilePorts env luck d.inst).listeners =
      desiredPortForwardKeys env.net d.inst \ (cur.reconcilePorts env luck d.inst).failed := by
    intro cur
    ext key
    simp only [Managed.reconcilePorts, Finset.mem_union, Finset.mem_inter, Finset.mem_filter, Finset.mem_sdiff]
    cases luck.binds key <;> by_cases open' : key ∈ cur.listeners <;> simp [open']
  unfold Manager.ensureLocked
  dsimp only
  cases found : (m.ifaces[d.inst.id]?).filter (·.structFP = addressFingerprint d.inst) with
  | some cur =>
      have here : InPlace m d.inst cur := inPlace_iff.mp found
      have only : ∀ cur', InPlace m d.inst cur' → cur' = cur := fun cur' there =>
        Option.some.inj (there.1.symm.trans here.1)
      cases conf : env.buildUAPIConfig d.inst d.opts with
      | none => exact .inr (.inl ⟨by simp [Succeeds, conf], ⟨cur, here⟩, rfl⟩)
      | some text =>
          dsimp only
          split
          · rename_i works
            exact .inl ⟨⟨text, conf, .inl ⟨cur, here, works⟩⟩, _, rfl, ports _, rfl⟩
          · rename_i fails
            refine .inr (.inl ⟨?_, ⟨cur, here⟩, rfl⟩)
            rintro ⟨text', conf', ⟨cur', there, works⟩ | ⟨none, _⟩⟩
            · cases conf.symm.trans conf'
              exact fails (only cur' there ▸ works)
            · exact none cur here
  | none =>
      have gone : ∀ cur, ¬InPlace m d.inst cur := by
        intro cur here
        rw [inPlace_iff.mpr here] at found
        cases found
      dsimp only
      cases conf : env.buildUAPIConfig d.inst d.opts with
      | none =>
          refine .inr (.inr ⟨by simp [Succeeds, conf], gone, ?_⟩)
          split <;> first | contradiction | rfl
      | some text =>
          split
          · rename_i built configured same
            cases same
            exact .inl ⟨⟨_, conf, .inr ⟨gone, built, configured⟩⟩, _, rfl, ports _, rfl⟩
          · rename_i fails
            refine .inr (.inr ⟨?_, gone, rfl⟩)
            rintro ⟨text', conf', ⟨cur', there, _⟩ | ⟨_, built, configured⟩⟩
            · exact gone cur' there
            · exact fails text built configured rfl

theorem put_listens {m : Manager} (listens : Listens env m) {id : Nat} {next : Managed}
    (ports : next.listeners = desiredPortForwardKeys env.net next.inst \ next.failed) : Listens env (m.put env id next) := by
  intro k cur here
  by_cases same : id = k
  · simp only [Manager.put, same, Std.ExtTreeMap.getElem?_insert_self, Option.some.injEq] at here
    exact here ▸ ports
  · exact listens k cur (by simpa [Manager.put, Std.ExtTreeMap.getElem?_insert, same] using here)

theorem erased_listens {m : Manager} (listens : Listens env m) (gone : Nat) (host : Finset V6Alias) :
    Listens env ⟨m.ifaces.erase gone, host⟩ := by
  intro id cur here
  by_cases same : gone = id
  · simp [same] at here
  · exact listens id cur (by simpa [Std.ExtTreeMap.getElem?_erase, same] using here)

theorem ensure_listens {m : Manager} (listens : Listens env m) (luck : Luck) (d : Desired Opt) :
    Listens env (m.ensureLocked env luck d).1 := by
  rcases ensure_cases env m luck d with ⟨_, next, inst, ports, step⟩ | ⟨_, _, step⟩ | ⟨_, _, step⟩ <;> rw [step]
  · exact put_listens env listens (inst ▸ ports)
  · exact listens
  · exact erased_listens env listens _ _

theorem remove_listens {m : Manager} (listens : Listens env m) (id : Nat) : Listens env (m.remove env id) := by
  unfold Manager.remove
  split
  · exact erased_listens env listens id _
  · exact listens

theorem put_follows {m : Manager} (follows : Follows env m) {id : Nat} {next : Managed}
    (ports : next.listeners = desiredPortForwardKeys env.net next.inst \ next.failed) :
    Follows env (m.put env id next) ↔ Releases env m id (desiredV6Aliases env.net next.inst) := by
  have host : (m.put env id next).host = desiredOn env (m.put env id next).ifaces ↔
      Releases env m id (desiredV6Aliases env.net next.inst) := by
    rw [← patched_iff env follows.aliases, Manager.put, desiredOn_insert]
    rfl
  exact ⟨fun after => host.mp after.aliases, fun fits => ⟨host.mpr fits, put_listens env follows.listeners ports⟩⟩

theorem ensure_follows {m : Manager} (follows : Follows env m) (luck : Luck) (d : Desired Opt) :
    Follows env (m.ensureLocked env luck d).1 ↔ EnsureFits env m luck d := by
  rcases ensure_cases env m luck d with ⟨works, next, inst, ports, step⟩ | ⟨fails, ⟨cur, here⟩, step⟩ | ⟨fails, gone, step⟩
  · rw [step, put_follows env follows (inst ▸ ports), inst]
    simp [EnsureFits, works]
  · rw [step]
    refine ⟨fun _ => ⟨fun works => absurd works fails, fun _ none => absurd here (none cur)⟩, fun _ => follows⟩
  · rw [step]
    have host : m.host = desiredOn env (m.ifaces.erase d.inst.id) ↔
        wantedBy env m.ifaces[d.inst.id]? ⊆ desiredOn env (m.ifaces.erase d.inst.id) := by
      rw [follows.aliases, desiredOn_split env m.ifaces d.inst.id]
      exact forgotten_eq_iff
    refine ⟨fun after => ⟨fun works => absurd works fails, fun _ _ => host.mp after.aliases⟩, fun fits => ?_⟩
    exact ⟨host.mpr (fits.2 fails gone), erased_listens env follows.listeners _ _⟩

theorem remove_follows {m : Manager} (follows : Follows env m) (id : Nat) :
    Follows env (m.remove env id) ↔ RemoveFits env m id := by
  unfold Manager.remove
  split
  · have host := patched_iff env follows.aliases id ∅
    have empty : values ∅ = ∅ := rfl
    rw [empty, Finset.union_empty] at host
    exact ⟨fun after => host.mp after.aliases, fun fits => ⟨host.mpr fits, erased_listens env follows.listeners id _⟩⟩
  · rename_i none
    refine ⟨fun _ a mem => ?_, fun _ => follows⟩
    simp [none, Manager.aliasesOf, diffV6Aliases] at mem

/-! ## Runs -/

def RemovesFit : List Nat → Manager → Prop
  | [], _ => True
  | id :: ids, m => RemoveFits env m id ∧ RemovesFit ids (m.remove env id)

def EnsuresFit : List (Desired Opt × Luck) → Manager → Prop
  | [], _ => True
  | d :: rest, m => EnsureFits env m d.2 d.1 ∧ EnsuresFit rest (m.ensureLocked env d.2 d.1).1

/-- Every update of the host that a call makes releases only aliases nobody wants, and no call forgets an interface whose
aliases nobody else wants. -/
def CallFits (m : Manager) : Call Opt → Prop
  | .ensure d luck => EnsureFits env m luck d
  | .reconcile desired stops => RemovesFit env stops m ∧ EnsuresFit env desired (m.removeAll env stops)
  | .remove id => RemoveFits env m id
  | .stopAll stops => RemovesFit env stops m

theorem removeAll_follows {ids : List Nat} {m : Manager} (follows : Follows env m) (fits : RemovesFit env ids m) :
    Follows env (m.removeAll env ids) := by
  induction ids generalizing m with
  | nil => exact follows
  | cons id ids ih => exact ih ((remove_follows env follows id).mpr fits.1) fits.2

theorem ensureAll_follows {desired : List (Desired Opt × Luck)} {m : Manager} (follows : Follows env m)
    (fits : EnsuresFit env desired m) : Follows env (m.ensureAll env desired) := by
  induction desired generalizing m with
  | nil => exact follows
  | cons d rest ih => exact ih ((ensure_follows env follows d.2 d.1).mpr fits.1) fits.2

theorem call_follows {m n : Manager} {call : Call Opt} (follows : Follows env m) (fits : CallFits env m call)
    (step : (calls env).next m call = some n) : Follows env n := by
  cases call with
  | ensure d luck =>
      cases step
      exact (ensure_follows env follows luck d).mpr fits
  | reconcile desired stops =>
      simp only [calls] at step
      split at step
      · cases step
        exact ensureAll_follows env (removeAll_follows env follows fits.1) fits.2
      · cases step
  | remove id =>
      cases step
      exact (remove_follows env follows id).mpr fits
  | stopAll stops =>
      simp only [calls] at step
      split at step
      · cases step
        exact removeAll_follows env follows fits
      · cases step

theorem call_listens {m n : Manager} {call : Call Opt} (listens : Listens env m)
    (step : (calls env).next m call = some n) : Listens env n := by
  have removed : ∀ (ids : List Nat) (m : Manager), Listens env m → Listens env (m.removeAll env ids) := by
    intro ids
    induction ids with
    | nil => exact fun _ listens => listens
    | cons id ids ih => exact fun m listens => ih _ (remove_listens env listens id)
  have ensured : ∀ (desired : List (Desired Opt × Luck)) (m : Manager), Listens env m →
      Listens env (m.ensureAll env desired) := by
    intro desired
    induction desired with
    | nil => exact fun _ listens => listens
    | cons d rest ih => exact fun m listens => ih _ (ensure_listens env listens d.2 d.1)
  cases call with
  | ensure d luck =>
      cases step
      exact ensure_listens env listens luck d
  | reconcile desired stops =>
      simp only [calls] at step
      split at step
      · cases step
        exact ensured desired _ (removed stops m listens)
      · cases step
  | remove id =>
      cases step
      exact remove_listens env listens id
  | stopAll stops =>
      simp only [calls] at step
      split at step
      · cases step
        exact removed stops m listens
      · cases step

theorem start_listens : Listens env start := fun id cur here => by simp [start] at here

/-- The listeners follow the instances in every run, and the aliases in every run whose calls fit; a single call that
does not fit leaves an alias behind or takes one that is wanted. -/
theorem host_follows :
    (∀ m, (calls env).Reaches start m → Listens env m) ∧
      (∀ m, (calls env).Path (CallFits env) start m → Follows env m) ∧
      (∀ m, Follows env m → ∀ luck d, Follows env (m.ensureLocked env luck d).1 ↔ EnsureFits env m luck d) ∧
      ∀ m, Follows env m → ∀ id, Follows env (m.remove env id) ↔ RemoveFits env m id := by
  refine ⟨fun m path => ?_, fun m path => ?_, fun m follows luck d => ensure_follows env follows luck d,
    fun m follows id => remove_follows env follows id⟩
  · exact path.invariant (Listens env) (start_listens env) fun _ _ _ listens _ step => call_listens env listens step
  · exact path.invariant (Follows env) ⟨rfl, start_listens env⟩ fun _ _ _ follows fits step =>
      call_follows env follows fits step

namespace Example

def net : Netip where
  parsePrefix s := if s = "fd00::2/128" then some ⟨"fd00::2", false, true⟩ else if s = "fd00::3/128" then
    some ⟨"fd00::3", false, true⟩ else none
  parseAddr s := if s = "fd00::2" ∨ s = "fd00::3" then some ⟨s, false, true⟩ else none

def plain : Env Unit := ⟨net, fun _ _ => some ""⟩

def peer (email address : String) : Peer := ⟨email, "", "", [address], "8080"⟩

def office (alice bob : String) : Desired Unit :=
  ⟨⟨1, 51820, "", ["10.8.1.1/24"], 1420, [peer "alice" alice, peer "bob" bob], "eth0", true, ""⟩, ()⟩

def lucky : Luck := ⟨true, true, true, fun _ => true⟩

end Example

open Example in
/-- The first start of an inbound. -/
theorem host_follows_office : Follows plain (start.ensureLocked plain lucky (office "fd00::2/128" "fd00::3/128")).1 := by
  have fits : CallFits plain start (.ensure (office "fd00::2/128" "fd00::3/128") lucky) := by
    refine ⟨fun _ a mem => ?_, fun _ _ a mem => ?_⟩
    · simp [start, Manager.aliasesOf, diffV6Aliases] at mem
    · obtain ⟨email, found⟩ := mem_values.mp mem
      simp [start, Manager.aliasesOf] at found
  exact (host_follows plain).2.1 _ (.tail .refl fits rfl)

open Example in
/-- Two clients exchange their addresses: both are removed after both were added. -/
theorem swapped_aliases_lost :
    ∃ m, (calls plain).Reaches start m ∧ m.host = ∅ ∧
      desiredOn plain m.ifaces = {⟨"fd00::2", "eth0"⟩, ⟨"fd00::3", "eth0"⟩} := by
  have runs : ((calls plain).run start [.ensure (office "fd00::2/128" "fd00::3/128") lucky,
      .ensure (office "fd00::3/128" "fd00::2/128") lucky]).isSome = true := by decide +kernel
  have lost (h) : (fun m : Manager => m.host = ∅ ∧
      desiredOn plain m.ifaces = {⟨"fd00::2", "eth0"⟩, ⟨"fd00::3", "eth0"⟩})
      (((calls plain).run start [.ensure (office "fd00::2/128" "fd00::3/128") lucky,
        .ensure (office "fd00::3/128" "fd00::2/128") lucky]).get h) := by
    revert h
    decide +kernel
  exact ⟨_, System.run_reaches (Option.some_get runs).symm, lost runs⟩

end ThreeXNode.AmneziaWG
