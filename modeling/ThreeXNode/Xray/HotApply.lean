import ThreeXNode.Xray.Applied

namespace ThreeXNode.Xray
open Library

variable {l : Loader} {old new : Config} {d : HotDiff}

/-- The clients an inbound gains live become the users a core makes of them when it starts. -/
def Carried (l : Loader) (old new : Config) : Prop :=
  ∀ o ∈ old.inbounds, ∀ n ∈ new.inbounds, SameButClients o n → ∀ client ∈ clientsOf n, client ∉ clientsOf o →
    apiUser (fun _ => none) n.protocol client.2 = .ok (some (l.user n.protocol client.2))

theorem apiUser_diffable {protocol : String} (diffable : protocol ∈ userDiffableProtocols) {float : NumLit → Option Int}
    {client : Fields} {user : Option User} (h : apiUser float protocol client = .ok user) : user.isSome = true := by
  simp only [apiUser, Except.bind_eq_ok, Except.pure_eq_ok] at h
  obtain ⟨email, _, account, built, rfl⟩ := h
  simp only [userDiffableProtocols, List.mem_cons, List.not_mem_nil, or_false] at diffable
  rcases diffable with rfl | rfl | rfl
  all_goals simp only [buildUserAccount, Except.bind_eq_ok, Except.pure_eq_ok] at built
  · obtain ⟨_, _, _, _, rfl⟩ := built
    rfl
  · obtain ⟨_, _, rfl⟩ := built
    rfl
  · obtain ⟨_, _, rfl⟩ := built
    rfl

theorem Described.newClient (described : Described old new d) (startable : Startable l old) (startable' : Startable l new)
    {op : UserOp} (mem : op ∈ d.addedUsers) : ∃ o n client, Kept old new d op.tag o n ∧ SameButClients o n ∧
      client ∈ clientsOf n ∧ client ∉ clientsOf o ∧ op = ⟨op.tag, n.protocol, client.1, some client.2⟩ := by
  obtain ⟨o, n, kept⟩ := described.addedUser mem
  obtain ⟨client, here, named⟩ := (kept.addedUsers op).mp ⟨mem, rfl⟩
  obtain ⟨after, fresh⟩ := (mem_gained_iff (startable.names kept.oldFound) (startable'.names kept.newFound)).mp here
  have only : SameButClients o n := kept.only.resolve_left fun same => fresh (same ▸ after)
  exact ⟨o, n, client, kept, only, after, fresh, named⟩

theorem Described.carried (described : Described old new d) (startable : Startable l old) (startable' : Startable l new) :
    Carried l old new ↔ ∀ op ∈ d.addedUsers, apiUser (fun _ => none) op.protocol (op.user.getD ∅) =
      .ok (some (l.user op.protocol (op.user.getD ∅))) := by
  constructor
  · intro carried op mem
    obtain ⟨o, n, client, kept, only, after, fresh, named⟩ := described.newClient startable startable' mem
    rw [named]
    exact carried o (findTag_mem kept.oldFound).1 n (findTag_mem kept.newFound).1 only client after fresh
  · intro sends o memO n memN only client after fresh
    have oldFound := findTag_of_mem described.oldTags memO
    have newFound : findTag new.inbounds o.tag = some n := only.tag ▸ findTag_of_mem described.newTags memN
    cases described.outcome o.tag with
    | kept o' n' kept =>
        obtain rfl : o = o' := Option.some.inj (oldFound.symm.trans kept.oldFound)
        obtain rfl : n = n' := Option.some.inj (newFound.symm.trans kept.newFound)
        have here := (mem_gained_iff (startable.names oldFound) (startable'.names newFound)).mpr ⟨after, fresh⟩
        exact sends _ ((kept.addedUsers _).mpr ⟨client, here, rfl⟩).1
    | rebuilt removed added quiet apart => exact absurd only (apart o n oldFound newFound)

theorem Described.users (described : Described old new d) (startable : Startable l old) (startable' : Startable l new)
    (sends : ∀ op ∈ d.addedUsers, Core.sent op = l.user op.protocol (op.user.getD ∅)) (k : String × String) :
    (entryAt (d.addedUsers.map fun op => (key l op, Core.sent op)) k).or (usersBetween l old d k) =
      (start l new).users k := by
  obtain ⟨tag, name⟩ := k
  cases described.outcome tag with
  | kept o n kept =>
      have protocol : o.protocol = n.protocol := congrArg Frame.protocol kept.frame
      rw [kept.addedEntry described startable startable', kept.usersBetween, usersOf, protocol]
      simp only [start, kept.newFound, Option.bind_some]
      refine entryAt_gained (startable.names kept.oldFound) (startable'.names kept.newFound) ?_ name
      intro client after fresh
      obtain rfl := (findTag_mem kept.newFound).2
      have here := (mem_gained_iff (startable.names kept.oldFound) (startable'.names kept.newFound)).mpr ⟨after, fresh⟩
      exact sends _ ((kept.addedUsers _).mpr ⟨client, here, rfl⟩).1
  | rebuilt removed added quiet apart =>
      have nothing : entryAt (d.addedUsers.map fun op => (key l op, Core.sent op)) (tag, name) = none := by
        rw [entryAt_none, List.map_map, List.mem_map]
        rintro ⟨op, mem, same⟩
        exact quiet.2 op mem (congrArg Prod.fst same)
      rw [nothing, Option.none_or]
      simp only [usersBetween, described.addedAt added, start]
      cases newFound : findTag new.inbounds tag with
      | some n => rfl
      | none => cases oldFound : findTag old.inbounds tag <;> simp [removed, oldFound]

/-- A computed diff leads from a core of the old config to one of the new config, in whatever order the users of an
inbound are taken, if and only if the users it adds are those the core would make of their clients. -/
theorem hot_diff_sound (l : Loader) (old new : Config) (d e : HotDiff) (computed : computeHotDiff old new = .ok d)
    (shuffles : e.Shuffles d) (startable : Startable l old) (startable' : Startable l new) :
    (start l old).hotApply l e = .ok (start l new) ↔ Carried l old new := by
  have known := computeHotDiff_computed computed
  have described : Described old new e := known.inbounds.shuffled shuffles.removedInboundTags shuffles.addedInbounds
    shuffles.removedUsers shuffles.addedUsers
  have known : Computed old new e := ⟨described, by
    rw [shuffles.removedOutboundTags, shuffles.addedOutbounds]
    exact known.outbounds, known.sections, shuffles.routingConfig ▸ known.routing⟩
  have diffable {op : UserOp} (mem : op ∈ e.addedUsers) : op.protocol ∈ userDiffableProtocols := by
    obtain ⟨o, n, client, kept, only, after, fresh, named⟩ := described.newClient startable startable' mem
    have protocol : o.protocol = n.protocol := congrArg Frame.protocol only.frame
    rw [named]
    exact protocol ▸ only.diffable
  have free := fun op (mem : op ∈ e.addedUsers) => described.userAddable startable startable' mem
  rw [hotApply_between known startable startable', described.carried startable startable']
  simp only [Except.bind_eq_ok, Except.pure_eq_ok]
  constructor
  · rintro ⟨c, added, reached⟩ op mem
    have sends : ∀ op ∈ e.addedUsers, apiUser (fun _ => none) op.protocol (op.user.getD ∅) = .ok (some (Core.sent op)) := by
      intro op mem
      obtain ⟨s, t, one⟩ := foldlM_passes added op mem
      unfold Core.addUser at one
      unfold Core.sent
      cases api : apiUser (fun _ => none) op.protocol (op.user.getD ∅) with
      | error e => simp [api] at one
      | ok user =>
          cases user with
          | none => simpa using apiUser_diffable (diffable mem) api
          | some user => rfl
    rw [Core.addUsers (described.addedKeys startable startable') free sends] at added
    cases added
    rw [known.routing _ rfl] at reached
    have keys : ((e.addedUsers.map fun op => (key l op, Core.sent op)).map (·.1)).Nodup := by
      simpa [Function.comp_def] using described.addedKeys startable startable'
    have got := (entryAt_some keys).mpr (List.mem_map.mpr ⟨op, mem, rfl⟩)
    obtain ⟨o, n, client, kept, only, after, fresh, named⟩ := described.newClient startable startable' mem
    have want : (start l new).users (key l op) = some (l.user n.protocol client.2) := by
      rw [key, named]
      simp only [start, kept.newFound, Option.bind_some]
      exact (entryAt_some (startable' n (findTag_mem kept.newFound).1)).mpr (List.mem_map.mpr ⟨client, after, rfl⟩)
    have both := congrFun (congrArg Core.users reached) (key l op)
    simp only [got, Option.some_or, want, Option.some.injEq] at both
    rw [sends op mem, both, named]
    rfl
  · intro sends
    have sent : ∀ op ∈ e.addedUsers, Core.sent op = l.user op.protocol (op.user.getD ∅) := fun op mem => by
      simp [Core.sent, sends op mem]
    refine ⟨_, Core.addUsers (described.addedKeys startable startable') free fun op mem => sent op mem ▸ sends op mem, ?_⟩
    rw [known.routing _ rfl]
    exact congrArg (fun users => { start l new with users := users }) (funext (described.users startable startable' sent))

/-! ## An inbound that gains a client -/

namespace Example

def loader : Loader where
  fold := String.toLower
  user protocol client :=
    match apiUser NumLit.toInt? protocol client with
    | .ok (some user) => user
    | _ => ⟨client.text "email", 0, { type := .vless }⟩

def written (value : Json) : RawMessage := some ⟨"", value⟩

def client (email : String) (more : List (String × Json)) : Json :=
  .obj ([("email", Json.str email), ("id", Json.str ("id of " ++ email))] ++ more)

def config (clients : List Json) : Config where
  log := none
  routing := none
  dns := none
  inbounds := [{
    listen := none, port := 443, protocol := "vless",
    settings := written (.obj [("clients", .arr clients), ("decryption", .str "none")])
    streamSettings := none, tag := "in", sniffing := none }]
  outbounds := written (.arr [.obj [("tag", .str "direct"), ("protocol", .str "freedom")]])
  transport := none
  policy := none
  api := none
  stats := none
  reverse := none
  fakedns := none
  observatory := none
  burstObservatory := none
  metrics := none
  geodata := none
  env := none

def seed : List (String × Json) := [("testseed", .arr [.ofInt 900, .ofInt 500, .ofInt 900, .ofInt 256])]

def alice : Config := config [client "alice" []]

def bob : Config := config [client "alice" [], client "bob" []]

def bobSeeded : Config := config [client "alice" [], client "bob" seed]

end Example

open Example

theorem hot_diff_sound_bob : ∃ d, computeHotDiff alice bob = .ok d ∧
    (start loader alice).hotApply loader d = .ok (start loader bob) := by
  have runs : (computeHotDiff alice bob).isOk = true := by decide +kernel
  cases computed : computeHotDiff alice bob with
  | error _ => simp [computed, Except.isOk, Except.toBool] at runs
  | ok d =>
      refine ⟨d, rfl, (hot_diff_sound loader alice bob d d computed ⟨rfl, rfl, .rfl, .rfl, rfl, rfl, rfl⟩ ?_ ?_).mpr ?_⟩
      · unfold Startable
        decide +kernel
      · unfold Startable
        decide +kernel
      · have sends : ∀ n ∈ bob.inbounds, ∀ client ∈ clientsOf n, apiUser (fun _ => none) n.protocol client.2 =
            .ok (some (loader.user n.protocol client.2)) := by
          decide +kernel
        exact fun o _ n mem _ client here _ => sends n mem client here

/-- The numbers of a client reach the diff as text, and the user it adds has none of them. -/
theorem hot_diff_seed : ∃ d, computeHotDiff alice bobSeeded = .ok d ∧ Startable loader alice ∧
    Startable loader bobSeeded ∧ (start loader alice).hotApply loader d ≠ .ok (start loader bobSeeded) := by
  have runs : (computeHotDiff alice bobSeeded).isOk = true := by decide +kernel
  have differs : (computeHotDiff alice bobSeeded).toOption.all (fun d =>
      ((start loader alice).hotApply loader d).toOption.all fun c =>
        c.users ("in", "bob") ≠ (start loader bobSeeded).users ("in", "bob")) = true := by
    decide +kernel
  cases computed : computeHotDiff alice bobSeeded with
  | error _ => simp [computed, Except.isOk, Except.toBool] at runs
  | ok d =>
      refine ⟨d, rfl, ?_, ?_, fun same => ?_⟩
      · unfold Startable
        decide +kernel
      · unfold Startable
        decide +kernel
      · simp [computed, same, Except.toOption] at differs

end ThreeXNode.Xray
