import ThreeXNode.Library.Transition
import ThreeXNode.Panel.Edits
import ThreeXNode.Panel.NodeAdopt

namespace ThreeXNode.Panel
open Library

/-! ## What an edit leaves alone -/

def entriesOf (settings : Option Fields) (email : String) : List Json :=
  (clientEntries settings).filter fun entry => entryEmail entry = email

@[simp] theorem clientEntries_setClients (o : Fields) (clients : List Json) :
    clientEntries (some (setClients o clients)) = clients := by
  simp [clientEntries, settingsClients, setClients]

@[simp] theorem entriesOf_setClients (o : Fields) (clients : List Json) (email : String) :
    entriesOf (some (setClients o clients)) email = clients.filter fun entry => entryEmail entry = email := by
  simp [entriesOf]

theorem clientEntries_some {o : Fields} {clients : List Json} (h : settingsClients o = some clients) :
    clientEntries (some o) = clients := by
  simp [clientEntries, h]

theorem compactOrphans_eq (known : String → Bool) (clients : List Json) :
    compactOrphans known clients =
      clients.filter fun entry => entryEmail entry = "" || known (entryEmail entry) := by
  unfold compactOrphans
  dsimp only
  split
  · rename_i full
    -- As many known emails as emails means that every one of them is known.
    have sub : ((((clients.map entryEmail).filter (· ≠ "")).filter (known ·)).dedup).Sublist
        ((clients.map entryEmail).filter (· ≠ "")) :=
      (List.dedup_sublist _).trans List.filter_sublist
    have same := sub.eq_of_length full
    refine (List.filter_eq_self.mpr fun entry mem => ?_).symm
    by_cases blank : entryEmail entry = ""
    · simp [blank]
    · have named : entryEmail entry ∈ (clients.map entryEmail).filter (· ≠ "") := by
        simpa [blank] using ⟨entry, mem, rfl⟩
      rw [← same, List.mem_dedup, List.mem_filter] at named
      simp [named.2]
  · rfl

theorem filter_compactOrphans (known : String → Bool) (clients : List Json) {email : String} (named : email ≠ "") :
    (compactOrphans known clients).filter (fun entry => entryEmail entry = email) =
      if known email then clients.filter fun entry => entryEmail entry = email else [] := by
  rw [compactOrphans_eq, List.filter_filter]
  split
  · rename_i kept
    refine List.filter_congr fun entry _ => ?_
    by_cases same : entryEmail entry = email <;> simp [same, kept]
  · rename_i gone
    refine List.filter_eq_nil_iff.mpr fun entry _ => ?_
    by_cases same : entryEmail entry = email <;> simp [same, gone, named]

@[simp] theorem entryEmail_ofFields (o : Fields) : entryEmail (.ofFields o) = jsonString o["email"]? := by
  have same := Json.asFields_ofFields o
  simp only [Json.asFields, Json.ofFields, Option.some.injEq] at same
  simp [entryEmail, Json.ofFields, same]

def KeepsEmail (change : Fields → Option Fields) : Prop :=
  ∀ cm cm', change cm = some cm' → cm'["email"]? = cm["email"]?

theorem entryEmail_mapEntry {change : Fields → Option Fields} (keeps : KeepsEmail change) (entry : Json) :
    entryEmail (mapEntry change entry) = entryEmail entry := by
  cases entry with
  | obj members =>
      cases changed : change (.ofList members) with
      | none => simp [mapEntry, changed]
      | some cm =>
          have here : mapEntry change (.obj members) = .ofFields cm := by simp [mapEntry, changed]
          rw [here, entryEmail_ofFields, keeps _ _ changed]
          rfl
  | null | bool _ | num _ | str _ | arr _ => rfl

theorem email_insert (o : Fields) {key : String} (j : Json) (other : key ≠ "email") :
    (o.insert key j)["email"]? = o["email"]? := by
  simp [Std.ExtTreeMap.getElem?_insert, other]

theorem email_erase (o : Fields) {key : String} (other : key ≠ "email") : (o.erase key)["email"]? = o["email"]? := by
  simp [Std.ExtTreeMap.getElem?_erase, other]

theorem entryEmail_withMethod (ib : Inbound) (settings : Fields) (entries : List Json) :
    (withMethod ib settings entries).map entryEmail = entries.map entryEmail := by
  unfold withMethod
  split
  · rw [List.map_map]
    refine List.map_congr_left fun entry _ => ?_
    simp only [Function.comp_apply, applyShadowsocksClientMethod]
    split
    · refine entryEmail_mapEntry (fun cm cm' changed => ?_) entry
      split at changed
      · cases changed
        exact email_erase cm (by decide)
      · cases changed
    · split
      · rfl
      · refine entryEmail_mapEntry (fun cm cm' changed => ?_) entry
        split at changed
        · cases changed
          exact email_insert cm _ (by decide)
        · cases changed
  · rfl

theorem keepsEmail_setGroup (group : String) : KeepsEmail fun cm => some (setGroup group cm) := by
  intro cm cm' changed
  cases changed
  unfold setGroup
  split
  · exact email_erase cm (by decide)
  · exact email_insert cm _ (by decide)

theorem keepsEmail_enable (enable : Bool) (now : Int) :
    KeepsEmail fun cm => some ((cm.insert "enable" (.bool enable)).insert "updated_at" (.ofInt now)) := by
  intro cm cm' changed
  cases changed
  rw [email_insert _ _ (by decide), email_insert _ _ (by decide)]

theorem email_adjustEntry (entry : BulkAdjustEntry) (flow : String) (eligible : Bool) (now : Int) (cm : Fields) :
    (adjustEntry entry flow eligible now cm)["email"]? = cm["email"]? := by
  have optional : ∀ (p : Prop) [Decidable p] (o : Fields) (j : Json),
      (if p then o.insert "flow" j else o)["email"]? = o["email"]? := by
    intro p _ o j
    split
    · exact email_insert o _ (by decide)
    · rfl
  obtain ⟨newExpiry, newTotal⟩ := entry
  unfold adjustEntry
  dsimp only
  rw [email_insert _ _ (by decide), optional]
  cases newTotal with
  | none => cases newExpiry <;> simp [Std.ExtTreeMap.getElem?_insert]
  | some total =>
      rw [email_insert _ _ (by decide)]
      cases newExpiry <;> simp [Std.ExtTreeMap.getElem?_insert]

theorem keepsEmail_adjust (plan : List (String × BulkAdjustEntry)) (flow : String) (eligible : Bool) (now : Int) :
    KeepsEmail fun cm => (plan.find? (·.1 = jsonString cm["email"]?)).map fun planned =>
      adjustEntry planned.2 flow eligible now cm := by
  intro cm cm' changed
  obtain ⟨planned, _, rfl⟩ := Option.map_eq_some_iff.mp changed
  exact email_adjustEntry planned.2 flow eligible now cm

theorem entriesOf_changeEntries {select : Json → Bool} {change : Fields → Option Fields} {settings o : Fields}
    {email : String} (keeps : KeepsEmail change) (made : changeEntries select change settings = some o)
    (other : ∀ entry ∈ clientEntries (some settings), select entry = true → entryEmail entry ≠ email) :
    entriesOf (some o) email = entriesOf (some settings) email := by
  simp only [changeEntries, Option.bind_eq_bind, Option.bind_eq_some_iff] at made
  obtain ⟨clients, listed, made⟩ := made
  split at made
  · cases made
    have all := clientEntries_some listed
    rw [entriesOf_setClients, entriesOf, all, List.filter_map]
    rw [all] at other
    have emails : ∀ entry ∈ clients, entryEmail (if select entry then mapEntry change entry else entry) = entryEmail entry := by
      intro entry _
      split
      · exact entryEmail_mapEntry keeps entry
      · rfl
    rw [List.filter_congr fun entry mem => by rw [Function.comp_apply, emails entry mem]]
    refine (List.map_congr_left fun entry mem => ?_).trans (List.map_id _)
    obtain ⟨mem, same⟩ := List.mem_filter.mp mem
    have left : select entry = false := by
      by_contra taken
      exact other entry mem (by simpa using taken) (by simpa using same)
    simp [left]
  · cases made

theorem ofJson_email {entry : Json} {o : Fields} {c : Client} (read : entry.asFields = some o)
    (decoded : Client.ofJson entry = some c) : member o "email" Json.asText "" = some c.email := by
  unfold Client.ofJson at decoded
  rw [read] at decoded
  obtain ⟨_, here, decoded⟩ := Option.bind_eq_some_iff.mp decoded
  cases here
  iterate 14 obtain ⟨_, -, decoded⟩ := Option.bind_eq_some_iff.mp decoded
  obtain ⟨email, found, decoded⟩ := Option.bind_eq_some_iff.mp decoded
  iterate 15 obtain ⟨_, -, decoded⟩ := Option.bind_eq_some_iff.mp decoded
  cases decoded
  exact found

/-- A client is read with the email by which edits find its entry, where they find it by one. -/
theorem client_email {entry : Json} {c : Client} (decoded : Client.ofJson entry = some c) (named : entryEmail entry ≠ "") :
    c.email = entryEmail entry := by
  cases entry with
  | obj members =>
      have found := ofJson_email rfl decoded
      have shown : entryEmail (.obj members) = jsonString (Std.ExtTreeMap.ofList members : Fields)["email"]? := rfl
      rw [shown] at named ⊢
      cases here : (Std.ExtTreeMap.ofList members : Fields)["email"]? with
      | none =>
          rw [here] at named
          exact absurd rfl named
      | some j =>
          rw [member, Fields.field?_of_get here] at found
          rw [here] at named
          cases j with
          | str s => exact (Option.some.inj found).symm
          | null | bool _ | num _ | arr _ | obj _ => exact absurd rfl named
  | null | bool _ | num _ | str _ | arr _ => exact absurd rfl named

theorem clients_entries {o : Fields} {entries : List Json} (listed : settingsClients o = some entries) :
    getClients (some o) = entries.mapM Client.ofJson := by
  unfold settingsClients at listed
  split at listed
  · rename_i items here
    cases listed
    unfold getClients member
    rw [Option.bind_eq_bind, Option.bind_some, Fields.field?_of_get here]
    rfl
  · cases listed

theorem client_at {settings : Option Fields} {clients : List Client} (read : getClients settings = some clients) {i : Nat}
    {c : Client} {entry : Json} (client : clients[i]? = some c) (there : (clientEntries settings)[i]? = some entry) :
    Client.ofJson entry = some c := by
  obtain ⟨o, rfl, -⟩ := Option.bind_eq_some_iff.mp read
  cases listed : settingsClients o with
  | none => simp [clientEntries, listed] at there
  | some entries =>
      rw [clientEntries_some listed] at there
      rw [clients_entries listed] at read
      have each := mapM_forall₂ read
      obtain ⟨lt, rfl⟩ := List.getElem?_eq_some_iff.mp there
      obtain ⟨lt', rfl⟩ := List.getElem?_eq_some_iff.mp client
      exact each.get lt lt'

/-! ## Each edit keeps the clients it is not about -/

/-! ### The decoded settings -/

section Decoded

variable {float64 : NumLit → Option NumLit} {ib : Inbound} {settings : Fields}

theorem jsonString_reencode {j j' : Option Json} (same : j.map (Json.reencode float64) = j'.map some) :
    jsonString j' = jsonString j := by
  cases j with
  | none =>
      have none' : j' = none := Option.map_eq_none_iff.mp same.symm
      rw [none']
  | some j =>
      obtain ⟨j', rfl, read⟩ := Option.map_eq_some_iff.mp same.symm
      cases j with
      | num n =>
          obtain ⟨n', -, rfl⟩ := Option.map_eq_some_iff.mp read.symm
          rfl
      | arr items =>
          obtain ⟨items', -, rfl⟩ := Option.map_eq_some_iff.mp read.symm
          rfl
      | obj members =>
          obtain ⟨written, -, rfl⟩ := Option.map_eq_some_iff.mp read.symm
          rfl
      | null | bool _ | str _ =>
          cases read
          rfl

theorem entryEmail_reencode {entry entry' : Json} (read : entry.reencode float64 = some entry') :
    entryEmail entry' = entryEmail entry := by
  cases entry with
  | obj members =>
      obtain ⟨written, decoded, rfl⟩ := Option.map_eq_some_iff.mp read
      have same := Json.get_reencodeMembers decoded "email"
      rw [entryEmail_ofFields]
      exact jsonString_reencode same
  | num n =>
      obtain ⟨n', -, rfl⟩ := Option.map_eq_some_iff.mp read
      rfl
  | arr items =>
      obtain ⟨items', -, rfl⟩ := Option.map_eq_some_iff.mp read
      rfl
  | null | bool _ | str _ =>
      cases read
      rfl

theorem decodedEntries (decoded : decodedSettings float64 ib = some settings) :
    List.Forall₂ (fun entry entry' => entry.reencode float64 = some entry') (clientEntries ib.settings)
      (clientEntries (some settings)) := by
  obtain ⟨o, stored, decoded⟩ := Option.bind_eq_some_iff.mp decoded
  have same := Json.get_reencodeFields decoded "clients"
  rw [stored, clientEntries, clientEntries, Option.bind_some, Option.bind_some, settingsClients, settingsClients]
  cases here : o["clients"]? with
  | none =>
      rw [here] at same
      have there : settings["clients"]? = none := Option.map_eq_none_iff.mp same.symm
      rw [there]
      exact .nil
  | some j =>
      rw [here] at same
      obtain ⟨j', there, read⟩ := Option.map_eq_some_iff.mp same.symm
      rw [there]
      cases j with
      | arr items =>
          obtain ⟨items', listed, rfl⟩ := Option.map_eq_some_iff.mp read.symm
          exact Json.reencodeItems_forall₂ listed
      | num n =>
          obtain ⟨n', -, rfl⟩ := Option.map_eq_some_iff.mp read.symm
          exact .nil
      | obj members =>
          obtain ⟨written, -, rfl⟩ := Option.map_eq_some_iff.mp read.symm
          exact .nil
      | null | bool _ | str _ =>
          cases read
          exact .nil

theorem decodedEmails (decoded : decodedSettings float64 ib = some settings) :
    (clientEntries (some settings)).map entryEmail = (clientEntries ib.settings).map entryEmail := by
  have entries := decodedEntries decoded
  generalize clientEntries ib.settings = before at entries
  generalize clientEntries (some settings) = after at entries
  induction entries with
  | nil => rfl
  | cons read _ ih => rw [List.map_cons, List.map_cons, entryEmail_reencode read, ih]

theorem decodedEntry (decoded : decodedSettings float64 ib = some settings) {entry' : Json}
    (mem : entry' ∈ clientEntries (some settings)) :
    ∃ entry ∈ clientEntries ib.settings, entry.reencode float64 = some entry' := by
  have entries := decodedEntries decoded
  generalize clientEntries ib.settings = before at entries
  generalize clientEntries (some settings) = after at entries mem
  induction entries with
  | nil => exact absurd mem List.not_mem_nil
  | cons read _ ih =>
      rcases List.mem_cons.mp mem with rfl | mem
      · exact ⟨_, List.mem_cons_self, read⟩
      · obtain ⟨entry, here, read⟩ := ih mem
        exact ⟨entry, List.mem_cons_of_mem _ here, read⟩

theorem decodedEntriesOf (decoded : decodedSettings float64 ib = some settings) (email : String) :
    List.Forall₂ (fun entry entry' => entry.reencode float64 = some entry') (entriesOf ib.settings email)
      (entriesOf (some settings) email) := by
  have entries := decodedEntries decoded
  unfold entriesOf
  generalize clientEntries ib.settings = before at entries
  generalize clientEntries (some settings) = after at entries
  induction entries with
  | nil => exact .nil
  | cons read _ ih =>
      rw [List.filter_cons, List.filter_cons, entryEmail_reencode read]
      split
      · exact .cons read ih
      · exact ih

end Decoded

/-! ### One edit after the other -/

variable {known : String → Bool} {ib : Inbound} {settings o : Fields} {email : String}

theorem filter_none {entries : List Json} (other : email ∉ entries.map entryEmail) :
    (entries.filter fun entry => entryEmail entry = email) = [] := by
  refine List.filter_eq_nil_iff.mpr fun entry mem => ?_
  simp only [decide_eq_true_eq]
  rintro rfl
  exact other (List.mem_map_of_mem mem)

theorem addInboundClient_keeps {wire : List Json} (named : email ≠ "") (other : email ∉ wire.map entryEmail)
    (made : addInboundClient known wire ib settings = some o) :
    entriesOf (some o) email = if known email then entriesOf (some settings) email else [] := by
  simp only [addInboundClient, addedEntries, Option.bind_eq_bind, Option.bind_eq_some_iff] at made
  obtain ⟨added, ⟨existing, _, added_eq⟩, made⟩ := made
  cases made
  split at added_eq
  · cases added_eq
  · cases added_eq
    have gone : email ∉ (withMethod ib settings (keptEntries existing wire)).map entryEmail := by
      rw [entryEmail_withMethod]
      rintro here
      obtain ⟨entry, kept, rfl⟩ := List.mem_map.mp here
      exact other (List.mem_map_of_mem (List.mem_of_mem_filter kept))
    rw [entriesOf_setClients, List.filter_append, filter_none gone, List.append_nil, filter_compactOrphans known _ named]
    rfl

theorem filter_set {α : Type} {p : α → Bool} {items : List α} {index : Nat} {x : α}
    (was : ∀ y, items[index]? = some y → p y = false) (becomes : p x = false) :
    (items.set index x).filter p = items.filter p := by
  induction items generalizing index with
  | nil => rfl
  | cons y items ih =>
      cases index with
      | zero => simp [becomes, was y rfl]
      | succ index =>
          rw [List.set_cons_succ, List.filter_cons, List.filter_cons, ih fun z at' => was z at']

theorem updateInboundClient_keeps {oldEmail : String} {wire : Json} (named : email ≠ "")
    (emails : (clientEntries (some settings)).map entryEmail = (clientEntries ib.settings).map entryEmail)
    (old : equalFold email oldEmail = false) (new : email ≠ entryEmail wire)
    (made : updateInboundClient oldEmail wire ib settings = some o) :
    entriesOf (some o) email = entriesOf (some settings) email := by
  simp only [updateInboundClient, clientIndex, Option.bind_eq_bind, Option.bind_eq_some_iff] at made
  obtain ⟨index, ⟨clients, decoded, found⟩, made⟩ := made
  obtain ⟨lt, hit, _⟩ := List.findIdx?_eq_some_iff_getElem.mp found
  have method : ∀ entry : Json, entryEmail ((withMethod ib settings [entry]).headD entry) = entryEmail entry := by
    intro entry
    have same := entryEmail_withMethod ib settings [entry]
    cases shape : withMethod ib settings [entry] with
    | nil => rfl
    | cons head rest =>
        rw [shape] at same
        simpa using (List.cons.inj same).1
  have kept : ((clientEntries (some settings)).set index ((withMethod ib settings [wire]).headD wire)).filter
      (fun entry => entryEmail entry = email) = entriesOf (some settings) email := by
    refine filter_set (fun entry here => ?_) (decide_eq_false (by rw [method]; exact Ne.symm new))
    simp only [decide_eq_false_iff_not]
    rintro rfl
    obtain ⟨entry', there, same⟩ : ∃ entry', (clientEntries ib.settings)[index]? = some entry' ∧
        entryEmail entry' = entryEmail entry := by
      have both := congrArg (·[index]?) emails
      rw [List.getElem?_map, List.getElem?_map, here] at both
      exact Option.map_eq_some_iff.mp both.symm
    have own := client_email (client_at decoded (List.getElem?_eq_getElem lt) there) (same ▸ named)
    rw [own, same, old] at hit
    cases hit
  split at made
  swap
  · cases made
  cases made
  split
  · rw [entriesOf, clientEntries, Option.bind_some, settingsClients, Std.ExtTreeMap.getElem?_erase]
    simpa [setClients] using kept
  · rw [entriesOf_setClients]
    exact kept

theorem delInboundClientByEmail_keeps {removed : String} (named : email ≠ "") (other : email ≠ removed)
    (made : delInboundClientByEmail known removed settings = some o) :
    entriesOf (some o) email = if known email then entriesOf (some settings) email else [] := by
  simp only [delInboundClientByEmail, Option.bind_eq_bind, Option.bind_eq_some_iff] at made
  obtain ⟨clients, listed, made⟩ := made
  have all := clientEntries_some listed
  split at made
  · cases made
    rw [entriesOf_setClients, filter_compactOrphans known _ named, List.filter_filter, entriesOf, all]
    refine congrArg (ite _ · _) (List.filter_congr fun entry _ => ?_)
    by_cases same : entryEmail entry = email
    · -- An entry with a non-blank email is an object that names it.
      have left : isEntry entry = true ∧ emailMember entry = some email := by
        subst same
        unfold entryEmail jsonString at named ⊢
        unfold emailMember isEntry
        cases entry with
        | obj members => 
            dsimp only at named ⊢
            split at named <;> simp_all
        | null | bool _ | num _ | str _ | arr _ => exact absurd rfl named
      simp [same, left, other]
    · simp [same]
  · cases made

theorem filter_unwanted {wanted : List String} {clients : List Json} (other : email ∉ wanted) :
    ((clients.filter fun entry => !wantedEntry wanted entry).filter fun entry => entryEmail entry = email) =
      clients.filter fun entry => entryEmail entry = email := by
  rw [List.filter_filter]
  refine List.filter_congr fun entry _ => ?_
  by_cases same : entryEmail entry = email <;> simp [same, wantedEntry, other]

theorem delInboundClients_keeps {wanted : List String} (named : email ≠ "") (other : email ∉ wanted)
    (made : delInboundClients known wanted settings = some o) :
    entriesOf (some o) email = if known email then entriesOf (some settings) email else [] := by
  simp only [delInboundClients, Option.bind_eq_bind, Option.bind_eq_some_iff] at made
  obtain ⟨clients, listed, made⟩ := made
  have all := clientEntries_some listed
  split at made
  · cases made
    rw [entriesOf_setClients, filter_compactOrphans known _ named, filter_unwanted other, entriesOf, all]
  · cases made

theorem bulkDelInboundClients_keeps {wanted : List String} (named : email ≠ "") (other : email ∉ wanted)
    (made : bulkDelInboundClients known wanted settings = some o) :
    entriesOf (some o) email = if known email then entriesOf (some settings) email else [] := by
  cases made
  rw [entriesOf_setClients, filter_compactOrphans known _ named, filter_unwanted other]
  rfl

theorem wantedEntry_email {wanted : List String} {entry : Json} (h : wantedEntry wanted entry = true) :
    entryEmail entry ∈ wanted := by
  simp only [wantedEntry, Bool.and_eq_true, decide_eq_true_eq] at h
  exact h.2

theorem inGroup_reencode {float64 : NumLit → Option NumLit} {name : String} {entry entry' : Json}
    (read : entry.reencode float64 = some entry') (group : inGroup name entry' = true) : inGroup name entry = true := by
  cases entry with
  | obj members =>
      obtain ⟨written, decoded, rfl⟩ := Option.map_eq_some_iff.mp read
      have same := Json.get_reencodeMembers decoded "group"
      unfold inGroup Json.ofFields at group
      dsimp only at group
      rw [Json.ofList_toList] at group
      split at group
      · rename_i g here
        rw [here] at same
        obtain ⟨j, there, read⟩ := Option.map_eq_some_iff.mp same
        have text : j = .str g := Json.reencode_str read
        unfold inGroup
        dsimp only
        rw [there, text]
        exact group
      · cases group
  | num n =>
      obtain ⟨n', -, rfl⟩ := Option.map_eq_some_iff.mp read
      cases group
  | arr items =>
      obtain ⟨items', -, rfl⟩ := Option.map_eq_some_iff.mp read
      cases group
  | null | bool _ | str _ =>
      cases read
      cases group

/-- The entries an edit leaves to a client it is not about: those the row it read had, decoded, and none where it
compacts and found no record. -/
def leaves (known : String → Bool) (edit : Edit) (settings : Fields) (email : String) : List Json :=
  if edit.compacts && !known email then [] else entriesOf (some settings) email

theorem newSettings_keeps {float64 : NumLit → Option NumLit} {edit : Edit} (named : email ≠ "")
    (other : edit.touches ib email = false) (decoded : decodedSettings float64 ib = some settings)
    (made : edit.newSettings float64 known ib = some o) : entriesOf (some o) email = leaves known edit settings email := by
  rw [Edit.newSettings, decoded, Option.bind_some] at made
  have compacted : entriesOf (some o) email = (if known email then entriesOf (some settings) email else []) →
      edit.compacts = true → entriesOf (some o) email = leaves known edit settings email := by
    intro kept compacts
    rw [kept, leaves, compacts]
    cases known email <;> rfl
  have untouched : ∀ {p : Prop} [Decidable p], decide p = false → ¬p := fun h => of_decide_eq_false h
  cases edit with
  | addInboundClient wire => exact compacted (addInboundClient_keeps named (untouched other) made) rfl
  | updateInboundClient oldEmail wire =>
      simp only [Edit.touches, Bool.or_eq_false_iff, decide_eq_false_iff_not] at other
      exact updateInboundClient_keeps named (decodedEmails decoded) other.1 other.2 made
  | delInboundClientByEmail removed => exact compacted (delInboundClientByEmail_keeps named (untouched other) made) rfl
  | delInboundClients wanted => exact compacted (delInboundClients_keeps named (untouched other) made) rfl
  | bulkDelInboundClients wanted => exact compacted (bulkDelInboundClients_keeps named (untouched other) made) rfl
  | bulkAdjustInboundClients plan flow now =>
      refine entriesOf_changeEntries (keepsEmail_adjust plan flow _ now) made fun entry _ selected => ?_
      rintro rfl
      exact untouched other (wantedEntry_email selected)
  | bulkSetEnableInboundClients wanted enable now =>
      refine entriesOf_changeEntries (keepsEmail_enable enable now) made fun entry _ selected => ?_
      rintro rfl
      rw [Bool.and_eq_true] at selected
      exact untouched other (wantedEntry_email selected.1)
  | addToGroup emailSet group =>
      refine entriesOf_changeEntries (keepsEmail_setGroup group) made fun entry _ selected => ?_
      rintro rfl
      simp only [Bool.and_eq_true, decide_eq_true_eq] at selected
      exact untouched other selected.2
  | replaceGroupValue oldName newName =>
      refine entriesOf_changeEntries (keepsEmail_setGroup newName) made fun entry here selected => ?_
      rintro rfl
      obtain ⟨before, mem, read⟩ := decodedEntry decoded here
      have hit : (clientEntries ib.settings).any (fun e => inGroup oldName e && entryEmail e = entryEmail entry) = true :=
        List.any_eq_true.mpr ⟨before, mem, by simp [inGroup_reencode read selected, entryEmail_reencode read]⟩
      exact absurd hit (by simpa [Edit.touches] using other)

/-! ## What a save does to the rows -/

@[simp] theorem rowAt_saveInbound_self (db : Database) (ib : Inbound) : rowAt (saveInbound db ib) ib.id = some ib := by
  unfold rowAt saveInbound
  split
  · rename_i here
    obtain ⟨row, mem, same⟩ := List.any_eq_true.mp here
    rw [List.find?_map]
    cases found : db.inbounds.find? ((fun row => decide (row.id = ib.id)) ∘ fun row => if row.id = ib.id then ib else row) with
    | none =>
        have missed := List.find?_eq_none.mp found row mem
        simp [of_decide_eq_true same] at missed
    | some hit =>
        have met := List.find?_some found
        simp only [Function.comp_apply, decide_eq_true_eq] at met
        by_cases own : hit.id = ib.id
        · simp [own]
        · exact absurd (by simp [own] at met) own
  · rename_i gone
    have none : db.inbounds.find? (fun row => decide (row.id = ib.id)) = none :=
      List.find?_eq_none.mpr fun row mem hit => gone (List.any_eq_true.mpr ⟨row, mem, hit⟩)
    simp [List.find?_append, none]

theorem rowAt_saveInbound_other (db : Database) {ib : Inbound} {id : Nat} (other : id ≠ ib.id) :
    rowAt (saveInbound db ib) id = rowAt db id := by
  unfold rowAt saveInbound
  split
  · rw [List.find?_map]
    have same : ∀ row : Inbound, ((fun row => decide (row.id = id)) ∘ fun row => if row.id = ib.id then ib else row) row =
        decide (row.id = id) := by
      intro row
      by_cases own : row.id = ib.id <;> simp [own, Ne.symm other]
    rw [funext same]
    cases found : db.inbounds.find? (fun row => decide (row.id = id)) with
    | none => rfl
    | some hit =>
        have shown : rowAt db id = some hit := found
        have met : hit.id = id := rowAt_id shown
        have apart : hit.id ≠ ib.id := met ▸ other
        simp [apart]
  · simp [List.find?_append, Ne.symm other]

end ThreeXNode.Panel
