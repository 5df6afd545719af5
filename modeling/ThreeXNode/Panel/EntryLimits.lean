import ThreeXNode.Panel.RowEdits

namespace ThreeXNode.Panel
open Library

/-! # The limits of entries and records -/

structure Limits where
  expiry : Int
  total : Int
  deriving DecidableEq

def Client.limits (c : Client) : Limits := ⟨c.expiryTime, c.totalGB⟩

def ClientRecord.limits (rec : ClientRecord) : Limits := ⟨rec.expiryTime, rec.totalGB⟩

def ClientTraffic.limits (row : ClientTraffic) : Limits := ⟨row.expiryTime, row.total⟩

/-! ## Decoding -/

theorem member_kept {α : Type} {o o' : Fields} {keys : List String} (same : ∀ name, name ∉ keys → o'[name]? = o[name]?)
    {key : String} (apart : ∀ other ∈ keys, spells key other = false) (decode : Json → Option α) (zero : α) :
    member o' key decode zero = member o key decode zero := by
  unfold member
  rw [Fields.field?_congr fun name read => same name fun mem => by rw [apart name mem] at read; cases read]

theorem member_insert_apart {α : Type} (o : Fields) (j : Json) {key other : String} (apart : spells key other = false)
    (decode : Json → Option α) (zero : α) : member (o.insert other j) key decode zero = member o key decode zero := by
  unfold member
  rw [Fields.field?_insert_of_apart apart]

def editedKeys : List String := ["expiryTime", "totalGB", "flow", "enable", "updated_at"]

section Fields

variable {α β : Type} {f g : α → Option β} {x x' : Option α} {c c' : β}

theorem bind_kept (same : x' = x) (decoded : (x >>= f) = some c) (rest : ∀ a, f a = some c → g a = some c') :
    (x' >>= g) = some c' := by
  obtain ⟨a, found, decoded⟩ := Option.bind_eq_some_iff.mp decoded
  exact Option.bind_eq_some_iff.mpr ⟨a, same.trans found, rest a decoded⟩

theorem bind_edited {v : α} (now : x' = some v) (decoded : (x >>= f) = some c)
    (rest : ∀ a, f a = some c → g v = some c') : (x' >>= g) = some c' := by
  obtain ⟨a, -, decoded⟩ := Option.bind_eq_some_iff.mp decoded
  exact Option.bind_eq_some_iff.mpr ⟨v, now, rest a decoded⟩

end Fields

theorem ofJson_edited {entry : Json} {o o' : Fields} {c : Client} (read : entry.asFields = some o)
    (decoded : Client.ofJson entry = some c) (same : ∀ name, name ∉ editedKeys → o'[name]? = o[name]?)
    {expiry total updated : Int} {flow : String} {enable : Bool}
    (expiry' : member o' "expiryTime" Json.asInt64 0 = some expiry)
    (total' : member o' "totalGB" Json.asInt64 0 = some total) (flow' : member o' "flow" Json.asText "" = some flow)
    (enable' : member o' "enable" Json.asBool false = some enable)
    (updated' : member o' "updated_at" Json.asInt64 0 = some updated) :
    Client.ofJson (.ofFields o') = some { c with
      expiryTime := expiry, totalGB := total, flow := flow, enable := enable, updatedAt := updated } := by
  unfold Client.ofJson at decoded ⊢
  rw [read] at decoded
  rw [Json.asFields_ofFields]
  obtain ⟨_, here, decoded⟩ := Option.bind_eq_some_iff.mp decoded
  cases here
  refine Option.bind_eq_some_iff.mpr ⟨o', rfl, ?_⟩
  iterate 3 refine bind_kept (member_kept same (by decide) _ _) decoded fun _ decoded => ?_
  refine bind_edited flow' decoded fun _ decoded => ?_
  iterate 12 refine bind_kept (member_kept same (by decide) _ _) decoded fun _ decoded => ?_
  refine bind_edited total' decoded fun _ decoded => ?_
  refine bind_edited expiry' decoded fun _ decoded => ?_
  refine bind_edited enable' decoded fun _ decoded => ?_
  iterate 10 refine bind_kept (member_kept same (by decide) _ _) decoded fun _ decoded => ?_
  refine bind_edited updated' decoded fun _ decoded => ?_
  obtain rfl := Option.some.inj decoded
  rfl

theorem ofJson_members {entry : Json} {o : Fields} {c : Client} (read : entry.asFields = some o)
    (decoded : Client.ofJson entry = some c) :
    member o "expiryTime" Json.asInt64 0 = some c.expiryTime ∧ member o "totalGB" Json.asInt64 0 = some c.totalGB ∧
      member o "flow" Json.asText "" = some c.flow ∧ member o "enable" Json.asBool false = some c.enable ∧
      member o "updated_at" Json.asInt64 0 = some c.updatedAt := by
  unfold Client.ofJson at decoded
  rw [read] at decoded
  obtain ⟨_, here, decoded⟩ := Option.bind_eq_some_iff.mp decoded
  cases here
  iterate 3 obtain ⟨_, -, decoded⟩ := Option.bind_eq_some_iff.mp decoded
  obtain ⟨_, flow, decoded⟩ := Option.bind_eq_some_iff.mp decoded
  iterate 12 obtain ⟨_, -, decoded⟩ := Option.bind_eq_some_iff.mp decoded
  obtain ⟨_, total, decoded⟩ := Option.bind_eq_some_iff.mp decoded
  obtain ⟨_, expiry, decoded⟩ := Option.bind_eq_some_iff.mp decoded
  obtain ⟨_, enable, decoded⟩ := Option.bind_eq_some_iff.mp decoded
  iterate 10 obtain ⟨_, -, decoded⟩ := Option.bind_eq_some_iff.mp decoded
  obtain ⟨_, updated, decoded⟩ := Option.bind_eq_some_iff.mp decoded
  cases decoded
  exact ⟨expiry, total, flow, enable, updated⟩

/-! ## Edits of limits -/

def BulkAdjustEntry.on (entry : BulkAdjustEntry) (limits : Limits) : Limits :=
  ⟨entry.newExpiry.getD limits.expiry, entry.newTotal.getD limits.total⟩

def BulkAdjustEntry.Fits (entry : BulkAdjustEntry) : Prop :=
  (∀ expiry, entry.newExpiry = some expiry → InInt64 expiry) ∧ ∀ total, entry.newTotal = some total → InInt64 total

theorem member_insert_ofInt (o : Fields) (key : String) {n : Int} (fits : InInt64 n) :
    member (o.insert key (.ofInt n)) key Json.asInt64 0 = some n := by
  unfold member
  rw [Fields.field?_insert_self]
  exact Json.asInt64_ofInt fits.1 fits.2

theorem get_insert_of_ne (o : Fields) {key other : String} (j : Json) (ne : other ≠ key) :
    (o.insert key j)[other]? = o[other]? := by
  simp [Std.ExtTreeMap.getElem?_insert, ne.symm]

def setMember (o : Fields) (key : String) (value : Option Int) : Fields :=
  match value with
  | some n => o.insert key (.ofInt n)
  | none => o

theorem get_setMember {o : Fields} {key other : String} (value : Option Int) (ne : other ≠ key) :
    (setMember o key value)[other]? = o[other]? := by
  cases value with
  | none => rfl
  | some n => exact get_insert_of_ne o _ ne

theorem member_setMember_apart {α : Type} {o : Fields} {key other : String} (value : Option Int)
    (apart : spells key other = false) (decode : Json → Option α) (zero : α) :
    member (setMember o other value) key decode zero = member o key decode zero := by
  cases value with
  | none => rfl
  | some n => exact member_insert_apart o _ apart decode zero

theorem member_setMember {o : Fields} {key : String} {value : Option Int} {was : Int}
    (before : member o key Json.asInt64 0 = some was) (fits : ∀ n, value = some n → InInt64 n) :
    member (setMember o key value) key Json.asInt64 0 = some (value.getD was) := by
  cases value with
  | none => exact before
  | some n => exact member_insert_ofInt o key (fits n rfl)

theorem flow_set (o : Fields) (p : Prop) [Decidable p] (want : String) {was : String}
    (before : member o "flow" Json.asText "" = some was) :
    (∀ name, name ≠ "flow" → (if p then o.insert "flow" (.str want) else o)[name]? = o[name]?) ∧
      ∃ f, member (if p then o.insert "flow" (.str want) else o) "flow" Json.asText "" = some f := by
  split
  · exact ⟨fun name ne => get_insert_of_ne o _ ne, want, by simp [member]⟩
  · exact ⟨fun name _ => rfl, was, before⟩

theorem ofJson_adjustEntry {entry : Json} {cm : Fields} {c : Client} (read : entry.asFields = some cm)
    (decoded : Client.ofJson entry = some c) {planned : BulkAdjustEntry} (fits : planned.Fits) (flow : String)
    (eligible : Bool) {now : Int} (nowFits : InInt64 now) :
    ∃ c', Client.ofJson (.ofFields (adjustEntry planned flow eligible now cm)) = some c' ∧ c'.email = c.email ∧
      c'.limits = planned.on c.limits := by
  obtain ⟨expiry, total, flow', enable, -⟩ := ofJson_members read decoded
  let limited := setMember (setMember cm "expiryTime" planned.newExpiry) "totalGB" planned.newTotal
  have others : ∀ name, name ∉ ["expiryTime", "totalGB"] → limited[name]? = cm[name]? := by
    intro name other
    simp only [List.mem_cons, List.not_mem_nil, or_false, not_or] at other
    rw [get_setMember _ other.2, get_setMember _ other.1]
  have expiry' : member limited "expiryTime" Json.asInt64 0 = some (planned.newExpiry.getD c.expiryTime) := by
    rw [member_setMember_apart _ (by decide)]
    exact member_setMember expiry fits.1
  have total' : member limited "totalGB" Json.asInt64 0 = some (planned.newTotal.getD c.totalGB) := by
    refine member_setMember ?_ fits.2
    rw [member_setMember_apart _ (by decide)]
    exact total
  have shape : ∃ flowed : Fields, adjustEntry planned flow eligible now cm = flowed.insert "updated_at" (.ofInt now) ∧
      (∀ name, name ≠ "flow" → flowed[name]? = limited[name]?) ∧ ∃ f, member flowed "flow" Json.asText "" = some f := by
    obtain ⟨newExpiry, newTotal⟩ := planned
    have unfolded : adjustEntry ⟨newExpiry, newTotal⟩ flow eligible now cm =
        (if flow ≠ "" ∧ eligible ∧ jsonString limited["flow"]? ≠ (if flow = bulkFlowClear then "" else flow) then
          limited.insert "flow" (.str (if flow = bulkFlowClear then "" else flow)) else limited).insert "updated_at"
            (.ofInt now) := by
      unfold adjustEntry
      cases newExpiry <;> cases newTotal <;> rfl
    exact ⟨_, unfolded, flow_set limited _ _ ((member_kept others (by decide) _ _).trans flow')⟩
  obtain ⟨flowed, same, kept, f, hasFlow⟩ := shape
  have whole : ∀ key, key ∉ editedKeys → (flowed.insert "updated_at" (.ofInt now))[key]? = cm[key]? := by
    intro key other
    simp only [editedKeys, List.mem_cons, List.not_mem_nil, or_false, not_or] at other
    rw [get_insert_of_ne _ _ other.2.2.2.2, kept key other.2.2.1, others key (by simp [other])]
  have reads : ∀ {α : Type} (key : String) (decode : Json → Option α) (zero : α),
      (∀ other ∈ ["updated_at", "flow"], spells key other = false) →
      member (flowed.insert "updated_at" (.ofInt now)) key decode zero = member limited key decode zero := by
    intro α key decode zero apart
    refine member_kept (fun name other => ?_) apart decode zero
    simp only [List.mem_cons, List.not_mem_nil, or_false, not_or] at other
    exact (get_insert_of_ne _ _ other.1).trans (kept name other.2)
  rw [same]
  have flow'' := (member_insert_apart flowed (.ofInt now) (show spells "flow" "updated_at" = false by decide) _ _).trans hasFlow
  have enable' : member (flowed.insert "updated_at" (.ofInt now)) "enable" Json.asBool false = some c.enable := by
    rw [reads _ _ _ (by decide), member_kept others (by decide)]
    exact enable
  have decoded' := ofJson_edited read decoded whole ((reads _ _ _ (by decide)).trans expiry')
    ((reads _ _ _ (by decide)).trans total') flow'' enable' (member_insert_ofInt flowed _ nowFits)
  exact ⟨_, decoded', rfl, rfl⟩

theorem ofJson_enabled {entry : Json} {cm : Fields} {c : Client} (read : entry.asFields = some cm)
    (decoded : Client.ofJson entry = some c) (enable : Bool) {now : Int} (nowFits : InInt64 now) :
    ∃ c', Client.ofJson (.ofFields ((cm.insert "enable" (.bool enable)).insert "updated_at" (.ofInt now))) = some c' ∧
      c'.email = c.email ∧ c'.limits = c.limits := by
  obtain ⟨expiry, total, flow, -, -⟩ := ofJson_members read decoded
  let o' : Fields := (cm.insert "enable" (.bool enable)).insert "updated_at" (.ofInt now)
  have same : ∀ name, name ∉ ["updated_at", "enable"] → o'[name]? = cm[name]? := by
    intro name other
    simp only [List.mem_cons, List.not_mem_nil, or_false, not_or] at other
    exact (get_insert_of_ne _ _ other.1).trans (get_insert_of_ne _ _ other.2)
  have whole : ∀ name, name ∉ editedKeys → o'[name]? = cm[name]? := by
    intro name other
    simp only [editedKeys, List.mem_cons, List.not_mem_nil, or_false, not_or] at other
    exact same name (by simp [other])
  have enable' : member o' "enable" Json.asBool false = some enable := by
    rw [member_insert_apart _ _ (by decide)]
    simp [member]
  have decoded' := ofJson_edited read decoded whole ((member_kept same (by decide) _ _).trans expiry)
    ((member_kept same (by decide) _ _).trans total) ((member_kept same (by decide) _ _).trans flow) enable'
    (member_insert_ofInt _ _ nowFits)
  exact ⟨_, decoded', rfl, rfl⟩

/-! ## What the entries of an inbound show -/

abbrev ListedClient := String × Limits

def Client.shows (c : Client) : ListedClient := (c.email, c.limits)

/-- An entry spells the fields that edits look at or set as the panel does, and in no other way beside. -/
def plainEntry (entry : Json) : Bool := entry.asFields.all fun o => ("email" :: editedKeys).all o.plain

def plainSettings (settings : Option Fields) : Bool :=
  settings.all (Fields.plain · "clients") && (clientEntries settings).all plainEntry

/-- The clients the settings decode to, with their limits, where these fields are spelled so. -/
def listedIn (settings : Option Fields) : Option (List ListedClient) :=
  if plainSettings settings then (getClients settings).map (·.map Client.shows) else none

theorem listedIn_some {settings : Option Fields} {listed : List ListedClient} : listedIn settings = some listed ↔
    plainSettings settings = true ∧ ∃ clients, getClients settings = some clients ∧ clients.map Client.shows = listed := by
  unfold listedIn
  split
  · rename_i spelled
    rw [Option.map_eq_some_iff]
    exact (and_iff_right spelled).symm
  · rename_i spelled
    exact ⟨fun none' => absurd none' (by simp), fun both => absurd both.1 spelled⟩

theorem plainSettings_iff {o : Fields} {entries : List Json} (listed : settingsClients o = some entries) :
    plainSettings (some o) = true ↔ o.plain "clients" = true ∧ ∀ entry ∈ entries, plainEntry entry = true := by
  rw [plainSettings, Bool.and_eq_true, List.all_eq_true, clientEntries_some listed]
  rfl

theorem plain_email {entry : Json} {c : Client} (decoded : Client.ofJson entry = some c) (spelled : plainEntry entry = true) :
    c.email = entryEmail entry := by
  by_cases named : entryEmail entry = ""
  · obtain ⟨o, read, -⟩ := Option.bind_eq_some_iff.mp decoded
    have found := ofJson_email read decoded
    rw [plainEntry, read, Option.all_some, List.all_cons, Bool.and_eq_true] at spelled
    rw [member, Fields.field?_plain spelled.1] at found
    cases entry with
    | null =>
        cases read
        exact (Option.some.inj found).symm
    | obj members =>
        cases read
        have shown : jsonString (Std.ExtTreeMap.ofList members : Fields)["email"]? = "" := named
        rw [named]
        cases here : (Std.ExtTreeMap.ofList members : Fields)["email"]? with
        | none =>
            rw [here] at found
            exact (Option.some.inj found).symm
        | some j =>
            rw [here] at found shown
            cases j with
            | str s => exact (Option.some.inj found).symm.trans shown
            | null => exact (Option.some.inj found).symm
            | bool _ | num _ | arr _ | obj _ => cases found
    | bool _ | num _ | str _ | arr _ => cases read
  · exact client_email decoded named

theorem plain_clients {o : Fields} {clients : List Client} (own : o.plain "clients" = true)
    (decoded : getClients (some o) = some clients) : (clientEntries (some o)).mapM Client.ofJson = some clients := by
  unfold getClients member at decoded
  rw [Option.bind_eq_bind, Option.bind_some, Fields.field?_plain own] at decoded
  rw [clientEntries, Option.bind_some, settingsClients]
  cases here : o["clients"]? with
  | none =>
      rw [here] at decoded
      exact decoded
  | some j =>
      rw [here] at decoded
      cases j with
      | arr _ | null => exact decoded
      | bool _ | num _ | str _ | obj _ => cases decoded

theorem listed_entry {settings : Option Fields} {listed : List ListedClient} (shown : listedIn settings = some listed)
    {email : String} (mem : email ∈ listed.map (·.1)) : ∃ entry ∈ clientEntries settings, entryEmail entry = email := by
  obtain ⟨spelled, clients, decoded, rfl⟩ := listedIn_some.mp shown
  obtain ⟨o, rfl, -⟩ := Option.bind_eq_some_iff.mp decoded
  rw [plainSettings, Bool.and_eq_true, List.all_eq_true] at spelled
  have each := mapM_forall₂ (plain_clients spelled.1 decoded)
  rw [List.map_map] at mem
  obtain ⟨c, client, rfl⟩ := List.mem_map.mp mem
  obtain ⟨i, lt, rfl⟩ := List.getElem_of_mem client
  have lt' : i < (clientEntries (some o)).length := each.length_eq ▸ lt
  exact ⟨_, List.getElem_mem lt', (plain_email (each.get lt' lt) (spelled.2 _ (List.getElem_mem lt'))).symm⟩

def KeepsPlain (change : Fields → Option Fields) : Prop :=
  ∀ cm cm', change cm = some cm' → ∀ key ∈ "email" :: editedKeys, cm.plain key = true → cm'.plain key = true

theorem plain_set {o : Fields} {key other : String} (mem : key ∈ "email" :: editedKeys) (mem' : other ∈ editedKeys)
    (own : o.plain key = true) (j : Json) : Fields.plain (o.insert other j) key = true := by
  have apart : ∀ key ∈ "email" :: editedKeys, ∀ other ∈ editedKeys, spells key other = true → other = key := by decide
  exact Fields.plain_insert own (apart key mem other mem') j

theorem keepsPlain_enable (enable : Bool) (now : Int) :
    KeepsPlain fun cm => some ((cm.insert "enable" (.bool enable)).insert "updated_at" (.ofInt now)) := by
  intro cm cm' changed key mem own
  cases changed
  exact plain_set mem (by decide) (plain_set mem (by decide) own _) _

theorem plain_adjustEntry (entry : BulkAdjustEntry) (flow : String) (eligible : Bool) (now : Int) {cm : Fields} {key : String}
    (mem : key ∈ "email" :: editedKeys) (own : cm.plain key = true) :
    Fields.plain (adjustEntry entry flow eligible now cm) key = true := by
  have optional : ∀ (p : Prop) [Decidable p] (o : Fields) (j : Json), o.plain key = true →
      Fields.plain (if p then o.insert "flow" j else o) key = true := by
    intro p _ o j own
    split
    · exact plain_set mem (by decide) own j
    · exact own
  obtain ⟨newExpiry, newTotal⟩ := entry
  unfold adjustEntry
  refine plain_set mem (by decide) (optional _ _ _ ?_) _
  cases newTotal with
  | none =>
      cases newExpiry with
      | none => exact own
      | some expiry => exact plain_set mem (by decide) own _
  | some total =>
      refine plain_set mem (by decide) ?_ _
      cases newExpiry with
      | none => exact own
      | some expiry => exact plain_set mem (by decide) own _

theorem keepsPlain_adjust (plan : List (String × BulkAdjustEntry)) (flow : String) (eligible : Bool) (now : Int) :
    KeepsPlain fun cm => (plan.find? (·.1 = jsonString cm["email"]?)).map fun planned =>
      adjustEntry planned.2 flow eligible now cm := by
  intro cm cm' changed key mem own
  obtain ⟨planned, _, rfl⟩ := Option.map_eq_some_iff.mp changed
  exact plain_adjustEntry planned.2 flow eligible now mem own

theorem plainEntry_mapEntry {change : Fields → Option Fields} (keeps : KeepsPlain change) {entry : Json} (spelled : plainEntry entry = true) : plainEntry (mapEntry change entry) = true := by
  cases entry with
  | obj members =>
      show plainEntry (((change (.ofList members)).map .ofFields).getD (.obj members)) = true
      cases changed : change (.ofList members) with
      | none => exact spelled
      | some cm =>
          rw [Option.map_some, Option.getD_some, plainEntry, Json.asFields_ofFields, Option.all_some]
          rw [plainEntry, Json.asFields, Option.all_some] at spelled
          rw [List.all_eq_true] at spelled ⊢
          exact fun key mem => keeps _ _ changed key mem (spelled key mem)
  | null | bool _ | num _ | str _ | arr _ => exact spelled

theorem mapM_changed {change : Json → Json} {shift : ListedClient → ListedClient} {entries : List Json}
    (each : ∀ entry ∈ entries, ∀ c, Client.ofJson entry = some c →
      ∃ c', Client.ofJson (change entry) = some c' ∧ c'.shows = shift c.shows)
    {clients : List Client} (decoded : entries.mapM Client.ofJson = some clients) :
    ∃ clients', (entries.map change).mapM Client.ofJson = some clients' ∧
      clients'.map Client.shows = (clients.map Client.shows).map shift := by
  induction entries generalizing clients with
  | nil =>
      cases decoded
      exact ⟨[], rfl, rfl⟩
  | cons entry entries ih =>
      simp only [List.mapM_cons, Option.bind_eq_bind, Option.bind_eq_some_iff] at decoded
      obtain ⟨c, one, rest, more, decoded⟩ := decoded
      cases decoded
      obtain ⟨c', first, shifted⟩ := each entry List.mem_cons_self c one
      obtain ⟨rest', later, lists⟩ := ih (fun entry mem => each entry (List.mem_cons_of_mem _ mem)) more
      refine ⟨c' :: rest', ?_, ?_⟩
      · rw [List.map_cons, List.mapM_cons, first, later]
        rfl
      · rw [List.map_cons, List.map_cons, List.map_cons, shifted, lists]

theorem listedIn_changeEntries {select : Json → Bool} {change : Fields → Option Fields} {settings o : Fields}
    {shift : ListedClient → ListedClient} (made : changeEntries select change settings = some o) {listed : List ListedClient}
    (shown : listedIn (some settings) = some listed)
    (keeps : KeepsPlain change) (changed : ∀ entry c, select entry = true → Client.ofJson entry = some c → c.email = entryEmail entry →
      ∃ c', Client.ofJson (mapEntry change entry) = some c' ∧ c'.shows = shift c.shows)
    (left : ∀ entry c, select entry = false → Client.ofJson entry = some c → c.email = entryEmail entry →
      shift c.shows = c.shows) :
    listedIn (some o) = some (listed.map shift) := by
  simp only [changeEntries, Option.bind_eq_bind, Option.bind_eq_some_iff] at made
  obtain ⟨entries, here, made⟩ := made
  split at made
  · cases made
    obtain ⟨spelled, clients, decoded, rfl⟩ := listedIn_some.mp shown
    obtain ⟨own, spelled⟩ := (plainSettings_iff here).mp spelled
    rw [clients_entries here] at decoded
    have each : ∀ entry ∈ entries, ∀ c, Client.ofJson entry = some c →
        ∃ c', Client.ofJson (if select entry then mapEntry change entry else entry) = some c' ∧ c'.shows = shift c.shows := by
      intro entry mem c one
      have email := plain_email one (spelled entry mem)
      by_cases chosen : select entry = true
      · rw [if_pos chosen]
        exact changed entry c chosen one email
      · rw [if_neg chosen]
        exact ⟨c, one, (left entry c (Bool.not_eq_true _ ▸ chosen) one email).symm⟩
    obtain ⟨clients', decoded', lists⟩ := mapM_changed each decoded
    have here' : ∀ entries' : List Json, settingsClients (setClients settings entries') = some entries' := fun entries' => by
      simp [settingsClients, setClients]
    refine listedIn_some.mpr ⟨(plainSettings_iff (here' _)).mpr ⟨Fields.plain_insert own (fun _ => rfl) _, ?_⟩, clients', ?_, lists⟩
    · intro entry mem
      obtain ⟨before, there, rfl⟩ := List.mem_map.mp mem
      split
      · exact plainEntry_mapEntry keeps (spelled before there)
      · exact spelled before there
    · rw [clients_entries (here' _), decoded']
  · cases made

/-! ## Settings in order decode as before -/

section Ordered

variable {α : Type} {decode : Json → Option α}

def Orderless (decode : Json → Option α) : Prop := ∀ j j' : Json, j.reencode some = some j' → decode j' = decode j

theorem orderless_asText : Orderless Json.asText := by
  intro j j' read
  cases j with
  | arr items =>
      obtain ⟨items', -, rfl⟩ := Option.map_eq_some_iff.mp read
      rfl
  | obj members =>
      obtain ⟨written, -, rfl⟩ := Option.map_eq_some_iff.mp read
      rfl
  | null | bool _ | num _ | str _ => cases read; rfl

theorem orderless_asBool : Orderless Json.asBool := by
  intro j j' read
  cases j with
  | arr items =>
      obtain ⟨items', -, rfl⟩ := Option.map_eq_some_iff.mp read
      rfl
  | obj members =>
      obtain ⟨written, -, rfl⟩ := Option.map_eq_some_iff.mp read
      rfl
  | null | bool _ | num _ | str _ => cases read; rfl

theorem orderless_asInt64 : Orderless Json.asInt64 := by
  intro j j' read
  cases j with
  | arr items =>
      obtain ⟨items', -, rfl⟩ := Option.map_eq_some_iff.mp read
      rfl
  | obj members =>
      obtain ⟨written, -, rfl⟩ := Option.map_eq_some_iff.mp read
      rfl
  | null | bool _ | num _ | str _ => cases read; rfl

theorem mapM_orderless (orderless : Orderless decode) {items items' : List Json}
    (read : Json.reencodeItems some items = some items') : items'.mapM decode = items.mapM decode := by
  induction items generalizing items' with
  | nil =>
      cases read
      rfl
  | cons item items ih =>
      obtain ⟨item', rest, first, later, rfl⟩ := Json.reencodeItems_cons read
      rw [List.mapM_cons, List.mapM_cons, orderless item item' first, ih later]

theorem orderless_asList (orderless : Orderless decode) : Orderless (Json.asList decode) := by
  intro j j' read
  cases j with
  | arr items =>
      obtain ⟨items', decoded, rfl⟩ := Option.map_eq_some_iff.mp read
      exact mapM_orderless orderless decoded
  | obj members =>
      obtain ⟨written, -, rfl⟩ := Option.map_eq_some_iff.mp read
      rfl
  | null | bool _ | num _ | str _ => cases read; rfl

theorem member_orderless (orderless : Orderless decode) {o o' : Fields}
    (related : ∀ name : String, o[name]?.map (Json.reencode some) = o'[name]?.map some) (key : String) (zero : α) :
    member o' key decode zero = member o key decode zero := by
  have same := Fields.field?_related related key
  unfold member
  cases here : Fields.field? o key with
  | none =>
      rw [here] at same
      have there : Fields.field? o' key = none := Option.map_eq_none_iff.mp same.symm
      rw [there]
  | some j =>
      rw [here] at same
      obtain ⟨j', there, read⟩ := Option.map_eq_some_iff.mp same.symm
      rw [there]
      exact orderless j j' read.symm

theorem orderless_asReverse : Orderless asReverse := by
  intro j j' read
  cases j with
  | arr items =>
      obtain ⟨items', -, rfl⟩ := Option.map_eq_some_iff.mp read
      rfl
  | obj members =>
      obtain ⟨written, decoded, rfl⟩ := Option.map_eq_some_iff.mp read
      unfold Json.ofFields asReverse
      dsimp only
      rw [Json.ofList_toList, member_orderless orderless_asText (Json.get_reencodeMembers decoded)]
  | null | bool _ | num _ | str _ => cases read; rfl

theorem orderless_client : Orderless Client.ofJson := by
  intro j j' read
  cases j with
  | arr items =>
      obtain ⟨items', -, rfl⟩ := Option.map_eq_some_iff.mp read
      rfl
  | obj members =>
      obtain ⟨written, decoded, rfl⟩ := Option.map_eq_some_iff.mp read
      have same := fun key => Json.get_reencodeMembers decoded key
      unfold Client.ofJson
      rw [Json.asFields_ofFields, Json.asFields]
      generalize (Std.ExtTreeMap.ofList members : Fields) = o at same
      generalize (Std.ExtTreeMap.ofList written : Fields) = o' at same
      have text := fun key => member_orderless orderless_asText same key ""
      have int := fun key => member_orderless orderless_asInt64 same key 0
      have bool := fun key => member_orderless orderless_asBool same key false
      have texts := fun key => member_orderless (orderless_asList orderless_asText) same key []
      have reverse := fun key => member_orderless orderless_asReverse same key none
      show Option.bind (some o') _ = Option.bind (some o) _
      rw [Option.bind_some, Option.bind_some]
      simp only [text, int, bool, texts, reverse]
  | null | bool _ | num _ | str _ => cases read; rfl

theorem plainEntry_reencode {entry entry' : Json} (read : entry.reencode some = some entry') :
    plainEntry entry' = plainEntry entry := by
  cases entry with
  | arr items =>
      obtain ⟨items', -, rfl⟩ := Option.map_eq_some_iff.mp read
      rfl
  | obj members =>
      obtain ⟨written, decoded, rfl⟩ := Option.map_eq_some_iff.mp read
      have there : ∀ name : String, (Std.ExtTreeMap.ofList written : Fields)[name]?.isSome =
          (Std.ExtTreeMap.ofList members : Fields)[name]?.isSome := by
        intro name
        have both := congrArg Option.isSome (Json.get_reencodeMembers decoded name)
        rw [Option.isSome_map, Option.isSome_map] at both
        exact both.symm
      rw [plainEntry, plainEntry, Json.asFields_ofFields, Json.asFields, Option.all_some, Option.all_some]
      exact congrArg (fun spelled => ("email" :: editedKeys).all spelled) (funext (Fields.plain_congr there))
  | null | bool _ | num _ | str _ => cases read; rfl

theorem listedIn_decoded {ib : Inbound} (stored : ib.settings ≠ none) :
    ∃ settings, decodedSettings some ib = some settings ∧ listedIn (some settings) = listedIn ib.settings := by
  obtain ⟨o, here⟩ := Option.ne_none_iff_exists'.mp stored
  obtain ⟨settings, read⟩ := Json.reencodeFields_total o
  have decoded : decodedSettings some ib = some settings := by rw [decodedSettings, here]; exact read
  refine ⟨settings, decoded, ?_⟩
  have spelled : plainSettings (some settings) = plainSettings ib.settings := by
    have names : ∀ name : String, settings[name]?.isSome = o[name]?.isSome := by
      intro name
      have both := congrArg Option.isSome (Json.get_reencodeFields read name)
      rw [Option.isSome_map, Option.isSome_map] at both
      exact both.symm
    have entries := decodedEntries decoded
    unfold plainSettings
    rw [here] at entries ⊢
    rw [Option.all_some, Option.all_some, Fields.plain_congr names]
    generalize clientEntries (some o) = before at entries
    generalize clientEntries (some settings) = after at entries
    refine congrArg (_ && ·) ?_
    induction entries with
    | nil => rfl
    | cons one _ ih => rw [List.all_cons, List.all_cons, plainEntry_reencode one, ih]
  have clients : getClients (some settings) = getClients ib.settings := by
    unfold getClients
    rw [here, Option.bind_eq_bind, Option.bind_some, Option.bind_some,
      member_orderless (orderless_asList orderless_client) (Json.get_reencodeFields read)]
  rw [listedIn, listedIn, spelled, clients]

end Ordered

/-! ## What the sync of an inbound does to records -/

/-- A change of records that leaves their ids and emails alone and sets the limits of those that `named` picks. -/
structure Relimits (f : ClientRecord → ClientRecord) (named : String → Prop) [DecidablePred named]
    (target : String → Limits) : Prop where
  id : ∀ rec, (f rec).id = rec.id
  email : ∀ rec, (f rec).email = rec.email
  limits : ∀ rec, (f rec).limits = if named rec.email then target rec.email else rec.limits

def Names (clients : List Client) (email : String) : Prop := email ≠ "" ∧ email ∈ clients.map (fun c => trimSpace c.email)

instance (clients : List Client) : DecidablePred (Names clients) := by
  intro email
  unfold Names
  infer_instance

theorem names_append {clients : List Client} {c : Client} {email : String} :
    Names (clients ++ [c]) email ↔ Names clients email ∨ (email ≠ "" ∧ email = trimSpace c.email) := by
  unfold Names
  rw [List.map_append, List.mem_append, List.map_singleton, List.mem_singleton, and_or_left]

theorem relimits_merge {f : ClientRecord → ClientRecord} {done : List Client} {target : String → Limits}
    (held : Relimits f (Names done) target) {c : Client} (agree : trimSpace c.email ≠ "" → c.limits = target (trimSpace c.email))
    (nonblank : trimSpace c.email ≠ "") :
    Relimits (fun rec => if (f rec).email = trimSpace c.email then mergeRecord (incomingRecord c) (f rec) else f rec)
      (Names (done ++ [c])) target := by
  refine ⟨fun rec => ?_, fun rec => ?_, fun rec => ?_⟩
  · split
    · exact held.id rec
    · exact held.id rec
  · split
    · exact held.email rec
    · exact held.email rec
  · rw [held.email]
    by_cases own : rec.email = trimSpace c.email
    · rw [if_pos own, if_pos (names_append.mpr (.inr ⟨own ▸ nonblank, own⟩))]
      exact (agree nonblank).trans (congrArg target own.symm)
    · rw [if_neg own, held.limits]
      refine ite_congr (propext ?_) (fun _ => rfl) fun _ => rfl
      rw [names_append]
      exact ⟨.inl, fun named => named.resolve_right fun last => own last.2⟩

theorem syncRecords_limits {db : Database} {now : Int} {clients : List Client} {target : String → Limits}
    (known : ∀ c ∈ clients, trimSpace c.email ≠ "" → trimSpace c.email ∈ db.clients.map (·.email))
    (agree : ∀ c ∈ clients, trimSpace c.email ≠ "" → c.limits = target (trimSpace c.email)) :
    ∃ f, (syncRecords db now clients).clients = db.clients.map f ∧ Relimits f (Names clients) target := by
  have looped : ∃ f, clients.foldl syncClient ⟨db.clients, []⟩ = ⟨db.clients.map f, []⟩ ∧ Relimits f (Names clients) target := by
    refine foldl_keeps (fun (done : List Client) (st : Synced) => ∃ f, st = ⟨db.clients.map f, []⟩ ∧
      Relimits f (Names done) target) clients ⟨id, by simp, ⟨fun _ => rfl, fun _ => rfl, by simp [Names]⟩⟩ ?_
    rintro done c st mem ⟨f, rfl, held⟩
    unfold syncClient
    simp only
    by_cases blank : trimSpace c.email = ""
    · refine ⟨f, if_pos blank, held.id, held.email, fun rec => ?_⟩
      rw [held.limits]
      refine ite_congr (propext ?_) (fun _ => rfl) fun _ => rfl
      rw [names_append]
      exact ⟨.inl, fun named => named.resolve_right fun last => last.1 (last.2.trans blank)⟩
    · have some' : (db.clients.map f).any (·.email = (incomingRecord c).email) = true := by
        obtain ⟨rec, here, same⟩ := List.mem_map.mp (known c mem blank)
        rw [List.any_map, List.any_eq_true]
        exact ⟨rec, here, decide_eq_true ((held.email rec).trans same)⟩
      refine ⟨_, ?_, relimits_merge held (agree c mem) blank⟩
      rw [if_neg (show ¬(incomingRecord c).email = "" from blank), if_pos some', List.map_map]
      rfl
  obtain ⟨f, same, held⟩ := looped
  refine ⟨f, ?_, held⟩
  unfold syncRecords
  simp [same]

end ThreeXNode.Panel
