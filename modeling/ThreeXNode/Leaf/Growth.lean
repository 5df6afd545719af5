import ThreeXNode.Leaf.Nesting

namespace ThreeXNode.Leaf
open Library State

/-! ## What the validators accept stays accepted when a sample writes to a client -/

theorem onlyKnown_ok {fields : Fields} {known : List String} {what : String} :
    onlyKnown fields known what = .ok () ↔
      ∀ (name : String) (value : Json), fields[name]? = some value → name ∈ known ∨ value.isEmpty := by
  simp only [onlyKnown, List.forM_eq_forM, forM_eq_ok, require_eq_ok, Prod.forall,
    Std.ExtTreeMap.mem_toList_iff_getElem?_eq_some]

theorem onlyKnown_insert {fields : Fields} {known : List String} {what name : String} {value : Json}
    (checked : onlyKnown fields known what = .ok ()) (mem : name ∈ known) :
    onlyKnown (fields.insert name value) known what = .ok () := by
  rw [onlyKnown_ok] at *
  intro other value' found
  rw [Std.ExtTreeMap.getElem?_insert] at found
  split at found
  · rename_i same
    obtain rfl : name = other := by simpa using same
    exact .inl mem
  · exact checked other value' found

theorem emptyAt_insert_of_ne (o : Fields) {k l : String} (j : Json) (ne : k ≠ l) :
    Fields.emptyAt (o.insert k j) l = Fields.emptyAt o l := by
  simp [Fields.emptyAt, Std.ExtTreeMap.getElem?_insert, ne]

def SampleField (key : String) (v : Json) : Prop :=
  (key = "enable" ∧ v.asBool ≠ none) ∨ (key = "expiryTime" ∧ v.asInt64 ≠ none)

theorem SampleField.ne {key other : String} {v : Json} (field : SampleField key v) (enable : other ≠ "enable")
    (expiryTime : other ≠ "expiryTime") : key ≠ other := by
  rcases field with ⟨rfl, _⟩ | ⟨rfl, _⟩
  · exact enable.symm
  · exact expiryTime.symm

theorem SampleField.scalar {key : String} {v : Json} (field : SampleField key v) : v.nesting = 0 := by
  cases v with
  | null | bool _ | num _ | str _ => rfl
  | arr _ | obj _ => rcases field with ⟨-, kind⟩ | ⟨-, kind⟩ <;> exact absurd rfl kind

theorem SampleField.known {key : String} {v : Json} (field : SampleField key v) : key ∈ clientFields := by
  rcases field with ⟨rfl, _⟩ | ⟨rfl, _⟩ <;> decide

private theorem validateClientNumber_insert {c : Client} {key k : String} {v : Json} (field : SampleField key v)
    (reads : k ≠ "enable") (checked : validateClientNumber c k = .ok ()) :
    validateClientNumber (c.insert key v) k = .ok () := by
  by_cases same : key = k
  · subst same
    rcases field with ⟨rfl, _⟩ | ⟨rfl, kind⟩
    · exact absurd rfl reads
    · obtain ⟨n, read⟩ := Option.ne_none_iff_exists'.mp kind
      simp [validateClientNumber, Std.ExtTreeMap.get?_eq_getElem?, read]
  · unfold validateClientNumber at *
    simpa only [Std.ExtTreeMap.get?_eq_getElem?, Std.ExtTreeMap.getElem?_insert, Std.compare_eq_iff_eq, same,
      ↓reduceIte] using checked

private theorem validateEnable_insert {c : Client} {key : String} {v : Json} (field : SampleField key v)
    (checked : validateEnable c = .ok ()) : validateEnable (c.insert key v) = .ok () := by
  rcases field with ⟨rfl, kind⟩ | ⟨rfl, _⟩
  · simp [validateEnable, Std.ExtTreeMap.get?_eq_getElem?, kind]
  · unfold validateEnable at *
    simpa [Std.ExtTreeMap.get?_eq_getElem?, Std.ExtTreeMap.getElem?_insert] using checked

theorem validateClient_insert {c : Client} {key : String} {v : Json} (field : SampleField key v)
    (checked : validateClient c = .ok ()) : validateClient (c.insert key v) = .ok () := by
  have text : ∀ k, k ≠ "enable" → k ≠ "expiryTime" → Fields.text (c.insert key v) k = c.text k :=
    fun k enable expiryTime => Fields.text_insert_of_ne c v (field.ne enable expiryTime)
  simp only [validateClient, Except.bind_eq_ok, require_eq_ok, List.forM_eq_forM, forM_eq_ok] at checked ⊢
  obtain ⟨_, known, _, email, _, uuid, _, flow, _, numbers, _, enable, _, unsupported, never⟩ := checked
  rw [text "email" (by decide) (by decide), text "id" (by decide) (by decide), text "flow" (by decide) (by decide),
    text "trafficReset" (by decide) (by decide)]
  refine ⟨(), onlyKnown_insert known field.known, (), email, (), uuid, (), flow, (), ?_, (), ?_, (), ?_, never⟩
  · intro k mem
    exact validateClientNumber_insert field (by rintro rfl; revert mem; decide) (numbers k mem)
  · exact validateEnable_insert field enable
  · intro k mem
    have ne : key ≠ k := field.ne (by rintro rfl; revert mem; decide) (by rintro rfl; revert mem; decide)
    rw [emptyAt_insert_of_ne c v ne]
    exact unsupported k mem

theorem validateClients_map {f : Client → Client} (stream : Fields)
    (valid : ∀ c, validateClient c = .ok () → validateClient (f c) = .ok ())
    (text : ∀ c, (f c).text "email" = c.text "email" ∧ (f c).text "flow" = c.text "flow") (seen : List String)
    (cs : List Client) (checked : validateClients stream seen cs = .ok ()) :
    validateClients stream seen (cs.map f) = .ok () := by
  induction cs generalizing seen with
  | nil => rfl
  | cons c cs ih =>
      simp only [validateClients, Except.bind_eq_ok, require_eq_ok] at checked
      obtain ⟨_, client, _, flow, _, new, rest⟩ := checked
      simp only [List.map_cons, validateClients, Except.bind_eq_ok, require_eq_ok, (text c).1, (text c).2]
      exact ⟨(), valid c client, (), flow, (), new, ih _ rest⟩

theorem validateSettings_insert {settings : Fields} (j : Json) (checked : validateSettings settings = .ok ()) :
    validateSettings (settings.insert "clients" j) = .ok () := by
  simp only [validateSettings, Except.bind_eq_ok, require_eq_ok] at checked ⊢
  obtain ⟨_, known, _, encryption, _, decryption, _, fallbacks, testseed⟩ := checked
  rw [Fields.text_insert_of_ne settings j (by decide), emptyAt_insert_of_ne settings j (by decide),
    Std.ExtTreeMap.getElem?_insert, Std.ExtTreeMap.getElem?_insert]
  exact ⟨(), onlyKnown_insert known (by decide), (), encryption, (), decryption, (), fallbacks, testseed⟩

theorem validateInbound_clients {ib : Inbound} (checked : validateInbound ib = .ok ()) :
    ∃ cs, ib.clients = .ok cs ∧ validateClients ib.streamSettings [] cs = .ok () := by
  simp only [validateInbound, Except.bind_eq_ok, require_eq_ok] at checked
  obtain ⟨_, _, _, _, _, _, _, _, _, _, _, _, _, _, _, _, cs, decoded, clients⟩ := checked
  exact ⟨cs, decoded, clients⟩

theorem validateInbound_setClients {ib : Inbound} {cs : List Client} (checked : validateInbound ib = .ok ())
    (clients : validateClients ib.streamSettings [] cs = .ok ()) : validateInbound (ib.setClients cs) = .ok () := by
  simp only [validateInbound, Except.bind_eq_ok, require_eq_ok, Inbound.clients_setClients] at checked ⊢
  obtain ⟨_, kind, _, listen, _, tag, _, quota, _, never, _, settings, _, stream, _, sniffing, _⟩ := checked
  exact ⟨(), kind, (), listen, (), tag, (), quota, (), never, (), validateSettings_insert _ settings, (), stream, (),
    sniffing, cs, rfl, clients⟩

theorem validateInbound_setField {ib : Inbound} {email key : String} {v : Json} (field : SampleField key v)
    (checked : validateInbound ib = .ok ()) :
    validateInbound (ib.setClients (ib.clientsOrNil.map (setField email key v))) = .ok () := by
  obtain ⟨cs, decoded, clients⟩ := validateInbound_clients checked
  rw [Inbound.clientsOrNil_eq decoded]
  refine validateInbound_setClients checked (validateClients_map _ ?_ ?_ _ _ clients)
  · intro c valid
    unfold setField
    split
    · exact validateClient_insert field valid
    · exact valid
  · intro c
    exact ⟨text_setField (field.ne (by decide) (by decide)), text_setField (field.ne (by decide) (by decide))⟩

/-! ## What a sample credits -/

def share (baseline : Baseline) (user : Bool) (name : String) (dir : Direction) (entry : String × Int) : Int :=
  if entry.2 < 0 then 0
  else if parseKey entry.1 = some (user, name, dir) then growth baseline entry.1 entry.2
  else 0

def credited (baseline : Baseline) (values : Values) (user : Bool) (name : String) (dir : Direction) : Int :=
  (values.map (share baseline user name dir)).sum

theorem growth_nonneg {baseline : Baseline} {key : String} {value : Int} (positive : 0 ≤ value) :
    0 ≤ growth baseline key value := by
  simp only [growth]
  split <;> omega

theorem share_nonneg (baseline : Baseline) (user : Bool) (name : String) (dir : Direction) (entry : String × Int) :
    0 ≤ share baseline user name dir entry := by
  unfold share
  split
  · exact le_rfl
  · rename_i positive
    split
    · exact growth_nonneg (by omega)
    · exact le_rfl

theorem credited_nonneg (baseline : Baseline) (values : Values) (user : Bool) (name : String) (dir : Direction) :
    0 ≤ credited baseline values user name dir := by
  refine List.sum_nonneg fun x mem => ?_
  obtain ⟨entry, _, rfl⟩ := List.mem_map.mp mem
  exact share_nonneg baseline user name dir entry

theorem credited_append (baseline : Baseline) (values more : Values) (user : Bool) (name : String) (dir : Direction) :
    credited baseline (values ++ more) user name dir =
      credited baseline values user name dir + credited baseline more user name dir := by
  simp [credited]

/-- A sample's edit of the inbounds: identities stay, and the counters grow by `up` and `down` of the tag. -/
structure Inbound.Grown (up down : String → Int) (f : Inbound → Inbound) : Prop where
  id : ∀ ib, (f ib).id = ib.id
  port : ∀ ib, (f ib).port = ib.port
  tag : ∀ ib, (f ib).tag = ib.tag
  valid : ∀ ib, validateInbound ib = .ok () → validateInbound (f ib) = .ok ()
  nesting : ∀ (ib : Inbound) (n : Nat), ib.nesting ≤ n + 4 → (f ib).nesting ≤ n + 4
  up : ∀ ib, InInt64 ib.up → (f ib).up = wrap64 (ib.up + up ib.tag)
  down : ∀ ib, InInt64 ib.down → (f ib).down = wrap64 (ib.down + down ib.tag)

private theorem wrap64_add_zero {x : Int} (range : InInt64 x) : x = wrap64 (x + 0) := by
  rw [add_zero, wrap64_eq range]

theorem Inbound.Grown.refl : Inbound.Grown (fun _ => 0) (fun _ => 0) fun ib => ib where
  id := fun _ => rfl
  port := fun _ => rfl
  tag := fun _ => rfl
  valid := fun _ checked => checked
  nesting := fun _ _ own => own
  up := fun _ range => wrap64_add_zero range
  down := fun _ range => wrap64_add_zero range

theorem Inbound.Grown.comp {up up' down down' : String → Int} {f g : Inbound → Inbound}
    (front : Inbound.Grown up down f) (back : Inbound.Grown up' down' g) :
    Inbound.Grown (fun tag => up tag + up' tag) (fun tag => down tag + down' tag) (g ∘ f) where
  id := fun ib => (back.id (f ib)).trans (front.id ib)
  port := fun ib => (back.port (f ib)).trans (front.port ib)
  tag := fun ib => (back.tag (f ib)).trans (front.tag ib)
  valid := fun ib checked => back.valid (f ib) (front.valid ib checked)
  nesting := fun ib n own => back.nesting (f ib) n (front.nesting ib n own)
  up := by
    intro ib range
    have mid := front.up ib range
    rw [Function.comp_apply, back.up (f ib) (mid ▸ wrap64_range _), front.tag, mid, wrap64_add, add_assoc]
  down := by
    intro ib range
    have mid := front.down ib range
    rw [Function.comp_apply, back.down (f ib) (mid ▸ wrap64_range _), front.tag, mid, wrap64_add, add_assoc]

theorem setField_grown {email key : String} {v : Json} (field : SampleField key v) :
    Inbound.Grown (fun _ => 0) (fun _ => 0) fun ib => ib.setClients (ib.clientsOrNil.map (setField email key v)) where
  id := fun _ => rfl
  port := fun _ => rfl
  tag := fun _ => rfl
  valid := fun _ checked => validateInbound_setField field checked
  nesting := fun _ _ own => setFields_nesting field.scalar own
  up := fun _ range => wrap64_add_zero range
  down := fun _ range => wrap64_add_zero range

theorem stop_grown (now : Int) : Inbound.Grown (fun _ => 0) (fun _ => 0)
    fun ib => if ib.spent now then { ib with enable := false } else ib where
  id := fun ib => by split <;> rfl
  port := fun ib => by split <;> rfl
  tag := fun ib => by split <;> rfl
  valid := fun ib checked => by split <;> exact checked
  nesting := fun ib n own => by split <;> exact own
  up := fun ib range => by split <;> exact wrap64_add_zero range
  down := fun ib range => by split <;> exact wrap64_add_zero range

def toward (dir : Direction) (delta : Int) (other : Direction) : Int := if other = dir then delta else 0

theorem add_grown (tag : String) (delta : Int) (dir : Direction) :
    Inbound.Grown (fun other => if other = tag then toward dir delta .uplink else 0)
      (fun other => if other = tag then toward dir delta .downlink else 0)
      fun ib => if ib.tag = tag then ib.add delta dir else ib where
  id := fun ib => by split <;> cases dir <;> rfl
  port := fun ib => by split <;> cases dir <;> rfl
  tag := fun ib => by split <;> cases dir <;> rfl
  valid := fun ib checked => by split <;> cases dir <;> exact checked
  nesting := fun ib n own => by split <;> cases dir <;> exact own
  up := fun ib range => by
    by_cases same : ib.tag = tag <;> cases dir <;> simp [same, Inbound.add, toward, wrap64_eq range]
  down := fun ib range => by
    by_cases same : ib.tag = tag <;> cases dir <;> simp [same, Inbound.add, toward, wrap64_eq range]

structure Grows (up down : Bool → String → Int) (s t : State) : Prop where
  marks : t.running = s.running ∧ t.checkpointAt = s.checkpointAt ∧ t.schema = s.schema ∧ t.guid = s.guid ∧
    t.nextID = s.nextID ∧ t.nextClientID = s.nextClientID
  inbounds : ∃ f, Inbound.Grown (up false) (down false) f ∧ t.inbounds = s.inbounds.map f
  mem : ∀ email : String, email ∈ t.traffic ↔ email ∈ s.traffic
  row : ∀ (email : String) (old : Traffic), s.traffic[email]? = some old → InInt64 old.up → InInt64 old.down →
    ∃ new : Traffic, t.traffic[email]? = some new ∧ new.id = old.id ∧ new.up = wrap64 (old.up + up true email) ∧
      new.down = wrap64 (old.down + down true email)

def still : Bool → String → Int := fun _ _ => 0

def lone (user : Bool) (name : String) (x : Int) : Bool → String → Int :=
  fun user' name' => if user' = user ∧ name' = name then x else 0

@[simp] theorem lone_zero (user : Bool) (name : String) : lone user name 0 = still := by
  funext user' name'
  simp [lone, still]

@[simp] theorem lone_self (user : Bool) (name : String) (x : Int) :
    lone user name x user = fun other => if other = name then x else 0 := by
  funext other
  simp [lone]

theorem lone_other {user user' : Bool} (differs : user' ≠ user) (name : String) (x : Int) :
    lone user name x user' = fun _ => 0 := by
  funext other
  simp [lone, differs]

@[simp] theorem still_add (up : Bool → String → Int) : up + still = up := by
  funext user name
  simp [still]

theorem Grows.refl (s : State) : Grows still still s s where
  marks := ⟨rfl, rfl, rfl, rfl, rfl, rfl⟩
  inbounds := ⟨_, .refl, by simp⟩
  mem := fun _ => Iff.rfl
  row := fun _ old found up down => ⟨old, found, rfl, wrap64_add_zero up, wrap64_add_zero down⟩

theorem Grows.trans {up up' down down' : Bool → String → Int} {s t u : State} (front : Grows up down s t)
    (back : Grows up' down' t u) : Grows (up + up') (down + down') s u where
  marks := by
    obtain ⟨a, b, c, d, e, f⟩ := front.marks
    obtain ⟨a', b', c', d', e', f'⟩ := back.marks
    exact ⟨a'.trans a, b'.trans b, c'.trans c, d'.trans d, e'.trans e, f'.trans f⟩
  inbounds := by
    obtain ⟨f, grown, mapped⟩ := front.inbounds
    obtain ⟨g, grown', mapped'⟩ := back.inbounds
    exact ⟨g ∘ f, grown.comp grown', by rw [mapped', mapped, List.map_map]⟩
  mem := fun email => (back.mem email).trans (front.mem email)
  row := by
    intro email old found rangeUp rangeDown
    obtain ⟨mid, here, id, up, down⟩ := front.row email old found rangeUp rangeDown
    obtain ⟨new, there, id', up', down'⟩ :=
      back.row email mid here (up ▸ wrap64_range _) (down ▸ wrap64_range _)
    refine ⟨new, there, id'.trans id, ?_, ?_⟩
    · rw [up', up, wrap64_add, add_assoc]
      rfl
    · rw [down', down, wrap64_add, add_assoc]
      rfl

private theorem Grows.put {s t : State} {email : String} {old new : Traffic} {up down : Int} {f : Inbound → Inbound}
    (rest : t = { s with inbounds := s.inbounds.map f, traffic := s.traffic.insert email new })
    (grown : Inbound.Grown (fun _ => 0) (fun _ => 0) f) (row : s.traffic[email]? = some old) (id : new.id = old.id)
    (hup : InInt64 old.up → new.up = wrap64 (old.up + up))
    (hdown : InInt64 old.down → new.down = wrap64 (old.down + down)) :
    Grows (lone true email up) (lone true email down) s t := by
  subst rest
  refine ⟨⟨rfl, rfl, rfl, rfl, rfl, rfl⟩, ⟨f, by simpa [lone_other] using grown, rfl⟩, ?_, ?_⟩
  · intro other
    rw [Std.ExtTreeMap.mem_insert]
    constructor
    · rintro (same | mem)
      · obtain rfl : email = other := by simpa using same
        exact mem_iff_some.mpr ⟨old, row⟩
      · exact mem
    · exact .inr
  · intro other was found rangeUp rangeDown
    simp only [Std.ExtTreeMap.getElem?_insert, Std.compare_eq_iff_eq]
    by_cases same : email = other
    · subst same
      rw [row] at found
      cases found
      exact ⟨new, by simp, id, by simpa [lone] using hup rangeUp, by simpa [lone] using hdown rangeDown⟩
    · refine ⟨was, by simp [same, found], rfl, ?_, ?_⟩
      · simpa [lone, Ne.symm same] using (wrap64_eq rangeUp).symm
      · simpa [lone, Ne.symm same] using (wrap64_eq rangeDown).symm

theorem creditUser_grows (s : State) (now : Int) (email : String) (dir : Direction) (delta : Int) :
    Grows (lone true email (toward dir delta .uplink)) (lone true email (toward dir delta .downlink))
      s (s.creditUser now email dir delta) := by
  unfold State.creditUser
  cases row : s.traffic[email]? with
  | none =>
      refine ⟨⟨rfl, rfl, rfl, rfl, rfl, rfl⟩, ⟨fun ib => ib, by simpa [lone_other] using .refl, by simp⟩, fun _ => Iff.rfl, ?_⟩
      intro other old found rangeUp rangeDown
      have differs : other ≠ email := by
        rintro rfl
        rw [row] at found
        cases found
      exact ⟨old, found, rfl, by simpa [lone, differs] using (wrap64_eq rangeUp).symm,
        by simpa [lone, differs] using (wrap64_eq rangeDown).symm⟩
  | some t =>
      have id : (t.add delta dir).id = t.id := by cases dir <;> rfl
      have up : InInt64 t.up → (t.add delta dir).up = wrap64 (t.up + toward dir delta .uplink) := by
        intro range
        cases dir <;> simp [Traffic.add, toward, wrap64_eq range]
      have down : InInt64 t.down → (t.add delta dir).down = wrap64 (t.down + toward dir delta .downlink) := by
        intro range
        cases dir <;> simp [Traffic.add, toward, wrap64_eq range]
      simp only
      split
      · have range := wrap64_range (now - (t.add delta dir).expiryTime)
        exact .put rfl (setField_grown (.inr ⟨rfl, by simp [Json.asInt64_ofInt range.1 range.2]⟩)) row id up down
      · let counted : Traffic := { t.add delta dir with lastOnline := now }
        have unchanged : { s with traffic := s.traffic.insert email counted } =
            { s with inbounds := s.inbounds.map fun ib => ib, traffic := s.traffic.insert email counted } := by simp
        exact .put unchanged .refl row id up down

theorem creditInbound_grows (s : State) (tag : String) (dir : Direction) (delta : Int) :
    Grows (lone false tag (toward dir delta .uplink)) (lone false tag (toward dir delta .downlink))
      s (s.creditInbound tag dir delta) where
  marks := ⟨rfl, rfl, rfl, rfl, rfl, rfl⟩
  inbounds := by
    refine ⟨_, ?_, rfl⟩
    simpa using add_grown tag delta dir
  mem := fun _ => Iff.rfl
  row := fun _ old found up down => ⟨old, found, rfl, by simpa [lone] using wrap64_add_zero up,
    by simpa [lone] using wrap64_add_zero down⟩

private theorem share_parsed {baseline : Baseline} {key name : String} {value : Int} {user : Bool} {dir : Direction}
    (positive : ¬value < 0) (parsed : parseKey key = some (user, name, dir)) (other : Direction) :
    (fun user name => share baseline user name other (key, value)) =
      lone user name (toward dir (growth baseline key value) other) := by
  funext user' name'
  have owner : (some (user, name, dir) = some (user', name', other)) ↔
      ((user' = user ∧ name' = name) ∧ other = dir) := by
    simp only [Option.some.injEq, Prod.mk.injEq]
    exact ⟨fun ⟨a, b, c⟩ => ⟨⟨a.symm, b.symm⟩, c.symm⟩, fun ⟨⟨a, b⟩, c⟩ => ⟨a.symm, b.symm, c.symm⟩⟩
  simp only [share, positive, ↓reduceIte, parsed, owner, lone, toward, ite_and]

theorem credit_grows (s : State) (now : Int) (baseline : Baseline) (entry : String × Int) :
    Grows (fun user name => share baseline user name .uplink entry)
      (fun user name => share baseline user name .downlink entry) s (s.credit now baseline entry) := by
  obtain ⟨key, value⟩ := entry
  have same (zero : ∀ user name dir, share baseline user name dir (key, value) = 0) :
      Grows (fun user name => share baseline user name .uplink (key, value))
        (fun user name => share baseline user name .downlink (key, value)) s s := by
    simp only [zero]
    exact .refl s
  unfold State.credit
  simp only
  split
  · rename_i negative
    exact same fun user name dir => by simp [share, negative]
  · rename_i positive
    split
    · rename_i zero
      exact same fun user name dir => by simp [share, zero]
    · split
      · rename_i email dir parsed
        rw [share_parsed positive parsed, share_parsed positive parsed]
        exact creditUser_grows s now email dir (growth baseline key value)
      · rename_i tag dir parsed
        rw [share_parsed positive parsed, share_parsed positive parsed]
        exact creditInbound_grows s tag dir (growth baseline key value)
      · rename_i parsed
        exact same fun user name dir => by simp [share, parsed]

theorem disableExhausted_grows (s : State) (now : Int) (email : String) :
    Grows still still s (s.disableExhausted now email) := by
  unfold State.disableExhausted
  cases row : s.traffic[email]? with
  | none => exact .refl s
  | some t =>
      simp only
      split
      · have put : Grows (lone true email 0) (lone true email 0) s (s.disableClient email t) := .put rfl (setField_grown (.inl ⟨rfl, by simp⟩)) row rfl wrap64_add_zero wrap64_add_zero
        simpa using put
      · exact .refl s

theorem finish_grows (s : State) (now : Int) : Grows still still s ((s.stopSpent now).purgeGlobals now) where
  marks := ⟨rfl, rfl, rfl, rfl, rfl, rfl⟩
  inbounds := ⟨_, stop_grown now, rfl⟩
  mem := fun _ => Iff.rfl
  row := fun _ old found up down => ⟨old, found, rfl, wrap64_add_zero up, wrap64_add_zero down⟩

theorem sampled_grows (s : State) (baseline : Baseline) (values : Values) (now : Int) :
    Grows (fun user name => credited baseline values user name .uplink)
      (fun user name => credited baseline values user name .downlink) s (s.sampled baseline values now) := by
  have read := foldl_keeps (fun done t => Grows (fun user name => credited baseline done user name .uplink)
    (fun user name => credited baseline done user name .downlink) s t) values (f := State.credit now baseline)
    (Grows.refl s) ?_
  · have disabled := foldl_invariant (l := (values.foldl (State.credit now baseline) s).traffic.keys)
      (f := State.disableExhausted now) (s := values.foldl (State.credit now baseline) s)
      (Grows still still (values.foldl (State.credit now baseline) s)) (.refl _)
      fun t email _ held => by simpa using held.trans (disableExhausted_grows t now email)
    have done := (read.trans disabled).trans (finish_grows _ now)
    simp only [still_add] at done
    exact done
  · intro done entry t _ held
    have more := held.trans (credit_grows t now baseline entry)
    simpa [credited_append, credited, Pi.add_def] using more

end ThreeXNode.Leaf
