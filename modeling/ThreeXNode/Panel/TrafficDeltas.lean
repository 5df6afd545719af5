import ThreeXNode.Library.Maps
import ThreeXNode.Panel.PollReads

namespace ThreeXNode.Panel
open Library

/-! ## The counters of a core -/

inductive CounterKind where
  | inbound
  | outbound
  | user
  deriving DecidableEq

@[ext] structure CounterKey where
  kind : CounterKind
  subject : String
  isDown : Bool
  deriving DecidableEq

def CounterKind.lead : CounterKind → String
  | .inbound => "inbound>>>"
  | .outbound => "outbound>>>"
  | .user => "user>>>"

def CounterKey.name (key : CounterKey) : String :=
  key.kind.lead ++ key.subject ++ ">>>traffic>>>" ++ directionName key.isDown

def CounterKey.counted (key : CounterKey) : Bool := key.kind = .user || key.subject ≠ "api"

/-- An answered call: how often the core was started before it, and the counters, in any order. -/
structure Call where
  generation : Nat
  stats : List (CounterKey × Int)

def valueOf (stats : List (CounterKey × α)) (key : CounterKey) : Option α := (stats.find? (·.1 = key)).map (·.2)

def Call.answer (c : Call) : List (String × Int) := c.stats.map fun (key, value) => (key.name, value)

/-! ## Runs of `GetTraffic` -/

/-- The values an `XrayAPI` holds, and what its calls have shown so far: `seen` has the last generation and value of each
counter in front of the earlier ones, `gained` and `reported` are counted from the second call on. -/
structure TrafficApi where
  statsLastValues : Counters := ∅
  called : Bool := false
  generation : Nat := 0
  seen : List (CounterKey × Nat × Int) := []
  gained : CounterKey → Int := fun _ => 0
  reported : CounterKey → Int := fun _ => 0

/-- Counters grow within a generation and none is lost; a restart shows as a smaller value, unless there was none. -/
def TrafficApi.Follows (s : TrafficApi) (c : Call) : Prop :=
  s.generation ≤ c.generation ∧ (c.stats.map (·.1)).Nodup ∧ (∀ e ∈ c.stats, 0 ≤ e.2) ∧
    ∀ key ∈ s.seen.map (·.1), ∀ last ∈ valueOf s.seen key,
      match valueOf c.stats key with
      | some value => if last.1 = c.generation then last.2 ≤ value else value < last.2 ∨ last.2 = 0
      | none => last.1 ≠ c.generation

instance (s : TrafficApi) (c : Call) : Decidable (s.Follows c) := by
  unfold TrafficApi.Follows
  have (last : Nat × Int) : ∀ value : Option Int, Decidable (match value with
      | some value => if last.1 = c.generation then last.2 ≤ value else value < last.2 ∨ last.2 = 0
      | none => last.1 ≠ c.generation)
    | some _ => by dsimp only; infer_instance
    | none => by dsimp only; infer_instance
  infer_instance

/-- What a counter gained since the call before; in a new generation it started at zero. -/
def TrafficApi.gain (s : TrafficApi) (c : Call) (key : CounterKey) : Int :=
  match valueOf c.stats key with
  | some value =>
      match valueOf s.seen key with
      | some (generation, last) => if generation = c.generation then value - last else value
      | none => value
  | none => 0

def Traffic.toward (t : Traffic) (isDown : Bool) : Int := if isDown then t.down else t.up

def reportedFor (traffics : List Traffic) (uses : List ClientUse) (key : CounterKey) : Int :=
  match key.kind with
  | .user => ((uses.filter (·.email = key.subject)).map (·.toward key.isDown)).sum
  | kind =>
      ((traffics.filter fun t => t.isInbound = decide (kind = .inbound) ∧ t.tag = key.subject).map
        (·.toward key.isDown)).sum

def TrafficApi.report (s : TrafficApi) (c : Call) : CounterKey → Int :=
  let (_, traffics, uses) := getTraffic s.statsLastValues c.answer
  reportedFor traffics uses

def TrafficApi.next (s : TrafficApi) (c : Call) : Option TrafficApi :=
  if s.Follows c then
    some {
      statsLastValues := (getTraffic s.statsLastValues c.answer).1
      called := true
      generation := c.generation
      seen := (c.stats.map fun (key, value) => (key, c.generation, value)) ++ s.seen
      gained := fun key => if s.called then s.gained key + s.gain c key else 0
      reported := fun key => if s.called then s.reported key + s.report c key else 0 }
  else none

def trafficCalls : System TrafficApi Call where
  next := TrafficApi.next

/-- An inbound and an outbound with one tag have gained nothing where both have counters. -/
def TrafficApi.Apart (s : TrafficApi) (c : Call) : Prop :=
  ∀ e ∈ c.stats, ∀ e' ∈ c.stats, e.1.kind = .inbound → e'.1.kind = .outbound → e.1.subject = e'.1.subject →
    e.1.subject ≠ "api" → s.gain c e.1 = 0 ∧ s.gain c e'.1 = 0

/-- The names can be read back, tags are not shared by counters that gain, and no counter has gained anything while none
was known. -/
structure TrafficApi.Sorted (s : TrafficApi) (c : Call) : Prop where
  plain : ∀ e ∈ c.stats, Plain e.1.subject
  apart : s.called = true → s.Apart c
  start : s.called = true → s.seen = [] → ∀ e ∈ c.stats, e.2 = 0

instance (email : String) : Decidable (Plain email) := by
  unfold Plain
  infer_instance

instance (s : TrafficApi) (c : Call) : Decidable (s.Sorted c) := by
  have apart : Decidable (s.Apart c) := by
    unfold TrafficApi.Apart
    infer_instance
  exact decidable_of_iff ((∀ e ∈ c.stats, Plain e.1.subject) ∧ (s.called = true → s.Apart c) ∧
    (s.called = true → s.seen = [] → ∀ e ∈ c.stats, e.2 = 0))
    ⟨fun h => ⟨h.1, h.2.1, h.2.2⟩, fun h => ⟨h.plain, h.apart, h.start⟩⟩

/-! ## Reading the names back -/

def readKey (name : String) : Option CounterKey :=
  match findSubmatch trafficRegex name.toList with
  | some (isInbound, tag, isDown) => some ⟨if isInbound then .inbound else .outbound, tag, isDown⟩
  | none => (findSubmatch clientTrafficRegex name.toList).map fun (email, isDown) => ⟨.user, email, isDown⟩

theorem name_toList (key : CounterKey) : key.name.toList =
    key.kind.lead.toList ++ (key.subject.toList ++ (">>>traffic>>>".toList ++ (directionName key.isDown).toList)) := by
  simp [CounterKey.name]

theorem findSubmatch_start {here : List Char → Option α} {text : List Char} {a : α} (read : here text = some a) :
    findSubmatch here text = some a := by
  cases text with
  | nil => exact read
  | cons c text => rw [findSubmatch, read, Option.some_or]

theorem trafficRegex_name {kind : CounterKind} (tagged : kind ≠ .user) {subject : String} (plain : Plain subject)
    (isDown : Bool) :
    trafficRegex (CounterKey.name ⟨kind, subject, isDown⟩).toList = some (decide (kind = .inbound), subject, isDown) := by
  have read := readSubject_email plain isDown
  rw [name_toList]
  dsimp only
  generalize subject.toList ++ (">>>traffic>>>".toList ++ (directionName isDown).toList) = rest at read
  unfold trafficRegex
  cases kind with
  | user => exact absurd rfl tagged
  | inbound =>
      rw [CounterKind.lead, dropLead_append]
      simp [read]
  | outbound =>
      have other : dropLead "inbound>>>".toList ("outbound>>>".toList ++ rest) = none := by simp [dropLead]
      rw [CounterKind.lead, other, dropLead_append]
      simp [read]

theorem findSubmatch_tag {key : CounterKey} (plain : Plain key.subject) (tagged : key.kind ≠ .user) :
    findSubmatch trafficRegex key.name.toList = some (decide (key.kind = .inbound), key.subject, key.isDown) :=
  findSubmatch_start (trafficRegex_name tagged plain key.isDown)

theorem findSubmatch_user {key : CounterKey} (plain : Plain key.subject) (user : key.kind = .user) :
    findSubmatch trafficRegex key.name.toList = none ∧
      findSubmatch clientTrafficRegex key.name.toList = some (key.subject, key.isDown) := by
  obtain ⟨kind, subject, isDown⟩ := key
  cases user
  have own : readsAs (CounterKey.name ⟨.user, subject, isDown⟩) = some (subject, isDown) := readsAs_counterName plain isDown
  unfold readsAs at own
  split at own
  · cases own
  · rename_i unmatched
    exact ⟨unmatched, own⟩

theorem readKey_name {key : CounterKey} (plain : Plain key.subject) : readKey key.name = some key := by
  unfold readKey
  by_cases user : key.kind = .user
  · obtain ⟨unmatched, own⟩ := findSubmatch_user plain user
    rw [unmatched, own, Option.map_some, ← user]
  · rw [findSubmatch_tag plain user]
    obtain ⟨kind, subject, isDown⟩ := key
    cases kind with
    | user => exact absurd rfl user
    | inbound | outbound => rfl

theorem name_injective {key key' : CounterKey} (plain : Plain key.subject) (plain' : Plain key'.subject)
    (same : key.name = key'.name) : key = key' := by
  have read := readKey_name plain
  rw [same, readKey_name plain'] at read
  exact (Option.some.inj read).symm

/-! ## Going through an answer -/

theorem readStat_key (st : Reading) {key : CounterKey} (plain : Plain key.subject) (value : Int) :
    readStat false st (key.name, value) =
      let gained := accrued st.statsLastValues[key.name]? value
      let st := { st with statsLastValues := st.statsLastValues.insert key.name value }
      match key.kind with
      | .user => { st with emailTrafficMap := processClientTraffic key.subject key.isDown gained st.emailTrafficMap }
      | kind =>
          { st with
            tagTrafficMap := processTraffic (decide (kind = .inbound)) key.subject key.isDown gained st.tagTrafficMap } := by
  unfold readStat
  by_cases user : key.kind = .user
  · obtain ⟨unmatched, own⟩ := findSubmatch_user plain user
    simp only [Bool.false_eq_true, if_false, unmatched, own, user]
  · simp only [Bool.false_eq_true, if_false, findSubmatch_tag plain user]

@[simp] theorem valueOf_nil (key : CounterKey) : valueOf ([] : List (CounterKey × α)) key = none := rfl

theorem valueOf_cons (e : CounterKey × α) (stats : List (CounterKey × α)) (key : CounterKey) :
    valueOf (e :: stats) key = if e.1 = key then some e.2 else valueOf stats key := by
  unfold valueOf
  rw [List.find?_cons]
  by_cases same : e.1 = key <;> simp [same]

theorem valueOf_none {stats : List (CounterKey × α)} {key : CounterKey} :
    valueOf stats key = none ↔ key ∉ stats.map (·.1) := by
  induction stats with
  | nil => simp
  | cons e stats ih =>
      rw [valueOf_cons]
      by_cases same : e.1 = key
      · simp [same]
      · rw [if_neg same, ih]
        simp [Ne.symm same]

theorem valueOf_mem {stats : List (CounterKey × α)} {key : CounterKey} {value : α} (here : valueOf stats key = some value) :
    (key, value) ∈ stats := by
  obtain ⟨e, found, rfl⟩ := Option.map_eq_some_iff.mp here
  have same : e.1 = key := by simpa using List.find?_some found
  exact same ▸ List.mem_of_find?_eq_some found

def readAll (stats : List (CounterKey × Int)) (st : Reading) : Reading :=
  stats.foldl (fun st e => readStat false st (e.1.name, e.2)) st

section
variable {stats : List (CounterKey × Int)} (distinct : (stats.map (·.1.name)).Nodup)
include distinct

theorem valueOf_of_mem {e : CounterKey × Int} (mem : e ∈ stats) : valueOf stats e.1 = some e.2 := by
  induction stats with
  | nil => cases mem
  | cons a stats ih =>
      rw [List.map_cons, List.nodup_cons] at distinct
      rw [valueOf_cons]
      rcases List.mem_cons.mp mem with rfl | mem
      · rw [if_pos rfl]
      · rw [if_neg, ih distinct.2 mem]
        intro same
        exact distinct.1 (List.mem_map.mpr ⟨e, mem, by rw [same]⟩)

theorem readAll_slot (obs : Reading → Int) {key : CounterKey}
    (slot : ∀ (st : Reading), ∀ e ∈ stats, obs (readStat false st (e.1.name, e.2)) =
      if e.1 = key then accrued st.statsLastValues[key.name]? e.2 else obs st) (st : Reading) :
    obs (readAll stats st) = match valueOf stats key with
      | some value => accrued st.statsLastValues[key.name]? value
      | none => obs st := by
  induction stats generalizing st with
  | nil => rfl
  | cons e stats ih =>
      rw [List.map_cons, List.nodup_cons] at distinct
      have rest := ih distinct.2 (fun st e mem => slot st e (List.mem_cons_of_mem _ mem))
        (readStat false st (e.1.name, e.2))
      have first := slot st e List.mem_cons_self
      show obs (readAll stats (readStat false st (e.1.name, e.2))) = _
      rw [rest, valueOf_cons]
      by_cases same : e.1 = key
      · have gone : valueOf stats key = none := by
          rw [valueOf_none]
          intro mem
          obtain ⟨e', there, rfl⟩ := List.mem_map.mp mem
          exact distinct.1 (List.mem_map.mpr ⟨e', there, by rw [← same]⟩)
        rw [gone, if_pos same]
        exact first.trans (if_pos same)
      · rw [if_neg same]
        cases there : valueOf stats key with
        | none => exact first.trans (if_neg same)
        | some value =>
            have other : e.1.name ≠ key.name := by
              intro same
              exact distinct.1 (same ▸ List.mem_map.mpr ⟨_, valueOf_mem there, rfl⟩)
            dsimp only
            rw [readStat_last, Std.ExtTreeMap.getElem?_insert]
            simp [other]

theorem readAll_keeps (inv : Reading → Prop) {st : Reading}
    (keeps : ∀ (st' : Reading), ∀ e ∈ stats, st'.statsLastValues[e.1.name]? = st.statsLastValues[e.1.name]? → inv st' →
      inv (readStat false st' (e.1.name, e.2))) (start : inv st) : inv (readAll stats st) := by
  have go : ∀ (rest : List (CounterKey × Int)) (st' : Reading), (rest.map (·.1.name)).Nodup → (∀ e ∈ rest, e ∈ stats) →
      (∀ e ∈ rest, st'.statsLastValues[e.1.name]? = st.statsLastValues[e.1.name]?) → inv st' → inv (readAll rest st') := by
    intro rest
    induction rest with
    | nil => exact fun _ _ _ _ held => held
    | cons e rest ih =>
        intro st' distinct within fresh held
        rw [List.map_cons, List.nodup_cons] at distinct
        obtain ⟨here, within⟩ := List.forall_mem_cons.mp within
        obtain ⟨first, fresh⟩ := List.forall_mem_cons.mp fresh
        apply ih _ distinct.2 within _ (keeps st' e here first held)
        intro e' mem
        have other : e.1.name ≠ e'.1.name := by
          intro same
          exact distinct.1 (same ▸ List.mem_map.mpr ⟨_, mem, rfl⟩)
        rw [readStat_last, Std.ExtTreeMap.getElem?_insert]
        simpa [other] using fresh e' mem
  exact go stats st distinct (fun _ mem => mem) (fun _ _ => rfl) start

end

/-! ## What a call reports -/

def KeyedTags (traffics : Std.ExtTreeMap String Traffic) : Prop :=
  ∀ (tag : String) (t : Traffic), traffics[tag]? = some t → t.tag = tag

def Reading.holds (st : Reading) (key : CounterKey) : Int :=
  match key.kind with
  | .user => reported st.emailTrafficMap[key.subject]? key.isDown
  | kind =>
      match st.tagTrafficMap[key.subject]? with
      | some t => if t.isInbound = decide (kind = .inbound) then t.toward key.isDown else 0
      | none => 0

theorem processTraffic_keyed {traffics : Std.ExtTreeMap String Traffic} (keys : KeyedTags traffics) (isInbound : Bool)
    (tag : String) (isDown : Bool) (value : Int) : KeyedTags (processTraffic isInbound tag isDown value traffics) := by
  intro other t here
  unfold processTraffic at here
  split at here
  · exact keys other t here
  · rw [Std.ExtTreeMap.getElem?_insert] at here
    split at here
    · rename_i same
      have same : tag = other := by simpa using same
      subst same
      have kept : (traffics[tag]?.getD ⟨isInbound, tag, 0, 0⟩).tag = tag := by
        cases there : traffics[tag]? with
        | none => rfl
        | some t => exact keys tag t there
      cases isDown <;> cases here <;> exact kept
    · exact keys other t here

theorem readAll_keyed {stats : List (CounterKey × Int)} {st : Reading} (plain : ∀ e ∈ stats, Plain e.1.subject)
    (keys : Keyed st.emailTrafficMap ∧ KeyedTags st.tagTrafficMap) :
    Keyed (readAll stats st).emailTrafficMap ∧ KeyedTags (readAll stats st).tagTrafficMap := by
  apply foldl_invariant (fun st : Reading => Keyed st.emailTrafficMap ∧ KeyedTags st.tagTrafficMap) keys
  intro st e mem held
  refine ⟨readStat_keyed _ _ _ held.1, ?_⟩
  rw [readStat_key st (plain e mem)]
  dsimp only
  split
  · exact held.2
  · exact processTraffic_keyed held.2 _ _ _ _

theorem reportedFor_holds {st : Reading} (keys : Keyed st.emailTrafficMap ∧ KeyedTags st.tagTrafficMap)
    (key : CounterKey) :
    reportedFor (st.tagTrafficMap.toList.map (·.2)) (st.emailTrafficMap.toList.map (·.2)) key = st.holds key := by
  obtain ⟨kind, subject, isDown⟩ := key
  have emails : (st.emailTrafficMap.toList.map (·.2)).filter (·.email = subject) = st.emailTrafficMap[subject]?.toList :=
    values_filter keys.1 subject
  have tags : (st.tagTrafficMap.toList.map (·.2)).filter (·.tag = subject) = st.tagTrafficMap[subject]?.toList :=
    values_filter keys.2 subject
  have kinds (isInbound : Bool) : (st.tagTrafficMap.toList.map (·.2)).filter
      (fun t => t.isInbound = isInbound ∧ t.tag = subject) =
        (st.tagTrafficMap[subject]?.toList).filter fun t => t.isInbound = isInbound := by
    rw [← tags, List.filter_filter]
    simp
  cases kind with
  | user =>
      show ((List.filter _ _).map _).sum = reported _ _
      rw [emails]
      cases st.emailTrafficMap[subject]? <;> simp [reported]
  | inbound | outbound =>
      show ((List.filter _ _).map _).sum = match st.tagTrafficMap[subject]? with
        | some t => _
        | none => _
      rw [kinds]
      cases st.tagTrafficMap[subject]? with
      | none => rfl
      | some t => cases inb : t.isInbound <;> simp [inb, Option.toList]

/-! ## The entry of a tag -/

def Reading.along (st : Reading) (tag : String) (isDown : Bool) : Int :=
  (st.tagTrafficMap[tag]?.map (·.toward isDown)).getD 0

theorem processTraffic_at (isInbound : Bool) (tag : String) (isDown : Bool) (value : Int)
    (traffics : Std.ExtTreeMap String Traffic) (other : String) :
    (processTraffic isInbound tag isDown value traffics)[other]? =
      if tag = other ∧ tag ≠ "api" then
        some (let t : Traffic := traffics[tag]?.getD ⟨isInbound, tag, 0, 0⟩
          if isDown then { t with down := value } else { t with up := value })
      else traffics[other]? := by
  unfold processTraffic
  by_cases own : tag = "api"
  · rw [if_pos own, if_neg (by simp [own])]
  · rw [if_neg own]
    dsimp only
    rw [Std.ExtTreeMap.getElem?_insert]
    by_cases same : tag = other
    · have counted : ¬ other = "api" := same ▸ own
      simp [same, counted]
    · simp [same]

def OfKind (isInbound : Bool) (tag : String) (st : Reading) : Prop :=
  ∀ t ∈ st.tagTrafficMap[tag]?, t.isInbound = isInbound

theorem readStat_ofKind {st : Reading} {key : CounterKey} (plain : Plain key.subject) (value : Int) {isInbound : Bool}
    {tag : String} (held : OfKind isInbound tag st)
    (own : key.kind ≠ .user → key.subject = tag → decide (key.kind = .inbound) = isInbound) :
    OfKind isInbound tag (readStat false st (key.name, value)) := by
  intro t here
  rw [readStat_key st plain] at here
  dsimp only at here
  split at here
  · exact held t here
  · rename_i notUser
    dsimp only at here
    rw [processTraffic_at] at here
    split at here
    · rename_i same
      obtain ⟨rfl, -⟩ := same
      have kind : (st.tagTrafficMap[key.subject]?.getD
          ⟨decide (key.kind = .inbound), key.subject, 0, 0⟩).isInbound = isInbound := by
        cases there : st.tagTrafficMap[key.subject]? with
        | none => exact own notUser rfl
        | some t => exact held t there
      rw [Option.mem_def, Option.some.injEq] at here
      rw [← here, ← kind]
      cases key.isDown <;> rfl
    · exact held t here

theorem readStat_along {st : Reading} {key : CounterKey} (plain : Plain key.subject) (value : Int) (tag : String)
    (isDown : Bool) :
    (readStat false st (key.name, value)).along tag isDown =
      if key.kind ≠ .user ∧ key.subject = tag ∧ tag ≠ "api" ∧ key.isDown = isDown then
        accrued st.statsLastValues[key.name]? value
      else st.along tag isDown := by
  unfold Reading.along
  rw [readStat_key st plain]
  dsimp only
  split
  · rename_i user
    rw [if_neg (by simp [user])]
  · rename_i notUser
    dsimp only
    rw [processTraffic_at]
    have notUser : ¬ key.kind = .user := notUser
    by_cases same : key.subject = tag ∧ key.subject ≠ "api"
    · obtain ⟨rfl, counted⟩ := same
      rw [if_pos ⟨rfl, counted⟩]
      cases st.tagTrafficMap[key.subject]? <;> cases down : key.isDown <;> cases isDown <;>
        simp [Traffic.toward, notUser, counted]
    · rw [if_neg same, if_neg]
      rintro ⟨-, rfl, counted, -⟩
      exact same ⟨rfl, counted⟩

/-! ## One call -/

def TrafficApi.read (s : TrafficApi) (c : Call) (key : CounterKey) : Int :=
  match valueOf c.stats key with
  | some value => accrued s.statsLastValues[key.name]? value
  | none => 0

section
variable {s : TrafficApi} {c : Call}

theorem holds_user (plain : ∀ e ∈ c.stats, Plain e.1.subject) (distinct : (c.stats.map (·.1.name)).Nodup)
    {key : CounterKey} (user : key.kind = .user) :
    (readAll c.stats { statsLastValues := s.statsLastValues }).holds key = s.read c key := by
  have shown (st : Reading) : st.holds key = reported st.emailTrafficMap[key.subject]? key.isDown := by
    unfold Reading.holds
    rw [user]
  have slot : ∀ (st : Reading), ∀ e ∈ c.stats, Reading.holds (readStat false st (e.1.name, e.2)) key =
      if e.1 = key then accrued st.statsLastValues[key.name]? e.2 else st.holds key := by
    intro st e mem
    rw [shown, shown, readStat_key st (plain e mem)]
    dsimp only
    split
    · rename_i kind
      dsimp only
      rw [reported_processClientTraffic]
      by_cases same : e.1 = key
      · rw [if_pos same, if_pos (by simp [same]), same]
      · rw [if_neg same, if_neg]
        rintro ⟨subject, isDown⟩
        exact same (CounterKey.ext (kind.trans user.symm) subject isDown)
    · rename_i notUser
      rw [if_neg]
      rintro rfl
      exact notUser user
  rw [readAll_slot distinct (·.holds key) slot, TrafficApi.read]
  cases valueOf c.stats key with
  | some value => rfl
  | none => simp [shown, reported]

theorem holds_entry {key : CounterKey} (tagged : key.kind ≠ .user) (st : Reading) :
    st.holds key = match st.tagTrafficMap[key.subject]? with
      | some t => if t.isInbound = decide (key.kind = .inbound) then t.toward key.isDown else 0
      | none => 0 := by
  unfold Reading.holds
  split
  · rename_i user
    exact absurd user tagged
  · rfl

theorem holds_still (plain : ∀ e ∈ c.stats, Plain e.1.subject) (distinct : (c.stats.map (·.1.name)).Nodup)
    {key : CounterKey} (tagged : key.kind ≠ .user)
    (still : ∀ e ∈ c.stats, e.1.kind ≠ .user → e.1.subject = key.subject → s.read c e.1 = 0) :
    (readAll c.stats { statsLastValues := s.statsLastValues }).holds key = 0 := by
  have quiet : ∀ isDown, (readAll c.stats { statsLastValues := s.statsLastValues }).along key.subject isDown = 0 := by
    apply readAll_keeps distinct (fun st => ∀ isDown, st.along key.subject isDown = 0)
    · intro st e mem same held isDown
      rw [readStat_along (plain e mem)]
      split
      · rename_i own
        have gained := still e mem own.1 own.2.1
        rw [TrafficApi.read, valueOf_of_mem distinct mem] at gained
        rw [same]
        exact gained
      · exact held isDown
    · simp [Reading.along]
  have none' := quiet key.isDown
  rw [Reading.along] at none'
  rw [holds_entry tagged]
  cases entry : (readAll c.stats { statsLastValues := s.statsLastValues }).tagTrafficMap[key.subject]? with
  | none => rfl
  | some t =>
      rw [entry, Option.map_some, Option.getD_some] at none'
      dsimp only
      rw [none', ite_self]

theorem holds_single (plain : ∀ e ∈ c.stats, Plain e.1.subject) (distinct : (c.stats.map (·.1.name)).Nodup)
    {key : CounterKey} (tagged : key.kind ≠ .user) (counted : key.subject ≠ "api") {isInbound : Bool}
    (own : ∀ e ∈ c.stats, e.1.kind ≠ .user → e.1.subject = key.subject → decide (e.1.kind = .inbound) = isInbound) :
    (readAll c.stats { statsLastValues := s.statsLastValues }).holds key = s.read c key := by
  have kind : OfKind isInbound key.subject (readAll c.stats { statsLastValues := s.statsLastValues }) := by
    apply readAll_keeps distinct (OfKind isInbound key.subject)
    · exact fun st e mem _ held => readStat_ofKind (plain e mem) e.2 held (own e mem)
    · simp [OfKind]
  by_cases same : decide (key.kind = .inbound) = isInbound
  · have slot : ∀ (st : Reading), ∀ e ∈ c.stats,
        (readStat false st (e.1.name, e.2)).along key.subject key.isDown =
          if e.1 = key then accrued st.statsLastValues[key.name]? e.2 else st.along key.subject key.isDown := by
      intro st e mem
      rw [readStat_along (plain e mem)]
      by_cases here : e.1 = key
      · rw [if_pos here, if_pos (by simp [here, tagged, counted]), here]
      · rw [if_neg here, if_neg]
        rintro ⟨notUser, subject, -, isDown⟩
        apply here
        apply CounterKey.ext _ subject isDown
        have kinds := (own e mem notUser subject).trans same.symm
        cases h : e.1.kind <;> cases h' : key.kind <;> simp_all
    have read : (readAll c.stats { statsLastValues := s.statsLastValues }).along key.subject key.isDown = s.read c key := by
      rw [TrafficApi.read, readAll_slot distinct (·.along key.subject key.isDown) slot]
      cases valueOf c.stats key with
      | some value => rfl
      | none => simp [Reading.along]
    rw [holds_entry tagged, ← read, Reading.along]
    cases entry : (readAll c.stats { statsLastValues := s.statsLastValues }).tagTrafficMap[key.subject]? with
    | none => rfl
    | some t => simp [same, kind t entry]
  · have absent : valueOf c.stats key = none := by
      rw [valueOf_none]
      intro mem
      obtain ⟨e, there, rfl⟩ := List.mem_map.mp mem
      exact same (own e there tagged rfl)
    rw [holds_entry tagged, TrafficApi.read, absent]
    cases entry : (readAll c.stats { statsLastValues := s.statsLastValues }).tagTrafficMap[key.subject]? with
    | none => rfl
    | some t => simp [kind t entry, Ne.symm same]

theorem holds_tag (plain : ∀ e ∈ c.stats, Plain e.1.subject) (distinct : (c.stats.map (·.1.name)).Nodup)
    {key : CounterKey} (tagged : key.kind ≠ .user) (counted : key.subject ≠ "api")
    (apart : ∀ e ∈ c.stats, ∀ e' ∈ c.stats, e.1.kind = .inbound → e'.1.kind = .outbound → e.1.subject = key.subject →
      e'.1.subject = key.subject → s.read c e.1 = 0 ∧ s.read c e'.1 = 0) :
    (readAll c.stats { statsLastValues := s.statsLastValues }).holds key = s.read c key := by
  by_cases inbound : ∃ e ∈ c.stats, e.1.kind = .inbound ∧ e.1.subject = key.subject
  · obtain ⟨e, mem, inb, tag⟩ := inbound
    by_cases outbound : ∃ e ∈ c.stats, e.1.kind = .outbound ∧ e.1.subject = key.subject
    · obtain ⟨e', mem', out, tag'⟩ := outbound
      have still : ∀ a ∈ c.stats, a.1.kind ≠ .user → a.1.subject = key.subject → s.read c a.1 = 0 := by
        intro a there notUser same
        cases kind : a.1.kind with
        | user => exact absurd kind notUser
        | inbound => exact (apart a there e' mem' kind out same tag').1
        | outbound => exact (apart e mem a there inb kind tag same).2
      rw [holds_still plain distinct tagged still]
      cases there : valueOf c.stats key with
      | none => rw [TrafficApi.read, there]
      | some value => exact (still _ (valueOf_mem there) tagged rfl).symm
    · apply holds_single plain distinct tagged counted
      intro a there notUser same
      cases kind : a.1.kind with
      | user => exact absurd kind notUser
      | inbound => rfl
      | outbound => exact absurd ⟨a, there, kind, same⟩ outbound
  · apply holds_single plain distinct tagged counted
    intro a there _ same
    rw [decide_eq_false_iff_not]
    exact fun inb => inbound ⟨a, there, inb, same⟩

end

/-! ## A run -/

/-- The last values are those last seen, but for counters of an earlier core that were dropped. -/
structure TrafficApi.Tracks (s : TrafficApi) : Prop where
  start : s.called = false → s.seen = []
  empty : s.statsLastValues.isEmpty = true ↔ s.seen = []
  plain : ∀ key ∈ s.seen.map (·.1), Plain key.subject
  fresh : ∀ key, Plain key.subject → valueOf s.seen key = none → s.statsLastValues[key.name]? = none
  known : ∀ key last, valueOf s.seen key = some last → last.1 ≤ s.generation ∧
    (s.statsLastValues[key.name]? = some last.2 ∨ (s.statsLastValues[key.name]? = none ∧ last.1 < s.generation))

theorem tracks_start : TrafficApi.Tracks {} where
  start := fun _ => rfl
  empty := by simp
  plain := by simp
  fresh := by simp
  known := by simp

section
variable {s t : TrafficApi} {c : Call}

theorem names_distinct (plain : ∀ e ∈ c.stats, Plain e.1.subject) (distinct : (c.stats.map (·.1)).Nodup) :
    (c.stats.map (·.1.name)).Nodup := by
  have names : c.stats.map (·.1.name) = (c.stats.map (·.1)).map CounterKey.name := by rw [List.map_map]; rfl
  rw [names]
  apply distinct.map_on
  intro a mem a' mem' same
  obtain ⟨e, there, rfl⟩ := List.mem_map.mp mem
  obtain ⟨e', there', rfl⟩ := List.mem_map.mp mem'
  exact name_injective (plain e there) (plain e' there') same

theorem call_names : c.answer.map (·.1) = c.stats.map (·.1.name) := by
  rw [Call.answer, List.map_map]
  rfl

theorem read_gain (tracks : s.Tracks) (follows : s.Follows c) (plain : ∀ e ∈ c.stats, Plain e.1.subject) (key : CounterKey) :
    s.read c key = s.gain c key := by
  obtain ⟨later, -, -, grows⟩ := follows
  rw [TrafficApi.read, TrafficApi.gain]
  cases there : valueOf c.stats key with
  | none => rfl
  | some value =>
      dsimp only
      have own := plain _ (valueOf_mem there)
      cases seen : valueOf s.seen key with
      | none => rw [tracks.fresh key own seen]; rfl
      | some last =>
          have grown := grows key (by rw [← not_not (a := key ∈ _), ← valueOf_none, seen]; simp) last seen
          rw [there] at grown
          dsimp only at grown ⊢
          obtain ⟨-, held | ⟨dropped, older⟩⟩ := tracks.known key last seen
          · rw [held, accrued]
            by_cases same : last.1 = c.generation
            · rw [if_pos same] at grown ⊢
              rw [if_neg (by omega)]
            · rw [if_neg same] at grown ⊢
              rcases grown with smaller | idle
              · rw [if_pos smaller]
              · rw [idle, sub_zero, ite_self]
          · rw [dropped, accrued, if_neg (by omega)]

theorem valueOf_append (front back : List (CounterKey × α)) (key : CounterKey) :
    valueOf (front ++ back) key = (valueOf front key).or (valueOf back key) := by
  induction front with
  | nil => rfl
  | cons e front ih =>
      rw [List.cons_append, valueOf_cons, valueOf_cons, ih]
      split <;> rfl

theorem valueOf_stamped (stats : List (CounterKey × Int)) (generation : Nat) (key : CounterKey) :
    valueOf (stats.map fun (key, value) => (key, generation, value)) key = (valueOf stats key).map (generation, ·) := by
  induction stats with
  | nil => rfl
  | cons e stats ih =>
      rw [List.map_cons, valueOf_cons, valueOf_cons, ih]
      dsimp only
      split <;> rfl

theorem last_read (plain : ∀ e ∈ c.stats, Plain e.1.subject) (distinct : (c.stats.map (·.1)).Nodup) {e : CounterKey × Int}
    (mem : e ∈ c.stats) : (getTraffic s.statsLastValues c.answer).1[e.1.name]? = some e.2 := by
  have listed : (e.1.name, e.2) ∈ c.answer := List.mem_map.mpr ⟨e, mem, rfl⟩
  have names : e.1.name ∈ c.answer.map (·.1) := List.mem_map.mpr ⟨_, listed, rfl⟩
  have read := (readStats_last s.statsLastValues.isEmpty c.answer { statsLastValues := s.statsLastValues }
    (call_names ▸ names_distinct plain distinct)).1 _ _ listed
  show (pruned (readStats s.statsLastValues c.answer).statsLastValues c.answer)[e.1.name]? = some e.2
  rw [pruned_kept _ _ _ names (by rw [readStats, read]; rfl)]
  exact read

theorem last_absent (plain : ∀ e ∈ c.stats, Plain e.1.subject) (distinct : (c.stats.map (·.1)).Nodup) {key : CounterKey}
    (own : Plain key.subject) (absent : valueOf c.stats key = none) :
    (getTraffic s.statsLastValues c.answer).1[key.name]? = s.statsLastValues[key.name]? ∨
      (getTraffic s.statsLastValues c.answer).1[key.name]? = none := by
  have fresh : key.name ∉ c.answer.map (·.1) := by
    rw [call_names]
    intro mem
    obtain ⟨e, there, same⟩ := List.mem_map.mp mem
    rw [valueOf_none] at absent
    exact absent (List.mem_map.mpr ⟨e, there, name_injective (plain e there) own same⟩)
  have read := (readStats_last s.statsLastValues.isEmpty c.answer { statsLastValues := s.statsLastValues }
    (call_names ▸ names_distinct plain distinct)).2 _ fresh
  show (pruned (readStats s.statsLastValues c.answer).statsLastValues c.answer)[key.name]? = _ ∨ _
  rw [← show (readStats s.statsLastValues c.answer).statsLastValues[key.name]? = s.statsLastValues[key.name]? from read]
  exact pruned_absent _ _ fresh

theorem next_some (step : s.next c = some t) : s.Follows c ∧
    t.statsLastValues = (getTraffic s.statsLastValues c.answer).1 ∧ t.called = true ∧ t.generation = c.generation ∧
    t.seen = (c.stats.map fun (key, value) => (key, c.generation, value)) ++ s.seen ∧
    (∀ key, t.gained key = if s.called then s.gained key + s.gain c key else 0) ∧
    ∀ key, t.reported key = if s.called then s.reported key + s.report c key else 0 := by
  unfold TrafficApi.next at step
  split at step
  · cases step
    exact ⟨by assumption, rfl, rfl, rfl, rfl, fun _ => rfl, fun _ => rfl⟩
  · cases step

theorem tracks_step (tracks : s.Tracks) (plain : ∀ e ∈ c.stats, Plain e.1.subject) (step : s.next c = some t) : t.Tracks := by
  obtain ⟨⟨later, distinct, -, grows⟩, last, called, generation, seen, -, -⟩ := next_some step
  have known (key : CounterKey) : valueOf t.seen key =
      ((valueOf c.stats key).map (c.generation, ·)).or (valueOf s.seen key) := by
    rw [seen, valueOf_append, valueOf_stamped]
  constructor
  · intro uncalled
    rw [called] at uncalled
    cases uncalled
  · rw [last, seen]
    cases stats : c.stats with
    | nil =>
        have unchanged : (getTraffic s.statsLastValues c.answer).1 = s.statsLastValues := by
          simp [Call.answer, stats, getTraffic, readStats, pruned]
        rw [unchanged]
        exact tracks.empty
    | cons e stats' =>
        have here := last_read (s := s) plain distinct (e := e) (by rw [stats]; exact List.mem_cons_self)
        constructor
        · intro empty
          rw [Std.ExtTreeMap.isEmpty_iff.mp empty] at here
          simp at here
        · intro nothing
          cases nothing
  · intro key mem
    rw [seen, List.map_append, List.mem_append] at mem
    rcases mem with new | old
    · rw [List.map_map] at new
      obtain ⟨e, there, rfl⟩ := List.mem_map.mp new
      exact plain e there
    · exact tracks.plain key old
  · intro key own unseen
    rw [known, Option.or_eq_none_iff, Option.map_eq_none_iff] at unseen
    rw [last]
    rcases last_absent (s := s) plain distinct own unseen.1 with same | dropped
    · rw [same]
      exact tracks.fresh key own unseen.2
    · exact dropped
  · intro key held shown
    rw [known] at shown
    rw [generation, last]
    cases there : valueOf c.stats key with
    | some value =>
        rw [there, Option.map_some, Option.some_or, Option.some.injEq] at shown
        have here := last_read (s := s) plain distinct (valueOf_mem there)
        subst shown
        exact ⟨Nat.le_refl _, .inl here⟩
    | none =>
        rw [there, Option.map_none, Option.none_or] at shown
        have mem : key ∈ s.seen.map (·.1) := List.mem_map.mpr ⟨_, valueOf_mem shown, rfl⟩
        obtain ⟨bound, before⟩ := tracks.known key held shown
        have other := grows key mem held shown
        rw [there] at other
        dsimp only at other
        refine ⟨by omega, ?_⟩
        rcases last_absent (s := s) plain distinct (tracks.plain key mem) there with same | dropped
        · rw [same]
          rcases before with kept | ⟨gone, -⟩
          · exact .inl kept
          · exact .inr ⟨gone, by omega⟩
        · exact .inr ⟨dropped, by omega⟩

theorem readStats_quiet (answer : List (String × Int)) (last : Counters) :
    (answer.foldl (readStat true) { statsLastValues := last }).tagTrafficMap = ∅ ∧
      (answer.foldl (readStat true) { statsLastValues := last }).emailTrafficMap = ∅ :=
  ⟨foldl_frame (f := readStat true) Reading.tagTrafficMap fun _ _ _ => rfl,
    foldl_frame (f := readStat true) Reading.emailTrafficMap fun _ _ _ => rfl⟩

theorem report_gain (tracks : s.Tracks) (follows : s.Follows c) (sorted : s.Sorted c) (called : s.called = true)
    {key : CounterKey} (counted : key.counted = true) : s.report c key = s.gain c key := by
  have distinct := names_distinct sorted.plain follows.2.1
  have reads := read_gain tracks follows sorted.plain
  show reportedFor ((readStats s.statsLastValues c.answer).tagTrafficMap.toList.map (·.2))
    ((readStats s.statsLastValues c.answer).emailTrafficMap.toList.map (·.2)) key = _
  unfold readStats
  cases first : s.statsLastValues.isEmpty with
  | true =>
      obtain ⟨tags, emails⟩ := readStats_quiet c.answer s.statsLastValues
      have silent : reportedFor [] [] key = 0 := by
        unfold reportedFor
        split <;> rfl
      have none' : (∅ : Std.ExtTreeMap String Traffic).toList = [] ∧ (∅ : Std.ExtTreeMap String ClientUse).toList = [] :=
        ⟨rfl, rfl⟩
      rw [tags, emails, none'.1, none'.2]
      refine silent.trans ?_
      have unseen := tracks.empty.mp first
      rw [TrafficApi.gain, unseen, valueOf_nil]
      cases there : valueOf c.stats key with
      | none => rfl
      | some value => exact (sorted.start called unseen _ (valueOf_mem there)).symm
  | false =>
      have pass : c.answer.foldl (readStat false) { statsLastValues := s.statsLastValues } =
          readAll c.stats { statsLastValues := s.statsLastValues } := List.foldl_map
      have keyed : Keyed (readAll c.stats { statsLastValues := s.statsLastValues }).emailTrafficMap ∧
          KeyedTags (readAll c.stats { statsLastValues := s.statsLastValues }).tagTrafficMap :=
        readAll_keyed sorted.plain ⟨fun _ _ here => by simp at here, fun _ _ here => by simp at here⟩
      rw [pass, reportedFor_holds keyed, ← reads]
      by_cases user : key.kind = .user
      · exact holds_user sorted.plain distinct user
      · have tag : key.subject ≠ "api" := by simpa [CounterKey.counted, user] using counted
        apply holds_tag sorted.plain distinct user tag
        intro e mem e' mem' inb out same same'
        rw [reads, reads]
        exact sorted.apart called e mem e' mem' inb out (same.trans same'.symm) (same ▸ tag)

end

/-- In every run of calls with readable names, whose first counters count from zero and in which tags are not shared: each
call after the first reports for every counter what it gained since the call before, and the reports of all calls add up
to all it gained since the first. -/
theorem deltas_exact {s : TrafficApi} (run : trafficCalls.Path TrafficApi.Sorted {} s) :
    (∀ key, key.counted = true → s.reported key = s.gained key) ∧
      ∀ c t, s.called = true → s.Sorted c → trafficCalls.next s c = some t →
        ∀ key, key.counted = true → s.report c key = s.gain c key := by
  obtain ⟨tracks, totals⟩ : s.Tracks ∧ ∀ key, key.counted = true → s.reported key = s.gained key := by
    apply run.invariant (fun s => s.Tracks ∧ ∀ key, key.counted = true → s.reported key = s.gained key)
      ⟨tracks_start, fun _ _ => rfl⟩
    intro s c t held sorted step
    obtain ⟨follows, -, -, -, -, gained, reported⟩ := next_some step
    refine ⟨tracks_step held.1 sorted.plain step, ?_⟩
    intro key counted
    rw [gained, reported]
    cases called : s.called with
    | false => rfl
    | true => rw [if_pos rfl, if_pos rfl, held.2 key counted, report_gain held.1 follows sorted called counted]
  refine ⟨totals, ?_⟩
  intro c t called sorted step key counted
  exact report_gain tracks (next_some step).1 sorted called counted

def annaUp : CounterKey := ⟨.user, "anna", false⟩

def officeUp (kind : CounterKind) : CounterKey := ⟨kind, "office", false⟩

def restartedCalls : List Call :=
  [⟨0, [(annaUp, 5)]⟩, ⟨0, [(officeUp .inbound, 7), (annaUp, 105)]⟩, ⟨1, [(annaUp, 3)]⟩]

theorem deltas_exact_restart : ∃ s, trafficCalls.runWith TrafficApi.Sorted {} restartedCalls = some s ∧
    s.reported annaUp = s.gained annaUp ∧ s.reported annaUp = 103 ∧ s.reported (officeUp .inbound) = s.gained (officeUp .inbound) := by
  have runs : (trafficCalls.runWith TrafficApi.Sorted {} restartedCalls).isSome = true := by decide +kernel
  have counted (h) : TrafficApi.reported ((trafficCalls.runWith TrafficApi.Sorted {} restartedCalls).get h) annaUp = 103 := by
    revert h
    decide +kernel
  obtain ⟨same, -⟩ := deltas_exact (System.runWith_path (Option.some_get runs).symm)
  exact ⟨_, (Option.some_get runs).symm, same annaUp rfl, counted runs, same (officeUp .inbound) rfl⟩

/-- The bytes of an inbound are lost under those of an outbound with its tag, and the bytes a client uses before the first
call that shows a counter are reported by no call. -/
theorem deltas_lost :
    (trafficCalls.run {} [⟨0, [(officeUp .inbound, 0), (officeUp .outbound, 0)]⟩,
        ⟨0, [(officeUp .inbound, 100), (officeUp .outbound, 7)]⟩]).map (fun s =>
      ((s.reported (officeUp .inbound), s.gained (officeUp .inbound)),
        (s.reported (officeUp .outbound), s.gained (officeUp .outbound)))) = some ((7, 100), (0, 7)) ∧
    (trafficCalls.run {} [⟨0, []⟩, ⟨0, [(annaUp, 100)]⟩]).map (fun s => (s.reported annaUp, s.gained annaUp)) =
      some (0, 100) := by
  decide +kernel

end ThreeXNode.Panel
