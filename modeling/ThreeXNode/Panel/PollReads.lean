import ThreeXNode.Panel.Polls

namespace ThreeXNode.Panel
open Library

/-! ## Reading the name of a counter -/

def directionName (isDown : Bool) : String := if isDown then "downlink" else "uplink"

def counterName (email : String) (isDown : Bool) : String := "user>>>" ++ email ++ ">>>traffic>>>" ++ directionName isDown

def readsAs (name : String) : Option (String × Bool) :=
  match findSubmatch trafficRegex name.toList with
  | some _ => none
  | none => findSubmatch clientTrafficRegex name.toList

/-- An email whose counters the job can read back. -/
def Plain (email : String) : Prop := email.toList ≠ [] ∧ '>' ∉ email.toList

theorem findSubmatch_none {here : List Char → Option α} {text : List Char}
    (never : ∀ t, t <:+ text → here t = none) : findSubmatch here text = none := by
  induction text with
  | nil => exact never [] (List.suffix_refl _)
  | cons c text ih =>
      rw [findSubmatch, never _ (List.suffix_refl _), ih fun t suffix => never t (suffix.trans (List.suffix_cons c text))]
      rfl

theorem dropLead_append (lead text : List Char) : dropLead lead (lead ++ text) = some text := by
  simp [dropLead]

theorem dropLead_some {lead text rest : List Char} (h : dropLead lead text = some rest) : text = lead ++ rest := by
  unfold dropLead at h
  split at h
  · rename_i leads
    obtain ⟨tail, rfl⟩ := leads
    simpa using h
  · cases h

theorem readSubject_marks {text : List Char} {r : String × Bool} (h : readSubject text = some r) : 6 ≤ text.count '>' := by
  obtain ⟨rest, dropped, -⟩ := Option.bind_eq_some_iff.mp h
  have cut := dropLead_some dropped
  have whole := List.takeWhile_append_dropWhile (p := (· ≠ '>')) (l := text)
  rw [← whole, cut, List.count_append, List.count_append]
  have six : (">>>traffic>>>".toList).count '>' = 6 := by decide
  omega

theorem trafficRegex_marks {text : List Char} {r : Bool × String × Bool} (h : trafficRegex text = some r) :
    9 ≤ text.count '>' := by
  unfold trafficRegex at h
  split at h
  · rename_i rest dropped
    obtain ⟨s, read, -⟩ := Option.map_eq_some_iff.mp h
    have tail := readSubject_marks read
    rw [dropLead_some dropped, List.count_append]
    have three : ("inbound>>>".toList).count '>' = 3 := by decide
    omega
  · obtain ⟨s, read, -⟩ := Option.map_eq_some_iff.mp h
    obtain ⟨rest, dropped, read⟩ := Option.bind_eq_some_iff.mp read
    have tail := readSubject_marks read
    rw [dropLead_some dropped, List.count_append]
    have three : ("outbound>>>".toList).count '>' = 3 := by decide
    omega

theorem readDirection_name (isDown : Bool) : readDirection (directionName isDown).toList = some isDown := by
  cases isDown <;> decide

theorem readSubject_email {email : String} (plain : Plain email) (isDown : Bool) :
    readSubject (email.toList ++ (">>>traffic>>>".toList ++ (directionName isDown).toList)) = some (email, isDown) := by
  have plainChars : ∀ c ∈ email.toList, (decide (c ≠ '>')) = true := by
    intro c mem
    exact decide_eq_true fun same => plain.2 (same ▸ mem)
  have front : (email.toList ++ (">>>traffic>>>".toList ++ (directionName isDown).toList)).takeWhile (· ≠ '>') =
      email.toList := by
    rw [List.takeWhile_append_of_pos plainChars]
    simp
  have back : (email.toList ++ (">>>traffic>>>".toList ++ (directionName isDown).toList)).dropWhile (· ≠ '>') =
      ">>>traffic>>>".toList ++ (directionName isDown).toList := by
    rw [List.dropWhile_append_of_pos plainChars]
    simp
  unfold readSubject
  simp only [front, back, dropLead_append, readDirection_name, Option.bind_eq_bind, Option.bind_some, if_neg plain.1,
    String.ofList_toList]

theorem counterName_toList (email : String) (isDown : Bool) :
    (counterName email isDown).toList =
      "user>>>".toList ++ (email.toList ++ (">>>traffic>>>".toList ++ (directionName isDown).toList)) := by
  simp [counterName]

theorem readsAs_counterName {email : String} (plain : Plain email) (isDown : Bool) :
    readsAs (counterName email isDown) = some (email, isDown) := by
  have few : (email.toList ++ (">>>traffic>>>".toList ++ (directionName isDown).toList)).count '>' = 6 := by
    rw [List.count_append, List.count_append, List.count_eq_zero_of_not_mem plain.2]
    cases isDown <;> decide
  have tail : findSubmatch trafficRegex
      (email.toList ++ (">>>traffic>>>".toList ++ (directionName isDown).toList)) = none := by
    apply findSubmatch_none
    intro t suffix
    cases read : trafficRegex t with
    | none => rfl
    | some r =>
        have many := trafficRegex_marks read
        have less := suffix.sublist.count_le '>'
        omega
  have noTraffic : findSubmatch trafficRegex (counterName email isDown).toList = none := by
    rw [counterName_toList]
    generalize email.toList ++ (">>>traffic>>>".toList ++ (directionName isDown).toList) = text at tail
    show findSubmatch trafficRegex ('u' :: 's' :: 'e' :: 'r' :: '>' :: '>' :: '>' :: text) = none
    simp [findSubmatch, tail, trafficRegex, dropLead]
  have client : clientTrafficRegex (counterName email isDown).toList = some (email, isDown) := by
    rw [counterName_toList, clientTrafficRegex, dropLead_append]
    exact readSubject_email plain isDown
  unfold readsAs
  rw [noTraffic]
  show findSubmatch clientTrafficRegex (counterName email isDown).toList = some (email, isDown)
  have start : (counterName email isDown).toList ≠ [] := by simp [counterName]
  obtain ⟨c, rest, shape⟩ := List.exists_cons_of_ne_nil start
  rw [shape] at client ⊢
  rw [findSubmatch, client]
  rfl

/-! ## What an answered query reports -/

def ClientUse.toward (t : ClientUse) (isDown : Bool) : Int := if isDown then t.down else t.up

def reported (uses : Option ClientUse) (isDown : Bool) : Int := (uses.map (·.toward isDown)).getD 0

def Owned (email name : String) : Prop := ∀ isDown, readsAs name = some (email, isDown) → name = counterName email isDown

instance (email name : String) : Decidable (Owned email name) := by
  unfold Owned
  infer_instance

@[simp] theorem readStat_last (baselinePass : Bool) (st : Reading) (stat : String × Int) :
    (readStat baselinePass st stat).statsLastValues = st.statsLastValues.insert stat.1 stat.2 := by
  unfold readStat
  cases baselinePass with
  | true => rfl
  | false =>
      simp only [Bool.false_eq_true, if_false]
      split
      · rfl
      · split <;> rfl

theorem readStat_emails (st : Reading) (stat : String × Int) :
    (readStat false st stat).emailTrafficMap =
      match readsAs stat.1 with
      | some (email, isDown) =>
          processClientTraffic email isDown (accrued st.statsLastValues[stat.1]? stat.2) st.emailTrafficMap
      | none => st.emailTrafficMap := by
  unfold readStat readsAs
  simp only [Bool.false_eq_true, if_false]
  cases findSubmatch trafficRegex stat.1.toList with
  | some _ => rfl
  | none => cases findSubmatch clientTrafficRegex stat.1.toList <;> rfl

theorem reported_processClientTraffic (e : String) (d : Bool) (value : Int) (uses : Std.ExtTreeMap String ClientUse)
    (email : String) (isDown : Bool) :
    reported (processClientTraffic e d value uses)[email]? isDown =
      if e = email ∧ d = isDown then value else reported uses[email]? isDown := by
  unfold processClientTraffic
  by_cases same : e = email
  · subst same
    cases uses[e]? <;> cases d <;> cases isDown <;> simp [reported, ClientUse.toward]
  · simp [reported, same, Std.ExtTreeMap.getElem?_insert]

theorem readStat_reported {email : String} (plain : Plain email) (st : Reading) (stat : String × Int)
    (owned : Owned email stat.1) (isDown : Bool) :
    reported (readStat false st stat).emailTrafficMap[email]? isDown =
      if stat.1 = counterName email isDown then accrued st.statsLastValues[stat.1]? stat.2
      else reported st.emailTrafficMap[email]? isDown := by
  rw [readStat_emails]
  cases read : readsAs stat.1 with
  | none =>
      have other : stat.1 ≠ counterName email isDown := by
        intro same
        rw [same, readsAs_counterName plain] at read
        cases read
      simp [other]
  | some whose =>
      obtain ⟨e, d⟩ := whose
      show reported (processClientTraffic e d _ _)[email]? isDown = _
      rw [reported_processClientTraffic]
      by_cases same : e = email ∧ d = isDown
      · obtain ⟨rfl, rfl⟩ := same
        rw [if_pos ⟨rfl, rfl⟩, if_pos (owned d read)]
      · rw [if_neg same, if_neg]
        intro own
        rw [own, readsAs_counterName plain] at read
        cases read
        exact same ⟨rfl, rfl⟩

theorem readStats_last (baselinePass : Bool) (answer : List (String × Int)) (st : Reading)
    (distinct : (answer.map (·.1)).Nodup) :
    (∀ name value, (name, value) ∈ answer → (answer.foldl (readStat baselinePass) st).statsLastValues[name]? = some value) ∧
    ∀ name, name ∉ answer.map (·.1) →
      (answer.foldl (readStat baselinePass) st).statsLastValues[name]? = st.statsLastValues[name]? := by
  induction answer generalizing st with
  | nil => simp
  | cons stat rest ih =>
      rw [List.map_cons, List.nodup_cons] at distinct
      obtain ⟨known, others⟩ := ih (readStat baselinePass st stat) distinct.2
      rw [List.foldl_cons]
      constructor
      · intro name value mem
        rcases List.mem_cons.mp mem with rfl | mem
        · rw [others _ distinct.1]
          simp
        · exact known name value mem
      · intro name fresh
        rw [List.map_cons, List.mem_cons, not_or] at fresh
        rw [others name fresh.2, readStat_last, Std.ExtTreeMap.getElem?_insert]
        simp [Ne.symm fresh.1]

theorem readStats_reported {email : String} (plain : Plain email) (answer : List (String × Int)) (st : Reading)
    (distinct : (answer.map (·.1)).Nodup) (owned : ∀ name ∈ answer.map (·.1), Owned email name) (isDown : Bool) :
    (∀ value, (counterName email isDown, value) ∈ answer →
      reported (answer.foldl (readStat false) st).emailTrafficMap[email]? isDown =
        accrued st.statsLastValues[counterName email isDown]? value) ∧
    (counterName email isDown ∉ answer.map (·.1) →
      reported (answer.foldl (readStat false) st).emailTrafficMap[email]? isDown =
        reported st.emailTrafficMap[email]? isDown) := by
  induction answer generalizing st with
  | nil => simp
  | cons stat rest ih =>
      rw [List.map_cons, List.nodup_cons] at distinct
      obtain ⟨known, others⟩ := ih (readStat false st stat) distinct.2 fun name mem =>
        owned name (by rw [List.map_cons]; exact List.mem_cons_of_mem _ mem)
      have first := readStat_reported plain st stat (owned stat.1 (by simp)) isDown
      rw [List.foldl_cons]
      constructor
      · intro value mem
        rcases List.mem_cons.mp mem with rfl | mem
        · rw [others distinct.1, first]
          simp
        · have other : stat.1 ≠ counterName email isDown := by
            intro same
            exact distinct.1 (List.mem_map.mpr ⟨_, mem, same.symm⟩)
          rw [known value mem, readStat_last, Std.ExtTreeMap.getElem?_insert]
          simp [other]
      · intro fresh
        rw [List.map_cons, List.mem_cons, not_or] at fresh
        rw [others fresh.2, first, if_neg (Ne.symm fresh.1)]

def Keyed (uses : Std.ExtTreeMap String ClientUse) : Prop :=
  ∀ (email : String) (t : ClientUse), uses[email]? = some t → t.email = email

theorem readStat_keyed (baselinePass : Bool) (st : Reading) (stat : String × Int) (keys : Keyed st.emailTrafficMap) :
    Keyed (readStat baselinePass st stat).emailTrafficMap := by
  intro email t here
  cases baselinePass with
  | true => exact keys email t here
  | false =>
      rw [readStat_emails] at here
      split at here
      · rename_i e d _
        rw [processClientTraffic, Std.ExtTreeMap.getElem?_insert] at here
        split at here
        · rename_i same
          have same : e = email := by simpa using same
          subst same
          have kept : (st.emailTrafficMap[e]?.getD ⟨e, 0, 0⟩).email = e := by
            cases there : st.emailTrafficMap[e]? with
            | none => rfl
            | some t => exact keys e t there
          cases d <;> cases here <;> exact kept
        · exact keys email t here
      · exact keys email t here

theorem lastUse_toList {uses : Std.ExtTreeMap String ClientUse} (keys : Keyed uses) (email : String) :
    lastUse (uses.toList.map (·.2)) email = uses[email]? := by
  have sound : ∀ t ∈ (uses.toList.map (·.2)).reverse, uses[t.email]? = some t := by
    intro t mem
    obtain ⟨⟨key, t'⟩, listed, rfl⟩ := List.mem_map.mp (List.mem_reverse.mp mem)
    have here := Std.ExtTreeMap.mem_toList_iff_getElem?_eq_some.mp listed
    rwa [← keys _ _ here] at here
  cases found : lastUse (uses.toList.map (·.2)) email with
  | some t =>
      have same : t.email = email := by simpa using List.find?_some found
      rw [← same]
      exact (sound t (List.mem_of_find?_eq_some found)).symm
  | none =>
      cases here : uses[email]? with
      | none => rfl
      | some t =>
          have mem : t ∈ uses.toList.map (·.2) :=
            List.mem_map.mpr ⟨_, Std.ExtTreeMap.mem_toList_iff_getElem?_eq_some.mpr here, rfl⟩
          have missed := List.find?_eq_none.mp found t (List.mem_reverse.mpr mem)
          simp [keys _ _ here] at missed

theorem readStats_keyed (baselinePass : Bool) (answer : List (String × Int)) (st : Reading) (keys : Keyed st.emailTrafficMap) :
    Keyed (answer.foldl (readStat baselinePass) st).emailTrafficMap := by
  induction answer generalizing st with
  | nil => exact keys
  | cons stat rest ih => exact ih _ (readStat_keyed _ _ _ keys)

theorem readStats_baseline (answer : List (String × Int)) (st : Reading) :
    (answer.foldl (readStat true) st).emailTrafficMap = st.emailTrafficMap := by
  induction answer generalizing st with
  | nil => rfl
  | cons stat rest ih => exact ih _

theorem pruned_kept (last : Counters) (stats : List (String × Int)) (name : String)
    (known : name ∈ stats.map (·.1)) (there : last[name]?.isSome) : (pruned last stats)[name]? = last[name]? := by
  have kept : ∀ (stats : List (String × Int)) (init : Counters),
      (stats.foldl (fun kept stat => kept.insert stat.1 (last[stat.1]?.getD 0)) init)[name]? =
        if name ∈ stats.map (·.1) then some (last[name]?.getD 0) else init[name]? := by
    intro stats
    induction stats with
    | nil => simp
    | cons stat rest ih =>
        intro init
        rw [List.foldl_cons, ih, List.map_cons]
        by_cases later : name ∈ rest.map (·.1)
        · rw [if_pos later, if_pos (List.mem_cons_of_mem _ later)]
        · rw [if_neg later, Std.ExtTreeMap.getElem?_insert]
          by_cases first : stat.1 = name
          · simp [first]
          · simp only [Std.compare_eq_iff_eq, first, if_false, List.mem_cons, Ne.symm first, later, or_self]
  unfold pruned
  split
  · rw [kept, if_pos known]
    obtain ⟨value, here⟩ := Option.isSome_iff_exists.mp there
    rw [here]
    rfl
  · rfl

theorem kept_fresh (last : Counters) (stats : List (String × Int)) (init : Counters) {name : String}
    (fresh : name ∉ stats.map (·.1)) :
    (stats.foldl (fun kept stat => kept.insert stat.1 (last[stat.1]?.getD 0)) init)[name]? = init[name]? := by
  induction stats generalizing init with
  | nil => rfl
  | cons stat rest ih =>
      rw [List.map_cons, List.mem_cons, not_or] at fresh
      rw [List.foldl_cons, ih _ fresh.2, Std.ExtTreeMap.getElem?_insert]
      simp [Ne.symm fresh.1]

theorem pruned_absent (last : Counters) (stats : List (String × Int)) {name : String} (fresh : name ∉ stats.map (·.1)) :
    (pruned last stats)[name]? = last[name]? ∨ (pruned last stats)[name]? = none := by
  unfold pruned
  split
  · right
    rw [kept_fresh last stats ∅ fresh]
    simp
  · left
    rfl

/-! ## The counters a client has in the core -/

def Polled.unread (s : Polled) (name : String) : Int := s.stats[name]?.getD 0 - s.read[name]?.getD 0

/-- What the next query that is no baseline pass takes for it. -/
def Polled.reading (s : Polled) (name : String) : Int :=
  match s.stats[name]? with
  | some value => accrued s.last[name]? value
  | none => 0

/-- A counter that began anew under an old last value has reached that value again. -/
def Polled.Overtaken (s : Polled) (name : String) : Prop :=
  s.read[name]? = none ∧ ∃ last ∈ s.last[name]?, 0 < last ∧ last ≤ s.stats[name]?.getD 0

instance (s : Polled) (name : String) : Decidable (s.Overtaken name) := by
  unfold Polled.Overtaken
  infer_instance

section
variable {s : Polled} {answer : List (String × Int)} (whole : answer.Perm s.stats.toList)
include whole

theorem answer_mem (name : String) (value : Int) : (name, value) ∈ answer ↔ s.stats[name]? = some value := by
  rw [whole.mem_iff, Std.ExtTreeMap.mem_toList_iff_getElem?_eq_some]

theorem answer_names (name : String) : name ∈ answer.map (·.1) ↔ s.stats[name]?.isSome := by
  rw [Option.isSome_iff_exists, List.mem_map]
  constructor
  · rintro ⟨⟨_, value⟩, mem, rfl⟩
    exact ⟨value, (answer_mem whole _ _).mp mem⟩
  · rintro ⟨value, here⟩
    exact ⟨_, (answer_mem whole _ _).mpr here, rfl⟩

theorem answer_distinct : (answer.map (·.1)).Nodup := by
  rw [(whole.map _).nodup_iff, List.nodup_iff_pairwise_ne, List.pairwise_map]
  exact s.stats.distinct_keys_toList.imp fun other same => other (by simpa using same)

theorem query_last (name : String) (value : Int) (here : s.stats[name]? = some value) :
    (getTraffic s.last answer).1[name]? = some value := by
  have read := (readStats_last s.last.isEmpty answer { statsLastValues := s.last } (answer_distinct whole)).1 name value
    ((answer_mem whole name value).mpr here)
  show (pruned (readStats s.last answer).statsLastValues answer)[name]? = some value
  rw [pruned_kept _ _ _ ((answer_names whole name).mpr (by rw [here]; rfl)) (by rw [readStats, read]; rfl)]
  exact read

theorem query_last_absent (name : String) (fresh : s.stats[name]? = none) :
    (getTraffic s.last answer).1[name]? = s.last[name]? ∨ (getTraffic s.last answer).1[name]? = none := by
  have fresh : name ∉ answer.map (·.1) := by simp [answer_names whole, fresh]
  have read := (readStats_last s.last.isEmpty answer { statsLastValues := s.last } (answer_distinct whole)).2 name fresh
  rw [← read]
  exact pruned_absent _ _ fresh

theorem query_reported {email : String} (plain : Plain email)
    (owned : ∀ name, s.stats[name]?.isSome → Owned email name) (isDown : Bool) :
    reported (lastUse (getTraffic s.last answer).2.2 email) isDown =
      if s.last.isEmpty then 0 else s.reading (counterName email isDown) := by
  have keyed : Keyed (readStats s.last answer).emailTrafficMap :=
    readStats_keyed _ _ _ fun email t here => by simp at here
  show reported (lastUse ((readStats s.last answer).emailTrafficMap.toList.map (·.2)) email) isDown = _
  rw [lastUse_toList keyed, readStats]
  cases first : s.last.isEmpty with
  | true =>
      rw [readStats_baseline]
      simp [reported]
  | false =>
      have read := readStats_reported plain answer { statsLastValues := s.last } (answer_distinct whole)
        (fun name mem => owned name ((answer_names whole name).mp mem)) isDown
      rw [if_neg Bool.false_ne_true, Polled.reading]
      cases here : s.stats[counterName email isDown]? with
      | some value => exact read.1 value ((answer_mem whole _ _).mpr here)
      | none =>
          rw [read.2 (by simp [answer_names whole, here])]
          simp [reported]

end

end ThreeXNode.Panel
