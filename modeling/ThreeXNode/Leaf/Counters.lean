import ThreeXNode.Leaf.Node
import ThreeXNode.Leaf.Reload

namespace ThreeXNode.Leaf
open Library State

/-! ## The names of counters -/

def Direction.word : Direction → String
  | .uplink => "uplink"
  | .downlink => "downlink"

def counterKey (user : Bool) (name : String) (dir : Direction) : String :=
  .ofList ((if user then "user" else "inbound").toList ++ (sep ++ (name.toList ++ (sep ++
    ("traffic".toList ++ (sep ++ dir.word.toList))))))

/-- Names whose counters the node can tell apart from the separators around them. -/
def Readable (name : String) : Prop := ¬sep <:+: name.toList ∧ name.toList.getLast? ≠ some '>'

instance (name : String) : Decidable (Readable name) := by
  unfold Readable
  infer_instance

theorem ofName_word (dir : Direction) : Direction.ofName dir.word.toList = some dir := by
  cases dir <;> decide

theorem word_of_ofName {word : List Char} {dir : Direction} (h : Direction.ofName word = some dir) :
    word = dir.word.toList := by
  unfold Direction.ofName at h
  split at h
  · cases h
    assumption
  · split at h
    · cases h
      assumption
    · cases h

theorem splitOn_counterKey {user : Bool} {name : String} {dir : Direction} (readable : Readable name) :
    splitOn sep (counterKey user name dir).toList =
      [(if user then "user" else "inbound").toList, name.toList, "traffic".toList, dir.word.toList] := by
  have nonempty : sep ≠ [] := by decide
  have three : sep = List.replicate (2 + 1) '>' := rfl
  have plain {a b : List Char} (absent : '>' ∉ a) : ∀ i < a.length, ¬sep <+: (a ++ b).drop i := by
    rw [three]
    exact clear_of_not_mem absent
  have named : ∀ i < name.toList.length, ¬sep <+: (name.toList ++ (sep ++ ("traffic".toList ++
      (sep ++ dir.word.toList)))).drop i := by
    obtain ⟨outside, ending⟩ := readable
    rw [three] at outside
    intro i bound
    rw [three]
    exact clear_of_not_infix outside ending i bound
  rw [counterKey, String.toList_ofList, splitOn_append nonempty _ _ (plain (by cases user <;> decide)),
    splitOn_append nonempty _ _ named,
    splitOn_append nonempty _ _ (plain (by decide)), splitOn_single]
  have word : '>' ∉ dir.word.toList := by cases dir <;> decide
  simpa using plain (b := []) word

theorem parseKey_counterKey {user : Bool} {name : String} {dir : Direction} (readable : Readable name) :
    parseKey (counterKey user name dir) = some (user, name, dir) := by
  unfold parseKey
  rw [splitOn_counterKey readable]
  cases user <;> simp [ofName_word]

theorem counterKey_of_parseKey {key name : String} {user : Bool} {dir : Direction}
    (h : parseKey key = some (user, name, dir)) : key = counterKey user name dir := by
  unfold parseKey at h
  split at h
  · rename_i kind name' word dir' pieces
    split at h
    · cases h
    · rename_i traffic
      rw [not_not] at traffic
      rw [Option.bind_eq_some_iff] at h
      obtain ⟨d, named, h⟩ := h
      have joined : sep.intercalate (splitOn sep key.toList) = key.toList := intercalate_splitOn (by decide) _
      rw [pieces, traffic, word_of_ofName named] at joined
      split at h
      · rename_i isUser
        cases h
        rw [← String.ofList_toList (s := key), ← joined, isUser]
        simp [counterKey, List.intercalate_cons_cons]
      · split at h
        · rename_i isInbound
          cases h
          rw [← String.ofList_toList (s := key), ← joined, isInbound]
          simp [counterKey, List.intercalate_cons_cons]
        · cases h
  · cases h

/-! ## What a sample adds to one counter -/

/-- The value of a counter, 0 where the process does not mention it. -/
def Stats.value (v : Stats) (key : String) : Int := (v.baseline[key]?).getD 0

private theorem apart_of_distinct {entries : Values} (distinct : (entries.map (·.1)).Nodup) :
    entries.Pairwise fun a b => ¬compare a.1 b.1 = .eq := by
  rw [List.Nodup, List.pairwise_map] at distinct
  exact distinct.imp fun ne same => ne (by simpa using same)

theorem Stats.value_of_mem {v : Stats} {key : String} {value : Int} (mem : (key, value) ∈ v.entries) :
    v.value key = value := by
  unfold Stats.value Stats.baseline
  rw [Std.ExtTreeMap.getElem?_ofList_of_mem (by simp) (apart_of_distinct v.distinct) mem]
  rfl

theorem Stats.value_of_not_mem {v : Stats} {key : String} (absent : ∀ value, (key, value) ∉ v.entries) :
    v.value key = 0 := by
  unfold Stats.value Stats.baseline
  rw [Std.ExtTreeMap.getElem?_ofList_of_contains_eq_false]
  · rfl
  · rw [List.contains_eq_mem, decide_eq_false_iff_not, List.mem_map]
    rintro ⟨⟨k, value⟩, mem, rfl⟩
    exact absent value mem

private theorem share_other {baseline : Baseline} {user : Bool} {name : String} {dir : Direction} {entry : String × Int}
    (other : entry.1 ≠ counterKey user name dir) : share baseline user name dir entry = 0 := by
  have unparsed : parseKey entry.1 ≠ some (user, name, dir) := fun h => other (counterKey_of_parseKey h)
  simp [share, unparsed]

private theorem credited_other {baseline : Baseline} {user : Bool} {name : String} {dir : Direction} {entries : Values}
    (others : ∀ entry ∈ entries, entry.1 ≠ counterKey user name dir) : credited baseline entries user name dir = 0 := by
  refine List.sum_eq_zero fun x mem => ?_
  obtain ⟨entry, there, rfl⟩ := List.mem_map.mp mem
  exact share_other (others entry there)

theorem credited_eq {baseline : Baseline} {v : Stats} {user : Bool} {name : String} {dir : Direction} {last : Int}
    (readable : Readable name) (known : (baseline[counterKey user name dir]?).getD 0 = last) (start : 0 ≤ last)
    (grown : last ≤ v.value (counterKey user name dir))
    (bound : v.value (counterKey user name dir) < 9223372036854775808) :
    credited baseline v.entries user name dir = v.value (counterKey user name dir) - last := by
  by_cases present : ∃ value, (counterKey user name dir, value) ∈ v.entries
  · obtain ⟨value, mem⟩ := present
    rw [Stats.value_of_mem mem] at grown bound ⊢
    have distinct := v.distinct
    obtain ⟨front, back, split⟩ := List.append_of_mem mem
    rw [split, List.map_append, List.map_cons, List.nodup_append] at distinct
    obtain ⟨_, tail, apart⟩ := distinct
    have before : ∀ entry ∈ front, entry.1 ≠ counterKey user name dir := fun entry there =>
      apart entry.1 (List.mem_map_of_mem there) _ List.mem_cons_self
    have after : ∀ entry ∈ back, entry.1 ≠ counterKey user name dir := fun entry there same =>
      (List.nodup_cons.mp tail).1 (List.mem_map.mpr ⟨entry, there, same⟩)
    have delta : wrap64 (value - last) = value - last := wrap64_eq ⟨by omega, by omega⟩
    have here : share baseline user name dir (counterKey user name dir, value) = value - last := by
      simp only [share, growth, known, delta, parseKey_counterKey readable, ↓reduceIte]
      rw [if_neg (by omega), if_neg (by omega)]
    have whole : credited baseline v.entries user name dir =
        credited baseline front user name dir +
          (share baseline user name dir (counterKey user name dir, value) + credited baseline back user name dir) := by
      rw [split, credited_append]
      rfl
    rw [whole, credited_other before, credited_other after, here]
    omega
  · have absent : ∀ value, (counterKey user name dir, value) ∉ v.entries := fun value mem => present ⟨value, mem⟩
    rw [Stats.value_of_not_mem absent] at grown ⊢
    rw [credited_other fun entry there same => absent entry.2 (same ▸ there)]
    omega

def Traffic.count (t : Traffic) : Direction → Int
  | .uplink => t.up
  | .downlink => t.down

def Inbound.count (ib : Inbound) : Direction → Int
  | .uplink => ib.up
  | .downlink => ib.down

/-- The total of a user or an inbound in one direction, `none` where the state does not have it. -/
def State.meter (s : State) (user : Bool) (name : String) (dir : Direction) : Option Int :=
  if user then (s.traffic[name]?).map (·.count dir)
  else (s.inbounds.find? (·.tag == name)).map (·.count dir)

structure State.Ranged (s : State) : Prop where
  rows : ∀ (email : String) (t : Traffic), s.traffic[email]? = some t → InInt64 t.up ∧ InInt64 t.down
  inbounds : ∀ ib ∈ s.inbounds, InInt64 ib.up ∧ InInt64 ib.down

theorem sampled_meter {s : State} (ranged : s.Ranged) (baseline : Baseline) (values : Values) (now : Int)
    {user : Bool} {name : String} {dir : Direction} {x : Int} (before : s.meter user name dir = some x) :
    (s.sampled baseline values now).meter user name dir =
      some (wrap64 (x + credited baseline values user name dir)) := by
  have grows := sampled_grows s baseline values now
  cases user with
  | true =>
      simp only [State.meter, ↓reduceIte, Option.map_eq_some_iff] at before ⊢
      obtain ⟨t, found, rfl⟩ := before
      obtain ⟨rangeUp, rangeDown⟩ := ranged.rows name t found
      obtain ⟨new, found', _, up, down⟩ := grows.row name t found rangeUp rangeDown
      refine ⟨new, found', ?_⟩
      cases dir
      · exact up
      · exact down
  | false =>
      obtain ⟨f, grown, inbounds⟩ := grows.inbounds
      simp only [State.meter, Bool.false_eq_true, ↓reduceIte, Option.map_eq_some_iff] at before ⊢
      obtain ⟨ib, found, rfl⟩ := before
      have tag : ib.tag = name := by simpa using List.find?_some found
      have range := ranged.inbounds ib (List.mem_of_find?_eq_some found)
      have mapped : (s.inbounds.map f).find? (·.tag == name) = some (f ib) := by
        rw [List.find?_map, Option.map_eq_some_iff]
        refine ⟨ib, ?_, rfl⟩
        rw [← found]
        congr 1
        funext other
        simp [grown.tag other]
      refine ⟨f ib, by rw [inbounds, mapped], ?_⟩
      cases dir
      · rw [Inbound.count, grown.up ib range.1, tag]
        rfl
      · rw [Inbound.count, grown.down ib range.2, tag]
        rfl

theorem sampled_ranged {s : State} (ranged : s.Ranged) (baseline : Baseline) (values : Values) (now : Int) :
    (s.sampled baseline values now).Ranged := by
  have grows := sampled_grows s baseline values now
  constructor
  · intro email new found
    obtain ⟨old, before⟩ := mem_iff_some.mp ((grows.mem email).mp (mem_iff_some.mpr ⟨new, found⟩))
    obtain ⟨rangeUp, rangeDown⟩ := ranged.rows email old before
    obtain ⟨new', found', _, up, down⟩ := grows.row email old before rangeUp rangeDown
    rw [found] at found'
    cases found'
    exact ⟨up ▸ wrap64_range _, down ▸ wrap64_range _⟩
  · obtain ⟨f, grown, inbounds⟩ := grows.inbounds
    intro ib mem
    rw [inbounds] at mem
    obtain ⟨old, there, rfl⟩ := List.mem_map.mp mem
    obtain ⟨rangeUp, rangeDown⟩ := ranged.inbounds old there
    exact ⟨grown.up old rangeUp ▸ wrap64_range _, grown.down old rangeDown ▸ wrap64_range _⟩

/-! ## What a request does to the totals of inbounds -/

def Request.zeroes : Request → Inbound → Prop
  | .resetTraffic email id, ib => email = "" ∧ (id = 0 ∨ ib.id = id)
  | _, _ => False

inductive Reshaped (zeroes : Inbound → Prop) (l : List Inbound) : List Inbound → Prop where
  | mapped (f : Inbound → Inbound) (tag : ∀ ib, (f ib).tag = ib.tag)
      (counts : ∀ ib, ((f ib).up = ib.up ∧ (f ib).down = ib.down) ∨ ((f ib).up = 0 ∧ (f ib).down = 0 ∧ zeroes ib)) :
      Reshaped zeroes l (l.map f)
  | dropped (m : List Inbound) (sub : m.Sublist l) : Reshaped zeroes l m
  | replaced (front back : List Inbound) (old new : Inbound) (split : l = front ++ old :: back)
      (up : new.up = old.up) (down : new.down = old.down) : Reshaped zeroes l (front ++ new :: back)
  | appended (new : Inbound) (up : new.up = 0) (down : new.down = 0) : Reshaped zeroes l (l ++ [new])

theorem Reshaped.refl (zeroes : Inbound → Prop) (l : List Inbound) : Reshaped zeroes l l :=
  .dropped l (.refl l)

theorem updateFirst_split {p : Inbound → Bool} {f : Inbound → Inbound} {l : List Inbound} {old : Inbound}
    (found : l.find? p = some old) : ∃ front back, l = front ++ old :: back ∧
      updateFirst p f l = front ++ f old :: back := by
  induction l with
  | nil => cases found
  | cons ib rest ih =>
      cases hit : p ib with
      | true =>
          rw [List.find?_cons_of_pos hit] at found
          cases found
          exact ⟨[], rest, rfl, by simp [updateFirst, hit]⟩
      | false =>
          rw [List.find?_cons_of_neg (by simp [hit])] at found
          obtain ⟨front, back, whole, updated⟩ := ih found
          exact ⟨ib :: front, back, by rw [whole, List.cons_append], by simp [updateFirst, hit, updated]⟩

private theorem resetClient_mapped (s : State) (email : String) : ∃ f : Inbound → Inbound,
    (∀ ib, (f ib).tag = ib.tag ∧ (f ib).up = ib.up ∧ (f ib).down = ib.down) ∧
      (resetClient s email).inbounds = s.inbounds.map f := by
  unfold resetClient
  cases s.traffic[email]? with
  | none => exact ⟨id, fun _ => ⟨rfl, rfl, rfl⟩, by simp⟩
  | some t =>
      exact ⟨fun ib => ib.setClients (ib.clientsOrNil.map (setField email "enable" (.bool true))),
        fun _ => ⟨rfl, rfl, rfl⟩, rfl⟩

theorem edit_reshaped {cfg : Config} {now : Int} {r : Request} {s t : State} {obj : Reply}
    (h : r.edit cfg now s = .ok (t, obj)) : Reshaped r.zeroes s.inbounds t.inbounds := by
  cases r with
  | putInbound ib id =>
      rcases putInbound_parts h with ⟨stored, ⟨place, old, _, found, rfl⟩ | rfl⟩
      · obtain ⟨front, back, whole, updated⟩ := updateFirst_split
          (f := fun _ => { stored with id := place, up := old.up, down := old.down }) found
        simp only [updated]
        exact .replaced front back old _ whole rfl rfl
      · exact .appended _ rfl rfl
  | deleteInbound id =>
      cases h
      exact .dropped _ List.eraseP_sublist
  | changeClient oldEmail c ids op =>
      obtain ⟨stored, mid, _, _, moved, rfl⟩ := changeClient_parts h
      rw [← (moveTraffic_inbounds moved).1]
      exact .mapped _ (fun _ => rfl) fun _ => .inl ⟨rfl, rfl⟩
  | resetTraffic email id =>
      simp only [Request.edit, resetTraffic, Except.bind_eq_ok] at h
      obtain ⟨_, _, _, _, h⟩ := h
      split at h
      · rename_i whole
        cases h
        refine .mapped _ (fun ib => by split <;> rfl) fun ib => ?_
        by_cases chosen : id = 0 ∨ ib.id = id
        · exact .inr (by simp [chosen, Request.zeroes, whole])
        · exact .inl (by simp [chosen])
      · split at h
        · cases h
          obtain ⟨f, same, mapped⟩ := resetClient_mapped s email
          rw [mapped]
          exact .mapped f (fun ib => (same ib).1) fun ib => .inl (same ib).2
        · cases h
          exact .refl _ _
  | resetClientTraffics emails =>
      simp only [Request.edit, resetClientTraffics, Except.ok.injEq, Prod.mk.injEq] at h
      obtain ⟨rfl, -⟩ := h
      have kept := foldl_invariant (fun w : State × Nat => ∃ f : Inbound → Inbound,
          (∀ ib, (f ib).tag = ib.tag ∧ (f ib).up = ib.up ∧ (f ib).down = ib.down) ∧
            w.1.inbounds = s.inbounds.map f)
        (f := fun (w : State × Nat) email =>
          if email ∈ w.1.traffic then (resetClient w.1 email, w.2 + 1) else (w.1, w.2)) (s := (s, 0)) (l := emails)
        ⟨id, fun _ => ⟨rfl, rfl, rfl⟩, by simp⟩ ?_
      · obtain ⟨f, same, mapped⟩ := kept
        have shape : Reshaped (Request.resetClientTraffics emails).zeroes s.inbounds (s.inbounds.map f) :=
          .mapped f (fun ib => (same ib).1) fun ib => .inl (same ib).2
        rw [← mapped] at shape
        exact shape
      · rintro ⟨w, count⟩ email - ⟨f, same, mapped⟩
        simp only
        split
        · obtain ⟨g, same', mapped'⟩ := resetClient_mapped w email
          refine ⟨g ∘ f, fun ib => ?_, by rw [mapped', mapped, List.map_map]⟩
          obtain ⟨tag, up, down⟩ := same ib
          obtain ⟨tag', up', down'⟩ := same' (f ib)
          exact ⟨tag'.trans tag, up'.trans up, down'.trans down⟩
        · exact ⟨f, same, mapped⟩
  | pushGlobals master rows =>
      rw [(pushGlobals_rest h).1]
      exact .refl _ _
  | subSortIndex id index =>
      simp only [Request.edit, subSortIndex, Except.bind_eq_ok, require_eq_ok] at h
      obtain ⟨_, present, h⟩ := h
      cases h
      obtain ⟨old, found⟩ := Option.isSome_iff_exists.mp present
      obtain ⟨front, back, whole, updated⟩ := updateFirst_split (f := fun ib => { ib with subSortIndex := index }) found
      simp only [updated]
      exact .replaced front back old _ whole rfl rfl

theorem Reshaped.ranged {zeroes : Inbound → Prop} {l m : List Inbound} (shape : Reshaped zeroes l m)
    (range : ∀ ib ∈ l, InInt64 ib.up ∧ InInt64 ib.down) : ∀ ib ∈ m, InInt64 ib.up ∧ InInt64 ib.down := by
  intro ib mem
  cases shape with
  | mapped f tag counts =>
      obtain ⟨old, there, rfl⟩ := List.mem_map.mp mem
      rcases counts old with ⟨up, down⟩ | ⟨up, down, _⟩
      · rw [up, down]
        exact range old there
      · rw [up, down]
        decide
  | dropped _ sub => exact range ib (sub.subset mem)
  | replaced front back old new split up down =>
      subst split
      rcases List.mem_append.mp mem with mem | mem
      · exact range ib (List.mem_append_left _ mem)
      · rcases List.mem_cons.mp mem with rfl | mem
        · rw [up, down]
          exact range old (by simp)
        · exact range ib (by simp [mem])
  | appended new up down =>
      rcases List.mem_append.mp mem with mem | mem
      · exact range ib mem
      · rw [List.mem_singleton.mp mem, up, down]
        decide

theorem Reshaped.counts {zeroes : Inbound → Prop} {l m : List Inbound} (shape : Reshaped zeroes l m)
    (distinct : (l.map (·.tag)).Nodup) (distinct' : (m.map (·.tag)).Nodup) {old new : Inbound} (mem : old ∈ l)
    (mem' : new ∈ m) (same : new.tag = old.tag) (spared : ¬zeroes old) : new.up = old.up ∧ new.down = old.down := by
  cases shape with
  | mapped f tag counts =>
      obtain ⟨was, there, rfl⟩ := List.mem_map.mp mem'
      rw [tag] at same
      obtain rfl := List.inj_on_of_nodup_map distinct there mem same
      rcases counts was with kept | ⟨_, _, hit⟩
      · exact kept
      · exact absurd hit spared
  | dropped _ sub =>
      obtain rfl := List.inj_on_of_nodup_map distinct (sub.subset mem') mem same
      exact ⟨rfl, rfl⟩
  | replaced front back was put split up down =>
      subst split
      rcases eq_or_ne new put with rfl | other
      · -- The new inbound may carry another tag, but not that of an inbound that stays.
        rcases eq_or_ne old was with rfl | stays
        · exact ⟨up, down⟩
        · have kept : old ∈ front ++ back := by simpa [stays] using mem
          rw [List.map_append, List.map_cons, List.nodup_middle, List.nodup_cons, ← List.map_append] at distinct'
          exact absurd (same ▸ List.mem_map_of_mem kept) distinct'.1
      · have kept : new ∈ front ++ was :: back := by
          have kept : new ∈ front ++ back := by simpa [other] using mem'
          rcases List.mem_append.mp kept with kept | kept <;> simp [kept]
        obtain rfl := List.inj_on_of_nodup_map distinct kept mem same
        exact ⟨rfl, rfl⟩
  | appended put up down =>
      rcases List.mem_append.mp mem' with kept | last
      · obtain rfl := List.inj_on_of_nodup_map distinct kept mem same
        exact ⟨rfl, rfl⟩
      · rw [List.map_append, List.map_singleton, List.nodup_append] at distinct'
        rw [List.mem_singleton.mp last] at same
        exact absurd same.symm (distinct'.2.2 _ (List.mem_map_of_mem mem) _ (List.mem_singleton_self _))

def Request.restarts (r : Request) (s : State) (user : Bool) (name : String) : Prop :=
  if user then r.resets name else ∃ ib ∈ s.inbounds, ib.tag = name ∧ r.zeroes ib

theorem request_meter {cfg : Config} {now : Int} {r : Request} {s t : State} {obj : Reply}
    (h : r.next cfg now s = .ok (t, obj)) (distinct : (s.inbounds.map (·.tag)).Nodup) {user : Bool} {name : String}
    {dir : Direction} {x y : Int} (before : s.meter user name dir = some x) (after : t.meter user name dir = some y)
    (spared : ¬r.restarts s user name) : y = x := by
  cases user with
  | true =>
      simp only [State.meter, ↓reduceIte, Option.map_eq_some_iff] at before after
      obtain ⟨old, row, rfl⟩ := before
      obtain ⟨new, row', rfl⟩ := after
      have use := request_use h row row' (by simpa [Request.restarts] using spared)
      cases dir
      · exact use.up
      · exact use.down
  | false =>
      simp only [State.meter, Bool.false_eq_true, ↓reduceIte, Option.map_eq_some_iff] at before after
      obtain ⟨old, found, rfl⟩ := before
      obtain ⟨new, found', rfl⟩ := after
      have tag : old.tag = name := by simpa using List.find?_some found
      have tag' : new.tag = name := by simpa using List.find?_some found'
      obtain ⟨mid, edited, _, _, synced⟩ := next_parts h
      have distinct' := request_tags h
      rw [(syncClients_synced synced).rest] at found' distinct'
      have unhit : ¬r.zeroes old := fun hit =>
        spared (by simpa [Request.restarts] using ⟨old, List.mem_of_find?_eq_some found, tag, hit⟩)
      have kept := (edit_reshaped edited).counts distinct distinct' (List.mem_of_find?_eq_some found)
        (List.mem_of_find?_eq_some found') (tag'.trans tag.symm) unhit
      cases dir
      · exact kept.1
      · exact kept.2

theorem store_ranged {cfg : Config} {guid : String} {s : State} (reached : (store cfg).Reaches (fresh guid) s) :
    s.Ranged := by
  refine reached.invariant State.Ranged ⟨by simp [fresh], by simp [fresh]⟩ ?_
  intro t e u ranged _ step
  cases e with
  | request now r =>
      obtain ⟨obj, step⟩ := store_request step
      obtain ⟨mid, edited, _, _, synced⟩ := next_parts step
      have synced := syncClients_synced synced
      have tended := edit_tended edited
      constructor
      · intro email row found
        rcases synced.rows email row found with ⟨moved, here, use⟩ | ⟨_, _, up, down, _⟩
        · obtain ⟨was, old, there, _, up, down⟩ := tended.row email moved here
          obtain ⟨rangeUp, rangeDown⟩ := ranged.rows was old there
          rw [use.up, use.down]
          constructor
          · rcases up with up | up <;> rw [up]
            · exact rangeUp
            · decide
          · rcases down with down | down <;> rw [down]
            · exact rangeDown
            · decide
        · rw [up, down]
          decide
      · rw [synced.rest]
        exact (edit_reshaped edited).ranged ranged.inbounds
  | sample baseline values now =>
      cases step
      exact sampled_ranged ranged baseline values now
  | mark running checkpointAt =>
      cases step
      exact ⟨ranged.rows, ranged.inbounds⟩

end ThreeXNode.Leaf
