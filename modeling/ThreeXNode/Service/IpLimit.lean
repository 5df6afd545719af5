import ThreeXNode.Library.Fold
import ThreeXNode.Service.ClientIps

namespace ThreeXNode.Service.IpLimit
open Library ClientIps

/-! ## One client of a scan -/

abbrev IPWithTimestamp := ClientIpEntry

def ipStaleAfterSeconds : Int := 30 * 60

/-- `newIps` are exempt from the cutoff where they are live connections. -/
def mergeClientIps (old newIps : List IPWithTimestamp) (staleCutoff : Int) (newAlwaysLive : Bool) :
    Std.ExtTreeMap String Int :=
  let ipMap := ((old.filter fun e => !(e.timestamp < staleCutoff)).map ClientIpEntry.pair).foldl assign ∅
  ((newIps.filter fun e => newAlwaysLive || !(e.timestamp < staleCutoff)).map ClientIpEntry.pair).foldl raise ipMap

def oldestFirst (entries : List IPWithTimestamp) : List IPWithTimestamp :=
  entries.insertionSort fun a b => a.timestamp ≤ b.timestamp

def selectIpsToBan (live : List IPWithTimestamp) (limit : Int) : List IPWithTimestamp × List IPWithTimestamp :=
  if limit ≤ 0 ∨ live.length ≤ limit then (live, [])
  else
    let cutoff := live.length - limit.toNat
    (live.drop cutoff, live.take cutoff)

/-- The live and the historical entries; `order` is how the iteration meets the map. -/
def partitionLiveIps (order : List String) (ipMap : Std.ExtTreeMap String Int) (observedThisScan : List String) (now : Int) :
    List IPWithTimestamp × List IPWithTimestamp :=
  let entries : List IPWithTimestamp := (inOrder order ipMap.keys).map fun ip => ⟨ip, ipMap[ip]?.getD 0⟩
  let isLive := fun e : IPWithTimestamp => decide (e.ip ∈ observedThisScan) || now - e.timestamp < 120
  (oldestFirst (entries.filter isLive), oldestFirst (entries.filter (!isLive ·)))

abbrev BannedSeen := Std.ExtTreeMap String Int

def banKey (email ip : String) : String := email ++ "|" ++ ip

def isActionable (bannedSeen : BannedSeen) (email : String) (e : IPWithTimestamp) : Bool :=
  match bannedSeen[banKey email e.ip]? with
  | some last => !(e.timestamp ≤ last)
  | none => true

def rememberBan (email : String) (st : BannedSeen × List IPWithTimestamp) (e : IPWithTimestamp) :
    BannedSeen × List IPWithTimestamp :=
  if isActionable st.1 email e then (st.1.insert (banKey email e.ip) e.timestamp, st.2 ++ [e]) else st

/-- The memory after the call, and the bans that are new. -/
def filterAdvancedSinceLastBan (bannedSeen : BannedSeen) (email : String) (banned : List IPWithTimestamp) :
    BannedSeen × List IPWithTimestamp :=
  let (bannedSeen, actionable) := banned.foldl (rememberBan email) (bannedSeen, [])
  let current := banned.map fun e => banKey email e.ip
  (bannedSeen.filter fun key _ => !((email ++ "|").toList.isPrefixOf key.toList && !current.contains key), actionable)

/-- A client as a scan finds it: its stored addresses, which node syncs may have changed since the last scan, the ones
observed now, the two readings of the clock, and whether the log can be opened. -/
structure Visit where
  email : String
  limitIp : Int
  enable : Bool
  enforce : Bool
  observedAreLive : Bool
  stored : List IPWithTimestamp
  observed : List IPWithTimestamp
  allowlist : String → Bool
  order : List String
  mergedAt : Int
  partitionedAt : Int
  opens : Bool

namespace Visit
variable (v : Visit)

def enforces : Bool := v.enforce && !(v.limitIp ≤ 0) && v.enable

def ipMap : Std.ExtTreeMap String Int :=
  mergeClientIps v.stored v.observed (v.mergedAt - ipStaleAfterSeconds) v.observedAreLive

def partition : List IPWithTimestamp × List IPWithTimestamp :=
  partitionLiveIps v.order v.ipMap (v.observed.map (·.ip)) v.partitionedAt

def limited : List IPWithTimestamp := v.partition.1.filter fun e => !v.allowlist e.ip

def chosen : List IPWithTimestamp := (selectIpsToBan v.limited v.limitIp).2

end Visit

/-- What `updateInboundClientIps` leaves: the memory, the lines written to the log, the stored addresses and whether the
client is to be disconnected. -/
structure Updated where
  bannedSeen : BannedSeen
  written : List IPWithTimestamp
  ips : List IPWithTimestamp
  banned : Bool

def updateInboundClientIps (bannedSeen : BannedSeen) (v : Visit) : Updated :=
  if !v.enforces then ⟨bannedSeen, [], v.observed, false⟩
  else
    let keptLive := (selectIpsToBan v.limited v.limitIp).1 ++ v.partition.1.filter fun e => v.allowlist e.ip
    let (bannedSeen, actionable) := filterAdvancedSinceLastBan bannedSeen v.email v.chosen
    if !actionable.isEmpty && !v.opens then ⟨bannedSeen, [], v.stored, false⟩
    else ⟨bannedSeen, actionable, keptLive ++ v.partition.2, !actionable.isEmpty⟩

/-! ## The memory of bans -/

theorem banKey_toList (email ip : String) : (banKey email ip).toList = (email ++ "|").toList ++ ip.toList := by
  simp [banKey]

theorem banKey_injective {email ip ip' : String} (same : banKey email ip = banKey email ip') : ip = ip' := by
  have lists := congrArg String.toList same
  rw [banKey_toList, banKey_toList] at lists
  exact String.toList_injective (List.append_cancel_left lists)

theorem filter_const (keep : Bool) (a : Option α) : a.filter (fun _ => keep) = if keep then a else none := by
  cases a <;> cases keep <;> rfl

theorem rememberBan_other {email : String} (st : BannedSeen × List IPWithTimestamp) (e : IPWithTimestamp) {key : String}
    (other : banKey email e.ip ≠ key) : (rememberBan email st e).1[key]? = st.1[key]? := by
  unfold rememberBan
  split
  · rw [Std.ExtTreeMap.getElem?_insert, if_neg (by simpa using other)]
  · rfl

theorem rememberBan_own {email : String} (st : BannedSeen × List IPWithTimestamp) (e : IPWithTimestamp) :
    (rememberBan email st e).1[banKey email e.ip]? =
      if isActionable st.1 email e then some e.timestamp else st.1[banKey email e.ip]? := by
  unfold rememberBan
  split
  · rw [Std.ExtTreeMap.getElem?_insert_self]
  · rfl

theorem isActionable_congr {seen seen' : BannedSeen} {email : String} {e : IPWithTimestamp}
    (same : seen[banKey email e.ip]? = seen'[banKey email e.ip]?) :
    isActionable seen email e = isActionable seen' email e := by
  unfold isActionable
  rw [same]

section
variable {email : String} {banned : List IPWithTimestamp} (distinct : (banned.map (·.ip)).Nodup)
include distinct

theorem rememberBans (st : BannedSeen × List IPWithTimestamp) :
    (banned.foldl (rememberBan email) st).2 = st.2 ++ banned.filter (isActionable st.1 email) ∧
      ∀ ip, (banned.foldl (rememberBan email) st).1[banKey email ip]? =
        match banned.find? (·.ip = ip) with
        | some e => if isActionable st.1 email e then some e.timestamp else st.1[banKey email ip]?
        | none => st.1[banKey email ip]? := by
  induction banned generalizing st with
  | nil => simp
  | cons e rest ih =>
      rw [List.map_cons, List.nodup_cons] at distinct
      obtain ⟨acts, keys⟩ := ih distinct.2 (rememberBan email st e)
      have later : ∀ e' ∈ rest, isActionable (rememberBan email st e).1 email e' = isActionable st.1 email e' := by
        intro e' mem
        apply isActionable_congr
        apply rememberBan_other
        intro same
        exact distinct.1 (List.mem_map.mpr ⟨e', mem, (banKey_injective same).symm⟩)
      constructor
      · rw [List.foldl_cons, acts, List.filter_congr later, List.filter_cons, rememberBan]
        split <;> simp
      · intro ip
        rw [List.foldl_cons, keys, List.find?_cons]
        by_cases own : e.ip = ip
        · subst own
          have gone : rest.find? (·.ip = e.ip) = none := by
            rw [List.find?_eq_none]
            intro e' mem
            rw [decide_eq_true_eq]
            intro same
            exact distinct.1 (List.mem_map.mpr ⟨e', mem, same⟩)
          rw [gone]
          simpa using rememberBan_own st e
        · have kept : (rememberBan email st e).1[banKey email ip]? = st.1[banKey email ip]? := by
            apply rememberBan_other
            intro same
            exact own (banKey_injective same)
          rw [kept]
          simp only [own, decide_false]
          cases found : rest.find? (·.ip = ip) with
          | none => rfl
          | some e' =>
              dsimp only
              rw [later e' (List.mem_of_find?_eq_some found)]

theorem filterAdvanced_actionable (seen : BannedSeen) :
    (filterAdvancedSinceLastBan seen email banned).2 = banned.filter (isActionable seen email) := by
  have acts := ((@rememberBans email) distinct (seen, [])).1
  rw [List.nil_append] at acts
  exact acts

theorem filterAdvanced_own (seen : BannedSeen) (ip : String) :
    (filterAdvancedSinceLastBan seen email banned).1[banKey email ip]? =
      match banned.find? (·.ip = ip) with
      | some e => if isActionable seen email e then some e.timestamp else seen[banKey email ip]?
      | none => none := by
  have keys := ((@rememberBans email) distinct (seen, [])).2 ip
  unfold filterAdvancedSinceLastBan
  dsimp only
  rw [Std.ExtTreeMap.getElem?_filter', keys]
  have own : (email ++ "|").toList.isPrefixOf (banKey email ip).toList = true := by
    rw [List.isPrefixOf_iff_prefix, banKey_toList]
    exact List.prefix_append _ _
  cases found : banned.find? (·.ip = ip) with
  | some e =>
      have same : e.ip = ip := by simpa using List.find?_some found
      have current : (banned.map fun e => banKey email e.ip).contains (banKey email ip) = true := by
        rw [List.contains_iff_mem]
        exact List.mem_map.mpr ⟨e, List.mem_of_find?_eq_some found, by rw [same]⟩
      rw [own, current, filter_const]
      rfl
  | none =>
      have current : (banned.map fun e => banKey email e.ip).contains (banKey email ip) = false := by
        rw [← Bool.not_eq_true, List.contains_iff_mem]
        intro mem
        obtain ⟨e, there, same⟩ := List.mem_map.mp mem
        have other := List.find?_eq_none.mp found e there
        rw [decide_eq_true_eq] at other
        exact other (banKey_injective same)
      rw [own, current, filter_const]
      rfl

end

theorem filterAdvanced_other {email key : String} (seen : BannedSeen) (banned : List IPWithTimestamp)
    (apart : ¬ (email ++ "|").toList <+: key.toList) :
    (filterAdvancedSinceLastBan seen email banned).1[key]? = seen[key]? := by
  have kept : (banned.foldl (rememberBan email) (seen, [])).1[key]? = seen[key]? := by
    apply foldl_frame (f := rememberBan email) (fun st : BannedSeen × List IPWithTimestamp => st.1[key]?)
    intro st e _
    apply rememberBan_other
    rintro rfl
    rw [banKey_toList] at apart
    exact apart (List.prefix_append _ _)
  have outside : (email ++ "|").toList.isPrefixOf key.toList = false := by
    rw [← Bool.not_eq_true, List.isPrefixOf_iff_prefix]
    exact apart
  unfold filterAdvancedSinceLastBan
  dsimp only
  rw [Std.ExtTreeMap.getElem?_filter', kept, outside, filter_const]
  rfl

/-! ## Whom the limit hits -/

namespace Visit
variable (v : Visit)

def fresh (e : IPWithTimestamp) : Bool := !(e.timestamp < v.mergedAt - ipStaleAfterSeconds)

def Live (e : IPWithTimestamp) : Prop :=
  IsGreatest ({t | LastCounted v.fresh v.stored e.ip t} ∪
    {t | ⟨e.ip, t⟩ ∈ v.observed ∧ (v.observedAreLive || v.fresh ⟨e.ip, t⟩) = true}) e.timestamp ∧
  (e.ip ∈ v.observed.map (·.ip) ∨ v.partitionedAt - e.timestamp < 120)

/-- `chosen` are the oldest of the addresses that count, all but `limitIp` of them. -/
def Oldest (chosen : List IPWithTimestamp) : Prop :=
  ∃ kept, ((chosen ++ kept).map (·.ip)).Nodup ∧ (∀ e, e ∈ chosen ++ kept ↔ v.Live e ∧ v.allowlist e.ip = false) ∧
    chosen.length = (chosen ++ kept).length - v.limitIp.toNat ∧ ∀ c ∈ chosen, ∀ k ∈ kept, c.timestamp ≤ k.timestamp

theorem ipMap_iff (ip : String) (t : Int) : v.ipMap[ip]? = some t ↔
    IsGreatest ({t | LastCounted v.fresh v.stored ip t} ∪
      {t | ⟨ip, t⟩ ∈ v.observed ∧ (v.observedAreLive || v.fresh ⟨ip, t⟩) = true}) t := by
  unfold ipMap mergeClientIps
  dsimp only
  rw [raised_iff]
  have before : {t | (((v.stored.filter v.fresh).map ClientIpEntry.pair).foldl assign ∅)[ip]? = some t} =
      {t | LastCounted v.fresh v.stored ip t} := Set.ext fun t => assigned_iff _ _ _
  have reported : {t | (ip, t) ∈ (v.observed.filter fun e => v.observedAreLive || v.fresh e).map ClientIpEntry.pair} =
      {t | ⟨ip, t⟩ ∈ v.observed ∧ (v.observedAreLive || v.fresh ⟨ip, t⟩) = true} := by
    ext t
    simp
  rw [← before, ← reported]
  rfl

theorem mem_live (e : IPWithTimestamp) : e ∈ v.partition.1 ↔ v.Live e := by
  have entry : e ∈ ((inOrder v.order v.ipMap.keys).map fun ip => (⟨ip, v.ipMap[ip]?.getD 0⟩ : IPWithTimestamp)) ↔
      v.ipMap[e.ip]? = some e.timestamp := by
    rw [← mem_newestFirst v.order v.ipMap e, newestFirst, List.mem_mergeSort]
  unfold partition partitionLiveIps
  dsimp only
  rw [oldestFirst, List.mem_insertionSort, List.mem_filter, entry, ipMap_iff, Live]
  simp

theorem live_distinct : (v.partition.1.map (·.ip)).Nodup := by
  unfold partition partitionLiveIps
  dsimp only
  rw [oldestFirst, ((List.perm_insertionSort _ _).map _).nodup_iff]
  have all := newestFirst_distinct v.order v.ipMap
  rw [newestFirst, ((List.mergeSort_perm _ _).map _).nodup_iff] at all
  exact all.sublist (List.filter_sublist.map _)

theorem live_sorted : v.partition.1.Pairwise fun a b => a.timestamp ≤ b.timestamp := by
  have trans : IsTrans IPWithTimestamp fun a b => a.timestamp ≤ b.timestamp := ⟨fun _ _ _ => le_trans⟩
  have total : Std.Total fun a b : IPWithTimestamp => a.timestamp ≤ b.timestamp := ⟨fun a b => le_total a.timestamp b.timestamp⟩
  exact List.pairwise_insertionSort _ _

theorem limited_distinct : (v.limited.map (·.ip)).Nodup := v.live_distinct.sublist (List.filter_sublist.map _)

theorem chosen_eq (positive : 0 < v.limitIp) : v.chosen = v.limited.take (v.limited.length - v.limitIp.toNat) := by
  unfold chosen selectIpsToBan
  split
  · rename_i few
    have short : v.limited.length - v.limitIp.toNat = 0 := by omega
    rw [short, List.take_zero]
  · rfl

theorem chosen_oldest (positive : 0 < v.limitIp) : v.Oldest v.chosen := by
  refine ⟨v.limited.drop (v.limited.length - v.limitIp.toNat), ?_⟩
  rw [v.chosen_eq positive, List.take_append_drop]
  refine ⟨v.limited_distinct, ?_, by simp, ?_⟩
  · intro e
    rw [limited, List.mem_filter, mem_live]
    simp
  · have sorted : v.limited.Pairwise fun a b => a.timestamp ≤ b.timestamp := v.live_sorted.sublist List.filter_sublist
    rw [← List.take_append_drop (v.limited.length - v.limitIp.toNat) v.limited, List.pairwise_append] at sorted
    exact sorted.2.2

theorem chosen_distinct (positive : 0 < v.limitIp) : (v.chosen.map (·.ip)).Nodup := by
  rw [v.chosen_eq positive]
  exact v.limited_distinct.sublist ((List.take_sublist _ _).map _)

end Visit

/-! ## Runs of the job -/

/-- The memory of the job and the lines of the log. `logged` is the last line of a client and an address; `held` is set by a
line and stays as long as the address is chosen with the time of that line. -/
structure Scans where
  bannedSeen : BannedSeen := ∅
  log : List (String × IPWithTimestamp) := []
  logged : String → String → Option Int := fun _ _ => none
  held : String → String → Option Int := fun _ _ => none

def Scans.written (s : Scans) (v : Visit) : List IPWithTimestamp := (updateInboundClientIps s.bannedSeen v).written

def Scans.next (s : Scans) (v : Visit) : Scans where
  bannedSeen := (updateInboundClientIps s.bannedSeen v).bannedSeen
  log := s.log ++ (s.written v).map (v.email, ·)
  logged := fun email ip =>
    if email = v.email then (((s.written v).find? (·.ip = ip)).map (·.timestamp)).or (s.logged email ip) else s.logged email ip
  held := fun email ip =>
    if email = v.email ∧ v.enforces then
      (v.chosen.find? (·.ip = ip)).bind fun e =>
        if e ∈ s.written v then some e.timestamp else (s.held email ip).filter (· = e.timestamp)
    else s.held email ip

def scan (visits : List Visit) : Scans := visits.foldl Scans.next {}

structure Lawful (s : Scans) (v : Visit) : Prop where
  oldest : v.Oldest v.chosen
  once : ∀ e ∈ v.chosen, s.held v.email e.ip = some e.timestamp → e ∉ s.written v
  prompt : v.opens = true → ∀ e ∈ v.chosen, (∀ t ∈ s.logged v.email e.ip, t < e.timestamp) → e ∈ s.written v

/-- No limited client has another's email followed by a bar at the start of its own. -/
def Separate (visits : List Visit) : Prop :=
  ∀ v ∈ visits, ∀ w ∈ visits, v.enforces = true → w.enforces = true → ¬ (v.email ++ "|").toList <+: w.email.toList

/-- The log can be opened where an address is chosen that the job does not remember with that time or a later one. -/
def Opens (s : Scans) (v : Visit) : Prop :=
  v.enforces = true → v.opens = true ∨ ∀ e ∈ v.chosen, isActionable s.bannedSeen v.email e = false

theorem update_bannedSeen {v : Visit} (enforces : v.enforces = true) (seen : BannedSeen) :
    (updateInboundClientIps seen v).bannedSeen = (filterAdvancedSinceLastBan seen v.email v.chosen).1 := by
  unfold updateInboundClientIps
  rw [enforces]
  simp only [Bool.not_true, Bool.false_eq_true, if_false]
  split <;> rfl

theorem Visit.positive {v : Visit} (enforces : v.enforces = true) : 0 < v.limitIp := by
  simp only [Visit.enforces, Bool.and_eq_true, Bool.not_eq_true', decide_eq_false_iff_not, not_le] at enforces
  exact enforces.1.2

theorem update_written {v : Visit} (enforces : v.enforces = true) (seen : BannedSeen) :
    (updateInboundClientIps seen v).written =
      if v.opens then v.chosen.filter (isActionable seen v.email) else [] := by
  have acts := (@filterAdvanced_actionable v.email) (v.chosen_distinct (Visit.positive enforces)) seen
  unfold updateInboundClientIps
  rw [enforces]
  simp only [Bool.not_true, Bool.false_eq_true, if_false]
  rw [acts]
  cases opens : v.opens with
  | true => simp
  | false =>
      cases chosen : v.chosen.filter (isActionable seen v.email) with
      | nil => simp
      | cons e rest => simp

theorem update_skipped {v : Visit} (skips : v.enforces = false) (seen : BannedSeen) :
    (updateInboundClientIps seen v).bannedSeen = seen ∧ (updateInboundClientIps seen v).written = [] := by
  unfold updateInboundClientIps
  rw [skips]
  exact ⟨rfl, rfl⟩

theorem written_eq {s : Scans} {v : Visit} (enforces : v.enforces = true) (opens : Opens s v) :
    s.written v = v.chosen.filter (isActionable s.bannedSeen v.email) := by
  rw [Scans.written, update_written enforces]
  rcases opens enforces with open' | nothing
  · rw [if_pos open']
  · have none' : v.chosen.filter (isActionable s.bannedSeen v.email) = [] := by
      rw [List.filter_eq_nil_iff]
      intro e mem
      rw [nothing e mem]
      exact Bool.false_ne_true
    rw [none', ite_self]

def Clear (v : Visit) (email : String) : Prop :=
  v.enforces = true → v.email ≠ email →
    ¬ (v.email ++ "|").toList <+: email.toList ∧ ¬ (email ++ "|").toList <+: v.email.toList

theorem Clear.outside {v : Visit} {email : String} (clear : Clear v email) (enforces : v.enforces = true)
    (other : v.email ≠ email) (ip : String) : ¬ (v.email ++ "|").toList <+: (banKey email ip).toList := by
  intro starts
  obtain ⟨notThis, notThat⟩ := clear enforces other
  have whole : email.toList <+: (banKey email ip).toList := by
    rw [banKey_toList, String.toList_append, List.append_assoc]
    exact List.prefix_append _ _
  have bar : (email ++ "|").toList <+: (banKey email ip).toList := by
    rw [banKey_toList]
    exact List.prefix_append _ _
  have own : v.email.toList <+: (banKey email ip).toList := by
    refine List.IsPrefix.trans ?_ starts
    rw [String.toList_append]
    exact List.prefix_append _ _
  have length (s : String) : (s ++ "|").toList.length = s.toList.length + 1 := by simp
  rcases Nat.lt_trichotomy v.email.toList.length email.toList.length with shorter | same | longer
  · exact notThis (List.prefix_of_prefix_length_le starts whole (by rw [length]; omega))
  · exact other (String.toList_injective ((List.prefix_of_prefix_length_le own whole same.le).eq_of_length same))
  · exact notThat (List.prefix_of_prefix_length_le bar own (by rw [length]; omega))

structure Tracks (s : Scans) (email : String) : Prop where
  logged : ∀ ip t, s.bannedSeen[banKey email ip]? = some t → s.logged email ip = some t
  held : ∀ ip t, s.held email ip = some t → s.bannedSeen[banKey email ip]? = some t

theorem find?_ip {banned : List IPWithTimestamp} {ip : String} {e : IPWithTimestamp}
    (found : banned.find? (·.ip = ip) = some e) : e ∈ banned ∧ e.ip = ip :=
  ⟨List.mem_of_find?_eq_some found, by simpa using List.find?_some found⟩

theorem find?_mem {banned : List IPWithTimestamp} (distinct : (banned.map (·.ip)).Nodup) {e : IPWithTimestamp}
    (mem : e ∈ banned) : banned.find? (·.ip = e.ip) = some e := by
  cases found : banned.find? (·.ip = e.ip) with
  | none => simpa using List.find?_eq_none.mp found e mem
  | some e' =>
      obtain ⟨there, same⟩ := find?_ip found
      rw [List.inj_on_of_nodup_map distinct there mem same]

section
variable {s : Scans} {v : Visit} {email : String}

theorem next_skipped (skips : v.enforces = false) : (s.next v).bannedSeen = s.bannedSeen ∧ (s.next v).log = s.log ∧
    (s.next v).logged = s.logged ∧ (s.next v).held = s.held := by
  obtain ⟨seen, written⟩ := update_skipped skips s.bannedSeen
  have nothing : s.written v = [] := written
  refine ⟨seen, ?_, ?_, ?_⟩
  · simp [Scans.next, nothing]
  · funext email ip
    simp [Scans.next, nothing]
  · funext email ip
    simp [Scans.next, skips]

theorem tracks_next (tracks : Tracks s email) (clear : Clear v email) (opens : Opens s v) : Tracks (s.next v) email := by
  cases enforces : v.enforces with
  | false =>
      obtain ⟨seen, -, logged, held⟩ := next_skipped (s := s) enforces
      constructor
      · rw [seen, logged]
        exact tracks.logged
      · rw [seen, held]
        exact tracks.held
  | true =>
      have seen : (s.next v).bannedSeen = (filterAdvancedSinceLastBan s.bannedSeen v.email v.chosen).1 :=
        update_bannedSeen enforces _
      by_cases own : v.email = email
      · subst own
        have distinct := v.chosen_distinct (Visit.positive enforces)
        have written := written_eq enforces opens
        have memory (ip : String) := (@filterAdvanced_own v.email) distinct s.bannedSeen ip
        constructor
        · intro ip t known
          rw [seen, memory] at known
          cases found : v.chosen.find? (·.ip = ip) with
          | none =>
              rw [found] at known
              cases known
          | some e =>
              obtain ⟨mem, rfl⟩ := find?_ip found
              rw [found] at known
              show (if v.email = v.email then _ else _) = some t
              rw [if_pos rfl, written]
              cases acts : isActionable s.bannedSeen v.email e with
              | true =>
                  have line : (v.chosen.filter (isActionable s.bannedSeen v.email)).find? (·.ip = e.ip) = some e :=
                    find?_mem (distinct.sublist (List.filter_sublist.map _)) (List.mem_filter.mpr ⟨mem, acts⟩)
                  rw [line, Option.map_some, Option.some_or]
                  simpa [acts] using known
              | false =>
                  have none' : (v.chosen.filter (isActionable s.bannedSeen v.email)).find? (·.ip = e.ip) = none := by
                    rw [List.find?_eq_none]
                    intro e' there
                    obtain ⟨there, new⟩ := List.mem_filter.mp there
                    rw [decide_eq_true_eq]
                    intro same
                    rw [List.inj_on_of_nodup_map distinct there mem same, acts] at new
                    cases new
                  rw [none', Option.map_none, Option.none_or]
                  apply tracks.logged
                  simpa [acts] using known
        · intro ip t stays
          rw [seen, memory]
          replace stays : (v.chosen.find? (·.ip = ip)).bind (fun e =>
              if e ∈ s.written v then some e.timestamp else (s.held v.email ip).filter (· = e.timestamp)) = some t := by
            simpa [Scans.next, enforces] using stays
          obtain ⟨e, found, stays⟩ := Option.bind_eq_some_iff.mp stays
          obtain ⟨mem, rfl⟩ := find?_ip found
          rw [found]
          dsimp only
          rw [written] at stays
          cases acts : isActionable s.bannedSeen v.email e with
          | true =>
              rw [if_pos (List.mem_filter.mpr ⟨mem, acts⟩)] at stays
              rw [if_pos rfl]
              exact stays
          | false =>
              rw [if_neg (by simp [acts])] at stays
              rw [if_neg Bool.false_ne_true]
              exact tracks.held _ _ (Option.filter_eq_some_iff.mp stays).1
      · have kept (ip : String) : (s.next v).bannedSeen[banKey email ip]? = s.bannedSeen[banKey email ip]? := by
          rw [seen]
          exact filterAdvanced_other _ _ (clear.outside enforces own ip)
        constructor
        · intro ip t known
          rw [kept] at known
          simpa [Scans.next, Ne.symm own] using tracks.logged ip t known
        · intro ip t stays
          rw [kept]
          apply tracks.held
          simpa [Scans.next, Ne.symm own] using stays

theorem tracks_lawful (tracks : Tracks s v.email) (enforces : v.enforces = true) (opens : Opens s v) : Lawful s v := by
  have written := written_eq enforces opens
  refine ⟨v.chosen_oldest (Visit.positive enforces), ?_, ?_⟩
  · intro e mem stays line
    rw [written, List.mem_filter] at line
    have known := tracks.held _ _ stays
    have acts := line.2
    rw [isActionable, known] at acts
    simp at acts
  · intro _ e mem newer
    rw [written, List.mem_filter]
    refine ⟨mem, ?_⟩
    unfold isActionable
    cases known : s.bannedSeen[banKey v.email e.ip]? with
    | none => rfl
    | some t =>
        have later := newer t (tracks.logged _ _ known)
        simpa using later

end

theorem scan_append (visits : List Visit) (v : Visit) : scan (visits ++ [v]) = (scan visits).next v := by
  simp [scan]

theorem written_congr {s s' : Scans} {v : Visit}
    (agree : ∀ ip, s.bannedSeen[banKey v.email ip]? = s'.bannedSeen[banKey v.email ip]?) : s.written v = s'.written v := by
  unfold Scans.written
  cases enforces : v.enforces with
  | false => rw [(update_skipped enforces _).2, (update_skipped enforces _).2]
  | true =>
      rw [update_written enforces, update_written enforces]
      have acts : isActionable s.bannedSeen v.email = isActionable s'.bannedSeen v.email := by
        funext e
        exact isActionable_congr (agree e.ip)
      rw [acts]

theorem agree_next {s s' : Scans} {v : Visit}
    (agree : ∀ ip, s.bannedSeen[banKey v.email ip]? = s'.bannedSeen[banKey v.email ip]?) (ip : String) :
    (s.next v).bannedSeen[banKey v.email ip]? = (s'.next v).bannedSeen[banKey v.email ip]? := by
  show (updateInboundClientIps _ v).bannedSeen[_]? = (updateInboundClientIps _ v).bannedSeen[_]?
  cases enforces : v.enforces with
  | false =>
      rw [(update_skipped enforces _).1, (update_skipped enforces _).1]
      exact agree ip
  | true =>
      have distinct := v.chosen_distinct (Visit.positive enforces)
      rw [update_bannedSeen enforces, update_bannedSeen enforces, filterAdvanced_own distinct, filterAdvanced_own distinct]
      cases found : v.chosen.find? (·.ip = ip) with
      | none => rfl
      | some e =>
          obtain ⟨-, rfl⟩ := find?_ip found
          dsimp only
          rw [isActionable_congr (agree e.ip), agree e.ip]

theorem scan_alone {visits : List Visit} {email : String} (clear : ∀ v ∈ visits, Clear v email) :
    (∀ ip, (scan visits).bannedSeen[banKey email ip]? =
      (scan (visits.filter (·.email = email))).bannedSeen[banKey email ip]?) ∧
    (scan visits).log.filter (·.1 = email) = (scan (visits.filter (·.email = email))).log := by
  induction visits using List.reverseRecOn with
  | nil => exact ⟨fun _ => rfl, rfl⟩
  | append_singleton visits v ih =>
      obtain ⟨agree, lines⟩ := ih fun w mem => clear w (List.mem_append_left _ mem)
      rw [scan_append, List.filter_append]
      by_cases own : v.email = email
      · subst own
        have one : [v].filter (fun w => decide (w.email = v.email)) = [v] := by simp
        have whole : ((Scans.written (scan visits) v).map (v.email, ·)).filter (fun line => decide (line.1 = v.email)) =
            (Scans.written (scan visits) v).map (v.email, ·) := by simp
        rw [one, scan_append]
        refine ⟨agree_next agree, ?_⟩
        show List.filter _ (_ ++ _) = _ ++ _
        rw [List.filter_append, lines, whole, written_congr agree]
      · have none' : [v].filter (fun w => decide (w.email = email)) = [] := by simp [own]
        have silent : ((Scans.written (scan visits) v).map (v.email, ·)).filter (fun line => decide (line.1 = email)) = [] := by
          simp [own]
        rw [none', List.append_nil]
        refine ⟨fun ip => ?_, ?_⟩
        · rw [← agree ip]
          show (updateInboundClientIps _ v).bannedSeen[_]? = _
          cases enforces : v.enforces with
          | false => rw [(update_skipped enforces _).1]
          | true =>
              rw [update_bannedSeen enforces]
              exact filterAdvanced_other _ _
                ((clear v (List.mem_append_right _ List.mem_cons_self)).outside enforces own ip)
        · show List.filter _ (_ ++ _) = _
          rw [List.filter_append, silent, List.append_nil, lines]

theorem log_email {visits : List Visit} {line : String × IPWithTimestamp} (mem : line ∈ (scan visits).log) :
    ∃ v ∈ visits, v.enforces = true ∧ v.email = line.1 := by
  induction visits using List.reverseRecOn with
  | nil => cases mem
  | append_singleton visits v ih =>
      rw [scan_append] at mem
      rcases List.mem_append.mp mem with old | new
      · obtain ⟨w, there, limited⟩ := ih old
        exact ⟨w, List.mem_append_left _ there, limited⟩
      · obtain ⟨e, written, rfl⟩ := List.mem_map.mp new
        cases enforces : v.enforces with
        | true => exact ⟨v, List.mem_append_right _ List.mem_cons_self, enforces, rfl⟩
        | false =>
            rw [Scans.written, (update_skipped enforces _).2] at written
            cases written

theorem Separate.clear {visits : List Visit} (apart : Separate visits) {w : Visit} (mem : w ∈ visits)
    (limited : w.enforces = true) : ∀ v ∈ visits, Clear v w.email :=
  fun v there enforces _ => ⟨apart v there w mem enforces limited, apart w mem v there limited enforces⟩

/-- In every sequence of scans in which the log can be opened when a ban is to be written, of clients of which none has
another's email and a bar at the start of its own: the oldest addresses above the limit are chosen, a ban is written once
and as soon as the log can be opened, and the lines of a client are those that its own scans alone would write. -/
theorem scans_lawful {visits : List Visit} (apart : Separate visits)
    (opens : ∀ before v after, visits = before ++ v :: after → Opens (scan before) v) :
    (∀ before v after, visits = before ++ v :: after → v.enforces = true → Lawful (scan before) v) ∧
      ∀ email, (scan visits).log.filter (·.1 = email) = (scan (visits.filter (·.email = email))).log := by
  constructor
  · intro before v after split limited
    have mem : v ∈ visits := by simp [split]
    have clear := apart.clear mem limited
    have tracks : ∀ front back, before = front ++ back → Tracks (scan front) v.email := by
      intro front
      induction front using List.reverseRecOn with
      | nil => exact fun _ _ => ⟨by simp [scan], by simp [scan]⟩
      | append_singleton front w ih =>
          intro back whole
          rw [scan_append]
          have place : visits = front ++ w :: (back ++ v :: after) := by simp [split, whole]
          exact tracks_next (ih (w :: back) (by simp [whole])) (clear w (by simp [place])) (opens front w _ place)
    exact tracks_lawful (tracks before [] (by simp)) limited (opens before v after split)
  · intro email
    by_cases limited : ∃ w ∈ visits, w.enforces = true ∧ w.email = email
    · obtain ⟨w, mem, enforces, rfl⟩ := limited
      exact (scan_alone (apart.clear mem enforces)).2
    · have silent : (scan visits).log.filter (·.1 = email) = [] := by
        rw [List.filter_eq_nil_iff]
        intro line mem
        rw [decide_eq_true_eq]
        rintro rfl
        exact limited (log_email mem)
      have alone : (scan (visits.filter (·.email = email))).log = [] := by
        rw [List.eq_nil_iff_forall_not_mem]
        intro line mem
        obtain ⟨w, there, enforces, -⟩ := log_email mem
        obtain ⟨there, own⟩ := List.mem_filter.mp there
        exact limited ⟨w, there, enforces, by simpa using own⟩
      rw [silent, alone]

def twoAddresses (email : String) (opens : Bool) : Visit where
  email := email
  limitIp := 1
  enable := true
  enforce := true
  observedAreLive := true
  stored := []
  observed := [⟨"10.0.0.2", 200⟩, ⟨"10.0.0.1", 100⟩]
  allowlist := fun _ => false
  order := []
  mergedAt := 210
  partitionedAt := 210
  opens := opens

theorem scans_lawful_two :
    Lawful (scan [twoAddresses "anna" true, twoAddresses "bert" true]) (twoAddresses "anna" true) ∧
    (scan [twoAddresses "anna" true, twoAddresses "bert" true, twoAddresses "anna" true]).log.length = 2 := by
  have limited : (twoAddresses "anna" true).enforces = true := by decide
  have apart : Separate [twoAddresses "anna" true, twoAddresses "bert" true, twoAddresses "anna" true] := by
    intro v there w there' _ _
    have emails : ∀ v ∈ [twoAddresses "anna" true, twoAddresses "bert" true, twoAddresses "anna" true],
        ∀ w ∈ [twoAddresses "anna" true, twoAddresses "bert" true, twoAddresses "anna" true],
          ¬ (v.email ++ "|").toList <+: w.email.toList := by decide +kernel
    exact emails v there w there'
  have open' : ∀ v ∈ [twoAddresses "anna" true, twoAddresses "bert" true, twoAddresses "anna" true], v.opens = true := by
    decide
  obtain ⟨lawful, -⟩ := scans_lawful apart fun before v after split _ => .inl (open' v (by simp [split]))
  exact ⟨lawful [twoAddresses "anna" true, twoAddresses "bert" true] _ [] rfl limited, by decide +kernel⟩

/-- A ban that meets a log that cannot be opened is never written, and a client whose email goes on behind a bar makes the
job forget a ban. -/
theorem scans_unlawful :
    ¬ Lawful (scan [twoAddresses "anna" false]) (twoAddresses "anna" true) ∧
    ¬ Lawful (scan [twoAddresses "anna|x" true, twoAddresses "anna" true]) (twoAddresses "anna|x" true) := by
  constructor
  · intro lawful
    have chosen : (⟨"10.0.0.1", 100⟩ : IPWithTimestamp) ∈ (twoAddresses "anna" true).chosen := by decide +kernel
    have unlogged : (scan [twoAddresses "anna" false]).logged "anna" "10.0.0.1" = none := by decide +kernel
    have nothing : (scan [twoAddresses "anna" false]).written (twoAddresses "anna" true) = [] := by decide +kernel
    have line := lawful.prompt rfl _ chosen (by
      intro t known
      rw [show (scan [twoAddresses "anna" false]).logged (twoAddresses "anna" true).email "10.0.0.1" = none from unlogged]
        at known
      cases known)
    rw [nothing] at line
    cases line
  · intro lawful
    have chosen : (⟨"10.0.0.1", 100⟩ : IPWithTimestamp) ∈ (twoAddresses "anna|x" true).chosen := by decide +kernel
    have held : (scan [twoAddresses "anna|x" true, twoAddresses "anna" true]).held "anna|x" "10.0.0.1" = some 100 := by
      decide +kernel
    have again : (⟨"10.0.0.1", 100⟩ : IPWithTimestamp) ∈
        (scan [twoAddresses "anna|x" true, twoAddresses "anna" true]).written (twoAddresses "anna|x" true) := by
      decide +kernel
    exact lawful.once _ chosen held again

end ThreeXNode.Service.IpLimit
