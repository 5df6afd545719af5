import ThreeXNode.Library.Latest

namespace ThreeXNode.Service.ClientIps
open Library

structure ClientIpEntry where
  ip : String
  timestamp : Int
deriving DecidableEq

namespace ClientIpEntry

def pair (e : ClientIpEntry) : String × Int := (e.ip, e.timestamp)

@[simp] theorem mem_pairs {entries : List ClientIpEntry} {ip : String} {t : Int} :
    (ip, t) ∈ entries.map pair ↔ ⟨ip, t⟩ ∈ entries := by
  constructor
  · intro member
    obtain ⟨e, there, same⟩ := List.mem_map.mp member
    cases same
    exact there
  · intro member
    exact List.mem_map.mpr ⟨_, member, rfl⟩

end ClientIpEntry

open ClientIpEntry (pair mem_pairs)

/-! ## The merge -/

/-- The keys of a map as an iteration may meet them. -/
def inOrder (order keys : List String) : List String :=
  order.dedup.filter (· ∈ keys) ++ keys.filter (· ∉ order)

def notOlder (a b : ClientIpEntry) : Bool := !(b.timestamp > a.timestamp)

def newestFirst (order : List String) (ipMap : Std.ExtTreeMap String Int) : List ClientIpEntry :=
  ((inOrder order ipMap.keys).map fun ip => ⟨ip, ipMap[ip]?.getD 0⟩).mergeSort notOlder

/-- The old entries overwrite one another, the incoming ones only replace earlier time stamps. -/
def mergeEntries (counts : ClientIpEntry → Bool) (order : List String) (old incoming : List ClientIpEntry) :
    List ClientIpEntry :=
  let ipMap := ((old.filter counts).map pair).foldl assign ∅
  newestFirst order (((incoming.filter counts).map pair).foldl raise ipMap)

def mergeClientIpEntries (order : List String) (old incoming : List ClientIpEntry) (cutoff : Int) : List ClientIpEntry :=
  mergeEntries (fun e => !(e.timestamp < cutoff)) order old incoming

def mergeModelClientIpEntries (order : List String) (old incoming : List ClientIpEntry) (cutoff : Int) :
    List ClientIpEntry :=
  mergeEntries (fun e => !(e.ip = "" || e.timestamp < cutoff)) order old incoming

theorem inOrder_perm (order : List String) {keys : List String} (distinct : keys.Nodup) :
    (inOrder order keys).Perm keys := by
  have apart : (inOrder order keys).Nodup := by
    refine List.nodup_append.mpr ⟨(List.nodup_dedup order).filter _, distinct.filter _, ?_⟩
    intro a here b there same
    subst same
    simp at here there
    exact there.2 here.1
  refine (List.perm_ext_iff_of_nodup apart distinct).mpr fun ip => ?_
  by_cases ordered : ip ∈ order <;> simp [inOrder, ordered]

section
variable (order : List String) (ipMap : Std.ExtTreeMap String Int)

theorem newestFirst_perm :
    (newestFirst order ipMap).Perm (ipMap.keys.map fun ip => ⟨ip, ipMap[ip]?.getD 0⟩) :=
  (List.mergeSort_perm _ _).trans ((inOrder_perm order (nodup_keys ipMap)).map _)

theorem mem_newestFirst (e : ClientIpEntry) : e ∈ newestFirst order ipMap ↔ ipMap[e.ip]? = some e.timestamp := by
  rw [(newestFirst_perm order ipMap).mem_iff, List.mem_map]
  constructor
  · rintro ⟨ip, member, rfl⟩
    obtain ⟨t, found⟩ := mem_iff_some.mp (Std.ExtTreeMap.mem_keys.mp member)
    simp [found]
  · intro found
    refine ⟨e.ip, Std.ExtTreeMap.mem_keys.mpr (mem_iff_some.mpr ⟨_, found⟩), ?_⟩
    simp [found]

theorem newestFirst_distinct : ((newestFirst order ipMap).map (·.ip)).Nodup := by
  rw [((newestFirst_perm order ipMap).map _).nodup_iff, List.map_map]
  show (ipMap.keys.map fun ip => ip).Nodup
  rw [List.map_id']
  exact nodup_keys ipMap

theorem newestFirst_sorted : (newestFirst order ipMap).Pairwise fun a b => b.timestamp ≤ a.timestamp := by
  have trans : ∀ a b c, notOlder a b = true → notOlder b c = true → notOlder a c = true := by
    intro a b c
    simp only [notOlder, Bool.not_eq_true', decide_eq_false_iff_not]
    omega
  have total : ∀ a b, (notOlder a b || notOlder b a) = true := by
    intro a b
    simp only [notOlder, Bool.or_eq_true, Bool.not_eq_true', decide_eq_false_iff_not]
    omega
  refine (List.pairwise_mergeSort trans total _).imp ?_
  intro a b le
  simpa [notOlder] using le

end

section
variable {counts : ClientIpEntry → Bool} {old incoming : List ClientIpEntry}

/-- The last of the entries of an IP that count, which is the one an old list is read with. -/
def LastCounted (counts : ClientIpEntry → Bool) (old : List ClientIpEntry) (ip : String) (t : Int) : Prop :=
  LastOf ((old.filter counts).map pair) ip t

theorem mem_mergeEntries (order : List String) (e : ClientIpEntry) :
    e ∈ mergeEntries counts order old incoming ↔
      IsGreatest ({t | LastCounted counts old e.ip t} ∪ {t | ⟨e.ip, t⟩ ∈ incoming ∧ counts ⟨e.ip, t⟩ = true}) e.timestamp := by
  rw [mergeEntries, mem_newestFirst, raised_iff]
  have before : {t | (((old.filter counts).map pair).foldl assign ∅)[e.ip]? = some t} =
      {t | LastCounted counts old e.ip t} := Set.ext fun t => assigned_iff _ _ _
  have reported : {t | (e.ip, t) ∈ (incoming.filter counts).map pair} =
      {t | ⟨e.ip, t⟩ ∈ incoming ∧ counts ⟨e.ip, t⟩ = true} := by
    ext t
    simp
  rw [before, reported]

theorem LastCounted.counted {ip : String} {t : Int} (last : LastCounted counts old ip t) :
    ⟨ip, t⟩ ∈ old ∧ counts ⟨ip, t⟩ = true := by
  have member := LastOf.mem last
  rwa [mem_pairs, List.mem_filter] at member

theorem mergeEntries_counted {order : List String} {e : ClientIpEntry} (member : e ∈ mergeEntries counts order old incoming) :
    counts e = true := by
  rcases ((mem_mergeEntries order e).mp member).1 with last | reported
  · exact last.counted.2
  · exact reported.2

theorem mergeEntries_distinct (order : List String) : ((mergeEntries counts order old incoming).map (·.ip)).Nodup :=
  newestFirst_distinct _ _

theorem lastCounted_of_distinct (distinct : (old.map (·.ip)).Nodup) {ip : String} {t : Int} :
    LastCounted counts old ip t ↔ ⟨ip, t⟩ ∈ old ∧ counts ⟨ip, t⟩ = true := by
  have apart : (((old.filter counts).map pair).map (·.1)).Nodup := by
    rw [List.map_map]
    exact distinct.sublist (List.filter_sublist.map _)
  rw [LastCounted, lastOf_of_nodup apart, mem_pairs, List.mem_filter]

end

/-! ## Reports one after another -/

structure Report where
  order : List String
  entries : List ClientIpEntry

inductive Kind where
  | client
  | node

def Kind.merge : Kind → List String → List ClientIpEntry → List ClientIpEntry → Int → List ClientIpEntry
  | .client => mergeClientIpEntries
  | .node => mergeModelClientIpEntries

def Kind.counts : Kind → Int → ClientIpEntry → Bool
  | .client, cutoff => fun e => !(e.timestamp < cutoff)
  | .node, cutoff => fun e => !(e.ip = "" || e.timestamp < cutoff)

theorem Kind.merge_eq (kind : Kind) (order : List String) (old incoming : List ClientIpEntry) (cutoff : Int) :
    kind.merge order old incoming cutoff = mergeEntries (kind.counts cutoff) order old incoming := by
  cases kind <;> rfl

def Kind.stored (kind : Kind) (cutoff : Int) (old : List ClientIpEntry) (reports : List Report) : List ClientIpEntry :=
  reports.foldl (fun stored report => kind.merge report.order stored report.entries cutoff) old

def Kind.reported (kind : Kind) (cutoff : Int) (reports : List Report) (ip : String) : Set Int :=
  {t | (∃ report ∈ reports, ⟨ip, t⟩ ∈ report.entries) ∧ kind.counts cutoff ⟨ip, t⟩ = true}

section
variable {kind : Kind} {cutoff : Int} {old : List ClientIpEntry}

theorem Kind.stored_append (reports : List Report) (last : Report) :
    kind.stored cutoff old (reports ++ [last]) =
      mergeEntries (kind.counts cutoff) last.order (kind.stored cutoff old reports) last.entries := by
  rw [Kind.stored, List.foldl_append, List.foldl_cons, List.foldl_nil, Kind.merge_eq]
  rfl

theorem Kind.reported_finite (reports : List Report) (ip : String) : (kind.reported cutoff reports ip).Finite := by
  refine (List.finite_toSet ((reports.flatMap (·.entries)).map (·.timestamp))).subset ?_
  rintro t ⟨⟨report, member, here⟩, -⟩
  exact List.mem_map.mpr ⟨_, List.mem_flatMap.mpr ⟨report, member, here⟩, rfl⟩

theorem lastCounted_finite (ip : String) : {t | LastCounted (kind.counts cutoff) old ip t}.Finite := by
  refine (List.finite_toSet (old.map (·.timestamp))).subset ?_
  intro t last
  exact List.mem_map.mpr ⟨_, last.counted.1, rfl⟩

theorem Kind.mem_stored {reports : List Report} (some' : reports ≠ []) (e : ClientIpEntry) :
    e ∈ kind.stored cutoff old reports ↔
      IsGreatest ({t | LastCounted (kind.counts cutoff) old e.ip t} ∪ kind.reported cutoff reports e.ip) e.timestamp := by
  induction reports using List.reverseRecOn generalizing e with
  | nil => exact absurd rfl some'
  | append_singleton reports last ih =>
      have joined : kind.reported cutoff (reports ++ [last]) e.ip = kind.reported cutoff reports e.ip ∪
          {t | ⟨e.ip, t⟩ ∈ last.entries ∧ kind.counts cutoff ⟨e.ip, t⟩ = true} := by
        ext t
        simp only [Kind.reported, List.mem_append, List.mem_singleton, Set.mem_ofPred_eq, Set.mem_union]
        constructor
        · rintro ⟨⟨report, member | rfl, here⟩, counted⟩
          · exact .inl ⟨⟨report, member, here⟩, counted⟩
          · exact .inr ⟨here, counted⟩
        · rintro (⟨⟨report, member, here⟩, counted⟩ | ⟨here, counted⟩)
          · exact ⟨⟨report, .inl member, here⟩, counted⟩
          · exact ⟨⟨last, .inr rfl, here⟩, counted⟩
      rw [Kind.stored_append, mem_mergeEntries, joined, ← Set.union_assoc]
      by_cases first : reports = []
      · subst first
        simp [Kind.stored, Kind.reported]
      · have merged : {t | LastCounted (kind.counts cutoff) (kind.stored cutoff old reports) e.ip t} =
            {t | IsGreatest ({t | LastCounted (kind.counts cutoff) old e.ip t} ∪ kind.reported cutoff reports e.ip) t} := by
          obtain ⟨init, before, rfl⟩ := (List.eq_nil_or_concat' reports).resolve_left first
          ext t
          rw [Set.mem_ofPred_eq, Set.mem_ofPred_eq, ← ih first ⟨e.ip, t⟩, Kind.stored_append,
            lastCounted_of_distinct (mergeEntries_distinct _)]
          exact ⟨fun both => both.1, fun member => ⟨member, mergeEntries_counted member⟩⟩
        rw [merged, isGreatest_union_of ((lastCounted_finite _).union (Kind.reported_finite _ _))]

end

def Kind.seen (kind : Kind) (cutoff : Int) (old : List ClientIpEntry) (reports : List Report) (ip : String) : Set Int :=
  {t | ⟨ip, t⟩ ∈ old ∧ kind.counts cutoff ⟨ip, t⟩ = true} ∪ kind.reported cutoff reports ip

def Kind.Newest (kind : Kind) (cutoff : Int) (old : List ClientIpEntry) (reports : List Report) : Prop :=
  ∀ e, e ∈ kind.stored cutoff old reports ↔ IsGreatest (kind.seen cutoff old reports e.ip) e.timestamp

/-- An observation is only replaced by one that is not older. -/
def Kind.NoneReplaced (kind : Kind) (cutoff : Int) (old : List ClientIpEntry) (reports : List Report) : Prop :=
  ∀ (ip : String), ∀ t ∈ kind.seen cutoff old reports ip, ∃ e ∈ kind.stored cutoff old reports, e.ip = ip ∧ t ≤ e.timestamp

/-- No entry of the old list is newer than both the last one of its IP and all that is reported of it. -/
def Kind.LastIsNewest (kind : Kind) (cutoff : Int) (old : List ClientIpEntry) (reports : List Report) : Prop :=
  ∀ e ∈ old, kind.counts cutoff e = true →
    ∃ t, e.timestamp ≤ t ∧ (LastCounted (kind.counts cutoff) old e.ip t ∨ t ∈ kind.reported cutoff reports e.ip)

section
variable {kind : Kind} {cutoff : Int} {old : List ClientIpEntry} {reports : List Report}

theorem Kind.stored_seen (ip : String) :
    {t | LastCounted (kind.counts cutoff) old ip t} ∪ kind.reported cutoff reports ip ⊆ kind.seen cutoff old reports ip :=
  Set.union_subset_union_left _ fun _ last => last.counted

theorem Kind.newest_iff (some' : reports ≠ []) :
    kind.Newest cutoff old reports ∧ kind.NoneReplaced cutoff old reports ↔ kind.LastIsNewest cutoff old reports := by
  constructor
  · rintro ⟨-, none'⟩ e member counted
    obtain ⟨e', there, own, le⟩ := none' e.ip e.timestamp (.inl ⟨member, counted⟩)
    rw [← own]
    exact ⟨e'.timestamp, le, ((Kind.mem_stored some' e').mp there).1⟩
  · intro last
    have reached (ip : String) : ∀ t ∈ kind.seen cutoff old reports ip,
        ∃ u ∈ {t | LastCounted (kind.counts cutoff) old ip t} ∪ kind.reported cutoff reports ip, t ≤ u := by
      rintro t (⟨member, counted⟩ | reported)
      · obtain ⟨u, le, there⟩ := last ⟨ip, t⟩ member counted
        exact ⟨u, there, le⟩
      · exact ⟨t, .inr reported, le_rfl⟩
    constructor
    · intro e
      rw [Kind.mem_stored some']
      constructor
      · rintro ⟨member, upper⟩
        refine ⟨Kind.stored_seen e.ip member, ?_⟩
        intro t there
        obtain ⟨u, stored, le⟩ := reached e.ip t there
        exact le.trans (upper stored)
      · rintro ⟨member, upper⟩
        obtain ⟨u, stored, le⟩ := reached e.ip _ member
        have same : e.timestamp = u := le_antisymm le (upper (Kind.stored_seen e.ip stored))
        exact ⟨same ▸ stored, fun t there => upper (Kind.stored_seen e.ip there)⟩
    · intro ip t there
      obtain ⟨u, stored, le⟩ := reached ip t there
      obtain ⟨top, greatest⟩ := exists_greatest
        (((@lastCounted_finite _ _ old) ip).union (Kind.reported_finite reports ip)) ⟨u, stored⟩
      exact ⟨⟨ip, top⟩, (Kind.mem_stored some' ⟨ip, top⟩).mpr greatest, rfl, le.trans (greatest.2 stored)⟩

theorem Kind.stored_congr {reports' : List Report} (some' : reports ≠ []) (some'' : reports' ≠ [])
    (same : ∀ ip, kind.reported cutoff reports ip = kind.reported cutoff reports' ip) :
    (kind.stored cutoff old reports).Perm (kind.stored cutoff old reports') := by
  have distinct {reports : List Report} (some' : reports ≠ []) : (kind.stored cutoff old reports).Nodup := by
    obtain ⟨init, last, rfl⟩ := (List.eq_nil_or_concat' reports).resolve_left some'
    rw [Kind.stored_append]
    exact (mergeEntries_distinct _).of_map
  refine (List.perm_ext_iff_of_nodup (distinct some') (distinct some'')).mpr ?_
  intro e
  rw [Kind.mem_stored some', Kind.mem_stored some'', same]

end

/-- What is stored after one report or more: once for each IP and the newest first, whatever the order and the repetition
of the reports; the newest time stamps exactly where no old entry is newer than the last of its IP. -/
theorem ips_merged (kind : Kind) (cutoff : Int) (old : List ClientIpEntry) (first : Report) (rest : List Report) :
    (kind.Newest cutoff old (first :: rest) ∧ kind.NoneReplaced cutoff old (first :: rest) ↔
      kind.LastIsNewest cutoff old (first :: rest)) ∧
    ((kind.stored cutoff old (first :: rest)).map (·.ip)).Nodup ∧
    (kind.stored cutoff old (first :: rest)).Pairwise (fun a b => b.timestamp ≤ a.timestamp) ∧
    (∀ reports', (∀ entries, entries ∈ (first :: rest).map (·.entries) ↔ entries ∈ reports'.map (·.entries)) →
      (kind.stored cutoff old (first :: rest)).Perm (kind.stored cutoff old reports')) ∧
    (∀ later, ∀ e ∈ kind.stored cutoff old (first :: rest),
      ∃ e' ∈ kind.stored cutoff old (first :: rest ++ later), e'.ip = e.ip ∧ e.timestamp ≤ e'.timestamp) ∧
    (∀ order, (kind.merge order (kind.stored cutoff old (first :: rest)) (kind.stored cutoff old (first :: rest)) cutoff).Perm
      (kind.stored cutoff old (first :: rest))) ∧
    ∀ order e, e ∈ kind.merge order old old cutoff ↔
      IsGreatest {t | ⟨e.ip, t⟩ ∈ old ∧ kind.counts cutoff ⟨e.ip, t⟩ = true} e.timestamp := by
  generalize shape : first :: rest = reports
  have some' : reports ≠ [] := by
    rw [← shape]
    exact List.cons_ne_nil _ _
  obtain ⟨init, last, split⟩ := (List.eq_nil_or_concat' reports).resolve_left some'
  have merged : kind.stored cutoff old reports =
      mergeEntries (kind.counts cutoff) last.order (kind.stored cutoff old init) last.entries := by
    rw [split, Kind.stored_append]
  have distinct : ((kind.stored cutoff old reports).map (·.ip)).Nodup := by
    rw [merged]
    exact mergeEntries_distinct _
  refine ⟨Kind.newest_iff some', distinct, ?_, ?_, ?_, ?_, ?_⟩
  · rw [merged]
    exact newestFirst_sorted _ _
  · intro reports' same
    have some'' : reports' ≠ [] := by
      rintro rfl
      have none' := (same first.entries).mp (by simp [← shape])
      simp at none'
    refine Kind.stored_congr some' some'' ?_
    intro ip
    ext t
    have heard (reports : List Report) : (∃ report ∈ reports, ⟨ip, t⟩ ∈ report.entries) ↔
        ∃ entries ∈ reports.map (·.entries), (⟨ip, t⟩ : ClientIpEntry) ∈ entries := by
      simp
    rw [Kind.reported, Kind.reported, Set.mem_ofPred_eq, Set.mem_ofPred_eq, heard, heard]
    simp only [same]
  · intro later e member
    have more : reports ++ later ≠ [] := by simp [some']
    have before := ((Kind.mem_stored some' e).mp member).1
    have after : e.timestamp ∈ {t | LastCounted (kind.counts cutoff) old e.ip t} ∪ kind.reported cutoff (reports ++ later) e.ip := by
      refine before.imp id ?_
      rintro ⟨⟨report, there, here⟩, counted⟩
      exact ⟨⟨report, List.mem_append_left _ there, here⟩, counted⟩
    obtain ⟨top, greatest⟩ := exists_greatest
      (((@lastCounted_finite _ _ old) e.ip).union (Kind.reported_finite (reports ++ later) e.ip)) ⟨_, after⟩
    exact ⟨⟨e.ip, top⟩, (Kind.mem_stored more ⟨e.ip, top⟩).mpr greatest, rfl, greatest.2 after⟩
  · intro order
    have counted : ∀ e ∈ kind.stored cutoff old reports, kind.counts cutoff e = true := by
      rw [merged]
      exact fun e => mergeEntries_counted
    rw [Kind.merge_eq]
    refine (List.perm_ext_iff_of_nodup (mergeEntries_distinct order).of_map distinct.of_map).mpr ?_
    intro e
    rw [mem_mergeEntries]
    have own : {t | LastCounted (kind.counts cutoff) (kind.stored cutoff old reports) e.ip t} ∪
        {t | ⟨e.ip, t⟩ ∈ kind.stored cutoff old reports ∧ kind.counts cutoff ⟨e.ip, t⟩ = true} =
        {t | ⟨e.ip, t⟩ ∈ kind.stored cutoff old reports} := by
      ext t
      simp only [Set.mem_union, Set.mem_ofPred_eq, lastCounted_of_distinct distinct, or_self]
      exact ⟨And.left, fun member => ⟨member, counted _ member⟩⟩
    rw [own]
    constructor
    · exact fun greatest => greatest.1
    · intro member
      refine ⟨member, ?_⟩
      intro t there
      have same : (⟨e.ip, t⟩ : ClientIpEntry) = e := List.inj_on_of_nodup_map distinct there member rfl
      rw [← same]
  · intro order e
    rw [Kind.merge_eq, mem_mergeEntries]
    have own : {t | LastCounted (kind.counts cutoff) old e.ip t} ∪
        {t | ⟨e.ip, t⟩ ∈ old ∧ kind.counts cutoff ⟨e.ip, t⟩ = true} =
        {t | ⟨e.ip, t⟩ ∈ old ∧ kind.counts cutoff ⟨e.ip, t⟩ = true} :=
      Set.union_eq_self_of_subset_left fun t last => last.counted
    rw [own]

/-- Of two old entries of one IP the last one is kept, not the newest. -/
theorem ips_merged_older :
    mergeClientIpEntries [] [⟨"198.51.100.7", 1700000010⟩, ⟨"198.51.100.7", 1700000005⟩] [] 1700000000 =
      [⟨"198.51.100.7", 1700000005⟩] ∧
    ¬Kind.Newest .client 1700000000 [⟨"198.51.100.7", 1700000010⟩, ⟨"198.51.100.7", 1700000005⟩] [⟨[], []⟩] := by
  have merged : mergeClientIpEntries [] [⟨"198.51.100.7", 1700000010⟩, ⟨"198.51.100.7", 1700000005⟩] [] 1700000000 =
      [⟨"198.51.100.7", 1700000005⟩] := by
    decide +kernel
  refine ⟨merged, ?_⟩
  intro newest
  have kept := (newest ⟨"198.51.100.7", 1700000005⟩).mp (by
    show _ ∈ mergeClientIpEntries _ _ _ _
    rw [merged]
    simp)
  have newer : (1700000010 : Int) ∈ Kind.seen .client 1700000000
      [⟨"198.51.100.7", 1700000010⟩, ⟨"198.51.100.7", 1700000005⟩] [⟨[], []⟩] "198.51.100.7" :=
    .inl ⟨List.mem_cons_self, by decide⟩
  exact absurd (kept.2 newer) (by decide)

end ThreeXNode.Service.ClientIps
