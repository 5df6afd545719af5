import ThreeXNode.Library.Protowire

namespace ThreeXNode.Xray.Geodata
open Library Protowire

structure Texts where
  toLower : Bytes → Bytes
  toLower_nil : toLower [] = []
  valid : Bytes → Bool
  prefixText : Bytes → Nat → Bytes

inductive GeoKind where
  | site
  | ip
  deriving DecidableEq

inductive MatchKind where
  | keyword
  | regexp
  | domain
  | full
  | cidr
  deriving DecidableEq

structure GeoEntry where
  kind : MatchKind
  value : Bytes
  deriving DecidableEq

structure GeoEntryPage where
  total : Nat
  items : List GeoEntry
  deriving DecidableEq

structure GeoCategory where
  code : Bytes
  entries : Nat
  attributes : List Bytes
  deriving DecidableEq

structure ByteSpan where
  offset : Nat
  length : Nat
  deriving DecidableEq

structure CategoryScan where
  categories : List GeoCategory
  spans : Bytes → List ByteSpan
  usable : Nat

abbrev fieldListEntry : Nat := 1
abbrev fieldEntryCode : Nat := 1
abbrev fieldEntryPayload : Nat := 2
abbrev fieldDomainType : Nat := 1
abbrev fieldDomainValue : Nat := 2
abbrev fieldDomainAttr : Nat := 3
abbrev fieldAttrKey : Nat := 1
abbrev fieldCIDRAddress : Nat := 1
abbrev fieldCIDRPrefixLen : Nat := 2

/-! ## The loops of the reader -/

def eachListEntry (visit : σ → Bytes → ByteSpan → Except ParseError σ) (s : σ) (data : Bytes) : Except ParseError σ :=
  foldFields (fun s field rest =>
    match field.payload fieldListEntry with
    | some entry => visit s entry ⟨data.length - rest.length - entry.length, entry.length⟩
    | none => .ok s) s data

def walkStep (texts : Texts) (visit : σ → Bytes → Except ParseError σ) (walked : Bytes × σ) (field : Field) :
    Except ParseError (Bytes × σ) :=
  match field.payload fieldEntryCode, field.payload fieldEntryPayload with
  | some value, _ => .ok (texts.toLower value, walked.2)
  | none, some payload => do
      let s ← visit walked.2 payload
      return (walked.1, s)
  | none, none => .ok walked

def walkEntry (texts : Texts) (visit : σ → Bytes → Except ParseError σ) (s : σ) (entry : Bytes) :
    Except ParseError (Bytes × σ) :=
  foldFields (fun walked field _ => walkStep texts visit walked field) ([], s) entry

def containsFold (texts : Texts) (haystack needle : Bytes) : Bool := decide (needle <:+: texts.toLower haystack)

/-- The first key counts, and an attribute that cannot be read has none. -/
def attributeKey (texts : Texts) (raw : Bytes) : Bytes :=
  (firstField (fun field => (field.payload fieldAttrKey).map texts.toLower) raw).getD []

def domainStep (texts : Texts) (read : Bytes × List Bytes) (field : Field) : Bytes × List Bytes :=
  match field.payload fieldDomainValue, field.payload fieldDomainAttr with
  | some raw, _ => (raw, read.2)
  | none, some raw =>
      let key := attributeKey texts raw
      if key = [] then read else (read.1, read.2 ++ [key])
  | none, none => read

def domainValue (texts : Texts) (payload : Bytes) : Except ParseError (Bytes × List Bytes) :=
  foldFields (fun read field _ => .ok (domainStep texts read field)) ([], []) payload

def matchKind (matchType : Nat) : MatchKind :=
  match matchType with
  | 3 => .full
  | 1 => .regexp
  | 0 => .keyword
  | _ => .domain

def domainKind (payload : Bytes) : MatchKind :=
  matchKind ((firstField (fun field => field.varint fieldDomainType) payload).getD 0)

/-- Whether `netip.AddrFromSlice` takes the address and has that many bits. -/
def fits (address : Bytes) (bits : Nat) : Prop :=
  (address.length = 4 ∨ address.length = 16) ∧ bits ≤ 8 * address.length

instance (address : Bytes) (bits : Nat) : Decidable (fits address bits) := inferInstanceAs (Decidable (_ ∧ _))

def cidrStep (read : Bytes × Nat) (field : Field) : Bytes × Nat :=
  match field.payload fieldCIDRAddress, field.varint fieldCIDRPrefixLen with
  | some raw, _ => (raw, read.2)
  | none, some raw => (read.1, raw)
  | none, none => read

def cidrBytes (texts : Texts) (payload : Bytes) : Except ParseError (Option Bytes) := do
  let (address, bits) ← foldFields (fun read field _ => .ok (cidrStep read field)) ([], 0) payload
  return if fits address bits then some (texts.prefixText address bits) else none

/-! ## The index and the pages -/

def mergeAttributes (existing attributes : List Bytes) : List Bytes :=
  if attributes = [] then existing else (existing ++ attributes).dedup.insertionSort (· ≤ ·)

def countRule (texts : Texts) (kind : GeoKind) (s : Nat × List Bytes) (payload : Bytes) :
    Except ParseError (Nat × List Bytes) :=
  match kind with
  | .site => do
      let (value, attrs) ← domainValue texts payload
      return if value = [] then s else (s.1 + 1, s.2 ++ attrs)
  | .ip => do
      let text ← cidrBytes texts payload
      return if text.isNone then s else (s.1 + 1, s.2)

/-- A code has one category at most. -/
def addCategory (categories : List GeoCategory) (code : Bytes) (count : Nat) (attributes : List Bytes) : List GeoCategory :=
  if code ∈ categories.map (·.code) then
    categories.map fun category =>
      if category.code = code then
        { category with
          entries := category.entries + count
          attributes := mergeAttributes category.attributes attributes }
      else category
  else categories ++ [⟨code, count, mergeAttributes [] attributes⟩]

def indexEntry (texts : Texts) (kind : GeoKind) (scan : CategoryScan) (entry : Bytes) (span : ByteSpan) :
    Except ParseError CategoryScan := do
  let (code, count, attributes) ← walkEntry texts (countRule texts kind) (0, []) entry
  if code = [] then return scan
  else return {
    usable := scan.usable + count
    spans := Function.update scan.spans code (scan.spans code ++ [span])
    categories := addCategory scan.categories code count attributes }

def scanIndex (texts : Texts) (kind : GeoKind) (data : Bytes) : Except ParseError CategoryScan := do
  let scan ← eachListEntry (indexEntry texts kind) ⟨[], fun _ => [], 0⟩ data
  return { scan with categories := scan.categories.insertionSort fun a b => a.code ≤ b.code }

def ruleText (texts : Texts) (kind : GeoKind) (payload : Bytes) : Except ParseError (Bytes × Bool) :=
  match kind with
  | .site => do
      let (raw, _) ← domainValue texts payload
      return (raw, decide (raw ≠ []))
  | .ip => do
      let text ← cidrBytes texts payload
      return (text.getD [], text.isSome)

def pageRule (texts : Texts) (kind : GeoKind) (query : Bytes) (offset limit : Nat) (s : Nat × List GeoEntry) (payload : Bytes) :
    Except ParseError (Nat × List GeoEntry) := do
  let (raw, ok) ← ruleText texts kind payload
  return if ¬ ok then s
    else if query ≠ [] ∧ ¬ containsFold texts raw query then s
    else (s.1 + 1,
      if offset ≤ s.1 ∧ s.2.length < limit then
        s.2 ++ [⟨if kind = .site then domainKind payload else .cidr, raw⟩]
      else s.2)

def scanEntries (texts : Texts) (records : List Bytes) (kind : GeoKind) (query : Bytes) (offset limit : Nat) :
    Except ParseError GeoEntryPage := do
  let (matched, items) ← records.foldlM (fun s entry => do
    let (_, s) ← walkEntry texts (pageRule texts kind query offset limit) s entry
    return s) (0, [])
  return ⟨matched, items⟩

/-! ## What the loops come to -/

def payloadsOf (number : Nat) (b : Bytes) : List Bytes := payloads number (partsOf b)

def ruleOf (texts : Texts) (kind : GeoKind) (payload : Bytes) : Option (GeoEntry × List Bytes) :=
  match kind with
  | .site =>
      let value := lastPayload fieldDomainValue (partsOf payload)
      if value = [] then none
      else some (⟨domainKind payload, value⟩,
        ((payloadsOf fieldDomainAttr payload).map (attributeKey texts)).filter (· ≠ []))
  | .ip =>
      let address := lastPayload fieldCIDRAddress (partsOf payload)
      let bits := lastVarint fieldCIDRPrefixLen (partsOf payload)
      if fits address bits then some (⟨.cidr, texts.prefixText address bits⟩, []) else none

def codeOf (texts : Texts) (entry : Bytes) : Bytes := texts.toLower (lastPayload fieldEntryCode (partsOf entry))

def rulesOf (texts : Texts) (kind : GeoKind) (entry : Bytes) : List (GeoEntry × List Bytes) :=
  (payloadsOf fieldEntryPayload entry).filterMap (ruleOf texts kind)

def EntryReadable (entry : Bytes) : Prop :=
  WellFormed entry ∧ ∀ payload ∈ payloadsOf fieldEntryPayload entry, WellFormed payload

theorem domainSteps {texts : Texts} {read : Bytes × List Bytes} (fields : List (Field × Bytes)) :
    fields.foldl (fun read field => domainStep texts read field.1) read =
      ((payloads fieldDomainValue fields).getLast?.getD read.1,
        read.2 ++ ((payloads fieldDomainAttr fields).map (attributeKey texts)).filter (· ≠ [])) := by
  induction fields generalizing read with
  | nil => simp [payloads]
  | cons field fields ih =>
      rw [List.foldl_cons, ih, payloads_cons, payloads_cons, domainStep]
      cases value : field.1.payload fieldDomainValue with
      | some raw =>
          rw [Field.payload_other value (by decide)]
          simp [List.getLast?_cons]
      | none =>
          cases field.1.payload fieldDomainAttr with
          | none => rfl
          | some raw => by_cases key : attributeKey texts raw = [] <;> simp [key]

theorem domainValue_ok {texts : Texts} {payload : Bytes} {r : Bytes × List Bytes} :
    domainValue texts payload = .ok r ↔ WellFormed payload ∧ r = (lastPayload fieldDomainValue (partsOf payload),
      ((payloadsOf fieldDomainAttr payload).map (attributeKey texts)).filter (· ≠ [])) := by
  rw [domainValue, foldFields_pure, domainSteps, List.nil_append]
  rfl

theorem cidrSteps {read : Bytes × Nat} (fields : List (Field × Bytes)) :
    fields.foldl (fun read field => cidrStep read field.1) read =
      ((payloads fieldCIDRAddress fields).getLast?.getD read.1, (varints fieldCIDRPrefixLen fields).getLast?.getD read.2) := by
  induction fields generalizing read with
  | nil => rfl
  | cons field fields ih =>
      rw [List.foldl_cons, ih, payloads_cons, varints_cons, cidrStep]
      cases address : field.1.payload fieldCIDRAddress with
      | some raw =>
          rw [Field.varint_of_payload address]
          simp [List.getLast?_cons]
      | none =>
          cases field.1.varint fieldCIDRPrefixLen with
          | none => rfl
          | some raw => simp [List.getLast?_cons]

theorem cidrBytes_ok {texts : Texts} {payload : Bytes} {r : Option Bytes} :
    cidrBytes texts payload = .ok r ↔ WellFormed payload ∧
      r = if fits (lastPayload fieldCIDRAddress (partsOf payload)) (lastVarint fieldCIDRPrefixLen (partsOf payload)) then
        some (texts.prefixText (lastPayload fieldCIDRAddress (partsOf payload))
          (lastVarint fieldCIDRPrefixLen (partsOf payload))) else none := by
  simp only [cidrBytes, Except.bind_eq_ok, foldFields_pure, cidrSteps, Except.pure_eq_ok]
  constructor
  · rintro ⟨_, ⟨formed, rfl⟩, rfl⟩
    exact ⟨formed, rfl⟩
  · rintro ⟨formed, rfl⟩
    exact ⟨_, ⟨formed, rfl⟩, rfl⟩

theorem countRule_ok {texts : Texts} {kind : GeoKind} {s t : Nat × List Bytes} {payload : Bytes} :
    countRule texts kind s payload = .ok t ↔ WellFormed payload ∧
      t = (ruleOf texts kind payload).elim s fun rule => (s.1 + 1, s.2 ++ rule.2) := by
  cases kind with
  | site =>
      simp only [countRule, Except.bind_eq_ok, domainValue_ok, Except.pure_eq_ok, ruleOf]
      constructor
      · rintro ⟨_, ⟨formed, rfl⟩, rfl⟩
        refine ⟨formed, ?_⟩
        dsimp only
        split <;> rfl
      · rintro ⟨formed, rfl⟩
        refine ⟨_, ⟨formed, rfl⟩, ?_⟩
        dsimp only
        split <;> rfl
  | ip =>
      simp only [countRule, Except.bind_eq_ok, cidrBytes_ok, Except.pure_eq_ok, ruleOf]
      constructor
      · rintro ⟨_, ⟨formed, rfl⟩, rfl⟩
        refine ⟨formed, ?_⟩
        split <;> simp
      · rintro ⟨formed, rfl⟩
        refine ⟨_, ⟨formed, rfl⟩, ?_⟩
        split <;> simp

def asked (texts : Texts) (query : Bytes) (entry : GeoEntry) : Bool :=
  query = [] || containsFold texts entry.value query

theorem ruleText_ok {texts : Texts} {kind : GeoKind} {payload : Bytes} {r : Bytes × Bool} :
    ruleText texts kind payload = .ok r ↔ WellFormed payload ∧
      r = (ruleOf texts kind payload).elim ([], false) fun rule => (rule.1.value, true) := by
  cases kind with
  | site =>
      simp only [ruleText, Except.bind_eq_ok, domainValue_ok, Except.pure_eq_ok, ruleOf]
      constructor
      · rintro ⟨_, ⟨formed, rfl⟩, rfl⟩
        refine ⟨formed, ?_⟩
        split
        · rename_i empty
          simp [empty]
        · rename_i some'
          simp [some']
      · rintro ⟨formed, rfl⟩
        refine ⟨_, ⟨formed, rfl⟩, ?_⟩
        split
        · rename_i empty
          simp [empty]
        · rename_i some'
          simp [some']
  | ip =>
      simp only [ruleText, Except.bind_eq_ok, cidrBytes_ok, Except.pure_eq_ok, ruleOf]
      constructor
      · rintro ⟨_, ⟨formed, rfl⟩, rfl⟩
        refine ⟨formed, ?_⟩
        split <;> rfl
      · rintro ⟨formed, rfl⟩
        refine ⟨_, ⟨formed, rfl⟩, ?_⟩
        split <;> rfl

theorem ruleOf_kind {texts : Texts} {kind : GeoKind} {payload : Bytes} {rule : GeoEntry × List Bytes}
    (h : ruleOf texts kind payload = some rule) :
    rule.1.kind = if kind = .site then domainKind payload else .cidr := by
  cases kind with
  | site =>
      simp only [ruleOf] at h
      split at h
      · cases h
      · cases h
        rfl
  | ip =>
      simp only [ruleOf] at h
      split at h
      · cases h
        rfl
      · cases h

theorem pageRule_ok {texts : Texts} {kind : GeoKind} {query : Bytes} {offset limit : Nat} {s t : Nat × List GeoEntry}
    {payload : Bytes} : pageRule texts kind query offset limit s payload = .ok t ↔ WellFormed payload ∧
      t = (((ruleOf texts kind payload).map Prod.fst).filter (asked texts query)).elim s fun entry =>
        (s.1 + 1, if offset ≤ s.1 ∧ s.2.length < limit then s.2 ++ [entry] else s.2) := by
  simp only [pageRule, Except.bind_eq_ok, ruleText_ok, Except.pure_eq_ok]
  suffices same : ∀ r, r = (ruleOf texts kind payload).elim ([], false) (fun rule => (rule.1.value, true)) →
      (if ¬ r.2 then s
        else if query ≠ [] ∧ ¬ containsFold texts r.1 query then s
        else (s.1 + 1, if offset ≤ s.1 ∧ s.2.length < limit then
          s.2 ++ [⟨if kind = .site then domainKind payload else .cidr, r.1⟩] else s.2)) =
      (((ruleOf texts kind payload).map Prod.fst).filter (asked texts query)).elim s fun entry =>
        (s.1 + 1, if offset ≤ s.1 ∧ s.2.length < limit then s.2 ++ [entry] else s.2) by
    constructor
    · rintro ⟨r, ⟨formed, value⟩, rfl⟩
      exact ⟨formed, same r value⟩
    · rintro ⟨formed, rfl⟩
      exact ⟨_, ⟨formed, rfl⟩, same _ rfl⟩
  rintro r rfl
  cases rule : ruleOf texts kind payload with
  | none => rfl
  | some read =>
      obtain ⟨⟨kind', value⟩, attributes⟩ := read
      rw [← ruleOf_kind rule]
      by_cases there : query = [] <;> by_cases found : containsFold texts value query <;> simp [asked, there, found, Option.filter]

theorem walkStep_ok {texts : Texts} {visit : σ → Bytes → Except ParseError σ} {g : σ → Bytes → σ}
    (visited : ∀ s payload t, visit s payload = .ok t ↔ WellFormed payload ∧ t = g s payload) {walked r : Bytes × σ}
    {field : Field} : walkStep texts visit walked field = .ok r ↔
      (∀ payload ∈ field.payload fieldEntryPayload, WellFormed payload) ∧
      r = (((field.payload fieldEntryCode).map texts.toLower).getD walked.1,
        (field.payload fieldEntryPayload).elim walked.2 (g walked.2)) := by
  rw [walkStep]
  cases code : field.payload fieldEntryCode with
  | some value =>
      rw [Field.payload_other code (by decide)]
      simp [eq_comm]
  | none =>
      cases field.payload fieldEntryPayload with
      | none => simp [eq_comm]
      | some payload =>
          simp only [Except.bind_eq_ok, visited, Except.pure_eq_ok]
          constructor
          · rintro ⟨_, ⟨formed, rfl⟩, rfl⟩
            exact ⟨by simpa using formed, rfl⟩
          · rintro ⟨formed, rfl⟩
            exact ⟨_, ⟨formed payload rfl, rfl⟩, rfl⟩

theorem walkSteps {texts : Texts} {g : σ → Bytes → σ} (fields : List (Field × Bytes)) (walked : Bytes × σ) :
    fields.foldl (fun walked field => (((field.1.payload fieldEntryCode).map texts.toLower).getD walked.1,
        (field.1.payload fieldEntryPayload).elim walked.2 (g walked.2))) walked =
      (((payloads fieldEntryCode fields).map texts.toLower).getLast?.getD walked.1,
        (payloads fieldEntryPayload fields).foldl g walked.2) := by
  induction fields generalizing walked with
  | nil => rfl
  | cons field fields ih =>
      rw [List.foldl_cons, ih, payloads_cons, payloads_cons, List.foldl_append, List.map_append]
      cases field.1.payload fieldEntryCode with
      | none => cases field.1.payload fieldEntryPayload <;> rfl
      | some value => cases field.1.payload fieldEntryPayload <;> simp [List.getLast?_cons]

theorem walkEntry_ok {texts : Texts} {visit : σ → Bytes → Except ParseError σ} {g : σ → Bytes → σ}
    (visited : ∀ s payload t, visit s payload = .ok t ↔ WellFormed payload ∧ t = g s payload) {s : σ} {entry : Bytes}
    {r : Bytes × σ} : walkEntry texts visit s entry = .ok r ↔ EntryReadable entry ∧
      r = (codeOf texts entry, (payloadsOf fieldEntryPayload entry).foldl g s) := by
  have code : ∀ values : List Bytes, (values.map texts.toLower).getLast?.getD [] = texts.toLower (values.getLast?.getD []) := by
    intro values
    rw [List.getLast?_map]
    cases values.getLast? with
    | none => exact texts.toLower_nil.symm
    | some value => rfl
  have formed : ∀ fields : List (Field × Bytes),
      (∀ field ∈ fields, ∀ payload ∈ field.1.payload fieldEntryPayload, WellFormed payload) ↔
        ∀ payload ∈ payloads fieldEntryPayload fields, WellFormed payload := by
    intro fields
    simp only [payloads, List.mem_filterMap, Option.mem_def]
    constructor
    · rintro all payload ⟨field, mem, same⟩
      exact all field mem payload same
    · intro all field mem payload same
      exact all payload ⟨field, mem, same⟩
  have run : ∀ fields : List (Field × Bytes),
      fields.foldlM (fun walked field => walkStep texts visit walked field.1) ([], s) = .ok r ↔
        (∀ payload ∈ payloads fieldEntryPayload fields, WellFormed payload) ∧
        r = (texts.toLower ((payloads fieldEntryCode fields).getLast?.getD []),
          (payloads fieldEntryPayload fields).foldl g s) := by
    intro fields
    rw [← formed, ← code, ← walkSteps fields ([], s)]
    exact foldlM_checked fun _ _ _ => walkStep_ok visited
  rw [walkEntry, foldFields_ok]
  constructor
  · rintro ⟨fields, read, walked⟩
    obtain ⟨all, rfl⟩ := (run fields).mp walked
    rw [EntryReadable, codeOf, payloadsOf, partsOf_read read]
    exact ⟨⟨wellFormed_of_read read, all⟩, rfl⟩
  · rintro ⟨⟨readable, all⟩, rfl⟩
    exact ⟨_, wellFormed_iff.mp readable, (run _).mpr ⟨all, rfl⟩⟩

/-! ## What is counted -/

theorem rules_counted {texts : Texts} {kind : GeoKind} (payloads : List Bytes) (s : Nat × List Bytes) :
    payloads.foldl (fun s payload => (ruleOf texts kind payload).elim s fun rule => (s.1 + 1, s.2 ++ rule.2)) s =
      (s.1 + (payloads.filterMap (ruleOf texts kind)).length,
        s.2 ++ (payloads.filterMap (ruleOf texts kind)).flatMap Prod.snd) := by
  induction payloads generalizing s with
  | nil => simp
  | cons payload payloads ih =>
      rw [List.foldl_cons, ih, List.filterMap_cons]
      cases ruleOf texts kind payload with
      | none => rfl
      | some rule => simp [Nat.add_assoc, Nat.add_comm 1]

def addEntry (texts : Texts) (kind : GeoKind) (scan : CategoryScan) (listed : Bytes × ByteSpan) : CategoryScan :=
  let code := codeOf texts listed.1
  let count := (rulesOf texts kind listed.1).length
  let attributes := (rulesOf texts kind listed.1).flatMap Prod.snd
  if code = [] then scan
  else {
    usable := scan.usable + count
    spans := Function.update scan.spans code (scan.spans code ++ [listed.2])
    categories := addCategory scan.categories code count attributes }

theorem indexEntry_ok {texts : Texts} {kind : GeoKind} {scan scan' : CategoryScan} {entry : Bytes} {span : ByteSpan} :
    indexEntry texts kind scan entry span = .ok scan' ↔ EntryReadable entry ∧
      scan' = addEntry texts kind scan (entry, span) := by
  simp only [indexEntry, Except.bind_eq_ok, walkEntry_ok fun _ _ _ => countRule_ok, rules_counted, Nat.zero_add,
    List.nil_append, addEntry, rulesOf]
  constructor
  · rintro ⟨_, ⟨readable, rfl⟩, added⟩
    refine ⟨readable, ?_⟩
    dsimp only at added
    split at added
    · rename_i empty
      cases added
      rw [if_pos empty]
    · rename_i code
      cases added
      rw [if_neg code]
  · rintro ⟨readable, rfl⟩
    refine ⟨_, ⟨readable, rfl⟩, ?_⟩
    dsimp only
    split <;> rfl

def entriesOf (data : Bytes) : List (Bytes × ByteSpan) :=
  (partsOf data).filterMap fun field => (field.1.payload fieldListEntry).map fun entry =>
    (entry, ⟨data.length - field.2.length - entry.length, entry.length⟩)

theorem entriesOf_payloads (data : Bytes) : (entriesOf data).map Prod.fst = payloadsOf fieldListEntry data := by
  rw [entriesOf, payloadsOf, payloads, List.map_filterMap]
  congr 1
  funext field
  cases field.1.payload fieldListEntry <;> rfl

def Readable (data : Bytes) : Prop := WellFormed data ∧ ∀ entry ∈ payloadsOf fieldListEntry data, EntryReadable entry

theorem eachListEntry_ok {visit : σ → Bytes → ByteSpan → Except ParseError σ} {g : σ → Bytes × ByteSpan → σ}
    (visited : ∀ s entry span t, visit s entry span = .ok t ↔ EntryReadable entry ∧ t = g s (entry, span)) {s t : σ}
    {data : Bytes} : eachListEntry visit s data = .ok t ↔ Readable data ∧ t = (entriesOf data).foldl g s := by
  have pass : ∀ (s : σ) (field : Field × Bytes) t,
      (match field.1.payload fieldListEntry with
        | some entry => visit s entry ⟨data.length - field.2.length - entry.length, entry.length⟩
        | none => .ok s) = .ok t ↔
      (∀ entry ∈ field.1.payload fieldListEntry, EntryReadable entry) ∧
        t = ((field.1.payload fieldListEntry).map fun entry =>
          (entry, (⟨data.length - field.2.length - entry.length, entry.length⟩ : ByteSpan))).elim s (g s) := by
    intro s field t
    cases field.1.payload fieldListEntry with
    | none => simp [eq_comm]
    | some entry => simp [visited]
  have elim : ∀ (fields : List (Field × Bytes)) s,
      fields.foldl (fun s field => ((field.1.payload fieldListEntry).map fun entry =>
        (entry, (⟨data.length - field.2.length - entry.length, entry.length⟩ : ByteSpan))).elim s (g s)) s =
      (fields.filterMap fun field => (field.1.payload fieldListEntry).map fun entry =>
        (entry, (⟨data.length - field.2.length - entry.length, entry.length⟩ : ByteSpan))).foldl g s := by
    intro fields s
    rw [List.foldl_filterMap]
    congr 1
    funext s field
    cases field.1.payload fieldListEntry <;> rfl
  rw [eachListEntry, foldFields_ok]
  simp only [foldlM_checked pass, elim]
  constructor
  · rintro ⟨fields, read, all, rfl⟩
    rw [Readable, entriesOf, payloadsOf, partsOf_read read]
    refine ⟨⟨wellFormed_of_read read, ?_⟩, rfl⟩
    intro entry mem
    obtain ⟨field, there, same⟩ := List.mem_filterMap.mp mem
    exact all field there entry same
  · rintro ⟨⟨readable, all⟩, rfl⟩
    exact ⟨_, wellFormed_iff.mp readable, fun field mem entry same => all entry (List.mem_filterMap.mpr ⟨field, mem, same⟩), rfl⟩

end ThreeXNode.Xray.Geodata
