import ThreeXNode.Xray.GeodataIndex
import ThreeXNode.Library.Split

namespace ThreeXNode.Xray.Geodata
open Library Protowire

/-! ## What the decoder of the format makes of a rule -/

structure Domain where
  matchType : Nat
  value : Bytes
  attributes : List Bytes

def decodeAttribute (texts : Texts) (b : Bytes) : Option Bytes := do
  let fields ← (fieldsOf b).toOption
  if ∀ key ∈ payloads fieldAttrKey fields, texts.valid key then some (lastPayload fieldAttrKey fields) else none

def decodeDomain (texts : Texts) (b : Bytes) : Option Domain := do
  let fields ← (fieldsOf b).toOption
  if ∀ value ∈ payloads fieldDomainValue fields, texts.valid value then
    let attributes ← (payloads fieldDomainAttr fields).mapM (decodeAttribute texts)
    -- an enumeration takes the low 32 bits
    some ⟨lastVarint fieldDomainType fields % 2 ^ 32, lastPayload fieldDomainValue fields, attributes⟩
  else none

def decodeCIDR (b : Bytes) : Option (Bytes × Nat) := do
  let fields ← (fieldsOf b).toOption
  some (lastPayload fieldCIDRAddress fields, lastVarint fieldCIDRPrefixLen fields % 2 ^ 32)

def RuleDecoded (texts : Texts) (kind : GeoKind) (payload : Bytes) : Prop :=
  match kind with
  | .site => ∀ value attributes, domainValue texts payload = .ok (value, attributes) → value ≠ [] →
      ∃ domain, decodeDomain texts payload = some domain ∧ domain.value = value ∧
        matchKind domain.matchType = domainKind payload ∧ (domain.attributes.map texts.toLower).filter (· ≠ []) = attributes
  | .ip => ∃ address bits, decodeCIDR payload = some (address, bits) ∧
      cidrBytes texts payload = .ok (if fits address bits then some (texts.prefixText address bits) else none)

/-- Where the first and the last value of a field come to the same. -/
def RulePlain (texts : Texts) (kind : GeoKind) (payload : Bytes) : Prop :=
  let fields := partsOf payload
  match kind with
  | .site => lastPayload fieldDomainValue fields ≠ [] →
      (∀ value ∈ payloads fieldDomainValue fields, texts.valid value) ∧
      (∀ attribute' ∈ payloads fieldDomainAttr fields, WellFormed attribute' ∧
        ∀ key ∈ payloadsOf fieldAttrKey attribute', texts.valid key) ∧
      ((payloads fieldDomainAttr fields).map fun raw => texts.toLower (firstPayload fieldAttrKey (partsOf raw))).filter (· ≠ []) =
        ((payloads fieldDomainAttr fields).map fun raw => texts.toLower (lastPayload fieldAttrKey (partsOf raw))).filter
          (· ≠ []) ∧
      matchKind (firstVarint fieldDomainType fields) = matchKind (lastVarint fieldDomainType fields % 2 ^ 32)
  | .ip =>
      let bits := lastVarint fieldCIDRPrefixLen fields
      fits (lastPayload fieldCIDRAddress fields) bits ↔ fits (lastPayload fieldCIDRAddress fields) (bits % 2 ^ 32)

theorem attributeKey_first {texts : Texts} {raw : Bytes} (formed : WellFormed raw) :
    attributeKey texts raw = texts.toLower (firstPayload fieldAttrKey (partsOf raw)) := by
  rw [attributeKey, firstField_fields (wellFormed_iff.mp formed), firstPayload, payloads, ← List.head?_filterMap,
    ← List.map_filterMap, List.head?_map]
  cases (List.filterMap (fun field => Field.payload fieldAttrKey field.1) (partsOf raw)).head? with
  | none => exact texts.toLower_nil.symm
  | some key => rfl

theorem domainKind_first {payload : Bytes} (formed : WellFormed payload) :
    domainKind payload = matchKind (firstVarint fieldDomainType (partsOf payload)) := by
  rw [domainKind, firstField_fields (wellFormed_iff.mp formed), firstVarint, varints, List.head?_filterMap]

theorem mapM_iff {α β : Type} {f : α → Option β} {check : α → Prop} {g : α → β}
    (each : ∀ a b, f a = some b ↔ check a ∧ b = g a) {items : List α} {out : List β} :
    items.mapM f = some out ↔ (∀ a ∈ items, check a) ∧ out = items.map g := by
  induction items generalizing out with
  | nil =>
      rw [List.mapM_nil, Option.pure_def, Option.some.injEq, eq_comm]
      simp
  | cons a items ih =>
      simp only [List.mapM_cons, Option.bind_eq_bind, Option.bind_eq_some_iff, each, ih, Option.pure_def, Option.some.injEq,
        List.forall_mem_cons, List.map_cons]
      constructor
      · rintro ⟨_, ⟨own, rfl⟩, _, ⟨all, rfl⟩, rfl⟩
        exact ⟨⟨own, all⟩, rfl⟩
      · rintro ⟨⟨own, all⟩, rfl⟩
        exact ⟨_, ⟨own, rfl⟩, _, ⟨all, rfl⟩, rfl⟩

theorem toOption_fieldsOf {b : Bytes} {fields : List (Field × Bytes)} :
    (fieldsOf b).toOption = some fields ↔ WellFormed b ∧ fields = partsOf b := by
  rw [wellFormed_iff]
  cases read : fieldsOf b with
  | error e => simp [Except.toOption]
  | ok met => simp [Except.toOption, partsOf_read read, eq_comm]

theorem decodeAttribute_eq {texts : Texts} (b key : Bytes) :
    decodeAttribute texts b = some key ↔ (WellFormed b ∧ ∀ key ∈ payloadsOf fieldAttrKey b, texts.valid key) ∧
      key = lastPayload fieldAttrKey (partsOf b) := by
  simp only [decodeAttribute, Option.bind_eq_bind, Option.bind_eq_some_iff, toOption_fieldsOf, Option.ite_none_right_eq_some,
    Option.some.injEq]
  constructor
  · rintro ⟨_, ⟨formed, rfl⟩, valid, rfl⟩
    exact ⟨⟨formed, valid⟩, rfl⟩
  · rintro ⟨⟨formed, valid⟩, rfl⟩
    exact ⟨_, ⟨formed, rfl⟩, valid, rfl⟩

theorem decodeDomain_eq {texts : Texts} {b : Bytes} {domain : Domain} (formed : WellFormed b) :
    decodeDomain texts b = some domain ↔ (∀ value ∈ payloadsOf fieldDomainValue b, texts.valid value) ∧
      (∀ raw ∈ payloadsOf fieldDomainAttr b, WellFormed raw ∧ ∀ key ∈ payloadsOf fieldAttrKey raw, texts.valid key) ∧
      domain = ⟨lastVarint fieldDomainType (partsOf b) % 2 ^ 32, lastPayload fieldDomainValue (partsOf b),
        (payloadsOf fieldDomainAttr b).map fun raw => lastPayload fieldAttrKey (partsOf raw)⟩ := by
  simp only [decodeDomain, Option.bind_eq_bind, Option.bind_eq_some_iff, toOption_fieldsOf, Option.ite_none_right_eq_some,
    Option.some.injEq, mapM_iff decodeAttribute_eq]
  constructor
  · rintro ⟨_, ⟨-, rfl⟩, valid, _, ⟨all, rfl⟩, rfl⟩
    exact ⟨valid, all, rfl⟩
  · rintro ⟨valid, all, rfl⟩
    exact ⟨_, ⟨formed, rfl⟩, valid, _, ⟨all, rfl⟩, rfl⟩

theorem fits_low {address : Bytes} {bits : Nat} (h : fits address bits) : bits % 2 ^ 32 = bits := by
  obtain ⟨length, small⟩ := h
  refine Nat.mod_eq_of_lt ?_
  omega

theorem decoded_iff {texts : Texts} {kind : GeoKind} {payload : Bytes} (formed : WellFormed payload) :
    RuleDecoded texts kind payload ↔ RulePlain texts kind payload := by
  cases kind with
  | site =>
      simp only [RuleDecoded, RulePlain, domainValue_ok, decodeDomain_eq formed, domainKind_first formed, payloadsOf]
      constructor
      · intro right some'
        obtain ⟨_, ⟨valid, attributes, rfl⟩, -, kind, keys⟩ := right _ _ ⟨formed, rfl⟩ some'
        refine ⟨valid, attributes, ?_, kind.symm⟩
        rw [List.map_map] at keys
        rw [← List.map_congr_left fun raw mem => attributeKey_first (attributes raw mem).1]
        exact keys.symm
      · rintro plain value attributes ⟨-, same⟩ some'
        cases same
        obtain ⟨valid, attributes, keys, kind⟩ := plain some'
        refine ⟨_, ⟨valid, attributes, rfl⟩, rfl, kind.symm, ?_⟩
        rw [List.map_congr_left fun raw mem => attributeKey_first (attributes raw mem).1, List.map_map]
        exact keys.symm
  | ip =>
      have decode : decodeCIDR payload = some (lastPayload fieldCIDRAddress (partsOf payload),
          lastVarint fieldCIDRPrefixLen (partsOf payload) % 2 ^ 32) := by
        rw [decodeCIDR, toOption_fieldsOf.mpr ⟨formed, rfl⟩]
        rfl
      simp only [RuleDecoded, RulePlain, cidrBytes_ok, decode, Option.some.injEq, Prod.mk.injEq]
      constructor
      · rintro ⟨_, _, ⟨rfl, rfl⟩, -, same⟩
        have both := congrArg Option.isSome same
        simp only [apply_ite Option.isSome, Option.isSome_some, Option.isSome_none] at both
        simpa [eq_comm, iff_comm] using both
      · intro plain
        refine ⟨_, _, ⟨rfl, rfl⟩, formed, ?_⟩
        by_cases narrow : fits (lastPayload fieldCIDRAddress (partsOf payload)) (lastVarint fieldCIDRPrefixLen (partsOf payload))
        · rw [fits_low narrow]
        · rw [if_neg narrow, if_neg fun low => narrow (plain.mpr low)]

/-! ## A file -/

def recordsAt (scan : CategoryScan) (data code : Bytes) : List Bytes := (scan.spans code).map (cut data)

/-- The index, the pages and the decoder of the format agree on a file that can be read; any other is refused. -/
structure FileRead (texts : Texts) (kind : GeoKind) (data : Bytes) : Prop where
  accepted : (∃ scan, scanIndex texts kind data = .ok scan) ↔ Readable data
  codes : ∀ scan, scanIndex texts kind data = .ok scan → (scan.categories.map (·.code)).Nodup ∧
    ∀ code, code ∈ scan.categories.map (·.code) ↔
      code ≠ [] ∧ ∃ entry ∈ payloadsOf fieldListEntry data, codeOf texts entry = code
  spans : ∀ scan, scanIndex texts kind data = .ok scan → ∀ code ∈ scan.categories.map (·.code),
    recordsAt scan data code = recordsOf texts code (payloadsOf fieldListEntry data) ∧
      (scan.spans code).Pairwise fun a b => a.offset + a.length ≤ b.offset
  entries : ∀ scan, scanIndex texts kind data = .ok scan → ∀ category ∈ scan.categories, ∀ offset limit, ∃ page,
    scanEntries texts (recordsAt scan data category.code) kind [] offset limit = .ok page ∧ category.entries = page.total
  pages : ∀ scan, scanIndex texts kind data = .ok scan → ∀ code ∈ scan.categories.map (·.code), ∀ query size n,
    let all := listed texts kind query (recordsOf texts code (payloadsOf fieldListEntry data))
    all.length ≤ n * size → ∃ page : Nat → GeoEntryPage,
      (∀ i, scanEntries texts (recordsAt scan data code) kind query (i * size) size = .ok (page i)) ∧
      (∀ i, (page i).total = all.length) ∧ (List.range n).flatMap (fun i => (page i).items) = all
  attributes : ∀ scan, scanIndex texts kind data = .ok scan → ∀ category ∈ scan.categories, ∀ a, a ∈ category.attributes ↔
    ∃ entry ∈ recordsAt scan data category.code, ∃ rule ∈ rulesOf texts kind entry, a ∈ rule.2
  decoded : ∀ scan, scanIndex texts kind data = .ok scan → ∀ code ∈ scan.categories.map (·.code),
    ∀ entry ∈ recordsAt scan data code, ∀ payload ∈ payloadsOf fieldEntryPayload entry, RuleDecoded texts kind payload

def FilePlain (texts : Texts) (kind : GeoKind) (data : Bytes) : Prop :=
  Readable data → ∀ entry ∈ payloadsOf fieldListEntry data, codeOf texts entry ≠ [] →
    ∀ payload ∈ payloadsOf fieldEntryPayload entry, RulePlain texts kind payload

theorem recordsAt_eq {texts : Texts} {kind : GeoKind} {data : Bytes} {scan : CategoryScan}
    (h : scanIndex texts kind data = .ok scan) {code : Bytes} (some' : code ≠ []) :
    recordsAt scan data code = recordsOf texts code (payloadsOf fieldListEntry data) := by
  obtain ⟨readable, indexed⟩ := scanIndex_indexed h
  rw [recordsAt, indexed.spans, if_neg some', List.map_map, recordsOf, ← entriesOf_payloads, List.filter_map]
  exact List.map_congr_left fun listed mem => entriesOf_cut readable.1 (List.mem_of_mem_filter mem)

/-- The hand-written reader agrees with the decoder of the format on the files whose rules are plain, and on no others. -/
theorem file_read (texts : Texts) (kind : GeoKind) (data : Bytes) : FileRead texts kind data ↔ FilePlain texts kind data := by
  have known : ∀ scan, scanIndex texts kind data = .ok scan → ∀ code,
      code ∈ scan.categories.map (·.code) ↔
        code ≠ [] ∧ ∃ entry ∈ payloadsOf fieldListEntry data, codeOf texts entry = code := by
    intro scan h code
    rw [(scanIndex_indexed h).2.codes, ← entriesOf_payloads]
    simp
  have readable : ∀ scan, scanIndex texts kind data = .ok scan → ∀ code,
      ∀ entry ∈ recordsOf texts code (payloadsOf fieldListEntry data), EntryReadable entry := by
    intro scan h code entry mem
    exact (scanIndex_indexed h).1.2 entry (List.mem_of_mem_filter mem)
  constructor
  · intro right open' entry mem named payload there
    obtain ⟨scan, h⟩ := right.accepted.mpr open'
    refine (decoded_iff ((open'.2 entry mem).2 payload there)).mp ?_
    refine right.decoded scan h _ ((known scan h _).mpr ⟨named, entry, mem, rfl⟩) entry ?_ payload there
    rw [recordsAt_eq h named]
    exact List.mem_filter.mpr ⟨mem, decide_eq_true rfl⟩
  · intro plain
    refine ⟨?_, ?_, ?_, ?_, ?_, ?_, ?_⟩
    · constructor
      · rintro ⟨scan, h⟩
        exact (scanIndex_ok.mp h).1
      · intro open'
        exact ⟨_, scanIndex_ok.mpr ⟨open', rfl⟩⟩
    · exact fun scan h => ⟨(scanIndex_indexed h).2.distinct, known scan h⟩
    · intro scan h code mem
      have some' := ((known scan h code).mp mem).1
      refine ⟨recordsAt_eq h some', ?_⟩
      rw [(scanIndex_indexed h).2.spans, if_neg some']
      exact ((entriesOf_ordered (scanIndex_indexed h).1.1).filter _).map _ fun _ _ => id
    · intro scan h category mem offset limit
      have some' := ((known scan h category.code).mp (List.mem_map_of_mem mem)).1
      rw [recordsAt_eq h some', scanEntries_eq [] offset limit (readable scan h category.code)]
      refine ⟨_, rfl, ?_⟩
      rw [(scanIndex_indexed h).2.entries category mem, entriesOf_payloads]
    · intro scan h code mem query size n all enough
      have some' := ((known scan h code).mp mem).1
      refine ⟨fun i => ⟨all.length, (all.drop (i * size)).take size⟩, fun i => ?_, fun i => rfl, ?_⟩
      · rw [recordsAt_eq h some', scanEntries_eq query _ _ (readable scan h code)]
      · rw [pages_join, List.take_of_length_le enough]
    · intro scan h category mem a
      have some' := ((known scan h category.code).mp (List.mem_map_of_mem mem)).1
      rw [(scanIndex_indexed h).2.attributes category mem, entriesOf_payloads, recordsAt_eq h some']
    · intro scan h code mem entry there payload inside
      have some' := ((known scan h code).mp mem).1
      rw [recordsAt_eq h some'] at there
      obtain ⟨listed, same⟩ := List.mem_filter.mp there
      have open' := (scanIndex_indexed h).1
      refine (decoded_iff ((open'.2 entry listed).2 payload inside)).mpr (plain open' entry listed ?_ payload inside)
      rwa [of_decide_eq_true same]

/-! A domain whose type is given twice: the reader takes the first one, the format the last. -/

def asciiTexts : Texts where
  toLower b := b.map fun c => if 65 ≤ c ∧ c ≤ 90 then c + 32 else c
  toLower_nil := rfl
  valid b := b.all (· < 128)
  prefixText address bits := address ++ [47, UInt8.ofNat bits]

def twiceTyped : Bytes := [8, 3, 18, 3, 97, 46, 98, 8, 2]

def twiceTypedFile : Bytes := [10, 15, 10, 2, 67, 78, 18, 9] ++ twiceTyped

theorem file_misread : ¬ FileRead asciiTexts .site twiceTypedFile := by
  intro right
  have ran : ((scanIndex asciiTexts .site twiceTypedFile).map (·.categories)) = .ok [⟨[99, 110], 1, []⟩] := by decide +kernel
  cases h : scanIndex asciiTexts .site twiceTypedFile with
  | error e =>
      rw [h] at ran
      cases ran
  | ok scan =>
      rw [h] at ran
      have categories : scan.categories = [⟨[99, 110], 1, []⟩] := Except.ok.inj ran
      have named : [99, 110] ∈ scan.categories.map (·.code) := by simp [categories]
      have record : [10, 2, 67, 78, 18, 9] ++ twiceTyped ∈ recordsAt scan twiceTypedFile [99, 110] := by
        rw [recordsAt_eq h (by decide)]
        decide +kernel
      have decoded := right.decoded scan h [99, 110] named _ record twiceTyped (by decide +kernel) [97, 46, 98] []
        (by decide +kernel) (by decide)
      obtain ⟨domain, decode, -, kind, -⟩ := decoded
      have last : (decodeDomain asciiTexts twiceTyped).map (·.matchType) = some 2 := by decide +kernel
      rw [decode] at last
      have matchType : domain.matchType = 2 := Option.some.inj last
      rw [matchType] at kind
      revert kind
      decide +kernel

end ThreeXNode.Xray.Geodata
