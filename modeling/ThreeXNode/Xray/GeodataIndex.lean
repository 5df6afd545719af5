import ThreeXNode.Xray.Geodata

namespace ThreeXNode.Xray.Geodata
open Library Protowire

/-! ## Pages -/

def listed (texts : Texts) (kind : GeoKind) (query : Bytes) (records : List Bytes) : List GeoEntry :=
  ((records.flatMap (rulesOf texts kind)).map Prod.fst).filter (asked texts query)

theorem page_snoc (offset limit : Nat) (all : List GeoEntry) (entry : GeoEntry) :
    (if offset ≤ all.length ∧ ((all.drop offset).take limit).length < limit then (all.drop offset).take limit ++ [entry]
      else (all.drop offset).take limit) = ((all ++ [entry]).drop offset).take limit := by
  by_cases inside : offset ≤ all.length
  · rw [List.drop_append_of_le_length inside, List.take_append, List.length_take, List.length_drop]
    by_cases room : all.length - offset < limit
    · have short : min limit (all.length - offset) < limit := by omega
      rw [if_pos ⟨inside, short⟩, List.take_of_length_le (l := [entry]) (by simp; omega)]
    · have full : limit - (all.length - offset) = 0 := by omega
      rw [if_neg (by omega), full, List.take_zero, List.append_nil]
  · rw [if_neg (fun h => inside h.1), List.drop_eq_nil_of_le (by omega : all.length ≤ offset),
      List.drop_eq_nil_of_le (by simp; omega : (all ++ [entry]).length ≤ offset)]

theorem rules_paged {texts : Texts} {kind : GeoKind} {query : Bytes} {offset limit : Nat} (payloads : List Bytes)
    (all : List GeoEntry) :
    payloads.foldl (fun s payload =>
        (((ruleOf texts kind payload).map Prod.fst).filter (asked texts query)).elim s fun entry =>
          (s.1 + 1, if offset ≤ s.1 ∧ s.2.length < limit then s.2 ++ [entry] else s.2))
        (all.length, (all.drop offset).take limit) =
      let seen := all ++ ((payloads.filterMap (ruleOf texts kind)).map Prod.fst).filter (asked texts query)
      (seen.length, (seen.drop offset).take limit) := by
  induction payloads generalizing all with
  | nil => simp
  | cons payload payloads ih =>
      rw [List.foldl_cons, List.filterMap_cons]
      cases ruleOf texts kind payload with
      | none => exact ih all
      | some rule =>
          by_cases shown : asked texts query rule.1
          · have step := ih (all ++ [rule.1])
            rw [List.length_append, ← page_snoc] at step
            simpa [Option.filter, shown] using step
          · simpa [Option.filter, shown] using ih all

theorem records_paged {texts : Texts} {kind : GeoKind} {query : Bytes} {offset limit : Nat} (records : List Bytes)
    (all : List GeoEntry) :
    records.foldl (fun s entry => (payloadsOf fieldEntryPayload entry).foldl (fun s payload =>
        (((ruleOf texts kind payload).map Prod.fst).filter (asked texts query)).elim s fun entry =>
          (s.1 + 1, if offset ≤ s.1 ∧ s.2.length < limit then s.2 ++ [entry] else s.2)) s)
        (all.length, (all.drop offset).take limit) =
      let seen := all ++ listed texts kind query records
      (seen.length, (seen.drop offset).take limit) := by
  induction records generalizing all with
  | nil => simp [listed]
  | cons entry records ih =>
      rw [List.foldl_cons, rules_paged, ih]
      simp [listed, rulesOf]

theorem scanEntries_eq {texts : Texts} {kind : GeoKind} {records : List Bytes} (query : Bytes) (offset limit : Nat)
    (readable : ∀ entry ∈ records, EntryReadable entry) :
    scanEntries texts records kind query offset limit =
      .ok ⟨(listed texts kind query records).length, ((listed texts kind query records).drop offset).take limit⟩ := by
  have pass : ∀ (s : Nat × List GeoEntry) entry t,
      (walkEntry texts (pageRule texts kind query offset limit) s entry >>= fun walked => pure walked.2) =
        Except.ok t ↔ EntryReadable entry ∧
        t = (payloadsOf fieldEntryPayload entry).foldl (fun s payload =>
          (((ruleOf texts kind payload).map Prod.fst).filter (asked texts query)).elim s fun entry =>
            (s.1 + 1, if offset ≤ s.1 ∧ s.2.length < limit then s.2 ++ [entry] else s.2)) s := by
    intro s entry t
    simp only [Except.bind_eq_ok, walkEntry_ok fun _ _ _ => pageRule_ok, Except.pure_eq_ok]
    constructor
    · rintro ⟨_, ⟨formed, rfl⟩, rfl⟩
      exact ⟨formed, rfl⟩
    · rintro ⟨formed, rfl⟩
      exact ⟨_, ⟨formed, rfl⟩, rfl⟩
  have paged := (@records_paged texts kind query offset limit) records []
  rw [List.drop_nil, List.take_nil] at paged
  rw [scanEntries, Except.bind_eq_ok]
  refine ⟨_, (foldlM_checked pass).mpr ⟨readable, rfl⟩, ?_⟩
  rw [show ((0 : Nat), ([] : List GeoEntry)) = (([] : List GeoEntry).length, []) from rfl, paged]
  rfl

/-! ## The index -/

def recordsOf (texts : Texts) (code : Bytes) (entries : List Bytes) : List Bytes :=
  entries.filter fun entry => codeOf texts entry = code

theorem recordsOf_snoc (texts : Texts) (code : Bytes) (entries : List Bytes) (entry : Bytes) :
    recordsOf texts code (entries ++ [entry]) =
      recordsOf texts code entries ++ if codeOf texts entry = code then [entry] else [] := by
  by_cases same : codeOf texts entry = code <;> simp [recordsOf, same]

theorem listed_length (texts : Texts) (kind : GeoKind) (records : List Bytes) :
    (listed texts kind [] records).length = (records.flatMap (rulesOf texts kind)).length := by
  rw [listed, List.filter_eq_self.mpr fun entry _ => by simp [asked], List.length_map]

theorem mem_mergeAttributes {existing attributes : List Bytes} {a : Bytes} :
    a ∈ mergeAttributes existing attributes ↔ a ∈ existing ∨ a ∈ attributes := by
  unfold mergeAttributes
  split
  · rename_i empty
    simp [empty]
  · rw [List.mem_insertionSort, List.mem_dedup, List.mem_append]

theorem addCategory_codes (categories : List GeoCategory) (code : Bytes) (count : Nat) (attributes : List Bytes) :
    (addCategory categories code count attributes).map (·.code) =
      if code ∈ categories.map (·.code) then categories.map (·.code) else categories.map (·.code) ++ [code] := by
  unfold addCategory
  split
  · rw [List.map_map]
    refine List.map_congr_left fun category _ => ?_
    dsimp only [Function.comp_apply]
    split <;> rfl
  · rw [List.map_append]
    rfl

theorem mem_addCategory {categories : List GeoCategory} {code : Bytes} {count : Nat} {attributes : List Bytes}
    {category : GeoCategory} (mem : category ∈ addCategory categories code count attributes) :
    (category ∈ categories ∧ category.code ≠ code) ∨
      (∃ before ∈ categories, before.code = code ∧
        category = ⟨code, before.entries + count, mergeAttributes before.attributes attributes⟩) ∨
      (code ∉ categories.map (·.code) ∧ category = ⟨code, count, mergeAttributes [] attributes⟩) := by
  unfold addCategory at mem
  split at mem
  · obtain ⟨before, there, rfl⟩ := List.mem_map.mp mem
    by_cases same : before.code = code
    · rw [if_pos same]
      exact .inr (.inl ⟨before, there, same, by rw [same]⟩)
    · rw [if_neg same]
      exact .inl ⟨there, same⟩
  · rename_i fresh
    rcases List.mem_append.mp mem with there | here
    · exact .inl ⟨there, fun same => fresh (List.mem_map.mpr ⟨category, there, same⟩)⟩
    · exact .inr (.inr ⟨fresh, List.mem_singleton.mp here⟩)

/-- What the scan holds of the list entries it has met. -/
structure Indexed (texts : Texts) (kind : GeoKind) (done : List (Bytes × ByteSpan)) (scan : CategoryScan) : Prop where
  spans : ∀ code, scan.spans code =
    if code = [] then [] else (done.filter fun listed => codeOf texts listed.1 = code).map Prod.snd
  distinct : (scan.categories.map (·.code)).Nodup
  codes : ∀ code, code ∈ scan.categories.map (·.code) ↔ code ≠ [] ∧ ∃ listed ∈ done, codeOf texts listed.1 = code
  entries : ∀ category ∈ scan.categories,
    category.entries = (listed texts kind [] (recordsOf texts category.code (done.map Prod.fst))).length
  attributes : ∀ category ∈ scan.categories, ∀ a, a ∈ category.attributes ↔
    ∃ entry ∈ recordsOf texts category.code (done.map Prod.fst), ∃ rule ∈ rulesOf texts kind entry, a ∈ rule.2

theorem Indexed.add {texts : Texts} {kind : GeoKind} {done : List (Bytes × ByteSpan)} {scan : CategoryScan}
    (indexed : Indexed texts kind done scan) (added : Bytes × ByteSpan) :
    Indexed texts kind (done ++ [added]) (addEntry texts kind scan added) := by
  unfold addEntry
  dsimp only
  by_cases empty : codeOf texts added.1 = []
  · rw [if_pos empty]
    have others : ∀ code, code ≠ [] → codeOf texts added.1 ≠ code := fun code some' same => some' (same ▸ empty)
    have named : ∀ category ∈ scan.categories, category.code ≠ [] := fun category mem =>
      ((indexed.codes _).mp (List.mem_map_of_mem mem)).1
    refine ⟨?_, indexed.distinct, ?_, ?_, ?_⟩
    · intro code
      rw [indexed.spans]
      split
      · rfl
      · rename_i some'
        simp [others code some']
    · intro code
      rw [indexed.codes]
      refine and_congr_right fun some' => ?_
      simp [others code some']
    · intro category mem
      rw [List.map_append, List.map_singleton, recordsOf_snoc, if_neg (others _ (named category mem)), List.append_nil]
      exact indexed.entries category mem
    · intro category mem
      rw [List.map_append, List.map_singleton, recordsOf_snoc, if_neg (others _ (named category mem)), List.append_nil]
      exact indexed.attributes category mem
  · rw [if_neg empty]
    generalize code : codeOf texts added.1 = c at empty ⊢
    -- the category of the entry has what the entries before it gave it and what this one gives
    have parts : ∀ category ∈ addCategory scan.categories c (rulesOf texts kind added.1).length
          ((rulesOf texts kind added.1).flatMap Prod.snd),
        (category ∈ scan.categories ∧ category.code ≠ c) ∨ (category.code = c ∧
          category.entries = (listed texts kind [] (recordsOf texts c (done.map Prod.fst))).length +
            (rulesOf texts kind added.1).length ∧
          ∀ a, a ∈ category.attributes ↔
            (∃ entry ∈ recordsOf texts c (done.map Prod.fst), ∃ rule ∈ rulesOf texts kind entry, a ∈ rule.2) ∨
              ∃ rule ∈ rulesOf texts kind added.1, a ∈ rule.2) := by
      intro category mem
      rcases mem_addCategory mem with other | ⟨before, there, same, rfl⟩ | ⟨fresh, rfl⟩
      · exact .inl other
      · have entries := indexed.entries before there
        have attributes := indexed.attributes before there
        rw [same] at entries attributes
        refine .inr ⟨rfl, congrArg (· + _) entries, fun a => ?_⟩
        rw [mem_mergeAttributes, attributes, List.mem_flatMap]
      · have none' : recordsOf texts c (done.map Prod.fst) = [] := by
          rw [recordsOf, List.filter_eq_nil_iff]
          intro entry mem
          obtain ⟨listed, there, rfl⟩ := List.mem_map.mp mem
          rw [decide_eq_true_eq]
          exact fun same => fresh ((indexed.codes c).mpr ⟨empty, listed, there, same⟩)
        rw [none']
        refine .inr ⟨rfl, by simp [listed], fun a => ?_⟩
        rw [mem_mergeAttributes, List.mem_flatMap]
        simp
    refine ⟨?_, ?_, ?_, ?_, ?_⟩
    · intro code'
      dsimp only
      by_cases same : code' = c
      · subst same
        rw [Function.update_self, indexed.spans, if_neg empty, if_neg empty]
        simp [code]
      · rw [Function.update_of_ne same, indexed.spans]
        have other : codeOf texts added.1 ≠ code' := fun eq => same (eq.symm.trans code)
        split
        · rfl
        · simp [other]
    · rw [addCategory_codes]
      split
      · exact indexed.distinct
      · rename_i fresh
        refine List.nodup_append.mpr ⟨indexed.distinct, List.nodup_singleton _, ?_⟩
        rintro a mem b here rfl
        exact fresh (List.mem_singleton.mp here ▸ mem)
    · intro code'
      have split' : (∃ listed ∈ done ++ [added], codeOf texts listed.1 = code') ↔
          (∃ listed ∈ done, codeOf texts listed.1 = code') ∨ c = code' := by
        simp [or_and_right, exists_or, code]
      rw [addCategory_codes, split']
      split
      · rename_i known
        rw [indexed.codes]
        refine and_congr_right fun _ => ⟨.inl, ?_⟩
        rintro (met | rfl)
        · exact met
        · exact ((indexed.codes c).mp known).2
      · rw [List.mem_append, indexed.codes, List.mem_singleton]
        constructor
        · rintro (⟨some', met⟩ | rfl)
          · exact ⟨some', .inl met⟩
          · exact ⟨empty, .inr rfl⟩
        · rintro ⟨some', met | rfl⟩
          · exact .inl ⟨some', met⟩
          · exact .inr rfl
    · intro category mem
      rw [List.map_append, List.map_singleton, recordsOf_snoc, code]
      rcases parts category mem with ⟨there, other⟩ | ⟨same, count, -⟩
      · rw [if_neg (Ne.symm other), List.append_nil]
        exact indexed.entries category there
      · rw [same, if_pos rfl, listed_length, List.flatMap_append, List.length_append, ← listed_length, count]
        simp
    · intro category mem a
      rw [List.map_append, List.map_singleton, recordsOf_snoc, code]
      rcases parts category mem with ⟨there, other⟩ | ⟨same, -, keys⟩
      · rw [if_neg (Ne.symm other), List.append_nil]
        exact indexed.attributes category there a
      · rw [same, if_pos rfl, keys]
        simp [or_and_right, exists_or]

theorem scanIndex_ok {texts : Texts} {kind : GeoKind} {data : Bytes} {scan : CategoryScan} :
    scanIndex texts kind data = .ok scan ↔ Readable data ∧
      scan = { (entriesOf data).foldl (addEntry texts kind) ⟨[], fun _ => [], 0⟩ with
        categories := ((entriesOf data).foldl (addEntry texts kind) ⟨[], fun _ => [], 0⟩).categories.insertionSort
          fun a b => a.code ≤ b.code } := by
  have walked : ∀ met, eachListEntry (indexEntry texts kind) ⟨[], fun _ => [], 0⟩ data = .ok met ↔
      Readable data ∧ met = (entriesOf data).foldl (addEntry texts kind) ⟨[], fun _ => [], 0⟩ := fun met =>
    eachListEntry_ok (g := addEntry texts kind) fun scan entry span scan' => indexEntry_ok
  simp only [scanIndex, Except.bind_eq_ok, walked, Except.pure_eq_ok]
  constructor
  · rintro ⟨_, ⟨readable, rfl⟩, rfl⟩
    exact ⟨readable, rfl⟩
  · rintro ⟨readable, rfl⟩
    exact ⟨_, ⟨readable, rfl⟩, rfl⟩

theorem scanIndex_indexed {texts : Texts} {kind : GeoKind} {data : Bytes} {scan : CategoryScan}
    (h : scanIndex texts kind data = .ok scan) : Readable data ∧ Indexed texts kind (entriesOf data) scan := by
  obtain ⟨readable, rfl⟩ := scanIndex_ok.mp h
  refine ⟨readable, ?_⟩
  have built := foldl_keeps (f := addEntry texts kind) (s := ⟨[], fun _ => [], 0⟩) (Indexed texts kind) (entriesOf data)
    (by constructor <;> simp) fun done listed scan _ indexed => indexed.add listed
  have sorted := List.perm_insertionSort (fun a b : GeoCategory => a.code ≤ b.code)
    ((entriesOf data).foldl (addEntry texts kind) ⟨[], fun _ => [], 0⟩).categories
  refine ⟨built.spans, ?_, ?_, ?_, ?_⟩
  · exact (sorted.map _).nodup_iff.mpr built.distinct
  · exact fun code => (sorted.map _).mem_iff.trans (built.codes code)
  · exact fun category mem => built.entries category (sorted.mem_iff.mp mem)
  · exact fun category mem => built.attributes category (sorted.mem_iff.mp mem)

/-! ## Where the entries stand -/

def cut (data : Bytes) (span : ByteSpan) : Bytes := (data.drop span.offset).take span.length

theorem listed_span {data entry : Bytes} (formed : WellFormed data) {field : Field × Bytes} (there : field ∈ partsOf data)
    (payload : field.1.payload fieldListEntry = some entry) :
    ∃ front, data = front ++ (entry ++ field.2) ∧ data.length - field.2.length - entry.length = front.length := by
  obtain ⟨front, whole⟩ := fieldsOf_payload (wellFormed_iff.mp formed) there (Field.value_of_payload payload)
  refine ⟨front, whole.symm, ?_⟩
  rw [← whole, List.length_append, List.length_append]
  omega

theorem entriesOf_cut {data : Bytes} (formed : WellFormed data) {listed : Bytes × ByteSpan} (mem : listed ∈ entriesOf data) :
    cut data listed.2 = listed.1 := by
  obtain ⟨field, there, same⟩ := List.mem_filterMap.mp mem
  obtain ⟨entry, payload, rfl⟩ := Option.map_eq_some_iff.mp same
  obtain ⟨front, whole, offset⟩ := listed_span formed there payload
  rw [cut, offset]
  dsimp only
  rw [whole, List.drop_left, List.take_left]

theorem entriesOf_ordered {data : Bytes} (formed : WellFormed data) :
    (entriesOf data).Pairwise fun a b => a.2.offset + a.2.length ≤ b.2.offset := by
  rw [entriesOf, List.pairwise_filterMap]
  refine (fieldsOf_ordered (wellFormed_iff.mp formed)).imp_of_mem ?_
  intro field later there there' behind a met b met'
  obtain ⟨entry, payload, rfl⟩ := Option.map_eq_some_iff.mp met
  obtain ⟨entry', payload', rfl⟩ := Option.map_eq_some_iff.mp met'
  obtain ⟨front, whole, offset⟩ := listed_span formed there payload
  have behind := (behind entry' (Field.value_of_payload payload')).length_le
  have total := congrArg List.length whole
  simp only [List.length_append] at behind total
  dsimp only
  omega

end ThreeXNode.Xray.Geodata
