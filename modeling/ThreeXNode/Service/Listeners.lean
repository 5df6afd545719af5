import ThreeXNode.Service.Ports

namespace ThreeXNode.Service.Ports
open Library

variable {apiPort : Int} {inst : Option Json → Bool} {rows rest : List Inbound} {row : Inbound}

/-! ## The condition on a step -/

/-- One address in two spellings, or a wildcard that `isAnyListen` does not know. -/
def Misspelled (a b : String) : Prop := Overlap a b = true ∧ listenOverlaps a b = false

instance (a b : String) : Decidable (Misspelled a b) := inferInstanceAs (Decidable (_ ∧ _))

/-- A row that is saved with other rows `rest` in the table has no address that an enabled listener spells in another
way, and if it gets a relay, the port of the relay is neither its own nor the API's. -/
def Careful (apiPort : Int) (inst : Option Json → Bool) (rest : List Inbound) (row : Inbound) : Prop :=
  (∀ own ∈ row.listeners inst, ∀ other ∈ listeners apiPort inst rest, own.port = other.port →
    own.transports.and other.transports ≠ noTransport → ¬Misspelled own.listen other.listen) ∧
  (row.relayed inst = true → (row.port = socksPortForInbound row.id → Overlap row.listen "127.0.0.1" = false) ∧
    socksPortForInbound row.id ≠ apiPort)

instance : Decidable (Careful apiPort inst rest row) := inferInstanceAs (Decidable (_ ∧ _))

/-- The relay ports of enabled inbounds are not ports of enabled inbounds. -/
def Unrelated (inst : Option Json → Bool) (rest : List Inbound) (row : Inbound) : Prop :=
  ∀ other ∈ rest,
    (row.relayed inst = true → other.enable = true → other.nodeId = none → other.port = socksPortForInbound row.id →
      listenOverlaps "127.0.0.1" other.listen = false) ∧
    (other.relayed inst = true → row.port = socksPortForInbound other.id → listenOverlaps "127.0.0.1" row.listen = false)

instance : Decidable (Unrelated inst rest row) := inferInstanceAs (Decidable (∀ other ∈ rest, _ ∧ _))

def Meets (apiPort : Int) (inst : Option Json → Bool) (rows : List Inbound) : Op → Prop
  | .addInbound inbound id clients => Careful apiPort inst rows (added inbound id clients)
  | .updateInbound inbound clients => ∀ old ∈ rows, old.id = inbound.id →
      Careful apiPort inst (rows.filter (·.id ≠ old.id)) (updated old inbound clients)
  | .setInboundEnable id enable => enable = true → ∀ old ∈ rows, old.id = id → old.enable = false →
      old.nodeId = none → Careful apiPort inst (rows.filter (·.id ≠ id)) { old with enable := true } ∧
        Unrelated inst (rows.filter (·.id ≠ id)) { old with enable := true }

instance (op : Op) : Decidable (Meets apiPort inst rows op) :=
  match op with
  | .addInbound _ _ _ => inferInstanceAs (Decidable (Careful ..))
  | .updateInbound _ _ => inferInstanceAs (Decidable (∀ old ∈ rows, _ → _))
  | .setInboundEnable _ _ => inferInstanceAs (Decidable (_ → ∀ old ∈ rows, _ → _ → _ → _ ∧ _))

/-! ## Overlapping addresses -/

theorem Overlap_comm (a b : String) : Overlap a b = Overlap b a := by
  simp only [Overlap]
  grind -ring -linarith -order -ac

theorem listenOverlaps_comm (a b : String) : listenOverlaps a b = listenOverlaps b a := by
  simp only [listenOverlaps]
  grind -ring -linarith -order -ac

theorem Transports.and_comm (a b : Transports) : a.and b = b.and a := by
  simp [Transports.and, Bool.and_comm]

theorem Listener.clash_comm (a b : Listener) : a.Clash b = b.Clash a := by
  simp only [Listener.Clash, Overlap_comm a.listen, Transports.and_comm a.transports, eq_comm (a := a.port)]

theorem not_misspelled {a b : String} (spelled : ¬Misspelled a b) (overlap : Overlap a b = true) :
    listenOverlaps a b = true := by
  simpa [Misspelled, overlap] using spelled

theorem Listener.clash_false {a b : Listener} : a.Clash b = false ↔
    (a.port = b.port → a.transports.and b.transports ≠ noTransport → Overlap a.listen b.listen = false) := by
  simp [Listener.Clash, Bool.and_assoc]

/-! ## What a row must satisfy beside others -/

structure Checked (apiPort : Int) (inst : Option Json → Bool) (rest : List Inbound) (row : Inbound) : Prop where
  api : row.nodeId = none → row.port = apiPort → row.transports.tcp = true → listenOverlaps "127.0.0.1" row.listen = false
  relays : row.enable = true → row.nodeId = none → ∀ c ∈ rest, c.relayed inst = true → row.port = socksPortForInbound c.id →
    listenOverlaps "127.0.0.1" row.listen = false
  relay : row.relayed inst = true → ∀ c ∈ rest, c.enable = true → c.nodeId = none → c.port = socksPortForInbound row.id →
    listenOverlaps "127.0.0.1" c.listen = false
  pairs : ∀ c ∈ rest, c.nodeId = row.nodeId → c.port = row.port → c.transports.and row.transports ≠ noTransport →
    listenOverlaps c.listen row.listen = false

theorem checkPortConflictTx_none {inbound : Inbound} {ignoreId : Nat}
    (h : checkPortConflictTx apiPort inst rows inbound ignoreId = none) :
    (inbound.nodeId = none → inbound.port = apiPort → inbound.transports.tcp = true →
      listenOverlaps "127.0.0.1" inbound.listen = false) ∧
    (inbound.nodeId = none → ∀ c ∈ others rows ignoreId, c.relayed inst = true →
      inbound.port = socksPortForInbound c.id → listenOverlaps "127.0.0.1" inbound.listen = false) ∧
    (inbound.protocol = .amneziawg → 0 < ignoreId → ∀ c ∈ rows, c.nodeId = none → c.id ≠ ignoreId →
      c.port = socksPortForInbound ignoreId → listenOverlaps "127.0.0.1" c.listen = false) ∧
    ∀ c ∈ others rows ignoreId, c.nodeId = inbound.nodeId → c.port = inbound.port →
      c.transports.and inbound.transports ≠ noTransport → listenOverlaps c.listen inbound.listen = false := by
  simp only [checkPortConflictTx] at h
  by_cases api : (inbound.nodeId.isNone && inbound.port = apiPort && inbound.transports.tcp &&
      listenOverlaps "127.0.0.1" inbound.listen) = true
  · rw [if_pos api] at h
    cases h
  · rw [if_neg api, Option.or_eq_none_iff, Option.or_eq_none_iff] at h
    obtain ⟨relay, reverse, candidate⟩ := h
    refine ⟨fun here port tcp => ?_, fun here c mem relayed port => ?_, fun awg known c mem here apart port => ?_,
      fun c mem node port shared => ?_⟩
    · simpa [here, port, tcp] using api
    · by_contra overlaps
      rw [Bool.not_eq_false] at overlaps
      rw [if_pos (by simp [here, overlaps])] at relay
      simp only [checkAmneziawgnetSocksConflict, Option.map_eq_none_iff, List.find?_eq_none] at relay
      simpa [relayed, port] using relay c mem
    · rw [if_pos (by simp [awg, known])] at reverse
      simp only [checkAmneziawgnetSocksReverseConflict, Option.map_eq_none_iff, List.find?_eq_none] at reverse
      simpa [here, port, apart] using reverse c mem
    · simp only [Option.map_eq_none_iff, List.find?_eq_none] at candidate
      simpa [node, port, shared] using candidate c mem

theorem reverse_none {id : Nat} (h : checkAmneziawgnetSocksReverseConflict rows id = none) :
    ∀ c ∈ rows, c.nodeId = none → c.id ≠ id → c.port = socksPortForInbound id →
      listenOverlaps "127.0.0.1" c.listen = false := by
  intro c mem here apart port
  simp only [checkAmneziawgnetSocksReverseConflict, Option.map_eq_none_iff, List.find?_eq_none] at h
  simpa [here, port, apart] using h c mem

theorem relayed_iff {ib : Inbound} : ib.relayed inst = true ↔
    ib.protocol = .amneziawg ∧ ib.enable = true ∧ ib.nodeId = none ∧ inst ib.settings = true := by
  simp [Inbound.relayed, and_assoc]

theorem mem_listeners {ib : Inbound} {x : Listener} (mem : x ∈ ib.listeners inst) :
    ib.enable = true ∧ ib.nodeId = none ∧
      (x = ⟨ib.listen, ib.port, ib.transports⟩ ∨ ib.relayed inst = true ∧ x = ib.relay) := by
  unfold Inbound.listeners at mem
  split at mem
  · rename_i enabled
    simp only [Bool.and_eq_true, Option.isNone_iff_eq_none] at enabled
    refine ⟨enabled.1, enabled.2, ?_⟩
    split at mem <;> simp_all
  · cases mem

theorem Checked.beside (checked : Checked apiPort inst rest row) (careful : Careful apiPort inst rest row)
    (apart : ∀ c ∈ rest, c.id ≠ row.id) {x y : Listener} (own : x ∈ row.listeners inst)
    (other : y ∈ listeners apiPort inst rest) : x.Clash y = false := by
  rw [Listener.clash_false]
  intro port shared
  by_contra overlap
  rw [Bool.not_eq_false] at overlap
  have overlaps := not_misspelled (careful.1 x own y other port shared) overlap
  obtain ⟨enabled, here, kind⟩ := mem_listeners own
  rw [listeners, List.mem_cons, List.mem_flatMap] at other
  rcases other with rfl | ⟨c, mem, other⟩
  · rcases kind with rfl | ⟨relayed, rfl⟩
    · have tcp : row.transports.tcp = true := by
        by_contra none
        simp [apiListener, Transports.and, transportTCP, noTransport, none] at shared
      have free := checked.api here port tcp
      rw [listenOverlaps_comm] at overlaps
      simp [apiListener, free] at overlaps
    · exact (careful.2 relayed).2 port
  · obtain ⟨enabled', here', kind'⟩ := mem_listeners other
    rcases kind with rfl | ⟨relayed, rfl⟩ <;> rcases kind' with rfl | ⟨relayed', rfl⟩
    · rw [Transports.and_comm] at shared
      have free := checked.pairs c mem (here'.trans here.symm) port.symm shared
      rw [listenOverlaps_comm] at overlaps
      simp [free] at overlaps
    · have free := checked.relays enabled here c mem relayed' port
      rw [listenOverlaps_comm] at overlaps
      simp [Inbound.relay, free] at overlaps
    · have free := checked.relay relayed c mem enabled' here' port.symm
      simp [Inbound.relay, free] at overlaps
    · have same : (row.id : Int) = c.id := by simpa [Inbound.relay, socksPortForInbound] using port
      exact apart c mem (by exact_mod_cast same.symm)

theorem Careful.own (careful : Careful apiPort inst rest row) :
    (row.listeners inst).Pairwise fun x y => x.Clash y = false := by
  unfold Inbound.listeners
  split
  · split
    · rename_i relayed
      rw [List.pairwise_pair, Listener.clash_false]
      exact fun port _ => (careful.2 relayed).1 port
    · exact List.pairwise_singleton _ _
  · exact .nil

/-! ## The invariant -/

structure Separate (apiPort : Int) (inst : Option Json → Bool) (rows : List Inbound) : Prop where
  ids : (rows.map (·.id)).Nodup
  positive : ∀ r ∈ rows, 0 < r.id
  api : ∀ r ∈ rows, r.nodeId = none → r.port = apiPort → r.transports.tcp = true →
    listenOverlaps "127.0.0.1" r.listen = false
  pairs : ∀ a ∈ rows, ∀ b ∈ rows, a.id ≠ b.id → a.nodeId = b.nodeId → a.port = b.port →
    a.transports.and b.transports ≠ noTransport → listenOverlaps a.listen b.listen = false
  own : ∀ r ∈ rows, (r.listeners inst).Pairwise fun x y => x.Clash y = false
  beside : ∀ r ∈ rows, ∀ x ∈ r.listeners inst, (apiListener apiPort).Clash x = false
  apart : ∀ a ∈ rows, ∀ b ∈ rows, a.id ≠ b.id → ∀ x ∈ a.listeners inst, ∀ y ∈ b.listeners inst, x.Clash y = false

theorem Separate.pairwise (separate : Separate apiPort inst rows) :
    (listeners apiPort inst rows).Pairwise fun x y => x.Clash y = false := by
  rw [listeners, List.pairwise_cons, List.pairwise_flatMap]
  refine ⟨fun x mem => ?_, separate.own, ?_⟩
  · obtain ⟨r, here, mem⟩ := List.mem_flatMap.mp mem
    exact separate.beside r here x mem
  · have ids := separate.ids
    rw [List.Nodup, List.pairwise_map] at ids
    exact ids.imp_of_mem fun memA memB differ => separate.apart _ memA _ memB differ

theorem Careful.idle (idle : row.enable = false ∨ row.nodeId ≠ none) : Careful apiPort inst rest row := by
  refine ⟨fun own mem => ?_, fun relayed => ?_⟩
  · obtain ⟨enabled, here, _⟩ := mem_listeners mem
    simp [enabled, here] at idle
  · obtain ⟨_, enabled, here, _⟩ := relayed_iff.mp relayed
    simp [enabled, here] at idle

theorem Separate.replace {rows' : List Inbound} (separate : Separate apiPort inst rows)
    (checked : Checked apiPort inst rest row) (careful : Careful apiPort inst rest row)
    (others : ∀ c, c ∈ rest ↔ c ∈ rows ∧ c.id ≠ row.id) (members : ∀ r ∈ rows', r = row ∨ r ∈ rest)
    (ids : (rows'.map (·.id)).Nodup) (positive : 0 < row.id) : Separate apiPort inst rows' := by
  have apart : ∀ c ∈ rest, c.id ≠ row.id := fun c mem => ((others c).mp mem).2
  have kept : ∀ c ∈ rest, c ∈ rows := fun c mem => ((others c).mp mem).1
  have beside {x y : Listener} (own : x ∈ row.listeners inst) (other : y ∈ listeners apiPort inst rest) :=
    checked.beside careful apart own other
  have listed {c : Inbound} {y : Listener} (mem : c ∈ rest) (here : y ∈ c.listeners inst) :
      y ∈ listeners apiPort inst rest := List.mem_cons_of_mem _ (List.mem_flatMap.mpr ⟨c, mem, here⟩)
  refine ⟨ids, fun r mem => ?_, fun r mem => ?_, fun a memA b memB => ?_, fun r mem => ?_, fun r mem x here => ?_,
    fun a memA b memB differ x here y there => ?_⟩
  · rcases members r mem with rfl | other
    · exact positive
    · exact separate.positive r (kept r other)
  · rcases members r mem with rfl | other
    · exact checked.api
    · exact separate.api r (kept r other)
  · rcases members a memA with rfl | otherA <;> rcases members b memB with rfl | otherB
    · exact fun differ => absurd rfl differ
    · intro _ node port shared
      rw [Transports.and_comm] at shared
      rw [listenOverlaps_comm]
      exact checked.pairs b otherB node.symm port.symm shared
    · exact fun _ => checked.pairs a otherA
    · exact separate.pairs a (kept a otherA) b (kept b otherB)
  · rcases members r mem with rfl | other
    · exact careful.own
    · exact separate.own r (kept r other)
  · rcases members r mem with rfl | other
    · rw [Listener.clash_comm]
      exact beside here List.mem_cons_self
    · exact separate.beside r (kept r other) x here
  · rcases members a memA with rfl | otherA <;> rcases members b memB with rfl | otherB
    · exact absurd rfl differ
    · exact beside here (listed otherB there)
    · rw [Listener.clash_comm]
      exact beside there (listed otherA here)
    · exact separate.apart a (kept a otherA) b (kept b otherB) differ x here y there

/-! ## The operations keep it -/

theorem withClients_text {settings clients : Option Json} {key : String} (other : key ≠ "clients") :
    textAt (withClients settings clients) key = textAt settings key := by
  unfold withClients
  split
  · rename_i decoded
    simp [textAt, decoded, Std.ExtTreeMap.getElem?_insert, Ne.symm other]
  · rfl

theorem withClients_flag {settings clients : Option Json} {key : String} (other : key ≠ "clients") :
    flagAt (withClients settings clients) key = flagAt settings key := by
  unfold withClients
  split
  · rename_i decoded
    simp [flagAt, decoded, Std.ExtTreeMap.getElem?_insert, Ne.symm other]
  · rfl

theorem inboundTransports_withClients (protocol : Protocol) (stream settings clients : Option Json) :
    inboundTransports protocol stream (withClients settings clients) = inboundTransports protocol stream settings := by
  cases protocol
  case tunnel => simp [inboundTransports, withClients_text]
  case shadowsocks => simp [inboundTransports, withClients_text]
  case mixed => simp [inboundTransports, withClients_flag]
  all_goals rfl

theorem Separate.addInbound {inbound : Inbound} {id : Nat} {clients : Option Json} {rows' : List Inbound}
    (separate : Separate apiPort inst rows) (careful : Careful apiPort inst rows (added inbound id clients))
    (h : addInbound apiPort inst rows inbound id clients = some rows') : Separate apiPort inst rows' := by
  unfold Ports.addInbound at h
  split at h
  · cases h
  · rename_i fresh
    rw [not_or] at fresh
    obtain ⟨positive, fresh⟩ := fresh
    simp only at h
    split at h
    · cases h
    · rename_i free
      split at h
      · cases h
      · rename_i relay
        cases h
        rw [Option.not_isSome_iff_eq_none] at free
        obtain ⟨api, relays, _, pairs⟩ := checkPortConflictTx_none free
        have absent : ∀ c ∈ rows, c.id ≠ id := fun c mem same => fresh (same ▸ List.mem_map_of_mem mem)
        have checked : Checked apiPort inst rows (added inbound id clients) := by
          refine ⟨api, fun _ => relays, fun relayed c mem enabled here port => ?_, pairs⟩
          obtain ⟨awg, _⟩ := relayed_iff.mp relayed
          simp only [not_and, not_or] at relay
          have quiet := Option.not_isSome_iff_eq_none.mp (relay awg).2
          exact reverse_none quiet c (List.mem_append_left _ mem) here (absent c mem) port
        refine separate.replace checked careful (fun c => ⟨fun mem => ⟨mem, absent c mem⟩, And.left⟩) (fun r mem => ?_)
          ?_ (Nat.pos_of_ne_zero positive)
        · rcases List.mem_append.mp mem with old | new
          · exact .inr old
          · exact .inl (List.mem_singleton.mp new)
        · rw [List.map_append, List.nodup_append]
          refine ⟨separate.ids, List.nodup_singleton _, fun a mem b last => ?_⟩
          obtain ⟨c, here, rfl⟩ := List.mem_map.mp mem
          rw [List.mem_singleton.mp last]
          exact absent c here

private theorem members_map (rows : List Inbound) (row : Inbound) (id : Nat) :
    ∀ r ∈ rows.map (fun r => if r.id = id then row else r), r = row ∨ r ∈ rows.filter (·.id ≠ id) := by
  intro r mem
  obtain ⟨old, here, rfl⟩ := List.mem_map.mp mem
  by_cases its : old.id = id
  · simp [its]
  · simp [its, here]

private theorem ids_map (rows : List Inbound) (row : Inbound) {id : Nat} (same : row.id = id) :
    (rows.map (fun r => if r.id = id then row else r)).map (·.id) = rows.map (·.id) := by
  rw [List.map_map]
  refine List.map_congr_left fun r _ => ?_
  by_cases its : r.id = id <;> simp [its, same]

theorem Separate.updateInbound {inbound : Inbound} {clients : Option Json} {rows' : List Inbound}
    (separate : Separate apiPort inst rows) (meets : Meets apiPort inst rows (.updateInbound inbound clients))
    (h : updateInbound apiPort inst rows inbound clients = some rows') : Separate apiPort inst rows' := by
  simp only [Ports.updateInbound, Option.bind_eq_bind, Option.bind_eq_some_iff] at h
  obtain ⟨old, found, h⟩ := h
  have here := List.mem_of_find?_eq_some found
  have own : old.id = inbound.id := by simpa using List.find?_some found
  split at h
  · cases h
  · rename_i free
    cases h
    rw [Option.not_isSome_iff_eq_none] at free
    obtain ⟨api, relays, reverse, pairs⟩ := checkPortConflictTx_none free
    have positive := separate.positive old here
    have rest : others rows inbound.id = rows.filter (·.id ≠ old.id) := by
      rw [others, if_pos (own ▸ positive), own]
    rw [rest] at relays pairs
    have transports : (updated old inbound clients).transports =
        ({ normalizeStreamSettings inbound with nodeId := old.nodeId } : Inbound).transports :=
      inboundTransports_withClients _ _ _ _
    have checked : Checked apiPort inst (rows.filter (·.id ≠ old.id)) (updated old inbound clients) := by
      have known : 0 < inbound.id := own ▸ positive
      refine ⟨fun here' port tcp => api here' port ?_, fun _ => relays, fun relayed c mem _ here' port => ?_,
        fun c mem node port shared => pairs c mem node port ?_⟩
      · rwa [transports] at tcp
      rotate_left
      · rwa [transports] at shared
      obtain ⟨awg, _⟩ := relayed_iff.mp relayed
      obtain ⟨mem, apart⟩ := List.mem_filter.mp mem
      simp only [decide_eq_true_eq, own] at apart
      rw [show (updated old inbound clients).id = inbound.id from own] at port
      exact reverse awg known c mem here' apart port
    refine separate.replace checked (meets old here own) (fun c => ?_) ?_ ?_ positive
    · simp [updated]
    · exact own ▸ members_map rows _ _
    · rw [ids_map rows (updated old inbound clients) own]
      exact separate.ids

theorem Separate.setInboundEnable {id : Nat} {enable : Bool} {rows' : List Inbound}
    (separate : Separate apiPort inst rows) (meets : Meets apiPort inst rows (.setInboundEnable id enable))
    (h : setInboundEnable rows id enable = some rows') : Separate apiPort inst rows' := by
  simp only [Ports.setInboundEnable, Option.bind_eq_bind, Option.bind_eq_some_iff] at h
  obtain ⟨old, found, h⟩ := h
  have here := List.mem_of_find?_eq_some found
  have own : old.id = id := by simpa using List.find?_some found
  split at h
  · cases h
    exact separate
  · rename_i changes
    cases h
    have one : rows.map (fun r => if r.id = id then { r with enable } else r) =
        rows.map (fun r => if r.id = id then { old with enable } else r) := by
      refine List.map_congr_left fun r mem => ?_
      by_cases its : r.id = id
      · rw [if_pos its, if_pos its, List.inj_on_of_nodup_map separate.ids mem here (its.trans own.symm)]
      · rw [if_neg its, if_neg its]
    -- Enabling makes none of the checks, so what they would find out comes from the condition.
    have known : enable = true → old.nodeId = none →
        Careful apiPort inst (rows.filter (·.id ≠ id)) { old with enable := true } ∧
          Unrelated inst (rows.filter (·.id ≠ id)) { old with enable := true } := by
      rintro rfl
      exact meets rfl old here own (by simpa using changes)
    have checked : Checked apiPort inst (rows.filter (·.id ≠ id)) { old with enable } := by
      refine ⟨separate.api old here, fun enabled node c mem relayed port => ?_, fun relayed c mem enabled node port => ?_,
        fun c mem => ?_⟩
      · exact ((known enabled node).2 c mem).2 relayed port
      · obtain ⟨_, on, node', _⟩ := relayed_iff.mp relayed
        obtain rfl : enable = true := on
        exact ((known rfl node').2 c mem).1 relayed enabled node port
      · obtain ⟨mem, apart⟩ := List.mem_filter.mp mem
        simp only [decide_eq_true_eq] at apart
        exact separate.pairs c mem old here (own ▸ apart)
    have careful : Careful apiPort inst (rows.filter (·.id ≠ id)) { old with enable } := by
      by_cases listens : enable = true ∧ old.nodeId = none
      · obtain ⟨rfl, node⟩ := listens
        exact (known rfl node).1
      · refine .idle ?_
        rw [not_and_or, Bool.not_eq_true] at listens
        exact listens
    rw [one]
    refine separate.replace checked careful (fun c => ?_) (members_map rows _ _) ?_ (separate.positive old here)
    · simp [own]
    · rw [ids_map rows { old with enable } own]
      exact separate.ids

theorem separate_empty : Separate apiPort inst [] where
  ids := List.nodup_nil
  positive := by simp
  api := by simp
  pairs := by simp
  own := by simp
  beside := by simp
  apart := by simp

theorem separate_run (run : (table apiPort inst).Path (Meets apiPort inst) [] rows) : Separate apiPort inst rows := by
  refine run.invariant (Separate apiPort inst) separate_empty fun rows op rows' separate meets h => ?_
  cases op with
  | addInbound inbound id clients => exact separate.addInbound meets h
  | updateInbound inbound clients => exact separate.updateInbound meets h
  | setInboundEnable id enable => exact separate.setInboundEnable meets h

/-- In every run whose steps meet the condition no two listeners clash. -/
theorem listeners_apart (apiPort : Int) (inst : Option Json → Bool) (rows : List Inbound)
    (run : (table apiPort inst).Path (Meets apiPort inst) [] rows) :
    (listeners apiPort inst rows).Pairwise fun a b => a.Clash b = false :=
  (separate_run run).pairwise

/-! ## Runs -/

namespace Example

def served (settings : Option Json) : Bool :=
  match (settings.bind Json.asFields).map fun fields : Fields => (fields["server"]?, fields["clients"]?) with
  | some (some (.obj _), some (.arr (_ :: _))) => true
  | _ => false

def inbound (protocol : Protocol) (enable : Bool) (port : Int) : Inbound where
  id := 0
  nodeId := none
  enable := enable
  remark := ""
  tag := ""
  listen := ""
  port := port
  protocol := protocol
  streamSettings := none
  settings := some (.obj [("server", Json.obj [("subnetIp", Json.str "10.8.1.0")]),
    ("clients", Json.arr [.obj [("email", Json.str "a")]])])

end Example

open Example

/-- TCP and UDP share a port, and a relay has its own. -/
theorem listeners_apart_shared : ∃ rows, (listeners 62789 served rows).length = 5 ∧
    (listeners 62789 served rows).Pairwise fun a b => a.Clash b = false := by
  have ran : ((table 62789 served).runWith (Meets 62789 served) [] [.addInbound (inbound .vless true 443) 1 none,
      .addInbound (inbound .hysteria true 443) 2 none, .addInbound (inbound .amneziawg true 51820) 3 none]).any
      (fun rows => (listeners 62789 served rows).length = 5) = true := by
    decide +kernel
  obtain ⟨rows, run, long⟩ := (Option.any_eq_true _ _).mp ran
  exact ⟨rows, by simpa using long, listeners_apart 62789 served rows (System.runWith_path run)⟩

/-- Enabling an AmneziaWG inbound gives it a relay on the port of another inbound. -/
theorem listeners_clash : ∃ rows, (table 62789 served).Reaches [] rows ∧
    ¬(listeners 62789 served rows).Pairwise fun a b => a.Clash b = false := by
  have ran : ((table 62789 served).run [] [.addInbound (inbound .amneziawg false 51820) 1 none,
      .addInbound (inbound .vless true 65101) 2 none, .setInboundEnable 1 true]).any
      (fun rows => ¬(listeners 62789 served rows).Pairwise fun a b => a.Clash b = false) = true := by
    decide +kernel
  obtain ⟨rows, run, clash⟩ := (Option.any_eq_true _ _).mp ran
  exact ⟨rows, System.run_reaches run, by simpa using clash⟩

end ThreeXNode.Service.Ports
