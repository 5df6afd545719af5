import ThreeXNode.Leaf.Routes
import ThreeXNode.Library.Net
import ThreeXNode.Service.Ports

namespace ThreeXNode.AmneziaWG
open Library

structure PortSpec where
  start : Int
  stop : Int
  valid : 1 ≤ start ∧ start ≤ stop ∧ stop ≤ 65535
  deriving DecidableEq

/-! ## Parsing

A text is its runes, where a byte that belongs to none is one of its own. -/

def parsePortNumber (s : List Char) : Option Int :=
  (Leaf.atoi s).filter fun n => decide (1 ≤ n ∧ n ≤ 65535)

def parsePortToken (tok : List Char) : Option PortSpec :=
  match tok.dropWhile (· ≠ '-') with
  | _ :: last => do
      let start ← parsePortNumber (Service.Ports.trimSpace (tok.takeWhile (· ≠ '-')))
      let stop ← parsePortNumber (Service.Ports.trimSpace last)
      if valid : 1 ≤ start ∧ start ≤ stop ∧ stop ≤ 65535 then some ⟨start, stop, valid⟩ else none
  | [] => do
      let port ← parsePortNumber tok
      if valid : 1 ≤ port ∧ port ≤ port ∧ port ≤ 65535 then some ⟨port, port, valid⟩ else none

/-- A token that cannot be read is passed over, and so is a range that was there before. -/
def parseForwardedPorts (input : List Char) : List PortSpec :=
  let tokens := Net.splitOnChar ',' (input.map fun ch => if ch = ';' then ',' else ch)
  tokens.foldl (fun specs tok =>
    match parsePortToken (Service.Ports.trimSpace tok) with
    | some spec => if spec ∈ specs then specs else specs ++ [spec]
    | none => specs) []

/-! ## The three readings -/

def forwardedPortsInclude (forwardedPorts : List Char) (port : Int) : Bool :=
  (parseForwardedPorts forwardedPorts).any fun spec => spec.start ≤ port && port ≤ spec.stop

def maxForwardedPorts : Nat := 100

def PortSpec.ports (spec : PortSpec) : List Int := (List.range (spec.stop - spec.start + 1).toNat).map fun i : Nat => spec.start + i

/-- The ports a loop has taken, which ends in the middle of a range where there are enough. -/
def takePorts (limit : Nat) : List Int → List Int → List Int
  | ports, [] => ports
  | ports, p :: rest =>
      if limit ≤ ports.length then ports
      else if p ∈ ports then takePorts limit ports rest
      else takePorts limit (ports ++ [p]) rest

def expandPorts (forwardedPorts : List Char) (limit : Nat) : List Int :=
  (takePorts limit [] ((parseForwardedPorts forwardedPorts).flatMap PortSpec.ports)).insertionSort (· ≤ ·)

def expandForwardedPorts (forwardedPorts : List Char) : List Int := expandPorts forwardedPorts maxForwardedPorts

def exceedsForwardedPortsCap (forwardedPorts : List Char) : Bool :=
  maxForwardedPorts < (expandPorts forwardedPorts (maxForwardedPorts + 1)).length

/-! ## What the loop takes -/

theorem takePorts_nodup {limit : Nat} {ports items : List Int} (distinct : ports.Nodup) : (takePorts limit ports items).Nodup := by
  induction items generalizing ports with
  | nil => exact distinct
  | cons p rest ih =>
      unfold takePorts
      split
      · exact distinct
      · split
        · exact ih distinct
        · rename_i fresh
          refine ih (List.nodup_append.mpr ⟨distinct, List.nodup_singleton p, ?_⟩)
          rintro a mem b here rfl
          exact fresh (List.mem_singleton.mp here ▸ mem)

theorem takePorts_length {limit : Nat} {ports items : List Int} (room : ports.length ≤ limit) :
    (takePorts limit ports items).length ≤ limit := by
  induction items generalizing ports with
  | nil => exact room
  | cons p rest ih =>
      unfold takePorts
      split
      · exact room
      · split
        · exact ih room
        · refine ih ?_
          rw [List.length_append, List.length_singleton]
          omega

theorem takePorts_taken {limit : Nat} {ports items : List Int} {p : Int} (mem : p ∈ takePorts limit ports items) :
    p ∈ ports ∨ p ∈ items := by
  induction items generalizing ports with
  | nil => exact .inl mem
  | cons q rest ih =>
      unfold takePorts at mem
      split at mem
      · exact .inl mem
      · split at mem
        · exact (ih mem).imp_right (List.mem_cons_of_mem q)
        · rcases ih mem with taken | later
          · rcases List.mem_append.mp taken with before | here
            · exact .inl before
            · exact .inr (List.mem_singleton.mp here ▸ List.mem_cons_self)
          · exact .inr (List.mem_cons_of_mem q later)

theorem takePorts_keeps {limit : Nat} {ports items : List Int} {p : Int} (mem : p ∈ ports) : p ∈ takePorts limit ports items := by
  induction items generalizing ports with
  | nil => exact mem
  | cons q rest ih =>
      unfold takePorts
      split
      · exact mem
      · split
        · exact ih mem
        · exact ih (List.mem_append_left _ mem)

theorem takePorts_all {limit : Nat} {ports items : List Int} (below : (takePorts limit ports items).length < limit) {p : Int}
    (mem : p ∈ items) : p ∈ takePorts limit ports items := by
  induction items generalizing ports with
  | nil => cases mem
  | cons q rest ih =>
      unfold takePorts at below ⊢
      split at below
      · omega
      · rename_i room
        rw [if_neg room]
        split at below
        · rename_i known
          rw [if_pos known]
          rcases List.mem_cons.mp mem with rfl | later
          · exact takePorts_keeps known
          · exact ih below later
        · rename_i fresh
          rw [if_neg fresh]
          rcases List.mem_cons.mp mem with rfl | later
          · exact takePorts_keeps (List.mem_append_right _ List.mem_cons_self)
          · exact ih below later

theorem mem_ports {spec : PortSpec} {p : Int} : p ∈ spec.ports ↔ spec.start ≤ p ∧ p ≤ spec.stop := by
  have valid := spec.valid
  rw [PortSpec.ports, List.mem_map]
  constructor
  · rintro ⟨i, mem, rfl⟩
    have := List.mem_range.mp mem
    omega
  · intro inside
    exact ⟨(p - spec.start).toNat, List.mem_range.mpr (by omega), by omega⟩

theorem include_iff {input : List Char} {p : Int} :
    forwardedPortsInclude input p = true ↔ p ∈ (parseForwardedPorts input).flatMap PortSpec.ports := by
  rw [forwardedPortsInclude, List.any_eq_true, List.mem_flatMap]
  refine exists_congr fun spec => and_congr_right fun _ => ?_
  rw [mem_ports, Bool.and_eq_true, decide_eq_true_eq, decide_eq_true_eq]

theorem mem_expandPorts {input : List Char} {limit : Nat} {p : Int} (mem : p ∈ expandPorts input limit) :
    forwardedPortsInclude input p = true := by
  rcases takePorts_taken ((List.mem_insertionSort _).mp mem) with before | taken
  · cases before
  · exact include_iff.mpr taken

theorem expandPorts_nodup (input : List Char) (limit : Nat) : (expandPorts input limit).Nodup :=
  (List.perm_insertionSort _ _).nodup_iff.mpr (takePorts_nodup List.nodup_nil)

theorem expandPorts_length (input : List Char) (limit : Nat) : (expandPorts input limit).length ≤ limit := by
  rw [expandPorts, List.length_insertionSort]
  exact takePorts_length (Nat.zero_le limit)

theorem expandPorts_all {input : List Char} {limit : Nat} (below : (expandPorts input limit).length < limit) {p : Int}
    (accepted : forwardedPortsInclude input p = true) : p ∈ expandPorts input limit := by
  rw [expandPorts, List.length_insertionSort] at below
  exact (List.mem_insertionSort _).mpr (takePorts_all below (include_iff.mp accepted))

def accepted (input : List Char) : Finset Int := ((parseForwardedPorts input).flatMap PortSpec.ports).toFinset

theorem mem_accepted {input : List Char} {p : Int} : p ∈ accepted input ↔ forwardedPortsInclude input p = true := by
  rw [accepted, List.mem_toFinset, include_iff]

theorem expandPorts_subset (input : List Char) (limit : Nat) : (expandPorts input limit).toFinset ⊆ accepted input := by
  intro p mem
  exact mem_accepted.mpr (mem_expandPorts (List.mem_toFinset.mp mem))

theorem exceeds_iff (input : List Char) : exceedsForwardedPortsCap input = true ↔ maxForwardedPorts < (accepted input).card := by
  have card := List.toFinset_card_of_nodup (expandPorts_nodup input (maxForwardedPorts + 1))
  rw [exceedsForwardedPortsCap, decide_eq_true_eq]
  constructor
  · intro many
    have := Finset.card_le_card (expandPorts_subset input (maxForwardedPorts + 1))
    omega
  · intro many
    by_contra few
    have all : accepted input ⊆ (expandPorts input (maxForwardedPorts + 1)).toFinset := by
      intro p mem
      exact List.mem_toFinset.mpr (expandPorts_all (by omega) (mem_accepted.mp mem))
    have := Finset.card_le_card all
    omega

theorem expand_exact {input : List Char} (within : exceedsForwardedPortsCap input = false) {p : Int}
    (accepted' : forwardedPortsInclude input p = true) : p ∈ expandForwardedPorts input := by
  have few : (accepted input).card ≤ maxForwardedPorts := by
    by_contra many
    rw [(exceeds_iff input).mpr (by omega)] at within
    cases within
  by_cases below : (expandPorts input maxForwardedPorts).length < maxForwardedPorts
  · exact expandPorts_all below accepted'
  · have card := List.toFinset_card_of_nodup (expandPorts_nodup input maxForwardedPorts)
    have whole := Finset.eq_of_subset_of_card_le (expandPorts_subset input maxForwardedPorts) (by omega)
    exact List.mem_toFinset.mp (whole ▸ mem_accepted.mpr accepted')

/-- The ports that are opened, those the conflict check looks at and the cap agree on every text. -/
theorem forwarded_ports (input : List Char) :
    (expandForwardedPorts input).Pairwise (· < ·) ∧
    (∀ p ∈ expandForwardedPorts input, forwardedPortsInclude input p = true) ∧
    (expandForwardedPorts input).length ≤ maxForwardedPorts ∧
    (exceedsForwardedPortsCap input = true ↔ maxForwardedPorts < {p | forwardedPortsInclude input p = true}.ncard) ∧
    (exceedsForwardedPortsCap input = false → ∀ p, p ∈ expandForwardedPorts input ↔ forwardedPortsInclude input p = true) := by
  refine ⟨?_, fun p => mem_expandPorts, expandPorts_length input maxForwardedPorts, ?_, ?_⟩
  · have sorted := List.pairwise_insertionSort (· ≤ ·)
      (takePorts maxForwardedPorts [] ((parseForwardedPorts input).flatMap PortSpec.ports))
    exact (sorted.and (expandPorts_nodup input maxForwardedPorts)).imp fun h => lt_of_le_of_ne h.1 h.2
  · have same : {p | forwardedPortsInclude input p = true} = (accepted input : Set Int) := by
      ext p
      exact mem_accepted.symm
    rw [exceeds_iff, same, Set.ncard_coe_finset]
  · exact fun within p => ⟨mem_expandPorts, expand_exact within⟩

example : expandForwardedPorts "80, 443; 8000-8003,443, 9-5, 70000,8002 - 8004".toList =
    [80, 443, 8000, 8001, 8002, 8003, 8004] := by decide +kernel

example : exceedsForwardedPortsCap "1-100".toList = false ∧ exceedsForwardedPortsCap "1-100;50-101".toList = true := by
  decide +kernel

end ThreeXNode.AmneziaWG
