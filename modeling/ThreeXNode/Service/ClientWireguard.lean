import ThreeXNode.Library.Netip
import ThreeXNode.Service.Ports

namespace ThreeXNode.Service.Wireguard
open Library Netip

abbrev Text := List Char

def defaultWireguardBase : Text := "10.0.0.0/24".toList

def wireguardHostAddr (s : Text) : Option Addr :=
  let s := Ports.trimSpace s
  if s = [] then none
  else match parsePrefix s with
    | some p => some p.addr
    | none => parseAddr s

def wireguardPoolFloorBits : Nat := 16

def takenAddrs (used : List Text) : List Addr := used.filterMap wireguardHostAddr

def wider (p : Prefix) : Option Prefix :=
  if four : p.is4 = true ∧ wireguardPoolFloorBits < p.bits then
    some (p.widen wireguardPoolFloorBits (by rw [four.1]; decide))
  else none

def scopes (p : Prefix) (allowWidening : Bool) : List Prefix := p :: if allowWidening then (wider p).toList else []

/-- The loop over one scope; it passes over no more addresses than are taken. -/
def scanFrom (taken : List Addr) (scope : Prefix) : Nat → Option Addr → Option Addr
  | 0, _ => none
  | _ + 1, none => none
  | fuel + 1, some addr =>
      if ¬ scope.contains addr then none
      else if addr ∉ taken then some addr
      else scanFrom taken scope fuel addr.next

def scan (taken : List Addr) (scope : Prefix) : Option Addr :=
  scanFrom taken scope (taken.length + 1) (scope.network.next.bind Addr.next)

inductive AllocError where
  | base
  | exhausted (scope : Prefix)
  deriving DecidableEq

def hostBits (p : Prefix) : Text := if p.is4 then "32".toList else "128".toList

def allocateIn (taken : List Addr) (p : Prefix) (allowWidening : Bool) : Option Addr :=
  (scopes p allowWidening).findSome? (scan taken)

def allocateWireguardAddress (used : List Text) (base : Text) (allowWidening : Bool) : Except AllocError Text :=
  match parsePrefix (if base = [] then defaultWireguardBase else base) with
  | none => .error .base
  | some p =>
      match allocateIn (takenAddrs used) p allowWidening with
      | some addr => .ok (addr.text ++ '/' :: hostBits p)
      | none => .error (.exhausted ((scopes p allowWidening).getLastD p))

example : allocateWireguardAddress ["10.0.0.2/32".toList, " 10.0.0.3".toList, "10.0.0.4/24".toList] [] false =
    .ok "10.0.0.5/32".toList := by decide +kernel

example : allocateWireguardAddress ["fd00::2".toList] "fd00::5/64".toList true = .ok "fd00::3/128".toList := by decide +kernel

/-! ## One scope -/

theorem scanFrom_spec {taken : List Addr} {scope : Prefix} {fuel v : Nat} (low : scope.network.value ≤ v)
    (enough : (taken.toFinset.filter fun a => v ≤ a.value).card < fuel) :
    (∀ a, scanFrom taken scope fuel (addrOf scope.is4 v []) = some a → scope.contains a = true ∧ a ∉ taken ∧ v ≤ a.value ∧
      ∀ b, scope.contains b = true → v ≤ b.value → b.value < a.value → b ∈ taken) ∧
    (scanFrom taken scope fuel (addrOf scope.is4 v []) = none →
      ∀ b, scope.contains b = true → v ≤ b.value → b ∈ taken) := by
  induction fuel generalizing v with
  | zero => exact absurd enough (Nat.not_lt_zero _)
  | succ fuel ih =>
      cases here : addrOf scope.is4 v [] with
      | none =>
          refine ⟨?_, fun _ b inside above => ?_⟩
          · intro a h
            cases h
          have high := addrOf_none here
          have fits := b.fits
          rw [(Prefix.contains_iff.mp inside).1] at fits
          omega
      | some addr =>
          obtain ⟨is4, value, zone⟩ := addrOf_some here
          rw [scanFrom]
          by_cases inside : scope.contains addr = true
          · rw [if_neg (not_not_intro inside)]
            by_cases free : addr ∉ taken
            · rw [if_pos free]
              constructor
              · rintro a ⟨⟩
                exact ⟨inside, free, value.ge, fun b _ above below => by omega⟩
              · intro h
                cases h
            · rw [if_neg free, show addr.next = addrOf scope.is4 (v + 1) [] by rw [Addr.next, is4, value, zone]]
              have taken' : addr ∈ taken := not_not.mp free
              have fewer : (taken.toFinset.filter fun a => v + 1 ≤ a.value).card < fuel := by
                refine lt_of_lt_of_le (Finset.card_lt_card (Finset.ssubset_iff_subset_ne.mpr ⟨?_, ?_⟩)) (Nat.lt_succ_iff.mp enough)
                · exact Finset.monotone_filter_right _ fun a _ above => Nat.le_of_succ_le above
                · intro same
                  have mem : addr ∈ taken.toFinset.filter fun a => v ≤ a.value :=
                    Finset.mem_filter.mpr ⟨List.mem_toFinset.mpr taken', value.ge⟩
                  rw [← same, Finset.mem_filter] at mem
                  omega
              obtain ⟨found, none'⟩ := ih (by omega) fewer
              have own : ∀ b, scope.contains b = true → b.value = v → b ∈ taken := by
                intro b there same
                obtain ⟨is4', zone', -⟩ := Prefix.contains_iff.mp there
                have eq : b = addr := Addr.ext (is4'.trans is4.symm) (same.trans value.symm) (zone'.trans zone.symm)
                exact eq ▸ taken'
              constructor
              · intro a h
                obtain ⟨there, free', above, passed⟩ := found a h
                refine ⟨there, free', by omega, fun b there' above' below => ?_⟩
                by_cases same : b.value = v
                · exact own b there' same
                · exact passed b there' (by omega) below
              · intro h b there above
                by_cases same : b.value = v
                · exact own b there same
                · exact none' h b there (by omega)
          · rw [if_pos inside]
            refine ⟨?_, fun _ b there above => ?_⟩
            · intro a h
              cases h
            obtain ⟨is4', zone', low', high'⟩ := Prefix.contains_iff.mp there
            exact absurd (Prefix.contains_iff.mpr ⟨is4, zone, by omega, by omega⟩) inside

def Reserved (p : Prefix) (a : Addr) : Prop :=
  p.contains a = true ∧ (a.value = p.network.value ∨ a.value = p.network.value + 1)

/-- An address of a scope that is not taken, behind the two the scope keeps for itself. -/
def Free (taken : List Addr) (scope : Prefix) (a : Addr) : Prop := scope.contains a = true ∧ a ∉ taken ∧ ¬ Reserved scope a

theorem free_iff {taken : List Addr} {scope : Prefix} {a : Addr} :
    Free taken scope a ↔ scope.contains a = true ∧ a ∉ taken ∧ scope.network.value + 2 ≤ a.value := by
  refine and_congr_right fun inside => and_congr_right fun _ => ?_
  have low := (Prefix.contains_iff.mp inside).2.2.1
  simp only [Reserved, inside, true_and]
  omega

theorem scan_spec (taken : List Addr) (scope : Prefix) :
    (∀ a, scan taken scope = some a → Free taken scope a ∧ ∀ b, Free taken scope b → a.value ≤ b.value) ∧
    (scan taken scope = none → ∀ b, ¬ Free taken scope b) := by
  have enough : (taken.toFinset.filter fun a => scope.network.value + 2 ≤ a.value).card < taken.length + 1 :=
    Nat.lt_succ_of_le ((Finset.card_filter_le _ _).trans (List.toFinset_card_le taken))
  obtain ⟨found, none'⟩ := scanFrom_spec (Nat.le_add_right _ 2) enough
  have start : scan taken scope =
      scanFrom taken scope (taken.length + 1) (addrOf scope.is4 (scope.network.value + 2) []) := by
    rw [scan, next_next]
    rfl
  rw [start]
  constructor
  · intro a h
    obtain ⟨inside, free, above, passed⟩ := found a h
    refine ⟨free_iff.mpr ⟨inside, free, above⟩, fun b other => ?_⟩
    obtain ⟨inside', free', above'⟩ := free_iff.mp other
    by_contra below
    exact free' (passed b inside' above' (by omega))
  · intro h b other
    obtain ⟨inside', free', above'⟩ := free_iff.mp other
    exact free' (none' h b inside' above')

/-! ## Texts -/

theorem trimSpace_plain {s : Text} (plain : ∀ ch ∈ s, Ports.isSpace ch = false) : Ports.trimSpace s = s := by
  have same : ∀ t : Text, (∀ ch ∈ t, Ports.isSpace ch = false) → t.dropWhile Ports.isSpace = t := by
    intro t each
    cases t with
    | nil => rfl
    | cons ch t => rw [List.dropWhile_cons, each ch List.mem_cons_self, if_neg Bool.false_ne_true]
  rw [Ports.trimSpace, same s plain, same s.reverse fun ch mem => plain ch (List.mem_reverse.mp mem), List.reverse_reverse]

theorem isSpace_hex {ch : Char} (hex : Net.isHex ch = true) : Ports.isSpace ch = false := by
  simp only [Net.isHex, Net.isDigit, Bool.or_eq_true, Bool.and_eq_true, decide_eq_true_eq, Char.le_def, UInt32.le_iff_toNat_le] at hex
  simp only [Ports.isSpace, Bool.or_eq_false_iff, decide_eq_false_iff_not, List.mem_cons, List.not_mem_nil, or_false,
    Bool.and_eq_false_iff, Char.toNat]
  have values : '0'.val.toNat = 48 ∧ '9'.val.toNat = 57 ∧ 'a'.val.toNat = 97 ∧ 'f'.val.toNat = 102 ∧ 'A'.val.toNat = 65 ∧
    'F'.val.toNat = 70 := by decide
  omega

theorem hostText_read {a : Addr} (plain : a.zone = []) {bits : Text} (digits : ∀ ch ∈ bits, Net.isDigit ch = true)
    (read : parseBits bits = some (width a.is4)) :
    parsePrefix (a.text ++ '/' :: bits) = some ⟨a.is4, a.value, width a.is4, a.fits, le_rfl⟩ ∧
      wireguardHostAddr (a.text ++ '/' :: bits) = some a := by
  have slash : '/' ∉ bits := fun mem => by
    have := digits _ mem
    revert this
    decide
  have parsed := parsePrefix_text plain slash read le_rfl
  have chars : ∀ ch ∈ a.text ++ '/' :: bits, Ports.isSpace ch = false := by
    intro ch mem
    rcases List.mem_append.mp mem with front | back
    · rcases text_chars plain front with rfl | rfl | hex
      · decide
      · decide
      · exact isSpace_hex hex
    · rcases List.mem_cons.mp back with rfl | later
      · decide
      · exact isSpace_hex (by rw [Net.isHex, digits ch later]; rfl)
  refine ⟨parsed, ?_⟩
  rw [wireguardHostAddr, trimSpace_plain chars, if_neg (by simp), parsed]
  exact congrArg some (Addr.ext rfl rfl plain.symm)

/-! ## The allocation -/

def baseOf (base : Text) : Text := if base = [] then defaultWireguardBase else base

theorem hostBits_read (p : Prefix) :
    (∀ ch ∈ hostBits p, Net.isDigit ch = true) ∧ parseBits (hostBits p) = some (width p.is4) := by
  rw [hostBits]
  cases p.is4 with
  | true => exact ⟨List.all_eq_true.mp (rfl : "32".toList.all Net.isDigit = true), rfl⟩
  | false => exact ⟨List.all_eq_true.mp (rfl : "128".toList.all Net.isDigit = true), rfl⟩

theorem wider_family {p w : Prefix} (h : wider p = some w) : w.is4 = p.is4 ∧ w ≠ p := by
  unfold wider at h
  split at h
  · rename_i four
    cases h
    refine ⟨rfl, fun same => ?_⟩
    have bits := congrArg Prefix.bits same
    exact absurd four.2 (by rw [← bits]; exact lt_irrefl _)
  · cases h

theorem scope_family {p scope : Prefix} {allowWidening : Bool} (mem : scope ∈ scopes p allowWidening) : scope.is4 = p.is4 := by
  rcases List.mem_cons.mp mem with rfl | more
  · rfl
  · split at more
    · exact (wider_family (Option.mem_toList.mp more)).1
    · cases more

/-- An address a scope has left for a client: free, and not one the base keeps for the network and the server. -/
def Left (taken : List Addr) (p scope : Prefix) (a : Addr) : Prop := Free taken scope a ∧ ¬ Reserved p a

/-- What an allocation hands out: the lowest address its scope has left, in the wider scope only where the base has none. -/
structure Handed (taken : List Addr) (p : Prefix) (allowWidening : Bool) (text : Text) (a : Addr) (scope : Prefix) : Prop where
  within : scope ∈ scopes p allowWidening
  single : parsePrefix text = some ⟨a.is4, a.value, width a.is4, a.fits, le_rfl⟩
  left : Left taken p scope a
  lowest : ∀ b, Left taken p scope b → a.value ≤ b.value
  exhausted : scope ≠ p → ∀ b, ¬ Left taken p p b

def allocations (base : Text) (allowWidening : Bool) : Nat → List Text → List Text
  | 0, _ => []
  | n + 1, used =>
      match allocateWireguardAddress used base allowWidening with
      | .ok text => text :: allocations base allowWidening n (used ++ [text])
      | .error _ => []

structure Lawful (used : List Text) (base : Text) (allowWidening : Bool) (p : Prefix) : Prop where
  handed : ∀ text, allocateWireguardAddress used base allowWidening = .ok text →
    ∃ a scope, Handed (takenAddrs used) p allowWidening text a scope
  failed : ∀ e, allocateWireguardAddress used base allowWidening = .error e →
    ∀ scope ∈ scopes p allowWidening, ∀ b, ¬ Left (takenAddrs used) p scope b
  apart : ∀ n, ((allocations base allowWidening n used).map wireguardHostAddr).Nodup ∧
    ∀ text ∈ allocations base allowWidening n used, ∃ a, wireguardHostAddr text = some a ∧ a ∉ takenAddrs used

/-- Where the base has nothing left, the wider scope comes to none of the two addresses of the base first. -/
def Clear (used : List Text) (allowWidening : Bool) (p : Prefix) : Prop :=
  allowWidening = true → ∀ w ∈ wider p, (∀ b, ¬ Free (takenAddrs used) p b) →
    ∀ a, Reserved p a → Free (takenAddrs used) w a → ∃ b, Free (takenAddrs used) w b ∧ b.value < a.value

theorem allocateIn_cases {taken : List Addr} {p : Prefix} {allowWidening : Bool} :
    (∀ a, allocateIn taken p allowWidening = some a →
      scan taken p = some a ∨ (scan taken p = none ∧ allowWidening = true ∧ ∃ w, wider p = some w ∧ scan taken w = some a)) ∧
    (allocateIn taken p allowWidening = none → ∀ scope ∈ scopes p allowWidening, scan taken scope = none) := by
  constructor
  · intro a h
    rw [allocateIn, scopes, List.findSome?_cons] at h
    cases own : scan taken p with
    | some b =>
        rw [own] at h
        exact .inl h
    | none =>
        rw [own] at h
        dsimp only at h
        split at h
        · rename_i widening
          cases wide : wider p with
          | none =>
              rw [wide] at h
              cases h
          | some w =>
              rw [wide, Option.toList_some, List.findSome?_singleton] at h
              exact .inr ⟨rfl, widening, w, rfl, h⟩
        · cases h
  · intro h
    exact List.findSome?_eq_none_iff.mp h

theorem allocate_ok {used : List Text} {base : Text} {allowWidening : Bool} {p : Prefix} (parsed : parsePrefix (baseOf base) = some p)
    {text : Text} (h : allocateWireguardAddress used base allowWidening = .ok text) :
    ∃ a scope, allocateIn (takenAddrs used) p allowWidening = some a ∧ scope ∈ scopes p allowWidening ∧
      scan (takenAddrs used) scope = some a ∧ (scope ≠ p → scan (takenAddrs used) p = none ∧ allowWidening = true ∧ wider p = some scope) ∧
      parsePrefix text = some ⟨a.is4, a.value, width a.is4, a.fits, le_rfl⟩ ∧ wireguardHostAddr text = some a := by
  rw [allocateWireguardAddress, show (if base = [] then defaultWireguardBase else base) = baseOf base from rfl, parsed] at h
  dsimp only at h
  cases found : allocateIn (takenAddrs used) p allowWidening with
  | none =>
      rw [found] at h
      cases h
  | some a =>
      rw [found] at h
      cases h
      have scope : ∃ scope ∈ scopes p allowWidening, scan (takenAddrs used) scope = some a ∧
          (scope ≠ p → scan (takenAddrs used) p = none ∧ allowWidening = true ∧ wider p = some scope) := by
        rcases allocateIn_cases.1 a found with own | ⟨none', widening, w, wide, own⟩
        · exact ⟨p, List.mem_cons_self, own, fun other => absurd rfl other⟩
        · refine ⟨w, ?_, own, fun _ => ⟨none', widening, wide⟩⟩
          rw [scopes, widening, wide]
          simp
      obtain ⟨scope, mem, own, more⟩ := scope
      have inside := ((scan_spec (takenAddrs used) scope).1 a own).1.1
      obtain ⟨is4, plain, -, -⟩ := Prefix.contains_iff.mp inside
      obtain ⟨digits, read⟩ := hostBits_read p
      rw [← scope_family mem, ← is4] at read
      exact ⟨a, scope, rfl, mem, own, more, hostText_read plain digits read⟩

theorem taken_snoc {used : List Text} {text : Text} {a : Addr} (read : wireguardHostAddr text = some a) :
    takenAddrs (used ++ [text]) = takenAddrs used ++ [a] := by
  rw [takenAddrs, List.filterMap_append, List.filterMap_cons, read]
  rfl

theorem allocations_apart {base : Text} {allowWidening : Bool} {p : Prefix} (parsed : parsePrefix (baseOf base) = some p)
    (n : Nat) (used : List Text) : ((allocations base allowWidening n used).map wireguardHostAddr).Nodup ∧
      ∀ text ∈ allocations base allowWidening n used, ∃ a, wireguardHostAddr text = some a ∧ a ∉ takenAddrs used := by
  induction n generalizing used with
  | zero => simp [allocations]
  | succ n ih =>
      rw [allocations]
      cases made : allocateWireguardAddress used base allowWidening with
      | error e => simp
      | ok text =>
          obtain ⟨a, scope, -, -, own, -, -, read⟩ := allocate_ok parsed made
          have free := ((scan_spec (takenAddrs used) scope).1 a own).1.2.1
          obtain ⟨distinct, later⟩ := ih (used ++ [text])
          rw [taken_snoc read] at later
          constructor
          · rw [List.map_cons, List.nodup_cons]
            refine ⟨fun mem => ?_, distinct⟩
            obtain ⟨text', there, same⟩ := List.mem_map.mp mem
            obtain ⟨b, read', fresh⟩ := later text' there
            rw [read', read] at same
            cases same
            exact fresh (List.mem_append_right _ List.mem_cons_self)
          · intro text' mem
            rcases List.mem_cons.mp mem with rfl | there
            · exact ⟨a, read, free⟩
            · obtain ⟨b, read', fresh⟩ := later text' there
              exact ⟨b, read', fun before => fresh (List.mem_append_left _ before)⟩

theorem lawful_of_clear {used : List Text} {base : Text} {allowWidening : Bool} {p : Prefix}
    (parsed : parsePrefix (baseOf base) = some p) (clear : Clear used allowWidening p) : Lawful used base allowWidening p := by
  refine ⟨?_, ?_, fun n => allocations_apart parsed n used⟩
  · intro text made
    obtain ⟨a, scope, -, mem, own, more, single, -⟩ := allocate_ok parsed made
    obtain ⟨free, lowest⟩ := (scan_spec (takenAddrs used) scope).1 a own
    have clearA : ¬ Reserved p a := by
      intro reserved
      by_cases base' : scope = p
      · exact free.2.2 (base' ▸ reserved)
      · obtain ⟨none', widening, wide⟩ := more base'
        obtain ⟨b, free', lower⟩ := clear widening scope wide ((scan_spec (takenAddrs used) p).2 none') a reserved free
        have := lowest b free'
        omega
    refine ⟨a, scope, mem, single, ⟨free, clearA⟩, fun b left => lowest b left.1, fun other b left => ?_⟩
    exact (scan_spec (takenAddrs used) p).2 (more other).1 b left.1
  · intro e failed scope mem b left
    rw [allocateWireguardAddress, show (if base = [] then defaultWireguardBase else base) = baseOf base from rfl, parsed] at failed
    dsimp only at failed
    cases found : allocateIn (takenAddrs used) p allowWidening with
    | some a =>
        rw [found] at failed
        cases failed
    | none => exact (scan_spec (takenAddrs used) scope).2 (allocateIn_cases.2 found scope mem) b left.1

theorem clear_of_lawful {used : List Text} {base : Text} {allowWidening : Bool} {p : Prefix}
    (parsed : parsePrefix (baseOf base) = some p) (lawful : Lawful used base allowWidening p) : Clear used allowWidening p := by
  intro widening w wide exhausted a reserved free
  by_contra none'
  have lowest : ∀ b, Free (takenAddrs used) w b → a.value ≤ b.value := by
    intro b other
    by_contra lower
    exact none' ⟨b, other, by omega⟩
  have ownNone : scan (takenAddrs used) p = none := by
    cases own : scan (takenAddrs used) p with
    | none => rfl
    | some b => exact absurd ((scan_spec (takenAddrs used) p).1 b own).1 (exhausted b)
  -- the scan of the wider scope ends at the reserved address
  have hit : scan (takenAddrs used) w = some a := by
    cases own : scan (takenAddrs used) w with
    | none => exact absurd free ((scan_spec (takenAddrs used) w).2 own a)
    | some b =>
        obtain ⟨free', lowest'⟩ := (scan_spec (takenAddrs used) w).1 b own
        have same : b.value = a.value := Nat.le_antisymm (lowest' a free) (lowest b free')
        obtain ⟨is4, zone, -⟩ := Prefix.contains_iff.mp free.1
        obtain ⟨is4', zone', -⟩ := Prefix.contains_iff.mp free'.1
        exact congrArg some (Addr.ext (is4'.trans is4.symm) same (zone'.trans zone.symm))
  have made : allocateWireguardAddress used base allowWidening = .ok (a.text ++ '/' :: hostBits p) := by
    have found : allocateIn (takenAddrs used) p allowWidening = some a := by
      rw [allocateIn, scopes, List.findSome?_cons, ownNone, widening, Option.mem_def.mp wide, if_pos rfl, Option.toList_some,
        List.findSome?_singleton]
      exact hit
    rw [allocateWireguardAddress, show (if base = [] then defaultWireguardBase else base) = baseOf base from rfl, parsed]
    dsimp only
    rw [found]
  obtain ⟨b, scope, handed⟩ := lawful.handed _ made
  obtain ⟨digits, read⟩ := hostBits_read p
  obtain ⟨is4, plain, -, -⟩ := Prefix.contains_iff.mp free.1
  rw [← (wider_family wide).1, ← is4] at read
  have single := handed.single
  rw [(hostText_read plain digits read).1, Option.some.injEq, Prefix.mk.injEq] at single
  obtain ⟨zone', -⟩ := (Prefix.contains_iff.mp handed.left.1.1).2
  have same : a = b := Addr.ext single.1 single.2.1 (plain.trans zone'.symm)
  exact handed.left.2 (same ▸ reserved)

/-- Allocations are lawful for exactly the entries that keep a widened scan off the base's own pair. -/
theorem allocation_lawful (used : List Text) (base : Text) (allowWidening : Bool) :
    (∀ p, parsePrefix (baseOf base) = some p → Lawful used base allowWidening p) ↔
      ∀ p, parsePrefix (baseOf base) = some p → Clear used allowWidening p := by
  refine forall_congr' fun p => forall_congr' fun parsed => ?_
  exact ⟨clear_of_lawful parsed, lawful_of_clear parsed⟩

def fullBase : List Text := ["10.0.0.6/32", "10.0.0.7/32", "10.0.0.2/32", "10.0.0.3/32", "10.0.0.4/32"].map String.toList

theorem allocation_unlawful : ¬ ∀ p, parsePrefix (baseOf "10.0.0.4/30".toList) = some p →
    Lawful fullBase "10.0.0.4/30".toList true p := by
  intro lawful
  have parsed : parsePrefix (baseOf "10.0.0.4/30".toList) = some ⟨true, 167772164, 30, by decide, by decide⟩ := by decide +kernel
  have made : allocateWireguardAddress fullBase "10.0.0.4/30".toList true = .ok "10.0.0.5/32".toList := by decide +kernel
  have server : parsePrefix "10.0.0.5/32".toList = some ⟨true, 167772165, 32, by decide, by decide⟩ := by decide +kernel
  obtain ⟨a, scope, handed⟩ := (lawful _ parsed).handed _ made
  have single := handed.single
  rw [server, Option.some.injEq, Prefix.mk.injEq] at single
  obtain ⟨is4, value, -⟩ := single
  refine handed.left.2 ⟨?_, .inr value.symm⟩
  have plain := (Prefix.contains_iff.mp handed.left.1.1).2.1
  exact Prefix.contains_iff.mpr ⟨is4.symm, plain, by rw [← value]; decide, by rw [← value]; decide⟩

end ThreeXNode.Service.Wireguard
