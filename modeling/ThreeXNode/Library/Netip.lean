import ThreeXNode.Library.Fold
import ThreeXNode.Library.Net

namespace ThreeXNode.Library

/-! # Addresses and prefixes with their texts -/

namespace Netip
open Net

/-! ## Digits -/

def digitsOf (b : Nat) : Nat → Nat → List Nat
  | 0, _ => []
  | k + 1, n => digitsOf b k (n / b) ++ [n % b]

def valueOf (b : Nat) (ds : List Nat) : Nat := ds.foldl (fun acc d => b * acc + d) 0

theorem valueOf_digitsOf {b k n : Nat} (fits : n < b ^ k) : valueOf b (digitsOf b k n) = n := by
  induction k generalizing n with
  | zero =>
      have zero : n = 0 := by simpa using fits
      rw [zero]
      rfl
  | succ k ih =>
      have high : n / b < b ^ k := by
        rw [Nat.pow_succ] at fits
        exact Nat.div_lt_of_lt_mul (by rwa [Nat.mul_comm] at fits)
      have front := ih high
      rw [valueOf] at front
      rw [digitsOf, valueOf, List.foldl_append, front]
      exact Nat.div_add_mod n b

theorem digitsOf_length (b k n : Nat) : (digitsOf b k n).length = k := by
  induction k generalizing n with
  | zero => rfl
  | succ k ih => rw [digitsOf, List.length_append, ih, List.length_singleton]

theorem digitsOf_lt {b k n d : Nat} (base : 0 < b) (mem : d ∈ digitsOf b k n) : d < b := by
  induction k generalizing n with
  | zero => cases mem
  | succ k ih =>
      rcases List.mem_append.mp mem with front | last
      · exact ih front
      · rw [List.mem_singleton.mp last]
        exact Nat.mod_lt n base

theorem readNat_toDigits {b : Nat} (low : 1 < b) (high : b ≤ 16) (n : Nat) :
    readNat b (Nat.toDigits b n) = n ∧ ∀ ch ∈ Nat.toDigits b n, isHex ch = true := by
  have each : ∀ d : Fin 16, digitVal (Nat.digitChar d) = d ∧ isHex (Nat.digitChar d) = true := by decide
  induction n using Nat.strong_induction_on with
  | _ n ih =>
      rw [Nat.toDigits_eq_if low]
      split
      · rename_i small
        have one := each ⟨n, by omega⟩
        refine ⟨?_, fun ch mem => List.mem_singleton.mp mem ▸ one.2⟩
        rw [readNat, List.foldl_cons, List.foldl_nil, one.1]
        simp
      · have shorter : n / b < n := Nat.div_lt_self (by omega) low
        obtain ⟨front, chars⟩ := ih (n / b) shorter
        have last := each ⟨n % b, lt_of_lt_of_le (Nat.mod_lt n (by omega)) high⟩
        rw [readNat] at front
        refine ⟨?_, fun ch mem => ?_⟩
        · rw [readNat, List.foldl_append, front, List.foldl_cons, List.foldl_nil, last.1]
          exact Nat.div_add_mod n b
        · rcases List.mem_append.mp mem with before | here
          · exact chars ch before
          · exact List.mem_singleton.mp here ▸ last.2

/-! ## Addresses -/

def width (is4 : Bool) : Nat := if is4 then 32 else 128

@[ext] structure Addr where
  is4 : Bool
  value : Nat
  zone : List Char
  fits : value < 2 ^ width is4
  deriving DecidableEq

def addrOf (is4 : Bool) (value : Nat) (zone : List Char) : Option Addr :=
  if fits : value < 2 ^ width is4 then some ⟨is4, value, zone, fits⟩ else none

/-- The next address; the last one has none. -/
def Addr.next (a : Addr) : Option Addr := addrOf a.is4 (a.value + 1) a.zone

def octets (cs : List Char) : List Nat := (splitOnChar '.' cs).map (readNat 10)

/-- The groups of an IPv6 address, where the one at the end may be written as two. -/
def groupsOf (cs : List Char) : List Nat :=
  match splitGap cs with
  | none => groupValues cs
  | some (front, back) =>
      let missing := 8 - (groupValues front).length - (groupValues back).length
      groupValues front ++ List.replicate missing 0 ++ groupValues back

def parseAddr (s : List Char) : Option Addr :=
  match s.find? fun ch => ch == '.' || ch == ':' || ch == '%' with
  | some '.' => if isIPv4 s then addrOf true (valueOf 256 (octets s)) [] else none
  | some ':' =>
      let ip := s.takeWhile (· ≠ '%')
      match s.dropWhile (· ≠ '%') with
      | [] => if isIPv6 ip then addrOf false (valueOf 65536 (groupsOf ip)) [] else none
      | [_] => none
      | _ :: zone => if isIPv6 ip then addrOf false (valueOf 65536 (groupsOf ip)) zone else none
  | _ => none

def v4Text (value : Nat) : List Char := ['.'].intercalate ((digitsOf 256 4 value).map (Nat.toDigits 10))

/-- The first of the longest runs of at least two zero groups, and its length. -/
def zeroRun (groups : List Nat) : Nat × Nat :=
  (List.range 8).foldl (fun best i =>
    let length := ((groups.drop i).takeWhile (· == 0)).length
    if 2 ≤ length ∧ best.2 < length then (i, length) else best) (8, 0)

def joinGroups (groups : List Nat) : List Char := [':'].intercalate (groups.map (Nat.toDigits 16))

def v6Text (value : Nat) : List Char :=
  let groups := digitsOf 65536 8 value
  if value / 2 ^ 32 = 0xffff then "::ffff:".toList ++ v4Text (value % 2 ^ 32)
  else
    let (start, length) := zeroRun groups
    if length = 0 then joinGroups groups
    else joinGroups (groups.take start) ++ "::".toList ++ joinGroups (groups.drop (start + length))

def Addr.text (a : Addr) : List Char :=
  (if a.is4 then v4Text a.value else v6Text a.value) ++ if a.zone = [] then [] else '%' :: a.zone

/-! ## Prefixes -/

structure Prefix where
  is4 : Bool
  value : Nat
  bits : Nat
  fits : value < 2 ^ width is4
  short : bits ≤ width is4
  deriving DecidableEq

/-- The number behind the slash: digits alone, and no zero in front of another digit. -/
def parseBits (cs : List Char) : Option Nat :=
  if cs.isEmpty || !cs.all isDigit || (cs.length ≠ 1 && cs.head? = some '0') then none else some (readNat 10 cs)

/-- `netip.ParsePrefix`; the slash is the last one, and a zone is refused. -/
def parsePrefix (s : List Char) : Option Prefix :=
  match s.reverse.dropWhile (· ≠ '/') with
  | [] => none
  | _ :: front => do
      let addr ← parseAddr front.reverse
      let bits ← parseBits (s.reverse.takeWhile (· ≠ '/')).reverse
      if short : bits ≤ width addr.is4 then
        if addr.zone = [] then some ⟨addr.is4, addr.value, bits, addr.fits, short⟩ else none
      else none

def Prefix.addr (p : Prefix) : Addr := ⟨p.is4, p.value, [], p.fits⟩

def Prefix.size (p : Prefix) : Nat := 2 ^ (width p.is4 - p.bits)

theorem Prefix.masked_le (p : Prefix) : p.value / p.size * p.size ≤ p.value := Nat.div_mul_le_self _ _

def Prefix.network (p : Prefix) : Addr :=
  ⟨p.is4, p.value / p.size * p.size, [], lt_of_le_of_lt p.masked_le p.fits⟩

def Prefix.contains (p : Prefix) (a : Addr) : Bool :=
  a.is4 = p.is4 && a.zone = [] && a.value / p.size = p.value / p.size

def Prefix.widen (p : Prefix) (bits : Nat) (short : bits ≤ width p.is4) : Prefix :=
  ⟨p.is4, p.value / 2 ^ (width p.is4 - bits) * 2 ^ (width p.is4 - bits), bits,
    lt_of_le_of_lt (Nat.div_mul_le_self _ _) p.fits, short⟩

/-! ## Texts read back -/

theorem join_cons (c : Char) (piece : List Char) {pieces : List (List Char)} (more : pieces ≠ []) :
    [c].intercalate (piece :: pieces) = piece ++ c :: [c].intercalate pieces := by
  rw [List.intercalate_cons_of_ne_nil more, List.append_assoc, List.singleton_append]

theorem splitOnChar_free {sep : Char} {piece : List Char} (free : sep ∉ piece) : splitOnChar sep piece = [piece] := by
  induction piece with
  | nil => rfl
  | cons ch piece ih =>
      rw [List.mem_cons, not_or] at free
      rw [splitOnChar, if_neg (Ne.symm free.1), ih free.2]

theorem splitOnChar_append {sep : Char} {piece rest : List Char} (free : sep ∉ piece) :
    splitOnChar sep (piece ++ sep :: rest) = piece :: splitOnChar sep rest := by
  induction piece with
  | nil => rw [List.nil_append, splitOnChar, if_pos rfl]
  | cons ch piece ih =>
      rw [List.mem_cons, not_or] at free
      rw [List.cons_append, splitOnChar, if_neg (Ne.symm free.1), ih free.2]

theorem splitOnChar_join {sep : Char} {pieces : List (List Char)} (some' : pieces ≠ []) (free : ∀ piece ∈ pieces, sep ∉ piece) :
    splitOnChar sep ([sep].intercalate pieces) = pieces := by
  induction pieces with
  | nil => exact absurd rfl some'
  | cons piece pieces ih =>
      have own := free piece List.mem_cons_self
      by_cases last : pieces = []
      · rw [last, List.intercalate_singleton]
        exact splitOnChar_free own
      · rw [join_cons sep piece last, splitOnChar_append own, ih last fun piece mem => free piece (List.mem_cons_of_mem _ mem)]

theorem not_mem_toDigits {b n : Nat} (low : 1 < b) (high : b ≤ 16) {ch : Char} (other : isHex ch = false) :
    ch ∉ Nat.toDigits b n := by
  intro mem
  rw [(readNat_toDigits low high n).2 ch mem] at other
  cases other

theorem octets_v4Text (value : Nat) : splitOnChar '.' (v4Text value) = (digitsOf 256 4 value).map (Nat.toDigits 10) := by
  refine splitOnChar_join ?_ ?_
  · rw [ne_eq, List.map_eq_nil_iff]
    intro none'
    have := digitsOf_length 256 4 value
    rw [none'] at this
    cases this
  · intro piece mem
    obtain ⟨d, -, rfl⟩ := List.mem_map.mp mem
    exact not_mem_toDigits (by decide) (by decide) (by decide)

theorem readNat_digits (b : Nat) (low : 1 < b) (high : b ≤ 16) (ds : List Nat) :
    (ds.map (Nat.toDigits b)).map (readNat b) = ds := by
  rw [List.map_map]
  exact (List.map_congr_left fun d _ => (readNat_toDigits low high d).1).trans (List.map_id ds)

theorem isIPv4_v4Text (value : Nat) : isIPv4 (v4Text value) = true := by
  have each : ∀ d : Fin 256, isOctet (Nat.toDigits 10 d) = true := by decide +kernel
  rw [isIPv4, octets_v4Text]
  simp only [List.length_map, digitsOf_length, BEq.rfl, Bool.true_and, List.all_eq_true]
  intro piece mem
  obtain ⟨d, there, rfl⟩ := List.mem_map.mp mem
  exact each ⟨d, digitsOf_lt (by decide) there⟩

theorem join_chars {sep : Char} {pieces : List (List Char)} (each : ∀ piece ∈ pieces, ∀ ch ∈ piece, isHex ch = true) {ch : Char}
    (mem : ch ∈ [sep].intercalate pieces) : ch = sep ∨ isHex ch = true := by
  induction pieces with
  | nil => simp at mem
  | cons piece pieces ih =>
      have own := each piece List.mem_cons_self
      by_cases last : pieces = []
      · rw [last, List.intercalate_singleton] at mem
        exact .inr (own ch mem)
      · rw [join_cons _ _ last] at mem
        rcases List.mem_append.mp mem with here | behind
        · exact .inr (own ch here)
        · rcases List.mem_cons.mp behind with rfl | later
          · exact .inl rfl
          · exact ih (fun piece mem => each piece (List.mem_cons_of_mem _ mem)) later

theorem hex_pieces {b : Nat} (low : 1 < b) (high : b ≤ 16) (ds : List Nat) :
    ∀ piece ∈ ds.map (Nat.toDigits b), ∀ ch ∈ piece, isHex ch = true := by
  intro piece there
  obtain ⟨d, -, rfl⟩ := List.mem_map.mp there
  exact (readNat_toDigits low high d).2

theorem v4Text_chars {value : Nat} {ch : Char} (mem : ch ∈ v4Text value) : ch = '.' ∨ isHex ch = true :=
  join_chars (hex_pieces (by decide) (by decide) _) mem

theorem v4Text_octets (value : Nat) : ∃ a b c d, digitsOf 256 4 value = [a, b, c, d] ∧ v4Text value =
    Nat.toDigits 10 a ++ '.' :: (Nat.toDigits 10 b ++ '.' :: (Nat.toDigits 10 c ++ '.' :: Nat.toDigits 10 d)) := by
  refine ⟨_, _, _, _, rfl, ?_⟩
  rw [v4Text]
  simp only [digitsOf, List.nil_append, List.cons_append, List.map_cons, List.map_nil]
  rw [join_cons _ _ (by simp), join_cons _ _ (by simp), join_cons _ _ (by simp), List.intercalate_singleton]

theorem parseAddr_v4Text {value : Nat} (fits : value < 2 ^ width true) :
    parseAddr (v4Text value) = some ⟨true, value, [], fits⟩ := by
  have found : (v4Text value).find? (fun ch => ch == '.' || ch == ':' || ch == '%') = some '.' := by
    cases first : (v4Text value).find? fun ch => ch == '.' || ch == ':' || ch == '%' with
    | none =>
        obtain ⟨a, b, c, d, -, text⟩ := v4Text_octets value
        have dot := List.find?_eq_none.mp first '.' (by rw [text]; simp)
        simp at dot
    | some ch =>
        rcases v4Text_chars (List.mem_of_find?_eq_some first) with rfl | hex
        · rfl
        · have mark := List.find?_some first
          have others : ∀ ch : Char, ch = '.' ∨ ch = ':' ∨ ch = '%' → isHex ch = false := by
            rintro ch (rfl | rfl | rfl) <;> decide
          rw [others ch (by simpa [or_assoc] using mark)] at hex
          cases hex
  rw [parseAddr, found, if_pos (isIPv4_v4Text value), octets, octets_v4Text, readNat_digits 10 (by decide) (by decide),
    valueOf_digitsOf (by simpa [width] using fits), addrOf, dif_pos fits]
  rfl

/-! ### Groups -/

theorem hex_group {g : Nat} (small : g < 65536) :
    Nat.toDigits 16 g ≠ [] ∧ (Nat.toDigits 16 g).length ≤ 4 ∧ ∀ ch ∈ Nat.toDigits 16 g, isHex ch = true :=
  ⟨Nat.toDigits_ne_nil, (Nat.length_toDigits_le_iff (by decide) (by decide)).mpr (by simpa using small),
    (readNat_toDigits (by decide) (by decide) g).2⟩

theorem group_cut {h rest : List Char} (hex : ∀ ch ∈ h, isHex ch = true) (stops : ∀ ch ∈ rest.head?, isHex ch = false) :
    (h ++ rest).takeWhile isHex = h ∧ (h ++ rest).dropWhile isHex = rest := by
  constructor
  · rw [List.takeWhile_append_of_pos hex]
    cases rest with
    | nil => simp
    | cons ch rest => simp [stops ch rfl]
  · rw [List.dropWhile_append_of_pos hex]
    cases rest with
    | nil => rfl
    | cons ch rest => simp [stops ch rfl]

theorem joinGroups_cons (g : Nat) {gs : List Nat} (more : gs ≠ []) :
    joinGroups (g :: gs) = Nat.toDigits 16 g ++ ':' :: joinGroups gs := by
  rw [joinGroups, List.map_cons, join_cons _ _ (by simpa using more)]
  rfl

theorem joinGroups_head {gs : List Nat} (some' : gs ≠ []) : ∃ ch rest, joinGroups gs = ch :: rest ∧ isHex ch = true := by
  cases gs with
  | nil => exact absurd rfl some'
  | cons g gs =>
      have hex := (readNat_toDigits (b := 16) (by decide) (by decide) g).2
      have front : ∃ rest, joinGroups (g :: gs) = Nat.toDigits 16 g ++ rest := by
        by_cases last : gs = []
        · exact ⟨[], by rw [last, joinGroups, List.map_singleton, List.intercalate_singleton, List.append_nil]⟩
        · exact ⟨_, joinGroups_cons g last⟩
      obtain ⟨rest, whole⟩ := front
      cases text : Nat.toDigits 16 g with
      | nil => exact absurd text Nat.toDigits_ne_nil
      | cons ch tail =>
          rw [text] at hex
          exact ⟨ch, tail ++ rest, by rw [whole, text, List.cons_append], hex ch List.mem_cons_self⟩

theorem ipv6Groups_tail {gs : List Nat} (some' : gs ≠ []) (small : ∀ g ∈ gs, g < 65536) {fuel i : Nat} {gap : Bool}
    (enough : gs.length ≤ fuel) (fits : i + gs.length ≤ 8) :
    ipv6Groups fuel i gap (joinGroups gs) = if i + gs.length < 8 then gap else !gap := by
  induction gs generalizing fuel i with
  | nil => exact absurd rfl some'
  | cons g gs ih =>
      obtain ⟨fuel, rfl⟩ : ∃ n, fuel = n + 1 := ⟨fuel - 1, by simp at enough; omega⟩
      obtain ⟨named, short, hex⟩ := hex_group (small g List.mem_cons_self)
      have room : ¬ i ≥ 8 := by
        rw [List.length_cons] at fits
        omega
      by_cases last : gs = []
      · have text : joinGroups (g :: gs) = Nat.toDigits 16 g ++ [] := by
          rw [last, joinGroups, List.map_singleton, List.intercalate_singleton, List.append_nil]
        obtain ⟨group, rest⟩ := @group_cut _ [] hex (by simp)
        rw [text, ipv6Groups, if_neg room, group, rest]
        simp [named, short, last]
      · obtain ⟨ch, tail, head, isHex'⟩ := joinGroups_head last
        have colon : ch ≠ ':' := fun same => by rw [same] at isHex'; exact absurd isHex' (by decide)
        obtain ⟨group, rest⟩ := @group_cut _ (':' :: joinGroups gs) hex (by rintro ch ⟨⟩; decide)
        rw [joinGroups_cons g last, ipv6Groups, if_neg room, group, rest]
        have next := @ih last (fun g mem => small g (List.mem_cons_of_mem _ mem)) fuel (i + 1)
          (by simpa using enough) (by simp at fits; omega)
        rw [List.length_cons, ← Nat.add_assoc, Nat.add_right_comm, ← next, head]
        simp [named, short, colon]

theorem ipv6Groups_front {gs : List Nat} (some' : gs ≠ []) (small : ∀ g ∈ gs, g < 65536) {fuel i : Nat} (rest : List Char)
    (fits : i + gs.length ≤ 8) :
    ipv6Groups (fuel + gs.length) i false (joinGroups gs ++ ':' :: ':' :: rest) =
      if rest = [] then decide (i + gs.length < 8) else ipv6Groups fuel (i + gs.length) true rest := by
  induction gs generalizing i with
  | nil => exact absurd rfl some'
  | cons g gs ih =>
      obtain ⟨named, short, hex⟩ := hex_group (small g List.mem_cons_self)
      have room : ¬ i ≥ 8 := by
        rw [List.length_cons] at fits
        omega
      rw [List.length_cons, ← Nat.add_assoc]
      by_cases last : gs = []
      · have text : joinGroups (g :: gs) = Nat.toDigits 16 g := by
          rw [last, joinGroups, List.map_singleton, List.intercalate_singleton]
        obtain ⟨group, behind⟩ := @group_cut _ (':' :: ':' :: rest) hex (by rintro ch ⟨⟩; decide)
        rw [text, ipv6Groups, if_neg room, group, behind]
        cases rest <;> simp [named, short, last]
      · obtain ⟨ch, tail, head, isHex'⟩ := joinGroups_head last
        have colon : ch ≠ ':' := fun same => by rw [same] at isHex'; exact absurd isHex' (by decide)
        obtain ⟨group, behind⟩ := @group_cut _ (':' :: (joinGroups gs ++ ':' :: ':' :: rest)) hex
          (by rintro ch ⟨⟩; decide)
        rw [joinGroups_cons g last, List.append_assoc, List.cons_append, ipv6Groups, if_neg room, group, behind]
        have next := ih last (fun g mem => small g (List.mem_cons_of_mem _ mem)) (i := i + 1) (by simp at fits; omega)
        rw [← Nat.add_assoc, Nat.add_right_comm i, ← next, head]
        simp [named, short, colon]

def gapText (front back : List Nat) : List Char := joinGroups front ++ ':' :: ':' :: joinGroups back

theorem isIPv6_hex {ch : Char} {rest : List Char} (hex : isHex ch = true) :
    isIPv6 (ch :: rest) = ipv6Groups 9 0 false (ch :: rest) := by
  have colon : ch ≠ ':' := fun same => by rw [same] at hex; exact absurd hex (by decide)
  unfold isIPv6
  split
  · rename_i same
    exact absurd (List.cons.inj same).1 colon
  · rename_i same
    exact absurd (List.cons.inj same).1 colon
  · rfl

theorem isIPv6_gapText {front back : List Nat} (small : ∀ g ∈ front ++ back, g < 65536)
    (room : front.length + back.length < 8) : isIPv6 (gapText front back) = true := by
  have smallBack : ∀ g ∈ back, g < 65536 := fun g mem => small g (List.mem_append_right _ mem)
  have tail : ∀ fuel i, back ≠ [] → back.length ≤ fuel → i + back.length < 8 →
      ipv6Groups fuel i true (joinGroups back) = true := by
    intro fuel i some' enough fits
    rw [ipv6Groups_tail some' smallBack enough (by omega), if_pos fits]
  by_cases open' : front = []
  · subst open'
    rw [List.length_nil, Nat.zero_add] at room
    by_cases last : back = []
    · subst last
      rfl
    · obtain ⟨ch, rest, head, -⟩ := joinGroups_head last
      have read := tail 9 0 last (by omega) (by omega)
      show isIPv6 (':' :: ':' :: joinGroups back) = true
      rw [head] at read ⊢
      exact read
  · obtain ⟨ch, rest, head, hex⟩ := joinGroups_head open'
    obtain ⟨fuel, fuel9⟩ : ∃ fuel, 9 = fuel + front.length := ⟨9 - front.length, by omega⟩
    have read := @ipv6Groups_front _ open' (fun g mem => small g (List.mem_append_left _ mem)) fuel 0
      (joinGroups back) (by omega)
    rw [gapText, head, List.cons_append, isIPv6_hex hex, ← List.cons_append, ← head, fuel9, read]
    by_cases last : back = []
    · rw [last, List.length_nil] at room
      rw [last, if_pos (show joinGroups [] = [] from rfl), decide_eq_true_eq]
      omega
    · obtain ⟨ch', rest', head', -⟩ := joinGroups_head last
      rw [if_neg (by rw [head']; simp)]
      exact tail _ _ last (by omega) (by omega)

theorem isIPv6_joinGroups {groups : List Nat} (small : ∀ g ∈ groups, g < 65536) (eight : groups.length = 8) :
    isIPv6 (joinGroups groups) = true := by
  have some' : groups ≠ [] := fun none' => by rw [none'] at eight; cases eight
  obtain ⟨ch, rest, head, hex⟩ := joinGroups_head some'
  rw [head, isIPv6_hex hex, ← head, ipv6Groups_tail some' small (by omega) (by omega), if_neg (by omega)]
  rfl

/-! ### The value of a text -/

theorem groupValues_joinGroups (gs : List Nat) : groupValues (joinGroups gs) = gs := by
  by_cases none' : gs = []
  · rw [none']
    rfl
  · obtain ⟨ch, rest, head, -⟩ := joinGroups_head none'
    have free : ∀ (x : Char), isHex x = false → ∀ piece ∈ gs.map (Nat.toDigits 16), x ∉ piece := by
      intro x other piece mem
      obtain ⟨g, -, rfl⟩ := List.mem_map.mp mem
      exact not_mem_toDigits (by decide) (by decide) other
    rw [groupValues, if_neg (by rw [head]; simp), joinGroups, splitOnChar_join (by simpa using none') (free ':' (by decide))]
    have each : (gs.map (Nat.toDigits 16)).flatMap (fun group => if '.' ∈ group then ipv4Value group else [readNat 16 group]) =
        (gs.map (Nat.toDigits 16)).flatMap fun group => [readNat 16 group] :=
      List.flatMap_congr fun piece mem => if_neg (free '.' (by decide) piece mem)
    rw [each, ← List.map_eq_flatMap, readNat_digits 16 (by decide) (by decide)]

theorem splitGap_hex {h rest : List Char} (hex : ∀ ch ∈ h, isHex ch = true) :
    splitGap (h ++ rest) = (splitGap rest).map fun (front, back) => (h ++ front, back) := by
  induction h with
  | nil =>
      rw [List.nil_append]
      cases splitGap rest <;> rfl
  | cons ch h ih =>
      have own := hex ch List.mem_cons_self
      have colon : ch ≠ ':' := fun same => by rw [same] at own; exact absurd own (by decide)
      rw [List.cons_append, splitGap, ih fun ch mem => hex ch (List.mem_cons_of_mem _ mem), Option.map_map]
      · rfl
      · rintro rest' same -
        exact colon same

theorem splitGap_colon {ch : Char} {rest : List Char} (other : ch ≠ ':') :
    splitGap (':' :: ch :: rest) = (splitGap (ch :: rest)).map fun (front, back) => (':' :: front, back) := by
  rw [splitGap]
  rintro rest' - same
  exact other (List.cons.inj same).1

theorem splitGap_joinGroups {gs : List Nat} (rest : List Char) (gap : Option (List Char × List Char))
    (behind : splitGap rest = gap) (stops : gs = [] ∨ rest = [] ∨ ∃ rest', rest = ':' :: ':' :: rest') :
    splitGap (joinGroups gs ++ rest) = gap.map fun (front, back) => (joinGroups gs ++ front, back) := by
  induction gs with
  | nil =>
      rw [show joinGroups [] = [] from rfl, List.nil_append, behind]
      cases gap <;> rfl
  | cons g gs ih =>
      have hex := (readNat_toDigits (b := 16) (by decide) (by decide) g).2
      by_cases last : gs = []
      · have text : joinGroups (g :: gs) = Nat.toDigits 16 g := by
          rw [last, joinGroups, List.map_singleton, List.intercalate_singleton]
        rw [text, splitGap_hex hex, behind]
      · have stops : gs = [] ∨ rest = [] ∨ ∃ rest', rest = ':' :: ':' :: rest' := .inr (stops.resolve_left (by simp))
        obtain ⟨ch, tail, head, isHex'⟩ := joinGroups_head last
        have colon : ch ≠ ':' := fun same => by rw [same] at isHex'; exact absurd isHex' (by decide)
        have next := ih stops
        rw [head, List.cons_append] at next
        rw [joinGroups_cons g last, List.append_assoc, List.cons_append, splitGap_hex hex, head, List.cons_append,
          splitGap_colon colon, next]
        cases gap <;> simp

theorem groupsOf_gapText (front back : List Nat) :
    groupsOf (gapText front back) = front ++ List.replicate (8 - front.length - back.length) 0 ++ back := by
  have gap := (@splitGap_joinGroups front) (':' :: ':' :: joinGroups back) (some ([], joinGroups back)) rfl
    (.inr (.inr ⟨_, rfl⟩))
  rw [groupsOf, gapText, gap]
  dsimp only [Option.map_some]
  rw [List.append_nil, groupValues_joinGroups, groupValues_joinGroups]

theorem groupsOf_joinGroups (groups : List Nat) : groupsOf (joinGroups groups) = groups := by
  have none' := (@splitGap_joinGroups groups) [] none rfl (.inr (.inl rfl))
  rw [List.append_nil] at none'
  rw [groupsOf, none']
  exact groupValues_joinGroups groups

theorem zeroRun_zeros {groups : List Nat} (eight : groups.length = 8) :
    (zeroRun groups).2 = 0 ∨ ((zeroRun groups).1 + (zeroRun groups).2 ≤ 8 ∧ 0 < (zeroRun groups).2 ∧
      groups = groups.take (zeroRun groups).1 ++ (List.replicate (zeroRun groups).2 0 ++
        groups.drop ((zeroRun groups).1 + (zeroRun groups).2))) := by
  have run : ∀ start, start ≤ 8 → let length := ((groups.drop start).takeWhile (· == 0)).length
      start + length ≤ 8 ∧
        groups = groups.take start ++ (List.replicate length 0 ++ groups.drop (start + length)) := by
    intro start low length
    have cut := List.takeWhile_append_dropWhile (p := (· == 0)) (l := groups.drop start)
    have bound := congrArg List.length cut
    rw [List.length_append, List.length_drop, eight] at bound
    have zeros : (groups.drop start).takeWhile (· == 0) = List.replicate length 0 := by
      refine List.eq_replicate_iff.mpr ⟨rfl, fun g mem => ?_⟩
      have all := List.all_eq_true.mp (List.all_takeWhile (p := (· == 0)) (l := groups.drop start)) g mem
      simpa using all
    refine ⟨by omega, ?_⟩
    have behind : groups.drop (start + length) = (groups.drop start).dropWhile (· == 0) := by
      rw [← List.drop_drop, ← cut, List.drop_left' rfl, cut]
    rw [behind, ← zeros, cut, List.take_append_drop]
  refine foldl_keeps (fun (_ : List Nat) (best : Nat × Nat) => best.2 = 0 ∨ (best.1 + best.2 ≤ 8 ∧ 0 < best.2 ∧
    groups = groups.take best.1 ++ (List.replicate best.2 0 ++ groups.drop (best.1 + best.2)))) (List.range 8) (.inl rfl) ?_
  intro done i best mem before
  dsimp only
  split
  · rename_i longer
    obtain ⟨room, whole⟩ := run i (by have := List.mem_range.mp mem; omega)
    exact .inr ⟨room, by omega, whole⟩
  · exact before

theorem embedded_read {value : Nat} (embedded : value / 2 ^ 32 = 0xffff) :
    isIPv6 ("::ffff:".toList ++ v4Text (value % 2 ^ 32)) = true ∧
      valueOf 65536 (groupsOf ("::ffff:".toList ++ v4Text (value % 2 ^ 32))) = value := by
  have low : value % 2 ^ 32 < 256 ^ 4 := Nat.mod_lt _ (by decide)
  have split := Nat.div_add_mod value (2 ^ 32)
  rw [embedded] at split
  generalize value % 2 ^ 32 = m at low split ⊢
  have ipv4 := isIPv4_v4Text m
  have pieces := octets_v4Text m
  obtain ⟨a, b, c, d, digits, text⟩ := v4Text_octets m
  have whole := valueOf_digitsOf low
  rw [digits] at whole pieces
  have first : ∀ x ∈ digitsOf 256 4 m, x < 256 := fun x mem => digitsOf_lt (by decide) mem
  have hexA := readNat_toDigits (b := 10) (by decide) (by decide) a
  have shortA : (Nat.toDigits 10 a).length ≤ 4 := by
    have small := first a (by rw [digits]; simp)
    exact (Nat.length_toDigits_le_iff (by decide) (by decide)).mpr (by omega)
  constructor
  · have group : (v4Text m).takeWhile isHex = Nat.toDigits 10 a ∧ ∃ rest, (v4Text m).dropWhile isHex = '.' :: rest := by
      rw [text]
      obtain ⟨taken, dropped⟩ := @group_cut _ ('.' :: (Nat.toDigits 10 b ++ '.' ::
        (Nat.toDigits 10 c ++ '.' :: Nat.toDigits 10 d))) hexA.2 (by rintro ch ⟨⟩; decide)
      exact ⟨taken, _, dropped⟩
    obtain ⟨taken, rest, dropped⟩ := group
    have inner : ipv6Groups 8 1 true (v4Text m) = true := by
      rw [ipv6Groups, if_neg (by decide), taken, dropped]
      simp [ipv4, Nat.toDigits_ne_nil, shortA]
    cases head : v4Text m with
    | nil =>
        rw [head] at dropped
        cases dropped
    | cons ch tail =>
        have colon : ch ≠ ':' := by
          rintro rfl
          rcases v4Text_chars (head ▸ List.mem_cons_self : ':' ∈ v4Text m) with same | hex
          · cases same
          · cases hex
        rw [head] at inner
        show ipv6Groups 9 0 true ('f' :: 'f' :: 'f' :: 'f' :: ':' :: ch :: tail) = true
        rw [ipv6Groups, if_neg (by decide), show ('f' :: 'f' :: 'f' :: 'f' :: ':' :: ch :: tail).takeWhile isHex =
          ['f', 'f', 'f', 'f'] from rfl, show ('f' :: 'f' :: 'f' :: 'f' :: ':' :: ch :: tail).dropWhile isHex =
          ':' :: ch :: tail from rfl]
        simp [inner, colon]
  · have back : groupValues ("ffff:".toList ++ v4Text m) = [65535, 256 * a + b, 256 * c + d] := by
      have dot : '.' ∈ v4Text m := by
        rw [text]
        simp
      have value4 : ipv4Value (v4Text m) = [256 * a + b, 256 * c + d] := by
        rw [ipv4Value, pieces, readNat_digits 10 (by decide) (by decide)]
      have free : ':' ∉ v4Text m := by
        intro mem
        rcases v4Text_chars mem with same | hex
        · cases same
        · cases hex
      have cut : splitOnChar ':' ("ffff:".toList ++ v4Text m) = ["ffff".toList, v4Text m] := by
        show splitOnChar ':' ("ffff".toList ++ ':' :: v4Text m) = _
        rw [splitOnChar_append (by decide), splitOnChar_free free]
      rw [groupValues, if_neg (by simp), cut]
      simp only [List.flatMap_cons, List.flatMap_nil, List.append_nil, if_pos dot, value4]
      rfl
    show valueOf 65536 (groupsOf (':' :: ':' :: ("ffff:".toList ++ v4Text m))) = value
    rw [groupsOf, splitGap]
    dsimp only
    rw [back]
    simp only [valueOf, List.foldl_cons, List.foldl_nil] at whole
    show valueOf 65536 [0, 0, 0, 0, 0, 65535, 256 * a + b, 256 * c + d] = value
    simp only [valueOf, List.foldl_cons, List.foldl_nil]
    omega

theorem v6Text_read {value : Nat} (fits : value < 2 ^ width false) :
    isIPv6 (v6Text value) = true ∧ valueOf 65536 (groupsOf (v6Text value)) = value := by
  have eight := digitsOf_length 65536 8 value
  have small : ∀ g ∈ digitsOf 65536 8 value, g < 65536 := fun g mem => digitsOf_lt (by decide) mem
  have whole : valueOf 65536 (digitsOf 65536 8 value) = value := valueOf_digitsOf (by simpa [width] using fits)
  rw [v6Text]
  split
  · rename_i embedded
    exact embedded_read embedded
  · generalize digitsOf 65536 8 value = groups at eight small whole ⊢
    rcases zeroRun_zeros eight with none' | ⟨room, some', cut⟩
    · dsimp only
      rw [if_pos none', groupsOf_joinGroups]
      exact ⟨isIPv6_joinGroups small eight, whole⟩
    · generalize zeroRun groups = best at room some' cut ⊢
      obtain ⟨start, length⟩ := best
      dsimp only at room some' cut ⊢
      rw [if_neg (by omega)]
      have text : joinGroups (groups.take start) ++ "::".toList ++ joinGroups (groups.drop (start + length)) =
          gapText (groups.take start) (groups.drop (start + length)) := List.append_assoc ..
      rw [text]
      have sizes : (groups.take start).length = start ∧ (groups.drop (start + length)).length = 8 - (start + length) := by
        constructor
        · rw [List.length_take, eight]
          omega
        · rw [List.length_drop, eight]
      constructor
      · refine isIPv6_gapText (fun g mem => small g ?_) (by rw [sizes.1, sizes.2]; omega)
        rw [cut]
        rcases List.mem_append.mp mem with front | back
        · exact List.mem_append_left _ front
        · exact List.mem_append_right _ (List.mem_append_right _ back)
      · have read := groupsOf_gapText (groups.take start) (groups.drop (start + length))
        have missing : 8 - start - (8 - (start + length)) = length := by omega
        rw [sizes.1, sizes.2, missing, List.append_assoc, ← cut] at read
        exact (congrArg (valueOf 65536) read).trans whole

theorem joinGroups_chars {groups : List Nat} {ch : Char} (mem : ch ∈ joinGroups groups) : ch = ':' ∨ isHex ch = true :=
  join_chars (hex_pieces (by decide) (by decide) _) mem

theorem find_colon {s : List Char} (chars : ∀ ch ∈ s, ch = ':' ∨ isHex ch = true) (colon : ':' ∈ s) :
    s.find? (fun ch => ch == '.' || ch == ':' || ch == '%') = some ':' := by
  cases first : s.find? fun ch => ch == '.' || ch == ':' || ch == '%' with
  | none =>
      have mark := List.find?_eq_none.mp first ':' colon
      simp at mark
  | some ch =>
      rcases chars ch (List.mem_of_find?_eq_some first) with rfl | hex
      · rfl
      · have mark := List.find?_some first
        have others : ∀ ch : Char, ch = '.' ∨ ch = ':' ∨ ch = '%' → isHex ch = false := by
          rintro ch (rfl | rfl | rfl) <;> decide
        rw [others ch (by simpa [or_assoc] using mark)] at hex
        cases hex

theorem v6Text_marks (value : Nat) :
    (v6Text value).find? (fun ch => ch == '.' || ch == ':' || ch == '%') = some ':' ∧
      ∀ ch ∈ v6Text value, ch = '.' ∨ ch = ':' ∨ isHex ch = true := by
  rw [v6Text]
  split
  · refine ⟨rfl, fun ch mem => ?_⟩
    rcases List.mem_append.mp mem with front | back
    · have front : ch ∈ [':', ':', 'f', 'f', 'f', 'f', ':'] := front
      simp only [List.mem_cons, List.not_mem_nil, or_false] at front
      rcases front with rfl | rfl | rfl | rfl | rfl | rfl | rfl
      · exact .inr (.inl rfl)
      · exact .inr (.inl rfl)
      all_goals first | exact .inr (.inr rfl) | exact .inr (.inl rfl)
    · exact (v4Text_chars back).imp_right .inr
  · have eight := digitsOf_length 65536 8 value
    generalize digitsOf 65536 8 value = groups at eight ⊢
    generalize zeroRun groups = best
    obtain ⟨start, length⟩ := best
    dsimp only
    split
    · have colon : ':' ∈ joinGroups groups := by
        cases groups with
        | nil => cases eight
        | cons g groups =>
            rw [joinGroups_cons g fun none' => by rw [none'] at eight; cases eight]
            exact List.mem_append_right _ List.mem_cons_self
      exact ⟨find_colon (fun ch => joinGroups_chars) colon, fun ch mem => .inr (joinGroups_chars mem)⟩
    · have chars : ∀ ch ∈ joinGroups (groups.take start) ++ "::".toList ++ joinGroups (groups.drop (start + length)),
          ch = ':' ∨ isHex ch = true := by
        intro ch mem
        rcases List.mem_append.mp mem with front | back
        · rcases List.mem_append.mp front with front | gap
          · exact joinGroups_chars front
          · have gap : ch ∈ [':', ':'] := gap
            exact .inl (by simpa using gap)
        · exact joinGroups_chars back
      exact ⟨find_colon chars (by simp), fun ch mem => .inr (chars ch mem)⟩

theorem parseAddr_v6Text {value : Nat} (fits : value < 2 ^ width false) :
    parseAddr (v6Text value) = some ⟨false, value, [], fits⟩ := by
  obtain ⟨found, chars⟩ := v6Text_marks value
  obtain ⟨valid, read⟩ := v6Text_read fits
  have whole : ∀ ch ∈ v6Text value, decide (ch ≠ '%') = true := by
    intro ch mem
    rw [decide_eq_true_eq]
    rintro rfl
    rcases chars _ mem with same | same | hex
    · cases same
    · cases same
    · cases hex
  rw [parseAddr, found, List.takeWhile_eq_self_iff.mpr whole, List.dropWhile_eq_nil_iff.mpr whole]
  show (if isIPv6 (v6Text value) then addrOf false (valueOf 65536 (groupsOf (v6Text value))) [] else none) = _
  rw [if_pos valid, read, addrOf, dif_pos fits]

theorem parseAddr_text {a : Addr} (plain : a.zone = []) : parseAddr a.text = some a := by
  obtain ⟨is4, value, zone, fits⟩ := a
  subst plain
  cases is4 with
  | true =>
      rw [Addr.text, if_pos rfl, if_pos rfl, List.append_nil]
      exact parseAddr_v4Text fits
  | false =>
      rw [Addr.text, if_neg Bool.false_ne_true, if_pos rfl, List.append_nil]
      exact parseAddr_v6Text fits

theorem text_chars {a : Addr} (plain : a.zone = []) {ch : Char} (mem : ch ∈ a.text) : ch = '.' ∨ ch = ':' ∨ isHex ch = true := by
  rw [Addr.text, if_pos plain, List.append_nil] at mem
  split at mem
  · exact (v4Text_chars mem).imp_right .inr
  · exact (v6Text_marks _).2 ch mem

theorem parsePrefix_text {a : Addr} (plain : a.zone = []) {bits : List Char} (digits : '/' ∉ bits) {n : Nat}
    (read : parseBits bits = some n) (short : n ≤ width a.is4) :
    parsePrefix (a.text ++ '/' :: bits) = some ⟨a.is4, a.value, n, a.fits, short⟩ := by
  have reversed : (a.text ++ '/' :: bits).reverse = bits.reverse ++ '/' :: a.text.reverse := by simp
  have others : ∀ ch ∈ bits.reverse, decide (ch ≠ '/') = true := by
    intro ch mem
    rw [decide_eq_true_eq]
    rintro rfl
    exact digits (List.mem_reverse.mp mem)
  have taken : (bits.reverse ++ '/' :: a.text.reverse).takeWhile (· ≠ '/') = bits.reverse := by
    rw [List.takeWhile_append_of_pos others]
    simp
  have dropped : (bits.reverse ++ '/' :: a.text.reverse).dropWhile (· ≠ '/') = '/' :: a.text.reverse := by
    rw [List.dropWhile_append_of_pos others]
    simp
  rw [parsePrefix, reversed, dropped]
  dsimp only
  rw [taken, List.reverse_reverse, List.reverse_reverse, parseAddr_text plain, read]
  simp [short, plain]

/-! ## The range of a prefix -/

theorem Prefix.size_pos (p : Prefix) : 0 < p.size := Nat.pow_pos (by decide)

theorem Prefix.contains_iff {p : Prefix} {a : Addr} :
    p.contains a = true ↔ a.is4 = p.is4 ∧ a.zone = [] ∧ p.network.value ≤ a.value ∧ a.value < p.network.value + p.size := by
  have range : a.value / p.size = p.value / p.size ↔
      p.network.value ≤ a.value ∧ a.value < p.network.value + p.size := by
    have pos := p.size_pos
    have value : p.network.value = p.value / p.size * p.size := rfl
    rw [Nat.div_eq_iff pos, value]
    generalize p.value / p.size * p.size = lo
    constructor <;> intro h <;> constructor <;> omega
  rw [Prefix.contains, Bool.and_eq_true, Bool.and_eq_true, decide_eq_true_eq, decide_eq_true_eq, decide_eq_true_eq, range,
    and_assoc]

theorem addrOf_some {is4 : Bool} {value : Nat} {zone : List Char} {a : Addr} (h : addrOf is4 value zone = some a) :
    a.is4 = is4 ∧ a.value = value ∧ a.zone = zone := by
  unfold addrOf at h
  split at h
  · cases h
    exact ⟨rfl, rfl, rfl⟩
  · cases h

theorem addrOf_none {is4 : Bool} {value : Nat} {zone : List Char} (h : addrOf is4 value zone = none) :
    2 ^ width is4 ≤ value := by
  unfold addrOf at h
  split at h
  · cases h
  · omega

theorem next_next (a : Addr) : a.next.bind Addr.next = addrOf a.is4 (a.value + 2) a.zone := by
  cases one : a.next with
  | none =>
      have high := addrOf_none one
      rw [Option.bind_none, addrOf, dif_neg (by omega)]
  | some b =>
      obtain ⟨is4, value, zone⟩ := addrOf_some one
      rw [Option.bind_some, Addr.next, is4, value, zone]

end Netip

end ThreeXNode.Library
