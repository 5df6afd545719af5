import Mathlib.Data.List.Nodup

namespace ThreeXNode.Library.Toml

/-! Documents of single-line entries: basic strings, integers, booleans and arrays of strings under table headers. -/

abbrev Text := List Char

inductive Value where
  | str (s : Text)
  | int (n : Int)
  | bool (b : Bool)
  | strs (items : List Text)
  deriving DecidableEq

/-! ## Basic strings -/

def hexDigit (c : Char) : Option Nat :=
  if c.isDigit then some (c.toNat - 48)
  else if 97 ≤ c.toNat ∧ c.toNat ≤ 102 then some (c.toNat - 87)
  else if 65 ≤ c.toNat ∧ c.toNat ≤ 70 then some (c.toNat - 55)
  else none

def hexNumber (digits : Text) : Option Nat := digits.foldlM (fun n c => (hexDigit c).map (16 * n + ·)) 0

def scalar (digits : Text) : Option Char :=
  (hexNumber digits).bind fun n => if n.isValidChar then some (Char.ofNat n) else none

def shortEscape (e : Char) : Option Char :=
  if e = 'b' then some (Char.ofNat 8)
  else if e = 't' then some '\t'
  else if e = 'n' then some '\n'
  else if e = 'f' then some (Char.ofNat 12)
  else if e = 'r' then some '\r'
  else if e = '"' ∨ e = '\\' then some e
  else none

def isControl (c : Char) : Bool := (c.toNat < 32 && c ≠ '\t') || c.toNat = 127

def push (c : Option Char) (read : Option (Text × Text)) : Option (Text × Text) :=
  c.bind fun c => read.map fun (s, rest) => (c :: s, rest)

def readBasic : Text → Option (Text × Text)
  | [] => none
  | c :: text =>
      if c = '"' then some ([], text)
      else if c = '\\' then
        match text with
        | [] => none
        | e :: text =>
            if e = 'u' then
              match text with
              | h₁ :: h₂ :: h₃ :: h₄ :: text => push (scalar [h₁, h₂, h₃, h₄]) (readBasic text)
              | _ => none
            else if e = 'U' then
              match text with
              | h₁ :: h₂ :: h₃ :: h₄ :: h₅ :: h₆ :: h₇ :: h₈ :: text =>
                  push (scalar [h₁, h₂, h₃, h₄, h₅, h₆, h₇, h₈]) (readBasic text)
              | _ => none
            else push (shortEscape e) (readBasic text)
      else if isControl c then none
      else push (some c) (readBasic text)

theorem readBasic_close (rest : Text) : readBasic ('"' :: rest) = some ([], rest) := by
  rw [readBasic.eq_def]
  rfl

theorem readBasic_plain {c : Char} (quote : c ≠ '"') (slash : c ≠ '\\') (shown : isControl c = false) (rest : Text) :
    readBasic (c :: rest) = push (some c) (readBasic rest) := by
  rw [readBasic.eq_def]
  simp only [quote, slash, shown, if_false, Bool.false_eq_true]

theorem readBasic_short {e c : Char} (escape : shortEscape e = some c) (rest : Text) :
    readBasic ('\\' :: e :: rest) = push (some c) (readBasic rest) := by
  have four : e ≠ 'u' := by
    rintro rfl
    simp [shortEscape] at escape
  have eight : e ≠ 'U' := by
    rintro rfl
    simp [shortEscape] at escape
  rw [readBasic.eq_def]
  simp only [if_neg (by decide : ¬ '\\' = '"'), if_true, four, eight, if_false, escape]

theorem readBasic_four {h₁ h₂ h₃ h₄ c : Char} (escape : scalar [h₁, h₂, h₃, h₄] = some c) (rest : Text) :
    readBasic ('\\' :: 'u' :: h₁ :: h₂ :: h₃ :: h₄ :: rest) = push (some c) (readBasic rest) := by
  rw [readBasic.eq_def]
  simp only [if_neg (by decide : ¬ '\\' = '"'), if_true, escape]

theorem readBasic_eight {h₁ h₂ h₃ h₄ h₅ h₆ h₇ h₈ c : Char}
    (escape : scalar [h₁, h₂, h₃, h₄, h₅, h₆, h₇, h₈] = some c) (rest : Text) :
    readBasic ('\\' :: 'U' :: h₁ :: h₂ :: h₃ :: h₄ :: h₅ :: h₆ :: h₇ :: h₈ :: rest) =
      push (some c) (readBasic rest) := by
  rw [readBasic.eq_def]
  simp only [if_neg (by decide : ¬ '\\' = '"'), if_neg (by decide : ¬ 'U' = 'u'), if_true, escape]

/-! ## Lines -/

inductive Line where
  | blank
  | header (path : List Text)
  | entry (key : Text) (value : Value)
  deriving DecidableEq

def spaces (text : Text) : Text := text.dropWhile fun c => c = ' ' || c = '\t'

def isRest (text : Text) : Bool :=
  match spaces text with
  | [] => true
  | c :: _ => c = '#'

def isBare (c : Char) : Bool := c.isAlphanum || c = '-' || c = '_'

def readKey (text : Text) : Option (Text × Text) :=
  match text with
  | '"' :: text => readBasic text
  | text => if text.takeWhile isBare = [] then none else some (text.takeWhile isBare, text.dropWhile isBare)

/-- The keys of a header, at most `fuel` of them. -/
def readPath : Nat → Text → Option (List Text × Text)
  | 0, _ => none
  | fuel + 1, text =>
      (readKey (spaces text)).bind fun (key, rest) =>
        match spaces rest with
        | '.' :: rest => (readPath fuel rest).map fun (path, rest) => (key :: path, rest)
        | rest => some ([key], rest)

def readStrings : Nat → Text → Option (List Text × Text)
  | 0, _ => none
  | fuel + 1, text =>
      match spaces text with
      | ']' :: rest => some ([], rest)
      | '"' :: rest =>
          (readBasic rest).bind fun (s, rest) =>
            match spaces rest with
            | ',' :: rest => (readStrings fuel rest).map fun (items, rest) => (s :: items, rest)
            | ']' :: rest => some ([s], rest)
            | _ => none
      | _ => none

def readNatural (text : Text) : Option (Nat × Text) :=
  let digits := text.takeWhile Char.isDigit
  if digits = [] ∨ digits.head? = some '0' ∧ 1 < digits.length then none
  else some (Nat.ofDigitChars 10 digits 0, text.dropWhile Char.isDigit)

def readValue (text : Text) : Option (Value × Text) :=
  match text with
  -- Three quotes open a string of several lines.
  | '"' :: '"' :: '"' :: _ => none
  | '"' :: rest => (readBasic rest).map fun (s, rest) => (.str s, rest)
  | '[' :: rest => (readStrings (rest.length + 1) rest).map fun (items, rest) => (.strs items, rest)
  | 't' :: 'r' :: 'u' :: 'e' :: rest => some (.bool true, rest)
  | 'f' :: 'a' :: 'l' :: 's' :: 'e' :: rest => some (.bool false, rest)
  | '-' :: rest => (readNatural rest).map fun (n, rest) => (.int (-n), rest)
  | rest => (readNatural rest).map fun (n, rest) => (.int n, rest)

def readEntry (text : Text) : Option Line :=
  (readKey text).bind fun (key, rest) =>
    match spaces rest with
    | '=' :: rest => (readValue (spaces rest)).bind fun (value, rest) => if isRest rest then some (.entry key value) else none
    | _ => none

def readHeader (text : Text) : Option Line :=
  (readPath (text.length + 1) text).bind fun (path, rest) =>
    match rest with
    | ']' :: rest => if isRest rest then some (.header path) else none
    | _ => none

def readLine (line : Text) : Option Line :=
  match spaces line with
  | [] => some .blank
  | '#' :: _ => some .blank
  | '[' :: text => readHeader text
  | text => readEntry text

theorem spaces_of_ne {c : Char} (space : c ≠ ' ') (tab : c ≠ '\t') (text : Text) : spaces (c :: text) = c :: text := by
  simp [spaces, space, tab]

@[simp] theorem spaces_space (text : Text) : spaces (' ' :: text) = spaces text := by
  simp [spaces]

theorem readKey_bare {key : Text} (bare : ∀ c ∈ key, isBare c = true) (named : key ≠ []) {rest : Text}
    (ends : ∀ c ∈ rest.head?, isBare c = false) : readKey (key ++ rest) = some (key, rest) := by
  have front : (key ++ rest).takeWhile isBare = key := by
    rw [List.takeWhile_append_of_pos bare]
    cases rest with
    | nil => simp
    | cons c rest => simp [ends c rfl]
  have back : (key ++ rest).dropWhile isBare = rest := by
    rw [List.dropWhile_append_of_pos bare]
    cases rest with
    | nil => rfl
    | cons c rest => simp [ends c rfl]
  obtain ⟨c, tail, rfl⟩ := List.exists_cons_of_ne_nil named
  have first := bare c (by simp)
  have quote : c ≠ '"' := by
    rintro rfl
    simp [isBare] at first
  unfold readKey
  split
  · rename_i text shape
    rw [List.cons_append] at shape
    exact absurd (List.cons.inj shape).1 quote
  · rw [front, back, if_neg named]

theorem readValue_basic {text s rest : Text} (read : readBasic text = some (s, rest))
    (single : ∀ text', text ≠ '"' :: '"' :: text') : readValue ('"' :: text) = some (.str s, rest) := by
  rw [readValue, read]
  · rfl
  · intro tail shape
    exact single tail shape

theorem readValue_single {text s : Text} (read : readBasic text = some (s, [']'])) :
    readValue ('[' :: '"' :: text) = some (.strs [s], []) := by
  have items : ∀ fuel, readStrings (fuel + 1) ('"' :: text) = some ([s], []) := by
    intro fuel
    rw [readStrings, spaces_of_ne (by decide) (by decide)]
    show (readBasic text).bind _ = _
    rw [read]
    rfl
  rw [readValue, items]
  rfl

theorem readEntry_of {start value : Text} {key : Text} {v : Value}
    (named : readKey (start ++ " = ".toList ++ value) = some (key, " = ".toList ++ value))
    (begins : ∀ text, value ≠ ' ' :: text) (begins' : ∀ text, value ≠ '\t' :: text)
    (read : readValue value = some (v, [])) :
    readEntry (start ++ " = ".toList ++ value) = some (.entry key v) := by
  have trimmed : spaces value = value := by
    cases value with
    | nil => rfl
    | cons c text => exact spaces_of_ne (fun same => begins text (by rw [same])) (fun same => begins' text (by rw [same])) text
  unfold readEntry
  rw [named]
  show (match spaces (' ' :: '=' :: ' ' :: value) with
    | '=' :: rest => (readValue (spaces rest)).bind fun (value, rest) => if isRest rest then some (Line.entry key value) else none
    | _ => none) = _
  rw [spaces_space, spaces_of_ne (by decide) (by decide)]
  show (readValue (spaces (' ' :: value))).bind _ = _
  rw [spaces_space, trimmed, read]
  rfl

theorem readLine_header {lead : Text} (bare : ∀ c ∈ lead, isBare c = true) (named : lead ≠ []) {text s : Text}
    (read : readBasic text = some (s, [']'])) :
    readLine ('[' :: (lead ++ '.' :: '"' :: text)) = some (.header [lead, s]) := by
  have inner : ∀ fuel, readPath (fuel + 1) ('"' :: text) = some ([s], [']']) := by
    intro fuel
    rw [readPath, spaces_of_ne (by decide) (by decide)]
    show (readBasic text).bind _ = _
    rw [read]
    rfl
  have first := @readKey_bare lead bare named ('.' :: '"' :: text) (by simp [isBare])
  have trimmed : spaces (lead ++ '.' :: '"' :: text) = lead ++ '.' :: '"' :: text := by
    obtain ⟨c, tail, rfl⟩ := List.exists_cons_of_ne_nil named
    have start := bare c (by simp)
    apply spaces_of_ne
    · rintro rfl
      simp [isBare] at start
    · rintro rfl
      simp [isBare] at start
  have length : (lead ++ '.' :: '"' :: text).length = (lead.length + text.length + 1) + 1 := by simp; omega
  have path : readPath ((lead ++ '.' :: '"' :: text).length + 1) (lead ++ '.' :: '"' :: text) = some ([lead, s], [']']) := by
    rw [length, readPath, trimmed, first]
    show ((match spaces ('.' :: '"' :: text) with
      | '.' :: rest => (readPath _ rest).map fun (path, rest) => (lead :: path, rest)
      | rest => some ([lead], rest)) : Option (List Text × Text)) = _
    rw [spaces_of_ne (by decide) (by decide)]
    show (readPath _ ('"' :: text)).map _ = _
    rw [inner]
    rfl
  show readHeader (lead ++ '.' :: '"' :: text) = _
  unfold readHeader
  rw [path]
  rfl

/-! ## Documents -/

structure Table where
  path : List Text
  entries : List (Text × Value) := []
  deriving DecidableEq

def collect : Table → List Line → List Table
  | table, [] => [table]
  | table, .blank :: lines => collect table lines
  | table, .header path :: lines => table :: collect { path := path } lines
  | table, .entry key value :: lines => collect { table with entries := table.entries ++ [(key, value)] } lines

def entryPaths (tables : List Table) : List (List Text) :=
  tables.flatMap fun table => table.entries.map fun entry => table.path ++ [entry.1]

/-- No table and no entry is defined twice, and no table lies under an entry. -/
def Consistent (tables : List Table) : Prop :=
  (tables.map (·.path)).Nodup ∧ (entryPaths tables).Nodup ∧
    ∀ entry ∈ entryPaths tables, ∀ table ∈ tables, ¬entry <+: table.path

instance (tables : List Table) : Decidable (Consistent tables) := by
  unfold Consistent
  infer_instance

def parse (text : Text) : Option (List Table) :=
  ((text.splitOn '\n').mapM readLine).bind fun lines =>
    if Consistent (collect { path := [] } lines) then some (collect { path := [] } lines) else none

def lookup (tables : List Table) (path : List Text) (key : Text) : Option Value :=
  (tables.find? (·.path = path)).bind fun table => table.entries.lookup key

def Table.lines (table : Table) : List Line :=
  .blank :: .header table.path :: table.entries.map fun entry => .entry entry.1 entry.2

def linesOf (first : Table) (tables : List Table) : List Line :=
  (first.entries.map fun entry => .entry entry.1 entry.2) ++ tables.flatMap Table.lines

theorem collect_entries (table : Table) (entries : List (Text × Value)) (lines : List Line) :
    collect table ((entries.map fun entry => .entry entry.1 entry.2) ++ lines) =
      collect { table with entries := table.entries ++ entries } lines := by
  induction entries generalizing table with
  | nil => simp
  | cons entry entries ih =>
      rw [List.map_cons, List.cons_append, collect, ih]
      simp

theorem collect_tables (table : Table) (tables : List Table) (last : List Line) (blank : ∀ line ∈ last, line = .blank) :
    collect table (tables.flatMap Table.lines ++ last) = table :: tables := by
  induction tables generalizing table with
  | nil =>
      rw [List.flatMap_nil, List.nil_append]
      induction last with
      | nil => rfl
      | cons line last ih =>
          rw [blank line (by simp), collect]
          exact ih fun line mem => blank line (by simp [mem])
  | cons next tables ih =>
      rw [List.flatMap_cons, Table.lines, List.append_assoc, List.cons_append, List.cons_append, collect, collect,
        collect_entries, List.nil_append, ih]

def Reads (texts : List Text) (lines : List Line) : Prop :=
  (∀ text ∈ texts, '\n' ∉ text) ∧ texts.mapM readLine = some lines

theorem Reads.nil : Reads [] [] := ⟨by simp, rfl⟩

theorem Reads.single {text : Text} {line : Line} (whole : '\n' ∉ text) (read : readLine text = some line) :
    Reads [text] [line] := by
  constructor
  · simpa using whole
  · simp [read]

theorem Reads.append {texts texts' : List Text} {lines lines' : List Line} (front : Reads texts lines)
    (back : Reads texts' lines') : Reads (texts ++ texts') (lines ++ lines') := by
  constructor
  · intro text mem
    rcases List.mem_append.mp mem with mem | mem
    · exact front.1 text mem
    · exact back.1 text mem
  · rw [List.mapM_append, front.2, back.2]
    rfl

theorem Reads.map {α : Type*} (items : List α) {text : α → Text} {line : α → Line}
    (each : ∀ item ∈ items, Reads [text item] [line item]) : Reads (items.map text) (items.map line) := by
  induction items with
  | nil => exact Reads.nil
  | cons item items ih =>
      exact (each item (by simp)).append (ih fun other mem => each other (by simp [mem]))

theorem Reads.flatMap {α : Type*} (items : List α) {texts : α → List Text} {lines : α → List Line}
    (each : ∀ item ∈ items, Reads (texts item) (lines item)) : Reads (items.flatMap texts) (items.flatMap lines) := by
  induction items with
  | nil => exact Reads.nil
  | cons item items ih =>
      exact (each item (by simp)).append (ih fun other mem => each other (by simp [mem]))

theorem flatMap_newline (texts : List Text) :
    texts.flatMap (· ++ ['\n']) = ['\n'].intercalate (texts ++ [[]]) := by
  induction texts with
  | nil => rfl
  | cons text texts ih =>
      rw [List.flatMap_cons, ih, List.cons_append, List.intercalate_cons_of_ne_nil (by simp)]

/-- Lines that read as those of a consistent document parse to it. -/
theorem parse_lines {texts : List Text} {first : Table} {tables : List Table} (reads : Reads texts (linesOf first tables))
    (root : first.path = []) (consistent : Consistent (first :: tables)) :
    parse (texts.flatMap (· ++ ['\n'])) = some (first :: tables) := by
  have all : Reads (texts ++ [[]]) (linesOf first tables ++ [.blank]) := reads.append (Reads.single (by simp) rfl)
  have whole : collect { path := [] } (linesOf first tables ++ [.blank]) = first :: tables := by
    obtain ⟨path, entries⟩ := first
    subst root
    rw [linesOf, List.append_assoc, collect_entries, List.nil_append,
      collect_tables _ _ _ (by simp)]
  unfold parse
  rw [flatMap_newline, List.splitOn_intercalate '\n' all.1 (by simp), all.2]
  show (if Consistent (collect { path := [] } (linesOf first tables ++ [.blank])) then _ else _) = _
  rw [whole, if_pos consistent]

theorem append_singleton_inj {α : Type*} {p q : List α} {a b : α} (same : p ++ [a] = q ++ [b]) : p = q ∧ a = b := by
  have both := List.append_inj' same rfl
  exact ⟨both.1, List.head_eq_of_cons_eq both.2⟩

theorem consistent_of {tables : List Table} (paths : (tables.map (·.path)).Nodup)
    (keys : ∀ table ∈ tables, (table.entries.map (·.1)).Nodup)
    (free : ∀ table ∈ tables, ∀ key ∈ table.entries.map (·.1), ∀ other ∈ tables, ¬(table.path ++ [key]) <+: other.path) :
    Consistent tables := by
  refine ⟨paths, ?_, ?_⟩
  · unfold entryPaths
    rw [List.nodup_flatMap]
    constructor
    · intro table mem
      have inj : Function.Injective fun key : Text => table.path ++ [key] := fun a b same => (append_singleton_inj same).2
      have := (keys table mem).map inj
      rwa [List.map_map] at this
    · have apart := List.pairwise_map.mp (List.nodup_iff_pairwise_ne.mp paths)
      refine apart.imp fun {a b} other => ?_
      intro path here there
      obtain ⟨x, -, rfl⟩ := List.mem_map.mp here
      obtain ⟨y, -, same⟩ := List.mem_map.mp there
      exact other (append_singleton_inj same).1.symm
  · intro entry mem other there
    obtain ⟨table, here, mem⟩ := List.mem_flatMap.mp mem
    obtain ⟨e, within, rfl⟩ := List.mem_map.mp mem
    exact free table here e.1 (List.mem_map.mpr ⟨e, within, rfl⟩) other there

end ThreeXNode.Library.Toml
