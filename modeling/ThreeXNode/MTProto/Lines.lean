import ThreeXNode.MTProto.Instance

namespace ThreeXNode.MTProto
open Library Toml

/-! ## Quoted texts read back -/

/-- What is documented of `strconv.IsPrint`: no control character is printed as it is. -/
def Hides (isPrint : Char → Bool) : Prop := ∀ c : Char, c.toNat < 32 ∨ c.toNat = 127 → isPrint c = false

/-- The characters whose `%q` form is not one of a basic string: `\a`, `\v` and `\x`. -/
def Awkward (c : Char) : Prop :=
  (c.toNat < 32 ∨ c.toNat = 127) ∧ c.toNat ∉ [8, 9, 10, 12, 13]

instance (c : Char) : Decidable (Awkward c) := by
  unfold Awkward
  infer_instance

def Renderable (s : String) : Prop := ∀ c ∈ s.toList, ¬Awkward c

instance (s : String) : Decidable (Renderable s) := by
  unfold Renderable
  infer_instance

theorem hexDigit_lowerHex : ∀ n < 16, hexDigit (lowerHex n) = some n := by decide

theorem hexNumber_hexDigits (width n : Nat) (small : n < 16 ^ width) : hexNumber (hexDigits width n) = some n := by
  induction width generalizing n with
  | zero =>
      have zero : n = 0 := by simpa using small
      rw [zero]
      rfl
  | succ width ih =>
      have high := ih (n / 16) (by rw [Nat.pow_succ] at small; omega)
      unfold hexNumber at high ⊢
      rw [hexDigits, List.foldlM_append, high]
      have low := hexDigit_lowerHex (n % 16) (by omega)
      simp [low]
      omega

theorem scalar_hexDigits (width : Nat) (c : Char) (small : c.toNat < 16 ^ width) :
    scalar (hexDigits width c.toNat) = some c := by
  unfold scalar
  rw [hexNumber_hexDigits width _ small]
  have valid : c.toNat.isValidChar := c.valid
  simp [valid]

variable {isPrint : Char → Bool}

theorem toNat_lt (c : Char) : c.toNat < 1114112 := by
  have valid : c.toNat.isValidChar := c.valid
  rcases valid with low | high <;> omega

theorem shortEscape_shortLetter {c letter : Char} (clean : ¬Awkward c) (short : shortLetter c = some letter) :
    shortEscape letter = some c := by
  have whole := Char.ofNat_toNat c
  unfold shortLetter at short
  split_ifs at short with h7 h8 h12 h10 h13 h9 h11
  · exact absurd ⟨by omega, by simp [h7]⟩ clean
  · cases short
    rw [← whole, h8]
    rfl
  · cases short
    rw [← whole, h12]
    rfl
  · cases short
    rw [← whole, h10]
    rfl
  · cases short
    rw [← whole, h13]
    rfl
  · cases short
    rw [← whole, h9]
    rfl
  · exact absurd ⟨by omega, by simp [h11]⟩ clean

theorem readBasic_escapedRune (hides : Hides isPrint) {c : Char} (clean : ¬Awkward c) (rest : Text) :
    readBasic (escapedRune isPrint c ++ rest) = push (some c) (readBasic rest) := by
  unfold escapedRune
  by_cases special : c = '"' ∨ c = '\\'
  · rw [if_pos special]
    apply readBasic_short
    rcases special with rfl | rfl <;> rfl
  · rw [if_neg special]
    obtain ⟨quoteMark, slash⟩ := not_or.mp special
    by_cases shown : isPrint c = true
    · rw [if_pos shown]
      apply readBasic_plain quoteMark slash
      by_contra control
      have low : c.toNat < 32 ∨ c.toNat = 127 := by
        simp only [isControl, Bool.not_eq_false, Bool.or_eq_true, Bool.and_eq_true, decide_eq_true_eq] at control
        omega
      rw [hides c low] at shown
      cases shown
    · rw [if_neg shown]
      cases short : shortLetter c with
      | some letter =>
          exact readBasic_short (shortEscape_shortLetter clean short) rest
      | none =>
          have high : ¬(c.toNat < 32 ∨ c.toNat = 127) := by
            intro low
            apply clean
            refine ⟨low, ?_⟩
            unfold shortLetter at short
            intro listed
            simp only [List.mem_cons, List.not_mem_nil, or_false] at listed
            rcases listed with h | h | h | h | h <;> simp [h] at short
          dsimp only
          rw [if_neg high]
          split
          · rename_i small
            exact readBasic_four (scalar_hexDigits 4 c (by omega)) rest
          · exact readBasic_eight (scalar_hexDigits 8 c (by have := toNat_lt c; omega)) rest

theorem readBasic_runes (hides : Hides isPrint) {s : Text} (clean : ∀ c ∈ s, ¬Awkward c) (rest : Text) :
    readBasic (s.flatMap (escapedRune isPrint) ++ '"' :: rest) = some (s, rest) := by
  induction s with
  | nil => exact readBasic_close rest
  | cons c s ih =>
      rw [List.flatMap_cons, List.append_assoc, readBasic_escapedRune hides (clean c (by simp)),
        ih fun other mem => clean other (by simp [mem])]
      rfl

theorem escapedRune_head (c : Char) (rest : Text) : (escapedRune isPrint c ++ rest).head? ≠ some '"' := by
  unfold escapedRune
  by_cases special : c = '"' ∨ c = '\\'
  · rw [if_pos special]
    simp
  · rw [if_neg special]
    obtain ⟨quoteMark, -⟩ := not_or.mp special
    by_cases shown : isPrint c = true
    · simp [shown, quoteMark]
    · rw [if_neg shown]
      cases shortLetter c with
      | some letter => simp
      | none =>
          dsimp only
          split_ifs <;> simp

theorem readValue_quote (hides : Hides isPrint) {s : String} (clean : Renderable s) (rest : Text)
    (ends : rest.head? ≠ some '"') : readValue (quote isPrint s ++ rest) = some (.str s.toList, rest) := by
  have read := readBasic_runes hides clean rest
  rw [quote, List.cons_append, List.append_assoc]
  apply readValue_basic read
  intro text shape
  cases chars : s.toList with
  | nil =>
      rw [chars] at shape
      simp only [List.flatMap_nil, List.nil_append, List.cons.injEq, true_and] at shape
      rw [shape] at ends
      simp at ends
  | cons c cs =>
      rw [chars, List.flatMap_cons, List.append_assoc] at shape
      exact @escapedRune_head isPrint c _ (by rw [shape]; rfl)

theorem newline_not_mem_hexDigits (width n : Nat) : '\n' ∉ hexDigits width n := by
  induction width generalizing n with
  | zero => simp [hexDigits]
  | succ width ih =>
      rw [hexDigits, List.mem_append, not_or]
      refine ⟨ih _, ?_⟩
      have digits : ∀ m < 16, '\n' ≠ lowerHex m := by decide
      simpa using digits (n % 16) (by omega)

theorem newline_not_mem_quote (hides : Hides isPrint) (s : String) : '\n' ∉ quote isPrint s := by
  have runes : ∀ c, '\n' ∉ escapedRune isPrint c := by
    intro c
    unfold escapedRune
    by_cases special : c = '"' ∨ c = '\\'
    · rw [if_pos special]
      rcases special with rfl | rfl <;> decide
    · rw [if_neg special]
      by_cases shown : isPrint c = true
      · have other : c ≠ '\n' := by
          rintro rfl
          rw [hides '\n' (by decide)] at shown
          cases shown
        simp [shown, Ne.symm other]
      · rw [if_neg shown]
        cases short : shortLetter c with
        | some letter =>
            have other : letter ≠ '\n' := by
              rintro rfl
              unfold shortLetter at short
              split_ifs at short <;> simp at short
            simp [Ne.symm other]
        | none =>
            dsimp only
            have two := newline_not_mem_hexDigits 2 c.toNat
            have four := newline_not_mem_hexDigits 4 c.toNat
            have eight := newline_not_mem_hexDigits 8 c.toNat
            split_ifs <;> simp [two, four, eight]
  simp [quote, runes]

/-! ## Lines of the configuration -/

theorem newline_not_mem_digits (n : Nat) : '\n' ∉ Nat.toDigits 10 n := by
  intro mem
  have digit := Nat.isDigit_of_mem_toDigits (by decide) (by decide) mem
  simp at digit

theorem readLine_entry {c : Char} {text : Text} (first : c ∉ [' ', '\t', '#', '[']) :
    readLine (c :: text) = readEntry (c :: text) := by
  simp only [List.mem_cons, List.not_mem_nil, or_false, not_or] at first
  unfold readLine
  rw [spaces_of_ne first.1 first.2.1]
  split
  · rename_i shape
    cases shape
  · rename_i shape
    exact absurd (List.cons.inj shape).1 first.2.2.1
  · rename_i shape
    exact absurd (List.cons.inj shape).1 first.2.2.2
  · rfl

def BareKey (key : String) : Prop := key.toList ≠ [] ∧ key.toList.all isBare = true

instance (key : String) : Decidable (BareKey key) := by
  unfold BareKey
  infer_instance

theorem isBare_first {c : Char} (bare : isBare c = true) : c ∉ [' ', '\t', '#', '['] := by
  intro mem
  simp only [List.mem_cons, List.not_mem_nil, or_false] at mem
  rcases mem with rfl | rfl | rfl | rfl <;> revert bare <;> decide

theorem reads_bare {lead : Text} {k : String} (written : lead = k.toList ++ " = ".toList) (bare : BareKey k)
    {value : Text} {v : Value} (single : '\n' ∉ value) (space : value.head? ≠ some ' ') (tab : value.head? ≠ some '\t')
    (read : readValue value = some (v, [])) : Reads [lead ++ value] [.entry k.toList v] := by
  have all : ∀ c ∈ k.toList, isBare c = true := List.all_eq_true.mp bare.2
  apply Reads.single
  · rw [written]
    have inKey : '\n' ∉ k.toList := fun mem => by
      have := all _ mem
      revert this
      decide
    simp [inKey, single]
  · have named : readKey (k.toList ++ " = ".toList ++ value) = some (k.toList, " = ".toList ++ value) := by
      rw [List.append_assoc]
      apply readKey_bare all bare.1
      intro c mem
      cases mem
      rfl
    rw [written]
    have whole := readEntry_of named (fun text same => space (by rw [same]; rfl)) (fun text same => tab (by rw [same]; rfl)) read
    obtain ⟨c, tail, shape⟩ := List.exists_cons_of_ne_nil bare.1
    rw [shape] at all whole ⊢
    exact (readLine_entry (isBare_first (all c (by simp)))).trans whole

theorem reads_text (hides : Hides isPrint) {lead : Text} {k : String} (written : lead = k.toList ++ " = ".toList)
    (bare : BareKey k) {s : String} (clean : Renderable s) :
    Reads [lead ++ quote isPrint s] [.entry k.toList (.str s.toList)] := by
  have read := readValue_quote hides clean [] (by simp)
  rw [List.append_nil] at read
  exact reads_bare written bare (newline_not_mem_quote hides s) (by simp [quote]) (by simp [quote]) read

theorem reads_quoted (hides : Hides isPrint) {name s : String} (cleanName : Renderable name) (clean : Renderable s) :
    Reads [quote isPrint name ++ " = ".toList ++ quote isPrint s] [.entry name.toList (.str s.toList)] := by
  apply Reads.single
  · simp [newline_not_mem_quote hides]
  · have named : readKey (quote isPrint name ++ " = ".toList ++ quote isPrint s) =
        some (name.toList, " = ".toList ++ quote isPrint s) := by
      have read := readBasic_runes hides cleanName (" = ".toList ++ quote isPrint s)
      rw [quote, List.cons_append, List.cons_append, List.append_assoc, List.append_assoc]
      exact read
    have read := readValue_quote hides clean [] (by simp)
    rw [List.append_nil] at read
    have whole := readEntry_of named (by simp [quote]) (by simp [quote]) read
    exact (readLine_entry (by simp)).trans whole

theorem reads_true {line : Text} {k : String} (written : line = k.toList ++ " = ".toList ++ "true".toList)
    (bare : BareKey k) : Reads [line] [.entry k.toList (.bool true)] := by
  rw [written]
  exact reads_bare rfl bare (by decide) (by decide) (by decide) rfl

theorem toDigits_head {n : Nat} (positive : 0 < n) : (Nat.toDigits 10 n).head? ≠ some '0' := by
  induction n using Nat.strong_induction_on with
  | _ n ih =>
      by_cases small : n < 10
      · rw [Nat.toDigits_of_lt_base small]
        have digits : ∀ m < 10, 0 < m → [m.digitChar].head? ≠ some '0' := by decide
        exact digits n small positive
      · have split : Nat.toDigits 10 n = Nat.toDigits 10 (n / 10) ++ Nat.toDigits 10 (n % 10) := by
          rw [Nat.toDigits_append_toDigits (by decide) (by omega) (by omega), Nat.div_add_mod]
        have high := ih (n / 10) (by omega) (by omega)
        rw [split, List.head?_append_of_ne_nil]
        · exact high
        · exact Nat.toDigits_ne_nil

theorem readValue_positive {n : Int} (positive : 0 < n) : readValue (toString n).toList = some (.int n, []) := by
  obtain ⟨m, rfl⟩ := Int.eq_ofNat_of_zero_le positive.le
  have positive : 0 < m := by omega
  have shape : (toString (m : Int)).toList = Nat.toDigits 10 m := by
    show (toString m).toList = _
    rw [Nat.toString_eq_repr, Nat.repr_eq_ofList_toDigits, String.toList_ofList]
  have digits : ∀ c ∈ Nat.toDigits 10 m, c.isDigit = true := fun c mem =>
    Nat.isDigit_of_mem_toDigits (by decide) (by decide) mem
  have natural : readNatural (Nat.toDigits 10 m) = some (m, []) := by
    have front : (Nat.toDigits 10 m).takeWhile Char.isDigit = Nat.toDigits 10 m :=
      List.takeWhile_eq_self_iff.mpr digits
    have back : (Nat.toDigits 10 m).dropWhile Char.isDigit = [] := List.dropWhile_eq_nil_iff.mpr digits
    unfold readNatural
    dsimp only
    rw [front, back, if_neg, Nat.ofDigitChars_ten_toDigits]
    rintro (none | ⟨zero, -⟩)
    · exact Nat.toDigits_ne_nil none
    · exact toDigits_head positive zero
  rw [shape]
  have start := digits
  cases chars : Nat.toDigits 10 m with
  | nil => exact absurd chars Nat.toDigits_ne_nil
  | cons c text =>
      rw [chars] at natural start
      have first := start c (by simp)
      rw [readValue, natural]
      · rfl
      all_goals
        intro tail same
        rw [(List.cons.inj same).1] at first
        revert first
        decide

theorem readBasic_all {s : Text} (simple : ∀ c ∈ s, c ≠ '"' ∧ c ≠ '\\' ∧ isControl c = false) (rest : Text) :
    readBasic (s ++ '"' :: rest) = some (s, rest) := by
  induction s with
  | nil => exact readBasic_close rest
  | cons c s ih =>
      obtain ⟨quoteMark, slash, shown⟩ := simple c (by simp)
      rw [List.cons_append, readBasic_plain quoteMark slash shown, ih fun other mem => simple other (by simp [mem])]
      rfl

theorem digit_range {c : Char} (digit : c.isDigit = true) : 48 ≤ c.toNat ∧ c.toNat ≤ 57 := by
  simp only [Char.isDigit, ge_iff_le, Bool.and_eq_true, decide_eq_true_eq, UInt32.le_iff_toNat_le] at digit
  exact digit

theorem digit_simple {c : Char} (digit : c.isDigit = true) : c ≠ '"' ∧ c ≠ '\\' ∧ isControl c = false := by
  refine ⟨?_, ?_, ?_⟩
  · rintro rfl
    revert digit
    decide
  · rintro rfl
    revert digit
    decide
  · have range := digit_range digit
    have other : ¬(c.toNat < 32) := by omega
    have rubout : ¬(c.toNat = 127) := by omega
    simp [isControl, other, rubout]

theorem address_simple {l : String} (simple : ∀ c ∈ l.toList, c ≠ '"' ∧ c ≠ '\\' ∧ isControl c = false) (port : Nat) :
    ∀ c ∈ l.toList ++ (toString port).toList, c ≠ '"' ∧ c ≠ '\\' ∧ isControl c = false := by
  intro c mem
  rcases List.mem_append.mp mem with mem | mem
  · exact simple c mem
  · rw [Nat.toString_eq_repr, Nat.repr_eq_ofList_toDigits, String.toList_ofList] at mem
    exact digit_simple (Nat.isDigit_of_mem_toDigits (by decide) (by decide) mem)

theorem reads_apiBindTo (port : Nat) :
    Reads ["api-bind-to = \"127.0.0.1:".toList ++ (toString port).toList ++ "\"".toList]
      [.entry "api-bind-to".toList (.str ("127.0.0.1:".toList ++ (toString port).toList))] := by
  have shape : "api-bind-to = \"127.0.0.1:".toList ++ (toString port).toList ++ "\"".toList =
      "api-bind-to = ".toList ++ '"' :: ("127.0.0.1:".toList ++ (toString port).toList ++ ['"']) := by
    simp
  have simple := address_simple (l := "127.0.0.1:") (by simp [isControl]) port
  rw [shape]
  apply reads_bare (k := "api-bind-to") (by decide) (by decide) ?_ (by simp) (by simp)
  · apply readValue_basic (readBasic_all simple [])
    intro text same
    simp at same
  · simp [newline_not_mem_digits]

theorem reads_proxies {n : Int} (positive : 0 < n) :
    Reads ["proxies = [\"socks5://127.0.0.1:".toList ++ (toString n).toList ++ "\"]".toList]
      [.entry "proxies".toList (.strs ["socks5://127.0.0.1:".toList ++ (toString n).toList])] := by
  obtain ⟨m, rfl⟩ := Int.eq_ofNat_of_zero_le positive.le
  have plain : (toString (m : Int)).toList = (toString m).toList := rfl
  have shape : "proxies = [\"socks5://127.0.0.1:".toList ++ (toString m).toList ++ "\"]".toList =
      "proxies = ".toList ++ '[' :: '"' :: ("socks5://127.0.0.1:".toList ++ (toString m).toList ++ '"' :: [']']) := by
    simp
  have read := readBasic_all (address_simple (l := "socks5://127.0.0.1:") (by simp [isControl]) m) [']']
  rw [plain, shape]
  apply reads_bare (k := "proxies") (by decide) (by decide) ?_ (by simp) (by simp)
  · exact readValue_single read
  · simp [newline_not_mem_digits]

theorem reads_limits (hides : Hides isPrint) {name : String} (clean : Renderable name) :
    Reads ["[secret-limits.".toList ++ quote isPrint name ++ "]".toList] [.header ["secret-limits".toList, name.toList]] := by
  have read := readBasic_runes hides clean [']']
  have key : BareKey "secret-limits" := by decide
  have shape : "[secret-limits.".toList ++ quote isPrint name ++ "]".toList =
      '[' :: ("secret-limits".toList ++ '.' :: '"' :: (name.toList.flatMap (escapedRune isPrint) ++ '"' :: [']'])) := by
    simp [quote]
  apply Reads.single
  · simp [newline_not_mem_quote hides]
  · rw [shape]
    exact readLine_header (List.all_eq_true.mp key.2) key.1 read

end ThreeXNode.MTProto
