import ThreeXNode.Leaf.Counters

namespace ThreeXNode.Leaf
open Library State

/-! ## Names a node admits -/

/-- The email of an admitted client, or the tag of an admitted inbound. -/
def Admitted (user : Bool) (name : String) : Prop :=
  if user then ∃ c, validateClient c = .ok () ∧ c.text "email" = name
  else ∃ ib, validateInbound ib = .ok () ∧ ib.tag = name

theorem validateClient_email {c : Client} (valid : validateClient c = .ok ()) :
    (c.text "email").utf8ByteSize ≠ 0 ∧ ¬sep <:+: (c.text "email").toList := by
  unfold validateClient at valid
  rw [Except.bind_eq_ok] at valid
  obtain ⟨_, -, valid⟩ := valid
  rw [Except.bind_eq_ok] at valid
  obtain ⟨_, email, -⟩ := valid
  rw [require_eq_ok] at email
  exact ⟨email.1, email.2.2⟩

theorem validateInbound_tag {ib : Inbound} (valid : validateInbound ib = .ok ()) : ¬sep <:+: ib.tag.toList := by
  unfold validateInbound at valid
  rw [Except.bind_eq_ok] at valid
  obtain ⟨_, -, valid⟩ := valid
  rw [Except.bind_eq_ok] at valid
  obtain ⟨_, -, valid⟩ := valid
  rw [Except.bind_eq_ok] at valid
  obtain ⟨_, tag, -⟩ := valid
  rw [require_eq_ok] at tag
  exact tag.2.2.1

theorem Admitted.outside {user : Bool} {name : String} (admitted : Admitted user name) : ¬sep <:+: name.toList := by
  cases user with
  | true =>
      obtain ⟨c, valid, rfl⟩ := admitted
      exact (validateClient_email valid).2
  | false =>
      obtain ⟨ib, valid, rfl⟩ := admitted
      exact validateInbound_tag valid

/-! ## Which name a counter is read for -/

theorem counterKey_inj {user user' : Bool} {name name' : String} {dir dir' : Direction}
    (same : counterKey user name dir = counterKey user' name' dir') : user = user' ∧ name = name' ∧ dir = dir' := by
  have chars := String.ofList_injective same
  have kinds : user = user' := by
    have first := congrArg List.head? chars
    cases user <;> cases user' <;> simp_all
  subst kinds
  have tails := List.append_cancel_left (List.append_cancel_left chars)
  have directions : dir = dir' := by
    have ends := congrArg (fun s : List Char => s.reverse.take 7) tails
    cases dir <;> cases dir' <;> simp [Direction.word, List.reverse_append, sep] at ends ⊢
  subst directions
  exact ⟨rfl, String.toList_inj.mp (List.append_cancel_right tails), rfl⟩

theorem parseKey_ending {user : Bool} {name : String} {dir : Direction} (ending : name.toList.getLast? = some '>') :
    parseKey (counterKey user name dir) = none := by
  rw [← Option.not_isSome_iff_eq_none]
  intro owned
  obtain ⟨⟨user', name', dir'⟩, parsed⟩ := Option.isSome_iff_exists.mp owned
  obtain ⟨-, rfl, -⟩ := counterKey_inj (counterKey_of_parseKey parsed)
  have three : sep = List.replicate (2 + 1) '>' := rfl
  -- The pieces are those of the name with what stands behind it, and the first is the name.
  have kind : ∀ i < (if user then "user" else "inbound").toList.length, ¬sep <+: ((if user then "user" else "inbound").toList ++
      (sep ++ (name.toList ++ (sep ++ ("traffic".toList ++ (sep ++ dir.word.toList)))))).drop i := by
    rw [three]
    exact clear_of_not_mem (by cases user <;> decide)
  unfold parseKey at parsed
  rw [counterKey, String.toList_ofList, splitOn_append (by decide) _ _ kind] at parsed
  split at parsed
  · rename_i kind' name' word dir' pieces
    rw [List.cons.injEq] at pieces
    have named : name' = name.toList := by
      split at parsed
      · cases parsed
      · rw [Option.bind_eq_some_iff] at parsed
        obtain ⟨d, -, parsed⟩ := parsed
        split at parsed
        · cases parsed
          rw [String.toList_ofList]
        · split at parsed
          · cases parsed
            rw [String.toList_ofList]
          · cases parsed
    have clear := clear_of_splitOn pieces.2
    rw [named] at clear
    obtain ⟨front, whole⟩ := List.getLast?_eq_some_iff.mp ending
    refine clear front.length (by simp [whole]) ?_
    rw [whole, List.append_assoc, List.drop_left]
    exact ⟨'>' :: ("traffic".toList ++ (sep ++ dir.word.toList)), rfl⟩
  · cases parsed

def creditOwner (now : Int) (user : Bool) (name : String) (dir : Direction) (delta : Int) (s : State) : State :=
  if user then s.creditUser now name dir delta else s.creditInbound name dir delta

/-- The growth of the counters of a name is credited to this client or inbound and in this direction. -/
def Attributed (user : Bool) (name : String) : Prop :=
  ∀ (dir : Direction) (s : State) (now : Int) (baseline : Baseline) (value : Int), 0 ≤ value →
    growth baseline (counterKey user name dir) value ≠ 0 →
      s.credit now baseline (counterKey user name dir, value) =
        creditOwner now user name dir (growth baseline (counterKey user name dir) value) s

theorem credit_parsed {s : State} {now : Int} {baseline : Baseline} {user : Bool} {name : String} {dir : Direction}
    {key : String} {value : Int} (positive : 0 ≤ value) (grown : growth baseline key value ≠ 0)
    (parsed : parseKey key = some (user, name, dir)) :
    s.credit now baseline (key, value) = creditOwner now user name dir (growth baseline key value) s := by
  unfold State.credit
  simp only [parsed, creditOwner]
  rw [if_neg (by omega), if_neg grown]
  cases user <;> rfl

theorem credit_unparsed {s : State} {now : Int} {baseline : Baseline} {key : String} {value : Int}
    (parsed : parseKey key = none) : s.credit now baseline (key, value) = s := by
  unfold State.credit
  simp only [parsed]
  split
  · rfl
  · split <;> rfl

def unused (email : String) : Traffic where
  id := 1
  inboundID := 1
  email
  uuid := ""
  subID := ""
  enable := true
  up := 0
  down := 0
  total := 0
  expiryTime := 0
  lastOnline := 0

def loneOwner (user : Bool) (name : String) : State :=
  if user then { fresh "" with traffic := (∅ : Std.ExtTreeMap String Traffic).insert name (unused name) }
  else { fresh "" with inbounds := [{ plainInbound [] with tag := name }] }

theorem creditOwner_counts (user : Bool) (name : String) (now : Int) :
    (creditOwner now user name .uplink 1 (loneOwner user name)).meter user name .uplink = some 1 := by
  cases user with
  | true => simp [creditOwner, loneOwner, unused, creditUser, State.meter, Traffic.add, Traffic.count, wrap64]
  | false => simp [creditOwner, loneOwner, creditInbound, State.meter, Inbound.add, Inbound.count, plainInbound, wrap64]

theorem loneOwner_meter (user : Bool) (name : String) : (loneOwner user name).meter user name .uplink = some 0 := by
  cases user with
  | true => simp [loneOwner, unused, State.meter, Traffic.count]
  | false => simp [loneOwner, State.meter, Inbound.count, plainInbound]

theorem not_attributed {user : Bool} {name : String} (ending : name.toList.getLast? = some '>') :
    ¬Attributed user name := by
  intro attributed
  have one : growth ∅ (counterKey user name .uplink) 1 = 1 := by simp [growth, wrap64]
  have whole := attributed .uplink (loneOwner user name) 0 ∅ 1 (by omega) (by omega)
  rw [credit_unparsed (parseKey_ending ending), one] at whole
  have counted := creditOwner_counts user name 0
  rw [← whole, loneOwner_meter] at counted
  simp at counted

/-- The traffic of an admitted name is credited to its owner exactly where the name does not end in a symbol of
the separator. -/
theorem admitted_attributed {user : Bool} {name : String} (admitted : Admitted user name) :
    Attributed user name ↔ name.toList.getLast? ≠ some '>' := by
  constructor
  · intro attributed ending
    exact not_attributed ending attributed
  · intro ending dir s now baseline value positive grown
    exact credit_parsed positive grown (parseKey_counterKey ⟨admitted.outside, ending⟩)

theorem admitted_attributed_alice : Admitted true "alice" ∧
    (Attributed true "alice" ↔ "alice".toList.getLast? ≠ some '>') := by
  have admitted : Admitted true "alice" := ⟨plainClient "alice", by decide +kernel, by decide +kernel⟩
  exact ⟨admitted, admitted_attributed admitted⟩

theorem admitted_unattributed : Admitted true "alice>" ∧ ¬Attributed true "alice>" :=
  ⟨⟨plainClient "alice>", by decide +kernel, by decide +kernel⟩, not_attributed (by decide)⟩

end ThreeXNode.Leaf
