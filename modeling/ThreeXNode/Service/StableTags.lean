import ThreeXNode.Library.Probing
import ThreeXNode.Library.Texts
import ThreeXNode.Library.Latest
import ThreeXNode.Library.Transition

namespace ThreeXNode.Service.StableTags
open Library Probing

structure Link where
  identity : String
  remark : String
deriving DecidableEq

/-- The parts of the standard library: `\p{L}` or `\p{N}`, `unicode.ToLower`, and the text `encoding/json` makes of an
identity, whose bytes need not be UTF-8. -/
structure Texts where
  isWord : Char → Bool
  toLower : Char → Char
  marshalled : String → String

variable (texts : Texts)

/-! ## A fresh tag -/

def replaceRuns (inRun : Bool) : List Char → List Char
  | [] => []
  | c :: rest =>
      if texts.isWord c then c :: replaceRuns false rest
      else if inRun then replaceRuns true rest else '-' :: replaceRuns true rest

def trimDashes (text : List Char) : List Char :=
  ((text.dropWhile (· = '-')).reverse.dropWhile (· = '-')).reverse

/-- No two dashes are left side by side, so there is nothing to collapse; spaces around the remark become dashes, which
are trimmed. -/
def slugRemark (remark : String) : String :=
  String.ofList (trimDashes (replaceRuns texts false (remark.toList.map texts.toLower)))

def trimSuffix (text : List Char) : List Char :=
  if text.getLast? = some '-' then text.dropLast else text

def suggestTag (tagPrefix remark : String) (idx : Nat) : String :=
  let slug := slugRemark texts remark
  let base := if slug = "" then toString idx else slug
  let p := String.ofList (trimSuffix tagPrefix.toList)
  if p ≠ "" then p ++ "-" ++ base else base

/-! ## The tags of a refresh -/

structure Naming where
  subID : Nat
  tagPrefix : String

def identityTag (prev : Std.ExtTreeMap String String) (link : Link) : String := prev[link.identity]?.getD ""

def reservedStableTags (prev : Std.ExtTreeMap String String) (parsed : List Link) : List String :=
  (parsed.map (identityTag prev)).filter (· ≠ "")

/-- The tag wanted for a link: that of its identity, that of its position, or a fresh one. -/
def candidate (naming : Naming) (prev : Std.ExtTreeMap String String) (prevTagByIndex reserved : List String) (i : Nat)
    (link : Link) : String :=
  if identityTag prev link ≠ "" then identityTag prev link
  else
    let old := prevTagByIndex[i]?.getD ""
    if old ≠ "" ∧ old ∉ reserved then old
    else
      let tagPrefix := if naming.tagPrefix = "" then "sub" ++ toString naming.subID ++ "-" else naming.tagPrefix
      suggestTag texts tagPrefix link.remark i

def numbered (candidate : String) : Nat → String
  | 0 => candidate
  | k + 1 => candidate ++ "-" ++ toString (k + 1)

def assignFrom (naming : Naming) (prev : Std.ExtTreeMap String String) (prevTagByIndex reserved : List String) :
    List String → Nat → List Link → List String
  | _, _, [] => []
  | used, i, link :: rest =>
      let final := firstFree (numbered (candidate texts naming prev prevTagByIndex reserved i link))
        (used ++ reserved.filter (· ≠ identityTag prev link))
      final :: assignFrom naming prev prevTagByIndex reserved (final :: used) (i + 1) rest

def assignStableTags (naming : Naming) (parsed : List Link) (prev : Std.ExtTreeMap String String)
    (prevTagByIndex : List String) : List String :=
  assignFrom texts naming prev prevTagByIndex (reservedStableTags prev parsed) [] 0 parsed

/-! ## Refreshes -/

structure Subscription where
  linkIdentities : Std.ExtTreeMap String String := ∅
  lastFetchedOutbounds : List String := []
  latest : List (Link × String) := []

/-- The map of identities as the next refresh reads it back: its keys in order, a later one replacing an earlier one. -/
def reread (newIdent : Std.ExtTreeMap String String) : Std.ExtTreeMap String String :=
  (newIdent.toList.map fun entry => (texts.marshalled entry.1, entry.2)).foldl assign ∅

/-- A refresh that gets through; `rejected` are the outbounds that the core refuses. -/
def Subscription.fetchAndStore (naming : Naming) (s : Subscription) (parsed : List Link) (rejected : Nat → Bool) :
    Subscription :=
  let assigned := assignStableTags texts naming parsed s.linkIdentities s.lastFetchedOutbounds
  let newIdent : Std.ExtTreeMap String String :=
    ((parsed.zip assigned).map fun entry => (entry.1.identity, entry.2)).foldl assign ∅
  { linkIdentities := reread texts newIdent
    lastFetchedOutbounds := (assigned.zipIdx.filter fun (_, i) => !rejected i).map (·.1)
    latest := parsed.zip assigned }

/-- A refresh that fails, at the download or when the row is saved, leaves both columns as they are. -/
inductive Refresh where
  | failed
  | stored (parsed : List Link) (rejected : Nat → Bool)

def refreshes (naming : Naming) : System Subscription Refresh where
  next
    | s, .failed => some s
    | s, .stored parsed rejected => some (s.fetchAndStore texts naming parsed rejected)

/-! ## One refresh -/

theorem numbered_injective (candidate : String) : (numbered candidate).Injective := by
  have longer (k : Nat) : (numbered candidate (k + 1)).length ≠ candidate.length := by
    rw [numbered, String.length_append, String.length_append, show "-".length = 1 from rfl]
    omega
  intro k k' same
  cases k with
  | zero =>
      cases k' with
      | zero => rfl
      | succ k' => exact absurd (congrArg String.length same).symm (longer k')
  | succ k =>
      cases k' with
      | zero => exact absurd (congrArg String.length same) (longer k)
      | succ k' =>
          simp only [numbered, String.append_assoc] at same
          exact toString_nat_inj (String.append_right_inj _ |>.mp (String.append_right_inj _ |>.mp same))

theorem suggestTag_nonempty (tagPrefix remark : String) (idx : Nat) : suggestTag texts tagPrefix remark idx ≠ "" := by
  have base : (if slugRemark texts remark = "" then toString idx else slugRemark texts remark) ≠ "" := by
    split
    · intro empty
      have digits := congrArg String.toList empty
      rw [toString_nat_toList] at digits
      exact Nat.toDigits_ne_nil digits
    · assumption
  unfold suggestTag
  dsimp only
  split
  · intro empty
    have size := congrArg String.length empty
    simp [String.length_append] at size
  · exact base

section
variable {texts} {naming : Naming} {prev : Std.ExtTreeMap String String} {prevTagByIndex reserved : List String}

theorem candidate_nonempty (i : Nat) (link : Link) :
    candidate texts naming prev prevTagByIndex reserved i link ≠ "" := by
  unfold candidate
  dsimp only
  split
  · assumption
  · split
    · rename_i positional
      exact positional.1
    · exact suggestTag_nonempty texts _ _ _

theorem assignFrom_length (used : List String) (i : Nat) (links : List Link) :
    (assignFrom texts naming prev prevTagByIndex reserved used i links).length = links.length := by
  induction links generalizing used i with
  | nil => rfl
  | cons link rest ih => rw [assignFrom, List.length_cons, ih, List.length_cons]

theorem assignFrom_fresh (used : List String) (i : Nat) (links : List Link) :
    (assignFrom texts naming prev prevTagByIndex reserved used i links).Nodup ∧
      ∀ tag ∈ assignFrom texts naming prev prevTagByIndex reserved used i links, tag ∉ used ∧ tag ≠ "" := by
  induction links generalizing used i with
  | nil => exact ⟨List.nodup_nil, by simp [assignFrom]⟩
  | cons link rest ih =>
      rw [assignFrom]
      generalize wanted : candidate texts naming prev prevTagByIndex reserved i link = want
      generalize chosen : firstFree (numbered want) (used ++ reserved.filter (· ≠ identityTag prev link)) = final
      have free : final ∉ used := by
        rw [← chosen]
        exact fun taken => firstFree_free (numbered_injective want) (List.mem_append_left _ taken)
      have named : final ≠ "" := by
        obtain ⟨k, shape⟩ := firstFree_mem (numbered want) (used ++ reserved.filter (· ≠ identityTag prev link))
        rw [← chosen, shape]
        cases k with
        | zero =>
            rw [numbered, ← wanted]
            exact candidate_nonempty i link
        | succ k =>
            intro empty
            have size := congrArg String.length empty
            simp [numbered, String.length_append] at size
      obtain ⟨distinct, apart⟩ := ih (final :: used) (i + 1)
      constructor
      · exact List.nodup_cons.mpr ⟨fun again => (apart final again).1 List.mem_cons_self, distinct⟩
      · intro tag member
        rcases List.mem_cons.mp member with rfl | later
        · exact ⟨free, named⟩
        · exact ⟨fun taken => (apart tag later).1 (List.mem_cons_of_mem _ taken), (apart tag later).2⟩

theorem assignFrom_kept {used : List String} {i : Nat} {links : List Link} {j : Nat} {link : Link} (here : links[j]? = some link)
    (known : identityTag prev link ≠ "") (saved : identityTag prev link ∈ reserved) (free : identityTag prev link ∉ used)
    (first : ∀ j' < j, ∀ other, links[j']? = some other → identityTag prev other ≠ identityTag prev link) :
    (assignFrom texts naming prev prevTagByIndex reserved used i links)[j]? = some (identityTag prev link) := by
  induction links generalizing used i j with
  | nil => simp at here
  | cons head rest ih =>
      rw [assignFrom]
      cases j with
      | zero =>
          cases here
          have wanted : candidate texts naming prev prevTagByIndex reserved i link = identityTag prev link := if_pos known
          rw [List.getElem?_cons_zero, wanted, firstFree_zero]
          · rfl
          · simp [numbered, free]
      | succ j =>
          rw [List.getElem?_cons_succ]
          refine ih here ?_ ?_
          · rw [List.mem_cons, not_or]
            refine ⟨?_, free⟩
            intro taken
            have blocked : identityTag prev link ∈ used ++ reserved.filter (· ≠ identityTag prev head) := by
              refine List.mem_append_right _ (List.mem_filter.mpr ⟨saved, ?_⟩)
              simpa using (first 0 (Nat.succ_pos _) head rfl).symm
            exact firstFree_free (numbered_injective _) (taken ▸ blocked)
          · intro j' less other there
            exact first (j' + 1) (Nat.succ_lt_succ less) other there

end

/-! ## Runs -/

/-- The map of identities is that of the latest links: a key for each, and under a key the tag of one it stands for. -/
structure Sound (s : Subscription) : Prop where
  distinct : (s.latest.map (·.2)).Nodup
  named : ∀ p ∈ s.latest, p.2 ≠ ""
  known : ∀ p ∈ s.latest, ∃ tag, s.linkIdentities[texts.marshalled p.1.identity]? = some tag
  owned : ∀ (key tag : String), s.linkIdentities[key]? = some tag →
    ∃ p ∈ s.latest, p.2 = tag ∧ texts.marshalled p.1.identity = key

def Once (xs : List String) (x : String) : Prop := ∀ i j : Nat, xs[i]? = some x → xs[j]? = some x → i = j

/-- An identity that both refreshes have is repeated in neither, also not as the map of identities stores it. -/
def Clear (before after : List Link) : Prop :=
  ∀ x ∈ before.map (·.identity), x ∈ after.map (·.identity) → texts.marshalled x = x ∧
    Once (before.map fun link => texts.marshalled link.identity) x ∧ Once (after.map (·.identity)) x

def KeepsTags (before after : List (Link × String)) : Prop :=
  ∀ p ∈ before, ∀ p' ∈ after, p'.1.identity = p.1.identity → p'.2 = p.2

section
variable {texts} {naming : Naming} {s : Subscription} {parsed : List Link} {rejected : Nat → Bool}

theorem fetched_latest : (s.fetchAndStore texts naming parsed rejected).latest =
    parsed.zip (assignStableTags texts naming parsed s.linkIdentities s.lastFetchedOutbounds) := rfl

theorem assigned_length : (assignStableTags texts naming parsed s.linkIdentities s.lastFetchedOutbounds).length =
    parsed.length := assignFrom_length _ _ _

theorem fetched_links : (s.fetchAndStore texts naming parsed rejected).latest.map (·.1) = parsed := by
  rw [fetched_latest]
  exact List.map_fst_zip assigned_length.ge

theorem fetched_sound : Sound texts (s.fetchAndStore texts naming parsed rejected) := by
  obtain ⟨distinct, apart⟩ := (@assignFrom_fresh texts naming s.linkIdentities s.lastFetchedOutbounds (reservedStableTags s.linkIdentities parsed)) [] 0 parsed
  constructor
  · rw [fetched_latest, List.map_snd_zip assigned_length.le]
    exact distinct
  · intro p member
    exact (apart p.2 (List.of_mem_zip member).2).2
  · intro p member
    rw [fetched_latest] at member
    have present : p.1.identity ∈ ((parsed.zip (assignStableTags texts naming parsed s.linkIdentities
        s.lastFetchedOutbounds)).map fun entry => (entry.1.identity, entry.2)).map (·.1) :=
      List.mem_map.mpr ⟨_, List.mem_map.mpr ⟨p, member, rfl⟩, rfl⟩
    obtain ⟨tag, last⟩ := exists_lastOf present
    have held := Std.ExtTreeMap.mem_toList_iff_getElem?_eq_some.mpr ((assigned_iff _ _ _).mpr last)
    have stored : texts.marshalled p.1.identity ∈ ((((parsed.zip (assignStableTags texts naming parsed s.linkIdentities
        s.lastFetchedOutbounds)).map fun entry => (entry.1.identity, entry.2)).foldl assign ∅).toList.map
          fun entry => (texts.marshalled entry.1, entry.2)).map (·.1) :=
      List.mem_map.mpr ⟨_, List.mem_map.mpr ⟨_, held, rfl⟩, rfl⟩
    obtain ⟨tag', last'⟩ := exists_lastOf stored
    exact ⟨tag', (assigned_iff _ _ _).mpr last'⟩
  · intro key tag found
    obtain ⟨⟨id, tag'⟩, held, same⟩ := List.mem_map.mp (LastOf.mem ((assigned_iff _ _ _).mp found))
    cases same
    have last := (assigned_iff _ _ _).mp (Std.ExtTreeMap.mem_toList_iff_getElem?_eq_some.mp held)
    obtain ⟨p, member, same⟩ := List.mem_map.mp last.mem
    cases same
    exact ⟨p, member, rfl, rfl⟩

theorem Sound.tag (sound : Sound texts s) {p : Link × String} (member : p ∈ s.latest)
    (valid : texts.marshalled p.1.identity = p.1.identity)
    (once : Once ((s.latest.map (·.1)).map fun link => texts.marshalled link.identity) p.1.identity) :
    s.linkIdentities[p.1.identity]? = some p.2 := by
  obtain ⟨tag, found⟩ := sound.known p member
  rw [valid] at found
  obtain ⟨p', member', same, own⟩ := sound.owned _ _ found
  obtain ⟨i, here⟩ := List.getElem?_of_mem member
  obtain ⟨j, there⟩ := List.getElem?_of_mem member'
  have alike : i = j := by
    apply once i j
    · simp [here, valid]
    · simp [there, own]
  subst alike
  cases here.symm.trans there
  rw [found, same]

theorem identityTag_injective (sound : Sound texts s) {link link' : Link} (known : identityTag s.linkIdentities link ≠ "")
    (same : identityTag s.linkIdentities link' = identityTag s.linkIdentities link) : link'.identity = link.identity := by
  have read {link : Link} (known : identityTag s.linkIdentities link ≠ "") :
      s.linkIdentities[link.identity]? = some (identityTag s.linkIdentities link) := by
    unfold identityTag at known ⊢
    cases found : s.linkIdentities[link.identity]? with
    | none => simp [found] at known
    | some tag => rfl
  obtain ⟨p, member, tag, own⟩ := sound.owned _ _ (read known)
  obtain ⟨p', member', tag', own'⟩ := sound.owned _ _ (@read link' (by rw [same]; exact known))
  have alike := List.inj_on_of_nodup_map sound.distinct member' member (by rw [tag, tag', same])
  rw [← own, ← own', alike]

theorem fetched_keeps (sound : Sound texts s) (clear : Clear texts (s.latest.map (·.1)) parsed) :
    KeepsTags s.latest (s.fetchAndStore texts naming parsed rejected).latest := by
  intro p member p' member' same
  rw [fetched_latest] at member'
  obtain ⟨j, there⟩ := List.getElem?_of_mem member'
  obtain ⟨link, tag⟩ := p'
  obtain ⟨here, assigned⟩ := List.getElem?_zip_eq_some.mp there
  have before : p.1.identity ∈ (s.latest.map (·.1)).map (·.identity) := by
    rw [List.map_map]
    exact List.mem_map.mpr ⟨p, member, rfl⟩
  have after : p.1.identity ∈ parsed.map (·.identity) := List.mem_map.mpr ⟨link, List.mem_of_getElem? here, same⟩
  obtain ⟨valid, once, once'⟩ := clear _ before after
  have own : identityTag s.linkIdentities link = p.2 := by
    unfold identityTag
    rw [same, sound.tag member valid once]
    rfl
  have known : identityTag s.linkIdentities link ≠ "" := own ▸ sound.named p member
  have kept := (@assignFrom_kept texts naming _ s.lastFetchedOutbounds (reservedStableTags s.linkIdentities parsed) [] 0) here known ?_ (by simp) ?_
  · have chosen : some tag = some (identityTag s.linkIdentities link) := assigned.symm.trans kept
    rw [Option.some.inj chosen, own]
  · refine List.mem_filter.mpr ⟨List.mem_map.mpr ⟨link, List.mem_of_getElem? here, rfl⟩, ?_⟩
    simpa using known
  · intro j' less other elsewhere alike
    have identity := identityTag_injective sound known alike
    have first : j' = j := by
      apply once' j' j
      · rw [List.getElem?_map, elsewhere, Option.map_some, identity]
        exact congrArg some same
      · rw [List.getElem?_map, here, Option.map_some]
        exact congrArg some same
    omega

theorem once_of_keeps {latest latest' : List (Link × String)} (distinct : (latest.map (·.2)).Nodup)
    (distinct' : (latest'.map (·.2)).Nodup) (keeps : KeepsTags latest latest') {x : String}
    (before : x ∈ (latest.map (·.1)).map (·.identity)) (after : x ∈ (latest'.map (·.1)).map (·.identity)) :
    Once ((latest.map (·.1)).map (·.identity)) x ∧ Once ((latest'.map (·.1)).map (·.identity)) x := by
  have at' {latest : List (Link × String)} {i : Nat} (here : ((latest.map (·.1)).map (·.identity))[i]? = some x) :
      ∃ p, latest[i]? = some p ∧ p.1.identity = x := by
    rw [List.map_map, List.getElem?_map] at here
    exact Option.map_eq_some_iff.mp here
  have same {latest : List (Link × String)} (distinct : (latest.map (·.2)).Nodup) {i j : Nat} {p p' : Link × String}
      (here : latest[i]? = some p) (there : latest[j]? = some p') (tags : p.2 = p'.2) : i = j := by
    have first : (latest.map (·.2))[i]? = some p.2 := by rw [List.getElem?_map, here, Option.map_some]
    have second : (latest.map (·.2))[j]? = some p.2 := by rw [List.getElem?_map, there, Option.map_some, tags]
    obtain ⟨bound, -⟩ := List.getElem?_eq_some_iff.mp first
    exact (List.getElem?_inj bound distinct).mp (first.trans second.symm)
  constructor
  · intro i j here there
    obtain ⟨p, held, own⟩ := at' here
    obtain ⟨p', held', own'⟩ := at' there
    rw [List.map_map] at after
    obtain ⟨q, member, named⟩ := List.mem_map.mp after
    refine same distinct held held' ?_
    rw [← keeps p (List.mem_of_getElem? held) q member (named.trans own.symm),
      keeps p' (List.mem_of_getElem? held') q member (named.trans own'.symm)]
  · intro i j here there
    obtain ⟨p, held, own⟩ := at' here
    obtain ⟨p', held', own'⟩ := at' there
    rw [List.map_map] at before
    obtain ⟨q, member, named⟩ := List.mem_map.mp before
    refine same distinct' held held' ?_
    rw [keeps q member p (List.mem_of_getElem? held) (own.trans named.symm),
      keeps q member p' (List.mem_of_getElem? held') (own'.trans named.symm)]

theorem reached_sound (reached : (refreshes texts naming).Reaches {} s) : Sound texts s := by
  refine reached.invariant (Sound texts) ?_ ?_
  · constructor
    · exact List.nodup_nil
    · simp
    · simp
    · intro key tag found
      simp at found
  · intro t a u sound _ step
    cases a with
    | failed =>
        cases step
        exact sound
    | stored parsed rejected =>
        cases step
        exact fetched_sound

theorem refreshed_same (sound : Sound texts s) (clear : Clear texts (s.latest.map (·.1)) (s.latest.map (·.1))) :
    (s.fetchAndStore texts naming (s.latest.map (·.1)) rejected).latest = s.latest := by
  have keeps := (@fetched_keeps _ naming _ _ rejected) sound clear
  have links := (@fetched_links texts naming s (s.latest.map (·.1)) rejected)
  generalize (s.fetchAndStore texts naming (s.latest.map (·.1)) rejected).latest = latest at keeps links
  have long : latest.length = s.latest.length := by simpa using congrArg List.length links
  apply List.ext_getElem long
  intro i bound bound'
  have link : latest[i].1 = s.latest[i].1 := by
    have here := congrArg (·[i]?) links
    simpa [bound, bound'] using here
  exact Prod.ext link (keeps _ (List.getElem_mem bound') _ (List.getElem_mem bound) (by rw [link]))

end

/-- In every run the tags of a refresh are distinct, and every link keeps the tag of its identity as long as no identity of
two refreshes in a row is repeated; where links keep their tags, none is. -/
theorem tags_stable (naming : Naming) {s : Subscription} (reached : (refreshes texts naming).Reaches {} s) :
    (s.latest.map (·.2)).Nodup ∧
    (∀ parsed rejected, let s' := s.fetchAndStore texts naming parsed rejected
      (Clear texts (s.latest.map (·.1)) parsed → KeepsTags s.latest s'.latest) ∧
      (KeepsTags s.latest s'.latest → ∀ x ∈ (s.latest.map (·.1)).map (·.identity), x ∈ parsed.map (·.identity) →
        Once ((s.latest.map (·.1)).map (·.identity)) x ∧ Once (parsed.map (·.identity)) x)) ∧
    (Clear texts (s.latest.map (·.1)) (s.latest.map (·.1)) → ∀ t,
      (refreshes texts naming).Path (fun _ a => a = .failed ∨ ∃ rejected, a = .stored (s.latest.map (·.1)) rejected) s t →
      t.latest = s.latest) := by
  have sound := reached_sound reached
  refine ⟨sound.distinct, ?_, ?_⟩
  · intro parsed rejected s'
    refine ⟨fetched_keeps sound, ?_⟩
    intro keeps x before after
    have links : s'.latest.map (·.1) = parsed := fetched_links
    rw [← links] at after ⊢
    exact once_of_keeps sound.distinct fetched_sound.distinct keeps before after
  · intro clear t path
    refine (path.invariant (fun t => Sound texts t ∧ t.latest = s.latest) ⟨sound, rfl⟩ ?_).2
    rintro u a u' ⟨held, same⟩ (rfl | ⟨rejected, rfl⟩) step
    · cases step
      exact ⟨held, same⟩
    · cases step
      refine ⟨fetched_sound, ?_⟩
      rw [← same] at clear ⊢
      exact refreshed_same held clear

namespace Example

def ascii : Texts := ⟨Char.isAlphanum, Char.toLower, id⟩

def naming : Naming := ⟨1, "hk-"⟩

def tokyo : Link := ⟨"vless:vless://id@tokyo.example:443?", "Tokyo"⟩

def osaka : Link := ⟨"vless:vless://id@osaka.example:443?", "Osaka"⟩

end Example

open Example in
theorem tags_stable_reordered : ∃ s, (refreshes ascii naming).Reaches {} s ∧ s.latest = [(osaka, "hk-osaka"), (tokyo, "hk-tokyo")] ∧
    (s.latest.map (·.2)).Nodup := by
  have reached : (refreshes ascii naming).Reaches {} (Subscription.fetchAndStore ascii naming
      (Subscription.fetchAndStore ascii naming {} [tokyo, osaka] fun _ => false) [osaka, tokyo] fun _ => false) :=
    (System.Path.refl.tail trivial (a := .stored [tokyo, osaka] fun _ => false) rfl).tail trivial
      (a := .stored [osaka, tokyo] fun _ => false) rfl
  exact ⟨_, reached, by decide +kernel, (tags_stable ascii naming reached).1⟩

open Example in
/-- A link that comes twice gets new tags with every refresh of the same body. -/
theorem tags_unstable :
    let first := Subscription.fetchAndStore ascii naming {} [tokyo, tokyo] fun _ => false
    let second := first.fetchAndStore ascii naming [tokyo, tokyo] fun _ => false
    let third := second.fetchAndStore ascii naming [tokyo, tokyo] fun _ => false
    first.latest.map (·.2) = ["hk-tokyo", "hk-tokyo-1"] ∧ second.latest.map (·.2) = ["hk-tokyo-1", "hk-tokyo-1-1"] ∧
      third.latest.map (·.2) = ["hk-tokyo-1-1", "hk-tokyo-1-1-1"] := by
  decide +kernel

end ThreeXNode.Service.StableTags
