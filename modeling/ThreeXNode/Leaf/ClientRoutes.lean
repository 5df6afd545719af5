import ThreeXNode.Leaf.Routes
import ThreeXNode.Leaf.Store

namespace ThreeXNode.Leaf
open Library

/-! ## Percent-escaping -/

def utf8 (s : String) : Text := s.toByteArray.toList.map fun b => .ofNat b.toNat

def upperHex (n : Nat) : Char := "0123456789ABCDEF".toList.getD n '0'

/-- The symbols that `url.PathEscape` keeps. -/
def kept (c : Char) : Bool :=
  ('a' ≤ c && c ≤ 'z') || ('A' ≤ c && c ≤ 'Z') || ('0' ≤ c && c ≤ '9') || "-_.~$&+:=@".toList.contains c

def pathEscape (s : Text) : Text :=
  s.flatMap fun c => if kept c then [c] else ['%', upperHex (c.toNat / 16), upperHex (c.toNat % 16)]

theorem pathUnescape_cons {c : Char} (rest : Text) (plain : c ≠ '%') :
    pathUnescape (c :: rest) = (pathUnescape rest).map (c :: ·) := by
  rw [pathUnescape.eq_def]
  split
  · contradiction
  · simp_all
  · simp_all
  · simp_all

theorem unhex_upperHex {n : Nat} (small : n < 16) : unhex (upperHex n) = some n := by
  have all : ∀ n : Fin 16, unhex (upperHex n) = some n.val := by decide
  exact all ⟨n, small⟩

theorem pathUnescape_pathEscape {s : Text} (bytes : ∀ c ∈ s, c.toNat < 256) : pathUnescape (pathEscape s) = some s := by
  induction s with
  | nil => rfl
  | cons c s ih =>
      have rest := ih fun d mem => bytes d (List.mem_cons_of_mem _ mem)
      have small := bytes c List.mem_cons_self
      unfold pathEscape at rest ⊢
      rw [List.flatMap_cons]
      split
      · rename_i plain
        have notPercent : c ≠ '%' := by
          rintro rfl
          revert plain
          decide
        rw [List.singleton_append, pathUnescape_cons _ notPercent, rest]
        rfl
      · have whole : Char.ofNat (16 * (c.toNat / 16) + c.toNat % 16) = c := by
          rw [Nat.div_add_mod, Char.ofNat_toNat]
        show (do
          let high ← unhex (upperHex (c.toNat / 16))
          let low ← unhex (upperHex (c.toNat % 16))
          let rest ← pathUnescape (s.flatMap _)
          return Char.ofNat (16 * high + low) :: rest) = some (c :: s)
        rw [unhex_upperHex (by omega), unhex_upperHex (by omega), rest]
        show some (Char.ofNat (16 * (c.toNat / 16) + c.toNat % 16) :: s) = some (c :: s)
        rw [whole]

theorem slash_pathEscape (s : Text) : '/' ∉ pathEscape s := by
  have hex : ∀ n, upperHex n ≠ '/' := by
    intro n
    by_cases small : n < 16
    · have all : ∀ n : Fin 16, upperHex n ≠ '/' := by decide
      exact all ⟨n, small⟩
    · unfold upperHex
      rw [List.getD_eq_default _ _ (by simp; omega)]
      decide
  intro slash
  obtain ⟨c, -, here⟩ := List.mem_flatMap.mp slash
  split at here
  · rename_i plain
    rw [List.mem_singleton] at here
    rw [← here] at plain
    revert plain
    decide
  · simp only [List.mem_cons, List.not_mem_nil, or_false] at here
    rcases here with here | here | here
    · revert here
      decide
    · exact hex _ here.symm
    · exact hex _ here.symm

theorem utf8_bytes (s : String) : ∀ c ∈ utf8 s, c.toNat < 256 := by
  intro c mem
  obtain ⟨b, -, rfl⟩ := List.mem_map.mp mem
  have small := b.toNat_lt
  rw [Char.toNat_ofNat, if_pos (Or.inl (by omega))]
  exact small

/-! ## The routes of one client -/

inductive ClientCall where
  | update
  | delete
  | detach
  | resetTraffic
  deriving DecidableEq

namespace ClientCall

def handler : ClientCall → Handler
  | update => .updateClient
  | delete => .deleteClient
  | detach => .detachClient
  | resetTraffic => .resetClient

def parts (email : Text) : ClientCall → List Text
  | update => ["clients".toList, "update".toList, email]
  | delete => ["clients".toList, "del".toList, email]
  | detach => ["clients".toList, email, "detach".toList]
  | resetTraffic => ["clients".toList, "resetTraffic".toList, email]

end ClientCall

def requestPath (base : Text) (call : ClientCall) (email : Text) : Text :=
  ['/'].intercalate ((prefixParts base ++ call.parts email).map pathEscape)

/-- `r.PathValue(name)`: a later segment overwrites what an earlier one of the same name has set. -/
def pathValue (params : List (Text × Text)) (name : String) : Option Text :=
  (params.reverse.find? (·.1 == name.toList)).map (·.2)

/-- The call reaches its own handler with the email it was made for. -/
def Dispatched (base : Text) (call : ClientCall) (email : Text) : Prop :=
  ∃ params, serveHTTP (routes base) "POST" (requestPath base call email) = some (call.handler, params) ∧
    pathValue params "email" = some email

/-- A part of the base path that the router reads as a number. -/
def numbered (part : Text) : Bool := part.head? == some '{' && trimBraces part == "id".toList

/-- The calls whose path is that of a route before theirs. -/
def Shadowed (call : ClientCall) (email : Text) : Prop :=
  (call = .detach ∧ (email = "update".toList ∨ email = "del".toList)) ∨ (call = .resetTraffic ∧ email = "detach".toList)

theorem split_requestPath (base : Text) (call : ClientCall) (email : Text) :
    split (requestPath base call email) = (prefixParts base ++ call.parts email).map pathEscape := by
  unfold split requestPath
  refine splitOn_intercalate ?_ ?_
  · cases call <;> simp [ClientCall.parts]
  · intro segment mem
    obtain ⟨part, -, rfl⟩ := List.mem_map.mp mem
    exact slash_pathEscape part

/-! ## What is served -/

theorem matchPart_literal {part segment value : Text} (plain : part.head? ≠ some '{')
    (unescaped : pathUnescape segment = some value) :
    matchPart part segment = if part = value then some [] else none := by
  simp only [matchPart, unescaped, bind, Option.bind_some, plain, ↓reduceIte]
  by_cases same : part = value <;> simp [same]

theorem matchPart_email {segment value : Text} (unescaped : pathUnescape segment = some value) :
    matchPart "{email}".toList segment = some [("email".toList, value)] := by
  have name : trimBraces "{email}".toList = "email".toList := by decide +kernel
  simp only [matchPart, unescaped, name]
  rfl

theorem tails_clients : tails.filter (fun route => route.method == "POST" && route.parts.length == 3 &&
      route.parts.headD [] == "clients".toList) =
    [⟨"POST", ["clients".toList, "update".toList, "{email}".toList], .updateClient⟩,
      ⟨"POST", ["clients".toList, "del".toList, "{email}".toList], .deleteClient⟩, detachRoute, resetRoute] := by
  decide +kernel

theorem tails_heads : ∀ route ∈ tails, (route.parts.headD []).head? ≠ some '{' := by
  decide +kernel

theorem findSome?_filter_of {α β : Type*} {f : α → Option β} {p : α → Bool} {l : List α}
    (outside : ∀ x ∈ l, p x = false → f x = none) : l.findSome? f = (l.filter p).findSome? f := by
  induction l with
  | nil => rfl
  | cons x l ih =>
      have rest := ih fun y mem => outside y (List.mem_cons_of_mem _ mem)
      cases inside : p x with
      | true => rw [List.filter_cons_of_pos inside, List.findSome?_cons, List.findSome?_cons, rest]
      | false =>
          rw [List.filter_cons_of_neg (by simp [inside]), List.findSome?_cons,
            outside x List.mem_cons_self inside]
          exact rest

section
variable {c a b first second : Text} (clients : pathUnescape c = some "clients".toList)
  (left : pathUnescape a = some first) (right : pathUnescape b = some second)

theorem matchPart_clients (clients : pathUnescape c = some "clients".toList) :
    matchPart "clients".toList c = some [] := by
  rw [matchPart_literal (by decide) clients, if_pos rfl]

include clients left right

theorem matchRoute_before {word : Text} (plain : word.head? ≠ some '{') (h : Handler) :
    matchRoute "POST" [c, a, b] ⟨"POST", ["clients".toList, word, "{email}".toList], h⟩ =
      if word = first then some (h, [("email".toList, second)]) else none := by
  unfold matchRoute
  rw [if_neg (not_not_intro rfl), matchParts, matchParts, matchParts, matchPart_clients clients,
    matchPart_literal plain left, matchPart_email right]
  by_cases same : word = first
  · rw [if_pos same, if_pos same]
    rfl
  · rw [if_neg same, if_neg same]
    rfl

theorem matchRoute_behind {word : Text} (plain : word.head? ≠ some '{') (h : Handler) :
    matchRoute "POST" [c, a, b] ⟨"POST", ["clients".toList, "{email}".toList, word], h⟩ =
      if word = second then some (h, [("email".toList, first)]) else none := by
  unfold matchRoute
  rw [if_neg (not_not_intro rfl), matchParts, matchParts, matchParts, matchPart_clients clients,
    matchPart_email left, matchPart_literal plain right]
  by_cases same : word = second
  · rw [if_pos same, if_pos same]
    rfl
  · rw [if_neg same, if_neg same]
    rfl

omit left right in
theorem matchRoute_outside {route : NodeRoute} (mem : route ∈ tails)
    (other : (route.method == "POST" && route.parts.length == 3 && route.parts.headD [] == "clients".toList) = false) :
    matchRoute "POST" [c, a, b] route = none := by
  rw [← Option.not_isSome_iff_eq_none]
  intro found
  obtain ⟨⟨h, params⟩, matched⟩ := Option.isSome_iff_exists.mp found
  obtain ⟨method, -, parts⟩ := matchRoute_some matched
  have three := matchParts_length parts
  obtain ⟨part, rest, shape⟩ := List.exists_cons_of_length_eq_add_one three
  have plain := tails_heads route mem
  rw [shape, List.headD_cons] at plain
  have named : part = "clients".toList := by
    by_contra differs
    rw [shape, matchParts, matchPart_literal plain clients, if_neg differs] at parts
    cases parts
  have inside : (route.method == "POST" && route.parts.length == 3 && route.parts.headD [] == "clients".toList) = true := by
    rw [method, three, shape, List.headD_cons, named]
    rfl
  rw [inside] at other
  cases other

theorem serve_client : tails.findSome? (matchRoute "POST" [c, a, b]) =
    if "update".toList = first then some (.updateClient, [("email".toList, second)])
    else if "del".toList = first then some (.deleteClient, [("email".toList, second)])
    else if "detach".toList = second then some (.detachClient, [("email".toList, first)])
    else if "resetTraffic".toList = first then some (.resetClient, [("email".toList, second)])
    else none := by
  rw [findSome?_filter_of fun route mem other => matchRoute_outside clients mem other, tails_clients]
  simp only [List.findSome?_cons, List.findSome?_nil, detachRoute, resetRoute]
  rw [matchRoute_before clients left right (by decide), matchRoute_before clients left right (by decide),
    matchRoute_behind clients left right (by decide), matchRoute_before clients left right (by decide)]
  by_cases update : "update".toList = first
  · rw [if_pos update, if_pos update]
  · rw [if_neg update, if_neg update]
    by_cases del : "del".toList = first
    · rw [if_pos del, if_pos del]
    · rw [if_neg del, if_neg del]
      by_cases detach : "detach".toList = second
      · rw [if_pos detach, if_pos detach]
      · rw [if_neg detach, if_neg detach]
        by_cases reset : "resetTraffic".toList = first
        · rw [if_pos reset]
        · rw [if_neg reset]

end

theorem matchPart_own {part : Text} (bytes : ∀ c ∈ part, c.toNat < 256) :
    (matchPart part (pathEscape part)).isSome = !numbered part := by
  unfold matchPart numbered
  rw [pathUnescape_pathEscape bytes]
  by_cases wild : part.head? = some '{'
  · obtain ⟨rest, rfl⟩ := List.head?_eq_some_iff.mp wild
    have unread : atoi ('{' :: rest) = none := by
      have stuck (s : Text) : s.foldl (fun n c => n.bind fun n =>
          if '0' ≤ c ∧ c ≤ '9' then some (10 * n + (c.toNat - '0'.toNat)) else none) (none : Option Nat) = none := by
        induction s with
        | nil => rfl
        | cons c s ih => exact ih
      have first : digits ('{' :: rest) = none := stuck rest
      simp [atoi, first]
    by_cases id : trimBraces ('{' :: rest) = "id".toList
    · simp [unread, id]
    · rw [Option.bind_eq_bind, Option.bind_some, if_pos wild]
      show (if _ then _ else _ : Option (List (Text × Text))).isSome = _
      rw [if_neg id]
      simpa using id
  · simp [wild]

theorem matchParts_own {parts : List Text} (bytes : ∀ part ∈ parts, ∀ c ∈ part, c.toNat < 256) :
    (matchParts parts (parts.map pathEscape)).isSome = !parts.any numbered := by
  induction parts with
  | nil => rfl
  | cons part parts ih =>
      have own := matchPart_own (bytes part List.mem_cons_self)
      have rest := ih fun p mem => bytes p (List.mem_cons_of_mem _ mem)
      rw [List.map_cons, matchParts, List.any_cons, Bool.not_or, ← own, ← rest]
      cases matchPart part (pathEscape part) with
      | none => rfl
      | some param => cases matchParts parts (parts.map pathEscape) <;> rfl

theorem bytes_prefixParts {base : Text} (bytes : ∀ c ∈ base, c.toNat < 256) :
    ∀ part ∈ prefixParts base, ∀ c ∈ part, c.toNat < 256 := by
  intro part mem c inside
  have joined : ['/'].intercalate (prefixParts base) = base ++ "panel/api".toList := intercalate_splitOn (by simp) _
  have there : c ∈ ['/'].intercalate (prefixParts base) := mem_intercalate mem inside
  rw [joined, List.mem_append] at there
  rcases there with there | there
  · exact bytes c there
  · have all : "panel/api".toList.all (·.toNat < 256) = true := by decide +kernel
    simpa using List.all_eq_true.mp all c there

theorem pathValue_last (own : List (Text × Text)) (value : Text) :
    pathValue (own ++ [("email".toList, value)]) "email" = some value := by
  simp [pathValue]

theorem serve_call (base email : Text) (call : ClientCall) :
    serveHTTP (routes base) "POST" (requestPath base call email) =
      (matchParts (prefixParts base) ((prefixParts base).map pathEscape)).bind fun own =>
        (tails.findSome? (matchRoute "POST" ((call.parts email).map pathEscape))).map fun r => (r.1, own ++ r.2) := by
  rw [serveHTTP, split_requestPath, List.map_append, serve_prefixed _ (List.length_map _).symm]

theorem pathUnescape_word {word : Text} (bytes : word.all (·.toNat < 256) = true) :
    pathUnescape (pathEscape word) = some word :=
  pathUnescape_pathEscape fun c mem => by simpa using List.all_eq_true.mp bytes c mem

section
variable {call : ClientCall} {name : Text} (own : pathUnescape (pathEscape name) = some name)
include own

theorem serve_unshadowed (clear : ¬Shadowed call name) :
    tails.findSome? (matchRoute "POST" ((call.parts name).map pathEscape)) =
      some (call.handler, [("email".toList, name)]) := by
  have clients := @pathUnescape_word "clients".toList (by decide +kernel)
  unfold Shadowed at clear
  cases call with
  | update =>
      show tails.findSome? (matchRoute "POST" [_, _, _]) = _
      rw [serve_client clients (pathUnescape_word (by decide +kernel)) own, if_pos rfl]
      rfl
  | delete =>
      show tails.findSome? (matchRoute "POST" [_, _, _]) = _
      rw [serve_client clients (pathUnescape_word (by decide +kernel)) own, if_neg (by decide), if_pos rfl]
      rfl
  | detach =>
      have first : ¬"update".toList = name := fun same => clear (.inl ⟨rfl, .inl same.symm⟩)
      have second : ¬"del".toList = name := fun same => clear (.inl ⟨rfl, .inr same.symm⟩)
      show tails.findSome? (matchRoute "POST" [_, _, _]) = _
      rw [serve_client clients own (pathUnescape_word (by decide +kernel)), if_neg first, if_neg second, if_pos rfl]
      rfl
  | resetTraffic =>
      have other : ¬"detach".toList = name := fun same => clear (.inr ⟨rfl, same.symm⟩)
      show tails.findSome? (matchRoute "POST" [_, _, _]) = _
      rw [serve_client clients (pathUnescape_word (by decide +kernel)) own, if_neg (by decide), if_neg (by decide),
        if_neg other, if_pos rfl]
      rfl

theorem serve_shadowed (shadowed : Shadowed call name) (params : List (Text × Text)) :
    tails.findSome? (matchRoute "POST" ((call.parts name).map pathEscape)) ≠ some (call.handler, params) := by
  have clients := @pathUnescape_word "clients".toList (by decide +kernel)
  have detach := @pathUnescape_word "detach".toList (by decide +kernel)
  rcases shadowed with ⟨rfl, rfl | rfl⟩ | ⟨rfl, rfl⟩
  · show tails.findSome? (matchRoute "POST" [_, _, _]) ≠ _
    rw [serve_client clients own detach, if_pos rfl]
    simp [ClientCall.handler]
  · show tails.findSome? (matchRoute "POST" [_, _, _]) ≠ _
    rw [serve_client clients own detach, if_neg (by decide), if_pos rfl]
    simp [ClientCall.handler]
  · show tails.findSome? (matchRoute "POST" [_, _, _]) ≠ _
    rw [serve_client clients (pathUnescape_word (by decide +kernel)) own, if_neg (by decide), if_neg (by decide), if_pos rfl]
    simp [ClientCall.handler]

end

/-- A call reaches its handler with its email exactly where no earlier route has the same path, and no part of
the base path is a number to the router. -/
theorem call_dispatched (base email : String) (call : ClientCall) :
    Dispatched (utf8 base) call (utf8 email) ↔
      (∀ part ∈ prefixParts (utf8 base), numbered part = false) ∧ ¬Shadowed call (utf8 email) := by
  have front := matchParts_own (bytes_prefixParts (utf8_bytes base))
  have own := pathUnescape_pathEscape (utf8_bytes email)
  unfold Dispatched
  rw [serve_call]
  cases matched : matchParts (prefixParts (utf8 base)) ((prefixParts (utf8 base)).map pathEscape) with
  | none =>
      rw [matched] at front
      have blocked : (prefixParts (utf8 base)).any numbered = true := by simpa using front.symm
      obtain ⟨part, mem, hit⟩ := List.any_eq_true.mp blocked
      constructor
      · rintro ⟨_, served, _⟩
        cases served
      · rintro ⟨clear, -⟩
        rw [clear part mem] at hit
        cases hit
  | some params =>
      rw [matched] at front
      have clear : ∀ part ∈ prefixParts (utf8 base), numbered part = false := by simpa using front.symm
      rw [Option.bind_some]
      constructor
      · rintro ⟨_, served, _⟩
        refine ⟨clear, fun shadowed => ?_⟩
        obtain ⟨⟨h, rest⟩, found, same⟩ := Option.map_eq_some_iff.mp served
        cases same
        exact serve_shadowed own shadowed rest found
      · rintro ⟨-, unshadowed⟩
        rw [serve_unshadowed own unshadowed]
        exact ⟨_, rfl, pathValue_last params (utf8 email)⟩

/-- Detaching the client `update` updates a client `detach`. -/
theorem call_undispatched : validateClient (plainClient "update") = .ok () ∧
    (plainClient "update").text "email" = "update" ∧
    serveHTTP (routes (utf8 "/")) "POST" (requestPath (utf8 "/") .detach (utf8 "update")) =
      some (.updateClient, [("email".toList, "detach".toList)]) ∧ ¬Dispatched (utf8 "/") .detach (utf8 "update") := by
  have ran : serveHTTP (routes (utf8 "/")) "POST" (requestPath (utf8 "/") .detach (utf8 "update")) =
      some (.updateClient, [("email".toList, "detach".toList)]) := by decide +kernel
  refine ⟨by decide +kernel, by decide +kernel, ran, ?_⟩
  rintro ⟨params, served, _⟩
  rw [ran] at served
  cases served

end ThreeXNode.Leaf
