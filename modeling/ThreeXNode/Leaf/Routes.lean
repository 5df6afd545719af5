import ThreeXNode.Library.Int64
import ThreeXNode.Library.Regex
import ThreeXNode.Library.Split

namespace ThreeXNode.Leaf
open Library

/-- Text as the router sees it, one symbol for each byte. -/
abbrev Text := List Char

/-! ## What an AN-managed node lets through -/

def segment : Regex Char := .plus (· ≠ '/')

def literal (s : String) : Regex Char := .word s.toList

def anManagedRoutes : List (String × Regex Char) :=
  [("GET", .either (literal "server/status") (.either (literal "server/networkTopology") (literal "inbounds/list"))),
    ("POST", literal "inbounds/add"),
    ("POST", .next (literal "clients/") (.either (literal "add") (.either (.next (literal "update/") segment)
      (.either (.next segment (literal "/detach")) (.next (literal "del/") segment)))))]

def allowedANManagedRoute (method : String) (path : Text) : Bool :=
  anManagedRoutes.any fun route => route.1 == method && route.2.accepts path

/-! ## The handlers -/

inductive Handler where
  | status
  | networkTopology
  | inbounds
  | emptyList
  | clientIps
  | clientIpsByGuid
  | online (kind : String)
  | certFiles
  | restart
  | updatePanel
  | addInbound
  | updateInbound
  | deleteInbound
  | subSortIndex
  | addClient
  | updateClient
  | deleteClient
  | detachClient
  | resetClient
  | resetClients
  | resetInbounds
  | resetInbound
  | pushTraffics
  deriving DecidableEq

def getRoute (path : String) (handler : Handler) : String × String × Handler := ("GET", path, handler)

def postRoute (path : String) (handler : Handler) : String × String × Handler := ("POST", path, handler)

def added : List (String × String × Handler) :=
  [getRoute "server/status" .status,
    getRoute "server/networkTopology" .networkTopology,
    getRoute "inbounds/list" .inbounds] ++
  ["hosts/list", "server/descendants", "server/clientIps"].map (getRoute · .emptyList) ++
  [postRoute "server/clientIps" .clientIps,
    postRoute "clients/clientIpsByGuid" .clientIpsByGuid] ++
  ["onlines", "onlinesByGuid", "activeInbounds", "lastOnline"].map
    (fun kind => postRoute ("clients/" ++ kind) (.online kind)) ++
  [getRoute "server/getWebCertFiles" .certFiles,
    postRoute "server/restartXrayService" .restart,
    postRoute "server/updatePanel" .updatePanel,
    postRoute "inbounds/add" .addInbound,
    postRoute "inbounds/update/{id}" .updateInbound,
    postRoute "inbounds/del/{id}" .deleteInbound,
    postRoute "inbounds/{id}/subSortIndex" .subSortIndex,
    postRoute "clients/add" .addClient,
    postRoute "clients/update/{email}" .updateClient,
    postRoute "clients/del/{email}" .deleteClient,
    postRoute "clients/{email}/detach" .detachClient,
    postRoute "clients/resetTraffic/{email}" .resetClient,
    postRoute "clients/bulkResetTraffic" .resetClients,
    postRoute "inbounds/resetAllTraffics" .resetInbounds,
    postRoute "inbounds/{id}/resetTraffic" .resetInbound,
    postRoute "inbounds/pushClientTraffics" .pushTraffics]

structure NodeRoute where
  method : String
  parts : List Text
  handler : Handler
  deriving DecidableEq

def split (path : Text) : List Text := splitOn ['/'] path

def prefixOf (base : Text) : Text := base ++ "panel/api/".toList

def routes (base : Text) : List NodeRoute :=
  added.map fun (method, path, handler) => ⟨method, split (prefixOf base ++ path.toList), handler⟩

/-! ## `routeMux.ServeHTTP` -/

def unhex (c : Char) : Option Nat :=
  if '0' ≤ c ∧ c ≤ '9' then some (c.toNat - '0'.toNat)
  else if 'a' ≤ c ∧ c ≤ 'f' then some (c.toNat - 'a'.toNat + 10)
  else if 'A' ≤ c ∧ c ≤ 'F' then some (c.toNat - 'A'.toNat + 10)
  else none

def pathUnescape : Text → Option Text
  | [] => some []
  | '%' :: a :: b :: rest => do
      let high ← unhex a
      let low ← unhex b
      let rest ← pathUnescape rest
      return .ofNat (16 * high + low) :: rest
  | '%' :: _ => none
  | c :: rest => (pathUnescape rest).map (c :: ·)

def digits (s : Text) : Option Nat :=
  s.foldl (fun n c => n.bind fun n => if '0' ≤ c ∧ c ≤ '9' then some (10 * n + (c.toNat - '0'.toNat)) else none) (some 0)

def atoi (s : Text) : Option Int := do
  let (negative, body) := match s with
    | '-' :: body => (true, body)
    | '+' :: body => (false, body)
    | body => (false, body)
  if body = [] then none
  else
    let n : Int ← digits body
    let n := if negative then -n else n
    if InInt64 n then return n else none

def trimBraces (part : Text) : Text :=
  let brace := fun c => c == '{' || c == '}'
  ((part.dropWhile brace).reverse.dropWhile brace).reverse

/-- The parameters one part of a route takes from a segment of the path, where it takes the segment at all. -/
def matchPart (part segment : Text) : Option (List (Text × Text)) := do
  let value ← pathUnescape segment
  if part.head? = some '{' then
    let name := trimBraces part
    if name = "id".toList then
      let id ← atoi value
      if id < 1 then none else return [(name, value)]
    else return [(name, value)]
  else if part ≠ value then none
  else return []

def matchParts : List Text → List Text → Option (List (Text × Text))
  | [], [] => some []
  | part :: parts, segment :: segments => do
      let param ← matchPart part segment
      let params ← matchParts parts segments
      return param ++ params
  | _, _ => none

def matchRoute (method : String) (segments : List Text) (route : NodeRoute) : Option (Handler × List (Text × Text)) :=
  if route.method ≠ method then none else (matchParts route.parts segments).map (route.handler, ·)

def serveHTTP (routes : List NodeRoute) (method : String) (path : Text) : Option (Handler × List (Text × Text)) :=
  routes.findSome? (matchRoute method (split path))

def managedAllows (base : Text) (method : String) (path : Text) : Bool :=
  match path.dropPrefix? (prefixOf base) with
  | some rest => allowedANManagedRoute method rest
  | none => false

/-- What runs for a request with the right token: `none` where it is refused or not found. -/
def handle (base : Text) (managed : Bool) (method : String) (path : Text) : Option (Handler × List (Text × Text)) :=
  if managed && !managedAllows base method path then none else serveHTTP (routes base) method path

/-! ## The part of a path after the prefix decides -/

def tails : List NodeRoute := added.map fun (method, path, handler) => ⟨method, split path.toList, handler⟩

def prefixParts (base : Text) : List Text := split (base ++ "panel/api".toList)

theorem split_base (base rest : Text) : split (prefixOf base ++ rest) = prefixParts base ++ split rest := by
  have slash : prefixOf base ++ rest = (base ++ "panel/api".toList) ++ '/' :: rest := by
    simp [prefixOf]
  rw [split, slash, splitOn_symbol_append]
  rfl

theorem matchParts_append {front front' back back' : List Text} (same : front.length = front'.length) :
    matchParts (front ++ back) (front' ++ back') =
      (matchParts front front').bind fun params => (matchParts back back').map (params ++ ·) := by
  induction front generalizing front' with
  | nil =>
      obtain rfl : front' = [] := List.length_eq_zero_iff.mp same.symm
      simp [matchParts]
  | cons part front ih =>
      cases front' with
      | nil => cases same
      | cons segment front' =>
          simp only [List.cons_append, matchParts, ih (by simpa using same)]
          cases matchPart part segment with
          | none => rfl
          | some param => cases matchParts front front' <;> cases matchParts back back' <;> simp

theorem matchRoute_prefixed (base : Text) {front : List Text} (same : (prefixParts base).length = front.length)
    (method : String) (back : List Text) (route : String × String × Handler) :
    matchRoute method (front ++ back) ⟨route.1, split (prefixOf base ++ route.2.1.toList), route.2.2⟩ =
      (matchParts (prefixParts base) front).bind fun own =>
        (matchRoute method back ⟨route.1, split route.2.1.toList, route.2.2⟩).map fun r => (r.1, own ++ r.2) := by
  unfold matchRoute
  rw [split_base]
  split
  · cases matchParts (prefixParts base) front <;> rfl
  · rw [matchParts_append same]
    cases matchParts (prefixParts base) front with
    | none => rfl
    | some own => cases matchParts (split route.2.1.toList) back <;> simp

theorem serve_prefixed (base : Text) {front : List Text} (same : (prefixParts base).length = front.length)
    (method : String) (back : List Text) :
    (routes base).findSome? (matchRoute method (front ++ back)) =
      (matchParts (prefixParts base) front).bind fun own =>
        (tails.findSome? (matchRoute method back)).map fun r => (r.1, own ++ r.2) := by
  unfold routes tails
  rw [List.findSome?_map, List.findSome?_map]
  simp only [Function.comp_def, matchRoute_prefixed base same]
  cases matchParts (prefixParts base) front with
  | none => exact List.findSome?_eq_none_iff.mpr fun _ _ => rfl
  | some own =>
      rw [Option.bind_some, List.map_findSome?]
      rfl

theorem serve_tails {base rest : Text} {method : String} {h : Handler} {params : List (Text × Text)}
    (served : serveHTTP (routes base) method (prefixOf base ++ rest) = some (h, params)) :
    ∃ params', serveHTTP tails method rest = some (h, params') := by
  rw [serveHTTP, split_base, serve_prefixed base rfl] at served
  obtain ⟨own, -, served⟩ := Option.bind_eq_some_iff.mp served
  obtain ⟨⟨h', params'⟩, found, same⟩ := Option.map_eq_some_iff.mp served
  cases same
  exact ⟨params', found⟩

/-! ## What an AN-managed node runs -/

def managedHandlers : List Handler :=
  [.status, .networkTopology, .inbounds, .addInbound, .addClient, .updateClient, .detachClient, .deleteClient]

def detachRoute : NodeRoute := ⟨"POST", ["clients".toList, "{email}".toList, "detach".toList], .detachClient⟩

def resetRoute : NodeRoute := ⟨"POST", ["clients".toList, "resetTraffic".toList, "{email}".toList], .resetClient⟩

theorem mem_segment {x : Text} : x ∈ segment.language ↔ x ≠ [] ∧ '/' ∉ x := by
  rw [segment, Regex.mem_plus]
  refine and_congr_right fun _ => ⟨fun all slash => by simpa using all _ slash, fun absent a mem => ?_⟩
  have differs : a ≠ '/' := fun same => absent (same ▸ mem)
  simpa using differs

theorem mem_literal {s : String} {x : Text} : x ∈ (literal s).language ↔ x = s.toList := Regex.mem_word

theorem allowed_cases {method : String} {path : Text} (allowed : allowedANManagedRoute method path = true) :
    (method = "GET" ∧ (path = "server/status".toList ∨ path = "server/networkTopology".toList ∨
        path = "inbounds/list".toList)) ∨
      (method = "POST" ∧ (path = "inbounds/add".toList ∨ path = "clients/add".toList ∨ ∃ x : Text, '/' ∉ x ∧
        (path = "clients/update/".toList ++ x ∨ path = "clients/".toList ++ (x ++ "/detach".toList) ∨
          path = "clients/del/".toList ++ x))) := by
  simp only [allowedANManagedRoute, anManagedRoutes, List.any_cons, List.any_nil, Bool.or_false, Bool.or_eq_true,
    Bool.and_eq_true, beq_iff_eq, Regex.accepts_iff, Regex.mem_either, Regex.mem_next, mem_literal, mem_segment] at allowed
  rcases allowed with ⟨rfl, fixed⟩ | ⟨rfl, fixed⟩ | ⟨rfl, _, rfl, tail, choice, rfl⟩
  · exact .inl ⟨rfl, fixed⟩
  · exact .inr ⟨rfl, .inl fixed⟩
  · rcases choice with rfl | ⟨_, rfl, x, ⟨_, whole⟩, rfl⟩ | ⟨x, ⟨_, whole⟩, _, rfl, rfl⟩ | ⟨_, rfl, x, ⟨_, whole⟩, rfl⟩
    · exact .inr ⟨rfl, .inr (.inl rfl)⟩
    · exact .inr ⟨rfl, .inr (.inr ⟨x, whole, .inl rfl⟩)⟩
    · exact .inr ⟨rfl, .inr (.inr ⟨x, whole, .inr (.inl rfl)⟩)⟩
    · exact .inr ⟨rfl, .inr (.inr ⟨x, whole, .inr (.inr rfl)⟩)⟩

theorem matchParts_length {parts segments : List Text} {params : List (Text × Text)}
    (matched : matchParts parts segments = some params) : parts.length = segments.length := by
  induction parts generalizing segments params with
  | nil =>
      cases segments with
      | nil => rfl
      | cons _ _ => cases matched
  | cons part parts ih =>
      cases segments with
      | nil => cases matched
      | cons segment segments =>
          simp only [matchParts, bind, Option.bind_eq_some_iff] at matched
          obtain ⟨_, _, rest, matched, _⟩ := matched
          simp [ih matched]

theorem matchRoute_some {method : String} {segments : List Text} {route : NodeRoute} {h : Handler}
    {params : List (Text × Text)} (matched : matchRoute method segments route = some (h, params)) :
    route.method = method ∧ route.handler = h ∧ matchParts route.parts segments = some params := by
  unfold matchRoute at matched
  split at matched
  · cases matched
  · rename_i same
    obtain ⟨params', found, same'⟩ := Option.map_eq_some_iff.mp matched
    cases same'
    exact ⟨not_not.mp same, rfl, found⟩

theorem clients_routes : ∀ route ∈ tails, route.method = "POST" → route.parts.length = 3 →
    (matchPart (route.parts.headD []) "clients".toList).isSome = true →
      route.handler ∈ managedHandlers ∨ route = resetRoute := by
  decide +kernel

theorem detach_first {front back : List NodeRoute} (cut : tails = front ++ resetRoute :: back) : detachRoute ∈ front := by
  have before : detachRoute ∈ tails.takeWhile (· ≠ resetRoute) := by decide +kernel
  rw [cut, List.takeWhile_append] at before
  split at before
  · simpa using before
  · exact (List.takeWhile_sublist _).subset before

theorem matchPart_unescapes {part segment : Text} {param : List (Text × Text)}
    (matched : matchPart part segment = some param) : (pathUnescape segment).isSome = true := by
  unfold matchPart at matched
  cases value : pathUnescape segment with
  | none =>
      rw [value] at matched
      cases matched
  | some value => rfl

theorem matchRoute_detach {a : Text} (unescapes : (pathUnescape a).isSome = true) :
    (matchRoute "POST" ["clients".toList, a, "detach".toList] detachRoute).isSome = true := by
  obtain ⟨value, unescaped⟩ := Option.isSome_iff_exists.mp unescapes
  have clients : matchPart "clients".toList "clients".toList = some [] := by decide +kernel
  have detach : matchPart "detach".toList "detach".toList = some [] := by decide +kernel
  have email : matchPart "{email}".toList a = some [("email".toList, value)] := by
    have name : trimBraces "{email}".toList = "email".toList := by decide +kernel
    simp only [matchPart, unescaped, name]
    rfl
  simp only [matchRoute, detachRoute, ne_eq, not_true_eq_false, ↓reduceIte, matchParts, clients, email, detach]
  rfl

theorem serve_clients {path a b : Text} {h : Handler} {params : List (Text × Text)}
    (segments : split path = ["clients".toList, a, b])
    (kind : a = "update".toList ∨ a = "del".toList ∨ b = "detach".toList)
    (served : serveHTTP tails "POST" path = some (h, params)) : h ∈ managedHandlers := by
  rw [serveHTTP, segments, List.findSome?_eq_some_iff] at served
  obtain ⟨front, route, back, cut, matched, passed⟩ := served
  obtain ⟨method, rfl, parts⟩ := matchRoute_some matched
  have three := matchParts_length parts
  have mem : route ∈ tails := by simp [cut]
  have first : (matchPart (route.parts.headD []) "clients".toList).isSome = true := by
    obtain ⟨part, rest, shape⟩ := List.exists_cons_of_length_eq_add_one three
    rw [shape, matchParts] at parts
    simp only [bind, Option.bind_eq_some_iff] at parts
    obtain ⟨param, here, _⟩ := parts
    rw [shape, List.headD_cons, here]
    rfl
  rcases clients_routes route mem method three first with managed | rfl
  · exact managed
  · -- The segment named the reset, so it unescapes, and the route for `detach` has taken the path already.
    simp only [resetRoute, matchParts, bind, Option.bind_eq_some_iff] at parts
    obtain ⟨_, _, _, ⟨param, named, _⟩, _⟩ := parts
    have update : matchPart "resetTraffic".toList "update".toList = none := by decide +kernel
    have del : matchPart "resetTraffic".toList "del".toList = none := by decide +kernel
    rcases kind with rfl | rfl | rfl
    · rw [update] at named
      cases named
    · rw [del] at named
      cases named
    · have free := passed detachRoute (detach_first cut)
      have taken := matchRoute_detach (matchPart_unescapes named)
      rw [free] at taken
      cases taken

theorem split_literal {a : Text} (tail : Text) (plain : '/' ∉ a) : split (a ++ '/' :: tail) = a :: split tail := by
  rw [split, splitOn_symbol_append, splitOn_symbol_single plain]
  rfl

theorem managedAllows_rest {base path : Text} {method : String} (allows : managedAllows base method path = true) :
    ∃ rest, path = prefixOf base ++ rest ∧ allowedANManagedRoute method rest = true := by
  unfold managedAllows at allows
  cases found : path.dropPrefix? (prefixOf base) with
  | none => simp [found] at allows
  | some rest =>
      rw [found] at allows
      obtain ⟨front, whole, same⟩ := List.dropPrefix?_eq_some_iff.mp found
      exact ⟨rest, by rw [whole, beq_iff_eq.mp same], allows⟩

theorem serve_allowed {method : String} {path : Text} {h : Handler} {params : List (Text × Text)}
    (allowed : allowedANManagedRoute method path = true) (served : serveHTTP tails method path = some (h, params)) :
    h ∈ managedHandlers := by
  have fixed {method path : String} (fine : ∀ r ∈ serveHTTP tails method path.toList, r.1 ∈ managedHandlers)
      (served : serveHTTP tails method path.toList = some (h, params)) : h ∈ managedHandlers := fine _ served
  rcases allowed_cases allowed with ⟨rfl, rfl | rfl | rfl⟩ | ⟨rfl, rfl | rfl | ⟨x, whole, shape⟩⟩
  · exact fixed (by decide +kernel) served
  · exact fixed (by decide +kernel) served
  · exact fixed (by decide +kernel) served
  · exact fixed (by decide +kernel) served
  · exact fixed (by decide +kernel) served
  · have single : split x = [x] := splitOn_symbol_single whole
    rcases shape with rfl | rfl | rfl
    · refine serve_clients (a := "update".toList) (b := x) ?_ (.inl rfl) served
      rw [show "clients/update/".toList ++ x = "clients".toList ++ '/' :: ("update".toList ++ '/' :: x) from rfl,
        split_literal _ (by decide), split_literal _ (by decide), single]
    · refine serve_clients (a := x) (b := "detach".toList) ?_ (.inr (.inr rfl)) served
      rw [show "clients/".toList ++ (x ++ "/detach".toList) = "clients".toList ++ '/' :: (x ++ '/' :: "detach".toList) from rfl,
        split_literal _ (by decide), split_literal _ whole, split, splitOn_symbol_single (by decide)]
    · refine serve_clients (a := "del".toList) (b := x) ?_ (.inr (.inl rfl)) served
      rw [show "clients/del/".toList ++ x = "clients".toList ++ '/' :: ("del".toList ++ '/' :: x) from rfl,
        split_literal _ (by decide), split_literal _ (by decide), single]

/-- No spelling of a path reaches another handler of an AN-managed node. -/
theorem managed_handler {base path : Text} {method : String} {h : Handler} {params : List (Text × Text)}
    (ran : handle base true method path = some (h, params)) : h ∈ managedHandlers := by
  unfold handle at ran
  split at ran
  · cases ran
  · rename_i refused
    obtain ⟨rest, rfl, allowed⟩ := managedAllows_rest (by simpa using refused)
    obtain ⟨params', served⟩ := serve_tails ran
    exact serve_allowed allowed served

/-- An escaped letter in a fixed part of a path still means that part, here an update of the client `detach`. -/
theorem managed_handler_escaped : Handler.updateClient ∈ managedHandlers :=
  have ran : handle "/".toList true "POST" "/panel/api/clients/%75pdate/detach".toList =
      some (.updateClient, [("email".toList, "detach".toList)]) := by decide +kernel
  managed_handler ran

end ThreeXNode.Leaf
