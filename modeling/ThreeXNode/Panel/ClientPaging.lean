import ThreeXNode.Leaf.Routes
import ThreeXNode.Library.Kleene
import ThreeXNode.Service.Ports

namespace ThreeXNode.Panel.ClientPaging
open ThreeXNode.Library

/-! # The clients page -/

/-! ## Tables; a column without a value is NULL -/

structure ClientRecord where
  id : Nat
  email : String
  subId : Option String
  uuid : Option String
  password : Option String
  auth : Option String
  enable : Option Bool
  totalGB : Option Int
  expiryTime : Option Int
  tgId : Option Int
  reset : Option Int
  resetDay : Option Int
  group : Option String
  comment : Option String
  createdAt : Option Int
  updatedAt : Option Int

structure ClientTraffic where
  email : String
  up : Option Int
  down : Option Int
  lastOnline : Option Int

structure ClientGlobalTraffic where
  email : String
  up : Option Int
  down : Option Int
  updatedAt : Option Int

structure ClientInbound where
  clientId : Nat
  inboundId : Nat

structure Inbound where
  id : Nat
  protocol : Option String

structure Db where
  clients : List ClientRecord
  traffics : List ClientTraffic
  globals : List ClientGlobalTraffic
  links : List ClientInbound
  inbounds : List Inbound

/-- What a request reads beside the database; `toLower` is `strings.ToLower`. -/
structure Env where
  toLower : String → String
  toLower_empty : toLower "" = ""
  onlines : List String
  nowMs : Int
  expireDiffMs : Int
  trafficDiffBytes : Int

def Env.freshSince (env : Env) : Int := env.nowMs - 24 * 60 * 60 * 1000

structure ClientPageParams where
  page : Int := 0
  pageSize : Int := 0
  search : String := ""
  filter : String := ""
  protocol : String := ""
  inbound : String := ""
  sort : String := ""
  order : String := ""
  expiryFrom : Int := 0
  expiryTo : Int := 0
  usageFrom : Int := 0
  usageTo : Int := 0
  autoRenew : String := ""
  hasTgID : String := ""
  hasComment : String := ""
  group : String := ""

/-! ## Texts -/

def trimSpace (s : String) : String := String.ofList (Service.Ports.trimSpace s.toList)

def lower (s : String) : String := s.map Char.toLower

def trim (s : String) : String := String.ofList ((s.toList.dropWhile (· == ' ')).rdropWhile (· == ' '))

def like : List Char → List Char → Bool
  | [], text => text.isEmpty
  | '%' :: pattern, text => text.tails.any (like pattern)
  | '\\' :: c :: pattern, d :: text => c.toLower == d.toLower && like pattern text
  | '_' :: pattern, _ :: text => like pattern text
  | c :: pattern, d :: text => c.toLower == d.toLower && like pattern text
  | _ :: _, [] => false

def escapeLikeLiteral (s : String) : List Char :=
  s.toList.flatMap fun c => if c = '\\' ∨ c = '%' ∨ c = '_' then ['\\', c] else [c]

def parseCSVStrings (env : Env) (raw : String) : List String :=
  if raw = "" then []
  else ((Net.splitOnChar ',' raw.toList).map fun p => env.toLower (trimSpace (String.ofList p))).filter (· ≠ "")

def parseCSVInts (raw : String) : List Int :=
  if raw = "" then []
  else (Net.splitOnChar ',' raw.toList).filterMap fun p =>
    (Leaf.atoi (Service.Ports.trimSpace p)).filter fun n => decide (0 < n)

/-! ## Queries -/

structure Pushed where
  up : Option Int
  down : Option Int

structure Joined where
  client : ClientRecord
  traffic : Option ClientTraffic
  pushed : Option Pushed

structure ClientQuery where
  env : Env
  /-- Whether a master still pushes cross-panel usage. -/
  raised : Bool

def Env.isFresh (env : Env) (g : ClientGlobalTraffic) : Bool := g.updatedAt.any (env.freshSince ≤ ·)

def newClientQuery (env : Env) (db : Db) : ClientQuery := ⟨env, db.globals.any env.isFresh⟩

def leftJoin {α β : Type} (on : α → β → Bool) (a : α) (right : List β) : List (Option β) :=
  match right.filter (on a) with
  | [] => [none]
  | found => found.map some

def pushedTo (env : Env) (db : Db) (email : String) : Option Pushed :=
  match db.globals.filter fun g => g.email = email ∧ env.isFresh g with
  | [] => none
  | rows => some ⟨sqlMax (rows.map (·.up)), sqlMax (rows.map (·.down))⟩

def ClientQuery.from' (q : ClientQuery) (db : Db) : List Joined :=
  db.clients.flatMap fun c =>
    (leftJoin (fun (c : ClientRecord) (t : ClientTraffic) => t.email = c.email) c db.traffics).map fun t =>
      ⟨c, t, if q.raised then pushedTo q.env db c.email else none⟩

/-- `CASE WHEN COALESCE(g, 0) > COALESCE(ct, 0) THEN COALESCE(g, 0) ELSE COALESCE(ct, 0) END` -/
def raise (pushed local' : Option Int) : Int :=
  if pushed.getD 0 > local'.getD 0 then pushed.getD 0 else local'.getD 0

def ClientQuery.usedExpr (q : ClientQuery) (j : Joined) : Int :=
  let up := j.traffic.bind (·.up)
  let down := j.traffic.bind (·.down)
  if q.raised then raise (j.pushed.bind (·.up)) up + raise (j.pushed.bind (·.down)) down
  else up.getD 0 + down.getD 0

def sqlClientEnabled (j : Joined) : Truth := some (j.client.enable.getD false)

/-- A comparison with NULL is NULL. -/
def test (p : Int → Prop) [DecidablePred p] (x : Option Int) : Truth := x.map fun n => decide (p n)

def ClientQuery.depletedExpr (q : ClientQuery) (j : Joined) : Truth :=
  ((test (0 < ·) j.client.totalGB).and (test (· ≤ q.usedExpr j) j.client.totalGB)).or
    ((test (0 < ·) j.client.expiryTime).and (test (· ≤ q.env.nowMs) j.client.expiryTime))

def ClientQuery.nearDepletionExpr (q : ClientQuery) (j : Joined) : Truth :=
  ((test (0 < ·) j.client.expiryTime).and (test (· - q.env.nowMs < q.env.expireDiffMs) j.client.expiryTime)).or
    ((test (0 < ·) j.client.totalGB).and (test (· - q.usedExpr j < q.env.trafficDiffBytes) j.client.totalGB))

def ClientQuery.expiringExpr (q : ClientQuery) (j : Joined) : Truth :=
  ((sqlClientEnabled j).and (q.depletedExpr j).not).and (q.nearDepletionExpr j)

def ClientQuery.activeExpr (q : ClientQuery) (j : Joined) : Truth :=
  ((sqlClientEnabled j).and (q.depletedExpr j).not).and (q.nearDepletionExpr j).not

def ClientQuery.summaryDeactiveExpr (q : ClientQuery) (j : Joined) : Truth :=
  (sqlClientEnabled j).not.and (q.depletedExpr j).not

/-! ## Filters -/

abbrev Condition := Joined → Truth

def clientSearchCond (pattern : List Char) : Condition := fun j =>
  let found := fun (text : Option String) => like pattern (lower (text.getD "")).toList
  let c := j.client
  some (found c.email || found c.subId || found c.comment || found c.uuid || found c.password || found c.auth ||
    (c.tgId.getD 0 != 0 && like pattern (toString (c.tgId.getD 0)).toList))

def protocolCond (db : Db) (protocols : List String) : Condition := fun j =>
  some (db.links.any fun l => l.clientId == j.client.id && db.inbounds.any fun ib =>
    ib.id == l.inboundId && ib.protocol.any fun p => lower p ∈ protocols)

def inboundCond (db : Db) (inboundIds : List Int) : Condition := fun j =>
  some (db.links.any fun l => l.clientId == j.client.id && decide ((l.inboundId : Int) ∈ inboundIds))

/-- One bucket of the filter; a name that is none of them matches every client. -/
def ClientQuery.bucket (q : ClientQuery) (name : String) : Condition := fun j =>
  if name = "active" then (sqlClientEnabled j).and (q.depletedExpr j).not
  else if name = "deactive" then (sqlClientEnabled j).not
  else if name = "depleted" then q.depletedExpr j
  else if name = "expiring" then q.expiringExpr j
  else if name = "online" then (sqlClientEnabled j).and (some (decide (j.client.email ∈ q.env.onlines)))
  else some true

def ClientQuery.bucketCond (q : ClientQuery) (buckets : List String) : Condition := fun j =>
  buckets.foldr (fun name rest => (q.bucket name j).or rest) (some false)

def ClientQuery.applyParams (q : ClientQuery) (db : Db) (params : ClientPageParams) : List Condition :=
  let needle := q.env.toLower (trimSpace params.search)
  let protocols := parseCSVStrings q.env params.protocol
  let inboundIds := parseCSVInts params.inbound
  let buckets := parseCSVStrings q.env params.filter
  let choice := fun s => q.env.toLower (trimSpace s)
  let groups := parseCSVStrings q.env params.group
  (if needle ≠ "" then [clientSearchCond ('%' :: (escapeLikeLiteral needle ++ ['%']))] else []) ++
  (if protocols ≠ [] then [protocolCond db protocols] else []) ++
  (if inboundIds ≠ [] then [inboundCond db inboundIds] else []) ++
  (if buckets ≠ [] then [q.bucketCond buckets] else []) ++
  (if 0 < params.expiryFrom ∨ 0 < params.expiryTo then
    [fun j => test (0 < ·) j.client.expiryTime] ++
    (if 0 < params.expiryFrom then [fun j => test (params.expiryFrom ≤ ·) j.client.expiryTime] else []) ++
    (if 0 < params.expiryTo then [fun j => test (· ≤ params.expiryTo) j.client.expiryTime] else [])
  else []) ++
  (if 0 < params.usageFrom then [fun j => some (decide (params.usageFrom ≤ q.usedExpr j))] else []) ++
  (if 0 < params.usageTo then [fun j => some (decide (q.usedExpr j ≤ params.usageTo))] else []) ++
  (if choice params.autoRenew = "on" then
    [fun j => some (decide (0 < j.client.reset.getD 0 ∨ 0 < j.client.resetDay.getD 0))]
  else if choice params.autoRenew = "off" then
    [fun j => some (decide (j.client.reset.getD 0 ≤ 0 ∧ j.client.resetDay.getD 0 ≤ 0))]
  else []) ++
  (if choice params.hasTgID = "yes" then [fun j => some (decide (j.client.tgId.getD 0 ≠ 0))]
  else if choice params.hasTgID = "no" then [fun j => some (decide (j.client.tgId.getD 0 = 0))]
  else []) ++
  (if choice params.hasComment = "yes" then [fun j => some (decide (trim (j.client.comment.getD "") ≠ ""))]
  else if choice params.hasComment = "no" then [fun j => some (decide (trim (j.client.comment.getD "") = ""))]
  else []) ++
  (if groups ≠ [] then [fun j => some (decide (lower (trim (j.client.group.getD "")) ∈ groups))] else [])

def keeps (conditions : List Condition) (j : Joined) : Bool := conditions.all fun cond => cond j = some true

/-! ## Order -/

/-- A value to sort by: NULL before integers before texts. -/
inductive Key where
  | null
  | int (n : Int)
  | text (s : String)
  deriving DecidableEq

def Key.lt : Key → Key → Prop
  | .null, b => b ≠ .null
  | .int m, .int n => m < n
  | .int _, .text _ => True
  | .text s, .text t => s < t
  | _, _ => False

instance : DecidableRel Key.lt := by
  intro a b
  unfold Key.lt
  split <;> infer_instance

def Key.ofColumn : Option Int → Key
  | none => .null
  | some n => .int n

def sqlNeverSentinel : Int := 4611686018427387903

/-- The expression a request is sorted by, if any, and whether reversing it reverses the order of equal rows. -/
def ClientQuery.sortExpr (q : ClientQuery) (db : Db) (sortKey : String) : Option ((Joined → Key) × Bool) :=
  if sortKey = "enable" then some (fun j => Key.int (if j.client.enable.getD false then 1 else 0), false)
  else if sortKey = "email" then some (fun j => Key.text (lower j.client.email), false)
  else if sortKey = "inboundIds" then
    some (fun j => Key.int (db.links.countP fun l => l.clientId == j.client.id), false)
  else if sortKey = "traffic" then some (fun j => Key.int (q.usedExpr j), false)
  else if sortKey = "remaining" then
    some (fun j => Key.int (match j.client.totalGB with
      | some total => if 0 < total then total - q.usedExpr j else sqlNeverSentinel
      | none => sqlNeverSentinel), false)
  else if sortKey = "expiryTime" then
    some (fun j => Key.int (match j.client.expiryTime with
      | some expiry => if 0 < expiry then expiry else sqlNeverSentinel
      | none => sqlNeverSentinel), false)
  else if sortKey = "createdAt" then some (fun j => Key.ofColumn j.client.createdAt, true)
  else if sortKey = "updatedAt" then some (fun j => Key.ofColumn j.client.updatedAt, true)
  else if sortKey = "lastOnline" then
    some (fun j => Key.int ((j.traffic.bind (·.lastOnline)).getD 0), true)
  else none

def ClientQuery.before (q : ClientQuery) (db : Db) (sortKey order : String) (a b : Joined) : Prop :=
  match q.sortExpr db sortKey with
  | none => a.client.id ≤ b.client.id
  | some (key, tied) =>
      let descend := order = "descend"
      (if descend then (key b).lt (key a) else (key a).lt (key b)) ∨
        key a = key b ∧ if tied ∧ descend then b.client.id ≤ a.client.id else a.client.id ≤ b.client.id

instance (q : ClientQuery) (db : Db) (sortKey order : String) : DecidableRel (q.before db sortKey order) := by
  intro a b
  unfold ClientQuery.before
  split <;> infer_instance

/-! ## Rows -/

structure Shown where
  email : String
  up : Int
  down : Int
  lastOnline : Int
  deriving DecidableEq

structure ClientSlim where
  email : String
  subId : String
  enable : Bool
  totalGB : Int
  expiryTime : Int
  reset : Int
  resetDay : Int
  group : String
  comment : String
  inboundIds : List Nat
  traffic : Option Shown
  createdAt : Int
  updatedAt : Int

def ClientTraffic.shown (t : ClientTraffic) : Shown := ⟨t.email, t.up.getD 0, t.down.getD 0, t.lastOnline.getD 0⟩

def Shown.raisedBy (r : Shown) (g : ClientGlobalTraffic) : Shown :=
  { r with
    up := if g.up.getD 0 > r.up then g.up.getD 0 else r.up
    down := if g.down.getD 0 > r.down then g.down.getD 0 else r.down }

def firstSpellings (env : Env) (rows : List Shown) : List Shown :=
  rows.foldl (fun kept r => if kept.any fun k => env.toLower k.email == env.toLower r.email then kept else kept ++ [r]) []

/-- Rows are asked for in one spelling of each email, and what is found raises the rows of every spelling. -/
def overlayGlobalTraffic (env : Env) (db : Db) (rows : List Shown) : List Shown :=
  if db.globals.any env.isFresh then
    let emails := (firstSpellings env (rows.filter (·.email ≠ ""))).map (·.email)
    let globals := db.globals.filter fun g => g.email ∈ emails ∧ env.isFresh g
    rows.map fun r =>
      if r.email = "" then r
      else (globals.filter fun g => env.toLower g.email = env.toLower r.email).foldl Shown.raisedBy r
  else rows

def toClientSlim (c : ClientRecord) (inboundIds : List Nat) (traffic : Option Shown) : ClientSlim where
  email := c.email
  subId := c.subId.getD ""
  enable := c.enable.getD false
  totalGB := c.totalGB.getD 0
  expiryTime := c.expiryTime.getD 0
  reset := c.reset.getD 0
  resetDay := c.resetDay.getD 0
  group := c.group.getD ""
  comment := c.comment.getD ""
  inboundIds := inboundIds
  traffic := traffic
  createdAt := c.createdAt.getD 0
  updatedAt := c.updatedAt.getD 0

def ClientQuery.orderedRows (q : ClientQuery) (db : Db) (params : ClientPageParams) : List Joined :=
  ((q.from' db).filter (keeps (q.applyParams db params))).insertionSort (q.before db params.sort params.order)

/-- The rows of one page, which are looked up again by their ids. -/
def ClientQuery.pageRows (q : ClientQuery) (db : Db) (params : ClientPageParams) (offset : Int) (limit : Nat) :
    List ClientSlim :=
  let ids := (pageOf offset.toNat limit (q.orderedRows db params)).map (·.client.id)
  let records := db.clients.filter (·.id ∈ ids)
  let emails := (records.map (·.email)).filter (· ≠ "")
  let stats := overlayGlobalTraffic q.env db ((db.traffics.filter (·.email ∈ emails)).map ClientTraffic.shown)
  ids.filterMap fun id => (records.find? (·.id = id)).map fun rec =>
    toClientSlim rec (((db.links.filter (·.clientId = id)).map (·.inboundId)).insertionSort (· ≤ ·))
      (stats.find? (·.email = rec.email))

/-! ## Counts -/

structure ClientsSummary where
  total : Nat
  active : Nat
  depletedCount : Nat
  expiringCount : Nat
  deactiveCount : Nat
  onlineCount : Nat
  deriving DecidableEq

def countWhere (rows : List Joined) (cond : Condition) : Nat := rows.countP fun j => cond j = some true

def ClientQuery.summary (q : ClientQuery) (db : Db) (total : Nat) : ClientsSummary where
  total := total
  active := countWhere (q.from' db) q.activeExpr
  depletedCount := countWhere (q.from' db) q.depletedExpr
  expiringCount := countWhere (q.from' db) q.expiringExpr
  deactiveCount := countWhere (q.from' db) q.summaryDeactiveExpr
  onlineCount := db.clients.countP fun c => c.enable.getD false && decide (c.email ∈ q.env.onlines)

structure ClientPageResponse where
  items : List ClientSlim
  total : Nat
  filtered : Nat
  page : Int
  pageSize : Int
  summary : ClientsSummary

def clientPageDefaultSize : Int := 25

def clientPageMaxSize : Int := 200

def clampSize (pageSize : Int) : Int :=
  if pageSize ≤ 0 then clientPageDefaultSize else if clientPageMaxSize < pageSize then clientPageMaxSize else pageSize

def listPaged (env : Env) (db : Db) (params : ClientPageParams) : ClientPageResponse :=
  let pageSize := clampSize params.pageSize
  let page := if params.page ≤ 0 then 1 else params.page
  let q := newClientQuery env db
  let total := db.clients.length
  let filtered :=
    if q.applyParams db params ≠ [] then ((q.from' db).filter (keeps (q.applyParams db params))).length else total
  let offset := wrap64 (wrap64 (page - 1) * pageSize)
  { items := if offset < filtered then q.pageRows db params offset pageSize.toNat else []
    total := total
    filtered := filtered
    page := page
    pageSize := pageSize
    summary := q.summary db total }

end ThreeXNode.Panel.ClientPaging
