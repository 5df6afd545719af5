import ThreeXNode.Library.Int64

namespace ThreeXNode.Library.Sql

/-! ## Expressions of an `UPDATE` on integers and truth values -/

inductive Dialect where
  | sqlite
  | postgres
  deriving DecidableEq

inductive Value where
  | int (n : Int)
  | bool (b : Bool)
  deriving DecidableEq

/-- One of the dialects has truth values of its own, the other writes them as 0 and 1. -/
def truth (d : Dialect) (b : Bool) : Value :=
  match d with
  | .sqlite => .int (if b then 1 else 0)
  | .postgres => .bool b

def Value.holds (d : Dialect) : Value → Option Bool
  | .int n => if d = .sqlite then some (n ≠ 0) else none
  | .bool b => if d = .postgres then some b else none

def Value.asInt : Value → Option Int
  | .int n => some n
  | .bool _ => none

inductive Comparison where
  | lt
  | le
  | gt
  | ne

def Comparison.decide : Comparison → Int → Int → Bool
  | .lt, a, b => a < b
  | .le, a, b => a ≤ b
  | .gt, a, b => a > b
  | .ne, a, b => a ≠ b

/-- `ask` is a placeholder as written; `param` is one that has got its place among the arguments. -/
inductive Expr where
  | col (name : String)
  | ask
  | param (i : Nat)
  | lit (v : Value)
  | castBigint (e : Expr)
  | castBoolean (e : Expr)
  | add (a b : Expr)
  | least (a b : Expr)
  | greatest (a b : Expr)
  | compare (op : Comparison) (a b : Expr)
  | and (a b : Expr)
  | or (a b : Expr)
  | case (cond yes no : Expr)

abbrev Row := List (String × Value)

namespace Expr

/-- Placeholders take the arguments in the order in which they are written, whatever is evaluated. -/
def number : Expr → Nat → Expr × Nat
  | ask, n => (param n, n + 1)
  | castBigint e, n => ((e.number n).1.castBigint, (e.number n).2)
  | castBoolean e, n => ((e.number n).1.castBoolean, (e.number n).2)
  | add a b, n => (add (a.number n).1 (b.number (a.number n).2).1, (b.number (a.number n).2).2)
  | least a b, n => (least (a.number n).1 (b.number (a.number n).2).1, (b.number (a.number n).2).2)
  | greatest a b, n => (greatest (a.number n).1 (b.number (a.number n).2).1, (b.number (a.number n).2).2)
  | compare op a b, n => (compare op (a.number n).1 (b.number (a.number n).2).1, (b.number (a.number n).2).2)
  | and a b, n => (and (a.number n).1 (b.number (a.number n).2).1, (b.number (a.number n).2).2)
  | or a b, n => (or (a.number n).1 (b.number (a.number n).2).1, (b.number (a.number n).2).2)
  | case c a b, n =>
      let c := c.number n
      let a := a.number c.2
      let b := b.number a.2
      (case c.1 a.1 b.1, b.2)
  | e, n => (e, n)

variable (d : Dialect) (row : Row) (args : List Value)

/-- The value over the old row; a sum beyond 64 bits is none that an integer column can hold. -/
def eval : Expr → Option Value
  | col name => row.lookup name
  | ask => none
  | param i => args[i]?
  | lit v => some v
  | castBigint e => do
      let n ← (← e.eval).asInt
      return .int n
  | castBoolean e => do
      let b ← (← e.eval).holds d
      return truth d b
  | add a b => do
      let x ← (← a.eval).asInt
      let y ← (← b.eval).asInt
      if InInt64 (x + y) then return .int (x + y) else none
  | least a b => do
      let x ← (← a.eval).asInt
      let y ← (← b.eval).asInt
      return .int (min x y)
  | greatest a b => do
      let x ← (← a.eval).asInt
      let y ← (← b.eval).asInt
      return .int (max x y)
  | compare op a b => do
      let x ← (← a.eval).asInt
      let y ← (← b.eval).asInt
      return truth d (op.decide x y)
  | and a b => do
      let x ← (← a.eval).holds d
      let y ← (← b.eval).holds d
      return truth d (x && y)
  | or a b => do
      let x ← (← a.eval).holds d
      let y ← (← b.eval).holds d
      return truth d (x || y)
  | case c a b => do
      if ← (← c.eval).holds d then a.eval else b.eval

end Expr

def number : List (String × Expr) → Nat → List (String × Expr)
  | [], _ => []
  | (name, e) :: rest, n => (name, (e.number n).1) :: number rest (e.number n).2

/-- `UPDATE … SET`: every expression is evaluated over the old row, and then the columns change together. -/
def update (d : Dialect) (set : List (String × Expr)) (args : List Value) (row : Row) : Option Row := do
  let values ← (number set 0).mapM fun (name, e) => (e.eval d row args).map (name, ·)
  return row.map fun (name, v) => (name, (values.lookup name).getD v)

@[simp] theorem holds_truth (d : Dialect) (b : Bool) : (truth d b).holds d = some b := by
  cases d <;> cases b <;> rfl

end ThreeXNode.Library.Sql
