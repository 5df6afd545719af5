import ThreeXNode.Library.Fold
import ThreeXNode.Panel.ClientPages

namespace ThreeXNode.Panel.ClientPaging
open ThreeXNode.Library

/-! # The buckets of the query and of the rows -/

variable {env : Env} {db : Db}

/-! ## Buckets of a row -/

def DepletedAt (env : Env) (total expiry used : Int) : Prop :=
  0 < total ∧ total ≤ used ∨ 0 < expiry ∧ expiry ≤ env.nowMs

def NearAt (env : Env) (total expiry used : Int) : Prop :=
  0 < expiry ∧ expiry - env.nowMs < env.expireDiffMs ∨ 0 < total ∧ total - used < env.trafficDiffBytes

instance (env : Env) (total expiry used : Int) : Decidable (DepletedAt env total expiry used) := by
  unfold DepletedAt
  infer_instance

instance (env : Env) (total expiry used : Int) : Decidable (NearAt env total expiry used) := by
  unfold NearAt
  infer_instance

def usedOf (traffic : Option Shown) : Int := traffic.elim 0 fun r => r.up + r.down

def InBucket (env : Env) (name email : String) (enable : Bool) (total expiry used : Int) : Prop :=
  if name = "active" then enable = true ∧ ¬DepletedAt env total expiry used
  else if name = "deactive" then enable = false
  else if name = "depleted" then DepletedAt env total expiry used
  else if name = "expiring" then enable = true ∧ ¬DepletedAt env total expiry used ∧ NearAt env total expiry used
  else if name = "online" then enable = true ∧ email ∈ env.onlines
  else True

def ClientSlim.inBucket (env : Env) (name : String) (row : ClientSlim) : Prop :=
  InBucket env name row.email row.enable row.totalGB row.expiryTime (usedOf row.traffic)

/-! ## Buckets of the query -/

/-- A missing quota or expiry does not matter where the other one has depleted the client. -/
def Known (env : Env) (c : ClientRecord) (used : Int) : Prop :=
  (c.totalGB = none → ∃ expiry, c.expiryTime = some expiry ∧ 0 < expiry ∧ expiry ≤ env.nowMs) ∧
    (c.expiryTime = none → ∃ total, c.totalGB = some total ∧ 0 < total ∧ total ≤ used)

theorem test_some (p : Int → Prop) [DecidablePred p] (n : Int) : test p (some n) = Truth.is (p n) := rfl

theorem depletedExpr_eq {q : ClientQuery} {j : Joined} (known : Known q.env j.client (q.usedExpr j)) :
    q.depletedExpr j = Truth.is (DepletedAt q.env (j.client.totalGB.getD 0) (j.client.expiryTime.getD 0) (q.usedExpr j)) := by
  unfold ClientQuery.depletedExpr DepletedAt
  cases total : j.client.totalGB with
  | none =>
      obtain ⟨expiry, here, positive, past⟩ := known.1 total
      rw [here]
      simp [test, Truth.and, Truth.or, Truth.is, positive, past]
  | some t =>
      cases expiry : j.client.expiryTime with
      | none =>
          obtain ⟨t', here, positive, used⟩ := known.2 expiry
          obtain rfl : t = t' := Option.some.inj (total.symm.trans here)
          simp [test, Truth.and, Truth.or, Truth.is, positive, used]
      | some x =>
          simp only [test_some, Truth.and_is, Truth.or_is]
          rfl

theorem known_of_depletedExpr {q : ClientQuery} {j : Joined} (value : q.depletedExpr j ≠ none) :
    Known q.env j.client (q.usedExpr j) := by
  unfold ClientQuery.depletedExpr at value
  constructor
  · intro none'
    have expired := Truth.or_none value (by rw [none']; rfl)
    cases expiry : j.client.expiryTime with
    | none =>
        rw [expiry] at expired
        cases expired
    | some x =>
        rw [expiry, test_some, test_some, Truth.and_is, Truth.is_eq_true] at expired
        exact ⟨x, rfl, expired⟩
  · intro none'
    have depleted := Truth.none_or value (by rw [none']; rfl)
    cases total : j.client.totalGB with
    | none =>
        rw [total] at depleted
        cases depleted
    | some t =>
        rw [total, test_some, test_some, Truth.and_is, Truth.is_eq_true] at depleted
        exact ⟨t, rfl, depleted⟩

theorem nearDepletionExpr_eq {q : ClientQuery} {j : Joined} {total expiry : Int} (quota : j.client.totalGB = some total)
    (ends : j.client.expiryTime = some expiry) :
    q.nearDepletionExpr j = Truth.is (NearAt q.env total expiry (q.usedExpr j)) := by
  unfold ClientQuery.nearDepletionExpr NearAt
  rw [quota, ends]
  simp only [test_some, Truth.and_is, Truth.or_is]

theorem not_depleted {q : ClientQuery} {j : Joined} (known : Known q.env j.client (q.usedExpr j))
    (left : ¬DepletedAt q.env (j.client.totalGB.getD 0) (j.client.expiryTime.getD 0) (q.usedExpr j)) :
    ∃ total expiry, j.client.totalGB = some total ∧ j.client.expiryTime = some expiry := by
  cases total : j.client.totalGB with
  | none =>
      obtain ⟨expiry, here, past⟩ := known.1 total
      refine absurd (.inr ?_) left
      rw [here]
      exact past
  | some t =>
      cases expiry : j.client.expiryTime with
      | none =>
          obtain ⟨t', here, used⟩ := known.2 expiry
          refine absurd (.inl ?_) left
          rw [here]
          exact used
      | some x => exact ⟨t, x, rfl, rfl⟩

theorem enabled_eq (j : Joined) : sqlClientEnabled j = Truth.is (j.client.enable.getD false = true) := by
  simp [sqlClientEnabled, Truth.is]

theorem bucket_eq {q : ClientQuery} {j : Joined} (known : Known q.env j.client (q.usedExpr j)) (name : String) :
    q.bucket name j = some true ↔ InBucket q.env name j.client.email (j.client.enable.getD false)
      (j.client.totalGB.getD 0) (j.client.expiryTime.getD 0) (q.usedExpr j) := by
  unfold ClientQuery.bucket InBucket
  split
  · rw [enabled_eq, depletedExpr_eq known, Truth.not_is, Truth.and_is, Truth.is_eq_true]
  split
  · rw [enabled_eq, Truth.not_is, Truth.is_eq_true, Bool.not_eq_true]
  split
  · rw [depletedExpr_eq known, Truth.is_eq_true]
  split
  · unfold ClientQuery.expiringExpr
    rw [enabled_eq, depletedExpr_eq known, Truth.not_is, Truth.and_is, Truth.and_eq_true, Truth.is_eq_true, and_assoc]
    refine and_congr_right fun _ => and_congr_right fun left => ?_
    obtain ⟨total, expiry, quota, ends⟩ := not_depleted known left
    rw [nearDepletionExpr_eq quota ends, Truth.is_eq_true, quota, ends]
    rfl
  split
  · rw [enabled_eq, Truth.and_eq_true, Truth.is_eq_true]
    simp
  · simp

end ThreeXNode.Panel.ClientPaging
