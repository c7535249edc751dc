/-
  Retry horizon arithmetic and the duplicate-window gate (`favl_outbox/timing.py`).

  `worstCaseRetryHorizon` adds up, as the source does, one operational cost for every attempt and one
  backoff for every gap.  `budget policy delays a` is what a row that has failed `a` times may have
  spent by that account; it grows by one step of the sum with every failure, and while the row may
  still be attempted it stays within the horizon.
-/
import Mathlib.Algebra.Order.Ring.Rat
import Mathlib.Data.List.Range
import Mathlib.Tactic.Linarith
import Mathlib.Tactic.Ring

namespace FavlGateway.Outbox

/-! ## The source -/

structure RetryPolicy where
  maxAttempts : Int
  baseSeconds : ℚ
  capSeconds : ℚ
  jitterRatio : ℚ

/-- The delay after this many failures, before jitter. -/
def RetryPolicy.raw (policy : RetryPolicy) (attempt : Nat) : ℚ :=
  min (policy.baseSeconds * 2 ^ (attempt - 1)) policy.capSeconds

/-- Upper bound of the delay scheduled after `attempt` failures. -/
def RetryPolicy.backoffFor (policy : RetryPolicy) (attempt : Nat) : ℚ :=
  policy.raw attempt * (1 + policy.jitterRatio)

/-- Per-attempt cost outside the backoff curve. -/
structure OperationalDelays where
  dbLockWaitSeconds : ℚ
  brokerConnectTimeoutSeconds : ℚ
  publishTimeoutSeconds : ℚ
  processRestartSeconds : ℚ
  pollIntervalSeconds : ℚ

def OperationalDelays.perAttemptSeconds (delays : OperationalDelays) : ℚ :=
  delays.dbLockWaitSeconds + delays.brokerConnectTimeoutSeconds + delays.publishTimeoutSeconds +
    delays.processRestartSeconds + delays.pollIntervalSeconds

/-- `range(1, n)` -/
def attemptsBefore (n : Int) : List Nat := List.range' 1 (n.toNat - 1)

/-- `worst_case_retry_horizon` -/
def worstCaseRetryHorizon (policy : RetryPolicy) (delays : OperationalDelays) : ℚ :=
  (attemptsBefore policy.maxAttempts).foldl (fun total attempt => total + policy.backoffFor attempt)
    (policy.maxAttempts * delays.perAttemptSeconds)

/-- What `validate_duplicate_window` raises. -/
inductive GateError where
  | duplicateWindowTooSmall
  | zeroDivision
  deriving DecidableEq

/-- `validate_duplicate_window`; a service passes the `safety_margin` of its environment, 0.75 unless
    it is set. -/
def validateDuplicateWindow (policy : RetryPolicy) (delays : OperationalDelays)
    (duplicateWindowSeconds safetyMargin : ℚ) : Except GateError ℚ :=
  let horizon := worstCaseRetryHorizon policy delays
  let limit := duplicateWindowSeconds * safetyMargin
  if horizon > limit then .error .duplicateWindowTooSmall
  else if duplicateWindowSeconds = 0 then .error .zeroDivision
  else .ok (horizon / duplicateWindowSeconds)

/-! ## The account of one row -/

/-- What the horizon sets aside for the first `a` attempts and the backoff after each. -/
def budget (policy : RetryPolicy) (delays : OperationalDelays) : Nat → ℚ
  | 0 => 0
  | a + 1 => budget policy delays a + delays.perAttemptSeconds + policy.backoffFor (a + 1)

/-- A configuration in which the sum bounds what it adds up: no negative costs, and no delay below
    the floor of a tenth of a second that `compute_backoff` imposes. -/
structure Accountable (policy : RetryPolicy) (delays : OperationalDelays) : Prop where
  attempts : 0 ≤ policy.maxAttempts
  perAttempt : 0 ≤ delays.perAttemptSeconds
  jitter : 0 ≤ policy.jitterRatio
  floor : ∀ a : Nat, 1 ≤ a → (a : Int) < policy.maxAttempts → 1 / 10 ≤ policy.backoffFor a

section Account

variable {policy : RetryPolicy} {delays : OperationalDelays}

/-- The gate lets a configuration through only if its horizon is within the limit. -/
theorem horizon_le_of_validate {window margin utilisation : ℚ}
    (h : validateDuplicateWindow policy delays window margin = .ok utilisation) :
    worstCaseRetryHorizon policy delays ≤ window * margin := by
  unfold validateDuplicateWindow at h
  by_contra hlt
  rw [if_pos (not_le.mp hlt)] at h
  cases h

/-- The horizon is the budget of all failures but the last, and the cost of the last attempt. -/
theorem horizon_eq {m : Nat} (h : policy.maxAttempts = m + 1) :
    worstCaseRetryHorizon policy delays = budget policy delays m + delays.perAttemptSeconds := by
  have hsum : ∀ (k : Nat) (c : ℚ), (List.range' 1 k).foldl
      (fun total attempt => total + policy.backoffFor attempt) c =
        c + budget policy delays k - k * delays.perAttemptSeconds := by
    intro k c
    induction k with
    | zero => simp [budget]
    | succ k ih =>
      rw [List.range'_1_concat, List.foldl_append, ih, Nat.add_comm 1 k]
      show c + budget policy delays k - k * delays.perAttemptSeconds + policy.backoffFor (k + 1) = _
      rw [budget, Nat.cast_succ]
      ring
  have hrange : attemptsBefore policy.maxAttempts = List.range' 1 m := by
    unfold attemptsBefore
    rw [h]
    rfl
  unfold worstCaseRetryHorizon
  rw [hrange, hsum, h]
  push_cast
  ring

theorem Accountable.backoff_nonneg (h : Accountable policy delays) {a : Nat} (hpos : 1 ≤ a)
    (ha : (a : Int) < policy.maxAttempts) : 0 ≤ policy.backoffFor a := by
  have hfloor := h.floor a hpos ha
  linarith

/-- While the row may still be attempted, the budget only grows. -/
theorem Accountable.budget_le (h : Accountable policy delays) {a b : Nat} (hab : a ≤ b)
    (hb : (b : Int) < policy.maxAttempts) : budget policy delays a ≤ budget policy delays b := by
  induction b, hab using Nat.le_induction with
  | base => exact le_refl _
  | succ b hab ih =>
    have hprev := ih (by push_cast at hb; omega)
    have hback := h.backoff_nonneg (Nat.le_add_left 1 b) hb
    have hcost := h.perAttempt
    rw [budget]
    linarith

theorem Accountable.budget_nonneg (h : Accountable policy delays) {a : Nat}
    (ha : (a : Int) < policy.maxAttempts) : 0 ≤ budget policy delays a :=
  h.budget_le (Nat.zero_le a) ha

/-- While the row may still be attempted, it is within the horizon. -/
theorem Accountable.budget_le_horizon (h : Accountable policy delays) {a : Nat}
    (ha : (a : Int) < policy.maxAttempts) :
    budget policy delays a ≤ worstCaseRetryHorizon policy delays := by
  obtain ⟨m, hm⟩ : ∃ m : Nat, policy.maxAttempts = m + 1 :=
    ⟨(policy.maxAttempts - 1).toNat, by omega⟩
  have hle := h.budget_le (a := a) (b := m) (by omega) (by omega)
  have hcost := h.perAttempt
  rw [horizon_eq hm]
  linarith

theorem Accountable.horizon_nonneg (h : Accountable policy delays) :
    0 ≤ worstCaseRetryHorizon policy delays := by
  rcases eq_or_lt_of_le h.attempts with hzero | hpos
  · have hnone : worstCaseRetryHorizon policy delays = 0 := by
      unfold worstCaseRetryHorizon attemptsBefore
      rw [← hzero]
      simp
    rw [hnone]
  · have hle := h.budget_le_horizon (a := 0) (by exact_mod_cast hpos)
    exact hle

end Account

end FavlGateway.Outbox
