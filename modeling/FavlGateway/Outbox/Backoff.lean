/-
  The certified backoff against the scheduled one, and the horizon as a function of its parameters
  (`favl_outbox/timing.py`, `compute_backoff` in `favl_outbox/publisher.py`).

  1. `RetryPolicy.backoff_for` is written as an upper bound of the delay that `compute_backoff`
     schedules.  It has the cap and the jitter but not the floor of a tenth of a second, so it is one
     exactly where the jittered delay reaches the floor by itself (`backoff_certified_iff`).

  2. `worst_case_retry_horizon` only grows with its parameters (`horizon_le_horizon`): a gate that
     lets a configuration through would let every smaller one through, the one included in which a
     row's own `max_attempts` cuts the attempts short (`horizon_of_rowLimit`).
-/
import FavlGateway.Outbox.Publisher

namespace FavlGateway.Outbox

open FavlGateway.Library

/-! ## What is scheduled -/

/-- A policy as an operator can sensibly set it. -/
structure RetryPolicy.Sensible (policy : RetryPolicy) : Prop where
  base : 0 ≤ policy.baseSeconds
  cap : 0 ≤ policy.capSeconds
  jitter : 0 ≤ policy.jitterRatio
  jitter_le : policy.jitterRatio ≤ 1

section Backoff

variable {policy : RetryPolicy} {n i : Nat} {f : Fate} {s : Session} {w : World}

theorem RetryPolicy.raw_nonneg_of (hbase : 0 ≤ policy.baseSeconds) (hcap : 0 ≤ policy.capSeconds)
    (n : Nat) : 0 ≤ policy.raw n := by
  have hpow : (0 : ℚ) ≤ 2 ^ (n - 1) := by positivity
  exact le_min (mul_nonneg hbase hpow) hcap

/-- What `compute_backoff` returns, as a function of the sample. -/
theorem computeBackoff_returns :
    (Prog.run (fun {_} o s w => perform i f o s w) (computeBackoff n policy) s w).1 =
      .ok (max (1 / 10) (policy.raw n + (-(policy.raw n * policy.jitterRatio) +
        (policy.raw n * policy.jitterRatio - -(policy.raw n * policy.jitterRatio)) *
          f.random))) := rfl

/-- The floor aside, no sample takes the delay beyond the certified one. -/
theorem RetryPolicy.Sensible.jittered_le (h : policy.Sensible) (hhigh : f.random ≤ 1) :
    policy.raw n + (-(policy.raw n * policy.jitterRatio) +
      (policy.raw n * policy.jitterRatio - -(policy.raw n * policy.jitterRatio)) * f.random) ≤
        policy.backoffFor n := by
  have hwidth : 0 ≤ policy.raw n * policy.jitterRatio :=
    mul_nonneg (RetryPolicy.raw_nonneg_of h.base h.cap n) h.jitter
  have hsample : (policy.raw n * policy.jitterRatio) * f.random ≤ policy.raw n * policy.jitterRatio :=
    mul_le_of_le_one_right hwidth hhigh
  have hbound : policy.backoffFor n = policy.raw n + policy.raw n * policy.jitterRatio := by
    rw [RetryPolicy.backoffFor]
    ring
  rw [hbound]
  linarith

/-- **When the certified backoff bounds the scheduled one**: for any sample, exactly where the
    capped delay with all its jitter is no shorter than the floor. -/
theorem backoff_certified_iff (h : policy.Sensible) (hhigh : f.random ≤ 1) :
    (∃ delay, (Prog.run (fun {_} o s w => perform i f o s w) (computeBackoff n policy) s w).1 =
        .ok delay ∧ delay ≤ policy.backoffFor n) ↔
      1 / 10 ≤ min (policy.baseSeconds * 2 ^ (n - 1)) policy.capSeconds *
        (1 + policy.jitterRatio) := by
  have hjittered := h.jittered_le (n := n) hhigh
  rw [computeBackoff_returns]
  constructor
  · rintro ⟨delay, hdelay, hle⟩
    cases hdelay
    exact le_trans (le_max_left _ _) hle
  · intro hfloor
    exact ⟨_, rfl, max_le hfloor hjittered⟩

end Backoff

/-- `DEFAULT_RETRY_POLICY` -/
def defaultRetryPolicy : RetryPolicy := ⟨8, 1, 300, 1 / 4⟩

/-- The default policy, at its first failure and with the largest sample. -/
theorem backoff_certified_iff_default :
    ∃ delay, (Prog.run (fun {_} o s w => perform 0 { random := 1 } o s w)
      (computeBackoff 1 defaultRetryPolicy) {} {}).1 = .ok delay ∧
        delay ≤ defaultRetryPolicy.backoffFor 1 := by
  have hsensible : defaultRetryPolicy.Sensible := by constructor <;> decide +kernel
  exact (backoff_certified_iff hsensible (by decide +kernel)).mpr (by decide +kernel)

/-- With `OUTBOX_BACKOFF_BASE=0` the certified delay is none, and the scheduled one a tenth of a
    second. -/
theorem backoff_above_certified :
    (⟨8, 0, 300, 1 / 4⟩ : RetryPolicy).Sensible ∧
      ¬ ∃ delay, (Prog.run (fun {_} o s w => perform 0 { random := 1 / 2 } o s w)
        (computeBackoff 1 ⟨8, 0, 300, 1 / 4⟩) {} {}).1 = .ok delay ∧
          delay ≤ (⟨8, 0, 300, 1 / 4⟩ : RetryPolicy).backoffFor 1 := by
  refine ⟨by constructor <;> decide +kernel, ?_⟩
  rintro ⟨delay, hdelay, hle⟩
  cases hdelay
  exact absurd hle (by decide +kernel)

/-! ## The horizon grows with its parameters -/

/-- No component of the first policy is negative, or above the second's. -/
structure RetryPolicy.Within (p q : RetryPolicy) : Prop where
  maxAttempts : 0 ≤ p.maxAttempts ∧ p.maxAttempts ≤ q.maxAttempts
  baseSeconds : 0 ≤ p.baseSeconds ∧ p.baseSeconds ≤ q.baseSeconds
  capSeconds : 0 ≤ p.capSeconds ∧ p.capSeconds ≤ q.capSeconds
  jitterRatio : 0 ≤ p.jitterRatio ∧ p.jitterRatio ≤ q.jitterRatio

/-- No delay of the first set is negative, or above the second's. -/
structure OperationalDelays.Within (d e : OperationalDelays) : Prop where
  dbLockWait : 0 ≤ d.dbLockWaitSeconds ∧ d.dbLockWaitSeconds ≤ e.dbLockWaitSeconds
  brokerConnect : 0 ≤ d.brokerConnectTimeoutSeconds ∧
    d.brokerConnectTimeoutSeconds ≤ e.brokerConnectTimeoutSeconds
  publishTimeout : 0 ≤ d.publishTimeoutSeconds ∧ d.publishTimeoutSeconds ≤ e.publishTimeoutSeconds
  processRestart : 0 ≤ d.processRestartSeconds ∧ d.processRestartSeconds ≤ e.processRestartSeconds
  pollInterval : 0 ≤ d.pollIntervalSeconds ∧ d.pollIntervalSeconds ≤ e.pollIntervalSeconds

section Horizon

variable {p q : RetryPolicy} {d e : OperationalDelays}

theorem RetryPolicy.Within.raw_le (h : p.Within q) (n : Nat) : p.raw n ≤ q.raw n := by
  have hpow : (0 : ℚ) ≤ 2 ^ (n - 1) := by positivity
  exact min_le_min (mul_le_mul_of_nonneg_right h.baseSeconds.2 hpow) h.capSeconds.2

theorem RetryPolicy.Within.raw_nonneg (h : p.Within q) (n : Nat) : 0 ≤ p.raw n :=
  RetryPolicy.raw_nonneg_of h.baseSeconds.1 h.capSeconds.1 n

/-- One backoff is no longer under the smaller policy. -/
theorem RetryPolicy.Within.backoff_le (h : p.Within q) (n : Nat) :
    p.backoffFor n ≤ q.backoffFor n := by
  have hraw := h.raw_le n
  have hraw_nonneg := h.raw_nonneg n
  have hjitter := h.jitterRatio
  rw [RetryPolicy.backoffFor, RetryPolicy.backoffFor]
  exact mul_le_mul hraw (by linarith) (by linarith) (le_trans hraw_nonneg hraw)

theorem RetryPolicy.Within.backoff_nonneg (h : p.Within q) (n : Nat) : 0 ≤ q.backoffFor n := by
  have hraw : 0 ≤ p.raw n := h.raw_nonneg n
  have hjitter := h.jitterRatio.1
  have hfactor : 0 ≤ 1 + p.jitterRatio := by linarith
  exact le_trans (mul_nonneg hraw hfactor) (h.backoff_le n)

theorem OperationalDelays.Within.perAttempt_le (h : d.Within e) :
    d.perAttemptSeconds ≤ e.perAttemptSeconds := by
  have hlock := h.dbLockWait.2
  have hconnect := h.brokerConnect.2
  have hpublish := h.publishTimeout.2
  have hrestart := h.processRestart.2
  have hpoll := h.pollInterval.2
  unfold OperationalDelays.perAttemptSeconds
  linarith

theorem OperationalDelays.Within.perAttempt_nonneg (h : d.Within e) : 0 ≤ d.perAttemptSeconds := by
  have hlock := h.dbLockWait.1
  have hconnect := h.brokerConnect.1
  have hpublish := h.publishTimeout.1
  have hrestart := h.processRestart.1
  have hpoll := h.pollInterval.1
  unfold OperationalDelays.perAttemptSeconds
  linarith

/-- **The loop of the horizon**: more turns, larger terms and a larger start give a larger total. -/
theorem RetryPolicy.Within.loop_le (h : p.Within q) {j k : Nat} (hjk : j ≤ k) {a b : ℚ}
    (hab : a ≤ b) :
    (List.range' 1 j).foldl (fun total attempt => total + p.backoffFor attempt) a ≤
      (List.range' 1 k).foldl (fun total attempt => total + q.backoffFor attempt) b := by
  induction k generalizing j with
  | zero =>
    obtain rfl := Nat.le_zero.mp hjk
    exact hab
  | succ k ih =>
    rw [@List.range'_1_concat 1 k, List.foldl_append]
    rcases Nat.lt_or_ge k j with hlast | hearlier
    · -- both loops make the last turn
      obtain rfl : j = k + 1 := Nat.le_antisymm hjk hlast
      have hprefix := ih (le_refl k)
      have hterm := h.backoff_le (1 + k)
      rw [List.range'_1_concat, List.foldl_append]
      exact add_le_add hprefix hterm
    · have hprefix := ih hearlier
      have hterm := h.backoff_nonneg (1 + k)
      exact le_trans hprefix (le_add_of_nonneg_right hterm)

theorem attemptsBefore_length_le (h : p.Within q) :
    p.maxAttempts.toNat - 1 ≤ q.maxAttempts.toNat - 1 := by
  have hle := h.maxAttempts.2
  omega

/-- **The horizon grows with every parameter.** -/
theorem horizon_le_horizon (hp : p.Within q) (hd : d.Within e) :
    worstCaseRetryHorizon p d ≤ worstCaseRetryHorizon q e := by
  have hcount : (p.maxAttempts : ℚ) ≤ q.maxAttempts := by exact_mod_cast hp.maxAttempts.2
  have hcount_nonneg : (0 : ℚ) ≤ q.maxAttempts := by
    exact_mod_cast le_trans hp.maxAttempts.1 hp.maxAttempts.2
  have hcost : (p.maxAttempts : ℚ) * d.perAttemptSeconds ≤ q.maxAttempts * e.perAttemptSeconds :=
    mul_le_mul hcount hd.perAttempt_le hd.perAttempt_nonneg hcount_nonneg
  exact hp.loop_le (attemptsBefore_length_le hp) hcost

/-- The gate accepts exactly the configurations whose horizon is within the limit. -/
theorem validate_ok_iff {window margin : ℚ} (hwindow : 0 < window) :
    (∃ utilisation, validateDuplicateWindow p d window margin = .ok utilisation) ↔
      worstCaseRetryHorizon p d ≤ window * margin := by
  constructor
  · rintro ⟨utilisation, h⟩
    exact horizon_le_of_validate h
  · intro hle
    refine ⟨worstCaseRetryHorizon p d / window, ?_⟩
    unfold validateDuplicateWindow
    dsimp only
    rw [if_neg (not_lt.mpr hle), if_neg (ne_of_gt hwindow)]

/-- A row that is given up at its own limit has no more to wait for than the policy allows. -/
theorem horizon_of_rowLimit (hq : q.Within q) (he : e.Within e) {limit : Int} (hlimit : 0 ≤ limit) :
    worstCaseRetryHorizon { q with maxAttempts := min q.maxAttempts limit } e ≤
      worstCaseRetryHorizon q e := by
  refine horizon_le_horizon ⟨⟨?_, min_le_left _ _⟩, hq.baseSeconds, hq.capSeconds, hq.jitterRatio⟩ he
  exact le_min hq.maxAttempts.1 hlimit

/-- **The gate covers every smaller configuration.** -/
theorem gate_covers_smaller (hp : p.Within q) (hd : d.Within e) :
    worstCaseRetryHorizon p d ≤ worstCaseRetryHorizon q e ∧
      ∀ window margin : ℚ, 0 < window → 0 < margin →
        (∃ utilisation, validateDuplicateWindow q e window margin = .ok utilisation) →
        ∃ utilisation, validateDuplicateWindow p d window margin = .ok utilisation := by
  have hhorizon := horizon_le_horizon hp hd
  refine ⟨hhorizon, ?_⟩
  intro window margin hwindow _ haccepted
  rw [validate_ok_iff hwindow] at haccepted ⊢
  exact le_trans hhorizon haccepted

end Horizon

/-- `operational_delays_from_env` with the defaults. -/
def defaultDelays : OperationalDelays := ⟨5, 5, 5, 60, 1⟩

/-- The default policy, with a row whose own limit is three attempts. -/
theorem gate_covers_smaller_threeAttempts :
    worstCaseRetryHorizon { defaultRetryPolicy with maxAttempts := 3 } defaultDelays ≤
      worstCaseRetryHorizon defaultRetryPolicy defaultDelays :=
  (gate_covers_smaller (p := { defaultRetryPolicy with maxAttempts := 3 })
    (by constructor <;> decide +kernel) (by constructor <;> decide +kernel)).1

end FavlGateway.Outbox
