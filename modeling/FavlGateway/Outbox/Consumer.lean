/-
  A consumer that follows `version_decision` (`favl_outbox/consumer.py`) applies each aggregate in
  order.

  `versionDecision` is the rule for ONE delivery.  A projection folds it over everything that is
  ever delivered of one aggregate, whatever the order and the repeats, and keeps what it applied.
  The invariant of the fold (`InOrder`) is that the applied versions are `1, …, k` and that the last
  one is `k`; the rest is what a delivery can do to `k`.
-/
import Mathlib.Data.List.Basic
import Mathlib.Data.List.Induction
import Mathlib.Data.Int.Order.Basic

namespace FavlGateway.Outbox

/-! ## The rule -/

/-- What the consumer does with a delivery. -/
inductive Decision where
  | apply
  | ignore
  | quarantine
  deriving DecidableEq, Repr

/-- Monotonicity rule for a consumer projecting an aggregate. -/
def versionDecision (incoming lastApplied : Option Int) : Decision :=
  match incoming with
  -- legacy events cannot be ordered
  | none => .quarantine
  | some incoming =>
    match lastApplied with
    | none => if incoming = 1 then .apply else .quarantine
    | some lastApplied =>
      if incoming ≤ lastApplied then .ignore
      else if incoming = lastApplied + 1 then .apply
      else .quarantine

/-! ## The projection -/

/-- What a consumer has made of the deliveries so far. -/
structure Projection where
  lastApplied : Option Int := none
  applied : List Int := []

/-- One delivery. -/
def Projection.deliver (p : Projection) (incoming : Option Int) : Projection :=
  match versionDecision incoming p.lastApplied with
  | .apply => ⟨incoming, p.applied ++ incoming.toList⟩
  | _ => p

/-- Everything delivered of one aggregate, from the start. -/
def project (deliveries : List (Option Int)) : Projection :=
  deliveries.foldl Projection.deliver {}

/-- The versions `1, …, k`. -/
def versionsTo (k : Nat) : List Int := (List.range' 1 k).map fun n : Nat => (n : Int)

/-- The versions `1, …, k` have been applied, in that order. -/
structure Projection.InOrder (p : Projection) (k : Nat) : Prop where
  applied : p.applied = versionsTo k
  last : p.lastApplied = if k = 0 then none else some (k : Int)

theorem mem_versionsTo {k : Nat} {v : Int} : v ∈ versionsTo k ↔ 1 ≤ v ∧ v ≤ k := by
  simp only [versionsTo, List.mem_map, List.mem_range'_1]
  constructor
  · rintro ⟨n, hn, rfl⟩
    omega
  · intro h
    exact ⟨v.toNat, by omega, by omega⟩

theorem versionsTo_succ (k : Nat) : versionsTo (k + 1) = versionsTo k ++ [(k : Int) + 1] := by
  rw [versionsTo, List.range'_1_concat, List.map_append, Nat.add_comm 1 k]
  rfl

/-! ## One delivery -/

section Deliver

variable {p : Projection} {k : Nat} {incoming : Option Int}

/-- A delivery is applied exactly when it is the next version. -/
theorem Projection.InOrder.apply_iff (h : p.InOrder k) :
    versionDecision incoming p.lastApplied = .apply ↔ incoming = some ((k : Int) + 1) := by
  rw [h.last]
  cases incoming with
  | none => simp [versionDecision]
  | some v =>
    by_cases hk : k = 0
    · subst hk
      simp [versionDecision]
    · simp only [versionDecision, if_neg hk, Option.some.injEq]
      constructor
      · intro hv
        split at hv
        · cases hv
        · split at hv
          · assumption
          · cases hv
      · intro hv
        rw [if_neg (by omega), if_pos hv]

/-- A version that is ignored has been applied before, unless it is no version at all. -/
theorem Projection.InOrder.of_ignore (h : p.InOrder k)
    (hv : versionDecision incoming p.lastApplied = .ignore) (hpos : ∀ v, incoming = some v → 1 ≤ v) :
    ∃ v, incoming = some v ∧ v ∈ p.applied := by
  rw [h.last] at hv
  cases incoming with
  | none => cases hv
  | some v =>
    refine ⟨v, rfl, ?_⟩
    have hone : 1 ≤ v := hpos v rfl
    rw [h.applied, mem_versionsTo]
    by_cases hk : k = 0
    · subst hk
      simp only [versionDecision, if_true] at hv
      split at hv
      · cases hv
      · cases hv
    · simp only [versionDecision, if_neg hk] at hv
      split at hv
      · exact ⟨hone, by assumption⟩
      · split at hv
        · cases hv
        · cases hv

/-- A delivery leaves the projection in order, one version further if it is the next one. -/
theorem Projection.InOrder.deliver (h : p.InOrder k) (incoming : Option Int) :
    (p.deliver incoming).InOrder (if incoming = some ((k : Int) + 1) then k + 1 else k) := by
  by_cases hnext : incoming = some ((k : Int) + 1)
  · have happly := h.apply_iff.mpr hnext
    rw [if_pos hnext]
    have hdeliver : p.deliver incoming = ⟨incoming, p.applied ++ incoming.toList⟩ := by
      simp only [Projection.deliver, happly]
    rw [hdeliver, hnext]
    constructor
    · rw [h.applied, versionsTo_succ]
      rfl
    · rfl
  · have hother : p.deliver incoming = p := by
      have hne := mt h.apply_iff.mp hnext
      unfold Projection.deliver
      split
      · contradiction
      · rfl
    rw [if_neg hnext, hother]
    exact h

end Deliver

/-! ## All deliveries -/

section Project

variable {deliveries before : List (Option Int)} {incoming : Option Int} {v : Int}

theorem project_concat :
    project (before ++ [incoming]) = (project before).deliver incoming := by
  simp [project, List.foldl_append]

/-- The run rule: a property of the fold that every delivery keeps. -/
theorem project_induction {P : List (Option Int) → Projection → Prop} (hnil : P [] {})
    (hdeliver : ∀ before incoming p, P before p → P (before ++ [incoming]) (p.deliver incoming))
    (deliveries : List (Option Int)) : P deliveries (project deliveries) := by
  induction deliveries using List.reverseRecOn with
  | nil => exact hnil
  | append_singleton before incoming ih =>
    rw [project_concat]
    exact hdeliver before incoming _ ih

theorem project_inOrder (deliveries : List (Option Int)) : ∃ k, (project deliveries).InOrder k := by
  refine project_induction (P := fun _ p => ∃ k, p.InOrder k) ⟨0, rfl, rfl⟩ ?_ deliveries
  rintro before incoming p ⟨k, h⟩
  exact ⟨_, h.deliver incoming⟩

/-- What has been applied was delivered. -/
theorem delivered_of_applied (h : v ∈ (project deliveries).applied) : some v ∈ deliveries := by
  refine project_induction (P := fun ds p => v ∈ p.applied → some v ∈ ds) ?_ ?_ deliveries h
  · intro h
    cases h
  · intro before incoming p ih h
    unfold Projection.deliver at h
    split at h
    · rcases List.mem_append.mp h with h | h
      · exact List.mem_append_left _ (ih h)
      · rw [Option.mem_toList] at h
        rw [h]
        simp
    · exact List.mem_append_left _ (ih h)

/-- What has been applied stays applied. -/
theorem applied_append (h : v ∈ (project before).applied) (after : List (Option Int)) :
    v ∈ (project (before ++ after)).applied := by
  induction after using List.reverseRecOn with
  | nil => rwa [List.append_nil]
  | append_singleton after incoming ih =>
    rw [← List.append_assoc, project_concat]
    unfold Projection.deliver
    split
    · exact List.mem_append_left _ ih
    · exact ih

/-- The next version is applied when it first arrives. -/
theorem applied_on_arrival {m : Int} (hpos : 1 ≤ m) (hnew : some m ∉ before)
    (hprev : 1 < m → m - 1 ∈ (project before).applied) :
    m ∈ (project (before ++ [some m])).applied := by
  obtain ⟨k, h⟩ := project_inOrder before
  -- everything below `m` is applied and `m` is not, so `k = m - 1`
  have hbelow : m ≤ k + 1 := by
    by_cases hm : 1 < m
    · have hmem := hprev hm
      rw [h.applied, mem_versionsTo] at hmem
      omega
    · omega
  have habove : (k : Int) < m := by
    by_contra hle
    refine hnew (delivered_of_applied ?_)
    rw [h.applied, mem_versionsTo]
    omega
  have hnext := h.deliver (some m)
  rw [if_pos (by rw [Option.some.injEq]; omega)] at hnext
  rw [project_concat, hnext.applied, mem_versionsTo]
  omega

end Project

/-- The versions `1, …, n` all arrive, and they first arrive in ascending order. -/
def FirstsAscend (n : Int) (deliveries : List (Option Int)) : Prop :=
  ∀ m, 1 ≤ m → m ≤ n → some m ∈ deliveries ∧
    (1 < m → deliveries.idxOf (some (m - 1)) < deliveries.idxOf (some m))

/-- A list up to and including the first occurrence of a member. -/
theorem take_idxOf {deliveries : List (Option Int)} {m : Int} (h : some m ∈ deliveries) :
    some m ∉ deliveries.take (deliveries.idxOf (some m)) ∧
      deliveries.take (deliveries.idxOf (some m) + 1) =
        deliveries.take (deliveries.idxOf (some m)) ++ [some m] := by
  have hlt : deliveries.idxOf (some m) < deliveries.length := List.idxOf_lt_length_iff.mpr h
  refine ⟨fun hmem => ?_, ?_⟩
  · have hfirst := List.idxOf_lt_length_iff.mpr hmem
    have hsame : deliveries.idxOf (some m) =
        (deliveries.take (deliveries.idxOf (some m))).idxOf (some m) := by
      conv_lhs => rw [← List.take_append_drop (deliveries.idxOf (some m)) deliveries]
      rw [List.idxOf_append_of_mem hmem]
    rw [List.length_take] at hfirst
    omega
  · rw [List.take_add_one, List.getElem?_eq_getElem hlt, List.getElem_idxOf]
    rfl

/-- Versions that first arrive in ascending order are applied by the time they have arrived. -/
theorem applied_of_firstsAscend {deliveries : List (Option Int)} {n : Int}
    (h : FirstsAscend n deliveries) (k : Nat) (hk : (k : Int) + 1 ≤ n) :
    (k : Int) + 1 ∈
      (project (deliveries.take (deliveries.idxOf (some ((k : Int) + 1)) + 1))).applied := by
  induction k with
  | zero =>
    obtain ⟨hmem, -⟩ := h 1 (by omega) hk
    obtain ⟨hnew, htake⟩ := take_idxOf hmem
    show (1 : Int) ∈ _
    rw [show ((0 : Nat) : Int) + 1 = 1 from rfl, htake]
    exact applied_on_arrival (by omega) hnew (by omega)
  | succ k ih =>
    obtain ⟨hmem, hbefore⟩ := h ((k + 1 : Nat) + 1) (by omega) hk
    obtain ⟨hnew, htake⟩ := take_idxOf hmem
    rw [htake]
    refine applied_on_arrival (by omega) hnew fun _ => ?_
    have hlt := hbefore (by omega)
    rw [show ((k + 1 : Nat) : Int) + 1 - 1 = (k : Int) + 1 by omega] at hlt ⊢
    -- the first arrival of the version before lies within what was delivered so far
    have htake : deliveries.take (deliveries.idxOf (some ((k + 1 : Nat) + 1 : Int))) =
        deliveries.take (deliveries.idxOf (some ((k : Int) + 1)) + 1) ++
          (deliveries.take (deliveries.idxOf (some ((k + 1 : Nat) + 1 : Int)))).drop
            (deliveries.idxOf (some ((k : Int) + 1)) + 1) := by
      have htakes := List.take_take (i := deliveries.idxOf (some ((k : Int) + 1)) + 1)
        (j := deliveries.idxOf (some ((k + 1 : Nat) + 1 : Int))) (l := deliveries)
      rw [Nat.min_eq_left (by omega)] at htakes
      rw [← htakes, List.take_append_drop]
    rw [htake]
    exact applied_append (ih (by omega)) _

/-- **A consumer applies each aggregate exactly in order**: whatever is delivered, in whatever order
    and however often, the applied versions are `1, …, k`, each once; a delivery is ignored only if
    its version was applied before; and versions that first arrive in ascending order are all
    applied. -/
theorem consumer_in_order (deliveries : List (Option Int))
    (hpos : ∀ v, some v ∈ deliveries → 1 ≤ v) :
    (∃ k, (project deliveries).applied = versionsTo k) ∧
    (∀ before incoming after, deliveries = before ++ incoming :: after →
      versionDecision incoming (project before).lastApplied = .ignore →
      ∃ v, incoming = some v ∧ v ∈ (project before).applied) ∧
    ∀ n, FirstsAscend n deliveries → ∀ m, 1 ≤ m → m ≤ n → m ∈ (project deliveries).applied := by
  refine ⟨?_, ?_, ?_⟩
  · obtain ⟨k, h⟩ := project_inOrder deliveries
    exact ⟨k, h.applied⟩
  · rintro before incoming after rfl hignore
    obtain ⟨k, h⟩ := project_inOrder before
    refine h.of_ignore hignore fun v hv => hpos v ?_
    rw [hv]
    simp
  · intro n hfirsts m hm hmn
    have happlied := applied_of_firstsAscend hfirsts (m - 1).toNat (by omega)
    rw [show ((m - 1).toNat : Int) + 1 = m by omega] at happlied
    have hall := applied_append happlied (deliveries.drop (deliveries.idxOf (some m) + 1))
    rwa [List.take_append_drop] at hall

theorem consumer_in_order_replayed :
    (project [some 1, some 3, some 1, none, some 2, some 2, some 3]).applied = [1, 2, 3] ∧
      ∃ k, (project [some 1, some 3, some 1, none, some 2, some 2, some 3]).applied =
        versionsTo k :=
  ⟨by decide, (consumer_in_order [some 1, some 3, some 1, none, some 2, some 2, some 3]
    (by simp)).1⟩

end FavlGateway.Outbox
