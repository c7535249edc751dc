/-
  Connector lifecycle as an explicit state machine (`app/lifecycle.py`).

  Every transition is a table entry.  `find` looks an edge up by source, target and (optionally)
  event; `idempotentRepeat` finds the edge that makes re-requesting a held state a success.  Both
  take the raw strings the columns and the API carry, as the source does, so an unknown state is
  a lookup failure and not a missing constructor; `find_value` and `idempotentRepeat_value` read
  them on the ten states.

  The facts about the table that the rest of the development needs are stated over
  `t ∈ transitions` and decided by running through the table once.
-/
import Mathlib.Data.List.Sort
import Mathlib.Tactic.Tauto

namespace FavlGateway.Registry

/-! ## States and events -/

/-- Lifecycle states, in the order a healthy connector moves through them. -/
inductive ConnectorState where
  | draft
  | installed
  | configured
  | validated
  | enabled
  | disabled
  | revoked
  | deletionRequested
  | archived
  | deleted
  deriving DecidableEq, Repr

namespace ConnectorState

/-- The value of the enum member, as it is stored in `connectors.status`. -/
def value : ConnectorState → String
  | draft => "draft"
  | installed => "installed"
  | configured => "configured"
  | validated => "validated"
  | enabled => "enabled"
  | disabled => "disabled"
  | revoked => "revoked"
  | deletionRequested => "deletion_requested"
  | archived => "archived"
  | deleted => "deleted"

/-- The members, in declaration order. -/
def members : List ConnectorState :=
  [draft, installed, configured, validated, enabled, disabled, revoked, deletionRequested,
    archived, deleted]

/-- `ConnectorState(value)`; `none` where Python raises `ValueError`. -/
def ofValue? (v : String) : Option ConnectorState :=
  members.find? fun s => s.value = v

@[simp] theorem ofValue?_value (s : ConnectorState) : ofValue? s.value = some s := by
  cases s <;> decide

theorem value_injective : Function.Injective value := by
  intro s t h
  have hs := ofValue?_value s
  rw [h, ofValue?_value] at hs
  exact (Option.some.inj hs).symm

@[simp] theorem value_inj {s t : ConnectorState} : s.value = t.value ↔ s = t :=
  value_injective.eq_iff

/-- No state is named `""`, the source state of a creation record. -/
theorem value_ne_empty (s : ConnectorState) : s.value ≠ "" := by
  cases s <;> decide

end ConnectorState

/-- The events of the connector aggregate. -/
inductive ConnectorEvent where
  | created
  | installed
  | configured
  | validationSucceeded
  | validationFailed
  | enabled
  | disabled
  | credentialsRotated
  | revoked
  | deletionRequested
  | archived
  | deleted
  deriving DecidableEq, Repr

/-- The event name, as it is stored in `connector_audit.event` and `outbox_events.subject`. -/
def ConnectorEvent.value : ConnectorEvent → String
  | created => "connector.created"
  | installed => "connector.installed"
  | configured => "connector.configured"
  | validationSucceeded => "connector.validation_succeeded"
  | validationFailed => "connector.validation_failed"
  | enabled => "connector.enabled"
  | disabled => "connector.disabled"
  | credentialsRotated => "connector.credentials_rotated"
  | revoked => "connector.revoked"
  | deletionRequested => "connector.deletion_requested"
  | archived => "connector.archived"
  | deleted => "connector.deleted"

theorem ConnectorEvent.value_injective : Function.Injective ConnectorEvent.value := by
  intro a b h
  cases a <;> cases b <;> first | rfl | exact absurd h (by decide)

open ConnectorState

/-- The ONLY states in which a connector may serve an invocation. -/
def executableStates : List ConnectorState := [enabled]

/-- States with no exit at all. -/
def terminalStates : List ConnectorState := [deleted]

/-- States a connector may be CREATED in; creation is not a transition. -/
def creatableStates : List ConnectorState :=
  [draft, installed, configured, validated, enabled, disabled]

/-- The states a connector can be in before it is revoked or deletion is requested. -/
def liveStates : List ConnectorState := creatableStates

/-- A connector that may still be brought (back) into service. -/
def ConnectorState.IsLive (s : ConnectorState) : Prop := s ∈ liveStates

instance (s : ConnectorState) : Decidable s.IsLive := inferInstanceAs (Decidable (s ∈ _))

/-! ## The transition table -/

/-- One permitted edge.  `idempotent` marks an edge whose target, if already current, is a
    success rather than a conflict; `requiresReason` one whose motive must be recorded. -/
structure Transition where
  source : ConnectorState
  target : ConnectorState
  event : ConnectorEvent
  idempotent : Bool := false
  requiresReason : Bool := false
  privileged : Bool := false
  deriving DecidableEq, Repr

/-- The table (`TRANSITIONS`), in the order of the source. -/
def transitions : List Transition :=
  [ { source := draft, target := installed, event := .installed },
    { source := installed, target := configured, event := .configured },
    -- reconfiguration always drops back to `configured`
    { source := configured, target := configured, event := .configured },
    { source := validated, target := configured, event := .configured },
    { source := disabled, target := configured, event := .configured },
    -- validation; the failure edge exists from `configured` only
    { source := configured, target := validated, event := .validationSucceeded },
    { source := configured, target := configured, event := .validationFailed },
    { source := validated, target := enabled, event := .enabled },
    { source := disabled, target := enabled, event := .enabled, idempotent := false },
    { source := enabled, target := disabled, event := .disabled, idempotent := true,
      requiresReason := true },
    { source := enabled, target := enabled, event := .credentialsRotated },
    { source := disabled, target := disabled, event := .credentialsRotated } ] ++
  -- revocation, from every live state
  ([draft, installed, configured, validated, enabled, disabled].map fun s =>
    { source := s, target := revoked, event := .revoked, idempotent := true,
      requiresReason := true }) ++
  [ { source := disabled, target := deletionRequested, event := .deletionRequested,
      idempotent := true, requiresReason := true },
    { source := revoked, target := deletionRequested, event := .deletionRequested,
      idempotent := true, requiresReason := true },
    { source := deletionRequested, target := archived, event := .archived, idempotent := true },
    { source := revoked, target := archived, event := .archived, idempotent := true },
    { source := archived, target := deleted, event := .deleted, requiresReason := true,
      privileged := true } ]

/-- A transition that the machine does not permit. -/
structure TransitionError where
  frm : String
  dest : String
  reason : String
  deriving DecidableEq, Repr

/-- Whether a connector in this state may serve an invocation; an unknown state may not. -/
def isExecutable (state : String) : Bool :=
  match ofValue? state with
  | some s => s ∈ executableStates
  | none => false

/-- The edges from `frm` to `dest`, in table order, narrowed to `event` when one is named. -/
def candidates (frm dest : ConnectorState) (event : Option ConnectorEvent) : List Transition :=
  (transitions.filter fun t => t.source = frm ∧ t.target = dest).filter fun t =>
    match event with
    | none => true
    | some e => t.event = e

/-- Look up a permitted transition, or explain why there is none. -/
def find (source target : String) (event : Option ConnectorEvent := none) :
    Except TransitionError Transition :=
  match ofValue? source, ofValue? target with
  | none, _ => .error ⟨source, target,
      s!"unknown state: '{source}' is not a valid ConnectorState"⟩
  | some _, none => .error ⟨source, target,
      s!"unknown state: '{target}' is not a valid ConnectorState"⟩
  | some frm, some dest =>
    if frm ∈ terminalStates ∧ frm ≠ dest then .error ⟨source, target, s!"{frm.value} is terminal"⟩
    else match candidates frm dest event with
      | [] => .error ⟨source, target, "not a permitted transition"⟩
      | t :: _ => .ok t

/-- States reachable from here, sorted, for a 409 that tells the caller what to do. -/
def permittedTargets (source : String) : List String :=
  match ofValue? source with
  | none => []
  | some frm =>
    (((transitions.filter fun t => t.source = frm).map fun t => t.target.value).dedup).insertionSort
      (· ≤ ·)

/-- The transition that makes re-requesting a held state a success: the first idempotent edge
    INTO the state, not an edge from the state to itself. -/
def idempotentRepeat (current target : String) : Option Transition :=
  if current ≠ target then none
  else transitions.find? fun t => t.target.value = target ∧ t.idempotent

/-! ## Reading the lookups on the ten states -/

@[simp] theorem isExecutable_value (s : ConnectorState) :
    isExecutable s.value = decide (s = enabled) := by
  simp [isExecutable, executableStates]

theorem mem_candidates {s t : ConnectorState} {e : Option ConnectorEvent} {tr : Transition} :
    tr ∈ candidates s t e ↔
      tr ∈ transitions ∧ tr.source = s ∧ tr.target = t ∧ ∀ ev, e = some ev → tr.event = ev := by
  cases e with
  | none => simp [candidates]
  | some ev =>
    simp only [candidates, List.mem_filter, decide_eq_true_eq, Option.some.injEq, forall_eq']
    tauto

/-- No edge leaves a terminal state. -/
theorem source_not_terminal : ∀ t ∈ transitions, t.source ∉ terminalStates := by
  decide

/-- On the ten states the lookup is the head of the candidate list: the terminal guard only
    chooses the refusal text. -/
theorem find_value_ok {s t : ConnectorState} {e : Option ConnectorEvent} {tr : Transition} :
    find s.value t.value e = .ok tr ↔ (candidates s t e).head? = some tr := by
  simp only [find, ofValue?_value]
  by_cases hs : s ∈ terminalStates ∧ s ≠ t
  · have hnil : candidates s t e = [] := by
      apply List.eq_nil_iff_forall_not_mem.mpr
      intro tr htr
      obtain ⟨hmem, hsrc, -, -⟩ := mem_candidates.mp htr
      exact source_not_terminal tr hmem (hsrc ▸ hs.1)
    rw [if_pos hs, hnil]
    simp
  · rw [if_neg hs]
    cases candidates s t e <;> simp

/-- What a successful lookup returns is an edge of the table between the two states, with the
    event that was asked for. -/
theorem find_value_spec {s t : ConnectorState} {e : Option ConnectorEvent} {tr : Transition}
    (h : find s.value t.value e = .ok tr) :
    tr ∈ transitions ∧ tr.source = s ∧ tr.target = t ∧ ∀ ev, e = some ev → tr.event = ev := by
  rw [find_value_ok] at h
  exact mem_candidates.mp (List.mem_of_mem_head? h)

/-- Asking for the edge by its own event finds it. -/
theorem find_own_event : ∀ t ∈ transitions,
    find t.source.value t.target.value (some t.event) = .ok t := by
  have key : ∀ t ∈ transitions, (candidates t.source t.target (some t.event)).head? = some t := by
    decide
  exact fun t ht => find_value_ok.mpr (key t ht)

theorem idempotentRepeat_value {s t : ConnectorState} {tr : Transition}
    (h : idempotentRepeat s.value t.value = some tr) :
    s = t ∧ tr ∈ transitions ∧ tr.target = t ∧ tr.idempotent = true := by
  unfold idempotentRepeat at h
  split at h
  · cases h
  · rename_i hst
    have hst : s = t := by simpa using hst
    obtain hp := List.find?_some h
    simp only [Bool.decide_and, Bool.and_eq_true, decide_eq_true_eq, value_inj] at hp
    exact ⟨hst, List.mem_of_find?_eq_some h, hp.1, hp.2⟩

/-! ## Facts about the table -/

/-- Only live states lead to live states. -/
theorem live_target_from_live : ∀ t ∈ transitions, t.target.IsLive → t.source.IsLive := by
  decide

/-- Revocation is only ever entered from a live state. -/
theorem revoked_from_live : ∀ t ∈ transitions, t.target = revoked → t.source.IsLive := by
  decide

/-- `validated` is only ever entered by a successful validation. -/
theorem validated_by_success : ∀ t ∈ transitions,
    t.target = validated → t.event = .validationSucceeded := by
  decide

theorem revoked_not_live : ¬ revoked.IsLive := by decide

theorem enabled_live : enabled.IsLive := by decide

end FavlGateway.Registry
