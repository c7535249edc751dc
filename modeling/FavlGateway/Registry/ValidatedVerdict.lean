/-
  A VALIDATED connector has passed its last validation, unless a failing one finds it VALIDATED.

  `verdict` is what one request finds out about a connector: creation and validation ask the
  adapter, nothing else does.  `lastVerdict` keeps the latest of them along a sequence of requests.
  `validated` is entered by a successful validation only, so the two agree at every step but one:
  a failing validation of a VALIDATED connector asks for an edge `validated → configured` that the
  table has under another event, is refused, and is forgotten (`FailsValidated`).
-/
import FavlGateway.Registry.Solo

namespace FavlGateway.Registry

open FavlGateway.Library

/-! ## Verdicts -/

/-- The validation verdict on connector `c` that a request obtains. -/
def verdict (rq : Incoming) (db : Db) (c : Uuid) : Option Bool :=
  match rq.request with
  | .createConnector _ payload =>
    if c = rq.env.uuid4 0 ∧ db.connector c = none ∧ payload.kind ∈ registeredKinds then
      some (rq.env.validateConfig payload.kind (effectiveConfig payload)).valid
    else none
  | .validateConnector caller id =>
    match db.connector id with
    | some record =>
      if c = id ∧ record.tenantId = caller.tenantId ∧ record.kind ∈ registeredKinds then
        some (rq.env.validateConfig record.kind record.config).valid
      else none
    | none => none
  | _ => none

/-- The latest verdict on each connector after a sequence of requests. -/
def lastVerdict : Nat → List Incoming → Store → (Uuid → Option Bool) → Uuid → Option Bool
  | _, [], _, last => last
  | i, rq :: rest, st, last =>
    lastVerdict (i + 1) rest (served i rq st) fun c => (verdict rq st.db c).or (last c)

/-- The request is a validation that fails a VALIDATED connector. -/
def FailsValidated (rq : Incoming) (db : Db) : Prop :=
  ∃ c r, verdict rq db c = some false ∧ db.connector c = some r ∧ r.status = .validated

/-- Every VALIDATED connector passed its last validation. -/
def VerdictsHold (last : Uuid → Option Bool) (db : Db) : Prop :=
  ∀ c r, db.connector c = some r → r.status = .validated → last c = some true

/-! ## Requests for a kind without an adapter -/

/-- The adapter a request needs for its verdict is registered. -/
def AdapterRegistered (rq : Incoming) (db : Db) : Prop :=
  match rq.request with
  | .createConnector _ payload => payload.kind ∈ registeredKinds
  | .validateConnector caller id => ∀ record, db.connector id = some record →
      record.tenantId = caller.tenantId → record.kind ∈ registeredKinds
  | _ => True

section Unregistered

variable {i : Nat} {rq : Incoming} {st : Store}

/-- Without an adapter there is no verdict, and nothing is written. -/
theorem served_unregistered (h : ¬ AdapterRegistered rq st.db) :
    served i rq st = st ∧ ∀ c, verdict rq st.db c = none := by
  obtain ⟨env, request⟩ := rq
  cases request with
  | createConnector caller payload =>
    have hkind : payload.kind ∉ registeredKinds := h
    refine ⟨?_, fun c => ?_⟩
    · simp [served_eq, handler, createConnector, hkind]
    · simp [verdict, hkind]
  | validateConnector caller id =>
    simp only [AdapterRegistered, not_forall] at h
    obtain ⟨record, hrow, ht, hkind⟩ := h
    refine ⟨?_, fun c => ?_⟩
    · simp [served_eq, handler, validateConnector, tenantConnector, validateConfig, requireAdapter,
        await, perform, Session.connectorAttrs, Session.fresh, Session.loadConnector, hrow, ht,
        hkind, Option.filter]
    · simp [verdict, hrow, hkind]
  | _ => exact absurd trivial h

end Unregistered

/-! ## One request -/

section Commit

variable {rq : Incoming} {s : Session} {db₀ db db' : Db} {last : Uuid → Option Bool}

/-- Only a successful validation of the connector asks for an edge into `validated`. -/
theorem asked_validated {record : ConnectorRecord} {ask : Ask} {tr : Transition}
    (asked : rq.request.asked rq.env record = some ask)
    (edge : find record.status.value ask.target.value ask.event = .ok tr)
    (hto : tr.target = .validated) :
    rq.request = .validateConnector ask.caller ask.connectorId ∧
      (rq.env.validateConfig record.kind record.config).valid = true := by
  obtain ⟨hmem, -, htarget, hevent⟩ := find_value_spec edge
  have hsuccess : tr.event = .validationSucceeded := validated_by_success tr hmem hto
  rw [hto] at htarget
  cases hrq : rq.request with
  | validateConnector caller id =>
    rw [hrq] at asked
    cases asked
    refine ⟨rfl, ?_⟩
    simp only [verdictTarget] at htarget
    split at htarget
    · assumption
    · cases htarget
  | rotateConnectorCredentials caller id body =>
    rw [hrq] at asked
    cases asked
    have hrotated := hevent .credentialsRotated rfl
    rw [hsuccess] at hrotated
    cases hrotated
  | _ =>
    rw [hrq] at asked
    first
    | cases asked; cases htarget
    | cases asked

/-- The connectors of `db₀` are still there, their kind, configuration and tenant unchanged, only a
    creation adds one, and the VALIDATED ones hold their verdict. -/
structure VerdictKept (rq : Incoming) (db₀ : Db) (last : Uuid → Option Bool) (db : Db) :
    Prop where
  same : ∀ {c r₀}, db₀.connector c = some r₀ →
    ∃ r, db.connector c = some r ∧ SameConnector r₀ r
  known : ∀ {c r}, (∀ caller payload, rq.request ≠ .createConnector caller payload) →
    db.connector c = some r → ∃ r₀, db₀.connector c = some r₀ ∧ SameConnector r₀ r
  held : VerdictsHold last db

theorem SameConnector.trans {r r' r'' : ConnectorRecord} (h : SameConnector r r')
    (h' : SameConnector r' r'') : SameConnector r r'' :=
  ⟨h'.id.trans h.id, h'.tenantId.trans h.tenantId, h'.name.trans h.name, h'.kind.trans h.kind,
    h'.config.trans h.config⟩

/-- A commit that writes one connector keeps the verdicts, if what it makes VALIDATED has passed. -/
theorem VerdictKept.written {id : Uuid} {record current : ConnectorRecord}
    (h : VerdictKept rq db₀ last db) (hdb : db'.toRows = s.contents db)
    (hstored : db.connector id = some record)
    (hrows : ∀ c, db'.connector c = if c = id then some current else db.connector c)
    (hsame : SameConnector record current)
    (hvalidated : current.status = .validated → last id = some true) :
    VerdictKept rq db₀ last db' where
  same hr := by
    obtain ⟨r, hr', hsame'⟩ := h.same hr
    obtain ⟨r'', hr'', hsame''⟩ := connector_stays_same hdb hr'
    exact ⟨r'', hr'', hsame'.trans hsame''⟩
  known {c r} hother hr := by
    rw [hrows] at hr
    split at hr
    · rename_i hc
      subst hc
      cases hr
      obtain ⟨r₀, hr₀, hsame₀⟩ := h.known hother hstored
      exact ⟨r₀, hr₀, hsame₀.trans hsame⟩
    · exact h.known hother hr
  held c r hr hstatus := by
    rw [hrows] at hr
    split at hr
    · rename_i hc
      subst hc
      cases hr
      exact hvalidated hstatus
    · exact h.held c r hr hstatus

theorem VerdictKept.of_tx (htx : Tx rq s) (hdb : db'.toRows = s.contents db) (hin : s.InSync db)
    (hregistered : AdapterRegistered rq db₀)
    (h : VerdictKept rq db₀ (fun c => (verdict rq db₀ c).or (last c)) db) :
    VerdictKept rq db₀ (fun c => (verdict rq db₀ c).or (last c)) db' := by
  cases htx.connector with
  | quiet hq =>
    refine ⟨fun hr => ?_, fun hother hr => ?_, fun c r hr => ?_⟩
    · rw [hq.same hdb]
      exact h.same hr
    · rw [hq.same hdb] at hr
      exact h.known hother hr
    · rw [hq.same hdb] at hr
      exact h.held c r hr
  | @create caller payload request valid =>
    obtain ⟨hnew, hrows, -⟩ := created hdb
    have hnew₀ : db₀.connector (rq.env.uuid4 0) = none := by
      cases hr₀ : db₀.connector (rq.env.uuid4 0) with
      | none => rfl
      | some r₀ =>
        obtain ⟨r, hr, -⟩ := h.same hr₀
        rw [hnew] at hr
        cases hr
    refine ⟨fun hr => ?_, fun hother => absurd request (hother _ _), fun c r hr hstatus => ?_⟩
    · obtain ⟨r, hr', hsame⟩ := h.same hr
      obtain ⟨r', hr'', hsame'⟩ := connector_stays_same hdb hr'
      exact ⟨r', hr'', hsame.trans hsame'⟩
    · rw [hrows] at hr
      split at hr
      · rename_i hc
        subst hc
        rw [AdapterRegistered, request] at hregistered
        simp only [verdict, request, hnew₀, true_and]
        rw [if_pos hregistered, valid]
        rfl
      · exact h.held c r hr hstatus
  | @transition base ask record tr clean held tenant asked edge reason =>
    obtain ⟨hstored, hrows, -⟩ := hin.of_writing.written clean held.loaded rfl
      (advance_id ..) merge_advance hdb
    refine h.written hdb hstored hrows advance_same fun hstatus => ?_
    rw [advance_status] at hstatus
    obtain ⟨hrq, hvalid⟩ := asked_validated asked edge hstatus
    obtain ⟨r₀, hr₀, hsame⟩ := h.known (by rw [hrq]; simp) hstored
    have hkind : r₀.kind ∈ registeredKinds := by
      rw [AdapterRegistered, hrq] at hregistered
      exact hregistered r₀ hr₀ (hsame.tenantId.symm.trans tenant)
    have htenant : r₀.tenantId = ask.caller.tenantId := hsame.tenantId.symm.trans tenant
    simp only [verdict, hrq, hr₀, htenant, hkind, and_self, if_true]
    rw [hsame.kind, hsame.config] at hvalid
    rw [hvalid]
    rfl
  | @touch base caller id record report request clean held =>
    obtain ⟨hstored, hrows, -⟩ := hin.of_writing.written clean held.loaded rfl (by rfl)
      merge_withCapability hdb
    exact h.written hdb hstored hrows ⟨rfl, rfl, rfl, rfl, rfl⟩ (h.held id record hstored)
  | @delete base caller id inst request clean held locked pending =>
    obtain ⟨hstored, hrows, -⟩ := hin.of_writing.written clean ⟨_, held, rfl⟩ rfl (by rfl)
      merge_withDeletionRequested hdb
    refine h.written hdb hstored hrows ⟨rfl, rfl, rfl, rfl, rfl⟩ fun hstatus => ?_
    cases hstatus

end Commit

/-- A request that does not fail a VALIDATED connector keeps the verdicts. -/
theorem verdicts_served {i : Nat} {rq : Incoming} {st : Store} {last : Uuid → Option Bool}
    (h : VerdictsHold last st.db) (hspared : ¬ FailsValidated rq st.db) :
    VerdictsHold (fun c => (verdict rq st.db c).or (last c)) (served i rq st).db := by
  by_cases hregistered : AdapterRegistered rq st.db
  · have hbefore : VerdictsHold (fun c => (verdict rq st.db c).or (last c)) st.db := by
      intro c r hr hstatus
      cases hverdict : verdict rq st.db c with
      | none =>
        simp only [hverdict, Option.none_or]
        exact h c r hr hstatus
      | some valid =>
        cases valid with
        | true => simp [hverdict]
        | false => exact absurd ⟨c, r, hverdict, hr, hstatus⟩ hspared
    exact (served_invariant (fun htx hdb hin hW => hW.of_tx htx hdb hin hregistered)
      (⟨fun hr => ⟨_, hr, .refl _⟩, fun _ hr => ⟨_, hr, .refl _⟩, hbefore⟩ :
        VerdictKept rq st.db (fun c => (verdict rq st.db c).or (last c)) st.db)).held
  · obtain ⟨hserved, hnone⟩ := served_unregistered (i := i) hregistered
    intro c r hr hstatus
    rw [hserved] at hr
    simp only [hnone, Option.none_or]
    exact h c r hr hstatus

theorem verdicts_serveAll {i : Nat} {reqs : List Incoming} {st : Store}
    {last : Uuid → Option Bool} (h : VerdictsHold last st.db)
    (hspared : EachMeets (fun rq db => ¬ FailsValidated rq db) i reqs st) :
    VerdictsHold (lastVerdict i reqs st last) (serveAll i reqs st).db := by
  induction reqs generalizing i st last with
  | nil => exact h
  | cons rq rest ih => exact ih (verdicts_served h hspared.1) hspared.2

/-- **VALIDATED means the last validation passed**: in every sequence of requests executed one at a
    time in which no validation fails a VALIDATED connector, each connector that ends VALIDATED has
    `valid` as its latest verdict; one whose latest verdict is `invalid` does not end VALIDATED. -/
theorem validated_means_valid (reqs : List Incoming)
    (h : EachMeets (fun rq db => ¬ FailsValidated rq db) 0 reqs { db := Db.empty }) :
    ∀ c r, (serveAll 0 reqs { db := Db.empty }).db.connector c = some r →
      (r.status = .validated → lastVerdict 0 reqs { db := Db.empty } (fun _ => none) c = some true) ∧
      (lastVerdict 0 reqs { db := Db.empty } (fun _ => none) c = some false →
        r.status ≠ .validated) := by
  have hempty : VerdictsHold (fun _ => none) Db.empty := fun c r hr => by cases hr
  have hheld := verdicts_serveAll hempty h
  intro c r hr
  refine ⟨hheld c r hr, fun hfalse hstatus => ?_⟩
  rw [hheld c r hr hstatus] at hfalse
  cases hfalse

/-- An environment whose adapters find every configuration invalid. -/
def refusingEnv (base : Nat) : Env :=
  { sampleEnv base with
    validateConfig := fun _ _ => { valid := false, errors := ["base_url is not permitted"] } }

/-- A connector fails its validation before it passes one. -/
def failsThenPasses : List Incoming :=
  [sampleConfigured, ⟨refusingEnv 10, .validateConnector sampleCaller 0⟩,
    ⟨sampleEnv 20, .validateConnector sampleCaller 0⟩]

theorem not_failsValidated_of_valid {rq : Incoming} {db : Db}
    (h : ∀ kind config, (rq.env.validateConfig kind config).valid = true) :
    ¬ FailsValidated rq db := by
  rintro ⟨c, r, hverdict, -⟩
  unfold verdict at hverdict
  split at hverdict
  · split at hverdict
    · simp [h] at hverdict
    · cases hverdict
  · split at hverdict
    · split at hverdict
      · simp [h] at hverdict
      · cases hverdict
    · cases hverdict
  · cases hverdict

theorem not_failsValidated_of_status {rq : Incoming} {db : Db} {caller : CallerIdentity} {id : Uuid}
    {s : ConnectorState} (hrq : rq.request = .validateConnector caller id)
    (h : (db.connector id).map (·.status) = some s) (hne : s ≠ .validated) :
    ¬ FailsValidated rq db := by
  rintro ⟨c, r, hverdict, hr, hstatus⟩
  obtain ⟨record, hrow, rfl⟩ := Option.map_eq_some_iff.mp h
  simp only [verdict, hrq, hrow] at hverdict
  split at hverdict
  · rename_i hc
    rw [hc.1, hrow, Option.some.injEq] at hr
    subst hr
    exact hne hstatus
  · cases hverdict

set_option maxRecDepth 10000 in
theorem validated_means_valid_failsThenPasses :
    (serveAll 0 failsThenPasses { db := Db.empty }).db.connector 0 ≠ none ∧
      ∀ r, (serveAll 0 failsThenPasses { db := Db.empty }).db.connector 0 = some r →
        r.status = .validated →
        lastVerdict 0 failsThenPasses { db := Db.empty } (fun _ => none) 0 = some true := by
  refine ⟨by decide +kernel, fun r hr => ?_⟩
  refine (validated_means_valid failsThenPasses ⟨?_, ?_, ?_, trivial⟩ 0 r hr).1
  · exact not_failsValidated_of_valid fun _ _ => rfl
  · exact not_failsValidated_of_status rfl (s := .configured) (by decide +kernel) (by decide)
  · exact not_failsValidated_of_valid fun _ _ => rfl

/-- A VALIDATED connector fails its next validation. -/
def passesThenFails : List Incoming :=
  [sampleConfigured, ⟨sampleEnv 10, .validateConnector sampleCaller 0⟩,
    ⟨refusingEnv 20, .validateConnector sampleCaller 0⟩]

set_option maxRecDepth 10000 in
/-- The failing verdict is refused as a transition and the connector stays VALIDATED. -/
theorem failed_validation_stays_validated :
    ¬ ∀ c r, (serveAll 0 passesThenFails { db := Db.empty }).db.connector c = some r →
      r.status = .validated →
      lastVerdict 0 passesThenFails { db := Db.empty } (fun _ => none) c = some true := by
  intro h
  have hstatus : ((serveAll 0 passesThenFails { db := Db.empty }).db.connector 0).map
      (·.status) = some .validated := by
    decide +kernel
  have hlast : lastVerdict 0 passesThenFails { db := Db.empty } (fun _ => none) 0 =
      some false := by
    decide +kernel
  obtain ⟨r, hr, hvalidated⟩ := Option.map_eq_some_iff.mp hstatus
  rw [h 0 r hr hvalidated] at hlast
  cases hlast

end FavlGateway.Registry
