/-
  When revocation prevents new use, and when it comes too late.

  `check_executable` looks at the connector as the invoke request READ it, with a plain SELECT that
  takes no lock; the row is inserted several awaits later, and nothing looks again.  So an invocation
  is accepted while its connector is ENABLED exactly if the status the request read is still the
  stored one (`Overtaken` says that it is not), and a revocation, a disable or a DELETE that commits
  in between does not stop the invocation it was meant to stop.

  What the code does guarantee is the rest: if no commit takes a connector out of ENABLED while an
  invoke request stands between its check and its insert, then what such a request has read as
  ENABLED is ENABLED, in every reachable state.
-/
import FavlGateway.Registry.Ownership

namespace FavlGateway.Registry

open FavlGateway.Library

/-! ## Between the check and the insert -/

/-- The session reads the connector as ENABLED, and the stored row says otherwise. -/
def Session.Overtaken (s : Session) (db : Db) (c : Uuid) : Prop :=
  ∃ r stored, s.Holds c r ∧ r.status = .enabled ∧ db.connector c = some stored ∧
    stored.status ≠ .enabled

/-- The request is to invoke `c`, has read it as ENABLED, and has inserted no invocation yet. -/
def Incoming.HasChecked (rq : Incoming) (s : Session) (c : Uuid) : Prop :=
  rq.request.invoked = some c ∧ s.inserted = [] ∧ ∃ r, s.Holds c r ∧ r.status = .enabled

/-- The commit takes no connector out of ENABLED while another request stands between its check of
    that connector and its insert. -/
def OvertakesNobody (reqs : Nat → Incoming) (i : Nat) (ss : Nat → Session) (db db' : Db) : Prop :=
  ∀ c r r', db.connector c = some r → r.status = .enabled → db'.connector c = some r' →
    r'.status ≠ .enabled → ∀ j, j ≠ i → ¬ (reqs j).HasChecked (ss j) c

section Commit

variable {rq : Incoming} {s : Session} {db db' : Db}

theorem Request.invoked_of_asked {env : Env} {record : ConnectorRecord} {request : Request}
    {ask : Ask} (h : request.asked env record = some ask) : request.invoked = none := by
  cases request <;> first | rfl | cases h

/-- An invoke request writes no connector. -/
theorem Tx.quiet_of_invoked (htx : Tx rq s) {c : Uuid} (h : rq.request.invoked = some c) :
    ConnectorQuiet s := by
  cases htx.connector with
  | quiet hq => exact hq
  | create request valid =>
    rw [request] at h
    cases h
  | transition clean held tenant asked edge reason =>
    rw [Request.invoked_of_asked asked] at h
    cases h
  | touch report request clean held =>
    rw [request] at h
    cases h
  | delete request clean held locked pending =>
    rw [request] at h
    cases h

/-- A new row is one that was just accepted, of a connector the session reads as ENABLED. -/
theorem Tx.inserts (htx : Tx rq s) (hdb : db'.toRows = s.contents db) {v : InvocationRecord}
    (hv : v ∈ db'.invocations) (hnew : db.invocation v.id = none) :
    v.status = .accepted ∧ rq.request.invoked = some v.connectorId ∧ s.inserted = [] ∧
      ∃ r, s.Holds v.connectorId r ∧ r.status = .enabled := by
  have hv' : db'.invocation v.id = some v := Db.invocation_of_mem hv
  have written : ∀ {base : Session} {record current : InvocationRecord} {e : OutboxEvent},
      base.Clean → base.HoldsInvocation record.id record →
      db'.toRows = (base.writingInvocation record.id current { outbox := [e] }).contents db →
      False := by
    intro base record current e clean held hdb
    obtain ⟨hrows, -⟩ := clean.writtenInvocation held.loaded hdb
    rw [hrows] at hv'
    split at hv'
    · rename_i hid
      rw [← hid, hnew] at hv'
      cases hv'
    · rw [hnew] at hv'
      cases hv'
  cases htx.invocation with
  | quiet hq =>
    rw [hq.same hdb, hnew] at hv'
    cases hv'
  | accept invoked args_eq clean first held enabled tenant =>
    obtain ⟨-, hrows, -⟩ := clean.accepted hdb
    rw [hrows] at hv'
    split at hv'
    · cases hv'
      exact ⟨rfl, invoked, first, _, held, enabled⟩
    · rw [hnew] at hv'
      cases hv'
  | start clean held own accepted => exact (written clean held hdb).elim
  | finish clean held own inFlight terminal => exact (written clean held hdb).elim

end Commit

/-! ## Rows that were read -/

/-- What a session has loaded exists. -/
theorem loaded_exists_invariant (reqs : Nat → Incoming) :
    RegistryInvariant reqs (fun _ _ _ _ => True) (fun _ => True) fun _ s db =>
      ∀ c r, s.Loaded c r → ∃ stored, db.connector c = some stored :=
  .of_loaded (fun _ h => ⟨_, h⟩) fun {i ss db db'} htx hdb _ _ hK => by
    have keep : ∀ c, (∃ stored, db.connector c = some stored) →
        ∃ stored, db'.connector c = some stored := fun c ⟨_, h⟩ => connector_stays hdb h
    refine ⟨trivial, fun c r h => ?_, fun c r h => keep c h⟩
    rcases htx.loaded_committed hdb h with ⟨r', hr', -⟩ | hstored
    · exact keep c (hK i c r' hr')
    · exact ⟨r, hstored⟩

theorem reaches_loaded_exists {reqs : Nat → Incoming} {db₀ : Db}
    {sys : System RegistryOp Session World Exc Response}
    (h : registryMachine.Reaches Machine.Any (registry db₀ reqs) sys) {i : Nat} {c : Uuid}
    {r : ConnectorRecord} (hr : (sys.sessions i).Loaded c r) :
    ∃ stored, sys.world.db.connector c = some stored :=
  ((loaded_exists_invariant reqs).reaches trivial
    (h.mono (D := CommitsMeet fun _ _ _ _ => True) fun _ _ _ _ _ => trivial)).2 i c r hr

/-- Where nobody is overtaken, what an invoke request has checked is so. -/
theorem checked_invariant (reqs : Nat → Incoming) :
    RegistryInvariant reqs (OvertakesNobody reqs) (fun _ => True) fun j s db =>
      ∀ c, (reqs j).HasChecked s c → ∃ stored, db.connector c = some stored ∧
        stored.status = .enabled where
  fresh j db c h := by
    obtain ⟨-, -, r, hr, -⟩ := h
    exact (Session.fresh_loaded hr.loaded).elim
  refreshed {j s s' db} href _ hK c h := by
    obtain ⟨hinv, hins, r, hr, henabled⟩ := h
    rcases href.inserted with hsame | rfl
    · rcases href.readable hr with hold | hrow
      · exact hK c ⟨hinv, hsame ▸ hins, r, hold, henabled⟩
      · exact ⟨r, hrow, henabled⟩
    · exact (Session.fresh_loaded hr.loaded).elim
  commit {i ss db db'} htx hdb hcond _ hK := by
    refine ⟨trivial, fun c h => ?_, fun j hj c h => ?_⟩
    · obtain ⟨hinv, hins, r, hr, henabled⟩ := h
      have hq := htx.quiet_of_invoked hinv
      rw [hq.same hdb]
      refine hK i c ⟨hinv, ?_, r, hq.readable hr, henabled⟩
      exact (List.append_eq_nil_iff.mp hins).1
    · obtain ⟨stored, hstored, henabled⟩ := hK j c h
      obtain ⟨stored', hstored'⟩ := connector_stays hdb hstored
      refine ⟨stored', hstored', ?_⟩
      by_contra hne
      refine hcond ?_ c stored stored' hstored henabled hstored' hne j hj h
      rintro rfl
      rw [hstored, Option.some.injEq] at hstored'
      exact hne (hstored' ▸ henabled)

/-! ## The theorem -/

/-- The connector is stored as ENABLED. -/
def Db.Enabled (db : Db) (c : Uuid) : Prop :=
  ∃ r, db.connector c = some r ∧ r.status = .enabled

/-- **When revocation prevents new use.**  In any run, the step that commits an invocation commits
    it as ACCEPTED, and does so while its connector is ENABLED exactly if the committing request was
    not overtaken.  In a run where no commit takes a connector out of ENABLED between another
    request's check and its insert, that is always so.  And whatever the run, an adapter is only
    ever called for a row the calling request inserted. -/
theorem accepted_while_enabled (reqs : Nat → Incoming) :
    (∀ sys i sys', registryMachine.Reaches Machine.Any (registry Db.empty reqs) sys →
      registryMachine.Step sys i sys' → ∀ v ∈ sys'.world.db.invocations,
        sys.world.db.invocation v.id = none → v.status = .accepted ∧
          (sys'.world.db.Enabled v.connectorId ↔
            ¬ (sys.sessions i).Overtaken sys.world.db v.connectorId)) ∧
    (∀ sys i sys',
      registryMachine.Reaches (CommitsMeet (OvertakesNobody reqs)) (registry Db.empty reqs) sys →
      registryMachine.Step sys i sys' → ∀ v ∈ sys'.world.db.invocations,
        sys.world.db.invocation v.id = none → sys'.world.db.Enabled v.connectorId) ∧
    (∀ sys, registryMachine.Reaches Machine.Any (registry Db.empty reqs) sys →
      ∀ i request context, (i, .invoke request context) ∈ sys.world.calls →
        (i, request.invocationId) ∈ sys.world.inserts) := by
  refine ⟨fun sys i sys' h hs v hv hnew => ?_, fun sys i sys' h hs v hv hnew => ?_,
    fun sys h i request context hcall => ((reaches_owned h).1.calls hcall).1⟩
  · rcases registry_step h hs with ⟨hdb, -⟩ | ⟨htx, hdb, -⟩
    · rw [hdb] at hv
      rw [Db.invocation_of_mem hv] at hnew
      cases hnew
    · obtain ⟨haccepted, hinv, -, r, hr, henabled⟩ := htx.inserts hdb hv hnew
      obtain ⟨stored, hstored⟩ := reaches_loaded_exists h hr.loaded
      refine ⟨haccepted, ?_⟩
      rw [Db.Enabled, (htx.quiet_of_invoked hinv).same hdb]
      constructor
      · rintro ⟨r', hr', henabled'⟩ ⟨-, stored', -, -, hstored', hne⟩
        rw [hr', Option.some.injEq] at hstored'
        exact hne (hstored' ▸ henabled')
      · intro hover
        refine ⟨stored, hstored, ?_⟩
        by_contra hne
        exact hover ⟨r, stored, hr, henabled, hstored, hne⟩
  · rcases registry_step h hs with ⟨hdb, -⟩ | ⟨htx, hdb, -⟩
    · rw [hdb] at hv
      rw [Db.invocation_of_mem hv] at hnew
      cases hnew
    · obtain ⟨-, hinv, hins, hr⟩ := htx.inserts hdb hv hnew
      rw [Db.Enabled, (htx.quiet_of_invoked hinv).same hdb]
      exact ((checked_invariant reqs).reaches trivial h).2 i _ ⟨hinv, hins, hr⟩

/-! ## The overtaken invocation -/

/-- An invocation reads the connector, then a revocation commits, then the invocation goes on. -/
def revocationRace : Nat → Incoming
  | 0 => sampleEnabled
  | 1 => ⟨sampleEnv 10, .invokeConnectorV1 sampleCaller 0 sampleInvocation none none⟩
  | _ => ⟨sampleEnv 20, .revokeConnector sampleCaller 0 (some sampleReason)⟩

/-- It is not the revocation's turn while the invocation stands between its check and its insert. -/
def revokesNobody (sys : System RegistryOp Session World Exc Response) (i : Nat) : Bool :=
  i = 1 || ((sys.sessions 1).connectors 0).isNone || !(sys.sessions 1).inserted.isEmpty

theorem overtakesNobody_of_revokesNobody (sys : System RegistryOp Session World Exc Response)
    (i : Nat) (sys' : System RegistryOp Session World Exc Response)
    (h : revokesNobody sys i = true) :
    CommitsMeet (OvertakesNobody revocationRace) sys i sys' := by
  rintro - c r r' - - - - j hj ⟨hinvoked, hinserted, r, ⟨inst, hinst, -⟩, -⟩
  have hone : j = 1 ∧ c = 0 := by
    rcases j with _ | _ | n
    · cases hinvoked
    · exact ⟨rfl, (Option.some.inj hinvoked).symm⟩
    · cases hinvoked
  obtain ⟨rfl, rfl⟩ := hone
  simp only [revokesNobody, Bool.or_eq_true, decide_eq_true_eq] at h
  rcases h with (rfl | hnone) | hsome
  · exact hj rfl
  · rw [hinst] at hnone
    cases hnone
  · rw [hinserted] at hsome
    cases hsome

set_option maxRecDepth 10000 in
/-- A revocation that commits after the insert, and before the adapter is called, overtakes nobody:
    the invocation was accepted while its connector was ENABLED. -/
theorem accepted_while_enabled_revokedAfter :
    let sys := registryMachine.schedule (List.replicate 9 0 ++ List.replicate 5 1)
      (registry Db.empty revocationRace)
    let sys' := registryMachine.advance sys 1
    let sys'' := registryMachine.schedule (List.replicate 7 2 ++ List.replicate 7 1) sys'
    registryMachine.Reaches (CommitsMeet (OvertakesNobody revocationRace))
        (registry Db.empty revocationRace) sys ∧
      registryMachine.Reaches (CommitsMeet (OvertakesNobody revocationRace)) sys' sys'' ∧
      sys.world.db.invocations = [] ∧ sys'.world.db.invocations.map (·.id) = [10] ∧
      (∀ v ∈ sys'.world.db.invocations, sys'.world.db.Enabled v.connectorId) ∧
      sys''.world.db.connectors.map (·.status) = [.revoked] ∧
      sys''.world.calls.length = sys'.world.calls.length + 1 := by
  intro sys sys' sys''
  obtain ⟨hinvoked, hnone, hone, hthen, hrevoked, hcalls⟩ :
      registryMachine.scheduleChecked revokesNobody (List.replicate 9 0 ++ List.replicate 5 1)
          (registry Db.empty revocationRace) = true ∧
        sys.world.db.invocations = [] ∧ sys'.world.db.invocations.map (·.id) = [10] ∧
        registryMachine.scheduleChecked revokesNobody
          (List.replicate 7 2 ++ List.replicate 7 1) sys' = true ∧
        sys''.world.db.connectors.map (·.status) = [.revoked] ∧
        sys''.world.calls.length = sys'.world.calls.length + 1 := by
    decide +kernel
  have hreach : registryMachine.Reaches (CommitsMeet (OvertakesNobody revocationRace))
      (registry Db.empty revocationRace) sys :=
    Machine.reaches_scheduleChecked overtakesNobody_of_revokesNobody _ _ hinvoked
  refine ⟨hreach, Machine.reaches_scheduleChecked overtakesNobody_of_revokesNobody _ _ hthen, hnone,
    hone, fun v hv => ?_, hrevoked, hcalls⟩
  have hs : registryMachine.Step sys 1 sys' := by
    refine (Machine.step_advance (M := registryMachine) sys 1).resolve_left fun hsame => ?_
    have hsame' : sys' = sys := hsame
    rw [hsame', hnone] at hone
    cases hone
  refine (accepted_while_enabled revocationRace).2.1 sys 1 sys' hreach hs v hv ?_
  rw [Db.invocation, hnone]
  rfl

set_option maxRecDepth 10000 in
/-- The revocation is committed with no invocation in sight; then one is accepted, and the adapter
    called for it. -/
theorem invocation_accepted_after_revocation :
    let sys := registryMachine.schedule
      (List.replicate 9 0 ++ List.replicate 2 1 ++ List.replicate 7 2)
      (registry Db.empty revocationRace)
    let sys' := registryMachine.schedule (List.replicate 14 1) sys
    registryMachine.Reaches Machine.Any (registry Db.empty revocationRace) sys ∧
      registryMachine.Reaches Machine.Any sys sys' ∧
      sys.world.db.connectors.map (·.status) = [.revoked] ∧ sys.world.db.invocations = [] ∧
      sys'.world.db.connectors.map (·.status) = [.revoked] ∧
      sys'.world.db.invocations.map (fun v => (v.connectorId, v.id)) = [(0, 10)] ∧
      sys'.world.calls.length = sys.world.calls.length + 1 := by
  refine ⟨Machine.reaches_schedule _ _, Machine.reaches_schedule _ _, ?_, ?_, ?_, ?_, ?_⟩
  · decide +kernel
  · decide +kernel
  · decide +kernel
  · decide +kernel
  · decide +kernel

end FavlGateway.Registry
