/-
  Two agreements between the registry and the orchestrator.

  The orchestrator calls everything below 400 completed, and reads `error_code` at the top level of
  the body.  An entry that is completed is one that succeeded unless the key's invocation was still in
  flight; an error code survives unless the call was refused.
-/
import FavlGateway.Orchestrator.FanOut
import FavlGateway.Orchestrator.RegistryCalls

namespace FavlGateway.Orchestrator

open FavlGateway.Library
open FavlGateway.Registry
  (Uuid InvocationRecord ConnectorKind RegistryOp httpStatusFor jsonStr uuidText)

/-! ## What is reported completed -/

/-- The entry reports completed work. -/
def Completed (entry : Dict String) : Prop := entry.get? "status" = some (jsonStr "completed")

instance (entry : Dict String) : Decidable (Completed entry) :=
  inferInstanceAs (Decidable (_ = _))

/-- The answer is the reply for an invocation that succeeded. -/
def Answer.Succeeded : Answer → Prop
  | internal call => ∃ v, call.response.body = .internalInvocation v ∧ v.status = .succeeded
  | _ => False

/-- The key of the call has no invocation that is still in flight; a reply of another endpoint is a
    failure that does not call itself completed. -/
def Answer.Settled : Answer → Prop
  | internal call => ∀ existing, call.log.found = some existing → existing.status.inFlight = false
  | elsewhere reply => 400 ≤ reply.statusCode ∧ ∀ body : Dict String,
      reply.json = some (.obj body) → body.get? "status" ≠ some (jsonStr "completed")
  | _ => True

section Entry

variable {connectorId : String} {entry : Dict String}

/-- A failure is completed if its body says so. -/
theorem fanOutEntry_failure {reply : Reply} (hfailed : 400 ≤ reply.statusCode)
    (h : fanOutEntry connectorId (.reply reply) = .ok entry) :
    ∃ body, reply.json.getD (.obj []) = .obj body ∧
      entry = failureEntry connectorId reply.statusCode body := by
  simp only [fanOutEntry, if_pos hfailed] at h
  split at h
  · rename_i body hbody
    exact ⟨body, hbody, (Except.ok.inj h).symm⟩
  · cases h

theorem failureEntry_completed {statusCode : Nat} {body : Dict String} :
    Completed (failureEntry connectorId statusCode body) ↔
      body.get? "status" = some (jsonStr "completed") := by
  show some ((body.get? "status").getD (jsonStr "failed")) = some (jsonStr "completed") ↔ _
  cases body.get? "status" with
  | none => exact iff_of_false (by decide) (by decide)
  | some status => exact Iff.rfl

/-- Anything below 400 is completed. -/
theorem fanOutEntry_completed {reply : Reply} (hbelow : reply.statusCode < 400)
    (h : fanOutEntry connectorId (.reply reply) = .ok entry) : Completed entry := by
  simp only [fanOutEntry, if_neg (Nat.not_le.mpr hbelow)] at h
  split at h
  · cases h
  · cases h
    rfl

theorem fanOutEntry_unreachable {text : String}
    (h : fanOutEntry connectorId (.httpError text) = .ok entry) : ¬ Completed entry := by
  cases h
  show ¬ (some (jsonStr "failed") = some (jsonStr "completed"))
  decide

end Entry

/-! ### The internal endpoint's answers -/

section Internal

variable {connectorId : String} {entry : Dict String} {id : Uuid} {record : InvocationRecord}
  {kind : ConnectorKind}

theorem toString?_of_storable (text : PyStr) (h : Registry.PyStr.storable text = true) :
    text.toString?.isSome = true := by
  unfold Registry.PyStr.storable at h
  unfold PyStr.toString?
  split
  · rename_i hsurrogate
    obtain ⟨c, hc, hbad⟩ := List.any_eq_true.mp hsurrogate
    have hgood := List.all_eq_true.mp h c hc
    simp only [decide_eq_true_eq] at hgood hbad
    exact absurd hbad hgood.2
  · rfl

/-- A stored output can be sent. -/
theorem outputJson_of_fits (h : record.fits = true) : (outputJson record.output).isSome = true := by
  cases houtput : record.output with
  | none => rfl
  | some output =>
    have hstorable : (Json.obj output).storable Registry.PyStr.storable = true := by
      simp only [InvocationRecord.fits, Bool.and_eq_true, houtput, Registry.nullable] at h
      exact h.1.2
    exact Json.render_isSome toString?_of_storable _ hstorable

/-- What the wire carries of a reply: its body under its status code, or a server error. -/
theorem wire_invocationReply (id : Uuid) (record : InvocationRecord) (kind : ConnectorKind) :
    (∃ output, wire (invocationReply id record kind) = ⟨httpStatusFor record, some (.obj
        [("invocation_id", jsonStr (uuidText record.id)), ("connector_id", jsonStr (uuidText id)),
          ("connector_kind", jsonStr kind.value), ("status", jsonStr record.status.value),
          ("error_code", .ofOption (fun c => jsonStr c.value) record.errorCode),
          ("retryable", .ofOption .bool record.retryable), ("output", output)])⟩ ∧
        outputJson record.output = some output) ∨
      wire (invocationReply id record kind) = ⟨500, none⟩ ∧ outputJson record.output = none := by
  cases houtput : outputJson record.output with
  | none =>
    refine .inr ⟨?_, rfl⟩
    simp only [wire, invocationReply, internalJson, houtput, Option.map_none]
  | some output =>
    refine .inl ⟨output, ?_, rfl⟩
    simp only [wire, invocationReply, internalJson, houtput, Option.map_some]

theorem status_value_ne_completed (status : Registry.InvocationStatus) :
    jsonStr status.value ≠ jsonStr "completed" := by
  cases status <;> decide

theorem httpStatusFor_below :
    httpStatusFor record < 400 ↔ record.status = .succeeded ∨ record.status.inFlight = true := by
  unfold httpStatusFor
  cases record.status <;> decide

/-- A reply that is reported completed is one for an invocation that succeeded or is in flight. -/
theorem reply_completed
    (h : fanOutEntry connectorId (.reply (wire (invocationReply id record kind))) = .ok entry)
    (hcompleted : Completed entry) :
    record.status = .succeeded ∨ record.status.inFlight = true := by
  rcases wire_invocationReply id record kind with
    ⟨output, hwire, -⟩ | ⟨hwire, -⟩
  · rw [hwire] at h
    rcases Nat.lt_or_ge (httpStatusFor record) 400 with hbelow | hfailed
    · exact httpStatusFor_below.mp hbelow
    · obtain ⟨body, hbody, rfl⟩ := fanOutEntry_failure hfailed h
      cases hbody
      have hstatus := Option.some.inj (failureEntry_completed.mp hcompleted)
      exact absurd hstatus (status_value_ne_completed _)
  · rw [hwire] at h
    obtain ⟨body, hbody, rfl⟩ := fanOutEntry_failure (by decide) h
    cases hbody
    cases failureEntry_completed.mp hcompleted

/-- The reply for a stored invocation in flight is reported completed. -/
theorem reply_in_flight (hfits : record.fits = true) (hflight : record.status.inFlight = true)
    (h : fanOutEntry connectorId (.reply (wire (invocationReply id record kind))) = .ok entry) :
    Completed entry := by
  refine fanOutEntry_completed ?_ h
  rcases wire_invocationReply id record kind with
    ⟨output, hwire, -⟩ | ⟨-, hnone⟩
  · rw [hwire]
    exact httpStatusFor_below.mpr (.inr hflight)
  · have hsome := outputJson_of_fits hfits
    rw [hnone] at hsome
    cases hsome

/-- A failure without a `status` of its own is not completed. -/
theorem failure_not_completed {reply : Reply} {body : Dict String} (hfailed : 400 ≤ reply.statusCode)
    (hjson : reply.json.getD (.obj []) = .obj body) (hstatus : body.get? "status" = none)
    (h : fanOutEntry connectorId (.reply reply) = .ok entry) : ¬ Completed entry := by
  intro hcompleted
  obtain ⟨body', hbody, rfl⟩ := fanOutEntry_failure hfailed h
  rw [hjson] at hbody
  cases hbody
  rw [failureEntry_completed, hstatus] at hcompleted
  cases hcompleted

/-- One call: its entry is completed only for success, exactly if the key was settled. -/
theorem InternalEnd.completed_iff {env : Registry.Env} {token tenantId : String} {log : CallLog}
    {outcome : Except Registry.Exc Registry.Response}
    (hends : InternalEnd env token tenantId id log outcome)
    (h : fanOutEntry connectorId (.reply (wire (respond outcome))) = .ok entry) :
    (Completed entry → ∃ v, (respond outcome).body = .internalInvocation v ∧ v.status = .succeeded) ↔
      ∀ existing, log.found = some existing → existing.status.inFlight = false := by
  have hfree : log.found = none →
      ∀ existing, log.found = some existing → existing.status.inFlight = false := by
    intro hnone existing hfound
    rw [hnone] at hfound
    cases hfound
  cases hends with
  | refused free guarded failed =>
    exact iff_of_true
      (fun hcompleted => absurd hcompleted (failure_not_completed failed rfl rfl h)) (hfree free)
  | @broken e free unhandled =>
    change fanOutEntry connectorId (.reply (wire e.respond)) = .ok entry at h
    rw [unhandled] at h
    exact iff_of_true
      (fun hcompleted => absurd hcompleted (failure_not_completed (by decide) rfl rfl h)) (hfree free)
  | @replayed existing kind admitted found fits =>
    constructor
    · intro hagree other hother
      rw [found] at hother
      cases hother
      cases hflight : existing.status.inFlight with
      | false => rfl
      | true =>
        obtain ⟨v, hbody, hstatus⟩ := hagree (reply_in_flight fits hflight h)
        cases hbody
        change existing.status = .succeeded at hstatus
        rw [hstatus] at hflight
        cases hflight
    · intro hsettled hcompleted
      rcases reply_completed h hcompleted with hstatus | hflight
      · exact ⟨_, rfl, hstatus⟩
      · rw [hsettled existing found] at hflight
        cases hflight
  | @finished record kind admitted free settled =>
    refine iff_of_true (fun hcompleted => ?_) (hfree free)
    rcases reply_completed h hcompleted with hstatus | hflight
    · exact ⟨_, rfl, hstatus⟩
    · rw [settled] at hflight
      cases hflight

end Internal

/-- **A completed entry is one that succeeded, exactly if the key was settled.** -/
theorem Answer.completed_iff (a : Answer) {connectorId : String} {entry : Dict String}
    (h : fanOutEntry connectorId a.outcome = .ok entry) :
    (Completed entry → a.Succeeded) ↔ a.Settled := by
  cases a with
  | internal call => exact (invokeConnectorInternal_ends call.ends).completed_iff h
  | refused statusCode detail failed =>
    exact iff_of_true
      (fun hcompleted => absurd hcompleted (failure_not_completed failed rfl rfl h)) trivial
  | elsewhere reply =>
    have hnever : ((Completed entry → (Answer.elsewhere reply).Succeeded) ↔ ¬ Completed entry) :=
      Iff.rfl
    rw [hnever]
    unfold Answer.Settled
    rcases Nat.lt_or_ge reply.statusCode 400 with hbelow | hfailed
    · refine iff_of_false (fun hnot => hnot (fanOutEntry_completed hbelow h)) ?_
      rintro ⟨hfailed, -⟩
      exact absurd hbelow (Nat.not_lt.mpr hfailed)
    · obtain ⟨body, hbody, rfl⟩ := fanOutEntry_failure hfailed h
      rw [failureEntry_completed]
      constructor
      · refine fun hnot => ⟨hfailed, fun body' hbody' => ?_⟩
        rw [hbody'] at hbody
        cases hbody
        exact hnot
      · rintro ⟨-, hnot⟩ hstatus
        cases hjson : reply.json with
        | none =>
          rw [hjson] at hbody
          cases hbody
          cases hstatus
        | some json =>
          rw [hjson] at hbody
          cases hbody
          exact hnot body hjson hstatus
  | unreachable text =>
    exact iff_of_true (fun hcompleted => absurd hcompleted (fanOutEntry_unreachable h)) trivial
  | raised => cases h

/-! ## What becomes of an error code -/

/-- `error_code`, where it is a text. -/
def errorCodeIn (body : Dict String) : Option String :=
  match body.get? "error_code" with
  | some (.str code) => some code
  | _ => none

/-- The error code of an answer of at least 400: its own, or that of its `detail`. -/
def Reply.errorCode (reply : Reply) : Option String :=
  if reply.statusCode < 400 then none
  else match reply.json with
    | some (.obj body) =>
      match errorCodeIn body, Dict.get? body "detail" with
      | some code, _ => some code
      | none, some (.obj detail) => errorCodeIn detail
      | none, _ => none
    | _ => none

/-- The error code the answer carries. -/
def Answer.errorCode (a : Answer) : Option String :=
  match a.outcome with
  | .reply reply => reply.errorCode
  | _ => none

/-- The internal endpoint admits the call; another endpoint has its error code at the top. -/
def Answer.CodeKept : Answer → Prop
  | internal call => Admitted call.env call.token call.tenantId call.log
  | elsewhere reply => ∃ body, reply.json = some (.obj body) ∧ errorCodeIn body ≠ none
  | _ => False

/-- The entry carries the error code. -/
def Carries (entry : Dict String) (code : String) : Prop :=
  entry.get? "error_code" = some (jsonStr code)

section Code

variable {connectorId code : String} {entry : Dict String} {id : Uuid} {reply : Reply}

theorem errorCodeIn_eq_some {body : Dict String} :
    errorCodeIn body = some code ↔ body.get? "error_code" = some (jsonStr code) := by
  unfold errorCodeIn
  constructor
  · intro h
    split at h
    · rename_i found hfound
      rw [hfound, Option.some.inj h]
      rfl
    · cases h
  · intro h
    rw [h]
    rfl

/-- Of an answer of at least 400 an entry carries the code at the top. -/
theorem failureEntry_carries {statusCode : Nat} {body : Dict String} :
    Carries (failureEntry connectorId statusCode body) code ↔ errorCodeIn body = some code := by
  rw [errorCodeIn_eq_some]
  show some ((body.get? "error_code").getD .null) = some (jsonStr code) ↔ _
  cases body.get? "error_code" with
  | none => exact iff_of_false nofun nofun
  | some found => exact Iff.rfl

/-- **The decoder**: an entry carries the code of its answer exactly if that stands at the top. -/
theorem fanOutEntry_carries (h : fanOutEntry connectorId (.reply reply) = .ok entry)
    (hcode : reply.errorCode = some code) :
    ∃ body, reply.json = some (.obj body) ∧ (Carries entry code ↔ errorCodeIn body ≠ none) := by
  unfold Reply.errorCode at hcode
  split at hcode
  · cases hcode
  rename_i hfailed
  obtain ⟨body, hbody, rfl⟩ := fanOutEntry_failure (Nat.le_of_not_lt hfailed) h
  split at hcode
  · rename_i hjson
    rw [hjson] at hbody
    cases hbody
    refine ⟨body, hjson, ?_⟩
    rw [failureEntry_carries]
    split at hcode
    · rename_i found hfound
      rw [hfound, Option.some.inj hcode]
      exact iff_of_true rfl nofun
    · rename_i hnone _
      rw [hnone]
      exact iff_of_false nofun fun hne => hne rfl
    · cases hcode
  · cases hcode

/-- One call: the entry carries its error code exactly if the call was admitted. -/
theorem InternalEnd.carries_iff {env : Registry.Env} {token tenantId : String} {log : CallLog}
    {outcome : Except Registry.Exc Registry.Response}
    (hends : InternalEnd env token tenantId id log outcome)
    (h : fanOutEntry connectorId (.reply (wire (respond outcome))) = .ok entry)
    (hcode : (wire (respond outcome)).errorCode = some code) :
    Carries entry code ↔ Admitted env token tenantId log := by
  obtain ⟨body, hjson, hcarries⟩ := fanOutEntry_carries h hcode
  rw [hcarries]
  -- a reply for an invocation has no `detail`: its code stands at the top
  have hreply : ∀ (record : InvocationRecord) (kind : ConnectorKind),
      outcome = .ok (invocationReply id record kind) → errorCodeIn body ≠ none := by
    rintro record kind rfl hnone
    change (wire (invocationReply id record kind)).json = _ at hjson
    change (wire (invocationReply id record kind)).errorCode = _ at hcode
    rcases wire_invocationReply id record kind with
      ⟨output, hwire, -⟩ | ⟨hwire, -⟩
    · rw [hwire] at hjson hcode
      cases hjson
      unfold Reply.errorCode at hcode
      split at hcode
      · cases hcode
      · dsimp only at hcode
        rw [hnone] at hcode
        cases hcode
    · rw [hwire] at hjson
      cases hjson
  cases hends with
  | refused free guarded failed =>
    cases hjson
    exact iff_of_false (fun hne => hne rfl) guarded
  | @broken e free unhandled =>
    change (wire e.respond).json = _ at hjson
    rw [unhandled] at hjson
    cases hjson
  | @replayed existing kind admitted found fits =>
    exact iff_of_true (hreply existing kind rfl) admitted
  | @finished record kind admitted free settled =>
    exact iff_of_true (hreply record kind rfl) admitted

end Code

/-- **An entry carries the error code of its answer, exactly if the call was admitted.** -/
theorem Answer.carries_iff (a : Answer) {connectorId code : String} {entry : Dict String}
    (h : fanOutEntry connectorId a.outcome = .ok entry) (hcode : a.errorCode = some code) :
    Carries entry code ↔ a.CodeKept := by
  cases a with
  | internal call => exact (invokeConnectorInternal_ends call.ends).carries_iff h hcode
  | refused statusCode detail failed =>
    obtain ⟨body, hjson, hcarries⟩ := fanOutEntry_carries h hcode
    cases hjson
    rw [hcarries]
    exact iff_of_false (fun hne => hne rfl) id
  | elsewhere reply =>
    obtain ⟨body, hjson, hcarries⟩ := fanOutEntry_carries h hcode
    rw [hcarries]
    constructor
    · exact fun hne => ⟨body, hjson, hne⟩
    · rintro ⟨body', hjson', hne⟩
      rw [hjson] at hjson'
      cases hjson'
      exact hne
  | unreachable text => cases hcode
  | raised => cases hcode

/-! ## The two agreements -/

/-- How the calls end whose answers these are. -/
def outcomes (network : Nat → Nat → Answer) (i n : Nat) : PostOutcome := (network i n).outcome

/-- **'completed' means succeeded, exactly where the key was settled.**  In every state that any
    requests reach, each entry of an `agent.invoked` event and each entry of a response is such that
    if it is completed its answer is the reply for an invocation that succeeded, exactly if the call
    found no invocation of its key in flight. -/
theorem completed_means_succeeded (network : Nat → Nat → Answer) (reqs : Nat → Incoming)
    {sys : System AgentOp Session World Exc Response}
    (h : (orchestratorMachine (outcomes network)).Reaches Machine.Any (orchestrator Db.empty reqs)
      sys) :
    (∀ e ∈ sys.world.db.outbox, e.subject = "agent.invoked" →
      ∃ i agentId outputs, (reqs i).Invokes agentId ∧
        e.payload = invocationResult agentId outputs ∧
        ∀ n entry, outputs[n]? = some entry →
          ((Completed entry → (network i n).Succeeded) ↔ (network i n).Settled)) ∧
    ∀ i statusCode result, (sys.threads i).prog = .ret ⟨statusCode, .invoked result⟩ →
      ∃ agentId outputs, (reqs i).Invokes agentId ∧ result = invocationResult agentId outputs ∧
        ∀ n entry, outputs[n]? = some entry →
          ((Completed entry → (network i n).Succeeded) ↔ (network i n).Settled) := by
  have hentries : ∀ {i outputs}, Entries (outcomes network i) 0 outputs →
      ∀ n entry, outputs[n]? = some entry →
        ((Completed entry → (network i n).Succeeded) ↔ (network i n).Settled) := by
    intro i outputs hall n entry hn
    obtain ⟨connectorId, hentry⟩ := hall n entry hn
    rw [Nat.zero_add] at hentry
    exact (network i n).completed_iff hentry
  constructor
  · intro e he hsubject
    obtain ⟨i, hpublished⟩ := reaches_reported h e he
    obtain ⟨agentId, version, result, hinvokes, rfl, outputs, rfl, hall⟩ := hpublished hsubject
    exact ⟨i, agentId, outputs, hinvokes, rfl, hentries hall⟩
  · intro i statusCode result hreturned
    obtain ⟨agentId, hinvokes, outputs, rfl, hall⟩ := reaches_answered h hreturned
    exact ⟨agentId, outputs, hinvokes, rfl, hentries hall⟩

/-- **An error code survives the hop exactly if the call was admitted.**  In every state that any
    requests reach, of each entry of an `agent.invoked` event and each entry of a response: where the
    answer carries an error code, the entry carries the same, exactly if the internal endpoint admitted
    the call. -/
theorem error_code_survives (network : Nat → Nat → Answer) (reqs : Nat → Incoming)
    {sys : System AgentOp Session World Exc Response}
    (h : (orchestratorMachine (outcomes network)).Reaches Machine.Any (orchestrator Db.empty reqs)
      sys) :
    (∀ e ∈ sys.world.db.outbox, e.subject = "agent.invoked" →
      ∃ i agentId outputs, (reqs i).Invokes agentId ∧
        e.payload = invocationResult agentId outputs ∧
        ∀ n entry code, outputs[n]? = some entry → (network i n).errorCode = some code →
          (Carries entry code ↔ (network i n).CodeKept)) ∧
    ∀ i statusCode result, (sys.threads i).prog = .ret ⟨statusCode, .invoked result⟩ →
      ∃ agentId outputs, (reqs i).Invokes agentId ∧ result = invocationResult agentId outputs ∧
        ∀ n entry code, outputs[n]? = some entry → (network i n).errorCode = some code →
          (Carries entry code ↔ (network i n).CodeKept) := by
  have hentries : ∀ {i outputs}, Entries (outcomes network i) 0 outputs →
      ∀ n entry code, outputs[n]? = some entry → (network i n).errorCode = some code →
        (Carries entry code ↔ (network i n).CodeKept) := by
    intro i outputs hall n entry code hn hcode
    obtain ⟨connectorId, hentry⟩ := hall n entry hn
    rw [Nat.zero_add] at hentry
    exact (network i n).carries_iff hentry hcode
  constructor
  · intro e he hsubject
    obtain ⟨i, hpublished⟩ := reaches_reported h e he
    obtain ⟨agentId, version, result, hinvokes, rfl, outputs, rfl, hall⟩ := hpublished hsubject
    exact ⟨i, agentId, outputs, hinvokes, rfl, hentries hall⟩
  · intro i statusCode result hreturned
    obtain ⟨agentId, hinvokes, outputs, rfl, hall⟩ := reaches_answered h hreturned
    exact ⟨agentId, outputs, hinvokes, rfl, hentries hall⟩

/-! ## Runs of the two services -/

/-- A registry with a mesh token, whose adapters end as `outcome`. -/
def meshEnv (outcome : Registry.AdapterOutcome) (base : Nat) : Registry.Env :=
  { Registry.sampleEnv base with
    internalServiceToken := "mesh"
    invoke := fun _ _ => outcome }

/-- A connector is created; every other request is the same call of the same agent. -/
def meshRequests (first : Registry.Incoming) (outcome : Registry.AdapterOutcome) :
    Nat → Registry.Incoming
  | 0 => first
  | i => ⟨meshEnv outcome (10 * i), .invokeConnectorInternal "mesh" "acme" 0
      [("agent_id", jsonStr (uuidText 0)), ("input", .obj [])]⟩

def meshRun (first : Registry.Incoming) (outcome : Registry.AdapterOutcome) (turns : List Nat) :
    System RegistryOp Registry.Session Registry.World Registry.Exc Registry.Response :=
  Registry.registryMachine.schedule turns
    (Registry.registry Registry.Db.empty (meshRequests first outcome))

/-- What request `i` has been answered. -/
def meshAnswer (first : Registry.Incoming) (outcome : Registry.AdapterOutcome) (turns : List Nat)
    (i : Nat) : Option Registry.Response :=
  ((meshRun first outcome turns).threads i).prog.returned

theorem exists_call {first : Registry.Incoming} {outcome : Registry.AdapterOutcome}
    {turns : List Nat} {i : Nat} {response : Registry.Response}
    (h : meshAnswer first outcome turns (i + 1) = some response) :
    ∃ call : RegistryCall, call.response = response := by
  obtain ⟨call, -, -, -, -, -, hresponse⟩ := RegistryCall.of_run
    (Machine.reaches_schedule turns _) (i := i + 1) rfl (Prog.eq_ret_of_returned h)
  exact ⟨call, hresponse⟩

/-- The reply for the one invocation of these runs. -/
def replyWith (statusCode : Nat) (status : Registry.InvocationStatus)
    (errorCode : Option Registry.ErrorCode) (retryable : Option Bool) : Registry.Response :=
  ⟨statusCode, .internalInvocation ⟨10, 0, .http, status, errorCode, retryable, none⟩⟩

/-- An agent with that connector is created, then invoked. -/
def fanOutRequests : Nat → Incoming
  | 0 => sampleCreate [uuidText 0]
  | i => sampleInvoke (10 * i)

/-- The orchestrator, where every call is answered with `response`. -/
def fanOutRun (response : Registry.Response) : System AgentOp Session World Exc Response :=
  (orchestratorMachine fun _ _ => .reply (wire response)).schedule
    (List.replicate 5 0 ++ List.replicate 9 1) (orchestrator Db.empty fanOutRequests)

theorem reaches_fanOutRun {call : RegistryCall} {response : Registry.Response}
    (h : call.response = response) :
    (orchestratorMachine (outcomes fun _ _ => .internal call)).Reaches Machine.Any
      (orchestrator Db.empty fanOutRequests) (fanOutRun response) := by
  subst h
  exact Machine.reaches_schedule _ _

/-- What the outbox says at the end of such a run. -/
def reported (response : Registry.Response) : List (String × Json String) :=
  (fanOutRun response).world.db.outbox.map fun e => (e.subject, e.payload)

theorem exists_event {response : Registry.Response} {result : Json String}
    (h : ("agent.invoked", result) ∈ reported response) :
    ∃ e ∈ (fanOutRun response).world.db.outbox, e.subject = "agent.invoked" ∧ e.payload = result := by
  obtain ⟨e, he, heq⟩ := List.mem_map.mp h
  obtain ⟨hsubject, hpayload⟩ := Prod.mk.inj heq
  exact ⟨e, he, hsubject, hpayload⟩

theorem invocationResult_single {id id' : Uuid} {outputs : List (Dict String)}
    {entry : Dict String} (h : invocationResult id [entry] = invocationResult id' outputs) :
    outputs = [entry] := by
  unfold invocationResult at h
  have houtputs : ([entry].map Json.obj) = outputs.map Json.obj := by
    simp only [Json.obj.injEq, List.cons.injEq, Prod.mk.injEq, Json.arr.injEq, true_and,
      and_true] at h
    exact h.2
  have hinj : Function.Injective (Json.obj : Dict String → Json String) := fun a b hab =>
    Json.obj.inj hab
  exact (List.map_injective_iff.mpr hinj houtputs).symm

/-- The reply for an invocation that succeeded, and what is reported of it. -/
def succeededReply : Registry.Response := replyWith 200 .succeeded none (some false)

/-- The reply for an invocation that another request is carrying out. -/
def runningReply : Registry.Response := replyWith 202 .running none none

def completedEntry (response : Registry.Response) : Dict String :=
  [("connector_id", jsonStr (uuidText 0)), ("status", jsonStr "completed"),
    ("output", (wire response).json.getD .null)]

def success : Registry.AdapterOutcome := .result { status := .succeeded }

/-- The connector is created, then called once. -/
def oneCall : List Nat := List.replicate 9 0 ++ List.replicate 20 1

/-- The second call arrives while the first is waiting for the adapter. -/
def twoCalls : List Nat := List.replicate 9 0 ++ List.replicate 10 1 ++ List.replicate 5 2

set_option maxRecDepth 10000 in
/-- A call that succeeded was settled. -/
theorem completed_means_succeeded_once :
    ∃ call : RegistryCall, call.response = succeededReply ∧
      ("agent.invoked", invocationResult 0 [completedEntry succeededReply]) ∈
        reported succeededReply ∧ (Answer.internal call).Settled := by
  have hanswer : meshAnswer Registry.sampleEnabled success oneCall 1 = some succeededReply := by
    decide +kernel
  obtain ⟨call, hcall⟩ := exists_call hanswer
  have hevent : ("agent.invoked", invocationResult 0 [completedEntry succeededReply]) ∈
      reported succeededReply := by decide +kernel
  refine ⟨call, hcall, hevent, ?_⟩
  obtain ⟨e, he, hsubject, hpayload⟩ := exists_event hevent
  obtain ⟨i, agentId, outputs, -, hresult, hall⟩ := (completed_means_succeeded
    (fun _ _ => .internal call) fanOutRequests (reaches_fanOutRun hcall)).1 e he hsubject
  rw [hpayload] at hresult
  rw [invocationResult_single hresult] at hall
  refine (hall 0 _ rfl).mp fun _ => ?_
  exact ⟨_, congrArg Registry.Response.body hcall, rfl⟩

set_option maxRecDepth 10000 in
/-- A call that finds its invocation still running is reported completed, in the event too. -/
theorem running_reported_completed :
    ∃ (call : RegistryCall) (entry : Dict String),
      meshAnswer Registry.sampleEnabled success twoCalls 2 = some call.response ∧
      call.response = runningReply ∧ ¬ (Answer.internal call).Succeeded ∧ Completed entry ∧
      (orchestratorMachine (outcomes fun _ _ => .internal call)).Reaches Machine.Any
        (orchestrator Db.empty fanOutRequests) (fanOutRun call.response) ∧
      ("agent.invoked", invocationResult 0 [entry]) ∈ reported call.response := by
  have hanswer : meshAnswer Registry.sampleEnabled success twoCalls 2 = some runningReply := by
    decide +kernel
  obtain ⟨call, hcall⟩ := exists_call hanswer
  refine ⟨call, completedEntry runningReply, ?_, hcall, ?_, rfl, reaches_fanOutRun rfl, ?_⟩
  · rw [hcall]
    exact hanswer
  · rintro ⟨v, hbody, hstatus⟩
    rw [hcall] at hbody
    cases hbody
    cases hstatus
  · rw [hcall]
    decide +kernel

/-- The reply for an invocation whose deadline passed. -/
def timedOutReply : Registry.Response := replyWith 504 .timedOut (some .upstreamTimeout) (some true)

/-- The refusal of a connector that has not been validated. -/
def refusedReply : Registry.Response :=
  ⟨409, .detail (.obj [("error_code", jsonStr "CONNECTOR_NOT_VALIDATED"),
    ("status", jsonStr "configured")])⟩

set_option maxRecDepth 10000 in
/-- The code of a timeout arrives. -/
theorem error_code_survives_timeout :
    ∃ call : RegistryCall, call.response = timedOutReply ∧ (Answer.internal call).CodeKept := by
  have hanswer : meshAnswer Registry.sampleEnabled .timeout oneCall 1 = some timedOutReply := by
    decide +kernel
  obtain ⟨call, hcall⟩ := exists_call hanswer
  refine ⟨call, hcall, ?_⟩
  have hevent : ("agent.invoked", invocationResult 0
      [failureEntry (uuidText 0) 504 [("status", jsonStr "timed_out"),
        ("error_code", jsonStr "UPSTREAM_TIMEOUT"), ("retryable", .bool true)]]) ∈
      reported timedOutReply := by decide +kernel
  obtain ⟨e, he, hsubject, hpayload⟩ := exists_event hevent
  obtain ⟨i, agentId, outputs, -, hresult, hall⟩ := (error_code_survives
    (fun _ _ => .internal call) fanOutRequests (reaches_fanOutRun hcall)).1 e he hsubject
  rw [hpayload] at hresult
  rw [invocationResult_single hresult] at hall
  refine (hall 0 _ "UPSTREAM_TIMEOUT" rfl ?_).mp rfl
  show (wire call.response).errorCode = _
  rw [hcall]
  decide +kernel

set_option maxRecDepth 10000 in
/-- A refusal by lifecycle state loses its code: it stands in `detail`. -/
theorem refusal_loses_code :
    ∃ (call : RegistryCall) (entry : Dict String),
      meshAnswer Registry.sampleConfigured success oneCall 1 = some call.response ∧
      call.response = refusedReply ∧
      (Answer.internal call).errorCode = some "CONNECTOR_NOT_VALIDATED" ∧
      (orchestratorMachine (outcomes fun _ _ => .internal call)).Reaches Machine.Any
        (orchestrator Db.empty fanOutRequests) (fanOutRun call.response) ∧
      ("agent.invoked", invocationResult 0 [entry]) ∈ reported call.response ∧
      entry.get? "error_code" = some .null := by
  have hanswer : meshAnswer Registry.sampleConfigured success oneCall 1 = some refusedReply := by
    decide +kernel
  obtain ⟨call, hcall⟩ := exists_call hanswer
  refine ⟨call, failureEntry (uuidText 0) 409 [], ?_, hcall, ?_, reaches_fanOutRun rfl, ?_, rfl⟩
  · rw [hcall]
    exact hanswer
  · show (wire call.response).errorCode = _
    rw [hcall]
    decide +kernel
  · rw [hcall]
    decide +kernel

end FavlGateway.Orchestrator
