/-
  What becomes of an invocation that the gateway itself stops.

  A destination that is not allowed, one redirect too many, a content type or a size that is not
  accepted, a secret that is missing or belongs to someone else: none of these gets better by being
  tried again.  `Raised.localCause` names them, as the attempt raises them.  Whether the row says so is
  up to the adapter's `except` clauses, since what they miss is caught in `execute`, which takes it for
  a failure of the provider.

  `local_failure_terminal` says which they miss (`Escapes`), for every run of `execute`.
-/
import FavlGateway.Registry.Invariants
import FavlGateway.Registry.Invoke

namespace FavlGateway.Registry

open FavlGateway.Library

/-! ## Adapters -/

/-- An adapter's `invoke`: what its `try` blocks do, and what its `except` clauses make of it. -/
structure Adapter where
  attempt : Surroundings → InvocationRequest → ConnectorContext → Except Raised Reached
  answer : Surroundings → InvocationRequest → ConnectorContext → Except Raised Reached →
    AdapterOutcome

/-- `adapter.invoke` -/
def Adapter.invoke (A : Adapter) (S : Surroundings) (request : InvocationRequest)
    (context : ConnectorContext) : AdapterOutcome :=
  A.answer S request context (A.attempt S request context)

/-- The registered adapters. -/
def adapterOf : ConnectorKind → Option Adapter
  | .http => some ⟨httpAttempt, fun S request _ => httpAnswer S request⟩
  | .webhook => some ⟨webhookAttempt, webhookAnswer⟩
  | .internal => some ⟨internalAttempt, fun S _ context => internalAnswer S context⟩
  | .mcp => none

/-! ## Local causes -/

/-- The gateway's own reasons to stop an invocation. -/
inductive LocalCause where
  | ssrfBlocked
  | tooManyRedirects
  | contentTypeRejected
  | responseTooLarge
  | secretNotFound
  | secretNotPermitted
  deriving DecidableEq, Repr

/-- The exception is the gateway's own. -/
def Raised.localCause : Raised → Option LocalCause
  | secret (.notPermitted _ _) => some .secretNotPermitted
  | secret (.notFound _) | keyError => some .secretNotFound
  | notRegistered _ | guarded (.ssrfBlocked _) => some .ssrfBlocked
  | guarded (.tooManyRedirects _) => some .tooManyRedirects
  | guarded (.contentTypeRejected _) => some .contentTypeRejected
  | guarded (.responseTooLarge _) => some .responseTooLarge
  | guarded (.timeout _ _) | guarded (.httpError _ _) | guarded (.other _ _) | crash _ _ => none

/-- The error codes that name a cause; for a secret of someone else, any code that is not worth a
    retry. -/
def LocalCause.Names : LocalCause → ErrorCode → Prop
  | ssrfBlocked, code => code = .ssrfBlocked ∨ code = .serviceNotRegistered
  | tooManyRedirects, code => code = .tooManyRedirects
  | contentTypeRejected, code => code = .contentTypeRejected
  | responseTooLarge, code => code = .responseTooLarge
  | secretNotFound, code => code = .secretNotFound
  | secretNotPermitted, code => code ∉ retryableCodes

/-- The row says that the invocation failed for this reason and is not to be tried again. -/
structure Terminal (row : InvocationRecord) (cause : LocalCause) : Prop where
  status : row.status = .failedTerminal
  retryable : row.retryable = some false
  code : ∃ code, row.errorCode = some code ∧ cause.Names code

/-- The service a configuration names is a text. -/
def isText : Json String → Bool
  | .str _ => true
  | _ => false

/-- What no clause of the adapter catches, or what a clause fails on. -/
inductive Escapes : ConnectorKind → Raised → Prop where
  /-- `SecretNotPermitted` is imported for validation only -/
  | httpSecret {reference why : String} : Escapes .http (.secret (.notPermitted reference why))
  | webhookSecret {reference why : String} : Escapes .webhook (.secret (.notPermitted reference why))
  | webhookContentType {text : PyStr} : Escapes .webhook (.guarded (.contentTypeRejected text))
  | webhookRedirects {text : PyStr} : Escapes .webhook (.guarded (.tooManyRedirects text))
  | internalContentType {text : PyStr} : Escapes .internal (.guarded (.contentTypeRejected text))
  | internalRedirects {text : PyStr} : Escapes .internal (.guarded (.tooManyRedirects text))
  /-- the detail of the failure is the service, which cannot be shortened -/
  | internalService {service : Json String} (shape : isText service = false) :
    Escapes .internal (.notRegistered service)

/-! ## What the attempts raise -/

section Attempts

variable {S : Surroundings} {request : InvocationRequest} {context : ConnectorContext} {r : Raised}

/-- What an adapter of this kind can raise. -/
def Raised.raisedBy : ConnectorKind → Raised → Prop
  | .http, secret _ | .http, guarded _ | .http, crash _ _ => True
  | .webhook, secret _ | .webhook, keyError | .webhook, guarded _ | .webhook, crash _ _ => True
  | .internal, notRegistered _ | .internal, guarded _ | .internal, crash _ _ => True
  | _, _ => False

theorem bind_raises {ε α β : Type} {x : Except ε α} {f : α → Except ε β} {e : ε}
    (h : (x >>= f) = .error e) : x = .error e ∨ ∃ a, x = .ok a ∧ f a = .error e := by
  cases x with
  | error e' =>
    left
    cases h
    rfl
  | ok a =>
    right
    exact ⟨a, rfl, h⟩

theorem resolveSecret_raises {reference : String}
    (h : resolveSecret S context reference = .error r) : ∃ e, r = .secret e := by
  unfold resolveSecret at h
  split at h
  · cases h
  · cases h
    exact ⟨_, rfl⟩

theorem headerValue_raises {value : Json String} (h : headerValue S context value = .error r) :
    r.raisedBy .http := by
  unfold headerValue at h
  split at h
  · rename_i reference _
    cases hresolve : resolveSecret S context reference with
    | ok secret =>
      rw [hresolve] at h
      cases h
    | error e =>
      rw [hresolve] at h
      cases h
      obtain ⟨e, rfl⟩ := resolveSecret_raises hresolve
      trivial
  · cases h

theorem resolveHeaders_raises {items : Dict String} {headers : List (Json String × Json String)}
    (h : resolveHeaders S context items headers = .error r) : r.raisedBy .http := by
  induction items generalizing headers with
  | nil => cases h
  | cons item items ih =>
    obtain ⟨key, value⟩ := item
    rw [resolveHeaders] at h
    split at h
    · rename_i e hvalue
      cases h
      exact headerValue_raises hvalue
    · exact ih h

theorem httpHeaders_raises (h : httpHeaders S request context = .error r) : r.raisedBy .http := by
  rcases bind_raises h with hitems | ⟨items, -, h⟩
  · unfold headerItems at hitems
    split at hitems
    · cases hitems
    · split at hitems
      · split at hitems
        · cases hitems
        · cases hitems
          trivial
      · cases hitems
  · rcases bind_raises h with hresolve | ⟨resolved, -, h⟩
    · exact resolveHeaders_raises hresolve
    · rcases bind_raises h with hidempotency | ⟨headers, -, hids⟩
      · unfold setIdempotency at hidempotency
        dsimp only at hidempotency
        split at hidempotency
        · split at hidempotency
          · cases hidempotency
          · cases hidempotency
            trivial
        · cases hidempotency
      · cases hids

theorem httpAttempt_raises (h : httpAttempt S request context = .error r) : r.raisedBy .http := by
  unfold httpAttempt at h
  split at h
  · cases h
  · rcases bind_raises h with hheaders | ⟨headers, -, h⟩
    · exact httpHeaders_raises hheaders
    · split at h
      · cases h
        trivial
      · split at h
        · cases h
          trivial
        · cases h

theorem webhookAttempt_raises (h : webhookAttempt S request context = .error r) :
    r.raisedBy .webhook := by
  unfold webhookAttempt at h
  split at h
  · cases h
  · rcases bind_raises h with hsecret | ⟨secret, -, h⟩
    · unfold signingSecret at hsecret
      split at hsecret
      · cases hsecret
        trivial
      · obtain ⟨e, rfl⟩ := resolveSecret_raises hsecret
        trivial
      · cases hsecret
        trivial
    · split at h
      · cases h
        trivial
      · split at h
        · cases h
          trivial
        · split at h
          · cases h
            trivial
          · cases h

theorem internalSend_raises {base : PyStr} {operation : String}
    (h : internalSend S request base operation = .error r) : r.raisedBy .internal := by
  unfold internalSend at h
  dsimp only at h
  split at h
  · cases h
    trivial
  · split at h
    · cases h
      trivial
    · split at h
      · cases h
        trivial
      · cases h

theorem internalTarget_raises (h : internalTarget S context = .error r) :
    r.raisedBy .internal := by
  unfold internalTarget at h
  dsimp only at h
  split at h
  · cases h
    trivial
  · split at h
    · split at h
      · cases h
      · cases h
        trivial
    · cases h
      trivial

theorem internalAttempt_raises (h : internalAttempt S request context = .error r) :
    r.raisedBy .internal := by
  unfold internalAttempt at h
  rcases bind_raises h with htarget | ⟨base, -, h⟩
  · exact internalTarget_raises htarget
  · split at h
    · cases h
    · rcases bind_raises h with hoperation | ⟨⟨operation, error⟩, -, h⟩
      · unfold invokedOperation at hoperation
        split at hoperation
        · cases hoperation
        · split at hoperation
          · cases hoperation
            trivial
          · cases hoperation
      · dsimp only at h
        split at h
        · cases h
        · exact internalSend_raises h

/-- An adapter raises what its own steps can raise. -/
theorem attempt_raises {kind : ConnectorKind} {A : Adapter} (h : adapterOf kind = some A)
    (hraised : A.attempt S request context = .error r) : r.raisedBy kind := by
  cases kind with
  | http =>
    cases h
    exact httpAttempt_raises hraised
  | webhook =>
    cases h
    exact webhookAttempt_raises hraised
  | internal =>
    cases h
    exact internalAttempt_raises hraised
  | mcp => cases h

end Attempts

/-! ## What the clauses make of them -/

/-- A terminal failure that names the cause. -/
def Reported (S : Surroundings) (cause : LocalCause) (outcome : AdapterOutcome) : Prop :=
  ∃ code detail, outcome = .result (.failure code detail S.started S.completed) ∧
    cause.Names code ∧ code ∉ retryableCodes ∧ code ≠ .deadlineExceeded

/-- The exception got past the clauses. -/
def Missed (outcome : AdapterOutcome) : Prop :=
  ∃ typeName text, outcome = .exception typeName text

section Answers

variable {S : Surroundings} {request : InvocationRequest} {context : ConnectorContext} {r : Raised}
  {cause : LocalCause}

theorem reported {code : ErrorCode} {detail : PyStr} (hnames : cause.Names code)
    (hterminal : code ∉ retryableCodes ∧ code ≠ .deadlineExceeded) :
    Reported S cause (.result (.failure code detail S.started S.completed)) :=
  ⟨code, detail, rfl, hnames, hterminal.1, hterminal.2⟩

theorem httpAnswer_cases (hr : r.raisedBy .http) (hcause : r.localCause = some cause) :
    (Reported S cause (httpAnswer S request (.error r)) ∧ ¬ Escapes .http r) ∨
      (Missed (httpAnswer S request (.error r)) ∧ Escapes .http r) := by
  cases r with
  | secret e =>
    cases e with
    | notPermitted reference why => exact Or.inr ⟨⟨_, _, rfl⟩, .httpSecret⟩
    | notFound reference =>
      cases hcause
      exact Or.inl ⟨reported rfl (by decide), nofun⟩
  | guarded e =>
    cases e with
    | ssrfBlocked reason =>
      cases hcause
      exact Or.inl ⟨reported (Or.inl rfl) (by decide), nofun⟩
    | tooManyRedirects text =>
      cases hcause
      exact Or.inl ⟨reported rfl (by decide), nofun⟩
    | contentTypeRejected text =>
      cases hcause
      exact Or.inl ⟨reported rfl (by decide), nofun⟩
    | responseTooLarge text =>
      cases hcause
      exact Or.inl ⟨reported rfl (by decide), nofun⟩
    | timeout typeName text => cases hcause
    | httpError typeName text => cases hcause
    | other typeName text => cases hcause
  | crash typeName text => cases hcause
  | keyError => exact hr.elim
  | notRegistered service => exact hr.elim

theorem webhookAnswer_cases (hr : r.raisedBy .webhook) (hcause : r.localCause = some cause) :
    (Reported S cause (webhookAnswer S request context (.error r)) ∧ ¬ Escapes .webhook r) ∨
      (Missed (webhookAnswer S request context (.error r)) ∧ Escapes .webhook r) := by
  cases r with
  | secret e =>
    cases e with
    | notPermitted reference why => exact Or.inr ⟨⟨_, _, rfl⟩, .webhookSecret⟩
    | notFound reference =>
      cases hcause
      exact Or.inl ⟨reported rfl (by decide), nofun⟩
  | keyError =>
    cases hcause
    exact Or.inl ⟨reported rfl (by decide), nofun⟩
  | guarded e =>
    cases e with
    | ssrfBlocked reason =>
      cases hcause
      exact Or.inl ⟨reported (Or.inl rfl) (by decide), nofun⟩
    | responseTooLarge text =>
      cases hcause
      exact Or.inl ⟨reported rfl (by decide), nofun⟩
    | tooManyRedirects text => exact Or.inr ⟨⟨_, _, rfl⟩, .webhookRedirects⟩
    | contentTypeRejected text => exact Or.inr ⟨⟨_, _, rfl⟩, .webhookContentType⟩
    | timeout typeName text => cases hcause
    | httpError typeName text => cases hcause
    | other typeName text => cases hcause
  | crash typeName text => cases hcause
  | notRegistered service => exact hr.elim

theorem internalAnswer_notRegistered {service : Json String} (h : isText service = false) :
    Missed (internalAnswer S context (.error (.notRegistered service))) := by
  cases service with
  | str s => cases h
  | null => exact ⟨_, _, rfl⟩
  | bool b => exact ⟨_, _, rfl⟩
  | number n => exact ⟨_, _, rfl⟩
  | arr xs => exact ⟨_, _, rfl⟩
  | obj ms => exact ⟨_, _, rfl⟩

theorem internalAnswer_cases (hr : r.raisedBy .internal) (hcause : r.localCause = some cause) :
    (Reported S cause (internalAnswer S context (.error r)) ∧ ¬ Escapes .internal r) ∨
      (Missed (internalAnswer S context (.error r)) ∧ Escapes .internal r) := by
  cases r with
  | secret e => exact hr.elim
  | keyError => exact hr.elim
  | notRegistered service =>
    cases hcause
    by_cases htext : isText service = true
    · obtain ⟨s, rfl⟩ : ∃ s, service = .str s := by
        unfold isText at htext
        split at htext
        · exact ⟨_, rfl⟩
        · cases htext
      refine Or.inl ⟨reported (Or.inr rfl) (by decide), ?_⟩
      rintro (_ | _ | _ | _ | _ | _ | hshape)
      cases hshape
    · have hshape : isText service = false := by simpa using htext
      exact Or.inr ⟨internalAnswer_notRegistered hshape, .internalService hshape⟩
  | guarded e =>
    cases e with
    | ssrfBlocked reason =>
      cases hcause
      exact Or.inl ⟨reported (Or.inl rfl) (by decide), nofun⟩
    | responseTooLarge text =>
      cases hcause
      exact Or.inl ⟨reported rfl (by decide), nofun⟩
    | tooManyRedirects text => exact Or.inr ⟨⟨_, _, rfl⟩, .internalRedirects⟩
    | contentTypeRejected text => exact Or.inr ⟨⟨_, _, rfl⟩, .internalContentType⟩
    | timeout typeName text => cases hcause
    | httpError typeName text => cases hcause
    | other typeName text => cases hcause
  | crash typeName text => cases hcause

/-- **What the clauses of an adapter do with a local cause**: they report it, or they miss it. -/
theorem answer_cases {kind : ConnectorKind} {A : Adapter} (h : adapterOf kind = some A)
    (hr : r.raisedBy kind) (hcause : r.localCause = some cause) :
    (Reported S cause (A.answer S request context (.error r)) ∧ ¬ Escapes kind r) ∨
      (Missed (A.answer S request context (.error r)) ∧ Escapes kind r) := by
  cases kind with
  | http =>
    cases h
    exact httpAnswer_cases hr hcause
  | webhook =>
    cases h
    exact webhookAnswer_cases hr hcause
  | internal =>
    cases h
    exact internalAnswer_cases hr hcause
  | mcp => cases h

end Answers

/-! ## The row -/

section Row

variable {env : Env} {connector : ConnectorRecord} {record row : InvocationRecord}
  {payload : Dict String} {cause : LocalCause} {budget : ℚ} {startedAt : Option Time}

/-- A reported cause is on the row. -/
theorem Reported.terminal {S : Surroundings} {outcome : AdapterOutcome}
    (h : Reported S cause outcome) :
    Terminal (finished env record (outcomeResult env budget startedAt outcome)) cause := by
  obtain ⟨code, detail, rfl, hnames, hterminal, hdeadline⟩ := h
  have htimeout : code ≠ .upstreamTimeout := by
    rintro rfl
    exact hterminal (by decide)
  constructor
  · show (InvocationResult.failure code detail S.started S.completed).status = _
    simp [InvocationResult.failure, htimeout, hdeadline, hterminal]
  · show some (decide (code ∈ retryableCodes)) = _
    simp [hterminal]
  · exact ⟨code, rfl, hnames⟩

/-- A missed cause is taken for a failure of the provider. -/
theorem Missed.not_terminal {outcome : AdapterOutcome} (h : Missed outcome) :
    ¬ Terminal (finished env record (outcomeResult env budget startedAt outcome)) cause := by
  obtain ⟨typeName, text, rfl⟩ := h
  rintro ⟨hstatus, -, -⟩
  cases hstatus

/-- Operations that may answer anything. -/
def unconstrained : Discipline RegistryOp Unit :=
  .observing (fun _ _ => ()) fun _ _ => True

/-- The row is the one written for the outcome of the adapter. -/
def Finalised (env : Env) (connector : ConnectorRecord) (record : InvocationRecord)
    (payload : Dict String) (row : InvocationRecord) : Prop :=
  ∃ budget startedAt, row = finished env (started env record)
    (outcomeResult env budget startedAt
      (env.invoke (invocationRequest connector (started env record) payload)
        (invocationContext connector (started env record))))

theorem execute_obeys_finalised (hkind : connector.kind ∈ registeredKinds) :
    (execute env connector record payload).Obeys unconstrained
      (fun r _ => ∀ row, r = .ok row → Finalised env connector record payload row) () := by
  unfold execute
  rw [if_neg (not_not.mpr hkind)]
  refine ⟨trivial, fun _ _ _ => ⟨trivial, fun _ _ _ => ⟨trivial, fun committed _ _ => ?_⟩⟩⟩
  cases committed with
  | error e =>
    intro row hrow
    cases hrow
  | ok _ =>
    refine ⟨trivial, fun _ _ _ => ⟨trivial, fun _ _ _ => ?_⟩⟩
    dsimp only
    split
    · intro row hrow
      cases hrow
    · refine ⟨trivial, fun _ _ _ => ⟨trivial, fun committed _ _ => ?_⟩⟩
      cases committed with
      | error e =>
        intro row hrow
        cases hrow
      | ok _ =>
        intro row hrow
        cases hrow
        exact ⟨_, _, rfl⟩

/-- **The row `execute` returns**, whatever the database answers. -/
theorem execute_returns {trace : List (Prog.Answered RegistryOp)}
    (hkind : connector.kind ∈ registeredKinds)
    (h : Prog.Leads (execute env connector record payload) trace (.ret row)) :
    Finalised env connector record payload row :=
  h.ends (execute_obeys_finalised hkind) row rfl

theorem commit_leads : Prog.Leads commit [⟨.commit, .ok ()⟩] (.ret ()) := .op .here

theorem finalise_leads {result : InvocationResult} {event : String}
    (h : terminalEvent result.status = some event) :
    ∃ trace, Prog.Leads (finalise env record result) trace (.ret (finished env record result)) := by
  have hstatus : terminalEvent result.status = some event := h
  unfold finalise
  rw [hstatus]
  exact ⟨_, .op (b := ()) (.op (b := ()) (commit_leads.bind .here))⟩

/-- An outcome that ends the invocation has a row that `execute` can return. -/
theorem execute_leads {event : String} (hkind : connector.kind ∈ registeredKinds)
    (hends : ∀ budget startedAt, terminalEvent (outcomeResult env budget startedAt
      (env.invoke (invocationRequest connector (started env record) payload)
        (invocationContext connector (started env record)))).status = some event) :
    ∃ trace row, Prog.Leads (execute env connector record payload) trace (.ret row) := by
  unfold execute
  rw [if_neg (not_not.mpr hkind)]
  obtain ⟨trace, hfinalise⟩ := @finalise_leads env (started env record) _ event
    (hends ((invocationRequest connector (started env record) payload).secondsRemaining
      (env.utcnow 3)) (started env record).startedAt)
  exact ⟨_, _, .op (b := ()) (.op (b := ()) (commit_leads.bind (.op (b := ()) hfinalise)))⟩

/-- **Local failures are terminal**, except for those an adapter's clauses miss: whenever an attempt
    stops for a reason of the gateway's own and `execute` returns the row. -/
theorem local_failure_terminal {kind : ConnectorKind} {A : Adapter} {S : Surroundings} {r : Raised}
    {trace : List (Prog.Answered RegistryOp)} (hadapter : adapterOf kind = some A)
    (hkind : connector.kind = kind)
    (hraised : A.attempt S (invocationRequest connector (started env record) payload)
      (invocationContext connector (started env record)) = .error r)
    (hcause : r.localCause = some cause)
    (hinvoke : env.invoke (invocationRequest connector (started env record) payload)
        (invocationContext connector (started env record)) =
      A.invoke S (invocationRequest connector (started env record) payload)
        (invocationContext connector (started env record)))
    (hrun : Prog.Leads (execute env connector record payload) trace (.ret row)) :
    Terminal row cause ↔ ¬ Escapes kind r := by
  have hregistered : connector.kind ∈ registeredKinds := by
    rw [hkind]
    cases kind with
    | http => decide
    | webhook => decide
    | internal => decide
    | mcp => cases hadapter
  obtain ⟨budget, startedAt, hrow⟩ := execute_returns hregistered hrun
  rw [hinvoke, Adapter.invoke, hraised] at hrow
  rw [hrow]
  rcases answer_cases hadapter (attempt_raises hadapter hraised) hcause with
    ⟨hreported, hcaught⟩ | ⟨hmissed, hescapes⟩
  · constructor
    · intro _
      exact hcaught
    · intro _
      exact hreported.terminal
  · constructor
    · intro hterminal
      exact absurd hterminal hmissed.not_terminal
    · intro hcaught
      exact absurd hescapes hcaught

end Row

/-! ## Two references -/

/-- A connector of the tenant `acme`, with a secret in one of its headers. -/
def secretConnector (reference : String) : ConnectorRecord :=
  { newConnector (sampleEnv 0) sampleCaller (samplePayload .enabled enabled_creatable) with
    config := [("headers", .obj [("X-Api-Key", .str reference)])] }

def secretInvocation (reference : String) : InvocationRecord :=
  newInvocation (sampleEnv 10) (secretConnector reference)
    ⟨"", "0123456789", "operator", "acme", 15, none⟩

/-- No secret is stored, and no request is answered. -/
def exampleSurroundings : Surroundings where
  toGateway := exampleGateway
  started := 10
  completed := 20
  environ _ := none
  env := sampleEnv 10
  describe _ := ("", "")
  encode _ := []
  buildSignature _ _ _ _ := ""
  decoder := ⟨fun _ => none, fun _ => ""⟩
  send _ := .error (.other "" "")

/-- An environment with the http adapter. -/
def httpEnv : Env :=
  { sampleEnv 10 with
    invoke := fun request context => httpAnswer exampleSurroundings request
      (httpAttempt exampleSurroundings request context) }

/-- What the attempt of the invocation comes to. -/
def secretAttempt (reference : String) : Except Raised Reached :=
  httpAttempt exampleSurroundings
    (invocationRequest (secretConnector reference)
      (started httpEnv (secretInvocation reference)) [])
    (invocationContext (secretConnector reference) (started httpEnv (secretInvocation reference)))

/-- The tenant's own secret is not stored. -/
theorem secretAttempt_own : secretAttempt "secret://tenant/acme/api-key" =
    .error (.secret (.notFound "secret://tenant/acme/api-key")) := by
  have hremaining : ¬ remaining exampleSurroundings (invocationRequest
      (secretConnector "secret://tenant/acme/api-key")
      (started httpEnv (secretInvocation "secret://tenant/acme/api-key")) []) ≤ 0 := by
    decide +kernel
  rw [secretAttempt, httpAttempt, if_neg hremaining]
  rfl

/-- Another tenant's secret may not be read. -/
theorem secretAttempt_foreign : secretAttempt "secret://tenant/globex/api-key" =
    .error (.secret (.notPermitted "secret://tenant/globex/api-key"
      "tenant 'acme' may not read tenant 'globex' secrets")) := by
  have hremaining : ¬ remaining exampleSurroundings (invocationRequest
      (secretConnector "secret://tenant/globex/api-key")
      (started httpEnv (secretInvocation "secret://tenant/globex/api-key")) []) ≤ 0 := by
    decide +kernel
  rw [secretAttempt, httpAttempt, if_neg hremaining]
  rfl

/-- What the adapter makes of it. -/
def secretOutcome (reference : String) : AdapterOutcome :=
  httpAnswer exampleSurroundings
    (invocationRequest (secretConnector reference)
      (started httpEnv (secretInvocation reference)) []) (secretAttempt reference)

/-- A secret that is missing is reported, and not tried again. -/
theorem local_failure_terminal_missing :
    ∃ trace row, Prog.Leads (execute httpEnv (secretConnector "secret://tenant/acme/api-key")
      (secretInvocation "secret://tenant/acme/api-key") []) trace (.ret row) ∧
        Terminal row .secretNotFound := by
  have hends : ∀ budget startedAt, terminalEvent (outcomeResult httpEnv budget startedAt
      (secretOutcome "secret://tenant/acme/api-key")).status = some "connector.invocation.failed" := by
    intro budget startedAt
    rw [secretOutcome, secretAttempt_own]
    rfl
  obtain ⟨trace, row, hrun⟩ := execute_leads (by decide) hends
  exact ⟨trace, row, hrun,
    (local_failure_terminal rfl rfl secretAttempt_own rfl rfl hrun).mpr nofun⟩

/-- A secret of another tenant's is an error of the provider's, to be tried again. -/
theorem foreign_secret_retried :
    ∃ trace row, Prog.Leads (execute httpEnv (secretConnector "secret://tenant/globex/api-key")
      (secretInvocation "secret://tenant/globex/api-key") []) trace (.ret row) ∧
        row.errorCode = some .upstreamError ∧ row.retryable = some true ∧
        ¬ Terminal row .secretNotPermitted := by
  have hends : ∀ budget startedAt, terminalEvent (outcomeResult httpEnv budget startedAt
      (secretOutcome "secret://tenant/globex/api-key")).status = some "connector.invocation.failed" := by
    intro budget startedAt
    rw [secretOutcome, secretAttempt_foreign]
    rfl
  obtain ⟨trace, row, hrun⟩ := execute_leads (by decide) hends
  obtain ⟨budget, startedAt, hrow⟩ := execute_returns (by decide) hrun
  change row = finished httpEnv _ (outcomeResult httpEnv budget startedAt
    (secretOutcome "secret://tenant/globex/api-key")) at hrow
  rw [secretOutcome, secretAttempt_foreign] at hrow
  refine ⟨trace, row, hrun, ?_, ?_, ?_⟩
  · rw [hrow]
    rfl
  · rw [hrow]
    rfl
  · rw [hrow]
    rintro ⟨hstatus, -, -⟩
    cases hstatus

end FavlGateway.Registry
