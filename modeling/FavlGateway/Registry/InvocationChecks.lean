/-
  The checks that each adapter makes of its configuration once more when it is invoked: the static
  check of the destination (`http`, `webhook`), the service and the operation (`internal`).

  They are the same decisions that `validate_config` takes, coded a second time.  `Ready` says of each
  adapter what a valid configuration still has to be for them to be taken the same way:
  `invocation_passes_iff`.  For `http` it is only the order of a set, which may be another one in the
  process that invokes; for `webhook` it is everything the static check looks at, since its validator
  does not make it; for `internal` it is that the operation is a text, since the validator looks at
  `str(operation)`.
-/
import FavlGateway.Registry.InternalPaths

namespace FavlGateway.Registry

open FavlGateway.Library
open FavlGateway.Security (Platform OutboundPolicy ParsedUrl configItem hashable accepts anyAccepts
  validateStatic validateStatic_reaches validateStatic_blocked ReachesHosts anyAccepts_append
  anyAccepts_str anyAccepts_not_str anyAccepts_cases checkLiteral portOf fromHosts checkHost of_bind)

/-! ## The checks -/

section Checks

variable (G : Gateway) (config : Dict PyStr)

/-- `WebhookAdapter._policy`: the redirect budget is zero. -/
def webhookPolicy : Except Security.Exc OutboundPolicy :=
  match httpPolicy G config with
  | .error e => .error e
  | .ok policy => .ok { policy with maxRedirects := 0 }

/-- `validate_static(config[key], policy)` -/
def staticDestination (policy : Except Security.Exc OutboundPolicy) (key : PyStr) :
    Except Security.Exc (PyStr × PyStr × Nat) :=
  match policy with
  | .error e => .error e
  | .ok policy =>
    match configItem config key with
    | some (.str url) => validateStatic G.platform policy url
    -- `urlparse` wants to decode what is no `str`
    | _ => .error .attributeError

/-- `self._registry.get(config.get("service", ""))` -/
def serviceBase : Except Security.Exc (Option PyStr) :=
  match (configItem config "service").getD (.str "") with
  | .str name => .ok (registeredBase G.deployment name)
  | service => if hashable service then .ok none else .error .typeError

/-- `self._operation_error(config.get("operation", ""))`; `fullmatch` wants a text. -/
def storedOperationError : Except Security.Exc (Option PyStr) :=
  match (configItem config "operation").getD (.str "") with
  | .str operation => .ok (operationError G operation)
  | value =>
    if value.truthy PyStr.isEmpty then .error .typeError
    else .ok (some "config.operation is required")

/-- The adapter's checks at invocation pass. -/
def InvocationPasses : ConnectorKind → Prop
  | .http => ∃ target, staticDestination G config (httpPolicy G config) "base_url" = .ok target
  | .webhook =>
    ∃ target, staticDestination G config (webhookPolicy G config) "target_url" = .ok target
  | .internal =>
    (∃ base, serviceBase G config = .ok (some base)) ∧ storedOperationError G config = .ok none
  | .mcp => True

end Checks

/-! ## The static check in full -/

section Static

variable {P : Platform} {policy : OutboundPolicy} {url host : PyStr} {U : Unicode}
  {entries : List (Json PyStr)}

/-- An entry accepts the host before one that is no text is reached. -/
def AcceptedFirst (U : Unicode) (host : PyStr) (entries : List (Json PyStr)) : Prop :=
  ∃ before raw after, entries = List.map Json.str before ++ .str raw :: after ∧
    (∀ raw ∈ before, accepts U raw host = false) ∧ accepts U raw host = true

theorem anyAccepts_true_iff : anyAccepts U host entries = .ok true ↔
    AcceptedFirst U host entries := by
  constructor
  · intro h
    rcases anyAccepts_cases U host entries with
      hfalse | ⟨before, entry, after, hentries, hnone, hshape | ⟨raw, hraw, haccepts⟩⟩
    · rw [hfalse] at h
      cases h
    · rw [hentries, anyAccepts_append hnone, anyAccepts_not_str hshape] at h
      cases h
    · exact ⟨before, raw, after, hraw ▸ hentries, hnone, haccepts⟩
  · rintro ⟨before, raw, after, hentries, hnone, haccepts⟩
    rw [hentries, anyAccepts_append hnone, anyAccepts_str, if_pos haccepts]

/-- The literal address, if the host is one, is not forbidden. -/
def LiteralPermitted (P : Platform) (policy : OutboundPolicy) (host : PyStr) : Prop :=
  ∀ ip, P.ipAddress (host.stripOf fun c => c = 0x5B ∨ c = 0x5D) = some ip →
    Security.classify ip policy.allowPrivateAddresses = none

theorem checkLiteral_ok_iff : checkLiteral P policy host = .ok () ↔
    LiteralPermitted P policy host := by
  unfold checkLiteral LiteralPermitted
  cases P.ipAddress (host.stripOf fun c => c = 0x5B ∨ c = 0x5D) with
  | none => simp
  | some ip =>
    cases hclass : Security.classify ip policy.allowPrivateAddresses with
    | none => simp [hclass]
    | some reason => simp [hclass]

/-- The URL names a destination that the policy allows: it parses, its scheme is allowed, it has a
    host and no credentials, the allowlist accepts the host, a literal address is not forbidden,
    and the port can be read. -/
structure Destination (P : Platform) (policy : OutboundPolicy) (url : PyStr) (parsed : ParsedUrl)
    (host : PyStr) : Prop where
  reaches : ReachesHosts P policy url parsed host
  hosts : AcceptedFirst P.unicode host policy.allowedHosts
  literal : LiteralPermitted P policy host
  port : parsed.port ≠ none

/-- **What the static check lets through.** -/
theorem validateStatic_ok_iff : (∃ target, validateStatic P policy url = .ok target) ↔
    ∃ parsed host, Destination P policy url parsed host := by
  constructor
  · rintro ⟨target, h⟩
    by_cases hparsed : P.urlparse url = none
    · simp only [validateStatic, Security.parseUrl, hparsed, bind, Except.bind] at h
      cases h
    · by_cases hreaches : ∃ parsed host, ReachesHosts P policy url parsed host
      · obtain ⟨parsed, host, hreaches⟩ := hreaches
        rw [validateStatic_reaches hreaches] at h
        unfold fromHosts at h
        obtain ⟨_, hhost, h⟩ := of_bind h
        obtain ⟨_, hliteral, h⟩ := of_bind h
        obtain ⟨port, hport, -⟩ := of_bind h
        refine ⟨parsed, host, hreaches, ?_, checkLiteral_ok_iff.mp hliteral, ?_⟩
        · rw [← anyAccepts_true_iff]
          unfold checkHost OutboundPolicy.hostAllowed at hhost
          split at hhost
          · cases hhost
          · rename_i hallowed
            exact hallowed
          · cases hhost
        · intro hnone
          simp only [portOf, hnone] at hport
          cases hport
      · obtain ⟨reason, detail, hblocked⟩ := validateStatic_blocked hparsed hreaches
        rw [hblocked] at h
        cases h
  · rintro ⟨parsed, host, hreaches, hhosts, hliteral, hport⟩
    have hallowed := anyAccepts_true_iff.mpr hhosts
    rw [validateStatic_reaches hreaches]
    obtain ⟨port, hsome⟩ := Option.ne_none_iff_exists'.mp hport
    simp only [fromHosts, checkHost, OutboundPolicy.hostAllowed, hallowed,
      checkLiteral_ok_iff.mpr hliteral, portOf, hsome, bind, Except.bind]
    cases port with
    | none => exact ⟨_, rfl⟩
    | some n => exact ⟨_, rfl⟩

end Static

/-! ## What a valid configuration still has to be -/

section Ready

variable {G : Gateway} {config : Dict PyStr} {kind : ConnectorKind}

/-- The configuration, apart from being valid, is such that the checks at invocation pass. -/
def Ready (G : Gateway) (config : Dict PyStr) : ConnectorKind → Prop
  -- in the order in which the set is gone through now
  | .http => ∀ url parsed host policy, configItem config "base_url" = some (.str url) →
      G.platform.urlparse url = some parsed → parsed.hostname = some host →
      httpPolicy G config = .ok policy →
      AcceptedFirst G.platform.unicode host policy.allowedHosts
  | .webhook => ∃ url policy parsed host, configItem config "target_url" = some (.str url) ∧
      httpPolicy G config = .ok policy ∧ Destination G.platform policy url parsed host
  | .internal => ∃ operation, configItem config "operation" = some (.str operation)
  | .mcp => True

theorem staticDestination_iff {policy : Except Security.Exc OutboundPolicy} {key : PyStr} :
    (∃ target, staticDestination G config policy key = .ok target) ↔
      ∃ url built, configItem config key = some (.str url) ∧ policy = .ok built ∧
        ∃ parsed host, Destination G.platform built url parsed host := by
  unfold staticDestination
  cases policy with
  | error e => simp
  | ok built =>
    cases hitem : configItem config key with
    | none => simp
    | some v =>
      cases v with
      | str url =>
        dsimp only
        rw [validateStatic_ok_iff]
        simp
      | _ => simp

/-- The policy, whatever the order of its hosts. -/
theorem httpPolicy_setOrder {G' : Gateway} {policy : OutboundPolicy}
    (hdeployment : G'.deployment = G.deployment) (h : httpPolicy G config = .ok policy) :
    ∃ policy', httpPolicy G' config = .ok policy' ∧
      policy'.allowedSchemes = policy.allowedSchemes ∧
      policy'.allowPrivateAddresses = policy.allowPrivateAddresses := by
  unfold httpPolicy at h ⊢
  rw [hdeployment]
  cases hbuilt : Security.buildPolicy G.deployment config with
  | error e =>
    rw [hbuilt] at h
    cases h
  | ok built =>
    rw [hbuilt] at h
    cases h
    exact ⟨_, rfl, rfl, rfl⟩

/-- The destination of a valid configuration passes again, if the allowlist does. -/
theorem http_passes_iff {order} (h : HttpAccepts G config) :
    InvocationPasses { G with setOrder := order } config .http ↔
      Ready { G with setOrder := order } config .http := by
  obtain ⟨url, policy, target, hitem, -, hpolicy, hstatic⟩ := h.base_url
  obtain ⟨parsed, host, hdestination⟩ := validateStatic_ok_iff.mp ⟨target, hstatic⟩
  obtain ⟨policy', hpolicy', hschemes, hprivate⟩ :=
    @httpPolicy_setOrder G config { G with setOrder := order } policy rfl hpolicy
  show (∃ target, staticDestination _ config _ _ = .ok target) ↔ _
  rw [staticDestination_iff]
  constructor
  · rintro ⟨url₁, policy₁, hitem₁, hpolicy₁, parsed₁, host₁, hdestination₁⟩
    intro url₂ parsed₂ host₂ policy₂ hitem₂ hparsed₂ hhost₂ hpolicy₂
    have hurl : url₁ = url₂ := by
      rw [hitem₁] at hitem₂
      cases hitem₂
      rfl
    have hparsed : parsed₁ = parsed₂ := by
      rw [← hurl] at hparsed₂
      exact Option.some.inj (hdestination₁.reaches.url.symm.trans hparsed₂)
    have hhost : host₁ = host₂ := by
      rw [← hparsed] at hhost₂
      exact Option.some.inj (hdestination₁.reaches.hostname.symm.trans hhost₂)
    have hbuilt : policy₁ = policy₂ := by
      rw [hpolicy₁] at hpolicy₂
      cases hpolicy₂
      rfl
    rw [← hhost, ← hbuilt]
    exact hdestination₁.hosts
  · intro hready
    refine ⟨url, policy', hitem, hpolicy', parsed, host, ?_, ?_, ?_, hdestination.port⟩
    · refine ⟨hdestination.reaches.url, ?_, hdestination.reaches.hostname,
        hdestination.reaches.host, hdestination.reaches.credentials⟩
      rw [hschemes]
      exact hdestination.reaches.scheme
    · exact hready url parsed host policy' hitem hdestination.reaches.url
        hdestination.reaches.hostname hpolicy'
    · unfold LiteralPermitted
      rw [hprivate]
      exact hdestination.literal

/-- The redirect budget has no part in the static check. -/
theorem webhook_passes_iff :
    InvocationPasses G config .webhook ↔ Ready G config .webhook := by
  have hbudget : ∀ {policy : OutboundPolicy} {url parsed host},
      Destination G.platform { policy with maxRedirects := 0 } url parsed host ↔
        Destination G.platform policy url parsed host := by
    intro policy url parsed host
    constructor
    · rintro ⟨⟨hurl, hscheme, hhostname, hhost, hcredentials⟩, hhosts, hliteral, hport⟩
      exact ⟨⟨hurl, hscheme, hhostname, hhost, hcredentials⟩, hhosts, hliteral, hport⟩
    · rintro ⟨⟨hurl, hscheme, hhostname, hhost, hcredentials⟩, hhosts, hliteral, hport⟩
      exact ⟨⟨hurl, hscheme, hhostname, hhost, hcredentials⟩, hhosts, hliteral, hport⟩
  show (∃ target, staticDestination _ config _ _ = .ok target) ↔ _
  rw [staticDestination_iff]
  unfold webhookPolicy
  constructor
  · rintro ⟨url, policy, hitem, hpolicy, parsed, host, hdestination⟩
    cases hbuilt : httpPolicy G config with
    | error e =>
      rw [hbuilt] at hpolicy
      cases hpolicy
    | ok built =>
      rw [hbuilt] at hpolicy
      cases hpolicy
      exact ⟨url, built, parsed, host, hitem, hbuilt, hbudget.mp hdestination⟩
  · rintro ⟨url, policy, parsed, host, hitem, hpolicy, hdestination⟩
    rw [hpolicy]
    exact ⟨url, _, hitem, rfl, parsed, host, hbudget.mpr hdestination⟩

/-- An operation that is a text is checked as it was; anything else is no text to `fullmatch`. -/
theorem internal_passes_iff (hstr : ∀ s, G.str (.str s) = s) (h : InternalAccepts G config) :
    InvocationPasses G config .internal ↔ Ready G config .internal := by
  obtain ⟨name, hservice, -, hregistered⟩ := h.service
  obtain ⟨base, hbase⟩ := Option.isSome_iff_exists.mp hregistered
  have hfound : ∃ base, serviceBase G config = .ok (some base) := by
    refine ⟨base, ?_⟩
    simp only [serviceBase, hservice, Option.getD_some, hbase]
  have haccepted := h.operation
  unfold configOperation at haccepted
  show (_ ∧ storedOperationError G config = .ok none) ↔ _
  unfold storedOperationError
  constructor
  · rintro ⟨-, hstored⟩
    cases hitem : configItem config "operation" with
    | none =>
      rw [hitem] at haccepted
      have hempty := (operationError_none_iff.mp haccepted).1
      cases hempty
    | some value =>
      rw [hitem] at hstored
      cases value with
      | str operation => exact ⟨operation, hitem⟩
      | _ =>
        simp only [Option.getD_some] at hstored
        split at hstored <;> cases hstored
  · rintro ⟨operation, hitem⟩
    rw [hitem] at haccepted
    refine ⟨hfound, ?_⟩
    simp only [hitem, Option.getD_some]
    dsimp only at haccepted
    split at haccepted
    · rw [hstr] at haccepted
      rw [haccepted]
    · have hempty := (operationError_none_iff.mp haccepted).1
      cases hempty

/-- **What configuration accepts, invocation does not refuse**, if, and only if, the configuration
    is ready for the checks; `order` is the order of sets in the process that invokes. -/
theorem invocation_passes_iff {validate : Dict PyStr → Except Security.Exc Verdict}
    {verdict : Verdict} {order} (hstr : ∀ s, G.str (.str s) = s)
    (h : validatorOf G kind = some validate) (hverdict : validate config = .ok verdict)
    (hvalid : verdict.valid = true) :
    InvocationPasses { G with setOrder := order } config kind ↔
      Ready { G with setOrder := order } config kind := by
  have haccepts := (validator_valid_iff h hverdict).mp hvalid
  cases kind with
  | http => exact http_passes_iff haccepts
  | webhook => exact webhook_passes_iff
  | internal =>
    have hinternal : InternalAccepts G config := haccepts
    exact internal_passes_iff hstr ⟨hinternal.service, hinternal.operation, hinternal.url⟩
  | mcp => cases haccepts

end Ready

/-! ## The checks as `invoke` makes them -/

section Invoke

variable {S : Surroundings} {context : ConnectorContext}

theorem configItem_toPyMembers (config : Dict String) (key : String) :
    configItem (Json.toPyMembers config) (PyStr.ofString key) = (config.get? key).map Json.toPy := by
  induction config with
  | nil => rfl
  | cons m config ih =>
    obtain ⟨k, x⟩ := m
    unfold configItem Dict.get? at ih ⊢
    rw [Json.toPyMembers, List.find?_cons, List.find?_cons]
    by_cases hkey : k = key
    · simp [hkey]
    · simpa [hkey] using ih

theorem truthy_toPy (v : Json String) : v.toPy.truthy PyStr.isEmpty = v.truthy String.isEmpty := by
  cases v with
  | null => rfl
  | bool b => rfl
  | number n => cases n <;> rfl
  | str s =>
    simp only [Json.toPy, Json.truthy, PyStr.isEmpty_ofString]
    rw [Bool.eq_iff_iff]
    simp
  | arr xs => cases xs <;> rfl
  | obj ms => cases ms <;> rfl

theorem configItem_itemOr (key : String) :
    (configItem (Json.toPyMembers context.config) (PyStr.ofString key)).getD (.str "") =
      (itemOr context key (.str "")).toPy := by
  rw [configItem_toPyMembers]
  unfold itemOr
  cases context.config.get? key with
  | none => rfl
  | some v => rfl

/-- `InternalAdapter.invoke` checks the stored operation. -/
theorem storedOperationError_invoked :
    storedOperationError S.toGateway (Json.toPyMembers context.config) =
      match invokedOperation S context with
      | .ok found => .ok found.2
      | .error _ => .error .typeError := by
  unfold storedOperationError invokedOperation
  rw [configItem_itemOr]
  have htruthy := truthy_toPy (itemOr context "operation" (.str ""))
  cases hitem : itemOr context "operation" (.str "") with
  | str operation => rfl
  | _ =>
    rw [hitem] at htruthy
    simp only [Json.toPy] at htruthy ⊢
    rw [htruthy]
    split <;> rfl

/-- And it looks the stored service up. -/
theorem serviceBase_target {base : PyStr} :
    serviceBase S.toGateway (Json.toPyMembers context.config) = .ok (some base) ↔
      internalTarget S context = .ok base := by
  unfold serviceBase internalTarget
  rw [configItem_itemOr]
  cases hitem : itemOr context "service" (.str "") with
  | str name =>
    cases hfound : registeredBase S.deployment (PyStr.ofString name) with
    | none => simp [Json.toPy, hashable, hfound]
    | some found => simp [Json.toPy, hashable, hfound]
  | _ => simp [Json.toPy, hashable]

end Invoke

/-! ## Three configurations -/

/-- `str` of a text and of a whole number. -/
def sampleStr : Json PyStr → PyStr
  | .str s => s
  | .number (.int n) => PyStr.ofString (toString n)
  | _ => ""

theorem sampleStr_unicode (v : Json PyStr) (h : Security.isStr v = false) :
    (sampleStr v).toString?.isSome = true := by
  unfold sampleStr
  split
  · cases h
  · rw [PyStr.toString?_ofString]
    rfl
  · rw [PyStr.toString?_ofString]
    rfl

/-- An operator's allowlist and one registered service. -/
def sampleGateway : Gateway where
  platform := Security.examplePlatform
  deployment :=
    { unicode := .ascii
      getenv := fun name =>
        if name = "INTERNAL_SERVICE_REGISTRY" then some "ledger=http://ledger:80/api/"
        else Security.boundaryEnv name }
  setOrder := exampleGateway.setOrder
  str := sampleStr
  str_unicode := sampleStr_unicode
  repr := exampleGateway.repr

/-- A webhook to this URL. -/
def deliversTo (url host : PyStr) : Dict PyStr :=
  [("target_url", .str url), ("allowed_hosts", .arr [.str host]),
    ("signing_secret_ref", .str "secret://tenant/acme/signing")]

/-- A service, and its operation. -/
def ledgerOperation (operation : Json PyStr) : Dict PyStr :=
  [("service", .str "ledger"), ("operation", operation)]

theorem invocation_passes_iff_ledger :
    InvocationPasses sampleGateway (ledgerOperation (.str "v1/entries")) .internal := by
  have hverdict : internalValidateConfig sampleGateway (ledgerOperation (.str "v1/entries")) =
      .ok ⟨[], .gatewayDedupOnly⟩ := by decide +kernel
  exact (@invocation_passes_iff sampleGateway _ .internal _ _ sampleGateway.setOrder (fun _ => rfl)
    rfl hverdict rfl).mpr ⟨"v1/entries", rfl⟩

/-- A webhook whose target is not on its own allowlist, and an operation that is a number: both
    are valid, and neither can ever be invoked. -/
theorem valid_and_refused :
    webhookValidateConfig (deliversTo Security.exampleUrl "partner.test") =
      .ok ⟨[], .gatewayDedupOnly⟩ ∧
    staticDestination sampleGateway (deliversTo Security.exampleUrl "partner.test")
        (webhookPolicy sampleGateway (deliversTo Security.exampleUrl "partner.test")) "target_url" =
      .error (.blocked "host_not_allowlisted" "api.example.com") ∧
    internalValidateConfig sampleGateway (ledgerOperation (.number (.int 5))) =
      .ok ⟨[], .gatewayDedupOnly⟩ ∧
    storedOperationError sampleGateway (ledgerOperation (.number (.int 5))) = .error .typeError ∧
    (Verdict.mk [] .gatewayDedupOnly).valid = true := by
  decide +kernel

end FavlGateway.Registry
