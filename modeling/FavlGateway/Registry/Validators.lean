/-
  `validate_config` of the three registered adapters (`app/adapters/http.py`,
  `app/adapters/webhook.py`, `app/adapters/internal.py`).

  A configuration is any JSON object, and the validators go at it with string, mapping and set
  operations, each of which has its own exception on a value of the wrong type.  Here every one of them
  returns in `Except`: a verdict, or what it raised.  The errors of a verdict are pure functions of the
  configuration; what can raise is kept apart, in the order the source does it.

  `httpValidateConfig_error_iff` and its companions say on which configurations a validator raises, in
  terms of the configuration and the operator's settings alone.
-/
import FavlGateway.Registry.Adapters
import FavlGateway.Security.Outbound
import FavlGateway.Security.Raises
import FavlGateway.Security.Secrets

namespace FavlGateway.Registry

open FavlGateway.Library
open FavlGateway.Security (Deployment Platform OutboundPolicy ParsedUrl configItem members hashable
  buildPolicy validateStatic isStr PolicyRaises StaticRaises policyRaises_iff staticRaises_iff)

/-! ## What a validator finds around it -/

structure Gateway where
  platform : Platform
  deployment : Deployment
  /-- the order in which a set is gone through -/
  setOrder : { order : List (Json PyStr) → List (Json PyStr) // ∀ xs, (order xs).Perm xs }
  /-- `str` of a value -/
  str : Json PyStr → PyStr
  /-- what is no text is written with its texts escaped -/
  str_unicode : ∀ v, isStr v = false → (str v).toString?.isSome = true
  /-- `repr` of a text: what is not printable is escaped -/
  repr : PyStr → String

/-- What a validator returns; it is valid if there are no errors. -/
structure Verdict where
  errors : List PyStr
  idempotencyMode : IdempotencyMode
  deriving DecidableEq

def Verdict.valid (v : Verdict) : Bool := v.errors.isEmpty

/-- `ValidationResult.failed(*errors)`, or `ValidationResult.ok(supports_idempotency=True, …)`. -/
def Verdict.toResult (v : Verdict) : ValidationResult :=
  if v.valid then { valid := true, supportsIdempotency := true, idempotencyMode := v.idempotencyMode }
  else { valid := false, errors := v.errors.map fun e => e.toString?.getD "" }

/-! ## Reading a configuration -/

/-- Python's truth of `config.get(key)`. -/
def givenItem (config : Dict PyStr) (key : PyStr) : Bool :=
  match configItem config key with
  | some v => v.truthy PyStr.isEmpty
  | none => false

/-- The error of a check that failed. -/
def errorUnless (passed : Bool) (error : PyStr) : List PyStr := if passed then [] else [error]

/-- `OPERATOR_ONLY_CONFIG_KEYS`, sorted -/
def operatorOnlyKeys : List String :=
  ["allow_plaintext_acknowledged", "allow_private_addresses", "allowed_schemes"]

/-- `rejected_operator_keys` -/
def rejectedOperatorKeys (config : Dict PyStr) : List String :=
  operatorOnlyKeys.filter fun key => (configItem config key).isSome

/-- The text of a list of plain texts. -/
def listText (keys : List String) : PyStr :=
  PyStr.ofString ("[" ++ ", ".intercalate (keys.map fun k => "'" ++ k ++ "'") ++ "]")

/-- `s.startswith(t)` -/
def startsWith (s : PyStr) (t : String) : Bool :=
  (PyStr.ofString t).codepoints.isPrefixOf s.codepoints

/-- `t in s` -/
def containsText (s : PyStr) (t : String) : Bool :=
  decide ((PyStr.ofString t).codepoints <:+: s.codepoints)

/-- `is_secret_reference` -/
def isSecretReference : Json PyStr → Option PyStr
  | .str s =>
    if startsWith s "secret://" || Security.legacyPrefixes.any (startsWith s) then some s else none
  | _ => none

/-- Why `check_addressable` raises `SecretNotPermitted`, if it does. -/
def notAddressable (value owner tenant : PyStr) : Option PyStr :=
  if Security.legacyPrefixes.any (startsWith value) then
    some ("direct storage references are no longer accepted; use " ++
      "secret://connector/<name>/<key>")
  else
    match value.toString?.bind fun s => Security.matchReference s.toList with
    | none => some "malformed reference; expected secret://…"
    | some ref =>
      if ref.scope = .connector ∧ PyStr.ofString (String.ofList ref.owner) ≠ owner then
        some ("connector '" ++ owner ++ "' may not read connector '" ++
          PyStr.ofString (String.ofList ref.owner) ++ "' secrets")
      else if ref.scope = .tenant ∧ PyStr.ofString (String.ofList ref.owner) ≠ tenant then
        some ("tenant '" ++ tenant ++ "' may not read tenant '" ++
          PyStr.ofString (String.ofList ref.owner) ++ "' secrets")
      else none

/-- Why a reference is reported: ownership cannot be judged at config time, only the form is
    checked. -/
def referenceError (value owner : PyStr) : Option PyStr :=
  match notAddressable value owner "" with
  | none => none
  | some why =>
    if containsText ("secret reference " ++ value ++ " is not permitted: " ++ why) "may not read" then
      none
    else some why

section Validators

variable (G : Gateway)

/-! ## HTTP -/

/-- `HttpAdapter._policy`; the hosts come in the set's own order. -/
def httpPolicy (config : Dict PyStr) : Except Security.Exc OutboundPolicy :=
  match buildPolicy G.deployment config with
  | .error e => .error e
  | .ok policy => .ok { policy with allowedHosts := G.setOrder.val policy.allowedHosts }

/-- `(config.get("headers") or {}).items()` -/
def configHeaders (config : Dict PyStr) : Except Security.Exc (Dict PyStr) :=
  match configItem config "headers" with
  | none => .ok []
  | some value =>
    if value.truthy PyStr.isEmpty then
      match value with
      | .obj ms => .ok ms
      | _ => .error .attributeError
    else .ok []

/-- `str(config.get("name", ""))` -/
def configName (config : Dict PyStr) : PyStr := G.str ((configItem config "name").getD (.str ""))

/-- The error of one header. -/
def headerError (config : Dict PyStr) (key : PyStr) (value : Json PyStr) : Option PyStr :=
  match isSecretReference value with
  | some reference =>
    (referenceError reference (configName G config)).map fun why =>
      "header '" ++ key ++ "': " ++ why
  | none =>
    if key.lower G.platform.unicode ∈ (["authorization", "x-api-key"] : List PyStr) then
      some ("header '" ++ key ++ "' must be a secret reference, not a literal value")
    else none

/-- The check of `base_url` against the policy. -/
def baseUrlErrors (config : Dict PyStr) : Except Security.Exc (List PyStr) :=
  match configItem config "base_url" with
  | none => .ok []
  | some url =>
    if url.truthy PyStr.isEmpty && givenItem config "allowed_hosts" then
      match httpPolicy G config with
      | .error e => .error e
      | .ok policy =>
        match url with
        | .str url =>
          match validateStatic G.platform policy url with
          | .ok _ => .ok []
          | .error (.blocked reason _) => .ok ["base_url rejected: " ++ PyStr.ofString reason]
          | .error e => .error e
        -- `urlparse` wants to decode what is no `str`
        | _ => .error .attributeError
    else .ok []

/-- The errors found before the headers are looked at. -/
def httpFieldErrors (config : Dict PyStr) : List PyStr :=
  errorUnless (givenItem config "base_url") "config.base_url is required" ++
  errorUnless (givenItem config "allowed_hosts")
    "config.allowed_hosts is required; an unrestricted HTTP connector is an SSRF primitive" ++
  errorUnless (rejectedOperatorKeys config).isEmpty
    ("config may not set operator-controlled keys: " ++ listText (rejectedOperatorKeys config) ++
      ". Private addressing and permitted schemes are deployment " ++
      "settings; a connector cannot widen its own reach.")

/-- `HttpAdapter.validate_config` -/
def httpValidateConfig (config : Dict PyStr) : Except Security.Exc Verdict :=
  match configHeaders config with
  | .error e => .error e
  | .ok headers =>
    match baseUrlErrors G config with
    | .error e => .error e
    | .ok rejected =>
      .ok
        { errors := httpFieldErrors config ++
            (headers.filterMap fun h => headerError G config h.1 h.2) ++ rejected
          idempotencyMode :=
            if givenItem config "idempotency_header" then .providerKey else .gatewayDedupOnly }

/-! ## Webhook -/

/-- The error of `signing_secret_ref`. -/
def signingErrors (config : Dict PyStr) : List PyStr :=
  match configItem config "signing_secret_ref" with
  | none => ["config.signing_secret_ref is required; deliveries are signed"]
  | some value =>
    if !value.truthy PyStr.isEmpty then
      ["config.signing_secret_ref is required; deliveries are signed"]
    else
      match isSecretReference value with
      | none =>
        ["config.signing_secret_ref must be a reference such as env:NAME, never a literal secret"]
      | some reference =>
        match referenceError reference "" with
        | some why => ["config.signing_secret_ref: " ++ why]
        | none => []

/-- `WebhookAdapter.validate_config`: nothing in it raises. -/
def webhookValidateConfig (config : Dict PyStr) : Except Security.Exc Verdict :=
  .ok
    { errors :=
        errorUnless (givenItem config "target_url") "config.target_url is required" ++
        errorUnless (givenItem config "allowed_hosts") "config.allowed_hosts is required" ++
        signingErrors config ++
        errorUnless (!givenItem config "signing_secret")
          "config.signing_secret is not permitted; use a reference" ++
        errorUnless (rejectedOperatorKeys config).isEmpty
          ("config may not set operator-controlled keys: " ++
            listText (rejectedOperatorKeys config))
      idempotencyMode := .gatewayDedupOnly }

/-! ## Internal -/

/-- `name=base_url` in one entry of the environment's list. -/
def registryEntry (entry : PyStr) : Option (PyStr × PyStr) :=
  let entry := entry.strip
  if 0x3D ∈ entry.codepoints then
    let name : PyStr := ⟨entry.codepoints.takeWhile (· ≠ 0x3D)⟩
    let base : PyStr := ⟨(entry.codepoints.dropWhile (· ≠ 0x3D)).tail⟩
    some (name.strip, ⟨base.strip.codepoints.rdropWhile (· = 0x2F)⟩)
  else none

/-- `_load_registry`, in the order of the environment: of two entries with one name the later one
    counts. -/
def loadRegistry (D : Deployment) : List (PyStr × PyStr) :=
  ((((D.getenv "INTERNAL_SERVICE_REGISTRY").getD "").split 0x2C).filterMap registryEntry).reverse

/-- `self._registry.get(name)` -/
def registeredBase (D : Deployment) (name : PyStr) : Option PyStr :=
  ((loadRegistry D).find? fun e => e.1 = name).map Prod.snd

/-- Texts in the order of their code points. -/
def textLe (s t : PyStr) : Bool := !decide (t.codepoints < s.codepoints)

/-- `sorted(self._registry) or 'none'` -/
def knownServices : PyStr :=
  let names := ((loadRegistry G.deployment).map Prod.fst).dedup.mergeSort textLe
  if names.isEmpty then "none"
  else PyStr.ofString ("[" ++ ", ".intercalate (names.map G.repr) ++ "]")

/-- `SAFE_OPERATION` -/
def operationChar (c : Nat) : Bool :=
  (0x41 ≤ c && c ≤ 0x5A) || (0x61 ≤ c && c ≤ 0x7A) || (0x30 ≤ c && c ≤ 0x39) ||
    c = 0x2E || c = 0x5F || c = 0x7E || c = 0x2F || c = 0x2D

/-- `_operation_error` -/
def operationError (operation : PyStr) : Option PyStr :=
  if operation.isEmpty then some "config.operation is required"
  else if !operation.codepoints.all operationChar then
    some ("config.operation " ++ G.repr operation ++ " may contain only letters, " ++
      "digits, '-', '_', '/' and '.', with no '..' segment")
  else if (".." : PyStr) ∈ operation.split 0x2F then
    some "config.operation may not contain a '..' segment"
  else none

/-- `str(config.get("operation") or "")` -/
def configOperation (config : Dict PyStr) : PyStr :=
  match configItem config "operation" with
  | none => ""
  | some value => if value.truthy PyStr.isEmpty then G.str value else ""

/-- The error of `service`: a dictionary is asked for it, which hashes it. -/
def serviceErrors (config : Dict PyStr) : Except Security.Exc (List PyStr) :=
  match configItem config "service" with
  | none => .ok ["config.service is required"]
  | some value =>
    if !value.truthy PyStr.isEmpty then .ok ["config.service is required"]
    else if !hashable value then .error .typeError
    else
      match value with
      | .str name =>
        if (registeredBase G.deployment name).isSome then .ok []
        else .ok ["service '" ++ name ++ "' is not registered; known services: " ++ knownServices G]
      | _ => .ok ["service '" ++ G.str value ++ "' is not registered; known services: " ++
          knownServices G]

/-- `InternalAdapter.validate_config` -/
def internalValidateConfig (config : Dict PyStr) : Except Security.Exc Verdict :=
  match serviceErrors G config with
  | .error e => .error e
  | .ok errors =>
    .ok
      { errors := errors ++ (operationError G (configOperation G config)).toList ++
          errorUnless (configItem config "url").isNone
            "config.url is not permitted; address services by name"
        idempotencyMode := .gatewayDedupOnly }

/-- `ADAPTERS.get(kind).validate_config`, for a kind that has an adapter. -/
def validatorOf : ConnectorKind → Option (Dict PyStr → Except Security.Exc Verdict)
  | .http => some (httpValidateConfig G)
  | .webhook => some webhookValidateConfig
  | .internal => some (internalValidateConfig G)
  | .mcp => none

end Validators

/-! ## When a validator raises -/

section Raises

variable {G : Gateway} {config : Dict PyStr}

/-- What makes `HttpAdapter.validate_config` raise. -/
inductive HttpRaises (G : Gateway) (config : Dict PyStr) : Prop where
  /-- `headers` is truthy and no object: it has no `items` -/
  | headers {v : Json PyStr} (item : configItem config "headers" = some v)
      (truthy : v.truthy PyStr.isEmpty = true) (shape : ∀ ms, v ≠ .obj ms)
  /-- the policy cannot be built -/
  | policy (base : givenItem config "base_url" = true)
      (hosts : givenItem config "allowed_hosts" = true) (raises : PolicyRaises G.deployment config)
  /-- `base_url` is truthy and no text -/
  | baseUrl {v : Json PyStr} (item : configItem config "base_url" = some v)
      (truthy : v.truthy PyStr.isEmpty = true) (hosts : givenItem config "allowed_hosts" = true)
      (shape : isStr v = false)
  /-- the static check does not come to a verdict -/
  | url {url : PyStr} {policy : OutboundPolicy} (item : configItem config "base_url" = some (.str url))
      (truthy : url.isEmpty = false) (hosts : givenItem config "allowed_hosts" = true)
      (built : httpPolicy G config = .ok policy) (raises : StaticRaises G.platform policy url)

theorem configHeaders_error_iff : (∃ e, configHeaders config = .error e) ↔
    ∃ v, configItem config "headers" = some v ∧ v.truthy PyStr.isEmpty = true ∧
      ∀ ms, v ≠ .obj ms := by
  unfold configHeaders
  cases configItem config "headers" with
  | none => simp
  | some v =>
    by_cases htruthy : v.truthy PyStr.isEmpty = true
    · cases v with
      | obj ms => simp [htruthy]
      | null => cases htruthy
      | bool b => simp [htruthy]
      | number n => simp [htruthy]
      | str s => simp [htruthy]
      | arr xs => simp [htruthy]
    · simp [htruthy]

theorem httpPolicy_error_iff :
    (∃ e, httpPolicy G config = .error e) ↔ PolicyRaises G.deployment config := by
  rw [← @policyRaises_iff G.deployment config 3]
  unfold httpPolicy
  cases buildPolicy G.deployment config with
  | error e => simp
  | ok policy => simp

/-- A crash of the static check goes through; a block becomes an error of the verdict. -/
theorem baseUrlErrors_str {url : PyStr} {policy : OutboundPolicy}
    (hitem : configItem config "base_url" = some (.str url)) (htruthy : url.isEmpty = false)
    (hhosts : givenItem config "allowed_hosts" = true) (hpolicy : httpPolicy G config = .ok policy) :
    (∃ e, baseUrlErrors G config = .error e) ↔ StaticRaises G.platform policy url := by
  have hgiven : ((Json.str url).truthy PyStr.isEmpty && givenItem config "allowed_hosts") = true := by
    simp [Json.truthy, htruthy, hhosts]
  rw [← staticRaises_iff]
  simp only [baseUrlErrors, hitem, hgiven, if_true, hpolicy]
  cases hstatic : validateStatic G.platform policy url with
  | ok r => simp
  | error e =>
    cases e with
    | blocked reason detail => simp [Security.Exc.isCrash]
    | tooManyRedirects => simp [Security.Exc.isCrash]
    | contentTypeRejected t => simp [Security.Exc.isCrash]
    | responseTooLarge => simp [Security.Exc.isCrash]
    | valueError => simp [Security.Exc.isCrash]
    | typeError => simp [Security.Exc.isCrash]
    | attributeError => simp [Security.Exc.isCrash]
    | invalidUrl => simp [Security.Exc.isCrash]
    | escaped => simp [Security.Exc.isCrash]

theorem givenItem_some {key : PyStr} {v : Json PyStr} (h : configItem config key = some v) :
    givenItem config key = v.truthy PyStr.isEmpty := by
  rw [givenItem, h]

/-- What the check of `base_url` raises. -/
theorem baseUrlErrors_error_iff : (∃ e, baseUrlErrors G config = .error e) ↔
    ∃ v, configItem config "base_url" = some v ∧ v.truthy PyStr.isEmpty = true ∧
      givenItem config "allowed_hosts" = true ∧
      (PolicyRaises G.deployment config ∨ isStr v = false ∨
        ∃ url policy, v = .str url ∧ httpPolicy G config = .ok policy ∧
          StaticRaises G.platform policy url) := by
  cases hitem : configItem config "base_url" with
  | none => simp [baseUrlErrors, hitem]
  | some v =>
    by_cases hgiven : v.truthy PyStr.isEmpty = true ∧ givenItem config "allowed_hosts" = true
    · have hboth : (v.truthy PyStr.isEmpty && givenItem config "allowed_hosts") = true := by
        rw [hgiven.1, hgiven.2]
        rfl
      simp only [Option.some.injEq, exists_eq_left', hgiven, true_and]
      cases hpolicy : httpPolicy G config with
      | error e =>
        have hraises := httpPolicy_error_iff.mp ⟨e, hpolicy⟩
        simp only [baseUrlErrors, hitem, hboth, if_true, hpolicy]
        simp [hraises]
      | ok policy =>
        have hbuilt : ¬ PolicyRaises G.deployment config := by
          rw [← httpPolicy_error_iff, hpolicy]
          simp
        by_cases htext : isStr v = true
        · obtain ⟨url, rfl⟩ := Security.isStr_iff.mp htext
          have hnonempty : url.isEmpty = false := by simpa [Json.truthy] using hgiven.1
          rw [baseUrlErrors_str hitem hnonempty hgiven.2 hpolicy]
          simp [hbuilt, isStr]
        · have herror : baseUrlErrors G config = .error .attributeError := by
            simp only [baseUrlErrors, hitem, hboth, if_true, hpolicy]
            cases v with
            | str s => exact absurd rfl htext
            | null => rfl
            | bool b => rfl
            | number n => rfl
            | arr xs => rfl
            | obj ms => rfl
          rw [herror]
          simp [htext]
    · have hnot : ¬ (v.truthy PyStr.isEmpty && givenItem config "allowed_hosts") = true := by
        rwa [Bool.and_eq_true]
      simp only [baseUrlErrors, hitem, if_neg hnot]
      constructor
      · rintro ⟨e, h⟩
        cases h
      · rintro ⟨w, hw, htruthy, hhosts, -⟩
        cases hw
        exact absurd ⟨htruthy, hhosts⟩ hgiven

/-- **When the HTTP validator raises.** -/
theorem httpValidateConfig_error_iff :
    (∃ e, httpValidateConfig G config = .error e) ↔ HttpRaises G config := by
  have hsplit : (∃ e, httpValidateConfig G config = .error e) ↔
      (∃ e, configHeaders config = .error e) ∨ ∃ e, baseUrlErrors G config = .error e := by
    unfold httpValidateConfig
    cases configHeaders config with
    | error e => simp
    | ok headers =>
      cases baseUrlErrors G config with
      | error e => simp
      | ok rejected => simp
  rw [hsplit, configHeaders_error_iff, baseUrlErrors_error_iff]
  constructor
  · rintro (⟨v, hitem, htruthy, hshape⟩ | ⟨v, hitem, htruthy, hhosts, hpolicy | hshape |
      ⟨url, policy, rfl, hbuilt, hraises⟩⟩)
    · exact .headers hitem htruthy hshape
    · exact .policy (by rw [givenItem_some hitem, htruthy]) hhosts hpolicy
    · exact .baseUrl hitem htruthy hhosts hshape
    · exact .url hitem (by simpa [Json.truthy] using htruthy) hhosts hbuilt hraises
  · intro hraises
    cases hraises with
    | headers hitem htruthy hshape => exact Or.inl ⟨_, hitem, htruthy, hshape⟩
    | policy hbase hhosts hraises =>
      right
      unfold givenItem at hbase
      cases hitem : configItem config "base_url" with
      | none =>
        rw [hitem] at hbase
        cases hbase
      | some v =>
        rw [hitem] at hbase
        exact ⟨v, rfl, hbase, hhosts, Or.inl hraises⟩
    | baseUrl hitem htruthy hhosts hshape =>
      exact Or.inr ⟨_, hitem, htruthy, hhosts, Or.inr (Or.inl hshape)⟩
    | url hitem htruthy hhosts hbuilt hraises =>
      exact Or.inr ⟨_, hitem, by simp [Json.truthy, htruthy], hhosts,
        Or.inr (Or.inr ⟨_, _, rfl, hbuilt, hraises⟩)⟩

/-- What makes `InternalAdapter.validate_config` raise: a `service` that cannot be hashed. -/
def InternalRaises (config : Dict PyStr) : Prop :=
  ∃ v, configItem config "service" = some v ∧ v.truthy PyStr.isEmpty = true ∧ hashable v = false

theorem internalValidateConfig_error_iff :
    (∃ e, internalValidateConfig G config = .error e) ↔ InternalRaises config := by
  have hservice : (∃ e, serviceErrors G config = .error e) ↔ InternalRaises config := by
    unfold serviceErrors InternalRaises
    cases configItem config "service" with
    | none => simp
    | some v =>
      by_cases htruthy : v.truthy PyStr.isEmpty = true
      · by_cases hhash : hashable v = true
        · simp only [htruthy, hhash, Bool.not_true, Bool.false_eq_true, if_false]
          constructor
          · rintro ⟨e, h⟩
            split at h
            · split at h
              · cases h
              · cases h
            · cases h
          · rintro ⟨w, hw, -, hshape⟩
            cases hw
            rw [hhash] at hshape
            cases hshape
        · simp [htruthy, hhash]
      · simp [htruthy]
  rw [← hservice]
  unfold internalValidateConfig
  cases serviceErrors G config with
  | error e => simp
  | ok errors => simp

/-- What makes the validator of a kind raise. -/
def Raises (G : Gateway) : ConnectorKind → Dict PyStr → Prop
  | .http, config => HttpRaises G config
  | .internal, config => InternalRaises config
  | .webhook, _ | .mcp, _ => False

/-- **When a validator raises**: exactly on what `Raises` lists for its kind. -/
theorem validator_error_iff {kind : ConnectorKind}
    {validate : Dict PyStr → Except Security.Exc Verdict} (h : validatorOf G kind = some validate) :
    (∃ e, validate config = .error e) ↔ Raises G kind config := by
  cases kind with
  | http =>
    cases h
    exact httpValidateConfig_error_iff
  | webhook =>
    cases h
    simp [webhookValidateConfig, Raises]
  | internal =>
    cases h
    exact internalValidateConfig_error_iff
  | mcp => cases h

end Raises

/-! ## What a validator accepts -/

section Accepts

variable {G : Gateway} {config : Dict PyStr}

/-- No key that only the operator may set. -/
def NoOperatorKeys (config : Dict PyStr) : Prop :=
  ∀ key ∈ operatorOnlyKeys, configItem config (PyStr.ofString key) = none

/-- What `HttpAdapter.validate_config` accepts. -/
structure HttpAccepts (G : Gateway) (config : Dict PyStr) : Prop where
  allowed_hosts : givenItem config "allowed_hosts" = true
  operator_keys : NoOperatorKeys config
  headers : ∀ headers, configHeaders config = .ok headers →
    ∀ h ∈ headers, headerError G config h.1 h.2 = none
  base_url : ∃ url policy target, configItem config "base_url" = some (.str url) ∧
    url.isEmpty = false ∧ httpPolicy G config = .ok policy ∧
    validateStatic G.platform policy url = .ok target

/-- What `WebhookAdapter.validate_config` accepts. -/
structure WebhookAccepts (config : Dict PyStr) : Prop where
  target_url : givenItem config "target_url" = true
  allowed_hosts : givenItem config "allowed_hosts" = true
  signing_secret_ref : ∃ value reference, configItem config "signing_secret_ref" = some value ∧
    value.truthy PyStr.isEmpty = true ∧ isSecretReference value = some reference ∧
    referenceError reference "" = none
  signing_secret : givenItem config "signing_secret" = false
  operator_keys : NoOperatorKeys config

/-- What `InternalAdapter.validate_config` accepts. -/
structure InternalAccepts (G : Gateway) (config : Dict PyStr) : Prop where
  service : ∃ name, configItem config "service" = some (.str name) ∧ name.isEmpty = false ∧
    (registeredBase G.deployment name).isSome = true
  operation : operationError G (configOperation G config) = none
  url : configItem config "url" = none

/-- What the validator of a kind accepts. -/
def Accepts (G : Gateway) : ConnectorKind → Dict PyStr → Prop
  | .http, config => HttpAccepts G config
  | .webhook, config => WebhookAccepts config
  | .internal, config => InternalAccepts G config
  | .mcp, _ => False

theorem isEmpty_append {α : Type} (xs ys : List α) :
    (xs ++ ys).isEmpty = (xs.isEmpty && ys.isEmpty) := by
  cases xs with
  | nil => rfl
  | cons x xs => rfl

theorem errorUnless_isEmpty {passed : Bool} {error : PyStr} :
    (errorUnless passed error).isEmpty = passed := by
  cases passed with
  | true => rfl
  | false => rfl

theorem rejectedOperatorKeys_isEmpty :
    (rejectedOperatorKeys config).isEmpty = true ↔ NoOperatorKeys config := by
  unfold rejectedOperatorKeys NoOperatorKeys
  rw [List.isEmpty_iff, List.filter_eq_nil_iff]
  refine forall₂_congr fun key _ => ?_
  rw [Bool.not_eq_true, Option.isSome_eq_false_iff, Option.isNone_iff_eq_none]

theorem httpFieldErrors_isEmpty : (httpFieldErrors config).isEmpty = true ↔
    givenItem config "base_url" = true ∧ givenItem config "allowed_hosts" = true ∧
      NoOperatorKeys config := by
  simp only [httpFieldErrors, isEmpty_append, errorUnless_isEmpty, Bool.and_eq_true,
    rejectedOperatorKeys_isEmpty, and_assoc]

/-- The check of a given URL is passed exactly if the static check comes to a target. -/
theorem baseUrlErrors_isEmpty {rejected : List PyStr} (h : baseUrlErrors G config = .ok rejected)
    (hbase : givenItem config "base_url" = true)
    (hhosts : givenItem config "allowed_hosts" = true) :
    rejected.isEmpty = true ↔ ∃ url policy target, configItem config "base_url" = some (.str url) ∧
      url.isEmpty = false ∧ httpPolicy G config = .ok policy ∧
      validateStatic G.platform policy url = .ok target := by
  unfold givenItem at hbase
  cases hitem : configItem config "base_url" with
  | none =>
    rw [hitem] at hbase
    cases hbase
  | some v =>
    rw [hitem] at hbase
    have hboth : (v.truthy PyStr.isEmpty && givenItem config "allowed_hosts") = true := by
      rw [hhosts, Bool.and_true]
      exact hbase
    simp only [baseUrlErrors, hitem, hboth, if_true] at h
    cases hpolicy : httpPolicy G config with
    | error e =>
      rw [hpolicy] at h
      cases h
    | ok policy =>
      rw [hpolicy] at h
      dsimp only at h
      split at h
      · rename_i url
        have hnonempty : url.isEmpty = false := by simpa [Json.truthy] using hbase
        split at h
        · rename_i target hstatic
          cases h
          constructor
          · intro _
            exact ⟨url, policy, target, rfl, hnonempty, rfl, hstatic⟩
          · intro _
            rfl
        · rename_i reason detail hstatic
          cases h
          simp [hstatic]
        · cases h
      · cases h

theorem httpValidateConfig_valid_iff {verdict : Verdict}
    (h : httpValidateConfig G config = .ok verdict) : verdict.valid = true ↔ HttpAccepts G config := by
  unfold httpValidateConfig at h
  cases hheaders : configHeaders config with
  | error e =>
    rw [hheaders] at h
    cases h
  | ok headers =>
    rw [hheaders] at h
    cases hrejected : baseUrlErrors G config with
    | error e =>
      rw [hrejected] at h
      cases h
    | ok rejected =>
      rw [hrejected] at h
      cases h
      have hfields := @httpFieldErrors_isEmpty config
      have hnone : (headers.filterMap fun h => headerError G config h.1 h.2).isEmpty = true ↔
          ∀ h ∈ headers, headerError G config h.1 h.2 = none := by
        rw [List.isEmpty_iff, List.filterMap_eq_nil_iff]
      simp only [Verdict.valid, isEmpty_append, Bool.and_eq_true]
      rw [hfields, hnone]
      constructor
      · rintro ⟨⟨⟨hbase, hhosts, hkeys⟩, hfine⟩, hurl⟩
        refine ⟨hhosts, hkeys, ?_, (baseUrlErrors_isEmpty hrejected hbase hhosts).mp hurl⟩
        intro headers' h'
        rw [hheaders] at h'
        cases h'
        exact hfine
      · rintro ⟨hhosts, hkeys, hfine, hurl⟩
        have hbase : givenItem config "base_url" = true := by
          obtain ⟨url, policy, target, hitem, hnonempty, -⟩ := hurl
          rw [givenItem_some hitem]
          simp [Json.truthy, hnonempty]
        exact ⟨⟨⟨hbase, hhosts, hkeys⟩, hfine headers hheaders⟩,
          (baseUrlErrors_isEmpty hrejected hbase hhosts).mpr hurl⟩

theorem signingErrors_isEmpty : (signingErrors config).isEmpty = true ↔
    ∃ value reference, configItem config "signing_secret_ref" = some value ∧
      value.truthy PyStr.isEmpty = true ∧ isSecretReference value = some reference ∧
      referenceError reference "" = none := by
  unfold signingErrors
  cases configItem config "signing_secret_ref" with
  | none => simp
  | some value =>
    by_cases htruthy : value.truthy PyStr.isEmpty = true
    · cases hreference : isSecretReference value with
      | none => simp [htruthy, hreference]
      | some reference =>
        cases herror : referenceError reference "" with
        | none => simp [htruthy, hreference, herror]
        | some why => simp [htruthy, hreference, herror]
    · simp [htruthy]

theorem webhookValidateConfig_valid_iff {verdict : Verdict}
    (h : webhookValidateConfig config = .ok verdict) :
    verdict.valid = true ↔ WebhookAccepts config := by
  cases h
  simp only [Verdict.valid, isEmpty_append, errorUnless_isEmpty, Bool.and_eq_true,
    signingErrors_isEmpty, rejectedOperatorKeys_isEmpty, Bool.not_eq_true']
  constructor
  · rintro ⟨⟨⟨⟨htarget, hhosts⟩, hsigning⟩, hsecret⟩, hkeys⟩
    exact ⟨htarget, hhosts, hsigning, hsecret, hkeys⟩
  · rintro ⟨htarget, hhosts, hsigning, hsecret, hkeys⟩
    exact ⟨⟨⟨⟨htarget, hhosts⟩, hsigning⟩, hsecret⟩, hkeys⟩

theorem serviceErrors_isEmpty {errors : List PyStr} (h : serviceErrors G config = .ok errors) :
    errors.isEmpty = true ↔ ∃ name, configItem config "service" = some (.str name) ∧
      name.isEmpty = false ∧ (registeredBase G.deployment name).isSome = true := by
  unfold serviceErrors at h
  split at h
  · rename_i hitem
    cases h
    simp [hitem]
  · rename_i value hitem
    split at h
    · rename_i hfalsy
      cases h
      simp only [hitem, Option.some.injEq]
      constructor
      · intro hempty
        cases hempty
      · rintro ⟨name, rfl, hnonempty, -⟩
        simp [Json.truthy, hnonempty] at hfalsy
    · rename_i htruthy
      split at h
      · cases h
      · split at h
        · rename_i name hhash
          have hnonempty : name.isEmpty = false := by simpa [Json.truthy] using htruthy
          split at h
          · rename_i hregistered
            cases h
            simp [hitem, hnonempty, hregistered]
          · rename_i hregistered
            cases h
            simp only [hitem]
            constructor
            · intro hempty
              cases hempty
            · rintro ⟨name', hname, -, hsome⟩
              cases hname
              exact absurd hsome hregistered
        · rename_i hshape
          cases h
          simp only [hitem, Option.some.injEq]
          constructor
          · intro hempty
            cases hempty
          · rintro ⟨name, hname, -⟩
            exact absurd hname (hshape name)

theorem internalValidateConfig_valid_iff {verdict : Verdict}
    (h : internalValidateConfig G config = .ok verdict) :
    verdict.valid = true ↔ InternalAccepts G config := by
  unfold internalValidateConfig at h
  cases hservice : serviceErrors G config with
  | error e =>
    rw [hservice] at h
    cases h
  | ok errors =>
    rw [hservice] at h
    cases h
    have hoperation : (operationError G (configOperation G config)).toList.isEmpty = true ↔
        operationError G (configOperation G config) = none := by
      cases operationError G (configOperation G config) with
      | none => simp
      | some error => simp
    simp only [Verdict.valid, isEmpty_append, Bool.and_eq_true, errorUnless_isEmpty,
      Option.isNone_iff_eq_none]
    rw [hoperation, serviceErrors_isEmpty hservice]
    constructor
    · rintro ⟨⟨hname, hop⟩, hurl⟩
      exact ⟨hname, hop, hurl⟩
    · rintro ⟨hname, hop, hurl⟩
      exact ⟨⟨hname, hop⟩, hurl⟩

/-- **What a validator accepts**: exactly what `Accepts` says for its kind. -/
theorem validator_valid_iff {kind : ConnectorKind}
    {validate : Dict PyStr → Except Security.Exc Verdict} {verdict : Verdict}
    (h : validatorOf G kind = some validate) (hverdict : validate config = .ok verdict) :
    verdict.valid = true ↔ Accepts G kind config := by
  cases kind with
  | http =>
    cases h
    exact httpValidateConfig_valid_iff hverdict
  | webhook =>
    cases h
    exact webhookValidateConfig_valid_iff hverdict
  | internal =>
    cases h
    exact internalValidateConfig_valid_iff hverdict
  | mcp => cases h

end Accepts

/-- A gateway with the example platform and an operator's allowlist. -/
def exampleGateway : Gateway where
  platform := Security.examplePlatform
  deployment := Security.boundary
  setOrder := ⟨id, fun xs => List.Perm.refl xs⟩
  str _ := ""
  str_unicode _ _ := rfl
  repr s := "'" ++ s.toString?.getD "" ++ "'"

end FavlGateway.Registry
