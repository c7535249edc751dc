/-
  The operator's bounds on outbound requests (`app/security/policy.py`).

  A connector's configuration may only narrow the policy.  The host bound is computed with one matching
  rule (`permits`) and enforced with another (`accepts`); `accepts_of_permits` says that what an entry
  of the connector accepts is accepted by the operator's entry that permitted it.
-/
import FavlGateway.Security.Ssrf

namespace FavlGateway.Security

open FavlGateway.Library

/-- What `build_policy` finds around it. -/
structure Deployment where
  unicode : Unicode
  /-- `os.getenv` -/
  getenv : String → Option PyStr

namespace Deployment

variable (D : Deployment)

/-- `_flag` -/
def flag (name : String) (default : Bool) : Bool :=
  let raw := (D.getenv name).getD (if default then "True" else "False")
  decide ((raw.strip.lower D.unicode) ∈ (["1", "true", "yes", "on"] : List PyStr))

/-- `_csv` -/
def csv (name : String) : List PyStr :=
  let raw := ((D.getenv name).getD "").strip
  ((raw.split 0x2C).map PyStr.strip).filter fun part => !part.isEmpty

/-- `int(os.getenv(name, default))` -/
def int (name : String) (default : PyStr) : Except Exc Int :=
  match PyStr.toInt? D.unicode ((D.getenv name).getD default) with
  | some n => .ok n
  | none => .error .valueError

def maxResponseBytesCeiling : Except Exc Int := D.int "OUTBOUND_MAX_RESPONSE_BYTES" "1048576"

def maxRedirectsCeiling : Except Exc Int := D.int "OUTBOUND_MAX_REDIRECTS" "3"

/-- `values or default` -/
def orDefault (values default : List PyStr) : List PyStr := if values.isEmpty then default else values

def allowedContentTypesCeiling : List PyStr :=
  orDefault (D.csv "OUTBOUND_ALLOWED_CONTENT_TYPES") defaultContentTypes

def operatorAllowsPrivateAddresses : Bool := D.flag "OUTBOUND_ALLOW_PRIVATE_ADDRESSES" false

def operatorAllowedSchemes : List PyStr :=
  orDefault (D.csv "OUTBOUND_ALLOWED_SCHEMES") defaultAllowedSchemes

def operatorHostAllowlist : List PyStr := D.csv "OUTBOUND_HOST_ALLOWLIST"

end Deployment

/-! ## Reading a configuration -/

/-- `config.get(key)` -/
def configItem (config : Dict PyStr) (key : PyStr) : Option (Json PyStr) :=
  (config.find? fun m => m.1 = key).map Prod.snd

/-- The members of a value, as `tuple` takes them; `none` where it raises. -/
def members : Json PyStr → Option (List (Json PyStr))
  | .arr xs => some xs
  | .str s => some (s.codepoints.map fun c => .str ⟨[c]⟩)
  | .obj ms => some (ms.map fun m => .str m.1)
  | _ => none

/-- `tuple(config.get(key) or ())` -/
def requestedItems (config : Dict PyStr) (key : PyStr) : Except Exc (List (Json PyStr)) :=
  match configItem config key with
  | none => .ok []
  | some value =>
    if value.truthy PyStr.isEmpty then
      match members value with
      | some items => .ok items
      | none => .error .typeError
    else .ok []

/-- A list or an object cannot be a member of a set. -/
def hashable : Json PyStr → Bool
  | .arr _ | .obj _ => false
  | _ => true

/-- `frozenset(config.get("allowed_hosts") or [])` -/
def connectorHosts (config : Dict PyStr) : Except Exc (List (Json PyStr)) :=
  match requestedItems config "allowed_hosts" with
  | .error e => .error e
  | .ok items => if items.all hashable then .ok items else .error .typeError

/-- An entry of the operator permits a host of the connector. -/
def permits (U : Unicode) (entry host : PyStr) : Bool :=
  canonical U host = canonical U entry ||
    (entry.startsWithStop && (host.lower U).endsWith (entry.lower U))

/-- The hosts that some entry of the operator permits: a connector may pick, never add. -/
def permittedHosts (U : Unicode) (operatorHosts : List PyStr) :
    List (Json PyStr) → Except Exc (List (Json PyStr))
  | [] => .ok []
  | .str host :: rest =>
    match permittedHosts U operatorHosts rest with
    | .error e => .error e
    | .ok hosts =>
      if operatorHosts.any (permits U · host) then .ok (.str host :: hosts) else .ok hosts
  | _ :: _ => .error .attributeError

/-- The hosts of the policy: without an allowlist of the operator's, all that are requested. -/
def boundHosts (U : Unicode) (operatorHosts : List PyStr) (requested : List (Json PyStr)) :
    Except Exc (List (Json PyStr)) :=
  if operatorHosts.isEmpty then .ok requested else permittedHosts U operatorHosts requested

/-- Those of the requested items that are among the allowed. -/
def requestedAmong (allowed : List PyStr) (requested : List (Json PyStr)) : List PyStr :=
  requested.filterMap fun item =>
    match item with
    | .str s => if s ∈ allowed then some s else none
    | _ => none

/-- `int(value)` of a number that is not an integer: towards zero. -/
def truncate (q : ℚ) : Int := if q < 0 then q.ceil else q.floor

/-- `int(value)`, but for non-finite numbers; `none` where it raises. -/
def parseInt (U : Unicode) : Json PyStr → Option Int
  | .bool b => some (if b then 1 else 0)
  | .number (.int n) => some n
  | .number (.float q) => some (truncate q)
  | .number .negZero => some 0
  | .str s => PyStr.toInt? U s
  | _ => none

/-- `_positive_int`: a bound, unless it is nonsensical. -/
def positiveInt (U : Unicode) (value : Option (Json PyStr)) : Option Int :=
  (value.bind (parseInt U)).filter fun n => 0 ≤ n

/-! ## The policy -/

/-- `build_policy`: the operator's bounds with the connector's preferences. -/
def buildPolicy (D : Deployment) (config : Dict PyStr) (maxRedirects : Int := 3) :
    Except Exc OutboundPolicy := do
  let requestedHosts ← connectorHosts config
  let hosts ← boundHosts D.unicode D.operatorHostAllowlist requestedHosts
  let requestedSchemes ← requestedItems config "requested_schemes"
  let bytesCeiling ← D.maxResponseBytesCeiling
  let redirectCeiling ← D.maxRedirectsCeiling
  let requestedBytes := positiveInt D.unicode (configItem config "max_response_bytes")
  let requestedRedirects := positiveInt D.unicode (configItem config "max_redirects")
  let requestedTypes ← requestedItems config "allowed_content_types"
  pure
    { allowedHosts := hosts
      allowedSchemes := Deployment.orDefault
        (requestedAmong D.operatorAllowedSchemes requestedSchemes) D.operatorAllowedSchemes
      allowPrivateAddresses := D.operatorAllowsPrivateAddresses
      maxRedirects := min (requestedRedirects.getD maxRedirects) redirectCeiling
      maxResponseBytes := min (requestedBytes.getD bytesCeiling) bytesCeiling
      allowedContentTypes := Deployment.orDefault
        (requestedAmong D.allowedContentTypesCeiling requestedTypes) D.allowedContentTypesCeiling }

/-- A policy whose hosts are the operator's. -/
def operatorPolicy (D : Deployment) : OutboundPolicy :=
  { allowedHosts := D.operatorHostAllowlist.map Json.str }

/-- The policy stays within the operator's bounds. -/
structure Bounded (D : Deployment) (policy : OutboundPolicy) : Prop where
  addresses : policy.allowPrivateAddresses = D.operatorAllowsPrivateAddresses
  schemes : policy.allowedSchemes ⊆ D.operatorAllowedSchemes
  contentTypes : policy.allowedContentTypes ⊆ D.allowedContentTypesCeiling
  redirects : ∃ ceiling, D.maxRedirectsCeiling = .ok ceiling ∧ policy.maxRedirects ≤ ceiling
  responseBytes : ∃ ceiling, D.maxResponseBytesCeiling = .ok ceiling ∧
    policy.maxResponseBytes ≤ ceiling
  hosts : D.operatorHostAllowlist ≠ [] → ∀ host,
    policy.hostAllowed D.unicode host = .ok true →
      (operatorPolicy D).hostAllowed D.unicode host = .ok true

/-! ### Hosts -/

section Hosts

variable {U : Unicode} {entry raw host : PyStr}

theorem accepts_iff : accepts U raw host = true ↔ canonical U host = canonical U raw ∨
    (canonical U raw).startsWithStop = true ∧ (canonical U host).endsWith (canonical U raw) = true := by
  unfold accepts
  rw [Bool.or_eq_true, Bool.and_eq_true, decide_eq_true_eq]

theorem permits_iff : permits U entry raw = true ↔ canonical U raw = canonical U entry ∨
    entry.startsWithStop = true ∧ (raw.lower U).endsWith (entry.lower U) = true := by
  unfold permits
  rw [Bool.or_eq_true, Bool.and_eq_true, decide_eq_true_eq]

/-- **The host bound**: what a permitted entry accepts, the entry that permitted it accepts. -/
theorem accepts_of_permits (hnames : entry.Names) (hpermits : permits U entry raw = true)
    (haccepts : accepts U raw host = true) : accepts U entry host = true := by
  rw [accepts_iff] at haccepts ⊢
  rcases permits_iff.mp hpermits with hsame | ⟨hstart, hsuffix⟩
  · -- the same entry, but for case and trailing dots
    rw [hsame] at haccepts
    exact haccepts
  · right
    have hnames' : (entry.lower U).Names := PyStr.names_lower hnames
    have hcanonical : (canonical U raw).endsWith (canonical U entry) = true :=
      PyStr.endsWith_rstripStops hsuffix hnames'
    constructor
    · exact PyStr.startsWithStop_rstripStops (PyStr.startsWithStop_lower hstart) hnames'
    · rcases haccepts with hequal | ⟨-, hends⟩
      · rw [hequal]
        exact hcanonical
      · exact PyStr.endsWith_trans hends hcanonical

/-- By induction on the requested hosts: each host that is kept is permitted by some entry. -/
theorem permittedHosts_permits {operatorHosts : List PyStr} {requested hosts : List (Json PyStr)}
    (h : permittedHosts U operatorHosts requested = .ok hosts) {raw : PyStr}
    (hraw : .str raw ∈ hosts) : ∃ entry ∈ operatorHosts, permits U entry raw = true := by
  induction requested generalizing hosts with
  | nil =>
    cases h
    cases hraw
  | cons item rest ih =>
    cases item with
    | str first =>
      unfold permittedHosts at h
      cases hrest : permittedHosts U operatorHosts rest with
      | error e =>
        rw [hrest] at h
        cases h
      | ok kept =>
        rw [hrest] at h
        dsimp only at h
        split at h
        · rename_i hany
          cases h
          rcases List.mem_cons.mp hraw with hfirst | hkept
          · cases hfirst
            obtain ⟨entry, hentry, hpermits⟩ := List.any_eq_true.mp hany
            exact ⟨entry, hentry, hpermits⟩
          · exact ih hrest hkept
        · cases h
          exact ih hrest hraw
    | null => cases h
    | bool b => cases h
    | number n => cases h
    | arr xs => cases h
    | obj ms => cases h

end Hosts

/-! ### The other bounds -/

theorem requestedAmong_subset (allowed : List PyStr) (requested : List (Json PyStr)) :
    requestedAmong allowed requested ⊆ allowed := by
  intro s hs
  obtain ⟨item, -, hitem⟩ := List.mem_filterMap.mp hs
  cases item with
  | str t =>
    dsimp only at hitem
    split at hitem
    · rename_i hmem
      rw [← Option.some.inj hitem]
      exact hmem
    · cases hitem
  | null => cases hitem
  | bool b => cases hitem
  | number n => cases hitem
  | arr xs => cases hitem
  | obj ms => cases hitem

theorem orDefault_subset {values allowed : List PyStr} (h : values ⊆ allowed) :
    Deployment.orDefault values allowed ⊆ allowed := by
  unfold Deployment.orDefault
  split
  · exact List.Subset.refl _
  · exact h

/-- The hosts that are read are the items under the key. -/
theorem connectorHosts_items {config : Dict PyStr} {hosts : List (Json PyStr)}
    (h : connectorHosts config = .ok hosts) :
    requestedItems config "allowed_hosts" = .ok hosts := by
  unfold connectorHosts at h
  split at h
  · cases h
  · rename_i items hitems
    split at h
    · cases h
      exact hitems
    · cases h

/-- What the parts of a policy are. -/
theorem buildPolicy_ok {D : Deployment} {config : Dict PyStr} {maxRedirects : Int}
    {policy : OutboundPolicy} (h : buildPolicy D config maxRedirects = .ok policy) :
    ∃ requestedHosts requestedSchemes requestedTypes bytesCeiling redirectCeiling,
      connectorHosts config = .ok requestedHosts ∧
      boundHosts D.unicode D.operatorHostAllowlist requestedHosts = .ok policy.allowedHosts ∧
      requestedItems config "requested_schemes" = .ok requestedSchemes ∧
      policy.allowedSchemes = Deployment.orDefault
        (requestedAmong D.operatorAllowedSchemes requestedSchemes) D.operatorAllowedSchemes ∧
      policy.allowPrivateAddresses = D.operatorAllowsPrivateAddresses ∧
      D.maxResponseBytesCeiling = .ok bytesCeiling ∧
      policy.maxResponseBytes = min ((positiveInt D.unicode
        (configItem config "max_response_bytes")).getD bytesCeiling) bytesCeiling ∧
      D.maxRedirectsCeiling = .ok redirectCeiling ∧
      policy.maxRedirects = min ((positiveInt D.unicode
        (configItem config "max_redirects")).getD maxRedirects) redirectCeiling ∧
      requestedItems config "allowed_content_types" = .ok requestedTypes ∧
      policy.allowedContentTypes = Deployment.orDefault
        (requestedAmong D.allowedContentTypesCeiling requestedTypes)
        D.allowedContentTypesCeiling := by
  unfold buildPolicy at h
  obtain ⟨requestedHosts, hrequested, h⟩ := of_bind h
  obtain ⟨hosts, hhosts, h⟩ := of_bind h
  obtain ⟨requestedSchemes, hschemes, h⟩ := of_bind h
  obtain ⟨bytesCeiling, hbytes, h⟩ := of_bind h
  obtain ⟨redirectCeiling, hredirects, h⟩ := of_bind h
  obtain ⟨requestedTypes, htypes, h⟩ := of_bind h
  cases h
  exact ⟨requestedHosts, requestedSchemes, requestedTypes, bytesCeiling, redirectCeiling,
    hrequested, hhosts, hschemes, rfl, rfl, hbytes, rfl, hredirects, rfl, htypes, rfl⟩

/-- **A configuration never widens outbound reach**: on whatever configuration `build_policy`
    returns, the policy stays within the operator's bounds, if no entry of the operator's allowlist
    is made of dots alone. -/
theorem build_policy_bounded (D : Deployment) (config : Dict PyStr) (maxRedirects : Int)
    {policy : OutboundPolicy} (h : buildPolicy D config maxRedirects = .ok policy)
    (hentries : ∀ entry ∈ D.operatorHostAllowlist, entry.Names) : Bounded D policy := by
  obtain ⟨requestedHosts, requestedSchemes, requestedTypes, bytesCeiling, redirectCeiling, -,
    hhosts, -, hschemes, haddresses, hbytesCeiling, hbytes, hredirectCeiling, hredirects, -,
    htypes⟩ := buildPolicy_ok h
  constructor
  · exact haddresses
  · rw [hschemes]
    exact orDefault_subset (requestedAmong_subset _ _)
  · rw [htypes]
    exact orDefault_subset (requestedAmong_subset _ _)
  · exact ⟨redirectCeiling, hredirectCeiling, hredirects ▸ Int.min_le_right _ _⟩
  · exact ⟨bytesCeiling, hbytesCeiling, hbytes ▸ Int.min_le_right _ _⟩
  · intro hoperator host hallowed
    rw [boundHosts, if_neg (by simpa using hoperator)] at hhosts
    obtain ⟨raw, hraw, haccepts⟩ := anyAccepts_eq_true hallowed
    obtain ⟨entry, hentry, hpermits⟩ := permittedHosts_permits hhosts hraw
    show anyAccepts D.unicode host (D.operatorHostAllowlist.map Json.str) = .ok true
    rw [anyAccepts_texts]
    have hany : D.operatorHostAllowlist.any (accepts D.unicode · host) = true :=
      List.any_eq_true.mpr ⟨entry, hentry, accepts_of_permits (hentries entry hentry) hpermits
        haccepts⟩
    rw [hany]

/-! ### A deployment with an egress boundary -/

def boundaryEnv : String → Option PyStr
  | "OUTBOUND_HOST_ALLOWLIST" => some ".Example.com, partner.test"
  | "OUTBOUND_MAX_REDIRECTS" => some " 2 "
  | _ => none

def boundary : Deployment := ⟨Unicode.ascii, boundaryEnv⟩

/-- A connector that asks for a host, a scheme, redirects and a size beyond its bounds. -/
def greedyConfig : Dict PyStr :=
  [("allowed_hosts", .arr [.str "API.example.com", .str "evil.test"]),
    ("requested_schemes", .arr [.str "http"]), ("allow_private_addresses", .bool true),
    ("max_redirects", .number (.int 100)), ("max_response_bytes", .str "10_000_000_000")]

def narrowedPolicy : OutboundPolicy where
  allowedHosts := [.str "API.example.com"]
  maxRedirects := 2

theorem build_policy_bounded_greedy : Bounded boundary narrowedPolicy := by
  have hentries : boundary.operatorHostAllowlist = [".Example.com", "partner.test"] := by
    decide +kernel
  refine build_policy_bounded boundary greedyConfig 3 (by decide +kernel) ?_
  rw [hentries]
  intro entry hentry
  rcases List.mem_cons.mp hentry with rfl | hentry
  · exact ⟨0x45, by decide +kernel, by decide⟩
  · rcases List.mem_singleton.mp hentry with rfl
    exact ⟨0x70, by decide +kernel, by decide⟩

end FavlGateway.Security
