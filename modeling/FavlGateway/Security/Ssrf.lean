/-
  The outbound request guard (`app/security/ssrf.py`): the policy, the classification of addresses
  and the checks of a URL.

  An address is normalised before it is classified, and normalising twice is normalising once, so the
  address a connection is pinned to is classified exactly as the answer it came from.
-/
import FavlGateway.Security.Network

namespace FavlGateway.Security

open FavlGateway.Library

/-! ## Policies -/

def defaultAllowedSchemes : List PyStr := ["https"]

def defaultContentTypes : List PyStr :=
  ["application/json", "application/problem+json", "text/plain"]

structure OutboundPolicy where
  /-- In the order the set is gone through; nothing makes its members texts. -/
  allowedHosts : List (Json PyStr) := []
  allowedSchemes : List PyStr := defaultAllowedSchemes
  allowPrivateAddresses : Bool := false
  maxRedirects : Int := 3
  maxResponseBytes : Int := 1048576
  allowedContentTypes : List PyStr := defaultContentTypes
  deriving DecidableEq

/-- `s.lower().rstrip(".")` -/
def canonical (U : Unicode) (s : PyStr) : PyStr := (s.lower U).rstripStops

/-- An entry of the allowlist accepts a host. -/
def accepts (U : Unicode) (raw host : PyStr) : Bool :=
  canonical U host = canonical U raw ||
    -- a leading dot means "this domain and its subdomains"
    ((canonical U raw).startsWithStop && (canonical U host).endsWith (canonical U raw))

/-- The loop of `host_allowed`. -/
def anyAccepts (U : Unicode) (host : PyStr) : List (Json PyStr) → Except Exc Bool
  | [] => .ok false
  | .str raw :: rest => if accepts U raw host then .ok true else anyAccepts U host rest
  | _ :: _ => .error .attributeError

/-- `host_allowed` -/
def OutboundPolicy.hostAllowed (U : Unicode) (policy : OutboundPolicy) (host : PyStr) :
    Except Exc Bool :=
  anyAccepts U host policy.allowedHosts

theorem anyAccepts_eq_true {U : Unicode} {host : PyStr} {entries : List (Json PyStr)}
    (h : anyAccepts U host entries = .ok true) :
    ∃ raw, .str raw ∈ entries ∧ accepts U raw host = true := by
  induction entries with
  | nil => cases h
  | cons entry rest ih =>
    cases entry with
    | str raw =>
      unfold anyAccepts at h
      by_cases haccepts : accepts U raw host = true
      · exact ⟨raw, List.mem_cons_self .., haccepts⟩
      · rw [if_neg haccepts] at h
        obtain ⟨raw', hmem, haccepts'⟩ := ih h
        exact ⟨raw', List.mem_cons_of_mem _ hmem, haccepts'⟩
    | null => cases h
    | bool b => cases h
    | number n => cases h
    | arr xs => cases h
    | obj ms => cases h

/-- A list of texts is gone through to its end. -/
theorem anyAccepts_texts {U : Unicode} {host : PyStr} (entries : List PyStr) :
    anyAccepts U host (entries.map Json.str) = .ok (entries.any (accepts U · host)) := by
  induction entries with
  | nil => rfl
  | cons raw rest ih =>
    show (if accepts U raw host then .ok true else anyAccepts U host (rest.map Json.str)) = _
    rw [List.any_cons, ih]
    cases accepts U raw host <;> rfl

/-! ## Addresses -/

/-- `METADATA_NETWORKS` -/
def metadataNetworks : List IpNetwork :=
  [.quad 169 254 169 254 32, .quad 169 254 170 2 32, .quad 100 100 100 200 32,
    .v6 0xfd000ec2000000000000000000000254 128]

/-- `ALWAYS_FORBIDDEN` -/
def alwaysForbiddenNetworks : List (IpNetwork × String) :=
  [(.quad 127 0 0 0 8, "loopback_address"),
    (.v6 0x00000000000000000000000000000001 128, "loopback_address"),
    (.quad 169 254 0 0 16, "link_local_address"),
    (.v6 0xfe800000000000000000000000000000 10, "link_local_address"),
    (.quad 224 0 0 0 4, "multicast_address"),
    (.v6 0xff000000000000000000000000000000 8, "multicast_address"),
    (.quad 0 0 0 0 8, "unspecified_address"),
    (.v6 0x00000000000000000000000000000000 128, "unspecified_address"),
    (.quad 100 64 0 0 10, "shared_address_space"),
    (.v6 0xfec00000000000000000000000000000 10, "site_local_address"),
    (.v6 0x00000000000000000000000000000000 96, "ipv4_compatible_address"),
    (.v6 0x0000000000000000ffff000000000000 96, "ipv4_translated_address"),
    (.quad 192 88 99 0 24, "reserved_address"),
    (.v6 0x20010db8000000000000000000000000 32, "documentation_address"),
    (.v6 0x01000000000000000000000000000000 64, "discard_only_address")]

/-- `PRIVATE_NETWORKS` -/
def privateNetworks : List (IpNetwork × String) :=
  [(.quad 10 0 0 0 8, "private_address"),
    (.quad 172 16 0 0 12, "private_address"),
    (.quad 192 168 0 0 16, "private_address"),
    (.v6 0xfc000000000000000000000000000000 7, "private_address"),
    (.quad 192 0 0 0 24, "reserved_address"),
    (.quad 192 0 2 0 24, "reserved_address"),
    (.quad 198 18 0 0 15, "reserved_address"),
    (.quad 198 51 100 0 24, "reserved_address"),
    (.quad 203 0 113 0 24, "reserved_address"),
    (.quad 240 0 0 0 4, "reserved_address"),
    (.quad 255 255 255 255 32, "broadcast_address")]

/-- `NAT64_PREFIX` -/
def nat64Network : IpNetwork := .v6 0x0064ff9b000000000000000000000000 96

/-- `normalise_address`: the version 4 address that a version 6 address embeds. -/
def normaliseAddress : IpAddress → IpAddress
  | .v4 bits => .v4 bits
  | .v6 bits scope =>
    match IpAddress.ipv4Mapped bits with
    | some mapped => .v4 mapped
    | none =>
      match IpAddress.sixtofour bits with
      | some embedded => .v4 embedded
      | none =>
        match IpAddress.teredoClient bits with
        | some client => .v4 client
        | none =>
          if nat64Network.contains (.v6 bits scope) then .v4 (bits.setWidth 32)
          else .v6 bits scope

/-- `_match` -/
def matchNetwork (ip : IpAddress) : List (IpNetwork × String) → Option String
  | [] => none
  | (network, reason) :: rest => if network.contains ip then some reason else matchNetwork ip rest

/-- `_always_forbidden` -/
def alwaysForbidden (ip : IpAddress) : Option String :=
  if metadataNetworks.any (·.contains (normaliseAddress ip)) then some "cloud_metadata_endpoint"
  else matchNetwork (normaliseAddress ip) alwaysForbiddenNetworks

/-- `_address_is_forbidden` -/
def addressIsForbidden (ip : IpAddress) : Option String :=
  match alwaysForbidden (normaliseAddress ip) with
  | some reason => some reason
  | none => matchNetwork (normaliseAddress ip) privateNetworks

/-- `classify`: why an address is forbidden. -/
def classify (ip : IpAddress) (allowPrivate : Bool) : Option String :=
  if allowPrivate then alwaysForbidden ip else addressIsForbidden ip

/-- Normalising an address takes out what it embeds, or leaves it alone. -/
theorem normaliseAddress_cases (ip : IpAddress) :
    (∃ bits, normaliseAddress ip = .v4 bits) ∨ normaliseAddress ip = ip := by
  cases ip with
  | v4 bits => exact .inl ⟨bits, rfl⟩
  | v6 bits scope =>
    rw [normaliseAddress]
    split
    · exact .inl ⟨_, rfl⟩
    · split
      · exact .inl ⟨_, rfl⟩
      · split
        · exact .inl ⟨_, rfl⟩
        · split
          · exact .inl ⟨_, rfl⟩
          · exact .inr rfl

/-- **Normalising is done once and for all.** -/
theorem normaliseAddress_idem (ip : IpAddress) :
    normaliseAddress (normaliseAddress ip) = normaliseAddress ip := by
  rcases normaliseAddress_cases ip with ⟨bits, h⟩ | h
  · rw [h]
    rfl
  · rw [h, h]

/-- An address is classified as what it is pinned to. -/
theorem classify_normaliseAddress (ip : IpAddress) (allowPrivate : Bool) :
    classify (normaliseAddress ip) allowPrivate = classify ip allowPrivate := by
  have halways : alwaysForbidden (normaliseAddress ip) = alwaysForbidden ip := by
    unfold alwaysForbidden
    rw [normaliseAddress_idem]
  unfold classify addressIsForbidden
  rw [normaliseAddress_idem, halways]

/-! ## Resolution -/

/-- The loop of `resolve_and_validate`: every address must pass. -/
def checkAddresses (P : Platform) (policy : OutboundPolicy) (host : PyStr) :
    List PyStr → Except Exc (List PyStr)
  | [] => .ok []
  | raw :: rest =>
    match P.ipAddress raw with
    | none => .error (.blocked "unparsable_address" raw)
    | some parsed =>
      let ip := normaliseAddress parsed
      match classify ip policy.allowPrivateAddresses with
      | some reason => .error (.blocked reason (host ++ " -> " ++ raw))
      | none =>
        -- the normalised form: the socket goes where the check was made
        match checkAddresses P policy host rest with
        | .ok addresses => .ok (P.ipText ip :: addresses)
        | .error e => .error e

/-- What the answers of a lookup come to: one address, if all of them passed. -/
def pickAddress (P : Platform) (policy : OutboundPolicy) (host : PyStr) :
    Lookup → Except Exc PyStr
  | .raised => .error .escaped
  | .gaierror text => .error (.blocked "dns_resolution_failed" (host ++ ": " ++ text))
  | .infos infos =>
    match checkAddresses P policy host infos with
    | .error e => .error e
    | .ok [] => .error (.blocked "dns_resolution_failed" host)
    | .ok (address :: _) => .ok address

/-- `resolve_and_validate` -/
def resolveAndValidate (P : Platform) (policy : OutboundPolicy) (host : PyStr) (port : Nat) :
    Outbound PyStr := do
  let answer ← await (.getaddrinfo host port)
  .ofExcept (pickAddress P policy host answer)

/-! ## Checking a URL -/

/-- `if text` -/
def given : Option PyStr → Bool
  | none => false
  | some text => !text.isEmpty

/-- The scheme, if it is allowed. -/
def checkScheme (P : Platform) (policy : OutboundPolicy) (parsed : ParsedUrl) : Except Exc PyStr :=
  let scheme := parsed.scheme.lower P.unicode
  if scheme ∈ policy.allowedSchemes then .ok scheme
  else .error (.blocked "scheme_not_allowed" (if scheme.isEmpty then "<none>" else scheme))

/-- The host, if there is one. -/
def checkHostname (url : PyStr) (parsed : ParsedUrl) : Except Exc PyStr :=
  match parsed.hostname with
  | none => .error (.blocked "missing_host" url)
  | some host => if host.isEmpty then .error (.blocked "missing_host" url) else .ok host

/-- Credentials would be sent to whatever the name resolves to. -/
def checkCredentials (parsed : ParsedUrl) (host : PyStr) : Except Exc Unit :=
  if given parsed.username || given parsed.password then
    .error (.blocked "credentials_in_url" host)
  else .ok ()

def checkHost (P : Platform) (policy : OutboundPolicy) (host : PyStr) : Except Exc Unit :=
  match policy.hostAllowed P.unicode host with
  | .error e => .error e
  | .ok true => .ok ()
  | .ok false => .error (.blocked "host_not_allowlisted" host)

/-- A literal address in the URL skips the resolution: it is classified here as well. -/
def checkLiteral (P : Platform) (policy : OutboundPolicy) (host : PyStr) : Except Exc Unit :=
  match P.ipAddress (host.stripOf fun c => c = 0x5B ∨ c = 0x5D) with
  | none => .ok ()
  | some ip =>
    match classify ip policy.allowPrivateAddresses with
    | some reason => .error (.blocked reason host)
    | none => .ok ()

/-- `parsed.port or (443 if scheme == "https" else 80)` -/
def portOf (parsed : ParsedUrl) (scheme : PyStr) : Except Exc Nat :=
  let default := if scheme = "https" then 443 else 80
  match parsed.port with
  | none => .error .valueError
  | some none => .ok default
  | some (some port) => .ok (if port = 0 then default else port)

/-- `urlparse(url)` -/
def parseUrl (P : Platform) (url : PyStr) : Except Exc ParsedUrl :=
  match P.urlparse url with
  | none => .error .valueError
  | some parsed => .ok parsed

/-- `validate_static` -/
def validateStatic (P : Platform) (policy : OutboundPolicy) (url : PyStr) :
    Except Exc (PyStr × PyStr × Nat) := do
  let parsed ← parseUrl P url
  let scheme ← checkScheme P policy parsed
  let host ← checkHostname url parsed
  checkCredentials parsed host
  checkHost P policy host
  checkLiteral P policy host
  let port ← portOf parsed scheme
  pure (scheme, host, port)

structure ValidatedTarget where
  url : PyStr
  host : PyStr
  port : Nat
  scheme : PyStr
  /-- the address the connection is pinned to, so the name is resolved once -/
  address : PyStr
  pinnedUrl : PyStr

/-- `f"{literal}:{port}"` -/
def netloc (address : PyStr) (port : Nat) : PyStr :=
  let literal := if 0x3A ∈ address.codepoints then "[" ++ address ++ "]" else address
  literal ++ ":" ++ toString port

/-- `validate_url` -/
def validateUrl (P : Platform) (policy : OutboundPolicy) (url : PyStr) :
    Outbound ValidatedTarget := do
  let parsed ← .ofExcept (parseUrl P url)
  let (scheme, host, port) ← .ofExcept (validateStatic P policy url)
  let address ← resolveAndValidate P policy host port
  pure ⟨url, host, port, scheme, address, parsed.withNetloc (netloc address port)⟩

end FavlGateway.Security
