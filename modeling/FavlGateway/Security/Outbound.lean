/-
  Guarded outbound HTTP (`app/security/outbound.py`).

  Redirects are followed by hand, so that each hop is checked again.  The URL of a hop and the answers
  of its lookup are up to whoever controls the servers and the names; `Seen` is what an observer of the
  run remembers of both, and `Checked` what the last lookup must have answered for a call to be made.
-/
import FavlGateway.Security.Ssrf

namespace FavlGateway.Security

open FavlGateway.Library

/-! ## Requests -/

/-- Never forwarded to a provider. -/
def strippedRequestHeaders : List PyStr :=
  ["authorization", "proxy-authorization", "cookie", "x-api-key", "connection", "keep-alive",
    "proxy-connection", "transfer-encoding", "upgrade", "te", "trailer", "host"]

/-- `sanitise_headers` -/
def sanitiseHeaders (U : Unicode) : Option (List (PyStr × PyStr)) → List (PyStr × PyStr)
  | none => []
  | some headers => headers.filter fun h => h.1.lower U ∉ strippedRequestHeaders

/-- `headers[key] = value` -/
def setHeader (headers : List (PyStr × PyStr)) (key value : PyStr) : List (PyStr × PyStr) :=
  if headers.any fun h => h.1 = key then headers.map fun h => if h.1 = key then (key, value) else h
  else headers ++ [(key, value)]

/-- The arguments of `request`, but for the URL and the policy. -/
structure Arguments where
  method : PyStr
  jsonBody : Json PyStr := .null
  content : Option (List UInt8) := none
  headers : Option (List (PyStr × PyStr)) := none
  connectTimeout : ℚ := 5
  readTimeout : ℚ := 10
  totalTimeout : ℚ := 15

structure OutboundResponse where
  statusCode : Nat
  body : List UInt8
  headers : List (PyStr × PyStr)
  finalUrl : PyStr
  providerRequestId : Option PyStr
  redirects : Nat

/-- The `Host` header carries the real name. -/
def hostHeader (target : ValidatedTarget) : PyStr :=
  if target.port = 80 ∨ target.port = 443 then target.host
  else target.host ++ ":" ++ toString target.port

/-- The call of one hop: to the pinned address, under the real name. -/
def hopCall (P : Platform) (args : Arguments) (target : ValidatedTarget) : Call where
  method := args.method
  url := target.pinnedUrl
  headers := setHeader (sanitiseHeaders P.unicode args.headers) "Host" (hostHeader target)
  json := args.jsonBody
  content := args.content
  timeout := args.totalTimeout
  connectTimeout := args.connectTimeout
  readTimeout := args.readTimeout
  followRedirects := false
  sniHostname := target.host

/-- `await client.request(…)` -/
def sendRequest (call : Call) : Outbound HttpResponse := do
  match ← await (.request call) with
  | none => .raise .escaped
  | some response => pure response

/-- `await response.aclose()` -/
def closeResponse : Outbound Unit := do
  if ← await .aclose then pure () else .raise .escaped

/-- `_read_capped`: `none` as soon as the cap is passed. -/
def readCapped (limit : Int) (total : Nat) : List (List UInt8) → Option (List UInt8)
  | [] => some []
  | chunk :: rest =>
    if limit < total + chunk.length then none
    else (readCapped limit (total + chunk.length) rest).map (chunk ++ ·)

def readBody (policy : OutboundPolicy) (response : HttpResponse) : Except Exc (List UInt8) :=
  match readCapped policy.maxResponseBytes 0 response.chunks with
  | none => .error .responseTooLarge
  | some body => if response.streamFails then .error .escaped else .ok body

/-- The content type, its parameters dropped. -/
def contentType (response : HttpResponse) : PyStr :=
  PyStr.strip ⟨((response.header "content-type").getD "").codepoints.takeWhile (· ≠ 0x3B)⟩

/-- `first or second` -/
def orElse (first second : Option PyStr) : Option PyStr := if given first then first else second

/-- The end of `request`, for a response that is no redirect. -/
def finishRequest (policy : OutboundPolicy) (url : PyStr) (redirects : Nat)
    (response : HttpResponse) : Outbound OutboundResponse :=
  let type := contentType response
  if type.isEmpty = false ∧ type ∉ policy.allowedContentTypes then do
    closeResponse
    .raise (.contentTypeRejected type)
  else do
    let body := readBody policy response
    closeResponse
    let body ← .ofExcept body
    pure
      { statusCode := response.statusCode
        body := body
        headers := response.headers
        finalUrl := url
        providerRequestId :=
          orElse (response.header "x-request-id") (response.header "x-correlation-id")
        redirects := redirects }

/-- Where a redirect leads; the host of the new URL is only logged. -/
def nextHop (P : Platform) (url location : PyStr) : Except Exc PyStr :=
  match P.join url location with
  | none => .error .invalidUrl
  | some next =>
    match P.urlHost next with
    | none => .error .invalidUrl
    | some _ => .ok next

def isRedirect (statusCode : Nat) : Bool := statusCode ∈ [301, 302, 303, 307, 308]

/-- The location of a redirect. -/
def checkLocation (response : HttpResponse) (host : PyStr) : Except Exc PyStr :=
  match response.header "location" with
  | none => .error (.blocked "redirect_without_location" host)
  | some location =>
    if location.isEmpty then .error (.blocked "redirect_without_location" host) else .ok location

/-- The loop of `request`, after some redirects. -/
def follow (P : Platform) (args : Arguments) (policy : OutboundPolicy) (url : PyStr)
    (redirects : Nat) : Outbound OutboundResponse := do
  let target ← validateUrl P policy url
  let response ← sendRequest (hopCall P args target)
  if isRedirect response.statusCode then
    closeResponse
    let location ← .ofExcept (checkLocation response target.host)
    if h : policy.maxRedirects < redirects + 1 then .raise .tooManyRedirects
    else
      let next ← .ofExcept (nextHop P url location)
      follow P args policy next (redirects + 1)
  else finishRequest policy url redirects response
termination_by (policy.maxRedirects - redirects).toNat
decreasing_by omega

/-- `request` -/
def request (P : Platform) (args : Arguments) (policy : OutboundPolicy) (url : PyStr) :
    Outbound OutboundResponse :=
  follow P args policy url 0

/-! ## What an observer sees -/

/-- The URL of the current hop, and the lookup that has just been answered. -/
structure Seen where
  url : Option PyStr
  lookup : Option (PyStr × Nat × List PyStr) := none

/-- The URL after a response. -/
def Seen.urlAfter (P : Platform) (seen : Seen) (response : HttpResponse) : Option PyStr :=
  if isRedirect response.statusCode then
    match seen.url, response.header "location" with
    | some url, some location => P.join url location
    | _, _ => none
  else seen.url

def Seen.watch (P : Platform) (seen : Seen) : Prog.Answered NetOp → Seen
  | ⟨.getaddrinfo host port, .infos addresses⟩ => { seen with lookup := some (host, port, addresses) }
  | ⟨.request _, some response⟩ => { url := seen.urlAfter P response }
  | _ => { seen with lookup := none }

/-- An answer classifies as permitted. -/
def Permitted (P : Platform) (policy : OutboundPolicy) (raw : PyStr) : Prop :=
  ∃ ip, P.ipAddress raw = some ip ∧ classify ip policy.allowPrivateAddresses = none

/-- A call is checked: it is pinned to the first answer of the lookup just made for the host of the
    current hop's URL. -/
inductive Checked (P : Platform) (policy : OutboundPolicy) (seen : Seen) (call : Call) : Prop where
  | pinned {url host first : PyStr} {parsed : ParsedUrl} {port : Nat} {rest : List PyStr}
      {ip : IpAddress}
      (current : seen.url = some url)
      (parses : P.urlparse url = some parsed)
      (named : parsed.hostname = some host)
      (scheme : parsed.scheme.lower P.unicode ∈ policy.allowedSchemes)
      (credentials : given parsed.username = false ∧ given parsed.password = false)
      (allowed : policy.hostAllowed P.unicode host = .ok true)
      (resolved : seen.lookup = some (host, port, first :: rest))
      (permitted : ∀ raw ∈ first :: rest, Permitted P policy raw)
      (address : P.ipAddress first = some ip)
      (pinned : call.url = parsed.withNetloc (netloc (P.ipText (normaliseAddress ip)) port))
      (named_to_server : call.sniHostname = host)
      (unfollowed : call.followRedirects = false)

/-- A call may only be made if it is checked. -/
def Guards (P : Platform) (policy : OutboundPolicy) {β : Type} : NetOp β → Seen → Prop
  | .request call, seen => Checked P policy seen call
  | _, _ => True

def guarding (P : Platform) (policy : OutboundPolicy) : Discipline NetOp Seen :=
  .observing (Seen.watch P) (Guards P policy)

/-! ### One hop -/

section Hop

variable {P : Platform} {policy : OutboundPolicy} {host : PyStr}

/-- All answers passed, and the first address is the first answer, normalised. -/
theorem checkAddresses_ok {infos addresses : List PyStr}
    (h : checkAddresses P policy host infos = .ok addresses) :
    (∀ raw ∈ infos, Permitted P policy raw) ∧
      (addresses = [] ∨ ∃ first rest ip others, infos = first :: rest ∧
        P.ipAddress first = some ip ∧ addresses = P.ipText (normaliseAddress ip) :: others) := by
  induction infos generalizing addresses with
  | nil =>
    cases h
    exact ⟨nofun, .inl rfl⟩
  | cons raw rest ih =>
    unfold checkAddresses at h
    cases hip : P.ipAddress raw with
    | none =>
      rw [hip] at h
      cases h
    | some ip =>
      simp only [hip, classify_normaliseAddress] at h
      cases hclass : classify ip policy.allowPrivateAddresses with
      | some reason =>
        rw [hclass] at h
        cases h
      | none =>
        rw [hclass] at h
        cases hrest : checkAddresses P policy host rest with
        | error e =>
          rw [hrest] at h
          cases h
        | ok others =>
          rw [hrest] at h
          cases h
          obtain ⟨hpermitted, -⟩ := ih hrest
          refine ⟨?_, .inr ⟨raw, rest, ip, others, rfl, hip, rfl⟩⟩
          intro raw' hraw
          rcases List.mem_cons.mp hraw with rfl | hraw
          · exact ⟨ip, hip, hclass⟩
          · exact hpermitted raw' hraw

/-- **All or nothing**: an address is picked only if every answer passed, and it is the first. -/
theorem pickAddress_ok {answer : Lookup} {address : PyStr}
    (h : pickAddress P policy host answer = .ok address) :
    ∃ first rest ip, answer = .infos (first :: rest) ∧
      (∀ raw ∈ first :: rest, Permitted P policy raw) ∧ P.ipAddress first = some ip ∧
      address = P.ipText (normaliseAddress ip) := by
  cases answer with
  | raised => cases h
  | gaierror text => cases h
  | infos infos =>
    unfold pickAddress at h
    cases hcheck : checkAddresses P policy host infos with
    | error e =>
      simp only [hcheck] at h
      cases h
    | ok addresses =>
      obtain ⟨hpermitted, rfl | ⟨first, rest, ip, others, rfl, hip, rfl⟩⟩ :=
        checkAddresses_ok hcheck
      · simp only [hcheck] at h
        cases h
      · simp only [hcheck] at h
        cases h
        exact ⟨first, rest, ip, rfl, hpermitted, hip, rfl⟩

theorem validateStatic_ok {url scheme : PyStr} {port : Nat}
    (h : validateStatic P policy url = .ok (scheme, host, port)) :
    ∃ parsed, P.urlparse url = some parsed ∧ parsed.hostname = some host ∧
      parsed.scheme.lower P.unicode ∈ policy.allowedSchemes ∧
      (given parsed.username = false ∧ given parsed.password = false) ∧
      policy.hostAllowed P.unicode host = .ok true := by
  unfold validateStatic at h
  obtain ⟨parsed, hparsed, h⟩ := of_bind h
  obtain ⟨scheme', hscheme, h⟩ := of_bind h
  obtain ⟨host', hhost, h⟩ := of_bind h
  obtain ⟨u, hcredentials, h⟩ := of_bind h
  obtain ⟨u, hallowed, h⟩ := of_bind h
  obtain ⟨u, -, h⟩ := of_bind h
  obtain ⟨port', -, h⟩ := of_bind h
  cases h
  refine ⟨parsed, ?_, ?_, ?_, ?_, ?_⟩
  · unfold parseUrl at hparsed
    split at hparsed
    · cases hparsed
    · rename_i hsome
      cases hparsed
      exact hsome
  · unfold checkHostname at hhost
    split at hhost
    · cases hhost
    · rename_i hsome
      split at hhost
      · cases hhost
      · cases hhost
        exact hsome
  · unfold checkScheme at hscheme
    dsimp only at hscheme
    split at hscheme
    · rename_i hmem
      exact hmem
    · cases hscheme
  · unfold checkCredentials at hcredentials
    split at hcredentials
    · cases hcredentials
    · rename_i hnone
      simpa using hnone
  · unfold checkHost at hallowed
    split at hallowed
    · cases hallowed
    · rename_i htrue
      exact htrue
    · cases hallowed

/-- What `validate_url` has found out when it returns: the URL of the hop, the host and the port that
    its static part takes from it, and the answers of the lookup just made for them. -/
structure Looked (P : Platform) (policy : OutboundPolicy) (url : PyStr) (seen : Seen)
    (target : ValidatedTarget) : Prop where
  current : seen.url = some url
  static : validateStatic P policy url = .ok (target.scheme, target.host, target.port)
  answers : ∃ infos, seen.lookup = some (target.host, target.port, infos) ∧
    pickAddress P policy target.host (.infos infos) = .ok target.address
  pinned : ∃ parsed, P.urlparse url = some parsed ∧
    target.pinnedUrl = parsed.withNetloc (netloc target.address target.port)

/-- A call to a target just looked up is checked. -/
theorem Looked.checked {url : PyStr} {seen : Seen} {target : ValidatedTarget}
    (h : Looked P policy url seen target) {call : Call} (hurl : call.url = target.pinnedUrl)
    (hsni : call.sniHostname = target.host) (hfollow : call.followRedirects = false) :
    Checked P policy seen call := by
  obtain ⟨parsed, hparses, hnamed, hscheme, hcredentials, hallowed⟩ := validateStatic_ok h.static
  obtain ⟨infos, hlookup, hpick⟩ := h.answers
  obtain ⟨first, rest, ip, hinfos, hpermitted, hip, haddress⟩ := pickAddress_ok hpick
  obtain ⟨parsed', hparses', hpinned⟩ := h.pinned
  obtain rfl : parsed' = parsed := Option.some.inj (hparses'.symm.trans hparses)
  injection hinfos with hinfos
  rw [hinfos] at hlookup
  rw [haddress] at hpinned
  exact .pinned h.current hparses hnamed hscheme hcredentials hallowed hlookup hpermitted hip
    (hurl.trans hpinned) hsni hfollow

/-- What must hold of a call when it is made; the other operations are free. -/
def Calls (pre : Seen → Call → Prop) {β : Type} : NetOp β → Seen → Prop
  | .request call, seen => pre seen call
  | _, _ => True

def watching (P : Platform) (pre : Seen → Call → Prop) : Discipline NetOp Seen :=
  .observing (Seen.watch P) (Calls pre)

theorem guarding_eq : guarding P policy = watching P (Checked P policy) := by
  have hpre : @Guards P policy = @Calls (Checked P policy) := by
    funext β o seen
    cases o <;> rfl
  unfold guarding watching
  rw [hpre]

variable {pre : Seen → Call → Prop}

/-- **A validated target has been looked up just now**, and every answer passed. -/
theorem validateUrl_obeys {α : Type} {Q : Except Exc α → Seen → Prop} {url : PyStr} {seen : Seen}
    {k : ValidatedTarget → Outbound α} (hseen : seen.url = some url)
    (herror : ∀ e seen', Q (.error e) seen')
    (hok : ∀ target seen', Looked P policy url seen' target →
      (k target).Obeys (watching P pre) Q seen') :
    (validateUrl P policy url >>= k).Obeys (watching P pre) Q seen := by
  unfold validateUrl
  cases hparse : parseUrl P url with
  | error e => exact herror e seen
  | ok parsed =>
    cases hstatic : validateStatic P policy url with
    | error e => exact herror e seen
    | ok found =>
      obtain ⟨scheme, host, port⟩ := found
      refine ⟨trivial, ?_⟩
      rintro answer seen' rfl
      cases hpick : pickAddress P policy host answer with
      | error e =>
        simp only [Prog.bind, hpick, Prog.ofExcept]
        exact herror e _
      | ok address =>
        simp only [Prog.bind, hpick, Prog.ofExcept]
        have hparses : P.urlparse url = some parsed := by
          unfold parseUrl at hparse
          split at hparse
          · cases hparse
          · rename_i hsome
            rw [hsome, Except.ok.inj hparse]
        obtain ⟨first, rest, -, rfl, -, -, -⟩ := pickAddress_ok hpick
        exact hok _ _ ⟨hseen, hstatic, ⟨_, rfl, hpick⟩, ⟨_, hparses, rfl⟩⟩

end Hop

/-! ### The loop -/

section Loop

variable {P : Platform} {args : Arguments} {policy : OutboundPolicy} {pre : Seen → Call → Prop}

theorem closeResponse_obeys {α : Type} {Q : Except Exc α → Seen → Prop} {seen : Seen}
    {k : Unit → Outbound α} (herror : ∀ e seen', Q (.error e) seen')
    (hok : ∀ seen', seen'.url = seen.url → (k ()).Obeys (watching P pre) Q seen') :
    (closeResponse >>= k).Obeys (watching P pre) Q seen := by
  unfold closeResponse
  refine ⟨trivial, ?_⟩
  rintro closed seen' rfl
  cases closed with
  | true => exact hok _ rfl
  | false => exact herror _ _

theorem finishRequest_obeys {url : PyStr} {redirects : Nat} {response : HttpResponse} {seen : Seen} :
    (finishRequest policy url redirects response).Obeys (watching P pre) (fun _ _ => True) seen := by
  unfold finishRequest
  dsimp only
  split
  · exact closeResponse_obeys (fun _ _ => trivial) fun _ _ => trivial
  · refine closeResponse_obeys (fun _ _ => trivial) fun seen' _ => ?_
    cases readBody policy response with
    | error e => trivial
    | ok body => trivial

/-- The URL that is seen after a redirect is the one that is followed. -/
theorem urlAfter_redirect {seen : Seen} {url host location next : PyStr} {response : HttpResponse}
    (hseen : seen.url = some url) (hredirect : isRedirect response.statusCode = true)
    (hlocation : checkLocation response host = .ok location)
    (hnext : nextHop P url location = .ok next) : seen.urlAfter P response = some next := by
  have hheader : response.header "location" = some location := by
    unfold checkLocation at hlocation
    split at hlocation
    · cases hlocation
    · rename_i found hfound
      split at hlocation
      · cases hlocation
      · rw [hfound, Except.ok.inj hlocation]
  have hjoin : P.join url location = some next := by
    unfold nextHop at hnext
    split at hnext
    · cases hnext
    · rename_i found hfound
      split at hnext
      · cases hnext
      · rw [hfound, Except.ok.inj hnext]
  unfold Seen.urlAfter
  simp only [hredirect, hseen, hheader, hjoin, if_true]

/-- By induction on the redirects that are left: the URL of the hop is the one that is seen. -/
theorem follow_obeys {url : PyStr} {redirects : Nat} {seen : Seen} (hseen : seen.url = some url)
    (hpre : ∀ url seen target, Looked P policy url seen target → pre seen (hopCall P args target)) :
    (follow P args policy url redirects).Obeys (watching P pre) (fun _ _ => True) seen := by
  induction hleft : (policy.maxRedirects - redirects).toNat using Nat.strong_induction_on
    generalizing url redirects seen with
  | _ left ih =>
    rw [follow]
    refine validateUrl_obeys hseen (fun _ _ => trivial) fun target seen₁ hlooked => ?_
    refine ⟨hpre url seen₁ target hlooked, ?_⟩
    rintro answer seen₂ rfl
    cases answer with
    | none => trivial
    | some response =>
      have hurl : (seen₁.watch P ⟨.request (hopCall P args target), some response⟩).url =
          seen₁.urlAfter P response := rfl
      show Prog.Obeys _ _ (if isRedirect response.statusCode then _ else _) _
      split
      · rename_i hredirect
        refine closeResponse_obeys (fun _ _ => trivial) fun seen₃ hseen₃ => ?_
        cases hlocation : checkLocation response target.host with
        | error e => trivial
        | ok location =>
          show Prog.Obeys _ _ (if h : policy.maxRedirects < redirects + 1 then _ else _) _
          split
          · trivial
          · rename_i hmore
            cases hnext : nextHop P url location with
            | error e => trivial
            | ok next =>
              refine ih (policy.maxRedirects - (redirects + 1 : Nat)).toNat ?_ ?_ rfl
              · push_cast
                omega
              · rw [hseen₃, hurl]
                exact urlAfter_redirect hlooked.current hredirect hlocation hnext
      · exact finishRequest_obeys

end Loop

/-! ### How many operations -/

/-- Lookups, requests and closes, as far as they are marked. -/
def marks (lookups requests closes : Bool) {β : Type} : NetOp β → Bool
  | .getaddrinfo _ _ => lookups
  | .request _ => requests
  | .aclose => closes

def isRequest {β : Type} : NetOp β → Bool := marks false true false

theorem marks_all {β : Type} (o : NetOp β) : marks true true true o = true := by
  cases o <;> rfl

section Count

variable {P : Platform} {args : Arguments} {policy : OutboundPolicy} {l r c : Bool}

theorem validateUrl_atMost (url : PyStr) :
    (validateUrl P policy url).AtMost (marks l r c) l.toNat := by
  unfold validateUrl
  have hresolve : ∀ host port, (resolveAndValidate P policy host port).AtMost (marks l r c)
      l.toNat := by
    intro host port
    refine ⟨fun hl => ?_, fun answer => Prog.AtMost.ofExcept _⟩
    rw [show l = true from hl]
    exact Nat.one_pos
  cases parseUrl P url with
  | error e => trivial
  | ok parsed =>
    cases validateStatic P policy url with
    | error e => trivial
    | ok found =>
      obtain ⟨scheme, host, port⟩ := found
      show Prog.AtMost _ (resolveAndValidate P policy host port >>= _) _
      exact Prog.AtMost.bind (m := 0) (hresolve host port) fun _ => .ret _

theorem sendRequest_atMost (call : Call) : (sendRequest call).AtMost (marks l r c) r.toNat := by
  refine ⟨fun hr => ?_, fun answer => ?_⟩
  · rw [show r = true from hr]
    exact Nat.one_pos
  · cases answer <;> trivial

theorem closeResponse_atMost : closeResponse.AtMost (marks l r c) c.toNat := by
  refine ⟨fun hc => ?_, fun closed => ?_⟩
  · rw [show c = true from hc]
    exact Nat.one_pos
  · cases closed <;> trivial

theorem finishRequest_atMost (url : PyStr) (redirects : Nat) (response : HttpResponse) :
    (finishRequest policy url redirects response).AtMost (marks l r c) c.toNat := by
  unfold finishRequest
  dsimp only
  split
  · exact Prog.AtMost.bind (m := 0) closeResponse_atMost fun _ => .raise _
  · refine Prog.AtMost.bind (m := 0) closeResponse_atMost fun _ => ?_
    cases readBody policy response with
    | error e => exact .raise e
    | ok body => exact .ret _

/-- By induction on the redirects that are left: one hop, and one for each of them. -/
theorem follow_atMost (url : PyStr) (redirects : Nat) :
    (follow P args policy url redirects).AtMost (marks l r c)
      ((l.toNat + r.toNat + c.toNat) * ((policy.maxRedirects - redirects).toNat + 1)) := by
  induction hleft : (policy.maxRedirects - redirects).toNat using Nat.strong_induction_on
    generalizing url redirects with
  | _ left ih =>
    rw [follow]
    have hbudget : l.toNat + (r.toNat + (c.toNat + (l.toNat + r.toNat + c.toNat) * left)) ≤
        (l.toNat + r.toNat + c.toNat) * (left + 1) := by
      rw [Nat.mul_succ]
      omega
    refine (Prog.AtMost.bind (validateUrl_atMost url) fun target =>
      Prog.AtMost.bind (sendRequest_atMost _) fun response => ?_).mono hbudget
    split
    · refine Prog.AtMost.bind closeResponse_atMost fun _ => ?_
      cases checkLocation response target.host with
      | error e => exact .raise e
      | ok location =>
        show Prog.AtMost _ (if h : policy.maxRedirects < redirects + 1 then _ else _) _
        split
        · exact .raise _
        · rename_i hmore
          cases nextHop P url location with
          | error e => exact .raise e
          | ok next =>
            have hless : (policy.maxRedirects - (redirects + 1 : Nat)).toNat + 1 ≤ left := by
              push_cast
              omega
            refine (ih _ (by omega) next (redirects + 1) rfl).mono ?_
            exact Nat.mul_le_mul_left _ hless
    · exact (finishRequest_atMost url redirects response).mono (Nat.le_add_right _ _)

end Count

/-! ## The theorem -/

/-- **Every connection goes to a checked destination.**  However the lookups and the calls of a run
    are answered, each call is checked, there are at most `max 0 max_redirects + 1` of them, and the
    run comes to an end. -/
theorem every_connection_checked (P : Platform) (args : Arguments) (policy : OutboundPolicy)
    (url : PyStr) {log : List (Prog.Answered NetOp)} {rest : Outbound OutboundResponse}
    (h : Prog.Leads (request P args policy url) log rest) :
    (∀ before call answer after, log = before ++ ⟨.request call, answer⟩ :: after →
      Checked P policy (before.foldl (Seen.watch P) { url := some url }) call) ∧
    log.countP (fun x => isRequest x.op) ≤ (max 0 policy.maxRedirects).toNat + 1 ∧
    log.length ≤ 3 * ((max 0 policy.maxRedirects).toNat + 1) := by
  have hleft : (policy.maxRedirects - (0 : Nat)).toNat = (max 0 policy.maxRedirects).toNat := by
    push_cast
    omega
  refine ⟨?_, ?_, ?_⟩
  · intro before call answer after hlog
    have hobeys : (follow P args policy url 0).Obeys (guarding P policy) (fun _ _ => True)
        { url := some url } := by
      rw [guarding_eq]
      exact follow_obeys rfl fun _ _ _ hlooked => hlooked.checked rfl rfl rfl
    exact h.obeys hobeys hlog
  · have hcount := h.countP_le (follow_atMost (l := false) (r := true) (c := false) url 0)
    rw [hleft] at hcount
    show log.countP (fun x => marks false true false x.op) ≤ _
    simpa using hcount
  · have hcount := h.countP_le (follow_atMost (l := true) (r := true) (c := true) url 0)
    rw [hleft, List.countP_eq_length.mpr fun x _ => marks_all x.op] at hcount
    exact hcount

/-! ### A lookup with two answers -/

/-- A version 4 address in dotted form. -/
def dotted (bits : BitVec 32) : PyStr :=
  let octet (i : Nat) : PyStr := toString ((bits >>> (8 * i)).setWidth 8).toNat
  octet 3 ++ "." ++ octet 2 ++ "." ++ octet 1 ++ "." ++ octet 0

def exampleUrl : PyStr := "https://api.example.com/path"

def exampleParsed : ParsedUrl where
  scheme := "https"
  hostname := some "api.example.com"
  username := none
  password := none
  port := some none
  withNetloc netloc := "https://" ++ netloc ++ "/path"

/-- A platform that knows one URL and one address, in two forms. -/
def examplePlatform : Platform where
  unicode := Unicode.ascii
  urlparse url := if url = exampleUrl then some exampleParsed else none
  ipAddress raw :=
    if raw = "::ffff:93.184.216.34" then some (.v6 0xffff5db8d822 none)
    else if raw = "93.184.216.34" then some (.v4 0x5db8d822) else none
  ipText ip := match ip with
    | .v4 bits => dotted bits
    | .v6 _ _ => "::"
  join _ location := some location
  urlHost _ := none

def examplePolicy : OutboundPolicy := { allowedHosts := [.str ".example.com"] }

def exampleTarget : ValidatedTarget where
  url := exampleUrl
  host := "api.example.com"
  port := 443
  scheme := "https"
  address := "93.184.216.34"
  pinnedUrl := exampleParsed.withNetloc (netloc "93.184.216.34" 443)

def exampleAnswer : Lookup := .infos ["::ffff:93.184.216.34", "93.184.216.34"]

/-- The first answer passes, under every policy that lets the host through. -/
theorem validateUrl_leads {policy : OutboundPolicy}
    (hstatic : validateStatic examplePlatform policy exampleUrl =
      .ok ("https", "api.example.com", 443))
    (hpick : pickAddress examplePlatform policy "api.example.com" exampleAnswer =
      .ok "93.184.216.34") :
    Prog.Leads (validateUrl examplePlatform policy exampleUrl)
      [⟨.getaddrinfo "api.example.com" 443, exampleAnswer⟩] (.ret exampleTarget) := by
  have hparse : parseUrl examplePlatform exampleUrl = .ok exampleParsed := by
    have hurl : examplePlatform.urlparse exampleUrl = some exampleParsed := by
      show (if exampleUrl = exampleUrl then some exampleParsed else none) = _
      rw [if_pos rfl]
    unfold parseUrl
    rw [hurl]
  unfold validateUrl
  rw [hparse, hstatic]
  refine .op ?_
  show Prog.Leads (Prog.bind (Prog.ofExcept (pickAddress examplePlatform policy
    "api.example.com" exampleAnswer)) _) [] _
  rw [hpick]
  exact .here

/-- One lookup, and a call that fails. -/
theorem request_leads {policy : OutboundPolicy} (args : Arguments)
    (hstatic : validateStatic examplePlatform policy exampleUrl =
      .ok ("https", "api.example.com", 443))
    (hpick : pickAddress examplePlatform policy "api.example.com" exampleAnswer =
      .ok "93.184.216.34") :
    Prog.Leads (request examplePlatform args policy exampleUrl)
      ([⟨.getaddrinfo "api.example.com" 443, exampleAnswer⟩] ++
        [⟨.request (hopCall examplePlatform args exampleTarget), none⟩]) (.raise .escaped) := by
  unfold request
  rw [follow]
  exact (validateUrl_leads hstatic hpick).bind (.op .here)

/-- The call goes to the version 4 address that the first answer embeds. -/
theorem every_connection_checked_mapped :
    Checked examplePlatform examplePolicy
      { url := some exampleUrl
        lookup := some ("api.example.com", 443, ["::ffff:93.184.216.34", "93.184.216.34"]) }
      (hopCall examplePlatform { method := "GET" } exampleTarget) := by
  have hrun := @request_leads examplePolicy { method := "GET" } (by decide +kernel)
    (by decide +kernel)
  exact (every_connection_checked _ _ _ _ hrun).1 [_] _ none [] rfl

end FavlGateway.Security
