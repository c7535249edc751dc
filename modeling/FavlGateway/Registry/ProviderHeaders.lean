/-
  Which headers reach the provider.

  Three functions have a say.  `HttpAdapter._headers` puts the configured headers, the idempotency
  header and the ids into one dictionary, a later one over an earlier one of the same name;
  `sanitise_headers` drops what is never forwarded, whoever has put it there; and `request` sets `Host`
  anew for each hop.  `validate_config` accepts a header, and promises the provider's deduplication,
  without asking any of them.

  `mem_httpHeaders_iff` and `carries_iff` say what each leaves of a header.
-/
import FavlGateway.Registry.InvocationChecks

namespace FavlGateway.Registry

open FavlGateway.Library
open FavlGateway.Security (Platform OutboundPolicy Call NetOp Seen Outbound strippedRequestHeaders
  sanitiseHeaders setHeader hopCall validateUrl validateStatic isRequest)

/-! ## The guarded request of an adapter -/

/-- `sanitise_headers`, on whatever an adapter has put in; `none` where `k.lower()` raises -/
def sanitiseItems (U : Unicode) :
    List (Json String × Json String) → Option (List (PyStr × Json String))
  | [] => some []
  | (.str name, value) :: rest =>
    (sanitiseItems U rest).map fun kept =>
      if (PyStr.ofString name).lower U ∈ strippedRequestHeaders then kept
      else (PyStr.ofString name, value) :: kept
  | _ :: _ => none

/-- The headers for `client.request`; `none` where it raises on a value that is no text. -/
def textItems : List (PyStr × Json String) → Option (List (PyStr × PyStr))
  | [] => some []
  | (name, .str value) :: rest => (textItems rest).map ((name, PyStr.ofString value) :: ·)
  | _ :: _ => none

/-- The arguments, once method and headers have turned out to be texts. -/
def textArguments (g : GuardedRequest) (method : PyStr) (headers : List (PyStr × PyStr)) :
    Security.Arguments where
  method := method
  jsonBody := g.jsonBody.toPy
  content := g.content
  headers := some headers
  connectTimeout := g.connectTimeout
  readTimeout := g.readTimeout
  totalTimeout := g.totalTimeout

/-- `outbound.request`, on what an adapter hands it. -/
def guardedRequest (P : Platform) (g : GuardedRequest) : Outbound Security.OutboundResponse :=
  match sanitiseItems P.unicode g.headers, g.url with
  | some kept, .str url =>
    match g.method, textItems kept with
    | .str method, some headers =>
      Security.request P (textArguments g method headers) g.policy url
    -- `client.request` raises on a method or a header that is no text
    | _, _ => validateUrl P g.policy url >>= fun _ => .raise .escaped
  -- a name or a URL that is no text
  | _, _ => .raise .attributeError

/-- The calls of a run. -/
def requests : List (Prog.Answered NetOp) → List Call
  | [] => []
  | ⟨.request call, _⟩ :: log => call :: requests log
  | _ :: log => requests log

/-! ## What the configuration asks for -/

/-- The headers of a configuration; none, unless it is a mapping. -/
def configuredHeaders (config : Dict String) : Dict String :=
  match config.get? "headers" with
  | some (.obj headers) => headers
  | _ => []

/-- What a name stands for in the end, of members put in one after the other. -/
def lastItem : Dict String → String → Option (Json String)
  | [], _ => none
  | (key, value) :: rest, name =>
    match lastItem rest name with
    | some later => some later
    | none => if key = name then some value else none

/-- Headers that speak of one connection only. -/
def hopByHopHeaders : List PyStr :=
  ["connection", "keep-alive", "proxy-connection", "transfer-encoding", "upgrade", "te", "trailer"]

/-- Headers that carry credentials. -/
def credentialHeaders : List PyStr := ["authorization", "proxy-authorization", "cookie", "x-api-key"]

/-- `Host` and the hop-by-hop headers. -/
def Exempt (U : Unicode) (name : String) : Prop :=
  name = "Host" ∨ (PyStr.ofString name).lower U = "host" ∨
    (PyStr.ofString name).lower U ∈ hopByHopHeaders

instance (U : Unicode) (name : String) : Decidable (Exempt U name) :=
  inferInstanceAs (Decidable (_ ∨ _ ∨ _))

/-- A call carries a header: the name, as it is written, with this value. -/
def CarriesHeader (call : Call) (name : String) (value : Json String) : Prop :=
  ∃ text, value = .str text ∧ (PyStr.ofString name, PyStr.ofString text) ∈ call.headers

/-- The id that the adapter puts under a name, over whatever is there. -/
def assignedId (request : InvocationRequest) (name : String) : Option String :=
  if name = "X-FAVL-Trace-ID" ∧ request.traceId.getD "" ≠ "" then request.traceId
  else if name = "X-FAVL-Invocation-ID" then some (uuidText request.invocationId) else none

/-- What the adapter puts under a name after the configured headers. -/
def assigned (request : InvocationRequest) (context : ConnectorContext) (name : String) :
    Option String :=
  match assignedId request name with
  | some text => some text
  | none =>
    if name ≠ "" ∧ itemOr context "idempotency_header" .null = .str name then
      some request.idempotencyKey
    else none

/-- The headers every request starts with. -/
def defaultHeaders : List (Json String × Json String) :=
  [(.str "Content-Type", .str "application/json"), (.str "Accept", .str "application/json")]

/-! ## The dictionary -/

/-- What is in a dictionary after an assignment. -/
theorem mem_assign {κ ν : Type} [DecidableEq κ] {items : List (κ × ν)} {key name : κ} {value v : ν} :
    ((name, v) ∈ if items.any fun h => h.1 = key then
        items.map fun h => if h.1 = key then (key, value) else h
      else items ++ [(key, value)]) ↔
      (name = key ∧ v = value) ∨ (name ≠ key ∧ (name, v) ∈ items) := by
  split
  · rename_i hany
    obtain ⟨found, hfound, hkey⟩ := List.any_eq_true.mp hany
    have hkey : found.1 = key := of_decide_eq_true hkey
    rw [List.mem_map]
    constructor
    · rintro ⟨item, hitem, heq⟩
      by_cases h : item.1 = key
      · rw [if_pos h] at heq
        cases heq
        exact .inl ⟨rfl, rfl⟩
      · rw [if_neg h] at heq
        rw [heq] at h hitem
        exact .inr ⟨h, hitem⟩
    · rintro (⟨rfl, rfl⟩ | ⟨hne, hmem⟩)
      · exact ⟨found, hfound, if_pos hkey⟩
      · exact ⟨(name, v), hmem, if_neg hne⟩
  · rename_i hany
    rw [List.mem_append, List.mem_singleton, Prod.mk.injEq]
    constructor
    · rintro (hmem | heq)
      · refine .inr ⟨?_, hmem⟩
        rintro rfl
        exact hany (List.any_eq_true.mpr ⟨_, hmem, decide_eq_true rfl⟩)
      · exact .inl heq
    · rintro (heq | ⟨-, hmem⟩)
      · exact .inr heq
      · exact .inl hmem

theorem mem_setItem {headers : List (Json String × Json String)} {key name value v : Json String} :
    (name, v) ∈ setItem headers key value ↔
      (name = key ∧ v = value) ∨ (name ≠ key ∧ (name, v) ∈ headers) :=
  mem_assign

theorem mem_setHeader {headers : List (PyStr × PyStr)} {key name value v : PyStr} :
    (name, v) ∈ setHeader headers key value ↔
      (name = key ∧ v = value) ∨ (name ≠ key ∧ (name, v) ∈ headers) :=
  mem_assign

section Adapter

variable {S : Surroundings} {request : InvocationRequest} {context : ConnectorContext}

/-- The members of a configuration are put in one by one: of two with one name, the later one
    counts. -/
theorem mem_resolveHeaders {items : Dict String} {headers headers' : List (Json String × Json String)}
    (h : resolveHeaders S context items headers = .ok headers') {name : String} {v : Json String} :
    (.str name, v) ∈ headers' ↔
      (∃ value, lastItem items name = some value ∧ headerValue S context value = .ok v) ∨
        (lastItem items name = none ∧ (.str name, v) ∈ headers) := by
  induction items generalizing headers with
  | nil =>
    cases h
    simp [lastItem]
  | cons item items ih =>
    obtain ⟨key, value⟩ := item
    rw [resolveHeaders] at h
    cases hvalue : headerValue S context value with
    | error e =>
      simp only [hvalue] at h
      cases h
    | ok resolved =>
      simp only [hvalue] at h
      rw [ih h]
      cases hlater : lastItem items name with
      | some later => simp [lastItem, hlater]
      | none =>
        by_cases hkey : key = name
        · subst hkey
          rw [mem_setItem]
          simp [lastItem, hlater, hvalue, eq_comm]
        · have hne : (Json.str name : Json String) ≠ .str key := by
            intro heq
            injection heq with heq
            exact hkey heq.symm
          rw [mem_setItem]
          simp [lastItem, hlater, hkey, hne]

theorem headerItems_ok {items : Dict String} (h : headerItems S context = .ok items) :
    items = configuredHeaders context.config := by
  unfold headerItems at h
  unfold configuredHeaders
  cases hitem : context.config.get? "headers" with
  | none =>
    simp only [hitem] at h
    cases h
    rfl
  | some value =>
    simp only [hitem] at h
    split at h
    · cases value with
      | obj headers =>
        cases h
        rfl
      | _ => cases h
    · rename_i hfalsy
      cases h
      cases value with
      | obj headers =>
        cases headers with
        | nil => rfl
        | cons header headers => exact absurd rfl hfalsy
      | _ => rfl

theorem mem_setIdempotency {headers headers' : List (Json String × Json String)}
    (h : setIdempotency S request context headers = .ok headers') {name : String} {v : Json String} :
    (.str name, v) ∈ headers' ↔
      ((name ≠ "" ∧ itemOr context "idempotency_header" .null = .str name) ∧
        v = .str request.idempotencyKey) ∨
      (¬ (name ≠ "" ∧ itemOr context "idempotency_header" .null = .str name) ∧
        (.str name, v) ∈ headers) := by
  unfold setIdempotency at h
  dsimp only at h
  split at h
  · rename_i hgiven
    split at h
    · cases h
      rw [mem_setItem]
      by_cases hname : itemOr context "idempotency_header" .null = .str name
      · have hnonempty : name ≠ "" := by
          rintro rfl
          rw [hname] at hgiven
          cases hgiven
        simp [hname, hnonempty]
      · have hne : Json.str name ≠ itemOr context "idempotency_header" .null := Ne.symm hname
        simp [hname, hne]
    · cases h
  · rename_i hfalsy
    cases h
    have hnot : ¬ (name ≠ "" ∧ itemOr context "idempotency_header" .null = .str name) := by
      rintro ⟨hnonempty, hname⟩
      apply hfalsy
      rw [hname]
      simpa [Json.truthy] using hnonempty
    simp [hnot]

theorem mem_setIds {headers : List (Json String × Json String)} {name : String} {v : Json String} :
    (.str name, v) ∈ setIds request headers ↔
      (∃ text, assignedId request name = some text ∧ v = .str text) ∨
        (assignedId request name = none ∧ (.str name, v) ∈ headers) := by
  have hinvocation : (.str name, v) ∈ setItem headers (.str "X-FAVL-Invocation-ID")
      (.str (uuidText request.invocationId)) ↔
      (name = "X-FAVL-Invocation-ID" ∧ v = .str (uuidText request.invocationId)) ∨
        (name ≠ "X-FAVL-Invocation-ID" ∧ (.str name, v) ∈ headers) := by
    rw [mem_setItem]
    simp
  unfold setIds assignedId
  dsimp only
  cases htrace : request.traceId with
  | none =>
    rw [hinvocation]
    by_cases hname : name = "X-FAVL-Invocation-ID"
    · simp [hname]
    · simp [hname]
  | some trace =>
    by_cases hempty : trace = ""
    · have hempty' : trace.isEmpty = true := by simpa using hempty
      dsimp only
      rw [if_pos hempty', hinvocation]
      by_cases hname : name = "X-FAVL-Invocation-ID"
      · simp [hname, hempty]
      · simp [hname, hempty]
    · have hnonempty : trace.isEmpty = false := by simpa using hempty
      simp only [hnonempty, Bool.false_eq_true, if_false]
      rw [mem_setItem, hinvocation]
      by_cases hid : name = "X-FAVL-Trace-ID"
      · simp [hid, hempty]
      · by_cases hname : name = "X-FAVL-Invocation-ID"
        · simp [hname]
        · simp [hid, hname]

/-- **What the adapter puts under a name**: an id, the idempotency key, what the configuration says,
    or a default, whichever comes first. -/
theorem mem_httpHeaders_iff {headers : List (Json String × Json String)}
    (h : httpHeaders S request context = .ok headers) {name : String} {v : Json String} :
    (.str name, v) ∈ headers ↔
      (∃ text, assigned request context name = some text ∧ v = .str text) ∨
        (assigned request context name = none ∧
          ((∃ value, lastItem (configuredHeaders context.config) name = some value ∧
              headerValue S context value = .ok v) ∨
            (lastItem (configuredHeaders context.config) name = none ∧
              (.str name, v) ∈ defaultHeaders))) := by
  obtain ⟨items, hitems, h⟩ := Security.of_bind h
  obtain ⟨resolved, hresolved, h⟩ := Security.of_bind h
  obtain ⟨keyed, hkeyed, h⟩ := Security.of_bind h
  cases h
  rw [mem_setIds, mem_setIdempotency hkeyed, mem_resolveHeaders hresolved, ← headerItems_ok hitems]
  unfold assigned
  cases hid : assignedId request name with
  | some text => simp
  | none =>
    by_cases hname : name ≠ "" ∧ itemOr context "idempotency_header" .null = .str name
    · simp [hname]
    · simp [hname, defaultHeaders]

/-- The name that the idempotency key is put under, unless it is no text. -/
theorem httpHeaders_keyed {headers : List (Json String × Json String)}
    (h : httpHeaders S request context = .ok headers)
    (hgiven : (itemOr context "idempotency_header" .null).truthy String.isEmpty = true)
    (htext : ∀ name, itemOr context "idempotency_header" .null ≠ .str name) :
    (itemOr context "idempotency_header" .null, .str request.idempotencyKey) ∈ headers := by
  obtain ⟨items, -, h⟩ := Security.of_bind h
  obtain ⟨resolved, -, h⟩ := Security.of_bind h
  obtain ⟨keyed, hkeyed, h⟩ := Security.of_bind h
  cases h
  have hmem : (itemOr context "idempotency_header" .null, .str request.idempotencyKey) ∈ keyed := by
    unfold setIdempotency at hkeyed
    dsimp only at hkeyed
    rw [if_pos hgiven] at hkeyed
    split at hkeyed
    · cases hkeyed
      exact mem_setItem.mpr (.inl ⟨rfl, rfl⟩)
    · cases hkeyed
  have hinvocation : (itemOr context "idempotency_header" .null, .str request.idempotencyKey) ∈
      setItem keyed (.str "X-FAVL-Invocation-ID") (.str (uuidText request.invocationId)) :=
    mem_setItem.mpr (.inr ⟨htext "X-FAVL-Invocation-ID", hmem⟩)
  unfold setIds
  dsimp only
  cases request.traceId with
  | none => exact hinvocation
  | some trace =>
    dsimp only
    split
    · exact hinvocation
    · exact mem_setItem.mpr (.inr ⟨htext "X-FAVL-Trace-ID", hinvocation⟩)

end Adapter

/-! ## The sanitiser -/

section Sanitiser

variable {U : Unicode} {headers : List (Json String × Json String)}
  {kept : List (PyStr × Json String)} {texts : List (PyStr × PyStr)}

theorem mem_sanitiseItems (h : sanitiseItems U headers = some kept) {name : String}
    {v : Json String} :
    (PyStr.ofString name, v) ∈ kept ↔
      (PyStr.ofString name).lower U ∉ strippedRequestHeaders ∧ (.str name, v) ∈ headers := by
  induction headers generalizing kept with
  | nil =>
    cases h
    simp
  | cons header headers ih =>
    obtain ⟨key, value⟩ := header
    cases key with
    | str key =>
      rw [sanitiseItems] at h
      obtain ⟨rest, hrest, rfl⟩ := Option.map_eq_some_iff.mp h
      have hrest := ih hrest
      by_cases hstripped : (PyStr.ofString key).lower U ∈ strippedRequestHeaders
      · rw [if_pos hstripped, hrest]
        constructor
        · rintro ⟨hname, hmem⟩
          exact ⟨hname, List.mem_cons_of_mem _ hmem⟩
        · rintro ⟨hname, hmem⟩
          rcases List.mem_cons.mp hmem with heq | hmem
          · cases heq
            exact absurd hstripped hname
          · exact ⟨hname, hmem⟩
      · rw [if_neg hstripped, List.mem_cons, List.mem_cons, hrest, Prod.mk.injEq, Prod.mk.injEq,
          PyStr.ofString_inj, Json.str.injEq]
        constructor
        · rintro (⟨rfl, rfl⟩ | ⟨hname, hmem⟩)
          · exact ⟨hstripped, .inl ⟨rfl, rfl⟩⟩
          · exact ⟨hname, .inr hmem⟩
        · rintro ⟨hname, heq | hmem⟩
          · exact .inl heq
          · exact .inr ⟨hname, hmem⟩
    | _ => cases h

/-- The sanitiser lets only texts pass for names. -/
theorem sanitiseItems_names (h : sanitiseItems U headers = some kept) {key v : Json String}
    (hmem : (key, v) ∈ headers) : ∃ name, key = .str name := by
  induction headers generalizing kept with
  | nil => cases hmem
  | cons header headers ih =>
    obtain ⟨key', value⟩ := header
    cases key' with
    | str name =>
      rw [sanitiseItems] at h
      obtain ⟨rest, hrest, -⟩ := Option.map_eq_some_iff.mp h
      rcases List.mem_cons.mp hmem with heq | hmem
      · cases heq
        exact ⟨name, rfl⟩
      · exact ih hrest hmem
    | _ => cases h

theorem mem_textItems (h : textItems kept = some texts) {name : PyStr} {text : String} :
    (name, PyStr.ofString text) ∈ texts ↔ (name, .str text) ∈ kept := by
  induction kept generalizing texts with
  | nil =>
    cases h
    simp
  | cons item kept ih =>
    obtain ⟨key, value⟩ := item
    cases value with
    | str value =>
      rw [textItems] at h
      obtain ⟨rest, hrest, rfl⟩ := Option.map_eq_some_iff.mp h
      rw [List.mem_cons, List.mem_cons, ih hrest, Prod.mk.injEq, Prod.mk.injEq,
        PyStr.ofString_inj, Json.str.injEq]
    | _ => cases h

theorem textItems_values (h : textItems kept = some texts) {name : PyStr} {v : Json String}
    (hmem : (name, v) ∈ kept) : ∃ text, v = .str text := by
  induction kept generalizing texts with
  | nil => cases hmem
  | cons item kept ih =>
    obtain ⟨key, value⟩ := item
    cases value with
    | str value =>
      rw [textItems] at h
      obtain ⟨rest, hrest, -⟩ := Option.map_eq_some_iff.mp h
      rcases List.mem_cons.mp hmem with heq | hmem
      · cases heq
        exact ⟨value, rfl⟩
      · exact ih hrest hmem
    | _ => cases h

end Sanitiser

/-! ## The calls of a run -/

/-- The `Host` of a call. -/
def hostText (host : PyStr) (port : Nat) : PyStr :=
  if port = 80 ∨ port = 443 then host else host ++ ":" ++ toString port

/-- The URL of the hop has this for its host. -/
def GoesTo (P : Platform) (policy : OutboundPolicy) (seen : Seen) (text : PyStr) : Prop :=
  ∃ url scheme host port, seen.url = some url ∧
    validateStatic P policy url = .ok (scheme, host, port) ∧ hostText host port = text

/-- What a call of the run carries: the sanitised headers of the adapter, and the host of the hop. -/
def Sent (P : Platform) (g : GuardedRequest) (seen : Seen) (call : Call) : Prop :=
  ∃ kept texts host, sanitiseItems P.unicode g.headers = some kept ∧
    textItems kept = some texts ∧ GoesTo P g.policy seen host ∧
    call.headers = setHeader (sanitiseHeaders P.unicode (some texts)) "Host" host

section Run

variable {P : Platform} {g : GuardedRequest} {url : PyStr} {log : List (Prog.Answered NetOp)}
  {rest : Outbound Security.OutboundResponse}

theorem guardedRequest_obeys (hurl : g.url = .str url) :
    (guardedRequest P g).Obeys (Security.watching P (Sent P g)) (fun _ _ => True)
      { url := some url } := by
  unfold guardedRequest
  rw [hurl]
  cases hkept : sanitiseItems P.unicode g.headers with
  | none => trivial
  | some kept =>
    dsimp only
    split
    · rename_i method texts hmethod htexts
      refine Security.follow_obeys rfl fun hop seen target hlooked => ?_
      exact ⟨kept, texts, _, hkept, htexts, ⟨hop, _, _, _, hlooked.current, hlooked.static, rfl⟩, rfl⟩
    · exact Security.validateUrl_obeys rfl (fun _ _ => trivial) fun _ _ _ => trivial

theorem Sent.of_run (hurl : g.url = .str url) (hrun : Prog.Leads (guardedRequest P g) log rest)
    {before after : List (Prog.Answered NetOp)} {call : Call}
    {answer : Option Security.HttpResponse} (hlog : log = before ++ ⟨.request call, answer⟩ :: after) :
    Sent P g (before.foldl (Seen.watch P) { url := some url }) call :=
  hrun.obeys (guardedRequest_obeys hurl) hlog

theorem mem_requests {call : Call} (h : call ∈ requests log) :
    ∃ before answer after, log = before ++ ⟨.request call, answer⟩ :: after := by
  induction log with
  | nil => cases h
  | cons x log ih =>
    obtain ⟨op, answer⟩ := x
    have hlater : call ∈ requests log →
        ∃ before answer' after, ⟨op, answer⟩ :: log = before ++ ⟨.request call, answer'⟩ :: after := by
      intro hmem
      obtain ⟨before, answer', after, hlog⟩ := ih hmem
      exact ⟨⟨op, answer⟩ :: before, answer', after, by rw [hlog]; rfl⟩
    cases op with
    | request call' =>
      rcases List.mem_cons.mp h with rfl | hmem
      · exact ⟨[], answer, log, rfl⟩
      · exact hlater hmem
    | getaddrinfo host port => exact hlater h
    | aclose => exact hlater h

theorem requests_of_split {before after : List (Prog.Answered NetOp)} {call : Call}
    {answer : Option Security.HttpResponse} (hlog : log = before ++ ⟨.request call, answer⟩ :: after) :
    call ∈ requests log := by
  subst hlog
  induction before with
  | nil => exact List.mem_cons_self ..
  | cons x before ih =>
    obtain ⟨op, answer'⟩ := x
    cases op with
    | request call' => exact List.mem_cons_of_mem _ ih
    | getaddrinfo host port => exact ih
    | aclose => exact ih

variable {seen : Seen} {call : Call} {name text : String}

/-- **What a call carries**: under `Host` the host of the hop, under any other name what the adapter
    put there, unless it is stripped. -/
theorem Sent.carries_iff (h : Sent P g seen call) : CarriesHeader call name (.str text) ↔
    (name = "Host" ∧ GoesTo P g.policy seen (PyStr.ofString text)) ∨
      (name ≠ "Host" ∧ (PyStr.ofString name).lower P.unicode ∉ strippedRequestHeaders ∧
        (.str name, .str text) ∈ g.headers) := by
  obtain ⟨kept, texts, host, hkept, htexts, hgoes, hheaders⟩ := h
  have hcarries : CarriesHeader call name (.str text) ↔
      (PyStr.ofString name, PyStr.ofString text) ∈ call.headers := by
    constructor
    · rintro ⟨text', heq, hmem⟩
      cases heq
      exact hmem
    · intro hmem
      exact ⟨text, rfl, hmem⟩
  have hsanitised : (PyStr.ofString name, PyStr.ofString text) ∈
      sanitiseHeaders P.unicode (some texts) ↔
      (PyStr.ofString name).lower P.unicode ∉ strippedRequestHeaders ∧
        (.str name, .str text) ∈ g.headers := by
    show _ ∈ texts.filter _ ↔ _
    rw [List.mem_filter, mem_textItems htexts, mem_sanitiseItems hkept]
    constructor
    · rintro ⟨hmem, -⟩
      exact hmem
    · intro hmem
      exact ⟨hmem, decide_eq_true hmem.1⟩
  rw [hcarries, hheaders, mem_setHeader, hsanitised, PyStr.ofString_inj, Ne, PyStr.ofString_inj]
  constructor
  · rintro (⟨hname, rfl⟩ | hmem)
    · exact .inl ⟨hname, hgoes⟩
    · exact .inr hmem
  · rintro (⟨hname, hhost⟩ | hmem)
    · refine .inl ⟨hname, ?_⟩
      obtain ⟨url, scheme, host', port, hurl, hstatic, rfl⟩ := hgoes
      obtain ⟨url', scheme', host'', port', hurl', hstatic', htext⟩ := hhost
      rw [hurl] at hurl'
      cases hurl'
      rw [hstatic] at hstatic'
      cases hstatic'
      exact htext.symm
    · exact .inr hmem

/-- What is not stripped is a text. -/
theorem Sent.value_text (h : Sent P g seen call) {v : Json String}
    (hname : (PyStr.ofString name).lower P.unicode ∉ strippedRequestHeaders)
    (hmem : (.str name, v) ∈ g.headers) : ∃ text, v = .str text := by
  obtain ⟨kept, texts, host, hkept, htexts, -, -⟩ := h
  exact textItems_values htexts ((mem_sanitiseItems hkept).mpr ⟨hname, hmem⟩)

end Run

/-! ## The theorem -/

section Attempt

variable {S : Surroundings} {request : InvocationRequest} {context : ConnectorContext}

theorem resolveHeaders_send (send : GuardedRequest → Except OutboundError OutboundResponse)
    (items : Dict String) (headers : List (Json String × Json String)) :
    resolveHeaders { S with send := send } context items headers =
      resolveHeaders S context items headers := by
  induction items generalizing headers with
  | nil => rfl
  | cons item items ih =>
    obtain ⟨key, value⟩ := item
    have hvalue : headerValue { S with send := send } context value = headerValue S context value :=
      rfl
    rw [resolveHeaders, resolveHeaders, hvalue]
    cases headerValue S context value with
    | error e => rfl
    | ok resolved => exact ih _

/-- The headers do not depend on what will be answered. -/
theorem httpHeaders_send (send : GuardedRequest → Except OutboundError OutboundResponse) :
    httpHeaders { S with send := send } request context = httpHeaders S request context := by
  have hitems : headerItems { S with send := send } context = headerItems S context := rfl
  have hkeyed : ∀ headers, setIdempotency { S with send := send } request context headers =
      setIdempotency S request context headers := fun _ => rfl
  unfold httpHeaders
  simp only [hitems, resolveHeaders_send, hkeyed]

/-- The guarded request of `HttpAdapter.invoke`. -/
def httpRequest (S : Surroundings) (request : InvocationRequest) (context : ConnectorContext)
    (headers : List (Json String × Json String)) (policy : OutboundPolicy) : GuardedRequest where
  method := (itemOr context "method" (.str "POST")).toPy
  url := .str (httpUrl S request context)
  policy := policy
  jsonBody := .obj request.payload
  headers := headers
  connectTimeout := phaseTimeout S request context "connect_timeout" 5
  readTimeout := phaseTimeout S request context "read_timeout" 10
  totalTimeout := remaining S request

/-- An attempt that gets as far as the guarded request. -/
theorem httpAttempt_eq {headers : List (Json String × Json String)} {policy : OutboundPolicy}
    (hearly : ¬ remaining S request ≤ 0) (hheaders : httpHeaders S request context = .ok headers)
    (hpolicy : httpPolicy S.toGateway (Json.toPyMembers context.config) = .ok policy) :
    httpAttempt S request context =
      answered (S.send (httpRequest S request context headers policy)) := by
  unfold httpAttempt
  rw [if_neg hearly, hheaders]
  rw [hpolicy]
  rfl

theorem httpAttempt_sends {g : GuardedRequest}
    (h : Sends (fun S => httpAttempt S request context) S g) :
    httpHeaders S request context = .ok g.headers ∧ g.url = .str (httpUrl S request context) := by
  by_cases hearly : remaining S request ≤ 0
  · refine absurd h (not_sends (r := .ok (.early (tooLate S))) fun send => ?_)
    exact if_pos hearly
  · have hlate : ∀ send, ¬ remaining { S with send := send } request ≤ 0 := fun _ => hearly
    cases hheaders : httpHeaders S request context with
    | error e =>
      refine absurd h (not_sends (r := .error e) fun send => ?_)
      show httpAttempt { S with send := send } request context = _
      unfold httpAttempt
      rw [if_neg (hlate send), httpHeaders_send send, hheaders]
      rfl
    | ok headers =>
      cases hpolicy : httpPolicy S.toGateway (Json.toPyMembers context.config) with
      | error e =>
        refine absurd h (not_sends (r := .error (crashed S e)) fun send => ?_)
        show httpAttempt { S with send := send } request context = _
        unfold httpAttempt
        rw [if_neg (hlate send), httpHeaders_send send, hheaders]
        rw [hpolicy]
        rfl
      | ok policy =>
        have hattempt : ∀ send, httpAttempt { S with send := send } request context =
            answered (send (httpRequest S request context headers policy)) := by
          intro send
          exact httpAttempt_eq (hlate send) ((httpHeaders_send send).trans hheaders) hpolicy
        have hg := Sends.eq hattempt h
        subst hg
        exact ⟨rfl, rfl⟩

theorem givenItem_toPyMembers (key : String) :
    givenItem (Json.toPyMembers context.config) (PyStr.ofString key) =
      (itemOr context key .null).truthy String.isEmpty := by
  unfold givenItem itemOr
  rw [configItem_toPyMembers]
  cases context.config.get? key with
  | none => rfl
  | some value => exact truthy_toPy value

/-- When the provider's deduplication is promised. -/
theorem providerKey_iff {G : Gateway} {v : Verdict}
    (h : httpValidateConfig G (Json.toPyMembers context.config) = .ok v) :
    v.idempotencyMode = .providerKey ↔
      (itemOr context "idempotency_header" .null).truthy String.isEmpty = true := by
  have hgiven : givenItem (Json.toPyMembers context.config) "idempotency_header" =
      (itemOr context "idempotency_header" .null).truthy String.isEmpty := givenItem_toPyMembers _
  unfold httpValidateConfig at h
  split at h
  · cases h
  · split at h
    · cases h
    · cases h
      rw [← hgiven]
      cases givenItem (Json.toPyMembers context.config) "idempotency_header" with
      | true => simp
      | false => simp

/-- A configured header is one whose value has been resolved. -/
theorem resolveHeaders_resolved {items : Dict String} {headers headers' : List (Json String × Json String)}
    (h : resolveHeaders S context items headers = .ok headers') {name : String} {value : Json String}
    (hitem : lastItem items name = some value) : ∃ v, headerValue S context value = .ok v := by
  induction items generalizing headers with
  | nil => cases hitem
  | cons item items ih =>
    obtain ⟨key, value'⟩ := item
    rw [resolveHeaders] at h
    cases hvalue : headerValue S context value' with
    | error e =>
      simp only [hvalue] at h
      cases h
    | ok resolved =>
      simp only [hvalue] at h
      rw [lastItem] at hitem
      cases hlater : lastItem items name with
      | some later =>
        simp only [hlater] at hitem
        cases hitem
        exact ih h hlater
      | none =>
        simp only [hlater] at hitem
        split at hitem
        · cases hitem
          exact ⟨resolved, hvalue⟩
        · cases hitem

end Attempt

/-- Every name that is stripped carries credentials, or is exempt. -/
theorem stripped_iff {U : Unicode} {name : String} (h : ¬ Exempt U name) :
    (PyStr.ofString name).lower U ∈ strippedRequestHeaders ↔
      (PyStr.ofString name).lower U ∈ credentialHeaders := by
  have hsplit : ∀ s : PyStr, s ∈ strippedRequestHeaders ↔
      s ∈ credentialHeaders ∨ s ∈ hopByHopHeaders ∨ s = "host" := by
    intro s
    simp only [strippedRequestHeaders, credentialHeaders, hopByHopHeaders, List.mem_cons,
      List.not_mem_nil, or_false, or_assoc]
  rw [hsplit]
  constructor
  · rintro (hcredential | hhop | hhost)
    · exact hcredential
    · exact absurd (.inr (.inr hhop)) h
    · exact absurd (.inr (.inl hhost)) h
  · exact .inl

/-- Configured headers reach the provider: the first call carries each of them with its resolved
    value, and if the provider's deduplication was promised, every call carries the key. -/
structure HeadersReach (S : Surroundings) (request : InvocationRequest) (context : ConnectorContext)
    (v : Verdict) (log : List (Prog.Answered NetOp)) : Prop where
  configured : ∀ call, (requests log).head? = some call → ∀ name value,
    lastItem (configuredHeaders context.config) name = some value →
    ¬ Exempt S.platform.unicode name →
    ∃ sent, headerValue S context value = .ok sent ∧ CarriesHeader call name sent
  keyed : v.idempotencyMode = .providerKey → ∀ call ∈ requests log, ∃ name,
    itemOr context "idempotency_header" .null = .str name ∧
      CarriesHeader call name (.str request.idempotencyKey)

/-- Nothing is in the way of the headers: no configured one carries credentials or is put over by
    something else than its value; and the idempotency header is neither stripped nor put over.  (Under
    `Host` the provider sees where each hop goes, whether that is the key or not.) -/
structure Deliverable (S : Surroundings) (request : InvocationRequest) (context : ConnectorContext)
    (policy : OutboundPolicy) (log : List (Prog.Answered NetOp)) : Prop where
  configured : ∀ name value, lastItem (configuredHeaders context.config) name = some value →
    ¬ Exempt S.platform.unicode name →
    (PyStr.ofString name).lower S.platform.unicode ∉ credentialHeaders ∧
      ∀ text, assigned request context name = some text →
        headerValue S context value = .ok (.str text)
  keyed : ∀ name, name ≠ "" → itemOr context "idempotency_header" .null = .str name →
    (name = "Host" ∧ ∀ before call answer after, log = before ++ ⟨.request call, answer⟩ :: after →
      GoesTo S.platform policy
        (before.foldl (Seen.watch S.platform) { url := some (httpUrl S request context) })
        (PyStr.ofString request.idempotencyKey)) ∨
    (name ≠ "Host" ∧
      (PyStr.ofString name).lower S.platform.unicode ∉ strippedRequestHeaders ∧
      ∀ text, assignedId request name = some text → text = request.idempotencyKey)

section Theorem

variable {S : Surroundings} {request : InvocationRequest} {context : ConnectorContext}
  {g : GuardedRequest} {log : List (Prog.Answered NetOp)} {rest : Outbound Security.OutboundResponse}

theorem sent_of_mem (hsends : Sends (fun S => httpAttempt S request context) S g)
    (hrun : Prog.Leads (guardedRequest S.platform g) log rest) {call : Call}
    (hcall : call ∈ requests log) :
    ∃ before answer after, log = before ++ ⟨.request call, answer⟩ :: after ∧
      Sent S.platform g
        (before.foldl (Seen.watch S.platform) { url := some (httpUrl S request context) }) call := by
  obtain ⟨before, answer, after, hlog⟩ := mem_requests hcall
  exact ⟨before, answer, after, hlog, Sent.of_run (httpAttempt_sends hsends).2 hrun hlog⟩

/-- One configured header, and one call. -/
theorem configured_iff {seen : Seen} {call : Call} {name : String} {value : Json String}
    (hheaders : httpHeaders S request context = .ok g.headers) (hsent : Sent S.platform g seen call)
    (hitem : lastItem (configuredHeaders context.config) name = some value)
    (hexempt : ¬ Exempt S.platform.unicode name) :
    (∃ sent, headerValue S context value = .ok sent ∧ CarriesHeader call name sent) ↔
      (PyStr.ofString name).lower S.platform.unicode ∉ credentialHeaders ∧
        ∀ text, assigned request context name = some text →
          headerValue S context value = .ok (.str text) := by
  have hname : name ≠ "Host" := fun h => hexempt (.inl h)
  rw [← stripped_iff hexempt]
  constructor
  · rintro ⟨sent, hvalue, hcarries⟩
    obtain ⟨text, rfl, -⟩ := id hcarries
    rcases hsent.carries_iff.mp hcarries with ⟨hhost, -⟩ | ⟨-, hkept, hmem⟩
    · exact absurd hhost hname
    · refine ⟨hkept, fun text' hassigned => ?_⟩
      rcases (mem_httpHeaders_iff hheaders).mp hmem with ⟨text'', hassigned', heq⟩ | ⟨hnone, -⟩
      · rw [hassigned] at hassigned'
        cases hassigned'
        rw [hvalue, heq]
      · rw [hassigned] at hnone
        cases hnone
  · rintro ⟨hkept, hassigned⟩
    cases hover : assigned request context name with
    | some text =>
      refine ⟨.str text, hassigned text hover, hsent.carries_iff.mpr (.inr ⟨hname, hkept, ?_⟩)⟩
      exact (mem_httpHeaders_iff hheaders).mpr (.inl ⟨text, hover, rfl⟩)
    | none =>
      obtain ⟨items, hitems, h⟩ := Security.of_bind hheaders
      obtain ⟨resolved, hresolved, -⟩ := Security.of_bind h
      rw [← headerItems_ok hitems] at hitem
      obtain ⟨v, hvalue⟩ := resolveHeaders_resolved hresolved hitem
      rw [headerItems_ok hitems] at hitem
      have hmem : (.str name, v) ∈ g.headers :=
        (mem_httpHeaders_iff hheaders).mpr (.inr ⟨hover, .inl ⟨value, hitem, hvalue⟩⟩)
      obtain ⟨text, rfl⟩ := hsent.value_text hkept hmem
      exact ⟨.str text, hvalue, hsent.carries_iff.mpr (.inr ⟨hname, hkept, hmem⟩)⟩

/-- The idempotency header, and one call. -/
theorem keyed_iff {seen : Seen} {call : Call} {name : String}
    (hheaders : httpHeaders S request context = .ok g.headers) (hsent : Sent S.platform g seen call)
    (hnonempty : name ≠ "") (hname : itemOr context "idempotency_header" .null = .str name) :
    CarriesHeader call name (.str request.idempotencyKey) ↔
      (name = "Host" ∧ GoesTo S.platform g.policy seen (PyStr.ofString request.idempotencyKey)) ∨
        (name ≠ "Host" ∧
          (PyStr.ofString name).lower S.platform.unicode ∉ strippedRequestHeaders ∧
          ∀ text, assignedId request name = some text → text = request.idempotencyKey) := by
  have hassigned : ∀ text, assigned request context name = some text ↔
      assignedId request name = some text ∨
        (assignedId request name = none ∧ text = request.idempotencyKey) := by
    intro text
    unfold assigned
    cases assignedId request name with
    | some id => simp
    | none => simp [hnonempty, hname, eq_comm]
  have hmem : (.str name, .str request.idempotencyKey) ∈ g.headers ↔
      ∀ text, assignedId request name = some text → text = request.idempotencyKey := by
    rw [mem_httpHeaders_iff hheaders]
    constructor
    · rintro (⟨text, hover, heq⟩ | ⟨hnone, -⟩) id hid
      · cases heq
        rw [hassigned, hid] at hover
        rcases hover with heq | ⟨hnone, -⟩
        · exact Option.some.inj heq
        · cases hnone
      · have hover := (hassigned id).mpr (.inl hid)
        rw [hnone] at hover
        cases hover
    · intro hids
      refine .inl ⟨request.idempotencyKey, ?_, rfl⟩
      rw [hassigned]
      cases hid : assignedId request name with
      | some id => exact .inl (congrArg some (hids id hid))
      | none => exact .inr ⟨rfl, rfl⟩
  rw [hsent.carries_iff, hmem]

/-- **When the headers reach the provider.**  In every run that makes a call at all, for whatever the
    provider and the name servers answer. -/
theorem headers_reach_iff {v : Verdict}
    (hverdict : httpValidateConfig S.toGateway (Json.toPyMembers context.config) = .ok v)
    (hsends : Sends (fun S => httpAttempt S request context) S g)
    (hrun : Prog.Leads (guardedRequest S.platform g) log rest) (hcalls : requests log ≠ []) :
    HeadersReach S request context v log ↔ Deliverable S request context g.policy log := by
  obtain ⟨hheaders, -⟩ := httpAttempt_sends hsends
  obtain ⟨first, hfirst⟩ : ∃ first, (requests log).head? = some first :=
    ⟨_, List.head?_eq_some_head hcalls⟩
  obtain ⟨before, answer, after, hlog, hsent⟩ :=
    sent_of_mem hsends hrun (List.mem_of_mem_head? hfirst)
  constructor
  · rintro ⟨hconfigured, hkeyed⟩
    constructor
    · intro name value hitem hexempt
      exact (configured_iff hheaders hsent hitem hexempt).mp
        (hconfigured first hfirst name value hitem hexempt)
    · intro name hnonempty hname
      have hmode : v.idempotencyMode = .providerKey := by
        rw [providerKey_iff hverdict, hname]
        simpa [Json.truthy] using hnonempty
      have hcarries : ∀ call ∈ requests log, CarriesHeader call name (.str request.idempotencyKey) := by
        intro call hcall
        obtain ⟨name', hname', hcarries⟩ := hkeyed hmode call hcall
        rw [hname] at hname'
        cases hname'
        exact hcarries
      rcases (keyed_iff hheaders hsent hnonempty hname).mp
          (hcarries first (List.mem_of_mem_head? hfirst)) with ⟨hhost, -⟩ | hkept
      · refine .inl ⟨hhost, fun before' call answer' after' hlog' => ?_⟩
        have hsent' := Sent.of_run (httpAttempt_sends hsends).2 hrun hlog'
        rcases (keyed_iff hheaders hsent' hnonempty hname).mp
            (hcarries call (requests_of_split hlog')) with ⟨-, hgoes⟩ | ⟨hother, -⟩
        · exact hgoes
        · exact absurd hhost hother
      · exact .inr hkept
  · rintro ⟨hconfigured, hkeyed⟩
    constructor
    · intro call hcall name value hitem hexempt
      obtain rfl : first = call := Option.some.inj (hfirst.symm.trans hcall)
      exact (configured_iff hheaders hsent hitem hexempt).mpr (hconfigured name value hitem hexempt)
    · intro hmode call hcall
      rw [providerKey_iff hverdict] at hmode
      obtain ⟨before', answer', after', hlog', hsent'⟩ := sent_of_mem hsends hrun hcall
      by_cases htext : ∃ name, itemOr context "idempotency_header" .null = .str name
      · obtain ⟨name, hname⟩ := htext
        have hnonempty : name ≠ "" := by
          rintro rfl
          rw [hname] at hmode
          cases hmode
        refine ⟨name, hname, (keyed_iff hheaders hsent' hnonempty hname).mpr ?_⟩
        rcases hkeyed name hnonempty hname with ⟨hhost, hgoes⟩ | hkept
        · exact .inl ⟨hhost, hgoes before' call answer' after' hlog'⟩
        · exact .inr hkept
      · have hmem := httpHeaders_keyed hheaders hmode fun name hname => htext ⟨name, hname⟩
        obtain ⟨kept, -, -, hkept, -⟩ := hsent'
        exact absurd (sanitiseItems_names hkept hmem) htext

end Theorem

/-! ## Two configurations -/

/-- Every secret is stored, and the provider's name is resolved. -/
def providerSurroundings : Surroundings :=
  { exampleSurroundings with
    toGateway := sampleGateway
    environ := fun _ => some "token" }

def providerRequest : InvocationRequest where
  invocationId := 7
  connectorId := 1
  operation := ""
  payload := []
  idempotencyKey := "0123456789"
  actorId := "operator"
  tenantId := "acme"
  deadlineAt := 15000010
  traceId := none
  attempt := 1

/-- A connector with these headers, that names an idempotency header too. -/
def providerContext (headers : Dict String) : ConnectorContext where
  connectorId := 1
  connectorVersion := 1
  kind := .http
  config :=
    [("base_url", .str "https://api.example.com/path"),
      ("allowed_hosts", .arr [.str "api.example.com"]), ("headers", .obj headers),
      ("idempotency_header", .str "Idempotency-Key")]
  tenantId := "acme"

def providerPolicy : OutboundPolicy where
  allowedHosts := [.str "api.example.com"]
  maxRedirects := 2

/-- The adapter's request, with the headers it has resolved. -/
def providerCall (headers : List (Json String × Json String)) (configured : Dict String) :
    GuardedRequest :=
  httpRequest providerSurroundings providerRequest (providerContext configured) headers providerPolicy

theorem provider_sends {configured : Dict String} {headers : List (Json String × Json String)}
    (h : httpHeaders providerSurroundings providerRequest (providerContext configured) =
      .ok headers) :
    Sends (fun S => httpAttempt S providerRequest (providerContext configured)) providerSurroundings
      (providerCall headers configured) := by
  have hearly : ¬ remaining providerSurroundings providerRequest ≤ 0 := by decide +kernel
  have hpolicy : httpPolicy providerSurroundings.toGateway
      (Json.toPyMembers (providerContext configured).config) = .ok providerPolicy := rfl
  refine sends_of_answered fun send => ?_
  exact httpAttempt_eq hearly ((httpHeaders_send send).trans h) hpolicy

/-- A run with one call. -/
theorem provider_run (configured : Dict String) {headers : List (Json String × Json String)}
    (h : ((sanitiseItems .ascii headers).bind textItems).isSome = true) :
    ∃ call, Prog.Leads (guardedRequest Security.examplePlatform (providerCall headers configured))
      ([⟨.getaddrinfo "api.example.com" 443, Security.exampleAnswer⟩] ++ [⟨.request call, none⟩])
      (.raise .escaped) := by
  obtain ⟨texts, htexts⟩ := Option.isSome_iff_exists.mp h
  obtain ⟨kept, hkept, htexts⟩ := Option.bind_eq_some_iff.mp htexts
  have hurl : httpUrl providerSurroundings providerRequest (providerContext configured) =
      Security.exampleUrl := by
    show httpUrl providerSurroundings providerRequest (providerContext []) = _
    decide +kernel
  have hguarded : guardedRequest Security.examplePlatform (providerCall headers configured) =
      Security.request Security.examplePlatform
        (textArguments (providerCall headers configured) "POST" texts) providerPolicy
        Security.exampleUrl := by
    unfold guardedRequest
    rw [show sanitiseItems Security.examplePlatform.unicode
      (providerCall headers configured).headers = some kept from hkept,
      show (providerCall headers configured).url = .str Security.exampleUrl from
        congrArg Json.str hurl,
      show (providerCall headers configured).method = .str "POST" from rfl]
    dsimp only
    rw [htexts]
    rfl
  rw [hguarded]
  exact ⟨_, Security.request_leads _ (by decide +kernel) (by decide +kernel)⟩

/-- A secret in a header of its own, and a plain header. -/
def ownHeaders : Dict String :=
  [("X-Provider-Token", .str "secret://tenant/acme/api-key"), ("X-Region", .str "eu")]

/-- The headers that the adapter makes of one configured header and another. -/
def sentHeaders (headers : List (Json String × Json String)) : List (Json String × Json String) :=
  defaultHeaders ++ headers ++
    [(.str "Idempotency-Key", .str "0123456789"),
      (.str "X-FAVL-Invocation-ID", .str (uuidText 7))]

theorem ownHeaders_deliverable (log : List (Prog.Answered NetOp)) :
    Deliverable providerSurroundings providerRequest (providerContext ownHeaders) providerPolicy
      log := by
  constructor
  · intro name value hitem hexempt
    have hname : name = "X-Provider-Token" ∨ name = "X-Region" := by
      by_contra hother
      obtain ⟨htoken, hregion⟩ := not_or.mp hother
      have hnone : lastItem ownHeaders name = none := by
        simp [ownHeaders, lastItem, Ne.symm htoken, Ne.symm hregion]
      rw [show configuredHeaders (providerContext ownHeaders).config = ownHeaders from rfl,
        hnone] at hitem
      cases hitem
    rcases hname with rfl | rfl
    · exact ⟨by decide +kernel, nofun⟩
    · exact ⟨by decide +kernel, nofun⟩
  · intro name hnonempty hname
    obtain rfl : "Idempotency-Key" = name := by
      injection hname
    exact .inr ⟨by decide, by decide +kernel, nofun⟩

/-- Both headers arrive, and the key with them. -/
theorem headers_reach_iff_own : ∃ call, HeadersReach providerSurroundings providerRequest
    (providerContext ownHeaders) ⟨[], .providerKey⟩
    [⟨.getaddrinfo "api.example.com" 443, Security.exampleAnswer⟩, ⟨.request call, none⟩] := by
  have hverdict : httpValidateConfig providerSurroundings.toGateway
      (Json.toPyMembers (providerContext ownHeaders).config) = .ok ⟨[], .providerKey⟩ := by
    decide +kernel
  have hheaders : httpHeaders providerSurroundings providerRequest (providerContext ownHeaders) =
      .ok (sentHeaders [(.str "X-Provider-Token", .str "token"), (.str "X-Region", .str "eu")]) :=
    rfl
  obtain ⟨call, hrun⟩ := provider_run ownHeaders
    (show ((sanitiseItems .ascii (sentHeaders [(.str "X-Provider-Token", .str "token"),
      (.str "X-Region", .str "eu")])).bind textItems).isSome = true by decide +kernel)
  exact ⟨call, (headers_reach_iff hverdict (provider_sends hheaders) hrun nofun).mpr
    (ownHeaders_deliverable _)⟩

/-- The provider's own header for credentials, as validation wants it. -/
def authorizationHeaders : Dict String :=
  [("Authorization", .str "secret://tenant/acme/api-key")]

/-- The secret that `Authorization` must refer to is resolved, and dropped. -/
theorem authorization_stripped : ¬ ∀ S request context g v log rest,
    httpValidateConfig S.toGateway (Json.toPyMembers context.config) = .ok v → v.valid = true →
    Sends (fun S => httpAttempt S request context) S g →
    Prog.Leads (guardedRequest S.platform g) log rest → HeadersReach S request context v log := by
  intro h
  have hverdict : httpValidateConfig providerSurroundings.toGateway
      (Json.toPyMembers (providerContext authorizationHeaders).config) = .ok ⟨[], .providerKey⟩ := by
    decide +kernel
  have hheaders : httpHeaders providerSurroundings providerRequest
      (providerContext authorizationHeaders) =
        .ok (sentHeaders [(.str "Authorization", .str "token")]) := rfl
  have hsends := provider_sends hheaders
  obtain ⟨call, hrun⟩ := provider_run authorizationHeaders
    (show ((sanitiseItems .ascii (sentHeaders [(.str "Authorization", .str "token")])).bind
      textItems).isSome = true by decide +kernel)
  have hreach := h _ _ _ _ _ _ _ hverdict rfl hsends hrun
  obtain ⟨sent, hvalue, hcarries⟩ := hreach.configured call rfl "Authorization" _ rfl
    (by decide +kernel)
  obtain rfl : Json.str "token" = sent := by
    injection hvalue
  have hsent := Sent.of_run (httpAttempt_sends hsends).2 hrun rfl
  rcases hsent.carries_iff.mp hcarries with ⟨hhost, -⟩ | ⟨-, hkept, -⟩
  · exact absurd hhost (by decide)
  · exact hkept (by decide +kernel)

end FavlGateway.Registry
