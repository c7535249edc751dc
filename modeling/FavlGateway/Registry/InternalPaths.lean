/-
  Where `InternalAdapter.invoke` sends its request: below the base URL that an operator registered.

  Three things work together.  `_operation_error` lets no character through that could end a path, and
  no `..` segment; `lstrip` takes the leading slashes away, of which a second one would begin an
  authority after a base without one; and `_load_registry` has taken the trailing slashes of the base.
  `StaysUnder` says what that comes to, in the terms of RFC 3986.
-/
import FavlGateway.Library.Uri
import FavlGateway.Registry.LocalFailures

namespace FavlGateway.Registry

open FavlGateway.Library

/-- `f"{base}/{operation.lstrip('/')}"` -/
def internalUrl (base operation : PyStr) : PyStr :=
  base ++ "/" ++ ⟨operation.codepoints.dropWhile (· = 0x2F)⟩

/-- What the operator registers: no query, no fragment, no dot segments. -/
structure BaseUrl (base : PyStr) : Prop where
  query : (Uri.parse base.codepoints).query = none
  fragment : (Uri.parse base.codepoints).fragment = none
  dots : ¬ Uri.HasDots (Uri.parse base.codepoints).path

/-- The URL has the scheme and the authority of the base, and what is left of its path when the dot
    segments are removed begins with the path of the base. -/
structure StaysUnder (base url : PyStr) : Prop where
  scheme : (Uri.parse url.codepoints).scheme = (Uri.parse base.codepoints).scheme
  authority : (Uri.parse url.codepoints).authority = (Uri.parse base.codepoints).authority
  query : (Uri.parse url.codepoints).query = none
  fragment : (Uri.parse url.codepoints).fragment = none
  path : ∃ suffix, Uri.removeDots [] (Uri.parse url.codepoints).path =
    (Uri.parse base.codepoints).path ++ slash :: suffix

/-- The attempt sends `g`: what it comes to depends on how `g` ends. -/
def Sends (attempt : Surroundings → Except Raised Reached) (S : Surroundings)
    (g : GuardedRequest) : Prop :=
  ∃ send, (∀ g', g' ≠ g → send g' = S.send g') ∧ attempt { S with send := send } ≠ attempt S

section Operation

variable {G : Gateway} {S : Surroundings} {operation base name : PyStr}

/-- What `_operation_error` lets through. -/
theorem operationError_none_iff : operationError G operation = none ↔
    operation.isEmpty = false ∧ operation.codepoints.all operationChar = true ∧
      (".." : PyStr) ∉ operation.split 0x2F := by
  unfold operationError
  by_cases hempty : operation.isEmpty = true
  · simp [hempty]
  · by_cases hchars : operation.codepoints.all operationChar = true
    · by_cases hdots : (".." : PyStr) ∈ operation.split 0x2F
      · simp [hempty, hchars, hdots]
      · simp [hempty, hchars, hdots]
    · simp [hempty, hchars]

/-- No character of an operation ends a path. -/
theorem operationChar_path {c : Nat} (h : operationChar c = true) : Uri.endsPath c = false := by
  simp only [operationChar, Bool.or_eq_true, Bool.and_eq_true, decide_eq_true_eq] at h
  simp only [Uri.endsPath, Bool.or_eq_false_iff, decide_eq_false_iff_not]
  omega

/-- A segment of what `lstrip` leaves is a segment. -/
theorem mem_splitOn_lstrip {segment text : List Nat}
    (h : segment ∈ (text.dropWhile (· = 0x2F)).splitOn slash) : segment ∈ text.splitOn slash := by
  induction text with
  | nil => exact h
  | cons c text ih =>
    by_cases hc : c = slash
    · have hdrop : (c :: text).dropWhile (· = 0x2F) = text.dropWhile (· = 0x2F) := by
        rw [List.dropWhile_cons, if_pos (decide_eq_true (show c = 0x2F from hc))]
      rw [hdrop] at h
      rw [hc, ← List.nil_append (slash :: text), List.splitOn_append_cons_self]
      exact List.mem_append_right _ (ih h)
    · have hkeep : (c :: text).dropWhile (· = 0x2F) = c :: text := by
        rw [List.dropWhile_cons, if_neg (by simpa [slash] using hc)]
      rw [hkeep] at h
      exact h

/-- A registered base does not end with a slash. -/
theorem registeredBase_last {D : Security.Deployment} (h : registeredBase D name = some base) :
    base.codepoints.getLast? ≠ some slash := by
  unfold registeredBase loadRegistry at h
  obtain ⟨entry, hfind, rfl⟩ := Option.map_eq_some_iff.mp h
  obtain ⟨text, -, htext⟩ := List.mem_filterMap.mp
    (List.mem_reverse.mp (List.mem_of_find?_eq_some hfind))
  unfold registryEntry at htext
  dsimp only at htext
  split at htext
  · cases htext
    intro hlast
    have hnonempty : List.rdropWhile (fun c => decide (c = 0x2F))
        (PyStr.strip ⟨(text.strip.codepoints.dropWhile (· ≠ 0x3D)).tail⟩).codepoints ≠ [] := by
      intro hnil
      rw [hnil] at hlast
      cases hlast
    have hnot := List.rdropWhile_last_not _ _ hnonempty
    rw [List.getLast_of_getLast?_eq_some hlast] at hnot
    exact hnot (by decide)
  · cases htext

/-- **No accepted operation climbs out of the base.** -/
theorem internalUrl_staysUnder (hlast : base.codepoints.getLast? ≠ some slash)
    (hbase : BaseUrl base) (hoperation : operationError G operation = none) :
    StaysUnder base (internalUrl base operation) := by
  obtain ⟨-, hchars, hdots⟩ := operationError_none_iff.mp hoperation
  have hplain : Uri.Plain base.codepoints := Uri.parse_plain_iff.mp ⟨hbase.query, hbase.fragment⟩
  have htail : Uri.Plain (operation.codepoints.dropWhile (· = 0x2F)) := by
    intro c hc
    have hmem : c ∈ operation.codepoints := (List.dropWhile_sublist _).subset hc
    exact operationChar_path (List.all_eq_true.mp hchars c hmem)
  have hhead : (operation.codepoints.dropWhile (· = 0x2F)).head? ≠ some slash := by
    intro h
    have hnot := List.head?_dropWhile_not (fun c => decide (c = 0x2F)) operation.codepoints
    rw [h] at hnot
    simp [slash] at hnot
  have hone : (Uri.splitScheme base.codepoints).2 ≠ [slash] := by
    intro h
    obtain ⟨front, -, hfront⟩ := Uri.splitScheme_rest base.codepoints
    rw [h] at hfront
    apply hlast
    rw [hfront, List.getLast?_concat]
  have hparse := Uri.parse_append hplain htail hone hhead
  have hurl : (internalUrl base operation).codepoints =
      base.codepoints ++ slash :: operation.codepoints.dropWhile (· = 0x2F) := by
    show (base.codepoints ++ [slash]) ++ _ = _
    rw [List.append_assoc]
    rfl
  have hsegments : Uri.dots ∉ (operation.codepoints.dropWhile (· = 0x2F)).splitOn slash := by
    intro hmem
    apply hdots
    exact List.mem_map.mpr ⟨Uri.dots, mem_splitOn_lstrip hmem, rfl⟩
  constructor
  · rw [hurl, hparse]
  · rw [hurl, hparse]
  · rw [hurl, hparse]
    exact hbase.query
  · rw [hurl, hparse]
    exact hbase.fragment
  · rw [hurl, hparse]
    exact Uri.removeDots_append hbase.dots hsegments

/-- What the answer to the guarded request comes to. -/
def answered : Except OutboundError OutboundResponse → Except Raised Reached
  | .error e => .error (.guarded e)
  | .ok response => .ok (.response response)

/-- An attempt sends nothing, or one request to the URL. -/
def SendsTo (attempt : Surroundings → Except Raised Reached) (S : Surroundings) (url : PyStr) :
    Prop :=
  (∃ r, ∀ send, attempt { S with send := send } = r) ∨
    ∃ g, g.url = .str url ∧ ∀ send, attempt { S with send := send } = answered (send g)

theorem not_sends {attempt : Surroundings → Except Raised Reached} {g : GuardedRequest}
    {r : Except Raised Reached} (hr : ∀ send, attempt { S with send := send } = r) :
    ¬ Sends attempt S g := by
  rintro ⟨send, -, hdiffers⟩
  exact hdiffers ((hr send).trans (hr S.send).symm)

/-- An attempt sends what it hands over. -/
theorem sends_of_answered {attempt : Surroundings → Except Raised Reached} {g : GuardedRequest}
    (hg : ∀ send, attempt { S with send := send } = answered (send g)) : Sends attempt S g := by
  classical
  obtain ⟨r, hr⟩ : ∃ r, answered r ≠ answered (S.send g) := by
    cases hsent : S.send g with
    | error e => exact ⟨.ok ⟨200, [], none, none, 0⟩, nofun⟩
    | ok response => exact ⟨.error (.other "" ""), nofun⟩
  refine ⟨Function.update S.send g r, fun g' hother => Function.update_of_ne hother _ _, ?_⟩
  have hsame : attempt S = answered (S.send g) := hg S.send
  rw [hg, Function.update_self, hsame]
  exact hr

/-- And it sends nothing else: on no other answer does anything depend. -/
theorem Sends.eq {attempt : Surroundings → Except Raised Reached} {g g' : GuardedRequest}
    (hg' : ∀ send, attempt { S with send := send } = answered (send g')) (h : Sends attempt S g) :
    g' = g := by
  obtain ⟨send, hsend, hdiffers⟩ := h
  by_contra hother
  have hequal : attempt { S with send := send } = attempt S :=
    calc attempt { S with send := send } = answered (send g') := hg' send
      _ = answered (S.send g') := by rw [hsend g' hother]
      _ = attempt S := (hg' S.send).symm
  exact hdiffers hequal

theorem SendsTo.url {attempt : Surroundings → Except Raised Reached} {url : PyStr}
    {g : GuardedRequest} (hto : SendsTo attempt S url) (h : Sends attempt S g) :
    g.url = .str url := by
  rcases hto with ⟨r, hr⟩ | ⟨g', hurl, hg'⟩
  · exact absurd h (not_sends hr)
  · exact Sends.eq hg' h ▸ hurl

/-- The guarded request of `invoke`. -/
def internalRequest (S : Surroundings) (request : InvocationRequest) (url : PyStr)
    (policy : Security.OutboundPolicy) : GuardedRequest where
  method := .str "POST"
  url := .str url
  policy := policy
  jsonBody := .obj request.payload
  headers :=
    [(.str "X-FAVL-Invocation-ID", .str (uuidText request.invocationId)),
      (.str "X-FAVL-Idempotency-Key", .str request.idempotencyKey),
      (.str "Content-Type", .str "application/json")]
  connectTimeout := min 2 (remaining S request)
  readTimeout := remaining S request
  totalTimeout := remaining S request

theorem internalSend_sendsTo (request : InvocationRequest) (operation : String) :
    SendsTo (fun S => internalSend S request base operation) S
      (internalUrl base (PyStr.ofString operation)) := by
  cases hhost : S.platform.urlHost (internalUrl base (PyStr.ofString operation)) with
  | none =>
    left
    refine ⟨.error (crashed S .invalidUrl), fun send => ?_⟩
    unfold internalUrl at hhost
    simp only [internalSend, hhost]
    rfl
  | some host =>
    unfold internalUrl at hhost
    cases hpolicy : internalPolicy S host with
    | error e =>
      left
      refine ⟨.error (crashed S e), fun send => ?_⟩
      change internalPolicy { S with send := send } host = .error e at hpolicy
      simp only [internalSend, hhost, hpolicy]
      rfl
    | ok policy =>
      right
      refine ⟨internalRequest S request (internalUrl base (PyStr.ofString operation)) policy, rfl,
        fun send => ?_⟩
      change internalPolicy { S with send := send } host = .ok policy at hpolicy
      simp only [internalSend, hhost, hpolicy]
      rfl

theorem internalTarget_ok {context : ConnectorContext} (h : internalTarget S context = .ok base) :
    ∃ name, itemOr context "service" (.str "") = .str name ∧
      registeredBase S.deployment (PyStr.ofString name) = some base := by
  unfold internalTarget at h
  cases hservice : itemOr context "service" (.str "") with
  | str name =>
    simp only [hservice] at h
    refine ⟨name, rfl, ?_⟩
    cases hfound : registeredBase S.deployment (PyStr.ofString name) with
    | none =>
      simp only [hfound] at h
      split at h <;> cases h
    | some base' =>
      simp only [hfound] at h
      split at h <;> cases h
      rfl
  | _ =>
    simp only [hservice] at h
    split at h <;> cases h

theorem invokedOperation_ok {context : ConnectorContext} {operation : String}
    (h : invokedOperation S context = .ok (operation, none)) :
    itemOr context "operation" (.str "") = .str operation ∧
      operationError S.toGateway (PyStr.ofString operation) = none := by
  unfold invokedOperation at h
  split at h
  · rename_i heq
    injection h with hpair
    injection hpair with hoperation herror
    subst hoperation
    exact ⟨heq, herror⟩
  · split at h <;> cases h

/-- What `invoke` sends goes to a registered base and an accepted operation. -/
theorem internalAttempt_sends {request : InvocationRequest} {context : ConnectorContext}
    {g : GuardedRequest} (h : Sends (fun S => internalAttempt S request context) S g) :
    ∃ name base operation,
      itemOr context "service" (.str "") = .str name ∧
      registeredBase S.deployment (PyStr.ofString name) = some base ∧
      itemOr context "operation" (.str "") = .str operation ∧
      operationError S.toGateway (PyStr.ofString operation) = none ∧
      g.url = .str (internalUrl base (PyStr.ofString operation)) := by
  cases htarget : internalTarget S context with
  | error e =>
    refine absurd h (not_sends (r := .error e) fun send => ?_)
    change internalTarget { S with send := send } context = .error e at htarget
    simp only [internalAttempt, htarget]
    rfl
  | ok base =>
    obtain ⟨name, hservice, hbase⟩ := internalTarget_ok htarget
    by_cases hlate : remaining S request ≤ 0
    · refine absurd h (not_sends (r := .ok (.early (tooLate S))) fun send => ?_)
      change internalTarget { S with send := send } context = .ok base at htarget
      change remaining { S with send := send } request ≤ 0 at hlate
      simp only [internalAttempt, htarget]
      exact if_pos hlate
    · cases hinvoked : invokedOperation S context with
      | error e =>
        refine absurd h (not_sends (r := .error e) fun send => ?_)
        change internalTarget { S with send := send } context = .ok base at htarget
        change ¬ remaining { S with send := send } request ≤ 0 at hlate
        change invokedOperation { S with send := send } context = .error e at hinvoked
        simp only [internalAttempt, htarget, hinvoked]
        exact if_neg hlate
      | ok found =>
        obtain ⟨operation, error⟩ := found
        cases error with
        | some error =>
          refine absurd h (not_sends (r := .ok (.early
            (.failure .operationNotSupported error S.started S.completed))) fun send => ?_)
          change internalTarget { S with send := send } context = .ok base at htarget
          change ¬ remaining { S with send := send } request ≤ 0 at hlate
          change invokedOperation { S with send := send } context = .ok (operation, some error)
            at hinvoked
          simp only [internalAttempt, htarget, hinvoked]
          exact if_neg hlate
        | none =>
          obtain ⟨hoperation, haccepted⟩ := invokedOperation_ok hinvoked
          have hattempt : ∀ send, internalAttempt { S with send := send } request context =
              internalSend { S with send := send } request base operation := by
            intro send
            change internalTarget { S with send := send } context = .ok base at htarget
            change ¬ remaining { S with send := send } request ≤ 0 at hlate
            change invokedOperation { S with send := send } context = .ok (operation, none)
              at hinvoked
            simp only [internalAttempt, htarget, hinvoked]
            exact if_neg hlate
          refine ⟨name, base, operation, hservice, hbase, hoperation, haccepted, ?_⟩
          refine (internalSend_sendsTo (S := S) request operation).url ?_
          obtain ⟨send, hsend, hdiffers⟩ := h
          refine ⟨send, hsend, fun hequal => hdiffers ?_⟩
          calc internalAttempt { S with send := send } request context
              = internalSend { S with send := send } request base operation := hattempt send
            _ = internalSend S request base operation := hequal
            _ = internalAttempt S request context := (hattempt S.send).symm

end Operation

/-- **Internal operations stay under the registered prefix**: with every operation that
    `_operation_error` lets through, the URL stays under the base; and what `invoke` sends for the
    service goes to the URL of an operation that it lets through. -/
theorem internal_operations_stay_under {S : Surroundings} {name : String} {base : PyStr}
    (hregistered : registeredBase S.deployment (PyStr.ofString name) = some base)
    (hbase : BaseUrl base) :
    (∀ operation, operationError S.toGateway operation = none →
      StaysUnder base (internalUrl base operation)) ∧
    ∀ request context g, itemOr context "service" (.str "") = .str name →
      Sends (fun S => internalAttempt S request context) S g →
      ∃ operation, operationError S.toGateway operation = none ∧
        g.url = .str (internalUrl base operation) ∧
        StaysUnder base (internalUrl base operation) := by
  have hlast := registeredBase_last hregistered
  refine ⟨fun operation haccepted => internalUrl_staysUnder hlast hbase haccepted, ?_⟩
  intro request context g hservice hsends
  obtain ⟨name', base', operation, hservice', hbase', -, haccepted, hurl⟩ :=
    internalAttempt_sends hsends
  obtain rfl : name = name' := by
    rw [hservice] at hservice'
    injection hservice'
  obtain rfl : base = base' := by
    rw [hregistered] at hbase'
    injection hbase'
  exact ⟨_, haccepted, hurl, internalUrl_staysUnder hlast hbase haccepted⟩

/-- An operator has registered one service. -/
def oneService : Surroundings :=
  { exampleSurroundings with
    deployment :=
      { unicode := .ascii
        getenv := fun name =>
          if name = "INTERNAL_SERVICE_REGISTRY" then some "ledger=http://ledger:80/api/" else none } }

theorem oneService_base : registeredBase oneService.deployment (PyStr.ofString "ledger") =
    some "http://ledger:80/api" := by
  decide +kernel

theorem oneService_baseUrl : BaseUrl "http://ledger:80/api" := by
  constructor
  · decide +kernel
  · decide +kernel
  · decide +kernel

/-- An operation with every kind of harmless segment. -/
theorem internal_operations_stay_under_ledger :
    StaysUnder "http://ledger:80/api" (internalUrl "http://ledger:80/api" "//./..x/.../") :=
  (internal_operations_stay_under oneService_base oneService_baseUrl).1 _ (by decide +kernel)

end FavlGateway.Registry
