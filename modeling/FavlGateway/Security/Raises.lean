/-
  What makes `build_policy` and `validate_static` raise something else than `SSRFBlocked`
  (`app/security/policy.py`, `app/security/ssrf.py`).

  Both take a connector's own values as they come.  `PolicyRaises` lists the shapes of a configuration,
  and of the operator's environment, on which the policy cannot be built; `StaticRaises` those of a URL
  and an allowlist on which the static check does not come to a verdict.  The allowlist is gone through
  in order and an accepting entry ends the search, so an entry that is no text only matters if it is
  reached (`anyAccepts_error_iff`).
-/
import FavlGateway.Security.Policy

namespace FavlGateway.Security

open FavlGateway.Library

theorem ok_of_no_error {ε α : Type} {x : Except ε α} (h : ¬ ∃ e, x = .error e) :
    ∃ a, x = .ok a := by
  cases x with
  | error e => exact absurd ⟨e, rfl⟩ h
  | ok a => exact ⟨a, rfl⟩

/-- `isinstance(value, str)` -/
def isStr : Json PyStr → Bool
  | .str _ => true
  | _ => false

theorem isStr_iff {v : Json PyStr} : isStr v = true ↔ ∃ s, v = .str s := by
  cases v with
  | str s => simp [isStr]
  | null => simp [isStr]
  | bool b => simp [isStr]
  | number n => simp [isStr]
  | arr xs => simp [isStr]
  | obj ms => simp [isStr]

/-! ## Building the policy -/

section Policy

variable {D : Deployment} {config : Dict PyStr} {key : PyStr} {items : List (Json PyStr)}

/-- The value under a key is truthy and cannot be gone through. -/
def NotIterable (config : Dict PyStr) (key : PyStr) : Prop :=
  ∃ v, configItem config key = some v ∧ v.truthy PyStr.isEmpty = true ∧ members v = none

theorem requestedItems_error_iff :
    (∃ e, requestedItems config key = .error e) ↔ NotIterable config key := by
  unfold requestedItems NotIterable
  cases configItem config key with
  | none => simp
  | some v =>
    by_cases htruthy : v.truthy PyStr.isEmpty = true
    · cases hmembers : members v with
      | none => simp [htruthy, hmembers]
      | some items => simp [htruthy, hmembers]
    · simp [htruthy]

/-- Hosts that cannot be put into a set. -/
theorem connectorHosts_error_iff : (∃ e, connectorHosts config = .error e) ↔
    NotIterable config "allowed_hosts" ∨
      ∃ items, requestedItems config "allowed_hosts" = .ok items ∧
        ∃ x ∈ items, hashable x = false := by
  rw [← requestedItems_error_iff]
  unfold connectorHosts
  cases hitems : requestedItems config "allowed_hosts" with
  | error e => simp
  | ok items =>
    by_cases hall : items.all hashable = true
    · have hnone : ¬ ∃ x ∈ items, hashable x = false := by
        rintro ⟨x, hmem, hx⟩
        rw [List.all_eq_true.mp hall x hmem] at hx
        cases hx
      simp [hall, hnone]
    · have hsome : ∃ x ∈ items, hashable x = false := by
        rw [Bool.not_eq_true, List.all_eq_false] at hall
        simpa using hall
      simp [hall, hsome]

/-- Going through the hosts under an allowlist of the operator's reaches every one of them. -/
theorem permittedHosts_error_iff {U : Unicode} {operatorHosts : List PyStr} :
    (∃ e, permittedHosts U operatorHosts items = .error e) ↔ ∃ x ∈ items, isStr x = false := by
  induction items with
  | nil => simp [permittedHosts]
  | cons item items ih =>
    by_cases hitem : isStr item = true
    · obtain ⟨host, rfl⟩ := isStr_iff.mp hitem
      have hstr : isStr (.str host) = true := rfl
      simp only [List.mem_cons, exists_eq_or_imp, hstr, Bool.true_eq_false, false_or]
      rw [← ih, permittedHosts]
      cases permittedHosts U operatorHosts items with
      | error e => simp
      | ok hosts =>
        dsimp only
        split
        · simp
        · simp
    · have herror : permittedHosts U operatorHosts (item :: items) = .error .attributeError := by
        cases item with
        | str s => exact absurd rfl hitem
        | null => rfl
        | bool b => rfl
        | number n => rfl
        | arr xs => rfl
        | obj ms => rfl
      rw [herror]
      constructor
      · intro _
        exact ⟨item, List.mem_cons_self, by simpa using hitem⟩
      · intro _
        exact ⟨_, rfl⟩

/-- What makes `build_policy` raise. -/
inductive PolicyRaises (D : Deployment) (config : Dict PyStr) : Prop where
  /-- `allowed_hosts` is a number or a boolean -/
  | hosts (shape : NotIterable config "allowed_hosts")
  /-- `allowed_hosts` holds a list or an object -/
  | unhashable {items : List (Json PyStr)} {x : Json PyStr}
      (listed : requestedItems config "allowed_hosts" = .ok items) (mem : x ∈ items)
      (shape : hashable x = false)
  /-- `allowed_hosts` holds something that is no text, and the operator has an allowlist -/
  | untyped {items : List (Json PyStr)} {x : Json PyStr} (operator : D.operatorHostAllowlist ≠ [])
      (listed : requestedItems config "allowed_hosts" = .ok items) (mem : x ∈ items)
      (shape : isStr x = false)
  | schemes (shape : NotIterable config "requested_schemes")
  | types (shape : NotIterable config "allowed_content_types")
  /-- the operator's ceilings are no numbers -/
  | bytesCeiling (unset : ∀ n, D.maxResponseBytesCeiling ≠ .ok n)
  | redirectsCeiling (unset : ∀ n, D.maxRedirectsCeiling ≠ .ok n)

/-- **When the policy cannot be built.** -/
theorem policyRaises_iff {maxRedirects : Int} :
    (∃ e, buildPolicy D config maxRedirects = .error e) ↔ PolicyRaises D config := by
  constructor
  · rintro ⟨e, h⟩
    by_contra hno
    obtain ⟨hosts, hhosts⟩ := ok_of_no_error fun herror => by
      rcases connectorHosts_error_iff.mp herror with hshape | ⟨items, hlisted, x, hmem, hshape⟩
      · exact hno (.hosts hshape)
      · exact hno (.unhashable hlisted hmem hshape)
    have hlisted := connectorHosts_items hhosts
    obtain ⟨bound, hbound⟩ : ∃ bound, boundHosts D.unicode D.operatorHostAllowlist hosts =
        .ok bound := by
      unfold boundHosts
      by_cases hoperator : D.operatorHostAllowlist.isEmpty = true
      · exact ⟨hosts, if_pos hoperator⟩
      · rw [if_neg hoperator]
        refine ok_of_no_error fun herror => ?_
        obtain ⟨x, hmem, hshape⟩ := permittedHosts_error_iff.mp herror
        exact hno (.untyped (by simpa using hoperator) hlisted hmem hshape)
    obtain ⟨schemes, hschemes⟩ := ok_of_no_error fun herror =>
      hno (.schemes (requestedItems_error_iff.mp herror))
    obtain ⟨types, htypes⟩ := ok_of_no_error fun herror =>
      hno (.types (requestedItems_error_iff.mp herror))
    obtain ⟨bytes, hbytes⟩ : ∃ n, D.maxResponseBytesCeiling = .ok n := by
      by_contra hnone
      exact hno (.bytesCeiling fun n hn => hnone ⟨n, hn⟩)
    obtain ⟨redirects, hredirects⟩ : ∃ n, D.maxRedirectsCeiling = .ok n := by
      by_contra hnone
      exact hno (.redirectsCeiling fun n hn => hnone ⟨n, hn⟩)
    unfold buildPolicy at h
    rw [hhosts] at h
    dsimp only [bind, Except.bind] at h
    rw [hbound] at h
    dsimp only at h
    rw [hschemes] at h
    dsimp only at h
    rw [hbytes] at h
    dsimp only at h
    rw [hredirects] at h
    dsimp only at h
    rw [htypes] at h
    cases h
  · intro hraises
    cases hpolicy : buildPolicy D config maxRedirects with
    | error e => exact ⟨e, rfl⟩
    | ok policy =>
      exfalso
      obtain ⟨hosts, schemes, types, bytes, redirects, hhosts, hbound, hschemes, -, -, hbytes, -,
        hredirects, -, htypes, -⟩ := buildPolicy_ok hpolicy
      have hnoHosts : ¬ ∃ e, connectorHosts config = .error e := by
        rw [hhosts]
        simp
      rw [connectorHosts_error_iff] at hnoHosts
      cases hraises with
      | hosts hshape => exact hnoHosts (.inl hshape)
      | unhashable hlisted hmem hshape => exact hnoHosts (.inr ⟨_, hlisted, _, hmem, hshape⟩)
      | @untyped items x hoperator hlisted hmem hshape =>
        have hall : items = hosts :=
          Except.ok.inj (hlisted.symm.trans (connectorHosts_items hhosts))
        rw [boundHosts, if_neg (by simpa using hoperator), ← hall] at hbound
        obtain ⟨e, herror⟩ := (@permittedHosts_error_iff items D.unicode
          D.operatorHostAllowlist).mpr ⟨x, hmem, hshape⟩
        rw [herror] at hbound
        cases hbound
      | schemes hshape =>
        obtain ⟨e, herror⟩ := requestedItems_error_iff.mpr hshape
        rw [herror] at hschemes
        cases hschemes
      | types hshape =>
        obtain ⟨e, herror⟩ := requestedItems_error_iff.mpr hshape
        rw [herror] at htypes
        cases htypes
      | bytesCeiling hunset => exact hunset bytes hbytes
      | redirectsCeiling hunset => exact hunset redirects hredirects

end Policy

/-! ## Checking a URL -/

section Static

variable {P : Platform} {policy : OutboundPolicy} {url : PyStr}

theorem anyAccepts_str {U : Unicode} {raw host : PyStr} {rest : List (Json PyStr)} :
    anyAccepts U host (.str raw :: rest) =
      if accepts U raw host then .ok true else anyAccepts U host rest := rfl

/-- The search through texts that do not accept the host goes on behind them. -/
theorem anyAccepts_append {U : Unicode} {host : PyStr} {before : List PyStr}
    (hnone : ∀ raw ∈ before, accepts U raw host = false) (rest : List (Json PyStr)) :
    anyAccepts U host (before.map Json.str ++ rest) = anyAccepts U host rest := by
  induction before with
  | nil => rfl
  | cons raw before ih =>
    have hraw : ¬ accepts U raw host = true := by
      rw [hnone raw List.mem_cons_self]
      decide
    rw [List.map_cons, List.cons_append, anyAccepts_str, if_neg hraw]
    exact ih fun r hr => hnone r (List.mem_cons_of_mem _ hr)

theorem anyAccepts_not_str {U : Unicode} {host : PyStr} {entry : Json PyStr}
    {rest : List (Json PyStr)} (h : isStr entry = false) :
    anyAccepts U host (entry :: rest) = .error .attributeError := by
  cases entry with
  | str s => cases h
  | null => rfl
  | bool b => rfl
  | number n => rfl
  | arr xs => rfl
  | obj ms => rfl

/-- The entries are texts up to one that ends the search: it accepts the host, or it is no text. -/
theorem anyAccepts_cases (U : Unicode) (host : PyStr) (entries : List (Json PyStr)) :
    anyAccepts U host entries = .ok false ∨
      ∃ before entry after, entries = List.map Json.str before ++ entry :: after ∧
        (∀ raw ∈ before, accepts U raw host = false) ∧
        (isStr entry = false ∨ ∃ raw, entry = .str raw ∧ accepts U raw host = true) := by
  induction entries with
  | nil => exact Or.inl rfl
  | cons entry entries ih =>
    by_cases htext : isStr entry = true
    · obtain ⟨raw, rfl⟩ := isStr_iff.mp htext
      by_cases haccepts : accepts U raw host = true
      · exact Or.inr ⟨[], .str raw, entries, rfl, by simp, Or.inr ⟨raw, rfl, haccepts⟩⟩
      · rw [anyAccepts_str, if_neg haccepts]
        rcases ih with hfalse | ⟨before, entry, after, rfl, hnone, hends⟩
        · exact Or.inl hfalse
        · refine Or.inr ⟨raw :: before, entry, after, rfl, ?_, hends⟩
          intro r hr
          rcases List.mem_cons.mp hr with rfl | hr
          · simpa using haccepts
          · exact hnone r hr
    · exact Or.inr ⟨[], entry, entries, rfl, by simp, Or.inl (by simpa using htext)⟩

/-- The URL parses, its scheme is allowed, it has a host and no credentials. -/
structure ReachesHosts (P : Platform) (policy : OutboundPolicy) (url : PyStr)
    (parsed : ParsedUrl) (host : PyStr) : Prop where
  url : P.urlparse url = some parsed
  scheme : parsed.scheme.lower P.unicode ∈ policy.allowedSchemes
  hostname : parsed.hostname = some host
  host : host.isEmpty = false
  credentials : given parsed.username = false ∧ given parsed.password = false

/-- What makes `validate_static` raise something else than `SSRFBlocked`. -/
inductive StaticRaises (P : Platform) (policy : OutboundPolicy) (url : PyStr) : Prop where
  /-- `urlparse` raises -/
  | url (unparsable : P.urlparse url = none)
  /-- an entry of the allowlist that is no text is reached -/
  | entry {parsed : ParsedUrl} {host : PyStr} {before : List PyStr} {bad : Json PyStr}
      {after : List (Json PyStr)} (reaches : ReachesHosts P policy url parsed host)
      (hosts : policy.allowedHosts = before.map Json.str ++ bad :: after)
      (passed : ∀ raw ∈ before, accepts P.unicode raw host = false) (shape : isStr bad = false)
  /-- every check passes, and reading the port raises -/
  | port {parsed : ParsedUrl} {host raw : PyStr} {before : List PyStr} {after : List (Json PyStr)}
      (reaches : ReachesHosts P policy url parsed host)
      (hosts : policy.allowedHosts = before.map Json.str ++ .str raw :: after)
      (passed : ∀ raw ∈ before, accepts P.unicode raw host = false)
      (accepted : accepts P.unicode raw host = true)
      (literal : checkLiteral P policy host = .ok ()) (port : parsed.port = none)

/-- The exception is not `SSRFBlocked`. -/
def Exc.isCrash : Exc → Bool
  | blocked _ _ => false
  | _ => true

/-- From the allowlist on. -/
def fromHosts (P : Platform) (policy : OutboundPolicy) (parsed : ParsedUrl) (host : PyStr) :
    Except Exc (PyStr × PyStr × Nat) := do
  checkHost P policy host
  checkLiteral P policy host
  let port ← portOf parsed (parsed.scheme.lower P.unicode)
  pure (parsed.scheme.lower P.unicode, host, port)

theorem validateStatic_reaches {parsed : ParsedUrl} {host : PyStr}
    (h : ReachesHosts P policy url parsed host) :
    validateStatic P policy url = fromHosts P policy parsed host := by
  have hcredentials : checkCredentials parsed host = .ok () := by
    rw [checkCredentials, h.credentials.1, h.credentials.2]
    rfl
  have hhostname : checkHostname url parsed = .ok host := by
    simp [checkHostname, h.hostname, h.host]
  simp only [validateStatic, parseUrl, h.url, checkScheme, if_pos h.scheme, hhostname, hcredentials,
    bind, Except.bind]
  rfl

/-- A URL that does not get to the allowlist is blocked, if it parses. -/
theorem validateStatic_blocked (hparsed : P.urlparse url ≠ none)
    (h : ¬ ∃ parsed host, ReachesHosts P policy url parsed host) :
    ∃ reason detail, validateStatic P policy url = .error (.blocked reason detail) := by
  obtain ⟨parsed, hurl⟩ := Option.ne_none_iff_exists'.mp hparsed
  by_cases hscheme : parsed.scheme.lower P.unicode ∈ policy.allowedSchemes
  · cases hhostname : parsed.hostname with
    | none =>
      refine ⟨"missing_host", url, ?_⟩
      simp only [validateStatic, parseUrl, hurl, checkScheme, if_pos hscheme, checkHostname,
        hhostname, bind, Except.bind]
    | some host =>
      by_cases hempty : host.isEmpty = true
      · refine ⟨"missing_host", url, ?_⟩
        simp only [validateStatic, parseUrl, hurl, checkScheme, if_pos hscheme, checkHostname,
          hhostname, if_pos hempty, bind, Except.bind]
      · by_cases hgiven : (given parsed.username || given parsed.password) = true
        · refine ⟨"credentials_in_url", host, ?_⟩
          simp only [validateStatic, parseUrl, hurl, checkScheme, if_pos hscheme, checkHostname,
            hhostname, if_neg hempty, checkCredentials, if_pos hgiven, bind, Except.bind]
        · rw [Bool.or_eq_true, not_or] at hgiven
          exact absurd ⟨parsed, host, hurl, hscheme, hhostname, by simpa using hempty,
            by simpa using hgiven.1, by simpa using hgiven.2⟩ h
  · refine ⟨"scheme_not_allowed",
      if (parsed.scheme.lower P.unicode).isEmpty then "<none>"
      else parsed.scheme.lower P.unicode, ?_⟩
    simp only [validateStatic, parseUrl, hurl, checkScheme, if_neg hscheme, bind, Except.bind]

theorem checkLiteral_cases (P : Platform) (policy : OutboundPolicy) (host : PyStr) :
    checkLiteral P policy host = .ok () ∨
      ∃ reason detail, checkLiteral P policy host = .error (.blocked reason detail) := by
  unfold checkLiteral
  split
  · exact Or.inl rfl
  · split
    · exact Or.inr ⟨_, _, rfl⟩
    · exact Or.inl rfl

/-- **When the static check does not come to a verdict.** -/
theorem staticRaises_iff :
    (∃ e, validateStatic P policy url = .error e ∧ e.isCrash = true) ↔ StaticRaises P policy url := by
  constructor
  · rintro ⟨e, h, hcrash⟩
    by_cases hparsed : P.urlparse url = none
    · exact .url hparsed
    · by_cases hreaches : ∃ parsed host, ReachesHosts P policy url parsed host
      · obtain ⟨parsed, host, hreaches⟩ := hreaches
        rw [validateStatic_reaches hreaches] at h
        rcases anyAccepts_cases P.unicode host policy.allowedHosts with
          hfalse | ⟨before, entry, after, hhosts, hpassed, hshape | ⟨raw, rfl, haccepts⟩⟩
        · -- no entry accepts the host: the URL is blocked
          simp only [fromHosts, checkHost, OutboundPolicy.hostAllowed, hfalse, bind,
            Except.bind] at h
          cases h
          cases hcrash
        · exact .entry hreaches hhosts hpassed hshape
        · have hallowed : anyAccepts P.unicode host policy.allowedHosts = .ok true := by
            rw [hhosts, anyAccepts_append hpassed, anyAccepts_str, if_pos haccepts]
          rcases checkLiteral_cases P policy host with hliteral | ⟨reason, detail, hliteral⟩
          · refine .port hreaches hhosts hpassed haccepts hliteral ?_
            cases hport : parsed.port with
            | none => rfl
            | some port =>
              exfalso
              simp only [fromHosts, checkHost, OutboundPolicy.hostAllowed, hallowed, hliteral,
                portOf, hport, bind, Except.bind] at h
              cases port with
              | none => cases h
              | some n => cases h
          · simp only [fromHosts, checkHost, OutboundPolicy.hostAllowed, hallowed, hliteral, bind,
              Except.bind] at h
            cases h
            cases hcrash
      · obtain ⟨reason, detail, hblocked⟩ := validateStatic_blocked hparsed hreaches
        rw [hblocked] at h
        cases h
        cases hcrash
  · intro hraises
    cases hraises with
    | url hunparsable =>
      exact ⟨.valueError, by
        simp only [validateStatic, parseUrl, hunparsable, bind, Except.bind], rfl⟩
    | entry hreaches hhosts hpassed hshape =>
      refine ⟨.attributeError, ?_, rfl⟩
      rw [validateStatic_reaches hreaches]
      simp only [fromHosts, checkHost, OutboundPolicy.hostAllowed, hhosts,
        anyAccepts_append hpassed, anyAccepts_not_str hshape, bind, Except.bind]
    | port hreaches hhosts hpassed haccepts hliteral hport =>
      refine ⟨.valueError, ?_, rfl⟩
      rw [validateStatic_reaches hreaches]
      simp only [fromHosts, checkHost, OutboundPolicy.hostAllowed, hhosts,
        anyAccepts_append hpassed, anyAccepts_str, if_pos haccepts, hliteral, portOf, hport, bind,
        Except.bind]

end Static

end FavlGateway.Security
