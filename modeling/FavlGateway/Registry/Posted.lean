/-
  What `POST /v1/connectors` is sent, and how it is answered (`create_connector`, `app/main.py`).

  The body is JSON, so the texts of `config` may hold lone surrogates, which can neither be stored
  nor sent back.  `createWith` goes over to Unicode where the source encodes: at the insert of a
  configuration that was accepted, and in the body that reports the errors of one that was not.

  What follows the nesting of a configuration gives up on one that is too deep: `json.dumps` when
  the column is written, `redact_config`, which calls itself, and pydantic's serialiser.  How far
  each of them goes are the `Limits`.  An exception that no handler names is answered 500.
-/
import FavlGateway.Registry.Main
import FavlGateway.Registry.References

namespace FavlGateway.Registry

open FavlGateway.Library
open FavlGateway.Security (configItem)

/-! ## The payload -/

/-- `ConnectorCreate`, with the configuration as it arrived. -/
structure PostedConnector where
  name : String
  kind : ConnectorKind
  baseUrl : Option String := none
  scopes : List String := []
  config : Dict PyStr := []
  status : ConnectorState := .enabled
  name_length : 2 ≤ name.length ∧ name.length ≤ 80
  only_creatable_states : status ∈ creatableStates
  no_literal_secrets : ∀ k ∈ forbiddenConfigKeys, configItem config (PyStr.ofString k) = none
  no_privilege_escalation : ∀ k ∈ operatorOnlyConfigKeys,
    configItem config (PyStr.ofString k) = none

/-- The configuration that is validated, and stored if it can be. -/
def PostedConnector.effectiveConfig (posted : PostedConnector) : Dict PyStr :=
  match posted.baseUrl with
  | some url =>
    if (configItem posted.config "base_url").isNone then
      posted.config ++ ([("base_url", .str url)] : Dict PyStr)
    else posted.config
  | none => posted.config

/-- A text without NUL is the key it was written as. -/
theorem key_eq_iff {key : PyStr} {l k : String} (h : key.toString? = some l)
    (hnul : Char.ofNat 0 ∉ k.toList) : l = k ↔ key = PyStr.ofString k := by
  constructor
  · rintro rfl
    exact PyStr.eq_ofString_of_toString? h hnul
  · rintro rfl
    rw [PyStr.toString?_ofString] at h
    exact (Option.some.inj h).symm

/-- A key is missing from what a client reads exactly if it is missing from what was sent. -/
theorem get?_rendered {k : String} (hnul : Char.ofNat 0 ∉ k.toList) :
    ∀ {ms : Dict PyStr} {c : Dict String}, Json.renderMembers ms = some c →
      (c.get? k = none ↔ configItem ms (PyStr.ofString k) = none)
  | [], c, h => by
    cases h
    exact ⟨fun _ => rfl, fun _ => rfl⟩
  | (key, x) :: ms, c, h => by
    rw [Json.renderMembers] at h
    split at h
    · rename_i l y ns hkey hvalue hrest
      cases h
      have ih := get?_rendered hnul hrest
      have hsame := key_eq_iff hkey hnul
      unfold Dict.get? configItem at ih ⊢
      by_cases hhere : l = k
      · simp [hhere, hsame.mp hhere]
      · have hother : key ≠ PyStr.ofString k := fun he => hhere (hsame.mpr he)
        simpa [List.find?_cons, hhere, hother] using ih
    · cases h

theorem renderMembers_append {ms more : Dict PyStr} {c d : Dict String}
    (h : Json.renderMembers ms = some c) (hmore : Json.renderMembers more = some d) :
    Json.renderMembers (ms ++ more) = some (c ++ d) := by
  induction ms generalizing c with
  | nil =>
    cases h
    exact hmore
  | cons m ms ih =>
    obtain ⟨key, x⟩ := m
    rw [Json.renderMembers] at h
    split at h
    · rename_i l y ns hkey hvalue hrest
      cases h
      rw [List.cons_append, Json.renderMembers, hkey, hvalue, ih hrest]
      rfl
    · cases h

theorem renderMembers_append_none {ms more : Dict PyStr} (h : Json.renderMembers ms = none) :
    Json.renderMembers (ms ++ more) = none := by
  induction ms with
  | nil => cases h
  | cons m ms ih =>
    obtain ⟨key, x⟩ := m
    rw [List.cons_append, Json.renderMembers]
    rw [Json.renderMembers] at h
    cases hkey : key.toString? with
    | none => rfl
    | some l =>
      cases hvalue : x.render with
      | none => rfl
      | some y =>
        cases hrest : Json.renderMembers ms with
        | none => rw [ih hrest]
        | some ns =>
          rw [hkey, hvalue, hrest] at h
          cases h

theorem nul_notMem_forbidden : ∀ k ∈ forbiddenConfigKeys, Char.ofNat 0 ∉ k.toList := by decide

theorem nul_notMem_operatorOnly : ∀ k ∈ operatorOnlyConfigKeys, Char.ofNat 0 ∉ k.toList := by
  decide

/-- The payload with its configuration in Unicode, if it is. -/
def PostedConnector.toPayload (posted : PostedConnector) : Option ConnectorCreate :=
  match h : Json.renderMembers posted.config with
  | none => none
  | some config => some
    { name := posted.name
      kind := posted.kind
      baseUrl := posted.baseUrl
      scopes := posted.scopes
      config := config
      status := posted.status
      name_length := posted.name_length
      only_creatable_states := posted.only_creatable_states
      no_literal_secrets := fun k hk =>
        (get?_rendered (nul_notMem_forbidden k hk) h).mpr (posted.no_literal_secrets k hk)
      no_privilege_escalation := fun k hk =>
        (get?_rendered (nul_notMem_operatorOnly k hk) h).mpr (posted.no_privilege_escalation k hk) }

/-- What is not Unicode in the configuration is not Unicode in the one that is validated. -/
theorem toPayload_none {posted : PostedConnector} (h : posted.toPayload = none) :
    Json.renderMembers posted.effectiveConfig = none := by
  unfold PostedConnector.toPayload at h
  split at h
  · rename_i hnone
    unfold PostedConnector.effectiveConfig
    split
    · split
      · exact renderMembers_append_none hnone
      · exact hnone
    · exact hnone
  · cases h

/-- The payload in Unicode says what was posted, its configuration as a client would read it. -/
theorem toPayload_some {posted : PostedConnector} {payload : ConnectorCreate}
    (h : posted.toPayload = some payload) :
    payload.name = posted.name ∧ payload.kind = posted.kind ∧ payload.baseUrl = posted.baseUrl ∧
      payload.scopes = posted.scopes ∧ payload.status = posted.status ∧
      Json.renderMembers posted.effectiveConfig = some (effectiveConfig payload) := by
  unfold PostedConnector.toPayload at h
  split at h
  · cases h
  · rename_i config hsome
    cases h
    refine ⟨rfl, rfl, rfl, rfl, rfl, ?_⟩
    have hkey := get?_rendered (by decide : Char.ofNat 0 ∉ "base_url".toList) hsome
    unfold PostedConnector.effectiveConfig effectiveConfig
    cases posted.baseUrl with
    | none => exact hsome
    | some url =>
      simp only [Option.isNone_iff_eq_none, hkey]
      split
      · exact renderMembers_append hsome (by simp [Json.renderMembers, Json.render, jsonStr])
      · exact hsome

/-! ## How deep a configuration may be -/

mutual

/-- The Python functions that are open at once while `_redact_any` goes through a value. -/
def redactAnyFrames (key : String) : Json String → Nat
  | .obj ms =>
    -- `_redact_headers`, its comprehension and `_is_reference`
    if lower key = "headers".toList then if ms.isEmpty then 3 else 4
    -- `redact_config` and its comprehension
    else redactMembersFrames ms + 3
  -- the comprehension
  | .arr xs => redactItemsFrames key xs + 2
  -- `redact_value` and `_is_reference`
  | .null | .bool _ | .number _ | .str _ => 3

def redactItemsFrames (key : String) : List (Json String) → Nat
  | [] => 0
  | x :: xs => max (redactAnyFrames key x) (redactItemsFrames key xs)

def redactMembersFrames : List (String × Json String) → Nat
  | [] => 0
  | (k, x) :: ms => max (redactAnyFrames k x) (redactMembersFrames ms)

end

/-- The functions open at once in `redact_config`. -/
def redactConfigFrames (config : Dict String) : Nat := redactMembersFrames config + 2

/-- How deep the libraries follow a value. -/
structure Limits where
  /-- the nesting `json.dumps` writes -/
  dumps : Nat
  /-- the calls that are left to the interpreter where `_to_schema` redacts -/
  frames : Nat
  /-- the nesting pydantic serialises -/
  serialiser : Nat

/-- The configuration is written to its column. -/
def Limits.writes (L : Limits) (config : Dict String) : Bool := (Json.obj config).depth ≤ L.dumps

/-- The configuration is redacted, and what that leaves of it serialised. -/
def Limits.publishes (L : Limits) (config : Dict String) : Bool :=
  redactConfigFrames config ≤ L.frames && (Json.obj (redactConfig config)).depth ≤ L.serialiser

/-! ## The request -/

/-- An exception that no handler names. -/
def unanswered : Handler Response := .ret ⟨500, .internalServerError⟩

/-- The detail of the answer to a configuration that was not accepted. -/
def configInvalid (errors : List PyStr) : Json PyStr :=
  .obj [("error_code", .str "CONFIG_INVALID"), ("errors", .arr (errors.map .str))]

/-- `create_connector` of a configuration too deep to be published: the row is flushed before. -/
def createTooDeep (env : Env) (caller : CallerIdentity) (payload : ConnectorCreate) :
    Handler Response := do
  await (.addConnector (newConnector env caller payload))
  match ← await .flush with
  | .error .integrity =>
    await .rollback
    .raise (.http 409 (jsonStr ("Connector named '" ++ payload.name ++ "' already exists")))
  | .error .data => .raise (.db .data)
  | .ok () => unanswered

/-- `create_connector` with the validator of its kind. -/
def createWith (L : Limits) (validate : Dict PyStr → Except Security.Exc Verdict) (env : Env)
    (caller : CallerIdentity) (posted : PostedConnector) : Handler Response :=
  match validate posted.effectiveConfig with
  | .error _ => unanswered
  | .ok verdict =>
    if !verdict.valid then
      match (configInvalid verdict.errors).render with
      | none => unanswered
      | some detail => .raise (.http 422 detail)
    else
      match posted.toPayload with
      -- the column takes neither a lone surrogate nor a number that is not finite
      | none => unanswered
      | some payload =>
        let env := { env with validateConfig := fun _ _ => verdict.toResult }
        if !L.writes (effectiveConfig payload) then unanswered
        else if !L.publishes (effectiveConfig payload) then createTooDeep env caller payload
        else createConnector env caller payload

/-! ## What can be reported -/

/-- The text has no lone surrogate in it. -/
def IsUnicode (s : PyStr) : Prop := s.toString?.isSome = true

instance (s : PyStr) : Decidable (IsUnicode s) :=
  inferInstanceAs (Decidable (s.toString?.isSome = true))

@[simp] theorem isUnicode_ofString (s : String) : IsUnicode (PyStr.ofString s) := by
  rw [IsUnicode, PyStr.toString?_ofString]
  rfl

theorem isUnicode_iff {s : PyStr} :
    IsUnicode s ↔ ∀ c ∈ s.codepoints, ¬ (0xD800 ≤ c ∧ c ≤ 0xDFFF) := by
  unfold IsUnicode PyStr.toString?
  split
  · rename_i hany
    simp only [Option.isSome_none, Bool.false_eq_true, false_iff]
    intro hnone
    obtain ⟨c, hc, hsurrogate⟩ := List.any_eq_true.mp hany
    exact hnone c hc (of_decide_eq_true hsurrogate)
  · rename_i hany
    simp only [Option.isSome_some, true_iff]
    intro c hc hsurrogate
    exact hany (List.any_eq_true.mpr ⟨c, hc, decide_eq_true hsurrogate⟩)

@[simp] theorem isUnicode_append {s t : PyStr} :
    IsUnicode (s ++ t) ↔ IsUnicode s ∧ IsUnicode t := by
  have happend : (s ++ t).codepoints = s.codepoints ++ t.codepoints := rfl
  simp only [isUnicode_iff, happend, List.mem_append, or_imp, forall_and]

/-- The errors are sent exactly if they are all Unicode. -/
theorem configInvalid_render {errors : List PyStr} :
    (configInvalid errors).render.isSome = true ↔ ∀ e ∈ errors, IsUnicode e := by
  have hlist : (Json.renderList (errors.map .str)).isSome = true ↔ ∀ e ∈ errors, IsUnicode e := by
    induction errors with
    | nil => simp [Json.renderList]
    | cons e errors ih =>
      rw [List.forall_mem_cons, ← ih, List.map_cons, Json.renderList, Json.render, IsUnicode]
      cases e.toString? with
      | none => simp
      | some text =>
        cases Json.renderList (errors.map .str) with
        | none => simp
        | some texts => simp
  rw [← hlist]
  simp only [configInvalid, Json.render, Json.renderMembers, PyStr.toString?_ofString,
    Option.map_some]
  cases Json.renderList (errors.map .str) with
  | none => rfl
  | some texts => rfl

section Presentable

variable {G : Gateway} {config : Dict PyStr}

/-- What the errors of a validator quote is Unicode: the name of a header that is rejected, and the
    name of a service that is not registered. -/
def Presentable (G : Gateway) : ConnectorKind → Dict PyStr → Prop
  | .http, config => ∀ headers, configHeaders config = .ok headers →
      ∀ h ∈ headers, headerError G config h.1 h.2 ≠ none → IsUnicode h.1
  | .internal, config => ∀ name, configItem config "service" = some (.str name) →
      registeredBase G.deployment name = none → IsUnicode name
  | .webhook, _ | .mcp, _ => True

theorem containsText_append {s t : PyStr} {words : String}
    (h : containsText s words = true ∨ containsText t words = true) :
    containsText (s ++ t) words = true := by
  have happend : (s ++ t).codepoints = s.codepoints ++ t.codepoints := rfl
  simp only [containsText_iff, happend] at h ⊢
  rcases h with h | h
  · exact h.trans (List.prefix_append _ _).isInfix
  · exact h.trans (List.suffix_append _ _).isInfix

/-- What is reported of a reference is an error of its form. -/
theorem referenceError_form {value owner why : PyStr} (h : referenceError value owner = some why) :
    why ∈ formErrors := by
  have hconnector : containsText "' may not read connector '" "may not read" = true := by
    decide +kernel
  have htenant : containsText "' may not read tenant '" "may not read" = true := by decide +kernel
  unfold referenceError at h
  split at h
  · cases h
  · rename_i reason hnot
    split at h
    · cases h
    · rename_i hwords
      cases h
      unfold notAddressable at hnot
      split at hnot
      · cases hnot
        exact List.mem_cons_self
      · split at hnot
        · cases hnot
          exact List.mem_cons_of_mem _ List.mem_cons_self
        · split at hnot
          · cases hnot
            exact absurd (containsText_append (.inr (containsText_append (.inl
              (containsText_append (.inl (containsText_append (.inr hconnector)))))))) hwords
          · split at hnot
            · cases hnot
              exact absurd (containsText_append (.inr (containsText_append (.inl
                (containsText_append (.inl (containsText_append (.inr htenant)))))))) hwords
            · cases hnot

theorem isUnicode_form {why : PyStr} (h : why ∈ formErrors) : IsUnicode why := by
  unfold formErrors at h
  simp only [List.mem_cons, List.not_mem_nil, or_false] at h
  rcases h with rfl | rfl
  · simp
  · simp

theorem isUnicode_errorUnless {passed : Bool} {error e : PyStr} (herror : IsUnicode error)
    (h : e ∈ errorUnless passed error) : IsUnicode e := by
  unfold errorUnless at h
  split at h
  · cases h
  · rw [List.mem_singleton.mp h]
    exact herror

/-- The error of a header is Unicode exactly if the header's name is. -/
theorem isUnicode_headerError {key e : PyStr} {value : Json PyStr}
    (h : headerError G config key value = some e) : IsUnicode e ↔ IsUnicode key := by
  unfold headerError at h
  split at h
  · obtain ⟨why, hwhy, rfl⟩ := Option.map_eq_some_iff.mp h
    simp [isUnicode_form (referenceError_form hwhy)]
  · split at h
    · cases h
      simp
    · cases h

theorem isUnicode_httpFieldErrors {e : PyStr} (h : e ∈ httpFieldErrors config) : IsUnicode e := by
  simp only [httpFieldErrors, List.mem_append] at h
  rcases h with (h | h) | h
  · exact isUnicode_errorUnless (isUnicode_ofString _) h
  · exact isUnicode_errorUnless (isUnicode_ofString _) h
  · refine isUnicode_errorUnless ?_ h
    simp [listText]

theorem isUnicode_baseUrlErrors {rejected : List PyStr} {e : PyStr}
    (h : baseUrlErrors G config = .ok rejected) (he : e ∈ rejected) : IsUnicode e := by
  unfold baseUrlErrors at h
  split at h
  · cases h
    cases he
  · split at h
    · split at h
      · cases h
      · split at h
        · split at h
          · cases h
            cases he
          · cases h
            rw [List.mem_singleton.mp he]
            simp
          · cases h
        · cases h
    · cases h
      cases he

theorem http_texts {verdict : Verdict} (h : httpValidateConfig G config = .ok verdict) :
    (∀ e ∈ verdict.errors, IsUnicode e) ↔ Presentable G .http config := by
  unfold httpValidateConfig at h
  cases hheaders : configHeaders config with
  | error e =>
    rw [hheaders] at h
    cases h
  | ok headers =>
    rw [hheaders] at h
    cases hrejected : baseUrlErrors G config with
    | error e =>
      rw [hrejected] at h
      cases h
    | ok rejected =>
      rw [hrejected] at h
      cases h
      simp only [Presentable, hheaders, Except.ok.injEq, forall_eq']
      constructor
      · intro hall entry hentry herror
        obtain ⟨e, he⟩ := Option.ne_none_iff_exists'.mp herror
        refine (isUnicode_headerError he).mp (hall e ?_)
        exact List.mem_append_left _ (List.mem_append_right _
          (List.mem_filterMap.mpr ⟨entry, hentry, he⟩))
      · intro hnames e he
        rcases List.mem_append.mp he with he | he
        · rcases List.mem_append.mp he with he | he
          · exact isUnicode_httpFieldErrors he
          · obtain ⟨entry, hentry, herror⟩ := List.mem_filterMap.mp he
            refine (isUnicode_headerError herror).mpr (hnames entry hentry ?_)
            rw [herror]
            exact Option.some_ne_none e
        · exact isUnicode_baseUrlErrors hrejected he

theorem webhook_texts {e : PyStr} {verdict : Verdict}
    (h : webhookValidateConfig config = .ok verdict) (he : e ∈ verdict.errors) : IsUnicode e := by
  cases h
  simp only [List.mem_append] at he
  rcases he with (((he | he) | he) | he) | he
  · exact isUnicode_errorUnless (isUnicode_ofString _) he
  · exact isUnicode_errorUnless (isUnicode_ofString _) he
  · unfold signingErrors at he
    split at he
    · rw [List.mem_singleton.mp he]
      exact isUnicode_ofString _
    · split at he
      · rw [List.mem_singleton.mp he]
        exact isUnicode_ofString _
      · split at he
        · rw [List.mem_singleton.mp he]
          exact isUnicode_ofString _
        · split at he
          · rename_i why hwhy
            rw [List.mem_singleton.mp he]
            simp [isUnicode_form (referenceError_form hwhy)]
          · cases he
  · exact isUnicode_errorUnless (isUnicode_ofString _) he
  · refine isUnicode_errorUnless ?_ he
    simp [listText]

theorem isUnicode_knownServices : IsUnicode (knownServices G) := by
  unfold knownServices
  dsimp only
  split
  · exact isUnicode_ofString _
  · exact isUnicode_ofString _

theorem isUnicode_operationError {operation e : PyStr} (h : operationError G operation = some e) :
    IsUnicode e := by
  unfold operationError at h
  split at h
  · cases h
    exact isUnicode_ofString _
  · split at h
    · cases h
      simp
    · split at h
      · cases h
        exact isUnicode_ofString _
      · cases h

theorem service_texts {errors : List PyStr} (h : serviceErrors G config = .ok errors) :
    (∀ e ∈ errors, IsUnicode e) ↔ Presentable G .internal config := by
  have hknown := @isUnicode_knownServices G
  unfold serviceErrors at h
  split at h
  · rename_i hitem
    cases h
    simp [Presentable, hitem]
  · rename_i value hitem
    split at h
    · rename_i hfalsy
      cases h
      simp only [Presentable, hitem, List.mem_singleton, forall_eq, isUnicode_ofString, true_iff,
        Option.some.injEq]
      rintro name rfl -
      have hempty : name.codepoints = [] := by simpa [Json.truthy, PyStr.isEmpty] using hfalsy
      simp [isUnicode_iff, hempty]
    · split at h
      · cases h
      · split at h
        · rename_i name _ _
          split at h
          · rename_i hregistered
            cases h
            obtain ⟨base, hbase⟩ := Option.isSome_iff_exists.mp hregistered
            simp [Presentable, hitem, hbase]
          · rename_i hunregistered
            cases h
            have hnone : registeredBase G.deployment name = none := by simpa using hunregistered
            simp [Presentable, hitem, hnone, hknown]
        · rename_i hshape
          cases h
          have hother : Security.isStr value = false := by
            cases value with
            | str name => exact absurd rfl (hshape name)
            | null | bool _ | number _ | arr _ | obj _ => rfl
          have htext : IsUnicode (G.str value) := G.str_unicode value hother
          simp only [List.mem_singleton, forall_eq, isUnicode_append, isUnicode_ofString, htext,
            hknown, and_self, true_iff]
          intro name hname
          rw [hitem] at hname
          exact absurd (Option.some.inj hname) (hshape name)

theorem internal_texts {verdict : Verdict} (h : internalValidateConfig G config = .ok verdict) :
    (∀ e ∈ verdict.errors, IsUnicode e) ↔ Presentable G .internal config := by
  unfold internalValidateConfig at h
  cases hservice : serviceErrors G config with
  | error e =>
    rw [hservice] at h
    cases h
  | ok errors =>
    rw [hservice] at h
    cases h
    rw [← service_texts hservice]
    constructor
    · intro hall e he
      exact hall e (List.mem_append_left _ (List.mem_append_left _ he))
    · intro hservice e he
      rcases List.mem_append.mp he with he | he
      · rcases List.mem_append.mp he with he | he
        · exact hservice e he
        · exact isUnicode_operationError (Option.mem_toList.mp he)
      · exact isUnicode_errorUnless (isUnicode_ofString _) he

/-- **What a validator finds can be reported** exactly if what it quotes is Unicode. -/
theorem validator_texts {kind : ConnectorKind}
    {validate : Dict PyStr → Except Security.Exc Verdict} {verdict : Verdict}
    (h : validatorOf G kind = some validate) (hverdict : validate config = .ok verdict) :
    (configInvalid verdict.errors).render.isSome = true ↔ Presentable G kind config := by
  rw [configInvalid_render]
  cases kind with
  | http =>
    cases h
    exact http_texts hverdict
  | webhook =>
    cases h
    exact ⟨fun _ => trivial, fun _ e he => webhook_texts hverdict he⟩
  | internal =>
    cases h
    exact internal_texts hverdict
  | mcp => cases h

end Presentable

end FavlGateway.Registry
