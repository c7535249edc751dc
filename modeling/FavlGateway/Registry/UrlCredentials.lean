/-
  URLs with a username or a password, on their way through a creation.

  A caller supplies URLs in `base_url` and anywhere under `config`.  The first is published as it is,
  and by `create_connector` it also becomes a member of the configuration; the others pass through
  redaction, which leaves what stands under a structural key alone.  Neither looks INTO a URL.

  `Clean` says of a payload that no URL with credentials stands where it would be published.
  `url_credentials_unpublished` says that this is exactly when none is, in the document a creation
  returns, in its event and in every later read, whatever other requests do meanwhile.
-/
import FavlGateway.Library.JsonText
import FavlGateway.Registry.CreationRuns
import FavlGateway.Registry.PublishedTexts
import FavlGateway.Registry.Validators

namespace FavlGateway.Registry

open FavlGateway.Library

/-! ## Credentials in a URL -/

/-- A character of a scheme. -/
def schemeChar (c : Char) : Bool := c.isAlphanum || c = '+' || c = '-' || c = '.'

/-- What is left of a URL behind its scheme. -/
def afterScheme (url : List Char) : List Char :=
  let scheme := url.takeWhile (· ≠ ':')
  if scheme.length < url.length ∧ scheme.head?.any Char.isAlpha ∧ scheme.all schemeChar then
    url.drop (scheme.length + 1)
  else url

/-- `urlsplit(url).netloc` -/
def netlocOf (url : String) : List Char :=
  let url := (url.toList.dropWhile fun c => c.toNat ≤ 0x20).filter fun c =>
    c ≠ '\t' ∧ c ≠ '\r' ∧ c ≠ '\n'
  match afterScheme url with
  | '/' :: '/' :: rest => rest.takeWhile fun c => c ≠ '/' ∧ c ≠ '?' ∧ c ≠ '#'
  | _ => []

/-- What stands before the last `@`. -/
def userinfoOf (netloc : List Char) : List Char :=
  ((netloc.reverse.dropWhile (· ≠ '@')).drop 1).reverse

/-- The URL has a username or a password. -/
def HasCredentials (url : String) : Prop :=
  userinfoOf (netlocOf url) ≠ [] ∧ userinfoOf (netlocOf url) ≠ [':']

instance (url : String) : Decidable (HasCredentials url) := inferInstanceAs (Decidable (_ ∧ _))

example : HasCredentials "https://user:pw@hooks.example.com/in" := by decide

example : ¬ HasCredentials "https://hooks.example.com/in?by=user@example.com" := by decide

/-! ## What is supplied, and what is published -/

/-- A text of the configuration, as a value or as a key. -/
def InConfig (config : Dict String) (u : String) : Prop :=
  (∃ path, (Json.obj config).lookup path = some (.str u)) ∨
    ∃ path i, ((Json.obj config).lookup (path ++ [.member i u])).isSome = true

/-- A text the caller supplied in `base_url` or anywhere under `config`. -/
def Supplied (payload : ConnectorCreate) (u : String) : Prop :=
  payload.baseUrl = some u ∨ InConfig payload.config u

/-- A text a document carries in its `base_url` or anywhere under its `config`. -/
def Carries (document : Json String) (u : String) : Prop :=
  ∃ members, document = .obj members ∧
    (Dict.get? members "base_url" = some (.str u) ∨
      ∃ config, Dict.get? members "config" = some (.obj config) ∧ InConfig config u)

/-- The document carries no URL with credentials that the caller supplied. -/
def Unpublished (payload : ConnectorCreate) (document : Json String) : Prop :=
  ∀ u, Supplied payload u → HasCredentials u → ¬ Carries document u

/-- A text of a configuration that redaction leaves. -/
def PublishedIn (config : Dict String) (u : String) : Prop :=
  (∃ path, PublishedAt (.obj config) [] path u) ∨
    ∃ path i, ((Json.obj config).lookup (path ++ [.member i u])).isSome = true ∧
      Visible [] (path ++ [.member i u])

/-- No URL with credentials stands where it would be published. -/
def Clean (payload : ConnectorCreate) : Prop :=
  ∀ u, HasCredentials u → payload.baseUrl ≠ some u ∧ ¬ PublishedIn payload.config u

section Documents

variable {payload : ConnectorCreate} {config : Dict String} {u : String}

theorem HasCredentials.ne_mark (h : HasCredentials u) : u ≠ "[redacted]" := by
  rintro rfl
  exact absurd h (by decide)

theorem HasCredentials.ne_key (h : HasCredentials u) : u ≠ "base_url" := by
  rintro rfl
  exact absurd h (by decide)

theorem carries_modelDump {c : Connector} :
    Carries c.modelDump u ↔ c.baseUrl = some u ∨ InConfig c.config u := by
  unfold Carries Connector.modelDump
  constructor
  · rintro ⟨members, hmembers, h⟩
    cases hmembers
    rcases h with hbase | ⟨config, hconfig, h⟩
    · left
      cases hc : c.baseUrl with
      | none =>
        simp [Dict.get?, hc, Json.ofOption] at hbase
      | some url =>
        simp [Dict.get?, hc, Json.ofOption, jsonStr] at hbase
        rw [hbase]
    · right
      simp [Dict.get?] at hconfig
      rw [hconfig]
      exact h
  · intro h
    refine ⟨_, rfl, ?_⟩
    rcases h with hbase | h
    · left
      simp [Dict.get?, hbase, Json.ofOption, jsonStr]
    · right
      exact ⟨c.config, by simp [Dict.get?], h⟩

/-- Redaction publishes what it leaves. -/
theorem inConfig_redactConfig (hu : u ≠ "[redacted]") :
    InConfig (redactConfig config) u ↔ PublishedIn config u := by
  unfold InConfig PublishedIn
  refine or_congr (exists_congr fun path => lookup_redactConfig hu) ?_
  exact exists_congr fun path => exists_congr fun i => place_redactConfig

theorem PublishedIn.inConfig (h : PublishedIn config u) : InConfig config u := by
  rcases h with ⟨path, h, -⟩ | ⟨path, i, h, -⟩
  · exact Or.inl ⟨path, h⟩
  · exact Or.inr ⟨path, i, h⟩

/-- A further member changes nothing about the others. -/
theorem lookup_append {m : String × Json String} {step : Json.Step String}
    {path : List (Json.Step String)} {v : Json String}
    (h : (Json.obj config).lookup (step :: path) = some v) :
    (Json.obj (config ++ [m])).lookup (step :: path) = some v := by
  cases step with
  | item i => cases h
  | member i key =>
    have hlt : i < config.length := by
      by_contra hge
      have hnone : config[i]? = none := List.getElem?_eq_none (by omega)
      simp [Json.lookup, Json.child, hnone] at h
    rw [Json.lookup, Json.child, List.getElem?_append_left hlt]
    exact h

/-- What is found with a further member is found without it, or below that member. -/
theorem lookup_of_append {k : String} {w v : Json String} {step : Json.Step String}
    {path : List (Json.Step String)}
    (h : (Json.obj (config ++ [(k, w)])).lookup (step :: path) = some v) :
    (Json.obj config).lookup (step :: path) = some v ∨
      ∃ i, step = .member i k ∧ w.lookup path = some v := by
  cases step with
  | item i => cases h
  | member i key =>
    rw [Json.lookup, Json.child] at h
    by_cases hlt : i < config.length
    · left
      rw [List.getElem?_append_left hlt] at h
      exact h
    · right
      rw [List.getElem?_append_right (by omega)] at h
      have hi : i - config.length = 0 := by
        by_contra hne
        have hnone : ([(k, w)] : Dict String)[i - config.length]? = none :=
          List.getElem?_eq_none (by simp; omega)
        simp [hnone] at h
      rw [hi] at h
      simp only [List.getElem?_cons_zero, Option.bind_some] at h
      by_cases hkey : k = key
      · subst hkey
        rw [if_pos rfl, Option.bind_some] at h
        exact ⟨i, rfl, h⟩
      · rw [if_neg hkey] at h
        cases h

/-- Below a further text there is no key. -/
theorem place_of_append {k t : String} {path : List (Json.Step String)} {i : Nat}
    (h : ((Json.obj (config ++ [(k, .str t)])).lookup (path ++ [.member i u])).isSome = true) :
    ((Json.obj config).lookup (path ++ [.member i u])).isSome = true ∨ u = k := by
  obtain ⟨v, hv⟩ := Option.isSome_iff_exists.mp h
  cases path with
  | nil =>
    rw [List.nil_append] at hv ⊢
    rcases lookup_of_append hv with hfound | ⟨j, hstep, -⟩
    · left
      rw [hfound]
      rfl
    · cases hstep
      exact Or.inr rfl
  | cons step path =>
    rw [List.cons_append] at hv ⊢
    rcases lookup_of_append hv with hfound | ⟨j, -, hbelow⟩
    · left
      rw [hfound]
      rfl
    · have hnone : (Json.str t).lookup (path ++ [.member i u]) = none := by
        cases path with
        | nil => rfl
        | cons step path => cases step <;> rfl
      rw [hnone] at hbelow
      cases hbelow

theorem effectiveConfig_cases (payload : ConnectorCreate) :
    effectiveConfig payload = payload.config ∨ ∃ url, payload.baseUrl = some url ∧
      effectiveConfig payload = payload.config ++ [("base_url", .str url)] := by
  unfold effectiveConfig
  cases payload.baseUrl with
  | none => exact Or.inl rfl
  | some url =>
    dsimp only
    split
    · exact Or.inr ⟨url, rfl, rfl⟩
    · exact Or.inl rfl

/-- What the given configuration publishes, the stored one does. -/
theorem PublishedIn.effective (h : PublishedIn payload.config u) :
    PublishedIn (effectiveConfig payload) u := by
  rcases effectiveConfig_cases payload with heq | ⟨url, -, heq⟩
  · rw [heq]
    exact h
  · rw [heq]
    rcases h with ⟨path, hlookup, hvisible⟩ | ⟨path, i, hplace, hvisible⟩
    · cases path with
      | nil => cases hlookup
      | cons step path => exact Or.inl ⟨step :: path, lookup_append hlookup, hvisible⟩
    · refine Or.inr ⟨path, i, ?_, hvisible⟩
      obtain ⟨v, hv⟩ := Option.isSome_iff_exists.mp hplace
      cases path with
      | nil =>
        rw [List.nil_append] at hv ⊢
        rw [lookup_append hv]
        rfl
      | cons step path =>
        rw [List.cons_append] at hv ⊢
        rw [lookup_append hv]
        rfl

/-- The stored configuration publishes `base_url` besides. -/
theorem PublishedIn.of_effective (h : PublishedIn (effectiveConfig payload) u) :
    PublishedIn payload.config u ∨ payload.baseUrl = some u ∨ u = "base_url" := by
  rcases effectiveConfig_cases payload with heq | ⟨url, hurl, heq⟩
  · rw [heq] at h
    exact Or.inl h
  · rw [heq] at h
    rcases h with ⟨path, hlookup, hvisible⟩ | ⟨path, i, hplace, hvisible⟩
    · cases path with
      | nil => cases hlookup
      | cons step path =>
        rcases lookup_of_append hlookup with hfound | ⟨i, rfl, hbelow⟩
        · exact Or.inl (Or.inl ⟨_, hfound, hvisible⟩)
        · have hu := Json.lookup_str hbelow
          cases hu
          exact Or.inr (Or.inl hurl)
    · rcases place_of_append hplace with hfound | hkey
      · exact Or.inl (Or.inr ⟨path, i, hfound, hvisible⟩)
      · exact Or.inr (Or.inr hkey)

/-- **The document of a connector**: it carries no supplied URL with credentials exactly if the
    payload is clean. -/
theorem unpublished_iff_clean {c : Connector} (hbase : c.baseUrl = payload.baseUrl)
    (hconfig : c.config = redactConfig (effectiveConfig payload)) :
    Unpublished payload c.modelDump ↔ Clean payload := by
  constructor
  · intro h u hu
    constructor
    · intro hurl
      exact h u (Or.inl hurl) hu (carries_modelDump.mpr (Or.inl (hbase.trans hurl)))
    · intro hpublished
      refine h u (Or.inr hpublished.inConfig) hu (carries_modelDump.mpr (Or.inr ?_))
      rw [hconfig, inConfig_redactConfig hu.ne_mark]
      exact hpublished.effective
  · intro hclean u _ hu hcarries
    obtain ⟨hurl, hnot⟩ := hclean u hu
    rcases carries_modelDump.mp hcarries with hcarried | hcarried
    · rw [hbase] at hcarried
      exact hurl hcarried
    · rw [hconfig, inConfig_redactConfig hu.ne_mark] at hcarried
      rcases hcarried.of_effective with hpublished | hsame | hkey
      · exact hnot hpublished
      · exact hurl hsame
      · exact hu.ne_key hkey

end Documents

/-! ## Runs -/

/-- Nothing of the creation publishes a supplied URL with credentials: the document it is answered
    with, its event, and every document read from then on. -/
structure NothingPublished (payload : ConnectorCreate) (doc : Connector) (event : OutboxEvent)
    (sys : System RegistryOp Session World Exc Response) : Prop where
  document : Unpublished payload doc.modelDump
  event : Unpublished payload event.payload
  reads : ∀ sys', registryMachine.Reaches Machine.Any sys sys' →
    ∀ r, sys'.world.db.connector doc.id = some r → Unpublished payload (toSchema r).modelDump

/-- **URL credentials stay unpublished exactly if the payload is clean**: in every run of any
    requests, once a creation has been answered, its event is in the outbox, its connector can be
    read in every later state, and none of these carries a supplied URL with credentials. -/
theorem url_credentials_unpublished {reqs : Nat → Incoming} {env : Env} {caller : CallerIdentity}
    {payload : ConnectorCreate} {i : Nat} {doc : Connector}
    {sys : System RegistryOp Session World Exc Response}
    (h : registryMachine.Reaches Machine.Any (registry Db.empty reqs) sys)
    (hreq : reqs i = ⟨env, .createConnector caller payload⟩)
    (hret : (sys.threads i).prog = .ret ⟨201, .connector doc⟩) :
    let event := creationEvent env (newConnector env caller payload)
    event ∈ sys.world.db.outbox ∧ event.payload = doc.modelDump ∧
      (∀ sys', registryMachine.Reaches Machine.Any sys sys' →
        ∃ r, sys'.world.db.connector doc.id = some r) ∧
      (NothingPublished payload doc event sys ↔ Clean payload) := by
  intro event
  obtain ⟨hbody, hstored⟩ := creation_answered h hreq hret
  cases hbody
  have hdocument : Unpublished payload (toSchema (newConnector env caller payload)).modelDump ↔
      Clean payload := unpublished_iff_clean rfl rfl
  refine ⟨hstored.event, rfl, ?_, ?_⟩
  · intro sys' hrun
    obtain ⟨r, hr, -⟩ := (hstored.reaches hrun).row
    exact ⟨r, hr⟩
  · constructor
    · intro hnothing
      exact hdocument.mp hnothing.document
    · intro hclean
      refine ⟨hdocument.mpr hclean, hdocument.mpr hclean, ?_⟩
      intro sys' hrun r hr
      obtain ⟨r', hr', hbase, hconfig⟩ := (hstored.reaches hrun).row
      have hsame : r' = r := Option.some.inj (hr'.symm.trans hr)
      subst hsame
      refine (unpublished_iff_clean hbase ?_).mpr hclean
      show redactConfig r'.config = _
      rw [hconfig]
      rfl

/-! ## Two payloads -/

/-- A URL with the name and the password of its user. -/
def userUrl : String := "https://user:pw@hooks.example.com"

/-- The URL stands under a key that redaction does not know. -/
def callbackPayload : ConnectorCreate where
  name := "hooks"
  kind := .webhook
  config := [("callback", .str userUrl)]
  name_length := by decide +kernel
  only_creatable_states := enabled_creatable
  no_literal_secrets := by decide
  no_privilege_escalation := by decide

/-- The URL is the target of a webhook. -/
def targetPayload : ConnectorCreate where
  name := "hooks"
  kind := .webhook
  config := [("target_url", .str userUrl), ("allowed_hosts", .arr [.str "hooks.example.com"]),
    ("signing_secret_ref", .str "secret://tenant/acme/signing")]
  name_length := by decide +kernel
  only_creatable_states := enabled_creatable
  no_literal_secrets := by decide
  no_privilege_escalation := by decide

/-- The creation, served alone. -/
def creationRun (env : Env) (payload : ConnectorCreate) :
    System RegistryOp Session World Exc Response :=
  registryMachine.schedule (List.replicate 7 0)
    (registry Db.empty fun _ => ⟨env, .createConnector sampleCaller payload⟩)

/-- What is read from a configuration of one text. -/
theorem inConfig_single {k s u : String} (h : InConfig [(k, .str s)] u) : u = s ∨ u = k := by
  have hempty : [(k, Json.str s)] = ([] : Dict String) ++ [(k, .str s)] := rfl
  rw [hempty] at h
  rcases h with ⟨path, h⟩ | ⟨path, i, h⟩
  · cases path with
    | nil => cases h
    | cons step path =>
      rcases lookup_of_append h with hnone | ⟨i, rfl, hbelow⟩
      · cases step <;> cases hnone
      · exact Or.inl (Json.str.inj (Json.lookup_str hbelow))
  · rcases place_of_append h with hnone | hkey
    · cases path with
      | nil => cases hnone
      | cons step path => cases step <;> cases hnone
    · exact Or.inr hkey

theorem callbackPayload_clean : Clean callbackPayload := by
  intro u hu
  refine ⟨nofun, ?_⟩
  intro hpublished
  rw [← inConfig_redactConfig hu.ne_mark] at hpublished
  have hredacted : redactConfig callbackPayload.config = [("callback", .str "[redacted]")] := by
    decide
  rw [hredacted] at hpublished
  rcases inConfig_single hpublished with rfl | rfl
  · exact hu.ne_mark rfl
  · exact absurd hu (by decide)

/-- A URL under an unknown key is not published. -/
theorem url_credentials_unpublished_callback :
    NothingPublished callbackPayload
      (toSchema (newConnector (sampleEnv 0) sampleCaller callbackPayload))
      (creationEvent (sampleEnv 0) (newConnector (sampleEnv 0) sampleCaller callbackPayload))
      (creationRun (sampleEnv 0) callbackPayload) := by
  have hreturned : ((creationRun (sampleEnv 0) callbackPayload).threads 0).prog.returned =
      some ⟨201, .connector (toSchema (newConnector (sampleEnv 0) sampleCaller callbackPayload))⟩ := by
    decide +kernel
  exact (url_credentials_unpublished (Machine.reaches_schedule _ _) rfl
    (Prog.eq_ret_of_returned hreturned)).2.2.2.mpr callbackPayload_clean

/-- The environment with the webhook adapter's validator. -/
def webhookEnv : Env :=
  { sampleEnv 0 with
    validateConfig := fun _ config =>
      match webhookValidateConfig (Json.toPyMembers config) with
      | .ok verdict => verdict.toResult
      | .error _ => { valid := false } }

/-- A webhook with a name and a password in its URL is accepted, and the URL is published. -/
theorem target_url_published :
    ((creationRun webhookEnv targetPayload).threads 0).prog =
        .ret ⟨201, .connector (toSchema (newConnector webhookEnv sampleCaller targetPayload))⟩ ∧
      HasCredentials userUrl ∧ Supplied targetPayload userUrl ∧
      ¬ Unpublished targetPayload
        (toSchema (newConnector webhookEnv sampleCaller targetPayload)).modelDump := by
  have hreturned : ((creationRun webhookEnv targetPayload).threads 0).prog.returned =
      some ⟨201, .connector (toSchema (newConnector webhookEnv sampleCaller targetPayload))⟩ := by
    decide +kernel
  have hcredentials : HasCredentials userUrl := by decide
  have hsupplied : Supplied targetPayload userUrl := Or.inr (Or.inl ⟨[.member 0 "target_url"], rfl⟩)
  refine ⟨Prog.eq_ret_of_returned hreturned, hcredentials, hsupplied, ?_⟩
  intro hunpublished
  refine hunpublished userUrl hsupplied hcredentials ?_
  exact carries_modelDump.mpr (Or.inr (Or.inl ⟨[.member 0 "target_url"], rfl⟩))

end FavlGateway.Registry
