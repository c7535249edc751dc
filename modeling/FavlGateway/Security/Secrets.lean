/-
  Secret references and the names they are stored under (`app/security/secrets.py`).

  A connector names a LOGICAL secret, `secret://<scope>/<owner>/<key>`; ownership is checked on the
  parsed reference, and the value is fetched by a name derived from it.  The derivation upper-cases
  every letter and digit and writes `_` for everything else, the two separators included.  So two
  references share a storage name exactly when their texts are the same up to case and punctuation
  (`envName_eq_iff`), whoever they belong to.
-/
import Mathlib.Data.List.Forall2
import Mathlib.Logic.Function.Basic

namespace FavlGateway.Security

/-! ## References -/

/-- What a reference can belong to. -/
inductive SecretScope where
  | connector
  | tenant
  deriving DecidableEq, Repr

def SecretScope.value : SecretScope → String
  | connector => "connector"
  | tenant => "tenant"

/-- `[A-Za-z0-9._-]` -/
def refChar (c : Char) : Bool := c.isAlphanum || c = '.' || c = '_' || c = '-'

/-- `[A-Za-z0-9._-]{1,128}` -/
def refField (s : List Char) : Bool := 1 ≤ s.length && s.length ≤ 128 && s.all refChar

/-- A parsed reference; the grammar is part of the type. -/
structure SecretRef where
  scope : SecretScope
  owner : List Char
  key : List Char
  owner_valid : refField owner = true
  key_valid : refField key = true
  deriving DecidableEq

/-- `SCHEME` -/
def scheme : List Char := "secret://".toList

/-- `<scope>/<owner>/<key>` -/
def SecretRef.path (ref : SecretRef) : List Char :=
  ref.scope.value.toList ++ ['/'] ++ ref.owner ++ ['/'] ++ ref.key

/-- `as_text` -/
def SecretRef.asText (ref : SecretRef) : List Char := scheme ++ ref.path

/-- `re.sub(r"[^A-Za-z0-9]", "_", …)` and `upper()`, on one character. -/
def envChar (c : Char) : Char := if c.isAlphanum then c.toUpper else '_'

/-- `env_name`: the storage name for the environment-backed resolver. -/
def SecretRef.envName (ref : SecretRef) : List Char :=
  "FAVL_SECRET_".toList ++
    (ref.scope.value.toList ++ ['_'] ++ ref.owner ++ ['_'] ++ ref.key).map envChar

/-- What the resolver raises. -/
inductive SecretError where
  | notPermitted (reference why : String)
  | notFound (reference : String)
  deriving DecidableEq

/-- `LEGACY_PREFIXES` -/
def legacyPrefixes : List String := ["env:", "vault:", "gsm:", "asm:"]

def SecretScope.ofValue? (v : List Char) : Option SecretScope :=
  if v = "connector".toList then some .connector
  else if v = "tenant".toList then some .tenant
  else none

/-- `$` also matches in front of a final newline. -/
def dropNewline (s : List Char) : List Char := if s.getLast? = some '\n' then s.dropLast else s

/-- `REFERENCE.match(value)`: no field of the grammar can hold a `/`. -/
def matchReference (value : List Char) : Option SecretRef :=
  if scheme.isPrefixOf value then
    match (value.drop scheme.length).splitOn '/' with
    | [scope, owner, key] =>
      match SecretScope.ofValue? scope with
      | some scope =>
        if h : refField owner = true ∧ refField (dropNewline key) = true then
          some ⟨scope, owner, dropNewline key, h.1, h.2⟩
        else none
      | none => none
    | _ => none
  else none

/-- `parse_reference` -/
def parseReference (value : String) : Except SecretError SecretRef :=
  if legacyPrefixes.any fun p => p.toList.isPrefixOf value.toList then
    .error (.notPermitted value ("direct storage references are no longer accepted; use " ++
      "secret://connector/<name>/<key>"))
  else match matchReference value.toList with
    | none => .error (.notPermitted value "malformed reference; expected secret://…")
    | some ref => .ok ref

/-- `check_addressable`: a connector may read its own secrets and its tenant's. -/
def checkAddressable (value owner tenant : String) : Except SecretError SecretRef :=
  match parseReference value with
  | .error e => .error e
  | .ok ref =>
    if ref.scope = .connector ∧ ref.owner ≠ owner.toList then
      .error (.notPermitted value ("connector '" ++ owner ++ "' may not read connector '" ++
        String.ofList ref.owner ++ "' secrets"))
    else if ref.scope = .tenant ∧ ref.owner ≠ tenant.toList then
      .error (.notPermitted value ("tenant '" ++ tenant ++ "' may not read tenant '" ++
        String.ofList ref.owner ++ "' secrets"))
    else .ok ref

/-- `EnvSecretResolver.resolve`, in the environment `environ`. -/
def resolve (environ : List Char → Option String) (reference owner tenant : String) :
    Except SecretError String :=
  match checkAddressable reference owner tenant with
  | .error e => .error e
  | .ok ref =>
    match environ ref.envName with
    | some value => .ok value
    | none => .error (.notFound reference)

/-- What is addressable belongs to the caller. -/
theorem checkAddressable_owner {value owner tenant : String} {ref : SecretRef}
    (h : checkAddressable value owner tenant = .ok ref) :
    ref.owner = match ref.scope with
      | .connector => owner.toList
      | .tenant => tenant.toList := by
  unfold checkAddressable at h
  cases hparse : parseReference value with
  | error e =>
    rw [hparse] at h
    cases h
  | ok parsed =>
    rw [hparse] at h
    dsimp only at h
    split at h
    · cases h
    · rename_i hconnector
      split at h
      · cases h
      · rename_i htenant
        cases h
        cases hscope : ref.scope with
        | connector => simpa [hscope] using hconnector
        | tenant => simpa [hscope] using htenant

/-! ## What the pattern matches -/

theorem SecretScope.ofValue?_iff {text : List Char} {scope : SecretScope} :
    SecretScope.ofValue? text = some scope ↔ text = scope.value.toList := by
  unfold SecretScope.ofValue?
  constructor
  · intro h
    split at h
    · cases h
      assumption
    · split at h
      · cases h
        assumption
      · cases h
  · rintro rfl
    cases scope <;> decide

/-- A field holds characters of its class only. -/
theorem notMem_of_refField {c : Char} {field : List Char} (hc : refChar c = false)
    (h : refField field = true) : c ∉ field := by
  intro hmem
  simp only [refField, Bool.and_eq_true, List.all_eq_true] at h
  have hchar := h.2 c hmem
  rw [hc] at hchar
  cases hchar

/-- A final newline is what is dropped, if anything is. -/
theorem dropNewline_eq_iff {s t : List Char} (ht : '\n' ∉ t) :
    dropNewline s = t ↔ s = t ∨ s = t ++ ['\n'] := by
  unfold dropNewline
  constructor
  · intro h
    split at h
    · rename_i hlast
      right
      rw [← h]
      exact (List.dropLast_append_getLast? _ hlast).symm
    · exact Or.inl h
  · rintro (rfl | rfl)
    · have hlast : s.getLast? ≠ some '\n' := fun hlast => ht (List.mem_of_getLast? hlast)
      exact if_neg hlast
    · rw [if_pos List.getLast?_concat, List.dropLast_concat]

/-- A text that starts with the scheme and splits into three is put together from them. -/
theorem eq_of_splitOn {text scope owner key : List Char} (hscheme : scheme.isPrefixOf text = true)
    (hsplit : (text.drop scheme.length).splitOn '/' = [scope, owner, key]) :
    text = scheme ++ (scope ++ '/' :: (owner ++ '/' :: key)) := by
  have hback := @List.intercalate_splitOn Char (text.drop scheme.length) _ _ '/'
  have hrest : text.drop scheme.length = scope ++ '/' :: (owner ++ '/' :: key) := by
    rw [← hback, hsplit]
    simp [List.intercalate]
  have htext : scheme ++ text.drop scheme.length = text :=
    List.prefix_iff_eq_append.mp (List.isPrefixOf_iff_prefix.mp hscheme)
  rw [← htext, hrest]

/-- Three texts without a `/` are what their join splits into. -/
theorem splitOn_of_fields {scope owner key : List Char} (hscope : '/' ∉ scope) (howner : '/' ∉ owner)
    (hkey : '/' ∉ key) :
    (scope ++ '/' :: (owner ++ '/' :: key)).splitOn '/' = [scope, owner, key] := by
  have hsplit := @List.splitOn_intercalate Char [scope, owner, key] _ _ '/' (by
    intro field hfield
    rcases List.mem_cons.mp hfield with rfl | hfield
    · exact hscope
    rcases List.mem_cons.mp hfield with rfl | hfield
    · exact howner
    rw [List.mem_singleton.mp hfield]
    exact hkey) (List.cons_ne_nil _ _)
  rw [← hsplit]
  simp [List.intercalate]

/-- **What the pattern matches**: the text of a reference, alone or with a newline behind it. -/
theorem matchReference_iff {text : List Char} {ref : SecretRef} :
    matchReference text = some ref ↔ text = ref.asText ∨ text = ref.asText ++ ['\n'] := by
  have hnewline : '\n' ∉ ref.key := notMem_of_refField (by decide) ref.key_valid
  constructor
  · intro h
    unfold matchReference at h
    split at h
    · rename_i hscheme
      split at h
      · rename_i scope owner key hsplit
        split at h
        · rename_i scope' hscope
          split at h
          · rename_i hfields
            have href := Option.some.inj h
            have hscope' : scope' = ref.scope := congrArg SecretRef.scope href
            have howner : owner = ref.owner := congrArg SecretRef.owner href
            have hkey : dropNewline key = ref.key := congrArg SecretRef.key href
            have htext := eq_of_splitOn hscheme hsplit
            rw [SecretScope.ofValue?_iff.mp hscope, hscope', howner] at htext
            rcases (dropNewline_eq_iff hnewline).mp hkey with rfl | rfl
            · left
              simpa [SecretRef.asText, SecretRef.path] using htext
            · right
              simpa [SecretRef.asText, SecretRef.path] using htext
          · cases h
        · cases h
      · cases h
    · cases h
  · intro h
    obtain ⟨key, hkey, htext⟩ : ∃ key, (key = ref.key ∨ key = ref.key ++ ['\n']) ∧
        text = scheme ++ (ref.scope.value.toList ++ '/' :: (ref.owner ++ '/' :: key)) := by
      rcases h with rfl | rfl
      · exact ⟨_, Or.inl rfl, by simp [SecretRef.asText, SecretRef.path]⟩
      · exact ⟨_, Or.inr rfl, by simp [SecretRef.asText, SecretRef.path]⟩
    have hdrop : dropNewline key = ref.key := (dropNewline_eq_iff hnewline).mpr hkey
    have hslash : '/' ∉ key := by
      have hfield : '/' ∉ ref.key := notMem_of_refField (by decide) ref.key_valid
      rcases hkey with rfl | rfl
      · exact hfield
      · simp [hfield]
    have hscopeSlash : '/' ∉ ref.scope.value.toList := by cases ref.scope <;> decide
    have hownerSlash : '/' ∉ ref.owner := notMem_of_refField (by decide) ref.owner_valid
    have hprefix : scheme.isPrefixOf text = true := by
      rw [htext]
      exact List.isPrefixOf_iff_prefix.mpr (List.prefix_append _ _)
    unfold matchReference
    rw [if_pos hprefix, htext, List.drop_left, splitOn_of_fields hscopeSlash hownerSlash hslash]
    dsimp only
    rw [SecretScope.ofValue?_iff.mpr rfl]
    dsimp only
    rw [dif_pos ⟨ref.owner_valid, by rw [hdrop]; exact ref.key_valid⟩]
    simp only [hdrop]

/-! ## Storage names -/

/-- The same letter or digit, case aside, or both punctuation. -/
def Alike (c d : Char) : Prop :=
  c.isAlphanum = true ∧ d.isAlphanum = true ∧ c.toUpper = d.toUpper ∨
    c.isAlphanum = false ∧ d.isAlphanum = false

instance (c d : Char) : Decidable (Alike c d) := inferInstanceAs (Decidable (_ ∨ _))

/-- Two texts are the same up to case and punctuation. -/
def SameUpToCase (s t : List Char) : Prop := List.Forall₂ Alike s t

/-- Capitals stay letters. -/
theorem toUpper_ne_underscore {c : Char} (h : c.isAlphanum = true) : c.toUpper ≠ '_' := by
  intro hupper
  unfold Char.toUpper at hupper
  split at hupper
  · rename_i hlower
    have hval := congrArg Char.toNat hupper
    have hrange : 97 ≤ c.val.toNat ∧ c.val.toNat ≤ 122 := by
      obtain ⟨hle, hge⟩ := hlower
      constructor
      · simpa [UInt32.le_iff_toNat_le] using hle
      · simpa [UInt32.le_iff_toNat_le] using hge
    -- the distance from the small letters to the capitals is negative: it wraps
    have hshift : ('A'.val - 'a'.val).toNat = 4294967264 := by decide
    change (c.val + ('A'.val - 'a'.val)).toNat = 95 at hval
    rw [UInt32.toNat_add, hshift] at hval
    omega
  · rw [hupper] at h
    cases h

/-- Two characters are stored alike exactly when they are alike. -/
theorem envChar_eq_iff {c d : Char} : envChar c = envChar d ↔ Alike c d := by
  unfold envChar Alike
  cases hc : c.isAlphanum <;> cases hd : d.isAlphanum
  · simp
  · simp [(toUpper_ne_underscore hd).symm]
  · simp [toUpper_ne_underscore hc]
  · simp

/-- Two texts are stored alike exactly when they are the same up to case and punctuation. -/
theorem map_envChar_eq_iff (s t : List Char) :
    s.map envChar = t.map envChar ↔ SameUpToCase s t := by
  have hrel : (fun c d => envChar c = envChar d) = Alike := by
    funext c d
    exact propext envChar_eq_iff
  rw [SameUpToCase, ← hrel, ← List.forall₂_eq_eq_eq, List.forall₂_map_left_iff,
    List.forall₂_map_right_iff]

/-- `<owner>/<key>` -/
def SecretRef.tail (ref : SecretRef) : List Char := ref.owner ++ ['/'] ++ ref.key

/-- Two references of one scope whose owners and keys read the same up to case and punctuation. -/
def Clash (ref₁ ref₂ : SecretRef) : Prop :=
  ref₁.scope = ref₂.scope ∧ SameUpToCase ref₁.tail ref₂.tail

/-- The separator that a storage name has in place of a reference's is stored the same. -/
theorem SecretRef.envName_eq (ref : SecretRef) :
    ref.envName = "FAVL_SECRET_".toList ++
      (ref.scope.value.toList.map envChar ++ ['_'] ++ ref.tail.map envChar) := by
  have hslash : envChar '/' = '_' := by decide
  have hunderscore : envChar '_' = '_' := by decide
  unfold SecretRef.envName SecretRef.tail
  simp only [List.map_append, List.map_cons, List.map_nil, hslash, hunderscore, List.append_assoc]

/-- **Which references share a storage name**: those that clash. -/
theorem envName_eq_iff (ref₁ ref₂ : SecretRef) : ref₁.envName = ref₂.envName ↔ Clash ref₁ ref₂ := by
  rw [ref₁.envName_eq, ref₂.envName_eq, List.append_cancel_left_eq, Clash,
    ← map_envChar_eq_iff]
  constructor
  · intro hname
    -- the first letters of the two scopes differ
    have hscope : ref₁.scope = ref₂.scope := by
      cases h₁ : ref₁.scope <;> cases h₂ : ref₂.scope
      · rfl
      · rw [h₁, h₂] at hname
        exact absurd (congrArg List.head? hname) (by simp [SecretScope.value]; decide)
      · rw [h₁, h₂] at hname
        exact absurd (congrArg List.head? hname) (by simp [SecretScope.value]; decide)
      · rfl
    rw [hscope] at hname
    exact ⟨hscope, List.append_cancel_left hname⟩
  · rintro ⟨hscope, htail⟩
    rw [hscope, htail]

/-! ## Isolation -/

/-- Whose secret a reference names. -/
def SecretRef.holder (ref : SecretRef) : SecretScope × List Char := (ref.scope, ref.owner)

/-- What the first caller resolves is not stored where the second holder's secret is, and does not
    depend on what is stored there. -/
def Isolated (reference₁ owner₁ tenant₁ : String) (ref₁ ref₂ : SecretRef) : Prop :=
  ref₁.holder ≠ ref₂.holder →
    ref₁.envName ≠ ref₂.envName ∧
    ∀ (environ : List Char → Option String) (stored : Option String),
      resolve (Function.update environ ref₂.envName stored) reference₁ owner₁ tenant₁ =
        resolve environ reference₁ owner₁ tenant₁

/-- A resolved reference reads one variable. -/
theorem resolve_update {environ : List Char → Option String} {reference owner tenant : String}
    {ref : SecretRef} {name : List Char} (stored : Option String)
    (h : checkAddressable reference owner tenant = .ok ref) (hname : ref.envName ≠ name) :
    resolve (Function.update environ name stored) reference owner tenant =
      resolve environ reference owner tenant := by
  unfold resolve
  rw [h]
  dsimp only
  rw [Function.update_of_ne hname]

/-- **Secret isolation**: two callers whose references belong to different holders are kept apart
    exactly when the references do not clash. -/
theorem secret_isolation {reference₁ owner₁ tenant₁ reference₂ owner₂ tenant₂ : String}
    {ref₁ ref₂ : SecretRef} (h₁ : checkAddressable reference₁ owner₁ tenant₁ = .ok ref₁)
    (_h₂ : checkAddressable reference₂ owner₂ tenant₂ = .ok ref₂) :
    Isolated reference₁ owner₁ tenant₁ ref₁ ref₂ ↔
      (ref₁.holder = ref₂.holder ∨ ¬ Clash ref₁ ref₂) := by
  constructor
  · intro hisolated
    by_cases hholder : ref₁.holder = ref₂.holder
    · exact Or.inl hholder
    · right
      intro hclash
      have hname : ref₁.envName = ref₂.envName := (envName_eq_iff ref₁ ref₂).mpr hclash
      exact (hisolated hholder).1 hname
  · intro hkept hholder
    have hname : ref₁.envName ≠ ref₂.envName := by
      intro hname
      have hclash : Clash ref₁ ref₂ := (envName_eq_iff ref₁ ref₂).mp hname
      rcases hkept with hsame | hapart
      · exact hholder hsame
      · exact hapart hclash
    refine ⟨hname, ?_⟩
    intro environ stored
    exact resolve_update stored h₁ hname

/-- A reference of `acme`, and one of `ACME`: two tenants. -/
def acmeRef : SecretRef := ⟨.tenant, "acme".toList, "api-key".toList, by decide, by decide⟩

def capitalRef : SecretRef := ⟨.tenant, "ACME".toList, "api-key".toList, by decide, by decide⟩

/-- A connector's own secret. -/
def connectorRef : SecretRef := ⟨.connector, "acme".toList, "api-key".toList, by decide, by decide⟩

/-- A connector's secret and the secret of the tenant of the same name are kept apart. -/
theorem secret_isolation_scopes :
    Isolated "secret://connector/acme/api-key" "acme" "globex" connectorRef acmeRef := by
  have hconnector : checkAddressable "secret://connector/acme/api-key" "acme" "globex" =
      .ok connectorRef := by rfl
  have htenant : checkAddressable "secret://tenant/acme/api-key" "crm" "acme" = .ok acmeRef := by
    rfl
  refine (secret_isolation hconnector htenant).mpr (Or.inr ?_)
  intro hclash
  exact absurd hclash.1 (by decide)

/-- Two tenants whose names differ in case share their secrets: each reads what is stored for the
    other. -/
theorem secret_shared_across_tenants :
    checkAddressable "secret://tenant/acme/api-key" "crm" "acme" = .ok acmeRef ∧
      checkAddressable "secret://tenant/ACME/api-key" "crm" "ACME" = .ok capitalRef ∧
      ¬ Isolated "secret://tenant/ACME/api-key" "crm" "ACME" capitalRef acmeRef := by
  refine ⟨rfl, rfl, ?_⟩
  intro hisolated
  have hholder : capitalRef.holder ≠ acmeRef.holder := by decide
  have hname : capitalRef.envName = acmeRef.envName := by decide
  exact (hisolated hholder).1 hname

end FavlGateway.Security
