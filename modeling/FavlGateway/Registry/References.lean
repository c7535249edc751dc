/-
  The secret references of an accepted configuration.

  `validate_config` tells an error of form from an error of ownership by looking for "may not read"
  in the exception's text, and that text begins with the reference itself.  A reference with those
  words in it is therefore taken for one that is merely not its reader's, whatever its form:
  **`references_parse_iff`**.
-/
import FavlGateway.Registry.Validators

namespace FavlGateway.Registry

open FavlGateway.Library
open FavlGateway.Security (configItem)

/-! ## References -/

/-- `parse_reference` accepts the text. -/
def parses (value : PyStr) : Bool :=
  !Security.legacyPrefixes.any (startsWith value) &&
    (value.toString?.bind fun s => Security.matchReference s.toList).isSome

/-- The texts of a configuration that its validator recognises as references. -/
def references : ConnectorKind → Dict PyStr → List PyStr
  | .http, config =>
    match configHeaders config with
    | .ok headers => headers.filterMap fun h => isSecretReference h.2
    | .error _ => []
  | .webhook, config => ((configItem config "signing_secret_ref").bind isSecretReference).toList
  | .internal, _ | .mcp, _ => []

theorem startsWith_ofString (s t : String) :
    startsWith (PyStr.ofString s) t = t.toList.isPrefixOf s.toList := by
  unfold startsWith PyStr.ofString
  have hinj : Function.Injective Char.toNat := fun c d h => Char.toNat_inj.mp h
  rw [Bool.eq_iff_iff, List.isPrefixOf_iff_prefix, List.isPrefixOf_iff_prefix,
    List.prefix_map_iff_of_injective hinj]

/-- `parses` is `parse_reference`, on text that is Unicode. -/
theorem parses_ofString (s : String) :
    parses (PyStr.ofString s) = true ↔ ∃ ref, Security.parseReference s = .ok ref := by
  have hlegacy : Security.legacyPrefixes.any (startsWith (PyStr.ofString s)) =
      Security.legacyPrefixes.any fun p => p.toList.isPrefixOf s.toList := by
    congr 1
    funext p
    exact startsWith_ofString s p
  unfold parses Security.parseReference
  rw [hlegacy, PyStr.toString?_ofString, Option.bind_some]
  split
  · rename_i hany
    simp [hany]
  · rename_i hany
    cases Security.matchReference s.toList <;> simp [hany]

/-! ## The words that are looked for -/

/-- Why a reference of the wrong form is not addressable. -/
def formErrors : List PyStr :=
  ["direct storage references are no longer accepted; use " ++ "secret://connector/<name>/<key>",
    "malformed reference; expected secret://…"]

/-- The codes of a text. -/
def codes (s : String) : List Nat := (PyStr.ofString s).codepoints

theorem containsText_iff {s : PyStr} {t : String} :
    containsText s t = true ↔ codes t <:+: s.codepoints := decide_eq_true_iff

/-- The words neither occur in what stands before the reference nor begin there. -/
theorem words_before : ¬ codes "may not read" <:+: codes "secret reference " ∧
    ∀ q ∈ (codes "may not read").inits, q ≠ [] → ¬ q <:+ codes "secret reference " := by
  decide +kernel

/-- They neither occur in what stands behind the reference nor end there. -/
theorem words_behind : ∀ why ∈ formErrors,
    ¬ codes "may not read" <:+: codes " is not permitted: " ++ why.codepoints ∧
    ∀ r ∈ (codes "may not read").tails, r ≠ [] →
      ¬ r <+: codes " is not permitted: " ++ why.codepoints := by
  decide +kernel

theorem codepoints_message (value why : PyStr) :
    ("secret reference " ++ value ++ " is not permitted: " ++ why : PyStr).codepoints =
      codes "secret reference " ++
        (value.codepoints ++ (codes " is not permitted: " ++ why.codepoints)) := by
  show ((codes "secret reference " ++ value.codepoints) ++ codes " is not permitted: ") ++
    why.codepoints = _
  rw [List.append_assoc, List.append_assoc]

/-- The words occur in the exception's text only if they occur in the reference. -/
theorem words_in_reference {reference why : PyStr} (hwhy : why ∈ formErrors)
    (h : containsText ("secret reference " ++ reference ++ " is not permitted: " ++ why)
      "may not read" = true) : containsText reference "may not read" = true := by
  rw [containsText_iff, codepoints_message] at h
  rw [containsText_iff]
  obtain ⟨hbehind, hend⟩ := words_behind why hwhy
  exact infix_between words_before.1 hbehind words_before.2 hend h

/-- What `check_addressable` says of a reference of the wrong form. -/
theorem notAddressable_of_form {value : PyStr} (owner : PyStr) (hform : parses value = false) :
    ∃ why ∈ formErrors, notAddressable value owner "" = some why := by
  unfold notAddressable
  by_cases hlegacy : Security.legacyPrefixes.any (startsWith value) = true
  · rw [if_pos hlegacy]
    exact ⟨_, List.mem_cons_self, rfl⟩
  · rw [if_neg hlegacy]
    have hnone : (value.toString?.bind fun s => Security.matchReference s.toList) = none := by
      simpa [parses, hlegacy] using hform
    rw [hnone]
    exact ⟨_, List.mem_cons_of_mem _ List.mem_cons_self, rfl⟩

/-- A reference of the wrong form is let through only with the words in it. -/
theorem words_of_accepted {value owner : PyStr} (hform : parses value = false)
    (h : referenceError value owner = none) : containsText value "may not read" = true := by
  obtain ⟨why, hwhy, hnot⟩ := notAddressable_of_form owner hform
  unfold referenceError at h
  rw [hnot] at h
  dsimp only at h
  split at h
  · rename_i hcontains
    exact words_in_reference hwhy hcontains
  · cases h

/-! ## The form of a reference -/

/-- No reference that parses has a space in it. -/
theorem space_notMem_reference {text : List Char} {ref : Security.SecretRef}
    (h : Security.matchReference text = some ref) : ' ' ∉ text := by
  have hscheme : ' ' ∉ Security.scheme := by decide
  have hscope : ' ' ∉ ref.scope.value.toList := by cases ref.scope <;> decide
  have howner : ' ' ∉ ref.owner := Security.notMem_of_refField (by decide) ref.owner_valid
  have hkey : ' ' ∉ ref.key := Security.notMem_of_refField (by decide) ref.key_valid
  have htext : ' ' ∉ ref.asText := by
    simp [Security.SecretRef.asText, Security.SecretRef.path, hscheme, hscope, howner, hkey]
  rcases Security.matchReference_iff.mp h with rfl | rfl
  · exact htext
  · simp [htext]

theorem words_notMem_of_parses {value : PyStr} (h : parses value = true) :
    containsText value "may not read" = false := by
  rw [Bool.eq_false_iff]
  intro hwords
  have hspace : 0x20 ∈ value.codepoints :=
    (containsText_iff.mp hwords).subset (by decide +kernel)
  unfold parses at h
  rw [Bool.and_eq_true] at h
  obtain ⟨ref, href⟩ := Option.isSome_iff_exists.mp h.2
  obtain ⟨text, htext, hmatch⟩ := Option.bind_eq_some_iff.mp href
  unfold PyStr.toString? at htext
  split at htext
  · cases htext
  · cases htext
    apply space_notMem_reference hmatch
    rw [String.toList_ofList]
    exact List.mem_map.mpr ⟨0x20, hspace, rfl⟩

/-! ## Accepted configurations -/

section Accepted

variable {G : Gateway} {config : Dict PyStr} {kind : ConnectorKind}

/-- Every reference of an accepted configuration has passed the check of its form. -/
theorem references_checked (h : Accepts G kind config) :
    ∀ r ∈ references kind config, ∃ owner, referenceError r owner = none := by
  intro r hr
  cases kind with
  | http =>
    have haccepts : HttpAccepts G config := h
    cases hheaders : configHeaders config with
    | error e =>
      simp only [references, hheaders] at hr
      cases hr
    | ok headers =>
      simp only [references, hheaders] at hr
      obtain ⟨entry, hentry, hreference⟩ := List.mem_filterMap.mp hr
      have hfine := haccepts.headers headers hheaders entry hentry
      unfold headerError at hfine
      rw [hreference] at hfine
      exact ⟨_, Option.map_eq_none_iff.mp hfine⟩
  | webhook =>
    have haccepts : WebhookAccepts config := h
    obtain ⟨value, reference, hitem, -, hreference, hfine⟩ := haccepts.signing_secret_ref
    have hr' : r = reference := by simpa [references, hitem, hreference] using hr
    rw [hr']
    exact ⟨_, hfine⟩
  | internal | mcp => cases hr

/-- **When the references of a valid configuration all parse**: when none of them contains the words
    by which errors of ownership are recognised. -/
theorem references_parse_iff {validate : Dict PyStr → Except Security.Exc Verdict}
    {verdict : Verdict} (h : validatorOf G kind = some validate)
    (hverdict : validate config = .ok verdict) (hvalid : verdict.valid = true) :
    (∀ r ∈ references kind config, parses r = true) ↔
      ∀ r ∈ references kind config, containsText r "may not read" = false := by
  have hchecked := references_checked ((validator_valid_iff h hverdict).mp hvalid)
  constructor
  · intro hparse r hr
    exact words_notMem_of_parses (hparse r hr)
  · intro hwords r hr
    by_contra hform
    obtain ⟨owner, hfine⟩ := hchecked r hr
    have hin := words_of_accepted (Bool.eq_false_iff.mpr hform) hfine
    rw [hwords r hr] at hin
    cases hin

end Accepted

/-- A webhook that signs with this reference. -/
def signedBy (reference : PyStr) : Dict PyStr :=
  [("target_url", .str "https://hooks.example.com"),
    ("allowed_hosts", .arr [.str "hooks.example.com"]),
    ("signing_secret_ref", .str reference)]

theorem references_parse_iff_webhook :
    webhookValidateConfig (signedBy "secret://tenant/acme/signing") =
        .ok ⟨[], .gatewayDedupOnly⟩ ∧
      ∀ r ∈ references .webhook (signedBy "secret://tenant/acme/signing"), parses r = true := by
  have hverdict : webhookValidateConfig (signedBy "secret://tenant/acme/signing") =
      .ok ⟨[], .gatewayDedupOnly⟩ := by decide +kernel
  refine ⟨hverdict, (@references_parse_iff exampleGateway _ .webhook _ _ rfl hverdict rfl).mpr ?_⟩
  decide +kernel

/-- A legacy reference is accepted, with the words in it. -/
theorem legacy_reference_accepted :
    webhookValidateConfig (signedBy "env:may not read") = .ok ⟨[], .gatewayDedupOnly⟩ ∧
      (Verdict.mk [] .gatewayDedupOnly).valid = true ∧
      ("env:may not read" : PyStr) ∈ references .webhook (signedBy "env:may not read") ∧
      parses "env:may not read" = false := by
  decide +kernel

end FavlGateway.Registry
