/-
  Caller identity from the verified claims (`app/identity.py`, the same file in both services).

  The gateway injects the claims as base64, and some deployments forward the JSON text as it is.  The
  service tells the two apart by whether `b64decode` raises; but that decoder skips what is not in
  its alphabet, and a JSON text with the right number of letters and digits in it passes for base64.
  Such a caller is not authenticated: **`userinfo_encodings_agree_iff`**.
-/
import FavlGateway.Library.Base64
import FavlGateway.Library.JsonBytes

namespace FavlGateway.Identity

open FavlGateway.Library

structure CallerIdentity where
  actorId : PyStr
  tenantId : PyStr
  verified : Bool
  deriving DecidableEq

/-! ## The source -/

/-- `claims.get(name)` -/
def claim (claims : Dict PyStr) (name : PyStr) : Json PyStr :=
  ((claims.find? fun m => m.1 = name).map Prod.snd).getD .null

/-- Python's truth of a value. -/
def isTruthy (v : Json PyStr) : Bool := v.truthy PyStr.isEmpty

/-- `claims.get("sub") or claims.get("preferred_username")` -/
def subjectOf (claims : Dict PyStr) : Json PyStr :=
  if isTruthy (claim claims "sub") then claim claims "sub" else claim claims "preferred_username"

section Source

/- `other` is what `json.loads` makes of bytes that are no UTF-8 text, `repr` is Python's, and
   `tenantClaim` is `TENANT_CLAIM`. -/
variable (other : Bytes → Option (Json PyStr)) (repr : Json PyStr → PyStr) (tenantClaim : PyStr)

/-- `str(v)` -/
def str : Json PyStr → PyStr
  | .str s => s
  | v => repr v

/-- `_decode_userinfo` -/
def decodeUserinfo (raw : List Char) : Dict PyStr :=
  let decoded :=
    match Base64.decode (Base64.pad raw) with
    | some decoded => decoded
    -- some deployments forward the JSON unencoded
    | none => utf8 raw
  match Json.loadsBytes other decoded with
  | some (.obj claims) => claims
  | _ => []

/-- `identity_from_userinfo` -/
def identityFromUserinfo : Option (List Char) → Option CallerIdentity
  | none => none
  | some raw =>
    if raw.isEmpty then none
    else
      let claims := decodeUserinfo other raw
      let subject := subjectOf claims
      if isTruthy subject then
        let tenant := claim claims tenantClaim
        if isTruthy tenant then some ⟨str repr subject, str repr tenant, true⟩ else none
      else none

end Source

/-! ## Claims and callers -/

section Agreement

variable {other : Bytes → Option (Json PyStr)} {repr : Json PyStr → PyStr} {tenantClaim : PyStr}
  {claims claims' : Dict PyStr} {text raw : List Char}

/-- The claims have a subject and a tenant, neither of them empty. -/
structure Names (tenantClaim : PyStr) (claims : Dict PyStr) : Prop where
  subject : isTruthy (subjectOf claims) = true
  tenant : isTruthy (claim claims tenantClaim) = true

/-- The caller that the claims name. -/
def callerOf (repr : Json PyStr → PyStr) (tenantClaim : PyStr) (claims : Dict PyStr) :
    CallerIdentity :=
  ⟨str repr (subjectOf claims), str repr (claim claims tenantClaim), true⟩

/-- The ways in which the claims with this text are forwarded: base64 with and without its padding,
    and the text itself. -/
def forwarded (text : List Char) : List (List Char) :=
  [Base64.encode (utf8 text), Base64.digits (utf8 text), text]

/-- The decoder finds no complete groups of base64 in the padded text. -/
def Refused (text : List Char) : Prop := Base64.decode (Base64.pad text) = none

/-- What the decoder finds in the text is itself the JSON of claims that name the same caller. -/
def Echoes (other : Bytes → Option (Json PyStr)) (repr : Json PyStr → PyStr) (tenantClaim : PyStr)
    (claims : Dict PyStr) (text : List Char) : Prop :=
  ∃ bytes claims', Base64.decode (Base64.pad text) = some bytes ∧
    Json.loadsBytes other bytes = some (.obj claims') ∧ Names tenantClaim claims' ∧
    callerOf repr tenantClaim claims' = callerOf repr tenantClaim claims

/-- Who is identified, from what the decoded bytes say. -/
theorem identity_eq_some_iff {identity : CallerIdentity} :
    identityFromUserinfo other repr tenantClaim (some raw) = some identity ↔
      raw ≠ [] ∧ Names tenantClaim (decodeUserinfo other raw) ∧
        callerOf repr tenantClaim (decodeUserinfo other raw) = identity := by
  rw [identityFromUserinfo]
  constructor
  · intro h
    split at h
    · cases h
    · rename_i hempty
      dsimp only at h
      split at h
      · rename_i hsubject
        split at h
        · rename_i htenant
          refine ⟨fun hnil => hempty (by rw [hnil]; rfl), ⟨hsubject, htenant⟩, ?_⟩
          exact Option.some.inj h
        · cases h
      · cases h
  · rintro ⟨hraw, hnames, rfl⟩
    have hempty : ¬ raw.isEmpty = true := by rwa [List.isEmpty_iff]
    rw [if_neg hempty]
    dsimp only
    rw [if_pos hnames.subject, if_pos hnames.tenant]
    rfl

/-- Claims that name a caller have members. -/
theorem Names.ne_nil (h : Names tenantClaim claims) : claims ≠ [] := by
  rintro rfl
  have hsubject : isTruthy (subjectOf []) = false := by decide
  rw [h.subject] at hsubject
  cases hsubject

theorem decodeUserinfo_of_decode {bytes : Bytes} (h : Base64.decode (Base64.pad raw) = some bytes)
    (hloads : Json.loadsBytes other bytes = some (.obj claims)) :
    decodeUserinfo other raw = claims := by
  rw [decodeUserinfo, h]
  dsimp only
  rw [hloads]

/-- The base64 forms are read as the claims. -/
theorem decodeUserinfo_base64 (hloads : Json.loads text = some (.obj claims)) (hne : claims ≠ [])
    (hraw : Base64.pad raw = Base64.encode (utf8 text)) : decodeUserinfo other raw = claims := by
  refine decodeUserinfo_of_decode ?_ (Json.loadsBytes_utf8 other hne hloads)
  rw [hraw, Base64.decode_encode]

/-- So is the text, where the decoder refuses it. -/
theorem decodeUserinfo_refused (hloads : Json.loads text = some (.obj claims)) (hne : claims ≠ [])
    (h : Refused text) : decodeUserinfo other text = claims := by
  rw [decodeUserinfo, show Base64.decode (Base64.pad text) = none from h]
  dsimp only
  rw [Json.loadsBytes_utf8 other hne hloads]

theorem digits_ne_nil {bytes : Bytes} (h : bytes ≠ []) : Base64.digits bytes ≠ [] := by
  match bytes with
  | [] => exact absurd rfl h
  | [_] => exact List.cons_ne_nil _ _
  | [_, _] => exact List.cons_ne_nil _ _
  | _ :: _ :: _ :: _ => exact List.cons_ne_nil _ _

/-- A JSON text is not empty, and neither are its bytes in base64. -/
theorem forwarded_ne_nil (hloads : Json.loads text = some (.obj claims)) :
    ∀ raw ∈ forwarded text, raw ≠ [] := by
  have htext : text ≠ [] := by
    rintro rfl
    cases hloads
  have hbytes : utf8 text ≠ [] := fun h => htext (utf8_injective h)
  have hdigits := digits_ne_nil hbytes
  intro raw hraw
  simp only [forwarded, List.mem_cons, List.not_mem_nil, or_false] at hraw
  rcases hraw with rfl | rfl | rfl
  · exact List.append_ne_nil_of_left_ne_nil hdigits _
  · exact hdigits
  · exact htext

/-- Both base64 forms identify the caller that the claims name. -/
theorem identity_of_base64 (hloads : Json.loads text = some (.obj claims))
    (hnames : Names tenantClaim claims) (hmem : raw ∈ forwarded text)
    (hraw : Base64.pad raw = Base64.encode (utf8 text)) :
    identityFromUserinfo other repr tenantClaim (some raw) =
      some (callerOf repr tenantClaim claims) := by
  have hclaims : decodeUserinfo other raw = claims :=
    decodeUserinfo_base64 hloads hnames.ne_nil hraw
  rw [identity_eq_some_iff, hclaims]
  exact ⟨forwarded_ne_nil hloads raw hmem, hnames, rfl⟩

/-- **When the unencoded text identifies the caller that the claims name.** -/
theorem identity_of_text_iff (hloads : Json.loads text = some (.obj claims))
    (hnames : Names tenantClaim claims) :
    identityFromUserinfo other repr tenantClaim (some text) =
        some (callerOf repr tenantClaim claims) ↔
      Refused text ∨ Echoes other repr tenantClaim claims text := by
  have htext : text ≠ [] := forwarded_ne_nil hloads text (by simp [forwarded])
  rw [identity_eq_some_iff]
  constructor
  · rintro ⟨-, hnames', hcaller⟩
    cases hdecode : Base64.decode (Base64.pad text) with
    | none => exact Or.inl hdecode
    | some bytes =>
      right
      -- claims that name a caller were read from the decoded bytes
      have hmembers := hnames'.ne_nil
      unfold decodeUserinfo at hnames' hcaller hmembers
      rw [hdecode] at hnames' hcaller hmembers
      dsimp only at hnames' hcaller hmembers
      split at hmembers
      · rename_i claims' hread
        rw [hread] at hnames' hcaller
        exact ⟨bytes, claims', hdecode, hread, hnames', hcaller⟩
      · exact absurd rfl hmembers
  · rintro (hrefused | ⟨bytes, claims', hdecode, hread, hnames', hcaller⟩)
    · rw [decodeUserinfo_refused hloads hnames.ne_nil hrefused]
      exact ⟨htext, hnames, rfl⟩
    · rw [decodeUserinfo_of_decode hdecode hread]
      exact ⟨htext, hnames', hcaller⟩

/-- **When both encodings give the same identity**: where the JSON text is not taken for base64, or
    where what it is taken for names the same caller. -/
theorem userinfo_encodings_agree_iff (hloads : Json.loads text = some (.obj claims))
    (hnames : Names tenantClaim claims) :
    (∃ identity, ∀ raw ∈ forwarded text,
        identityFromUserinfo other repr tenantClaim (some raw) = some identity) ↔
      Refused text ∨ Echoes other repr tenantClaim claims text := by
  have hpadded : Base64.pad (Base64.encode (utf8 text)) = Base64.encode (utf8 text) :=
    Base64.pad_pad _
  have hencoded : identityFromUserinfo other repr tenantClaim
      (some (Base64.encode (utf8 text))) = some (callerOf repr tenantClaim claims) :=
    identity_of_base64 hloads hnames (by simp [forwarded]) hpadded
  have hstripped : identityFromUserinfo other repr tenantClaim
      (some (Base64.digits (utf8 text))) = some (callerOf repr tenantClaim claims) :=
    identity_of_base64 hloads hnames (by simp [forwarded]) rfl
  rw [← identity_of_text_iff hloads hnames]
  constructor
  · rintro ⟨identity, hall⟩
    have hfirst := hall (Base64.encode (utf8 text)) (by simp [forwarded])
    have hsame : callerOf repr tenantClaim claims = identity :=
      Option.some.inj (hencoded.symm.trans hfirst)
    rw [hsame]
    exact hall text (by simp [forwarded])
  · intro htext
    refine ⟨callerOf repr tenantClaim claims, ?_⟩
    intro raw hraw
    simp only [forwarded, List.mem_cons, List.not_mem_nil, or_false] at hraw
    rcases hraw with rfl | rfl | rfl
    · exact hencoded
    · exact hstripped
    · exact htext

end Agreement

/-! ### Two callers -/

/-- The claims of a member of `acme`. -/
def claimsOf (subject : String) : Dict PyStr := [("sub", .str subject), ("tenant", .str "acme")]

def aliceText : List Char := "\x7b\"sub\":\"alice\",\"tenant\":\"acme\"\x7d".toList

def bobText : List Char := "\x7b\"sub\":\"bob\",\"tenant\":\"acme\"\x7d".toList

/-- `alice` has eighteen letters in her claims, which is no whole number of groups. -/
theorem userinfo_encodings_agree_iff_alice :
    ∃ identity, ∀ raw ∈ forwarded aliceText,
      identityFromUserinfo (fun _ => none) (fun _ => "") "tenant" (some raw) = some identity := by
  have hloads : Json.loads aliceText = some (.obj (claimsOf "alice")) := by decide +kernel
  have hnames : Names "tenant" (claimsOf "alice") := ⟨by decide +kernel, by decide +kernel⟩
  refine (userinfo_encodings_agree_iff hloads hnames).mpr (Or.inl ?_)
  show Base64.decode (Base64.pad aliceText) = none
  decide +kernel

/-- `bob` has sixteen: his text is taken for base64 of something that is no JSON. -/
theorem unencoded_claims_unread :
    Json.loads bobText = some (.obj (claimsOf "bob")) ∧ Names "tenant" (claimsOf "bob") ∧
      identityFromUserinfo (fun _ => none) (fun _ => "") "tenant"
        (some (Base64.encode (utf8 bobText))) = some ⟨"bob", "acme", true⟩ ∧
      identityFromUserinfo (fun _ => none) (fun _ => "") "tenant" (some bobText) = none := by
  refine ⟨by decide +kernel, ⟨by decide +kernel, by decide +kernel⟩, ?_, ?_⟩
  · decide +kernel
  · decide +kernel

end FavlGateway.Identity
