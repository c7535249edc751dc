/-
  The signature of a webhook delivery (`app/adapters/webhook.py`).

  What is signed is `event_id.timestamp.body`, three fields with a dot between them, and a dot may
  also occur in each of them.  So the signature binds the dot-separated pieces of the three fields
  taken together, not how they are divided among the fields: **`signature_binds_iff`**.

  HMAC-SHA256 is a parameter, with the assumption that it is injective in the message.
-/
import FavlGateway.Library.Bytes
import FavlGateway.Registry.Invoke

namespace FavlGateway.Registry

open FavlGateway.Library

/-! ## Signing and verifying -/

/-- What the two functions raise. -/
inductive SignatureError where
  | unicodeEncodeError (object : PyStr)
  /-- `compare_digest` takes ASCII texts only -/
  | typeError
  deriving DecidableEq

/-- `s.encode()` -/
def encoded (s : PyStr) : Except SignatureError Bytes :=
  match s.encode? with
  | some bytes => .ok bytes
  | none => .error (.unicodeEncodeError s)

/-- The byte between two fields. -/
def dot : UInt8 := 0x2E

/-- `SIGNATURE_VERSION` -/
def signatureVersion : String := "v1"

/-- `hmac.compare_digest`, on texts -/
def compareSignatures (a b : PyStr) : Except SignatureError Bool :=
  if (a.codepoints ++ b.codepoints).all (· < 0x80) then .ok (decide (a = b)) else .error .typeError

section Signing

variable (hmacSha256 : Bytes → Bytes → Bytes)

/-- `build_signature`: `v1=<hex>` over `event_id.timestamp.body` -/
def buildSignature (secret eventId timestamp : PyStr) (body : Bytes) :
    Except SignatureError PyStr := do
  let eventId ← encoded eventId
  let timestamp ← encoded timestamp
  let signed := [dot].intercalate [eventId, timestamp, body]
  let secret ← encoded secret
  let digest := hexText (hmacSha256 secret signed)
  return PyStr.ofString (signatureVersion ++ "=" ++ String.ofList digest)

/-- `verify_signature` -/
def verifySignature (secret eventId timestamp : PyStr) (body : Bytes) (provided : PyStr) :
    Except SignatureError Bool := do
  let expected ← buildSignature hmacSha256 secret eventId timestamp body
  compareSignatures expected provided

end Signing

/-! ## What is signed -/

/-- The three signed components. -/
@[ext] structure Signed where
  eventId : PyStr
  timestamp : PyStr
  body : Bytes
  deriving DecidableEq

/-- Nothing in the text is beyond Unicode's characters. -/
def IsEncodable (s : PyStr) : Prop := ∀ c ∈ s.codepoints, c.isValidChar

instance (s : PyStr) : Decidable (IsEncodable s) :=
  inferInstanceAs (Decidable (∀ c ∈ s.codepoints, c.isValidChar))

/-- The dot-separated pieces of the three components, one after the other. -/
def Signed.pieces (t : Signed) : List Bytes :=
  (t.eventId.encode?.getD []).splitOn dot ++
    ((t.timestamp.encode?.getD []).splitOn dot ++ t.body.splitOn dot)

/-- The receiver is given the second triple with the signature of the first, and says no. -/
def Rejects (hmacSha256 : Bytes → Bytes → Bytes) (secret : PyStr) (t t' : Signed) : Prop :=
  ∃ signature, buildSignature hmacSha256 secret t.eventId t.timestamp t.body = .ok signature ∧
    verifySignature hmacSha256 secret t'.eventId t'.timestamp t'.body signature = .ok false

theorem isEncodable_iff {s : PyStr} : IsEncodable s ↔ ∃ bytes, s.encode? = some bytes := by
  unfold PyStr.encode? IsEncodable
  constructor
  · intro h
    refine ⟨_, if_pos ?_⟩
    rw [List.all_eq_true]
    exact fun c hc => decide_eq_true (h c hc)
  · rintro ⟨bytes, h⟩ c hc
    split at h
    · rename_i hall
      rw [List.all_eq_true] at hall
      exact of_decide_eq_true (hall c hc)
    · cases h

theorem encoded_ok_iff {s : PyStr} {bytes : Bytes} :
    encoded s = .ok bytes ↔ s.encode? = some bytes := by
  unfold encoded
  cases s.encode? with
  | none => exact ⟨nofun, nofun⟩
  | some b => rw [Except.ok.injEq, Option.some.injEq]

/-- The signature with this digest. -/
def signatureOf (digest : Bytes) : PyStr :=
  PyStr.ofString (signatureVersion ++ "=" ++ String.ofList (hexText digest))

theorem signatureOf_injective : Function.Injective signatureOf := by
  intro d d' h
  have hchars := congrArg String.toList (PyStr.ofString_inj.mp h)
  simp only [String.toList_append, String.toList_ofList] at hchars
  exact hexText_injective (List.append_cancel_left hchars)

theorem signatureOf_ascii (digest : Bytes) :
    ((signatureOf digest).codepoints.all (· < 0x80)) = true := by
  rw [List.all_eq_true]
  intro n hn
  obtain ⟨c, hc, rfl⟩ := List.mem_map.mp hn
  rw [String.toList_append, String.toList_ofList, List.mem_append] at hc
  rcases hc with hc | hc
  · have hversion : (signatureVersion ++ "=").toList.all (fun c => decide (c.toNat < 0x80)) = true :=
      rfl
    exact List.all_eq_true.mp hversion c hc
  · exact decide_eq_true (hexText_ascii digest c hc)

/-- Two signatures are compared, whatever they are. -/
theorem compareSignatures_eq (d d' : Bytes) :
    compareSignatures (signatureOf d) (signatureOf d') = .ok (decide (d = d')) := by
  have hascii : ((signatureOf d).codepoints ++ (signatureOf d').codepoints).all (· < 0x80) = true := by
    rw [List.all_append, signatureOf_ascii, signatureOf_ascii, Bool.and_self]
  unfold compareSignatures
  rw [if_pos hascii]
  congr 1
  exact decide_eq_decide.mpr signatureOf_injective.eq_iff

section Binding

variable {hmacSha256 : Bytes → Bytes → Bytes} {secret : PyStr} {t t' : Signed}

/-- What is signed, of three fields in bytes. -/
theorem joined (a b c : Bytes) : [dot].intercalate [a, b, c] = a ++ dot :: (b ++ dot :: c) := by
  simp [List.intercalate]

theorem splitOn_joined (a b c : Bytes) :
    ([dot].intercalate [a, b, c]).splitOn dot = a.splitOn dot ++ (b.splitOn dot ++ c.splitOn dot) := by
  rw [joined, List.splitOn_append_cons_self, List.splitOn_append_cons_self]

/-- **What the signed bytes tell of the fields**: their pieces. -/
theorem joined_eq_iff {a b c a' b' c' : Bytes} :
    [dot].intercalate [a, b, c] = [dot].intercalate [a', b', c'] ↔
      a.splitOn dot ++ (b.splitOn dot ++ c.splitOn dot) =
        a'.splitOn dot ++ (b'.splitOn dot ++ c'.splitOn dot) := by
  rw [← splitOn_joined, ← splitOn_joined]
  constructor
  · intro h
    rw [h]
  · intro h
    have hback : ∀ bytes : Bytes, [dot].intercalate (bytes.splitOn dot) = bytes :=
      fun _ => List.intercalate_splitOn dot
    rw [← hback ([dot].intercalate [a, b, c]), h, hback]

/-- What `build_signature` returns, and when it returns. -/
theorem buildSignature_ok_iff {signature : PyStr} :
    buildSignature hmacSha256 secret t.eventId t.timestamp t.body = .ok signature ↔
      ∃ key eventId timestamp, secret.encode? = some key ∧ t.eventId.encode? = some eventId ∧
        t.timestamp.encode? = some timestamp ∧
        signature = signatureOf (hmacSha256 key ([dot].intercalate [eventId, timestamp, t.body])) := by
  unfold buildSignature
  constructor
  · intro h
    obtain ⟨eventId, hevent, h⟩ := Security.of_bind h
    obtain ⟨timestamp, htimestamp, h⟩ := Security.of_bind h
    obtain ⟨key, hkey, h⟩ := Security.of_bind h
    cases h
    exact ⟨key, eventId, timestamp, encoded_ok_iff.mp hkey, encoded_ok_iff.mp hevent,
      encoded_ok_iff.mp htimestamp, rfl⟩
  · rintro ⟨key, eventId, timestamp, hkey, hevent, htimestamp, rfl⟩
    rw [encoded_ok_iff.mpr hkey, encoded_ok_iff.mpr hevent, encoded_ok_iff.mpr htimestamp]
    rfl

/-- The pieces of three components whose texts can be encoded. -/
theorem pieces_eq {eventId timestamp : Bytes} (hevent : t.eventId.encode? = some eventId)
    (htimestamp : t.timestamp.encode? = some timestamp) :
    t.pieces = eventId.splitOn dot ++ (timestamp.splitOn dot ++ t.body.splitOn dot) := by
  rw [Signed.pieces, hevent, htimestamp]
  rfl

/-- A triple that is rejected differs in its pieces. -/
theorem Rejects.pieces_ne (h : Rejects hmacSha256 secret t t') :
    IsEncodable secret ∧ IsEncodable t.eventId ∧ IsEncodable t.timestamp ∧
      IsEncodable t'.eventId ∧ IsEncodable t'.timestamp ∧ t.pieces ≠ t'.pieces := by
  simp only [isEncodable_iff]
  obtain ⟨signature, hbuilt, hverified⟩ := h
  obtain ⟨key, e, ts, hkey, he, hts, rfl⟩ := buildSignature_ok_iff.mp hbuilt
  obtain ⟨expected, hexpected, hcompared⟩ := Security.of_bind hverified
  obtain ⟨key', e', ts', hkey', he', hts', rfl⟩ := buildSignature_ok_iff.mp hexpected
  obtain rfl : key' = key := Option.some.inj (hkey'.symm.trans hkey)
  refine ⟨⟨_, hkey⟩, ⟨_, he⟩, ⟨_, hts⟩, ⟨_, he'⟩, ⟨_, hts'⟩, ?_⟩
  rw [pieces_eq he hts, pieces_eq he' hts', ne_eq, ← joined_eq_iff]
  intro hsame
  rw [compareSignatures_eq, hsame, decide_eq_true rfl] at hcompared
  cases hcompared

/-- One that differs in its pieces is rejected, if no two messages share a digest. -/
theorem Rejects.of_pieces_ne (hinjective : ∀ key, Function.Injective (hmacSha256 key))
    (hsecret : IsEncodable secret) (hevent : IsEncodable t.eventId)
    (htimestamp : IsEncodable t.timestamp) (hevent' : IsEncodable t'.eventId)
    (htimestamp' : IsEncodable t'.timestamp) (hpieces : t.pieces ≠ t'.pieces) :
    Rejects hmacSha256 secret t t' := by
  obtain ⟨key, hkey⟩ := isEncodable_iff.mp hsecret
  obtain ⟨e, he⟩ := isEncodable_iff.mp hevent
  obtain ⟨ts, hts⟩ := isEncodable_iff.mp htimestamp
  obtain ⟨e', he'⟩ := isEncodable_iff.mp hevent'
  obtain ⟨ts', hts'⟩ := isEncodable_iff.mp htimestamp'
  rw [pieces_eq he hts, pieces_eq he' hts', ne_eq, ← joined_eq_iff] at hpieces
  have hbuilt := (@buildSignature_ok_iff hmacSha256 secret t _).mpr
    ⟨key, e, ts, hkey, he, hts, rfl⟩
  have hexpected := (@buildSignature_ok_iff hmacSha256 secret t' _).mpr
    ⟨key, e', ts', hkey, he', hts', rfl⟩
  refine ⟨_, hbuilt, ?_⟩
  unfold verifySignature
  rw [hexpected]
  show compareSignatures _ _ = .ok false
  rw [compareSignatures_eq, decide_eq_false]
  intro hdigest
  exact hpieces (hinjective key hdigest).symm

/-- **When the signature binds the components**: the receiver rejects a second triple under the
    signature of the first exactly when their pieces differ, as far as the texts can be encoded at
    all. -/
theorem signature_binds_iff (hinjective : ∀ key, Function.Injective (hmacSha256 key)) :
    Rejects hmacSha256 secret t t' ↔
      IsEncodable secret ∧ IsEncodable t.eventId ∧ IsEncodable t.timestamp ∧
        IsEncodable t'.eventId ∧ IsEncodable t'.timestamp ∧ t.pieces ≠ t'.pieces := by
  constructor
  · exact Rejects.pieces_ne
  · rintro ⟨hsecret, hevent, htimestamp, hevent', htimestamp', hpieces⟩
    exact .of_pieces_ne hinjective hsecret hevent htimestamp hevent' htimestamp' hpieces

/-- Where neither id nor timestamp has a dot in it, there is nothing to move. -/
theorem pieces_inj_of_dotless {e ts b e' ts' b' : Bytes} (he : dot ∉ e) (hts : dot ∉ ts)
    (he' : dot ∉ e') (hts' : dot ∉ ts')
    (h : e.splitOn dot ++ (ts.splitOn dot ++ b.splitOn dot) =
      e'.splitOn dot ++ (ts'.splitOn dot ++ b'.splitOn dot)) : e = e' ∧ ts = ts' ∧ b = b' := by
  rw [List.splitOn_eq_singleton he, List.splitOn_eq_singleton hts, List.splitOn_eq_singleton he',
    List.splitOn_eq_singleton hts'] at h
  obtain ⟨hevent, h⟩ := List.cons.inj h
  obtain ⟨htimestamp, h⟩ := List.cons.inj h
  have hbody := congrArg [dot].intercalate h
  change [dot].intercalate (b.splitOn dot) = [dot].intercalate (b'.splitOn dot) at hbody
  rw [List.intercalate_splitOn, List.intercalate_splitOn] at hbody
  exact ⟨hevent, htimestamp, hbody⟩

/-- A receiver that takes neither ids nor timestamps with a dot in them rejects every other triple. -/
theorem Rejects.of_dotless (hinjective : ∀ key, Function.Injective (hmacSha256 key))
    (hsecret : IsEncodable secret) {e ts e' ts' : Bytes} (he : t.eventId.encode? = some e)
    (hts : t.timestamp.encode? = some ts) (he' : t'.eventId.encode? = some e')
    (hts' : t'.timestamp.encode? = some ts') (hdots : dot ∉ e ∧ dot ∉ ts)
    (hdots' : dot ∉ e' ∧ dot ∉ ts') (hne : t ≠ t') : Rejects hmacSha256 secret t t' := by
  refine .of_pieces_ne hinjective hsecret (isEncodable_iff.mpr ⟨e, he⟩)
    (isEncodable_iff.mpr ⟨ts, hts⟩) (isEncodable_iff.mpr ⟨e', he'⟩)
    (isEncodable_iff.mpr ⟨ts', hts'⟩) ?_
  rw [pieces_eq he hts, pieces_eq he' hts']
  intro hpieces
  obtain ⟨rfl, rfl, hbody⟩ := pieces_inj_of_dotless hdots.1 hdots.2 hdots'.1 hdots'.2 hpieces
  have hevent : t.eventId = t'.eventId := PyStr.encode_inj he he'
  have htimestamp : t.timestamp = t'.timestamp := PyStr.encode_inj hts hts'
  exact hne (Signed.ext hevent htimestamp hbody)

end Binding

/-! ### A delivery, and one with a boundary moved -/

/-- `evt-1`, with a number in its body. -/
def delivery : Signed := ⟨"evt-1", "1754280000", utf8 "\x7b\"amount\":1.5\x7d".toList⟩

/-- Another event at the same time. -/
def otherDelivery : Signed := ⟨"evt-2", "1754280000", utf8 "\x7b\"amount\":1.5\x7d".toList⟩

/-- The same bytes, divided one dot later. -/
def shiftedDelivery : Signed := ⟨"evt-1.1754280000", "\x7b\"amount\":1", utf8 "5\x7d".toList⟩

/-- The digests of the two messages under the key `secret`. -/
def sampleDigests : List (Bytes × Bytes) :=
  [(utf8 "evt-1.1754280000.\x7b\"amount\":1.5\x7d".toList,
      [192, 144, 214, 182, 127, 147, 210, 156, 12, 17, 207, 81, 12, 221, 222, 190, 97, 123, 168,
        82, 93, 190, 104, 31, 187, 77, 131, 40, 33, 208, 120, 214]),
    (utf8 "evt-2.1754280000.\x7b\"amount\":1.5\x7d".toList,
      [143, 205, 69, 220, 131, 110, 20, 201, 148, 134, 163, 39, 62, 34, 54, 81, 210, 66, 56, 10,
        232, 216, 177, 131, 150, 185, 113, 197, 144, 175, 75, 48])]

/-- HMAC-SHA256 on these messages; elsewhere a longer text, so that no two messages share one. -/
def sampleHmac (_key message : Bytes) : Bytes :=
  (sampleDigests.lookup message).getD (List.replicate 33 0 ++ message)

/-- The samples are apart, and shorter than anything else. -/
theorem sampleDigests_apart :
    (sampleDigests.map Prod.snd).Nodup ∧ ∀ x ∈ sampleDigests, x.2.length = 32 := by
  decide +kernel

theorem mem_sampleDigests {m d : Bytes} (h : sampleDigests.lookup m = some d) :
    (m, d) ∈ sampleDigests := by
  obtain ⟨before, after, heq, -⟩ := List.lookup_eq_some_iff.mp h
  rw [heq]
  exact List.mem_append_right _ List.mem_cons_self

theorem sampleHmac_injective (key : Bytes) : Function.Injective (sampleHmac key) := by
  intro m m' h
  unfold sampleHmac at h
  cases hm : sampleDigests.lookup m with
  | some d =>
    have hlength := sampleDigests_apart.2 _ (mem_sampleDigests hm)
    cases hm' : sampleDigests.lookup m' with
    | some d' =>
      rw [hm, hm'] at h
      have hsame := List.inj_on_of_nodup_map sampleDigests_apart.1 (mem_sampleDigests hm)
        (mem_sampleDigests hm') h
      exact congrArg Prod.fst hsame
    | none =>
      rw [hm, hm'] at h
      rw [Option.getD_some, Option.getD_none] at h
      rw [h, List.length_append, List.length_replicate] at hlength
      omega
  | none =>
    cases hm' : sampleDigests.lookup m' with
    | some d' =>
      have hlength := sampleDigests_apart.2 _ (mem_sampleDigests hm')
      rw [hm, hm', Option.getD_some, Option.getD_none] at h
      rw [← h, List.length_append, List.length_replicate] at hlength
      omega
    | none =>
      rw [hm, hm', Option.getD_none, Option.getD_none] at h
      exact List.append_cancel_left h

theorem signature_binds_iff_otherEvent : Rejects sampleHmac "secret" delivery otherDelivery :=
  (signature_binds_iff sampleHmac_injective).mpr (by
    refine ⟨?_, ?_, ?_, ?_, ?_, ?_⟩ <;> decide +kernel)

/-- **The signature of one triple verifies for another.** -/
theorem boundary_moved :
    delivery ≠ shiftedDelivery ∧ (∀ key, Function.Injective (sampleHmac key)) ∧
      ¬ Rejects sampleHmac "secret" delivery shiftedDelivery := by
  refine ⟨by decide +kernel, sampleHmac_injective, ?_⟩
  intro hrejects
  have hpieces : delivery.pieces = shiftedDelivery.pieces := by decide +kernel
  exact hrejects.pieces_ne.2.2.2.2.2 hpieces

end FavlGateway.Registry
