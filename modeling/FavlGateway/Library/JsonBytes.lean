/-
  `json.loads` on bytes.

  The encoding is told from the first four bytes (`detect_encoding`).  What UTF-8 carries is decoded
  here; what `json.loads` makes of bytes in another encoding, or of UTF-8 with surrogates in it, is
  the parameter `other`.  The UTF-8 of the JSON text of an object is read as that text
  (`loadsBytes_utf8`): such a text begins with two characters that are ASCII and not NUL.
-/
import FavlGateway.Library.Bytes

namespace FavlGateway.Library.Json

/-! ## The encoding -/

inductive Encoding where
  | utf8 | utf8sig | utf16 | utf16be | utf16le | utf32 | utf32be | utf32le
  deriving DecidableEq

/-- `codecs.BOM_UTF32_BE`, `codecs.BOM_UTF32_LE` -/
def bomUtf32 : List Bytes := [[0x00, 0x00, 0xFE, 0xFF], [0xFF, 0xFE, 0x00, 0x00]]

/-- `codecs.BOM_UTF16_BE`, `codecs.BOM_UTF16_LE` -/
def bomUtf16 : List Bytes := [[0xFE, 0xFF], [0xFF, 0xFE]]

/-- `codecs.BOM_UTF8` -/
def bomUtf8 : Bytes := [0xEF, 0xBB, 0xBF]

/-- `json.detect_encoding(b)` -/
def detectEncoding (b : Bytes) : Encoding :=
  if bomUtf32.any (·.isPrefixOf b) then .utf32
  else if bomUtf16.any (·.isPrefixOf b) then .utf16
  else if bomUtf8.isPrefixOf b then .utf8sig
  else
    match b with
    | b₀ :: b₁ :: b₂ :: b₃ :: _ =>
      if b₀ = 0 then (if b₁ = 0 then .utf32be else .utf16be)
      else if b₁ = 0 then (if b₂ ≠ 0 ∨ b₃ ≠ 0 then .utf16le else .utf32le)
      else .utf8
    | [b₀, b₁] => if b₀ = 0 then .utf16be else if b₁ = 0 then .utf16le else .utf8
    | _ => .utf8

/-- `json.loads(b)`; `none` where it raises a `ValueError` -/
def loadsBytes (other : Bytes → Option (Json PyStr)) (b : Bytes) : Option (Json PyStr) :=
  match detectEncoding b, utf8Decode? b with
  | .utf8, some text => loads text
  | _, _ => other b

/-! ## How the text of an object begins -/

/-- White space, or what can follow it at the beginning of an object. -/
def isOpening (c : Char) : Bool := isWhitespace c || c = '\x7b' || c = '"'

theorem opening_byte {c : Char} (h : isOpening c = true) :
    c.toNat < 0x80 ∧ c.toNat ≠ 0 := by
  simp only [isOpening, isWhitespace, Bool.or_eq_true, decide_eq_true_eq, or_assoc] at h
  rcases h with rfl | rfl | rfl | rfl | rfl | rfl <;> decide

/-- A text that is not empty after its white space begins with some, or with what it has then. -/
theorem head_of_skip {s rest : List Char} {c : Char} (h : skip s = c :: rest)
    (hc : isOpening c = true) : ∃ d s', s = d :: s' ∧ isOpening d = true := by
  cases s with
  | nil => cases h
  | cons d s =>
    refine ⟨d, s, rfl, ?_⟩
    unfold skip at h
    by_cases hd : isWhitespace d = true
    · simp [isOpening, hd]
    · rw [List.dropWhile_cons_of_neg hd] at h
      rw [(List.cons.inj h).1]
      exact hc

theorem parseScalar_not_obj {s rest : List Char} {ms : Dict PyStr} :
    parseScalar s ≠ some (.obj ms, rest) := by
  intro h
  unfold parseScalar at h
  split at h
  · rename_i r hnumber
    unfold parseNumber at hnumber
    split at hnumber
    · cases hnumber
      cases h
    · cases hnumber
  · unfold parseConstant at h
    split at h
    · rename_i w hw
      have hconstant : ∀ w ∈ constants, ∀ ms, w.2 ≠ .obj ms := by
        simp [constants]
      have hmem := List.mem_of_find?_eq_some hw
      exact hconstant w hmem ms (congrArg Prod.fst (Option.some.inj h))
    · cases h

theorem opening_of_parseMembers {fuel : Nat} {s : List Char}
    {r : List (PyStr × Json PyStr) × List Char} (h : parseMembers fuel s = some r) :
    ∃ s', s = '"' :: s' := by
  cases fuel with
  | zero => cases h
  | succ fuel =>
    unfold parseMembers at h
    split at h
    · exact ⟨_, rfl⟩
    · cases h

/-- A value that is an object with members begins with a brace and a quotation mark. -/
theorem opening_of_parseValue {fuel : Nat} {s rest : List Char} {ms : Dict PyStr} (hms : ms ≠ [])
    (h : parseValue fuel s = some (.obj ms, rest)) :
    ∃ s', s = '\x7b' :: s' ∧ ∃ s'', skip s' = '"' :: s'' := by
  cases fuel with
  | zero => cases h
  | succ fuel =>
    unfold parseValue at h
    split at h
    · split at h <;> cases h
    · split at h
      · cases h
      · split at h <;> cases h
    · rename_i s'
      refine ⟨s', rfl, ?_⟩
      split at h
      · cases h
        exact absurd rfl hms
      · rename_i hskip
        split at h
        · rename_i pairs rest' hmembers
          exact opening_of_parseMembers hmembers
        · cases h
    · exact absurd h parseScalar_not_obj

/-- **How the text of an object begins.** -/
theorem opening_of_loads {s : List Char} {ms : Dict PyStr} (hms : ms ≠ [])
    (h : loads s = some (.obj ms)) :
    ∃ c d s', s = c :: d :: s' ∧ isOpening c = true ∧ isOpening d = true := by
  unfold loads at h
  split at h
  · rename_i v rest hvalue
    split at h
    · cases h
      obtain ⟨s₁, hbrace, s₂, hquote⟩ := opening_of_parseValue hms hvalue
      obtain ⟨d, s₃, rfl, hd⟩ := head_of_skip hquote rfl
      obtain ⟨c, t, rfl, hc⟩ := head_of_skip hbrace rfl
      unfold skip at hbrace
      by_cases hspace : isWhitespace c = true
      · rw [List.dropWhile_cons_of_pos hspace] at hbrace
        obtain ⟨e, t', rfl, he⟩ := head_of_skip hbrace rfl
        exact ⟨c, e, t', rfl, hc, he⟩
      · rw [List.dropWhile_cons_of_neg hspace] at hbrace
        exact ⟨c, d, s₃, by rw [(List.cons.inj hbrace).2], hc, hd⟩
    · cases h
  · cases h

/-- Two such bytes in front mean UTF-8. -/
theorem detectEncoding_opening {a b : UInt8} {rest : Bytes} (ha : a.toNat < 0x80 ∧ a.toNat ≠ 0)
    (hb : b.toNat < 0x80 ∧ b.toNat ≠ 0) : detectEncoding (a :: b :: rest) = .utf8 := by
  have hzero : a ≠ 0 ∧ b ≠ 0 := ⟨fun h => ha.2 (by rw [h]; rfl), fun h => hb.2 (by rw [h]; rfl)⟩
  have hmark : ∀ x : UInt8, 0x80 ≤ x.toNat → x ≠ a := by
    rintro x hx rfl
    omega
  have hfe : (0xFE : UInt8) ≠ a := hmark _ (by decide)
  have hff : (0xFF : UInt8) ≠ a := hmark _ (by decide)
  have hef : (0xEF : UInt8) ≠ a := hmark _ (by decide)
  have hnul : (0 : UInt8) ≠ a := hzero.1.symm
  unfold detectEncoding
  rw [if_neg (by simp [bomUtf32, List.isPrefixOf, hnul, hff]),
    if_neg (by simp [bomUtf16, List.isPrefixOf, hfe, hff]),
    if_neg (by simp [bomUtf8, List.isPrefixOf, hef])]
  match rest with
  | [] => simp [hzero]
  | [c] => rfl
  | c :: d :: rest => simp [hzero]

/-- **The UTF-8 of an object's text is read as that text.** -/
theorem loadsBytes_utf8 (other : Bytes → Option (Json PyStr)) {s : List Char} {ms : Dict PyStr}
    (hms : ms ≠ []) (h : loads s = some (.obj ms)) :
    loadsBytes other (Library.utf8 s) = some (.obj ms) := by
  obtain ⟨c, d, s', rfl, hc, hd⟩ := opening_of_loads hms h
  have hc' := opening_byte hc
  have hd' := opening_byte hd
  have hbytes : Library.utf8 (c :: d :: s') =
      UInt8.ofNat c.toNat :: UInt8.ofNat d.toNat :: Library.utf8 s' := by
    rw [utf8_cons, utf8_cons, utf8EncodeChar_ascii hc'.1, utf8EncodeChar_ascii hd'.1]
    rfl
  have hsmall : ∀ n : Nat, n < 0x80 ∧ n ≠ 0 →
      (UInt8.ofNat n).toNat < 0x80 ∧ (UInt8.ofNat n).toNat ≠ 0 := by
    intro n hn
    rw [UInt8.toNat_ofNat']
    omega
  have hencoding : detectEncoding (Library.utf8 (c :: d :: s')) = .utf8 := by
    rw [hbytes]
    exact detectEncoding_opening (hsmall _ hc') (hsmall _ hd')
  rw [loadsBytes, hencoding, utf8Decode?_utf8]
  exact h

end FavlGateway.Library.Json
