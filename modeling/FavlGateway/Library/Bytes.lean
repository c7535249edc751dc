/-
  Bytes of texts: UTF-8, as `str.encode()` writes it and `bytes.decode()` reads it, and hexadecimal
  digits, as `hexdigest()` writes them.

  A Python text may hold what UTF-8 cannot carry, so encoding it is partial; where it succeeds the
  text can be told from the bytes (`encode_inj`).
-/
import FavlGateway.Library.PyRepr

namespace FavlGateway.Library

abbrev Bytes := List UInt8

/-! ## UTF-8 -/

/-- The characters in UTF-8. -/
def utf8 (cs : List Char) : Bytes := cs.flatMap String.utf8EncodeChar

/-- The characters that the bytes stand for in UTF-8, if they are well-formed. -/
def utf8Decode? (bytes : Bytes) : Option (List Char) :=
  bytes.toByteArray.utf8Decode?.map Array.toList

@[simp] theorem utf8_nil : utf8 [] = [] := rfl

@[simp] theorem utf8_cons (c : Char) (cs : List Char) :
    utf8 (c :: cs) = String.utf8EncodeChar c ++ utf8 cs := rfl

@[simp] theorem utf8_append (cs ds : List Char) : utf8 (cs ++ ds) = utf8 cs ++ utf8 ds :=
  List.flatMap_append

/-- **What is encoded is decoded again.** -/
@[simp] theorem utf8Decode?_utf8 (cs : List Char) : utf8Decode? (utf8 cs) = some cs := by
  have hdecode : (List.flatMap String.utf8EncodeChar cs).toByteArray.utf8Decode? =
      some cs.toArray := List.utf8Decode?_utf8Encode
  rw [utf8Decode?, utf8, hdecode]
  rfl

theorem utf8_injective : Function.Injective utf8 := by
  intro cs ds h
  have hback := congrArg utf8Decode? h
  rw [utf8Decode?_utf8, utf8Decode?_utf8] at hback
  exact Option.some.inj hback

/-- An ASCII character is one byte. -/
theorem utf8EncodeChar_ascii {c : Char} (h : c.toNat < 0x80) :
    String.utf8EncodeChar c = [UInt8.ofNat c.toNat] := by
  have hle : c.val.toNat ≤ 0x7f := Nat.lt_succ_iff.mp h
  show (if c.val.toNat ≤ 0x7f then [c.val.toNat.toUInt8] else _) = _
  rw [if_pos hle]
  rfl

/-- `s.encode()`; `none` where a code point is no character. -/
def PyStr.encode? (s : PyStr) : Option Bytes :=
  if s.codepoints.all fun c => decide c.isValidChar then
    some (utf8 (s.codepoints.map Char.ofNat))
  else none

theorem toNat_ofNat {c : Nat} (h : c.isValidChar) : (Char.ofNat c).toNat = c := by
  rw [Char.ofNat, dif_pos h]
  rfl

theorem map_toNat_ofNat {cs : List Nat} (h : (cs.all fun c => decide c.isValidChar) = true) :
    (cs.map Char.ofNat).map Char.toNat = cs := by
  rw [List.map_map]
  refine (List.map_congr_left fun c hc => ?_).trans (List.map_id' cs)
  rw [List.all_eq_true] at h
  exact toNat_ofNat (of_decide_eq_true (h c hc))

/-- **A text can be told from its bytes.** -/
theorem PyStr.encode_inj {s t : PyStr} {bytes : Bytes} (hs : s.encode? = some bytes)
    (ht : t.encode? = some bytes) : s = t := by
  unfold PyStr.encode? at hs ht
  split at hs
  · rename_i hvalid
    split at ht
    · rename_i hvalid'
      have hchars := utf8_injective ((Option.some.inj hs).trans (Option.some.inj ht).symm)
      have hcodes : s.codepoints = t.codepoints := by
        rw [← map_toNat_ofNat hvalid, hchars, map_toNat_ofNat hvalid']
      cases s
      cases t
      exact congrArg PyStr.mk hcodes
    · cases ht
  · cases hs

@[simp] theorem PyStr.encode_ofString (s : String) :
    (PyStr.ofString s).encode? = some (utf8 s.toList) := by
  have hvalid : ((PyStr.ofString s).codepoints.all fun c => decide c.isValidChar) = true := by
    rw [List.all_eq_true]
    intro n hn
    obtain ⟨c, -, rfl⟩ := List.mem_map.mp hn
    exact decide_eq_true c.valid
  have hback : (PyStr.ofString s).codepoints.map Char.ofNat = s.toList := by
    simp [PyStr.ofString, Function.comp_def]
  rw [PyStr.encode?, if_pos hvalid, hback]

/-! ## Hexadecimal digits -/

/-- Two digits for every byte. -/
def hexText (bytes : Bytes) : List Char := bytes.flatMap fun b => PyRepr.hexDigits 2 b.toNat

/-- **The bytes can be told from their digits.** -/
theorem hexText_injective : Function.Injective hexText := by
  intro a
  induction a with
  | nil =>
    intro b h
    cases b with
    | nil => rfl
    | cons y b => cases h
  | cons x a ih =>
    intro b h
    cases b with
    | nil => cases h
    | cons y b =>
      -- the first two digits are read back as the first byte
      have hread := congrArg (PyRepr.readHex 2) h
      have hx : PyRepr.readHex 2 (hexText (x :: a)) = some (x.toNat % 16 ^ 2, hexText a) :=
        PyRepr.readHex_hexDigits 2 x.toNat _
      have hy : PyRepr.readHex 2 (hexText (y :: b)) = some (y.toNat % 16 ^ 2, hexText b) :=
        PyRepr.readHex_hexDigits 2 y.toNat _
      rw [hx, hy, Option.some.injEq, Prod.mk.injEq] at hread
      have hbyte : x = y := by
        have hxlt := x.toNat_lt
        have hylt := y.toNat_lt
        exact UInt8.toNat_inj.mp (by omega)
      rw [hbyte, ih hread.2]

/-- The digits are ASCII. -/
theorem hexText_ascii (bytes : Bytes) : ∀ c ∈ hexText bytes, c.toNat < 0x80 := by
  intro c hc
  obtain ⟨b, -, hc⟩ := List.mem_flatMap.mp hc
  have hdigit : ∀ n < 16, (Nat.digitChar n).toNat < 0x80 := by decide
  simp only [PyRepr.hexDigits, List.mem_cons, List.not_mem_nil, or_false] at hc
  rcases hc with rfl | rfl
  · exact hdigit _ (Nat.mod_lt _ (by omega))
  · exact hdigit _ (Nat.mod_lt _ (by omega))

end FavlGateway.Library
