/-
  The grammar of secret references, over all Python texts (`app/security/secrets.py`).

  `REFERENCE` is anchored with `^` and `$` and used with `match`, and `$` also matches in front of a
  final newline.  So `parse_reference` accepts exactly the references of the grammar and each of
  them with a newline behind it, which `as_text` does not give back: **`reference_grammar_iff`**.
-/
import FavlGateway.Registry.References

namespace FavlGateway.Registry

open FavlGateway.Library
open FavlGateway.Security (SecretRef SecretScope matchReference matchReference_iff refChar refField
  connectorRef)

/-! ## The parser -/

/-- `SecretNotPermitted` -/
structure SecretNotPermitted where
  reference : PyStr
  why : PyStr

/-- `parse_reference` -/
def parseReference (value : PyStr) : Except SecretNotPermitted SecretRef :=
  if Security.legacyPrefixes.any (startsWith value) then
    .error ⟨value, "direct storage references are no longer accepted; use " ++
      "secret://connector/<name>/<key>"⟩
  else
    match value.toString?.bind fun s => matchReference s.toList with
    | none => .error ⟨value, "malformed reference; expected secret://…"⟩
    | some ref => .ok ref

/-- `as_text` -/
def asText (ref : SecretRef) : PyStr := PyStr.ofString (String.ofList ref.asText)

/-! ## The grammar -/

/-- A character of `[A-Za-z0-9._-]`. -/
def IsRefChar (c : Char) : Prop :=
  ('A' ≤ c ∧ c ≤ 'Z') ∨ ('a' ≤ c ∧ c ≤ 'z') ∨ ('0' ≤ c ∧ c ≤ '9') ∨ c = '.' ∨ c = '_' ∨ c = '-'

/-- One to 128 such characters. -/
def IsRefField (s : List Char) : Prop := 1 ≤ s.length ∧ s.length ≤ 128 ∧ ∀ c ∈ s, IsRefChar c

/-- `secret://`, `connector` or `tenant`, `/`, an owner, `/`, a key, and nothing else. -/
def Grammatical (value : PyStr) : Prop :=
  ∃ scope owner key : List Char,
    (scope = "connector".toList ∨ scope = "tenant".toList) ∧ IsRefField owner ∧ IsRefField key ∧
      value = PyStr.ofString (String.ofList
        ("secret://".toList ++ scope ++ ['/'] ++ owner ++ ['/'] ++ key))

/-- `parse_reference` accepts the value if and only if the grammar has it, and what it parses to
    says what the value says. -/
def ReadExactly (value : PyStr) : Prop :=
  ((∃ ref, parseReference value = .ok ref) ↔ Grammatical value) ∧
    ∀ ref, parseReference value = .ok ref → asText ref = value

theorem refChar_iff (c : Char) : refChar c = true ↔ IsRefChar c := by
  have hupper : c.isUpper = true ↔ 'A' ≤ c ∧ c ≤ 'Z' := decide_eq_true_iff
  have hlower : c.isLower = true ↔ 'a' ≤ c ∧ c ≤ 'z' := by
    rw [← decide_eq_true_iff (p := 'a' ≤ c ∧ c ≤ 'z'), Bool.decide_and]
    rfl
  have hdigit : c.isDigit = true ↔ '0' ≤ c ∧ c ≤ '9' := by
    rw [← decide_eq_true_iff (p := '0' ≤ c ∧ c ≤ '9'), Bool.decide_and]
    rfl
  have halphanum : c.isAlphanum = (c.isUpper || c.isLower || c.isDigit) := rfl
  simp only [refChar, halphanum, hupper, hlower, hdigit, IsRefChar, Bool.or_eq_true,
    decide_eq_true_eq, or_assoc]

theorem refField_iff (s : List Char) : refField s = true ↔ IsRefField s := by
  simp only [refField, IsRefField, Bool.and_eq_true, decide_eq_true_eq, List.all_eq_true,
    refChar_iff, and_assoc]

theorem asText_chars (ref : SecretRef) :
    ref.asText = "secret://".toList ++ ref.scope.value.toList ++ ['/'] ++ ref.owner ++ ['/'] ++
      ref.key := by
  unfold SecretRef.asText SecretRef.path Security.scheme
  simp only [List.append_assoc]

/-- The texts of the grammar are the texts of references. -/
theorem grammatical_iff {value : PyStr} : Grammatical value ↔ ∃ ref, value = asText ref := by
  constructor
  · rintro ⟨scope, owner, key, hscope, howner, hkey, hvalue⟩
    obtain ⟨scope', rfl⟩ : ∃ scope' : SecretScope, scope = scope'.value.toList := by
      rcases hscope with rfl | rfl
      · exact ⟨.connector, rfl⟩
      · exact ⟨.tenant, rfl⟩
    refine ⟨⟨scope', owner, key, (refField_iff _).mpr howner, (refField_iff _).mpr hkey⟩, ?_⟩
    rw [hvalue, asText, asText_chars]
  · rintro ⟨ref, hvalue⟩
    refine ⟨ref.scope.value.toList, ref.owner, ref.key, ?_, (refField_iff _).mp ref.owner_valid,
      (refField_iff _).mp ref.key_valid, ?_⟩
    · cases ref.scope with
      | connector => exact Or.inl rfl
      | tenant => exact Or.inr rfl
    · rw [hvalue, asText, asText_chars]

/-! ## What is accepted -/

/-- A newline behind a text. -/
def withNewline (value : PyStr) : PyStr := ⟨value.codepoints ++ ['\n'.toNat]⟩

theorem withNewline_asText (ref : SecretRef) :
    withNewline (asText ref) = PyStr.ofString (String.ofList (ref.asText ++ ['\n'])) := by
  simp [withNewline, asText, PyStr.ofString]

theorem withNewline_ne (value : PyStr) : value ≠ withNewline value := by
  intro h
  have hlength := congrArg (fun v : PyStr => v.codepoints.length) h
  simp [withNewline] at hlength

theorem nul_notMem_asText (ref : SecretRef) : Char.ofNat 0 ∉ ref.asText := by
  have hscope : Char.ofNat 0 ∉ ref.scope.value.toList := by cases ref.scope <;> decide
  have howner : Char.ofNat 0 ∉ ref.owner := Security.notMem_of_refField (by decide) ref.owner_valid
  have hkey : Char.ofNat 0 ∉ ref.key := Security.notMem_of_refField (by decide) ref.key_valid
  rw [asText_chars]
  simp [hscope, howner, hkey]

/-- A reference does not begin as the legacy forms do. -/
theorem not_legacy (ref : SecretRef) (rest : List Char) :
    Security.legacyPrefixes.any
      (startsWith (PyStr.ofString (String.ofList (ref.asText ++ rest)))) = false := by
  rw [List.any_eq_false]
  intro p hp
  rw [startsWith_ofString, String.toList_ofList, asText_chars]
  have hfirst : ∀ p ∈ Security.legacyPrefixes, p.toList.head? ≠ some 's' ∧ p.toList ≠ [] := by decide
  obtain ⟨hhead, hne⟩ := hfirst p hp
  rw [List.isPrefixOf_iff_prefix]
  intro hprefix
  obtain ⟨c, cs, hp'⟩ := List.exists_cons_of_ne_nil hne
  rw [hp'] at hprefix hhead
  exact hhead (congrArg some (List.cons_prefix_cons.mp hprefix).1)

/-- **What `parse_reference` accepts**: the text of a reference, alone or with a newline. -/
theorem parseReference_iff {value : PyStr} {ref : SecretRef} :
    parseReference value = .ok ref ↔ value = asText ref ∨ value = withNewline (asText ref) := by
  rw [withNewline_asText]
  constructor
  · intro h
    unfold parseReference at h
    split at h
    · cases h
    · split at h
      · cases h
      · rename_i hfound
        cases h
        obtain ⟨text, htext, hmatch⟩ := Option.bind_eq_some_iff.mp hfound
        have hnul : Char.ofNat 0 ∉ text.toList := by
          rcases matchReference_iff.mp hmatch with hchars | hchars
          · rw [hchars]
            exact nul_notMem_asText _
          · simp [hchars, nul_notMem_asText]
        rw [PyStr.eq_ofString_of_toString? htext hnul, ← @String.ofList_toList text]
        rcases matchReference_iff.mp hmatch with hchars | hchars
        · left
          rw [hchars, asText]
        · right
          rw [hchars]
  · intro h
    obtain ⟨rest, hrest, rfl⟩ : ∃ rest, (rest = [] ∨ rest = ['\n']) ∧
        value = PyStr.ofString (String.ofList (ref.asText ++ rest)) := by
      rcases h with rfl | rfl
      · exact ⟨[], Or.inl rfl, by rw [List.append_nil, asText]⟩
      · exact ⟨['\n'], Or.inr rfl, rfl⟩
    have hmatch : matchReference (ref.asText ++ rest) = some ref := by
      rw [matchReference_iff]
      rcases hrest with rfl | rfl
      · exact Or.inl (List.append_nil _)
      · exact Or.inr rfl
    unfold parseReference
    rw [if_neg (Bool.eq_false_iff.mp (not_legacy ref rest)), PyStr.toString?_ofString,
      Option.bind_some, String.toList_ofList, hmatch]

/-- **When the parser is exact**: on every text that is no reference with a newline behind it; and
    every reference is parsed from its own text. -/
theorem reference_grammar_iff (value : PyStr) (ref : SecretRef) :
    (ReadExactly value ↔ ¬ ∃ text, Grammatical text ∧ value = withNewline text) ∧
      parseReference (asText ref) = .ok ref := by
  refine ⟨?_, parseReference_iff.mpr (Or.inl rfl)⟩
  constructor
  · rintro ⟨-, hback⟩ ⟨text, htext, rfl⟩
    obtain ⟨ref, rfl⟩ := grammatical_iff.mp htext
    have hparsed : parseReference (withNewline (asText ref)) = .ok ref :=
      parseReference_iff.mpr (Or.inr rfl)
    exact withNewline_ne _ (hback ref hparsed)
  · intro hplain
    have hown : ∀ ref, parseReference value = .ok ref → asText ref = value := by
      intro ref hparsed
      rcases parseReference_iff.mp hparsed with hvalue | hvalue
      · exact hvalue.symm
      · exact absurd ⟨asText ref, grammatical_iff.mpr ⟨ref, rfl⟩, hvalue⟩ hplain
    refine ⟨?_, hown⟩
    rw [grammatical_iff]
    constructor
    · rintro ⟨ref, hparsed⟩
      exact ⟨ref, (hown ref hparsed).symm⟩
    · rintro ⟨ref, hvalue⟩
      exact ⟨ref, parseReference_iff.mpr (Or.inl hvalue)⟩

/-- A reference with a newline behind it is accepted, and read as if it were not there. -/
theorem newline_accepted :
    withNewline (asText connectorRef) = PyStr.ofString "secret://connector/acme/api-key\n" ∧
      parseReference (withNewline (asText connectorRef)) = .ok connectorRef ∧
      ¬ Grammatical (withNewline (asText connectorRef)) ∧
      ¬ ReadExactly (withNewline (asText connectorRef)) := by
  have hparsed : parseReference (withNewline (asText connectorRef)) = .ok connectorRef :=
    parseReference_iff.mpr (Or.inr rfl)
  have hinexact : asText connectorRef ≠ withNewline (asText connectorRef) := withNewline_ne _
  refine ⟨by decide +kernel, hparsed, ?_, fun hexact => hinexact (hexact.2 connectorRef hparsed)⟩
  intro hgrammatical
  obtain ⟨ref, href⟩ := grammatical_iff.mp hgrammatical
  have hnewline : '\n' ∉ ref.asText := by
    have howner : '\n' ∉ ref.owner := Security.notMem_of_refField (by decide) ref.owner_valid
    have hkey : '\n' ∉ ref.key := Security.notMem_of_refField (by decide) ref.key_valid
    have hscope : '\n' ∉ ref.scope.value.toList := by cases ref.scope <;> decide
    rw [asText_chars]
    simp [hscope, howner, hkey]
  rw [withNewline_asText, asText, PyStr.ofString_inj, String.ofList_inj] at href
  rw [← href] at hnewline
  simp at hnewline

end FavlGateway.Registry
