/-
  Exactly which texts of a configuration are published.

  Redaction keeps the shape of a configuration, except below the values of a header map, which become
  single values: `Visible` says along which paths it goes.  At a visible place a text stays if it is a
  reference or not confidential, and everything else there becomes the mark.  So for any text but the
  mark, being published at a place is a property of the configuration: the text stands there, the
  place is visible, and the text may be seen.
-/
import FavlGateway.Registry.Confidential

namespace FavlGateway.Registry

open FavlGateway.Library

/-! ## Places -/

/-- Redaction goes along the path, from below the given keys. -/
def Visible : List String → List (Json.Step String) → Prop
  | _, [] => True
  | keys, .item _ :: path => Visible keys path
  | keys, .member _ key :: path =>
    if keys.head?.any headersKey = true then path = [] else Visible (key :: keys) path

/-- A text may be seen below these keys: it is a reference, or not confidential. -/
def Showable (keys : List String) (s : String) : Prop :=
  isReference (.str s) = true ∨ ¬ Confidential structuralKey keys

/-- The text stands in the configuration where redaction leaves it. -/
def PublishedAt (config : Json String) (keys : List String) (path : List (Json.Step String))
    (s : String) : Prop :=
  config.lookup path = some (.str s) ∧ Visible keys path ∧ Showable (Json.keysOn keys path) s

section Places

variable {key s : String} {keys outer : List String} {sensitive parentSensitive : Bool}
  {value below : Json String} {path : List (Json.Step String)} {step : Json.Step String}

theorem redacted_ne (hs : s ≠ "[redacted]") : redacted ≠ .str s := by
  intro h
  exact hs (Json.str.inj h).symm

/-- A single value is shown as a text exactly if it is that text and may be seen. -/
theorem redactValue_eq_str (hs : s ≠ "[redacted]")
    (hsensitive : sensitive = (key :: outer).any sensitiveKey)
    (hheader : outer.head?.any headersKey = false) :
    redactValue key value sensitive = .str s ↔ value = .str s ∧ Showable (key :: outer) s := by
  have hconf : Confidential structuralKey (key :: outer) ↔
      (sensitive || sensitiveKey key) = true ∨ structuralKey key = false := by
    have hkey : (sensitive || sensitiveKey key) = (key :: outer).any sensitiveKey := by
      rw [hsensitive, List.any_cons]
      cases sensitiveKey key <;> simp
    rw [hkey, Confidential, hheader]
    simp
  unfold redactValue
  split
  · rename_i href
    constructor
    · rintro rfl
      exact ⟨rfl, Or.inl href⟩
    · exact And.left
  · rename_i hno
    split
    · rename_i hhide
      constructor
      · intro h
        exact absurd h (redacted_ne hs)
      · rintro ⟨rfl, href | hshow⟩
        · exact absurd href hno
        · exact absurd (hconf.mpr (Or.inl hhide)) hshow
    · rename_i hhide
      split
      · rename_i t
        split
        · rename_i hstructural
          constructor
          · intro h
            refine ⟨h, Or.inr ?_⟩
            rw [hconf]
            rintro (hc | hc)
            · exact hhide hc
            · rw [hstructural] at hc
              cases hc
          · exact And.left
        · rename_i hstructural
          constructor
          · intro h
            exact absurd h (redacted_ne hs)
          · rintro ⟨h, hshow⟩
            cases h
            rcases hshow with href | hshow
            · exact absurd href hno
            · exact absurd (hconf.mpr (Or.inr (by simpa using hstructural))) hshow
      · rename_i hshape
        constructor
        · intro h
          exact absurd h (hshape s)
        · rintro ⟨h, -⟩
          exact absurd h (hshape s)

/-- Nothing is below a single value, nor below what redaction makes of it. -/
theorem lookup_redactValue_cons (hshape : ∀ ms, value ≠ .obj ms) (hlist : ∀ xs, value ≠ .arr xs) :
    (redactValue key value sensitive).lookup (step :: path) = none ∧
      value.lookup (step :: path) = none := by
  have hnone : value.lookup (step :: path) = none := by
    cases value with
    | obj ms => exact absurd rfl (hshape ms)
    | arr xs => exact absurd rfl (hlist xs)
    | null => cases step <;> rfl
    | bool b => cases step <;> rfl
    | number n => cases step <;> rfl
    | str t => cases step <;> rfl
  refine ⟨?_, hnone⟩
  rcases redactValue_cases key value sensitive with hkept | hmark
  · rw [hkept, hnone]
  · rw [hmark]
    cases step <;> rfl

/-- In a header map a place is visible one step down, and what it shows is a reference. -/
theorem lookup_redactHeaders {headers : Dict String} (hs : s ≠ "[redacted]") :
    (Json.obj (redactHeaders headers)).lookup (step :: path) = some (.str s) ↔
      (Json.obj headers).lookup (step :: path) = some (.str s) ∧ path = [] ∧
        isReference (.str s) = true := by
  cases step with
  | item i => simp [Json.lookup, Json.child]
  | member i key =>
    unfold redactHeaders
    rw [Json.lookup, Json.lookup,
      Json.child_map_members fun _ x => if isReference x then x else redacted]
    cases (Json.obj headers).child (.member i key) with
    | none => simp
    | some x =>
      rw [Option.map_some, Option.bind_some, Option.bind_some]
      by_cases href : isReference x = true
      · rw [if_pos href]
        cases x with
        | str t =>
          constructor
          · intro h
            have ht := Json.lookup_str h
            cases ht
            cases path with
            | nil => exact ⟨h, rfl, href⟩
            | cons step path => cases step <;> cases h
          · exact And.left
        | null => cases href
        | bool b => cases href
        | number n => cases href
        | arr xs => cases href
        | obj ms => cases href
      · rw [if_neg href]
        constructor
        · intro h
          exact absurd (Json.lookup_str h) (redacted_ne hs).symm
        · rintro ⟨h, rfl, hs'⟩
          cases h
          exact absurd hs' href

/-- The values of a header map are published if they are references. -/
theorem publishedAt_header {headers : Dict String} (hmap : headersKey key = true) :
    PublishedAt (.obj headers) (key :: outer) (step :: path) s ↔
      (Json.obj headers).lookup (step :: path) = some (.str s) ∧ path = [] ∧
        isReference (.str s) = true := by
  cases step with
  | item i => simp [PublishedAt, Json.lookup, Json.child]
  | member i k =>
    unfold PublishedAt
    simp only [Visible, List.head?_cons, Option.any_some, hmap, if_true]
    refine and_congr_right fun _ => and_congr_right ?_
    rintro rfl
    simp [Showable, Json.keysOn, Json.Step.enter, Confidential, hmap]

/-- **Where a text is published**, by induction on the path, with the flag and the keys of the value
    that is reached so far. -/
theorem lookup_redactAny (hs : s ≠ "[redacted]") (path : List (Json.Step String)) :
    ∀ {key : String} {outer : List String} {parentSensitive : Bool} {value : Json String},
      (parentSensitive || sensitiveKey key) = (key :: outer).any sensitiveKey →
      outer.head?.any headersKey = false →
      ((redactAny key parentSensitive value).lookup path = some (.str s) ↔
        PublishedAt value (key :: outer) path s) := by
  induction path with
  | nil =>
    intro key outer parentSensitive value hflag hheader
    have hsingle : (redactValue key value (parentSensitive || sensitiveKey key)).lookup [] =
        some (.str s) ↔ PublishedAt value (key :: outer) [] s := by
      rw [Json.lookup, Option.some.injEq, redactValue_eq_str hs hflag hheader]
      simp [PublishedAt, Json.lookup, Visible, Json.keysOn]
    cases value with
    | obj ms =>
      rw [redactAny]
      constructor
      · intro h
        split at h <;> cases h
      · rintro ⟨h, -⟩
        cases h
    | arr xs =>
      rw [redactAny]
      constructor
      · intro h
        cases h
      · rintro ⟨h, -⟩
        cases h
    | null => exact hsingle
    | bool b => exact hsingle
    | number n => exact hsingle
    | str t => exact hsingle
  | cons step path ih =>
    intro key outer parentSensitive value hflag hheader
    have hsingle : (∀ ms, value ≠ .obj ms) → (∀ xs, value ≠ .arr xs) →
        ((redactValue key value (parentSensitive || sensitiveKey key)).lookup (step :: path) =
          some (.str s) ↔ PublishedAt value (key :: outer) (step :: path) s) := by
      intro hshape hlist
      obtain ⟨hnone, hnone'⟩ := @lookup_redactValue_cons key (parentSensitive || sensitiveKey key)
        value path step hshape hlist
      simp [PublishedAt, hnone, hnone']
    cases value with
    | obj ms =>
      rw [redactAny]
      split
      · rename_i hkey
        have hmap : headersKey key = true := decide_eq_true hkey
        rw [lookup_redactHeaders hs, publishedAt_header hmap]
      · rename_i hkey
        have hmap : headersKey key = false := decide_eq_false hkey
        cases step with
        | item i => simp [PublishedAt, Json.lookup, Json.child]
        | member i k =>
          have hmember : ((parentSensitive || sensitiveKey key) || sensitiveKey k) =
              (k :: key :: outer).any sensitiveKey := by
            rw [hflag, List.any_cons (a := k), Bool.or_comm]
          rw [redactMembers_eq_map, Json.lookup,
            Json.child_map_members fun k x => redactAny k (parentSensitive || sensitiveKey key) x]
          cases hchild : (Json.obj ms).child (.member i k) with
          | none => simp [PublishedAt, Json.lookup, hchild]
          | some x =>
            rw [Option.map_some, Option.bind_some, ih hmember (by simp [hmap])]
            simp [PublishedAt, Json.lookup, hchild, Visible, hmap, Json.keysOn, Json.Step.enter]
    | arr xs =>
      cases step with
      | member i k => simp [redactAny, PublishedAt, Json.lookup, Json.child]
      | item i =>
        rw [redactAny, redactItems_eq_map, Json.lookup, Json.child_map_items]
        cases hchild : (Json.arr xs).child (.item i) with
        | none => simp [PublishedAt, Json.lookup, hchild]
        | some x =>
          rw [Option.map_some, Option.bind_some, ih (sensitive_carried hflag) hheader]
          simp [PublishedAt, Json.lookup, hchild, Visible, Json.keysOn, Json.Step.enter]
    | null => exact hsingle (by simp) (by simp)
    | bool b => exact hsingle (by simp) (by simp)
    | number n => exact hsingle (by simp) (by simp)
    | str t => exact hsingle (by simp) (by simp)

/-- What a header map shows of a value has nothing below it. -/
theorem place_header {x : Json String} :
    ((if isReference x then x else redacted).lookup path).isSome = true ↔ path = [] := by
  have htext : ∃ t, (if isReference x then x else redacted) = .str t := by
    by_cases href : isReference x = true
    · rw [if_pos href]
      cases x with
      | str t => exact ⟨t, rfl⟩
      | null => cases href
      | bool b => cases href
      | number n => cases href
      | arr xs => cases href
      | obj ms => cases href
    · exact ⟨_, if_neg href⟩
  obtain ⟨t, ht⟩ := htext
  rw [ht]
  cases path with
  | nil => simp [Json.lookup]
  | cons step path => cases step <;> simp [Json.lookup, Json.child]

/-- The places of the result are the visible places of the configuration. -/
theorem place_redactAny (path : List (Json.Step String)) :
    ∀ {key : String} {outer : List String} {parentSensitive : Bool} {value : Json String},
      ((redactAny key parentSensitive value).lookup path).isSome = true ↔
        (value.lookup path).isSome = true ∧ Visible (key :: outer) path := by
  induction path with
  | nil =>
    intro key outer parentSensitive value
    simp [Json.lookup, Visible]
  | cons step path ih =>
    intro key outer parentSensitive value
    have hsingle : (∀ ms, value ≠ .obj ms) → (∀ xs, value ≠ .arr xs) →
        (((redactValue key value (parentSensitive || sensitiveKey key)).lookup
          (step :: path)).isSome = true ↔ (value.lookup (step :: path)).isSome = true ∧
            Visible (key :: outer) (step :: path)) := by
      intro hshape hlist
      obtain ⟨hnone, hnone'⟩ := @lookup_redactValue_cons key (parentSensitive || sensitiveKey key)
        value path step hshape hlist
      simp [hnone, hnone']
    cases value with
    | obj ms =>
      rw [redactAny]
      cases step with
      | item i =>
        split
        · simp [Json.lookup, Json.child]
        · simp [Json.lookup, Json.child]
      | member i k =>
        split
        · rename_i hkey
          have hmap : headersKey key = true := decide_eq_true hkey
          unfold redactHeaders
          rw [Json.lookup, Json.lookup,
            Json.child_map_members fun _ x => if isReference x then x else redacted]
          cases (Json.obj ms).child (.member i k) with
          | none => simp
          | some x =>
            rw [Option.map_some, Option.bind_some, Option.bind_some, place_header]
            simp only [Visible, List.head?_cons, Option.any_some, hmap, if_true]
            constructor
            · rintro rfl
              exact ⟨rfl, rfl⟩
            · exact And.right
        · rename_i hkey
          have hmap : headersKey key = false := decide_eq_false hkey
          rw [redactMembers_eq_map, Json.lookup, Json.lookup,
            Json.child_map_members fun k x => redactAny k (parentSensitive || sensitiveKey key) x]
          cases (Json.obj ms).child (.member i k) with
          | none => simp
          | some x =>
            rw [Option.map_some, Option.bind_some, Option.bind_some,
              @ih k (key :: outer) (parentSensitive || sensitiveKey key) x]
            simp [Visible, hmap]
    | arr xs =>
      cases step with
      | member i k => simp [redactAny, Json.lookup, Json.child]
      | item i =>
        rw [redactAny, redactItems_eq_map, Json.lookup, Json.lookup, Json.child_map_items]
        cases (Json.arr xs).child (.item i) with
        | none => simp
        | some x =>
          rw [Option.map_some, Option.bind_some, Option.bind_some,
            @ih key outer (parentSensitive || sensitiveKey key) x]
          simp [Visible]
    | null => exact hsingle (by simp) (by simp)
    | bool b => exact hsingle (by simp) (by simp)
    | number n => exact hsingle (by simp) (by simp)
    | str t => exact hsingle (by simp) (by simp)

/-- **What a configuration publishes**: the texts that stand where redaction leaves them, besides the
    mark. -/
theorem lookup_redactConfig {config : Dict String} (hs : s ≠ "[redacted]") :
    (Json.obj (redactConfig config)).lookup path = some (.str s) ↔
      PublishedAt (.obj config) [] path s := by
  cases path with
  | nil =>
    constructor
    · intro h
      cases h
    · rintro ⟨h, -⟩
      cases h
  | cons step path =>
    cases step with
    | item i => simp [PublishedAt, Json.lookup, Json.child]
    | member i k =>
      have hflag : (false || sensitiveKey k) = [k].any sensitiveKey := by simp
      rw [redactConfig, redactMembers_eq_map, Json.lookup,
        Json.child_map_members fun k x => redactAny k false x]
      cases hchild : (Json.obj config).child (.member i k) with
      | none => simp [PublishedAt, Json.lookup, hchild]
      | some x =>
        rw [Option.map_some, Option.bind_some, lookup_redactAny hs path hflag rfl]
        simp [PublishedAt, Json.lookup, hchild, Visible, Json.keysOn, Json.Step.enter]

/-- The places of the published configuration. -/
theorem place_redactConfig {config : Dict String} :
    ((Json.obj (redactConfig config)).lookup path).isSome = true ↔
      ((Json.obj config).lookup path).isSome = true ∧ Visible [] path := by
  cases path with
  | nil => simp [Json.lookup, Visible]
  | cons step path =>
    cases step with
    | item i => simp [Json.lookup, Json.child]
    | member i k =>
      rw [redactConfig, redactMembers_eq_map, Json.lookup, Json.lookup,
        Json.child_map_members fun k x => redactAny k false x]
      cases (Json.obj config).child (.member i k) with
      | none => simp
      | some x =>
        rw [Option.map_some, Option.bind_some, Option.bind_some, @place_redactAny path k [] false x]
        simp [Visible]

end Places

end FavlGateway.Registry
