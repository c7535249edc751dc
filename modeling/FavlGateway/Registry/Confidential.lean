/-
  What leaves the service through `redactConfig`.

  Around every text of a configuration stand its keys, the innermost first.  Three things make a
  text confidential: its dict is a header map, one of its keys is sensitive, or its own key is not
  structural.  Redaction is blind to confidential texts (two configurations that differ in these
  alone give the same result), and every text of a result is the mark, a reference, or a text that
  was not confidential.
-/
import FavlGateway.Library.JsonPath
import FavlGateway.Registry.Redaction

namespace FavlGateway.Registry

open FavlGateway.Library

/-! ## Confidential texts -/

/-- `key.lower() == "headers"` -/
def headersKey (key : String) : Bool := lower key = "headers".toList

/-- The texts that redaction has to hide, by the keys around them: those in a header map, those with
    a sensitive key on their path, and those whose own key is not `structural`. -/
def Confidential (structural : String → Bool) : List String → Prop
  | [] => False
  | key :: outer =>
    outer.head?.any headersKey = true ∨ (key :: outer).any sensitiveKey = true ∨
      structural key = false

/-- Two texts that may stand in each other's place. -/
def Exchangeable (structural : String → Bool) (keys : List String) (s t : String) : Prop :=
  s = t ∨
    isReference (.str s) = false ∧ isReference (.str t) = false ∧ Confidential structural keys

/-- Two configurations that are identical except for confidential texts. -/
def SameButConfidential (structural : String → Bool) (config₁ config₂ : Dict String) : Prop :=
  Json.Rel (Exchangeable structural) [] (.obj config₁) (.obj config₂)

/-! ## Redaction, member by member -/

theorem redactItems_eq_map (key : String) (parentSensitive : Bool) (xs : List (Json String)) :
    redactItems key parentSensitive xs = xs.map (redactAny key parentSensitive) := by
  induction xs with
  | nil => rfl
  | cons x xs ih => rw [redactItems, ih, List.map_cons]

theorem redactMembers_eq_map (parentSensitive : Bool) (ms : List (String × Json String)) :
    redactMembers parentSensitive ms =
      ms.map fun m => (m.1, redactAny m.1 parentSensitive m.2) := by
  induction ms with
  | nil => rfl
  | cons m ms ih =>
    obtain ⟨k, x⟩ := m
    rw [redactMembers, ih, List.map_cons]

/-- The flag that the recursion carries: whether a key so far is sensitive. -/
theorem sensitive_carried {key : String} {outer : List String} {parentSensitive : Bool}
    (h : (parentSensitive || sensitiveKey key) = (key :: outer).any sensitiveKey) :
    ((parentSensitive || sensitiveKey key) || sensitiveKey key) =
      (key :: outer).any sensitiveKey := by
  rw [Bool.or_assoc, Bool.or_self, h]

/-! ## Redaction is blind to confidential texts -/

/-- A header map shows references, and nothing else of its values. -/
theorem header_congr {keys : List String} {x y : Json String}
    (h : Json.Rel (Exchangeable structuralKey) keys x y) :
    (if isReference x then x else redacted) = (if isReference y then y else redacted) := by
  cases x <;> cases y <;> try exact h.elim
  case str.str s t =>
    rcases h with rfl | ⟨hs, ht, -⟩
    · rfl
    · rw [hs, ht]
      rfl
  all_goals rfl

theorem redactHeaders_congr {keys : List String} :
    ∀ {ms ns : Dict String}, Json.RelMembers (Exchangeable structuralKey) keys ms ns →
      redactHeaders ms = redactHeaders ns
  | [], [], _ => rfl
  | (k, x) :: ms, (_, y) :: ns, ⟨hkey, hvalue, hrest⟩ => by
    subst hkey
    have ih := redactHeaders_congr hrest
    unfold redactHeaders at ih ⊢
    rw [List.map_cons, List.map_cons, ih, header_congr hvalue]

/-- A confidential text is replaced, outside of header maps by the rules for single values. -/
theorem redactValue_confidential {key s : String} {outer : List String} {sensitive : Bool}
    (hsensitive : sensitive = (key :: outer).any sensitiveKey)
    (hheader : outer.head?.any headersKey = false) (hs : isReference (.str s) = false)
    (hconf : Confidential structuralKey (key :: outer)) :
    redactValue key (.str s) sensitive = redacted := by
  unfold redactValue
  rw [if_neg (by simp [hs])]
  rcases hconf with hc | hc | hc
  · rw [hc] at hheader
    cases hheader
  · rw [hsensitive, hc]
    rfl
  · split
    · rfl
    · dsimp only
      rw [if_neg (by simp [hc])]

mutual

/-- One case per shape of value; in a header map the recursion stops. -/
theorem redactAny_congr {key : String} {outer : List String} {parentSensitive : Bool}
    (hflag : (parentSensitive || sensitiveKey key) = (key :: outer).any sensitiveKey)
    (hheader : outer.head?.any headersKey = false) :
    ∀ x y : Json String, Json.Rel (Exchangeable structuralKey) (key :: outer) x y →
      redactAny key parentSensitive x = redactAny key parentSensitive y
  | .null, .null, _ => rfl
  | .bool a, .bool b, h => by
    have hab : a = b := h
    rw [hab]
  | .number a, .number b, h => by
    have hab : a = b := h
    rw [hab]
  | .str s, .str t, h => by
    rcases h with rfl | ⟨hs, ht, hconf⟩
    · rfl
    · rw [redactAny, redactAny, redactValue_confidential hflag hheader hs hconf,
        redactValue_confidential hflag hheader ht hconf]
  | .arr xs, .arr ys, h => by
    have hrel : Json.RelItems (Exchangeable structuralKey) (key :: outer) xs ys := h
    rw [redactAny, redactAny, redactItems_congr (sensitive_carried hflag) hheader xs ys hrel]
  | .obj ms, .obj ns, h => by
    have hrel : Json.RelMembers (Exchangeable structuralKey) (key :: outer) ms ns := h
    rw [redactAny, redactAny]
    split
    · rw [redactHeaders_congr hrel]
    · rename_i hkey
      have hmap : headersKey key = false := decide_eq_false hkey
      rw [redactMembers_congr hflag (by simp [hmap]) ms ns hrel]

theorem redactItems_congr {key : String} {outer : List String} {parentSensitive : Bool}
    (hflag : (parentSensitive || sensitiveKey key) = (key :: outer).any sensitiveKey)
    (hheader : outer.head?.any headersKey = false) :
    ∀ xs ys : List (Json String),
      Json.RelItems (Exchangeable structuralKey) (key :: outer) xs ys →
      redactItems key parentSensitive xs = redactItems key parentSensitive ys
  | [], [], _ => rfl
  | x :: xs, y :: ys, ⟨hitem, hrest⟩ => by
    rw [redactItems, redactItems, redactAny_congr hflag hheader x y hitem,
      redactItems_congr hflag hheader xs ys hrest]

theorem redactMembers_congr {keys : List String} {parentSensitive : Bool}
    (hflag : parentSensitive = keys.any sensitiveKey)
    (hheader : keys.head?.any headersKey = false) :
    ∀ ms ns : List (String × Json String),
      Json.RelMembers (Exchangeable structuralKey) keys ms ns →
      redactMembers parentSensitive ms = redactMembers parentSensitive ns
  | [], [], _ => rfl
  | (k, x) :: ms, (_, y) :: ns, ⟨hkey, hvalue, hrest⟩ => by
    subst hkey
    have hmember : (parentSensitive || sensitiveKey k) = (k :: keys).any sensitiveKey := by
      rw [hflag, List.any_cons, Bool.or_comm]
    rw [redactMembers, redactMembers, redactAny_congr hmember hheader x y hvalue,
      redactMembers_congr hflag hheader ms ns hrest]

end

/-! ## What a result shows -/

/-- A text that a result may show at a path. -/
def Shown (config : Json String) (keys : List String) (path : List (Json.Step String))
    (s : String) : Prop :=
  Json.str s = redacted ∨ isReference (.str s) = true ∨
    config.lookup path = some (.str s) ∧ ¬ Confidential structuralKey (Json.keysOn keys path)

/-- A single value is kept or replaced. -/
theorem redactValue_cases (key : String) (value : Json String) (sensitive : Bool) :
    redactValue key value sensitive = value ∨ redactValue key value sensitive = redacted := by
  unfold redactValue
  split
  · exact Or.inl rfl
  · split
    · exact Or.inr rfl
    · split
      · split
        · exact Or.inl rfl
        · exact Or.inr rfl
      · exact Or.inl rfl

/-- A single value that is shown as a text was a text. -/
theorem shown_of_redactValue {key s : String} {outer : List String} {sensitive : Bool}
    {value : Json String} (hsensitive : sensitive = (key :: outer).any sensitiveKey)
    (hheader : outer.head?.any headersKey = false)
    (h : redactValue key value sensitive = .str s) : Shown value (key :: outer) [] s := by
  unfold redactValue at h
  split at h
  · rename_i href
    rw [h] at href
    exact Or.inr (Or.inl href)
  · split at h
    · exact Or.inl h.symm
    · rename_i hsafe
      split at h
      · rename_i text
        split at h
        · rename_i hstructural
          refine Or.inr (Or.inr ⟨congrArg some h, ?_⟩)
          rintro (hmap | hsens | hleaf)
          · rw [hheader] at hmap
            cases hmap
          · rw [hsensitive, hsens] at hsafe
            exact hsafe rfl
          · rw [hstructural] at hleaf
            cases hleaf
        · exact Or.inl h.symm
      · rename_i hshape
        exact absurd h (hshape s)

/-- What is shown below a step is shown. -/
theorem Shown.step {value below : Json String} {keys : List String} {step : Json.Step String}
    {path : List (Json.Step String)} {s : String} (hchild : value.child step = some below)
    (h : Shown below (step.enter keys) path s) : Shown value keys (step :: path) s := by
  rcases h with hmark | href | ⟨hlookup, hconf⟩
  · exact Or.inl hmark
  · exact Or.inr (Or.inl href)
  · refine Or.inr (Or.inr ⟨?_, hconf⟩)
    rw [Json.lookup, hchild]
    exact hlookup

/-- In a header map every text is a reference or the mark. -/
theorem shown_of_redactHeaders {headers : Dict String} {value : Json String} {keys : List String}
    {path whole : List (Json.Step String)} {s : String}
    (h : (Json.obj (redactHeaders headers)).lookup path = some (.str s)) :
    Shown value keys whole s := by
  cases path with
  | nil => cases h
  | cons step path =>
    cases step with
    | item i => cases h
    | member i key =>
      unfold redactHeaders at h
      rw [Json.lookup, Json.child_map_members fun _ x => if isReference x then x else redacted,
        Option.bind_map, Option.bind_eq_some_iff] at h
      obtain ⟨x, -, hx⟩ := h
      dsimp only [Function.comp] at hx
      split at hx
      · rename_i href
        -- a reference is a text: nothing else is below it
        cases x with
        | str t =>
          have hs := Json.lookup_str hx
          rw [← hs] at href
          exact Or.inr (Or.inl href)
        | _ => cases href
      · exact Or.inl (Json.lookup_str hx)

/-- By induction on the path, with the flag and the keys of the value that is reached so far. -/
theorem shown_of_redactAny {s : String} (path : List (Json.Step String)) :
    ∀ {key : String} {outer : List String} {parentSensitive : Bool} {value : Json String},
      (parentSensitive || sensitiveKey key) = (key :: outer).any sensitiveKey →
      outer.head?.any headersKey = false →
      (redactAny key parentSensitive value).lookup path = some (.str s) →
      Shown value (key :: outer) path s := by
  induction path with
  | nil =>
    intro key outer parentSensitive value hflag hheader h
    have hvalue := Option.some.inj h
    cases value with
    | obj ms =>
      rw [redactAny] at hvalue
      split at hvalue <;> cases hvalue
    | arr xs => cases hvalue
    | _ => exact shown_of_redactValue hflag hheader hvalue
  | cons step path ih =>
    intro key outer parentSensitive value hflag hheader h
    cases value with
    | obj ms =>
      rw [redactAny] at h
      split at h
      · exact shown_of_redactHeaders h
      · rename_i hkey
        have hmap : headersKey key = false := decide_eq_false hkey
        cases step with
        | item i => cases h
        | member i k =>
          rw [redactMembers_eq_map, Json.lookup,
            Json.child_map_members fun k x => redactAny k (parentSensitive || sensitiveKey key) x,
            Option.bind_map, Option.bind_eq_some_iff] at h
          obtain ⟨x, hchild, hx⟩ := h
          have hmember : ((parentSensitive || sensitiveKey key) || sensitiveKey k) =
              (k :: key :: outer).any sensitiveKey := by
            rw [hflag, List.any_cons (a := k), Bool.or_comm]
          exact (ih hmember (by simp [hmap]) hx).step hchild
    | arr xs =>
      cases step with
      | member i k => cases h
      | item i =>
        rw [redactAny, redactItems_eq_map, Json.lookup, Json.child_map_items, Option.bind_map,
          Option.bind_eq_some_iff] at h
        obtain ⟨x, hchild, hx⟩ := h
        exact (ih (sensitive_carried hflag) hheader hx).step hchild
    | _ =>
      rw [redactAny] at h
      -- nothing is below a single value, nor below the mark
      rcases redactValue_cases key _ (parentSensitive || sensitiveKey key) with hkept | hmark
      · rw [hkept] at h
        cases step <;> cases h
      · rw [hmark] at h
        cases step <;> cases h

/-- **Redaction noninterference**: two configurations that are identical except for confidential
    texts are published as the same configuration; and every text that is published is the mark, a
    reference, or a text of the configuration that is not confidential. -/
theorem redaction_noninterference :
    (∀ config₁ config₂, SameButConfidential structuralKey config₁ config₂ →
      redactConfig config₁ = redactConfig config₂) ∧
    ∀ config path s, (Json.obj (redactConfig config)).lookup path = some (.str s) →
      Shown (.obj config) [] path s := by
  constructor
  · intro config₁ config₂ hsame
    have hrel : Json.RelMembers (Exchangeable structuralKey) [] config₁ config₂ := hsame
    exact redactMembers_congr rfl rfl config₁ config₂ hrel
  · intro config path s h
    cases path with
    | nil => cases h
    | cons step path =>
      cases step with
      | item i => cases h
      | member i key =>
        rw [redactConfig, redactMembers_eq_map, Json.lookup,
          Json.child_map_members fun k x => redactAny k false x, Option.bind_map,
          Option.bind_eq_some_iff] at h
        obtain ⟨x, hchild, hx⟩ := h
        have hflag : (false || sensitiveKey key) = [key].any sensitiveKey := by simp
        exact (shown_of_redactAny path hflag rfl hx).step hchild

/-- A token under an innocuous header name is not published. -/
theorem redaction_noninterference_header :
    redactConfig [("headers", .obj [("X-Telemetry", .str "Bearer a")])] =
      redactConfig [("headers", .obj [("X-Telemetry", .str "Bearer b")])] := by
  refine redaction_noninterference.1 _ _ ⟨rfl, ⟨rfl, ?_, trivial⟩, trivial⟩
  exact Or.inr ⟨by decide, by decide, Or.inl (by decide)⟩

/-- Read with its letters as they stand, the list of structural keys would hide less than these two
    configurations differ in: a key is looked up in lower case. -/
theorem upper_case_structural_key :
    SameButConfidential structuralKeys.contains [("PATH", .str "/a")] [("PATH", .str "/b")] ∧
      redactConfig [("PATH", .str "/a")] ≠ redactConfig [("PATH", .str "/b")] := by
  constructor
  · refine ⟨rfl, Or.inr ⟨by decide, by decide, Or.inr (Or.inr ?_)⟩, trivial⟩
    decide
  · decide

end FavlGateway.Registry
