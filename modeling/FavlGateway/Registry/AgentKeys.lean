/-
  The idempotency key that `invoke_connector_internal` derives for an agent call (`app/main.py`).

  It is the agent's id, and a digest of the `repr` of the input's items, sorted.  The agent's id and
  the digest can be told apart, whatever is in the id, since no digest has a colon in it; and a list of
  items can be told from its `repr` (`Library.PyRepr`).  So two keys are the same exactly when the agent
  is and the items are, as they stand (`derivedKey_eq_iff`).

  Sorting makes up for the order of the input's own members.  It does not reach below them, where two
  equal values can still differ: in the order of members, and in how a number is written
  (`Library.JsonEqual`).
-/
import FavlGateway.Library.JsonEqual
import FavlGateway.Library.PyRepr
import FavlGateway.Registry.Invariants
import Mathlib.Data.List.Sort
import Mathlib.Data.String.Basic
import Mathlib.Logic.Equiv.List

namespace FavlGateway.Registry

open FavlGateway.Library

/-! ## Digests in text -/

/-- A character that the text of a UUID has, apart from its hyphens. -/
def IsHexChar (c : Char) : Prop := (Json.hexValue c).isSome = true

/-- The number that hexadecimal digits stand for. -/
def hexNumber (s : List Char) : Nat := s.foldl (fun n c => 16 * n + (Json.hexValue c).getD 0) 0

theorem hexNumber_append (s : List Char) (c : Char) :
    hexNumber (s ++ [c]) = 16 * hexNumber s + (Json.hexValue c).getD 0 := by
  rw [hexNumber, List.foldl_append]
  rfl

/-- The digits of a number in hexadecimal, and the number again. -/
theorem toDigits_hex (n : Nat) :
    (∀ c ∈ Nat.toDigits 16 n, IsHexChar c) ∧ hexNumber (Nat.toDigits 16 n) = n := by
  have hdigit : ∀ m, Json.hexValue (Nat.digitChar (m % 16)) = some (m % 16) :=
    fun m => Json.hexValue_digitChar (Nat.mod_lt m (by omega))
  induction n using Nat.strongRecOn with
  | ind n ih =>
    have hlast : IsHexChar (Nat.digitChar (n % 16)) := by
      rw [IsHexChar, hdigit]
      rfl
    by_cases h : n < 16
    · rw [Nat.toDigits_of_lt_base h]
      rw [Nat.mod_eq_of_lt h] at hlast
      constructor
      · intro c hc
        rw [List.mem_singleton.mp hc]
        exact hlast
      · have hvalue := hdigit n
        rw [Nat.mod_eq_of_lt h] at hvalue
        simp [hexNumber, hvalue]
    · obtain ⟨hchars, hnumber⟩ := ih (n / 16) (by omega)
      rw [Nat.toDigits_of_base_le (by omega) (by omega)]
      constructor
      · intro c hc
        rcases List.mem_append.mp hc with hc | hc
        · exact hchars c hc
        · rw [List.mem_singleton.mp hc]
          exact hlast
      · rw [hexNumber_append, hnumber, hdigit, Option.getD_some]
        omega

theorem hexNumber_zeros (k : Nat) (s : List Char) :
    hexNumber (List.replicate k '0' ++ s) = hexNumber s := by
  induction k with
  | zero => rfl
  | succ k ih =>
    rw [List.replicate_succ, List.cons_append, ← ih]
    rfl

/-- The 32 digits of a UUID, or more where there are more. -/
def uuidDigits (id : Uuid) : List Char := (Nat.toDigits 16 id).leftpad 32 '0'

theorem uuidDigits_injective : Function.Injective uuidDigits := by
  intro a b h
  have hnumber := congrArg hexNumber h
  rw [uuidDigits, uuidDigits, List.leftpad, List.leftpad, hexNumber_zeros, hexNumber_zeros,
    (toDigits_hex a).2, (toDigits_hex b).2] at hnumber
  exact hnumber

theorem isHexChar_of_mem_uuidDigits {id : Uuid} {c : Char} (h : c ∈ uuidDigits id) : IsHexChar c := by
  rcases List.mem_append.mp h with h | h
  · rw [List.eq_of_mem_replicate h]
    rfl
  · exact (toDigits_hex id).1 c h

theorem toList_uuidText (id : Uuid) : (uuidText id).toList =
    (uuidDigits id).take 8 ++ '-' :: ((uuidDigits id).drop 8).take 4 ++
      '-' :: ((uuidDigits id).drop 12).take 4 ++ '-' :: ((uuidDigits id).drop 16).take 4 ++
      '-' :: (uuidDigits id).drop 20 := by
  simp [uuidText, uuidDigits]

/-- Without its hyphens the text of a UUID is its digits. -/
theorem filter_uuidText (id : Uuid) :
    (uuidText id).toList.filter (fun c => c ≠ '-') = uuidDigits id := by
  have hkeep : ∀ s : List Char, (∀ c ∈ s, c ∈ uuidDigits id) →
      s.filter (fun c => c ≠ '-') = s := by
    intro s hs
    rw [List.filter_eq_self]
    intro c hc
    have hchar := isHexChar_of_mem_uuidDigits (hs c hc)
    refine decide_eq_true ?_
    rintro rfl
    cases hchar
  have htake : ∀ m n, ∀ c ∈ ((uuidDigits id).drop m).take n, c ∈ uuidDigits id :=
    fun m n c hc => List.mem_of_mem_drop (List.mem_of_mem_take hc)
  have hdrop : ∀ m, ∀ c ∈ (uuidDigits id).drop m, c ∈ uuidDigits id :=
    fun m c hc => List.mem_of_mem_drop hc
  have hhyphen : ∀ s : List Char, ('-' :: s).filter (fun c => c ≠ '-') =
      s.filter (fun c => c ≠ '-') := fun s => rfl
  have hjoin : ∀ m n, ((uuidDigits id).drop m).take n ++ (uuidDigits id).drop (m + n) =
      (uuidDigits id).drop m := by
    intro m n
    rw [← List.drop_drop, List.take_append_drop]
  rw [toList_uuidText]
  simp only [List.filter_append, hhyphen]
  rw [hkeep _ (htake 8 4), hkeep _ (htake 12 4), hkeep _ (htake 16 4), hkeep _ (hdrop 20),
    hkeep _ fun c hc => List.mem_of_mem_take hc]
  simp only [List.append_assoc]
  rw [hjoin 16 4, hjoin 12 4, hjoin 8 4, List.take_append_drop]

theorem uuidText_injective : Function.Injective uuidText := by
  intro a b h
  apply uuidDigits_injective
  rw [← filter_uuidText, ← filter_uuidText, h]

theorem colon_notMem_uuidText (id : Uuid) : ':' ∉ (uuidText id).toList := by
  intro hmem
  have hkept : ':' ∈ (uuidText id).toList.filter (fun c => c ≠ '-') :=
    List.mem_filter.mpr ⟨hmem, by decide⟩
  rw [filter_uuidText] at hkept
  cases isHexChar_of_mem_uuidDigits hkept

/-! ## The key -/

/-- The last colon of a text tells its parts. -/
theorem append_colon_inj {s s' t t' : List Char} (ht : ':' ∉ t) (ht' : ':' ∉ t')
    (h : s ++ ':' :: t = s' ++ ':' :: t') : s = s' ∧ t = t' := by
  have hall : ∀ u : List Char, ':' ∉ u → u.reverse.all (fun c => c ≠ ':') = true := by
    intro u hu
    rw [List.all_eq_true]
    intro c hc
    refine decide_eq_true ?_
    rintro rfl
    exact hu (List.mem_reverse.mp hc)
  have hstops : ∀ u : List Char, Json.Stops (fun c => c ≠ ':') (':' :: u.reverse) := by
    rintro u c ⟨⟩
    rfl
  have hreverse := congrArg List.reverse h
  simp only [List.reverse_append, List.reverse_cons, List.append_assoc, List.singleton_append]
    at hreverse
  obtain ⟨htake, hdrop⟩ := Json.span_of_stops (hall t ht) (hstops s)
  obtain ⟨htake', hdrop'⟩ := Json.span_of_stops (hall t' ht') (hstops s')
  rw [hreverse, htake'] at htake
  rw [hreverse, hdrop'] at hdrop
  exact ⟨List.reverse_injective (List.cons.inj hdrop).2.symm, List.reverse_injective htake.symm⟩

/-- The idempotency key of an internal invocation, where the input has items at all. -/
def derivedKey (env : Env) (payload : Dict String) : Option String :=
  (agentInput payload).map (agentKey env (agentId env payload))

/-- The key that the endpoint hands to `accept`. -/
theorem derivedKey_internalArgs {env : Env} {payload body : Dict String}
    (h : agentInput payload = some body) (tenantId : String) (record : ConnectorRecord) :
    derivedKey env payload = some (internalArgs env tenantId payload body record).idempotencyKey := by
  rw [derivedKey, h]
  rfl

/-- An object is taken as it is. -/
theorem agentInput_obj {payload body : Dict String} (h : payload.get? "input" = some (.obj body)) :
    agentInput payload = some body := by
  unfold agentInput
  rw [h]
  cases body with
  | nil => rfl
  | cons m ms => rfl

/-- The items of a dictionary, sorted. -/
def sortedItems (body : Dict String) : Dict String := body.insertionSort fun a b => a.1 ≤ b.1

theorem sortedItems_perm (body : Dict String) : (sortedItems body).Perm body :=
  List.perm_insertionSort _ body

/-- Sorting forgets the order of the members, and nothing else. -/
theorem sortedItems_eq_iff {b₁ b₂ : Dict String} (h₁ : (b₁.map Prod.fst).Nodup) :
    sortedItems b₁ = sortedItems b₂ ↔ b₁.Perm b₂ := by
  have htotal : Std.Total fun a b : String × Json String => a.1 ≤ b.1 :=
    ⟨fun a b => le_total a.1 b.1⟩
  have htrans : IsTrans (String × Json String) fun a b => a.1 ≤ b.1 :=
    ⟨fun a b c => le_trans (a := a.1)⟩
  constructor
  · intro h
    exact (sortedItems_perm b₁).symm.trans (h ▸ sortedItems_perm b₂)
  · intro h
    refine List.Perm.eq_of_pairwise ?_ (List.pairwise_insertionSort _ b₁)
      (List.pairwise_insertionSort _ b₂)
      ((sortedItems_perm b₁).trans (h.trans (sortedItems_perm b₂).symm))
    intro a b ha hb hab hba
    have ha' : a ∈ b₁ := (sortedItems_perm b₁).mem_iff.mp ha
    have hb' : b ∈ b₁ := h.mem_iff.mpr ((sortedItems_perm b₂).mem_iff.mp hb)
    exact List.inj_on_of_nodup_map h₁ ha' hb' (le_antisymm hab hba)

section Keys

variable {env : Env} {float : ℚ → String} {printable : Char → Bool}
  {payload₁ payload₂ body₁ body₂ : Dict String}

theorem agentKey_eq_iff (huuid5 : Function.Injective env.uuid5) {agent₁ agent₂ : String} :
    agentKey env agent₁ body₁ = agentKey env agent₂ body₂ ↔
      agent₁ = agent₂ ∧ env.repr (sortedItems body₁) = env.repr (sortedItems body₂) := by
  constructor
  · intro h
    have hlist := congrArg String.toList h
    simp only [agentKey, String.toList_append, List.append_assoc] at hlist
    have hrest := List.append_cancel_left hlist
    obtain ⟨hagent, htext⟩ := append_colon_inj (colon_notMem_uuidText _) (colon_notMem_uuidText _)
      hrest
    exact ⟨String.toList_injective hagent,
      huuid5 (uuidText_injective (String.toList_injective htext))⟩
  · rintro ⟨rfl, h⟩
    show _ ++ uuidText (env.uuid5 (env.repr (sortedItems body₁))) = _
    rw [h]
    rfl

/-- **Two keys are the same** exactly when the agent is, and the input's members are as they stand. -/
theorem derivedKey_eq_iff (hrepr : ∀ items,
      env.repr items = String.ofList (PyRepr.pairsRepr float printable items))
    (huuid5 : Function.Injective env.uuid5)
    (h₁ : payload₁.get? "input" = some (.obj body₁))
    (h₂ : payload₂.get? "input" = some (.obj body₂))
    (hplain₁ : (Json.obj body₁).plain float = true) (hplain₂ : (Json.obj body₂).plain float = true) :
    derivedKey env payload₁ = derivedKey env payload₂ ↔
      agentId env payload₁ = agentId env payload₂ ∧ body₁.Perm body₂ := by
  have hvalues : ∀ body : Dict String, (Json.obj body).plain float = true →
      ∀ m ∈ sortedItems body, m.2.plain float = true := by
    intro body hplain m hm
    rw [Json.plain, Bool.and_eq_true] at hplain
    have hmembers : ∀ ms : Dict String, Json.plainMembers float ms = true →
        ∀ m ∈ ms, m.2.plain float = true := by
      intro ms
      induction ms with
      | nil => exact fun _ _ hm => absurd hm List.not_mem_nil
      | cons m' ms ih =>
        obtain ⟨k, x⟩ := m'
        intro hms
        rw [Json.plainMembers, Bool.and_eq_true] at hms
        rw [List.forall_mem_cons]
        exact ⟨hms.1, ih hms.2⟩
    exact hmembers body hplain.2 m ((sortedItems_perm body).mem_iff.mp hm)
  have hkeys : (body₁.map Prod.fst).Nodup := by
    rw [Json.plain, Bool.and_eq_true, decide_eq_true_eq] at hplain₁
    exact hplain₁.1
  rw [derivedKey, derivedKey, agentInput_obj h₁, agentInput_obj h₂, Option.map_some,
    Option.map_some, Option.some.injEq, agentKey_eq_iff huuid5, hrepr, hrepr,
    ← sortedItems_eq_iff hkeys]
  constructor
  · rintro ⟨hagent, htext⟩
    exact ⟨hagent, PyRepr.pairsRepr_inj (hvalues _ hplain₁) (hvalues _ hplain₂)
      (String.ofList_injective htext)⟩
  · rintro ⟨hagent, hitems⟩
    exact ⟨hagent, by rw [hitems]⟩

/-- **When the key identifies the call.**  For any two payloads with objects for inputs. -/
theorem agent_key_identifies_iff (hrepr : ∀ items,
      env.repr items = String.ofList (PyRepr.pairsRepr float printable items))
    (huuid5 : Function.Injective env.uuid5)
    (h₁ : payload₁.get? "input" = some (.obj body₁))
    (h₂ : payload₂.get? "input" = some (.obj body₂))
    (hplain₁ : (Json.obj body₁).plain float = true) (hplain₂ : (Json.obj body₂).plain float = true) :
    (derivedKey env payload₁ = derivedKey env payload₂ ↔
        agentId env payload₁ = agentId env payload₂ ∧
          (Json.obj body₁).equal (.obj body₂) = true) ↔
      (agentId env payload₁ = agentId env payload₂ → (Json.obj body₁).equal (.obj body₂) = true →
        Json.sameBelow body₁ body₂ = true) := by
  have hdistinct₁ := Json.distinct_of_plain hplain₁
  have hdistinct₂ := Json.distinct_of_plain hplain₂
  rw [derivedKey_eq_iff hrepr huuid5 h₁ h₂ hplain₁ hplain₂]
  constructor
  · intro hclaim hagent hequal
    obtain ⟨-, hperm⟩ := hclaim.mpr ⟨hagent, hequal⟩
    exact (Json.perm_iff_sameBelow hdistinct₁ hdistinct₂ hequal).mp hperm
  · intro hbelow
    constructor
    · rintro ⟨hagent, hperm⟩
      exact ⟨hagent, Json.equal_of_perm hdistinct₁ hperm⟩
    · rintro ⟨hagent, hequal⟩
      exact ⟨hagent, (Json.perm_iff_sameBelow hdistinct₁ hdistinct₂ hequal).mpr
        (hbelow hagent hequal)⟩

end Keys

/-! ## Three inputs -/

/-- The digests of three inputs. -/
def exampleDigests : List (String × Uuid) :=
  [("[('q', \x7b'x': 1, 'y': 2\x7d)]", 56485353613340476426112410055553288540),
    ("[('q', \x7b'y': 2, 'x': 1\x7d)]", 276006610996879939454926619358324784956),
    ("[('q', \x7b'x': 1\x7d), ('text', 'hi')]", 134668869769187400645405252299303574886)]

/-- Any other text has a number of its own, beyond those of UUIDs. -/
def exampleUuid5 (name : String) : Uuid :=
  match exampleDigests.lookup name with
  | some digest => digest
  | none => 2 ^ 128 + Encodable.encode (name.toList.map Char.toNat)

theorem exampleUuid5_injective : Function.Injective exampleUuid5 := by
  have hcode : ∀ s t : String, Encodable.encode (s.toList.map Char.toNat) =
      Encodable.encode (t.toList.map Char.toNat) → s = t := by
    intro s t h
    have hchars : Function.Injective (List.map Char.toNat) :=
      List.map_injective_iff.mpr fun c d hcd => Char.toNat_inj.mp hcd
    exact String.toList_injective (hchars (Encodable.encode_injective h))
  have hmem : ∀ {s : String} {digest : Uuid}, exampleDigests.lookup s = some digest →
      (s, digest) ∈ exampleDigests := by
    intro s digest h
    obtain ⟨before, after, heq, -⟩ := List.lookup_eq_some_iff.mp h
    rw [heq]
    simp
  have hbound : ∀ m ∈ exampleDigests, m.2 < 2 ^ 128 := by decide
  have hapart : ∀ m ∈ exampleDigests, ∀ n ∈ exampleDigests, m.2 = n.2 → m.1 = n.1 := by decide
  intro s t h
  unfold exampleUuid5 at h
  cases hs : exampleDigests.lookup s with
  | some digest =>
    cases ht : exampleDigests.lookup t with
    | some digest' =>
      simp only [hs, ht] at h
      exact hapart _ (hmem hs) _ (hmem ht) h
    | none =>
      simp only [hs, ht] at h
      exact absurd h (ne_of_lt (Nat.lt_add_right _ (hbound _ (hmem hs))))
  | none =>
    cases ht : exampleDigests.lookup t with
    | some digest =>
      simp only [hs, ht] at h
      exact absurd h.symm (ne_of_lt (Nat.lt_add_right _ (hbound _ (hmem ht))))
    | none =>
      simp only [hs, ht] at h
      exact hcode s t (Nat.add_left_cancel h)

/-- Nothing beyond ASCII is printed as it is, and no float occurs. -/
def agentEnv : Env :=
  { sampleEnv 0 with
    str := fun value => match value with
      | .str s => s
      | _ => ""
    repr := fun items => String.ofList (PyRepr.pairsRepr (fun _ => "") (fun _ => false) items)
    uuid5 := exampleUuid5 }

/-- A call of one agent. -/
def agentCall (body : Dict String) : Dict String :=
  [("agent_id", .str "writer"), ("input", .obj body)]

/-- Two members, in one order and in the other. -/
def twoMembers : Dict String :=
  [("text", .str "hi"), ("q", .obj [("x", .number (.int 1))])]

theorem agent_key_identifies_iff_members :
    derivedKey agentEnv (agentCall twoMembers) = derivedKey agentEnv (agentCall twoMembers.reverse) ↔
      agentId agentEnv (agentCall twoMembers) = agentId agentEnv (agentCall twoMembers.reverse) ∧
        (Json.obj twoMembers).equal (.obj twoMembers.reverse) = true :=
  (@agent_key_identifies_iff agentEnv (fun _ => "") (fun _ => false) _ _ _ _ (fun _ => rfl)
    exampleUuid5_injective rfl rfl (by decide) (by decide)).mpr fun _ _ => by decide

/-- One member, with two members of its own in this order. -/
def nestedMembers (x y : String × Json String) : Dict String := [("q", .obj [x, y])]

/-- The order of members below the input's own makes another key. -/
theorem nested_order_differs : ¬ ∀ env float printable payload₁ payload₂ body₁ body₂,
    (∀ items, env.repr items = String.ofList (PyRepr.pairsRepr float printable items)) →
    Function.Injective env.uuid5 →
    Dict.get? payload₁ "input" = some (.obj body₁) → Dict.get? payload₂ "input" = some (.obj body₂) →
    (Json.obj body₁).plain float = true → (Json.obj body₂).plain float = true →
    (derivedKey env payload₁ = derivedKey env payload₂ ↔
      agentId env payload₁ = agentId env payload₂ ∧
        (Json.obj body₁).equal (.obj body₂) = true) := by
  intro h
  have hclaim := h agentEnv (fun _ => "") (fun _ => false)
    (agentCall (nestedMembers ("x", .number (.int 1)) ("y", .number (.int 2))))
    (agentCall (nestedMembers ("y", .number (.int 2)) ("x", .number (.int 1)))) _ _ (fun _ => rfl)
    exampleUuid5_injective rfl rfl (by decide) (by decide)
  have hsame := hclaim.mpr ⟨rfl, by decide⟩
  rw [@derivedKey_eq_iff agentEnv (fun _ => "") (fun _ => false) _ _ _ _ (fun _ => rfl)
    exampleUuid5_injective rfl rfl (by decide) (by decide)] at hsame
  have hmem := hsame.2.mem_iff.mp (List.mem_cons_self ..)
  exact absurd hmem (by decide)

end FavlGateway.Registry
