/-
  JSON values and text as a Python service holds them.

  `Json σ` is generic in its text type: a request body that a schema has validated holds Unicode
  text (`String`), while whatever `json.loads` makes of a foreign response body may also hold lone
  surrogates, which no Lean `String` can (`PyStr`, a list of code points).  Numbers keep Python's
  distinctions: integers, finite floats as exact rationals, and the non-finite literals that
  `json.loads` accepts by default.

  Objects keep their member order, as `dict` does.
-/
import Mathlib.Data.Rat.Defs

namespace FavlGateway.Library

/-! ## Text -/

/-- A Python `str`: any sequence of code points, lone surrogates included. -/
structure PyStr where
  codepoints : List Nat
  deriving DecidableEq, Repr

namespace PyStr

def ofString (s : String) : PyStr := ⟨s.toList.map Char.toNat⟩

instance : Coe String PyStr := ⟨ofString⟩

def append (s t : PyStr) : PyStr := ⟨s.codepoints ++ t.codepoints⟩

instance : Append PyStr := ⟨append⟩

/-- `s[:n]`. -/
def take (s : PyStr) (n : Nat) : PyStr := ⟨s.codepoints.take n⟩

def length (s : PyStr) : Nat := s.codepoints.length

def isEmpty (s : PyStr) : Bool := s.codepoints.isEmpty

end PyStr

/-- The characters `str.strip()` removes. -/
def isSpaceChar (c : Char) : Bool :=
  let n := c.toNat
  (9 ≤ n ∧ n ≤ 13) ∨ (28 ≤ n ∧ n ≤ 32) ∨ n = 0x85 ∨ n = 0xA0 ∨ n = 0x1680 ∨
    (0x2000 ≤ n ∧ n ≤ 0x200A) ∨ n = 0x2028 ∨ n = 0x2029 ∨ n = 0x202F ∨ n = 0x205F ∨ n = 0x3000

/-- `not s.strip()`. -/
def isBlank (s : String) : Bool := s.toList.all isSpaceChar

/-! ## Numbers and values -/

/-- A JSON number as Python reads it. -/
inductive Number where
  | int (n : Int)
  | float (q : ℚ)
  | negZero
  | nan
  | inf (negative : Bool)
  deriving DecidableEq

/-- Neither `NaN` nor an infinity. -/
def Number.isFinite : Number → Bool
  | int _ | float _ | negZero => true
  | nan | inf _ => false

/-- A JSON value whose text is of type `σ`. -/
inductive Json (σ : Type) where
  | null
  | bool (b : Bool)
  | number (n : Number)
  | str (s : σ)
  | arr (xs : List (Json σ))
  | obj (members : List (σ × Json σ))

/-- A `dict` with string keys. -/
abbrev Dict (σ : Type) := List (σ × Json σ)

namespace Json

variable {σ : Type}

mutual

/-- Structural equality of values; `deriving` does not reach through the nested lists. -/
def decEq [DecidableEq σ] : (a b : Json σ) → Decidable (a = b)
  | null, null => isTrue rfl
  | bool a, bool b => if h : a = b then isTrue (h ▸ rfl) else isFalse fun e => h (by injection e)
  | number a, number b =>
    if h : a = b then isTrue (h ▸ rfl) else isFalse fun e => h (by injection e)
  | str a, str b => if h : a = b then isTrue (h ▸ rfl) else isFalse fun e => h (by injection e)
  | arr xs, arr ys => match decEqList xs ys with
    | isTrue h => isTrue (h ▸ rfl)
    | isFalse h => isFalse fun e => h (by injection e)
  | obj xs, obj ys => match decEqMembers xs ys with
    | isTrue h => isTrue (h ▸ rfl)
    | isFalse h => isFalse fun e => h (by injection e)
  | null, bool _ | null, number _ | null, str _ | null, arr _ | null, obj _
  | bool _, null | bool _, number _ | bool _, str _ | bool _, arr _ | bool _, obj _
  | number _, null | number _, bool _ | number _, str _ | number _, arr _ | number _, obj _
  | str _, null | str _, bool _ | str _, number _ | str _, arr _ | str _, obj _
  | arr _, null | arr _, bool _ | arr _, number _ | arr _, str _ | arr _, obj _
  | obj _, null | obj _, bool _ | obj _, number _ | obj _, str _ | obj _, arr _ =>
    isFalse nofun

def decEqList [DecidableEq σ] : (xs ys : List (Json σ)) → Decidable (xs = ys)
  | [], [] => isTrue rfl
  | [], _ :: _ => isFalse nofun
  | _ :: _, [] => isFalse nofun
  | x :: xs, y :: ys => match decEq x y, decEqList xs ys with
    | isTrue h, isTrue h' => isTrue (h ▸ h' ▸ rfl)
    | isFalse h, _ => isFalse fun e => h (by injection e)
    | _, isFalse h => isFalse fun e => h (by injection e)

def decEqMembers [DecidableEq σ] : (xs ys : List (σ × Json σ)) → Decidable (xs = ys)
  | [], [] => isTrue rfl
  | [], _ :: _ => isFalse nofun
  | _ :: _, [] => isFalse nofun
  | (k, x) :: xs, (l, y) :: ys => match decEq x y, decEqMembers xs ys with
    | isTrue h, isTrue h' =>
      if hk : k = l then isTrue (hk ▸ h ▸ h' ▸ rfl) else isFalse fun e => hk (by injections)
    | isFalse h, _ => isFalse fun e => h (by injections)
    | _, isFalse h => isFalse fun e => h (by injections)

end

instance [DecidableEq σ] : DecidableEq (Json σ) := decEq

mutual

/-- Every text (keys included) satisfies `text` and every number is finite. -/
def storable (text : σ → Bool) : Json σ → Bool
  | null => true
  | bool _ => true
  | number n => n.isFinite
  | str s => text s
  | arr xs => storableList text xs
  | obj ms => storableMembers text ms

def storableList (text : σ → Bool) : List (Json σ) → Bool
  | [] => true
  | x :: xs => x.storable text && storableList text xs

def storableMembers (text : σ → Bool) : List (σ × Json σ) → Bool
  | [] => true
  | (k, x) :: xs => text k && x.storable text && storableMembers text xs

end

end Json

/-- The text as UTF-8 can carry it: not with a lone surrogate in it. -/
def PyStr.toString? (s : PyStr) : Option String :=
  if s.codepoints.any fun c => 0xD800 ≤ c ∧ c ≤ 0xDFFF then none
  else some (String.ofList (s.codepoints.map Char.ofNat))

/-- The text of a `String` is Unicode. -/
@[simp] theorem PyStr.toString?_ofString (s : String) : (PyStr.ofString s).toString? = some s := by
  have hscalar : (PyStr.ofString s).codepoints.any
      (fun c => decide (0xD800 ≤ c ∧ c ≤ 0xDFFF)) = false := by
    rw [List.any_eq_false]
    intro n hn
    obtain ⟨c, -, rfl⟩ := List.mem_map.mp hn
    have hvalid := c.valid
    simp only [UInt32.isValidChar, Nat.isValidChar] at hvalid
    show ¬ decide (0xD800 ≤ c.val.toNat ∧ c.val.toNat ≤ 0xDFFF) = true
    rw [decide_eq_true_eq]
    omega
  have hback : (PyStr.ofString s).codepoints.map Char.ofNat = s.toList := by
    simp [PyStr.ofString, Function.comp_def]
  rw [PyStr.toString?, hscalar, if_neg (by decide), hback, String.ofList_toList]

/-- A text is what its characters say, if none of them is NUL: that is what stands for a code point
    beyond Unicode. -/
theorem PyStr.eq_ofString_of_toString? {value : PyStr} {text : String} (h : value.toString? = some text)
    (hnul : Char.ofNat 0 ∉ text.toList) : value = PyStr.ofString text := by
  unfold PyStr.toString? at h
  split at h
  · cases h
  · rw [← Option.some.inj h, String.toList_ofList] at hnul
    have hback : ∀ c ∈ value.codepoints, (Char.ofNat c).toNat = c := by
      intro c hc
      by_cases hvalid : c.isValidChar
      · rw [Char.ofNat, dif_pos hvalid]
        rfl
      · refine absurd (List.mem_map.mpr ⟨c, hc, ?_⟩) hnul
        rw [Char.ofNat, dif_neg hvalid]
        rfl
    rw [← Option.some.inj h, PyStr.ofString, String.toList_ofList, List.map_map]
    cases value with
    | mk codepoints =>
      exact congrArg PyStr.mk ((List.map_congr_left hback).trans (List.map_id' codepoints)).symm

@[simp] theorem PyStr.ofString_inj {s t : String} :
    PyStr.ofString s = PyStr.ofString t ↔ s = t := by
  constructor
  · intro h
    have hback := congrArg PyStr.toString? h
    rw [PyStr.toString?_ofString, PyStr.toString?_ofString, Option.some.injEq] at hback
    exact hback
  · rintro rfl
    rfl

@[simp] theorem PyStr.isEmpty_ofString (s : String) :
    (PyStr.ofString s).isEmpty = decide (s = "") := by
  rw [PyStr.isEmpty, PyStr.ofString, List.isEmpty_map, Bool.eq_iff_iff, List.isEmpty_iff,
    decide_eq_true_eq, String.toList_eq_nil_iff]

namespace Json

mutual

/-- What a client reads of a value that was sent as JSON; `none` where sending it raises (a number
    that is not finite, a text that is no Unicode). -/
def render : Json PyStr → Option (Json String)
  | null => some null
  | bool b => some (bool b)
  | number n => if n.isFinite then some (number n) else none
  | str s => s.toString?.map str
  | arr xs => (renderList xs).map arr
  | obj ms => (renderMembers ms).map obj

def renderList : List (Json PyStr) → Option (List (Json String))
  | [] => some []
  | x :: xs =>
    match x.render, renderList xs with
    | some y, some ys => some (y :: ys)
    | _, _ => none

def renderMembers : List (PyStr × Json PyStr) → Option (List (String × Json String))
  | [] => some []
  | (k, x) :: ms =>
    match k.toString?, x.render, renderMembers ms with
    | some l, some y, some ns => some ((l, y) :: ns)
    | _, _, _ => none

end

mutual

/-- How many lists and objects stand one inside the other. -/
def depth : Json σ → Nat
  | null => 0
  | bool _ => 0
  | number _ => 0
  | str _ => 0
  | arr xs => depthList xs + 1
  | obj ms => depthMembers ms + 1

def depthList : List (Json σ) → Nat
  | [] => 0
  | x :: xs => max x.depth (depthList xs)

def depthMembers : List (σ × Json σ) → Nat
  | [] => 0
  | (_, x) :: ms => max x.depth (depthMembers ms)

end

/-- Python's truthiness. -/
def truthy (isEmpty : σ → Bool) : Json σ → Bool
  | null => false
  | bool b => b
  | number (.int n) => n ≠ 0
  | number (.float q) => q ≠ 0
  | number .negZero => false
  | number _ => true
  | str s => !isEmpty s
  | arr xs => !xs.isEmpty
  | obj ms => !ms.isEmpty

end Json

mutual

/-- What can be stored can be sent, if every text that can be stored is Unicode. -/
theorem Json.render_isSome {text : PyStr → Bool}
    (htext : ∀ s, text s = true → s.toString?.isSome = true) :
    ∀ v : Json PyStr, v.storable text = true → v.render.isSome = true
  | .null, _ => rfl
  | .bool _, _ => rfl
  | .number n, h => by
    rw [Json.storable] at h
    rw [Json.render, if_pos h]
    rfl
  | .str s, h => by
    rw [Json.storable] at h
    rw [Json.render, Option.isSome_map]
    exact htext s h
  | .arr xs, h => by
    rw [Json.storable] at h
    rw [Json.render, Option.isSome_map]
    exact Json.renderList_isSome htext xs h
  | .obj ms, h => by
    rw [Json.storable] at h
    rw [Json.render, Option.isSome_map]
    exact Json.renderMembers_isSome htext ms h

theorem Json.renderList_isSome {text : PyStr → Bool}
    (htext : ∀ s, text s = true → s.toString?.isSome = true) :
    ∀ xs : List (Json PyStr), Json.storableList text xs = true → (Json.renderList xs).isSome = true
  | [], _ => rfl
  | x :: xs, h => by
    rw [Json.storableList, Bool.and_eq_true] at h
    obtain ⟨y, hy⟩ := Option.isSome_iff_exists.mp (Json.render_isSome htext x h.1)
    obtain ⟨ys, hys⟩ := Option.isSome_iff_exists.mp (Json.renderList_isSome htext xs h.2)
    rw [Json.renderList, hy, hys]
    rfl

theorem Json.renderMembers_isSome {text : PyStr → Bool}
    (htext : ∀ s, text s = true → s.toString?.isSome = true) :
    ∀ ms : List (PyStr × Json PyStr), Json.storableMembers text ms = true →
      (Json.renderMembers ms).isSome = true
  | [], _ => rfl
  | (k, x) :: ms, h => by
    rw [Json.storableMembers, Bool.and_eq_true, Bool.and_eq_true] at h
    obtain ⟨l, hl⟩ := Option.isSome_iff_exists.mp (htext k h.1.1)
    obtain ⟨y, hy⟩ := Option.isSome_iff_exists.mp (Json.render_isSome htext x h.1.2)
    obtain ⟨ns, hns⟩ := Option.isSome_iff_exists.mp (Json.renderMembers_isSome htext ms h.2)
    rw [Json.renderMembers, hl, hy, hns]
    rfl

end

/-- `d.get(key)`. -/
def Dict.get? (d : Dict String) (key : String) : Option (Json String) :=
  (d.find? fun m => m.1 = key).map Prod.snd

/-- A present text, or `null`. -/
def Json.ofOption {α : Type} (f : α → Json String) : Option α → Json String
  | none => .null
  | some a => f a

end FavlGateway.Library
