/-
  Places inside a JSON value.

  * `Json.lookup` follows a path of members and items; `keysOn` collects the member keys a path
    passes, the innermost first.
  * `Json.Rel R` relates two values of one shape whose texts are related by `R`, which may look at
    the keys around the text.
-/
import FavlGateway.Library.Json

namespace FavlGateway.Library.Json

variable {σ : Type}

/-! ## Paths -/

/-- One step into a value. -/
inductive Step (σ : Type) where
  | member (i : Nat) (key : σ)
  | item (i : Nat)

/-- The keys around what a step leads to, the innermost first. -/
def Step.enter (keys : List σ) : Step σ → List σ
  | member _ key => key :: keys
  | item _ => keys

/-- The keys around what a path leads to. -/
def keysOn (keys : List σ) (path : List (Step σ)) : List σ := path.foldl Step.enter keys

def child [DecidableEq σ] : Json σ → Step σ → Option (Json σ)
  | .obj ms, .member i key => ms[i]?.bind fun m => if m.1 = key then some m.2 else none
  | .arr xs, .item i => xs[i]?
  | _, _ => none

/-- What a path leads to. -/
def lookup [DecidableEq σ] (v : Json σ) : List (Step σ) → Option (Json σ)
  | [] => some v
  | step :: path => (v.child step).bind fun c => c.lookup path

/-- Nothing is below a text. -/
theorem lookup_str [DecidableEq σ] {s : σ} {path : List (Step σ)} {w : Json σ}
    (h : (str s).lookup path = some w) : w = str s := by
  cases path with
  | nil => exact (Option.some.inj h).symm
  | cons step path =>
    rw [lookup] at h
    cases step <;> cases h

/-- A change of the members, each under its key, changes what a step leads to. -/
theorem child_map_members [DecidableEq σ] (f : σ → Json σ → Json σ) (ms : List (σ × Json σ))
    (i : Nat) (key : σ) :
    (obj (ms.map fun m => (m.1, f m.1 m.2))).child (.member i key) =
      ((obj ms).child (.member i key)).map (f key) := by
  unfold child
  dsimp only
  rw [List.getElem?_map]
  cases ms[i]? with
  | none => rfl
  | some m =>
    rw [Option.map_some, Option.bind_some, Option.bind_some]
    dsimp only
    split
    · rename_i hkey
      rw [hkey]
      rfl
    · rfl

theorem child_map_items [DecidableEq σ] (f : Json σ → Json σ) (xs : List (Json σ)) (i : Nat) :
    (arr (xs.map f)).child (.item i) = ((arr xs).child (.item i)).map f :=
  List.getElem?_map

/-! ## Related values -/

mutual

/-- Two values that differ in related texts only. -/
def Rel (R : List σ → σ → σ → Prop) (keys : List σ) : Json σ → Json σ → Prop
  | .null, .null => True
  | .bool a, .bool b => a = b
  | .number a, .number b => a = b
  | .str s, .str t => R keys s t
  | .arr xs, .arr ys => RelItems R keys xs ys
  | .obj ms, .obj ns => RelMembers R keys ms ns
  | _, _ => False

def RelItems (R : List σ → σ → σ → Prop) (keys : List σ) : List (Json σ) → List (Json σ) → Prop
  | [], [] => True
  | x :: xs, y :: ys => Rel R keys x y ∧ RelItems R keys xs ys
  | _, _ => False

def RelMembers (R : List σ → σ → σ → Prop) (keys : List σ) :
    List (σ × Json σ) → List (σ × Json σ) → Prop
  | [], [] => True
  | (k, x) :: ms, (l, y) :: ns => k = l ∧ Rel R (k :: keys) x y ∧ RelMembers R keys ms ns
  | _, _ => False

end

end FavlGateway.Library.Json
