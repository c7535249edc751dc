/-
  Python's text methods on code points: `lower`, `strip`, `rstrip`, `startswith`, `endswith`, `split`
  and `int`.

  What depends on the Unicode database is a table (`Unicode`): the full lower case mapping, the rule
  for a final sigma, and decimal digits.  The table carries what the database guarantees about the
  full stop, which is all that matching domain names rests on.
-/
import FavlGateway.Library.Json
import Mathlib.Data.List.DropRight
import Mathlib.Data.List.Infix

namespace FavlGateway.Library

/-- `'.'` -/
def fullStop : Nat := 0x2E

/-- Capital sigma, the one character whose lower case depends on its surroundings. -/
def capitalSigma : Nat := 0x3A3

/-- What text methods read from the Unicode database. -/
structure Unicode where
  /-- the full lower case mapping of a character -/
  lowerFull : Nat → List Nat
  /-- the capital sigma at this position of the text ends a word -/
  finalSigma : List Nat → Nat → Bool
  /-- the value of a decimal digit -/
  decimal : Nat → Option Nat
  lower_fullStop : lowerFull fullStop = [fullStop]
  lower_other : ∀ c, c ≠ fullStop → ∃ d ∈ lowerFull c, d ≠ fullStop

namespace Unicode

def lowerAt (U : Unicode) (text : List Nat) (i : Nat) (c : Nat) : List Nat :=
  if c = capitalSigma then [if U.finalSigma text i then 0x3C2 else 0x3C3] else U.lowerFull c

/-- The database restricted to ASCII. -/
def asciiLower (c : Nat) : List Nat := [if 0x41 ≤ c ∧ c ≤ 0x5A then c + 0x20 else c]

theorem asciiLower_other (c : Nat) (h : c ≠ fullStop) : ∃ d ∈ asciiLower c, d ≠ fullStop := by
  unfold asciiLower
  refine ⟨_, List.mem_singleton.mpr rfl, ?_⟩
  unfold fullStop at h ⊢
  split <;> omega

def ascii : Unicode where
  lowerFull := asciiLower
  finalSigma _ _ := false
  decimal c := if 0x30 ≤ c ∧ c ≤ 0x39 then some (c - 0x30) else none
  lower_fullStop := rfl
  lower_other := asciiLower_other

end Unicode

namespace PyStr

/-- `s.lower()` -/
def lower (U : Unicode) (s : PyStr) : PyStr :=
  ⟨(s.codepoints.mapIdx fun i c => U.lowerAt s.codepoints i c).flatten⟩

/-- `s.rstrip(".")` -/
def rstripStops (s : PyStr) : PyStr := ⟨s.codepoints.rdropWhile (· = fullStop)⟩

/-- `s.startswith(".")` -/
def startsWithStop (s : PyStr) : Bool := s.codepoints.head? = some fullStop

/-- `s.endswith(t)` -/
def endsWith (s t : PyStr) : Bool := t.codepoints.isSuffixOf s.codepoints

/-- `s.strip(chars)`, for the characters that satisfy `p` -/
def stripOf (p : Nat → Bool) (s : PyStr) : PyStr := ⟨(s.codepoints.dropWhile p).rdropWhile p⟩

/-- A character that `strip` removes. -/
def isSpace (c : Nat) : Bool := isSpaceChar (Char.ofNat c)

/-- `s.strip()` -/
def strip (s : PyStr) : PyStr := s.stripOf isSpace

/-- `s.split(sep)`, for a separator of one character -/
def split (sep : Nat) (s : PyStr) : List PyStr := (s.codepoints.splitOn sep).map PyStr.mk

/-- The digits of a number, single underscores between them dropped. -/
def digits (U : Unicode) : List Nat → Option (List Nat)
  | [] => none
  | [c] => (U.decimal c).map ([·])
  | c :: 0x5F :: rest =>
    match U.decimal c, digits U rest with
    | some d, some ds => some (d :: ds)
    | _, _ => none
  | c :: rest =>
    match U.decimal c, digits U rest with
    | some d, some ds => some (d :: ds)
    | _, _ => none

/-- More digits than this are refused. -/
def maxDigits : Nat := 4300

/-- `int(s)` without its sign; `none` where it raises -/
def natural (U : Unicode) (s : List Nat) : Option Nat :=
  (digits U s).bind fun ds =>
    if maxDigits < ds.length then none else some (ds.foldl (fun n d => 10 * n + d) 0)

/-- `int(s)`; `none` where it raises `ValueError` -/
def toInt? (U : Unicode) (s : PyStr) : Option Int :=
  match s.strip.codepoints with
  | 0x2D :: rest => (natural U rest).map fun n => -(n : Int)
  | 0x2B :: rest => (natural U rest).map Int.ofNat
  | rest => (natural U rest).map Int.ofNat

/-! ## Case and full stops -/

section Stops

variable {U : Unicode} {s t : PyStr}

theorem codepoints_lower (s : PyStr) : (s.lower U).codepoints =
    (s.codepoints.mapIdx fun i c => U.lowerAt s.codepoints i c).flatten := rfl

/-- Every character that is no full stop stays one that is none. -/
theorem lowerAt_other {text : List Nat} {i c : Nat} (h : c ≠ fullStop) :
    ∃ d ∈ U.lowerAt text i c, d ≠ fullStop := by
  unfold Unicode.lowerAt
  split
  · refine ⟨_, List.mem_singleton.mpr rfl, ?_⟩
    split <;> decide
  · exact U.lower_other c h

theorem lowerAt_fullStop {text : List Nat} {i : Nat} :
    U.lowerAt text i fullStop = [fullStop] := by
  unfold Unicode.lowerAt
  rw [if_neg (by decide), U.lower_fullStop]

/-- A name: not made of full stops alone. -/
def Names (s : PyStr) : Prop := ∃ c ∈ s.codepoints, c ≠ fullStop

theorem names_lower (h : s.Names) : (s.lower U).Names := by
  obtain ⟨c, hc, hne⟩ := h
  obtain ⟨i, hi, rfl⟩ := List.mem_iff_getElem.mp hc
  obtain ⟨d, hd, hdne⟩ : ∃ d ∈ U.lowerAt s.codepoints i s.codepoints[i], d ≠ fullStop :=
    lowerAt_other hne
  refine ⟨d, ?_, hdne⟩
  rw [codepoints_lower, List.mem_flatten]
  refine ⟨_, List.mem_mapIdx.mpr ⟨i, hi, rfl⟩, hd⟩

theorem startsWithStop_iff : s.startsWithStop = true ↔ ∃ rest, s.codepoints = fullStop :: rest := by
  unfold startsWithStop
  rw [decide_eq_true_eq]
  exact List.head?_eq_some_iff

theorem startsWithStop_lower (h : s.startsWithStop = true) :
    (s.lower U).startsWithStop = true := by
  obtain ⟨rest, hrest⟩ := startsWithStop_iff.mp h
  have hlower : ∃ rest', (s.lower U).codepoints = fullStop :: rest' := by
    rw [codepoints_lower, hrest, List.mapIdx_cons, List.flatten_cons, lowerAt_fullStop]
    exact ⟨_, rfl⟩
  exact startsWithStop_iff.mpr hlower

/-- Stripping on the right does not reach beyond a part that something is left of. -/
theorem rdropWhile_append {α : Type} {p : α → Bool} {a b : List α} (h : ∃ x ∈ b, p x = false) :
    (a ++ b).rdropWhile p = a ++ b.rdropWhile p := by
  obtain ⟨x, hx, hpx⟩ := h
  unfold List.rdropWhile
  rw [List.reverse_append, List.dropWhile_append]
  have hleft : ¬ (b.reverse.dropWhile p).isEmpty = true := by
    intro hempty
    rw [List.isEmpty_iff, List.dropWhile_eq_nil_iff] at hempty
    have hall := hempty x (List.mem_reverse.mpr hx)
    rw [hpx] at hall
    cases hall
  rw [if_neg hleft, List.reverse_append, List.reverse_reverse]

theorem names_iff : s.Names ↔ ∃ c ∈ s.codepoints, decide (c = fullStop) = false := by
  unfold Names
  simp only [decide_eq_false_iff_not, ne_eq]

/-- A leading full stop survives `rstrip`, if there is a name after it. -/
theorem startsWithStop_rstripStops (hstart : s.startsWithStop = true) (hnames : s.Names) :
    s.rstripStops.startsWithStop = true := by
  obtain ⟨rest, hrest⟩ := startsWithStop_iff.mp hstart
  have hname : ∃ c ∈ rest, decide (c = fullStop) = false := by
    obtain ⟨c, hc, hne⟩ := hnames
    rw [hrest] at hc
    rcases List.mem_cons.mp hc with rfl | hc
    · exact absurd rfl hne
    · exact ⟨c, hc, by simpa using hne⟩
  refine startsWithStop_iff.mpr ⟨rest.rdropWhile (· = fullStop), ?_⟩
  show s.codepoints.rdropWhile (· = fullStop) = _
  rw [hrest, ← List.singleton_append, rdropWhile_append hname]
  rfl

theorem endsWith_iff : s.endsWith t = true ↔ ∃ front, s.codepoints = front ++ t.codepoints := by
  unfold endsWith
  rw [List.isSuffixOf_iff_suffix]
  constructor
  · rintro ⟨front, h⟩
    exact ⟨front, h.symm⟩
  · rintro ⟨front, h⟩
    exact ⟨front, h.symm⟩

theorem endsWith_trans {r : PyStr} (h : r.endsWith s = true) (h' : s.endsWith t = true) :
    r.endsWith t = true := by
  obtain ⟨front, hr⟩ := endsWith_iff.mp h
  obtain ⟨front', hs⟩ := endsWith_iff.mp h'
  refine endsWith_iff.mpr ⟨front ++ front', ?_⟩
  rw [hr, hs, List.append_assoc]

/-- Stripping both keeps a suffix a suffix, if the suffix names something. -/
theorem endsWith_rstripStops (h : s.endsWith t = true) (hnames : t.Names) :
    s.rstripStops.endsWith t.rstripStops = true := by
  obtain ⟨front, hs⟩ := endsWith_iff.mp h
  refine endsWith_iff.mpr ⟨front, ?_⟩
  show s.codepoints.rdropWhile (· = fullStop) = front ++ t.codepoints.rdropWhile (· = fullStop)
  rw [hs, rdropWhile_append (names_iff.mp hnames)]

end Stops
end PyStr

/-! ## Occurrences -/

/-- What occurs in two parts occurs in one of them, or across the seam. -/
theorem infix_append_cases {α : Type} {p x y : List α} (h : p <:+: x ++ y) :
    p <:+: x ∨ p <:+: y ∨ ∃ q r, p = q ++ r ∧ q ≠ [] ∧ r ≠ [] ∧ q <:+ x ∧ r <+: y := by
  obtain ⟨before, after, h⟩ := h
  rw [List.append_assoc] at h
  rcases List.append_eq_append_iff.mp h with ⟨front, hx, hrest⟩ | ⟨front, hbefore, hy⟩
  · rcases List.append_eq_append_iff.mp hrest with ⟨middle, hfront, hafter⟩ | ⟨back, hp, hy⟩
    · left
      exact ⟨before, middle, by rw [hx, hfront, List.append_assoc]⟩
    · have hsuffix : front <:+ x := ⟨before, hx.symm⟩
      have hprefix : back <+: y := ⟨after, hy.symm⟩
      by_cases hfront : front = []
      · rw [hfront, List.nil_append] at hp
        exact Or.inr (Or.inl (hp ▸ hprefix.isInfix))
      · by_cases hback : back = []
        · rw [hback, List.append_nil] at hp
          exact Or.inl (hp ▸ hsuffix.isInfix)
        · exact Or.inr (Or.inr ⟨front, back, hp, hfront, hback, hsuffix, hprefix⟩)
  · right
    left
    exact ⟨front, after, by rw [List.append_assoc]; exact hy.symm⟩

/-- What occurs in none of two frames, nor begins or ends in them, occurs between them. -/
theorem infix_between {α : Type} {p a b x : List α} (ha : ¬ p <:+: a) (hb : ¬ p <:+: b)
    (hstart : ∀ q ∈ p.inits, q ≠ [] → ¬ q <:+ a) (hend : ∀ r ∈ p.tails, r ≠ [] → ¬ r <+: b)
    (h : p <:+: a ++ (x ++ b)) : p <:+: x := by
  rcases infix_append_cases h with hin | hrest | ⟨q, r, hp, hq, -, hsuffix, -⟩
  · exact absurd hin ha
  · rcases infix_append_cases hrest with hin | hin | ⟨q, r, hp, -, hr, -, hprefix⟩
    · exact hin
    · exact absurd hin hb
    · have htail : r ∈ p.tails := (List.mem_tails r p).mpr ⟨q, hp.symm⟩
      exact absurd hprefix (hend r htail hr)
  · have hinit : q ∈ p.inits := (List.mem_inits q p).mpr ⟨r, hp.symm⟩
    exact absurd hsuffix (hstart q hinit hq)

end FavlGateway.Library
