/-
  JSON text: `json.dumps` and `json.loads` with their default settings.

  `dumps` writes ASCII: what is no printable ASCII character goes out as `\uXXXX`, in two halves
  beyond the basic plane.  `loads` accepts what the standard decoder accepts, white space, both cases
  of hexadecimal digits and the three literals that are no JSON included; of the members of an object
  that share a key the last one counts.

  A number is read as one token, everything up to the first character that occurs in no number.  The
  decoder matches the longest number there and then wants a delimiter, which comes to the same: no
  delimiter occurs in a number.

  How a float is spelled is a parameter; `ReadsBack` is what Python documents of its spelling.  The
  limits on the depth of a value and on the length of an integer are left out: both functions have
  them, and raise where they are exceeded.

  The parser runs on fuel.  `loads_dumps` is the round trip: the text of a value is read back, and the
  length of the text is fuel enough.  Each reader has the lemma that it takes off the front of a text
  what the writer put there (`parseString_quote`, `parseNumber_text`, `parseValue_dumps`).
-/
import FavlGateway.Library.Binary64
import Mathlib.Data.List.Nodup
import Mathlib.Data.List.TakeWhile

namespace FavlGateway.Library

/-! ## Numbers in text -/

/-- A number in text, taken apart. -/
structure NumberToken where
  negative : Bool
  whole : List Char
  fraction : Option (List Char)
  exponent : Option Int

/-- The digits before the point: no zero in front of others. -/
def isWhole (digits : List Char) : Bool :=
  digits = ['0'] || (!digits.isEmpty && decide (digits.head? ≠ some '0'))

/-- A sign in front of a number. -/
def readSign (plus : Bool) : List Char → Bool × List Char
  | '-' :: s => (true, s)
  | '+' :: s => if plus then (false, s) else (false, '+' :: s)
  | s => (false, s)

/-- Point and digits, if there is a point. -/
def readFractionPart : List Char → Option (Option (List Char) × List Char)
  | '.' :: s =>
    if (s.takeWhile Char.isDigit).isEmpty then none
    else some (some (s.takeWhile Char.isDigit), s.dropWhile Char.isDigit)
  | s => some (none, s)

/-- The exponent, up to the end of the token. -/
def readExponent : List Char → Option (Option Int)
  | [] => some none
  | c :: s =>
    if c = 'e' ∨ c = 'E' then
      let (negative, digits) := readSign true s
      if digits.isEmpty ∨ ¬ digits.all Char.isDigit then none
      else
        let n : Int := Nat.ofDigitChars 10 digits 0
        some (some (if negative then -n else n))
    else none

def readToken (token : List Char) : Option NumberToken := do
  let (negative, s) := readSign false token
  let whole := s.takeWhile Char.isDigit
  if isWhole whole then
    let (fraction, s) ← readFractionPart (s.dropWhile Char.isDigit)
    let exponent ← readExponent s
    return ⟨negative, whole, fraction, exponent⟩
  else none

/-- The number a token denotes: an integer, or a float if it has a fraction or an exponent. -/
def NumberToken.value (t : NumberToken) : Number :=
  if t.fraction = none ∧ t.exponent = none then
    let n : Int := Nat.ofDigitChars 10 t.whole 0
    .int (if t.negative then -n else n)
  else
    let fraction := t.fraction.getD []
    let digits := Nat.ofDigitChars 10 (t.whole ++ fraction) 0
    if digits = 0 then (if t.negative then .negZero else .float 0)
    else
      let magnitude : ℚ := digits * (10 : ℚ) ^ (t.exponent.getD 0 - fraction.length)
      roundToDouble (if t.negative then -magnitude else magnitude)

/-- A character that occurs in a number. -/
def isNumberChar (c : Char) : Bool :=
  c.isDigit || c = '-' || c = '+' || c = '.' || c = 'e' || c = 'E'

/-- The spelling of a float is a number that reads back: `float(repr(x)) == x`. -/
def ReadsBack (repr : ℚ → String) (q : ℚ) : Bool :=
  (repr q).toList.all isNumberChar &&
    decide ((readToken (repr q).toList).map NumberToken.value = some (.float q))

namespace Json

/-! ## Writing -/

section Writing

variable (repr : ℚ → String)

def numberText : Number → List Char
  | .int n => if n < 0 then '-' :: Nat.toDigits 10 n.natAbs else Nat.toDigits 10 n.natAbs
  | .float q => (repr q).toList
  | .negZero => ['-', '0', '.', '0']
  | .nan => ['N', 'a', 'N']
  | .inf false => ['I', 'n', 'f', 'i', 'n', 'i', 't', 'y']
  | .inf true => ['-', 'I', 'n', 'f', 'i', 'n', 'i', 't', 'y']

/-- `\uXXXX` -/
def unicodeEscape (n : Nat) : List Char :=
  ['\\', 'u', Nat.digitChar (n / 4096 % 16), Nat.digitChar (n / 256 % 16),
    Nat.digitChar (n / 16 % 16), Nat.digitChar (n % 16)]

/-- A code point in UTF-16. -/
def utf16 (n : Nat) : List Nat :=
  if n < 0x10000 then [n]
  else [0xD800 + (n - 0x10000) / 0x400, 0xDC00 + (n - 0x10000) % 0x400]

/-- The characters with a short escape. -/
def shortEscapes : List (Char × Char) :=
  [('"', '"'), ('\\', '\\'), ('\n', 'n'), ('\r', 'r'), ('\t', 't'), (Char.ofNat 0xC, 'f'),
    (Char.ofNat 8, 'b')]

def escapeChar (c : Char) : List Char :=
  match shortEscapes.lookup c with
  | some e => ['\\', e]
  | none =>
    if 0x20 ≤ c.toNat ∧ c.toNat ≤ 0x7E then [c] else (utf16 c.toNat).flatMap unicodeEscape

/-- A text in quotation marks. -/
def quote (s : String) : List Char := '"' :: (s.toList.flatMap escapeChar ++ ['"'])

mutual

/-- `json.dumps(v)` -/
def dumps : Json String → List Char
  | null => ['n', 'u', 'l', 'l']
  | bool true => ['t', 'r', 'u', 'e']
  | bool false => ['f', 'a', 'l', 's', 'e']
  | number n => numberText repr n
  | str s => quote s
  | arr [] => ['[', ']']
  | arr (x :: xs) => '[' :: (dumps x ++ dumpsItems xs)
  | obj [] => ['\x7b', '\x7d']
  | obj ((k, x) :: ms) => '\x7b' :: (quote k ++ ':' :: ' ' :: (dumps x ++ dumpsMembers ms))

/-- The rest of an array. -/
def dumpsItems : List (Json String) → List Char
  | [] => [']']
  | x :: xs => ',' :: ' ' :: (dumps x ++ dumpsItems xs)

/-- The rest of an object. -/
def dumpsMembers : List (String × Json String) → List Char
  | [] => ['\x7d']
  | (k, x) :: ms => ',' :: ' ' :: (quote k ++ ':' :: ' ' :: (dumps x ++ dumpsMembers ms))

end

end Writing

/-! ## Reading -/

/-- The white space between tokens. -/
def isWhitespace (c : Char) : Bool := c = ' ' || c = '\t' || c = '\n' || c = '\r'

def skip (s : List Char) : List Char := s.dropWhile isWhitespace

def hexValue (c : Char) : Option Nat :=
  if c.isDigit then some (c.toNat - 0x30)
  else if 'a' ≤ c ∧ c ≤ 'f' then some (c.toNat - 0x61 + 10)
  else if 'A' ≤ c ∧ c ≤ 'F' then some (c.toNat - 0x41 + 10)
  else none

/-- The four digits of `\uXXXX`. -/
def hex4 (a b c d : Char) : Option Nat :=
  match hexValue a, hexValue b, hexValue c, hexValue d with
  | some a, some b, some c, some d => some (a * 4096 + b * 256 + c * 16 + d)
  | _, _, _, _ => none

/-- What the character after a backslash stands for. -/
def unescapeChar (c : Char) : Option Nat :=
  if c = '/' then some '/'.toNat
  else (shortEscapes.find? fun e => e.2 = c).map fun e => e.1.toNat

/-- A text up to its closing quotation mark, an escape at a time. -/
def unescape : List Char → Option (List Nat × List Char)
  | [] => none
  | '"' :: s => some ([], s)
  | '\\' :: 'u' :: a :: b :: c :: d :: s =>
    match hex4 a b c d, unescape s with
    | some n, some (units, rest) => some (n :: units, rest)
    | _, _ => none
  | '\\' :: c :: s =>
    match unescapeChar c, unescape s with
    | some n, some (units, rest) => some (n :: units, rest)
    | _, _ => none
  | c :: s =>
    if c.toNat < 0x20 then none
    else
      match unescape s with
      | some (units, rest) => some (c.toNat :: units, rest)
      | none => none

def isHigh (n : Nat) : Bool := 0xD800 ≤ n ∧ n ≤ 0xDBFF

def isLow (n : Nat) : Bool := 0xDC00 ≤ n ∧ n ≤ 0xDFFF

/-- The two halves of a character beyond the basic plane become one. -/
def joinSurrogates : List Nat → List Nat
  | h :: l :: units =>
    if isHigh h ∧ isLow l then
      (0x10000 + (h - 0xD800) * 0x400 + (l - 0xDC00)) :: joinSurrogates units
    else h :: joinSurrogates (l :: units)
  | units => units

/-- A text after its opening quotation mark. -/
def parseString (s : List Char) : Option (PyStr × List Char) :=
  match unescape s with
  | some (units, rest) => some (⟨joinSurrogates units⟩, rest)
  | none => none

def parseNumber (s : List Char) : Option (Json PyStr × List Char) :=
  match readToken (s.takeWhile isNumberChar) with
  | some token => some (.number token.value, s.dropWhile isNumberChar)
  | none => none

/-- The words that stand for a value. -/
def constants : List (String × Json PyStr) :=
  [("null", .null), ("true", .bool true), ("false", .bool false), ("NaN", .number .nan),
    ("Infinity", .number (.inf false)), ("-Infinity", .number (.inf true))]

def parseConstant (s : List Char) : Option (Json PyStr × List Char) :=
  match constants.find? fun w => s.take w.1.toList.length = w.1.toList with
  | some w => some (w.2, s.drop w.1.toList.length)
  | none => none

def parseScalar (s : List Char) : Option (Json PyStr × List Char) :=
  match parseNumber s with
  | some r => some r
  | none => parseConstant s

/-- `d[key] = value` -/
def assign (d : Dict PyStr) (key : PyStr) (value : Json PyStr) : Dict PyStr :=
  if d.any fun m => m.1 = key then d.map fun m => if m.1 = key then (key, value) else m
  else d ++ [(key, value)]

/-- `dict(pairs)` -/
def dictOf (pairs : List (PyStr × Json PyStr)) : Dict PyStr :=
  pairs.foldl (fun d m => assign d m.1 m.2) []

mutual

def parseValue : Nat → List Char → Option (Json PyStr × List Char)
  | 0, _ => none
  | fuel + 1, s =>
    match s with
    | '"' :: s =>
      match parseString s with
      | some (text, rest) => some (.str text, rest)
      | none => none
    | '[' :: s =>
      match skip s with
      | ']' :: rest => some (.arr [], rest)
      | s =>
        match parseItems fuel s with
        | some (xs, rest) => some (.arr xs, rest)
        | none => none
    | '\x7b' :: s =>
      match skip s with
      | '\x7d' :: rest => some (.obj [], rest)
      | s =>
        match parseMembers fuel s with
        | some (pairs, rest) => some (.obj (dictOf pairs), rest)
        | none => none
    | s => parseScalar s

/-- The items of an array that has some. -/
def parseItems : Nat → List Char → Option (List (Json PyStr) × List Char)
  | 0, _ => none
  | fuel + 1, s =>
    match parseValue fuel s with
    | none => none
    | some (x, s) =>
      match skip s with
      | ']' :: rest => some ([x], rest)
      | ',' :: s =>
        match parseItems fuel (skip s) with
        | some (xs, rest) => some (x :: xs, rest)
        | none => none
      | _ => none

/-- The members of an object that has some. -/
def parseMembers : Nat → List Char → Option (List (PyStr × Json PyStr) × List Char)
  | 0, _ => none
  | fuel + 1, s =>
    match s with
    | '"' :: s =>
      match parseString s with
      | none => none
      | some (key, s) =>
        match skip s with
        | ':' :: s =>
          match parseValue fuel (skip s) with
          | none => none
          | some (x, s) =>
            match skip s with
            | '\x7d' :: rest => some ([(key, x)], rest)
            | ',' :: s =>
              match parseMembers fuel (skip s) with
              | some (pairs, rest) => some ((key, x) :: pairs, rest)
              | none => none
            | _ => none
        | _ => none
    | _ => none

end

/-- `json.loads(s)` -/
def loads (s : List Char) : Option (Json PyStr) :=
  match parseValue (s.length + 1) (skip s) with
  | some (v, rest) => if (skip rest).isEmpty then some v else none
  | none => none

/-! ## Values that can be read back -/

mutual

/-- Every float reads back and no object has a key twice. -/
def plain (repr : ℚ → String) : Json String → Bool
  | null | bool _ | str _ => true
  | number (.float q) => ReadsBack repr q
  | number _ => true
  | arr xs => plainList repr xs
  | obj ms => decide (ms.map Prod.fst).Nodup && plainMembers repr ms

def plainList (repr : ℚ → String) : List (Json String) → Bool
  | [] => true
  | x :: xs => x.plain repr && plainList repr xs

def plainMembers (repr : ℚ → String) : List (String × Json String) → Bool
  | [] => true
  | (_, x) :: ms => x.plain repr && plainMembers repr ms

end

mutual

/-- The value with its texts as Python's. -/
def toPy : Json String → Json PyStr
  | null => null
  | bool b => bool b
  | number n => number n
  | str s => str (PyStr.ofString s)
  | arr xs => arr (toPyList xs)
  | obj ms => obj (toPyMembers ms)

def toPyList : List (Json String) → List (Json PyStr)
  | [] => []
  | x :: xs => x.toPy :: toPyList xs

def toPyMembers : List (String × Json String) → Dict PyStr
  | [] => []
  | (k, x) :: ms => (PyStr.ofString k, x.toPy) :: toPyMembers ms

end

/-! ## Texts -/

theorem hexValue_digitChar {n : Nat} (h : n < 16) : hexValue (Nat.digitChar n) = some n := by
  revert h
  revert n
  decide

/-- The four digits are read back. -/
theorem hex4_unicodeEscape {n : Nat} (h : n < 0x10000) :
    hex4 (Nat.digitChar (n / 4096 % 16)) (Nat.digitChar (n / 256 % 16))
      (Nat.digitChar (n / 16 % 16)) (Nat.digitChar (n % 16)) = some n := by
  have hdigit : ∀ m, hexValue (Nat.digitChar (m % 16)) = some (m % 16) :=
    fun m => hexValue_digitChar (Nat.mod_lt m (by omega))
  simp only [hex4, hdigit, Option.some.injEq]
  omega

theorem unescape_unicodeEscape {n : Nat} (h : n < 0x10000) {s rest : List Char} {units : List Nat}
    (hs : unescape s = some (units, rest)) :
    unescape (unicodeEscape n ++ s) = some (n :: units, rest) := by
  simp only [unicodeEscape, List.cons_append, List.nil_append, unescape, hex4_unicodeEscape h, hs]

theorem lt_of_char (c : Char) : c.toNat < 0x110000 ∧ ¬ (0xD800 ≤ c.toNat ∧ c.toNat ≤ 0xDFFF) := by
  have hvalid := c.valid
  simp only [UInt32.isValidChar, Nat.isValidChar] at hvalid
  show c.val.toNat < 0x110000 ∧ ¬ (0xD800 ≤ c.val.toNat ∧ c.val.toNat ≤ 0xDFFF)
  omega

theorem unescape_utf16 {c : Char} {s rest : List Char} {units : List Nat}
    (hs : unescape s = some (units, rest)) :
    unescape ((utf16 c.toNat).flatMap unicodeEscape ++ s) =
      some (utf16 c.toNat ++ units, rest) := by
  have hlt := (lt_of_char c).1
  unfold utf16
  by_cases h : c.toNat < 0x10000
  · rw [if_pos h]
    simpa using unescape_unicodeEscape h hs
  · rw [if_neg h]
    have hlow := unescape_unicodeEscape
      (show 0xDC00 + (c.toNat - 0x10000) % 0x400 < 0x10000 by omega) hs
    have hhigh := unescape_unicodeEscape
      (show 0xD800 + (c.toNat - 0x10000) / 0x400 < 0x10000 by omega) hlow
    simpa using hhigh

/-- The short escapes are read back. -/
theorem unescapeChar_of_lookup {c e : Char} (h : shortEscapes.lookup c = some e) :
    e ≠ 'u' ∧ unescapeChar e = some c.toNat ∧ c.toNat < 0x10000 := by
  have hmem : (c, e) ∈ shortEscapes := by
    obtain ⟨before, after, heq, -⟩ := List.lookup_eq_some_iff.mp h
    rw [heq]
    simp
  have hall : ∀ p ∈ shortEscapes, p.2 ≠ 'u' ∧ unescapeChar p.2 = some p.1.toNat ∧
      p.1.toNat < 0x10000 := by decide
  exact hall (c, e) hmem

/-- One character of a text is read back as its UTF-16 units. -/
theorem unescape_escapeChar (c : Char) {s rest : List Char} {units : List Nat}
    (hs : unescape s = some (units, rest)) :
    unescape (escapeChar c ++ s) = some (utf16 c.toNat ++ units, rest) := by
  unfold escapeChar
  cases hlookup : shortEscapes.lookup c with
  | some e =>
    obtain ⟨hu, hback, hlt⟩ := unescapeChar_of_lookup hlookup
    have hunits : utf16 c.toNat = [c.toNat] := if_pos hlt
    rw [hunits]
    show unescape ('\\' :: e :: s) = _
    rw [unescape]
    · rw [hback, hs]
      rfl
    · intro _ _ _ _ _ h _
      exact hu h
  | none =>
    by_cases hprintable : 0x20 ≤ c.toNat ∧ c.toNat ≤ 0x7E
    · have hunits : utf16 c.toNat = [c.toNat] := if_pos (by omega)
      have hquote : c ≠ '"' := by
        rintro rfl
        cases hlookup
      have hbackslash : c ≠ '\\' := by
        rintro rfl
        cases hlookup
      have hcontrol : ¬ c.toNat < 0x20 := by omega
      rw [hunits]
      simp only [if_pos hprintable, List.singleton_append]
      rw [unescape]
      · rw [if_neg hcontrol, hs]
      · exact hquote
      · intro _ _ _ _ _ h
        exact absurd h hbackslash
      · intro _ _ h
        exact absurd h hbackslash
    · simp only [if_neg hprintable]
      exact unescape_utf16 hs

theorem unescape_text (cs : List Char) (rest : List Char) :
    unescape (cs.flatMap escapeChar ++ '"' :: rest) =
      some (cs.flatMap fun c => utf16 c.toNat, rest) := by
  induction cs with
  | nil => simp [unescape]
  | cons c cs ih =>
    rw [List.flatMap_cons, List.append_assoc, unescape_escapeChar c ih, List.flatMap_cons]

theorem joinSurrogates_utf16 (cs : List Char) :
    joinSurrogates (cs.flatMap fun c => utf16 c.toNat) = cs.map Char.toNat := by
  induction cs with
  | nil => rfl
  | cons c cs ih =>
    obtain ⟨hlt, hscalar⟩ := lt_of_char c
    rw [List.flatMap_cons, List.map_cons, ← ih]
    generalize (cs.flatMap fun c => utf16 c.toNat) = units
    unfold utf16
    by_cases h : c.toNat < 0x10000
    · rw [if_pos h, List.singleton_append]
      have hhigh : ¬ isHigh c.toNat = true := by
        simp only [isHigh, decide_eq_true_eq]
        omega
      cases units with
      | nil => rfl
      | cons l units => rw [joinSurrogates, if_neg (fun hboth => hhigh hboth.1)]
    · have hhigh : isHigh (0xD800 + (c.toNat - 0x10000) / 0x400) = true := by
        simp only [isHigh, decide_eq_true_eq]
        omega
      have hlow : isLow (0xDC00 + (c.toNat - 0x10000) % 0x400) = true := by
        simp only [isLow, decide_eq_true_eq]
        omega
      have hboth : 0x10000 + (0xD800 + (c.toNat - 0x10000) / 0x400 - 0xD800) * 0x400 +
          (0xDC00 + (c.toNat - 0x10000) % 0x400 - 0xDC00) = c.toNat := by omega
      rw [if_neg h, List.cons_append, List.singleton_append, joinSurrogates,
        if_pos ⟨hhigh, hlow⟩, hboth]

/-- A quoted text is read back. -/
theorem parseString_quote (s : String) (rest : List Char) :
    parseString (s.toList.flatMap escapeChar ++ '"' :: rest) = some (PyStr.ofString s, rest) := by
  simp only [parseString, unescape_text, joinSurrogates_utf16]
  rfl

/-! ## Numbers -/

/-- A text does not begin with a character of the class. -/
def Stops (p : Char → Bool) (s : List Char) : Prop := ∀ c ∈ s.head?, p c = false

theorem span_of_stops {p : Char → Bool} {token rest : List Char} (htoken : token.all p = true)
    (hrest : Stops p rest) :
    (token ++ rest).takeWhile p = token ∧ (token ++ rest).dropWhile p = rest := by
  induction token with
  | nil =>
    cases rest with
    | nil => exact ⟨rfl, rfl⟩
    | cons c rest =>
      have hc : ¬ p c = true := by
        rw [hrest c rfl]
        decide
      exact ⟨List.takeWhile_cons_of_neg hc, List.dropWhile_cons_of_neg hc⟩
  | cons c token ih =>
    rw [List.all_cons, Bool.and_eq_true] at htoken
    obtain ⟨htake, hdrop⟩ := ih htoken.2
    rw [List.cons_append, List.takeWhile_cons_of_pos htoken.1, List.dropWhile_cons_of_pos htoken.1,
      htake, hdrop]
    exact ⟨rfl, rfl⟩

theorem isDigit_toDigits (n : Nat) : (Nat.toDigits 10 n).all Char.isDigit = true :=
  List.all_eq_true.mpr fun _ hc => Nat.isDigit_of_mem_toDigits (by omega) (by omega) hc

theorem digitChar_ne_zero {n : Nat} (hpos : 0 < n) (h : n < 10) : Nat.digitChar n ≠ '0' := by
  have hall : ∀ m, m < 10 → 0 < m → Nat.digitChar m ≠ '0' := by decide
  exact hall n h hpos

/-- The decimal digits of a positive number do not begin with a zero. -/
theorem head?_toDigits {n : Nat} (hpos : 0 < n) : (Nat.toDigits 10 n).head? ≠ some '0' := by
  induction n using Nat.strongRecOn with
  | ind n ih =>
    by_cases h : n < 10
    · rw [Nat.toDigits_of_lt_base h]
      simpa using digitChar_ne_zero hpos h
    · have hfront := ih (n / 10) (by omega) (by omega)
      have hne : Nat.toDigits 10 (n / 10) ≠ [] := Nat.toDigits_ne_nil
      rw [Nat.toDigits_of_base_le (by omega) (by omega), List.head?_append_of_ne_nil _ hne]
      exact hfront

theorem isWhole_toDigits (n : Nat) : isWhole (Nat.toDigits 10 n) = true := by
  by_cases hn : n = 0
  · subst hn
    decide
  · have hne : (Nat.toDigits 10 n).isEmpty = false := by
      rw [List.isEmpty_eq_false_iff]
      exact Nat.toDigits_ne_nil
    have hhead := head?_toDigits (Nat.pos_of_ne_zero hn)
    simp [isWhole, hne, hhead]

theorem readSign_digits {s : List Char} (h : s.all Char.isDigit = true) (plus : Bool) :
    readSign plus s = (false, s) := by
  cases s with
  | nil => rfl
  | cons c s =>
    have hc : c.isDigit = true := by
      rw [List.all_cons, Bool.and_eq_true] at h
      exact h.1
    rw [readSign]
    · intro _ hcons
      rw [(List.cons.inj hcons).1] at hc
      cases hc
    · intro _ hcons
      rw [(List.cons.inj hcons).1] at hc
      cases hc

/-- The digits of a number are one token. -/
theorem readToken_digits {s : List Char} {negative : Bool} (n : Nat)
    (hsign : readSign false s = (negative, Nat.toDigits 10 n)) :
    readToken s = some ⟨negative, Nat.toDigits 10 n, none, none⟩ := by
  have hspan := @span_of_stops _ _ [] (isDigit_toDigits n) (by simp [Stops])
  rw [List.append_nil] at hspan
  simp only [readToken, hsign, hspan.1, hspan.2, isWhole_toDigits, if_true, readFractionPart,
    readExponent, Option.bind_eq_bind, Option.bind_some, Option.pure_def]

theorem isNumberChar_of_isDigit {c : Char} (h : c.isDigit = true) : isNumberChar c = true := by
  simp [isNumberChar, h]

/-- The characters of an integer, and the integer they are read as. -/
theorem readToken_int (repr : ℚ → String) (n : Int) :
    (numberText repr (.int n)).all isNumberChar = true ∧
      ∃ token, readToken (numberText repr (.int n)) = some token ∧ token.value = .int n := by
  have hchars : (Nat.toDigits 10 n.natAbs).all isNumberChar = true :=
    List.all_eq_true.mpr fun c hc =>
      isNumberChar_of_isDigit (List.all_eq_true.mp (isDigit_toDigits _) c hc)
  rw [numberText]
  by_cases hneg : n < 0
  · rw [if_pos hneg]
    have hsign : readSign false ('-' :: Nat.toDigits 10 n.natAbs) =
        (true, Nat.toDigits 10 n.natAbs) := rfl
    refine ⟨by rw [List.all_cons, hchars]; rfl, _, readToken_digits _ hsign, ?_⟩
    have habs : |n| = -n := abs_of_neg hneg
    simp [NumberToken.value, habs]
  · rw [if_neg hneg]
    refine ⟨hchars, _, readToken_digits _ (readSign_digits (isDigit_toDigits _) false), ?_⟩
    have habs : |n| = n := abs_of_nonneg (by omega)
    simp [NumberToken.value, habs]

theorem parseNumber_token {token rest : List Char} {t : NumberToken}
    (hchars : token.all isNumberChar = true) (hrest : Stops isNumberChar rest)
    (ht : readToken token = some t) :
    parseNumber (token ++ rest) = some (.number t.value, rest) := by
  obtain ⟨htake, hdrop⟩ := span_of_stops hchars hrest
  simp only [parseNumber, htake, hdrop, ht]

/-- A number is read back from the front of any text that goes on with something else. -/
theorem parseScalar_numberText {repr : ℚ → String} {n : Number} {rest : List Char}
    (hplain : (number n).plain repr = true) (hrest : Stops isNumberChar rest) :
    parseScalar (numberText repr n ++ rest) = some (.number n, rest) := by
  cases n with
  | int n =>
    obtain ⟨hchars, token, htoken, hvalue⟩ := readToken_int repr n
    simp only [parseScalar, parseNumber_token hchars hrest htoken, hvalue]
  | float q =>
    have hback : ReadsBack repr q = true := hplain
    rw [ReadsBack, Bool.and_eq_true, decide_eq_true_eq, Option.map_eq_some_iff] at hback
    obtain ⟨hchars, token, htoken, hvalue⟩ := hback
    simp only [parseScalar, numberText, parseNumber_token hchars hrest htoken, hvalue]
  | negZero =>
    have htoken : readToken ['-', '0', '.', '0'] = some ⟨true, ['0'], some ['0'], none⟩ := rfl
    simp only [parseScalar, numberText, parseNumber_token (by decide) hrest htoken]
    rfl
  | nan => rfl
  | inf negative =>
    cases negative with
    | false => rfl
    | true => rfl

/-! ## The round trip -/

/-- A character that begins no bracketed or quoted value, and is no delimiter. -/
def isScalarChar (c : Char) : Bool := isNumberChar c || c = 'n' || c = 't' || c = 'f' || c = 'N' || c = 'I'

theorem of_isScalarChar {c : Char} (h : isScalarChar c = true) :
    c ≠ '"' ∧ c ≠ '[' ∧ c ≠ '\x7b' ∧ isWhitespace c = false ∧ c ≠ ']' ∧ c ≠ '\x7d' := by
  have hall : ['"', '[', '\x7b', ' ', '\t', '\n', '\r', ']', '\x7d'].all
      (fun d => !isScalarChar d) = true := rfl
  have hno : ∀ d ∈ ['"', '[', '\x7b', ' ', '\t', '\n', '\r', ']', '\x7d'], c ≠ d := by
    rintro d hd rfl
    have hc := List.all_eq_true.mp hall c hd
    rw [h] at hc
    cases hc
  have hwhite : isWhitespace c = false := by
    simp only [isWhitespace, Bool.or_eq_false_iff, decide_eq_false_iff_not]
    exact ⟨⟨⟨hno ' ' (by simp), hno '\t' (by simp)⟩, hno '\n' (by simp)⟩, hno '\r' (by simp)⟩
  exact ⟨hno '"' (by simp), hno '[' (by simp), hno '\x7b' (by simp), hwhite, hno ']' (by simp),
    hno '\x7d' (by simp)⟩

theorem head_numberText {repr : ℚ → String} {n : Number} (hplain : (number n).plain repr = true) :
    ∃ c s, numberText repr n = c :: s ∧ isScalarChar c = true := by
  have hchars : ∀ s : List Char, s ≠ [] → s.all isNumberChar = true →
      ∃ c s', s = c :: s' ∧ isScalarChar c = true := by
    intro s hne hall
    cases s with
    | nil => exact absurd rfl hne
    | cons c s =>
      rw [List.all_cons, Bool.and_eq_true] at hall
      exact ⟨c, s, rfl, by simp [isScalarChar, hall.1]⟩
  cases n with
  | int n =>
    obtain ⟨hall, token, htoken, -⟩ := readToken_int repr n
    refine hchars _ (fun hnil => ?_) hall
    rw [hnil] at htoken
    cases htoken
  | float q =>
    have hback : ReadsBack repr q = true := hplain
    rw [ReadsBack, Bool.and_eq_true, decide_eq_true_eq, Option.map_eq_some_iff] at hback
    obtain ⟨hall, token, htoken, -⟩ := hback
    refine hchars (repr q).toList (fun hnil => ?_) hall
    rw [hnil] at htoken
    cases htoken
  | negZero => exact ⟨_, _, rfl, rfl⟩
  | nan => exact ⟨_, _, rfl, rfl⟩
  | inf negative =>
    cases negative with
    | false => exact ⟨_, _, rfl, rfl⟩
    | true => exact ⟨_, _, rfl, rfl⟩

/-- The text of a value begins with no white space and no closing bracket. -/
theorem head_dumps {repr : ℚ → String} {v : Json String} (hplain : v.plain repr = true) :
    ∃ c s, dumps repr v = c :: s ∧ isWhitespace c = false ∧ c ≠ ']' ∧ c ≠ '\x7d' := by
  match v with
  | .null => exact ⟨_, _, rfl, by decide⟩
  | .bool true => exact ⟨_, _, rfl, by decide⟩
  | .bool false => exact ⟨_, _, rfl, by decide⟩
  | .number n =>
    obtain ⟨c, s, hhead, hc⟩ := head_numberText hplain
    obtain ⟨-, -, -, hwhite, hbracket, hbrace⟩ := of_isScalarChar hc
    exact ⟨c, s, hhead, hwhite, hbracket, hbrace⟩
  | .str s => exact ⟨_, _, rfl, by decide⟩
  | .arr [] => exact ⟨_, _, rfl, by decide⟩
  | .arr (_ :: _) => exact ⟨_, _, rfl, by decide⟩
  | .obj [] => exact ⟨_, _, rfl, by decide⟩
  | .obj ((_, _) :: _) => exact ⟨_, _, rfl, by decide⟩

theorem skip_dumps {repr : ℚ → String} {v : Json String} (hplain : v.plain repr = true)
    (rest : List Char) : skip (dumps repr v ++ rest) = dumps repr v ++ rest := by
  obtain ⟨c, s, hhead, hwhite, -, -⟩ := head_dumps hplain
  have hc : ¬ isWhitespace c = true := by
    rw [hwhite]
    decide
  rw [hhead, List.cons_append, skip, List.dropWhile_cons_of_neg hc]

theorem stops_items (repr : ℚ → String) (xs : List (Json String)) (rest : List Char) :
    Stops isNumberChar (dumpsItems repr xs ++ rest) := by
  cases xs with
  | nil =>
    rintro c ⟨⟩
    decide
  | cons x xs =>
    rintro c ⟨⟩
    decide

theorem stops_members (repr : ℚ → String) (ms : List (String × Json String)) (rest : List Char) :
    Stops isNumberChar (dumpsMembers repr ms ++ rest) := by
  match ms with
  | [] =>
    rintro c ⟨⟩
    decide
  | (_, _) :: _ =>
    rintro c ⟨⟩
    decide

/-- A text that begins like a scalar is read as one. -/
theorem parseValue_scalar {c : Char} {s : List Char} (hc : isScalarChar c = true) (fuel : Nat) :
    parseValue (fuel + 1) (c :: s) = parseScalar (c :: s) := by
  obtain ⟨hquote, hbracket, hbrace, -⟩ := of_isScalarChar hc
  rw [parseValue]
  · intro _ h
    exact hquote (List.cons.inj h).1
  · intro _ h
    exact hbracket (List.cons.inj h).1
  · intro _ h
    exact hbrace (List.cons.inj h).1

/-- `[` and something that does not close it at once. -/
theorem parseValue_bracket {c : Char} {s : List Char} (hwhite : isWhitespace c = false)
    (hc : c ≠ ']') (fuel : Nat) :
    parseValue (fuel + 1) ('[' :: c :: s) =
      (parseItems fuel (c :: s)).map fun r => (.arr r.1, r.2) := by
  have hskip : skip (c :: s) = c :: s :=
    List.dropWhile_cons_of_neg (by rw [hwhite]; decide)
  rw [parseValue]
  simp only [hskip]
  split
  · rename_i h
    exact absurd (List.cons.inj h).1 hc
  · cases parseItems fuel (c :: s) with
    | none => rfl
    | some r => rfl

/-- An object that has a member. -/
theorem parseValue_brace {s : List Char} (fuel : Nat) :
    parseValue (fuel + 1) ('\x7b' :: '"' :: s) =
      (parseMembers fuel ('"' :: s)).map fun r => (.obj (dictOf r.1), r.2) := by
  have hskip : skip ('"' :: s) = '"' :: s := List.dropWhile_cons_of_neg (by decide)
  rw [parseValue]
  simp only [hskip]
  split
  · rename_i h
    exact absurd (List.cons.inj h).1 (by decide)
  · cases parseMembers fuel ('"' :: s) with
    | none => rfl
    | some r => rfl

theorem keys_toPyMembers (ms : List (String × Json String)) :
    (toPyMembers ms).map Prod.fst = (ms.map Prod.fst).map PyStr.ofString := by
  induction ms with
  | nil => rfl
  | cons m ms ih =>
    obtain ⟨k, x⟩ := m
    rw [toPyMembers, List.map_cons, List.map_cons, List.map_cons, ih]

/-- A dictionary is made of pairs with different keys as they are. -/
theorem dictOf_nodup {pairs : Dict PyStr} (h : (pairs.map Prod.fst).Nodup) :
    dictOf pairs = pairs := by
  have hfold : ∀ (pairs d : Dict PyStr), ((d ++ pairs).map Prod.fst).Nodup →
      pairs.foldl (fun d m => assign d m.1 m.2) d = d ++ pairs := by
    intro pairs
    induction pairs with
    | nil =>
      intro d _
      rw [List.append_nil]
      rfl
    | cons m pairs ih =>
      intro d hd
      -- the key is not there yet
      have hnew : (d.any fun n => n.1 = m.1) = false := by
        rw [List.any_eq_false]
        intro n hn heq
        rw [List.map_append, List.map_cons, List.nodup_append] at hd
        refine hd.2.2 n.1 (List.mem_map_of_mem hn) m.1 (by simp) ?_
        simpa using heq
      have hassign : assign d m.1 m.2 = d ++ [m] := by
        rw [assign, hnew]
        rfl
      rw [List.foldl_cons, hassign, ih, List.append_assoc]
      · rfl
      · rw [List.append_assoc]
        exact hd
  have hpairs := hfold pairs [] (by rw [List.nil_append]; exact h)
  rwa [List.nil_append] at hpairs

theorem dictOf_toPyMembers {ms : List (String × Json String)} (h : (ms.map Prod.fst).Nodup) :
    dictOf (toPyMembers ms) = toPyMembers ms := by
  refine dictOf_nodup ?_
  rw [keys_toPyMembers]
  exact List.Nodup.map (fun _ _ heq => PyStr.ofString_inj.mp heq) h

mutual

/-- The text of a value is read back from the front of any text that goes on with something else;
    its length is fuel enough. -/
theorem parseValue_dumps {repr : ℚ → String} : ∀ (v : Json String) (fuel : Nat) (rest : List Char),
    v.plain repr = true → (dumps repr v).length ≤ fuel → Stops isNumberChar rest →
      parseValue fuel (dumps repr v ++ rest) = some (v.toPy, rest)
  | v, 0, rest, hplain, hfuel, _ => by
    obtain ⟨c, s, hhead, -⟩ := head_dumps hplain
    rw [hhead] at hfuel
    cases hfuel
  | .null, fuel + 1, rest, _, _, _ => by
    show parseValue (fuel + 1) ('n' :: _) = _
    rw [parseValue_scalar rfl]
    rfl
  | .bool true, fuel + 1, rest, _, _, _ => by
    show parseValue (fuel + 1) ('t' :: _) = _
    rw [parseValue_scalar rfl]
    rfl
  | .bool false, fuel + 1, rest, _, _, _ => by
    show parseValue (fuel + 1) ('f' :: _) = _
    rw [parseValue_scalar rfl]
    rfl
  | .number n, fuel + 1, rest, hplain, _, hrest => by
    have hscalar := parseScalar_numberText hplain hrest
    obtain ⟨c, s, hhead, hc⟩ := head_numberText hplain
    show parseValue (fuel + 1) (numberText repr n ++ rest) = _
    rw [hhead, List.cons_append] at hscalar ⊢
    rw [parseValue_scalar hc, hscalar]
    rfl
  | .str s, fuel + 1, rest, _, _, _ => by
    have htext := parseString_quote s rest
    show parseValue (fuel + 1) ('"' :: (s.toList.flatMap escapeChar ++ ['"'] ++ rest)) = _
    rw [List.append_assoc, List.singleton_append, parseValue]
    simp only [htext]
    rfl
  | .arr [], fuel + 1, rest, _, _, _ => rfl
  | .arr (x :: xs), fuel + 1, rest, hplain, hfuel, _ => by
    have hx : x.plain repr = true := by
      rw [plain, plainList, Bool.and_eq_true] at hplain
      exact hplain.1
    obtain ⟨c, s, hhead, hwhite, hbracket, -⟩ := head_dumps hx
    have hitems := parseItems_dumps (x :: xs) x xs rfl fuel rest hplain
      (by
        rw [dumps, List.length_cons] at hfuel
        omega)
    show parseValue (fuel + 1) ('[' :: (dumps repr x ++ dumpsItems repr xs ++ rest)) = _
    rw [hhead] at hitems ⊢
    rw [List.cons_append, List.cons_append] at hitems ⊢
    rw [parseValue_bracket hwhite hbracket, hitems]
    rfl
  | .obj [], fuel + 1, rest, _, _, _ => rfl
  | .obj ((k, x) :: ms), fuel + 1, rest, hplain, hfuel, _ => by
    rw [plain, Bool.and_eq_true, decide_eq_true_eq] at hplain
    have hmembers := parseMembers_dumps ((k, x) :: ms) k x ms rfl fuel rest hplain.2
      (by
        rw [dumps, List.length_cons] at hfuel
        omega)
    show parseValue (fuel + 1)
      ('\x7b' :: (quote k ++ ':' :: ' ' :: (dumps repr x ++ dumpsMembers repr ms) ++ rest)) = _
    rw [quote, List.cons_append, List.cons_append] at hmembers ⊢
    rw [parseValue_brace, hmembers, Option.map_some, dictOf_toPyMembers hplain.1]
    rfl

theorem parseItems_dumps {repr : ℚ → String} : ∀ (items : List (Json String)) (x : Json String)
    (xs : List (Json String)), items = x :: xs → ∀ (fuel : Nat) (rest : List Char),
      plainList repr items = true → (dumps repr x ++ dumpsItems repr xs).length ≤ fuel →
      parseItems fuel (dumps repr x ++ dumpsItems repr xs ++ rest) = some (toPyList items, rest)
  | [], _, _, h, _, _, _, _ => by cases h
  | x :: xs, _, _, rfl, 0, rest, hplain, hfuel => by
    rw [plainList, Bool.and_eq_true] at hplain
    obtain ⟨c, s, hhead, -⟩ := head_dumps hplain.1
    rw [hhead] at hfuel
    cases hfuel
  | x :: xs, _, _, rfl, fuel + 1, rest, hplain, hfuel => by
    rw [plainList, Bool.and_eq_true] at hplain
    rw [List.length_append] at hfuel
    have hvalue := parseValue_dumps x fuel (dumpsItems repr xs ++ rest) hplain.1
      (by
        have hpos : 1 ≤ (dumpsItems repr xs).length := by cases xs <;> simp [dumpsItems]
        omega)
      (stops_items repr xs rest)
    rw [List.append_assoc, parseItems, hvalue]
    match xs, hplain.2, hfuel with
    | [], _, _ => rfl
    | y :: ys, hys, hfuel =>
      have hy : y.plain repr = true := by
        rw [plainList, Bool.and_eq_true] at hys
        exact hys.1
      have hitems := parseItems_dumps (y :: ys) y ys rfl fuel rest hys
        (by
          rw [dumpsItems, List.length_cons, List.length_cons] at hfuel
          omega)
      have hskip : skip (' ' :: (dumps repr y ++ dumpsItems repr ys ++ rest)) =
          dumps repr y ++ dumpsItems repr ys ++ rest := by
        rw [List.append_assoc]
        exact skip_dumps hy _
      show (match parseItems fuel (skip (' ' :: (dumps repr y ++ dumpsItems repr ys ++ rest))) with
        | some (xs, rest) => some (x.toPy :: xs, rest)
        | none => none) = _
      rw [hskip, hitems]
      rfl

theorem parseMembers_dumps {repr : ℚ → String} : ∀ (members : List (String × Json String))
    (k : String) (x : Json String) (ms : List (String × Json String)), members = (k, x) :: ms →
    ∀ (fuel : Nat) (rest : List Char), plainMembers repr members = true →
      (quote k ++ ':' :: ' ' :: (dumps repr x ++ dumpsMembers repr ms)).length ≤ fuel →
      parseMembers fuel (quote k ++ ':' :: ' ' :: (dumps repr x ++ dumpsMembers repr ms) ++ rest) =
        some (toPyMembers members, rest)
  | [], _, _, _, h, _, _, _, _ => by cases h
  | (k, x) :: ms, _, _, _, rfl, 0, rest, hplain, hfuel => by
    rw [quote] at hfuel
    cases hfuel
  | (k, x) :: ms, _, _, _, rfl, fuel + 1, rest, hplain, hfuel => by
    rw [plainMembers, Bool.and_eq_true] at hplain
    simp only [List.length_append, List.length_cons] at hfuel
    have hkey := parseString_quote k
      (':' :: ' ' :: (dumps repr x ++ dumpsMembers repr ms) ++ rest)
    have hvalue := parseValue_dumps x fuel (dumpsMembers repr ms ++ rest) hplain.1 (by omega)
      (stops_members repr ms rest)
    have hskip : skip (' ' :: (dumps repr x ++ (dumpsMembers repr ms ++ rest))) =
        dumps repr x ++ (dumpsMembers repr ms ++ rest) := skip_dumps hplain.1 _
    rw [quote]
    simp only [List.cons_append, List.append_assoc, List.nil_append] at hkey ⊢
    rw [parseMembers, hkey]
    show (match parseValue fuel (skip (' ' :: (dumps repr x ++ (dumpsMembers repr ms ++ rest)))) with
      | none => none
      | some (x, s) => _) = _
    rw [hskip, hvalue]
    match ms, hplain.2, hfuel with
    | [], _, _ => rfl
    | (l, y) :: ns, hns, hfuel =>
      have hmembers := parseMembers_dumps ((l, y) :: ns) l y ns rfl fuel rest hns
        (by
          simp only [dumpsMembers, List.length_append, List.length_cons] at hfuel ⊢
          omega)
      have hskip : skip (' ' :: (quote l ++ ':' :: ' ' :: (dumps repr y ++ dumpsMembers repr ns) ++
          rest)) = quote l ++ ':' :: ' ' :: (dumps repr y ++ dumpsMembers repr ns) ++ rest := rfl
      show (match parseMembers fuel (skip (' ' :: (quote l ++ ':' :: ' ' ::
          (dumps repr y ++ dumpsMembers repr ns) ++ rest))) with
        | some (pairs, rest) => some ((PyStr.ofString k, x.toPy) :: pairs, rest)
        | none => none) = _
      rw [hskip, hmembers]
      rfl

end

/-- **What `dumps` writes, `loads` reads back.** -/
theorem loads_dumps {repr : ℚ → String} {v : Json String} (h : v.plain repr = true) :
    loads (dumps repr v) = some v.toPy := by
  have hskip := skip_dumps h []
  have hvalue := parseValue_dumps v ((dumps repr v).length + 1) [] h (by omega) (by simp [Stops])
  rw [List.append_nil] at hskip hvalue
  simp only [loads, hskip, hvalue]
  rfl

end Json
end FavlGateway.Library
