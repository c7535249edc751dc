/-
  `datetime.datetime`, its text and the reading of that text.

  A `Datetime` is its fields, with the offset from UTC where it is aware, and carries that the
  constructor would accept them.  `isoformat` leaves the fraction out when it is zero, and the seconds
  of the offset likewise.

  `fromisoformat` accepts the spelling that `isoformat` writes and a number of others; which others
  differs between the versions of the interpreter.  The canonical spelling is read here; what is made
  of any other text is a parameter.

  Each reader takes its part off the front of the text and is followed by the lemma that it gives back
  what the writer wrote, whatever comes after (`readDigits_padded`, `readTime_timeText`,
  `readOffset_offsetText`); the round trip `readIso_isoformat` puts them together.
-/
import FavlGateway.Library.Json
import FavlGateway.Library.Time
import Mathlib.Data.Nat.Basic
import Mathlib.Tactic.Ring

namespace FavlGateway.Library

/-! ## Values -/

/-- The Gregorian leap year rule. -/
def isLeapYear (year : Nat) : Bool := year % 4 = 0 && (year % 100 ≠ 0 || year % 400 = 0)

def daysInMonth (year month : Nat) : Nat :=
  if month = 2 then (if isLeapYear year then 29 else 28)
  else if month = 4 ∨ month = 6 ∨ month = 9 ∨ month = 11 then 30 else 31

/-- The fields of a `datetime`; `offset` is `utcoffset()` in microseconds. -/
structure DatetimeFields where
  year : Nat
  month : Nat
  day : Nat
  hour : Nat
  minute : Nat
  second : Nat
  microsecond : Nat
  offset : Option Int
  deriving DecidableEq, Repr

/-- What the constructors of `datetime` and `timezone` check. -/
def DatetimeFields.Valid (f : DatetimeFields) : Prop :=
  (1 ≤ f.year ∧ f.year ≤ 9999) ∧ (1 ≤ f.month ∧ f.month ≤ 12) ∧
    (1 ≤ f.day ∧ f.day ≤ daysInMonth f.year f.month) ∧ f.hour < 24 ∧ f.minute < 60 ∧
    f.second < 60 ∧ f.microsecond < 1000000 ∧ ∀ o ∈ f.offset, o.natAbs < 86400000000

instance (f : DatetimeFields) : Decidable f.Valid := by
  unfold DatetimeFields.Valid
  infer_instance

/-- A `datetime`. -/
abbrev Datetime := { f : DatetimeFields // f.Valid }

namespace Datetime

/-- `dt.tzinfo` is set. -/
def isAware (d : Datetime) : Bool := d.val.offset.isSome

/-- `dt.replace(tzinfo=UTC)` -/
def replaceUtc (d : Datetime) : Datetime where
  val := { d.val with offset := some 0 }
  property := by
    obtain ⟨hyear, hmonth, hday, hhour, hminute, hsecond, hmicro, -⟩ := d.property
    exact ⟨hyear, hmonth, hday, hhour, hminute, hsecond, hmicro, by simp⟩

/-! ## Writing -/

/-- A fraction of a second, unless it is zero. -/
def fractionText (n : Nat) : String := if n = 0 then "" else "." ++ padded 6 n

def dateText (year month day : Nat) : String :=
  padded 4 year ++ "-" ++ padded 2 month ++ "-" ++ padded 2 day

def timeText (hour minute second microsecond : Nat) : String :=
  padded 2 hour ++ ":" ++ padded 2 minute ++ ":" ++ padded 2 second ++ fractionText microsecond

/-- The seconds of an offset, unless they and their fraction are zero. -/
def offsetSeconds (second fraction : Nat) : String :=
  if second = 0 ∧ fraction = 0 then "" else ":" ++ padded 2 second ++ fractionText fraction

def offsetText (o : Int) : String :=
  let seconds := o.natAbs / 1000000
  (if o < 0 then "-" else "+") ++ padded 2 (seconds / 3600) ++ ":" ++ padded 2 (seconds / 60 % 60) ++
    offsetSeconds (seconds % 60) (o.natAbs % 1000000)

/-- `dt.isoformat()` -/
def isoformat (d : Datetime) : String :=
  dateText d.val.year d.val.month d.val.day ++ "T" ++
    timeText d.val.hour d.val.minute d.val.second d.val.microsecond ++
    (d.val.offset.elim "" offsetText)

/-- The fields of a UTC instant, in microseconds since the epoch. -/
def utcFields (t : Int) : DatetimeFields :=
  let (year, month, day) := civilFromDays (t / 86400000000)
  let micros := (t % 86400000000).toNat
  let seconds := micros / 1000000
  ⟨year.toNat, month, day, seconds / 3600, seconds / 60 % 60, seconds % 60, micros % 1000000,
    some 0⟩

/-- A UTC instant is written as the datetime with its fields. -/
theorem isoformat_utcFields {t : Int} (h : (utcFields t).Valid) :
    isoformat ⟨utcFields t, h⟩ = Library.isoformat t := by
  have hzero : offsetText 0 = "+00:00" := by decide
  simp only [isoformat, utcFields, Option.elim_some, hzero, dateText, timeText, fractionText,
    Library.isoformat, isoBody, String.append_assoc]
  rfl

/-! ## Reading -/

/-- `w` decimal digits. -/
def readDigits (w : Nat) (s : List Char) : Option (Nat × List Char) :=
  if (s.take w).length = w ∧ (s.take w).all Char.isDigit then
    some (Nat.ofDigitChars 10 (s.take w) 0, s.drop w)
  else none

/-- The character `c`. -/
def readChar (c : Char) : List Char → Option (List Char)
  | d :: s => if d = c then some s else none
  | [] => none

/-- A fraction of a second, if there is one. -/
def readFraction : List Char → Option (Nat × List Char)
  | '.' :: s => readDigits 6 s
  | s => some (0, s)

def readDate (s : List Char) : Option ((Nat × Nat × Nat) × List Char) := do
  let (year, s) ← readDigits 4 s
  let s ← readChar '-' s
  let (month, s) ← readDigits 2 s
  let s ← readChar '-' s
  let (day, s) ← readDigits 2 s
  return ((year, month, day), s)

def readTime (s : List Char) : Option ((Nat × Nat × Nat × Nat) × List Char) := do
  let (hour, s) ← readDigits 2 s
  let s ← readChar ':' s
  let (minute, s) ← readDigits 2 s
  let s ← readChar ':' s
  let (second, s) ← readDigits 2 s
  let (microsecond, s) ← readFraction s
  return ((hour, minute, second, microsecond), s)

/-- The seconds of an offset, if there are any. -/
def readOffsetSeconds : List Char → Option ((Nat × Nat) × List Char)
  | ':' :: s => do
    let (second, s) ← readDigits 2 s
    let (fraction, s) ← readFraction s
    return ((second, fraction), s)
  | s => some ((0, 0), s)

/-- An offset without its sign. -/
def readUnsigned (s : List Char) : Option (Nat × List Char) := do
  let (hour, s) ← readDigits 2 s
  let s ← readChar ':' s
  let (minute, s) ← readDigits 2 s
  let ((second, fraction), s) ← readOffsetSeconds s
  return ((hour * 3600 + minute * 60 + second) * 1000000 + fraction, s)

/-- The offset, up to the end of the text. -/
def readOffset : List Char → Option (Option Int)
  | [] => some none
  | '+' :: s =>
    match readUnsigned s with
    | some (o, []) => some (some (o : Int))
    | _ => none
  | '-' :: s =>
    match readUnsigned s with
    | some (o, []) => some (some (-(o : Int)))
    | _ => none
  | _ => none

/-- The spelling that `isoformat` writes. -/
def readIso (s : List Char) : Option Datetime := do
  let ((year, month, day), s) ← readDate s
  let s ← readChar 'T' s
  let ((hour, minute, second, microsecond), s) ← readTime s
  let offset ← readOffset s
  let f : DatetimeFields := ⟨year, month, day, hour, minute, second, microsecond, offset⟩
  if h : f.Valid then some ⟨f, h⟩ else none

/-- `datetime.fromisoformat(s)`, `none` where it raises `ValueError`; `other` reads the spellings that
    `isoformat` does not write. -/
def fromisoformat (other : PyStr → Option Datetime) (s : PyStr) : Option Datetime :=
  match s.toString?.bind fun text => readIso text.toList with
  | some d => some d
  | none => other s

/-! ## Numbers -/

theorem toList_padded (w n : Nat) : (padded w n).toList =
    List.replicate (w - (Nat.toDigits 10 n).length) '0' ++ Nat.toDigits 10 n := by
  have htext : toString n = String.ofList (Nat.toDigits 10 n) := Nat.toString_eq_ofList_toDigits
  simp only [padded, htext, String.toList_append, String.toList_ofList, String.length_ofList]

theorem length_padded {w n : Nat} (hw : 0 < w) (h : n < 10 ^ w) :
    (padded w n).toList.length = w := by
  have hdigits := (Nat.length_toDigits_le_iff (by omega) hw).mpr h
  rw [toList_padded, List.length_append, List.length_replicate]
  omega

theorem isDigit_padded (w n : Nat) : (padded w n).toList.all Char.isDigit = true := by
  rw [toList_padded, List.all_eq_true]
  intro c hc
  rcases List.mem_append.mp hc with hc | hc
  · rw [(List.mem_replicate.mp hc).2]
    rfl
  · exact Nat.isDigit_of_mem_toDigits (by omega) (by omega) hc

theorem ofDigitChars_padded (w n : Nat) : Nat.ofDigitChars 10 (padded w n).toList 0 = n := by
  rw [toList_padded, Nat.ofDigitChars_append, Nat.ofDigitChars_replicate_zero, Nat.mul_zero,
    Nat.ofDigitChars_ten_toDigits]

/-- A number of `w` digits is read back from the front of any text. -/
theorem readDigits_padded {w n : Nat} (hw : 0 < w) (h : n < 10 ^ w) (rest : List Char) :
    readDigits w ((padded w n).toList ++ rest) = some (n, rest) := by
  have hlength := length_padded hw h
  have htake : ((padded w n).toList ++ rest).take w = (padded w n).toList :=
    List.take_left' hlength
  have hdrop : ((padded w n).toList ++ rest).drop w = rest := List.drop_left' hlength
  rw [readDigits, htake, hdrop, if_pos ⟨hlength, isDigit_padded w n⟩, ofDigitChars_padded]

/-! ## The round trip -/

theorem readFraction_other {rest : List Char} (hrest : rest.head? ≠ some '.') :
    readFraction rest = some (0, rest) := by
  unfold readFraction
  split
  · simp at hrest
  · rfl

theorem readFraction_fractionText {n : Nat} (h : n < 1000000) {rest : List Char}
    (hrest : rest.head? ≠ some '.') :
    readFraction ((fractionText n).toList ++ rest) = some (n, rest) := by
  unfold fractionText
  by_cases hn : n = 0
  · rw [if_pos hn, hn, String.toList_empty, List.nil_append]
    exact readFraction_other hrest
  · have hread := readDigits_padded (w := 6) (n := n) (by omega) (by omega) rest
    have hpoint : ".".toList = ['.'] := rfl
    rw [if_neg hn, String.toList_append, List.append_assoc, hpoint, List.singleton_append,
      readFraction, hread]

theorem readDate_dateText {year month day : Nat} (hyear : year ≤ 9999) (hmonth : month ≤ 12)
    (hday : day ≤ 31) (rest : List Char) :
    readDate ((dateText year month day).toList ++ rest) = some ((year, month, day), rest) := by
  have hy := readDigits_padded (w := 4) (n := year) (by omega) (by omega)
  have hm := readDigits_padded (w := 2) (n := month) (by omega) (by omega)
  have hd := readDigits_padded (w := 2) (n := day) (by omega) (by omega)
  simp [dateText, readDate, hy, hm, hd, readChar]

theorem readTime_timeText {hour minute second microsecond : Nat} (hhour : hour < 24)
    (hminute : minute < 60) (hsecond : second < 60) (hmicro : microsecond < 1000000)
    {rest : List Char} (hrest : rest.head? ≠ some '.') :
    readTime ((timeText hour minute second microsecond).toList ++ rest) =
      some ((hour, minute, second, microsecond), rest) := by
  have hh := readDigits_padded (w := 2) (n := hour) (by omega) (by omega)
  have hm := readDigits_padded (w := 2) (n := minute) (by omega) (by omega)
  have hs := readDigits_padded (w := 2) (n := second) (by omega) (by omega)
  have hf := readFraction_fractionText hmicro hrest
  simp [timeText, readTime, hh, hm, hs, hf, readChar]

theorem readOffsetSeconds_offsetSeconds {second fraction : Nat} (hsecond : second < 60)
    (hfraction : fraction < 1000000) :
    readOffsetSeconds (offsetSeconds second fraction).toList = some ((second, fraction), []) := by
  unfold offsetSeconds
  by_cases h : second = 0 ∧ fraction = 0
  · rw [if_pos h, h.1, h.2]
    rfl
  · have hs := readDigits_padded (w := 2) (n := second) (by omega) (by omega)
    have hf := @readFraction_fractionText fraction hfraction [] (by simp)
    rw [List.append_nil] at hf
    rw [if_neg h]
    simp [readOffsetSeconds, hs, hf]

/-- The sign is written before a number that is read back. -/
theorem readOffset_offsetText {o : Int} (h : o.natAbs < 86400000000) :
    readOffset (offsetText o).toList = some (some o) := by
  -- hours, minutes, seconds and fraction make up the number of microseconds
  have htotal : (o.natAbs / 1000000 / 3600 * 3600 + o.natAbs / 1000000 / 60 % 60 * 60 +
      o.natAbs / 1000000 % 60) * 1000000 + o.natAbs % 1000000 = o.natAbs := by omega
  have hh := readDigits_padded (w := 2) (n := o.natAbs / 1000000 / 3600) (by omega) (by omega)
  have hm := readDigits_padded (w := 2) (n := o.natAbs / 1000000 / 60 % 60) (by omega) (by omega)
  have hs := @readOffsetSeconds_offsetSeconds (o.natAbs / 1000000 % 60) (o.natAbs % 1000000)
    (by omega) (by omega)
  have hunsigned : readUnsigned ((padded 2 (o.natAbs / 1000000 / 3600)).toList ++
      ':' :: ((padded 2 (o.natAbs / 1000000 / 60 % 60)).toList ++
        (offsetSeconds (o.natAbs / 1000000 % 60) (o.natAbs % 1000000)).toList)) =
      some (o.natAbs, []) := by
    simp only [readUnsigned, hh, hm, hs, readChar, if_true, Option.bind_eq_bind, Option.bind_some,
      Option.pure_def, htotal]
  by_cases hneg : o < 0
  · simp only [offsetText, if_pos hneg, String.toList_append]
    have habs : |o| = -o := abs_of_neg hneg
    simp [readOffset, hunsigned, habs]
  · simp only [offsetText, if_neg hneg, String.toList_append]
    have habs : |o| = o := abs_of_nonneg (by omega)
    simp [readOffset, hunsigned, habs]

theorem readOffset_elim {offset : Option Int} (h : ∀ o ∈ offset, o.natAbs < 86400000000) :
    readOffset (offset.elim "" offsetText).toList = some offset := by
  cases offset with
  | none => rfl
  | some o => exact readOffset_offsetText (h o rfl)

/-- An offset does not begin like a fraction. -/
theorem head?_offset (offset : Option Int) :
    (offset.elim "" offsetText).toList.head? ≠ some '.' := by
  cases offset with
  | none => simp
  | some o =>
    simp only [Option.elim_some, offsetText, String.toList_append]
    split
    · simp
    · simp

theorem daysInMonth_le (year month : Nat) : daysInMonth year month ≤ 31 := by
  unfold daysInMonth
  split
  · split <;> omega
  · split <;> omega

/-- **What `isoformat` writes, `fromisoformat` reads back**, field by field and with the offset. -/
theorem readIso_isoformat (d : Datetime) : readIso d.isoformat.toList = some d := by
  obtain ⟨⟨hyear, hyear'⟩, ⟨hmonth, hmonth'⟩, ⟨hday, hday'⟩, hhour, hminute, hsecond, hmicro,
    hoffset⟩ := d.property
  have hmax := daysInMonth_le d.val.year d.val.month
  have hdate := readDate_dateText hyear' hmonth' (Nat.le_trans hday' hmax)
  have htime := readTime_timeText hhour hminute hsecond hmicro (head?_offset d.val.offset)
  have hread := readOffset_elim hoffset
  simp only [isoformat, String.toList_append, List.append_assoc, readIso, hdate,
    Option.bind_eq_bind, Option.bind_some]
  simp [readChar, htime, hread, d.property]

/-! ## Reading a text of the service -/

theorem not_mem_padded {c : Char} (hc : c.isDigit = false) (w n : Nat) :
    c ∉ (padded w n).toList := by
  intro hmem
  have hdigit := List.all_eq_true.mp (isDigit_padded w n) c hmem
  rw [hc] at hdigit
  cases hdigit

/-- The time zone is always spelled out. -/
theorem not_mem_isoformat (d : Datetime) : 'Z' ∉ d.isoformat.toList := by
  have hnumber := not_mem_padded (c := 'Z') rfl
  have hfraction : ∀ n, 'Z' ∉ (fractionText n).toList := by
    intro n
    unfold fractionText
    split
    · simp
    · simp [hnumber]
  have hseconds : ∀ m n, 'Z' ∉ (offsetSeconds m n).toList := by
    intro m n
    unfold offsetSeconds
    split
    · simp
    · simp [hnumber, hfraction]
  have hoffset : 'Z' ∉ (d.val.offset.elim "" offsetText).toList := by
    cases d.val.offset with
    | none => simp
    | some o =>
      simp only [Option.elim_some, offsetText, String.toList_append]
      split
      · simp [hnumber, hseconds]
      · simp [hnumber, hseconds]
  simp only [isoformat, dateText, timeText, String.toList_append, List.mem_append, hnumber,
    hfraction, hoffset]
  simp

theorem fromisoformat_isoformat (other : PyStr → Option Datetime) (d : Datetime) :
    fromisoformat other (PyStr.ofString d.isoformat) = some d := by
  rw [fromisoformat, PyStr.toString?_ofString, Option.bind_some, readIso_isoformat]

end Datetime
end FavlGateway.Library
