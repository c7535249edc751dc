/-
  The values that JSON text carries without loss.

  A value in memory has doubles for its floats and each key of an object once (`Json.native`).  All
  that a spelling of floats has to do for its text to be read back is what Python documents of
  `repr`: `float(repr(x)) == x` for every double (`SpellsDoubles`).

  There are such spellings: a double is a whole number over a power of two, so its decimal expansion
  ends (`readsBack_exactText`).
-/
import FavlGateway.Library.JsonText
import Mathlib.Data.Nat.Prime.Basic

namespace FavlGateway.Library

/-- Every double is read back from its spelling. -/
def SpellsDoubles (repr : ℚ → String) : Prop := ∀ q, isDouble q = true → ReadsBack repr q = true

/-! ## Values in memory -/

namespace Json

mutual

/-- Every float is a double and no object has a key twice. -/
def native : Json String → Bool
  | null | bool _ | str _ => true
  | number (.float q) => isDouble q
  | number _ => true
  | arr xs => nativeList xs
  | obj ms => decide (ms.map Prod.fst).Nodup && nativeMembers ms

def nativeList : List (Json String) → Bool
  | [] => true
  | x :: xs => x.native && nativeList xs

def nativeMembers : List (String × Json String) → Bool
  | [] => true
  | (_, x) :: ms => x.native && nativeMembers ms

end

mutual

/-- What is in memory can be read back. -/
theorem plain_of_native {repr : ℚ → String} (hrepr : SpellsDoubles repr) :
    ∀ v : Json String, v.native = true → v.plain repr = true
  | .null, _ => rfl
  | .bool _, _ => rfl
  | .str _, _ => rfl
  | .number (.float q), h => hrepr q h
  | .number (.int _), _ => rfl
  | .number .negZero, _ => rfl
  | .number .nan, _ => rfl
  | .number (.inf _), _ => rfl
  | .arr xs, h => plainList_of_native hrepr xs h
  | .obj ms, h => by
    rw [native, Bool.and_eq_true] at h
    rw [plain, Bool.and_eq_true]
    exact ⟨h.1, plainMembers_of_native hrepr ms h.2⟩

theorem plainList_of_native {repr : ℚ → String} (hrepr : SpellsDoubles repr) :
    ∀ xs : List (Json String), nativeList xs = true → plainList repr xs = true
  | [], _ => rfl
  | x :: xs, h => by
    rw [nativeList, Bool.and_eq_true] at h
    rw [plainList, Bool.and_eq_true]
    exact ⟨plain_of_native hrepr x h.1, plainList_of_native hrepr xs h.2⟩

theorem plainMembers_of_native {repr : ℚ → String} (hrepr : SpellsDoubles repr) :
    ∀ ms : List (String × Json String), nativeMembers ms = true → plainMembers repr ms = true
  | [], _ => rfl
  | (_, x) :: ms, h => by
    rw [nativeMembers, Bool.and_eq_true] at h
    rw [plainMembers, Bool.and_eq_true]
    exact ⟨plain_of_native hrepr x h.1, plainMembers_of_native hrepr ms h.2⟩

end

theorem nativeMembers_append (ms more : List (String × Json String)) :
    nativeMembers (ms ++ more) = (nativeMembers ms && nativeMembers more) := by
  induction ms with
  | nil => rfl
  | cons m ms ih =>
    obtain ⟨k, x⟩ := m
    rw [List.cons_append, nativeMembers, nativeMembers, ih, Bool.and_assoc]

theorem nativeList_iff {xs : List (Json String)} :
    nativeList xs = true ↔ ∀ x ∈ xs, x.native = true := by
  induction xs with
  | nil => simp [nativeList]
  | cons x xs ih => rw [nativeList, Bool.and_eq_true, ih, List.forall_mem_cons]

end Json

/-! ## A spelling -/

open Json (isDigit_toDigits isNumberChar_of_isDigit span_of_stops Stops isWhole_toDigits)

/-- The exponent of the denominator. -/
def binaryPlaces (q : ℚ) : Nat := q.den.log2

/-- The digits of a number in decimal, as many behind the point as there are in binary. -/
def exactDigits (q : ℚ) : Nat := q.num.natAbs * 5 ^ binaryPlaces q

/-- A number in decimal, spelled out. -/
def exactText (q : ℚ) : String :=
  String.ofList ((if q < 0 then ['-'] else []) ++ Nat.toDigits 10 (exactDigits q) ++
    'e' :: '-' :: Nat.toDigits 10 (binaryPlaces q))

/-- The denominator of a double is a power of two. -/
theorem den_of_representable {q : ℚ} (h : Representable q) : q.den = 2 ^ binaryPlaces q := by
  obtain ⟨m, e, -, -, hq⟩ := h
  have hdvd : ∃ k : Nat, q.den ∣ 2 ^ k := by
    rcases le_or_gt 0 e with hpos | hneg
    · obtain ⟨d, rfl⟩ := Int.eq_ofNat_of_zero_le hpos
      have hint : q = ((m * 2 ^ d : Int) : ℚ) := by
        rw [hq, zpow_natCast]
        push_cast
        rfl
      exact ⟨0, by rw [hint, Rat.den_intCast, pow_zero]⟩
    · obtain ⟨d, hd⟩ := Int.eq_ofNat_of_zero_le (by omega : 0 ≤ -e)
      have hquotient : q = Rat.divInt m ((2 ^ d : Nat) : Int) := by
        rw [Rat.divInt_eq_div, hq, show e = -(d : Int) by omega, zpow_neg, zpow_natCast,
          div_eq_mul_inv]
        push_cast
        rfl
      refine ⟨d, ?_⟩
      have := Rat.den_dvd m ((2 ^ d : Nat) : Int)
      rw [← hquotient] at this
      exact_mod_cast this
  obtain ⟨k, hk⟩ := hdvd
  obtain ⟨j, -, hj⟩ := (Nat.dvd_prime_pow Nat.prime_two).mp hk
  rw [binaryPlaces, hj, Nat.log2_two_pow]

/-- The digits are those of the number. -/
theorem exactDigits_value {q : ℚ} (h : Representable q) :
    (exactDigits q : ℚ) * (10 : ℚ) ^ (-(binaryPlaces q : Int)) = |q| := by
  have hden : (q.den : ℚ) = 2 ^ binaryPlaces q := by
    exact_mod_cast den_of_representable h
  rw [abs_eq_div, hden, exactDigits, zpow_neg, zpow_natCast,
    show (10 : ℚ) = 2 * 5 by norm_num, mul_pow]
  push_cast
  field_simp

theorem representable_of_isDouble {q : ℚ} (h : isDouble q = true) : Representable q := by
  by_cases hzero : q = 0
  · exact ⟨0, 0, by norm_num, by norm_num, by simp [hzero]⟩
  · rw [isDouble_iff, roundToDouble, if_neg hzero] at h
    dsimp only at h
    split at h
    · cases h
    · split at h
      · cases h
      · have hsame : roundToSpacing q = q := by injection h
        rw [← hsame]
        exact representable_roundToSpacing hzero

/-- The text of a number, as it is taken apart. -/
theorem readToken_exactText (q : ℚ) :
    readToken (exactText q).toList = some ⟨decide (q < 0), Nat.toDigits 10 (exactDigits q), none,
      some (-(binaryPlaces q : Int))⟩ := by
  have hdigits := isDigit_toDigits (exactDigits q)
  have hplaces := isDigit_toDigits (binaryPlaces q)
  have hspan := @span_of_stops _ _ ('e' :: '-' :: Nat.toDigits 10 (binaryPlaces q)) hdigits
    (by simp [Stops])
  have hexponent : readExponent ('e' :: '-' :: Nat.toDigits 10 (binaryPlaces q)) =
      some (some (-(binaryPlaces q : Int))) := by
    have hne : (Nat.toDigits 10 (binaryPlaces q)).isEmpty = false := by
      rw [List.isEmpty_eq_false_iff]
      exact Nat.toDigits_ne_nil
    have hsign : readSign true ('-' :: Nat.toDigits 10 (binaryPlaces q)) =
        (true, Nat.toDigits 10 (binaryPlaces q)) := rfl
    simp [readExponent, hsign, hne, hplaces]
  have hsign : readSign false (exactText q).toList = (decide (q < 0),
      Nat.toDigits 10 (exactDigits q) ++ 'e' :: '-' :: Nat.toDigits 10 (binaryPlaces q)) := by
    rw [exactText, String.toList_ofList]
    by_cases hneg : q < 0
    · rw [if_pos hneg, decide_eq_true hneg]
      rfl
    · rw [if_neg hneg, decide_eq_false hneg, List.nil_append]
      cases hcases : Nat.toDigits 10 (exactDigits q) with
      | nil => exact absurd hcases Nat.toDigits_ne_nil
      | cons c s =>
        have hc : c.isDigit = true := by
          rw [hcases, List.all_cons, Bool.and_eq_true] at hdigits
          exact hdigits.1
        rw [List.cons_append, readSign]
        · intro _ hcons
          rw [(List.cons.inj hcons).1] at hc
          cases hc
        · intro _ hcons
          rw [(List.cons.inj hcons).1] at hc
          cases hc
  have hfraction : readFractionPart ('e' :: '-' :: Nat.toDigits 10 (binaryPlaces q)) =
      some (none, 'e' :: '-' :: Nat.toDigits 10 (binaryPlaces q)) := rfl
  simp only [readToken, hsign, hspan.1, hspan.2, isWhole_toDigits, if_true, hfraction, hexponent,
    Option.bind_eq_bind, Option.bind_some, Option.pure_def]

/-- **A double is read back from its decimal expansion.** -/
theorem readsBack_exactText : SpellsDoubles exactText := by
  intro q hdouble
  have hrep := representable_of_isDouble hdouble
  have hround := isDouble_iff.mp hdouble
  have hchars : ∀ n : Nat, (Nat.toDigits 10 n).all isNumberChar = true := fun n =>
    List.all_eq_true.mpr fun c hc =>
      isNumberChar_of_isDigit (List.all_eq_true.mp (isDigit_toDigits _) c hc)
  rw [ReadsBack, Bool.and_eq_true, decide_eq_true_eq, readToken_exactText, Option.map_some,
    Option.some.injEq]
  constructor
  · rw [exactText, String.toList_ofList]
    by_cases hneg : q < 0 <;> simp [hneg, hchars, isNumberChar]
  · have hvalue := exactDigits_value hrep
    have hdigits : Nat.ofDigitChars 10 (Nat.toDigits 10 (exactDigits q)) 0 = exactDigits q :=
      Nat.ofDigitChars_ten_toDigits
    simp only [NumberToken.value, Option.getD_none, Option.getD_some, List.append_nil,
      List.length_nil, hdigits, reduceCtorEq, and_false, if_false, decide_eq_true_eq,
      Nat.cast_zero, sub_zero, hvalue]
    by_cases hzero : exactDigits q = 0
    · have hq : q = 0 := by
        rw [hzero, Nat.cast_zero, zero_mul] at hvalue
        exact abs_eq_zero.mp hvalue.symm
      rw [if_pos hzero, hq]
      simp
    · rw [if_neg hzero]
      by_cases hneg : q < 0
      · rw [if_pos hneg, abs_of_neg hneg, neg_neg, hround]
      · rw [if_neg hneg, abs_of_nonneg (not_lt.mp hneg), hround]

end FavlGateway.Library
