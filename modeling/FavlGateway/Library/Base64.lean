/-
  Base64: the standard encoding, and the lenient decoder of Python's `binascii.a2b_base64`.

  The decoder skips what is not in the alphabet, stops behind a padding that completes a group, and
  raises only if the text ends in the middle of one.  `decode_pad` is the round trip, with or without
  the padding; `decode_pad_eq_none_iff` counts when a text without a padding character is refused.
-/
import FavlGateway.Library.Bytes

namespace FavlGateway.Library.Base64

/-! ## The alphabet -/

/-- The character of six bits. -/
def digit (n : Nat) : Char :=
  if n < 26 then Char.ofNat (0x41 + n)
  else if n < 52 then Char.ofNat (0x61 + (n - 26))
  else if n < 62 then Char.ofNat (0x30 + (n - 52))
  else if n = 62 then '+' else '/'

/-- The six bits of a character; `none` for what is not in the alphabet. -/
def value (c : Char) : Option Nat :=
  if 0x41 ≤ c.toNat ∧ c.toNat ≤ 0x5A then some (c.toNat - 0x41)
  else if 0x61 ≤ c.toNat ∧ c.toNat ≤ 0x7A then some (c.toNat - 0x61 + 26)
  else if 0x30 ≤ c.toNat ∧ c.toNat ≤ 0x39 then some (c.toNat - 0x30 + 52)
  else if c = '+' then some 62
  else if c = '/' then some 63
  else none

theorem value_digit : ∀ n < 64, value (digit n) = some n := by decide

theorem digit_ascii : ∀ n < 64, (digit n).toNat < 0x80 ∧ digit n ≠ '=' := by decide

/-! ## Encoding -/

/-- The digits of the bytes, three bytes to four digits. -/
def digits : Bytes → List Char
  | a :: b :: c :: rest =>
    digit (a.toNat / 4) :: digit (a.toNat % 4 * 16 + b.toNat / 16) ::
      digit (b.toNat % 16 * 4 + c.toNat / 64) :: digit (c.toNat % 64) :: digits rest
  | [a, b] =>
    [digit (a.toNat / 4), digit (a.toNat % 4 * 16 + b.toNat / 16), digit (b.toNat % 16 * 4)]
  | [a] => [digit (a.toNat / 4), digit (a.toNat % 4 * 16)]
  | [] => []

/-- `s + "=" * (-len(s) % 4)` -/
def pad (s : List Char) : List Char := s ++ List.replicate ((4 - s.length % 4) % 4) '='

/-- `base64.b64encode(bytes)` -/
def encode (bytes : Bytes) : List Char := pad (digits bytes)

/-! ## Decoding -/

/-- `binascii.a2b_base64(s)`, when `quad` characters of a group have been read, `left` is what is
    left of their bits and `pads` the padding behind them; `none` where it raises. -/
def read : List Char → (quad left pads : Nat) → Option Bytes
  | [], quad, _, _ => if quad = 0 then some [] else none
  | c :: s, quad, left, pads =>
    if c = '=' then
      if 2 ≤ quad then
        -- a padding that completes the group ends the data, whatever is behind it
        if 4 ≤ quad + (pads + 1) then some [] else read s quad left (pads + 1)
      else read s quad left pads
    else
      match value c with
      | none => read s quad left pads
      | some v =>
        match quad with
        | 0 => read s 1 v 0
        | 1 => (read s 2 (v % 16) 0).map (UInt8.ofNat (left * 4 + v / 16) :: ·)
        | 2 => (read s 3 (v % 4) 0).map (UInt8.ofNat (left * 16 + v / 4) :: ·)
        | _ => (read s 0 0 0).map (UInt8.ofNat (left * 64 + v) :: ·)

/-- `base64.b64decode(s)`, for a text; `none` where it raises. -/
def decode (s : List Char) : Option Bytes :=
  if s.all fun c => c.toNat < 0x80 then read s 0 0 0 else none

/-! ## The round trip -/

section RoundTrip

variable {s : List Char} {left pads n : Nat}

theorem read_digit_zero (h : n < 64) : read (digit n :: s) 0 left pads = read s 1 n 0 := by
  rw [read, if_neg (digit_ascii n h).2, value_digit n h]
  rfl

theorem read_digit_one (h : n < 64) :
    read (digit n :: s) 1 left pads =
      (read s 2 (n % 16) 0).map (UInt8.ofNat (left * 4 + n / 16) :: ·) := by
  rw [read, if_neg (digit_ascii n h).2, value_digit n h]
  rfl

theorem read_digit_two (h : n < 64) :
    read (digit n :: s) 2 left pads =
      (read s 3 (n % 4) 0).map (UInt8.ofNat (left * 16 + n / 4) :: ·) := by
  rw [read, if_neg (digit_ascii n h).2, value_digit n h]
  rfl

theorem read_digit_three (h : n < 64) :
    read (digit n :: s) 3 left pads = (read s 0 0 0).map (UInt8.ofNat (left * 64 + n) :: ·) := by
  rw [read, if_neg (digit_ascii n h).2, value_digit n h]
  rfl

theorem ofNat_eq {a : UInt8} {n : Nat} (h : n = a.toNat) : UInt8.ofNat n = a := by
  rw [h, UInt8.ofNat_toNat]

/-- The first group is read off. -/
theorem read_group (a b c : UInt8) :
    read (digit (a.toNat / 4) :: digit (a.toNat % 4 * 16 + b.toNat / 16) ::
      digit (b.toNat % 16 * 4 + c.toNat / 64) :: digit (c.toNat % 64) :: s) 0 0 0 =
        (read s 0 0 0).map fun rest => a :: b :: c :: rest := by
  have ha := a.toNat_lt
  have hb := b.toNat_lt
  have hc := c.toNat_lt
  rw [read_digit_zero (by omega), read_digit_one (by omega), read_digit_two (by omega),
    read_digit_three (by omega), Option.map_map, Option.map_map]
  congr 1
  funext rest
  simp only [Function.comp]
  rw [ofNat_eq (a := a) (by omega), ofNat_eq (a := b) (by omega), ofNat_eq (a := c) (by omega)]

theorem length_pad (s : List Char) : (pad s).length % 4 = 0 := by
  rw [pad, List.length_append, List.length_replicate]
  omega

theorem pad_of_length (h : s.length % 4 = 0) : pad s = s := by
  rw [pad, h]
  exact List.append_nil s

/-- What has its padding is not padded again. -/
theorem pad_pad (s : List Char) : pad (pad s) = pad s := pad_of_length (length_pad s)

/-- Whole groups in front leave the padding as it is. -/
theorem pad_group (a b c d : Char) (s : List Char) :
    pad (a :: b :: c :: d :: s) = a :: b :: c :: d :: pad s := by
  have hlength : (a :: b :: c :: d :: s).length % 4 = s.length % 4 := by
    simp only [List.length_cons]
    omega
  rw [pad, hlength]
  rfl

theorem read_encode : ∀ bytes : Bytes, read (encode bytes) 0 0 0 = some bytes
  | [] => rfl
  | [a] => by
    have ha := a.toNat_lt
    show read (digit (a.toNat / 4) :: digit (a.toNat % 4 * 16) :: ['=', '=']) 0 0 0 = some [a]
    rw [read_digit_zero (by omega), read_digit_one (by omega)]
    show some [UInt8.ofNat _] = some [a]
    rw [ofNat_eq (a := a) (by omega)]
  | [a, b] => by
    have ha := a.toNat_lt
    have hb := b.toNat_lt
    show read (digit (a.toNat / 4) :: digit (a.toNat % 4 * 16 + b.toNat / 16) ::
      digit (b.toNat % 16 * 4) :: ['=']) 0 0 0 = some [a, b]
    rw [read_digit_zero (by omega), read_digit_one (by omega), read_digit_two (by omega)]
    show some [UInt8.ofNat _, UInt8.ofNat _] = some [a, b]
    rw [ofNat_eq (a := a) (by omega), ofNat_eq (a := b) (by omega)]
  | a :: b :: c :: rest => by
    rw [encode, digits, pad_group, read_group]
    show (read (encode rest) 0 0 0).map _ = _
    rw [read_encode rest]
    rfl

theorem digits_ascii : ∀ (bytes : Bytes), ∀ c ∈ digits bytes, c.toNat < 0x80
  | [], c, hc => by cases hc
  | [a], c, hc => by
    have ha := a.toNat_lt
    simp only [digits, List.mem_cons, List.not_mem_nil, or_false] at hc
    rcases hc with rfl | rfl
    · exact (digit_ascii _ (by omega)).1
    · exact (digit_ascii _ (by omega)).1
  | [a, b], c, hc => by
    have ha := a.toNat_lt
    have hb := b.toNat_lt
    simp only [digits, List.mem_cons, List.not_mem_nil, or_false] at hc
    rcases hc with rfl | rfl | rfl
    · exact (digit_ascii _ (by omega)).1
    · exact (digit_ascii _ (by omega)).1
    · exact (digit_ascii _ (by omega)).1
  | a :: b :: d :: rest, c, hc => by
    have ha := a.toNat_lt
    have hb := b.toNat_lt
    have hd := d.toNat_lt
    simp only [digits, List.mem_cons] at hc
    rcases hc with rfl | rfl | rfl | rfl | hc
    · exact (digit_ascii _ (by omega)).1
    · exact (digit_ascii _ (by omega)).1
    · exact (digit_ascii _ (by omega)).1
    · exact (digit_ascii _ (by omega)).1
    · exact digits_ascii rest c hc

/-- **What is encoded is decoded again.** -/
theorem decode_encode (bytes : Bytes) : decode (encode bytes) = some bytes := by
  have hascii : (encode bytes).all (fun c => decide (c.toNat < 0x80)) = true := by
    rw [List.all_eq_true]
    intro c hc
    rcases List.mem_append.mp hc with hc | hc
    · exact decide_eq_true (digits_ascii bytes c hc)
    · rw [List.eq_of_mem_replicate hc]
      rfl
  rw [decode, if_pos hascii, read_encode]

end RoundTrip

/-! ## Which texts are refused -/

/-- How many characters of the alphabet a text has. -/
def count (s : List Char) : Nat := s.countP fun c => (value c).isSome

/-- A digit takes the group one further. -/
theorem isSome_read_digit {c : Char} {s : List Char} {quad v : Nat} (left : Nat) (hc : c ≠ '=')
    (hvalue : value c = some v) (hquad : quad < 4) :
    ∃ left', (read (c :: s) quad left 0).isSome = (read s ((quad + 1) % 4) left' 0).isSome := by
  rw [read, if_neg hc, hvalue]
  match quad, hquad with
  | 0, _ => exact ⟨v, rfl⟩
  | 1, _ => exact ⟨v % 16, Option.isSome_map⟩
  | 2, _ => exact ⟨v % 4, Option.isSome_map⟩
  | 3, _ => exact ⟨0, Option.isSome_map⟩

/-- Without padding characters, only the number of digits matters for how the text ends. -/
theorem isSome_read_append {s : List Char} (hpad : '=' ∉ s) (rest : List Char) {quad : Nat}
    (left : Nat) (hquad : quad < 4) :
    ∃ left', (read (s ++ rest) quad left 0).isSome =
      (read rest ((quad + count s) % 4) left' 0).isSome := by
  induction s generalizing quad left with
  | nil =>
    refine ⟨left, ?_⟩
    rw [count, List.countP_nil, Nat.add_zero, Nat.mod_eq_of_lt hquad]
    rfl
  | cons c s ih =>
    have hc : c ≠ '=' := fun h => hpad (h ▸ List.mem_cons_self)
    have hrest : '=' ∉ s := fun h => hpad (List.mem_cons_of_mem c h)
    rw [List.cons_append]
    cases hvalue : value c with
    | none =>
      have hcount : count (c :: s) = count s := by simp [count, hvalue]
      rw [hcount, read, if_neg hc, hvalue]
      exact ih hrest left hquad
    | some v =>
      have hcount : (quad + count (c :: s)) % 4 = ((quad + 1) % 4 + count s) % 4 := by
        rw [show count (c :: s) = count s + 1 by simp [count, hvalue]]
        omega
      obtain ⟨left₁, hdigit⟩ := @isSome_read_digit c (s ++ rest) quad v left hc hvalue hquad
      obtain ⟨left₂, hread⟩ := ih hrest left₁ (Nat.mod_lt (quad + 1) (by omega))
      exact ⟨left₂, by rw [hdigit, hread, hcount]⟩

/-- How a text ends in nothing but padding. -/
theorem isSome_read_replicate {quad k : Nat} (left : Nat) (hquad : quad < 4) (hk : k < 4) :
    (read (List.replicate k '=') quad left 0).isSome =
      decide (quad = 0 ∨ quad = 2 ∧ 2 ≤ k ∨ quad = 3 ∧ 1 ≤ k) := by
  match quad, hquad, k, hk with
  | 0, _, 0, _ | 0, _, 1, _ | 0, _, 2, _ | 0, _, 3, _ => rfl
  | 1, _, 0, _ | 1, _, 1, _ | 1, _, 2, _ | 1, _, 3, _ => rfl
  | 2, _, 0, _ | 2, _, 1, _ | 2, _, 2, _ | 2, _, 3, _ => rfl
  | 3, _, 0, _ | 3, _, 1, _ | 3, _, 2, _ | 3, _, 3, _ => rfl

/-- **When a text without a padding character of its own is refused**: it is not ASCII, or its last
    group stays open with what padding its length gives it. -/
theorem decode_pad_eq_none_iff {s : List Char} (hpad : '=' ∉ s) :
    decode (pad s) = none ↔
      (∃ c ∈ s, 0x80 ≤ c.toNat) ∨ count s % 4 = 1 ∨
        (count s % 4 = 2 ∧ (4 - s.length % 4) % 4 < 2) ∨
        (count s % 4 = 3 ∧ (4 - s.length % 4) % 4 = 0) := by
  obtain ⟨left, hread⟩ := isSome_read_append hpad
    (List.replicate ((4 - s.length % 4) % 4) '=') 0 (show 0 < 4 by omega)
  rw [isSome_read_replicate left (Nat.mod_lt _ (by omega)) (Nat.mod_lt _ (by omega)),
    Nat.zero_add] at hread
  have hascii : ((pad s).all fun c => decide (c.toNat < 0x80)) = true ↔
      ¬ ∃ c ∈ s, 0x80 ≤ c.toNat := by
    rw [pad, List.all_append, Bool.and_eq_true, List.all_eq_true, List.all_eq_true]
    constructor
    · rintro ⟨hs, -⟩ ⟨c, hc, hlarge⟩
      exact absurd (of_decide_eq_true (hs c hc)) (Nat.not_lt.mpr hlarge)
    · intro hs
      refine ⟨fun c hc => decide_eq_true (Nat.lt_of_not_le fun h => hs ⟨c, hc, h⟩), ?_⟩
      intro c hc
      rw [List.eq_of_mem_replicate hc]
      rfl
  unfold decode
  by_cases h : ((pad s).all fun c => decide (c.toNat < 0x80)) = true
  · rw [if_pos h, ← Option.not_isSome_iff_eq_none, pad, hread, decide_eq_true_eq,
      or_iff_right (hascii.mp h)]
    omega
  · rw [if_neg h]
    have hsome := not_not.mp (mt hascii.mpr h)
    exact iff_of_true rfl (Or.inl hsome)

end FavlGateway.Library.Base64
