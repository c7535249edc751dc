/-
  `repr` of JSON values, as Python writes them, and of a list of their items.

  A text is written between single quotation marks, or between double ones if only single ones occur
  in it; what is not printable is escaped, in two, four or eight hexadecimal digits.  What is printable
  beyond ASCII is up to the Unicode database, and how a float is spelled is a parameter, as in
  `Library.JsonText`.

  **A representation says what it represents**: none is the beginning of another one, so that the
  representation of a value can be told from whatever follows it (`valueRepr_inj`, `pairsRepr_inj`).
  For one character this is shown by reading it back (`readChar`), for numbers and words by reading
  the token (`readScalar`), for everything else by induction.
-/
import FavlGateway.Library.JsonText

namespace FavlGateway.Library.PyRepr

open FavlGateway.Library.Json (hexValue hexValue_digitChar numberText Stops span_of_stops readToken_int
  lt_of_char)

/-! ## Texts -/

/-- `n`, in so many hexadecimal digits. -/
def hexDigits : Nat → Nat → List Char
  | 0, _ => []
  | width + 1, n => Nat.digitChar (n / 16 ^ width % 16) :: hexDigits width n

def singleQuote : Char := Char.ofNat 0x27

def doubleQuote : Char := Char.ofNat 0x22

/-- The quotation marks of a text. -/
def quoteOf (s : List Char) : Char :=
  if singleQuote ∈ s ∧ doubleQuote ∉ s then doubleQuote else singleQuote

section Writing

variable (float : ℚ → String) (printable : Char → Bool)

/-- One character of a text between these quotation marks. -/
def charText (q c : Char) : List Char :=
  if c = q ∨ c = '\\' then ['\\', c]
  else if c = '\t' then ['\\', 't']
  else if c = '\n' then ['\\', 'n']
  else if c = '\r' then ['\\', 'r']
  else if (0x20 ≤ c.toNat ∧ c.toNat < 0x7F) ∨ (0x7F < c.toNat ∧ printable c = true) then [c]
  else if c.toNat ≤ 0xFF then '\\' :: 'x' :: hexDigits 2 c.toNat
  else if c.toNat ≤ 0xFFFF then '\\' :: 'u' :: hexDigits 4 c.toNat
  else '\\' :: 'U' :: hexDigits 8 c.toNat

/-- `repr` of a text -/
def textRepr (s : String) : List Char :=
  quoteOf s.toList ::
    (s.toList.flatMap (charText printable (quoteOf s.toList)) ++ [quoteOf s.toList])

/-! ## Values -/

def numberRepr : Number → List Char
  | .nan => ['n', 'a', 'n']
  | .inf false => ['i', 'n', 'f']
  | .inf true => ['-', 'i', 'n', 'f']
  -- integers and floats are spelled as in JSON
  | n => numberText float n

mutual

/-- `repr` of a value -/
def valueRepr : Json String → List Char
  | .null => ['N', 'o', 'n', 'e']
  | .bool true => ['T', 'r', 'u', 'e']
  | .bool false => ['F', 'a', 'l', 's', 'e']
  | .number n => numberRepr float n
  | .str s => textRepr printable s
  | .arr [] => ['[', ']']
  | .arr (x :: xs) => '[' :: (valueRepr x ++ itemsRepr xs)
  | .obj [] => ['\x7b', '\x7d']
  | .obj ((k, x) :: ms) =>
    '\x7b' :: (textRepr printable k ++ ':' :: ' ' :: (valueRepr x ++ membersRepr ms))

/-- The rest of a list. -/
def itemsRepr : List (Json String) → List Char
  | [] => [']']
  | x :: xs => ',' :: ' ' :: (valueRepr x ++ itemsRepr xs)

/-- The rest of a dictionary. -/
def membersRepr : List (String × Json String) → List Char
  | [] => ['\x7d']
  | (k, x) :: ms =>
    ',' :: ' ' :: (textRepr printable k ++ ':' :: ' ' :: (valueRepr x ++ membersRepr ms))

end

/-- `repr` of a pair -/
def pairRepr (m : String × Json String) : List Char :=
  '(' :: (textRepr printable m.1 ++ ',' :: ' ' :: (valueRepr float printable m.2 ++ [')']))

/-- The rest of a list of pairs. -/
def morePairsRepr : List (String × Json String) → List Char
  | [] => [']']
  | m :: ms => ',' :: ' ' :: (pairRepr float printable m ++ morePairsRepr ms)

/-- `repr` of a list of pairs, such as the sorted items of a dictionary -/
def pairsRepr : List (String × Json String) → List Char
  | [] => ['[', ']']
  | m :: ms => '[' :: (pairRepr float printable m ++ morePairsRepr float printable ms)

end Writing

/-! ## Reading one character -/

/-- So many hexadecimal digits. -/
def readHex : Nat → List Char → Option (Nat × List Char)
  | 0, s => some (0, s)
  | _ + 1, [] => none
  | width + 1, c :: s =>
    match hexValue c, readHex width s with
    | some d, some (n, rest) => some (d * 16 ^ width + n, rest)
    | _, _ => none

theorem readHex_hexDigits (width n : Nat) (s : List Char) :
    readHex width (hexDigits width n ++ s) = some (n % 16 ^ width, s) := by
  induction width with
  | zero => simp [readHex, hexDigits, Nat.mod_one]
  | succ width ih =>
    have hdigit : hexValue (Nat.digitChar (n / 16 ^ width % 16)) = some (n / 16 ^ width % 16) :=
      hexValue_digitChar (Nat.mod_lt _ (by omega))
    have hsplit : n % 16 ^ (width + 1) = n / 16 ^ width % 16 * 16 ^ width + n % 16 ^ width := by
      rw [pow_succ, Nat.mod_mul, Nat.mul_comm (16 ^ width), Nat.add_comm]
    rw [hexDigits, List.cons_append, readHex, hdigit, ih, hsplit]

/-- A character, or an escape. -/
def readChar : List Char → Option (Char × List Char)
  | '\\' :: c :: s =>
    if c = 't' then some ('\t', s)
    else if c = 'n' then some ('\n', s)
    else if c = 'r' then some ('\r', s)
    else if c = 'x' then (readHex 2 s).map fun r => (Char.ofNat r.1, r.2)
    else if c = 'u' then (readHex 4 s).map fun r => (Char.ofNat r.1, r.2)
    else if c = 'U' then (readHex 8 s).map fun r => (Char.ofNat r.1, r.2)
    else some (c, s)
  | c :: s => some (c, s)
  | [] => none

/-- The quotation marks that a text can have. -/
def IsQuote (q : Char) : Prop := q = singleQuote ∨ q = doubleQuote

theorem isQuote_quoteOf (s : List Char) : IsQuote (quoteOf s) := by
  unfold quoteOf
  split
  · exact .inr rfl
  · exact .inl rfl

section Texts

variable {printable : Char → Bool} {q : Char}

theorem readChar_charText (hq : IsQuote q) (c : Char) (s : List Char) :
    readChar (charText printable q c ++ s) = some (c, s) := by
  have hhex : ∀ width, c.toNat < 16 ^ width →
      (readHex width (hexDigits width c.toNat ++ s)).map (fun r => (Char.ofNat r.1, r.2)) =
        some (c, s) := by
    intro width hlt
    rw [readHex_hexDigits, Nat.mod_eq_of_lt hlt, Option.map_some, Char.ofNat_toNat]
  have hbound := (lt_of_char c).1
  unfold charText
  split
  · rename_i hspecial
    have hplain : c = singleQuote ∨ c = doubleQuote ∨ c = '\\' := by
      rcases hspecial with rfl | rfl
      · rcases hq with rfl | rfl
        · exact .inl rfl
        · exact .inr (.inl rfl)
      · exact .inr (.inr rfl)
    rcases hplain with rfl | rfl | rfl <;> rfl
  · rename_i hspecial
    split
    · rename_i heq
      subst heq
      rfl
    · split
      · rename_i heq
        subst heq
        rfl
      · split
        · rename_i heq
          subst heq
          rfl
        · split
          · rw [List.singleton_append, readChar]
            intro d rest hcons
            exact absurd (.inr hcons) hspecial
          · split
            · rename_i hlt
              exact hhex 2 (by omega)
            · split
              · rename_i hlt
                exact hhex 4 (by omega)
              · exact hhex 8 (by omega)

/-- No character begins with the quotation mark itself. -/
theorem head_charText (c : Char) : ∃ d s, charText printable q c = d :: s ∧ (d = '\\' ∨ d ≠ q) := by
  unfold charText
  split
  · exact ⟨_, _, rfl, .inl rfl⟩
  · rename_i hspecial
    have hplain : c ≠ q := fun h => hspecial (.inl h)
    split
    · exact ⟨_, _, rfl, .inl rfl⟩
    · split
      · exact ⟨_, _, rfl, .inl rfl⟩
      · split
        · exact ⟨_, _, rfl, .inl rfl⟩
        · split
          · exact ⟨_, _, rfl, .inr hplain⟩
          · split
            · exact ⟨_, _, rfl, .inl rfl⟩
            · split
              · exact ⟨_, _, rfl, .inl rfl⟩
              · exact ⟨_, _, rfl, .inl rfl⟩

theorem quote_ne_head (hq : IsQuote q) {c : Char} {s t : List Char} :
    q :: s ≠ charText printable q c ++ t := by
  obtain ⟨d, s', hhead, hd⟩ := @head_charText printable q c
  rw [hhead, List.cons_append]
  intro heq
  obtain ⟨rfl, -⟩ := List.cons.inj heq
  rcases hd with rfl | hne
  · rcases hq with hq | hq
    · exact absurd hq (by decide)
    · exact absurd hq (by decide)
  · exact hne rfl

/-- By induction on the text: each character is read back, and none is the closing mark. -/
theorem chars_inj (hq : IsQuote q) {cs ds r r' : List Char}
    (h : cs.flatMap (charText printable q) ++ q :: r = ds.flatMap (charText printable q) ++ q :: r') :
    cs = ds ∧ r = r' := by
  induction cs generalizing ds with
  | nil =>
    cases ds with
    | nil => exact ⟨rfl, (List.cons.inj h).2⟩
    | cons d ds =>
      rw [List.flatMap_cons, List.append_assoc] at h
      exact absurd h (quote_ne_head hq)
  | cons c cs ih =>
    cases ds with
    | nil =>
      rw [List.flatMap_cons, List.append_assoc] at h
      exact absurd h.symm (quote_ne_head hq)
    | cons d ds =>
      rw [List.flatMap_cons, List.flatMap_cons, List.append_assoc, List.append_assoc] at h
      have hread := congrArg readChar h
      rw [readChar_charText hq, readChar_charText hq] at hread
      injection hread with hpair
      injection hpair with hchar hrest
      obtain ⟨htexts, hr⟩ := ih hrest
      exact ⟨by rw [hchar, htexts], hr⟩

theorem textRepr_inj {s t : String} {r r' : List Char}
    (h : textRepr printable s ++ r = textRepr printable t ++ r') : s = t ∧ r = r' := by
  simp only [textRepr, List.cons_append, List.append_assoc, List.nil_append] at h
  obtain ⟨hquote, hrest⟩ := List.cons.inj h
  rw [← hquote] at hrest
  obtain ⟨htexts, hr⟩ := chars_inj (isQuote_quoteOf _) hrest
  exact ⟨String.toList_injective htexts, hr⟩

end Texts

/-! ## Numbers and words -/

/-- A character of a number or a word. -/
def isWordChar (c : Char) : Bool := c.isAlphanum || c = '-' || c = '+' || c = '.'

/-- The words that stand for a value. -/
def words : List (List Char × Json String) :=
  [(['N', 'o', 'n', 'e'], .null), (['T', 'r', 'u', 'e'], .bool true),
    (['F', 'a', 'l', 's', 'e'], .bool false), (['n', 'a', 'n'], .number .nan),
    (['i', 'n', 'f'], .number (.inf false)), (['-', 'i', 'n', 'f'], .number (.inf true))]

/-- What a number or a word stands for. -/
def readScalar (token : List Char) : Option (Json String) :=
  match readToken token with
  | some t => some (.number t.value)
  | none => (words.find? fun w => w.1 = token).map Prod.snd

/-- The kinds of values that their first character tells apart. -/
def kind : Json String → Nat
  | .null | .bool _ | .number _ => 0
  | .str _ => 1
  | .arr _ => 2
  | .obj _ => 3

def kindOfChar (c : Char) : Nat :=
  if isWordChar c then 0 else if c = singleQuote ∨ c = doubleQuote then 1 else if c = '[' then 2
  else if c = '{' then 3 else 4

section Values

variable {float : ℚ → String} {printable : Char → Bool}

theorem isWordChar_of_isNumberChar {c : Char} (h : isNumberChar c = true) : isWordChar c = true := by
  simp only [isNumberChar, Bool.or_eq_true, decide_eq_true_eq] at h
  rcases h with ((((hdigit | rfl) | rfl) | rfl) | rfl) | rfl
  · simp [isWordChar, Char.isAlphanum, hdigit]
  all_goals decide

/-- A number is one token, and reads back. -/
theorem number_token {n : Number} (hplain : (Json.number n).plain float = true) :
    (numberRepr float n).all isWordChar = true ∧ readScalar (numberRepr float n) = some (.number n) := by
  have hword : ∀ s : List Char, s.all isNumberChar = true → s.all isWordChar = true := by
    intro s hs
    exact List.all_eq_true.mpr fun c hc => isWordChar_of_isNumberChar (List.all_eq_true.mp hs c hc)
  cases n with
  | int n =>
    obtain ⟨hchars, token, htoken, hvalue⟩ := readToken_int float n
    refine ⟨hword _ hchars, ?_⟩
    show readScalar (numberText float (.int n)) = _
    simp only [readScalar, htoken, hvalue]
  | float q =>
    have hback : ReadsBack float q = true := hplain
    rw [ReadsBack, Bool.and_eq_true, decide_eq_true_eq, Option.map_eq_some_iff] at hback
    obtain ⟨hchars, token, htoken, hvalue⟩ := hback
    refine ⟨hword _ hchars, ?_⟩
    show readScalar (float q).toList = _
    simp only [readScalar, htoken, hvalue]
  | negZero => exact ⟨rfl, rfl⟩
  | nan => exact ⟨rfl, rfl⟩
  | inf negative =>
    cases negative with
    | false => exact ⟨rfl, rfl⟩
    | true => exact ⟨rfl, rfl⟩

theorem scalar_token {v : Json String} (hkind : kind v = 0) (hplain : v.plain float = true) :
    (valueRepr float printable v).all isWordChar = true ∧
      readScalar (valueRepr float printable v) = some v := by
  cases v with
  | null => exact ⟨rfl, rfl⟩
  | bool b =>
    cases b with
    | true => exact ⟨rfl, rfl⟩
    | false => exact ⟨rfl, rfl⟩
  | number n =>
    rw [valueRepr]
    exact number_token hplain
  | _ => cases hkind

/-- The first character of a value tells its kind. -/
theorem head_valueRepr {v : Json String} (hplain : v.plain float = true) :
    ∃ c s, valueRepr float printable v = c :: s ∧ kindOfChar c = kind v := by
  have hscalar : kind v = 0 →
      ∃ c s, valueRepr float printable v = c :: s ∧ kindOfChar c = kind v := by
    intro hkind
    obtain ⟨hchars, hread⟩ := @scalar_token float printable v hkind hplain
    cases htoken : valueRepr float printable v with
    | nil =>
      rw [htoken] at hread
      cases hread
    | cons c s =>
      rw [htoken, List.all_cons, Bool.and_eq_true] at hchars
      exact ⟨c, s, rfl, by rw [hkind, kindOfChar, if_pos hchars.1]⟩
  match v with
  | .null => exact hscalar rfl
  | .bool _ => exact hscalar rfl
  | .number _ => exact hscalar rfl
  | .str s =>
    rw [valueRepr]
    refine ⟨_, _, rfl, ?_⟩
    rcases isQuote_quoteOf s.toList with hq | hq
    · rw [hq]
      rfl
    · rw [hq]
      rfl
  | .arr [] => exact ⟨_, _, rfl, rfl⟩
  | .arr (_ :: _) => exact ⟨_, _, rfl, rfl⟩
  | .obj [] => exact ⟨_, _, rfl, rfl⟩
  | .obj ((_, _) :: _) => exact ⟨_, _, rfl, rfl⟩

/-- Values of different kinds are told apart by their first characters. -/
theorem kind_eq {v w : Json String} {r r' : List Char} (hv : v.plain float = true)
    (hw : w.plain float = true)
    (h : valueRepr float printable v ++ r = valueRepr float printable w ++ r') : kind v = kind w := by
  obtain ⟨c, s, hc, hkind⟩ := @head_valueRepr float printable v hv
  obtain ⟨d, t, hd, hkind'⟩ := @head_valueRepr float printable w hw
  rw [hc, hd] at h
  rw [← hkind, ← hkind', (List.cons.inj h).1]

/-- No value begins with a character that begins none. -/
theorem ne_head {c : Char} (hc : kindOfChar c = 4) {v : Json String} {r t : List Char}
    (hv : v.plain float = true) : c :: r ≠ valueRepr float printable v ++ t := by
  obtain ⟨d, s, hd, hkind⟩ := @head_valueRepr float printable v hv
  rw [hd]
  intro h
  rw [← (List.cons.inj h).1, hc] at hkind
  cases v <;> cases hkind

theorem scalar_inj {v w : Json String} {r r' : List Char} (hkind : kind v = 0) (hkind' : kind w = 0)
    (hv : v.plain float = true) (hw : w.plain float = true) (hr : Stops isWordChar r)
    (hr' : Stops isWordChar r')
    (h : valueRepr float printable v ++ r = valueRepr float printable w ++ r') : v = w ∧ r = r' := by
  obtain ⟨hchars, hread⟩ := @scalar_token float printable v hkind hv
  obtain ⟨hchars', hread'⟩ := @scalar_token float printable w hkind' hw
  obtain ⟨htake, hdrop⟩ := span_of_stops hchars hr
  obtain ⟨htake', hdrop'⟩ := span_of_stops hchars' hr'
  rw [h, htake'] at htake
  rw [h, hdrop'] at hdrop
  rw [htake, hread] at hread'
  exact ⟨Option.some.inj hread', hdrop.symm⟩

theorem stops_itemsRepr (xs : List (Json String)) (r : List Char) :
    Stops isWordChar (itemsRepr float printable xs ++ r) := by
  cases xs with
  | nil =>
    rintro c ⟨⟩
    decide
  | cons x xs =>
    rintro c ⟨⟩
    decide

theorem stops_membersRepr (ms : List (String × Json String)) (r : List Char) :
    Stops isWordChar (membersRepr float printable ms ++ r) := by
  cases ms with
  | nil =>
    rintro c ⟨⟩
    decide
  | cons m ms =>
    rintro c ⟨⟩
    decide

/-! ## Values from the front of a text -/

mutual

/-- **A value is told from what follows it**: by induction on the first value, along both texts. -/
theorem valueRepr_inj : ∀ {v w : Json String} {r r' : List Char}, v.plain float = true →
    w.plain float = true → Stops isWordChar r → Stops isWordChar r' →
    valueRepr float printable v ++ r = valueRepr float printable w ++ r' → v = w ∧ r = r'
  | .null, w, _, _, hv, hw, hr, hr', h =>
    scalar_inj rfl (kind_eq hv hw h).symm hv hw hr hr' h
  | .bool b, w, _, _, hv, hw, hr, hr', h =>
    scalar_inj rfl (kind_eq (v := .bool b) hv hw h).symm hv hw hr hr' h
  | .number n, w, _, _, hv, hw, hr, hr', h =>
    scalar_inj rfl (kind_eq (v := .number n) hv hw h).symm hv hw hr hr' h
  | .str s, w, _, _, hv, hw, _, _, h => by
    have hkind := kind_eq hv hw h
    cases w with
    | str t =>
      rw [valueRepr, valueRepr] at h
      obtain ⟨rfl, hrest⟩ := textRepr_inj h
      exact ⟨rfl, hrest⟩
    | _ => cases hkind
  | .arr [], w, _, _, hv, hw, _, _, h => by
    have hkind := kind_eq hv hw h
    cases w with
    | arr ys =>
      cases ys with
      | nil =>
        rw [valueRepr] at h
        exact ⟨rfl, (List.cons.inj (List.cons.inj h).2).2⟩
      | cons y ys =>
        rw [Json.plain, Json.plainList, Bool.and_eq_true] at hw
        simp only [valueRepr, List.cons_append, List.append_assoc, List.nil_append] at h
        exact absurd (List.cons.inj h).2 (ne_head rfl hw.1)
    | _ => cases hkind
  | .arr (x :: xs), w, r, r', hv, hw, _, _, h => by
    have hkind := kind_eq hv hw h
    rw [Json.plain, Json.plainList, Bool.and_eq_true] at hv
    cases w with
    | arr ys =>
      cases ys with
      | nil =>
        simp only [valueRepr, List.cons_append, List.append_assoc, List.nil_append] at h
        exact absurd (List.cons.inj h).2.symm (ne_head rfl hv.1)
      | cons y ys =>
        rw [Json.plain, Json.plainList, Bool.and_eq_true] at hw
        simp only [valueRepr, List.cons_append, List.append_assoc] at h
        obtain ⟨rfl, hitems⟩ := valueRepr_inj hv.1 hw.1 (stops_itemsRepr xs r)
          (stops_itemsRepr ys r') (List.cons.inj h).2
        obtain ⟨rfl, hr⟩ := itemsRepr_inj hv.2 hw.2 hitems
        exact ⟨rfl, hr⟩
    | _ => cases hkind
  | .obj [], w, _, _, hv, hw, _, _, h => by
    have hkind := kind_eq hv hw h
    cases w with
    | obj ns =>
      cases ns with
      | nil =>
        rw [valueRepr] at h
        exact ⟨rfl, (List.cons.inj (List.cons.inj h).2).2⟩
      | cons n ns =>
        obtain ⟨l, y⟩ := n
        rw [valueRepr, valueRepr] at h
        have hhead := (List.cons.inj (List.cons.inj h).2).1
        rcases isQuote_quoteOf l.toList with hq | hq
        · rw [hq] at hhead
          cases hhead
        · rw [hq] at hhead
          cases hhead
    | _ => cases hkind
  | .obj ((k, x) :: ms), w, r, r', hv, hw, _, _, h => by
    have hkind := kind_eq hv hw h
    rw [Json.plain, Bool.and_eq_true, Json.plainMembers, Bool.and_eq_true] at hv
    cases w with
    | obj ns =>
      cases ns with
      | nil =>
        rw [valueRepr, valueRepr] at h
        have hhead := (List.cons.inj (List.cons.inj h).2).1
        rcases isQuote_quoteOf k.toList with hq | hq
        · rw [hq] at hhead
          cases hhead
        · rw [hq] at hhead
          cases hhead
      | cons n ns =>
        obtain ⟨l, y⟩ := n
        rw [Json.plain, Bool.and_eq_true, Json.plainMembers, Bool.and_eq_true] at hw
        simp only [valueRepr, List.cons_append, List.append_assoc] at h
        obtain ⟨rfl, hrest⟩ := textRepr_inj (List.cons.inj h).2
        have hvalue := (List.cons.inj (List.cons.inj hrest).2).2
        obtain ⟨rfl, hmembers⟩ := valueRepr_inj hv.2.1 hw.2.1 (stops_membersRepr ms r)
          (stops_membersRepr ns r') hvalue
        obtain ⟨rfl, hr⟩ := membersRepr_inj hv.2.2 hw.2.2 hmembers
        exact ⟨rfl, hr⟩
    | _ => cases hkind

theorem itemsRepr_inj : ∀ {xs ys : List (Json String)} {r r' : List Char},
    Json.plainList float xs = true → Json.plainList float ys = true →
    itemsRepr float printable xs ++ r = itemsRepr float printable ys ++ r' → xs = ys ∧ r = r'
  | [], [], _, _, _, _, h => ⟨rfl, (List.cons.inj h).2⟩
  | [], y :: ys, _, _, _, _, h => by
    rw [itemsRepr, itemsRepr] at h
    cases (List.cons.inj h).1
  | x :: xs, [], _, _, _, _, h => by
    rw [itemsRepr, itemsRepr] at h
    cases (List.cons.inj h).1
  | x :: xs, y :: ys, r, r', hv, hw, h => by
    rw [Json.plainList, Bool.and_eq_true] at hv hw
    simp only [itemsRepr, List.cons_append, List.append_assoc] at h
    obtain ⟨rfl, hitems⟩ := valueRepr_inj hv.1 hw.1 (stops_itemsRepr xs r) (stops_itemsRepr ys r')
      (List.cons.inj (List.cons.inj h).2).2
    obtain ⟨rfl, hr⟩ := itemsRepr_inj hv.2 hw.2 hitems
    exact ⟨rfl, hr⟩

theorem membersRepr_inj : ∀ {ms ns : List (String × Json String)} {r r' : List Char},
    Json.plainMembers float ms = true → Json.plainMembers float ns = true →
    membersRepr float printable ms ++ r = membersRepr float printable ns ++ r' → ms = ns ∧ r = r'
  | [], [], _, _, _, _, h => ⟨rfl, (List.cons.inj h).2⟩
  | [], (_, _) :: _, _, _, _, _, h => by
    rw [membersRepr, membersRepr] at h
    cases (List.cons.inj h).1
  | (_, _) :: _, [], _, _, _, _, h => by
    rw [membersRepr, membersRepr] at h
    cases (List.cons.inj h).1
  | (k, x) :: ms, (l, y) :: ns, r, r', hv, hw, h => by
    rw [Json.plainMembers, Bool.and_eq_true] at hv hw
    simp only [membersRepr, List.cons_append, List.append_assoc] at h
    obtain ⟨rfl, hrest⟩ := textRepr_inj (List.cons.inj (List.cons.inj h).2).2
    have hvalue := (List.cons.inj (List.cons.inj hrest).2).2
    obtain ⟨rfl, hmembers⟩ := valueRepr_inj hv.1 hw.1 (stops_membersRepr ms r)
      (stops_membersRepr ns r') hvalue
    obtain ⟨rfl, hr⟩ := membersRepr_inj hv.2 hw.2 hmembers
    exact ⟨rfl, hr⟩

end

/-! ## Lists of pairs -/

theorem pairRepr_inj {m n : String × Json String} {r r' : List Char}
    (hm : m.2.plain float = true) (hn : n.2.plain float = true)
    (h : pairRepr float printable m ++ r = pairRepr float printable n ++ r') : m = n ∧ r = r' := by
  obtain ⟨k, x⟩ := m
  obtain ⟨l, y⟩ := n
  have hstops : ∀ s : List Char, Stops isWordChar (')' :: s) := by
    rintro s c ⟨⟩
    decide
  simp only [pairRepr, List.append_assoc, List.cons_append, List.nil_append] at h
  obtain ⟨rfl, hrest⟩ := textRepr_inj (List.cons.inj h).2
  have hvalue := (List.cons.inj (List.cons.inj hrest).2).2
  obtain ⟨hxy, hlast⟩ := valueRepr_inj hm hn (hstops r) (hstops r') hvalue
  exact ⟨congrArg _ hxy, (List.cons.inj hlast).2⟩

theorem morePairsRepr_inj {ms ns : List (String × Json String)}
    (hms : ∀ m ∈ ms, m.2.plain float = true) (hns : ∀ n ∈ ns, n.2.plain float = true)
    (h : morePairsRepr float printable ms = morePairsRepr float printable ns) : ms = ns := by
  induction ms generalizing ns with
  | nil =>
    cases ns with
    | nil => rfl
    | cons n ns =>
      rw [morePairsRepr, morePairsRepr] at h
      cases (List.cons.inj h).1
  | cons m ms ih =>
    cases ns with
    | nil =>
      rw [morePairsRepr, morePairsRepr] at h
      cases (List.cons.inj h).1
    | cons n ns =>
      rw [List.forall_mem_cons] at hms hns
      rw [morePairsRepr, morePairsRepr] at h
      obtain ⟨rfl, hrest⟩ := pairRepr_inj hms.1 hns.1 (List.cons.inj (List.cons.inj h).2).2
      rw [ih hms.2 hns.2 hrest]

/-- **A list of pairs is told from its representation.** -/
theorem pairsRepr_inj {ms ns : List (String × Json String)}
    (hms : ∀ m ∈ ms, m.2.plain float = true) (hns : ∀ n ∈ ns, n.2.plain float = true)
    (h : pairsRepr float printable ms = pairsRepr float printable ns) : ms = ns := by
  cases ms with
  | nil =>
    cases ns with
    | nil => rfl
    | cons n ns => cases (List.cons.inj (List.cons.inj h).2).1
  | cons m ms =>
    cases ns with
    | nil => cases (List.cons.inj (List.cons.inj h).2).1
    | cons n ns =>
      rw [List.forall_mem_cons] at hms hns
      obtain ⟨rfl, hrest⟩ := pairRepr_inj hms.1 hns.1 (List.cons.inj h).2
      rw [morePairsRepr_inj hms.2 hns.2 hrest]

end Values

end FavlGateway.Library.PyRepr
