/-
  URI references as RFC 3986 reads them, over code points: the five components of a text (appendix B),
  the segments of a path, and the removal of dot segments (5.2.4).

  What the users of this file need are two facts about a text that is put together from a base and a
  path: the components of the whole (`parse_append`), and that a path without `..` segments climbs
  out of nothing (`removeDots_append`).
-/
import Mathlib.Data.List.TakeWhile

namespace FavlGateway.Library

/-- `'/'` -/
def slash : Nat := 0x2F

/-- The components of a URI reference. -/
@[ext]
structure Uri where
  scheme : Option (List Nat)
  /-- user information, host and port -/
  authority : Option (List Nat)
  path : List Nat
  query : Option (List Nat)
  fragment : Option (List Nat)
  deriving DecidableEq

namespace Uri

/-- One of `:/?#` -/
def endsScheme (c : Nat) : Bool := c = 0x3A || c = slash || c = 0x3F || c = 0x23

/-- One of `/?#` -/
def endsAuthority (c : Nat) : Bool := c = slash || c = 0x3F || c = 0x23

/-- One of `?#` -/
def endsPath (c : Nat) : Bool := c = 0x3F || c = 0x23

/-- `(([^:/?#]+):)?`, and what follows it -/
def splitScheme (text : List Nat) : Option (List Nat) × List Nat :=
  let scheme := text.takeWhile fun c => !endsScheme c
  let rest := text.dropWhile fun c => !endsScheme c
  if scheme ≠ [] ∧ rest.head? = some 0x3A then (some scheme, rest.tail) else (none, text)

/-- `(//([^/?#]*))?`, and what follows it -/
def splitAuthority (text : List Nat) : Option (List Nat) × List Nat :=
  if text.take 2 = [slash, slash] then
    (some ((text.drop 2).takeWhile fun c => !endsAuthority c),
      (text.drop 2).dropWhile fun c => !endsAuthority c)
  else (none, text)

/-- `(\?([^#]*))?`, and what follows it -/
def splitQuery (text : List Nat) : Option (List Nat) × List Nat :=
  if text.head? = some 0x3F then
    (some (text.tail.takeWhile fun c => c ≠ 0x23), text.tail.dropWhile fun c => c ≠ 0x23)
  else (none, text)

/-- `(#(.*))?` -/
def splitFragment (text : List Nat) : Option (List Nat) :=
  if text.head? = some 0x23 then some text.tail else none

/-- What follows scheme and authority. -/
def hierarchy (text : List Nat) : List Nat := (splitAuthority (splitScheme text).2).2

/-- The components of a text. -/
def parse (text : List Nat) : Uri where
  scheme := (splitScheme text).1
  authority := (splitAuthority (splitScheme text).2).1
  path := (hierarchy text).takeWhile fun c => !endsPath c
  query := (splitQuery ((hierarchy text).dropWhile fun c => !endsPath c)).1
  fragment :=
    splitFragment (splitQuery ((hierarchy text).dropWhile fun c => !endsPath c)).2

/-- The segments of an absolute path. -/
def segments : List Nat → Option (List (List Nat))
  | [] => none
  | c :: rest => if c = slash then some (rest.splitOn slash) else none

/-! ### Dot segments -/

/-- `"."` -/
def dot : List Nat := [0x2E]

/-- `".."` -/
def dots : List Nat := [0x2E, 0x2E]

/-- A text up to its first slash. -/
def upToSlash (text : List Nat) : List Nat := text.takeWhile fun c => c ≠ slash

/-- A text from its first slash on. -/
def fromSlash (text : List Nat) : List Nat := text.dropWhile fun c => c ≠ slash

/-- A complete segment at the end of a path leaves its slash behind. -/
def orSlash (text : List Nat) : List Nat := if text = [] then [slash] else text

theorem upToSlash_append_fromSlash (text : List Nat) : upToSlash text ++ fromSlash text = text :=
  List.takeWhile_append_dropWhile

theorem length_fromSlash (text : List Nat) :
    (upToSlash text).length + (fromSlash text).length = text.length := by
  rw [← List.length_append, upToSlash_append_fromSlash]

theorem fromSlash_cons {c : Nat} (hc : c ≠ slash) (rest : List Nat) :
    fromSlash (c :: rest) = fromSlash rest := by
  unfold fromSlash
  rw [List.dropWhile_cons, if_pos (by simpa using hc)]

/-- Dropping a segment leaves less. -/
theorem length_orSlash {text segment : List Nat} (h : upToSlash text = segment)
    (hsegment : 0 < segment.length) : (orSlash (fromSlash text)).length < text.length + 1 := by
  have hlength := length_fromSlash text
  rw [h] at hlength
  unfold orSlash
  split
  · show 1 < text.length + 1
    omega
  · omega

/-- `remove_dot_segments`: the segments moved to the output so far, the last one first, and the rest
    of the input. -/
def removeDots (output : List (List Nat)) : List Nat → List Nat
  | [] => output.reverse.flatten
  | c :: rest =>
    if c = slash then
      if upToSlash rest = dot then removeDots output (orSlash (fromSlash rest))
      else if upToSlash rest = dots then removeDots output.tail (orSlash (fromSlash rest))
      else removeDots ((slash :: upToSlash rest) :: output) (fromSlash rest)
    else if upToSlash (c :: rest) = dot ∨ upToSlash (c :: rest) = dots then
      removeDots output (fromSlash (c :: rest)).tail
    else removeDots (upToSlash (c :: rest) :: output) (fromSlash (c :: rest))
  termination_by input => input.length
  decreasing_by
    · rename_i hdot
      exact length_orSlash hdot (by decide)
    · rename_i hdots
      exact length_orSlash hdots (by decide)
    · have hlength := length_fromSlash rest
      simp only [List.length_cons]
      omega
    · rename_i hc _
      have hlength := length_fromSlash rest
      rw [fromSlash_cons hc, List.length_tail, List.length_cons]
      omega
    · rename_i hc _
      have hlength := length_fromSlash rest
      rw [fromSlash_cons hc, List.length_cons]
      omega

section Dots

variable {s rest : List Nat} {output : List (List Nat)}

theorem passes (h : slash ∉ s) : ∀ c ∈ s, decide (c ≠ slash) = true := by
  intro c hc
  exact decide_eq_true fun heq => h (heq ▸ hc)

theorem upToSlash_of_notMem (h : slash ∉ s) : upToSlash s = s := by
  exact List.takeWhile_eq_self_iff.mpr (passes h)

theorem fromSlash_of_notMem (h : slash ∉ s) : fromSlash s = [] := by
  exact List.dropWhile_eq_nil_iff.mpr (passes h)

theorem upToSlash_append (h : slash ∉ s) : upToSlash (s ++ slash :: rest) = s := by
  unfold upToSlash
  rw [List.takeWhile_append_of_pos (passes h), List.takeWhile_cons, if_neg (by decide), List.append_nil]

theorem fromSlash_append (h : slash ∉ s) : fromSlash (s ++ slash :: rest) = slash :: rest := by
  unfold fromSlash
  rw [List.dropWhile_append_of_pos (passes h), List.dropWhile_cons, if_neg (by decide)]

/-- A text is one segment, or a segment, a slash and the rest. -/
theorem exists_segment (text : List Nat) :
    ∃ s, slash ∉ s ∧ (text = s ∨ ∃ rest, text = s ++ slash :: rest) := by
  refine ⟨upToSlash text, ?_, ?_⟩
  · intro h
    have hne := List.mem_takeWhile_imp h
    simp at hne
  · have happend := upToSlash_append_fromSlash text
    cases hfrom : fromSlash text with
    | nil =>
      left
      rw [hfrom, List.append_nil] at happend
      exact happend.symm
    | cons c rest =>
      right
      have hc : c = slash := by
        have hhead := List.head?_dropWhile_not (fun c => decide (c ≠ slash)) text
        rw [show text.dropWhile (fun c => decide (c ≠ slash)) = c :: rest from hfrom] at hhead
        simpa using hhead
      rw [hfrom, hc] at happend
      exact ⟨rest, happend.symm⟩

/-- Rule E: a segment that is no dot segment is moved. -/
theorem removeDots_move (h : slash ∉ s) (hdot : s ≠ dot) (hdots : s ≠ dots) :
    removeDots output (slash :: (s ++ slash :: rest)) =
      removeDots ((slash :: s) :: output) (slash :: rest) := by
  rw [removeDots, if_pos rfl, upToSlash_append h, fromSlash_append h, if_neg hdot, if_neg hdots]

theorem removeDots_last (h : slash ∉ s) (hdot : s ≠ dot) (hdots : s ≠ dots) :
    removeDots output (slash :: s) = output.reverse.flatten ++ slash :: s := by
  rw [removeDots, if_pos rfl, upToSlash_of_notMem h, fromSlash_of_notMem h, if_neg hdot,
    if_neg hdots, removeDots]
  simp

/-- The first segment of a relative path is moved too. -/
theorem removeDots_first (hs : s ≠ []) (h : slash ∉ s) (hdot : s ≠ dot) (hdots : s ≠ dots) :
    removeDots output (s ++ slash :: rest) = removeDots (s :: output) (slash :: rest) := by
  cases s with
  | nil => exact absurd rfl hs
  | cons c s =>
    have hc : c ≠ slash := fun heq => h (heq ▸ List.mem_cons_self)
    rw [List.cons_append, removeDots, if_neg hc, ← List.cons_append, upToSlash_append h,
      fromSlash_append h, if_neg (by simp [hdot, hdots])]

/-- Rule B: a single dot is dropped. -/
theorem removeDots_dot :
    removeDots output (slash :: (dot ++ slash :: rest)) = removeDots output (slash :: rest) := by
  have h : slash ∉ dot := by decide
  rw [removeDots, if_pos rfl, upToSlash_append h, fromSlash_append h, if_pos rfl]
  rfl

theorem removeDots_lastDot :
    removeDots output (slash :: dot) = output.reverse.flatten ++ [slash] := by
  have h : slash ∉ dot := by decide
  rw [removeDots, if_pos rfl, upToSlash_of_notMem h, fromSlash_of_notMem h, if_pos rfl]
  exact removeDots_last List.not_mem_nil (by decide) (by decide)

/-- Without `..`, nothing that has been moved to the output is taken back: by induction on the
    length of the path, one segment at a time. -/
theorem removeDots_keeps (output : List (List Nat)) (rest : List Nat) (h : dots ∉ rest.splitOn slash) :
    ∃ suffix, removeDots output (slash :: rest) = output.reverse.flatten ++ slash :: suffix := by
  induction hlength : rest.length using Nat.strong_induction_on generalizing rest output with
  | _ n ih =>
    obtain ⟨s, hs, hrest | ⟨after, hrest⟩⟩ := exists_segment rest
    · rw [hrest, List.splitOn_eq_singleton hs, List.mem_singleton] at h
      rw [hrest]
      by_cases hdot : s = dot
      · rw [hdot, removeDots_lastDot]
        exact ⟨[], rfl⟩
      · rw [removeDots_last hs hdot fun heq => h heq.symm]
        exact ⟨s, rfl⟩
    · rw [hrest, List.splitOn_append_cons_self_of_not_mem hs, List.mem_cons, not_or] at h
      have hshorter : after.length < n := by
        rw [← hlength, hrest, List.length_append, List.length_cons]
        omega
      rw [hrest]
      by_cases hdot : s = dot
      · rw [hdot, removeDots_dot]
        exact ih after.length hshorter output after h.2 rfl
      · rw [removeDots_move hs hdot fun heq => h.1 heq.symm]
        obtain ⟨suffix, hsuffix⟩ := ih after.length hshorter ((slash :: s) :: output) after h.2 rfl
        refine ⟨s ++ slash :: suffix, ?_⟩
        rw [hsuffix]
        simp

/-- A path has dot segments. -/
def HasDots (path : List Nat) : Prop := dot ∈ path.splitOn slash ∨ dots ∈ path.splitOn slash

instance (path : List Nat) : Decidable (HasDots path) := inferInstanceAs (Decidable (_ ∨ _))

theorem hasDots_of_notMem (hs : slash ∉ s) : HasDots s ↔ s = dot ∨ s = dots := by
  unfold HasDots
  rw [List.splitOn_eq_singleton hs, List.mem_singleton, List.mem_singleton, eq_comm,
    @eq_comm _ dots]

theorem hasDots_append (hs : slash ∉ s) :
    HasDots (s ++ slash :: rest) ↔ (s = dot ∨ s = dots) ∨ HasDots rest := by
  unfold HasDots
  rw [List.splitOn_append_cons_self_of_not_mem hs, List.mem_cons, List.mem_cons, or_or_or_comm,
    eq_comm, @eq_comm _ dots]

/-- An absolute path without dot segments is moved as it is. -/
theorem removeDots_absolute (output : List (List Nat)) (base : List Nat) (h : ¬ HasDots base) :
    ∃ output', output'.reverse.flatten = output.reverse.flatten ++ slash :: base ∧
      ∀ rest, removeDots output (slash :: (base ++ slash :: rest)) =
        removeDots output' (slash :: rest) := by
  induction hlength : base.length using Nat.strong_induction_on generalizing base output with
  | _ n ih =>
    obtain ⟨s, hs, hbase | ⟨after, hbase⟩⟩ := exists_segment base
    · rw [hbase, hasDots_of_notMem hs, not_or] at h
      refine ⟨(slash :: s) :: output, by rw [hbase]; simp, fun rest => ?_⟩
      rw [hbase]
      exact removeDots_move hs h.1 h.2
    · rw [hbase, hasDots_append hs, not_or, not_or] at h
      have hshorter : after.length < n := by
        rw [← hlength, hbase, List.length_append, List.length_cons]
        omega
      obtain ⟨output', hmoved, hrest⟩ := ih after.length hshorter
        ((slash :: s) :: output) after h.2 rfl
      refine ⟨output', ?_, fun rest => ?_⟩
      · rw [hmoved, hbase]
        simp
      · rw [← hrest rest, hbase, List.append_assoc, List.cons_append]
        exact removeDots_move hs h.1.1 h.1.2

/-- And so is any path without dot segments that a slash follows. -/
theorem removeDots_base (base : List Nat) (h : ¬ HasDots base) :
    ∃ output, output.reverse.flatten = base ∧
      ∀ rest, removeDots [] (base ++ slash :: rest) = removeDots output (slash :: rest) := by
  obtain ⟨s, hs, hbase | ⟨after, hbase⟩⟩ := exists_segment base
  · rw [hbase, hasDots_of_notMem hs, not_or] at h
    rw [hbase]
    by_cases hempty : s = []
    · exact ⟨[], hempty.symm, fun rest => by rw [hempty]; rfl⟩
    · exact ⟨[s], by simp, fun rest => removeDots_first hempty hs h.1 h.2⟩
  · rw [hbase, hasDots_append hs, not_or, not_or] at h
    rw [hbase]
    by_cases hempty : s = []
    · obtain ⟨output, hmoved, hrest⟩ := removeDots_absolute [] after h.2
      exact ⟨output, by rw [hmoved, hempty]; rfl, fun rest => by rw [hempty]; exact hrest rest⟩
    · obtain ⟨output, hmoved, hrest⟩ := removeDots_absolute [s] after h.2
      refine ⟨output, by rw [hmoved]; simp, fun rest => ?_⟩
      rw [← hrest rest, List.append_assoc, List.cons_append]
      exact removeDots_first hempty hs h.1.1 h.1.2

/-- **A path without `..` stays below its base.** -/
theorem removeDots_append {base path : List Nat} (hbase : ¬ HasDots base)
    (hpath : dots ∉ path.splitOn slash) :
    ∃ suffix, removeDots [] (base ++ slash :: path) = base ++ slash :: suffix := by
  obtain ⟨output, hmoved, hrest⟩ := removeDots_base base hbase
  obtain ⟨suffix, hsuffix⟩ := removeDots_keeps output path hpath
  exact ⟨suffix, by rw [hrest, hsuffix, hmoved]⟩

end Dots

/-! ### Components of a text put together -/

section Parse

variable {base tail text : List Nat}

/-- A text without query and fragment. -/
def Plain (text : List Nat) : Prop := ∀ c ∈ text, endsPath c = false

instance (text : List Nat) : Decidable (Plain text) :=
  inferInstanceAs (Decidable (∀ c ∈ text, endsPath c = false))

theorem plain_nil : Plain [] := by
  intro c hc
  cases hc

theorem Plain.append {s t : List Nat} (hs : Plain s) (ht : Plain t) : Plain (s ++ t) := by
  intro c hc
  rcases List.mem_append.mp hc with hc | hc
  · exact hs c hc
  · exact ht c hc

theorem plain_append {s t : List Nat} : Plain (s ++ t) ↔ Plain s ∧ Plain t :=
  ⟨fun h => ⟨fun c hc => h c (List.mem_append_left t hc),
    fun c hc => h c (List.mem_append_right s hc)⟩, fun h => h.1.append h.2⟩

theorem takeWhile_stops {p : Nat → Bool} {c : Nat} (hc : p c = false) :
    (base ++ c :: tail).takeWhile p = base.takeWhile p := by
  induction base with
  | nil => rw [List.nil_append, List.takeWhile_cons, hc]; rfl
  | cons d base ih => rw [List.cons_append, List.takeWhile_cons, List.takeWhile_cons, ih]

theorem dropWhile_stops {p : Nat → Bool} {c : Nat} (hc : p c = false) :
    (base ++ c :: tail).dropWhile p = base.dropWhile p ++ c :: tail := by
  induction base with
  | nil => rw [List.nil_append, List.dropWhile_cons, hc]; rfl
  | cons d base ih =>
    rw [List.cons_append, List.dropWhile_cons, List.dropWhile_cons, ih]
    split
    · rfl
    · rfl

/-- A slash ends what may be a scheme. -/
theorem splitScheme_append : splitScheme (base ++ slash :: tail) =
    ((splitScheme base).1, (splitScheme base).2 ++ slash :: tail) := by
  unfold splitScheme
  rw [takeWhile_stops (by decide), dropWhile_stops (by decide)]
  cases hrest : base.dropWhile fun c => !endsScheme c with
  | nil =>
    have hslash : ¬ some slash = some 0x3A := by decide
    simp [hslash]
  | cons c rest =>
    by_cases hscheme : base.takeWhile (fun c => !endsScheme c) ≠ [] ∧
        (c :: rest).head? = some 0x3A
    · have hscheme' : base.takeWhile (fun c => !endsScheme c) ≠ [] ∧
          (c :: rest ++ slash :: tail).head? = some 0x3A := hscheme
      rw [if_pos hscheme, if_pos hscheme']
      rfl
    · have hscheme' : ¬ (base.takeWhile (fun c => !endsScheme c) ≠ [] ∧
          (c :: rest ++ slash :: tail).head? = some 0x3A) := hscheme
      rw [if_neg hscheme, if_neg hscheme']

/-- A slash ends an authority, and one slash begins none. -/
theorem splitAuthority_append (hbase : base ≠ [slash]) (htail : tail.head? ≠ some slash) :
    splitAuthority (base ++ slash :: tail) =
      ((splitAuthority base).1, (splitAuthority base).2 ++ slash :: tail) := by
  match base with
  | [] =>
    cases tail with
    | nil => rfl
    | cons c tail =>
      have hc : c ≠ slash := by simpa using htail
      simp [splitAuthority, hc]
  | [c] =>
    have hc : c ≠ slash := fun heq => hbase (by rw [heq])
    simp [splitAuthority, hc]
  | c :: d :: rest =>
    unfold splitAuthority
    by_cases hslashes : [c, d] = [slash, slash]
    · simp [hslashes, takeWhile_stops (c := slash) (p := fun c => !endsAuthority c) (by decide),
        dropWhile_stops (c := slash) (p := fun c => !endsAuthority c) (by decide)]
    · simp [hslashes]

theorem plain_takeWhile {ends : Nat → Bool} (h : ∀ c, ends c = false → endsPath c = false)
    (text : List Nat) : Plain (text.takeWhile fun c => !ends c) := by
  intro c hc
  have hends := List.mem_takeWhile_imp hc
  exact h c (by simpa using hends)

/-- Before the rest of a text there is only what begins neither query nor fragment. -/
theorem splitScheme_rest (text : List Nat) :
    ∃ front, Plain front ∧ text = front ++ (splitScheme text).2 := by
  unfold splitScheme
  dsimp only
  split
  · rename_i h
    obtain ⟨-, hcolon⟩ := h
    obtain ⟨rest, hrest⟩ := List.head?_eq_some_iff.mp hcolon
    refine ⟨text.takeWhile (fun c => !endsScheme c) ++ [0x3A], ?_, ?_⟩
    · refine (plain_takeWhile (fun c hc => ?_) text).append (by decide)
      simp only [endsScheme, endsPath, Bool.or_eq_false_iff] at hc ⊢
      exact ⟨hc.1.2, hc.2⟩
    · have hsplit := List.takeWhile_append_dropWhile (p := fun c => !endsScheme c) (l := text)
      rw [hrest] at hsplit ⊢
      rw [List.append_assoc]
      exact hsplit.symm
  · exact ⟨[], plain_nil, rfl⟩

theorem splitAuthority_rest (text : List Nat) :
    ∃ front, Plain front ∧ text = front ++ (splitAuthority text).2 := by
  unfold splitAuthority
  split
  · rename_i h
    refine ⟨[slash, slash] ++ (text.drop 2).takeWhile fun c => !endsAuthority c, ?_, ?_⟩
    · have hslashes : Plain [slash, slash] := by decide
      refine hslashes.append (plain_takeWhile (fun c hc => ?_) _)
      simp only [endsAuthority, endsPath, Bool.or_eq_false_iff] at hc ⊢
      exact ⟨hc.1.2, hc.2⟩
    · rw [List.append_assoc, List.takeWhile_append_dropWhile, ← h, List.take_append_drop]
  · exact ⟨[], plain_nil, rfl⟩

theorem plain_hierarchy (text : List Nat) : Plain (hierarchy text) ↔ Plain text := by
  obtain ⟨front, hfront, htext⟩ := splitScheme_rest text
  obtain ⟨front', hfront', hrest⟩ := splitAuthority_rest (splitScheme text).2
  have hwhole : text = front ++ (front' ++ hierarchy text) := by
    rw [show hierarchy text = (splitAuthority (splitScheme text).2).2 from rfl, ← hrest, ← htext]
  rw [hwhole, plain_append, plain_append, ← hwhole]
  exact ⟨fun h => ⟨hfront, hfront', h⟩, fun h => h.2.2⟩

/-- **A text has neither query nor fragment if none of its characters begins one.** -/
theorem parse_plain_iff :
    ((parse text).query = none ∧ (parse text).fragment = none) ↔ Plain text := by
  rw [← plain_hierarchy]
  cases hrest : (hierarchy text).dropWhile fun c => !endsPath c with
  | nil =>
    have hplain : Plain (hierarchy text) := by
      intro c hc
      simpa using List.dropWhile_eq_nil_iff.mp hrest c hc
    simp [parse, hrest, splitQuery, splitFragment, hplain]
  | cons c rest =>
    have hc : endsPath c = true := by
      have hhead := List.head?_dropWhile_not (fun c => !endsPath c) (hierarchy text)
      rw [hrest] at hhead
      simpa using hhead
    have hplain : ¬ Plain (hierarchy text) := by
      intro hplain
      have hmem : c ∈ hierarchy text :=
        (List.dropWhile_sublist _).subset (hrest ▸ List.mem_cons_self)
      rw [hplain c hmem] at hc
      cases hc
    refine ⟨fun h => ?_, fun h => absurd h hplain⟩
    obtain ⟨hquery, hfragment⟩ := h
    simp only [parse, hrest, splitQuery] at hquery hfragment
    by_cases hquestion : c = 0x3F
    · simp [hquestion] at hquery
    · have hhash : c = 0x23 := by
        simpa [endsPath, hquestion] using hc
      simp [hhash, splitFragment] at hfragment

theorem parse_path (h : Plain text) : (parse text).path = hierarchy text := by
  refine List.takeWhile_eq_self_iff.mpr fun c hc => ?_
  rw [(plain_hierarchy text).mpr h c hc]
  rfl

/-- **A path that is put after a base** leaves its scheme and authority alone and is appended to its
    path. -/
theorem parse_append (hbase : Plain base) (htail : Plain tail)
    (hone : (splitScheme base).2 ≠ [slash]) (hhead : tail.head? ≠ some slash) :
    parse (base ++ slash :: tail) =
      { parse base with path := (parse base).path ++ slash :: tail } := by
  have hslash : Plain [slash] := by decide
  have hwhole : Plain (base ++ slash :: tail) := hbase.append (hslash.append htail)
  have hscheme : splitScheme (base ++ slash :: tail) = _ := splitScheme_append
  have hauthority := splitAuthority_append hone hhead
  obtain ⟨hquery, hfragment⟩ := parse_plain_iff.mpr hbase
  obtain ⟨hquery', hfragment'⟩ := parse_plain_iff.mpr hwhole
  have hpath : (parse (base ++ slash :: tail)).path = (parse base).path ++ slash :: tail := by
    rw [parse_path hbase, parse_path hwhole]
    unfold hierarchy
    rw [hscheme, hauthority]
  refine Uri.ext ?_ ?_ hpath ?_ ?_
  · show (splitScheme _).1 = (splitScheme base).1
    rw [hscheme]
  · show (splitAuthority _).1 = (splitAuthority _).1
    rw [hscheme, hauthority]
  · rw [hquery', ← hquery]
  · rw [hfragment', ← hfragment]

end Parse

/-! ### Segments -/

section Segments

variable {base rest segment : List Nat}

theorem segments_eq_some {path : List Nat} {ss : List (List Nat)} (h : segments path = some ss) :
    ∃ rest, path = slash :: rest ∧ rest.splitOn slash = ss := by
  cases path with
  | nil => cases h
  | cons c rest =>
    rw [segments] at h
    split at h
    · rename_i hc
      injection h with h
      exact ⟨rest, by rw [hc], h⟩
    · cases h

theorem notMem_of_mem_splitOn (h : segment ∈ rest.splitOn slash) : slash ∉ segment := by
  induction hlength : rest.length using Nat.strong_induction_on generalizing rest with
  | _ n ih =>
    obtain ⟨s, hs, hrest | ⟨after, hrest⟩⟩ := exists_segment rest
    · rw [hrest, List.splitOn_eq_singleton hs, List.mem_singleton] at h
      rw [h]
      exact hs
    · rw [hrest, List.splitOn_append_cons_self_of_not_mem hs, List.mem_cons] at h
      rcases h with rfl | h
      · exact hs
      · have hshorter : after.length < n := by
          rw [← hlength, hrest, List.length_append, List.length_cons]
          omega
        exact ih after.length hshorter h rfl

/-- A text that may stand as one segment of a path. -/
structure IsSegment (s : List Nat) : Prop where
  slash : slash ∉ s
  plain : Plain s
  dot : s ≠ dot
  dots : s ≠ dots

/-- A URL of which only scheme and authority are given. -/
structure BareOrigin (base : List Nat) : Prop where
  path : (parse base).path = []
  query : (parse base).query = none
  fragment : (parse base).fragment = none

/-- The URL has exactly these segments, none of them a dot segment, and neither query nor
    fragment. -/
structure Addresses (url : List Nat) (ss : List (List Nat)) : Prop where
  segments : segments (parse url).path = some ss
  query : (parse url).query = none
  fragment : (parse url).fragment = none
  dots : dot ∉ ss ∧ dots ∉ ss

/-- A path below a base adds up to exactly its own segments only if the base has no path, as
    the base's own path would come first. -/
theorem addresses_path (hplain : Plain (base ++ slash :: rest)) (hhead : rest.head? ≠ some slash)
    (h : (parse (base ++ slash :: rest)).path = slash :: rest) : BareOrigin base := by
  have hbase : Plain base := (plain_append.mp hplain).1
  have hrest : Plain rest := (plain_append (s := [slash])).mp (plain_append.mp hplain).2 |>.2
  obtain ⟨hquery, hfragment⟩ := parse_plain_iff.mpr hbase
  by_cases hone : (splitScheme base).2 = [slash]
  · -- the two slashes begin an authority
    rw [parse_path hplain, hierarchy, splitScheme_append, hone] at h
    have hshort : (splitAuthority ([slash] ++ slash :: rest)).2.length ≤ rest.length := by
      show (rest.dropWhile _).length ≤ rest.length
      exact (List.dropWhile_sublist _).length_le
    rw [h, List.length_cons] at hshort
    omega
  · rw [parse_append hbase hrest hone hhead] at h
    have hlength := congrArg List.length h
    rw [List.length_append] at hlength
    exact ⟨List.length_eq_zero_iff.mp (by omega), hquery, hfragment⟩

theorem splitOn_injective {s t : List Nat} (h : s.splitOn slash = t.splitOn slash) : s = t := by
  calc s = [slash].intercalate (s.splitOn slash) := (List.intercalate_splitOn slash).symm
    _ = [slash].intercalate (t.splitOn slash) := by rw [h]
    _ = t := List.intercalate_splitOn slash

/-- **A text between two fixed parts of a path is exactly one of its segments** if, and only if, it
    may stand as one and nothing but an origin stands before the path. -/
theorem addresses_iff {front back : List Nat} (hfront : Plain front) (hback : Plain back)
    (hfrontDots : ¬ HasDots front) (hbackDots : ¬ HasDots back)
    (hhead : (front ++ slash :: (segment ++ slash :: back)).head? ≠ some slash) :
    Addresses (base ++ slash :: (front ++ slash :: (segment ++ slash :: back)))
        (front.splitOn slash ++ segment :: back.splitOn slash) ↔
      BareOrigin base ∧ IsSegment segment := by
  have hslash : Plain [slash] := by decide
  have hsplit : slash ∉ segment → (front ++ slash :: (segment ++ slash :: back)).splitOn slash =
      front.splitOn slash ++ segment :: back.splitOn slash := by
    intro hsegment
    rw [List.splitOn_append_cons_self, List.splitOn_append_cons_self_of_not_mem hsegment]
  have hdots : ∀ s, s ∈ front.splitOn slash ++ segment :: back.splitOn slash ↔
      s ∈ front.splitOn slash ∨ s = segment ∨ s ∈ back.splitOn slash := by
    intro s
    rw [List.mem_append, List.mem_cons]
  constructor
  · intro h
    have hplain := parse_plain_iff.mp ⟨h.query, h.fragment⟩
    obtain ⟨rest, hpath, hrest⟩ := segments_eq_some h.segments
    have hsegment : slash ∉ segment := by
      have hmem : segment ∈ rest.splitOn slash := by
        rw [hrest]
        exact List.mem_append_right _ List.mem_cons_self
      exact notMem_of_mem_splitOn hmem
    have hwhole : rest = front ++ slash :: (segment ++ slash :: back) := by
      apply splitOn_injective
      rw [hrest, hsplit hsegment]
    rw [hwhole] at hpath
    refine ⟨addresses_path hplain hhead hpath, hsegment, ?_, ?_, ?_⟩
    · intro c hc
      refine hplain c ?_
      simp only [List.mem_append, List.mem_cons]
      exact .inr (.inr (.inr (.inr (.inl hc))))
    · exact fun heq => h.dots.1 ((hdots dot).mpr (.inr (.inl heq.symm)))
    · exact fun heq => h.dots.2 ((hdots dots).mpr (.inr (.inl heq.symm)))
  · rintro ⟨hbase, hsegment⟩
    have hplain : Plain base := parse_plain_iff.mp ⟨hbase.query, hbase.fragment⟩
    have hrest : Plain (front ++ slash :: (segment ++ slash :: back)) :=
      hfront.append (hslash.append (hsegment.plain.append (hslash.append hback)))
    have hone : (splitScheme base).2 ≠ [slash] := by
      intro hone
      have hpath := hbase.path
      rw [parse_path hplain, hierarchy, hone] at hpath
      cases hpath
    have hparse := parse_append hplain hrest hone hhead
    constructor
    · rw [hparse]
      show segments ((parse base).path ++ slash :: _) = _
      rw [hbase.path, List.nil_append, segments, if_pos rfl, hsplit hsegment.slash]
    · rw [hparse]
      exact hbase.query
    · rw [hparse]
      exact hbase.fragment
    · constructor
      · intro hmem
        rcases (hdots dot).mp hmem with hmem | heq | hmem
        · exact hfrontDots (.inl hmem)
        · exact hsegment.dot heq.symm
        · exact hbackDots (.inl hmem)
      · intro hmem
        rcases (hdots dots).mp hmem with hmem | heq | hmem
        · exact hfrontDots (.inr hmem)
        · exact hsegment.dots heq.symm
        · exact hbackDots (.inr hmem)

end Segments

end Uri
end FavlGateway.Library
