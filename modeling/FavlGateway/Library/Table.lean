/-
  Tables as lists of rows, looked up by a key.

  `lookup key rows k` is the first row with key `k`.  Three operations matter to a table with a
  unique key: an UPDATE of the rows with one key that keeps the key, an INSERT at the end, and the
  fact that two rows which share a value of any unique index are one row.
-/
import Mathlib.Data.List.Nodup

namespace FavlGateway.Library

variable {α κ ι : Type} [DecidableEq κ]

/-- The first row with this key. -/
def lookup (key : α → κ) (rows : List α) (k : κ) : Option α := rows.find? fun a => key a = k

section Lookup

variable {key : α → κ} {rows : List α} {k c : κ} {a : α}

theorem lookup_mem (h : lookup key rows k = some a) : a ∈ rows ∧ key a = k :=
  ⟨List.mem_of_find?_eq_some h, by simpa using List.find?_some h⟩

theorem lookup_isSome_of_mem (h : a ∈ rows) : ∃ b, lookup key rows (key a) = some b := by
  cases hf : lookup key rows (key a) with
  | none =>
    have hne := List.find?_eq_none.mp hf a h
    simp at hne
  | some b => exact ⟨b, rfl⟩

/-- UPDATE of the rows with key `k`. -/
theorem lookup_update {f : α → α} (hf : ∀ a, key (f a) = key a) :
    lookup key (rows.map fun a => if key a = k then f a else a) c =
      if c = k then (lookup key rows k).map f else lookup key rows c := by
  have hp : ((fun a => decide (key a = c)) ∘ fun a => if key a = k then f a else a) =
      fun a => decide (key a = c) := by
    funext a
    simp only [Function.comp]
    split <;> simp [hf]
  unfold lookup
  rw [List.find?_map, hp]
  rcases eq_or_ne c k with rfl | hne
  · rw [if_pos rfl]
    cases hfind : rows.find? fun a => decide (key a = c) with
    | none => rfl
    | some a =>
      have hkey : key a = c := by simpa using List.find?_some hfind
      simp [hkey]
  · rw [if_neg hne]
    cases hfind : rows.find? fun a => decide (key a = c) with
    | none => rfl
    | some a =>
      have hkey : key a = c := by simpa using List.find?_some hfind
      simp [hkey, hne]

/-- A lookup among some of the rows, where no two rows have one key. -/
theorem lookup_filter {p : α → Bool}
    (huniq : ∀ a ∈ rows, ∀ b ∈ rows, key a = key b → a = b) :
    lookup key (rows.filter p) k = (lookup key rows k).filter p := by
  cases hfind : lookup key rows k with
  | none =>
    refine List.find?_eq_none.mpr fun a ha => ?_
    exact List.find?_eq_none.mp hfind a (List.mem_filter.mp ha).1
  | some a =>
    obtain ⟨hmem, rfl⟩ := lookup_mem hfind
    cases hp : p a with
    | true =>
      obtain ⟨b, hb⟩ := @lookup_isSome_of_mem _ _ _ key _ _ (List.mem_filter.mpr ⟨hmem, hp⟩)
      obtain ⟨hmem', hkey⟩ := lookup_mem hb
      rw [hb, Option.filter_some_pos hp, huniq b (List.mem_filter.mp hmem').1 a hmem hkey]
    | false =>
      rw [Option.filter_some_neg hp]
      refine List.find?_eq_none.mpr fun b hb => ?_
      obtain ⟨hmem', hpb⟩ := List.mem_filter.mp hb
      intro hkey
      rw [huniq b hmem' a hmem (of_decide_eq_true hkey), hp] at hpb
      cases hpb

/-- INSERT of a row with a new key. -/
theorem lookup_insert (hnew : lookup key rows (key a) = none) :
    lookup key (rows ++ [a]) c = if c = key a then some a else lookup key rows c := by
  unfold lookup at *
  rcases eq_or_ne c (key a) with rfl | hne
  · rw [if_pos rfl, List.find?_append, hnew]
    simp
  · rw [if_neg hne, List.find?_append]
    simp [hne.symm]

end Lookup

/-- Rewriting rows, and choosing those that the rewriting leaves chosen. -/
theorem filter_map_eq {p : α → Bool} {f g : α → α} {rows : List α}
    (hp : ∀ a ∈ rows, p (f a) = p a) (hfg : ∀ a ∈ rows, p a = true → f a = g a) :
    (rows.map f).filter p = (rows.filter p).map g := by
  rw [List.filter_map, List.filter_congr (p := p ∘ f) (q := p) hp]
  refine List.map_congr_left fun a ha => ?_
  obtain ⟨hmem, hpa⟩ := List.mem_filter.mp ha
  exact hfg a hmem hpa

/-! ## Unique indexes -/

/-- Two rows that share a value of a unique index are one row. -/
theorem eq_of_index {index : α → List ι} {rows : List α} (h : (rows.flatMap index).Nodup) {a b : α}
    (ha : a ∈ rows) (hb : b ∈ rows) {k : ι} (hka : k ∈ index a) (hkb : k ∈ index b) : a = b := by
  by_contra hab
  have hdis := (List.nodup_flatMap.mp h).2
  rw [List.pairwise_iff_getElem] at hdis
  obtain ⟨m, hm, rfl⟩ := List.getElem_of_mem ha
  obtain ⟨n, hn, rfl⟩ := List.getElem_of_mem hb
  rcases Nat.lt_trichotomy m n with hlt | heq | hgt
  · exact hdis m n hm hn hlt hka hkb
  · subst heq
    exact hab rfl
  · exact hdis n m hn hm hgt hkb hka

/-- A row that was inserted under a unique index shares no value of it with the rows before. -/
theorem index_disjoint {index : α → List ι} {rows : List α} {a b : α}
    (h : ((rows ++ [a]).flatMap index).Nodup) (hb : b ∈ rows) {k : ι} (hkb : k ∈ index b) :
    k ∉ index a := by
  rw [List.flatMap_append] at h
  intro hka
  exact (List.nodup_append.mp h).2.2 k (List.mem_flatMap.mpr ⟨b, hb, hkb⟩) k (by simpa using hka)
    rfl

end FavlGateway.Library
