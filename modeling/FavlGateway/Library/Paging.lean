/-
  Keyset paging: a query that sorts by a key, newest first, and answers with the first rows below a
  cursor; and a client that sets the cursor to the key of the last row it got, until it gets none.

  Rows with one key come in any order, and in another one the next time.  What decides whether the
  client sees every row is therefore where the groups of rows with one key lie: `scroll_perm_iff` says
  that the pages make up the table exactly if no such group lies across a page boundary
  (`WithinPages`).
-/
import Mathlib.Data.List.Sort
import Mathlib.Order.Defs.LinearOrder

namespace FavlGateway.Library.Paging

variable {α κ : Type} [LinearOrder κ]

section Definitions

variable (key : α → κ)

/-- Newest first. -/
def Descending (rows : List α) : Prop := rows.Pairwise fun a b => key b ≤ key a

/-- `order by key desc limit size`: rows with one key come in any order. -/
def IsPage (size : Nat) (rows page : List α) : Prop :=
  ∃ sorted, sorted.Perm rows ∧ Descending key sorted ∧ page = sorted.take size

/-- The rows below a cursor. -/
def older (cursor : Option κ) (rows : List α) : List α :=
  rows.filter fun a => cursor.all fun k => key a < k

/-- Pages are asked for until one is empty, each with the key of the last row as the cursor. -/
inductive Scroll (Page : Option κ → List α → Prop) : Option κ → List α → Prop
  | done {cursor : Option κ} (empty : Page cursor []) : Scroll Page cursor []
  | more {cursor : Option κ} {front rest : List α} {last : α} (page : Page cursor (front ++ [last]))
      (next : Scroll Page (some (key last)) rest) : Scroll Page cursor (front ++ [last] ++ rest)

/-- The cursor that a page leads to. -/
def Next (Page : Option κ → List α → Prop) (cursor' cursor : Option κ) : Prop :=
  ∃ front last, Page cursor (front ++ [last]) ∧ cursor' = some (key last)

/-- How many rows are newer than `k`, and how many have the key `k`. -/
def countAbove (rows : List α) (k : κ) : Nat := rows.countP fun a => k < key a

def countAt (rows : List α) (k : κ) : Nat := rows.countP fun a => key a = k

/-- No group of rows with one key lies across a boundary between pages. -/
def WithinPages (size : Nat) (rows : List α) : Prop :=
  ∀ k j, ¬ (countAbove key rows k < j * size ∧ j * size < countAbove key rows k + countAt key rows k)

end Definitions

section Pages

variable {key : α → κ} {size : Nat} {rows page : List α}

/-- A page, and the rows behind it. -/
theorem IsPage.split (h : IsPage key size rows page) :
    ∃ behind, (page ++ behind).Perm rows ∧ Descending key (page ++ behind) ∧
      page.length ≤ size ∧ (behind ≠ [] → page.length = size) := by
  obtain ⟨sorted, hperm, hsorted, rfl⟩ := h
  refine ⟨sorted.drop size, ?_, ?_, List.length_take_le _ _, ?_⟩
  · rw [List.take_append_drop]
    exact hperm
  · rw [List.take_append_drop]
    exact hsorted
  · intro hbehind
    have hlonger : size < sorted.length := by
      by_contra hshort
      exact hbehind (List.drop_eq_nil_iff.mpr (by omega))
    rw [List.length_take]
    omega

/-- Every query can be answered. -/
theorem exists_isPage (key : α → κ) (size : Nat) (rows : List α) :
    ∃ page, IsPage key size rows page := by
  refine ⟨_, rows.mergeSort fun a b => key b ≤ key a, List.mergeSort_perm _ _, ?_, rfl⟩
  have htrans : ∀ a b c : α, decide (key b ≤ key a) = true → decide (key c ≤ key b) = true →
      decide (key c ≤ key a) = true := by
    intro a b c hab hbc
    rw [decide_eq_true_eq] at hab hbc ⊢
    exact hbc.trans hab
  have htotal : ∀ a b : α, (decide (key b ≤ key a) || decide (key a ≤ key b)) = true := by
    intro a b
    rw [Bool.or_eq_true, decide_eq_true_eq, decide_eq_true_eq]
    exact le_total (key b) (key a)
  exact (List.pairwise_mergeSort htrans htotal rows).imp fun h => of_decide_eq_true h

theorem mem_older {cursor : Option κ} {a : α} : a ∈ older key cursor rows ↔
    a ∈ rows ∧ ∀ k, cursor = some k → key a < k := by
  unfold older
  rw [List.mem_filter]
  cases cursor with
  | none => simp
  | some k => simp

/-- The rows below a key of theirs are those below it among the rows below a cursor. -/
theorem older_older {cursor : Option κ} {k : κ} (h : ∀ c, cursor = some c → k < c) :
    older key (some k) (older key cursor rows) = older key (some k) rows := by
  unfold older
  rw [List.filter_filter]
  refine List.filter_congr fun a _ => ?_
  cases cursor with
  | none => simp
  | some c =>
    have hkc := h c rfl
    by_cases hak : key a < k
    · simp [hak, hak.trans hkc]
    · simp [hak]

theorem descending_append {front behind : List α} {last : α}
    (h : Descending key (front ++ [last] ++ behind)) :
    (∀ a ∈ front ++ [last], key last ≤ key a) ∧ ∀ b ∈ behind, key b ≤ key last := by
  obtain ⟨hpage, -, hcross⟩ := List.pairwise_append.mp h
  obtain ⟨-, -, hlast⟩ := List.pairwise_append.mp hpage
  constructor
  · intro a ha
    rcases List.mem_append.mp ha with ha | ha
    · exact hlast a ha last (List.mem_singleton.mpr rfl)
    · rw [List.mem_singleton.mp ha]
  · intro b hb
    exact hcross last (List.mem_append_right _ (List.mem_singleton.mpr rfl)) b hb

/-! ### Counting -/

theorem countAbove_add_countAt (rows : List α) (k : κ) :
    countAbove key rows k + countAt key rows k = rows.countP fun a => k ≤ key a := by
  induction rows with
  | nil => rfl
  | cons a rows ih =>
    unfold countAbove countAt at ih ⊢
    simp only [List.countP_cons]
    rcases lt_trichotomy k (key a) with hlt | heq | hgt
    · simp only [hlt, hlt.le, hlt.ne', decide_true, decide_false, if_true]
      simp only [Bool.false_eq_true, if_false]
      omega
    · subst heq
      simp only [lt_irrefl, le_refl, decide_true, decide_false, if_true]
      simp only [Bool.false_eq_true, if_false]
      omega
    · simp only [not_lt_of_gt hgt, not_le_of_gt hgt, hgt.ne, decide_false]
      simp only [Bool.false_eq_true, if_false]
      omega

theorem WithinPages.perm {rows' : List α} (h : rows.Perm rows') :
    WithinPages key size rows ↔ WithinPages key size rows' := by
  unfold WithinPages countAbove countAt
  simp only [h.countP_eq]

/-- What lies behind a full page has its own page boundaries. -/
theorem withinPages_append {behind : List α} {k₀ : κ} (hpage : ∀ a ∈ page, k₀ ≤ key a)
    (hbehind : ∀ b ∈ behind, key b < k₀) (hsize : page.length ≤ size)
    (hfull : behind ≠ [] → page.length = size) :
    WithinPages key size (page ++ behind) ↔ WithinPages key size behind := by
  have habove : ∀ k, k < k₀ → countAbove key page k = page.length ∧ countAt key page k = 0 := by
    intro k hk
    constructor
    · exact List.countP_eq_length.mpr fun a ha => decide_eq_true (hk.trans_le (hpage a ha))
    · refine List.countP_eq_zero.mpr fun a ha => ?_
      rw [decide_eq_true_eq]
      exact (hk.trans_le (hpage a ha)).ne'
  have hnone : ∀ k, k₀ ≤ k → countAbove key behind k + countAt key behind k = 0 := by
    intro k hk
    rw [countAbove_add_countAt]
    refine List.countP_eq_zero.mpr fun b hb => ?_
    rw [decide_eq_true_eq]
    exact not_le_of_gt ((hbehind b hb).trans_le hk)
  have hsum : ∀ k, countAbove key (page ++ behind) k = countAbove key page k + countAbove key behind k ∧
      countAt key (page ++ behind) k = countAt key page k + countAt key behind k :=
    fun k => ⟨List.countP_append, List.countP_append⟩
  have hbound : ∀ k, countAbove key page k + countAt key page k ≤ page.length := by
    intro k
    rw [countAbove_add_countAt]
    exact List.countP_le_length
  constructor
  · rintro h k j ⟨hlow, hhigh⟩
    by_cases hk : k < k₀
    · -- the boundary of the rows behind is the next one of all rows
      have hnonempty : behind ≠ [] := by
        rintro rfl
        exact absurd hhigh (Nat.not_lt_zero _)
      refine h k (j + 1) ?_
      obtain ⟨hfront, hzero⟩ := habove k hk
      rw [(hsum k).1, (hsum k).2, hfront, hzero, hfull hnonempty, Nat.succ_mul]
      omega
    · have hzero := hnone k (not_lt.mp hk)
      omega
  · rintro h k j ⟨hlow, hhigh⟩
    rw [(hsum k).1] at hlow
    rw [(hsum k).1, (hsum k).2] at hhigh
    cases j with
    | zero =>
      rw [Nat.zero_mul] at hlow
      exact absurd hlow (Nat.not_lt_zero _)
    | succ j =>
      rw [Nat.succ_mul] at hlow hhigh
      by_cases hk : k < k₀
      · obtain ⟨hfront, hzero⟩ := habove k hk
        refine h k j ?_
        by_cases hempty : behind = []
        · have hnothing : countAbove key behind k + countAt key behind k = 0 := by
            rw [hempty]
            rfl
          omega
        · have hlength := hfull hempty
          omega
      · have hzero := hnone k (not_lt.mp hk)
        have hpageBound := hbound k
        omega

/-- A row behind a full page that has the key of its last row. -/
theorem not_withinPages {front behind : List α} {last b : α}
    (hsorted : Descending key (front ++ [last] ++ behind)) (hfull : (front ++ [last]).length = size)
    (hb : b ∈ behind) (hkey : key b = key last) :
    ¬ WithinPages key size (front ++ [last] ++ behind) := by
  obtain ⟨hfront, hbehind⟩ := descending_append hsorted
  have habove : countAbove key (front ++ [last] ++ behind) (key last) ≤ front.length := by
    have hzero : behind.countP (fun a => key last < key a) = 0 := by
      refine List.countP_eq_zero.mpr fun c hc => ?_
      rw [decide_eq_true_eq]
      exact not_lt_of_ge (hbehind c hc)
    unfold countAbove
    rw [List.countP_append, List.countP_append, hzero, List.countP_singleton]
    simp only [lt_irrefl, decide_false, Bool.false_eq_true, if_false, Nat.add_zero]
    exact List.countP_le_length
  have hpage : (front ++ [last]).countP (fun a => key last ≤ key a) = size := by
    rw [List.countP_eq_length.mpr fun a ha => decide_eq_true (hfront a ha)]
    exact hfull
  have hpos : 0 < behind.countP (fun a => key last ≤ key a) :=
    List.countP_pos_iff.mpr ⟨b, hb, decide_eq_true hkey.ge⟩
  intro hwithin
  refine hwithin (key last) 1 ⟨?_, ?_⟩
  · rw [List.length_append, List.length_singleton] at hfull
    omega
  · rw [countAbove_add_countAt, List.countP_append, hpage]
    omega

/-! ### Scrolling -/

section Scroll

variable {Page : Option κ → List α → Prop} {cursor : Option κ} {out : List α}

/-- The query answers with a page of the rows below the cursor. -/
def Answers (key : α → κ) (size : Nat) (rows : List α) (Page : Option κ → List α → Prop) : Prop :=
  ∀ cursor page, Page cursor page ↔ IsPage key size (older key cursor rows) page

/-- What a page says about the rows below the cursor. -/
theorem Answers.behind (hPage : Answers key size rows Page) {front : List α} {last : α}
    (h : Page cursor (front ++ [last])) :
    ∃ behind, (front ++ [last] ++ behind).Perm (older key cursor rows) ∧
      Descending key (front ++ [last] ++ behind) ∧ (front ++ [last]).length ≤ size ∧
      (behind ≠ [] → (front ++ [last]).length = size) ∧
      (older key (some (key last)) rows).Perm (older key (some (key last)) behind) := by
  obtain ⟨behind, hperm, hsorted, hsize, hfull⟩ := ((hPage _ _).mp h).split
  refine ⟨behind, hperm, hsorted, hsize, hfull, ?_⟩
  have hmem : last ∈ older key cursor rows := by
    refine hperm.subset ?_
    simp
  have hlast := (descending_append hsorted).1
  rw [← older_older (mem_older.mp hmem).2]
  have hfilter := (hperm.symm.filter fun a => (some (key last)).all fun k => key a < k)
  refine hfilter.trans ?_
  rw [List.filter_append]
  have hnone : (front ++ [last]).filter (fun a => (some (key last)).all fun k => key a < k) = [] := by
    refine List.filter_eq_nil_iff.mpr fun a ha => ?_
    simpa using hlast a ha
  rw [hnone]
  exact List.Perm.refl _

/-- The rows below the next cursor are fewer: nobody scrolls forever. -/
theorem next_wellFounded (hPage : Answers key size rows Page) : WellFounded (Next key Page) := by
  refine Subrelation.wf ?_ (measure fun cursor => (older key cursor rows).length).wf
  rintro cursor' cursor ⟨front, last, hpage, rfl⟩
  obtain ⟨behind, hperm, -, -, -, hbelow⟩ := hPage.behind hpage
  show (older key (some (key last)) rows).length < (older key cursor rows).length
  rw [hbelow.length_eq, ← hperm.length_eq]
  have hshorter : (older key (some (key last)) behind).length ≤ behind.length :=
    List.length_filter_le _ _
  simp only [List.length_append, List.length_singleton]
  omega

theorem exists_scroll (hPage : Answers key size rows Page) (cursor : Option κ) :
    ∃ out, Scroll key Page cursor out := by
  induction cursor using (next_wellFounded hPage).induction with
  | _ cursor ih =>
    obtain ⟨page, hpage⟩ := exists_isPage key size (older key cursor rows)
    rw [← hPage cursor page] at hpage
    rcases List.eq_nil_or_concat page with rfl | ⟨front, last, rfl⟩
    · exact ⟨[], .done hpage⟩
    · rw [List.concat_eq_append] at hpage
      obtain ⟨rest, hrest⟩ := ih _ ⟨front, last, hpage, rfl⟩
      exact ⟨_, .more hpage hrest⟩

/-- Only rows below the cursor are returned. -/
theorem Scroll.subset (hPage : Answers key size rows Page) (h : Scroll key Page cursor out) :
    ∀ a ∈ out, a ∈ older key cursor rows := by
  induction h with
  | done => nofun
  | more hpage _ ih =>
    obtain ⟨behind, hperm, -, -, -, hbelow⟩ := hPage.behind hpage
    intro a ha
    rcases List.mem_append.mp ha with ha | ha
    · exact hperm.subset (List.mem_append_left _ ha)
    · have hbehind := hbelow.subset (ih a ha)
      exact hperm.subset (List.mem_append_right _ (mem_older.mp hbehind).1)

/-- Rows come newest first. -/
theorem Scroll.descending (hPage : Answers key size rows Page) (h : Scroll key Page cursor out) :
    Descending key out := by
  induction h with
  | done => exact List.Pairwise.nil
  | more hpage hnext ih =>
    obtain ⟨behind, -, hsorted, -, -, -⟩ := hPage.behind hpage
    refine List.pairwise_append.mpr ⟨(List.pairwise_append.mp hsorted).1, ih, ?_⟩
    intro a ha b hb
    have hbelow := (mem_older.mp (hnext.subset hPage b hb)).2 _ rfl
    exact hbelow.le.trans ((descending_append hsorted).1 a ha)

/-- **What the pages make up**: the table, if no group of rows with one key lies across a page
    boundary, and only then.  By induction on the pages: the rows behind a page are what the next
    cursor selects, unless one of them has the key of the page's last row. -/
theorem Scroll.perm_iff (hsize : 0 < size) (hPage : Answers key size rows Page)
    (h : Scroll key Page cursor out) :
    out.Perm (older key cursor rows) ↔ WithinPages key size (older key cursor rows) := by
  induction h with
  | @done cursor hempty =>
    obtain ⟨sorted, hperm, -, htake⟩ := (hPage _ _).mp hempty
    have hnil : older key cursor rows = [] := by
      rcases List.take_eq_nil_iff.mp htake.symm with hzero | hsorted
      · omega
      · rw [hsorted] at hperm
        exact hperm.nil_eq.symm
    rw [hnil]
    refine ⟨fun _ k j hcross => ?_, fun _ => List.Perm.refl _⟩
    exact absurd hcross.2 (Nat.not_lt_zero _)
  | @more cursor front rest last hpage hnext ih =>
    obtain ⟨behind, hperm, hsorted, hlength, hfull, hbelow⟩ := hPage.behind hpage
    obtain ⟨hfront, hbehind⟩ := descending_append hsorted
    have hout : (front ++ [last] ++ rest).Perm (older key cursor rows) ↔ rest.Perm behind := by
      constructor
      · intro hall
        exact (List.perm_append_left_iff _).mp (hall.trans hperm.symm)
      · intro hrest
        exact (hrest.append_left _).trans hperm
    rw [hout, ← WithinPages.perm hperm]
    by_cases htie : ∃ b ∈ behind, key b = key last
    · obtain ⟨b, hb, hkey⟩ := htie
      have hnonempty : behind ≠ [] := List.ne_nil_of_mem hb
      constructor
      · intro hrest
        have hlower := (mem_older.mp (hnext.subset hPage b (hrest.symm.subset hb))).2 _ rfl
        rw [hkey] at hlower
        exact absurd hlower (lt_irrefl _)
      · intro hwithin
        exfalso
        exact not_withinPages hsorted (hfull hnonempty) hb hkey hwithin
    · have hstrict : ∀ b ∈ behind, key b < key last := by
        intro b hb
        exact lt_of_le_of_ne (hbehind b hb) fun hkey => htie ⟨b, hb, hkey⟩
      have hall : older key (some (key last)) behind = behind := by
        refine List.filter_eq_self.mpr fun b hb => ?_
        simpa using hstrict b hb
      rw [hall] at hbelow
      rw [withinPages_append hfront hstrict hlength hfull, ← WithinPages.perm hbelow, ← ih]
      exact ⟨fun hrest => hrest.trans hbelow.symm, fun hrest => hrest.trans hbelow⟩

end Scroll

end Pages

end FavlGateway.Library.Paging
