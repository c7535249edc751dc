/-
  Paging through the invocations of a tenant.

  `list_invocations` sorts by `created_at` alone, so the order of rows that share one is left to the
  database, and its cursor is a `created_at` too: what has the cursor's own is not on the next page.
  `InvocationPage` is whatever the query may answer, and `scroll_exact_iff` says when a client that
  follows the cursor sees every row.
-/
import FavlGateway.Library.Paging
import FavlGateway.Registry.Invariants

namespace FavlGateway.Registry

open FavlGateway.Library
open FavlGateway.Library.Paging (IsPage Scroll Next Answers Descending WithinPages older)

/-- `max(1, min(limit, 200))` -/
def InvocationQuery.pageSize (q : InvocationQuery) : Nat := (max 1 (min q.limit 200)).toNat

/-- The rows that pass every filter of the query. -/
def matching (db : Db) (q : InvocationQuery) : List InvocationRecord :=
  db.invocations.filter q.selects

/-- What the query of `list_invocations` may answer: rows that share a `created_at` in any order. -/
def InvocationPage (db : Db) (q : InvocationQuery) (page : List InvocationRecord) : Prop :=
  IsPage (·.createdAt) q.pageSize (matching db q) page

/-- What the query may answer when it is asked with this cursor. -/
def pagesOf (db : Db) (q : InvocationQuery) (cursor : Option Time) (page : List InvocationRecord) :
    Prop :=
  InvocationPage db { q with before := cursor } page

/-- Every matching row once, newest first. -/
structure Exact (db : Db) (q : InvocationQuery) (rows : List InvocationRecord) : Prop where
  all : rows.Perm (matching db q)
  newest_first : Descending (·.createdAt) rows

section Pages

variable {db : Db} {q : InvocationQuery} {rows : List InvocationRecord}

theorem pageSize_pos : 0 < q.pageSize := by
  unfold InvocationQuery.pageSize
  omega

/-- The rows in table order, sorted: one of the answers. -/
theorem invocationListing_page (db : Db) (q : InvocationQuery) :
    InvocationPage db q (invocationListing db q) := by
  have htotal : Std.Total fun a b : InvocationRecord => b.createdAt ≤ a.createdAt :=
    ⟨fun a b => le_total b.createdAt a.createdAt⟩
  have htrans : IsTrans InvocationRecord fun a b => b.createdAt ≤ a.createdAt :=
    ⟨fun _ _ _ hab hbc => le_trans hbc hab⟩
  exact ⟨_, List.perm_insertionSort _ _, List.pairwise_insertionSort _ _, rfl⟩

/-- The cursor is one more filter. -/
theorem matching_before (db : Db) (q : InvocationQuery) (cursor : Option Time) :
    matching db { q with before := cursor } =
      older (·.createdAt) cursor (matching db { q with before := none }) := by
  unfold matching older
  rw [List.filter_filter]
  refine List.filter_congr fun r _ => ?_
  simp only [InvocationQuery.selects, nullable, Bool.and_true]
  rw [Bool.and_comm]
  cases cursor with
  | none => rfl
  | some t => rfl

theorem pagesOf_answers (db : Db) (q : InvocationQuery) :
    Answers (·.createdAt) q.pageSize (matching db { q with before := none }) (pagesOf db q) := by
  intro cursor page
  rw [← matching_before]
  rfl

end Pages

/-- **Paging through invocations is exact** if, and only if, no rows that share a `created_at` lie on
    both sides of a page boundary.  It ends, whatever the data. -/
theorem scroll_exact_iff (db : Db) (q : InvocationQuery) :
    WellFounded (Next (·.createdAt) (pagesOf db q)) ∧
      (∃ rows, Scroll (·.createdAt) (pagesOf db q) q.before rows) ∧
      ∀ rows, Scroll (·.createdAt) (pagesOf db q) q.before rows →
        (Exact db q rows ↔ WithinPages (·.createdAt) q.pageSize (matching db q)) := by
  have hanswers := pagesOf_answers db q
  have hmatching : older (·.createdAt) q.before (matching db { q with before := none }) =
      matching db q := (matching_before db q q.before).symm
  refine ⟨Paging.next_wellFounded hanswers, Paging.exists_scroll hanswers q.before, ?_⟩
  intro rows hscroll
  have hiff := hscroll.perm_iff pageSize_pos hanswers
  rw [hmatching] at hiff
  rw [← hiff]
  exact ⟨fun hexact => hexact.all, fun hall => ⟨hall, hscroll.descending hanswers⟩⟩

/-! ## Two rows of one moment -/

/-- The invocation with this id, of this moment. -/
def invocationAt (id : Uuid) (createdAt : Time) : InvocationRecord where
  id := id
  connectorId := 0
  connectorVersion := 1
  adapterKind := .http
  idempotencyKey := uuidText id
  actorId := "operator"
  tenantId := "acme"
  operation := ""
  status := .succeeded
  deadlineAt := 100
  createdAt := createdAt

/-- Two invocations accepted in the same microsecond. -/
def twoRows : Rows where
  connectors := [newConnector (sampleEnv 0) sampleCaller (samplePayload .enabled enabled_creatable)]
  invocations := [invocationAt 1 5, invocationAt 2 5]

theorem twoRows_valid : twoRows.Valid := by decide +kernel

def twoAtOnce : Db := ⟨twoRows, twoRows_valid⟩

def oneByOne : InvocationQuery := ⟨"acme", none, none, none, 1⟩

/-- The second one is never seen. -/
theorem shared_created_at_skipped :
    ∃ rows, Scroll (·.createdAt) (pagesOf twoAtOnce oneByOne) oneByOne.before rows ∧
      invocationAt 2 5 ∈ matching twoAtOnce oneByOne ∧ invocationAt 2 5 ∉ rows ∧
      ¬ Exact twoAtOnce oneByOne rows := by
  have hfirst : pagesOf twoAtOnce oneByOne none ([] ++ [invocationAt 1 5]) := by
    have hlisting := invocationListing_page twoAtOnce { oneByOne with before := none }
    have hrows : invocationListing twoAtOnce { oneByOne with before := none } =
        [invocationAt 1 5] := by decide +kernel
    rw [hrows] at hlisting
    exact hlisting
  have hsecond : pagesOf twoAtOnce oneByOne (some 5) [] := by
    have hlisting := invocationListing_page twoAtOnce { oneByOne with before := some 5 }
    have hrows : invocationListing twoAtOnce { oneByOne with before := some 5 } = [] := by
      decide +kernel
    rw [hrows] at hlisting
    exact hlisting
  have hmatching : invocationAt 2 5 ∈ matching twoAtOnce oneByOne := by decide +kernel
  have hskipped : invocationAt 2 5 ∉ [invocationAt 1 5] := by decide +kernel
  refine ⟨_, .more hfirst (.done hsecond), hmatching, hskipped, ?_⟩
  intro hexact
  exact hskipped (hexact.all.symm.subset hmatching)

end FavlGateway.Registry
