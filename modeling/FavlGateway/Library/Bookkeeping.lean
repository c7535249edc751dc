/-
  Machines that keep books.

  A machine may carry more than its programs can see: counters, histories, who did what.  If erasing
  the books from its sessions and its world leaves the steps of another machine (`Machine.Erases`),
  the two have the same runs: whatever the one reaches without its books the other reaches
  (`Machine.Erases.reaches`), and every run of the other can be kept books of (`Machine.Erases.lift`).
-/
import FavlGateway.Library.Interleave

namespace FavlGateway.Library

variable {Op : Type → Type} {σ ω σ' ω' ε α : Type}

/-! ## Invariants of what the threads await -/

/-- **The run rule**, where the operations of the reachable systems are known to be permitted. -/
theorem Machine.Reaches.preservedUnder {M : Machine Op σ ω ε} {D : Nat → Discipline Op σ}
    {C : System Op σ ω ε α → Nat → System Op σ ω ε α → Prop} {J : ω → (Nat → σ) → Prop}
    (hJ : Preserved M D C J) {sys₀ sys : System Op σ ω ε α}
    (hpre : ∀ sys, M.Reaches C sys₀ sys → ∀ {i : Nat} {β : Type} {o : Op β}
      {k : β → Prog Op ε α}, (sys.threads i).prog = .op o k → (D i).pre o (sys.sessions i))
    (hJ₀ : J sys₀.world sys₀.sessions) (h : M.Reaches C sys₀ sys) : J sys.world sys.sessions := by
  induction h with
  | start => exact hJ₀
  | @step sys sys' i hr hs hc ih =>
    cases hs with
    | @op β o k b s' w' hp hst =>
      rw [System.sessions_update]
      exact hJ.op hp (hpre sys hr hp) hst hc ih
    | crash hp =>
      rw [System.sessions_update]
      exact hJ.crash ih

/-! ## Erasing the books -/

/-- Without its books, `M` does what `M'` does. -/
structure Machine.Erases (M : Machine Op σ ω ε) (M' : Machine Op σ' ω' ε) (session : σ → σ')
    (world : ω → ω') : Prop where
  step : ∀ (i : Nat) {β : Type} (o : Op β) (s : σ) (w : ω),
    M'.step i o (session s) (world w) =
      (M.step i o s w).map fun r => (r.1, session r.2.1, world r.2.2)
  abort : ∀ (i : Nat) (s : σ) (w : ω), M'.abort i (session s) (world w) = world (M.abort i s w)
  fresh : M'.fresh = session M.fresh
  crashed : M'.crashed = M.crashed

/-- A system without its books. -/
def System.erase (session : σ → σ') (world : ω → ω') (sys : System Op σ ω ε α) :
    System Op σ' ω' ε α :=
  ⟨world sys.world, fun i => ⟨session (sys.threads i).session, (sys.threads i).prog⟩⟩

section Erase

variable {M : Machine Op σ ω ε} {M' : Machine Op σ' ω' ε} {session : σ → σ'} {world : ω → ω'}
  {sys sys₁ : System Op σ ω ε α} {i : Nat}

theorem System.erase_update (w : ω) (threads : Nat → Thread Op σ ε α) (s : σ) (p : Prog Op ε α) :
    System.erase session world ⟨w, Function.update threads i ⟨s, p⟩⟩ =
      ⟨world w, Function.update (System.erase session world ⟨w, threads⟩).threads i
        ⟨session s, p⟩⟩ := by
  unfold System.erase
  congr 1
  funext j
  rcases eq_or_ne j i with rfl | hj
  · simp only [Function.update_self]
  · simp only [Function.update_of_ne hj]

theorem Machine.Erases.stepped (h : M.Erases M' session world) (hs : M.Step sys i sys₁) :
    M'.Step (sys.erase session world) i (sys₁.erase session world) := by
  cases hs with
  | op hp hst =>
    rw [System.erase_update]
    refine .op hp ?_
    show M'.step i _ (session _) (world _) = _
    rw [h.step, hst]
    rfl
  | crash hp =>
    rw [System.erase_update, ← h.abort, ← h.fresh, ← h.crashed]
    exact .crash hp

/-- **What is reached with books is reached without them.** -/
theorem Machine.Erases.reaches (h : M.Erases M' session world) (hr : M.Reaches Machine.Any sys sys₁) :
    M'.Reaches Machine.Any (sys.erase session world) (sys₁.erase session world) := by
  induction hr with
  | start => exact .start
  | step _ hs _ ih => exact .step ih (h.stepped hs) trivial

/-- **Of every run books can be kept.** -/
theorem Machine.Erases.lift (h : M.Erases M' session world) {sys' : System Op σ' ω' ε α}
    (hr : M'.Reaches Machine.Any (sys.erase session world) sys') :
    ∃ sys₁, M.Reaches Machine.Any sys sys₁ ∧ sys₁.erase session world = sys' := by
  induction hr with
  | start => exact ⟨sys, .start, rfl⟩
  | @step _ _ i _ hs _ ih =>
    obtain ⟨sys₁, hr₁, rfl⟩ := ih
    cases hs with
    | @op β o k b s' w' hp hst =>
      have hstep := h.step i o (sys₁.threads i).session sys₁.world
      have hbooked : (M.step i o (sys₁.threads i).session sys₁.world).map
          (fun r => (r.1, session r.2.1, world r.2.2)) = some (b, s', w') := by
        rw [← hstep]
        exact hst
      obtain ⟨⟨b₁, s₁, w₁⟩, hst₁, hsame⟩ := Option.map_eq_some_iff.mp hbooked
      cases hsame
      refine ⟨⟨w₁, Function.update sys₁.threads i ⟨s₁, k b₁⟩⟩, .step hr₁ (.op hp hst₁) trivial, ?_⟩
      rw [System.erase_update]
      rfl
    | crash hp =>
      refine ⟨⟨M.abort i (sys₁.threads i).session sys₁.world,
        Function.update sys₁.threads i ⟨M.fresh, .raise M.crashed⟩⟩,
        .step hr₁ (.crash hp) trivial, ?_⟩
      rw [System.erase_update, ← h.abort, ← h.fresh, ← h.crashed]
      rfl

end Erase

end FavlGateway.Library
