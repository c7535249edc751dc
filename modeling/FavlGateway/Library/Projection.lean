/-
  Some threads of a run, by themselves.

  `mine` are the threads of interest.  If what the others do leaves the part of the world that
  `mine` see as it is, and `mine` could do there what they do among the others, then every run of
  all threads looks to `mine` like a run of theirs alone (`Machine.Reaches.alone`).  The relation
  `R` between the two systems is the user's; it may carry an invariant of the larger one, which is
  where an answer gets its meaning for the program that awaits it.
-/
import FavlGateway.Library.Interleave
import FavlGateway.Library.Noninterference

namespace FavlGateway.Library

variable {Op : Type → Type} {σ ω ε α : Type}

theorem Prog.SeesOnly.finallyDo {view : {β : Type} → Op β → β → β} {o : Op Unit}
    {p : Prog Op ε α} (hp : p.SeesOnly view) : (p.finallyDo o).SeesOnly view := by
  induction p with
  | ret a => exact ⟨fun _ => rfl, fun _ => trivial⟩
  | raise e => exact ⟨fun _ => rfl, fun _ => trivial⟩
  | op o' k ih => exact ⟨fun b => congrArg (·.finallyDo o) (hp.1 b), fun b => ih b (hp.2 b)⟩

/-- The steps of these threads. -/
def Machine.Of (mine : Nat → Prop) (_ : System Op σ ω ε α) (i : Nat) (_ : System Op σ ω ε α) :
    Prop := mine i

/-- The steps of all threads, and of `mine` alone, keep the worlds and the sessions related. -/
structure Projects (M : Machine Op σ ω ε) (mine : Nat → Prop) (D : Nat → Discipline Op σ)
    (view : {β : Type} → Op β → β → β) (R : ω → (Nat → σ) → ω → (Nat → σ) → Prop) : Prop where
  eff : ∀ {w : ω} {ss : Nat → σ} {w₀ : ω} {ss₀ : Nat → σ} {i : Nat} {β : Type} {o : Op β} {b : β}
    {s' : σ} {w' : ω}, R w ss w₀ ss₀ → M.step i o (ss i) w = some (b, s', w') →
    (D i).eff o (ss i) b s'
  own : ∀ {w : ω} {ss : Nat → σ} {w₀ : ω} {ss₀ : Nat → σ} {i : Nat} {β : Type} {o : Op β} {b : β}
    {s' : σ} {w' : ω}, R w ss w₀ ss₀ → mine i → (D i).pre o (ss i) →
    M.step i o (ss i) w = some (b, s', w') →
    ∃ s₀' w₀', M.step i o (ss₀ i) w₀ = some (view o b, s₀', w₀') ∧
      R w' (Function.update ss i s') w₀' (Function.update ss₀ i s₀')
  other : ∀ {w : ω} {ss : Nat → σ} {w₀ : ω} {ss₀ : Nat → σ} {i : Nat} {β : Type} {o : Op β} {b : β}
    {s' : σ} {w' : ω}, R w ss w₀ ss₀ → ¬ mine i → (D i).pre o (ss i) →
    M.step i o (ss i) w = some (b, s', w') → R w' (Function.update ss i s') w₀ ss₀
  ownCrash : ∀ {w : ω} {ss : Nat → σ} {w₀ : ω} {ss₀ : Nat → σ} {i : Nat}, R w ss w₀ ss₀ → mine i →
    R (M.abort i (ss i) w) (Function.update ss i M.fresh) (M.abort i (ss₀ i) w₀)
      (Function.update ss₀ i M.fresh)
  otherCrash : ∀ {w : ω} {ss : Nat → σ} {w₀ : ω} {ss₀ : Nat → σ} {i : Nat}, R w ss w₀ ss₀ →
    ¬ mine i → R (M.abort i (ss i) w) (Function.update ss i M.fresh) w₀ ss₀

section Alone

variable {M : Machine Op σ ω ε} {mine : Nat → Prop} {D : Nat → Discipline Op σ}
  {view : {β : Type} → Op β → β → β} {R : ω → (Nat → σ) → ω → (Nat → σ) → Prop}
  {C : System Op σ ω ε α → Nat → System Op σ ω ε α → Prop} {start start₀ sys : System Op σ ω ε α}

/-- What holds between a system and the one of `mine` alone. -/
structure Alone (mine : Nat → Prop) (D : Nat → Discipline Op σ)
    (view : {β : Type} → Op β → β → β) (R : ω → (Nat → σ) → ω → (Nat → σ) → Prop)
    (sys sys₀ : System Op σ ω ε α) : Prop where
  disciplined : sys.Disciplined D
  sees : ∀ i, mine i → (sys.threads i).prog.SeesOnly view
  related : R sys.world sys.sessions sys₀.world sys₀.sessions
  progs : ∀ i, mine i → (sys₀.threads i).prog = (sys.threads i).prog

/-- Only the thread that has stepped does not go on as before. -/
theorem Alone.disciplined_update {sys₀ : System Op σ ω ε α} (h : Alone mine D view R sys sys₀)
    (w' : ω) {i : Nat} {t : Thread Op σ ε α}
    (ht : t.prog.Obeys (D i) (fun _ _ => True) t.session) :
    System.Disciplined D ⟨w', Function.update sys.threads i t⟩ := by
  intro j
  rcases eq_or_ne j i with rfl | hne
  · simpa using ht
  · simpa [Function.update_of_ne hne] using h.disciplined j

theorem Alone.sees_update {sys₀ : System Op σ ω ε α} (h : Alone mine D view R sys sys₀) {i : Nat}
    {t : Thread Op σ ε α} (ht : mine i → t.prog.SeesOnly view) :
    ∀ j, mine j → (Function.update sys.threads i t j).prog.SeesOnly view := by
  intro j hj
  rcases eq_or_ne j i with rfl | hne
  · simpa using ht hj
  · simpa [Function.update_of_ne hne] using h.sees j hj

theorem Alone.progs_update {sys₀ : System Op σ ω ε α} (h : Alone mine D view R sys sys₀) {i : Nat}
    {t t₀ : Thread Op σ ε α} (ht : t₀.prog = t.prog) : ∀ j, mine j →
    (Function.update sys₀.threads i t₀ j).prog = (Function.update sys.threads i t j).prog := by
  intro j hj
  rcases eq_or_ne j i with rfl | hne
  · simpa using ht
  · simpa [Function.update_of_ne hne] using h.progs j hj

theorem Alone.progs_other {sys₀ : System Op σ ω ε α} (h : Alone mine D view R sys sys₀) {i : Nat}
    (hi : ¬ mine i) (t : Thread Op σ ε α) : ∀ j, mine j →
    (sys₀.threads j).prog = (Function.update sys.threads i t j).prog := by
  intro j hj
  have hne : j ≠ i := fun heq => hi (heq ▸ hj)
  simpa [Function.update_of_ne hne] using h.progs j hj

/-- **The step lemma**: a step of `mine` is one of theirs alone, a step of the others is none. -/
theorem Alone.step (hR : Projects M mine D view R) {sys' sys₀ : System Op σ ω ε α} {i : Nat}
    (h : Alone mine D view R sys sys₀) (hs : M.Step sys i sys') :
    (mine i ∧ ∃ sys₀', M.Step sys₀ i sys₀' ∧ Alone mine D view R sys' sys₀') ∨
      Alone mine D view R sys' sys₀ := by
  cases hs with
  | @op β o k b s' w' hp hst =>
    have hobeys := h.disciplined i
    rw [hp] at hobeys
    have heff := hR.eff h.related hst
    have hdisciplined := h.disciplined_update w' (t := ⟨s', k b⟩) (hobeys.2 b s' heff)
    by_cases hi : mine i
    · have hsees := h.sees i hi
      rw [hp] at hsees
      obtain ⟨s₀', w₀', hst₀, hrelated⟩ := hR.own h.related hi hobeys.1 hst
      have hp₀ : (sys₀.threads i).prog = .op o k := (h.progs i hi).trans hp
      refine .inl ⟨hi, _, .op hp₀ hst₀, hdisciplined, h.sees_update fun _ => hsees.2 b, ?_,
        h.progs_update (hsees.1 b)⟩
      rw [System.sessions_update, System.sessions_update]
      exact hrelated
    · refine .inr ⟨hdisciplined, h.sees_update fun hmine => absurd hmine hi, ?_,
        h.progs_other hi _⟩
      rw [System.sessions_update]
      exact hR.other h.related hi hobeys.1 hst
  | crash hp =>
    have hdisciplined := h.disciplined_update (M.abort i (sys.threads i).session sys.world)
      (i := i) (t := ⟨M.fresh, .raise M.crashed⟩) trivial
    by_cases hi : mine i
    · have hp₀ := (h.progs i hi).trans hp
      refine .inl ⟨hi, _, .crash hp₀, hdisciplined, h.sees_update fun _ => .raise _, ?_,
        h.progs_update rfl⟩
      rw [System.sessions_update, System.sessions_update]
      exact hR.ownCrash h.related hi
    · refine .inr ⟨hdisciplined, h.sees_update fun hmine => absurd hmine hi, ?_,
        h.progs_other hi _⟩
      rw [System.sessions_update]
      exact hR.otherCrash h.related hi

/-- **The projection rule**: every run is, to `mine`, a run of theirs alone. -/
theorem Machine.Reaches.alone (hR : Projects M mine D view R)
    (h₀ : Alone mine D view R start start₀) (h : M.Reaches C start sys) :
    ∃ sys₀, M.Reaches (Machine.Of mine) start₀ sys₀ ∧ Alone mine D view R sys sys₀ := by
  induction h with
  | start => exact ⟨start₀, .start, h₀⟩
  | step _ hs _ ih =>
    obtain ⟨sys₀, hreaches, halone⟩ := ih
    rcases halone.step hR hs with ⟨hi, sys₀', hs₀, halone'⟩ | halone'
    · exact ⟨sys₀', .step hreaches hs₀ hi, halone'⟩
    · exact ⟨sys₀, hreaches, halone'⟩

end Alone
end FavlGateway.Library
