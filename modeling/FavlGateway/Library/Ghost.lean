/-
  One thread among many, with a ghost beside its session.

  `Machine.Reaches.obeys_ghost` is the thread rule for assertions that speak of the session AND of a
  ghost: something the program cannot see, which `G` ties to the system of the moment.  The ghost of
  `obeys_view` is a part of the world that no other thread changes.  The ghost of `history` are the
  changes the thread has made so far to a part of the world that others change too
  (`Machine.History`): a program that obeys `Machine.changes` makes only those that are allowed.
-/
import FavlGateway.Library.Interleave

namespace FavlGateway.Library

variable {Op : Type → Type} {σ ω ε α τ : Type} {M : Machine Op σ ω ε}
  {C : System Op σ ω ε α → Nat → System Op σ ω ε α → Prop} {sys₀ sys sys' : System Op σ ω ε α}
  {i j : Nat}

/-- **The thread rule with a ghost**: each step of the thread has to find a next ghost within its
    discipline, and no step of another thread may come between the ghost and the system. -/
theorem Machine.Reaches.obeys_ghost (G : System Op σ ω ε α → τ → Prop)
    {D : Discipline Op (σ × τ)} {Q : Except ε α → σ × τ → Prop} {x₀ : τ} (hG₀ : G sys₀ x₀)
    (hothers : ∀ {sys sys' j x}, M.Reaches C sys₀ sys → j ≠ i → M.Step sys j sys' → C sys j sys' →
      G sys x → G sys' x)
    (hown : ∀ {sys x} {β : Type} {o : Op β} {k : β → Prog Op ε α} {b : β} {s' : σ} {w' : ω},
      M.Reaches C sys₀ sys → (sys.threads i).prog = .op o k → D.pre o (sys.sessions i, x) →
      M.step i o (sys.sessions i) sys.world = some (b, s', w') →
      C sys i ⟨w', Function.update sys.threads i ⟨s', k b⟩⟩ → G sys x →
      ∃ x', D.eff o (sys.sessions i, x) b (s', x') ∧
        G ⟨w', Function.update sys.threads i ⟨s', k b⟩⟩ x')
    (hcrash : ∀ {sys sys' x}, M.Reaches C sys₀ sys → M.Step sys i sys' → C sys i sys' →
      sys'.world = M.abort i (sys.sessions i) sys.world → G sys x →
      ∃ x', Q (.error M.crashed) (M.fresh, x') ∧ G sys' x')
    (h₀ : (sys₀.threads i).prog.Obeys D Q ((sys₀.threads i).session, x₀))
    (h : M.Reaches C sys₀ sys) :
    ∃ x, G sys x ∧ (sys.threads i).prog.Obeys D Q ((sys.threads i).session, x) := by
  induction h with
  | start => exact ⟨x₀, hG₀, h₀⟩
  | @step sys sys' j hr hs hc ih =>
    obtain ⟨x, hG, hobeys⟩ := ih
    rcases eq_or_ne j i with rfl | hne
    · cases hs with
      | op hp hst =>
        rw [hp] at hobeys
        obtain ⟨x', heff, hG'⟩ := hown hr hp hobeys.1 hst hc hG
        exact ⟨x', hG', by simpa using hobeys.2 _ _ heff⟩
      | crash hp =>
        obtain ⟨x', hQ, hG'⟩ := hcrash hr (.crash hp) hc rfl hG
        exact ⟨x', hG', by simpa [Prog.Obeys] using hQ⟩
    · refine ⟨x, hothers hr hne hs hc hG, ?_⟩
      cases hs with
      | op hp hst => simpa [Function.update_of_ne hne.symm] using hobeys
      | crash hp => simpa [Function.update_of_ne hne.symm] using hobeys

/-! ## A view of the world -/

/-- **The thread rule with a view**: what the steps of thread `i` make of its session and of its
    view of the world is all its program has to be ready for, if the others leave the view alone. -/
theorem Machine.Reaches.obeys_view (view : ω → τ) {D : Discipline Op (σ × τ)}
    {Q : Except ε α → σ × τ → Prop}
    (hothers : ∀ sys, M.Reaches C sys₀ sys → ∀ {j : Nat} {sys'}, j ≠ i → M.Step sys j sys' →
      view sys'.world = view sys.world)
    (heff : ∀ sys, M.Reaches C sys₀ sys → ∀ {β : Type} {o : Op β} {b : β} {s' : σ} {w' : ω},
      M.step i o (sys.sessions i) sys.world = some (b, s', w') →
      D.eff o (sys.sessions i, view sys.world) b (s', view w'))
    (hcrash : ∀ s w, Q (.error M.crashed) (M.fresh, view (M.abort i s w)))
    (h₀ : (sys₀.threads i).prog.Obeys D Q ((sys₀.threads i).session, view sys₀.world))
    (h : M.Reaches C sys₀ sys) :
    (sys.threads i).prog.Obeys D Q ((sys.threads i).session, view sys.world) := by
  obtain ⟨x, rfl, hobeys⟩ := h.obeys_ghost (fun sys x => x = view sys.world) rfl
    (fun hr hne hs _ hx => hx.trans (hothers _ hr hne hs).symm)
    (fun hr _ _ hst _ hx => ⟨_, hx ▸ heff _ hr hst, rfl⟩)
    (fun _ _ _ hw _ => ⟨_, hw ▸ hcrash _ _, rfl⟩) h₀
  exact hobeys

/-! ## What a thread has changed -/

/-- The changes that thread `i` has made to the view in a run from `sys₀`, in order, each as the
    world before and after it. -/
inductive Machine.History (M : Machine Op σ ω ε) (view : ω → τ) (i : Nat)
    (sys₀ : System Op σ ω ε α) : List (ω × ω) → System Op σ ω ε α → Prop where
  | start : History M view i sys₀ [] sys₀
  | leave {xs : List (ω × ω)} {sys sys' : System Op σ ω ε α} {j : Nat}
      (h : History M view i sys₀ xs sys) (hs : M.Step sys j sys')
      (hsame : j = i → view sys'.world = view sys.world) : History M view i sys₀ xs sys'
  | change {xs : List (ω × ω)} {sys sys' : System Op σ ω ε α}
      (h : History M view i sys₀ xs sys) (hs : M.Step sys i sys')
      (hchanged : view sys'.world ≠ view sys.world) :
      History M view i sys₀ (xs ++ [(sys.world, sys'.world)]) sys'

/-- Every change is one that `P` allows after those before it. -/
def Allowed (P : List (ω × ω) → ω → ω → Prop) (xs : List (ω × ω)) : Prop :=
  ∀ before w w' after, xs = before ++ (w, w') :: after → P before w w'

theorem Allowed.nil {P : List (ω × ω) → ω → ω → Prop} : Allowed P [] := by
  intro before w w' after h
  simp at h

theorem Allowed.concat {P : List (ω × ω) → ω → ω → Prop} {xs : List (ω × ω)} {w w' : ω}
    (h : Allowed P xs) (hlast : P xs w w') : Allowed P (xs ++ [(w, w')]) := by
  intro before w₁ w₂ after heq
  rcases List.eq_nil_or_concat after with rfl | ⟨after', x, rfl⟩
  · obtain ⟨rfl, hx⟩ := List.append_inj' heq rfl
    cases hx
    exact hlast
  · rw [List.concat_eq_append, ← List.cons_append, ← List.append_assoc] at heq
    exact h before w₁ w₂ after' (List.append_inj' heq rfl).1

/-- Where only a first change is allowed there is one at most. -/
theorem Allowed.once {P : ω → ω → Prop} {xs : List (ω × ω)}
    (h : Allowed (fun before w w' => before = [] ∧ P w w') xs) :
    xs = [] ∨ ∃ w w', xs = [(w, w')] ∧ P w w' := by
  rcases xs with _ | ⟨⟨w, w'⟩, rest⟩
  · exact .inl rfl
  · rcases rest with _ | ⟨⟨w₂, w₂'⟩, rest⟩
    · exact .inr ⟨w, w', rfl, (h [] w w' [] rfl).2⟩
    · cases (h [(w, w')] w₂ w₂' rest rfl).1

/-- An operation of thread `i` in the runs from `sys₀` to `fin`, with the systems before and after
    it. -/
structure Machine.Moment (M : Machine Op σ ω ε) (sys₀ fin : System Op σ ω ε α) (i : Nat) {β : Type}
    (o : Op β) (s : σ) (b : β) (s' : σ) (sys sys' : System Op σ ω ε α) : Prop where
  reached : M.Reaches Machine.Any sys₀ sys
  own : M.Step sys i sys'
  rest : M.Reaches Machine.Any sys' fin
  session : sys.sessions i = s
  session' : sys'.sessions i = s'
  step : M.step i o s sys.world = some (b, s', sys'.world)

/-- The discipline of thread `i` in the runs from `sys₀` to `fin`, with its changes to the view as
    the ghost: it makes only those that `P` allows. -/
def Machine.changes (M : Machine Op σ ω ε) (view : ω → τ) (P : List (ω × ω) → ω → ω → Prop)
    (i : Nat) (sys₀ fin : System Op σ ω ε α) : Discipline Op (σ × List (ω × ω)) where
  pre o p := ∀ b s' sys sys', M.Moment sys₀ fin i o p.1 b s' sys sys' →
    view sys'.world = view sys.world ∨ P p.2 sys.world sys'.world
  eff o p b p' := ∃ sys sys', M.Moment sys₀ fin i o p.1 b p'.1 sys sys' ∧
    (view sys'.world = view sys.world ∧ p'.2 = p.2 ∨
      view sys'.world ≠ view sys.world ∧ p'.2 = p.2 ++ [(sys.world, sys'.world)])

/-- **The history rule**: a run of a program that obeys it tells what the thread has changed. -/
theorem Machine.Reaches.history {view : ω → τ} {P : List (ω × ω) → ω → ω → Prop}
    {Q : Except ε α → σ × List (ω × ω) → Prop} (habort : ∀ s w, view (M.abort i s w) = view w)
    (hcrash : ∀ xs, Q (.error M.crashed) (M.fresh, xs))
    (h₀ : (sys₀.threads i).prog.Obeys (M.changes view P i sys₀ sys) Q
      ((sys₀.threads i).session, []))
    (h : M.Reaches Machine.Any sys₀ sys) :
    ∃ xs, M.History view i sys₀ xs sys ∧ Allowed P xs ∧
      (sys.threads i).prog.Obeys (M.changes view P i sys₀ sys) Q
        ((sys.threads i).session, xs) := by
  -- the side condition: the run goes on to `sys`
  have hghost := h.towards.obeys_ghost (fun sys xs => M.History view i sys₀ xs sys ∧ Allowed P xs)
    ⟨.start, .nil⟩ ?_ ?_ ?_ h₀
  · obtain ⟨xs, ⟨hhistory, hxs⟩, hobeys⟩ := hghost
    exact ⟨xs, hhistory, hxs, hobeys⟩
  · rintro now sys' j xs _ hne hs _ ⟨hhistory, hxs⟩
    exact ⟨hhistory.leave hs fun heq => absurd heq hne, hxs⟩
  · rintro now xs β o k b s' w' hr hp hpre hst hrest ⟨hhistory, hxs⟩
    have hmoment : M.Moment sys₀ sys i o (now.sessions i) b s' now
        ⟨w', Function.update now.threads i ⟨s', k b⟩⟩ :=
      ⟨hr.mono fun _ _ _ _ => trivial, .op hp hst, hrest, rfl, by simp [System.sessions], hst⟩
    by_cases hview : view w' = view now.world
    · exact ⟨xs, ⟨now, _, hmoment, .inl ⟨hview, rfl⟩⟩,
        hhistory.leave (.op hp hst) fun _ => hview, hxs⟩
    · have hP := (hpre _ _ _ _ hmoment).resolve_left hview
      exact ⟨xs ++ [(now.world, w')], ⟨now, _, hmoment, .inr ⟨hview, rfl⟩⟩,
        hhistory.change (.op hp hst) hview, hxs.concat hP⟩
  · rintro now sys' xs _ hs _ hw ⟨hhistory, hxs⟩
    exact ⟨xs, hcrash xs, hhistory.leave hs fun _ => by rw [hw, habort], hxs⟩

section Rules

variable {β γ : Type} {view : ω → τ} {P : List (ω × ω) → ω → ω → Prop} {o : Op β} {s : σ}
  {xs : List (ω × ω)} {fin : System Op σ ω ε α}

/-- The precondition of an operation that never changes the view. -/
theorem Machine.changes_pre (hquiet : ∀ {w b s' w'}, M.step i o s w = some (b, s', w') →
    view w' = view w) : (M.changes view P i sys₀ fin).pre o (s, xs) :=
  fun _ _ _ _ hmoment => .inl (hquiet hmoment.step)

/-- What it makes of the session and the ghost. -/
theorem Machine.changes_eff (hquiet : ∀ {w b s' w'}, M.step i o s w = some (b, s', w') →
    view w' = view w) {b : β} {p : σ × List (ω × ω)}
    (h : (M.changes view P i sys₀ fin).eff o (s, xs) b p) :
    p.2 = xs ∧ ∃ sys sys', M.Moment sys₀ fin i o s b p.1 sys sys' := by
  obtain ⟨sys, sys', hmoment, ⟨-, hxs⟩ | ⟨hne, -⟩⟩ := h
  · exact ⟨hxs, sys, sys', hmoment⟩
  · exact absurd (hquiet hmoment.step) hne

/-- The rule for an operation that never changes the view. -/
theorem Machine.changes_quiet {k : β → Prog Op ε γ} {Q : Except ε γ → σ × List (ω × ω) → Prop}
    (hquiet : ∀ {w b s' w'}, M.step i o s w = some (b, s', w') → view w' = view w)
    (h : ∀ b s' sys sys', M.Moment sys₀ fin i o s b s' sys sys' →
      (k b).Obeys (M.changes view P i sys₀ fin) Q (s', xs)) :
    (Prog.op o k).Obeys (M.changes view P i sys₀ fin) Q (s, xs) := by
  refine ⟨Machine.changes_pre hquiet, ?_⟩
  rintro b ⟨s', xs'⟩ heff
  obtain ⟨hxs, sys, sys', hmoment⟩ := Machine.changes_eff hquiet heff
  have hxs' : xs' = xs := hxs
  rw [hxs']
  exact h b s' sys sys' hmoment

/-- The rule for an operation that changes the view, as `P` allows, or fails. -/
theorem Machine.changes_change {k : β → Prog Op ε γ} {Q : Except ε γ → σ × List (ω × ω) → Prop}
    (failed : β → σ → Prop) (done : β → σ → ω → ω → Prop)
    (hcases : ∀ {b s'} {sys sys' : System Op σ ω ε α}, M.Moment sys₀ fin i o s b s' sys sys' →
      failed b s' ∧ view sys'.world = view sys.world ∨
        done b s' sys.world sys'.world ∧ view sys'.world ≠ view sys.world ∧
          P xs sys.world sys'.world)
    (hfailed : ∀ b s', failed b s' → (k b).Obeys (M.changes view P i sys₀ fin) Q (s', xs))
    (hdone : ∀ b s' w w', done b s' w w' →
      (k b).Obeys (M.changes view P i sys₀ fin) Q (s', xs ++ [(w, w')])) :
    (Prog.op o k).Obeys (M.changes view P i sys₀ fin) Q (s, xs) := by
  refine ⟨?_, ?_⟩
  · intro b s' sys sys' hmoment
    rcases hcases hmoment with ⟨-, hsame⟩ | ⟨-, -, hP⟩
    · exact .inl hsame
    · exact .inr hP
  · rintro b ⟨s', xs'⟩ ⟨sys, sys', hmoment, heffect⟩
    rcases hcases hmoment with ⟨hfail, hsame⟩ | ⟨hdid, hchanged, -⟩
    · obtain ⟨-, hxs⟩ := heffect.resolve_right fun h => h.1 hsame
      have hxs' : xs' = xs := hxs
      rw [hxs']
      exact hfailed b s' hfail
    · obtain ⟨-, hxs⟩ := heffect.resolve_left fun h => hchanged h.1
      have hxs' : xs' = xs ++ [(sys.world, sys'.world)] := hxs
      rw [hxs']
      exact hdone b s' _ _ hdid

end Rules

/-! ## Programs that may do anything -/

/-- What holds of a program whatever its operations answer. -/
def Discipline.anything (Op : Type → Type) : Discipline Op Unit where
  pre _ _ := True
  eff _ _ _ _ := True

/-- Where every operation is allowed, a program ends as it does whatever it is answered. -/
theorem Prog.Obeys.anywhere {D : Discipline Op σ} {R : Except ε α → Prop}
    (hpre : ∀ {β : Type} (o : Op β) s, D.pre o s) {p : Prog Op ε α}
    (h : p.Obeys (.anything Op) (fun r _ => R r) ()) (s : σ) : p.Obeys D (fun r _ => R r) s := by
  induction p generalizing s with
  | ret a => exact h
  | raise e => exact h
  | op o k ih => exact ⟨hpre o s, fun b s' _ => ih b (h.2 b () trivial) s'⟩

end FavlGateway.Library
