/-
  Two runs of one program, on stores that differ in what the program must not see.

  `SeesOnly view p`: an answer reaches the rest of `p` through `view` alone.  If every operation
  keeps the two runs related, and answers the second run what the view shows of its answer in the
  first, then the two runs end alike (`SeesOnly.run`).  What the operations may assume of the second
  session is a discipline of the program, so the relation need not survive operations it never
  awaits; and what that discipline allows an operation to do it has to do in the second run only.
-/
import FavlGateway.Library.Prog

namespace FavlGateway.Library.Prog

variable {Op : Type → Type} {ε α β σ ω : Type}

/-- The program goes on alike after two answers that look the same. -/
def SeesOnly (view : {β : Type} → Op β → β → β) : Prog Op ε α → Prop
  | ret _ => True
  | raise _ => True
  | op o k => (∀ b, k (view o b) = k b) ∧ ∀ b, (k b).SeesOnly view

namespace SeesOnly

variable {view : {β : Type} → Op β → β → β}

theorem ret (a : α) : (Prog.ret a : Prog Op ε α).SeesOnly view := trivial

theorem raise (e : ε) : (Prog.raise e : Prog Op ε α).SeesOnly view := trivial

/-- The rule for an operation whose answers are seen whole. -/
theorem perform {o : Op β} {f : β → Prog Op ε α} (ho : ∀ b, view o b = b)
    (hf : ∀ b, (f b).SeesOnly view) : (Prog.perform o >>= f).SeesOnly view :=
  ⟨fun b => congrArg f (ho b), hf⟩

/-- The rule for an operation whose answer is looked at through the view first. -/
theorem perform_view {o : Op β} {f : β → Prog Op ε α} (ho : ∀ b, f (view o b) = f b)
    (hf : ∀ b, (f b).SeesOnly view) : (Prog.perform o >>= f).SeesOnly view := ⟨ho, hf⟩

theorem bind {p : Prog Op ε α} {f : α → Prog Op ε β} (hp : p.SeesOnly view)
    (hf : ∀ a, (f a).SeesOnly view) : (p >>= f).SeesOnly view := by
  induction p with
  | ret a => exact hf a
  | raise e => trivial
  | op o k ih => exact ⟨fun b => congrArg (· >>= f) (hp.1 b), fun b => ih b (hp.2 b)⟩

theorem tryCatch {p : Prog Op ε α} {h : ε → Prog Op ε α} (hp : p.SeesOnly view)
    (hh : ∀ e, (h e).SeesOnly view) : (p.tryCatch h).SeesOnly view := by
  induction p with
  | ret a => trivial
  | raise e => exact hh e
  | op o k ih => exact ⟨fun b => congrArg (·.tryCatch h) (hp.1 b), fun b => ih b (hp.2 b)⟩

/-- **The two-run rule.** -/
theorem run (act : {β : Type} → Op β → σ → ω → β × σ × ω) {D : Discipline Op σ}
    {R : σ → ω → σ → ω → Prop}
    (hR : ∀ {β : Type} (o : Op β) s w s' w', D.pre o s' → R s w s' w' →
      view o (act o s w).1 = (act o s' w').1 ∧ D.eff o s' (act o s' w').1 (act o s' w').2.1 ∧
        R (act o s w).2.1 (act o s w).2.2 (act o s' w').2.1 (act o s' w').2.2)
    {Q : Except ε α → σ → Prop} {p : Prog Op ε α} {s s' : σ} {w w' : ω} (hsees : p.SeesOnly view)
    (hobeys : p.Obeys D Q s') (h : R s w s' w') :
    (Prog.run act p s w).1 = (Prog.run act p s' w').1 ∧
      R (Prog.run act p s w).2.1 (Prog.run act p s w).2.2 (Prog.run act p s' w').2.1
        (Prog.run act p s' w').2.2 := by
  induction p generalizing s s' w w' with
  | ret a => exact ⟨rfl, h⟩
  | raise e => exact ⟨rfl, h⟩
  | op o k ih =>
    obtain ⟨hanswer, heff, hnext⟩ := hR o s w s' w' hobeys.1 h
    -- the first run goes on as if it had been answered what the second one is
    have hgo : k (act o s w).1 = k (act o s' w').1 := by
      rw [← hanswer]
      exact (hsees.1 _).symm
    rw [run_op, run_op, hgo]
    exact ih _ (hsees.2 _) (hobeys.2 _ _ heff) hnext

end SeesOnly
end FavlGateway.Library.Prog
