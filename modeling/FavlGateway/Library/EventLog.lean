/-
  A log that the steps of a machine append to.

  Where a step appends one entry at most, every prefix of the log was the whole log once, in some
  system that the run passes through (`Machine.Reaches.at_prefix`).  So what holds of the log and
  the world in every reachable system holds of every prefix and the world as it was then.
-/
import FavlGateway.Library.Interleave

namespace FavlGateway.Library

variable {Op : Type → Type} {σ ω ε α τ : Type} {M : Machine Op σ ω ε}
  {C : System Op σ ω ε α → Nat → System Op σ ω ε α → Prop} {sys₀ sys : System Op σ ω ε α}

/-- What a step can do to a log. -/
def Appends (old new : List τ) : Prop := new = old ∨ ∃ e, new = old ++ [e]

theorem Appends.isPrefix {old new : List τ} (h : Appends old new) : old <+: new := by
  rcases h with rfl | ⟨e, rfl⟩
  · exact List.prefix_rfl
  · exact List.prefix_append old [e]

/-- **The prefix rule**: every prefix of the log was the log. -/
theorem Machine.Reaches.at_prefix (log : ω → List τ)
    (hstep : ∀ {sys i sys'}, M.Reaches C sys₀ sys → M.Step sys i sys' → C sys i sys' →
      Appends (log sys.world) (log sys'.world))
    (h : M.Reaches C sys₀ sys) {n : Nat} (hn : (log sys₀.world).length ≤ n) :
    ∃ sys₁, M.Reaches C sys₀ sys₁ ∧ M.Reaches C sys₁ sys ∧
      log sys₁.world = (log sys.world).take n := by
  induction h with
  | start => exact ⟨sys₀, .start, .start, (List.take_of_length_le hn).symm⟩
  | @step sys sys' i hr hs hc ih =>
    obtain ⟨sys₁, h₁, h₂, hlog⟩ := ih
    rcases hstep hr hs hc with hsame | ⟨e, hnew⟩
    · exact ⟨sys₁, h₁, .step h₂ hs hc, hlog.trans (by rw [hsame])⟩
    · rcases Nat.lt_or_ge (log sys.world).length n with hlong | hshort
      · refine ⟨sys', .step hr hs hc, .start, (List.take_of_length_le ?_).symm⟩
        rw [hnew, List.length_append, List.length_singleton]
        exact hlong
      · refine ⟨sys₁, h₁, .step h₂ hs hc, hlog.trans ?_⟩
        rw [hnew, List.take_append_of_le_length hshort]

end FavlGateway.Library
