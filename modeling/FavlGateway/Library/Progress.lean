/-
  Why nobody waits for ever.

  `Machine.Orderly` is a discipline without deadlock for things that can be held, on some levels:
  who holds something waits at most for those who hold something of a lower level, and where nobody
  holds anything nobody waits.  From there on `Machine.Reaches.can_return` lets any thread run to
  its end: those who hold something go first, level by level, until they have given it up.  Programs
  are trees without infinite branches, so this takes finitely many turns.
-/
import FavlGateway.Library.Interleave

namespace FavlGateway.Library

variable {Op : Type → Type} {σ ω ε α : Type}

/-! ## Programs that return -/

/-- Whatever the answers, the program ends by returning. -/
def Prog.Returns : Prog Op ε α → Prop
  | .ret _ => True
  | .raise _ => False
  | .op _ k => ∀ b, (k b).Returns

/-- A program whose exceptions are all answered. -/
theorem Prog.Returns.tryCatch_ret (p : Prog Op ε α) (f : ε → α) :
    (p.tryCatch fun e => .ret (f e)).Returns := by
  induction p with
  | ret a => trivial
  | raise e => trivial
  | op o k ih => exact fun b => ih b

/-- In every run, a thread has died or will return. -/
theorem Machine.Reaches.returns {M : Machine Op σ ω ε}
    {C : System Op σ ω ε α → Nat → System Op σ ω ε α → Prop} {sys₀ sys : System Op σ ω ε α}
    (h₀ : ∀ i, (sys₀.threads i).prog.Returns) (h : M.Reaches C sys₀ sys) (i : Nat) :
    (sys.threads i).prog = .raise M.crashed ∨ (sys.threads i).prog.Returns := by
  induction h with
  | start => exact .inr (h₀ i)
  | @step sys sys' j _ hs _ ih =>
    rcases eq_or_ne i j with rfl | hne
    · cases hs with
      | op hp hst =>
        rw [hp] at ih
        rcases ih with hcrashed | hreturns
        · cases hcrashed
        · exact .inr (by simpa using hreturns _)
      | crash hp => exact .inl (by simp)
    · cases hs with
      | op hp hst => simpa [Function.update_of_ne hne] using ih
      | crash hp => simpa [Function.update_of_ne hne] using ih

/-- The thread's next operation is not blocked. -/
def System.CanStep (M : Machine Op σ ω ε) (sys : System Op σ ω ε α) (i : Nat) : Prop :=
  ∃ (β : Type) (o : Op β) (k : β → Prog Op ε α), (sys.threads i).prog = .op o k ∧
    ∃ b s' w', M.step i o (sys.sessions i) sys.world = some (b, s', w')

section Advance

variable {M : Machine Op σ ω ε} {sys : System Op σ ω ε α} {i j : Nat}

theorem Machine.schedule_append (turns turns' : List Nat) (sys : System Op σ ω ε α) :
    M.schedule (turns ++ turns') sys = M.schedule turns' (M.schedule turns sys) := by
  simp [schedule]

/-- A turn of a thread that is not blocked. -/
theorem Machine.advance_of_step {β : Type} {o : Op β} {k : β → Prog Op ε α} {b : β} {s' : σ}
    {w' : ω} (hp : (sys.threads i).prog = .op o k)
    (hs : M.step i o (sys.sessions i) sys.world = some (b, s', w')) :
    M.advance sys i = ⟨w', Function.update sys.threads i ⟨s', k b⟩⟩ := by
  have hs' : M.step i o (sys.threads i).session sys.world = some (b, s', w') := hs
  simp only [advance, hp, hs']

/-- What every turn leads to is reached. -/
theorem Machine.Reaches.advance {sys₀ : System Op σ ω ε α} (h : M.Reaches Machine.Any sys₀ sys)
    (i : Nat) : M.Reaches Machine.Any sys₀ (M.advance sys i) :=
  h.trans (Machine.reaches_advance sys i fun _ => trivial)

theorem Machine.Reaches.schedule {sys₀ : System Op σ ω ε α} (h : M.Reaches Machine.Any sys₀ sys)
    (turns : List Nat) : M.Reaches Machine.Any sys₀ (M.schedule turns sys) :=
  h.trans (Machine.reaches_schedule turns sys)

/-- Every turn of the schedule is one that `C` allows. -/
def Machine.Allows (M : Machine Op σ ω ε) (C : System Op σ ω ε α → Nat → Prop) :
    List Nat → System Op σ ω ε α → Prop
  | [], _ => True
  | i :: turns, sys => C sys i ∧ M.Allows C turns (M.advance sys i)

section Allows

variable {C C' : System Op σ ω ε α → Nat → Prop} {turns turns' : List Nat}

theorem Machine.Allows.mono (hC : ∀ sys i, C sys i → C' sys i) (h : M.Allows C turns sys) :
    M.Allows C' turns sys := by
  induction turns generalizing sys with
  | nil => trivial
  | cons i turns ih => exact ⟨hC _ _ h.1, ih h.2⟩

theorem Machine.Allows.append (h : M.Allows C turns sys)
    (h' : M.Allows C turns' (M.schedule turns sys)) : M.Allows C (turns ++ turns') sys := by
  induction turns generalizing sys with
  | nil => exact h'
  | cons i turns ih => exact ⟨h.1, ih h.2 h'⟩

/-- Whoever gets no turn stays where it is. -/
theorem Machine.Allows.others (hC : ∀ sys j, C sys j → i ≠ j) (h : M.Allows C turns sys) :
    (M.schedule turns sys).threads i = sys.threads i := by
  induction turns generalizing sys with
  | nil => rfl
  | cons j turns ih => exact (ih h.2).trans (Machine.threads_advance (hC _ _ h.1))

end Allows

end Advance

/-! ## Machines that wait more often -/

section Restricts

variable {ω' : Type}

/-- `M` does what `M'` does, or waits; its world tells more. -/
structure Machine.Restricts (M : Machine Op σ ω ε) (M' : Machine Op σ ω' ε) (world : ω → ω') :
    Prop where
  step : ∀ {i : Nat} {β : Type} {o : Op β} {s : σ} {w : ω} {b : β} {s' : σ} {w₁ : ω},
    M.step i o s w = some (b, s', w₁) → M'.step i o s (world w) = some (b, s', world w₁)
  abort : ∀ i s w, M'.abort i s (world w) = world (M.abort i s w)
  fresh : M'.fresh = M.fresh
  crashed : M'.crashed = M.crashed

/-- What the machine that waits more often reaches, the other one reaches. -/
theorem Machine.Restricts.reaches {M : Machine Op σ ω ε} {M' : Machine Op σ ω' ε} {world : ω → ω'}
    (h : M.Restricts M' world) {sys₀ sys : System Op σ ω ε α}
    (hr : M.Reaches Machine.Any sys₀ sys) :
    M'.Reaches Machine.Any ⟨world sys₀.world, sys₀.threads⟩ ⟨world sys.world, sys.threads⟩ := by
  induction hr with
  | start => exact .start
  | @step _ _ i _ hs _ ih =>
    cases hs with
    | op hp hst => exact .step (i := i) ih (.op hp (h.step hst)) trivial
    | crash hp =>
      rw [← h.abort, ← h.fresh, ← h.crashed]
      exact .step (i := i) ih (.crash hp) trivial

end Restricts

/-! ## Locks -/

section Locks

variable {i j : Nat} {lock : Option Nat}

/-- Whose a lock is once `i` has given up its locks. -/
theorem release_eq_some :
    (if lock = some i then none else lock) = some j ↔ j ≠ i ∧ lock = some j := by
  split
  · rename_i hlock
    simp [hlock, eq_comm]
  · rename_i hlock
    refine ⟨fun hj => ⟨?_, hj⟩, And.right⟩
    rintro rfl
    exact hlock hj

/-- Whose a lock is once `i` has taken it where `p` holds; nobody else had it there. -/
theorem take_eq_some {p : Prop} [Decidable p] (hfree : p → lock = some j → j = i) :
    (if p then some i else lock) = some j ↔ j = i ∧ p ∨ lock = some j := by
  split
  · rename_i hp
    constructor
    · intro hj
      exact .inl ⟨(Option.some.inj hj).symm, hp⟩
    · rintro (⟨rfl, -⟩ | hj)
      · rfl
      · rw [hfree hp hj]
  · rename_i hp
    simp [hp]

end Locks

/-! ## Holding and waiting -/

/-- Holding without deadlock: `holds n w j` says that thread `j` holds something of level `n` in the
    world `w`. -/
structure Machine.Orderly (M : Machine Op σ ω ε) (levels : Nat) (holds : Nat → ω → Nat → Prop)
    (sys₀ : System Op σ ω ε α) : Prop where
  /-- Nobody holds anything at the start. -/
  start : ∀ n j, ¬ holds n sys₀.world j
  /-- A thread takes things for itself only. -/
  step : ∀ {i : Nat} {β : Type} {o : Op β} {s : σ} {w : ω} {b : β} {s' : σ} {w' : ω},
    M.step i o s w = some (b, s', w') → ∀ n j, j ≠ i → holds n w' j → holds n w j
  abort : ∀ i s w n j, holds n (M.abort i s w) j → holds n w j
  /-- Who holds something waits at most for others that hold something of a lower level. -/
  holder : ∀ sys, M.Reaches Machine.Any sys₀ sys → ∀ n, n < levels → ∀ j, holds n sys.world j →
    (∀ m, m < n → ∀ i, i ≠ j → ¬ holds m sys.world i) → sys.CanStep M j
  /-- Where nobody holds anything, nobody waits. -/
  free : ∀ {i : Nat} {β : Type} (o : Op β) (s : σ) (w : ω),
    (∀ n, n < levels → ∀ j, ¬ holds n w j) → ∃ b s' w', M.step i o s w = some (b, s', w')

/-- Thread `j` holds something. -/
def HoldsAny (holds : Nat → ω → Nat → Prop) (w : ω) (j : Nat) : Prop := ∃ n, holds n w j

/-- The turns of threads of `l` that hold something. -/
def HoldersOf (holds : Nat → ω → Nat → Prop) (l : List Nat) (sys : System Op σ ω ε α) (j : Nat) :
    Prop :=
  j ∈ l ∧ HoldsAny holds sys.world j

namespace Machine.Orderly

variable {M : Machine Op σ ω ε} {levels : Nat} {holds : Nat → ω → Nat → Prop}
  {sys₀ sys : System Op σ ω ε α}

/-- At any time only finitely many threads hold something: those that have taken a step. -/
theorem holders_finite (hM : M.Orderly levels holds sys₀) (h : M.Reaches Machine.Any sys₀ sys) :
    ∃ l : List Nat, ∀ n j, holds n sys.world j → j ∈ l := by
  induction h with
  | start => exact ⟨[], fun n j hj => absurd hj (hM.start n j)⟩
  | @step sys sys' i _ hs _ ih =>
    obtain ⟨l, hl⟩ := ih
    refine ⟨i :: l, fun n j hj => ?_⟩
    rcases eq_or_ne j i with rfl | hne
    · exact List.mem_cons_self
    · refine List.mem_cons_of_mem _ (hl n j ?_)
      cases hs with
      | op hp hst => exact hM.step hst n j hne hj
      | crash hp => exact hM.abort _ _ _ n j hj

theorem advance (hM : M.Orderly levels holds sys₀) {i j n : Nat} (hne : j ≠ i)
    (hj : holds n (M.advance sys i).world j) : holds n sys.world j := by
  unfold Machine.advance at hj
  split at hj
  · split at hj
    · rename_i hst
      exact hM.step hst n j hne hj
    · exact hj
  · exact hj

/-- The turns of others make nobody hold anything. -/
theorem schedule (hM : M.Orderly levels holds sys₀) {l turns : List Nat} {n j : Nat} (hj : j ∉ l)
    (hturns : M.Allows (HoldersOf holds l) turns sys)
    (h : holds n (M.schedule turns sys).world j) : holds n sys.world j := by
  induction turns generalizing sys with
  | nil => exact h
  | cons i turns ih =>
    obtain ⟨⟨hi, -⟩, hrest⟩ := hturns
    exact hM.advance (fun hji => hj (hji ▸ hi)) (ih hrest h)

/-- One thread goes on until it holds nothing of the levels up to `n`. -/
theorem clear_one (hM : M.Orderly levels holds sys₀) (h : M.Reaches Machine.Any sys₀ sys)
    {n : Nat} (hn : n < levels) {j : Nat}
    (hbelow : ∀ m, m < n → ∀ i, i ≠ j → ¬ holds m sys.world i) :
    ∃ turns, M.Allows (HoldersOf holds [j]) turns sys ∧
      ∀ m, m ≤ n → ¬ holds m (M.schedule turns sys).world j := by
  -- by induction on what is left of its program
  generalize hp : (sys.threads j).prog = p
  have hstep : ∀ m, m ≤ n → holds m sys.world j → sys.CanStep M j := fun m hm hheld =>
    hM.holder sys h m (Nat.lt_of_le_of_lt hm hn) j hheld fun m' hm' =>
      hbelow m' (Nat.lt_of_lt_of_le hm' hm)
  induction p generalizing sys with
  | ret a =>
    refine ⟨[], trivial, fun m hm hheld => ?_⟩
    obtain ⟨β, o, k, hop, -⟩ := hstep m hm hheld
    rw [hp] at hop
    cases hop
  | raise e =>
    refine ⟨[], trivial, fun m hm hheld => ?_⟩
    obtain ⟨β, o, k, hop, -⟩ := hstep m hm hheld
    rw [hp] at hop
    cases hop
  | @op β o k ih =>
    by_cases hheld : ∃ m, m ≤ n ∧ holds m sys.world j
    · obtain ⟨m, hm, hheld⟩ := hheld
      obtain ⟨γ, o', k', hop, b, s', w', hst⟩ := hstep m hm hheld
      rw [hp] at hop
      cases hop
      have hbelow' : ∀ m, m < n → ∀ i, i ≠ j → ¬ holds m (M.advance sys j).world i :=
        fun m hm i hi hheld => hbelow m hm i hi (hM.advance hi hheld)
      obtain ⟨turns, hturns, hclear⟩ := ih b (h.advance j) hbelow'
        (by rw [Machine.advance_of_step hp hst]; simp)
        (fun m hm hheld => hM.holder _ (h.advance j) m (Nat.lt_of_le_of_lt hm hn) j hheld
          fun m' hm' => hbelow' m' (Nat.lt_of_lt_of_le hm' hm))
      exact ⟨j :: turns, ⟨⟨List.mem_cons_self, m, hheld⟩, hturns⟩, hclear⟩
    · exact ⟨[], trivial, fun m hm hm' => hheld ⟨m, hm, hm'⟩⟩

/-- One thread after the other, on one level. -/
theorem clear_level (hM : M.Orderly levels holds sys₀) (h : M.Reaches Machine.Any sys₀ sys)
    {n : Nat} (hn : n < levels) (l : List Nat)
    (hbelow : ∀ m, m < n → ∀ i, ¬ holds m sys.world i) :
    ∃ turns, M.Allows (HoldersOf holds l) turns sys ∧
      (∀ m, m < n → ∀ i, ¬ holds m (M.schedule turns sys).world i) ∧
      ∀ j ∈ l, ¬ holds n (M.schedule turns sys).world j := by
  induction l generalizing sys with
  | nil => exact ⟨[], trivial, hbelow, fun j hj => (List.not_mem_nil hj).elim⟩
  | cons j l ih =>
    obtain ⟨turns₁, h₁, hj⟩ := hM.clear_one h hn fun m hm i _ => hbelow m hm i
    have hbelow₁ : ∀ m, m < n → ∀ i, ¬ holds m (M.schedule turns₁ sys).world i := by
      intro m hm i hi
      rcases eq_or_ne i j with rfl | hne
      · exact hj m (Nat.le_of_lt hm) hi
      · exact hbelow m hm i (hM.schedule (by simpa using hne) h₁ hi)
    obtain ⟨turns₂, h₂, hbelow₂, hl⟩ := ih (h.schedule turns₁) hbelow₁
    refine ⟨turns₁ ++ turns₂, Machine.Allows.append ?_ ?_, ?_, ?_⟩
    · refine h₁.mono fun sys i hi => ⟨?_, hi.2⟩
      exact List.mem_cons.mpr (.inl (List.mem_singleton.mp hi.1))
    · exact h₂.mono fun sys i hi => ⟨List.mem_cons_of_mem _ hi.1, hi.2⟩
    · rwa [Machine.schedule_append]
    · rw [Machine.schedule_append]
      intro i hi
      by_cases hmem : i ∈ l
      · exact hl i hmem
      · obtain rfl : i = j := (List.mem_cons.mp hi).resolve_right hmem
        exact fun hheld => hj n (Nat.le_refl n) (hM.schedule hmem h₂ hheld)

/-- One level after the other, until thread `i` can go on. -/
theorem clear (hM : M.Orderly levels holds sys₀) (h : M.Reaches Machine.Any sys₀ sys) {l : List Nat}
    {i : Nat} (hi : i ∉ l) (hl : ∀ n j, j ≠ i → holds n sys.world j → j ∈ l) {n : Nat}
    (hn : n ≤ levels) :
    ∃ turns, M.Allows (HoldersOf holds l) turns sys ∧
      ((M.schedule turns sys).CanStep M i ∨
        ∀ m, m < n → ∀ j, ¬ holds m (M.schedule turns sys).world j) := by
  induction n with
  | zero => exact ⟨[], trivial, .inr fun m hm => (Nat.not_lt_zero m hm).elim⟩
  | succ n ih =>
    obtain ⟨turns₁, h₁, hcan | hclear⟩ := ih (Nat.le_of_succ_le hn)
    · exact ⟨turns₁, h₁, .inl hcan⟩
    · by_cases hheld : holds n (M.schedule turns₁ sys).world i
      · exact ⟨turns₁, h₁, .inl (hM.holder _ (h.schedule turns₁) n hn i hheld
          fun m hm j _ => hclear m hm j)⟩
      · obtain ⟨turns₂, h₂, hbelow, hlevel⟩ := hM.clear_level (h.schedule turns₁) hn l hclear
        refine ⟨turns₁ ++ turns₂, h₁.append h₂, .inr fun m hm j => ?_⟩
        rw [Machine.schedule_append]
        rcases Nat.lt_succ_iff_lt_or_eq.mp hm with hm' | rfl
        · exact hbelow m hm' j
        · by_cases hmem : j ∈ l
          · exact hlevel j hmem
          · intro hj
            have hj₁ := hM.schedule hmem h₂ hj
            rcases eq_or_ne j i with rfl | hne
            · exact hheld hj₁
            · exact hmem (hl m j hne (hM.schedule hmem h₁ hj₁))

end Machine.Orderly

/-- The turns of thread `i` and of threads that hold something. -/
def OwnOrHolder (holds : Nat → ω → Nat → Prop) (i : Nat) (sys : System Op σ ω ε α) (j : Nat) :
    Prop :=
  j = i ∨ HoldsAny holds sys.world j

section Return

variable {M : Machine Op σ ω ε} {levels : Nat} {holds : Nat → ω → Nat → Prop}
  {sys₀ sys : System Op σ ω ε α} {i : Nat}

/-- A thread can take its next step, once those who hold something have given it up. -/
theorem Machine.Orderly.can_step (hM : M.Orderly levels holds sys₀)
    (h : M.Reaches Machine.Any sys₀ sys) {β : Type} {o : Op β} {k : β → Prog Op ε α}
    (hp : (sys.threads i).prog = .op o k) :
    ∃ turns b, M.Allows (OwnOrHolder holds i) turns sys ∧
      ((M.schedule turns sys).threads i).prog = k b := by
  -- the others that hold something
  obtain ⟨l, hi, hl⟩ : ∃ l : List Nat, i ∉ l ∧ ∀ n j, j ≠ i → holds n sys.world j → j ∈ l := by
    obtain ⟨all, hall⟩ := hM.holders_finite h
    exact ⟨all.filter fun j => j ≠ i, by simp,
      fun n j hne hj => List.mem_filter.mpr ⟨hall n j hj, by simpa using hne⟩⟩
  obtain ⟨turns, hturns, hcan⟩ := hM.clear h hi hl (Nat.le_refl levels)
  have hp' : ((M.schedule turns sys).threads i).prog = .op o k := by
    have hspared : ∀ (sys : System Op σ ω ε α) (j : Nat), HoldersOf holds l sys j → i ≠ j := by
      rintro sys j ⟨hj, -⟩ rfl
      exact hi hj
    rw [hturns.others hspared, hp]
  have hstep : ∃ b s' w', M.step i o ((M.schedule turns sys).sessions i)
      (M.schedule turns sys).world = some (b, s', w') := by
    rcases hcan with ⟨γ, o', k', hop, hstep⟩ | hclear
    · rw [hp'] at hop
      cases hop
      exact hstep
    · exact hM.free o _ _ hclear
  obtain ⟨b, s', w', hst⟩ := hstep
  refine ⟨turns ++ [i], b, Machine.Allows.append ?_ ⟨.inl rfl, trivial⟩, ?_⟩
  · exact hturns.mono fun sys j hj => .inr hj.2
  · rw [Machine.schedule_append]
    show ((M.advance (M.schedule turns sys) i).threads i).prog = _
    rw [Machine.advance_of_step hp' hst]
    simp

/-- **No deadlock**: in whatever state the system is, every thread that is alive can be brought to
    its end, by a schedule in which nobody dies and nobody else moves but those who hold
    something. -/
theorem Machine.Reaches.can_return (hM : M.Orderly levels holds sys₀)
    (h : M.Reaches Machine.Any sys₀ sys) (hreturns : (sys.threads i).prog.Returns) :
    ∃ turns a, M.Allows (OwnOrHolder holds i) turns sys ∧
      ((M.schedule turns sys).threads i).prog = .ret a := by
  generalize hp : (sys.threads i).prog = p at hreturns
  induction p generalizing sys with
  | ret a => exact ⟨[], a, trivial, hp⟩
  | raise e => exact hreturns.elim
  | op o k ih =>
    obtain ⟨turns, b, hturns, hnext⟩ := hM.can_step h hp
    obtain ⟨rest, a, hrest, hend⟩ := ih b (h.schedule turns) hnext (hreturns b)
    exact ⟨turns ++ rest, a, hturns.append hrest, by rwa [Machine.schedule_append]⟩

end Return

end FavlGateway.Library
