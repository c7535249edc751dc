/-
  Interleaved request programs, and the rule for their invariants.

  A `Machine` says what one operation does for one thread (`step`, which may refuse while a lock is
  held elsewhere) and what is left behind when the thread's process dies (`abort`).  A `System` is
  the shared world plus a thread for EVERY natural number: unboundedly many requests, each of which
  may start late, stall, finish or crash.  `Reaches` closes the single steps under an arbitrary side
  condition on steps, so that a result can be stated for all runs or for the runs that avoid one
  named situation.

  The programs enter the proofs once, as disciplined programs (`Prog.Obeys`).  From then on a
  reachable system is a world and a family of sessions: a property `J` of those two that every
  permitted operation preserves (`Preserved`) holds of every reachable system.
-/
import FavlGateway.Library.Prog

namespace FavlGateway.Library

variable {Op : Type → Type} {σ ω ε α : Type}

/-- What the operations do for thread `i`, in its session `σ`, on the shared world `ω`. -/
structure Machine (Op : Type → Type) (σ ω ε : Type) where
  /-- One operation; `none` while the thread is blocked. -/
  step : Nat → {β : Type} → Op β → σ → ω → Option (β × σ × ω)
  /-- The world after the thread's process died in the middle of its program. -/
  abort : Nat → σ → ω → ω
  /-- The session of a thread that has none. -/
  fresh : σ
  /-- How a crashed program reads. -/
  crashed : ε

/-- One request in progress: its session and what is left of its program. -/
structure Thread (Op : Type → Type) (σ ε α : Type) : Type 1 where
  session : σ
  prog : Prog Op ε α

/-- The shared world and every request there will ever be. -/
structure System (Op : Type → Type) (σ ω ε α : Type) : Type 1 where
  world : ω
  threads : Nat → Thread Op σ ε α

namespace Machine

variable (M : Machine Op σ ω ε)

/-- Thread `i` performs its next operation, or its process dies. -/
inductive Step : System Op σ ω ε α → Nat → System Op σ ω ε α → Prop where
  | op {sys : System Op σ ω ε α} {i : Nat} {β : Type} {o : Op β} {k : β → Prog Op ε α}
      {b : β} {s' : σ} {w' : ω}
      (hp : (sys.threads i).prog = .op o k)
      (hs : M.step i o (sys.threads i).session sys.world = some (b, s', w')) :
      Step sys i ⟨w', Function.update sys.threads i ⟨s', k b⟩⟩
  | crash {sys : System Op σ ω ε α} {i : Nat} {β : Type} {o : Op β} {k : β → Prog Op ε α}
      (hp : (sys.threads i).prog = .op o k) :
      Step sys i ⟨M.abort i (sys.threads i).session sys.world,
        Function.update sys.threads i ⟨M.fresh, .raise M.crashed⟩⟩

/-- The systems reached from `sys₀` by steps that all satisfy the side condition `C`. -/
inductive Reaches (C : System Op σ ω ε α → Nat → System Op σ ω ε α → Prop)
    (sys₀ : System Op σ ω ε α) : System Op σ ω ε α → Prop where
  | start : Reaches C sys₀ sys₀
  | step {sys sys' : System Op σ ω ε α} {i : Nat} (h : Reaches C sys₀ sys)
      (hs : M.Step sys i sys') (hc : C sys i sys') : Reaches C sys₀ sys'

/-- The side condition that every step meets. -/
def Any (_ : System Op σ ω ε α) (_ : Nat) (_ : System Op σ ω ε α) : Prop := True

variable {M}

theorem Reaches.trans {C : System Op σ ω ε α → Nat → System Op σ ω ε α → Prop}
    {sys₀ sys₁ sys₂ : System Op σ ω ε α} (h₁ : M.Reaches C sys₀ sys₁)
    (h₂ : M.Reaches C sys₁ sys₂) : M.Reaches C sys₀ sys₂ := by
  induction h₂ with
  | start => exact h₁
  | step _ hs hc ih => exact .step ih hs hc

theorem Reaches.mono {C D : System Op σ ω ε α → Nat → System Op σ ω ε α → Prop}
    (hCD : ∀ sys i sys', C sys i sys' → D sys i sys') {sys₀ sys : System Op σ ω ε α}
    (h : M.Reaches C sys₀ sys) : M.Reaches D sys₀ sys := by
  induction h with
  | start => exact .start
  | step _ hs hc ih => exact .step ih hs (hCD _ _ _ hc)

/-- What holds of every reachable system may be assumed of the systems a run passes through. -/
theorem Reaches.assuming {C : System Op σ ω ε α → Nat → System Op σ ω ε α → Prop}
    {P : System Op σ ω ε α → Prop} {sys₀ sys : System Op σ ω ε α}
    (hP : ∀ sys, M.Reaches C sys₀ sys → P sys) (h : M.Reaches C sys₀ sys) :
    M.Reaches (fun sys i sys' => P sys ∧ C sys i sys') sys₀ sys := by
  induction h with
  | start => exact .start
  | step h hs hc ih => exact .step ih hs ⟨hP _ h, hc⟩

/-- Every system that a run passes through leads on to its end. -/
theorem Reaches.towards {sys₀ sys : System Op σ ω ε α} (h : M.Reaches Any sys₀ sys) :
    M.Reaches (fun _ _ sys' => M.Reaches Any sys' sys) sys₀ sys := by
  induction h with
  | start => exact .start
  | step _ hs hc ih => exact .step (ih.mono fun _ _ _ hrest => .step hrest hs hc) hs .start

/-! ### Schedules -/

variable (M) in
/-- Let thread `i` perform its next operation, if it has one and is not blocked. -/
def advance (sys : System Op σ ω ε α) (i : Nat) : System Op σ ω ε α :=
  match (sys.threads i).prog with
  | .op o k =>
    match M.step i o (sys.threads i).session sys.world with
    | some (b, s', w') => ⟨w', Function.update sys.threads i ⟨s', k b⟩⟩
    | none => sys
  | _ => sys

/-- A turn is a step, unless the thread has ended or has to wait. -/
theorem step_advance (sys : System Op σ ω ε α) (i : Nat) :
    M.advance sys i = sys ∨ M.Step sys i (M.advance sys i) := by
  unfold advance
  split
  · rename_i hp
    split
    · rename_i hs
      exact .inr (.op hp hs)
    · exact .inl rfl
  · exact .inl rfl

theorem reaches_advance {C : System Op σ ω ε α → Nat → System Op σ ω ε α → Prop}
    (sys : System Op σ ω ε α) (i : Nat) (hC : ∀ sys', C sys i sys') :
    M.Reaches C sys (M.advance sys i) := by
  rcases step_advance (M := M) sys i with hsame | hs
  · rw [hsame]
    exact .start
  · exact .step .start hs (hC _)

variable (M) in
/-- Let the threads of a schedule take their turns. -/
def schedule (turns : List Nat) (sys : System Op σ ω ε α) : System Op σ ω ε α :=
  turns.foldl M.advance sys

/-- What a schedule leads to is reachable. -/
theorem reaches_schedule (turns : List Nat) (sys : System Op σ ω ε α) :
    M.Reaches Any sys (M.schedule turns sys) := by
  induction turns generalizing sys with
  | nil => exact .start
  | cons i turns ih => exact (reaches_advance sys i fun _ => trivial).trans (ih _)

theorem threads_advance {sys : System Op σ ω ε α} {i j : Nat} (hne : j ≠ i) :
    (M.advance sys i).threads j = sys.threads j := by
  unfold advance
  split
  · split
    · exact Function.update_of_ne hne _ _
    · rfl
  · rfl

/-- Who has no turn stands where it stood. -/
theorem threads_schedule {turns : List Nat} {sys : System Op σ ω ε α} {j : Nat} (hj : j ∉ turns) :
    (M.schedule turns sys).threads j = sys.threads j := by
  induction turns generalizing sys with
  | nil => rfl
  | cons i turns ih =>
    rw [List.mem_cons, not_or] at hj
    exact (ih hj.2).trans (threads_advance hj.1)

variable (M) in
/-- Every world a schedule passes through passes the check. -/
def scheduleAll (check : ω → Bool) : List Nat → System Op σ ω ε α → Bool
  | [], _ => true
  | i :: turns, sys => check sys.world && scheduleAll check turns (M.advance sys i)

/-- A schedule through checked worlds meets any side condition the check implies. -/
theorem reaches_scheduleAll {C : System Op σ ω ε α → Nat → System Op σ ω ε α → Prop}
    {check : ω → Bool} (hC : ∀ sys i sys', check sys.world = true → C sys i sys')
    (turns : List Nat) (sys : System Op σ ω ε α) (h : M.scheduleAll check turns sys = true) :
    M.Reaches C sys (M.schedule turns sys) := by
  induction turns generalizing sys with
  | nil => exact .start
  | cons i turns ih =>
    simp only [scheduleAll, Bool.and_eq_true] at h
    exact (reaches_advance sys i fun _ => hC _ _ _ h.1).trans (ih _ h.2)

variable (M) in
/-- Every turn of the schedule passes the check. -/
def scheduleChecked (check : System Op σ ω ε α → Nat → Bool) :
    List Nat → System Op σ ω ε α → Bool
  | [], _ => true
  | i :: turns, sys => check sys i && scheduleChecked check turns (M.advance sys i)

/-- A schedule of checked turns meets any side condition the check implies. -/
theorem reaches_scheduleChecked {C : System Op σ ω ε α → Nat → System Op σ ω ε α → Prop}
    {check : System Op σ ω ε α → Nat → Bool}
    (hC : ∀ sys i sys', check sys i = true → C sys i sys') (turns : List Nat)
    (sys : System Op σ ω ε α) (h : M.scheduleChecked check turns sys = true) :
    M.Reaches C sys (M.schedule turns sys) := by
  induction turns generalizing sys with
  | nil => exact .start
  | cons i turns ih =>
    simp only [scheduleChecked, Bool.and_eq_true] at h
    exact (reaches_advance sys i fun _ => hC _ _ _ h.1).trans (ih _ h.2)

end Machine

/-! ## Disciplined systems -/

/-- Where the sessions of the threads stand. -/
def System.sessions (sys : System Op σ ω ε α) (i : Nat) : σ := (sys.threads i).session

/-- Every thread obeys its discipline from where it stands. -/
def System.Disciplined (D : Nat → Discipline Op σ) (sys : System Op σ ω ε α) : Prop :=
  ∀ i, (sys.threads i).prog.Obeys (D i) (fun _ _ => True) (sys.threads i).session

/-- The machine's operations have no other effects on sessions than the disciplines say. -/
def Machine.Implements (M : Machine Op σ ω ε) (D : Nat → Discipline Op σ) : Prop :=
  ∀ {i : Nat} {β : Type} {o : Op β} {s : σ} {w : ω} {b : β} {s' : σ} {w' : ω},
    M.step i o s w = some (b, s', w') → (D i).eff o s b s'

section Rule

variable {M : Machine Op σ ω ε} {D : Nat → Discipline Op σ}
  {C : System Op σ ω ε α → Nat → System Op σ ω ε α → Prop}

theorem System.Disciplined.step (hM : M.Implements D) {sys sys' : System Op σ ω ε α} {i : Nat}
    (h : sys.Disciplined D) (hs : M.Step sys i sys') : sys'.Disciplined D := by
  intro j
  cases hs with
  | @op β o k b s' w' hp hst =>
    rcases eq_or_ne j i with rfl | hj
    · have hi := h j
      rw [hp] at hi
      simpa using hi.2 b s' (hM hst)
    · simpa [Function.update_of_ne hj] using h j
  | crash hp =>
    rcases eq_or_ne j i with rfl | hj
    · simp [Prog.Obeys]
    · simpa [Function.update_of_ne hj] using h j

theorem Machine.Reaches.disciplined (hM : M.Implements D) {sys₀ sys : System Op σ ω ε α}
    (h₀ : sys₀.Disciplined D) (h : M.Reaches C sys₀ sys) : sys.Disciplined D := by
  induction h with
  | start => exact h₀
  | step _ hs _ ih => exact ih.step hM hs

/-- A property of the world and all sessions that the steps under `C` preserve. -/
structure Preserved (M : Machine Op σ ω ε) (D : Nat → Discipline Op σ)
    (C : System Op σ ω ε α → Nat → System Op σ ω ε α → Prop) (J : ω → (Nat → σ) → Prop) :
    Prop where
  op : ∀ {sys : System Op σ ω ε α} {i : Nat} {β : Type} {o : Op β} {k : β → Prog Op ε α} {b : β}
    {s' : σ} {w' : ω}, (sys.threads i).prog = .op o k → (D i).pre o (sys.sessions i) →
    M.step i o (sys.sessions i) sys.world = some (b, s', w') →
    C sys i ⟨w', Function.update sys.threads i ⟨s', k b⟩⟩ → J sys.world sys.sessions →
    J w' (Function.update sys.sessions i s')
  crash : ∀ {w : ω} {ss : Nat → σ} {i : Nat}, J w ss →
    J (M.abort i (ss i) w) (Function.update ss i M.fresh)

theorem System.sessions_update (sys : System Op σ ω ε α) (w : ω) (i : Nat)
    (t : Thread Op σ ε α) :
    System.sessions ⟨w, Function.update sys.threads i t⟩ =
      Function.update sys.sessions i t.session := by
  funext j
  rcases eq_or_ne j i with rfl | hj
  · simp [System.sessions]
  · simp [System.sessions, Function.update_of_ne hj]

/-- **The run rule**: a preserved property holds of every reachable system. -/
theorem Machine.Reaches.preserved {J : ω → (Nat → σ) → Prop} (hM : M.Implements D)
    (hJ : Preserved M D C J) {sys₀ sys : System Op σ ω ε α} (h₀ : sys₀.Disciplined D)
    (hJ₀ : J sys₀.world sys₀.sessions) (h : M.Reaches C sys₀ sys) :
    J sys.world sys.sessions := by
  induction h with
  | start => exact hJ₀
  | @step sys sys' i hr hs hc ih =>
    cases hs with
    | @op β o k b s' w' hp hst =>
      have hi := hr.disciplined hM h₀ i
      rw [hp] at hi
      rw [System.sessions_update]
      exact hJ.op hp hi.1 hst hc ih
    | crash hp =>
      rw [System.sessions_update]
      exact hJ.crash ih

/-- **The step rule**: every operation of a run is awaited under its precondition. -/
theorem Machine.Reaches.pre (hM : M.Implements D) {sys₀ sys : System Op σ ω ε α}
    (h₀ : sys₀.Disciplined D) (h : M.Reaches C sys₀ sys) {i : Nat} {β : Type} {o : Op β}
    {k : β → Prog Op ε α} (hp : (sys.threads i).prog = .op o k) :
    (D i).pre o (sys.sessions i) := by
  have hi := h.disciplined hM h₀ i
  rw [hp] at hi
  exact hi.1

end Rule

/-! ## One thread among many -/

/-- **The thread rule**: what the steps of thread `i` can do in the systems the run passes through
    is all its program has to be ready for. -/
theorem Machine.Reaches.obeys {M : Machine Op σ ω ε} {D : Discipline Op σ}
    {Q : Except ε α → σ → Prop} {C : System Op σ ω ε α → Nat → System Op σ ω ε α → Prop}
    {sys₀ sys : System Op σ ω ε α} {i : Nat}
    (heff : ∀ sys, M.Reaches C sys₀ sys → ∀ {β : Type} {o : Op β} {b : β} {s' : σ} {w' : ω},
      M.step i o (sys.sessions i) sys.world = some (b, s', w') → D.eff o (sys.sessions i) b s')
    (hcrash : Q (.error M.crashed) M.fresh)
    (h₀ : (sys₀.threads i).prog.Obeys D Q (sys₀.threads i).session)
    (h : M.Reaches C sys₀ sys) : (sys.threads i).prog.Obeys D Q (sys.threads i).session := by
  induction h with
  | start => exact h₀
  | @step sys sys' j hr hs _ ih =>
    rcases eq_or_ne i j with rfl | hne
    · cases hs with
      | op hp hst =>
        rw [hp] at ih
        simpa using ih.2 _ _ (heff _ hr hst)
      | crash hp => simpa [Prog.Obeys] using hcrash
    · cases hs with
      | op hp hst => simpa [Function.update_of_ne hne] using ih
      | crash hp => simpa [Function.update_of_ne hne] using ih

/-- **The log rule**: a thread that has returned did so in one of its program's logged runs. -/
theorem Machine.Reaches.ends {M : Machine Op σ ω ε} {D : Nat → Discipline Op σ}
    {C : System Op σ ω ε α → Nat → System Op σ ω ε α → Prop} {sys₀ sys : System Op σ ω ε α}
    (hM : M.Implements D) (h : M.Reaches C sys₀ sys) {i : Nat} {a : α}
    (hret : (sys.threads i).prog = .ret a) :
    ∃ log, Prog.Ends (D i) (sys₀.threads i).prog (sys₀.threads i).session log (.ok a)
      (sys.threads i).session := by
  -- what the thread still does is the rest of a run from its start, unless its process died
  suffices hrest : (sys.threads i).prog = .raise M.crashed ∨
      ∃ log, ∀ rest r s', Prog.Ends (D i) (sys.threads i).prog (sys.threads i).session rest r s' →
        Prog.Ends (D i) (sys₀.threads i).prog (sys₀.threads i).session (log ++ rest) r s' by
    rcases hrest with hcrashed | ⟨log, hlog⟩
    · rw [hret] at hcrashed
      cases hcrashed
    · refine ⟨log ++ [], hlog [] _ _ ?_⟩
      rw [hret]
      exact .ret
  clear hret
  induction h with
  | start => exact .inr ⟨[], fun rest r s' h => h⟩
  | @step sys sys' j _ hs _ ih =>
    rcases eq_or_ne i j with rfl | hne
    · cases hs with
      | @op β o k b s' w' hp hst =>
        rcases ih with hcrashed | ⟨log, hlog⟩
        · rw [hp] at hcrashed
          cases hcrashed
        · refine .inr ⟨log ++ [⟨o, b⟩], fun rest r s'' h => ?_⟩
          rw [List.append_assoc]
          refine hlog _ _ _ ?_
          rw [hp]
          refine .op (hM hst) ?_
          simpa using h
      | crash hp => exact .inl (by simp)
    · cases hs with
      | op hp hst => simpa [Function.update_of_ne hne] using ih
      | crash hp => simpa [Function.update_of_ne hne] using ih

/-- **The partial run rule**: a thread whose process has not died stands in a partial run of its
    program. -/
theorem Machine.Reaches.comes {M : Machine Op σ ω ε} {D : Nat → Discipline Op σ}
    {C : System Op σ ω ε α → Nat → System Op σ ω ε α → Prop} {sys₀ sys : System Op σ ω ε α}
    (hM : M.Implements D) (h : M.Reaches C sys₀ sys) (i : Nat) :
    (sys.threads i).prog = .raise M.crashed ∨
      Prog.Comes (D i) (sys₀.threads i).prog (sys₀.threads i).session (sys.threads i).prog
        (sys.threads i).session := by
  induction h with
  | start => exact .inr .here
  | @step sys sys' j _ hs _ ih =>
    rcases eq_or_ne i j with rfl | hne
    · cases hs with
      | op hp hst =>
        rcases ih with hcrashed | hcomes
        · rw [hp] at hcrashed
          cases hcrashed
        · rw [hp] at hcomes
          refine .inr ?_
          simpa using hcomes.next (hM hst)
      | crash hp => exact .inl (by simp)
    · cases hs with
      | op hp hst => simpa [Function.update_of_ne hne] using ih
      | crash hp => simpa [Function.update_of_ne hne] using ih

/-- Every system of a run lies between its start and its end. -/
theorem Machine.Reaches.between {M : Machine Op σ ω ε} {sys₀ sys : System Op σ ω ε α}
    (h : M.Reaches Machine.Any sys₀ sys) :
    M.Reaches (fun before _ after =>
      M.Reaches Machine.Any before sys ∧ M.Reaches Machine.Any after sys) sys₀ sys := by
  induction h with
  | start => exact .start
  | step h hs _ ih =>
    refine .step (ih.mono fun before _ after hb => ?_) hs ⟨.step .start hs trivial, .start⟩
    exact ⟨.step hb.1 hs trivial, .step hb.2 hs trivial⟩

/-! ## Budgets -/

/-- `made w i` counts the marked operations that thread `i` has performed. -/
structure Machine.Counts (M : Machine Op σ ω ε) (counts : {β : Type} → Op β → Bool)
    (made : ω → Nat → Nat) : Prop where
  step : ∀ {i : Nat} {β : Type} {o : Op β} {s : σ} {w : ω} {b : β} {s' : σ} {w' : ω},
    M.step i o s w = some (b, s', w') →
      ∀ j, made w' j = made w j + if j = i ∧ counts o = true then 1 else 0
  abort : ∀ i s w j, made (M.abort i s w) j = made w j

/-- **The budget rule**: what threads have performed and what they may still perform never exceed
    what their programs were allowed at the start. -/
theorem Machine.Reaches.atMost {M : Machine Op σ ω ε} {counts : {β : Type} → Op β → Bool}
    {made : ω → Nat → Nat} (hM : M.Counts counts made) {N : Nat}
    {C : System Op σ ω ε α → Nat → System Op σ ω ε α → Prop} {sys₀ sys : System Op σ ω ε α}
    (h₀ : ∀ i, made sys₀.world i = 0 ∧ (sys₀.threads i).prog.AtMost counts N)
    (h : M.Reaches C sys₀ sys) (i : Nat) : made sys.world i ≤ N := by
  suffices hbudget : ∀ i, ∃ n, made sys.world i + n ≤ N ∧ (sys.threads i).prog.AtMost counts n by
    obtain ⟨n, hn, -⟩ := hbudget i
    omega
  induction h with
  | start => exact fun i => ⟨N, by rw [(h₀ i).1]; omega, (h₀ i).2⟩
  | @step sys sys' i' _ hs _ ih =>
    intro j
    obtain ⟨n, hn, hprog⟩ := ih j
    cases hs with
    | @op β o k b s' w' hp hst =>
      have hmade := hM.step hst j
      rcases eq_or_ne j i' with rfl | hne
      · rw [hp] at hprog
        refine ⟨_, ?_, by simpa using hprog.2 b⟩
        show made w' j + _ ≤ N
        by_cases hc : counts o = true
        · have := hprog.1 hc
          simp only [hc, and_self, if_true] at hmade ⊢
          omega
        · simp only [hc, Bool.false_eq_true, and_false, if_false] at hmade ⊢
          omega
      · refine ⟨n, ?_, by simpa [Function.update_of_ne hne] using hprog⟩
        show made w' j + n ≤ N
        simp only [hne, false_and, if_false] at hmade
        omega
    | crash hp =>
      refine ⟨n, by rw [hM.abort]; exact hn, ?_⟩
      rcases eq_or_ne j i' with rfl | hne
      · simp [Prog.AtMost]
      · simpa [Function.update_of_ne hne] using hprog

end FavlGateway.Library
