/-
  Request programs: the free monad over a family of store operations, with exceptions.

  A request handler of a web service is straight-line code between its awaited store operations.
  `Prog Op ε α` keeps exactly that shape: a program is finished (`ret`), has raised (`raise`), or
  names the next operation together with what it does with the answer (`op`).  Keeping the
  operations visible lets ONE definition of a handler be read in two ways:

  * `run` performs the operations one after the other, on a store nobody else touches
    ("requests executed one at a time");
  * `Library.Interleave` lets any number of programs take turns, one operation at a time.

  `Obeys` is a Hoare logic for them whose assertions speak of the session alone.
-/
import Mathlib.Logic.Function.Basic

namespace FavlGateway.Library

/-- A program over the operations `Op`, raising exceptions of type `ε`, returning an `α`. -/
inductive Prog (Op : Type → Type) (ε : Type) (α : Type) : Type 1 where
  /-- The program has returned. -/
  | ret (a : α)
  /-- The program has raised. -/
  | raise (e : ε)
  /-- The program awaits `o` and goes on with its answer. -/
  | op {β : Type} (o : Op β) (k : β → Prog Op ε α)

/-- When an operation may be awaited, and what it can do to the session. -/
structure Discipline (Op : Type → Type) (σ : Type) where
  pre : {β : Type} → Op β → σ → Prop
  eff : {β : Type} → Op β → σ → β → σ → Prop

namespace Prog

variable {Op : Type → Type} {ε α β γ σ ω : Type}

/-! ## The monad -/

/-- Sequencing: an exception skips the rest. -/
def bind : Prog Op ε α → (α → Prog Op ε β) → Prog Op ε β
  | ret a, f => f a
  | raise e, _ => raise e
  | op o k, f => op o fun b => (k b).bind f

instance : Monad (Prog Op ε) where
  pure := ret
  bind := bind

/-- Perform one operation and return its answer. -/
def perform (o : Op α) : Prog Op ε α := op o ret

/-- What a pure computation returns or raises. -/
def ofExcept : Except ε α → Prog Op ε α
  | .ok a => ret a
  | .error e => raise e

/-- `try p except e: h e`. -/
def tryCatch : Prog Op ε α → (ε → Prog Op ε α) → Prog Op ε α
  | ret a, _ => ret a
  | raise e, h => h e
  | op o k, h => op o fun b => (k b).tryCatch h

/-- `try p finally o`: perform `o` however `p` ends. -/
def finallyDo (o : Op Unit) : Prog Op ε α → Prog Op ε α
  | ret a => op o fun _ => ret a
  | raise e => op o fun _ => raise e
  | op o' k => op o' fun b => (k b).finallyDo o

@[simp] theorem pure_eq (a : α) : (pure a : Prog Op ε α) = ret a := rfl

@[simp] theorem ret_bind (a : α) (f : α → Prog Op ε β) : (ret a >>= f) = f a := rfl

@[simp] theorem raise_bind (e : ε) (f : α → Prog Op ε β) :
    ((raise e : Prog Op ε α) >>= f) = raise e := rfl

@[simp] theorem op_bind {δ : Type} (o : Op δ) (k : δ → Prog Op ε α) (f : α → Prog Op ε β) :
    (op o k >>= f) = op o fun b => k b >>= f := rfl

@[simp] theorem perform_bind (o : Op α) (f : α → Prog Op ε β) :
    (perform o >>= f) = op o f := rfl

@[simp] theorem tryCatch_ret (a : α) (h : ε → Prog Op ε α) : (ret a).tryCatch h = ret a := rfl

@[simp] theorem tryCatch_raise (e : ε) (h : ε → Prog Op ε α) :
    (raise e).tryCatch h = h e := rfl

@[simp] theorem tryCatch_op {δ : Type} (o : Op δ) (k : δ → Prog Op ε α)
    (h : ε → Prog Op ε α) : (op o k).tryCatch h = op o fun b => (k b).tryCatch h := rfl

@[simp] theorem bind_assoc' (p : Prog Op ε α) (f : α → Prog Op ε β) (g : β → Prog Op ε γ) :
    (p >>= f >>= g) = (p >>= fun a => f a >>= g) := by
  induction p with
  | ret a => rfl
  | raise e => rfl
  | op o k ih =>
    show op o (fun b => (k b >>= f >>= g)) = op o fun b => (k b >>= fun a => f a >>= g)
    congr 1
    funext b
    exact ih b

/-- What the program has returned. -/
def returned : Prog Op ε α → Option α
  | ret a => some a
  | _ => none

theorem eq_ret_of_returned {p : Prog Op ε α} {a : α} (h : p.returned = some a) : p = ret a := by
  cases p with
  | ret b => rw [Option.some.inj h]
  | raise e => cases h
  | op o k => cases h

/-! ## Running a program alone -/

section Run

variable (act : {β : Type} → Op β → σ → ω → β × σ × ω)

/-- Perform every operation in turn on a session `σ` and a store `ω` nobody else touches. -/
def run : Prog Op ε α → σ → ω → Except ε α × σ × ω
  | ret a, s, w => (.ok a, s, w)
  | raise e, s, w => (.error e, s, w)
  | op o k, s, w => run (k (act o s w).1) (act o s w).2.1 (act o s w).2.2

@[simp] theorem run_ret (a : α) (s : σ) (w : ω) :
    run act (ret a : Prog Op ε α) s w = (.ok a, s, w) := rfl

@[simp] theorem run_raise (e : ε) (s : σ) (w : ω) :
    run act (raise e : Prog Op ε α) s w = (.error e, s, w) := rfl

@[simp] theorem run_op {δ : Type} (o : Op δ) (k : δ → Prog Op ε α) (s : σ) (w : ω) :
    run act (op o k) s w = run act (k (act o s w).1) (act o s w).2.1 (act o s w).2.2 := rfl

/-- A sequence runs its first part, then the rest from the state that part left. -/
theorem run_bind (p : Prog Op ε α) (f : α → Prog Op ε β) (s : σ) (w : ω) :
    run act (p >>= f) s w =
      match run act p s w with
      | (.ok a, s', w') => run act (f a) s' w'
      | (.error e, s', w') => (.error e, s', w') := by
  induction p generalizing s w with
  | ret a => rfl
  | raise e => rfl
  | op o k ih =>
    show run act (k (act o s w).1 >>= f) (act o s w).2.1 (act o s w).2.2 = _
    rw [ih]
    rfl

/-- A handled program runs the handler from the state its exception left. -/
theorem run_tryCatch (p : Prog Op ε α) (h : ε → Prog Op ε α) (s : σ) (w : ω) :
    run act (p.tryCatch h) s w =
      match run act p s w with
      | (.ok a, s', w') => (.ok a, s', w')
      | (.error e, s', w') => run act (h e) s' w' := by
  induction p generalizing s w with
  | ret a => rfl
  | raise e => rfl
  | op o k ih => exact ih _ _ _

/-- The store before and after every operation of the run. -/
def trail : Prog Op ε α → σ → ω → List (ω × ω)
  | ret _, _, _ => []
  | raise _, _, _ => []
  | op o k, s, w =>
    (w, (act o s w).2.2) :: trail (k (act o s w).1) (act o s w).2.1 (act o s w).2.2

/-- Every operation of the run passes a check of the session before, the answer and the session
    after. -/
def checked (check : {β : Type} → Op β → σ → β → σ → Bool) : Prog Op ε α → σ → ω → Bool
  | ret _, _, _ => true
  | raise _, _, _ => true
  | op o k, s, w =>
    check o s (act o s w).1 (act o s w).2.1 &&
      checked check (k (act o s w).1) (act o s w).2.1 (act o s w).2.2

/-- What every operation of the run keeps, the run keeps. -/
theorem run_of_trail {P : ω → Prop} {p : Prog Op ε α} {s : σ} {w : ω} (hw : P w)
    (h : ∀ x ∈ trail act p s w, P x.1 → P x.2) : P (run act p s w).2.2 := by
  induction p generalizing s w with
  | ret a => exact hw
  | raise e => exact hw
  | op o k ih =>
    refine ih _ (h _ (List.mem_cons_self ..) hw) fun x hx => h x ?_
    exact List.mem_cons_of_mem _ hx

end Run

/-! ## Disciplined programs

  A `Discipline` speaks of sessions only: `pre` is what must hold of the session when an operation
  is awaited, `eff` what an operation can answer and make of the session, whatever the store.
  `Obeys` is the weakest precondition it gives; since it never mentions the store, one proof that a
  handler obeys its discipline serves every theorem about runs, alone or interleaved. -/

/-- Every operation the program awaits meets `pre`, and its outcome satisfies `Q`, whatever the
    operations answer within `eff`. -/
def Obeys (D : Discipline Op σ) (Q : Except ε α → σ → Prop) : Prog Op ε α → σ → Prop
  | ret a, s => Q (.ok a) s
  | raise e, s => Q (.error e) s
  | op o k, s => D.pre o s ∧ ∀ b s', D.eff o s b s' → (k b).Obeys D Q s'

namespace Obeys

variable {D : Discipline Op σ}

theorem mono {Q Q' : Except ε α → σ → Prop} (hQ : ∀ r s, Q r s → Q' r s) {p : Prog Op ε α}
    {s : σ} (h : p.Obeys D Q s) : p.Obeys D Q' s := by
  induction p generalizing s with
  | ret a => exact hQ _ _ h
  | raise e => exact hQ _ _ h
  | op o k ih => exact ⟨h.1, fun b s' he => ih b (h.2 b s' he)⟩

/-- The sequencing rule. -/
theorem bind {Q : Except ε β → σ → Prop} {p : Prog Op ε α} {f : α → Prog Op ε β} {s : σ}
    (h : p.Obeys D (fun r s => match r with
      | .ok a => (f a).Obeys D Q s
      | .error e => Q (.error e) s) s) :
    (p >>= f).Obeys D Q s := by
  induction p generalizing s with
  | ret a => exact h
  | raise e => exact h
  | op o k ih => exact ⟨h.1, fun b s' he => ih b (h.2 b s' he)⟩

theorem ofExcept {Q : Except ε α → σ → Prop} {r : Except ε α} {s : σ} (h : Q r s) :
    (Prog.ofExcept r : Prog Op ε α).Obeys D Q s := by
  cases r with
  | ok a => exact h
  | error e => exact h

/-- The exception-handling rule. -/
theorem tryCatch {Q : Except ε α → σ → Prop} {p : Prog Op ε α} {h : ε → Prog Op ε α} {s : σ}
    (hp : p.Obeys D (fun r s => match r with
      | .ok a => Q (.ok a) s
      | .error e => (h e).Obeys D Q s) s) :
    (p.tryCatch h).Obeys D Q s := by
  induction p generalizing s with
  | ret a => exact hp
  | raise e => exact hp
  | op o k ih => exact ⟨hp.1, fun b s' he => ih b (hp.2 b s' he)⟩

/-- The rule for a final operation. -/
theorem finallyDo {Q : Except ε α → σ → Prop} {p : Prog Op ε α} {o : Op Unit} {s : σ}
    (hp : p.Obeys D (fun r s => D.pre o s ∧ ∀ s', D.eff o s () s' → Q r s') s) :
    (p.finallyDo o).Obeys D Q s := by
  induction p generalizing s with
  | ret a => exact ⟨hp.1, fun _ s' he => hp.2 s' he⟩
  | raise e => exact ⟨hp.1, fun _ s' he => hp.2 s' he⟩
  | op o' k ih => exact ⟨hp.1, fun b s' he => ih b (hp.2 b s' he)⟩

section Run

variable (act : {β : Type} → Op β → σ → ω → β × σ × ω)

/-- **The solo run rule**: what every disciplined operation preserves, the run preserves. -/
theorem run (heff : ∀ {β : Type} (o : Op β) s w, D.eff o s (act o s w).1 (act o s w).2.1)
    {J : σ → ω → Prop}
    (hJ : ∀ {β : Type} (o : Op β) s w, D.pre o s → J s w → J (act o s w).2.1 (act o s w).2.2)
    {Q : Except ε α → σ → Prop} {p : Prog Op ε α} {s : σ} {w : ω} (h : p.Obeys D Q s)
    (hs : J s w) :
    Q (Prog.run act p s w).1 (Prog.run act p s w).2.1 ∧
      J (Prog.run act p s w).2.1 (Prog.run act p s w).2.2 := by
  induction p generalizing s w with
  | ret a => exact ⟨h, hs⟩
  | raise e => exact ⟨h, hs⟩
  | op o k ih => exact ih _ (h.2 _ _ (heff o s w)) (hJ o s w h.1 hs)

/-- Every step of a solo run is an operation awaited under its precondition, in a state with the
    preserved property. -/
theorem trail (heff : ∀ {β : Type} (o : Op β) s w, D.eff o s (act o s w).1 (act o s w).2.1)
    {J : σ → ω → Prop}
    (hJ : ∀ {β : Type} (o : Op β) s w, D.pre o s → J s w → J (act o s w).2.1 (act o s w).2.2)
    {Q : Except ε α → σ → Prop} {p : Prog Op ε α} {s : σ} {w : ω} (h : p.Obeys D Q s)
    (hs : J s w) {x : ω × ω} (hx : x ∈ Prog.trail act p s w) :
    ∃ (β : Type) (o : Op β) (s' : σ), D.pre o s' ∧ J s' x.1 ∧ x.2 = (act o s' x.1).2.2 := by
  induction p generalizing s w with
  | ret a => simp [Prog.trail] at hx
  | raise e => simp [Prog.trail] at hx
  | op o k ih =>
    rcases List.mem_cons.mp hx with rfl | hx
    · exact ⟨_, o, s, h.1, hs, rfl⟩
    · exact ih _ (h.2 _ _ (heff o s w)) (hJ o s w h.1 hs) hx

end Run
end Obeys

/-! ## Counting operations

  `AtMost counts p n`: whatever the answers, `p` awaits no more than `n` of the operations that
  `counts` marks. -/

def AtMost (counts : {β : Type} → Op β → Bool) : Prog Op ε α → Nat → Prop
  | ret _, _ => True
  | raise _, _ => True
  | op o k, n =>
    (counts o = true → 0 < n) ∧ ∀ b, (k b).AtMost counts (if counts o then n - 1 else n)

namespace AtMost

variable {counts : {β : Type} → Op β → Bool} {n m : Nat}

theorem mono (hnm : n ≤ m) {p : Prog Op ε α} (h : p.AtMost counts n) : p.AtMost counts m := by
  induction p generalizing n m with
  | ret a => trivial
  | raise e => trivial
  | op o k ih =>
    refine ⟨fun hc => Nat.lt_of_lt_of_le (h.1 hc) hnm, fun b => ih b ?_ (h.2 b)⟩
    split <;> omega

theorem ret (a : α) : (Prog.ret a : Prog Op ε α).AtMost counts n := trivial

theorem raise (e : ε) : (Prog.raise e : Prog Op ε α).AtMost counts n := trivial

/-- The budget of a sequence is the sum of its parts'. -/
theorem bind {p : Prog Op ε α} {f : α → Prog Op ε β} (hp : p.AtMost counts n)
    (hf : ∀ a, (f a).AtMost counts m) : (p >>= f).AtMost counts (n + m) := by
  induction p generalizing n with
  | ret a => exact (hf a).mono (Nat.le_add_left m n)
  | raise e => trivial
  | op o k ih =>
    refine ⟨fun hc => Nat.lt_of_lt_of_le (hp.1 hc) (Nat.le_add_right n m), fun b => ?_⟩
    refine (ih b (hp.2 b)).mono ?_
    by_cases hc : counts o = true
    · have := hp.1 hc
      simp only [hc, if_true]
      omega
    · simp [hc]

theorem ofExcept (r : Except ε α) : (Prog.ofExcept r : Prog Op ε α).AtMost counts n := by
  cases r with
  | ok a => trivial
  | error e => trivial

theorem tryCatch {p : Prog Op ε α} {h : ε → Prog Op ε α} (hp : p.AtMost counts n)
    (hh : ∀ e, (h e).AtMost counts m) : (p.tryCatch h).AtMost counts (n + m) := by
  induction p generalizing n with
  | ret a => trivial
  | raise e => exact (hh e).mono (Nat.le_add_left m n)
  | op o k ih =>
    refine ⟨fun hc => Nat.lt_of_lt_of_le (hp.1 hc) (Nat.le_add_right n m), fun b => ?_⟩
    refine (ih b (hp.2 b)).mono ?_
    by_cases hc : counts o = true
    · have := hp.1 hc
      simp only [hc, if_true]
      omega
    · simp [hc]

theorem finallyDo {o : Op Unit} (ho : counts o = false) {p : Prog Op ε α}
    (hp : p.AtMost counts n) : (p.finallyDo o).AtMost counts n := by
  induction p generalizing n with
  | ret a => exact ⟨fun h => by simp [ho] at h, fun _ => trivial⟩
  | raise e => exact ⟨fun h => by simp [ho] at h, fun _ => trivial⟩
  | op o' k ih => exact ⟨hp.1, fun b => ih b (hp.2 b)⟩

end AtMost

/-! ## Logged runs

  `Ends D p s log r s'`: from session `s` the program can end with `r`, in session `s'`, when its
  operations are answered as in `log`; every answer is one that `D.eff` allows at that point, whatever
  the store has become in between. -/

/-- An operation and its answer. -/
structure Answered (Op : Type → Type) : Type 1 where
  {β : Type}
  op : Op β
  answer : β

inductive Ends (D : Discipline Op σ) :
    Prog Op ε α → σ → List (Answered Op) → Except ε α → σ → Prop where
  | ret {a : α} {s : σ} : Ends D (ret a) s [] (.ok a) s
  | raise {e : ε} {s : σ} : Ends D (raise e) s [] (.error e) s
  | op {β : Type} {o : Op β} {k : β → Prog Op ε α} {b : β} {s s₁ s' : σ}
      {log : List (Answered Op)} {r : Except ε α} (heff : D.eff o s b s₁)
      (h : Ends D (k b) s₁ log r s') : Ends D (op o k) s (⟨o, b⟩ :: log) r s'

namespace Ends

variable {D : Discipline Op σ} {s s' : σ} {log : List (Answered Op)}

theorem of_ret {a : α} {r : Except ε α} (h : Ends D (.ret a) s log r s') :
    log = [] ∧ r = .ok a ∧ s' = s := by
  cases h
  exact ⟨rfl, rfl, rfl⟩

theorem of_raise {e : ε} {r : Except ε α} (h : Ends D (.raise e) s log r s') :
    log = [] ∧ r = .error e ∧ s' = s := by
  cases h
  exact ⟨rfl, rfl, rfl⟩

theorem of_op {δ : Type} {o : Op δ} {k : δ → Prog Op ε α} {r : Except ε α}
    (h : Ends D (.op o k) s log r s') :
    ∃ b s₁ rest, D.eff o s b s₁ ∧ log = ⟨o, b⟩ :: rest ∧ Ends D (k b) s₁ rest r s' := by
  cases h with
  | op heff h => exact ⟨_, _, _, heff, rfl, h⟩

/-- The same, for an operation that is performed and gone on with. -/
theorem of_perform {δ : Type} {o : Op δ} {f : δ → Prog Op ε α} {r : Except ε α}
    (h : Ends D (perform o >>= f) s log r s') :
    ∃ b s₁ rest, D.eff o s b s₁ ∧ log = ⟨o, b⟩ :: rest ∧ Ends D (f b) s₁ rest r s' :=
  of_op h

/-- A run of a sequence is a run of its first part, and of the rest unless that raised. -/
theorem of_bind {p : Prog Op ε α} {f : α → Prog Op ε β} {r : Except ε β}
    (h : Ends D (p >>= f) s log r s') :
    (∃ a s₁ l₁ l₂, Ends D p s l₁ (.ok a) s₁ ∧ Ends D (f a) s₁ l₂ r s' ∧ log = l₁ ++ l₂) ∨
      ∃ e, Ends D p s log (.error e) s' ∧ r = .error e := by
  induction p generalizing s log with
  | ret a => exact .inl ⟨a, s, [], log, .ret, h, rfl⟩
  | raise e =>
    obtain ⟨rfl, rfl, rfl⟩ := of_raise h
    exact .inr ⟨e, .raise, rfl⟩
  | op o k ih =>
    obtain ⟨b, s₁, rest, heff, rfl, hrest⟩ := of_op h
    rcases ih b hrest with ⟨a, s₂, l₁, l₂, h₁, h₂, rfl⟩ | ⟨e, he, rfl⟩
    · exact .inl ⟨a, s₂, _, l₂, .op heff h₁, h₂, rfl⟩
    · exact .inr ⟨e, .op heff he, rfl⟩

/-- A run of a handled program is a run of it, followed by one of the handler if it raised. -/
theorem of_tryCatch {p : Prog Op ε α} {f : ε → Prog Op ε α} {r : Except ε α}
    (h : Ends D (p.tryCatch f) s log r s') :
    (∃ a, Ends D p s log (.ok a) s' ∧ r = .ok a) ∨
      ∃ e s₁ l₁ l₂, Ends D p s l₁ (.error e) s₁ ∧ Ends D (f e) s₁ l₂ r s' ∧ log = l₁ ++ l₂ := by
  induction p generalizing s log with
  | ret a =>
    obtain ⟨rfl, rfl, rfl⟩ := of_ret h
    exact .inl ⟨a, .ret, rfl⟩
  | raise e => exact .inr ⟨e, s, [], log, .raise, h, rfl⟩
  | op o k ih =>
    obtain ⟨b, s₁, rest, heff, rfl, hrest⟩ := of_op h
    rcases ih b hrest with ⟨a, ha, rfl⟩ | ⟨e, s₂, l₁, l₂, h₁, h₂, rfl⟩
    · exact .inl ⟨a, .op heff ha, rfl⟩
    · exact .inr ⟨e, s₂, _, l₂, .op heff h₁, h₂, rfl⟩

/-- A run with a final operation is a run without it, and that operation. -/
theorem of_finallyDo {o : Op Unit} {p : Prog Op ε α} {r : Except ε α}
    (h : Ends D (p.finallyDo o) s log r s') :
    ∃ s₁ l₁, Ends D p s l₁ r s₁ ∧ D.eff o s₁ () s' ∧ log = l₁ ++ [⟨o, ()⟩] := by
  induction p generalizing s log with
  | ret a =>
    obtain ⟨b, s₁, rest, heff, rfl, hrest⟩ := of_op h
    obtain ⟨rfl, rfl, rfl⟩ := of_ret hrest
    exact ⟨s, [], .ret, heff, rfl⟩
  | raise e =>
    obtain ⟨b, s₁, rest, heff, rfl, hrest⟩ := of_op h
    obtain ⟨rfl, rfl, rfl⟩ := of_raise hrest
    exact ⟨s, [], .raise, heff, rfl⟩
  | op o' k ih =>
    obtain ⟨b, s₁, rest, heff, rfl, hrest⟩ := of_op h
    obtain ⟨s₂, l₁, hp, heff', rfl⟩ := ih b hrest
    exact ⟨s₂, _, .op heff hp, heff', rfl⟩

end Ends

/-! ## Runs that have come this far

  `Comes D p s q s'`: from session `s` the program `p` can come to `q`, in session `s'`, by
  operations that answer as `D.eff` allows. -/

inductive Comes (D : Discipline Op σ) : Prog Op ε α → σ → Prog Op ε α → σ → Prop where
  | here {p : Prog Op ε α} {s : σ} : Comes D p s p s
  | op {β : Type} {o : Op β} {k : β → Prog Op ε α} {b : β} {s s₁ s' : σ} {q : Prog Op ε α}
      (heff : D.eff o s b s₁) (h : Comes D (k b) s₁ q s') : Comes D (op o k) s q s'

namespace Comes

variable {D : Discipline Op σ} {p q : Prog Op ε α} {s s' : σ}

/-- **The partial run rule**: what every operation awaits in a disciplined program, and every outcome
    ends in, holds wherever the program has come to. -/
theorem always {P : σ → Prop} (h : Comes D p s q s')
    (hp : p.Obeys ⟨fun _ s => P s, D.eff⟩ (fun _ s => P s) s) : P s' := by
  induction h with
  | @here p s =>
    cases p with
    | ret a => exact hp
    | raise e => exact hp
    | op o k => exact hp.1
  | op heff _ ih => exact ih (hp.2 _ _ heff)

/-- A checked run comes to its end. -/
theorem of_checked {ω : Type} (act : {β : Type} → Op β → σ → ω → β × σ × ω)
    (check : {β : Type} → Op β → σ → β → σ → Bool)
    (hcheck : ∀ {β : Type} (o : Op β) s b s', check o s b s' = true →
      (∃ w w', act o s w = (b, s', w')) → D.eff o s b s')
    (p : Prog Op ε α) (s : σ) (w : ω) (h : p.checked act check s w = true) :
    Comes D p s (.ofExcept (run act p s w).1) (run act p s w).2.1 := by
  induction p generalizing s w with
  | ret a => exact .here
  | raise e => exact .here
  | op o k ih =>
    simp only [checked, Bool.and_eq_true] at h
    exact .op (hcheck o s _ _ h.1 ⟨w, _, rfl⟩) (ih _ _ _ h.2)

/-- One operation further. -/
theorem next {β : Type} {o : Op β} {k : β → Prog Op ε α} {b : β} {s₁ : σ}
    (h : Comes D p s (.op o k) s') (heff : D.eff o s' b s₁) : Comes D p s (k b) s₁ := by
  generalize hq : (Prog.op o k : Prog Op ε α) = q at h
  induction h with
  | here =>
    subst hq
    exact .op heff .here
  | op heff' _ ih => exact .op heff' (ih heff hq)

/-- What a program obeys, what it comes to obeys. -/
theorem obeys {Q : Except ε α → σ → Prop} (h : Comes D p s q s') (hp : p.Obeys D Q s) :
    q.Obeys D Q s' := by
  induction h with
  | here => exact hp
  | op heff _ ih => exact ih (hp.2 _ _ heff)

/-- The operations a program may perform none of are not among those it comes to. -/
theorem unmarked (marks : {β : Type} → Op β → Bool) {β : Type} {o : Op β} {k : β → Prog Op ε α}
    (h : Comes D p s (.op o k) s') (hp : p.AtMost marks 0) : marks o = false := by
  generalize hq : (Prog.op o k : Prog Op ε α) = q at h
  induction h with
  | here =>
    subst hq
    exact Bool.eq_false_iff.mpr fun hm => absurd (hp.1 hm) (Nat.lt_irrefl 0)
  | @op γ o' k' b s s₁ s' q heff h ih =>
    have hrest := hp.2 b
    by_cases hm : marks o' = true
    · exact absurd (hp.1 hm) (Nat.lt_irrefl 0)
    · rw [if_neg hm] at hrest
      exact ih hrest hq

variable {γ : Type} {o : Op γ}

/-- A program comes to its first operation, or past it. -/
theorem of_op {δ : Type} {o' : Op δ} {k' : δ → Prog Op ε α} (h : Comes D (.op o' k') s q s') :
    q = .op o' k' ∧ s' = s ∨ ∃ b s₁, D.eff o' s b s₁ ∧ Comes D (k' b) s₁ q s' := by
  cases h with
  | here => exact .inl ⟨rfl, rfl⟩
  | op heff h => exact .inr ⟨_, _, heff, h⟩

/-- The same, for an operation that is performed and gone on with. -/
theorem of_perform {δ : Type} {o' : Op δ} {f : δ → Prog Op ε α}
    (h : Comes D (perform o' >>= f) s q s') :
    q = .op o' f ∧ s' = s ∨ ∃ b s₁, D.eff o' s b s₁ ∧ Comes D (f b) s₁ q s' :=
  of_op h

/-- To a marked operation it comes past one that is not. -/
theorem past (marks : {β : Type} → Op β → Bool) {δ : Type} {o' : Op δ} {f : δ → Prog Op ε α}
    {k : γ → Prog Op ε α} (h : Comes D (perform o' >>= f) s (.op o k) s')
    (ho' : marks o' = false) (ho : marks o = true) :
    ∃ b s₁, D.eff o' s b s₁ ∧ Comes D (f b) s₁ (.op o k) s' := by
  rcases of_perform h with ⟨heq, -⟩ | hrest
  · cases heq
    rw [ho'] at ho
    cases ho
  · exact hrest

theorem of_ret {a : α} (h : Comes D (.ret a) s q s') : q = .ret a ∧ s' = s := by
  cases h
  exact ⟨rfl, rfl⟩

theorem of_raise {e : ε} (h : Comes D (.raise e) s q s') : q = .raise e ∧ s' = s := by
  cases h
  exact ⟨rfl, rfl⟩

/-- A sequence comes to an operation of its first part, or of the rest. -/
theorem of_bind {f : α → Prog Op ε β} {k : γ → Prog Op ε β}
    (h : Comes D (p >>= f) s (.op o k) s') :
    (∃ k', Comes D p s (.op o k') s' ∧ k = fun b => k' b >>= f) ∨
      ∃ a s₁, Comes D p s (.ret a) s₁ ∧ Comes D (f a) s₁ (.op o k) s' := by
  induction p generalizing s with
  | ret a => exact .inr ⟨a, s, .here, h⟩
  | raise e => cases h
  | op o' k' ih =>
    rcases of_op h with ⟨heq, rfl⟩ | ⟨b, s₁, heff, h⟩
    · cases heq
      exact .inl ⟨k', .here, rfl⟩
    · rcases ih b h with ⟨k₁, h₁, rfl⟩ | ⟨a, s₂, h₁, h₂⟩
      · exact .inl ⟨k₁, .op heff h₁, rfl⟩
      · exact .inr ⟨a, s₂, .op heff h₁, h₂⟩

/-- A handled program comes to an operation of its own, or of the handler. -/
theorem of_tryCatch {f : ε → Prog Op ε α} {k : γ → Prog Op ε α}
    (h : Comes D (p.tryCatch f) s (.op o k) s') :
    (∃ k', Comes D p s (.op o k') s' ∧ k = fun b => (k' b).tryCatch f) ∨
      ∃ e s₁, Comes D p s (.raise e) s₁ ∧ Comes D (f e) s₁ (.op o k) s' := by
  induction p generalizing s with
  | ret a => cases h
  | raise e => exact .inr ⟨e, s, .here, h⟩
  | op o' k' ih =>
    rcases of_op h with ⟨heq, rfl⟩ | ⟨b, s₁, heff, h⟩
    · cases heq
      exact .inl ⟨k', .here, rfl⟩
    · rcases ih b h with ⟨k₁, h₁, rfl⟩ | ⟨e, s₂, h₁, h₂⟩
      · exact .inl ⟨k₁, .op heff h₁, rfl⟩
      · exact .inr ⟨e, s₂, .op heff h₁, h₂⟩

/-- A program with a final operation that is not marked comes to a marked one of its own. -/
theorem of_finallyDo (marks : {β : Type} → Op β → Bool) {last : Op Unit} {k : γ → Prog Op ε α}
    (h : Comes D (p.finallyDo last) s (.op o k) s') (hlast : marks last = false)
    (ho : marks o = true) :
    ∃ k', Comes D p s (.op o k') s' ∧ k = fun b => (k' b).finallyDo last := by
  induction p generalizing s with
  | ret a =>
    rcases of_op h with ⟨heq, rfl⟩ | ⟨b, s₁, -, h⟩
    · cases heq
      rw [hlast] at ho
      cases ho
    · cases h
  | raise e =>
    rcases of_op h with ⟨heq, rfl⟩ | ⟨b, s₁, -, h⟩
    · cases heq
      rw [hlast] at ho
      cases ho
    · cases h
  | op o' k' ih =>
    rcases of_op h with ⟨heq, rfl⟩ | ⟨b, s₁, heff, h⟩
    · cases heq
      exact ⟨k', .here, rfl⟩
    · obtain ⟨k₁, h₁, rfl⟩ := ih b h
      exact ⟨k₁, .op heff h₁, rfl⟩

end Comes

/-! ## Partial runs

  `Leads p log q`: with its operations answered as in `log`, the program `p` has come to `q`.  An
  observer `watch` follows the log; a discipline for what it sees (`Discipline.observing`) says what
  must have happened before each operation. -/

inductive Leads : Prog Op ε α → List (Answered Op) → Prog Op ε α → Prop where
  | here {p : Prog Op ε α} : Leads p [] p
  | op {β : Type} {o : Op β} {k : β → Prog Op ε α} {b : β} {log : List (Answered Op)}
      {q : Prog Op ε α} (h : Leads (k b) log q) : Leads (op o k) (⟨o, b⟩ :: log) q

end Prog

/-- The sessions are what the observer has seen. -/
def Discipline.observing {Op : Type → Type} {σ : Type} (watch : σ → Prog.Answered Op → σ)
    (pre : {β : Type} → Op β → σ → Prop) : Discipline Op σ where
  pre := pre
  eff o s b s' := s' = watch s ⟨o, b⟩

namespace Prog.Leads

variable {Op : Type → Type} {ε α β σ : Type}

/-- A run of the first part to its end, and one of the rest. -/
theorem bind {p : Prog Op ε α} {f : α → Prog Op ε β} {q : Prog Op ε β} {a : α}
    {log log' : List (Answered Op)} (h : Leads p log (ret a)) (h' : Leads (f a) log' q) :
    Leads (p >>= f) (log ++ log') q := by
  induction log generalizing p with
  | nil =>
    cases h
    exact h'
  | cons x log ih =>
    cases h with
    | op h => exact .op (ih h)

/-- Every operation of a partial run was awaited after what its precondition asks for. -/
theorem obeys {watch : σ → Answered Op → σ} {pre : {β : Type} → Op β → σ → Prop}
    {Q : Except ε α → σ → Prop} {p q : Prog Op ε α} {log : List (Answered Op)} {s : σ}
    (h : Leads p log q) (hp : p.Obeys (.observing watch pre) Q s) {before after : List (Answered Op)}
    {x : Answered Op} (hlog : log = before ++ x :: after) : pre x.op (before.foldl watch s) := by
  induction h generalizing s before with
  | here =>
    have hlength := congrArg List.length hlog
    simp at hlength
  | op h ih =>
    cases before with
    | nil =>
      obtain ⟨rfl, -⟩ := List.cons.inj hlog
      exact hp.1
    | cons y before =>
      obtain ⟨rfl, hrest⟩ := List.cons.inj hlog
      exact ih (hp.2 _ _ rfl) hrest

/-- A run to the end ends in what every run of a disciplined program ends in. -/
theorem ends {watch : σ → Answered Op → σ} {pre : {β : Type} → Op β → σ → Prop}
    {Q : Except ε α → σ → Prop} {p : Prog Op ε α} {log : List (Answered Op)} {a : α} {s : σ}
    (h : Leads p log (ret a)) (hp : p.Obeys (.observing watch pre) Q s) :
    Q (.ok a) (log.foldl watch s) := by
  induction log generalizing p s with
  | nil =>
    cases h
    exact hp
  | cons x log ih =>
    cases h with
    | op h => exact ih h (hp.2 _ _ rfl)

/-- A partial run performs no more of the marked operations than the program may. -/
theorem countP_le {counts : {β : Type} → Op β → Bool} {n : Nat} {p q : Prog Op ε α}
    {log : List (Answered Op)} (h : Leads p log q) (hp : p.AtMost counts n) :
    log.countP (fun x => counts x.op) ≤ n := by
  induction h generalizing n with
  | here => exact Nat.zero_le n
  | @op β o k b log q h ih =>
    have hrest := ih (hp.2 b)
    rw [List.countP_cons]
    show _ + (if counts o = true then 1 else 0) ≤ n
    by_cases hc : counts o = true
    · have hpos := hp.1 hc
      rw [if_pos hc] at hrest ⊢
      omega
    · rw [if_neg hc] at hrest ⊢
      omega

end Prog.Leads
end FavlGateway.Library
