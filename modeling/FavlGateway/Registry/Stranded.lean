/-
  Which invocations never end.

  A request follows its own invocation: nobody else writes the row it has inserted or calls an
  adapter in its name (`Own`).  With what the database asks of the last write (`FinalCommit`) its
  program says how the row ends up: finished, unless the adapter was called and what became of the
  call cannot be stored.  Then the last commit is refused, the client is told 500, and the row stays
  `running` for good: nobody else would ever finish it, and every replay of its key is told that it
  is in flight.
-/
import FavlGateway.Library.Ghost
import FavlGateway.Registry.FinalCommit

namespace FavlGateway.Registry

open FavlGateway.Library

/-! ## A request and its own invocation -/

/-- The row a request has inserted, and the calls it has made. -/
@[ext]
structure Own where
  row : Option InvocationRecord
  calls : List AdapterCall

namespace Own

/-- Before the row is inserted. -/
def unborn : Own := ⟨none, []⟩

def write (x : Own) (r : InvocationRecord) : Own := ⟨some r, x.calls⟩

def call (x : Own) (c : AdapterCall) : Own := ⟨x.row, x.calls ++ [c]⟩

end Own

/-- What the store shows of the invocation `v` of request `i`. -/
def ownOf (i : Nat) (v : Uuid) (st : Store) : Own where
  row := if (i, v) ∈ st.inserts then st.db.invocation v else none
  calls := (st.calls.filter fun x => x.1 = i).map Prod.snd

/-- What an operation of request `i` answers, and what it makes of the session and of the request's
    own invocation. -/
def OwnEffect (i : Nat) (v : Uuid) {β : Type} (o : RegistryOp β) (s : Session) (x : Own) (b : β)
    (s' : Session) (x' : Own) : Prop :=
  ∃ st, OwnRows i s st ∧ ownOf i v st = x ∧ (perform i o s st).1 = b ∧
    (perform i o s st).2.1 = s' ∧ ownOf i v (perform i o s st).2.2 = x'

/-- A request with its own invocation. -/
def owning (i : Nat) (v : Uuid) : Discipline RegistryOp (Session × Own) where
  pre _ _ := True
  eff o p b p' := OwnEffect i v o p.1 p.2 b p'.1 p'.2

section Effects

variable {i : Nat} {v : Uuid} {β : Type} {o : RegistryOp β} {s s' : Session} {x x' : Own}

theorem OwnEffect.effect {b : β} (h : OwnEffect i v o s x b s' x') : Effect o s b s' := by
  obtain ⟨st, -, -, hb, hs', -⟩ := h
  exact ⟨i, st, hb, hs'⟩

/-- Only commits and calls have to do with it. -/
theorem OwnEffect.quiet {b : β} (hcommit : o.isCommit = false) (hcall : o.isCall = false)
    (h : OwnEffect i v o s x b s' x') : x' = x := by
  obtain ⟨st, -, hx, -, -, hx'⟩ := h
  rw [perform_store hcommit hcall] at hx'
  exact hx'.symm.trans hx

theorem OwnEffect.call {c : AdapterCall} {b : Unit}
    (h : OwnEffect i v (.callAdapter c) s x b s' x') : s' = s ∧ x' = x.call c := by
  obtain ⟨st, -, rfl, -, rfl, rfl⟩ := h
  refine ⟨rfl, Own.ext rfl ?_⟩
  simp [ownOf, perform, Own.call]

/-- The commit of the new row. -/
theorem OwnEffect.accept {base : Session} {record : InvocationRecord} {e : OutboxEvent}
    {b : Except DbError Unit} (clean : base.Clean)
    (h : OwnEffect i record.id .commit (base.accepting record e) x b s' x') :
    b = .ok () ∧ s' = (base.accepting record e).committed ∧ x' = x.write record ∨
      (∃ refusal, b = .error refusal) ∧ x' = x := by
  obtain ⟨st, -, rfl, rfl, rfl, rfl⟩ := h
  rcases perform_commit i (base.accepting record e) st with ⟨hrefused, heq⟩ | ⟨hvalid, heq⟩
  · refine .inr ⟨?_, ?_⟩
    · simp only [perform, hrefused, dif_neg, not_false_eq_true]
      exact ⟨_, rfl⟩
    · rw [heq]
  · refine .inl ⟨?_, ?_, ?_⟩
    · simp only [perform, hvalid, dif_pos]
    · rw [heq]
    · have hdb : (Db.mk _ hvalid).toRows = (base.accepting record e).contents st.db := rfl
      obtain ⟨-, hrows, -⟩ := clean.accepted hdb
      have hins : (i, record.id) ∈ st.inserts ++ ((base.accepting record e).flushed ++
          (base.accepting record e).pending).invocations.map fun r => (i, r.id) :=
        List.mem_append_right _ (List.mem_map.mpr ⟨record, List.mem_singleton.mpr rfl, rfl⟩)
      rw [heq]
      exact Own.ext ((if_pos hins).trans ((hrows record.id).trans (if_pos rfl))) rfl

/-- The commit of the next state of the row: it goes through exactly if the row fits. -/
theorem OwnEffect.written {base : Session} {record current : InvocationRecord} {e : OutboxEvent}
    {b : Except DbError Unit} (clean : base.Clean) (held : base.HoldsInvocation record.id record)
    (own : record.id ∈ base.inserted)
    (hmerge : InvocationRecord.merge record current record = current)
    (he : current.fits = true → e.fits = true)
    (h : OwnEffect i record.id .commit
      (base.writingInvocation record.id current { outbox := [e] }) x b s' x') :
    record.fits = true ∧ x.row = some record ∧
      (current.fits = true ∧ b = .ok () ∧
          s' = (base.writingInvocation record.id current { outbox := [e] }).committed ∧
          x' = x.write current ∨
        current.fits = false ∧ b = .error .data ∧ x' = x) := by
  obtain ⟨st, hown, rfl, rfl, rfl, rfl⟩ := h
  have hins : (i, record.id) ∈ st.inserts := hown.inserts _ own
  have hstored : st.db.invocation record.id = some record :=
    hown.current _ own _ (Session.loadedInvocation_writingInvocation.mpr held.loaded)
  obtain ⟨hkeys, hfit⟩ := clean.written_takes held.loaded hstored hmerge he
  have hfits : record.fits = true := by
    have hall := st.db.valid.2
    simp only [Rows.fits, Bool.and_eq_true] at hall
    exact List.all_eq_true.mp hall.1.2 record (lookup_mem hstored).1
  refine ⟨hfits, ?_, ?_⟩
  · simp only [ownOf, hins, if_true, hstored]
  · rcases perform_commit i (base.writingInvocation record.id current { outbox := [e] }) st with
      ⟨hrefused, heq⟩ | ⟨hok, heq⟩
    · have hunfit : current.fits = false := by
        rw [← Bool.not_eq_true]
        exact fun hcurrent => hrefused ⟨hkeys, hfit.mpr hcurrent⟩
      refine .inr ⟨hunfit, ?_, ?_⟩
      · simp only [perform, hrefused, dif_neg, not_false_eq_true, Rows.refusal, hfit, hunfit,
          Bool.false_eq_true, if_false]
      · rw [heq]
    · refine .inl ⟨hfit.mp hok.2, ?_, ?_, ?_⟩
      · simp only [perform, hok, dif_pos]
      · rw [heq]
      · have hdb : (Db.mk _ hok).toRows =
            (base.writingInvocation record.id current { outbox := [e] }).contents st.db := rfl
        obtain ⟨-, hrows, -⟩ := clean.writtenOwn held own hmerge hdb hown.current
        rw [heq]
        simp [ownOf, Own.write, hrows, hins]

end Effects

/-! ## How a request leaves its invocation -/

/-- The row has ended: without a call, for an adapter that is not registered, or with what became of
    the one call that was made. -/
inductive Ended (env : Env) : List AdapterCall → InvocationRecord → Prop where
  | uncalled {record : InvocationRecord} {kind : ConnectorKind} (h : kind ∉ registeredKinds) :
      Ended env [] (finished env record
        (.failure .unknownKind (PyStr.ofString (unknownKindText kind)) none none))
  | called {record : InvocationRecord} {request : InvocationRequest} {context : ConnectorContext}
      {budget : ℚ} (h : (env.invoke request context).storable = true) :
      Ended env [.invoke request context] (finished env record
        (outcomeResult env budget record.startedAt (env.invoke request context)))

/-- The row is running, and what became of the one call that was made cannot be stored. -/
inductive Lost (env : Env) : List AdapterCall → InvocationRecord → Prop where
  | called {record : InvocationRecord} {request : InvocationRequest} {context : ConnectorContext}
      (running : record.status = .running)
      (h : (env.invoke request context).storable = false) :
      Lost env [.invoke request context] record

section Ends

variable {env : Env} {calls : List AdapterCall} {record : InvocationRecord}

theorem not_inFlight_of_event {status : InvocationStatus}
    (h : (terminalEvent status).isSome = true) : status.inFlight = false := by
  obtain ⟨event, hevent⟩ := Option.isSome_iff_exists.mp h
  exact terminal_not_inFlight hevent

theorem Ended.inFlight (h : Ended env calls record) : record.status.inFlight = false := by
  cases h with
  | @uncalled record kind h =>
    have hstatus := not_inFlight_of_event (terminalEvent_failure .unknownKind
      (PyStr.ofString (unknownKindText kind)) none none)
    exact hstatus
  | @called record request context budget h =>
    rw [← @outcomeResult_storable env budget record.startedAt, Bool.and_eq_true] at h
    exact not_inFlight_of_event h.1

theorem finished_completedAt (result : InvocationResult) :
    (finished env record result).completedAt.isSome = true := by
  simp only [finished]
  cases result.completedAt <;> rfl

theorem Ended.completedAt (h : Ended env calls record) : record.completedAt.isSome = true := by
  cases h <;> exact finished_completedAt _

theorem Ended.storable (h : Ended env calls record) {request : InvocationRequest}
    {context : ConnectorContext} (hmem : .invoke request context ∈ calls) :
    (env.invoke request context).storable = true := by
  cases h with
  | uncalled h => cases hmem
  | called h =>
    cases List.mem_singleton.mp hmem
    exact h

theorem Lost.running (h : Lost env calls record) : record.status = .running := by
  cases h with
  | called running h => exact running

theorem Lost.call (h : Lost env calls record) : ∃ request context,
    .invoke request context ∈ calls ∧ (env.invoke request context).storable = false := by
  cases h with
  | called running h => exact ⟨_, _, List.mem_cons_self, h⟩

end Ends

/-- What the client is told in the end. -/
def told : Except Exc Response → Response
  | .ok response => response
  | .error e => e.respond

/-- A request may end before it has inserted a row; otherwise the row has ended, or it is lost and
    the client is told 500. -/
def Settles (env : Env) (r : Except Exc Response) (p : Session × Own) : Prop :=
  ∀ record, p.2.row = some record → Ended env p.2.calls record ∨
    Lost env p.2.calls record ∧ told r = ⟨500, .internalServerError⟩

section Walk

variable {i : Nat} {rq : Incoming} {s : Session} {x : Own} {α β : Type}
  {Q : Except Exc α → Session × Own → Prop}

theorem owning_await {v : Uuid} {o : RegistryOp β} {f : β → Handler α}
    (h : ∀ b s' x', OwnEffect i v o s x b s' x' → (f b).Obeys (owning i v) Q (s', x')) :
    (await o >>= f).Obeys (owning i v) Q (s, x) :=
  ⟨trivial, fun b p' heff => h b p'.1 p'.2 heff⟩

/-- An operation that has nothing to do with the request's own invocation. -/
theorem owning_quiet {v : Uuid} {o : RegistryOp β} {f : β → Handler α}
    (hcommit : o.isCommit = false) (hcall : o.isCall = false)
    (h : ∀ b s', Effect o s b s' → (f b).Obeys (owning i v) Q (s', x)) :
    (await o >>= f).Obeys (owning i v) Q (s, x) := by
  refine owning_await fun b s' x' heff => ?_
  rw [heff.quiet hcommit hcall]
  exact h b s' heff.effect

/-- `_finalise`: the row ends, or stays as it is. -/
theorem finalise_owning (hs : s.Clean) {record : InvocationRecord}
    (held : s.HoldsInvocation record.id record) (own : record.id ∈ s.inserted)
    (hversion : record.aggregateVersion + 1 ≤ 3) (hrow : x.row = some record)
    (result : InvocationResult) :
    (finalise rq.env record result).Obeys (owning i record.id) (fun r p =>
      ((terminalEvent result.status).isSome && result.storable) = true ∧
          p.2 = x.write (finished rq.env record result) ∧
          r = .ok (finished rq.env record result) ∨
        ((terminalEvent result.status).isSome && result.storable) = false ∧ p.2 = x ∧
          ∃ e : Exc, r = .error e ∧ e.respond = ⟨500, .internalServerError⟩) (s, x) := by
  refine owning_quiet rfl rfl fun _ s₁ h₁ => ?_
  obtain rfl := hs.effect_setInvocation h₁
  cases hevent : terminalEvent result.status with
  | none => exact .inr ⟨rfl, rfl, _, rfl, rfl⟩
  | some event =>
    refine owning_quiet rfl rfl fun _ s₂ h₂ => ?_
    obtain rfl := effect_enqueue h₂
    refine Prog.Obeys.bind (owning_await fun b s₃ x₃ h₃ => ?_)
    obtain ⟨hfits, -, hok | herr⟩ := h₃.written hs held own merge_finished
      (fun h => emitted_fits h (terminalEvent_fits hevent))
    · obtain ⟨hfit, rfl, -, rfl⟩ := hok
      rw [finished_fits hfits hversion] at hfit
      exact .inl ⟨by simpa using hfit, rfl, rfl⟩
    · obtain ⟨hunfit, rfl, rfl⟩ := herr
      rw [finished_fits hfits hversion] at hunfit
      exact .inr ⟨by simpa using hunfit, rfl, _, rfl, rfl⟩

/-- How `execute` ends. -/
def Executed (env : Env) (r : Except Exc InvocationRecord) (p : Session × Own) : Prop :=
  ∃ record, p.2.row = some record ∧ (r = .ok record ∧ Ended env p.2.calls record ∨
    Lost env p.2.calls record ∧ ∃ e : Exc, r = .error e ∧ e.respond = ⟨500, .internalServerError⟩)

theorem startedEvent_fits : varcharFits 255 startedEvent = true := by decide +kernel

/-- The text for an unknown kind can be stored. -/
theorem unknownKind_storable (kind : ConnectorKind) :
    ((terminalEvent (InvocationResult.failure .unknownKind
        (PyStr.ofString (unknownKindText kind)) none none).status).isSome &&
      (InvocationResult.failure .unknownKind
        (PyStr.ofString (unknownKindText kind)) none none).storable) = true := by
  have htext : textFits (unknownKindText kind) = true := by
    cases kind <;> decide +kernel
  rw [terminalEvent_failure, failure_storable, Bool.true_and]
  exact storable_take htext 1000

/-- `execute`: the row ends, but for an outcome that cannot be stored. -/
theorem execute_owning (hs : s.Clean) {connector : ConnectorRecord} {record : InvocationRecord}
    (held : s.HoldsInvocation record.id record) (own : record.id ∈ s.inserted)
    (hversion : record.aggregateVersion + 2 ≤ 3) (hrow : x.row = some record)
    (hcalls : x.calls = []) (payload : Dict String) :
    (execute rq.env connector record payload).Obeys (owning i record.id) (Executed rq.env)
      (s, x) := by
  unfold execute
  split
  · rename_i hkind
    refine (finalise_owning hs held own (Nat.le_of_succ_le hversion) hrow _).mono ?_
    rintro r ⟨s', x'⟩ (⟨-, rfl, rfl⟩ | ⟨hunfit, -, -⟩)
    · refine ⟨_, rfl, .inl ⟨rfl, ?_⟩⟩
      rw [Own.write, hcalls]
      exact .uncalled hkind
    · rw [unknownKind_storable] at hunfit
      cases hunfit
  · refine owning_quiet rfl rfl fun _ s₁ h₁ => ?_
    refine owning_quiet rfl rfl fun _ s₂ h₂ => ?_
    obtain rfl := hs.effect_setInvocation h₁
    obtain rfl := effect_enqueue h₂
    refine Prog.Obeys.bind (Prog.Obeys.bind (owning_await fun b s₃ x₃ h₃ => ?_))
    obtain ⟨hfits, -, hok | herr⟩ := h₃.written hs held own merge_started
      (fun h => emitted_fits h startedEvent_fits)
    swap
    · -- what could be stored can be stored as started
      obtain ⟨hunfit, -, -⟩ := herr
      rw [started_fits hfits (Nat.le_of_succ_le hversion)] at hunfit
      cases hunfit
    · obtain ⟨-, rfl, rfl, rfl⟩ := hok
      obtain ⟨hs₃, held₃, hins₃⟩ : _ ∧ _ ∧ (s.writingInvocation record.id (started rq.env record)
          { outbox := [emitted (rq.env.uuid4 2) (started rq.env record) startedEvent] }
          ).committed.inserted = s.inserted :=
        hs.committed_writingInvocation held rfl rfl rfl
      rw [← hins₃] at own
      refine owning_await fun _ s₄ x₄ h₄ => ?_
      obtain ⟨rfl, rfl⟩ := h₄.call
      refine (@finalise_owning i rq _ _ hs₃ (started rq.env record) held₃ own hversion
        rfl _).mono ?_
      rintro r ⟨s', x'⟩ hend
      rw [outcomeResult_storable] at hend
      rcases hend with ⟨hstorable, rfl, rfl⟩ | ⟨hunfit, rfl, e, rfl, he⟩
      · refine ⟨_, rfl, .inl ⟨rfl, ?_⟩⟩
        simp only [Own.write, Own.call, hcalls, List.nil_append]
        exact .called hstorable
      · refine ⟨_, rfl, .inr ⟨?_, e, rfl, he⟩⟩
        simp only [Own.write, Own.call, hcalls, List.nil_append]
        exact .called rfl hunfit

/-- A session that has just inserted the row. -/
structure Born (record : InvocationRecord) (p : Session × Own) : Prop where
  clean : p.1.Clean
  held : p.1.HoldsInvocation record.id record
  own : record.id ∈ p.1.inserted
  version : record.aggregateVersion + 2 ≤ 3
  row : p.2 = ⟨some record, []⟩

/-- `accept`: the row is inserted, or the request has none. -/
theorem accept_owning (hs : s.Clean) (connector : ConnectorRecord) (args : AcceptArgs) :
    (accept rq.env connector args).Obeys (owning i (rq.env.uuid4 0)) (fun r p =>
      (∃ record, r = .ok (record, none) ∧ record.id = rq.env.uuid4 0 ∧ Born record p) ∨
        (∀ record, r ≠ .ok (record, none)) ∧ p.2 = Own.unborn) (s, Own.unborn) := by
  refine owning_quiet rfl rfl fun b s₁ h₁ => ?_
  obtain ⟨hs₁, -, -⟩ := hs.effect_findExisting h₁
  cases b with
  | some existing => exact .inr ⟨fun _ h => (by cases h), rfl⟩
  | none =>
    refine owning_quiet rfl rfl fun _ s₂ h₂ => ?_
    obtain ⟨_, _, -, rfl⟩ := h₂
    refine owning_quiet rfl rfl fun b s₃ h₃ => ?_
    rcases effect_flush h₃ with ⟨rfl, rfl⟩ | ⟨⟨e, rfl⟩, rfl⟩
    · refine owning_quiet rfl rfl fun _ s₄ h₄ => ?_
      obtain rfl := effect_enqueue h₄
      simp only [perform, hs₁.pending, hs₁.flushed]
      refine Prog.Obeys.bind (owning_await fun b s₅ x₅ h₅ => ?_)
      have hpost := hs₁.committed_accepting (newInvocation rq.env connector args)
        (emitted (rq.env.uuid4 1) (newInvocation rq.env connector args) acceptedEvent)
      have hcommit := @OwnEffect.accept i s₅ Own.unborn x₅ s₁ (newInvocation rq.env connector args)
        (emitted (rq.env.uuid4 1) (newInvocation rq.env connector args) acceptedEvent) b hs₁ h₅
      rcases hcommit with ⟨rfl, rfl, rfl⟩ | ⟨⟨e, rfl⟩, rfl⟩
      · exact .inl ⟨_, rfl, rfl, hpost.1, hpost.2.1, hpost.2.2, Nat.le_refl 3, rfl⟩
      · exact .inr ⟨fun _ h => (by cases h), rfl⟩
    · cases e with
      | data => exact .inr ⟨fun _ h => (by cases h), rfl⟩
      | integrity =>
        refine owning_quiet rfl rfl fun _ s₄ _ => ?_
        refine owning_quiet rfl rfl fun b s₅ _ => ?_
        cases b with
        | none => exact .inr ⟨fun _ h => (by cases h), rfl⟩
        | some existing => exact .inr ⟨fun _ h => (by cases h), rfl⟩

/-- Reading the connector. -/
theorem tenantConnector_owning {v : Uuid} (connectorId : Uuid) (tenantId : String) :
    (tenantConnector connectorId tenantId).Obeys (owning i v)
      (fun _ p => p.1.Clean ∧ p.2 = Own.unborn) (Session.fresh, Own.unborn) := by
  refine owning_quiet rfl rfl fun b s' he => ?_
  obtain ⟨hs', -⟩ := Session.fresh_clean.effect_getConnector he
  cases b.filter (·.tenantId = tenantId) with
  | none => exact ⟨hs', rfl⟩
  | some record => exact ⟨hs', rfl⟩

theorem settles_unborn (env : Env) (r : Except Exc Response) (s : Session) :
    Settles env r (s, Own.unborn) := by
  intro record hrow
  cases hrow

/-- What `execute` has settled stays settled. -/
theorem Executed.settles {env : Env} {record : InvocationRecord} {p : Session × Own}
    (h : Executed env (.ok record) p) (r : Except Exc Response) (s : Session) :
    Settles env r (s, p.2) := by
  obtain ⟨row, hrow, ⟨-, hended⟩ | ⟨-, e, he, -⟩⟩ := h
  · intro record' hrow'
    rw [hrow, Option.some.injEq] at hrow'
    exact .inl (hrow' ▸ hended)
  · cases he

theorem Executed.settles_error {env : Env} {e : Exc} {p : Session × Own}
    (h : Executed env (.error e) p) : Settles env (.error e) p := by
  obtain ⟨row, hrow, ⟨hok, -⟩ | ⟨hlost, e', he, htold⟩⟩ := h
  · cases hok
  · cases he
    intro record' hrow'
    rw [hrow, Option.some.injEq] at hrow'
    exact .inr ⟨hrow' ▸ hlost, htold⟩

theorem invokeConnectorV1_owning (caller : CallerIdentity) (connectorId : Uuid)
    (payload : InvocationCreate) (xRequestId traceparent : Option String) :
    (invokeConnectorV1 rq.env caller connectorId payload xRequestId traceparent).Obeys
      (owning i (rq.env.uuid4 0)) (Settles rq.env) (Session.fresh, Own.unborn) := by
  refine Prog.Obeys.bind ((tenantConnector_owning connectorId caller.tenantId).mono ?_)
  rintro (e | record) ⟨s₁, x₁⟩ ⟨hs₁, rfl⟩
  · exact settles_unborn _ _ _
  rcases requireExecutable_cases record with hret | ⟨e, hraise⟩
  swap
  · simp only [hraise, Prog.raise_bind]
    exact settles_unborn _ _ _
  simp only [hret, Prog.ret_bind]
  refine Prog.Obeys.bind ((accept_owning hs₁ record _).mono ?_)
  rintro (e | ⟨invocation, replay⟩) ⟨s₂, x₂⟩ hacc
  · obtain ⟨_, h, -⟩ | ⟨-, rfl⟩ := hacc
    · cases h
    · exact settles_unborn _ _ _
  cases replay with
  | some existing =>
    obtain ⟨_, h, -⟩ | ⟨-, rfl⟩ := hacc
    · cases h
    · exact settles_unborn _ _ _
  | none =>
    obtain ⟨_, h, hid, hborn⟩ | ⟨hnot, -⟩ := hacc
    swap
    · exact absurd rfl (hnot invocation)
    cases h
    obtain ⟨hclean, hheld, hown, hversion, rfl⟩ := hborn
    rw [← hid]
    refine Prog.Obeys.bind ((execute_owning hclean hheld hown hversion rfl rfl _).mono ?_)
    rintro (e | finished) ⟨s₃, x₃⟩ hexec
    · exact hexec.settles_error
    · exact hexec.settles _ _

/-- The reply of the internal endpoint has nothing to do with it. -/
theorem internalReply_owning {v connectorId : Uuid} {invocation : InvocationRecord} {x : Own}
    (h : ∀ r s, Settles rq.env r (s, x)) :
    (internalReply connectorId invocation).Obeys (owning i v) (Settles rq.env) (s, x) := by
  refine owning_quiet rfl rfl fun b s' _ => ?_
  cases b with
  | none => exact h _ _
  | some record => exact h _ _

theorem invokeConnectorInternal_owning (token tenantId : String) (connectorId : Uuid)
    (payload : Dict String) :
    (invokeConnectorInternal rq.env token tenantId connectorId payload).Obeys
      (owning i (rq.env.uuid4 0)) (Settles rq.env) (Session.fresh, Own.unborn) := by
  unfold invokeConnectorInternal
  rcases requireInternalCaller_cases rq.env token with hret | ⟨e, hraise⟩
  swap
  · rw [hraise]
    exact settles_unborn _ _ _
  rw [hret, Prog.ret_bind]
  by_cases htenant : tenantId = ""
  · rw [if_pos htenant]
    exact settles_unborn _ _ _
  rw [if_neg htenant]
  refine Prog.Obeys.bind ((tenantConnector_owning connectorId tenantId).mono ?_)
  rintro (e | record) ⟨s₁, x₁⟩ ⟨hs₁, rfl⟩
  · exact settles_unborn _ _ _
  rcases requireExecutable_cases record with hret | ⟨e, hraise⟩
  swap
  · simp only [hraise, Prog.raise_bind]
    exact settles_unborn _ _ _
  simp only [hret, Prog.ret_bind]
  cases hinput : agentInput payload with
  | none => exact settles_unborn _ _ _
  | some body =>
    refine Prog.Obeys.bind ((accept_owning hs₁ record _).mono ?_)
    rintro (e | ⟨invocation, replay⟩) ⟨s₂, x₂⟩ hacc
    · obtain ⟨_, h, -⟩ | ⟨-, rfl⟩ := hacc
      · cases h
      · exact settles_unborn _ _ _
    cases replay with
    | some existing =>
      obtain ⟨_, h, -⟩ | ⟨-, rfl⟩ := hacc
      · cases h
      · exact internalReply_owning fun r s => settles_unborn _ r s
    | none =>
      obtain ⟨_, h, hid, hborn⟩ | ⟨hnot, -⟩ := hacc
      swap
      · exact absurd rfl (hnot invocation)
      cases h
      obtain ⟨hclean, hheld, hown, hversion, rfl⟩ := hborn
      rw [← hid]
      refine Prog.Obeys.bind ((execute_owning hclean hheld hown hversion rfl rfl _).mono ?_)
      rintro (e | finished) ⟨s₃, x₃⟩ hexec
      · exact hexec.settles_error
      · exact internalReply_owning hexec.settles

/-- A request to invoke settles its invocation. -/
theorem program_owning (hinvoked : rq.request.invoked.isSome = true) :
    rq.program.Obeys (owning i (rq.env.uuid4 0)) (fun r p => ∀ response, r = .ok response →
      Settles rq.env (.ok response) p) (Session.fresh, Own.unborn) := by
  have hhandler : (handler rq.env rq.request).Obeys (owning i (rq.env.uuid4 0)) (Settles rq.env)
      (Session.fresh, Own.unborn) := by
    cases hrq : rq.request with
    | invokeConnectorV1 caller connectorId payload xRequestId traceparent =>
      exact invokeConnectorV1_owning ..
    | invokeConnectorInternal token tenantId connectorId payload =>
      exact invokeConnectorInternal_owning ..
    | _ =>
      rw [hrq] at hinvoked
      cases hinvoked
  refine Prog.Obeys.tryCatch (Prog.Obeys.finallyDo (hhandler.mono ?_))
  rintro r ⟨s, x⟩ hend
  refine ⟨trivial, ?_⟩
  rintro ⟨s', x'⟩ heff
  rw [show x' = x from OwnEffect.quiet rfl rfl heff]
  cases r with
  | ok response =>
    intro response' h
    cases h
    exact hend
  | error e =>
    intro response' h
    cases h
    exact hend

end Walk

/-! ## In every run -/

/-- A row is inserted by a request to invoke, under the first id it drew. -/
theorem Tx.inserter {rq : Incoming} {s : Session} (h : Tx rq s) {r : InvocationRecord}
    (hr : r ∈ (s.flushed ++ s.pending).invocations) :
    rq.request.invoked.isSome = true ∧ r.id = rq.env.uuid4 0 := by
  cases h.invocation with
  | quiet hq =>
    rw [hq.rows] at hr
    cases hr
  | @accept base args record invoked args_eq clean first held enabled tenant =>
    simp only [Session.accepting, Rows.append_invocations, List.append_nil,
      List.mem_singleton] at hr
    subst hr
    exact ⟨by rw [invoked]; rfl, rfl⟩
  | start clean held own accepted => simp [Session.writingInvocation, clean.flushed] at hr
  | finish clean held own inFlight terminal =>
    simp [Session.writingInvocation, clean.flushed] at hr

section Runs

variable {reqs : Nat → Incoming} {sys sys' : System RegistryOp Session World Exc Response}
  {i j : Nat} {v : Uuid}

theorem reaches_inserter (h : registryMachine.Reaches Machine.Any (registry Db.empty reqs) sys)
    (hins : (i, v) ∈ sys.world.inserts) :
    (reqs i).request.invoked.isSome = true ∧ v = (reqs i).env.uuid4 0 := by
  induction h with
  | start => cases hins
  | step hr hs _ ih =>
    rcases registry_step hr hs with ⟨-, hsame⟩ | ⟨htx, -, hgrown⟩
    · exact ih (hsame ▸ hins)
    · rw [hgrown] at hins
      rcases List.mem_append.mp hins with hold | hnew
      · exact ih hold
      · obtain ⟨r, hr, heq⟩ := List.mem_map.mp hnew
        cases heq
        exact htx.inserter hr

/-- What is on record was inserted. -/
theorem invocation_of_insert (h : registryMachine.Reaches Machine.Any (registry Db.empty reqs) sys)
    (hins : (i, v) ∈ sys.world.inserts) : ∃ r, sys.world.db.invocation v = some r := by
  have hmem : v ∈ sys.world.db.invocations.map (·.id) := by
    rw [← (reaches_owned h).1.inserts]
    exact List.mem_map.mpr ⟨(i, v), hins, rfl⟩
  obtain ⟨r, hr, rfl⟩ := List.mem_map.mp hmem
  exact ⟨r, Db.invocation_of_mem hr⟩

/-- Nobody else has to do with a request's own invocation. -/
theorem ownOf_step (h : registryMachine.Reaches Machine.Any (registry Db.empty reqs) sys)
    (hne : j ≠ i) (hs : registryMachine.Step sys j sys') :
    ownOf i v sys'.world.toStore = ownOf i v sys.world.toStore := by
  have hrow : (if (i, v) ∈ sys'.world.inserts then sys'.world.db.invocation v else none) =
      if (i, v) ∈ sys.world.inserts then sys.world.db.invocation v else none := by
    rcases registry_step h hs with ⟨hdb, hsame⟩ | ⟨htx, hdb, hgrown⟩
    · rw [hdb, hsame]
    · have hmem : (i, v) ∈ sys'.world.inserts ↔ (i, v) ∈ sys.world.inserts := by
        rw [hgrown, List.mem_append, or_iff_left]
        rintro hnew
        obtain ⟨r, -, heq⟩ := List.mem_map.mp hnew
        exact hne (congrArg Prod.fst heq)
      by_cases hins : (i, v) ∈ sys.world.inserts
      · rw [if_pos hins, if_pos (hmem.mpr hins)]
        obtain ⟨r, hr⟩ := invocation_of_insert h hins
        obtain ⟨howned, hown⟩ := reaches_owned h
        rw [hr]
        refine invocation_of_other htx hdb (hown j).current (fun hv => hne ?_) hr
        exact howned.unique ((hown j).inserts v hv) hins
      · rw [if_neg hins, if_neg (mt hmem.mp hins)]
  refine Own.ext hrow ?_
  show (sys'.world.calls.filter _).map _ = _
  cases hs with
  | crash hp => rfl
  | @op β o k b s' w' hp hst =>
    obtain ⟨hperf, -, -⟩ := registryMachine_step hst
    have hst' : w'.toStore = (perform j o (sys.threads j).session sys.world.toStore).2.2 := by
      rw [hperf]
    show (w'.toStore.calls.filter _).map _ = _
    rw [hst']
    rcases perform_calls j o (sys.threads j).session sys.world.toStore with ⟨hcalls, -⟩ |
      ⟨c, -, hcalls⟩
    · rw [hcalls]
      rfl
    · rw [hcalls, List.filter_append]
      simp [ownOf, hne]

/-- Whoever has inserted a row and has answered has settled it. -/
theorem reaches_settled (h : registryMachine.Reaches Machine.Any (registry Db.empty reqs) sys)
    (hinvoked : (reqs i).request.invoked.isSome = true) {response : Response}
    (hret : (sys.threads i).prog = .ret response) :
    Settles (reqs i).env (.ok response)
      (sys.sessions i, ownOf i ((reqs i).env.uuid4 0) sys.world.toStore) := by
  have hobeys := h.obeys_view (i := i) (D := owning i ((reqs i).env.uuid4 0))
    (Q := fun r p => ∀ response, r = .ok response → Settles (reqs i).env (.ok response) p)
    (fun w => ownOf i ((reqs i).env.uuid4 0) w.toStore)
    (fun sys hr j sys' hne hs => ownOf_step hr hne hs) ?_ (fun _ _ _ h => (by cases h)) ?_
  · rw [hret] at hobeys
    exact hobeys response rfl
  · intro sys hr β o b s' w' hst
    obtain ⟨hperf, -, -⟩ := registryMachine_step hst
    exact ⟨sys.world.toStore, (reaches_owned hr).2 i, rfl, by rw [hperf], by rw [hperf],
      by rw [hperf]⟩
  · exact program_owning hinvoked

/-- Who has answered leaves its own invocation alone, too. -/
theorem ownOf_later (h : registryMachine.Reaches Machine.Any (registry Db.empty reqs) sys)
    (h' : registryMachine.Reaches Machine.Any sys sys') {response : Response}
    (hret : (sys.threads i).prog = .ret response) :
    ownOf i v sys'.world.toStore = ownOf i v sys.world.toStore := by
  suffices hsame : (sys'.threads i).prog = .ret response ∧
      ownOf i v sys'.world.toStore = ownOf i v sys.world.toStore from hsame.2
  induction h' with
  | start => exact ⟨hret, rfl⟩
  | @step sys₁ sys₂ j hrun hs _ ih =>
    obtain ⟨hend, hown⟩ := ih
    have hne : j ≠ i := by
      rintro rfl
      cases hs with
      | op hp hst =>
        rw [hend] at hp
        cases hp
      | crash hp =>
        rw [hend] at hp
        cases hp
    refine ⟨?_, (ownOf_step (h.trans hrun) hne hs).trans hown⟩
    cases hs with
    | op hp hst => simpa [Function.update_of_ne hne.symm] using hend
    | crash hp => simpa [Function.update_of_ne hne.symm] using hend

/-- Request `i` has called an adapter, and what became of the call cannot be stored. -/
def CalledUnstorably (env : Env) (i : Nat) (st : Store) : Prop :=
  ∃ request context, (i, .invoke request context) ∈ st.calls ∧
    (env.invoke request context).storable = false

/-- Once the request that inserted the row has answered, the row has ended, or it never will. -/
theorem reaches_ends (h : registryMachine.Reaches Machine.Any (registry Db.empty reqs) sys)
    (hins : (i, v) ∈ sys.world.inserts) {response : Response}
    (hret : (sys.threads i).prog = .ret response) {r : InvocationRecord}
    (hr : sys.world.db.invocation v = some r) :
    ¬ CalledUnstorably (reqs i).env i sys.world.toStore ∧ r.status.inFlight = false ∧
        r.completedAt.isSome = true ∨
      CalledUnstorably (reqs i).env i sys.world.toStore ∧ r.status = .running ∧
        response = ⟨500, .internalServerError⟩ := by
  obtain ⟨hinvoked, rfl⟩ := reaches_inserter h hins
  have hrow : (ownOf i ((reqs i).env.uuid4 0) sys.world.toStore).row = some r :=
    (if_pos hins).trans hr
  rcases reaches_settled h hinvoked hret r hrow with hended | ⟨hlost, htold⟩
  · refine .inl ⟨?_, hended.inFlight, hended.completedAt⟩
    rintro ⟨request, context, hcall, hunfit⟩
    have hmem : .invoke request context ∈
        (ownOf i ((reqs i).env.uuid4 0) sys.world.toStore).calls := by
      simpa [ownOf] using hcall
    rw [hended.storable hmem] at hunfit
    cases hunfit
  · obtain ⟨request, context, hmem, hunfit⟩ := hlost.call
    exact .inr ⟨⟨request, context, by simpa [ownOf] using hmem, hunfit⟩, hlost.running, htold⟩

/-- A commit that ends the invocation `v`: a row in flight becomes `r`, with the time it ended, and
    its terminal event is published with it. -/
structure Finishes (db db' : Db) (v : Uuid) (r : InvocationRecord) : Prop where
  inFlight : ∃ r₀, db.invocation v = some r₀ ∧ r₀.status.inFlight = true
  row : db'.invocation v = some r
  ended : r.status.inFlight = false
  completed : r.completedAt.isSome = true
  event : ∃ e, (db'.invocationEvents v).getLast? = some e ∧ e ∉ db.invocationEvents v ∧
    terminalEvent r.status = some e.subject ∧ e.aggregateVersion = r.aggregateVersion

/-- An invocation that has ended did so in one commit. -/
theorem reaches_finishes (h : registryMachine.Reaches Machine.Any (registry Db.empty reqs) sys)
    {r : InvocationRecord} (hr : sys.world.db.invocation v = some r)
    (hended : r.status.inFlight = false) (hcompleted : r.completedAt.isSome = true) :
    ∃ now j next, registryMachine.Reaches Machine.Any (registry Db.empty reqs) now ∧
      registryMachine.Step now j next ∧ registryMachine.Reaches Machine.Any next sys ∧
      Finishes now.world.db next.world.db v r := by
  induction h with
  | start => cases hr
  | @step sys sys' j hrun hs hc ih =>
    have hkeeps := step_keepsLog hrun hs
    have hlogged := (reaches_logged (hrun.step hs hc)).row hr
    obtain ⟨-, rfl⟩ := lookup_mem hr
    have hfinishes : ∀ r₀, sys.world.db.invocation r.id = some r₀ → r₀.status.inFlight = true →
        Finishes sys.world.db sys'.world.db r.id r := by
      intro r₀ hr₀ hflight
      obtain ⟨e, hlast, hevent, hversion⟩ := hlogged.terminal hended
      refine ⟨⟨r₀, hr₀, hflight⟩, hr, hended, hcompleted, e, hlast, ?_, hevent, hversion⟩
      obtain ⟨-, hid⟩ := lookup_mem hr₀
      rw [← hid]
      exact fun hmem => ((reaches_logged hrun).row hr₀).not_terminal hflight hmem _ hevent
    cases hbefore : sys.world.db.invocation r.id with
    | none =>
      have haccepted := hkeeps.born _ _ hbefore hr
      rw [haccepted] at hended
      cases hended
    | some r₀ =>
      obtain ⟨r', hr', hmoves⟩ := hkeeps.moves _ _ hbefore
      rw [hr, Option.some.injEq] at hr'
      subst hr'
      cases hmoves with
      | same =>
        obtain ⟨now, k, next, hnow, hstep, hrest, hfin⟩ := ih hbefore
        exact ⟨now, k, next, hnow, hstep, .step hrest hs hc, hfin⟩
      | started before after =>
        rw [after] at hended
        cases hended
      | finished before after =>
        exact ⟨sys, j, sys', hrun, hs, .start, hfinishes r₀ hbefore before⟩

end Runs

/-- A connector, and an invocation of it that takes too long. -/
def answeredLate : Nat → Incoming
  | 0 => sampleEnabled
  | i => ⟨sampleEnv (10 * i), .invokeConnectorV1 sampleCaller 0 sampleInvocation none none⟩

/-- A provider that answers a text with a NUL in it. -/
def nulOutcome : AdapterOutcome :=
  .result { status := .succeeded, output := [("text", .str ⟨[0]⟩)] }

/-- A connector, and an invocation of it. -/
def answeredNul : Nat → Incoming
  | 0 => sampleEnabled
  | i => ⟨{ sampleEnv (10 * i) with invoke := fun _ _ => nulOutcome },
      .invokeConnectorV1 sampleCaller 0 sampleInvocation none none⟩

section Runs

variable {reqs : Nat → Incoming}

end Runs

end FavlGateway.Registry
