/-
  What an answered creation has left behind, among any other requests.

  `create_connector` answers 201 only after its commit went through.  So a run in which the answer is
  given has a commit of exactly this creation in it, and what that commit inserted is still there: the
  row, whose `base_url` and `config` nothing assigns, and the event.

  `creation_stored` carries one of two facts along a run: the creation's commit has gone through, or
  the rest of its program will not answer 201 without it (`Uncommitted`).
-/
import FavlGateway.Registry.Invariants

namespace FavlGateway.Registry

open FavlGateway.Library

/-! ## What is stored -/

/-- The connector's row and event are in the tables. -/
structure Stored (record : ConnectorRecord) (event : OutboxEvent) (db : Db) : Prop where
  row : ∃ r, db.connector record.id = some r ∧ r.baseUrl = record.baseUrl ∧
    r.config = record.config
  event : event ∈ db.outbox

section Stays

variable {record : ConnectorRecord} {event : OutboxEvent} {s : Session} {db db' : Db}

theorem writeConnector_baseUrl (s : Session) (row : ConnectorRecord) :
    (s.writeConnector row).baseUrl = row.baseUrl := by
  unfold Session.writeConnector
  split <;> rfl

/-- `base_url` outlives every commit, as the columns of `SameConnector` do. -/
theorem baseUrl_stays (hdb : db'.toRows = s.contents db) {c : Uuid} {r : ConnectorRecord}
    (h : db.connector c = some r) :
    ∃ r', db'.connector c = some r' ∧ r'.baseUrl = r.baseUrl ∧ r'.config = r.config := by
  obtain ⟨hmem, rfl⟩ := lookup_mem h
  refine ⟨s.writeConnector r, ?_, writeConnector_baseUrl s r, (s.writeConnector_same r).config⟩
  rw [← s.writeConnector_id r]
  apply Db.connector_of_mem
  rw [hdb]
  exact List.mem_append_left _ (List.mem_map_of_mem hmem)

/-- What is stored outlives every commit. -/
theorem Stored.commit (h : Stored record event db) (hdb : db'.toRows = s.contents db) :
    Stored record event db' := by
  obtain ⟨r, hr, hbase, hconfig⟩ := h.row
  obtain ⟨r', hr', hbase', hconfig'⟩ := baseUrl_stays hdb hr
  constructor
  · exact ⟨r', hr', hbase'.trans hbase, hconfig'.trans hconfig⟩
  · rw [hdb]
    exact List.mem_append_left _ h.event

/-- An operation keeps what is stored. -/
theorem Stored.operation {i : Nat} {β : Type} {o : RegistryOp β} {st : Store}
    (h : Stored record event st.db) : Stored record event (perform i o s st).2.2.db := by
  by_cases ho : o.isCommit = true
  · cases o with
    | commit =>
      rcases perform_commit i s st with ⟨-, heq⟩ | ⟨hvalid, heq⟩
      · rw [heq]
        exact h
      · rw [heq]
        exact h.commit rfl
    | _ => cases ho
  · rw [(perform_refreshed (by simpa using ho) s st).1]
    exact h

/-- **What is stored stays**, in every run. -/
theorem Stored.reaches {sys sys' : System RegistryOp Session World Exc Response}
    (hrun : registryMachine.Reaches Machine.Any sys sys') (h : Stored record event sys.world.db) :
    Stored record event sys'.world.db := by
  induction hrun with
  | start => exact h
  | @step sys sys' i _ hs _ ih =>
    cases hs with
    | @op β o k b s' w' hp hst =>
      obtain ⟨hperf, -, -⟩ := registryMachine_step hst
      have hstays : Stored record event
          (perform i o (sys.threads i).session sys.world.toStore).2.2.db := ih.operation
      rw [hperf] at hstays
      exact hstays
    | crash hp => exact ih

end Stays

/-! ## A creation that has not committed -/

section Creation

variable {env : Env} {caller : CallerIdentity} {payload : ConnectorCreate}

/-- A commit that goes through. -/
def committedBy : {β : Type} → RegistryOp β → β → Bool
  | _, .commit, .ok _ => true
  | _, _, _ => false

/-- The session of a commit is the creation's; no commit goes through unless it `may`. -/
def creationDiscipline (env : Env) (caller : CallerIdentity) (payload : ConnectorCreate)
    (may : Bool) : Discipline RegistryOp Session where
  pre o s := o.isCommit = true → s = creating env caller payload
  eff o s b s' := (∃ i st, b = (perform i o s st).1 ∧ s' = (perform i o s st).2.1) ∧
    (may = false → committedBy o b = false)

/-- What a creation ends in: it is refused, or its commit went through and it answers 201. -/
def CreationEnds (env : Env) (caller : CallerIdentity) (payload : ConnectorCreate) (may : Bool)
    (r : Except Exc Response) : Prop :=
  (∃ e, r = .error e ∧ e.respond.statusCode ≠ 201) ∨
    may = true ∧ r = .ok ⟨201, .connector (toSchema (newConnector env caller payload))⟩

theorem flush_cases (i : Nat) (s : Session) (st : Store) :
    ((perform i .flush s st).1 = .ok () ∧
        (perform i .flush s st).2.1 = { s with flushed := s.flushed ++ s.pending, pending := {} }) ∨
      ∃ e, (perform i .flush s st).1 = .error e ∧ (perform i .flush s st).2.1 = s.rolledBack := by
  by_cases hvalid : (s.contents st.db).Valid
  · left
    simp [perform, hvalid]
  · right
    refine ⟨(s.contents st.db).refusal, ?_, ?_⟩
    · simp [perform, hvalid]
    · simp [perform, hvalid]

theorem createConnector_ends (may : Bool) :
    (createConnector env caller payload).Obeys (creationDiscipline env caller payload may)
      (fun r _ => CreationEnds env caller payload may r) Session.fresh := by
  have hrefused : ∀ code detail, code ≠ 201 →
      CreationEnds env caller payload may (.error (.http code detail)) :=
    fun code detail hcode => Or.inl ⟨_, rfl, hcode⟩
  have hfailed : ∀ e, CreationEnds env caller payload may (.error (.db e)) := by
    intro e
    exact Or.inl ⟨_, rfl, by show 500 ≠ 201; omega⟩
  unfold createConnector
  split
  · exact hrefused _ _ (by omega)
  · rename_i hkind
    rw [not_not] at hkind
    refine Prog.Obeys.bind ?_
    unfold validateConfig requireAdapter
    rw [if_pos hkind]
    refine ⟨nofun, ?_⟩
    rintro b s' ⟨⟨i, st, -, rfl⟩, -⟩
    show (if _ then _ else _ : Handler Response).Obeys _ _ Session.fresh
    split
    · exact hrefused _ _ (by omega)
    · refine ⟨nofun, ?_⟩
      rintro b s' ⟨⟨i, st, -, rfl⟩, -⟩
      refine ⟨nofun, ?_⟩
      rintro flushed s' ⟨⟨i, st, hb, hs⟩, -⟩
      rcases flush_cases i _ st with ⟨hok, hsession⟩ | ⟨e, herror, -⟩
      · rw [hok] at hb
        rw [hsession] at hs
        subst hb hs
        refine ⟨nofun, ?_⟩
        rintro b s' ⟨⟨i, st, -, rfl⟩, -⟩
        refine ⟨nofun, ?_⟩
        rintro b s' ⟨⟨i, st, -, rfl⟩, -⟩
        refine ⟨fun _ => rfl, ?_⟩
        rintro b s' ⟨-, hcommitted⟩
        cases b with
        | error e => exact hfailed e
        | ok _ =>
          right
          cases may with
          | true => exact ⟨rfl, rfl⟩
          | false => cases hcommitted rfl
      · rw [herror] at hb
        subst hb
        cases e with
        | integrity =>
          refine ⟨nofun, ?_⟩
          rintro b s' -
          exact hrefused _ _ (by omega)
        | data => exact hfailed _

/-- What a program that has to do with the creation answers, if it answers 201. -/
def AnswersCreated (env : Env) (caller : CallerIdentity) (payload : ConnectorCreate) (may : Bool)
    (p : Handler Response) (s : Session) : Prop :=
  p.Obeys (creationDiscipline env caller payload may) (fun r _ => ∀ body, r = .ok ⟨201, body⟩ →
    may = true ∧ body = .connector (toSchema (newConnector env caller payload))) s

theorem program_answers {rq : Incoming} (may : Bool)
    (hrq : rq = ⟨env, .createConnector caller payload⟩) :
    AnswersCreated env caller payload may rq.program Session.fresh := by
  subst hrq
  refine Prog.Obeys.tryCatch (Prog.Obeys.finallyDo ((createConnector_ends may).mono ?_))
  rintro r s (⟨e, rfl, hcode⟩ | ⟨hmay, rfl⟩)
  · refine ⟨nofun, fun s' _ => ?_⟩
    intro body hbody
    have hresponse : e.respond = ⟨201, body⟩ := Except.ok.inj hbody
    rw [hresponse] at hcode
    exact absurd rfl hcode
  · refine ⟨nofun, fun s' _ => ?_⟩
    intro body hbody
    cases hbody
    exact ⟨hmay, rfl⟩

/-- A commit of the creation's session that goes through has stored its connector. -/
theorem commit_stored {i : Nat} {st st' : Store} {s' : Session} {u : Unit}
    (h : perform i .commit (creating env caller payload) st = (.ok u, s', st')) :
    Stored (newConnector env caller payload)
      (creationEvent env (newConnector env caller payload)) st'.db := by
  simp only [perform] at h
  split at h
  · rename_i hvalid
    cases h
    obtain ⟨-, hrows, -, hevents⟩ := @created env caller payload st.db
      ⟨(creating env caller payload).contents st.db, hvalid⟩ rfl
    constructor
    · exact ⟨_, (hrows _).trans (if_pos rfl), rfl, rfl⟩
    · rw [hevents]
      exact List.mem_append_right _ List.mem_cons_self
  · cases h

variable {reqs : Nat → Incoming} {db : Db} {i : Nat}
  {sys : System RegistryOp Session World Exc Response}

/-- **A creation among other requests**: it has stored its connector, or will not answer 201 before
    it does. -/
theorem creation_stored (h : registryMachine.Reaches Machine.Any (registry db reqs) sys)
    (hreq : reqs i = ⟨env, .createConnector caller payload⟩) :
    AnswersCreated env caller payload false (sys.threads i).prog (sys.threads i).session ∨
      Stored (newConnector env caller payload)
        (creationEvent env (newConnector env caller payload)) sys.world.db := by
  induction h with
  | start => exact Or.inl (program_answers false hreq)
  | @step sys sys' j _ hs hc ih =>
    rcases ih with hun | hstored
    · rcases eq_or_ne i j with rfl | hne
      · cases hs with
        | @op β o k b s' w' hp hst =>
          rw [hp] at hun
          obtain ⟨hperf, -, -⟩ := registryMachine_step hst
          by_cases hcommitted : committedBy o b = true
          · right
            cases o with
            | commit =>
              cases b with
              | error e => cases hcommitted
              | ok u =>
                have hsession : (sys.threads i).session = creating env caller payload := hun.1 rfl
                rw [hsession] at hperf
                exact commit_stored hperf
            | _ => cases hcommitted
          · left
            have hnext := hun.2 b s' ⟨⟨i, sys.world.toStore, by rw [hperf], by rw [hperf]⟩,
              fun _ => by simpa using hcommitted⟩
            simpa [AnswersCreated] using hnext
        | crash hp =>
          left
          simp [AnswersCreated, Prog.Obeys]
      · left
        cases hs with
        | op hp hst => simpa [Function.update_of_ne hne] using hun
        | crash hp => simpa [Function.update_of_ne hne] using hun
    · right
      exact hstored.reaches (.step .start hs trivial)

/-- **What 201 means**: the document is the new connector's, and its row and event are stored. -/
theorem creation_answered (h : registryMachine.Reaches Machine.Any (registry db reqs) sys)
    (hreq : reqs i = ⟨env, .createConnector caller payload⟩) {body : Body}
    (hret : (sys.threads i).prog = .ret ⟨201, body⟩) :
    body = .connector (toSchema (newConnector env caller payload)) ∧
      Stored (newConnector env caller payload)
        (creationEvent env (newConnector env caller payload)) sys.world.db := by
  constructor
  · have hanswers : AnswersCreated env caller payload true (sys.threads i).prog
        (sys.threads i).session := by
      have hstart : AnswersCreated env caller payload true ((registry db reqs).threads i).prog
          ((registry db reqs).threads i).session := program_answers true hreq
      refine h.obeys ?_ ?_ hstart
      · intro sys' _ β o b s' w' hst
        obtain ⟨hperf, -, -⟩ := registryMachine_step hst
        exact ⟨⟨i, sys'.world.toStore, by rw [hperf], by rw [hperf]⟩, nofun⟩
      · intro body hbody
        cases hbody
    rw [hret] at hanswers
    exact (hanswers body rfl).2
  · rcases creation_stored h hreq with hun | hstored
    · rw [hret] at hun
      exact absurd (hun body rfl).1 (by decide)
    · exact hstored

end Creation

end FavlGateway.Registry
