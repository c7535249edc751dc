/-
  Requests served alone.

  While nobody else writes, what a session has loaded IS what is stored (`Session.InSync`), so every
  transaction writes back the row it was computed from.  `operations` is the store before and after
  each operation of one request, `allOperations` of any number of requests one after the other; the
  rules `operations_commit` and `serveAll_invariant` reduce a property of a whole run to one commit
  from an in-sync session.
-/
import FavlGateway.Registry.Invariants

namespace FavlGateway.Registry

open FavlGateway.Library

/-! ## Requests served alone -/

/-- Nothing the session loaded has changed since: what holds while nobody else writes. -/
def Session.InSync (s : Session) (db : Db) : Prop :=
  ∀ c r, s.Loaded c r → db.connector c = some r

section Solo

variable {rq : Incoming} {s s' : Session} {db db' : Db}

theorem Session.InSync.of_writing {base : Session} {id : Uuid} {current : ConnectorRecord}
    {rows : Rows} (h : (base.writing id current rows).InSync db) : base.InSync db :=
  fun c r hl => h c r (Session.loaded_writing.mpr hl)

/-- Writing back a row that is still the stored one makes the written row the stored one. -/
theorem Session.InSync.written {base : Session} {id : Uuid} {record current : ConnectorRecord}
    {rows : Rows} (hin : base.InSync db) (clean : base.Clean) (held : base.Loaded id record)
    (hrows : rows.connectors = []) (hid : current.id = record.id)
    (hmerge : ConnectorRecord.merge record current record = current)
    (hdb : db'.toRows = (base.writing id current rows).contents db) :
    db.connector id = some record ∧
      (∀ c, db'.connector c = if c = id then some current else db.connector c) ∧
      (base.writing id current rows).committed.InSync db' := by
  have hstored : db.connector id = some record := hin _ _ held
  have hdb' : ∀ c, db'.connector c = if c = id then some current else db.connector c := by
    intro c
    rw [(clean.written held hrows hdb).1, hstored, Option.map_some, hmerge]
  refine ⟨hstored, hdb', fun c r h => ?_⟩
  rcases clean.loaded_of_committed_writing hrows h with ⟨rfl, rfl⟩ | ⟨hne, hl⟩
  · rw [hdb', if_pos rfl]
  · rw [hdb', if_neg hne]
    exact hin c r hl

theorem Session.InSync.commit (htx : Tx rq s) (hdb : db'.toRows = s.contents db)
    (hin : s.InSync db) : s.committed.InSync db' := by
  cases htx.connector with
  | quiet hq =>
    intro c r h
    rw [hq.same hdb]
    exact hin c r (hq.loaded h)
  | create request valid =>
    intro c r h
    obtain ⟨rfl, rfl⟩ := Session.loaded_of_committed_creating h
    exact ((created hdb).2.1 _).trans (if_pos rfl)
  | transition clean held tenant asked edge reason =>
    exact (hin.of_writing.written clean held.loaded rfl (advance_id ..) merge_advance hdb).2.2
  | touch report request clean held =>
    exact (hin.of_writing.written clean held.loaded rfl (by rfl) merge_withCapability hdb).2.2
  | delete request clean held locked pending =>
    exact (hin.of_writing.written clean ⟨_, held, rfl⟩ rfl (by rfl) merge_withDeletionRequested
      hdb).2.2

theorem Session.InSync.refreshed (href : s.Refreshed db s') (hin : s.InSync db) : s'.InSync db := by
  intro c r h
  rcases href.connector h with hl | hrow
  · exact hin c r hl
  · exact hrow

theorem Session.fresh_inSync : Session.fresh.InSync db := fun _ _ h => (fresh_loaded h).elim

/-- What an operation does while nobody else writes: it keeps the tables, or commits a transaction
    whose session is in sync with them. -/
theorem perform_inSync {i : Nat} {β : Type} {o : RegistryOp β} {st : Store}
    (hpre : Permits rq o s) (hin : s.InSync st.db) :
    (perform i o s st).2.1.InSync (perform i o s st).2.2.db ∧
      ((perform i o s st).2.2.db = st.db ∨
        Tx rq s ∧ (perform i o s st).2.2.db.toRows = s.contents st.db) := by
  cases ho : o.isCommit with
  | false =>
    obtain ⟨hdb, -, href⟩ := perform_refreshed (i := i) ho s st
    rw [hdb]
    exact ⟨hin.refreshed href, .inl rfl⟩
  | true =>
    cases o with
    | commit =>
      rcases perform_commit i s st with ⟨-, heq⟩ | ⟨hvalid, heq⟩
      · rw [heq]
        exact ⟨hin.refreshed .rolledBack, .inl rfl⟩
      · rw [heq]
        exact ⟨hin.commit hpre rfl, .inr ⟨hpre, rfl⟩⟩
    | _ => cases ho

theorem perform_effect (i : Nat) {β : Type} (o : RegistryOp β) (s : Session) (st : Store) :
    Effect o s (perform i o s st).1 (perform i o s st).2.1 := ⟨i, st, rfl, rfl⟩

end Solo

/-- The store after a request was served alone. -/
def served (i : Nat) (rq : Incoming) (st : Store) : Store :=
  (serve i (handler rq.env rq.request) st).2

/-- The store before and after every operation of a request served alone. -/
def operations (i : Nat) (rq : Incoming) (st : Store) : List (Store × Store) :=
  Prog.trail (perform i) (handler rq.env rq.request) Session.fresh st

section Served

variable {rq : Incoming} {i : Nat} {st : Store}

theorem served_eq : served i rq st =
    (Prog.run (perform i) (handler rq.env rq.request) Session.fresh st).2.2 := by
  unfold served serve
  split
  · rename_i h
    rw [h]
  · rename_i h
    rw [h]

/-- **The rule for requests served alone.** -/
theorem served_invariant {W : Db → Prop}
    (hcommit : ∀ {s : Session} {db db' : Db}, Tx rq s → db'.toRows = s.contents db →
      s.InSync db → W db → W db') (hW : W st.db) : W (served i rq st).db := by
  rw [served_eq]
  have hrun := (handler_obeys rq).run (perform i) (J := fun s st => s.InSync st.db ∧ W st.db)
    (perform_effect i) (fun o s st hpre ⟨hin, hw⟩ => ?_) ⟨Session.fresh_inSync, hW⟩
  · exact hrun.2.2
  · obtain ⟨hin', hdb | ⟨htx, hdb⟩⟩ := perform_inSync (i := i) hpre hin
    · exact ⟨hin', by rw [hdb]; exact hw⟩
    · exact ⟨hin', hcommit htx hdb hin hw⟩

/-- Every operation of a request served alone keeps the tables, or commits a transaction whose
    session is in sync with them. -/
theorem operations_commit {x : Store × Store} (hx : x ∈ operations i rq st) :
    x.2.db = x.1.db ∨
      ∃ s, Tx rq s ∧ s.InSync x.1.db ∧ x.2.db.toRows = s.contents x.1.db := by
  obtain ⟨β, o, s, hpre, hin, hx⟩ := (handler_obeys rq).trail (perform i)
    (J := fun s st => s.InSync st.db) (perform_effect i)
    (fun o s st hpre hin => (perform_inSync hpre hin).1) Session.fresh_inSync hx
  rw [hx]
  rcases (perform_inSync (i := i) hpre hin).2 with hdb | ⟨htx, hdb⟩
  · exact .inl hdb
  · exact .inr ⟨s, htx, hin, hdb⟩

/-- What every operation of a request keeps, the request keeps. -/
theorem served_of_operations {P : Store → Prop} (hP : P st)
    (h : ∀ x ∈ operations i rq st, P x.1 → P x.2) : P (served i rq st) := by
  rw [served_eq]
  exact Prog.run_of_trail (perform i) hP h

/-- What each commit of the request keeps holds throughout, and each commit is good. -/
theorem operations_invariant {W : Db → Prop} {G : Db → Db → Prop} (hrefl : ∀ db, G db db)
    (hcommit : ∀ {s : Session} {db db' : Db}, Tx rq s → db'.toRows = s.contents db →
      s.InSync db → W db → W db' ∧ G db db') (hW : W st.db) :
    ∀ x ∈ operations i rq st, W x.1.db ∧ W x.2.db ∧ G x.1.db x.2.db := by
  have hstep : ∀ {β : Type} (o : RegistryOp β) (s : Session) (st : Store),
      Permits rq o s → s.InSync st.db → W st.db →
      W (perform i o s st).2.2.db ∧ G st.db (perform i o s st).2.2.db := by
    intro β o s st hpre hin hw
    rcases (perform_inSync (i := i) hpre hin).2 with hdb | ⟨htx, hdb⟩
    · rw [hdb]
      exact ⟨hw, hrefl _⟩
    · exact hcommit htx hdb hin hw
  intro x hx
  obtain ⟨β, o, s, hpre, ⟨hin, hw⟩, hx⟩ := (handler_obeys rq).trail (perform i)
    (J := fun s st => s.InSync st.db ∧ W st.db) (perform_effect i)
    (fun o s st hpre hJ => ⟨(perform_inSync hpre hJ.1).1, (hstep o s st hpre hJ.1 hJ.2).1⟩)
    ⟨Session.fresh_inSync, hW⟩ hx
  rw [hx]
  exact ⟨hw, hstep o s x.1 hpre hin hw⟩

/-- A handler's last commit is its last operation. -/
theorem trail_commit {s : Session} (response : Response) :
    Prog.trail (perform i) (commit >>= fun _ => Prog.ret response) s st =
      [(st, (perform i .commit s st).2.2)] := by
  simp only [commit, await, Prog.perform_bind, Prog.op_bind, Prog.trail]
  cases (perform i .commit s st).1 <;> rfl

end Served

/-! ## Requests executed one at a time -/

/-- Serve requests one after the other, numbered from `i`. -/
def serveAll : Nat → List Incoming → Store → Store
  | _, [], st => st
  | i, rq :: rest, st => serveAll (i + 1) rest (served i rq st)

/-- The store before and after every operation of requests served one after the other. -/
def allOperations : Nat → List Incoming → Store → List (Store × Store)
  | _, [], _ => []
  | i, rq :: rest, st => operations i rq st ++ allOperations (i + 1) rest (served i rq st)

/-- Every request meets `P` with the tables it is served on. -/
def EachMeets (P : Incoming → Db → Prop) : Nat → List Incoming → Store → Prop
  | _, [], _ => True
  | i, rq :: rest, st => P rq st.db ∧ EachMeets P (i + 1) rest (served i rq st)

/-- The rule for every commit of requests executed one at a time. -/
theorem allOperations_invariant {P : Incoming → Db → Prop} {W : Db → Prop} {G : Db → Db → Prop}
    (hserve : ∀ {i rq} {st : Store}, P rq st.db → W st.db →
      ∀ x ∈ operations i rq st, W x.1.db ∧ W x.2.db ∧ G x.1.db x.2.db) {i : Nat}
    {reqs : List Incoming} {st : Store} (hP : EachMeets P i reqs st) (hW : W st.db) :
    ∀ x ∈ allOperations i reqs st, W x.1.db ∧ W x.2.db ∧ G x.1.db x.2.db := by
  induction reqs generalizing i st with
  | nil => exact fun x hx => by cases hx
  | cons rq rest ih =>
    intro x hx
    rcases List.mem_append.mp hx with hx | hx
    · exact hserve hP.1 hW x hx
    · have hserved : W (served i rq st).db :=
        served_of_operations (P := fun st => W st.db) hW fun y hy _ => (hserve hP.1 hW y hy).2.1
      exact ih hP.2 hserved x hx

/-- The run rule for requests executed one at a time. -/
theorem serveAll_invariant {P : Incoming → Db → Prop} {W : Db → Prop}
    (hserve : ∀ {i rq} {st : Store}, P rq st.db → W st.db → W (served i rq st).db) {i : Nat}
    {reqs : List Incoming} {st : Store} (hP : EachMeets P i reqs st) (hW : W st.db) :
    W (serveAll i reqs st).db := by
  induction reqs generalizing i st with
  | nil => exact hW
  | cons rq rest ih => exact ih hP.2 (hserve hP.1 hW)

end FavlGateway.Registry
