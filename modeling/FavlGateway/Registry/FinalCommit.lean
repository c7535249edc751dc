/-
  What the database asks of the last write of an invocation.

  `_finalise` copies what the adapter reports into columns of the row, as it comes: the provider's
  request id into a `VARCHAR(255)`, its output into a `JSONB`.  `AdapterOutcome.storable` says what
  these columns take.  Nothing else about the last write can be refused (`written_takes`):
  the index values are those of the row before, its other columns were stored before, and the event
  repeats columns of the row.
-/
import FavlGateway.Registry.AgentKeys
import FavlGateway.Registry.InvocationLog

namespace FavlGateway.Registry

open FavlGateway.Library

/-- The columns of the row take what the adapter reports. -/
def InvocationResult.storable (r : InvocationResult) : Bool :=
  nullable (PyStr.varchar 255) r.providerRequestId && PyStr.storable r.errorDetail &&
  (Json.obj r.output).storable PyStr.storable && (Json.obj r.auditMetadata).storable PyStr.storable

/-- What became of `adapter.invoke` can be recorded: under a terminal status, in columns that take
    it. -/
def AdapterOutcome.storable : AdapterOutcome → Bool
  | .result r => (terminalEvent r.status).isSome && r.storable
  | .timeout => true
  | .exception typeName text => PyStr.storable ((typeName ++ (": " : PyStr) ++ text).take 500)

/-! ## Texts -/

/-- Unicode text can be stored if there is no NUL in it. -/
theorem textFits_iff {s : String} : textFits s = true ↔ '\x00' ∉ s.toList := by
  unfold textFits PyStr.storable PyStr.ofString
  rw [List.all_eq_true]
  constructor
  · intro h hmem
    simpa using h 0 (List.mem_map.mpr ⟨'\x00', hmem, rfl⟩)
  · intro h c hc
    obtain ⟨ch, hch, rfl⟩ := List.mem_map.mp hc
    refine decide_eq_true ⟨fun hzero => h ?_, fun hsurrogate => ?_⟩
    · have hnul : ch = '\x00' := Char.toNat_inj.mp hzero
      exact hnul ▸ hch
    · have hvalid := ch.valid
      have hval : ch.toNat = ch.val.toNat := rfl
      simp only [UInt32.isValidChar, Nat.isValidChar] at hvalid
      omega

theorem textFits_of_varchar {n : Nat} {s : String} (h : varcharFits n s = true) :
    textFits s = true := by
  unfold varcharFits PyStr.varchar at h
  exact ((Bool.and_eq_true _ _).mp h).2

theorem textFits_uuidText (id : Uuid) : textFits (uuidText id) = true := by
  refine textFits_iff.mpr fun hmem => ?_
  have hkept : '\x00' ∈ (uuidText id).toList.filter (fun c => c ≠ '-') :=
    List.mem_filter.mpr ⟨hmem, by decide⟩
  rw [filter_uuidText] at hkept
  cases isHexChar_of_mem_uuidDigits hkept

theorem nul_notMem_toString (n : Nat) : '\x00' ∉ (toString n).toList := by
  have htext : toString n = String.ofList (Nat.toDigits 10 n) := Nat.toString_eq_ofList_toDigits
  rw [htext, String.toList_ofList]
  intro hmem
  have hdigit := Nat.isDigit_of_mem_toDigits (by omega) (by omega) hmem
  cases hdigit

theorem textFits_formatTenths (q : ℚ) : textFits (formatTenths q) = true := by
  refine textFits_iff.mpr ?_
  simp only [formatTenths, String.toList_append, List.mem_append, not_or]
  exact ⟨⟨nul_notMem_toString _, by decide⟩, nul_notMem_toString _⟩

/-- What is left of a text that can be stored can be stored. -/
theorem storable_take {s : PyStr} (h : PyStr.storable s = true) (n : Nat) :
    PyStr.storable (s.take n) = true := by
  unfold PyStr.storable at h ⊢
  rw [List.all_eq_true] at h ⊢
  exact fun c hc => h c (List.mem_of_mem_take hc)

/-! ## The event -/

section Event

variable {record : InvocationRecord} {id : Uuid} {ms ms' : Dict String}

theorem terminalEvent_fits {status : InvocationStatus} {event : String}
    (h : terminalEvent status = some event) : varcharFits 255 event = true := by
  cases status with
  | accepted => cases h
  | running => cases h
  | succeeded => cases h; decide +kernel
  | failedRetryable => cases h; decide +kernel
  | failedTerminal => cases h; decide +kernel
  | timedOut => cases h; decide +kernel
  | cancelled => cases h; decide +kernel

theorem invocationStatus_fits (status : InvocationStatus) : textFits status.value = true := by
  cases status <;> decide +kernel

theorem adapterKind_fits (kind : ConnectorKind) : textFits kind.value = true := by
  cases kind <;> decide +kernel

theorem errorCode_fits (code : ErrorCode) : varcharFits 64 code.value = true := by
  cases code <;> decide +kernel

/-- The names of the members of an event. -/
theorem memberName_fits {name : String}
    (h : name ∈ ["invocation_id", "connector_id", "connector_version", "adapter_kind", "tenant_id",
      "actor_id", "operation", "status", "attempt", "trace_id", "error_code", "retryable",
      "duration_ms"]) : textFits name = true := by
  revert name
  decide +kernel

theorem storableMembers_append : Json.storableMembers textFits (ms ++ ms') =
    (Json.storableMembers textFits ms && Json.storableMembers textFits ms') := by
  induction ms with
  | nil => rfl
  | cons m ms ih =>
    obtain ⟨k, x⟩ := m
    simp only [List.cons_append, Json.storableMembers, ih, Bool.and_assoc]

/-- The event of a row that fits can be stored: it repeats columns of the row. -/
theorem emitted_fits (h : record.fits = true) {subject : String}
    (hsubject : varcharFits 255 subject = true) : (emitted id record subject).fits = true := by
  simp only [InvocationRecord.fits, Bool.and_eq_true] at h
  obtain ⟨⟨⟨⟨⟨⟨⟨hcolumns, hversion⟩, -⟩, -⟩, -⟩, htrace⟩, -⟩, -⟩ := h
  obtain ⟨⟨⟨⟨-, hactor⟩, htenant⟩, hoperation⟩, -⟩ := hcolumns
  have htype : varcharFits 64 "invocation" = true := by decide +kernel
  have hname := fun name => @memberName_fits name
  simp only [List.mem_cons, List.not_mem_nil, or_false, forall_eq_or_imp, forall_eq] at hname
  simp only [emitted, outboxEvent, OutboxEvent.fits, htype, hversion, hsubject, eventPayload,
    Json.storable, storableMembers_append, Json.storableMembers, jsonStr, jsonInt,
    Number.isFinite, hname, textFits_uuidText, adapterKind_fits, invocationStatus_fits,
    textFits_of_varchar htenant, textFits_of_varchar hactor, textFits_of_varchar hoperation,
    Bool.true_and, Bool.and_true, Bool.and_eq_true]
  refine ⟨⟨?_, ?_⟩, ?_⟩
  · cases htext : record.traceId with
    | none => rfl
    | some t =>
      rw [htext] at htrace
      dsimp only
      split
      · rfl
      · simp only [Json.storableMembers, Json.storable, hname, textFits_of_varchar htrace,
          Bool.and_self]
  · cases record.errorCode with
    | none => rfl
    | some code =>
      have hretryable : (Json.ofOption Json.bool record.retryable : Json String).storable textFits =
          true := by
        cases record.retryable <;> rfl
      simp only [Json.storableMembers, Json.storable, hname,
        textFits_of_varchar (errorCode_fits code), hretryable, Bool.and_self]
  · cases record.durationMs with
    | none => rfl
    | some ms =>
      simp only [Json.storableMembers, jsonMillis, Json.storable, Number.isFinite, hname,
        Bool.and_self]

end Event

/-! ## The row -/

section Row

variable {env : Env} {record : InvocationRecord} {result : InvocationResult} {budget : ℚ}
  {startedAt : Option Time}

/-- A row of three writes has a version that fits. -/
theorem small_version_fits {n : Nat} (h : n ≤ 3) : int4Fits n = true :=
  decide_eq_true (Nat.le_trans h (by decide))

theorem started_fits (h : record.fits = true) (hversion : record.aggregateVersion + 1 ≤ 3) :
    (started env record).fits = true := by
  simp only [InvocationRecord.fits, Bool.and_eq_true] at h
  simp only [InvocationRecord.fits, started, h, small_version_fits hversion, Bool.and_self]

/-- The columns that `_finalise` writes, and those that were stored before. -/
theorem finished_fits (h : record.fits = true) (hversion : record.aggregateVersion + 1 ≤ 3) :
    (finished env record result).fits = result.storable := by
  have hcode : nullable (fun c : ErrorCode => varcharFits 64 c.value) result.errorCode = true := by
    cases result.errorCode with
    | none => rfl
    | some code => exact errorCode_fits code
  have hdetail : nullable PyStr.storable
      (if result.errorDetail.isEmpty then none else some result.errorDetail) =
        PyStr.storable result.errorDetail := by
    split
    · rename_i hempty
      have hnil : result.errorDetail.codepoints = [] := List.isEmpty_iff.mp hempty
      simp only [nullable, PyStr.storable, hnil, List.all_nil]
    · rfl
  have houtput : nullable (fun d => (Json.obj d).storable PyStr.storable)
      (if result.output.isEmpty then none else some result.output) =
        (Json.obj result.output).storable PyStr.storable := by
    split
    · rename_i hempty
      rw [List.isEmpty_iff.mp hempty]
      rfl
    · rfl
  simp only [InvocationRecord.fits, Bool.and_eq_true] at h
  simp only [InvocationRecord.fits, finished, h, small_version_fits hversion, hcode, hdetail,
    houtput, InvocationResult.storable, Bool.true_and, Bool.and_true]

/-- Of a failure that says nothing of the provider only the text matters. -/
theorem failure_storable (code : ErrorCode) (detail : PyStr) (startedAt completedAt : Option Time) :
    (InvocationResult.failure code detail startedAt completedAt).storable =
      PyStr.storable (detail.take 1000) := by
  simp only [InvocationResult.storable, InvocationResult.failure, nullable, Json.storable,
    Json.storableMembers, Bool.true_and, Bool.and_true]

theorem terminalEvent_failure (code : ErrorCode) (detail : PyStr)
    (startedAt completedAt : Option Time) :
    (terminalEvent (InvocationResult.failure code detail startedAt completedAt).status).isSome =
      true := by
  simp only [InvocationResult.failure]
  split
  · rfl
  · split <;> rfl

/-- What the row records of the call can be stored exactly if the outcome can. -/
theorem outcomeResult_storable (o : AdapterOutcome) :
    ((terminalEvent (outcomeResult env budget startedAt o).status).isSome &&
      (outcomeResult env budget startedAt o).storable) = o.storable := by
  cases o with
  | result r => rfl
  | timeout =>
    simp only [outcomeResult, terminalEvent_failure, failure_storable, Bool.true_and,
      AdapterOutcome.storable]
    refine storable_take (textFits_iff.mpr ?_) 1000
    have htenths := textFits_iff.mp (textFits_formatTenths budget)
    simp only [String.toList_append, List.mem_append, not_or]
    exact ⟨⟨by decide, htenths⟩, by decide⟩
  | exception typeName text =>
    simp only [outcomeResult, terminalEvent_failure, failure_storable, Bool.true_and,
      AdapterOutcome.storable]
    -- what was cut to 500 characters is not cut again
    rw [PyStr.take, PyStr.take, List.take_take]
    rfl

end Row

/-! ## The commit -/

section Commit

variable {base : Session} {db : Db} {record current : InvocationRecord} {e : OutboxEvent}

/-- An update of an invocation moves no index value. -/
theorem updateInvocation_keys (id : Uuid) (loaded current : InvocationRecord) :
    (db.toRows.updateInvocation id (.merge loaded current)).keys = db.toRows.keys := by
  have hkeys : (db.invocations.map fun row => if row.id = id then
      InvocationRecord.merge loaded current row else row).flatMap InvocationRecord.keys =
        db.invocations.flatMap InvocationRecord.keys := by
    rw [List.flatMap_map]
    congr 1
    funext row
    split <;> rfl
  simp only [Rows.keys, Rows.updateInvocation, hkeys]

/-- The tables take the next state of a stored row exactly if its columns do: no index value is in
    the way. -/
theorem Session.Clean.written_takes (clean : base.Clean)
    (held : base.LoadedInvocation record.id record)
    (hstored : db.invocation record.id = some record)
    (hmerge : InvocationRecord.merge record current record = current)
    (he : current.fits = true → e.fits = true) :
    ((base.writingInvocation record.id current { outbox := [e] }).contents db).keys.Nodup ∧
      (((base.writingInvocation record.id current { outbox := [e] }).contents db).fits = true ↔
        current.fits = true) := by
  obtain ⟨inst, hinst, hload⟩ := held
  obtain ⟨hmem, -⟩ := lookup_mem hstored
  have hone : ∀ row ∈ db.invocations, row.id = record.id → row = record := by
    intro row hrow hid
    have hfound := Db.invocation_of_mem hrow
    rw [hid, hstored, Option.some.injEq] at hfound
    exact hfound.symm
  have hfits := db.valid.2
  simp only [Rows.fits, Bool.and_eq_true] at hfits
  obtain ⟨⟨⟨hconnectors, haudit⟩, hinvocations⟩, houtbox⟩ := hfits
  have hkeys : (db.toRows.updateInvocation record.id (.merge record current) ++
      ({ outbox := [e] } : Rows)).keys = db.toRows.keys := by
    rw [← updateInvocation_keys record.id record current]
    simp [Rows.keys]
  rw [clean.contents_writingInvocation hinst, hload, hkeys]
  refine ⟨db.valid.1, ?_⟩
  simp only [Rows.fits, Rows.updateInvocation, Rows.append_connectors, Rows.append_audit,
    Rows.append_invocations, Rows.append_outbox, List.append_nil, List.all_append, List.all_cons,
    List.all_nil, hconnectors, haudit, houtbox, Bool.true_and, Bool.and_true, Bool.and_eq_true,
    List.all_map, List.all_eq_true, Function.comp]
  constructor
  · rintro ⟨h, -⟩
    have hcurrent := h record hmem
    rwa [if_pos rfl, hmerge] at hcurrent
  · intro hcurrent
    refine ⟨fun row hrow => ?_, he hcurrent⟩
    split
    · rename_i hid
      rw [hone row hrow hid, hmerge]
      exact hcurrent
    · exact List.all_eq_true.mp hinvocations row hrow

end Commit

end FavlGateway.Registry
