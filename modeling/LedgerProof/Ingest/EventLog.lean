import LedgerProof.Worker.Handlers

/-!
# The event log

`ingest/dedupe.py` and the table of `migrations/003_stripe_events.sql` it works on.  The deduper
inserts a row and lets the two unique keys judge it; on a violation it reads the row that is in
the way, the one with the event's own id if there is one.  `mark_queued` moves a row forward
only from `received`.

Rows are never deleted, and of a row only the status changes.  `LogStep` lists every way the log
changes, with the reason for each status a worker writes as a parameter; `LogStep.grows`,
`LogStep.wf` and `LogStep.forall_rows` are what the results about the pipeline use of it.
-/

namespace LedgerProof

/-- Not in `NON_TERMINAL_STATUSES`: the status proves that the event is done with. -/
def Status.terminal : Status → Bool
  | .received | .queued => false
  | .processed | .noMoneyMoved | .failed => true

namespace EventLog

variable {log log' : EventLog} {id type : String} {oid : Option String} {st : Status} {e : Event}
  {r r' : EventRow}

/-! ## The deduper's statements -/

/-- One of the two unique keys is taken. -/
def taken (log : EventLog) (e : Event) (objectId : Option String) : Bool :=
  log.hasId e.id || log.hasKey e.type objectId

/-- The row that is in the way: `… WHERE id = … OR (event_type = … AND object_id = …)
ORDER BY (id = …) DESC LIMIT 1`. -/
def blocking (log : EventLog) (e : Event) (objectId : Option String) : Option EventRow :=
  (log.find? fun r => r.id = e.id).or
    (log.find? fun r => r.eventType = e.type && sqlEq r.objectId objectId)

/-- `mark_queued`: `UPDATE … SET status = 'queued' WHERE id = … AND status = 'received'`. -/
def markQueued (log : EventLog) (id : String) : EventLog :=
  log.update (fun r => r.id = id && r.status = .received) .queued

/-! ## Reading the statements -/

lemma hasId_iff : log.hasId id = true ↔ ∃ r ∈ log, r.id = id := by
  simp [hasId]

lemma hasKey_iff : log.hasKey type oid = true ↔
    ∃ r ∈ log, r.eventType = type ∧ sqlEq r.objectId oid = true := by
  simp [hasKey]

lemma taken_eq_false_iff : log.taken e oid = false ↔
    (∀ r ∈ log, r.id ≠ e.id) ∧
      ∀ r ∈ log, ¬(r.eventType = e.type ∧ sqlEq r.objectId oid = true) := by
  simp [taken, hasId, hasKey]

lemma mem_update {p : EventRow → Bool} :
    r' ∈ log.update p st ↔
      ∃ r ∈ log, (p r = true ∧ r' = { r with status := st }) ∨ (p r = false ∧ r' = r) := by
  simp only [update, List.mem_map]
  refine exists_congr fun r => and_congr_right fun _ => ?_
  cases h : p r <;> simp [eq_comm]

lemma mem_add : r ∈ log.add e oid st ↔ r ∈ log ∨ r = ⟨e.id, e.type, oid, e, st⟩ := by
  simp [add]

/-- A row that is in the way is there, and has the id or the object key. -/
lemma blocking_some (h : log.blocking e oid = some r) :
    r ∈ log ∧ (r.id = e.id ∨ (r.eventType = e.type ∧ sqlEq r.objectId oid = true)) := by
  rcases Option.or_eq_some_iff.mp h with hid | ⟨-, hkey⟩
  · exact ⟨List.mem_of_find?_eq_some hid, .inl (by simpa using List.find?_some hid)⟩
  · exact ⟨List.mem_of_find?_eq_some hkey, .inr (by simpa using List.find?_some hkey)⟩

lemma blocking_isSome (h : log.taken e oid = true) : (log.blocking e oid).isSome = true := by
  rcases Bool.or_eq_true_iff.mp h with hid | hkey
  · obtain ⟨r, hr, heq⟩ := hasId_iff.mp hid
    have : (log.find? fun r => r.id = e.id).isSome = true :=
      List.find?_isSome.mpr ⟨r, hr, by simpa using heq⟩
    simp [blocking, this]
  · obtain ⟨r, hr, htype, hobj⟩ := hasKey_iff.mp hkey
    have : (log.find? fun r => r.eventType = e.type && sqlEq r.objectId oid).isSome = true :=
      List.find?_isSome.mpr ⟨r, hr, by simp [htype, hobj]⟩
    simp [blocking, this]

/-! ## Well-formed logs -/

/-- What the table guarantees: ids are unique, object keys are unique, and a row's columns are
read off its payload. -/
structure Wf (log : EventLog) : Prop where
  id_nodup : (log.map (·.id)).Nodup
  object_dedupe : ∀ r ∈ log, ∀ r' ∈ log, r.eventType = r'.eventType →
    sqlEq r.objectId r'.objectId = true → r.id = r'.id
  payload : ∀ r ∈ log, r.payload.id = r.id ∧ r.payload.type = r.eventType ∧
    moneyMovementObjectId r.payload = .ok r.objectId

lemma Wf.nil : Wf [] := ⟨by simp, by simp, by simp⟩

lemma Wf.eq_of_id (h : log.Wf) (hr : r ∈ log) (hr' : r' ∈ log) (hid : r.id = r'.id) : r = r' :=
  List.inj_on_of_nodup_map h.id_nodup hr hr' hid

lemma Wf.update (h : log.Wf) (p : EventRow → Bool) (st : Status) : (log.update p st).Wf := by
  -- an updated row has the columns of the row it was
  have hcols : ∀ r' ∈ log.update p st, ∃ r ∈ log, r'.id = r.id ∧ r'.eventType = r.eventType ∧
      r'.objectId = r.objectId ∧ r'.payload = r.payload := by
    intro r' hr'
    obtain ⟨r, hr, ⟨-, rfl⟩ | ⟨-, rfl⟩⟩ := mem_update.mp hr'
    · exact ⟨r, hr, rfl, rfl, rfl, rfl⟩
    · exact ⟨r', hr, rfl, rfl, rfl, rfl⟩
  refine ⟨?_, ?_, ?_⟩
  · have hids : (log.update p st).map (·.id) = log.map (·.id) := by
      rw [EventLog.update, List.map_map]
      refine List.map_congr_left fun r _ => ?_
      simp only [Function.comp_apply]
      split <;> rfl
    rw [hids]
    exact h.id_nodup
  · intro r₁ h₁ r₂ h₂ htype hobj
    obtain ⟨s₁, hs₁, hid₁, ht₁, ho₁, -⟩ := hcols r₁ h₁
    obtain ⟨s₂, hs₂, hid₂, ht₂, ho₂, -⟩ := hcols r₂ h₂
    rw [hid₁, hid₂]
    exact h.object_dedupe s₁ hs₁ s₂ hs₂ (by rw [← ht₁, ← ht₂, htype]) (by rw [← ho₁, ← ho₂, hobj])
  · intro r' hr'
    obtain ⟨s, hs, hid, ht, ho, hp⟩ := hcols r' hr'
    rw [hid, ht, ho, hp]
    exact h.payload s hs

lemma Wf.add (h : log.Wf) (hfree : log.taken e oid = false)
    (hoid : moneyMovementObjectId e = .ok oid) (st : Status) : (log.add e oid st).Wf := by
  obtain ⟨hid, hkey⟩ := taken_eq_false_iff.mp hfree
  refine ⟨?_, ?_, ?_⟩
  · rw [EventLog.add, List.map_append]
    refine List.Nodup.append h.id_nodup (by simp) ?_
    simpa using hid
  · intro r₁ h₁ r₂ h₂ htype hobj
    rcases mem_add.mp h₁ with h₁ | rfl <;> rcases mem_add.mp h₂ with h₂ | rfl
    · exact h.object_dedupe r₁ h₁ r₂ h₂ htype hobj
    · exact absurd ⟨htype, hobj⟩ (hkey r₁ h₁)
    · exact absurd ⟨htype.symm, by rw [sqlEq_comm]; exact hobj⟩ (hkey r₂ h₂)
    · rfl
  · intro r hr
    rcases mem_add.mp hr with hr | rfl
    · exact h.payload r hr
    · exact ⟨rfl, rfl, hoid⟩

/-! ## Growth -/

/-- Every row stays, with its columns, and a terminal status stays terminal. -/
def Grows (log log' : EventLog) : Prop :=
  ∀ r ∈ log, ∃ st, { r with status := st } ∈ log' ∧ (r.status.terminal = true → st.terminal = true)

lemma Grows.refl (log : EventLog) : log.Grows log := fun r hr => ⟨r.status, hr, id⟩

lemma Grows.trans {log'' : EventLog} (h : log.Grows log') (h' : log'.Grows log'') :
    log.Grows log'' := by
  intro r hr
  obtain ⟨st, hst, hterm⟩ := h r hr
  obtain ⟨st', hst', hterm'⟩ := h' _ hst
  exact ⟨st', hst', fun ht => hterm' (hterm ht)⟩

lemma Grows.hasId (h : log.Grows log') (hid : log.hasId id = true) : log'.hasId id = true := by
  obtain ⟨r, hr, rfl⟩ := hasId_iff.mp hid
  obtain ⟨st, hst, -⟩ := h r hr
  exact hasId_iff.mpr ⟨_, hst, rfl⟩

lemma Grows.taken (h : log.Grows log') (htaken : log.taken e oid = true) :
    log'.taken e oid = true := by
  rcases Bool.or_eq_true_iff.mp htaken with hid | hkey
  · exact Bool.or_eq_true_iff.mpr (.inl (h.hasId hid))
  · obtain ⟨r, hr, htype, hobj⟩ := hasKey_iff.mp hkey
    obtain ⟨st, hst, -⟩ := h r hr
    exact Bool.or_eq_true_iff.mpr (.inr (hasKey_iff.mpr ⟨_, hst, htype, hobj⟩))

lemma grows_update {p : EventRow → Bool}
    (h : ∀ r ∈ log, p r = true → r.status.terminal = true → st.terminal = true) :
    log.Grows (log.update p st) := by
  intro r hr
  cases hp : p r with
  | true => exact ⟨st, mem_update.mpr ⟨r, hr, .inl ⟨hp, rfl⟩⟩, h r hr hp⟩
  | false => exact ⟨r.status, mem_update.mpr ⟨r, hr, .inr ⟨hp, rfl⟩⟩, id⟩

lemma grows_add : log.Grows (log.add e oid st) := fun r hr => ⟨r.status, mem_add.mpr (.inl hr), id⟩

end EventLog

/-! ## Every change of the log -/

/-- The log changes in five ways.  `Rec e` is the reason a request has for recording `e`, and
`Mark e st` the reason a worker has for giving the row of `e` the status `st`. -/
inductive LogStep (Rec : Event → Prop) (Mark : Event → Status → Prop) (log : EventLog) :
    EventLog → Prop
  | unchanged : LogStep Rec Mark log log
  | record {e : Event} {oid : Option String} (hrec : Rec e)
      (hoid : moneyMovementObjectId e = .ok oid) (hfree : log.taken e oid = false) :
      LogStep Rec Mark log (log.add e oid .received)
  | queue (id : String) : LogStep Rec Mark log (log.markQueued id)
  | mark {e : Event} {st : Status} (hmark : Mark e st) :
      LogStep Rec Mark log (log.setStatus e.id st)
  | insert {e : Event} {st : Status} {oid : Option String} (hmark : Mark e st)
      (hoid : moneyMovementObjectId e = .ok oid) (hfree : log.taken e oid = false) :
      LogStep Rec Mark log (log.add e oid st)

namespace LogStep

variable {Rec : Event → Prop} {Mark : Event → Status → Prop} {log log' : EventLog}

/-- The upsert updates, inserts, or is swallowed. -/
lemma upsert {e : Event} {st : Status} {oid : Option String} (hmark : Mark e st)
    (hoid : moneyMovementObjectId e = .ok oid) : LogStep Rec Mark log (log.upsert e oid st) := by
  unfold EventLog.upsert
  split_ifs with hid hkey
  · exact .mark hmark
  · exact .unchanged
  · exact .insert hmark hoid (by simp [EventLog.taken, hid, hkey])

lemma mono {Rec' : Event → Prop} {Mark' : Event → Status → Prop} (h : LogStep Rec Mark log log')
    (hrec : ∀ e, Rec e → Rec' e) (hmark : ∀ e st, Mark e st → Mark' e st) :
    LogStep Rec' Mark' log log' := by
  cases h with
  | unchanged => exact .unchanged
  | record hr hoid hfree => exact .record (hrec _ hr) hoid hfree
  | queue id => exact .queue id
  | mark hm => exact .mark (hmark _ _ hm)
  | insert hm hoid hfree => exact .insert (hmark _ _ hm) hoid hfree

lemma wf (h : LogStep Rec Mark log log') (hwf : log.Wf) : log'.Wf := by
  cases h with
  | unchanged => exact hwf
  | record hrec hoid hfree => exact hwf.add hfree hoid _
  | queue id => exact hwf.update _ _
  | mark hmark => exact hwf.update _ _
  | insert hmark hoid hfree => exact hwf.add hfree hoid _

/-- **The log grows**, as long as workers write terminal statuses. -/
lemma grows (h : LogStep Rec Mark log log') (hterm : ∀ e st, Mark e st → st.terminal = true) :
    log.Grows log' := by
  cases h with
  | unchanged => exact .refl _
  | record hrec hoid hfree => exact EventLog.grows_add
  | queue id =>
      refine EventLog.grows_update fun r _ hp ht => ?_
      have hst : r.status = .received := by
        simp only [Bool.and_eq_true, decide_eq_true_eq] at hp
        exact hp.2
      rw [hst] at ht
      exact ht
  | mark hmark => exact EventLog.grows_update fun _ _ _ _ => hterm _ _ hmark
  | insert hmark hoid hfree => exact EventLog.grows_add

/-- **A property of all rows is kept** when each kind of change keeps it. -/
lemma forall_rows {I : EventRow → Prop} (h : LogStep Rec Mark log log') (hI : ∀ r ∈ log, I r)
    (hrecord : ∀ e oid, Rec e → moneyMovementObjectId e = .ok oid → log.taken e oid = false →
      I ⟨e.id, e.type, oid, e, .received⟩)
    (hqueue : ∀ r ∈ log, r.status = .received → I { r with status := .queued })
    (hmark : ∀ r ∈ log, ∀ e st, Mark e st → r.id = e.id → I { r with status := st })
    (hinsert : ∀ e st oid, Mark e st → moneyMovementObjectId e = .ok oid →
      log.taken e oid = false → I ⟨e.id, e.type, oid, e, st⟩) :
    ∀ r ∈ log', I r := by
  intro r' hr'
  cases h with
  | unchanged => exact hI r' hr'
  | record hrec hoid hfree =>
      rcases EventLog.mem_add.mp hr' with hr | rfl
      · exact hI r' hr
      · exact hrecord _ _ hrec hoid hfree
  | queue id =>
      obtain ⟨r, hr, ⟨hp, rfl⟩ | ⟨-, rfl⟩⟩ := EventLog.mem_update.mp hr'
      · simp only [Bool.and_eq_true, decide_eq_true_eq] at hp
        exact hqueue r hr hp.2
      · exact hI r' hr
  | mark hm =>
      obtain ⟨r, hr, ⟨hp, rfl⟩ | ⟨-, rfl⟩⟩ := EventLog.mem_update.mp hr'
      · exact hmark r hr _ _ hm (by simpa using hp)
      · exact hI r' hr
  | insert hm hoid hfree =>
      rcases EventLog.mem_add.mp hr' with hr | rfl
      · exact hI r' hr
      · exact hinsert _ _ _ hm hoid hfree

end LogStep

end LedgerProof
