import LedgerProof.Pipeline.IngestSound

/-!
# An acknowledged event is never stranded

Once ingest has answered 200, either the row is in a terminal status or the broker still has a
message with its payload.  A message is lost only with a task that is finished, so the question
is what a task has done to the row of its event when it finishes.

A task that returned has marked the row.  A task whose retries are exhausted marks it `failed` and
raises; but a failure of that last write is swallowed, and the message goes with it.  And a task
whose message brings a trace context that cannot be read raises before it has done anything, outside
the `try` that would retry or mark.  Either way the row stays where it was, with nothing left to
move it on: `stranded_after_lost_mark` and `stranded_by_context` are such runs, and
`acknowledged_never_stranded` shows that there is no other way to lose an event.
-/

namespace LedgerProof

/-- The call gives the message up for good without a mark on its row: the extraction of the trace
context raises, or the dead-letter write fails without effect. -/
def Task.GivesUp (t : Task) (l : Luck) : Prop :=
  t.pc = .start ∧ traceReadable t.msg.payload = false ∧ l.outcome ≠ .ok ∨
  (t.pc = .update .failed ∨ t.pc = .insert .failed) ∧ l.outcome = .failBefore

/-- No message is given up without a mark while the row of its event is `received` or `queued`. -/
def KeepsOpenRows (s : State) (a : Act) : Prop :=
  ∀ i l t, a = .work i l → s.tasks[i]? = some t → t.GivesUp l →
    ∀ r ∈ s.log, r.id = t.msg.event.id → r.status.terminal = true

/-! ## Finished tasks -/

/-- The rows that store the event are in a terminal status. -/
def EventLog.Settled (log : EventLog) (e : Event) : Prop :=
  ∀ r ∈ log, stripTraceContext r.payload = e → r.status.terminal = true

namespace EventLog

variable {log : EventLog} {e : Event} {st : Status}

lemma Wf.id_of_strip (h : log.Wf) {r : EventRow} (hr : r ∈ log)
    (heq : stripTraceContext r.payload = e) : r.id = e.id := by
  rw [← heq, stripTraceContext_id, (h.payload r hr).1]

lemma settled_setStatus (hwf : log.Wf) (hterm : st.terminal = true) :
    (log.setStatus e.id st).Settled e := by
  intro r' hr' heq
  have hid := (hwf.update _ _).id_of_strip hr' heq
  obtain ⟨r, hr, ⟨-, rfl⟩ | ⟨hp, rfl⟩⟩ := mem_update.mp hr'
  · exact hterm
  · simp [hid] at hp

lemma settled_upsert (hwf : log.Wf) {oid : Option String} (hterm : st.terminal = true) :
    (log.upsert e oid st).Settled e := by
  unfold upsert
  by_cases hid : log.hasId e.id = true
  · rw [if_pos hid]
    exact settled_setStatus hwf hterm
  · have hnone : log.Settled e := fun r hr heq =>
      absurd (hasId_iff.mpr ⟨r, hr, hwf.id_of_strip hr heq⟩) hid
    rw [if_neg hid]
    split_ifs
    · exact hnone
    · intro r hr heq
      rcases mem_add.mp hr with hr | rfl
      · exact hnone r hr heq
      · exact hterm

end EventLog

section

variable {uuid5 : String → Uuid} {chart : Chart}

/-- A task's work ends with a status write, or before it has begun. -/
lemma TaskStep.ends_cases {L : Ledger} {log : EventLog} {t : Task} {r : TaskResult}
    (h : TaskStep uuid5 chart L log t r) (hends : t.Ends r) :
    t.pc = .start ∧ r.task = none ∨ ∃ st, t.pc = .update st ∨ t.pc = .insert st := by
  obtain ⟨hopen, hpub, hfin⟩ := hends
  cases h with
  | dropped hpc => exact .inl ⟨hpc, rfl⟩
  | retry hpc hlt => simp at hpub
  | acked hpc => exact absurd hpc hopen
  | marked hpc hid hnext => exact .inr ⟨_, .inl hpc⟩
  | upserted hpc hoid hnext => exact .inr ⟨_, .inr hpc⟩
  | mark_failed hpc => exact .inr ⟨_, hpc⟩
  | posted hpc hfree hW hnext =>
      have hpc' := hfin _ rfl
      rcases hnext with rfl | rfl <;> cases hpc'
  | _ =>
      have hpc' := hfin _ rfl
      cases hpc'

/-- A status write that fails finishes the task only if it was the dead-letter write. -/
lemma failedMark_eq_finished {st : Status} : failedMark st = .finished ↔ st = .failed := by
  cases st <;> simp [failedMark]

/-- A task that is gone after its first call had a context that could not be read. -/
lemma Task.givesUp_of_start {L : Ledger} {log : EventLog} {t : Task} {l : Luck}
    (hpc : t.pc = .start) (hr : (t.step uuid5 chart L log l).task = none) :
    t.GivesUp l ∧ (t.step uuid5 chart L log l).log = log := by
  unfold Task.step at hr ⊢
  simp only [hpc] at hr ⊢
  split_ifs at hr ⊢ with hread htype
  · exact ⟨.inl ⟨hpc, hread⟩, rfl⟩
  · split at hr <;> cases hr

/-- **A task whose work ends has settled its event**, unless it gave the message up. -/
lemma Task.step_settled {L : Ledger} {log : EventLog} (hwf : log.Wf) {t : Task} {l : Luck}
    (hstep : TaskStep uuid5 chart L log t (t.step uuid5 chart L log l))
    (hterm : ∀ e st, t.Marks e st → st.terminal = true)
    (hkeeps : t.GivesUp l → ∀ r ∈ log, r.id = t.msg.event.id → r.status.terminal = true)
    (hends : t.Ends (t.step uuid5 chart L log l)) :
    (t.step uuid5 chart L log l).log.Settled t.msg.event := by
  -- what a message that is given up leaves behind
  have hlost : t.GivesUp l → log.Settled t.msg.event := fun h r hr heq =>
    hkeeps h r hr (hwf.id_of_strip hr heq)
  obtain ⟨hpc, hnone⟩ | ⟨st, hpc | hpc⟩ := hstep.ends_cases hends
  · obtain ⟨hgives, hlog⟩ := Task.givesUp_of_start hpc hnone
    rw [hlog]
    exact hlost hgives
  · have hst : st.terminal = true := hterm _ st ⟨rfl, .inl hpc⟩
    have hfin := hends.2.2
    unfold Task.step at hfin ⊢
    simp only [hpc] at hfin ⊢
    cases hid : log.hasId t.msg.event.id with
    | true =>
        cases ho : l.outcome with
        | ok => exact EventLog.settled_setStatus hwf hst
        | failAfter => exact EventLog.settled_setStatus hwf hst
        | failBefore =>
            simp only [ho, hid] at hfin
            cases failedMark_eq_finished.mp (hfin _ rfl)
            exact hlost (.inr ⟨.inl hpc, ho⟩)
    | false =>
        have hnone : log.Settled t.msg.event := by
          intro r hr heq
          rw [EventLog.hasId_iff.mpr ⟨r, hr, hwf.id_of_strip hr heq⟩] at hid
          cases hid
        cases l.outcome <;> exact hnone
  · have hst : st.terminal = true := hterm _ st ⟨rfl, .inr hpc⟩
    have hfin := hends.2.2
    unfold Task.step at hfin ⊢
    simp only [hpc] at hfin ⊢
    cases hoid : moneyMovementObjectId t.msg.event with
    | error err =>
        -- no row stores such an event
        intro r hr heq
        obtain ⟨-, -, hobj⟩ := hwf.payload r hr
        rw [← moneyMovementObjectId_strip, heq, hoid] at hobj
        cases hobj
    | ok oid =>
        cases ho : l.outcome with
        | ok => exact EventLog.settled_upsert hwf hst
        | failAfter => exact EventLog.settled_upsert hwf hst
        | failBefore =>
            simp only [ho, hoid] at hfin
            cases failedMark_eq_finished.mp (hfin _ rfl)
            exact hlost (.inr ⟨.inr hpc, ho⟩)

end

/-- What a request says it enqueued, it had enqueued before or has just published. -/
lemma RequestStep.enqueued_cases {q : Request} {log : EventLog}
    {x : EventLog × Request × List Message} (h : RequestStep q log x) :
    x.2.1.enqueued = q.enqueued ∨ ∃ payload m, x.2.1.enqueued = some payload ∧ m ∈ x.2.2 ∧
      m.event = stripTraceContext payload := by
  cases h with
  | enqueued hpc =>
      exact .inr ⟨_, _, rfl, List.mem_singleton.mpr rfl, stripTraceContext_inject _ _⟩
  | _ => exact .inl rfl

/-! ## Runs -/

namespace State

variable {uuid5 : String → Uuid} {chart : Chart} {s : State}

/-- A row whose payload a request enqueued is in a terminal status, or its event is pending. -/
def Tended (s : State) : Prop :=
  ∀ q ∈ s.requests, ∀ r ∈ s.log, q.enqueued = some r.payload →
    r.status.terminal = true ∨ s.Pending (stripTraceContext r.payload)

/-- **A row that is tended stays so**, as long as no message is given up without a mark. -/
lemma Tended.row_next (h : s.Tended) (hb : s.Base chart) {a : Act} (hkeeps : KeepsOpenRows s a)
    {q : Request} (hq : q ∈ s.requests) {r' : EventRow} (hr' : r' ∈ (s.next uuid5 chart a).log)
    (henq : q.enqueued = some r'.payload) :
    r'.status.terminal = true ∨ (s.next uuid5 chart a).Pending (stripTraceContext r'.payload) := by
  have hwf : (s.next uuid5 chart a).log.Wf := (hb.next a).log
  have hgrows : s.log.Grows (s.next uuid5 chart a).log := hb.grows a
  obtain ⟨r, hr, -, hp⟩ := (hb.requests q hq).enqueued _ henq
  obtain ⟨st, hst, hterm⟩ := hgrows r hr
  -- the row is the one whose payload was enqueued, with a status of its own
  have hsame : r' = { r with status := st } := by
    refine hwf.eq_of_id hr' hst ?_
    rw [← (hwf.payload r' hr').1, ← hp]
    exact (hb.log.payload r hr).1
  rcases h q hq r hr (by rw [henq, hp]) with hdone | hpending
  · refine .inl ?_
    rw [hsame]
    exact hterm hdone
  · rw [hp] at hpending
    rcases hpending.next hb.ledger.toRowsAdmitted a with
      hstill | ⟨i, l, t, rfl, ht, hevent, hends, hlog⟩
    · exact .inr hstill
    · refine .inl ?_
      rw [hlog] at hr'
      refine Task.step_settled hb.log (Task.step_spec hb.ledger.toRowsAdmitted s.log t l)
        (fun e st hm => hb.marks e st ⟨t, List.mem_of_getElem? ht, hm⟩) (hkeeps i l t rfl ht) hends
        r' hr' hevent.symm

lemma Tended.next (h : s.Tended) (hb : s.Base chart) {a : Act} (hkeeps : KeepsOpenRows s a) :
    (s.next uuid5 chart a).Tended := by
  intro q' hq' r' hr' henq
  obtain ⟨j, hj⟩ := List.mem_iff_getElem?.mp hq'
  rcases next_request a hj with hold | ⟨e, -, -, rfl⟩ | ⟨q, x, hq, hstep, rfl, -, hready, -⟩
  · exact h.row_next hb hkeeps (List.mem_of_getElem? hold) hr' henq
  · cases henq
  · rcases hstep.enqueued_cases with hsame | ⟨payload, m, hpay, hm, hmp⟩
    · exact h.row_next hb hkeeps (List.mem_of_getElem? hq) hr' (hsame ▸ henq)
    · rw [hpay] at henq
      cases henq
      refine .inr (.inl ⟨m, ?_, hmp⟩)
      rw [hready]
      exact List.mem_append_right _ hm

end State

/-- The row that a 200 answer resolved to is in a terminal status, or the broker has a message with
its payload. -/
def State.NoneStranded (s : State) : Prop :=
  ∀ q ∈ s.requests, ∀ resp, q.pc = .answered resp → resp.isOk = true →
    ∃ r ∈ s.log, q.rowId = some r.id ∧
      (r.status.terminal = true ∨ ∃ m ∈ s.held, m.event = stripTraceContext r.payload)

/-- **An acknowledged event is never stranded**, in any run in which no message is given up without
a mark while its row is open. -/
theorem acknowledged_never_stranded (uuid5 : String → Uuid) (chart : Chart) (acts : List Act)
    (hkeeps : Guarded (State.next uuid5 chart) KeepsOpenRows .init acts) :
    (run uuid5 chart acts).NoneStranded := by
  have hinv : (run uuid5 chart acts).Base chart ∧ (run uuid5 chart acts).Tended :=
    hkeeps.inv (fun s => s.Base chart ∧ s.Tended)
      (fun s a h hG => ⟨h.1.next a, h.2.next h.1 hG⟩) ⟨.init, by simp [State.Tended, State.init]⟩
  intro q hq resp hpc hok
  obtain ⟨r, hr, hid, ⟨-, henq, -⟩ | ⟨-, hterm, -⟩⟩ := hinv.1.answered hq hpc hok
  · exact ⟨r, hr, hid, (hinv.2 q hq r hr henq).imp id State.Pending.held⟩
  · exact ⟨r, hr, hid, .inl hterm⟩

/-- A delivery is acknowledged, and its message taken until the retries are exhausted: six attempts
of so many calls each, then the dead-letter write. -/
def exhaustedRun (e : Event) (calls : ℕ) (l : Luck) : List Act :=
  [.deliver e, .request 0 .ok [], .request 0 .ok [], .request 0 .ok []] ++
    (List.replicate 6 (.take 0 :: List.replicate calls (.work 0 l))).flatten ++
    [.work 0 l, .work 0 l]

lemma Task.not_givesUp {t : Task} {l : Luck} (hl : l.outcome = .ok) : ¬t.GivesUp l := by
  rintro (⟨-, -, ho⟩ | ⟨-, ho⟩)
  · exact ho hl
  · rw [hl] at ho
    cases ho

/-- A run whose calls end well gives nothing up. -/
lemma exhaustedRun_keeps {uuid5 : String → Uuid} {chart : Chart} (e : Event) (calls : ℕ) {l : Luck}
    (hl : l.outcome = .ok) :
    Guarded (State.next uuid5 chart) KeepsOpenRows .init (exhaustedRun e calls l) := by
  refine .of_forall fun a ha s i l' t hact _ hgives => ?_
  -- every call of a task has the outcome of `l`
  have hluck : l' = l := by
    subst hact
    simp [exhaustedRun] at ha
    tauto
  exact absurd hgives (Task.not_givesUp (hluck ▸ hl))

/-- A payout without an amount raises on every attempt, and its row ends as `failed`. -/
def brokenPayout : Event :=
  .ofObject "evt_1" "payout.paid" 1700000000 [("id", .str "po_1")] []

theorem acknowledged_never_stranded_broken :
    (run sampleUuid5 seedChart (exhaustedRun brokenPayout 2 ⟨none, none, .ok⟩)).NoneStranded ∧
      (run sampleUuid5 seedChart (exhaustedRun brokenPayout 2 ⟨none, none, .ok⟩)).log.map
        (·.status) = [.failed] :=
  ⟨acknowledged_never_stranded _ _ _ (exhaustedRun_keeps _ _ rfl), rfl⟩

/-- With the database down for the worker, the acknowledged payout stays `queued` and no message
is left. -/
theorem stranded_after_lost_mark :
    ¬(run sampleUuid5 seedChart (exhaustedRun (samplePayout "evt_1" "po_1") 3
      ⟨none, none, .failBefore⟩)).NoneStranded := by
  intro h
  have hrequests : (run sampleUuid5 seedChart (exhaustedRun (samplePayout "evt_1" "po_1") 3
      ⟨none, none, .failBefore⟩)).requests = [⟨samplePayout "evt_1" "po_1", .answered .queued,
        some ⟨true, none, none, none⟩, some (samplePayout "evt_1" "po_1")⟩] := rfl
  have hlog : (run sampleUuid5 seedChart (exhaustedRun (samplePayout "evt_1" "po_1") 3
      ⟨none, none, .failBefore⟩)).log = [⟨"evt_1", "payout.paid", some "po_1",
        samplePayout "evt_1" "po_1", .queued⟩] := rfl
  have hheld : (run sampleUuid5 seedChart (exhaustedRun (samplePayout "evt_1" "po_1") 3
      ⟨none, none, .failBefore⟩)).held = [] := rfl
  obtain ⟨r, hr, -, hdone | ⟨m, hm, -⟩⟩ :=
    h _ (hrequests ▸ List.mem_singleton.mpr rfl) .queued rfl rfl
  · rw [hlog, List.mem_singleton] at hr
    rw [hr] at hdone
    cases hdone
  · rw [hheld] at hm
    cases hm

/-- A payout whose payload has a number for its `traceparent`. -/
def unreadablePayout : Event :=
  .ofObject "evt_1" "payout.paid" 1700000000 [("id", .str "po_1"), ("amount", .int 1000)]
    [(traceContextKey, .obj [("traceparent", .int 1)])]

/-- The payout is acknowledged, the extraction raises, and the row stays `queued`. -/
theorem stranded_by_context :
    ¬(run sampleUuid5 seedChart [.deliver unreadablePayout, .request 0 .ok [], .request 0 .ok [],
      .request 0 .ok [], .take 0, .work 0 ⟨none, none, .failBefore⟩]).NoneStranded := by
  intro h
  obtain ⟨r, hr, -, hdone | ⟨m, hm, -⟩⟩ := h _ (List.mem_singleton.mpr rfl) .queued rfl rfl
  · rw [List.mem_singleton.mp hr] at hdone
    cases hdone
  · cases hm

end LedgerProof
