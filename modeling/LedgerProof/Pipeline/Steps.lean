import LedgerProof.Pipeline.System

/-!
# What one step can do

The steps of `Pipeline/System.lean`, inverted once.  `TaskStep` lists what a call of a worker task
does to the tables and to the task; `State.next_log`, `State.next_ledger`, `State.next_task`,
`State.next_request` and `State.next_ready` say the same of a step of the whole system, one
component at a time, and every invariant of the pipeline is derived from them.
-/

namespace LedgerProof

/-! ## Trace context -/

@[simp] lemma stripTraceContext_id (e : Event) : (stripTraceContext e).id = e.id := rfl

@[simp] lemma stripTraceContext_type (e : Event) : (stripTraceContext e).type = e.type := rfl

/-- Stripping undoes injecting, up to what the payload carried under the key itself. -/
@[simp] lemma stripTraceContext_inject (carrier : List (String × String)) (e : Event) :
    stripTraceContext (injectTraceContext carrier e) = stripTraceContext e := by
  unfold injectTraceContext
  by_cases hc : carrier = []
  · simp [hc]
  · by_cases hkey : (e.fields.lookup traceContextKey).isSome = true
    · simp only [hc, if_false, hkey, if_true, stripTraceContext]
      congr 1
      induction e.fields with
      | nil => rfl
      | cons f fields ih =>
          by_cases hf : f.1 = traceContextKey
          · simp [hf] at ih ⊢
            exact ih
          · simp [hf] at ih ⊢
            exact ih
    · simp [hc, hkey, stripTraceContext]

lemma lookup_filter_ne (fields : List (String × Json)) {key key' : String} (h : key ≠ key') :
    (fields.filter fun f => f.1 ≠ key').lookup key = fields.lookup key := by
  induction fields with
  | nil => rfl
  | cons f fields ih =>
      by_cases hf : f.1 = key'
      · have : (key == f.1) = false := by simpa [hf] using h
        rw [List.filter_cons_of_neg (by simpa using hf), ih, List.lookup_cons, this]
      · rw [List.filter_cons_of_pos (by simpa using hf), List.lookup_cons, List.lookup_cons, ih]

@[simp] lemma moneyMovementObjectId_strip (e : Event) :
    moneyMovementObjectId (stripTraceContext e) = moneyMovementObjectId e := by
  unfold moneyMovementObjectId
  rw [Event.getD_payload _ (by decide) (by decide), Event.getD_payload _ (by decide) (by decide)]
  have hlookup : (stripTraceContext e).fields.lookup "data" = e.fields.lookup "data" :=
    lookup_filter_ne _ (by decide)
  rw [hlookup]
  rfl

/-! ## One call of a task -/

/-- The task goes on at `pc`. -/
def Task.goto (t : Task) (L : Ledger) (log : EventLog) (pc : TaskPc) : TaskResult :=
  ⟨L, log, some { t with pc := pc }, []⟩

/-- What a call of a task comes to. -/
inductive TaskStep (uuid5 : String → Uuid) (chart : Chart) (L : Ledger) (log : EventLog)
    (t : Task) : TaskResult → Prop
  /-- The extraction of the trace context raised. -/
  | dropped (hpc : t.pc = .start) : TaskStep uuid5 chart L log t ⟨L, log, none, []⟩
  /-- The event moves no money. -/
  | no_money (hpc : t.pc = .start) (h : t.msg.event.type ∉ handledEventTypes ∨
      t.msg.event.type = "invoice.payment_failed") :
      TaskStep uuid5 chart L log t (t.goto L log (.update .noMoneyMoved))
  | mapped {client : Option Client} {txn : LedgerTransaction} (hpc : t.pc = .start)
      (htype : t.msg.event.type ∈ handledEventTypes)
      (hmap : mapEvent uuid5 client t.msg.event = .ok (some txn)) :
      TaskStep uuid5 chart L log t (t.goto L log (.post txn 4))
  /-- The transaction is committed; whether the task learns of it is another matter. -/
  | posted {txn : LedgerTransaction} {n : ℕ} {W : Ledger} {pc : TaskPc} (hpc : t.pc = .post txn n)
      (hfree : L.conflict txn.row = none) (hW : txn.writes chart = .ok W)
      (hnext : pc = .update .processed ∨ pc = .raised) :
      TaskStep uuid5 chart L log t (t.goto (L.append W) log pc)
  | duplicate {txn : LedgerTransaction} {n : ℕ} {c : String} (hpc : t.pc = .post txn n)
      (hconf : L.conflict txn.row = some c) :
      TaskStep uuid5 chart L log t (t.goto L log (.update .processed))
  | again {txn : LedgerTransaction} {n : ℕ} (hpc : t.pc = .post txn (n + 1)) :
      TaskStep uuid5 chart L log t (t.goto L log (.post txn n))
  /-- Mapping or posting raised. -/
  | raised (hpc : t.pc = .start ∨ ∃ txn n, t.pc = .post txn n) :
      TaskStep uuid5 chart L log t (t.goto L log .raised)
  /-- The `UPDATE` found the row. -/
  | marked {st : Status} {pc : TaskPc} (hpc : t.pc = .update st)
      (hid : log.hasId t.msg.event.id = true) (hnext : pc = .finished ∨ pc = failedMark st) :
      TaskStep uuid5 chart L log t (t.goto L (log.setStatus t.msg.event.id st) pc)
  | no_row {st : Status} (hpc : t.pc = .update st) (hid : log.hasId t.msg.event.id = false) :
      TaskStep uuid5 chart L log t (t.goto L log (.insert st))
  | upserted {st : Status} {pc : TaskPc} {oid : Option String} (hpc : t.pc = .insert st)
      (hoid : moneyMovementObjectId t.msg.event = .ok oid)
      (hnext : pc = .finished ∨ pc = failedMark st) :
      TaskStep uuid5 chart L log t (t.goto L (log.upsert t.msg.event oid st) pc)
  /-- The status write failed without effect. -/
  | mark_failed {st : Status} (hpc : t.pc = .update st ∨ t.pc = .insert st) :
      TaskStep uuid5 chart L log t (t.goto L log (failedMark st))
  | retry (hpc : t.pc = .raised) (hlt : t.msg.retries < maxRetries) :
      TaskStep uuid5 chart L log t ⟨L, log, none, [⟨t.msg.payload, t.msg.retries + 1⟩]⟩
  | exhausted (hpc : t.pc = .raised) (hge : maxRetries ≤ t.msg.retries) :
      TaskStep uuid5 chart L log t (t.goto L log (.update .failed))
  | acked (hpc : t.pc = .finished) : TaskStep uuid5 chart L log t ⟨L, log, none, []⟩

section

variable {uuid5 : String → Uuid} {chart : Chart}

lemma mapEvent_none {client : Option Client} {e : Event}
    (h : mapEvent uuid5 client e = .ok none) : e.type = "invoice.payment_failed" := by
  have hbuild : ∃ fee, buildTransaction uuid5 e fee = .ok none := by
    unfold mapEvent at h
    split at h
    · obtain ⟨fee, -, hbuild⟩ := except_bind_eq_ok.mp h
      exact ⟨fee, hbuild⟩
    · exact ⟨.null, h⟩
  obtain ⟨fee, hbuild⟩ := hbuild
  exact buildTransaction_none hbuild

lemma Task.step_post {L : Ledger} (hL : L.RowsAdmitted chart) {log : EventLog} {t : Task}
    {txn : LedgerTransaction} {n : ℕ} (hpc : t.pc = .post txn n) (l : Luck) :
    TaskStep uuid5 chart L log t (t.step uuid5 chart L log l) := by
  unfold Task.step
  simp only [hpc]
  cases l.outcome with
  | failBefore => exact .raised (.inr ⟨txn, n, hpc⟩)
  | failAfter =>
      dsimp only
      rcases attempt_fault chart L txn l.fault with h | h
      · rw [h]
        rcases post_cases hL txn with ⟨W, hW, hc, -, hl⟩ | ⟨c, hc, -, hl⟩ | ⟨err, -, hl, -⟩
        · rw [hl]
          exact .posted hpc hc hW (.inr rfl)
        · rw [hl]
          exact .raised (.inr ⟨txn, n, hpc⟩)
        · rw [hl]
          exact .raised (.inr ⟨txn, n, hpc⟩)
      · rw [h]
        exact .raised (.inr ⟨txn, n, hpc⟩)
  | ok =>
      dsimp only
      rcases attempt_fault chart L txn l.fault with h | h
      · have hcases := post_cases hL txn
        rw [h]
        generalize attempt chart L txn none = p at hcases
        obtain ⟨r, L'⟩ := p
        split
        · rename_i heq
          obtain ⟨rfl, rfl⟩ := Prod.mk.inj heq
          have hl : L' = L := by
            rcases hcases with ⟨_, -, -, ho, -⟩ | ⟨_, -, -, hl⟩ | ⟨_, -, hl, -⟩
            · simp [postOutcome] at ho
            · exact hl
            · exact hl
          subst hl
          cases n with
          | zero => exact .raised (.inr ⟨txn, 0, hpc⟩)
          | succ n => exact .again hpc
        · rename_i heq
          obtain ⟨rfl, rfl⟩ := Prod.mk.inj heq
          rcases hcases with ⟨W, hW, hc, ho, hl⟩ | ⟨c, hc, ho, hl⟩ | ⟨err, ho, hl, -⟩
          · obtain rfl : L' = L.append W := hl
            simp only [ho]
            exact .posted hpc hc hW (.inl rfl)
          · obtain rfl : L' = L := hl
            simp only [ho]
            exact .duplicate hpc hc
          · obtain rfl : L' = L := hl
            simp only [ho]
            exact .raised (.inr ⟨txn, n, hpc⟩)
      · rw [h]
        cases n with
        | zero => exact .raised (.inr ⟨txn, 0, hpc⟩)
        | succ n => exact .again hpc

/-- **A call of a task does one of these.** -/
lemma Task.step_spec {L : Ledger} (hL : L.RowsAdmitted chart) (log : EventLog) (t : Task)
    (l : Luck) :
    TaskStep uuid5 chart L log t (t.step uuid5 chart L log l) := by
  cases hpc : t.pc with
  | start =>
      unfold Task.step
      simp only [hpc]
      split
      · exact .dropped hpc
      by_cases htype : t.msg.event.type ∈ handledEventTypes
      · simp only [htype, not_true_eq_false, if_false]
        cases hmap : mapEvent uuid5 l.client t.msg.event with
        | error err => exact .raised (.inl hpc)
        | ok r =>
            cases r with
            | none => exact .no_money hpc (.inr (mapEvent_none hmap))
            | some txn => exact .mapped hpc htype hmap
      · simp only [htype, not_false_eq_true, if_true]
        exact .no_money hpc (.inl htype)
  | post txn n => exact Task.step_post hL hpc l
  | update st =>
      unfold Task.step
      simp only [hpc]
      cases l.outcome <;> cases hid : log.hasId t.msg.event.id
      · exact .no_row hpc hid
      · exact .marked hpc hid (.inl rfl)
      · exact .mark_failed (.inl hpc)
      · exact .mark_failed (.inl hpc)
      · exact .mark_failed (.inl hpc)
      · exact .marked hpc hid (.inr rfl)
  | insert st =>
      unfold Task.step
      simp only [hpc]
      cases hoid : moneyMovementObjectId t.msg.event with
      | error err => exact .mark_failed (.inr hpc)
      | ok oid =>
          cases l.outcome with
          | ok => exact .upserted hpc hoid (.inl rfl)
          | failBefore => exact .mark_failed (.inr hpc)
          | failAfter => exact .upserted hpc hoid (.inr rfl)
  | raised =>
      unfold Task.step
      simp only [hpc]
      split_ifs with hlt
      · exact .retry hpc hlt
      · exact .exhausted hpc (not_lt.mp hlt)
  | finished =>
      unfold Task.step
      simp only [hpc]
      exact .acked hpc

/-- A task is about to give the row of `e` the status `st`. -/
def Task.Marks (t : Task) (e : Event) (st : Status) : Prop :=
  e = t.msg.event ∧ (t.pc = .update st ∨ t.pc = .insert st)

lemma TaskStep.logStep {L : Ledger} {log : EventLog} {t : Task} {r : TaskResult}
    (h : TaskStep uuid5 chart L log t r) : LogStep (fun _ => False) t.Marks log r.log := by
  cases h with
  | marked hpc hid hnext => exact .mark ⟨rfl, .inl hpc⟩
  | upserted hpc hoid hnext => exact .upsert ⟨rfl, .inr hpc⟩ hoid
  | _ => exact .unchanged

lemma TaskStep.ledger_cases {L : Ledger} {log : EventLog} {t : Task} {r : TaskResult}
    (h : TaskStep uuid5 chart L log t r) :
    r.ledger = L ∨ ∃ txn n W, t.pc = .post txn n ∧ L.conflict txn.row = none ∧
      txn.writes chart = .ok W ∧ r.ledger = L.append W := by
  cases h with
  | posted hpc hfree hW hnext => exact .inr ⟨_, _, _, hpc, hfree, hW, rfl⟩
  | _ => exact .inl rfl

lemma TaskStep.log_of_post {L : Ledger} {log : EventLog} {t : Task} {r : TaskResult}
    (h : TaskStep uuid5 chart L log t r) {txn : LedgerTransaction} {n : ℕ}
    (hpc : t.pc = .post txn n) : r.log = log := by
  cases h with
  | marked hpc' hid hnext =>
      rw [hpc] at hpc'
      cases hpc'
  | upserted hpc' hoid hnext =>
      rw [hpc] at hpc'
      cases hpc'
  | _ => rfl

/-- Which status a task is about to write after a call, and why. -/
lemma TaskStep.marks_cases {L : Ledger} {log : EventLog} {t t' : Task} {r : TaskResult}
    (h : TaskStep uuid5 chart L log t r) (ht' : r.task = some t') {e : Event} {st : Status}
    (hmark : t'.Marks e st) :
    t.Marks e st ∨
    (st = .noMoneyMoved ∧ e = t.msg.event ∧ (e.type ∉ handledEventTypes ∨
      e.type = "invoice.payment_failed")) ∨
    (st = .processed ∧ e = t.msg.event ∧ ∃ txn n, t.pc = .post txn n ∧
      ((∃ W, txn.writes chart = .ok W ∧ r.ledger = L.append W) ∨
        ((∃ c, L.conflict txn.row = some c) ∧ r.ledger = L))) ∨
    (st = .failed ∧ e = t.msg.event ∧ t.pc = .raised) := by
  obtain ⟨rfl, hpc'⟩ := hmark
  cases h with
  | dropped hpc => cases ht'
  | retry hpc hlt => cases ht'
  | acked hpc => cases ht'
  | no_money hpc h =>
      cases ht'
      rcases hpc' with h' | h' <;> cases h'
      exact .inr (.inl ⟨rfl, rfl, h⟩)
  | posted hpc hfree hW hnext =>
      cases ht'
      rcases hnext with rfl | rfl <;> rcases hpc' with h' | h' <;> cases h'
      exact .inr (.inr (.inl ⟨rfl, rfl, _, _, hpc, .inl ⟨_, hW, rfl⟩⟩))
  | duplicate hpc hconf =>
      cases ht'
      rcases hpc' with h' | h' <;> cases h'
      exact .inr (.inr (.inl ⟨rfl, rfl, _, _, hpc, .inr ⟨⟨_, hconf⟩, rfl⟩⟩))
  | no_row hpc hid =>
      cases ht'
      rcases hpc' with h' | h' <;> cases h'
      exact .inl ⟨rfl, .inl hpc⟩
  | exhausted hpc hge =>
      cases ht'
      rcases hpc' with h' | h' <;> cases h'
      exact .inr (.inr (.inr ⟨rfl, rfl, hpc⟩))
  | @marked st' pc hpc hid hnext =>
      cases ht'
      rcases hnext with rfl | rfl <;> cases st' <;> rcases hpc' with h' | h' <;> cases h'
  | @upserted st' pc oid hpc hoid hnext =>
      cases ht'
      rcases hnext with rfl | rfl <;> cases st' <;> rcases hpc' with h' | h' <;> cases h'
  | @mark_failed st' hpc =>
      cases ht'
      cases st' <;> rcases hpc' with h' | h' <;> cases h'
  | _ =>
      cases ht'
      rcases hpc' with h' | h' <;> cases h'

/-- A transaction a task is about to post was mapped from its event. -/
lemma TaskStep.post_cases {L : Ledger} {log : EventLog} {t t' : Task} {r : TaskResult}
    (h : TaskStep uuid5 chart L log t r) (ht' : r.task = some t') {txn : LedgerTransaction} {n : ℕ}
    (hpc' : t'.pc = .post txn n) :
    t.pc = .post txn (n + 1) ∨ (t.msg.event.type ∈ handledEventTypes ∧
      ∃ client, mapEvent uuid5 client t.msg.event = .ok (some txn)) := by
  cases h with
  | dropped hpc => cases ht'
  | retry hpc hlt => cases ht'
  | acked hpc => cases ht'
  | mapped hpc htype hmap =>
      cases ht'
      cases hpc'
      exact .inr ⟨htype, _, hmap⟩
  | again hpc =>
      cases ht'
      cases hpc'
      exact .inl hpc
  | posted hpc hfree hW hnext =>
      cases ht'
      rcases hnext with rfl | rfl <;> cases hpc'
  | @marked st' pc hpc hid hnext =>
      cases ht'
      rcases hnext with rfl | rfl <;> cases st' <;> cases hpc'
  | @upserted st' pc oid hpc hoid hnext =>
      cases ht'
      rcases hnext with rfl | rfl <;> cases st' <;> cases hpc'
  | @mark_failed st' hpc =>
      cases ht'
      cases st' <;> cases hpc'
  | _ =>
      cases ht'
      cases hpc'

/-- A task's message stays with it, is published again, or is gone with a task that is finished or
had not begun. -/
lemma TaskStep.message {L : Ledger} {log : EventLog} {t : Task} {r : TaskResult}
    (h : TaskStep uuid5 chart L log t r) :
    (∃ t', r.task = some t' ∧ t'.msg = t.msg ∧ r.published = []) ∨
      (r.task = none ∧ r.published = [⟨t.msg.payload, t.msg.retries + 1⟩]) ∨
      (r.task = none ∧ r.published = [] ∧ (t.pc = .finished ∨ t.pc = .start)) := by
  cases h with
  | dropped hpc => exact .inr (.inr ⟨rfl, rfl, .inr hpc⟩)
  | retry hpc hlt => exact .inr (.inl ⟨rfl, rfl⟩)
  | acked hpc => exact .inr (.inr ⟨rfl, rfl, .inl hpc⟩)
  | _ => exact .inl ⟨_, rfl, rfl, rfl⟩

/-- The call ends the work on the task's message: it leaves neither a retry nor a task that is not
finished. -/
def Task.Ends (t : Task) (r : TaskResult) : Prop :=
  t.pc ≠ .finished ∧ r.published = [] ∧ ∀ t', r.task = some t' → t'.pc = .finished

lemma TaskStep.msg_eq {L : Ledger} {log : EventLog} {t t' : Task} {r : TaskResult}
    (h : TaskStep uuid5 chart L log t r) (ht' : r.task = some t') : t'.msg = t.msg := by
  rcases h.message with ⟨t₁, hr, hmsg, -⟩ | ⟨hr, -⟩ | ⟨hr, -⟩
  · rw [hr] at ht'
    cases ht'
    exact hmsg
  · simp [hr] at ht'
  · simp [hr] at ht'

end

/-! ## One call of a request -/

/-- The request is answered with an error. -/
def Request.fail (q : Request) : Request := { q with pc := .answered .error }

/-- What a call of a request comes to: the log, the request, and what was published. -/
inductive RequestStep (q : Request) (log : EventLog) : EventLog × Request × List Message → Prop
  | failed : RequestStep q log (log, q.fail, [])
  | recorded {oid : Option String} (hpc : q.pc = .record)
      (hoid : moneyMovementObjectId q.event = .ok oid) (hfree : log.taken q.event oid = false) :
      RequestStep q log (log.add q.event oid .received,
        { q with pc := .enqueue q.event q.event.id, result := some ⟨true, none, none, none⟩ }, [])
  | recorded_unseen {oid : Option String} (hpc : q.pc = .record)
      (hoid : moneyMovementObjectId q.event = .ok oid) (hfree : log.taken q.event oid = false) :
      RequestStep q log (log.add q.event oid .received, q.fail, [])
  | conflict {oid : Option String} (hpc : q.pc = .record)
      (hoid : moneyMovementObjectId q.event = .ok oid) (htaken : log.taken q.event oid = true) :
      RequestStep q log (log, { q with pc := .select }, [])
  | read_done {oid : Option String} {r : EventRow} (hpc : q.pc = .select)
      (hoid : moneyMovementObjectId q.event = .ok oid) (hrow : log.blocking q.event oid = some r)
      (hterm : r.status.terminal = true) :
      RequestStep q log (log, { q with
        pc := .answered .duplicate
        result := some ⟨false, some r.id, some r.status, some r.payload⟩ }, [])
  | read_open {oid : Option String} {r : EventRow} (hpc : q.pc = .select)
      (hoid : moneyMovementObjectId q.event = .ok oid) (hrow : log.blocking q.event oid = some r) :
      RequestStep q log (log, { q with
        pc := .enqueue r.payload r.id
        result := some ⟨false, some r.id, some r.status, some r.payload⟩ }, [])
  | read_nothing {oid : Option String} (hpc : q.pc = .select)
      (hoid : moneyMovementObjectId q.event = .ok oid) (hrow : log.blocking q.event oid = none) :
      RequestStep q log (log, { q with
        pc := .answered .duplicate
        result := some ⟨false, none, none, none⟩ }, [])
  | enqueued {payload : Event} {rowId : String} {carrier : List (String × String)}
      (hpc : q.pc = .enqueue payload rowId) :
      RequestStep q log (log, { q with pc := .markQueued rowId, enqueued := some payload },
        [⟨injectTraceContext carrier payload, 0⟩])
  | enqueued_unseen {payload : Event} {rowId : String} {carrier : List (String × String)}
      (hpc : q.pc = .enqueue payload rowId) :
      RequestStep q log (log, q.fail, [⟨injectTraceContext carrier payload, 0⟩])
  | queued {rowId : String} (hpc : q.pc = .markQueued rowId) :
      RequestStep q log (log.markQueued rowId, { q with pc := .answered .queued }, [])
  | queued_unseen {rowId : String} (hpc : q.pc = .markQueued rowId) :
      RequestStep q log (log.markQueued rowId, q.fail, [])
  | idle {response : Response} (hpc : q.pc = .answered response) : RequestStep q log (log, q, [])

/-- **A call of a request does one of these.** -/
lemma Request.step_spec (q : Request) (log : EventLog) (o : Outcome)
    (carrier : List (String × String)) : RequestStep q log (q.step log o carrier) := by
  unfold Request.step
  cases hpc : q.pc with
  | record =>
      dsimp only
      cases hoid : moneyMovementObjectId q.event with
      | error err => exact .failed
      | ok oid =>
          cases htaken : log.taken q.event oid with
          | true =>
              simp only [htaken, if_true]
              cases o with
              | ok => exact .conflict hpc hoid htaken
              | failBefore => exact .failed
              | failAfter => exact .failed
          | false =>
              simp only [htaken, Bool.false_eq_true, if_false]
              cases o with
              | ok => exact .recorded hpc hoid htaken
              | failBefore => exact .failed
              | failAfter => exact .recorded_unseen hpc hoid htaken
  | select =>
      dsimp only
      cases o with
      | ok =>
          cases hoid : moneyMovementObjectId q.event with
          | error err => exact .failed
          | ok oid =>
              dsimp only
              cases hrow : log.blocking q.event oid with
              | none => exact .read_nothing hpc hoid hrow
              | some r =>
                  dsimp only
                  split_ifs with hterm
                  · exact .read_done hpc hoid hrow hterm
                  · exact .read_open hpc hoid hrow
      | failBefore => exact .failed
      | failAfter => exact .failed
  | enqueue payload rowId =>
      cases o with
      | ok => exact .enqueued hpc
      | failBefore => exact .failed
      | failAfter => exact .enqueued_unseen hpc
  | markQueued rowId =>
      cases o with
      | ok => exact .queued hpc
      | failBefore => exact .failed
      | failAfter => exact .queued_unseen hpc
  | answered response => exact .idle hpc

namespace RequestStep

variable {q : Request} {log : EventLog} {x : EventLog × Request × List Message}

lemma logStep (h : RequestStep q log x) : LogStep (· = q.event) (fun _ _ => False) log x.1 := by
  cases h with
  | recorded hpc hoid hfree => exact .record rfl hoid hfree
  | recorded_unseen hpc hoid hfree => exact .record rfl hoid hfree
  | queued hpc => exact .queue _
  | queued_unseen hpc => exact .queue _
  | _ => exact .unchanged

lemma event_eq (h : RequestStep q log x) : x.2.1.event = q.event := by
  cases h <;> rfl

lemma published (h : RequestStep q log x) {m : Message} (hm : m ∈ x.2.2) :
    ∃ payload rowId, q.pc = .enqueue payload rowId ∧ m.event = stripTraceContext payload := by
  cases h with
  | enqueued hpc =>
      rw [List.mem_singleton.mp hm]
      exact ⟨_, _, hpc, stripTraceContext_inject _ _⟩
  | enqueued_unseen hpc =>
      rw [List.mem_singleton.mp hm]
      exact ⟨_, _, hpc, stripTraceContext_inject _ _⟩
  | _ => simp at hm

end RequestStep

/-! ## One step of the system -/

/-- The event an action brings in from outside. -/
def Act.event : Act → Option Event
  | .deliver e => some e
  | .inject e _ => some e
  | _ => none

/-- Every message the broker still answers for: ready, scheduled, or held by a task. -/
def State.held (s : State) : List Message := s.ready ++ s.tasks.map (·.msg)

/-- Some task is about to give the row of `e` the status `st`. -/
def State.Marks (s : State) (e : Event) (st : Status) : Prop := ∃ t ∈ s.tasks, t.Marks e st

lemma mem_eraseIdx_or {α : Type} {l : List α} {i : ℕ} {x y : α} (hx : l[i]? = some x) (hy : y ∈ l) :
    y = x ∨ y ∈ l.eraseIdx i := by
  obtain ⟨hi, rfl⟩ := List.getElem?_eq_some_iff.mp hx
  exact List.mem_cons.mp ((List.getElem_cons_eraseIdx_perm hi).mem_iff.mpr hy)

lemma mem_set_or {α : Type} {l : List α} {i : ℕ} {x y z : α} (hx : l[i]? = some x) (hy : y ∈ l) :
    y = x ∨ y ∈ l.set i z := by
  obtain ⟨hi, -⟩ := List.getElem?_eq_some_iff.mp hx
  rcases mem_eraseIdx_or hx hy with h | h
  · exact .inl h
  · exact .inr ((List.set_perm_cons_eraseIdx hi z).mem_iff.mpr (List.mem_cons_of_mem _ h))

namespace State

variable {uuid5 : String → Uuid} {chart : Chart} {s : State}

/-- The log changes only by the request or the task that makes the call. -/
lemma next_log_acting (hL : s.ledger.RowsAdmitted chart) (a : Act) :
    LogStep (fun e => ∃ q ∈ s.requests, e = q.event)
      (fun e st => ∃ i l t, a = .work i l ∧ s.tasks[i]? = some t ∧ t.Marks e st)
      s.log (s.next uuid5 chart a).log := by
  cases a with
  | request i o carrier =>
      cases hq : s.requests[i]? with
      | none =>
          simp only [next, hq]
          exact .unchanged
      | some q =>
          simp only [next, hq]
          exact (q.step_spec s.log o carrier).logStep.mono
            (fun e h => ⟨q, List.mem_of_getElem? hq, h⟩) (fun _ _ h => h.elim)
  | work i l =>
      cases ht : s.tasks[i]? with
      | none =>
          simp only [next, ht]
          exact .unchanged
      | some t =>
          simp only [next, ht]
          exact (Task.step_spec hL s.log t l).logStep.mono (fun _ h => h.elim)
            (fun e st h => ⟨i, l, t, rfl, ht, h⟩)
  | take i => cases hm : s.ready[i]? <;> simp only [next, hm] <;> exact .unchanged
  | crash i => cases ht : s.tasks[i]? <;> simp only [next, ht] <;> exact .unchanged
  | redeliver i => cases ht : s.tasks[i]? <;> simp only [next, ht] <;> exact .unchanged
  | deliver e => exact .unchanged
  | inject e carrier => exact .unchanged

lemma next_log (hL : s.ledger.RowsAdmitted chart) (a : Act) :
    LogStep (fun e => ∃ q ∈ s.requests, e = q.event) s.Marks s.log (s.next uuid5 chart a).log :=
  (next_log_acting hL a).mono (fun _ h => h)
    fun _ _ ⟨_, _, t, _, ht, hmark⟩ => ⟨t, List.mem_of_getElem? ht, hmark⟩

/-- The ledger changes only by a task's commit. -/
lemma next_ledger (hL : s.ledger.RowsAdmitted chart) (a : Act) :
    (s.next uuid5 chart a).ledger = s.ledger ∨
      ∃ i l t txn n W, a = .work i l ∧ s.tasks[i]? = some t ∧ t.pc = .post txn n ∧
        s.ledger.conflict txn.row = none ∧ txn.writes chart = .ok W ∧
        (s.next uuid5 chart a).ledger = s.ledger.append W := by
  cases a with
  | work i l =>
      cases ht : s.tasks[i]? with
      | none => exact .inl (by simp [next, ht])
      | some t =>
          rcases (Task.step_spec hL s.log t l : TaskStep uuid5 chart s.ledger s.log t
            _).ledger_cases with
            h | ⟨txn, n, W, hpc, hfree, hW, h⟩
          · exact .inl (by simp [next, ht, h])
          · exact .inr ⟨i, l, t, txn, n, W, rfl, ht, hpc, hfree, hW, by simp [next, ht, h]⟩
  | request i o carrier => cases hq : s.requests[i]? <;> exact .inl (by simp [next, hq])
  | take i => cases hm : s.ready[i]? <;> exact .inl (by simp [next, hm])
  | crash i => cases ht : s.tasks[i]? <;> exact .inl (by simp [next, ht])
  | redeliver i => cases ht : s.tasks[i]? <;> exact .inl (by simp [next, ht])
  | deliver e => exact .inl rfl
  | inject e carrier => exact .inl rfl

lemma next_transactions (hL : s.ledger.RowsAdmitted chart) (a : Act) :
    s.ledger.transactions ⊆ (s.next uuid5 chart a).ledger.transactions := by
  rcases next_ledger hL a with heq | ⟨_, _, _, _, _, W, -, -, -, -, -, heq⟩
  · rw [heq]
    exact List.Subset.refl _
  · rw [heq, Ledger.append_transactions]
    exact List.subset_append_left _ _

/-- Where a task comes from: it was there, it was just taken, or it made a call. -/
lemma next_task (hL : s.ledger.RowsAdmitted chart) (a : Act) {t' : Task}
    (ht' : t' ∈ (s.next uuid5 chart a).tasks) :
    t' ∈ s.tasks ∨ (∃ m ∈ s.ready, t' = ⟨m, .start⟩) ∨
      ∃ i l t r, a = .work i l ∧ s.tasks[i]? = some t ∧
        TaskStep uuid5 chart s.ledger s.log t r ∧ r.task = some t' ∧
        r = t.step uuid5 chart s.ledger s.log l ∧
        (s.next uuid5 chart a).ledger = r.ledger ∧ (s.next uuid5 chart a).log = r.log := by
  cases a with
  | work i l =>
      cases ht : s.tasks[i]? with
      | none => exact .inl (by simpa [next, ht] using ht')
      | some t =>
          have hstep : TaskStep uuid5 chart s.ledger s.log t _ := Task.step_spec hL s.log t l
          simp only [next, ht] at ht'
          cases hr : (t.step uuid5 chart s.ledger s.log l).task with
          | none =>
              simp only [hr] at ht'
              exact .inl (List.mem_of_mem_eraseIdx ht')
          | some t₁ =>
              simp only [hr] at ht'
              rcases List.mem_or_eq_of_mem_set ht' with h | rfl
              · exact .inl h
              · exact .inr (.inr ⟨i, l, t, _, rfl, ht, hstep, hr, rfl, by simp [next, ht],
                  by simp [next, ht]⟩)
  | take i =>
      cases hm : s.ready[i]? with
      | none => exact .inl (by simpa [next, hm] using ht')
      | some m =>
          simp only [next, hm, List.mem_append, List.mem_singleton] at ht'
          rcases ht' with h | h
          · exact .inl h
          · exact .inr (.inl ⟨m, List.mem_of_getElem? hm, h⟩)
  | crash i =>
      cases ht : s.tasks[i]? with
      | none => exact .inl (by simpa [next, ht] using ht')
      | some t =>
          simp only [next, ht] at ht'
          exact .inl (List.mem_of_mem_eraseIdx ht')
  | request i o carrier =>
      cases hq : s.requests[i]? <;> exact .inl (by simpa [next, hq] using ht')
  | redeliver i =>
      cases ht : s.tasks[i]? <;> exact .inl (by simpa [next, ht] using ht')
  | deliver e => exact .inl ht'
  | inject e carrier => exact .inl ht'

/-- Where a request comes from: it was there, it was just delivered, or it made a call. -/
lemma next_request (a : Act) {j : ℕ} {q' : Request}
    (hq' : (s.next uuid5 chart a).requests[j]? = some q') :
    s.requests[j]? = some q' ∨ (∃ e, a = .deliver e ∧ j = s.requests.length ∧
        q' = ⟨e, .record, none, none⟩) ∨
      ∃ q x, s.requests[j]? = some q ∧ RequestStep q s.log x ∧ q' = x.2.1 ∧
        (s.next uuid5 chart a).log = x.1 ∧ (s.next uuid5 chart a).ready = s.ready ++ x.2.2 ∧
        (s.next uuid5 chart a).tasks = s.tasks ∧
        ∀ i, i ≠ j → (s.next uuid5 chart a).requests[i]? = s.requests[i]? := by
  cases a with
  | deliver e =>
      simp only [next] at hq'
      rcases Nat.lt_or_ge j s.requests.length with hj | hj
      · rw [List.getElem?_append_left hj] at hq'
        exact .inl hq'
      · rw [List.getElem?_append_right hj, List.getElem?_singleton] at hq'
        split_ifs at hq' with h0
        exact .inr (.inl ⟨e, rfl, by omega, (Option.some_inj.mp hq').symm⟩)
  | request i o carrier =>
      cases hq : s.requests[i]? with
      | none => exact .inl (by simpa [next, hq] using hq')
      | some q =>
          obtain ⟨hi, -⟩ := List.getElem?_eq_some_iff.mp hq
          simp only [next, hq] at hq'
          by_cases hij : i = j
          · subst hij
            rw [List.getElem?_set_self hi] at hq'
            exact .inr (.inr ⟨q, _, hq, q.step_spec s.log o carrier,
              (Option.some_inj.mp hq').symm, by simp [next, hq], by simp [next, hq],
              by simp [next, hq], fun k hk => by
                simp only [next, hq]
                exact List.getElem?_set_ne (Ne.symm hk)⟩)
          · rw [List.getElem?_set_ne hij] at hq'
            exact .inl hq'
  | inject e carrier => exact .inl hq'
  | take i => cases hm : s.ready[i]? <;> exact .inl (by simpa [next, hm] using hq')
  | work i l => cases ht : s.tasks[i]? <;> exact .inl (by simpa [next, ht] using hq')
  | crash i => cases ht : s.tasks[i]? <;> exact .inl (by simpa [next, ht] using hq')
  | redeliver i => cases ht : s.tasks[i]? <;> exact .inl (by simpa [next, ht] using hq')

/-- Where a ready message comes from: it was ready, it comes from outside or from a request, or a
task put it back. -/
lemma next_ready (hL : s.ledger.RowsAdmitted chart) (a : Act) {m' : Message}
    (hm' : m' ∈ (s.next uuid5 chart a).ready) :
    m' ∈ s.ready ∨ (∃ e, a.event = some e ∧ m'.event = stripTraceContext e) ∨
      (∃ q ∈ s.requests, ∃ payload rowId, q.pc = .enqueue payload rowId ∧
        m'.event = stripTraceContext payload) ∨
      ∃ t ∈ s.tasks, m'.event = t.msg.event := by
  cases a with
  | deliver e => exact .inl hm'
  | inject e carrier =>
      rcases List.mem_append.mp hm' with hr | hr
      · exact .inl hr
      · rw [List.mem_singleton.mp hr]
        exact .inr (.inl ⟨e, rfl, stripTraceContext_inject _ _⟩)
  | request i o carrier =>
      cases hq : s.requests[i]? with
      | none => exact .inl (by simpa only [next, hq] using hm')
      | some q =>
          simp only [next, hq] at hm'
          rcases List.mem_append.mp hm' with hr | hr
          · exact .inl hr
          · exact .inr (.inr (.inl ⟨q, List.mem_of_getElem? hq,
              (q.step_spec s.log o carrier).published hr⟩))
  | take i =>
      cases hm : s.ready[i]? with
      | none => exact .inl (by simpa only [next, hm] using hm')
      | some m =>
          simp only [next, hm] at hm'
          exact .inl (List.mem_of_mem_eraseIdx hm')
  | crash i =>
      cases ht : s.tasks[i]? with
      | none => exact .inl (by simpa only [next, ht] using hm')
      | some t =>
          simp only [next, ht] at hm'
          rcases List.mem_append.mp hm' with hr | hr
          · exact .inl hr
          · rw [List.mem_singleton.mp hr]
            exact .inr (.inr (.inr ⟨t, List.mem_of_getElem? ht, rfl⟩))
  | redeliver i =>
      cases ht : s.tasks[i]? with
      | none => exact .inl (by simpa only [next, ht] using hm')
      | some t =>
          simp only [next, ht] at hm'
          rcases List.mem_append.mp hm' with hr | hr
          · exact .inl hr
          · rw [List.mem_singleton.mp hr]
            exact .inr (.inr (.inr ⟨t, List.mem_of_getElem? ht, rfl⟩))
  | work i l =>
      cases ht : s.tasks[i]? with
      | none => exact .inl (by simpa only [next, ht] using hm')
      | some t =>
          simp only [next, ht] at hm'
          rcases List.mem_append.mp hm' with hr | hr
          · exact .inl hr
          · -- only a scheduled retry is published, with the task's own event
            rcases (Task.step_spec hL s.log t l : TaskStep uuid5 chart _ _ _ _).message with
              ⟨_, -, -, hp⟩ | ⟨-, hp⟩ | ⟨-, hp, -⟩
            · simp [hp] at hr
            · rw [hp, List.mem_singleton] at hr
              exact .inr (.inr (.inr ⟨t, List.mem_of_getElem? ht, by rw [hr]; rfl⟩))
            · simp [hp] at hr

lemma mem_held {m : Message} : m ∈ s.held ↔ m ∈ s.ready ∨ ∃ t ∈ s.tasks, t.msg = m := by
  simp [held]

/-- A message comes from outside, from a request, or was there already. -/
lemma next_held (hL : s.ledger.RowsAdmitted chart) (a : Act) {m' : Message}
    (hm' : m' ∈ (s.next uuid5 chart a).held) :
    (∃ m ∈ s.held, m'.event = m.event) ∨ (∃ e, a.event = some e ∧ m'.event = stripTraceContext e) ∨
      ∃ q ∈ s.requests, ∃ payload rowId, q.pc = .enqueue payload rowId ∧
        m'.event = stripTraceContext payload := by
  rcases mem_held.mp hm' with hready | ⟨t', ht', rfl⟩
  · rcases next_ready hL a hready with h | houtside | hrequest | ⟨t, ht, heq⟩
    · exact .inl ⟨m', mem_held.mpr (.inl h), rfl⟩
    · exact .inr (.inl houtside)
    · exact .inr (.inr hrequest)
    · exact .inl ⟨t.msg, mem_held.mpr (.inr ⟨t, ht, rfl⟩), heq⟩
  · rcases next_task hL a ht' with h | ⟨m, hm, rfl⟩ | ⟨i, l, t, r, -, ht, hstep, htask, -⟩
    · exact .inl ⟨t'.msg, mem_held.mpr (.inr ⟨t', h, rfl⟩), rfl⟩
    · exact .inl ⟨m, mem_held.mpr (.inl hm), rfl⟩
    · exact .inl ⟨t.msg, mem_held.mpr (.inr ⟨t, List.mem_of_getElem? ht, rfl⟩),
        by rw [hstep.msg_eq htask]⟩

/-- Someone will still work on the event: it is ready or scheduled, or with a task that has not
finished. -/
def Pending (s : State) (e : Event) : Prop :=
  (∃ m ∈ s.ready, m.event = e) ∨ ∃ t ∈ s.tasks, t.pc ≠ .finished ∧ t.msg.event = e

lemma Pending.held {e : Event} (h : s.Pending e) : ∃ m ∈ s.held, m.event = e := by
  rcases h with ⟨m, hm, rfl⟩ | ⟨t, ht, -, rfl⟩
  · exact ⟨m, mem_held.mpr (.inl hm), rfl⟩
  · exact ⟨t.msg, mem_held.mpr (.inr ⟨t, ht, rfl⟩), rfl⟩

/-- A task that works on another event leaves this one pending, and one that works on this one does
unless the call ends its work. -/
lemma Pending.next_work (hL : s.ledger.RowsAdmitted chart) {i : ℕ} {l : Luck} {t₀ : Task}
    (hi : s.tasks[i]? = some t₀) {e : Event} (h : s.Pending e) :
    (s.next uuid5 chart (.work i l)).Pending e ∨
      t₀.msg.event = e ∧ t₀.Ends (t₀.step uuid5 chart s.ledger s.log l) := by
  obtain ⟨hlt, -⟩ := List.getElem?_eq_some_iff.mp hi
  have hmsg := (Task.step_spec hL s.log t₀ l : TaskStep uuid5 chart _ _ _ _).message
  simp only [State.next, hi]
  rcases h with ⟨m, hm, heq⟩ | ⟨t, ht, hpc, heq⟩
  · exact .inl (.inl ⟨m, List.mem_append_left _ hm, heq⟩)
  · rcases hmsg with ⟨t₁, hr, hsame, hp⟩ | ⟨hr, hp⟩ | ⟨hr, hp, -⟩
    · rcases mem_set_or hi ht with rfl | ht
      · by_cases hfin : t₁.pc = .finished
        · refine .inr ⟨heq, hpc, by simp [*], fun t' ht' => ?_⟩
          rw [hr] at ht'
          cases ht'
          exact hfin
        · refine .inl (.inr ⟨t₁, ?_, hfin, by rw [hsame, heq]⟩)
          simp only [hr]
          exact List.mem_set hlt t₁
      · refine .inl (.inr ⟨t, ?_, hpc, heq⟩)
        simp only [hr]
        exact ht
    · rcases mem_eraseIdx_or hi ht with rfl | ht
      · refine .inl (.inl ⟨⟨t.msg.payload, t.msg.retries + 1⟩,
          List.mem_append_right _ ?_, heq⟩)
        simp [hp]
      · refine .inl (.inr ⟨t, ?_, hpc, heq⟩)
        simp only [hr]
        exact ht
    · rcases mem_eraseIdx_or hi ht with rfl | ht
      · exact .inr ⟨heq, hpc, hp, by simp [hr]⟩
      · refine .inl (.inr ⟨t, ?_, hpc, heq⟩)
        simp only [hr]
        exact ht

/-- An event stays pending until the work of a task on it ends. -/
lemma Pending.next (hL : s.ledger.RowsAdmitted chart) (a : Act) {e : Event} (h : s.Pending e) :
    (s.next uuid5 chart a).Pending e ∨
      ∃ i l t, a = .work i l ∧ s.tasks[i]? = some t ∧ t.msg.event = e ∧
        t.Ends (t.step uuid5 chart s.ledger s.log l) ∧
        (s.next uuid5 chart a).log = (t.step uuid5 chart s.ledger s.log l).log := by
  cases a with
  | deliver e' => exact .inl h
  | inject e' carrier =>
      refine .inl (h.imp (fun ⟨m, hm, heq⟩ => ⟨m, ?_, heq⟩) id)
      exact List.mem_append_left _ hm
  | request i o carrier =>
      refine .inl ?_
      cases hq : s.requests[i]? with
      | none => simpa only [State.next, hq] using h
      | some q =>
          simp only [State.next, hq]
          exact h.imp (fun ⟨m, hm, heq⟩ => ⟨m, List.mem_append_left _ hm, heq⟩) id
  | take i =>
      refine .inl ?_
      cases hr : s.ready[i]? with
      | none => simpa only [State.next, hr] using h
      | some m₀ =>
          simp only [State.next, hr]
          rcases h with ⟨m, hm, heq⟩ | ⟨t, ht, hpc, heq⟩
          · rcases mem_eraseIdx_or hr hm with rfl | hm
            · exact .inr ⟨⟨m, .start⟩, by simp, by simp, heq⟩
            · exact .inl ⟨m, hm, heq⟩
          · exact .inr ⟨t, List.mem_append_left _ ht, hpc, heq⟩
  | crash i =>
      refine .inl ?_
      cases hi : s.tasks[i]? with
      | none => simpa only [State.next, hi] using h
      | some t₀ =>
          simp only [State.next, hi]
          rcases h with ⟨m, hm, heq⟩ | ⟨t, ht, hpc, heq⟩
          · exact .inl ⟨m, List.mem_append_left _ hm, heq⟩
          · rcases mem_eraseIdx_or hi ht with rfl | ht
            · exact .inl ⟨t.msg, List.mem_append_right _ (by simp), heq⟩
            · exact .inr ⟨t, ht, hpc, heq⟩
  | redeliver i =>
      refine .inl ?_
      cases hi : s.tasks[i]? with
      | none => simpa only [State.next, hi] using h
      | some t₀ =>
          simp only [State.next, hi]
          exact h.imp (fun ⟨m, hm, heq⟩ => ⟨m, List.mem_append_left _ hm, heq⟩) id
  | work i l =>
      cases hi : s.tasks[i]? with
      | none =>
          refine .inl ?_
          simpa only [State.next, hi] using h
      | some t₀ =>
          refine (h.next_work hL hi).imp_right ?_
          rintro ⟨heq, hends⟩
          exact ⟨i, l, t₀, rfl, hi, heq, hends, by simp only [State.next, hi]⟩

end State

end LedgerProof
