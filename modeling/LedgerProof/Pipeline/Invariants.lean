import LedgerProof.Pipeline.Steps

/-!
# What holds in every reachable state

`State.Base` collects what every run keeps without any assumption: the ledger is one the schema
admits, the event log is well formed, tasks write terminal statuses only, and the local variables
of every request are true of the log (`Request.Sound`).  The last is stable because rows are
never deleted and change only in their status: it is enough to check the request that makes the
call, and the growth of the log takes care of the others.

`State.Mapped` says what tasks are about to post, and `State.Within` traces every payload in the
system back to an event that was delivered or enqueued from outside.
-/

namespace LedgerProof

/-! ## Requests -/

/-- `check_and_record` returned `new=True`. -/
def Request.IsNew (q : Request) : Prop := ∃ d, q.result = some d ∧ d.new = true

/-- The row has the request's event id or its object key. -/
def Request.Meets (q : Request) (r : EventRow) : Prop :=
  r.id = q.event.id ∨ ∃ oid, moneyMovementObjectId q.event = .ok oid ∧
    r.eventType = q.event.type ∧ sqlEq r.objectId oid = true

/-- The row the request resolved to is there and stores this payload. -/
def Request.Holds (q : Request) (log : EventLog) (payload : Event) : Prop :=
  ∃ r ∈ log, q.rowId = some r.id ∧ r.payload = payload

/-- What the program counter promises. -/
def Request.PcSound (q : Request) (log : EventLog) : Prop :=
  match q.pc with
  | .record => q.result = none ∧ q.enqueued = none
  | .select => q.result = none ∧ q.enqueued = none ∧
      ∃ oid, moneyMovementObjectId q.event = .ok oid ∧ log.taken q.event oid = true
  | .enqueue payload rowId => q.rowId = some rowId ∧ q.Holds log payload
  | .markQueued rowId => q.rowId = some rowId ∧ q.enqueued.isSome = true
  | .answered .queued => q.enqueued.isSome = true
  | .answered .duplicate => ∃ d st, q.result = some d ∧ d.new = false ∧
      d.existingStatus = some st ∧ st.terminal = true
  | .answered .error => True

/-- The request's local variables are true of the log. -/
structure Request.Sound (q : Request) (log : EventLog) : Prop where
  new : q.IsNew → ∃ r ∈ log, r.id = q.event.id ∧ r.payload = q.event
  blocked : ∀ d, q.result = some d → d.new = false →
    ∃ r ∈ log, ∃ st, d = ⟨false, some r.id, some st, some r.payload⟩ ∧
      (st.terminal = true → r.status.terminal = true) ∧ q.Meets r
  enqueued : ∀ payload, q.enqueued = some payload → q.Holds log payload
  pc : q.PcSound log

namespace Request

variable {q : Request} {log log' : EventLog}

lemma Holds.grow {payload : Event} (h : q.Holds log payload) (hg : log.Grows log') :
    q.Holds log' payload := by
  obtain ⟨r, hr, hid, hp⟩ := h
  obtain ⟨st, hst, -⟩ := hg r hr
  exact ⟨_, hst, hid, hp⟩

lemma PcSound.grow (h : q.PcSound log) (hg : log.Grows log') : q.PcSound log' := by
  unfold PcSound at h ⊢
  split at h
  · exact h
  · obtain ⟨hres, henq, oid, hoid, htaken⟩ := h
    exact ⟨hres, henq, oid, hoid, hg.taken htaken⟩
  · exact ⟨h.1, h.2.grow hg⟩
  · exact h
  · exact h
  · exact h
  · exact h

/-- **What is true of a request stays true while the log grows.** -/
lemma Sound.grow (h : q.Sound log) (hg : log.Grows log') : q.Sound log' where
  new := fun hnew => by
    obtain ⟨r, hr, hid, hp⟩ := h.new hnew
    obtain ⟨st, hst, -⟩ := hg r hr
    exact ⟨_, hst, hid, hp⟩
  blocked := fun d hd hnew => by
    obtain ⟨r, hr, st, hdeq, hterm, hmeets⟩ := h.blocked d hd hnew
    obtain ⟨st', hst', hterm'⟩ := hg r hr
    exact ⟨_, hst', st, hdeq, fun ht => hterm' (hterm ht), hmeets⟩
  enqueued := fun payload hp => (h.enqueued payload hp).grow hg
  pc := h.pc.grow hg

lemma sound_of_fresh {e : Event} : (⟨e, .record, none, none⟩ : Request).Sound log where
  new := by simp [IsNew]
  blocked := by simp
  enqueued := by simp
  pc := ⟨rfl, rfl⟩

lemma Sound.fail (h : q.Sound log) : q.fail.Sound log where
  new := h.new
  blocked := h.blocked
  enqueued := h.enqueued
  pc := trivial

lemma Sound.read {oid : Option String} {r : EventRow} {pc : RequestPc}
    (henq : q.enqueued = none) (hoid : moneyMovementObjectId q.event = .ok oid)
    (hrow : log.blocking q.event oid = some r)
    (hpc : PcSound { q with pc := pc, result := some ⟨false, some r.id, some r.status,
      some r.payload⟩ } log) :
    Sound { q with pc := pc, result := some ⟨false, some r.id, some r.status, some r.payload⟩ }
      log where
  new := by simp [IsNew]
  blocked := by
    rintro d hd -
    obtain ⟨hr, hmeets⟩ := EventLog.blocking_some hrow
    refine ⟨r, hr, r.status, (Option.some_inj.mp hd).symm, id, hmeets.imp id fun hkey => ?_⟩
    exact ⟨oid, hoid, hkey⟩
  enqueued := by simp [henq]
  pc := hpc

/-- **A call keeps what is true of its request.** -/
lemma Sound.step {x : EventLog × Request × List Message} (h : q.Sound log)
    (hx : RequestStep q log x) : x.2.1.Sound x.1 := by
  have hgrows : log.Grows x.1 := hx.logStep.grows fun _ _ h => h.elim
  have hpcs := h.pc
  unfold PcSound at hpcs
  cases hx with
  | failed => exact h.fail
  | @recorded oid hpc hoid hfree =>
      rw [hpc] at hpcs
      have hrow : (⟨q.event.id, q.event.type, oid, q.event, .received⟩ : EventRow) ∈
          log.add q.event oid .received := EventLog.mem_add.mpr (.inr rfl)
      exact
        { new := fun _ => ⟨_, hrow, rfl, rfl⟩
          blocked := by
            rintro d hd hnew
            rw [← Option.some_inj.mp hd] at hnew
            simp at hnew
          enqueued := by simp [hpcs.2]
          pc := ⟨rfl, _, hrow, rfl, rfl⟩ }
  | recorded_unseen hpc hoid hfree => exact (h.grow hgrows).fail
  | conflict hpc hoid htaken =>
      rw [hpc] at hpcs
      exact
        { new := h.new
          blocked := h.blocked
          enqueued := h.enqueued
          pc := ⟨hpcs.1, hpcs.2, _, hoid, htaken⟩ }
  | read_done hpc hoid hrow hterm =>
      rw [hpc] at hpcs
      exact .read hpcs.2.1 hoid hrow ⟨_, _, rfl, rfl, rfl, hterm⟩
  | read_open hpc hoid hrow =>
      rw [hpc] at hpcs
      exact .read hpcs.2.1 hoid hrow ⟨rfl, _, (EventLog.blocking_some hrow).1, rfl, rfl⟩
  | read_nothing hpc hoid hrow =>
      -- the key that was taken is still taken
      rw [hpc] at hpcs
      obtain ⟨-, -, oid, hoid', htaken⟩ := hpcs
      rw [hoid] at hoid'
      cases hoid'
      have := EventLog.blocking_isSome htaken
      simp [hrow] at this
  | enqueued hpc =>
      rw [hpc] at hpcs
      exact
        { new := h.new
          blocked := h.blocked
          enqueued := fun payload hp => by
            cases Option.some_inj.mp hp
            exact hpcs.2
          pc := ⟨hpcs.1, rfl⟩ }
  | enqueued_unseen hpc => exact h.fail
  | queued hpc =>
      rw [hpc] at hpcs
      have hg := h.grow hgrows
      exact { new := hg.new, blocked := hg.blocked, enqueued := hg.enqueued, pc := hpcs.2 }
  | queued_unseen hpc => exact (h.grow hgrows).fail
  | idle hpc => exact h

end Request

/-! ## The system -/

namespace State

variable {uuid5 : String → Uuid} {chart : Chart} {s : State}

/-- What every reachable state satisfies. -/
structure Base (chart : Chart) (s : State) : Prop where
  ledger : s.ledger.Admitted chart
  log : s.log.Wf
  marks : ∀ e st, s.Marks e st → st.terminal = true
  requests : ∀ q ∈ s.requests, q.Sound s.log

lemma Base.init : Base chart .init where
  ledger := Ledger.empty_admitted chart
  log := .nil
  marks := by simp [Marks, State.init]
  requests := by simp [State.init]

lemma Base.grows (h : s.Base chart) (a : Act) : s.log.Grows (s.next uuid5 chart a).log :=
  (next_log h.ledger.toRowsAdmitted a).grows h.marks

/-- **Every step keeps the base invariant.** -/
lemma Base.next (h : s.Base chart) (a : Act) : (s.next uuid5 chart a).Base chart where
  ledger := by
    rcases next_ledger h.ledger.toRowsAdmitted a with
      heq | ⟨_, _, _, txn, _, W, -, -, -, hfree, hW, heq⟩
    · rw [heq]
      exact h.ledger
    · rw [heq]
      exact h.ledger.append_writes hfree hW
  log := (next_log h.ledger.toRowsAdmitted a).wf h.log
  marks := by
    rintro e st ⟨t', ht', hmark⟩
    rcases next_task h.ledger.toRowsAdmitted a ht' with
      hold | ⟨m, -, rfl⟩ | ⟨i, l, t, r, -, ht, hstep, hr, -⟩
    · exact h.marks e st ⟨t', hold, hmark⟩
    · rcases hmark.2 with hpc | hpc <;> cases hpc
    · rcases hstep.marks_cases hr hmark with hsame | ⟨rfl, -⟩ | ⟨rfl, -⟩ | ⟨rfl, -⟩
      · exact h.marks e st ⟨t, List.mem_of_getElem? ht, hsame⟩
      · rfl
      · rfl
      · rfl
  requests := by
    intro q' hq'
    obtain ⟨j, hj⟩ := List.mem_iff_getElem?.mp hq'
    rcases next_request a hj with hold | ⟨e, -, -, rfl⟩ | ⟨q, x, hq, hstep, rfl, hlog, -⟩
    · exact (h.requests q' (List.mem_of_getElem? hold)).grow (h.grows a)
    · exact Request.sound_of_fresh
    · rw [hlog]
      exact (h.requests q (List.mem_of_getElem? hq)).step hstep

/-- What a task is about to post was mapped from its event. -/
def Mapped (uuid5 : String → Uuid) (s : State) : Prop :=
  ∀ t ∈ s.tasks, ∀ txn n, t.pc = .post txn n → t.msg.event.type ∈ handledEventTypes ∧
    ∃ client, mapEvent uuid5 client t.msg.event = .ok (some txn)

lemma Mapped.next (h : s.Mapped uuid5) (hb : s.Base chart) (a : Act) :
    (s.next uuid5 chart a).Mapped uuid5 := by
  intro t' ht' txn n hpc'
  rcases next_task hb.ledger.toRowsAdmitted a ht' with
    hold | ⟨m, -, rfl⟩ | ⟨i, l, t, r, -, ht, hstep, hr, -⟩
  · exact h t' hold txn n hpc'
  · cases hpc'
  · rw [hstep.msg_eq hr]
    rcases hstep.post_cases hr hpc' with hpc | hmap
    · exact h t (List.mem_of_getElem? ht) txn (n + 1) hpc
    · exact hmap

/-! ## Where payloads come from -/

/-- Every payload in the system is one of the events `U`, up to the trace context. -/
structure Within (U : Event → Prop) (s : State) : Prop where
  rows : ∀ r ∈ s.log, ∃ e, U e ∧ stripTraceContext r.payload = stripTraceContext e
  requests : ∀ q ∈ s.requests, U q.event
  held : ∀ m ∈ s.held, ∃ e, U e ∧ m.event = stripTraceContext e

lemma Within.init (U : Event → Prop) : Within U .init where
  rows := by simp [State.init]
  requests := by simp [State.init]
  held := by simp [State.init, State.held]

@[simp] lemma stripTraceContext_idem (e : Event) :
    stripTraceContext (stripTraceContext e) = stripTraceContext e := by
  simp [stripTraceContext]

lemma Within.next {U : Event → Prop} (h : s.Within U) (hb : s.Base chart) {a : Act}
    (ha : ∀ e, a.event = some e → U e) : (s.next uuid5 chart a).Within U := by
  have hL := hb.ledger.toRowsAdmitted
  refine ⟨?_, ?_, ?_⟩
  · -- a row's payload is a delivered event or the event of a message
    have hmark : ∀ e st, s.Marks e st → ∃ e', U e' ∧
        stripTraceContext e = stripTraceContext e' := by
      rintro e st ⟨t, ht, rfl, -⟩
      obtain ⟨e', hU, heq⟩ := h.held t.msg (mem_held.mpr (.inr ⟨t, ht, rfl⟩))
      exact ⟨e', hU, by rw [heq, stripTraceContext_idem]⟩
    refine (next_log hL a).forall_rows h.rows ?_ (fun r hr _ => h.rows r hr)
      (fun r hr _ _ _ _ => h.rows r hr) (fun e st oid hm _ _ => hmark e st hm)
    rintro e oid ⟨q, hq, rfl⟩ - -
    exact ⟨q.event, h.requests q hq, rfl⟩
  · intro q' hq'
    obtain ⟨j, hj⟩ := List.mem_iff_getElem?.mp hq'
    rcases next_request a hj with hold | ⟨e, rfl, -, rfl⟩ | ⟨q, x, hq, hstep, rfl, -⟩
    · exact h.requests q' (List.mem_of_getElem? hold)
    · exact ha e rfl
    · rw [hstep.event_eq]
      exact h.requests q (List.mem_of_getElem? hq)
  · intro m' hm'
    rcases next_held hL a hm' with ⟨m, hm, heq⟩ | ⟨e, he, heq⟩ | ⟨q, hq, payload, rowId, hpc, heq⟩
    · rw [heq]
      exact h.held m hm
    · exact ⟨e, ha e he, heq⟩
    · have hpcs := (hb.requests q hq).pc
      rw [Request.PcSound, hpc] at hpcs
      obtain ⟨-, r, hr, -, rfl⟩ := hpcs
      obtain ⟨e, hU, hstrip⟩ := h.rows r hr
      exact ⟨e, hU, heq.trans hstrip⟩

end State

/-! ## Runs -/

/-- The run brings in this event from outside. -/
def Brought (acts : List Act) (e : Event) : Prop := ∃ a ∈ acts, a.event = some e

lemma run_base (uuid5 : String → Uuid) (chart : Chart) (acts : List Act) :
    (run uuid5 chart acts).Base chart :=
  foldl_inv (State.Base chart) (fun _ a h => h.next a) .init acts

lemma run_within (uuid5 : String → Uuid) (chart : Chart) (acts : List Act) :
    (run uuid5 chart acts).Within (Brought acts) := by
  have hguard : Guarded (State.next uuid5 chart)
      (fun _ a => ∀ e, a.event = some e → Brought acts e) .init acts :=
    .of_forall fun a ha _ e he => ⟨a, ha, he⟩
  exact (hguard.inv (fun s => s.Base chart ∧ s.Within (Brought acts))
    (fun s a h hG => ⟨h.1.next a, h.2.next h.1 hG⟩) ⟨.init, .init _⟩).2

end LedgerProof
