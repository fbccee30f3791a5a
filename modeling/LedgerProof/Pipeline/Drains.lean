import LedgerProof.Pipeline.Acknowledged
import LedgerProof.Lib.Sums

/-!
# The pipeline drains

Left alone, the pipeline comes to rest: with no new deliveries, no worker dying and no message
delivered twice, every schedule of the requests and tasks that are there ends, whatever the outcome
of their calls.  Each call uses up one of a bounded number that its request, message or task has
left (`State.calls`), which counts the retries that may still follow.

`pipeline_drains` adds what is true when nothing is left to do: the broker is empty, every request
is answered, and if no message was given up without a mark, every row that a 200 stands for is in a
terminal status.  It holds from every state that a run with any crashes and duplicates reaches.
-/

namespace LedgerProof

/-! ## The calls that are left -/

/-- How many calls may follow once the task of a message with so many retries has raised: ten for
each retry, and four to give up. -/
def raisedCalls (retries : ℕ) : ℕ := 10 * (maxRetries - retries) + 4

/-- The calls a ready message may lead to. -/
def Message.calls (m : Message) : ℕ := raisedCalls m.retries + 9

/-- The calls a task may still make, on behalf of itself and of the retries that it publishes. -/
def Task.calls (t : Task) : ℕ :=
  match t.pc with
  | .start => raisedCalls t.msg.retries + 8
  | .post _ n => raisedCalls t.msg.retries + n + 3
  | .update .failed => 3
  | .update _ => raisedCalls t.msg.retries + 2
  | .insert .failed => 2
  | .insert _ => raisedCalls t.msg.retries + 1
  | .raised => raisedCalls t.msg.retries
  | .finished => 1

/-- The calls a request may still make, with those of the message it publishes. -/
def Request.calls (q : Request) : ℕ :=
  match q.pc with
  | .record => raisedCalls 0 + 13
  | .select => raisedCalls 0 + 12
  | .enqueue _ _ => raisedCalls 0 + 11
  | .markQueued _ => 1
  | .answered _ => 0

/-- The calls that are left altogether. -/
def State.calls (s : State) : ℕ :=
  total Message.calls s.ready + total Task.calls s.tasks + total Request.calls s.requests

/-- A call that a request or a task can make, or a message that a worker can take. -/
def Act.Possible (s : State) : Act → Prop
  | .request i _ _ => ∃ q, s.requests[i]? = some q ∧ ∀ response, q.pc ≠ .answered response
  | .take i => ∃ m, s.ready[i]? = some m
  | .work i _ => ∃ t, s.tasks[i]? = some t
  | _ => False

section

variable {uuid5 : String → Uuid} {chart : Chart}

lemma raisedCalls_succ {retries : ℕ} (h : retries < maxRetries) :
    raisedCalls retries = raisedCalls (retries + 1) + 10 := by
  unfold raisedCalls
  omega

/-- **A call of a task uses one up.** -/
lemma TaskStep.calls_lt {L : Ledger} {log : EventLog} {t : Task} {r : TaskResult}
    (h : TaskStep uuid5 chart L log t r) :
    (match r.task with | some t' => t'.calls | none => 0) + total Message.calls r.published <
    t.calls := by
  cases h with
  | dropped hpc => simp [Task.calls, hpc]
  | no_money hpc h => simp [Task.goto, Task.calls, hpc]
  | mapped hpc htype hmap => simp [Task.goto, Task.calls, hpc]
  | posted hpc hfree hW hnext =>
      rcases hnext with rfl | rfl <;> simp only [Task.goto, Task.calls, hpc, total_nil] <;> omega
  | duplicate hpc hconf => simp [Task.goto, Task.calls, hpc]
  | again hpc => simp [Task.goto, Task.calls, hpc]
  | raised hpc =>
      rcases hpc with hpc | ⟨txn, n, hpc⟩ <;> simp only [Task.goto, Task.calls, hpc, total_nil] <;>
        omega
  | @marked st pc hpc hid hnext =>
      rcases hnext with rfl | rfl <;> cases st <;> simp [Task.goto, Task.calls, failedMark, hpc]
  | @no_row st hpc hid => cases st <;> simp [Task.goto, Task.calls, hpc]
  | @upserted st pc oid hpc hoid hnext =>
      rcases hnext with rfl | rfl <;> cases st <;>
        simp [Task.goto, Task.calls, failedMark, hpc, raisedCalls]
  | @mark_failed st hpc =>
      rcases hpc with hpc | hpc <;> cases st <;> simp [Task.goto, Task.calls, failedMark, hpc]
  | retry hpc hlt =>
      have hmore := raisedCalls_succ hlt
      simp only [total_cons, total_nil, Message.calls, Task.calls, hpc]
      omega
  | exhausted hpc hge => simp [Task.goto, Task.calls, hpc, raisedCalls]
  | acked hpc => simp [Task.calls, hpc]

/-- **A call of a request uses one up.** -/
lemma RequestStep.calls_lt {q : Request} {log : EventLog} {x : EventLog × Request × List Message}
    (h : RequestStep q log x) (hq : ∀ response, q.pc ≠ .answered response) :
    x.2.1.calls + total Message.calls x.2.2 < q.calls := by
  cases h with
  | failed =>
      have hpos : 0 < q.calls := by
        cases hpc : q.pc with
        | answered response => exact absurd hpc (hq response)
        | _ => simp [Request.calls, hpc]
      simpa [Request.fail, Request.calls] using hpos
  | idle hpc => exact absurd hpc (hq _)
  | enqueued hpc =>
      simp only [Request.calls, hpc, total_cons, total_nil, Message.calls]
      omega
  | enqueued_unseen hpc =>
      simp only [Request.fail, Request.calls, hpc, total_cons, total_nil, Message.calls]
      omega
  | recorded hpc hoid hfree => simp [Request.calls, hpc]
  | recorded_unseen hpc hoid hfree => simp [Request.fail, Request.calls, hpc]
  | conflict hpc hoid htaken => simp [Request.calls, hpc]
  | read_done hpc hoid hrow hterm => simp [Request.calls, hpc]
  | read_open hpc hoid hrow => simp [Request.calls, hpc]
  | read_nothing hpc hoid hrow => simp [Request.calls, hpc]
  | queued hpc => simp [Request.calls, hpc]
  | queued_unseen hpc => simp [Request.fail, Request.calls, hpc]

end

namespace State

variable {uuid5 : String → Uuid} {chart : Chart} {s : State}

/-- **A call that is possible uses one up.** -/
lemma next_calls_lt (hL : s.ledger.RowsAdmitted chart) {a : Act} (ha : a.Possible s) :
    (s.next uuid5 chart a).calls < s.calls := by
  cases a with
  | request i o carrier =>
      obtain ⟨q, hq, hopen⟩ := ha
      have hstep := (q.step_spec s.log o carrier).calls_lt hopen
      have hset := total_set (f := Request.calls) hq (q.step s.log o carrier).2.1
      simp only [State.calls, next, hq, total_append]
      omega
  | take i =>
      obtain ⟨m, hm⟩ := ha
      have herase := total_eraseIdx (f := Message.calls) hm
      simp only [State.calls, next, hm, total_append, total_cons, total_nil, Task.calls,
        Message.calls] at herase ⊢
      omega
  | work i l =>
      obtain ⟨t, ht⟩ := ha
      have hstep := (Task.step_spec hL s.log t l : TaskStep uuid5 chart _ _ _ _).calls_lt
      have herase := total_eraseIdx (f := Task.calls) ht
      simp only [State.calls, next, ht, total_append]
      cases htask : (t.step uuid5 chart s.ledger s.log l).task with
      | none =>
          simp only [htask] at hstep ⊢
          omega
      | some t' =>
          have hset := total_set (f := Task.calls) ht t'
          simp only [htask] at hstep ⊢
          omega
  | deliver e => exact ha.elim
  | inject e carrier => exact ha.elim
  | crash i => exact ha.elim
  | redeliver i => exact ha.elim

/-- Nothing is left to do: no message, no task, and every request is answered. -/
structure Idle (s : State) : Prop where
  ready : s.ready = []
  tasks : s.tasks = []
  answered : ∀ q ∈ s.requests, ∃ response, q.pc = .answered response

/-- Unless it is idle, the system can go on. -/
lemma idle_or_possible (s : State) : s.Idle ∨ ∃ a, Act.Possible s a := by
  by_cases hready : s.ready = []
  · by_cases htasks : s.tasks = []
    · by_cases hopen : ∀ q ∈ s.requests, ∃ response, q.pc = .answered response
      · exact .inl ⟨hready, htasks, hopen⟩
      · push Not at hopen
        obtain ⟨q, hq, hpc⟩ := hopen
        obtain ⟨i, hi⟩ := List.mem_iff_getElem?.mp hq
        exact .inr ⟨.request i .ok [], q, hi, hpc⟩
    · obtain ⟨t, ht⟩ := List.exists_mem_of_ne_nil _ htasks
      obtain ⟨i, hi⟩ := List.mem_iff_getElem?.mp ht
      exact .inr ⟨.work i ⟨none, none, .ok⟩, t, hi⟩
  · obtain ⟨m, hm⟩ := List.exists_mem_of_ne_nil _ hready
    obtain ⟨i, hi⟩ := List.mem_iff_getElem?.mp hm
    exact .inr ⟨.take i, m, hi⟩

lemma Tended.terminal (h : s.Tended) (hidle : s.Idle) {q : Request} (hq : q ∈ s.requests)
    {r : EventRow} (hr : r ∈ s.log) (henq : q.enqueued = some r.payload) :
    r.status.terminal = true := by
  rcases h q hq r hr henq with hdone | hpending
  · exact hdone
  · obtain ⟨m, hm, -⟩ := hpending.held
    rw [State.held, hidle.ready, hidle.tasks] at hm
    simp at hm

end State

/-! ## Runs -/

/-- What holds in an idle state: every row that a 200 answer resolved to is in a terminal status. -/
def State.AllDone (s : State) : Prop :=
  ∀ q ∈ s.requests, ∀ response, q.pc = .answered response → response.isOk = true →
    ∃ r ∈ s.log, q.rowId = some r.id ∧ r.status.terminal = true

/-- **The pipeline drains.**  From any state that a run reaches, with whatever crashes and
duplicates: a schedule of calls and of messages taken is never longer than the calls that are left,
however the calls end; while such a schedule can go on, the system is not idle; and there is one
that leads to an idle state.  However the run goes on, if no message is given up without a mark
while its row is open, then in an idle state every row that a 200 answer resolved to is in a
terminal status. -/
theorem pipeline_drains (uuid5 : String → Uuid) (chart : Chart) (acts : List Act) :
    let s := run uuid5 chart acts
    (∀ more, Guarded (State.next uuid5 chart) (fun s a => a.Possible s) s more →
      more.length ≤ s.calls ∧
        ((∀ a : Act, ¬ a.Possible (more.foldl (State.next uuid5 chart) s)) →
          (more.foldl (State.next uuid5 chart) s).Idle)) ∧
    (∃ more, Guarded (State.next uuid5 chart) (fun s a => a.Possible s) s more ∧
      (more.foldl (State.next uuid5 chart) s).Idle) ∧
    ∀ more, Guarded (State.next uuid5 chart) KeepsOpenRows .init (acts ++ more) →
      (more.foldl (State.next uuid5 chart) s).Idle →
        (more.foldl (State.next uuid5 chart) s).AllDone := by
  intro s
  have hbase : s.Base chart := run_base uuid5 chart acts
  refine ⟨fun more hmore => ⟨?_, fun hstuck => ?_⟩, ?_, fun more hkeeps hidle => ?_⟩
  · have hlen := hmore.add_length_le State.calls (State.Base chart) (fun _ a hb _ => hb.next a)
      (fun _ _ hb ha => State.next_calls_lt hb.ledger.toRowsAdmitted ha) hbase
    omega
  · rcases State.idle_or_possible (more.foldl (State.next uuid5 chart) s) with hidle | ⟨a, ha⟩
    · exact hidle
    · exact absurd ha (hstuck a)
  · exact Guarded.exists_run State.calls (State.Base chart) State.Idle (fun _ a hb _ => hb.next a)
      (fun _ _ hb ha => State.next_calls_lt hb.ledger.toRowsAdmitted ha)
      (fun s _ => State.idle_or_possible s) hbase
  · have hrun : more.foldl (State.next uuid5 chart) s = run uuid5 chart (acts ++ more) :=
      List.foldl_append.symm
    rw [hrun] at hidle ⊢
    obtain ⟨hb, htended⟩ := hkeeps.inv (fun s => s.Base chart ∧ s.Tended)
      (fun s a h hG => ⟨h.1.next a, h.2.next h.1 hG⟩)
      ⟨.init, by simp [State.Tended, State.init]⟩
    intro q hq response hpc hok
    obtain ⟨r, hr, hid, ⟨-, henq, -⟩ | ⟨-, hterm, -⟩⟩ := hb.answered hq hpc hok
    · exact ⟨r, hr, hid, htended.terminal hidle hq hr henq⟩
    · exact ⟨r, hr, hid, hterm⟩

/-- A payout is acknowledged, and the worker dies after it has mapped it. -/
def interruptedRun : List Act :=
  [.deliver (samplePayout "evt_1" "po_1"), .request 0 .ok [], .request 0 .ok [], .request 0 .ok [],
    .take 0, .work 0 ⟨none, none, .ok⟩, .crash 0]

/-- The message is taken again, and this time the task gets to its end. -/
def resumedRun : List Act := .take 0 :: List.replicate 4 (.work 0 ⟨none, none, .ok⟩)

theorem pipeline_drains_interrupted :
    (run sampleUuid5 seedChart interruptedRun).calls = 63 ∧
      (resumedRun.foldl (State.next sampleUuid5 seedChart)
        (run sampleUuid5 seedChart interruptedRun)).AllDone := by
  have hkeeps : Guarded (State.next sampleUuid5 seedChart) KeepsOpenRows .init
      (interruptedRun ++ resumedRun) := by
    refine .of_forall fun a ha s i l t hact _ hgives => ?_
    -- every call of a task ends well
    subst hact
    simp [interruptedRun, resumedRun] at ha
    obtain ⟨-, rfl⟩ := ha
    exact absurd hgives (Task.not_givesUp rfl)
  have hidle : (resumedRun.foldl (State.next sampleUuid5 seedChart)
      (run sampleUuid5 seedChart interruptedRun)).Idle := by
    refine ⟨rfl, rfl, fun q hq => ?_⟩
    rw [List.mem_singleton.mp hq]
    exact ⟨.queued, rfl⟩
  exact ⟨rfl, (pipeline_drains sampleUuid5 seedChart interruptedRun).2.2 resumedRun hkeeps hidle⟩

end LedgerProof
