import LedgerProof.Ingest.EventLog
import LedgerProof.Lib.Run

/-!
# The pipeline

Ingest, broker and workers as one transition system: any number of webhook requests
(`ingest/app.py`), the queue (`ingest/queue.py`), and any number of tasks running `process_event`
(`worker/tasks.py`, `worker/handlers.py`) over one database.

Every call of the database, the broker or Stripe is a step of its own, so that anything may
happen between two of them, and the environment decides how it ends: it takes effect and returns,
it fails before taking effect, or it takes effect and the caller sees a failure all the same
(`Outcome`).  A worker may die at any point and its message is delivered again; the broker may
also deliver a message again while its task is still running.  Messages that ingest did not
enqueue are allowed (`Act.inject`), since the worker does not rely on where they come from.

Of Celery and Redis this assumes what the task relies on: a message is kept until its task
returns or raises for good, and a retry publishes it again.  Of the trace propagator it assumes that
it reads any carrier of texts; of other contexts, which a payload may bring with it, the environment
decides whether the extraction raises.
-/

namespace LedgerProof

/-! ## Messages -/

/-- `TRACE_CONTEXT_KEY`. -/
def traceContextKey : String := "__trace_context__"

/-- `inject_trace_context`, with the span context of the caller. -/
def injectTraceContext (carrier : List (String × String)) (e : Event) : Event :=
  if carrier = [] then e
  else
    let value := Json.obj (carrier.map fun c => (c.1, .str c.2))
    if (e.fields.lookup traceContextKey).isSome then
      { e with fields := e.fields.map fun f => if f.1 = traceContextKey then (f.1, value) else f }
    else { e with fields := e.fields ++ [(traceContextKey, value)] }

/-- The trace context of an event is a carrier, which has a text under each name, or there is none:
`extract_trace_context` does not raise. -/
def traceReadable (e : Event) : Bool :=
  match e.fields.lookup traceContextKey with
  | some (.obj carrier) => carrier.all fun c => match c.2 with
      | .str _ => true
      | _ => false
  | _ => true

/-- `strip_trace_context`. -/
def stripTraceContext (e : Event) : Event :=
  { e with fields := e.fields.filter fun f => f.1 ≠ traceContextKey }

/-- A message of `process_event`, with Celery's count of its retries. -/
structure Message where
  payload : Event
  retries : ℕ

/-- The event as the handler sees it. -/
def Message.event (m : Message) : Event := stripTraceContext m.payload

/-- `max_retries`. -/
def maxRetries : ℕ := 5

/-- How a call ends. -/
inductive Outcome
  | ok
  /-- The call failed and did nothing. -/
  | failBefore
  /-- The call took effect, and the caller saw it fail. -/
  | failAfter
  deriving DecidableEq, Repr

/-! ## Webhook requests -/

/-- `DedupeResult`. -/
structure DedupeResult where
  new : Bool
  existingId : Option String
  existingStatus : Option Status
  existingPayload : Option Event

/-- The answer to a delivery: 200 `queued`, 200 `duplicate`, or 500. -/
inductive Response
  | queued
  | duplicate
  | error
  deriving DecidableEq, Repr

/-- `status_code == 200`. -/
def Response.isOk : Response → Bool
  | .queued | .duplicate => true
  | .error => false

/-- Where a request is. -/
inductive RequestPc
  /-- About to insert its row. -/
  | record
  /-- The insert violated a key; about to read the row in the way. -/
  | select
  /-- About to enqueue a payload, on behalf of the row with this id. -/
  | enqueue (payload : Event) (rowId : String)
  | markQueued (rowId : String)
  | answered (response : Response)

/-- A verified delivery and the handler's local variables: what `check_and_record` returned, and
the payload of the `enqueue` call that returned. -/
structure Request where
  event : Event
  pc : RequestPc
  result : Option DedupeResult
  enqueued : Option Event

/-- The id of the row a request resolved to: its own when new, else the one in the way. -/
def Request.rowId (q : Request) : Option String :=
  match q.result with
  | some r => if r.new then some q.event.id else r.existingId
  | none => none

/-- `webhook`, after verification: one call.  Gives the log, the request and what was
published. -/
def Request.step (q : Request) (log : EventLog) (o : Outcome) (carrier : List (String × String)) :
    EventLog × Request × List Message :=
  let fail : Request := { q with pc := .answered .error }
  match q.pc with
  | .record =>
      match moneyMovementObjectId q.event with
      | .error _ => (log, fail, [])
      | .ok oid =>
          if log.taken q.event oid then
            match o with
            | .ok => (log, { q with pc := .select }, [])
            | _ => (log, fail, [])
          else
            match o with
            | .ok => (log.add q.event oid .received,
                { q with
                  pc := .enqueue q.event q.event.id
                  result := some ⟨true, none, none, none⟩ },
                [])
            | .failBefore => (log, fail, [])
            | .failAfter => (log.add q.event oid .received, fail, [])
  | .select =>
      match o, moneyMovementObjectId q.event with
      | .ok, .ok oid =>
          match log.blocking q.event oid with
          | some r =>
              let q' := { q with result := some ⟨false, some r.id, some r.status, some r.payload⟩ }
              if r.status.terminal then (log, { q' with pc := .answered .duplicate }, [])
              else (log, { q' with pc := .enqueue r.payload r.id }, [])
          | none => (log, { q with pc := .answered .duplicate,
                                   result := some ⟨false, none, none, none⟩ }, [])
      | _, _ => (log, fail, [])
  | .enqueue payload rowId =>
      let m : Message := ⟨injectTraceContext carrier payload, 0⟩
      match o with
      | .ok => (log, { q with pc := .markQueued rowId, enqueued := some payload }, [m])
      | .failBefore => (log, fail, [])
      | .failAfter => (log, fail, [m])
  | .markQueued rowId =>
      match o with
      | .ok => (log.markQueued rowId, { q with pc := .answered .queued }, [])
      | .failBefore => (log, fail, [])
      | .failAfter => (log.markQueued rowId, fail, [])
  | .answered _ => (log, q, [])

/-! ## Worker tasks -/

/-- Where a task is. -/
inductive TaskPc
  /-- About to extract the trace context and map the event. -/
  | start
  /-- About to run an attempt of `post_transaction`; so many more may follow it. -/
  | post (txn : LedgerTransaction) (retries : ℕ)
  /-- About to run the `UPDATE` of `_mark_status`; `failed` is the dead-letter write. -/
  | update (status : Status)
  /-- The `UPDATE` found no row; about to run the upsert. -/
  | insert (status : Status)
  /-- `handle_event` raised. -/
  | raised
  /-- The task returned or raised for good. -/
  | finished

/-- A task with the message it holds. -/
structure Task where
  msg : Message
  pc : TaskPc

/-- What a step of a task comes to: the tables, the task unless its message is gone, and what was
published. -/
structure TaskResult where
  ledger : Ledger
  log : EventLog
  task : Option Task
  published : List Message

/-- What the environment decides about a task's next call: the Stripe client, the statement of an
attempt at which a serialization failure is raised, and how the call ends. -/
structure Luck where
  client : Option Client
  fault : Option ℕ
  outcome : Outcome

/-- Where a failed status write leaves the task: the dead-letter write's failure is swallowed,
any other is raised. -/
def failedMark : Status → TaskPc
  | .failed => .finished
  | _ => .raised

/-- `process_event`: one call. -/
def Task.step (uuid5 : String → Uuid) (chart : Chart) (L : Ledger) (log : EventLog) (t : Task)
    (l : Luck) : TaskResult :=
  let e := t.msg.event
  let goto (L : Ledger) (log : EventLog) (pc : TaskPc) : TaskResult :=
    ⟨L, log, some { t with pc := pc }, []⟩
  match t.pc with
  | .start =>
      -- the extraction is outside the `try`: there is no retry, and no row is marked
      if traceReadable t.msg.payload = false ∧ l.outcome ≠ .ok then ⟨L, log, none, []⟩
      else if e.type ∉ handledEventTypes then goto L log (.update .noMoneyMoved)
      else
        match mapEvent uuid5 l.client e with
        | .error _ => goto L log .raised
        | .ok none => goto L log (.update .noMoneyMoved)
        | .ok (some txn) => goto L log (.post txn 4)
  | .post txn retries =>
      match l.outcome with
      | .failBefore => goto L log .raised
      | .failAfter => goto (attempt chart L txn l.fault).2 log .raised
      | .ok =>
          match attempt chart L txn l.fault with
          | (.error (.pg .serializationFailure), L') =>
              match retries with
              | 0 => goto L' log .raised
              | retries + 1 => goto L' log (.post txn retries)
          | (r, L') =>
              match postOutcome r with
              | .ok _ => goto L' log (.update .processed)
              | .error _ => goto L' log .raised
  | .update status =>
      match l.outcome, log.hasId e.id with
      | .ok, true => goto L (log.setStatus e.id status) .finished
      | .ok, false => goto L log (.insert status)
      | .failAfter, true => goto L (log.setStatus e.id status) (failedMark status)
      | _, _ => goto L log (failedMark status)
  | .insert status =>
      match moneyMovementObjectId e with
      | .error _ => goto L log (failedMark status)
      | .ok oid =>
          match l.outcome with
          | .ok => goto L (log.upsert e oid status) .finished
          | .failBefore => goto L log (failedMark status)
          | .failAfter => goto L (log.upsert e oid status) (failedMark status)
  | .raised =>
      if t.msg.retries < maxRetries then ⟨L, log, none, [⟨t.msg.payload, t.msg.retries + 1⟩]⟩
      else goto L log (.update .failed)
  | .finished => ⟨L, log, none, []⟩

/-! ## The system -/

/-- The database, the messages that are ready or scheduled, the running tasks, and every request
there has been. -/
structure State where
  ledger : Ledger
  log : EventLog
  ready : List Message
  tasks : List Task
  requests : List Request

/-- Nothing has happened yet. -/
def State.init : State := ⟨.empty, [], [], [], []⟩

/-- What may happen next. -/
inductive Act
  /-- A verified delivery arrives. -/
  | deliver (e : Event)
  /-- The `i`-th request makes its next call. -/
  | request (i : ℕ) (o : Outcome) (carrier : List (String × String))
  /-- Some other producer enqueues an event. -/
  | inject (e : Event) (carrier : List (String × String))
  /-- A worker takes the `i`-th ready message. -/
  | take (i : ℕ)
  /-- The `i`-th task makes its next call. -/
  | work (i : ℕ) (l : Luck)
  /-- The worker of the `i`-th task dies, and the message is ready again. -/
  | crash (i : ℕ)
  /-- The visibility timeout of the `i`-th task's message passes while it runs. -/
  | redeliver (i : ℕ)

/-- One step of the system. -/
def State.next (uuid5 : String → Uuid) (chart : Chart) (s : State) : Act → State
  | .deliver e => { s with requests := s.requests ++ [⟨e, .record, none, none⟩] }
  | .request i o carrier =>
      match s.requests[i]? with
      | some q =>
          let r := q.step s.log o carrier
          { s with log := r.1, requests := s.requests.set i r.2.1, ready := s.ready ++ r.2.2 }
      | none => s
  | .inject e carrier => { s with ready := s.ready ++ [⟨injectTraceContext carrier e, 0⟩] }
  | .take i =>
      match s.ready[i]? with
      | some m => { s with ready := s.ready.eraseIdx i, tasks := s.tasks ++ [⟨m, .start⟩] }
      | none => s
  | .work i l =>
      match s.tasks[i]? with
      | some t =>
          let r := t.step uuid5 chart s.ledger s.log l
          { s with ledger := r.ledger, log := r.log, ready := s.ready ++ r.published,
                   tasks := match r.task with
                     | some t' => s.tasks.set i t'
                     | none => s.tasks.eraseIdx i }
      | none => s
  | .crash i =>
      match s.tasks[i]? with
      | some t => { s with ready := s.ready ++ [t.msg], tasks := s.tasks.eraseIdx i }
      | none => s
  | .redeliver i =>
      match s.tasks[i]? with
      | some t => { s with ready := s.ready ++ [t.msg] }
      | none => s

/-- The state after a run. -/
def run (uuid5 : String → Uuid) (chart : Chart) (acts : List Act) : State :=
  acts.foldl (State.next uuid5 chart) .init

end LedgerProof
