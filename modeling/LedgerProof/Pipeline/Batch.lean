import LedgerProof.Pipeline.Invariants
import LedgerProof.Worker.OrderIndependence

/-!
# A batch of new events

What the pipeline makes of a list of events that the books have never seen, in runs in which nothing
fails for good but workers: deliveries may repeat and overlap, a worker may die at any point,
messages may come twice, and attempts to post may lose to a serialization failure.

The ledger is then the one the run started from with the rows of some of the batch appended, each
once (`State.Serves`).  Which events these are can be read off the event log, and once no event of
the batch is pending they are all that move money (`State.Serves.booked_all`).
-/

namespace LedgerProof

/-! ## What an event comes to -/

section

variable (uuid5 : String → Uuid) (chart : Chart)

/-- The worker posts the event as `txn`, whatever its client says, and the schema stores `W` for
it. -/
def Event.PostsAs (e : Event) (txn : LedgerTransaction) (W : Ledger) : Prop :=
  e.type ∈ handledEventTypes ∧ (∀ client, mapEvent uuid5 client e = .ok (some txn)) ∧
    txn.writes chart = .ok W

/-- The worker finds that the event moves no money. -/
def Event.PostsNothing (e : Event) : Prop :=
  e.type ∈ handledEventTypes → ∀ client, mapEvent uuid5 client e = .ok none

/-- The rows the ledger gets for an event. -/
def Event.posting (e : Event) : Ledger :=
  match postable uuid5 chart none e with
  | some (_, W) => W
  | none => .empty

/-- The ledger with the rows of some events appended. -/
def Ledger.book (L : Ledger) (P : List Event) : Ledger :=
  P.foldl (fun L e => L.append (e.posting uuid5 chart)) L

end

section

variable {uuid5 : String → Uuid} {chart : Chart} {e : Event} {txn : LedgerTransaction}
  {L W : Ledger}
  {P : List Event}

lemma Event.PostsAs.postable (h : e.PostsAs uuid5 chart txn W) (client : Option Client) :
    postable uuid5 chart client e = some (txn, W) :=
  postable_eq_some_iff.mpr ⟨h.1, h.2.1 client, h.2.2⟩

lemma Event.PostsAs.posting (h : e.PostsAs uuid5 chart txn W) : e.posting uuid5 chart = W := by
  rw [Event.posting, h.postable]

lemma Event.PostsAs.transactions (h : e.PostsAs uuid5 chart txn W) :
    (e.posting uuid5 chart).transactions = [txn.row] := by
  obtain ⟨-, rows, -, rfl, -⟩ := LedgerTransaction.writes_ok_iff.mp h.2.2
  rw [h.posting]

lemma Event.PostsAs.stripeEventId (h : e.PostsAs uuid5 chart txn W) :
    txn.row.stripeEventId = some e.id :=
  (mapEvent_identity (h.2.1 none)).2.1

lemma Event.PostsNothing.postable (h : e.PostsNothing uuid5) (client : Option Client) :
    postable uuid5 chart client e = none := by
  unfold LedgerProof.postable
  by_cases htype : e.type ∈ handledEventTypes
  · simp [htype, h htype client]
  · simp [htype]

lemma Event.PostsNothing.posting (h : e.PostsNothing uuid5) : e.posting uuid5 chart = .empty := by
  rw [Event.posting, h.postable]

@[simp] lemma Ledger.book_nil : L.book uuid5 chart [] = L := rfl

@[simp] lemma Ledger.book_cons : L.book uuid5 chart (e :: P) =
    (L.append (e.posting uuid5 chart)).book uuid5 chart P := rfl

lemma Ledger.book_concat : L.book uuid5 chart (P ++ [e]) =
    (L.book uuid5 chart P).append (e.posting uuid5 chart) := by
  simp [Ledger.book, List.foldl_append]

lemma Ledger.transactions_book : (L.book uuid5 chart P).transactions =
    L.transactions ++ P.flatMap fun e => (e.posting uuid5 chart).transactions := by
  induction P generalizing L with
  | nil => simp
  | cons e P ih => simp [ih]

lemma Ledger.balanceMinor_book (a : Account) : (L.book uuid5 chart P).balanceMinor a =
    L.balanceMinor a + total (fun e : Event => (e.posting uuid5 chart).balanceMinor a) P := by
  induction P generalizing L with
  | nil => simp
  | cons e P ih => simp [ih, add_assoc]

lemma Ledger.conflict_book_iff {t : TransactionRow} : (L.book uuid5 chart P).conflict t = none ↔
    L.conflict t = none ∧ ∀ e ∈ P, (e.posting uuid5 chart).conflict t = none := by
  induction P generalizing L with
  | nil => simp
  | cons e P ih =>
      rw [Ledger.book_cons, ih, Ledger.conflict_append_eq_none_iff, List.forall_mem_cons, and_assoc]

end

/-! ## The batch -/

/-- The events are new to the ledger and to the event log, differ from each other in every key, and
each is one that the worker posts or one that moves no money. -/
structure Batch (uuid5 : String → Uuid) (chart : Chart) (L : Ledger) (log : EventLog)
    (F : List Event) :
    Prop where
  plain : ∀ e ∈ F, stripTraceContext e = e
  object : ∀ e ∈ F, ∃ oid, moneyMovementObjectId e = .ok (some oid)
  apart : F.Pairwise fun e e' => e.id ≠ e'.id ∧ movementKey e ≠ movementKey e'
  effect : ∀ e ∈ F, (∃ txn W, e.PostsAs uuid5 chart txn W ∧ L.conflict txn.row = none) ∨
    e.PostsNothing uuid5
  fresh : ∀ e ∈ F, ∀ oid, moneyMovementObjectId e = .ok oid → log.taken e oid = false

/-- The ledger has a transaction of the event. -/
def Ledger.Booked (L : Ledger) (e : Event) :
    Prop := ∃ t ∈ L.transactions, t.stripeEventId = some e.id

namespace Batch

variable {uuid5 : String → Uuid} {chart : Chart} {L : Ledger} {log : EventLog} {F P : List Event}
  {e e' : Event} {txn : LedgerTransaction} {W : Ledger}

lemma apart_of_ne (h : Batch uuid5 chart L log F) (he : e ∈ F) (he' : e' ∈ F) (hne : e ≠ e') :
    e.id ≠ e'.id ∧ movementKey e ≠ movementKey e' := by
  have hsymm : Std.Symm fun e e' : Event => e.id ≠ e'.id ∧ movementKey e ≠ movementKey e' :=
    ⟨fun _ _ h => ⟨h.1.symm, h.2.symm⟩⟩
  exact h.apart.forall he he' hne

lemma eq_of_id (h : Batch uuid5 chart L log F) (he : e ∈ F) (he' : e' ∈ F) (hid : e.id = e'.id) :
    e = e' := by
  by_contra hne
  exact (h.apart_of_ne he he' hne).1 hid

lemma eq_of_key (h : Batch uuid5 chart L log F) (he : e ∈ F) (he' : e' ∈ F)
    (hkey : movementKey e = movementKey e') : e = e' := by
  by_contra hne
  exact (h.apart_of_ne he he' hne).2 hkey

lemma nodup (h : Batch uuid5 chart L log F) : F.Nodup :=
  h.apart.imp fun hne heq => hne.1 (congrArg Event.id heq)

/-- **A transaction of the batch is refused exactly when it is there already.** -/
lemma conflict_book (h : Batch uuid5 chart L log F) (hinj : Function.Injective uuid5)
    (hP : ∀ e ∈ P, e ∈ F ∧ ∃ txn W, e.PostsAs uuid5 chart txn W) (he : e ∈ F)
    (hpost : e.PostsAs uuid5 chart txn W) :
    (L.book uuid5 chart P).conflict txn.row = none ↔ e ∉ P := by
  have hfree : L.conflict txn.row = none := by
    rcases h.effect e he with ⟨txn', W', hpost', hfree⟩ | hnothing
    · have hsame := (hpost.postable none).symm.trans (hpost'.postable none)
      simp only [Option.some.injEq, Prod.mk.injEq] at hsame
      rw [hsame.1]
      exact hfree
    · have := (hpost.postable none).symm.trans (hnothing.postable none)
      simp at this
  rw [Ledger.conflict_book_iff]
  constructor
  · rintro ⟨-, hall⟩ hmem
    have hself := hall e hmem
    rw [hpost.posting, conflict_writes_iff hinj (hpost.postable none) (hpost.postable none) fun _ =>
      rfl] at hself
    exact hself rfl
  · intro hnot
    refine ⟨hfree, fun e' he' => ?_⟩
    obtain ⟨hF, txn', W', hpost'⟩ := hP e' he'
    rw [hpost'.posting, conflict_writes_iff hinj (hpost'.postable none) (hpost.postable none)
      (h.eq_of_id hF he)]
    exact (h.apart_of_ne hF he fun heq => hnot (heq ▸ he')).2

/-- What the books hold of the batch, by event. -/
lemma booked_book_iff (h : Batch uuid5 chart L log F)
    (hP : ∀ e ∈ P, e ∈ F ∧ ∃ txn W, e.PostsAs uuid5 chart txn W) (he : e ∈ F)
    (hpost : e.PostsAs uuid5 chart txn W) (hfree : L.conflict txn.row = none) :
    (L.book uuid5 chart P).Booked e ↔ e ∈ P := by
  unfold Ledger.Booked
  rw [Ledger.transactions_book]
  constructor
  · rintro ⟨t, ht, hid⟩
    rcases List.mem_append.mp ht with ht | ht
    · have hnot := (Ledger.conflict_eq_none_iff.mp hfree).2.1 t ht
      rw [hid, hpost.stripeEventId] at hnot
      simp at hnot
    · obtain ⟨e', he', ht⟩ := List.mem_flatMap.mp ht
      obtain ⟨hF, txn', W', hpost'⟩ := hP e' he'
      rw [hpost'.transactions, List.mem_singleton] at ht
      rw [ht, hpost'.stripeEventId] at hid
      rwa [h.eq_of_id he hF (Option.some_inj.mp hid).symm]
  · intro hmem
    refine ⟨txn.row, List.mem_append_right _ (List.mem_flatMap.mpr ⟨e, hmem, ?_⟩),
      hpost.stripeEventId⟩
    simp [hpost.transactions]

end Batch

/-! ## Calls that do not fail -/

/-- The ledger bears out the status of an event of the batch. -/
def Ledger.Settles (uuid5 : String → Uuid) (L : Ledger) (e : Event) : Status → Prop
  | .received | .queued => True
  | .processed => L.Booked e
  | .noMoneyMoved => e.PostsNothing uuid5
  | .failed => False

/-- Where a task is with an event of the batch. -/
def TaskPc.Serves (uuid5 : String → Uuid) (chart : Chart) (L : Ledger) (e : Event) : TaskPc → Prop
  | .start | .finished => True
  | .post txn _ => ∃ W, e.PostsAs uuid5 chart txn W
  | .update st => L.Settles uuid5 e st
  | .insert _ | .raised => False

section

variable {uuid5 : String → Uuid} {chart : Chart} {L L' : Ledger} {e : Event}

lemma Ledger.Settles.mono {st : Status} (h : L.Settles uuid5 e st)
    (hsub : L.transactions ⊆ L'.transactions) : L'.Settles uuid5 e st := by
  cases st with
  | processed =>
      obtain ⟨t, ht, hid⟩ := h
      exact ⟨t, hsub ht, hid⟩
  | _ => exact h

lemma TaskPc.Serves.mono {pc : TaskPc} (h : pc.Serves uuid5 chart L e)
    (hsub : L.transactions ⊆ L'.transactions) : pc.Serves uuid5 chart L' e := by
  cases pc with
  | update st => exact Ledger.Settles.mono h hsub
  | _ => exact h

/-- An attempt that is not lost to a serialization failure posts the transaction or finds it
posted. -/
lemma Task.step_post_serves {log : EventLog} {t : Task} {txn : LedgerTransaction} {n : ℕ}
    {W : Ledger} (hL : L.RowsAdmitted chart) (hpc : t.pc = .post txn n)
    (hpost : t.msg.event.PostsAs uuid5 chart txn W)
    (hdup : ∀ c, L.conflict txn.row = some c → L.Booked t.msg.event) {l : Luck}
    (hok : l.outcome = .ok) (hfault : n = 0 → l.fault = none) {t' : Task}
    (ht' : (t.step uuid5 chart L log l).task = some t') :
    t'.pc.Serves uuid5 chart (t.step uuid5 chart L log l).ledger t.msg.event := by
  have hcases := post_cases hL txn
  -- the last attempt meets no fault
  have hattempt : attempt chart L txn l.fault = attempt chart L txn none ∨
      ∃ m, n = m + 1 ∧ attempt chart L txn l.fault = (.error (.pg .serializationFailure), L) := by
    cases n with
    | zero => exact .inl (by rw [hfault rfl])
    | succ m => exact (attempt_fault chart L txn l.fault).imp id fun h => ⟨m, rfl, h⟩
  unfold Task.step at ht' ⊢
  simp only [hpc, hok] at ht' ⊢
  rcases hattempt with h | ⟨m, rfl, h⟩
  · rw [h] at ht' ⊢
    generalize attempt chart L txn none = p at hcases ht' ⊢
    obtain ⟨r, L'⟩ := p
    rcases hcases with ⟨W', hW', hc, ho, hl⟩ | ⟨c, hc, ho, hl⟩ | ⟨err, -, -, hno⟩
    · obtain rfl : L' = L.append W' := hl
      have hrow : (L.append W').Booked t.msg.event := by
        obtain ⟨-, rows, -, rfl, -⟩ := LedgerTransaction.writes_ok_iff.mp hW'
        exact ⟨txn.row, by simp, hpost.stripeEventId⟩
      split at ht'
      · rename_i heq
        obtain ⟨rfl, -⟩ := Prod.mk.inj heq
        simp [postOutcome] at ho
      · rename_i heq
        obtain ⟨rfl, rfl⟩ := Prod.mk.inj heq
        simp only [ho] at ht' ⊢
        cases ht'
        exact hrow
    · obtain rfl : L' = L := hl
      split at ht'
      · rename_i heq
        obtain ⟨rfl, -⟩ := Prod.mk.inj heq
        simp [postOutcome] at ho
      · rename_i heq
        obtain ⟨rfl, rfl⟩ := Prod.mk.inj heq
        simp only [ho] at ht' ⊢
        cases ht'
        exact hdup c hc
    · exact absurd hpost.2.2 (hno W)
  · rw [h] at ht'
    cases ht'
    exact ⟨W, hpost⟩

/-- **A call of a task leaves it where it should be**, when the call does not fail. -/
lemma Task.step_serves {log : EventLog} {t : Task} (hL : L.RowsAdmitted chart)
    (hpc : t.pc.Serves uuid5 chart L t.msg.event) (hid : log.hasId t.msg.event.id = true)
    (heffect : (∃ txn W, t.msg.event.PostsAs uuid5 chart txn W) ∨ t.msg.event.PostsNothing uuid5)
    (hdup : ∀ txn W c, t.msg.event.PostsAs uuid5 chart txn W → L.conflict txn.row = some c →
      L.Booked t.msg.event) {l : Luck} (hok : l.outcome = .ok)
    (hfault : ∀ txn, t.pc = .post txn 0 → l.fault = none) {t' : Task}
    (ht' : (t.step uuid5 chart L log l).task = some t') :
    t'.pc.Serves uuid5 chart (t.step uuid5 chart L log l).ledger t.msg.event := by
  cases hpc₀ : t.pc with
  | start =>
      unfold Task.step at ht' ⊢
      simp only [hpc₀, hok, ne_eq, not_true_eq_false, and_false, if_false] at ht' ⊢
      rcases heffect with ⟨txn, W, hpost⟩ | hnothing
      · simp only [hpost.1, not_true_eq_false, if_false, hpost.2.1] at ht'
        cases ht'
        exact ⟨W, hpost⟩
      · by_cases htype : t.msg.event.type ∈ handledEventTypes
        · simp only [htype, not_true_eq_false, if_false, hnothing htype] at ht'
          cases ht'
          exact hnothing
        · simp only [htype, not_false_eq_true, if_true] at ht'
          cases ht'
          exact hnothing
  | post txn n =>
      rw [hpc₀] at hpc
      obtain ⟨W, hpost⟩ := hpc
      refine Task.step_post_serves hL hpc₀ hpost (fun c => hdup txn W c hpost) hok ?_ ht'
      rintro rfl
      exact hfault txn hpc₀
  | update st =>
      unfold Task.step at ht'
      simp only [hpc₀, hok, hid] at ht'
      cases ht'
      trivial
  | insert st => simp [hpc₀, TaskPc.Serves] at hpc
  | raised => simp [hpc₀, TaskPc.Serves] at hpc
  | finished =>
      unfold Task.step at ht'
      simp [hpc₀] at ht'

/-- What a request whose calls do not fail has come to: its keys are taken, or it has yet to record
an event of the batch. -/
def Request.Serves (log₀ : EventLog) (F : List Event) (q : Request) (log : EventLog) : Prop :=
  q.pc ≠ .answered .error ∧ ∃ oid, moneyMovementObjectId q.event = .ok oid ∧
    log₀.taken q.event oid = false ∧
    (log.taken q.event oid = true ∨ (q.pc = .record ∧ q.event ∈ F))

lemma EventLog.taken_add (log : EventLog) (e : Event) (oid : Option String) (st : Status) :
    (log.add e oid st).taken e oid = true := by
  have hmem : (⟨e.id, e.type, oid, e, st⟩ : EventRow) ∈ log.add e oid st :=
    EventLog.mem_add.mpr (.inr rfl)
  exact Bool.or_eq_true_iff.mpr (.inl (EventLog.hasId_iff.mpr ⟨_, hmem, rfl⟩))

lemma Request.Serves.step {log₀ log : EventLog} {F : List Event} {q : Request}
    (h : q.Serves log₀ F log) (carrier : List (String × String)) :
    (q.step log .ok carrier).2.1.Serves log₀ F (q.step log .ok carrier).1 := by
  obtain ⟨hpc, oid, hoid, hfresh, hcase⟩ := h
  have hgrows : log.Grows (q.step log .ok carrier).1 :=
    (q.step_spec log .ok carrier).logStep.grows fun _ _ h => h.elim
  have hevent : (q.step log .ok carrier).2.1.event = q.event :=
    (q.step_spec log .ok carrier).event_eq
  have hanswer : (q.step log .ok carrier).2.1.pc ≠ .answered .error := by
    unfold Request.step
    cases hq : q.pc with
    | record =>
        simp only [hoid]
        split <;> simp
    | select =>
        simp only [hoid]
        split
        · split <;> simp
        · simp
    | enqueue payload rowId => simp
    | markQueued rowId => simp
    | answered response => simpa [hq] using hpc
  refine ⟨hanswer, oid, by rw [hevent, hoid], by rw [hevent, hfresh], .inl ?_⟩
  rw [hevent]
  rcases hcase with htaken | ⟨hq, -⟩
  · exact hgrows.taken htaken
  · cases htaken : log.taken q.event oid with
    | true => exact hgrows.taken htaken
    | false =>
        unfold Request.step
        simp only [hq, hoid, htaken, Bool.false_eq_true, if_false]
        exact EventLog.taken_add _ _ _ _

end

/-! ## The invariant -/

/-- No call fails for good: what is delivered is of the batch, or has its keys taken by an event of
it, and no attempt to post is the last one lost to a serialization failure.  Workers may die at any
time. -/
def Act.Clean (log₀ : EventLog) (F : List Event) (s : State) : Act → Prop
  | .deliver e => ∃ oid, moneyMovementObjectId e = .ok oid ∧ log₀.taken e oid = false ∧
      (s.log.taken e oid = true ∨ e ∈ F)
  | .request _ o _ => o = .ok
  | .inject _ _ => False
  | .take _ | .crash _ | .redeliver _ => True
  | .work i l =>
      l.outcome = .ok ∧ ∀ t txn, s.tasks[i]? = some t → t.pc = .post txn 0 → l.fault = none

/-- No call fails for good and nobody else is at work: workers take messages, may lose an attempt to
a serialization failure but not the last one, and may die or see a message again at any time. -/
def Act.Calm (s : State) : Act → Prop
  | .deliver _ | .inject _ _ => False
  | .request _ o _ => o = .ok
  | .take _ | .crash _ | .redeliver _ => True
  | .work i l =>
      l.outcome = .ok ∧ ∀ t txn, s.tasks[i]? = some t → t.pc = .post txn 0 → l.fault = none

lemma Act.Calm.clean {s : State} {a : Act} (h : a.Calm s) (log : EventLog) (F : List Event) :
    a.Clean log F s := by
  cases a with
  | deliver e => exact h.elim
  | _ => exact h

namespace State

variable {uuid5 : String → Uuid} {chart : Chart} {L : Ledger} {log : EventLog} {F : List Event}
  {s : State}

/-- The rows of some of the batch have been appended, each once, and every other part of the system
is where this leaves it. -/
structure Serves (uuid5 : String → Uuid) (chart : Chart) (L : Ledger) (log : EventLog)
    (F : List Event) (s : State) : Prop where
  base : s.Base chart
  booked : ∃ P : List Event, P.Nodup ∧ (∀ e ∈ P, e ∈ F ∧ ∃ txn W, e.PostsAs uuid5 chart txn W) ∧
    s.ledger = L.book uuid5 chart P
  rows : ∀ r ∈ s.log, (∃ st, { r with status := st } ∈ log) ∨
    (r.payload ∈ F ∧ s.ledger.Settles uuid5 r.payload r.status)
  held : ∀ m ∈ s.held, m.event ∈ F ∧ s.log.hasId m.event.id = true
  tasks : ∀ t ∈ s.tasks, t.pc.Serves uuid5 chart s.ledger t.msg.event
  requests : ∀ q ∈ s.requests, q.Serves log F s.log

lemma Serves.start (hL : L.Admitted chart) (hlog : log.Wf) :
    Serves uuid5 chart L log F ⟨L, log, [], [], []⟩ where
  base := ⟨hL, hlog, by simp [Marks], by simp⟩
  booked := ⟨[], by simp, by simp, rfl⟩
  rows := fun r hr => .inl ⟨r.status, hr⟩
  held := by simp [State.held]
  tasks := by simp
  requests := by simp

lemma Serves.payload_mem (h : s.Serves uuid5 chart L log F) {r : EventRow} (hr : r ∈ s.log)
    {e : Event} {oid : Option String} (hfresh : log.taken e oid = false)
    (hmeets : r.id = e.id ∨ (r.eventType = e.type ∧ sqlEq r.objectId oid = true)) :
    r.payload ∈ F ∧ s.ledger.Settles uuid5 r.payload r.status := by
  rcases h.rows r hr with ⟨st, hold⟩ | hrow
  · obtain ⟨hid, hkey⟩ := EventLog.taken_eq_false_iff.mp hfresh
    rcases hmeets with heq | heq
    · exact (hid _ hold heq).elim
    · exact (hkey _ hold heq).elim
  · exact hrow

/-- A transaction of the batch that is refused has been booked. -/
lemma Serves.booked_of_conflict (h : s.Serves uuid5 chart L log F) (hF : Batch uuid5 chart L log F)
    (hinj : Function.Injective uuid5) {e : Event} (he : e ∈ F) {txn : LedgerTransaction}
    {W : Ledger} (hpost : e.PostsAs uuid5 chart txn W) {c : String}
    (hconf : s.ledger.conflict txn.row = some c) :
    s.ledger.Booked e := by
  obtain ⟨P, -, hP, hledger⟩ := h.booked
  have hmem : e ∈ P := by
    by_contra hnot
    rw [hledger, (hF.conflict_book hinj hP he hpost).mpr hnot] at hconf
    simp at hconf
  rw [hledger, Ledger.Booked, Ledger.transactions_book]
  refine ⟨txn.row, List.mem_append_right _ (List.mem_flatMap.mpr ⟨e, hmem, ?_⟩),
    hpost.stripeEventId⟩
  simp [hpost.transactions]

lemma Serves.next_booked (h : s.Serves uuid5 chart L log F) (hF : Batch uuid5 chart L log F)
    (hinj : Function.Injective uuid5) (a : Act) :
    ∃ P : List Event, P.Nodup ∧ (∀ e ∈ P, e ∈ F ∧ ∃ txn W, e.PostsAs uuid5 chart txn W) ∧
      (s.next uuid5 chart a).ledger = L.book uuid5 chart P := by
  obtain ⟨P, hnodup, hP, hledger⟩ := h.booked
  rcases next_ledger h.base.ledger.toRowsAdmitted a with
    heq | ⟨i, l, t, txn, n, W, -, ht, hpc, hfree, hW, heq⟩
  · exact ⟨P, hnodup, hP, heq.trans hledger⟩
  · have hmem := List.mem_of_getElem? ht
    obtain ⟨he, -⟩ := h.held t.msg (mem_held.mpr (.inr ⟨t, hmem, rfl⟩))
    have hserves := h.tasks t hmem
    rw [hpc] at hserves
    obtain ⟨W', hpost⟩ := hserves
    obtain rfl : W' = W := Except.ok.inj (hpost.2.2.symm.trans hW)
    have hnot : t.msg.event ∉ P := by
      rw [hledger] at hfree
      exact (hF.conflict_book hinj hP he hpost).mp hfree
    refine ⟨P ++ [t.msg.event], ?_, ?_, ?_⟩
    · exact hnodup.append (by simp) (by simpa using hnot)
    · intro e hmem
      rcases List.mem_append.mp hmem with hmem | hmem
      · exact hP e hmem
      · rw [List.mem_singleton.mp hmem]
        exact ⟨he, txn, W', hpost⟩
    · rw [heq, hledger, Ledger.book_concat, hpost.posting]

lemma Serves.next_rows (h : s.Serves uuid5 chart L log F) (hF : Batch uuid5 chart L log F)
    (a : Act) :
    ∀ r ∈ (s.next uuid5 chart a).log, (∃ st, { r with status := st } ∈ log) ∨
      (r.payload ∈ F ∧ (s.next uuid5 chart a).ledger.Settles uuid5 r.payload r.status) := by
  have hL := h.base.ledger.toRowsAdmitted
  have hsub : s.ledger.transactions ⊆ (s.next uuid5 chart a).ledger.transactions :=
    next_transactions hL a
  refine (next_log hL a).forall_rows (fun r hr => ?_) ?_ (fun r hr hst => ?_) ?_ ?_
  · exact (h.rows r hr).imp id fun hrow => ⟨hrow.1, hrow.2.mono hsub⟩
  · rintro e oid ⟨q, hq, rfl⟩ hoid hfree
    obtain ⟨-, oid', hoid', -, htaken | ⟨-, he⟩⟩ := h.requests q hq
    · obtain rfl : oid = oid' := Except.ok.inj (hoid.symm.trans hoid')
      rw [hfree] at htaken
      cases htaken
    · exact .inr ⟨he, trivial⟩
  · exact (h.rows r hr).imp (fun ⟨st, hst⟩ => ⟨st, hst⟩) fun hrow => ⟨hrow.1, trivial⟩
  · -- the row that is marked stores the event of the task that marks it
    rintro r hr e st ⟨t, ht, rfl, hpc⟩ hid
    obtain ⟨he, -⟩ := h.held t.msg (mem_held.mpr (.inr ⟨t, ht, rfl⟩))
    obtain ⟨oid, hoid⟩ := hF.object _ he
    have hrow := (h.payload_mem hr (hF.fresh _ he _ hoid) (.inl hid)).1
    have hsame : r.payload = t.msg.event :=
      hF.eq_of_id hrow he ((h.base.log.payload r hr).1.trans hid)
    have hserves := h.tasks t ht
    rcases hpc with hpc | hpc
    · rw [hpc] at hserves
      refine .inr ⟨hrow, ?_⟩
      rw [hsame]
      exact Ledger.Settles.mono hserves hsub
    · rw [hpc] at hserves
      exact hserves.elim
  · rintro e st oid ⟨t, ht, rfl, -⟩ - hfree
    have hid := (h.held t.msg (mem_held.mpr (.inr ⟨t, ht, rfl⟩))).2
    rw [EventLog.taken, hid] at hfree
    simp at hfree

lemma Serves.enqueue_mem (h : s.Serves uuid5 chart L log F) {q : Request} (hq : q ∈ s.requests)
    {payload : Event} {rowId : String} (hpc : q.pc = .enqueue payload rowId) :
    payload ∈ F ∧ s.log.hasId payload.id = true := by
  obtain ⟨-, oid, hoid, hfresh, -⟩ := h.requests q hq
  have hsound := h.base.requests q hq
  have hpcs := hsound.pc
  rw [Request.PcSound, hpc] at hpcs
  obtain ⟨-, r, hr, hrow, rfl⟩ := hpcs
  have hmeets : r.id = q.event.id ∨ (r.eventType = q.event.type ∧ sqlEq r.objectId oid = true) := by
    unfold Request.rowId at hrow
    cases hres : q.result with
    | none => simp [hres] at hrow
    | some d =>
        cases hnew : d.new with
        | true =>
            simp only [hres, hnew, if_true, Option.some.injEq] at hrow
            exact .inl hrow.symm
        | false =>
            obtain ⟨r', hr', st, rfl, -, hmeets⟩ := hsound.blocked d hres hnew
            simp only [hres, Bool.false_eq_true, if_false, Option.some.injEq] at hrow
            obtain rfl : r' = r := h.base.log.eq_of_id hr' hr hrow
            rcases hmeets with hid | ⟨oid', hoid', hkey⟩
            · exact .inl hid
            · obtain rfl : oid = oid' := Except.ok.inj (hoid.symm.trans hoid')
              exact .inr hkey
  refine ⟨(h.payload_mem hr hfresh hmeets).1, EventLog.hasId_iff.mpr ⟨r, hr, ?_⟩⟩
  exact (h.base.log.payload r hr).1.symm

lemma Serves.next_held (h : s.Serves uuid5 chart L log F) (hF : Batch uuid5 chart L log F) {a : Act}
    (ha : a.Clean log F s) :
    ∀ m ∈ (s.next uuid5 chart a).held, m.event ∈ F ∧
      (s.next uuid5 chart a).log.hasId m.event.id = true := by
  have hgrows : s.log.Grows (s.next uuid5 chart a).log := h.base.grows a
  intro m' hm'
  rcases State.next_held h.base.ledger.toRowsAdmitted a hm' with
    ⟨m, hm, heq⟩ | ⟨e, he, heq⟩ | ⟨q, hq, payload, rowId, hpc, heq⟩
  · rw [heq]
    exact ⟨(h.held m hm).1, hgrows.hasId (h.held m hm).2⟩
  · cases a with
    | deliver e' => exact h.held m' hm'
    | inject e' carrier => exact ha.elim
    | _ => simp [Act.event] at he
  · obtain ⟨hmem, hid⟩ := h.enqueue_mem hq hpc
    rw [heq, hF.plain _ hmem]
    exact ⟨hmem, hgrows.hasId hid⟩

lemma Serves.next_tasks (h : s.Serves uuid5 chart L log F) (hF : Batch uuid5 chart L log F)
    (hinj : Function.Injective uuid5) {a : Act} (ha : a.Clean log F s) :
    ∀ t ∈ (s.next uuid5 chart a).tasks,
      t.pc.Serves uuid5 chart (s.next uuid5 chart a).ledger t.msg.event := by
  have hL := h.base.ledger.toRowsAdmitted
  intro t' ht'
  rcases next_task hL a ht' with hold | ⟨m, -, rfl⟩ | ⟨i, l, t, r, rfl, ht, hstep, hr, rfl, hledger,
    -⟩
  · exact (h.tasks t' hold).mono (next_transactions hL a)
  · trivial
  · have hmem := List.mem_of_getElem? ht
    obtain ⟨he, hid⟩ := h.held t.msg (mem_held.mpr (.inr ⟨t, hmem, rfl⟩))
    rw [hledger, hstep.msg_eq hr]
    refine Task.step_serves hL (h.tasks t hmem) hid ?_ ?_ ha.1 (fun txn hpc => ha.2 t txn ht hpc) hr
    · exact (hF.effect _ he).imp (fun ⟨txn, W, hpost, _⟩ => ⟨txn, W, hpost⟩) id
    · exact fun txn W c hpost hconf => h.booked_of_conflict hF hinj he hpost hconf

lemma Serves.next_requests (h : s.Serves uuid5 chart L log F) {a : Act} (ha : a.Clean log F s) :
    ∀ q ∈ (s.next uuid5 chart a).requests, q.Serves log F (s.next uuid5 chart a).log := by
  have hgrows : s.log.Grows (s.next uuid5 chart a).log := h.base.grows a
  have hkept : ∀ q ∈ s.requests, q.Serves log F (s.next uuid5 chart a).log := by
    intro q hq
    obtain ⟨hpc, oid, hoid, hfresh, hcase⟩ := h.requests q hq
    exact ⟨hpc, oid, hoid, hfresh, hcase.imp hgrows.taken id⟩
  intro q' hq'
  cases a with
  | deliver e =>
      rcases List.mem_append.mp hq' with hq' | hq'
      · exact hkept q' hq'
      · obtain ⟨oid, hoid, hfresh, hcase⟩ := ha
        rw [List.mem_singleton.mp hq']
        exact ⟨by simp, oid, hoid, hfresh, hcase.imp id fun he => ⟨rfl, he⟩⟩
  | request i o carrier =>
      obtain rfl : o = .ok := ha
      cases hq : s.requests[i]? with
      | none =>
          simp only [State.next, hq] at hq' ⊢
          exact h.requests q' hq'
      | some q =>
          simp only [State.next, hq] at hq' hkept ⊢
          rcases List.mem_or_eq_of_mem_set hq' with hq' | rfl
          · exact hkept q' hq'
          · exact (h.requests q (List.mem_of_getElem? hq)).step carrier
  | inject e carrier => exact ha.elim
  | take i => cases hm : s.ready[i]? <;> exact hkept q' (by simpa only [State.next, hm] using hq')
  | work i l => cases ht : s.tasks[i]? <;> exact hkept q' (by simpa only [State.next, ht] using hq')
  | crash i => cases ht : s.tasks[i]? <;> exact hkept q' (by simpa only [State.next, ht] using hq')
  | redeliver i =>
      cases ht : s.tasks[i]? <;> exact hkept q' (by simpa only [State.next, ht] using hq')

/-- **Every step that does not fail keeps the invariant.** -/
lemma Serves.next (h : s.Serves uuid5 chart L log F) (hF : Batch uuid5 chart L log F)
    (hinj : Function.Injective uuid5) {a : Act} (ha : a.Clean log F s) :
    (s.next uuid5 chart a).Serves uuid5 chart L log F where
  base := h.base.next a
  booked := h.next_booked hF hinj a
  rows := h.next_rows hF a
  held := h.next_held hF ha
  tasks := h.next_tasks hF hinj ha
  requests := h.next_requests ha

/-! ## When nothing is pending -/

/-- The event whose keys are taken has a row of its own. -/
lemma Serves.hasId_of_taken (h : s.Serves uuid5 chart L log F) (hF : Batch uuid5 chart L log F)
    {e : Event} (he : e ∈ F) {oid : Option String} (hoid : moneyMovementObjectId e = .ok oid)
    (htaken : s.log.taken e oid = true) : s.log.hasId e.id = true := by
  obtain ⟨r, hrow⟩ := Option.isSome_iff_exists.mp (EventLog.blocking_isSome htaken)
  obtain ⟨hr, hmeets⟩ := EventLog.blocking_some hrow
  obtain ⟨hmem, -⟩ := h.payload_mem hr (hF.fresh e he oid hoid) hmeets
  obtain ⟨hid, htype, hobj⟩ := h.base.log.payload r hr
  rcases hmeets with heq | ⟨htype', hkey⟩
  · exact EventLog.hasId_iff.mpr ⟨r, hr, heq⟩
  · obtain ⟨x, hx, rfl⟩ := sqlEq_iff.mp hkey
    have hsame : r.payload = e := by
      refine hF.eq_of_key hmem he ?_
      rw [movementKey, movementKey, hobj, hoid, hx, htype, htype']
    exact EventLog.hasId_iff.mpr ⟨r, hr, by rw [← hid, hsame]⟩

/-- **Once every event of the batch is on record and none is pending, the books have the rows of all
of them**, each once. -/
lemma Serves.booked_all (h : s.Serves uuid5 chart L log F) (hF : Batch uuid5 chart L log F)
    (hid : ∀ e ∈ F, s.log.hasId e.id = true)
    (hquiet : ∀ r ∈ s.log, r.id ∈ F.map (·.id) → r.status.terminal = true) :
    ∃ P : List Event, P.Perm (F.filter fun e => (postable uuid5 chart none e).isSome) ∧
      s.ledger = L.book uuid5 chart P := by
  obtain ⟨P, hnodup, hP, hledger⟩ := h.booked
  refine ⟨P, (List.perm_ext_iff_of_nodup hnodup (hF.nodup.filter _)).mpr fun e => ?_, hledger⟩
  rw [List.mem_filter]
  constructor
  · intro hmem
    obtain ⟨he, txn, W, hpost⟩ := hP e hmem
    exact ⟨he, by simp [hpost.postable]⟩
  · rintro ⟨he, hsome⟩
    obtain ⟨r, hr, hrid⟩ := EventLog.hasId_iff.mp (hid e he)
    obtain ⟨oid, hoid⟩ := hF.object e he
    obtain ⟨hmem, hsettles⟩ := h.payload_mem hr (hF.fresh e he _ hoid) (.inl hrid)
    obtain rfl : r.payload = e := hF.eq_of_id hmem he ((h.base.log.payload r hr).1.trans hrid)
    have hterm := hquiet r hr (List.mem_map.mpr ⟨_, he, hrid.symm⟩)
    rcases hF.effect _ he with ⟨txn, W, hpost, hfree⟩ | hnothing
    · have hbooked : s.ledger.Booked r.payload := by
        cases hst : r.status with
        | processed =>
            rw [hst] at hsettles
            exact hsettles
        | noMoneyMoved =>
            rw [hst] at hsettles
            have hnone : postable uuid5 chart none r.payload = none :=
              Event.PostsNothing.postable hsettles none
            rw [hnone] at hsome
            simp at hsome
        | failed =>
            rw [hst] at hsettles
            exact hsettles.elim
        | received => simp [hst, Status.terminal] at hterm
        | queued => simp [hst, Status.terminal] at hterm
      rw [hledger] at hbooked
      exact (hF.booked_book_iff hP he hpost hfree).mp hbooked
    · rw [hnothing.postable] at hsome
      simp at hsome

end State

end LedgerProof
