import LedgerProof.Pipeline.ExactlyOnce
import LedgerProof.Worker.OrderIndependence

/-!
# Replaying the event log

The event log keeps the payload of everything that was acknowledged, so the books can be rebuilt
from it: hand the stored payloads to the handler, in any order and as often as one likes.
`replay_rebuilds_books` says when that gives the books of the running system, and that on the
running system itself such a replay does nothing but post what is missing.

The premise is that messages come from the log (`Act.FromLog`): ingest enqueues what it recorded,
and whoever queues an event by hand takes it from a row.  Then the ledger is at any time what the
handler makes of some recorded events (`State.Recorded`), and since the keys of the log leave one
row for a movement, the recorded events are consistent without any assumption about Stripe, except
that it gives the same answer whenever it answers.
-/

namespace LedgerProof

/-! ## Stripe's answers -/

/-- Whatever `c` answers, `client` answers too. -/
def Client.AnswersFrom (c client : Client) : Prop :=
  ∀ path params v, c path params = .ok v → client path params = .ok v

section

variable {uuid5 : String → Uuid} {chart : Chart} {c client : Client}

lemma resolveFee_mono (hc : c.AnswersFrom client) {e : Event} {bt : Option String} {fee : Json}
    (h : resolveFee e bt c = .ok fee) : resolveFee e bt client = .ok fee := by
  cases bt with
  | some id =>
      obtain ⟨v, hv, hfee⟩ := except_bind_eq_ok.mp h
      exact except_bind_eq_ok.mpr ⟨v, hc _ _ _ hv, hfee⟩
  | none =>
      obtain ⟨data, hdata, h⟩ := except_bind_eq_ok.mp h
      obtain ⟨obj, hobj, h⟩ := except_bind_eq_ok.mp h
      obtain ⟨id, hid, h⟩ := except_bind_eq_ok.mp h
      refine except_bind_eq_ok.mpr ⟨data, hdata, except_bind_eq_ok.mpr ⟨obj, hobj,
        except_bind_eq_ok.mpr ⟨id, hid, ?_⟩⟩⟩
      split at h
      · split_ifs at h ⊢ with htype
        · obtain ⟨charge, hcharge, h⟩ := except_bind_eq_ok.mp h
          exact except_bind_eq_ok.mpr ⟨charge, hc _ _ _ hcharge, h⟩
      · exact h

/-- What an event maps to with some of Stripe's answers, it maps to with all of them. -/
lemma mapEvent_mono {oc : Option Client} (hoc : ∀ c, oc = some c → c.AnswersFrom client) {e : Event}
    {r : Option LedgerTransaction} (h : mapEvent uuid5 oc e = .ok r) :
    mapEvent uuid5 (some client) e = .ok r := by
  unfold mapEvent at h ⊢
  cases hbuild : buildTransaction uuid5 e .null with
  | ok t =>
      rw [hbuild] at h
      exact h
  | error err =>
      rw [hbuild] at h
      cases err with
      | missingFeeData bt =>
          cases oc with
          | none => simp at h
          | some c =>
              obtain ⟨fee, hfee, htxn⟩ := except_bind_eq_ok.mp h
              exact except_bind_eq_ok.mpr ⟨fee, resolveFee_mono (hoc c rfl) hfee, htxn⟩
      | _ => simp at h

/-- A task that is about to post mapped its event with the client of that call. -/
lemma Task.step_post_of_start {L : Ledger} {log : EventLog} {t t' : Task} {l : Luck}
    (hpc : t.pc = .start) (ht' : (t.step uuid5 chart L log l).task = some t')
    {txn : LedgerTransaction} {n : ℕ} (hpc' : t'.pc = .post txn n) :
    t.msg.event.type ∈ handledEventTypes ∧
      mapEvent uuid5 l.client t.msg.event = .ok (some txn) := by
  unfold Task.step at ht'
  simp only [hpc] at ht'
  split at ht'
  · cases ht'
  by_cases htype : t.msg.event.type ∈ handledEventTypes
  · simp only [htype, not_true_eq_false, if_false] at ht'
    refine ⟨htype, ?_⟩
    cases hmap : mapEvent uuid5 l.client t.msg.event with
    | error err =>
        simp only [hmap, Option.some.injEq] at ht'
        simp [← ht'] at hpc'
    | ok r =>
        cases r with
        | none =>
            simp only [hmap, Option.some.injEq] at ht'
            simp [← ht'] at hpc'
        | some txn' =>
            simp only [hmap, Option.some.injEq] at ht'
            simp only [← ht', TaskPc.post.injEq] at hpc'
            rw [hpc'.1]
  · simp only [htype, not_false_eq_true, if_true, Option.some.injEq] at ht'
    simp [← ht'] at hpc'

/-- Any other task that is about to post was about to post the same before. -/
lemma TaskStep.post_again {L : Ledger} {log : EventLog} {t t' : Task} {r : TaskResult}
    (h : TaskStep uuid5 chart L log t r) (hpc : t.pc ≠ .start) (ht' : r.task = some t')
    {txn : LedgerTransaction} {n : ℕ} (hpc' : t'.pc = .post txn n) : t.pc = .post txn (n + 1) := by
  cases h with
  | dropped hstart => cases ht'
  | mapped hstart htype hmap => exact absurd hstart hpc
  | again hpost =>
      cases ht'
      cases hpc'
      exact hpost
  | retry hpc hlt => cases ht'
  | acked hpc => cases ht'
  | posted hpc hfree hW hnext =>
      cases ht'
      rcases hnext with rfl | rfl <;> cases hpc'
  | @marked st' pc hpc hid hnext =>
      cases ht'
      rcases hnext with rfl | rfl <;> cases st' <;> cases hpc'
  | @upserted st' pc oid hpc hoid hnext =>
      cases ht'
      rcases hnext with rfl | rfl <;> cases st' <;> cases hpc'
  | @mark_failed st' hpc =>
      cases ht'
      cases st' <;> cases hpc'
  | _ =>
      cases ht'
      cases hpc'

end

/-! ## The recorded events -/

/-- The events of the log, as the handler gets them. -/
def EventLog.events (log : EventLog) : List Event := log.map fun r => stripTraceContext r.payload

section

variable {uuid5 : String → Uuid} {chart : Chart} {client : Option Client} {log log' : EventLog}
  {e : Event}

lemma EventLog.mem_events : e ∈ log.events ↔ ∃ r ∈ log, stripTraceContext r.payload = e := by
  simp [EventLog.events]

lemma EventLog.Grows.mem_events (h : log.Grows log') (he : e ∈ log.events) : e ∈ log'.events := by
  obtain ⟨r, hr, heq⟩ := EventLog.mem_events.mp he
  obtain ⟨st, hst, -⟩ := h r hr
  exact EventLog.mem_events.mpr ⟨_, hst, heq⟩

/-- Recorded events with one id are one row. -/
lemma EventLog.Wf.eq_of_event_id (h : log.Wf) {r r' : EventRow} (hr : r ∈ log) (hr' : r' ∈ log)
    (hid : r.payload.id = r'.payload.id) : r = r' := by
  refine h.eq_of_id hr hr' ?_
  rw [← (h.payload r hr).1, ← (h.payload r' hr').1, hid]

lemma EventLog.Wf.eq_of_object (h : log.Wf) {r r' : EventRow} (hr : r ∈ log) (hr' : r' ∈ log)
    (htype : r.payload.type = r'.payload.type) {oid : String}
    (hoid : moneyMovementObjectId r.payload = .ok (some oid))
    (hoid' : moneyMovementObjectId r'.payload = .ok (some oid)) : r = r' := by
  obtain ⟨-, ht, ho⟩ := h.payload r hr
  obtain ⟨-, ht', ho'⟩ := h.payload r' hr'
  refine h.eq_of_id hr hr' (h.object_dedupe r hr r' hr' (by rw [← ht, ← ht', htype]) ?_)
  rw [Except.ok.inj (ho.symm.trans hoid), Except.ok.inj (ho'.symm.trans hoid')]
  simp

/-- **The recorded events are consistent**: the keys of the log leave one row for each id, and one
for each type and object. -/
lemma EventLog.Wf.consistent (h : log.Wf) : Consistent uuid5 client log.events where
  same_id := by
    intro e he e' he' hid
    obtain ⟨r, hr, rfl⟩ := EventLog.mem_events.mp he
    obtain ⟨r', hr', rfl⟩ := EventLog.mem_events.mp he'
    rw [h.eq_of_event_id hr hr' hid]
  same_entries := by
    intro e he e' he' htype oid hoid hoid' txn txn' hmap hmap'
    obtain ⟨r, hr, rfl⟩ := EventLog.mem_events.mp he
    obtain ⟨r', hr', rfl⟩ := EventLog.mem_events.mp he'
    rw [moneyMovementObjectId_strip] at hoid hoid'
    rw [h.eq_of_object hr hr' htype hoid hoid', hmap'] at hmap
    cases hmap
    rfl

lemma handleAll_ledger_congr {db db' : Db} (hL : db.ledger.Admitted chart)
    (heq : db.ledger = db'.ledger) (es : List Event) :
    (handleAll uuid5 chart client db es).ledger = (handleAll uuid5 chart client db' es).ledger := by
  induction es generalizing db db' with
  | nil => exact heq
  | cons e es ih =>
      refine ih (handleEvent_admitted hL e) ?_
      rw [handleEvent_ledger hL.toRowsAdmitted, handleEvent_ledger (heq ▸ hL).toRowsAdmitted, heq]

end

/-! ## Where the ledger comes from -/

/-- Messages come from the event log, and Stripe's answers are those of `client`. -/
def Act.FromLog (client : Client) (s : State) : Act → Prop
  | .inject e _ => stripTraceContext e ∈ s.log.events
  | .work _ l => ∀ c, l.client = some c → c.AnswersFrom client
  | _ => True

namespace State

variable {uuid5 : String → Uuid} {chart : Chart} {client : Client} {s : State}

/-- Every message has its event in the log, a task that is about to post has what `client` maps its
event to, and the ledger is what the handler makes of some recorded events. -/
structure Recorded (uuid5 : String → Uuid) (chart : Chart) (client : Client) (s : State) :
    Prop where
  held : ∀ m ∈ s.held, m.event ∈ s.log.events
  mapped : ∀ t ∈ s.tasks, ∀ txn n, t.pc = .post txn n → t.msg.event.type ∈ handledEventTypes ∧
    mapEvent uuid5 (some client) t.msg.event = .ok (some txn)
  books : ∃ P, (∀ e ∈ P, e ∈ s.log.events) ∧
    s.ledger = (handleAll uuid5 chart (some client) ⟨.empty, []⟩ P).ledger

lemma Recorded.init : Recorded uuid5 chart client .init where
  held := by simp [State.init, State.held]
  mapped := by simp [State.init]
  books := ⟨[], by simp, rfl⟩

lemma Recorded.next_held (h : s.Recorded uuid5 chart client) (hb : s.Base chart) {a : Act}
    (ha : a.FromLog client s) :
    ∀ m ∈ (s.next uuid5 chart a).held, m.event ∈ (s.next uuid5 chart a).log.events := by
  have hgrows : s.log.Grows (s.next uuid5 chart a).log := hb.grows a
  intro m hm
  refine hgrows.mem_events ?_
  rcases State.next_held hb.ledger.toRowsAdmitted a hm with
    ⟨m', hm', heq⟩ | ⟨e, he, heq⟩ | ⟨q, hq, payload, rowId, hpc, heq⟩
  · rw [heq]
    exact h.held m' hm'
  · cases a with
    | deliver e' => exact h.held m hm
    | inject e' carrier =>
        cases he
        rw [heq]
        exact ha
    | _ => cases he
  · -- a request enqueues the payload of the row it resolved to
    have hpcs := (hb.requests q hq).pc
    rw [Request.PcSound, hpc] at hpcs
    obtain ⟨-, r, hr, -, rfl⟩ := hpcs
    exact EventLog.mem_events.mpr ⟨r, hr, heq.symm⟩

lemma Recorded.next_mapped (h : s.Recorded uuid5 chart client) (hb : s.Base chart) {a : Act}
    (ha : a.FromLog client s) : ∀ t ∈ (s.next uuid5 chart a).tasks, ∀ txn n, t.pc = .post txn n →
      t.msg.event.type ∈ handledEventTypes ∧
        mapEvent uuid5 (some client) t.msg.event = .ok (some txn) := by
  intro t' ht' txn n hpc'
  rcases next_task hb.ledger.toRowsAdmitted a ht' with
    hold | ⟨m, -, rfl⟩ | ⟨i, l, t, r, rfl, ht, hstep, hr, heq, -⟩
  · exact h.mapped t' hold txn n hpc'
  · cases hpc'
  · rw [hstep.msg_eq hr]
    by_cases hpc : t.pc = .start
    · obtain ⟨htype, hmap⟩ := Task.step_post_of_start hpc (heq ▸ hr) hpc'
      exact ⟨htype, mapEvent_mono ha hmap⟩
    · exact h.mapped t (List.mem_of_getElem? ht) txn (n + 1) (hstep.post_again hpc hr hpc')

lemma Recorded.next_books (h : s.Recorded uuid5 chart client) (hb : s.Base chart) (a : Act) :
    ∃ P, (∀ e ∈ P, e ∈ (s.next uuid5 chart a).log.events) ∧
      (s.next uuid5 chart a).ledger =
        (handleAll uuid5 chart (some client) ⟨.empty, []⟩ P).ledger := by
  have hgrows : s.log.Grows (s.next uuid5 chart a).log := hb.grows a
  obtain ⟨P, hP, hbooks⟩ := h.books
  rcases @next_ledger uuid5 chart s hb.ledger.toRowsAdmitted a with
    heq | ⟨i, l, t, txn, n, W, -, ht, hpc, hfree, hW, heq⟩
  · exact ⟨P, fun e he => hgrows.mem_events (hP e he), heq.trans hbooks⟩
  · -- the step that commits is the one in which the handler would have posted the event
    have hmem := List.mem_of_getElem? ht
    obtain ⟨htype, hmap⟩ := h.mapped t hmem txn n hpc
    have hpost : postable uuid5 chart (some client) t.msg.event = some (txn, W) :=
      postable_eq_some_iff.mpr ⟨htype, hmap, hW⟩
    refine ⟨P ++ [t.msg.event], fun e he => ?_, ?_⟩
    · rcases List.mem_append.mp he with he | he
      · exact hgrows.mem_events (hP e he)
      · rw [List.mem_singleton.mp he]
        exact hgrows.mem_events (h.held t.msg (mem_held.mpr (.inr ⟨t, hmem, rfl⟩)))
    · have hadm : (handleAll uuid5 chart (some client) ⟨.empty, []⟩ P).ledger.Admitted chart :=
        handleAll_admitted (Ledger.empty_admitted chart) P
      rw [handleAll, List.foldl_append]
      refine heq.trans ?_
      rw [List.foldl_cons, List.foldl_nil]
      refine Eq.trans ?_ (handleEvent_ledger hadm.toRowsAdmitted t.msg.event).symm
      rw [hpost, ← hbooks]
      exact (if_pos hfree).symm

/-- **Every step keeps the books recorded.** -/
lemma Recorded.next (h : s.Recorded uuid5 chart client) (hb : s.Base chart) {a : Act}
    (ha : a.FromLog client s) : (s.next uuid5 chart a).Recorded uuid5 chart client where
  held := h.next_held hb ha
  mapped := h.next_mapped hb ha
  books := h.next_books hb a

/-! ## Statuses -/

lemma within_all (s : State) : s.Within fun _ => True where
  rows := fun r _ => ⟨r.payload, trivial, rfl⟩
  requests := fun _ _ => trivial
  held := fun m _ => ⟨m.payload, trivial, rfl⟩

lemma Recorded.strip_payload (h : s.Recorded uuid5 chart client) (hb : s.Base chart) {m : Message}
    (hm : m ∈ s.held) {r : EventRow} (hr : r ∈ s.log) (hid : r.id = m.event.id) :
    stripTraceContext r.payload = m.event := by
  obtain ⟨r', hr', heq⟩ := EventLog.mem_events.mp (h.held m hm)
  have hsame : r' = r := by
    refine hb.log.eq_of_id hr' hr ?_
    rw [hid, ← heq, stripTraceContext_id]
    exact (hb.log.payload r' hr').1.symm
  rw [← hsame, heq]

/-- Statuses stay justified: the argument of `Once.next_rows`, with the log in the place of an
assumption about ids. -/
lemma Recorded.next_once (hinj : Function.Injective uuid5) (h : s.Recorded uuid5 chart client)
    (honce : s.Once uuid5 chart fun _ => True) (hb : s.Base chart) (hm : s.Mapped uuid5) (a : Act) :
    (s.next uuid5 chart a).Once uuid5 chart fun _ => True where
  posted := honce.next_posted hb (within_all s) hm a
  marks := honce.next_marks hinj hb hm a
  rows := by
    have hsub : s.ledger.transactions ⊆ (s.next uuid5 chart a).ledger.transactions :=
      next_transactions hb.ledger.toRowsAdmitted a
    refine (next_log hb.ledger.toRowsAdmitted a).forall_rows (fun r hr =>
      (honce.rows r hr).mono hsub)
      (fun _ _ _ _ _ => Ledger.justifies_of_ne (by simp) (by simp))
      (fun _ _ _ => Ledger.justifies_of_ne (by simp) (by simp)) ?_
      (fun e st _ hmark _ _ => (honce.marks e st hmark).mono hsub)
    rintro r hr e st ⟨t, ht, hmark⟩ hid
    have hjust := (honce.marks e st ⟨t, ht, hmark⟩).mono hsub
    obtain ⟨rfl, -⟩ := hmark
    rw [← h.strip_payload hb (mem_held.mpr (.inr ⟨t, ht, rfl⟩)) hr hid] at hjust
    exact Ledger.justifies_strip.mp hjust

end State

/-- **Every run from the log keeps the books recorded**, and the statuses justified. -/
lemma run_recorded {uuid5 : String → Uuid} (hinj : Function.Injective uuid5) {chart : Chart}
    {client : Client} {acts : List Act}
    (hlog : Guarded (State.next uuid5 chart) (fun s a => a.FromLog client s) .init acts) :
    (run uuid5 chart acts).Base chart ∧ (run uuid5 chart acts).Recorded uuid5 chart client ∧
      (run uuid5 chart acts).Once uuid5 chart fun _ => True := by
  have hinv := hlog.inv
    (fun s => s.Base chart ∧ s.Mapped uuid5 ∧ s.Recorded uuid5 chart client ∧
      s.Once uuid5 chart fun _ => True)
    (fun s a ⟨hb, hm, hr, honce⟩ hG =>
      ⟨hb.next a, hm.next hb a, hr.next hb hG, hr.next_once hinj honce hb hm a⟩)
    ⟨.init, by simp [State.Mapped, State.init], .init, .init⟩
  exact ⟨hinv.1, hinv.2.2.1, hinv.2.2.2⟩

/-! ## Replays -/

section

variable {uuid5 : String → Uuid} {chart : Chart} {client : Client} {s : State}

/-- A transaction that covers an event leaves no room for another one. -/
lemma Ledger.conflict_of_covers {L : Ledger} {t : TransactionRow} (ht : t ∈ L.transactions)
    {e : Event} (hcov : t.Covers e) {oc : Option Client} {txn : LedgerTransaction}
    (hmap : mapEvent uuid5 oc e = .ok (some txn)) : L.conflict txn.row ≠ none := by
  obtain ⟨-, hev, htype, hobj⟩ := mapEvent_identity hmap
  intro hfree
  obtain ⟨-, hfreeEv, hfreeObj⟩ := Ledger.conflict_eq_none_iff.mp hfree
  rcases hcov with hid | ⟨hty, oid, hoid, hobj'⟩
  · have hev' := hfreeEv t ht
    rw [LedgerTransaction.row, hid, hev] at hev'
    simp at hev'
  · have hobj'' := hfreeObj t ht
    have hsame : txn.stripeObjectId = some oid := Except.ok.inj (hobj.symm.trans hoid)
    rw [LedgerTransaction.row, hty, htype, hobj', hsame] at hobj''
    simp at hobj''

/-- The event of a row that is done has nothing to post. -/
lemma State.Once.handled (honce : s.Once uuid5 chart fun _ => True) {r : EventRow} (hr : r ∈ s.log)
    (hst : r.status = .processed ∨ r.status = .noMoneyMoved) {txn : LedgerTransaction} {W : Ledger}
    (hpost : postable uuid5 chart (some client) (stripTraceContext r.payload) = some (txn, W)) :
    s.ledger.conflict txn.row ≠ none := by
  obtain ⟨htype, hmap, -⟩ := postable_eq_some_iff.mp hpost
  have hjust := Ledger.justifies_strip.mpr (honce.rows r hr)
  rcases hst with hst | hst
  · obtain ⟨t, ht, hcov⟩ := hjust.processed hst
    exact Ledger.conflict_of_covers ht hcov hmap
  · rcases hjust.noMoneyMoved hst with hno | hinvoice
    · exact absurd htype hno
    · rw [postable_eq_none_of_invoice hinvoice] at hpost
      cases hpost

/-- Events that have nothing to post leave the ledger alone. -/
lemma handleAll_of_handled {db : Db} (hL : db.ledger.Admitted chart) {es : List Event}
    (hdone : ∀ e ∈ es, ∀ txn W, postable uuid5 chart (some client) e = some (txn, W) →
      db.ledger.conflict txn.row ≠ none) :
    (handleAll uuid5 chart (some client) db es).ledger = db.ledger := by
  induction es generalizing db with
  | nil => rfl
  | cons e es ih =>
      have hone : (handleEvent uuid5 chart (some client) db e).2.ledger = db.ledger := by
        rw [handleEvent_ledger hL.toRowsAdmitted]
        cases hpost : postable uuid5 chart (some client) e with
        | none => rfl
        | some p => exact if_neg (hdone e (by simp) p.1 p.2 hpost)
      refine (ih (handleEvent_admitted hL e) fun e' he' => ?_).trans hone
      rw [hone]
      exact hdone e' (by simp [he'])

end

/-- **The event log rebuilds the books.**  In any state of a run whose messages come from the log,
take the recorded events in any order and as often as you like, with a Stripe that now answers
whatever it answered in the run.  Handled from an empty ledger they give the same balances as
handled on top of the running one: a replay on the live system posts what is missing and no more.
Where every row is done it posts nothing, so the rebuilt books are the live ones. -/
theorem replay_rebuilds_books (uuid5 : String → Uuid) (hinj : Function.Injective uuid5)
    (chart : Chart) (client : Client) (acts : List Act)
    (hlog : Guarded (State.next uuid5 chart) (fun s a => a.FromLog client s) .init acts)
    (es : List Event) (hes : ∀ e, e ∈ es ↔ e ∈ (run uuid5 chart acts).log.events) :
    let s := run uuid5 chart acts
    let rebuilt := handleAll uuid5 chart (some client) ⟨.empty, []⟩ es
    let live := handleAll uuid5 chart (some client) ⟨s.ledger, s.log⟩ es
    accountBalances chart live.ledger = accountBalances chart rebuilt.ledger ∧
      ((∀ r ∈ s.log, r.status = .processed ∨ r.status = .noMoneyMoved) →
        live.ledger = s.ledger ∧
          accountBalances chart s.ledger = accountBalances chart rebuilt.ledger) := by
  intro s rebuilt live
  obtain ⟨hb, hrec, honce⟩ : s.Base chart ∧ s.Recorded uuid5 chart client ∧
      s.Once uuid5 chart fun _ => True :=
    run_recorded hinj hlog
  obtain ⟨P, hP, hbooks⟩ := hrec.books
  have hE : Consistent uuid5 (some client) s.log.events := hb.log.consistent
  have hempty : (⟨.empty, []⟩ : Db).ledger.Admitted chart := Ledger.empty_admitted chart
  have hsame : accountBalances chart live.ledger = accountBalances chart rebuilt.ledger := by
    have hlive : live.ledger =
        (handleAll uuid5 chart (some client) ⟨.empty, []⟩ (P ++ es)).ledger := by
      rw [handleAll, List.foldl_append]
      exact handleAll_ledger_congr hb.ledger hbooks es
    rw [hlive]
    refine List.map_congr_left fun a _ => ?_
    have hleft : (handleAll uuid5 chart (some client) ⟨.empty, []⟩ (P ++ es)).ledger.balanceMinor
        a = _ :=
      (hE.firstWins hinj a).foldl_congr hempty (fun e he => he) fun e => by
        rw [List.mem_append, hes]
        exact or_iff_right_of_imp (hP e)
    have hright : rebuilt.ledger.balanceMinor a = _ :=
      (hE.firstWins hinj a).foldl_congr hempty (fun e he => he) hes
    exact congrArg _ (hleft.trans hright.symm)
  refine ⟨hsame, fun hdone => ?_⟩
  have hquiet : live.ledger = s.ledger := by
    refine handleAll_of_handled hb.ledger fun e he txn W hpost => ?_
    obtain ⟨r, hr, rfl⟩ := EventLog.mem_events.mp ((hes e).mp he)
    exact honce.handled hr (hdone r hr) hpost
  exact ⟨hquiet, by rw [← hquiet, hsame]⟩

/-- A payout is delivered and posted, and then its payload is queued again by hand. -/
def requeuedRun : List Act :=
  [.deliver (samplePayout "evt_1" "po_1"), .request 0 .ok [], .request 0 .ok [], .request 0 .ok [],
    .take 0, .work 0 ⟨none, none, .ok⟩, .work 0 ⟨none, none, .ok⟩, .work 0 ⟨none, none, .ok⟩,
    .work 0 ⟨none, none, .ok⟩, .inject (samplePayout "evt_1" "po_1") []]

theorem replay_rebuilds_books_requeued :
    accountBalances seedChart (run sampleUuid5 seedChart requeuedRun).ledger =
      accountBalances seedChart (handleAll sampleUuid5 seedChart (some fun _ _ =>
        .error (.stripe "down")) ⟨.empty, []⟩ [samplePayout "evt_1" "po_1",
          samplePayout "evt_1" "po_1"]).ledger := by
  have hrow : (run sampleUuid5 seedChart requeuedRun).log =
      [⟨"evt_1", "payout.paid", some "po_1", samplePayout "evt_1" "po_1", .processed⟩] := rfl
  have hanswers : ∀ c : Client, (none : Option Client) = some c →
      c.AnswersFrom fun _ _ => .error (.stripe "down") := nofun
  have hlog : Guarded (State.next sampleUuid5 seedChart)
      (fun s a => a.FromLog (fun _ _ => .error (.stripe "down")) s) .init requeuedRun :=
    ⟨trivial, trivial, trivial, trivial, trivial, hanswers, hanswers, hanswers, hanswers,
      EventLog.mem_events.mpr ⟨_, List.mem_singleton.mpr rfl, rfl⟩, trivial⟩
  refine ((replay_rebuilds_books sampleUuid5 sampleUuid5_injective seedChart _ requeuedRun hlog
    [samplePayout "evt_1" "po_1", samplePayout "evt_1" "po_1"] fun e => ?_).2 fun r hr => ?_).2
  · have hplain : stripTraceContext (samplePayout "evt_1" "po_1") = samplePayout "evt_1" "po_1" :=
      rfl
    rw [EventLog.mem_events, hrow]
    simp [eq_comm, hplain]
  · rw [hrow, List.mem_singleton] at hr
    exact .inl (by rw [hr])

end LedgerProof
