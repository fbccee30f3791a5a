import LedgerProof.Pipeline.IngestSound

/-!
# Exactly-once posting

A message may be copied, delivered again after a crash, or retried after its transaction was
committed, and different events may carry one money movement.  The unique keys of `transactions`
decide, and every rejection is read as "already posted".

The invariant `State.Once` has three parts: where each transaction comes from, and that a status is
justified by the ledger, once for the statuses that tasks are about to write and once for those in
the log.  A status is justified for good, because transactions are never deleted.
-/

namespace LedgerProof

/-- The transaction was mapped from this event, and the ledger has all of its entries. -/
def Ledger.PostedFor (uuid5 : String → Uuid) (chart : Chart) (L : Ledger) (t : TransactionRow)
    (e : Event) : Prop :=
  e.type ∈ handledEventTypes ∧ ∃ client txn, mapEvent uuid5 client e = .ok (some txn) ∧
    txn.row = t ∧ txn.entries.mapM (Entry.row chart t.id) = .ok (L.txnEntries t.id)

/-- The transaction has the event's id or its object key. -/
def TransactionRow.Covers (t : TransactionRow) (e : Event) : Prop :=
  t.stripeEventId = some e.id ∨ (t.eventType = some e.type ∧
    ∃ oid, moneyMovementObjectId e = .ok (some oid) ∧ t.stripeObjectId = some oid)

/-- The ledger bears out the status: a processed event has been posted, by itself or by a twin,
and an event that moved no money is of a kind that moves none. -/
structure Ledger.Justifies (L : Ledger) (e : Event) (st : Status) : Prop where
  processed : st = .processed → ∃ t ∈ L.transactions, t.Covers e
  noMoneyMoved : st = .noMoneyMoved →
    e.type ∉ handledEventTypes ∨ e.type = "invoice.payment_failed"

section

variable {uuid5 : String → Uuid} {chart : Chart} {L L' : Ledger} {t : TransactionRow} {e : Event}
  {st : Status}

lemma Ledger.PostedFor.identity (h : L.PostedFor uuid5 chart t e) :
    t.id = uuid5 ("ledgerproof:" ++ e.id) ∧ t.stripeEventId = some e.id ∧
      t.eventType = some e.type ∧ moneyMovementObjectId e = .ok t.stripeObjectId := by
  obtain ⟨-, client, txn, hmap, rfl, -⟩ := h
  exact mapEvent_identity hmap

lemma Ledger.PostedFor.type_ne (h : L.PostedFor uuid5 chart t e) :
    e.type ≠ "invoice.payment_failed" := by
  obtain ⟨-, client, txn, hmap, -⟩ := h
  obtain ⟨fee, hbuild⟩ := mapEvent_some hmap
  obtain ⟨-, -, -, -, -, -, -, -, hne, -⟩ := buildTransaction_some hbuild
  exact hne

lemma Ledger.PostedFor.append_writes (h : L.PostedFor uuid5 chart t e) {txn : LedgerTransaction}
    {W : Ledger} (hW : txn.writes chart = .ok W) (hne : t.id ≠ txn.id) :
    (L.append W).PostedFor uuid5 chart t e := by
  obtain ⟨htype, client, txn', hmap, hrow, hentries⟩ := h
  obtain ⟨-, rows, hrows, rfl, -⟩ := LedgerTransaction.writes_ok_iff.mp hW
  have hnil : (⟨[txn.row], rows⟩ : Ledger).txnEntries t.id = [] := by
    refine List.filter_eq_nil_iff.mpr fun r hr => ?_
    have htid : r.transactionId = txn.id := mapM_row_tid_eq hrows hr
    simpa [htid] using hne.symm
  refine ⟨htype, client, txn', hmap, hrow, ?_⟩
  rw [txnEntries_append, hnil, List.append_nil]
  exact hentries

lemma Ledger.postedFor_writes (hL : L.RowsAdmitted chart) {txn : LedgerTransaction} {W : Ledger}
    (hfree : L.conflict txn.row = none) (hW : txn.writes chart = .ok W)
    (htype : e.type ∈ handledEventTypes) {client : Option Client}
    (hmap : mapEvent uuid5 client e = .ok (some txn)) :
    (L.append W).PostedFor uuid5 chart txn.row e := by
  obtain ⟨-, rows, hrows, rfl, -⟩ := LedgerTransaction.writes_ok_iff.mp hW
  have hnil : L.txnEntries txn.row.id = [] :=
    hL.txnEntries_eq_nil (Ledger.conflict_eq_none_iff.mp hfree).1
  have hown : (⟨[txn.row], rows⟩ : Ledger).txnEntries txn.row.id = rows :=
    txnEntries_of_mapM_row hrows _
  refine ⟨htype, client, txn, hmap, rfl, ?_⟩
  rw [txnEntries_append, hnil, hown, List.nil_append]
  exact hrows

/-- A mapped transaction has the keys of its event. -/
lemma covers_of_mapEvent {client : Option Client} {txn : LedgerTransaction}
    (hmap : mapEvent uuid5 client e = .ok (some txn)) : txn.row.Covers e :=
  .inl (mapEvent_identity hmap).2.1

/-- **A rejected transaction is there already**, under one of the keys of its event. -/
lemma Ledger.covers_of_conflict (hinj : Function.Injective uuid5)
    (hposted : ∀ t ∈ L.transactions, ∃ e, L.PostedFor uuid5 chart t e) {client : Option Client}
    {txn : LedgerTransaction} (hmap : mapEvent uuid5 client e = .ok (some txn)) {c : String}
    (hconf : L.conflict txn.row = some c) : ∃ t ∈ L.transactions, t.Covers e := by
  obtain ⟨hid, hev, hty, hobj⟩ := mapEvent_identity hmap
  rcases Ledger.conflict_cases hconf with ⟨-, t, ht, heq⟩ | ⟨-, t, ht, heq⟩ | ⟨-, t, ht, heq, heq'⟩
  · -- the id is a digest of the event id
    obtain ⟨e', hpost⟩ := hposted t ht
    obtain ⟨hid', hev', -⟩ := hpost.identity
    have hsame : "ledgerproof:" ++ e'.id = "ledgerproof:" ++ e.id :=
      hinj (by rw [← hid', heq]; exact hid)
    refine ⟨t, ht, .inl ?_⟩
    rw [hev', (String.append_right_inj _).mp hsame]
  · obtain ⟨x, hx, hx'⟩ := sqlEq_iff.mp heq
    refine ⟨t, ht, .inl ?_⟩
    rw [hx, ← hx']
    exact hev
  · obtain ⟨x, hx, hx'⟩ := sqlEq_iff.mp heq
    obtain ⟨y, hy, hy'⟩ := sqlEq_iff.mp heq'
    have hy'' : txn.stripeObjectId = some y := hy'
    refine ⟨t, ht, .inr ⟨?_, y, by rw [hobj, hy''], hy⟩⟩
    rw [hx, ← hx']
    exact hty

lemma Ledger.Justifies.mono (h : L.Justifies e st) (hsub : L.transactions ⊆ L'.transactions) :
    L'.Justifies e st where
  processed := fun hst => by
    obtain ⟨t, ht, hcov⟩ := h.processed hst
    exact ⟨t, hsub ht, hcov⟩
  noMoneyMoved := h.noMoneyMoved

/-- Any other status says nothing about the ledger. -/
lemma Ledger.justifies_of_ne (hp : st ≠ .processed) (hn : st ≠ .noMoneyMoved) :
    L.Justifies e st :=
  ⟨fun h => absurd h hp, fun h => absurd h hn⟩

lemma Ledger.justifies_strip :
    L.Justifies (stripTraceContext e) st ↔ L.Justifies e st := by
  have hcov : ∀ t : TransactionRow, t.Covers (stripTraceContext e) ↔ t.Covers e := by
    intro t
    simp [TransactionRow.Covers]
  constructor
  · rintro ⟨hp, hn⟩
    exact ⟨by simpa only [hcov] using hp, hn⟩
  · rintro ⟨hp, hn⟩
    exact ⟨by simpa only [hcov] using hp, hn⟩

end

/-! ## The invariant -/

namespace State

variable {uuid5 : String → Uuid} {chart : Chart} {U : Event → Prop} {s : State}

structure Once (uuid5 : String → Uuid) (chart : Chart) (U : Event → Prop) (s : State) : Prop where
  posted : ∀ t ∈ s.ledger.transactions, ∃ e, U e ∧
    s.ledger.PostedFor uuid5 chart t (stripTraceContext e)
  marks : ∀ e st, s.Marks e st → s.ledger.Justifies e st
  rows : ∀ r ∈ s.log, s.ledger.Justifies r.payload r.status

lemma Once.init : Once uuid5 chart U .init where
  posted := by simp [State.init, Ledger.empty]
  marks := by simp [State.init, Marks]
  rows := by simp [State.init]

/-- Where ids determine events, the row with the id of a message stores its event. -/
lemma Within.strip_payload (hw : s.Within U) (hids : ∀ e e', U e → U e' → e.id = e'.id → e = e')
    (hwf : s.log.Wf) {r : EventRow} (hr : r ∈ s.log) {m : Message} (hm : m ∈ s.held)
    (hid : r.id = m.event.id) : stripTraceContext r.payload = m.event := by
  obtain ⟨e₁, hU₁, h₁⟩ := hw.rows r hr
  obtain ⟨e₂, hU₂, h₂⟩ := hw.held m hm
  have heq : e₁.id = e₂.id := by
    rw [← stripTraceContext_id e₁, ← h₁, stripTraceContext_id, (hwf.payload r hr).1, hid, h₂,
      stripTraceContext_id]
  rw [h₁, h₂, hids e₁ e₂ hU₁ hU₂ heq]

lemma Once.next_posted (h : s.Once uuid5 chart U) (hb : s.Base chart) (hw : s.Within U)
    (hm : s.Mapped uuid5) (a : Act) :
    ∀ t ∈ (s.next uuid5 chart a).ledger.transactions, ∃ e, U e ∧
      (s.next uuid5 chart a).ledger.PostedFor uuid5 chart t (stripTraceContext e) := by
  rcases next_ledger hb.ledger.toRowsAdmitted a with
    heq | ⟨i, l, task, txn, n, W, -, htask, hpc, hfree, hW, heq⟩
  · rw [heq]
    exact h.posted
  · obtain ⟨-, rows, hrows, hWeq, -⟩ := LedgerTransaction.writes_ok_iff.mp hW
    have hmem := List.mem_of_getElem? htask
    intro t ht
    rw [heq, Ledger.append_transactions, hWeq] at ht
    rw [heq]
    rcases List.mem_append.mp ht with ht | ht
    · obtain ⟨e, hU, hpost⟩ := h.posted t ht
      refine ⟨e, hU, hpost.append_writes hW fun hid => ?_⟩
      have hfresh := (Ledger.conflict_eq_none_iff.mp hfree).1
      exact hfresh (List.mem_map.mpr ⟨t, ht, hid⟩)
    · rw [List.mem_singleton.mp ht]
      obtain ⟨htype, client, hmap⟩ := hm task hmem txn n hpc
      obtain ⟨e, hU, hevent⟩ := hw.held task.msg (mem_held.mpr (.inr ⟨task, hmem, rfl⟩))
      rw [hevent] at htype hmap
      exact ⟨e, hU, Ledger.postedFor_writes hb.ledger.toRowsAdmitted hfree hW htype hmap⟩

/-- A task that is about to write a status has a reason in the ledger. -/
lemma Once.next_marks (hinj : Function.Injective uuid5) (h : s.Once uuid5 chart U)
    (hb : s.Base chart) (hm : s.Mapped uuid5) (a : Act) :
    ∀ e st, (s.next uuid5 chart a).Marks e st → (s.next uuid5 chart a).ledger.Justifies e st := by
  have hsub : s.ledger.transactions ⊆ (s.next uuid5 chart a).ledger.transactions :=
    next_transactions hb.ledger.toRowsAdmitted a
  rintro e st ⟨t', ht', hmark⟩
  rcases next_task hb.ledger.toRowsAdmitted a ht' with
    hold | ⟨m, -, rfl⟩ | ⟨i, l, t, r, -, ht, hstep, hr, -, hledger, -⟩
  · exact (h.marks e st ⟨t', hold, hmark⟩).mono hsub
  · rcases hmark.2 with hpc | hpc <;> cases hpc
  · have hmem := List.mem_of_getElem? ht
    rcases hstep.marks_cases hr hmark with
      hsame | ⟨rfl, -, hkind⟩ | ⟨rfl, rfl, txn, n, hpc, hcase⟩ | ⟨rfl, -, -⟩
    · exact (h.marks e st ⟨t, hmem, hsame⟩).mono hsub
    · exact ⟨nofun, fun _ => hkind⟩
    · refine ⟨fun _ => ?_, nofun⟩
      obtain ⟨-, client, hmap⟩ := hm t hmem txn n hpc
      rw [hledger]
      rcases hcase with ⟨W, hW, heq⟩ | ⟨⟨c, hconf⟩, heq⟩
      · obtain ⟨-, rows, -, rfl, -⟩ := LedgerTransaction.writes_ok_iff.mp hW
        rw [heq]
        exact ⟨txn.row, by simp, covers_of_mapEvent hmap⟩
      · rw [heq]
        have hposted : ∀ t ∈ s.ledger.transactions, ∃ e, s.ledger.PostedFor uuid5 chart t e := by
          intro t ht
          obtain ⟨e, -, hpost⟩ := h.posted t ht
          exact ⟨_, hpost⟩
        exact Ledger.covers_of_conflict hinj hposted hmap hconf
    · exact Ledger.justifies_of_ne (by decide) (by decide)

lemma Once.next_rows (hids : ∀ e e', U e → U e' → e.id = e'.id → e = e')
    (h : s.Once uuid5 chart U) (hb : s.Base chart) (hw : s.Within U) (a : Act) :
    ∀ r ∈ (s.next uuid5 chart a).log,
      (s.next uuid5 chart a).ledger.Justifies r.payload r.status := by
  have hsub : s.ledger.transactions ⊆ (s.next uuid5 chart a).ledger.transactions :=
    next_transactions hb.ledger.toRowsAdmitted a
  refine (next_log hb.ledger.toRowsAdmitted a).forall_rows (fun r hr => (h.rows r hr).mono hsub)
    (fun _ _ _ _ _ => Ledger.justifies_of_ne (by simp) (by simp))
    (fun _ _ _ => Ledger.justifies_of_ne (by simp) (by simp)) ?_
    (fun e st _ hm _ _ => (h.marks e st hm).mono hsub)
  -- the row that is marked stores the event of the task that marks it
  rintro r hr e st ⟨t, ht, hmark⟩ hid
  have hjust := (h.marks e st ⟨t, ht, hmark⟩).mono hsub
  obtain ⟨rfl, -⟩ := hmark
  have hstrip := hw.strip_payload hids hb.log hr (mem_held.mpr (.inr ⟨t, ht, rfl⟩)) hid
  rw [← hstrip] at hjust
  exact Ledger.justifies_strip.mp hjust

/-- **Every step keeps the books justified.** -/
lemma Once.next (hinj : Function.Injective uuid5)
    (hids : ∀ e e', U e → U e' → e.id = e'.id → e = e') (h : s.Once uuid5 chart U)
    (hb : s.Base chart) (hw : s.Within U) (hm : s.Mapped uuid5) (a : Act) :
    (s.next uuid5 chart a).Once uuid5 chart U where
  posted := h.next_posted hb hw hm a
  marks := h.next_marks hinj hb hm a
  rows := h.next_rows hids hb hw a

/-- An event that moved no money has no transaction: its row stores the event that would have been
posted, whose type moves money. -/
lemma Once.not_posted (h : s.Once uuid5 chart U) (hids : ∀ e e', U e → U e' → e.id = e'.id → e = e')
    (hb : s.Base chart) (hw : s.Within U) {r : EventRow} (hr : r ∈ s.log)
    (hst : r.status = .noMoneyMoved) {t : TransactionRow} (ht : t ∈ s.ledger.transactions) :
    t.stripeEventId ≠ some r.id := by
  intro heq
  obtain ⟨hid, -⟩ := hb.log.payload r hr
  obtain ⟨e, hU, hpost⟩ := h.posted t ht
  obtain ⟨e', hU', hstrip⟩ := hw.rows r hr
  have hpid : r.payload.id = e'.id := by
    rw [← stripTraceContext_id, hstrip, stripTraceContext_id]
  have heid : e.id = r.id := Option.some_inj.mp (hpost.identity.2.1.symm.trans heq)
  have hsame : e' = e := hids e' e hU' hU (by rw [← hpid, hid, heid])
  have htype : r.payload.type = e.type := by
    rw [← stripTraceContext_type, hstrip, stripTraceContext_type, hsame]
  rcases (h.rows r hr).noMoneyMoved hst with hno | hno
  · exact hno (htype ▸ hpost.1)
  · exact hpost.type_ne (htype ▸ hno)

/-- **Every run keeps the books justified.** -/
lemma run_once (hinj : Function.Injective uuid5) {acts : List Act}
    (hids : ∀ e e', Brought acts e → Brought acts e' → e.id = e'.id → e = e') :
    (run uuid5 chart acts).Base chart ∧ (run uuid5 chart acts).Within (Brought acts) ∧
      (run uuid5 chart acts).Once uuid5 chart (Brought acts) := by
  have hguard : Guarded (State.next uuid5 chart)
      (fun _ a => ∀ e, a.event = some e → Brought acts e) .init acts :=
    .of_forall fun a ha _ e he => ⟨a, ha, he⟩
  obtain ⟨hb, hw, -, honce⟩ := hguard.inv
    (fun s => s.Base chart ∧ s.Within (Brought acts) ∧ s.Mapped uuid5 ∧
      s.Once uuid5 chart (Brought acts))
    (fun s a ⟨hb, hw, hm, h⟩ hG =>
      ⟨hb.next a, hw.next hb hG, hm.next hb a, h.next hinj hids hb hw hm a⟩)
    ⟨.init, .init _, by simp [State.Mapped, State.init], .init⟩
  exact ⟨hb, hw, honce⟩

end State

/-- A list in which no two elements both satisfy `p` has at most one that does. -/
lemma length_filter_le_one {α : Type} {p : α → Bool} {l : List α}
    (h : l.Pairwise fun x y => ¬(p x = true ∧ p y = true)) : (l.filter p).length ≤ 1 := by
  induction l with
  | nil => simp
  | cons x l ih =>
      obtain ⟨hx, hl⟩ := List.pairwise_cons.mp h
      by_cases hp : p x = true
      · have hnil : l.filter p = [] :=
          List.filter_eq_nil_iff.mpr fun y hy hpy => hx y hy ⟨hp, hpy⟩
        simp [hp, hnil]
      · rw [List.filter_cons_of_neg hp]
        exact ih hl

/-- **Exactly-once posting**, in every state any interleaving reaches. -/
theorem exactly_once (uuid5 : String → Uuid) (hinj : Function.Injective uuid5) (chart : Chart)
    (acts : List Act) (hids : ∀ e e', Brought acts e → Brought acts e' → e.id = e'.id → e = e') :
    let s := run uuid5 chart acts
    (∀ id, (s.ledger.transactions.filter fun t => t.stripeEventId = some id).length ≤ 1) ∧
    (∀ type oid, (s.ledger.transactions.filter fun t =>
      t.eventType = some type ∧ t.stripeObjectId = some oid).length ≤ 1) ∧
    (∀ t ∈ s.ledger.transactions, ∃ e, Brought acts e ∧ t.stripeEventId = some e.id ∧
      t.eventType = some e.type ∧ moneyMovementObjectId e = .ok t.stripeObjectId ∧
      s.ledger.PostedFor uuid5 chart t (stripTraceContext e)) ∧
    (∀ r ∈ s.log, r.status = .processed → ∃ t ∈ s.ledger.transactions,
      t.stripeEventId = some r.id ∨
        (t.eventType = some r.eventType ∧ sqlEq t.stripeObjectId r.objectId = true)) ∧
    ∀ r ∈ s.log, r.status = .noMoneyMoved →
      ∀ t ∈ s.ledger.transactions, t.stripeEventId ≠ some r.id := by
  intro s
  obtain ⟨hb, hw, honce⟩ : s.Base chart ∧ s.Within (Brought acts) ∧
      s.Once uuid5 chart (Brought acts) :=
    State.run_once hinj hids
  refine ⟨fun id => length_filter_le_one (hb.ledger.dedupe_event.imp ?_),
    fun type oid => length_filter_le_one (hb.ledger.dedupe_object.imp ?_), fun t ht => ?_,
    fun r hr hst => ?_, fun r hr hst t ht => honce.not_posted hids hb hw hr hst ht⟩
  · rintro t t' hne ⟨h, h'⟩
    simp [of_decide_eq_true h, of_decide_eq_true h'] at hne
  · rintro t t' hne ⟨h, h'⟩
    obtain ⟨hty, hobj⟩ := of_decide_eq_true h
    obtain ⟨hty', hobj'⟩ := of_decide_eq_true h'
    simp [hty, hobj, hty', hobj'] at hne
  · obtain ⟨e, hU, hpost⟩ := honce.posted t ht
    obtain ⟨-, hev, hty, hobj⟩ := hpost.identity
    rw [moneyMovementObjectId_strip] at hobj
    exact ⟨e, hU, hev, hty, hobj, hpost⟩
  · obtain ⟨hid, hty, hobj⟩ := hb.log.payload r hr
    obtain ⟨t, ht, hcov⟩ := (honce.rows r hr).processed hst
    refine ⟨t, ht, ?_⟩
    rcases hcov with hev | ⟨hty', oid, hoid, hobj'⟩
    · exact .inl (hev.trans (congrArg some hid))
    · rw [hobj] at hoid
      refine .inr ⟨hty'.trans (congrArg some hty), ?_⟩
      rw [hobj', Except.ok.inj hoid]
      simp

/-- Two copies of a payout; the worker of the first dies between the commit and the status write,
and the second finds the payout posted. -/
def crashedRun : List Act :=
  [.inject (samplePayout "evt_1" "po_1") [], .inject (samplePayout "evt_1" "po_1") [],
    .take 0, .take 0, .work 0 ⟨none, none, .ok⟩, .work 0 ⟨none, none, .ok⟩, .crash 0,
    .work 0 ⟨none, none, .ok⟩, .work 0 ⟨none, none, .ok⟩, .work 0 ⟨none, none, .ok⟩,
    .work 0 ⟨none, none, .ok⟩]

lemma brought_crashedRun {e : Event} (h : Brought crashedRun e) :
    e = samplePayout "evt_1" "po_1" := by
  obtain ⟨a, ha, he⟩ := h
  simp only [crashedRun, List.mem_cons, List.not_mem_nil, or_false] at ha
  rcases ha with rfl | rfl | rfl | rfl | rfl | rfl | rfl | rfl | rfl | rfl | rfl <;> cases he <;>
    rfl

theorem exactly_once_crashed :
    (run sampleUuid5 seedChart crashedRun).ledger.transactions.length = 1 ∧
      ∃ r ∈ (run sampleUuid5 seedChart crashedRun).log, r.status = .processed ∧
        ∃ t ∈ (run sampleUuid5 seedChart crashedRun).ledger.transactions,
          t.stripeEventId = some r.id ∨
            (t.eventType = some r.eventType ∧ sqlEq t.stripeObjectId r.objectId = true) := by
  have hids : ∀ e e', Brought crashedRun e → Brought crashedRun e' → e.id = e'.id → e = e' :=
    fun e e' he he' _ => (brought_crashedRun he).trans (brought_crashedRun he').symm
  have hlog : (run sampleUuid5 seedChart crashedRun).log = [⟨"evt_1", "payout.paid", some "po_1",
      samplePayout "evt_1" "po_1", .processed⟩] := rfl
  have hrow : (⟨"evt_1", "payout.paid", some "po_1", samplePayout "evt_1" "po_1", .processed⟩ :
      EventRow) ∈ (run sampleUuid5 seedChart crashedRun).log := by
    rw [hlog]
    exact List.mem_singleton.mpr rfl
  exact ⟨rfl, _, hrow, rfl, (exactly_once sampleUuid5 sampleUuid5_injective seedChart crashedRun
    hids).2.2.2.1 _ hrow rfl⟩

end LedgerProof
