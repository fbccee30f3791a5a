import LedgerProof.Pipeline.Acknowledged
import LedgerProof.Pipeline.ExactlyOnce

/-!
# The dead-letter status

`failed` should mean that the event's money did not move.  The write is unguarded and runs in a
database transaction of its own, so two things can make it untrue: it may overwrite the row of an
event that a copy of the message has already posted, and a copy may post the event after the row
was given up.

`dead_letter_truthful` shows that these are the only two ways, and `processed_then_failed` is a run
that takes the first.
-/

namespace LedgerProof

/-- The status of an event that was handled to its end. -/
def Status.handled : Status → Bool
  | .processed | .noMoneyMoved => true
  | .received | .queued | .failed => false

/-- The task is at the dead-letter write. -/
def TaskPc.deadLetter : TaskPc → Bool
  | .update .failed | .insert .failed => true
  | _ => false

/-- The transaction the task is about to post. -/
def TaskPc.posting : TaskPc → Option LedgerTransaction
  | .post txn _ => some txn
  | _ => none

/-- A dead-letter write finds an event that was neither posted nor handled; and what is posted was
not given up. -/
def Task.Honest (t : Task) (L : Ledger) (log : EventLog) : Prop :=
  (t.pc.deadLetter = true → (∀ x ∈ L.transactions, x.stripeEventId ≠ some t.msg.event.id) ∧
    ∀ r ∈ log, r.id = t.msg.event.id → r.status.handled = false) ∧
  ∀ txn ∈ t.pc.posting, L.conflict txn.row = none →
    ∀ r ∈ log, r.id = t.msg.event.id → r.status ≠ .failed

/-- The call of a task, unless it is lost, is honest. -/
def StatusHonest (s : State) : Act → Prop
  | .work i l => l.outcome ≠ .failBefore → ∀ t ∈ s.tasks[i]?, t.Honest s.ledger s.log
  | _ => True

instance (t : Task) (L : Ledger) (log : EventLog) : Decidable (t.Honest L log) :=
  inferInstanceAs (Decidable (_ ∧ _))

instance (s : State) (a : Act) : Decidable (StatusHonest s a) :=
  match a with
  | .work i l => inferInstanceAs
      (Decidable (l.outcome ≠ .failBefore → ∀ t ∈ s.tasks[i]?, t.Honest s.ledger s.log))
  | .deliver _ | .request _ _ _ | .inject _ _ | .take _ | .crash _ | .redeliver _ => .isTrue trivial

section

variable {uuid5 : String → Uuid} {chart : Chart}

lemma Task.step_failBefore {L : Ledger} {log : EventLog} (t : Task) {l : Luck}
    (ho : l.outcome = .failBefore) :
    (t.step uuid5 chart L log l).ledger = L ∧ (t.step uuid5 chart L log l).log = log := by
  unfold Task.step
  cases hpc : t.pc with
  | start =>
      dsimp only
      split_ifs
      · exact ⟨rfl, rfl⟩
      · split <;> exact ⟨rfl, rfl⟩
      · exact ⟨rfl, rfl⟩
  | post txn n => simp [ho]
  | update st => simp [ho]
  | insert st =>
      dsimp only
      split
      · exact ⟨rfl, rfl⟩
      · simp [ho]
  | raised =>
      dsimp only
      split_ifs <;> exact ⟨rfl, rfl⟩
  | finished => exact ⟨rfl, rfl⟩

end

namespace State

variable {uuid5 : String → Uuid} {chart : Chart} {s : State}

/-- No event whose row is `failed` has a transaction. -/
def FailedUnposted (s : State) : Prop :=
  ∀ r ∈ s.log, r.status = .failed → ∀ x ∈ s.ledger.transactions, x.stripeEventId ≠ some r.id

/-- An honest task that marks an event as failed finds it neither posted nor handled. -/
lemma honest_of_marks {a : Act} {e : Event} (hG : StatusHonest s a)
    (hmark : ∃ i l t, a = .work i l ∧ s.tasks[i]? = some t ∧ t.Marks e .failed)
    (hreached : ∀ i l, a = .work i l → l.outcome ≠ .failBefore) :
    (∀ x ∈ s.ledger.transactions, x.stripeEventId ≠ some e.id) ∧
      ∀ r ∈ s.log, r.id = e.id → r.status.handled = false := by
  obtain ⟨i, l, t, rfl, ht, rfl, hpc⟩ := hmark
  have hdead : t.pc.deadLetter = true := by
    rcases hpc with hpc | hpc <;> rw [hpc] <;> rfl
  exact (hG (hreached i l rfl) t ht).1 hdead

lemma next_lost {a : Act} {i : ℕ} {l : Luck} (ha : a = .work i l) (ho : l.outcome = .failBefore) :
    (s.next uuid5 chart a).ledger = s.ledger ∧ (s.next uuid5 chart a).log = s.log := by
  subst ha
  cases ht : s.tasks[i]? with
  | none => simp [State.next, ht]
  | some t =>
      simp only [State.next, ht]
      exact t.step_failBefore ho

/-- **An honest step keeps `failed` truthful.** -/
lemma FailedUnposted.next (h : s.FailedUnposted) (hb : s.Base chart) (hm : s.Mapped uuid5) {a : Act}
    (hG : StatusHonest s a) : (s.next uuid5 chart a).FailedUnposted := by
  by_cases hlost : ∃ i l, a = .work i l ∧ l.outcome = .failBefore
  · obtain ⟨i, l, ha, ho⟩ := hlost
    obtain ⟨hledger, hlog⟩ := next_lost (s := s) ha ho
    unfold FailedUnposted
    rw [hledger, hlog]
    exact h
  · have hreached : ∀ i l, a = .work i l → l.outcome ≠ .failBefore :=
      fun i l ha ho => hlost ⟨i, l, ha, ho⟩
    rcases next_ledger hb.ledger.toRowsAdmitted a with
      heq | ⟨i, l, t, txn, n, W, rfl, ht, hpc, hfree, hW, heq⟩
    · unfold FailedUnposted
      rw [heq]
      refine (next_log_acting hb.ledger.toRowsAdmitted a).forall_rows h (by simp) (by simp) ?_ ?_
      · rintro r hr e st hmark hid hst
        subst hst
        rw [hid]
        exact (honest_of_marks hG hmark hreached).1
      · rintro e st oid hmark - - hst
        subst hst
        exact (honest_of_marks hG hmark hreached).1
    · -- the log is what it was, and the new transaction is for an event that was not given up
      have hlog : (s.next uuid5 chart (.work i l)).log = s.log := by
        simp only [State.next, ht]
        exact (Task.step_spec hb.ledger.toRowsAdmitted s.log t l).log_of_post hpc
      obtain ⟨-, client, hmap⟩ := hm t (List.mem_of_getElem? ht) txn n hpc
      obtain ⟨-, rows, -, rfl, -⟩ := LedgerTransaction.writes_ok_iff.mp hW
      intro r hr hst x hx hxid
      rw [hlog] at hr
      rw [heq, Ledger.append_transactions] at hx
      rcases List.mem_append.mp hx with hx | hx
      · exact h r hr hst x hx hxid
      · rw [List.mem_singleton.mp hx] at hxid
        have hid : t.msg.event.id = r.id :=
          Option.some_inj.mp ((mapEvent_identity hmap).2.1.symm.trans hxid)
        refine (hG (hreached i l rfl) t ht).2 txn ?_ hfree r hr hid.symm hst
        rw [hpc]
        rfl

/-- Rows that were handled are still there, and still handled. -/
def KeepsHandled (s s' : State) : Prop :=
  ∀ r ∈ s.log, r.status.handled = true →
    ∃ st : Status, { r with status := st } ∈ s'.log ∧ st.handled = true

lemma KeepsHandled.refl (s : State) : s.KeepsHandled s := fun r hr h => ⟨r.status, hr, h⟩

lemma KeepsHandled.trans {s t u : State} (hst : s.KeepsHandled t) (htu : t.KeepsHandled u) :
    s.KeepsHandled u := by
  intro r hr h
  obtain ⟨st, hr', h'⟩ := hst r hr h
  obtain ⟨st', hr'', h''⟩ := htu _ hr' h'
  exact ⟨st', hr'', h''⟩

/-- **An honest step gives up no event that was handled.** -/
lemma keepsHandled_next (hb : s.Base chart) {a : Act} (hG : StatusHonest s a) :
    s.KeepsHandled (s.next uuid5 chart a) := by
  intro r hr hdone
  by_cases hlost : ∃ i l, a = .work i l ∧ l.outcome = .failBefore
  · obtain ⟨i, l, ha, ho⟩ := hlost
    rw [(next_lost (s := s) ha ho).2]
    exact ⟨r.status, hr, hdone⟩
  · have hreached : ∀ i l, a = .work i l → l.outcome ≠ .failBefore :=
      fun i l ha ho => hlost ⟨i, l, ha, ho⟩
    have hstep : LogStep _ _ s.log (s.next uuid5 chart a).log :=
      next_log_acting hb.ledger.toRowsAdmitted a
    generalize (s.next uuid5 chart a).log = log' at hstep
    cases hstep with
    | unchanged => exact ⟨r.status, hr, hdone⟩
    | record hrec hoid hfree => exact ⟨r.status, EventLog.mem_add.mpr (.inl hr), hdone⟩
    | insert hmark hoid hfree => exact ⟨r.status, EventLog.mem_add.mpr (.inl hr), hdone⟩
    | queue id =>
        refine ⟨r.status, EventLog.mem_update.mpr ⟨r, hr, .inr ⟨?_, rfl⟩⟩, hdone⟩
        cases hst : r.status <;> simp [hst, Status.handled] at hdone ⊢
    | @mark e st hmark =>
        by_cases hid : r.id = e.id
        · refine ⟨st, EventLog.mem_update.mpr ⟨r, hr, .inl ⟨by simpa using hid, rfl⟩⟩, ?_⟩
          obtain ⟨i, l, t, ha, ht, hm⟩ := hmark
          have hterm := hb.marks e st ⟨t, List.mem_of_getElem? ht, hm⟩
          by_contra hst
          have hfailed : st = .failed := by
            cases st <;> simp [Status.terminal, Status.handled] at hterm hst ⊢
          subst hfailed
          have hopen := (honest_of_marks hG ⟨i, l, t, ha, ht, hm⟩ hreached).2 r hr hid
          simp [hopen] at hdone
        · exact ⟨r.status, EventLog.mem_update.mpr ⟨r, hr, .inr ⟨by simpa using hid, rfl⟩⟩, hdone⟩

end State

/-- **The dead-letter status is truthful** in every run whose calls are honest: at every moment no
event whose row is `failed` has a transaction, and a row that was `processed` at some moment is not
`failed` at any later one. -/
theorem dead_letter_truthful (uuid5 : String → Uuid) (chart : Chart) (acts acts' : List Act)
    (hG : Guarded (State.next uuid5 chart) StatusHonest .init (acts ++ acts')) :
    (run uuid5 chart (acts ++ acts')).FailedUnposted ∧
    ∀ r ∈ (run uuid5 chart acts).log, r.status = .processed →
      ∀ r' ∈ (run uuid5 chart (acts ++ acts')).log, r'.id = r.id → r'.status ≠ .failed := by
  have hinv : (run uuid5 chart (acts ++ acts')).Base chart ∧
      (run uuid5 chart (acts ++ acts')).Mapped uuid5 ∧
      (run uuid5 chart (acts ++ acts')).FailedUnposted :=
    hG.inv (fun s => s.Base chart ∧ s.Mapped uuid5 ∧ s.FailedUnposted)
      (fun s a ⟨hb, hm, h⟩ ha => ⟨hb.next a, hm.next hb a, h.next hb hm ha⟩)
      ⟨.init, by simp [State.Mapped, State.init], by simp [State.FailedUnposted, State.init]⟩
  have hkept : (run uuid5 chart acts).KeepsHandled (run uuid5 chart (acts ++ acts')) := by
    have hrun : run uuid5 chart (acts ++ acts') =
        acts'.foldl (State.next uuid5 chart) (run uuid5 chart acts) := List.foldl_append
    rw [hrun]
    exact (Guarded.append_iff.mp hG).2.rel (fun s => s.Base chart) State.KeepsHandled.refl
      (fun _ _ _ => State.KeepsHandled.trans) (fun s a hb _ => hb.next a)
      (fun s a hb ha => State.keepsHandled_next hb ha) (run_base uuid5 chart acts)
  refine ⟨hinv.2.2, fun r hr hst r' hr' hid hfailed => ?_⟩
  obtain ⟨st, hmem, hdone⟩ := hkept r hr (by rw [hst]; rfl)
  have hsame := hinv.1.log.eq_of_id hr' hmem hid
  rw [hsame] at hfailed
  dsimp only at hfailed
  rw [hfailed] at hdone
  cases hdone

/-- A payout without an amount is given up without having been posted. -/
theorem dead_letter_truthful_broken :
    (run sampleUuid5 seedChart
      (exhaustedRun brokenPayout 2 ⟨none, none, .ok⟩ ++ [])).FailedUnposted ∧
    (run sampleUuid5 seedChart (exhaustedRun brokenPayout 2 ⟨none, none, .ok⟩)).log.map
      (·.status) = [.failed] :=
  ⟨(dead_letter_truthful sampleUuid5 seedChart (exhaustedRun brokenPayout 2 ⟨none, none, .ok⟩) []
    (by decide)).1, rfl⟩

/-- Of two copies of a payout the first is posted and its row marked. -/
def postedRun : List Act :=
  [.inject (samplePayout "evt_1" "po_1") [], .inject (samplePayout "evt_1" "po_1") [], .take 0,
    .work 0 ⟨none, none, .ok⟩, .work 0 ⟨none, none, .ok⟩, .work 0 ⟨none, none, .ok⟩,
    .work 0 ⟨none, none, .ok⟩, .work 0 ⟨none, none, .ok⟩]

/-- The posting of the other fails until its retries are exhausted, and then the row is marked. -/
def givenUpRun : List Act :=
  (List.replicate 6 (.take 0 :: List.replicate 3 (.work 0 ⟨none, none, .failBefore⟩))).flatten ++
    [.work 0 ⟨none, none, .ok⟩]

/-- The payout is in the ledger, and its row goes from `processed` to `failed`. -/
theorem processed_then_failed :
    ¬(run sampleUuid5 seedChart (postedRun ++ givenUpRun)).FailedUnposted ∧
    ¬∀ r ∈ (run sampleUuid5 seedChart postedRun).log, r.status = .processed →
      ∀ r' ∈ (run sampleUuid5 seedChart (postedRun ++ givenUpRun)).log, r'.id = r.id →
        r'.status ≠ .failed := by
  have hbefore : (run sampleUuid5 seedChart postedRun).log = [⟨"evt_1", "payout.paid",
      some "po_1", samplePayout "evt_1" "po_1", .processed⟩] := rfl
  have hafter : (run sampleUuid5 seedChart (postedRun ++ givenUpRun)).log = [⟨"evt_1",
      "payout.paid", some "po_1", samplePayout "evt_1" "po_1", .failed⟩] := rfl
  have hledger : (run sampleUuid5 seedChart (postedRun ++ givenUpRun)).ledger.transactions.map
      (·.stripeEventId) = [some "evt_1"] := rfl
  obtain ⟨x, hx, hxid⟩ := List.mem_map.mp (hledger ▸ List.mem_singleton.mpr rfl)
  constructor
  · intro h
    exact h _ (hafter ▸ List.mem_singleton.mpr rfl) rfl x hx hxid
  · intro h
    rw [hbefore, hafter] at h
    exact h _ (List.mem_singleton.mpr rfl) rfl _ (List.mem_singleton.mpr rfl) rfl rfl

end LedgerProof
