import LedgerProof.Pipeline.Invariants

/-!
# Ingest answers are sound

The insert, the enqueue and `mark_queued` are three separate calls, racing with other deliveries
and with the workers.  What the endpoint may still conclude: of all deliveries of an event id or
an object key, one recorded it; a 200 answer comes after an enqueue of the stored payload or after
reading the row as done; and a row that is done stays done.

The blocking row is the row of the delivery's own id when there is one.  A delivery that reuses an
event id with another object key can therefore be blocked by the row of its id, not by the row of
its key; where events with one id agree in their key, the two rows are one.
-/

namespace LedgerProof

/-- Two deliveries with one event id or one object key. -/
def Request.Twin (q q' : Request) : Prop :=
  q.event.id = q'.event.id ∨ (q.event.type = q'.event.type ∧
    ∃ oid, moneyMovementObjectId q.event = .ok (some oid) ∧
      moneyMovementObjectId q'.event = .ok (some oid))

/-- Events with one id have one object key. -/
def IdsAgree (U : Event → Prop) : Prop :=
  ∀ e e', U e → U e' → e.id = e'.id →
    e.type = e'.type ∧ moneyMovementObjectId e = moneyMovementObjectId e'

/-- A request becomes new by recording an event both of whose keys were free. -/
lemma RequestStep.isNew_cases {q : Request} {log : EventLog}
    {x : EventLog × Request × List Message} (h : RequestStep q log x) (hnew : x.2.1.IsNew) :
    q.IsNew ∨ ∃ oid, moneyMovementObjectId q.event = .ok oid ∧ log.taken q.event oid = false := by
  cases h with
  | recorded hpc hoid hfree => exact .inr ⟨_, hoid, hfree⟩
  | read_done hpc hoid hrow hterm => simp [Request.IsNew] at hnew
  | read_open hpc hoid hrow => simp [Request.IsNew] at hnew
  | read_nothing hpc hoid hrow => simp [Request.IsNew] at hnew
  | _ => exact .inl hnew

lemma Request.Twin.symm {q q' : Request} (h : q.Twin q') : q'.Twin q := by
  rcases h with hid | ⟨htype, oid, ho, ho'⟩
  · exact .inl hid.symm
  · exact .inr ⟨htype.symm, oid, ho', ho⟩

/-- What a new request recorded stands in the way of its twins. -/
lemma Request.Sound.taken {q q' : Request} {log : EventLog} (hq : q.Sound log) (hwf : log.Wf)
    (hnew : q.IsNew) (htwin : q.Twin q') {oid : Option String}
    (hoid : moneyMovementObjectId q'.event = .ok oid) : log.taken q'.event oid = true := by
  obtain ⟨r, hr, hid, hp⟩ := hq.new hnew
  obtain ⟨-, htype, hobj⟩ := hwf.payload r hr
  rw [hp] at htype hobj
  rcases htwin with heq | ⟨hty, o, ho, ho'⟩
  · exact Bool.or_eq_true_iff.mpr (.inl (EventLog.hasId_iff.mpr ⟨r, hr, hid.trans heq⟩))
  · rw [ho] at hobj
    rw [ho'] at hoid
    cases hoid
    refine Bool.or_eq_true_iff.mpr (.inr (EventLog.hasKey_iff.mpr ⟨r, hr, ?_, ?_⟩))
    · exact htype.symm.trans hty
    · rw [← Except.ok.inj hobj]
      simp

namespace State

variable {uuid5 : String → Uuid} {chart : Chart} {s : State}

/-- Of the deliveries of one event id or one object key, at most one recorded it. -/
def NewUnique (s : State) : Prop :=
  ∀ (i j : ℕ) (q q' : Request), s.requests[i]? = some q → s.requests[j]? = some q' → q.IsNew →
    q'.IsNew →
    q.Twin q' → i = j

/-- A request of the next state that is new was new already, or it is the one that made the call
and found its keys free. -/
lemma next_isNew (a : Act) {j : ℕ} {q' : Request}
    (hq' : (s.next uuid5 chart a).requests[j]? = some q') (hnew : q'.IsNew) :
    (∃ q, s.requests[j]? = some q ∧ q.event = q'.event ∧ q.IsNew) ∨
      ((∃ oid, moneyMovementObjectId q'.event = .ok oid ∧ s.log.taken q'.event oid = false) ∧
        ∀ i, i ≠ j → (s.next uuid5 chart a).requests[i]? = s.requests[i]?) := by
  rcases next_request a hq' with hold | ⟨e, -, -, rfl⟩ | ⟨q, x, hq, hstep, rfl, -, -, -, hothers⟩
  · exact .inl ⟨q', hold, rfl, hnew⟩
  · simp [Request.IsNew] at hnew
  · rcases hstep.isNew_cases hnew with hsame | hfree
    · exact .inl ⟨q, hq, hstep.event_eq.symm, hsame⟩
    · rw [hstep.event_eq]
      exact .inr ⟨hfree, hothers⟩

lemma NewUnique.next (h : s.NewUnique) (hb : s.Base chart) (a : Act) :
    (s.next uuid5 chart a).NewUnique := by
  -- a request that has just found its keys free has no twin among those that were new
  have hfresh : ∀ (i j : ℕ) (q q' : Request), (s.next uuid5 chart a).requests[i]? = some q →
      q.IsNew →
      q.Twin q' → i ≠ j →
      (∃ oid, moneyMovementObjectId q'.event = .ok oid ∧ s.log.taken q'.event oid = false) →
      (∀ k, k ≠ j → (s.next uuid5 chart a).requests[k]? = s.requests[k]?) → False := by
    rintro i j q q' hq hnew htwin hij ⟨oid, hoid, hfree⟩ hothers
    rw [hothers i hij] at hq
    have htaken := (hb.requests q (List.mem_of_getElem? hq)).taken hb.log hnew htwin hoid
    simp [hfree] at htaken
  intro i j q q' hq hq' hnew hnew' htwin
  by_contra hij
  rcases next_isNew a hq' hnew' with ⟨q₂, hq₂, he₂, hnew₂⟩ | ⟨hfree, hothers⟩
  · rcases next_isNew a hq hnew with ⟨q₁, hq₁, he₁, hnew₁⟩ | ⟨hfree, hothers⟩
    · have htwin' : q₁.Twin q₂ := by
        unfold Request.Twin at htwin ⊢
        rw [he₁, he₂]
        exact htwin
      exact hij (h i j q₁ q₂ hq₁ hq₂ hnew₁ hnew₂ htwin')
    · exact hfresh j i q' q hq' hnew' htwin.symm (Ne.symm hij) hfree hothers
  · exact hfresh i j q q' hq hnew htwin hij hfree hothers

/-- Where events with one id agree in their key, every twin of a new request is blocked by the row
it recorded. -/
lemma blocked_by_new {U : Event → Prop} (hU : IdsAgree U) (hb : s.Base chart) (hw : s.Within U)
    {q q' : Request} (hq : q ∈ s.requests) (hq' : q' ∈ s.requests) (hnew : q.IsNew)
    {d : DedupeResult} (hd : q'.result = some d) (hdnew : d.new = false) (htwin : q.Twin q') :
    d.existingId = some q.event.id := by
  obtain ⟨r₀, hr₀, hid₀, hp₀⟩ := (hb.requests q hq).new hnew
  obtain ⟨-, htype₀, hobj₀⟩ := hb.log.payload r₀ hr₀
  rw [hp₀] at htype₀ hobj₀
  obtain ⟨r, hr, st, rfl, -, hmeets⟩ := (hb.requests q' hq').blocked d hd hdnew
  -- it suffices that the blocking row has the id or the key of the recorded one
  have hsame : r.id = q.event.id ∨ (r.eventType = q.event.type ∧
      sqlEq r.objectId r₀.objectId = true) → r.id = q.event.id := by
    rintro (h | ⟨ht, ho⟩)
    · exact h
    · rw [← hid₀]
      exact hb.log.object_dedupe r hr r₀ hr₀ (ht.trans htype₀) ho
  have hkeyOf : ∀ oid, moneyMovementObjectId q'.event = .ok (some oid) →
      moneyMovementObjectId q.event = .ok (some oid) → r.eventType = q.event.type →
      sqlEq r.objectId (some oid) = true → r.id = q.event.id := by
    intro oid _ hoid ht ho
    rw [hoid] at hobj₀
    exact hsame (.inr ⟨ht, by rw [← Except.ok.inj hobj₀]; exact ho⟩)
  show some r.id = some q.event.id
  congr 1
  rcases htwin with hid | ⟨htype, oid, hoid, hoid'⟩
  · obtain ⟨hty, hmo⟩ := hU q.event q'.event (hw.requests q hq) (hw.requests q' hq') hid
    rcases hmeets with hrid | ⟨o, ho, hrt, hro⟩
    · exact hrid.trans hid.symm
    · obtain ⟨x, hx, hx'⟩ := sqlEq_iff.mp hro
      subst hx'
      exact hkeyOf x ho (hmo.trans ho) (hrt.trans hty.symm) hro
  · rcases hmeets with hrid | ⟨o, ho, hrt, hro⟩
    · -- the row of its own id has its key, which is the key of the recorded row
      obtain ⟨hpid, hpt, hpo⟩ := hb.log.payload r hr
      obtain ⟨e, he, hstrip⟩ := hw.rows r hr
      have heid : e.id = q'.event.id := by
        rw [← hrid, ← hpid, ← stripTraceContext_id, ← hstrip, stripTraceContext_id]
      obtain ⟨hty, hmo⟩ := hU e q'.event he (hw.requests q' hq') heid
      have hptype : r.payload.type = e.type := by
        rw [← stripTraceContext_type, hstrip, stripTraceContext_type]
      have hpobj : moneyMovementObjectId r.payload = moneyMovementObjectId e := by
        rw [← moneyMovementObjectId_strip, hstrip, moneyMovementObjectId_strip]
      refine hkeyOf oid hoid' hoid ?_ ?_
      · rw [← hpt, hptype, hty, htype]
      · rw [hpobj, hmo, hoid'] at hpo
        rw [← Except.ok.inj hpo]
        simp
    · rw [hoid'] at ho
      cases ho
      exact hkeyOf oid hoid' hoid (hrt.trans htype.symm) hro

/-- A 200 answer came after an enqueue of the payload of the row the request resolved to, or after
reading that row as done. -/
lemma Base.answered (hb : s.Base chart) {q : Request} (hq : q ∈ s.requests) {resp : Response}
    (hpc : q.pc = .answered resp) (hok : resp.isOk = true) :
    ∃ r ∈ s.log, q.rowId = some r.id ∧
      ((resp = .queued ∧ q.enqueued = some r.payload ∧ (q.IsNew → r.payload = q.event)) ∨
        (resp = .duplicate ∧ r.status.terminal = true ∧ ∃ d st, q.result = some d ∧
          d.existingId = some r.id ∧ d.existingStatus = some st ∧ st.terminal = true)) := by
  have hs := hb.requests q hq
  have hpcs := hs.pc
  rw [Request.PcSound, hpc] at hpcs
  cases resp with
  | error => simp [Response.isOk] at hok
  | queued =>
      obtain ⟨payload, hpay⟩ := Option.isSome_iff_exists.mp hpcs
      obtain ⟨r, hr, hid, rfl⟩ := hs.enqueued payload hpay
      refine ⟨r, hr, hid, .inl ⟨rfl, hpay, fun hnew => ?_⟩⟩
      obtain ⟨r', hr', hid', hp'⟩ := hs.new hnew
      obtain ⟨d, hd, hdnew⟩ := hnew
      have hrow : q.rowId = some q.event.id := by simp [Request.rowId, hd, hdnew]
      rw [hrow] at hid
      have hsame : r = r' := hb.log.eq_of_id hr hr'
        ((Option.some_inj.mp hid).symm.trans hid'.symm)
      rw [hsame, hp']
  | duplicate =>
      obtain ⟨d, st, hd, hdnew, hst, hterm⟩ := hpcs
      obtain ⟨r, hr, st', rfl, hdone, -⟩ := hs.blocked d hd hdnew
      have : st' = st := Option.some_inj.mp hst
      subst this
      exact ⟨r, hr, by simp [Request.rowId, hd], .inr ⟨rfl, hdone hterm, _, st', hd, rfl, rfl,
        hterm⟩⟩

end State

/-- **Ingest answers and row statuses are sound** in every state any interleaving of deliveries,
calls, failures and worker steps reaches.  Of the deliveries of one event id or one object key at
most one is told it is new.  Every other one is blocked by a row with its event id or its key, and
where events with one id have one key, by the row the new one recorded.  A 200 answer was preceded
by an enqueue of the payload of the row the request resolved to, which is the event itself when
new, or by reading that row in a terminal status.  No step deletes a row or moves it back from a
terminal status, so the row behind a 200 `duplicate` is finished. -/
theorem ingest_sound (uuid5 : String → Uuid) (chart : Chart) (acts : List Act) :
    let s := run uuid5 chart acts
    (∀ (i j : ℕ) (q q' : Request), s.requests[i]? = some q → s.requests[j]? = some q' →
      q.IsNew → q'.IsNew → q.Twin q' → i = j) ∧
    (∀ q ∈ s.requests, ∀ d, q.result = some d → d.new = false →
      ∃ r ∈ s.log, d.existingId = some r.id ∧ d.existingPayload = some r.payload ∧ q.Meets r) ∧
    (IdsAgree (Brought acts) → ∀ q ∈ s.requests, ∀ q' ∈ s.requests, q.IsNew →
      ∀ d, q'.result = some d → d.new = false → q.Twin q' → d.existingId = some q.event.id) ∧
    (∀ q ∈ s.requests, ∀ resp, q.pc = .answered resp → resp.isOk = true →
      ∃ r ∈ s.log, q.rowId = some r.id ∧
        ((resp = .queued ∧ q.enqueued = some r.payload ∧ (q.IsNew → r.payload = q.event)) ∨
          (resp = .duplicate ∧ r.status.terminal = true ∧ ∃ d st, q.result = some d ∧
            d.existingId = some r.id ∧ d.existingStatus = some st ∧ st.terminal = true))) ∧
    ∀ a, ∀ r ∈ s.log,
      (∃ r' ∈ (s.next uuid5 chart a).log, r'.id = r.id ∧ r'.payload = r.payload) ∧
      (r.status.terminal = true → ∀ r' ∈ (s.next uuid5 chart a).log, r'.id = r.id →
        r'.status.terminal = true) := by
  intro s
  have hb : s.Base chart := run_base uuid5 chart acts
  have hw : s.Within (Brought acts) := run_within uuid5 chart acts
  have hunique : s.Base chart ∧ s.NewUnique :=
    foldl_inv (fun s : State => s.Base chart ∧ s.NewUnique) (fun _ a h =>
      ⟨h.1.next a, h.2.next h.1 a⟩)
      ⟨.init, by simp [State.NewUnique, State.init]⟩ acts
  refine ⟨hunique.2, fun q hq d hd hnew => ?_, fun hU q hq q' hq' hnew d hd hdnew htwin => ?_,
    fun q hq resp hpc hok => hb.answered hq hpc hok, fun a r hr => ?_⟩
  · obtain ⟨r, hr, st, rfl, -, hmeets⟩ := (hb.requests q hq).blocked d hd hnew
    exact ⟨r, hr, rfl, rfl, hmeets⟩
  · exact State.blocked_by_new hU hb hw hq hq' hnew hd hdnew htwin
  · obtain ⟨st, hst, hterm⟩ := hb.grows a r hr
    refine ⟨⟨_, hst, rfl, rfl⟩, fun ht r' hr' hid => ?_⟩
    have hwf : (s.next uuid5 chart a).log.Wf := (hb.next a).log
    rw [hwf.eq_of_id hr' hst hid]
    exact hterm ht

/-- A payout of 10.00, with the ids left open. -/
def samplePayout (id payoutId : String) : Event :=
  .ofObject id "payout.paid" 1700000000
    [("id", .str payoutId), ("amount", .int 1000), ("currency", .str "usd")] []

/-- Two payouts are recorded; then the first event's id arrives once more, with the second
payout in it. -/
def reusedIdRun : List Act :=
  [.deliver (samplePayout "evt_1" "po_1"), .request 0 .ok [],
    .deliver (samplePayout "evt_2" "po_2"), .request 1 .ok [],
    .deliver (samplePayout "evt_1" "po_2"), .request 2 .ok [], .request 2 .ok []]

/-- With an event id reused, the delivery of a recorded key is blocked by another row than the
one that recorded it. -/
theorem blocked_by_other_row :
    ∃ q ∈ (run sampleUuid5 seedChart reusedIdRun).requests,
    ∃ q' ∈ (run sampleUuid5 seedChart reusedIdRun).requests, ∃ d, q.IsNew ∧
      q'.result = some d ∧ d.new = false ∧ q.Twin q' ∧ q.event.id = "evt_2" ∧
      d.existingId = some "evt_1" := by
  have hrun : (run sampleUuid5 seedChart reusedIdRun).requests =
      [⟨samplePayout "evt_1" "po_1", .enqueue (samplePayout "evt_1" "po_1") "evt_1",
          some ⟨true, none, none, none⟩, none⟩,
        ⟨samplePayout "evt_2" "po_2", .enqueue (samplePayout "evt_2" "po_2") "evt_2",
          some ⟨true, none, none, none⟩, none⟩,
        ⟨samplePayout "evt_1" "po_2", .enqueue (samplePayout "evt_1" "po_1") "evt_1",
          some ⟨false, some "evt_1", some .received, some (samplePayout "evt_1" "po_1")⟩,
          none⟩] := rfl
  rw [hrun]
  refine ⟨_, List.mem_cons_of_mem _ (List.mem_cons_self ..), _,
    List.mem_cons_of_mem _ (List.mem_cons_of_mem _ (List.mem_cons_self ..)), _,
    ⟨_, rfl, rfl⟩, rfl, rfl, .inr ⟨rfl, "po_2", rfl, rfl⟩, rfl, rfl⟩

end LedgerProof
