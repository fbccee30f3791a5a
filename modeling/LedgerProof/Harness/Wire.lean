import LedgerProof.Harness.Promise
import LedgerProof.Harness.Runner

/-!
# A plan on the wire

`harness/proxy.py` and the part of `run_scenario` that drives it, over the pipeline: deliveries are
sent, each is verified at its own time, and what is let through is a request of the pipeline.  A
serial plan waits for the answer before the next delivery, and so does the delivery after a kill; a
concurrent plan does not wait.

`Wire.sent` says of every delivery that was sent what it became, and `Wire.Serves` ties it to the
pipeline: a refused delivery leaves no trace there, and an accepted one is the request of its event.
-/

namespace LedgerProof.Harness

/-! ## The proxy -/

/-- What a delivery that was sent has become. -/
inductive Sent
  | refused (r : Refusal)
  /-- The request at this place of the pipeline. -/
  | request (i : ℕ)
  /-- The body has a value in it that `Json` has not. -/
  | notModelled
  deriving DecidableEq, Repr

/-- The pipeline, and what became of the deliveries, by their places in the plan. -/
structure Wire where
  system : State
  sent : List (ℕ × Sent)

/-- Nothing has been sent yet, and nothing is in flight. -/
def Wire.start (L : Ledger) (log : EventLog) : Wire := ⟨⟨L, log, [], [], []⟩, []⟩

/-- What may happen next. -/
inductive WireAct
  /-- The `k`-th delivery is sent, and verified at the time `now`. -/
  | send (k : ℕ) (now : ℤ)
  /-- The pipeline takes a step. -/
  | system (a : Act)

/-- The response to the `k`-th delivery, once there is one. -/
def Wire.reply? (w : Wire) (k : ℕ) : Option Reply :=
  match w.sent.lookup k with
  | some (.refused r) => some r.reply
  | some (.request i) => (w.system.requests[i]?.bind fun q => q.pc.response?).map Response.reply
  | some .notModelled | none => none

section

variable (uuid5 : String → Uuid) (hmacHex : List UInt8 → List UInt8 → String) (secret : String)
  (planned : ℤ)
  (fp : FaultPlan)

/-- One step of the proxy and the pipeline. -/
def Wire.next (w : Wire) : WireAct → Wire
  | .send k now =>
      match fp.sends[k]? with
      | some d =>
          match receive hmacHex secret now d.body d.sigHeader with
          | .refused r => { w with sent := w.sent ++ [(k, .refused r)] }
          | .accepted e =>
              ⟨w.system.next uuid5 seedChart (.deliver e),
                w.sent ++ [(k, .request w.system.requests.length)]⟩
          | .notModelled => { w with sent := w.sent ++ [(k, .notModelled)] }
      | none => w
  | .system a => { w with system := w.system.next uuid5 seedChart a }

/-- A delivery is sent once, in time for its signature, and after those before it were answered
unless the plan sends them at once. -/
def Wire.Allows (w : Wire) : WireAct → Prop
  | .send k now =>
      w.sent.lookup k = none ∧ (∀ d, fp.sends[k]? = some d → d.InWindow planned now) ∧
        (fp.concurrent = false ∨ fp.deliveries.length ≤ k → ∀ j < k, (w.reply? j).isSome = true)
  | .system a => a.Calm w.system

/-- What the proxy reports. -/
def Wire.results (w : Wire) : List DeliveryResult :=
  fp.sends.mapIdx fun k d =>
    { eventId := d.eventId
      statusCode := (w.reply? k).map (·.status)
      body := ((w.reply? k).map (·.body)).getD "" }

/-- Everything was sent and answered, and no event of the scenario is pending. -/
structure Wire.Quiescent (scenario : Scenario) (w : Wire) : Prop where
  answered : ∀ k < fp.sends.length, (w.reply? k).isSome = true
  settled : pendingEvents w.system.log (scenario.fixtures.map (·.eventId)) = 0

end

/-! ## What became of the deliveries -/

/-- The pipeline has got to where these fixtures lead, and what became of the deliveries is what
their plan says. -/
structure Wire.Serves (uuid5 : String → Uuid) (hmacHex : List UInt8 → List UInt8 → String)
    (secret : String) (planned : ℤ) (fp : FaultPlan) (L : Ledger) (log : EventLog)
    (served : List EventFixture) (w : Wire) : Prop where
  system : w.system.Serves uuid5 seedChart L log (served.map (·.asEvent))
  refused : ∀ k s d, (k, s) ∈ w.sent → fp.sends[k]? = some d → d.Refused hmacHex secret planned →
    s = .refused .invalidSignature
  accepted : ∀ k s d e, (k, s) ∈ w.sent → fp.sends[k]? = some d →
    d.Accepted hmacHex secret planned e →
    ∃ i q, s = .request i ∧ w.system.requests[i]? = some q ∧ q.event = e

section

variable {uuid5 : String → Uuid} {hmacHex : List UInt8 → List UInt8 → String} {secret : String}
  {planned : ℤ}
  {fp : FaultPlan} {L : Ledger} {log : EventLog} {served : List EventFixture} {w : Wire}

lemma mem_of_lookup {l : List (ℕ × Sent)} {k : ℕ} {s : Sent} (h : l.lookup k = some s) :
    (k, s) ∈ l := by
  obtain ⟨l₁, l₂, rfl, -⟩ := List.lookup_eq_some_iff.mp h
  simp

lemma Wire.next_of_refused {k : ℕ} {d : Delivery} {now : ℤ} {r : Refusal}
    (hd : fp.sends[k]? = some d)
    (hreceive : receive hmacHex secret now d.body d.sigHeader = .refused r) :
    w.next uuid5 hmacHex secret fp (.send k now) =
      { w with sent := w.sent ++ [(k, .refused r)] } := by
  simp only [Wire.next, hd, hreceive]

lemma Wire.next_of_accepted {k : ℕ} {d : Delivery} {now : ℤ} {e : Event}
    (hd : fp.sends[k]? = some d)
    (hreceive : receive hmacHex secret now d.body d.sigHeader = .accepted e) :
    w.next uuid5 hmacHex secret fp (.send k now) =
      ⟨w.system.next uuid5 seedChart (.deliver e),
        w.sent ++ [(k, .request w.system.requests.length)]⟩ := by
  simp only [Wire.next, hd, hreceive]

lemma Wire.foldl_system (acts : List Act) :
    (acts.map .system).foldl (Wire.next uuid5 hmacHex secret fp) w =
      { w with system := acts.foldl (State.next uuid5 seedChart) w.system } := by
  induction acts generalizing w with
  | nil => rfl
  | cons a acts ih => exact ih

/-- A request stays at its place, with its event. -/
lemma request_next (uuid5 : String → Uuid) {s : State} {i : ℕ} {q : Request}
    (hq : s.requests[i]? = some q) (a : Act) :
    ∃ q', (s.next uuid5 seedChart a).requests[i]? = some q' ∧ q'.event = q.event := by
  obtain ⟨hi, -⟩ := List.getElem?_eq_some_iff.mp hq
  have hlength : i < (s.next uuid5 seedChart a).requests.length := by
    cases a with
    | deliver e =>
        rw [State.next, List.length_append]
        exact hi.trans_le (Nat.le_add_right _ _)
    | request j o carrier =>
        cases hj : s.requests[j]? <;> simpa only [State.next, hj, List.length_set] using hi
    | inject e carrier => exact hi
    | take j => cases hj : s.ready[j]? <;> simpa only [State.next, hj] using hi
    | work j l => cases hj : s.tasks[j]? <;> simpa only [State.next, hj] using hi
    | crash j => cases hj : s.tasks[j]? <;> simpa only [State.next, hj] using hi
    | redeliver j => cases hj : s.tasks[j]? <;> simpa only [State.next, hj] using hi
  refine ⟨_, List.getElem?_eq_getElem hlength, ?_⟩
  rcases State.next_request a (List.getElem?_eq_getElem hlength) with
    hold | ⟨e, -, hnew, -⟩ | ⟨q₀, x, hq₀, hstep, heq, -⟩
  · rw [hq, Option.some_inj] at hold
    rw [← hold]
  · omega
  · rw [hq, Option.some_inj] at hq₀
    rw [heq, hstep.event_eq, hq₀]

lemma Wire.Serves.start (hL : L.Admitted seedChart) (hlog : log.Wf) :
    (Wire.start L log).Serves uuid5 hmacHex secret planned fp L log served where
  system := .start hL hlog
  refused := by simp [Wire.start]
  accepted := by simp [Wire.start]

/-- **The event of an accepted delivery that was answered is on record.** -/
lemma Wire.Serves.taken_of_answered (h : w.Serves uuid5 hmacHex secret planned fp L log served)
    {k : ℕ} {d : Delivery} {e : Event} (hd : fp.sends[k]? = some d)
    (haccepted : d.Accepted hmacHex secret planned e) (hreply : (w.reply? k).isSome = true) :
    ∃ oid, moneyMovementObjectId e = .ok oid ∧ w.system.log.taken e oid = true := by
  unfold Wire.reply? at hreply
  cases hlookup : w.sent.lookup k with
  | none => simp [hlookup] at hreply
  | some s =>
      obtain ⟨i, q, rfl, hq, rfl⟩ := h.accepted k s d e (mem_of_lookup hlookup) hd haccepted
      obtain ⟨-, oid, hoid, -, htaken | ⟨hpc, -⟩⟩ := h.system.requests q (List.mem_of_getElem? hq)
      · exact ⟨oid, hoid, htaken⟩
      · simp [hlookup, hq, hpc, RequestPc.response?] at hreply

/-- The second copy of an event finds the object of the first on record. -/
lemma taken_copy {s : State} {F : List Event} (h : s.Serves uuid5 seedChart L log F)
    (hF : Batch uuid5 seedChart L log F) {e : Event} (he : e ∈ F) {oid : Option String}
    (hoid : moneyMovementObjectId e = .ok oid)
    (htaken : s.log.taken e oid = true) (id : String) :
    s.log.taken { e with id := id } oid = true := by
  obtain ⟨oid', hoid'⟩ := hF.object e he
  obtain rfl : oid = some oid' := Except.ok.inj (hoid.symm.trans hoid')
  obtain ⟨r, hr, hid⟩ := EventLog.hasId_iff.mp (h.hasId_of_taken hF he hoid htaken)
  obtain ⟨hmem, -⟩ := h.payload_mem hr (hF.fresh e he _ hoid) (.inl hid)
  obtain ⟨hpid, htype, hobj⟩ := h.base.log.payload r hr
  obtain rfl : r.payload = e := hF.eq_of_id hmem he (hpid.trans hid)
  have hcolumn : r.objectId = some oid' := Except.ok.inj (hobj.symm.trans hoid')
  refine Bool.or_eq_true_iff.mpr (.inr (EventLog.hasKey_iff.mpr ⟨r, hr, htype.symm, ?_⟩))
  exact sqlEq_iff.mpr ⟨oid', hcolumn, rfl⟩

lemma moneyMovementObjectId_id (e : Event) (id : String) :
    moneyMovementObjectId { e with id := id } = moneyMovementObjectId e := by
  unfold moneyMovementObjectId
  rw [Event.getD_payload _ (by decide) (by decide), Event.getD_payload _ (by decide) (by decide)]

lemma fresh_copy {F : List Event} (hF : Batch uuid5 seedChart L log F) {e : Event} (he : e ∈ F)
    {oid : Option String} (hoid : moneyMovementObjectId e = .ok oid) {id : String}
    (hid : ∀ r ∈ log, r.id ≠ id) :
    log.taken { e with id := id } oid = false :=
  EventLog.taken_eq_false_iff.mpr ⟨hid, (EventLog.taken_eq_false_iff.mp (hF.fresh e he oid hoid)).2⟩

/-- **What is accepted is an event of the batch, or a copy of one on record.** -/
lemma Wire.Serves.deliver_clean (h : w.Serves uuid5 hmacHex secret planned fp L log served)
    (hF : Batch uuid5 seedChart L log (served.map (·.asEvent))) {fixtures : List EventFixture}
    (hsound : fp.Sound hmacHex secret planned fixtures served)
    (hids : ∀ d ∈ fp.sends, ∀ r ∈ log, r.id ≠ d.eventId) {k : ℕ} {d : Delivery}
    (hd : fp.sends[k]? = some d) (hturn : fp.concurrent = false ∨ fp.deliveries.length ≤ k →
      ∀ j < k, (w.reply? j).isSome = true) :
    d.Refused hmacHex secret planned ∨ ∃ e, d.Accepted hmacHex secret planned e ∧
      (Act.deliver e).Clean log (served.map (·.asEvent)) w.system := by
  rcases hsound.sends k d hd with hrefused | ⟨fx, hfx,
    haccepted | ⟨haccepted, hserial, j, hj, d', hd', hfirst⟩⟩
  · exact .inl hrefused
  · have hmem : fx.asEvent ∈ served.map (·.asEvent) := List.mem_map_of_mem hfx
    obtain ⟨oid, hoid⟩ := hF.object _ hmem
    exact .inr ⟨_, haccepted, some oid, hoid, hF.fresh _ hmem _ hoid, .inr hmem⟩
  · -- the first copy was answered, so the object is on record
    have hmem : fx.asEvent ∈ served.map (·.asEvent) := List.mem_map_of_mem hfx
    obtain ⟨oid, hoid, htaken⟩ := h.taken_of_answered hd' hfirst (hturn (.inl hserial) j hj)
    refine .inr ⟨_, haccepted, oid, (moneyMovementObjectId_id _ _).trans hoid, ?_, .inl ?_⟩
    · exact fresh_copy hF hmem hoid (hids d (List.mem_of_getElem? hd))
    · exact taken_copy h.system hF hmem hoid htaken d.eventId

lemma Wire.Serves.send_refused (h : w.Serves uuid5 hmacHex secret planned fp L log served) {k : ℕ}
    {d : Delivery} (hd : fp.sends[k]? = some d) (hrefused : d.Refused hmacHex secret planned)
    {now : ℤ} (htime : d.InWindow planned now) :
    (w.next uuid5 hmacHex secret fp (.send k now)).Serves uuid5 hmacHex secret planned fp L log
    served := by
  have hreceive := hrefused.2 now htime
  rw [next_of_refused hd hreceive]
  refine ⟨h.system, fun k' s d' hs hd' hrefused' => ?_, fun k' s d' e hs hd' haccepted => ?_⟩
  · rcases List.mem_append.mp hs with hs | hs
    · exact h.refused k' s d' hs hd' hrefused'
    · exact (Prod.mk.inj (List.mem_singleton.mp hs)).2
  · rcases List.mem_append.mp hs with hs | hs
    · exact h.accepted k' s d' e hs hd' haccepted
    · obtain ⟨rfl, -⟩ := Prod.mk.inj (List.mem_singleton.mp hs)
      obtain rfl : d = d' := Option.some_inj.mp (hd.symm.trans hd')
      rw [haccepted.2.2 now htime] at hreceive
      cases hreceive

/-- An accepted delivery is the last request of the pipeline. -/
lemma Wire.Serves.send_accepted (h : w.Serves uuid5 hmacHex secret planned fp L log served)
    (hF : Batch uuid5 seedChart L log (served.map (·.asEvent))) (hinj : Function.Injective uuid5)
    {k : ℕ} {d : Delivery} (hd : fp.sends[k]? = some d) {e : Event}
    (haccepted : d.Accepted hmacHex secret planned e)
    (hclean : (Act.deliver e).Clean log (served.map (·.asEvent)) w.system) {now : ℤ}
    (htime : d.InWindow planned now) :
    (w.next uuid5 hmacHex secret fp (.send k now)).Serves uuid5 hmacHex secret planned fp L log
    served := by
  have hreceive := haccepted.2.2 now htime
  rw [next_of_accepted hd hreceive]
  refine ⟨h.system.next hF hinj hclean, fun k' s d' hs hd' hrefused => ?_,
    fun k' s d' e' hs hd' haccepted' => ?_⟩
  · rcases List.mem_append.mp hs with hs | hs
    · exact h.refused k' s d' hs hd' hrefused
    · obtain ⟨rfl, -⟩ := Prod.mk.inj (List.mem_singleton.mp hs)
      obtain rfl : d = d' := Option.some_inj.mp (hd.symm.trans hd')
      rw [hrefused.2 now htime] at hreceive
      cases hreceive
  · rcases List.mem_append.mp hs with hs | hs
    · obtain ⟨i, q, rfl, hq, rfl⟩ := h.accepted k' s d' e' hs hd' haccepted'
      obtain ⟨q', hq', hevent⟩ := request_next uuid5 hq (.deliver e)
      exact ⟨i, q', rfl, hq', hevent⟩
    · obtain ⟨rfl, rfl⟩ := Prod.mk.inj (List.mem_singleton.mp hs)
      obtain rfl : d = d' := Option.some_inj.mp (hd.symm.trans hd')
      rw [haccepted'.2.2 now htime] at hreceive
      obtain rfl : e' = e := Received.accepted.inj hreceive
      exact ⟨_, ⟨e', .record, none, none⟩, rfl, by simp [State.next], rfl⟩

/-- **Every step that the harness allows keeps the invariant.** -/
lemma Wire.Serves.next (h : w.Serves uuid5 hmacHex secret planned fp L log served)
    (hF : Batch uuid5 seedChart L log (served.map (·.asEvent))) (hinj : Function.Injective uuid5)
    {fixtures : List EventFixture} (hsound : fp.Sound hmacHex secret planned fixtures served)
    (hids : ∀ d ∈ fp.sends, ∀ r ∈ log, r.id ≠ d.eventId) {a : WireAct}
    (ha : w.Allows planned fp a) :
    (w.next uuid5 hmacHex secret fp a).Serves uuid5 hmacHex secret planned fp L log served := by
  cases a with
  | system a =>
      refine ⟨h.system.next hF hinj (ha.clean _ _), h.refused, fun k s d e hs hd haccepted => ?_⟩
      obtain ⟨i, q, rfl, hq, rfl⟩ := h.accepted k s d e hs hd haccepted
      obtain ⟨q', hq', hevent⟩ := request_next uuid5 hq a
      exact ⟨i, q', rfl, hq', hevent⟩
  | send k now =>
      obtain ⟨-, hwindow, hturn⟩ := ha
      cases hd : fp.sends[k]? with
      | none => simpa only [Wire.next, hd] using h
      | some d =>
          rcases h.deliver_clean hF hsound hids hd hturn with hrefused | ⟨e, haccepted, hclean⟩
          · exact h.send_refused hd hrefused (hwindow d hd)
          · exact h.send_accepted hF hinj hd haccepted hclean (hwindow d hd)

/-- **Once everything was answered, every served event is on record.** -/
lemma Wire.Serves.hasId (h : w.Serves uuid5 hmacHex secret planned fp L log served)
    (hF : Batch uuid5 seedChart L log (served.map (·.asEvent))) {fixtures : List EventFixture}
    (hsound : fp.Sound hmacHex secret planned fixtures served)
    (hanswered : ∀ k < fp.sends.length, (w.reply? k).isSome = true) :
    ∀ e ∈ served.map (·.asEvent), w.system.log.hasId e.id = true := by
  intro e he
  obtain ⟨fx, hfx, rfl⟩ := List.mem_map.mp he
  obtain ⟨d, hmem, haccepted⟩ := hsound.delivered fx hfx
  obtain ⟨k, hk, hd⟩ := List.mem_iff_getElem.mp hmem
  obtain ⟨oid, hoid, htaken⟩ :=
    h.taken_of_answered (List.getElem?_eq_some_iff.mpr ⟨hk, hd⟩) haccepted (hanswered k hk)
  exact h.system.hasId_of_taken hF he hoid htaken

/-- **What was to be refused got the answer of the signature check**, if it got one. -/
lemma Wire.Serves.reply_refused (h : w.Serves uuid5 hmacHex secret planned fp L log served) {k : ℕ}
    {d : Delivery} (hd : fp.sends[k]? = some d) (hrefused : d.Refused hmacHex secret planned) :
    w.reply? k = none ∨ w.reply? k = some Refusal.invalidSignature.reply := by
  unfold Wire.reply?
  cases hlookup : w.sent.lookup k with
  | none => exact .inl rfl
  | some s =>
      obtain rfl := h.refused k s d (mem_of_lookup hlookup) hd hrefused
      exact .inr rfl

end

end LedgerProof.Harness
