import LedgerProof.Harness.Wire
import LedgerProof.StripeIo.HeaderGrammar

/-!
# The verdict

The chaos harness never accuses the correct system: whatever scenario `generate` makes, and however
its deliveries, the requests, the tasks and the deaths of workers interleave, `detect_breaks` finds
nothing once the system is quiet.

The books then hold the rows of the served fixtures and no others (`postings_perm`), so every
reading of `run_scenario` is the expectation of the plan: the ids and the number of the transactions
(`postedRows_book`), the balances (`balanceDiff_book`), the responses (`acceptedRejected_eq_nil`,
`wrongReasons_eq_nil`), and for events that were dropped the break of the reconciler
(`drop_reported`).
-/

namespace LedgerProof.Harness

/-- The books hold none of the scenario's ids: not those of its events, the twin's among them, not
the transaction ids made from these, and not those of the objects. -/
structure HoldsNone (uuid5 : String → Uuid) (scenario : Scenario) (fp : FaultPlan) (L : Ledger)
    (log : EventLog) :
    Prop where
  transactions : ∀ t ∈ L.transactions, ∀ id ∈ candidates scenario fp,
    t.id ≠ uuid5 ("ledgerproof:" ++ id) ∧ t.stripeEventId ≠ some id
  rows : ∀ r ∈ log, ∀ id ∈ candidates scenario fp, r.id ≠ id
  objects : ∀ fx ∈ scenario.fixtures, ∀ oid, moneyMovementObjectId fx.asEvent = .ok (some oid) →
    (∀ t ∈ L.transactions, t.stripeObjectId ≠ some oid) ∧ ∀ r ∈ log, r.objectId ≠ some oid

section

variable {uuid5 : String → Uuid} {hmacHex : List UInt8 → List UInt8 → String} {secret : String}
  {planned : ℤ}
  {scenario : Scenario} {fp : FaultPlan} {L : Ledger} {log : EventLog}
    {served fxs : List EventFixture}
  {fx : EventFixture}

/-! ## New events -/

lemma mem_candidates_of_fixture (hfx : fx ∈ scenario.fixtures) :
    fx.eventId ∈ candidates scenario fp := by
  have hmem : fx.eventId ∈ (candidates scenario fp).map id :=
    mem_map_firsts.mpr (by simpa using .inl ⟨fx, hfx, rfl⟩)
  simpa using hmem

lemma mem_candidates_of_send {d : Delivery} (hd : d ∈ fp.sends) :
    d.eventId ∈ candidates scenario fp := by
  have hdelivery : d ∈ fp.deliveries := by
    unfold FaultPlan.sends at hd
    split_ifs at hd
    · rcases List.mem_append.mp hd with hd | hd
      · exact hd
      · exact List.mem_of_mem_take hd
    · exact hd
  have hmem : d.eventId ∈ (candidates scenario fp).map id :=
    mem_map_firsts.mpr (by simpa using .inr ⟨d, hdelivery, rfl⟩)
  simpa using hmem

lemma Fixtures.asEvent_id (hfxs : Fixtures uuid5 fxs) (hfx : fx ∈ fxs) :
    fx.asEvent.id = fx.eventId := by
  obtain ⟨oid, hfaithful⟩ := hfxs.faithful fx hfx
  exact hfaithful.id_eq

lemma Fixtures.nodup (hfxs : Fixtures uuid5 fxs) : (fxs.map (·.eventId)).Nodup := by
  have hids : fxs.map (·.eventId) = (fxs.map (·.asEvent)).map (·.id) := by
    rw [List.map_map]
    exact List.map_congr_left fun fx hfx => (hfxs.asEvent_id hfx).symm
  rw [hids, List.Nodup, List.pairwise_map]
  exact hfxs.apart.imp fun h => h.1

/-- **To books that hold none of the scenario's ids its fixtures are a batch of new events.** -/
lemma HoldsNone.batch (h : HoldsNone uuid5 scenario fp L log)
    (hfxs : Fixtures uuid5 scenario.fixtures) (hsub : served.Sublist scenario.fixtures) :
    Batch uuid5 seedChart L log (served.map (·.asEvent)) := by
  have hmem : ∀ e ∈ served.map (·.asEvent), ∃ fx ∈ scenario.fixtures, ∃ oid, e = fx.asEvent ∧
      fx.Faithful uuid5 e oid := by
    intro e he
    obtain ⟨fx, hfx, rfl⟩ := List.mem_map.mp he
    obtain ⟨oid, hfaithful⟩ := hfxs.faithful fx (hsub.subset hfx)
    exact ⟨fx, hsub.subset hfx, oid, rfl, hfaithful⟩
  refine ⟨fun e he => ?_, fun e he => ?_, hfxs.apart.sublist (hsub.map _), fun e he => ?_,
    fun e he oid hoid => ?_⟩
  · obtain ⟨fx, -, oid, -, hfaithful⟩ := hmem e he
    exact hfaithful.plain
  · obtain ⟨fx, -, oid, -, hfaithful⟩ := hmem e he
    exact ⟨oid, hfaithful.object e.id⟩
  · obtain ⟨fx, hfx, oid, rfl, hfaithful⟩ := hmem e he
    refine hfaithful.effect.imp (fun ⟨txn, W, hpost, _⟩ => ⟨txn, W, hpost, ?_⟩) fun hnothing =>
      hnothing.1
    obtain ⟨htid, heid, htype, hobj⟩ := mapEvent_identity (hpost.2.1 none)
    have hid : fx.asEvent.id ∈ candidates scenario fp :=
      hfaithful.id_eq ▸ mem_candidates_of_fixture hfx
    have hoid : txn.stripeObjectId = some oid :=
      Except.ok.inj (hobj.symm.trans (hfaithful.object _))
    refine Ledger.conflict_eq_none_iff.mpr ⟨fun hmem => ?_, fun t ht => ?_, fun t ht => ?_⟩
    · obtain ⟨t, ht, heq⟩ := List.mem_map.mp hmem
      exact (h.transactions t ht _ hid).1 (heq.trans htid)
    · rw [Bool.eq_false_iff, ne_eq, sqlEq_iff]
      rintro ⟨x, hx, hx'⟩
      exact (h.transactions t ht _ hid).2 (hx.trans (hx'.symm.trans heid))
    · rw [Bool.eq_false_iff, ne_eq, Bool.and_eq_true, sqlEq_iff, sqlEq_iff]
      rintro ⟨-, x, hx, hx'⟩
      exact (h.objects fx hfx oid (hfaithful.object _)).1 t ht (hx.trans (hx'.symm.trans hoid))
  · obtain ⟨fx, hfx, oid', rfl, hfaithful⟩ := hmem e he
    obtain rfl : oid = some oid' := Except.ok.inj (hoid.symm.trans (hfaithful.object _))
    refine EventLog.taken_eq_false_iff.mpr ⟨fun r hr => ?_, fun r hr => ?_⟩
    · exact h.rows r hr _ (hfaithful.id_eq ▸ mem_candidates_of_fixture hfx)
    · rintro ⟨-, hkey⟩
      obtain ⟨x, hx, hx'⟩ := sqlEq_iff.mp hkey
      exact (h.objects fx hfx oid' hoid).2 r hr (hx.trans hx'.symm)

/-! ## What the books hold -/

lemma Fixtures.sublist (hfxs : Fixtures uuid5 fxs) (hsub : served.Sublist fxs) :
    Fixtures uuid5 served :=
  ⟨fun fx hfx => hfxs.faithful fx (hsub.subset hfx), fun fx hfx => hfxs.plain fx (hsub.subset hfx),
    hfxs.apart.sublist (hsub.map _)⟩

/-- The worker posts the fixtures that expect a change. -/
lemma EventFixture.Faithful.postable_iff {e : Event} {oid : String} (hf : fx.Faithful uuid5 e oid) :
    (postable uuid5 seedChart none e).isSome = true ↔ fx.expectedDelta.items ≠ [] := by
  rcases hf.effect with ⟨txn, W, hpost, ⟨name, hname⟩, -⟩ | ⟨hnothing, hnil⟩
  · refine iff_of_true (by simp [hpost.postable]) fun hnil => hname ?_
    simp [Dict.getD, Dict.get?, hnil]
  · exact iff_of_false (by simp [hnothing.postable]) fun hne => hne hnil

/-- The rows of a fixture change every account as the fixture expects. -/
lemma EventFixture.Faithful.balanceMinor_posting {e : Event} {oid : String}
    (hf : fx.Faithful uuid5 e oid) {a : Account} (ha : a ∈ seedChart.accounts) :
    (e.posting uuid5 seedChart).balanceMinor a = fx.expectedDelta.getD a.name 0 := by
  rcases hf.effect with ⟨txn, W, hpost, -, hbalance⟩ | ⟨hnothing, hnil⟩
  · rw [hpost.posting]
    exact hbalance a ha
  · rw [hnothing.posting]
    simp [Dict.getD, Dict.get?, hnil, Ledger.balanceMinor, Ledger.empty]

/-- **The rows that a batch leaves are those of its money fixtures.** -/
lemma postings_perm (hfxs : Fixtures uuid5 served) {P : List Event}
    (hP : P.Perm ((served.map (·.asEvent)).filter fun e =>
      (postable uuid5 seedChart none e).isSome)) :
    P.Perm ((money served).map (·.asEvent)) := by
  rw [List.filter_map] at hP
  refine hP.trans (List.Perm.of_eq (congrArg _ (List.filter_congr fun fx hfx => ?_)))
  obtain ⟨oid, hfaithful⟩ := hfxs.faithful fx hfx
  rw [Function.comp_apply, Bool.eq_iff_iff, decide_eq_true_eq]
  exact hfaithful.postable_iff

/-- **The transactions of the scenario are those of the money fixtures, each once.** -/
lemma postedRows_book (hfxs : Fixtures uuid5 served) {ids : List String}
    (hnone : ∀ t ∈ L.transactions, ∀ id ∈ ids, t.stripeEventId ≠ some id)
    (hids : ∀ fx ∈ served, fx.eventId ∈ ids) {P : List Event}
    (hP : P.Perm ((money served).map (·.asEvent))) :
    (postedRows (L.book uuid5 seedChart P) ids).Perm ((money served).map (·.eventId)) := by
  have hmoney : ∀ e ∈ P, ∃ fx ∈ served, e.id = fx.eventId ∧ ∃ txn W,
      e.PostsAs uuid5 seedChart txn W := by
    intro e he
    obtain ⟨fx, hfx, rfl⟩ := List.mem_map.mp (hP.mem_iff.mp he)
    obtain ⟨hfx, hne⟩ := List.mem_filter.mp hfx
    obtain ⟨oid, hfaithful⟩ := hfxs.faithful fx hfx
    refine ⟨fx, hfx, hfaithful.id_eq, ?_⟩
    rcases hfaithful.effect with ⟨txn, W, hpost, -⟩ | ⟨-, hnil⟩
    · exact ⟨txn, W, hpost⟩
    · simp [hnil] at hne
  have hold : (L.transactions.filterMap (·.stripeEventId)).filter (· ∈ ids) = [] := by
    refine List.filter_eq_nil_iff.mpr fun id hid => ?_
    obtain ⟨t, ht, heq⟩ := List.mem_filterMap.mp hid
    rw [decide_eq_true_eq]
    exact fun hmem => hnone t ht id hmem heq
  have hrows : ∀ Q : List Event, Q ⊆ P →
      (Q.flatMap fun e => (e.posting uuid5 seedChart).transactions).filterMap (·.stripeEventId) =
        Q.map (·.id) := by
    intro Q hQ
    induction Q with
    | nil => rfl
    | cons e Q ih =>
        obtain ⟨fx, -, -, txn, W, hpost⟩ := hmoney e (hQ List.mem_cons_self)
        rw [List.flatMap_cons, List.filterMap_append, ih fun e' he' =>
          hQ (List.mem_cons_of_mem _ he'), hpost.transactions]
        simp [hpost.stripeEventId]
  have hkept : (P.map (·.id)).filter (· ∈ ids) = P.map (·.id) := by
    refine List.filter_eq_self.mpr fun id hid => ?_
    obtain ⟨e, he, rfl⟩ := List.mem_map.mp hid
    obtain ⟨fx, hfx, heq, -⟩ := hmoney e he
    rw [decide_eq_true_eq, heq]
    exact hids fx hfx
  have hposted : postedRows (L.book uuid5 seedChart P) ids = P.map (·.id) := by
    rw [postedRows, Ledger.transactions_book, List.filterMap_append, List.filter_append, hold,
      hrows P fun _ h => h, hkept, List.nil_append]
  rw [hposted]
  refine (hP.map _).trans (List.Perm.of_eq ?_)
  rw [List.map_map]
  exact List.map_congr_left fun fx hfx => hfxs.asEvent_id (List.mem_of_mem_filter hfx)

/-- What some fixtures expect of an account. -/
def expectedOn (fxs : List EventFixture) (name : String) :
    ℤ := total (fun fx => fx.expectedDelta.getD name 0) fxs

lemma getD_eq_total (d : Dict String ℤ) (name : String) :
    total Prod.snd (d.items.filter fun i => i.1 = name) = d.getD name 0 := by
  by_cases hmem : name ∈ d.keys
  · obtain ⟨v, hv⟩ := Dict.mem_keys_iff.mp hmem
    rw [filter_key_eq_singleton d.nodup (Dict.mem_items_iff.mpr hv), Dict.getD, hv]
    simp
  · rw [Dict.getD_eq_of_not_mem hmem]
    refine total_eq_zero fun i hi => absurd ?_ hmem
    obtain ⟨hi, heq⟩ := List.mem_filter.mp hi
    rw [decide_eq_true_eq] at heq
    exact List.mem_map.mpr ⟨i, hi, heq⟩

lemma get?_sumDelta (fxs : List EventFixture) (posted : Finset String) (name : String) :
    (sumDelta fxs posted).get? name =
      if expectedOn (fxs.filter (·.eventId ∈ posted)) name = 0 then none
      else some (expectedOn (fxs.filter (·.eventId ∈ posted)) name) := by
  have hfold : ∀ (fxs : List EventFixture) (d : Dict String ℤ),
      (fxs.foldl (fun totals fx =>
        if fx.eventId ∈ posted then totals.tally Prod.fst Prod.snd fx.expectedDelta.items
          else totals) d).getD name 0 =
        d.getD name 0 + expectedOn (fxs.filter (·.eventId ∈ posted)) name := by
    intro fxs
    induction fxs with
    | nil => simp [expectedOn]
    | cons fx fxs ih =>
        intro d
        rw [List.foldl_cons, ih]
        by_cases hfx : fx.eventId ∈ posted
        · rw [if_pos hfx, Dict.getD_tally, getD_eq_total,
            List.filter_cons_of_pos (by simpa using hfx), expectedOn, expectedOn, total_cons,
            add_assoc]
        · rw [if_neg hfx, List.filter_cons_of_neg (by simpa using hfx)]
  rw [sumDelta, Dict.get?_filter_ne_zero, hfold, Dict.getD_empty, zero_add]

/-- The fixtures whose ids are expected to be posted are the money fixtures that are served. -/
lemma filter_posted_perm (hfxs : Fixtures uuid5 fxs) (hsub : served.Sublist fxs) :
    (fxs.filter (·.eventId ∈ eventIds (money served))).Perm (money served) := by
  have hnodup : fxs.Nodup := List.Nodup.of_map _ hfxs.nodup
  refine (List.perm_ext_iff_of_nodup (hnodup.filter _) ((hnodup.sublist hsub).filter _)).mpr
    fun fx => ?_
  rw [List.mem_filter, decide_eq_true_eq, eventIds, List.mem_toFinset, List.mem_map]
  constructor
  · rintro ⟨hfx, fx', hfx', heq⟩
    rwa [← List.inj_on_of_nodup_map hfxs.nodup (hsub.subset (List.mem_of_mem_filter hfx')) hfx heq]
  · exact fun hfx => ⟨hsub.subset (List.mem_of_mem_filter hfx), fx, hfx, rfl⟩

/-- **The balances change as the plan expects.** -/
lemma balanceDiff_book (hfxs : Fixtures uuid5 fxs) (hsub : served.Sublist fxs) {P : List Event}
    (hP : P.Perm ((money served).map (·.asEvent))) (name : String) :
    (balanceDiff (allBalances seedChart L) (allBalances seedChart (L.book uuid5 seedChart P))).get?
      name =
      (sumDelta fxs (eventIds (money served))).get? name := by
  have hfaithful : ∀ fx ∈ money served, ∃ oid, fx.Faithful uuid5 fx.asEvent oid :=
    fun fx hfx => hfxs.faithful fx (hsub.subset (List.mem_of_mem_filter hfx))
  have hchange : (allBalances seedChart (L.book uuid5 seedChart P)).getD name 0 -
      (allBalances seedChart L).getD name 0 = expectedOn (money served) name := by
    by_cases hname : name ∈ seedChart.accounts.map (·.name)
    · obtain ⟨a, ha, rfl⟩ := List.mem_map.mp hname
      rw [getD_allBalances ha, getD_allBalances ha, Ledger.balanceMinor_book, add_sub_cancel_left,
        total_perm hP, total_map]
      refine total_congr fun fx hfx => ?_
      obtain ⟨oid, hfx⟩ := hfaithful fx hfx
      exact hfx.balanceMinor_posting ha
    · rw [Dict.getD_eq_of_not_mem (by rwa [keys_allBalances]),
        Dict.getD_eq_of_not_mem (by rwa [keys_allBalances]), sub_zero]
      refine (total_eq_zero fun fx hfx => Dict.getD_eq_of_not_mem fun hkey => hname ?_).symm
      obtain ⟨oid, hfx⟩ := hfaithful fx hfx
      exact hfx.accounts name hkey
  rw [get?_balanceDiff, hchange, get?_sumDelta, expectedOn, expectedOn,
    total_perm (filter_posted_perm hfxs hsub)]

/-! ## The responses -/

lemma mem_zip_results {w : Wire} {d : Delivery} {result : DeliveryResult}
    (h : (d, result) ∈ fp.deliveries.zip (w.results fp)) :
    ∃ k, fp.sends[k]? = some d ∧ result.statusCode = (w.reply? k).map (·.status) ∧
      result.body = ((w.reply? k).map (·.body)).getD "" := by
  obtain ⟨k, hk⟩ := List.mem_iff_getElem?.mp h
  obtain ⟨hd, hresult⟩ := List.getElem?_zip_eq_some.mp hk
  obtain ⟨d', hd', hresult⟩ : ∃ d', fp.sends[k]? = some d' ∧ _ := by
    simpa [Wire.results, List.getElem?_mapIdx] using hresult
  have hsame : fp.sends[k]? = some d := by
    unfold FaultPlan.sends
    split_ifs
    · rw [List.getElem?_append_left (List.getElem?_eq_some_iff.mp hd).1]
      exact hd
    · exact hd
  exact ⟨k, hsame, by rw [← hresult], by rw [← hresult]⟩

/-- A delivery that was not expected to be accepted was not accepted, and not for another reason. -/
lemma Wire.Serves.response {w : Wire} (h : w.Serves uuid5 hmacHex secret planned fp L log served)
    (hsound : fp.Sound hmacHex secret planned fxs served) {d : Delivery} {result : DeliveryResult}
    (hmem : (d, result) ∈ fp.deliveries.zip (w.results fp)) :
    (d.expectRejected = false ∧ d.expectRejectionReason = none) ∨
      ((∀ reason, d.expectRejectionReason = some reason → reason = invalidSignature) ∧
        (result.statusCode = none ∨ (result.statusCode = some 400 ∧
          result.body = Refusal.invalidSignature.reply.body))) := by
  obtain ⟨k, hd, hstatus, hbody⟩ := mem_zip_results hmem
  rcases hsound.sends k d hd with hrefused | ⟨fx, -, haccepted | ⟨haccepted, -⟩⟩
  · refine .inr ⟨hrefused.1, ?_⟩
    rcases h.reply_refused hd hrefused with hreply | hreply
    · exact .inl (by rw [hstatus, hreply]; rfl)
    · exact .inr ⟨by rw [hstatus, hreply]; rfl, by rw [hbody, hreply]; rfl⟩
  · exact .inl ⟨haccepted.1, haccepted.2.1⟩
  · exact .inl ⟨haccepted.1, haccepted.2.1⟩

lemma acceptedRejected_eq_nil {w : Wire} (h : w.Serves uuid5 hmacHex secret planned fp L log served)
    (hsound : fp.Sound hmacHex secret planned fxs served) :
    acceptedRejected fp.deliveries (w.results fp) = [] := by
  refine congrArg (firsts id []) (List.filterMap_eq_nil_iff.mpr fun ⟨d, result⟩ hmem => ?_)
  rcases h.response hsound hmem with ⟨haccepted, -⟩ | ⟨-, hstatus | ⟨hstatus, -⟩⟩
  · cases hcode : result.statusCode <;> simp [hcode, haccepted]
  · simp [hstatus]
  · simp [hstatus]

lemma wrongReasons_eq_nil {w : Wire} (h : w.Serves uuid5 hmacHex secret planned fp L log served)
    (hsound : fp.Sound hmacHex secret planned fxs served) :
    wrongReasons fp.deliveries (w.results fp) = [] := by
  have hnamed : isInfix invalidSignature Refusal.invalidSignature.reply.body = true := by decide
  refine congrArg (firsts id []) (List.filterMap_eq_nil_iff.mpr fun ⟨d, result⟩ hmem => ?_)
  rcases h.response hsound hmem with ⟨-, hnone⟩ | ⟨hreason, hstatus | ⟨hstatus, hbody⟩⟩
  · simp [hnone]
  · cases hd : d.expectRejectionReason <;> simp [hd, hstatus]
  · cases hd : d.expectRejectionReason with
    | none => simp [hd]
    | some reason =>
        obtain rfl := hreason reason hd
        simp [hd, hstatus, hbody, hnamed]

/-! ## The reconciler -/

/-- **The reconciler reports that an event was dropped.** -/
lemma drop_reported (hfxs : Fixtures uuid5 scenario.fixtures) (hne : scenario.fixtures ≠ [])
    (hmoves : ∀ fx ∈ scenario.fixtures, fx.kind ≠ .invoicePaymentFailed) (hL : L.Admitted seedChart)
    (hnone : ∀ t ∈ L.transactions, ∀ id ∈ candidates scenario fp, t.stripeEventId ≠ some id) :
    (reconcileExpected seedChart L (scenario.fixtures.map fun fx => ⟨fx.eventId, fx.expectedDelta⟩)
      usd).breaks.any
      (fun b => b.kind = .missingInLedger && b.eventId.any (· ∈ candidates scenario fp)) =
        true := by
  obtain ⟨missing, -, hmissing, hbreaks⟩ := missingInLedger_breaks hL
    (scenario.fixtures.map fun fx => (⟨fx.eventId, fx.expectedDelta⟩ : ExpectedEvent)) usd
  obtain ⟨first, hfirst⟩ := List.exists_mem_of_ne_nil _ hne
  -- some fixture is the first occurrence of its id
  have hkey : first.eventId ∈ (firsts ExpectedEvent.eventId []
      (scenario.fixtures.map fun fx => ⟨fx.eventId, fx.expectedDelta⟩)).map ExpectedEvent.eventId :=
    mem_map_firsts.mpr (by simpa using ⟨first, hfirst, rfl⟩)
  obtain ⟨x, hx, -⟩ := List.mem_map.mp hkey
  obtain ⟨pre, post, hsplit, -⟩ := mem_firsts.mp hx
  obtain ⟨fx, hfx, rfl⟩ := List.mem_map.mp (hsplit ▸ List.mem_append_right pre List.mem_cons_self)
  obtain ⟨oid, hfaithful⟩ := hfxs.faithful fx hfx
  have hid : fx.eventId ∈ candidates scenario fp := mem_candidates_of_fixture hfx
  have hmem := (hmissing _).mpr ⟨hx, hfaithful.moves (hmoves fx hfx),
    fun t ht heq => absurd heq (hnone t ht _ hid)⟩
  have hbreak := hbreaks ▸ List.mem_map_of_mem (f := ExpectedEvent.missingInLedger) hmem
  exact List.any_eq_true.mpr ⟨_,
    (List.mem_filter.mp hbreak).1, by simp [ExpectedEvent.missingInLedger, hid]⟩

/-! ## The verdict -/

/-- The books after a run: those before it, and the rows of the money fixtures that were served. -/
lemma Wire.Serves.booked {w : Wire} (h : w.Serves uuid5 hmacHex secret planned fp L log served)
    (hF : Batch uuid5 seedChart L log (served.map (·.asEvent)))
    (hfxs : Fixtures uuid5 scenario.fixtures)
    (hsound : fp.Sound hmacHex secret planned scenario.fixtures served)
    (hquiet : w.Quiescent fp scenario) :
    ∃ P : List Event, P.Perm ((money served).map (·.asEvent)) ∧
      w.system.ledger = L.book uuid5 seedChart P := by
  have hserved := hfxs.sublist hsound.sublist
  obtain ⟨P, hP, hledger⟩ :=
    h.system.booked_all hF (h.hasId hF hsound hquiet.answered) fun r hr hid => by
    refine pendingEvents_eq_zero_iff.mp hquiet.settled r hr ?_
    obtain ⟨e, he, heq⟩ := List.mem_map.mp hid
    obtain ⟨fx, hfx, rfl⟩ := List.mem_map.mp he
    exact List.mem_map.mpr ⟨fx, hsound.sublist.subset hfx, (hserved.asEvent_id hfx).symm.trans heq⟩
  exact ⟨P, postings_perm hserved hP, hledger⟩

/-- What `run_scenario` observes once the queue is empty.  Messages that a killed worker did not
acknowledge wait to be delivered again, but they are not in the length of the queue. -/
def Wire.observation (scenario : Scenario) (fp : FaultPlan) (L : Ledger) (responsive : Option Bool)
    (w : Wire) :
    Observation :=
  observe seedChart scenario fp L w.system.ledger w.system.log (w.results fp) 0 responsive

/-- **A quiet system meets the expectation of the plan in every respect.** -/
lemma Wire.Serves.detectBreaks_eq_nil {w : Wire}
    (h : w.Serves uuid5 hmacHex secret planned fp L log served)
    (hnone : HoldsNone uuid5 scenario fp L log) (hL : L.Admitted seedChart)
    (hsc : scenario.Generated hmacHex uuid5) (hfault : fp.fault = scenario.fault)
    (hsound : fp.Sound hmacHex secret planned scenario.fixtures served)
    (hquiet : w.Quiescent fp scenario) {responsive : Option Bool}
    (hresponsive : responsive ≠ some false) :
    detectBreaks fp (w.observation scenario fp L responsive) = [] := by
  have hF := hnone.batch hsc.fixtures hsound.sublist
  have hserved := hsc.fixtures.sublist hsound.sublist
  obtain ⟨P, hP, hledger⟩ := h.booked hF hsc.fixtures hsound hquiet
  have hrows : (postedRows w.system.ledger (candidates scenario fp)).Perm
      ((money served).map (·.eventId)) := by
    rw [hledger]
    exact postedRows_book hserved (fun t ht id hid => (hnone.transactions t ht id hid).2)
      (fun fx hfx => mem_candidates_of_fixture (hsound.sublist.subset hfx)) hP
  have hmoney : ((money served).map (·.eventId)).Nodup :=
    hserved.nodup.sublist (List.filter_sublist.map _)
  have hposted : ∀ id, id ∈ (w.observation scenario fp L responsive).posted ↔
      id ∈ eventIds (money served) := by
    intro id
    rw [observation, observe, Finset.mem_sort, List.mem_toFinset, hrows.mem_iff, eventIds,
      List.mem_toFinset]
  refine detectBreaks_eq_nil_iff.mpr ⟨?_, fun name => ?_, fun id hid hrejected => ?_, ?_, ?_,
    fun id hid => ?_, ?_, ?_,
    fun hmissed => ?_, ?_⟩
  · simpa only [observation, observe] using h.system.base.ledger.check_ok
  · rw [hsound.balances, hsound.posted, observation, observe, hledger]
    exact balanceDiff_book hsc.fixtures hsound.sublist hP name
  · rw [hposted] at hid
    rw [hsound.rejected fun hnil => by simp [hnil, eventIds, money] at hid] at hrejected
    exact absurd hrejected (Finset.notMem_empty id)
  · exact acceptedRejected_eq_nil h hsound
  · exact wrongReasons_eq_nil h hsound
  · rwa [hposted, ← hsound.posted]
  · rw [hsound.posted, eventIds, List.toFinset_card_of_nodup hmoney]
    exact hrows.length_eq.le
  · simpa [observation, observe] using hquiet.settled
  · obtain ⟨hdrop, rfl⟩ := hsound.missed hmissed
    obtain rfl : P = [] := List.perm_nil.mp hP
    have hne : scenario.fixtures ≠ [] := by
      rw [← List.length_pos_iff, hsc.count]
      cases scenario.fault <;> decide
    rw [observation, observe, hmissed, Bool.true_and, hledger, Ledger.book_nil]
    exact drop_reported hsc.fixtures hne (hsc.moves (hfault.symm.trans hdrop)) hL
      fun t ht id hid => (hnone.transactions t ht id hid).2
  · rw [observation, observe]
    dsimp only
    split_ifs
    · exact hresponsive
    · simp

end

/-- **The chaos harness never accuses the correct system.**  A scenario of `generate` can be planned
with the secret of the stack, and from any admitted books that hold none of its ids and with nothing
in flight, every run of its plan that ends quiet is one in which `detect_breaks` finds nothing. -/
theorem chaos_harness_never_accuses (R : Random) (hmacHex : List UInt8 → List UInt8 → String)
    (hdigest : Digest hmacHex) (uuid5 : String → Uuid) (hinj : Function.Injective uuid5)
    (clock : ℕ → ℤ) (hclock : ∀ k, Datable (clock k)) (seed : ℤ) (faults : Option (List Fault))
    (kinds : Option (List String)) (perCombo startSeq : ℤ) (set : ScenarioSet)
    (hset : generate R hmacHex clock seed faults kinds perCombo startSeq = .ok set)
    (scenario : Scenario) (hscenario : scenario ∈ set.scenarios) (secret : String) (planned : ℤ)
    (hplanned : Datable planned) :
    ∃ fp, plan hmacHex scenario.fault scenario.fixtures secret scenario.params planned = .ok fp ∧
      ∀ (L : Ledger) (log : EventLog), L.Admitted seedChart → log.Wf →
        HoldsNone uuid5 scenario fp L log →
      ∀ acts : List WireAct,
        Guarded (Wire.next uuid5 hmacHex secret fp) (Wire.Allows planned fp)
          (Wire.start L log) acts →
        (acts.foldl (Wire.next uuid5 hmacHex secret fp) (Wire.start L log)).Quiescent fp scenario →
      ∀ responsive : Option Bool, responsive ≠ some false →
        detectBreaks fp ((acts.foldl (Wire.next uuid5 hmacHex secret fp)
          (Wire.start L log)).observation scenario fp L responsive) = [] := by
  have hsc : scenario.Generated hmacHex uuid5 := generated_of_mem hclock hset scenario hscenario
  obtain ⟨fp, hfp, hfault, served, hsound⟩ := hsc.plan_again hdigest hplanned secret
  refine ⟨fp, hfp, fun L log hL hlog hnone acts hacts hquiet responsive hresponsive => ?_⟩
  have hF := hnone.batch hsc.fixtures hsound.sublist
  have hids : ∀ d ∈ fp.sends, ∀ r ∈ log, r.id ≠ d.eventId := fun d hd r hr =>
    hnone.rows r hr _ (mem_candidates_of_send hd)
  have hserves := Guarded.inv (fun w : Wire =>
    w.Serves uuid5 hmacHex secret planned fp L log served)
    (fun w a hw ha => hw.next hF hinj hsound hids ha) (.start hL hlog) hacts
  exact hserves.detectBreaks_eq_nil hnone hL hsc hfault hsound hquiet hresponsive

/-! ### A payout whose worker dies between the commit and the status write -/

/-- `Random` as far as one scenario needs it: with the seed 0 the amount is the one `random.Random`
draws. -/
def steadyRandom : Random where
  State := ℤ
  ofSeed := fun seed => seed
  randrange := fun s start stop => (if s = 0 ∧ start = 100 ∧ stop = 100000 then 50594 else start, s)
  randrange_mem := fun s start stop h => by
    dsimp only
    split_ifs <;> omega

/-- The fixture of the scenario. -/
def paidPayout : EventFixture := makePayoutPaid "evt_h000001" "po_h000001" 50594 1754300000 "usd"

/-- An injective function with the value of `uuid.uuid5(NAMESPACE_URL, ·)` at the name of the
payout. -/
def payoutUuid5 : String → Uuid :=
  ⇑(Equiv.swap "ledgerproof:evt_h000001" "bd089140-c7b9-50be-93e2-613e7e1938bd")

/-- A digest that has the value of HMAC-SHA256 for the body of the payout at 1754300000 under the
secret of the labels, and tells all other messages apart. -/
def payoutHmacHex (_ message : List UInt8) : String :=
  if message = signedBytes 1754300000 (serialize paidPayout.event) then
    "23b5879116f4fe60da7b9e39cc6f2f92074082b70a5f025af8df67d59b538e64"
  else String.ofList ('x' :: message.map fun b => Char.ofNat (b.toNat + 256))

lemma payoutHmacHex_digest : Digest payoutHmacHex where
  text := by
    intro key message
    unfold payoutHmacHex
    split_ifs
    · decide
    · refine ⟨fun h => by simpa using congrArg String.toList h, ?_⟩
      rw [String.toList_ofList, List.mem_cons, List.mem_map, not_or]
      refine ⟨by decide, ?_⟩
      rintro ⟨b, -, hb⟩
      have hnat := toNat_charOfByte b
      rw [hb] at hnat
      have hcomma : ','.toNat = 44 := rfl
      omega
  injective := by
    intro key m m' h
    unfold payoutHmacHex at h
    split_ifs at h with hm hm' hm'
    · rw [hm, hm']
    · exact absurd (congrArg (fun s : String => s.toList.head?) h) (by simp)
    · exact absurd (congrArg (fun s : String => s.toList.head?) h) (by simp)
    · exact List.map_injective_iff.mpr charOfByte_injective
        (List.cons.inj (String.ofList_injective h)).2

/-- The scenario that is generated. -/
def killedScenario : Scenario where
  scenarioId := "partial_write-payout_paid-0000"
  fault := .partialWrite
  params := { Params.empty with killAfterS := some (15 / 100) }
  fixtures := [paidPayout]
  label := labelOf .partialWrite { Params.empty with killAfterS := some (15 / 100) } [paidPayout]
    { postedEventIds := {"evt_h000001"}
      rejectedEventIds := ∅
      balancesDelta := ⟨[("bank", 50594), ("stripe_balance", -50594)], by decide⟩
      invariantAfter := true
      reconcilerShouldReportBreak := false
      notes := .killed }

/-- Its plan. -/
def killedPlan : FaultPlan :=
  { acceptedPlan .partialWrite { Params.empty with killAfterS := some (15 / 100) }
      [clean payoutHmacHex paidPayout labelSecret 1754300000] {"evt_h000001"}
      ⟨[("bank", 50594), ("stripe_balance", -50594)], by decide⟩ .killed with
    killWorkerAfterS := some (15 / 100) }

/-- The steps of the pipeline until the worker dies. -/
def untilKilled : List Act :=
  [.request 0 .ok [], .request 0 .ok [], .request 0 .ok [], .take 0, .work 0 ⟨none, none, .ok⟩,
    .work 0 ⟨none, none, .ok⟩, .crash 0]

/-- The steps after the delivery was sent again: both messages are worked off. -/
def afterRestart : List Act :=
  [.request 1 .ok [], .request 1 .ok [], .request 1 .ok [], .request 1 .ok [], .take 0, .take 0,
    .work 0 ⟨none, none, .ok⟩, .work 0 ⟨none, none, .ok⟩, .work 0 ⟨none, none, .ok⟩,
      .work 0 ⟨none, none, .ok⟩,
    .work 0 ⟨none, none, .ok⟩, .work 0 ⟨none, none, .ok⟩, .work 0 ⟨none, none, .ok⟩,
    .work 0 ⟨none, none, .ok⟩]

/-- The run. -/
def killedRun : List WireAct :=
  .send 0 1754300001 :: (untilKilled.map .system ++ .send 1 1754300009 :: afterRestart.map .system)

lemma receive_killedPlan {now : ℤ} (hnow : |now - 1754300000| ≤ 300) :
    receive payoutHmacHex labelSecret now
      (clean payoutHmacHex paidPayout labelSecret 1754300000).body
      (clean payoutHmacHex paidPayout labelSecret 1754300000).sigHeader =
        .accepted paidPayout.asEvent := by
  have hmoderate : Moderate 50594 0 0 1754300000 := by constructor <;> norm_num
  have hfaithful : paidPayout.Faithful payoutUuid5 paidPayout.asEvent "po_h000001" :=
    faithful_payout (by decide) (by decide) hmoderate
  exact receive_clean payoutHmacHex_digest hfaithful (by decide) (by decide) hnow

lemma foldl_killedRun :
    killedRun.foldl (Wire.next payoutUuid5 payoutHmacHex labelSecret killedPlan)
      (Wire.start .empty []) =
      ⟨run payoutUuid5 seedChart
        (.deliver paidPayout.asEvent :: (untilKilled ++ .deliver paidPayout.asEvent ::
          afterRestart)),
        [(0, .request 0), (1, .request 1)]⟩ := by
  rw [killedRun, List.foldl_cons, Wire.next_of_accepted rfl (receive_killedPlan (by norm_num)),
    List.foldl_append, Wire.foldl_system, List.foldl_cons,
    Wire.next_of_accepted rfl (receive_killedPlan (by norm_num)), Wire.foldl_system]
  rfl

theorem chaos_harness_never_accuses_killed :
    plan payoutHmacHex killedScenario.fault killedScenario.fixtures labelSecret
        killedScenario.params 1754300000 =
        .ok killedPlan ∧
      (killedRun.foldl (Wire.next payoutUuid5 payoutHmacHex labelSecret killedPlan)
        (Wire.start .empty [])).system.ledger.transactions.length = 1 ∧
      detectBreaks killedPlan
        ((killedRun.foldl (Wire.next payoutUuid5 payoutHmacHex labelSecret killedPlan)
        (Wire.start .empty [])).observation killedScenario killedPlan .empty none) = [] := by
  obtain ⟨fp, hfp, hall⟩ := chaos_harness_never_accuses steadyRandom payoutHmacHex
    payoutHmacHex_digest payoutUuid5
    (Equiv.injective _) (fun _ => 1754300000) (fun _ => by constructor <;> norm_num) 0
      (some [.partialWrite])
    (some ["payout_paid"]) 1 1 ⟨[killedScenario], []⟩ rfl killedScenario
      (by simp) labelSecret 1754300000
    (by constructor <;> norm_num)
  obtain rfl : fp = killedPlan := Except.ok.inj (hfp.symm.trans rfl)
  have hcalm : ∀ acts : List Act, (∀ a ∈ acts, ∀ s, a.Calm s) → ∀ w,
      Guarded (Wire.next payoutUuid5 payoutHmacHex labelSecret killedPlan)
        (Wire.Allows 1754300000 killedPlan) w
        (acts.map .system) := by
    intro acts hacts w
    refine Guarded.of_forall fun a ha w => ?_
    obtain ⟨a', ha', rfl⟩ := List.mem_map.mp ha
    exact hacts a' ha' w.system
  have hwindow : ∀ {k : ℕ} {now : ℤ} {d : Delivery}, killedPlan.sends[k]? = some d →
      1754300000 ≤ now →
      now ≤ 1754300300 → d.InWindow 1754300000 now := by
    intro k now d hd hlow hhigh
    obtain rfl := List.eq_of_mem_replicate (n := 2) (List.mem_of_getElem? hd)
    refine ⟨hlow, ?_⟩
    have : ((now - 1754300000 : ℤ) : ℚ) ≤ ((300 : ℤ) : ℚ) := Int.cast_le.mpr (by omega)
    simpa [defaultToleranceSeconds, clean] using this
  refine ⟨hfp, by rw [foldl_killedRun]; rfl,
    hall .empty [] (Ledger.empty_admitted _) .nil ?_ killedRun ?_ ?_ none (by simp)⟩
  · exact ⟨by simp [Ledger.empty], by simp, by simp [Ledger.empty]⟩
  · refine ⟨⟨rfl, fun d hd => hwindow hd (by norm_num) (by norm_num), fun _ j hj =>
      absurd hj (Nat.not_lt_zero j)⟩,
        Guarded.append_iff.mpr ⟨hcalm untilKilled (by simp [untilKilled, Act.Calm]) _, ?_, ?_⟩⟩
    · rw [Wire.next_of_accepted rfl (receive_killedPlan (by norm_num)), Wire.foldl_system]
      refine ⟨rfl, fun d hd => hwindow hd (by norm_num) (by norm_num), fun _ j hj => ?_⟩
      obtain rfl : j = 0 := by omega
      rfl
    · exact hcalm afterRestart (by simp [afterRestart, Act.Calm]) _
  · rw [foldl_killedRun]
    refine ⟨fun k hk => ?_, rfl⟩
    have hlength : killedPlan.sends.length = 2 := rfl
    rw [hlength] at hk
    interval_cases k <;> rfl

end LedgerProof.Harness
