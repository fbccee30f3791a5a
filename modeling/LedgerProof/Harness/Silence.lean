import LedgerProof.Harness.Flags

/-!
# When the runner is silent

`detect_breaks` finds a lost event by a set difference and a double posting by a count.  Neither
sees a row that is there instead of another one, and together they do: as many rows as expected
events, with every expected event among them, are these events once each (`perm_sort_iff`).
-/

namespace LedgerProof.Harness

/-- What `run_scenario` finds after a run, as it reads it. -/
structure Outcome where
  /-- The event ids of the transactions of the candidates. -/
  rows : List String
  ledgerDiff : Dict String ℤ
  invariantAfter : Bool
  results : List DeliveryResult
  quiescent : Bool
  reconReportedBreak : Bool
  ingestResponsive : Option Bool

/-- The `Observation` that it makes of this. -/
def Outcome.observation (o : Outcome) (faultPlan : FaultPlan) : Observation where
  ledgerDiff := o.ledgerDiff
  invariantAfter := o.invariantAfter
  posted := o.rows.toFinset.sort
  transactions := o.rows.length
  quiescent := o.quiescent
  acceptedRejected := acceptedRejected faultPlan.deliveries o.results
  wrongRejectionReason := wrongReasons faultPlan.deliveries o.results
  reconReportedBreak := o.reconReportedBreak
  ingestResponsive := o.ingestResponsive

lemma observe_eq (chart : Chart) (scenario : Scenario) (faultPlan : FaultPlan)
    (before after : Ledger) (log : EventLog) (results : List DeliveryResult) (queueLen : ℕ)
    (responsive : Option Bool) :
    ∃ o : Outcome, o.rows = postedRows after (candidates scenario faultPlan) ∧ o.results = results ∧
      observe chart scenario faultPlan before after log results queueLen responsive =
        o.observation faultPlan :=
  let obs := observe chart scenario faultPlan before after log results queueLen responsive
  ⟨⟨_, obs.ledgerDiff, obs.invariantAfter, results, obs.quiescent, obs.reconReportedBreak,
    obs.ingestResponsive⟩, rfl, rfl, rfl⟩

/-- A delivery of this event was answered 2xx. -/
def Answered2xx (deliveries : List Delivery) (results : List DeliveryResult) (id : String) : Prop :=
  ∃ p ∈ deliveries.zip results, p.1.eventId = id ∧ ∃ code, p.2.statusCode = some code ∧ 200 ≤ code ∧
    code < 300

section

variable {deliveries : List Delivery} {results : List DeliveryResult} {rows : List String}
  {expected : Finset String}
  {fp : FaultPlan}

/-- **Loss by a set, duplication by a count**: together they are exact. -/
lemma perm_sort_iff :
    rows.Perm expected.sort ↔ (∀ id ∈ expected, id ∈ rows) ∧ rows.length ≤ expected.card := by
  constructor
  · intro h
    refine ⟨fun id hid => h.mem_iff.mpr ((Finset.mem_sort _).mpr hid), ?_⟩
    rw [h.length_eq, Finset.length_sort]
  · rintro ⟨hmem, hlength⟩
    have hsub : expected.sort.Subperm rows :=
      (expected.sort_nodup _).subperm fun id hid => hmem id ((Finset.mem_sort _).mp hid)
    refine (hsub.perm_of_length_le ?_).symm
    rwa [Finset.length_sort]

lemma mem_acceptedRejected {eventId : String} :
    eventId ∈ acceptedRejected deliveries results ↔
      ∃ p ∈ deliveries.zip results, p.1.expectRejected = true ∧ p.1.eventId = eventId ∧
        ∃ code, p.2.statusCode = some code ∧ 200 ≤ code ∧ code < 300 := by
  have hfirsts : ∀ l : List String, eventId ∈ firsts id [] l ↔ eventId ∈ l := fun l => by
    have h := @mem_map_firsts String String _ id l eventId
    rwa [List.map_id, List.map_id] at h
  rw [acceptedRejected, hfirsts, List.mem_filterMap]
  apply exists_congr
  rintro ⟨d, r⟩
  apply and_congr_right
  intro _
  cases hcode : r.statusCode with
  | none => simp [hcode]
  | some code =>
      simp only [hcode, Option.some.injEq, exists_eq_left']
      split_ifs with h
      · simp [h]
      · simp only [false_iff]
        rintro ⟨hflag, -, hlow, hhigh⟩
        exact h ⟨hflag, hlow, hhigh⟩

/-- Where the flags are those of the rejected ids, what was accepted is one of these, answered
2xx. -/
lemma acceptedRejected_eq_nil_iff (hflagged : fp.Flagged) :
    acceptedRejected fp.deliveries results = [] ↔
      ∀ id ∈ fp.expectation.rejectedEventIds, ¬ Answered2xx fp.deliveries results id := by
  rw [List.eq_nil_iff_forall_not_mem]
  constructor
  · rintro hnone id hid ⟨p, hp, rfl, hanswer⟩
    have hflag := (hflagged.flag_iff (List.of_mem_zip hp).1).mpr hid
    exact hnone _ (mem_acceptedRejected.mpr ⟨p, hp, hflag, rfl, hanswer⟩)
  · intro hnone id hid
    obtain ⟨p, hp, hflag, rfl, hanswer⟩ := mem_acceptedRejected.mp hid
    exact hnone _ ((hflagged.flag_iff (List.of_mem_zip hp).1).mp hflag) ⟨p, hp, rfl, hanswer⟩

/-- **Silence, for a plan whose flags are those of its rejected ids.** -/
lemma detectBreaks_observation_eq_nil_iff (hflagged : fp.Flagged) (o : Outcome) :
    detectBreaks fp (o.observation fp) = [] ↔
      o.rows.Perm fp.expectation.postedEventIds.sort ∧
        (∀ name, o.ledgerDiff.get? name = fp.expectation.balancesDelta.get? name) ∧
        o.invariantAfter = true ∧
        (∀ id ∈ fp.expectation.rejectedEventIds, id ∉ o.rows ∧
          ¬ Answered2xx fp.deliveries o.results id) ∧
        wrongReasons fp.deliveries o.results = [] ∧ o.quiescent = true ∧
        (fp.expectation.reconcilerShouldReportBreak = true → o.reconReportedBreak = true) ∧
        o.ingestResponsive ≠ some false := by
  have hrows : ∀ id, id ∈ (o.observation fp).posted ↔ id ∈ o.rows := fun id => by
    rw [Outcome.observation, Finset.mem_sort, List.mem_toFinset]
  have hapart : (∀ id ∈ fp.expectation.rejectedEventIds, id ∉ o.rows) ↔
      ∀ id ∈ o.rows, id ∉ fp.expectation.rejectedEventIds :=
    ⟨fun h id hid hrej => h id hrej hid, fun h id hrej hid => h id hid hrej⟩
  rw [detectBreaks_eq_nil_iff, perm_sort_iff, forall₂_and, ← acceptedRejected_eq_nil_iff hflagged,
    hapart]
  simp only [hrows]
  simp only [Outcome.observation]
  tauto

end

/-- **Silence means the right outcome.**  The runner finds no break exactly when the transactions
are those of the expected events, once each and no others, and everything else is as it should be.
In particular it is never silent about an expected event that is lost or posted more than once,
whatever was posted in its place, nor about a transaction of another event. -/
theorem detectBreaks_silent_iff (hmacHex : List UInt8 → List UInt8 → String) (fault : Fault)
    (fixtures : List EventFixture) (secret : String) (params : Params) (now : ℤ) (fp : FaultPlan)
    (hplan : plan hmacHex fault fixtures secret params now = .ok fp) (o : Outcome) :
    (detectBreaks fp (o.observation fp) = [] ↔
      o.rows.Perm fp.expectation.postedEventIds.sort ∧
        (∀ name, o.ledgerDiff.get? name = fp.expectation.balancesDelta.get? name) ∧
        o.invariantAfter = true ∧
        (∀ id ∈ fp.expectation.rejectedEventIds, id ∉ o.rows ∧
          ¬ Answered2xx fp.deliveries o.results id) ∧
        wrongReasons fp.deliveries o.results = [] ∧ o.quiescent = true ∧
        (fp.expectation.reconcilerShouldReportBreak = true → o.reconReportedBreak = true) ∧
        o.ingestResponsive ≠ some false) ∧
      (∀ id ∈ fp.expectation.postedEventIds, o.rows.count id ≠ 1 →
        detectBreaks fp (o.observation fp) ≠ []) ∧
      ∀ id ∈ o.rows, id ∉ fp.expectation.postedEventIds →
        detectBreaks fp (o.observation fp) ≠ [] := by
  have hsilent := detectBreaks_observation_eq_nil_iff (plan_flagsAre hplan).1 o
  refine ⟨hsilent, fun id hid hcount hnil => ?_, fun id hid hout hnil => ?_⟩
  · have hperm := (hsilent.mp hnil).1
    apply hcount
    rw [hperm.count_eq]
    exact List.count_eq_one_of_mem (Finset.sort_nodup _ _) ((Finset.mem_sort _).mpr hid)
  · have hperm := (hsilent.mp hnil).1
    exact hout ((Finset.mem_sort _).mp (hperm.mem_iff.mp hid))

/-- The payout was posted once, and its sender got a 200 before and after the kill. -/
def paidOutcome : Outcome where
  rows := ["evt_h000001"]
  ledgerDiff := ⟨[("stripe_balance", -50594), ("bank", 50594)], by decide⟩
  invariantAfter := true
  results := [⟨"evt_h000001", some 200, "\x7b\"status\":\"queued\"\x7d"⟩,
    ⟨"evt_h000001", some 200, "\x7b\"status\":\"duplicate\"\x7d"⟩]
  quiescent := true
  reconReportedBreak := false
  ingestResponsive := none

theorem detectBreaks_silent_iff_paid :
    detectBreaks killedPlan (paidOutcome.observation killedPlan) = [] := by
  refine (detectBreaks_silent_iff payoutHmacHex .partialWrite [paidPayout] labelSecret
    { Params.empty with killAfterS := some (15 / 100) } 1754300000 killedPlan rfl
    paidOutcome).1.mpr ?_
  refine ⟨perm_sort_iff.mpr ⟨fun id hid => ?_, le_rfl⟩, fun name => ?_, rfl, fun id hid => ?_, rfl,
    rfl,
    fun hreport => ?_, by simp [paidOutcome]⟩
  · rw [Finset.mem_singleton.mp hid]
    exact List.mem_singleton_self _
  · have hsame : paidOutcome.ledgerDiff.same killedPlan.expectation.balancesDelta = true := by
      decide
    exact (Dict.same_iff _ _).mp hsame name
  · exact absurd hid (Finset.notMem_empty id)
  · cases hreport

end LedgerProof.Harness
