import LedgerProof.Harness.Scenarios
import LedgerProof.Recon.Expected

/-!
# The scenario runner

`harness/runner.py`: `run_scenario` reads an `Observation` off the system, and `detect_breaks` holds
it against the plan's `Expectation`.

A break keeps the values that its detail shows.  The texts of the two reasons for a bad delivery,
which are joined into one detail, are kept as they are.
-/

namespace LedgerProof.Harness

/-! ## Observations -/

/-- What is used of a `DeliveryResult`: no status code means that there was no response. -/
structure DeliveryResult where
  eventId : String
  statusCode : Option ℕ
  body : String
  deriving DecidableEq, Repr

/-- `{event_id}: expected refusal by {reason!r}, got HTTP {status_code} {body!r}`. -/
structure WrongReason where
  eventId : String
  reason : String
  statusCode : ℕ
  body : String
  deriving DecidableEq, Repr

/-- What the system actually did. -/
structure Observation where
  ledgerDiff : Dict String ℤ
  invariantAfter : Bool
  posted : List String
  transactions : ℕ
  quiescent : Bool
  acceptedRejected : List String
  wrongRejectionReason : List WrongReason
  reconReportedBreak : Bool
  ingestResponsive : Option Bool

/-! ## Breaks -/

/-- A break of the runner. -/
inductive ChaosBreak
  | invariantViolation
  | ledgerDiffMismatch (expected observed : Dict String ℤ)
  | acceptedBadDelivery (eventId : String) (reasons : List String)
  | wrongRejectionReason (detail : WrongReason)
  | lostEvent (eventId : String)
  | doublePost (transactions expected : ℕ) (posted : List String)
  | notQuiescent
  | reconcilerMissedDrop
  | ingestUnresponsive

/-- The ids that `bad` gets a list of reasons for. -/
def badIds (exp : Expectation) (obs : Observation) : Finset String :=
  exp.rejectedEventIds ∩ obs.posted.toFinset ∪ obs.acceptedRejected.toFinset

/-- `bad[event_id]`. -/
def badReasons (exp : Expectation) (obs : Observation) (eventId : String) : List String :=
  (if eventId ∈ exp.rejectedEventIds ∩ obs.posted.toFinset then ["it produced a ledger transaction"]
    else []) ++
    (obs.acceptedRejected.filter (· = eventId)).map fun _ => "ingest answered 2xx"

/-- Bad deliveries that were accepted, in the order of their ids. -/
def acceptedBad (exp : Expectation) (obs : Observation) : List ChaosBreak :=
  (badIds exp obs).sort.map fun id => .acceptedBadDelivery id (badReasons exp obs id)

/-- Events that were to be posted and were not, in the order of their ids. -/
def lostEvents (exp : Expectation) (obs : Observation) : List ChaosBreak :=
  (exp.postedEventIds \ obs.posted.toFinset).sort.map .lostEvent

/-- `detect_breaks`. -/
def detectBreaks (faultPlan : FaultPlan) (obs : Observation) : List ChaosBreak :=
  let exp := faultPlan.expectation
  (if obs.invariantAfter then [] else [.invariantViolation]) ++
  (if obs.ledgerDiff.same exp.balancesDelta then []
    else [.ledgerDiffMismatch exp.balancesDelta obs.ledgerDiff]) ++
  acceptedBad exp obs ++
  obs.wrongRejectionReason.map .wrongRejectionReason ++
  lostEvents exp obs ++
  (if exp.postedEventIds.card < obs.transactions then
    [.doublePost obs.transactions exp.postedEventIds.card obs.posted] else []) ++
  (if obs.quiescent then [] else [.notQuiescent]) ++
  (if exp.reconcilerShouldReportBreak && !obs.reconReportedBreak then [.reconcilerMissedDrop]
    else []) ++
  (if obs.ingestResponsive = some false then [.ingestUnresponsive] else [])

/-- **Silence means that the observation meets the expectation in every respect.** -/
lemma detectBreaks_eq_nil_iff {faultPlan : FaultPlan} {obs : Observation} :
    detectBreaks faultPlan obs = [] ↔
      obs.invariantAfter = true ∧
      (∀ name, obs.ledgerDiff.get? name = faultPlan.expectation.balancesDelta.get? name) ∧
      (∀ id ∈ obs.posted, id ∉ faultPlan.expectation.rejectedEventIds) ∧
      obs.acceptedRejected = [] ∧ obs.wrongRejectionReason = [] ∧
      (∀ id ∈ faultPlan.expectation.postedEventIds, id ∈ obs.posted) ∧
      obs.transactions ≤ faultPlan.expectation.postedEventIds.card ∧ obs.quiescent = true ∧
      (faultPlan.expectation.reconcilerShouldReportBreak = true → obs.reconReportedBreak = true) ∧
      obs.ingestResponsive ≠ some false := by
  have hbad : badIds faultPlan.expectation obs = ∅ ↔
      (∀ id ∈ obs.posted, id ∉ faultPlan.expectation.rejectedEventIds) ∧
        obs.acceptedRejected = [] := by
    rw [badIds, Finset.union_eq_empty, List.toFinset_eq_empty_iff,
      Finset.eq_empty_iff_forall_notMem]
    refine and_congr_left fun _ => forall_congr' fun id => ?_
    rw [Finset.mem_inter, List.mem_toFinset]
    tauto
  have hsort : ∀ s : Finset String, s.sort = [] ↔ s = ∅ := fun s => by
    rw [← List.length_eq_zero_iff, Finset.length_sort, Finset.card_eq_zero]
  simp only [detectBreaks, acceptedBad, lostEvents, List.append_eq_nil_iff, List.map_eq_nil_iff,
    hsort, hbad, ite_eq_left_iff, ite_eq_right_iff, Finset.sdiff_eq_empty_iff_subset, imp_false,
    Finset.subset_iff, List.mem_toFinset, Dict.same_iff, Bool.and_eq_true, Bool.not_eq_true',
    List.cons_ne_nil, not_lt, and_assoc, not_and, Bool.not_eq_false, not_not, ne_eq]

/-! ## Reading the system -/

/-- `all_balances`. -/
def allBalances (chart : Chart) (L : Ledger) : Dict String ℤ :=
  ⟨chart.accounts.map fun a => (a.name, L.balanceMinor a), by
    rw [List.map_map]
    exact chart.name_nodup⟩

/-- `_diff`. -/
def balanceDiff (before after : Dict String ℤ) : Dict String ℤ :=
  Dict.filter (· ≠ 0)
    ⟨(diffAccounts before after).map fun name => (name, after.getD name 0 - before.getD name 0), by
      rw [List.map_map]
      simpa [Function.comp_def, diffAccounts] using
        (List.perm_insertionSort _ _).nodup_iff.mpr (List.nodup_dedup _)⟩

/-- `_posted_rows`. -/
def postedRows (L : Ledger) (eventIds : List String) : List String :=
  (L.transactions.filterMap (·.stripeEventId)).filter (· ∈ eventIds)

/-- `Stack.pending_events`. -/
def pendingEvents (log : EventLog) (eventIds : List String) : ℕ :=
  (log.filter fun r => (r.status = .received ∨ r.status = .queued) ∧ r.id ∈ eventIds).length

/-- The candidates: the ids of the fixtures and of the deliveries. -/
def candidates (scenario : Scenario) (faultPlan : FaultPlan) : List String :=
  firsts id [] (scenario.fixtures.map (·.eventId) ++ faultPlan.deliveries.map (·.eventId))

/-- `200 <= result.status_code < 300` for a delivery that was to be refused. -/
def acceptedRejected (deliveries : List Delivery) (results : List DeliveryResult) : List String :=
  firsts id [] <| (deliveries.zip results).filterMap fun (delivery, result) =>
    match result.statusCode with
    | some code =>
        if delivery.expectRejected ∧ 200 ≤ code ∧ code < 300 then some delivery.eventId else none
    | none => none

/-- `text in body`. -/
def isInfix (text body : String) : Bool := text.toList <:+: body.toList

/-- Refusals for another reason than the expected one. -/
def wrongReasons (deliveries : List Delivery) (results : List DeliveryResult) : List WrongReason :=
  firsts id [] <| (deliveries.zip results).filterMap fun (delivery, result) =>
    match delivery.expectRejectionReason, result.statusCode with
    | some reason, some code =>
        if 400 ≤ code ∧ code < 500 ∧ !isInfix reason result.body then
          some ⟨delivery.eventId, reason, code, String.ofList (result.body.toList.take 120)⟩
        else none
    | _, _ => none

/-- `run_scenario`, from the results of the proxy on: what it makes of the ledger before and after,
the event log, the length of the queue and the health probe. -/
def observe (chart : Chart) (scenario : Scenario) (faultPlan : FaultPlan) (before after : Ledger)
    (log : EventLog) (results : List DeliveryResult) (queueLen : ℕ) (responsive : Option Bool) :
    Observation :=
  let ids := candidates scenario faultPlan
  let rows := postedRows after ids
  let expected := scenario.fixtures.map fun fx => (⟨fx.eventId, fx.expectedDelta⟩ : ExpectedEvent)
  { ledgerDiff := balanceDiff (allBalances chart before) (allBalances chart after)
    invariantAfter := (check chart after).ok
    posted := rows.toFinset.sort
    transactions := rows.length
    quiescent := queueLen = 0 ∧ pendingEvents log (scenario.fixtures.map (·.eventId)) = 0
    acceptedRejected := acceptedRejected faultPlan.deliveries results
    wrongRejectionReason := wrongReasons faultPlan.deliveries results
    reconReportedBreak :=
      faultPlan.expectation.reconcilerShouldReportBreak &&
        (reconcileExpected chart after expected usd).breaks.any fun b =>
          b.kind = .missingInLedger && b.eventId.any (· ∈ ids)
    ingestResponsive := if faultPlan.deliveries.any (0 < ·.slowLorisS) then responsive else none }

/-! ## What the readings come to -/

section

variable {chart : Chart} {L L' : Ledger} {ids : List String}

lemma getD_allBalances {a : Account} (ha : a ∈ chart.accounts) :
    (allBalances chart L).getD a.name 0 = L.balanceMinor a := by
  have hmem : (a.name, L.balanceMinor a) ∈ (allBalances chart L).items :=
    List.mem_map.mpr ⟨a, ha, rfl⟩
  rw [Dict.getD, Dict.mem_items_iff.mp hmem]
  rfl

lemma keys_allBalances : (allBalances chart L).keys = chart.accounts.map (·.name) := by
  simp [allBalances, Dict.keys, Function.comp_def]

/-- **A change that is read off is the difference of the two balances**, where it is not zero. -/
lemma get?_balanceDiff (before after : Dict String ℤ) (name : String) :
    (balanceDiff before after).get? name =
      if after.getD name 0 - before.getD name 0 = 0 then none
      else some (after.getD name 0 - before.getD name 0) := by
  have hmem : ∀ v, (name, v) ∈ (balanceDiff before after).items ↔
      (name ∈ before.keys ∨ name ∈ after.keys) ∧ v = after.getD name 0 - before.getD name 0 ∧
        v ≠ 0 := by
    intro v
    simp only [balanceDiff, Dict.filter, List.mem_filter, List.mem_map, diffAccounts,
      List.mem_insertionSort, List.mem_dedup, List.mem_append, Prod.mk.injEq, decide_eq_true_eq]
    constructor
    · rintro ⟨⟨name, hname, rfl, rfl⟩, hne⟩
      exact ⟨hname, rfl, hne⟩
    · rintro ⟨hname, rfl, hne⟩
      exact ⟨⟨name, hname, rfl, rfl⟩, hne⟩
  refine Option.ext fun v => ?_
  rw [← Dict.mem_items_iff, hmem]
  split_ifs with hzero
  · simp only [hzero, iff_false]
    rintro ⟨-, rfl, hne⟩
    exact hne rfl
  · rw [Option.some_inj]
    constructor
    · rintro ⟨-, rfl, -⟩
      rfl
    · rintro rfl
      refine ⟨?_, rfl, hzero⟩
      by_contra hnot
      rw [not_or] at hnot
      rw [Dict.getD_eq_of_not_mem hnot.1, Dict.getD_eq_of_not_mem hnot.2] at hzero
      exact hzero rfl

lemma pendingEvents_eq_zero_iff {log : EventLog} :
    pendingEvents log ids = 0 ↔ ∀ r ∈ log, r.id ∈ ids → r.status.terminal = true := by
  rw [pendingEvents, List.length_eq_zero_iff, List.filter_eq_nil_iff]
  refine forall₂_congr fun r _ => ?_
  rw [decide_eq_true_eq]
  cases r.status <;> simp [Status.terminal]

end

end LedgerProof.Harness
