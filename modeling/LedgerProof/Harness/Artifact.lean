import LedgerProof.Harness.Flags
import LedgerProof.Harness.Replan
import LedgerProof.Lib.PyRepr

/-!
# The record of a scenario

`harness/runner.py` from the other end: `run_scenario` writes down what it judged, and
`observation_from_record` reads the observation off the record again, so that a break can be derived
from the file alone (`verdicts_reproducible`).

A record is a dictionary with any values of JSON in the fields that no verdict reads (`Extras`), and
the parameters of a scenario are the dictionary that they are, of which `plan` reads what `paramsOf`
says.  The texts of the breaks are written out here (`ChaosBreak.shown`).  `repr` of a text and
`float` of a value are arguments: no result depends on what they give.
-/

namespace LedgerProof.Harness

open PyJson

/-! ## Breaks in words -/

/-- What `_break` returns. -/
structure ShownBreak where
  kind : String
  detail : String
  deriving DecidableEq, Repr

/-- An observation as it is recorded: with the texts of the wrong reasons. -/
structure Observed where
  ledgerDiff : Dict String ℤ
  invariantAfter : Bool
  posted : List String
  transactions : ℕ
  quiescent : Bool
  acceptedRejected : List String
  wrongRejectionReason : List String
  reconReportedBreak : Bool
  ingestResponsive : Option Bool

/-- `f"{n:+d}"`. -/
def signedDecimal (n : ℤ) : String := (if n < 0 then "" else "+") ++ String.ofList (decimal n)

/-- `_fmt`. -/
def fmt (delta : Dict String ℤ) : String :=
  "\x7b" ++ ", ".intercalate ((delta.items.insertionSort fun p q => p.1 ≤ q.1).map fun p =>
    p.1 ++ "=" ++ signedDecimal p.2) ++ "\x7d"

section

variable (reprText : String → String)

/-- A wrong reason, in words. -/
def WrongReason.text (w : WrongReason) : String :=
  w.eventId ++ ": expected refusal by " ++ reprText w.reason ++ ", got HTTP " ++
    String.ofList (natDecimal w.statusCode) ++ " " ++ reprText w.body

/-- An observation in words. -/
def Observation.shown (obs : Observation) : Observed where
  ledgerDiff := obs.ledgerDiff
  invariantAfter := obs.invariantAfter
  posted := obs.posted
  transactions := obs.transactions
  quiescent := obs.quiescent
  acceptedRejected := obs.acceptedRejected
  wrongRejectionReason := obs.wrongRejectionReason.map (WrongReason.text reprText)
  reconReportedBreak := obs.reconReportedBreak
  ingestResponsive := obs.ingestResponsive

/-- A break in words. -/
def ChaosBreak.shown : ChaosBreak → ShownBreak
  | .invariantViolation =>
      ⟨"INVARIANT_VIOLATION", "money conservation broke: the ledger created or destroyed money"⟩
  | .ledgerDiffMismatch expected observed =>
      ⟨"LEDGER_DIFF_MISMATCH", "expected " ++ fmt expected ++ ", observed " ++ fmt observed⟩
  | .acceptedBadDelivery eventId reasons =>
      ⟨"ACCEPTED_BAD_DELIVERY",
        eventId ++ " should have been refused but " ++ " and ".intercalate reasons⟩
  | .wrongRejectionReason detail => ⟨"WRONG_REJECTION_REASON", detail.text reprText⟩
  | .lostEvent eventId =>
      ⟨"LOST_EVENT", eventId ++ " should have posted exactly one transaction, found none"⟩
  | .doublePost transactions expected posted =>
      ⟨"DOUBLE_POST", String.ofList (natDecimal transactions) ++ " transactions for " ++
        String.ofList (natDecimal expected) ++ " expected posting(s): [" ++
        ", ".intercalate (posted.map reprText) ++ "]"⟩
  | .notQuiescent =>
      ⟨"NOT_QUIESCENT", "the queue or the event log never drained: work is stuck in flight"⟩
  | .reconcilerMissedDrop =>
      ⟨"RECONCILER_MISSED_DROP",
        "the ledger looks healthy and the reconciler reported no break for the " ++
        "undelivered event — the one failure only reconciliation can catch"⟩
  | .ingestUnresponsive =>
      ⟨"INGEST_UNRESPONSIVE",
        "ingest stopped answering /healthz while a body was still on the wire"⟩

/-- `detect_breaks`, on an observation in words. -/
def detectBreaksShown (faultPlan : FaultPlan) (obs : Observed) : List ShownBreak :=
  let exp := faultPlan.expectation
  let posted := exp.rejectedEventIds ∩ obs.posted.toFinset
  let reasons (id : String) : List String :=
    (if id ∈ posted then ["it produced a ledger transaction"] else []) ++
      (obs.acceptedRejected.filter (· = id)).map fun _ => "ingest answered 2xx"
  (if obs.invariantAfter then [] else [ChaosBreak.shown reprText .invariantViolation]) ++
  (if obs.ledgerDiff.same exp.balancesDelta then []
    else [ChaosBreak.shown reprText (.ledgerDiffMismatch exp.balancesDelta obs.ledgerDiff)]) ++
  ((posted ∪ obs.acceptedRejected.toFinset).sort.map fun id =>
    ChaosBreak.shown reprText (.acceptedBadDelivery id (reasons id))) ++
  obs.wrongRejectionReason.map (ShownBreak.mk "WRONG_REJECTION_REASON") ++
  ((exp.postedEventIds \ obs.posted.toFinset).sort.map fun id =>
    ChaosBreak.shown reprText (.lostEvent id)) ++
  (if exp.postedEventIds.card < obs.transactions then
    [ChaosBreak.shown reprText (.doublePost obs.transactions exp.postedEventIds.card obs.posted)]
      else []) ++
  (if obs.quiescent then [] else [ChaosBreak.shown reprText .notQuiescent]) ++
  (if exp.reconcilerShouldReportBreak && !obs.reconReportedBreak then
    [ChaosBreak.shown reprText .reconcilerMissedDrop] else []) ++
  (if obs.ingestResponsive = some false then [ChaosBreak.shown reprText .ingestUnresponsive]
    else [])

/-- **Both readings of `detect_breaks` agree.** -/
lemma detectBreaksShown_shown (faultPlan : FaultPlan) (obs : Observation) :
    detectBreaksShown reprText faultPlan (obs.shown reprText) =
      (detectBreaks faultPlan obs).map (ChaosBreak.shown reprText) := by
  have hif : ∀ (b : Prop) [Decidable b] (x y : List ChaosBreak),
      (if b then x else y).map (ChaosBreak.shown reprText) =
        if b then x.map (ChaosBreak.shown reprText) else y.map (ChaosBreak.shown reprText) := by
    intro b _ x y
    split_ifs <;> rfl
  simp only [detectBreaks, acceptedBad, lostEvents, List.map_append, hif, List.map_map]
  simp only [detectBreaksShown, Observation.shown, List.map_map]
  rfl

lemma detectBreaksShown_congr {fp fp' : FaultPlan} (h : fp'.expectation = fp.expectation)
    (obs : Observed) :
    detectBreaksShown reprText fp' obs = detectBreaksShown reprText fp obs := by
  unfold detectBreaksShown
  rw [h]

end

/-! ## Values -/

/-- A value that JSON has a text for. -/
def JsonValue : Type := {v : PyValue // Loaded IsFloat v}

/-- A dictionary that JSON has a text for. -/
def JsonDict : Type := {fields : List (PyStr × PyValue) // Loaded IsFloat (.dict fields)}

/-- A text as a value. -/
def text (s : String) : PyValue := .str (pyStr s)

/-- Texts as a value. -/
def texts (ss : List String) : PyValue := .list (ss.map text)

/-- Changes of accounts as a value. -/
def changes (d : Dict String ℤ) : PyValue := .dict (d.items.map fun p => (pyStr p.1, .int p.2))

/-- A dictionary with the keys of the source. -/
def dictOf (fields : List (String × PyValue)) :
    List (PyStr × PyValue) := fields.map fun p => (pyStr p.1, p.2)

/-- `record.get(key)`. -/
def field (record : List (PyStr × PyValue)) (key : String) :
    Option PyValue := record.lookup (pyStr key)

/-- `bool(v)`. -/
def truth : PyValue → Bool
  | .none => false
  | .bool b => b
  | .int n => n ≠ 0
  | .float bits => unsignedBits bits ≠ 0
  | .str s => s ≠ []
  | .list items => !items.isEmpty
  | .dict fields => !fields.isEmpty

/-- The value, if it is a text of characters. -/
def asText : PyValue → Option String
  | .str s => if ∀ n ∈ s, n.isValidChar then some (String.ofList (s.map Char.ofNat)) else none
  | _ => none

/-- The items, if they are texts. -/
def asTexts : PyValue → Option (List String)
  | .list items => items.mapM asText
  | _ => none

/-- `int(v)`: a float is cut off at its point. -/
def asInt : PyValue → Option ℤ
  | .int n => some n
  | .bool b => some (if b then 1 else 0)
  | .float bits =>
      if isFinite bits then
        let n : ℤ := ⌊floatMagnitude (unsignedBits bits)⌋₊
        some (if bits.msb then -n else n)
      else none
  | .str s => (asText (.str s)).bind intOfText
  | _ => none

/-- The fields, if it is a dictionary. -/
def asFields : PyValue → Option (List (PyStr × PyValue))
  | .dict fields => some fields
  | _ => none

/-- `{k: int(v) for k, v in fields}`. -/
def asChanges (fields : List (PyStr × PyValue)) : Option (Dict String ℤ) := do
  let pairs ← fields.mapM fun p => do
    let key ← asText (.str p.1)
    let value ← asInt p.2
    return (key, value)
  return pairs.foldl (fun d p => d.set p.1 p.2) Dict.empty

lemma asText_text (s : String) : asText (text s) = some s := by
  have hvalid : ∀ n ∈ pyStr s, n.isValidChar := by
    intro n hn
    obtain ⟨c, -, rfl⟩ := List.mem_map.mp hn
    exact c.valid
  have hchars : (pyStr s).map Char.ofNat = s.toList := by
    rw [pyStr, List.map_map]
    exact List.map_id'' Char.ofNat_toNat _
  rw [text, asText, if_pos hvalid, hchars, String.ofList_toList]

lemma mapM_map {α β : Type} {write : α → β} {read : β → Option α} (h : ∀ x, read (write x) = some x)
    (xs : List α) :
    (xs.map write).mapM read = some xs := by
  induction xs with
  | nil => rfl
  | cons x xs ih =>
      rw [List.map_cons, List.mapM_cons, h, ih]
      rfl

lemma asTexts_texts (ss : List String) : asTexts (texts ss) = some ss := mapM_map asText_text ss

lemma asChanges_changes (d : Dict String ℤ) : (asFields (changes d)).bind asChanges = some d := by
  have hpair : ∀ p : String × ℤ, (do
      let key ← asText (.str (pyStr p.1))
      let value ← asInt (.int p.2)
      return (key, value)) = some p := by
    intro p
    rw [show asText (.str (pyStr p.1)) = some p.1 from asText_text p.1]
    rfl
  rw [changes, asFields, Option.bind_some, asChanges, mapM_map hpair]
  exact congrArg some (Dict.ext (Dict.foldl_set_items d.nodup))

/-! ## The record -/

/-- What no verdict reads. -/
structure Extras where
  durationMs : JsonValue
  deliveries : JsonValue
  eventLog : JsonValue
  label : JsonValue
  startedAt : JsonValue
  killedWithTaskInFlight : JsonValue
  invariantDetail : JsonValue
  error : JsonValue
  reconChecked : JsonValue
  reconInvariantOk : JsonValue
  reconBreaks : JsonValue

/-- What `plan` reads of a dictionary of parameters, with `float(v)`.  Where the source raises on a
value, there is no record to speak of, and the value is none here. -/
def paramsOf (float : PyValue → Option ℚ) (fields : List (PyStr × PyValue)) : Params where
  n := (field fields "n").bind asInt
  order := (field fields "order").bind asText
  seconds := (field fields "seconds").bind float
  pastTolerance := (field fields "past_tolerance").map truth
  ageS := (field fields "age_s").bind asInt
  killAfterS := (field fields "kill_after_s").bind float
  holdS := (field fields "hold_s").bind float
  twinEventId := (field fields "twin_event_id").bind asText
  droppedEventIds := (field fields "dropped_event_ids").bind asTexts
  byteIndex := ((field fields "byte_index").bind asInt).map Int.toNat
  keptBytes := ((field fields "kept_bytes").bind asInt).map Int.toNat

/-- A scenario with its parameters as the dictionary that they are. -/
structure DictScenario (float : PyValue → Option ℚ) extends Scenario where
  dict : JsonDict
  params_eq : params = paramsOf float dict.1

/-- What the runner reads off the system. -/
structure Readings where
  before : Ledger
  after : Ledger
  log : EventLog
  results : List DeliveryResult
  queueLen : ℕ
  responsive : Option Bool

/-- A break as a value. -/
def ShownBreak.value (b : ShownBreak) :
    PyValue := .dict (dictOf [("kind", text b.kind), ("detail", text b.detail)])

/-- `None`, or a value. -/
def ofOption {α : Type} (value : α → PyValue) : Option α → PyValue
  | some a => value a
  | none => .none

section

variable (reprText : String → String) {float : PyValue → Option ℚ}

/-- The fields of a record. -/
def recordFields (scenario : DictScenario float) (faultPlan : FaultPlan) (invariantBefore : Bool)
    (obs : Observed) (x : Extras) : List (String × PyValue) :=
  let exp := faultPlan.expectation
  let kills := faultPlan.killWorkerAfterS.isSome
  [("scenario_id", text scenario.scenarioId),
   ("fault", text (upper scenario.fault.lower)),
   ("params", .dict scenario.dict.1),
   ("events", texts (scenario.fixtures.map (·.eventId))),
   ("invariant_before", .bool invariantBefore),
   ("invariant_after", .bool obs.invariantAfter),
   ("ledger_diff", changes obs.ledgerDiff),
   ("duration_ms", x.durationMs.1),
   ("deliveries", x.deliveries.1),
   ("event_log", x.eventLog.1),
   ("expected", .dict (dictOf
     [("posted", texts exp.postedEventIds.sort),
      ("rejected", texts exp.rejectedEventIds.sort),
      ("balances_delta", changes exp.balancesDelta)])),
   ("actual", .dict
     (dictOf [("posted", texts obs.posted), ("transactions", .int obs.transactions)])),
   ("breaks", .list ((detectBreaksShown reprText faultPlan obs).map ShownBreak.value)),
   ("quiescent", .bool obs.quiescent),
   ("label", x.label.1),
   ("kinds", texts (scenario.fixtures.map (·.kind.name))),
   ("started_at", x.startedAt.1),
   ("accepted_rejected", texts obs.acceptedRejected),
   ("wrong_rejection_reason", texts obs.wrongRejectionReason),
   ("redelivered_after_kill", .bool (kills && faultPlan.redeliverAfterKill)),
   ("worker_restarted", .bool kills),
   ("killed_with_task_in_flight", x.killedWithTaskInFlight.1),
   ("ledger_reset", .bool !obs.invariantAfter),
   ("ingest_responsive", ofOption PyValue.bool obs.ingestResponsive),
   ("recon", if exp.reconcilerShouldReportBreak then
       .dict (dictOf
         [("reported", .bool obs.reconReportedBreak),
          ("checked", x.reconChecked.1),
          ("invariant_ok", x.reconInvariantOk.1),
          ("breaks", x.reconBreaks.1)])
     else .none),
   ("invariant_detail", x.invariantDetail.1),
   ("error", x.error.1)]

/-- What `run_scenario` observes: of the wrong reasons, each text once. -/
def runObserved (chart : Chart) (scenario : DictScenario float) (faultPlan : FaultPlan)
    (r : Readings) : Observed :=
  let obs :=
    (observe chart scenario.toScenario faultPlan r.before r.after r.log r.results r.queueLen
      r.responsive).shown reprText
  { obs with wrongRejectionReason := firsts id [] obs.wrongRejectionReason }

/-- The record that `run_scenario` returns, of what it reads off the system under a plan. -/
def runRecord (chart : Chart) (scenario : DictScenario float) (faultPlan : FaultPlan) (r : Readings)
    (x : Extras) :
    List (PyStr × PyValue) :=
  dictOf (recordFields reprText scenario faultPlan (check chart r.before).ok
    (runObserved reprText chart scenario faultPlan r) x)

end

/-- `(record.get("recon") or {}).get("reported", False)`. -/
def reconReported (record : List (PyStr × PyValue)) : Option Bool :=
  match field record "recon" with
  | none => some false
  | some v => if truth v then (asFields v).map fun fs =>
      ((field fs "reported").map truth).getD false else some false

/-- `observation_from_record`. -/
def observationFromRecord (record : List (PyStr × PyValue)) : Option Observed := do
  let ledgerDiff ← ((field record "ledger_diff").bind asFields).bind asChanges
  let invariantAfter ← field record "invariant_after"
  let actual ← (field record "actual").bind asFields
  let posted ← (field actual "posted").bind asTexts
  let transactions ← (field actual "transactions").bind asInt
  let quiescent ← field record "quiescent"
  let acceptedRejected ← asTexts ((field record "accepted_rejected").getD (.list []))
  let wrongRejectionReason ← asTexts ((field record "wrong_rejection_reason").getD (.list []))
  let reconReportedBreak ← reconReported record
  return {
    ledgerDiff := ledgerDiff
    invariantAfter := truth invariantAfter
    posted := posted
    transactions := transactions.toNat
    quiescent := truth quiescent
    acceptedRejected := acceptedRejected
    wrongRejectionReason := wrongRejectionReason
    reconReportedBreak := reconReportedBreak
    ingestResponsive :=
      match field record "ingest_responsive" with
      | some (.bool b) => some b
      | _ => none }

/-! ## Reading a record -/

section

variable {reprText : String → String} {float : PyValue → Option ℚ} {scenario : DictScenario float}
  {faultPlan : FaultPlan} {invariantBefore : Bool} {obs : Observed} {x : Extras}

lemma field_dictOf (fields : List (String × PyValue)) (key : String) :
    field (dictOf fields) key = fields.lookup key := by
  induction fields with
  | nil => rfl
  | cons f fields ih =>
      have hkey : (pyStr key == pyStr f.1) = (key == f.1) := by
        rw [Bool.eq_iff_iff, beq_iff_eq, beq_iff_eq, pyStr_injective.eq_iff]
      rw [field, dictOf, List.map_cons, List.lookup_cons, hkey, List.lookup_cons, ← ih]
      rfl

lemma reconReported_recordFields
    (hrecon : obs.reconReportedBreak = true →
      faultPlan.expectation.reconcilerShouldReportBreak = true) :
    reconReported (dictOf (recordFields reprText scenario faultPlan invariantBefore obs x)) =
      some obs.reconReportedBreak := by
  have hfield : field (dictOf (recordFields reprText scenario faultPlan invariantBefore obs x))
      "recon" =
      some (if faultPlan.expectation.reconcilerShouldReportBreak then
        .dict (dictOf
          [("reported", .bool obs.reconReportedBreak),
           ("checked", x.reconChecked.1),
           ("invariant_ok", x.reconInvariantOk.1),
           ("breaks", x.reconBreaks.1)])
      else .none) := field_dictOf _ _
  rw [reconReported, hfield]
  by_cases hshould : faultPlan.expectation.reconcilerShouldReportBreak = true
  · have hreported : field (dictOf
        [("reported", .bool obs.reconReportedBreak),
         ("checked", x.reconChecked.1),
         ("invariant_ok", x.reconInvariantOk.1),
         ("breaks", x.reconBreaks.1)]) "reported" = some (.bool obs.reconReportedBreak) :=
           field_dictOf _ _
    rw [if_pos hshould]
    refine (if_pos rfl).trans ?_
    rw [asFields, Option.map_some, hreported]
    rfl
  · have hsilent : obs.reconReportedBreak = false := Bool.eq_false_iff.mpr fun h =>
      hshould (hrecon h)
    rw [if_neg hshould, hsilent]
    rfl

/-- **The observation is read off the record again.** -/
lemma observationFromRecord_recordFields
    (hrecon : obs.reconReportedBreak = true →
      faultPlan.expectation.reconcilerShouldReportBreak = true) :
    observationFromRecord
      (dictOf (recordFields reprText scenario faultPlan invariantBefore obs x)) = some obs := by
  have hreported :
      reconReported (dictOf (recordFields reprText scenario faultPlan invariantBefore obs x)) =
      some obs.reconReportedBreak := reconReported_recordFields hrecon
  have hfield := field_dictOf (recordFields reprText scenario faultPlan invariantBefore obs x)
  generalize dictOf (recordFields reprText scenario faultPlan invariantBefore obs x) =
    record at hreported hfield ⊢
  have hdiff : ((field record "ledger_diff").bind asFields).bind asChanges =
      some obs.ledgerDiff := by
    rw [show field record "ledger_diff" = some (changes obs.ledgerDiff) from hfield _]
    exact asChanges_changes _
  have hactual : field record "actual" =
      some (.dict (dictOf [("posted", texts obs.posted),
        ("transactions", .int obs.transactions)])) := hfield _
  have hinvariant : field record "invariant_after" = some (.bool obs.invariantAfter) := hfield _
  have hquiescent : field record "quiescent" = some (.bool obs.quiescent) := hfield _
  have haccepted : field record "accepted_rejected" = some (texts obs.acceptedRejected) := hfield _
  have hwrong : field record "wrong_rejection_reason" = some (texts obs.wrongRejectionReason) :=
    hfield _
  have hresponsive : field record "ingest_responsive" =
      some (ofOption PyValue.bool obs.ingestResponsive) := hfield _
  have hposted : field
      (dictOf [("posted", texts obs.posted), ("transactions", .int obs.transactions)]) "posted" =
      some (texts obs.posted) := field_dictOf _ _
  have htransactions :
      field (dictOf [("posted", texts obs.posted), ("transactions", .int obs.transactions)])
      "transactions" = some (.int obs.transactions) := field_dictOf _ _
  simp only [observationFromRecord, hdiff, hactual, hinvariant, hquiescent, haccepted, hwrong,
    hreported, hresponsive, Option.bind_some, Option.bind_eq_bind, Option.getD_some, asTexts_texts,
    asFields, hposted, htransactions]
  obtain ⟨_, _, _, _, _, _, _, _, responsive⟩ := obs
  cases responsive <;> rfl

end

/-! ## A record in a file -/

/-- Every integer of a record can be written, as `json.dumps` needs it. -/
structure RecordRendered (faultPlan : FaultPlan) (obs : Observed) : Prop where
  diff : ∀ p ∈ obs.ledgerDiff.items, Rendered p.2
  delta : ∀ p ∈ faultPlan.expectation.balancesDelta.items, Rendered p.2
  transactions : Rendered obs.transactions

section

variable {ok : BitVec 64 → Prop}

lemma loadedItems_of_forall {vs : List PyValue} (h : ∀ v ∈ vs, Loaded ok v) :
    LoadedItems ok vs := by
  induction vs with
  | nil => trivial
  | cons v vs ih =>
      obtain ⟨hv, hvs⟩ := List.forall_mem_cons.mp h
      exact ⟨hv, ih hvs⟩

lemma loadedFields_of_forall {fields : List (PyStr × PyValue)}
    (h : ∀ f ∈ fields, LoadedField ok f) :
    LoadedFields ok fields := by
  induction fields with
  | nil => trivial
  | cons f fields ih =>
      obtain ⟨hf, hfields⟩ := List.forall_mem_cons.mp h
      exact ⟨hf, ih hfields⟩

lemma loaded_dictOf {fields : List (String × PyValue)} (hkeys : (fields.map Prod.fst).Nodup)
    (h : ∀ f ∈ fields, Loaded ok f.2) : Loaded ok (.dict (dictOf fields)) := by
  refine ⟨?_, loadedFields_of_forall fun f hf => ?_⟩
  · have hmap : (dictOf fields).map Prod.fst = (fields.map Prod.fst).map pyStr := by simp [dictOf]
    rw [hmap]
    exact hkeys.map pyStr_injective
  · obtain ⟨p, hp, rfl⟩ := List.mem_map.mp hf
    exact ⟨whole_pyStr p.1, h p hp⟩

lemma loaded_text (s : String) : Loaded ok (text s) := whole_pyStr s

lemma loaded_texts (ss : List String) : Loaded ok (texts ss) := by
  refine loadedItems_of_forall fun v hv => ?_
  obtain ⟨s, -, rfl⟩ := List.mem_map.mp hv
  exact loaded_text s

lemma loaded_changes {d : Dict String ℤ} (h : ∀ p ∈ d.items, Rendered p.2) :
    Loaded ok (changes d) := by
  have hdict : changes d = .dict (dictOf (d.items.map fun p => (p.1, .int p.2))) := by
    simp [changes, dictOf]
  rw [hdict]
  refine loaded_dictOf ?_ fun f hf => ?_
  · have hkeys : (d.items.map fun p => (p.1, PyValue.int p.2)).map Prod.fst =
        d.items.map Prod.fst := by
      simp [Function.comp_def]
    rw [hkeys]
    exact d.nodup
  · obtain ⟨p, hp, rfl⟩ := List.mem_map.mp hf
    exact h p hp

lemma loaded_shownBreak (b : ShownBreak) : Loaded ok b.value :=
  loaded_dictOf (by decide : ["kind", "detail"].Nodup) (by simp [loaded_text])

end

section

variable {reprText : String → String} {float : PyValue → Option ℚ} {scenario : DictScenario float}
  {faultPlan : FaultPlan} {invariantBefore : Bool} {obs : Observed} {x : Extras}

/-- **A record is a value of JSON.** -/
lemma loaded_recordFields (h : RecordRendered faultPlan obs) :
    Loaded IsFloat (.dict
      (dictOf (recordFields reprText scenario faultPlan invariantBefore obs x))) := by
  have hexpected : Loaded IsFloat (.dict (dictOf
      [("posted", texts faultPlan.expectation.postedEventIds.sort),
       ("rejected", texts faultPlan.expectation.rejectedEventIds.sort),
       ("balances_delta", changes faultPlan.expectation.balancesDelta)])) :=
    loaded_dictOf (by decide : ["posted", "rejected", "balances_delta"].Nodup)
      (by simp [loaded_texts, loaded_changes h.delta])
  have hactual : Loaded IsFloat (.dict (dictOf
      [("posted", texts obs.posted), ("transactions", .int obs.transactions)])) :=
    loaded_dictOf (by decide : ["posted", "transactions"].Nodup) (by
      simp only [List.forall_mem_cons]
      exact ⟨loaded_texts _, h.transactions, List.forall_mem_nil _⟩)
  have hrecon : Loaded IsFloat (if faultPlan.expectation.reconcilerShouldReportBreak then
      .dict (dictOf
        [("reported", .bool obs.reconReportedBreak),
         ("checked", x.reconChecked.1),
         ("invariant_ok", x.reconInvariantOk.1),
         ("breaks", x.reconBreaks.1)])
      else .none) := by
    split_ifs
    · refine loaded_dictOf (by decide : ["reported", "checked", "invariant_ok", "breaks"].Nodup) ?_
      simp only [List.forall_mem_cons]
      exact ⟨trivial, x.reconChecked.2, x.reconInvariantOk.2, x.reconBreaks.2,
        List.forall_mem_nil _⟩
    · trivial
  have hbreaks : Loaded IsFloat
      (.list ((detectBreaksShown reprText faultPlan obs).map ShownBreak.value)) := by
    refine loadedItems_of_forall fun v hv => ?_
    obtain ⟨b, -, rfl⟩ := List.mem_map.mp hv
    exact loaded_shownBreak b
  have hresponsive : Loaded IsFloat (ofOption PyValue.bool obs.ingestResponsive) := by
    cases obs.ingestResponsive <;> trivial
  refine loaded_dictOf ?_ ?_
  · show ["scenario_id", "fault", "params", "events", "invariant_before", "invariant_after",
      "ledger_diff", "duration_ms", "deliveries", "event_log", "expected", "actual", "breaks",
      "quiescent", "label", "kinds", "started_at", "accepted_rejected", "wrong_rejection_reason",
      "redelivered_after_kill", "worker_restarted", "killed_with_task_in_flight", "ledger_reset",
      "ingest_responsive", "recon", "invariant_detail", "error"].Nodup
    decide
  · simp only [recordFields, List.forall_mem_cons]
    exact ⟨loaded_text _, loaded_text _, scenario.dict.2, loaded_texts _, trivial, trivial,
      loaded_changes h.diff, x.durationMs.2, x.deliveries.2, x.eventLog.2, hexpected, hactual,
      hbreaks, trivial, x.label.2, loaded_texts _, x.startedAt.2, loaded_texts _, loaded_texts _,
      trivial, trivial, x.killedWithTaskInFlight.2, trivial, hresponsive, hrecon,
      x.invariantDetail.2, x.error.2, List.forall_mem_nil _⟩

end

/-! ## The verdict again -/

section

variable (hmacHex : List UInt8 → List UInt8 → String) (reprText : String → String)
  {float : PyValue → Option ℚ}

/-- What is derived from a record, with any secret and at any time: `detect_breaks` of the plan with
its parameters and of its observation. -/
def Rederives (scenario : DictScenario float) (record : List (PyStr × PyValue)) (breaks : PyValue) :
    Prop :=
  ∀ (secret : String) (now : ℤ), ∃ params faultPlan obs,
    field record "params" = some (.dict params) ∧
    plan hmacHex scenario.fault scenario.fixtures secret (paramsOf float params) now =
      .ok faultPlan ∧
    observationFromRecord record = some obs ∧
    breaks = .list ((detectBreaksShown reprText faultPlan obs).map ShownBreak.value)

variable {hmacHex reprText} in
lemma rederives_recordFields {scenario : DictScenario float} {secret : String} {now : ℤ}
    {faultPlan : FaultPlan} {invariantBefore : Bool} {obs : Observed} {x : Extras}
    (hplan : plan hmacHex scenario.fault scenario.fixtures secret scenario.params now =
      .ok faultPlan)
    (hrecon : obs.reconReportedBreak = true →
      faultPlan.expectation.reconcilerShouldReportBreak = true) :
    Rederives hmacHex reprText scenario
      (dictOf (recordFields reprText scenario faultPlan invariantBefore obs x))
      (.list ((detectBreaksShown reprText faultPlan obs).map ShownBreak.value)) := by
  intro secret' now'
  obtain ⟨again, hagain, -, hexp⟩ := plan_elsewhere hplan secret' now'
  rw [scenario.params_eq] at hagain
  exact ⟨scenario.dict.1, again, obs, field_dictOf _ _, hagain,
    observationFromRecord_recordFields hrecon, by rw [detectBreaksShown_congr reprText hexp]⟩

/-- **Verdicts are reproducible from the artifact.** -/
theorem verdicts_reproducible (float : PyValue → Option ℚ) :
    (∀ (fault : Fault) (fixtures : List EventFixture) (secret : String) (params : Params) (now : ℤ)
        (faultPlan : FaultPlan), plan hmacHex fault fixtures secret params now = .ok faultPlan →
      ∀ (secret' : String) (now' : ℤ), ∃ again,
        plan hmacHex fault fixtures secret' faultPlan.params now' = .ok again ∧
        again.params = faultPlan.params ∧ again.expectation = faultPlan.expectation) ∧
    ∀ (chart : Chart) (scenario : DictScenario float) (secret : String) (now : ℤ)
      (faultPlan : FaultPlan),
      plan hmacHex scenario.fault scenario.fixtures secret scenario.params now = .ok faultPlan →
      ∀ (r : Readings) (x : Extras),
        let record := runRecord reprText chart scenario faultPlan r x
        ∃ breaks, field record "breaks" = some breaks ∧
          Rederives hmacHex reprText scenario record breaks ∧
          (RecordRendered faultPlan (runObserved reprText chart scenario faultPlan r) → ∀ sp,
            ∃ record', loadsText readFloat (dumps reprFloat sp (.dict record)) =
            some (.dict record') ∧
              Rederives hmacHex reprText scenario record' breaks) := by
  refine ⟨fun fault fixtures secret params now faultPlan h => replan h, ?_⟩
  intro chart scenario secret now faultPlan hplan r x record
  have hrecon : (runObserved reprText chart scenario faultPlan r).reconReportedBreak = true →
      faultPlan.expectation.reconcilerShouldReportBreak = true :=
        fun h => (Bool.and_eq_true_iff.mp h).1
  have hrederives : Rederives hmacHex reprText scenario record _ :=
    rederives_recordFields hplan hrecon
  refine ⟨_, field_dictOf _ _, hrederives, fun hrendered sp => ⟨record, ?_, hrederives⟩⟩
  exact loadsText_dumps (Loaded.mono (fun _ h => h.floats) _ (loaded_recordFields hrendered)) sp

end

/-- `float(v)` of an integer. -/
def floatOfInt : PyValue → Option ℚ
  | .int n => some n
  | _ => none

lemma loaded_thrice : Loaded IsFloat (.dict (dictOf [("n", .int 3)])) :=
  loaded_dictOf (List.nodup_singleton _) fun f hf => by
    rw [List.mem_singleton.mp hf]
    exact (by decide : Rendered 3)

/-- The plan that delivers the payout of the labels three times. -/
def thricePlan : FaultPlan :=
  acceptedPlan .duplicate { Params.empty with n := some 3 }
    (List.replicate 3 (clean payoutHmacHex paidPayout labelSecret 1754300000))
    (if paidPayout.expectedDelta.items ≠ [] then {paidPayout.eventId} else ∅)
    (sumDelta [paidPayout] (if paidPayout.expectedDelta.items ≠ [] then {paidPayout.eventId}
      else ∅)) (.serial 3)

/-- Its scenario. -/
def thriceScenario : DictScenario floatOfInt where
  scenarioId := "duplicate-payout_paid-0000"
  fault := .duplicate
  params := { Params.empty with n := some 3 }
  fixtures := [paidPayout]
  label := labelOf .duplicate { Params.empty with n := some 3 } [paidPayout] thricePlan.expectation
  dict := ⟨_, loaded_thrice⟩
  params_eq := rfl

/-- A system that posts nothing. -/
def lostReadings : Readings := ⟨.empty, .empty, [], [], 0, none⟩

/-- Nothing else is recorded. -/
def noExtras : Extras :=
  let nothing : JsonValue := ⟨.none, trivial⟩
  ⟨nothing, nothing, nothing, nothing, nothing, nothing, nothing, nothing, nothing, nothing,
    nothing⟩

/-- A text in quotes. -/
def quotedText (s : String) : String := "'" ++ s ++ "'"

/-- The payout is lost, and the record of it says so to whoever reads it. -/
theorem verdicts_reproducible_lost :
    let record := runRecord quotedText seedChart thriceScenario thricePlan lostReadings noExtras
    (∃ again,
      plan payoutHmacHex .duplicate [paidPayout] "whsec_other" thricePlan.params 0 = .ok again ∧
      again.params = thricePlan.params ∧ again.expectation = thricePlan.expectation) ∧
    ∃ breaks, field record "breaks" = some breaks ∧
      Rederives payoutHmacHex quotedText thriceScenario record breaks ∧
      ∀ sp, ∃ record',
        loadsText readFloat (dumps reprFloat sp (.dict record)) = some (.dict record') ∧
        Rederives payoutHmacHex quotedText thriceScenario record' breaks := by
  intro record
  have hplan : plan payoutHmacHex .duplicate [paidPayout] labelSecret
      { Params.empty with n := some 3 } 1754300000 =
      .ok thricePlan := rfl
  obtain ⟨hagain, hrecord⟩ := verdicts_reproducible payoutHmacHex quotedText floatOfInt
  refine ⟨hagain .duplicate [paidPayout] labelSecret _ 1754300000 thricePlan hplan "whsec_other" 0,
    ?_⟩
  obtain ⟨breaks, hbreaks, hrederives, hfile⟩ := hrecord seedChart thriceScenario labelSecret
    1754300000 thricePlan
    hplan lostReadings noExtras
  refine ⟨breaks, hbreaks, hrederives, hfile ⟨?_, ?_, ?_⟩⟩
  · decide +kernel
  · decide +kernel
  · decide +kernel

end LedgerProof.Harness
