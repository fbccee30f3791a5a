import LedgerProof.Harness.Artifact
import LedgerProof.Lib.JsonLines
import LedgerProof.Triage.Report
import LedgerProof.Triage.Split

/-!
# From a chaos run to the benchmark

`run_all` and `summarize` of `harness/runner.py`, and `load_cases` of `triage/bench.py` that reads
the artifact they leave: one record to a line, written as the run goes, for every scenario, also for
one that raised.

The benchmark has a case for every scenario that ran without an error, with what the scenario's
label says, and the summary counts the scenarios, the cases and the breaks as they are
(`benchmark_of_run`).
-/

namespace LedgerProof.Triage

open Harness PyJson

/-! ## The run -/

/-- A scenario with its label as the dictionary that it is. -/
structure LabelledScenario (float : PyValue → Option ℚ) extends DictScenario float where
  labelDict : JsonDict
  balancesDelta : field labelDict.1 "balances_delta" = some (changes label.balancesDelta)

/-- How a scenario went. -/
inductive Attempt (float : PyValue → Option ℚ)
  /-- `run_scenario` returned; `killErrors` is what the kill of the worker raised. -/
  | ran (scenario : LabelledScenario float) (faultPlan : FaultPlan) (readings : Readings)
      (extras : Extras)
      (killErrors : List String)
  /-- It raised. -/
  | raised (scenario : LabelledScenario float) (excType message : String) (durationMs : JsonValue)

/-- `fault.value`. -/
def faultName (fault : Fault) : String := upper fault.lower

/-- `"; ".join(kill_errors) or None`. -/
def killError (killErrors : List String) : PyValue :=
  if "; ".intercalate killErrors = "" then .none else text ("; ".intercalate killErrors)

lemma loaded_killError (killErrors : List String) : Loaded IsFloat (killError killErrors) := by
  unfold killError
  split_ifs
  · trivial
  · exact loaded_text _

section

variable (reprText : String → String) (chart : Chart) {float : PyValue → Option ℚ}

/-- The fields of `_failure_record`. -/
def failureFields (scenario : LabelledScenario float) (excType message : String)
    (durationMs : JsonValue) :
    List (String × PyValue) :=
  [("scenario_id", text scenario.scenarioId),
   ("fault", text (faultName scenario.fault)),
   ("params", .dict scenario.dict.1),
   ("events", texts (scenario.fixtures.map (·.eventId))),
   ("invariant_before", .none),
   ("invariant_after", .none),
   ("ledger_diff", .dict []),
   ("duration_ms", durationMs.1),
   ("deliveries", .list []),
   ("expected", .dict (dictOf [("posted", .list []), ("rejected", .list []),
     ("balances_delta", .dict [])])),
   ("actual", .dict (dictOf [("posted", .list []), ("transactions", .int 0)])),
   ("breaks", .list []),
   ("quiescent", .bool false),
   ("label", .dict scenario.labelDict.1),
   ("kinds", texts (scenario.fixtures.map (·.kind.name))),
   ("error", text (excType ++ ": " ++ message))]

/-- The record of a scenario: the one that `run_scenario` returns, or `_failure_record`. -/
def Attempt.record : Attempt float → List (PyStr × PyValue)
  | .ran scenario faultPlan readings extras killErrors =>
      runRecord reprText chart scenario.toDictScenario faultPlan readings
        { extras with
          label := ⟨.dict scenario.labelDict.1, scenario.labelDict.2⟩
          error := ⟨killError killErrors, loaded_killError killErrors⟩ }
  | .raised scenario excType message durationMs =>
      dictOf (failureFields scenario excType message durationMs)

/-- What `run_all` returns and writes. -/
def runAll (attempts : List (Attempt float)) : List (List (PyStr × PyValue)) :=
  attempts.map (Attempt.record reprText chart)

end

/-- The artifact, one record to a line. -/
def artifactText (records : List (List (PyStr × PyValue))) : List Char :=
  jsonLines reprFloat 1 (records.map .dict)

/-! ## The summary -/

/-- `summarize`, but for what it is handed and the clock. -/
structure RunSummary where
  scenariosGenerated : ℕ
  scenariosRun : ℕ
  scenariosWithBreaks : ℕ
  scenariosErrored : ℕ
  countsByFault : List (String × ℤ)
  breaksByKind : List (String × ℤ)
  killScenarios : ℕ
  killsWithTaskInFlight : ℕ
  skippedCombos : List Skip

/-- `record.get(key)`, `None` when it is not there. -/
def getOrNone (record : List (PyStr × PyValue)) (key : String) :
    PyValue := (field record key).getD .none

/-- `bool(record.get("error"))`. -/
def hasError (record : List (PyStr × PyValue)) : Bool := truth (getOrNone record "error")

/-- `[item["kind"] for item in record["breaks"]]`. -/
def breakKinds (record : List (PyStr × PyValue)) : Option (List String) :=
  match field record "breaks" with
  | some (.list items) => items.mapM fun item => ((asFields item).bind (field · "kind")).bind asText
  | _ => none

/-- `killed_with_task_in_flight`, where it is not `None`. -/
def killedInFlight (record : List (PyStr × PyValue)) : Option Bool :=
  match getOrNone record "killed_with_task_in_flight" with
  | .none => none
  | v => some (truth v)

/-- `d[k] = d.get(k, 0) + 1` for every item, and `dict(sorted(d.items()))`. -/
def countsOf (names : List String) :
    List (String × ℤ) := sortedItems (Dict.tally id (fun _ => 1) Dict.empty names)

/-- `summarize`. -/
def summarize (records : List (List (PyStr × PyValue))) (generated : ℕ) (skipped : List Skip) :
    Option RunSummary := do
  let faults ← records.mapM fun record => (field record "fault").bind asText
  let kinds ← records.mapM breakKinds
  return {
    scenariosGenerated := generated
    scenariosRun := records.length
    scenariosWithBreaks := kinds.countP fun ks => !ks.isEmpty
    scenariosErrored := records.countP hasError
    countsByFault := countsOf faults
    breaksByKind := countsOf kinds.flatten
    killScenarios := records.countP fun record => (killedInFlight record).isSome
    killsWithTaskInFlight := records.countP fun record => killedInFlight record = some true
    skippedCombos := skipped }

/-! ## The cases -/

/-- `record.get(key) or {}`. -/
def getOrEmpty (record : List (PyStr × PyValue)) (key : String) : Option (List (PyStr × PyValue)) :=
  let v := getOrNone record key
  if truth v then asFields v else some []

/-- A delta of integers; a `Case` holds no other. -/
def asDelta (fields : List (PyStr × PyValue)) : Option (Dict String ℤ) := do
  let pairs ← fields.mapM fun p =>
    match asText (.str p.1), p.2 with
    | some key, .int n => some (key, n)
    | _, _ => none
  return pairs.foldl (fun d p => d.set p.1 p.2) Dict.empty

/-- The case of a record without an error. -/
def caseOfRecord (record : List (PyStr × PyValue)) : Option BenchCase := do
  let label ← getOrEmpty record "label"
  let caseId ← (field record "scenario_id").bind asText
  let labelFault ← (field record "fault").bind asText
  let expectedDelta ← (getOrEmpty label "balances_delta").bind asDelta
  return {
    expectedDelta
    observedDelta := Dict.empty
    caseId
    labelFault
    moneyWasMissing := !truth ((field record "invariant_after").getD (.bool true)) ||
      truth (getOrNone record "breaks")
    repairable := true }

/-- One turn of the loop of `load_cases`: the cases of a line. -/
def casesOfLine (v : PyValue) : Option (List BenchCase) := do
  let record ← asFields v
  if hasError record then return []
  let case ← caseOfRecord record
  return [case]

/-- `load_cases`. -/
def loadCases (artifact : List Char) : Option (List BenchCase) := do
  let lines ← loadLines readFloat artifact
  let cases ← lines.mapM casesOfLine
  return cases.flatten

/-! ## What a record says -/

section

variable (reprText : String → String) (chart : Chart) {float : PyValue → Option ℚ}

/-- The scenario. -/
def Attempt.scenario : Attempt float → LabelledScenario float
  | .ran scenario _ _ _ _ => scenario
  | .raised scenario _ _ _ => scenario

/-- The breaks that were detected. -/
def Attempt.breaks : Attempt float → List ShownBreak
  | .ran scenario faultPlan readings _ _ =>
      detectBreaksShown reprText faultPlan
        (runObserved reprText chart scenario.toDictScenario faultPlan readings)
  | .raised _ _ _ _ => []

/-- It raised, or the kill of the worker did. -/
def Attempt.errored : Attempt float → Bool
  | .ran _ _ _ _ killErrors => "; ".intercalate killErrors ≠ ""
  | .raised _ _ _ _ => true

/-- The integers of the record can be written. -/
def Attempt.Writable : Attempt float → Prop
  | .ran scenario faultPlan readings _ _ =>
      RecordRendered faultPlan
        (runObserved reprText chart scenario.toDictScenario faultPlan readings)
  | .raised _ _ _ _ => True

/-- The case that the benchmark is to have of it: money was missing where a break was detected, and
the delta is the one of the label. -/
def Attempt.benchCase (attempt : Attempt float) : Option BenchCase :=
  if attempt.errored then none
  else
    some
      { expectedDelta := attempt.scenario.label.balancesDelta
        observedDelta := Dict.empty
        caseId := attempt.scenario.scenarioId
        labelFault := faultName attempt.scenario.fault
        moneyWasMissing := !(attempt.breaks reprText chart).isEmpty
        repairable := true }

variable {reprText chart}

/-- What is read off the record of an attempt. -/
structure Attempt.Says (reprText : String → String) (chart : Chart) (attempt : Attempt float)
    (record : List (PyStr × PyValue)) : Prop where
  scenarioId : field record "scenario_id" = some (text attempt.scenario.scenarioId)
  fault : field record "fault" = some (text (faultName attempt.scenario.fault))
  label : field record "label" = some (.dict attempt.scenario.labelDict.1)
  breaks : field record "breaks" =
    some (.list ((attempt.breaks reprText chart).map ShownBreak.value))
  error : hasError record = attempt.errored
  /-- Broken conservation is a break by itself. -/
  invariant : attempt.errored = false → ∃ ok, field record "invariant_after" = some (.bool ok) ∧
    (ok = false → attempt.breaks reprText chart ≠ [])

lemma truth_text (s : String) : truth (text s) = decide (s ≠ "") := by
  have hnil : pyStr s = [] ↔ s = "" := by
    rw [pyStr, List.map_eq_nil_iff, String.toList_eq_nil_iff]
  rw [text, truth, decide_eq_decide, Ne, Ne, hnil]

lemma truth_killError (killErrors : List String) :
    truth (killError killErrors) = decide ("; ".intercalate killErrors ≠ "") := by
  unfold killError
  split_ifs with hempty
  · simp [hempty, truth]
  · exact truth_text _

lemma Attempt.says_record (attempt : Attempt float) :
    attempt.Says reprText chart (attempt.record reprText chart) := by
  cases attempt with
  | ran scenario faultPlan readings extras killErrors =>
      have hfield := field_dictOf (recordFields reprText scenario.toDictScenario faultPlan
        (check chart readings.before).ok
          (runObserved reprText chart scenario.toDictScenario faultPlan readings)
        { extras with
          label := ⟨.dict scenario.labelDict.1, scenario.labelDict.2⟩
          error := ⟨killError killErrors, loaded_killError killErrors⟩ })
      refine ⟨hfield _, hfield _, hfield _, hfield _, ?_, fun _ => ⟨_, hfield _, fun hbroken => ?_⟩⟩
      · have herror : field
            ((Attempt.ran scenario faultPlan readings extras killErrors).record reprText chart)
              "error" =
            some (killError killErrors) := hfield _
        rw [hasError, getOrNone, herror, Option.getD_some, truth_killError]
        rfl
      · rw [Attempt.breaks, detectBreaksShown, hbroken]
        simp
  | raised scenario excType message durationMs =>
      have hfield := field_dictOf (failureFields scenario excType message durationMs)
      refine ⟨hfield _, hfield _, hfield _, hfield _, ?_, fun h =>
        absurd h (by simp [Attempt.errored])⟩
      have herror : field
          ((Attempt.raised scenario excType message durationMs).record reprText chart) "error" =
          some (text (excType ++ ": " ++ message)) := hfield _
      rw [hasError, getOrNone, herror, Option.getD_some, truth_text]
      simp [Attempt.errored]

/-- **A record is a value of JSON.** -/
lemma Attempt.loaded_record {attempt : Attempt float} (h : attempt.Writable reprText chart) :
    Loaded IsFloat (.dict (attempt.record reprText chart)) := by
  cases attempt with
  | ran scenario faultPlan readings extras killErrors => exact loaded_recordFields h
  | raised scenario excType message durationMs =>
      have hnone : Loaded IsFloat (.list []) := trivial
      have hempty : Loaded IsFloat (.dict []) := ⟨List.nodup_nil, trivial⟩
      have hexpected : Loaded IsFloat (.dict (dictOf
          [("posted", .list []), ("rejected", .list []), ("balances_delta", .dict [])])) :=
        loaded_dictOf (by decide : ["posted", "rejected", "balances_delta"].Nodup)
          (by simp [hnone, hempty])
      have hactual : Loaded IsFloat
          (.dict (dictOf [("posted", .list []), ("transactions", .int 0)])) := by
        refine loaded_dictOf (by decide : ["posted", "transactions"].Nodup) ?_
        simp only [List.forall_mem_cons]
        exact ⟨hnone, (by decide : Rendered 0), List.forall_mem_nil _⟩
      refine loaded_dictOf ?_ ?_
      · show ["scenario_id", "fault", "params", "events", "invariant_before", "invariant_after",
          "ledger_diff", "duration_ms", "deliveries", "expected", "actual", "breaks", "quiescent",
          "label", "kinds", "error"].Nodup
        decide
      · simp only [failureFields, List.forall_mem_cons]
        exact ⟨loaded_text _, loaded_text _, scenario.dict.2, loaded_texts _, trivial, trivial,
          hempty, durationMs.2, hnone, hexpected, hactual, hnone, trivial, scenario.labelDict.2,
          loaded_texts _, loaded_text _, List.forall_mem_nil _⟩

/-! ## What is read of it -/

variable {attempt : Attempt float} {record : List (PyStr × PyValue)}

lemma getOrNone_eq {key : String} {v : PyValue} (h : field record key = some v) :
    getOrNone record key = v := by
  rw [getOrNone, h, Option.getD_some]

lemma getOrEmpty_dict {key : String} {fields : List (PyStr × PyValue)}
    (h : field record key = some (.dict fields)) :
    getOrEmpty record key = some fields := by
  rw [getOrEmpty, getOrNone_eq h]
  cases fields <;> rfl

lemma asDelta_changes (d : Dict String ℤ) :
    asDelta (d.items.map fun p => (pyStr p.1, PyValue.int p.2)) = some d := by
  have hpair : ∀ p : String × ℤ, (match asText (.str (pyStr p.1)), PyValue.int p.2 with
      | some key, .int n => some (key, n)
      | _, _ => none) = some p := by
    intro p
    rw [show asText (.str (pyStr p.1)) = some p.1 from asText_text p.1]
  rw [asDelta, mapM_map hpair]
  exact congrArg some (Dict.ext (Dict.foldl_set_items d.nodup))

/-- **The case of a record** without an error. -/
lemma caseOfRecord_eq (h : attempt.Says reprText chart record) (herror : attempt.errored = false) :
    caseOfRecord record = attempt.benchCase reprText chart := by
  obtain ⟨ok, hok, hbroken⟩ := h.invariant herror
  have hlabel : getOrEmpty record "label" = some attempt.scenario.labelDict.1 :=
    getOrEmpty_dict h.label
  have hdelta : (getOrEmpty attempt.scenario.labelDict.1 "balances_delta").bind asDelta =
      some attempt.scenario.label.balancesDelta := by
    rw [getOrEmpty_dict attempt.scenario.balancesDelta]
    exact asDelta_changes _
  have hmissing : (!truth ((field record "invariant_after").getD (.bool true)) ||
      truth (getOrNone record "breaks")) =
      !(attempt.breaks reprText chart).isEmpty := by
    rw [hok, getOrNone_eq h.breaks, Option.getD_some, truth, truth, List.isEmpty_map]
    cases ok with
    | true => rfl
    | false => simpa using hbroken rfl
  rw [caseOfRecord, hlabel, h.scenarioId, h.fault, Attempt.benchCase, if_neg (by simp [herror])]
  simp only [Option.bind_eq_bind, Option.bind_some, asText_text, hdelta, hmissing]
  rfl

lemma casesOfLine_eq (h : attempt.Says reprText chart record) :
    casesOfLine (.dict record) = some (attempt.benchCase reprText chart).toList := by
  rw [casesOfLine, asFields, Option.bind_eq_bind, Option.bind_some, h.error]
  cases herror : attempt.errored with
  | true =>
      rw [Attempt.benchCase, if_pos herror]
      rfl
  | false =>
      have hcase := caseOfRecord_eq h herror
      have hsome : (attempt.benchCase reprText chart).isSome = true := by
        simp [Attempt.benchCase, herror]
      obtain ⟨case, heq⟩ := Option.isSome_iff_exists.mp hsome
      rw [heq] at hcase ⊢
      rw [if_neg Bool.false_ne_true, hcase]
      rfl

lemma breakKinds_eq (h : attempt.Says reprText chart record) :
    breakKinds record = some ((attempt.breaks reprText chart).map (·.kind)) := by
  have hkind : ∀ b : ShownBreak, ((asFields b.value).bind (field · "kind")).bind asText =
      some b.kind := fun b => by
    have hfield : field (dictOf [("kind", text b.kind), ("detail", text b.detail)]) "kind" =
        some (text b.kind) :=
      field_dictOf _ _
    rw [ShownBreak.value, asFields, Option.bind_some, hfield, Option.bind_some, asText_text]
  rw [breakKinds, h.breaks]
  dsimp only
  generalize attempt.breaks reprText chart = breaks
  induction breaks with
  | nil => rfl
  | cons b breaks ih =>
      rw [List.map_cons, List.mapM_cons, hkind, ih]
      rfl

lemma faultName_eq (h : attempt.Says reprText chart record) :
    (field record "fault").bind asText = some (faultName attempt.scenario.fault) := by
  rw [h.fault, Option.bind_some, asText_text]

/-- What is read of every record is read of the list. -/
lemma mapM_records {β : Type} {read : List (PyStr × PyValue) → Option β} {value : Attempt float → β}
    (hread : ∀ attempt : Attempt float, read (attempt.record reprText chart) = some (value attempt))
    (attempts : List (Attempt float)) :
    (runAll reprText chart attempts).mapM read = some (attempts.map value) := by
  induction attempts with
  | nil => rfl
  | cons attempt attempts ih =>
      rw [runAll, List.map_cons, List.mapM_cons, hread, ← runAll, ih]
      rfl

end

/-! ## What is counted -/

lemma total_sortedItems (d : Dict String ℤ) :
    total Prod.snd (sortedItems d) = total (fun k => d.getD k 0) d.keys := by
  have hitems := sortedItems_map d id 0
  have hself : (sortedItems d).map (fun i => (i.1, id i.2)) = sortedItems d := List.map_id _
  rw [← hself, hitems, total_map]
  exact total_perm (sortOn_perm id d.keys)

/-- **A name has been counted as often as it is there.** -/
lemma lookup_countsOf (names : List String) (name : String) :
    ((countsOf names).lookup name).getD 0 = names.count name := by
  rw [countsOf, lookup_sortedItems]
  show (Dict.tally id (fun _ => (1 : ℤ)) Dict.empty names).getD name 0 = _
  rw [Dict.getD_tally, Dict.getD_empty, zero_add, total_one, ← List.countP_eq_length_filter,
    List.count]
  exact_mod_cast List.countP_congr fun n _ => by simp

lemma total_countsOf (names : List String) : total Prod.snd (countsOf names) = names.length := by
  have hnodup := (Dict.tally id (fun _ => (1 : ℤ)) Dict.empty names).keys_nodup
  rw [countsOf, total_sortedItems]
  calc total (fun k => (Dict.tally id (fun _ => (1 : ℤ)) Dict.empty names).getD k 0)
        (Dict.tally id (fun _ => (1 : ℤ)) Dict.empty names).keys
      = total (fun k => total (fun _ => (1 : ℤ)) (names.filter fun n => id n = k))
          (Dict.tally id (fun _ => (1 : ℤ)) Dict.empty names).keys :=
        total_congr fun k _ => by rw [Dict.getD_tally, Dict.getD_empty, zero_add]
    _ = total (fun _ => (1 : ℤ)) names :=
        sum_groups hnodup id _ names fun n hn => (Dict.mem_keys_tally ..).mpr (.inr ⟨n, hn, rfl⟩)
    _ = names.length := total_one names

section

variable {reprText : String → String} {chart : Chart} {float : PyValue → Option ℚ}

lemma benchCase_eq_some {attempt : Attempt float} {case : BenchCase}
    (h : attempt.benchCase reprText chart = some case) :
    case.labelFault = faultName attempt.scenario.fault ∧
      case.moneyWasMissing = !(attempt.breaks reprText chart).isEmpty := by
  rw [Attempt.benchCase] at h
  split_ifs at h
  obtain rfl := Option.some_inj.mp h
  exact ⟨rfl, rfl⟩

/-- **An attempt is a case or an error**, and what is counted of it is counted of one of these. -/
lemma countP_benchCase {p : Attempt float → Bool} {q : BenchCase → Bool}
    (hpq : ∀ attempt case, attempt.benchCase reprText chart = some case → q case = p attempt)
    (attempts : List (Attempt float)) :
    (attempts.filterMap (Attempt.benchCase reprText chart)).countP q +
      (attempts.filter Attempt.errored).countP p =
      attempts.countP p := by
  induction attempts with
  | nil => rfl
  | cons attempt attempts ih =>
      cases herror : attempt.errored with
      | true =>
          have hnone : attempt.benchCase reprText chart = none := if_pos herror
          rw [List.filterMap_cons_none hnone, List.filter_cons_of_pos herror, List.countP_cons,
            List.countP_cons, ← ih]
          omega
      | false =>
          have hsome : attempt.benchCase reprText chart = some _ := if_neg (by simp [herror])
          rw [List.filterMap_cons_some hsome, List.filter_cons_of_neg (by simp [herror]),
            List.countP_cons, List.countP_cons, hpq _ _ hsome, ← ih]
          omega

/-- **The artifact is read back.** -/
lemma loadCases_artifactText {attempts : List (Attempt float)}
    (h : ∀ attempt ∈ attempts, attempt.Writable reprText chart) :
    loadCases (artifactText (runAll reprText chart attempts)) =
      some (attempts.filterMap (Attempt.benchCase reprText chart)) := by
  have hloaded : ∀ record ∈ runAll reprText chart attempts,
      Loaded (Floats readFloat reprFloat) (.dict record) := by
    intro record hrecord
    obtain ⟨attempt, hattempt, rfl⟩ := List.mem_map.mp hrecord
    exact Loaded.mono (fun _ hbits => hbits.floats) _ (Attempt.loaded_record (h attempt hattempt))
  have hcases : (runAll reprText chart attempts).mapM (casesOfLine ∘ .dict) =
      some (attempts.map fun attempt => (attempt.benchCase reprText chart).toList) :=
    mapM_records (fun attempt => casesOfLine_eq attempt.says_record) attempts
  rw [loadCases, artifactText, loadLines_jsonLines spells_reprFloat hloaded 1, Option.bind_eq_bind,
    Option.bind_some, List.mapM_map]
  rw [hcases, Option.bind_eq_bind, Option.bind_some, List.filterMap_eq_flatMap_toList]
  rfl

/-- **What `summarize` counts.** -/
lemma summarize_runAll (reprText : String → String) (chart : Chart)
    (attempts : List (Attempt float)) (generated : ℕ) (skipped : List Skip) :
    ∃ summary, summarize (runAll reprText chart attempts) generated skipped = some summary ∧
      summary.scenariosRun = attempts.length ∧
        summary.scenariosErrored = attempts.countP Attempt.errored ∧
      summary.countsByFault = countsOf (attempts.map fun attempt =>
        faultName attempt.scenario.fault) ∧
      summary.scenariosWithBreaks = attempts.countP (fun attempt =>
        !(attempt.breaks reprText chart).isEmpty) ∧
      summary.breaksByKind =
        countsOf (attempts.map fun attempt =>
          (attempt.breaks reprText chart).map (·.kind)).flatten := by
  have hfaults : (runAll reprText chart attempts).mapM (fun record =>
      (field record "fault").bind asText) =
      some (attempts.map fun attempt => faultName attempt.scenario.fault) :=
    mapM_records (fun attempt => faultName_eq attempt.says_record) attempts
  have hkinds : (runAll reprText chart attempts).mapM breakKinds =
      some (attempts.map fun attempt => (attempt.breaks reprText chart).map (·.kind)) :=
    mapM_records (fun attempt => breakKinds_eq attempt.says_record) attempts
  rw [summarize, hfaults, hkinds]
  refine ⟨_, rfl, List.length_map _, ?_, rfl, ?_, rfl⟩
  · dsimp only
    rw [runAll, List.countP_map]
    refine List.countP_congr fun attempt _ => ?_
    have hsays : attempt.Says reprText chart _ := attempt.says_record
    rw [Function.comp_apply, hsays.error]
  · dsimp only
    rw [List.countP_map]
    refine List.countP_congr fun attempt _ => ?_
    rw [Function.comp_apply, List.isEmpty_map]

end

/-- **The benchmark is what the run was.**  Take any run, with scenarios that raised among them.
Read back from the artifact's text, every scenario without an error is one case, in the order of the
run, and no other is: with its id, its fault, the delta of its label, and money missing exactly
where a break was detected.  And the summary counts the same run: its scenarios are the cases and
the errors, in all, for each fault, and among those with breaks; and the counts by fault and by kind
add up to the scenarios and to the breaks. -/
theorem benchmark_of_run (reprText : String → String) (chart : Chart) {float : PyValue → Option ℚ}
    (attempts : List (Attempt float)) (generated : ℕ) (skipped : List Skip)
    (h : ∀ attempt ∈ attempts, attempt.Writable reprText chart) :
    let records := runAll reprText chart attempts
    let cases := attempts.filterMap (Attempt.benchCase reprText chart)
    let errors := attempts.filter Attempt.errored
    loadCases (artifactText records) = some cases ∧
      ∃ summary, summarize records generated skipped = some summary ∧
        summary.scenariosRun = attempts.length ∧ summary.scenariosErrored = errors.length ∧
        cases.length + errors.length = attempts.length ∧
        (∀ fault, (summary.countsByFault.lookup fault).getD 0 =
          classSize fault cases + errors.countP (fun attempt => faultName attempt.scenario.fault =
            fault)) ∧
        total Prod.snd summary.countsByFault = attempts.length ∧
        summary.scenariosWithBreaks = cases.countP (·.moneyWasMissing) +
          errors.countP (fun attempt => !(attempt.breaks reprText chart).isEmpty) ∧
        total Prod.snd summary.breaksByKind =
          total (fun attempt => ((attempt.breaks reprText chart).length : ℤ)) attempts := by
  intro records cases errors
  obtain ⟨summary, hsummary, hrun, herrored, hfaults, hbreaks, hkinds⟩ :=
    summarize_runAll reprText chart attempts generated skipped
  refine ⟨loadCases_artifactText h, summary, hsummary, hrun, ?_, ?_, fun fault => ?_, ?_, ?_, ?_⟩
  · rw [herrored, List.countP_eq_length_filter]
  · have hall := countP_benchCase (p := fun _ : Attempt float => true) (q := fun _ => true)
      (fun attempt case (_ : attempt.benchCase reprText chart = some case) => rfl) attempts
    simpa only [List.countP_true] using hall
  · have hclass := countP_benchCase (p := fun attempt : Attempt float =>
      faultName attempt.scenario.fault = fault)
      (q := fun case => case.labelFault = fault)
      (fun attempt case (hcase : attempt.benchCase reprText chart = some case) => by
        rw [(benchCase_eq_some hcase).1]) attempts
    rw [hfaults, lookup_countsOf, List.count, List.countP_map]
    refine (congrArg (Nat.cast (R := ℤ)) (?_ : _ = _)).trans (Nat.cast_add _ _)
    rw [classSize, hclass]
    exact List.countP_congr fun attempt _ => by simp
  · rw [hfaults, total_countsOf, List.length_map]
  · rw [hbreaks]
    exact (countP_benchCase (fun attempt case hcase => (benchCase_eq_some hcase).2) attempts).symm
  · rw [hkinds, total_countsOf, List.length_flatten, List.map_map]
    rw [total, Nat.cast_list_sum, List.map_map]
    refine congrArg List.sum (List.map_congr_left fun attempt _ => ?_)
    rw [Function.comp_apply, Function.comp_apply, List.length_map]

/-! ### A payout that was lost, and a scenario that raised -/

lemma loaded_payoutDelta :
    Loaded IsFloat (.dict
      (dictOf [("balances_delta", changes thriceScenario.label.balancesDelta)])) :=
  loaded_dictOf (List.nodup_singleton _) fun f hf => by
    rw [List.mem_singleton.mp hf]
    exact loaded_changes (by decide +kernel)

/-- The payout with its label. -/
def labelledPayout : LabelledScenario floatOfInt where
  toDictScenario := thriceScenario
  labelDict := ⟨_, loaded_payoutDelta⟩
  balancesDelta := field_dictOf _ _

/-- A system that posts nothing, and one that is not there. -/
def lostAndRaised : List (Attempt floatOfInt) :=
  [.ran labelledPayout thricePlan lostReadings noExtras [],
   .raised labelledPayout "RuntimeError" "ingest did not start" ⟨.int 12,
     (by decide : Rendered 12)⟩]

theorem benchmark_of_run_lost :
    ∃ case, loadCases (artifactText (runAll quotedText seedChart lostAndRaised)) = some [case] ∧
      case.labelFault = "DUPLICATE" ∧ case.moneyWasMissing = true := by
  have hwritable : ∀ attempt ∈ lostAndRaised, attempt.Writable quotedText seedChart := by
    intro attempt hattempt
    simp only [lostAndRaised, List.mem_cons, List.not_mem_nil, or_false] at hattempt
    rcases hattempt with rfl | rfl
    · exact ⟨by decide +kernel, by decide +kernel, by decide +kernel⟩
    · trivial
  obtain ⟨hcases, -⟩ := benchmark_of_run quotedText seedChart lostAndRaised 2 [] hwritable
  refine ⟨_, hcases.trans rfl, ?_, ?_⟩
  · decide +kernel
  · decide +kernel

end LedgerProof.Triage
