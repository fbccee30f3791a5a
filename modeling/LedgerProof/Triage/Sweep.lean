import LedgerProof.Harness.Events
import LedgerProof.Triage.Report
import Mathlib.Data.Prod.Lex

/-!
# The sweep

`scripts/run_sweep.py`, with `call_cost` and `BudgetGuard` of `triage/bench.py`: each run asks one
model about all cases in a batch, and the results of a batch come back in any order.  Prices and
costs are exact rationals.

A result is recognised by its `custom_id`, so what the sweep reports does not depend on the order
(`sweep_any_order`).  The guard is asked before every batch, and its log adds up
(`sweep_within_cap`).
-/

namespace LedgerProof.Triage

open Harness (padded padded_injective)

/-! ## What a call costs -/

/-- The models. -/
inductive Model
  | opus
  | sonnet
  | haiku
  deriving DecidableEq, Repr

def Model.name : Model → String
  | .opus => "claude-opus-5"
  | .sonnet => "claude-sonnet-5"
  | .haiku => "claude-haiku-4-5"

/-- `PRICING`: dollars for a million tokens, in and out. -/
def Model.pricing : Model → ℚ × ℚ
  | .opus => (5, 25)
  | .sonnet => (3, 15)
  | .haiku => (1, 5)

/-- `CACHE_READ_MULTIPLIER`. -/
def cacheReadMultiplier : ℚ := 1 / 10

/-- `CACHE_WRITE_MULTIPLIER`. -/
def cacheWriteMultiplier : ℚ := 5 / 4

/-- `BATCH_MULTIPLIER`. -/
def batchMultiplier : ℚ := 1 / 2

/-- The usage of a call.  The counts of cached tokens may be missing, and then they are zero. -/
structure Usage where
  inputTokens : ℕ
  outputTokens : ℕ
  cacheReadInputTokens : Option ℕ
  cacheCreationInputTokens : Option ℕ
  deriving DecidableEq

/-- `call_cost`. -/
def callCost (model : Model) (usage : Usage) (batch : Bool) : ℚ :=
  let (inRate, outRate) := model.pricing
  let uncached := usage.inputTokens * inRate
  let cacheRead := usage.cacheReadInputTokens.getD 0 * inRate * cacheReadMultiplier
  let cacheWrite := usage.cacheCreationInputTokens.getD 0 * inRate * cacheWriteMultiplier
  let output := usage.outputTokens * outRate
  (uncached + cacheRead + cacheWrite + output) / 1000000 * (if batch then batchMultiplier else 1)

example : callCost .sonnet ⟨1000000, 100000, some 500000, none⟩ true = 93 / 40 := by decide +kernel

/-- A line of the usage log. -/
structure UsageLine where
  model : Model
  batch : Bool
  usage : Usage
  costUsd : ℚ
  runningTotalUsd : ℚ
  caseId : String
  stage : String
  effort : String
  deriving DecidableEq

/-- `BudgetGuard`, with its log. -/
structure BudgetGuard where
  capUsd : ℚ
  spentUsd : ℚ
  calls : ℕ
  log : List UsageLine
  deriving DecidableEq

/-- `BudgetExceeded`, with the numbers in its text. -/
structure BudgetExceeded where
  capUsd : ℚ
  spentUsd : ℚ
  projectedUsd : ℚ
  deriving DecidableEq

/-- `check`. -/
def BudgetGuard.check (guard : BudgetGuard) (projectedUsd : ℚ) : Except BudgetExceeded Unit :=
  if guard.capUsd < guard.spentUsd + projectedUsd then .error ⟨guard.capUsd, guard.spentUsd,
    projectedUsd⟩
  else .ok ()

/-- `record`. -/
def BudgetGuard.record (guard : BudgetGuard) (model : Model) (usage : Usage) (batch : Bool)
    (caseId stage effort : String) : ℚ × BudgetGuard :=
  let cost := callCost model usage batch
  let spent := guard.spentUsd + cost
  (cost,
    { guard with
      spentUsd := spent
      calls := guard.calls + 1
      log := guard.log ++ [⟨model, batch, usage, roundTo 6 cost, roundTo 6 spent, caseId, stage,
        effort⟩] })

/-! ## Collecting a batch -/

/-- A message of a model.  A block of its content is its type and its text. -/
structure Message where
  usage : Usage
  stopReason : Option String
  content : List (String × String)

/-- A result of a batch, with its message if the request succeeded. -/
structure BatchResult where
  customId : String
  message : Option Message

/-- `f"case-{index:05d}"`. -/
def customId (index : ℕ) : String := String.ofList ("case-".toList ++ padded 5 index)

example : customId 42 = "case-00042" := by decide

/-- The lookup that is built beside the requests. -/
def byTag (cases : List BenchCase) : Dict String BenchCase :=
  (cases.zipIdx.map fun c => (customId c.2, c.1)).foldl (fun tags t => tags.set t.1 t.2) Dict.empty

/-- A run: a model and an effort, and what the batch brings, in the order in which it comes. -/
structure SweepRun where
  model : Model
  effort : Option String
  results : List BatchResult

/-- `effort or "default"`. -/
def SweepRun.effortName (run : SweepRun) : String := (run.effort.filter (· ≠ "")).getD "default"

/-- `(model, effort)`. -/
def SweepRun.key (run : SweepRun) : String ×ₗ String := toLex (run.model.name, run.effortName)

/-- A line of the sweep's artifact, with the score that most of its fields are read off. -/
structure SweepLine where
  model : Model
  effort : String
  scored : Scored
  costUsd : ℚ
  parseError : Option String
  usage : Usage

/-- `parse_verdict`: the verdict in a text, or an error. -/
abbrev Parser := String → Option TriageVerdict × Option String

/-- What a message was parsed to, if it was not a refusal. -/
def Message.parsed (parse : Parser) (message : Message) : Option TriageVerdict × Option String :=
  if message.stopReason = some "refusal" then (none, none)
  else parse (String.join ((message.content.filter (·.1 = "text")).map (·.2)))

/-- The score of a message about a case. -/
def scoreMessage (parse : Parser) (model : Model) (reply : BenchCase × Message) : Scored :=
  score reply.1 (reply.2.parsed parse).1 0 (callCost model reply.2.usage true)
    (reply.2.stopReason = some "refusal")

/-- The line of a message about a case. -/
def lineOf (parse : Parser) (run : SweepRun) (reply : BenchCase × Message) : SweepLine :=
  ⟨run.model, run.effortName, scoreMessage parse run.model reply,
    roundTo 6 (callCost run.model reply.2.usage true), (reply.2.parsed parse).2, reply.2.usage⟩

/-- What `collect` returns, with what was written and recorded meanwhile. -/
structure Gathered where
  grouped : Dict (String ×ₗ String) (List Scored)
  guard : BudgetGuard
  artifact : List SweepLine

/-- A result that is a message about a case. -/
def replyOf (tags : Dict String BenchCase) (result : BatchResult) : Option (BenchCase × Message) :=
  match tags.get? result.customId, result.message with
  | some case, some message => some (case, message)
  | _, _ => none

/-- One turn of the loop of `collect`, for a message about a case. -/
def Gathered.take (parse : Parser) (run : SweepRun) (g : Gathered) (reply : BenchCase × Message) :
    Gathered :=
  { grouped := g.grouped.set run.key
      (g.grouped.getD run.key [] ++ [scoreMessage parse run.model reply])
    guard := (g.guard.record run.model reply.2.usage true reply.1.caseId "sweep" run.effortName).2
    artifact := g.artifact ++ [lineOf parse run reply] }

/-- One turn of the loop. -/
def collectOne (parse : Parser) (tags : Dict String BenchCase) (run : SweepRun) (g : Gathered)
    (result : BatchResult) : Gathered :=
  match replyOf tags result with
  | some reply => g.take parse run reply
  | none => g

/-- `collect`. -/
def collect (parse : Parser) (tags : Dict String BenchCase) (run : SweepRun) (guard : BudgetGuard)
    (artifact : List SweepLine) : Gathered :=
  run.results.foldl (collectOne parse tags run) ⟨Dict.empty, guard, artifact⟩

/-! ## The loop over the runs -/

/-- The local variables of `main`. -/
structure Sweep where
  results : Dict (String ×ₗ String) (List Scored)
  guard : BudgetGuard
  artifact : List SweepLine

/-- `results.setdefault(key, []).extend(scored)`. -/
def extend (results : Dict (String ×ₗ String) (List Scored))
    (item : (String ×ₗ String) × List Scored) :
    Dict (String ×ₗ String) (List Scored) :=
  results.set item.1 (results.getD item.1 [] ++ item.2)

/-- What a run does once its batch was submitted. -/
def Sweep.collected (parse : Parser) (cases : List BenchCase) (s : Sweep) (run : SweepRun) :
    Sweep :=
  let g := collect parse (byTag cases) run s.guard s.artifact
  ⟨g.grouped.items.foldl extend s.results, g.guard, g.artifact⟩

/-- `0.02 * len(requests)`. -/
def projected (cases : List BenchCase) : ℚ := 1 / 50 * cases.length

/-- The loop over the runs: where it ends, and with which exception. -/
def sweepFrom (parse : Parser) (cases : List BenchCase) :
    List SweepRun → Sweep → Sweep × Option BudgetExceeded
  | [], s => (s, none)
  | run :: runs, s =>
      match s.guard.check (projected cases) with
      | .error e => (s, some e)
      | .ok () => sweepFrom parse cases runs (s.collected parse cases run)

/-- The loop from its start. -/
def sweep (parse : Parser) (capUsd : ℚ) (cases : List BenchCase) (runs : List SweepRun) :
    Sweep × Option BudgetExceeded :=
  sweepFrom parse cases runs ⟨Dict.empty, ⟨capUsd, 0, 0, []⟩, []⟩

/-- The summary, but for its date and the name of the artifact. -/
structure Summary where
  cases : ℕ
  classificationCases : ℕ
  repairCases : ℕ
  capUsd : ℚ
  spentUsd : ℚ
  calls : ℕ
  runs : Dict String (Option Report)

/-- `f"{m}@{e}"`. -/
def runLabel (key : String ×ₗ String) : String := (ofLex key).1 ++ "@" ++ (ofLex key).2

/-- `main`, on the cases of the test side and of the repair stratum. -/
def sweepSummary (parse : Parser) (capUsd : ℚ) (test repair : List BenchCase)
    (runs : List SweepRun) :
    Except BudgetExceeded Summary :=
  let s := sweep parse capUsd (test ++ repair) runs
  match s.2 with
  | some e => .error e
  | none =>
      .ok
        { cases := (test ++ repair).length
          classificationCases := test.length
          repairCases := repair.length
          capUsd
          spentUsd := roundTo 4 s.1.guard.spentUsd
          calls := s.1.guard.calls
          runs := (sortedItems s.1.results).foldl (fun d i => d.set (runLabel i.1) (aggregate i.2))
            Dict.empty }

/-! ## Whose answer it is -/

section

variable {parse : Parser} {cases : List BenchCase} {run : SweepRun}

lemma customId_injective : Function.Injective customId := fun i j h => by
  have hpadded : padded 5 (i : ℤ) = padded 5 (j : ℤ) :=
    List.append_cancel_left (String.ofList_injective h)
  exact_mod_cast padded_injective 5 hpadded

/-- The ids of the requests. -/
def customIds (cases : List BenchCase) : List String := cases.zipIdx.map fun c => customId c.2

lemma customIds_nodup (cases : List BenchCase) : (customIds cases).Nodup := by
  have hids : customIds cases = (cases.zipIdx.map Prod.snd).map customId := by
    rw [List.map_map]
    rfl
  rw [hids, List.zipIdx_map_snd]
  exact List.Nodup.map customId_injective List.nodup_range'

/-- **The lookup has the cases under the ids of their requests.** -/
lemma byTag_items (cases : List BenchCase) :
    (byTag cases).items = cases.zipIdx.map fun c => (customId c.2, c.1) := by
  refine Dict.foldl_set_items ?_
  rw [List.map_map]
  exact customIds_nodup cases

lemma get?_byTag {c : BenchCase × ℕ} (hc : c ∈ cases.zipIdx) :
    (byTag cases).get? (customId c.2) = some c.1 := by
  rw [← Dict.mem_items_iff, byTag_items]
  exact List.mem_map.mpr ⟨c, hc, rfl⟩

lemma mem_customIds_iff {id : String} :
    id ∈ customIds cases ↔ ∃ case, (byTag cases).get? id = some case := by
  rw [← Dict.mem_keys_iff, Dict.keys, byTag_items, List.map_map]
  rfl

/-- What each case was answered: the messages that came back under the id of its request. -/
def replies (cases : List BenchCase) (results : List BatchResult) : List (BenchCase × Message) :=
  cases.zipIdx.flatMap fun c =>
    (results.filter fun r => r.customId = customId c.2).filterMap fun r => r.message.map fun m =>
    (c.1, m)

lemma replyOf_eq {c : BenchCase × ℕ} (hc : c ∈ cases.zipIdx) {r : BatchResult}
    (hr : r.customId = customId c.2) :
    replyOf (byTag cases) r = r.message.map fun m => (c.1, m) := by
  rw [replyOf, hr, get?_byTag hc]
  cases r.message <;> rfl

/-- **Every message is taken for the case it was asked about**, in whatever order the results
come. -/
lemma filterMap_replyOf_perm (cases : List BenchCase) (results : List BatchResult) :
    (results.filterMap (replyOf (byTag cases))).Perm (replies cases results) := by
  have hknown : results.filterMap (replyOf (byTag cases)) =
      (results.filter fun r => r.customId ∈ customIds cases).filterMap (replyOf (byTag cases)) := by
    rw [List.filterMap_filter]
    refine List.filterMap_congr fun r _ => ?_
    split_ifs with hmem
    · rfl
    · have hnone : (byTag cases).get? r.customId = none := by
        rw [Option.eq_none_iff_forall_ne_some]
        exact fun case hcase => hmem (decide_eq_true (mem_customIds_iff.mpr ⟨case, hcase⟩))
      rw [replyOf, hnone]
  have hgroup : ∀ c ∈ cases.zipIdx, ((results.filter fun r => r.customId ∈ customIds cases).filter
      fun r => r.customId = customId c.2) = results.filter fun r => r.customId = customId c.2 :=
        fun c hc => by
    have hid : customId c.2 ∈ customIds cases := List.mem_map_of_mem hc
    rw [List.filter_filter]
    refine List.filter_congr fun r _ => ?_
    by_cases hr : r.customId = customId c.2
    · simp [hr, hid]
    · simp [hr]
  have hgroups := flatMap_filter_perm (customIds_nodup cases) (·.customId)
    (results.filter fun r => r.customId ∈ customIds cases) fun r hr =>
      of_decide_eq_true (List.mem_filter.mp hr).2
  rw [hknown]
  refine (hgroups.symm.filterMap _).trans (List.Perm.of_eq ?_)
  rw [List.filterMap_flatMap]
  refine (List.flatMap_map ..).trans (List.flatMap_congr fun c hc => ?_)
  rw [hgroup c hc]
  exact List.filterMap_congr fun r hr => replyOf_eq hc (of_decide_eq_true (List.mem_filter.mp hr).2)

end

/-! ## What a batch brings -/

/-- The scores of a run. -/
def scoresOf (parse : Parser) (cases : List BenchCase) (run : SweepRun) : List Scored :=
  (replies cases run.results).map (scoreMessage parse run.model)

/-- What a message costs. -/
def replyCost (model : Model) (reply : BenchCase × Message) : ℚ := callCost model reply.2.usage true

/-- What a run costs. -/
def costOf (cases : List BenchCase) (run : SweepRun) :
    ℚ := total (replyCost run.model) (replies cases run.results)

/-- The cost of a logged call. -/
def UsageLine.cost (line : UsageLine) : ℚ := callCost line.model line.usage line.batch

/-- The guard's numbers are those of its log, and each line has the total up to it. -/
structure BudgetGuard.AddsUp (guard : BudgetGuard) : Prop where
  calls : guard.calls = guard.log.length
  spentUsd : guard.spentUsd = total UsageLine.cost guard.log
  lines : ∀ i line, guard.log[i]? = some line → line.costUsd = roundTo 6 line.cost ∧
    line.runningTotalUsd = roundTo 6 (total UsageLine.cost (guard.log.take (i + 1)))

section

variable {parse : Parser} {cases : List BenchCase} {run : SweepRun} {guard : BudgetGuard}

lemma BudgetGuard.AddsUp.record (h : guard.AddsUp) (model : Model) (usage : Usage) (batch : Bool)
    (caseId stage effort : String) :
    (guard.record model usage batch caseId stage effort).2.AddsUp := by
  unfold BudgetGuard.record
  refine ⟨?_, ?_, fun i line hline => ?_⟩
  · dsimp only
    rw [h.calls, List.length_append, List.length_singleton]
  · dsimp only
    rw [total_append, total_singleton, h.spentUsd]
    rfl
  · dsimp only at hline ⊢
    rcases Nat.lt_trichotomy i guard.log.length with hi | rfl | hi
    · rw [List.getElem?_append_left hi] at hline
      rw [List.take_append_of_le_length (Nat.succ_le_of_lt hi)]
      exact h.lines i line hline
    · rw [List.getElem?_concat_length] at hline
      obtain rfl := Option.some_inj.mp hline
      rw [List.take_of_length_le (by simp), total_append, total_singleton, ← h.spentUsd]
      exact ⟨rfl, rfl⟩
    · rw [List.getElem?_eq_none (by simpa using hi)] at hline
      exact absurd hline (by simp)

/-- What is gathered of some messages. -/
structure Gathered.Holds (parse : Parser) (run : SweepRun) (guard : BudgetGuard)
    (artifact : List SweepLine) (g : Gathered) (messages : List (BenchCase × Message)) : Prop where
  grouped : g.grouped.items =
    if messages = [] then [] else [(run.key, messages.map (scoreMessage parse run.model))]
  capUsd : g.guard.capUsd = guard.capUsd
  spentUsd : g.guard.spentUsd = guard.spentUsd + total (replyCost run.model) messages
  calls : g.guard.calls = guard.calls + messages.length
  addsUp : guard.AddsUp → g.guard.AddsUp
  artifact : g.artifact = artifact ++ messages.map (lineOf parse run)

lemma Gathered.Holds.take {artifact : List SweepLine} {g : Gathered}
    {messages : List (BenchCase × Message)} (h : g.Holds parse run guard artifact messages)
    (reply : BenchCase × Message) :
    (g.take parse run reply).Holds parse run guard artifact (messages ++ [reply]) := by
  refine ⟨?_, h.capUsd, ?_, ?_, fun hguard => (h.addsUp hguard).record .., ?_⟩
  · rw [if_neg (by simp), List.map_append, List.map_singleton]
    have hgrouped := h.grouped
    by_cases hnil : messages = []
    · -- the first message of the batch
      subst hnil
      have hempty : g.grouped.items = [] := hgrouped
      have hnot : run.key ∉ g.grouped.keys := by simp [Dict.keys, hempty]
      rw [Gathered.take, Dict.set_items_of_not_mem hnot, Dict.getD_eq_of_not_mem hnot, hempty]
      rfl
    · rw [if_neg hnil] at hgrouped
      have hget : g.grouped.getD run.key [] = messages.map (scoreMessage parse run.model) := by
        have hitem : g.grouped.get? run.key =
            some (messages.map (scoreMessage parse run.model)) := by
          rw [← Dict.mem_items_iff, hgrouped]
          exact List.mem_singleton_self _
        rw [Dict.getD, hitem, Option.getD_some]
      rw [Gathered.take, Dict.set_items_of_last (by rw [hgrouped, List.nil_append]), hget,
        List.nil_append]
  · rw [total_append, total_singleton, ← add_assoc, ← h.spentUsd]
    rfl
  · rw [List.length_append, List.length_singleton, ← add_assoc, ← h.calls]
    rfl
  · rw [List.map_append, ← List.append_assoc, ← h.artifact]
    rfl

/-- **What `collect` gathers**, of the messages about cases. -/
lemma collect_holds (parse : Parser) (cases : List BenchCase) (run : SweepRun) (guard : BudgetGuard)
    (artifact : List SweepLine) :
    (collect parse (byTag cases) run guard artifact).Holds parse run guard artifact
      (run.results.filterMap (replyOf (byTag cases))) := by
  have hfold : collect parse (byTag cases) run guard artifact =
      (run.results.filterMap (replyOf (byTag cases))).foldl (Gathered.take parse run)
        ⟨Dict.empty, guard, artifact⟩ := by
    rw [List.foldl_filterMap, collect]
    congr 1
    funext g result
    rw [collectOne]
    cases replyOf (byTag cases) result <;> rfl
  rw [hfold]
  induction run.results.filterMap (replyOf (byTag cases)) using List.reverseRecOn with
  | nil => exact ⟨rfl, rfl, (add_zero _).symm, rfl, id, (List.append_nil _).symm⟩
  | append_singleton messages reply ih =>
      rw [List.foldl_append]
      exact ih.take reply

end

/-! ## What the sweep holds -/

/-- What the sweep holds after these runs. -/
structure Sweep.Holds (parse : Parser) (capUsd : ℚ) (cases : List BenchCase) (s : Sweep)
    (done : List SweepRun) :
    Prop where
  results : ∀ key, (s.results.getD key []).Perm
    (done.flatMap fun run => if run.key = key then scoresOf parse cases run else [])
  present : ∀ key ∈ s.results.keys, s.results.getD key [] ≠ []
  capUsd : s.guard.capUsd = capUsd
  spentUsd : s.guard.spentUsd = total (costOf cases) done
  calls : s.guard.calls = (done.flatMap fun run => replies cases run.results).length
  addsUp : s.guard.AddsUp
  artifact : s.artifact.Perm (done.flatMap fun run =>
    (replies cases run.results).map (lineOf parse run))

section

variable {parse : Parser} {capUsd : ℚ} {cases : List BenchCase} {s : Sweep} {done : List SweepRun}

/-- **One run.** -/
lemma Sweep.Holds.collected (h : s.Holds parse capUsd cases done) (run : SweepRun) :
    (s.collected parse cases run).Holds parse capUsd cases (done ++ [run]) := by
  have hg := collect_holds parse cases run s.guard s.artifact
  have hperm := filterMap_replyOf_perm cases run.results
  have hresults : (s.collected parse cases run).results =
      if run.results.filterMap (replyOf (byTag cases)) = [] then s.results
      else extend s.results (run.key, (run.results.filterMap (replyOf (byTag cases))).map
        (scoreMessage parse run.model)) := by
    rw [Sweep.collected, hg.grouped]
    split_ifs <;> rfl
  generalize hmessages : run.results.filterMap (replyOf (byTag cases)) =
    messages at hg hperm hresults
  have hscores : (messages.map (scoreMessage parse run.model)).Perm (scoresOf parse cases run) :=
    hperm.map _
  refine ⟨fun key => ?_, fun key hkey => ?_, hg.capUsd.trans h.capUsd, ?_, ?_, hg.addsUp h.addsUp,
    ?_⟩
  · rw [List.flatMap_append, List.flatMap_singleton, hresults]
    split_ifs with hnil hrun hrun
    · rw [hnil] at hscores
      rw [List.nil_perm.mp hscores, List.append_nil]
      exact h.results key
    · rw [List.append_nil]
      exact h.results key
    · rw [extend, Dict.getD, Dict.get?_set, if_pos hrun, Option.getD_some, hrun]
      exact (h.results key).append hscores
    · rw [extend, Dict.getD, Dict.get?_set, if_neg hrun, List.append_nil]
      exact h.results key
  · rw [hresults] at hkey ⊢
    split_ifs at hkey ⊢ with hnil
    · exact h.present key hkey
    · rw [extend, Dict.getD, Dict.get?_set]
      by_cases hrun : run.key = key
      · rw [if_pos hrun, Option.getD_some]
        simp [hnil]
      · rw [if_neg hrun]
        exact h.present key ((Dict.mem_keys_set.mp hkey).resolve_left (Ne.symm hrun))
  · rw [total_append, total_singleton, ← h.spentUsd]
    exact hg.spentUsd.trans (congrArg (s.guard.spentUsd + ·) (total_perm hperm))
  · rw [List.flatMap_append, List.flatMap_singleton, List.length_append, ← h.calls,
      ← hperm.length_eq]
    exact hg.calls
  · rw [List.flatMap_append, List.flatMap_singleton]
    exact (List.Perm.of_eq hg.artifact).trans (h.artifact.append (hperm.map _))

/-- Each run was checked before its batch was submitted. -/
def Cleared (capUsd : ℚ) (cases : List BenchCase) (done : List SweepRun) : Prop :=
  ∀ earlier run later, done = earlier ++ run :: later →
    total (costOf cases) earlier + projected cases ≤ capUsd

/-- The loop ended after these runs: there are no more, or the guard stopped it. -/
def EndsAfter (capUsd : ℚ) (cases : List BenchCase) (done rest : List SweepRun)
    (stop : Option BudgetExceeded) : Prop :=
  match stop with
  | none => rest = []
  | some e => rest ≠ [] ∧ capUsd < total (costOf cases) done + projected cases ∧
      e = ⟨capUsd, total (costOf cases) done, projected cases⟩

lemma Cleared.concat (h : Cleared capUsd cases done) (run : SweepRun)
    (hrun : total (costOf cases) done + projected cases ≤ capUsd) :
    Cleared capUsd cases (done ++ [run]) := by
  intro earlier r later heq
  rcases List.eq_nil_or_concat later with rfl | ⟨later, last, rfl⟩
  · obtain ⟨rfl, -⟩ := List.append_inj' heq rfl
    exact hrun
  · rw [List.concat_eq_append, ← List.cons_append, ← List.append_assoc] at heq
    exact h earlier r later (List.append_inj' heq rfl).1

lemma Sweep.Holds.check_eq (h : s.Holds parse capUsd cases done) :
    s.guard.check (projected cases) =
      if capUsd < total (costOf cases) done + projected cases then
        .error ⟨capUsd, total (costOf cases) done, projected cases⟩
      else .ok () := by
  rw [BudgetGuard.check, h.capUsd, h.spentUsd]

/-- **The loop over the runs.** -/
lemma sweepFrom_spec (h : s.Holds parse capUsd cases done) (hcleared : Cleared capUsd cases done)
    (runs : List SweepRun) :
    ∃ more rest, runs = more ++ rest ∧
      (sweepFrom parse cases runs s).1.Holds parse capUsd cases (done ++ more) ∧
      Cleared capUsd cases (done ++ more) ∧
      EndsAfter capUsd cases (done ++ more) rest (sweepFrom parse cases runs s).2 := by
  induction runs generalizing s done with
  | nil =>
      rw [sweepFrom]
      exact ⟨[], [], rfl, by simpa using h, by simpa using hcleared, rfl⟩
  | cons run runs ih =>
      rw [sweepFrom, h.check_eq]
      split_ifs with hover
      · exact ⟨[], run :: runs,
          rfl, by simpa using h, by simpa using hcleared, by simp, by simpa using hover, by simp⟩
      · obtain ⟨more, rest, rfl, hholds, hmore, hends⟩ :=
          ih (h.collected run) (hcleared.concat run (not_lt.mp hover))
        rw [List.append_assoc] at hholds hmore hends
        exact ⟨run :: more, rest, rfl, hholds, hmore, hends⟩

lemma sweep_start (parse : Parser) (capUsd : ℚ) (cases : List BenchCase) :
    (⟨Dict.empty, ⟨capUsd, 0, 0, []⟩, []⟩ : Sweep).Holds parse capUsd cases [] := by
  refine ⟨fun key => List.Perm.refl [], fun key hkey => absurd hkey ?_, rfl, rfl, rfl,
    ⟨rfl, rfl, ?_⟩, List.Perm.refl []⟩
  · simp [Dict.keys, Dict.empty]
  · simp

end

/-- **The cap is checked before every batch**, over exact rationals.  Whatever the results of the
batches, the sweep submits the batches of its first runs, as long as what was spent and two cents
for each case are within the cap, and stops for good at the first run for which they are not; so
what it has spent in the end is over the cap at most by what the last batch cost more than that.
The guard has recorded each message about a case once, and every line of its log has the total of
the lines up to it. -/
theorem sweep_within_cap (parse : Parser) (capUsd : ℚ) (cases : List BenchCase)
    (runs : List SweepRun) :
    let s := sweep parse capUsd cases runs
    ∃ done rest, runs = done ++ rest ∧ Cleared capUsd cases done ∧
      EndsAfter capUsd cases done rest s.2 ∧
      s.1.guard.spentUsd = total (costOf cases) done ∧
      (∀ earlier run, done = earlier ++ [run] →
        s.1.guard.spentUsd ≤ capUsd + (costOf cases run - projected cases)) ∧
      s.1.guard.calls = (done.flatMap fun run => replies cases run.results).length ∧
        s.1.guard.AddsUp := by
  intro s
  obtain ⟨done, rest, hruns, hholds, hcleared, hends⟩ :=
    sweepFrom_spec (sweep_start parse capUsd cases) (fun _ _ _ h => by simp at h) runs
  rw [List.nil_append] at hholds hcleared hends
  refine ⟨done, rest, hruns, hcleared, hends, hholds.spentUsd, fun earlier run hdone => ?_,
    hholds.calls, hholds.addsUp⟩
  have hbefore := hcleared earlier run [] hdone
  have hspent : s.1.guard.spentUsd = total (costOf cases) earlier + costOf cases run :=
    hholds.spentUsd.trans (by rw [hdone, total_append, total_singleton])
  linarith

/-! ## The order of the results -/

/-- The same run, whose results came in another order. -/
structure SweepRun.Reordered (run run' : SweepRun) : Prop where
  model : run.model = run'.model
  effort : run.effort = run'.effort
  results : run.results.Perm run'.results

section

variable {parse : Parser} {capUsd : ℚ} {cases : List BenchCase} {s s' : Sweep} {run run' : SweepRun}
  {done done' runs runs' : List SweepRun}

lemma SweepRun.Reordered.key_eq (h : run.Reordered run') : run.key = run'.key := by
  rw [SweepRun.key, SweepRun.key, SweepRun.effortName, SweepRun.effortName, h.model, h.effort]

lemma SweepRun.Reordered.replies (h : run.Reordered run') (cases : List BenchCase) :
    (replies cases run.results).Perm (Triage.replies cases run'.results) :=
  (filterMap_replyOf_perm cases run.results).symm.trans
    ((h.results.filterMap _).trans (filterMap_replyOf_perm cases run'.results))

lemma SweepRun.Reordered.scores (h : run.Reordered run') (parse : Parser) (cases : List BenchCase) :
    (scoresOf parse cases run).Perm (scoresOf parse cases run') := by
  rw [scoresOf, scoresOf, h.model]
  exact (h.replies cases).map _

lemma SweepRun.Reordered.cost (h : run.Reordered run') (cases : List BenchCase) :
    costOf cases run = costOf cases run' := by
  rw [costOf, costOf, h.model]
  exact total_perm (h.replies cases)

lemma SweepRun.Reordered.lines (h : run.Reordered run') (parse : Parser) (cases : List BenchCase) :
    ((Triage.replies cases run.results).map (lineOf parse run)).Perm
      ((Triage.replies cases run'.results).map (lineOf parse run')) := by
  have hline : lineOf parse run = lineOf parse run' := by
    funext reply
    rw [lineOf, lineOf, SweepRun.effortName, SweepRun.effortName, h.model, h.effort]
  rw [hline]
  exact (h.replies cases).map _

/-- What reordered runs bring, run by run. -/
lemma flatMap_perm {α : Type} {f f' : SweepRun → List α}
    (h : List.Forall₂ SweepRun.Reordered done done')
    (hf : ∀ run run', run.Reordered run' → (f run).Perm (f' run')) :
    (done.flatMap f).Perm (done'.flatMap f') := by
  induction h with
  | nil => exact List.Perm.refl []
  | cons hrun _ ih =>
      rw [List.flatMap_cons, List.flatMap_cons]
      exact (hf _ _ hrun).append ih

lemma total_costOf_eq (h : List.Forall₂ SweepRun.Reordered done done') :
    total (costOf cases) done = total (costOf cases) done' := by
  induction h with
  | nil => rfl
  | cons hrun _ ih => rw [total_cons, total_cons, hrun.cost cases, ih]

/-- **Two sweeps in step**: the guard lets both go on, or stops both. -/
lemma sweepFrom_in_step (h : s.Holds parse capUsd cases done)
    (h' : s'.Holds parse capUsd cases done') (hdone : List.Forall₂ SweepRun.Reordered done done')
    (hruns : List.Forall₂ SweepRun.Reordered runs runs') :
    (sweepFrom parse cases runs s).2 = (sweepFrom parse cases runs' s').2 ∧
      ∃ all all', List.Forall₂ SweepRun.Reordered all all' ∧
        (sweepFrom parse cases runs s).1.Holds parse capUsd cases all ∧
        (sweepFrom parse cases runs' s').1.Holds parse capUsd cases all' := by
  induction hruns generalizing s s' done done' with
  | nil => exact ⟨rfl, done, done', hdone, h, h'⟩
  | @cons run run' runs runs' hrun _ ih =>
      rw [sweepFrom, sweepFrom, h.check_eq, h'.check_eq, total_costOf_eq hdone]
      split_ifs with hover
      · exact ⟨rfl, done, done', hdone, h, h'⟩
      · exact ih (h.collected run) (h'.collected run') (List.rel_append hdone (.cons hrun .nil))

lemma Sweep.Holds.mem_keys_iff (h : s.Holds parse capUsd cases done) {key : String ×ₗ String} :
    key ∈ s.results.keys ↔ s.results.getD key [] ≠ [] := by
  refine ⟨h.present key, fun hne => ?_⟩
  by_contra hnot
  exact hne (Dict.getD_eq_of_not_mem hnot)

/-- **Reordered runs have the same reports.** -/
lemma reports_eq (h : s.Holds parse capUsd cases done) (h' : s'.Holds parse capUsd cases done')
    (hdone : List.Forall₂ SweepRun.Reordered done done') :
    ((sortedItems s.results).map fun i => (i.1, aggregate i.2)) =
      (sortedItems s'.results).map fun i => (i.1, aggregate i.2) := by
  have hresults : ∀ key, (s.results.getD key []).Perm (s'.results.getD key []) := fun key => by
    refine (h.results key).trans ((flatMap_perm hdone fun run run' hrun => ?_).trans
      (h'.results key).symm)
    rw [hrun.key_eq]
    split_ifs
    · exact hrun.scores parse cases
    · exact List.Perm.refl []
  have hkeys : sortOn id s.results.keys = sortOn id s'.results.keys := by
    refine sortOn_id_eq_of_perm
      ((List.perm_ext_iff_of_nodup (Dict.keys_nodup _) (Dict.keys_nodup _)).mpr fun key => ?_)
    rw [h.mem_keys_iff, h'.mem_keys_iff, Ne, Ne, nil_iff_of_perm (hresults key)]
  rw [sortedItems_map _ aggregate [], sortedItems_map _ aggregate [], hkeys]
  exact List.map_congr_left fun key _ => by rw [aggregate_perm (hresults key)]

end

/-- **The order of the results does not matter, and no answer goes to another case**, over exact
rationals, whose sums do not depend on the order.  If the results of every batch came in another
order, with results for unknown ids, repeated ones and failed ones among them, the sweep would end
with the same summary, or be stopped at the same run with the same numbers, and its artifact would
have the same lines.  And what it has scored for a model and an effort is, for each case, each
message that came back under the id of the case's request, scored against this case. -/
theorem sweep_any_order (parse : Parser) (capUsd : ℚ) (test repair : List BenchCase)
    {runs runs' : List SweepRun} (h : List.Forall₂ SweepRun.Reordered runs runs') :
    let cases := test ++ repair
    let s := sweep parse capUsd cases runs
    sweepSummary parse capUsd test repair runs = sweepSummary parse capUsd test repair runs' ∧
      s.1.artifact.Perm (sweep parse capUsd cases runs').1.artifact ∧
      ∃ done rest, runs = done ++ rest ∧ EndsAfter capUsd cases done rest s.2 ∧
        ∀ key, (s.1.results.getD key []).Perm (done.flatMap fun run => if run.key = key then
          (replies cases run.results).map (scoreMessage parse run.model) else []) := by
  intro cases s
  have hstart := sweep_start parse capUsd (test ++ repair)
  obtain ⟨hstop, all, all', hall, hholds, hholds'⟩ := sweepFrom_in_step hstart hstart .nil h
  obtain ⟨done, rest, hruns, hdone, -, hends⟩ :=
    sweepFrom_spec hstart (fun _ _ _ h => by simp at h) runs
  refine ⟨?_, ?_, done, rest, hruns, hends, hdone.results⟩
  · unfold sweepSummary sweep
    dsimp only
    rw [hstop]
    cases (sweepFrom parse (test ++ repair) runs' _).2 with
    | some e => rfl
    | none =>
        have hspent := hholds.spentUsd.trans ((total_costOf_eq hall).trans hholds'.spentUsd.symm)
        have hcalls := hholds.calls.trans
          ((flatMap_perm hall fun run run' hrun => hrun.replies (test ++ repair)).length_eq.trans
            hholds'.calls.symm)
        have hreports := congrArg
          (List.foldl (fun (d : Dict String (Option Report)) i => d.set (runLabel i.1) i.2)
            Dict.empty)
          (reports_eq hholds hholds' hall)
        rw [List.foldl_map, List.foldl_map] at hreports
        rw [hspent, hcalls, hreports]
  · exact hholds.artifact.trans
      ((flatMap_perm hall fun run run' hrun => hrun.lines parse (test ++ repair)).trans
        hholds'.artifact.symm)

/-! ### Two results that come the other way round -/

/-- Two cases about the lost charge. -/
def twoCases : List BenchCase := [lostCharge, { lostCharge with caseId := "drop-2" }]

/-- Every answer is the drop. -/
def dropParser : Parser := fun _ => (some (dropVerdict chargeEntries), none)

/-- An answer under the id of a request. -/
def answered (index : ℕ) (stopReason : String) : BatchResult :=
  ⟨customId index, some ⟨⟨2000, 300, none, none⟩, some stopReason, [("text", "\x7b\x7d")]⟩⟩

/-- The results of the two requests: the first one is refused. -/
def twoResults : SweepRun := ⟨.opus, none, [answered 0 "refusal", answered 1 "end_turn"]⟩

/-- The other way round. -/
def swappedResults : SweepRun := ⟨.opus, none, [answered 1 "end_turn", answered 0 "refusal"]⟩

theorem sweep_any_order_swapped :
    sweepSummary dropParser 20 twoCases [] [twoResults] = sweepSummary dropParser 20 twoCases []
      [swappedResults] := by
  have hswapped : twoResults.Reordered swappedResults := ⟨rfl, rfl, List.Perm.swap ..⟩
  exact (sweep_any_order dropParser 20 twoCases [] (.cons hswapped .nil)).1

example : (sweepSummary dropParser 20 twoCases [] [twoResults]).toOption.map (fun s =>
    (s.calls, s.spentUsd)) =
    some (2, 7 / 400) := by decide +kernel

end LedgerProof.Triage
