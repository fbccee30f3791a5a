import LedgerProof.Lib.Sorting
import LedgerProof.Triage.Approve
import Mathlib.Data.String.Basic

/-!
# The benchmark's report

`aggregate` of `triage/bench.py`: the numbers that a benchmark run is summed up in, over exact
rationals.

They depend on which answers were scored and not on the order they came in (`aggregate_perm`), and
those of one report add up (`report_adds_up`).
-/

namespace LedgerProof.Triage

/-! ## The numbers -/

/-- `_repair_metrics`.  What is only reported over some of the cases is missing if there are
none. -/
structure RepairMetrics where
  repairStratumN : ℕ
  falseRepairRate : Option ℚ
  /-- The rate over the fixable cases, and how many these are. -/
  repairRestoresExpectedBalances : Option (ℚ × ℕ)
  /-- How many unfixable cases there are, and the rate over these. -/
  claimedToFixTheUnfixable : Option (ℕ × ℚ)
  deriving DecidableEq

/-- What `aggregate` returns for at least one case. -/
structure Report where
  n : ℕ
  answered : ℕ
  refused : ℕ
  accuracyAt1 : ℚ
  accuracyAt3 : ℚ
  overRepairRate : ℚ
  repairProposed : ℕ
  repairBalanced : ℕ
  repair : RepairMetrics
  meanConfidence : ℚ
  latencyP50S : ℚ
  latencyP95S : ℚ
  costUsdTotal : ℚ
  costUsdPerScenario : ℚ
  accuracyByFault : List (String × ℚ)
  confusion : List (String × List (String × ℤ))
  deriving DecidableEq

/-- `sum(p(s) for s in scored)`. -/
def countOf (p : Scored → Bool) (scored : List Scored) : ℕ := scored.countP p

/-- `bool(x)` of an optional flag. -/
def flagged : Option Bool → Bool
  | some b => b
  | none => false

/-- `s.repair_correct is not None or s.false_repair is not None`. -/
def Scored.inStratum (s : Scored) : Bool := s.repairCorrect.isSome || s.falseRepair.isSome

/-- The cases of the repair stratum. -/
def repairStratum (scored : List Scored) : List Scored := scored.filter Scored.inStratum

/-- `_repair_metrics`. -/
def repairMetrics (scored : List Scored) : RepairMetrics :=
  let repairable := repairStratum scored
  let fixable := repairable.filter fun s => s.claimedToFixTheUnfixable.isNone
  let unfixable := repairable.filter fun s => s.claimedToFixTheUnfixable.isSome
  if repairable = [] then ⟨0, none, none, none⟩
  else
    { repairStratumN := repairable.length
      falseRepairRate :=
        some (roundTo 4 (countOf (fun s => flagged s.falseRepair) repairable / repairable.length))
      repairRestoresExpectedBalances :=
        if fixable = [] then none
        else some (roundTo 4 (countOf (fun s => flagged s.repairCorrect) fixable / fixable.length),
          fixable.length)
      claimedToFixTheUnfixable :=
        if unfixable = [] then none
        else some (unfixable.length,
          roundTo 4 (countOf (fun s => flagged s.claimedToFixTheUnfixable) unfixable /
            unfixable.length)) }

/-- One turn of the loop of `_confusion`. -/
def confuse (matrix : Dict String (Dict String ℤ)) (s : Scored) : Dict String (Dict String ℤ) :=
  match s.predicted with
  | none => matrix
  | some predicted =>
      let counter := matrix.getD s.labelFault Dict.empty
      matrix.set s.labelFault (counter.set predicted (counter.getD predicted 0 + 1))

/-- `_confusion`. -/
def confusion (scored : List Scored) : List (String × List (String × ℤ)) :=
  (sortedItems (scored.foldl confuse Dict.empty)).map fun row => (row.1, sortedItems row.2)

/-- `statistics.median` of a sorted list. -/
def median (xs : List ℚ) : ℚ :=
  if xs.length % 2 = 1 then xs.getD (xs.length / 2) 0
  else (xs.getD (xs.length / 2 - 1) 0 + xs.getD (xs.length / 2) 0) / 2

/-- The 95th percentile of a sorted list. -/
def percentile95 (xs : List ℚ) : ℚ := xs.getD (min (xs.length - 1) (19 * xs.length / 20)) 0

/-- `accuracy_by_fault`. -/
def accuracyByFault (scored : List Scored) : List (String × ℚ) :=
  (sortOn id (scored.map (·.labelFault)).dedup).map fun fault =>
    (fault, roundTo 4 (countOf (·.correctAt1) (scored.filter (·.labelFault = fault)) /
      max 1 (countOf (·.labelFault = fault) scored)))

/-- `aggregate`, and nothing but `n` for no case. -/
def aggregate (scored : List Scored) : Option Report :=
  if scored = [] then none
  else
    let n := scored.length
    let latencies := sortOn id (scored.map (·.latencyS))
    let answered := scored.filter (·.predicted.isSome)
    some
      { n
        answered := answered.length
        refused := countOf (·.refused) scored
        accuracyAt1 := roundTo 4 (countOf (·.correctAt1) scored / n)
        accuracyAt3 := roundTo 4 (countOf (·.correctAt3) scored / n)
        overRepairRate := roundTo 4 (countOf (·.overRepair) scored / n)
        repairProposed := countOf (·.proposedRepair) scored
        repairBalanced := countOf (·.repairBalanced) scored
        repair := repairMetrics scored
        meanConfidence := if answered = [] then 0
          else roundTo 4 (total (·.confidence) answered / answered.length)
        latencyP50S := roundTo 3 (median latencies)
        latencyP95S := roundTo 3 (percentile95 latencies)
        costUsdTotal := roundTo 4 (total (·.costUsd) scored)
        costUsdPerScenario := roundTo 6 (total (·.costUsd) scored / n)
        accuracyByFault := accuracyByFault scored
        confusion := confusion scored }

/-! ## The confusion matrix -/

section

variable {scored scored' : List Scored}

/-- How often a class was answered where another was right. -/
def timesAnswered (label answer : String) (scored : List Scored) : ℕ :=
  countOf (fun s => s.labelFault = label ∧ s.predicted = some answer) scored

/-- What a count is in the matrix: nothing where it is zero. -/
def counted (n : ℕ) : Option ℤ := if n = 0 then none else some n

lemma counted_succ (n : ℕ) : counted (n + 1) = some ((counted n).getD 0 + 1) := by
  unfold counted
  rcases n.eq_zero_or_pos with rfl | hpos
  · rfl
  · rw [if_neg (Nat.succ_ne_zero n), if_neg hpos.ne']
    rfl

/-- A row of the matrix: the counts of a class, if it was answered at all. -/
def RowOf (scored : List Scored) (label : String) (row : Option (Dict String ℤ)) : Prop :=
  (row.isSome = true ↔ ∃ s ∈ scored, s.labelFault = label ∧ s.predicted.isSome = true) ∧
    ∀ answer, (row.getD Dict.empty).get? answer = counted (timesAnswered label answer scored)

lemma timesAnswered_concat (label answer : String) (scored : List Scored) (s : Scored) :
    timesAnswered label answer (scored ++ [s]) = timesAnswered label answer scored +
      if s.labelFault = label ∧ s.predicted = some answer then 1 else 0 := by
  rw [timesAnswered, countOf, List.countP_append, List.countP_singleton]
  simp only [decide_eq_true_eq]
  rfl

/-- **One answer is one count.** -/
lemma RowOf.concat {matrix : Dict String (Dict String ℤ)} {label : String}
    (h : ∀ label, RowOf scored label (matrix.get? label)) (s : Scored) :
    RowOf (scored ++ [s]) label ((confuse matrix s).get? label) := by
  have hmem : (∃ s' ∈ scored ++ [s], s'.labelFault = label ∧ s'.predicted.isSome = true) ↔
      (∃ s' ∈ scored, s'.labelFault = label ∧ s'.predicted.isSome = true) ∨
        (s.labelFault = label ∧ s.predicted.isSome = true) := by
    simp only [List.mem_append, List.mem_singleton, or_and_right, exists_or, exists_eq_left]
  obtain ⟨hsome, hcounts⟩ := h label
  unfold RowOf
  rw [hmem, ← hsome]
  simp only [timesAnswered_concat]
  cases hpredicted : s.predicted with
  | none =>
      have hsame : confuse matrix s = matrix := by rw [confuse, hpredicted]
      rw [hsame]
      exact ⟨by simp, fun answer => by simpa using hcounts answer⟩
  | some predicted =>
      have hnext : confuse matrix s = matrix.set s.labelFault
          ((matrix.getD s.labelFault Dict.empty).set predicted
            ((matrix.getD s.labelFault Dict.empty).getD predicted 0 + 1)) := by
              rw [confuse, hpredicted]
      rw [hnext, Dict.get?_set]
      by_cases hlabel : s.labelFault = label
      · rw [if_pos hlabel, hlabel]
        refine ⟨by simp, fun answer => ?_⟩
        rw [Option.getD_some, Dict.get?_set]
        by_cases hanswer : predicted = answer
        · subst hanswer
          rw [if_pos rfl, Dict.getD, Dict.getD, hcounts predicted]
          simp [counted_succ]
        · have hold : (matrix.getD label Dict.empty).get? answer =
              counted (timesAnswered label answer scored) :=
            hcounts answer
          rw [if_neg hanswer, hold]
          simp [hanswer]
      · rw [if_neg hlabel]
        exact ⟨by simp [hlabel], fun answer => by simpa [hlabel] using hcounts answer⟩

/-- **What the matrix holds**: the counts, where they are not zero. -/
lemma rowOf_confuse (scored : List Scored) (label : String) :
    RowOf scored label ((scored.foldl confuse Dict.empty).get? label) := by
  induction scored using List.reverseRecOn generalizing label with
  | nil => exact ⟨by simp, fun answer => rfl⟩
  | append_singleton scored s ih =>
      rw [List.foldl_append]
      exact RowOf.concat ih s

lemma mem_confuse_keys {label : String} :
    label ∈ (scored.foldl confuse Dict.empty).keys ↔
      ∃ s ∈ scored, s.labelFault = label ∧ s.predicted.isSome = true := by
  rw [Dict.mem_keys_iff, ← Option.isSome_iff_exists]
  exact (rowOf_confuse scored label).1

lemma confusion_eq (scored : List Scored) :
    confusion scored = (sortOn id (scored.foldl confuse Dict.empty).keys).map fun label =>
      (label, sortedItems ((scored.foldl confuse Dict.empty).getD label Dict.empty)) :=
  sortedItems_map _ sortedItems Dict.empty

/-! ## The order of the answers -/

lemma countOf_perm (h : scored.Perm scored') (p : Scored → Bool) :
    countOf p scored = countOf p scored' :=
  h.countP_eq p

lemma confusion_perm (h : scored.Perm scored') : confusion scored = confusion scored' := by
  have hkeys : sortOn id (scored.foldl confuse Dict.empty).keys =
      sortOn id (scored'.foldl confuse Dict.empty).keys := by
    refine sortOn_id_eq_of_perm
      ((List.perm_ext_iff_of_nodup (Dict.keys_nodup _) (Dict.keys_nodup _)).mpr fun f => ?_)
    rw [mem_confuse_keys, mem_confuse_keys]
    exact exists_congr fun s => and_congr_left' h.mem_iff
  have hrows : ∀ label, sortedItems ((scored.foldl confuse Dict.empty).getD label Dict.empty) =
      sortedItems ((scored'.foldl confuse Dict.empty).getD label Dict.empty) := fun label => by
    refine sortedItems_congr fun answer => ?_
    exact ((rowOf_confuse scored label).2 answer).trans
      ((congrArg counted (countOf_perm h _)).trans ((rowOf_confuse scored' label).2 answer).symm)
  rw [confusion_eq, confusion_eq, hkeys]
  exact List.map_congr_left fun label _ => by rw [hrows]

lemma accuracyByFault_perm (h : scored.Perm scored') :
    accuracyByFault scored = accuracyByFault scored' := by
  unfold accuracyByFault
  rw [sortOn_id_eq_of_perm (h.map (·.labelFault)).dedup]
  refine List.map_congr_left fun fault _ => ?_
  rw [countOf_perm (h.filter _), countOf_perm h]

lemma nil_iff_of_perm {α : Type} {xs ys : List α} (h : xs.Perm ys) : xs = [] ↔ ys = [] := by
  rw [← List.length_eq_zero_iff, h.length_eq, List.length_eq_zero_iff]

lemma repairMetrics_perm (h : scored.Perm scored') :
    repairMetrics scored = repairMetrics scored' := by
  have hstratum : (repairStratum scored).Perm (repairStratum scored') := h.filter _
  have hfixable := hstratum.filter fun s => s.claimedToFixTheUnfixable.isNone
  have hunfixable := hstratum.filter fun s => s.claimedToFixTheUnfixable.isSome
  unfold repairMetrics
  simp only [nil_iff_of_perm hstratum, nil_iff_of_perm hfixable, nil_iff_of_perm hunfixable,
    hstratum.length_eq, hfixable.length_eq, hunfixable.length_eq, countOf_perm hstratum,
    countOf_perm hfixable, countOf_perm hunfixable]

/-- **The report does not depend on the order of the answers.** -/
lemma aggregate_perm (h : scored.Perm scored') : aggregate scored = aggregate scored' := by
  have hanswered := h.filter fun s => s.predicted.isSome
  have hlatencies : sortOn id (scored.map (·.latencyS)) = sortOn id (scored'.map (·.latencyS)) :=
    sortOn_id_eq_of_perm (h.map _)
  unfold aggregate
  simp only [nil_iff_of_perm h, nil_iff_of_perm hanswered, h.length_eq, hanswered.length_eq,
    countOf_perm h, hlatencies, total_perm h, total_perm hanswered, repairMetrics_perm h,
    accuracyByFault_perm h, confusion_perm h]

end

/-! ## What adds up -/

/-- One answer that was scored. -/
def IsScore (s : Scored) : Prop :=
  ∃ case verdict latencyS costUsd refused, s = score case verdict latencyS costUsd refused

/-- What the flags of one answer say of each other. -/
structure Scored.Coherent (s : Scored) : Prop where
  correctAt1 : s.correctAt1 = true ↔ s.predicted = some s.labelFault
  correctAt3 : s.correctAt1 = true → s.correctAt3 = true
  proposed : s.proposedRepair = true → s.predicted.isSome = true
  balanced : s.repairBalanced = true → s.proposedRepair = true
  overRepair : s.overRepair = true → s.proposedRepair = true
  stratum : s.repairCorrect.isSome = true ∨ s.falseRepair.isSome = true →
    s.predicted.isSome = true ∧ s.overRepair = false
  /-- A repair that restores the books is not a false one. -/
  falseRepair : s.falseRepair = some true → s.repairCorrect ≠ some true ∧ s.repairBalanced = true

/-- **One scored answer is coherent.** -/
lemma IsScore.coherent {s : Scored} (h : IsScore s) : s.Coherent := by
  obtain ⟨case, verdict, latencyS, costUsd, refused, rfl⟩ := h
  cases verdict with
  | none => constructor <;> simp [score]
  | some verdict =>
      unfold score
      refine ⟨?_, fun h => ?_, fun _ => rfl, fun h => ?_, fun h => ?_, fun h => ⟨rfl, ?_⟩, fun h =>
        ?_⟩
      · simp only [decide_eq_true_eq, Option.some_inj]
      · dsimp only at h ⊢
        rw [decide_eq_true_eq] at h ⊢
        rw [← h, List.take_succ_cons]
        exact List.mem_cons_self
      · exact (Bool.and_eq_true_iff.mp h).1
      · exact (Bool.and_eq_true_iff.mp h).1
      · cases hmissing : case.moneyWasMissing with
        | true => simp
        | false => simp [hmissing] at h
      · cases hmissing : case.moneyWasMissing with
        | false => simp [hmissing] at h
        | true =>
            simp only [hmissing, if_true, Option.some_inj, Bool.and_eq_true,
              Bool.not_eq_true'] at h ⊢
            refine ⟨?_, by simpa using h.1⟩
            rw [h.2]
            split_ifs <;> simp

section

variable {scored : List Scored}

/-- The answers about one class. -/
def answersTo (label : String) (scored : List Scored) : List Scored :=
  scored.filter fun s => s.labelFault = label ∧ s.predicted.isSome

lemma filter_predicted (label answer : String) (scored : List Scored) :
    ((answersTo label scored).filter fun s => s.predicted = some answer) =
      (answersTo label scored).filter fun s => s.predicted.getD "" = answer := by
  refine List.filter_congr fun s hs => ?_
  have hsome : s.predicted.isSome = true := (of_decide_eq_true (List.mem_filter.mp hs).2).2
  obtain ⟨predicted, hpredicted⟩ := Option.isSome_iff_exists.mp hsome
  rw [hpredicted]
  simp

lemma total_one {α : Type} (xs : List α) : total (fun _ => (1 : ℤ)) xs = xs.length := by
  induction xs with
  | nil => rfl
  | cons x xs ih => rw [total_cons, ih, List.length_cons, Nat.cast_succ, add_comm]

lemma timesAnswered_eq (label answer : String) (scored : List Scored) :
    (timesAnswered label answer scored : ℤ) =
      total (fun _ => (1 : ℤ)) ((answersTo label scored).filter fun s =>
        s.predicted = some answer) := by
  rw [total_one, timesAnswered, countOf, List.countP_eq_length_filter, answersTo,
    List.filter_filter]
  congr 2
  refine List.filter_congr fun s _ => ?_
  cases s.predicted <;> simp [and_comm]

/-- **A row of the matrix adds up** to the answers about its class. -/
lemma total_row (scored : List Scored) (label : String) :
    total Prod.snd (sortedItems ((scored.foldl confuse Dict.empty).getD label Dict.empty)) =
      ((answersTo label scored).length : ℤ) := by
  have hget : ∀ answer, ((scored.foldl confuse Dict.empty).getD label Dict.empty).get? answer =
      counted (timesAnswered label answer scored) := (rowOf_confuse scored label).2
  generalize (scored.foldl confuse Dict.empty).getD label Dict.empty = row at hget
  have hnodup : (sortOn id row.keys).Nodup := (sortOn_perm id _).nodup_iff.mpr row.keys_nodup
  have hall : ∀ s ∈ answersTo label scored, s.predicted.getD "" ∈ sortOn id row.keys := by
    intro s hs
    obtain ⟨hlabel, hsome⟩ := of_decide_eq_true (List.mem_filter.mp hs).2
    obtain ⟨predicted, hpredicted⟩ := Option.isSome_iff_exists.mp hsome
    have hpos : 0 < timesAnswered label predicted scored :=
      List.countP_pos_iff.mpr ⟨s, (List.mem_filter.mp hs).1, by simp [hlabel, hpredicted]⟩
    rw [hpredicted, mem_sortOn, Dict.mem_keys_iff, Option.getD_some]
    exact ⟨_, (hget predicted).trans (if_neg hpos.ne')⟩
  calc total Prod.snd (sortedItems row)
      = total (fun answer => (timesAnswered label answer scored : ℤ)) (sortOn id row.keys) := by
        rw [← sortedItems_keys, total_map]
        refine total_congr fun i hi => ?_
        have hvalue := (hget i.1).symm.trans (mem_sortedItems.mp hi)
        unfold counted at hvalue
        split_ifs at hvalue
        exact (Option.some_inj.mp hvalue).symm
    _ = total (fun answer => total (fun _ => (1 : ℤ))
          ((answersTo label scored).filter fun s => s.predicted.getD "" = answer))
            (sortOn id row.keys) :=
        total_congr fun answer _ => by rw [timesAnswered_eq, filter_predicted]
    _ = total (fun _ => (1 : ℤ)) (answersTo label scored) := sum_groups hnodup _ _ _ hall
    _ = ((answersTo label scored).length : ℤ) := total_one _

/-- The classes of the matrix, in its order. -/
def confused (scored : List Scored) :
    List String := sortOn id (scored.foldl confuse Dict.empty).keys

lemma confused_nodup (scored : List Scored) : (confused scored).Nodup :=
  (sortOn_perm id _).nodup_iff.mpr (Dict.keys_nodup _)

lemma mem_confused {label : String} :
    label ∈ confused scored ↔ ∃ s ∈ scored, s.labelFault = label ∧ s.predicted.isSome = true :=
  mem_sortOn.trans mem_confuse_keys

/-- **The matrix adds up** to the answers. -/
lemma total_confusion (scored : List Scored) :
    total (fun row => total Prod.snd row.2) (confusion scored) =
      ((scored.filter fun s => s.predicted.isSome).length : ℤ) := by
  have hanswers : ∀ label, answersTo label scored =
      (scored.filter fun s => s.predicted.isSome).filter fun s => s.labelFault = label :=
        fun label => by
    rw [answersTo, List.filter_filter]
    refine List.filter_congr fun s _ => ?_
    rw [Bool.decide_and, Bool.decide_eq_true]
  rw [confusion_eq, total_map]
  calc total (fun label =>
        total Prod.snd (sortedItems ((scored.foldl confuse Dict.empty).getD label Dict.empty)))
        (confused scored)
      = total (fun label =>
          total (fun _ => (1 : ℤ)) ((scored.filter fun s => s.predicted.isSome).filter
          fun s => s.labelFault = label)) (confused scored) :=
        total_congr fun label _ => by rw [total_row, total_one, hanswers]
    _ = total (fun _ => (1 : ℤ)) (scored.filter fun s => s.predicted.isSome) :=
        sum_groups (confused_nodup scored) _ _ _ fun s hs =>
          mem_confused.mpr ⟨s, (List.mem_filter.mp hs).1, rfl, (List.mem_filter.mp hs).2⟩
    _ = ((scored.filter fun s => s.predicted.isSome).length : ℤ) := total_one _

/-- A cell of the matrix. -/
def cell (matrix : List (String × List (String × ℤ))) (label answer : String) : ℤ :=
  (((matrix.lookup label).getD []).lookup answer).getD 0

/-- **Each cell is its count.** -/
lemma cell_confusion (scored : List Scored) (label answer : String) :
    cell (confusion scored) label answer = timesAnswered label answer scored := by
  have hget : ((scored.foldl confuse Dict.empty).getD label Dict.empty).get? answer =
      counted (timesAnswered label answer scored) := (rowOf_confuse scored label).2 answer
  have hcounted : ∀ n, (counted n).getD 0 = (n : ℤ) := fun n => by
    unfold counted
    split_ifs with hzero
    · rw [hzero]
      rfl
    · rfl
  have hrow : ((confusion scored).lookup label).getD [] =
      sortedItems ((scored.foldl confuse Dict.empty).getD label Dict.empty) := by
    have hlookup : ∀ labels : List String, (labels.map fun label =>
        (label, sortedItems ((scored.foldl confuse Dict.empty).getD label Dict.empty))).lookup
          label =
          if label ∈ labels then
            some (sortedItems ((scored.foldl confuse Dict.empty).getD label Dict.empty))
          else none := by
      intro labels
      induction labels with
      | nil => rfl
      | cons l labels ih =>
          rw [List.map_cons, List.lookup_cons]
          by_cases hl : label = l
          · simp [hl]
          · have hbeq : (label == l) = false := beq_false_of_ne hl
            rw [hbeq, ih]
            simp [hl]
    rw [confusion_eq, hlookup]
    split_ifs with hmem
    · rfl
    · -- a class that was never answered has no row, and an empty one by default
      rw [mem_sortOn, ← Dict.get?_eq_none_iff] at hmem
      rw [Dict.getD, hmem]
      rfl
  rw [cell, hrow, lookup_sortedItems, hget, hcounted]

/-- A class was answered right as often as one of its cases. -/
lemma timesAnswered_self (hscored : ∀ s ∈ scored, s.Coherent) (label : String) :
    timesAnswered label label scored =
      countOf (·.correctAt1) (scored.filter (·.labelFault = label)) := by
  rw [timesAnswered, countOf, countOf, List.countP_filter]
  refine List.countP_congr fun s hs => ?_
  rw [decide_eq_true_eq, Bool.and_eq_true, decide_eq_true_eq, (hscored s hs).correctAt1, and_comm]
  refine and_congr_left fun hlabel => ?_
  rw [hlabel]

/-- **The diagonal is what was right.** -/
lemma total_diagonal (hscored : ∀ s ∈ scored, s.Coherent) :
    total (fun row => cell (confusion scored) row.1 row.1) (confusion scored) =
      (countOf (·.correctAt1) scored : ℤ) := by
  have hcount : ∀ label, (timesAnswered label label scored : ℤ) =
      total (fun _ => (1 : ℤ)) ((scored.filter (·.correctAt1)).filter fun s =>
        s.labelFault = label) := fun label => by
    rw [timesAnswered_self hscored, total_one, countOf, List.countP_eq_length_filter,
      List.filter_comm]
  calc total (fun row => cell (confusion scored) row.1 row.1) (confusion scored)
      = total (fun label => cell (confusion scored) label label) (confused scored) := by
        conv_lhs => rw [confusion_eq scored, total_map]
        rw [← confusion_eq]
        rfl
    _ = total (fun label => total (fun _ => (1 : ℤ)) ((scored.filter (·.correctAt1)).filter
          fun s => s.labelFault = label)) (confused scored) :=
        total_congr fun label _ => by rw [cell_confusion, hcount]
    _ = total (fun _ => (1 : ℤ)) (scored.filter (·.correctAt1)) :=
        sum_groups (confused_nodup scored) _ _ _ fun s hs => by
          obtain ⟨hs, hcorrect⟩ := List.mem_filter.mp hs
          refine mem_confused.mpr ⟨s, hs, rfl, ?_⟩
          rw [(hscored s hs).correctAt1.mp hcorrect]
          rfl
    _ = (countOf (·.correctAt1) scored : ℤ) := by
      rw [total_one, countOf, List.countP_eq_length_filter]

lemma countOf_le {p q : Scored → Bool} (h : ∀ s ∈ scored, p s = true → q s = true) :
    countOf p scored ≤ countOf q scored :=
  List.countP_mono_left h

/-- Two kinds that have nothing in common, among a third. -/
lemma countOf_add_le {p q r : Scored → Bool} (hp : ∀ s ∈ scored, p s = true → r s = true)
    (hq : ∀ s ∈ scored, q s = true → r s = true ∧ p s = false) :
    countOf p scored + countOf q scored ≤ countOf r scored := by
  unfold countOf
  induction scored with
  | nil => rfl
  | cons s scored ih =>
      have hrest := ih (fun s hs => hp s (List.mem_cons_of_mem _ hs)) fun s hs =>
        hq s (List.mem_cons_of_mem _ hs)
      have hps := hp s List.mem_cons_self
      have hqs := hq s List.mem_cons_self
      rw [List.countP_cons, List.countP_cons, List.countP_cons]
      split_ifs <;> simp_all <;> omega

/-- An answer in the stratum is no over-repair. -/
lemma overRepairs_outside (hscored : ∀ s ∈ scored, s.Coherent) :
    countOf (·.overRepair) scored = countOf (fun s => s.overRepair && !s.inStratum) scored := by
  refine List.countP_congr fun s hs => ?_
  cases hrepair : s.overRepair with
  | false => simp
  | true =>
      have hnot : s.inStratum ≠ true := fun hin => by
        have hfalse := ((hscored s hs).stratum (Bool.or_eq_true_iff.mp hin)).2
        rw [hrepair] at hfalse
        cases hfalse
      simp [hnot]

lemma overRepairs_add_stratum_le (hscored : ∀ s ∈ scored, s.Coherent) :
    countOf (·.overRepair) scored + (repairStratum scored).length ≤
      countOf (·.predicted.isSome) scored := by
  rw [repairStratum, ← List.countP_eq_length_filter]
  refine countOf_add_le (fun s hs h => (hscored s hs).proposed ((hscored s hs).overRepair h))
    fun s hs h => ?_
  exact (hscored s hs).stratum (Bool.or_eq_true_iff.mp h)

lemma repairMetrics_adds_up (scored : List Scored) :
    ((repairMetrics scored).repairRestoresExpectedBalances.map (·.2)).getD 0 +
        ((repairMetrics scored).claimedToFixTheUnfixable.map (·.1)).getD 0 =
      (repairMetrics scored).repairStratumN ∧
    (repairMetrics scored).repairStratumN = (repairStratum scored).length := by
  have hsplit : ((repairStratum scored).filter fun s => s.claimedToFixTheUnfixable.isNone).length +
      ((repairStratum scored).filter fun s => s.claimedToFixTheUnfixable.isSome).length =
        (repairStratum scored).length := by
    rw [← List.countP_eq_length_filter, ← List.countP_eq_length_filter,
      List.length_eq_countP_add_countP (fun s : Scored => s.claimedToFixTheUnfixable.isNone)
        (l := repairStratum scored),
      Nat.add_left_cancel_iff]
    exact List.countP_congr fun s _ => by cases s.claimedToFixTheUnfixable <;> simp
  unfold repairMetrics
  dsimp only
  by_cases hnone : repairStratum scored = []
  · rw [if_pos hnone, hnone]
    exact ⟨rfl, rfl⟩
  · rw [if_neg hnone]
    refine ⟨(congrArg₂ (· + ·) ?_ ?_).trans hsplit, rfl⟩
    · dsimp only
      split_ifs with hfixable
      · exact (List.length_eq_zero_iff.mpr hfixable).symm
      · rfl
    · dsimp only
      split_ifs with hunfixable
      · exact (List.length_eq_zero_iff.mpr hunfixable).symm
      · rfl

end

/-- **A report adds up**, over exact rationals.  Take any scored answers, at least one.  Each cell
of the confusion matrix is the number of answers it stands for, so the matrix sums to the answers
that were given, and its diagonal to the accuracy, over all cases and over each class; naming three
faults is never less accurate than naming one; what is balanced was proposed and what was proposed
was answered; the repair stratum is its fixable and its unfixable cases, all of them answered; and
the over-repairs that are reported are those outside the stratum. -/
theorem report_adds_up (scored : List Scored) (hne : scored ≠ [])
    (hscored : ∀ s ∈ scored, IsScore s) :
    ∃ report, aggregate scored = some report ∧
      (∀ label answer, cell report.confusion label answer = timesAnswered label answer scored) ∧
      total (fun row => total Prod.snd row.2) report.confusion = report.answered ∧
      report.accuracyAt1 =
        roundTo 4 (total (fun row => cell report.confusion row.1 row.1) report.confusion /
          report.n) ∧
      (∀ fault accuracy, (fault, accuracy) ∈ report.accuracyByFault →
        accuracy = roundTo 4 (cell report.confusion fault fault /
          countOf (·.labelFault = fault) scored)) ∧
      report.accuracyAt1 ≤ report.accuracyAt3 ∧
      report.repairBalanced ≤ report.repairProposed ∧ report.repairProposed ≤ report.answered ∧
      (report.repair.repairRestoresExpectedBalances.map (·.2)).getD 0 +
        (report.repair.claimedToFixTheUnfixable.map (·.1)).getD 0 = report.repair.repairStratumN ∧
      report.repair.repairStratumN ≤ report.answered ∧
      report.overRepairRate =
        roundTo 4 (countOf (fun s => s.overRepair && !s.inStratum) scored / report.n) ∧
      report.overRepairRate ≤
        roundTo 4 ((report.answered - report.repair.repairStratumN) / report.n) := by
  have hcoherent : ∀ s ∈ scored, s.Coherent := fun s hs => (hscored s hs).coherent
  obtain ⟨hstratum, hlength⟩ := repairMetrics_adds_up scored
  have hcounted : (scored.filter (·.predicted.isSome)).length =
      countOf (·.predicted.isSome) scored :=
    List.countP_eq_length_filter.symm
  have hover := overRepairs_add_stratum_le hcoherent
  refine ⟨_, if_neg hne, cell_confusion scored, total_confusion scored, ?_, ?_, ?_, ?_, ?_,
    hstratum, ?_, ?_, ?_⟩
  · dsimp only
    rw [total_diagonal hcoherent]
    push_cast
    rfl
  · intro fault accuracy hmem
    obtain ⟨label, hlabel, heq⟩ := List.mem_map.mp hmem
    obtain ⟨hfault, haccuracy⟩ := Prod.mk.inj heq
    obtain rfl : label = fault := hfault
    have hclass : 1 ≤ countOf (·.labelFault = label) scored := by
      obtain ⟨s, hs, hlabel⟩ := List.mem_map.mp (List.mem_dedup.mp (mem_sortOn.mp hlabel))
      exact List.countP_pos_iff.mpr ⟨s, hs, by simpa using hlabel⟩
    rw [cell_confusion, timesAnswered_self hcoherent, ← haccuracy, max_eq_right hclass,
      Int.cast_natCast]
  · refine roundTo_mono 4 ?_
    gcongr
    exact countOf_le fun s hs => (hcoherent s hs).correctAt3
  · exact countOf_le fun s hs => (hcoherent s hs).balanced
  · dsimp only
    rw [hcounted]
    exact countOf_le fun s hs => (hcoherent s hs).proposed
  · dsimp only
    rw [hlength, hcounted]
    omega
  · dsimp only
    rw [overRepairs_outside hcoherent]
  · refine roundTo_mono 4 ?_
    dsimp only
    rw [hlength, hcounted]
    gcongr
    rw [le_sub_iff_add_le]
    exact_mod_cast hover

/-! ### A case that was answered right and one that was refused -/

/-- The answers about the lost charge. -/
def twoAnswers : List Scored :=
  [score lostCharge (some (dropVerdict chargeEntries)) 2 (1 / 100) false,
    score lostCharge none 1 (1 / 100) true]

theorem report_adds_up_refused :
    ∃ report, aggregate twoAnswers = some report ∧ cell report.confusion "DROP" "DROP" = 1 ∧
      total (fun row => total Prod.snd row.2) report.confusion = report.answered ∧
      report.accuracyAt1 ≤ report.accuracyAt3 := by
  obtain ⟨report, hreport, hcell, htotal, -, -, hle, -⟩ :=
    report_adds_up twoAnswers (by simp [twoAnswers]) fun s hs => by
      simp only [twoAnswers, List.mem_cons, List.not_mem_nil, or_false] at hs
      rcases hs with rfl | rfl
      · exact ⟨_, _, _, _, _, rfl⟩
      · exact ⟨_, _, _, _, _, rfl⟩
  have htimes : timesAnswered "DROP" "DROP" twoAnswers = 1 := by decide
  exact ⟨report, hreport, by rw [hcell, htimes]; rfl, htotal, hle⟩

end LedgerProof.Triage
