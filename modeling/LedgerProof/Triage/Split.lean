import LedgerProof.Harness.Scenarios
import LedgerProof.Lib.Sorting
import LedgerProof.Triage.Approve
import Mathlib.Data.String.Basic

/-!
# The split and the pilot's cases

`stratified_split` of `triage/bench.py` and `pick` of `scripts/run_pilot.py`: which of the labelled
cases the agent is tested on, and which of these the pilot asks about.  Both shuffle the cases of
each fault class with `random.Random`, whose `shuffle` is modelled over its `randrange`; the
fraction is an exact rational.

The split is a partition with every class on its test side (`split_stratified`), and the pilot goes
round the classes (`pick_spreads`).
-/

namespace LedgerProof.Triage

open Harness (Random)

/-! ## Shuffling -/

section

variable {α : Type}

/-- `x[i], x[j] = x[j], x[i]`. -/
def exchange (xs : List α) (i j : ℕ) : List α :=
  match xs[i]?, xs[j]? with
  | some a, some b => (xs.set i b).set j a
  | _, _ => xs

/-- The loop of `random.shuffle`, from a place down to the second. -/
def shuffleFrom (rng : Random) : ℕ → List α → rng.State → List α × rng.State
  | 0, xs, s => (xs, s)
  | i + 1, xs, s =>
      let draw := rng.randrange s 0 (i + 2)
      shuffleFrom rng i (exchange xs (i + 1) draw.1.toNat) draw.2

/-- `random.shuffle`. -/
def shuffle (rng : Random) (xs : List α) (s : rng.State) : List α × rng.State :=
  shuffleFrom rng (xs.length - 1) xs s

lemma exchange_perm (xs : List α) (i j : ℕ) : (exchange xs i j).Perm xs := by
  unfold exchange
  split
  · rename_i a b ha hb
    obtain ⟨hi, rfl⟩ := List.getElem?_eq_some_iff.mp ha
    obtain ⟨hj, rfl⟩ := List.getElem?_eq_some_iff.mp hb
    exact List.set_set_perm hi hj
  · exact List.Perm.refl xs

lemma shuffleFrom_perm (rng : Random) (i : ℕ) (xs : List α) (s : rng.State) :
    (shuffleFrom rng i xs s).1.Perm xs := by
  induction i generalizing xs s with
  | zero => exact List.Perm.refl xs
  | succ i ih => exact (ih _ _).trans (exchange_perm xs _ _)

/-- **Shuffling loses nothing.** -/
lemma shuffle_perm (rng : Random) (xs : List α) (s : rng.State) : (shuffle rng xs s).1.Perm xs :=
  shuffleFrom_perm rng _ xs s

end

/-! ## The split -/

/-- The two sides. -/
structure Split where
  train : List BenchCase
  test : List BenchCase

/-- How many cases of a class of this size are tested on. -/
def testSize (fraction : ℚ) (size : ℕ) : ℕ := (max 1 (roundHalfEven (size * fraction))).toNat

example : testSize (2 / 5) 15 = 6 ∧ testSize (2 / 5) 1 = 1 := by decide +kernel

/-- The cases of each fault class. -/
def byFault (cases : List BenchCase) :
    Dict String (List BenchCase) := Dict.group (fun c => some c.labelFault) cases

/-- One turn of the loop over the classes. -/
def splitClass (rng : Random) (fraction : ℚ) (groups : Dict String (List BenchCase))
    (acc : Split × rng.State) (fault : String) : Split × rng.State :=
  let items := shuffle rng (sortOn (·.caseId) (groups.getD fault [])) acc.2
  let n := testSize fraction items.1.length
  (⟨acc.1.train ++ items.1.drop n, acc.1.test ++ items.1.take n⟩, items.2)

/-- `stratified_split`. -/
def stratifiedSplit (rng : Random) (cases : List BenchCase) (fraction : ℚ) (seed : ℤ) : Split :=
  ((sortOn id (byFault cases).keys).foldl (splitClass rng fraction (byFault cases))
    (⟨[], []⟩, rng.ofSeed seed)).1

/-- How many cases a class has. -/
def classSize (fault : String) (cases : List BenchCase) :
    ℕ := cases.countP fun c => c.labelFault = fault

/-- `class_balance`. -/
def classBalance (cases : List BenchCase) : List (String × ℤ) :=
  sortedItems (Dict.tally (·.labelFault) (fun _ => 1) Dict.empty cases)

section

variable {rng : Random} {fraction : ℚ} {cases cases' : List BenchCase}

lemma getD_byFault (cases : List BenchCase) (fault : String) :
    (byFault cases).getD fault [] = cases.filter fun c => c.labelFault = fault := by
  rw [byFault, Dict.getD_group]
  simp only [Option.some_inj]

lemma mem_keys_byFault {fault : String} :
    fault ∈ (byFault cases).keys ↔ ∃ c ∈ cases, c.labelFault = fault := by
  rw [byFault, Dict.mem_keys_group]
  simp only [Option.some_inj]

/-- The classes, in the order of the loop. -/
def faultsOf (cases : List BenchCase) : List String := sortOn id (byFault cases).keys

lemma faultsOf_nodup (cases : List BenchCase) : (faultsOf cases).Nodup :=
  (sortOn_perm id _).nodup_iff.mpr (byFault cases).keys_nodup

lemma mem_faultsOf {fault : String} : fault ∈ faultsOf cases ↔ ∃ c ∈ cases, c.labelFault = fault :=
  mem_sortOn.trans mem_keys_byFault

/-- The cases of a class that are tested on. -/
def testPart (fraction : ℚ) (items : List BenchCase) :
    List BenchCase := items.take (testSize fraction items.length)

/-- The others. -/
def trainPart (fraction : ℚ) (items : List BenchCase) :
    List BenchCase := items.drop (testSize fraction items.length)

/-- **What the loop comes to**: each class in an order of its own, cut in two. -/
lemma foldl_splitClass (faults : List String) (hnd : faults.Nodup) (acc : Split × rng.State) :
    ∃ order : String → List BenchCase,
      (∀ fault, (order fault).Perm (cases.filter fun c => c.labelFault = fault)) ∧
      (faults.foldl (splitClass rng fraction (byFault cases)) acc).1 =
        ⟨acc.1.train ++ faults.flatMap fun f => trainPart fraction (order f),
          acc.1.test ++ faults.flatMap fun f => testPart fraction (order f)⟩ := by
  induction faults generalizing acc with
  | nil =>
      exact ⟨fun fault => cases.filter fun c => c.labelFault = fault, fun _ => .refl _, by simp⟩
  | cons fault rest ih =>
      obtain ⟨hnew, hrest⟩ := List.nodup_cons.mp hnd
      obtain ⟨order, hperm, hfold⟩ := ih hrest (splitClass rng fraction (byFault cases) acc fault)
      -- the class of this turn has its own order, and the others keep theirs
      let items := (shuffle rng (sortOn (·.caseId) ((byFault cases).getD fault [])) acc.2).1
      have hitems : items.Perm (cases.filter fun c => c.labelFault = fault) :=
        (shuffle_perm _ _ _).trans ((sortOn_perm _ _).trans (.of_eq (getD_byFault cases fault)))
      have hothers : ∀ f ∈ rest, Function.update order fault items f = order f := fun f hf =>
        Function.update_of_ne (ne_of_mem_of_not_mem hf hnew) _ _
      refine ⟨Function.update order fault items, fun f => ?_, ?_⟩
      · by_cases hf : f = fault
        · rw [hf, Function.update_self]
          exact hitems
        · rw [Function.update_of_ne hf]
          exact hperm f
      · have htrain : (rest.flatMap fun f =>
            trainPart fraction (Function.update order fault items f)) =
            rest.flatMap fun f => trainPart fraction (order f) :=
          List.flatMap_congr fun f hf => by rw [hothers f hf]
        have htest : (rest.flatMap fun f =>
            testPart fraction (Function.update order fault items f)) =
            rest.flatMap fun f => testPart fraction (order f) :=
          List.flatMap_congr fun f hf => by rw [hothers f hf]
        rw [List.foldl_cons, hfold, List.flatMap_cons, List.flatMap_cons, Function.update_self,
          htrain, htest, ← List.append_assoc, ← List.append_assoc]
        rfl

/-- The cases of one class, among those of distinct classes. -/
lemma filter_flatMap_class {part : String → List BenchCase}
    (hpart : ∀ f, ∀ c ∈ part f, c.labelFault = f) {faults : List String} (hnd : faults.Nodup)
    {fault : String} (hmem : fault ∈ faults) :
    (faults.flatMap part).filter (fun c => c.labelFault = fault) = part fault := by
  have hother : ∀ f, f ≠ fault → (part f).filter (fun c => c.labelFault = fault) = [] := fun f hf =>
    List.filter_eq_nil_iff.mpr fun c hc => by
      rw [hpart f c hc]
      simpa using hf
  have hnone : ∀ fs : List String, fault ∉ fs →
      (fs.flatMap part).filter (fun c => c.labelFault = fault) = [] := by
    intro fs hfs
    induction fs with
    | nil => rfl
    | cons f fs ih =>
        rw [List.mem_cons, not_or] at hfs
        rw [List.flatMap_cons, List.filter_append, hother f (Ne.symm hfs.1), ih hfs.2,
          List.append_nil]
  induction faults with
  | nil => cases hmem
  | cons f fs ih =>
      obtain ⟨hnew, hfs⟩ := List.nodup_cons.mp hnd
      rw [List.flatMap_cons, List.filter_append]
      rcases List.mem_cons.mp hmem with rfl | hmem
      · rw [hnone fs hnew, List.append_nil]
        exact List.filter_eq_self.mpr fun c hc => by simpa using hpart fault c hc
      · rw [hother f (ne_of_mem_of_not_mem hmem hnew).symm, List.nil_append, ih hfs hmem]

/-- **What the split is**, class by class. -/
lemma stratifiedSplit_eq (rng : Random) (cases : List BenchCase) (fraction : ℚ) (seed : ℤ) :
    ∃ order : String → List BenchCase,
      (∀ fault, (order fault).Perm (cases.filter fun c => c.labelFault = fault)) ∧
      stratifiedSplit rng cases fraction seed =
        ⟨(faultsOf cases).flatMap fun f => trainPart fraction (order f),
          (faultsOf cases).flatMap fun f => testPart fraction (order f)⟩ := by
  obtain ⟨order, hperm, hfold⟩ :=
    @foldl_splitClass rng fraction cases _ (faultsOf_nodup cases) (⟨[], []⟩, rng.ofSeed seed)
  exact ⟨order, hperm, hfold⟩

/-- **Nothing is lost**, and nothing is on both sides. -/
lemma stratifiedSplit_perm (rng : Random) (cases : List BenchCase) (fraction : ℚ) (seed : ℤ) :
    ((stratifiedSplit rng cases fraction seed).test ++
      (stratifiedSplit rng cases fraction seed).train).Perm
      cases := by
  obtain ⟨order, hperm, hsplit⟩ := stratifiedSplit_eq rng cases fraction seed
  rw [hsplit]
  have hparts : ∀ fs : List String, ((fs.flatMap fun f => testPart fraction (order f)) ++
      fs.flatMap fun f => trainPart fraction (order f)).Perm
        (fs.flatMap fun f => cases.filter fun c => c.labelFault = f) := by
    intro fs
    induction fs with
    | nil => exact .refl _
    | cons f fs ih =>
        have hcut : (testPart fraction (order f) ++ trainPart fraction (order f)).Perm
            (cases.filter fun c => c.labelFault = f) := by
          rw [testPart, trainPart, List.take_append_drop]
          exact hperm f
        have hswap : ((testPart fraction (order f) ++ fs.flatMap fun f =>
            testPart fraction (order f)) ++ (trainPart fraction (order f) ++ fs.flatMap fun f =>
              trainPart fraction (order f))).Perm
              ((testPart fraction (order f) ++ trainPart fraction (order f)) ++
                ((fs.flatMap fun f => testPart fraction (order f)) ++
                  fs.flatMap fun f => trainPart fraction (order f))) := by
          simp only [List.append_assoc]
          exact (List.perm_append_comm_assoc _ _ _).append_left _
        exact hswap.trans (hcut.append ih)
  exact (hparts _).trans (flatMap_filter_perm (faultsOf_nodup cases) (·.labelFault) cases fun c
    hc => mem_faultsOf.mpr ⟨c, hc, rfl⟩)

lemma classSize_eq_length (fault : String) (cases : List BenchCase) :
    classSize fault cases = (cases.filter fun c => c.labelFault = fault).length :=
  List.countP_eq_length_filter

lemma classSize_pos {fault : String} :
    0 < classSize fault cases ↔ ∃ c ∈ cases, c.labelFault = fault := by
  rw [classSize, List.countP_pos_iff]
  simp only [decide_eq_true_eq]

lemma one_le_testSize (fraction : ℚ) (size : ℕ) : 1 ≤ testSize fraction size := by
  unfold testSize
  omega

/-- **How many cases of a class are tested on**. -/
lemma classSize_test (rng : Random) (cases : List BenchCase) (fraction : ℚ) (seed : ℤ)
    (fault : String) :
    classSize fault (stratifiedSplit rng cases fraction seed).test =
      min (testSize fraction (classSize fault cases)) (classSize fault cases) := by
  obtain ⟨order, hperm, hsplit⟩ := stratifiedSplit_eq rng cases fraction seed
  have hclass : ∀ f, ∀ c ∈ testPart fraction (order f), c.labelFault = f := fun f c hc => by
    have hc := (hperm f).mem_iff.mp (List.mem_of_mem_take hc)
    exact of_decide_eq_true (List.mem_filter.mp hc).2
  rw [hsplit, classSize_eq_length]
  by_cases hmem : fault ∈ faultsOf cases
  · rw [filter_flatMap_class hclass (faultsOf_nodup cases) hmem, testPart, List.length_take,
      (hperm fault).length_eq, ← classSize_eq_length]
  · -- there is no such class
    have hnone : classSize fault cases = 0 :=
      Nat.eq_zero_of_not_pos fun h => hmem (mem_faultsOf.mpr (classSize_pos.mp h))
    rw [hnone, Nat.min_zero, List.length_eq_zero_iff, List.filter_eq_nil_iff]
    intro c hc
    obtain ⟨f, hf, hc⟩ := List.mem_flatMap.mp hc
    rw [hclass f c hc, decide_eq_true_eq]
    exact ne_of_mem_of_not_mem hf hmem

/-- **The order of the artifact does not matter.** -/
lemma stratifiedSplit_of_perm (rng : Random) (fraction : ℚ) (seed : ℤ)
    (hids : (cases.map (·.caseId)).Nodup) (h : cases.Perm cases') :
    stratifiedSplit rng cases fraction seed = stratifiedSplit rng cases' fraction seed := by
  have hfaults : sortOn id (byFault cases).keys = sortOn id (byFault cases').keys := by
    refine sortOn_id_eq_of_perm
      ((List.perm_ext_iff_of_nodup (Dict.keys_nodup _) (Dict.keys_nodup _)).mpr fun f => ?_)
    rw [mem_keys_byFault, mem_keys_byFault]
    exact exists_congr fun c => and_congr_left' h.mem_iff
  have hitems : ∀ f, sortOn (·.caseId) ((byFault cases).getD f []) = sortOn (·.caseId)
      ((byFault cases').getD f []) := by
    intro f
    rw [getD_byFault, getD_byFault]
    exact sortOn_eq_of_perm ((List.filter_sublist.map _).nodup hids) (h.filter _)
  have hclass : splitClass rng fraction (byFault cases) =
      splitClass rng fraction (byFault cases') := by
    funext acc f
    simp only [splitClass, hitems]
  rw [stratifiedSplit, stratifiedSplit, hclass, hfaults]

lemma classBalance_keys (cases : List BenchCase) :
    (classBalance cases).map Prod.fst = faultsOf cases := by
  rw [classBalance, sortedItems_keys]
  refine sortOn_id_eq_of_perm
    ((List.perm_ext_iff_of_nodup (Dict.keys_nodup _) (Dict.keys_nodup _)).mpr fun f => ?_)
  rw [Dict.mem_keys_tally, mem_keys_byFault]
  simp [Dict.keys, Dict.empty]

end

/-- **The split is a stratified partition, and reproducible.**  For any cases, fraction (an exact
rational, whose product with the size of a class is not rounded to a float before it is rounded to a
number of cases) and seed: every case is on one side; of each class as many cases are tested on as
the fraction says, but at least one; so the classes of the test side are those of the artifact, and
a class is trained on exactly where it has more cases than that.  And where the cases have ids of
their own, the split is the same whatever order they are read in. -/
theorem split_stratified (rng : Random) (cases : List BenchCase) (fraction : ℚ) (seed : ℤ) :
    let split := stratifiedSplit rng cases fraction seed
    (split.test ++ split.train).Perm cases ∧
      (∀ fault, classSize fault split.test =
        min (testSize fraction (classSize fault cases)) (classSize fault cases)) ∧
      (classBalance split.test).map Prod.fst = (classBalance cases).map Prod.fst ∧
      (∀ fault, 0 < classSize fault split.train ↔
        testSize fraction (classSize fault cases) < classSize fault cases) ∧
      ∀ cases' : List BenchCase, (cases.map (·.caseId)).Nodup → cases.Perm cases' →
        stratifiedSplit rng cases' fraction seed = split := by
  intro split
  have hperm := stratifiedSplit_perm rng cases fraction seed
  have htest := classSize_test rng cases fraction seed
  refine ⟨hperm, htest, ?_, fun fault => ?_, fun cases' hids h =>
    (stratifiedSplit_of_perm rng fraction seed hids h).symm⟩
  · rw [classBalance_keys, classBalance_keys]
    refine sortOn_id_eq_of_perm
      ((List.perm_ext_iff_of_nodup (Dict.keys_nodup _) (Dict.keys_nodup _)).mpr fun f => ?_)
    rw [mem_keys_byFault, mem_keys_byFault, ← classSize_pos, ← classSize_pos, htest]
    have hone := one_le_testSize fraction (classSize f cases)
    omega
  · have hsum : classSize fault split.test + classSize fault split.train =
        classSize fault cases := by
      rw [classSize, classSize, ← List.countP_append]
      exact hperm.countP_eq _
    rw [htest] at hsum
    omega

/-! ## The pilot's cases -/

/-- `for items in by_fault.values(): rng.shuffle(items)`. -/
def shuffleClasses (rng : Random) :
    List (String × List BenchCase) → rng.State → List (String × List BenchCase)
  | [], _ => []
  | (fault, items) :: rest, s =>
      let shuffled := shuffle rng items s
      (fault, shuffled.1) :: shuffleClasses rng rest shuffled.2

/-- One round over the classes, with what each has left: a case is popped from every one that has
any, until there are enough. -/
def pickRound (n : ℕ) (picked : List BenchCase) :
    List (String × List BenchCase) → List BenchCase × List (String × List BenchCase)
  | [] => (picked, [])
  | (fault, items) :: rest =>
      match items.getLast? with
      | some case =>
          if picked.length < n then
            let others := pickRound n (picked ++ [case]) rest
            (others.1, (fault, items.dropLast) :: others.2)
          else
            let others := pickRound n picked rest
            (others.1, (fault, items) :: others.2)
      | none =>
          let others := pickRound n picked rest
          (others.1, (fault, items) :: others.2)

/-- The loop over the rounds.  Every one of them picks a case, so as many rounds as cases are
enough. -/
def pickLoop (n : ℕ) : ℕ → List BenchCase → List (String × List BenchCase) → List BenchCase
  | 0, picked, _ => picked
  | rounds + 1, picked, left =>
      if picked.length < n ∧ left.any (fun l => !l.2.isEmpty) then
        let round := pickRound n picked left
        pickLoop n rounds round.1 round.2
      else picked

/-- `pick`. -/
def pick (rng : Random) (cases : List BenchCase) (n : ℕ) (seed : ℤ) : List BenchCase :=
  let shuffled := shuffleClasses rng (byFault cases).items (rng.ofSeed seed)
  pickLoop n n [] ((sortOn id (byFault cases).keys).map fun fault =>
    (fault, (shuffled.lookup fault).getD []))

/-- What is left is by class. -/
structure Classed (left : List (String × List BenchCase)) : Prop where
  nodup : (left.map Prod.fst).Nodup
  class_eq : ∀ l ∈ left, ∀ c ∈ l.2, c.labelFault = l.1

/-- What is left of a class. -/
def leftOf (fault : String) (left : List (String × List BenchCase)) : ℕ :=
  classSize fault (left.flatMap Prod.snd)

section

variable {n : ℕ} {picked : List BenchCase} {left : List (String × List BenchCase)}

lemma classSize_append (fault : String) (xs ys : List BenchCase) :
    classSize fault (xs ++ ys) = classSize fault xs + classSize fault ys := List.countP_append

lemma Classed.tail {l : String × List BenchCase} (h : Classed (l :: left)) : Classed left where
  nodup := (List.nodup_cons.mp h.nodup).2
  class_eq := fun l' hl' => h.class_eq l' (List.mem_cons_of_mem _ hl')

lemma Classed.leftOf_head {l : String × List BenchCase} (h : Classed (l :: left)) :
    leftOf l.1 (l :: left) = l.2.length := by
  have hown : classSize l.1 l.2 = l.2.length :=
    List.countP_eq_length.mpr fun c hc => decide_eq_true (h.class_eq l List.mem_cons_self c hc)
  have hothers : classSize l.1 (left.flatMap Prod.snd) = 0 := by
    refine List.countP_eq_zero.mpr fun c hc => ?_
    obtain ⟨l', hl', hc⟩ := List.mem_flatMap.mp hc
    rw [h.tail.class_eq l' hl' c hc, decide_eq_true_eq]
    intro heq
    exact (List.nodup_cons.mp h.nodup).1 (heq ▸ List.mem_map_of_mem hl')
  rw [leftOf, List.flatMap_cons, classSize_append, hown, hothers, Nat.add_zero]

lemma leftOf_of_ne {l : String × List BenchCase} (h : Classed (l :: left)) {fault : String}
    (hne : fault ≠ l.1) :
    leftOf fault (l :: left) = leftOf fault left := by
  have hnone : classSize fault l.2 = 0 := List.countP_eq_zero.mpr fun c hc => by
    rw [h.class_eq l List.mem_cons_self c hc, decide_eq_true_eq]
    exact hne.symm
  rw [leftOf, List.flatMap_cons, classSize_append, hnone, Nat.zero_add, leftOf]

/-! ### One round -/

lemma pickRound_keys (n : ℕ) (picked : List BenchCase) (left : List (String × List BenchCase)) :
    (pickRound n picked left).2.map Prod.fst = left.map Prod.fst := by
  induction left generalizing picked with
  | nil => rfl
  | cons l left ih =>
      unfold pickRound
      split
      · split_ifs
        · exact congrArg (l.1 :: ·) (ih _)
        · exact congrArg (l.1 :: ·) (ih _)
      · exact congrArg (l.1 :: ·) (ih _)

lemma pickRound_perm (n : ℕ) (picked : List BenchCase) (left : List (String × List BenchCase)) :
    ((pickRound n picked left).1 ++ (pickRound n picked left).2.flatMap Prod.snd).Perm
      (picked ++ left.flatMap Prod.snd) := by
  induction left generalizing picked with
  | nil => exact .refl _
  | cons l left ih =>
      have hkept : ∀ o : List BenchCase × List (String × List BenchCase),
          (o.1 ++ o.2.flatMap Prod.snd).Perm (picked ++ left.flatMap Prod.snd) →
          (o.1 ++ (l :: o.2).flatMap Prod.snd).Perm (picked ++ (l :: left).flatMap Prod.snd) := by
        intro o ho
        rw [← Multiset.coe_eq_coe] at ho ⊢
        simp only [List.flatMap_cons, ← Multiset.coe_add] at ho ⊢
        rw [add_left_comm, ho, add_left_comm]
      unfold pickRound
      split
      · rename_i case hlast
        split_ifs
        · have hitems : l.2 = l.2.dropLast ++ [case] :=
            (List.dropLast_append_getLast? case hlast).symm
          have ho := ih (picked ++ [case])
          rw [← Multiset.coe_eq_coe] at ho ⊢
          rw [List.flatMap_cons, List.flatMap_cons]
          conv_rhs => rw [hitems]
          simp only [← Multiset.coe_add] at ho ⊢
          rw [add_left_comm, ho]
          abel
        · exact hkept _ (ih picked)
      · exact hkept _ (ih picked)

lemma length_le_pickRound (n : ℕ) (picked : List BenchCase)
    (left : List (String × List BenchCase)) :
    picked.length ≤ (pickRound n picked left).1.length := by
  induction left generalizing picked with
  | nil => exact le_rfl
  | cons l left ih =>
      unfold pickRound
      split
      · split_ifs
        · exact le_trans (by simp) (ih _)
        · exact ih _
      · exact ih _

lemma pickRound_length_le (h : picked.length ≤ n) : (pickRound n picked left).1.length ≤ n := by
  induction left generalizing picked with
  | nil => exact h
  | cons l left ih =>
      unfold pickRound
      split
      · split_ifs with hlt
        · refine ih ?_
          rw [List.length_append, List.length_singleton]
          exact hlt
        · exact ih h
      · exact ih h

lemma length_lt_pickRound (hlt : picked.length < n)
    (hany : left.any (fun l => !l.2.isEmpty) = true) :
    picked.length < (pickRound n picked left).1.length := by
  induction left with
  | nil => cases hany
  | cons l left ih =>
      unfold pickRound
      split
      · rw [if_pos hlt]
        refine lt_of_lt_of_le ?_ (length_le_pickRound n _ left)
        rw [List.length_append, List.length_singleton]
        exact Nat.lt_succ_self _
      · rename_i hnone
        refine ih ?_
        have hempty : l.2 = [] := List.getLast?_eq_none_iff.mp hnone
        simpa [hempty] using hany

lemma Classed.pickRound (h : Classed left) (n : ℕ) (picked : List BenchCase) :
    Classed (pickRound n picked left).2 where
  nodup := by
    rw [pickRound_keys]
    exact h.nodup
  class_eq := by
    induction left generalizing picked with
    | nil => simp [Triage.pickRound]
    | cons l left ih =>
        have hhead := h.class_eq l List.mem_cons_self
        unfold Triage.pickRound
        split
        · split_ifs
          · exact List.forall_mem_cons.mpr ⟨fun c hc => hhead c (List.mem_of_mem_dropLast hc),
              ih h.tail _⟩
          · exact List.forall_mem_cons.mpr ⟨hhead, ih h.tail _⟩
        · exact List.forall_mem_cons.mpr ⟨hhead, ih h.tail _⟩

/-- **One round takes at most one case of each class**, and one of each that has any if it is not
the last. -/
lemma leftOf_pickRound (h : Classed left) (n : ℕ) (picked : List BenchCase) (fault : String) :
    leftOf fault (pickRound n picked left).2 ≤ leftOf fault left ∧
      leftOf fault left ≤ leftOf fault (pickRound n picked left).2 + 1 ∧
      ((pickRound n picked left).1.length < n →
        leftOf fault (pickRound n picked left).2 = leftOf fault left - 1) := by
  induction left generalizing picked with
  | nil => exact ⟨le_rfl, Nat.le_succ _, fun _ => rfl⟩
  | cons l left ih =>
      have hround := h.pickRound n picked
      have hlength := length_le_pickRound n picked left
      unfold pickRound at hround ⊢
      by_cases hfault : fault = l.1
      · -- the class of this turn is not met again
        subst hfault
        rw [h.leftOf_head]
        split at *
        · rename_i case hlast
          have hitems := congrArg List.length (List.dropLast_append_getLast? case hlast)
          rw [List.length_append, List.length_singleton] at hitems
          split_ifs at *
          · rw [hround.leftOf_head]
            dsimp only
            omega
          · rw [hround.leftOf_head]
            dsimp only
            omega
        · rename_i hnone
          have hempty : l.2.length = 0 := by
            rw [List.getLast?_eq_none_iff.mp hnone, List.length_nil]
          rw [hround.leftOf_head]
          dsimp only
          omega
      · rw [leftOf_of_ne h hfault]
        split at *
        · split_ifs at *
          · rw [leftOf_of_ne hround hfault]
            exact ih h.tail _
          · rw [leftOf_of_ne hround hfault]
            exact ih h.tail _
        · rw [leftOf_of_ne hround hfault]
          exact ih h.tail _

/-! ### The rounds -/

/-- What is left after `k` rounds, the last of them perhaps cut short. -/
def Around (cases : List BenchCase) (k : ℕ) (rest : List BenchCase) : Prop :=
  ∀ fault, classSize fault cases - (k + 1) ≤ classSize fault rest ∧
    classSize fault rest ≤ classSize fault cases - k

/-- The state of the loop: `k` rounds are done, and the last of them is only cut short if there are
enough. -/
structure Rounds (cases : List BenchCase) (n k : ℕ) (picked : List BenchCase)
    (left : List (String × List BenchCase)) : Prop where
  classed : Classed left
  perm : (picked ++ left.flatMap Prod.snd).Perm cases
  length_le : picked.length ≤ n
  around : Around cases k (left.flatMap Prod.snd)
  full : picked.length < n → ∀ fault, leftOf fault left = classSize fault cases - k

variable {cases : List BenchCase} {k : ℕ}

/-- **One round keeps the state of the loop.** -/
lemma Rounds.next (h : Rounds cases n k picked left) (hlt : picked.length < n) :
    ∃ k', Rounds cases n k' (pickRound n picked left).1 (pickRound n picked left).2 := by
  have hfull := h.full hlt
  have hleft := leftOf_pickRound h.classed n picked
  have hperm := (pickRound_perm n picked left).trans h.perm
  have hlength : (pickRound n picked left).1.length ≤ n := pickRound_length_le hlt.le
  by_cases hmore : (pickRound n picked left).1.length < n
  · have hnext : ∀ fault, leftOf fault (pickRound n picked left).2 = classSize fault cases -
        (k + 1) := fun fault => by
      rw [(hleft fault).2.2 hmore, hfull fault]
      omega
    refine ⟨k + 1, h.classed.pickRound n picked, hperm, hlength, fun fault => ?_, fun _ => hnext⟩
    have := hnext fault
    unfold leftOf at this
    omega
  · refine ⟨k, h.classed.pickRound n picked, hperm, hlength, fun fault => ?_, fun h =>
      absurd h hmore⟩
    have hclass := hleft fault
    rw [hfull fault] at hclass
    unfold leftOf at hclass
    omega

/-- **The loop ends** with enough cases or none left, after so many rounds. -/
lemma Rounds.pickLoop {rounds : ℕ} (h : Rounds cases n k picked left)
    (hrounds : n ≤ picked.length + rounds) :
    ∃ rest k', (pickLoop n rounds picked left ++ rest).Perm cases ∧ Around cases k' rest ∧
      (pickLoop n rounds picked left).length = min n cases.length := by
  induction rounds generalizing picked left k with
  | zero =>
      refine ⟨left.flatMap Prod.snd, k, h.perm, h.around, ?_⟩
      have htotal := h.perm.length_eq
      have hle := h.length_le
      rw [List.length_append] at htotal
      unfold Triage.pickLoop
      omega
  | succ rounds ih =>
      unfold Triage.pickLoop
      split_ifs with hgo
      · obtain ⟨k', hnext⟩ := h.next hgo.1
        have hprogress := length_lt_pickRound hgo.1 hgo.2
        exact ih hnext (by omega)
      · refine ⟨left.flatMap Prod.snd, k, h.perm, h.around, ?_⟩
        have htotal := h.perm.length_eq
        have hle := h.length_le
        rw [List.length_append] at htotal
        by_cases hlt : picked.length < n
        · have hnone : left.flatMap Prod.snd = [] := by
            refine List.flatMap_eq_nil_iff.mpr fun l hl => ?_
            have hempty : ¬left.any (fun l => !l.2.isEmpty) = true := fun hany => hgo ⟨hlt, hany⟩
            rw [List.any_eq_true] at hempty
            by_contra hne
            exact hempty ⟨l, hl, by simpa using hne⟩
          rw [hnone, List.length_nil] at htotal
          omega
        · omega

end

/-! ### The start -/

section

variable {rng : Random} {cases : List BenchCase}

/-- Each class keeps its cases. -/
lemma lookup_shuffleClasses (items : List (String × List BenchCase)) (s : rng.State)
    (fault : String) :
    (((shuffleClasses rng items s).lookup fault).getD []).Perm ((items.lookup fault).getD []) := by
  induction items generalizing s with
  | nil => exact .refl _
  | cons l items ih =>
      obtain ⟨f, xs⟩ := l
      rw [shuffleClasses, List.lookup_cons, List.lookup_cons]
      split
      · exact shuffle_perm rng xs s
      · exact ih _

lemma rounds_start (n : ℕ) (s : rng.State) :
    Rounds cases n 0 [] ((faultsOf cases).map fun fault =>
      (fault, ((shuffleClasses rng (byFault cases).items s).lookup fault).getD [])) := by
  have hclass : ∀ fault, (((shuffleClasses rng (byFault cases).items s).lookup fault).getD []).Perm
      (cases.filter fun c => c.labelFault = fault) := fun fault => by
    rw [← getD_byFault]
    exact lookup_shuffleClasses _ _ _
  have hperm : (((faultsOf cases).map fun fault =>
      (fault, ((shuffleClasses rng (byFault cases).items s).lookup fault).getD [])).flatMap
        Prod.snd).Perm cases := by
    rw [List.flatMap_map]
    refine (List.Perm.flatMap_left _ fun fault _ => hclass fault).trans ?_
    exact flatMap_filter_perm (faultsOf_nodup cases) (·.labelFault) cases fun c hc =>
      mem_faultsOf.mpr ⟨c, hc, rfl⟩
  have hcount := fun fault => hperm.countP_eq fun c : BenchCase => decide (c.labelFault = fault)
  refine ⟨⟨?_, fun l hl c hc => ?_⟩, hperm, Nat.zero_le n, fun fault => ?_, fun _ fault =>
    hcount fault⟩
  · rw [List.map_map]
    exact (List.map_id _).symm ▸ faultsOf_nodup cases
  · obtain ⟨fault, -, rfl⟩ := List.mem_map.mp hl
    exact of_decide_eq_true (List.mem_filter.mp ((hclass fault).mem_iff.mp hc)).2
  · have := hcount fault
    unfold classSize
    omega

end

/-- **The pilot's cases are a spread over the classes.**  For any cases, number and seed: `pick`
takes as many of the cases as it is asked for, or all there are, none of them twice; and of a class
that it has not taken all of, it has taken at most one less than of any other. -/
theorem pick_spreads (rng : Random) (cases : List BenchCase) (n : ℕ) (seed : ℤ) :
    let picked := pick rng cases n seed
    (∃ rest, (picked ++ rest).Perm cases) ∧ picked.length = min n cases.length ∧
      ∀ fault other, classSize fault picked < classSize fault cases →
        classSize other picked ≤ classSize fault picked + 1 := by
  intro picked
  obtain ⟨rest, k, hperm, haround, hlength⟩ :=
    (@rounds_start rng cases n (rng.ofSeed seed)).pickLoop (show n ≤ ([] : List BenchCase).length +
      n by simp)
  refine ⟨⟨rest, hperm⟩, hlength, fun fault other hleft => ?_⟩
  have hsum : ∀ f, classSize f picked + classSize f rest = classSize f cases := fun f => by
    rw [← classSize_append]
    exact hperm.countP_eq _
  have hfault := hsum fault
  have hother := hsum other
  have hbound := haround fault
  have hbound' := haround other
  omega

end LedgerProof.Triage
