import LedgerProof.Ledger.Session
import LedgerProof.Lib.Text
import LedgerProof.Triage.Repair

/-!
# From a scored repair to the ledger

`score` of `triage/bench.py` and `approve_and_apply` of `triage/agent.py`, the one path from a
proposed repair to a ledger write.

The score simulates the posting with a table of its own, by account name and amount.  The ledger
also looks at what the simulation does not: whether the verdict says that money is missing, whether
every account exists, the currency of the account, the range of the columns.  `Applicable` is that
difference, and a repair that is scored correct is posted and corrects the books exactly when it
holds (`scored_repair_applies_iff`).
-/

namespace LedgerProof.Triage

/-! ## The score -/

/-- `FaultClass`. -/
inductive FaultClass
  | none
  | duplicate
  | duplicateObject
  | concurrentDuplicate
  | reorder
  | delay
  | drop
  | respond500
  | tamperBody
  | truncateBody
  | staleTimestamp
  | downgradeScheme
  | partialWrite
  | slowLoris
  deriving DecidableEq, Repr

/-- `FaultClass.value`. -/
def FaultClass.value : FaultClass → String
  | .none => "NONE"
  | .duplicate => "DUPLICATE"
  | .duplicateObject => "DUPLICATE_OBJECT"
  | .concurrentDuplicate => "CONCURRENT_DUPLICATE"
  | .reorder => "REORDER"
  | .delay => "DELAY"
  | .drop => "DROP"
  | .respond500 => "RESPOND_500"
  | .tamperBody => "TAMPER_BODY"
  | .truncateBody => "TRUNCATE_BODY"
  | .staleTimestamp => "STALE_TIMESTAMP"
  | .downgradeScheme => "DOWNGRADE_SCHEME"
  | .partialWrite => "PARTIAL_WRITE"
  | .slowLoris => "SLOW_LORIS"

/-- A `Case`, with everything of it that `score` reads. -/
structure BenchCase extends Case where
  caseId : String
  labelFault : String
  moneyWasMissing : Bool
  repairable : Bool

/-- A `Verdict`, with everything of it that `score` and `approve_and_apply` read. -/
structure TriageVerdict extends Verdict where
  faultClass : FaultClass
  alternateFaultClasses : List FaultClass
  confidence : ℚ
  moneyIsMissing : Bool
  repairMemo : String

/-- `Scored`. -/
structure Scored where
  caseId : String
  labelFault : String
  predicted : Option String
  ranked : List String
  correctAt1 : Bool
  correctAt3 : Bool
  confidence : ℚ
  latencyS : ℚ
  costUsd : ℚ
  proposedRepair : Bool
  repairBalanced : Bool
  overRepair : Bool
  refused : Bool
  repairCorrect : Option Bool
  falseRepair : Option Bool
  claimedToFixTheUnfixable : Option Bool
  deriving DecidableEq

/-- `score`. -/
def score (case : BenchCase) (verdict : Option TriageVerdict) (latencyS costUsd : ℚ)
    (refused : Bool) : Scored :=
  match verdict with
  | none =>
      { caseId := case.caseId, labelFault := case.labelFault, predicted := none, ranked := []
        correctAt1 := false, correctAt3 := false, confidence := 0, latencyS, costUsd
        proposedRepair := false, repairBalanced := false, overRepair := false, refused
        repairCorrect := none, falseRepair := none, claimedToFixTheUnfixable := none }
  | some verdict =>
      let ranked := verdict.faultClass.value :: verdict.alternateFaultClasses.map FaultClass.value
      let proposed := !verdict.proposedRepair.isEmpty && verdict.moneyIsMissing
      let balanced := proposed && repairIsBalanced verdict.proposedRepair
      let restores := repairRestoresExpectedBalances case.toCase verdict.toVerdict
      { caseId := case.caseId
        labelFault := case.labelFault
        predicted := some verdict.faultClass.value
        ranked
        correctAt1 := verdict.faultClass.value = case.labelFault
        correctAt3 := case.labelFault ∈ ranked.take 3
        confidence := verdict.confidence
        latencyS
        costUsd
        proposedRepair := proposed
        repairBalanced := balanced
        overRepair := proposed && !case.moneyWasMissing
        refused
        repairCorrect :=
          if case.moneyWasMissing then
            if case.repairable then some restores else if proposed then some false else none
          else none
        falseRepair := if case.moneyWasMissing then some (balanced && !restores) else none
        claimedToFixTheUnfixable :=
          if case.moneyWasMissing then if case.repairable then none else some proposed else none }

/-- Only a repair that makes the simulated books right is scored correct. -/
lemma score_repairCorrect {case : BenchCase} {verdict : TriageVerdict} {latencyS costUsd : ℚ}
    {refused : Bool} :
    (score case (some verdict) latencyS costUsd refused).repairCorrect = some true ↔
      case.moneyWasMissing = true ∧ case.repairable = true ∧
        repairRestoresExpectedBalances case.toCase verdict.toVerdict = true := by
  unfold score
  cases case.moneyWasMissing <;> cases case.repairable <;> simp

/-! ## The gate -/

/-- `RepairApproval`, with what `approve_and_apply` reads. -/
structure RepairApproval where
  approvedBy : String
  scenarioId : String

/-- The reasons of a `RepairRejected`. -/
inductive RepairRejected
  | noApprover
  | nothingMissing
  | noEntries
  | notBalanced
  deriving DecidableEq, Repr

/-- The text of the exception. -/
def RepairRejected.text : RepairRejected → String
  | .noApprover => "no human approver recorded: a repair may only be applied by a named person"
  | .nothingMissing => "the verdict states no money is missing; there is nothing to repair"
  | .noEntries => "the verdict proposes no entries"
  | .notBalanced => "proposed repair does not balance per currency, or has fewer than two " ++
      "entries; the ledger's deferred constraint would reject it"

/-- What `approve_and_apply` raises. -/
inductive ApplyError
  | repairRejected (reason : RepairRejected)
  | raised (e : Exn)
  deriving DecidableEq

/-- `e.direction`, once it is known to be one of the two. -/
def RepairEntry.dir (e : RepairEntry) :
    Direction := if e.direction = "debit" then .debit else .credit

/-- The `Entry` of a leg. -/
def RepairEntry.entry (e : RepairEntry) : Entry := ⟨e.accountName, e.dir, e.amountMinor, e.currency⟩

/-- The memo of the compensating transaction. -/
def repairMemo (verdict : TriageVerdict) (approval : RepairApproval) : String :=
  String.ofList (("compensating transaction approved by " ++ approval.approvedBy ++ " for " ++
    approval.scenarioId ++ ": " ++ verdict.repairMemo).toList.take 500)

/-- The compensating transaction, under the id `uuid.uuid4()` gives. -/
def repairTransaction (verdict : TriageVerdict) (approval : RepairApproval) (id : Uuid)
    (occurredAt : ℤ) :
    LedgerTransaction :=
  { id, occurredAt
    entries := verdict.proposedRepair.map RepairEntry.entry
    stripeEventId := none
    stripeObjectId := none
    eventType := none
    memo := some (repairMemo verdict approval) }

/-- `approve_and_apply`, on a healthy database that holds `L`. -/
def approveAndApply (L : Ledger) (verdict : TriageVerdict) (approval : RepairApproval) (id : Uuid)
    (occurredAt : ℤ) : Except ApplyError PostOutcome × Ledger :=
  if strip approval.approvedBy.toList = [] then (.error (.repairRejected .noApprover), L)
  else if !verdict.moneyIsMissing then (.error (.repairRejected .nothingMissing), L)
  else if verdict.proposedRepair.isEmpty then (.error (.repairRejected .noEntries), L)
  else if !repairIsBalanced verdict.proposedRepair then (.error (.repairRejected .notBalanced), L)
  else
    let run := Conn.postTransaction seedChart L (repairTransaction verdict approval id occurredAt) 5
      fun _ => none
    (run.outcome.mapError .raised, run.ledger)

/-- What the score does not look at: the verdict asks for a correction, and the ledger has every
account of the repair, in the currency of the entry, and room for the amounts, the entries and the
memo. -/
structure Applicable (verdict : TriageVerdict) (approval : RepairApproval) : Prop where
  money_is_missing : verdict.moneyIsMissing = true
  accounts : ∀ e ∈ verdict.proposedRepair, e.accountName ∈ accountNormals.keys
  currencies : ∀ e ∈ verdict.proposedRepair, Char3.ofText e.currency = some usd
  amounts : ∀ e ∈ verdict.proposedRepair, e.amountMinor ≤ bigintMax
  max_entries : verdict.proposedRepair.length < 2 ^ 31
  memo : NulFree (repairMemo verdict approval)

/-! ## The table and the chart -/

lemma accountNormals_seedChart : ∀ a ∈ seedChart.accounts, a.currency = usd ∧
    accountNormals.get? a.name = some (if a.normal = .debit then "debit" else "credit") := by
  decide

lemma find_of_mem_accountNormals :
    ∀ name ∈ accountNormals.keys, (seedChart.find name).isSome = true := by
  decide

lemma mem_accountNormals_of_find {name : String} {a : Account} (h : seedChart.find name = some a) :
    name ∈ accountNormals.keys := by
  obtain ⟨ha, rfl⟩ := Chart.find_mem h
  exact Dict.mem_keys_iff.mpr ⟨_, (accountNormals_seedChart a ha).2⟩

/-- On a seeded account the simulated change is the ledger's. -/
lemma signed_eq_signedOn {e : RepairEntry} (hdir : e.Directed) {a : Account}
    (ha : a ∈ seedChart.accounts) (hname : e.accountName = a.name) :
    e.signed = e.entry.signedOn a := by
  have hnormal := (accountNormals_seedChart a ha).2
  rw [← hname] at hnormal
  unfold RepairEntry.signed Entry.signedOn RepairEntry.entry RepairEntry.dir
  rw [hnormal]
  rcases hdir with hd | hd <;> cases a.normal <;> simp [hd]

lemma signed_of_not_mem {e : RepairEntry} (h : e.accountName ∉ accountNormals.keys) :
    e.signed = 0 := by
  rw [RepairEntry.signed, Dict.get?_eq_none_iff.mpr h]

/-- What a ledger has more than another one on an account, nothing where there is no account. -/
def changeOn (L L' : Ledger) (name : String) : ℤ :=
  match seedChart.find name with
  | some a => L'.balanceMinor a - L.balanceMinor a
  | none => 0

/-- **The posted change is the simulated one.** -/
lemma changeOn_writes {verdict : TriageVerdict} {approval : RepairApproval} {id : Uuid}
    {occurredAt : ℤ} {L W : Ledger} (hdir : ∀ e ∈ verdict.proposedRepair, e.Directed)
    (hW : (repairTransaction verdict approval id occurredAt).writes seedChart = .ok W)
    (name : String) :
    changeOn L (L.append W) name =
      total RepairEntry.signed (verdict.proposedRepair.filter fun e => e.accountName = name) := by
  unfold changeOn
  cases hfind : seedChart.find name with
  | none =>
      have hout : name ∉ accountNormals.keys := fun h => by
        simpa [hfind] using find_of_mem_accountNormals name h
      refine (total_eq_zero fun e he => ?_).symm
      have hname : e.accountName = name := by simpa using (List.mem_filter.mp he).2
      exact signed_of_not_mem (hname ▸ hout)
  | some a =>
      obtain ⟨ha, rfl⟩ := Chart.find_mem hfind
      dsimp only
      rw [Ledger.balanceMinor_append, add_sub_cancel_left,
        LedgerTransaction.balanceMinor_writes hW ha, repairTransaction, List.filter_map, total_map]
      refine total_congr fun e he => ?_
      obtain ⟨hmem, hname⟩ := List.mem_filter.mp he
      have hname : e.accountName = a.name := of_decide_eq_true hname
      exact (signed_eq_signedOn (hdir e hmem) ha hname).symm

/-! ## What the ledger accepts -/

section Accepts

variable {verdict : TriageVerdict} {approval : RepairApproval} {id : Uuid} {occurredAt : ℤ}

/-- In one currency the debits and the credits of a balanced repair are equal. -/
lemma total_debit_eq_credit {es : List RepairEntry} (hbal : repairIsBalanced es = true)
    (hcur : ∀ e ∈ es, Char3.ofText e.currency = some usd) (c : Char3) :
    total Entry.debitMinor ((es.map RepairEntry.entry).filter fun e => e.char3 = some c) =
      total Entry.creditMinor ((es.map RepairEntry.entry).filter fun e => e.char3 = some c) := by
  obtain ⟨-, hdir, hnet⟩ := (repairIsBalanced_iff es).mp hbal
  rw [List.filter_map, total_map, total_map, ← sub_eq_zero, ← total_sub]
  have hsub : ∀ e ∈ es.filter ((fun e => decide (e.char3 = some c)) ∘ RepairEntry.entry),
      e.entry.debitMinor - e.entry.creditMinor = e.net := by
    intro e he
    unfold Entry.debitMinor Entry.creditMinor RepairEntry.entry RepairEntry.dir RepairEntry.net
    rcases hdir e (List.mem_filter.mp he).1 with hd | hd <;> simp [hd]
  rw [total_congr hsub]
  by_cases hc : usd = c
  · -- every entry is in this currency, and the texts that stand for it cancel one by one
    have hall : es.filter ((fun e => decide (e.char3 = some c)) ∘ RepairEntry.entry) = es :=
      List.filter_eq_self.mpr fun e he => by simp [RepairEntry.entry, Entry.char3, hcur e he, hc]
    rw [hall, ← sum_groups (List.nodup_dedup (es.map RepairEntry.currency)) RepairEntry.currency]
    · exact total_eq_zero fun currency _ => hnet currency
    · exact fun e he => List.mem_dedup.mpr (List.mem_map_of_mem he)
  · have hnone : es.filter ((fun e => decide (e.char3 = some c)) ∘ RepairEntry.entry) = [] :=
      List.filter_eq_nil_iff.mpr fun e he => by simp [RepairEntry.entry, Entry.char3, hcur e he, hc]
    rw [hnone, total_nil]

variable (approval id occurredAt) in
/-- **Of a balanced repair the schema accepts what is applicable.** -/
lemma repairTransaction_accepted_iff (hbal : repairIsBalanced verdict.proposedRepair = true) :
    (repairTransaction verdict approval id occurredAt).Accepted seedChart ↔
      (∀ e ∈ verdict.proposedRepair, e.accountName ∈ accountNormals.keys) ∧
        (∀ e ∈ verdict.proposedRepair, Char3.ofText e.currency = some usd) ∧
        (∀ e ∈ verdict.proposedRepair, e.amountMinor ≤ bigintMax) ∧
        verdict.proposedRepair.length < 2 ^ 31 ∧ NulFree (repairMemo verdict approval) := by
  have hentry : ∀ e ∈ verdict.proposedRepair,
      e.entry ∈ (repairTransaction verdict approval id occurredAt).entries := fun e he =>
    List.mem_map_of_mem he
  have hmemo : (repairTransaction verdict approval id occurredAt).row.Storable ↔
      NulFree (repairMemo verdict approval) := by
    simp [TransactionRow.Storable, TransactionRow.mem_texts, repairTransaction,
      LedgerTransaction.row]
  constructor
  · intro h
    refine ⟨fun e he => ?_, fun e he => ?_, fun e he => h.amount_bigint _ (hentry e he), ?_,
      hmemo.mp h.storable⟩
    · obtain ⟨a, ha, -⟩ := h.currency_matches_account _ (hentry e he)
      exact mem_accountNormals_of_find ha
    · obtain ⟨a, ha, hcur⟩ := h.currency_matches_account _ (hentry e he)
      rwa [(accountNormals_seedChart a (Chart.find_mem ha).1).1] at hcur
    · simpa [repairTransaction] using h.max_entries
  · rintro ⟨haccounts, hcurrencies, hamounts, hcount, hnul⟩
    have hlen := ((repairIsBalanced_iff _).mp hbal).1
    refine ⟨hmemo.mpr hnul, ?_, ?_,
      ?_, by simpa [repairTransaction] using hlen, by simpa [repairTransaction] using hcount,
      total_debit_eq_credit hbal hcurrencies⟩
    all_goals
      intro e' he'
      obtain ⟨e, he, rfl⟩ := List.mem_map.mp he'
    · exact e.amountMinor_pos
    · exact hamounts e he
    · obtain ⟨a, ha⟩ := Option.isSome_iff_exists.mp (find_of_mem_accountNormals _ (haccounts e he))
      refine ⟨a, ha, ?_⟩
      rw [(accountNormals_seedChart a (Chart.find_mem ha).1).1]
      exact hcurrencies e he

/-- The transaction of a repair has only its id in the unique keys. -/
lemma repairTransaction_fresh {L : Ledger} (hid : ∀ t ∈ L.transactions, t.id ≠ id) :
    L.Fresh (repairTransaction verdict approval id occurredAt) where
  id := hid
  event := fun _ _ _ _ h => by cases h
  object := fun _ _ _ _ _ _ h => by cases h.1

variable (verdict approval occurredAt) in
/-- On a healthy database the posting is one attempt. -/
lemma run_posted_iff {L : Ledger} (hL : L.RowsAdmitted seedChart)
    (hid : ∀ t ∈ L.transactions, t.id ≠ id) :
    let txn := repairTransaction verdict approval id occurredAt
    let run := Conn.postTransaction seedChart L txn 5 fun _ => none
    (run.outcome = .ok .posted ↔ txn.Accepted seedChart) ∧
      (run.outcome = .ok .posted → ∃ W, txn.writes seedChart = .ok W ∧
        run.ledger = L.append W) := by
  intro txn run
  obtain ⟨hout, hled⟩ := postTransaction_no_faults seedChart L txn 5
  have hrun : run = postTransaction seedChart L txn 5 fun _ => none := Conn.postTransaction_eq ..
  have hfresh : L.Fresh txn := repairTransaction_fresh hid
  have hposted := attempt_posted_iff hL txn
  rw [hrun, hout, hled]
  refine ⟨by rw [hposted, and_iff_right hfresh], fun h => ?_⟩
  have haccepted := (hposted.mp h).2
  obtain ⟨W, hW⟩ := LedgerTransaction.writes_iff_accepted.mpr haccepted
  refine ⟨W, hW, ?_⟩
  rw [attempt_eq hL haccepted.unknownAccount_eq_none haccepted.storable,
    Ledger.fresh_iff.mp hfresh, hW]

variable (occurredAt) in
/-- **What the gate lets through to the ledger.**  A balanced repair is posted exactly when it is
applicable, and then as its transaction alone. -/
lemma approveAndApply_posted {L : Ledger} (hL : L.RowsAdmitted seedChart)
    (hid : ∀ t ∈ L.transactions, t.id ≠ id) (hnamed : strip approval.approvedBy.toList ≠ [])
    (hbal : repairIsBalanced verdict.proposedRepair = true) :
    ((approveAndApply L verdict approval id occurredAt).1 = .ok .posted ↔
      Applicable verdict approval) ∧
      ((approveAndApply L verdict approval id occurredAt).1 = .ok .posted →
        ∃ W, (repairTransaction verdict approval id occurredAt).writes seedChart = .ok W ∧
          (approveAndApply L verdict approval id occurredAt).2 = L.append W) := by
  have hne : verdict.proposedRepair.isEmpty = false := by
    have hlen := ((repairIsBalanced_iff _).mp hbal).1
    cases h : verdict.proposedRepair with
    | nil => simp [h] at hlen
    | cons e es => rfl
  obtain ⟨hposted, hledger⟩ := run_posted_iff verdict approval occurredAt hL hid
  have haccepted := repairTransaction_accepted_iff approval id occurredAt hbal
  unfold approveAndApply
  cases hmissing : verdict.moneyIsMissing with
  | false =>
      simp only [hnamed, if_false, Bool.not_false, if_true, reduceCtorEq, false_iff, false_implies,
        and_true]
      intro h
      simp [h.money_is_missing] at hmissing
  | true =>
      simp only [hnamed, hne, hbal, if_false, Bool.not_true, Bool.false_eq_true]
      have hmap : ∀ {o : Except Exn PostOutcome},
          o.mapError ApplyError.raised = .ok .posted ↔ o = .ok .posted :=
        fun {o} => by cases o <;> simp [Except.mapError]
      refine ⟨?_, fun h => hledger (hmap.mp h)⟩
      rw [hmap, hposted]
      constructor
      · intro h
        obtain ⟨haccounts, hcurrencies, hamounts, hcount, hmemo⟩ := haccepted.mp h
        exact ⟨hmissing, haccounts, hcurrencies, hamounts, hcount, hmemo⟩
      · intro h
        exact haccepted.mpr ⟨h.accounts, h.currencies, h.amounts, h.max_entries, h.memo⟩

end Accepts

/-- **When a repair that is scored correct could be applied and would fix the books.**  With a named
approver, on a healthy database with the seeded accounts: it is posted, and the changes it makes
take the observed balances to the expected ones, exactly when it is applicable. -/
theorem scored_repair_applies_iff (case : BenchCase) (verdict : TriageVerdict)
    (latencyS costUsd : ℚ) (refused : Bool)
    (hcorrect : (score case (some verdict) latencyS costUsd refused).repairCorrect = some true)
    (approval : RepairApproval) (hnamed : strip approval.approvedBy.toList ≠ []) (L : Ledger)
    (hL : L.Admitted seedChart) (id : Uuid) (hid : ∀ t ∈ L.transactions, t.id ≠ id)
    (occurredAt : ℤ) :
    let applied := approveAndApply L verdict approval id occurredAt
    (applied.1 = .ok .posted ∧ ∀ name, case.observedDelta.getD name 0 + changeOn L applied.2 name =
        case.expectedDelta.getD name 0) ↔
      Applicable verdict approval := by
  intro applied
  obtain ⟨-, -, hrestores⟩ := score_repairCorrect.mp hcorrect
  obtain ⟨hbal, hbalances⟩ := (repairRestoresExpectedBalances_iff _ _).mp hrestores
  obtain ⟨hposted, hledger⟩ := approveAndApply_posted occurredAt hL.toRowsAdmitted hid hnamed hbal
  refine ⟨fun h => hposted.mp h.1, fun h => ⟨hposted.mpr h, fun name => ?_⟩⟩
  obtain ⟨W, hW, hW'⟩ := hledger (hposted.mpr h)
  show case.observedDelta.getD name 0 +
      changeOn L (approveAndApply L verdict approval id occurredAt).2 name = _
  rw [hW', changeOn_writes ((repairIsBalanced_iff _).mp hbal).2.1 hW, ← getD_applyRepair]
  exact hbalances name

/-- A charge of 10.00 was lost, and the repair that posts it also moves a cent through an account
that does not exist. -/
def lostCharge : BenchCase where
  expectedDelta :=
    ⟨[("stripe_balance", 941), ("processing_fees", 59), ("revenue", 1000)], by decide⟩
  observedDelta := .empty
  caseId := "drop_first_event::drop-charge_succeeded-0000"
  labelFault := "DROP"
  moneyWasMissing := true
  repairable := true

/-- The entries that post the charge. -/
def chargeEntries : List RepairEntry :=
  [{ accountName := "stripe_balance", direction := "debit", amountMinor := 941,
     amountMinor_pos := by decide },
   { accountName := "processing_fees", direction := "debit", amountMinor := 59,
     amountMinor_pos := by decide },
   { accountName := "revenue", direction := "credit", amountMinor := 1000,
     amountMinor_pos := by decide }]

/-- A debit and a credit of one cent on an account that there is not. -/
def suspenseEntries : List RepairEntry :=
  [{ accountName := "suspense", direction := "debit", amountMinor := 1,
     amountMinor_pos := Int.one_pos },
   { accountName := "suspense", direction := "credit", amountMinor := 1,
     amountMinor_pos := Int.one_pos }]

/-- The verdict that proposes these entries. -/
def dropVerdict (entries : List RepairEntry) : TriageVerdict where
  proposedRepair := entries
  faultClass := .drop
  alternateFaultClasses := []
  confidence := 9 / 10
  moneyIsMissing := true
  repairMemo := "post the charge that was never delivered"

/-- Someone approves it. -/
def onCall : RepairApproval := ⟨"on-call", "drop-charge_succeeded-0000"⟩

/-- Without the other entries the repair is scored correct and posted. -/
theorem scored_repair_applies_iff_charge :
    (score lostCharge (some (dropVerdict chargeEntries)) 2 (1 / 100) false).repairCorrect =
      some true ∧
      (approveAndApply .empty (dropVerdict chargeEntries) onCall "r" 0).1 = .ok .posted := by
  have hcorrect :
      (score lostCharge (some (dropVerdict chargeEntries)) 2 (1 / 100) false).repairCorrect =
        some true := by
    decide
  refine ⟨hcorrect,
    ((scored_repair_applies_iff lostCharge (dropVerdict chargeEntries) 2
      (1 / 100) false hcorrect onCall (by decide) .empty (Ledger.empty_admitted seedChart) "r"
      (by simp [Ledger.empty]) 0).mpr ?_).1⟩
  exact ⟨rfl, by decide, by decide, by decide, by decide, by decide +kernel⟩

/-- With them it is scored correct all the same, and the ledger refuses it. -/
theorem scored_correct_not_posted :
    (score lostCharge (some (dropVerdict (chargeEntries ++ suspenseEntries))) 2
        (1 / 100) false).repairCorrect =
        some true ∧
      (approveAndApply .empty (dropVerdict (chargeEntries ++ suspenseEntries)) onCall "r" 0).1 =
        .error (.raised (.unknownAccount "suspense")) := by
  decide

end LedgerProof.Triage
