import LedgerProof.Lib.Dict

/-!
# What a compensating transaction can repair

`repair_is_balanced` of `triage/schema.py`, and `apply_repair` and
`repair_restores_expected_balances` of `triage/bench.py`, which score a proposed repair against the
balances the delivered events imply.

A repair the database accepts moves both sides of the books by the same amount, so it keeps their
`gap` (`gap_applyRepair`), and any two sets of balances with the same gap are joined by the repair
that posts the differences (`correction`).  `repairable_iff_gap_eq` is the two together.
-/

namespace LedgerProof.Triage

/-- The seeded chart of accounts: name to normal direction. -/
def accountNormals : Dict String String :=
  ⟨[("stripe_balance", "debit"), ("bank", "debit"), ("processing_fees", "debit"),
    ("dispute_losses", "debit"), ("refunds_contra", "debit"), ("revenue", "credit"),
    ("customer_liability", "credit")], by decide⟩

/-- One leg of a proposed compensating transaction. -/
structure RepairEntry where
  accountName : String
  direction : String
  amountMinor : ℤ
  currency : String := "USD"
  amountMinor_pos : 0 < amountMinor

/-- `1 if entry.direction == "debit" else -1`, times the amount. -/
def RepairEntry.net (e : RepairEntry) : ℤ :=
  (if e.direction = "debit" then 1 else -1) * e.amountMinor

/-- The loop of `repair_is_balanced`: the net of each currency, `none` once a direction is neither
of the two. -/
def perCurrency (entries : List RepairEntry) : Option (Dict String ℤ) :=
  entries.foldlM (fun nets e =>
    if e.direction ∉ ["debit", "credit"] then none
    else some (nets.set e.currency (nets.getD e.currency 0 + e.net))) Dict.empty

/-- `repair_is_balanced`. -/
def repairIsBalanced (entries : List RepairEntry) : Bool :=
  if entries.length < 2 then false
  else
    match perCurrency entries with
    | none => false
    | some nets => nets.items.all fun i => i.2 = 0

/-- One step of `apply_repair`: an account that does not exist keeps its balance, or gets a zero. -/
def applyEntry (result : Dict String ℤ) (e : RepairEntry) : Dict String ℤ :=
  match accountNormals.get? e.accountName with
  | none => result.set e.accountName (result.getD e.accountName 0)
  | some normal =>
      let signed := if e.direction = normal then e.amountMinor else -e.amountMinor
      result.set e.accountName (result.getD e.accountName 0 + signed)

/-- `apply_repair`: the balances after posting these entries. -/
def applyRepair (observed : Dict String ℤ) (entries : List RepairEntry) : Dict String ℤ :=
  (entries.foldl applyEntry observed).filter (· ≠ 0)

/-- A benchmark item, with the two sets of balances the score reads. -/
structure Case where
  expectedDelta : Dict String ℤ
  observedDelta : Dict String ℤ

/-- The agent's answer, with the part the score reads. -/
structure Verdict where
  proposedRepair : List RepairEntry

/-- `repair_restores_expected_balances`. -/
def repairRestoresExpectedBalances (case : Case) (verdict : Verdict) : Bool :=
  if verdict.proposedRepair.isEmpty || !repairIsBalanced verdict.proposedRepair then false
  else (applyRepair case.observedDelta verdict.proposedRepair).same
    (case.expectedDelta.filter (· ≠ 0))

/-! ## Balanced repairs -/

/-- The two directions there are. -/
def RepairEntry.Directed (e : RepairEntry) : Prop := e.direction = "debit" ∨ e.direction = "credit"

lemma perCurrency_eq {entries : List RepairEntry} {nets : Dict String ℤ} (d : Dict String ℤ) :
    entries.foldlM (fun nets e =>
      if e.direction ∉ ["debit", "credit"] then none
      else some (nets.set e.currency (nets.getD e.currency 0 + e.net))) d = some nets ↔
      (∀ e ∈ entries, e.Directed) ∧
        nets = d.tally RepairEntry.currency RepairEntry.net entries := by
  induction entries generalizing d with
  | nil => simp [Dict.tally, eq_comm]
  | cons e entries ih =>
      rw [List.foldlM_cons]
      by_cases hdir : e.Directed
      · have hmem : e.direction ∈ ["debit", "credit"] := by simpa [RepairEntry.Directed] using hdir
        simp only [hmem, not_true_eq_false, if_false]
        rw [Option.bind_eq_bind, Option.bind_some, ih]
        simp [hdir, Dict.tally]
      · have hmem : e.direction ∉ ["debit", "credit"] := by simpa [RepairEntry.Directed] using hdir
        simp [hmem, hdir]

/-- A repair is balanced when it has two entries, all debits or credits, that cancel in every
currency. -/
lemma repairIsBalanced_iff (entries : List RepairEntry) :
    repairIsBalanced entries = true ↔
      2 ≤ entries.length ∧ (∀ e ∈ entries, e.Directed) ∧
        ∀ c, total RepairEntry.net (entries.filter fun e => e.currency = c) = 0 := by
  unfold repairIsBalanced
  by_cases hlen : entries.length < 2
  · have : ¬ 2 ≤ entries.length := by omega
    simp [hlen, this]
  · rw [if_neg hlen]
    have hlen : 2 ≤ entries.length := by omega
    cases hnets : perCurrency entries with
    | none =>
        have hdir : ¬ ∀ e ∈ entries, e.Directed := fun hdir => by
          have := (perCurrency_eq Dict.empty).mpr ⟨hdir, rfl⟩
          rw [← perCurrency, hnets] at this
          cases this
        simp [hdir]
    | some nets =>
        obtain ⟨hdir, rfl⟩ := (perCurrency_eq Dict.empty).mp hnets
        have hitems := Dict.forall_items_eq_zero_iff
          (Dict.empty.tally RepairEntry.currency RepairEntry.net entries)
        simp only [Dict.getD_tally, Dict.getD_empty, zero_add] at hitems
        simp only [List.all_eq_true, decide_eq_true_iff, hitems, hlen, true_and]
        exact ⟨fun h => ⟨hdir, h⟩, fun h => h.2⟩

/-- In one currency the entries of a balanced repair cancel. -/
lemma total_net_eq_zero {entries : List RepairEntry} {c : String}
    (hbal : repairIsBalanced entries = true) (hcur : ∀ e ∈ entries, e.currency = c) :
    total RepairEntry.net entries = 0 := by
  have hzero := ((repairIsBalanced_iff entries).mp hbal).2.2 c
  rwa [List.filter_eq_self.mpr fun e he => by simpa using hcur e he] at hzero

/-! ## Applying a repair -/

/-- What an entry adds to its account. -/
def RepairEntry.signed (e : RepairEntry) : ℤ :=
  match accountNormals.get? e.accountName with
  | none => 0
  | some normal => if e.direction = normal then e.amountMinor else -e.amountMinor

lemma foldl_applyEntry (observed : Dict String ℤ) (entries : List RepairEntry) :
    entries.foldl applyEntry observed = observed.tally RepairEntry.accountName RepairEntry.signed
      entries := by
  unfold Dict.tally
  congr 1
  funext result e
  unfold applyEntry RepairEntry.signed
  cases accountNormals.get? e.accountName <;> simp

lemma get?_applyRepair (observed : Dict String ℤ) (entries : List RepairEntry) (name : String) :
    (applyRepair observed entries).get? name =
      if observed.getD name 0 + total RepairEntry.signed (entries.filter fun e =>
        e.accountName = name) = 0
      then none
      else some (observed.getD name 0 +
        total RepairEntry.signed (entries.filter fun e => e.accountName = name)) := by
  rw [applyRepair, Dict.get?_filter_ne_zero, foldl_applyEntry, Dict.getD_tally]

lemma getD_applyRepair (observed : Dict String ℤ) (entries : List RepairEntry) (name : String) :
    (applyRepair observed entries).getD name 0 =
      observed.getD name 0 + total RepairEntry.signed (entries.filter fun e =>
        e.accountName = name) := by
  rw [Dict.getD, get?_applyRepair]
  split_ifs with h
  · exact h.symm
  · rfl

/-- The score is whether every account ends with its expected balance. -/
lemma repairRestoresExpectedBalances_iff (case : Case) (verdict : Verdict) :
    repairRestoresExpectedBalances case verdict = true ↔
      repairIsBalanced verdict.proposedRepair = true ∧ ∀ name,
        (applyRepair case.observedDelta verdict.proposedRepair).getD name 0 =
          case.expectedDelta.getD name 0 := by
  unfold repairRestoresExpectedBalances
  cases hbal : repairIsBalanced verdict.proposedRepair with
  | false => simp
  | true =>
      have hne : verdict.proposedRepair.isEmpty = false := by
        have hlen := ((repairIsBalanced_iff _).mp hbal).1
        cases h : verdict.proposedRepair with
        | nil => simp [h] at hlen
        | cons e es => rfl
      simp only [hne, Bool.not_true, Bool.or_self, Bool.false_eq_true, if_false, Dict.same_iff,
        true_and]
      refine forall_congr' fun name => ?_
      rw [get?_applyRepair, getD_applyRepair, Dict.get?_filter_ne_zero]
      constructor
      · intro h
        split_ifs at h with ha hb hb
        · rw [ha, hb]
        · exact Option.some_inj.mp h
      · intro h
        rw [h]

/-! ## The gap -/

/-- The sum over the debit-normal accounts minus the sum over the credit-normal ones. -/
def gap (d : Dict String ℤ) : ℤ :=
  total (fun i => d.getD i.1 0) (accountNormals.items.filter (·.2 = "debit")) -
    total (fun i => d.getD i.1 0) (accountNormals.items.filter (·.2 = "credit"))

/-- The sign an account has in the gap. -/
def side (name : String) : ℤ := if accountNormals.get? name = some "debit" then 1 else -1

lemma side_mul_side (name : String) : side name * side name = 1 := by
  unfold side
  split_ifs <;> norm_num

lemma gap_eq (d : Dict String ℤ) :
    gap d = total (fun name => side name * d.getD name 0) accountNormals.keys := by
  simp [gap, accountNormals, Dict.keys, side, Dict.get?, List.lookup_cons]
  ring

lemma normal_of_mem {name : String} (h : name ∈ accountNormals.keys) :
    accountNormals.get? name = some "debit" ∨ accountNormals.get? name = some "credit" := by
  have hall : ∀ name ∈ accountNormals.keys, accountNormals.get? name = some "debit" ∨
      accountNormals.get? name = some "credit" := by decide
  exact hall name h

/-- On an account there is, an entry moves the gap by its debit or credit. -/
lemma side_mul_signed {e : RepairEntry} (hdir : e.Directed)
    (hname : e.accountName ∈ accountNormals.keys) :
    side e.accountName * e.signed = e.net := by
  unfold side RepairEntry.signed RepairEntry.net
  rcases normal_of_mem hname with hn | hn <;> rcases hdir with hd | hd <;> simp [hn, hd]

/-- Posting entries moves the gap by their net. -/
lemma gap_applyRepair (observed : Dict String ℤ) {entries : List RepairEntry}
    (hdir : ∀ e ∈ entries, e.Directed)
    (hname : ∀ e ∈ entries, e.accountName ∈ accountNormals.keys) :
    gap (applyRepair observed entries) = gap observed + total RepairEntry.net entries := by
  have hgroup : ∀ name, side name *
      total RepairEntry.signed (entries.filter fun e => e.accountName = name) =
      total RepairEntry.net (entries.filter fun e => e.accountName = name) := by
    intro name
    rw [total, ← List.sum_map_mul_left, ← total]
    refine total_congr fun e he => ?_
    obtain ⟨hmem, rfl⟩ : e ∈ entries ∧ e.accountName = name := by simpa using he
    exact side_mul_signed (hdir e hmem) (hname e hmem)
  calc gap (applyRepair observed entries)
      = total (fun name => side name * observed.getD name 0 +
          total RepairEntry.net (entries.filter fun e =>
            e.accountName = name)) accountNormals.keys := by
        rw [gap_eq]
        refine total_congr fun name _ => ?_
        rw [getD_applyRepair, mul_add, hgroup]
    _ = gap observed + total RepairEntry.net entries := by
        rw [total_add, ← gap_eq, sum_groups accountNormals.keys_nodup _ _ _ hname]

/-! ## The repair that corrects the books -/

/-- The entry that moves an account by `δ`, none if there is nothing to move. -/
def correct (name : String) (δ : ℤ) : Option RepairEntry :=
  if h : δ = 0 then none
  else some
    { accountName := name
      direction := if 0 < side name * δ then "debit" else "credit"
      amountMinor := |δ|
      amountMinor_pos := abs_pos.mpr h }

/-- A debit and a credit of one cent on the same account, so that a repair has two entries. -/
def wash : List RepairEntry :=
  [{ accountName := "bank", direction := "debit", amountMinor := 1, amountMinor_pos := by decide },
   { accountName := "bank", direction := "credit", amountMinor := 1, amountMinor_pos := by decide }]

/-- One entry per account whose balance is off. -/
def correction (δ : String → ℤ) (names : List String) : List RepairEntry :=
  names.filterMap fun name => correct name (δ name)

lemma correct_eq_some {name : String} {δ : ℤ} {e : RepairEntry} (h : correct name δ = some e) :
    e.accountName = name ∧ e.Directed ∧ e.currency = "USD" ∧ e.net = side name * δ := by
  have hside : side name = 1 ∨ side name = -1 := by
    unfold side
    split_ifs <;> simp
  unfold correct at h
  by_cases hδ : δ = 0
  · simp [hδ] at h
  · rw [dif_neg hδ, Option.some_inj] at h
    subst h
    refine ⟨rfl, ?_, rfl, ?_⟩
    · by_cases hpos : 0 < side name * δ <;> simp [RepairEntry.Directed, hpos]
    · -- the amount is `|side * δ|`, with the sign the direction gives back
      have habs : |δ| = |side name * δ| := by rcases hside with hs | hs <;> simp [hs]
      unfold RepairEntry.net
      by_cases hpos : 0 < side name * δ
      · simp only [if_pos hpos, if_true, habs, abs_of_pos hpos, one_mul]
      · have hneg : |side name * δ| = -(side name * δ) := abs_of_nonpos (not_lt.mp hpos)
        simp only [if_neg hpos, habs, hneg]
        simp

lemma mem_correction {δ : String → ℤ} {names : List String} {e : RepairEntry}
    (h : e ∈ correction δ names) :
    e.accountName ∈ names ∧ e.Directed ∧ e.currency = "USD" := by
  obtain ⟨name, hname, he⟩ := List.mem_filterMap.mp h
  obtain ⟨rfl, hdir, hcur, -⟩ := correct_eq_some he
  exact ⟨hname, hdir, hcur⟩

lemma total_correction (δ : String → ℤ) (f : RepairEntry → ℤ) (g : String → ℤ) (names : List String)
    (hnone : ∀ name ∈ names, δ name = 0 → g name = 0)
    (hsome : ∀ name ∈ names, ∀ e, correct name (δ name) = some e → f e = g name) :
    total f (correction δ names) = total g names := by
  induction names with
  | nil => rfl
  | cons name names ih =>
      have ih := ih (fun n hn => hnone n (by simp [hn])) (fun n hn => hsome n (by simp [hn]))
      unfold correction at ih ⊢
      cases hc : correct name (δ name) with
      | none =>
          have hδ : δ name = 0 := by
            by_contra hδ
            simp [correct, hδ] at hc
          simp only [List.filterMap_cons, hc]
          rw [total_cons, ih, hnone name (by simp) hδ, zero_add]
      | some e =>
          simp only [List.filterMap_cons, hc]
          rw [total_cons, total_cons, ih, hsome name (by simp) e hc]

/-- The corrections move each account by its difference. -/
lemma total_signed_correction (δ : String → ℤ) {name : String} (h : name ∈ accountNormals.keys) :
    total RepairEntry.signed ((correction δ accountNormals.keys).filter fun e =>
      e.accountName = name) =
      δ name := by
  rw [total_filter, total_correction δ _ (fun n => if n = name then δ n else 0)]
  · rw [total_single accountNormals.keys_nodup h fun n _ hne => if_neg hne, if_pos rfl]
  · intro n _ hδ
    simp [hδ]
  · intro n hn e he
    obtain ⟨rfl, hdir, -, hnet⟩ := correct_eq_some he
    have hsigned : e.signed = δ e.accountName := by
      calc e.signed
        _ = side e.accountName * side e.accountName * e.signed := by
          rw [side_mul_side, one_mul]
        _ = side e.accountName * (side e.accountName * δ e.accountName) := by
          rw [mul_assoc, side_mul_signed hdir hn, hnet]
        _ = δ e.accountName := by rw [← mul_assoc, side_mul_side, one_mul]
    simp [hsigned]

/-- Corrections that keep the gap cancel. -/
lemma total_net_correction (observed expected : Dict String ℤ) :
    total RepairEntry.net
      (correction (fun name => expected.getD name 0 - observed.getD name 0) accountNormals.keys) =
      gap expected - gap observed := by
  rw [total_correction _ _ (fun n => side n * (expected.getD n 0 - observed.getD n 0)), gap_eq,
    gap_eq, ← total_sub]
  · exact total_congr fun n _ => mul_sub _ _ _
  · intro n _ hδ
    rw [hδ, mul_zero]
  · intro n _ e he
    exact (correct_eq_some he).2.2.2

/-- The repair that corrects a case. -/
def repairFor (case : Case) : List RepairEntry :=
  correction (fun name => case.expectedDelta.getD name 0 - case.observedDelta.getD name 0)
    accountNormals.keys ++ wash

lemma mem_repairFor {case : Case} {e : RepairEntry} (h : e ∈ repairFor case) :
    e.accountName ∈ accountNormals.keys ∧ e.Directed ∧ e.currency = "USD" := by
  rcases List.mem_append.mp h with h | h
  · exact mem_correction h
  · have hbank : "bank" ∈ accountNormals.keys := by decide
    simp only [wash, List.mem_cons, List.not_mem_nil, or_false] at h
    rcases h with rfl | rfl
    · exact ⟨hbank, .inl rfl, rfl⟩
    · exact ⟨hbank, .inr rfl, rfl⟩

lemma total_signed_repairFor (case : Case) {name : String} (h : name ∈ accountNormals.keys) :
    total RepairEntry.signed ((repairFor case).filter fun e => e.accountName = name) =
      case.expectedDelta.getD name 0 - case.observedDelta.getD name 0 := by
  have hwash : total RepairEntry.signed (wash.filter fun e => e.accountName = name) = 0 := by
    by_cases hb : "bank" = name
    · subst hb
      rfl
    · simp [wash, hb]
  rw [repairFor, List.filter_append, total_append, total_signed_correction _ h, hwash, add_zero]

lemma repairFor_balanced {case : Case} (hgap : gap case.observedDelta = gap case.expectedDelta) :
    repairIsBalanced (repairFor case) = true := by
  have hnet : total RepairEntry.net (repairFor case) = 0 := by
    have hwash : total RepairEntry.net wash = 0 := rfl
    rw [repairFor, total_append, total_net_correction, hgap, sub_self, hwash, add_zero]
  refine (repairIsBalanced_iff _).mpr ⟨?_, fun e he => (mem_repairFor he).2.1, fun c => ?_⟩
  · rw [repairFor, List.length_append]
    exact Nat.le_add_left 2 _
  · by_cases hc : "USD" = c
    · rw [List.filter_eq_self.mpr fun e he => by simp [(mem_repairFor he).2.2, hc], hnet]
    · rw [List.filter_eq_nil_iff.mpr fun e he => by simp [(mem_repairFor he).2.2, hc], total_nil]

/-- **Repairability is a zero change of the gap.**  Between two sets of balances over the chart of
accounts there is a repair in one currency that the score accepts exactly when their gaps are equal;
and no balanced repair over the chart in one currency changes the gap. -/
theorem repairable_iff_gap_eq (case : Case)
    (hobserved : ∀ name ∈ case.observedDelta.keys, name ∈ accountNormals.keys)
    (hexpected : ∀ name ∈ case.expectedDelta.keys, name ∈ accountNormals.keys) :
    ((∃ verdict : Verdict,
        (∀ e ∈ verdict.proposedRepair, e.accountName ∈ accountNormals.keys) ∧
        (∃ c, ∀ e ∈ verdict.proposedRepair, e.currency = c) ∧
        repairRestoresExpectedBalances case verdict = true) ↔
      gap case.observedDelta = gap case.expectedDelta) ∧
    ∀ entries : List RepairEntry, repairIsBalanced entries = true →
      (∀ e ∈ entries, e.accountName ∈ accountNormals.keys) → (∃ c, ∀ e ∈ entries, e.currency = c) →
      gap (applyRepair case.observedDelta entries) = gap case.observedDelta := by
  have hkeep : ∀ entries : List RepairEntry, repairIsBalanced entries = true →
      (∀ e ∈ entries, e.accountName ∈ accountNormals.keys) → (∃ c, ∀ e ∈ entries, e.currency = c) →
      gap (applyRepair case.observedDelta entries) = gap case.observedDelta := by
    rintro entries hbal hname ⟨c, hcur⟩
    rw [gap_applyRepair _ ((repairIsBalanced_iff _).mp hbal).2.1 hname, total_net_eq_zero hbal hcur,
      add_zero]
  refine ⟨⟨?_, ?_⟩, hkeep⟩
  · rintro ⟨verdict, hname, hcur, hrestores⟩
    obtain ⟨hbal, hall⟩ := (repairRestoresExpectedBalances_iff _ _).mp hrestores
    rw [← hkeep _ hbal hname hcur, gap_eq, gap_eq]
    exact total_congr fun name _ => by rw [hall]
  · intro hgap
    refine ⟨⟨repairFor case⟩, fun e he => (mem_repairFor he).1,
      ⟨"USD", fun e he => (mem_repairFor he).2.2⟩, ?_⟩
    rw [repairRestoresExpectedBalances_iff]
    refine ⟨repairFor_balanced hgap, fun name => ?_⟩
    rw [getD_applyRepair]
    by_cases hname : name ∈ accountNormals.keys
    · rw [total_signed_repairFor case hname]
      ring
    · -- outside the chart neither side has a balance, and no entry of the repair is there
      have hnone : (repairFor case).filter (fun e => e.accountName = name) = [] :=
        List.filter_eq_nil_iff.mpr fun e he hn =>
          hname ((of_decide_eq_true hn : e.accountName = name) ▸ (mem_repairFor he).1)
      rw [hnone, Dict.getD, Dict.getD, Dict.get?_eq_none_iff.mpr fun h => hname (hobserved name h),
        Dict.get?_eq_none_iff.mpr fun h => hname (hexpected name h)]
      rfl

/-- A charge of 10.00 posted twice is repaired, and books left with a gap of 0.59 are not. -/
theorem repairable_iff_gap_eq_double_post :
    (∃ verdict : Verdict,
      repairRestoresExpectedBalances
        { observedDelta :=
            ⟨[("stripe_balance", 1882), ("processing_fees", 118), ("revenue", 2000)], by decide⟩
          expectedDelta :=
            ⟨[("stripe_balance", 941), ("processing_fees", 59), ("revenue", 1000)], by decide⟩ }
        verdict = true) ∧
    ¬ ∃ verdict : Verdict,
      (∀ e ∈ verdict.proposedRepair, e.accountName ∈ accountNormals.keys) ∧
      (∃ c, ∀ e ∈ verdict.proposedRepair, e.currency = c) ∧
      repairRestoresExpectedBalances
        { observedDelta := ⟨[("stripe_balance", 941), ("revenue", 1000), ("bank", 0)], by decide⟩
          expectedDelta :=
            ⟨[("stripe_balance", 941), ("processing_fees", 59), ("revenue", 1000)], by decide⟩ }
        verdict = true := by
  constructor
  · obtain ⟨verdict, -, -, h⟩ := (repairable_iff_gap_eq
      { observedDelta :=
          ⟨[("stripe_balance", 1882), ("processing_fees", 118), ("revenue", 2000)], by decide⟩
        expectedDelta :=
          ⟨[("stripe_balance", 941), ("processing_fees", 59), ("revenue", 1000)], by decide⟩ }
      (by decide) (by decide)).1.mpr (by decide)
    exact ⟨verdict, h⟩
  · rw [(repairable_iff_gap_eq _ (by decide) (by decide)).1]
    decide

end LedgerProof.Triage
