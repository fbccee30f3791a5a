import LedgerProof.Ledger.Schema

/-!
# Balances and the global invariant

The `account_balances` view of `migrations/001_ledger.sql` and `ledger/invariant.py`'s `check`
over it.  Balances are derived, never stored: `balanceMinor` sums an account's entries with the
sign the product of entry direction and account normal gives.

The view groups by *account* while the balance trigger of `Ledger/Schema.lean` groups by
*entry* currency within a transaction.  `total_signed_of_currency` is the exchange of the two
groupings: through the composite foreign key, the entries on the accounts of a currency are
the entries in that currency.  `check_difference` reads the global difference off it.
-/

namespace LedgerProof

/-! ## The view -/

/-- The sign expression of the view: an entry counts positively on its account's normal side. -/
def Account.signed (a : Account) (e : EntryRow) : ℤ :=
  if e.dir = a.normal then e.amountMinor else -e.amountMinor

/-- The `balance_minor` column of the row of `a`. -/
def Ledger.balanceMinor (L : Ledger) (a : Account) : ℤ :=
  total a.signed (L.entries.filter (·.accountId = a.id))

/-- `account_balances`: every account with its balance, accounts without entries included. -/
def accountBalances (chart : Chart) (L : Ledger) : List (Account × ℤ) :=
  chart.accounts.map fun a => (a, L.balanceMinor a)

@[simp] lemma Ledger.balanceMinor_append (L W : Ledger) (a : Account) :
    (L.append W).balanceMinor a = L.balanceMinor a + W.balanceMinor a := by
  simp [Ledger.balanceMinor]

/-- On a debit-normal account the view's sign is the trigger's sign. -/
lemma Account.signed_of_debit {a : Account} (h : a.normal = .debit) (e : EntryRow) :
    a.signed e = e.signedMinor := by
  cases hd : e.dir <;>
    simp [Account.signed, EntryRow.signedMinor, EntryRow.debitMinor, EntryRow.creditMinor, h, hd]

lemma Account.signed_of_credit {a : Account} (h : a.normal = .credit) (e : EntryRow) :
    a.signed e = -e.signedMinor := by
  cases hd : e.dir <;>
    simp [Account.signed, EntryRow.signedMinor, EntryRow.debitMinor, EntryRow.creditMinor, h, hd]

/-! ## `invariant.check` -/

/-- One row of the invariant's query. -/
structure CurrencyCheck where
  currency : Char3
  sumDebitNormal : ℤ
  sumCreditNormal : ℤ
  deriving DecidableEq, Repr

/-- The signed gap between the two sides. -/
def CurrencyCheck.difference (c : CurrencyCheck) : ℤ := c.sumDebitNormal - c.sumCreditNormal

/-- The currency conserves money. -/
def CurrencyCheck.ok (c : CurrencyCheck) : Bool := c.difference == 0

/-- The outcome of one invariant check. -/
structure InvariantResult where
  perCurrency : List CurrencyCheck
  deriving DecidableEq, Repr

/-- Every currency conserves money. -/
def InvariantResult.ok (r : InvariantResult) : Bool := r.perCurrency.all CurrencyCheck.ok

/-- The query's row for one currency: the balances of its debit-normal accounts, and those of
its credit-normal ones. -/
def checkCurrency (chart : Chart) (L : Ledger) (c : Char3) : CurrencyCheck :=
  let rows := (accountBalances chart L).filter (·.1.currency = c)
  { currency := c
    sumDebitNormal := total (fun r => if r.1.normal = .debit then r.2 else 0) rows
    sumCreditNormal := total (fun r => if r.1.normal = .credit then r.2 else 0) rows }

/-- `invariant.check`: one row per currency of the chart, in order. -/
def check (chart : Chart) (L : Ledger) : InvariantResult :=
  { perCurrency :=
      (((accountBalances chart L).map (·.1.currency)).dedup.insertionSort
        fun c d => c.1 ≤ d.1).map (checkCurrency chart L) }

lemma exists_mem_check {chart : Chart} (L : Ledger) {a : Account} (ha : a ∈ chart.accounts) :
    ∃ c ∈ (check chart L).perCurrency, c.currency = a.currency := by
  refine ⟨checkCurrency chart L a.currency, List.mem_map_of_mem ?_, rfl⟩
  rw [List.mem_insertionSort, List.mem_dedup, accountBalances, List.map_map]
  exact List.mem_map_of_mem ha

/-- The two sums of a row are over the accounts of its currency, by their normal side. -/
lemma sums_of_mem_check {chart : Chart} {L : Ledger} {c : CurrencyCheck}
    (hc : c ∈ (check chart L).perCurrency) :
    c.sumDebitNormal = total L.balanceMinor
        (chart.accounts.filter fun a => a.currency = c.currency ∧ a.normal = .debit) ∧
      c.sumCreditNormal = total L.balanceMinor
        (chart.accounts.filter fun a => a.currency = c.currency ∧ a.normal = .credit) := by
  obtain ⟨cur, -, rfl⟩ := List.mem_map.mp hc
  have hside : ∀ d : Direction,
      total (fun r => if r.1.normal = d then r.2 else 0)
          ((accountBalances chart L).filter (·.1.currency = cur)) =
        total L.balanceMinor
          (chart.accounts.filter fun a => a.currency = cur ∧ a.normal = d) := by
    intro d
    simp only [total_filter, accountBalances, total_map]
    refine total_congr fun a _ => ?_
    by_cases hcur : a.currency = cur <;> by_cases hd : a.normal = d <;> simp [hcur, hd]
  exact ⟨hside .debit, hside .credit⟩

/-- The accounts of one currency. -/
def Chart.ofCurrency (chart : Chart) (c : Char3) : List Account :=
  chart.accounts.filter (·.currency = c)

/-! ## Exchanging the groupings -/

lemma Chart.eq_of_id {chart : Chart} {a b : Account} (ha : a ∈ chart.accounts)
    (hb : b ∈ chart.accounts) (h : a.id = b.id) : a = b :=
  List.inj_on_of_nodup_map chart.id_nodup ha hb h

lemma Chart.eq_of_name {chart : Chart} {a b : Account} (ha : a ∈ chart.accounts)
    (hb : b ∈ chart.accounts) (h : a.name = b.name) : a = b :=
  List.inj_on_of_nodup_map chart.name_nodup ha hb h

/-- The composite foreign key, read through the account's primary key: the account of an entry
has the entry's currency. -/
lemma Ledger.RowsAdmitted.account_of_entry {chart : Chart} {L : Ledger}
    (hL : L.RowsAdmitted chart) {e : EntryRow} (he : e ∈ L.entries) :
    ∃ a ∈ chart.accounts, a.id = e.accountId ∧ a.currency = e.currency := by
  obtain ⟨a, ha, heq⟩ := List.mem_map.mp (hL.entries_currency_matches_account e he)
  exact ⟨a, ha, congrArg Prod.fst heq, congrArg Prod.snd heq⟩

/-- An entry is on an account of currency `c` exactly when it is in currency `c`. -/
lemma Ledger.RowsAdmitted.mem_ofCurrency_iff {chart : Chart} {L : Ledger}
    (hL : L.RowsAdmitted chart) {e : EntryRow} (he : e ∈ L.entries) (c : Char3) :
    e.accountId ∈ (chart.ofCurrency c).map (·.id) ↔ e.currency = c := by
  obtain ⟨a, ha, hid, hcur⟩ := hL.account_of_entry he
  constructor
  · intro hmem
    obtain ⟨b, hb, hbid⟩ := List.mem_map.mp hmem
    obtain ⟨hb, hbc⟩ := List.mem_filter.mp hb
    have hab : a = b := Chart.eq_of_id ha hb (hid.trans hbid.symm)
    rw [← hcur, hab]
    simpa using hbc
  · intro hc
    refine List.mem_map.mpr ⟨a, List.mem_filter.mpr ⟨ha, ?_⟩, hid⟩
    simpa [hcur] using hc

/-- The accounts of a currency, each with its entries, hold the entries in that currency. -/
lemma total_signed_of_currency {chart : Chart} {L : Ledger} (hL : L.RowsAdmitted chart)
    (c : Char3) :
    total (fun a : Account => total EntryRow.signedMinor (L.entries.filter (·.accountId = a.id)))
        (chart.ofCurrency c) =
      total EntryRow.signedMinor (L.entries.filter (·.currency = c)) := by
  have hnd : ((chart.ofCurrency c).map (·.id)).Nodup :=
    chart.id_nodup.sublist (List.filter_sublist.map _)
  have hgroups := sum_groups_filter hnd (fun e : EntryRow => e.accountId) EntryRow.signedMinor
    L.entries
  rw [total_map] at hgroups
  rw [hgroups]
  congr 1
  refine List.filter_congr fun e he => ?_
  simpa using hL.mem_ofCurrency_iff he c

/-- The entries in a currency, grouped by transaction, leave the imbalances of the
transactions over. -/
lemma total_signed_eq_imbalances {chart : Chart} {L : Ledger} (hL : L.RowsAdmitted chart)
    (c : Char3) :
    total EntryRow.signedMinor (L.entries.filter (·.currency = c)) =
      total (fun t : TransactionRow => L.imbalance t.id c) L.transactions := by
  have hgroups := sum_groups hL.transactions_pkey (fun e : EntryRow => e.transactionId)
    EntryRow.signedMinor (L.entries.filter (·.currency = c))
    (fun e he => hL.entries_transaction_fkey e (List.mem_filter.mp he).1)
  rw [total_map] at hgroups
  rw [← hgroups]
  refine total_congr fun t _ => ?_
  rw [Ledger.imbalance, Ledger.txnEntries, List.filter_filter, List.filter_filter]
  congr 1
  exact List.filter_congr fun e _ => Bool.and_comm _ _

lemma checkCurrency_difference (chart : Chart) (L : Ledger) (c : Char3) :
    (checkCurrency chart L c).difference =
      total (fun a : Account => total EntryRow.signedMinor (L.entries.filter (·.accountId = a.id)))
        (chart.ofCurrency c) := by
  have hrows : (accountBalances chart L).filter (·.1.currency = c) =
      (chart.ofCurrency c).map fun a => (a, L.balanceMinor a) := by
    simp [accountBalances, Chart.ofCurrency, List.filter_map, Function.comp_def]
  rw [CurrencyCheck.difference, checkCurrency, hrows]
  simp only [total_map]
  rw [← total_sub]
  refine total_congr fun a _ => ?_
  cases hn : a.normal with
  | debit =>
      simp only [if_true, reduceCtorEq, if_false, sub_zero, Ledger.balanceMinor]
      exact total_congr fun e _ => Account.signed_of_debit hn e
  | credit =>
      simp only [if_true, reduceCtorEq, if_false, zero_sub, Ledger.balanceMinor]
      rw [← total_neg]
      exact total_congr fun e _ => by rw [Account.signed_of_credit hn, neg_neg]

/-- **The global difference.** In every currency it is the sum of the imbalances of the
ledger's transactions. -/
lemma check_difference {chart : Chart} {L : Ledger} (hL : L.RowsAdmitted chart) (c : Char3) :
    (checkCurrency chart L c).difference =
      total (fun t : TransactionRow => L.imbalance t.id c) L.transactions := by
  rw [checkCurrency_difference, total_signed_of_currency hL, total_signed_eq_imbalances hL]

lemma Ledger.Admitted.check_difference_eq_zero {chart : Chart} {L : Ledger}
    (hL : L.Admitted chart) {c : CurrencyCheck} (hc : c ∈ (check chart L).perCurrency) :
    c.difference = 0 := by
  obtain ⟨cur, -, rfl⟩ := List.mem_map.mp hc
  rw [check_difference hL.toRowsAdmitted]
  exact total_eq_zero fun t _ => hL.balanced t.id cur

lemma Ledger.Admitted.check_ok {chart : Chart} {L : Ledger} (hL : L.Admitted chart) :
    (check chart L).ok = true := by
  refine List.all_eq_true.mpr fun c hc => ?_
  simp [CurrencyCheck.ok, hL.check_difference_eq_zero hc]

end LedgerProof
