import LedgerProof.Recon.Expected

/-!
# The reconciler's reading and the balances view

`_load_ledger` sums the entries of a transaction on an account, drops what is zero, and leaves the
summing over transactions to its callers; the view `account_balances` sums the entries of an account
over all transactions at once.  Both use the same sign.  Adding the deltas of the loaded
transactions up gives the view (`load_ledger_agrees`), also when a currency is asked for: what a
transaction has in other currencies is on other accounts.
-/

namespace LedgerProof

/-- The entries of a transaction in the currency; all of them, where none is given. -/
def Ledger.entriesIn (L : Ledger) (currency : Option Char3) (t : TransactionRow) : List EntryRow :=
  (L.txnEntries t.id).filter fun e => currency.all (e.currency = ·)

section

variable {chart : Chart} {L : Ledger} {currency : Option Char3} {t : TransactionRow}

lemma entriesIn_ne_nil_iff (hL : L.RowsAdmitted chart) :
    L.entriesIn currency t ≠ [] ↔ touchedAccounts chart L currency t ≠ [] := by
  rw [touchedAccounts_ne_nil_iff hL, Ledger.entriesIn, ne_eq, List.filter_eq_nil_iff]
  push Not
  rfl

/-- A column of a transaction's entries in the currency, summed by account. -/
lemma total_touchedAccounts (hL : L.RowsAdmitted chart) (f : EntryRow → ℤ) :
    total (fun a => total f (L.entriesOn t a)) (touchedAccounts chart L currency t) =
      total f (L.entriesIn currency t) := by
  have hnd : ((touchedAccounts chart L currency t).map (·.id)).Nodup :=
    (((List.perm_insertionSort _ _).map _).nodup_iff.mpr
      (chart.id_nodup.sublist (List.filter_sublist.map _))).sublist (List.filter_sublist.map _)
  have hgroups := sum_groups hnd (fun e : EntryRow => e.accountId) f (L.entriesIn currency t) fun e
    he => by
    obtain ⟨he, hcur⟩ := List.mem_filter.mp he
    obtain ⟨a, ha, hid, hacur⟩ := hL.account_of_entry (Ledger.mem_txnEntries.mp he).1
    refine List.mem_map.mpr ⟨a, mem_touchedAccounts.mpr ⟨ha, by rw [hacur]; exact hcur, ?_⟩, hid⟩
    exact List.ne_nil_of_mem (List.mem_filter.mpr ⟨he, by simp [hid]⟩)
  rw [total_map] at hgroups
  rw [← hgroups]
  refine total_congr fun a ha => ?_
  obtain ⟨ha, hcur, -⟩ := mem_touchedAccounts.mp ha
  rw [Ledger.entriesOn, Ledger.entriesIn, List.filter_filter]
  congr 1
  refine List.filter_congr fun e he => ?_
  by_cases hacc : e.accountId = a.id
  · -- an entry on an account of the currency is in the currency
    obtain ⟨b, hb, hid, hbcur⟩ := hL.account_of_entry (Ledger.mem_txnEntries.mp he).1
    rw [Chart.eq_of_id hb ha (hid.trans hacc)] at hbcur
    simp [hacc, ← hbcur, hcur]
  · simp [hacc]

lemma total_loadLedger (hL : L.RowsAdmitted chart) {a : Account} (ha : a ∈ chart.accounts)
    (hcur : currency.all (a.currency = ·) = true) :
    total (fun x => x.delta.getD a.name 0) (loadLedger chart L currency none) =
      L.balanceMinor a := by
  have horder : (L.inOrder none).Perm L.transactions := by
    have := List.perm_insertionSort (fun s t : TransactionRow =>
      s.occurredAt < t.occurredAt ∨ (s.occurredAt = t.occurredAt ∧ s.id ≤ t.id)) L.transactions
    simpa [Ledger.inOrder] using this
  rw [loadLedger_eq hL, total_map, balanceMinor_eq_total hL, ← total_perm horder, total_filter]
  refine total_congr fun t _ => ?_
  rw [summary_getD, deltaOn_name ha hcur]
  split_ifs with htouch
  · rfl
  · -- a transaction that is not loaded has no entry on the account
    refine (netMinor_eq_zero ?_).symm
    by_contra hne
    exact htouch (by simpa using List.ne_nil_of_mem (mem_touchedAccounts.mpr ⟨ha, hcur, hne⟩))

lemma eq_summary_of_mem (hL : L.RowsAdmitted chart) {x : LedgerTxn}
    (hx : x ∈ loadLedger chart L currency none) (ht : t ∈ L.transactions) (hid : t.id = x.txnId) :
    x = L.summary chart currency t := by
  rw [loadLedger_eq hL] at hx
  obtain ⟨s, hs, rfl⟩ := List.mem_map.mp hx
  have hs : s ∈ L.transactions := by
    have := (List.mem_filter.mp hs).1
    simp only [Ledger.inOrder, List.mem_insertionSort, List.mem_filter] at this
    exact this.1
  rw [List.inj_on_of_nodup_map hL.transactions_pkey ht hs hid]

end

/-- **The reconciler and the balances view agree.**  On every ledger the schema admits, for every
currency or for none: the deltas of the loaded transactions add up to the view's balance on each
account, no account of another currency appears, and the transactions that have an entry of the
currency are loaded once each, with their nonzero net on every account and the sum of their
debits. -/
theorem load_ledger_agrees (chart : Chart) (L : Ledger) (hL : L.Admitted chart)
    (currency : Option Char3) :
    let txns := loadLedger chart L currency none
    (∀ r ∈ accountBalances chart L, currency.all (r.1.currency = ·) = true →
      total (fun x => x.delta.getD r.1.name 0) txns = r.2) ∧
    (∀ x ∈ txns, ∀ name ∈ x.delta.keys,
      ∃ a ∈ chart.accounts, a.name = name ∧ currency.all (a.currency = ·) = true) ∧
    (txns.map (·.txnId)).Nodup ∧
    (∀ id, id ∈ txns.map (·.txnId) ↔ ∃ t ∈ L.transactions, t.id = id ∧
      L.entriesIn currency t ≠ []) ∧
    ∀ x ∈ txns, ∀ t ∈ L.transactions, t.id = x.txnId →
      x.eventId = t.stripeEventId ∧ x.objectId = t.stripeObjectId ∧ x.eventType = t.eventType ∧
      (∀ name v, x.delta.get? name = some v ↔ v ≠ 0 ∧ ∃ a ∈ chart.accounts,
        currency.all (a.currency = ·) = true ∧ a.name = name ∧
        total a.signed (L.entriesOn t a) = v) ∧
      x.debitTotal = total EntryRow.debitMinor (L.entriesIn currency t) := by
  intro txns
  have hrows := hL.toRowsAdmitted
  have hload : txns = ((L.inOrder none).filter fun t => touchedAccounts chart L currency t ≠ []).map
      (L.summary chart currency) := loadLedger_eq hrows currency none
  refine ⟨?_, ?_, ?_, ?_, ?_⟩
  · intro r hr hcur
    obtain ⟨a, ha, rfl⟩ := List.mem_map.mp hr
    exact total_loadLedger hrows ha hcur
  · intro x hx name hname
    obtain ⟨v, hv⟩ := Dict.mem_keys_iff.mp hname
    rw [hload] at hx
    obtain ⟨t, -, rfl⟩ := List.mem_map.mp hx
    obtain ⟨-, a, ha, hcur, hname, -⟩ := mem_summary_delta.mp (Dict.mem_items_iff.mpr hv)
    exact ⟨a, ha, hname, hcur⟩
  · have hnd : ((L.inOrder none).map (·.id)).Nodup :=
      ((List.perm_insertionSort _ _).map _).nodup_iff.mpr
        (hrows.transactions_pkey.sublist (List.filter_sublist.map _))
    rw [hload, List.map_map]
    exact hnd.sublist (List.filter_sublist.map _)
  · intro id
    rw [hload, List.map_map]
    simp only [List.mem_map, List.mem_filter, Ledger.inOrder, List.mem_insertionSort,
      Option.all_none, and_true, decide_eq_true_eq, entriesIn_ne_nil_iff hrows, Function.comp_apply,
      Ledger.summary, and_assoc]
    exact exists_congr fun t => and_congr_right fun _ => and_comm
  · intro x hx t ht hid
    obtain rfl := eq_summary_of_mem hrows hx ht hid
    refine ⟨rfl, rfl, rfl, fun name v => ?_, total_touchedAccounts hrows _⟩
    rw [← Dict.mem_items_iff, mem_summary_delta]
    rfl

/-- A payout, read back in dollars. -/
theorem load_ledger_agrees_payout :
    (loadLedger seedChart payoutLedger (some usd) none).map (·.debitTotal) = [1000] ∧
      ∀ r ∈ accountBalances seedChart payoutLedger, (some usd).all (r.1.currency = ·) = true →
        total (fun x => x.delta.getD r.1.name 0)
          (loadLedger seedChart payoutLedger (some usd) none) = r.2 :=
  ⟨by decide, (load_ledger_agrees seedChart payoutLedger payoutLedger_admitted (some usd)).1⟩

end LedgerProof
