import LedgerProof.Ledger.Balances

/-!
# Money conservation over whole runs

The database transactions that may be committed against `Ledger/Schema.lean`, by any number of
writers, and what every reachable committed state satisfies.

A writer inserts any rows.  Its commit is judged on two different readings of the tables: the
row checks, keys and foreign keys see every committed row, while each deferred trigger runs a
query of its own, whose snapshot may miss any of the transactions committed before.  `Commit`
leaves those snapshots to the environment, one for every fired trigger.

The invariant that carries the induction is not about the ledger but about each write set on
its own (`WriteBalanced`): whatever a trigger saw of the others was balanced already, so what
it accepted must be balanced without them.  A stale snapshot therefore cannot let an unbalanced
total in.  The two-entries rule is a fact about the writer that inserts the transaction: no one
else can have added entries to an id that did not exist.
-/

namespace LedgerProof

/-! ## Database transactions -/

/-- One database transaction: the rows it inserts, and which of the earlier committed
transactions the query of each fired trigger sees.  `balancedSees i` is the snapshot of
`assert_txn_balanced` for the `i`-th entries row, `minEntriesSees i` that of
`assert_txn_min_entries` for the `i`-th transactions row. -/
structure Commit where
  writes : Ledger
  balancedSees : ℕ → ℕ → Bool
  minEntriesSees : ℕ → ℕ → Bool

/-- The committed rows after a history of write sets. -/
def committed (history : List Ledger) : Ledger := history.foldl Ledger.append .empty

/-- The write sets of the history a snapshot includes. -/
def visible (sees : ℕ → Bool) (history : List Ledger) : List Ledger :=
  (history.zipIdx.filter fun w => sees w.2).map (·.1)

/-- What a trigger's query reads: the rows of its snapshot and the writer's own. -/
def snapshot (sees : ℕ → Bool) (history : List Ledger) (writes : Ledger) : Ledger :=
  (committed (visible sees history)).append writes

/-- The commit-time verdict. -/
def Commit.Accepted (chart : Chart) (history : List Ledger) (c : Commit) : Prop :=
  ((committed history).append c.writes).RowsAdmitted chart ∧
    (∀ e ∈ c.writes.entries.zipIdx,
      (snapshot (c.balancedSees e.2) history c.writes).assertTxnBalanced e.1.transactionId
        = .ok ()) ∧
    ∀ t ∈ c.writes.transactions.zipIdx,
      (snapshot (c.minEntriesSees t.2) history c.writes).assertTxnMinEntries t.1.id = .ok ()

instance : DecidableEq (Except PgError Unit)
  | .ok _, .ok _ => isTrue rfl
  | .ok _, .error _ => isFalse (by simp)
  | .error _, .ok _ => isFalse (by simp)
  | .error a, .error b => decidable_of_iff (a = b) (by simp)

instance (chart : Chart) (history : List Ledger) (c : Commit) :
    Decidable (c.Accepted chart history) :=
  inferInstanceAs (Decidable (_ ∧ _ ∧ _))

/-- One database transaction: committed when accepted, rolled back otherwise. -/
def commitStep (chart : Chart) (history : List Ledger) (c : Commit) : List Ledger :=
  if c.Accepted chart history then history ++ [c.writes] else history

/-- A run of database transactions from the empty ledger. -/
def commitRun (chart : Chart) (cs : List Commit) : List Ledger :=
  cs.foldl (commitStep chart) []

/-! ## Reading a history -/

lemma foldl_append_eq (L : Ledger) (history : List Ledger) :
    history.foldl Ledger.append L = L.append (committed history) := by
  induction history generalizing L with
  | nil => simp [committed, Ledger.append, Ledger.empty]
  | cons w history ih =>
      rw [committed, List.foldl_cons, List.foldl_cons, ih, ih (Ledger.empty.append w)]
      simp [Ledger.append, Ledger.empty]

lemma committed_append (history : List Ledger) (w : Ledger) :
    committed (history ++ [w]) = (committed history).append w := by
  simp [committed, List.foldl_append]

lemma committed_cons (w : Ledger) (history : List Ledger) :
    committed (w :: history) = w.append (committed history) := by
  rw [committed, List.foldl_cons, foldl_append_eq]
  simp [Ledger.append, Ledger.empty]

lemma mem_committed_entries {history : List Ledger} {e : EntryRow} :
    e ∈ (committed history).entries ↔ ∃ w ∈ history, e ∈ w.entries := by
  induction history with
  | nil => simp [committed, Ledger.empty]
  | cons w history ih => simp [committed_cons, ih]

lemma visible_subset (sees : ℕ → Bool) (history : List Ledger) :
    ∀ w ∈ visible sees history, w ∈ history := by
  intro w hw
  obtain ⟨⟨v, i⟩, hv, rfl⟩ := List.mem_map.mp hw
  exact List.fst_mem_of_mem_zipIdx (List.mem_filter.mp hv).1

/-! ## Each write set is balanced on its own -/

/-- A write set whose entries balance for every transaction and currency by themselves. -/
def WriteBalanced (w : Ledger) : Prop := ∀ tid c, w.imbalance tid c = 0

lemma committed_imbalance {history : List Ledger} (h : ∀ w ∈ history, WriteBalanced w)
    (tid : Uuid) (c : Char3) : (committed history).imbalance tid c = 0 := by
  induction history with
  | nil => simp [committed, Ledger.empty, Ledger.imbalance, Ledger.txnEntries]
  | cons w history ih =>
      rw [committed_cons, Ledger.imbalance_append, h w (by simp) tid c,
        ih (fun v hv => h v (by simp [hv])), add_zero]

/-- **What a trigger accepts is balanced without the rows it happened to see.** -/
lemma Commit.Accepted.writeBalanced {chart : Chart} {history : List Ledger} {c : Commit}
    (hc : c.Accepted chart history) (hist : ∀ w ∈ history, WriteBalanced w) :
    WriteBalanced c.writes := by
  intro tid cur
  by_cases htouch : ∃ e ∈ c.writes.entries, e.transactionId = tid
  · obtain ⟨e, he, rfl⟩ := htouch
    obtain ⟨i, hi⟩ := List.mem_iff_getElem?.mp he
    -- the trigger fired by this row judged its snapshot, which is balanced up to our own rows
    have hok := hc.2.1 (e, i) (List.mem_zipIdx_iff_getElem?.mpr hi)
    have hsnap := Ledger.assertTxnBalanced_ok.mp hok cur
    rw [snapshot, Ledger.imbalance_append, committed_imbalance
      (fun w hw => hist w (visible_subset _ _ w hw)), zero_add] at hsnap
    exact hsnap
  · refine Ledger.imbalance_eq_zero_of_not_mem fun e he => ?_
    exact absurd ⟨e, Ledger.mem_txnEntries.mp he⟩ htouch

/-! ## The writer of a transaction writes its first entries -/

/-- Nothing committed before refers to a transaction this write set inserts. -/
lemma Commit.Accepted.no_earlier_entries {chart : Chart} {history : List Ledger} {c : Commit}
    (hc : c.Accepted chart history) (hrows : (committed history).RowsAdmitted chart)
    {t : TransactionRow} (ht : t ∈ c.writes.transactions) :
    ∀ e ∈ (committed history).entries, e.transactionId ≠ t.id := by
  intro e he heq
  have hold := hrows.entries_transaction_fkey e he
  have hnd := hc.1.transactions_pkey
  rw [Ledger.append_transactions, List.map_append] at hnd
  exact List.disjoint_of_nodup_append hnd (heq ▸ hold) (List.mem_map_of_mem ht)

/-- The entries counted for a new transaction are the writer's own, whatever the snapshot. -/
lemma Commit.Accepted.min_entries {chart : Chart} {history : List Ledger} {c : Commit}
    (hc : c.Accepted chart history) (hrows : (committed history).RowsAdmitted chart)
    {t : TransactionRow} (ht : t ∈ c.writes.transactions) :
    2 ≤ (c.writes.txnEntries t.id).length := by
  obtain ⟨i, hi⟩ := List.mem_iff_getElem?.mp ht
  have hok := hc.2.2 (t, i) (List.mem_zipIdx_iff_getElem?.mpr hi)
  have hcount := (Ledger.assertTxnMinEntries_ok.mp hok).1
  have hnone : (committed (visible (c.minEntriesSees i) history)).txnEntries t.id = [] := by
    refine List.filter_eq_nil_iff.mpr fun e he => ?_
    obtain ⟨w, hw, hew⟩ := mem_committed_entries.mp he
    have hold : e ∈ (committed history).entries :=
      mem_committed_entries.mpr ⟨w, visible_subset _ _ w hw, hew⟩
    simpa using hc.no_earlier_entries hrows ht e hold
  rw [snapshot, Ledger.txnEntries_append, hnone, List.nil_append] at hcount
  exact hcount

/-! ## The run -/

/-- The induction: the committed rows pass the row checks, each write set is balanced on its
own, and every transaction has its entries. -/
structure HistoryInv (chart : Chart) (history : List Ledger) : Prop where
  rows : (committed history).RowsAdmitted chart
  writes : ∀ w ∈ history, WriteBalanced w
  min_entries : ∀ t ∈ (committed history).transactions,
    2 ≤ ((committed history).txnEntries t.id).length

lemma HistoryInv.commitStep {chart : Chart} {history : List Ledger} (h : HistoryInv chart history)
    (c : Commit) : HistoryInv chart (commitStep chart history c) := by
  rw [LedgerProof.commitStep]
  split_ifs with hc
  · refine ⟨?_, ?_, ?_⟩
    · rw [committed_append]
      exact hc.1
    · intro w hw
      rcases List.mem_append.mp hw with hw | hw
      · exact h.writes w hw
      · rw [List.mem_singleton.mp hw]
        exact hc.writeBalanced h.writes
    · intro t ht
      rw [committed_append] at ht ⊢
      rw [Ledger.txnEntries_append, List.length_append]
      rcases List.mem_append.mp ht with ht | ht
      · have := h.min_entries t ht
        omega
      · have := hc.min_entries h.rows ht
        omega
  · exact h

lemma commitRun_inv (chart : Chart) (cs : List Commit) : HistoryInv chart (commitRun chart cs) := by
  refine List.foldlRecOn cs (LedgerProof.commitStep chart) (motive := HistoryInv chart) ?_ ?_
  · have hempty := Ledger.empty_admitted chart
    exact ⟨hempty.toRowsAdmitted, by simp, hempty.min_entries⟩
  · intro history h c _
    exact h.commitStep c

/-- Every ledger a run of database transactions reaches is admitted. -/
lemma commitRun_admitted (chart : Chart) (cs : List Commit) :
    (committed (commitRun chart cs)).Admitted chart :=
  let h := commitRun_inv chart cs
  { toRowsAdmitted := h.rows
    min_entries := h.min_entries
    balanced := committed_imbalance h.writes }

/-! ## Both sides are there -/

/-- In an admitted ledger, a transaction that touches a currency has a debit entry in it: with
positive amounts, nothing else balances the credits. -/
lemma Ledger.Admitted.exists_dir {chart : Chart} {L : Ledger} (hL : L.Admitted chart)
    {tid : Uuid} {e : EntryRow} (he : e ∈ L.txnEntries tid) (d : Direction) :
    ∃ e' ∈ L.txnEntries tid, e'.currency = e.currency ∧ e'.dir = d := by
  by_contra hnone
  push Not at hnone
  set rows := (L.txnEntries tid).filter (·.currency = e.currency) with hrows
  have hmem : e ∈ rows := List.mem_filter.mpr ⟨he, by simp⟩
  have hdir : ∀ x ∈ rows, x.dir ≠ d := by
    intro x hx
    obtain ⟨hx, hcur⟩ := List.mem_filter.mp hx
    exact hnone x hx (by simpa using hcur)
  have hpos : ∀ x ∈ rows, 0 < x.amountMinor := fun x hx =>
    hL.amount_pos x (Ledger.mem_txnEntries.mp (List.mem_filter.mp hx).1).1
  have hzero : total EntryRow.signedMinor rows = 0 := hL.balanced tid e.currency
  -- all entries of the group are on the other side, so the sum keeps that sign
  cases d with
  | debit =>
      have hneg : ∀ x ∈ rows, -x.signedMinor = x.amountMinor := by
        intro x hx
        have : x.dir = .credit := by
          have := hdir x hx
          cases hd : x.dir <;> simp_all
        simp [EntryRow.signedMinor, EntryRow.debitMinor, EntryRow.creditMinor, this]
      have := total_pos (f := EntryRow.amountMinor) (fun x hx => (hpos x hx).le) hmem (hpos e hmem)
      rw [← total_congr hneg, total_neg, hzero] at this
      omega
  | credit =>
      have hsame : ∀ x ∈ rows, x.signedMinor = x.amountMinor := by
        intro x hx
        have : x.dir = .debit := by
          have := hdir x hx
          cases hd : x.dir <;> simp_all
        simp [EntryRow.signedMinor, EntryRow.debitMinor, EntryRow.creditMinor, this]
      have := total_pos (f := EntryRow.amountMinor) (fun x hx => (hpos x hx).le) hmem (hpos e hmem)
      rw [← total_congr hsame, hzero] at this
      omega

/-- **Money conservation.** From any chart of accounts and the empty ledger, after any run of
database transactions by any writers, with whatever snapshots their triggers saw: every
transaction has at least two entries; in every currency it touches, debits equal credits and
both sides are present; and the invariant check has a row for every currency of the chart, which
sums the balances of its accounts by their normal side and reports difference `0`. -/
theorem money_conservation (chart : Chart) (cs : List Commit) :
    let L := committed (commitRun chart cs)
    (∀ t ∈ L.transactions, 2 ≤ (L.txnEntries t.id).length ∧
      ∀ e ∈ L.txnEntries t.id,
        total EntryRow.debitMinor ((L.txnEntries t.id).filter (·.currency = e.currency)) =
          total EntryRow.creditMinor ((L.txnEntries t.id).filter (·.currency = e.currency)) ∧
        (∃ d ∈ L.txnEntries t.id, d.currency = e.currency ∧ d.dir = .debit) ∧
        ∃ k ∈ L.txnEntries t.id, k.currency = e.currency ∧ k.dir = .credit) ∧
    (∀ e ∈ L.entries, ∃ t ∈ L.transactions, t.id = e.transactionId) ∧
    (∀ a ∈ chart.accounts, ∃ c ∈ (check chart L).perCurrency, c.currency = a.currency) ∧
    ∀ c ∈ (check chart L).perCurrency,
      c.sumDebitNormal = total L.balanceMinor
          (chart.accounts.filter fun a => a.currency = c.currency ∧ a.normal = .debit) ∧
        c.sumCreditNormal = total L.balanceMinor
          (chart.accounts.filter fun a => a.currency = c.currency ∧ a.normal = .credit) ∧
        c.difference = 0 := by
  intro L
  have hL : L.Admitted chart := commitRun_admitted chart cs
  refine ⟨fun t ht => ⟨hL.min_entries t ht, fun e he => ⟨?_, ?_, ?_⟩⟩, ?_,
    fun a ha => exists_mem_check L ha, fun c hc => ?_⟩
  · have := hL.balanced t.id e.currency
    rw [Ledger.imbalance_eq_sub] at this
    omega
  · exact hL.exists_dir he .debit
  · exact hL.exists_dir he .credit
  · intro e he
    obtain ⟨t, ht, heq⟩ := List.mem_map.mp (hL.entries_transaction_fkey e he)
    exact ⟨t, ht, heq⟩
  · obtain ⟨hdebit, hcredit⟩ := sums_of_mem_check hc
    exact ⟨hdebit, hcredit, hL.check_difference_eq_zero hc⟩

/-- One writer that books a charge of 10.00 with a fee of 0.59. -/
def settleCharge : Commit where
  writes :=
    ⟨[⟨"charge", none, none, none, 0, none⟩],
      [⟨"charge", 1, .debit, 941, usd⟩, ⟨"charge", 3, .debit, 59, usd⟩,
        ⟨"charge", 6, .credit, 1000, usd⟩]⟩
  balancedSees := fun _ _ => true
  minEntriesSees := fun _ _ => true

/-- After it, the check has one row, for dollars, with 10.00 on both sides. -/
theorem money_conservation_charge :
    (check seedChart (committed (commitRun seedChart [settleCharge]))).perCurrency =
        [⟨usd, 1000, 1000⟩] ∧
      ∃ c ∈ (check seedChart (committed (commitRun seedChart [settleCharge]))).perCurrency,
        c.currency = usd ∧ c.difference = 0 := by
  obtain ⟨-, -, hrow, hzero⟩ := money_conservation seedChart [settleCharge]
  obtain ⟨c, hc, hcur⟩ := hrow (seedAccount 2 "bank" .asset) (by decide)
  exact ⟨by decide +kernel, c, hc, hcur, (hzero c hc).2.2⟩

end LedgerProof
