import LedgerProof.Recon.LedgerView
import LedgerProof.StripeIo.Movement

/-!
# The size of a break

`_magnitude` halves the absolute values of a delta; its docstring has it that this is the debit
total, since double entry puts every minor unit on two sides.  What an account is debited and
credited in one transaction cancels in the delta, though, so that in general it is the debit total
without the part that cancels (`summary_magnitude`).

A transaction that `build_transaction` made uses each account on one side, so that nothing cancels
and the two breaks that report its size report the same number.
-/

namespace LedgerProof

/-! ## Debits and credits of an account -/

/-- The transaction has an account that it debits and credits. -/
def Ledger.BothSides (L : Ledger) (t : TransactionRow) : Prop :=
  ∃ e ∈ L.txnEntries t.id, ∃ e' ∈ L.txnEntries t.id,
    e.accountId = e'.accountId ∧ e.dir = .debit ∧ e'.dir = .credit

section

variable {chart : Chart} {L : Ledger} {currency : Option Char3} {since : Option ℤ}
  {t : TransactionRow} {c : Char3}
  {a : Account}

/-- What the transaction debits on an account. -/
def Ledger.debitOn (L : Ledger) (t : TransactionRow) (a : Account) :
    ℤ := total EntryRow.debitMinor (L.entriesOn t a)

/-- What the transaction credits on an account. -/
def Ledger.creditOn (L : Ledger) (t : TransactionRow) (a : Account) :
    ℤ := total EntryRow.creditMinor (L.entriesOn t a)

/-- The net of an account is one side less the other, whichever its normal side is. -/
lemma abs_netMinor (L : Ledger) (t : TransactionRow) (a : Account) :
    |L.netMinor t a| = |L.debitOn t a - L.creditOn t a| := by
  have hdiff : total (fun e : EntryRow => e.signedMinor) (L.entriesOn t a) =
      L.debitOn t a - L.creditOn t a :=
    total_sub _
  cases hnormal : a.normal with
  | debit =>
      have hnet : L.netMinor t a = L.debitOn t a - L.creditOn t a := by
        rw [← hdiff]
        exact total_congr fun e _ => Account.signed_of_debit hnormal e
      rw [hnet]
  | credit =>
      have hnet : L.netMinor t a = -(L.debitOn t a - L.creditOn t a) := by
        rw [← hdiff, ← total_neg]
        exact total_congr fun e _ => Account.signed_of_credit hnormal e
      rw [hnet, abs_neg]

lemma amount_nonneg (hL : L.RowsAdmitted chart) {e : EntryRow} (he : e ∈ L.entriesOn t a) :
    0 < e.amountMinor :=
  hL.amount_pos e (Ledger.mem_txnEntries.mp (List.mem_filter.mp he).1).1

lemma side_nonneg (hL : L.RowsAdmitted chart) (side : Direction) :
    ∀ e ∈ L.entriesOn t a, 0 ≤ if e.dir = side then e.amountMinor else 0 := by
  intro e he
  have hpos := amount_nonneg hL he
  split_ifs <;> omega

lemma side_eq_zero_iff (hL : L.RowsAdmitted chart) (side : Direction) :
    total (fun e : EntryRow => if e.dir = side then e.amountMinor else 0) (L.entriesOn t a) = 0 ↔
      ∀ e ∈ L.entriesOn t a, e.dir ≠ side := by
  rw [total_eq_zero_iff (side_nonneg hL side)]
  refine forall₂_congr fun e he => ?_
  have hpos := amount_nonneg hL he
  rw [ite_eq_right_iff]
  exact ⟨fun h hdir => absurd (h hdir) hpos.ne', fun h hdir => absurd hdir h⟩

lemma debitOn_nonneg (hL : L.RowsAdmitted chart) :
    0 ≤ L.debitOn t a := total_nonneg (side_nonneg hL .debit)

lemma creditOn_nonneg (hL : L.RowsAdmitted chart) :
    0 ≤ L.creditOn t a := total_nonneg (side_nonneg hL .credit)

lemma debitOn_eq_zero_iff (hL : L.RowsAdmitted chart) :
    L.debitOn t a = 0 ↔ ∀ e ∈ L.entriesOn t a, e.dir ≠ .debit := side_eq_zero_iff hL .debit

lemma creditOn_eq_zero_iff (hL : L.RowsAdmitted chart) :
    L.creditOn t a = 0 ↔ ∀ e ∈ L.entriesOn t a, e.dir ≠ .credit := side_eq_zero_iff hL .credit

/-- What cancels on an account. -/
def Ledger.cancelledOn (L : Ledger) (t : TransactionRow) (a : Account) :
    ℤ := min (L.debitOn t a) (L.creditOn t a)

lemma cancelledOn_nonneg (hL : L.RowsAdmitted chart) : 0 ≤ L.cancelledOn t a :=
  le_min (debitOn_nonneg hL) (creditOn_nonneg hL)

lemma cancelledOn_eq_zero_iff (hL : L.RowsAdmitted chart) :
    L.cancelledOn t a = 0 ↔
      ¬∃ e ∈ L.entriesOn t a, ∃ e' ∈ L.entriesOn t a, e.dir = .debit ∧ e'.dir = .credit := by
  have hdebit : 0 ≤ L.debitOn t a := debitOn_nonneg hL
  have hcredit : 0 ≤ L.creditOn t a := creditOn_nonneg hL
  have hzero : L.cancelledOn t a = 0 ↔ L.debitOn t a = 0 ∨ L.creditOn t a = 0 := by
    unfold Ledger.cancelledOn
    omega
  rw [hzero, debitOn_eq_zero_iff hL, creditOn_eq_zero_iff hL]
  constructor
  · rintro (h | h) ⟨e, he, e', he', hdir, hdir'⟩
    · exact h e he hdir
    · exact h e' he' hdir'
  · intro h
    by_contra hcon
    push Not at hcon
    obtain ⟨⟨e, he, hdir⟩, e', he', hdir'⟩ := hcon
    exact h ⟨e, he, e', he', hdir, hdir'⟩

/-! ## The delta of a transaction -/

/-- The absolute values of a delta are those of the accounts that are touched: the others were
filtered out at zero. -/
lemma total_abs_delta (chart : Chart) (L : Ledger) (currency : Option Char3) (t : TransactionRow) :
    total (fun i => |i.2|) (L.summary chart currency t).delta.items =
      total (fun a => |L.netMinor t a|) (touchedAccounts chart L currency t) := by
  show total _ (((touchedAccounts chart L currency t).filter fun a => L.netMinor t a ≠ 0).map _) = _
  rw [total_map, total_filter]
  refine total_congr fun a _ => ?_
  by_cases hnet : L.netMinor t a = 0
  · rw [hnet]
    rfl
  · simp [hnet]

/-- **The absolute values of a delta**: both sides of the entries, without what cancels on an
account. -/
lemma total_abs_delta_add (hL : L.RowsAdmitted chart) (currency : Option Char3)
    (t : TransactionRow) :
    total (fun i => |i.2|) (L.summary chart currency t).delta.items +
        2 * total (L.cancelledOn t) (touchedAccounts chart L currency t) =
      total EntryRow.debitMinor (L.entriesIn currency t) + total EntryRow.creditMinor
        (L.entriesIn currency t) := by
  rw [total_abs_delta, total_congr fun a _ => abs_netMinor L t a, ← total_touchedAccounts hL,
    ← total_touchedAccounts hL]
  exact total_abs_sub _ _ _

lemma mem_loadLedger_since (hL : L.RowsAdmitted chart) {x : LedgerTxn}
    (hx : x ∈ loadLedger chart L currency since) (ht : t ∈ L.transactions) (hid : x.txnId = t.id) :
    x = L.summary chart currency t ∧ touchedAccounts chart L currency t ≠ [] := by
  rw [loadLedger_eq hL] at hx
  obtain ⟨s, hs, rfl⟩ := List.mem_map.mp hx
  obtain ⟨hs, htouched⟩ := List.mem_filter.mp hs
  rw [Ledger.inOrder, List.mem_insertionSort, List.mem_filter] at hs
  obtain rfl := List.inj_on_of_nodup_map hL.transactions_pkey hs.1 ht hid
  exact ⟨rfl, of_decide_eq_true htouched⟩

/-- Of a transaction in one currency all entries are read, or it is not loaded. -/
lemma entriesIn_of_currency (hL : L.RowsAdmitted chart)
    (hc : ∀ e ∈ L.txnEntries t.id, e.currency = c)
    (htouched : touchedAccounts chart L currency t ≠ []) :
    L.entriesIn currency t = L.txnEntries t.id := by
  rw [← entriesIn_ne_nil_iff hL] at htouched
  obtain ⟨e, he⟩ := List.exists_mem_of_ne_nil _ htouched
  obtain ⟨he, hcur⟩ := List.mem_filter.mp he
  refine List.filter_eq_self.mpr fun e' he' => ?_
  rw [hc e' he', ← hc e he]
  exact hcur

/-- **The size of a transaction is its debits without what cancels on an account.** -/
lemma summary_magnitude (hL : L.RowsAdmitted chart) (hc : ∀ e ∈ L.txnEntries t.id, e.currency = c)
    (hbalanced : L.imbalance t.id c = 0) (htouched : touchedAccounts chart L currency t ≠ []) :
    total (fun i => |i.2|) (L.summary chart currency t).delta.items =
      2 * ((L.summary chart currency t).debitTotal -
        total (L.cancelledOn t) (touchedAccounts chart L currency t)) := by
  have hall := entriesIn_of_currency hL hc htouched
  have hfilter : (L.txnEntries t.id).filter (fun e => e.currency = c) = L.txnEntries t.id :=
    List.filter_eq_self.mpr fun e he => decide_eq_true (hc e he)
  have hsides : total EntryRow.debitMinor (L.txnEntries t.id) =
      total EntryRow.creditMinor (L.txnEntries t.id) := by
    rw [Ledger.imbalance_eq_sub, hfilter] at hbalanced
    exact sub_eq_zero.mp hbalanced
  have hdebit : (L.summary chart currency t).debitTotal =
      total EntryRow.debitMinor (L.txnEntries t.id) := by
    rw [← hall]
    exact total_touchedAccounts hL _
  have habs := total_abs_delta_add hL currency t
  rw [hall, ← hsides, ← hdebit] at habs
  linarith

/-- Nothing cancels exactly when no account is on both sides. -/
lemma total_cancelledOn_eq_zero_iff (hL : L.RowsAdmitted chart)
    (hc : ∀ e ∈ L.txnEntries t.id, e.currency = c)
    (htouched : touchedAccounts chart L currency t ≠ []) :
    total (L.cancelledOn t) (touchedAccounts chart L currency t) = 0 ↔ ¬L.BothSides t := by
  rw [total_eq_zero_iff fun a _ => cancelledOn_nonneg hL, ← not_iff_not]
  push Not
  have hall := entriesIn_of_currency hL hc htouched
  constructor
  · rintro ⟨a, -, hne⟩
    rw [ne_eq, cancelledOn_eq_zero_iff hL, not_not] at hne
    obtain ⟨e, he, e', he', hdir, hdir'⟩ := hne
    obtain ⟨he, hacc⟩ := List.mem_filter.mp he
    obtain ⟨he', hacc'⟩ := List.mem_filter.mp he'
    exact ⟨e, he, e', he', (of_decide_eq_true hacc).trans (of_decide_eq_true hacc').symm, hdir,
      hdir'⟩
  · rintro ⟨e, he, e', he', hsame, hdir, hdir'⟩
    obtain ⟨a, ha, hid, hcur⟩ := hL.account_of_entry (Ledger.mem_txnEntries.mp he).1
    have hin : e ∈ L.entriesIn currency t := by rwa [hall]
    have hon : e ∈ L.entriesOn t a := List.mem_filter.mpr ⟨he, decide_eq_true hid.symm⟩
    have hon' : e' ∈ L.entriesOn t a :=
      List.mem_filter.mpr ⟨he', decide_eq_true (hsame.symm.trans hid.symm)⟩
    refine ⟨a, mem_touchedAccounts.mpr ⟨ha, ?_, List.ne_nil_of_mem hon⟩, ?_⟩
    · rw [hcur]
      exact (List.mem_filter.mp hin).2
    · rw [ne_eq, cancelledOn_eq_zero_iff hL, not_not]
      exact ⟨e, hon, e', hon', hdir, hdir'⟩

end

/-! ## Transactions of events -/

lemma Movement.dir_eq {m : Movement} {l l' : String × Direction × ℤ} (hl : l ∈ m.legs)
    (hl' : l' ∈ m.legs) (h : l.1 = l'.1) : l.2.1 = l'.2.1 := by
  cases m <;> simp only [legs, List.mem_cons, List.not_mem_nil, or_false] at hl hl'
  all_goals
    rcases hl with rfl | rfl | rfl <;> rcases hl' with rfl | rfl | rfl <;> first | rfl | simp at h

/-- The ledger has the transaction, and its entries as they are stored. -/
def Ledger.Stores (chart : Chart) (L : Ledger) (txn : LedgerTransaction) : Prop :=
  txn.row ∈ L.transactions ∧ List.Forall₂ (Entry.Becomes chart txn.id) txn.entries
    (L.txnEntries txn.id)

section

variable {chart : Chart} {L L' : Ledger} {txn : LedgerTransaction} {m : Movement}
  {currency : String}
  {uuid5 : String → Uuid} {e : Event} {feeMinor : Json}

lemma exists_becomes_of_mem {tid : Uuid} {es : List Entry} {rows : List EntryRow}
    (h : List.Forall₂ (Entry.Becomes chart tid) es rows) {row : EntryRow} (hrow : row ∈ rows) :
    ∃ entry ∈ es, entry.Becomes chart tid row := by
  induction h with
  | nil => cases hrow
  | cons hbecomes _ ih =>
      rcases List.mem_cons.mp hrow with rfl | hrow
      · exact ⟨_, List.mem_cons_self, hbecomes⟩
      · obtain ⟨entry, hentry, hbecomes⟩ := ih hrow
        exact ⟨entry, List.mem_cons_of_mem _ hentry, hbecomes⟩

lemma stores_of_posted (hL : L.RowsAdmitted chart) {fault : Option ℕ}
    (h : attempt chart L txn fault = (.ok .posted, L')) : L'.Stores chart txn := by
  have hnone : attempt chart L txn none = (.ok .posted, L') := by
    rcases attempt_fault chart L txn fault with hf | hf
    · rw [← hf, h]
    · rw [hf] at h
      cases (Prod.ext_iff.mp h).1
  have hfresh := ((attempt_posted_iff hL txn).mp (by rw [hnone])).1
  obtain ⟨rows, hbecomes, rfl, -⟩ := attempt_posted_ledger hL txn h
  have hold : L.txnEntries txn.id = [] := by
    refine hL.txnEntries_eq_nil fun hid => ?_
    obtain ⟨t, ht, hid⟩ := List.mem_map.mp hid
    exact hfresh.id t ht hid
  have hnew : (⟨[txn.row], rows⟩ : Ledger).txnEntries txn.id = rows := by
    refine List.filter_eq_self.mpr fun row hrow => ?_
    obtain ⟨entry, -, a, -, -, rfl⟩ := exists_becomes_of_mem hbecomes hrow
    exact decide_eq_true rfl
  refine ⟨List.mem_append_right _ (List.mem_singleton.mpr rfl), ?_⟩
  rw [Ledger.txnEntries_append, hold, hnew, List.nil_append]
  exact hbecomes

/-- What is stored of a movement is in one currency. -/
lemma Ledger.Stores.currency_eq (h : L.Stores chart txn)
    (hentries : txn.entries = m.entries currency) {row row' : EntryRow}
    (hrow : row ∈ L.txnEntries txn.id) (hrow' : row' ∈ L.txnEntries txn.id) :
    row.currency = row'.currency := by
  have hcurrency : ∀ entry ∈ txn.entries, entry.char3 = Char3.ofText currency := by
    intro entry hentry
    rw [hentries, Movement.entries_eq] at hentry
    obtain ⟨l, -, rfl⟩ := List.mem_map.mp hentry
    rfl
  obtain ⟨entry, hentry, a, -, hchar, rfl⟩ := exists_becomes_of_mem h.2 hrow
  obtain ⟨entry', hentry', a', -, hchar', rfl⟩ := exists_becomes_of_mem h.2 hrow'
  rw [hcurrency entry hentry] at hchar
  rw [hcurrency entry' hentry'] at hchar'
  exact Option.some.inj (hchar.symm.trans hchar')

lemma Ledger.Stores.not_bothSides (h : L.Stores chart txn)
    (hentries : txn.entries = m.entries currency) :
    ¬L.BothSides txn.row := by
  rintro ⟨row, hrow, row', hrow', hsame, hdir, hdir'⟩
  obtain ⟨entry, hentry, a, hfind, -, rfl⟩ := exists_becomes_of_mem h.2 hrow
  obtain ⟨entry', hentry', a', hfind', -, rfl⟩ := exists_becomes_of_mem h.2 hrow'
  obtain ⟨ha, hname⟩ := Chart.find_mem hfind
  obtain ⟨ha', hname'⟩ := Chart.find_mem hfind'
  have haccount : entry.accountName = entry'.accountName := by
    rw [← hname, ← hname', Chart.eq_of_id ha ha' hsame]
  rw [hentries, Movement.entries_eq] at hentry hentry'
  obtain ⟨l, hl, rfl⟩ := List.mem_map.mp hentry
  obtain ⟨l', hl', rfl⟩ := List.mem_map.mp hentry'
  have heq := Movement.dir_eq (List.mem_filter.mp hl).1 (List.mem_filter.mp hl').1 haccount
  have hdir : l.2.1 = .debit := hdir
  have hdir' : l'.2.1 = .credit := hdir'
  rw [hdir, hdir'] at heq
  cases heq

/-- What the schema accepted balances where it is stored. -/
lemma Ledger.Stores.imbalance_eq_zero (h : L.Stores chart txn) (haccepted : txn.Accepted chart)
    (c : Char3) :
    L.imbalance txn.id c = 0 := by
  rw [Ledger.imbalance, total_signedMinor_of_becomes h.2, haccepted.balanced, sub_self]

lemma magnitude_of_same {d d' : Dict String ℤ} (h : d.same d' = true) :
    magnitude d = magnitude d' := by
  have hget := (Dict.same_iff d d').mp h
  have hperm : d.items.Perm d'.items := by
    refine (List.perm_ext_iff_of_nodup (.of_map _ d.nodup) (.of_map _ d'.nodup)).mpr fun i => ?_
    rw [show i = (i.1, i.2) from rfl, Dict.mem_items_iff, Dict.mem_items_iff, hget]
  rw [magnitude, magnitude, total_perm hperm]

end

/-- **The size of a break is the amount that moved.**  The absolute values of the delta of a
balanced transaction in one currency add up to an even number, half of which is at most the debit
total, and equal to it exactly when no account is on both sides.  So it is for what
`build_transaction` makes of an event, and an event with such a delta that is missing is reported
with the size that the transaction is reported with. -/
theorem magnitude_is_debit_total {chart : Chart} {L : Ledger} (hL : L.RowsAdmitted chart) :
    (∀ t ∈ L.transactions, ∀ c, (∀ e ∈ L.txnEntries t.id, e.currency = c) → L.imbalance t.id c = 0 →
      ∀ currency since, ∀ x ∈ loadLedger chart L currency since, x.txnId = t.id →
        2 ∣ total (fun i => |i.2|) x.delta.items ∧ magnitude x.delta ≤ x.debitTotal ∧
          (magnitude x.delta = x.debitTotal ↔ ¬L.BothSides t)) ∧
    ∀ uuid5 e feeMinor txn, buildTransaction uuid5 e feeMinor = .ok (some txn) →
      txn.Accepted chart →
      L.Stores chart txn → ∀ currency since, ∀ x ∈ loadLedger chart L currency since,
        x.txnId = txn.id →
        magnitude x.delta = x.debitTotal ∧
          ∀ y : ExpectedEvent, y.delta.same x.delta = true →
            y.missingInLedger.expectedMinor = x.unexpected.actualMinor ∧
              y.missingInLedger.expectedMinor = x.unsettled.actualMinor := by
  have hsize : ∀ t ∈ L.transactions, ∀ c, (∀ e ∈ L.txnEntries t.id, e.currency = c) →
      L.imbalance t.id c = 0 →
      ∀ currency since, ∀ x ∈ loadLedger chart L currency since, x.txnId = t.id →
        2 ∣ total (fun i => |i.2|) x.delta.items ∧ magnitude x.delta ≤ x.debitTotal ∧
          (magnitude x.delta = x.debitTotal ↔ ¬L.BothSides t) := by
    intro t ht c hc hbalanced currency since x hx hid
    obtain ⟨rfl, htouched⟩ := mem_loadLedger_since hL hx ht hid
    have hsum := summary_magnitude hL hc hbalanced htouched
    have hcancelled : 0 ≤ total (L.cancelledOn t) (touchedAccounts chart L currency t) :=
      total_nonneg fun a _ => cancelledOn_nonneg hL
    rw [magnitude, ← total_cancelledOn_eq_zero_iff hL hc htouched, hsum]
    refine ⟨dvd_mul_right 2 _, ?_, ?_⟩ <;> omega
  refine ⟨hsize, ?_⟩
  intro uuid5 e feeMinor txn hbuild haccepted hstores currency since x hx hid
  obtain ⟨m, text, -, -, hentries⟩ := buildTransaction_entries hbuild
  have hc : ∃ c, ∀ row ∈ L.txnEntries txn.id, row.currency = c := by
    cases hrows : L.txnEntries txn.id with
    | nil => exact ⟨usd, nofun⟩
    | cons row rows =>
        refine ⟨row.currency, fun row' hrow' => hstores.currency_eq hentries ?_ ?_⟩
        · rwa [hrows]
        · rw [hrows]
          exact List.mem_cons_self
  obtain ⟨c, hc⟩ := hc
  have hbalanced := hstores.imbalance_eq_zero haccepted c
  have heq : magnitude x.delta = x.debitTotal :=
    (hsize txn.row hstores.1 c hc hbalanced currency since x hx hid).2.2.mpr
      (hstores.not_bothSides hentries)
  refine ⟨heq, fun y hy => ?_⟩
  have hreport : y.missingInLedger.expectedMinor = some x.debitTotal := by
    rw [← heq, ← magnitude_of_same hy]
    rfl
  exact ⟨hreport, hreport⟩

/-- A dispute of 10.00 with a fee of 15.00, posted and read back. -/
theorem magnitude_is_debit_total_dispute :
    (attempt seedChart .empty (feeDisputeTxn 1000 1500) none).1 = .ok .posted ∧
      (loadLedger seedChart (attempt seedChart .empty (feeDisputeTxn 1000 1500) none).2
        (some usd) none).map
        LedgerTxn.debitTotal = [2500] ∧
      ∀ x ∈ loadLedger seedChart (attempt seedChart .empty (feeDisputeTxn 1000 1500) none).2
        (some usd) none,
        x.txnId = (feeDisputeTxn 1000 1500).id → magnitude x.delta = x.debitTotal := by
  have hposted : (attempt seedChart .empty (feeDisputeTxn 1000 1500) none).1 = .ok .posted := by
    decide
  have hempty : Ledger.empty.RowsAdmitted seedChart :=
    (Ledger.empty_admitted seedChart).toRowsAdmitted
  have hbuild : buildTransaction sampleUuid5 (feeDispute 1000 [1500]) .null =
      .ok (some (feeDisputeTxn 1000 1500)) := by decide
  have hrows : (attempt seedChart .empty (feeDisputeTxn 1000 1500) none).2.RowsAdmitted
      seedChart := by decide
  refine ⟨hposted, by decide, fun x hx hid => ?_⟩
  exact ((magnitude_is_debit_total hrows).2 sampleUuid5 (feeDispute 1000 [1500]) .null
    (feeDisputeTxn 1000 1500) hbuild ((attempt_posted_iff hempty _).mp hposted).2
    (stores_of_posted hempty (Prod.ext hposted rfl)) (some usd) none x hx hid).1

end LedgerProof
