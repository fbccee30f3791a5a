import LedgerProof.Ledger.Post
import LedgerProof.Triage.Repair

/-!
# The balance check against the triggers

`repair_is_balanced` of `triage/schema.py` is meant to say what `assert_txn_min_entries` and
`assert_txn_balanced` of `migrations/001_ledger.sql` say when the entries of the repair are
committed under a transaction of their own.  One side keeps a signed net for each currency, the
other compares two sums for each of them.

They agree as long as the entries can be stored, which takes amounts that fit `BIGINT` and
currencies without a NUL character, and as long as their number fits the `integer` that
`assert_txn_min_entries` selects it into.
-/

namespace LedgerProof.Triage

/-- A text as a value of the `direction` enum. -/
def directionOf (s : String) : Option Direction :=
  if s = "debit" then some .debit else if s = "credit" then some .credit else none

/-- The row of `entries` that an entry is stored as, under a transaction and with the id of its
account. -/
def RepairEntry.row (tid : Uuid) (accountId : String → ℕ) (e : RepairEntry) : Option EntryRow := do
  let dir ← directionOf e.direction
  (Entry.store ⟨e.accountName, dir, e.amountMinor, e.currency⟩ tid
    (accountId e.accountName)).toOption

/-- The deferred triggers at the `COMMIT` of one transaction and its entries: one firing for the
transaction, and one for every entry. -/
def TriggersAccept (L : Ledger) (t : TransactionRow) (rows : List EntryRow) : Prop :=
  (L.append ⟨[t], rows⟩).assertTxnMinEntries t.id = .ok () ∧
    ∀ row ∈ rows, (L.append ⟨[t], rows⟩).assertTxnBalanced row.transactionId = .ok ()

/-- The columns take the entry: the amount fits, and the currency has no NUL character. -/
def RepairEntry.Storable (e : RepairEntry) : Prop := e.amountMinor ≤ bigintMax ∧ NulFree e.currency

/-- The entries can be stored under the transaction, and the triggers accept them. -/
def DatabaseAccepts (L : Ledger) (t : TransactionRow) (accountId : String → ℕ)
    (entries : List RepairEntry) : Prop :=
  ∃ rows, entries.mapM (RepairEntry.row t.id accountId) = some rows ∧ TriggersAccept L t rows

/-! ## Rows -/

section

variable {tid : Uuid} {accountId : String → ℕ} {entries : List RepairEntry} {rows : List EntryRow}

lemma directionOf_isSome (e : RepairEntry) : (directionOf e.direction).isSome ↔ e.Directed := by
  unfold directionOf RepairEntry.Directed
  split_ifs with hdebit hcredit <;> simp [*]

lemma ofText_of_length {s : String} (h : s.length = 3) (hnul : NulFree s) :
    Char3.ofText s = some ⟨s, h, hnul⟩ := by
  have hlength : s.toList.length = 3 := String.length_toList.trans h
  have hdrop : s.toList.drop 3 = [] := List.drop_eq_nil_of_le hlength.le
  have htake : s.toList.takeD 3 ' ' = s.toList := by
    rw [List.takeD_eq_take _ hlength.ge, List.take_of_length_le hlength.le]
  have hfits : (s.toList.drop 3).all (· = ' ') = true := by rw [hdrop, List.all_nil]
  unfold Char3.ofText
  rw [dif_pos ⟨hnul, hfits⟩]
  refine congrArg some (Subtype.ext ?_)
  show String.ofList (s.toList.takeD 3 ' ') = s
  rw [htake, String.ofList_toList]

/-- When an entry is stored, and as what. -/
lemma row_eq_some_iff {e : RepairEntry} (hlength : e.currency.length = 3) {row : EntryRow} :
    e.row tid accountId = some row ↔ ∃ dir, directionOf e.direction = some dir ∧
      ∃ h : e.Storable,
        row = ⟨tid, accountId e.accountName, dir, e.amountMinor, e.currency, hlength, h.2⟩ := by
  unfold RepairEntry.row RepairEntry.Storable
  cases hdir : directionOf e.direction with
  | none => simp
  | some dir =>
      have hpos := e.amountMinor_pos
      have hmax : 0 ≤ bigintMax := by decide
      by_cases hnul : NulFree e.currency
      · by_cases hamount : e.amountMinor ≤ bigintMax
        · have hrange : ¬(e.amountMinor < -bigintMax - 1 ∨ bigintMax < e.amountMinor) := by omega
          simp [Entry.store, hnul, hrange, hamount, not_le.mpr hpos,
            ofText_of_length hlength hnul, Except.toOption, eq_comm]
        · have hrange : e.amountMinor < -bigintMax - 1 ∨ bigintMax < e.amountMinor := by omega
          simp [Entry.store, hnul, hrange, hamount, Except.toOption]
      · simp [Entry.store, hnul, Except.toOption]

lemma row_eq_some {e : RepairEntry} {row : EntryRow} (hlength : e.currency.length = 3)
    (h : e.row tid accountId = some row) :
    row.transactionId = tid ∧ row.currency.val = e.currency ∧ row.signedMinor = e.net := by
  obtain ⟨dir, hdir, -, rfl⟩ := (row_eq_some_iff hlength).mp h
  refine ⟨rfl, rfl, ?_⟩
  unfold directionOf at hdir
  split_ifs at hdir with hdebit hcredit <;> obtain rfl := Option.some.inj hdir <;>
    simp [EntryRow.signedMinor, EntryRow.debitMinor, EntryRow.creditMinor, RepairEntry.net, hdebit]

/-- Entries are stored if each has one of the two directions and values that the columns take. -/
lemma mapM_row (hlength : ∀ e ∈ entries, e.currency.length = 3) :
    (∃ rows, entries.mapM (RepairEntry.row tid accountId) = some rows) ↔
      ∀ e ∈ entries, e.Directed ∧ e.Storable := by
  induction entries with
  | nil => simp
  | cons e entries ih =>
      obtain ⟨he, hentries⟩ := List.forall_mem_cons.mp hlength
      have hrow : (∃ row, e.row tid accountId = some row) ↔ e.Directed ∧ e.Storable := by
        simp only [row_eq_some_iff he, ← directionOf_isSome, Option.isSome_iff_exists]
        constructor
        · rintro ⟨row, dir, hdir, hstorable, -⟩
          exact ⟨⟨dir, hdir⟩, hstorable⟩
        · rintro ⟨⟨dir, hdir⟩, hstorable⟩
          exact ⟨_, dir, hdir, hstorable, rfl⟩
      rw [List.forall_mem_cons, ← hrow, ← ih hentries]
      simp only [List.mapM_cons, Option.bind_eq_bind, Option.pure_def, Option.bind_eq_some_iff,
        Option.some.injEq]
      constructor
      · rintro ⟨-, row, hrow, rows, hrows, -⟩
        exact ⟨⟨row, hrow⟩, rows, hrows⟩
      · rintro ⟨⟨row, hrow⟩, rows, hrows⟩
        exact ⟨row :: rows, row, hrow, rows, hrows, rfl⟩

lemma total_of_mapM {f : RepairEntry → Option EntryRow} {g : EntryRow → ℤ} {h : RepairEntry → ℤ}
    (hrow : ∀ e ∈ entries, ∀ row, f e = some row → g row = h e)
    (hrows : entries.mapM f = some rows) :
    total g rows = total h entries := by
  induction entries generalizing rows with
  | nil =>
      obtain rfl := Option.some.inj hrows
      rfl
  | cons e entries ih =>
      obtain ⟨he, hentries⟩ := List.forall_mem_cons.mp hrow
      rw [List.mapM_cons] at hrows
      obtain ⟨row, hfirst, hrows⟩ := Option.bind_eq_some_iff.mp hrows
      obtain ⟨rest, hrest, hrows⟩ := Option.bind_eq_some_iff.mp hrows
      obtain rfl := Option.some.inj hrows
      rw [total_cons, total_cons, he row hfirst, ih hentries hrest]

/-- The net of a currency is what the rows in it leave over. -/
lemma total_net_eq (hlength : ∀ e ∈ entries, e.currency.length = 3)
    (hrows : entries.mapM (RepairEntry.row tid accountId) = some rows) (c : Char3) :
    total EntryRow.signedMinor (rows.filter (·.currency = c)) =
      total RepairEntry.net (entries.filter fun e => e.currency = c.val) := by
  rw [total_filter, total_filter]
  refine total_of_mapM (fun e he row hrow => ?_) hrows
  obtain ⟨-, hcurrency, hsigned⟩ := row_eq_some (hlength e he) hrow
  rw [← hcurrency, ← hsigned]
  simp [Subtype.ext_iff]

lemma length_of_mapM {f : RepairEntry → Option EntryRow} (hrows : entries.mapM f = some rows) :
    rows.length = entries.length := by
  have hsum := total_of_mapM (g := fun _ => 1) (h := fun _ => 1) (fun _ _ _ _ => rfl) hrows
  simpa [total] using hsum

lemma mem_of_mapM {f : RepairEntry → Option EntryRow} (hrows : entries.mapM f = some rows) :
    ∀ row ∈ rows, ∃ e ∈ entries, f e = some row := by
  induction entries generalizing rows with
  | nil =>
      obtain rfl := Option.some.inj hrows
      exact fun row hrow => absurd hrow List.not_mem_nil
  | cons e entries ih =>
      rw [List.mapM_cons] at hrows
      obtain ⟨row, hfirst, hrows⟩ := Option.bind_eq_some_iff.mp hrows
      obtain ⟨rest, hrest, hrows⟩ := Option.bind_eq_some_iff.mp hrows
      obtain rfl := Option.some.inj hrows
      refine List.forall_mem_cons.mpr ⟨⟨e, List.mem_cons_self, hfirst⟩, fun row hrow => ?_⟩
      obtain ⟨e', he', hrow'⟩ := ih hrest row hrow
      exact ⟨e', List.mem_cons_of_mem e he', hrow'⟩

end

/-! ## The two checks -/

section

variable {L : Ledger} {t : TransactionRow} {accountId : String → ℕ} {entries : List RepairEntry}

/-- The triggers on rows of a new transaction see these rows only. -/
lemma triggersAccept_iff {rows : List EntryRow} (hnew : L.txnEntries t.id = [])
    (hrows : ∀ row ∈ rows, row.transactionId = t.id) :
    TriggersAccept L t rows ↔ 2 ≤ rows.length ∧ rows.length < 2 ^ 31 ∧
      ∀ c, total EntryRow.signedMinor (rows.filter (·.currency = c)) = 0 := by
  have hseen : (L.append ⟨[t], rows⟩).txnEntries t.id = rows := by
    rw [Ledger.txnEntries_append, hnew, List.nil_append]
    exact List.filter_eq_self.mpr fun row hrow => decide_eq_true (hrows row hrow)
  have hbalanced : (L.append ⟨[t], rows⟩).assertTxnBalanced t.id = .ok () ↔
      ∀ c, total EntryRow.signedMinor (rows.filter (·.currency = c)) = 0 := by
    simp only [Ledger.assertTxnBalanced_ok, Ledger.imbalance, hseen]
  unfold TriggersAccept
  rw [Ledger.assertTxnMinEntries_ok, hseen, and_assoc]
  refine and_congr_right fun hmin => and_congr_right fun _ => ?_
  rw [← hbalanced]
  constructor
  · intro hall
    obtain ⟨row, hrow⟩ := List.exists_mem_of_length_pos (show 0 < rows.length by omega)
    rw [← hrows row hrow]
    exact hall row hrow
  · intro hok row hrow
    rw [hrows row hrow]
    exact hok

/-- A sum over what is stored is zero in each stored currency if it is in each text. -/
lemma forall_currency_iff (hlength : ∀ e ∈ entries, e.currency.length = 3)
    (hnul : ∀ e ∈ entries, NulFree e.currency) :
    (∀ c : Char3, total RepairEntry.net (entries.filter fun e => e.currency = c.val) = 0) ↔
      ∀ c, total RepairEntry.net (entries.filter fun e => e.currency = c) = 0 := by
  refine ⟨fun h c => ?_, fun h c => h c.val⟩
  by_cases hc : c.length = 3 ∧ NulFree c
  · exact h ⟨c, hc⟩
  · have hnone : entries.filter (fun e => e.currency = c) = [] := by
      refine List.filter_eq_nil_iff.mpr fun e he heq => hc ?_
      rw [← of_decide_eq_true heq]
      exact ⟨hlength e he, hnul e he⟩
    rw [hnone, total_nil]

/-- **What the database accepts**: two entries or more, not too many to be counted, with one of the
two directions and values that the columns take, and in every currency as much debited as
credited. -/
lemma databaseAccepts_iff (hnew : L.txnEntries t.id = [])
    (hlength : ∀ e ∈ entries, e.currency.length = 3) :
    DatabaseAccepts L t accountId entries ↔
      2 ≤ entries.length ∧ entries.length < 2 ^ 31 ∧ (∀ e ∈ entries, e.Directed ∧ e.Storable) ∧
        ∀ c, total RepairEntry.net (entries.filter fun e => e.currency = c) = 0 := by
  have hstored : ∀ rows, entries.mapM (RepairEntry.row t.id accountId) = some rows →
      (TriggersAccept L t rows ↔ 2 ≤ entries.length ∧ entries.length < 2 ^ 31 ∧
        ∀ c : Char3, total RepairEntry.net (entries.filter fun e => e.currency = c.val) = 0) := by
    intro rows hrows
    have htid : ∀ row ∈ rows, row.transactionId = t.id := by
      intro row hrow
      obtain ⟨e, he, hstore⟩ := mem_of_mapM hrows row hrow
      exact (row_eq_some (hlength e he) hstore).1
    rw [triggersAccept_iff hnew htid, length_of_mapM hrows]
    simp only [total_net_eq hlength hrows]
  constructor
  · rintro ⟨rows, hrows, haccept⟩
    obtain ⟨hmin, hmax, hnet⟩ := (hstored rows hrows).mp haccept
    have hall := (mapM_row hlength).mp ⟨rows, hrows⟩
    exact ⟨hmin, hmax, hall, (forall_currency_iff hlength fun e he => (hall e he).2.2).mp hnet⟩
  · rintro ⟨hmin, hmax, hall, hnet⟩
    obtain ⟨rows, hrows⟩ := (mapM_row hlength).mpr hall
    refine ⟨rows, hrows, (hstored rows hrows).mpr ⟨hmin, hmax, ?_⟩⟩
    exact (forall_currency_iff hlength fun e he => (hall e he).2.2).mpr hnet

/-- **The balance check says what the triggers say of entries that can be stored and counted**, and
of others the database accepts none. -/
theorem repair_check_mirrors (hnew : L.txnEntries t.id = [])
    (hlength : ∀ e ∈ entries, e.currency.length = 3) :
    (entries.length < 2 ^ 31 → (∀ e ∈ entries, e.Storable) →
        (repairIsBalanced entries = true ↔
          (∀ e ∈ entries, e.Directed) ∧ DatabaseAccepts L t accountId entries)) ∧
      (DatabaseAccepts L t accountId entries →
        entries.length < 2 ^ 31 ∧ ∀ e ∈ entries, e.Storable) := by
  rw [repairIsBalanced_iff, databaseAccepts_iff hnew hlength]
  refine ⟨fun hfew hstorable => ?_, fun h => ⟨h.2.1, fun e he => (h.2.2.1 e he).2⟩⟩
  constructor
  · rintro ⟨hmin, hdirected, hnet⟩
    exact ⟨hdirected, hmin, hfew, fun e he => ⟨hdirected e he, hstorable e he⟩, hnet⟩
  · rintro ⟨hdirected, hmin, -, -, hnet⟩
    exact ⟨hmin, hdirected, hnet⟩

end

/-! ## A pair of entries -/

/-- An amount debited and credited. -/
def backAndForth (amount : ℤ) (h : 0 < amount) : List RepairEntry :=
  [{ accountName := "bank", direction := "debit", amountMinor := amount, amountMinor_pos := h },
   { accountName := "bank", direction := "credit", amountMinor := amount, amountMinor_pos := h }]

/-- The transaction of a repair. -/
def repairRow : TransactionRow := ⟨"repair", none, none, none, 0, none⟩

/-- A cent there and back is checked as the database would. -/
theorem repair_check_mirrors_cent :
    DatabaseAccepts .empty repairRow (fun _ => 2) (backAndForth 1 Int.one_pos) := by
  have hlength : ∀ e ∈ backAndForth 1 Int.one_pos, e.currency.length = 3 := by decide
  have hstorable : ∀ e ∈ backAndForth 1 Int.one_pos, e.Storable := by
    simp only [backAndForth, List.forall_mem_cons, List.not_mem_nil, false_imp_iff, implies_true,
      and_true]
    exact ⟨⟨by decide, by decide⟩, by decide, by decide⟩
  have hmirror := (@repair_check_mirrors .empty repairRow (fun _ => 2) _ rfl hlength).1
    (by decide) hstorable
  exact (hmirror.mp rfl).2

/-- **Two entries of `2^63` balance, but `BIGINT` takes neither.** -/
theorem repair_check_out_of_range :
    (∀ e ∈ backAndForth (2 ^ 63) (by decide), e.currency.length = 3 ∧ e.Directed) ∧
      repairIsBalanced (backAndForth (2 ^ 63) (by decide)) = true ∧
      ¬DatabaseAccepts .empty repairRow (fun _ => 2) (backAndForth (2 ^ 63) (by decide)) := by
  have hlength : ∀ e ∈ backAndForth (2 ^ 63) (by decide), e.currency.length = 3 := by decide
  have hdirected : ∀ e ∈ backAndForth (2 ^ 63) (by decide), e.Directed := by
    simp [backAndForth, RepairEntry.Directed]
  refine ⟨fun e he => ⟨hlength e he, hdirected e he⟩, by decide, fun haccepts => ?_⟩
  obtain ⟨-, -, hall, -⟩ := (databaseAccepts_iff rfl hlength).mp haccepts
  have hfits := (hall _ List.mem_cons_self).2.1
  revert hfits
  decide

end LedgerProof.Triage
