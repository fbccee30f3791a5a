import LedgerProof.Lib.Sums
import Mathlib.Data.List.ReduceOption

/-!
# The ledger schema

The tables of `migrations/001_ledger.sql`, with the composite foreign key that
`migrations/004_hardening.sql` adds: what a stored row is, which bags of rows the column
checks, keys and foreign keys admit, and what the two deferred constraint triggers ask at
`COMMIT`.

`Account` and `Chart` carry the constraints of the `accounts` table as fields, since accounts
are seeded by migration and never written at run time.  `Ledger` is the pair of append-only
tables; `Ledger.RowsAdmitted` is everything PostgreSQL checks row by row or through an index,
and `Ledger.Admitted` adds what the triggers establish.  `Ledger/Conservation.lean` proves
that every state the schema lets any set of writers reach is `Admitted`.

Two columns are not modelled.  `entries.id` is a sequence number that nothing reads, so the
table is a bag of rows, and `transactions.recorded_at` defaults to the clock.
-/

namespace LedgerProof

/-! ## Column types -/

/-- The `direction` enum. -/
inductive Direction
  | debit
  | credit
  deriving DecidableEq, Repr

/-- `accounts.kind`. -/
inductive Kind
  | asset
  | expense
  | liability
  | equity
  | revenue
  deriving DecidableEq, Repr

/-- The side `normal_matches_kind` allows: asset and expense accounts are debit-normal, the
other three credit-normal. -/
def Kind.normal : Kind → Direction
  | .asset | .expense => .debit
  | .liability | .equity | .revenue => .credit

/-- A text that PostgreSQL can hold: it has no NUL character. -/
def NulFree (s : String) : Prop := '\x00' ∉ s.toList

instance : DecidablePred NulFree := fun s => inferInstanceAs (Decidable ('\x00' ∉ s.toList))

/-- A value of type `CHAR(3)`, as PostgreSQL stores it: three characters, blank-padded. -/
abbrev Char3 := { s : String // s.length = 3 ∧ NulFree s }

lemma mem_takeD_blank {c : Char} (hc : c ≠ ' ') {n : ℕ} {cs : List Char} (h : c ∈ cs.takeD n ' ') :
    c ∈ cs := by
  induction n generalizing cs with
  | zero => simp at h
  | succ n ih =>
      cases cs with
      | nil =>
          rw [List.takeD_nil] at h
          exact absurd (List.eq_of_mem_replicate h) hc
      | cons d cs =>
          rw [List.takeD_succ, List.head?_cons, Option.getD_some, List.tail_cons] at h
          rcases List.mem_cons.mp h with rfl | h
          · exact List.mem_cons_self
          · exact List.mem_cons_of_mem d (ih h)

/-- Assigning text to a `CHAR(3)` column: shorter values are padded with blanks, longer ones
are refused unless the excess is all blanks. -/
def Char3.ofText (s : String) : Option Char3 :=
  if h : NulFree s ∧ (s.toList.drop 3).all (· = ' ') = true then
    some ⟨String.ofList (s.toList.takeD 3 ' '), by simp, fun hmem =>
      h.1 (mem_takeD_blank (by decide) (String.toList_ofList ▸ hmem))⟩
  else none

lemma Char3.ofText_nulFree {s : String} {c : Char3} (h : Char3.ofText s = some c) : NulFree s := by
  unfold ofText at h
  split_ifs at h with hs
  exact hs.1

/-- A `UUID` in its text form, whose order is the order of the type. -/
abbrev Uuid := String

/-- Equality as an SQL unique index sees it: `NULL` equals nothing, itself included. -/
def sqlEq {α : Type} [DecidableEq α] : Option α → Option α → Bool
  | some a, some b => a = b
  | _, _ => false

@[simp] lemma sqlEq_some {α : Type} [DecidableEq α] (a b : α) :
    sqlEq (some a) (some b) = decide (a = b) := rfl

@[simp] lemma sqlEq_none_left {α : Type} [DecidableEq α] (b : Option α) :
    sqlEq none b = false := rfl

@[simp] lemma sqlEq_none_right {α : Type} [DecidableEq α] (a : Option α) :
    sqlEq a none = false := by
  cases a <;> rfl

lemma sqlEq_iff {α : Type} [DecidableEq α] {a b : Option α} :
    sqlEq a b = true ↔ ∃ x, a = some x ∧ b = some x := by
  cases a <;> cases b <;> simp [eq_comm]

lemma sqlEq_comm {α : Type} [DecidableEq α] (a b : Option α) : sqlEq a b = sqlEq b a := by
  cases a <;> cases b <;> simp [eq_comm]

/-! ## Tables -/

/-- A row of `accounts`. -/
structure Account where
  id : ℕ
  name : String
  kind : Kind
  normal : Direction
  currency : Char3
  normal_matches_kind : normal = kind.normal
  deriving DecidableEq

/-- The `accounts` table: `id` is the primary key and `name` is unique. -/
structure Chart where
  accounts : List Account
  id_nodup : (accounts.map (·.id)).Nodup
  name_nodup : (accounts.map (·.name)).Nodup
  name_nulFree : ∀ a ∈ accounts, NulFree a.name

/-- A row of `transactions`.  `occurredAt` is in whole seconds since the epoch, the resolution
of the Stripe timestamps it is filled from. -/
structure TransactionRow where
  id : Uuid
  stripeEventId : Option String
  stripeObjectId : Option String
  eventType : Option String
  occurredAt : ℤ
  memo : Option String
  deriving DecidableEq, Repr

/-- The text columns of the row. -/
def TransactionRow.texts (t : TransactionRow) : List String :=
  [t.stripeEventId, t.stripeObjectId, t.eventType, t.memo].reduceOption

lemma TransactionRow.mem_texts {t : TransactionRow} {s : String} :
    s ∈ t.texts ↔ t.stripeEventId = some s ∨ t.stripeObjectId = some s ∨ t.eventType = some s ∨
      t.memo = some s := by
  simp [texts, List.reduceOption_mem_iff, eq_comm (a := some s)]

/-- PostgreSQL can hold the row's texts. -/
def TransactionRow.Storable (t : TransactionRow) : Prop := ∀ s ∈ t.texts, NulFree s

instance : DecidablePred TransactionRow.Storable := fun t =>
  inferInstanceAs (Decidable (∀ s ∈ t.texts, NulFree s))

/-- A row of `entries`. -/
structure EntryRow where
  transactionId : Uuid
  accountId : ℕ
  dir : Direction
  amountMinor : ℤ
  currency : Char3
  deriving DecidableEq, Repr

/-- The two append-only tables. -/
structure Ledger where
  transactions : List TransactionRow
  entries : List EntryRow
  deriving DecidableEq, Repr

namespace Ledger

/-- No rows. -/
def empty : Ledger := ⟨[], []⟩

/-- The rows of `L` followed by those of `W`. -/
def append (L W : Ledger) : Ledger :=
  ⟨L.transactions ++ W.transactions, L.entries ++ W.entries⟩

@[simp] lemma append_transactions (L W : Ledger) :
    (L.append W).transactions = L.transactions ++ W.transactions := rfl

@[simp] lemma append_entries (L W : Ledger) :
    (L.append W).entries = L.entries ++ W.entries := rfl

/-- The entries of one transaction. -/
def txnEntries (L : Ledger) (tid : Uuid) : List EntryRow :=
  L.entries.filter (·.transactionId = tid)

@[simp] lemma mem_txnEntries {L : Ledger} {tid : Uuid} {e : EntryRow} :
    e ∈ L.txnEntries tid ↔ e ∈ L.entries ∧ e.transactionId = tid := by
  simp [txnEntries]

@[simp] lemma txnEntries_append (L W : Ledger) (tid : Uuid) :
    (L.append W).txnEntries tid = L.txnEntries tid ++ W.txnEntries tid := by
  simp [txnEntries]

end Ledger

/-! ## Row checks, keys and foreign keys -/

/-- The largest value of a `BIGINT` column. -/
def bigintMax : ℤ := 9223372036854775807

/-- What the database checks without a trigger: the column checks, the three unique keys of
`transactions`, and the foreign keys of `entries`.  The pair `(account_id, currency)` must be a
pair of `accounts`, which includes that the account exists. -/
structure Ledger.RowsAdmitted (chart : Chart) (L : Ledger) : Prop where
  amount_pos : ∀ e ∈ L.entries, 0 < e.amountMinor
  amount_bigint : ∀ e ∈ L.entries, e.amountMinor ≤ bigintMax
  transactions_pkey : (L.transactions.map (·.id)).Nodup
  dedupe_event : L.transactions.Pairwise fun s t => sqlEq s.stripeEventId t.stripeEventId = false
  dedupe_object : L.transactions.Pairwise fun s t =>
    (sqlEq s.eventType t.eventType && sqlEq s.stripeObjectId t.stripeObjectId) = false
  entries_transaction_fkey : ∀ e ∈ L.entries, e.transactionId ∈ L.transactions.map (·.id)
  entries_currency_matches_account :
    ∀ e ∈ L.entries, (e.accountId, e.currency) ∈ chart.accounts.map fun a => (a.id, a.currency)

/-- The key that `entries_currency_matches_account` refers to can be compared. -/
instance accountKey_lawful : LawfulBEq (ℕ × Char3) := inferInstance

instance (chart : Chart) (L : Ledger) : Decidable (L.RowsAdmitted chart) :=
  decidable_of_iff
    ((∀ e ∈ L.entries, 0 < e.amountMinor) ∧ (∀ e ∈ L.entries, e.amountMinor ≤ bigintMax) ∧
      (L.transactions.map (·.id)).Nodup ∧
      (L.transactions.Pairwise fun s t => sqlEq s.stripeEventId t.stripeEventId = false) ∧
      (L.transactions.Pairwise fun s t =>
        (sqlEq s.eventType t.eventType && sqlEq s.stripeObjectId t.stripeObjectId) = false) ∧
      (∀ e ∈ L.entries, e.transactionId ∈ L.transactions.map (·.id)) ∧
      ∀ e ∈ L.entries, (e.accountId, e.currency) ∈ chart.accounts.map fun a => (a.id, a.currency))
    ⟨fun ⟨h1, h2, h3, h4, h5, h6, h7⟩ => ⟨h1, h2, h3, h4, h5, h6, h7⟩,
      fun ⟨h1, h2, h3, h4, h5, h6, h7⟩ => ⟨h1, h2, h3, h4, h5, h6, h7⟩⟩

/-! ## The deferred triggers -/

/-- The debit column of the trigger's query. -/
def EntryRow.debitMinor (e : EntryRow) : ℤ := if e.dir = .debit then e.amountMinor else 0

/-- The credit column of the trigger's query. -/
def EntryRow.creditMinor (e : EntryRow) : ℤ := if e.dir = .credit then e.amountMinor else 0

/-- Debits minus credits: what one entry adds to the imbalance of its transaction. -/
def EntryRow.signedMinor (e : EntryRow) : ℤ := e.debitMinor - e.creditMinor

/-- Errors PostgreSQL raises on the statements modelled here. -/
inductive PgError
  /-- A unique key is already taken; the constraint is named. -/
  | uniqueViolation (constraint : String)
  /-- A foreign key has no referenced row. -/
  | foreignKeyViolation (constraint : String)
  /-- A column check fails. -/
  | checkViolation (constraint : String)
  /-- An integer does not fit the column or variable. -/
  | numericValueOutOfRange
  /-- Text does not fit a `CHAR(n)` column. -/
  | stringDataRightTruncation
  /-- `DataError`, of the driver: a text to be written has a NUL character. -/
  | dataError
  /-- `unbalanced transaction % in %: debits=% credits=%`. -/
  | unbalancedTransaction (tid : Uuid) (currency : Char3) (debits credits : ℤ)
  /-- `transaction % has % entries; a balanced transaction needs at least 2`. -/
  | tooFewEntries (tid : Uuid) (n : ℕ)
  /-- SQLSTATE 40001. -/
  | serializationFailure
  /-- The connection or the server is gone. -/
  | operationalError
  deriving DecidableEq, Repr

namespace Ledger

/-- The groups `assert_txn_balanced` selects: the currencies of the transaction whose debits
and credits differ, with both sums. -/
def unbalancedGroups (L : Ledger) (tid : Uuid) : List (Char3 × ℤ × ℤ) :=
  let rows := L.txnEntries tid
  let groups := (rows.map (·.currency)).dedup.map fun c =>
    (c, total EntryRow.debitMinor (rows.filter (·.currency = c)),
      total EntryRow.creditMinor (rows.filter (·.currency = c)))
  groups.filter fun g => g.2.1 ≠ g.2.2

/-- `assert_txn_balanced`, run for a row of `entries` on what its query sees. -/
def assertTxnBalanced (L : Ledger) (tid : Uuid) : Except PgError Unit :=
  match (L.unbalancedGroups tid).head? with
  | some (c, dr, cr) => .error (.unbalancedTransaction tid c dr cr)
  | none => .ok ()

/-- `assert_txn_min_entries`, run for a row of `transactions`.  The count is selected into an
`integer`, so a count past `2^31 - 1` is refused as well. -/
def assertTxnMinEntries (L : Ledger) (tid : Uuid) : Except PgError Unit :=
  let n := (L.txnEntries tid).length
  if 2 ^ 31 ≤ n then .error .numericValueOutOfRange
  else if n < 2 then .error (.tooFewEntries tid n)
  else .ok ()

/-- What the entries of one transaction in one currency leave over. -/
def imbalance (L : Ledger) (tid : Uuid) (c : Char3) : ℤ :=
  total EntryRow.signedMinor ((L.txnEntries tid).filter (·.currency = c))

@[simp] lemma imbalance_append (L W : Ledger) (tid : Uuid) (c : Char3) :
    (L.append W).imbalance tid c = L.imbalance tid c + W.imbalance tid c := by
  simp [imbalance]

lemma imbalance_eq_sub (L : Ledger) (tid : Uuid) (c : Char3) :
    L.imbalance tid c =
      total EntryRow.debitMinor ((L.txnEntries tid).filter (·.currency = c)) -
        total EntryRow.creditMinor ((L.txnEntries tid).filter (·.currency = c)) :=
  total_sub _

lemma imbalance_eq_zero_of_not_mem {L : Ledger} {tid : Uuid} {c : Char3}
    (h : ∀ e ∈ L.txnEntries tid, e.currency ≠ c) : L.imbalance tid c = 0 := by
  rw [imbalance, List.filter_eq_nil_iff.mpr (by simpa using h), total_nil]

/-- **The balance trigger passes exactly when every currency balances.** -/
lemma assertTxnBalanced_ok {L : Ledger} {tid : Uuid} :
    L.assertTxnBalanced tid = .ok () ↔ ∀ c, L.imbalance tid c = 0 := by
  have hnil : L.assertTxnBalanced tid = .ok () ↔ L.unbalancedGroups tid = [] := by
    rw [assertTxnBalanced]
    cases h : L.unbalancedGroups tid <;> simp
  rw [hnil, unbalancedGroups, List.filter_eq_nil_iff]
  constructor
  · intro h c
    by_cases hc : ∃ e ∈ L.txnEntries tid, e.currency = c
    · obtain ⟨e, he, rfl⟩ := hc
      have hgroup := h _ (List.mem_map_of_mem (List.mem_dedup.mpr (List.mem_map_of_mem he)))
      rw [imbalance_eq_sub, sub_eq_zero]
      simpa using hgroup
    · exact imbalance_eq_zero_of_not_mem fun e he hec => hc ⟨e, he, hec⟩
  · intro h g hg
    obtain ⟨c, -, rfl⟩ := List.mem_map.mp hg
    have hc := h c
    rw [imbalance_eq_sub, sub_eq_zero] at hc
    simp [hc]

lemma assertTxnMinEntries_ok {L : Ledger} {tid : Uuid} :
    L.assertTxnMinEntries tid = .ok () ↔
      2 ≤ (L.txnEntries tid).length ∧ (L.txnEntries tid).length < 2 ^ 31 := by
  simp only [assertTxnMinEntries]
  split_ifs with hbig hsmall
  · simp only [false_iff, not_and, not_lt]
    exact fun _ => hbig
  · simp only [false_iff, not_and]
    omega
  · simp only [true_iff]
    omega

/-! ## Admitted ledgers -/

/-- A ledger the schema admits: its rows pass every row check, and every transaction has two
entries or more and balances in every currency. -/
structure Admitted (chart : Chart) (L : Ledger) : Prop extends L.RowsAdmitted chart where
  min_entries : ∀ t ∈ L.transactions, 2 ≤ (L.txnEntries t.id).length
  balanced : ∀ tid c, L.imbalance tid c = 0

lemma empty_admitted (chart : Chart) : empty.Admitted chart where
  amount_pos := by simp [empty]
  amount_bigint := by simp [empty]
  transactions_pkey := by simp [empty]
  dedupe_event := by simp [empty]
  dedupe_object := by simp [empty]
  entries_transaction_fkey := by simp [empty]
  entries_currency_matches_account := by simp [empty]
  min_entries := by simp [empty]
  balanced := by simp [empty, imbalance, txnEntries]

end Ledger

/-! ## The seeded chart -/

/-- `USD`. -/
def usd : Char3 := ⟨"USD", by decide, by decide⟩

/-- An account of the seed, whose normal side is the one its kind requires. -/
def seedAccount (id : ℕ) (name : String) (kind : Kind) : Account :=
  ⟨id, name, kind, kind.normal, usd, rfl⟩

/-- The chart `migrations/002_seed_accounts.sql` inserts. -/
def seedChart : Chart where
  accounts := [
    seedAccount 1 "stripe_balance" .asset,
    seedAccount 2 "bank" .asset,
    seedAccount 3 "processing_fees" .expense,
    seedAccount 4 "dispute_losses" .expense,
    seedAccount 5 "refunds_contra" .expense,
    seedAccount 6 "revenue" .revenue,
    seedAccount 7 "customer_liability" .liability]
  id_nodup := by decide
  name_nodup := by decide
  name_nulFree := by decide

end LedgerProof
