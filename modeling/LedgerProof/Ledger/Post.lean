import LedgerProof.Ledger.Balances
import LedgerProof.Lib.Python

/-!
# Posting a transaction

`ledger/post.py`: the only write path into `transactions` and `entries`.  `attempt` is the
source's `_attempt`, one database transaction as the list of its statements, which may fail at
any of them; `postTransaction` is the bounded retry around it.

A statement works on the session's view, a private copy of the ledger, and only a completed
`COMMIT` publishes it, so every failure leaves the ledger as it was (`attempt_error_ledger`).
`LedgerTransaction.writes` is the same unit run against a ledger that holds nothing but its own
row: what the schema thinks of the transaction taken alone.  `attempt_eq` is the frame: on any
ledger whose rows are admitted, an attempt is decided by the account names, the unique keys
already taken (`Ledger.conflict`) and that verdict, and by nothing else in the tables.
-/

namespace LedgerProof

/-! ## Exceptions and input -/

/-- The exceptions that cross the module boundaries of the worker. -/
inductive Exn
  | builtin (e : PyError)
  | pg (e : PgError)
  /-- `MissingFeeData`, with the unexpanded balance transaction id if there was one. -/
  | missingFeeData (balanceTransactionId : Option String)
  /-- `StripeError`. -/
  | stripe (message : String)
  /-- `ValueError`, with the text `unknown account: ` and the name. -/
  | unknownAccount (name : String)
  deriving DecidableEq, Repr

instance : MonadLift (Except PyError) (Except Exn) where
  monadLift
    | .ok a => .ok a
    | .error e => .error (.builtin e)

instance : MonadLift (Except PgError) (Except Exn) where
  monadLift
    | .ok a => .ok a
    | .error e => .error (.pg e)

@[simp] lemma liftM_py_ok {α : Type} (a : α) :
    (liftM (Except.ok a : Except PyError α) : Except Exn α) = .ok a := rfl

@[simp] lemma liftM_py_error {α : Type} (e : PyError) :
    (liftM (Except.error e : Except PyError α) : Except Exn α) = .error (.builtin e) := rfl

lemma liftM_py_eq_ok {α : Type} {x : Except PyError α} {a : α} :
    (liftM x : Except Exn α) = .ok a ↔ x = .ok a := by
  cases x <;> simp

@[simp] lemma liftM_pg_ok {α : Type} (a : α) :
    (liftM (Except.ok a : Except PgError α) : Except Exn α) = .ok a := rfl

@[simp] lemma liftM_pg_error {α : Type} (e : PgError) :
    (liftM (Except.error e : Except PgError α) : Except Exn α) = .error (.pg e) := rfl

/-- An entry to be posted, by account name. -/
structure Entry where
  accountName : String
  dir : Direction
  amountMinor : ℤ
  currency : String
  deriving DecidableEq, Repr

/-- A transaction to be posted. -/
structure LedgerTransaction where
  id : Uuid
  occurredAt : ℤ
  entries : List Entry
  stripeEventId : Option String
  stripeObjectId : Option String
  eventType : Option String
  memo : Option String
  deriving DecidableEq, Repr

/-- The row `INSERT INTO transactions` writes. -/
def LedgerTransaction.row (txn : LedgerTransaction) : TransactionRow :=
  ⟨txn.id, txn.stripeEventId, txn.stripeObjectId, txn.eventType, txn.occurredAt, txn.memo⟩

/-- `PostOutcome`. -/
inductive PostOutcome
  | posted
  | duplicate
  deriving DecidableEq, Repr

/-! ## Statements -/

/-- The account of a name. -/
def Chart.find (chart : Chart) (name : String) : Option Account :=
  chart.accounts.find? (·.name = name)

/-- The unique key of `transactions` a new row would violate.  Indexes are checked in the order
they were created, so the primary key is reported first. -/
def Ledger.conflict (L : Ledger) (t : TransactionRow) : Option String :=
  if t.id ∈ L.transactions.map (·.id) then some "transactions_pkey"
  else if L.transactions.any fun s => sqlEq s.stripeEventId t.stripeEventId then
    some "dedupe_event"
  else if L.transactions.any fun s =>
      sqlEq s.eventType t.eventType && sqlEq s.stripeObjectId t.stripeObjectId then
    some "dedupe_object"
  else none

/-- `INSERT INTO transactions`.  The driver refuses a text with a NUL character before the
server sees the statement. -/
def Ledger.insertTransaction (L : Ledger) (t : TransactionRow) : Except PgError Ledger :=
  if t.Storable then
    match L.conflict t with
    | some c => .error (.uniqueViolation c)
    | none => .ok { L with transactions := L.transactions ++ [t] }
  else .error .dataError

/-- The stored form of an entry: the amount must fit `BIGINT` and be positive, the currency
must fit `CHAR(3)`. -/
def Entry.store (e : Entry) (tid : Uuid) (accountId : ℕ) : Except PgError EntryRow :=
  if ¬NulFree e.currency then .error .dataError
  else if e.amountMinor < -bigintMax - 1 ∨ bigintMax < e.amountMinor then
    .error .numericValueOutOfRange
  else
    match Char3.ofText e.currency with
    | none => .error .stringDataRightTruncation
    | some c =>
        if e.amountMinor ≤ 0 then .error (.checkViolation "entries_amount_minor_check")
        else .ok ⟨tid, accountId, e.dir, e.amountMinor, c⟩

/-- `INSERT INTO entries`: the row is stored if its transaction, its account and the pair of
account and currency exist. -/
def Ledger.insertEntry (chart : Chart) (L : Ledger) (row : EntryRow) : Except PgError Ledger :=
  if row.transactionId ∉ L.transactions.map (·.id) then
    .error (.foreignKeyViolation "entries_transaction_id_fkey")
  else if row.accountId ∉ chart.accounts.map (·.id) then
    .error (.foreignKeyViolation "entries_account_id_fkey")
  else if (row.accountId, row.currency) ∉ chart.accounts.map fun a => (a.id, a.currency) then
    .error (.foreignKeyViolation "entries_currency_matches_account")
  else .ok { L with entries := L.entries ++ [row] }

/-- The statements of one attempt. -/
inductive Stmt
  | selectAccount (name : String)
  | insertTransaction (t : TransactionRow)
  | insertEntry (tid : Uuid) (e : Entry)
  /-- `COMMIT`: the deferred triggers run, for the transactions row first and then for every
  entries row. -/
  | commit (txn : LedgerTransaction)

/-- Executing one statement on the session's view. -/
def Stmt.exec (chart : Chart) (L : Ledger) : Stmt → Except Exn Ledger
  | .selectAccount name =>
      if NulFree name then
        match chart.find name with
        | some _ => .ok L
        | none => .error (.unknownAccount name)
      else .error (.pg .dataError)
  | .insertTransaction t => do L.insertTransaction t
  | .insertEntry tid e =>
      match chart.find e.accountName with
      | some a => do
          let row ← e.store tid a.id
          L.insertEntry chart row
      | none => .error (.builtin (.keyError e.accountName))
  | .commit txn => do
      L.assertTxnMinEntries txn.id
      txn.entries.forM fun _ => (L.assertTxnBalanced txn.id : Except Exn Unit)
      return L

/-- The account names `_attempt` looks up: each once, in order of first use. -/
def LedgerTransaction.accountNames (txn : LedgerTransaction) : List String :=
  (txn.entries.map (·.accountName)).reverse.dedup.reverse

/-- The statements that insert the entries and commit. -/
def LedgerTransaction.entryStmts (txn : LedgerTransaction) : List Stmt :=
  txn.entries.map (.insertEntry txn.id) ++ [.commit txn]

/-- The statements of `_attempt`, in order. -/
def LedgerTransaction.stmts (txn : LedgerTransaction) : List Stmt :=
  txn.accountNames.map .selectAccount ++ .insertTransaction txn.row :: txn.entryStmts

/-- Running statements from index `i`; `fault` is the index of a statement at which the server
raises a serialization failure. -/
def runStmts (chart : Chart) (fault : Option ℕ) : ℕ → Ledger → List Stmt → Except Exn Ledger
  | _, L, [] => .ok L
  | i, L, s :: ss =>
      if fault = some i then .error (.pg .serializationFailure)
      else do
        let L' ← s.exec chart L
        runStmts chart fault (i + 1) L' ss

/-- `_DEDUPE_CONSTRAINTS`. -/
def dedupeConstraints : List String := ["dedupe_event", "dedupe_object"]

/-- `_attempt`: one database transaction.  A violated dedupe key is `DUPLICATE`; every other
failure propagates, and every failure rolls back. -/
def attempt (chart : Chart) (L : Ledger) (txn : LedgerTransaction) (fault : Option ℕ) :
    Except Exn PostOutcome × Ledger :=
  match runStmts chart fault 0 L txn.stmts with
  | .ok L' => (.ok .posted, L')
  | .error (.pg (.uniqueViolation c)) =>
      if c ∈ dedupeConstraints then (.ok .duplicate, L)
      else (.error (.pg (.uniqueViolation c)), L)
  | .error e => (.error e, L)

/-! ## Retrying -/

/-- What a call of `post_transaction` did: its result, the ledger it left, and how many times it
tried and slept. -/
structure PostRun where
  outcome : Except Exn PostOutcome
  ledger : Ledger
  attempts : ℕ
  sleeps : ℕ

/-- The retry loop: `retries` attempts may still follow the current one, the `i`-th. -/
def postLoop (chart : Chart) (L : Ledger) (txn : LedgerTransaction) (faults : ℕ → Option ℕ) :
    ℕ → ℕ → PostRun
  | retries, i =>
      match attempt chart L txn (faults i) with
      | (.error (.pg .serializationFailure), L') =>
          match retries with
          | 0 => ⟨.error (.pg .serializationFailure), L', i, i - 1⟩
          | retries + 1 => postLoop chart L txn faults retries (i + 1)
      | (r, L') => ⟨r, L', i, i - 1⟩

/-- `post_transaction`, with the serialization failures of each attempt given by `faults`. -/
def postTransaction (chart : Chart) (L : Ledger) (txn : LedgerTransaction) (maxAttempts : ℕ)
    (faults : ℕ → Option ℕ) : PostRun :=
  postLoop chart L txn faults (maxAttempts - 1) 1

/-! ## The transaction on its own -/

/-- What the schema stores for a transaction, judged against no other rows. -/
def LedgerTransaction.writes (chart : Chart) (txn : LedgerTransaction) : Except Exn Ledger :=
  if txn.row.Storable then runStmts chart none 0 ⟨[txn.row], []⟩ txn.entryStmts
  else .error (.pg .dataError)

lemma Ledger.conflict_eq_none_iff {L : Ledger} {t : TransactionRow} :
    L.conflict t = none ↔ t.id ∉ L.transactions.map (·.id) ∧
      (∀ s ∈ L.transactions, sqlEq s.stripeEventId t.stripeEventId = false) ∧
      ∀ s ∈ L.transactions,
        (sqlEq s.eventType t.eventType && sqlEq s.stripeObjectId t.stripeObjectId) = false := by
  unfold conflict
  split_ifs with h1 h2 h3
  · simp [h1]
  · simp only [false_iff, not_and]
    intro _ h
    obtain ⟨s, hs, heq⟩ := List.any_eq_true.mp h2
    simp [h s hs] at heq
  · simp only [false_iff, not_and]
    intro _ _ h
    obtain ⟨s, hs, heq⟩ := List.any_eq_true.mp h3
    simp [h s hs] at heq
  · simp only [List.any_eq_true, not_exists, not_and, Bool.not_eq_true] at h2 h3
    exact iff_of_true rfl ⟨h1, h2, h3⟩

/-- The constraints `conflict` names, with what each one found. -/
lemma Ledger.conflict_cases {L : Ledger} {t : TransactionRow} {c : String}
    (h : L.conflict t = some c) :
    (c = "transactions_pkey" ∧ ∃ s ∈ L.transactions, s.id = t.id) ∨
      (c = "dedupe_event" ∧
        ∃ s ∈ L.transactions, sqlEq s.stripeEventId t.stripeEventId = true) ∨
      (c = "dedupe_object" ∧ ∃ s ∈ L.transactions,
        sqlEq s.eventType t.eventType = true ∧ sqlEq s.stripeObjectId t.stripeObjectId = true) := by
  unfold conflict at h
  split_ifs at h with h1 h2 h3
  · obtain ⟨s, hs, heq⟩ := List.mem_map.mp h1
    exact .inl ⟨(Option.some_inj.mp h).symm, s, hs, heq⟩
  · obtain ⟨s, hs, heq⟩ := List.any_eq_true.mp h2
    exact .inr (.inl ⟨(Option.some_inj.mp h).symm, s, hs, heq⟩)
  · obtain ⟨s, hs, heq⟩ := List.any_eq_true.mp h3
    exact .inr (.inr ⟨(Option.some_inj.mp h).symm, s, hs, by simpa using heq⟩)

lemma Ledger.conflict_append_eq_none_iff {L W : Ledger} {t : TransactionRow} :
    (L.append W).conflict t = none ↔ L.conflict t = none ∧ W.conflict t = none := by
  simp only [conflict_eq_none_iff, append_transactions, List.map_append, List.mem_append, not_or,
    or_imp, forall_and]
  tauto

/-! ## The frame -/

lemma runStmts_none (chart : Chart) (i : ℕ) (L : Ledger) (ss : List Stmt) :
    runStmts chart none i L ss = ss.foldlM (fun L s => s.exec chart L) L := by
  induction ss generalizing i L with
  | nil => rfl
  | cons s ss ih =>
      simp only [runStmts, reduceCtorEq, if_false, List.foldlM_cons]
      congr 1
      funext L'
      exact ih (i + 1) L'

/-- What looking up the name of no account raises. -/
def lookupError (name : String) : Exn :=
  if NulFree name then .unknownAccount name else .pg .dataError

lemma Chart.find_mem {chart : Chart} {name : String} {a : Account} (h : chart.find name = some a) :
    a ∈ chart.accounts ∧ a.name = name :=
  ⟨List.mem_of_find?_eq_some h, by simpa using List.find?_some h⟩

/-- The account of a name is looked up before it is known that there is one, but no account has a
name that the driver refuses. -/
lemma exec_selectAccount (chart : Chart) (L : Ledger) (name : String) :
    (Stmt.selectAccount name).exec chart L =
      if (chart.find name).isNone then .error (lookupError name) else .ok L := by
  rw [Stmt.exec]
  cases h : chart.find name with
  | none =>
      by_cases hname : NulFree name <;> simp [lookupError, hname]
  | some a =>
      obtain ⟨ha, rfl⟩ := Chart.find_mem h
      exact if_pos (chart.name_nulFree a ha)

/-- The first name no account has. -/
def LedgerTransaction.unknownAccount (chart : Chart) (txn : LedgerTransaction) : Option String :=
  txn.accountNames.find? fun name => (chart.find name).isNone

lemma foldlM_selectAccount (chart : Chart) (L : Ledger) (names : List String) :
    (names.map Stmt.selectAccount).foldlM (fun L s => s.exec chart L) L =
      match names.find? fun name => (chart.find name).isNone with
      | some name => .error (lookupError name)
      | none => .ok L := by
  induction names with
  | nil => rfl
  | cons name names ih =>
      rw [List.map_cons, List.foldlM_cons, exec_selectAccount, List.find?_cons]
      cases h : chart.find name with
      | none => simp
      | some a => simpa using ih

/-- The row an entry becomes, with the account resolved and the currency checked against it. -/
def Entry.row (chart : Chart) (tid : Uuid) (e : Entry) : Except Exn EntryRow :=
  match chart.find e.accountName with
  | some a =>
      match e.store tid a.id with
      | .ok row =>
          if (row.accountId, row.currency) ∈ chart.accounts.map fun a => (a.id, a.currency) then
            .ok row
          else .error (.pg (.foreignKeyViolation "entries_currency_matches_account"))
      | .error err => .error (.pg err)
  | none => .error (.builtin (.keyError e.accountName))

lemma Entry.store_ok {e : Entry} {tid : Uuid} {aid : ℕ} {row : EntryRow}
    (h : e.store tid aid = .ok row) :
    0 < e.amountMinor ∧ e.amountMinor ≤ bigintMax ∧ ∃ c, Char3.ofText e.currency = some c ∧
      row = ⟨tid, aid, e.dir, e.amountMinor, c⟩ := by
  unfold store at h
  by_cases hnul : ¬NulFree e.currency
  · simp [hnul] at h
  by_cases hrange : e.amountMinor < -bigintMax - 1 ∨ bigintMax < e.amountMinor
  · simp [hnul, hrange] at h
  · rw [if_neg hnul, if_neg hrange] at h
    cases hc : Char3.ofText e.currency with
    | none => simp [hc] at h
    | some c =>
        by_cases hpos : e.amountMinor ≤ 0
        · simp [hc, hpos] at h
        · simp only [hc, hpos, if_false, Except.ok.injEq] at h
          exact ⟨by omega, by omega, c, rfl, h.symm⟩

lemma exec_insertEntry (chart : Chart) {W : Ledger} {tid : Uuid} (e : Entry)
    (hW : tid ∈ W.transactions.map (·.id)) :
    (Stmt.insertEntry tid e).exec chart W =
      (e.row chart tid).map fun row => { W with entries := W.entries ++ [row] } := by
  simp only [Stmt.exec, Entry.row]
  cases ha : chart.find e.accountName with
  | none => rfl
  | some a =>
      have hacc : a.id ∈ chart.accounts.map (·.id) := List.mem_map_of_mem (Chart.find_mem ha).1
      cases hs : e.store tid a.id with
      | error err => simp [hs, Except.map]
      | ok row =>
          obtain ⟨-, -, c, -, rfl⟩ := Entry.store_ok hs
          simp only [hs, liftM_pg_ok, except_ok_bind, Ledger.insertEntry]
          rw [if_neg (not_not.mpr hW), if_neg (not_not.mpr hacc)]
          by_cases hfk : (a.id, c) ∈ chart.accounts.map fun a => (a.id, a.currency)
          · simp [hfk, Except.map]
          · simp [hfk, Except.map]

lemma foldlM_insertEntry (chart : Chart) {W : Ledger} {tid : Uuid} (es : List Entry)
    (hW : tid ∈ W.transactions.map (·.id)) :
    (es.map (Stmt.insertEntry tid)).foldlM (fun L s => Stmt.exec chart L s) W =
      (es.mapM (Entry.row chart tid)).map fun rows =>
        { W with entries := W.entries ++ rows } := by
  induction es generalizing W with
  | nil => simp [Except.map, pure, Except.pure]
  | cons e es ih =>
      rw [List.map_cons, List.foldlM_cons, exec_insertEntry chart e hW, List.mapM_cons]
      cases e.row chart tid with
      | error err => rfl
      | ok row =>
          simp only [Except.map, except_ok_bind]
          rw [ih (W := { W with entries := W.entries ++ [row] }) hW]
          cases es.mapM (Entry.row chart tid) with
          | error err => rfl
          | ok rows => simp [Except.map, pure, Except.pure]

lemma exec_commit (chart : Chart) (L : Ledger) (txn : LedgerTransaction) :
    (Stmt.commit txn).exec chart L =
      match L.assertTxnMinEntries txn.id,
        (if txn.entries = [] then .ok () else L.assertTxnBalanced txn.id) with
      | .error err, _ => .error (.pg err)
      | .ok _, .error err => .error (.pg err)
      | .ok _, .ok _ => .ok L := by
  simp only [Stmt.exec, except_forM_const]
  cases L.assertTxnMinEntries txn.id with
  | error err => rfl
  | ok _ =>
      by_cases hnil : txn.entries = []
      · simp only [hnil, if_true]
        rfl
      · simp only [hnil, if_false]
        cases L.assertTxnBalanced txn.id <;> rfl

/-- The triggers read nothing but the entries of their transaction. -/
lemma exec_commit_append (chart : Chart) (L W : Ledger) (txn : LedgerTransaction)
    (hL : L.txnEntries txn.id = []) :
    (Stmt.commit txn).exec chart (L.append W) = ((Stmt.commit txn).exec chart W).map L.append := by
  have hrows : (L.append W).txnEntries txn.id = W.txnEntries txn.id := by
    rw [Ledger.txnEntries_append, hL, List.nil_append]
  have hmin : (L.append W).assertTxnMinEntries txn.id = W.assertTxnMinEntries txn.id := by
    simp only [Ledger.assertTxnMinEntries, hrows]
  have hbal : (L.append W).assertTxnBalanced txn.id = W.assertTxnBalanced txn.id := by
    simp only [Ledger.assertTxnBalanced, Ledger.unbalancedGroups, hrows]
  rw [exec_commit, exec_commit, hmin, hbal]
  split <;> rfl

/-- The verdict on the transaction alone: its rows, then the triggers on them. -/
lemma LedgerTransaction.writes_eq (chart : Chart) {txn : LedgerTransaction} (h : txn.row.Storable) :
    txn.writes chart = (txn.entries.mapM (Entry.row chart txn.id)) >>= fun rows =>
      (Stmt.commit txn).exec chart ⟨[txn.row], rows⟩ := by
  have hmem : txn.id ∈ [txn.row].map (·.id) := by simp [LedgerTransaction.row]
  rw [writes, if_pos h, runStmts_none, entryStmts, List.foldlM_append,
    foldlM_insertEntry chart _ hmem]
  cases txn.entries.mapM (Entry.row chart txn.id) with
  | error err => rfl
  | ok rows => simp [Except.map]

/-- Inserting and committing the entries after an older ledger adds what they would be alone. -/
lemma foldlM_entryStmts_append (chart : Chart) (L : Ledger) {txn : LedgerTransaction}
    (h : txn.row.Storable) (hL : L.txnEntries txn.id = []) :
    txn.entryStmts.foldlM (fun L s => Stmt.exec chart L s) (L.append ⟨[txn.row], []⟩) =
      (txn.writes chart).map L.append := by
  have hmem : txn.id ∈ (L.append ⟨[txn.row], []⟩).transactions.map (·.id) := by
    simp [LedgerTransaction.row]
  rw [LedgerTransaction.entryStmts, List.foldlM_append, foldlM_insertEntry chart _ hmem,
    LedgerTransaction.writes_eq chart h]
  cases txn.entries.mapM (Entry.row chart txn.id) with
  | error err => rfl
  | ok rows =>
      have hview : ({ L.append ⟨[txn.row], []⟩ with
          entries := (L.append ⟨[txn.row], []⟩).entries ++ rows } : Ledger) =
          L.append ⟨[txn.row], rows⟩ := by
        simp [Ledger.append]
      simp only [Except.map, except_ok_bind, List.foldlM_cons, List.foldlM_nil, hview,
        exec_commit_append chart L _ txn hL]
      cases (Stmt.commit txn).exec chart ⟨[txn.row], rows⟩ <;> rfl

lemma Entry.row_error_ne {chart : Chart} {tid : Uuid} {e : Entry} {err : Exn}
    (h : e.row chart tid = .error err) (c : String) : err ≠ .pg (.uniqueViolation c) := by
  rintro rfl
  unfold row store at h
  cases ha : chart.find e.accountName with
  | none => simp [ha] at h
  | some a =>
      cases hc : Char3.ofText e.currency with
      | none =>
          simp only [ha, hc] at h
          split_ifs at h <;> simp at h
      | some cur =>
          simp only [ha, hc] at h
          split_ifs at h
          · simp at h
          · simp at h
          · dsimp only at h
            split_ifs at h
            simp at h
          · simp at h

lemma Ledger.assertTxnMinEntries_error_ne {L : Ledger} {tid : Uuid} {err : PgError}
    (h : L.assertTxnMinEntries tid = .error err) (c : String) : err ≠ .uniqueViolation c := by
  rintro rfl
  simp only [assertTxnMinEntries] at h
  split_ifs at h <;> simp at h

lemma Ledger.assertTxnBalanced_error_ne {L : Ledger} {tid : Uuid} {err : PgError}
    (h : L.assertTxnBalanced tid = .error err) (c : String) : err ≠ .uniqueViolation c := by
  rintro rfl
  unfold assertTxnBalanced at h
  split at h <;> simp at h

/-- Neither an entry nor a trigger violates a unique key. -/
lemma LedgerTransaction.writes_error_ne {chart : Chart} {txn : LedgerTransaction} {err : Exn}
    (h : txn.writes chart = .error err) (c : String) : err ≠ .pg (.uniqueViolation c) := by
  by_cases hrow : ¬txn.row.Storable
  · rw [writes, if_neg hrow] at h
    rintro rfl
    simp at h
  rw [writes_eq chart (not_not.mp hrow)] at h
  rcases except_bind_eq_error.mp h with h | ⟨rows, -, h⟩
  · obtain ⟨e, -, he⟩ := except_mapM_error h
    exact Entry.row_error_ne he c
  · rintro rfl
    rw [exec_commit] at h
    split at h
    · rename_i hmin
      exact Ledger.assertTxnMinEntries_error_ne hmin c (Exn.pg.inj (Except.error.inj h))
    · rename_i hbal
      split_ifs at hbal
      exact Ledger.assertTxnBalanced_error_ne hbal c (Exn.pg.inj (Except.error.inj h))
    · simp at h

lemma Ledger.RowsAdmitted.txnEntries_eq_nil {chart : Chart} {L : Ledger}
    (hL : L.RowsAdmitted chart) {tid : Uuid} (h : tid ∉ L.transactions.map (·.id)) :
    L.txnEntries tid = [] := by
  refine List.filter_eq_nil_iff.mpr fun e he => ?_
  have hfk := hL.entries_transaction_fkey e he
  simp only [decide_eq_true_eq]
  rintro rfl
  exact h hfk

/-- Where a text of the row cannot be stored, or an account is missing, an attempt raises and the
schema stores nothing. -/
lemma attempt_refused {chart : Chart} (L : Ledger) {txn : LedgerTransaction}
    (h : txn.unknownAccount chart = none → ¬txn.row.Storable) :
    ∃ e, attempt chart L txn none = (.error e, L) ∧
      ((∃ name, e = lookupError name) ∨ e = .pg .dataError) := by
  unfold attempt
  rw [runStmts_none, LedgerTransaction.stmts, List.foldlM_append, foldlM_selectAccount]
  cases hname : txn.unknownAccount chart with
  | some name =>
      unfold LedgerTransaction.unknownAccount at hname
      refine ⟨lookupError name, ?_, .inl ⟨name, rfl⟩⟩
      simp only [hname, except_error_bind]
      unfold lookupError
      split_ifs <;> rfl
  | none =>
      have hrow := h hname
      unfold LedgerTransaction.unknownAccount at hname
      refine ⟨.pg .dataError, ?_, .inr rfl⟩
      have hexec : (Stmt.insertTransaction txn.row).exec chart L = .error (.pg .dataError) := by
        rw [Stmt.exec, Ledger.insertTransaction, if_neg hrow]
        rfl
      simp only [hname, except_ok_bind, List.foldlM_cons, hexec, except_error_bind]

/-- **The attempt, in closed form.** Without serialization failures it is decided by the account
names, the texts of the row, the unique keys taken, and what the schema says of the transaction on
its own. -/
lemma attempt_eq {chart : Chart} {L : Ledger} (hL : L.RowsAdmitted chart)
    {txn : LedgerTransaction} (hname : txn.unknownAccount chart = none) (hrow : txn.row.Storable) :
    attempt chart L txn none =
      match L.conflict txn.row, txn.writes chart with
      | some c, _ =>
          if c ∈ dedupeConstraints then (.ok .duplicate, L)
          else (.error (.pg (.uniqueViolation c)), L)
      | none, .ok W => (.ok .posted, L.append W)
      | none, .error e => (.error e, L) := by
  unfold attempt
  rw [runStmts_none, LedgerTransaction.stmts, List.foldlM_append, foldlM_selectAccount]
  unfold LedgerTransaction.unknownAccount at hname
  have hexec : (Stmt.insertTransaction txn.row).exec chart L =
      (liftM (L.insertTransaction txn.row) : Except Exn Ledger) := rfl
  simp only [hname, except_ok_bind, List.foldlM_cons, hexec, Ledger.insertTransaction, if_pos hrow]
  cases hc : L.conflict txn.row with
  | some c => simp
  | none =>
      have hfresh := (Ledger.conflict_eq_none_iff.mp hc).1
      have hview : ({ L with transactions := L.transactions ++ [txn.row] } : Ledger) =
          L.append ⟨[txn.row], []⟩ := by
        simp [Ledger.append]
      simp only [liftM_pg_ok, except_ok_bind, hview,
        foldlM_entryStmts_append chart L hrow (hL.txnEntries_eq_nil hfresh)]
      cases hw : txn.writes chart with
      | ok W => rfl
      | error e =>
          have hne := LedgerTransaction.writes_error_ne hw
          cases e with
          | pg err =>
              cases err with
              | uniqueViolation c => exact absurd rfl (hne c)
              | _ => rfl
          | _ => rfl

/-! ## Serialization failures -/

/-- A statement that is made to fail is the only difference a fault makes. -/
lemma runStmts_fault (chart : Chart) (fault : Option ℕ) (i : ℕ) (L : Ledger) (ss : List Stmt) :
    runStmts chart fault i L ss = runStmts chart none i L ss ∨
      runStmts chart fault i L ss = .error (.pg .serializationFailure) := by
  induction ss generalizing i L with
  | nil => exact .inl rfl
  | cons s ss ih =>
      unfold runStmts
      by_cases hf : fault = some i
      · exact .inr (by simp [hf])
      · simp only [hf, if_false, reduceCtorEq]
        cases hs : s.exec chart L with
        | error err => exact .inl rfl
        | ok L' => exact ih (i + 1) L'

lemma attempt_fault (chart : Chart) (L : Ledger) (txn : LedgerTransaction) (fault : Option ℕ) :
    attempt chart L txn fault = attempt chart L txn none ∨
      attempt chart L txn fault = (.error (.pg .serializationFailure), L) := by
  unfold attempt
  rcases runStmts_fault chart fault 0 L txn.stmts with h | h
  · exact .inl (by rw [h])
  · exact .inr (by rw [h])

lemma attempt_error_ledger {chart : Chart} {L L' : Ledger} {txn : LedgerTransaction}
    {fault : Option ℕ} {e : Exn} (h : attempt chart L txn fault = (.error e, L')) :
    L' = L := by
  unfold attempt at h
  split at h
  · simp at h
  · split_ifs at h
    · simp at h
    · exact (Prod.ext_iff.mp h).2.symm
  · exact (Prod.ext_iff.mp h).2.symm

/-! ## What the schema accepts -/

lemma Entry.row_ok_iff {chart : Chart} {tid : Uuid} {e : Entry} {row : EntryRow} :
    e.row chart tid = .ok row ↔ 0 < e.amountMinor ∧ e.amountMinor ≤ bigintMax ∧
      ∃ a, chart.find e.accountName = some a ∧ Char3.ofText e.currency = some a.currency ∧
        row = ⟨tid, a.id, e.dir, e.amountMinor, a.currency⟩ := by
  constructor
  · intro h
    unfold Entry.row at h
    cases ha : chart.find e.accountName with
    | none => simp [ha] at h
    | some a =>
        simp only [ha] at h
        cases hs : e.store tid a.id with
        | error err => simp [hs] at h
        | ok r =>
            obtain ⟨hpos, hmax, c, hc, rfl⟩ := Entry.store_ok hs
            simp only [hs] at h
            split_ifs at h with hfk
            obtain ⟨b, hb, heq⟩ := List.mem_map.mp hfk
            have hab : b = a := Chart.eq_of_id hb (Chart.find_mem ha).1 (congrArg Prod.fst heq)
            have hcur : a.currency = c := hab ▸ congrArg Prod.snd heq
            exact ⟨hpos, hmax, a, rfl, by rw [hc, hcur], by rw [← Except.ok.inj h, hcur]⟩
  · rintro ⟨hpos, hmax, a, ha, hc, rfl⟩
    have hstore : e.store tid a.id = .ok ⟨tid, a.id, e.dir, e.amountMinor, a.currency⟩ := by
      have hnul : ¬¬NulFree e.currency := not_not.mpr (Char3.ofText_nulFree hc)
      have hrange : ¬(e.amountMinor < -bigintMax - 1 ∨ bigintMax < e.amountMinor) := by
        have : 0 ≤ bigintMax := by decide
        omega
      simp only [store, hnul, hrange, if_false, hc, not_le.mpr hpos]
    have hfk : (a.id, a.currency) ∈ chart.accounts.map fun a => (a.id, a.currency) :=
      List.mem_map_of_mem (Chart.find_mem ha).1
    simp only [Entry.row, ha, hstore, if_pos hfk]

/-- Rows depend on the transaction id only through their own column. -/
lemma Entry.row_tid (chart : Chart) (tid tid' : Uuid) (e : Entry) :
    e.row chart tid' = (e.row chart tid).map fun r => { r with transactionId := tid' } := by
  have hstore : ∀ aid, e.store tid' aid =
      (e.store tid aid).map fun r => { r with transactionId := tid' } := by
    intro aid
    unfold store
    split_ifs
    · rfl
    · cases Char3.ofText e.currency <;> rfl
    · cases Char3.ofText e.currency <;> rfl
    · rfl
  unfold row
  cases chart.find e.accountName with
  | none => rfl
  | some a =>
      simp only [hstore a.id]
      cases e.store tid a.id with
      | error err => rfl
      | ok r =>
          simp only [Except.map]
          split_ifs <;> rfl

lemma mapM_row_tid (chart : Chart) (tid tid' : Uuid) (es : List Entry) :
    es.mapM (Entry.row chart tid') = (es.mapM (Entry.row chart tid)).map
      fun rows => rows.map fun r => { r with transactionId := tid' } := by
  induction es with
  | nil => rfl
  | cons e es ih =>
      rw [List.mapM_cons, List.mapM_cons, ih, Entry.row_tid chart tid tid' e]
      cases e.row chart tid with
      | error err => rfl
      | ok r =>
          cases es.mapM (Entry.row chart tid) <;> rfl

lemma mapM_row_mem {chart : Chart} {tid : Uuid} {es : List Entry} {rows : List EntryRow}
    (h : es.mapM (Entry.row chart tid) = .ok rows) {r : EntryRow} (hr : r ∈ rows) :
    ∃ e ∈ es, e.row chart tid = .ok r := by
  induction es generalizing rows with
  | nil =>
      rw [List.mapM_nil] at h
      cases Except.ok.inj h
      simp at hr
  | cons e es ih =>
      rw [List.mapM_cons] at h
      obtain ⟨r', hr', h⟩ := except_bind_eq_ok.mp h
      obtain ⟨rows', hrows', h⟩ := except_bind_eq_ok.mp h
      cases Except.ok.inj h
      rcases List.mem_cons.mp hr with rfl | hr
      · exact ⟨e, by simp, hr'⟩
      · obtain ⟨e', he', hrow⟩ := ih hrows' hr
        exact ⟨e', by simp [he'], hrow⟩

lemma mem_mapM_row {chart : Chart} {tid : Uuid} {es : List Entry} {rows : List EntryRow}
    (h : es.mapM (Entry.row chart tid) = .ok rows) {e : Entry} (he : e ∈ es) :
    ∃ r ∈ rows, e.row chart tid = .ok r := by
  induction es generalizing rows with
  | nil => simp at he
  | cons e' es ih =>
      rw [List.mapM_cons] at h
      obtain ⟨r', hr', h⟩ := except_bind_eq_ok.mp h
      obtain ⟨rows', hrows', h⟩ := except_bind_eq_ok.mp h
      cases Except.ok.inj h
      rcases List.mem_cons.mp he with rfl | he
      · exact ⟨r', by simp, hr'⟩
      · obtain ⟨r, hr, hrow⟩ := ih hrows' he
        exact ⟨r, by simp [hr], hrow⟩

lemma mapM_row_tid_eq {chart : Chart} {tid : Uuid} {es : List Entry} {rows : List EntryRow}
    (h : es.mapM (Entry.row chart tid) = .ok rows) {r : EntryRow} (hr : r ∈ rows) :
    r.transactionId = tid := by
  obtain ⟨e, -, he⟩ := mapM_row_mem h hr
  obtain ⟨-, -, a, -, -, rfl⟩ := Entry.row_ok_iff.mp he
  rfl

lemma txnEntries_of_mapM_row {chart : Chart} {tid : Uuid} {es : List Entry} {rows : List EntryRow}
    (h : es.mapM (Entry.row chart tid) = .ok rows) (ts : List TransactionRow) :
    (⟨ts, rows⟩ : Ledger).txnEntries tid = rows :=
  List.filter_eq_self.mpr fun r hr => by simpa using mapM_row_tid_eq h hr

lemma LedgerTransaction.storable_of_writes {chart : Chart} {txn : LedgerTransaction} {W : Ledger}
    (h : txn.writes chart = .ok W) : txn.row.Storable := by
  by_contra hrow
  rw [writes, if_neg hrow] at h
  cases h

/-- **What the schema accepts.** The texts of the row can be stored, the entries become rows, there
are at least two of them, and every currency balances. -/
lemma LedgerTransaction.writes_ok_iff {chart : Chart} {txn : LedgerTransaction} {W : Ledger} :
    txn.writes chart = .ok W ↔ txn.row.Storable ∧ ∃ rows,
      txn.entries.mapM (Entry.row chart txn.id) = .ok rows ∧
        W = ⟨[txn.row], rows⟩ ∧ 2 ≤ rows.length ∧ rows.length < 2 ^ 31 ∧
        ∀ c, total EntryRow.signedMinor (rows.filter (·.currency = c)) = 0 := by
  by_cases hrow : ¬txn.row.Storable
  · exact iff_of_false (fun h => hrow (storable_of_writes h)) fun h => hrow h.1
  replace hrow := not_not.mp hrow
  rw [writes_eq chart hrow, and_iff_right hrow]
  cases hrows : txn.entries.mapM (Entry.row chart txn.id) with
  | error err => simp
  | ok rows =>
      have hown := txnEntries_of_mapM_row hrows [txn.row]
      have hbal : (⟨[txn.row], rows⟩ : Ledger).assertTxnBalanced txn.id = .ok () ↔
          ∀ c, total EntryRow.signedMinor (rows.filter (·.currency = c)) = 0 := by
        rw [Ledger.assertTxnBalanced_ok]
        simp only [Ledger.imbalance, hown]
      have hmin : (⟨[txn.row], rows⟩ : Ledger).assertTxnMinEntries txn.id = .ok () ↔
          2 ≤ rows.length ∧ rows.length < 2 ^ 31 := by
        rw [Ledger.assertTxnMinEntries_ok, hown]
      have hne : 2 ≤ rows.length → txn.entries ≠ [] := by
        rintro hlen hnil
        rw [hnil, List.mapM_nil] at hrows
        cases Except.ok.inj hrows
        simp at hlen
      simp only [except_ok_bind, exec_commit, Except.ok.injEq, exists_eq_left']
      constructor
      · intro h
        split at h
        · simp at h
        · simp at h
        · rename_i hm hb
          obtain ⟨hlen, hlen'⟩ := hmin.mp hm
          rw [if_neg (hne hlen)] at hb
          exact ⟨(Except.ok.inj h).symm, hlen, hlen', hbal.mp hb⟩
      · rintro ⟨rfl, hlen, hlen', hb⟩
        rw [hmin.mpr ⟨hlen, hlen'⟩, if_neg (hne hlen), hbal.mpr hb]

/-- The rows' effect does not depend on the transaction's own columns, nor does acceptance as long
as they can be stored. -/
lemma LedgerTransaction.writes_congr {chart : Chart} {txn txn' : LedgerTransaction} {W : Ledger}
    (hentries : txn'.entries = txn.entries) (hrow : txn'.row.Storable)
    (h : txn.writes chart = .ok W) :
    ∃ W', txn'.writes chart = .ok W' ∧ ∀ a, W'.balanceMinor a = W.balanceMinor a := by
  obtain ⟨-, rows, hrows, rfl, hlen, hlen', hbal⟩ := writes_ok_iff.mp h
  refine ⟨⟨[txn'.row], rows.map fun r => { r with transactionId := txn'.id }⟩, ?_, ?_⟩
  · refine writes_ok_iff.mpr
      ⟨hrow, _, ?_, rfl, by simpa using hlen, by simpa using hlen', fun c => ?_⟩
    · rw [hentries, mapM_row_tid chart txn.id, hrows]
      rfl
    · rw [List.filter_map, total_map]
      exact hbal c
  · intro a
    simp only [Ledger.balanceMinor, List.filter_map, total_map]
    rfl

/-- A row's account exists and has its currency, its amount is positive and fits. -/
lemma LedgerTransaction.writes_rowsAdmitted {chart : Chart} {txn : LedgerTransaction} {W : Ledger}
    (h : txn.writes chart = .ok W) : W.RowsAdmitted chart := by
  obtain ⟨-, rows, hrows, rfl, -, -, -⟩ := writes_ok_iff.mp h
  have hrow : ∀ r ∈ rows, 0 < r.amountMinor ∧ r.amountMinor ≤ bigintMax ∧
      r.transactionId = txn.id ∧
      (r.accountId, r.currency) ∈ chart.accounts.map fun a => (a.id, a.currency) := by
    intro r hr
    obtain ⟨e, -, he⟩ := mapM_row_mem hrows hr
    obtain ⟨hpos, hmax, a, ha, -, rfl⟩ := Entry.row_ok_iff.mp he
    exact ⟨hpos, hmax, rfl, List.mem_map_of_mem (Chart.find_mem ha).1⟩
  exact
    { amount_pos := fun r hr => (hrow r hr).1
      amount_bigint := fun r hr => (hrow r hr).2.1
      transactions_pkey := by simp
      dedupe_event := by simp
      dedupe_object := by simp
      entries_transaction_fkey := fun r hr => by
        simpa [LedgerTransaction.row] using (hrow r hr).2.2.1
      entries_currency_matches_account := fun r hr => (hrow r hr).2.2.2 }

/-- **A successful post keeps the ledger admitted.** -/
lemma Ledger.Admitted.append_writes {chart : Chart} {L W : Ledger} {txn : LedgerTransaction}
    (hL : L.Admitted chart) (hfresh : L.conflict txn.row = none)
    (h : txn.writes chart = .ok W) : (L.append W).Admitted chart := by
  have hW := LedgerTransaction.writes_rowsAdmitted h
  obtain ⟨-, rows, hrows, rfl, hlen, -, hbal⟩ := LedgerTransaction.writes_ok_iff.mp h
  obtain ⟨hid, hev, hobj⟩ := Ledger.conflict_eq_none_iff.mp hfresh
  have hall : ∀ {P : EntryRow → Prop}, (∀ e ∈ L.entries, P e) → (∀ e ∈ rows, P e) →
      ∀ e ∈ L.entries ++ rows, P e := fun hl hr e he =>
    (List.mem_append.mp he).elim (hl e) (hr e)
  refine { amount_pos := hall hL.amount_pos hW.amount_pos
           amount_bigint := hall hL.amount_bigint hW.amount_bigint
           transactions_pkey := ?_, dedupe_event := ?_, dedupe_object := ?_
           entries_transaction_fkey := ?_
           entries_currency_matches_account :=
            hall hL.entries_currency_matches_account hW.entries_currency_matches_account
           min_entries := ?_, balanced := ?_ }
  · rw [append_transactions, List.map_append]
    refine List.Nodup.append hL.transactions_pkey (by simp) ?_
    simpa using hid
  · refine List.pairwise_append.mpr ⟨hL.dedupe_event, by simp, fun s hs t ht => ?_⟩
    rw [List.mem_singleton.mp ht]
    exact hev s hs
  · refine List.pairwise_append.mpr ⟨hL.dedupe_object, by simp, fun s hs t ht => ?_⟩
    rw [List.mem_singleton.mp ht]
    exact hobj s hs
  · refine hall (fun e he => ?_) (fun e he => ?_)
    · rw [append_transactions, List.map_append]
      exact List.mem_append_left _ (hL.entries_transaction_fkey e he)
    · rw [append_transactions, List.map_append]
      exact List.mem_append_right _ (hW.entries_transaction_fkey e he)
  · intro t ht
    rw [txnEntries_append, List.length_append]
    rcases List.mem_append.mp ht with ht | ht
    · have := hL.min_entries t ht
      omega
    · rw [List.mem_singleton.mp ht]
      have hown : (⟨[txn.row], rows⟩ : Ledger).txnEntries txn.row.id = rows :=
        txnEntries_of_mapM_row hrows _
      rw [hown]
      omega
  · intro tid c
    rw [imbalance_append, hL.balanced, zero_add]
    by_cases htid : tid = txn.id
    · subst htid
      rw [imbalance, txnEntries_of_mapM_row hrows]
      exact hbal c
    · refine imbalance_eq_zero_of_not_mem fun e he => ?_
      obtain ⟨he, heq⟩ := mem_txnEntries.mp he
      exact absurd (heq.symm.trans (mapM_row_tid_eq hrows he)) htid

lemma postTransaction_no_faults (chart : Chart) (L : Ledger) (txn : LedgerTransaction) (n : ℕ) :
    (postTransaction chart L txn n fun _ => none).outcome = (attempt chart L txn none).1 ∧
      (postTransaction chart L txn n fun _ => none).ledger = (attempt chart L txn none).2 := by
  have hloop : ∀ retries i, (postLoop chart L txn (fun _ => none) retries i).outcome =
      (attempt chart L txn none).1 ∧
      (postLoop chart L txn (fun _ => none) retries i).ledger = (attempt chart L txn none).2 := by
    intro retries
    induction retries with
    | zero =>
        intro i
        unfold postLoop
        split <;> rename_i heq <;> simp [heq]
    | succ retries ih =>
        intro i
        unfold postLoop
        split
        · exact ih (i + 1)
        · rename_i heq
          simp [heq]
  exact hloop _ _

end LedgerProof
