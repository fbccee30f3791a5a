import LedgerProof.Ledger.Post

/-!
# Posting over a connection

`post_transaction` and `_attempt` of `ledger/post.py` at the level of the database session.  A
`Conn` is an open connection: the rows the database has committed and the rows the session's own
open transaction sees.  Statements change the second, `COMMIT` publishes it as the first, `ROLLBACK`
and closing the connection drop it.  The three ways out of `_attempt` (a dedupe key: roll back and
return; another unique key: raise without rolling back; anything else: roll back and raise) are
written out, and so are the sleeps of the retry loop.

`Conn.attempt_eq` says that all of them come to the same for the committed rows, which is the
attempt of `Ledger/Post.lean`: it refines that one.  `postTransaction_atomic` is what a caller sees.
-/

namespace LedgerProof

/-! ## What the schema asks of the entries -/

/-- The stored form of the entry's currency. -/
def Entry.char3 (e : Entry) : Option Char3 := Char3.ofText e.currency

/-- The amount of a debit. -/
def Entry.debitMinor (e : Entry) : ℤ := if e.dir = .debit then e.amountMinor else 0

/-- The amount of a credit. -/
def Entry.creditMinor (e : Entry) : ℤ := if e.dir = .credit then e.amountMinor else 0

/-- What the schema asks of a transaction, whatever else is in the tables: texts without a NUL
character, amounts positive and within `BIGINT`, accounts that exist, entries in their account's
currency, two entries or more (and fewer than an `integer` counts), and debits that equal credits in
every currency.  The names of accounts and the currencies are free of NUL as the chart's are. -/
structure LedgerTransaction.Accepted (chart : Chart) (txn : LedgerTransaction) : Prop where
  storable : txn.row.Storable
  amount_pos : ∀ e ∈ txn.entries, 0 < e.amountMinor
  amount_bigint : ∀ e ∈ txn.entries, e.amountMinor ≤ bigintMax
  currency_matches_account : ∀ e ∈ txn.entries,
    ∃ a, chart.find e.accountName = some a ∧ e.char3 = some a.currency
  min_entries : 2 ≤ txn.entries.length
  max_entries : txn.entries.length < 2 ^ 31
  balanced : ∀ c, total Entry.debitMinor (txn.entries.filter fun e => e.char3 = some c) =
    total Entry.creditMinor (txn.entries.filter fun e => e.char3 = some c)

/-- The row an entry becomes: its account's id and currency, its own direction and amount. -/
def Entry.Becomes (chart : Chart) (tid : Uuid) (e : Entry) (row : EntryRow) : Prop :=
  ∃ a, chart.find e.accountName = some a ∧ e.char3 = some a.currency ∧
    row = ⟨tid, a.id, e.dir, e.amountMinor, a.currency⟩

lemma mapM_row_iff {chart : Chart} {tid : Uuid} {es : List Entry} {rows : List EntryRow} :
    es.mapM (Entry.row chart tid) = .ok rows ↔
      (∀ e ∈ es, 0 < e.amountMinor ∧ e.amountMinor ≤ bigintMax) ∧
        List.Forall₂ (Entry.Becomes chart tid) es rows := by
  induction es generalizing rows with
  | nil =>
      rw [List.mapM_nil, List.forall₂_nil_left_iff]
      simp [pure, Except.pure, eq_comm]
  | cons e es ih =>
      rw [List.mapM_cons]
      constructor
      · intro h
        obtain ⟨row, hrow, h⟩ := except_bind_eq_ok.mp h
        obtain ⟨rows', hrows', h⟩ := except_bind_eq_ok.mp h
        cases Except.ok.inj h
        obtain ⟨hpos, hmax, hbecomes⟩ := Entry.row_ok_iff.mp hrow
        obtain ⟨hall, hforall⟩ := ih.mp hrows'
        exact ⟨List.forall_mem_cons.mpr ⟨⟨hpos, hmax⟩, hall⟩, .cons hbecomes hforall⟩
      · rintro ⟨hall, hforall⟩
        obtain ⟨⟨hpos, hmax⟩, hall⟩ := List.forall_mem_cons.mp hall
        obtain ⟨row, rows', hbecomes, hrest, rfl⟩ := List.forall₂_cons_left_iff.mp hforall
        rw [Entry.row_ok_iff.mpr ⟨hpos, hmax, hbecomes⟩, ih.mpr ⟨hall, hrest⟩]
        rfl

lemma exists_becomes {chart : Chart} (tid : Uuid) {es : List Entry}
    (h : ∀ e ∈ es, ∃ a, chart.find e.accountName = some a ∧ e.char3 = some a.currency) :
    ∃ rows, List.Forall₂ (Entry.Becomes chart tid) es rows := by
  induction es with
  | nil => exact ⟨[], .nil⟩
  | cons e es ih =>
      obtain ⟨⟨a, ha, hc⟩, hes⟩ := List.forall_mem_cons.mp h
      obtain ⟨rows, hrows⟩ := ih hes
      exact ⟨_, .cons ⟨a, ha, hc, rfl⟩ hrows⟩

lemma total_signedMinor_of_becomes {chart : Chart} {tid : Uuid} {es : List Entry}
    {rows : List EntryRow} (h : List.Forall₂ (Entry.Becomes chart tid) es rows) (c : Char3) :
    total EntryRow.signedMinor (rows.filter (·.currency = c)) =
      total Entry.debitMinor (es.filter fun e => e.char3 = some c) -
        total Entry.creditMinor (es.filter fun e => e.char3 = some c) := by
  induction h with
  | nil => simp
  | cons hrow _ ih =>
      obtain ⟨a, -, hcur, rfl⟩ := hrow
      by_cases hc : a.currency = c
      · simp only [List.filter_cons, hcur, hc, decide_true, if_true, total_cons, ih]
        simp only [EntryRow.signedMinor, EntryRow.debitMinor, EntryRow.creditMinor,
          Entry.debitMinor, Entry.creditMinor]
        ring
      · simp [hcur, hc, ih]

/-- What an entry adds to the account it names. -/
def Entry.signedOn (a : Account) (e : Entry) :
    ℤ := if e.dir = a.normal then e.amountMinor else -e.amountMinor

lemma total_signed_of_becomes {chart : Chart} {tid : Uuid} {es : List Entry} {rows : List EntryRow}
    (h : List.Forall₂ (Entry.Becomes chart tid) es rows) {a : Account} (ha : a ∈ chart.accounts) :
    total a.signed (rows.filter (·.accountId = a.id)) =
      total (Entry.signedOn a) (es.filter (·.accountName = a.name)) := by
  induction h with
  | nil => rfl
  | @cons e row es rows hrow _ ih =>
      obtain ⟨b, hfind, -, rfl⟩ := hrow
      obtain ⟨hb, hname⟩ := Chart.find_mem hfind
      -- the id of an account and its name pick out the same one
      have hiff : b.id = a.id ↔ e.accountName = a.name := by
        constructor
        · intro hid
          rw [← hname, Chart.eq_of_id hb ha hid]
        · intro heq
          rw [Chart.eq_of_name hb ha (hname.trans heq)]
      by_cases hid : b.id = a.id
      · simp [hid, hiff.mp hid, ih, Account.signed, Entry.signedOn]
      · have hne : e.accountName ≠ a.name := fun heq => hid (hiff.mpr heq)
        simp [hid, hne, ih]

/-- **The change a posting makes to an account** is the sum over the entries that name it. -/
lemma LedgerTransaction.balanceMinor_writes {chart : Chart} {txn : LedgerTransaction} {W : Ledger}
    (hW : txn.writes chart = .ok W) {a : Account} (ha : a ∈ chart.accounts) :
    W.balanceMinor a = total (Entry.signedOn a) (txn.entries.filter (·.accountName = a.name)) := by
  obtain ⟨-, rows, hrows, rfl, -⟩ := writes_ok_iff.mp hW
  exact total_signed_of_becomes (mapM_row_iff.mp hrows).2 ha

/-- **The schema's verdict on the transaction alone.** -/
lemma LedgerTransaction.writes_iff_accepted {chart : Chart} {txn : LedgerTransaction} :
    (∃ W, txn.writes chart = .ok W) ↔ txn.Accepted chart := by
  constructor
  · rintro ⟨W, hW⟩
    obtain ⟨hstorable, rows, hrows, -, hlen, hlen', hbal⟩ := writes_ok_iff.mp hW
    obtain ⟨hamount, hforall⟩ := mapM_row_iff.mp hrows
    have hlength := hforall.length_eq
    refine ⟨hstorable, fun e he => (hamount e he).1, fun e he => (hamount e he).2, fun e he => ?_,
      by omega, by omega, fun c => ?_⟩
    · obtain ⟨r, -, hr⟩ := mem_mapM_row hrows he
      obtain ⟨-, -, a, ha, hcur, -⟩ := Entry.row_ok_iff.mp hr
      exact ⟨a, ha, hcur⟩
    · have := hbal c
      rw [total_signedMinor_of_becomes hforall] at this
      omega
  · intro h
    obtain ⟨rows, hforall⟩ := exists_becomes txn.id h.currency_matches_account
    have hlength := hforall.length_eq
    have hmin := h.min_entries
    have hmax := h.max_entries
    refine ⟨_, writes_ok_iff.mpr ⟨h.storable, rows, ?_, rfl, by omega, by omega, fun c => ?_⟩⟩
    · exact mapM_row_iff.mpr ⟨fun e he => ⟨h.amount_pos e he, h.amount_bigint e he⟩, hforall⟩
    · rw [total_signedMinor_of_becomes hforall, h.balanced, sub_self]

/-! ## The connection -/

/-- An open connection: what the database has committed, and what the session's open transaction
sees. -/
structure Conn where
  committed : Ledger
  view : Ledger

namespace Conn

/-- `psycopg.connect`: a transaction opens on the committed rows. -/
def connect (L : Ledger) : Conn := ⟨L, L⟩

/-- `conn.rollback()`. -/
def rollback (c : Conn) : Conn := { c with view := c.committed }

/-- `conn.close()`: the database drops a transaction that is still open. -/
def close (c : Conn) : Ledger := c.committed

/-- `conn.execute(stmt)` and `conn.commit()`.  A statement that fails changes nothing; a `COMMIT`
that succeeds publishes the session's rows. -/
def execute (chart : Chart) (c : Conn) (s : Stmt) : Except Exn Unit × Conn :=
  match s.exec chart c.view with
  | .error e => (.error e, c)
  | .ok view =>
      match s with
      | .commit _ => (.ok (), ⟨view, view⟩)
      | _ => (.ok (), { c with view })

/-- The body of the inner `try`: the statements in order, stopped by the first that raises.  `fault`
is the index of a statement at which the server raises a serialization failure. -/
def run (chart : Chart) (fault : Option ℕ) : ℕ → Conn → List Stmt → Except Exn Unit × Conn
  | _, c, [] => (.ok (), c)
  | i, c, s :: ss =>
      if fault = some i then (.error (.pg .serializationFailure), c)
      else
        match c.execute chart s with
        | (.error e, c) => (.error e, c)
        | (.ok (), c) => run chart fault (i + 1) c ss

/-- The `except` clauses of `_attempt`. -/
def settle : Except Exn Unit × Conn → Except Exn PostOutcome × Conn
  | (.ok (), conn) => (.ok .posted, conn)
  | (.error (.pg (.uniqueViolation c)), conn) =>
      if c ∈ dedupeConstraints then (.ok .duplicate, conn.rollback)
      else (.error (.pg (.uniqueViolation c)), conn)
  | (.error e, conn) => (.error e, conn.rollback)

/-- `_attempt`, on a database that holds `L`: the result, and what the database holds after the
connection is closed. -/
def attempt (chart : Chart) (L : Ledger) (txn : LedgerTransaction) (fault : Option ℕ) :
    Except Exn PostOutcome × Ledger :=
  let (r, conn) := settle ((connect L).run chart fault 0 txn.stmts)
  (r, conn.close)

/-- The loop of `post_transaction`: `retries` more attempts may follow the current one.  `attempt`
and `sleeps` count what has been done so far. -/
def postLoop (chart : Chart) (txn : LedgerTransaction) (faults : ℕ → Option ℕ) :
    ℕ → ℕ → ℕ → Ledger → PostRun
  | retries, attempt, sleeps, L =>
      match Conn.attempt chart L txn (faults (attempt + 1)) with
      | (.error (.pg .serializationFailure), L') =>
          match retries with
          | 0 => ⟨.error (.pg .serializationFailure), L', attempt + 1, sleeps⟩
          | retries + 1 => postLoop chart txn faults retries (attempt + 1) (sleeps + 1) L'
      | (r, L') => ⟨r, L', attempt + 1, sleeps⟩

/-- `post_transaction`. -/
def postTransaction (chart : Chart) (L : Ledger) (txn : LedgerTransaction) (maxAttempts : ℕ)
    (faults : ℕ → Option ℕ) : PostRun :=
  postLoop chart txn faults (maxAttempts - 1) 0 0 L

/-! ## Refinement -/

lemma execute_of_ne_commit (chart : Chart) (c : Conn) {s : Stmt} (h : ∀ txn, s ≠ .commit txn) :
    c.execute chart s =
      match s.exec chart c.view with
      | .error e => (.error e, c)
      | .ok view => (.ok (), { c with view }) := by
  unfold execute
  cases s.exec chart c.view with
  | error e => rfl
  | ok view =>
      cases s with
      | commit txn => exact absurd rfl (h txn)
      | _ => rfl

/-- Statements that end in their only `COMMIT` publish their rows if they all succeed, and nothing
otherwise. -/
lemma run_eq (chart : Chart) (fault : Option ℕ) (txn : LedgerTransaction) (ss : List Stmt)
    (h : ∀ s ∈ ss, ∀ txn, s ≠ .commit txn) (i : ℕ) (c : Conn) :
    match runStmts chart fault i c.view (ss ++ [.commit txn]) with
    | .ok L' => c.run chart fault i (ss ++ [.commit txn]) = (.ok (), ⟨L', L'⟩)
    | .error e =>
        ∃ view, c.run chart fault i (ss ++ [.commit txn]) = (.error e, { c with view }) := by
  induction ss generalizing i c with
  | nil =>
      simp only [List.nil_append, runStmts, run]
      by_cases hf : fault = some i
      · simp only [if_pos hf]
        exact ⟨c.view, rfl⟩
      · simp only [if_neg hf, execute]
        cases (Stmt.commit txn).exec chart c.view with
        | error e => exact ⟨c.view, rfl⟩
        | ok L' => rfl
  | cons s ss ih =>
      obtain ⟨hs, hss⟩ := List.forall_mem_cons.mp h
      simp only [List.cons_append, runStmts, run]
      by_cases hf : fault = some i
      · simp only [if_pos hf]
        exact ⟨c.view, rfl⟩
      · simp only [if_neg hf, execute_of_ne_commit chart c hs]
        cases s.exec chart c.view with
        | error e => exact ⟨c.view, rfl⟩
        | ok view => exact ih hss (i + 1) { c with view }

/-- **The session refines the attempt.** Whichever way `_attempt` leaves, the database holds what
the attempt of `Ledger/Post.lean` says. -/
lemma attempt_eq (chart : Chart) (L : Ledger) (txn : LedgerTransaction) (fault : Option ℕ) :
    attempt chart L txn fault = LedgerProof.attempt chart L txn fault := by
  have hstmts : txn.stmts = (txn.accountNames.map .selectAccount ++
      .insertTransaction txn.row :: txn.entries.map (.insertEntry txn.id)) ++ [.commit txn] := by
    simp [LedgerTransaction.stmts, LedgerTransaction.entryStmts]
  have hne : ∀ s ∈ txn.accountNames.map Stmt.selectAccount ++
      .insertTransaction txn.row :: txn.entries.map (Stmt.insertEntry txn.id), ∀ t,
        s ≠ .commit t := by
    intro s hs t
    simp only [List.mem_append, List.mem_map, List.mem_cons] at hs
    rcases hs with ⟨_, -, rfl⟩ | rfl | ⟨_, -, rfl⟩ <;> simp
  have hrun := run_eq chart fault txn _ hne 0 (connect L)
  rw [← hstmts] at hrun
  unfold attempt LedgerProof.attempt
  have hview : (connect L).view = L := rfl
  rw [hview] at hrun
  cases hr : runStmts chart fault 0 L txn.stmts with
  | ok L' =>
      rw [hr] at hrun
      rw [hrun]
      rfl
  | error e =>
      rw [hr] at hrun
      obtain ⟨view, hrun⟩ := hrun
      rw [hrun]
      -- rolled back or not, the open transaction is gone once the connection is closed
      cases e with
      | pg err =>
          cases err with
          | uniqueViolation c =>
              simp only [settle]
              split_ifs <;> rfl
          | _ => rfl
      | _ => rfl

/-- What is left of the loop once the current attempt has ended. -/
lemma postLoop_step (chart : Chart) (L : Ledger) (txn : LedgerTransaction) (faults : ℕ → Option ℕ)
    (retries i n : ℕ) :
    let r := LedgerProof.attempt chart L txn (faults (i + 1))
    (r.1 ≠ .error (.pg .serializationFailure) ∨ retries = 0) ∧
        postLoop chart txn faults retries i n L = ⟨r.1, r.2, i + 1, n⟩ ∧
        LedgerProof.postLoop chart L txn faults retries (i + 1) = ⟨r.1, r.2, i + 1, i⟩ ∨
      (∃ left, retries = left + 1 ∧
        postLoop chart txn faults retries i n L = postLoop chart txn faults left (i + 1) (n + 1) L ∧
        LedgerProof.postLoop chart L txn faults retries (i + 1) =
          LedgerProof.postLoop chart L txn faults left (i + 2)) := by
  intro r
  rw [postLoop.eq_def chart txn faults retries i n L,
    LedgerProof.postLoop.eq_def chart L txn faults retries]
  simp only [attempt_eq]
  by_cases hserial : r.1 = .error (.pg .serializationFailure)
  · have hpair : r = (.error (.pg .serializationFailure), r.2) := by rw [← hserial]
    have hledger : r.2 = L := attempt_error_ledger hpair
    have hr : LedgerProof.attempt chart L txn (faults (i + 1)) =
        (.error (.pg .serializationFailure), L) := hpair.trans (by rw [hledger])
    cases retries with
    | zero =>
        refine .inl ⟨.inr rfl, ?_⟩
        simp [r, hr]
    | succ left =>
        refine .inr ⟨left, rfl, ?_⟩
        simp [hr]
  · refine .inl ⟨.inl hserial, ?_⟩
    have hpair : LedgerProof.attempt chart L txn (faults (i + 1)) = (r.1, r.2) := rfl
    rw [hpair]
    generalize r.1 = o at hserial
    cases o with
    | ok o => exact ⟨rfl, rfl⟩
    | error e =>
        cases e with
        | pg err =>
            cases err with
            | serializationFailure => exact absurd rfl hserial
            | _ => exact ⟨rfl, rfl⟩
        | _ => exact ⟨rfl, rfl⟩

/-- The loop refines the loop of `Ledger/Post.lean`: a failed attempt leaves the same ledger to the
next one, and there is one sleep before every attempt but the first. -/
lemma postLoop_eq (chart : Chart) (L : Ledger) (txn : LedgerTransaction) (faults : ℕ → Option ℕ)
    (retries i : ℕ) :
    postLoop chart txn faults retries i i L = LedgerProof.postLoop chart L txn faults retries
      (i + 1) := by
  induction retries generalizing i with
  | zero =>
      rcases postLoop_step chart L txn faults 0 i i with ⟨-, hconn, hpost⟩ | ⟨left, hleft, -⟩
      · rw [hconn, hpost]
      · simp at hleft
  | succ retries ih =>
      rcases postLoop_step chart L txn faults (retries + 1) i i with
        ⟨-, hconn, hpost⟩ | ⟨left, hleft, hconn, hpost⟩
      · rw [hconn, hpost]
      · obtain rfl : retries = left := by omega
        rw [hconn, hpost]
        exact ih (i + 1)

/-- A run ends with its last attempt, on the ledger it started with; it makes at most one attempt
and one sleep per retry beyond the first. -/
lemma postLoop_spec (chart : Chart) (L : Ledger) (txn : LedgerTransaction) (faults : ℕ → Option ℕ)
    (retries i n : ℕ) :
    let run := postLoop chart txn faults retries i n L
    (run.outcome, run.ledger) = LedgerProof.attempt chart L txn (faults run.attempts) ∧
      i + 1 ≤ run.attempts ∧ run.attempts ≤ i + 1 + retries ∧
        run.sleeps + i + 1 = run.attempts + n := by
  induction retries generalizing i n with
  | zero =>
      rcases postLoop_step chart L txn faults 0 i n with ⟨-, hconn, -⟩ | ⟨left, hleft, -⟩
      · rw [hconn]
        exact ⟨rfl, by simp, by simp, by simp; omega⟩
      · simp at hleft
  | succ retries ih =>
      rcases postLoop_step chart L txn faults (retries + 1) i n with ⟨-, hconn, -⟩ | ⟨left, hleft,
        hconn, -⟩
      · rw [hconn]
        exact ⟨rfl, by simp, by simp, by simp; omega⟩
      · obtain rfl : retries = left := by omega
        obtain ⟨hlast, hlow, hhigh, hsleeps⟩ := ih (i + 1) (n + 1)
        rw [hconn]
        exact ⟨hlast, by omega, by omega, by omega⟩

lemma postTransaction_eq (chart : Chart) (L : Ledger) (txn : LedgerTransaction) (maxAttempts : ℕ)
    (faults : ℕ → Option ℕ) :
    postTransaction chart L txn maxAttempts faults =
      LedgerProof.postTransaction chart L txn maxAttempts faults :=
  postLoop_eq chart L txn faults (maxAttempts - 1) 0

end Conn

/-! ## What a caller sees -/

/-- The primary key and both dedupe keys of the transaction are free. -/
structure Ledger.Fresh (L : Ledger) (txn : LedgerTransaction) : Prop where
  id : ∀ s ∈ L.transactions, s.id ≠ txn.id
  event : ∀ s ∈ L.transactions, ∀ ev, s.stripeEventId = some ev → txn.stripeEventId ≠ some ev
  object : ∀ s ∈ L.transactions, ∀ ty ob, s.eventType = some ty → s.stripeObjectId = some ob →
    ¬(txn.eventType = some ty ∧ txn.stripeObjectId = some ob)

lemma Ledger.fresh_iff {L : Ledger} {txn : LedgerTransaction} :
    L.Fresh txn ↔ L.conflict txn.row = none := by
  rw [conflict_eq_none_iff]
  constructor
  · intro h
    refine ⟨?_, fun s hs => ?_, fun s hs => ?_⟩
    · rw [List.mem_map]
      rintro ⟨s, hs, hid⟩
      exact h.id s hs hid
    · rw [Bool.eq_false_iff, ne_eq, sqlEq_iff]
      rintro ⟨ev, hev, hev'⟩
      exact h.event s hs ev hev hev'
    · rw [Bool.eq_false_iff, ne_eq, Bool.and_eq_true, sqlEq_iff, sqlEq_iff]
      rintro ⟨⟨ty, hty, hty'⟩, ob, hob, hob'⟩
      exact h.object s hs ty ob hty hob ⟨hty', hob'⟩
  · rintro ⟨hid, hev, hob⟩
    refine ⟨fun s hs heq => hid (List.mem_map.mpr ⟨s, hs, heq⟩), fun s hs ev h h' => ?_,
      fun s hs ty ob hty hobj h' => ?_⟩
    · have := hev s hs
      rw [Bool.eq_false_iff, ne_eq, sqlEq_iff] at this
      exact this ⟨ev, h, h'⟩
    · have := hob s hs
      rw [Bool.eq_false_iff, ne_eq, Bool.and_eq_true, sqlEq_iff, sqlEq_iff] at this
      exact this ⟨⟨ty, hty, h'.1⟩, ob, hobj, h'.2⟩

/-- An account the schema needs is one `_attempt` finds. -/
lemma LedgerTransaction.Accepted.unknownAccount_eq_none {chart : Chart} {txn : LedgerTransaction}
    (h : txn.Accepted chart) : txn.unknownAccount chart = none := by
  refine List.find?_eq_none.mpr fun name hname => ?_
  simp only [accountNames, List.mem_reverse, List.mem_dedup, List.mem_map] at hname
  obtain ⟨e, he, rfl⟩ := hname
  obtain ⟨a, ha, -⟩ := h.currency_matches_account e he
  simp [ha]

section Attempt

variable {chart : Chart} {L : Ledger} (hL : L.RowsAdmitted chart) (txn : LedgerTransaction)
include hL

/-- Without a serialization failure an attempt posts exactly the fresh transactions the schema
accepts. -/
lemma attempt_posted_iff :
    (attempt chart L txn none).1 = .ok .posted ↔ L.Fresh txn ∧ txn.Accepted chart := by
  by_cases href : txn.unknownAccount chart = none ∧ txn.row.Storable
  · rw [attempt_eq hL href.1 href.2, Ledger.fresh_iff, ← LedgerTransaction.writes_iff_accepted]
    cases hc : L.conflict txn.row with
    | some c =>
        simp only [reduceCtorEq, false_and, iff_false]
        split_ifs <;> simp
    | none => cases hw : txn.writes chart <;> simp
  · obtain ⟨e, hattempt, -⟩ := attempt_refused L fun hname hrow => href ⟨hname, hrow⟩
    rw [hattempt]
    simp only [reduceCtorEq, false_iff, not_and]
    exact fun _ h => href ⟨h.unknownAccount_eq_none, h.storable⟩

/-- A posted transaction is one new row with one entries row for each entry. -/
lemma attempt_posted_ledger {fault : Option ℕ} {L' : Ledger}
    (h : attempt chart L txn fault = (.ok .posted, L')) :
    ∃ rows, List.Forall₂ (Entry.Becomes chart txn.id) txn.entries rows ∧
      L' = L.append ⟨[txn.row], rows⟩ ∧ ∀ t ∈ L.transactions,
        L'.txnEntries t.id = L.txnEntries t.id := by
  have hnone : attempt chart L txn none = (.ok .posted, L') := by
    rcases attempt_fault chart L txn fault with hf | hf
    · rw [← hf, h]
    · rw [hf] at h
      simp at h
  have hfresh := ((attempt_posted_iff hL txn).mp (by rw [hnone])).1
  have haccepted := ((attempt_posted_iff hL txn).mp (by rw [hnone])).2
  obtain ⟨W, hW⟩ := LedgerTransaction.writes_iff_accepted.mpr haccepted
  rw [attempt_eq hL haccepted.unknownAccount_eq_none haccepted.storable,
    Ledger.fresh_iff.mp hfresh, hW] at hnone
  obtain ⟨-, rows, hrows, rfl, -⟩ := LedgerTransaction.writes_ok_iff.mp hW
  obtain rfl : L.append ⟨[txn.row], rows⟩ = L' := (Prod.ext_iff.mp hnone).2
  refine ⟨rows, (mapM_row_iff.mp hrows).2, rfl, fun t ht => ?_⟩
  rw [Ledger.txnEntries_append]
  have hother : (⟨[txn.row], rows⟩ : Ledger).txnEntries t.id = [] :=
    List.filter_eq_nil_iff.mpr fun r hr heq =>
      hfresh.id t ht ((of_decide_eq_true heq : r.transactionId = t.id).symm.trans
        (mapM_row_tid_eq hrows hr))
  rw [hother, List.append_nil]

/-- A duplicate leaves the ledger, which has a row with one of the dedupe keys. -/
lemma attempt_duplicate {fault : Option ℕ} {L' : Ledger}
    (h : attempt chart L txn fault = (.ok .duplicate, L')) :
    L' = L ∧ ((∃ s ∈ L.transactions, ∃ ev, s.stripeEventId = some ev ∧
      txn.stripeEventId = some ev) ∨ ∃ s ∈ L.transactions, ∃ ty ob, s.eventType = some ty ∧
        s.stripeObjectId = some ob ∧
        txn.eventType = some ty ∧ txn.stripeObjectId = some ob) := by
  rcases attempt_fault chart L txn fault with hf | hf
  swap
  · rw [hf] at h
    simp at h
  rw [hf] at h
  by_cases href : txn.unknownAccount chart = none ∧ txn.row.Storable
  swap
  · obtain ⟨e, hattempt, -⟩ := attempt_refused L fun hname hrow => href ⟨hname, hrow⟩
    rw [hattempt] at h
    simp at h
  rw [attempt_eq hL href.1 href.2] at h
  cases hc : L.conflict txn.row with
  | none =>
      cases hw : txn.writes chart <;> simp [hc, hw] at h
  | some c =>
      simp only [hc] at h
      split_ifs at h with hdedupe
      · refine ⟨(Prod.ext_iff.mp h).2.symm, ?_⟩
        rcases Ledger.conflict_cases hc with ⟨rfl, -⟩ | ⟨-, s, hs, hev⟩ | ⟨-, s, hs, hty, hob⟩
        · exact absurd hdedupe (by decide)
        · obtain ⟨ev, hev, hev'⟩ := sqlEq_iff.mp hev
          exact .inl ⟨s, hs, ev, hev, hev'⟩
        · obtain ⟨ty, hty, hty'⟩ := sqlEq_iff.mp hty
          obtain ⟨ob, hob, hob'⟩ := sqlEq_iff.mp hob
          exact .inr ⟨s, hs, ty, ob, hty, hob, hty', hob'⟩
      · simp at h

end Attempt

/-- **`post_transaction` is atomic and bounded.**  On every ledger the tables' constraints admit and
under every schedule of serialization failures: posting adds the transaction's row and one row per
entry and nothing else; a duplicate and an exception leave the ledger as it was, and a duplicate has
a reason; there are at most `max_attempts` attempts with a sleep between them.  Without
serialization failures, posted are exactly the fresh transactions the schema accepts. -/
theorem postTransaction_atomic {chart : Chart} {L : Ledger} (hL : L.RowsAdmitted chart)
    (txn : LedgerTransaction) {maxAttempts : ℕ} (hmax : 1 ≤ maxAttempts) (faults : ℕ → Option ℕ) :
    let run := Conn.postTransaction chart L txn maxAttempts faults
    (run.outcome = .ok .posted → ∃ rows,
        List.Forall₂ (Entry.Becomes chart txn.id) txn.entries rows ∧
        run.ledger = ⟨L.transactions ++ [txn.row], L.entries ++ rows⟩ ∧ ∀ t ∈ L.transactions,
        run.ledger.txnEntries t.id = L.txnEntries t.id) ∧
      (run.outcome = .ok .duplicate → run.ledger = L ∧
        ((∃ s ∈ L.transactions, ∃ ev, s.stripeEventId = some ev ∧ txn.stripeEventId = some ev) ∨
          ∃ s ∈ L.transactions, ∃ ty ob, s.eventType = some ty ∧ s.stripeObjectId = some ob ∧
            txn.eventType = some ty ∧ txn.stripeObjectId = some ob)) ∧
      (∀ e, run.outcome = .error e → run.ledger = L) ∧
      run.attempts ≤ maxAttempts ∧ run.sleeps + 1 = run.attempts ∧
      ((∀ i, faults i = none) →
        (run.outcome = .ok .posted ↔ L.Fresh txn ∧ txn.Accepted chart)) := by
  intro run
  obtain ⟨hlast, -, hhigh, hsleeps⟩ := Conn.postLoop_spec chart L txn faults (maxAttempts - 1) 0 0
  have hpair : ∀ {o}, run.outcome = o →
      attempt chart L txn (faults run.attempts) = (o, run.ledger) := by
    rintro o rfl
    exact hlast.symm
  refine ⟨fun h => attempt_posted_ledger hL txn (hpair h), fun h =>
    attempt_duplicate hL txn (hpair h),
    fun e h => attempt_error_ledger (hpair h), ?_, hsleeps, fun hnone => ?_⟩
  · show run.attempts ≤ maxAttempts
    have hle : run.attempts ≤ 0 + 1 + (maxAttempts - 1) := hhigh
    omega
  · have hout : run.outcome = (attempt chart L txn none).1 := by
      rw [← hnone run.attempts, hpair rfl]
    rw [hout, attempt_posted_iff hL]

/-- A transfer of `amount` from `stripe_balance` to `bank`. -/
def transfer (amount : ℤ) : LedgerTransaction :=
  { id := "00000000-0000-0000-0000-000000000001"
    occurredAt := 1700000000
    entries := [⟨"bank", .debit, amount, "USD"⟩, ⟨"stripe_balance", .credit, amount, "USD"⟩]
    stripeEventId := some "evt_1"
    stripeObjectId := some "po_1"
    eventType := some "payout.paid"
    memo := none }

/-- A transfer whose first `COMMIT` fails is posted by the second attempt, after one sleep. -/
theorem postTransaction_atomic_retry :
    let run := Conn.postTransaction seedChart .empty (transfer 1000) 5 fun i => if i = 1 then some 5
      else none
    run.outcome = .ok .posted ∧ run.attempts = 2 ∧ run.sleeps + 1 = run.attempts ∧
      ∃ rows, List.Forall₂ (Entry.Becomes seedChart (transfer 1000).id)
        (transfer 1000).entries rows ∧
        run.ledger = ⟨[(transfer 1000).row], rows⟩ := by
  intro run
  have hposted : run.outcome = .ok .posted := by decide
  obtain ⟨hledger, -, -, -, hsleeps, -⟩ := postTransaction_atomic
    (Ledger.empty_admitted seedChart).toRowsAdmitted (transfer 1000) (by decide : 1 ≤ 5)
    fun i => if i = 1 then some 5 else none
  obtain ⟨rows, hrows, hrun, -⟩ := hledger hposted
  exact ⟨hposted, by decide, hsleeps, rows, hrows, hrun⟩

/-- A balanced transfer of `2^63` is fresh and has two entries with positive amounts in their
accounts' currency, and `BIGINT` refuses it. -/
theorem transfer_out_of_range :
    Ledger.empty.Fresh (transfer (2 ^ 63)) ∧
      (∀ e ∈ (transfer (2 ^ 63)).entries, 0 < e.amountMinor ∧
        ∃ a, seedChart.find e.accountName = some a ∧ e.char3 = some a.currency) ∧
      2 ≤ (transfer (2 ^ 63)).entries.length ∧
      (∀ c, total Entry.debitMinor ((transfer (2 ^ 63)).entries.filter fun e => e.char3 = some c) =
        total Entry.creditMinor ((transfer (2 ^ 63)).entries.filter fun e => e.char3 = some c)) ∧
      (Conn.postTransaction seedChart .empty (transfer (2 ^ 63)) 5 fun _ => none).outcome =
        .error (.pg .numericValueOutOfRange) := by
  have husd : Char3.ofText "USD" = some usd := by decide
  refine ⟨Ledger.fresh_iff.mpr (by decide), ?_, by decide, fun c => ?_, by decide⟩
  · simp only [transfer, List.forall_mem_cons, List.not_mem_nil, false_imp_iff, implies_true,
      and_true]
    exact ⟨⟨by norm_num, _, rfl, husd⟩, by norm_num, _, rfl, husd⟩
  · by_cases hc : usd = c <;>
      simp [transfer, Entry.char3, husd, hc, Entry.debitMinor, Entry.creditMinor]

end LedgerProof
