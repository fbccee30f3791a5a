import LedgerProof.Ledger.Balances
import LedgerProof.Lib.Dict
import LedgerProof.Lib.FirstWins
import LedgerProof.Lib.Python

/-!
# The reconciler

`recon/reconciler.py` and `recon/breaks.py`: the ledger read as one signed delta per transaction
and account, and its diffs against two sources, the events a caller knows it delivered and Stripe's
balance transactions.

`ledgerRows` is the query of `_load_ledger`, one row for each transaction and each account it has
entries on, and `loadLedger` the loop that groups its rows.  `loadLedger_eq` is the closed form that
everything else uses: the transactions in order, each summed up by itself.

Of a balance transaction the reconciler inspects the shape of `source`, `amount` and `fee`, which
are JSON values here; `id` and `type` are only echoed in its report.
-/

namespace LedgerProof

/-! ## Breaks -/

/-- `BreakKind`. -/
inductive BreakKind
  | missingInLedger
  | missingInSource
  | amountMismatch
  | feeMismatch
  | invariantViolation
  deriving DecidableEq, Repr

/-- `Break`. -/
structure Break where
  kind : BreakKind
  objectId : Option String
  eventId : Option String
  expectedMinor : Option ℤ
  actualMinor : Option ℤ
  detail : String
  deriving DecidableEq, Repr

/-- `ReconResult`. -/
structure ReconResult where
  breaks : List Break
  checked : ℕ
  invariantOk : Bool

/-- `ReconResult.ok`. -/
def ReconResult.ok (r : ReconResult) : Bool := r.breaks.isEmpty && r.invariantOk

/-! ## Loading the ledger -/

/-- `_LedgerTxn`. -/
@[ext] structure LedgerTxn where
  txnId : Uuid
  eventId : Option String
  objectId : Option String
  eventType : Option String
  delta : Dict String ℤ
  debitTotal : ℤ

/-- A row of the query of `_load_ledger`. -/
structure LedgerRow where
  txn : TransactionRow
  account : String
  netMinor : ℤ
  debitMinor : ℤ

/-- The entries of a transaction on an account. -/
def Ledger.entriesOn (L : Ledger) (t : TransactionRow) (a : Account) : List EntryRow :=
  (L.txnEntries t.id).filter (·.accountId = a.id)

/-- The `net_minor` column. -/
def Ledger.netMinor (L : Ledger) (t : TransactionRow) (a : Account) : ℤ :=
  total a.signed (L.entriesOn t a)

/-- The transactions, `WHERE t.occurred_at >= … ORDER BY t.occurred_at, t.id`. -/
def Ledger.inOrder (L : Ledger) (since : Option ℤ) : List TransactionRow :=
  (L.transactions.filter fun t => since.all (· ≤ t.occurredAt)).insertionSort fun s t =>
    s.occurredAt < t.occurredAt ∨ (s.occurredAt = t.occurredAt ∧ s.id ≤ t.id)

/-- The accounts, `WHERE a.currency = … ORDER BY a.name`. -/
def Chart.inOrder (chart : Chart) (currency : Option Char3) : List Account :=
  (chart.accounts.filter fun a => currency.all (a.currency = ·)).insertionSort fun a b =>
    a.name ≤ b.name

section

variable (chart : Chart) (L : Ledger)

/-- The accounts a transaction has entries on. -/
def touchedAccounts (currency : Option Char3) (t : TransactionRow) : List Account :=
  (chart.inOrder currency).filter fun a => L.entriesOn t a ≠ []

/-- The rows of one transaction. -/
def txnRows (currency : Option Char3) (t : TransactionRow) : List LedgerRow :=
  (touchedAccounts chart L currency t).map fun a =>
    ⟨t, a.name, L.netMinor t a, total EntryRow.debitMinor (L.entriesOn t a)⟩

/-- The query of `_load_ledger`. -/
def ledgerRows (currency : Option Char3) (since : Option ℤ) : List LedgerRow :=
  (L.inOrder since).flatMap (txnRows chart L currency)

/-- What `grouped.setdefault` inserts. -/
def LedgerRow.fresh (r : LedgerRow) : LedgerTxn :=
  ⟨r.txn.id, r.txn.stripeEventId, r.txn.stripeObjectId, r.txn.eventType, .empty, 0⟩

/-- A row added to its transaction; an account that was moved and moved back is not a delta. -/
def LedgerTxn.add (x : LedgerTxn) (r : LedgerRow) : LedgerTxn :=
  { x with
    delta := if r.netMinor ≠ 0 then x.delta.set r.account r.netMinor else x.delta
    debitTotal := x.debitTotal + r.debitMinor }

/-- The body of the loop over the rows. -/
def groupRow (grouped : Dict Uuid LedgerTxn) (r : LedgerRow) : Dict Uuid LedgerTxn :=
  grouped.set r.txn.id ((grouped.getD r.txn.id r.fresh).add r)

/-- `_load_ledger`. -/
def loadLedger (currency : Option Char3) (since : Option ℤ) : List LedgerTxn :=
  ((ledgerRows chart L currency since).foldl groupRow .empty).items.map Prod.snd

end

/-! ## Texts -/

/-- `f"{n:+d}"`. -/
def signedText (n : ℤ) : String := if 0 ≤ n then "+" ++ toString n else toString n

/-- `f"{s}"` of a string or `None`. -/
def optText (s : Option String) : String := s.getD "None"

/-- `_fmt`. -/
def fmt (delta : Dict String ℤ) : String :=
  "\x7b" ++ ", ".intercalate ((delta.items.insertionSort fun i j => i.1 ≤ j.1).map fun i =>
    i.1 ++ "=" ++ signedText i.2) ++ "\x7d"

/-- `_magnitude`. -/
def magnitude (delta : Dict String ℤ) : ℤ := total (fun i => |i.2|) delta.items / 2

/-- `_invariant_breaks`. -/
def invariantBreaks (inv : InvariantResult) : List Break :=
  (inv.perCurrency.filter fun c => !c.ok).map fun c =>
    { kind := .invariantViolation
      objectId := none
      eventId := none
      expectedMinor := some c.sumCreditNormal
      actualMinor := some c.sumDebitNormal
      detail := c.currency.1 ++ ": debit-normal " ++ toString c.sumDebitNormal ++
        " != credit-normal " ++ toString c.sumCreditNormal ++
        " (difference " ++ toString c.difference ++ ")" }

/-! ## Expected events -/

/-- `ExpectedEvent`. -/
structure ExpectedEvent where
  eventId : String
  expectedDelta : Dict String ℤ

/-- The nonzero part of the expected delta. -/
def ExpectedEvent.delta (x : ExpectedEvent) : Dict String ℤ := x.expectedDelta.filter (· ≠ 0)

/-- `sorted(set(delta) | set(delta'))`. -/
def diffAccounts (delta delta' : Dict String ℤ) : List String :=
  (delta.keys ++ delta'.keys).dedup.insertionSort (· ≤ ·)

/-- The break of an expected event without a transaction. -/
def ExpectedEvent.missingInLedger (x : ExpectedEvent) : Break :=
  { kind := .missingInLedger
    objectId := none
    eventId := some x.eventId
    expectedMinor := some (magnitude x.delta)
    actualMinor := none
    detail := "expected event " ++ x.eventId ++
      " produced no ledger transaction; expected delta " ++
      fmt x.delta }

/-- The break of an account that moved by another amount than expected. -/
def ExpectedEvent.amountMismatch (x : ExpectedEvent) (txn : LedgerTxn) (account : String) : Break :=
  let want := x.delta.getD account 0
  let got := txn.delta.getD account 0
  { kind := .amountMismatch
    objectId := txn.objectId
    eventId := some x.eventId
    expectedMinor := some want
    actualMinor := some got
    detail := "event " ++ x.eventId ++ ": account " ++ account ++ " moved " ++ signedText got ++
      " minor units, expected " ++ signedText want }

/-- The accounts on which an expected event and its transaction differ. -/
def ExpectedEvent.mismatches (x : ExpectedEvent) (txn : LedgerTxn) : List String :=
  (diffAccounts x.delta txn.delta).filter fun account =>
    x.delta.getD account 0 ≠ txn.delta.getD account 0

/-- The break of a transaction that no expected event accounts for. -/
def LedgerTxn.unexpected (txn : LedgerTxn) : Break :=
  { kind := .missingInSource
    objectId := txn.objectId
    eventId := txn.eventId
    expectedMinor := none
    actualMinor := some txn.debitTotal
    detail := "ledger transaction " ++ txn.txnId ++ " (event " ++ optText txn.eventId ++
      ", object " ++ optText txn.objectId ++ ", type " ++ optText txn.eventType ++
      ") has no matching delivered event; ledger delta " ++ fmt txn.delta }

/-- The local variables of the loop over the expected events. -/
structure ExpectedLoop where
  breaks : List Break
  seen : List String
  checked : ℕ

/-- The body of the loop over the expected events. -/
def ExpectedLoop.step (byEvent : Dict String LedgerTxn) (s : ExpectedLoop) (x : ExpectedEvent) :
    ExpectedLoop :=
  if x.eventId ∈ s.seen then s
  else
    let s := { s with seen := x.eventId :: s.seen }
    match byEvent.get? x.eventId with
    | none =>
        if x.delta.items = [] then s
        else { s with checked := s.checked + 1, breaks := s.breaks ++ [x.missingInLedger] }
    | some txn => { s with
        checked := s.checked + 1
        breaks := s.breaks ++ (x.mismatches txn).map (x.amountMismatch txn) }

/-- `reconcile_expected`. -/
def reconcileExpected (chart : Chart) (L : Ledger) (expected : List ExpectedEvent)
    (currency : Char3) : ReconResult :=
  let ledger := loadLedger chart L (some currency) none
  let inv := check chart L
  let byEvent := Dict.index LedgerTxn.eventId ledger
  let s := expected.foldl (ExpectedLoop.step byEvent) ⟨[], [], 0⟩
  let unmatched := ledger.filter fun txn => !txn.eventId.any (· ∈ s.seen)
  { breaks := s.breaks ++ unmatched.map LedgerTxn.unexpected ++ invariantBreaks inv
    checked := s.checked
    invariantOk := inv.ok }

/-! ## Balance transactions -/

/-- What the reconciler reads of a balance transaction: `bt.get("id")`, `bt.get("type")`,
`bt.get("source")`, `bt.get("amount", 0)` and `bt.get("fee", 0)`. -/
structure ListedTransaction where
  id : Option String
  type : Option String
  source : Json
  amount : Json
  fee : Json

/-- `_source_id`. -/
def ListedTransaction.sourceId (bt : ListedTransaction) : Option String :=
  match bt.source with
  | .obj fields => ((fields.lookup "id").getD .null).str?
  | source => source.str?

/-- `_FEE_ACCOUNT`. -/
def feeAccount : String := "processing_fees"

/-- `_STRIPE_BALANCE_ACCOUNT`. -/
def stripeBalanceAccount : String := "stripe_balance"

/-- `ledger_fee`. -/
def LedgerTxn.fee (txn : LedgerTxn) : ℤ := txn.delta.getD feeAccount 0

/-- `ledger_amount`. -/
def LedgerTxn.amount (txn : LedgerTxn) : ℤ := txn.delta.getD stripeBalanceAccount 0 + txn.fee

/-- The break of a balance transaction without a ledger transaction. -/
def ListedTransaction.missingInLedger (bt : ListedTransaction) (amount : ℤ) : Break :=
  { kind := .missingInLedger
    objectId := bt.sourceId.or bt.id
    eventId := none
    expectedMinor := some amount
    actualMinor := none
    detail := "balance transaction " ++ optText bt.id ++ " (type " ++ optText bt.type ++
      ", source " ++ optText bt.sourceId ++ ") has no ledger transaction" }

/-- The breaks of a balance transaction compared with a ledger transaction. -/
def ListedTransaction.mismatches (bt : ListedTransaction) (txn : LedgerTxn) (amount fee : ℤ) :
    List Break :=
  (if txn.amount ≠ amount then
    [{ kind := .amountMismatch
       objectId := bt.sourceId
       eventId := txn.eventId
       expectedMinor := some amount
       actualMinor := some txn.amount
       detail := "balance transaction " ++ optText bt.id ++ ": Stripe amount " ++
        signedText amount ++ ", ledger " ++ signedText txn.amount ++ " (delta " ++ fmt txn.delta ++
        ")" }]
  else []) ++
  if txn.fee ≠ fee then
    [{ kind := .feeMismatch
       objectId := bt.sourceId
       eventId := txn.eventId
       expectedMinor := some fee
       actualMinor := some txn.fee
       detail := "balance transaction " ++ optText bt.id ++ ": Stripe fee " ++ toString fee ++
        ", ledger " ++ toString txn.fee }]
  else []

/-- The break of a ledger transaction that no balance transaction was matched to. -/
def LedgerTxn.unsettled (txn : LedgerTxn) : Break :=
  { kind := .missingInSource
    objectId := txn.objectId
    eventId := txn.eventId
    expectedMinor := none
    actualMinor := some txn.debitTotal
    detail := "ledger transaction " ++ txn.txnId ++ " (object " ++ optText txn.objectId ++
      ", type " ++ optText txn.eventType ++ ") has no Stripe balance transaction in this window" }

/-- The local variables of the loop over the balance transactions. -/
structure StripeLoop where
  breaks : List Break
  matched : List Uuid
  checked : ℕ

/-- The ledger transaction a balance transaction is compared with: the first on its object that is
not matched yet, else the first. -/
def pickTxn (candidates : List LedgerTxn) (matched : List Uuid) : Option LedgerTxn :=
  (candidates.find? fun c => c.txnId ∉ matched).or candidates.head?

/-- The body of the loop over the balance transactions. -/
def StripeLoop.step (byObject : Dict String (List LedgerTxn)) (s : StripeLoop)
    (bt : ListedTransaction) : Except PyError StripeLoop := do
  let amount ← bt.amount.toInt
  let fee ← bt.fee.toInt
  let candidates := match bt.sourceId with
    | some source => byObject.getD source []
    | none => []
  let s := { s with checked := s.checked + 1 }
  match pickTxn candidates s.matched with
  | none => return { s with breaks := s.breaks ++ [bt.missingInLedger amount] }
  | some txn => return { s with
      matched := txn.txnId :: s.matched
      breaks := s.breaks ++ bt.mismatches txn amount fee }

/-- `reconcile_stripe`, over the balance transactions that were listed. -/
def reconcileStripe (chart : Chart) (L : Ledger) (bts : List ListedTransaction)
    (createdGte : Option ℤ) : Except PyError ReconResult := do
  let ledger := loadLedger chart L none createdGte
  let inv := check chart L
  let byObject := Dict.group LedgerTxn.objectId ledger
  let s ← bts.foldlM (StripeLoop.step byObject) ⟨[], [], 0⟩
  let unmatched := ledger.filter fun txn => txn.objectId.isSome && txn.txnId ∉ s.matched
  return {
    breaks := s.breaks ++ unmatched.map LedgerTxn.unsettled ++ invariantBreaks inv
    checked := s.checked
    invariantOk := inv.ok }

/-! ## The closed form of the load -/

section

variable {chart : Chart} {L : Ledger} {currency : Option Char3} {since : Option ℤ}

lemma nodup_touched_names (chart : Chart) (L : Ledger) (currency : Option Char3)
    (t : TransactionRow) : ((touchedAccounts chart L currency t).map (·.name)).Nodup := by
  have hsorted : ((chart.inOrder currency).map (·.name)).Nodup :=
    ((List.perm_insertionSort _ _).map _).nodup_iff.mpr
      (chart.name_nodup.sublist (List.filter_sublist.map _))
  exact hsorted.sublist (List.filter_sublist.map _)

/-- A transaction summed up by itself. -/
def Ledger.summary (chart : Chart) (L : Ledger) (currency : Option Char3) (t : TransactionRow) :
    LedgerTxn :=
  { txnId := t.id
    eventId := t.stripeEventId
    objectId := t.stripeObjectId
    eventType := t.eventType
    delta := ⟨((touchedAccounts chart L currency t).filter fun a => L.netMinor t a ≠ 0).map
        fun a => (a.name, L.netMinor t a), by
      rw [List.map_map]
      exact (nodup_touched_names chart L currency t).sublist (List.filter_sublist.map _)⟩
    debitTotal := total (fun a => total EntryRow.debitMinor (L.entriesOn t a))
      (touchedAccounts chart L currency t) }

lemma foldl_add_items {rs : List LedgerRow} {x : LedgerTxn} (hnd : (rs.map (·.account)).Nodup)
    (hnew : ∀ r ∈ rs, r.account ∉ x.delta.keys) :
    (rs.foldl LedgerTxn.add x).delta.items =
      x.delta.items ++ (rs.filter (·.netMinor ≠ 0)).map fun r => (r.account, r.netMinor) := by
  induction rs generalizing x with
  | nil => simp
  | cons r rs ih =>
      obtain ⟨hr, hrs⟩ := List.nodup_cons.mp hnd
      have hrx : r.account ∉ x.delta.keys := hnew r (by simp)
      rw [List.foldl_cons]
      by_cases hnet : r.netMinor ≠ 0
      · have hdelta : (x.add r).delta.items = x.delta.items ++ [(r.account, r.netMinor)] := by
          rw [LedgerTxn.add, if_pos hnet]
          exact Dict.set_items_of_not_mem hrx
        rw [ih hrs, hdelta, List.filter_cons_of_pos (by simpa using hnet), List.map_cons,
          List.append_assoc, List.singleton_append]
        intro r' hr' hmem
        rw [Dict.keys, hdelta, List.map_append, List.mem_append] at hmem
        rcases hmem with hmem | hmem
        · exact hnew r' (by simp [hr']) hmem
        · have heq : r'.account = r.account := List.mem_singleton.mp hmem
          exact hr (List.mem_map.mpr ⟨r', hr', heq⟩)
      · have hdelta : (x.add r).delta = x.delta := by rw [LedgerTxn.add, if_neg hnet]
        rw [ih hrs, hdelta, List.filter_cons_of_neg (by simpa using hnet)]
        intro r' hr'
        rw [hdelta]
        exact hnew r' (by simp [hr'])

/-- The fields that rows do not touch, and the sum of those they do. -/
lemma foldl_add_fields (rs : List LedgerRow) (x : LedgerTxn) :
    (rs.foldl LedgerTxn.add x).txnId = x.txnId ∧ (rs.foldl LedgerTxn.add x).eventId = x.eventId ∧
      (rs.foldl LedgerTxn.add x).objectId = x.objectId ∧
      (rs.foldl LedgerTxn.add x).eventType = x.eventType ∧
      (rs.foldl LedgerTxn.add x).debitTotal = x.debitTotal + total (·.debitMinor) rs := by
  induction rs generalizing x with
  | nil => simp
  | cons r rs ih =>
      obtain ⟨h1, h2, h3, h4, h5⟩ := ih (x.add r)
      refine ⟨h1, h2, h3, h4, ?_⟩
      rw [List.foldl_cons, h5, total_cons]
      simp only [LedgerTxn.add]
      ring

lemma foldl_add_txnRows {r : LedgerRow} {t : TransactionRow} (hr : r.txn = t) :
    (txnRows chart L currency t).foldl LedgerTxn.add r.fresh = L.summary chart currency t := by
  have hnd : ((txnRows chart L currency t).map (·.account)).Nodup := by
    rw [txnRows, List.map_map]
    exact nodup_touched_names chart L currency t
  obtain ⟨h1, h2, h3, h4, h5⟩ := foldl_add_fields (txnRows chart L currency t) r.fresh
  have hitems := foldl_add_items hnd (x := r.fresh)
    (by simp [LedgerRow.fresh, Dict.empty, Dict.keys])
  subst hr
  refine LedgerTxn.ext h1 h2 h3 h4 (Dict.ext ?_) ?_
  · rw [hitems]
    simp [LedgerRow.fresh, Dict.empty, Ledger.summary, txnRows, List.filter_map, Function.comp_def]
  · rw [h5]
    simp [LedgerRow.fresh, Ledger.summary, txnRows, total_map]

/-- The rows of the transaction that came last go to its item. -/
lemma foldl_groupRow_last {rs : List LedgerRow} {t : TransactionRow} (hrs : ∀ r ∈ rs, r.txn = t)
    {d : Dict Uuid LedgerTxn} {pre : List (Uuid × LedgerTxn)} {x : LedgerTxn}
    (hd : d.items = pre ++ [(t.id, x)]) :
    (rs.foldl groupRow d).items = pre ++ [(t.id, rs.foldl LedgerTxn.add x)] := by
  induction rs generalizing d x with
  | nil => exact hd
  | cons r rs ih =>
      have hr : r.txn = t := hrs r (by simp)
      have hmem : (t.id, x) ∈ d.items := by simp [hd]
      have hget : d.getD r.txn.id r.fresh = x := by
        rw [hr, Dict.getD, Dict.mem_items_iff.mp hmem]
        rfl
      refine ih (fun r' hr' => hrs r' (by simp [hr'])) ?_
      rw [groupRow, hget, hr]
      exact Dict.set_items_of_last hd

lemma foldl_groupRow_txnRows {t : TransactionRow} {d : Dict Uuid LedgerTxn} (ht : t.id ∉ d.keys) :
    ((txnRows chart L currency t).foldl groupRow d).items = d.items ++
      if touchedAccounts chart L currency t = [] then []
      else [(t.id, L.summary chart currency t)] := by
  have hall : ∀ r ∈ txnRows chart L currency t, r.txn = t := by
    intro r hr
    obtain ⟨a, -, rfl⟩ := List.mem_map.mp hr
    rfl
  cases hrows : txnRows chart L currency t with
  | nil =>
      have hnone : touchedAccounts chart L currency t = [] := List.map_eq_nil_iff.mp hrows
      simp [hnone]
  | cons r rs =>
      have hsome : touchedAccounts chart L currency t ≠ [] := by
        intro hnil
        simp [txnRows, hnil] at hrows
      rw [hrows] at hall
      have hr : r.txn = t := hall r (by simp)
      have hget : d.getD r.txn.id r.fresh = r.fresh := by
        rw [hr, Dict.getD, Dict.get?_eq_none_iff.mpr ht]
        rfl
      have hfirst : (groupRow d r).items = d.items ++ [(t.id, r.fresh.add r)] := by
        rw [groupRow, hget, hr]
        exact Dict.set_items_of_not_mem ht
      rw [List.foldl_cons, foldl_groupRow_last (fun r' hr' => hall r' (by simp [hr'])) hfirst,
        if_neg hsome, ← foldl_add_txnRows hr, hrows, List.foldl_cons]

lemma foldl_groupRow_items {ts : List TransactionRow} (hnd : (ts.map (·.id)).Nodup)
    {d : Dict Uuid LedgerTxn} (hnew : ∀ t ∈ ts, t.id ∉ d.keys) :
    ((ts.flatMap (txnRows chart L currency)).foldl groupRow d).items = d.items ++
      (ts.filter fun t => touchedAccounts chart L currency t ≠ []).map
        fun t => (t.id, L.summary chart currency t) := by
  induction ts generalizing d with
  | nil => simp
  | cons t ts ih =>
      obtain ⟨ht, hts⟩ := List.nodup_cons.mp hnd
      have hitems : ((txnRows chart L currency t).foldl groupRow d).items = _ :=
        foldl_groupRow_txnRows (hnew t (by simp))
      rw [List.flatMap_cons, List.foldl_append, ih hts, hitems]
      · by_cases hnil : touchedAccounts chart L currency t = []
        · simp [hnil]
        · simp [hnil]
      · intro t' ht' hmem
        rw [Dict.keys, hitems, List.map_append, List.mem_append] at hmem
        rcases hmem with hmem | hmem
        · exact hnew t' (by simp [ht']) hmem
        · split_ifs at hmem
          · simp at hmem
          · have heq : t'.id = t.id := List.mem_singleton.mp hmem
            exact ht (List.mem_map.mpr ⟨t', ht', heq⟩)

/-- **What the reconciler loads**: the transactions of the window in order, each with its own
deltas, leaving out those that touch no account of the currency. -/
lemma loadLedger_eq (hL : L.RowsAdmitted chart) (currency : Option Char3) (since : Option ℤ) :
    loadLedger chart L currency since =
      ((L.inOrder since).filter fun t => touchedAccounts chart L currency t ≠ []).map
        (L.summary chart currency) := by
  have hnd : ((L.inOrder since).map (·.id)).Nodup :=
    ((List.perm_insertionSort _ _).map _).nodup_iff.mpr
      (hL.transactions_pkey.sublist (List.filter_sublist.map _))
  rw [loadLedger, ledgerRows, foldl_groupRow_items hnd (by simp [Dict.empty, Dict.keys])]
  simp [Dict.empty, Function.comp_def]

/-! ## Reading a summary -/

/-- What a transaction moved on the account of this name. -/
def Ledger.deltaOn (chart : Chart) (L : Ledger) (currency : Option Char3) (t : TransactionRow)
    (name : String) : ℤ :=
  total (L.netMinor t)
    (chart.accounts.filter fun a => currency.all (a.currency = ·) ∧ a.name = name)

lemma filter_name {a : Account} (ha : a ∈ chart.accounts)
    (hcur : currency.all (a.currency = ·) = true) :
    (chart.accounts.filter fun b => currency.all (b.currency = ·) ∧ b.name = a.name) = [a] := by
  refine filter_eq_singleton (List.Nodup.of_map _ chart.name_nodup) ha fun b hb => ?_
  rw [decide_eq_true_eq]
  constructor
  · rintro ⟨-, hname⟩
    exact Chart.eq_of_name hb ha hname
  · rintro rfl
    exact ⟨hcur, rfl⟩

lemma deltaOn_name {a : Account} (ha : a ∈ chart.accounts)
    (hcur : currency.all (a.currency = ·) = true) (t : TransactionRow) :
    L.deltaOn chart currency t a.name = L.netMinor t a := by
  rw [Ledger.deltaOn, filter_name ha hcur, total_cons, total_nil, add_zero]

lemma mem_touchedAccounts {a : Account} {t : TransactionRow} :
    a ∈ touchedAccounts chart L currency t ↔ a ∈ chart.accounts ∧
      currency.all (a.currency = ·) = true ∧ L.entriesOn t a ≠ [] := by
  rw [touchedAccounts, List.mem_filter, Chart.inOrder, List.mem_insertionSort, List.mem_filter,
    decide_eq_true_eq, and_assoc]

lemma netMinor_eq_zero {a : Account} {t : TransactionRow} (h : L.entriesOn t a = []) :
    L.netMinor t a = 0 := by
  rw [Ledger.netMinor, h, total_nil]

lemma mem_summary_delta {t : TransactionRow} {name : String} {v : ℤ} :
    (name, v) ∈ (L.summary chart currency t).delta.items ↔ v ≠ 0 ∧ ∃ a ∈ chart.accounts,
      currency.all (a.currency = ·) = true ∧ a.name = name ∧ L.netMinor t a = v := by
  simp only [Ledger.summary, List.mem_map, List.mem_filter, mem_touchedAccounts,
    decide_eq_true_eq, Prod.mk.injEq]
  constructor
  · rintro ⟨a, ⟨⟨ha, hcur, -⟩, hnet⟩, rfl, rfl⟩
    exact ⟨hnet, a, ha, hcur, rfl, rfl⟩
  · rintro ⟨hv, a, ha, hcur, rfl, rfl⟩
    exact ⟨a, ⟨⟨ha, hcur, fun hnil => hv (netMinor_eq_zero hnil)⟩, hv⟩, rfl, rfl⟩

/-- **A summary says what the transaction moved.** -/
lemma summary_getD (chart : Chart) (L : Ledger) (currency : Option Char3) (t : TransactionRow)
    (name : String) :
    (L.summary chart currency t).delta.getD name 0 = L.deltaOn chart currency t name := by
  by_cases h : ∃ a ∈ chart.accounts, currency.all (a.currency = ·) = true ∧ a.name = name
  · obtain ⟨a, ha, hcur, rfl⟩ := h
    rw [deltaOn_name ha hcur]
    by_cases hnet : L.netMinor t a = 0
    · have hnone : (L.summary chart currency t).delta.get? a.name = none := by
        refine Option.eq_none_iff_forall_not_mem.mpr fun v hv => ?_
        obtain ⟨hne, b, hb, -, hname, hbnet⟩ :=
          mem_summary_delta.mp (Dict.mem_items_iff.mpr hv)
        rw [Chart.eq_of_name hb ha hname] at hbnet
        exact hne (hbnet ▸ hnet)
      rw [Dict.getD, hnone, hnet]
      rfl
    · rw [Dict.getD, Dict.mem_items_iff.mp (mem_summary_delta.mpr ⟨hnet, a, ha, hcur, rfl, rfl⟩)]
      rfl
  · have hnone : (L.summary chart currency t).delta.get? name = none := by
      refine Option.eq_none_iff_forall_not_mem.mpr fun v hv => ?_
      obtain ⟨-, a, ha, hcur, hname, -⟩ := mem_summary_delta.mp (Dict.mem_items_iff.mpr hv)
      exact h ⟨a, ha, hcur, hname⟩
    have hnil : (chart.accounts.filter fun a =>
        currency.all (a.currency = ·) ∧ a.name = name) = [] :=
      List.filter_eq_nil_iff.mpr fun a ha hp => h ⟨a, ha, of_decide_eq_true hp⟩
    rw [Dict.getD, hnone, Ledger.deltaOn, hnil]
    rfl

lemma balanceMinor_eq_total (hL : L.RowsAdmitted chart) (a : Account) :
    L.balanceMinor a = total (fun t => L.netMinor t a) L.transactions := by
  have hgroups := sum_groups hL.transactions_pkey (fun e : EntryRow => e.transactionId) a.signed
    (L.entries.filter (·.accountId = a.id))
    (fun e he => hL.entries_transaction_fkey e (List.mem_filter.mp he).1)
  rw [total_map] at hgroups
  rw [Ledger.balanceMinor, ← hgroups]
  refine total_congr fun t _ => ?_
  rw [Ledger.netMinor, Ledger.entriesOn, Ledger.txnEntries, List.filter_filter, List.filter_filter]
  congr 1
  exact List.filter_congr fun e _ => Bool.and_comm _ _

lemma touchedAccounts_ne_nil_iff (hL : L.RowsAdmitted chart) {t : TransactionRow} :
    touchedAccounts chart L currency t ≠ [] ↔
      ∃ e ∈ L.txnEntries t.id, currency.all (e.currency = ·) = true := by
  constructor
  · intro h
    obtain ⟨a, ha⟩ := List.exists_mem_of_ne_nil _ h
    obtain ⟨ha, hcur, hne⟩ := mem_touchedAccounts.mp ha
    obtain ⟨e, he⟩ := List.exists_mem_of_ne_nil _ hne
    obtain ⟨he, hacc⟩ := List.mem_filter.mp he
    obtain ⟨b, hb, hid, hbcur⟩ := hL.account_of_entry (Ledger.mem_txnEntries.mp he).1
    have hab : b = a := Chart.eq_of_id hb ha (hid.trans (of_decide_eq_true hacc))
    rw [hab] at hbcur
    exact ⟨e, he, by rw [← hbcur]; exact hcur⟩
  · rintro ⟨e, he, hcur⟩
    obtain ⟨a, ha, hid, hacur⟩ := hL.account_of_entry (Ledger.mem_txnEntries.mp he).1
    refine List.ne_nil_of_mem (mem_touchedAccounts.mpr ⟨ha, by rw [hacur]; exact hcur, ?_⟩)
    exact List.ne_nil_of_mem (List.mem_filter.mpr ⟨he, by simp [hid]⟩)

end

end LedgerProof
