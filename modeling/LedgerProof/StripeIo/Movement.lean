import LedgerProof.StripeIo.Mapping
import LedgerProof.Ledger.Session

/-!
# The money an event moves, and which of it the ledger accepts

`build_transaction` reads a few integers out of an event and posts them in one of four shapes.
`Movement` is those integers: `Event.movement` reads them with the source's own fallback chains and
`mapEntries_eq` says that nothing else decides the entries.

Debits and credits of a movement are equal whatever the integers are, so what the schema can still
refuse is an amount that is not positive, one that `BIGINT` does not hold, and a transaction whose
zero entries were skipped until fewer than two were left.  `Movement.Acceptable` is that verdict in
terms of the integers, and `mapped_accepted_iff` carries it to events, whose ids have to be texts
that PostgreSQL can hold (`Event.Storable`).
-/

namespace LedgerProof

/-- The integers `build_transaction` posts, by posting shape. -/
inductive Movement
  | charge (gross fee : ℤ)
  | refund (amount : ℤ)
  | dispute (amount fee : ℤ)
  | payout (amount : ℤ)
  deriving DecidableEq, Repr

/-- The entries of a movement. -/
def Movement.entries (currency : String) : Movement → List Entry
  | .charge gross fee => chargeEntries currency gross fee
  | .refund amount => refundEntries currency amount
  | .dispute amount fee => disputeEntries currency amount fee
  | .payout amount => payoutEntries currency amount

/-- The movement of an object of a mapped type. -/
def movement (type : String) (obj feeMinor : Json) : Except Exn Movement := do
  if type = "charge.succeeded" ∨ type = "payment_intent.succeeded" then
    let gross ← obj.index
      (if type = "payment_intent.succeeded" then "amount_received" else "amount")
    let fee ← chargeFee obj feeMinor
    return .charge (← money gross) fee
  else if type = "charge.refunded" then
    let amount ← refundAmount obj
    return .refund (← money amount)
  else if type = "charge.dispute.created" then
    let amount ← obj.index "amount"
    let fee ← disputeFee obj feeMinor
    return .dispute (← money amount) fee
  else
    let amount ← obj.index "amount"
    return .payout (← money amount)

lemma mapEntries_eq (type : String) (obj feeMinor : Json) (currency : String) :
    mapEntries type obj feeMinor currency =
      (movement type obj feeMinor).map (Movement.entries currency) := by
  unfold mapEntries movement
  split_ifs <;> simp only [except_map_bind] <;> rfl

/-- `event["data"]["object"]`. -/
def Event.object (e : Event) : Except PyError Json := do
  let data ← e.payload.index "data"
  data.index "object"

/-- The movement of an event. -/
def Event.movement (e : Event) (feeMinor : Json) : Except Exn Movement := do
  let obj ← e.object
  LedgerProof.movement e.type obj feeMinor

/-- The currency of an event, in capitals. -/
def Event.currency (e : Event) : Except PyError String := do
  let obj ← e.object
  eventCurrency obj

lemma buildTransaction_entries {uuid5 : String → Uuid} {e : Event} {feeMinor : Json}
    {txn : LedgerTransaction} (h : buildTransaction uuid5 e feeMinor = .ok (some txn)) :
    ∃ m currency, e.movement feeMinor = .ok m ∧ e.currency = .ok currency ∧
      txn.entries = m.entries currency := by
  obtain ⟨data, obj, currency, entries, _, _, hdata, hobj, -, -, hcur, hent, -, rfl⟩ :=
    buildTransaction_some h
  have hobject : e.object = .ok obj := by rw [Event.object, hdata, except_ok_bind, hobj]
  rw [mapEntries_eq] at hent
  cases hm : movement e.type obj feeMinor with
  | error err => simp [hm, Except.map] at hent
  | ok m =>
      refine ⟨m, currency, ?_, ?_, ?_⟩
      · rw [Event.movement, hobject, liftM_py_ok, except_ok_bind, hm]
      · rw [Event.currency, hobject, except_ok_bind, hcur]
      · simpa [hm, Except.map] using hent.symm

/-- PostgreSQL can hold the texts that the ledger keeps of the event: its id and its object id. -/
def Event.Storable (e : Event) : Prop :=
  NulFree e.id ∧ ∀ oid, moneyMovementObjectId e = .ok (some oid) → NulFree oid

lemma buildTransaction_storable_iff {uuid5 : String → Uuid} {e : Event} {feeMinor : Json}
    {txn : LedgerTransaction} (h : buildTransaction uuid5 e feeMinor = .ok (some txn)) :
    txn.row.Storable ↔ e.Storable := by
  obtain ⟨-, -, -, entries, occurredAt, objectId, -, -, -, hmapped, -, -, hoid, rfl⟩ :=
    buildTransaction_some h
  have htype : NulFree e.type := (by decide : ∀ type ∈ mappedTypes, NulFree type) e.type hmapped
  simp only [TransactionRow.Storable, TransactionRow.mem_texts, LedgerTransaction.row,
    Event.Storable, hoid, Except.ok.injEq]
  constructor
  · exact fun hall => ⟨hall e.id (.inl rfl), fun oid hoid => hall oid (.inr (.inl hoid))⟩
  · rintro ⟨hid, hobject⟩ s (hs | hs | hs | hs)
    · exact Option.some_inj.mp hs ▸ hid
    · exact hobject s hs
    · exact Option.some_inj.mp hs ▸ htype
    · cases hs

/-! ## The entries of a movement -/

/-- The postings of a movement before zero amounts are skipped: account, direction and amount. -/
def Movement.legs : Movement → List (String × Direction × ℤ)
  | .charge gross fee =>
      [("stripe_balance", .debit, gross - fee), ("processing_fees", .debit, fee),
        ("revenue", .credit, gross)]
  | .refund amount => [("refunds_contra", .debit, amount), ("stripe_balance", .credit, amount)]
  | .dispute amount fee =>
      [("dispute_losses", .debit, amount), ("processing_fees", .debit, fee),
        ("stripe_balance", .credit, amount + fee)]
  | .payout amount => [("bank", .debit, amount), ("stripe_balance", .credit, amount)]

lemma Movement.entries_eq (currency : String) (m : Movement) :
    m.entries currency = (m.legs.filter fun l => l.2.2 ≠ 0).map fun l =>
      ⟨l.1, l.2.1, l.2.2, currency⟩ := by
  have hadd : ∀ legs : List (String × Direction × ℤ),
      (legs.filter fun l => l.2.2 ≠ 0).map (fun l => (⟨l.1, l.2.1, l.2.2, currency⟩ : Entry)) =
        legs.flatMap fun l => addEntry currency l.1 l.2.1 l.2.2 := by
    intro legs
    induction legs with
    | nil => rfl
    | cons l legs ih => by_cases hl : l.2.2 = 0 <;> simp_all [addEntry]
  rw [hadd]
  cases m <;> simp [Movement.entries, legs, chargeEntries, refundEntries, disputeEntries,
    payoutEntries]

/-- A sum of a column that is zero at zero amounts does not see that they were skipped. -/
lemma Movement.total_entries (currency : String) (m : Movement) {f : Entry → ℤ}
    (hf : ∀ account dir, f ⟨account, dir, 0, currency⟩ = 0) :
    total f (m.entries currency) = total (fun l => f ⟨l.1, l.2.1, l.2.2, currency⟩) m.legs := by
  rw [entries_eq, total_map, total_filter]
  refine total_congr fun l _ => ?_
  by_cases hl : l.2.2 = 0
  · simp [hl, hf]
  · simp [hl]

lemma Movement.entries_balanced (currency : String) (m : Movement) :
    total Entry.debitMinor (m.entries currency) = total Entry.creditMinor (m.entries currency) := by
  rw [m.total_entries currency (by simp [Entry.debitMinor]),
    m.total_entries currency (by simp [Entry.creditMinor])]
  cases m <;> simp [legs, Entry.debitMinor, Entry.creditMinor]

lemma Movement.amount_ne_zero {currency : String} {m : Movement} {e : Entry}
    (h : e ∈ m.entries currency) :
    e.amountMinor ≠ 0 := by
  rw [entries_eq] at h
  obtain ⟨l, hl, rfl⟩ := List.mem_map.mp h
  simpa using (List.mem_filter.mp hl).2

/-! ## The verdict of the schema -/

lemma Movement.find_account {m : Movement} {l : String × Direction × ℤ} (h : l ∈ m.legs) :
    ∃ a, seedChart.find l.1 = some a ∧ a.currency = usd := by
  cases m <;> simp only [legs, List.mem_cons, List.not_mem_nil, or_false] at h
  all_goals
    rcases h with rfl | rfl | rfl <;> exact ⟨_, rfl, rfl⟩

lemma char3_usd (account : String) (dir : Direction) (amount : ℤ) :
    (⟨account, dir, amount, "USD"⟩ : Entry).char3 = some usd := by
  show Char3.ofText "USD" = some usd
  decide

/-- What the schema asks of a movement in dollars: texts that it can hold, no negative amount, none
beyond `BIGINT`, and two amounts that are not zero. -/
lemma Movement.accepted_iff {m : Movement} {txn : LedgerTransaction}
    (h : txn.entries = m.entries "USD") :
    txn.Accepted seedChart ↔
      ((∀ l ∈ m.legs, 0 ≤ l.2.2 ∧ l.2.2 ≤ bigintMax) ∧
        2 ≤ (m.legs.filter fun l => l.2.2 ≠ 0).length) ∧ txn.row.Storable := by
  have hlen : txn.entries.length = (m.legs.filter fun l => l.2.2 ≠ 0).length := by
    rw [h, entries_eq, List.length_map]
  have hmem : ∀ l ∈ m.legs, l.2.2 ≠ 0 → (⟨l.1, l.2.1, l.2.2, "USD"⟩ : Entry) ∈ txn.entries := by
    intro l hl hne
    rw [h, entries_eq]
    exact List.mem_map_of_mem (List.mem_filter.mpr ⟨hl, by simpa using hne⟩)
  have hleg : ∀ e ∈ txn.entries, ∃ l ∈ m.legs, l.2.2 ≠ 0 ∧ e = ⟨l.1, l.2.1, l.2.2, "USD"⟩ := by
    intro e he
    rw [h, entries_eq] at he
    obtain ⟨l, hl, rfl⟩ := List.mem_map.mp he
    exact ⟨l, (List.mem_filter.mp hl).1, by simpa using (List.mem_filter.mp hl).2, rfl⟩
  constructor
  · intro hacc
    refine ⟨⟨fun l hl => ?_, by rw [← hlen]; exact hacc.min_entries⟩, hacc.storable⟩
    by_cases hzero : l.2.2 = 0
    · rw [hzero]
      decide
    · exact ⟨(hacc.amount_pos _ (hmem l hl hzero)).le, hacc.amount_bigint _ (hmem l hl hzero)⟩
  · rintro ⟨⟨hamount, hmin⟩, hstorable⟩
    refine
      { storable := hstorable
        amount_pos := fun e he => ?_
        amount_bigint := fun e he => ?_
        currency_matches_account := fun e he => ?_
        min_entries := by rw [hlen]; exact hmin
        max_entries := ?_
        balanced := fun c => ?_ }
    · obtain ⟨l, hl, hne, rfl⟩ := hleg e he
      exact lt_of_le_of_ne (hamount l hl).1 hne.symm
    · obtain ⟨l, hl, -, rfl⟩ := hleg e he
      exact (hamount l hl).2
    · obtain ⟨l, hl, -, rfl⟩ := hleg e he
      obtain ⟨a, ha, hcur⟩ := find_account hl
      exact ⟨a, ha, by rw [char3_usd, hcur]⟩
    · have hlegs : m.legs.length ≤ 3 := by cases m <;> simp [legs]
      have hfilter := List.length_filter_le (fun l : String × Direction × ℤ =>
        decide (l.2.2 ≠ 0)) m.legs
      rw [hlen]
      calc _ ≤ 3 := hfilter.trans hlegs
        _ < 2 ^ 31 := by decide
    · -- all entries are in dollars: one currency has them all, the others none
      have hchar : ∀ e ∈ txn.entries, e.char3 = some usd := fun e he => by
        obtain ⟨l, -, -, rfl⟩ := hleg e he
        exact char3_usd _ _ _
      by_cases hc : usd = c
      · rw [List.filter_eq_self.mpr fun e he => by simp [hchar e he, hc], h]
        exact m.entries_balanced "USD"
      · rw [List.filter_eq_nil_iff.mpr fun e he => by simp [hchar e he, hc]]
        rfl

/-- Which movements the ledger accepts. -/
def Movement.Acceptable : Movement → Prop
  | .charge gross fee => 0 < gross ∧ 0 ≤ fee ∧ fee ≤ gross
  | .refund amount => 0 < amount
  | .dispute amount fee => 0 ≤ amount ∧ 0 ≤ fee ∧ 0 < amount + fee ∧ amount + fee ≤ bigintMax
  | .payout amount => 0 < amount

/-- The money fields of the movement are below `2^62`: the gross or the amount, and the fee of a
charge.  The fee of a dispute may be a sum over several balance transactions. -/
def Movement.Below : Movement → Prop
  | .charge gross fee => |gross| < 2 ^ 62 ∧ |fee| < 2 ^ 62
  | .refund amount => |amount| < 2 ^ 62
  | .dispute amount _ => |amount| < 2 ^ 62
  | .payout amount => |amount| < 2 ^ 62

lemma Movement.acceptable_iff {m : Movement} (hm : m.Below) :
    ((∀ l ∈ m.legs, 0 ≤ l.2.2 ∧ l.2.2 ≤ bigintMax) ∧
      2 ≤ (m.legs.filter fun l => l.2.2 ≠ 0).length) ↔
      m.Acceptable := by
  have hmax : bigintMax = 2 ^ 63 - 1 := by decide
  rcases m with ⟨gross, fee⟩ | amount | ⟨amount, fee⟩ | amount
  all_goals
    simp only [Below, abs_lt] at hm
    simp only [legs, Acceptable, List.forall_mem_cons, List.filter_cons, List.filter_nil, hmax,
      decide_eq_true_iff, List.not_mem_nil, false_imp_iff, implies_true, and_true]
    split_ifs <;> simp only [List.length_cons, List.length_nil] <;> omega

/-- **The money events the ledger accepts.**  The entries of a mapped event balance and none of them
is zero; and on the seeded chart, where the event's keys are free, a dollar event with money fields
below `2^62` is posted exactly when its movement is acceptable and its ids can be stored. -/
theorem mapped_accepted_iff {uuid5 : String → Uuid} {e : Event} {feeMinor : Json}
    {txn : LedgerTransaction} {m : Movement}
    (hbuild : buildTransaction uuid5 e feeMinor = .ok (some txn))
    (hmovement : e.movement feeMinor = .ok m) (hcurrency : e.currency = .ok "USD")
    (hbelow : m.Below) :
    total Entry.debitMinor txn.entries = total Entry.creditMinor txn.entries ∧
      (∀ entry ∈ txn.entries, entry.amountMinor ≠ 0) ∧
      ∀ L : Ledger, L.RowsAdmitted seedChart → L.Fresh txn →
        ((attempt seedChart L txn none).1 = .ok .posted ↔ m.Acceptable ∧ e.Storable) := by
  obtain ⟨m', currency, hm', hcur', hentries⟩ := buildTransaction_entries hbuild
  obtain rfl : m = m' := by
    rw [hmovement] at hm'
    exact Except.ok.inj hm'
  obtain rfl : currency = "USD" := by
    rw [hcurrency] at hcur'
    exact (Except.ok.inj hcur').symm
  refine ⟨by rw [hentries]; exact m.entries_balanced _, fun entry hentry => ?_, fun L hL hfresh =>
    ?_⟩
  · rw [hentries] at hentry
    exact Movement.amount_ne_zero hentry
  · rw [attempt_posted_iff hL, Movement.accepted_iff hentries, Movement.acceptable_iff hbelow,
      buildTransaction_storable_iff hbuild]
    exact and_iff_right hfresh

/-- A dispute of `amount` with one expanded balance transaction for each of `fees`. -/
def feeDispute (amount : ℤ) (fees : List ℤ) : Event :=
  .ofObject "evt_1" "charge.dispute.created" 1700000000
    [("id", .str "dp_1"), ("amount", .int amount), ("currency", .str "usd"),
      ("balance_transactions", .arr (fees.map fun fee => .obj [("fee", .int fee)]))] []

/-- The transaction of such a dispute. -/
def feeDisputeTxn (amount fee : ℤ) : LedgerTransaction :=
  { id := "87d10987-1960-5911-8feb-38c7c4e57114"
    occurredAt := 1700000000
    entries := disputeEntries "USD" amount fee
    stripeEventId := some "evt_1"
    stripeObjectId := some "dp_1"
    eventType := some "charge.dispute.created"
    memo := none }

/-- A dispute of nothing with a fee of 15.00 is posted. -/
theorem mapped_accepted_iff_fee_only :
    buildTransaction sampleUuid5 (feeDispute 0 [1500]) .null = .ok (some (feeDisputeTxn 0 1500)) ∧
      (attempt seedChart .empty (feeDisputeTxn 0 1500) none).1 = .ok .posted := by
  have hbuild : buildTransaction sampleUuid5 (feeDispute 0 [1500]) .null =
      .ok (some (feeDisputeTxn 0 1500)) := by decide
  refine ⟨hbuild, ((mapped_accepted_iff (m := .dispute 0 1500) hbuild (by decide)
    (by decide) ?_).2.2 .empty (Ledger.empty_admitted seedChart).toRowsAdmitted
    (Ledger.fresh_iff.mpr (by decide))).mpr
    ⟨?_, (buildTransaction_storable_iff hbuild).mp (by decide)⟩⟩
  · show |(0 : ℤ)| < 2 ^ 62
    norm_num
  · show (0 : ℤ) ≤ 0 ∧ (0 : ℤ) ≤ 1500 ∧ (0 : ℤ) < 0 + 1500 ∧ (0 : ℤ) + 1500 ≤ bigintMax
    decide

/-- Three fees of `2^62 - 1` on one dispute are each below `2^62`, and their sum is refused. -/
theorem dispute_fees_out_of_range :
    buildTransaction sampleUuid5 (feeDispute 1000 [2 ^ 62 - 1, 2 ^ 62 - 1, 2 ^ 62 - 1]) .null =
        .ok (some (feeDisputeTxn 1000 (3 * (2 ^ 62 - 1)))) ∧
      (feeDispute 1000 [2 ^ 62 - 1, 2 ^ 62 - 1, 2 ^ 62 - 1]).movement .null =
        .ok (.dispute 1000 (3 * (2 ^ 62 - 1))) ∧
      (0 : ℤ) ≤ 1000 ∧ (0 : ℤ) ≤ 3 * (2 ^ 62 - 1) ∧ (0 : ℤ) < 1000 + 3 * (2 ^ 62 - 1) ∧
      (attempt seedChart .empty (feeDisputeTxn 1000 (3 * (2 ^ 62 - 1))) none).1 =
        .error (.pg .numericValueOutOfRange) := by
  refine ⟨by decide, by decide, by decide, by decide, by decide, by decide⟩

end LedgerProof
