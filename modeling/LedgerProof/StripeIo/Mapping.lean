import LedgerProof.Ledger.Post
import Mathlib.Logic.Equiv.Basic
import Mathlib.Algebra.Group.End

/-!
# From Stripe events to ledger transactions

`stripe_io/mapping.py`: the pure mapping from an event envelope to a balanced transaction, with
the identity of the money movement it is deduplicated by and the resolution of fees the payload
may not carry.

An `Event` is an envelope whose `id` and `type` are strings, the two fields ingest insists on;
everything else is read out of the payload dictionary, with the exception Python raises where a
read fails.  Money fields are integers by the mapping's contract (`money`); a payload with
another value there is outside it, and the model raises.

`uuid5` stands for `uuid.uuid5(NAMESPACE_URL, ·)`, which is not computed here; what results use
of it, that distinct names have distinct ids, is a hypothesis where it is needed.
-/

namespace LedgerProof

/-! ## Events -/

/-- A Stripe event envelope. -/
structure Event where
  id : String
  type : String
  /-- The other top-level fields. -/
  fields : List (String × Json)

/-- The dictionary the code reads. -/
def Event.payload (e : Event) : Json :=
  .obj (("id", .str e.id) :: ("type", .str e.type) :: e.fields)

lemma Event.getD_payload (e : Event) {key : String} (hid : key ≠ "id") (htype : key ≠ "type")
    (d : Json) : e.payload.getD key d = .ok ((e.fields.lookup key).getD d) := by
  have h1 : (key == "id") = false := by simpa using hid
  have h2 : (key == "type") = false := by simpa using htype
  simp [payload, List.lookup_cons, h1, h2]

lemma Event.index_payload (e : Event) {key : String} (hid : key ≠ "id") (htype : key ≠ "type") :
    e.payload.index key = (Json.obj e.fields).index key := by
  have h1 : (key == "id") = false := by simpa using hid
  have h2 : (key == "type") = false := by simpa using htype
  simp [payload, Json.index, List.lookup_cons, h1, h2]

/-! ## The object that moved money -/

/-- `_newest_refund`: `obj.refunds.data[0]`, Stripe listing refunds newest first. -/
def newestRefund (obj : Json) : Except PyError (Option Json) := do
  let refunds ← obj.get "refunds"
  match refunds with
  | .obj _ =>
      let data ← refunds.get "data"
      match data with
      | .arr (.obj fields :: _) => return some (.obj fields)
      | _ => return none
  | _ => return none

/-- The newest refund's id, for `charge.refunded` only. -/
def refundId (type : String) (obj : Json) : Except PyError (Option String) := do
  if type = "charge.refunded" then
    match ← newestRefund obj with
    | some refund => return (← refund.get "id").str?
    | none => return none
  else return none

/-- `money_movement_object_id`: the id of the object that moved money. -/
def moneyMovementObjectId (e : Event) : Except PyError (Option String) := do
  let data ← e.payload.getD "data" (.obj [])
  let dataObj ← data.get "object"
  match dataObj with
  | .obj _ =>
      match ← refundId e.type dataObj with
      | some rid => return some rid
      | none => return (← dataObj.get "id").str?
  | _ => return none

/-! ## Fees -/

/-- A money field: integer minor units. -/
def money : Json → Except PyError ℤ
  | .int n => .ok n
  | _ => .error .typeError

@[simp] lemma money_int (n : ℤ) : money (.int n) = .ok n := rfl

/-- The fee parameter if it was given, else `MissingFeeData`. -/
def feeOr (feeMinor : Json) (balanceTransactionId : Option String) : Except Exn ℤ :=
  match feeMinor with
  | .null => .error (.missingFeeData balanceTransactionId)
  | fee => liftM (money fee)

/-- The balance transaction of a charge; a payment intent carries it on its expanded
`latest_charge`. -/
def chargeBalanceTransaction (obj : Json) : Except PyError Json := do
  let bt ← obj.get "balance_transaction"
  match bt with
  | .null =>
      let latestCharge ← obj.get "latest_charge"
      match latestCharge with
      | .obj _ => latestCharge.get "balance_transaction"
      | _ => return .null
  | _ => return bt

/-- `int(bt["fee"])`. -/
def expandedFee (bt : Json) : Except PyError ℤ := do
  let fee ← bt.index "fee"
  fee.toInt

/-- `_charge_fee`. -/
def chargeFee (obj feeMinor : Json) : Except Exn ℤ := do
  let bt ← chargeBalanceTransaction obj
  match bt with
  | .obj _ => expandedFee bt
  | _ => feeOr feeMinor bt.str?

/-- `_dispute_fee`: the sum over the list when every balance transaction in it is expanded;
otherwise the fee parameter, and the first unexpanded id when there is none. -/
def disputeFee (obj feeMinor : Json) : Except Exn ℤ := do
  let v ← obj.get "balance_transactions"
  let bts ← if v.truthy then v.iter else .ok []
  if !bts.isEmpty && bts.all Json.isDict then
    let fees ← (bts.mapM expandedFee : Except PyError (List ℤ))
    return fees.sum
  else feeOr feeMinor (bts.findSome? Json.str?)

/-! ## The mapping -/

/-- `add`: an entry, unless its amount is zero. -/
def addEntry (currency account : String) (dir : Direction) (amount : ℤ) : List Entry :=
  if amount ≠ 0 then [⟨account, dir, amount, currency⟩] else []

/-- The three postings of a payment of `gross` with `fee`. -/
def chargeEntries (currency : String) (gross fee : ℤ) : List Entry :=
  addEntry currency "stripe_balance" .debit (gross - fee) ++
    addEntry currency "processing_fees" .debit fee ++
    addEntry currency "revenue" .credit gross

/-- The two postings of a refund. -/
def refundEntries (currency : String) (amount : ℤ) : List Entry :=
  addEntry currency "refunds_contra" .debit amount ++
    addEntry currency "stripe_balance" .credit amount

/-- The three postings of a dispute. -/
def disputeEntries (currency : String) (amount fee : ℤ) : List Entry :=
  addEntry currency "dispute_losses" .debit amount ++
    addEntry currency "processing_fees" .debit fee ++
    addEntry currency "stripe_balance" .credit (amount + fee)

/-- The two postings of a payout. -/
def payoutEntries (currency : String) (amount : ℤ) : List Entry :=
  addEntry currency "bank" .debit amount ++
    addEntry currency "stripe_balance" .credit amount

/-- The amount of a `charge.refunded` event: the newest refund's own, or the charge's
cumulative `amount_refunded` when the list or the amount is absent. -/
def refundAmount (obj : Json) : Except PyError Json := do
  match ← newestRefund obj with
  | some refund =>
      if refund.hasKey "amount" then refund.index "amount" else obj.index "amount_refunded"
  | none => obj.index "amount_refunded"

/-- The entries of an event of a mapped type. -/
def mapEntries (type : String) (obj feeMinor : Json) (currency : String) :
    Except Exn (List Entry) := do
  if type = "charge.succeeded" ∨ type = "payment_intent.succeeded" then
    let gross ← obj.index
      (if type = "payment_intent.succeeded" then "amount_received" else "amount")
    let fee ← chargeFee obj feeMinor
    return chargeEntries currency (← money gross) fee
  else if type = "charge.refunded" then
    let amount ← refundAmount obj
    return refundEntries currency (← money amount)
  else if type = "charge.dispute.created" then
    let amount ← obj.index "amount"
    let fee ← disputeFee obj feeMinor
    return disputeEntries currency (← money amount) fee
  else
    let amount ← obj.index "amount"
    return payoutEntries currency (← money amount)

/-- The types `build_transaction` maps to a transaction. -/
def mappedTypes : List String :=
  ["charge.succeeded", "payment_intent.succeeded", "charge.refunded", "charge.dispute.created",
    "payout.paid"]

/-- `obj["currency"].upper()`. -/
def eventCurrency (obj : Json) : Except PyError String := do
  match ← obj.index "currency" with
  | .str s => return upper s
  | _ => throw (.attributeError "upper")

/-- `datetime.fromtimestamp(created, tz=UTC)`, for the years 1 to 9999 a `datetime` has. -/
def fromTimestamp (created : Json) : Except PyError ℤ :=
  match created with
  | .int n =>
      if -62135596800 ≤ n ∧ n ≤ 253402300799 then .ok n
      else .error (.valueError "year is out of range")
  | _ => .error .typeError

section

variable (uuid5 : String → Uuid)

/-- `build_transaction`: `None` for `invoice.payment_failed`, an exception for a type that is
not mapped or a fee that cannot be resolved.  `feeMinor` is `Json.null` when not given. -/
def buildTransaction (e : Event) (feeMinor : Json) : Except Exn (Option LedgerTransaction) := do
  let data ← e.payload.index "data"
  let obj ← data.index "object"
  if e.type = "invoice.payment_failed" then return none
  if e.type ∉ mappedTypes then
    throw (.builtin (.valueError ("unhandled event type: " ++ e.type)))
  let currency ← eventCurrency obj
  let entries ← mapEntries e.type obj feeMinor currency
  let created ← e.payload.index "created"
  let occurredAt ← fromTimestamp created
  let objectId ← moneyMovementObjectId e
  return some
    { id := uuid5 ("ledgerproof:" ++ e.id)
      occurredAt := occurredAt
      entries := entries
      stripeEventId := some e.id
      stripeObjectId := objectId
      eventType := some e.type
      memo := none }

/-- An injective function with the values of `uuid.uuid5(NAMESPACE_URL, ·)` at the names of
three events, for the runs that are evaluated. -/
def sampleUuid5 : String → Uuid :=
  ⇑(Equiv.swap "ledgerproof:evt_1" "87d10987-1960-5911-8feb-38c7c4e57114" *
    Equiv.swap "ledgerproof:evt_2" "db73517c-1fe5-54a1-8dfd-53c91acaa306" *
    Equiv.swap "ledgerproof:evt_3" "aa79c509-b7d2-5903-984c-6aa2afb2e2a4")

lemma sampleUuid5_injective : Function.Injective sampleUuid5 := Equiv.injective _

/-! ## What a mapped transaction carries -/

variable {uuid5}

/-- **The mapping, inverted.** A transaction it returns has the event's identity and the entries
of its type, and its object id is the money movement's. -/
lemma buildTransaction_some {e : Event} {feeMinor : Json} {txn : LedgerTransaction}
    (h : buildTransaction uuid5 e feeMinor = .ok (some txn)) :
    ∃ data obj currency entries occurredAt objectId,
      e.payload.index "data" = .ok data ∧ data.index "object" = .ok obj ∧
      e.type ≠ "invoice.payment_failed" ∧ e.type ∈ mappedTypes ∧
      eventCurrency obj = .ok currency ∧
      mapEntries e.type obj feeMinor currency = .ok entries ∧
      moneyMovementObjectId e = .ok objectId ∧
      txn = ⟨uuid5 ("ledgerproof:" ++ e.id), occurredAt, entries, some e.id, objectId,
        some e.type, none⟩ := by
  unfold buildTransaction at h
  cases hdata : e.payload.index "data" with
  | error err => simp [hdata] at h
  | ok data =>
  cases hobj : data.index "object" with
  | error err => simp [hdata, hobj] at h
  | ok obj =>
  by_cases hinv : e.type = "invoice.payment_failed"
  · simp [hdata, hobj, hinv, pure, Except.pure] at h
  by_cases hmapped : e.type ∈ mappedTypes
  swap
  · simp [hdata, hobj, hinv, hmapped, throw, throwThe, MonadExceptOf.throw] at h
  cases hcur : eventCurrency obj with
  | error err => simp [hdata, hobj, hinv, hmapped, hcur] at h
  | ok currency =>
  cases hent : mapEntries e.type obj feeMinor currency with
  | error err => simp [hdata, hobj, hinv, hmapped, hcur, hent] at h
  | ok entries =>
  cases hcr : e.payload.index "created" with
  | error err => simp [hdata, hobj, hinv, hmapped, hcur, hent, hcr] at h
  | ok created =>
  cases hts : fromTimestamp created with
  | error err => simp [hdata, hobj, hinv, hmapped, hcur, hent, hcr, hts] at h
  | ok occurredAt =>
  cases hid : moneyMovementObjectId e with
  | error err => simp [hdata, hobj, hinv, hmapped, hcur, hent, hcr, hts, hid] at h
  | ok objectId =>
  simp only [hdata, hobj, hinv, hmapped, hcur, hent, hcr, hts, hid, liftM_py_ok, except_ok_bind,
    not_true_eq_false, if_false, pure, Except.pure, Except.ok.injEq, Option.some.injEq] at h
  exact ⟨data, obj, currency, entries, occurredAt, objectId, rfl, hobj, hinv, hmapped, hcur, hent,
    rfl, h.symm⟩

lemma buildTransaction_none {e : Event} {feeMinor : Json}
    (h : buildTransaction uuid5 e feeMinor = .ok none) : e.type = "invoice.payment_failed" := by
  by_contra hinv
  unfold buildTransaction at h
  simp only [hinv, if_false] at h
  obtain ⟨data, -, h⟩ := except_bind_eq_ok.mp h
  obtain ⟨obj, -, h⟩ := except_bind_eq_ok.mp h
  split_ifs at h with hmapped
  · obtain ⟨currency, -, h⟩ := except_bind_eq_ok.mp h
    obtain ⟨entries, -, h⟩ := except_bind_eq_ok.mp h
    obtain ⟨created, -, h⟩ := except_bind_eq_ok.mp h
    obtain ⟨occurredAt, -, h⟩ := except_bind_eq_ok.mp h
    obtain ⟨objectId, -, h⟩ := except_bind_eq_ok.mp h
    simp [pure, Except.pure] at h
  · simp [throw, throwThe, MonadExceptOf.throw] at h

/-! ## Envelopes around an object -/

/-- The object id of an envelope whose `data` holds an object. -/
lemma moneyMovementObjectId_of_lookup {e : Event} {object : List (String × Json)}
    {rid : Option String} (hdata : e.fields.lookup "data" = some (.obj [("object", .obj object)]))
    (hrefund : refundId e.type (.obj object) = .ok rid) :
    moneyMovementObjectId e = .ok (rid.or ((object.lookup "id").getD .null).str?) := by
  unfold moneyMovementObjectId
  rw [Event.getD_payload _ (by decide) (by decide)]
  cases rid <;> simp [hdata, hrefund, pure, Except.pure]

/-- Mapping a well-formed envelope of a mapped type is mapping its entries. -/
lemma buildTransaction_of_lookup {e : Event} {currency : String} {created : ℤ}
    {object : List (String × Json)} {feeMinor : Json} {oid : Option String}
    (hmapped : e.type ∈ mappedTypes)
    (hdata : e.fields.lookup "data" = some (.obj [("object", .obj object)]))
    (hcurrency : object.lookup "currency" = some (.str currency))
    (hcreated : e.fields.lookup "created" = some (.int created))
    (hrange : -62135596800 ≤ created ∧ created ≤ 253402300799)
    (hoid : moneyMovementObjectId e = .ok oid) :
    buildTransaction uuid5 e feeMinor =
      (mapEntries e.type (.obj object) feeMinor (upper currency)).map fun entries =>
        some ⟨uuid5 ("ledgerproof:" ++ e.id), created, entries, some e.id, oid, some e.type,
          none⟩ := by
  have hne : e.type ≠ "invoice.payment_failed" := by
    intro htype
    rw [htype] at hmapped
    revert hmapped
    decide
  have hindex : e.payload.index "data" = .ok (.obj [("object", .obj object)]) := by
    rw [Event.index_payload _ (by decide) (by decide)]
    simp [Json.index, hdata]
  have hobject : (Json.obj [("object", Json.obj object)]).index "object" = .ok (.obj object) := by
    simp [Json.index]
  have hcur : eventCurrency (.obj object) = .ok (upper currency) := by
    simp [eventCurrency, Json.index, hcurrency, pure, Except.pure]
  have hcr : e.payload.index "created" = .ok (.int created) := by
    rw [Event.index_payload _ (by decide) (by decide)]
    simp [Json.index, hcreated]
  have htime : fromTimestamp (.int created) = .ok created := if_pos hrange
  unfold buildTransaction
  simp only [hindex, hobject, liftM_py_ok, except_ok_bind, hne, if_false, hmapped,
    not_true_eq_false, hcur]
  cases mapEntries e.type (.obj object) feeMinor (upper currency) with
  | error err => rfl
  | ok entries => simp [hcr, htime, hoid, Except.map, pure, Except.pure]

/-- An envelope with the timestamp and object the mapping reads, and any other fields. -/
def Event.ofObject (id type : String) (created : ℤ) (object envelope : List (String × Json)) :
    Event :=
  ⟨id, type, ("created", .int created) :: ("data", .obj [("object", .obj object)]) :: envelope⟩

lemma Event.lookup_data_ofObject (id type : String) (created : ℤ)
    (object envelope : List (String × Json)) :
    (Event.ofObject id type created object envelope).fields.lookup "data" =
      some (.obj [("object", .obj object)]) := by
  simp [Event.ofObject, List.lookup_cons]

lemma moneyMovementObjectId_ofObject {id type : String} {created : ℤ}
    {object envelope : List (String × Json)} {rid : Option String}
    (hrefund : refundId type (.obj object) = .ok rid) :
    moneyMovementObjectId (.ofObject id type created object envelope) =
      .ok (rid.or ((object.lookup "id").getD .null).str?) :=
  moneyMovementObjectId_of_lookup (Event.lookup_data_ofObject id type created object envelope)
    hrefund

lemma buildTransaction_ofObject {id type currency : String} {created : ℤ}
    {object envelope : List (String × Json)} {feeMinor : Json} {oid : Option String}
    (hmapped : type ∈ mappedTypes) (hcurrency : object.lookup "currency" = some (.str currency))
    (hcreated : -62135596800 ≤ created ∧ created ≤ 253402300799)
    (hoid : moneyMovementObjectId (.ofObject id type created object envelope) = .ok oid) :
    buildTransaction uuid5 (.ofObject id type created object envelope) feeMinor =
      (mapEntries type (.obj object) feeMinor (upper currency)).map fun entries =>
        some ⟨uuid5 ("ledgerproof:" ++ id), created, entries, some id, oid, some type, none⟩ :=
  buildTransaction_of_lookup hmapped (Event.lookup_data_ofObject id type created object envelope)
    hcurrency
    (by simp [Event.ofObject]) hcreated hoid

end

end LedgerProof
