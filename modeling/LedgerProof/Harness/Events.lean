import LedgerProof.Ingest.Webhook
import LedgerProof.Pipeline.Batch
import LedgerProof.StripeIo.Movement

/-!
# Event fixtures

`harness/events.py`: Stripe event envelopes with what posting them should do to the ledger.  The
expected change is worked out here from the double-entry table, not from the mapping under test, and
`EventFixture.Faithful` is what the rest of the development uses of a fixture: the worker maps its
event to the transaction with exactly that change.

Ids are made from one sequence number, `ch_h000001` and `evt_h000001`, and differ where the numbers
do (`seqTag_injective`).  A number of more than 4300 digits has no text in Python, which bounds the
size of every body.
-/

namespace LedgerProof.Harness

/-! ## The expected change -/

/-- `ACCOUNT_NORMALS`. -/
def accountNormals : Dict String Direction :=
  ⟨[("stripe_balance", .debit), ("bank", .debit), ("processing_fees", .debit),
    ("dispute_losses", .debit), ("refunds_contra", .debit), ("revenue", .credit),
    ("customer_liability", .credit)], by decide⟩

/-- `signed_delta`, for an account of the table. -/
def signedDelta (account : String) (dir : Direction) (amountMinor : ℤ) : ℤ :=
  if accountNormals.get? account = some dir then amountMinor else -amountMinor

/-- `_delta`. -/
def delta (entries : List (String × Direction × ℤ)) : Dict String ℤ :=
  Dict.empty.tally (·.1) (fun e => signedDelta e.1 e.2.1 e.2.2) (entries.filter fun e => e.2.2 ≠ 0)

/-! ## Fixtures -/

/-- `ALL_KINDS`. -/
inductive EventKind
  | chargeSucceeded
  | chargeRefunded
  | disputeCreated
  | payoutPaid
  | invoicePaymentFailed
  deriving DecidableEq, Repr

/-- An event envelope, as its id and the fields after it, with what posting it should do. -/
structure EventFixture where
  eventId : String
  fields : List (String × Json)
  kind : EventKind
  expectedDelta : Dict String ℤ

/-- The dictionary that is delivered. -/
def EventFixture.event (fx : EventFixture) : Json := .obj (("id", .str fx.eventId) :: fx.fields)

/-- `serialize`. -/
def serialize (event : Json) : List UInt8 := utf8 event.dumps

/-- `_sibling_id`: the part after the first underscore, under another name. -/
def siblingId (base name : String) : String :=
  match partition '_' base.toList with
  | (_, some suffix) => name ++ "_" ++ String.ofList suffix
  | (_, none) => name ++ "_" ++ base

/-- `_envelope`, without the id. -/
def envelope (eventType : String) (obj : List (String × Json)) (created : ℤ) :
    List (String × Json) :=
  [("object", .str "event"),
    ("api_version", .str "2025-06-30.basil"),
    ("created", .int created),
    ("data", .obj [("object", .obj obj)]),
    ("livemode", .bool false),
    ("pending_webhooks", .int 1),
    ("request", .obj [("id", .null), ("idempotency_key", .null)]),
    ("type", .str eventType)]

/-- `_balance_transaction`. -/
def balanceTransaction (btId source : String) (amount fee created : ℤ)
    (currency reportingCategory btType : String) : Json :=
  .obj [
    ("id", .str btId),
    ("object", .str "balance_transaction"),
    ("amount", .int amount),
    ("available_on", .int (created + 172800)),
    ("created", .int created),
    ("currency", .str currency),
    ("description", .null),
    ("exchange_rate", .null),
    ("fee", .int fee),
    ("fee_details", .arr (if fee ≠ 0 then [.obj [
      ("amount", .int fee),
      ("application", .null),
      ("currency", .str currency),
      ("description", .str "Stripe processing fees"),
      ("type", .str "stripe_fee")]] else [])),
    ("net", .int (amount - fee)),
    ("reporting_category", .str reportingCategory),
    ("source", .str source),
    ("status", .str "available"),
    ("type", .str btType)]

/-- The charge of `make_charge_succeeded`. -/
def chargeObject (chargeId : String) (amount fee created : ℤ) (currency : String) :
    List (String × Json) :=
  [("id", .str chargeId),
    ("object", .str "charge"),
    ("amount", .int amount),
    ("amount_captured", .int amount),
    ("amount_refunded", .int 0),
    ("application_fee_amount", .null),
    ("balance_transaction",
      balanceTransaction (siblingId chargeId "txn") chargeId amount fee created currency "charge"
      "charge"),
    ("captured", .bool true),
    ("created", .int created),
    ("currency", .str currency),
    ("customer", .str (siblingId chargeId "cus")),
    ("description", .str "LedgerProof chaos harness"),
    ("disputed", .bool false),
    ("failure_code", .null),
    ("failure_message", .null),
    ("livemode", .bool false),
    ("metadata", .obj []),
    ("paid", .bool true),
    ("payment_intent", .str (siblingId chargeId "pi")),
    ("payment_method", .str (siblingId chargeId "pm")),
    ("payment_method_details", .obj [
      ("card", .obj [
        ("brand", .str "visa"),
        ("country", .str "US"),
        ("exp_month", .int 12),
        ("exp_year", .int 2030),
        ("funding", .str "credit"),
        ("last4", .str "4242"),
        ("network", .str "visa")]),
      ("type", .str "card")]),
    ("refunded", .bool false),
    ("refunds", .obj [
      ("object", .str "list"),
      ("data", .arr []),
      ("has_more", .bool false),
      ("total_count", .int 0),
      ("url", .str ("/v1/charges/" ++ chargeId ++ "/refunds"))]),
    ("status", .str "succeeded")]

/-- `make_charge_succeeded`. -/
def makeChargeSucceeded (eventId chargeId : String) (amount fee created : ℤ) (currency : String) :
    EventFixture where
  eventId := eventId
  fields := envelope "charge.succeeded" (chargeObject chargeId amount fee created currency) created
  kind := .chargeSucceeded
  expectedDelta := delta [
    ("stripe_balance", .debit, amount - fee),
    ("processing_fees", .debit, fee),
    ("revenue", .credit, amount)]

/-- The refunded charge of `make_charge_refunded`, with the refund newest first. -/
def refundedChargeObject (chargeId refundId : String) (amount refunded created : ℤ)
    (currency : String) :
    List (String × Json) :=
  [("id", .str chargeId),
    ("object", .str "charge"),
    ("amount", .int amount),
    ("amount_captured", .int amount),
    ("amount_refunded", .int refunded),
    ("captured", .bool true),
    ("created", .int created),
    ("currency", .str currency),
    ("customer", .str (siblingId chargeId "cus")),
    ("disputed", .bool false),
    ("livemode", .bool false),
    ("metadata", .obj []),
    ("paid", .bool true),
    ("payment_intent", .str (siblingId chargeId "pi")),
    ("refunded", .bool (amount ≤ refunded)),
    ("refunds", .obj [
      ("object", .str "list"),
      ("data", .arr [.obj [
        ("id", .str refundId),
        ("object", .str "refund"),
        ("amount", .int refunded),
        ("balance_transaction", .str (siblingId refundId "txn")),
        ("charge", .str chargeId),
        ("created", .int created),
        ("currency", .str currency),
        ("metadata", .obj []),
        ("payment_intent", .str (siblingId chargeId "pi")),
        ("reason", .null),
        ("receipt_number", .null),
        ("status", .str "succeeded")]]),
      ("has_more", .bool false),
      ("total_count", .int 1),
      ("url", .str ("/v1/charges/" ++ chargeId ++ "/refunds"))]),
    ("status", .str "succeeded")]

/-- `make_charge_refunded`. -/
def makeChargeRefunded (eventId chargeId refundId : String) (amount refunded created : ℤ)
    (currency : String) : EventFixture where
  eventId := eventId
  fields := envelope "charge.refunded"
    (refundedChargeObject chargeId refundId amount refunded created currency) created
  kind := .chargeRefunded
  expectedDelta := delta [
    ("refunds_contra", .debit, refunded),
    ("stripe_balance", .credit, refunded)]

/-- The dispute of `make_dispute_created`. -/
def disputeObject (disputeId chargeId : String) (amount fee created : ℤ) (currency : String) :
    List (String × Json) :=
  [("id", .str disputeId),
    ("object", .str "dispute"),
    ("amount", .int amount),
    ("balance_transactions",
      .arr [balanceTransaction (siblingId disputeId "txn") disputeId (-amount) fee created currency
        "dispute" "adjustment"]),
    ("charge", .str chargeId),
    ("created", .int created),
    ("currency", .str currency),
    ("evidence_details", .obj [
      ("due_by", .int (created + 604800)),
      ("has_evidence", .bool false),
      ("past_due", .bool false),
      ("submission_count", .int 0)]),
    ("is_charge_refundable", .bool false),
    ("livemode", .bool false),
    ("metadata", .obj []),
    ("payment_intent", .str (siblingId chargeId "pi")),
    ("reason", .str "fraudulent"),
    ("status", .str "needs_response")]

/-- `make_dispute_created`. -/
def makeDisputeCreated (eventId disputeId chargeId : String) (amount fee created : ℤ)
    (currency : String) : EventFixture where
  eventId := eventId
  fields := envelope "charge.dispute.created"
    (disputeObject disputeId chargeId amount fee created currency) created
  kind := .disputeCreated
  expectedDelta := delta [
    ("dispute_losses", .debit, amount),
    ("processing_fees", .debit, fee),
    ("stripe_balance", .credit, amount + fee)]

/-- The payout of `make_payout_paid`. -/
def payoutObject (payoutId : String) (amount created : ℤ) (currency : String) :
    List (String × Json) :=
  [("id", .str payoutId),
    ("object", .str "payout"),
    ("amount", .int amount),
    ("arrival_date", .int (created + 172800)),
    ("automatic", .bool true),
    ("balance_transaction", .str (siblingId payoutId "txn")),
    ("created", .int created),
    ("currency", .str currency),
    ("description", .str "STRIPE PAYOUT"),
    ("destination", .str (siblingId payoutId "ba")),
    ("failure_code", .null),
    ("failure_message", .null),
    ("livemode", .bool false),
    ("metadata", .obj []),
    ("method", .str "standard"),
    ("reconciliation_status", .str "completed"),
    ("source_type", .str "card"),
    ("status", .str "paid"),
    ("type", .str "bank_account")]

/-- `make_payout_paid`. -/
def makePayoutPaid (eventId payoutId : String) (amount created : ℤ) (currency : String) :
    EventFixture where
  eventId := eventId
  fields := envelope "payout.paid" (payoutObject payoutId amount created currency) created
  kind := .payoutPaid
  expectedDelta := delta [
    ("bank", .debit, amount),
    ("stripe_balance", .credit, amount)]

/-- The invoice of `make_invoice_payment_failed`. -/
def invoiceObject (invoiceId : String) (amount created : ℤ) (currency : String) :
    List (String × Json) :=
  [("id", .str invoiceId),
    ("object", .str "invoice"),
    ("amount_due", .int amount),
    ("amount_paid", .int 0),
    ("amount_remaining", .int amount),
    ("attempt_count", .int 1),
    ("attempted", .bool true),
    ("auto_advance", .bool true),
    ("billing_reason", .str "subscription_cycle"),
    ("charge", .null),
    ("collection_method", .str "charge_automatically"),
    ("created", .int created),
    ("currency", .str currency),
    ("customer", .str (siblingId invoiceId "cus")),
    ("livemode", .bool false),
    ("metadata", .obj []),
    ("next_payment_attempt", .int (created + 3600)),
    ("paid", .bool false),
    ("payment_intent", .str (siblingId invoiceId "pi")),
    ("status", .str "open"),
    ("subscription", .str (siblingId invoiceId "sub")),
    ("subtotal", .int amount),
    ("total", .int amount)]

/-- `make_invoice_payment_failed`: no money moved. -/
def makeInvoicePaymentFailed (eventId invoiceId : String) (amount created : ℤ) (currency : String) :
    EventFixture where
  eventId := eventId
  fields := envelope "invoice.payment_failed" (invoiceObject invoiceId amount created currency)
    created
  kind := .invoicePaymentFailed
  expectedDelta := .empty

/-! ## Ids from a sequence number -/

/-- `f"{n:0{width}d}"`, the sign being one of the places. -/
def padded (width : ℕ) (n : ℤ) : List Char :=
  if n < 0 then '-' :: (List.replicate (width - 1 - (natDecimal n.natAbs).length) '0' ++
    natDecimal n.natAbs)
  else List.replicate (width - (natDecimal n.natAbs).length) '0' ++ natDecimal n.natAbs

/-- `f"h{seq:06d}"`. -/
def seqTag (seq : ℤ) : Except PyError String :=
  if (natDecimal seq.natAbs).length ≤ maxStrDigits then .ok (String.ofList ('h' :: padded 6 seq))
  else .error (.valueError "Exceeds the limit (4300 digits) for integer string conversion")

example : seqTag 42 = .ok "h000042" ∧ seqTag (-7) = .ok "h-00007" := by decide

/-- The type of the events of a kind. -/
def EventKind.eventType : EventKind → String
  | .chargeSucceeded => "charge.succeeded"
  | .chargeRefunded => "charge.refunded"
  | .disputeCreated => "charge.dispute.created"
  | .payoutPaid => "payout.paid"
  | .invoicePaymentFailed => "invoice.payment_failed"

/-- What the object id of a kind starts with. -/
def EventKind.objectTag : EventKind → String
  | .chargeSucceeded => "ch_"
  | .chargeRefunded => "re_"
  | .disputeCreated => "dp_"
  | .payoutPaid => "po_"
  | .invoicePaymentFailed => "in_"

/-- `make`, with `_ids_for`, at the time `created`; each kind takes of the three amounts those it
has. -/
def make (kind : EventKind) (seq created amount fee refunded : ℤ) :
    Except PyError EventFixture := do
  let tag ← seqTag seq
  return match kind with
  | .chargeSucceeded => makeChargeSucceeded ("evt_" ++ tag) ("ch_" ++ tag) amount fee created "usd"
  | .chargeRefunded =>
      makeChargeRefunded ("evt_" ++ tag) ("ch_" ++ tag) ("re_" ++ tag) amount refunded created "usd"
  | .disputeCreated =>
      makeDisputeCreated ("evt_" ++ tag) ("dp_" ++ tag) ("ch_" ++ tag) amount fee created "usd"
  | .payoutPaid => makePayoutPaid ("evt_" ++ tag) ("po_" ++ tag) amount created "usd"
  | .invoicePaymentFailed =>
      makeInvoicePaymentFailed ("evt_" ++ tag) ("in_" ++ tag) amount created "usd"

/-! ## The expected change and the mapping -/

lemma accountNormals_seed :
    ∀ a ∈ seedChart.accounts, accountNormals.get? a.name = some a.normal := by
  decide

/-- What the entries of a movement come to on a seeded account. -/
lemma total_signedOn_entries (m : Movement) (currency : String) {a : Account}
    (ha : a ∈ seedChart.accounts) :
    total (Entry.signedOn a) ((m.entries currency).filter fun e => e.accountName = a.name) =
      (delta m.legs).getD a.name 0 := by
  have hnormal := accountNormals_seed a ha
  rw [Movement.entries_eq, List.filter_map, total_map, delta, Dict.getD_tally, Dict.getD_empty,
    zero_add]
  refine total_congr fun l hl => ?_
  have hname : l.1 = a.name := by simpa using (List.mem_filter.mp hl).2
  by_cases hdir : l.2.1 = a.normal
  · simp [Entry.signedOn, signedDelta, hname, hnormal, hdir]
  · simp [Entry.signedOn, signedDelta, hname, hnormal, hdir, Ne.symm hdir]

/-- **The expected change of a movement is the change its posting makes**, on every seeded
account. -/
lemma getD_delta_legs {m : Movement} {txn : LedgerTransaction} {W : Ledger} (currency : String)
    (hentries : txn.entries = m.entries currency) (hW : txn.writes seedChart = .ok W) {a : Account}
    (ha : a ∈ seedChart.accounts) : W.balanceMinor a = (delta m.legs).getD a.name 0 := by
  rw [LedgerTransaction.balanceMinor_writes hW ha, hentries]
  exact total_signedOn_entries m currency ha

lemma mem_keys_delta_legs {m : Movement} {name : String} (h : name ∈ (delta m.legs).keys) :
    name ∈ seedChart.accounts.map (·.name) := by
  rcases (Dict.mem_keys_tally _ _ _ _ _).mp h with h | ⟨l, hl, rfl⟩
  · simp [Dict.empty, Dict.keys] at h
  · obtain ⟨a, hfind, -⟩ := Movement.find_account (List.mem_filter.mp hl).1
    obtain ⟨ha, hname⟩ := Chart.find_mem hfind
    exact List.mem_map.mpr ⟨a, ha, hname⟩

/-! ## What ingest and the worker make of a fixture -/

/-- The event that ingest reads off an envelope. -/
def envelopeEvent (eventId eventType : String) (obj : List (String × Json)) (created : ℤ) : Event :=
  ⟨eventId, eventType,
    [("object", .str "event"),
      ("api_version", .str "2025-06-30.basil"),
      ("created", .int created),
      ("data", .obj [("object", .obj obj)]),
      ("livemode", .bool false),
      ("pending_webhooks", .int 1),
      ("request", .obj [("id", .null), ("idempotency_key", .null)])]⟩

lemma eventOf_envelope (eventId eventType : String) (obj : List (String × Json)) (created : ℤ) :
    eventOf (.obj (("id", .str eventId) :: envelope eventType obj created)) =
      some (envelopeEvent eventId eventType obj created) := rfl

lemma stripTraceContext_envelopeEvent (eventId eventType : String) (obj : List (String × Json))
    (created : ℤ) :
    stripTraceContext (envelopeEvent eventId eventType obj created) =
      envelopeEvent eventId eventType obj created := rfl

section

variable {uuid5 : String → Uuid} {eventId eventType : String} {obj : List (String × Json)}
  {created : ℤ}

lemma mapEvent_of_build {e : Event} {r : Option LedgerTransaction}
    (h : buildTransaction uuid5 e .null = .ok r) (client : Option Client) :
    mapEvent uuid5 client e = .ok r := by
  unfold mapEvent
  rw [h]

/-- **An envelope around an object that is a movement in dollars is posted as that movement.** -/
lemma envelopeEvent_posts {m : Movement} {oid : String} (hmapped : eventType ∈ mappedTypes)
    (htype : eventType ∈ handledEventTypes) (hcurrency : obj.lookup "currency" = some (.str "usd"))
    (hentries : mapEntries eventType (.obj obj) .null "USD" = .ok (m.entries "USD"))
    (hoid : moneyMovementObjectId (envelopeEvent eventId eventType obj created) = .ok (some oid))
    (hevent : NulFree eventId) (hobject : NulFree oid)
    (hcreated : -62135596800 ≤ created ∧ created ≤ 253402300799) (hbelow : m.Below)
    (haccept : m.Acceptable) :
    ∃ txn W, (envelopeEvent eventId eventType obj created).PostsAs uuid5 seedChart txn W ∧
      txn.entries = m.entries "USD" := by
  have hupper : upper "usd" = "USD" := by decide
  let txn : LedgerTransaction := ⟨uuid5 ("ledgerproof:" ++ eventId), created, m.entries "USD",
    some eventId, some oid, some eventType, none⟩
  have hbuild : buildTransaction uuid5 (envelopeEvent eventId eventType obj created) .null =
      .ok (some txn) := by
    rw [buildTransaction_of_lookup hmapped rfl hcurrency rfl hcreated hoid, hupper]
    change (mapEntries eventType _ _ _).map _ = _
    rw [hentries]
    rfl
  have hstorable : (envelopeEvent eventId eventType obj created).Storable := by
    refine ⟨hevent, fun oid' hoid' => ?_⟩
    rw [hoid] at hoid'
    cases hoid'
    exact hobject
  have haccepted : txn.Accepted seedChart := (Movement.accepted_iff rfl).mpr
    ⟨(Movement.acceptable_iff hbelow).mpr haccept,
      (buildTransaction_storable_iff hbuild).mpr hstorable⟩
  obtain ⟨W, hW⟩ := LedgerTransaction.writes_iff_accepted.mpr haccepted
  exact ⟨txn, W, ⟨htype, mapEvent_of_build hbuild, hW⟩, rfl⟩

end

/-! ## The texts of a fixture -/

lemma nulFree_of_plainText {n : ℕ} {s : String} (h : PlainText n s) : NulFree s := fun hmem =>
  absurd (h.plain _ hmem).1 (by decide)

lemma plainText_siblingId {n : ℕ} {base name : String} (hbase : PlainText 4310 base)
    (hname : PlainText n name) :
    PlainText (n + 1 + 4310) (siblingId base name) := by
  have hjoin : ∀ suffix : List Char, suffix.Sublist base.toList →
      PlainText (n + 1 + 4310) (name ++ "_" ++ String.ofList suffix) := by
    intro suffix hsub
    refine (hname.append (by decide)).append ⟨fun c hc => ?_, ?_⟩
    · rw [String.toList_ofList] at hc
      exact hbase.plain c (hsub.subset hc)
    · rw [String.toList_ofList]
      exact hsub.length_le.trans hbase.length_le
  unfold siblingId partition
  cases hdrop : base.toList.dropWhile (· ≠ '_') with
  | nil => simpa using hjoin base.toList (List.Sublist.refl _)
  | cons c cs =>
      have hsub : (c :: cs).Sublist base.toList := hdrop ▸ List.dropWhile_sublist _
      exact hjoin cs ((List.sublist_cons_self c cs).trans hsub)

lemma brief_str {s : String} (h : PlainText 4330 s) : (Json.str s).Brief 4330 := h

lemma brief_int {n : ℤ} (h : -1000000000000 ≤ n ∧ n ≤ 1000000000000) : (Json.int n).Brief 4330 := by
  have habs : |n| < 10 ^ 30 := abs_lt.mpr ⟨by omega, by omega⟩
  refine length_natDecimal_le (by norm_num) ?_
  rw [Int.abs_eq_natAbs] at habs
  exact_mod_cast habs

lemma briefFields_of_forall {fields : List (String × Json)}
    (hkeys : ∀ key ∈ fields.map Prod.fst, PlainText 30 key) (h : ∀ f ∈ fields, f.2.Brief 4330) :
    Json.BriefFields 4330 fields := by
  induction fields with
  | nil => trivial
  | cons f fields ih =>
      obtain ⟨key, value⟩ := f
      obtain ⟨hkey, hkeys⟩ := List.forall_mem_cons.mp hkeys
      obtain ⟨hvalue, h⟩ := List.forall_mem_cons.mp h
      exact ⟨⟨hkey, hvalue⟩, ih hkeys h⟩

lemma brief_obj {fields : List (String × Json)}
    (hkeys : (fields.map Prod.fst).Nodup ∧ ∀ key ∈ fields.map Prod.fst, PlainText 30 key)
    (h : ∀ f ∈ fields, f.2.Brief 4330) : (Json.obj fields).Brief 4330 :=
  ⟨hkeys.1, briefFields_of_forall hkeys.2 h⟩

lemma brief_empty : (Json.obj []).Brief 4330 := ⟨List.nodup_nil, trivial⟩

lemma brief_usd : (Json.str "usd").Brief 4330 := brief_str (by decide)

section

variable {id eventType chargeId refundId disputeId payoutId invoiceId : String}
  {obj : List (String × Json)}
  {amount fee refunded created : ℤ}

/-- The integers of a fixture are far from being too long. -/
structure Moderate (amount fee refunded created : ℤ) : Prop where
  amount_range : 0 < amount ∧ amount ≤ 1000000
  fee_range : 0 ≤ fee ∧ fee ≤ 1000000
  refunded_range : 0 ≤ refunded ∧ refunded ≤ 1000000
  created_range : 0 ≤ created ∧ created ≤ 253402300799

lemma brief_id (hid : PlainText 4310 id) :
    (Json.str id).Brief 4330 := brief_str (hid.mono (by norm_num))

lemma brief_siblingId (hid : PlainText 4310 id) {name : String} (hname : PlainText 19 name) :
    (Json.str (siblingId id name)).Brief 4330 := plainText_siblingId hid hname

lemma envelope_brief (hid : PlainText 4310 id) (htype : PlainText 4330 eventType)
    (h : Moderate amount fee refunded created) (hobj : (Json.obj obj).Brief 4330) :
    (Json.obj (("id", .str id) :: envelope eventType obj created)).Brief 4330 := by
  obtain ⟨-, -, -, hrange⟩ := h
  have hcreated : (Json.int created).Brief 4330 := brief_int (by omega)
  have hdata : (Json.obj [("object", .obj obj)]).Brief 4330 := by
    refine brief_obj ?_ (List.forall_mem_singleton.mpr hobj)
    simp only [List.map_cons, List.map_nil]
    decide
  have hrequest : (Json.obj [("id", .null), ("idempotency_key", .null)]).Brief 4330 := by
    refine brief_obj (by decide) ?_
    simp only [List.forall_mem_cons]
    exact ⟨trivial, trivial, List.forall_mem_nil _⟩
  refine brief_obj ?_ ?_
  · simp only [envelope, List.map_cons, List.map_nil]
    decide
  · simp only [envelope, List.forall_mem_cons]
    exact ⟨brief_id hid, brief_str (by decide), brief_str (by decide), hcreated, hdata, trivial,
      brief_int (by decide), hrequest, brief_str htype, List.forall_mem_nil _⟩

lemma feeDetails_brief (hfee : (Json.int fee).Brief 4330) : (Json.arr (if fee ≠ 0 then [.obj [
      ("amount", .int fee),
      ("application", .null),
      ("currency", .str "usd"),
      ("description", .str "Stripe processing fees"),
      ("type", .str "stripe_fee")]] else [])).Brief 4330 := by
  split_ifs
  · refine ⟨brief_obj ?_ ?_, trivial⟩
    · simp only [List.map_cons, List.map_nil]
      decide
    · simp only [List.forall_mem_cons]
      exact ⟨hfee, trivial, brief_usd, brief_str (by decide), brief_str (by decide),
        List.forall_mem_nil _⟩
  · trivial

lemma balanceTransaction_brief {btId source category btType : String} {gross : ℤ}
    (hbt : (Json.str btId).Brief 4330) (hsource : PlainText 4310 source)
    (hcategory : PlainText 30 category) (htype : PlainText 30 btType)
    (h : Moderate amount fee refunded created) (hgross : gross = amount ∨ gross = -amount) :
    (balanceTransaction btId source gross fee created "usd" category btType).Brief 4330 := by
  obtain ⟨hamount, hfee, -, hrange⟩ := h
  have hcreated : (Json.int created).Brief 4330 := brief_int (by omega)
  have havailable : (Json.int (created + 172800)).Brief 4330 := brief_int (by omega)
  have hgrossBrief : (Json.int gross).Brief 4330 := brief_int (by omega)
  have hfeeBrief : (Json.int fee).Brief 4330 := brief_int (by omega)
  have hnet : (Json.int (gross - fee)).Brief 4330 := brief_int (by omega)
  refine brief_obj ?_ ?_
  · simp only [List.map_cons, List.map_nil]
    decide
  · simp only [List.forall_mem_cons]
    exact ⟨hbt, brief_str (by decide), hgrossBrief, havailable, hcreated, brief_usd, trivial,
      trivial, hfeeBrief, feeDetails_brief hfeeBrief, hnet,
      brief_str (hcategory.mono (by norm_num)), brief_id hsource, brief_str (by decide),
      brief_str (htype.mono (by norm_num)), List.forall_mem_nil _⟩

lemma plainText_refundsUrl (hid : PlainText 4310 chargeId) :
    PlainText 4330 ("/v1/charges/" ++ chargeId ++ "/refunds") :=
  (PlainText.append (m := 12) (by decide) hid).append (n := 8) (by decide)

lemma refunds_brief (hid : PlainText 4310 chargeId) (data : List Json)
    (hdata : (Json.arr data).Brief 4330) {n : ℤ} (hn : 0 ≤ n ∧ n ≤ 1) :
    (Json.obj [
      ("object", .str "list"),
      ("data", .arr data),
      ("has_more", .bool false),
      ("total_count", .int n),
      ("url", .str ("/v1/charges/" ++ chargeId ++ "/refunds"))]).Brief 4330 := by
  refine brief_obj ?_ ?_
  · simp only [List.map_cons, List.map_nil]
    decide
  · simp only [List.forall_mem_cons]
    exact ⟨brief_str (by decide), hdata, trivial, brief_int (by omega),
      brief_str (plainText_refundsUrl hid), List.forall_mem_nil _⟩

lemma card_brief : (Json.obj [
      ("card", .obj [
        ("brand", .str "visa"),
        ("country", .str "US"),
        ("exp_month", .int 12),
        ("exp_year", .int 2030),
        ("funding", .str "credit"),
        ("last4", .str "4242"),
        ("network", .str "visa")]),
      ("type", .str "card")]).Brief 4330 := by
  refine brief_obj (by decide) ?_
  simp only [List.forall_mem_cons]
  refine ⟨brief_obj (by decide) ?_, brief_str (by decide), List.forall_mem_nil _⟩
  simp only [List.forall_mem_cons]
  exact ⟨brief_str (by decide), brief_str (by decide), brief_int (by decide), brief_int (by decide),
    brief_str (by decide), brief_str (by decide), brief_str (by decide), List.forall_mem_nil _⟩

lemma chargeObject_brief (hid : PlainText 4310 chargeId)
    (h : Moderate amount fee refunded created) :
    (Json.obj (chargeObject chargeId amount fee created "usd")).Brief 4330 := by
  have hbt : (balanceTransaction (siblingId chargeId "txn") chargeId amount fee created "usd"
      "charge" "charge").Brief 4330 :=
    balanceTransaction_brief (brief_siblingId hid (by decide)) hid (by decide) (by decide) h
      (.inl rfl)
  obtain ⟨hrange, -, -, hcreatedRange⟩ := h
  have hamount : (Json.int amount).Brief 4330 := brief_int (by omega)
  have hcreated : (Json.int created).Brief 4330 := brief_int (by omega)
  refine brief_obj ?_ ?_
  · simp only [chargeObject, List.map_cons, List.map_nil]
    decide
  · simp only [chargeObject, List.forall_mem_cons]
    exact ⟨brief_id hid, brief_str (by decide), hamount, hamount, brief_int (by decide), trivial,
      hbt, trivial, hcreated, brief_usd, brief_siblingId hid (by decide), brief_str (by decide),
      trivial, trivial, trivial, trivial, brief_empty, trivial, brief_siblingId hid (by decide),
      brief_siblingId hid (by decide), card_brief, trivial,
      refunds_brief hid [] trivial (by decide), brief_str (by decide), List.forall_mem_nil _⟩

lemma refund_brief (hid : PlainText 4310 chargeId) (hrefund : PlainText 4310 refundId)
    (hrefunded : (Json.int refunded).Brief 4330) (hcreated : (Json.int created).Brief 4330) :
    (Json.obj [
      ("id", .str refundId),
      ("object", .str "refund"),
      ("amount", .int refunded),
      ("balance_transaction", .str (siblingId refundId "txn")),
      ("charge", .str chargeId),
      ("created", .int created),
      ("currency", .str "usd"),
      ("metadata", .obj []),
      ("payment_intent", .str (siblingId chargeId "pi")),
      ("reason", .null),
      ("receipt_number", .null),
      ("status", .str "succeeded")]).Brief 4330 := by
  refine brief_obj ?_ ?_
  · simp only [List.map_cons, List.map_nil]
    decide
  · simp only [List.forall_mem_cons]
    exact ⟨brief_id hrefund, brief_str (by decide), hrefunded, brief_siblingId hrefund (by decide),
      brief_id hid, hcreated, brief_usd, brief_empty, brief_siblingId hid (by decide), trivial,
      trivial, brief_str (by decide), List.forall_mem_nil _⟩

lemma refundedChargeObject_brief (hid : PlainText 4310 chargeId) (hrefund : PlainText 4310 refundId)
    (h : Moderate amount fee refunded created) :
    (Json.obj (refundedChargeObject chargeId refundId amount refunded created "usd")).Brief
    4330 := by
  obtain ⟨hrange, -, hrefundedRange, hcreatedRange⟩ := h
  have hamount : (Json.int amount).Brief 4330 := brief_int (by omega)
  have hrefunded : (Json.int refunded).Brief 4330 := brief_int (by omega)
  have hcreated : (Json.int created).Brief 4330 := brief_int (by omega)
  refine brief_obj ?_ ?_
  · simp only [refundedChargeObject, List.map_cons, List.map_nil]
    decide
  · simp only [refundedChargeObject, List.forall_mem_cons]
    exact ⟨brief_id hid, brief_str (by decide), hamount, hamount, hrefunded, trivial, hcreated,
      brief_usd, brief_siblingId hid (by decide), trivial, trivial, brief_empty, trivial,
      brief_siblingId hid (by decide), trivial,
      refunds_brief hid [_] ⟨refund_brief hid hrefund hrefunded hcreated, trivial⟩ (by decide),
      brief_str (by decide), List.forall_mem_nil _⟩

lemma disputeObject_brief (hid : PlainText 4310 disputeId) (hcharge : PlainText 4310 chargeId)
    (h : Moderate amount fee refunded created) :
    (Json.obj (disputeObject disputeId chargeId amount fee created "usd")).Brief 4330 := by
  have hbt : (balanceTransaction (siblingId disputeId "txn") disputeId (-amount) fee created "usd"
      "dispute" "adjustment").Brief 4330 :=
    balanceTransaction_brief (brief_siblingId hid (by decide)) hid (by decide) (by decide) h
      (.inr rfl)
  obtain ⟨hrange, -, -, hcreatedRange⟩ := h
  have hamount : (Json.int amount).Brief 4330 := brief_int (by omega)
  have hcreated : (Json.int created).Brief 4330 := brief_int (by omega)
  have hevidence : (Json.obj [
      ("due_by", .int (created + 604800)),
      ("has_evidence", .bool false),
      ("past_due", .bool false),
      ("submission_count", .int 0)]).Brief 4330 := by
    refine brief_obj ?_ ?_
    · simp only [List.map_cons, List.map_nil]
      decide
    · simp only [List.forall_mem_cons]
      exact ⟨brief_int (by omega), trivial, trivial, brief_int (by decide), List.forall_mem_nil _⟩
  refine brief_obj ?_ ?_
  · simp only [disputeObject, List.map_cons, List.map_nil]
    decide
  · simp only [disputeObject, List.forall_mem_cons]
    exact ⟨brief_id hid, brief_str (by decide), hamount, ⟨hbt, trivial⟩, brief_id hcharge, hcreated,
      brief_usd, hevidence, trivial, trivial, brief_empty, brief_siblingId hcharge (by decide),
      brief_str (by decide), brief_str (by decide), List.forall_mem_nil _⟩

lemma payoutObject_brief (hid : PlainText 4310 payoutId)
    (h : Moderate amount fee refunded created) :
    (Json.obj (payoutObject payoutId amount created "usd")).Brief 4330 := by
  obtain ⟨hrange, -, -, hcreatedRange⟩ := h
  have hamount : (Json.int amount).Brief 4330 := brief_int (by omega)
  have hcreated : (Json.int created).Brief 4330 := brief_int (by omega)
  have harrival : (Json.int (created + 172800)).Brief 4330 := brief_int (by omega)
  refine brief_obj ?_ ?_
  · simp only [payoutObject, List.map_cons, List.map_nil]
    decide
  · simp only [payoutObject, List.forall_mem_cons]
    exact ⟨brief_id hid, brief_str (by decide), hamount, harrival, trivial,
      brief_siblingId hid (by decide), hcreated, brief_usd, brief_str (by decide),
      brief_siblingId hid (by decide), trivial, trivial, trivial, brief_empty,
      brief_str (by decide), brief_str (by decide), brief_str (by decide), brief_str (by decide),
      brief_str (by decide), List.forall_mem_nil _⟩

lemma invoiceObject_brief (hid : PlainText 4310 invoiceId)
    (h : Moderate amount fee refunded created) :
    (Json.obj (invoiceObject invoiceId amount created "usd")).Brief 4330 := by
  obtain ⟨hrange, -, -, hcreatedRange⟩ := h
  have hamount : (Json.int amount).Brief 4330 := brief_int (by omega)
  have hcreated : (Json.int created).Brief 4330 := brief_int (by omega)
  have hattempt : (Json.int (created + 3600)).Brief 4330 := brief_int (by omega)
  refine brief_obj ?_ ?_
  · simp only [invoiceObject, List.map_cons, List.map_nil]
    decide
  · simp only [invoiceObject, List.forall_mem_cons]
    exact ⟨brief_id hid, brief_str (by decide), hamount, brief_int (by decide), hamount,
      brief_int (by decide), trivial, trivial, brief_str (by decide), trivial,
      brief_str (by decide), hcreated, brief_usd, brief_siblingId hid (by decide), trivial,
      brief_empty, hattempt, trivial, brief_siblingId hid (by decide), brief_str (by decide),
      brief_siblingId hid (by decide), hamount, hamount, List.forall_mem_nil _⟩

end

/-! ## Sequence numbers -/

lemma decimalValueOf_zeros (k : ℕ) (cs : List Char) :
    decimalValueOf (List.replicate k '0' ++ cs) = decimalValueOf cs := by
  have hzeros : (List.replicate k '0').map (fun c => c.toNat - 48) = List.replicate k 0 := by
    rw [List.map_replicate]
    rfl
  have hvalue : ∀ k, Nat.ofDigits 10 (List.replicate k 0) = 0 := by
    intro k
    induction k with
    | zero => rfl
    | succ k ih => rw [List.replicate_succ, Nat.ofDigits_cons, ih]
  rw [decimalValueOf, List.reverse_append, List.map_append, Nat.ofDigits_append,
    List.reverse_replicate, hzeros, hvalue, mul_zero, add_zero]
  rfl

lemma mem_padded {width : ℕ} {n : ℤ} {c : Char} (h : c ∈ padded width n) :
    c = '-' ∨ IsDecimal c := by
  have hzero : IsDecimal '0' := ⟨by decide, by decide⟩
  have hdigits : ∀ k, c ∈ List.replicate k '0' ++ natDecimal n.natAbs → IsDecimal c := by
    intro k hc
    rcases List.mem_append.mp hc with hc | hc
    · rw [List.eq_of_mem_replicate hc]
      exact hzero
    · exact natDecimal_isDecimal _ hc
  unfold padded at h
  split_ifs at h
  · rcases List.mem_cons.mp h with rfl | h
    · exact .inl rfl
    · exact .inr (hdigits _ h)
  · exact .inr (hdigits _ h)

lemma padded_injective (width : ℕ) : Function.Injective (padded width) := by
  have hminus : ∀ k n, '-' ∉ List.replicate k '0' ++ natDecimal n := by
    intro k n hmem
    rcases List.mem_append.mp hmem with h | h
    · exact absurd (List.eq_of_mem_replicate h) (by decide)
    · exact minus_not_mem_natDecimal n h
  have hvalue : ∀ {k k' m n}, List.replicate k '0' ++ natDecimal m = List.replicate k' '0' ++
      natDecimal n →
      m = n := by
    intro k k' m n h
    have := congrArg decimalValueOf h
    rwa [decimalValueOf_zeros, decimalValueOf_zeros, decimalValueOf_natDecimal,
      decimalValueOf_natDecimal] at this
  intro m n h
  unfold padded at h
  split_ifs at h with hm hn hn
  · have := hvalue (List.cons.inj h).2
    omega
  · exact absurd (h ▸ List.mem_cons_self) (hminus _ n.natAbs)
  · exact absurd (h ▸ List.mem_cons_self) (hminus _ m.natAbs)
  · have := hvalue h
    omega

lemma seqTag_eq_ok {seq : ℤ} {tag : String} (h : seqTag seq = .ok tag) :
    (natDecimal seq.natAbs).length ≤ maxStrDigits ∧ tag = String.ofList ('h' :: padded 6 seq) := by
  unfold seqTag at h
  split_ifs at h with hlength
  exact ⟨hlength, (Except.ok.inj h).symm⟩

/-- **Different numbers have different tags.** -/
lemma seqTag_injective {m n : ℤ} {tag : String} (hm : seqTag m = .ok tag)
    (hn : seqTag n = .ok tag) : m = n := by
  have htags := (seqTag_eq_ok hm).2.symm.trans (seqTag_eq_ok hn).2
  exact padded_injective 6 (List.cons.inj (String.ofList_injective htags)).2

lemma plainText_seqTag {seq : ℤ} {tag : String} (h : seqTag seq = .ok tag) :
    PlainText 4302 tag := by
  obtain ⟨hlength, rfl⟩ := seqTag_eq_ok h
  have hmax : maxStrDigits = 4300 := rfl
  refine ⟨fun c hc => ?_, ?_⟩
  · rw [String.toList_ofList] at hc
    rcases List.mem_cons.mp hc with rfl | hc
    · decide
    · rcases mem_padded hc with rfl | ⟨hlow, hhigh⟩
      · decide
      · refine ⟨by omega, by omega, ?_, ?_⟩
        · rintro rfl
          exact absurd hlow (by decide)
        · rintro rfl
          exact absurd hhigh (by decide)
  · rw [String.toList_ofList, List.length_cons, padded]
    split_ifs
    · simp only [List.length_cons, List.length_append, List.length_replicate]
      omega
    · simp only [List.length_append, List.length_replicate]
      omega

/-! ## Fixtures are faithful -/

/-- The event that ingest makes of a fixture. -/
def EventFixture.asEvent (fx : EventFixture) : Event := (eventOf fx.event).getD ⟨fx.eventId, "", []⟩

/-- What the rest of the development uses of a fixture: the event ingest makes of it, under its own
id or another, its object id, and that the worker posts it with the expected change. -/
structure EventFixture.Faithful (uuid5 : String → Uuid) (fx : EventFixture) (e : Event)
    (oid : String) : Prop where
  read : ∀ id, eventOf (.obj (("id", .str id) :: fx.fields)) = some { e with id := id }
  id_eq : e.id = fx.eventId
  plain : stripTraceContext e = e
  object : ∀ id, moneyMovementObjectId { e with id := id } = .ok (some oid)
  effect : (∃ txn W, e.PostsAs uuid5 seedChart txn W ∧ (∃ name, fx.expectedDelta.getD name 0 ≠ 0) ∧
      ∀ a ∈ seedChart.accounts, W.balanceMinor a = fx.expectedDelta.getD a.name 0) ∨
    (e.PostsNothing uuid5 ∧ fx.expectedDelta.items = [])
  moves : fx.kind ≠ .invoicePaymentFailed → ∃ name, fx.expectedDelta.getD name 0 ≠ 0
  accounts : ∀ name ∈ fx.expectedDelta.keys, name ∈ seedChart.accounts.map (·.name)
  brief : ∀ id, PlainText 4310 id → (Json.obj (("id", .str id) :: fx.fields)).Brief 4330
  tokens : ∀ id, (Json.obj (("id", .str id) :: fx.fields)).tokens ≤ 110

lemma EventFixture.Faithful.asEvent_eq {uuid5 : String → Uuid} {fx : EventFixture} {e : Event}
    {oid : String} (h : fx.Faithful uuid5 e oid) : fx.asEvent = e := by
  have hread := h.read fx.eventId
  rw [← h.id_eq] at hread
  rw [asEvent, event, ← h.id_eq, hread]
  rfl

section

variable {uuid5 : String → Uuid} {eventId eventType : String} {obj : List (String × Json)}
  {amount fee refunded created : ℤ}

lemma signedDelta_ne_zero {account : String} {dir : Direction} {amountMinor : ℤ}
    (h : amountMinor ≠ 0) :
    signedDelta account dir amountMinor ≠ 0 := by
  unfold signedDelta
  split_ifs
  · exact h
  · exact neg_ne_zero.mpr h

/-- A movement that is accepted changes some account. -/
lemma delta_legs_ne_zero {m : Movement} (haccept : m.Acceptable) :
    ∃ name, (delta m.legs).getD name 0 ≠ 0 := by
  simp only [delta, Dict.getD_tally, Dict.getD_empty, zero_add, List.filter_filter]
  cases m with
  | charge gross fee =>
      obtain ⟨hgross, -, -⟩ := haccept
      refine ⟨"revenue", ?_⟩
      simp [Movement.legs, hgross.ne', signedDelta_ne_zero]
  | refund amount =>
      refine ⟨"refunds_contra", ?_⟩
      simp [Movement.legs, ne_of_gt haccept, signedDelta_ne_zero]
  | dispute amount fee =>
      obtain ⟨-, -, hsum, -⟩ := haccept
      refine ⟨"stripe_balance", ?_⟩
      simp [Movement.legs, hsum.ne', signedDelta_ne_zero]
  | payout amount =>
      refine ⟨"bank", ?_⟩
      simp [Movement.legs, ne_of_gt haccept, signedDelta_ne_zero]

lemma objectId_envelope {rid : Option String} {oid : String}
    (hrefund : refundId eventType (.obj obj) = .ok rid)
    (hoid : rid.or ((obj.lookup "id").getD .null).str? = some oid) (id : String) :
    moneyMovementObjectId (envelopeEvent id eventType obj created) = .ok (some oid) := by
  rw [moneyMovementObjectId_of_lookup rfl hrefund, hoid]

/-- A fixture around an object that is a movement in dollars. -/
lemma faithful_of_movement {m : Movement} {oid : String} {kind : EventKind}
    (hmapped : eventType ∈ mappedTypes) (htype : eventType ∈ handledEventTypes)
    (hplain : PlainText 4330 eventType) (hcurrency : obj.lookup "currency" = some (.str "usd"))
    (hentries : mapEntries eventType (.obj obj) .null "USD" = .ok (m.entries "USD"))
    (hoid : ∀ id, moneyMovementObjectId (envelopeEvent id eventType obj created) = .ok (some oid))
    (hevent : NulFree eventId) (hobject : NulFree oid)
    (h : Moderate amount fee refunded created) (hbelow : m.Below) (haccept : m.Acceptable)
    (hbrief : (Json.obj obj).Brief 4330) (htokens : (Json.obj obj).tokens ≤ 95) :
    (⟨eventId, envelope eventType obj created, kind, delta m.legs⟩ : EventFixture).Faithful uuid5
      (envelopeEvent eventId eventType obj created) oid where
  read := fun id => eventOf_envelope id eventType obj created
  id_eq := rfl
  plain := stripTraceContext_envelopeEvent eventId eventType obj created
  object := hoid
  effect := by
    obtain ⟨hlow, hhigh⟩ := h.created_range
    obtain ⟨txn, W, hpost, hent⟩ := envelopeEvent_posts hmapped htype hcurrency hentries
      (hoid eventId)
      hevent hobject ⟨by omega, hhigh⟩ hbelow haccept
    refine .inl ⟨txn, W, hpost, delta_legs_ne_zero haccept, fun a ha => ?_⟩
    exact getD_delta_legs "USD" hent hpost.2.2 ha
  moves := fun _ => delta_legs_ne_zero haccept
  accounts := fun name hname => mem_keys_delta_legs hname
  brief := fun id hid => envelope_brief hid hplain h hbrief
  tokens := fun id => by
    change (Json.obj (("id", .str id) :: envelope eventType obj created)).tokens ≤ 110
    simp only [envelope, Json.tokens, Json.tokensFields, Json.tokensField] at htokens ⊢
    omega

variable {chargeId refundId disputeId payoutId invoiceId : String}

lemma faithful_charge (hevent : NulFree eventId) (hid : PlainText 4310 chargeId)
    (h : Moderate amount fee refunded created) (hfee : fee ≤ amount) :
    (makeChargeSucceeded eventId chargeId amount fee created "usd").Faithful uuid5
      (envelopeEvent eventId "charge.succeeded" (chargeObject chargeId amount fee created "usd")
        created)
      chargeId := by
  have htokens : (Json.obj (chargeObject chargeId amount fee created "usd")).tokens ≤ 95 := by
    simp only [chargeObject, balanceTransaction, Json.tokens, Json.tokensFields, Json.tokensField]
    split_ifs <;> simp only [Json.tokens, Json.tokensItems, Json.tokensFields, Json.tokensField] <;>
      omega
  have hamount := h.amount_range
  have hfee' := h.fee_range
  exact faithful_of_movement (m := .charge amount fee) (by decide) (by decide) (by decide) rfl rfl
    (objectId_envelope rfl rfl) hevent (nulFree_of_plainText hid) h
    ⟨abs_lt.mpr ⟨by omega, by omega⟩, abs_lt.mpr ⟨by omega, by omega⟩⟩ ⟨hamount.1, hfee'.1, hfee⟩
    (chargeObject_brief hid h) htokens

lemma faithful_refund (hevent : NulFree eventId) (hid : PlainText 4310 chargeId)
    (hrefund : PlainText 4310 refundId) (h : Moderate amount fee refunded created)
    (hpos : 0 < refunded) :
    (makeChargeRefunded eventId chargeId refundId amount refunded created "usd").Faithful uuid5
      (envelopeEvent eventId "charge.refunded"
        (refundedChargeObject chargeId refundId amount refunded created "usd") created)
          refundId := by
  have htokens : (Json.obj
      (refundedChargeObject chargeId refundId amount refunded created "usd")).tokens ≤ 95 := by
    simp only [refundedChargeObject, Json.tokens, Json.tokensItems, Json.tokensFields,
      Json.tokensField]
    omega
  have hrefunded := h.refunded_range
  exact faithful_of_movement (m := .refund refunded) (by decide) (by decide) (by decide) rfl rfl
    (objectId_envelope rfl rfl) hevent (nulFree_of_plainText hrefund) h
      (abs_lt.mpr ⟨by omega, by omega⟩) hpos
    (refundedChargeObject_brief hid hrefund h) htokens

lemma faithful_dispute (hevent : NulFree eventId) (hid : PlainText 4310 disputeId)
    (hcharge : PlainText 4310 chargeId) (h : Moderate amount fee refunded created) :
    (makeDisputeCreated eventId disputeId chargeId amount fee created "usd").Faithful uuid5
      (envelopeEvent eventId "charge.dispute.created"
        (disputeObject disputeId chargeId amount fee created "usd") created) disputeId := by
  have htokens : (Json.obj (disputeObject disputeId chargeId amount fee created "usd")).tokens ≤
      95 := by
    simp only [disputeObject, balanceTransaction, Json.tokens, Json.tokensItems, Json.tokensFields,
      Json.tokensField]
    split_ifs <;> simp only [Json.tokens, Json.tokensItems, Json.tokensFields, Json.tokensField] <;>
      omega
  have hentries : mapEntries "charge.dispute.created"
      (.obj (disputeObject disputeId chargeId amount fee created "usd")) .null "USD" =
        .ok ((Movement.dispute amount (fee + 0)).entries "USD") := rfl
  rw [add_zero] at hentries
  have hmax : bigintMax = 2 ^ 63 - 1 := by decide
  have hamount := h.amount_range
  have hfee := h.fee_range
  exact faithful_of_movement (m := .dispute amount fee) (by decide) (by decide)
    (by decide) rfl hentries
    (objectId_envelope rfl rfl) hevent (nulFree_of_plainText hid) h
      (abs_lt.mpr ⟨by omega, by omega⟩)
    ⟨hamount.1.le, hfee.1, by omega, by omega⟩ (disputeObject_brief hid hcharge h) htokens

lemma faithful_payout (hevent : NulFree eventId) (hid : PlainText 4310 payoutId)
    (h : Moderate amount fee refunded created) :
    (makePayoutPaid eventId payoutId amount created "usd").Faithful uuid5
      (envelopeEvent eventId "payout.paid" (payoutObject payoutId amount created "usd") created)
        payoutId := by
  have htokens : (Json.obj (payoutObject payoutId amount created "usd")).tokens ≤ 95 := by
    simp only [payoutObject, Json.tokens, Json.tokensFields, Json.tokensField]
    omega
  have hamount := h.amount_range
  exact faithful_of_movement (m := .payout amount) (by decide) (by decide) (by decide) rfl rfl
    (objectId_envelope rfl rfl) hevent (nulFree_of_plainText hid) h
      (abs_lt.mpr ⟨by omega, by omega⟩) hamount.1 (payoutObject_brief hid h) htokens

lemma faithful_invoice (hid : PlainText 4310 invoiceId) (h : Moderate amount fee refunded created) :
    (makeInvoicePaymentFailed eventId invoiceId amount created "usd").Faithful uuid5
      (envelopeEvent eventId "invoice.payment_failed" (invoiceObject invoiceId amount created "usd")
        created)
      invoiceId where
  read := fun id => eventOf_envelope id "invoice.payment_failed" _ created
  id_eq := rfl
  plain := rfl
  object := objectId_envelope rfl rfl
  effect := .inr ⟨fun _ client => mapEvent_of_build rfl client, rfl⟩
  moves := fun hkind => absurd rfl hkind
  accounts := fun name hname => by simp [makeInvoicePaymentFailed, Dict.empty, Dict.keys] at hname
  brief := fun id hid' => envelope_brief hid' (by decide) h (invoiceObject_brief hid h)
  tokens := fun id => by
    change (Json.obj (("id", .str id) :: envelope "invoice.payment_failed" _ created)).tokens ≤ 110
    simp only [envelope, invoiceObject, Json.tokens, Json.tokensFields, Json.tokensField]
    omega

/-- **Every fixture of a moderate size is faithful.** -/
lemma make_faithful (uuid5 : String → Uuid) {kind : EventKind} {seq : ℤ} {fx : EventFixture}
    (hmake : make kind seq created amount fee refunded = .ok fx)
    (h : Moderate amount fee refunded created) (hfee : kind = .chargeSucceeded → fee ≤ amount)
    (hrefunded : kind = .chargeRefunded → 0 < refunded) :
    ∃ tag e, seqTag seq = .ok tag ∧ fx.eventId = "evt_" ++ tag ∧ fx.kind = kind ∧
      e.type = kind.eventType ∧
      fx.Faithful uuid5 e (kind.objectTag ++ tag) := by
  obtain ⟨tag, htag, hfx⟩ := except_bind_eq_ok.mp hmake
  have hid : ∀ {s : String}, PlainText 3 s → PlainText 4310 (s ++ tag) :=
    fun hs => (hs.append (plainText_seqTag htag)).mono (by norm_num)
  have hevent : NulFree ("evt_" ++ tag) :=
    nulFree_of_plainText ((by decide : PlainText 4 "evt_").append (plainText_seqTag htag))
  cases kind with
  | chargeSucceeded =>
      cases hfx
      exact ⟨tag, _, htag, rfl, rfl, rfl, faithful_charge hevent (hid (by decide)) h (hfee rfl)⟩
  | chargeRefunded =>
      cases hfx
      exact ⟨tag, _, htag, rfl, rfl, rfl,
        faithful_refund hevent (hid (by decide)) (hid (by decide)) h (hrefunded rfl)⟩
  | disputeCreated =>
      cases hfx
      exact ⟨tag, _, htag, rfl, rfl, rfl,
        faithful_dispute hevent (hid (by decide)) (hid (by decide)) h⟩
  | payoutPaid =>
      cases hfx
      exact ⟨tag, _, htag, rfl, rfl, rfl, faithful_payout hevent (hid (by decide)) h⟩
  | invoicePaymentFailed =>
      cases hfx
      exact ⟨tag, _, htag, rfl, rfl, rfl, faithful_invoice (hid (by decide)) h⟩

end

end LedgerProof.Harness
