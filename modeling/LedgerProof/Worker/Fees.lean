import LedgerProof.Worker.Handlers

/-!
# Fees, however Stripe shows them

A payload shows a balance transaction as an object, as an id to be fetched, or not at all.
`build_transaction` resolves what the payload carries and raises `MissingFeeData` for the rest,
with at most one id; `handle_event` then fetches one fee and maps the event again with it.

For a charge, which has one balance transaction, all shapes come to the same transaction.  A
dispute carries a list of them, and one fee cannot stand for the list: as soon as one item is
unexpanded, the fee posted is that of the first such item alone.
-/

namespace LedgerProof

/-! ## Balance transactions -/

structure BalanceTransaction where
  id : String
  fee : ℤ
  /-- The other fields. -/
  fields : List (String × Json)

namespace BalanceTransaction

/-- The expanded object. -/
def json (b : BalanceTransaction) : Json :=
  .obj (("id", .str b.id) :: ("fee", .int b.fee) :: b.fields)

/-- The object, or its id. -/
def shown (b : BalanceTransaction) (expanded : Bool) : Json :=
  if expanded then b.json else .str b.id

/-- The client returns the balance transaction for its id. -/
def FetchedBy (b : BalanceTransaction) (client : Client) : Prop :=
  client ("/v1/balance_transactions/" ++ b.id) .null = .ok b.json

lemma index_fee (b : BalanceTransaction) : b.json.index "fee" = .ok (.int b.fee) := by
  simp [json, Json.index, List.lookup_cons]

lemma expandedFee_json (b : BalanceTransaction) : expandedFee b.json = .ok b.fee := by
  simp [expandedFee, index_fee]

/-- Fetching a fee by its id. -/
lemma FetchedBy.resolveFee {b : BalanceTransaction} {client : Client} (h : b.FetchedBy client)
    (e : Event) : resolveFee e (some b.id) client = .ok (.int b.fee) := by
  unfold FetchedBy at h
  simp [LedgerProof.resolveFee, h, index_fee]

end BalanceTransaction

/-! ## Charges -/

/-- How a charge shows its balance transaction. -/
inductive ChargeShape
  | expanded
  | unexpanded
  | missing
  deriving DecidableEq, Repr

/-- A `charge.succeeded` event with its shape left open.  A charge has no expanded
`latest_charge`; that is a payment intent's field. -/
structure ChargeEvent where
  eventId : String
  created : ℤ
  envelope : List (String × Json)
  chargeId : String
  amount : ℤ
  currency : String
  balanceTransaction : BalanceTransaction
  fields : List (String × Json)
  created_datetime : -62135596800 ≤ created ∧ created ≤ 253402300799
  no_latest_charge : ((fields.lookup "latest_charge").getD .null).isDict = false

namespace ChargeEvent

variable (c : ChargeEvent)

def shown : ChargeShape → Json
  | .expanded => c.balanceTransaction.json
  | .unexpanded => .str c.balanceTransaction.id
  | .missing => .null

def object (shape : ChargeShape) : List (String × Json) :=
  ("id", .str c.chargeId) :: ("amount", .int c.amount) :: ("currency", .str c.currency) ::
    ("balance_transaction", c.shown shape) :: c.fields

def event (shape : ChargeShape) : Event :=
  .ofObject c.eventId "charge.succeeded" c.created (c.object shape) c.envelope

/-- The transaction of the payment with a fee of `fee`. -/
def txn (uuid5 : String → Uuid) (fee : ℤ) : LedgerTransaction :=
  ⟨uuid5 ("ledgerproof:" ++ c.eventId), c.created, chargeEntries (upper c.currency) c.amount fee,
    some c.eventId, some c.chargeId, some "charge.succeeded", none⟩

/-- The client returns the charge with its balance transaction expanded. -/
def FetchedBy (client : Client) : Prop :=
  ∃ fields, client ("/v1/charges/" ++ c.chargeId)
      (.obj [("expand", .arr [.str "balance_transaction"])]) = .ok (.obj fields) ∧
    fields.lookup "balance_transaction" = some c.balanceTransaction.json

variable {c} {uuid5 : String → Uuid}

lemma buildTransaction_event (shape : ChargeShape) (feeMinor : Json) :
    buildTransaction uuid5 (c.event shape) feeMinor =
      (chargeFee (.obj (c.object shape)) feeMinor).map fun fee => some (c.txn uuid5 fee) := by
  have hcurrency : (c.object shape).lookup "currency" = some (.str c.currency) := by
    simp [object, List.lookup_cons]
  have hoid : moneyMovementObjectId (c.event shape) = .ok (some c.chargeId) := by
    unfold event
    rw [moneyMovementObjectId_ofObject rfl]
    simp [object, Json.str?]
  have hgross : (Json.obj (c.object shape)).index "amount" = .ok (.int c.amount) := by
    simp [object, Json.index, List.lookup_cons]
  unfold event
  rw [buildTransaction_ofObject (by decide) hcurrency c.created_datetime hoid]
  simp only [mapEntries, true_or, if_true, show ¬("charge.succeeded" = "payment_intent.succeeded")
    by decide, if_false, hgross, liftM_py_ok, except_ok_bind, money_int]
  cases chargeFee (.obj (c.object shape)) feeMinor <;> rfl

/-- What the payload says about the fee. -/
lemma chargeFee_object (shape : ChargeShape) (feeMinor : Json) :
    chargeFee (.obj (c.object shape)) feeMinor =
      match shape with
      | .expanded => .ok c.balanceTransaction.fee
      | .unexpanded => feeOr feeMinor (some c.balanceTransaction.id)
      | .missing => feeOr feeMinor none := by
  have hbt : (Json.obj (c.object shape)).get "balance_transaction" = .ok (c.shown shape) := by
    simp [object, List.lookup_cons]
  unfold chargeFee chargeBalanceTransaction
  rw [hbt]
  cases shape with
  | expanded =>
      have := c.balanceTransaction.expandedFee_json
      unfold BalanceTransaction.json at this
      simp [shown, BalanceTransaction.json, this, pure, Except.pure]
  | unexpanded => simp [shown, Json.str?, pure, Except.pure]
  | missing =>
      have hlatest := c.no_latest_charge
      have hlookup : (c.object .missing).lookup "latest_charge" =
          c.fields.lookup "latest_charge" := by
        simp [object, List.lookup_cons]
      simp only [shown, except_ok_bind, Json.get_obj, hlookup]
      cases hl : (c.fields.lookup "latest_charge").getD .null with
      | obj fields => simp [hl, Json.isDict] at hlatest
      | _ => simp [Json.str?, pure, Except.pure]

/-- Fetching the charge again. -/
lemma FetchedBy.resolveFee {client : Client} (h : c.FetchedBy client) (shape : ChargeShape) :
    resolveFee (c.event shape) none client = .ok (.int c.balanceTransaction.fee) := by
  obtain ⟨fields, hclient, hlookup⟩ := h
  have hfee := c.balanceTransaction.expandedFee_json
  unfold BalanceTransaction.json at hlookup hfee
  unfold LedgerProof.resolveFee event
  rw [Event.getD_payload _ (by decide) (by decide)]
  simp [Event.ofObject, object, List.lookup_cons, hclient, hlookup, hfee, pure, Except.pure]

/-- **A charge's transaction does not depend on the shape.** -/
lemma mapEvent_event {client : Client} (hbt : c.balanceTransaction.FetchedBy client)
    (hcharge : c.FetchedBy client) (shape : ChargeShape) :
    mapEvent uuid5 (some client) (c.event shape) =
      .ok (some (c.txn uuid5 c.balanceTransaction.fee)) := by
  unfold mapEvent
  rw [buildTransaction_event, chargeFee_object]
  cases shape with
  | expanded => rfl
  | unexpanded =>
      simp only [feeOr, Except.map]
      rw [hbt.resolveFee, except_ok_bind, buildTransaction_event, chargeFee_object]
      rfl
  | missing =>
      simp only [feeOr, Except.map]
      rw [hcharge.resolveFee, except_ok_bind, buildTransaction_event, chargeFee_object]
      rfl

end ChargeEvent

/-! ## Disputes -/

/-- A `charge.dispute.created` event: its balance transactions, each with whether it is
expanded. -/
structure DisputeEvent where
  eventId : String
  created : ℤ
  envelope : List (String × Json)
  disputeId : String
  amount : ℤ
  currency : String
  shown : List (BalanceTransaction × Bool)
  fields : List (String × Json)
  created_datetime : -62135596800 ≤ created ∧ created ≤ 253402300799
  shown_ne_nil : shown ≠ []

namespace DisputeEvent

variable (d : DisputeEvent)

def balanceTransactions : List Json := d.shown.map fun p => p.1.shown p.2

def object : List (String × Json) :=
  ("id", .str d.disputeId) :: ("amount", .int d.amount) :: ("currency", .str d.currency) ::
    ("balance_transactions", .arr d.balanceTransactions) :: d.fields

def event : Event :=
  .ofObject d.eventId "charge.dispute.created" d.created d.object d.envelope

/-- The transaction of the dispute with a fee of `fee`. -/
def txn (uuid5 : String → Uuid) (fee : ℤ) : LedgerTransaction :=
  ⟨uuid5 ("ledgerproof:" ++ d.eventId), d.created, disputeEntries (upper d.currency) d.amount fee,
    some d.eventId, some d.disputeId, some "charge.dispute.created", none⟩

/-- The fees of all balance transactions. -/
def fees : ℤ := total (fun p => p.1.fee) d.shown

/-- No balance transaction is unexpanded, or those besides the first unexpanded one add no
fee. -/
def OthersFree : Prop :=
  ∀ before b after, d.shown = before ++ (b, false) :: after → (∀ p ∈ before, p.2 = true) →
    total (fun p => p.1.fee) before + total (fun p => p.1.fee) after = 0

variable {d} {uuid5 : String → Uuid}

lemma buildTransaction_event (feeMinor : Json) :
    buildTransaction uuid5 d.event feeMinor =
      (disputeFee (.obj d.object) feeMinor).map fun fee => some (d.txn uuid5 fee) := by
  have hcurrency : d.object.lookup "currency" = some (.str d.currency) := by
    simp [object, List.lookup_cons]
  have hoid : moneyMovementObjectId d.event = .ok (some d.disputeId) := by
    unfold event
    rw [moneyMovementObjectId_ofObject rfl]
    simp [object, Json.str?]
  have hamount : (Json.obj d.object).index "amount" = .ok (.int d.amount) := by
    simp [object, Json.index, List.lookup_cons]
  unfold event
  rw [buildTransaction_ofObject (by decide) hcurrency d.created_datetime hoid]
  simp only [mapEntries, show ¬("charge.dispute.created" = "charge.succeeded" ∨
    "charge.dispute.created" = "payment_intent.succeeded") by decide,
    show ¬("charge.dispute.created" = "charge.refunded") by decide, if_false, if_true, hamount,
    liftM_py_ok, except_ok_bind, money_int]
  cases disputeFee (.obj d.object) feeMinor <;> rfl

/-- The items that are expanded are dictionaries, the others are text. -/
lemma isDict_shown (b : BalanceTransaction) (expanded : Bool) :
    (b.shown expanded).isDict = expanded := by
  cases expanded <;> rfl

lemma get_balanceTransactions : (Json.obj d.object).get "balance_transactions" =
    .ok (.arr d.balanceTransactions) := by
  simp [object, List.lookup_cons]

lemma balanceTransactions_isEmpty : d.balanceTransactions.isEmpty = false := by
  simpa [balanceTransactions] using d.shown_ne_nil

lemma mapM_expandedFee {l : List (BalanceTransaction × Bool)} (h : ∀ p ∈ l, p.2 = true) :
    (l.map fun p => p.1.shown p.2).mapM expandedFee = .ok (l.map fun p => p.1.fee) := by
  induction l with
  | nil => rfl
  | cons p l ih =>
      have hp : p.1.shown p.2 = p.1.json := by rw [h p (by simp)]; rfl
      rw [List.map_cons, List.mapM_cons, hp, BalanceTransaction.expandedFee_json, except_ok_bind,
        ih fun q hq => h q (by simp [hq])]
      rfl

/-- With every item expanded the payload carries the fees. -/
lemma disputeFee_expanded (h : ∀ p ∈ d.shown, p.2 = true) (feeMinor : Json) :
    disputeFee (.obj d.object) feeMinor = .ok d.fees := by
  have hall : d.balanceTransactions.all Json.isDict = true := by
    refine List.all_eq_true.mpr fun j hj => ?_
    obtain ⟨p, hp, rfl⟩ := List.mem_map.mp hj
    rw [isDict_shown, h p hp]
  have hfees : d.balanceTransactions.mapM expandedFee = .ok (d.shown.map fun p => p.1.fee) :=
    mapM_expandedFee h
  unfold disputeFee
  simp only [get_balanceTransactions, liftM_py_ok, except_ok_bind, Json.truthy,
    balanceTransactions_isEmpty, Bool.not_false, if_true, Json.iter, hall, Bool.and_self, hfees]
  rfl

/-- With an item unexpanded, the fee is the parameter, or the first such item is asked for. -/
lemma disputeFee_unexpanded {before after : List (BalanceTransaction × Bool)}
    {b : BalanceTransaction} (hshown : d.shown = before ++ (b, false) :: after)
    (hbefore : ∀ p ∈ before, p.2 = true) (feeMinor : Json) :
    disputeFee (.obj d.object) feeMinor = feeOr feeMinor (some b.id) := by
  have hbts : d.balanceTransactions = before.map (fun p => p.1.shown p.2) ++
      .str b.id :: after.map (fun p => p.1.shown p.2) := by
    simp [balanceTransactions, hshown, BalanceTransaction.shown]
  have hall : d.balanceTransactions.all Json.isDict = false := by
    simp [hbts, Json.isDict]
  have hfirst : d.balanceTransactions.findSome? Json.str? = some b.id := by
    have hnone : (before.map fun p => p.1.shown p.2).findSome? Json.str? = none := by
      refine List.findSome?_eq_none_iff.mpr fun j hj => ?_
      obtain ⟨p, hp, rfl⟩ := List.mem_map.mp hj
      rw [hbefore p hp]
      rfl
    rw [hbts, List.findSome?_append, hnone]
    rfl
  unfold disputeFee
  simp only [get_balanceTransactions, liftM_py_ok, except_ok_bind, Json.truthy,
    balanceTransactions_isEmpty, Bool.not_false, if_true, Json.iter, hall, Bool.and_false, hfirst]
  rfl

lemma total_processing_fees (currency : String) (amount fee : ℤ) :
    total (fun e : Entry => if e.accountName = "processing_fees" then e.amountMinor else 0)
      (disputeEntries currency amount fee) = fee := by
  unfold disputeEntries addEntry
  split_ifs with h1 h2 h3 <;> simp_all

/-- With every item expanded the transaction has the sum of the fees; with one unexpanded it has
the fee of the first such item. -/
lemma mapEvent_event {client : Client} (hbt : ∀ p ∈ d.shown, p.1.FetchedBy client) :
    ((∀ p ∈ d.shown, p.2 = true) ∧
      mapEvent uuid5 (some client) d.event = .ok (some (d.txn uuid5 d.fees))) ∨
    ∃ before b after, d.shown = before ++ (b, false) :: after ∧ (∀ p ∈ before, p.2 = true) ∧
      mapEvent uuid5 (some client) d.event = .ok (some (d.txn uuid5 b.fee)) := by
  unfold mapEvent
  rw [buildTransaction_event]
  cases hfind : d.shown.find? fun p => !p.2 with
  | none =>
      have hall : ∀ p ∈ d.shown, p.2 = true := fun p hp => by
        simpa using List.find?_eq_none.mp hfind p hp
      rw [disputeFee_expanded hall]
      exact .inl ⟨hall, rfl⟩
  | some p =>
      obtain ⟨hp, before, after, hshown, hbefore⟩ := List.find?_eq_some_iff_append.mp hfind
      obtain ⟨b, expanded⟩ := p
      obtain rfl : expanded = false := by simpa using hp
      have hbefore' : ∀ p ∈ before, p.2 = true := fun p hp => by simpa using hbefore p hp
      refine .inr ⟨before, b, after, hshown, hbefore', ?_⟩
      rw [disputeFee_unexpanded hshown hbefore']
      simp only [feeOr, Except.map]
      rw [(hbt (b, false) (by simp [hshown])).resolveFee, except_ok_bind, buildTransaction_event,
        disputeFee_unexpanded hshown hbefore']
      rfl

/-- The first unexpanded item of a decomposition is the one a search finds. -/
lemma find?_unexpanded {before after : List (BalanceTransaction × Bool)} {b : BalanceTransaction}
    (hshown : d.shown = before ++ (b, false) :: after) (hbefore : ∀ p ∈ before, p.2 = true) :
    (d.shown.find? fun p => !p.2) = some (b, false) :=
  List.find?_eq_some_iff_append.mpr
    ⟨rfl, before, after, hshown, fun p hp => by simpa using hbefore p hp⟩

lemma fees_eq {before after : List (BalanceTransaction × Bool)} {b : BalanceTransaction}
    (hshown : d.shown = before ++ (b, false) :: after) :
    d.fees = total (fun p => p.1.fee) before + total (fun p => p.1.fee) after + b.fee := by
  rw [fees, hshown, total_append, total_cons]
  ring

lemma mapEvent_eq_fees_iff (uuid5 : String → Uuid) {client : Client}
    (hbt : ∀ p ∈ d.shown, p.1.FetchedBy client) :
    mapEvent uuid5 (some client) d.event = .ok (some (d.txn uuid5 d.fees)) ↔ d.OthersFree := by
  rcases mapEvent_event hbt with ⟨hall, hmap⟩ | ⟨before, b, after, hshown, hbefore, hmap⟩
  · refine iff_of_true hmap fun before b after hshown _ => ?_
    have := hall (b, false) (by simp [hshown])
    simp at this
  · have hfee : mapEvent uuid5 (some client) d.event = .ok (some (d.txn uuid5 d.fees)) ↔
        b.fee = d.fees := by
      rw [hmap]
      constructor
      · intro h
        have hentries := congrArg LedgerTransaction.entries (Option.some_inj.mp (Except.ok.inj h))
        rw [← total_processing_fees (upper d.currency) d.amount b.fee]
        exact (congrArg _ hentries).trans (total_processing_fees _ _ _)
      · intro h
        rw [h]
    rw [hfee]
    constructor
    · intro h before' b' after' hshown' hbefore'
      have hsame := (find?_unexpanded hshown hbefore).symm.trans
        (find?_unexpanded hshown' hbefore')
      simp only [Option.some.injEq, Prod.mk.injEq, and_true] at hsame
      have := fees_eq hshown'
      rw [← hsame] at this
      omega
    · intro h
      have hfree := h before b after hshown hbefore
      have := fees_eq hshown
      omega

end DisputeEvent

/-! ## Both together -/

/-- **The posted fee.** With a client that returns balance transactions by their ids and charges
with theirs expanded: a charge posts the same transaction in every shape, with the fee of its
balance transaction; a dispute posts the transaction with the sum of the fees if and only if no
balance transaction is unexpanded or those besides the first unexpanded one add no fee. -/
theorem posted_fee (uuid5 : String → Uuid) (client : Client) :
    (∀ c : ChargeEvent, c.balanceTransaction.FetchedBy client → c.FetchedBy client →
      ∀ shape, mapEvent uuid5 (some client) (c.event shape) =
        .ok (some (c.txn uuid5 c.balanceTransaction.fee))) ∧
    ∀ d : DisputeEvent, (∀ p ∈ d.shown, p.1.FetchedBy client) →
      (mapEvent uuid5 (some client) d.event = .ok (some (d.txn uuid5 d.fees)) ↔ d.OthersFree) :=
  ⟨fun _ hbt hcharge shape => ChargeEvent.mapEvent_event hbt hcharge shape,
    fun _ hbt => DisputeEvent.mapEvent_eq_fees_iff uuid5 hbt⟩

/-- Two balance transactions of a dispute, with fees of 15.00 and 5.00. -/
def sampleFees : List BalanceTransaction := [⟨"txn_1", 1500, []⟩, ⟨"txn_2", 500, []⟩]

/-- A client that knows them, and the charge the first belongs to. -/
def sampleClient : Client := fun path _ =>
  if path = "/v1/balance_transactions/txn_1" then .ok (BalanceTransaction.json ⟨"txn_1", 1500, []⟩)
  else if path = "/v1/balance_transactions/txn_2" then
    .ok (BalanceTransaction.json ⟨"txn_2", 500, []⟩)
  else if path = "/v1/charges/ch_1" then
    .ok (.obj [("id", .str "ch_1"),
      ("balance_transaction", BalanceTransaction.json ⟨"txn_1", 1500, []⟩)])
  else .error (.stripe "no such object")

def sampleCharge : ChargeEvent where
  eventId := "evt_1"
  created := 1700000000
  envelope := []
  chargeId := "ch_1"
  amount := 50000
  currency := "usd"
  balanceTransaction := ⟨"txn_1", 1500, []⟩
  fields := []
  created_datetime := by decide
  no_latest_charge := rfl

/-- A dispute that carries both, expanded or not. -/
def sampleDispute (expanded : Bool) : DisputeEvent where
  eventId := "evt_2"
  created := 1700000000
  envelope := []
  disputeId := "dp_1"
  amount := 50000
  currency := "usd"
  shown := sampleFees.map fun b => (b, expanded)
  fields := []
  created_datetime := by decide
  shown_ne_nil := by simp [sampleFees]

lemma sampleDispute_fetched (expanded : Bool) :
    ∀ p ∈ (sampleDispute expanded).shown, p.1.FetchedBy sampleClient := by
  simp [sampleDispute, sampleFees, BalanceTransaction.FetchedBy, sampleClient]

/-- A charge whose balance transaction is missing, and a dispute with all of its own shown. -/
theorem posted_fee_sample :
    mapEvent sampleUuid5 (some sampleClient) (sampleCharge.event .missing) =
        .ok (some (sampleCharge.txn sampleUuid5 1500)) ∧
      mapEvent sampleUuid5 (some sampleClient) (sampleDispute true).event =
        .ok (some ((sampleDispute true).txn sampleUuid5 2000)) := by
  obtain ⟨hcharge, hdispute⟩ := posted_fee sampleUuid5 sampleClient
  refine ⟨hcharge sampleCharge rfl ⟨_, rfl, rfl⟩ .missing,
    (hdispute (sampleDispute true) (sampleDispute_fetched true)).mpr ?_⟩
  intro before b after hshown _
  have hmem : (b, false) ∈ (sampleDispute true).shown := by simp [hshown]
  simp [sampleDispute, sampleFees] at hmem

/-- Both fees are charged, and with neither expanded only the first is posted. -/
theorem unexpanded_dispute_fee :
    (∀ p ∈ (sampleDispute false).shown, p.1.FetchedBy sampleClient) ∧
      mapEvent sampleUuid5 (some sampleClient) (sampleDispute true).event =
        .ok (some ((sampleDispute true).txn sampleUuid5 2000)) ∧
      mapEvent sampleUuid5 (some sampleClient) (sampleDispute false).event =
        .ok (some ((sampleDispute false).txn sampleUuid5 1500)) ∧
      mapEvent sampleUuid5 (some sampleClient) (sampleDispute false).event ≠
        mapEvent sampleUuid5 (some sampleClient) (sampleDispute true).event := by
  have htrue : mapEvent sampleUuid5 (some sampleClient) (sampleDispute true).event =
      .ok (some ((sampleDispute true).txn sampleUuid5 2000)) := rfl
  have hfalse : mapEvent sampleUuid5 (some sampleClient) (sampleDispute false).event =
      .ok (some ((sampleDispute false).txn sampleUuid5 1500)) := rfl
  refine ⟨sampleDispute_fetched false, htrue, hfalse, ?_⟩
  rw [htrue, hfalse]
  intro h
  have hentries := congrArg LedgerTransaction.entries (Option.some_inj.mp (Except.ok.inj h))
  revert hentries
  decide

end LedgerProof
