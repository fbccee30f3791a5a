import LedgerProof.Worker.OrderIndependence

/-!
# Partial refunds

The `k`-th `charge.refunded` event of a charge carries the cumulative `amount_refunded` and, in
older API versions, the list of refunds, newest first.  `build_transaction` posts the newest
refund's own amount under that refund's id when the list is there; without it, it posts the
cumulative amount under the charge's id.

The two fallbacks meet in the unique key of `(event_type, stripe_object_id)`: all events that
omit the list share one key, so only the first to arrive is posted.  `RefundHistory` is a charge
with its refunds and the shape of each event; `countedOnce_iff` finds the histories whose
refunds are counted once in every order of arrival.
-/

namespace LedgerProof

/-- A refund as the list shows it. -/
structure Refund where
  id : String
  amount : ℤ
  /-- The refund's other fields. -/
  fields : List (String × Json)

def Refund.json (r : Refund) : Json :=
  .obj (("id", .str r.id) :: ("amount", .int r.amount) :: r.fields)

/-- A charge with its refunds, oldest first, and the event reporting each of them: its id and
time, and whether it carries the list of refunds. -/
structure RefundHistory where
  chargeId : String
  currency : String
  /-- The charge's other fields. -/
  fields : List (String × Json)
  n : ℕ
  refund : ℕ → Refund
  eventId : ℕ → String
  created : ℕ → ℤ
  /-- The events' other fields. -/
  envelope : ℕ → List (String × Json)
  listed : ℕ → Bool
  no_list : fields.lookup "refunds" = none
  refund_id : ∀ i < n, ∀ j < n, (refund i).id = (refund j).id → i = j
  event_id : ∀ i < n, ∀ j < n, eventId i = eventId j → i = j
  amount_pos : ∀ k < n, 0 < (refund k).amount
  /-- What was refunded in all is an amount the ledger can store. -/
  amount_fits : total (fun i => (refund i).amount) (List.range n) ≤ bigintMax
  created_datetime : ∀ k < n, -62135596800 ≤ created k ∧ created k ≤ 253402300799
  /-- The ids are texts that PostgreSQL can hold. -/
  charge_nulFree : NulFree chargeId
  refund_nulFree : ∀ k < n, NulFree (refund k).id
  event_nulFree : ∀ k < n, NulFree (eventId k)

namespace RefundHistory

variable (H : RefundHistory)

/-- The sum of the first `k` refunds. -/
def refunded (k : ℕ) : ℤ := total (fun i => (H.refund i).amount) (List.range k)

/-- The charge as the `k`-th event shows it. -/
def charge (k : ℕ) : List (String × Json) :=
  ("id", .str H.chargeId) :: ("currency", .str H.currency) ::
    ("amount_refunded", .int (H.refunded (k + 1))) ::
    ((if H.listed k then
      [("refunds", .obj [("data",
        .arr ((List.range (k + 1)).reverse.map fun i => (H.refund i).json))])]
      else []) ++ H.fields)

/-- The `k`-th `charge.refunded` event. -/
def event (k : ℕ) : Event :=
  .ofObject (H.eventId k) "charge.refunded" (H.created k) (H.charge k) (H.envelope k)

def events : List Event := (List.range H.n).map H.event

/-- The object id the `k`-th event is posted under. -/
def key (k : ℕ) : String := if H.listed k then (H.refund k).id else H.chargeId

/-- The amount the `k`-th event posts. -/
def amount (k : ℕ) : ℤ := if H.listed k then (H.refund k).amount else H.refunded (k + 1)

/-- The transaction of the `k`-th event. -/
def txn (uuid5 : String → Uuid) (k : ℕ) : LedgerTransaction :=
  ⟨uuid5 ("ledgerproof:" ++ H.eventId k), H.created k,
    refundEntries (upper H.currency) (H.amount k), some (H.eventId k), some (H.key k),
    some "charge.refunded", none⟩

variable {H}

lemma refunded_succ (k : ℕ) : H.refunded (k + 1) = H.refunded k + (H.refund k).amount := by
  simp [refunded, List.range_succ]

lemma mem_events {e : Event} : e ∈ H.events ↔ ∃ k < H.n, H.event k = e := by
  simp [events]

lemma event_inj {i j : ℕ} (hi : i < H.n) (hj : j < H.n) (h : (H.event i).id = (H.event j).id) :
    i = j :=
  H.event_id i hi j hj h

/-! ## What the events map to -/

lemma newestRefund_charge (k : ℕ) :
    newestRefund (.obj (H.charge k)) =
      .ok (if H.listed k then some (H.refund k).json else none) := by
  unfold newestRefund charge
  cases hk : H.listed k with
  | true =>
      have hnewest : (List.range (k + 1)).reverse.map (fun i => (H.refund i).json) =
          (H.refund k).json :: (List.range k).reverse.map (fun i => (H.refund i).json) := by
        simp [List.range_succ]
      rw [hnewest]
      simp [List.lookup_cons, Refund.json, pure, Except.pure]
  | false => simp [List.lookup_cons, H.no_list, pure, Except.pure]

lemma refundAmount_charge (k : ℕ) :
    refundAmount (.obj (H.charge k)) = .ok (.int (H.amount k)) := by
  unfold refundAmount
  rw [newestRefund_charge]
  cases hk : H.listed k with
  | true => simp [amount, hk, Refund.json, Json.hasKey, Json.index, List.lookup_cons]
  | false => simp [amount, hk, charge, Json.index, List.lookup_cons]

lemma moneyMovementObjectId_event (k : ℕ) :
    moneyMovementObjectId (H.event k) = .ok (some (H.key k)) := by
  have hrefund : refundId "charge.refunded" (.obj (H.charge k)) =
      .ok (if H.listed k then some (H.refund k).id else none) := by
    unfold refundId
    rw [newestRefund_charge]
    cases hk : H.listed k <;> simp [Refund.json, Json.str?, pure, Except.pure]
  unfold event
  rw [moneyMovementObjectId_ofObject hrefund]
  cases hk : H.listed k <;> simp [key, hk, charge, Json.str?]

variable {uuid5 : String → Uuid} {chart : Chart} {client : Option Client}

lemma mapEvent_event {k : ℕ} (hk : k < H.n) :
    mapEvent uuid5 client (H.event k) = .ok (some (H.txn uuid5 k)) := by
  have hcurrency : (H.charge k).lookup "currency" = some (.str H.currency) := by
    simp [charge, List.lookup_cons]
  have hbuild : buildTransaction uuid5 (H.event k) .null = .ok (some (H.txn uuid5 k)) := by
    unfold event
    rw [buildTransaction_ofObject (by decide) hcurrency (H.created_datetime k hk)
      (moneyMovementObjectId_event k)]
    simp [mapEntries, refundAmount_charge, txn, Except.map, pure, Except.pure]
  unfold mapEvent
  rw [hbuild]

/-! ## What the events post -/

lemma refunded_strictMono {i j : ℕ} (hij : i < j) (hj : j ≤ H.n) : H.refunded i < H.refunded j := by
  induction j with
  | zero => omega
  | succ j ih =>
      have hpos := H.amount_pos j (by omega)
      rw [refunded_succ]
      rcases Nat.lt_succ_iff_lt_or_eq.mp hij with hlt | rfl
      · have := ih hlt (by omega)
        omega
      · omega

lemma amount_le_refunded {k : ℕ} (hk : k < H.n) : H.amount k ≤ H.refunded (k + 1) := by
  unfold amount
  split_ifs
  · rcases Nat.eq_zero_or_pos k with rfl | hpos
    · rw [refunded_succ, show H.refunded 0 = 0 from rfl, zero_add]
    · have := refunded_strictMono hpos hk.le
      rw [refunded_succ, show H.refunded 0 = 0 from rfl] at *
      omega
  · exact le_refl _

lemma amount_bounds {k : ℕ} (hk : k < H.n) : 0 < H.amount k ∧ H.amount k ≤ bigintMax := by
  constructor
  · unfold amount
    split_ifs
    · exact H.amount_pos k hk
    · exact refunded_strictMono (Nat.succ_pos k) hk
  · calc H.amount k ≤ H.refunded (k + 1) := amount_le_refunded hk
      _ ≤ H.refunded H.n := by
        rcases Nat.lt_or_eq_of_le (Nat.succ_le_of_lt hk) with hlt | heq
        · exact (refunded_strictMono hlt le_rfl).le
        · rw [← heq]
      _ ≤ bigintMax := H.amount_fits

end RefundHistory

/-- The two accounts a refund is posted to, in the currency of the charge. -/
structure RefundAccounts (chart : Chart) (currency : String) (contra stripe : Account) : Prop where
  contra_find : chart.find "refunds_contra" = some contra
  stripe_find : chart.find "stripe_balance" = some stripe
  contra_currency : Char3.ofText (upper currency) = some contra.currency
  stripe_currency : Char3.ofText (upper currency) = some stripe.currency
  contra_normal : contra.normal = .debit
  stripe_normal : stripe.normal = .debit

/-- The ledger has no transaction with the id of one of the events or of its movement. -/
def Ledger.Unseen (uuid5 : String → Uuid) (L : Ledger) (es : List Event) : Prop :=
  ∀ e ∈ es, ∀ t ∈ L.transactions, t.id ≠ uuid5 ("ledgerproof:" ++ e.id) ∧
    t.stripeEventId ≠ some e.id ∧
    ¬(t.eventType = some e.type ∧
      ∃ oid, t.stripeObjectId = some oid ∧ moneyMovementObjectId e = .ok (some oid))

namespace RefundHistory

variable {H : RefundHistory} {uuid5 : String → Uuid} {chart : Chart} {client : Option Client}
  {contra stripe : Account}

lemma storable_txn {k : ℕ} (hk : k < H.n) : (H.txn uuid5 k).row.Storable := by
  have hkey : NulFree (H.key k) := by
    unfold key
    split_ifs
    · exact H.refund_nulFree k hk
    · exact H.charge_nulFree
  simp only [TransactionRow.Storable, TransactionRow.mem_texts, LedgerTransaction.row, txn]
  rintro s (hs | hs | hs | hs)
  · exact Option.some_inj.mp hs ▸ H.event_nulFree k hk
  · exact Option.some_inj.mp hs ▸ hkey
  · exact Option.some_inj.mp hs ▸ (by decide : NulFree "charge.refunded")
  · cases hs

/-- **The schema accepts every refund event**, and it moves its amount. -/
lemma postable_event (hacc : RefundAccounts chart H.currency contra stripe) {k : ℕ} (hk : k < H.n) :
    ∃ W, postable uuid5 chart client (H.event k) = some (H.txn uuid5 k, W) ∧
      W.balanceMinor contra = H.amount k ∧ W.balanceMinor stripe = -H.amount k := by
  obtain ⟨hpos, hmax⟩ := amount_bounds hk
  have hcur : stripe.currency = contra.currency :=
    Option.some_inj.mp (hacc.stripe_currency.symm.trans hacc.contra_currency)
  obtain ⟨hcmem, hcname⟩ := Chart.find_mem hacc.contra_find
  obtain ⟨hsmem, hsname⟩ := Chart.find_mem hacc.stripe_find
  have hne : contra.id ≠ stripe.id := by
    intro h
    rw [Chart.eq_of_id hcmem hsmem h, hsname] at hcname
    exact absurd hcname (by decide)
  set debit : EntryRow :=
    ⟨(H.txn uuid5 k).id, contra.id, .debit, H.amount k, contra.currency⟩ with hdebit
  set credit : EntryRow :=
    ⟨(H.txn uuid5 k).id, stripe.id, .credit, H.amount k, stripe.currency⟩ with hcredit
  have hentries : (H.txn uuid5 k).entries =
      [⟨"refunds_contra", .debit, H.amount k, upper H.currency⟩,
        ⟨"stripe_balance", .credit, H.amount k, upper H.currency⟩] := by
    simp [txn, refundEntries, addEntry, hpos.ne']
  have hrow1 : Entry.row chart (H.txn uuid5 k).id
      ⟨"refunds_contra", .debit, H.amount k, upper H.currency⟩ = .ok debit :=
    Entry.row_ok_iff.mpr ⟨hpos, hmax, contra, hacc.contra_find, hacc.contra_currency, rfl⟩
  have hrow2 : Entry.row chart (H.txn uuid5 k).id
      ⟨"stripe_balance", .credit, H.amount k, upper H.currency⟩ = .ok credit :=
    Entry.row_ok_iff.mpr ⟨hpos, hmax, stripe, hacc.stripe_find, hacc.stripe_currency, rfl⟩
  refine ⟨⟨[(H.txn uuid5 k).row], [debit, credit]⟩, ?_, ?_, ?_⟩
  · refine postable_eq_some_iff.mpr ⟨by simp [event, Event.ofObject, handledEventTypes],
      mapEvent_event hk, ?_⟩
    refine LedgerTransaction.writes_ok_iff.mpr
      ⟨storable_txn hk, [debit, credit], ?_, rfl, by simp, by simp, ?_⟩
    · rw [hentries]
      simp [hrow1, hrow2, pure, Except.pure]
    · intro c
      by_cases hc : contra.currency = c
      · simp [hdebit, hcredit, hcur, hc, EntryRow.signedMinor, EntryRow.debitMinor,
          EntryRow.creditMinor]
      · simp [hdebit, hcredit, hcur, hc]
  · simp [Ledger.balanceMinor, hdebit, hcredit, hne.symm, Account.signed, hacc.contra_normal]
  · simp [Ledger.balanceMinor, hdebit, hcredit, hne, Account.signed, hacc.stripe_normal]

lemma balanceMinor_contra (hacc : RefundAccounts chart H.currency contra stripe) {k : ℕ}
    (hk : k < H.n) {W : Ledger}
    (hpost : postable uuid5 chart client (H.event k) = some (H.txn uuid5 k, W)) :
    W.balanceMinor contra = H.amount k := by
  obtain ⟨W', hpost', hbal, -⟩ := postable_event hacc hk
  rw [hpost] at hpost'
  cases hpost'
  exact hbal

lemma balanceMinor_stripe (hacc : RefundAccounts chart H.currency contra stripe) {k : ℕ}
    (hk : k < H.n) {W : Ledger}
    (hpost : postable uuid5 chart client (H.event k) = some (H.txn uuid5 k, W)) :
    W.balanceMinor stripe = -H.amount k := by
  obtain ⟨W', hpost', -, hbal⟩ := postable_event hacc hk
  rw [hpost] at hpost'
  cases hpost'
  exact hbal

/-! ## Arrivals -/

lemma movementKey_event (k : ℕ) :
    movementKey (H.event k) = .object "charge.refunded" (H.key k) := by
  unfold movementKey
  rw [moneyMovementObjectId_event]
  rfl

/-- What a movement is worth: the column `v` at the event that reports it. -/
def worth (H : RefundHistory) (v : ℕ → ℤ) (key : MovementKey) : ℤ :=
  total v ((List.range H.n).filter fun k => movementKey (H.event k) = key)

lemma worth_of_alone {v : ℕ → ℤ} {j : ℕ} (hj : j < H.n)
    (halone : ∀ k < H.n, H.key k = H.key j → k = j) :
    H.worth v (movementKey (H.event j)) = v j := by
  unfold worth
  rw [total_filter, total_single List.nodup_range (List.mem_range.mpr hj)]
  · simp
  · intro k hk hne
    have hkey : movementKey (H.event k) ≠ movementKey (H.event j) := by
      rw [movementKey_event, movementKey_event]
      intro h
      exact hne (halone k (List.mem_range.mp hk) (MovementKey.object.inj h).2)
    simp [hkey]

lemma eq_of_id_eq {e e' : Event} (he : e ∈ H.events) (he' : e' ∈ H.events) (hid : e.id = e'.id) :
    e = e' := by
  obtain ⟨i, hi, rfl⟩ := mem_events.mp he
  obtain ⟨j, hj, rfl⟩ := mem_events.mp he'
  rw [event_inj hi hj hid]

/-- **The balance after any arrivals.** Where an event that is new has a key of its own, the
balance of `a` grows by the column `v` over the events that are new at the beginning. -/
lemma balance_handleAll (huuid : Function.Injective uuid5)
    (hacc : RefundAccounts chart H.currency contra stripe) {a : Account} {v : ℕ → ℤ}
    (hv : ∀ k < H.n, ∀ W, postable uuid5 chart client (H.event k) = some (H.txn uuid5 k, W) →
      W.balanceMinor a = v k)
    (Inv : Db → Prop) (hadm : ∀ db, Inv db → db.ledger.Admitted chart)
    (hinv : ∀ db e, Inv db → e ∈ H.events → Inv (handleEvent uuid5 chart client db e).2)
    (hkeys : ∀ db, Inv db → ∀ j < H.n, isNew uuid5 chart client db.ledger (H.event j) = true →
      ∀ k < H.n, H.key k = H.key j → k = j)
    {db : Db} (hdb : Inv db) {es : List Event} (hes : ∀ e, e ∈ es ↔ e ∈ H.events) :
    (handleAll uuid5 chart client db es).ledger.balanceMinor a = db.ledger.balanceMinor a +
      total v ((List.range H.n).filter fun k =>
        isNew uuid5 chart client db.ledger (H.event k)) := by
  have hworth : ∀ db, Inv db → ∀ j < H.n,
      isNew uuid5 chart client db.ledger (H.event j) = true →
        H.worth v (movementKey (H.event j)) = v j := fun db hI j hj hnew =>
    worth_of_alone hj (hkeys db hI j hj hnew)
  have heffect : ∀ db e txn W, Inv db → e ∈ H.events →
      postable uuid5 chart client e = some (txn, W) → db.ledger.conflict txn.row = none →
        W.balanceMinor a = H.worth v (movementKey e) := by
    intro db e txn W hI he hpost hc
    obtain ⟨k, hk, rfl⟩ := mem_events.mp he
    obtain ⟨W', hpost', -⟩ := postable_event hacc hk
    rw [hpost] at hpost'
    obtain ⟨rfl, rfl⟩ := Prod.mk.inj (Option.some_inj.mp hpost')
    rw [hv k hk W hpost, hworth db hI k hk (isNew_iff.mpr ⟨_, _, hpost, hc⟩)]
  have hfirst := handleEvent_firstWins huuid hadm hinv (fun _ _ he he' hid =>
    eq_of_id_eq he he' hid) heffect
  have hsum := hfirst.foldl_congr hdb (fun e he => he) hes
  rw [handleAll, hsum]
  congr 1
  -- the movements that are new are those of the events that are new, one for each
  have hnodup : (((List.range H.n).filter fun k =>
      isNew uuid5 chart client db.ledger (H.event k)).map
        fun k => movementKey (H.event k)).Nodup := by
    refine List.Nodup.map_on ?_ (List.nodup_range.filter _)
    intro i hi j hj h
    obtain ⟨hi, -⟩ := List.mem_filter.mp hi
    obtain ⟨hj, hnew⟩ := List.mem_filter.mp hj
    rw [movementKey_event, movementKey_event] at h
    exact hkeys db hdb j (List.mem_range.mp hj) hnew i (List.mem_range.mp hi)
      (MovementKey.object.inj h).2
  have hfresh : FirstWins.freshKeys (fun (db : Db) e => isNew uuid5 chart client db.ledger e)
      movementKey db H.events = ((List.range H.n).filter fun k =>
        isNew uuid5 chart client db.ledger (H.event k)).map fun k => movementKey (H.event k) := by
    rw [FirstWins.freshKeys, events, List.filter_map, List.map_map]
    exact List.dedup_eq_self.mpr hnodup
  rw [hfresh, total_map]
  refine total_congr fun k hk => ?_
  obtain ⟨hk, hnew⟩ := List.mem_filter.mp hk
  exact hworth db hdb k (List.mem_range.mp hk) hnew

/-! ## When every refund is counted once -/

/-- Whatever the order and the repetitions, the refunds end up on both accounts once. -/
def CountedOnce (uuid5 : String → Uuid) (chart : Chart) (client : Option Client)
    (contra stripe : Account) (db : Db) (H : RefundHistory) : Prop :=
  ∀ es, (∀ e, e ∈ es ↔ e ∈ H.events) →
    (handleAll uuid5 chart client db es).ledger.balanceMinor contra =
        db.ledger.balanceMinor contra + H.refunded H.n ∧
      (handleAll uuid5 chart client db es).ledger.balanceMinor stripe =
        db.ledger.balanceMinor stripe - H.refunded H.n

lemma isNew_of_unseen {L : Ledger} (hL : L.Unseen uuid5 H.events)
    (hacc : RefundAccounts chart H.currency contra stripe) {k : ℕ} (hk : k < H.n) :
    isNew uuid5 chart client L (H.event k) = true := by
  obtain ⟨W, hpost, -⟩ := postable_event hacc hk
  refine isNew_iff.mpr ⟨_, W, hpost, Ledger.conflict_eq_none_iff.mpr ⟨?_, ?_, ?_⟩⟩
  · intro hmem
    obtain ⟨t, ht, heq⟩ := List.mem_map.mp hmem
    exact (hL _ (mem_events.mpr ⟨k, hk, rfl⟩) t ht).1 heq
  · intro t ht
    rw [← Bool.not_eq_true]
    intro hsq
    obtain ⟨x, hx, hx'⟩ := sqlEq_iff.mp hsq
    exact (hL _ (mem_events.mpr ⟨k, hk, rfl⟩) t ht).2.1 (hx.trans hx'.symm)
  · intro t ht
    rw [← Bool.not_eq_true]
    intro hsq
    obtain ⟨hty, hob⟩ := Bool.and_eq_true_iff.mp hsq
    obtain ⟨x, hx, hx'⟩ := sqlEq_iff.mp hty
    obtain ⟨o, ho, ho'⟩ := sqlEq_iff.mp hob
    refine (hL _ (mem_events.mpr ⟨k, hk, rfl⟩) t ht).2.2 ⟨hx.trans hx'.symm, o, ho, ?_⟩
    rw [moneyMovementObjectId_event]
    exact congrArg Except.ok ho'

/-- Keys other than the charge's belong to one event each, and such an event posts its refund. -/
lemma of_key_ne {k : ℕ} (hkey : H.key k ≠ H.chargeId) :
    H.listed k = true ∧ H.key k = (H.refund k).id ∧ H.amount k = (H.refund k).amount := by
  unfold key amount at *
  cases hk : H.listed k with
  | true => simp
  | false => simp [hk] at hkey

/-- The ledger is admitted and has a refund posted under the charge's id. -/
def ChargeKeyTaken (chart : Chart) (H : RefundHistory) (db : Db) : Prop :=
  db.ledger.Admitted chart ∧
    db.ledger.holds (.object "charge.refunded" H.chargeId) = true

lemma ChargeKeyTaken.handleEvent {db : Db} (h : ChargeKeyTaken chart H db) (e : Event) :
    ChargeKeyTaken chart H (handleEvent uuid5 chart client db e).2 :=
  ⟨handleEvent_admitted h.1 e, holds_handleEvent h.1.toRowsAdmitted e h.2⟩

/-- With the charge's key taken, an event that is new has a refund's key, which no other event
has. -/
lemma ChargeKeyTaken.key_unique {db : Db} (h : ChargeKeyTaken chart H db) {j : ℕ} (hj : j < H.n)
    (hnew : isNew uuid5 chart client db.ledger (H.event j) = true) {k : ℕ} (hk : k < H.n)
    (heq : H.key k = H.key j) : k = j := by
  have hjkey : H.key j ≠ H.chargeId := by
    intro hjkey
    obtain ⟨txn, W, hpost, hc⟩ := isNew_iff.mp hnew
    have hfree := holds_eq_false_of_conflict (postable_eq_some_iff.mp hpost).2.1 hc
    rw [movementKey_event, hjkey, h.2] at hfree
    exact absurd hfree (by simp)
  obtain ⟨-, hj', -⟩ := of_key_ne hjkey
  obtain ⟨-, hk', -⟩ := of_key_ne (heq ▸ hjkey)
  exact H.refund_id k hk j hj (by rw [← hk', ← hj', heq])

/-- Of the events that have the charge's id as their key the first is posted, so its amount has
to be what all of them report. -/
lemma CountedOnce.amount_eq (huuid : Function.Injective uuid5)
    (hacc : RefundAccounts chart H.currency contra stripe) {db : Db}
    (hL : db.ledger.Admitted chart) (hunseen : db.ledger.Unseen uuid5 H.events)
    (hcount : CountedOnce uuid5 chart client contra stripe db H) {g : ℕ} (hg : g < H.n)
    (hkey : H.key g = H.chargeId) :
    H.amount g =
      total (fun k => (H.refund k).amount)
        ((List.range H.n).filter fun k => H.key k = H.chargeId) := by
  set db' := (LedgerProof.handleEvent uuid5 chart client db (H.event g)).2 with hdb'
  have hnew : ∀ k < H.n, isNew uuid5 chart client db.ledger (H.event k) = true :=
    fun k hk => isNew_of_unseen hunseen hacc hk
  obtain ⟨txn, W, hpost, hc⟩ := isNew_iff.mp (hnew g hg)
  obtain ⟨-, hmap, hwrites⟩ := postable_eq_some_iff.mp hpost
  obtain rfl : H.txn uuid5 g = txn := by
    rw [mapEvent_event hg] at hmap
    simpa using hmap
  have hled : db'.ledger = db.ledger.append W := by
    rw [hdb', handleEvent_ledger hL.toRowsAdmitted, hpost]
    simp [hc]
  have htaken : ChargeKeyTaken chart H db' := by
    refine ⟨handleEvent_admitted hL _, ?_⟩
    obtain ⟨-, rows, -, rfl, -⟩ := LedgerTransaction.writes_ok_iff.mp hwrites
    rw [hled]
    exact Ledger.holds_object_iff.mpr ⟨(H.txn uuid5 g).row, by simp, rfl, congrArg some hkey⟩
  -- after this event, exactly those with a key of their own are new
  have hrest : ∀ k < H.n, isNew uuid5 chart client db'.ledger (H.event k) =
      !decide (H.key k = H.chargeId) := by
    intro k hk
    have hiff : isNew uuid5 chart client db'.ledger (H.event k) = true ↔ _ :=
      isNew_handleEvent_iff huuid hL.toRowsAdmitted fun h => by rw [event_inj hg hk h]
    rw [Bool.eq_iff_iff, hiff]
    simp [hnew k hk, hnew g hg, movementKey_event, hkey, @eq_comm _ H.chargeId]
  have hbal : (handleAll uuid5 chart client db' H.events).ledger.balanceMinor contra = _ :=
    balance_handleAll huuid hacc (fun k hk V hV => balanceMinor_contra hacc hk hV)
      (ChargeKeyTaken chart H) (fun _ hd => hd.1) (fun _ e hd _ => hd.handleEvent e)
      (fun _ hd j hj hj' k hk heq => hd.key_unique hj hj' hk heq) htaken (fun e => Iff.rfl)
  have hmem : ∀ e, e ∈ H.event g :: H.events ↔ e ∈ H.events := by
    intro e
    rw [List.mem_cons, or_iff_right_iff_imp]
    rintro rfl
    exact mem_events.mpr ⟨g, hg, rfl⟩
  have hfull : (handleAll uuid5 chart client db' H.events).ledger.balanceMinor contra = _ :=
    (hcount (H.event g :: H.events) hmem).1
  have hothers : total H.amount ((List.range H.n).filter fun k => !decide (H.key k = H.chargeId)) =
      total (fun k => (H.refund k).amount)
        ((List.range H.n).filter fun k => !decide (H.key k = H.chargeId)) := by
    refine total_congr fun k hk => ?_
    have hne : H.key k ≠ H.chargeId := by simpa using (List.mem_filter.mp hk).2
    exact (of_key_ne hne).2.2
  have hsplit := total_filter_add_not (fun k => (H.refund k).amount)
    (fun k => decide (H.key k = H.chargeId)) (List.range H.n)
  rw [hbal, List.filter_congr fun k hk => hrest k (List.mem_range.mp hk), hothers, hled,
    Ledger.balanceMinor_append, balanceMinor_contra hacc hg hpost, refunded] at hfull
  omega

/-- Every event after the first carries the list, and if the first one omits it, no later refund
goes by the charge's id. -/
def ListedAfterFirst (H : RefundHistory) : Prop :=
  ∀ k < H.n, k ≠ 0 → H.listed k = true ∧ (H.listed 0 = false → (H.refund k).id ≠ H.chargeId)

lemma ListedAfterFirst.amount_eq (h : H.ListedAfterFirst) {k : ℕ} (hk : k < H.n) :
    H.amount k = (H.refund k).amount := by
  unfold amount
  rcases Nat.eq_zero_or_pos k with rfl | hpos
  · rw [refunded_succ, show H.refunded 0 = 0 from rfl, zero_add, ite_self]
  · rw [if_pos (h k hk hpos.ne').1]

lemma ListedAfterFirst.key_inj (h : H.ListedAfterFirst) {i j : ℕ} (hi : i < H.n) (hj : j < H.n)
    (heq : H.key i = H.key j) : i = j := by
  by_cases hboth : H.listed i = true ∧ H.listed j = true
  · simp only [key, hboth.1, hboth.2, if_true] at heq
    exact H.refund_id i hi j hj heq
  · -- one of the two omits the list, so it is the first, and the other is not
    by_contra hne
    rcases Nat.eq_zero_or_pos i with rfl | hpos
    · obtain ⟨hlj, hid⟩ := h j hj (Ne.symm hne)
      have hl0 : H.listed 0 = false := by simpa [hlj] using hboth
      simp only [key, hl0, hlj, if_true] at heq
      exact hid hl0 heq.symm
    · obtain ⟨hli, hid⟩ := h i hi hpos.ne'
      rcases Nat.eq_zero_or_pos j with rfl | hpos'
      · have hl0 : H.listed 0 = false := by simpa [hli] using hboth
        simp only [key, hl0, hli, if_true] at heq
        exact hid hl0 heq
      · exact hboth ⟨hli, (h j hj hpos'.ne').1⟩

/-- Where the condition holds, the events are all new, each under its own key, and post what
they report. -/
lemma ListedAfterFirst.countedOnce (h : H.ListedAfterFirst) (huuid : Function.Injective uuid5)
    (hacc : RefundAccounts chart H.currency contra stripe) {db : Db}
    (hL : db.ledger.Admitted chart) (hunseen : db.ledger.Unseen uuid5 H.events) :
    CountedOnce uuid5 chart client contra stripe db H := by
  intro es hes
  have hall : ((List.range H.n).filter fun k =>
      isNew uuid5 chart client db.ledger (H.event k)) = List.range H.n :=
    List.filter_eq_self.mpr fun k hk => isNew_of_unseen hunseen hacc (List.mem_range.mp hk)
  have hsum : total H.amount (List.range H.n) = H.refunded H.n :=
    total_congr fun k hk => h.amount_eq (List.mem_range.mp hk)
  have hinv : ∀ (d : Db) e, d.ledger.Admitted chart → e ∈ H.events →
      (LedgerProof.handleEvent uuid5 chart client d e).2.ledger.Admitted chart :=
    fun d e hd _ => handleEvent_admitted hd e
  constructor
  · rw [balance_handleAll huuid hacc (fun k hk W hW => balanceMinor_contra hacc hk hW)
      (fun d => d.ledger.Admitted chart) (fun _ hd => hd) hinv
      (fun _ _ j hj _ k hk heq => h.key_inj hk hj heq) hL hes, hall, hsum]
  · rw [balance_handleAll huuid hacc (fun k hk W hW => balanceMinor_stripe hacc hk hW)
      (fun d => d.ledger.Admitted chart) (fun _ hd => hd) hinv
      (fun _ _ j hj _ k hk heq => h.key_inj hk hj heq) hL hes, hall, total_neg, hsum]
    ring

/-- The events that share the charge's key. -/
def shared (H : RefundHistory) : List ℕ := (List.range H.n).filter fun k => H.key k = H.chargeId

/-- Each event under the charge's key posts the refunds of all of them. -/
def PostsShared (H : RefundHistory) : Prop :=
  ∀ g < H.n, H.key g = H.chargeId → H.amount g = total (fun k => (H.refund k).amount) H.shared

lemma mem_shared {k : ℕ} : k ∈ H.shared ↔ k < H.n ∧ H.key k = H.chargeId := by simp [shared]

lemma key_of_omitted {k : ℕ} (hl : H.listed k = false) : H.key k = H.chargeId := by simp [key, hl]

/-- A refund that is listed under the charge's id shares the key with no other event. -/
lemma PostsShared.alone_of_listed (h : H.PostsShared) {j k : ℕ} (hj : j < H.n) (hk : k < H.n)
    (hl : H.listed j = true) (hkey : H.key j = H.chargeId) (hkey' : H.key k = H.chargeId) :
    j = k := by
  by_contra hne
  have hnonneg : ∀ k ∈ H.shared, 0 ≤ (H.refund k).amount :=
    fun k hk => (H.amount_pos k (mem_shared.mp hk).1).le
  have htwo := add_le_total hnonneg (mem_shared.mpr ⟨hj, hkey⟩) (mem_shared.mpr ⟨hk, hkey'⟩) hne
  have hown := h j hj hkey
  have hpos := H.amount_pos k hk
  simp only [amount, hl, if_true] at hown
  omega

/-- No two events omit the list: they would report different sums. -/
lemma PostsShared.eq_of_omitted (h : H.PostsShared) {j k : ℕ} (hj : j < H.n) (hk : k < H.n)
    (hlj : H.listed j = false) (hlk : H.listed k = false) : j = k := by
  have hsame := (h j hj (key_of_omitted hlj)).trans (h k hk (key_of_omitted hlk)).symm
  simp only [amount, hlj, hlk] at hsame
  rcases Nat.lt_trichotomy j k with hlt | heq | hlt
  · have := refunded_strictMono (H := H) (Nat.succ_lt_succ hlt) hk
    simp_all
  · exact heq
  · have := refunded_strictMono (H := H) (Nat.succ_lt_succ hlt) hj
    simp_all

/-- Only the first event can omit the list: a later one is alone under the key, and posts the
earlier refunds again. -/
lemma PostsShared.eq_zero_of_omitted (h : H.PostsShared) {k : ℕ} (hk : k < H.n)
    (hlk : H.listed k = false) : k = 0 := by
  by_contra hk0
  have halone : total (fun k => (H.refund k).amount) H.shared = (H.refund k).amount := by
    refine total_single (List.nodup_range.filter _) (mem_shared.mpr ⟨hk, key_of_omitted hlk⟩) ?_
    intro j hj hne
    obtain ⟨hj, hkey⟩ := mem_shared.mp hj
    cases hlj : H.listed j with
    | true => exact absurd (h.alone_of_listed hj hk hlj hkey (key_of_omitted hlk)) hne
    | false => exact absurd (h.eq_of_omitted hj hk hlj hlk) hne
  have hown : H.refunded (k + 1) = (H.refund k).amount := by
    rw [← halone, ← h k hk (key_of_omitted hlk), amount, hlk]
    rfl
  have hearlier := refunded_strictMono (H := H) (Nat.pos_of_ne_zero hk0) hk.le
  rw [refunded_succ] at hown
  rw [show H.refunded 0 = 0 from rfl] at hearlier
  omega

/-- Where it fails, two events meet under the charge's key, or one posts earlier refunds
again. -/
lemma CountedOnce.listedAfterFirst (huuid : Function.Injective uuid5)
    (hacc : RefundAccounts chart H.currency contra stripe) {db : Db}
    (hL : db.ledger.Admitted chart) (hunseen : db.ledger.Unseen uuid5 H.events)
    (hcount : CountedOnce uuid5 chart client contra stripe db H) : H.ListedAfterFirst := by
  have hposts : H.PostsShared := fun g hg hkey => hcount.amount_eq huuid hacc hL hunseen hg hkey
  intro k hk hk0
  have hlk : H.listed k = true := by
    rw [← Bool.not_eq_false]
    exact fun hlk => hk0 (hposts.eq_zero_of_omitted hk hlk)
  refine ⟨hlk, fun hl0 hid => hk0 ?_⟩
  have hkey : H.key k = H.chargeId := by simp [key, hlk, hid]
  exact hposts.alone_of_listed hk (Nat.lt_of_le_of_lt (Nat.zero_le k) hk) hlk hkey
    (key_of_omitted hl0)

/-- **When partial refunds are counted once.** From any admitted ledger that has not seen them,
the refunds of a charge end up on `refunds_contra` and `stripe_balance` exactly once, in every
order and with any repetitions, if and only if every event after the first carries the list of
refunds and, where the first omits it, no later refund goes by the charge's id. -/
theorem countedOnce_iff (huuid : Function.Injective uuid5)
    (hacc : RefundAccounts chart H.currency contra stripe) (db : Db)
    (hL : db.ledger.Admitted chart) (hunseen : db.ledger.Unseen uuid5 H.events) :
    CountedOnce uuid5 chart client contra stripe db H ↔ H.ListedAfterFirst :=
  ⟨fun hcount => hcount.listedAfterFirst huuid hacc hL hunseen,
    fun h => h.countedOnce huuid hacc hL hunseen⟩

/-- Two refunds of one charge, 3.00 and 5.00, with the shape of each event left open. -/
def twoRefunds (listed : ℕ → Bool) : RefundHistory where
  chargeId := "ch_1"
  currency := "usd"
  fields := []
  n := 2
  refund := fun k => if k = 0 then ⟨"re_1", 300, []⟩ else ⟨"re_2", 500, []⟩
  eventId := fun k => if k = 0 then "evt_1" else "evt_2"
  created := fun _ => 1700000000
  envelope := fun _ => []
  listed := listed
  no_list := rfl
  refund_id := by decide
  event_id := by decide
  amount_pos := by decide
  amount_fits := by decide
  created_datetime := by decide
  charge_nulFree := by decide
  refund_nulFree := by decide
  event_nulFree := by decide

lemma seedAccounts_refund :
    RefundAccounts seedChart "usd" (seedAccount 5 "refunds_contra" .expense)
      (seedAccount 1 "stripe_balance" .asset) where
  contra_find := by decide
  stripe_find := by decide
  contra_currency := by decide
  stripe_currency := by decide
  contra_normal := rfl
  stripe_normal := rfl

/-- With the list in the second event, both refunds are counted. -/
theorem countedOnce_iff_two :
    CountedOnce sampleUuid5 seedChart none (seedAccount 5 "refunds_contra" .expense)
      (seedAccount 1 "stripe_balance" .asset) ⟨.empty, []⟩ (twoRefunds (· == 1)) :=
  (countedOnce_iff sampleUuid5_injective seedAccounts_refund _ (Ledger.empty_admitted seedChart)
    (fun _ _ t ht => absurd ht (by simp [Ledger.empty]))).mpr (by
      intro k hk hk0
      have hk1 : k = 1 := by
        have : k < 2 := hk
        omega
      subst hk1
      decide)

/-- Without the list, the second refund is taken for the first one again: of 8.00, only 3.00 is
counted. -/
theorem not_countedOnce_unlisted :
    ¬CountedOnce sampleUuid5 seedChart none (seedAccount 5 "refunds_contra" .expense)
      (seedAccount 1 "stripe_balance" .asset) ⟨.empty, []⟩ (twoRefunds fun _ => false) := by
  intro h
  have hbal := (h (twoRefunds fun _ => false).events fun _ => Iff.rfl).1
  revert hbal
  decide +kernel

end RefundHistory

end LedgerProof
