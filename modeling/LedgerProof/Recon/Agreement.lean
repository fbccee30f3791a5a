import LedgerProof.Ledger.Conservation
import LedgerProof.Recon.ListingOrder
import LedgerProof.Recon.Pages
import LedgerProof.StripeIo.Movement

/-!
# The mapping and the reconciler agree

What `build_transaction` posts for an event, the reconciler reads back as the balance transaction
Stripe has for it: the signed delta on `processing_fees` is the fee, and the delta on
`stripe_balance` is the amount without it, for all four posting shapes and whether or not a zero
entry was skipped.

`Settled` is an event that `handle_event` posts, with the integers it posts.  Handling a list of
them into an empty ledger leaves exactly their transactions (`handleAll_settled`), each with its own
entries (`txnEntries_settled`), so that every object has one transaction and the listing, in any
order and on any pages, finds each one.
-/

namespace LedgerProof

/-! ## The movement of a handled event -/

/-- The movement that `handle_event` posts: with the fetched fee when the payload lacks it. -/
def Event.settledMovement (client : Option Client) (e : Event) : Except Exn Movement :=
  match e.movement .null, client with
  | .error (.missingFeeData bt), some c => do
      let fee ← resolveFee e bt c
      e.movement fee
  | r, _ => r

section

variable {uuid5 : String → Uuid} {client : Option Client}

/-- Only the entries can be short of a fee. -/
lemma buildTransaction_missingFeeData {e : Event} {feeMinor : Json} {bt : Option String}
    (h : buildTransaction uuid5 e feeMinor = .error (.missingFeeData bt)) :
    e.movement feeMinor = .error (.missingFeeData bt) := by
  have hpy : ∀ {α : Type} (x : Except PyError α),
      (liftM x : Except Exn α) ≠ .error (.missingFeeData bt) := by
    intro α x
    cases x <;> simp
  unfold buildTransaction at h
  obtain ⟨data, hdata, h⟩ := (except_bind_eq_error.mp h).resolve_left (hpy _)
  obtain ⟨obj, hobj, h⟩ := (except_bind_eq_error.mp h).resolve_left (hpy _)
  have hobject : e.object = .ok obj := by
    rw [Event.object, liftM_py_eq_ok.mp hdata, except_ok_bind, liftM_py_eq_ok.mp hobj]
  split_ifs at h with hinv hmapped
  · simp [pure, Except.pure] at h
  · obtain ⟨currency, -, h⟩ := (except_bind_eq_error.mp h).resolve_left (hpy _)
    rcases except_bind_eq_error.mp h with hent | ⟨entries, -, h⟩
    · rw [mapEntries_eq, except_map_eq_error] at hent
      rw [Event.movement, hobject, liftM_py_ok, except_ok_bind, hent]
    · obtain ⟨created, -, h⟩ := (except_bind_eq_error.mp h).resolve_left (hpy _)
      obtain ⟨occurredAt, -, h⟩ := (except_bind_eq_error.mp h).resolve_left (hpy _)
      obtain ⟨objectId, -, h⟩ := (except_bind_eq_error.mp h).resolve_left (hpy _)
      simp [pure, Except.pure] at h
  · simp [throw, throwThe, MonadExceptOf.throw] at h

lemma mapEvent_entries {e : Event} {txn : LedgerTransaction}
    (h : mapEvent uuid5 client e = .ok (some txn)) :
    ∃ m currency, e.settledMovement client = .ok m ∧ txn.entries = m.entries currency := by
  unfold mapEvent at h
  unfold Event.settledMovement
  split at h
  · rename_i bt c hmissing
    obtain ⟨fee, hfee, hbuild⟩ := except_bind_eq_ok.mp h
    obtain ⟨m, currency, hm, -, hentries⟩ := buildTransaction_entries hbuild
    refine ⟨m, currency, ?_, hentries⟩
    rw [buildTransaction_missingFeeData hmissing]
    simp only [hfee, except_ok_bind, hm]
  · obtain ⟨m, currency, hm, -, hentries⟩ := buildTransaction_entries h
    exact ⟨m, currency, by simp only [hm], hentries⟩

end

/-! ## What a movement is worth -/

/-- The `amount` of the balance transaction of a movement. -/
def Movement.stripeAmount : Movement → ℤ
  | .charge gross _ => gross
  | .refund amount => -amount
  | .dispute amount _ => -amount
  | .payout amount => -amount

/-- The `fee` of the balance transaction of a movement. -/
def Movement.stripeFee : Movement → ℤ
  | .charge _ fee => fee
  | .refund _ => 0
  | .dispute _ fee => fee
  | .payout _ => 0

/-- What an entry moves on a debit-normal account of this name. -/
def Entry.movesOn (name : String) (e : Entry) : ℤ :=
  if e.accountName = name then e.debitMinor - e.creditMinor else 0

lemma Movement.total_movesOn (currency name : String) (m : Movement) :
    total (Entry.movesOn name) (m.entries currency) =
      total (fun l => Entry.movesOn name ⟨l.1, l.2.1, l.2.2, currency⟩) m.legs :=
  m.total_entries currency fun account dir => by
    simp [Entry.movesOn, Entry.debitMinor, Entry.creditMinor]

/-- **The posting shapes**: the deltas on the two accounts are the fee and the net amount. -/
lemma Movement.total_fee (currency : String) (m : Movement) :
    total (Entry.movesOn feeAccount) (m.entries currency) = m.stripeFee := by
  rw [total_movesOn]
  cases m <;>
    simp [legs, stripeFee, Entry.movesOn, Entry.debitMinor, Entry.creditMinor, feeAccount]

lemma Movement.total_stripeBalance (currency : String) (m : Movement) :
    total (Entry.movesOn stripeBalanceAccount) (m.entries currency) =
      m.stripeAmount - m.stripeFee := by
  rw [total_movesOn]
  cases m <;>
    simp [legs, stripeAmount, stripeFee, Entry.movesOn, Entry.debitMinor, Entry.creditMinor,
      stripeBalanceAccount]
  ring

/-- What the rows of a transaction move on a debit-normal account is what its entries move. -/
lemma total_movesOn_of_becomes {chart : Chart} {tid : Uuid} {es : List Entry}
    {rows : List EntryRow} (h : List.Forall₂ (Entry.Becomes chart tid) es rows) {a : Account}
    (ha : a ∈ chart.accounts) (hnormal : a.normal = .debit) :
    total a.signed (rows.filter (·.accountId = a.id)) = total (Entry.movesOn a.name) es := by
  rw [total_signed_of_becomes h ha, total_filter]
  refine total_congr fun e _ => ?_
  by_cases hname : e.accountName = a.name
  · cases hdir : e.dir <;>
      simp [Entry.movesOn, Entry.signedOn, Entry.debitMinor, Entry.creditMinor, hname, hdir,
        hnormal]
  · simp [Entry.movesOn, hname]

/-! ## Events that are posted -/

/-- An event that `handle_event` posts into a ledger where its keys are free, with the movement's
identity and integers. -/
structure Settled (uuid5 : String → Uuid) (chart : Chart) (client : Option Client) where
  event : Event
  objectId : String
  movement : Movement
  txn : LedgerTransaction
  rows : Ledger
  postable_eq : postable uuid5 chart client event = some (txn, rows)
  objectId_eq : moneyMovementObjectId event = .ok (some objectId)
  movement_eq : event.settledMovement client = .ok movement

section

variable {uuid5 : String → Uuid} {chart : Chart} {client : Option Client}

namespace Settled

variable (s : Settled uuid5 chart client)

lemma txn_id : s.txn.id = uuid5 ("ledgerproof:" ++ s.event.id) :=
  (mapEvent_identity (postable_eq_some_iff.mp s.postable_eq).2.1).1

lemma txn_id_eq_iff (huuid : Function.Injective uuid5) (t : Settled uuid5 chart client) :
    s.txn.id = t.txn.id ↔ s.event.id = t.event.id := by
  rw [s.txn_id, t.txn_id, huuid.eq_iff]
  simp

lemma stripeEventId : s.txn.stripeEventId = some s.event.id :=
  (mapEvent_identity (postable_eq_some_iff.mp s.postable_eq).2.1).2.1

lemma stripeObjectId : s.txn.stripeObjectId = some s.objectId := by
  have hobj := (mapEvent_identity (postable_eq_some_iff.mp s.postable_eq).2.1).2.2.2
  rw [s.objectId_eq] at hobj
  exact (Except.ok.inj hobj).symm

lemma rows_eq : ∃ entries currency, s.rows = ⟨[s.txn.row], entries⟩ ∧
    (∀ r ∈ entries, r.transactionId = s.txn.id) ∧
    List.Forall₂ (Entry.Becomes chart s.txn.id) (s.movement.entries currency) entries := by
  obtain ⟨-, hmap, hwrites⟩ := postable_eq_some_iff.mp s.postable_eq
  obtain ⟨-, entries, hentries, hrows, -⟩ := LedgerTransaction.writes_ok_iff.mp hwrites
  obtain ⟨m, currency, hm, hmentries⟩ := mapEvent_entries hmap
  obtain rfl : s.movement = m := by
    rw [s.movement_eq] at hm
    exact Except.ok.inj hm
  refine ⟨entries, currency, hrows, fun r hr => mapM_row_tid_eq hentries hr, ?_⟩
  rw [← hmentries]
  exact (mapM_row_iff.mp hentries).2

lemma rows_transactions : s.rows.transactions = [s.txn.row] := by
  obtain ⟨entries, -, hrows, -⟩ := s.rows_eq
  rw [hrows]

end Settled

/-- The ledger that holds exactly these events. -/
def settledLedger (ss : List (Settled uuid5 chart client)) : Ledger :=
  committed (ss.map (·.rows))

lemma transactions_settled (ss : List (Settled uuid5 chart client)) :
    (settledLedger ss).transactions = ss.map (·.txn.row) := by
  induction ss with
  | nil => rfl
  | cons s ss ih =>
      rw [settledLedger, List.map_cons, committed_cons, Ledger.append_transactions,
        s.rows_transactions, List.map_cons, List.singleton_append, ← ih]
      rfl

/-- The keys of an event are free as long as no other event has its id or its object. -/
lemma conflict_settled (huuid : Function.Injective uuid5) {ss : List (Settled uuid5 chart client)}
    {s : Settled uuid5 chart client} (hid : ∀ t ∈ ss, t.event.id ≠ s.event.id)
    (hobj : ∀ t ∈ ss, t.objectId ≠ s.objectId) : (settledLedger ss).conflict s.txn.row = none := by
  rw [Ledger.conflict_eq_none_iff, transactions_settled]
  refine ⟨fun hmem => ?_, ?_, ?_⟩
  · obtain ⟨row, hrow, heq⟩ := List.mem_map.mp hmem
    obtain ⟨t, ht, rfl⟩ := List.mem_map.mp hrow
    exact hid t ht ((t.txn_id_eq_iff huuid s).mp heq)
  · intro row hrow
    obtain ⟨t, ht, rfl⟩ := List.mem_map.mp hrow
    change sqlEq t.txn.stripeEventId s.txn.stripeEventId = false
    rw [t.stripeEventId, s.stripeEventId]
    simpa [sqlEq] using hid t ht
  · intro row hrow
    obtain ⟨t, ht, rfl⟩ := List.mem_map.mp hrow
    change (sqlEq t.txn.eventType s.txn.eventType &&
      sqlEq t.txn.stripeObjectId s.txn.stripeObjectId) = false
    rw [t.stripeObjectId, s.stripeObjectId, Bool.and_eq_false_iff]
    exact .inr (by simpa [sqlEq] using hobj t ht)

/-- **Handling the events posts each of them.** -/
lemma handleAll_settled (huuid : Function.Injective uuid5) {ss : List (Settled uuid5 chart client)}
    (hids : (ss.map (·.event.id)).Nodup) (hobjs : (ss.map (·.objectId)).Nodup) (log : EventLog) :
    (handleAll uuid5 chart client ⟨.empty, log⟩ (ss.map (·.event))).ledger = settledLedger ss := by
  -- from any split of the list on, what is left is appended
  have hgen : ∀ pre post db, ss = pre ++ post → db.ledger = settledLedger pre →
      db.ledger.Admitted chart →
      (handleAll uuid5 chart client db (post.map (·.event))).ledger = settledLedger ss := by
    intro pre post
    induction post generalizing pre with
    | nil =>
        intro db hss hdb _
        rw [hss, List.append_nil, ← hdb]
        rfl
    | cons s post ih =>
        intro db hss hdb hL
        have hfresh : (settledLedger pre).conflict s.txn.row = none := by
          rw [hss, List.map_append, List.map_cons] at hids hobjs
          refine conflict_settled huuid (fun t ht heq => ?_) fun t ht heq => ?_
          · exact List.disjoint_of_nodup_append hids (List.mem_map_of_mem ht) (by simp [heq])
          · exact List.disjoint_of_nodup_append hobjs (List.mem_map_of_mem ht) (by simp [heq])
        refine ih (pre ++ [s]) _ (by rw [hss]; simp) ?_ (handleEvent_admitted hL s.event)
        rw [handleEvent_ledger hL.toRowsAdmitted, s.postable_eq]
        simp only [hdb, hfresh, if_true]
        rw [settledLedger, settledLedger, List.map_append, ← committed_append]
        rfl
  exact hgen [] ss ⟨.empty, log⟩ rfl rfl (Ledger.empty_admitted chart)

lemma settledLedger_admitted (huuid : Function.Injective uuid5)
    {ss : List (Settled uuid5 chart client)} (hids : (ss.map (·.event.id)).Nodup)
    (hobjs : (ss.map (·.objectId)).Nodup) : (settledLedger ss).Admitted chart := by
  rw [← handleAll_settled huuid hids hobjs []]
  exact handleAll_admitted (Ledger.empty_admitted chart) _

/-- Each transaction has its own entries. -/
lemma txnEntries_settled (huuid : Function.Injective uuid5)
    {ss : List (Settled uuid5 chart client)} (hids : (ss.map (·.event.id)).Nodup)
    {s : Settled uuid5 chart client} (hs : s ∈ ss) :
    (settledLedger ss).txnEntries s.txn.id = s.rows.entries := by
  -- the rows of an event are all its own
  have hown : ∀ t : Settled uuid5 chart client, t.rows.txnEntries s.txn.id =
      if t.event.id = s.event.id then t.rows.entries else [] := by
    intro t
    obtain ⟨entries, -, hrows, htid, -⟩ := t.rows_eq
    rw [hrows, Ledger.txnEntries]
    by_cases heq : t.event.id = s.event.id
    · rw [if_pos heq]
      refine List.filter_eq_self.mpr fun r hr => ?_
      rw [decide_eq_true_eq, htid r hr, t.txn_id_eq_iff huuid, heq]
    · rw [if_neg heq]
      refine List.filter_eq_nil_iff.mpr fun r hr hmem => heq ?_
      rwa [decide_eq_true_eq, htid r hr, t.txn_id_eq_iff huuid] at hmem
  have hall : ∀ ts : List (Settled uuid5 chart client), (settledLedger ts).txnEntries s.txn.id =
      (ts.filter (·.event.id = s.event.id)).flatMap (·.rows.entries) := by
    intro ts
    induction ts with
    | nil => rfl
    | cons t ts ih =>
        rw [settledLedger, List.map_cons, committed_cons, Ledger.txnEntries_append, hown]
        rw [settledLedger] at ih
        by_cases heq : t.event.id = s.event.id <;> simp [heq, ih]
  rw [hall, filter_key_eq_singleton hids hs]
  simp

lemma onObject_settled {ss : List (Settled uuid5 chart client)}
    (hobjs : (ss.map (·.objectId)).Nodup) {s : Settled uuid5 chart client} (hs : s ∈ ss) :
    (settledLedger ss).onObject none s.objectId = [s.txn.row] := by
  refine List.perm_singleton.mp (((inOrder_perm _).filter _).trans ?_)
  have hfilter : (ss.map (·.txn.row)).filter (·.stripeObjectId = some s.objectId) =
      (ss.filter (·.objectId = s.objectId)).map (·.txn.row) := by
    rw [List.filter_map]
    congr 1
    refine List.filter_congr fun t _ => ?_
    change decide (t.txn.stripeObjectId = some s.objectId) = _
    rw [decide_eq_decide, t.stripeObjectId, Option.some_inj]
  rw [transactions_settled, hfilter, filter_key_eq_singleton hobjs hs]
  rfl

lemma deltaOn_settled (huuid : Function.Injective uuid5) {ss : List (Settled uuid5 chart client)}
    (hids : (ss.map (·.event.id)).Nodup) {s : Settled uuid5 chart client} (hs : s ∈ ss)
    {a : Account} (ha : a ∈ chart.accounts) (hnormal : a.normal = .debit) :
    ∃ currency, (settledLedger ss).deltaOn chart none s.txn.row a.name =
      total (Entry.movesOn a.name) (s.movement.entries currency) := by
  obtain ⟨entries, currency, hrows, -, hbecomes⟩ := s.rows_eq
  refine ⟨currency, ?_⟩
  rw [deltaOn_name ha rfl, Ledger.netMinor, Ledger.entriesOn]
  change total a.signed (((settledLedger ss).txnEntries s.txn.id).filter _) = _
  rw [txnEntries_settled huuid hids hs, hrows]
  exact total_movesOn_of_becomes hbecomes ha hnormal

/-- This is the balance transaction that Stripe has for the event. -/
def Settled.Lists (s : Settled uuid5 chart client) (bt : ListedTransaction) : Prop :=
  bt.sourceId = some s.objectId ∧ bt.amount = .int s.movement.stripeAmount ∧
    bt.fee = .int s.movement.stripeFee

lemma Settled.Lists.readable {s : Settled uuid5 chart client} {bt : ListedTransaction}
    (h : s.Lists bt) : bt.amountMinor = s.movement.stripeAmount ∧
      bt.feeMinor = s.movement.stripeFee ∧ bt.readable = true := by
  obtain ⟨-, hamount, hfee⟩ := h
  rw [ListedTransaction.amountMinor, ListedTransaction.feeMinor, ListedTransaction.readable,
    hamount, hfee]
  exact ⟨rfl, rfl, rfl⟩

/-- The accounts of the two deltas. -/
structure ReadsBack (chart : Chart) (stripe fees : Account) : Prop where
  stripe_mem : stripe ∈ chart.accounts
  stripe_name : stripe.name = stripeBalanceAccount
  stripe_normal : stripe.normal = .debit
  fees_mem : fees ∈ chart.accounts
  fees_name : fees.name = feeAccount
  fees_normal : fees.normal = .debit

variable {stripe fees : Account}

/-- **The reconciler reads back what the mapping posted.** -/
lemma summary_settled (hacc : ReadsBack chart stripe fees) (huuid : Function.Injective uuid5)
    {ss : List (Settled uuid5 chart client)} (hids : (ss.map (·.event.id)).Nodup)
    {s : Settled uuid5 chart client} (hs : s ∈ ss) :
    ((settledLedger ss).summary chart none s.txn.row).amount = s.movement.stripeAmount ∧
      ((settledLedger ss).summary chart none s.txn.row).fee = s.movement.stripeFee := by
  obtain ⟨c, hstripe⟩ := deltaOn_settled huuid hids hs hacc.stripe_mem hacc.stripe_normal
  obtain ⟨c', hfee⟩ := deltaOn_settled huuid hids hs hacc.fees_mem hacc.fees_normal
  rw [hacc.stripe_name, Movement.total_stripeBalance] at hstripe
  rw [hacc.fees_name, Movement.total_fee] at hfee
  rw [summary_amount, summary_fee, Ledger.movedAmount, Ledger.movedFee, hstripe, hfee]
  exact ⟨sub_add_cancel _ _, rfl⟩

lemma candidates_settled (huuid : Function.Injective uuid5)
    {ss : List (Settled uuid5 chart client)} (hids : (ss.map (·.event.id)).Nodup)
    (hobjs : (ss.map (·.objectId)).Nodup) {s : Settled uuid5 chart client} (hs : s ∈ ss) :
    candidates (loadLedger chart (settledLedger ss) none none) s.objectId =
      [(settledLedger ss).summary chart none s.txn.row] := by
  rw [candidates_loaded (settledLedger_admitted huuid hids hobjs), onObject_settled hobjs hs,
    List.map_singleton]

/-- The balance transaction of an event has nothing to report, whenever it comes. -/
lemma reported_settled (hacc : ReadsBack chart stripe fees) (huuid : Function.Injective uuid5)
    {ss : List (Settled uuid5 chart client)} (hids : (ss.map (·.event.id)).Nodup)
    (hobjs : (ss.map (·.objectId)).Nodup) {s : Settled uuid5 chart client} (hs : s ∈ ss)
    {bt : ListedTransaction} (hbt : s.Lists bt) (k : ℕ) :
    reported (loadLedger chart (settledLedger ss) none none) bt k = 0 := by
  have hslot : slot (bt.candidates (loadLedger chart (settledLedger ss) none none)) k =
      some ((settledLedger ss).summary chart none s.txn.row) := by
    rw [ListedTransaction.candidates, hbt.1]
    simp only [candidates_settled huuid hids hobjs hs]
    cases k <;> rfl
  obtain ⟨hamount, hfee, -⟩ := hbt.readable
  obtain ⟨hamount', hfee'⟩ := summary_settled hacc huuid hids hs
  have hnil : bt.mismatches ((settledLedger ss).summary chart none s.txn.row) bt.amountMinor
      bt.feeMinor = [] := ListedTransaction.mismatches_eq_nil_iff.mpr
    ⟨hamount'.trans hamount.symm, hfee'.trans hfee.symm⟩
  simp only [reported, hslot, hnil]
  rfl

/-- With a balance transaction for every event no transaction is left over. -/
lemma leftOver_settled (huuid : Function.Injective uuid5)
    {ss : List (Settled uuid5 chart client)} (hids : (ss.map (·.event.id)).Nodup)
    (hobjs : (ss.map (·.objectId)).Nodup) {bts : List ListedTransaction}
    (hall : ∀ s ∈ ss, ∃ bt ∈ bts, s.Lists bt) :
    leftOver (loadLedger chart (settledLedger ss) none none)
      (advance ListedTransaction.sourceId 0 bts) = [] := by
  have hL := settledLedger_admitted huuid hids hobjs
  refine List.filter_eq_nil_iff.mpr fun txn htxn => ?_
  rw [loadLedger_all hL] at htxn
  obtain ⟨row, hrow, rfl⟩ := List.mem_map.mp htxn
  have hrow := (inOrder_perm _).mem_iff.mp hrow
  rw [transactions_settled] at hrow
  obtain ⟨s, hs, rfl⟩ := List.mem_map.mp hrow
  obtain ⟨bt, hbt, hlists⟩ := hall s hs
  have hcount : 0 < bts.countP (·.sourceId = some s.objectId) :=
    List.countP_pos_iff.mpr ⟨bt, hbt, by simp [hlists.1]⟩
  have hobj : ((settledLedger ss).summary chart none s.txn.row).objectId = some s.objectId :=
    s.stripeObjectId
  rw [hobj, Option.any_some, takenIds, candidates_settled huuid hids hobjs hs,
    List.take_of_length_le (by simp only [advance, List.length_singleton]; omega)]
  simp

lemma Settled.Lists.of_forall₂ {served : List (Settled uuid5 chart client)}
    {bts : List ListedTransaction} (h : List.Forall₂ Settled.Lists served bts) :
    (∀ s ∈ served, ∃ bt ∈ bts, s.Lists bt) ∧ ∀ bt ∈ bts, ∃ s ∈ served, s.Lists bt := by
  induction h with
  | nil => simp
  | cons hlists _ ih =>
      obtain ⟨hleft, hright⟩ := ih
      refine ⟨List.forall_mem_cons.mpr ⟨⟨_, by simp, hlists⟩, fun s hs => ?_⟩,
        List.forall_mem_cons.mpr ⟨⟨_, by simp, hlists⟩, fun bt hbt => ?_⟩⟩
      · obtain ⟨bt, hbt, h⟩ := hleft s hs
        exact ⟨bt, by simp [hbt], h⟩
      · obtain ⟨s, hs, h⟩ := hright bt hbt
        exact ⟨s, by simp [hs], h⟩

/-- Reconciling the events' ledger against their balance transactions, in any order. -/
lemma reconcileStripe_settled (hacc : ReadsBack chart stripe fees)
    (huuid : Function.Injective uuid5) {ss : List (Settled uuid5 chart client)}
    (hids : (ss.map (·.event.id)).Nodup) (hobjs : (ss.map (·.objectId)).Nodup)
    {served : List (Settled uuid5 chart client)} (hserved : served.Perm ss)
    {bts : List ListedTransaction} (hbts : List.Forall₂ Settled.Lists served bts) :
    reconcileStripe chart (settledLedger ss) bts none = .ok ⟨[], ss.length, true⟩ := by
  have hL := settledLedger_admitted huuid hids hobjs
  obtain ⟨hleft, hright⟩ := Settled.Lists.of_forall₂ hbts
  have hread : ∀ bt ∈ bts, bt.readable = true := fun bt hbt => by
    obtain ⟨s, -, hlists⟩ := hright bt hbt
    exact hlists.readable.2.2
  obtain ⟨breaks, hr, hkeys⟩ := reconcileStripe_eq hL hread none
  have hbreaks : breaks = [] := by
    rw [placed_eq_zero, Multiset.coe_eq_zero, List.map_eq_nil_iff] at hkeys
    · exact hkeys
    · intro bt hbt k
      obtain ⟨s, hs, hlists⟩ := hright bt hbt
      exact reported_settled hacc huuid hids hobjs (hserved.mem_iff.mp hs) hlists k
  have hinv : invariantBreaks (check chart (settledLedger ss)) = [] := by
    refine List.map_eq_nil_iff.mpr (List.filter_eq_nil_iff.mpr fun c hc => ?_)
    simp [List.all_eq_true.mp hL.check_ok c hc]
  have hlen : bts.length = ss.length := hbts.length_eq.symm.trans hserved.length_eq
  rw [hr, hbreaks, hinv, hL.check_ok, hlen,
    leftOver_settled huuid hids hobjs fun s hs => hleft s (hserved.mem_iff.mpr hs)]
  rfl

end

lemma seedChart_readsBack : ReadsBack seedChart (seedAccount 1 "stripe_balance" .asset)
    (seedAccount 3 "processing_fees" .expense) where
  stripe_mem := by decide
  stripe_name := rfl
  stripe_normal := rfl
  fees_mem := by decide
  fees_name := rfl
  fees_normal := rfl

/-- **The mapping and the reconciler agree.**  Events with ids and objects of their own, handled in
any order into an empty ledger, reconcile without a break against their balance transactions, served
in any order and on pages of any size. -/
theorem mapping_reconciles {uuid5 : String → Uuid} (huuid : Function.Injective uuid5)
    {client : Option Client} (ss : List (Settled uuid5 seedChart client))
    (hids : (ss.map (·.event.id)).Nodup) (hobjs : (ss.map (·.objectId)).Nodup) (log : EventLog)
    {served : List (Settled uuid5 seedChart client)} (hserved : served.Perm ss)
    {bts : List ListedTransaction} (hbts : List.Forall₂ Settled.Lists served bts)
    (hbtids : (bts.map (·.id)).Nodup) (hstr : ∀ bt ∈ bts, bt.id.isSome = true)
    {limit : ℕ} (hlimit : 1 ≤ limit) {requests : ℕ} (hrequests : bts.length < requests) :
    ∃ r, reconcileStripeWith (serveList bts) limit none seedChart
        (handleAll uuid5 seedChart client ⟨.empty, log⟩ (ss.map (·.event))).ledger requests () =
          some (.ok r) ∧
      r.ok = true ∧ r.breaks = [] ∧ r.checked = ss.length := by
  have hpages : iterBalanceTransactions (serveList bts) limit none requests () = some bts :=
    iterLoop_serveList hlimit hbtids hstr (List.nil_append bts).symm rfl (by simp) hrequests
  rw [reconcileStripeWith, hpages, handleAll_settled huuid hids hobjs log, Option.map_some,
    reconcileStripe_settled seedChart_readsBack huuid hids hobjs hserved hbts]
  exact ⟨_, rfl, rfl, rfl, rfl⟩

/-- An event that is posted on the seeded chart, its movement evaluated. -/
def settledEvent (e : Event) (objectId : String) (m : Movement)
    (hpost : (postable sampleUuid5 seedChart none e).isSome = true)
    (hobj : moneyMovementObjectId e = .ok (some objectId))
    (hm : e.settledMovement none = .ok m) : Settled sampleUuid5 seedChart none where
  event := e
  objectId := objectId
  movement := m
  txn := ((postable sampleUuid5 seedChart none e).get hpost).1
  rows := ((postable sampleUuid5 seedChart none e).get hpost).2
  postable_eq := (Option.some_get hpost).symm
  objectId_eq := hobj
  movement_eq := hm

/-- A charge of 10.00 and a dispute of 10.00 with a fee of 15.00. -/
def settledCharge : Settled sampleUuid5 seedChart none :=
  settledEvent (twinCharge "evt_2") "ch_1" (.charge 1000 59) (by decide) (by decide) (by decide)

def settledDispute : Settled sampleUuid5 seedChart none :=
  settledEvent (feeDispute 1000 [1500]) "dp_1" (.dispute 1000 1500) (by decide) (by decide)
    (by decide)

/-- The two, listed in the other order on pages of one item. -/
theorem mapping_reconciles_charge_and_dispute :
    ∃ r, reconcileStripeWith (serveList [⟨some "txn_2", none, .str "dp_1", .int (-1000), .int 1500⟩,
        ⟨some "txn_1", none, .str "ch_1", .int 1000, .int 59⟩]) 1 none seedChart
        (handleAll sampleUuid5 seedChart none ⟨.empty, []⟩
          [twinCharge "evt_2", feeDispute 1000 [1500]]).ledger 3 () = some (.ok r) ∧
      r.ok = true ∧ r.breaks = [] ∧ r.checked = 2 :=
  mapping_reconciles sampleUuid5_injective [settledCharge, settledDispute] (by decide) (by decide)
    [] (List.Perm.swap settledCharge settledDispute [])
    (.cons ⟨rfl, rfl, rfl⟩ (.cons ⟨rfl, rfl, rfl⟩ .nil)) (by decide) (by decide) le_rfl
    (by decide)

end LedgerProof
