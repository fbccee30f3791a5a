import LedgerProof.Recon.Expected

/-!
# Reconciling against Stripe

A balance transaction is compared with a ledger transaction on its object: the first one that is not
matched yet, or else, when all of them are, with the first once more.  A green verdict should mean
that Stripe's balance and the ledger's agree.

`Matching` is what the loop has established about the items it has seen: on each object as many
ledger transactions are matched as there were items, up to all of them, and the matched ones are
worth what the items that took them are worth.  An item beyond the number of ledger transactions on
its object adds nothing to the ledger's side, and an item listed again that takes a ledger
transaction of its own adds something to it: `green_stripe_agrees_iff` says that the two sides agree
exactly when these cancel, and `green_on_double_payout` is a green verdict on a payout that Stripe
has twice.
-/

namespace LedgerProof

/-- A balance transaction with an id, a source id, and integers for its amount and fee. -/
structure StripeItem where
  bt : ListedTransaction
  id : String
  source : String
  amount : ℤ
  fee : ℤ
  id_eq : bt.id = some id
  source_eq : bt.sourceId = some source
  amount_eq : bt.amount = .int amount
  fee_eq : bt.fee = .int fee

/-- The change to the Stripe balance. -/
def StripeItem.net (b : StripeItem) : ℤ := b.amount - b.fee

/-- No item with this id was listed before. -/
def firstTime (seen : List StripeItem) (b : StripeItem) : Bool := b.id ∉ seen.map (·.id)

/-- The item finds a ledger transaction of its own, when the ledger has `n o` of them on the object
`o`. -/
def ownTxn (n : String → ℕ) (seen : List StripeItem) (b : StripeItem) : Bool :=
  (seen.filter (·.source = b.source)).length < n b.source

/-- The sum of `f` over the items that satisfy `p` where they stand. -/
def sumWhere (p : List StripeItem → StripeItem → Bool) (f : StripeItem → ℤ) :
    List StripeItem → List StripeItem → ℤ
  | _, [] => 0
  | seen, b :: bs => (if p seen b then f b else 0) + sumWhere p f (seen ++ [b]) bs

/-- How many transactions the ledger has on an object. -/
def Ledger.countOn (L : Ledger) (o : String) : ℕ :=
  (L.transactions.filter (·.stripeObjectId = some o)).length

/-! ## Sums over a listing -/

section

variable {p q : List StripeItem → StripeItem → Bool} {f : StripeItem → ℤ}

lemma sumWhere_append (seen xs : List StripeItem) (b : StripeItem) :
    sumWhere p f seen (xs ++ [b]) =
      sumWhere p f seen xs + if p (seen ++ xs) b then f b else 0 := by
  induction xs generalizing seen with
  | nil => simp [sumWhere]
  | cons x xs ih =>
      rw [List.cons_append, sumWhere, ih, sumWhere, List.append_assoc, List.singleton_append]
      ring

/-- Two conditions differ by what satisfies one of them only. -/
lemma sumWhere_sub (seen xs : List StripeItem) :
    sumWhere p f seen xs - sumWhere q f seen xs =
      sumWhere (fun s b => p s b && !q s b) f seen xs -
        sumWhere (fun s b => !p s b && q s b) f seen xs := by
  induction xs generalizing seen with
  | nil => rfl
  | cons x xs ih =>
      have hrest := ih (seen ++ [x])
      simp only [sumWhere]
      by_cases hp : p seen x = true <;> by_cases hq : q seen x = true <;> simp [hp, hq] <;> linarith

/-- The items listed for the first time are the first occurrences. -/
lemma sumWhere_firstTime (seen xs : List StripeItem) :
    sumWhere firstTime f seen xs = total f (firsts StripeItem.id (seen.map (·.id)) xs) := by
  have hgen : ∀ ids, (∀ i, i ∈ ids ↔ i ∈ seen.map (·.id)) →
      sumWhere firstTime f seen xs = total f (firsts StripeItem.id ids xs) := by
    induction xs generalizing seen with
    | nil => exact fun _ _ => rfl
    | cons x xs ih =>
        intro ids hids
        have hmap : (seen ++ [x]).map (·.id) = seen.map (·.id) ++ [x.id] := by simp
        rw [sumWhere, firsts]
        by_cases hx : x.id ∈ ids
        · have hfirst : firstTime seen x = false := by
            simpa [firstTime] using (hids _).mp hx
          rw [hfirst, if_pos hx, ih (seen ++ [x]) ids]
          · simp
          · intro i
            rw [hids, hmap, List.mem_append, List.mem_singleton]
            exact ⟨.inl, fun h => h.elim id fun h => h ▸ (hids _).mp hx⟩
        · have hfirst : firstTime seen x = true := by
            have := fun h => hx ((hids _).mpr h)
            simpa [firstTime] using this
          rw [hfirst, if_neg hx, ih (seen ++ [x]) (x.id :: ids)]
          · simp
          · intro i
            rw [List.mem_cons, hids, hmap, List.mem_append, List.mem_singleton, or_comm]
  exact hgen _ fun _ => Iff.rfl

end

/-! ## The loop -/

/-- The ledger transactions on an object. -/
def candidates (ledger : List LedgerTxn) (o : String) : List LedgerTxn :=
  ledger.filter (·.objectId = some o)

/-- What is established after the items `seen`: how many transactions are matched on each object,
that nothing else is, and what the matched ones are worth, in terms of amount and fee. -/
structure Matching (ledger : List LedgerTxn) (seen : List StripeItem) (matched : List Uuid) :
    Prop where
  count : ∀ o, ((candidates ledger o).filter (·.txnId ∈ matched)).length =
    min (seen.filter (·.source = o)).length (candidates ledger o).length
  object : ∀ x ∈ ledger, x.txnId ∈ matched → x.objectId.isSome = true
  value : ∀ h : ℤ → ℤ → ℤ, total (fun x => h x.amount x.fee) (ledger.filter (·.txnId ∈ matched)) =
    sumWhere (ownTxn fun o => (candidates ledger o).length) (fun b => h b.amount b.fee) [] seen

lemma Matching.nil (ledger : List LedgerTxn) : Matching ledger [] [] where
  count := by simp
  object := by simp
  value := by simp [sumWhere]

section

variable {ledger : List LedgerTxn} {seen : List StripeItem} {matched : List Uuid} {b : StripeItem}
  {txn : LedgerTxn}

/-- Matching one more transaction of a list adds it to those that are matched. -/
lemma filter_matched_perm {l : List LedgerTxn} (hnd : (l.map (·.txnId)).Nodup) (hmem : txn ∈ l)
    (hnew : txn.txnId ∉ matched) :
    (l.filter (·.txnId ∈ txn.txnId :: matched)).Perm (txn :: l.filter (·.txnId ∈ matched)) := by
  have hl : l.Nodup := List.Nodup.of_map _ hnd
  refine (List.perm_ext_iff_of_nodup (hl.filter _) (List.nodup_cons.mpr ⟨?_, hl.filter _⟩)).mpr
    fun x => ?_
  · simp [hnew]
  · simp only [List.mem_filter, List.mem_cons, decide_eq_true_eq]
    constructor
    · rintro ⟨hx, heq | hx'⟩
      · exact .inl (List.inj_on_of_nodup_map hnd hx hmem heq)
      · exact .inr ⟨hx, hx'⟩
    · rintro (rfl | ⟨hx, hx'⟩)
      · exact ⟨hmem, .inl rfl⟩
      · exact ⟨hx, .inr hx'⟩

/-- **An item that finds a transaction of its own.** -/
lemma Matching.take (h : Matching ledger seen matched) (hnd : (ledger.map (·.txnId)).Nodup)
    (hmem : txn ∈ candidates ledger b.source) (hnew : txn.txnId ∉ matched)
    (hamount : txn.amount = b.amount) (hfee : txn.fee = b.fee) :
    Matching ledger (seen ++ [b]) (txn.txnId :: matched) := by
  obtain ⟨hledger, hobj⟩ := List.mem_filter.mp hmem
  have hobj : txn.objectId = some b.source := of_decide_eq_true hobj
  have hcand : ∀ o, ((candidates ledger o).map (·.txnId)).Nodup := fun o =>
    hnd.sublist (List.filter_sublist.map _)
  -- one of the transactions on the object was not matched yet
  have hlt : ((candidates ledger b.source).filter (·.txnId ∈ matched)).length <
      (candidates ledger b.source).length := by
    refine List.length_filter_lt_length_iff_exists.mpr ⟨txn, hmem, ?_⟩
    simpa using hnew
  refine ⟨fun o => ?_, fun x hx hxm => ?_, fun g => ?_⟩
  · by_cases ho : b.source = o
    · subst ho
      rw [(filter_matched_perm (hcand _) hmem hnew).length_eq, List.length_cons, h.count]
      rw [h.count] at hlt
      simp only [List.filter_append, List.length_append]
      simp only [List.filter_singleton]
      simp
      omega
    · have hother : (candidates ledger o).filter (·.txnId ∈ txn.txnId :: matched) =
          (candidates ledger o).filter (·.txnId ∈ matched) := by
        refine List.filter_congr fun x hx => ?_
        obtain ⟨hx, hxo⟩ := List.mem_filter.mp hx
        have hne : x.txnId ≠ txn.txnId := by
          intro heq
          have hsame := List.inj_on_of_nodup_map hnd hx hledger heq
          rw [hsame, decide_eq_true_eq, hobj] at hxo
          exact ho (Option.some_inj.mp hxo)
        simp [hne]
      rw [hother, h.count, List.filter_append]
      simp [ho]
  · rcases List.mem_cons.mp hxm with heq | hxm
    · rw [List.inj_on_of_nodup_map hnd hx hledger heq, hobj]
      rfl
    · exact h.object x hx hxm
  · rw [total_perm (filter_matched_perm hnd hledger hnew), total_cons, h.value, sumWhere_append]
    have hown : ownTxn (fun o => (candidates ledger o).length) ([] ++ seen) b = true := by
      rw [h.count] at hlt
      simp only [ownTxn, List.nil_append, decide_eq_true_eq]
      omega
    rw [hown, hamount, hfee]
    simp
    ring

/-- **An item for which no transaction is left.** -/
lemma Matching.reuse (h : Matching ledger seen matched) (hmem : txn ∈ candidates ledger b.source)
    (hall : ∀ x ∈ candidates ledger b.source, x.txnId ∈ matched) :
    Matching ledger (seen ++ [b]) (txn.txnId :: matched) := by
  have hsame : ∀ x : LedgerTxn, decide (x.txnId ∈ txn.txnId :: matched) =
      decide (x.txnId ∈ matched) := by
    intro x
    rw [decide_eq_decide, List.mem_cons]
    exact ⟨fun hx => hx.elim (fun heq => heq ▸ hall txn hmem) id, .inr⟩
  have hfull : (candidates ledger b.source).length ≤
      (seen.filter (·.source = b.source)).length := by
    have hcount := h.count b.source
    rw [List.filter_eq_self.mpr fun x hx => decide_eq_true (hall x hx)] at hcount
    omega
  refine ⟨fun o => ?_, fun x hx hxm => ?_, fun g => ?_⟩
  · simp only [hsame]
    rw [h.count, List.filter_append, List.length_append]
    by_cases ho : b.source = o
    · subst ho
      omega
    · simp [ho]
  · exact h.object x hx (of_decide_eq_true ((hsame x) ▸ decide_eq_true hxm))
  · simp only [hsame]
    rw [h.value, sumWhere_append]
    have hown : ownTxn (fun o => (candidates ledger o).length) ([] ++ seen) b = false := by
      simp only [ownTxn, List.nil_append, decide_eq_false_iff_not]
      omega
    rw [hown]
    simp

lemma ListedTransaction.mismatches_eq_nil_iff {bt : ListedTransaction} {amount fee : ℤ} :
    bt.mismatches txn amount fee = [] ↔ txn.amount = amount ∧ txn.fee = fee := by
  unfold ListedTransaction.mismatches
  by_cases ha : txn.amount = amount <;> by_cases hf : txn.fee = fee <;> simp [ha, hf]

/-- **One item**: the loop goes on, and as long as there is nothing to report the matching is
kept. -/
lemma StripeLoop.step_spec (hnd : (ledger.map (·.txnId)).Nodup) (seen : List StripeItem)
    (s : StripeLoop) (b : StripeItem) :
    ∃ s', s.step (Dict.group LedgerTxn.objectId ledger) b.bt = .ok s' ∧
      (s'.breaks = [] → s.breaks = [] ∧
        (Matching ledger seen s.matched → Matching ledger (seen ++ [b]) s'.matched)) := by
  have hcand : (Dict.group LedgerTxn.objectId ledger).getD b.source [] =
      candidates ledger b.source := Dict.getD_group _ _ _
  unfold StripeLoop.step
  simp only [b.amount_eq, b.fee_eq, b.source_eq, Json.toInt_int, except_ok_bind, hcand]
  cases hpick : pickTxn (candidates ledger b.source) s.matched with
  | none => exact ⟨_, rfl, fun hnil => by simp at hnil⟩
  | some txn =>
      refine ⟨_, rfl, fun hnil => ?_⟩
      obtain ⟨hbreaks, hagree⟩ := List.append_eq_nil_iff.mp hnil
      obtain ⟨hamount, hfee⟩ := ListedTransaction.mismatches_eq_nil_iff.mp hagree
      refine ⟨hbreaks, fun h => ?_⟩
      rcases Option.or_eq_some_iff.mp hpick with hfound | ⟨hnone, hhead⟩
      · have hnew : txn.txnId ∉ s.matched := by simpa using List.find?_some hfound
        exact h.take hnd (List.mem_of_find?_eq_some hfound) hnew hamount hfee
      · have hall : ∀ x ∈ candidates ledger b.source, x.txnId ∈ s.matched := by
          simpa using List.find?_eq_none.mp hnone
        exact h.reuse (List.mem_of_mem_head? hhead) hall

lemma StripeLoop.foldlM_spec (hnd : (ledger.map (·.txnId)).Nodup) (items seen : List StripeItem)
    (s : StripeLoop) :
    ∃ s', (items.map (·.bt)).foldlM (StripeLoop.step (Dict.group LedgerTxn.objectId ledger)) s =
        .ok s' ∧
      (s'.breaks = [] → s.breaks = [] ∧
        (Matching ledger seen s.matched → Matching ledger (seen ++ items) s'.matched)) := by
  induction items generalizing seen s with
  | nil => exact ⟨s, rfl, fun h => ⟨h, fun hm => by rwa [List.append_nil]⟩⟩
  | cons b items ih =>
      obtain ⟨s₁, hs₁, hstep⟩ := StripeLoop.step_spec hnd seen s b
      obtain ⟨s₂, hs₂, hrest⟩ := ih (seen ++ [b]) s₁
      refine ⟨s₂, ?_, fun hnil => ?_⟩
      · rw [List.map_cons, List.foldlM_cons, hs₁]
        exact hs₂
      · obtain ⟨hnil₁, hmatch₂⟩ := hrest hnil
        obtain ⟨hnil₀, hmatch₁⟩ := hstep hnil₁
        refine ⟨hnil₀, fun hm => ?_⟩
        have := hmatch₂ (hmatch₁ hm)
        rwa [List.append_assoc, List.singleton_append] at this

end

/-! ## The verdict -/

section

variable {chart : Chart} {L : Ledger}

lemma loadLedger_all (hL : L.Admitted chart) (since : Option ℤ) :
    loadLedger chart L none since = (L.inOrder since).map (L.summary chart none) := by
  rw [loadLedger_eq hL.toRowsAdmitted]
  congr 1
  refine List.filter_eq_self.mpr fun t ht => ?_
  have ht : t ∈ L.transactions := by
    rw [Ledger.inOrder, List.mem_insertionSort, List.mem_filter] at ht
    exact ht.1
  have hlen := hL.min_entries t ht
  obtain ⟨e, he⟩ := List.exists_mem_of_length_pos (by omega : 0 < (L.txnEntries t.id).length)
  exact decide_eq_true ((touchedAccounts_ne_nil_iff hL.toRowsAdmitted).mpr ⟨e, he, rfl⟩)

lemma inOrder_perm (L : Ledger) : (L.inOrder none).Perm L.transactions := by
  have hall : (L.transactions.filter fun t => (none : Option ℤ).all (· ≤ t.occurredAt)) =
      L.transactions := List.filter_eq_self.mpr fun _ _ => rfl
  rw [Ledger.inOrder, hall]
  exact List.perm_insertionSort _ _

lemma summary_fee (t : TransactionRow) :
    (L.summary chart none t).fee = L.deltaOn chart none t feeAccount :=
  summary_getD _ _ _ _ _

lemma summary_net (t : TransactionRow) :
    (L.summary chart none t).amount - (L.summary chart none t).fee =
      L.deltaOn chart none t stripeBalanceAccount := by
  rw [LedgerTxn.amount, add_sub_cancel_right]
  exact summary_getD _ _ _ _ _

/-- **A green verdict** values the ledger at the items that found a transaction of their own. -/
lemma value_of_ok (hL : L.Admitted chart) (items : List StripeItem) :
    ∃ r, reconcileStripe chart L (items.map (·.bt)) none = .ok r ∧ (r.ok = true →
      ∀ h : ℤ → ℤ → ℤ,
        total (fun t => h (L.summary chart none t).amount (L.summary chart none t).fee)
          (L.transactions.filter (·.stripeObjectId.isSome)) =
        sumWhere (ownTxn L.countOn) (fun b => h b.amount b.fee) [] items) := by
  have hload := loadLedger_all hL none
  have hnd : ((loadLedger chart L none none).map (·.txnId)).Nodup := by
    rw [hload, List.map_map]
    exact ((inOrder_perm L).map _).nodup_iff.mpr hL.transactions_pkey
  obtain ⟨s, hs, hspec⟩ := StripeLoop.foldlM_spec hnd items [] ⟨[], [], 0⟩
  let unmatched := (loadLedger chart L none none).filter fun txn =>
    txn.objectId.isSome && txn.txnId ∉ s.matched
  refine ⟨⟨s.breaks ++ unmatched.map LedgerTxn.unsettled ++ invariantBreaks (check chart L),
    s.checked, (check chart L).ok⟩, ?_, ?_⟩
  · dsimp only [reconcileStripe]
    rw [hs]
    rfl
  · intro hok h
    rw [ReconResult.ok, Bool.and_eq_true, List.isEmpty_iff, List.append_eq_nil_iff,
      List.append_eq_nil_iff, List.map_eq_nil_iff, List.filter_eq_nil_iff] at hok
    obtain ⟨⟨⟨hbreaks, hunmatched⟩, -⟩, -⟩ := hok
    have hmatch := (hspec hbreaks).2 (Matching.nil _)
    -- exactly the transactions with an object are matched
    have hfilter : (loadLedger chart L none none).filter (·.txnId ∈ s.matched) =
        (loadLedger chart L none none).filter (·.objectId.isSome) := by
      refine List.filter_congr fun x hx => ?_
      rw [Bool.eq_iff_iff, decide_eq_true_eq]
      refine ⟨hmatch.object x hx, fun hobj => ?_⟩
      by_contra hnot
      exact hunmatched x hx (by simp [hobj, hnot])
    have hcount : (fun o => (candidates (loadLedger chart L none none) o).length) = L.countOn := by
      funext o
      rw [candidates, hload, List.filter_map, List.length_map, Ledger.countOn]
      exact ((inOrder_perm L).filter _).length_eq
    have hvalue := hmatch.value h
    rw [hfilter, hcount, List.nil_append] at hvalue
    rw [← hvalue, hload, List.filter_map, total_map]
    exact (total_perm ((inOrder_perm L).filter _)).symm

end

/-- The sum over the items that were not listed before and find no transaction of their own: they
are compared with one that another item was matched to. -/
def reusedSum (L : Ledger) (f : StripeItem → ℤ) (items : List StripeItem) : ℤ :=
  sumWhere (fun seen b => firstTime seen b && !ownTxn L.countOn seen b) f [] items

/-- The sum over the items that were listed before and take a transaction of their own. -/
def repeatedSum (L : Ledger) (f : StripeItem → ℤ) (items : List StripeItem) : ℤ :=
  sumWhere (fun seen b => !firstTime seen b && ownTxn L.countOn seen b) f [] items

/-- **When a green verdict means agreement.**  With a green verdict the net changes and the fees of
the distinct balance transactions add up to the ledger's `stripe_balance` and `processing_fees`
deltas exactly when the items that reuse a matched transaction cancel against the repeated items
that take one. -/
theorem green_stripe_agrees_iff (chart : Chart) (L : Ledger) (hL : L.Admitted chart)
    (items : List StripeItem) :
    ∃ r, reconcileStripe chart L (items.map (·.bt)) none = .ok r ∧ (r.ok = true →
      ((total StripeItem.net (firsts StripeItem.id [] items) =
          total (fun t => L.deltaOn chart none t stripeBalanceAccount)
            (L.transactions.filter (·.stripeObjectId.isSome)) ∧
        total StripeItem.fee (firsts StripeItem.id [] items) =
          total (fun t => L.deltaOn chart none t feeAccount)
            (L.transactions.filter (·.stripeObjectId.isSome))) ↔
      (reusedSum L StripeItem.net items = repeatedSum L StripeItem.net items ∧
        reusedSum L StripeItem.fee items = repeatedSum L StripeItem.fee items))) := by
  obtain ⟨r, hr, hvalue⟩ := value_of_ok hL items
  refine ⟨r, hr, fun hok => ?_⟩
  have hnet : _ = sumWhere (ownTxn L.countOn) StripeItem.net [] items :=
    hvalue hok fun amount fee => amount - fee
  have hfee : _ = sumWhere (ownTxn L.countOn) StripeItem.fee [] items :=
    hvalue hok fun _ fee => fee
  simp only [summary_net] at hnet
  simp only [summary_fee] at hfee
  have hdiff : ∀ f : StripeItem → ℤ, total f (firsts StripeItem.id [] items) -
      sumWhere (ownTxn L.countOn) f [] items = reusedSum L f items - repeatedSum L f items := by
    intro f
    have hfirst : sumWhere firstTime f [] items = total f (firsts StripeItem.id [] items) :=
      sumWhere_firstTime [] items
    rw [← hfirst]
    exact sumWhere_sub [] items
  have hnet' := hdiff StripeItem.net
  have hfee' := hdiff StripeItem.fee
  rw [hnet, hfee]
  refine and_congr ?_ ?_
  · constructor <;> intro h <;> linarith
  · constructor <;> intro h <;> linarith

/-- A balance transaction on the payout `po_1`. -/
def payoutItem (id : String) : StripeItem :=
  { bt := ⟨some id, some "payout", .str "po_1", .int (-1000), .int 0⟩
    id := id
    source := "po_1"
    amount := -1000
    fee := 0
    id_eq := rfl
    source_eq := rfl
    amount_eq := rfl
    fee_eq := rfl }

/-- A payout that is listed twice, on two pages, is one payout. -/
theorem green_stripe_agrees_iff_listed_twice :
    ∃ r, reconcileStripe seedChart payoutLedger
        (([payoutItem "txn_1", payoutItem "txn_1"] : List StripeItem).map (·.bt)) none = .ok r ∧
      r.ok = true ∧
      total StripeItem.net (firsts StripeItem.id [] [payoutItem "txn_1", payoutItem "txn_1"]) =
        total (fun t => payoutLedger.deltaOn seedChart none t stripeBalanceAccount)
          (payoutLedger.transactions.filter (·.stripeObjectId.isSome)) := by
  obtain ⟨r, hr, hiff⟩ := green_stripe_agrees_iff seedChart payoutLedger payoutLedger_admitted
    [payoutItem "txn_1", payoutItem "txn_1"]
  have hok : r.ok = true := by
    have hgreen : (reconcileStripe seedChart payoutLedger
        (([payoutItem "txn_1", payoutItem "txn_1"] : List StripeItem).map (·.bt)) none).map
        ReconResult.ok = .ok true := rfl
    rw [hr] at hgreen
    exact Except.ok.inj hgreen
  exact ⟨r, hr, hok, ((hiff hok).mpr ⟨rfl, rfl⟩).1⟩

/-- Two payouts of 10.00 at Stripe, one in the ledger, and a green verdict. -/
theorem green_on_double_payout :
    ∃ r, reconcileStripe seedChart payoutLedger
        (([payoutItem "txn_1", payoutItem "txn_2"] : List StripeItem).map (·.bt)) none = .ok r ∧
      r.ok = true ∧
      total StripeItem.net (firsts StripeItem.id [] [payoutItem "txn_1", payoutItem "txn_2"]) ≠
        total (fun t => payoutLedger.deltaOn seedChart none t stripeBalanceAccount)
          (payoutLedger.transactions.filter (·.stripeObjectId.isSome)) := by
  refine ⟨_, rfl, rfl, ?_⟩
  have hstripe : total StripeItem.net
      (firsts StripeItem.id [] [payoutItem "txn_1", payoutItem "txn_2"]) = -2000 := rfl
  have hledger : total (fun t => payoutLedger.deltaOn seedChart none t stripeBalanceAccount)
      (payoutLedger.transactions.filter (·.stripeObjectId.isSome)) = -1000 := rfl
  rw [hstripe, hledger]
  decide

end LedgerProof
