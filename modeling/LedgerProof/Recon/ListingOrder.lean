import LedgerProof.Lib.Positions
import LedgerProof.Recon.Stripe
import LedgerProof.Worker.OrderIndependence

/-!
# The order of the listing

`reconcile_stripe` compares the `k`-th balance transaction it reads on an object with the `k`-th
ledger transaction on that object, oldest first, and from the end of these on with the first one
again.  Which numbers are compared with which therefore depends on the order in which Stripe lists
the balance transactions, and Stripe lists them newest first.

`stripeVerdict_eq` gives the verdict as a sum over positions, `placed`, next to a part that depends
on nothing but how many balance transactions each object has.  `listing_order_irrelevant_iff` then
reads off when the order does not matter: on every object the listed amounts are all the same, or
those of the ledger transactions they are compared with are, and so for the fees.
`charge_and_refund_reversed` is a charge and its refund on one object, both posted and both listed:
green in the ledger's order, red in Stripe's.
-/

namespace LedgerProof

/-! ## Verdicts -/

/-- What a break says, without the event it names and its text. -/
abbrev BreakKey := BreakKind × Option String × Option ℤ × Option ℤ

def Break.key (b : Break) : BreakKey := (b.kind, b.objectId, b.expectedMinor, b.actualMinor)

/-- The verdict: `ok`, and the breaks regardless of their order. -/
def ReconResult.verdict (r : ReconResult) : Bool × Multiset BreakKey :=
  (r.ok, ↑(r.breaks.map Break.key))

/-- The verdict of `reconcile_stripe`, when it returns one. -/
def stripeVerdict (chart : Chart) (L : Ledger) (bts : List ListedTransaction)
    (createdGte : Option ℤ) : Option (Bool × Multiset BreakKey) :=
  (reconcileStripe chart L bts createdGte).toOption.map ReconResult.verdict

/-- `int(bt.get("amount", 0))` and `int(bt.get("fee", 0))` return. -/
def ListedTransaction.readable (bt : ListedTransaction) : Bool :=
  bt.amount.toInt.isOk && bt.fee.toInt.isOk

/-! ## Numbered comparisons -/

section

variable {β : Type*}

/-- What the `k`-th balance transaction on an object is compared with. -/
def slot (cs : List β) (k : ℕ) : Option β := cs[k]?.or cs.head?

lemma slot_mem {cs : List β} {k m : ℕ} {c : β} (h : slot cs k = some c) (hk : k < m) :
    c ∈ cs.take m := by
  rcases Option.or_eq_some_iff.mp h with hget | ⟨-, hhead⟩
  · obtain ⟨hlen, rfl⟩ := List.getElem?_eq_some_iff.mp hget
    exact List.mem_take_iff_getElem.mpr ⟨k, by omega, rfl⟩
  · rw [List.head?_eq_getElem?] at hhead
    obtain ⟨hlen, rfl⟩ := List.getElem?_eq_some_iff.mp hhead
    exact List.mem_take_iff_getElem.mpr ⟨0, by omega, rfl⟩

/-- The values at all numbers in use agree when neighbouring ones do. -/
lemma forall_take_eq_iff {γ : Type*} (cs : List β) (m : ℕ) (h : β → γ) :
    (∀ c ∈ cs.take m, ∀ c' ∈ cs.take m, h c = h c') ↔
      ∀ k, k + 1 < m → ∀ c c', slot cs k = some c → slot cs (k + 1) = some c' → h c = h c' := by
  constructor
  · intro hall k hk c c' hc hc'
    exact hall c (slot_mem hc (by omega)) c' (slot_mem hc' hk)
  · intro hnext
    -- every value is the one at number 0
    have hfirst : ∀ i c c₀, i < m → cs[i]? = some c → cs[0]? = some c₀ → h c = h c₀ := by
      intro i
      induction i with
      | zero =>
          intro c c₀ _ hc hc₀
          rw [Option.some_inj.mp (hc.symm.trans hc₀)]
      | succ i ih =>
          intro c c₀ hi hc hc₀
          obtain ⟨hlen, -⟩ := List.getElem?_eq_some_iff.mp hc
          have hprev : cs[i]? = some cs[i] := List.getElem?_eq_getElem (by omega)
          rw [← ih cs[i] c₀ (by omega) hprev hc₀]
          exact (hnext i hi cs[i] c (by rw [slot, hprev]; rfl) (by rw [slot, hc]; rfl)).symm
    intro c hc c' hc'
    obtain ⟨i, hi, rfl⟩ := List.mem_take_iff_getElem.mp hc
    obtain ⟨j, hj, rfl⟩ := List.mem_take_iff_getElem.mp hc'
    have hzero : cs[0]? = some cs[0] := List.getElem?_eq_getElem (by omega)
    rw [hfirst i cs[i] cs[0] (by omega) (List.getElem?_eq_getElem _) hzero,
      hfirst j cs[j] cs[0] (by omega) (List.getElem?_eq_getElem _) hzero]

end

/-- The ledger transactions a balance transaction may be compared with. -/
def ListedTransaction.candidates (ledger : List LedgerTxn) (bt : ListedTransaction) :
    List LedgerTxn :=
  match bt.sourceId with
  | some o => LedgerProof.candidates ledger o
  | none => []

/-- The amount and the fee of a balance transaction that can be read. -/
def ListedTransaction.amountMinor (bt : ListedTransaction) : ℤ := bt.amount.toInt.toOption.getD 0

def ListedTransaction.feeMinor (bt : ListedTransaction) : ℤ := bt.fee.toInt.toOption.getD 0

/-- What a balance transaction has reported when it is the `k`-th on its object. -/
def reported (ledger : List LedgerTxn) (bt : ListedTransaction) (k : ℕ) : Multiset BreakKey :=
  match slot (bt.candidates ledger) k with
  | none => {(bt.missingInLedger bt.amountMinor).key}
  | some txn => ↑((bt.mismatches txn bt.amountMinor bt.feeMinor).map Break.key)

/-- The ids of the first transactions on an object, as many as it had balance transactions. -/
def takenIds (ledger : List LedgerTxn) (n : Option String → ℕ) (o : String) : List Uuid :=
  ((candidates ledger o).take (n (some o))).map (·.txnId)

/-- The set `matched` when each object had `n` of the balance transactions. -/
def Taken (ledger : List LedgerTxn) (n : Option String → ℕ) (matched : List Uuid) : Prop :=
  ∀ o, ∀ x ∈ candidates ledger o, x.txnId ∈ matched ↔ x.txnId ∈ takenIds ledger n o

/-- What the ledger transactions have reported that no balance transaction was matched to. -/
def leftOver (ledger : List LedgerTxn) (n : Option String → ℕ) : List LedgerTxn :=
  ledger.filter fun txn => txn.objectId.any fun o => txn.txnId ∉ takenIds ledger n o

section

variable {ledger : List LedgerTxn} {n : Option String → ℕ} {matched : List Uuid}
  {bt : ListedTransaction}

lemma ListedTransaction.readable_iff : bt.readable = true ↔
    bt.amount.toInt = .ok bt.amountMinor ∧ bt.fee.toInt = .ok bt.feeMinor := by
  rw [readable, amountMinor, feeMinor, Bool.and_eq_true]
  refine and_congr ?_ ?_
  · cases bt.amount.toInt <;> simp [Except.isOk, Except.toBool, Except.toOption]
  · cases bt.fee.toInt <;> simp [Except.isOk, Except.toBool, Except.toOption]

lemma Taken.nil (ledger : List LedgerTxn) : Taken ledger 0 [] := by
  intro o x _
  simp [takenIds]

/-- The first transaction that is not matched is the one at the number of the item. -/
lemma pickTxn_eq_slot {cs : List LedgerTxn} (hnd : (cs.map (·.txnId)).Nodup) {k : ℕ}
    (h : ∀ x ∈ cs, x.txnId ∈ matched ↔ x.txnId ∈ (cs.take k).map (·.txnId)) :
    pickTxn cs matched = slot cs k := by
  have htake : (cs.take k).find? (fun c => c.txnId ∉ matched) = none := by
    refine List.find?_eq_none.mpr fun x hx => ?_
    simpa using (h x (List.mem_of_mem_take hx)).mpr (List.mem_map_of_mem hx)
  have hfind : cs.find? (fun c => c.txnId ∉ matched) = cs[k]? := by
    conv_lhs => rw [← List.take_append_drop k cs]
    rw [List.find?_append, htake, Option.none_or, ← List.head?_drop]
    cases hdrop : cs.drop k with
    | nil => rfl
    | cons c rest =>
        have hc : c ∈ cs.drop k := by simp [hdrop]
        have hnew : c.txnId ∉ matched := by
          intro hmem
          rw [← List.take_append_drop k cs, List.map_append] at hnd
          exact (List.disjoint_of_nodup_append hnd)
            ((h c (List.mem_of_mem_drop hc)).mp hmem) (List.mem_map_of_mem hc)
        rw [List.find?_cons_of_pos (by simpa using hnew), List.head?_cons]
  rw [pickTxn, hfind, slot]

/-- An item without a source, or on an object the ledger does not know, matches nothing. -/
lemma Taken.skip (h : Taken ledger n matched) (hnone : bt.candidates ledger = []) :
    Taken ledger (advance ListedTransaction.sourceId n [bt]) matched := by
  intro o x hx
  rw [h o x hx]
  by_cases ho : bt.sourceId = some o
  · simp only [ListedTransaction.candidates, ho] at hnone
    simp [hnone] at hx
  · simp [takenIds, advance, ho]

/-- An item is matched to the transaction at its number. -/
lemma Taken.take (hnd : (ledger.map (·.txnId)).Nodup) (h : Taken ledger n matched) {txn : LedgerTxn}
    (hslot : slot (bt.candidates ledger) (n bt.sourceId) = some txn) :
    Taken ledger (advance ListedTransaction.sourceId n [bt]) (txn.txnId :: matched) := by
  obtain ⟨src, hsrc⟩ : ∃ src, bt.sourceId = some src := by
    cases hsrc : bt.sourceId with
    | none => simp [ListedTransaction.candidates, hsrc, slot] at hslot
    | some src => exact ⟨src, rfl⟩
  simp only [ListedTransaction.candidates, hsrc] at hslot
  have hmem : txn ∈ candidates ledger src :=
    List.mem_of_mem_take (slot_mem hslot (Nat.lt_succ_self _))
  intro o x hx
  rw [List.mem_cons, h o x hx]
  by_cases ho : src = o
  · subst ho
    have hnext : advance ListedTransaction.sourceId n [bt] (some src) = n (some src) + 1 := by
      rw [← hsrc, advance_singleton_self]
    rw [takenIds, takenIds, hnext, List.take_add_one, List.map_append, List.mem_append]
    cases hget : (candidates ledger src)[n (some src)]? with
    | some c =>
        rw [slot, hget, Option.some_or, Option.some_inj] at hslot
        rw [hslot, or_comm]
        simp
    | none =>
        -- all transactions on the object are matched already
        have hall : (candidates ledger src).take (n (some src)) = candidates ledger src :=
          List.take_of_length_le (List.getElem?_eq_none_iff.mp hget)
        rw [hall]
        have hxmem := List.mem_map_of_mem (f := (·.txnId)) hx
        exact iff_of_true (.inr hxmem) (.inl hxmem)
  · have hne : x.txnId ≠ txn.txnId := by
      intro heq
      obtain ⟨hx, hxo⟩ := List.mem_filter.mp hx
      obtain ⟨ht, hto⟩ := List.mem_filter.mp hmem
      rw [List.inj_on_of_nodup_map hnd hx ht heq, of_decide_eq_true hto] at hxo
      exact ho (Option.some_inj.mp (of_decide_eq_true hxo))
    simp [takenIds, advance, hsrc, ho, hne]

/-- **One item** at its number. -/
lemma StripeLoop.step_placed (hnd : (ledger.map (·.txnId)).Nodup) {s : StripeLoop}
    (hs : Taken ledger n s.matched) (hread : bt.readable = true) :
    ∃ s', s.step (Dict.group LedgerTxn.objectId ledger) bt = .ok s' ∧
      Taken ledger (advance ListedTransaction.sourceId n [bt]) s'.matched ∧
      s'.checked = s.checked + 1 ∧
      (↑(s'.breaks.map Break.key) : Multiset BreakKey) =
        ↑(s.breaks.map Break.key) + reported ledger bt (n bt.sourceId) := by
  obtain ⟨hamount, hfee⟩ := ListedTransaction.readable_iff.mp hread
  have hpick : pickTxn (bt.candidates ledger) s.matched =
      slot (bt.candidates ledger) (n bt.sourceId) := by
    unfold ListedTransaction.candidates
    cases hsrc : bt.sourceId with
    | none => rfl
    | some o => exact pickTxn_eq_slot (hnd.sublist (List.filter_sublist.map _)) (hs o)
  have hstep : s.step (Dict.group LedgerTxn.objectId ledger) bt =
      match slot (bt.candidates ledger) (n bt.sourceId) with
      | none => .ok { s with
          checked := s.checked + 1
          breaks := s.breaks ++ [bt.missingInLedger bt.amountMinor] }
      | some txn => .ok { s with
          checked := s.checked + 1
          matched := txn.txnId :: s.matched
          breaks := s.breaks ++ bt.mismatches txn bt.amountMinor bt.feeMinor } := by
    rw [← hpick]
    unfold StripeLoop.step ListedTransaction.candidates
    rw [hamount, hfee]
    cases bt.sourceId with
    | none => rfl
    | some o =>
        simp only [except_ok_bind, Dict.getD_group]
        rfl
  rw [hstep]
  unfold reported
  cases hslot : slot (bt.candidates ledger) (n bt.sourceId) with
  | none =>
      refine ⟨_, rfl, hs.skip ?_, rfl, by rw [List.map_append, ← Multiset.coe_add]; rfl⟩
      rw [slot, Option.or_eq_none_iff] at hslot
      exact List.head?_eq_none_iff.mp hslot.2
  | some txn => exact ⟨_, rfl, hs.take hnd hslot, rfl, by simp⟩

/-- **The whole listing**: what is reported is a sum over positions. -/
lemma StripeLoop.foldlM_placed (hnd : (ledger.map (·.txnId)).Nodup) {bts : List ListedTransaction}
    (hread : ∀ bt ∈ bts, bt.readable = true) {s : StripeLoop} (hs : Taken ledger n s.matched) :
    ∃ s', bts.foldlM (StripeLoop.step (Dict.group LedgerTxn.objectId ledger)) s = .ok s' ∧
      Taken ledger (advance ListedTransaction.sourceId n bts) s'.matched ∧
      s'.checked = s.checked + bts.length ∧
      (↑(s'.breaks.map Break.key) : Multiset BreakKey) = ↑(s.breaks.map Break.key) +
        placed ListedTransaction.sourceId (reported ledger) n bts := by
  induction bts generalizing n s with
  | nil => exact ⟨s, rfl, hs, rfl, by simp [placed]⟩
  | cons bt bts ih =>
      obtain ⟨s₁, hstep, htaken₁, hchecked₁, hbreaks₁⟩ :=
        StripeLoop.step_placed hnd hs (hread bt (by simp))
      obtain ⟨s₂, hrest, htaken₂, hchecked₂, hbreaks₂⟩ :=
        ih (fun b hb => hread b (by simp [hb])) htaken₁
      refine ⟨s₂, ?_, ?_, ?_, ?_⟩
      · rw [List.foldlM_cons, hstep]
        exact hrest
      · rw [advance_cons]
        exact htaken₂
      · rw [hchecked₂, hchecked₁, List.length_cons]
        omega
      · rw [hbreaks₂, hbreaks₁, placed, add_assoc]

/-- An item that cannot be read makes the loop raise. -/
lemma StripeLoop.readable_of_foldlM {byObject : Dict String (List LedgerTxn)}
    {bts : List ListedTransaction} {s s' : StripeLoop}
    (h : bts.foldlM (StripeLoop.step byObject) s = .ok s') :
    ∀ bt ∈ bts, bt.readable = true := by
  induction bts generalizing s with
  | nil => simp
  | cons bt bts ih =>
      rw [List.foldlM_cons] at h
      obtain ⟨s₁, hstep, hrest⟩ := except_bind_eq_ok.mp h
      refine List.forall_mem_cons.mpr ⟨?_, ih hrest⟩
      obtain ⟨amount, hamount, hstep⟩ := except_bind_eq_ok.mp hstep
      obtain ⟨fee, hfee, -⟩ := except_bind_eq_ok.mp hstep
      rw [ListedTransaction.readable, hamount, hfee]
      rfl

lemma Taken.leftOver_eq (h : Taken ledger n matched) :
    (ledger.filter fun txn => txn.objectId.isSome && txn.txnId ∉ matched) = leftOver ledger n := by
  refine List.filter_congr fun x hx => ?_
  cases hobj : x.objectId with
  | none => rfl
  | some o =>
      have hmem : x ∈ candidates ledger o := List.mem_filter.mpr ⟨hx, by simp [hobj]⟩
      simp [h o x hmem]

end

/-! ## The verdict of a listing -/

section

variable {chart : Chart} {L : Ledger}

/-- What is reported whatever the order of the listing. -/
def reportedAnyway (chart : Chart) (L : Ledger) (ledger : List LedgerTxn) (n : Option String → ℕ) :
    Multiset BreakKey :=
  ↑((leftOver ledger n).map fun txn => txn.unsettled.key) +
    ↑((invariantBreaks (check chart L)).map Break.key)

lemma nodup_loaded (hL : L.Admitted chart) (since : Option ℤ) :
    ((loadLedger chart L none since).map (·.txnId)).Nodup := by
  rw [loadLedger_all hL, List.map_map]
  exact ((List.perm_insertionSort _ _).map _).nodup_iff.mpr
    (hL.transactions_pkey.sublist (List.filter_sublist.map _))

/-- **What `reconcile_stripe` returns** on a listing it can read: the breaks of the items, whose
keys are a sum over positions, then those of the transactions left over and of the invariant. -/
lemma reconcileStripe_eq (hL : L.Admitted chart) {bts : List ListedTransaction}
    (hread : ∀ bt ∈ bts, bt.readable = true) (createdGte : Option ℤ) :
    ∃ breaks, reconcileStripe chart L bts createdGte = .ok
        ⟨breaks ++ (leftOver (loadLedger chart L none createdGte)
          (advance ListedTransaction.sourceId 0 bts)).map LedgerTxn.unsettled ++
            invariantBreaks (check chart L), bts.length, (check chart L).ok⟩ ∧
      (↑(breaks.map Break.key) : Multiset BreakKey) = placed ListedTransaction.sourceId
        (reported (loadLedger chart L none createdGte)) 0 bts := by
  let ledger := loadLedger chart L none createdGte
  obtain ⟨s, hs, htaken, hchecked, hbreaks⟩ := StripeLoop.foldlM_placed
    (nodup_loaded hL createdGte) hread (s := ⟨[], [], 0⟩) (Taken.nil ledger)
  refine ⟨s.breaks, ?_, ?_⟩
  · unfold reconcileStripe
    change (bts.foldlM (StripeLoop.step (Dict.group LedgerTxn.objectId ledger)) ⟨[], [], 0⟩ >>=
      fun s => _) = _
    rw [hs, except_ok_bind, htaken.leftOver_eq, hchecked, Nat.zero_add]
    rfl
  · rw [hbreaks, List.map_nil, Multiset.coe_nil, zero_add]

/-- The verdict is a sum over positions, beside what is reported anyway. -/
lemma stripeVerdict_eq (hL : L.Admitted chart) {bts : List ListedTransaction}
    (hread : ∀ bt ∈ bts, bt.readable = true) (createdGte : Option ℤ) :
    ∃ v : Multiset BreakKey → Bool × Multiset BreakKey, v.Injective ∧
      ∀ bts', bts'.Perm bts → stripeVerdict chart L bts' createdGte =
        some (v (placed ListedTransaction.sourceId
          (reported (loadLedger chart L none createdGte)) 0 bts')) := by
  let ledger := loadLedger chart L none createdGte
  let rest := reportedAnyway chart L ledger (advance ListedTransaction.sourceId 0 bts)
  refine ⟨fun m => (decide (m + rest = 0) && (check chart L).ok, m + rest), ?_, ?_⟩
  · intro m m' h
    exact add_right_cancel (congrArg Prod.snd h)
  · intro bts' hperm
    obtain ⟨breaks, hr, hkeys⟩ := reconcileStripe_eq hL
      (fun bt hbt => hread bt (hperm.mem_iff.mp hbt)) createdGte
    rw [advance_perm 0 hperm] at hr
    let all := breaks ++ (leftOver ledger (advance ListedTransaction.sourceId 0 bts)).map
      LedgerTxn.unsettled ++ invariantBreaks (check chart L)
    have hall : (↑(all.map Break.key) : Multiset BreakKey) =
        placed ListedTransaction.sourceId (reported ledger) 0 bts' + rest := by
      rw [List.map_append, List.map_append, ← Multiset.coe_add, ← Multiset.coe_add, hkeys,
        List.map_map, add_assoc]
      rfl
    have hempty : all.isEmpty = decide ((↑(all.map Break.key) : Multiset BreakKey) = 0) := by
      rw [Bool.eq_iff_iff, decide_eq_true_eq, Multiset.coe_eq_zero, List.map_eq_nil_iff,
        List.isEmpty_iff]
    rw [stripeVerdict, hr]
    change some (all.isEmpty && (check chart L).ok, (↑(all.map Break.key) : Multiset BreakKey)) = _
    rw [hempty, hall]

end

/-! ## When two items may be exchanged -/

/-- What one of the two comparisons of an item reports. -/
def difference (kind : BreakKind) (o : Option String) (expected actual : ℤ) : Multiset BreakKey :=
  if actual ≠ expected then {(kind, o, some expected, some actual)} else 0

lemma filter_difference (kind kind' : BreakKind) (o : Option String) (expected actual : ℤ) :
    (difference kind o expected actual).filter (·.1 = kind') =
      if kind = kind' then difference kind o expected actual else 0 := by
  unfold difference
  by_cases hne : actual ≠ expected <;> by_cases hkind : kind = kind' <;>
    simp [hne, hkind, Multiset.filter_singleton]

/-- Two differences that trade places stay the same only if they agree on one side. -/
lemma difference_exchange_iff (kind : BreakKind) (o : Option String) (x x' y y' : ℤ) :
    difference kind o x y + difference kind o x' y' =
      difference kind o x' y + difference kind o x y' ↔ x = x' ∨ y = y' := by
  constructor
  · intro h
    by_contra hne
    obtain ⟨hx, hy⟩ := not_or.mp hne
    -- each of the four differences would have to occur on the other side
    have hmem : ∀ k : BreakKey, k ∈ difference kind o x y + difference kind o x' y' ↔
        k ∈ difference kind o x' y + difference kind o x y' := fun k => by rw [h]
    have hxy : y = x := by
      by_contra hyx
      have := (hmem (kind, o, some x, some y)).mp (by simp [difference, hyx])
      simp only [difference, Multiset.mem_add] at this
      split_ifs at this <;> simp_all
    have hxy' : y = x' := by
      by_contra hyx
      have := (hmem (kind, o, some x', some y)).mpr (by simp [difference, hyx])
      simp only [difference, Multiset.mem_add] at this
      split_ifs at this <;> simp_all
    exact hx (hxy.symm.trans hxy')
  · rintro (rfl | rfl)
    · rfl
    · exact add_comm _ _

lemma mismatches_keys (bt : ListedTransaction) (txn : LedgerTxn) (amount fee : ℤ) :
    (↑((bt.mismatches txn amount fee).map Break.key) : Multiset BreakKey) =
      difference .amountMismatch bt.sourceId amount txn.amount +
        difference .feeMismatch bt.sourceId fee txn.fee := by
  unfold ListedTransaction.mismatches difference
  by_cases ha : txn.amount = amount <;> by_cases hf : txn.fee = fee <;> simp [ha, hf, Break.key]
  rfl

/-- Two items on an object may be exchanged when in each number they agree, or the transactions
they are compared with do. -/
lemma exchange_reported_iff {ledger : List LedgerTxn} {b b' : ListedTransaction}
    (hsrc : b.sourceId = b'.sourceId) {k : ℕ} {txn txn' : LedgerTxn}
    (hslot : slot (b.candidates ledger) k = some txn)
    (hslot' : slot (b.candidates ledger) (k + 1) = some txn') :
    Exchange (reported ledger) b b' k ↔
      (b.amountMinor = b'.amountMinor ∨ txn.amount = txn'.amount) ∧
        (b.feeMinor = b'.feeMinor ∨ txn.fee = txn'.fee) := by
  have hcand : b'.candidates ledger = b.candidates ledger := by
    rw [ListedTransaction.candidates, ListedTransaction.candidates, hsrc]
  simp only [Exchange, reported, hcand, hslot, hslot', mismatches_keys, ← hsrc]
  rw [add_add_add_comm, add_add_add_comm (difference _ _ b'.amountMinor _)]
  constructor
  · intro h
    have hamount := congrArg (Multiset.filter (·.1 = BreakKind.amountMismatch)) h
    have hfee := congrArg (Multiset.filter (·.1 = BreakKind.feeMismatch)) h
    simp only [Multiset.filter_add, filter_difference, reduceCtorEq, if_true, if_false, add_zero,
      zero_add] at hamount hfee
    exact ⟨(difference_exchange_iff _ _ _ _ _ _).mp hamount,
      (difference_exchange_iff _ _ _ _ _ _).mp hfee⟩
  · rintro ⟨hamount, hfee⟩
    rw [(difference_exchange_iff _ _ _ _ _ _).mpr hamount,
      (difference_exchange_iff _ _ _ _ _ _).mpr hfee]

/-- Items that are compared with nothing may be exchanged. -/
lemma exchange_reported_of_nil {ledger : List LedgerTxn} {b b' : ListedTransaction}
    (hsrc : b.sourceId = b'.sourceId) (hnil : b.candidates ledger = []) (k : ℕ) :
    Exchange (reported ledger) b b' k := by
  have hnil' : b'.candidates ledger = [] := by
    rw [← hnil, ListedTransaction.candidates, ListedTransaction.candidates, hsrc]
  simp only [Exchange, reported, hnil, hnil', slot]
  exact add_comm _ _

/-! ## When the order does not matter -/

/-- All rows have the same value. -/
def AllAgree {α β : Type*} (f : α → β) (rows : List α) : Prop :=
  ∀ a ∈ rows, ∀ b ∈ rows, f a = f b

section

variable {α β γ δ : Type*}

lemma AllAgree.congr {f : α → β} {g : α → γ} {rows : List α}
    (h : ∀ a ∈ rows, ∀ b ∈ rows, f a = f b ↔ g a = g b) : AllAgree f rows ↔ AllAgree g rows :=
  ⟨fun hf a ha b hb => (h a ha b hb).mp (hf a ha b hb),
    fun hg a ha b hb => (h a ha b hb).mpr (hg a ha b hb)⟩

lemma allAgree_map {f : β → γ} {g : α → β} {rows : List α} :
    AllAgree f (rows.map g) ↔ AllAgree (fun a => f (g a)) rows := by
  simp only [AllAgree, List.forall_mem_map]

/-- If two rows may be exchanged at all neighbouring numbers, the rows agree or the numbers do. -/
lemma allAgree_or_of_exchange {f : α → γ} {h : β → δ} {items : List α} {cs : List β} {m : ℕ}
    (hex : ∀ a ∈ items, ∀ b ∈ items, ∀ k, k + 1 < m → ∀ c c', slot cs k = some c →
      slot cs (k + 1) = some c' → f a = f b ∨ h c = h c') :
    AllAgree f items ∨ AllAgree h (cs.take m) := by
  by_cases hf : AllAgree f items
  · exact .inl hf
  · refine .inr ((forall_take_eq_iff cs m h).mpr fun k hk c c' hc hc' => ?_)
    by_contra hne
    refine hf fun a ha b hb => ?_
    exact (hex a ha b hb k hk c c' hc hc').resolve_right hne

end

lemma exists_slot {cs : List LedgerTxn} (h : cs ≠ []) (k : ℕ) : ∃ c, slot cs k = some c := by
  obtain ⟨c, rest, rfl⟩ := List.exists_cons_of_ne_nil h
  unfold slot
  cases (c :: rest)[k]? with
  | none => exact ⟨c, rfl⟩
  | some d => exact ⟨d, rfl⟩

/-- **One object**: all its items may be exchanged at all numbers. -/
lemma exchange_on_object_iff {ledger : List LedgerTxn} {o : String} {items : List ListedTransaction}
    (hitems : ∀ b ∈ items, b.sourceId = some o) (m : ℕ) :
    (∀ b ∈ items, ∀ b' ∈ items, ∀ k, k + 1 < m → Exchange (reported ledger) b b' k) ↔
      (AllAgree ListedTransaction.amountMinor items ∨
        AllAgree LedgerTxn.amount ((candidates ledger o).take m)) ∧
      (AllAgree ListedTransaction.feeMinor items ∨
        AllAgree LedgerTxn.fee ((candidates ledger o).take m)) := by
  have hcand : ∀ b ∈ items, b.candidates ledger = candidates ledger o := fun b hb => by
    simp only [ListedTransaction.candidates, hitems b hb]
  have hsrc : ∀ b ∈ items, ∀ b' ∈ items, b.sourceId = b'.sourceId := fun b hb b' hb' => by
    rw [hitems b hb, hitems b' hb']
  by_cases hnil : candidates ledger o = []
  · refine iff_of_true (fun b hb b' hb' k _ => ?_) ?_
    · exact exchange_reported_of_nil (hsrc b hb b' hb') ((hcand b hb).trans hnil) k
    · simp [hnil, AllAgree]
  · have hex : ∀ b ∈ items, ∀ b' ∈ items, ∀ k txn txn', slot (candidates ledger o) k = some txn →
        slot (candidates ledger o) (k + 1) = some txn' → (Exchange (reported ledger) b b' k ↔
          (b.amountMinor = b'.amountMinor ∨ txn.amount = txn'.amount) ∧
            (b.feeMinor = b'.feeMinor ∨ txn.fee = txn'.fee)) := by
      intro b hb b' hb' k txn txn' hslot hslot'
      rw [← hcand b hb] at hslot hslot'
      exact exchange_reported_iff (hsrc b hb b' hb') hslot hslot'
    constructor
    · intro h
      refine ⟨allAgree_or_of_exchange fun b hb b' hb' k hk c c' hc hc' => ?_,
        allAgree_or_of_exchange fun b hb b' hb' k hk c c' hc hc' => ?_⟩
      · exact ((hex b hb b' hb' k c c' hc hc').mp (h b hb b' hb' k hk)).1
      · exact ((hex b hb b' hb' k c c' hc hc').mp (h b hb b' hb' k hk)).2
    · rintro ⟨hamount, hfee⟩ b hb b' hb' k hk
      obtain ⟨txn, hslot⟩ := exists_slot hnil k
      obtain ⟨txn', hslot'⟩ := exists_slot hnil (k + 1)
      refine (hex b hb b' hb' k txn txn' hslot hslot').mpr ⟨?_, ?_⟩
      · exact hamount.imp (fun h => h b hb b' hb') fun h =>
          (forall_take_eq_iff _ m _).mp h k hk txn txn' hslot hslot'
      · exact hfee.imp (fun h => h b hb b' hb') fun h =>
          (forall_take_eq_iff _ m _).mp h k hk txn txn' hslot hslot'

/-- The transactions of the window on an object, oldest first. -/
def Ledger.onObject (L : Ledger) (since : Option ℤ) (o : String) : List TransactionRow :=
  (L.inOrder since).filter (·.stripeObjectId = some o)

/-- What a transaction moved in processing fees. -/
def Ledger.movedFee (chart : Chart) (L : Ledger) (t : TransactionRow) : ℤ :=
  L.deltaOn chart none t feeAccount

/-- What a transaction moved before fees. -/
def Ledger.movedAmount (chart : Chart) (L : Ledger) (t : TransactionRow) : ℤ :=
  L.deltaOn chart none t stripeBalanceAccount + L.movedFee chart t

section

variable {chart : Chart} {L : Ledger} {createdGte : Option ℤ} {bts : List ListedTransaction}

lemma candidates_loaded (hL : L.Admitted chart) (since : Option ℤ) (o : String) :
    candidates (loadLedger chart L none since) o =
      (L.onObject since o).map (L.summary chart none) := by
  rw [candidates, loadLedger_all hL, List.filter_map]
  rfl

lemma summary_amount (t : TransactionRow) :
    (L.summary chart none t).amount = L.movedAmount chart t := by
  rw [LedgerTxn.amount, summary_fee]
  congr 1
  exact summary_getD _ _ _ _ _

lemma allAgree_toInt_iff (items : List ListedTransaction)
    (hread : ∀ bt ∈ items, bt.readable = true) :
    (AllAgree (·.amount.toInt) items ↔ AllAgree ListedTransaction.amountMinor items) ∧
      (AllAgree (·.fee.toInt) items ↔ AllAgree ListedTransaction.feeMinor items) := by
  refine ⟨AllAgree.congr fun a ha b hb => ?_, AllAgree.congr fun a ha b hb => ?_⟩
  · rw [(ListedTransaction.readable_iff.mp (hread a ha)).1,
      (ListedTransaction.readable_iff.mp (hread b hb)).1, Except.ok.injEq]
  · rw [(ListedTransaction.readable_iff.mp (hread a ha)).2,
      (ListedTransaction.readable_iff.mp (hread b hb)).2, Except.ok.injEq]

/-- Only items on an object of the ledger are compared with anything. -/
lemma exchange_iff_on_objects {ledger : List LedgerTxn} :
    (∀ b ∈ bts, ∀ b' ∈ bts, b.sourceId = b'.sourceId →
      ∀ k, k + 1 < bts.countP (·.sourceId = b.sourceId) → Exchange (reported ledger) b b' k) ↔
    ∀ o, ∀ b ∈ bts.filter (·.sourceId = some o), ∀ b' ∈ bts.filter (·.sourceId = some o),
      ∀ k, k + 1 < (bts.filter (·.sourceId = some o)).length →
        Exchange (reported ledger) b b' k := by
  constructor
  · intro h o b hb b' hb' k hk
    obtain ⟨hb, hsrc⟩ := List.mem_filter.mp hb
    obtain ⟨hb', hsrc'⟩ := List.mem_filter.mp hb'
    rw [decide_eq_true_eq] at hsrc hsrc'
    refine h b hb b' hb' (hsrc.trans hsrc'.symm) k ?_
    rw [hsrc, List.countP_eq_length_filter]
    exact hk
  · intro h b hb b' hb' hsame k hk
    cases hsrc : b.sourceId with
    | none =>
        refine exchange_reported_of_nil hsame ?_ k
        simp only [ListedTransaction.candidates, hsrc]
    | some o =>
        rw [hsrc, List.countP_eq_length_filter] at hk
        rw [hsrc] at hsame
        exact h o b (List.mem_filter.mpr ⟨hb, decide_eq_true hsrc⟩) b'
          (List.mem_filter.mpr ⟨hb', decide_eq_true hsame.symm⟩) k hk

lemma stripeVerdict_eq_none {bt : ListedTransaction} (hbt : bt ∈ bts)
    (hread : bt.readable = false) : stripeVerdict chart L bts createdGte = none := by
  unfold stripeVerdict
  cases h : reconcileStripe chart L bts createdGte with
  | error err => rfl
  | ok r =>
      obtain ⟨s, hs, -⟩ := except_bind_eq_ok.mp h
      rw [StripeLoop.readable_of_foldlM hs bt hbt] at hread
      exact absurd hread (by simp)

end

/-- **When the listing order is irrelevant.**  The verdict is the same for every order of the
balance transactions exactly when one of them cannot be read, or on every object the listed amounts
agree or those of the first as many ledger transactions do, and so for the fees. -/
theorem listing_order_irrelevant_iff (chart : Chart) (L : Ledger) (hL : L.Admitted chart)
    (bts : List ListedTransaction) (createdGte : Option ℤ) :
    (∀ bts', bts'.Perm bts →
      stripeVerdict chart L bts' createdGte = stripeVerdict chart L bts createdGte) ↔
    (∃ bt ∈ bts, bt.readable = false) ∨ ∀ o,
      let items := bts.filter (·.sourceId = some o)
      let rows := (L.onObject createdGte o).take items.length
      (AllAgree (·.amount.toInt) items ∨ AllAgree (L.movedAmount chart) rows) ∧
        (AllAgree (·.fee.toInt) items ∨ AllAgree (L.movedFee chart) rows) := by
  by_cases hread : ∀ bt ∈ bts, bt.readable = true
  · have hnone : ¬∃ bt ∈ bts, bt.readable = false := by
      rintro ⟨bt, hbt, hfalse⟩
      rw [hread bt hbt] at hfalse
      exact absurd hfalse (by simp)
    obtain ⟨v, hv, hverdict⟩ := stripeVerdict_eq hL hread createdGte
    have hplaced : (∀ bts', bts'.Perm bts →
        stripeVerdict chart L bts' createdGte = stripeVerdict chart L bts createdGte) ↔
        ∀ bts', bts'.Perm bts →
          placed ListedTransaction.sourceId (reported (loadLedger chart L none createdGte)) 0 bts' =
          placed ListedTransaction.sourceId (reported (loadLedger chart L none createdGte)) 0
            bts := by
      refine forall₂_congr fun bts' hperm => ?_
      rw [hverdict bts' hperm, hverdict bts (List.Perm.refl bts), Option.some_inj, hv.eq_iff]
    rw [hplaced, placed_perm_iff, or_iff_right hnone, exchange_iff_on_objects]
    refine forall_congr' fun o => ?_
    have hitems : ∀ b ∈ bts.filter (·.sourceId = some o), b.sourceId = some o := fun b hb =>
      of_decide_eq_true (List.mem_filter.mp hb).2
    have hagree := allAgree_toInt_iff (bts.filter (·.sourceId = some o)) fun b hb =>
      hread b (List.mem_filter.mp hb).1
    simp only [exchange_on_object_iff hitems, candidates_loaded hL, ← List.map_take, allAgree_map,
      summary_amount, summary_fee, hagree]
    rfl
  · simp only [not_forall, Bool.not_eq_true] at hread
    obtain ⟨bt, hbt, hfalse⟩ := hread
    refine iff_of_true (fun bts' hperm => ?_) (.inl ⟨bt, hbt, hfalse⟩)
    rw [stripeVerdict_eq_none hbt hfalse, stripeVerdict_eq_none (hperm.mem_iff.mpr hbt) hfalse]

/-- A refund of 4.00 of the charge `ch_1`, in a payload without a list of refunds. -/
def bareRefund : Event :=
  ⟨"evt_2", "charge.refunded", [("created", .int 1700000060), ("data", .obj [("object", .obj [
    ("id", .str "ch_1"), ("amount", .int 1000), ("amount_refunded", .int 400),
    ("currency", .str "usd")])])]⟩

/-- A charge and its refund, handled one after the other: two transactions on `ch_1`. -/
def refundedLedger : Ledger :=
  (handleAll sampleUuid5 seedChart none ⟨.empty, []⟩ [twinCharge "evt_1", bareRefund]).ledger

/-- The balance transactions of the charge and of refunds of 4.00. -/
def listedCharge : ListedTransaction :=
  ⟨some "txn_1", some "charge", .str "ch_1", .int 1000, .int 59⟩

def listedRefund (id : String) : ListedTransaction :=
  ⟨some id, some "refund", .str "ch_1", .int (-400), .int 0⟩

/-- Two refunds of one amount can be listed in either order. -/
theorem listing_order_irrelevant_refunds :
    stripeVerdict seedChart refundedLedger [listedRefund "txn_3", listedRefund "txn_2"] none =
      stripeVerdict seedChart refundedLedger [listedRefund "txn_2", listedRefund "txn_3"] none := by
  have hL : refundedLedger.Admitted seedChart :=
    handleAll_admitted (Ledger.empty_admitted seedChart) _
  have hsame : ∀ o, ∀ a ∈ [listedRefund "txn_2", listedRefund "txn_3"].filter
      (·.sourceId = some o), a.amount.toInt = .ok (-400) ∧ a.fee.toInt = .ok 0 := by
    intro o a ha
    have ha := List.mem_of_mem_filter ha
    simp only [List.mem_cons, List.not_mem_nil, or_false] at ha
    rcases ha with rfl | rfl
    · exact ⟨rfl, rfl⟩
    · exact ⟨rfl, rfl⟩
  refine (listing_order_irrelevant_iff seedChart refundedLedger hL
    [listedRefund "txn_2", listedRefund "txn_3"] none).mpr (.inr fun o => ⟨.inl ?_, .inl ?_⟩) _
    (List.Perm.swap _ _ _)
  · intro a ha b hb
    exact (hsame o a ha).1.trans (hsame o b hb).1.symm
  · intro a ha b hb
    exact (hsame o a ha).2.trans (hsame o b hb).2.symm

/-- A charge and its refund, both in the ledger and both at Stripe: green in the ledger's order,
red when the refund is listed first. -/
theorem charge_and_refund_reversed :
    [listedRefund "txn_2", listedCharge].Perm [listedCharge, listedRefund "txn_2"] ∧
    stripeVerdict seedChart refundedLedger [listedCharge, listedRefund "txn_2"] none =
      some (true, 0) ∧
    stripeVerdict seedChart refundedLedger [listedRefund "txn_2", listedCharge] none =
      some (false, {(.amountMismatch, some "ch_1", some (-400), some 1000),
        (.feeMismatch, some "ch_1", some 0, some 59),
        (.amountMismatch, some "ch_1", some 1000, some (-400)),
        (.feeMismatch, some "ch_1", some 59, some 0)}) :=
  ⟨List.Perm.swap _ _ _, rfl, rfl⟩

end LedgerProof
