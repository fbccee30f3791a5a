import LedgerProof.Ledger.Post
import LedgerProof.Recon.Reconciler

/-!
# Reconciling against expected events

`reconcile_expected` is the only detector of a payment that was dropped, so it matters that it
neither misses one nor raises a false alarm.  The expected side is compared name by name, with an
account that is not mentioned counting as zero; the ledger side is the sum of a transaction's
entries on the account, with an event that has no transaction counting as zero throughout
(`Ledger.eventDelta`).  In these terms an expected event gives no break exactly when the two sides
agree on every name (`ExpectedEvent.breaks_eq_nil_iff`), whichever branch of the loop it takes.
-/

namespace LedgerProof

/-- The transaction has an entry in the currency. -/
def Ledger.Touches (L : Ledger) (c : Char3) (t : TransactionRow) : Prop :=
  ∃ e ∈ L.txnEntries t.id, e.currency = c

/-- What the transaction with this event id moved on an account of the currency; nothing, if there
is none. -/
def Ledger.eventDelta (chart : Chart) (L : Ledger) (c : Char3) (eventId name : String) : ℤ :=
  total (fun t => L.deltaOn chart (some c) t name)
    (L.transactions.filter (·.stripeEventId = some eventId))

/-! ## The loop -/

/-- The breaks of one expected event. -/
def ExpectedEvent.breaks (byEvent : Dict String LedgerTxn) (x : ExpectedEvent) : List Break :=
  match byEvent.get? x.eventId with
  | none => if x.delta.items = [] then [] else [x.missingInLedger]
  | some txn => (x.mismatches txn).map (x.amountMismatch txn)

/-- **The loop compares the first occurrence of every event id.** -/
lemma ExpectedLoop.foldl_step (byEvent : Dict String LedgerTxn) (xs : List ExpectedEvent)
    (s : ExpectedLoop) :
    (xs.foldl (step byEvent) s).breaks =
      s.breaks ++ (firsts ExpectedEvent.eventId s.seen xs).flatMap (ExpectedEvent.breaks byEvent) ∧
    ∀ id, id ∈ (xs.foldl (step byEvent) s).seen ↔ id ∈ s.seen ∨ id ∈ xs.map (·.eventId) := by
  induction xs generalizing s with
  | nil => simp [firsts]
  | cons x xs ih =>
      by_cases hx : x.eventId ∈ s.seen
      · have hstep : s.step byEvent x = s := by rw [step, if_pos hx]
        rw [List.foldl_cons, hstep, firsts, if_pos hx]
        refine ⟨(ih s).1, fun id => ?_⟩
        rw [(ih s).2, List.map_cons, List.mem_cons]
        constructor
        · rintro (h | h)
          · exact .inl h
          · exact .inr (.inr h)
        · rintro (h | rfl | h)
          · exact .inl h
          · exact .inl hx
          · exact .inr h
      · have hbreaks : (s.step byEvent x).breaks = s.breaks ++ x.breaks byEvent ∧
            (s.step byEvent x).seen = x.eventId :: s.seen := by
          rw [step, if_neg hx, ExpectedEvent.breaks]
          dsimp only
          cases byEvent.get? x.eventId with
          | none =>
              dsimp only
              split_ifs
              · exact ⟨(List.append_nil _).symm, rfl⟩
              · exact ⟨rfl, rfl⟩
          | some txn => exact ⟨rfl, rfl⟩
        obtain ⟨hb, hseen⟩ := ih (s.step byEvent x)
        rw [List.foldl_cons, firsts, if_neg hx, List.flatMap_cons]
        refine ⟨?_, fun id => ?_⟩
        · rw [hb, hbreaks.1, hbreaks.2, List.append_assoc]
        · rw [hseen, hbreaks.2, List.map_cons, List.mem_cons, List.mem_cons]
          tauto

/-! ## One expected event -/

section

variable {x : ExpectedEvent} {txn : LedgerTxn}

lemma ExpectedEvent.delta_getD (x : ExpectedEvent) (name : String) :
    x.delta.getD name 0 = x.expectedDelta.getD name 0 := by
  rw [Dict.getD, Dict.getD, ExpectedEvent.delta, Dict.get?_filter]
  cases x.expectedDelta.get? name with
  | none => rfl
  | some v =>
      by_cases hv : v = 0
      · simp [Option.filter, hv]
      · simp [Option.filter, hv]

lemma ExpectedEvent.delta_items_eq_nil_iff :
    x.delta.items = [] ↔ ∀ name, x.expectedDelta.getD name 0 = 0 := by
  constructor
  · intro hnil name
    rw [← x.delta_getD, Dict.getD, Dict.get?, hnil]
    rfl
  · intro h
    refine List.eq_nil_iff_forall_not_mem.mpr fun x' hmem => ?_
    obtain ⟨name, v⟩ := x'
    have hv : v ≠ 0 := by
      have := (List.mem_filter.mp hmem).2
      simpa using this
    have hget := h name
    rw [← x.delta_getD, Dict.getD, Dict.mem_items_iff.mp hmem] at hget
    exact hv hget

/-- The accounts reported are those on which the two sides differ, each once. -/
lemma ExpectedEvent.mem_mismatches {name : String} :
    name ∈ x.mismatches txn ↔ x.expectedDelta.getD name 0 ≠ txn.delta.getD name 0 := by
  rw [mismatches, List.mem_filter, diffAccounts, List.mem_insertionSort, List.mem_dedup,
    List.mem_append, decide_eq_true_eq, x.delta_getD]
  refine ⟨fun h => h.2, fun hne => ⟨?_, hne⟩⟩
  by_contra hnot
  rw [not_or] at hnot
  rw [← x.delta_getD, Dict.getD_eq_of_not_mem hnot.1, Dict.getD_eq_of_not_mem hnot.2] at hne
  exact hne rfl

lemma ExpectedEvent.nodup_mismatches : (x.mismatches txn).Nodup :=
  ((List.perm_insertionSort _ _).nodup_iff.mpr (List.nodup_dedup _)).filter _

end

/-! ## The ledger side -/

section

variable {chart : Chart} {L : Ledger} {c : Char3}

lemma Ledger.RowsAdmitted.eq_of_event (hL : L.RowsAdmitted chart) {t t' : TransactionRow}
    {id : String} (ht : t ∈ L.transactions) (ht' : t' ∈ L.transactions)
    (hid : t.stripeEventId = some id) (hid' : t'.stripeEventId = some id) : t = t' := by
  by_contra hne
  have hsymm : Std.Symm fun s t : TransactionRow =>
      sqlEq s.stripeEventId t.stripeEventId = false := ⟨fun s t h => by rw [sqlEq_comm]; exact h⟩
  have hdiff := hL.dedupe_event.forall ht ht' hne
  simp [hid, hid'] at hdiff

lemma touches_iff (hL : L.RowsAdmitted chart) {t : TransactionRow} :
    L.Touches c t ↔ touchedAccounts chart L (some c) t ≠ [] := by
  rw [touchedAccounts_ne_nil_iff hL]
  simp [Ledger.Touches]

lemma deltaOn_eq_zero (hL : L.RowsAdmitted chart) {t : TransactionRow} (h : ¬L.Touches c t)
    (name : String) : L.deltaOn chart (some c) t name = 0 := by
  refine total_eq_zero fun a ha => ?_
  obtain ⟨ha, hp⟩ := List.mem_filter.mp ha
  by_contra hne
  have hmem : a ∈ touchedAccounts chart L (some c) t :=
    mem_touchedAccounts.mpr ⟨ha, (of_decide_eq_true hp).1, fun hnil => hne (netMinor_eq_zero hnil)⟩
  exact h ((touches_iff hL).mpr (List.ne_nil_of_mem hmem))

lemma mem_loadLedger (hL : L.RowsAdmitted chart) {txn : LedgerTxn} :
    txn ∈ loadLedger chart L (some c) none ↔
      ∃ t ∈ L.transactions, L.Touches c t ∧ L.summary chart (some c) t = txn := by
  rw [loadLedger_eq hL]
  simp only [List.mem_map, List.mem_filter, Ledger.inOrder, List.mem_insertionSort, touches_iff hL]
  simp [and_assoc]

/-- **What is found under an event id**: nothing, and then the ledger moved nothing for it, or the
summary of its transaction. -/
lemma byEvent_cases (hL : L.RowsAdmitted chart) (c : Char3) (id : String) :
    let byEvent := Dict.index LedgerTxn.eventId (loadLedger chart L (some c) none)
    (byEvent.get? id = none ∧ (∀ t ∈ L.transactions, t.stripeEventId = some id → ¬L.Touches c t) ∧
      ∀ name, L.eventDelta chart c id name = 0) ∨
    ∃ t ∈ L.transactions, t.stripeEventId = some id ∧ L.Touches c t ∧
      byEvent.get? id = some (L.summary chart (some c) t) ∧
      ∀ name, (L.summary chart (some c) t).delta.getD name 0 = L.eventDelta chart c id name := by
  intro byEvent
  have hget : byEvent.get? id = _ := Dict.get?_index _ _ id
  cases hfound : byEvent.get? id with
  | none =>
      rw [hfound, eq_comm, List.getLast?_eq_none_iff, List.filter_eq_nil_iff] at hget
      have huntouched : ∀ t ∈ L.transactions, t.stripeEventId = some id → ¬L.Touches c t := by
        intro t ht hid htouch
        have := hget _ ((mem_loadLedger hL).mpr ⟨t, ht, htouch, rfl⟩)
        exact this (by simpa [Ledger.summary] using hid)
      refine .inl ⟨rfl, huntouched, fun name => total_eq_zero fun t ht => ?_⟩
      obtain ⟨ht, hid⟩ := List.mem_filter.mp ht
      exact deltaOn_eq_zero hL (huntouched t ht (of_decide_eq_true hid)) name
  | some txn =>
      rw [hfound] at hget
      obtain ⟨hmem, hid⟩ := List.mem_filter.mp (List.mem_of_getLast? hget.symm)
      obtain ⟨t, ht, htouch, rfl⟩ := (mem_loadLedger hL).mp hmem
      have hid : t.stripeEventId = some id := of_decide_eq_true hid
      refine .inr ⟨t, ht, hid, htouch, rfl, fun name => ?_⟩
      have honly : L.transactions.filter (·.stripeEventId = some id) = [t] := by
        refine filter_eq_singleton (List.Nodup.of_map _ hL.transactions_pkey) ht fun t' ht' => ?_
        rw [decide_eq_true_eq]
        exact ⟨fun hid' => hL.eq_of_event ht' ht hid' hid, fun heq => heq ▸ hid⟩
      rw [summary_getD, Ledger.eventDelta, honly, total_cons, total_nil, add_zero]

end

/-! ## Soundness and completeness -/

section

variable {chart : Chart} {L : Ledger} {c : Char3}

/-- **An expected event gives no break exactly when both sides agree on every account.** -/
lemma ExpectedEvent.breaks_eq_nil_iff (hL : L.RowsAdmitted chart) (c : Char3) (x : ExpectedEvent) :
    x.breaks (Dict.index LedgerTxn.eventId (loadLedger chart L (some c) none)) = [] ↔
      ∀ name, x.expectedDelta.getD name 0 = L.eventDelta chart c x.eventId name := by
  rw [ExpectedEvent.breaks]
  rcases byEvent_cases hL c x.eventId with
    ⟨hget, -, hzero⟩ | ⟨t, -, -, -, hget, hdelta⟩
  · rw [hget]
    simp only [hzero]
    rw [← ExpectedEvent.delta_items_eq_nil_iff]
    split_ifs with hnil <;> simp [hnil]
  · rw [hget]
    dsimp only
    rw [List.map_eq_nil_iff, List.eq_nil_iff_forall_not_mem]
    refine forall_congr' fun name => ?_
    rw [ExpectedEvent.mem_mismatches, hdelta, not_not]

/-- The transactions that no expected event accounts for. -/
def unexpectedTxns (chart : Chart) (L : Ledger) (c : Char3) (expected : List ExpectedEvent) :
    List TransactionRow :=
  (L.inOrder none).filter fun t => touchedAccounts chart L (some c) t ≠ [] ∧
    ¬t.stripeEventId.any (· ∈ expected.map (·.eventId))

lemma mem_unexpectedTxns (hL : L.RowsAdmitted chart) {expected : List ExpectedEvent}
    {t : TransactionRow} : t ∈ unexpectedTxns chart L c expected ↔ t ∈ L.transactions ∧
      L.Touches c t ∧ ∀ x ∈ expected, t.stripeEventId ≠ some x.eventId := by
  rw [unexpectedTxns, List.mem_filter, Ledger.inOrder, List.mem_insertionSort, List.mem_filter,
    decide_eq_true_eq, touches_iff hL]
  have hany : t.stripeEventId.any (· ∈ expected.map (·.eventId)) = true ↔
      ∃ x ∈ expected, t.stripeEventId = some x.eventId := by
    rw [Option.any_eq_true]
    constructor
    · rintro ⟨id, hid, hmem⟩
      obtain ⟨x, hx, rfl⟩ := List.mem_map.mp (of_decide_eq_true hmem)
      exact ⟨x, hx, hid⟩
    · rintro ⟨x, hx, hid⟩
      exact ⟨x.eventId, hid, decide_eq_true (List.mem_map_of_mem hx)⟩
  rw [hany]
  simp

/-- **The report.** -/
lemma reconcileExpected_breaks (hL : L.Admitted chart) (expected : List ExpectedEvent) (c : Char3) :
    (reconcileExpected chart L expected c).breaks =
      (firsts ExpectedEvent.eventId [] expected).flatMap (ExpectedEvent.breaks
        (Dict.index LedgerTxn.eventId (loadLedger chart L (some c) none))) ++
      (unexpectedTxns chart L c expected).map fun t =>
        (L.summary chart (some c) t).unexpected := by
  obtain ⟨hbreaks, hseen⟩ := ExpectedLoop.foldl_step
    (Dict.index LedgerTxn.eventId (loadLedger chart L (some c) none)) expected ⟨[], [], 0⟩
  have hinv : invariantBreaks (check chart L) = [] := by
    rw [invariantBreaks, List.map_eq_nil_iff, List.filter_eq_nil_iff]
    intro k hk
    simp [CurrencyCheck.ok, hL.check_difference_eq_zero hk]
  simp only [reconcileExpected]
  rw [hinv, List.append_nil, hbreaks, List.nil_append]
  congr 1
  generalize (expected.foldl (ExpectedLoop.step (Dict.index LedgerTxn.eventId
    (loadLedger chart L (some c) none))) ⟨[], [], 0⟩).seen = seen at hseen ⊢
  have hmem : ∀ id, decide (id ∈ seen) = decide (id ∈ expected.map (·.eventId)) := by
    intro id
    rw [decide_eq_decide, hseen]
    simp
  rw [loadLedger_eq hL.toRowsAdmitted, List.filter_map, List.map_map, List.filter_filter,
    unexpectedTxns]
  refine congrArg₂ List.map rfl (List.filter_congr fun t _ => ?_)
  simp only [Function.comp_apply, Ledger.summary, hmem]
  simp [Bool.and_comm]

/-- The verdict is green when nothing is left to report. -/
lemma reconcileExpected_ok_iff (hL : L.Admitted chart) (expected : List ExpectedEvent) (c : Char3) :
    (reconcileExpected chart L expected c).ok = true ↔
      (∀ x ∈ firsts ExpectedEvent.eventId [] expected, ∀ name,
        x.expectedDelta.getD name 0 = L.eventDelta chart c x.eventId name) ∧
      ∀ t ∈ L.transactions, L.Touches c t → ∃ x ∈ expected, t.stripeEventId = some x.eventId := by
  have hinv : (reconcileExpected chart L expected c).invariantOk = true := hL.check_ok
  rw [ReconResult.ok, hinv, Bool.and_true, List.isEmpty_iff, reconcileExpected_breaks hL,
    List.append_eq_nil_iff, List.flatMap_eq_nil_iff, List.map_eq_nil_iff]
  refine and_congr ?_ ?_
  · exact forall₂_congr fun x _ => ExpectedEvent.breaks_eq_nil_iff hL.toRowsAdmitted c x
  · rw [List.eq_nil_iff_forall_not_mem]
    simp only [mem_unexpectedTxns hL.toRowsAdmitted]
    constructor
    · intro h t ht htouch
      by_contra hnone
      push Not at hnone
      exact h t ⟨ht, htouch, hnone⟩
    · rintro h t ⟨ht, htouch, hnone⟩
      obtain ⟨x, hx, hid⟩ := h t ht htouch
      exact hnone x hx hid

/-- **A green verdict fixes the balances.** -/
lemma balanceMinor_of_ok (hL : L.Admitted chart) {expected : List ExpectedEvent} {c : Char3}
    (hok : (reconcileExpected chart L expected c).ok = true) {a : Account}
    (ha : a ∈ chart.ofCurrency c) :
    L.balanceMinor a = total (fun x => x.expectedDelta.getD a.name 0)
      (firsts ExpectedEvent.eventId [] expected) := by
  obtain ⟨hagree, hall⟩ := (reconcileExpected_ok_iff hL expected c).mp hok
  obtain ⟨ha, hcur⟩ := List.mem_filter.mp ha
  have hnet : ∀ t, L.deltaOn chart (some c) t a.name = L.netMinor t a :=
    deltaOn_name ha (by simpa using hcur)
  -- group the transactions by event id
  have hnd : ((firsts ExpectedEvent.eventId [] expected).map fun x => some x.eventId).Nodup := by
    have := (nodup_firsts ExpectedEvent.eventId [] expected).map (Option.some_injective _)
    rwa [List.map_map] at this
  have hgroups := sum_groups_filter hnd (fun t : TransactionRow => t.stripeEventId)
    (fun t => L.netMinor t a) L.transactions
  rw [total_map] at hgroups
  have hleft : total (fun x : ExpectedEvent => x.expectedDelta.getD a.name 0)
      (firsts ExpectedEvent.eventId [] expected) =
      total (fun x : ExpectedEvent => total (fun t => L.netMinor t a)
        (L.transactions.filter fun t => t.stripeEventId = some x.eventId))
        (firsts ExpectedEvent.eventId [] expected) := by
    refine total_congr fun x hx => ?_
    rw [hagree x hx, Ledger.eventDelta]
    exact total_congr fun t _ => hnet t
  rw [hleft, hgroups, balanceMinor_eq_total hL.toRowsAdmitted, total_filter]
  refine total_congr fun t ht => ?_
  split_ifs with hmem
  · rfl
  · -- a transaction of no expected event has no entry in the currency
    rw [← hnet]
    refine deltaOn_eq_zero hL.toRowsAdmitted (fun htouch => hmem ?_) _
    obtain ⟨x, hx, hid⟩ := hall t ht htouch
    have hkey : x.eventId ∈ (firsts ExpectedEvent.eventId [] expected).map (·.eventId) :=
      mem_map_firsts.mpr (List.mem_map_of_mem hx)
    obtain ⟨y, hy, hyid⟩ := List.mem_map.mp hkey
    simp only [decide_eq_true_eq]
    exact List.mem_map.mpr ⟨y, hy, by rw [hid, hyid]⟩

/-! ## Counting the breaks -/

@[simp] lemma ExpectedEvent.missingInLedger_kind (x : ExpectedEvent) :
    x.missingInLedger.kind = .missingInLedger := rfl

@[simp] lemma ExpectedEvent.amountMismatch_kind (x : ExpectedEvent) (txn : LedgerTxn)
    (name : String) : (x.amountMismatch txn name).kind = .amountMismatch := rfl

@[simp] lemma LedgerTxn.unexpected_kind (txn : LedgerTxn) :
    txn.unexpected.kind = .missingInSource := rfl

lemma missingInLedger_breaks (hL : L.Admitted chart) (expected : List ExpectedEvent) (c : Char3) :
    ∃ missing : List ExpectedEvent, missing.Nodup ∧
      (∀ x, x ∈ missing ↔ x ∈ firsts ExpectedEvent.eventId [] expected ∧
        (∃ name, x.expectedDelta.getD name 0 ≠ 0) ∧
        ∀ t ∈ L.transactions, t.stripeEventId = some x.eventId → ¬L.Touches c t) ∧
      (reconcileExpected chart L expected c).breaks.filter (·.kind = .missingInLedger) =
        missing.map (·.missingInLedger) := by
  have hrows := hL.toRowsAdmitted
  let byEvent := Dict.index LedgerTxn.eventId (loadLedger chart L (some c) none)
  let lost (x : ExpectedEvent) : Bool := (byEvent.get? x.eventId).isNone && !x.delta.items.isEmpty
  have hlost : ∀ x, lost x = true ↔ (∃ name, x.expectedDelta.getD name 0 ≠ 0) ∧
      ∀ t ∈ L.transactions, t.stripeEventId = some x.eventId → ¬L.Touches c t := by
    intro x
    have hmoney : x.delta.items.isEmpty = false ↔ ∃ name, x.expectedDelta.getD name 0 ≠ 0 := by
      rw [← Bool.not_eq_true, List.isEmpty_iff, ExpectedEvent.delta_items_eq_nil_iff]
      push Not
      rfl
    rw [Bool.and_eq_true, Bool.not_eq_true', hmoney, and_comm]
    refine and_congr_right fun _ => ?_
    rcases byEvent_cases hrows c x.eventId with ⟨hget, hno, -⟩ | ⟨t, ht, hid, htouch, hget, -⟩
    · exact iff_of_true (by rw [hget]; rfl) hno
    · exact iff_of_false (by rw [hget]; simp) fun h => h t ht hid htouch
  have hitem : ∀ x : ExpectedEvent, (x.breaks byEvent).filter (·.kind = .missingInLedger) =
      if lost x then [x.missingInLedger] else [] := by
    intro x
    unfold ExpectedEvent.breaks
    cases hget : byEvent.get? x.eventId with
    | none =>
        by_cases hnil : x.delta.items = []
        · simp [lost, hget, hnil]
        · simp [lost, hget, hnil, ExpectedEvent.missingInLedger]
    | some txn =>
        simp [lost, hget]
  refine ⟨(firsts ExpectedEvent.eventId [] expected).filter lost, ?_, fun x => ?_, ?_⟩
  · exact (List.Nodup.of_map _ (nodup_firsts _ _ _)).filter _
  · rw [List.mem_filter, hlost]
  · have hunexpected : ((unexpectedTxns chart L c expected).map fun t =>
        (L.summary chart (some c) t).unexpected).filter (·.kind = .missingInLedger) = [] := by simp
    rw [reconcileExpected_breaks hL, List.filter_append, List.filter_flatMap, hunexpected,
      List.append_nil]
    have hsplit : ∀ xs : List ExpectedEvent,
        xs.flatMap (fun x => (x.breaks byEvent).filter (·.kind = .missingInLedger)) =
          (xs.filter lost).map (·.missingInLedger) := by
      intro xs
      induction xs with
      | nil => rfl
      | cons x xs ih =>
          rw [List.flatMap_cons, ih, hitem]
          by_cases hx : lost x = true <;> simp [hx]
    exact hsplit _

/-- The breaks of one event that say that the amounts differ, by transaction and account. -/
lemma ExpectedEvent.amountMismatch_breaks (hL : L.RowsAdmitted chart) (x : ExpectedEvent)
    (c : Char3) :
    ∃ ps : List (TransactionRow × String), ps.Nodup ∧
      (∀ t name, (t, name) ∈ ps ↔ t ∈ L.transactions ∧ t.stripeEventId = some x.eventId ∧
        L.Touches c t ∧ x.expectedDelta.getD name 0 ≠ L.deltaOn chart (some c) t name) ∧
      (x.breaks (Dict.index LedgerTxn.eventId (loadLedger chart L (some c) none))).filter
          (·.kind = .amountMismatch) =
        ps.map fun p => x.amountMismatch (L.summary chart (some c) p.1) p.2 := by
  unfold ExpectedEvent.breaks
  rcases byEvent_cases hL c x.eventId with ⟨hget, hno, -⟩ | ⟨t, ht, hid, htouch, hget, -⟩
  · refine ⟨[], List.nodup_nil, fun t name => ?_, ?_⟩
    · refine iff_of_false (by simp) ?_
      rintro ⟨ht, hid, htouch, -⟩
      exact hno t ht hid htouch
    · rw [hget]
      dsimp only
      split_ifs <;> simp
  · refine ⟨(x.mismatches (L.summary chart (some c) t)).map fun name => (t, name), ?_,
      fun t' name => ?_, ?_⟩
    · exact ExpectedEvent.nodup_mismatches.map fun _ _ h => (Prod.mk.inj h).2
    · simp only [List.mem_map, Prod.mk.injEq, ExpectedEvent.mem_mismatches, summary_getD]
      constructor
      · rintro ⟨name', hne, rfl, rfl⟩
        exact ⟨ht, hid, htouch, hne⟩
      · rintro ⟨ht', hid', -, hne⟩
        obtain rfl := hL.eq_of_event ht' ht hid' hid
        exact ⟨name, hne, rfl, rfl⟩
    · rw [hget]
      simp [Function.comp_def]

/-- The events and accounts whose break says that the amounts differ. -/
lemma amountMismatch_breaks (hL : L.Admitted chart) (expected : List ExpectedEvent) (c : Char3) :
    ∃ pairs : List (ExpectedEvent × TransactionRow × String), pairs.Nodup ∧
      (∀ x t name, (x, t, name) ∈ pairs ↔ x ∈ firsts ExpectedEvent.eventId [] expected ∧
        t ∈ L.transactions ∧ t.stripeEventId = some x.eventId ∧ L.Touches c t ∧
        x.expectedDelta.getD name 0 ≠ L.deltaOn chart (some c) t name) ∧
      (reconcileExpected chart L expected c).breaks.filter (·.kind = .amountMismatch) =
        pairs.map fun p => p.1.amountMismatch (L.summary chart (some c) p.2.1) p.2.2 := by
  choose ps hnd hmem hbreaks using fun x : ExpectedEvent =>
    x.amountMismatch_breaks hL.toRowsAdmitted c
  refine ⟨(firsts ExpectedEvent.eventId [] expected).flatMap fun x => (ps x).map fun p => (x, p),
    ?_, fun x t name => ?_, ?_⟩
  · rw [List.nodup_flatMap]
    refine ⟨fun x _ => (hnd x).map fun _ _ h => (Prod.mk.inj h).2, ?_⟩
    refine (List.Nodup.of_map _ (nodup_firsts ExpectedEvent.eventId [] expected)).imp
      fun {x y} hne p hp hp' => ?_
    obtain ⟨q, -, rfl⟩ := List.mem_map.mp hp
    obtain ⟨q', -, heq⟩ := List.mem_map.mp hp'
    exact hne (Prod.mk.inj heq).1.symm
  · simp only [List.mem_flatMap, List.mem_map, Prod.mk.injEq]
    constructor
    · rintro ⟨x, hx, ⟨t, name⟩, hp, rfl, rfl, rfl⟩
      exact ⟨hx, (hmem x t name).mp hp⟩
    · rintro ⟨hx, hp⟩
      exact ⟨x, hx, (t, name), (hmem x t name).mpr hp, rfl, rfl⟩
  · have hunexpected : ((unexpectedTxns chart L c expected).map fun t =>
        (L.summary chart (some c) t).unexpected).filter (·.kind = .amountMismatch) = [] := by simp
    rw [reconcileExpected_breaks hL, List.filter_append, List.filter_flatMap, hunexpected,
      List.append_nil, List.map_flatMap]
    refine List.flatMap_congr fun x _ => ?_
    rw [List.map_map]
    exact hbreaks x

lemma missingInSource_breaks (hL : L.Admitted chart) (expected : List ExpectedEvent) (c : Char3) :
    (reconcileExpected chart L expected c).breaks.filter (·.kind = .missingInSource) =
      (unexpectedTxns chart L c expected).map fun t =>
        (L.summary chart (some c) t).unexpected := by
  have hexpected : (firsts ExpectedEvent.eventId [] expected).flatMap (fun x =>
      (x.breaks (Dict.index LedgerTxn.eventId (loadLedger chart L (some c) none))).filter
        (·.kind = .missingInSource)) = [] := by
    refine List.flatMap_eq_nil_iff.mpr fun x _ => ?_
    unfold ExpectedEvent.breaks
    split
    · split_ifs <;> simp
    · simp
  rw [reconcileExpected_breaks hL, List.filter_append, List.filter_flatMap, hexpected,
    List.nil_append]
  simp

/-- **`reconcile_expected` is sound and complete.**  The verdict is green exactly when every
expected event, at its first occurrence, moved what was expected of it (nothing, if it has no
transaction), every transaction in the currency belongs to an expected event, and money is
conserved.  A green verdict fixes every balance of the currency.  Whatever the verdict, each kind of
break is reported exactly once for each thing it is about. -/
theorem reconcile_expected_sound_complete (chart : Chart) (L : Ledger) (hL : L.Admitted chart)
    (expected : List ExpectedEvent) (c : Char3) :
    let r := reconcileExpected chart L expected c
    let xs := firsts ExpectedEvent.eventId [] expected
    (r.ok = true ↔
      (∀ x ∈ xs, ∀ name, x.expectedDelta.getD name 0 = L.eventDelta chart c x.eventId name) ∧
      (∀ t ∈ L.transactions, L.Touches c t →
        ∃ x ∈ expected, t.stripeEventId = some x.eventId) ∧
      ∀ k ∈ (check chart L).perCurrency, k.difference = 0) ∧
    (r.ok = true → ∀ a ∈ chart.ofCurrency c,
      L.balanceMinor a = total (fun x => x.expectedDelta.getD a.name 0) xs) ∧
    (∃ missing : List ExpectedEvent, missing.Nodup ∧
      (∀ x, x ∈ missing ↔ x ∈ xs ∧ (∃ name, x.expectedDelta.getD name 0 ≠ 0) ∧
        ∀ t ∈ L.transactions, t.stripeEventId = some x.eventId → ¬L.Touches c t) ∧
      r.breaks.filter (·.kind = .missingInLedger) = missing.map (·.missingInLedger)) ∧
    (∃ pairs : List (ExpectedEvent × TransactionRow × String), pairs.Nodup ∧
      (∀ x t name, (x, t, name) ∈ pairs ↔ x ∈ xs ∧ t ∈ L.transactions ∧
        t.stripeEventId = some x.eventId ∧ L.Touches c t ∧
        x.expectedDelta.getD name 0 ≠ L.deltaOn chart (some c) t name) ∧
      r.breaks.filter (·.kind = .amountMismatch) =
        pairs.map fun p => p.1.amountMismatch (L.summary chart (some c) p.2.1) p.2.2) ∧
    ∃ ts : List TransactionRow, ts.Nodup ∧
      (∀ t, t ∈ ts ↔ t ∈ L.transactions ∧ L.Touches c t ∧
        ∀ x ∈ expected, t.stripeEventId ≠ some x.eventId) ∧
      r.breaks.filter (·.kind = .missingInSource) =
        ts.map fun t => (L.summary chart (some c) t).unexpected := by
  intro r xs
  refine ⟨?_, fun hok a ha => balanceMinor_of_ok hL hok ha, missingInLedger_breaks hL expected c,
    amountMismatch_breaks hL expected c, unexpectedTxns chart L c expected, ?_,
    fun t => mem_unexpectedTxns hL.toRowsAdmitted, missingInSource_breaks hL expected c⟩
  · rw [reconcileExpected_ok_iff hL]
    constructor
    · rintro ⟨hagree, hall⟩
      exact ⟨hagree, hall, fun k hk => hL.check_difference_eq_zero hk⟩
    · rintro ⟨hagree, hall, -⟩
      exact ⟨hagree, hall⟩
  · refine List.Nodup.filter _ ((List.perm_insertionSort _ _).nodup_iff.mpr ?_)
    exact (List.Nodup.of_map _ hL.transactions_pkey).filter _

end

/-- A payout of 10.00 in the ledger. -/
def payoutTxn : LedgerTransaction :=
  { id := "txn-1"
    occurredAt := 1700000000
    entries := [⟨"bank", .debit, 1000, "USD"⟩, ⟨"stripe_balance", .credit, 1000, "USD"⟩]
    stripeEventId := some "evt_1"
    stripeObjectId := some "po_1"
    eventType := some "payout.paid"
    memo := none }

def payoutLedger : Ledger :=
  { transactions := [payoutTxn.row]
    entries := [⟨"txn-1", 2, .debit, 1000, usd⟩, ⟨"txn-1", 1, .credit, 1000, usd⟩] }

lemma payoutLedger_admitted : payoutLedger.Admitted seedChart := by
  have hW : payoutTxn.writes seedChart = .ok payoutLedger := rfl
  exact (Ledger.empty_admitted seedChart).append_writes rfl hW

def expectedPayout : ExpectedEvent :=
  ⟨"evt_1", ⟨[("bank", 1000), ("stripe_balance", -1000)], by decide⟩⟩

/-- A payout that is expected twice and was posted once. -/
theorem reconcile_expected_payout :
    (reconcileExpected seedChart payoutLedger [expectedPayout, expectedPayout] usd).ok = true ∧
    ∀ a ∈ seedChart.ofCurrency usd, payoutLedger.balanceMinor a =
      total (fun x => x.expectedDelta.getD a.name 0)
        (firsts ExpectedEvent.eventId [] [expectedPayout, expectedPayout]) :=
  ⟨rfl, (reconcile_expected_sound_complete seedChart payoutLedger payoutLedger_admitted
    [expectedPayout, expectedPayout] usd).2.1 rfl⟩

end LedgerProof
