import LedgerProof.Lib.FirstWins
import LedgerProof.Lib.Run
import LedgerProof.Worker.Handlers

/-!
# The books do not depend on order or duplication

Stripe promises neither ordering nor exactly-once delivery, so `handle_event` must come to the
same books whatever arrives when and how often.  It keeps the first arrival of every money
movement, under either of two keys, and everything else is a no-op; the proof is that this is an
instance of `FirstWins`, with the ledger as the store and a movement's effect on one account as
its worth.

What makes it one: among events whose ids identify them, two postings collide in the unique keys
of `transactions` exactly when they are the same movement (`conflict_writes_iff`), whichever of
the three keys reports it.
-/

namespace LedgerProof

/-! ## Money movements -/

/-- The identity of a money movement: its type and object id, or the event's own id when the
payload carries no object id. -/
inductive MovementKey
  | object (type objectId : String)
  | event (id : String)
  deriving DecidableEq, Repr

/-- The movement an event reports. -/
def movementKey (e : Event) : MovementKey :=
  match moneyMovementObjectId e with
  | .ok (some oid) => .object e.type oid
  | _ => .event e.id

/-- The ledger has a transaction with this identity. -/
def Ledger.holds (L : Ledger) : MovementKey → Bool
  | .object type oid =>
      L.transactions.any fun t => t.eventType = some type && t.stripeObjectId = some oid
  | .event id => L.transactions.any fun t => t.stripeEventId = some id

lemma Ledger.holds_object_iff {L : Ledger} {type oid : String} :
    L.holds (.object type oid) = true ↔
      ∃ t ∈ L.transactions, t.eventType = some type ∧ t.stripeObjectId = some oid := by
  simp [holds]

lemma Ledger.holds_event_iff {L : Ledger} {id : String} :
    L.holds (.event id) = true ↔ ∃ t ∈ L.transactions, t.stripeEventId = some id := by
  simp [holds]

section

variable (uuid5 : String → Uuid) (chart : Chart) (client : Option Client)

/-- The schema accepts what the event maps to, and none of its unique keys is taken. -/
def isNew (L : Ledger) (e : Event) : Bool :=
  match postable uuid5 chart client e with
  | some (txn, _) => L.conflict txn.row = none
  | none => false

/-- The distinct movements among the events that are new to the ledger. -/
def newMovements (L : Ledger) (es : List Event) : List MovementKey :=
  ((es.filter (isNew uuid5 chart client L)).map movementKey).dedup

/-- What the movement `k` does to the balance of `a`, read off the first event that reports
it and is accepted. -/
def movementDelta (es : List Event) (a : Account) (k : MovementKey) : ℤ :=
  match es.findSome? fun e => if movementKey e = k then postable uuid5 chart client e else none with
  | some (_, W) => W.balanceMinor a
  | none => 0

/-- What is assumed of the events: an id identifies its event, and events with one type and
object id map to the same entries. -/
structure Consistent (es : List Event) : Prop where
  same_id : ∀ e ∈ es, ∀ e' ∈ es, e.id = e'.id → e = e'
  same_entries : ∀ e ∈ es, ∀ e' ∈ es, e.type = e'.type → ∀ oid,
    moneyMovementObjectId e = .ok (some oid) → moneyMovementObjectId e' = .ok (some oid) →
    ∀ txn txn', mapEvent uuid5 client e = .ok (some txn) →
      mapEvent uuid5 client e' = .ok (some txn') → txn.entries = txn'.entries

/-- The ledger's transactions with the id of one of the events are postings of that event. -/
def Ledger.AgreesWith (L : Ledger) (es : List Event) : Prop :=
  ∀ t ∈ L.transactions, ∀ e ∈ es,
    t.id = uuid5 ("ledgerproof:" ++ e.id) ∨ t.stripeEventId = some e.id →
      t.stripeEventId = some e.id ∧ t.eventType = some e.type ∧
        moneyMovementObjectId e = .ok t.stripeObjectId

variable {uuid5 chart client}

/-! ## Movements and unique keys -/

lemma movementKey_eq_iff {e e' : Event} {oid oid' : Option String}
    (hobj : moneyMovementObjectId e = .ok oid) (hobj' : moneyMovementObjectId e' = .ok oid')
    (hid : e.id = e'.id → e = e') :
    movementKey e = movementKey e' ↔
      e.id = e'.id ∨ (e.type = e'.type ∧ sqlEq oid oid' = true) := by
  by_cases heq : e = e'
  · simp [heq]
  · have hne : e.id ≠ e'.id := fun h => heq (hid h)
    cases oid with
    | none =>
        cases oid' with
        | none => simp [movementKey, hobj, hobj', hne]
        | some o' => simp [movementKey, hobj, hobj', hne]
    | some o =>
        cases oid' with
        | none => simp [movementKey, hobj, hobj', hne]
        | some o' => simp [movementKey, hobj, hobj', hne]

/-- **Two postings collide exactly when they are one movement.** -/
lemma conflict_writes_iff (huuid : Function.Injective uuid5) {e e' : Event}
    {txn txn' : LedgerTransaction} {W W' : Ledger}
    (hpost : postable uuid5 chart client e = some (txn, W))
    (hpost' : postable uuid5 chart client e' = some (txn', W')) (hid : e.id = e'.id → e = e') :
    W.conflict txn'.row = none ↔ movementKey e ≠ movementKey e' := by
  obtain ⟨-, hmap, hW⟩ := postable_eq_some_iff.mp hpost
  obtain ⟨-, hmap', -⟩ := postable_eq_some_iff.mp hpost'
  obtain ⟨htid, hev, htype, hobj⟩ := mapEvent_identity hmap
  obtain ⟨htid', hev', htype', hobj'⟩ := mapEvent_identity hmap'
  obtain ⟨-, rows, -, rfl, -⟩ := LedgerTransaction.writes_ok_iff.mp hW
  rw [Ledger.conflict_eq_none_iff, Ne, movementKey_eq_iff hobj hobj' hid]
  have huid : txn'.id = txn.id ↔ e.id = e'.id := by
    rw [htid, htid', huuid.eq_iff]
    constructor
    · intro h
      simpa using h.symm
    · intro h
      rw [h]
  simp only [List.map_cons, List.map_nil, List.mem_singleton, LedgerTransaction.row, forall_eq,
    huid, hev, hev', htype, htype', sqlEq_some]
  cases hsq : sqlEq txn.stripeObjectId txn'.stripeObjectId <;> simp

lemma isNew_iff {L : Ledger} {e : Event} :
    isNew uuid5 chart client L e = true ↔ ∃ txn W,
      postable uuid5 chart client e = some (txn, W) ∧ L.conflict txn.row = none := by
  unfold isNew
  cases h : postable uuid5 chart client e with
  | none => simp
  | some p =>
      obtain ⟨txn, W⟩ := p
      simp

/-- Accepted events of one movement have the same effect. -/
lemma Consistent.balanceMinor_eq {es : List Event} (hE : Consistent uuid5 client es)
    {e e' : Event} (he : e ∈ es) (he' : e' ∈ es) (hkey : movementKey e = movementKey e')
    {txn txn' : LedgerTransaction} {W W' : Ledger}
    (hpost : postable uuid5 chart client e = some (txn, W))
    (hpost' : postable uuid5 chart client e' = some (txn', W')) (a : Account) :
    W.balanceMinor a = W'.balanceMinor a := by
  obtain ⟨-, hmap, hW⟩ := postable_eq_some_iff.mp hpost
  obtain ⟨-, hmap', hW'⟩ := postable_eq_some_iff.mp hpost'
  have hobj := (mapEvent_identity hmap).2.2.2
  have hobj' := (mapEvent_identity hmap').2.2.2
  have hid := hE.same_id e he e' he'
  rcases (movementKey_eq_iff hobj hobj' hid).mp hkey with hsame | ⟨htype, hsq⟩
  · cases hid hsame
    rw [hpost] at hpost'
    cases hpost'
    rfl
  · obtain ⟨oid, ho, ho'⟩ := sqlEq_iff.mp hsq
    have hent := hE.same_entries e he e' he' htype oid (ho ▸ hobj) (ho' ▸ hobj') txn txn' hmap hmap'
    obtain ⟨V, hV, hbal⟩ :=
      LedgerTransaction.writes_congr hent (LedgerTransaction.storable_of_writes hW) hW'
    rw [hV] at hW
    cases hW
    exact hbal a

lemma Consistent.movementDelta_eq {es : List Event} (hE : Consistent uuid5 client es) {e : Event}
    (he : e ∈ es) {txn : LedgerTransaction} {W : Ledger}
    (hpost : postable uuid5 chart client e = some (txn, W)) (a : Account) :
    movementDelta uuid5 chart client es a (movementKey e) = W.balanceMinor a := by
  unfold movementDelta
  cases hfind : es.findSome? fun e' =>
      if movementKey e' = movementKey e then postable uuid5 chart client e' else none with
  | none =>
      have := List.findSome?_eq_none_iff.mp hfind e he
      simp [hpost] at this
  | some p =>
      obtain ⟨e', he', hp⟩ := List.exists_of_findSome?_eq_some hfind
      split_ifs at hp with hkey
      exact hE.balanceMinor_eq he' he hkey hp hpost a

/-! ## The handler keeps the first arrival -/

lemma handleEvent_admitted {db : Db} (hL : db.ledger.Admitted chart) (e : Event) :
    (handleEvent uuid5 chart client db e).2.ledger.Admitted chart := by
  rw [handleEvent_ledger hL.toRowsAdmitted]
  cases hpost : postable uuid5 chart client e with
  | none => exact hL
  | some p =>
      obtain ⟨txn, W⟩ := p
      obtain ⟨-, -, hW⟩ := postable_eq_some_iff.mp hpost
      by_cases hc : db.ledger.conflict txn.row = none
      · simpa [hc] using hL.append_writes hc hW
      · simpa [hc] using hL

lemma handleAll_admitted {db : Db} (hL : db.ledger.Admitted chart) (es : List Event) :
    (handleAll uuid5 chart client db es).ledger.Admitted chart :=
  foldl_inv (fun db : Db => db.ledger.Admitted chart) (fun _ e h => handleEvent_admitted h e) hL es

lemma Ledger.holds_append {L W : Ledger} {k : MovementKey} (h : L.holds k = true) :
    (L.append W).holds k = true := by
  cases k with
  | object type oid =>
      obtain ⟨t, ht, heq⟩ := Ledger.holds_object_iff.mp h
      exact Ledger.holds_object_iff.mpr ⟨t, List.mem_append_left _ ht, heq⟩
  | event id =>
      obtain ⟨t, ht, heq⟩ := Ledger.holds_event_iff.mp h
      exact Ledger.holds_event_iff.mpr ⟨t, List.mem_append_left _ ht, heq⟩

lemma holds_handleEvent {db : Db} (hL : db.ledger.RowsAdmitted chart) (e : Event) {k : MovementKey}
    (h : db.ledger.holds k = true) :
    (handleEvent uuid5 chart client db e).2.ledger.holds k = true := by
  rw [handleEvent_ledger hL]
  cases postable uuid5 chart client e with
  | none => exact h
  | some p =>
      obtain ⟨txn, W⟩ := p
      by_cases hc : db.ledger.conflict txn.row = none
      · simpa [hc] using Ledger.holds_append h
      · simpa [hc] using h

/-- What is still new after one more event. -/
lemma isNew_handleEvent_iff (huuid : Function.Injective uuid5) {db : Db}
    (hL : db.ledger.RowsAdmitted chart) {e e' : Event} (hid : e.id = e'.id → e = e') :
    isNew uuid5 chart client (handleEvent uuid5 chart client db e).2.ledger e' = true ↔
      isNew uuid5 chart client db.ledger e' = true ∧
        ¬(isNew uuid5 chart client db.ledger e = true ∧ movementKey e = movementKey e') := by
  rw [handleEvent_ledger hL]
  by_cases hnew : isNew uuid5 chart client db.ledger e = true
  · obtain ⟨txn, W, hpost, hc⟩ := isNew_iff.mp hnew
    simp only [hpost, hc, if_true, hnew, true_and]
    constructor
    · intro h
      obtain ⟨txn', W', hpost', hc'⟩ := isNew_iff.mp h
      obtain ⟨hold, hW⟩ := Ledger.conflict_append_eq_none_iff.mp hc'
      exact ⟨isNew_iff.mpr ⟨txn', W', hpost', hold⟩,
        (conflict_writes_iff huuid hpost hpost' hid).mp hW⟩
    · rintro ⟨h, hkey⟩
      obtain ⟨txn', W', hpost', hc'⟩ := isNew_iff.mp h
      refine isNew_iff.mpr ⟨txn', W', hpost', Ledger.conflict_append_eq_none_iff.mpr ⟨hc', ?_⟩⟩
      exact (conflict_writes_iff huuid hpost hpost' hid).mpr hkey
  · cases hpost : postable uuid5 chart client e with
    | none => simp [hnew]
    | some p =>
        obtain ⟨txn, W⟩ := p
        have hc : db.ledger.conflict txn.row ≠ none := fun hc =>
          hnew (isNew_iff.mpr ⟨txn, W, hpost, hc⟩)
        simp [hc, hnew]

/-- **The handler is a first-arrival store** for the balance of an account, on any states and
events where the events that are new to the ledger have the worth of their movement. -/
lemma handleEvent_firstWins (huuid : Function.Injective uuid5) {a : Account}
    {worth : MovementKey → ℤ} {Inv : Db → Prop} {Ok : Event → Prop}
    (hadm : ∀ db, Inv db → db.ledger.Admitted chart)
    (hinv : ∀ db e, Inv db → Ok e → Inv (handleEvent uuid5 chart client db e).2)
    (hid : ∀ e e', Ok e → Ok e' → e.id = e'.id → e = e')
    (hworth : ∀ db e txn W, Inv db → Ok e → postable uuid5 chart client e = some (txn, W) →
      db.ledger.conflict txn.row = none → W.balanceMinor a = worth (movementKey e)) :
    FirstWins Inv Ok (fun db e => (handleEvent uuid5 chart client db e).2)
      (fun db e => isNew uuid5 chart client db.ledger e) movementKey
      (fun db => db.ledger.balanceMinor a) worth where
  inv := fun hL he => hinv _ _ hL he
  value_step := by
    intro db e hI he
    rw [handleEvent_ledger (hadm db hI).toRowsAdmitted]
    unfold isNew
    cases hpost : postable uuid5 chart client e with
    | none => simp
    | some p =>
        obtain ⟨txn, W⟩ := p
        by_cases hc : db.ledger.conflict txn.row = none
        · simp [hc, hworth db e txn W hI he hpost hc]
        · simp [hc]
  fresh_step := fun hI he he' =>
    isNew_handleEvent_iff huuid (hadm _ hI).toRowsAdmitted (hid _ _ he he')

/-- On consistent events the worth of a movement is its effect on the account. -/
lemma Consistent.firstWins (huuid : Function.Injective uuid5) {es : List Event}
    (hE : Consistent uuid5 client es) (a : Account) :
    FirstWins (fun db : Db => db.ledger.Admitted chart) (· ∈ es)
      (fun db e => (handleEvent uuid5 chart client db e).2)
      (fun db e => isNew uuid5 chart client db.ledger e) movementKey
      (fun db => db.ledger.balanceMinor a) (movementDelta uuid5 chart client es a) :=
  handleEvent_firstWins huuid (fun _ hL => hL) (fun _ e hL _ => handleEvent_admitted hL e)
    (fun e e' he he' => hE.same_id e he e' he')
    (fun _ _ _ _ _ he hpost _ => (hE.movementDelta_eq he hpost a).symm)

/-! ## The books -/

lemma mem_newMovements {L : Ledger} {es : List Event} {k : MovementKey} :
    k ∈ newMovements uuid5 chart client L es ↔ ∃ e ∈ es, movementKey e = k ∧
      ∃ txn W, postable uuid5 chart client e = some (txn, W) ∧ L.conflict txn.row = none := by
  unfold newMovements
  simp only [List.mem_dedup, List.mem_map, List.mem_filter, isNew_iff]
  constructor
  · rintro ⟨e, ⟨he, hnew⟩, hkey⟩
    exact ⟨e, he, hkey, hnew⟩
  · rintro ⟨e, he, hkey, hnew⟩
    exact ⟨e, ⟨he, hnew⟩, hkey⟩

/-- A free key means that the movement's identity is not in the ledger. -/
lemma holds_eq_false_of_conflict {L : Ledger} {e : Event} {txn : LedgerTransaction}
    (hmap : mapEvent uuid5 client e = .ok (some txn)) (hc : L.conflict txn.row = none) :
    L.holds (movementKey e) = false := by
  obtain ⟨-, hev, htype, hobj⟩ := mapEvent_identity hmap
  obtain ⟨-, hfreeEv, hfreeObj⟩ := Ledger.conflict_eq_none_iff.mp hc
  rw [← Bool.not_eq_true]
  intro hh
  unfold movementKey at hh
  rw [hobj] at hh
  cases hso : txn.stripeObjectId with
  | none =>
      rw [hso] at hh
      obtain ⟨t, ht, hteq⟩ := Ledger.holds_event_iff.mp hh
      have := hfreeEv t ht
      simp [LedgerTransaction.row, hev, hteq] at this
  | some o =>
      rw [hso] at hh
      obtain ⟨t, ht, htype', hobj'⟩ := Ledger.holds_object_iff.mp hh
      have := hfreeObj t ht
      simp [LedgerTransaction.row, htype, hso, htype', hobj'] at this

/-- In a ledger that agrees with the events, a unique key is taken exactly when the movement's
identity is there. -/
lemma Ledger.AgreesWith.conflict_iff {L : Ledger} {es : List Event}
    (hA : L.AgreesWith uuid5 es) {e : Event} (he : e ∈ es) {txn : LedgerTransaction}
    (hmap : mapEvent uuid5 client e = .ok (some txn)) :
    L.conflict txn.row = none ↔ L.holds (movementKey e) = false := by
  refine ⟨holds_eq_false_of_conflict hmap, fun hh => ?_⟩
  rw [← Bool.not_eq_true] at hh
  obtain ⟨htid, hev, htype, hobj⟩ := mapEvent_identity hmap
  -- a transaction found by the event's id is found by the movement's identity as well
  have hheld : ∀ t ∈ L.transactions,
      ¬(t.id = uuid5 ("ledgerproof:" ++ e.id) ∨ t.stripeEventId = some e.id) := by
    intro t ht h
    obtain ⟨h1, h2, h3⟩ := hA t ht e he h
    unfold movementKey at hh
    rw [h3] at hh
    cases hso : t.stripeObjectId with
    | none =>
        rw [hso] at hh
        exact hh (Ledger.holds_event_iff.mpr ⟨t, ht, h1⟩)
    | some o =>
        rw [hso] at hh
        exact hh (Ledger.holds_object_iff.mpr ⟨t, ht, h2, hso⟩)
  refine Ledger.conflict_eq_none_iff.mpr ⟨?_, ?_, ?_⟩
  · intro hmem
    obtain ⟨t, ht, hteq⟩ := List.mem_map.mp hmem
    exact hheld t ht (.inl (hteq.trans htid))
  · intro t ht
    rw [← Bool.not_eq_true]
    intro hsq
    obtain ⟨x, hx, hx'⟩ := sqlEq_iff.mp hsq
    rw [LedgerTransaction.row, hev] at hx'
    cases hx'
    exact hheld t ht (.inr hx)
  · intro t ht
    rw [← Bool.not_eq_true]
    intro hsq
    obtain ⟨hty, hob⟩ := Bool.and_eq_true_iff.mp hsq
    obtain ⟨ty, ht1, ht2⟩ := sqlEq_iff.mp hty
    obtain ⟨o, ho1, ho2⟩ := sqlEq_iff.mp hob
    simp only [LedgerTransaction.row, htype, Option.some.injEq] at ht2 ho2
    subst ht2
    unfold movementKey at hh
    rw [hobj, ho2] at hh
    exact hh (Ledger.holds_object_iff.mpr ⟨t, ht, ht1, ho1⟩)

/-- Events the handler has nothing to post for. -/
lemma postable_eq_none_of_invoice {e : Event} (h : e.type = "invoice.payment_failed") :
    postable uuid5 chart client e = none := by
  by_contra hsome
  obtain ⟨⟨txn, W⟩, hpost⟩ := Option.ne_none_iff_exists'.mp hsome
  obtain ⟨-, hmap, -⟩ := postable_eq_some_iff.mp hpost
  obtain ⟨fee, hbuild⟩ := mapEvent_some hmap
  obtain ⟨-, -, -, -, -, -, -, -, hne, -⟩ := buildTransaction_some hbuild
  exact hne h

/-- **Order and duplication independence of the books.** Let an id identify its event and
let events with one type and object id map to the same entries.  Then from any admitted
ledger and in any order with any repetitions, `handle_event` ends with the initial balances plus
the effect, once each, of the distinct movements that were new to the ledger, the effect of a
movement being that of any event that reports it and is accepted.  Where the ledger agrees with
the events, a movement is new when it is accepted and the ledger has no transaction of its
identity.  Events of types that are not handled, `invoice.payment_failed` and events whose
handling raises contribute nothing, unless what raises is the status write at the end: an event
whose payload `JSONB` does not take and that has no row yet is posted before its row is refused. -/
theorem books_order_independent (huuid : Function.Injective uuid5) (db : Db)
    (hL : db.ledger.Admitted chart) {es : List Event} (hE : Consistent uuid5 client es) :
    (∀ es', (∀ e, e ∈ es' ↔ e ∈ es) →
      accountBalances chart (handleAll uuid5 chart client db es').ledger =
        chart.accounts.map fun a => (a, db.ledger.balanceMinor a +
          total (movementDelta uuid5 chart client es a)
            (newMovements uuid5 chart client db.ledger es))) ∧
    (∀ e ∈ es, ∀ txn W, postable uuid5 chart client e = some (txn, W) → ∀ a,
      movementDelta uuid5 chart client es a (movementKey e) = W.balanceMinor a) ∧
    (newMovements uuid5 chart client db.ledger es).Nodup ∧
    (∀ k, k ∈ newMovements uuid5 chart client db.ledger es ↔ ∃ e ∈ es, movementKey e = k ∧
      ∃ txn W, postable uuid5 chart client e = some (txn, W) ∧
        db.ledger.conflict txn.row = none) ∧
    (db.ledger.AgreesWith uuid5 es → ∀ k, k ∈ newMovements uuid5 chart client db.ledger es ↔
      (∃ e ∈ es, movementKey e = k ∧ (postable uuid5 chart client e).isSome) ∧
        db.ledger.holds k = false) ∧
    ∀ db' : Db, db'.ledger.Admitted chart → ∀ e : Event,
      e.type ∉ handledEventTypes ∨ e.type = "invoice.payment_failed" ∨
        (db'.log.hasId e.id = true ∨ nulFree e.payload = true) ∧
          (∃ err, (handleEvent uuid5 chart client db' e).1 = .error err) →
      postable uuid5 chart client e = none ∧
        (handleEvent uuid5 chart client db' e).2.ledger = db'.ledger := by
  refine ⟨fun es' hmem => ?_, fun e he txn W hpost a => hE.movementDelta_eq he hpost a,
    List.nodup_dedup _, fun k => mem_newMovements, fun hA k => ?_, fun db' hL' e hcase => ?_⟩
  · refine List.map_congr_left fun a _ => ?_
    rw [Prod.mk.injEq]
    exact ⟨rfl, (hE.firstWins huuid a).foldl_congr hL (fun e he => he) hmem⟩
  · rw [mem_newMovements]
    constructor
    · rintro ⟨e, he, rfl, txn, W, hpost, hc⟩
      have hmap := (postable_eq_some_iff.mp hpost).2.1
      exact ⟨⟨e, he, rfl, by simp [hpost]⟩, (hA.conflict_iff he hmap).mp hc⟩
    · rintro ⟨⟨e, he, rfl, hsome⟩, hholds⟩
      obtain ⟨⟨txn, W⟩, hpost⟩ := Option.isSome_iff_exists.mp hsome
      have hmap := (postable_eq_some_iff.mp hpost).2.1
      exact ⟨e, he, rfl, txn, W, hpost, (hA.conflict_iff he hmap).mpr hholds⟩
  · have hnone : postable uuid5 chart client e = none := by
      rcases hcase with htype | hinv | ⟨hpayload, err, herr⟩
      · simp [postable, htype]
      · exact postable_eq_none_of_invoice hinv
      · exact handleEvent_error hL'.toRowsAdmitted hpayload herr
    refine ⟨hnone, ?_⟩
    rw [handleEvent_ledger hL'.toRowsAdmitted, hnone]

end

/-- A settled charge of 10.00 with a fee of 0.59, as reported by an event of any id. -/
def twinCharge (id : String) : Event :=
  ⟨id, "charge.succeeded", [("created", .int 1700000000), ("data", .obj [("object", .obj [
    ("id", .str "ch_1"), ("amount", .int 1000), ("currency", .str "usd"),
    ("balance_transaction", .obj [("id", .str "txn_1"), ("fee", .int 59)])])])]⟩

lemma mapEvent_twinCharge (uuid5 : String → Uuid) (id : String) :
    mapEvent uuid5 none (twinCharge id) = .ok (some ⟨uuid5 ("ledgerproof:" ++ id), 1700000000,
      chargeEntries "USD" 1000 59, some id, some "ch_1", some "charge.succeeded", none⟩) :=
  rfl

lemma twinCharge_consistent (uuid5 : String → Uuid) (ids : List String) :
    Consistent uuid5 none (ids.map twinCharge) where
  same_id := by
    intro e he e' he' h
    obtain ⟨id, -, rfl⟩ := List.mem_map.mp he
    obtain ⟨id', -, rfl⟩ := List.mem_map.mp he'
    exact congrArg twinCharge h
  same_entries := by
    intro e he e' he' _ _ _ _ txn txn' h h'
    obtain ⟨id, -, rfl⟩ := List.mem_map.mp he
    obtain ⟨id', -, rfl⟩ := List.mem_map.mp he'
    rw [mapEvent_twinCharge] at h h'
    cases h
    cases h'
    rfl

/-- Two events of one charge, the second one delivered twice, post it once. -/
theorem books_order_independent_twins :
    (accountBalances seedChart (handleAll sampleUuid5 seedChart none ⟨.empty, []⟩
      [twinCharge "evt_2", twinCharge "evt_1", twinCharge "evt_2"]).ledger).map
        (fun r => (r.1.name, r.2)) =
      [("stripe_balance", 941), ("bank", 0), ("processing_fees", 59), ("dispute_losses", 0),
        ("refunds_contra", 0), ("revenue", 1000), ("customer_liability", 0)] := by
  have h := (books_order_independent sampleUuid5_injective ⟨.empty, []⟩
    (Ledger.empty_admitted seedChart) (twinCharge_consistent sampleUuid5 ["evt_1", "evt_2"])).1
  rw [h [twinCharge "evt_2", twinCharge "evt_1", twinCharge "evt_2"] (by simp)]
  decide +kernel

/-- A charge with a NUL character in its description, and no row in the event log: it is posted, and
then its row is refused. -/
theorem posted_before_refused :
    let e : Event := { twinCharge "evt_1" with
      fields := ("description", .str "\x00") :: (twinCharge "evt_1").fields }
    (handleEvent sampleUuid5 seedChart none ⟨.empty, []⟩ e).1 = .error (.pg .dataError) ∧
      (handleEvent sampleUuid5 seedChart none ⟨.empty, []⟩ e).2.ledger.transactions.length = 1 := by
  decide +kernel

end LedgerProof
