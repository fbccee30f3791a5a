import LedgerProof.StripeIo.Mapping

/-!
# Handling one event

`worker/handlers.py`: `handle_event` maps an event, fetching a fee the payload lacks, posts the
transaction, and advances the event's row in `stripe_events`.  The ledger commit and the status
write are separate database transactions; here they run one after the other on a healthy
database, and `Pipeline/System.lean` interleaves them with everything else.

`client` is the Stripe client: what `client.get(path, params)` returns or raises.
`postable` is what an event amounts to for the ledger: the transaction the handler hands to
`post_transaction` together with the rows the schema would store for it, if it would.
`handleEvent_ledger` is the specification every later result uses: the handler appends those
rows when no unique key is taken, and otherwise leaves the ledger alone.
-/

namespace LedgerProof

/-! ## `stripe_events` -/

/-- `stripe_events.status`. -/
inductive Status
  | received
  | queued
  | processed
  | noMoneyMoved
  | failed
  deriving DecidableEq, Repr

/-- A row of `stripe_events`; the payload column holds the event itself. -/
structure EventRow where
  id : String
  eventType : String
  objectId : Option String
  payload : Event
  status : Status

/-- The event log. -/
abbrev EventLog := List EventRow

/-- `UPDATE stripe_events SET status = … WHERE …`. -/
def EventLog.update (log : EventLog) (p : EventRow → Bool) (status : Status) : EventLog :=
  log.map fun r => if p r then { r with status := status } else r

/-- `UPDATE stripe_events SET status = … WHERE id = …`. -/
def EventLog.setStatus (log : EventLog) (id : String) (status : Status) : EventLog :=
  log.update (fun r => r.id = id) status

/-- A row with this id. -/
def EventLog.hasId (log : EventLog) (id : String) : Bool := log.any (·.id = id)

/-- A row that holds `(event_type, object_id)`; a missing object id collides with nothing. -/
def EventLog.hasKey (log : EventLog) (type : String) (objectId : Option String) : Bool :=
  log.any fun r => r.eventType = type && sqlEq r.objectId objectId

/-- `INSERT INTO stripe_events …`, for a row no unique key stands in the way of. -/
def EventLog.add (log : EventLog) (e : Event) (objectId : Option String) (status : Status) :
    EventLog :=
  log ++ [⟨e.id, e.type, objectId, e, status⟩]

/-- The second statement of `_mark_status`: `INSERT … ON CONFLICT (id) DO UPDATE`.  A row of
another event that holds the object key makes the insert fail, which is swallowed. -/
def EventLog.upsert (log : EventLog) (e : Event) (objectId : Option String) (status : Status) :
    EventLog :=
  if log.hasId e.id then log.setStatus e.id status
  else if log.hasKey e.type objectId then log
  else log.add e objectId status

mutual

/-- `JSONB` can hold the value: there is no NUL character in its texts. -/
def nulFree : Json → Bool
  | .str s => decide (NulFree s)
  | .arr items => nulFreeItems items
  | .obj fields => nulFreeFields fields
  | _ => true

def nulFreeItems : List Json → Bool
  | [] => true
  | v :: vs => nulFree v && nulFreeItems vs

def nulFreeFields : List (String × Json) → Bool
  | [] => true
  | (key, v) :: fields => decide (NulFree key) && nulFree v && nulFreeFields fields

end

/-- `_mark_status`.  The id has to be one that the driver writes, and a new row a payload that the
column takes. -/
def markStatus (log : EventLog) (e : Event) (status : Status) : Except Exn EventLog :=
  if ¬NulFree e.id then .error (.pg .dataError)
  else if log.hasId e.id then .ok (log.setStatus e.id status)
  else do
    let objectId ← moneyMovementObjectId e
    if nulFree e.payload then return log.upsert e objectId status
    else throw (.pg .dataError)

/-! ## Mapping with a client -/

/-- The Stripe client: `client.get(path, params)`. -/
abbrev Client := String → Json → Except Exn Json

/-- `_resolve_fee`: the balance transaction by its id if there is one, else the charge again
with its balance transaction expanded. -/
def resolveFee (e : Event) (balanceTransactionId : Option String) (client : Client) :
    Except Exn Json :=
  match balanceTransactionId with
  | some btId => do
      let bt ← client ("/v1/balance_transactions/" ++ btId) .null
      bt.index "fee"
  | none => do
      let data ← e.payload.getD "data" (.obj [])
      let obj ← data.getD "object" (.obj [])
      let objId ← obj.get "id"
      match objId with
      | .str oid =>
          if e.type = "charge.succeeded" then
            let charge ← client ("/v1/charges/" ++ oid)
              (.obj [("expand", .arr [.str "balance_transaction"])])
            let bt ← charge.get "balance_transaction"
            match bt with
            | .obj _ =>
                let fee ← expandedFee bt
                return .int fee
            | _ => throw (.missingFeeData none)
          else throw (.missingFeeData none)
      | _ => throw (.missingFeeData none)

/-- `HANDLED_EVENT_TYPES`. -/
def handledEventTypes : List String :=
  ["charge.succeeded", "charge.refunded", "charge.dispute.created", "payout.paid",
    "invoice.payment_failed"]

section

variable (uuid5 : String → Uuid) (chart : Chart) (client : Option Client)

/-- The mapping half of `handle_event`: build the transaction, and once more with the fetched
fee when the payload lacked it. -/
def mapEvent (e : Event) : Except Exn (Option LedgerTransaction) :=
  match buildTransaction uuid5 e .null, client with
  | .error (.missingFeeData bt), some c => do
      let fee ← resolveFee e bt c
      buildTransaction uuid5 e fee
  | r, _ => r

/-! ## `handle_event` -/

/-- The tables the worker writes. -/
structure Db where
  ledger : Ledger
  log : EventLog

/-- What `handle_event` returns. -/
inductive Handled
  | posted
  | duplicate
  | noMoneyMoved
  | ignored
  deriving DecidableEq, Repr

/-- The last step of the handler: write the status, then answer. -/
def finish (db : Db) (e : Event) (status : Status) (answer : Handled) : Except Exn Handled × Db :=
  match markStatus db.log e status with
  | .ok log => (.ok answer, { db with log := log })
  | .error err => (.error err, db)

/-- The outcome `handle_event` reads off `post_transaction`: a primary-key hit on a
deterministic id is the same event again. -/
def postOutcome : Except Exn PostOutcome → Except Exn PostOutcome
  | .error (.pg (.uniqueViolation c)) =>
      if c = "transactions_pkey" then .ok .duplicate else .error (.pg (.uniqueViolation c))
  | r => r

/-- `handle_event`, on a database that raises no serialization failure. -/
def handleEvent (db : Db) (e : Event) : Except Exn Handled × Db :=
  if e.type ∉ handledEventTypes then finish db e .noMoneyMoved .ignored
  else
    match mapEvent uuid5 client e with
    | .error err => (.error err, db)
    | .ok none => finish db e .noMoneyMoved .noMoneyMoved
    | .ok (some txn) =>
        let run := postTransaction chart db.ledger txn 5 fun _ => none
        let db' := { db with ledger := run.ledger }
        match postOutcome run.outcome with
        | .error err => (.error err, db')
        | .ok .posted => finish db' e .processed .posted
        | .ok .duplicate => finish db' e .processed .duplicate

/-- Handling a list of events, one after the other, whatever each call returns. -/
def handleAll (db : Db) (es : List Event) : Db :=
  es.foldl (fun db e => (handleEvent uuid5 chart client db e).2) db

/-! ## Specification -/

/-- What an event amounts to for the ledger: the transaction handed to `post_transaction` and
the rows the schema stores for it. -/
def postable (e : Event) : Option (LedgerTransaction × Ledger) :=
  if e.type ∉ handledEventTypes then none
  else
    match mapEvent uuid5 client e with
    | .ok (some txn) =>
        match txn.writes chart with
        | .ok W => some (txn, W)
        | .error _ => none
    | _ => none

variable {uuid5 chart client}

/-- A mapped transaction came out of `build_transaction`, with some fee. -/
lemma mapEvent_some {e : Event} {txn : LedgerTransaction}
    (h : mapEvent uuid5 client e = .ok (some txn)) :
    ∃ fee, buildTransaction uuid5 e fee = .ok (some txn) := by
  unfold mapEvent at h
  split at h
  · obtain ⟨fee, -, hbuild⟩ := except_bind_eq_ok.mp h
    exact ⟨fee, hbuild⟩
  · exact ⟨.null, h⟩

/-- A mapped transaction carries the identity of its event. -/
lemma mapEvent_identity {e : Event} {txn : LedgerTransaction}
    (h : mapEvent uuid5 client e = .ok (some txn)) :
    txn.id = uuid5 ("ledgerproof:" ++ e.id) ∧ txn.stripeEventId = some e.id ∧
      txn.eventType = some e.type ∧ moneyMovementObjectId e = .ok txn.stripeObjectId := by
  obtain ⟨fee, hbuild⟩ := mapEvent_some h
  obtain ⟨-, -, -, -, -, objectId, -, -, -, -, -, -, hobj, rfl⟩ := buildTransaction_some hbuild
  exact ⟨rfl, rfl, rfl, hobj⟩

lemma postable_eq_some_iff {e : Event} {txn : LedgerTransaction} {W : Ledger} :
    postable uuid5 chart client e = some (txn, W) ↔ e.type ∈ handledEventTypes ∧
      mapEvent uuid5 client e = .ok (some txn) ∧ txn.writes chart = .ok W := by
  unfold postable
  by_cases htype : e.type ∈ handledEventTypes
  · simp only [htype, not_true_eq_false, if_false, true_and]
    cases hmap : mapEvent uuid5 client e with
    | error err => simp
    | ok r =>
        cases r with
        | none => simp
        | some t =>
            cases hw : t.writes chart with
            | error err =>
                simp only [hw, reduceCtorEq, Except.ok.injEq, Option.some.injEq, false_iff,
                  not_and]
                rintro rfl
                simp [hw]
            | ok V =>
                simp only [hw, Option.some.injEq, Prod.mk.injEq, Except.ok.injEq]
                constructor
                · rintro ⟨rfl, rfl⟩
                  exact ⟨rfl, hw⟩
                · rintro ⟨rfl, h⟩
                  rw [hw] at h
                  exact ⟨rfl, Except.ok.inj h⟩
  · simp [htype]

/-- A transaction whose rows are stored names existing accounts only. -/
lemma LedgerTransaction.unknownAccount_eq_none {txn : LedgerTransaction} {W : Ledger}
    (h : txn.writes chart = .ok W) : txn.unknownAccount chart = none := by
  obtain ⟨-, rows, hrows, -⟩ := LedgerTransaction.writes_ok_iff.mp h
  refine List.find?_eq_none.mpr fun name hname => ?_
  simp only [LedgerTransaction.accountNames, List.mem_reverse, List.mem_dedup,
    List.mem_map] at hname
  obtain ⟨e, he, rfl⟩ := hname
  obtain ⟨r, -, hr⟩ := mem_mapM_row hrows he
  obtain ⟨-, -, a, ha, -⟩ := Entry.row_ok_iff.mp hr
  simp [ha]

lemma finish_ledger (db : Db) (e : Event) (status : Status) (answer : Handled) :
    (finish db e status answer).2.ledger = db.ledger := by
  unfold finish
  split <;> rfl

/-- What the handler makes of posting a transaction. -/
lemma post_cases {L : Ledger} (hL : L.RowsAdmitted chart) (txn : LedgerTransaction) :
    (∃ W, txn.writes chart = .ok W ∧ L.conflict txn.row = none ∧
      postOutcome (attempt chart L txn none).1 = .ok .posted ∧
      (attempt chart L txn none).2 = L.append W) ∨
    (∃ c, L.conflict txn.row = some c ∧ postOutcome (attempt chart L txn none).1 = .ok .duplicate ∧
      (attempt chart L txn none).2 = L) ∨
    ∃ err, postOutcome (attempt chart L txn none).1 = .error err ∧
      (attempt chart L txn none).2 = L ∧ ∀ W, txn.writes chart ≠ .ok W := by
  by_cases href : txn.unknownAccount chart = none ∧ txn.row.Storable
  swap
  · obtain ⟨e, hattempt, he⟩ := attempt_refused L fun hname hrow => href ⟨hname, hrow⟩
    refine .inr (.inr ⟨e, ?_, by rw [hattempt], fun W hW => href
      ⟨LedgerTransaction.unknownAccount_eq_none hW, LedgerTransaction.storable_of_writes hW⟩⟩)
    rw [hattempt]
    rcases he with ⟨name, rfl⟩ | rfl
    · unfold lookupError
      split_ifs <;> rfl
    · rfl
  rw [attempt_eq hL href.1 href.2]
  cases hc : L.conflict txn.row with
  | some c =>
      refine .inr (.inl ⟨c, rfl, ?_, ?_⟩)
      · rcases Ledger.conflict_cases hc with ⟨rfl, -⟩ | ⟨rfl, -⟩ | ⟨rfl, -⟩ <;> rfl
      · dsimp only
        split_ifs <;> rfl
  | none =>
      cases hw : txn.writes chart with
      | ok W => exact .inl ⟨W, rfl, rfl, rfl, rfl⟩
      | error err =>
          refine .inr (.inr ⟨err, ?_, rfl, by simp⟩)
          have hne := LedgerTransaction.writes_error_ne hw
          cases err with
          | pg err =>
              cases err with
              | uniqueViolation c => exact absurd rfl (hne c)
              | _ => rfl
          | _ => rfl

/-- **The handler's effect on the ledger.** -/
lemma handleEvent_ledger {db : Db} (hL : db.ledger.RowsAdmitted chart) (e : Event) :
    (handleEvent uuid5 chart client db e).2.ledger =
      match postable uuid5 chart client e with
      | some (txn, W) =>
          if db.ledger.conflict txn.row = none then db.ledger.append W else db.ledger
      | none => db.ledger := by
  unfold handleEvent postable
  by_cases htype : e.type ∈ handledEventTypes
  · simp only [htype, not_true_eq_false, if_false]
    cases hmap : mapEvent uuid5 client e with
    | error err => rfl
    | ok r =>
        cases r with
        | none => exact finish_ledger _ _ _ _
        | some txn =>
            obtain ⟨hout, hled⟩ := postTransaction_no_faults chart db.ledger txn 5
            simp only [hout, hled]
            rcases post_cases hL txn with ⟨W, hW, hc, ho, hl⟩ | ⟨c, hc, ho, hl⟩ | ⟨err, ho, hl, hno⟩
            · simp [ho, hl, hW, hc, finish_ledger]
            · simp only [ho, hl, finish_ledger]
              cases txn.writes chart <;> simp [hc]
            · simp only [ho, hl]
              cases hW : txn.writes chart with
              | ok W => exact absurd hW (hno W)
              | error err' => rfl
  · simp [htype, finish_ledger]

/-- The status write of a posted event can only fail on a payload that the column does not take. -/
lemma finish_ok {db : Db} {e : Event} {txn : LedgerTransaction} {W : Ledger}
    (hpost : postable uuid5 chart client e = some (txn, W))
    (hpayload : db.log.hasId e.id = true ∨ nulFree e.payload = true) (L : Ledger) (status : Status)
    (answer : Handled) : (finish ⟨L, db.log⟩ e status answer).1 = .ok answer := by
  obtain ⟨-, hmap, hW⟩ := postable_eq_some_iff.mp hpost
  obtain ⟨-, hev, -, hobj⟩ := mapEvent_identity hmap
  have hid : ¬¬NulFree e.id := not_not.mpr <| LedgerTransaction.storable_of_writes hW e.id <|
    TransactionRow.mem_texts.mpr (.inl hev)
  -- the status write computes the object id the mapping has already computed
  unfold finish markStatus
  rw [if_neg hid, hobj]
  by_cases hlog : db.log.hasId e.id = true
  · simp [hlog]
  · simp [hlog, hpayload.resolve_left hlog, pure, Except.pure]

/-- A handler that raises had nothing to post, unless it was the row of the event that could not be
added. -/
lemma handleEvent_error {db : Db} (hL : db.ledger.RowsAdmitted chart) {e : Event} {err : Exn}
    (hpayload : db.log.hasId e.id = true ∨ nulFree e.payload = true)
    (h : (handleEvent uuid5 chart client db e).1 = .error err) :
    postable uuid5 chart client e = none := by
  by_contra hsome
  obtain ⟨⟨txn, W⟩, hpost⟩ := Option.ne_none_iff_exists'.mp hsome
  obtain ⟨htype, hmap, hW⟩ := postable_eq_some_iff.mp hpost
  have hfinish : ∀ L status answer, (finish ⟨L, db.log⟩ e status answer).1 = .ok answer :=
    finish_ok hpost hpayload
  unfold handleEvent at h
  obtain ⟨hout, hled⟩ := postTransaction_no_faults chart db.ledger txn 5
  simp only [htype, not_true_eq_false, if_false, hmap, hout, hled] at h
  rcases post_cases hL txn with ⟨_, -, -, ho, -⟩ | ⟨_, -, ho, -⟩ | ⟨_, -, -, hno⟩
  · simp [ho, hfinish] at h
  · simp [ho, hfinish] at h
  · exact hno W hW

end

end LedgerProof
