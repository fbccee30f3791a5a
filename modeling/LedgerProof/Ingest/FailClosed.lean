import LedgerProof.Ingest.Webhook
import LedgerProof.Lib.PyJsonAgree

/-!
# Every body the webhook can be sent

A correctly signed body may parse to any value Python has: with floats and lone surrogates, and with
anything at all where the code expects a dictionary.  `PyValue` is that value, and
`money_movement_object_id` and `webhook` are modelled here again on it, with the exceptions that
leave them.  On the values of `Json` it is the function of `StripeIo/Mapping.lean`
(`moneyMovementObjectId_toPy`), and what `receive` refuses the endpoint refuses, whatever reads the
body otherwise (`webhook_of_refused`) and with the reader of all values in particular.

The database and the queue are a `Backend`: healthy, so that every call returns, except that a row
must be one that the driver can write and the columns can hold.  Then the endpoint fails closed but
for three kinds of signed body (`webhook_fails_closed_iff`), the first of them its own slip:
`event.get("data", {}).get("object")` asks a `data` that is there for its `object`, whatever it is.
-/

namespace LedgerProof

/-- How `json.loads` fails: a `ValueError` of one kind or another, or too deep a nesting. -/
inductive LoadsFailure
  | valueError
  | recursionError
  deriving DecidableEq, Repr

/-- An exception that leaves the endpoint. -/
inductive Escaped
  | builtin (e : PyError)
  | recursionError
  /-- The driver cannot write a value, or a column cannot hold it. -/
  | dataError
  deriving DecidableEq, Repr

namespace PyValue

/-- `v.get(key, default)`. -/
def getD (v : PyValue) (key : String) (default : PyValue) : Except PyError PyValue :=
  match v with
  | .dict fields => .ok ((fields.lookup (pyStr key)).getD default)
  | _ => .error (.attributeError "get")

/-- `v.get(key)`. -/
def get (v : PyValue) (key : String) : Except PyError PyValue := v.getD key .none

/-- `v if isinstance(v, str) else None`. -/
def str? : PyValue → Option PyStr
  | .str s => some s
  | _ => Option.none

/-- `_newest_refund`. -/
def newestRefund (obj : PyValue) : Except PyError (Option PyValue) := do
  match ← obj.get "refunds" with
  | .dict refunds =>
      match ← (PyValue.dict refunds).get "data" with
      | .list (.dict refund :: _) => return some (.dict refund)
      | _ => return Option.none
  | _ => return Option.none

/-- The newest refund's id, for `charge.refunded` only. -/
def refundId (type : Option PyStr) (obj : PyValue) : Except PyError (Option PyStr) := do
  if type = some (pyStr "charge.refunded") then
    match ← obj.newestRefund with
    | some refund => return (← refund.get "id").str?
    | Option.none => return Option.none
  else return Option.none

/-- `money_movement_object_id`. -/
def moneyMovementObjectId (event : PyValue) : Except PyError (Option PyStr) := do
  let data ← event.getD "data" (.dict [])
  match ← data.get "object" with
  | .dict obj =>
      match ← (PyValue.dict obj).refundId (← event.get "type").str? with
      | some rid => return some rid
      | Option.none => return (← (PyValue.dict obj).get "id").str?
  | _ => return Option.none

/-- The check of the envelope: the `id` and the `type` of a dictionary that has both as text. -/
def envelope : PyValue → Option (PyStr × PyStr)
  | .dict fields =>
      match fields.lookup (pyStr "id"), fields.lookup (pyStr "type") with
      | some (.str id), some (.str type) => some (id, type)
      | _, _ => Option.none
  | _ => Option.none

/-- `data` is absent or a dictionary. -/
def DataReadable : PyValue → Prop
  | .dict fields =>
      match fields.lookup (pyStr "data") with
      | Option.none => True
      | some (.dict _) => True
      | some _ => False
  | _ => False

end PyValue

/-! ## The endpoint -/

/-- A healthy database and queue, with what they hold in `σ`. -/
structure Backend (σ : Type) where
  /-- The driver can write the row of an event and the columns can hold it. -/
  storable : PyValue → Bool
  /-- `INSERT INTO stripe_events`: nothing on a unique violation. -/
  insert : PyStr → PyStr → Option PyStr → PyValue → σ → Option σ
  /-- The row in the way: its id, its status and its payload. -/
  select : PyStr → PyStr → Option PyStr → σ → Option (PyStr × Status × PyValue)
  /-- `UPDATE stripe_events SET status = 'queued' …`. -/
  markQueued : PyStr → σ → σ
  enqueue : PyValue → σ → σ

namespace Backend

variable {σ : Type}

/-- What `check_and_record` returns: new, or the row in the way if it was found. -/
inductive Recorded
  | new
  | existing (row : Option (PyStr × Status × PyValue))

/-- `Deduper.check_and_record`. -/
def checkAndRecord (b : Backend σ) (id type : PyStr) (event : PyValue) (s : σ) :
    Except Escaped Recorded × σ :=
  match event.moneyMovementObjectId with
  | .error e => (.error (.builtin e), s)
  | .ok objectId =>
      if b.storable event = false then (.error .dataError, s)
      else
        match b.insert id type objectId event s with
        | some s => (.ok .new, s)
        | none => (.ok (.existing (b.select id type objectId s)), s)

/-- `webhook` after the checks: record the event, and enqueue it unless it is known to be done
with. -/
def record (b : Backend σ) (id type : PyStr) (event : PyValue) (s : σ) : Except Escaped Reply × σ :=
  match b.checkAndRecord id type event s with
  | (.error e, s) => (.error e, s)
  | (.ok .new, s) => (.ok Response.queued.reply, b.markQueued id (b.enqueue event s))
  | (.ok (.existing (some (id, status, payload))), s) =>
      if status.terminal then (.ok Response.duplicate.reply, s)
      else (.ok Response.queued.reply, b.markQueued id (b.enqueue payload s))
  | (.ok (.existing none), s) => (.ok Response.duplicate.reply, s)

variable (hmacHex : List UInt8 → List UInt8 → String)
  (jsonLoads : List UInt8 → Except LoadsFailure PyValue) (webhookSecret : String) (now : ℤ)

/-- `webhook`, at the time `now`. -/
def webhook (b : Backend σ) (raw : List UInt8) (sigHeader : String) (s : σ) :
    Except Escaped Reply × σ :=
  if maxBodyBytes < raw.length then (.ok Refusal.bodyTooLarge.reply, s)
  else
    match verify hmacHex raw sigHeader webhookSecret defaultToleranceSeconds now with
    | .error _ => (.ok Refusal.invalidSignature.reply, s)
    | .ok () =>
        match jsonLoads raw with
        | .error .valueError => (.ok Refusal.invalidJson.reply, s)
        | .error .recursionError => (.error .recursionError, s)
        | .ok event =>
            match event.envelope with
            | none => (.ok Refusal.notAnEvent.reply, s)
            | some (id, type) => b.record id type event s

/-- The body is of a size that is let through, and its signature is accepted. -/
def LetThrough (raw : List UInt8) (sigHeader : String) : Prop :=
  raw.length ≤ maxBodyBytes ∧
    verify hmacHex raw sigHeader webhookSecret defaultToleranceSeconds now = .ok ()

/-- It is let through, and it is an event. -/
def Delivers (raw : List UInt8) (sigHeader : String) : Prop :=
  LetThrough hmacHex webhookSecret now raw sigHeader ∧
    ∃ event, jsonLoads raw = .ok event ∧ event.envelope.isSome = true

/-- **Failing closed.**  No exception leaves the endpoint; what is not an event that is let through
is answered 400 and changes nothing; an event that is, is answered 200. -/
structure FailsClosed (b : Backend σ) (raw : List UInt8) (sigHeader : String) (s : σ) : Prop where
  replies : ∃ r, (b.webhook hmacHex jsonLoads webhookSecret now raw sigHeader s).1 = .ok r
  refuses : ¬Delivers hmacHex jsonLoads webhookSecret now raw sigHeader →
    ∃ r, b.webhook hmacHex jsonLoads webhookSecret now raw sigHeader s = (.ok r, s) ∧ r.status = 400
  accepts : Delivers hmacHex jsonLoads webhookSecret now raw sigHeader →
    ∃ r, (b.webhook hmacHex jsonLoads webhookSecret now raw sigHeader s).1 = .ok r ∧ r.status = 200

/-- The endpoint has an answer for the body, once it is let through. -/
def Handled (b : Backend σ) (raw : List UInt8) : Prop :=
  match jsonLoads raw with
  | .error .valueError => True
  | .error .recursionError => False
  | .ok event => event.envelope.isSome = true → event.DataReadable ∧ b.storable event = true

end Backend

/-! ## The object id -/

namespace PyValue

/-- The field of a dictionary, if it is one and has it. -/
def field? (v : PyValue) (key : String) : Option PyValue :=
  match v with
  | .dict fields => fields.lookup (pyStr key)
  | _ => Option.none

/-- The first item of a list, if it is one and has it. -/
def first? : PyValue → Option PyValue
  | .list (v :: _) => some v
  | _ => Option.none

/-- The text in a field. -/
def text? (v : PyValue) (key : String) : Option PyStr := (v.field? key).bind str?

/-- The id of the first refund that is listed on the object, for `charge.refunded` only. -/
def foundRefundId (type : Option PyStr) (obj : Option PyValue) : Option PyStr :=
  if type = some (pyStr "charge.refunded") then
    (((obj.bind (·.field? "refunds")).bind (·.field? "data")).bind first?).bind (·.text? "id")
  else Option.none

/-- What `money_movement_object_id` is to find: the id of the newest refund, else that of the
object; nothing where there is no text. -/
def foundId (event : PyValue) : Option PyStr :=
  (foundRefundId (event.text? "type") ((event.field? "data").bind (·.field? "object"))).or
    (((event.field? "data").bind (·.field? "object")).bind (·.text? "id"))

lemma get_dict (fields : List (PyStr × PyValue)) (key : String) :
    (PyValue.dict fields).get key = .ok (((PyValue.dict fields).field? key).getD .none) := rfl

/-- A field that is absent reads as `None`, which is no text. -/
lemma str?_getD (v : Option PyValue) : (v.getD .none).str? = v.bind str? := by
  cases v <;> rfl

/-- The refund that `_newest_refund` finds has the id of the first item of the list. -/
lemma newestRefund_dict (obj : List (PyStr × PyValue)) :
    ∃ refund, (PyValue.dict obj).newestRefund = .ok refund ∧
      (∀ v, refund = some v → ∃ fields, v = .dict fields) ∧
      refund.bind (·.text? "id") =
        ((((PyValue.dict obj).field? "refunds").bind (·.field? "data")).bind first?).bind
          (·.text? "id") := by
  have hnone : ∀ v, (Option.none : Option PyValue) = some v → ∃ fields,
      v = PyValue.dict fields := by
    simp
  unfold newestRefund
  rw [get_dict, except_ok_bind]
  cases (PyValue.dict obj).field? "refunds" with
  | none => exact ⟨_, rfl, hnone, rfl⟩
  | some refunds =>
      cases refunds with
      | dict refunds =>
          rw [Option.getD_some, Option.bind_some]
          dsimp only
          rw [get_dict, except_ok_bind]
          cases (PyValue.dict refunds).field? "data" with
          | none => exact ⟨_, rfl, hnone, rfl⟩
          | some data =>
              cases data with
              | list items =>
                  -- the first item counts only if it is a dictionary
                  cases items with
                  | nil => exact ⟨_, rfl, hnone, rfl⟩
                  | cons item rest =>
                      cases item with
                      | dict refund =>
                          exact ⟨_, rfl, fun v hv => ⟨refund, by simpa using hv.symm⟩, rfl⟩
                      | _ => exact ⟨_, rfl, hnone, rfl⟩
              | _ => exact ⟨_, rfl, hnone, rfl⟩
      | _ => exact ⟨_, rfl, hnone, rfl⟩

lemma refundId_dict (type : Option PyStr) (obj : List (PyStr × PyValue)) :
    (PyValue.dict obj).refundId type = .ok (foundRefundId type (some (.dict obj))) := by
  unfold refundId foundRefundId
  by_cases htype : type = some (pyStr "charge.refunded")
  · obtain ⟨refund, hrefund, hdict, hid⟩ := newestRefund_dict obj
    rw [if_pos htype, if_pos htype, hrefund, except_ok_bind, Option.bind_some, ← hid]
    cases refund with
    | none => rfl
    | some v =>
        obtain ⟨fields, rfl⟩ := hdict v rfl
        dsimp only
        rw [get_dict, except_ok_bind, str?_getD]
        rfl
  · rw [if_neg htype, if_neg htype]
    rfl

lemma no_id_of_not_dict {v : PyValue} (h : ∀ fields, v ≠ .dict fields) (type : Option PyStr) :
    foundRefundId type (some v) = Option.none ∧ v.text? "id" = Option.none := by
  have hfield : ∀ key, v.field? key = Option.none := fun key => by
    cases v with
    | dict fields => exact absurd rfl (h fields)
    | _ => rfl
  constructor
  · simp [foundRefundId, hfield]
  · simp [text?, hfield]

/-- **The object id** of an event whose `data` is absent or a dictionary. -/
lemma moneyMovementObjectId_of_readable {event : PyValue} (h : event.DataReadable) :
    event.moneyMovementObjectId = .ok event.foundId := by
  cases event with
  | dict fields =>
      have hdata : ∃ data, (PyValue.dict fields).getD "data" (.dict []) = .ok (.dict data) ∧
          ((PyValue.dict fields).field? "data").bind (·.field? "object") =
            (PyValue.dict data).field? "object" := by
        simp only [DataReadable] at h
        simp only [getD, field?]
        cases hlookup : fields.lookup (pyStr "data") with
        | none => exact ⟨[], rfl, rfl⟩
        | some v =>
            rw [hlookup] at h
            cases v with
            | dict data => exact ⟨data, rfl, rfl⟩
            | _ => exact h.elim
      obtain ⟨data, hgetD, hobj⟩ := hdata
      unfold moneyMovementObjectId foundId
      rw [hgetD, except_ok_bind, get_dict, except_ok_bind, hobj]
      cases (PyValue.dict data).field? "object" with
      | none => simp [foundRefundId, pure, Except.pure]
      | some obj =>
          rw [Option.getD_some, Option.bind_some]
          by_cases hobj : ∃ inner, obj = .dict inner
          · obtain ⟨inner, rfl⟩ := hobj
            dsimp only
            rw [get_dict, except_ok_bind, refundId_dict, except_ok_bind, get_dict, except_ok_bind,
              str?_getD, str?_getD, ← text?, ← text?]
            cases foundRefundId ((PyValue.dict fields).text? "type") (some (.dict inner)) <;> rfl
          · have hnot : ∀ inner, obj ≠ .dict inner := fun inner h => hobj ⟨inner, h⟩
            obtain ⟨hrefund, hid⟩ := no_id_of_not_dict hnot ((PyValue.dict fields).text? "type")
            rw [hrefund, hid]
            cases obj with
            | dict inner => exact absurd rfl (hnot inner)
            | _ => rfl
  | _ => exact h.elim

/-- A `data` that is there and no dictionary has no `get`. -/
lemma moneyMovementObjectId_of_not_readable {fields : List (PyStr × PyValue)}
    (h : ¬(PyValue.dict fields).DataReadable) :
    (PyValue.dict fields).moneyMovementObjectId = .error (.attributeError "get") := by
  unfold moneyMovementObjectId getD
  dsimp only
  rw [except_ok_bind]
  simp only [DataReadable] at h
  cases hlookup : fields.lookup (pyStr "data") with
  | none => exact absurd (by rw [hlookup]; trivial) h
  | some v =>
      rw [hlookup] at h
      cases v with
      | dict data => exact absurd trivial h
      | _ => rfl

end PyValue

namespace Backend

variable {σ : Type} {b : Backend σ} {s : σ}

/-! ## What the endpoint answers -/

/-- An event that the endpoint can read and the database can hold is answered 200. -/
lemma record_of_readable {id type : PyStr} {event : PyValue} (hdata : event.DataReadable)
    (hstore : b.storable event = true) :
    ∃ r, (b.record id type event s).1 = .ok r ∧ r.status = 200 := by
  unfold record checkAndRecord
  rw [PyValue.moneyMovementObjectId_of_readable hdata]
  simp only [hstore, Bool.true_eq_false, if_false]
  cases b.insert id type event.foundId event s with
  | some s => exact ⟨_, rfl, rfl⟩
  | none =>
      cases b.select id type event.foundId s with
      | none => exact ⟨_, rfl, rfl⟩
      | some row =>
          dsimp only
          split
          · exact ⟨_, rfl, rfl⟩
          · exact ⟨_, rfl, rfl⟩

lemma record_of_not_readable {id type : PyStr} {event : PyValue}
    (henvelope : event.envelope = some (id, type))
    (h : ¬(event.DataReadable ∧ b.storable event = true)) :
    ∃ e, (b.record id type event s).1 = .error e := by
  unfold record checkAndRecord
  by_cases hdata : event.DataReadable
  · have hstore : b.storable event = false := by simpa [hdata] using h
    rw [PyValue.moneyMovementObjectId_of_readable hdata]
    simp only [hstore, if_true]
    exact ⟨_, rfl⟩
  · cases event with
    | dict fields =>
        rw [PyValue.moneyMovementObjectId_of_not_readable hdata]
        exact ⟨_, rfl⟩
    | _ => simp [PyValue.envelope] at henvelope

variable {hmacHex : List UInt8 → List UInt8 → String}
  {jsonLoads : List UInt8 → Except LoadsFailure PyValue} {webhookSecret : String} {now : ℤ}
  {raw : List UInt8} {sigHeader : String}

lemma webhook_of_not_let_through (h : ¬LetThrough hmacHex webhookSecret now raw sigHeader) :
    ∃ r, b.webhook hmacHex jsonLoads webhookSecret now raw sigHeader s = (.ok r, s) ∧
      r.status = 400 := by
  unfold webhook
  by_cases hsize : maxBodyBytes < raw.length
  · rw [if_pos hsize]
    exact ⟨_, rfl, rfl⟩
  · rw [if_neg hsize]
    cases hverify : verify hmacHex raw sigHeader webhookSecret defaultToleranceSeconds now with
    | error e => exact ⟨_, rfl, rfl⟩
    | ok u => exact absurd ⟨not_lt.mp hsize, hverify⟩ h

lemma webhook_of_let_through (h : LetThrough hmacHex webhookSecret now raw sigHeader) :
    b.webhook hmacHex jsonLoads webhookSecret now raw sigHeader s =
      match jsonLoads raw with
      | .error .valueError => (.ok Refusal.invalidJson.reply, s)
      | .error .recursionError => (.error .recursionError, s)
      | .ok event =>
          match event.envelope with
          | none => (.ok Refusal.notAnEvent.reply, s)
          | some (id, type) => b.record id type event s := by
  unfold webhook
  rw [if_neg (not_lt.mpr h.1), h.2]

/-- A request that is answered 400 and changes nothing, and that is no event let through. -/
lemma FailsClosed.of_refused
    (h : ∃ r, b.webhook hmacHex jsonLoads webhookSecret now raw sigHeader s = (.ok r, s) ∧
      r.status = 400)
    (hnot : ¬Delivers hmacHex jsonLoads webhookSecret now raw sigHeader) :
    FailsClosed hmacHex jsonLoads webhookSecret now b raw sigHeader s := by
  refine ⟨?_, fun _ => h, fun hdelivers => absurd hdelivers hnot⟩
  obtain ⟨r, hr, -⟩ := h
  exact ⟨r, by rw [hr]⟩

lemma failsClosed_of_let_through (h : LetThrough hmacHex webhookSecret now raw sigHeader) :
    FailsClosed hmacHex jsonLoads webhookSecret now b raw sigHeader s ↔
      b.Handled jsonLoads raw := by
  have hwebhook : b.webhook hmacHex jsonLoads webhookSecret now raw sigHeader s = _ :=
    webhook_of_let_through h
  unfold Handled
  cases hloads : jsonLoads raw with
  | error e =>
      have hnot : ¬Delivers hmacHex jsonLoads webhookSecret now raw sigHeader := by
        rintro ⟨-, event, hevent, -⟩
        rw [hloads] at hevent
        simp at hevent
      rw [hloads] at hwebhook
      cases e with
      | valueError =>
          exact iff_of_true (.of_refused ⟨_, hwebhook, rfl⟩ hnot) trivial
      | recursionError =>
          refine iff_of_false (fun hclosed => ?_) not_false
          obtain ⟨r, hr⟩ := hclosed.replies
          rw [hwebhook] at hr
          simp at hr
  | ok event =>
      rw [hloads] at hwebhook
      dsimp only at hwebhook ⊢
      cases henvelope : event.envelope with
      | none =>
          have hnot : ¬Delivers hmacHex jsonLoads webhookSecret now raw sigHeader := by
            rintro ⟨-, event', hevent, hsome⟩
            rw [hloads, Except.ok.injEq] at hevent
            rw [← hevent, henvelope] at hsome
            simp at hsome
          rw [henvelope] at hwebhook
          exact iff_of_true (.of_refused ⟨_, hwebhook, rfl⟩ hnot) (by simp)
      | some ids =>
          obtain ⟨id, type⟩ := ids
          have hdelivers : Delivers hmacHex jsonLoads webhookSecret now raw sigHeader :=
            ⟨h, event, hloads, by rw [henvelope]; rfl⟩
          rw [henvelope] at hwebhook
          dsimp only at hwebhook
          simp only [Option.isSome_some, true_implies]
          constructor
          · intro hclosed
            by_contra hnot
            obtain ⟨e, he⟩ := record_of_not_readable (s := s) henvelope hnot
            obtain ⟨r, hr⟩ := hclosed.replies
            rw [hwebhook, he] at hr
            simp at hr
          · rintro ⟨hdata, hstore⟩
            obtain ⟨r, hr, hstatus⟩ : ∃ r, (b.record id type event s).1 = .ok r ∧ r.status = 200 :=
              record_of_readable hdata hstore
            rw [← hwebhook] at hr
            exact ⟨⟨r, hr⟩, fun hnot => absurd hdelivers hnot, fun _ => ⟨r, hr, hstatus⟩⟩

end Backend

/-! ## The values of `Json` -/

lemma Json.lookup_toPyFields (fields : List (String × Json)) (key : String) :
    (Json.toPyFields fields).lookup (pyStr key) = (fields.lookup key).map Json.toPy := by
  induction fields with
  | nil => rfl
  | cons f fs ih =>
      obtain ⟨name, value⟩ := f
      rw [Json.toPyFields, Json.toPyField, List.lookup_cons, List.lookup_cons, ih]
      by_cases hname : key = name
      · simp [hname]
      · have hstr : pyStr key ≠ pyStr name := fun h => hname (pyStr_injective h)
        simp [beq_eq_false_iff_ne.mpr hname, beq_eq_false_iff_ne.mpr hstr]

lemma Json.getD_toPy (j : Json) (key : String) (d : Json) :
    j.toPy.getD key d.toPy = (j.getD key d).map Json.toPy := by
  cases j with
  | obj fields =>
      simp only [Json.toPy, PyValue.getD, Json.getD, Json.lookup_toPyFields, Except.map]
      cases fields.lookup key <;> rfl
  | _ => rfl

lemma Json.get_toPy (j : Json) (key : String) : j.toPy.get key = (j.get key).map Json.toPy :=
  j.getD_toPy key .null

lemma Json.str?_toPy (j : Json) : j.toPy.str? = j.str?.map pyStr := by
  cases j <;> rfl

lemma Json.newestRefund_toPy (j : Json) :
    j.toPy.newestRefund = (newestRefund j).map (Option.map Json.toPy) := by
  unfold PyValue.newestRefund newestRefund
  rw [Json.get_toPy]
  cases j.get "refunds" with
  | error e => rfl
  | ok refunds =>
      cases refunds with
      | obj fields =>
          have hdata := (Json.obj fields).get_toPy "data"
          rw [Json.toPy] at hdata
          simp only [Except.map, except_ok_bind, Json.toPy, hdata]
          cases (Json.obj fields).get "data" with
          | error e => rfl
          | ok data =>
              cases data with
              | arr items =>
                  cases items with
                  | nil => rfl
                  | cons item rest => cases item <;> rfl
              | _ => rfl
      | _ => rfl

lemma Json.refundId_toPy (type : String) (j : Json) :
    j.toPy.refundId (some (pyStr type)) = (refundId type j).map (Option.map pyStr) := by
  unfold PyValue.refundId refundId
  by_cases htype : type = "charge.refunded"
  · rw [if_pos (by rw [htype]), if_pos htype, Json.newestRefund_toPy]
    cases newestRefund j with
    | error e => rfl
    | ok refund =>
        cases refund with
        | none => rfl
        | some refund =>
            simp only [Except.map, except_ok_bind, Option.map_some, Json.get_toPy]
            cases refund.get "id" with
            | error e => rfl
            | ok v => simp [Json.str?_toPy, pure, Except.pure]
  · rw [if_neg (by simpa using pyStr_injective.ne htype), if_neg htype]
    rfl

/-- **On the values of `Json`** the object id is the one of the mapping. -/
lemma moneyMovementObjectId_toPy (e : Event) :
    e.payload.toPy.moneyMovementObjectId = (moneyMovementObjectId e).map (Option.map pyStr) := by
  unfold PyValue.moneyMovementObjectId moneyMovementObjectId
  have htype : e.payload.toPy.get "type" = .ok (.str (pyStr e.type)) := by
    rw [Json.get_toPy, Event.payload, Json.get, Json.getD]
    simp [List.lookup_cons, Except.map, Json.toPy]
  have hdata : e.payload.toPy.getD "data" (.dict []) = _ := e.payload.getD_toPy "data" (.obj [])
  rw [htype, hdata]
  cases e.payload.getD "data" (.obj []) with
  | error err => rfl
  | ok data =>
      simp only [Except.map, except_ok_bind, Json.get_toPy]
      cases data.get "object" with
      | error err => rfl
      | ok obj =>
          cases obj with
          | obj fields =>
              have hrefund := Json.refundId_toPy e.type (.obj fields)
              have hid := (Json.obj fields).get_toPy "id"
              have hstr : (PyValue.str (pyStr e.type)).str? = some (pyStr e.type) := rfl
              rw [Json.toPy] at hrefund hid
              simp only [except_ok_bind, Json.toPy, hstr, hrefund, hid]
              cases refundId e.type (.obj fields) with
              | error err => rfl
              | ok rid =>
                  cases rid with
                  | some rid => rfl
                  | none =>
                      cases (Json.obj fields).get "id" with
                      | error err => rfl
                      | ok v => simp [Except.map, Json.str?_toPy, pure, Except.pure]
          | _ => rfl

lemma Json.envelope_toPy (j : Json) :
    j.toPy.envelope = (eventOf j).map fun e => (pyStr e.id, pyStr e.type) := by
  cases j with
  | obj fields =>
      simp only [Json.toPy, PyValue.envelope, eventOf, Json.lookup_toPyFields]
      cases fields.lookup "id" with
      | none => rfl
      | some id =>
          cases fields.lookup "type" with
          | none => cases id <;> rfl
          | some type => cases id <;> cases type <;> rfl
  | _ => rfl

/-- **What `receive` refuses** is refused here in the same words, and changes nothing. -/
lemma Backend.webhook_of_refused {σ : Type} (b : Backend σ) {s : σ}
    {hmacHex : List UInt8 → List UInt8 → String}
    {jsonLoads : List UInt8 → Except LoadsFailure PyValue} {webhookSecret : String} {now : ℤ}
    {raw : List UInt8} {sigHeader : String} {r : Refusal}
    (hvalue : ∀ j, loads raw = .ok j → jsonLoads raw = .ok j.toPy)
    (hinvalid : loads raw = .error .invalid → jsonLoads raw = .error .valueError)
    (h : receive hmacHex webhookSecret now raw sigHeader = .refused r) :
    b.webhook hmacHex jsonLoads webhookSecret now raw sigHeader s = (.ok r.reply, s) := by
  unfold receive at h
  unfold webhook
  by_cases hsize : maxBodyBytes < raw.length
  · rw [if_pos hsize] at h ⊢
    obtain rfl : Refusal.bodyTooLarge = r := Received.refused.inj h
    rfl
  rw [if_neg hsize] at h ⊢
  cases hverify : verify hmacHex raw sigHeader webhookSecret defaultToleranceSeconds now with
  | error e =>
      rw [hverify] at h
      obtain rfl : Refusal.invalidSignature = r := Received.refused.inj h
      rfl
  | ok u =>
      rw [hverify] at h
      dsimp only at h ⊢
      cases hloads : loads raw with
      | error e =>
          cases e with
          | invalid =>
              rw [hloads] at h
              obtain rfl : Refusal.invalidJson = r := Received.refused.inj h
              rw [hinvalid hloads]
          | notModelled =>
              rw [hloads] at h
              simp at h
      | ok j =>
          rw [hloads] at h
          rw [hvalue j hloads]
          dsimp only at h ⊢
          rw [Json.envelope_toPy]
          cases hevent : eventOf j with
          | none =>
              rw [hevent] at h
              obtain rfl : Refusal.notAnEvent = r := Received.refused.inj h
              rfl
          | some e =>
              rw [hevent] at h
              simp at h

/-- `json.loads` of a body in UTF-8. -/
def pyLoads (read : PyJson.Number → BitVec 64) (raw : List UInt8) : Except LoadsFailure PyValue :=
  match PyJson.loads read raw with
  | some v => .ok v
  | none => .error .valueError

/-- With the reader of all values, too, what `receive` refuses is refused. -/
lemma Backend.webhook_pyLoads_of_refused {σ : Type} (b : Backend σ) {s : σ}
    {hmacHex : List UInt8 → List UInt8 → String} (read : PyJson.Number → BitVec 64)
    {webhookSecret : String} {now : ℤ} {raw : List UInt8} {sigHeader : String} {r : Refusal}
    (h : receive hmacHex webhookSecret now raw sigHeader = .refused r) :
    b.webhook hmacHex (pyLoads read) webhookSecret now raw sigHeader s = (.ok r.reply, s) := by
  refine b.webhook_of_refused (fun j hj => ?_) (fun hinvalid => ?_) h
  · rw [pyLoads, PyJson.loads_toPy read hj]
  · rw [pyLoads, PyJson.loads_invalid read hinvalid]

/-- **When the webhook fails closed.**  With a healthy database and queue, whatever the body, the
header and the state: it does unless the body is of a size that is let through, is correctly signed,
and either nests too deep to be parsed, or is an event whose `data` is there and no dictionary or
which the database cannot hold.  `money_movement_object_id` is total on exactly the other events,
and finds what it is to find. -/
theorem webhook_fails_closed_iff {σ : Type} (b : Backend σ)
    (hmacHex : List UInt8 → List UInt8 → String)
    (jsonLoads : List UInt8 → Except LoadsFailure PyValue) (webhookSecret : String) (now : ℤ) :
    (∀ raw sigHeader s, Backend.FailsClosed hmacHex jsonLoads webhookSecret now b raw sigHeader s ↔
      (Backend.LetThrough hmacHex webhookSecret now raw sigHeader → b.Handled jsonLoads raw)) ∧
    ∀ event : PyValue, event.envelope.isSome = true →
      ((∃ objectId, event.moneyMovementObjectId = .ok objectId) ↔ event.DataReadable) ∧
      (event.DataReadable → event.moneyMovementObjectId = .ok event.foundId) := by
  refine ⟨fun raw sigHeader s => ?_, fun event henvelope => ⟨⟨?_, ?_⟩, ?_⟩⟩
  · by_cases h : Backend.LetThrough hmacHex webhookSecret now raw sigHeader
    · rw [Backend.failsClosed_of_let_through h]
      exact ⟨fun hhandled _ => hhandled, fun hhandled => hhandled h⟩
    · exact iff_of_true
        (.of_refused (Backend.webhook_of_not_let_through h) fun hdelivers => h hdelivers.1)
        fun hthrough => absurd hthrough h
  · rintro ⟨objectId, hobjectId⟩
    by_contra hdata
    cases event with
    | dict fields =>
        rw [PyValue.moneyMovementObjectId_of_not_readable hdata] at hobjectId
        simp at hobjectId
    | _ => simp [PyValue.envelope] at henvelope
  · exact fun hdata => ⟨_, PyValue.moneyMovementObjectId_of_readable hdata⟩
  · exact PyValue.moneyMovementObjectId_of_readable

/-! ### A signed event whose `data` is null -/

/-- A row of `stripe_events`. -/
structure StoredRow where
  id : PyStr
  eventType : PyStr
  objectId : Option PyStr
  payload : PyValue
  status : Status

/-- The table, which takes whatever it is given, and the queue. -/
def tableBackend : Backend (List StoredRow × List PyValue) where
  storable _ := true
  insert id type objectId payload s :=
    if s.1.any fun r => r.id = id || (r.eventType = type && sqlEq r.objectId objectId) then none
    else some (s.1 ++ [⟨id, type, objectId, payload, .received⟩], s.2)
  select id type objectId s :=
    ((s.1.find? fun r => r.id = id).or
      (s.1.find? fun r => r.eventType = type && sqlEq r.objectId objectId)).map
        fun r => (r.id, r.status, r.payload)
  markQueued id s :=
    (s.1.map fun r => if r.id = id && r.status = .received then { r with status := .queued } else r,
      s.2)
  enqueue payload s := (s.1, s.2 ++ [payload])

/-- `json.loads` on the bodies that `loads` models. -/
def bodyLoads (raw : List UInt8) : Except LoadsFailure PyValue :=
  match loads raw with
  | .ok j => .ok j.toPy
  | .error _ => .error .valueError

/-- `{"id":"evt_1","type":"charge.succeeded","data":null}`. -/
def nullData : List (String × Json) :=
  [("id", .str "evt_1"), ("type", .str "charge.succeeded"), ("data", .null)]

/-- The value of HMAC-SHA256 for that body at 1754300000 under the sample secret. -/
def nullDataHmacHex (_ message : List UInt8) : String :=
  if message = signedBytes 1754300000 (utf8 (Json.obj nullData).dumps) then
    "db52320a5e8a3050ec22cd87376e1b40c6dbf26dbc2ba8e5ae5f5ebf32b80c42"
  else ""

/-- The header that `sign` makes for it. -/
def nullDataHeader : String :=
  sign nullDataHmacHex (utf8 (Json.obj nullData).dumps) sampleSecret 1754300000 [] false none

/-- A signed event whose `data` is null: `AttributeError` leaves the endpoint, instead of a
reply. -/
theorem null_data_escapes :
    Backend.LetThrough nullDataHmacHex sampleSecret 1754300100 (utf8 (Json.obj nullData).dumps)
        nullDataHeader ∧
      (tableBackend.webhook nullDataHmacHex bodyLoads sampleSecret 1754300100
        (utf8 (Json.obj nullData).dumps) nullDataHeader ([], [])).1 =
          .error (.builtin (.attributeError "get")) ∧
      ¬Backend.FailsClosed nullDataHmacHex bodyLoads sampleSecret 1754300100 tableBackend
        (utf8 (Json.obj nullData).dumps) nullDataHeader ([], []) := by
  have hthrough : Backend.LetThrough nullDataHmacHex sampleSecret 1754300100
      (utf8 (Json.obj nullData).dumps) nullDataHeader := ⟨by decide, by decide⟩
  have hloads : bodyLoads (utf8 (Json.obj nullData).dumps) = .ok (Json.obj nullData).toPy := by
    rw [bodyLoads, loads_dumps]
    simp [nullData, Json.Canonical, Json.CanonicalFields, Json.CanonicalField]
  have hescapes : (tableBackend.webhook nullDataHmacHex bodyLoads sampleSecret 1754300100
      (utf8 (Json.obj nullData).dumps) nullDataHeader ([], [])).1 =
        .error (.builtin (.attributeError "get")) := by
    rw [Backend.webhook_of_let_through hthrough, hloads]
    decide
  refine ⟨hthrough, hescapes, fun hclosed => ?_⟩
  obtain ⟨r, hr⟩ := hclosed.replies
  rw [hescapes] at hr
  simp at hr

end LedgerProof
