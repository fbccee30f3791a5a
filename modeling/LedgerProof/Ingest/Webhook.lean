import LedgerProof.Lib.JsonText
import LedgerProof.Pipeline.System
import LedgerProof.StripeIo.Signature

/-!
# The webhook endpoint before the database

The checks `webhook` of `ingest/app.py` makes on the raw request, in its order: the size of the
body, the signature over the raw bytes, the JSON, the envelope.  What passes is the event that the
requests of `Pipeline/System.lean` start from, and each check that fails has its own answer.

`Event` keeps the `id` and the `type` of an envelope apart from its other fields, so an event is the
dictionary less the order of these two (`eventOf`).
-/

namespace LedgerProof

/-- A response: its status code and its body. -/
structure Reply where
  status : ℕ
  body : String
  deriving DecidableEq, Repr

/-- `JSONResponse({key: text}, status_code=status)`. -/
def jsonResponse (key text : String) (status : ℕ) : Reply :=
  ⟨status, String.ofList (Json.obj [(key, .str text)]).dumps⟩

/-- The checks that refuse a request. -/
inductive Refusal
  | bodyTooLarge
  | invalidSignature
  | invalidJson
  | notAnEvent
  deriving DecidableEq, Repr

/-- What a refused request is told. -/
def Refusal.reply : Refusal → Reply
  | .bodyTooLarge => jsonResponse "error" "body too large" 400
  | .invalidSignature => jsonResponse "error" "invalid signature" 400
  | .invalidJson => jsonResponse "error" "invalid JSON body" 400
  | .notAnEvent => jsonResponse "error" "not an event" 400

/-- What an accepted request is told in the end.  A failed call of the database or the broker is a
500, with the endpoint's own body or the framework's. -/
def Response.reply : Response → Reply
  | .queued => jsonResponse "status" "queued" 200
  | .duplicate => jsonResponse "status" "duplicate" 200
  | .error => jsonResponse "error" "enqueue failed" 500

/-- The answer that a request has come to. -/
def RequestPc.response? : RequestPc → Option Response
  | .answered response => some response
  | _ => none

/-- `MAX_BODY_BYTES`. -/
def maxBodyBytes : ℕ := 512 * 1024

/-- `DEFAULT_TOLERANCE_SECONDS`. -/
def defaultToleranceSeconds : ℤ := 300

/-- A dictionary with a string `id` and a string `type`. -/
def eventOf : Json → Option Event
  | .obj fields =>
      match fields.lookup "id", fields.lookup "type" with
      | some (.str id), some (.str type) =>
          some ⟨id, type, fields.filter fun f => f.1 ≠ "id" ∧ f.1 ≠ "type"⟩
      | _, _ => none
  | _ => none

/-- What the checks come to. -/
inductive Received
  | refused (r : Refusal)
  | accepted (e : Event)
  /-- The body has a value in it that `Json` has not. -/
  | notModelled

/-- `webhook`, up to `check_and_record`, at the time `now`. -/
def receive (hmacHex : List UInt8 → List UInt8 → String) (webhookSecret : String) (now : ℤ)
    (raw : List UInt8) (sigHeader : String) : Received :=
  if maxBodyBytes < raw.length then .refused .bodyTooLarge
  else
    match verify hmacHex raw sigHeader webhookSecret defaultToleranceSeconds now with
    | .error _ => .refused .invalidSignature
    | .ok () =>
        match loads raw with
        | .error .invalid => .refused .invalidJson
        | .error .notModelled => .notModelled
        | .ok event =>
            match eventOf event with
            | none => .refused .notAnEvent
            | some e => .accepted e

variable {hmacHex : List UInt8 → List UInt8 → String} {webhookSecret : String} {now : ℤ}
  {raw : List UInt8} {sigHeader : String}

lemma receive_of_not_verified (hsize : raw.length ≤ maxBodyBytes)
    (h : verify hmacHex raw sigHeader webhookSecret defaultToleranceSeconds now ≠ .ok ()) :
    receive hmacHex webhookSecret now raw sigHeader = .refused .invalidSignature := by
  unfold receive
  rw [if_neg (not_lt.mpr hsize)]
  cases hverify : verify hmacHex raw sigHeader webhookSecret defaultToleranceSeconds now with
  | error err => rfl
  | ok u => exact absurd hverify h

/-- A signed event that `dumps` wrote is accepted as it was. -/
lemma receive_of_verified {fields : List (String × Json)} {e : Event}
    (hsize : (utf8 (Json.obj fields).dumps).length ≤ maxBodyBytes)
    (hverify : verify hmacHex (utf8 (Json.obj fields).dumps) sigHeader webhookSecret
      defaultToleranceSeconds now = .ok ())
    (hcanonical : (Json.obj fields).Canonical) (hevent : eventOf (.obj fields) = some e) :
    receive hmacHex webhookSecret now (utf8 (Json.obj fields).dumps) sigHeader = .accepted e := by
  unfold receive
  rw [if_neg (not_lt.mpr hsize), hverify]
  simp only [loads_dumps hcanonical, hevent]

end LedgerProof
