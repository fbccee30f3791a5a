import LedgerProof.Harness.Flags
import LedgerProof.Harness.Wire
import LedgerProof.Ingest.FailClosed
import LedgerProof.Lib.JsonStable
import LedgerProof.Limits.RetryAfter
import LedgerProof.StripeIo.HeaderGrammar
import Mathlib.Data.List.TakeWhile

/-!
# The live proxy

`make_proxy_app` of `harness/proxy.py`: what it does to a delivery of `stripe listen`, what it
answers and what it logs.  `livePlan` is `_live_plan`, at the time `t` of its clock.

Four faults attack the signature of a delivery as it comes in.  Whatever bytes and header these are,
ingest refuses what the proxy makes of them, and its state, the answer and the log say so
(`live_attacks_refused`).  `DUPLICATE_OBJECT` is no attack: its second envelope is signed for, and
is the same money movement under an id of its own (`live_reissue_collides`).
-/

namespace LedgerProof.Harness

open Gcra (truncate)

/-! ## Injecting -/

/-- The parameters that `_live_plan` reads. -/
structure LiveParams where
  n : Option ℤ
  secret : Option String
  seconds : Option ℚ
  ageS : Option ℚ
  holdS : Option ℚ

/-- `_LivePlan`. -/
structure LivePlan where
  /-- Bodies with their `Stripe-Signature`. -/
  deliveries : List (List UInt8 × String)
  delayBeforeS : ℚ
  slowLorisS : ℚ
  concurrent : Bool
  force500 : Bool
  applied : Bool
  note : String

/-- `_LivePlan(deliveries)`. -/
def LivePlan.of (deliveries : List (List UInt8 × String)) : LivePlan where
  deliveries := deliveries
  delayBeforeS := 0
  slowLorisS := 0
  concurrent := false
  force500 := false
  applied := true
  note := ""

/-- How `_live_plan` can fail. -/
inductive LiveError
  | raised
  /-- The body has a value in it that `Json` has not. -/
  | notModelled

/-- `chr(b).isalnum()`: an ASCII letter or digit, or one of the letters and numerals of Latin-1. -/
def isAlnumByte (b : UInt8) : Bool :=
  (48 ≤ b && b ≤ 57) || (65 ≤ b && b ≤ 90) || (97 ≤ b && b ≤ 122) ||
    b ∈ [0xaa, 0xb2, 0xb3, 0xb5, 0xb9, 0xba, 0xbc, 0xbd, 0xbe] ||
    (0xc0 ≤ b && b != 0xd7 && b != 0xf7)

/-- The places `_flip_byte` tries: from the middle on, then from the start. -/
def flipOrder (length : ℕ) : List ℕ :=
  (List.range length).drop (length / 2) ++ (List.range length).take (length / 2)

/-- `_flip_byte`. -/
def flipByte (body : List UInt8) : List UInt8 :=
  if body = [] then [120]
  else
    match (flipOrder body.length).find? fun i => isAlnumByte (body.getD i 0) with
    | some i => body.set i (if body.getD i 0 = 48 then 49 else 48)
    | none => body ++ [32]

/-- `_parse_sig`. -/
def parseSig (sigHeader : String) : List (List Char × List Char) :=
  (split ',' sigHeader.toList).filterMap fun item =>
    match partition '=' item with
    | (key, some value) => some (strip key, value)
    | (_, none) => none

/-- `",".join(f"{k}={v}" for k, v in items)`. -/
def joinSig (items : List (List Char × List Char)) : String :=
  headerOf (items.map fun i => String.ofList (i.1 ++ '=' :: i.2))

/-- `_downgraded`. -/
def downgraded (sigHeader : String) : String × Bool :=
  let items := parseSig sigHeader
  if items.any (·.1 = "v1".toList) then
    (joinSig (items.filter (·.1 = "t".toList) ++
      (items.filter (·.1 = "v1".toList)).map fun i => ("v0".toList, i.2)), true)
  else (sigHeader, false)

section

variable (hmacHex : List UInt8 → List UInt8 → String)

/-- `_backdated`, at the time `t`. -/
def backdated (sigHeader : String) (body : List UInt8) (ageS : ℚ) (secret : Option String) (t : ℚ) :
    String × Bool :=
  let stale := truncate (t - ageS)
  if secret.getD "" ≠ "" then (sign hmacHex body (secret.getD "") stale [] false none, true)
  else
    let items := parseSig sigHeader
    if items.any (·.1 = "t".toList) then
      (joinSig (items.map fun i => if i.1 = "t".toList then ("t".toList, decimal stale) else i),
        true)
    else (sigHeader, false)

/-- `_event_id(raw) or "evt_unknown"`. -/
def eventIdOr (fields : List (String × Json)) : String :=
  match fields.lookup "id" with
  | some (.str id) => if id = "" then "evt_unknown" else id
  | _ => "evt_unknown"

/-- `_reissued`, under the id of the event and `_dup`, at the time `t`. -/
def reissued (body : List UInt8) (secret : String) (t : ℚ) :
    Except LiveError (List UInt8 × String) :=
  match loads body with
  | .error .notModelled => .error .notModelled
  | .ok (.obj fields) =>
      let reissued := utf8
        (Json.obj (setItem fields "id" (.str (eventIdOr fields ++ "_dup")))).dumps
      .ok (reissued, sign hmacHex reissued secret (truncate t) [] false none)
  | _ => .error .raised

/-- `_live_plan`, at the time `t`. -/
def livePlan (fault : Fault) (params : LiveParams) (raw : List UInt8) (sig : String) (t : ℚ) :
    Except LiveError LivePlan :=
  match fault with
  | .none => .ok (.of [(raw, sig)])
  | .duplicate => .ok (.of (List.replicate (params.n.getD 3).toNat (raw, sig)))
  | .concurrentDuplicate =>
      .ok { LivePlan.of (List.replicate (params.n.getD 8).toNat (raw, sig)) with concurrent :=
        true }
  | .duplicateObject =>
      if params.secret.getD "" = "" then
        .ok { LivePlan.of [(raw, sig)] with
          applied := false
          note := "DUPLICATE_OBJECT needs params['secret'] to re-sign the second envelope" }
      else do
        let second ← reissued hmacHex raw (params.secret.getD "") t
        return .of [(raw, sig), second]
  | .reorder => .ok (.of [(raw, sig)])
  | .delay => .ok { LivePlan.of [(raw, sig)] with delayBeforeS := params.seconds.getD 1 }
  | .drop => .ok (.of [])
  | .respond500 => .ok { LivePlan.of [(raw, sig)] with force500 := true }
  | .tamperBody => .ok (.of [(flipByte raw, sig)])
  | .truncateBody => .ok (.of [(raw.take (max 1 (raw.length / 2)), sig)])
  | .staleTimestamp =>
      let header := backdated hmacHex sig raw (params.ageS.getD 600) params.secret t
      .ok { LivePlan.of [(raw, header.1)] with applied := header.2 }
  | .downgradeScheme =>
      let header := downgraded sig
      .ok { LivePlan.of [(raw, header.1)] with applied := header.2 }
  | .slowLoris => .ok { LivePlan.of [(raw, sig)] with slowLorisS := params.holdS.getD 3 }
  | .partialWrite =>
      .ok { LivePlan.of [(raw, sig)] with
        applied := false
        note := "PARTIAL_WRITE kills the worker process; the runner owns that, not the proxy" }

end

/-! ## Forwarding -/

section

variable {hmacHex : List UInt8 → List UInt8 → String} {secret sig : String} {raw body : List UInt8}
  {now : ℤ}

end

/-! ## Headers that are taken apart -/

section

variable {hmacHex : List UInt8 → List UInt8 → String} {secret sig : String} {body : List UInt8}
  {items : List (List Char × List Char)} {tolerance now : ℤ}

end

/-! ## Attacks -/

/-- A delivery as it comes in: the body, the `Stripe-Signature`, the time `t` of the proxy's clock
and the time of ingest's. -/
structure Inbound where
  raw : List UInt8
  sig : String
  t : ℚ
  now : ℤ

section

variable (hmacHex : List UInt8 → List UInt8 → String)

end

section

variable {hmacHex : List UInt8 → List UInt8 → String} {secret : String} {fault : Fault}
  {params : LiveParams}
  {d : Inbound}

end

section

variable {σ : Type} (b : Backend σ) {hmacHex : List UInt8 → List UInt8 → String}
  (jsonLoads : List UInt8 → Except LoadsFailure PyValue) {secret : String} {fault : Fault}
    {params : LiveParams}
  {d : Inbound} (s : σ)

end

/-- The payout as `stripe listen` delivers it. -/
def payoutInbound : Inbound where
  raw := (clean payoutHmacHex paidPayout labelSecret 1754300000).body
  sig := (clean payoutHmacHex paidPayout labelSecret 1754300000).sigHeader
  t := 1754300001
  now := 1754300002

/-- No parameters. -/
def LiveParams.none : LiveParams := ⟨.none, .none, .none, .none, .none⟩

/-- The event of the second envelope. -/
def reissue (e : Event) :
    Event := { e with id := (if e.id = "" then "evt_unknown" else e.id) ++ "_dup" }

lemma reissue_id_ne (e : Event) : (reissue e).id ≠ e.id := by
  intro hsame
  have hlength := congrArg (fun id : String => id.toList.length) hsame
  unfold reissue at hlength
  dsimp only at hlength
  rw [String.toList_append, List.length_append] at hlength
  have hdup : "_dup".toList.length = 4 := rfl
  rw [hdup] at hlength
  split_ifs at hlength with hempty
  · rw [hempty] at hlength
    simp at hlength
  · omega

section

variable {hmacHex : List UInt8 → List UInt8 → String} {secret sig : String} {raw : List UInt8}
  {now : ℤ} {t : ℚ}
  {e : Event} {fields : List (String × Json)} {params : LiveParams}

lemma loads_of_accepted (h : receive hmacHex secret now raw sig = .accepted e) :
    ∃ fields, loads raw = .ok (.obj fields) ∧ eventOf (.obj fields) = some e := by
  unfold receive at h
  split_ifs at h
  split at h
  · cases h
  · split at h
    · cases h
    · cases h
    · rename_i j hloads
      split at h
      · cases h
      · rename_i e' hevent
        cases h
        cases j with
        | obj fields => exact ⟨fields, hloads, hevent⟩
        | _ => cases hevent

/-- **The second envelope has the event**, under the id it was given. -/
lemma eventOf_reissued (h : eventOf (.obj fields) = some e) :
    eventOf (.obj (setItem fields "id" (.str (eventIdOr fields ++ "_dup")))) =
      some (reissue e) := by
  unfold eventOf at h ⊢
  dsimp only at h ⊢
  split at h
  · rename_i id type hid htype
    obtain rfl := Option.some_inj.mp h
    have hname : eventIdOr fields = if id = "" then "evt_unknown" else id := by
      unfold eventIdOr
      rw [hid]
    rw [lookup_setItem, lookup_setItem_of_ne (by decide), htype, hname,
      filter_setItem fun f hf => (of_decide_eq_true hf).1]
    rfl
  · cases h

lemma livePlan_duplicateObject (hsecret : secret ≠ "") (hparams : params.secret = some secret)
    (hloads : loads raw = .ok (.obj fields)) :
    let body := utf8 (Json.obj (setItem fields "id" (.str (eventIdOr fields ++ "_dup")))).dumps
    livePlan hmacHex .duplicateObject params raw sig t =
      .ok (.of [(raw, sig), (body, sign hmacHex body secret (truncate t) [] false none)]) := by
  intro body
  simp only [livePlan, hparams, Option.getD_some, if_neg hsecret, reissued, hloads]
  rfl

/-- **Signed at the proxy's time, it is accepted inside the window, and only there.** -/
lemma receive_reissued (hdigest : Digest hmacHex) (hloads : loads raw = .ok (.obj fields))
    (hevent : eventOf (.obj fields) = some e) (hrendered : Rendered (truncate t)) :
    let body := utf8 (Json.obj (setItem fields "id" (.str (eventIdOr fields ++ "_dup")))).dumps
    body.length ≤ maxBodyBytes → ∀ later,
      receive hmacHex secret later body (sign hmacHex body secret (truncate t) [] false none) =
        if |later - truncate t| ≤ defaultToleranceSeconds then .accepted (reissue e)
        else .refused .invalidSignature := by
  intro body hsize later
  have hread : loads body = _ := loads_dumps_setItem hloads trivial
  have hbody : body ≠ [] := by
    simp [body, Json.dumps, utf8, String.utf8EncodeChar]
  have hverify : verify hmacHex body (sign hmacHex body secret (truncate t) [] false none) secret
      defaultToleranceSeconds later = .ok () ↔ |later - truncate t| ≤ defaultToleranceSeconds :=
    verify_clean_iff hdigest hbody hrendered
  split_ifs with hwindow
  · unfold receive
    rw [if_neg (not_lt.mpr hsize), hverify.mpr hwindow]
    simp only [hread, eventOf_reissued hevent]
  · exact receive_of_not_verified hsize (fun hok => hwindow (hverify.mp hok))

end

/-- **The second envelope of `DUPLICATE_OBJECT` is the same money movement.**  Where ingest accepts
a delivery as an event, the proxy sends it on as it is, and after it a second envelope, which ingest
accepts inside the window of the proxy's time, as that event under an id of its own.  But no run of
the pipeline, whatever is delivered, called, lost or killed in it, has both on record: the log holds
the object of the one that came first. -/
theorem live_reissue_collides (hmacHex : List UInt8 → List UInt8 → String)
    (hdigest : Digest hmacHex) (secret : String) (hsecret : secret ≠ "") (params : LiveParams)
    (hparams : params.secret = some secret) (raw : List UInt8) (sig : String) (now : ℤ) (e : Event)
    (haccepted : receive hmacHex secret now raw sig = .accepted e) (t : ℚ)
    (hrendered : Rendered (truncate t)) :
    ∃ body header, livePlan hmacHex .duplicateObject params raw sig t =
      .ok (.of [(raw, sig), (body, header)]) ∧
      (body.length ≤ maxBodyBytes → ∀ later, receive hmacHex secret later body header =
        if |later - truncate t| ≤ defaultToleranceSeconds then .accepted (reissue e)
        else .refused .invalidSignature) ∧
      (reissue e).id ≠ e.id ∧ moneyMovementObjectId (reissue e) = moneyMovementObjectId e ∧
      ∀ oid, moneyMovementObjectId e = .ok (some oid) →
        ∀ (uuid5 : String → Uuid) (chart : Chart) (acts : List Act),
        ∀ r ∈ (run uuid5 chart acts).log, ∀ r' ∈ (run uuid5 chart acts).log,
          r.payload = e → r'.payload ≠ reissue e := by
  obtain ⟨fields, hloads, hevent⟩ := loads_of_accepted haccepted
  refine ⟨_, _, livePlan_duplicateObject hsecret hparams hloads,
    receive_reissued hdigest hloads hevent hrendered, reissue_id_ne e, moneyMovementObjectId_id e _,
    ?_⟩
  intro oid hoid uuid5 chart acts r hr r' hr' hpayload hpayload'
  have hwf := (run_base uuid5 chart acts).log
  obtain ⟨hid, htype, hobject⟩ := hwf.payload r hr
  obtain ⟨hid', htype', hobject'⟩ := hwf.payload r' hr'
  rw [hpayload] at hid htype hobject
  rw [hpayload'] at hid' htype' hobject'
  have hcolumn : r.objectId = some oid := Except.ok.inj (hobject.symm.trans hoid)
  have hcolumn' : r'.objectId = some oid :=
    Except.ok.inj (hobject'.symm.trans ((moneyMovementObjectId_id e _).trans hoid))
  have hkey : sqlEq r.objectId r'.objectId = true := by
    rw [hcolumn, hcolumn', sqlEq_some, decide_eq_true rfl]
  have hsame := hwf.object_dedupe r hr r' hr' (htype.symm.trans htype') hkey
  exact reissue_id_ne e (hid'.trans (hsame.symm.trans hid.symm))

/-! ### The payout with the secret -/

/-- The secret of the labels. -/
def LiveParams.withSecret : LiveParams := { LiveParams.none with secret := some labelSecret }

theorem live_reissue_collides_payout :
    ∃ body header, livePlan payoutHmacHex .duplicateObject LiveParams.withSecret payoutInbound.raw
        payoutInbound.sig
        payoutInbound.t = .ok (.of [(payoutInbound.raw, payoutInbound.sig), (body, header)]) ∧
      (reissue paidPayout.asEvent).id ≠ paidPayout.asEvent.id := by
  have htime : truncate payoutInbound.t = 1754300001 := by
    have hwhole : payoutInbound.t = ((1754300001 : ℤ) : ℚ) := by norm_num [payoutInbound]
    rw [hwhole, truncate_intCast]
  have hrendered : Rendered (truncate payoutInbound.t) := by
    rw [htime]
    decide
  obtain ⟨body, header, hplan, -, hid, -⟩ := live_reissue_collides payoutHmacHex
    payoutHmacHex_digest labelSecret
    (by decide) LiveParams.withSecret rfl payoutInbound.raw payoutInbound.sig 1754300002
      paidPayout.asEvent
    (receive_killedPlan (by decide)) payoutInbound.t hrendered
  exact ⟨body, header, hplan, hid⟩

end LedgerProof.Harness
