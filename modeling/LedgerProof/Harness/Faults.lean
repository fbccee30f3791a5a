import LedgerProof.Harness.Events
import Mathlib.Data.Finset.Sort

/-!
# Fault plans

`harness/faults.py`: `plan` turns a fault and some fixtures into the requests the proxy makes, byte
for byte, and into the `Expectation` that the ledger is held to afterwards.

Times are exact rationals.  The notes of an expectation keep the numbers that their texts show, and
the errors of `plan` the values that their messages show.

Four faults attack the signature and a delayed delivery may arrive too late; those five are refused
by the signature check (`receive_refused`), and every other delivery is accepted as its event
(`receive_clean`).
-/

namespace LedgerProof.Harness

/-! ## The taxonomy -/

/-- `Fault`. -/
inductive Fault
  | none
  | duplicate
  | duplicateObject
  | concurrentDuplicate
  | reorder
  | delay
  | drop
  | respond500
  | tamperBody
  | truncateBody
  | staleTimestamp
  | downgradeScheme
  | partialWrite
  | slowLoris
  deriving DecidableEq, Repr

/-- `ALL_FAULTS`. -/
def allFaults : List Fault :=
  [.duplicate, .duplicateObject, .concurrentDuplicate, .reorder, .delay, .drop, .respond500,
    .tamperBody, .truncateBody, .staleTimestamp, .downgradeScheme, .partialWrite, .slowLoris]

/-- `INVALID_SIGNATURE`. -/
def invalidSignature : String := "invalid signature"

/-- `_STALE_MARGIN_SECONDS`. -/
def staleMarginSeconds : ℤ := 60

/-! ## Plans -/

/-! The order in which `sorted` lists event ids. -/

instance eventId_trans : IsTrans String (· ≤ ·) := inferInstance

instance eventId_antisymm : Std.Antisymm fun a b : String => a ≤ b := inferInstance

instance eventId_total : Std.Total fun a b : String => a ≤ b := inferInstance

/-- A dictionary of parameters, by key. -/
structure Params where
  n : Option ℤ
  order : Option String
  seconds : Option ℚ
  pastTolerance : Option Bool
  ageS : Option ℤ
  killAfterS : Option ℚ
  holdS : Option ℚ
  twinEventId : Option String
  droppedEventIds : Option (List String)
  byteIndex : Option ℕ
  keptBytes : Option ℕ
  deriving DecidableEq, Repr

/-- The empty dictionary. -/
def Params.empty : Params :=
  ⟨.none, .none, .none, .none, .none, .none, .none, .none, .none, .none, .none⟩

/-- `{**p, **q}`. -/
def Params.merge (p q : Params) : Params where
  n := q.n.or p.n
  order := q.order.or p.order
  seconds := q.seconds.or p.seconds
  pastTolerance := q.pastTolerance.or p.pastTolerance
  ageS := q.ageS.or p.ageS
  killAfterS := q.killAfterS.or p.killAfterS
  holdS := q.holdS.or p.holdS
  twinEventId := q.twinEventId.or p.twinEventId
  droppedEventIds := q.droppedEventIds.or p.droppedEventIds
  byteIndex := q.byteIndex.or p.byteIndex
  keptBytes := q.keptBytes.or p.keptBytes

/-- `_DEFAULT_PARAMS`. -/
def defaultParams : Fault → Params
  | .duplicate => { Params.empty with n := some 3 }
  | .concurrentDuplicate => { Params.empty with n := some 8 }
  | .reorder => { Params.empty with order := some "reverse" }
  | .delay => { Params.empty with seconds := some 1, pastTolerance := some false }
  | .staleTimestamp => { Params.empty with ageS := some 600 }
  | .partialWrite => { Params.empty with killAfterS := some (15 / 100) }
  | .slowLoris => { Params.empty with holdS := some 3 }
  | .none | .duplicateObject | .drop | .respond500 | .tamperBody | .truncateBody
  | .downgradeScheme =>
      Params.empty

/-- One request of the proxy. -/
structure Delivery where
  body : List UInt8
  sigHeader : String
  eventId : String
  delayBeforeS : ℚ
  slowLorisS : ℚ
  expectRejected : Bool
  expectRejectionReason : Option String
  deriving DecidableEq, Repr

/-- The notes of an expectation, with the numbers that are formatted into them. -/
inductive Notes
  | baseline
  | parallel (n : ℤ)
  | serial (n : ℤ)
  | twin
  | reversed
  | heldTooLong (seconds : ℚ)
  | held (seconds : ℚ)
  | neverDelivered
  | retried
  | byteChanged
  | cutInHalf
  | backDated (ageS : ℤ)
  | downgrade
  | killed
  | dribbled (holdS : ℚ)
  deriving DecidableEq, Repr

/-- What the ledger must look like afterwards. -/
structure Expectation where
  postedEventIds : Finset String
  rejectedEventIds : Finset String
  balancesDelta : Dict String ℤ
  invariantAfter : Bool
  reconcilerShouldReportBreak : Bool
  notes : Notes

/-- Everything the proxy needs to inject one fault. -/
structure FaultPlan where
  fault : Fault
  params : Params
  deliveries : List Delivery
  concurrent : Bool
  force500 : Bool
  killWorkerAfterS : Option ℚ
  redeliverAfterKill : Bool
  expectation : Expectation

/-- What `plan` raises. -/
inductive PlanError
  /-- `KeyError`. -/
  | keyError (key : String)
  /-- `plan() needs at least one fixture`. -/
  | noFixture
  /-- `… needs n >= 2, got …`. -/
  | tooFew (fault : Fault) (n : ℤ)
  /-- `REORDER needs at least two fixtures`. -/
  | oneFixture
  /-- `unsupported REORDER order: …`. -/
  | unsupportedOrder (order : String)
  /-- `age_s=… is inside the 300s tolerance, …`. -/
  | insideTolerance (ageS : ℤ)
  /-- `no digit to flip; body is not a Stripe event body`. -/
  | noDigit
  deriving DecidableEq, Repr

/-- `effective[key]`. -/
def Params.fetch {α : Type} (key : String) : Option α → Except PlanError α
  | some value => .ok value
  | .none => .error (.keyError key)

lemma Params.fetch_eq_ok {α : Type} {key : String} {value? : Option α} {value : α} :
    Params.fetch key value? = .ok value ↔ value? = some value := by
  cases value? <;> simp [Params.fetch]

/-! ## Changing a body -/

/-- `bytes.find`. -/
def findBytes (pattern : List UInt8) : List UInt8 → Option ℕ
  | [] => if pattern = [] then some 0 else .none
  | b :: bs => if pattern <+: b :: bs then some 0 else (findBytes pattern bs).map (· + 1)

/-- `_DIGITS`. -/
def isDigitByte (b : UInt8) : Bool := 48 ≤ b.toNat && b.toNat < 58

/-- The next digit, with 0 after 9. -/
def nextDigit (b : UInt8) : UInt8 := UInt8.ofNat (48 + (b.toNat - 48 + 1) % 10)

/-- `_flip_one_byte`. -/
def flipOneByte (body : List UInt8) : Except PlanError (List UInt8 × ℕ) :=
  let start := (findBytes (utf8 "\"data\":".toList) body).getD 0
  match (body.drop start).findIdx? isDigitByte with
  | some i => .ok (body.modify (start + i) nextDigit, start + i)
  | .none => .error .noDigit

/-! ## Building a plan -/

/-- `_money`. -/
def money (fixtures : List EventFixture) : List EventFixture :=
  fixtures.filter fun fx => fx.expectedDelta.items ≠ []

/-- The event ids of some fixtures. -/
def eventIds (fixtures : List EventFixture) : Finset String := (fixtures.map (·.eventId)).toFinset

/-- `_sum_delta`. -/
def sumDelta (fixtures : List EventFixture) (posted : Finset String) : Dict String ℤ :=
  (fixtures.foldl (fun totals fx =>
    if fx.eventId ∈ posted then totals.tally Prod.fst Prod.snd fx.expectedDelta.items else totals)
    Dict.empty).filter (· ≠ 0)

section

variable (hmacHex : List UInt8 → List UInt8 → String)

/-- `_clean`, with the defaults of `Delivery`. -/
def clean (fx : EventFixture) (secret : String) (timestamp : ℤ) : Delivery where
  body := serialize fx.event
  sigHeader := sign hmacHex (serialize fx.event) secret timestamp [] false .none
  eventId := fx.eventId
  delayBeforeS := 0
  slowLorisS := 0
  expectRejected := false
  expectRejectionReason := .none

/-- A plan with the defaults of `FaultPlan` and `Expectation`. -/
def acceptedPlan (fault : Fault) (params : Params) (deliveries : List Delivery)
    (posted : Finset String) (balancesDelta : Dict String ℤ) (notes : Notes) : FaultPlan where
  fault := fault
  params := params
  deliveries := deliveries
  concurrent := false
  force500 := false
  killWorkerAfterS := .none
  redeliverAfterKill := true
  expectation :=
    { postedEventIds := posted
      rejectedEventIds := ∅
      balancesDelta := balancesDelta
      invariantAfter := true
      reconcilerShouldReportBreak := false
      notes := notes }

/-- `_rejected_plan`. -/
def rejectedPlan (fault : Fault) (fx : EventFixture) (params : Params) (body : List UInt8)
    (sigHeader : String) (notes : Notes) : FaultPlan where
  fault := fault
  params := params
  deliveries :=
    [{ body := body
       sigHeader := sigHeader
       eventId := fx.eventId
       delayBeforeS := 0
       slowLorisS := 0
       expectRejected := true
       expectRejectionReason := some invalidSignature }]
  concurrent := false
  force500 := false
  killWorkerAfterS := .none
  redeliverAfterKill := true
  expectation :=
    { postedEventIds := ∅
      rejectedEventIds := {fx.eventId}
      balancesDelta := .empty
      invariantAfter := true
      reconcilerShouldReportBreak := false
      notes := notes }

/-- The twin of DUPLICATE_OBJECT: the same event under another id. -/
def twin (target : EventFixture) :
    EventFixture := { target with eventId := target.eventId ++ "_dup" }

/-- `plan`, at the time `now`. -/
def plan (fault : Fault) (fixtures : List EventFixture) (secret : String) (params : Params)
    (now : ℤ) :
    Except PlanError FaultPlan := do
  let effective := (defaultParams fault).merge params
  match fixtures with
  | [] => throw .noFixture
  | target :: rest =>
      let targetPosted : Finset String := if target.expectedDelta.items ≠ [] then {target.eventId}
        else ∅
      let targetDelta := sumDelta fixtures targetPosted
      match fault with
      | .none =>
          let posted := eventIds (money fixtures)
          return acceptedPlan fault effective (fixtures.map fun fx => clean hmacHex fx secret now)
            posted
            (sumDelta fixtures posted) .baseline
      | .duplicate => do
          let n ← Params.fetch "n" effective.n
          if n < 2 then throw (.tooFew fault n)
          return acceptedPlan fault effective
            (List.replicate n.toNat (clean hmacHex target secret now)) targetPosted
            targetDelta (.serial n)
      | .concurrentDuplicate => do
          let n ← Params.fetch "n" effective.n
          if n < 2 then throw (.tooFew fault n)
          return { acceptedPlan fault effective
              (List.replicate n.toNat (clean hmacHex target secret now)) targetPosted targetDelta
              (.parallel n) with concurrent := true }
      | .duplicateObject =>
          return acceptedPlan fault { effective with twinEventId := some (twin target).eventId }
            [clean hmacHex target secret now, clean hmacHex (twin target) secret now] targetPosted
              targetDelta .twin
      | .reorder => do
          if rest = [] then throw .oneFixture
          let order ← Params.fetch "order" effective.order
          if order ≠ "reverse" then throw (.unsupportedOrder order)
          let posted := eventIds (money fixtures)
          return acceptedPlan fault effective (fixtures.reverse.map fun fx =>
            clean hmacHex fx secret now) posted
            (sumDelta fixtures posted) .reversed
      | .delay => do
          let seconds ← Params.fetch "seconds" effective.seconds
          let pastTolerance ← Params.fetch "past_tolerance" effective.pastTolerance
          let staleTs := now - (defaultToleranceSeconds + staleMarginSeconds)
          let delivery : Delivery :=
            { clean hmacHex target secret (if pastTolerance then staleTs else now) with
              delayBeforeS := seconds
              expectRejected := pastTolerance }
          let posted := if pastTolerance then ∅ else targetPosted
          let built := acceptedPlan fault effective [delivery] posted (sumDelta fixtures posted)
            (if pastTolerance then .heldTooLong seconds else .held seconds)
          return { built with
            expectation := { built.expectation with
              rejectedEventIds := if pastTolerance then {target.eventId} else ∅ } }
      | .drop =>
          let built := acceptedPlan fault
            { effective with droppedEventIds := some (fixtures.map (·.eventId)) }
              [] ∅ .empty .neverDelivered
          return { built with expectation := { built.expectation with reconcilerShouldReportBreak :=
            true } }
      | .respond500 =>
          let delivery := clean hmacHex target secret now
          return { acceptedPlan fault effective [delivery, delivery] targetPosted targetDelta
            .retried with force500 := true }
      | .tamperBody => do
          let body := serialize target.event
          let (tampered, index) ← flipOneByte body
          return rejectedPlan fault target { effective with byteIndex := some index } tampered
            (sign hmacHex body secret now [] false .none) .byteChanged
      | .truncateBody =>
          let body := serialize target.event
          let kept := body.length / 2
          return rejectedPlan fault target { effective with keptBytes := some kept }
            (body.take kept)
            (sign hmacHex body secret now [] false .none) .cutInHalf
      | .staleTimestamp => do
          let ageS ← Params.fetch "age_s" effective.ageS
          if ageS ≤ defaultToleranceSeconds then throw (.insideTolerance ageS)
          let body := serialize target.event
          return rejectedPlan fault target effective body
            (sign hmacHex body secret (now - ageS) [] false .none)
            (.backDated ageS)
      | .downgradeScheme =>
          let body := serialize target.event
          return rejectedPlan fault target effective body
            (sign hmacHex body secret now [] false (some ["v0"]))
            .downgrade
      | .partialWrite => do
          let killAfterS ← Params.fetch "kill_after_s" effective.killAfterS
          return { acceptedPlan fault effective [clean hmacHex target secret now] targetPosted
            targetDelta .killed with killWorkerAfterS := some killAfterS }
      | .slowLoris => do
          let holdS ← Params.fetch "hold_s" effective.holdS
          return acceptedPlan fault effective
            [{ clean hmacHex target secret now with slowLorisS := holdS }]
            targetPosted targetDelta (.dribbled holdS)

end

/-! ## What ingest makes of a delivery -/

/-- What the code relies on of HMAC-SHA256: the digest is text that a header can carry, and no two
messages share one under a key. -/
structure Digest (hmacHex : List UInt8 → List UInt8 → String) : Prop where
  text : DigestText hmacHex
  injective : ∀ key, Function.Injective (hmacHex key)

lemma isDigitByte_getElem_of_findIdx {body : List UInt8} {start i : ℕ}
    (h : (body.drop start).findIdx? isDigitByte = some i) :
    ∃ b, body[start + i]? = some b ∧ isDigitByte b = true := by
  obtain ⟨hi, hdigit, -⟩ := List.findIdx?_eq_some_iff_getElem.mp h
  refine ⟨(body.drop start)[i], ?_, hdigit⟩
  rw [← List.getElem?_drop]
  exact List.getElem?_eq_getElem hi

lemma nextDigit_ne {b : UInt8} (h : isDigitByte b = true) : nextDigit b ≠ b := by
  intro heq
  simp only [isDigitByte, Bool.and_eq_true, decide_eq_true_eq] at h
  have hnat := congrArg UInt8.toNat heq
  rw [nextDigit, UInt8.toNat_ofNat_of_lt' (by simp only [UInt8.size]; omega)] at hnat
  omega

/-- **A flipped body has the length of the body and is another one.** -/
lemma flipOneByte_eq_ok {body flipped : List UInt8} {index : ℕ}
    (h : flipOneByte body = .ok (flipped, index)) :
    flipped.length = body.length ∧ flipped ≠ body := by
  unfold flipOneByte at h
  dsimp only at h
  split at h
  · rename_i i hfound
    obtain ⟨b, hb, hdigit⟩ := isDigitByte_getElem_of_findIdx hfound
    obtain ⟨rfl, -⟩ := Prod.mk.inj (Except.ok.inj h)
    refine ⟨List.length_modify _ _ _, fun heq => nextDigit_ne hdigit ?_⟩
    have hget := congrArg (·[(findBytes (utf8 "\"data\":".toList) body).getD 0 + i]?) heq
    simp only [List.getElem?_modify, if_true, hb] at hget
    simpa using hget
  · cases h

/-- The first place is not after any other. -/
lemma findBytes_append (pattern a b : List UInt8) :
    ∃ k ≤ a.length, findBytes pattern (a ++ pattern ++ b) = some k := by
  induction a with
  | nil =>
      cases hbody : pattern ++ b with
      | nil =>
          obtain ⟨rfl, rfl⟩ := List.append_eq_nil_iff.mp hbody
          exact ⟨0, le_rfl, rfl⟩
      | cons c cs =>
          refine ⟨0, le_rfl, ?_⟩
          have hpre : pattern <+: c :: cs := hbody ▸ List.prefix_append pattern b
          rw [List.nil_append, hbody, findBytes, if_pos hpre]
  | cons c a ih =>
      obtain ⟨k, hk, hfind⟩ := ih
      rw [List.cons_append, List.cons_append, findBytes]
      split_ifs
      · exact ⟨0, Nat.zero_le _, rfl⟩
      · exact ⟨k + 1, Nat.succ_le_succ hk, by rw [hfind]; rfl⟩

/-- **A body with a digit after the data key can be flipped.** -/
lemma flipOneByte_total (a : List UInt8) {b : List UInt8} (h : ∃ d ∈ b, isDigitByte d = true) :
    ∃ flipped, flipOneByte (a ++ utf8 "\"data\":".toList ++ b) = .ok flipped := by
  obtain ⟨k, hk, hfind⟩ := findBytes_append (utf8 "\"data\":".toList) a b
  obtain ⟨d, hd, hdigit⟩ := h
  have hmem : d ∈ (a ++ utf8 "\"data\":".toList ++ b).drop k := by
    rw [List.append_assoc, List.drop_append_of_le_length hk]
    exact List.mem_append_right _ (List.mem_append_right _ hd)
  unfold flipOneByte
  rw [hfind, Option.getD_some]
  dsimp only
  cases hindex : ((a ++ utf8 "\"data\":".toList ++ b).drop k).findIdx? isDigitByte with
  | some i => exact ⟨_, rfl⟩
  | none => exact absurd hdigit (by simp [List.findIdx?_eq_none_iff.mp hindex d hmem])

section

variable {hmacHex : List UInt8 → List UInt8 → String} {uuid5 : String → Uuid} {fx : EventFixture}
  {e : Event}
  {oid secret : String} {now ts : ℤ}

lemma EventFixture.Faithful.length_serialize (hf : fx.Faithful uuid5 e oid) {id : String}
    (hid : PlainText 4310 id) :
    (serialize { fx with eventId := id }.event).length ≤ maxBodyBytes := by
  have hfits := (hf.brief id hid).fits.length_utf8
  have htokens := hf.tokens id
  refine hfits.trans ?_
  have hmax : maxBodyBytes = 524288 := rfl
  rw [hmax]
  omega

lemma serialize_ne_nil (fx : EventFixture) : serialize fx.event ≠ [] := by
  simp [serialize, EventFixture.event, Json.dumps, utf8, String.utf8EncodeChar]

/-- A signed body verifies exactly inside the window. -/
lemma verify_clean_iff (hdigest : Digest hmacHex) {body : List UInt8} (hbody : body ≠ [])
    (hts : (natDecimal ts.natAbs).length ≤ maxStrDigits) :
    verify hmacHex body (sign hmacHex body secret ts [] false .none) secret defaultToleranceSeconds
      now = .ok () ↔
      |now - ts| ≤ defaultToleranceSeconds := by
  rw [verify_sign_iff hdigest.text hts]
  refine ⟨fun h => h.2.2.1, fun h => ⟨by decide, hbody, h, ?_⟩⟩
  simp [signSchemes]

/-- A header made for another body, or too long ago, or without a v1 signature, does not verify. -/
lemma verify_attack (hdigest : Digest hmacHex) {body signed : List UInt8}
    {onlySchemes : Option (List String)} (hts : (natDecimal ts.natAbs).length ≤ maxStrDigits)
    (h : body ≠ signed ∨ defaultToleranceSeconds < |now - ts| ∨ onlySchemes = some ["v0"]) :
    verify hmacHex body (sign hmacHex signed secret ts [] false onlySchemes) secret
      defaultToleranceSeconds now ≠ .ok () := by
  intro hok
  obtain ⟨-, -, hwindow, hmem⟩ := (verify_sign_iff hdigest.text hts).mp hok
  rcases h with hne | hlate | rfl
  · obtain ⟨hmem, -⟩ := List.mem_filter.mp hmem
    have hsame : v1Digest hmacHex body secret ts = v1Digest hmacHex signed secret ts := by
      rcases List.mem_append.mp hmem with hmem | hmem
      · simpa using hmem
      · split_ifs at hmem
        · simp at hmem
        · simp at hmem
    exact hne (Prod.mk.inj (@signedBytes_injective (ts, body) (ts, signed)
      (hdigest.injective _ hsame))).2
  · exact absurd hwindow (not_le.mpr hlate)
  · have := (List.mem_filter.mp hmem).2
    simp at this

/-- **A clean delivery inside the window is accepted as its event**, under whatever id. -/
lemma receive_clean (hdigest : Digest hmacHex) (hf : fx.Faithful uuid5 e oid) {id : String}
    (hid : PlainText 4310 id) (hts : (natDecimal ts.natAbs).length ≤ maxStrDigits)
    (hnow : |now - ts| ≤ defaultToleranceSeconds) :
    receive hmacHex secret now (serialize { fx with eventId := id }.event)
      (sign hmacHex (serialize { fx with eventId := id }.event) secret ts [] false .none) =
        .accepted { e with id := id } :=
  receive_of_verified (hf.length_serialize hid)
    ((verify_clean_iff hdigest (serialize_ne_nil _) hts).mpr hnow)
    (hf.brief id hid).canonical (hf.read id)

lemma receive_refused (hdigest : Digest hmacHex) {body signed : List UInt8}
    {onlySchemes : Option (List String)} (hsize : body.length ≤ maxBodyBytes)
    (hts : (natDecimal ts.natAbs).length ≤ maxStrDigits)
    (h : body ≠ signed ∨ defaultToleranceSeconds < |now - ts| ∨ onlySchemes = some ["v0"]) :
    receive hmacHex secret now body (sign hmacHex signed secret ts [] false onlySchemes) =
      .refused .invalidSignature :=
  receive_of_not_verified hsize (verify_attack hdigest hts h)

end

end LedgerProof.Harness
