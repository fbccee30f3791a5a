import LedgerProof.Harness.Faults

/-!
# Scenarios

`harness/scenarios.py`: `generate` crosses faults with event kinds, draws fixtures of fresh sequence
numbers and seeded amounts, and records what each scenario should come to.  Pairs that could not
fail are skipped and recorded as such.

`Random` is what is used of `random.Random`: a state made from a seed, and a number from a range.
The clock is read for every fixture and for every plan.

`Scenario.Generated` is what a generated scenario is made of, and `generated_of_mem` that `generate`
returns no other.
-/

namespace LedgerProof.Harness

/-- `random.Random`. -/
structure Random where
  State : Type
  ofSeed : ℤ → State
  randrange : State → ℤ → ℤ → ℤ × State
  randrange_mem : ∀ s start stop, start < stop →
    start ≤ (randrange s start stop).1 ∧ (randrange s start stop).1 < stop

/-- `_LABEL_SECRET`. -/
def labelSecret : String := "whsec_00000000000000000000000000000000"

/-- `ALL_KINDS`. -/
def allKinds : List EventKind :=
  [.chargeSucceeded, .chargeRefunded, .disputeCreated, .payoutPaid, .invoicePaymentFailed]

/-- The name of a kind. -/
def EventKind.name : EventKind → String
  | .chargeSucceeded => "charge_succeeded"
  | .chargeRefunded => "charge_refunded"
  | .disputeCreated => "dispute_created"
  | .payoutPaid => "payout_paid"
  | .invoicePaymentFailed => "invoice_payment_failed"

/-- `fault.value.lower()`. -/
def Fault.lower : Fault → String
  | .none => "none"
  | .duplicate => "duplicate"
  | .duplicateObject => "duplicate_object"
  | .concurrentDuplicate => "concurrent_duplicate"
  | .reorder => "reorder"
  | .delay => "delay"
  | .drop => "drop"
  | .respond500 => "respond_500"
  | .tamperBody => "tamper_body"
  | .truncateBody => "truncate_body"
  | .staleTimestamp => "stale_timestamp"
  | .downgradeScheme => "downgrade_scheme"
  | .partialWrite => "partial_write"
  | .slowLoris => "slow_loris"

/-- `DEFAULT_FAULTS`. -/
def defaultFaults : List Fault := .none :: allFaults

/-- `_NEEDS_MONEY`. -/
def needsMoney : Fault → Option String
  | .duplicate => some "dedupe is measured as exactly one transaction; a non-money event posts none"
  | .duplicateObject => some
      "the second dedupe key is measured as exactly one transaction; a non-money event posts none"
  | .concurrentDuplicate =>
      some "the race is over a ledger write that a non-money event never makes"
  | .reorder => some "order independence is measured by money posting regardless of arrival order"
  | .respond500 => some "retry safety is measured as exactly one transaction"
  | .partialWrite => some "there is no ledger transaction to kill mid-write"
  | .drop => some ("a dropped non-money event is CORRECTLY invisible to the reconciler (no " ++
      "transaction was ever due), so the fault's expectation that a break is reported would be " ++
      "false")
  | _ => .none

/-- `_FIXTURE_COUNT.get(fault, 1)`. -/
def fixtureCount : Fault → ℕ
  | .reorder => 2
  | _ => 1

/-- `_label`. -/
structure Label where
  fault : Fault
  params : Params
  eventIds : List String
  postedEventIds : List String
  rejectedEventIds : List String
  balancesDelta : Dict String ℤ
  kinds : List EventKind
  reconcilerShouldReportBreak : Bool
  notes : Notes

/-- One fault injected into one set of events. -/
structure Scenario where
  scenarioId : String
  fault : Fault
  params : Params
  fixtures : List EventFixture
  label : Label

/-- A combination that is not generated. -/
structure Skip where
  fault : Fault
  kind : EventKind
  reason : String
  deriving DecidableEq, Repr

/-- `ScenarioSet`. -/
structure ScenarioSet where
  scenarios : List Scenario
  skipped : List Skip

/-- `skip_reason`. -/
def skipReason (fault : Fault) (kind : EventKind) : Option String :=
  if kind = .invoicePaymentFailed then needsMoney fault else .none

/-- `_fee`. -/
def cardFee (amount : ℤ) : ℤ := 30 + amount * 29 / 1000

/-- What `generate` raises. -/
inductive GenerateError
  /-- `per_combo must be >= 1, got …`. -/
  | perCombo (n : ℤ)
  /-- `unknown event kinds: …; expected one of …`. -/
  | unknownKinds (kinds : List String)
  | builtin (err : PyError)
  | plan (err : PlanError)
  deriving DecidableEq, Repr

section

variable (R : Random)

/-- `_fixture`, at the time `created`. -/
def fixture (kind : EventKind) (seq created : ℤ) (rng : R.State) :
    Except PyError (EventFixture × R.State) :=
  let (amount, rng) := R.randrange rng 100 100000
  match kind with
  | .chargeSucceeded => (make kind seq created amount (cardFee amount) 0).map (·, rng)
  | .chargeRefunded =>
      let (refunded, rng) := R.randrange rng 1 (amount + 1)
      (make kind seq created amount 0 refunded).map (·, rng)
  | .disputeCreated => (make kind seq created amount 1500 0).map (·, rng)
  | .payoutPaid | .invoicePaymentFailed => (make kind seq created amount 0 0).map (·, rng)

/-- `_params`. -/
def paramsFor (fault : Fault) (index : ℕ) : Params :=
  match fault with
  | .duplicate => { Params.empty with n := some (2 + index % 3) }
  | .concurrentDuplicate => { Params.empty with n := some (if index % 2 = 0 then 8 else 4) }
  | .delay => { Params.empty with seconds := some 4, pastTolerance := some (index % 2 = 1) }
  | .staleTimestamp => { Params.empty with ageS := some (600 + 300 * (index % 2)) }
  | .partialWrite =>
      { Params.empty with
        killAfterS := some (if index % 3 = 0 then 15 / 100 else if index % 3 = 1 then 10 / 100
          else 5 / 100) }
  | .slowLoris => { Params.empty with holdS := some 2 }
  | _ => Params.empty

/-- `_label`. -/
def labelOf (fault : Fault) (params : Params) (fixtures : List EventFixture) (exp : Expectation) :
    Label where
  fault := fault
  params := params
  eventIds := fixtures.map (·.eventId)
  postedEventIds := exp.postedEventIds.sort
  rejectedEventIds := exp.rejectedEventIds.sort
  balancesDelta := exp.balancesDelta
  kinds := fixtures.map (·.kind)
  reconcilerShouldReportBreak := exp.reconcilerShouldReportBreak
  notes := exp.notes

/-- The local variables of `generate`, and how often the clock has been read. -/
structure Generation where
  rng : R.State
  seq : ℤ
  ticks : ℕ
  scenarios : List Scenario
  skipped : List Skip

variable (hmacHex : List UInt8 → List UInt8 → String) (clock : ℕ → ℤ)

/-- The fixtures of one scenario. -/
def drawFixtures (kind : EventKind) :
    ℕ → ℤ → R.State → ℕ → Except PyError (List EventFixture × R.State × ℕ)
  | 0, _, rng, ticks => .ok ([], rng, ticks)
  | count + 1, seq, rng, ticks => do
      let (fx, rng) ← fixture R kind seq (clock ticks) rng
      let (fxs, rng, ticks) ← drawFixtures kind count (seq + 1) rng (ticks + 1)
      return (fx :: fxs, rng, ticks)

/-- One turn of the innermost loop. -/
def generateOne (fault : Fault) (kind : EventKind) (g : Generation R) (index : ℕ) :
    Except GenerateError (Generation R) := do
  let count := fixtureCount fault
  let (fixtures, rng, ticks) ← (drawFixtures R clock kind count g.seq g.rng g.ticks).mapError
      .builtin
  let built ← (plan hmacHex fault fixtures labelSecret (paramsFor fault index)
      (clock ticks)).mapError .plan
  return { rng := rng
           seq := g.seq + count
           ticks := ticks + 1
           scenarios := g.scenarios ++
             [{ scenarioId :=
                  fault.lower ++ "-" ++ kind.name ++ "-" ++ String.ofList (padded 4 index)
                fault := fault
                params := built.params
                fixtures := fixtures
                label := labelOf fault built.params fixtures built.expectation }]
           skipped := g.skipped }

/-- One turn of the loop over faults and kinds. -/
def generateCombo (perCombo : ℤ) (g : Generation R) (combo : Fault × EventKind) :
    Except GenerateError (Generation R) :=
  match skipReason combo.1 combo.2 with
  | some reason => .ok { g with skipped := g.skipped ++ [⟨combo.1, combo.2, reason⟩] }
  | .none => (List.range perCombo.toNat).foldlM (generateOne R hmacHex clock combo.1 combo.2) g

/-- `generate`. -/
def generate (seed : ℤ) (faults : Option (List Fault)) (kinds : Option (List String))
    (perCombo startSeq : ℤ) :
    Except GenerateError ScenarioSet :=
  let chosenFaults := faults.getD defaultFaults
  let chosenKinds := kinds.getD (allKinds.map EventKind.name)
  let unknown := chosenKinds.filter (· ∉ allKinds.map EventKind.name)
  let known := chosenKinds.filterMap fun k => allKinds.find? (·.name = k)
  if perCombo < 1 then .error (.perCombo perCombo)
  else if unknown ≠ [] then .error (.unknownKinds unknown)
  else do
    let g ← (chosenFaults.product known).foldlM (generateCombo R hmacHex clock perCombo)
      ⟨R.ofSeed seed, startSeq, 0, [], []⟩
    return ⟨g.scenarios, g.skipped⟩

end

/-! ## What a generated scenario is made of -/

/-- The times at which a calendar has a year of four digits. -/
def Datable (t : ℤ) : Prop := 0 ≤ t ∧ t ≤ 253402300799

/-- Fixtures that the worker posts with the expected changes, and that no dedupe key confuses. -/
structure Fixtures (uuid5 : String → Uuid) (fxs : List EventFixture) : Prop where
  faithful : ∀ fx ∈ fxs, ∃ oid, fx.Faithful uuid5 fx.asEvent oid
  plain : ∀ fx ∈ fxs, PlainText 4306 fx.eventId
  apart : (fxs.map (·.asEvent)).Pairwise fun e e' => e.id ≠ e'.id ∧ movementKey e ≠ movementKey e'

/-- The scenario is a turn of `generate`'s innermost loop: fresh fixtures of one kind, and the
parameters of the plan that was made of them. -/
structure Scenario.Generated (hmacHex : List UInt8 → List UInt8 → String) (uuid5 : String → Uuid)
    (sc : Scenario) : Prop where
  fixtures : Fixtures uuid5 sc.fixtures
  count : sc.fixtures.length = fixtureCount sc.fault
  moves : sc.fault = .drop → ∀ fx ∈ sc.fixtures, fx.kind ≠ .invoicePaymentFailed
  planned : ∃ index now built, Datable now ∧
    plan hmacHex sc.fault sc.fixtures labelSecret (paramsFor sc.fault index) now = .ok built ∧
      sc.params = built.params

section

variable {R : Random} {hmacHex : List UInt8 → List UInt8 → String} {clock : ℕ → ℤ}
  {uuid5 : String → Uuid}

/-- **A drawn fixture is faithful**, under the ids of its sequence number. -/
lemma fixture_faithful {kind : EventKind} {seq created : ℤ} {rng rng' : R.State} {fx : EventFixture}
    (hcreated : Datable created) (h : fixture R kind seq created rng = .ok (fx, rng')) :
    ∃ tag, seqTag seq = .ok tag ∧ fx.eventId = "evt_" ++ tag ∧ fx.kind = kind ∧
      fx.asEvent.type = kind.eventType ∧ fx.Faithful uuid5 fx.asEvent (kind.objectTag ++ tag) := by
  obtain ⟨hlow, hhigh⟩ := R.randrange_mem rng 100 100000 (by norm_num)
  -- each kind passes on amounts of its own range
  have hmade : ∃ fee refunded, make kind seq created (R.randrange rng 100 100000).1 fee refunded =
      .ok fx ∧
      Moderate (R.randrange rng 100 100000).1 fee refunded created ∧
      (kind = .chargeSucceeded → fee ≤ (R.randrange rng 100 100000).1) ∧
      (kind = .chargeRefunded → 0 < refunded) := by
    have hmap : ∀ {x : Except PyError EventFixture} {rng₁ : R.State},
        x.map (·, rng₁) = .ok (fx, rng') → x = .ok fx := by
      intro x rng₁ hx
      cases x with
      | error err => cases hx
      | ok y =>
          obtain ⟨rfl, -⟩ := Prod.mk.inj (Except.ok.inj hx)
          rfl
    have hamount : 0 < (R.randrange rng 100 100000).1 ∧
        (R.randrange rng 100 100000).1 ≤ 1000000 := by omega
    cases kind with
    | chargeSucceeded =>
        refine ⟨cardFee (R.randrange rng 100 100000).1, 0, hmap h, ⟨hamount, ?_, by simp, hcreated⟩,
          fun _ => ?_, fun hkind => by cases hkind⟩
        · simp only [cardFee]
          omega
        · simp only [cardFee]
          omega
    | chargeRefunded =>
        obtain ⟨hlow', hhigh'⟩ := R.randrange_mem (R.randrange rng 100 100000).2 1
          ((R.randrange rng 100 100000).1 + 1) (by omega)
        refine ⟨0,
          (R.randrange (R.randrange rng 100 100000).2 1 ((R.randrange rng 100 100000).1 + 1)).1,
          hmap h, ⟨hamount, by simp, ?_, hcreated⟩, (fun hkind => by cases hkind), fun _ => ?_⟩
        · omega
        · omega
    | disputeCreated =>
        exact ⟨_, _, hmap h, ⟨hamount, by simp, by simp, hcreated⟩, (fun hkind => by cases hkind),
          fun hkind => by cases hkind⟩
    | payoutPaid =>
        exact ⟨_, _, hmap h, ⟨hamount, by simp, by simp, hcreated⟩, (fun hkind => by cases hkind),
          fun hkind => by cases hkind⟩
    | invoicePaymentFailed =>
        exact ⟨_, _, hmap h, ⟨hamount, by simp, by simp, hcreated⟩, (fun hkind => by cases hkind),
          fun hkind => by cases hkind⟩
  obtain ⟨fee, refunded, hmake, hmoderate, hfee, hrefunded⟩ := hmade
  obtain ⟨tag, e, htag, hid, hkind, htype, hfaithful⟩ :=
    make_faithful uuid5 hmake hmoderate hfee hrefunded
  obtain rfl : fx.asEvent = e := hfaithful.asEvent_eq
  exact ⟨tag, htag, hid, hkind, htype, hfaithful⟩

/-- The fixtures of one scenario, by their sequence numbers. -/
lemma drawFixtures_forall (uuid5 : String → Uuid) (hclock : ∀ k, Datable (clock k))
    {kind : EventKind} {count : ℕ} {seq : ℤ} {rng rng' : R.State} {ticks ticks' : ℕ}
    {fxs : List EventFixture}
    (h : drawFixtures R clock kind count seq rng ticks = .ok (fxs, rng', ticks')) :
    fxs.length = count ∧ ∀ (i : ℕ) (fx : EventFixture), fxs[i]? = some fx →
      ∃ tag, seqTag (seq + i) = .ok tag ∧ fx.eventId = "evt_" ++ tag ∧ fx.kind = kind ∧
        fx.asEvent.type = kind.eventType ∧
          fx.Faithful uuid5 fx.asEvent (kind.objectTag ++ tag) := by
  induction count generalizing seq rng rng' ticks ticks' fxs with
  | zero =>
      cases h
      simp
  | succ count ih =>
      obtain ⟨⟨fx, rng₁⟩, hfx, h⟩ := except_bind_eq_ok.mp h
      obtain ⟨⟨rest, rng₂, ticks₂⟩, hrest, h⟩ := except_bind_eq_ok.mp h
      obtain ⟨rfl, -⟩ := Prod.mk.inj (Except.ok.inj h)
      obtain ⟨hlength, hall⟩ := ih hrest
      refine ⟨by simp [hlength], fun i fx' hget => ?_⟩
      cases i with
      | zero =>
          obtain rfl : fx = fx' := by simpa using hget
          simpa using fixture_faithful (hclock ticks) hfx
      | succ i =>
          have hi := hall i fx' (by simpa using hget)
          rwa [show seq + 1 + (i : ℤ) = seq + ((i + 1 : ℕ) : ℤ) by push_cast; ring] at hi

/-- **The fixtures of one scenario are faithful and apart.** -/
lemma drawFixtures_fixtures (hclock : ∀ k, Datable (clock k)) {kind : EventKind} {count : ℕ}
    {seq : ℤ} {rng rng' : R.State} {ticks ticks' : ℕ} {fxs : List EventFixture}
    (h : drawFixtures R clock kind count seq rng ticks = .ok (fxs, rng', ticks')) :
    Fixtures uuid5 fxs := by
  obtain ⟨-, hall⟩ := drawFixtures_forall uuid5 hclock h
  refine ⟨fun fx hfx => ?_, fun fx hfx => ?_, ?_⟩
  · obtain ⟨i, hi⟩ := List.mem_iff_getElem?.mp hfx
    obtain ⟨tag, -, -, -, -, hfaithful⟩ := hall i fx hi
    exact ⟨_, hfaithful⟩
  · obtain ⟨i, hi⟩ := List.mem_iff_getElem?.mp hfx
    obtain ⟨tag, htag, hid, -⟩ := hall i fx hi
    rw [hid]
    exact PlainText.append (m := 4) (by decide) (plainText_seqTag htag)
  · rw [List.pairwise_map, List.pairwise_iff_getElem]
    intro i j hi hj hij
    obtain ⟨tag, htag, hid, -, htype, hfaithful⟩ := hall i _ (List.getElem?_eq_getElem hi)
    obtain ⟨tag', htag', hid', -, htype', hfaithful'⟩ := hall j _ (List.getElem?_eq_getElem hj)
    have hne : tag ≠ tag' := by
      rintro rfl
      have := seqTag_injective htag htag'
      omega
    constructor
    · rw [hfaithful.id_eq, hfaithful'.id_eq, hid, hid']
      exact fun heq => hne (String.append_right_inj _ |>.mp heq)
    · have hobj := hfaithful.object fxs[i].asEvent.id
      have hobj' := hfaithful'.object fxs[j].asEvent.id
      simp only [movementKey, hobj, hobj', ne_eq, MovementKey.object.injEq, not_and]
      exact fun _ heq => hne (String.append_right_inj _ |>.mp heq)

/-- One turn of the innermost loop adds a generated scenario. -/
lemma generateOne_generated (uuid5 : String → Uuid) (hclock : ∀ k, Datable (clock k))
    {fault : Fault} {kind : EventKind} (hskip : skipReason fault kind = .none) {g g' : Generation R}
    {index : ℕ} (h : generateOne R hmacHex clock fault kind g index = .ok g') :
    ∃ sc : Scenario, sc.Generated hmacHex uuid5 ∧ g'.scenarios = g.scenarios ++ [sc] := by
  unfold generateOne at h
  obtain ⟨⟨fxs, rng, ticks⟩, hdraw, h⟩ := except_bind_eq_ok.mp h
  obtain ⟨built, hbuilt, h⟩ := except_bind_eq_ok.mp h
  have hdraw := except_mapError_eq_ok.mp hdraw
  have hbuilt := except_mapError_eq_ok.mp hbuilt
  cases h
  obtain ⟨hlength, hall⟩ := drawFixtures_forall uuid5 hclock hdraw
  refine ⟨_, ⟨drawFixtures_fixtures hclock hdraw, hlength, ?_, index, _, built, hclock _, hbuilt,
    rfl⟩, rfl⟩
  rintro hdrop fx hfx
  obtain rfl : fault = .drop := hdrop
  obtain ⟨i, hi⟩ := List.mem_iff_getElem?.mp hfx
  obtain ⟨-, -, -, hkind, -⟩ := hall i fx hi
  rw [hkind]
  rintro rfl
  simp [skipReason, needsMoney] at hskip

/-- **Every scenario that `generate` returns is made this way.** -/
lemma generated_of_mem (hclock : ∀ k, Datable (clock k)) {seed : ℤ} {faults : Option (List Fault)}
    {kinds : Option (List String)} {perCombo startSeq : ℤ} {set : ScenarioSet}
    (h : generate R hmacHex clock seed faults kinds perCombo startSeq = .ok set) :
    ∀ sc ∈ set.scenarios, sc.Generated hmacHex uuid5 := by
  unfold generate at h
  dsimp only at h
  have hper : ¬perCombo < 1 := fun hlt => by simp [hlt] at h
  rw [if_neg hper] at h
  split at h
  · cases h
  obtain ⟨g, hg, h⟩ := except_bind_eq_ok.mp h
  cases h
  refine except_foldlM_inv
    (fun g : Generation R => ∀ sc ∈ g.scenarios, sc.Generated hmacHex uuid5) ?_ (by simp) hg
  rintro g₁ ⟨fault, kind⟩ g₂ - hinv hcombo
  unfold generateCombo at hcombo
  split at hcombo
  · cases hcombo
    exact hinv
  · rename_i hskip
    refine except_foldlM_inv (fun g : Generation R => ∀ sc ∈ g.scenarios,
      sc.Generated hmacHex uuid5) ?_
      hinv hcombo
    rintro g₃ index g₄ - hinv hone
    obtain ⟨sc, hsc, hscenarios⟩ := generateOne_generated uuid5 hclock hskip hone
    rw [hscenarios]
    intro sc' hmem
    rcases List.mem_append.mp hmem with hmem | hmem
    · exact hinv sc' hmem
    · rwa [List.mem_singleton.mp hmem]

end

end LedgerProof.Harness
