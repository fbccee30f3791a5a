import LedgerProof.Harness.Events

/-!
# The expected change and the mapping

The harness lists the entries of a fixture by hand, and the mapping digs its amounts out of the
payload.  `truthful_of_made` says that they agree for whatever numbers, ids and currencies a maker
is called with: zero entries are skipped on both sides, a fee above the amount is a negative one on
both, and no account is named twice, so nothing cancels.
-/

namespace LedgerProof.Harness

/-- The fixtures of the makers, with the id of the object that each of them is about. -/
inductive Made (created : ℤ) : EventFixture → String → Prop
  | charge (eventId chargeId : String) (amount fee : ℤ) (currency : String) :
      Made created (makeChargeSucceeded eventId chargeId amount fee created currency) chargeId
  | refund (eventId chargeId refundId : String) (amount refunded : ℤ) (currency : String) :
      Made created (makeChargeRefunded eventId chargeId refundId amount refunded created currency)
        refundId
  | dispute (eventId disputeId chargeId : String) (amount fee : ℤ) (currency : String) :
      Made created (makeDisputeCreated eventId disputeId chargeId amount fee created currency)
        disputeId
  | payout (eventId payoutId : String) (amount : ℤ) (currency : String) :
      Made created (makePayoutPaid eventId payoutId amount created currency) payoutId
  | invoice (eventId invoiceId : String) (amount : ℤ) (currency : String) :
      Made created (makeInvoicePaymentFailed eventId invoiceId amount created currency) invoiceId

/-- What entries come to on an account, by the rule of the `account_balances` view: an entry on the
normal side of a seeded account adds to it, one on the other side takes away. -/
def changeOf (entries : List Entry) (name : String) : ℤ :=
  match seedChart.find name with
  | some a => total (Entry.signedOn a) (entries.filter fun e => e.accountName = name)
  | none => 0

/-- What the two sides agree on: the mapping returns a transaction or nothing, the expected change
lists what its entries come to wherever that is not zero, and the object id is this one. -/
structure Truthful (uuid5 : String → Uuid) (fx : EventFixture) (oid : String) : Prop where
  expected : ∃ r, buildTransaction uuid5 fx.asEvent .null = .ok r ∧ ∀ name,
    fx.expectedDelta.get? name =
    if changeOf (r.elim [] LedgerTransaction.entries) name = 0 then none
    else some (changeOf (r.elim [] LedgerTransaction.entries) name)
  object : moneyMovementObjectId fx.asEvent = .ok (some oid)

/-! ## One leg an account -/

section

variable {m : Movement} {name : String}

lemma names_legs_nodup (m : Movement) : (m.legs.map (·.1)).Nodup := by
  cases m <;> simp [Movement.legs]

lemma getD_delta (m : Movement) (name : String) :
    (delta m.legs).getD name 0 =
      total (fun l => signedDelta l.1 l.2.1 l.2.2)
        ((m.legs.filter fun l => l.2.2 ≠ 0).filter fun l => l.1 = name) := by
  rw [delta, Dict.getD_tally, Dict.getD_empty, zero_add]

lemma getD_delta_ne_zero (h : name ∈ (delta m.legs).keys) : (delta m.legs).getD name 0 ≠ 0 := by
  rcases (Dict.mem_keys_tally _ _ _ _ _).mp h with h | ⟨l, hl, rfl⟩
  · simp [Dict.empty, Dict.keys] at h
  · have hnodup : ((m.legs.filter fun l => l.2.2 ≠ 0).map (·.1)).Nodup :=
      (names_legs_nodup m).sublist (List.filter_sublist.map _)
    rw [getD_delta, filter_key_eq_singleton hnodup hl, total_cons, total_nil, add_zero]
    exact signedDelta_ne_zero (by simpa using (List.mem_filter.mp hl).2)

lemma changeOf_nil (name : String) : changeOf [] name = 0 := by
  unfold changeOf
  cases seedChart.find name <;> rfl

lemma changeOf_entries (m : Movement) (currency name : String) :
    changeOf (m.entries currency) name = (delta m.legs).getD name 0 := by
  unfold changeOf
  cases hfind : seedChart.find name with
  | some a =>
      obtain ⟨ha, rfl⟩ := Chart.find_mem hfind
      exact total_signedOn_entries m currency ha
  | none =>
      refine (Dict.getD_eq_of_not_mem fun hmem => ?_).symm
      obtain ⟨a, ha, rfl⟩ := List.mem_map.mp (mem_keys_delta_legs hmem)
      simpa using List.find?_eq_none.mp hfind a ha

/-- **The expected change of a movement** is what its entries come to, where that is not zero. -/
lemma get?_delta_legs (m : Movement) (currency name : String) :
    (delta m.legs).get? name =
      if changeOf (m.entries currency) name = 0 then none
        else some (changeOf (m.entries currency) name) := by
  rw [changeOf_entries]
  by_cases hmem : name ∈ (delta m.legs).keys
  · rw [if_neg (getD_delta_ne_zero hmem)]
    obtain ⟨v, hv⟩ := Dict.mem_keys_iff.mp hmem
    rw [Dict.getD, hv, Option.getD_some]
  · rw [Dict.getD_eq_of_not_mem hmem, if_pos rfl]
    exact Dict.get?_eq_none_iff.mpr hmem

end

/-! ## The makers -/

section

variable {uuid5 : String → Uuid} {eventId eventType : String} {obj : List (String × Json)}
  {created : ℤ}

variable (uuid5 eventId) in
/-- The mapping of an envelope around an object that is a movement, in whatever currency. -/
lemma buildTransaction_envelope {m : Movement} {oid : Option String} {currency : String}
    {feeMinor : Json} (hmapped : eventType ∈ mappedTypes)
    (hcurrency : obj.lookup "currency" = some (.str currency))
    (hentries : mapEntries eventType (.obj obj) feeMinor (upper currency) =
      .ok (m.entries (upper currency)))
        (hoid : moneyMovementObjectId (envelopeEvent eventId eventType obj created) = .ok oid)
    (hcreated : -62135596800 ≤ created ∧ created ≤ 253402300799) :
    ∃ txn, buildTransaction uuid5 (envelopeEvent eventId eventType obj created) feeMinor =
      .ok (some txn) ∧
      txn.entries = m.entries (upper currency) := by
  rw [buildTransaction_of_lookup hmapped rfl hcurrency rfl hcreated hoid]
  change ∃ txn, (mapEntries eventType _ _ _).map _ = _ ∧ _
  rw [hentries]
  exact ⟨_, rfl, rfl⟩

lemma truth_of_movement {m : Movement} {oid : String} {currency : String} {kind : EventKind}
    (hmapped : eventType ∈ mappedTypes) (hcurrency : obj.lookup "currency" = some (.str currency))
    (hentries : mapEntries eventType (.obj obj) .null (upper currency) =
      .ok (m.entries (upper currency)))
    (hoid : ∀ id, moneyMovementObjectId (envelopeEvent id eventType obj created) = .ok (some oid))
    (hcreated : -62135596800 ≤ created ∧ created ≤ 253402300799) :
    Truthful uuid5 ⟨eventId, envelope eventType obj created, kind, delta m.legs⟩ oid := by
  obtain ⟨txn, hbuild, htxn⟩ :=
    buildTransaction_envelope uuid5 eventId hmapped hcurrency hentries (hoid eventId) hcreated
  refine ⟨⟨some txn, hbuild, fun name => ?_⟩, hoid eventId⟩
  show (delta m.legs).get? name = _
  rw [get?_delta_legs m (upper currency), ← htxn]
  rfl

end

/-- **The ground truth is the mapping's.**  For every call of a maker, with any ids, amounts and
currency and a time that a calendar has: the mapping answers, its entries come to the expected
change of the fixture, and the object id of the event is the id that the fixture was made with. -/
theorem truthful_of_made (uuid5 : String → Uuid) (created : ℤ)
    (hcreated : -62135596800 ≤ created ∧ created ≤ 253402300799) (fx : EventFixture) (oid : String)
    (hmade : Made created fx oid) : Truthful uuid5 fx oid := by
  cases hmade with
  | charge eventId _ amount fee currency =>
      exact truth_of_movement (m := .charge amount fee)
        (by decide) rfl rfl (objectId_envelope rfl rfl) hcreated
  | refund eventId chargeId _ amount refunded currency =>
      exact truth_of_movement (m := .refund refunded)
        (by decide) rfl rfl (objectId_envelope rfl rfl) hcreated
  | dispute eventId _ chargeId amount fee currency =>
      have hentries : mapEntries "charge.dispute.created"
          (.obj (disputeObject oid chargeId amount fee created currency)) .null (upper currency) =
            .ok ((Movement.dispute amount (fee + 0)).entries (upper currency)) := rfl
      rw [add_zero] at hentries
      exact truth_of_movement (m := .dispute amount fee) (by decide) rfl hentries
        (objectId_envelope rfl rfl)
        hcreated
  | payout eventId _ amount currency =>
      exact truth_of_movement (m := .payout amount) (by decide) rfl rfl (objectId_envelope rfl rfl)
        hcreated
  | invoice eventId _ amount currency =>
      exact ⟨⟨none, rfl, fun name => by simp [changeOf_nil, makeInvoicePaymentFailed]⟩,
        objectId_envelope rfl rfl _⟩

/-- A charge whose fee is above its amount. -/
theorem truthful_of_made_fee_above_amount :
    Truthful sampleUuid5 (makeChargeSucceeded "evt_1" "ch_1" 100 130 1700000000 "eur") "ch_1" :=
  truthful_of_made sampleUuid5 1700000000 ⟨by norm_num, by norm_num⟩ _ _
    (.charge "evt_1" "ch_1" 100 130 "eur")

end LedgerProof.Harness
