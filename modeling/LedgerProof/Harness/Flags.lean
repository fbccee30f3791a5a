import LedgerProof.Harness.Verdict
import LedgerProof.Limits.RetryAfter

/-!
# Reject flags

Every delivery of a plan says by `expect_rejected` whether ingest should refuse it.  Ingest verifies
a delivery when its body has been read, so the flag is about the time at which that is: the planned
delay and the dribbling of the body count.

`STALE_TIMESTAMP` refuses an age inside the tolerance.  `DELAY` and `SLOW_LORIS` take whatever
number the caller gives them, and `plan_flags_iff` says for which of these the flags are right.
-/

namespace LedgerProof.Harness

open Gcra (truncate)

section

variable (hmacHex : List UInt8 → List UInt8 → String)

/-- `int(time.time())` when ingest verifies a delivery of a plan that was made at `now`. -/
def Delivery.verifiedAt (d : Delivery) (now : ℤ) :
    ℤ := truncate (now + d.delayBeforeS + d.slowLorisS)

/-- `verify` does not accept the delivery then. -/
def Delivery.Rejected (d : Delivery) (secret : String) (now : ℤ) : Prop :=
  verify hmacHex d.body d.sigHeader secret defaultToleranceSeconds (d.verifiedAt now) ≠ .ok ()

end

/-- The timestamp that `plan` signs with. -/
def signedAt (fault : Fault) (effective : Params) (now : ℤ) : ℤ :=
  match fault with
  | .delay =>
      if effective.pastTolerance = some true then
        now - (defaultToleranceSeconds + staleMarginSeconds) else now
  | .staleTimestamp => now - effective.ageS.getD 0
  | _ => now

/-- The parameter that moves the time of the verification does not move it across the tolerance. -/
def InTime (fault : Fault) (effective : Params) (now : ℤ) : Prop :=
  match fault with
  | .delay =>
      ∀ seconds past, effective.seconds = some seconds → effective.pastTolerance = some past →
      (past = true ↔ defaultToleranceSeconds < |truncate (now + seconds) -
        signedAt .delay effective now|)
  | .slowLoris =>
      ∀ hold, effective.holdS = some hold → |truncate (now + hold) - now| ≤ defaultToleranceSeconds
  | _ => True

/-- The flags and the ids of an expectation agree: nothing is to be refused, or the one delivery
is. -/
def FaultPlan.Flagged (fp : FaultPlan) : Prop :=
  (fp.expectation.rejectedEventIds = ∅ ∧ ∀ d ∈ fp.deliveries, d.expectRejected = false) ∨
    fp.expectation.postedEventIds = ∅ ∧ ∃ d, fp.deliveries = [d] ∧ d.expectRejected = true ∧
      fp.expectation.rejectedEventIds = {d.eventId}

/-- The timestamp of a header has a text, without which `sign` raises and there is no plan.  (Of the
faults only `DROP` signs nothing.) -/
def Rendered (ts : ℤ) : Prop := (natDecimal ts.natAbs).length ≤ maxStrDigits

instance Rendered.decidable (ts : ℤ) : Decidable (Rendered ts) :=
  inferInstanceAs (Decidable ((natDecimal ts.natAbs).length ≤ maxStrDigits))

/-- What is proved of each plan: its ids agree with its flags, and when its flags agree with
`verify`. -/
def FaultPlan.FlagsAre (fp : FaultPlan) (hmacHex : List UInt8 → List UInt8 → String)
    (secret : String) (now : ℤ) (rendered inTime : Prop) : Prop :=
  fp.Flagged ∧ (Digest hmacHex → rendered →
    ((∀ d ∈ fp.deliveries, d.expectRejected = true ↔ d.Rejected hmacHex secret now) ↔ inTime))

section

variable {hmacHex : List UInt8 → List UInt8 → String} {fault : Fault} {fixtures : List EventFixture}
  {secret : String} {params : Params} {now ts : ℤ} {fp : FaultPlan} {d : Delivery}
    {fx : EventFixture}

lemma truncate_intCast (n : ℤ) : truncate (n : ℚ) = n := by
  unfold truncate
  split_ifs <;> simp

lemma verifiedAt_of_held {hold : ℚ} (h : d.delayBeforeS + d.slowLorisS = hold) :
    d.verifiedAt now = truncate (now + hold) := by
  rw [Delivery.verifiedAt, add_assoc, h]

/-- A delivery that is sent as it was signed is rejected for its age only. -/
lemma rejected_clean_iff (hdigest : Digest hmacHex) (hts : Rendered ts)
    (hbody : d.body = serialize fx.event)
    (hheader : d.sigHeader = sign hmacHex (serialize fx.event) secret ts [] false .none) :
    d.Rejected hmacHex secret now ↔ defaultToleranceSeconds < |d.verifiedAt now - ts| := by
  rw [← not_le, ← verify_clean_iff hdigest (serialize_ne_nil fx) hts, ← hheader, ← hbody]
  rfl

lemma flagsAre_of_clean (hrejected : fp.expectation.rejectedEventIds = ∅)
    (hclean : ∀ d ∈ fp.deliveries, ∃ fx, d = clean hmacHex fx secret now) :
    fp.FlagsAre hmacHex secret now (Rendered now) True := by
  refine ⟨.inl ⟨hrejected, fun d hd => ?_⟩, fun hdigest hts => iff_true_intro fun d hd => ?_⟩
  · obtain ⟨fx, rfl⟩ := hclean d hd
    rfl
  · obtain ⟨fx, rfl⟩ := hclean d hd
    rw [rejected_clean_iff hdigest hts rfl rfl,
      verifiedAt_of_held (show _ = (0 : ℚ) by simp [clean]), add_zero, truncate_intCast, sub_self]
    simp [clean, defaultToleranceSeconds]

/-- Plans of one delivery that is held: it is signed at `ts` and arrives `hold` later. -/
lemma flagsAre_of_held {hold : ℚ} {flag : Bool} (hone : fp.deliveries = [d])
    (hbody : d.body = serialize fx.event)
    (hheader : d.sigHeader = sign hmacHex (serialize fx.event) secret ts [] false .none)
    (hhold : d.delayBeforeS + d.slowLorisS = hold) (hflag : d.expectRejected = flag)
    (hflagged : fp.Flagged) :
    fp.FlagsAre hmacHex secret now (Rendered ts)
      (flag = true ↔ defaultToleranceSeconds < |truncate (now + hold) - ts|) := by
  refine ⟨hflagged, fun hdigest hts => ?_⟩
  rw [← hflag, hone, List.forall_mem_singleton, rejected_clean_iff hdigest hts hbody hheader,
    verifiedAt_of_held hhold]

lemma flagsAre_of_attack {params : Params} {body signed : List UInt8}
    {onlySchemes : Option (List String)} {notes : Notes}
    (h : body ≠ signed ∨ defaultToleranceSeconds < |now - ts| ∨ onlySchemes = some ["v0"]) :
    (rejectedPlan fault fx params body (sign hmacHex signed secret ts [] false onlySchemes)
      notes).FlagsAre
      hmacHex secret now (Rendered ts) True := by
  refine ⟨.inr ⟨rfl, _, rfl, rfl, rfl⟩, fun hdigest hts => iff_true_intro fun d hd => ?_⟩
  obtain rfl := List.mem_singleton.mp hd
  refine iff_of_true rfl ?_
  rw [Delivery.Rejected, verifiedAt_of_held (show _ = (0 : ℚ) by simp), add_zero, truncate_intCast]
  exact verify_attack hdigest hts h

/-- **Which flags of a plan are right.** -/
lemma plan_flagsAre (h : plan hmacHex fault fixtures secret params now = .ok fp) :
    fp.FlagsAre hmacHex secret now
      (Rendered (signedAt fault ((defaultParams fault).merge params) now))
      (InTime fault ((defaultParams fault).merge params) now) := by
  unfold plan at h
  cases fixtures with
  | nil => cases h
  | cons target rest =>
  cases fault with
  | none =>
      cases h
      refine flagsAre_of_clean rfl fun d hd => ?_
      obtain ⟨fx, -, rfl⟩ := List.mem_map.mp hd
      exact ⟨fx, rfl⟩
  | duplicate =>
      obtain ⟨n, -, h⟩ := except_bind_eq_ok.mp h
      obtain ⟨-, h⟩ := except_guard_eq_ok.mp h
      cases h
      exact flagsAre_of_clean rfl fun d hd => ⟨target, List.eq_of_mem_replicate hd⟩
  | concurrentDuplicate =>
      obtain ⟨n, -, h⟩ := except_bind_eq_ok.mp h
      obtain ⟨-, h⟩ := except_guard_eq_ok.mp h
      cases h
      exact flagsAre_of_clean rfl fun d hd => ⟨target, List.eq_of_mem_replicate hd⟩
  | duplicateObject =>
      cases h
      refine flagsAre_of_clean rfl fun d hd => ?_
      rcases List.mem_pair.mp hd with rfl | rfl
      · exact ⟨target, rfl⟩
      · exact ⟨twin target, rfl⟩
  | reorder =>
      obtain ⟨-, h⟩ := except_guard_eq_ok.mp h
      obtain ⟨order, -, h⟩ := except_bind_eq_ok.mp h
      obtain ⟨-, h⟩ := except_guard_eq_ok.mp h
      cases h
      refine flagsAre_of_clean rfl fun d hd => ?_
      obtain ⟨fx, -, rfl⟩ := List.mem_map.mp hd
      exact ⟨fx, rfl⟩
  | delay =>
      obtain ⟨seconds, hseconds, h⟩ := except_bind_eq_ok.mp h
      obtain ⟨past, hpast, h⟩ := except_bind_eq_ok.mp h
      have hseconds := Params.fetch_eq_ok.mp hseconds
      have hpast := Params.fetch_eq_ok.mp hpast
      have hinTime : InTime .delay ((defaultParams .delay).merge params) now ↔
          (past = true ↔ defaultToleranceSeconds <
            |truncate (now + seconds) - signedAt .delay ((defaultParams .delay).merge params)
                now|) := by
        simp [InTime, hseconds, hpast]
      have hsigned : signedAt .delay ((defaultParams .delay).merge params) now =
          if past then now - (defaultToleranceSeconds + staleMarginSeconds) else now := by
        simp [signedAt, hpast]
      cases h
      rw [hinTime, hsigned]
      apply flagsAre_of_held
      · rfl
      · rfl
      · rfl
      · exact add_zero seconds
      · rfl
      · cases past with
        | true => exact .inr ⟨rfl, _, rfl, rfl, rfl⟩
        | false => exact .inl ⟨rfl, fun d hd => by rw [List.mem_singleton.mp hd]⟩
  | drop =>
      cases h
      exact flagsAre_of_clean rfl fun d hd => absurd hd List.not_mem_nil
  | respond500 =>
      cases h
      refine flagsAre_of_clean rfl fun d hd => ⟨target, ?_⟩
      rcases List.mem_pair.mp hd with rfl | rfl <;> rfl
  | tamperBody =>
      obtain ⟨⟨tampered, index⟩, hflip, h⟩ := except_bind_eq_ok.mp h
      cases h
      exact flagsAre_of_attack (.inl (flipOneByte_eq_ok hflip).2)
  | truncateBody =>
      cases h
      refine flagsAre_of_attack (.inl fun hsame => ?_)
      have hlength := congrArg List.length hsame
      have hpos := List.length_pos_iff.mpr (serialize_ne_nil target)
      rw [List.length_take] at hlength
      omega
  | staleTimestamp =>
      obtain ⟨age, hage, h⟩ := except_bind_eq_ok.mp h
      obtain ⟨hlow, h⟩ := except_guard_eq_ok.mp h
      have hage := Params.fetch_eq_ok.mp hage
      cases h
      have hsigned : signedAt .staleTimestamp ((defaultParams .staleTimestamp).merge params) now =
          now - age := by
        simp [signedAt, hage]
      rw [hsigned]
      refine flagsAre_of_attack (.inr (.inl ?_))
      rw [sub_sub_cancel]
      exact (not_le.mp hlow).trans_le (le_abs_self age)
  | downgradeScheme =>
      cases h
      exact flagsAre_of_attack (.inr (.inr rfl))
  | partialWrite =>
      obtain ⟨after, -, h⟩ := except_bind_eq_ok.mp h
      cases h
      exact flagsAre_of_clean rfl fun d hd => ⟨target, List.mem_singleton.mp hd⟩
  | slowLoris =>
      obtain ⟨hold, hhold, h⟩ := except_bind_eq_ok.mp h
      have hhold := Params.fetch_eq_ok.mp hhold
      have hinTime : InTime .slowLoris ((defaultParams .slowLoris).merge params) now ↔
          (false = true ↔ defaultToleranceSeconds < |truncate (now + hold) - now|) := by
        simp [InTime, hhold]
      cases h
      rw [hinTime]
      apply flagsAre_of_held
      · rfl
      · rfl
      · rfl
      · exact zero_add hold
      · rfl
      · exact .inl ⟨rfl, fun d hd => by rw [List.mem_singleton.mp hd]; rfl⟩

lemma deliveries_drop (h : plan hmacHex .drop fixtures secret params now = .ok fp) :
    fp.deliveries = [] := by
  cases fixtures <;> cases h
  rfl

lemma FaultPlan.Flagged.flag_iff (h : fp.Flagged) (hd : d ∈ fp.deliveries) :
    d.expectRejected = true ↔ d.eventId ∈ fp.expectation.rejectedEventIds := by
  rcases h with ⟨hrejected, hflags⟩ | ⟨-, d', hone, hflag, hrejected⟩
  · simp [hflags d hd, hrejected]
  · rw [hone, List.mem_singleton] at hd
    rw [hd, hrejected]
    simp [hflag]

/-- The ids of an expectation are those of the flagged deliveries, and none of them is to be
posted. -/
lemma FaultPlan.Flagged.ids (h : fp.Flagged) :
    (∀ id, id ∈ fp.expectation.rejectedEventIds ↔ ∃ d ∈ fp.deliveries, d.expectRejected = true ∧
      d.eventId = id) ∧
      Disjoint fp.expectation.rejectedEventIds fp.expectation.postedEventIds := by
  refine ⟨fun id => ⟨fun hid => ?_, ?_⟩, ?_⟩
  · rcases h with ⟨hrejected, -⟩ | ⟨-, d, hone, hflag, hrejected⟩
    · simp [hrejected] at hid
    · rw [hrejected, Finset.mem_singleton] at hid
      exact ⟨d, by simp [hone], hflag, hid.symm⟩
  · rintro ⟨d, hd, hflag, rfl⟩
    exact (h.flag_iff hd).mp hflag
  · rcases h with ⟨hrejected, -⟩ | ⟨hposted, -⟩
    · rw [hrejected]
      exact Finset.disjoint_empty_left _
    · rw [hposted]
      exact Finset.disjoint_empty_right _

end

/-- **When the flags of a plan are right.**  For every plan: its rejected ids are those of the
flagged deliveries, apart from the ids that are to be posted, and every flag says what `verify`
answers when the delivery has arrived exactly if a delay or a dribbled body does not cross the
tolerance. -/
theorem plan_flags_iff (hmacHex : List UInt8 → List UInt8 → String) (hdigest : Digest hmacHex)
    (fault : Fault) (fixtures : List EventFixture) (secret : String) (params : Params) (now : ℤ)
    (fp : FaultPlan) (hplan : plan hmacHex fault fixtures secret params now = .ok fp)
    (hrendered : fault ≠ .drop →
      Rendered (signedAt fault ((defaultParams fault).merge params) now)) :
    ((∀ d ∈ fp.deliveries, d.expectRejected = true ↔ d.Rejected hmacHex secret now) ↔
        InTime fault ((defaultParams fault).merge params) now) ∧
      (∀ id, id ∈ fp.expectation.rejectedEventIds ↔
        ∃ d ∈ fp.deliveries, d.expectRejected = true ∧ d.eventId = id) ∧
      Disjoint fp.expectation.rejectedEventIds fp.expectation.postedEventIds := by
  obtain ⟨hflagged, hflags⟩ := plan_flagsAre hplan
  refine ⟨?_, hflagged.ids⟩
  by_cases hdrop : fault = .drop
  · subst hdrop
    simp [deliveries_drop hplan, InTime]
  · exact hflags hdigest (hrendered hdrop)

/-- The plan that dribbles the body of the payout over this many seconds. -/
def lorisPlan (holdS : ℚ) : FaultPlan :=
  acceptedPlan .slowLoris { Params.empty with holdS := some holdS }
    [{ clean payoutHmacHex paidPayout labelSecret 1754300000 with slowLorisS := holdS }]
    (if paidPayout.expectedDelta.items ≠ [] then {paidPayout.eventId} else ∅)
    (sumDelta [paidPayout] (if paidPayout.expectedDelta.items ≠ [] then {paidPayout.eventId}
      else ∅)) (.dribbled holdS)

/-- Over three seconds, which is the default, the flag is right. -/
theorem plan_flags_iff_loris :
    plan payoutHmacHex .slowLoris [paidPayout] labelSecret Params.empty 1754300000 =
      .ok (lorisPlan 3) ∧
      ∀ d ∈ (lorisPlan 3).deliveries, d.expectRejected = true ↔
        d.Rejected payoutHmacHex labelSecret 1754300000 := by
  refine ⟨rfl, (plan_flags_iff payoutHmacHex payoutHmacHex_digest .slowLoris
    [paidPayout] labelSecret Params.empty 1754300000 (lorisPlan 3) rfl fun _ => by decide).1.mpr ?_⟩
  rintro hold hhold
  obtain rfl : (3 : ℚ) = hold := Option.some_inj.mp hhold
  norm_num [truncate, defaultToleranceSeconds]

/-- Over four hundred it is not: the event is to be posted, and `verify` rejects its delivery. -/
theorem slow_loris_outlives_tolerance :
    plan payoutHmacHex .slowLoris [paidPayout] labelSecret { Params.empty with holdS := some 400 }
        1754300000 =
        .ok (lorisPlan 400) ∧
      ∃ d ∈ (lorisPlan 400).deliveries, d.expectRejected = false ∧
        d.Rejected payoutHmacHex labelSecret 1754300000 := by
  refine ⟨rfl, _, List.mem_singleton_self _, rfl, ?_⟩
  rw [rejected_clean_iff payoutHmacHex_digest (by decide) rfl rfl,
    verifiedAt_of_held (zero_add 400)]
  norm_num [truncate, defaultToleranceSeconds]

end LedgerProof.Harness
