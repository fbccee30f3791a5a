import LedgerProof.Harness.Scenarios

/-!
# What a plan promises

Each of the fourteen plans comes to the same few things, which `FaultPlan.Sound` names: some of the
fixtures are served, every delivery is an event of these, a second copy of one under another id, or
a request that the signature check refuses, and the expectation is the ledger after exactly the
served fixtures.

`plan_sound` proves it of every plan whose parameters are fit for it.  The parameters of a scenario
are the ones that its first plan ran with, so the runner can plan it again
(`Scenario.Generated.plan_again`).
-/

namespace LedgerProof.Harness

/-! ## Deliveries -/

/-- What is sent: the deliveries, and after a kill the first of them again. -/
def FaultPlan.sends (fp : FaultPlan) : List Delivery :=
  if fp.killWorkerAfterS.isSome && fp.redeliverAfterKill then fp.deliveries ++ fp.deliveries.take 1
  else fp.deliveries

/-- The delivery is verified after it was planned, and within the tolerance less its planned
delay. -/
def Delivery.InWindow (d : Delivery) (planned now : ℤ) : Prop :=
  planned ≤ now ∧ ((now - planned : ℤ) : ℚ) ≤ defaultToleranceSeconds - d.delayBeforeS

section

variable (hmacHex : List UInt8 → List UInt8 → String) (secret : String) (planned : ℤ)

/-- Ingest takes the delivery for this event. -/
def Delivery.Accepted (d : Delivery) (e : Event) : Prop :=
  d.expectRejected = false ∧ d.expectRejectionReason = .none ∧
    ∀ now, d.InWindow planned now → receive hmacHex secret now d.body d.sigHeader = .accepted e

/-- Ingest refuses the delivery for its signature, which is the reason the plan names if it names
one. -/
def Delivery.Refused (d : Delivery) : Prop :=
  (∀ reason, d.expectRejectionReason = some reason → reason = invalidSignature) ∧
    ∀ now, d.InWindow planned now →
      receive hmacHex secret now d.body d.sigHeader = .refused .invalidSignature

/-- The deliveries bring the served fixtures and nothing else, and the expectation is what these
come to. -/
structure FaultPlan.Sound (fixtures served : List EventFixture) (fp : FaultPlan) : Prop where
  sublist : served.Sublist fixtures
  sends : ∀ (k : ℕ) (d : Delivery), fp.sends[k]? = some d →
    d.Refused hmacHex secret planned ∨ ∃ fx ∈ served, d.Accepted hmacHex secret planned fx.asEvent ∨
      (d.Accepted hmacHex secret planned { fx.asEvent with id := d.eventId } ∧
        fp.concurrent = false ∧ ∃ j < k, ∃ d', fp.sends[j]? = some d' ∧
        d'.Accepted hmacHex secret planned fx.asEvent)
  delivered : ∀ fx ∈ served, ∃ d ∈ fp.sends, d.Accepted hmacHex secret planned fx.asEvent
  posted : fp.expectation.postedEventIds = eventIds (money served)
  rejected : served ≠ [] → fp.expectation.rejectedEventIds = ∅
  balances : ∀ name, fp.expectation.balancesDelta.get? name =
    (sumDelta fixtures fp.expectation.postedEventIds).get? name
  missed : fp.expectation.reconcilerShouldReportBreak = true → fp.fault = .drop ∧ served = []

end

/-! ## Parameters -/

/-- The parameters that the fault reads are there, in the range in which it can be planned. -/
structure Params.Fit (fault : Fault) (p : Params) : Prop where
  n : fault = .duplicate ∨ fault = .concurrentDuplicate → ∃ n, p.n = some n ∧ 2 ≤ n
  order : fault = .reorder → p.order = some "reverse"
  delay : fault = .delay → ∃ seconds past, p.seconds = some seconds ∧ p.pastTolerance = some past ∧
    0 ≤ seconds
  age : fault = .staleTimestamp → ∃ age, p.ageS = some age ∧ defaultToleranceSeconds < age ∧
    age ≤ 900
  kill : fault = .partialWrite → ∃ after, p.killAfterS = some after
  hold : fault = .slowLoris → ∃ hold, p.holdS = some hold

lemma Params.Fit.merge {fault : Fault} {p : Params} (h : p.Fit fault) (q : Params) :
    (q.merge p).Fit fault where
  n := fun hfault => by
    obtain ⟨n, hn, hle⟩ := h.n hfault
    exact ⟨n, by simp [Params.merge, hn], hle⟩
  order := fun hfault => by simp [Params.merge, h.order hfault]
  delay := fun hfault => by
    obtain ⟨seconds, past, hseconds, hpast, hle⟩ := h.delay hfault
    exact ⟨seconds, past, by simp [Params.merge, hseconds], by simp [Params.merge, hpast], hle⟩
  age := fun hfault => by
    obtain ⟨age, hage, hlow, hhigh⟩ := h.age hfault
    exact ⟨age, by simp [Params.merge, hage], hlow, hhigh⟩
  kill := fun hfault => by
    obtain ⟨after, hafter⟩ := h.kill hfault
    exact ⟨after, by simp [Params.merge, hafter]⟩
  hold := fun hfault => by
    obtain ⟨hold, hhold⟩ := h.hold hfault
    exact ⟨hold, by simp [Params.merge, hhold]⟩

/-- The parameters of every scenario are fit. -/
lemma fit_paramsFor (fault : Fault) (index : ℕ) :
    ((defaultParams fault).merge (paramsFor fault index)).Fit fault where
  n := by
    rintro (rfl | rfl)
    · exact ⟨2 + index % 3, by simp [Params.merge, paramsFor], by omega⟩
    · refine ⟨if index % 2 = 0 then 8 else 4, by simp [Params.merge, paramsFor], ?_⟩
      split_ifs <;> norm_num
  order := by
    rintro rfl
    rfl
  delay := by
    rintro rfl
    exact ⟨4, _, rfl, rfl, by norm_num⟩
  age := by
    rintro rfl
    refine ⟨600 + 300 * (index % 2), by simp [Params.merge, paramsFor], ?_, ?_⟩
    · simp only [defaultToleranceSeconds]
      omega
    · omega
  kill := by
    rintro rfl
    exact ⟨_, rfl⟩
  hold := by
    rintro rfl
    exact ⟨_, rfl⟩

/-! ## The two kinds of delivery -/

section

variable {hmacHex : List UInt8 → List UInt8 → String} {uuid5 : String → Uuid} {fx : EventFixture}
  {fxs : List EventFixture} {secret : String} {planned now : ℤ} {d : Delivery}

lemma Delivery.InWindow.bounds (h : d.InWindow planned now) (hdelay : 0 ≤ d.delayBeforeS) :
    planned ≤ now ∧ now - planned ≤ defaultToleranceSeconds := by
  obtain ⟨hle, hwindow⟩ := h
  refine ⟨hle, ?_⟩
  have : ((now - planned : ℤ) : ℚ) ≤ (defaultToleranceSeconds : ℤ) := by linarith
  exact_mod_cast this

lemma Datable.length_le {t : ℤ} (ht : Datable t) {age : ℤ} (hage : 0 ≤ age ∧ age ≤ 900) :
    (natDecimal (t - age).natAbs).length ≤ maxStrDigits := by
  obtain ⟨hlow, hhigh⟩ := ht
  have hmax : maxStrDigits = 4300 := rfl
  rw [hmax]
  exact length_natDecimal_le (by norm_num) (by omega)

/-- A delivery with the body and the header of `_clean` is accepted. -/
lemma accepted_of_clean (hdigest : Digest hmacHex) (hfxs : Fixtures uuid5 fxs) (hfx : fx ∈ fxs)
    (hplanned : Datable planned) {id : String} (hid : PlainText 4310 id)
    (hbody : d.body = serialize { fx with eventId := id }.event)
    (hheader : d.sigHeader = sign hmacHex d.body secret planned [] false .none)
    (hrejected : d.expectRejected = false) (hreason : d.expectRejectionReason = .none)
    (hdelay : 0 ≤ d.delayBeforeS) :
    d.Accepted hmacHex secret planned { fx.asEvent with id := id } := by
  obtain ⟨oid, hfaithful⟩ := hfxs.faithful fx hfx
  refine ⟨hrejected, hreason, fun now hnow => ?_⟩
  obtain ⟨hle, hwindow⟩ := hnow.bounds hdelay
  have hts := hplanned.length_le ⟨le_refl 0, by norm_num⟩
  rw [sub_zero] at hts
  rw [hheader, hbody]
  exact receive_clean hdigest hfaithful hid hts (by rw [abs_of_nonneg (by omega)]; exact hwindow)

/-- A delivery that differs from what was signed, or was signed too long ago, or under `v0`, is
refused. -/
lemma refused_of_attack (hdigest : Digest hmacHex) {signed : List UInt8} {age : ℤ}
    {onlySchemes : Option (List String)} (hplanned : Datable planned)
    (hage : 0 ≤ age ∧ age ≤ 900) (hsize : d.body.length ≤ maxBodyBytes)
    (hheader : d.sigHeader = sign hmacHex signed secret (planned - age) [] false onlySchemes)
    (hreason : ∀ reason, d.expectRejectionReason = some reason → reason = invalidSignature)
    (h : d.body ≠ signed ∨ defaultToleranceSeconds < age ∨ onlySchemes = some ["v0"]) :
    d.Refused hmacHex secret planned := by
  refine ⟨hreason, fun now hnow => ?_⟩
  rw [hheader]
  refine receive_refused hdigest hsize (hplanned.length_le hage)
    (h.imp id (Or.imp (fun hlate => ?_) id))
  have hle := hnow.1
  rw [abs_of_nonneg (by omega)]
  omega

/-! ## The plans -/

variable {target : EventFixture} {rest served : List EventFixture} {fp : FaultPlan}

lemma accepted_asEvent (hdigest : Digest hmacHex) (hfxs : Fixtures uuid5 fxs) (hfx : fx ∈ fxs)
    (hplanned : Datable planned) (hbody : d.body = serialize fx.event)
    (hheader : d.sigHeader = sign hmacHex d.body secret planned [] false .none)
    (hrejected : d.expectRejected = false) (hreason : d.expectRejectionReason = .none)
    (hdelay : 0 ≤ d.delayBeforeS) : d.Accepted hmacHex secret planned fx.asEvent := by
  obtain ⟨oid, hfaithful⟩ := hfxs.faithful fx hfx
  have haccepted := accepted_of_clean hdigest hfxs hfx hplanned
    ((hfxs.plain fx hfx).mono (by norm_num)) hbody
    hheader hrejected hreason hdelay
  rwa [← hfaithful.id_eq] at haccepted

/-- A plan that sends the served fixtures and nothing else. -/
lemma sound_of_accepted (hsub : served.Sublist fxs)
    (hsends : ∀ d ∈ fp.sends, ∃ fx ∈ served, d.Accepted hmacHex secret planned fx.asEvent)
    (hdelivered : ∀ fx ∈ served, ∃ d ∈ fp.sends, d.Accepted hmacHex secret planned fx.asEvent)
    (hposted : fp.expectation.postedEventIds = eventIds (money served))
    (hrejected : fp.expectation.rejectedEventIds = ∅)
    (hbalances : fp.expectation.balancesDelta = sumDelta fxs fp.expectation.postedEventIds)
    (hmissed : fp.expectation.reconcilerShouldReportBreak = false) :
    fp.Sound hmacHex secret planned fxs served where
  sublist := hsub
  sends := fun k d hd => by
    obtain ⟨fx, hfx, haccepted⟩ := hsends d (List.mem_of_getElem? hd)
    exact .inr ⟨fx, hfx, .inl haccepted⟩
  delivered := hdelivered
  posted := hposted
  rejected := fun _ => hrejected
  balances := fun name => by rw [hbalances]
  missed := fun htrue => by simp [hmissed] at htrue

lemma posted_singleton (target : EventFixture) :
    (if target.expectedDelta.items ≠ [] then {target.eventId} else ∅ : Finset String) =
    eventIds (money [target]) := by
  rw [eventIds, money]
  split_ifs with hmoney <;> simp [hmoney]

lemma sound_of_target (hsends : ∀ d ∈ fp.sends, d.Accepted hmacHex secret planned target.asEvent)
    (hne : fp.sends ≠ [])
    (hposted : fp.expectation.postedEventIds =
      if target.expectedDelta.items ≠ [] then {target.eventId} else ∅)
    (hrejected : fp.expectation.rejectedEventIds = ∅)
    (hbalances : fp.expectation.balancesDelta =
      sumDelta (target :: rest) fp.expectation.postedEventIds)
    (hmissed : fp.expectation.reconcilerShouldReportBreak = false) :
    fp.Sound hmacHex secret planned (target :: rest) [target] := by
  refine sound_of_accepted (by simp) (fun d hd => ⟨target, by simp, hsends d hd⟩) (fun fx hfx =>
    ?_) ?_ hrejected
    hbalances hmissed
  · obtain ⟨d, hd⟩ := List.exists_mem_of_ne_nil _ hne
    rw [List.mem_singleton.mp hfx]
    exact ⟨d, hd, hsends d hd⟩
  · rw [hposted, posted_singleton]

lemma sound_of_copies {n : ℕ} (hn : 0 < n)
    (hclean : (clean hmacHex target secret planned).Accepted hmacHex secret planned target.asEvent)
    (hsends : fp.sends = List.replicate n (clean hmacHex target secret planned))
    (hposted : fp.expectation.postedEventIds =
      if target.expectedDelta.items ≠ [] then {target.eventId} else ∅)
    (hrejected : fp.expectation.rejectedEventIds = ∅)
    (hbalances : fp.expectation.balancesDelta =
      sumDelta (target :: rest) fp.expectation.postedEventIds)
    (hmissed : fp.expectation.reconcilerShouldReportBreak = false) :
    fp.Sound hmacHex secret planned (target :: rest) [target] := by
  refine sound_of_target (fun d hd => ?_) ?_ hposted hrejected hbalances hmissed
  · rw [hsends] at hd
    rw [List.eq_of_mem_replicate hd]
    exact hclean
  · rw [hsends, Ne, List.replicate_eq_nil_iff]
    exact hn.ne'

lemma sumDelta_empty (fixtures : List EventFixture) : sumDelta fixtures ∅ = .empty := by
  simp [sumDelta, Dict.filter, Dict.empty]

/-- A plan whose deliveries are all refused, or that has none. -/
lemma sound_of_refused (hsends : ∀ d ∈ fp.sends, d.Refused hmacHex secret planned)
    (hposted : fp.expectation.postedEventIds = ∅)
    (hbalances : fp.expectation.balancesDelta = .empty)
    (hmissed : fp.expectation.reconcilerShouldReportBreak = true → fp.fault = .drop) :
    fp.Sound hmacHex secret planned fxs [] where
  sublist := List.nil_sublist _
  sends := fun k d hd => .inl (hsends d (List.mem_of_getElem? hd))
  delivered := by simp
  posted := by simp [hposted, eventIds, money]
  rejected := by simp
  balances := fun name => by rw [hposted, hbalances, sumDelta_empty]
  missed := fun htrue => ⟨hmissed htrue, rfl⟩

/-- The plans of the four faults that attack the signature. -/
lemma sound_of_attack (hdigest : Digest hmacHex) (hplanned : Datable planned) {fault : Fault}
    {params : Params} {body signed : List UInt8} {ts age : ℤ} {onlySchemes : Option (List String)}
    {notes : Notes} (hts : ts = planned - age) (hage : 0 ≤ age ∧ age ≤ 900)
    (hsize : body.length ≤ maxBodyBytes)
    (h : body ≠ signed ∨ defaultToleranceSeconds < age ∨ onlySchemes = some ["v0"]) :
    (rejectedPlan fault target params body (sign hmacHex signed secret ts [] false onlySchemes)
      notes).Sound
      hmacHex secret planned fxs [] := by
  refine sound_of_refused (fun d hd => ?_) rfl rfl (fun htrue => by cases htrue)
  obtain rfl := List.mem_singleton.mp hd
  subst hts
  exact refused_of_attack hdigest hplanned hage hsize rfl (fun _ hreason =>
    (Option.some_inj.mp hreason).symm) h

/-- **Every plan keeps to its promise**, and its parameters are fit to plan it again. -/
lemma plan_sound (secret : String) (hdigest : Digest hmacHex) {fault : Fault} {params : Params}
    (hfxs : Fixtures uuid5 fxs) (hne : fxs ≠ []) (htwo : fault = .reorder → 2 ≤ fxs.length)
    (hplanned : Datable planned) (hfit : ((defaultParams fault).merge params).Fit fault)
    (hflip : fault = .tamperBody → ∀ fx ∈ fxs, ∃ flipped,
      flipOneByte (serialize fx.event) = .ok flipped) :
    ∃ fp, plan hmacHex fault fxs secret params planned = .ok fp ∧ fp.fault = fault ∧
      fp.params.Fit fault ∧
      ∃ served, fp.Sound hmacHex secret planned fxs served := by
  obtain ⟨target, rest, rfl⟩ := List.exists_cons_of_ne_nil hne
  have htarget : target ∈ target :: rest := List.mem_cons_self
  obtain ⟨oid, hfaithful⟩ := hfxs.faithful target htarget
  have hsize : (serialize target.event).length ≤ maxBodyBytes :=
    hfaithful.length_serialize ((hfxs.plain target htarget).mono (by norm_num))
  have hclean : ∀ fx ∈ target :: rest,
      (clean hmacHex fx secret planned).Accepted hmacHex secret planned fx.asEvent :=
    fun fx hfx => accepted_asEvent hdigest hfxs hfx hplanned rfl rfl rfl rfl le_rfl
  have hhalf : (serialize target.event).length / 2 < (serialize target.event).length :=
    Nat.div_lt_self (List.length_pos_iff.mpr (serialize_ne_nil target)) (by norm_num)
  cases fault with
  | none =>
      refine ⟨_, rfl, rfl, hfit, target :: rest,
        sound_of_accepted (List.Sublist.refl _) (fun d hd => ?_) (fun fx hfx => ?_) rfl rfl rfl rfl⟩
      · obtain ⟨fx, hfx, rfl⟩ := List.mem_map.mp hd
        exact ⟨fx, hfx, hclean fx hfx⟩
      · exact ⟨_, List.mem_map_of_mem hfx, hclean fx hfx⟩
  | duplicate =>
      obtain ⟨n, hn, hle⟩ := hfit.n (.inl rfl)
      exact ⟨_, by simp only [plan, hn, Params.fetch, except_ok_bind, if_neg (not_lt.mpr hle)]; rfl,
        rfl, hfit, [target],
        sound_of_copies (by omega : 0 < n.toNat) (hclean target htarget) rfl rfl rfl rfl rfl⟩
  | concurrentDuplicate =>
      obtain ⟨n, hn, hle⟩ := hfit.n (.inr rfl)
      exact ⟨_, by simp only [plan, hn, Params.fetch, except_ok_bind, if_neg (not_lt.mpr hle)]; rfl,
        rfl, hfit, [target],
        sound_of_copies (by omega : 0 < n.toNat) (hclean target htarget) rfl rfl rfl rfl rfl⟩
  | duplicateObject =>
      refine ⟨_, rfl, rfl, ⟨hfit.n, hfit.order, hfit.delay, hfit.age, hfit.kill, hfit.hold⟩,
        [target], ?_⟩
      -- the twin is sent after the event whose object it shares
      refine ⟨by simp, fun k d hd => .inr ⟨target, by simp, ?_⟩, fun fx hfx => ?_, ?_, fun _ => rfl,
        fun _ => rfl,
        fun htrue => by cases htrue⟩
      · rcases k with - | - | k
        · obtain rfl := Option.some_inj.mp hd
          exact .inl (hclean target htarget)
        · obtain rfl := Option.some_inj.mp hd
          refine .inr ⟨accepted_of_clean hdigest hfxs htarget hplanned ?_ rfl rfl rfl rfl le_rfl,
            rfl, 0, by omega, _,
            rfl, hclean target htarget⟩
          exact (hfxs.plain target htarget).append (n := 4) (by decide)
        · cases hd
      · rw [List.mem_singleton.mp hfx]
        exact ⟨_, List.mem_cons_self, hclean target htarget⟩
      · exact posted_singleton target
  | reorder =>
      have hrest : rest ≠ [] := by
        rintro rfl
        simpa using htwo rfl
      refine ⟨_,
        by simp only [plan, hfit.order rfl, if_neg hrest, Params.fetch, except_ok_bind]; rfl,
        rfl, hfit, target :: rest,
        sound_of_accepted (List.Sublist.refl _) (fun d hd => ?_) (fun fx hfx => ?_) rfl rfl rfl rfl⟩
      · obtain ⟨fx, hfx, rfl⟩ := List.mem_map.mp hd
        exact ⟨fx, List.mem_reverse.mp hfx, hclean fx (List.mem_reverse.mp hfx)⟩
      · exact ⟨_, List.mem_map_of_mem (List.mem_reverse.mpr hfx), hclean fx hfx⟩
  | delay =>
      obtain ⟨seconds, past, hseconds, hpast, hle⟩ := hfit.delay rfl
      cases past with
      | true =>
          refine ⟨_,
            by simp only [plan, hseconds, hpast, Params.fetch, except_ok_bind, if_true]; rfl,
            rfl, hfit, [],
            sound_of_refused (fun d hd => ?_) rfl (sumDelta_empty _) (fun htrue => by cases htrue)⟩
          obtain rfl := List.mem_singleton.mp hd
          have hage : 0 ≤ defaultToleranceSeconds + staleMarginSeconds ∧
              defaultToleranceSeconds + staleMarginSeconds ≤ 900 := by decide
          exact refused_of_attack hdigest hplanned hage hsize rfl
            (fun reason hreason => by cases hreason) (.inr (.inl (by decide)))
      | false =>
          refine ⟨_,
            by simp only [plan, hseconds, hpast, Params.fetch, except_ok_bind, Bool.false_eq_true,
                if_false]; rfl,
            rfl, hfit, [target],
            sound_of_target (fun d hd => ?_) (fun hnil => by cases hnil) rfl rfl rfl rfl⟩
          obtain rfl := List.mem_singleton.mp hd
          exact accepted_asEvent hdigest hfxs htarget hplanned rfl rfl rfl rfl hle
  | drop =>
      exact ⟨_, rfl, rfl, ⟨hfit.n, hfit.order, hfit.delay, hfit.age, hfit.kill, hfit.hold⟩, [],
        sound_of_refused (fun d hd => absurd hd List.not_mem_nil) rfl rfl fun _ => rfl⟩
  | respond500 =>
      exact ⟨_, rfl, rfl, hfit, [target],
        sound_of_copies two_pos (hclean target htarget) rfl rfl rfl rfl rfl⟩
  | tamperBody =>
      obtain ⟨⟨tampered, index⟩, hflipped⟩ := hflip rfl target htarget
      obtain ⟨hlength, hother⟩ := flipOneByte_eq_ok hflipped
      refine ⟨_, by simp only [plan, hflipped, except_ok_bind]; rfl, rfl, ?_, [], ?_⟩
      · exact ⟨hfit.n, hfit.order, hfit.delay, hfit.age, hfit.kill, hfit.hold⟩
      · exact sound_of_attack hdigest hplanned (sub_zero _).symm (by norm_num)
          (hlength.trans_le hsize) (.inl hother)
  | truncateBody =>
      refine ⟨_, rfl, rfl, ⟨hfit.n, hfit.order, hfit.delay, hfit.age, hfit.kill, hfit.hold⟩, [],
        sound_of_attack hdigest hplanned (sub_zero _).symm (by norm_num)
          ((List.length_take_le _ _).trans (hhalf.le.trans hsize)) (.inl fun hsame => ?_)⟩
      have hlength := congrArg List.length hsame
      rw [List.length_take, min_eq_left hhalf.le] at hlength
      omega
  | staleTimestamp =>
      obtain ⟨age, hage, hlow, hhigh⟩ := hfit.age rfl
      have hpos : 0 ≤ age := le_trans (by decide) hlow.le
      exact ⟨_,
        by simp only [plan, hage, Params.fetch, except_ok_bind, if_neg (not_le.mpr hlow)]; rfl,
        rfl, hfit, [], sound_of_attack hdigest hplanned rfl ⟨hpos, hhigh⟩ hsize (.inr (.inl hlow))⟩
  | downgradeScheme =>
      exact ⟨_, rfl, rfl, hfit, [],
        sound_of_attack hdigest hplanned (sub_zero _).symm (by norm_num) hsize (.inr (.inr rfl))⟩
  | partialWrite =>
      obtain ⟨after, hafter⟩ := hfit.kill rfl
      exact ⟨_, by simp only [plan, hafter, Params.fetch, except_ok_bind]; rfl, rfl, hfit, [target],
        sound_of_copies two_pos (hclean target htarget) rfl rfl rfl rfl rfl⟩
  | slowLoris =>
      obtain ⟨hold, hhold⟩ := hfit.hold rfl
      refine ⟨_, by simp only [plan, hhold, Params.fetch, except_ok_bind]; rfl, rfl, hfit, [target],
        sound_of_target (fun d hd => ?_) (fun hnil => by cases hnil) rfl rfl rfl rfl⟩
      obtain rfl := List.mem_singleton.mp hd
      exact accepted_asEvent hdigest hfxs htarget hplanned rfl rfl rfl rfl le_rfl

/-- A body that was planned to be tampered with has a digit to change. -/
lemma flips_of_plan {params : Params}
    (h : plan hmacHex .tamperBody [target] secret params planned = .ok fp) :
    ∃ flipped, flipOneByte (serialize target.event) = .ok flipped := by
  cases hflip : flipOneByte (serialize target.event) with
  | ok flipped => exact ⟨flipped, rfl⟩
  | error err => simp [plan, hflip] at h

/-- **A scenario can be planned again**, with any secret and at any time, and its plan keeps to its
promise. -/
lemma Scenario.Generated.plan_again (hdigest : Digest hmacHex) {sc : Scenario}
    (h : sc.Generated hmacHex uuid5) (hnow : Datable now) (secret : String) :
    ∃ fp, plan hmacHex sc.fault sc.fixtures secret sc.params now = .ok fp ∧ fp.fault = sc.fault ∧
      ∃ served, fp.Sound hmacHex secret now sc.fixtures served := by
  obtain ⟨index, labelled, built, hlabelled, hplan, hparams⟩ := h.planned
  have hne : sc.fixtures ≠ [] := by
    rw [← List.length_pos_iff, h.count]
    cases sc.fault <;> decide
  have htwo : sc.fault = .reorder → 2 ≤ sc.fixtures.length := by
    intro hfault
    rw [h.count, hfault]
    rfl
  have hflip : sc.fault = .tamperBody →
      ∀ fx ∈ sc.fixtures, ∃ flipped, flipOneByte (serialize fx.event) = .ok flipped := by
    intro hfault fx hfx
    have hone : sc.fixtures.length = 1 := by rw [h.count, hfault]; rfl
    obtain ⟨target, htarget⟩ := List.length_eq_one_iff.mp hone
    rw [htarget, List.mem_singleton] at hfx
    rw [hfault, htarget, ← hfx] at hplan
    exact flips_of_plan hplan
  obtain ⟨built', hplan', -, hfit, -⟩ := plan_sound labelSecret hdigest h.fixtures hne htwo
    hlabelled
    (fit_paramsFor sc.fault index) hflip
  obtain rfl : built' = built := Except.ok.inj (hplan'.symm.trans hplan)
  have hagain : ((defaultParams sc.fault).merge sc.params).Fit sc.fault := (hparams ▸ hfit).merge _
  obtain ⟨fp, hfp, hfault, -, hsound⟩ :=
    plan_sound secret hdigest h.fixtures hne htwo hnow hagain hflip
  exact ⟨fp, hfp, hfault, hsound⟩

end

end LedgerProof.Harness
