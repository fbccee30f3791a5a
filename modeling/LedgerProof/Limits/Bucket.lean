import LedgerProof.Lib.TokenBucket
import LedgerProof.Limits.Gcra

/-!
# The limiter as a token bucket

A stored TAT stands for the tokens of a bucket of capacity `burst` that gains one every emission
interval: `burst` less the number of intervals by which the TAT is ahead of the clock
(`Limiter.tokens`).  `check_levelAt` is the simulation step, and `gcra_token_bucket` reads the
bucket's laws off it.  The numbers in a `Decision` are then facts about the bucket: `remaining` is
the number of whole tokens, and `retry_after_s` the time until there is one (`exact_forecast`).
-/

namespace LedgerProof.Gcra

namespace Limiter

/-- The bucket that the limiter stands for. -/
def bucket (g : Limiter) : TokenBucket ℚ :=
  ⟨g.burst, g.emissionInterval, Nat.cast_nonneg _, g.emissionInterval_pos⟩

/-- The tokens that a stored TAT stands for. -/
def tokens (g : Limiter) (tat : Option ℚ) (t : ℚ) : ℚ :=
  g.burst - max 0 (tat.getD t - t) / g.emissionInterval

def levelAt (g : Limiter) (tat : Option ℚ) (t : ℚ) : TokenBucket.Level ℚ := ⟨g.tokens tat t, t⟩

variable {g : Limiter} {tat : Option ℚ} {t now : ℚ}

/-! ## The simulation -/

lemma tokens_none : g.tokens none t = g.burst := by simp [tokens]

lemma levelAt_none : g.levelAt none t = g.bucket.full t := by
  rw [levelAt, tokens_none]
  rfl

lemma tokens_le : g.tokens tat t ≤ g.burst :=
  sub_le_self _ (div_nonneg (le_max_left _ _) g.emissionInterval_pos.le)

/-- Tokens flow in, up to the capacity. -/
lemma refill_levelAt (h : t ≤ now) : g.bucket.refill (g.levelAt tat t) now = g.tokens tat now := by
  have hT := g.emissionInterval_pos
  have hflow : 0 ≤ (now - t) / g.emissionInterval := div_nonneg (sub_nonneg.mpr h) hT.le
  cases tat with
  | none =>
      have hfull : (g.burst : ℚ) ≤ g.burst + (now - t) / g.emissionInterval := by linarith
      simp only [TokenBucket.refill, levelAt, tokens_none, bucket, min_eq_left hfull]
  | some v =>
      simp only [TokenBucket.refill, levelAt, tokens, bucket, Option.getD_some]
      rcases le_or_gt v t with hv | hv
      · -- a TAT in the past is a full bucket
        rw [max_eq_left (by linarith), max_eq_left (by linarith), zero_div, sub_zero]
        exact min_eq_left (by linarith)
      · rw [max_eq_right (by linarith : 0 ≤ v - t)]
        have hsplit : (g.burst : ℚ) - (v - t) / g.emissionInterval + (now - t) /
            g.emissionInterval =
            g.burst - (v - now) / g.emissionInterval := by
          field_simp
          ring
        rw [hsplit]
        rcases le_or_gt v now with hvn | hvn
        · have hpast : (v - now) / g.emissionInterval ≤ 0 :=
            div_nonpos_of_nonpos_of_nonneg (by linarith) hT.le
          rw [max_eq_left (by linarith), zero_div, sub_zero]
          exact min_eq_left (by linarith)
        · have hahead : 0 ≤ (v - now) / g.emissionInterval := div_nonneg (by linarith) hT.le
          rw [max_eq_right (by linarith)]
          exact min_eq_right (by linarith)

lemma tokens_mono (h : t ≤ now) : g.tokens tat t ≤ g.tokens tat now := by
  rw [← refill_levelAt h]
  have hflow : 0 ≤ (now - t) / g.emissionInterval :=
    div_nonneg (sub_nonneg.mpr h) g.emissionInterval_pos.le
  refine le_min tokens_le ?_
  show g.tokens tat t ≤ g.tokens tat t + (now - t) / g.emissionInterval
  linarith

/-- **The admission test asks for a whole token.** -/
lemma one_le_tokens_iff : 1 ≤ g.tokens tat now ↔ ¬now < tat.getD now - g.tolerance := by
  have hT := g.emissionInterval_pos
  have htol := g.tolerance_nonneg
  have hstep : 1 ≤ g.tokens tat now ↔ max 0 (tat.getD now - now) ≤ g.tolerance := by
    rw [tokens, le_sub_comm, div_le_iff₀ hT, tolerance, mul_comm]
  rw [hstep, max_le_iff, not_lt]
  constructor
  · rintro ⟨-, h⟩
    linarith
  · intro h
    exact ⟨htol, by linarith⟩

/-- **An admission takes one token.** -/
lemma tokens_admitted : g.tokens (some (max now (tat.getD now) + g.emissionInterval)) now =
    g.tokens tat now - 1 := by
  have hT := g.emissionInterval_pos
  have hahead : max now (tat.getD now) + g.emissionInterval - now =
      max 0 (tat.getD now - now) + g.emissionInterval := by
    have hshift := max_sub_sub_right now (tat.getD now) now
    rw [sub_self] at hshift
    linarith
  have hpos : 0 ≤ max 0 (tat.getD now - now) + g.emissionInterval :=
    add_nonneg (le_max_left _ _) hT.le
  rw [tokens, Option.getD_some, hahead, max_eq_right hpos, add_div, div_self hT.ne', tokens]
  ring

lemma checkForever_denied (h : now < tat.getD now - g.tolerance) : g.checkForever tat now =
    (⟨false, g.rate, 0, tat.getD now - g.tolerance - now, "rate_limited"⟩, tat) := by
  simp only [checkForever, respond, h, if_true]

lemma checkForever_admitted (h : ¬now < tat.getD now - g.tolerance) : g.checkForever tat now =
    (⟨true, g.rate, g.remaining now (max now (tat.getD now) + g.emissionInterval), 0, ""⟩,
      some (max now (tat.getD now) + g.emissionInterval)) := by
  simp only [checkForever, respond, h, if_false]

/-- **One check of the limiter is one check of the bucket.** -/
lemma check_levelAt (h : t ≤ now) : g.bucket.check (g.levelAt tat t) now =
    ((g.checkForever tat now).1.allowed, g.levelAt (g.checkForever tat now).2 now) := by
  rw [TokenBucket.check, refill_levelAt h]
  by_cases hdenied : now < tat.getD now - g.tolerance
  · have htokens : ¬1 ≤ g.tokens tat now := fun h => one_le_tokens_iff.mp h hdenied
    rw [if_neg htokens, checkForever_denied hdenied]
    rfl
  · have htokens : 1 ≤ g.tokens tat now := one_le_tokens_iff.mpr hdenied
    rw [if_pos htokens, checkForever_admitted hdenied, ← tokens_admitted]
    rfl

lemma decisions_levelAt {nows : List ℚ} (h : (t :: nows).Pairwise (· ≤ ·)) :
    g.bucket.decisions (g.levelAt tat t) nows = (g.serialForever tat nows).map (·.allowed) := by
  induction nows generalizing tat t with
  | nil => rfl
  | cons now nows ih =>
      obtain ⟨hfirst, hrest⟩ := List.pairwise_cons.mp h
      rw [TokenBucket.decisions, check_levelAt (hfirst now (by simp)), serialForever, List.map_cons,
        ih hrest]

/-! ## Deleting denied checks -/

lemma checkAt_denied {key : Option Key} (h : (g.checkAt key now).1.allowed = false) :
    (g.checkAt key now).2 = key := by
  unfold checkAt respond at h ⊢
  by_cases hdenied : now < (live key now).getD now - g.tolerance
  · simp only [hdenied, if_true]
  · simp [hdenied] at h

/-- A denied check leaves nothing behind.  The checks that are marked are the deleted ones. -/
lemma serial_delete {key : Option Key} (checks : List (ℚ × Bool))
    (h : ∀ x ∈ checks.zip (g.serial key (checks.map (·.1))), x.1.2 = true → x.2.allowed = false) :
    g.serial key ((checks.filter fun x => !x.2).map (·.1)) =
      ((checks.zip (g.serial key (checks.map (·.1)))).filter fun x => !x.1.2).map (·.2) := by
  induction checks generalizing key with
  | nil => rfl
  | cons check checks ih =>
      obtain ⟨now, deleted⟩ := check
      simp only [List.map_cons, serial, List.zip_cons_cons, List.forall_mem_cons] at h ⊢
      obtain ⟨hhead, hrest⟩ := h
      have hih := ih hrest
      cases deleted with
      | true =>
          have hkey := checkAt_denied (hhead rfl)
          rw [hkey] at hih ⊢
          simpa using hih
      | false => simpa [serial] using hih

/-! ## Whole sequences -/

section Cold

variable {nows : List ℚ}

/-- From a cold key the limiter decides as its bucket does when full. -/
lemma decisions_full (h : (t :: nows).Pairwise (· ≤ ·)) :
    g.bucket.decisions (g.bucket.full t) nows = (g.serial none nows).map (·.allowed) := by
  rw [serial_eq_serialForever follows_none, ← levelAt_none, decisions_levelAt h]

/-- The checks of a closed window that were admitted. -/
def admittedIn (g : Limiter) (nows : List ℚ) (a c : ℚ) : ℕ :=
  (nows.zip (g.serial none nows)).countP fun x => x.2.allowed && decide (a ≤ x.1 ∧ x.1 ≤ c)

lemma admittedIn_eq (a c : ℚ) : g.admittedIn nows a c =
    TokenBucket.countWhere (fun n => decide (a ≤ n ∧ n ≤ c)) nows
      ((g.serial none nows).map (·.allowed)) := by
  rw [admittedIn, TokenBucket.countWhere, List.zip_map_right, List.countP_map]
  rfl

lemma admittedIn_le (hsorted : nows.Pairwise (· ≤ ·)) (a : ℚ) {w : ℚ} (hw : 0 ≤ w) :
    g.admittedIn nows a (a + w) ≤ ⌊w / g.emissionInterval⌋₊ + g.burst := by
  cases nows with
  | nil => simp [admittedIn]
  | cons n rest =>
      have hfrom : (n :: n :: rest).Pairwise (· ≤ ·) :=
        List.pairwise_cons.mpr ⟨fun x hx => TokenBucket.head_le hsorted hx, hsorted⟩
      have hwindow := TokenBucket.countIn_le (b := g.bucket) (s := g.bucket.full n)
        (by linarith : a ≤ a + w) hfrom g.bucket.capacity_nonneg
      rw [decisions_full hfrom, ← admittedIn_eq, add_sub_cancel_left] at hwindow
      change (_ : ℚ) ≤ g.burst + w / g.emissionInterval at hwindow
      by_cases hburst : g.admittedIn (n :: rest) a (a + w) ≤ g.burst
      · exact hburst.trans (Nat.le_add_left _ _)
      · have hexcess : g.admittedIn (n :: rest) a (a + w) - g.burst ≤
            ⌊w / g.emissionInterval⌋₊ := by
          refine Nat.le_floor ?_
          rw [Nat.cast_sub (not_le.mp hburst).le]
          linarith
        omega

end Cold

/-- After any check, the next ones at that instant are as many as there are whole tokens. -/
lemma countP_replicate (n : ℕ) :
    (g.serialForever tat (List.replicate n now)).countP (·.allowed) =
    min n ⌊g.tokens tat now⌋₊ := by
  have hsorted : (now :: List.replicate n now).Pairwise (· ≤ ·) := by
    rw [← List.replicate_succ]
    exact List.pairwise_replicate_of_refl
  have hcount := TokenBucket.count_replicate (b := g.bucket) (s := g.levelAt tat now) tokens_le n
  change List.count true (g.bucket.decisions (g.levelAt tat now) (List.replicate n now)) =
    _ at hcount
  rw [decisions_levelAt hsorted, List.count, List.countP_map] at hcount
  refine Eq.trans (List.countP_congr fun d _ => ?_) hcount
  simp

/-- **A cold key at one instant** admits no more than the burst. -/
lemma countP_serial_le {nows : List ℚ} (hnows : ∀ n ∈ nows, n = now) :
    (g.serial none nows).countP (·.allowed) ≤ g.burst := by
  rw [List.eq_replicate_iff.mpr ⟨rfl, hnows⟩, serial_eq_serialForever follows_none,
    countP_replicate, tokens_none, Nat.floor_natCast]
  exact min_le_right _ _

/-! ## The numbers in a decision -/

/-- `_remaining` counts whole tokens. -/
lemma remaining_eq (h : now ≤ t) : g.remaining now t = ⌊g.tokens (some t) now⌋₊ := by
  have hT := g.emissionInterval_pos
  have hvalue : (g.tolerance + g.emissionInterval - (t - now)) / g.emissionInterval =
      g.tokens (some t) now := by
    rw [tokens, Option.getD_some, max_eq_right (by linarith), tolerance]
    field_simp
    ring
  rw [remaining, if_neg (not_le.mpr hT), hvalue, Int.floor_toNat]

lemma remaining_checkForever :
    (g.checkForever tat now).1.remaining = ⌊g.tokens (g.checkForever tat now).2 now⌋₊ := by
  have hT := g.emissionInterval_pos
  by_cases hdenied : now < tat.getD now - g.tolerance
  · have htokens : g.tokens tat now < 1 := not_le.mp fun h => one_le_tokens_iff.mp h hdenied
    rw [checkForever_denied hdenied]
    exact (Nat.floor_eq_zero.mpr htokens).symm
  · rw [checkForever_admitted hdenied]
    exact remaining_eq ((le_max_left _ _).trans (by linarith))

/-- A TAT that serialized checks leave never runs ahead of the clock by more than the burst. -/
lemma tokens_tatAfter_nonneg {nows : List ℚ} (h : (nows ++ [now]).Pairwise (· ≤ ·)) :
    0 ≤ g.tokens (g.tatAfter none nows) now := by
  induction nows using List.reverseRecOn generalizing now with
  | nil =>
      rw [tatAfter, List.foldl_nil, tokens_none]
      exact Nat.cast_nonneg _
  | append_singleton nows last ih =>
      obtain ⟨hbefore, -, hlast⟩ := List.pairwise_append.mp h
      have hle : last ≤ now := hlast last (by simp) now (by simp)
      refine le_trans ?_ (tokens_mono hle)
      have hprev := ih hbefore
      rw [tatAfter_append]
      have hlevel : (g.bucket.check (g.levelAt (g.tatAfter none nows) last) last).2.tokens = _ :=
        congrArg (fun x => x.2.tokens) (check_levelAt le_rfl)
      simp only [TokenBucket.check, refill_levelAt le_rfl] at hlevel
      change _ = g.tokens (g.checkForever (g.tatAfter none nows) last).2 last at hlevel
      rw [← hlevel]
      by_cases hone : 1 ≤ g.tokens (g.tatAfter none nows) last
      · simp [hone]
      · simpa [hone] using hprev

/-- What a denial says, against the store that keeps the TAT. -/
lemma forecast_checkForever (hbound : 0 ≤ g.tokens tat now)
    (hdenied : (g.checkForever tat now).1.allowed = false) :
    (g.checkForever tat now).2 = tat ∧ (g.checkForever tat now).1.reason = "rate_limited" ∧
      0 < (g.checkForever tat now).1.retryAfterS ∧
      (g.checkForever tat now).1.retryAfterS ≤ g.emissionInterval ∧
      ∀ later, now ≤ later → ((g.checkForever tat later).1.allowed = true ↔
        (g.checkForever tat now).1.retryAfterS ≤ later - now) := by
  have hT := g.emissionInterval_pos
  have htol := g.tolerance_nonneg
  by_cases hahead : now < tat.getD now - g.tolerance
  · cases tat with
    | none =>
        rw [Option.getD_none] at hahead
        linarith
    | some v =>
        rw [checkForever_denied hahead]
        rw [Option.getD_some] at hahead
        refine ⟨rfl, rfl, sub_pos.mpr hahead, ?_, fun later hlater => ?_⟩
        · rw [tokens, Option.getD_some, max_eq_right (by linarith), sub_nonneg, div_le_iff₀ hT]
            at hbound
          rw [Option.getD_some, tolerance]
          linarith
        · -- the TAT has not moved, and the clock comes closer to it
          by_cases hstill : later < v - g.tolerance
          · rw [checkForever_denied hstill]
            simp only [Bool.false_eq_true, Option.getD_some, false_iff]
            linarith
          · rw [checkForever_admitted hstill]
            simp only [Option.getD_some, true_iff]
            linarith
  · rw [checkForever_admitted hahead] at hdenied
    simp at hdenied

lemma follows_checkAt (g : Limiter) (nows : List ℚ) (now : ℚ) :
    (g.checkAt (g.keyAfter none nows) now).1 = (g.checkForever (g.tatAfter none nows) now).1 ∧
      Follows (g.checkAt (g.keyAfter none nows) now).2
        (g.checkForever (g.tatAfter none nows) now).2 :=
  (Follows.keyAfter (show Follows none none from trivial) nows).checkAt now

/-- **What a denial says**, and when the next check is admitted. -/
lemma forecast_denied {nows : List ℚ} (hsorted : (nows ++ [now]).Pairwise (· ≤ ·))
    (hdenied : (g.checkAt (g.keyAfter none nows) now).1.allowed = false) :
    (g.checkAt (g.keyAfter none nows) now).1.reason = "rate_limited" ∧
      0 < (g.checkAt (g.keyAfter none nows) now).1.retryAfterS ∧
      (g.checkAt (g.keyAfter none nows) now).1.retryAfterS ≤ g.emissionInterval ∧
      ∀ later, now ≤ later →
        ((g.checkAt (g.checkAt (g.keyAfter none nows) now).2 later).1.allowed = true ↔
          (g.checkAt (g.keyAfter none nows) now).1.retryAfterS ≤ later - now) := by
  obtain ⟨hdecision, hnext⟩ := g.follows_checkAt nows now
  rw [hdecision] at hdenied
  obtain ⟨hkeep, hreason, hpos, hle, hlater⟩ :=
    forecast_checkForever (tokens_tatAfter_nonneg hsorted) hdenied
  rw [hdecision]
  refine ⟨hreason, hpos, hle, fun later h => ?_⟩
  rw [← hlater later h, (hnext.checkAt (g := g) later).1, hkeep]

end Limiter

/-- **GCRA is a token bucket.**  Checks at non-decreasing times, from an absent key, are decided as
by a continuous bucket of capacity `burst` that is full at first and gains one token every emission
interval.  So a closed window of length `w` admits at most `⌊w / T⌋ + burst`, a cold key admits
exactly the burst at one instant, and deleting denied checks (those marked) changes no other
decision. -/
theorem gcra_token_bucket (g : Limiter) (nows : List ℚ) (hsorted : nows.Pairwise (· ≤ ·)) :
    (∀ t, (∀ now ∈ nows, t ≤ now) →
      (g.serial none nows).map (·.allowed) = g.bucket.decisions (g.bucket.full t) nows) ∧
    (∀ a w, 0 ≤ w → g.admittedIn nows a (a + w) ≤ ⌊w / g.emissionInterval⌋₊ + g.burst) ∧
    (∀ now n, (g.serial none (List.replicate n now)).countP (·.allowed) = min n g.burst) ∧
    (∀ checks : List (ℚ × Bool), checks.map (·.1) = nows →
      (∀ x ∈ checks.zip (g.serial none nows), x.1.2 = true → x.2.allowed = false) →
      g.serial none ((checks.filter fun x => !x.2).map (·.1)) =
        ((checks.zip (g.serial none nows)).filter fun x => !x.1.2).map (·.2)) := by
  refine ⟨fun t ht => ?_, fun a w hw => Limiter.admittedIn_le hsorted a hw, fun now n => ?_, ?_⟩
  · exact (Limiter.decisions_full (List.pairwise_cons.mpr ⟨ht, hsorted⟩)).symm
  · rw [Limiter.serial_eq_serialForever Limiter.follows_none, Limiter.countP_replicate,
      Limiter.tokens_none, Nat.floor_natCast]
  · rintro checks rfl hdenied
    exact Limiter.serial_delete checks hdenied

/-- Ten requests a second, three of them back to back. -/
def tenASecond : Limiter := ⟨10, 1, 3, by decide, by decide, by decide⟩

/-- The bucket has the three tokens, not four. -/
theorem gcra_token_bucket_three :
    tenASecond.bucket.decisions (tenASecond.bucket.full 0) [0, 0, 0, 0, 1 / 10] =
      [true, true, true, false, true] := by
  rw [← (gcra_token_bucket tenASecond [0, 0, 0, 0, 1 / 10] (by decide +kernel)).1 0
    (by decide +kernel)]
  decide +kernel

/-- **The numbers are exact forecasts.**  After checks at non-decreasing times, whatever a check at
`now` answers, exactly `remaining` of any further checks at that instant are admitted; and when it
is denied, a check with no other between is admitted from `retry_after_s` on and not before, which
is positive and at most one emission interval. -/
theorem exact_forecast (g : Limiter) (nows : List ℚ) (now : ℚ)
    (hsorted : (nows ++ [now]).Pairwise (· ≤ ·)) :
    let checked := g.checkAt (g.keyAfter none nows) now
    (∀ n, (g.serial checked.2 (List.replicate n now)).countP (·.allowed) =
      min n checked.1.remaining) ∧
    (checked.1.allowed = false →
      checked.1.reason = "rate_limited" ∧
      0 < checked.1.retryAfterS ∧ checked.1.retryAfterS ≤ g.emissionInterval ∧
      ∀ later, now ≤ later → ((g.checkAt checked.2 later).1.allowed = true ↔
        checked.1.retryAfterS ≤ later - now)) := by
  intro checked
  refine ⟨fun n => ?_, fun hdenied => Limiter.forecast_denied hsorted hdenied⟩
  obtain ⟨hdecision, hnext⟩ := g.follows_checkAt nows now
  rw [Limiter.serial_eq_serialForever hnext, Limiter.countP_replicate,
    ← Limiter.remaining_checkForever, ← hdecision]

/-- Three checks back to back, and a fourth half an interval later: denied, until the interval is
over. -/
theorem exact_forecast_denied :
    let denied := tenASecond.checkAt (tenASecond.keyAfter none [0, 0, 0]) (1 / 20)
    denied.1 = ⟨false, 10, 0, 1 / 20, "rate_limited"⟩ ∧
      ∀ later, 1 / 20 ≤ later →
        ((tenASecond.checkAt denied.2 later).1.allowed = true ↔ 1 / 20 ≤ later - 1 / 20) := by
  intro denied
  have hdenied : denied.1 = ⟨false, 10, 0, 1 / 20, "rate_limited"⟩ := by decide +kernel
  obtain ⟨-, hretry⟩ := exact_forecast tenASecond [0, 0, 0] (1 / 20) (by decide +kernel)
  obtain ⟨-, -, -, hlater⟩ := hretry (congrArg Decision.allowed hdenied)
  refine ⟨hdenied, fun later h => ?_⟩
  exact (hlater later h).trans (by rw [show Decision.retryAfterS _ = 1 / 20 from
    congrArg Decision.retryAfterS hdenied])

end LedgerProof.Gcra
