import LedgerProof.Lib.Dict
import LedgerProof.Limits.Bucket

/-!
# The Retry-After header

`Decision.headers` rounds `retry_after_s` up to whole seconds as
`max(1, int(retry_after_s + 0.999))`.  Adding 0.999 is not a ceiling: a wait that is over a whole
number of seconds by less than a millisecond is rounded down, and the client that comes back then is
denied once more (`denied_after_retry_after`).  For one denial `RoundsUp` says when the header is
enough, and over all of them it is enough exactly for the limiters whose emission interval is at
most one second (`retry_after_enough_iff`).
-/

namespace LedgerProof.Gcra

/-- `int(x)`: the fraction is dropped. -/
def truncate (x : ℚ) : ℤ := if 0 ≤ x then ⌊x⌋ else ⌈x⌉

namespace Decision

/-- The whole seconds in the `Retry-After` header. -/
def retryAfter (d : Decision) : ℤ := max 1 (truncate (d.retryAfterS + 999 / 1000))

/-- `headers`. -/
def headers (d : Decision) : Dict String String :=
  let out := (Dict.empty.set "RateLimit-Limit" (toString d.limit)).set "RateLimit-Remaining"
    (toString (max 0 d.remaining))
  if !d.allowed then out.set "Retry-After" (toString d.retryAfter) else out

/-- The header is there exactly for a denial, and carries the whole seconds. -/
lemma headers_retryAfter (d : Decision) :
    d.headers.get? "Retry-After" = if d.allowed then none else some (toString d.retryAfter) := by
  unfold headers
  cases d.allowed <;> simp [Dict.get?_set]

end Decision

/-- A wait that the header rounds up: at most a second, whole, or over a whole number of seconds by
a millisecond or more. -/
def RoundsUp (wait : ℚ) : Prop := wait ≤ 1 ∨ Int.fract wait = 0 ∨ 1 / 1000 ≤ Int.fract wait

lemma truncate_add {wait : ℚ} (h : 0 < wait) :
    truncate (wait + 999 / 1000) = ⌊wait⌋ + if 1 / 1000 ≤ Int.fract wait then 1 else 0 := by
  have hsplit : wait + 999 / 1000 = (⌊wait⌋ : ℚ) + (Int.fract wait + 999 / 1000) := by
    rw [← add_assoc, Int.floor_add_fract]
  have hfract := Int.fract_lt_one wait
  have hnonneg := Int.fract_nonneg wait
  rw [truncate, if_pos (by linarith), hsplit, Int.floor_intCast_add]
  congr 1
  by_cases hover : 1 / 1000 ≤ Int.fract wait
  · rw [if_pos hover, Int.floor_eq_iff]
    push_cast
    constructor <;> linarith
  · rw [if_neg hover, Int.floor_eq_iff]
    push_cast
    constructor <;> linarith

/-- **When rounding is rounding up.** -/
lemma le_rounded_iff {wait : ℚ} (h : 0 < wait) :
    wait ≤ (max 1 (truncate (wait + 999 / 1000)) : ℤ) ↔ RoundsUp wait := by
  have hwhole := Int.floor_add_fract wait
  have hfract := Int.fract_lt_one wait
  have hnonneg := Int.fract_nonneg wait
  rw [truncate_add h, Int.cast_max, le_max_iff, Int.cast_one, RoundsUp]
  refine or_congr_right ?_
  by_cases hover : 1 / 1000 ≤ Int.fract wait
  · rw [if_pos hover]
    push_cast
    simp only [hover, or_true, iff_true]
    linarith
  · rw [if_neg hover]
    push_cast
    simp only [hover, or_false]
    constructor
    · intro hle
      linarith
    · intro hzero
      linarith

/-- A wait that is over one second by less than a millisecond is rounded down. -/
lemma not_roundsUp {wait : ℚ} (hover : 1 < wait) (hshort : wait ≤ 2001 / 2000) :
    ¬RoundsUp wait := by
  have hfloor : ⌊wait⌋ = 1 := by
    rw [Int.floor_eq_iff]
    push_cast
    constructor <;> linarith
  have hfract : Int.fract wait = wait - 1 := by
    rw [← Int.self_sub_floor, hfloor, Int.cast_one]
  rintro (h | h | h)
  · linarith
  · linarith
  · linarith

namespace Limiter

variable {g : Limiter}

/-- How far the admission test is from passing: the TAT that is stored, less the tolerance, less the
time. -/
def wait (g : Limiter) (key : Option Key) (now : ℚ) : ℚ :=
  (live key now).getD now - g.tolerance - now

lemma retryAfterS_eq_wait {key : Option Key} {now : ℚ} (h : (g.checkAt key now).1.allowed = false) :
    (g.checkAt key now).1.retryAfterS = g.wait key now := by
  unfold checkAt respond at h ⊢
  by_cases hdenied : now < (live key now).getD now - g.tolerance
  · simp only [hdenied, if_true]
    rfl
  · simp [hdenied] at h

/-! ## A burst at one instant -/

/-- Checks at one instant take a token each. -/
lemma tokens_tatAfter_replicate (n : ℚ) {k : ℕ} (h : k ≤ g.burst) :
    g.tokens (g.tatAfter none (List.replicate k n)) n = g.burst - k := by
  induction k with
  | zero =>
      rw [List.replicate_zero, Nat.cast_zero, sub_zero]
      exact tokens_none
  | succ k ih =>
      have hbefore := ih (by omega)
      have hone : 1 ≤ g.tokens (g.tatAfter none (List.replicate k n)) n := by
        have hroom : ((k + 1 : ℕ) : ℚ) ≤ g.burst := by exact_mod_cast h
        rw [hbefore]
        push_cast at hroom
        linarith
      rw [List.replicate_succ', tatAfter_append, checkForever_admitted (one_le_tokens_iff.mp hone),
        tokens_admitted, hbefore]
      push_cast
      ring

/-- The whole burst at one instant takes the TAT one interval beyond the tolerance. -/
lemma tatAfter_burst (n : ℚ) : g.tatAfter none (List.replicate g.burst n) =
    some (n + g.tolerance + g.emissionInterval) := by
  have hT := g.emissionInterval_pos
  have hburst : (1 : ℚ) ≤ g.burst := by exact_mod_cast g.burst_pos
  have hempty := tokens_tatAfter_replicate (g := g) n le_rfl
  rw [sub_self] at hempty
  cases htat : g.tatAfter none (List.replicate g.burst n) with
  | none =>
      rw [htat, tokens_none] at hempty
      linarith
  | some v =>
      -- no token is left, so the TAT is ahead by the whole burst
      rw [htat, tokens, Option.getD_some, sub_eq_zero, eq_div_iff hT.ne'] at hempty
      have hahead : 0 < max 0 (v - n) := by
        rw [← hempty]
        exact mul_pos (by linarith) hT
      have hpos : 0 < v - n := (lt_max_iff.mp hahead).resolve_left (lt_irrefl 0)
      rw [max_eq_right hpos.le] at hempty
      rw [tolerance, Option.some_inj]
      linarith

/-- After a burst at zero, a check within the next interval is denied, and waits for its end. -/
lemma checkAt_burst {now : ℚ} (h : now < g.emissionInterval) :
    (g.checkAt (g.keyAfter none (List.replicate g.burst 0)) now).1 =
      ⟨false, g.rate, 0, g.emissionInterval - now, "rate_limited"⟩ := by
  rw [(g.follows_checkAt _ now).1, tatAfter_burst, checkForever_denied]
  · simp only [Option.getD_some]
    congr 1
    ring
  · rw [Option.getD_some]
    linarith

lemma sorted_burst {now : ℚ} (h : 0 ≤ now) :
    (List.replicate g.burst (0 : ℚ) ++ [now]).Pairwise (· ≤ ·) := by
  refine List.pairwise_append.mpr ⟨List.pairwise_replicate_of_refl, by simp, ?_⟩
  intro x hx y hy
  rw [List.eq_of_mem_replicate hx, List.mem_singleton.mp hy]
  exact h

lemma emissionInterval_le_one_iff : g.emissionInterval ≤ 1 ↔ g.period ≤ g.rate := by
  have hrate : (0 : ℚ) < g.rate := by exact_mod_cast g.rate_pos
  rw [emissionInterval, div_le_one hrate]

end Limiter

/-! ## When the header is enough -/

/-- Every denial after checks at non-decreasing times: a client that comes back after `Retry-After`
seconds, with no check between, is admitted. -/
def RetryAfterEnough (g : Limiter) : Prop :=
  ∀ nows now, (nows ++ [now]).Pairwise (· ≤ ·) →
    let denied := g.checkAt (g.keyAfter none nows) now
    denied.1.allowed = false →
      (g.checkAt denied.2 (now + denied.1.retryAfter)).1.allowed = true

lemma admitted_after_iff {g : Limiter} {nows : List ℚ} {now : ℚ}
    (hsorted : (nows ++ [now]).Pairwise (· ≤ ·))
    (hdenied : (g.checkAt (g.keyAfter none nows) now).1.allowed = false) :
    let denied := g.checkAt (g.keyAfter none nows) now
    denied.1.retryAfterS ≤ g.emissionInterval ∧
      ((g.checkAt denied.2 (now + denied.1.retryAfter)).1.allowed = true ↔
        RoundsUp denied.1.retryAfterS) ∧
      (denied.1.retryAfterS ≤ denied.1.retryAfter ↔ RoundsUp denied.1.retryAfterS) := by
  intro denied
  obtain ⟨-, hpos, hle, hlater⟩ := Limiter.forecast_denied hsorted hdenied
  have hrounded : denied.1.retryAfterS ≤ denied.1.retryAfter ↔ RoundsUp denied.1.retryAfterS :=
    le_rounded_iff hpos
  have hone : (1 : ℚ) ≤ denied.1.retryAfter := by exact_mod_cast le_max_left _ _
  refine ⟨hle, ?_, hrounded⟩
  rw [← hrounded, hlater _ (by linarith), add_sub_cancel_left]

/-- With an interval over a second, a check that is denied for one second and a little more is told
to come back too early. -/
lemma not_retryAfterEnough {g : Limiter} (h : 1 < g.emissionInterval) : ¬RetryAfterEnough g := by
  intro henough
  have hover : 1 < min g.emissionInterval (2001 / 2000) := lt_min h (by norm_num)
  have hshort := min_le_right g.emissionInterval (2001 / 2000)
  have hwithin := min_le_left g.emissionInterval (2001 / 2000)
  generalize min g.emissionInterval (2001 / 2000) = wait at hover hshort hwithin
  have hearly : g.emissionInterval - wait < g.emissionInterval := by linarith
  have hchecked := Limiter.checkAt_burst hearly
  have hsorted := Limiter.sorted_burst (g := g) (sub_nonneg.mpr hwithin)
  have hdenied := congrArg Decision.allowed hchecked
  have hrounds := (admitted_after_iff hsorted hdenied).2.1.mp (henough _ _ hsorted hdenied)
  rw [hchecked] at hrounds
  dsimp only at hrounds
  rw [sub_sub_cancel] at hrounds
  exact not_roundsUp hover hshort hrounds

/-- With an interval of at most a second no denial asks for more. -/
lemma retryAfterEnough_of_le {g : Limiter} (h : g.emissionInterval ≤ 1) : RetryAfterEnough g := by
  intro nows now hsorted denied hdenied
  obtain ⟨hle, hiff, -⟩ := admitted_after_iff hsorted hdenied
  exact hiff.mpr (.inl (hle.trans h))

/-- **When honouring `Retry-After` is enough.**  After one denial it is when the wait is rounded up;
and for every denial of a limiter when its emission interval is at most a second, and not
otherwise. -/
theorem retry_after_enough_iff (g : Limiter) :
    (∀ nows now, (nows ++ [now]).Pairwise (· ≤ ·) →
      let denied := g.checkAt (g.keyAfter none nows) now
      denied.1.allowed = false →
        ((g.checkAt denied.2 (now + denied.1.retryAfter)).1.allowed = true ↔
          RoundsUp (g.wait (g.keyAfter none nows) now)) ∧
        (denied.1.retryAfterS ≤ denied.1.retryAfter ↔
          RoundsUp (g.wait (g.keyAfter none nows) now))) ∧
    (RetryAfterEnough g ↔ g.period ≤ g.rate) := by
  refine ⟨?_, ?_⟩
  · intro nows now hsorted denied hdenied
    rw [← Limiter.retryAfterS_eq_wait hdenied]
    exact (admitted_after_iff hsorted hdenied).2
  · rw [← Limiter.emissionInterval_le_one_iff]
    refine ⟨fun henough => ?_, retryAfterEnough_of_le⟩
    by_contra hlong
    exact not_retryAfterEnough (not_le.mp hlong) henough

/-- One request every 1.0005 seconds. -/
def slow : Limiter := ⟨1, 2001 / 2000, 1, Nat.one_pos, by decide +kernel, Nat.one_pos⟩

/-- Two checks at zero: the second is denied for 1.0005 seconds, is told to come back after one, and
is denied again. -/
theorem denied_after_retry_after :
    let denied := slow.checkAt (slow.keyAfter none [0]) 0
    denied.1 = ⟨false, 1, 0, 2001 / 2000, "rate_limited"⟩ ∧
      denied.1.headers.get? "Retry-After" = some "1" ∧
      (slow.checkAt denied.2 1).1.allowed = false ∧ ¬RetryAfterEnough slow := by
  refine ⟨by decide +kernel, by decide +kernel, by decide +kernel, fun henough => ?_⟩
  have hadmitted := henough [0] 0 (by decide +kernel) (by decide +kernel)
  revert hadmitted
  decide +kernel

end LedgerProof.Gcra
