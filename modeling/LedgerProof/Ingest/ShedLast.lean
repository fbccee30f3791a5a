import LedgerProof.Ingest.Backpressure

/-!
# What sheds a tier

A request is shed when the level of the shedder is above its tier (`limits/shed.py`), and the level
goes up by one after `escalate_after` samples in a row whose target is above it.  `Heated` keeps,
for the samples that the middleware of `ingest/app.py` has taken, the row that is being counted and
one full row for every level below the present one; `Heated.observe` is the step lemma.

So every shed request has its reason among the samples (`shed_after_pressure`), and for the webhook,
the last tier, it is `escalate_after` samples in a row at or above the threshold of CRITICAL.
-/

namespace LedgerProof.Ingress

open Limits (Tier LoadShedder)

variable {π : Type} [LE π] [DecidableLE π]

/-- A pressure whose target is above a level. -/
def Reaches (fresh : LoadShedder π) (level : ℤ) (pressure : π) : Prop :=
  ∃ target, fresh.targetLevel pressure = .ok target ∧ level < target

/-- `escalate_after` samples in a row that reach beyond a level. -/
def Row (fresh : LoadShedder π) (level : ℤ) (samples : List π) : Prop :=
  ∃ before row after, samples = before ++ (row ++ after) ∧ (row.length : ℤ) = fresh.escalateAfter ∧
    ∀ pressure ∈ row, Reaches fresh level pressure

lemma Row.cons {fresh : LoadShedder π} {level : ℤ} {samples : List π} (h : Row fresh level samples)
    (pressure : π) : Row fresh level (pressure :: samples) := by
  obtain ⟨before, row, after, hsamples, hlength, hrow⟩ := h
  exact ⟨pressure :: before, row, after, by rw [hsamples, List.cons_append], hlength, hrow⟩

lemma Row.reverse {fresh : LoadShedder π} {level : ℤ} {samples : List π}
    (h : Row fresh level samples) :
    Row fresh level samples.reverse := by
  obtain ⟨before, row, after, hsamples, hlength, hrow⟩ := h
  refine ⟨after.reverse, row.reverse, before.reverse, ?_, ?_, fun pressure hpressure => ?_⟩
  · rw [hsamples, List.reverse_append, List.reverse_append, List.append_assoc]
  · rw [List.length_reverse, hlength]
  · exact hrow pressure (List.mem_reverse.mp hpressure)

lemma Reaches.critical {fresh : LoadShedder π} {pressure : π} (h : Reaches fresh 3 pressure) :
    ∃ threshold, fresh.thresholds.get? .critical = some threshold ∧ threshold ≤ pressure := by
  obtain ⟨target, htarget, hlt⟩ := h
  by_cases hcomplete : fresh.Complete
  · obtain ⟨x, hx⟩ := Option.isSome_iff_exists.mp (hcomplete .testMode)
    obtain ⟨y, hy⟩ := Option.isSome_iff_exists.mp (hcomplete .get)
    obtain ⟨z, hz⟩ := Option.isSome_iff_exists.mp (hcomplete .post)
    obtain ⟨w, hw⟩ := Option.isSome_iff_exists.mp (hcomplete .critical)
    refine ⟨w, hw, ?_⟩
    by_contra hbelow
    have htarget' : fresh.targetLevel pressure = .ok ((if x ≤ pressure then 1 else 0) +
        ((if y ≤ pressure then 1 else 0) + ((if z ≤ pressure then 1 else 0) + 0))) := by
      simp [LoadShedder.targetLevel, Tier.all, hx, hy, hz, hw, hbelow]
    rw [htarget', Except.ok.injEq] at htarget
    have hx' := LoadShedder.reached_mem (x ≤ pressure)
    have hy' := LoadShedder.reached_mem (y ≤ pressure)
    have hz' := LoadShedder.reached_mem (z ≤ pressure)
    omega
  · obtain ⟨e, he⟩ := LoadShedder.targetLevel_of_not_complete hcomplete pressure
    rw [he] at htarget
    simp at htarget

/-- The shedder and the samples it has taken, newest first. -/
structure Heated (fresh sh : LoadShedder π) (samples : List π) : Prop where
  thresholds : sh.thresholds = fresh.thresholds
  escalateAfter : sh.escalateAfter = fresh.escalateAfter
  enforce : sh.enforce = fresh.enforce
  enabled : sh.enabled = true
  hot : sh.hot < sh.escalateAfter
  row : ∃ row before, samples = row ++ before ∧ (row.length : ℤ) = sh.hot ∧
    ∀ pressure ∈ row, Reaches fresh sh.level pressure
  rows : ∀ level, 0 ≤ level → level < sh.level → Row fresh level samples
  idle : ¬sh.Complete → sh.hot = 0

variable {fresh sh : LoadShedder π} {samples : List π}

lemma Heated.shouldShed (h : Heated fresh sh samples) (tier : Tier) :
    Heated fresh (sh.shouldShed tier).2 samples := by
  rw [LoadShedder.shouldShed_snd, LoadShedder.foldl_bump_eq]
  exact ⟨h.thresholds, h.escalateAfter, h.enforce, h.enabled, h.hot, h.row, h.rows, h.idle⟩

/-- **One sample.** -/
lemma Heated.observe (h : Heated fresh sh samples) (pressure : π) :
    Heated fresh (sh.observe pressure).2 (pressure :: samples) := by
  obtain ⟨row, before, hsamples, hlength, hrow⟩ := h.row
  by_cases hcomplete : sh.Complete
  · obtain ⟨t, ht, -⟩ := LoadShedder.targetLevel_of_complete hcomplete pressure
    have hreach : fresh.targetLevel pressure = .ok t := by
      rw [← ht]
      simp only [LoadShedder.targetLevel, h.thresholds]
    have hhot := h.hot
    have hescalate := h.escalateAfter
    rw [LoadShedder.observe_of_target h.enabled ht]
    have hempty : ∀ level : ℤ, ∃ row before, pressure :: samples = row ++ before ∧
        (row.length : ℤ) = 0 ∧ ∀ p ∈ row, Reaches fresh level p :=
      fun level => ⟨[], pressure :: samples, rfl, rfl, by simp⟩
    have hpos : (0 : ℤ) < sh.escalateAfter := by omega
    have hrows : ∀ level, 0 ≤ level → level < sh.level → Row fresh level (pressure :: samples) :=
      fun level hlevel hlt => (h.rows level hlevel hlt).cons pressure
    unfold LoadShedder.follow
    by_cases hup : t > sh.level
    · have hmore : ∀ p ∈ pressure :: row, Reaches fresh sh.level p := by
        intro p hp
        rcases List.mem_cons.mp hp with rfl | hp
        · exact ⟨t, hreach, hup⟩
        · exact hrow p hp
      by_cases hfull : sh.hot + 1 ≥ sh.escalateAfter
      · simp only [hup, hfull, if_true]
        refine ⟨h.thresholds, h.escalateAfter, h.enforce, h.enabled, hpos, hempty _, ?_, fun _ =>
          rfl⟩
        intro level hlevel hlt
        by_cases hold : level < sh.level
        · exact hrows level hlevel hold
        · obtain rfl : level = sh.level := by dsimp only at hlt; omega
          refine ⟨[], pressure :: row, before, by rw [hsamples]; rfl, ?_, hmore⟩
          rw [List.length_cons]
          push_cast
          omega
      · simp only [hup, hfull, if_true, if_false]
        refine ⟨h.thresholds, h.escalateAfter, h.enforce, h.enabled, by dsimp only; omega,
          ⟨pressure :: row, before, by rw [hsamples]; rfl, ?_, hmore⟩, hrows, fun hnot =>
          absurd hcomplete hnot⟩
        rw [List.length_cons, ← hlength]
        push_cast
        rfl
    · by_cases hdown : t < sh.level
      · by_cases hfull : sh.calm + 1 ≥ sh.recoverAfter
        · simp only [hup, hdown, hfull, if_true, if_false]
          exact ⟨h.thresholds, h.escalateAfter, h.enforce, h.enabled, hpos, hempty _,
            fun level hlevel hlt => hrows level hlevel (by dsimp only at hlt; omega), fun _ => rfl⟩
        · simp only [hup, hdown, hfull, if_true, if_false]
          exact ⟨h.thresholds, h.escalateAfter, h.enforce, h.enabled, hpos, hempty _, hrows,
            fun _ => rfl⟩
      · simp only [hup, hdown, if_false]
        exact ⟨h.thresholds, h.escalateAfter, h.enforce, h.enabled, hpos, hempty _, hrows, fun _ =>
          rfl⟩
  · rw [LoadShedder.observe_of_idle pressure fun hdemand => hcomplete hdemand.2]
    exact ⟨h.thresholds, h.escalateAfter, h.enforce, h.enabled, h.hot,
      ⟨[], pressure :: samples, rfl, (h.idle hcomplete).symm, by simp⟩,
      fun level hlevel hlt => (h.rows level hlevel hlt).cons pressure, h.idle⟩

variable {κ σ : Type} {s : State π κ σ}

lemma Heated.sampled (h : Heated fresh sh samples) (a : Arrival π) :
    Heated fresh (State.sampled sh a) (a.pressure.toList ++ samples) := by
  unfold State.sampled
  cases a.pressure with
  | none => exact h
  | some pressure => exact h.observe pressure

/-- **One request.** -/
lemma Heated.backpressure (app : App κ σ) (hs : s.shedder = some sh) (h : Heated fresh sh samples)
    (a : Arrival π) :
    ∃ sh', (s.backpressure app a).2.shedder = some sh' ∧
      Heated fresh sh' (a.pressure.toList ++ samples) := by
  rw [(State.backpressure_frame app s a).2.1]
  obtain ⟨hnone, -⟩ | ⟨old, hsome, hnext | hnext⟩ := State.judge_shedder app s a
  · rw [hs] at hnone
    exact absurd hnone (by simp)
  · obtain rfl : sh = old := Option.some_inj.mp (hs.symm.trans hsome)
    exact ⟨_, hnext, h.sampled a⟩
  · obtain rfl : sh = old := Option.some_inj.mp (hs.symm.trans hsome)
    exact ⟨_, hnext, (h.sampled a).shouldShed _⟩

/-- **Any requests.** -/
lemma Heated.run (app : App κ σ) (hs : s.shedder = some sh) (h : Heated fresh sh samples)
    (arrivals : List (Arrival π)) :
    ∃ sh', (s.run app arrivals).2.shedder = some sh' ∧
      Heated fresh sh' ((arrivals.filterMap (·.pressure)).reverse ++ samples) := by
  induction arrivals generalizing s sh samples with
  | nil => exact ⟨sh, hs, h⟩
  | cons a as ih =>
      obtain ⟨sh', hs', h'⟩ := h.backpressure app hs a
      obtain ⟨last, hlast, hheated⟩ := ih hs' h'
      refine ⟨last, hlast, ?_⟩
      have hsamples : ((a :: as).filterMap (·.pressure)).reverse ++ samples =
          (as.filterMap (·.pressure)).reverse ++ (a.pressure.toList ++ samples) := by
        cases hpressure : a.pressure with
        | none => simp [hpressure]
        | some pressure => simp [hpressure]
      rw [hsamples]
      exact hheated

lemma Heated.start [Zero π] (thresholds : Dict Tier π) (enforce : Bool)
    (escalateAfter recoverAfter : ℤ) (hescalate : 1 ≤ escalateAfter) :
    Heated (.fresh thresholds enforce escalateAfter recoverAfter)
      (.fresh thresholds enforce escalateAfter recoverAfter) ([] : List π) where
  thresholds := rfl
  escalateAfter := rfl
  enforce := rfl
  enabled := rfl
  hot := by
    change 0 < escalateAfter
    omega
  row := ⟨[], [], rfl, rfl, by simp⟩
  rows level hlevel hlt := by
    change level < 0 at hlt
    omega
  idle _ := rfl

/-- **What is shed has been asked for.**  Whatever requests an application with a fresh shedder has
had, when the next one is shed the shedder enforces, and among the pressures sampled so far there
are `escalate_after` in a row that each reach more tiers than there are below the request's.  For
the webhook these are at or above the threshold of CRITICAL. -/
theorem shed_after_pressure {π κ σ : Type} [Zero π] [LE π] [DecidableLE π] (app : App κ σ)
    (thresholds : Dict Tier π) (enforce : Bool) (escalateAfter recoverAfter : ℤ)
    (hescalate : 1 ≤ escalateAfter) (s : State π κ σ)
    (hfresh : s.shedder = some (.fresh thresholds enforce escalateAfter recoverAfter))
    (earlier : List (Arrival π)) (a : Arrival π) (tier : Tier)
    (hshed : (((s.run app earlier).2.backpressure app a).1.verdict = .shed tier)) :
    enforce = true ∧ tier = classify a.request ∧
    ∃ before row after, (earlier ++ [a]).filterMap (·.pressure) = before ++ (row ++ after) ∧
      (row.length : ℤ) = escalateAfter ∧
      (∀ p ∈ row, ∃ target,
        (LoadShedder.fresh thresholds enforce escalateAfter recoverAfter).targetLevel p =
          .ok target ∧ tier.toInt < target) ∧
      (tier = .critical → ∀ p ∈ row, ∃ threshold, thresholds.get? .critical = some threshold ∧
        threshold ≤ p) := by
  obtain ⟨sh, hsh, hheated⟩ := (Heated.start thresholds enforce escalateAfter recoverAfter
    hescalate).run
    app hfresh earlier
  rw [(State.backpressure_frame app _ a).1] at hshed
  obtain ⟨htier, sh', hsh', hdecision⟩ := (State.judge_shed app _ a).1 tier hshed
  obtain rfl : sh = sh' := Option.some_inj.mp (hsh.symm.trans hsh')
  have hsampled := hheated.sampled a
  rw [LoadShedder.shouldShed_fst] at hdecision
  simp only [Bool.and_eq_true, decide_eq_true_eq] at hdecision
  obtain ⟨⟨-, henforce⟩, hlevel⟩ := hdecision
  have hpos : 0 ≤ tier.toInt := by cases tier <;> decide
  obtain ⟨before, row, after, hsamples, hlength, hrow⟩ :=
    (hsampled.rows tier.toInt hpos hlevel).reverse
  refine ⟨hsampled.enforce.symm.trans henforce, htier, before, row, after, ?_, hlength, hrow, ?_⟩
  · rw [← hsamples]
    cases hpressure : a.pressure with
    | none => simp [hpressure]
    | some pressure => simp [hpressure]
  · rintro rfl p hp
    exact (hrow p hp : Reaches _ 3 p).critical

/-- An application that is nothing but its middleware. -/
def hollow : App Unit Unit where
  check := none
  callNext _ s := (.ok (jsonResponse "status" "ok" 200), s)

/-- A delivery from the platform, at full pressure. -/
def delivery : Arrival ℚ where
  request := ⟨none, "POST", "/webhook", some "10.0.0.1", "", []⟩
  pressure := some 1

/-- A hollow application with the default thresholds, enforced. -/
def guarded : State ℚ Unit Unit where
  shedder := some (.fresh Limits.defaultThresholds true 2 5)
  limiter := ()
  backend := ()
  shed _ := 0
  rateLimited _ := 0
  events _ := 0

/-- The eighth delivery at full pressure is the first that is shed, and the last two samples are
why. -/
theorem shed_after_pressure_eighth :
    (((guarded.run hollow (List.replicate 6 delivery)).2.backpressure hollow delivery).1.verdict =
      .passed) ∧
      ∃ before row after, (List.replicate 7 delivery ++ [delivery]).filterMap (·.pressure) =
          before ++ (row ++ after) ∧ (row.length : ℤ) = 2 ∧
        ∀ p ∈ row, ∃ threshold, Limits.defaultThresholds.get? .critical = some threshold ∧
          threshold ≤ p := by
  refine ⟨by decide +kernel, ?_⟩
  obtain ⟨-, -, before, row, after, hsamples, hlength, -, hcritical⟩ :=
    shed_after_pressure hollow Limits.defaultThresholds true 2 5 (by decide) guarded rfl
      (List.replicate 7 delivery) delivery .critical (by decide +kernel)
  exact ⟨before, row, after, hsamples, hlength, hcritical rfl⟩

end LedgerProof.Ingress
