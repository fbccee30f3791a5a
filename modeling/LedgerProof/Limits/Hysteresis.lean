import LedgerProof.Lib.Hysteresis
import LedgerProof.Limits.Shed

/-!
# The anti-flap mechanism of the shedder

`LoadShedder.observe` is a hysteresis: `level`, `_hot` and `_calm` are its dial, a sample whose
target is known is a demand, and the kill switch is a reset.  `record` keeps what a sequence of
calls did to it, newest first, and `Tracks` is the simulation: the dial is one that the demands of
the record lead to.

While the shedder is disabled, and with a thresholds map that lacks a tier (every sample is then a
`KeyError`), the dial is at rest, so a sample that makes no demand is as good as a reset.
-/

namespace LedgerProof.Limits

/-- What a call did to the level, as it is recorded: a sample, with the level it found and the
target of its pressure, if that is defined; or the kill switch. -/
inductive Mark
  | observed (enabled : Bool) (level : ℤ) (target : Option ℤ)
  | disabled
  deriving DecidableEq

namespace Mark

/-- A sample that was taken while the shedder was enabled and at this level, with a target above
it. -/
def hotAt (l : ℤ) : Mark → Bool
  | .observed true level (some target) => decide (level = l ∧ l < target)
  | _ => false

/-- A sample that was taken while the shedder was enabled and at this level, with a target below
it. -/
def calmAt (l : ℤ) : Mark → Bool
  | .observed true level (some target) => decide (level = l ∧ target < l)
  | _ => false

/-- The demand that a sample makes. -/
def demand : Mark → Option Hysteresis.Demand
  | .observed true level (some target) => some ⟨level, target⟩
  | _ => none

lemma hotAt_demand (l : ℤ) (m : Mark) : Hysteresis.hotAt l m.demand = m.hotAt l := by
  rcases m with ⟨_ | _, level, _ | target⟩ | _ <;> rfl

lemma calmAt_demand (l : ℤ) (m : Mark) : Hysteresis.calmAt l m.demand = m.calmAt l := by
  rcases m with ⟨_ | _, level, _ | target⟩ | _ <;> rfl

end Mark

/-- A call of `observe`. -/
def Call.isObserve {π : Type} : Call π → Bool
  | .observe _ => true
  | _ => false

namespace LoadShedder

variable {π : Type}

/-- The level and the two counters. -/
def dial (s : LoadShedder π) : Hysteresis.Dial := ⟨s.level, s.hot, s.calm⟩

section Record

variable [LE π] [DecidableLE π]

/-- What a sample is recorded as. -/
def sample (s : LoadShedder π) (pressure : π) : Mark :=
  .observed s.enabled s.level (s.targetLevel pressure).toOption

/-- What a call is recorded as. -/
def mark (s : LoadShedder π) : Call π → Option Mark
  | .observe pressure => some (s.sample pressure)
  | .disable => some .disabled
  | .shouldShed _ => none
  | .enable => none

/-- The record of a sequence of calls, newest first. -/
def record (s : LoadShedder π) : List (Call π) → List Mark
  | [] => []
  | c :: cs => record (s.call c).2 cs ++ (s.mark c).toList

lemma record_append (s : LoadShedder π) (cs ds : List (Call π)) :
    s.record (cs ++ ds) = (s.after cs).record ds ++ s.record cs := by
  induction cs generalizing s with
  | nil => simp [record, after]
  | cons c cs ih =>
      rw [List.cons_append, record, ih, record, List.append_assoc]
      rfl

lemma after_append (s : LoadShedder π) (cs ds : List (Call π)) :
    s.after (cs ++ ds) = (s.after cs).after ds := List.foldl_append

lemma countP_demand_le (s : LoadShedder π) (cs : List (Call π)) :
    ((s.record cs).map Mark.demand).countP (·.isSome) ≤ cs.countP (·.isObserve) := by
  induction cs generalizing s with
  | nil => simp [record]
  | cons c cs ih =>
      have hrest := ih (s.call c).2
      rw [record, List.map_append, List.countP_append, List.countP_cons]
      cases c with
      | observe pressure =>
          have hone : List.countP (·.isSome) [(s.sample pressure).demand] ≤ 1 :=
            List.countP_le_length
          have hobserve : (Call.observe pressure).isObserve = true := rfl
          rw [if_pos hobserve]
          simp only [mark, Option.toList_some, List.map_cons, List.map_nil]
          omega
      | shouldShed tier => simpa [mark, Call.isObserve] using hrest
      | disable => simpa [mark, Call.isObserve, Mark.demand] using hrest
      | enable => simpa [mark, Call.isObserve] using hrest

/-! ## Targets -/

/-- Every tier has a threshold. -/
def Complete (s : LoadShedder π) : Prop := ∀ tier, (s.thresholds.get? tier).isSome

lemma reached_mem (p : Prop) [Decidable p] : 0 ≤ (if p then (1 : ℤ) else 0) ∧
    (if p then (1 : ℤ) else 0) ≤ 1 := by
  split <;> omega

/-- With every tier in the map there is a target, from zero to four. -/
lemma targetLevel_of_complete {s : LoadShedder π} (h : s.Complete) (pressure : π) :
    ∃ t, s.targetLevel pressure = .ok t ∧ 0 ≤ t ∧ t ≤ 4 := by
  obtain ⟨x, hx⟩ := Option.isSome_iff_exists.mp (h .testMode)
  obtain ⟨y, hy⟩ := Option.isSome_iff_exists.mp (h .get)
  obtain ⟨z, hz⟩ := Option.isSome_iff_exists.mp (h .post)
  obtain ⟨w, hw⟩ := Option.isSome_iff_exists.mp (h .critical)
  refine ⟨(if x ≤ pressure then 1 else 0) + ((if y ≤ pressure then 1 else 0) +
    ((if z ≤ pressure then 1 else 0) + (if w ≤ pressure then 1 else 0))), ?_, ?_⟩
  · simp [targetLevel, Tier.all, hx, hy, hz, hw]
  · have hx' := reached_mem (x ≤ pressure)
    have hy' := reached_mem (y ≤ pressure)
    have hz' := reached_mem (z ≤ pressure)
    have hw' := reached_mem (w ≤ pressure)
    omega

lemma targetLevel_of_not_complete {s : LoadShedder π} (h : ¬s.Complete) (pressure : π) :
    ∃ e, s.targetLevel pressure = .error e := by
  obtain ⟨tier, htier⟩ := not_forall.mp h
  have hmissing : s.thresholds.get? tier = none := by simpa using htier
  have hall : tier ∈ Tier.all := by cases tier <;> decide
  cases hlevel : s.targetLevel pressure with
  | error e => exact ⟨e, rfl⟩
  | ok t =>
      obtain ⟨reached, hreached, -⟩ := except_bind_eq_ok.mp hlevel
      obtain ⟨n, hn⟩ := except_mapM_ok hreached tier hall
      simp [hmissing] at hn

lemma targetLevel_mem {s : LoadShedder π} {pressure : π} {t : ℤ}
    (ht : s.targetLevel pressure = .ok t) : 0 ≤ t ∧ t ≤ 4 := by
  by_cases hcomplete : s.Complete
  · obtain ⟨t', ht', hbounds⟩ := targetLevel_of_complete hcomplete pressure
    obtain rfl : t' = t := by simpa [ht'] using ht
    exact hbounds
  · obtain ⟨e, he⟩ := targetLevel_of_not_complete hcomplete pressure
    simp [he] at ht

/-! ## What a sample does -/

omit [LE π] [DecidableLE π] in
lemma follow_frame (s : LoadShedder π) (t : ℤ) :
    (s.follow t).thresholds = s.thresholds ∧ (s.follow t).escalateAfter = s.escalateAfter ∧
      (s.follow t).recoverAfter = s.recoverAfter ∧ (s.follow t).enabled = s.enabled := by
  unfold follow
  by_cases hup : t > s.level
  · by_cases hrow : s.hot + 1 ≥ s.escalateAfter <;> simp [hup, hrow]
  · by_cases hdown : t < s.level
    · by_cases hrow : s.calm + 1 ≥ s.recoverAfter <;> simp [hup, hdown, hrow]
    · simp [hup, hdown]

omit [LE π] [DecidableLE π] in
/-- Following a target is a demand on the dial. -/
lemma dial_follow {c : Hysteresis} {s : LoadShedder π} (hup : s.escalateAfter = c.up)
    (hdown : s.recoverAfter = c.down) (t : ℤ) : (s.follow t).dial = c.follow s.dial t := by
  unfold follow Hysteresis.follow dial
  rw [← hup, ← hdown]
  by_cases hlt : s.level < t
  · by_cases hrow : s.escalateAfter ≤ s.hot + 1 <;> simp [hlt, hrow]
  · by_cases hgt : t < s.level
    · by_cases hrow : s.recoverAfter ≤ s.calm + 1 <;> simp [hlt, hgt, hrow]
    · simp [hlt, hgt]

lemma observe_of_target {s : LoadShedder π} {pressure : π} {t : ℤ} (hon : s.enabled = true)
    (ht : s.targetLevel pressure = .ok t) :
    (s.observe pressure).2 = ({ s with pressure := pressure } : LoadShedder π).follow t := by
  have htarget : targetLevel { s with pressure := pressure } pressure = .ok t := ht
  unfold observe
  simp only [hon, Bool.not_true, Bool.false_eq_true, if_false]
  rw [hon] at htarget
  rw [htarget]

lemma dial_observe {c : Hysteresis} {s : LoadShedder π} {pressure : π} {t : ℤ}
    (hup : s.escalateAfter = c.up) (hdown : s.recoverAfter = c.down) (hon : s.enabled = true)
    (ht : s.targetLevel pressure = .ok t) : (s.observe pressure).2.dial = c.follow s.dial t := by
  rw [observe_of_target hon ht]
  exact dial_follow (s := { s with pressure := pressure }) hup hdown t

/-- A sample without one only stores the pressure. -/
lemma observe_of_idle {s : LoadShedder π} (pressure : π) (h : ¬(s.enabled = true ∧ s.Complete)) :
    (s.observe pressure).2 = { s with pressure := pressure } := by
  unfold observe
  cases hon : s.enabled with
  | false => rfl
  | true =>
      obtain ⟨e, he⟩ := targetLevel_of_not_complete (fun hc => h ⟨hon, hc⟩) pressure
      have htarget : targetLevel { s with pressure := pressure } pressure = .error e := he
      rw [hon] at htarget
      simp only [Bool.not_true, Bool.false_eq_true, if_false, htarget]

/-! ## The simulation -/

/-- The dial of the shedder is one that the demands on record lead to. -/
structure Tracks (c : Hysteresis) (s : LoadShedder π) (h : List Mark) : Prop where
  up : s.escalateAfter = c.up
  down : s.recoverAfter = c.down
  reached : Hysteresis.Reached c s.dial (h.map Mark.demand)
  rest : s.enabled = false ∨ ¬s.Complete → s.dial = ⟨0, 0, 0⟩
  targets : ∀ d, some d ∈ h.map Mark.demand → 0 ≤ d.target ∧ d.target ≤ 4

namespace Tracks

variable {c : Hysteresis} {s : LoadShedder π} {h : List Mark}

lemma of_demand (hs : Tracks c s h) (hdemand : s.enabled = true ∧ s.Complete) (pressure : π) :
    ∃ t, s.targetLevel pressure = .ok t ∧ (0 ≤ t ∧ t ≤ 4) ∧
      (s.sample pressure).demand = some ⟨s.level, t⟩ ∧
      (s.observe pressure).2.dial = c.follow s.dial t := by
  obtain ⟨t, ht, hbounds⟩ := targetLevel_of_complete hdemand.2 pressure
  refine ⟨t, ht, hbounds, ?_, dial_observe hs.up hs.down hdemand.1 ht⟩
  rw [sample, hdemand.1, ht]
  rfl

/-- A sample that makes none finds the dial at rest. -/
lemma of_idle (hs : Tracks c s h) (hidle : ¬(s.enabled = true ∧ s.Complete)) (pressure : π) :
    (s.observe pressure).2.level = s.level ∧ (s.sample pressure).demand = none ∧
      (s.observe pressure).2.dial = ⟨0, 0, 0⟩ := by
  have hrest : s.dial = ⟨0, 0, 0⟩ := hs.rest (by
    rw [not_and_or, Bool.not_eq_true] at hidle
    exact hidle)
  rw [observe_of_idle pressure hidle]
  refine ⟨rfl, ?_, hrest⟩
  rw [sample]
  cases hon : s.enabled with
  | false => rfl
  | true =>
      obtain ⟨e, he⟩ := targetLevel_of_not_complete (fun hc => hidle ⟨hon, hc⟩) pressure
      rw [he]
      rfl

lemma call (hs : Tracks c s h) (a : Call π) :
    Tracks c (s.call a).2 ((s.mark a).toList ++ h) := by
  cases a with
  | observe pressure =>
      rw [call_observe]
      simp only [mark, Option.toList_some, List.singleton_append]
      by_cases hdemand : s.enabled = true ∧ s.Complete
      · obtain ⟨t, ht, hbounds, hmark, hdial⟩ := hs.of_demand hdemand pressure
        obtain ⟨hthresholds, hup, hdown, henabled⟩ :=
          follow_frame ({ s with pressure := pressure } : LoadShedder π) t
        rw [← observe_of_target hdemand.1 ht] at hthresholds hup hdown henabled
        refine ⟨hup.trans hs.up, hdown.trans hs.down, ?_, fun hrest => ?_, fun d hd => ?_⟩
        · rw [List.map_cons, hmark, hdial]
          exact hs.reached.follow t
        · -- still enabled, and with every threshold
          rcases hrest with hoff | hincomplete
          · exact absurd (henabled.symm.trans hoff) (by simp [hdemand.1])
          · exact absurd (fun tier => by rw [hthresholds]; exact hdemand.2 tier) hincomplete
        · rw [List.map_cons, hmark, List.mem_cons, Option.some_inj] at hd
          rcases hd with rfl | hd
          · exact hbounds
          · exact hs.targets d hd
      · obtain ⟨-, hmark, hdial⟩ := hs.of_idle hdemand pressure
        rw [observe_of_idle pressure hdemand] at hdial ⊢
        refine ⟨hs.up, hs.down, ?_, fun _ => hdial, fun d hd => hs.targets d ?_⟩
        · rw [List.map_cons, hmark, hdial]
          exact .reset hs.reached
        · simpa [hmark] using hd
  | shouldShed tier =>
      have hframe : (s.shouldShed tier).2 = { s with counts := (s.shouldShed tier).2.counts } := by
        rw [shouldShed_snd]
        exact foldl_bump_eq _ s tier
      show Tracks c (s.shouldShed tier).2 h
      rw [hframe]
      exact ⟨hs.up, hs.down, hs.reached, hs.rest, hs.targets⟩
  | disable =>
      refine ⟨hs.up, hs.down, .reset hs.reached, fun _ => rfl, fun d hd => hs.targets d ?_⟩
      simpa [mark, Mark.demand] using hd
  | enable =>
      refine ⟨hs.up, hs.down, hs.reached, fun hrest => hs.rest ?_, hs.targets⟩
      rcases hrest with hoff | hincomplete
      · exact absurd hoff (by simp [enable, LoadShedder.call])
      · exact .inr hincomplete

/-- Every sequence of calls on a fresh shedder is tracked. -/
lemma after [Zero π] (c : Hysteresis) (thresholds : Dict Tier π) (enforce : Bool)
    (calls : List (Call π)) :
    Tracks c ((fresh thresholds enforce c.up c.down).after calls)
      ((fresh thresholds enforce c.up c.down).record calls) := by
  induction calls using List.reverseRecOn with
  | nil => exact ⟨rfl, rfl, .rest, fun _ => rfl, by simp [record]⟩
  | append_singleton calls call ih =>
      rw [record_append, after_append]
      simpa [record, LoadShedder.after] using ih.call call

/-- A move of the dial that is earned by a row of demands is one of the shedder that is earned by a
row of samples. -/
lemma move_iff (hs : Tracks c s h) {n level : ℤ} (hn : 1 ≤ n) (hmoved : level ≠ s.level)
    {p : Option Hysteresis.Demand → Bool} {q : Mark → Bool} (hnone : p none = false)
    (hq : ∀ m : Mark, p m.demand = q m)
    (hdial : ∀ t, (c.follow s.dial t).level = level ↔
      Hysteresis.InARow n p (some ⟨s.level, t⟩ :: h.map Mark.demand)) (pressure : π) :
    (s.observe pressure).2.level = level ↔
      Hysteresis.InARow n q (s.sample pressure :: h) := by
  rw [← Hysteresis.inARow_map fun m _ => hq m, List.map_cons]
  by_cases hdemand : s.enabled = true ∧ s.Complete
  · obtain ⟨t, -, -, hmark, hfollow⟩ := hs.of_demand hdemand pressure
    rw [hmark, ← hdial, ← hfollow]
    rfl
  · obtain ⟨hkeep, hmark, -⟩ := hs.of_idle hdemand pressure
    rw [hkeep, hmark, Hysteresis.inARow_iff, List.takeWhile_cons_of_neg (by simp [hnone])]
    simp only [List.length_nil, Nat.cast_zero]
    omega

lemma raise_iff (hs : Tracks c s h) (pressure : π) :
    (s.observe pressure).2.level = s.level + 1 ↔
      Hysteresis.InARow s.escalateAfter (Mark.hotAt s.level) (s.sample pressure :: h) := by
  rw [hs.up]
  refine hs.move_iff c.up_pos ?_ rfl (Mark.hotAt_demand s.level)
    (fun t => hs.reached.raise_iff) pressure
  exact (Int.lt_succ s.level).ne'

lemma lower_iff (hs : Tracks c s h) (pressure : π) :
    (s.observe pressure).2.level = s.level - 1 ↔
      Hysteresis.InARow s.recoverAfter (Mark.calmAt s.level) (s.sample pressure :: h) := by
  rw [hs.down]
  refine hs.move_iff c.down_pos ?_ rfl (Mark.calmAt_demand s.level)
    (fun t => hs.reached.lower_iff) pressure
  exact (Int.pred_self_lt s.level).ne

omit [LE π] [DecidableLE π] in
lemma level_mem (hs : Tracks c s h) : 0 ≤ s.level ∧ s.level ≤ 4 :=
  hs.reached.level_mem (by decide) hs.targets

/-- A sample moves the level by at most one, towards the target that is recorded. -/
lemma observe_level (hs : Tracks c s h) (pressure : π) :
    (s.observe pressure).2.level = s.level ∨
      (∃ t, s.level < t ∧ (s.sample pressure).demand = some ⟨s.level, t⟩ ∧
        (s.observe pressure).2.level = s.level + 1) ∨
      (s.observe pressure).2.level = s.level - 1 := by
  by_cases hdemand : s.enabled = true ∧ s.Complete
  · obtain ⟨t, -, -, hmark, hdial⟩ := hs.of_demand hdemand pressure
    have hlevel := c.follow_level s.dial t
    rw [← hdial] at hlevel
    rcases hlevel with h | ⟨hlt, h⟩ | ⟨-, h⟩
    · exact .inl h
    · exact .inr (.inl ⟨t, hlt, hmark, h⟩)
    · exact .inr (.inr h)
  · exact .inl (hs.of_idle hdemand pressure).1

lemma abs_observe_le (hs : Tracks c s h) (pressure : π) :
    |(s.observe pressure).2.level - s.level| ≤ 1 := by
  rw [abs_le]
  rcases hs.observe_level pressure with h | ⟨t, -, -, h⟩ | h <;> omega

lemma after_calls (hs : Tracks c s h) (calls : List (Call π)) :
    Tracks c (s.after calls) (s.record calls ++ h) := by
  induction calls generalizing s h with
  | nil => exact hs
  | cons call calls ih =>
      have hrest := ih (hs.call call)
      rw [record, List.append_assoc]
      exact hrest

/-- **After a raise** the level is lowered only after `recover_after` further samples. -/
lemma lower_after_raise (hs : Tracks c s h) {pressure pressure' : π} {calls : List (Call π)}
    (hraise : (s.observe pressure).2.level = s.level + 1)
    (hlower : ((s.after (.observe pressure :: calls)).observe pressure').2.level =
      (s.after (.observe pressure :: calls)).level - 1) :
    s.recoverAfter ≤ (calls ++ [Call.observe pressure']).countP (·.isObserve) := by
  obtain ⟨t, hlt, hmark⟩ : ∃ t, s.level < t ∧ (s.sample pressure).demand = some ⟨s.level, t⟩ := by
    rcases hs.observe_level pressure with h | ⟨t, hlt, hmark, -⟩ | h
    · omega
    · exact ⟨t, hlt, hmark⟩
    · omega
  have hafter := hs.after_calls (.observe pressure :: calls)
  by_cases hdemand : (s.after (.observe pressure :: calls)).enabled = true ∧
      (s.after (.observe pressure :: calls)).Complete
  · obtain ⟨t', -, -, -, hdial⟩ := hafter.of_demand hdemand pressure'
    have hreached := hafter.reached
    rw [record, mark, Option.toList_some, List.append_assoc, List.map_append,
      List.singleton_append, List.map_cons, hmark] at hreached
    have hmoved : (c.follow (s.after (.observe pressure :: calls)).dial t').level =
        (s.after (.observe pressure :: calls)).dial.level - 1 := by
      rw [← hdial]
      exact hlower
    have hlate := hreached.lower_after_raise hlt hmoved
    have hcount := countP_demand_le (s.call (.observe pressure)).2 calls
    have hlast : [Call.observe pressure'].countP (·.isObserve) = 1 := rfl
    rw [List.countP_append, hlast, hs.down]
    push_cast
    omega
  · have hkeep := (hafter.of_idle hdemand pressure').1
    omega

omit [LE π] [DecidableLE π] in
lemma not_shed_of_disabled (hs : Tracks c s h) (hoff : s.enabled = false) :
    s.level = 0 ∧ ∀ tier, (s.shouldShed tier).1.shed = false := by
  refine ⟨congrArg Hysteresis.Dial.level (hs.rest (.inl hoff)), fun tier => ?_⟩
  rw [shouldShed_fst]
  simp [hoff]

/-! ## Steady pressure -/

/-- Under one pressure the dial follows one target. -/
lemma steady (hs : Tracks c s h) (hon : s.enabled = true) {pressure : π} {t : ℤ}
    (ht : s.targetLevel pressure = .ok t) (k : ℕ) :
    (s.after (List.replicate k (.observe pressure))).dial =
      (fun d => c.follow d t)^[k] s.dial := by
  induction k generalizing s h with
  | zero => rfl
  | succ k ih =>
      have hnext := hs.call (.observe pressure)
      have hfirst := dial_observe hs.up hs.down hon ht
      obtain ⟨hthresholds, -, -, henabled⟩ :=
        follow_frame ({ s with pressure := pressure } : LoadShedder π) t
      rw [← observe_of_target hon ht] at hthresholds henabled
      rw [call_observe] at hnext
      have hagain : (s.observe pressure).2.targetLevel pressure = .ok t := by
        rw [← ht]
        simp only [targetLevel, hthresholds]
      rw [List.replicate_succ, Function.iterate_succ_apply, ← hfirst,
        ← ih hnext (henabled.trans hon) hagain, ← call_observe]
      rfl

/-- The way to the target under one pressure. -/
lemma steady_level (hs : Tracks c s h) (hon : s.enabled = true) {pressure : π} {t : ℤ}
    (ht : s.targetLevel pressure = .ok t) (k : ℕ) :
    (s.level ≤ t →
      (s.after (List.replicate k (.observe pressure))).level ≤
          (s.after (List.replicate (k + 1) (.observe pressure))).level ∧
        (s.after (List.replicate k (.observe pressure))).level ≤ t ∧
        ((t - s.level) * c.up ≤ k →
          (s.after (List.replicate k (.observe pressure))).level = t)) ∧
    (t ≤ s.level →
      (s.after (List.replicate (k + 1) (.observe pressure))).level ≤
          (s.after (List.replicate k (.observe pressure))).level ∧
        t ≤ (s.after (List.replicate k (.observe pressure))).level ∧
        ((s.level - t) * c.down ≤ k →
          (s.after (List.replicate k (.observe pressure))).level = t)) := by
  have hlevel : ∀ k, (s.after (List.replicate k (.observe pressure))).level =
      ((fun d => c.follow d t)^[k] s.dial).level := fun k =>
    congrArg Hysteresis.Dial.level (hs.steady hon ht k)
  rw [hlevel, hlevel]
  exact ⟨fun hle => hs.reached.steady_up hle k, fun hle => hs.reached.steady_down hle k⟩

end Tracks

end Record

end LoadShedder

/-- **The shedder cannot flap.**  After any calls on a fresh shedder the level is from zero to four,
a sample moves it by at most one, and it raises the level exactly when it and the samples before it
make `escalate_after` in a row that were taken while enabled, found this level and had a target
above it, with no `disable` between; and it lowers the level exactly when there are `recover_after`
such with a target below it.  So a lowering takes `recover_after` samples after a raise; and while
the shedder is disabled the level is zero and nothing is shed. -/
theorem shedder_cannot_flap {π : Type} [Zero π] [LE π] [DecidableLE π]
    (thresholds : Dict Tier π) (enforce : Bool) (escalateAfter recoverAfter : ℤ)
    (hescalate : 1 ≤ escalateAfter) (hrecover : 1 ≤ recoverAfter)
    (calls : List (Call π)) :
    let fresh := LoadShedder.fresh thresholds enforce escalateAfter recoverAfter
    let s := fresh.after calls
    (0 ≤ s.level ∧ s.level ≤ 4) ∧
    (∀ pressure, |(s.observe pressure).2.level - s.level| ≤ 1) ∧
    (∀ pressure, (s.observe pressure).2.level = s.level + 1 ↔
      Hysteresis.InARow escalateAfter (Mark.hotAt s.level)
        (s.sample pressure :: fresh.record calls)) ∧
    (∀ pressure, (s.observe pressure).2.level = s.level - 1 ↔
      Hysteresis.InARow recoverAfter (Mark.calmAt s.level)
        (s.sample pressure :: fresh.record calls)) ∧
    (∀ pressure later pressure', (s.observe pressure).2.level = s.level + 1 →
      ((s.after (.observe pressure :: later)).observe pressure').2.level =
        (s.after (.observe pressure :: later)).level - 1 →
      recoverAfter ≤ (later ++ [Call.observe pressure']).countP (·.isObserve)) ∧
    (s.enabled = false → s.level = 0 ∧ ∀ tier, (s.shouldShed tier).1.shed = false) := by
  intro fresh s
  have hs : LoadShedder.Tracks ⟨escalateAfter, recoverAfter, hescalate, hrecover⟩ s
      (fresh.record calls) := LoadShedder.Tracks.after _ thresholds enforce calls
  refine ⟨hs.level_mem, hs.abs_observe_le, fun pressure => ?_, fun pressure => ?_, ?_,
    hs.not_shed_of_disabled⟩
  · rw [hs.raise_iff pressure, hs.up]
  · rw [hs.lower_iff pressure, hs.down]
  · intro pressure later pressure' hraise hlower
    have hlate := hs.lower_after_raise hraise hlower
    rw [hs.down] at hlate
    exact hlate

/-- `DEFAULT_THRESHOLDS`. -/
def defaultThresholds : Dict Tier ℚ :=
  (((Dict.empty.set .testMode (60 / 100)).set .get (75 / 100)).set .post (90 / 100)).set .critical
    (98 / 100)

/-- Two samples above the first threshold raise the level. -/
theorem shedder_cannot_flap_two :
    let s := (LoadShedder.fresh defaultThresholds true 2 5).after [Call.observe (65 / 100)]
    s.level = 0 ∧ (s.observe (61 / 100)).2.level = s.level + 1 :=
  ⟨by decide +kernel, ((shedder_cannot_flap defaultThresholds true 2 5 (by decide) (by decide)
    [Call.observe (65 / 100)]).2.2.1 (61 / 100)).mpr
      ⟨by decide +kernel, by decide +kernel⟩⟩

/-- **The shedder converges under steady load.**  From whatever state the calls before left,
enabled, the same pressure again and again moves the level monotonically towards its target without
overshooting, reaches it after at most four times the slower of the two rows, and never leaves
it. -/
theorem shedder_converges {π : Type} [Zero π] [LE π] [DecidableLE π]
    (thresholds : Dict Tier π) (enforce : Bool) (escalateAfter recoverAfter : ℤ)
    (hescalate : 1 ≤ escalateAfter) (hrecover : 1 ≤ recoverAfter)
    (calls : List (Call π)) (pressure : π) (t : ℤ) :
    let s := (LoadShedder.fresh thresholds enforce escalateAfter recoverAfter).after calls
    let level : ℕ → ℤ := fun k => (s.after (List.replicate k (.observe pressure))).level
    s.enabled = true → s.targetLevel pressure = .ok t →
      (∀ k, (s.level ≤ t → level k ≤ level (k + 1) ∧ level (k + 1) ≤ t) ∧
        (t ≤ s.level → t ≤ level (k + 1) ∧ level (k + 1) ≤ level k)) ∧
      (∀ k : ℕ, 4 * max escalateAfter recoverAfter ≤ k → level k = t) ∧
      ∀ k, level k = t → ∀ j, k ≤ j → level j = t := by
  intro s level hon ht
  have hs : LoadShedder.Tracks ⟨escalateAfter, recoverAfter, hescalate, hrecover⟩ s _ :=
    LoadShedder.Tracks.after _ thresholds enforce calls
  have hmono : ∀ k, (s.level ≤ t → level k ≤ level (k + 1) ∧ level (k + 1) ≤ t) ∧
      (t ≤ s.level → t ≤ level (k + 1) ∧ level (k + 1) ≤ level k) := fun k =>
    ⟨fun hle => ⟨((hs.steady_level hon ht k).1 hle).1,
      ((hs.steady_level hon ht (k + 1)).1 hle).2.1⟩,
      fun hle => ⟨((hs.steady_level hon ht (k + 1)).2 hle).2.1,
        ((hs.steady_level hon ht k).2 hle).1⟩⟩
  refine ⟨hmono, fun k hlong => ?_, fun k hk j hkj => ?_⟩
  · obtain ⟨htarget, htop⟩ := LoadShedder.targetLevel_mem ht
    obtain ⟨hbottom, hlevel⟩ := hs.level_mem
    have hup := le_max_left escalateAfter recoverAfter
    have hdown := le_max_right escalateAfter recoverAfter
    rcases Int.le_total s.level t with hle | hle
    · have hway : (t - s.level) * escalateAfter ≤ 4 * escalateAfter :=
        mul_le_mul_of_nonneg_right (by omega) (by omega)
      exact ((hs.steady_level hon ht k).1 hle).2.2 (by dsimp only; omega)
    · have hway : (s.level - t) * recoverAfter ≤ 4 * recoverAfter :=
        mul_le_mul_of_nonneg_right (by omega) (by omega)
      exact ((hs.steady_level hon ht k).2 hle).2.2 (by dsimp only; omega)
  · induction j, hkj using Nat.le_induction with
    | base => exact hk
    | succ j _ ih =>
        rcases Int.le_total s.level t with hle | hle
        · have hstep := (hmono j).1 hle
          omega
        · have hstep := (hmono j).2 hle
          omega

/-- Eight samples at full pressure shed everything; twenty idle ones nothing. -/
theorem shedder_converges_recovered :
    let s := (LoadShedder.fresh defaultThresholds true 2 5).after
      (List.replicate 8 (Call.observe 1))
    s.level = 4 ∧ (s.after (List.replicate 20 (.observe 0))).level = 0 := by
  refine ⟨by decide +kernel, ?_⟩
  exact (shedder_converges defaultThresholds true 2 5 (by decide) (by decide)
    (List.replicate 8 (Call.observe 1)) 0 0 (by decide +kernel) (by decide +kernel)).2.1 20
      (by decide)

end LedgerProof.Limits
