import LedgerProof.Lib.Python
import LedgerProof.Lib.Dict

/-!
# Tiered load shedding

`limits/shed.py`.  A `LoadShedder` follows a pressure signal one tier at a time and answers, per
request, whether the request's tier is being shed.  With `enforce=False` (a dark launch) it only
counts what it would have shed.

Two shedders that differ only in `enforce` are related by `Twin`: every field that decides anything
is the same, and the counters differ only in the name under which a shed request is counted twice.
`Twin.step` is the step lemma, `Twin.trace` the run lemma, and `dark_launch_predicts_enforcement`
reads the twin shedders off a whole run.

Pressures and thresholds are floats in the source.  Nothing here computes with them, so they are
any type whose elements can be compared, with no law assumed of the comparison.
-/

namespace LedgerProof.Limits

/-- Shed-first order: lower value is shed earlier. -/
inductive Tier
  | testMode
  | get
  | post
  | critical
  deriving DecidableEq, Repr

namespace Tier

/-- `for tier in Tier`. -/
def all : List Tier := [testMode, get, post, critical]

/-- `int(tier)`. -/
def toInt : Tier → ℤ
  | testMode => 0
  | get => 1
  | post => 2
  | critical => 3

/-- `tier.name`. -/
def name : Tier → String
  | testMode => "TEST_MODE"
  | get => "GET"
  | post => "POST"
  | critical => "CRITICAL"

end Tier

/-- What a request is counted as. -/
inductive Outcome
  | wouldShed
  | darkLaunchAllowed
  | shed
  | allowed
  deriving DecidableEq, Repr

/-- The name of a counter, `f"would_shed:{tier.name}"` and its siblings. -/
def counterName : Outcome → Tier → String
  | .wouldShed, t => "would_shed:" ++ t.name
  | .darkLaunchAllowed, t => "dark_launch_allowed:" ++ t.name
  | .shed, t => "shed:" ++ t.name
  | .allowed, t => "allowed:" ++ t.name

/-- The sixteen counters have sixteen names. -/
lemma counterName_inj {o o' : Outcome} {t t' : Tier} :
    counterName o t = counterName o' t' ↔ o = o' ∧ t = t' := by
  constructor
  · cases o <;> cases t <;> cases o' <;> cases t' <;> decide
  · rintro ⟨rfl, rfl⟩
    rfl

/-- A shedding decision. -/
structure ShedDecision (π : Type) where
  shed : Bool
  tier : Tier
  level : ℤ
  pressure : π
  enforced : Bool
  reason : String

/-- The shedder: its four settings, then its state. -/
structure LoadShedder (π : Type) where
  thresholds : Dict Tier π
  enforce : Bool
  escalateAfter : ℤ
  recoverAfter : ℤ
  level : ℤ
  pressure : π
  enabled : Bool
  hot : ℤ
  calm : ℤ
  counts : Dict String ℕ

namespace LoadShedder

variable {π : Type}

/-- `LoadShedder(thresholds, enforce, escalate_after, recover_after)`. -/
def fresh [Zero π] (thresholds : Dict Tier π) (enforce : Bool) (escalateAfter recoverAfter : ℤ) :
    LoadShedder π :=
  { thresholds, enforce, escalateAfter, recoverAfter
    level := 0, pressure := 0, enabled := true, hot := 0, calm := 0, counts := .empty }

/-- `disable`: the kill switch. -/
def disable (s : LoadShedder π) : LoadShedder π :=
  { s with enabled := false, level := 0, hot := 0, calm := 0 }

/-- `enable`. -/
def enable (s : LoadShedder π) : LoadShedder π := { s with enabled := true }

/-- `self.counts[name]`, zero for a counter that was never written. -/
def count (s : LoadShedder π) (o : Outcome) (t : Tier) : ℕ := s.counts.getD (counterName o t) 0

/-- `self.counts[name] += 1`. -/
def bump (s : LoadShedder π) (o : Outcome) (t : Tier) : LoadShedder π :=
  { s with counts := s.counts.set (counterName o t) (s.count o t + 1) }

section Observe

variable [LE π] [DecidableLE π]

/-- `_target_level`: how many tiers the pressure reaches.  A tier without a threshold is a
`KeyError`. -/
def targetLevel (s : LoadShedder π) (pressure : π) : Except PyError ℤ := do
  let reached ← Tier.all.mapM fun tier =>
    match s.thresholds.get? tier with
    | some threshold => .ok (if threshold ≤ pressure then (1 : ℤ) else 0)
    | none => .error (.keyError tier.name)
  return reached.sum

/-- The part of `observe` after the target is known. -/
def follow (s : LoadShedder π) (target : ℤ) : LoadShedder π :=
  if target > s.level then
    let s := { s with hot := s.hot + 1, calm := 0 }
    if s.hot ≥ s.escalateAfter then { s with level := s.level + 1, hot := 0 } else s
  else if target < s.level then
    let s := { s with calm := s.calm + 1, hot := 0 }
    if s.calm ≥ s.recoverAfter then { s with level := s.level - 1, calm := 0 } else s
  else { s with hot := 0, calm := 0 }

/-- `observe`: feed a pressure sample. -/
def observe (s : LoadShedder π) (pressure : π) : Except PyError ℤ × LoadShedder π :=
  let s := { s with pressure := pressure }
  if !s.enabled then (.ok s.level, s)
  else
    match s.targetLevel pressure with
    | .error e => (.error e, s)
    | .ok target => (.ok (s.follow target).level, s.follow target)

end Observe

/-- `should_shed`. -/
def shouldShed (s : LoadShedder π) (tier : Tier) : ShedDecision π × LoadShedder π :=
  if !s.enabled then
    ({ shed := false, tier, level := s.level, pressure := s.pressure, enforced := false
       reason := "kill_switch" }, s)
  else
    let wouldShed := decide (tier.toInt < s.level)
    let s :=
      if wouldShed then
        let s := s.bump .wouldShed tier
        if !s.enforce then s.bump .darkLaunchAllowed tier else s.bump .shed tier
      else s.bump .allowed tier
    ({ shed := wouldShed && s.enforce, tier, level := s.level, pressure := s.pressure
       enforced := s.enforce, reason := if wouldShed then "shed_by_tier" else "" }, s)

end LoadShedder

/-! ## Runs -/

/-- One call on a shedder. -/
inductive Call (π : Type)
  | observe (pressure : π)
  | shouldShed (tier : Tier)
  | disable
  | enable

/-- What a call hands back. -/
inductive Reply (π : Type)
  | level (n : ℤ)
  | decision (d : ShedDecision π)
  | none
  | raised (e : PyError)

namespace LoadShedder

variable {π : Type} [LE π] [DecidableLE π]

/-- One call: its reply and the shedder after it. -/
def call (s : LoadShedder π) : Call π → Reply π × LoadShedder π
  | .observe pressure =>
      match s.observe pressure with
      | (.ok n, s') => (.level n, s')
      | (.error e, s') => (.raised e, s')
  | .shouldShed tier => (.decision (s.shouldShed tier).1, (s.shouldShed tier).2)
  | .disable => (.none, s.disable)
  | .enable => (.none, s.enable)

/-- A sequence of calls: every reply with the shedder after it. -/
def trace (s : LoadShedder π) : List (Call π) → List (Reply π × LoadShedder π)
  | [] => []
  | c :: cs => s.call c :: trace (s.call c).2 cs

/-- The shedder after a sequence of calls. -/
def after (s : LoadShedder π) (cs : List (Call π)) : LoadShedder π :=
  cs.foldl (fun s c => (s.call c).2) s

end LoadShedder

/-- The `should_shed` calls for a tier made while the shedder is enabled: a sequence starts
enabled or not, and only `disable` and `enable` change that. -/
def asked {π : Type} (tier : Tier) : Bool → List (Call π) → ℕ
  | _, [] => 0
  | on, .observe _ :: cs => asked tier on cs
  | on, .shouldShed t :: cs => (if on ∧ t = tier then 1 else 0) + asked tier on cs
  | _, .disable :: cs => asked tier false cs
  | _, .enable :: cs => asked tier true cs

/-! ## What one call does -/

namespace LoadShedder

variable {π : Type}

lemma count_bump (s : LoadShedder π) (o o' : Outcome) (t t' : Tier) :
    (s.bump o t).count o' t' = s.count o' t' + if o = o' ∧ t = t' then 1 else 0 := by
  unfold count bump
  simp only [Dict.getD, Dict.get?_set, counterName_inj]
  by_cases h : o = o' ∧ t = t'
  · obtain ⟨rfl, rfl⟩ := h
    simp [count, Dict.getD]
  · simp [h]

/-- The counter names under which a request is counted, first to last. -/
def outcomes (s : LoadShedder π) (tier : Tier) : List Outcome :=
  if s.enabled = false then []
  else if tier.toInt < s.level then
    [.wouldShed, if s.enforce then .shed else .darkLaunchAllowed]
  else [.allowed]

lemma shouldShed_snd (s : LoadShedder π) (tier : Tier) :
    (s.shouldShed tier).2 = (s.outcomes tier).foldl (fun s o => s.bump o tier) s := by
  unfold shouldShed outcomes
  cases hon : s.enabled with
  | false => simp
  | true =>
      by_cases hw : tier.toInt < s.level
      · cases he : s.enforce <;> simp [hw, he, bump]
      · simp [hw]

/-- The answer, apart from `shed` and `enforced`, is read off the state before the call. -/
lemma shouldShed_fst (s : LoadShedder π) (tier : Tier) :
    (s.shouldShed tier).1 =
      { shed := s.enabled && s.enforce && decide (tier.toInt < s.level), tier, level := s.level
        pressure := s.pressure, enforced := s.enabled && s.enforce
        reason := if s.enabled = false then "kill_switch"
          else if tier.toInt < s.level then "shed_by_tier" else "" } := by
  unfold shouldShed
  cases hon : s.enabled with
  | false => simp
  | true =>
      by_cases hw : tier.toInt < s.level
      · cases he : s.enforce <;> simp [hw, he, bump]
      · simp [hw, bump]

lemma count_foldl_bump (os : List Outcome) (s : LoadShedder π) (o : Outcome) (t t' : Tier) :
    (os.foldl (fun s o => s.bump o t) s).count o t' =
      s.count o t' + if t = t' then os.count o else 0 := by
  induction os generalizing s with
  | nil => simp
  | cons a os ih =>
      rw [List.foldl_cons, ih, count_bump, List.count_cons]
      by_cases ht : t = t' <;> by_cases ha : a = o <;> simp [ht, ha, add_assoc, add_comm]

lemma count_shouldShed (s : LoadShedder π) (o : Outcome) (t t' : Tier) :
    (s.shouldShed t).2.count o t' = s.count o t' + if t = t' then (s.outcomes t).count o
    else 0 := by
  rw [shouldShed_snd, count_foldl_bump]

lemma foldl_bump_eq (os : List Outcome) (s : LoadShedder π) (t : Tier) :
    os.foldl (fun s o => s.bump o t) s =
      { s with counts := (os.foldl (fun s o => s.bump o t) s).counts } := by
  induction os generalizing s with
  | nil => rfl
  | cons a os ih =>
      rw [List.foldl_cons, ih]
      rfl

/-- A request made while the shedder is enabled is counted once as would-shed or as allowed. -/
lemma count_outcomes (s : LoadShedder π) (t : Tier) :
    (s.outcomes t).count .wouldShed + (s.outcomes t).count .allowed = if s.enabled then 1
    else 0 := by
  unfold outcomes
  cases s.enabled with
  | false => simp
  | true =>
      by_cases hw : t.toInt < s.level
      · cases s.enforce <;> simp [hw]
      · simp [hw]

section Observe

variable [LE π] [DecidableLE π]

omit [LE π] [DecidableLE π] in
/-- Following a target reads neither the switches nor the counters, and does not change them. -/
lemma follow_view (s : LoadShedder π) (enforce enabled : Bool) (counts : Dict String ℕ)
    (target : ℤ) :
    follow { s with enforce, enabled, counts } target =
      { s.follow target with enforce, enabled, counts } := by
  unfold follow
  by_cases hup : target > s.level
  · by_cases hhot : s.hot + 1 ≥ s.escalateAfter <;> simp [hup, hhot]
  · by_cases hdown : target < s.level
    · by_cases hcalm : s.calm + 1 ≥ s.recoverAfter <;> simp [hup, hdown, hcalm]
    · simp [hup, hdown]

/-- `observe` reads neither `enforce` nor the counters. -/
lemma observe_view (s : LoadShedder π) (enforce : Bool) (counts : Dict String ℕ) (pressure : π) :
    observe { s with enforce, counts } pressure =
      ((s.observe pressure).1, { (s.observe pressure).2 with enforce, counts }) := by
  unfold observe
  cases hon : s.enabled with
  | false => rfl
  | true =>
      have htarget : targetLevel { s with pressure, enforce, counts, enabled := true } pressure
          = targetLevel { s with pressure, enabled := true } pressure := rfl
      simp only [htarget]
      cases targetLevel { s with pressure, enabled := true } pressure with
      | error e => rfl
      | ok target =>
          have hfollow := follow_view { s with pressure } enforce true counts target
          have hkeep := follow_view { s with pressure } s.enforce true s.counts target
          simp only [Bool.not_true, Bool.false_eq_true, if_false, hfollow, hkeep]

lemma observe_frame (s : LoadShedder π) (pressure : π) :
    (s.observe pressure).2.enforce = s.enforce ∧ (s.observe pressure).2.counts = s.counts ∧
      (s.observe pressure).2.enabled = s.enabled := by
  have hview := congrArg Prod.snd (s.observe_view s.enforce s.counts pressure)
  have henforce := congrArg LoadShedder.enforce hview
  have hcounts := congrArg LoadShedder.counts hview
  refine ⟨henforce, hcounts, ?_⟩
  unfold observe
  cases hon : s.enabled with
  | false => rfl
  | true =>
      simp only [Bool.not_true, Bool.false_eq_true, if_false]
      cases targetLevel { s with pressure, enabled := true } pressure with
      | error e => rfl
      | ok target =>
          exact congrArg LoadShedder.enabled
            (follow_view { s with pressure } s.enforce true s.counts target)

lemma call_observe (s : LoadShedder π) (pressure : π) :
    (s.call (.observe pressure)).2 = (s.observe pressure).2 := by
  rw [call]
  rcases s.observe pressure with ⟨e | n, s'⟩ <;> rfl

end Observe

end LoadShedder

/-! ## The two modes -/

/-- Two shedders in the same place. -/
structure SameState {π : Type} (a b : LoadShedder π) : Prop where
  level : a.level = b.level
  pressure : a.pressure = b.pressure
  enabled : a.enabled = b.enabled
  hot : a.hot = b.hot
  calm : a.calm = b.calm

/-- Replies that agree on everything except whether the request is dropped. -/
def Reply.Same {π : Type} : Reply π → Reply π → Prop
  | .level n, .level m => n = m
  | .decision d, .decision d' =>
      d.tier = d'.tier ∧ d.level = d'.level ∧ d.pressure = d'.pressure ∧ d.reason = d'.reason
  | .none, .none => True
  | .raised e, .raised e' => e = e'
  | _, _ => False

/-- A live and a dark shedder that went through the same calls: one shedder up to `enforce` and the
counters, and counters that agree up to the name a shed request has in each mode. -/
structure Twin {π : Type} (live dark : LoadShedder π) : Prop where
  view : live = { dark with enforce := true, counts := live.counts }
  launch : dark.enforce = false
  wouldShed : ∀ t, live.count .wouldShed t = dark.count .wouldShed t
  allowed : ∀ t, live.count .allowed t = dark.count .allowed t
  shed : ∀ t, live.count .shed t = dark.count .wouldShed t
  darkAllowed : ∀ t, dark.count .darkLaunchAllowed t = dark.count .wouldShed t

namespace Twin

variable {π : Type} {live dark : LoadShedder π}

lemma sameState (h : Twin live dark) : SameState live dark := by
  rw [h.view]
  exact ⟨rfl, rfl, rfl, rfl, rfl⟩

lemma fresh [Zero π] (thresholds : Dict Tier π) (escalateAfter recoverAfter : ℤ) :
    Twin (LoadShedder.fresh thresholds true escalateAfter recoverAfter)
      (LoadShedder.fresh thresholds false escalateAfter recoverAfter) :=
  ⟨rfl, rfl, fun _ => rfl, fun _ => rfl, fun _ => rfl, fun _ => rfl⟩

/-- A call that treats the twins alike and does not count keeps them twins. -/
lemma of_counts_eq (h : Twin live dark) {live' dark' : LoadShedder π}
    (hview : live' = { dark' with enforce := true, counts := live.counts })
    (hdark : dark'.enforce = dark.enforce) (hcounts : dark'.counts = dark.counts) :
    Twin live' dark' := by
  have hlive : live'.counts = live.counts := by rw [hview]
  have hl : ∀ o t, live'.count o t = live.count o t := fun o t => by
    rw [LoadShedder.count, hlive, ← LoadShedder.count]
  have hd : ∀ o t, dark'.count o t = dark.count o t := fun o t => by
    rw [LoadShedder.count, hcounts, ← LoadShedder.count]
  refine ⟨by rw [hlive]; exact hview, hdark.trans h.launch, ?_, ?_, ?_, ?_⟩
  · exact fun t => by rw [hl, hd]; exact h.wouldShed t
  · exact fun t => by rw [hl, hd]; exact h.allowed t
  · exact fun t => by rw [hl, hd]; exact h.shed t
  · exact fun t => by rw [hd, hd]; exact h.darkAllowed t

/-- In the two modes a request is counted under the same names, `shed` standing in the live one
where `dark_launch_allowed` stands in the dark one. -/
lemma outcomes (h : Twin live dark) (tier : Tier) :
    (live.outcomes tier = [] ∧ dark.outcomes tier = []) ∨
      (live.outcomes tier = [.wouldShed, .shed] ∧
        dark.outcomes tier = [.wouldShed, .darkLaunchAllowed]) ∨
      (live.outcomes tier = [.allowed] ∧ dark.outcomes tier = [.allowed]) := by
  rw [h.view]
  unfold LoadShedder.outcomes
  rw [h.launch]
  by_cases hon : dark.enabled = false
  · simp [hon]
  · by_cases hw : tier.toInt < dark.level <;> simp [hon, hw]

lemma shouldShed (h : Twin live dark) (tier : Tier) :
    Twin (live.shouldShed tier).2 (dark.shouldShed tier).2 := by
  have hlive := live.shouldShed_snd tier
  have hdark := dark.shouldShed_snd tier
  rw [LoadShedder.foldl_bump_eq] at hlive hdark
  refine ⟨?_, by rw [hdark]; exact h.launch, fun t => ?_, fun t => ?_, fun t => ?_, fun t => ?_⟩
  · rw [hlive, hdark, h.view]
  all_goals
    simp only [LoadShedder.count_shouldShed, h.wouldShed, h.allowed, h.shed, h.darkAllowed]
    rcases h.outcomes tier with ⟨hl, hd⟩ | ⟨hl, hd⟩ | ⟨hl, hd⟩ <;> simp [hl, hd]

section Calls

variable [LE π] [DecidableLE π]

lemma call (h : Twin live dark) (c : Call π) : Twin (live.call c).2 (dark.call c).2 := by
  cases c with
  | observe pressure =>
      have hview := dark.observe_view true live.counts pressure
      rw [← h.view] at hview
      obtain ⟨henforce, hcounts, -⟩ := dark.observe_frame pressure
      rw [LoadShedder.call_observe, LoadShedder.call_observe, hview]
      exact h.of_counts_eq rfl henforce hcounts
  | shouldShed tier => exact h.shouldShed tier
  | disable => exact h.of_counts_eq (by rw [h.view]; rfl) rfl rfl
  | enable => exact h.of_counts_eq (by rw [h.view]; rfl) rfl rfl

/-- One call has the same answer from both, apart from whether the request is dropped. -/
lemma reply (h : Twin live dark) (c : Call π) : (live.call c).1.Same (dark.call c).1 := by
  cases c with
  | observe pressure =>
      have hview := dark.observe_view true live.counts pressure
      rw [← h.view] at hview
      simp only [LoadShedder.call, hview]
      rcases dark.observe pressure with ⟨e | n, s⟩ <;> exact rfl
  | shouldShed tier =>
      simp only [LoadShedder.call, Reply.Same, LoadShedder.shouldShed_fst]
      rw [h.view]
      simp
  | disable => trivial
  | enable => trivial

/-- Through every sequence of calls the twins stay together. -/
lemma trace (h : Twin live dark) (cs : List (Call π)) :
    List.Forall₂ (fun l d => l.1.Same d.1 ∧ Twin l.2 d.2) (live.trace cs) (dark.trace cs) := by
  induction cs generalizing live dark with
  | nil => exact .nil
  | cons c cs ih => exact .cons ⟨h.reply c, h.call c⟩ (ih (h.call c))

lemma after (h : Twin live dark) (cs : List (Call π)) : Twin (live.after cs) (dark.after cs) := by
  induction cs generalizing live dark with
  | nil => exact h
  | cons c cs ih => exact ih (h.call c)

end Calls

end Twin

namespace LoadShedder

variable {π : Type} [LE π] [DecidableLE π]

lemma call_enforce (s : LoadShedder π) (c : Call π) : (s.call c).2.enforce = s.enforce := by
  cases c with
  | observe pressure => rw [call_observe]; exact (s.observe_frame pressure).1
  | shouldShed tier =>
      show (s.shouldShed tier).2.enforce = s.enforce
      rw [shouldShed_snd, foldl_bump_eq]
  | disable => rfl
  | enable => rfl

/-- Without enforcement no decision of any run drops a request. -/
lemma not_shed_of_not_enforce (s : LoadShedder π) (h : s.enforce = false) (cs : List (Call π)) :
    ∀ r ∈ s.trace cs, ∀ d, r.1 = .decision d → d.shed = false := by
  induction cs generalizing s with
  | nil => simp [trace]
  | cons c cs ih =>
      intro r hr d hd
      rcases List.mem_cons.mp hr with rfl | hr
      · cases c with
        | shouldShed tier =>
            obtain rfl : (s.shouldShed tier).1 = d := by simpa [call] using hd
            simp [shouldShed_fst, h]
        | observe pressure =>
            rw [call] at hd
            split at hd <;> simp at hd
        | disable => simp [call] at hd
        | enable => simp [call] at hd
      · exact ih _ ((s.call_enforce c).trans h) r hr d hd

/-- In either mode the requests of a tier that were counted are those made while enabled. -/
lemma count_after (s : LoadShedder π) (cs : List (Call π)) (tier : Tier) :
    (s.after cs).count .wouldShed tier + (s.after cs).count .allowed tier =
      s.count .wouldShed tier + s.count .allowed tier + asked tier s.enabled cs := by
  induction cs generalizing s with
  | nil => simp [after, asked]
  | cons c cs ih =>
      have hafter : s.after (c :: cs) = (s.call c).2.after cs := rfl
      rw [hafter, ih]
      cases c with
      | observe pressure =>
          obtain ⟨-, hcounts, henabled⟩ := s.observe_frame pressure
          rw [call_observe]
          simp only [count, hcounts, henabled, asked]
      | shouldShed t =>
          have hcall : (s.call (.shouldShed t)).2 = (s.shouldShed t).2 := rfl
          have henabled : (s.shouldShed t).2.enabled = s.enabled := by
            rw [shouldShed_snd, foldl_bump_eq]
          have hout := s.count_outcomes t
          rw [hcall, count_shouldShed, count_shouldShed, henabled, asked]
          by_cases ht : t = tier
          · cases hon : s.enabled <;> simp only [hon, ht] at hout ⊢ <;> simp at hout ⊢ <;> omega
          · simp [ht]
      | disable => rfl
      | enable => rfl

end LoadShedder

/-- **Dark launch predicts enforcement.**  Two fresh shedders that differ only in `enforce` go
through the same states on every sequence of calls and give the same answers apart from dropping;
the dark one drops nothing; what the live one shed is what the dark one counts as let through; and
would-shed and allowed together are the requests made while enabled. -/
theorem dark_launch_predicts_enforcement {π : Type} [Zero π] [LE π] [DecidableLE π]
    (thresholds : Dict Tier π) (escalateAfter recoverAfter : ℤ) (calls : List (Call π)) :
    let live := LoadShedder.fresh thresholds true escalateAfter recoverAfter
    let dark := LoadShedder.fresh thresholds false escalateAfter recoverAfter
    List.Forall₂ (fun l d => l.1.Same d.1 ∧ SameState l.2 d.2) (live.trace calls)
      (dark.trace calls) ∧
      (∀ r ∈ dark.trace calls, ∀ d, r.1 = .decision d → d.shed = false) ∧
      ∀ tier,
        (live.after calls).count .wouldShed tier = (dark.after calls).count .wouldShed tier ∧
        (live.after calls).count .allowed tier = (dark.after calls).count .allowed tier ∧
        (live.after calls).count .shed tier = (dark.after calls).count .darkLaunchAllowed tier ∧
        (live.after calls).count .shed tier = (live.after calls).count .wouldShed tier ∧
        (live.after calls).count .wouldShed tier + (live.after calls).count .allowed tier =
          asked tier true calls := by
  intro live dark
  have htwin : Twin live dark := Twin.fresh thresholds escalateAfter recoverAfter
  have hafter := htwin.after calls
  refine ⟨(htwin.trace calls).imp fun _ _ h => ⟨h.1, h.2.sameState⟩,
    dark.not_shed_of_not_enforce rfl calls, fun tier => ?_⟩
  refine ⟨hafter.wouldShed tier, hafter.allowed tier, ?_, ?_, ?_⟩
  · rw [hafter.shed, hafter.darkAllowed]
  · rw [hafter.shed, hafter.wouldShed]
  · have hzero : live.count .wouldShed tier + live.count .allowed tier = 0 := rfl
    rw [LoadShedder.count_after, hzero, zero_add]
    rfl

end LedgerProof.Limits
