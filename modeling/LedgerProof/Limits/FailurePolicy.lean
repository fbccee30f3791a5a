import LedgerProof.Limits.Shared

/-!
# The two failure policies of the limiter

A limiter error allows the request and is counted in `fail_open_count`; a lock that stays taken
denies it and is counted in `fail_closed_count` (`limits/gcra.py`).  `Outcome` says what one step of
a call can mean for the counters, and `Counted.settle` is the step lemma: both counters are exact
after every run.

So what failing open costs can be read off its counter: in a closed window of length `w` a key
admits at most `⌊w / T⌋ + burst` requests and one more for each error (`errors_bound_admissions`).
-/

namespace LedgerProof.Gcra

/-- How many points are in a set after a function has changed at one of them, which stays in if it
was in. -/
lemma encard_update {α β : Type} [DecidableEq α] (f : α → β) (P : β → Prop) (a : α) (b : β)
    [Decidable (P (f a))] [Decidable (P b)] (hkeep : P (f a) → P b) :
    {x | P (Function.update f a b x)}.encard =
      {x | P (f x)}.encard + if P b ∧ ¬P (f a) then 1 else 0 := by
  have hmem : ∀ x, P (Function.update f a b x) ↔ if x = a then P b else P (f x) := by
    intro x
    rw [Function.update_apply]
    split_ifs <;> rfl
  by_cases hnew : P b ∧ ¬P (f a)
  · have hset : {x | P (Function.update f a b x)} = insert a {x | P (f x)} := by
      ext x
      rw [Set.mem_ofPred_eq, hmem, Set.mem_insert_iff, Set.mem_ofPred_eq]
      by_cases hx : x = a <;> simp [hx, hnew.1]
    have hout : a ∉ {x | P (f x)} := hnew.2
    rw [hset, Set.encard_insert_of_notMem hout, if_pos hnew]
  · have hset : {x | P (Function.update f a b x)} = {x | P (f x)} := by
      ext x
      rw [Set.mem_ofPred_eq, hmem, Set.mem_ofPred_eq]
      by_cases hx : x = a
      · subst hx
        rw [if_pos rfl]
        exact ⟨fun hb => not_not.mp fun hold => hnew ⟨hb, hold⟩, hkeep⟩
      · rw [if_neg hx]
    rw [hset, if_neg hnew, add_zero]

/-- The clock reading of the check that a call returned. -/
def Check.readAt : Check → Option ℚ
  | .going (.returned now _) => some now
  | _ => none

/-- Returned `lock_contended`. -/
def Check.contended (x : Check) : Prop := x = .going .contended

instance :
    DecidablePred Check.contended := fun x => inferInstanceAs (Decidable (x = .going .contended))

/-- What one step of a call means for the counters. -/
inductive Outcome (g : GCRALimiter) (old : Check) : Check × Option Counter → Prop
  | uncounted {new : Check} (herred : new.erred = old.erred) (hcontended : new.contended ↔
      old.contended) :
      Outcome g old (new, none)
  | error {new : Check} (hold : old.erred = false ∧ ¬old.contended)
      (hnew : new.erred = true ∧ ¬new.contended) : Outcome g old (new, g.onError)
  | contended (hold : old.erred = false ∧ ¬old.contended) :
      Outcome g old (.going .contended, some .failClosed)

namespace Shared

variable {τ : Type} [DecidableEq τ] {g : GCRALimiter} {keyOf : τ → String} {s : Shared τ} {c : τ}

omit [DecidableEq τ] in
lemma outcome_decided (now : ℚ) (raw : Option ℚ) :
    Outcome g (.going (.timed now)) (decided g now raw) := by
  unfold decided
  split
  · exact .uncounted rfl (by simp [Check.contended])
  · exact .uncounted rfl (by simp [Check.contended])

omit [DecidableEq τ] in
lemma outcome_answered (late : Bool) : Outcome g (s.checks c) (s.answered g keyOf c late) := by
  unfold answered
  cases s.checks c with
  | going pc =>
      cases pc with
      | acquiring =>
          dsimp only
          split
          · exact .uncounted rfl (by simp [Check.contended])
          · split_ifs
            · exact .contended ⟨rfl, by simp [Check.contended]⟩
            · exact .uncounted rfl Iff.rfl
      | timed now =>
          dsimp only
          split
          · exact outcome_decided now none
          · split
            · exact outcome_decided now _
            · exact .error ⟨rfl, by simp [Check.contended]⟩ ⟨rfl, by simp [Check.contended]⟩
      | _ => exact .uncounted rfl (by simp [Check.contended])
  | failing applied => exact .uncounted rfl (by simp [Check.contended])
  | failed applied => exact .uncounted rfl Iff.rfl

omit [DecidableEq τ] in
lemma outcome_raised (reached : Bool) : Outcome g (s.checks c) (s.raised g c reached) := by
  unfold raised
  cases s.checks c with
  | going pc =>
      cases pc with
      | releasing now d => exact .uncounted rfl (by simp [Check.contended])
      | returned now d => exact .uncounted rfl Iff.rfl
      | contended => exact .uncounted rfl Iff.rfl
      | _ => exact .error ⟨rfl, by simp [Check.contended]⟩ ⟨rfl, by simp [Check.contended]⟩
  | failing applied => exact .uncounted rfl (by simp [Check.contended])
  | failed applied => exact .uncounted rfl Iff.rfl

/-- **The counters count calls**: those that an error ended, when it is counted, and those that
found the lock taken. -/
structure Counted (g : GCRALimiter) (s : Shared τ) : Prop where
  errors : g.failOpen = true → {c | (s.checks c).erred = true}.encard = s.counts .failOpen
  silent : g.failOpen = false → s.counts .failOpen = 0
  contended : {c | (s.checks c).contended}.encard = s.counts .failClosed

/-- **One step** of a call. -/
lemma Counted.settle (h : Counted g s) {store : String → Option (Stored τ)}
    {check : Check × Option Counter} (hout : Outcome g (s.checks c) check) :
    Counted g (s.settle c store check) := by
  have herred := fun new => encard_update s.checks (fun x => x.erred = true) c new
  have hcontended := fun new => encard_update s.checks Check.contended c new
  cases hout with
  | @uncounted new hnew hnew' =>
      have herrors := herred new (by rw [hnew]; exact id)
      have hbusy := hcontended new hnew'.mpr
      rw [hnew, if_neg (by simp), add_zero] at herrors
      rw [if_neg (by simp [hnew']), add_zero] at hbusy
      exact ⟨fun hopen => herrors.trans (h.errors hopen), h.silent, hbusy.trans h.contended⟩
  | @error new hold hnew =>
      have herrors := herred new fun _ => hnew.1
      have hbusy := hcontended new fun hbusy => absurd hbusy hold.2
      rw [if_pos ⟨hnew.1, by simp [hold.1]⟩] at herrors
      rw [if_neg (by simp [hnew.2]), add_zero] at hbusy
      refine ⟨fun hopen => ?_, fun hclosed => ?_, ?_⟩
      · simp only [Shared.settle, GCRALimiter.onError, hopen, if_true, Function.update_self]
        rw [herrors, h.errors hopen]
        rfl
      · simp only [Shared.settle, GCRALimiter.onError, hclosed, Bool.false_eq_true, if_false]
        exact h.silent hclosed
      · refine hbusy.trans (h.contended.trans ?_)
        simp only [Shared.settle, GCRALimiter.onError]
        cases g.failOpen <;> rfl
  | contended hold =>
      have herrors := herred (.going .contended) fun herr => by simp [hold.1] at herr
      have hbusy := hcontended (.going .contended) fun _ => rfl
      rw [if_neg (by simp [Check.erred]), add_zero] at herrors
      rw [if_pos ⟨rfl, hold.2⟩] at hbusy
      refine ⟨fun hopen => herrors.trans (h.errors hopen), h.silent, ?_⟩
      simp only [Shared.settle, Function.update_self]
      rw [hbusy, h.contended]
      rfl

lemma Counted.next (h : Counted g s) (a : Act τ) : Counted g (s.next g keyOf a) := by
  cases a with
  | tick seconds =>
      unfold Shared.next
      by_cases hseconds : 0 ≤ seconds
      · simp only [hseconds, if_true]
        exact ⟨h.errors, h.silent, h.contended⟩
      · simp only [hseconds, if_false]
        exact h
  | run c late => exact h.settle (outcome_answered late)
  | lost c reached => exact h.settle (outcome_raised reached)
  | foreign redisKey stored => exact ⟨h.errors, h.silent, h.contended⟩

omit [DecidableEq τ] in
lemma Counted.init (clock : ℚ) : Counted g (Shared.init clock : Shared τ) where
  errors _ := by simp [Shared.init, Check.erred]
  silent _ := rfl
  contended := by simp [Shared.init, Check.contended]

/-- **A run** of any kind. -/
lemma run_counted (g : GCRALimiter) (keyOf : τ → String) (clock : ℚ) (acts : List (Act τ)) :
    Counted g (acts.foldl (Shared.next g keyOf) (.init clock)) :=
  foldl_inv (Counted g) (fun _ a h => h.next a) (Counted.init clock) acts

/-- The calls of a key that returned an admission, in a window if they read the clock. -/
def admitted (g : GCRALimiter) (keyOf : τ → String) (key : String) (a b : ℚ) (s : Shared τ) :
    Set τ :=
  {c | keyOf c = key ∧ (∃ d, g.decision (s.checks c) = some d ∧ d.allowed = true) ∧
    ∀ now, (s.checks c).readAt = some now → a ≤ now ∧ now ≤ b}

omit [DecidableEq τ] in
/-- An admission is one of the limiter or one of the failure policy. -/
lemma admitted_cases {key : String} {a b : ℚ} (hc : c ∈ s.admitted g keyOf key a b) :
    (∃ now d, (s.checks c).seen.answer = some (now, d) ∧ d.allowed = true ∧ a ≤ now ∧ now ≤ b) ∨
      g.failOpen = true ∧ (s.checks c).erred = true := by
  obtain ⟨-, ⟨d, hd, hallowed⟩, hwindow⟩ := hc
  cases hcheck : s.checks c with
  | going pc =>
      rw [hcheck] at hd hwindow
      cases pc with
      | returned now d' =>
          obtain rfl : d' = d := Option.some_inj.mp hd
          exact .inl ⟨now, d', rfl, hallowed, hwindow now rfl⟩
      | contended =>
          rw [← Option.some_inj.mp hd] at hallowed
          exact absurd hallowed (by simp [GCRALimiter.lockContended])
      | _ => exact absurd hd (by simp [GCRALimiter.decision])
  | failing applied =>
      rw [hcheck] at hd
      exact absurd hd (by simp [GCRALimiter.decision])
  | failed applied =>
      rw [hcheck] at hd
      obtain rfl : g.failOpenDecision = d := Option.some_inj.mp hd
      refine .inr ⟨?_, rfl⟩
      by_contra hclosed
      simp [GCRALimiter.failOpenDecision, hclosed] at hallowed

omit [DecidableEq τ] in
/-- The admissions of the limiter itself are those of a serial run. -/
lemma Serialized.encard_le {key : String} (h : s.Serialized g keyOf key) (a : ℚ) {w : ℚ}
    (hw : 0 ≤ w) :
    {c | keyOf c = key ∧ ∃ now d, (s.checks c).seen.answer = some (now, d) ∧ d.allowed = true ∧
        a ≤ now ∧ now ≤ a + w}.encard ≤
      (⌊w / g.emissionInterval⌋₊ + g.burst : ℕ) := by
  classical
  obtain ⟨order, -, hanswers, hsorted, hdecisions⟩ := h
  let admits : τ × ℚ × Decision → Bool := fun x =>
    x.2.2.allowed && decide (a ≤ x.2.1 ∧ x.2.1 ≤ a + w)
  have hsub : {c | keyOf c = key ∧ ∃ now d, (s.checks c).seen.answer = some (now, d) ∧
      d.allowed = true ∧ a ≤ now ∧ now ≤ a + w} ⊆
      (((order.filter admits).map (·.1)).toFinset : Set τ) := by
    rintro c ⟨hkey, now, d, hanswer, hallowed, hwindow⟩
    rw [Finset.mem_coe, List.mem_toFinset]
    refine List.mem_map.mpr ⟨(c, now, d), List.mem_filter.mpr ⟨?_, ?_⟩, rfl⟩
    · exact (hanswers c now d).mpr ⟨hkey, hanswer⟩
    · simp [admits, hallowed, hwindow]
  have hcount : (order.filter admits).length ≤ ⌊w / g.emissionInterval⌋₊ + g.burst := by
    have hzip : (order.map (·.2.1)).zip (order.map (·.2.2)) = order.map (·.2) := by
      rw [List.zip_map', List.map_congr_left]
      intro x _
      rfl
    calc (order.filter admits).length
        = g.admittedIn (order.map (·.2.1)) a (a + w) := by
          rw [Limiter.admittedIn, ← hdecisions, hzip, List.countP_map, List.countP_eq_length_filter]
          rfl
      _ ≤ ⌊w / g.emissionInterval⌋₊ + g.burst := Limiter.admittedIn_le hsorted a hw
  calc _ ≤ (((order.filter admits).map (·.1)).toFinset : Set τ).encard := Set.encard_le_encard hsub
    _ ≤ ((order.filter admits).length : ℕ) := by
        rw [Set.encard_coe_eq_coe_finsetCard, Nat.cast_le]
        exact (List.toFinset_card_le _).trans (List.length_map _).le
    _ ≤ _ := Nat.cast_le.mpr hcount

end Shared

/-- **Failing open admits no more than it counts.**  After every run `fail_closed_count` is the
number of calls that found the lock taken, and `fail_open_count` the number of those that an error
ended, or 0 when the limiter fails closed.  In every run in which nobody touches the TAT of a key
past its lease, a closed window of length `w` admits at most `⌊w / T⌋ + burst` requests of the key
and one for each error, over exact rationals. -/
theorem errors_bound_admissions {τ : Type} [DecidableEq τ] (g : GCRALimiter) (keyOf : τ → String)
    (clock : ℚ) (acts : List (Shared.Act τ)) :
    let s := acts.foldl (Shared.next g keyOf) (.init clock)
    {c | (s.checks c).contended}.encard = s.counts .failClosed ∧
    (g.failOpen = true → {c | (s.checks c).erred = true}.encard = s.counts .failOpen) ∧
    (g.failOpen = false → s.counts .failOpen = 0) ∧
    ∀ key, Guarded (Shared.next g keyOf) (Shared.WithinLease g keyOf key) (.init clock) acts →
      ∀ a w, 0 ≤ w → (s.admitted g keyOf key a (a + w)).encard ≤
        (⌊w / g.emissionInterval⌋₊ + g.burst + s.counts .failOpen : ℕ) := by
  intro s
  have hcounted := Shared.run_counted g keyOf clock acts
  refine ⟨hcounted.contended, hcounted.errors, hcounted.silent, fun key hacts a w hw => ?_⟩
  have hserial := (Shared.run_serialized hacts).encard_le a hw
  have herrors : {c | g.failOpen = true ∧ (s.checks c).erred = true}.encard ≤
      s.counts .failOpen := by
    cases hopen : g.failOpen with
    | true =>
        rw [← hcounted.errors hopen]
        exact Set.encard_le_encard fun c hc => hc.2
    | false => simp
  have hsub : s.admitted g keyOf key a (a + w) ⊆ {c | keyOf c = key ∧ ∃ now d,
      (s.checks c).seen.answer = some (now, d) ∧ d.allowed = true ∧ a ≤ now ∧ now ≤ a + w} ∪
      {c | g.failOpen = true ∧ (s.checks c).erred = true} := by
    intro c hc
    rcases Shared.admitted_cases hc with hlimiter | herr
    · exact .inl ⟨hc.1, hlimiter⟩
    · exact .inr herr
  calc _ ≤ _ := Set.encard_le_encard hsub
    _ ≤ _ := Set.encard_union_le _ _
    _ ≤ _ := add_le_add hserial herrors
    _ = _ := (Nat.cast_add _ _).symm

/-- With no burst, two errors and one instant: three at most, and the errors are two of them. -/
theorem errors_bound_admissions_lost_answer :
    let s := withErrors.foldl (Shared.next perKey keyOfCaller) (.init 0)
    s.counts .failOpen = 2 ∧ (s.admitted perKey keyOfCaller "POST:a" 0 (0 + 0)).encard ≤
      (3 : ℕ) := by
  intro s
  have hcount : s.counts .failOpen = 2 := by decide +kernel
  have hbound := (errors_bound_admissions perKey keyOfCaller 0 withErrors).2.2.2 "POST:a"
    (by decide +kernel) 0 0 le_rfl
  change _ ≤ ((_ + s.counts .failOpen : ℕ) : ℕ∞) at hbound
  rw [hcount, zero_div, Nat.floor_zero] at hbound
  exact ⟨hcount, hbound⟩

end LedgerProof.Gcra
