import LedgerProof.Harness.Reorderer

/-!
# Runs of the reorderer

What `Sound` says of a run of `_Reorderer`: no delivery is lost or forwarded twice, no run goes on
forever, and when no call can go on all have ended.  A call raises only if its delivery is in a
flush of another call that is still running when its second hold is over, unless there is no hold at
all (`fails_without_hold`).
-/

namespace LedgerProof.Reorderer

variable {τ ρ : Type} [DecidableEq τ] {n : ℕ} {maxHoldS : ℚ} {s s' : State τ ρ}
  {place : τ → Place τ} {t : τ}

/-- The run. -/
def run (n : ℕ) (maxHoldS : ℚ) (acts : List (Act τ ρ)) : State τ ρ :=
  acts.foldl (State.next n maxHoldS) State.init

/-- **In every run the deliveries are in one place each.** -/
lemma sound_run (hn : 1 ≤ n) (acts : List (Act τ ρ)) :
    ∃ place, Sound n (run n maxHoldS acts) place := by
  refine foldl_inv (fun s : State τ ρ => ∃ place, Sound n s place) ?_ ⟨_, Sound.init hn⟩ acts
  rintro s a ⟨place, h⟩
  unfold State.next
  cases hstep : s.step n maxHoldS a with
  | none => exact ⟨place, h⟩
  | some s' => exact h.steps (State.steps_of_step hstep)

/-! ## At rest -/

/-- The step can be made. -/
def State.Enabled (n : ℕ) (maxHoldS : ℚ) (s : State τ ρ) (a : Act τ ρ) :
    Prop := (s.step n maxHoldS a).isSome

/-- No call can go on. -/
def State.AtRest (n : ℕ) (maxHoldS : ℚ) (s : State τ ρ) :
    Prop := ∀ a, (∀ t, a ≠ .submit t) → s.step n maxHoldS a = none

/-- **A call that has not ended can go on.** -/
lemma State.AtRest.ended (h : s.AtRest n maxHoldS) (ht : s.pc t ≠ .idle) : (s.pc t).Ended := by
  cases hpc : s.pc t with
  | idle => exact absurd hpc ht
  | waiting =>
      have hstep := h (.timeout t) (by simp)
      simp [step, hpc] at hstep
  | timedOut =>
      have hstep := h (.recheck t) (by simp)
      simp only [step, hpc] at hstep
      split_ifs at hstep
  | waitingAgain =>
      have hwake := h (.wake t) (by simp)
      have hexpire := h (.expire t) (by simp)
      simp only [step, hpc] at hwake hexpire
      split_ifs at hwake hexpire
  | expired =>
      have hstep := h (.fail t) (by simp)
      simp [step, hpc] at hstep
  | forwarding wire rest =>
      cases wire with
      | some p =>
          have hstep := h (.answer t []) (by simp)
          simp [step, hpc] at hstep
      | none =>
          cases rest with
          | nil =>
              have hstep := h (.finish t) (by simp)
              simp [step, hpc] at hstep
          | cons p rest =>
              have hstep := h (.forward t) (by simp)
              simp [step, hpc] at hstep
  | returned v => trivial
  | failed => trivial

/-- A delivery that is in nobody's hands any more was forwarded. -/
lemma Sound.sent_of_ended (h : Sound n s place) (hall : ∀ x, s.pc x ≠ .idle → (s.pc x).Ended)
    (ht : s.pc t ≠ .idle) : place t = .sent := by
  have hfree : ∀ x, place t ≠ .held x ∧ place t ≠ .wire x := by
    intro x
    refine h.free (fun wire rest hpc => ?_) t
    have hended := hall x (by simp [hpc])
    rw [hpc] at hended
    exact hended
  have hended := hall t ht
  have hfits := h.fits t
  cases hpc : s.pc t with
  | returned v =>
      rw [hpc] at hfits
      exact hfits.1
  | failed =>
      rw [hpc] at hfits
      obtain ⟨⟨hout, -, -⟩, hbuffered, -⟩ := hfits
      cases hplace : place t with
      | outside => exact absurd hplace hout
      | buffered => exact absurd hplace hbuffered
      | held x => exact absurd hplace (hfree x).1
      | wire x => exact absurd hplace (hfree x).2
      | sent => rfl
  | _ =>
      rw [hpc] at hended
      cases hended

/-! ## How long a run is -/

/-- How far a call has come. -/
def Pc.spent : Pc τ ρ → ℕ
  | .idle => 0
  | .waiting => 0
  | .timedOut => 1
  | .waitingAgain => 2
  | .expired => 3
  | .forwarding _ _ => 2
  | .returned _ => 4
  | .failed => 4

/-- The steps that were made, at least. -/
def State.effort (s : State τ ρ) : ℕ :=
  (s.arrivals.map fun t => (s.pc t).spent + 1).sum + s.forwards.length + s.replies.length

lemma Sound.mem_arrivals_of_pc (h : Sound n s place) (ht : s.pc t ≠ .idle) : t ∈ s.arrivals := by
  have hfits := h.fits t
  refine (h.mem_arrivals t).mpr fun hout => ?_
  cases hpc : s.pc t with
  | idle => exact ht hpc
  | waiting | timedOut | waitingAgain | expired | failed =>
      rw [hpc] at hfits
      exact hfits.1.1 hout
  | forwarding wire rest =>
      rw [hpc, Fits, hout] at hfits
      simp at hfits
  | returned v =>
      rw [hpc, Fits, hout] at hfits
      simp at hfits

lemma Sound.effort_goto (h : Sound n s place) (ht : s.pc t ≠ .idle) {pc : Pc τ ρ}
    (hpc : (s.pc t).spent < pc.spent) :
    s.effort < (s.goto t pc).effort := by
  have hsum : (s.arrivals.map fun x => (s.pc x).spent + 1).sum <
      (s.arrivals.map fun x => (Function.update s.pc t pc x).spent + 1).sum := by
    refine List.sum_lt_sum _ _ (fun x _ => ?_) ⟨t, h.mem_arrivals_of_pc ht, by simpa using hpc⟩
    rcases eq_or_ne x t with rfl | hx
    · simpa using hpc.le
    · rw [Function.update_of_ne hx]
  unfold State.effort
  exact Nat.add_lt_add_right (Nat.add_lt_add_right hsum _) _

/-- Some call has come further, or a delivery has. -/
lemma Sound.effort_steps (h : Sound n s place) {a : Act τ ρ} (hstep : s.Steps n maxHoldS a s') :
    s.effort < s'.effort := by
  have hsame : ∀ {t : τ} {pc : Pc τ ρ} {l : List τ}, (t ∈ l → (s.pc t).spent = pc.spent) →
      (l.map fun x => (Function.update s.pc t pc x).spent + 1).sum =
        (l.map fun x => (s.pc x).spent + 1).sum := by
    intro t pc l hl
    congr 1
    refine List.map_congr_left fun x hx => ?_
    rcases eq_or_ne x t with rfl | hne
    · rw [Function.update_self, hl hx]
    · rw [Function.update_of_ne hne]
  have hnew : ∀ {t : τ}, s.pc t = .idle → t ∉ s.arrivals := fun hpc hmem =>
    (h.mem_arrivals _).mp hmem (h.fits_of hpc).1
  cases hstep with
  | @hold t hpc hfits =>
      have hsum := @hsame _ .waiting _ (fun hmem => absurd hmem (hnew hpc))
      simp only [State.effort, State.hold, State.goto, List.map_append, List.sum_append, hsum]
      simp [Pc.spent]
  | @flush t hpc hfull =>
      have hsum := @hsame _ (.forwarding none (s.buffer ++ [t]).reverse) _ (fun hmem =>
        absurd hmem (hnew hpc))
      simp only [State.effort, State.flush, State.goto, List.map_append, List.sum_append, hsum]
      simp [Pc.spent]
  | move hmove =>
      cases hmove with
      | timeout hpc => exact h.effort_goto (by simp [hpc]) (by simp [hpc, Pc.spent])
      | wake hpc _ =>
          rcases hpc with hpc | hpc
          · exact h.effort_goto (by simp [hpc]) (by simp [hpc, Pc.spent])
          · exact h.effort_goto (by simp [hpc]) (by simp [hpc, Pc.spent])
      | again hpc _ => exact h.effort_goto (by simp [hpc]) (by simp [hpc, Pc.spent])
      | expire hpc _ => exact h.effort_goto (by simp [hpc]) (by simp [hpc, Pc.spent])
      | fail hpc => exact h.effort_goto (by simp [hpc]) (by simp [hpc, Pc.spent])
  | takeBack hpc hbuffer => exact h.effort_goto (by simp [hpc]) (by simp [hpc, Pc.spent])
  | @send t p rest hpc =>
      have hsum := @hsame _ (.forwarding (some p) rest) s.arrivals (fun _ => by rw [hpc]; rfl)
      simp only [State.effort, State.send, State.goto, hsum]
      simp
  | @settle t p rest hpc results =>
      have hsum := @hsame _ (.forwarding none rest) s.arrivals (fun _ => by rw [hpc]; rfl)
      simp only [State.effort, State.settle, State.goto, hsum]
      simp
  | finish hpc => exact h.effort_goto (by simp [hpc]) (by simp [hpc, Pc.spent])

/-- Five steps of a call, and two for its delivery. -/
lemma Sound.effort_le (h : Sound n s place) : s.effort ≤ 7 * s.arrivals.length := by
  have hspent : (s.arrivals.map fun t => (s.pc t).spent + 1).sum ≤ s.arrivals.length * 5 := by
    rw [← List.length_map (fun t => (s.pc t).spent + 1)]
    refine List.sum_le_card_nsmul _ 5 fun k hk => ?_
    obtain ⟨t, -, rfl⟩ := List.mem_map.mp hk
    cases s.pc t <;> simp [Pc.spent]
  have hforwards : s.forwards.length ≤ s.arrivals.length := by
    rw [← List.length_map Prod.snd]
    refine (h.forwards_nodup.subperm fun p hp => (h.mem_arrivals p).mpr ?_).length_le
    rcases (h.mem_forwards p).mp hp with hplace | ⟨x, hplace⟩ <;> simp [hplace]
  have hreplies : s.replies.length ≤ s.arrivals.length := by
    rw [← List.length_map Prod.fst]
    refine (h.replies_nodup.subperm fun p hp => (h.mem_arrivals p).mpr ?_).length_le
    obtain ⟨⟨p, v⟩, hmem, rfl⟩ := List.mem_map.mp hp
    simp [((h.mem_replies p v).mp hmem).1]
  unfold State.effort
  omega

/-- **A run has at most seven steps for each call.** -/
lemma length_run_le (hn : 1 ≤ n) {acts : List (Act τ ρ)}
    (h : Guarded (State.next n maxHoldS) (State.Enabled n maxHoldS) State.init acts) :
    acts.length ≤ 7 * (run n maxHoldS acts).arrivals.length := by
  have hstep : ∀ (s : State τ ρ) (a : Act τ ρ), s.Enabled n maxHoldS a →
      s.Steps n maxHoldS a (s.next n maxHoldS a) := by
    intro s a ha
    obtain ⟨s', hs'⟩ := Option.isSome_iff_exists.mp ha
    rw [State.next, hs']
    exact State.steps_of_step hs'
  have hkeeps : ∀ (s : State τ ρ) (a : Act τ ρ), (∃ place, Sound n s place) →
      s.Enabled n maxHoldS a →
      ∃ place, Sound n (s.next n maxHoldS a) place := fun s a ⟨_, hs⟩ ha => hs.steps (hstep s a ha)
  have hgrows : ∀ (s : State τ ρ) (a : Act τ ρ), (∃ place, Sound n s place) →
      s.Enabled n maxHoldS a →
      s.effort < (s.next n maxHoldS a).effort := fun s a ⟨_, hs⟩ ha =>
        hs.effort_steps (hstep s a ha)
  have heffort := Guarded.length_le State.effort _ hkeeps hgrows ⟨_, Sound.init hn⟩ h
  obtain ⟨place, hsound⟩ := sound_run hn acts
  exact ((Nat.le_add_left _ _).trans heffort).trans hsound.effort_le

/-! ## Why a call fails -/

/-- Another call has the delivery. -/
def State.HeldByAnother (s : State τ ρ) (t : τ) : Prop :=
  ∃ x batch wire rest, x ≠ t ∧ (x, batch) ∈ s.flushes ∧ t ∈ batch ∧ s.pc x = .forwarding wire rest ∧
    (wire = some t ∨ t ∈ rest)

/-- **A delivery that its call waits for again is in a flush**, as long as it is not done. -/
lemma Sound.heldByAnother (h : Sound n s place) (hpc : s.pc t = .waitingAgain)
    (hdone : s.done t = false) :
    s.HeldByAnother t := by
  obtain ⟨⟨hout, hheld, hwire⟩, hbuffered, -⟩ := h.fits_of hpc
  obtain ⟨x, hplace⟩ : ∃ x, place t = .held x ∨ place t = .wire x := by
    cases hplace : place t with
    | outside => exact absurd hplace hout
    | buffered => exact absurd hplace hbuffered
    | held x => exact ⟨x, .inl rfl⟩
    | wire x => exact ⟨x, .inr rfl⟩
    | sent =>
        rw [(h.done t).mpr hplace] at hdone
        cases hdone
  have hx : x ≠ t := by
    rintro rfl
    exact hplace.elim hheld hwire
  obtain ⟨⟨wire, rest, hx_pc⟩, hflush⟩ := h.taken t x hplace
  obtain ⟨batch, hmem, ht⟩ := hflush hx
  obtain ⟨-, -, hrest, hwire', -⟩ := h.fits_of hx_pc
  refine ⟨x, batch, wire, rest, hx, hmem, ht, hx_pc, ?_⟩
  exact hplace.symm.imp (hwire' t).mpr (hrest t).mpr

/-- A call whose second hold is over was waiting for it. -/
lemma expired_of_steps (hpos : 0 < maxHoldS) {a : Act τ ρ} (hstep : s.Steps n maxHoldS a s')
    (ht : s'.pc t = .expired ∨ s'.pc t = .failed) :
    (s.pc t = .expired ∨ s.pc t = .failed) ∨
    (a = .expire t ∧ s.pc t = .waitingAgain ∧ s.done t = false) := by
  have hgoto : ∀ {x : τ} {pc : Pc τ ρ}, s'.pc = Function.update s.pc x pc →
      (pc = .expired ∨ pc = .failed → x = t → (s.pc t = .expired ∨ s.pc t = .failed) ∨
        (a = .expire t ∧ s.pc t = .waitingAgain ∧ s.done t = false)) →
      (s.pc t = .expired ∨ s.pc t = .failed) ∨
        (a = .expire t ∧ s.pc t = .waitingAgain ∧ s.done t = false) := by
    intro x pc hs' hx
    rw [hs'] at ht
    rcases eq_or_ne t x with rfl | hne
    · rw [Function.update_self] at ht
      exact hx ht rfl
    · rw [Function.update_of_ne hne] at ht
      exact .inl ht
  cases hstep with
  | hold | flush | takeBack | send | settle | finish => exact hgoto rfl (by simp)
  | move hmove =>
      cases hmove with
      | expire hpc hdone =>
          refine hgoto rfl ?_
          rintro - rfl
          exact .inr ⟨rfl, hpc, hdone hpos⟩
      | fail hpc =>
          refine hgoto rfl ?_
          rintro - rfl
          exact .inl (.inl hpc)
      | timeout | wake | again => exact hgoto rfl (by simp)

/-- **A call fails only because of a flush that is still running after its second hold.** -/
lemma failed_of_run (hn : 1 ≤ n) (hpos : 0 < maxHoldS) (acts : List (Act τ ρ))
    (h : (run n maxHoldS acts).pc t = .expired ∨ (run n maxHoldS acts).pc t = .failed) :
    ∃ before after, acts = before ++ .expire t :: after ∧
      (run n maxHoldS before).pc t = .waitingAgain ∧
      (run n maxHoldS before).HeldByAnother t := by
  induction acts using List.reverseRecOn with
  | nil => simp [run, State.init] at h
  | append_singleton acts a ih =>
      have hlater : (run n maxHoldS acts).pc t = .expired ∨ (run n maxHoldS acts).pc t = .failed →
          ∃ before after, acts ++ [a] = before ++ .expire t :: after ∧
            (run n maxHoldS before).pc t = .waitingAgain ∧
            (run n maxHoldS before).HeldByAnother t := by
        intro h
        obtain ⟨before, after, hacts, hbefore⟩ := ih h
        exact ⟨before, after ++ [a], by rw [hacts]; simp, hbefore⟩
      rw [run, List.foldl_append, List.foldl_cons, List.foldl_nil, ← run, State.next] at h
      cases hstep : (run n maxHoldS acts).step n maxHoldS a with
      | none =>
          rw [hstep] at h
          exact hlater h
      | some s' =>
          rw [hstep] at h
          rcases expired_of_steps hpos (State.steps_of_step hstep) h with h | ⟨rfl, hpc, hdone⟩
          · exact hlater h
          · obtain ⟨place, hsound⟩ := sound_run hn acts
            exact ⟨acts, [], rfl, hpc, hsound.heldByAnother hpc hdone⟩

/-! ## The reorderer -/

/-- What the reorderer keeps at every moment. -/
structure Correct (n : ℕ) (s : State τ ρ) : Prop where
  /-- The buffer is not full. -/
  buffer : s.buffer.length < n
  /-- No delivery is forwarded twice, or before its call. -/
  once : (s.forwards.map Prod.snd).Nodup ∧ ∀ p ∈ s.forwards.map Prod.snd, s.pc p ≠ .idle
  /-- The deliveries of a full buffer are forwarded in the reverse order of their arrival. -/
  reversed : ∀ t batch, (t, batch) ∈ s.flushes → batch.length = n ∧ batch.Sublist s.arrivals ∧
    s.sentBy t <+: batch.reverse ∧ ((s.pc t).Ended → s.sentBy t = batch.reverse)
  /-- A call returns what `forward` returned for its own delivery. -/
  returned : ∀ t v, s.pc t = .returned v → ∀ v', (t, v') ∈ s.replies ↔ v' = v

lemma Sound.correct (h : Sound n s place) : Correct n s where
  buffer := h.buffer_length
  once := by
    refine ⟨h.forwards_nodup, fun p hp hpc => ?_⟩
    have hout := (h.fits_of hpc).1
    rcases (h.mem_forwards p).mp hp with hplace | ⟨x, hplace⟩ <;> simp [hout] at hplace
  reversed := by
    intro t batch hmem
    obtain ⟨hlength, hsub⟩ := h.flushes _ hmem
    have hfits := h.fits t
    refine ⟨hlength, hsub, ?_⟩
    cases hpc : s.pc t with
    | forwarding wire rest =>
        rw [hpc] at hfits
        obtain ⟨-, -, -, -, hflush⟩ := hfits
        exact ⟨⟨rest, hflush batch hmem⟩, False.elim⟩
    | returned v =>
        rw [hpc] at hfits
        obtain ⟨-, -, hflush⟩ := hfits
        exact ⟨hflush batch hmem ▸ List.prefix_refl _, fun _ => hflush batch hmem⟩
    | idle | waitingAgain | expired | failed =>
        rw [hpc] at hfits
        exact absurd hmem (hfits.2.2 batch)
    | waiting | timedOut =>
        rw [hpc] at hfits
        exact absurd hmem (hfits.2 batch)
  returned := by
    intro t v hpc v'
    obtain ⟨hplace, rfl, -⟩ := h.fits_of hpc
    rw [h.mem_replies]
    exact and_iff_right hplace

/-- **The reorderer forwards each delivery exactly once.**  At every moment of every run no delivery
was forwarded twice, those of a full buffer in the reverse order of their arrival, the buffer is not
full, and a call that returned has the results of its own delivery; if there is a hold at all, a
call fails only because a flush of another call still had its delivery when its second hold was
over.  No run has more than seven steps for each call, and when no call can go on, all of them have
ended and all deliveries were forwarded. -/
theorem reorderer_forwards_each_once (n : ℕ) (maxHoldS : ℚ) (hn : 1 ≤ n) (acts : List (Act τ ρ)) :
    Correct n (run n maxHoldS acts) ∧
    (0 < maxHoldS → ∀ t, (run n maxHoldS acts).pc t = .failed →
      ∃ before after, acts = before ++ .expire t :: after ∧
        (run n maxHoldS before).pc t = .waitingAgain ∧ (run n maxHoldS before).HeldByAnother t) ∧
    (Guarded (State.next n maxHoldS) (State.Enabled n maxHoldS) State.init acts →
      acts.length ≤ 7 * (run n maxHoldS acts).arrivals.length) ∧
    ((run n maxHoldS acts).AtRest n maxHoldS → ∀ t, (run n maxHoldS acts).pc t ≠ .idle →
      ((run n maxHoldS acts).pc t).Ended ∧ ((run n maxHoldS acts).forwards.map Prod.snd).count t =
        1) := by
  obtain ⟨place, h⟩ : ∃ place, Sound n (run n maxHoldS acts) place := sound_run hn acts
  refine ⟨h.correct, fun hpos t ht => failed_of_run hn hpos acts (.inr ht), length_run_le hn,
    fun hrest t ht => ?_⟩
  have hsent := h.sent_of_ended (fun x hx => hrest.ended hx) ht
  refine ⟨hrest.ended ht, List.count_eq_one_of_mem h.forwards_nodup ?_⟩
  exact (h.mem_forwards t).mpr (.inl hsent)

/-- Call 1 fills the buffer and forwards its own delivery; the two holds of call 0 are over before
it gets to the other one. -/
def lateRun : List (Act ℕ ℕ) :=
  [.submit 0, .submit 1, .forward 1, .timeout 0, .recheck 0, .expire 0, .fail 0, .answer 1 [201],
    .forward 1, .answer 1 [200], .finish 1]

theorem reorderer_forwards_each_once_late :
    Correct 2 (run 2 5 lateRun) ∧ (run 2 5 lateRun).forwards = [(1, 1), (1, 0)] ∧
      (∃ before after, lateRun = before ++ .expire 0 :: after ∧
        (run 2 5 before).HeldByAnother 0) := by
  obtain ⟨hcorrect, hfailed, -, -⟩ := reorderer_forwards_each_once 2 5 (by decide) lateRun
  obtain ⟨before, after, hacts, -, hheld⟩ := hfailed (by norm_num) 0 rfl
  exact ⟨hcorrect, rfl, before, after, hacts, hheld⟩

/-- The first hold of call 0 is over, call 1 fills the buffer and forwards both deliveries, and call
0 waits again. -/
def promptRun : List (Act ℕ ℕ) :=
  [.submit 0, .timeout 0, .submit 1, .forward 1, .answer 1 [201], .forward 1, .answer 1 [200],
    .finish 1, .recheck 0]

/-- Without a hold, call 0 fails although its delivery is done and the flush that had it has
ended. -/
theorem fails_without_hold :
    (run 2 0 (promptRun ++ [.expire 0, .fail 0])).pc 0 = .failed ∧
      (run 2 0 promptRun).done 0 = true ∧ (run 2 0 promptRun).pc 1 = .returned [201] ∧
      ¬(run 2 0 promptRun).HeldByAnother 0 := by
  refine ⟨rfl, rfl, rfl, ?_⟩
  rintro ⟨x, batch, wire, rest, hx, hflush, -, hpc, -⟩
  obtain ⟨rfl, rfl⟩ := Prod.mk.inj (List.mem_singleton.mp hflush)
  cases hpc

end LedgerProof.Reorderer
