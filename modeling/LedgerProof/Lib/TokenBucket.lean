import Mathlib.Algebra.Order.Floor.Semiring
import Mathlib.Tactic

/-!
# Continuous token buckets

A bucket holds at most `capacity` tokens and gains one every `interval`, as a continuous quantity
over any ordered field.  A check admits when at least one token is there, and removes it.

Two facts carry everything said about a bucket.  What is admitted up to an instant `c` is paid by
the tokens that are there and by what flows in until `c` (`countUpTo_le`); since a bucket never
holds more than its capacity, the checks of a closed window are bounded wherever the window starts
(`countIn_le`).  And at one instant nothing flows in, so as many checks are admitted as there are
whole tokens (`count_replicate`).
-/

namespace LedgerProof

/-- How much a bucket holds and how fast it fills. -/
structure TokenBucket (K : Type*) [Field K] [LinearOrder K] where
  capacity : K
  interval : K
  capacity_nonneg : 0 ≤ capacity
  interval_pos : 0 < interval

namespace TokenBucket

/-! ## Checks and their answers -/

section Answers

variable {α : Type*}

/-- The checks admitted at an instant with the property. -/
def countWhere (p : α → Bool) (nows : List α) (ds : List Bool) : ℕ :=
  (nows.zip ds).countP fun x => x.2 && p x.1

variable {now : α} {nows : List α} {p q : α → Bool}

lemma countWhere_cons_true {ds : List Bool} :
    countWhere p (now :: nows) (true :: ds) = countWhere p nows ds + if p now then 1 else 0 := by
  simp [countWhere, List.countP_cons]

lemma countWhere_cons_false {ds : List Bool} :
    countWhere p (now :: nows) (false :: ds) = countWhere p nows ds := by
  simp [countWhere]

lemma countWhere_eq_zero (h : ∀ n ∈ nows, p n = false) (ds : List Bool) :
    countWhere p nows ds = 0 := by
  refine List.countP_eq_zero.mpr fun x hx => ?_
  simp [h x.1 (List.of_mem_zip hx).1]

lemma countWhere_mono (h : ∀ n, p n = true → q n = true) (ds : List Bool) :
    countWhere p nows ds ≤ countWhere q nows ds := by
  refine List.countP_mono_left fun x _ hx => ?_
  obtain ⟨hadmitted, hp⟩ := Bool.and_eq_true_iff.mp hx
  simp [hadmitted, h _ hp]

lemma head_le [Preorder α] {x : α} (h : (now :: nows).Pairwise (· ≤ ·)) (hx : x ∈ now :: nows) :
    now ≤ x := by
  rcases List.mem_cons.mp hx with rfl | hx
  · exact le_rfl
  · exact (List.pairwise_cons.mp h).1 x hx

end Answers

/-! ## The bucket -/

variable {K : Type*} [Field K] [LinearOrder K]

/-- The tokens there were when the bucket was last looked at. -/
structure Level (K : Type*) where
  tokens : K
  since : K

variable (b : TokenBucket K)

/-- A full bucket. -/
def full (t : K) : Level K := ⟨b.capacity, t⟩

/-- The tokens at a later instant. -/
def refill (s : Level K) (now : K) : K := min b.capacity (s.tokens + (now - s.since) / b.interval)

/-- A check: admitted if there is a whole token, which it removes. -/
def check (s : Level K) (now : K) : Bool × Level K :=
  if 1 ≤ b.refill s now then (true, ⟨b.refill s now - 1, now⟩) else (false, ⟨b.refill s now, now⟩)

/-- Checks at these instants. -/
def decisions : Level K → List K → List Bool
  | _, [] => []
  | s, now :: nows => (b.check s now).1 :: decisions (b.check s now).2 nows

variable {b} {s : Level K} {now : K} {nows : List K}

lemma decisions_cons_of_le (h : 1 ≤ b.refill s now) :
    b.decisions s (now :: nows) = true :: b.decisions ⟨b.refill s now - 1, now⟩ nows := by
  simp only [decisions, check, h, if_true]

lemma decisions_cons_of_lt (h : b.refill s now < 1) :
    b.decisions s (now :: nows) = false :: b.decisions ⟨b.refill s now, now⟩ nows := by
  simp only [decisions, check, not_le.mpr h, if_false]

lemma refill_le_capacity : b.refill s now ≤ b.capacity := min_le_left _ _

lemma refill_le : b.refill s now ≤ s.tokens + (now - s.since) / b.interval := min_le_right _ _

/-- Looking at the bucket at an instant changes nothing at that instant. -/
lemma refill_refill_self : b.refill ⟨b.refill s now, now⟩ now = b.refill s now := by
  simp [refill]

lemma decisions_refill : b.decisions ⟨b.refill s now, now⟩ (now :: nows) =
    b.decisions s (now :: nows) := by
  simp only [decisions, check, refill_refill_self]

variable [IsStrictOrderedRing K]

lemma refill_nonneg (htokens : 0 ≤ s.tokens) (hnow : s.since ≤ now) : 0 ≤ b.refill s now := by
  have hflow : 0 ≤ (now - s.since) / b.interval :=
    div_nonneg (sub_nonneg.mpr hnow) b.interval_pos.le
  exact le_min b.capacity_nonneg (by linarith)

/-! ## What is admitted in a window -/

/-- **Admitted checks are paid for** by the tokens that are there and by those that flow in. -/
lemma countUpTo_le {c : K} (hnows : (s.since :: nows).Pairwise (· ≤ ·)) (htokens : 0 ≤ s.tokens)
    (hc : s.since ≤ c) :
    (countWhere (fun n => decide (n ≤ c)) nows (b.decisions s nows) : K) ≤
      s.tokens + (c - s.since) / b.interval := by
  induction nows generalizing s with
  | nil =>
      have hflow : 0 ≤ (c - s.since) / b.interval :=
        div_nonneg (sub_nonneg.mpr hc) b.interval_pos.le
      simp only [countWhere, List.zip_nil_left, List.countP_nil, Nat.cast_zero]
      linarith
  | cons now nows ih =>
      obtain ⟨hsince, hrest⟩ := List.pairwise_cons.mp hnows
      have hnow : s.since ≤ now := hsince now (by simp)
      by_cases hlate : now ≤ c
      · have hrefill : 0 ≤ b.refill s now := refill_nonneg htokens hnow
        -- the flow until `c` is the flow until the check and the flow after it
        have hsplit : (c - s.since) / b.interval =
            (now - s.since) / b.interval + (c - now) / b.interval := by
          rw [← add_div]
          ring_nf
        have hpaid : b.refill s now ≤ s.tokens + (now - s.since) / b.interval := refill_le
        by_cases hone : 1 ≤ b.refill s now
        · have hrec := ih (s := ⟨b.refill s now - 1, now⟩) hrest (by simpa using hone) hlate
          rw [decisions_cons_of_le hone, countWhere_cons_true]
          simp only [hlate, decide_true, if_true, Nat.cast_add, Nat.cast_one]
          dsimp only at hrec
          linarith
        · have hrec := ih (s := ⟨b.refill s now, now⟩) hrest hrefill hlate
          rw [decisions_cons_of_lt (not_le.mp hone), countWhere_cons_false]
          dsimp only at hrec
          linarith
      · -- the window is over
        have hover : ∀ n ∈ now :: nows, decide (n ≤ c) = false := fun n hn => by
          simpa using (not_le.mp hlate).trans_le (head_le hrest hn)
        have hflow : 0 ≤ (c - s.since) / b.interval :=
          div_nonneg (sub_nonneg.mpr hc) b.interval_pos.le
        rw [countWhere_eq_zero hover]
        push_cast
        linarith

/-- **A closed window** admits no more than a full bucket and what flows into it. -/
theorem countIn_le {a c : K} (hac : a ≤ c) (hnows : (s.since :: nows).Pairwise (· ≤ ·))
    (htokens : 0 ≤ s.tokens) :
    (countWhere (fun n => decide (a ≤ n ∧ n ≤ c)) nows (b.decisions s nows) : K) ≤
      b.capacity + (c - a) / b.interval := by
  have hwindow : 0 ≤ (c - a) / b.interval := div_nonneg (sub_nonneg.mpr hac) b.interval_pos.le
  have hcapacity := b.capacity_nonneg
  induction nows generalizing s with
  | nil =>
      simp only [countWhere, List.zip_nil_left, List.countP_nil, Nat.cast_zero]
      linarith
  | cons now nows ih =>
      obtain ⟨hsince, hrest⟩ := List.pairwise_cons.mp hnows
      have hrefill : 0 ≤ b.refill s now := refill_nonneg htokens (hsince now (by simp))
      by_cases hearly : now < a
      · -- not in the window yet
        have hout : ¬(a ≤ now ∧ now ≤ c) := fun h => absurd h.1 (not_le.mpr hearly)
        by_cases hone : 1 ≤ b.refill s now
        · rw [decisions_cons_of_le hone, countWhere_cons_true]
          simpa [hout] using ih (s := ⟨b.refill s now - 1, now⟩) hrest (by simpa using hone)
        · rw [decisions_cons_of_lt (not_le.mp hone), countWhere_cons_false]
          exact ih (s := ⟨b.refill s now, now⟩) hrest hrefill
      · by_cases hlate : now ≤ c
        · -- the first check of the window finds at most a full bucket
          have hfrom : (now :: now :: nows).Pairwise (· ≤ ·) :=
            List.pairwise_cons.mpr ⟨fun n hn => head_le hrest hn, hrest⟩
          have hpaid := countUpTo_le (b := b) (s := ⟨b.refill s now, now⟩) hfrom hrefill hlate
          have hmono : countWhere (fun n => decide (a ≤ n ∧ n ≤ c)) (now :: nows)
              (b.decisions s (now :: nows)) ≤ countWhere (fun n => decide (n ≤ c)) (now :: nows)
                (b.decisions ⟨b.refill s now, now⟩ (now :: nows)) := by
            rw [decisions_refill]
            exact countWhere_mono (by simp +contextual) _
          have hfull : b.refill s now ≤ b.capacity := refill_le_capacity
          have hflow : (c - now) / b.interval ≤ (c - a) / b.interval :=
            div_le_div_of_nonneg_right (by linarith) b.interval_pos.le
          have hcast := Nat.cast_le (α := K).mpr hmono
          dsimp only at hpaid
          linarith
        · have hover : ∀ n ∈ now :: nows, decide (a ≤ n ∧ n ≤ c) = false := fun n hn => by
            simp [(not_le.mp hlate).trans_le (head_le hrest hn)]
          rw [countWhere_eq_zero hover, Nat.cast_zero]
          linarith

/-! ## One instant -/

/-- **At one instant** as many checks are admitted as there are whole tokens. -/
theorem count_replicate [FloorSemiring K] (hfull : s.tokens ≤ b.capacity) (n : ℕ) :
    (b.decisions s (List.replicate n s.since)).count true = min n ⌊s.tokens⌋₊ := by
  have hrefill : b.refill s s.since = s.tokens := by simp [refill, hfull]
  induction n generalizing s with
  | zero => simp [decisions]
  | succ n ih =>
      rw [List.replicate_succ]
      by_cases hone : 1 ≤ s.tokens
      · have hrest := ih (s := ⟨s.tokens - 1, s.since⟩) (by simp; linarith)
          (by simp [refill]; linarith)
        rw [decisions_cons_of_le (by rwa [hrefill]), hrefill, List.count_cons_self, hrest]
        have hfloor : 1 ≤ ⌊s.tokens⌋₊ := Nat.le_floor (by simpa using hone)
        rw [Nat.floor_sub_one]
        omega
      · have hzero : ⌊s.tokens⌋₊ = 0 := Nat.floor_eq_zero.mpr (not_le.mp hone)
        have hrest := ih hfull hrefill
        rw [decisions_cons_of_lt (by rw [hrefill]; exact not_le.mp hone), hrefill,
          List.count_cons_of_ne (by simp), hrest, hzero]
        omega

end TokenBucket

end LedgerProof
