import Mathlib.Data.List.TakeWhile
import Mathlib.Tactic

/-!
# Hysteresis

A level that follows a target one step at a time: it moves up only after `up` demands in a row that
were above it, and down only after `down` in a row that were below it.  A reset puts it to zero.

`Reached` keeps, next to the dial, the demands that brought it there.  The counters are then no
state of their own: each is the length of the run of demands at the end of that record which agree
(`Reached.hot_eq`), so the moves are read off the record (`raise_iff`, `lower_iff`).  Under one
target the work that is left to reach it goes down by one with each demand (`climb`).

Up and down are mirror images of each other (`mirror`), and everything is proved upwards.
-/

namespace LedgerProof

/-- How many demands in a row move the level. -/
structure Hysteresis where
  up : ℤ
  down : ℤ
  up_pos : 1 ≤ up
  down_pos : 1 ≤ down

namespace Hysteresis

/-- The level, and the two counters of demands in a row. -/
structure Dial where
  level : ℤ
  hot : ℤ
  calm : ℤ
  deriving DecidableEq

/-- One demand. -/
def follow (c : Hysteresis) (s : Dial) (target : ℤ) : Dial :=
  if s.level < target then
    if c.up ≤ s.hot + 1 then ⟨s.level + 1, 0, 0⟩ else ⟨s.level, s.hot + 1, 0⟩
  else if target < s.level then
    if c.down ≤ s.calm + 1 then ⟨s.level - 1, 0, 0⟩ else ⟨s.level, 0, s.calm + 1⟩
  else ⟨s.level, 0, 0⟩

/-- A demand in the record: the level it found, and its target. -/
structure Demand where
  level : ℤ
  target : ℤ

/-- The entry of the record is a demand that found the level `l` and was above it. -/
def hotAt (l : ℤ) : Option Demand → Bool
  | some d => decide (d.level = l ∧ l < d.target)
  | none => false

/-- The entry of the record is a demand that found the level `l` and was below it. -/
def calmAt (l : ℤ) : Option Demand → Bool
  | some d => decide (d.level = l ∧ d.target < l)
  | none => false

/-- The dials that demands and resets lead to, with the record of them, newest first. -/
inductive Reached (c : Hysteresis) : Dial → List (Option Demand) → Prop
  | rest : Reached c ⟨0, 0, 0⟩ []
  | reset {s : Dial} {h : List (Option Demand)} : Reached c s h → Reached c ⟨0, 0, 0⟩ (none :: h)
  | follow {s : Dial} {h : List (Option Demand)} (target : ℤ) : Reached c s h →
      Reached c (c.follow s target) (some ⟨s.level, target⟩ :: h)

/-- The last `n` entries of a record all have the property. -/
def InARow {α : Type*} (n : ℤ) (p : α → Bool) (h : List α) : Prop :=
  n ≤ h.length ∧ ∀ m ∈ h.take n.toNat, p m = true

/-! ## Entries in a row -/

section InARow

variable {α β : Type*} {n : ℤ} {p : α → Bool} {h : List α}

lemma inARow_iff : InARow n p h ↔ n ≤ (h.takeWhile p).length := by
  constructor
  · rintro ⟨hlen, hall⟩
    have hsplit : h.takeWhile p = h.take n.toNat ++ (h.drop n.toNat).takeWhile p := by
      conv_lhs => rw [← List.take_append_drop n.toNat h]
      exact List.takeWhile_append_of_pos hall
    rw [hsplit, List.length_append, List.length_take]
    omega
  · intro hle
    obtain ⟨rest, hrest⟩ := List.takeWhile_prefix (l := h) p
    have hlen := congrArg List.length hrest
    rw [List.length_append] at hlen
    refine ⟨by omega, fun m hm => ?_⟩
    rw [← hrest, List.take_append_of_le_length (by omega)] at hm
    exact List.mem_takeWhile_imp (List.mem_of_mem_take hm)

lemma inARow_map {q : β → Bool} {f : α → β} (hq : ∀ m ∈ h, q (f m) = p m) :
    InARow n q (h.map f) ↔ InARow n p h := by
  unfold InARow
  rw [List.length_map, ← List.map_take, List.forall_mem_map]
  refine and_congr_right fun _ => forall₂_congr fun m hm => ?_
  rw [hq m (List.mem_of_mem_take hm)]

end InARow

/-! ## What a demand does -/

section Follow

variable {c : Hysteresis} {s : Dial} {t : ℤ}

lemma follow_raise (h : s.level < t) (hrow : c.up ≤ s.hot + 1) :
    c.follow s t = ⟨s.level + 1, 0, 0⟩ := by
  rw [follow, if_pos h, if_pos hrow]

lemma follow_hot (h : s.level < t) (hrow : s.hot + 1 < c.up) :
    c.follow s t = ⟨s.level, s.hot + 1, 0⟩ := by
  rw [follow, if_pos h, if_neg (not_le.mpr hrow)]

lemma follow_lower (h : t < s.level) (hrow : c.down ≤ s.calm + 1) :
    c.follow s t = ⟨s.level - 1, 0, 0⟩ := by
  rw [follow, if_neg (not_lt.mpr h.le), if_pos h, if_pos hrow]

lemma follow_calm (h : t < s.level) (hrow : s.calm + 1 < c.down) :
    c.follow s t = ⟨s.level, 0, s.calm + 1⟩ := by
  rw [follow, if_neg (not_lt.mpr h.le), if_pos h, if_neg (not_le.mpr hrow)]

lemma follow_reached (h : t = s.level) : c.follow s t = ⟨s.level, 0, 0⟩ := by
  rw [follow, if_neg h.le.not_gt, if_neg h.ge.not_gt]

lemma follow_cases (c : Hysteresis) (s : Dial) (t : ℤ) :
    (s.level < t ∧ c.up ≤ s.hot + 1 ∧ c.follow s t = ⟨s.level + 1, 0, 0⟩) ∨
      (s.level < t ∧ s.hot + 1 < c.up ∧ c.follow s t = ⟨s.level, s.hot + 1, 0⟩) ∨
      (t < s.level ∧ c.down ≤ s.calm + 1 ∧ c.follow s t = ⟨s.level - 1, 0, 0⟩) ∨
      (t < s.level ∧ s.calm + 1 < c.down ∧ c.follow s t = ⟨s.level, 0, s.calm + 1⟩) ∨
      (t = s.level ∧ c.follow s t = ⟨s.level, 0, 0⟩) := by
  rcases lt_trichotomy s.level t with hlt | heq | hgt
  · rcases le_or_gt c.up (s.hot + 1) with hrow | hrow
    · exact .inl ⟨hlt, hrow, follow_raise hlt hrow⟩
    · exact .inr (.inl ⟨hlt, hrow, follow_hot hlt hrow⟩)
  · exact .inr (.inr (.inr (.inr ⟨heq.symm, follow_reached heq.symm⟩)))
  · rcases le_or_gt c.down (s.calm + 1) with hrow | hrow
    · exact .inr (.inr (.inl ⟨hgt, hrow, follow_lower hgt hrow⟩))
    · exact .inr (.inr (.inr (.inl ⟨hgt, hrow, follow_calm hgt hrow⟩)))

/-- A demand moves the level by at most one, and only towards its target. -/
lemma follow_level (c : Hysteresis) (s : Dial) (t : ℤ) :
    (c.follow s t).level = s.level ∨ (s.level < t ∧ (c.follow s t).level = s.level + 1) ∨
      (t < s.level ∧ (c.follow s t).level = s.level - 1) := by
  rcases c.follow_cases s t with ⟨h, -, heq⟩ | ⟨-, -, heq⟩ | ⟨h, -, heq⟩ | ⟨-, -, heq⟩ | ⟨-, heq⟩
  · exact .inr (.inl ⟨h, by rw [heq]⟩)
  · exact .inl (by rw [heq])
  · exact .inr (.inr ⟨h, by rw [heq]⟩)
  · exact .inl (by rw [heq])
  · exact .inl (by rw [heq])

/-! ## The mirror image -/

/-- Up and down exchanged. -/
def mirror (c : Hysteresis) : Hysteresis := ⟨c.down, c.up, c.down_pos, c.up_pos⟩

def Dial.mirror (s : Dial) : Dial := ⟨-s.level, s.calm, s.hot⟩

def Demand.mirror (d : Demand) : Demand := ⟨-d.level, -d.target⟩

lemma follow_mirror : c.mirror.follow s.mirror (-t) = (c.follow s t).mirror := by
  rcases c.follow_cases s t with ⟨h, hrow, heq⟩ | ⟨h, hrow, heq⟩ | ⟨h, hrow, heq⟩ |
    ⟨h, hrow, heq⟩ | ⟨h, heq⟩
  · rw [heq, follow_lower (neg_lt_neg h) hrow, Dial.mirror, Dial.mirror]
    simp only [Dial.mk.injEq, and_true]
    ring
  · rw [heq, follow_calm (neg_lt_neg h) hrow]
    rfl
  · rw [heq, follow_raise (neg_lt_neg h) hrow, Dial.mirror, Dial.mirror]
    simp only [Dial.mk.injEq, and_true]
    ring
  · rw [heq, follow_hot (neg_lt_neg h) hrow]
    rfl
  · rw [heq, follow_reached (congrArg Neg.neg h)]
    rfl

lemma hotAt_mirror (l : ℤ) (m : Option Demand) :
    hotAt (-l) (m.map Demand.mirror) = calmAt l m := by
  cases m with
  | none => rfl
  | some d => simp [hotAt, calmAt, Demand.mirror]

lemma Reached.mirror {h : List (Option Demand)} (hs : Reached c s h) :
    Reached c.mirror s.mirror (h.map (·.map Demand.mirror)) := by
  induction hs with
  | rest => exact .rest
  | reset _ ih => exact .reset ih
  | follow target _ ih =>
      rw [← follow_mirror]
      exact .follow (-target) ih

end Follow

/-! ## The counters count the record -/

section Record

variable {c : Hysteresis} {s : Dial} {h : List (Option Demand)} {t l : ℤ}

/-- The demands above the level `l` at the end of a record. -/
def row (l : ℤ) (h : List (Option Demand)) : ℤ := (h.takeWhile (hotAt l)).length

lemma row_cons_of_hot {m : Option Demand} (hm : hotAt l m = true) :
    row l (m :: h) = row l h + 1 := by
  simp [row, hm]

lemma row_cons_of_not_hot {m : Option Demand} (hm : hotAt l m = false) : row l (m :: h) = 0 := by
  simp [row, hm]

lemma hotAt_of_lt (hlt : l < t) : hotAt l (some ⟨l, t⟩) = true := by simp [hotAt, hlt]

lemma hotAt_of_le (hle : t ≤ l) : hotAt l (some ⟨l, t⟩) = false := by simp [hotAt, hle]

lemma hotAt_of_ne {k : ℤ} (hne : k ≠ l) : hotAt l (some ⟨k, t⟩) = false := by simp [hotAt, hne]

namespace Reached

lemma hot_eq (hs : Reached c s h) : s.hot = row s.level h := by
  induction hs with
  | rest => rfl
  | reset _ _ => rfl
  | @follow s h target _ ih =>
      rcases c.follow_cases s target with ⟨-, -, heq⟩ | ⟨hlt, -, heq⟩ | ⟨-, -, heq⟩ |
        ⟨hlt, -, heq⟩ | ⟨htarget, heq⟩
      · rw [heq, row_cons_of_not_hot (hotAt_of_ne (by dsimp only; omega))]
      · rw [heq, row_cons_of_hot (hotAt_of_lt hlt), ← ih]
      · rw [heq, row_cons_of_not_hot (hotAt_of_ne (by dsimp only; omega))]
      · rw [heq, row_cons_of_not_hot (hotAt_of_le hlt.le)]
      · rw [heq, row_cons_of_not_hot (hotAt_of_le htarget.le)]

lemma hot_lt (hs : Reached c s h) : 0 ≤ s.hot ∧ s.hot < c.up := by
  have hup := c.up_pos
  have hrest : (0 : ℤ) ≤ 0 ∧ 0 < c.up := ⟨le_rfl, by omega⟩
  induction hs with
  | rest => exact hrest
  | reset _ _ => exact hrest
  | @follow s h target _ ih =>
      obtain ⟨hnonneg, -⟩ := ih
      rcases c.follow_cases s target with ⟨-, -, heq⟩ | ⟨-, hshort, heq⟩ | ⟨-, -, heq⟩ |
        ⟨-, -, heq⟩ | ⟨-, heq⟩
      · rw [heq]
        exact hrest
      · rw [heq]
        exact ⟨by dsimp only; omega, hshort⟩
      · rw [heq]
        exact hrest
      · rw [heq]
        exact hrest
      · rw [heq]
        exact hrest

/-- **A raise is earned by a row of demands above the level**, and such a row raises it. -/
theorem raise_iff (hs : Reached c s h) : (c.follow s t).level = s.level + 1 ↔
    InARow c.up (hotAt s.level) (some ⟨s.level, t⟩ :: h) := by
  have hup := c.up_pos
  have hrow : InARow c.up (hotAt s.level) (some ⟨s.level, t⟩ :: h) ↔
      c.up ≤ row s.level (some ⟨s.level, t⟩ :: h) := inARow_iff
  rw [hrow]
  rcases lt_or_ge s.level t with hlt | hle
  · rw [row_cons_of_hot (hotAt_of_lt hlt), ← hs.hot_eq]
    constructor
    · intro hraised
      by_contra hshort
      rw [follow_hot hlt (not_le.mp hshort)] at hraised
      dsimp only at hraised
      omega
    · intro hearned
      rw [follow_raise hlt hearned]
  · rw [row_cons_of_not_hot (hotAt_of_le hle)]
    have hlevel := c.follow_level s t
    constructor <;> intro <;> omega

/-- **A lowering is earned by a row of demands below the level**, and such a row lowers it. -/
theorem lower_iff (hs : Reached c s h) : (c.follow s t).level = s.level - 1 ↔
    InARow c.down (calmAt s.level) (some ⟨s.level, t⟩ :: h) := by
  have hmirror := hs.mirror.raise_iff (t := -t)
  rw [follow_mirror] at hmirror
  have hmap : InARow c.down (hotAt (-s.level))
      ((some ⟨s.level, t⟩ :: h).map (·.map Demand.mirror)) ↔
      InARow c.down (calmAt s.level) (some ⟨s.level, t⟩ :: h) :=
    inARow_map fun m _ => hotAt_mirror s.level m
  rw [← hmap]
  refine Iff.trans ?_ hmirror
  show _ ↔ -(c.follow s t).level = -s.level + 1
  omega

lemma level_mem (hs : Reached c s h) {top : ℤ} (htop : 0 ≤ top)
    (htargets : ∀ d, some d ∈ h → 0 ≤ d.target ∧ d.target ≤ top) :
    0 ≤ s.level ∧ s.level ≤ top := by
  induction hs with
  | rest => exact ⟨le_rfl, htop⟩
  | reset _ _ => exact ⟨le_rfl, htop⟩
  | @follow s h target _ ih =>
      obtain ⟨hnonneg, hle⟩ := ih fun d hd => htargets d (by simp [hd])
      have htarget := htargets ⟨s.level, target⟩ (by simp)
      dsimp only at htarget
      rcases c.follow_level s target with heq | ⟨hlt, heq⟩ | ⟨hlt, heq⟩ <;> omega

end Reached

lemma InARow.le_countP {α : Type*} {n : ℤ} {p : α → Bool} {later earlier : List α} {m : α}
    (hrow : InARow n p (later ++ m :: earlier)) (hm : p m = false) : n ≤ later.countP p := by
  refine (inARow_iff.mp hrow).trans ?_
  clear hrow
  induction later with
  | nil => simp [hm]
  | cons x later ih =>
      cases hx : p x with
      | false => simp [hx]
      | true =>
          rw [List.cons_append, List.takeWhile_cons_of_pos hx, List.countP_cons_of_pos hx,
            List.length_cons]
          push_cast
          omega

/-- **A lowering comes late after a raise**: `down` demands below the level lie between. -/
theorem Reached.lower_after_raise {later : List (Option Demand)} {before t' : ℤ}
    (hs : Reached c s (later ++ some ⟨before, t⟩ :: h)) (hraise : before < t)
    (hlower : (c.follow s t').level = s.level - 1) :
    c.down ≤ later.countP (·.isSome) + 1 := by
  have hrow := hs.lower_iff.mp hlower
  have hnot : calmAt s.level (some ⟨before, t⟩) = false := by
    simp only [calmAt, decide_eq_false_iff_not, not_and, not_lt]
    omega
  have hcount : c.down ≤ (some ⟨s.level, t'⟩ :: later).countP (calmAt s.level) :=
    InARow.le_countP hrow hnot
  have hsome : later.countP (calmAt s.level) ≤ later.countP (·.isSome) :=
    List.countP_mono_left fun m _ hm => by
      cases m with
      | none => simp [calmAt] at hm
      | some d => rfl
  rw [List.countP_cons] at hcount
  split at hcount <;> push_cast at hcount <;> omega

/-! ## One target -/

/-- The demands that are left until the target is reached from below. -/
def left (c : Hysteresis) (s : Dial) (t : ℤ) : ℤ := (t - s.level) * c.up - s.hot

/-- A demand above the level takes one of the demands that are left. -/
lemma Reached.climb_step (hs : Reached c s h) (hlt : s.level < t) :
    s.level ≤ (c.follow s t).level ∧ (c.follow s t).level ≤ t ∧
      c.left (c.follow s t) t = c.left s t - 1 := by
  obtain ⟨-, hhot⟩ := hs.hot_lt
  rcases le_or_gt c.up (s.hot + 1) with hrow | hrow
  · have hfull : s.hot = c.up - 1 := by omega
    rw [follow_raise hlt hrow]
    refine ⟨by dsimp only; omega, by dsimp only; omega, ?_⟩
    simp only [left, hfull]
    ring
  · rw [follow_hot hlt hrow]
    refine ⟨le_rfl, hlt.le, ?_⟩
    simp only [left]
    ring

lemma Reached.left_pos (hs : Reached c s h) (hlt : s.level < t) : 0 < c.left s t := by
  obtain ⟨-, hhot⟩ := hs.hot_lt
  have hone : 1 * c.up ≤ (t - s.level) * c.up :=
    mul_le_mul_of_nonneg_right (by omega) (by have := c.up_pos; omega)
  rw [left]
  omega

lemma Reached.iterate (hs : Reached c s h) (t : ℤ) (k : ℕ) :
    ∃ h', Reached c ((fun s => c.follow s t)^[k] s) h' := by
  induction k with
  | zero => exact ⟨h, hs⟩
  | succ k ih =>
      obtain ⟨h', hk⟩ := ih
      rw [Function.iterate_succ_apply']
      exact ⟨_, hk.follow t⟩

lemma Reached.climb (hs : Reached c s h) (hle : s.level ≤ t) (k : ℕ) :
    ((fun s => c.follow s t)^[k] s).level ≤ t ∧
      (((fun s => c.follow s t)^[k] s).level = t ∨
        c.left ((fun s => c.follow s t)^[k] s) t = c.left s t - k) := by
  induction k with
  | zero => exact ⟨hle, .inr (by simp)⟩
  | succ k ih =>
      obtain ⟨hk, hleft⟩ := ih
      obtain ⟨h', hreached⟩ := hs.iterate t k
      rw [Function.iterate_succ_apply']
      rcases hk.lt_or_eq with hlt | heq
      · obtain ⟨-, hnext, hone⟩ := hreached.climb_step hlt
        refine ⟨hnext, .inr ?_⟩
        rw [hone, hleft.resolve_left hlt.ne]
        push_cast
        ring
      · rw [follow_reached heq.symm]
        exact ⟨heq.le, .inl heq⟩

/-- **From below**, one target is climbed to without overshooting, within `up` demands a step. -/
theorem Reached.steady_up (hs : Reached c s h) (hle : s.level ≤ t) (k : ℕ) :
    ((fun s => c.follow s t)^[k] s).level ≤ ((fun s => c.follow s t)^[k + 1] s).level ∧
      ((fun s => c.follow s t)^[k] s).level ≤ t ∧
      ((t - s.level) * c.up ≤ k → ((fun s => c.follow s t)^[k] s).level = t) := by
  obtain ⟨h', hreached⟩ := hs.iterate t k
  obtain ⟨hk, hleft⟩ := hs.climb hle k
  refine ⟨?_, hk, fun hlong => ?_⟩
  · rw [Function.iterate_succ_apply']
    rcases hk.lt_or_eq with hlt | heq
    · exact (hreached.climb_step hlt).1
    · rw [follow_reached heq.symm]
  · by_contra hne
    have hlt := lt_of_le_of_ne hk hne
    have hpos := hreached.left_pos hlt
    have hhot := hs.hot_lt
    rw [hleft.resolve_left hne, left] at hpos
    omega

lemma iterate_mirror (k : ℕ) : (fun s => c.mirror.follow s (-t))^[k] s.mirror =
    ((fun s => c.follow s t)^[k] s).mirror := by
  induction k with
  | zero => rfl
  | succ k ih => rw [Function.iterate_succ_apply', Function.iterate_succ_apply', ih, follow_mirror]

/-- **From above**, likewise. -/
theorem Reached.steady_down (hs : Reached c s h) (hle : t ≤ s.level) (k : ℕ) :
    ((fun s => c.follow s t)^[k + 1] s).level ≤ ((fun s => c.follow s t)^[k] s).level ∧
      t ≤ ((fun s => c.follow s t)^[k] s).level ∧
      ((s.level - t) * c.down ≤ k → ((fun s => c.follow s t)^[k] s).level = t) := by
  obtain ⟨hmono, hbound, hreach⟩ := hs.mirror.steady_up (t := -t) (neg_le_neg hle) k
  rw [iterate_mirror, iterate_mirror] at hmono
  rw [iterate_mirror] at hbound hreach
  refine ⟨neg_le_neg_iff.mp hmono, neg_le_neg_iff.mp hbound, fun hlong => neg_inj.mp (hreach ?_)⟩
  have hsame : (-t - s.mirror.level) * c.mirror.up = (s.level - t) * c.down := by
    simp only [Dial.mirror, Hysteresis.mirror]
    ring
  rw [hsame]
  exact hlong

end Record

end Hysteresis

end LedgerProof
