import Mathlib.Algebra.Order.Floor.Ring
import Mathlib.Data.Rat.Floor
import Mathlib.Tactic

/-!
# The GCRA limiter

`limits/gcra.py`, over exact rationals for its floats and in seconds: one key stores a theoretical
arrival time (TAT), and a check is arithmetic on it.

`Limiter.respond` is what `check` computes between its `GET` and its `SET`.  `Limiter.checkAt` is a
check whose commands all run at one instant, against a Redis that drops the key when its `px` is
over, and `Limiter.serial` is one check after the other.  The key is never dropped before its TAT is
past, so `serial_eq_serialForever`: a store that forgets nothing gives the same decisions.
-/

namespace LedgerProof.Gcra

/-- The parameters of `GCRALimiter`, as its constructor accepts them. -/
structure Limiter where
  rate : ℕ
  period : ℚ
  burst : ℕ
  rate_pos : 0 < rate
  period_pos : 0 < period
  burst_pos : 1 ≤ burst

/-- `Decision`. -/
structure Decision where
  allowed : Bool
  limit : ℕ
  remaining : ℕ
  retryAfterS : ℚ
  reason : String
  deriving DecidableEq, Repr

/-- A string key with an expiry, as Redis stores the TAT. -/
structure Key where
  value : ℚ
  expiresAt : ℚ
  deriving DecidableEq, Repr

/-- `GET` at the time `t`. -/
def live (key : Option Key) (t : ℚ) : Option ℚ :=
  key.bind fun k => if t < k.expiresAt then some k.value else none

namespace Limiter

variable (g : Limiter)

/-- `emission_interval`. -/
def emissionInterval : ℚ := g.period / g.rate

/-- `tolerance`. -/
def tolerance : ℚ := g.emissionInterval * (g.burst - 1)

/-- `_remaining`. -/
def remaining (now tat : ℚ) : ℕ :=
  if g.emissionInterval ≤ 0 then g.burst
  else (⌊(g.tolerance + g.emissionInterval - (tat - now)) / g.emissionInterval⌋).toNat

/-- The middle of `check`: the decision, and the TAT to be stored when it allows. -/
def respond (now : ℚ) (raw : Option ℚ) : Decision × Option ℚ :=
  let tat := raw.getD now
  let allowAt := tat - g.tolerance
  if now < allowAt then (⟨false, g.rate, 0, allowAt - now, "rate_limited"⟩, none)
  else
    let newTat := max now tat + g.emissionInterval
    (⟨true, g.rate, g.remaining now newTat, 0, ""⟩, some newTat)

/-- `int(ttl_s * 1000) + 1000`. -/
def px (now newTat : ℚ) : ℤ :=
  ⌊max (newTat - now + g.tolerance) g.emissionInterval * 1000⌋ + 1000

/-- `SET tat px` at the time `t`. -/
def stored (now newTat t : ℚ) : Key := ⟨newTat, t + g.px now newTat / 1000⟩

/-! ## Checks one after the other -/

/-- A check that gets the lock, all its commands at one instant. -/
def checkAt (key : Option Key) (now : ℚ) : Decision × Option Key :=
  match g.respond now (live key now) with
  | (d, none) => (d, key)
  | (d, some newTat) => (d, some (g.stored now newTat now))

/-- Checks at these instants. -/
def serial : Option Key → List ℚ → List Decision
  | _, [] => []
  | key, now :: nows => (g.checkAt key now).1 :: serial (g.checkAt key now).2 nows

/-- A check against a store that keeps the TAT forever. -/
def checkForever (tat : Option ℚ) (now : ℚ) : Decision × Option ℚ :=
  match g.respond now tat with
  | (d, none) => (d, tat)
  | (d, some newTat) => (d, some newTat)

def serialForever : Option ℚ → List ℚ → List Decision
  | _, [] => []
  | tat, now :: nows => (g.checkForever tat now).1 :: serialForever (g.checkForever tat now).2 nows

/-- The TAT that such checks leave. -/
def tatAfter (tat : Option ℚ) (nows : List ℚ) : Option ℚ :=
  nows.foldl (fun tat now => (g.checkForever tat now).2) tat

lemma serialForever_append (tat : Option ℚ) (nows : List ℚ) (now : ℚ) :
    g.serialForever tat (nows ++ [now]) =
      g.serialForever tat nows ++ [(g.checkForever (g.tatAfter tat nows) now).1] := by
  induction nows generalizing tat with
  | nil => rfl
  | cons n nows ih =>
      rw [List.cons_append, serialForever, ih, serialForever, List.cons_append]
      rfl

lemma tatAfter_append (tat : Option ℚ) (nows : List ℚ) (now : ℚ) :
    g.tatAfter tat (nows ++ [now]) = (g.checkForever (g.tatAfter tat nows) now).2 := by
  simp [tatAfter, List.foldl_append]

/-! ## The key outlives its TAT -/

variable {g}

lemma emissionInterval_pos (g : Limiter) : 0 < g.emissionInterval :=
  div_pos g.period_pos (by exact_mod_cast g.rate_pos)

lemma tolerance_nonneg (g : Limiter) : 0 ≤ g.tolerance := by
  have hburst : (1 : ℚ) ≤ g.burst := by exact_mod_cast g.burst_pos
  exact mul_nonneg g.emissionInterval_pos.le (by linarith)

lemma respond_none (now : ℚ) : g.respond now none =
    (⟨true, g.rate, g.remaining now (now + g.emissionInterval), 0, ""⟩,
      some (now + g.emissionInterval)) := by
  have htol := g.tolerance_nonneg
  have hallow : ¬now < now - g.tolerance := by linarith
  simp only [respond, Option.getD_none, hallow, if_false, max_self]

/-- A TAT in the past is as good as none. -/
lemma respond_of_le {now tat : ℚ} (h : tat ≤ now) :
    g.respond now (some tat) = g.respond now none := by
  have htol := g.tolerance_nonneg
  have hallow : ¬now < tat - g.tolerance := by linarith
  rw [respond_none]
  simp only [respond, Option.getD_some, hallow, if_false, max_eq_left h]

/-- The store holds the TAT, and holds it for half a second beyond itself. -/
def Follows : Option Key → Option ℚ → Prop
  | none, none => True
  | some key, some tat => key.value = tat ∧ tat + 1 / 2 < key.expiresAt
  | _, _ => False

lemma follows_none : Follows none none := trivial

/-- **Dropping the key changes no answer**, even when it is read up to half a second after the
clock. -/
lemma Follows.respond {key : Option Key} {tat : Option ℚ} (h : Follows key tat) {now t : ℚ}
    (hlate : t ≤ now + 1 / 2) : g.respond now (live key t) = g.respond now tat := by
  match key, tat, h with
  | none, none, _ => rfl
  | some key, some tat, ⟨hvalue, hexpires⟩ =>
      by_cases hlive : t < key.expiresAt
      · simp [live, hlive, hvalue]
      · have hpast : tat ≤ now := by linarith
        rw [respond_of_le hpast]
        simp [live, hlive]

lemma follows_stored {now newTat t : ℚ} (h : now ≤ t) :
    Follows (some (g.stored now newTat t)) (some newTat) := by
  refine ⟨rfl, ?_⟩
  have htol := g.tolerance_nonneg
  have hmax := le_max_left (newTat - now + g.tolerance) g.emissionInterval
  have hfloor := Int.sub_one_lt_floor
    (max (newTat - now + g.tolerance) g.emissionInterval * 1000)
  simp only [stored, px]
  push_cast
  linarith

lemma Follows.checkAt {key : Option Key} {tat : Option ℚ} (h : Follows key tat) (now : ℚ) :
    (g.checkAt key now).1 = (g.checkForever tat now).1 ∧
      Follows (g.checkAt key now).2 (g.checkForever tat now).2 := by
  unfold Limiter.checkAt checkForever
  rw [h.respond (by linarith : now ≤ now + 1 / 2)]
  rcases g.respond now tat with ⟨d, _ | newTat⟩
  · exact ⟨rfl, h⟩
  · exact ⟨rfl, follows_stored le_rfl⟩

/-- **Expiry is not observable.** -/
lemma serial_eq_serialForever {key : Option Key} {tat : Option ℚ} (h : Follows key tat)
    (nows : List ℚ) : g.serial key nows = g.serialForever tat nows := by
  induction nows generalizing key tat with
  | nil => rfl
  | cons now nows ih =>
      obtain ⟨hdecision, hnext⟩ := h.checkAt (g := g) now
      rw [serial, serialForever, hdecision, ih hnext]

end Limiter

/-- **Expiring the key is unobservable.**  Whenever the checks run, a Redis that drops the TAT when
its `px` is over gives every decision that a store gives which keeps it forever. -/
theorem expiry_unobservable (g : Limiter) (nows : List ℚ) :
    g.serial none nows = g.serialForever none nows :=
  Limiter.serial_eq_serialForever Limiter.follows_none nows

namespace Limiter

variable {g : Limiter}

/-- The key that such checks leave. -/
def keyAfter (g : Limiter) (key : Option Key) (nows : List ℚ) : Option Key :=
  nows.foldl (fun key now => (g.checkAt key now).2) key

lemma Follows.keyAfter {key : Option Key} {tat : Option ℚ} (h : Follows key tat) (nows : List ℚ) :
    Follows (g.keyAfter key nows) (g.tatAfter tat nows) := by
  induction nows generalizing key tat with
  | nil => exact h
  | cons now nows ih => exact ih (h.checkAt (g := g) now).2

end Limiter

end LedgerProof.Gcra
