import LedgerProof.Lib.Run
import Mathlib.Data.List.Sublists

/-!
# The reorderer of the live proxy

`_Reorderer` of `harness/proxy.py`: a call of `submit` leaves its delivery in a buffer and waits.
The call that fills the buffer takes all of it and forwards it, the last delivery first; a call
whose hold is over takes its own delivery back if it is still there, and else waits once more for
the call that took it.

A call is also the name of its delivery.  `State.step` is what one call does between two awaits.  No
await stands under the lock, so that the lock is free whenever a call asks for it.  A hold may be
over at any moment, also when the delivery is done and the call has not resumed yet.  The second one
is over only while the delivery is not done, since the event is looked at before the call waits; but
where `max_hold_s` is not positive, `wait_for` raises without looking at it.  `forward` returns at
any later moment, with any results.

`Place` is where a delivery is, and `Sound` that the calls and the buffer know of every delivery
what its place says.  A delivery only moves on from place to place, and it is forwarded in one of
these moves.
-/

namespace LedgerProof.Reorderer

/-- Where a call of `submit` is. -/
inductive Pc (τ ρ : Type)
  /-- Not called yet. -/
  | idle
  /-- In the first `wait_for`. -/
  | waiting
  /-- The first hold is over. -/
  | timedOut
  /-- In the second `wait_for`. -/
  | waitingAgain
  /-- The second hold is over. -/
  | expired
  /-- Forwarding one delivery after the other: the one that `forward` has, and those that come
  next. -/
  | forwarding (wire : Option τ) (rest : List τ)
  | returned (results : List ρ)
  /-- Raised `TimeoutError`. -/
  | failed

/-- The call is over. -/
def Pc.Ended {τ ρ : Type} : Pc τ ρ → Prop
  | .returned _ => True
  | .failed => True
  | _ => False

/-- A step of one of the calls. -/
inductive Act (τ ρ : Type)
  /-- `submit` is called and runs up to its first await. -/
  | submit (t : τ)
  /-- The first hold is over. -/
  | timeout (t : τ)
  /-- A call that waits finds the event set, and returns. -/
  | wake (t : τ)
  /-- `mine = pending in self._buffer`, after the first hold. -/
  | recheck (t : τ)
  /-- The second hold is over. -/
  | expire (t : τ)
  /-- The second `wait_for` raises. -/
  | fail (t : τ)
  /-- `forward` is called with the next delivery. -/
  | forward (t : τ)
  /-- `forward` returns; `held.results` and `held.done` are set. -/
  | answer (t : τ) (results : List ρ)
  /-- Nothing is left to forward, and the call returns. -/
  | finish (t : τ)

/-- The reorderer, its calls, and what has happened. -/
structure State (τ ρ : Type) where
  /-- `_buffer`. -/
  buffer : List τ
  pc : τ → Pc τ ρ
  done : τ → Bool
  results : τ → List ρ
  /-- The calls in the order in which they put their deliveries into the buffer. -/
  arrivals : List τ
  /-- The full buffers, each with the call that took it. -/
  flushes : List (τ × List τ)
  /-- The deliveries in the order in which they were forwarded, each with the call that forwarded
  it. -/
  forwards : List (τ × τ)
  /-- What `forward` returned for each delivery. -/
  replies : List (τ × List ρ)

namespace State

variable {τ ρ : Type}

/-- No call yet. -/
def init : State τ ρ := ⟨[], fun _ => .idle, fun _ => false, fun _ => [], [], [], [], []⟩

/-- The deliveries that a call forwarded, in order. -/
def sentBy [DecidableEq τ] (s : State τ ρ) (t : τ) :
    List τ := (s.forwards.filter (·.1 = t)).map Prod.snd

section

variable [DecidableEq τ]

/-- The call moves on. -/
def goto (s : State τ ρ) (t : τ) (pc : Pc τ ρ) :
    State τ ρ := { s with pc := Function.update s.pc t pc }

/-- `_Reorderer.submit` between two awaits, `none` if the call cannot do this now. -/
def step (n : ℕ) (maxHoldS : ℚ) (s : State τ ρ) : Act τ ρ → Option (State τ ρ)
  | .submit t =>
      match s.pc t with
      | .idle =>
          let buffer := s.buffer ++ [t]
          let s := { s with arrivals := s.arrivals ++ [t] }
          if n ≤ buffer.length then
            some ({ s with buffer := [], flushes := s.flushes ++ [(t, buffer)] }.goto t
              (.forwarding none buffer.reverse))
          else some ({ s with buffer := buffer }.goto t .waiting)
      | _ => none
  | .timeout t =>
      match s.pc t with
      | .waiting => some (s.goto t .timedOut)
      | _ => none
  | .wake t =>
      match s.pc t with
      | .waiting | .waitingAgain =>
          if s.done t ∧ 0 < maxHoldS then some (s.goto t (.returned (s.results t))) else none
      | _ => none
  | .recheck t =>
      match s.pc t with
      | .timedOut =>
          if t ∈ s.buffer then
            some ({ s with buffer := s.buffer.erase t }.goto t (.forwarding none [t]))
          else some (s.goto t .waitingAgain)
      | _ => none
  | .expire t =>
      match s.pc t with
      | .waitingAgain => if s.done t ∧ 0 < maxHoldS then none else some (s.goto t .expired)
      | _ => none
  | .fail t =>
      match s.pc t with
      | .expired => some (s.goto t .failed)
      | _ => none
  | .forward t =>
      match s.pc t with
      | .forwarding none (p :: rest) =>
          some ({ s with forwards := s.forwards ++ [(t, p)] }.goto t (.forwarding (some p) rest))
      | _ => none
  | .answer t results =>
      match s.pc t with
      | .forwarding (some p) rest =>
          some ({ s with
            results := Function.update s.results p results
            done := Function.update s.done p true
            replies := s.replies ++ [(p, results)] }.goto t (.forwarding none rest))
      | _ => none
  | .finish t =>
      match s.pc t with
      | .forwarding none [] => some (s.goto t (.returned (s.results t)))
      | _ => none

/-- The step, if it is possible. -/
def next (n : ℕ) (maxHoldS : ℚ) (s : State τ ρ) (a : Act τ ρ) :
    State τ ρ := (s.step n maxHoldS a).getD s

end

/-! ## What a step does -/

/-- What a call does that only moves on. -/
inductive Move (maxHoldS : ℚ) (s : State τ ρ) (t : τ) : Act τ ρ → Pc τ ρ → Prop
  | timeout (hpc : s.pc t = .waiting) : Move maxHoldS s t (.timeout t) .timedOut
  | wake (hpc : s.pc t = .waiting ∨ s.pc t = .waitingAgain) (hdone : s.done t = true) :
      Move maxHoldS s t (.wake t) (.returned (s.results t))
  | again (hpc : s.pc t = .timedOut) (hbuffer : t ∉ s.buffer) :
      Move maxHoldS s t (.recheck t) .waitingAgain
  | expire (hpc : s.pc t = .waitingAgain) (hdone : 0 < maxHoldS → s.done t = false) :
      Move maxHoldS s t (.expire t) .expired
  | fail (hpc : s.pc t = .expired) : Move maxHoldS s t (.fail t) .failed

variable [DecidableEq τ]

@[simp] lemma goto_pc_self (s : State τ ρ) (t : τ) (pc : Pc τ ρ) :
    (s.goto t pc).pc t = pc := Function.update_self ..

/-- A call leaves its delivery in the buffer. -/
def hold (s : State τ ρ) (t : τ) : State τ ρ :=
  { s with arrivals := s.arrivals ++ [t], buffer := s.buffer ++ [t] }.goto t .waiting

/-- A call takes the buffer that it fills. -/
def flush (s : State τ ρ) (t : τ) : State τ ρ :=
  { s with
    arrivals := s.arrivals ++ [t]
    buffer := []
    flushes := s.flushes ++ [(t, s.buffer ++ [t])] }.goto t
      (.forwarding none (s.buffer ++ [t]).reverse)

/-- A call takes its own delivery back. -/
def takeBack (s : State τ ρ) (t : τ) : State τ ρ :=
  { s with buffer := s.buffer.erase t }.goto t (.forwarding none [t])

/-- `forward` is called. -/
def send (s : State τ ρ) (t p : τ) (rest : List τ) : State τ ρ :=
  { s with forwards := s.forwards ++ [(t, p)] }.goto t (.forwarding (some p) rest)

/-- `forward` returns. -/
def settle (s : State τ ρ) (t p : τ) (rest : List τ) (results : List ρ) : State τ ρ :=
  { s with
    results := Function.update s.results p results
    done := Function.update s.done p true
    replies := s.replies ++ [(p, results)] }.goto t (.forwarding none rest)

/-- What a step does. -/
inductive Steps (n : ℕ) (maxHoldS : ℚ) (s : State τ ρ) : Act τ ρ → State τ ρ → Prop
  | hold {t : τ} (hpc : s.pc t = .idle) (hfits : s.buffer.length + 1 < n) :
      Steps n maxHoldS s (.submit t) (s.hold t)
  | flush {t : τ} (hpc : s.pc t = .idle) (hfull : n ≤ s.buffer.length + 1) :
      Steps n maxHoldS s (.submit t) (s.flush t)
  | move {t : τ} {a : Act τ ρ} {pc : Pc τ ρ} (hmove : s.Move maxHoldS t a pc) :
      Steps n maxHoldS s a (s.goto t pc)
  | takeBack {t : τ} (hpc : s.pc t = .timedOut) (hbuffer : t ∈ s.buffer) :
      Steps n maxHoldS s (.recheck t) (s.takeBack t)
  | send {t p : τ} {rest : List τ} (hpc : s.pc t = .forwarding none (p :: rest)) :
      Steps n maxHoldS s (.forward t) (s.send t p rest)
  | settle {t p : τ} {rest : List τ} (hpc : s.pc t = .forwarding (some p) rest) (results : List ρ) :
      Steps n maxHoldS s (.answer t results) (s.settle t p rest results)
  | finish {t : τ} (hpc : s.pc t = .forwarding none []) :
      Steps n maxHoldS s (.finish t) (s.goto t (.returned (s.results t)))

/-- **A step is one of these.** -/
lemma steps_of_step {n : ℕ} {maxHoldS : ℚ} {s s' : State τ ρ} {a : Act τ ρ}
    (h : s.step n maxHoldS a = some s') : s.Steps n maxHoldS a s' := by
  cases a with
  | submit t =>
      simp only [step, List.length_append, List.length_singleton] at h
      split at h
      · rename_i hpc
        split_ifs at h with hfull
        · cases h
          exact .flush hpc hfull
        · cases h
          exact .hold hpc (not_le.mp hfull)
      · cases h
  | timeout t =>
      simp only [step] at h
      split at h
      · cases h
        exact .move (.timeout ‹_›)
      · cases h
  | wake t =>
      simp only [step] at h
      split at h
      · split_ifs at h with hdone
        cases h
        exact .move (.wake (.inl ‹_›) hdone.1)
      · split_ifs at h with hdone
        cases h
        exact .move (.wake (.inr ‹_›) hdone.1)
      · cases h
  | recheck t =>
      simp only [step] at h
      split at h
      · split_ifs at h with hbuffer
        · cases h
          exact .takeBack ‹_› hbuffer
        · cases h
          exact .move (.again ‹_› hbuffer)
      · cases h
  | expire t =>
      simp only [step] at h
      split at h
      · split_ifs at h with hdone
        cases h
        exact .move (.expire ‹_› fun hpos => by simpa [hpos] using hdone)
      · cases h
  | fail t =>
      simp only [step] at h
      split at h
      · cases h
        exact .move (.fail ‹_›)
      · cases h
  | forward t =>
      simp only [step] at h
      split at h
      · cases h
        exact .send ‹_›
      · cases h
  | answer t results =>
      simp only [step] at h
      split at h
      · cases h
        exact .settle ‹_› results
      · cases h
  | finish t =>
      simp only [step] at h
      split at h
      · cases h
        exact .finish ‹_›
      · cases h

end State

/-! ## Where the deliveries are -/

/-- Where a delivery is. -/
inductive Place (τ : Type)
  /-- Its call has not begun. -/
  | outside
  | buffered
  /-- A call has taken it. -/
  | held (x : τ)
  /-- `forward` has it. -/
  | wire (x : τ)
  /-- `forward` has returned. -/
  | sent

/-- What a step of the call `t` can do to the delivery `p`. -/
inductive Place.Moves {τ : Type} (t p : τ) : Place τ → Place τ → Prop
  | stay (q : Place τ) : Moves t p q q
  | come (h : p = t) : Moves t p .outside .buffered
  | fill (h : p = t) : Moves t p .outside (.held t)
  | take : Moves t p .buffered (.held t)
  | send : Moves t p (.held t) (.wire t)
  | settle : Moves t p (.wire t) .sent

/-- The delivery is not in the hands of its own call. -/
def Place.Away {τ : Type} (t : τ) (q : Place τ) : Prop := q ≠ .outside ∧ q ≠ .held t ∧ q ≠ .wire t

namespace Place.Moves

variable {τ : Type} {t x p : τ} {q q' : Place τ}

lemma held_iff (h : Moves t p q q') (hx : x ≠ t) : q' = .held x ↔ q = .held x := by
  cases h <;> simp [hx.symm]

lemma wire_iff (h : Moves t p q q') (hx : x ≠ t) : q' = .wire x ↔ q = .wire x := by
  cases h <;> simp [hx.symm]

lemma away (h : Moves t p q q') (hp : p ≠ t) (hq : q.Away p) : q'.Away p := by
  cases h with
  | stay => exact hq
  | come heq => exact absurd heq hp
  | fill heq => exact absurd heq hp
  | _ => exact ⟨by simp, by simp [hp.symm], by simp [hp.symm]⟩

lemma sent (h : Moves t p q q') (hq : q = .sent) : q' = .sent := by
  subst hq
  cases h
  rfl

lemma outside_iff (h : Moves t p q q') (hp : p ≠ t) : q' = .outside ↔ q = .outside := by
  cases h with
  | come heq => exact absurd heq hp
  | fill heq => exact absurd heq hp
  | _ => simp

lemma not_buffered (h : Moves t p q q') (hp : p ≠ t) (hq : q ≠ .buffered) : q' ≠ .buffered := by
  cases h with
  | come heq => exact absurd heq hp
  | fill heq => exact absurd heq hp
  | stay => exact hq
  | _ => simp

/-- If one delivery moves, every delivery does what a step can do to it. -/
lemma update [DecidableEq τ] {place : τ → Place τ} (h : Moves t x (place x) q) (p : τ) :
    Moves t p (place p) (Function.update place x q p) := by
  rcases eq_or_ne p x with rfl | hp
  · rwa [Function.update_self]
  · rw [Function.update_of_ne hp]
    exact .stay _

end Place.Moves

/-- Where no delivery comes from and none goes to, the same deliveries are. -/
lemma update_place_iff {τ : Type} [DecidableEq τ] {place : τ → Place τ} {x : τ} {q q' : Place τ}
    (hleft : place x ≠ q) (hcome : q' ≠ q) (p : τ) :
    Function.update place x q' p = q ↔ place p = q := by
  rcases eq_or_ne p x with rfl | hp
  · rw [Function.update_self]
    exact iff_of_false hcome hleft
  · rw [Function.update_of_ne hp]

variable {τ ρ : Type} [DecidableEq τ] {n : ℕ} {maxHoldS : ℚ} {s s' : State τ ρ}
  {place place' : τ → Place τ} {t x p : τ}

/-- What the state of a call says about its delivery and about those that it forwards. -/
def Fits (s : State τ ρ) (place : τ → Place τ) (t : τ) : Pc τ ρ → Prop
  | .idle => place t = .outside ∧ s.sentBy t = [] ∧ ∀ batch, (t, batch) ∉ s.flushes
  | .waiting => (place t).Away t ∧ ∀ batch, (t, batch) ∉ s.flushes
  | .timedOut => (place t).Away t ∧ ∀ batch, (t, batch) ∉ s.flushes
  | .waitingAgain => (place t).Away t ∧ place t ≠ .buffered ∧ ∀ batch, (t, batch) ∉ s.flushes
  | .expired => (place t).Away t ∧ place t ≠ .buffered ∧ ∀ batch, (t, batch) ∉ s.flushes
  | .failed => (place t).Away t ∧ place t ≠ .buffered ∧ ∀ batch, (t, batch) ∉ s.flushes
  | .forwarding wire rest =>
      (place t = .held t ∨ place t = .wire t ∨ place t = .sent) ∧ rest.Nodup ∧
      (∀ p, p ∈ rest ↔ place p = .held t) ∧ (∀ p, wire = some p ↔ place p = .wire t) ∧
      ∀ batch, (t, batch) ∈ s.flushes → s.sentBy t ++ rest = batch.reverse
  | .returned v => place t = .sent ∧ v = s.results t ∧
      ∀ batch, (t, batch) ∈ s.flushes → s.sentBy t = batch.reverse

/-- The calls, the buffer and the history agree on where the deliveries are. -/
structure Sound (n : ℕ) (s : State τ ρ) (place : τ → Place τ) : Prop where
  fits : ∀ t, Fits s place t (s.pc t)
  buffer_length : s.buffer.length < n
  buffer_sublist : s.buffer.Sublist s.arrivals
  mem_buffer : ∀ p, p ∈ s.buffer ↔ place p = .buffered
  arrivals_nodup : s.arrivals.Nodup
  mem_arrivals : ∀ p, p ∈ s.arrivals ↔ place p ≠ .outside
  taken : ∀ p x, place p = .held x ∨ place p = .wire x →
    (∃ wire rest, s.pc x = .forwarding wire rest) ∧
    (x ≠ p → ∃ batch, (x, batch) ∈ s.flushes ∧ p ∈ batch)
  done : ∀ p, s.done p = true ↔ place p = .sent
  flushes : ∀ flush ∈ s.flushes, flush.2.length = n ∧ flush.2.Sublist s.arrivals
  forwards_nodup : (s.forwards.map Prod.snd).Nodup
  mem_forwards : ∀ p, p ∈ s.forwards.map Prod.snd ↔ place p = .sent ∨ ∃ x, place p = .wire x
  replies_nodup : (s.replies.map Prod.fst).Nodup
  mem_replies : ∀ p v, (p, v) ∈ s.replies ↔ place p = .sent ∧ v = s.results p

/-- What a step of the call `t` leaves to the others. -/
structure Frame (t : τ) (s s' : State τ ρ) (place place' : τ → Place τ) : Prop where
  moves : ∀ p, Place.Moves t p (place p) (place' p)
  pc : ∀ x, x ≠ t → s'.pc x = s.pc x
  sentBy : ∀ x, x ≠ t → s'.sentBy x = s.sentBy x
  flushes : ∀ x, x ≠ t → ∀ batch, (x, batch) ∈ s'.flushes ↔ (x, batch) ∈ s.flushes
  results : ∀ x, place x = .sent → s'.results x = s.results x

/-- **The other calls keep their deliveries.** -/
lemma Frame.fits (h : Frame t s s' place place') (hx : x ≠ t) {pc : Pc τ ρ}
    (hfits : Fits s place x pc) :
    Fits s' place' x pc := by
  have hnone : (∀ batch, (x, batch) ∉ s.flushes) → ∀ batch, (x, batch) ∉ s'.flushes :=
    fun hnone batch hmem =>
    hnone batch ((h.flushes x hx batch).mp hmem)
  cases pc with
  | idle =>
      obtain ⟨hplace, hsent, hflush⟩ := hfits
      exact ⟨((h.moves x).outside_iff hx).mpr hplace, (h.sentBy x hx).trans hsent, hnone hflush⟩
  | waiting | timedOut => exact ⟨(h.moves x).away hx hfits.1, hnone hfits.2⟩
  | waitingAgain | expired | failed =>
      obtain ⟨haway, hbuffered, hflush⟩ := hfits
      exact ⟨(h.moves x).away hx haway, (h.moves x).not_buffered hx hbuffered, hnone hflush⟩
  | forwarding wire rest =>
      obtain ⟨hplace, hnodup, hrest, hwire, hflush⟩ := hfits
      refine ⟨?_, hnodup, fun p => ?_, fun p => ?_, fun batch hmem => ?_⟩
      · rw [(h.moves x).held_iff hx, (h.moves x).wire_iff hx]
        exact hplace.imp_right (Or.imp_right (h.moves x).sent)
      · rw [(h.moves p).held_iff hx, hrest]
      · rw [(h.moves p).wire_iff hx, hwire]
      · rw [h.sentBy x hx]
        exact hflush batch ((h.flushes x hx batch).mp hmem)
  | returned v =>
      obtain ⟨hplace, rfl, hflush⟩ := hfits
      refine ⟨(h.moves x).sent hplace, (h.results x hplace).symm, fun batch hmem => ?_⟩
      rw [h.sentBy x hx]
      exact hflush batch ((h.flushes x hx batch).mp hmem)

/-! ## The invariant -/

lemma Sound.init (hn : 1 ≤ n) : Sound n (State.init : State τ ρ) fun _ => .outside where
  fits := fun t => ⟨rfl, rfl, by simp [State.init]⟩
  buffer_length := hn
  buffer_sublist := .slnil
  mem_buffer := by simp [State.init]
  arrivals_nodup := List.nodup_nil
  mem_arrivals := by simp [State.init]
  taken := by simp
  done := by simp [State.init]
  flushes := by simp [State.init]
  forwards_nodup := List.nodup_nil
  mem_forwards := by simp [State.init]
  replies_nodup := List.nodup_nil
  mem_replies := by simp [State.init]

lemma Sound.fits_of (h : Sound n s place) {pc : Pc τ ρ} (hpc : s.pc t = pc) :
    Fits s place t pc := hpc ▸ h.fits t

lemma Sound.free (h : Sound n s place) (hpc : ∀ wire rest, s.pc t ≠ .forwarding wire rest) (p : τ) :
    place p ≠ .held t ∧ place p ≠ .wire t := by
  constructor
  · intro hheld
    obtain ⟨⟨wire, rest, hfw⟩, -⟩ := h.taken p t (.inl hheld)
    exact hpc wire rest hfw
  · intro hwire
    obtain ⟨⟨wire, rest, hfw⟩, -⟩ := h.taken p t (.inr hwire)
    exact hpc wire rest hfw

lemma Sound.arrivals_concat (h : Sound n s place) (hout : place t = .outside) :
    (s.arrivals ++ [t]).Nodup := by
  have hnew : t ∉ s.arrivals := fun hmem => (h.mem_arrivals t).mp hmem hout
  rw [← List.concat_eq_append]
  exact h.arrivals_nodup.concat hnew

lemma Frame.taken (hframe : Frame t s s' place place') (h : Sound n s place) (hx : x ≠ t)
    (hplace : place' p = .held x ∨ place' p = .wire x) :
      (∃ wire rest, s'.pc x = .forwarding wire rest) ∧
      (x ≠ p → ∃ batch, (x, batch) ∈ s'.flushes ∧ p ∈ batch) := by
  rw [(hframe.moves p).held_iff hx, (hframe.moves p).wire_iff hx] at hplace
  obtain ⟨hforwarding, hflush⟩ := h.taken p x hplace
  rw [hframe.pc x hx]
  refine ⟨hforwarding, fun hne => ?_⟩
  obtain ⟨batch, hmem, hp⟩ := hflush hne
  exact ⟨batch, (hframe.flushes x hx batch).mpr hmem, hp⟩

lemma Frame.fits_all (hframe : Frame t s s' place place') (h : Sound n s place)
    (ht : Fits s' place' t (s'.pc t)) :
    ∀ x, Fits s' place' x (s'.pc x) := by
  intro x
  by_cases hx : x = t
  · rwa [hx]
  · rw [hframe.pc x hx]
    exact hframe.fits hx (h.fits x)

lemma sentBy_append (hx : x ≠ t) (forwards : List (τ × τ)) :
    ((forwards ++ [(t, p)]).filter (·.1 = x)).map Prod.snd =
    (forwards.filter (·.1 = x)).map Prod.snd := by
  simp [List.filter_append, hx.symm]

/-- **A call that holds nothing moves on.** -/
lemma Sound.goto (h : Sound n s place) (hfree : ∀ p, place p ≠ .held t ∧ place p ≠ .wire t)
    {pc : Pc τ ρ} (hfits : Fits s place t pc) : Sound n (s.goto t pc) place := by
  have hframe : Frame t s (s.goto t pc) place place :=
    ⟨fun p => .stay _, fun x hx => Function.update_of_ne hx _ _, fun _ _ => rfl, fun _ _ _ =>
      Iff.rfl, fun _ _ => rfl⟩
  have ht : Fits (s.goto t pc) place t ((s.goto t pc).pc t) := by
    rw [State.goto_pc_self]
    cases pc <;> exact hfits
  exact { h with
    fits := hframe.fits_all h ht
    taken := fun p x hplace => by
      have hx : x ≠ t := by
        rintro rfl
        exact hplace.elim (hfree p).1 (hfree p).2
      exact hframe.taken h hx hplace }

lemma Sound.move (h : Sound n s place) {a : Act τ ρ} {pc : Pc τ ρ}
    (hmove : s.Move maxHoldS t a pc) :
    Sound n (s.goto t pc) place := by
  have hfits := h.fits t
  cases hmove with
  | timeout hpc =>
      rw [hpc] at hfits
      exact h.goto (h.free (by simp [hpc])) hfits
  | wake hpc hdone =>
      have hnone : ∀ batch, (t, batch) ∉ s.flushes := by
        rcases hpc with hpc | hpc
        · rw [hpc] at hfits
          exact hfits.2
        · rw [hpc] at hfits
          exact hfits.2.2
      have hfree := h.free (t := t) (by rcases hpc with hpc | hpc <;> simp [hpc])
      exact h.goto hfree ⟨(h.done t).mp hdone, rfl, fun batch hmem => absurd hmem (hnone batch)⟩
  | again hpc hbuffer =>
      rw [hpc] at hfits
      exact h.goto (h.free (by simp [hpc])) ⟨hfits.1, fun hplace =>
        hbuffer ((h.mem_buffer t).mpr hplace), hfits.2⟩
  | expire hpc _ =>
      rw [hpc] at hfits
      exact h.goto (h.free (by simp [hpc])) hfits
  | fail hpc =>
      rw [hpc] at hfits
      exact h.goto (h.free (by simp [hpc])) hfits

lemma Sound.finish (h : Sound n s place) (hpc : s.pc t = .forwarding none []) :
    Sound n (s.goto t (.returned (s.results t))) place := by
  have hfits := h.fits t
  rw [hpc] at hfits
  obtain ⟨hplace, -, hrest, hwire, hflush⟩ := hfits
  have hfree : ∀ p, place p ≠ .held t ∧ place p ≠ .wire t := fun p =>
    ⟨fun hheld => by simpa using (hrest p).mpr hheld, fun hp => by simpa using (hwire p).mpr hp⟩
  have hsent : place t = .sent := by
    rcases hplace with hplace | hplace | hplace
    · exact absurd hplace (hfree t).1
    · exact absurd hplace (hfree t).2
    · exact hplace
  exact h.goto hfree ⟨hsent, rfl, fun batch hmem => by simpa using hflush batch hmem⟩

/-- **A delivery comes into the buffer.** -/
lemma Sound.hold (h : Sound n s place) (hpc : s.pc t = .idle) (hfits : s.buffer.length + 1 < n) :
    Sound n (s.hold t) (Function.update place t .buffered) := by
  obtain ⟨hout, -, hnone⟩ := h.fits_of hpc
  have hfree := h.free (t := t) (by simp [hpc])
  have hframe : Frame t s (s.hold t) place (Function.update place t .buffered) :=
    ⟨Place.Moves.update (hout ▸ .come rfl), fun x hx => Function.update_of_ne hx _ _, fun _ _ =>
      rfl,
      fun _ _ _ => Iff.rfl, fun _ _ => rfl⟩
  have hlater : ∀ q : Place τ, q ≠ .outside → q ≠ .buffered → ∀ p,
      Function.update place t .buffered p = q ↔ place p = q := fun q hq hq' =>
    update_place_iff (hout ▸ hq.symm) hq'.symm
  refine
    { fits := hframe.fits_all h ?_
      buffer_length := by simpa [State.hold, State.goto] using hfits
      buffer_sublist := h.buffer_sublist.append (List.Sublist.refl [t])
      mem_buffer := fun p => ?_
      arrivals_nodup := h.arrivals_concat hout
      mem_arrivals := fun p => ?_
      taken := fun p x hplace => hframe.taken h ?_ hplace
      done := fun p => (h.done p).trans (hlater .sent (by simp) (by simp) p).symm
      flushes := fun flush hmem => ?_
      forwards_nodup := h.forwards_nodup
      replies_nodup := h.replies_nodup
      mem_forwards := fun p => ?_
      mem_replies := fun p v => ?_ }
  · rw [State.hold, State.goto_pc_self]
    refine ⟨?_, hnone⟩
    rw [Function.update_self]
    exact ⟨by simp, by simp, by simp⟩
  · show p ∈ s.buffer ++ [t] ↔ _
    rcases eq_or_ne p t with rfl | hp
    · simp
    · simp [hp, h.mem_buffer]
  · show p ∈ s.arrivals ++ [t] ↔ _
    rcases eq_or_ne p t with rfl | hp
    · simp
    · simp [hp, h.mem_arrivals]
  · rintro rfl
    rw [hlater _ (by simp) (by simp), hlater _ (by simp) (by simp)] at hplace
    exact hplace.elim (hfree p).1 (hfree p).2
  · obtain ⟨hlength, hsub⟩ := h.flushes flush hmem
    exact ⟨hlength, hsub.trans (List.sublist_append_left _ _)⟩
  · rw [hlater _ (by simp) (by simp)]
    simp only [hlater _ (by simp : Place.wire _ ≠ .outside) (by simp)]
    exact h.mem_forwards p
  · rw [hlater _ (by simp) (by simp)]
    exact h.mem_replies p v

lemma Sound.place_of_full (h : Sound n s place) (hout : place t = .outside)
    (hp : p ∈ s.buffer ++ [t]) :
    p = t ∧ place p = .outside ∨ place p = .buffered := by
  rcases List.mem_append.mp hp with hp | hp
  · exact .inr ((h.mem_buffer p).mp hp)
  · obtain rfl := List.mem_singleton.mp hp
    exact .inl ⟨rfl, hout⟩

lemma Sound.flush_frame (h : Sound n s place) (hout : place t = .outside) :
    Frame t s (s.flush t) place fun p => if p ∈ s.buffer ++ [t] then .held t else place p := by
  refine ⟨fun p => ?_, fun x hx => Function.update_of_ne hx _ _, fun _ _ => rfl, fun x hx batch =>
    ?_, fun _ _ => rfl⟩
  · split_ifs with hp
    · rcases h.place_of_full hout hp with ⟨rfl, hplace⟩ | hplace
      · rw [hplace]
        exact .fill rfl
      · rw [hplace]
        exact .take
    · exact .stay _
  · show (x, batch) ∈ s.flushes ++ [(t, s.buffer ++ [t])] ↔ _
    simp [hx]

/-- Where no delivery of a full buffer comes from and none goes to, the same deliveries are. -/
lemma Sound.flush_place_iff (h : Sound n s place) (hout : place t = .outside) {q : Place τ}
    (hq : q ≠ .outside) (hq' : q ≠ .buffered) (hq'' : q ≠ .held t) (p : τ) :
    (if p ∈ s.buffer ++ [t] then .held t else place p) = q ↔ place p = q := by
  split_ifs with hp
  · rcases h.place_of_full hout hp with ⟨-, hplace⟩ | hplace
    · simp [hplace, hq.symm, hq''.symm]
    · simp [hplace, hq'.symm, hq''.symm]
  · rfl

/-- **A full buffer is taken.** -/
lemma Sound.flush (h : Sound n s place) (hpc : s.pc t = .idle) (hfull : n ≤ s.buffer.length + 1) :
    Sound n (s.flush t) fun p => if p ∈ s.buffer ++ [t] then .held t else place p := by
  obtain ⟨hout, hsent, hnone⟩ := h.fits_of hpc
  have hfree := h.free (t := t) (by simp [hpc])
  have hframe := h.flush_frame hout
  have hlater : ∀ q : Place τ, q ≠ .outside → q ≠ .buffered → q ≠ .held t → ∀ p,
      (if p ∈ s.buffer ++ [t] then .held t else place p) = q ↔ place p = q :=
        fun _ => h.flush_place_iff hout
  have harrivals : (s.buffer ++ [t]).Sublist (s.arrivals ++ [t]) :=
    h.buffer_sublist.append (List.Sublist.refl [t])
  have hnodup : (s.arrivals ++ [t]).Nodup := h.arrivals_concat hout
  refine
    { fits := hframe.fits_all h ?_
      buffer_length := (Nat.zero_le _).trans_lt h.buffer_length
      buffer_sublist := List.nil_sublist _
      mem_buffer := fun p => ?_
      arrivals_nodup := hnodup
      mem_arrivals := fun p => ?_
      taken := fun p x hplace => ?_
      done := fun p => (h.done p).trans (hlater .sent (by simp) (by simp) (by simp) p).symm
      flushes := fun flush hmem => ?_
      forwards_nodup := h.forwards_nodup
      replies_nodup := h.replies_nodup
      mem_forwards := fun p => ?_
      mem_replies := fun p v => ?_ }
  · rw [State.flush, State.goto_pc_self]
    refine ⟨.inl (if_pos (by simp)), List.nodup_reverse.mpr (hnodup.sublist harrivals), fun p => ?_,
      fun p => ?_,
      fun batch hmem => ?_⟩
    · rw [List.mem_reverse]
      dsimp only
      split_ifs with hp
      · simp [hp]
      · simp [hp, (hfree p).1]
    · rw [hlater _ (by simp) (by simp) (by simp)]
      simp [(hfree p).2]
    · have hmem : (t, batch) ∈ s.flushes ++ [(t, s.buffer ++ [t])] := hmem
      rcases List.mem_append.mp hmem with hmem | hmem
      · exact absurd hmem (hnone batch)
      · obtain ⟨-, rfl⟩ := Prod.mk.inj (List.mem_singleton.mp hmem)
        show s.sentBy t ++ _ = _
        rw [hsent, List.nil_append]
  · show p ∈ [] ↔ _
    split_ifs with hp
    · simp
    · have hbuffer : place p ≠ .buffered :=
        fun hplace => hp (List.mem_append_left _ ((h.mem_buffer p).mpr hplace))
      simp [hbuffer]
  · show p ∈ s.arrivals ++ [t] ↔ _
    split_ifs with hp
    · simpa using harrivals.subset hp
    · have hne : p ≠ t := fun heq => hp (by simp [heq])
      simp [hne, h.mem_arrivals]
  · rcases eq_or_ne x t with rfl | hx
    · refine ⟨⟨none, _, State.goto_pc_self _ _ _⟩, fun _ =>
        ⟨s.buffer ++ [x], List.mem_append_right _ (by simp), ?_⟩⟩
      by_contra hp
      rw [if_neg hp] at hplace
      exact hplace.elim (hfree p).1 (hfree p).2
    · exact hframe.taken h hx hplace
  · have hmem : flush ∈ s.flushes ++ [(t, s.buffer ++ [t])] := hmem
    rcases List.mem_append.mp hmem with hmem | hmem
    · obtain ⟨hlength, hsub⟩ := h.flushes flush hmem
      exact ⟨hlength, hsub.trans (List.sublist_append_left _ _)⟩
    · obtain rfl := List.mem_singleton.mp hmem
      refine ⟨?_, harrivals⟩
      have hlt := h.buffer_length
      rw [List.length_append, List.length_singleton]
      omega
  · rw [hlater _ (by simp) (by simp) (by simp)]
    simp only [hlater (.wire _) (by simp) (by simp) (by simp)]
    exact h.mem_forwards p
  · rw [hlater _ (by simp) (by simp) (by simp)]
    exact h.mem_replies p v

/-- **A delivery is taken back.** -/
lemma Sound.takeBack (h : Sound n s place) (hpc : s.pc t = .timedOut) (hbuffer : t ∈ s.buffer) :
    Sound n (s.takeBack t) (Function.update place t (.held t)) := by
  obtain ⟨-, hnone⟩ := h.fits_of hpc
  have hfree := h.free (t := t) (by simp [hpc])
  have hplace := (h.mem_buffer t).mp hbuffer
  have hframe : Frame t s (s.takeBack t) place (Function.update place t (.held t)) :=
    ⟨Place.Moves.update (hplace ▸ .take), fun x hx => Function.update_of_ne hx _ _, fun _ _ => rfl,
      fun _ _ _ => Iff.rfl, fun _ _ => rfl⟩
  have hlater : ∀ q : Place τ, q ≠ .buffered → q ≠ .held t → ∀ p,
      Function.update place t (.held t) p = q ↔ place p = q := fun q hq hq' =>
    update_place_iff (hplace ▸ hq.symm) hq'.symm
  have hnodup : s.buffer.Nodup := h.arrivals_nodup.sublist h.buffer_sublist
  refine
    { h with
      fits := hframe.fits_all h ?_
      buffer_length := lt_of_le_of_lt List.length_erase_le h.buffer_length
      buffer_sublist := List.erase_sublist.trans h.buffer_sublist
      mem_buffer := fun p => ?_
      mem_arrivals := fun p =>
        (h.mem_arrivals p).trans (not_congr (hlater .outside (by simp) (by simp) p).symm)
      taken := fun p x hx => ?_
      done := fun p => (h.done p).trans (hlater .sent (by simp) (by simp) p).symm
      mem_forwards := fun p => ?_
      mem_replies := fun p v => ?_ }
  · rw [State.takeBack, State.goto_pc_self]
    refine ⟨.inl (Function.update_self _ _ _), List.nodup_singleton t, fun p => ?_, fun p => ?_,
      fun batch hmem => absurd hmem (hnone batch)⟩
    · rcases eq_or_ne p t with rfl | hp
      · simp
      · simp [hp, (hfree p).1]
    · rw [hlater _ (by simp) (by simp)]
      simp [(hfree p).2]
  · show p ∈ s.buffer.erase t ↔ _
    rw [hnodup.mem_erase_iff]
    rcases eq_or_ne p t with rfl | hp
    · simp
    · simp [hp, h.mem_buffer]
  · rcases eq_or_ne x t with rfl | hne
    · refine ⟨⟨none, _, State.goto_pc_self _ _ _⟩, fun hp => ?_⟩
      rw [Function.update_of_ne hp.symm] at hx
      exact absurd hx (not_or.mpr (hfree p))
    · exact hframe.taken h hne hx
  · rw [hlater _ (by simp) (by simp)]
    simp only [hlater (.wire _) (by simp) (by simp)]
    exact h.mem_forwards p
  · rw [hlater _ (by simp) (by simp)]
    exact h.mem_replies p v

/-- **The next delivery is forwarded.** -/
lemma Sound.send (h : Sound n s place) {rest : List τ}
    (hpc : s.pc t = .forwarding none (p :: rest)) :
    Sound n (s.send t p rest) (Function.update place p (.wire t)) := by
  obtain ⟨hown, hnodup, hrest, hwire, hflush⟩ := h.fits_of hpc
  obtain ⟨hp, hnodup⟩ := List.nodup_cons.mp hnodup
  have hplace : place p = .held t := (hrest p).mp List.mem_cons_self
  have hframe : Frame t s (s.send t p rest) place (Function.update place p (.wire t)) :=
    ⟨Place.Moves.update (hplace ▸ .send), fun x hx => Function.update_of_ne hx _ _, fun x hx =>
      sentBy_append hx _,
      fun _ _ _ => Iff.rfl, fun _ _ => rfl⟩
  have hlater : ∀ q : Place τ, q ≠ .held t → q ≠ .wire t → ∀ x,
      Function.update place p (.wire t) x = q ↔ place x = q := fun q hq hq' =>
    update_place_iff (hplace ▸ hq.symm) hq'.symm
  have hsentBy : (s.send t p rest).sentBy t = s.sentBy t ++ [p] := by
    simp [State.sentBy, State.send, State.goto, List.filter_append]
  refine
    { h with
      fits := hframe.fits_all h ?_
      mem_buffer := fun x => (h.mem_buffer x).trans (hlater .buffered (by simp) (by simp) x).symm
      mem_arrivals := fun x =>
        (h.mem_arrivals x).trans (not_congr (hlater .outside (by simp) (by simp) x).symm)
      taken := fun x y hy => ?_
      done := fun x => (h.done x).trans (hlater .sent (by simp) (by simp) x).symm
      forwards_nodup := ?_
      mem_forwards := fun x => ?_
      mem_replies := fun x v => ?_ }
  · rw [State.send, State.goto_pc_self]
    refine ⟨?_, hnodup, fun x => ?_, fun x => ?_, fun batch hmem => ?_⟩
    · rcases eq_or_ne t p with rfl | ht
      · exact .inr (.inl (Function.update_self _ _ _))
      · rwa [Function.update_of_ne ht]
    · rcases eq_or_ne x p with rfl | hx
      · simp [hp]
      · rw [Function.update_of_ne hx, ← hrest, List.mem_cons, or_iff_right hx]
    · rcases eq_or_ne x p with rfl | hx
      · simp
      · rw [Function.update_of_ne hx, ← hwire]
        simp [hx.symm]
    · have hbatch := hflush batch hmem
      rw [List.append_cons] at hbatch
      exact (congrArg (· ++ rest) hsentBy).trans hbatch
  · rcases eq_or_ne y t with rfl | hne
    · refine ⟨⟨some p, rest, State.goto_pc_self _ _ _⟩, fun hx => ?_⟩
      have hbefore : place x = .held y ∨ place x = .wire y := by
        rcases eq_or_ne x p with rfl | hxp
        · exact .inl hplace
        · rwa [Function.update_of_ne hxp] at hy
      exact (h.taken x y hbefore).2 hx
    · exact hframe.taken h hne hy
  · show ((s.forwards ++ [(t, p)]).map Prod.snd).Nodup
    have hnew : p ∉ s.forwards.map Prod.snd := by
      rw [h.mem_forwards, hplace]
      simp
    rw [List.map_append, List.map_singleton, ← List.concat_eq_append]
    exact h.forwards_nodup.concat hnew
  · show x ∈ (s.forwards ++ [(t, p)]).map Prod.snd ↔ _
    rw [List.map_append, List.map_singleton, List.mem_append, List.mem_singleton, h.mem_forwards]
    rcases eq_or_ne x p with rfl | hx
    · simp
    · rw [Function.update_of_ne hx, or_iff_left hx]
  · rw [hlater _ (by simp) (by simp)]
    exact h.mem_replies x v

/-- **A delivery is done.** -/
lemma Sound.settle (h : Sound n s place) {rest : List τ} (hpc : s.pc t = .forwarding (some p) rest)
    (results : List ρ) : Sound n (s.settle t p rest results) (Function.update place p .sent) := by
  obtain ⟨hown, hnodup, hrest, hwire, hflush⟩ := h.fits_of hpc
  have hplace : place p = .wire t := (hwire p).mp rfl
  have hframe : Frame t s (s.settle t p rest results) place (Function.update place p .sent) := by
    refine ⟨Place.Moves.update (hplace ▸ .settle), fun x hx => Function.update_of_ne hx _ _,
      fun x hx => rfl,
      fun _ _ _ => Iff.rfl, fun x hx => Function.update_of_ne ?_ _ _⟩
    rintro rfl
    rw [hplace] at hx
    cases hx
  have hlater : ∀ q : Place τ, q ≠ .wire t → q ≠ .sent → ∀ x,
      Function.update place p .sent x = q ↔ place x = q := fun q hq hq' =>
    update_place_iff (hplace ▸ hq.symm) hq'.symm
  refine
    { h with
      fits := hframe.fits_all h ?_
      mem_buffer := fun x => (h.mem_buffer x).trans (hlater .buffered (by simp) (by simp) x).symm
      mem_arrivals := fun x =>
        (h.mem_arrivals x).trans (not_congr (hlater .outside (by simp) (by simp) x).symm)
      taken := fun x y hy => ?_
      done := fun x => ?_
      mem_forwards := fun x => ?_
      replies_nodup := ?_
      mem_replies := fun x v => ?_ }
  · rw [State.settle, State.goto_pc_self]
    refine ⟨?_, hnodup, fun x => ?_, fun x => ?_, hflush⟩
    · rcases eq_or_ne t p with rfl | ht
      · exact .inr (.inr (Function.update_self _ _ _))
      · rwa [Function.update_of_ne ht]
    · rw [hlater _ (by simp) (by simp), hrest]
    · rcases eq_or_ne x p with rfl | hx
      · simp
      · rw [Function.update_of_ne hx, ← hwire]
        simp [hx.symm]
  · rcases eq_or_ne x p with rfl | hxp
    · simp at hy
    · rcases eq_or_ne y t with rfl | hne
      · rw [Function.update_of_ne hxp] at hy
        exact ⟨⟨none, rest, State.goto_pc_self _ _ _⟩, (h.taken x y hy).2⟩
      · exact hframe.taken h hne hy
  · show Function.update s.done p true x = true ↔ _
    rcases eq_or_ne x p with rfl | hx
    · simp
    · rw [Function.update_of_ne hx, Function.update_of_ne hx, h.done]
  · refine (h.mem_forwards x).trans ?_
    rcases eq_or_ne x p with rfl | hx
    · simp [hplace]
    · rw [Function.update_of_ne hx]
  · show ((s.replies ++ [(p, results)]).map Prod.fst).Nodup
    have hnew : p ∉ s.replies.map Prod.fst := by
      intro hp
      obtain ⟨⟨_, v⟩, hmem, rfl⟩ := List.mem_map.mp hp
      simpa [hplace] using ((h.mem_replies _ v).mp hmem).1
    rw [List.map_append, List.map_singleton, ← List.concat_eq_append]
    exact h.replies_nodup.concat hnew
  · show (x, v) ∈ s.replies ++ [(p, results)] ↔ _ ∧ v = Function.update s.results p results x
    rw [List.mem_append, h.mem_replies, List.mem_singleton, Prod.mk.injEq]
    rcases eq_or_ne x p with rfl | hx
    · simp [hplace]
    · rw [Function.update_of_ne hx, Function.update_of_ne hx]
      simp [hx]

/-- **Every step keeps the deliveries in one place each.** -/
lemma Sound.steps (h : Sound n s place) {a : Act τ ρ} (hstep : s.Steps n maxHoldS a s') :
    ∃ place', Sound n s' place' := by
  cases hstep with
  | hold hpc hfits => exact ⟨_, h.hold hpc hfits⟩
  | flush hpc hfull => exact ⟨_, h.flush hpc hfull⟩
  | move hmove => exact ⟨_, h.move hmove⟩
  | takeBack hpc hbuffer => exact ⟨_, h.takeBack hpc hbuffer⟩
  | send hpc => exact ⟨_, h.send hpc⟩
  | settle hpc results => exact ⟨_, h.settle hpc results⟩
  | finish hpc => exact ⟨_, h.finish hpc⟩

end LedgerProof.Reorderer
