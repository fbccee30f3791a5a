import LedgerProof.Lib.Run
import LedgerProof.Limits.Bucket

/-!
# Concurrent checks under a lease

`GCRALimiter.check` as the Redis commands it sends: `SET NX PX` on the lock, `TIME`, `GET` and `SET`
of the TAT, and the compare-and-delete that releases the lock.  Callers are known by their lock
token, `next` is one command of one of them or time passing, and Redis drops the lock `LOCK_TTL_MS`
after it was set, whatever its holder is doing.

The lock is a lease: a caller that is slow between two commands goes on without it.  Two callers
then read one TAT and both write it (`two_admitted_past_lease`).  As long as nobody touches the TAT
past its lease the update is exclusive: `Serializes` keeps the order in which the checks took
effect, and `limiter_serializable` reads the decisions off it.  Releasing is safe in any case.
-/

namespace LedgerProof.Gcra

/-- Where a caller is in `check`, by the command it sends next. -/
inductive Pc
  /-- `SET lock NX PX`, in the loop of `_acquire`. -/
  | acquiring
  /-- `TIME`. -/
  | locked
  /-- `GET tat`. -/
  | timed (now : ℚ)
  /-- `SET tat`, with the decision that is returned after it. -/
  | writing (now newTat : ℚ) (decision : Decision)
  /-- The release script. -/
  | releasing (now : ℚ) (decision : Decision)
  | returned (now : ℚ) (decision : Decision)
  /-- Returned `lock_contended`. -/
  | contended
  deriving DecidableEq

/-- The clock reading and the decision of a check that got past the lock, once its update is
done. -/
def Pc.answer : Pc → Option (ℚ × Decision)
  | .releasing now d => some (now, d)
  | .returned now d => some (now, d)
  | _ => none

/-- Between the lock and the end of the update. -/
def Pc.updating : Pc → Bool
  | .locked => true
  | .timed _ => true
  | .writing _ _ _ => true
  | _ => false

/-- The lock key. -/
structure Lock (τ : Type) where
  token : τ
  expiresAt : ℚ

/-- Redis, its clock and the callers. -/
structure State (τ : Type) where
  clock : ℚ
  lock : Option (Lock τ)
  tat : Option Key
  pc : τ → Pc

/-- What can happen: time passes, or a caller's next command runs.  `late` is the caller's
`time.monotonic() >= deadline`, which counts when the lock is taken. -/
inductive Act (τ : Type)
  | tick (seconds : ℚ)
  | run (c : τ) (late : Bool)

/-- `LOCK_TTL_MS`, in seconds. -/
def lockTtl : ℚ := 500 / 1000

namespace State

variable {τ : Type}

/-- The token that `GET lock` returns. -/
def holder (s : State τ) : Option τ :=
  s.lock.bind fun l => if s.clock < l.expiresAt then some l.token else none

/-- A cold key that nobody has locked. -/
def init (clock : ℚ) : State τ := ⟨clock, none, none, fun _ => .acquiring⟩

/-- One command, or time passing. -/
def next [DecidableEq τ] (g : Limiter) (s : State τ) : Act τ → State τ
  | .tick seconds => if 0 ≤ seconds then { s with clock := s.clock + seconds } else s
  | .run c late =>
      match s.pc c with
      | .acquiring =>
          match s.holder with
          | none => { s with
              lock := some ⟨c, s.clock + lockTtl⟩
              pc := Function.update s.pc c .locked }
          | some _ =>
              if late then { s with pc := Function.update s.pc c .contended } else s
      | .locked => { s with pc := Function.update s.pc c (.timed s.clock) }
      | .timed now =>
          match g.respond now (live s.tat s.clock) with
          | (d, none) => { s with pc := Function.update s.pc c (.releasing now d) }
          | (d, some newTat) => { s with pc := Function.update s.pc c (.writing now newTat d) }
      | .writing now newTat d => { s with
          tat := some (g.stored now newTat s.clock)
          pc := Function.update s.pc c (.releasing now d) }
      | .releasing now d => { s with
          lock := if s.holder = some c then none else s.lock
          pc := Function.update s.pc c (.returned now d) }
      | .returned _ _ => s
      | .contended => s

/-- A command on the clock or the TAT runs while the lock is still the caller's. -/
def WithinLease (s : State τ) : Act τ → Prop
  | .tick _ => True
  | .run c _ => (s.pc c).updating = true → s.holder = some c

instance [DecidableEq τ] (s : State τ) : ∀ a, Decidable (s.WithinLease a)
  | .tick _ => inferInstanceAs (Decidable True)
  | .run c _ => inferInstanceAs (Decidable ((s.pc c).updating = true → s.holder = some c))

/-- **The checks that got past the lock took effect one after the other.** -/
def Serialized (g : Limiter) (s : State τ) : Prop :=
  ∃ order : List (τ × ℚ × Decision), (order.map (·.1)).Nodup ∧
    (∀ c now d, (c, now, d) ∈ order ↔ (s.pc c).answer = some (now, d)) ∧
    (order.map (·.2.1)).Pairwise (· ≤ ·) ∧
    order.map (·.2.2) = g.serial none (order.map (·.2.1))

/-! ## The order in which the checks took effect -/

/-- What is known of the caller that set the lock, in the middle of its update. -/
def Progress (g : Limiter) (clock : ℚ) (order : List (τ × ℚ × Decision)) (l : Lock τ) : Pc → Prop
  | .timed now => l.expiresAt ≤ now + lockTtl ∧ now ≤ clock ∧ ∀ x ∈ order, x.2.1 ≤ now
  | .writing now newTat d => now ≤ clock ∧ (∀ x ∈ order, x.2.1 ≤ now) ∧
      g.respond now (g.tatAfter none (order.map (·.2.1))) = (d, some newTat)
  | _ => True

/-- The checks that are done, in the order in which they took effect, and what the store and the
caller in its update make of them. -/
structure Serializes (g : Limiter) (order : List (τ × ℚ × Decision)) (s : State τ) : Prop where
  nodup : (order.map (·.1)).Nodup
  answers : ∀ c now d, (c, now, d) ∈ order ↔ (s.pc c).answer = some (now, d)
  sorted : (order.map (·.2.1)).Pairwise (· ≤ ·)
  le_clock : ∀ x ∈ order, x.2.1 ≤ s.clock
  decisions : order.map (·.2.2) = g.serialForever none (order.map (·.2.1))
  follows : Limiter.Follows s.tat (g.tatAfter none (order.map (·.2.1)))
  lease : ∀ l, s.lock = some l → l.expiresAt ≤ s.clock + lockTtl
  progress : ∀ l, s.lock = some l → Progress g s.clock order l (s.pc l.token)

variable {g : Limiter} {s : State τ} {order : List (τ × ℚ × Decision)} {c : τ}

/-- The TAT key after a check took effect. -/
def written (g : Limiter) (key : Option Key) (now t : ℚ) : Option ℚ → Option Key
  | none => key
  | some newTat => some (g.stored now newTat t)

lemma Serializes.init (g : Limiter) (clock : ℚ) :
    Serializes g [] (init clock : State τ) where
  nodup := List.nodup_nil
  answers := by simp [State.init, Pc.answer]
  sorted := List.Pairwise.nil
  le_clock := by simp
  decisions := rfl
  follows := trivial
  lease := by simp [State.init]
  progress := by simp [State.init]

lemma holder_eq_some (h : s.holder = some c) :
    ∃ l, s.lock = some l ∧ l.token = c ∧ s.clock < l.expiresAt := by
  unfold holder at h
  obtain ⟨l, hl, h⟩ := Option.bind_eq_some_iff.mp h
  split_ifs at h with hlive
  exact ⟨l, hl, Option.some_inj.mp h, hlive⟩

lemma Serializes.tick (h : Serializes g order s) {seconds : ℚ} (hs : 0 ≤ seconds) :
    Serializes g order { s with clock := s.clock + seconds } where
  nodup := h.nodup
  answers := h.answers
  sorted := h.sorted
  le_clock := fun x hx => (h.le_clock x hx).trans (by simpa using hs)
  decisions := h.decisions
  follows := h.follows
  lease := fun l hl => (h.lease l hl).trans (by simpa using hs)
  progress := by
    intro l hl
    have hprogress := h.progress l hl
    cases hpc : s.pc l.token with
    | timed now =>
        rw [hpc] at hprogress
        exact ⟨hprogress.1, hprogress.2.1.trans (by simpa using hs), hprogress.2.2⟩
    | writing now newTat d =>
        rw [hpc] at hprogress
        exact ⟨hprogress.1.trans (by simpa using hs), hprogress.2⟩
    | _ => trivial

section

variable [DecidableEq τ]

/-- The order keeps its answers when a caller moves on without changing its own. -/
lemma answers_update (h : ∀ c now d, (c, now, d) ∈ order ↔ (s.pc c).answer = some (now, d)) {p : Pc}
    (hp : p.answer = (s.pc c).answer) (c' : τ) (now : ℚ) (d : Decision) :
    (c', now, d) ∈ order ↔ (Function.update s.pc c p c').answer = some (now, d) := by
  rw [h]
  by_cases hc : c' = c
  · rw [hc, Function.update_self, hp]
  · rw [Function.update_of_ne hc]

/-- What is known of the caller with the lock is kept when another one moves on. -/
lemma progress_update {clock : ℚ} {lock : Option (Lock τ)} {pc : τ → Pc}
    (h : ∀ l, lock = some l → Progress g clock order l (pc l.token)) {p : Pc}
    (hp : ∀ l, lock = some l → l.token = c → Progress g clock order l p) (l : Lock τ)
    (hl : lock = some l) : Progress g clock order l (Function.update pc c p l.token) := by
  by_cases hc : l.token = c
  · rw [hc, Function.update_self]
    exact hp l hl hc
  · rw [Function.update_of_ne hc]
    exact h l hl

/-- A caller moves on, and neither the store nor its own answer changes. -/
lemma Serializes.move (h : Serializes g order s) {p : Pc} (hp : p.answer = (s.pc c).answer)
    (hprogress : ∀ l, s.lock = some l → l.token = c → Progress g s.clock order l p) :
    Serializes g order { s with pc := Function.update s.pc c p } where
  nodup := h.nodup
  answers := answers_update h.answers hp
  sorted := h.sorted
  le_clock := h.le_clock
  decisions := h.decisions
  follows := h.follows
  lease := h.lease
  progress := progress_update h.progress hprogress

/-- The lock changes hands when it is free, or is deleted. -/
lemma Serializes.relock (h : Serializes g order s) {lock : Option (Lock τ)} {p : Pc}
    (hp : p.answer = (s.pc c).answer) (hidle : ∀ clock l, Progress g clock order l p)
    (hlock : ∀ l, lock = some l → s.lock = some l ∨ l = ⟨c, s.clock + lockTtl⟩) :
    Serializes g order { s with lock := lock, pc := Function.update s.pc c p } where
  nodup := h.nodup
  answers := answers_update h.answers hp
  sorted := h.sorted
  le_clock := h.le_clock
  decisions := h.decisions
  follows := h.follows
  lease := by
    intro l hl
    rcases hlock l hl with hl | rfl
    · exact h.lease l hl
    · exact le_rfl
  progress := by
    intro l hl
    rcases hlock l hl with hl | rfl
    · exact progress_update h.progress (fun l _ _ => hidle s.clock l) l hl
    · dsimp only
      rw [Function.update_self]
      exact hidle s.clock _

/-- **A check takes effect**: it is the next one in the order. -/
lemma Serializes.commit (h : Serializes g order s) {l : Lock τ} (hl : s.lock = some l)
    (htoken : l.token = c) (hnew : (s.pc c).answer = none) {now : ℚ} {d : Decision}
    {newTat : Option ℚ} (hclock : now ≤ s.clock) (hlast : ∀ x ∈ order, x.2.1 ≤ now)
    (hrespond : g.respond now (g.tatAfter none (order.map (·.2.1))) = (d, newTat)) :
    Serializes g (order ++ [(c, now, d)]) { s with
      tat := written g s.tat now s.clock newTat
      pc := Function.update s.pc c (.releasing now d) } where
  nodup := by
    rw [List.map_append, List.nodup_append]
    refine ⟨h.nodup, by simp, fun a ha b hb => ?_⟩
    obtain ⟨⟨c', now', d'⟩, hx, rfl⟩ := List.mem_map.mp ha
    obtain rfl : b = c := by simpa using hb
    rintro rfl
    rw [h.answers, hnew] at hx
    simp at hx
  answers := by
    intro c' now' d'
    rw [List.mem_append, List.mem_singleton, h.answers]
    dsimp only
    by_cases hc : c' = c
    · subst hc
      rw [hnew, Function.update_self]
      simp [Pc.answer, eq_comm]
    · rw [Function.update_of_ne hc]
      simp [hc]
  sorted := by
    rw [List.map_append, List.pairwise_append]
    refine ⟨h.sorted, by simp, fun a ha b hb => ?_⟩
    obtain ⟨x, hx, rfl⟩ := List.mem_map.mp ha
    obtain rfl : b = now := by simpa using hb
    exact hlast x hx
  le_clock := by
    intro x hx
    rcases List.mem_append.mp hx with hx | hx
    · exact h.le_clock x hx
    · rw [List.mem_singleton.mp hx]
      exact hclock
  decisions := by
    have hcheck : (g.checkForever (g.tatAfter none (order.map (·.2.1))) now).1 = d := by
      rw [Limiter.checkForever, hrespond]
      cases newTat <;> rfl
    rw [List.map_append, List.map_append, h.decisions]
    simp only [List.map_cons, List.map_nil]
    rw [Limiter.serialForever_append, hcheck]
  follows := by
    rw [List.map_append]
    simp only [List.map_cons, List.map_nil]
    rw [Limiter.tatAfter_append, Limiter.checkForever, hrespond]
    cases newTat with
    | none => exact h.follows
    | some newTat => exact Limiter.follows_stored hclock
  lease := h.lease
  progress := by
    intro l' hl'
    obtain rfl : l = l' := Option.some_inj.mp (hl.symm.trans hl')
    dsimp only
    rw [htoken, Function.update_self]
    trivial

/-- **One step** within the lease keeps the order, or adds a check to it. -/
lemma Serializes.next (h : Serializes g order s) {a : Act τ} (ha : s.WithinLease a) :
    ∃ order', Serializes g order' (s.next g a) := by
  cases a with
  | tick seconds =>
      unfold State.next
      by_cases hs : 0 ≤ seconds
      · simp only [hs, if_true]
        exact ⟨order, h.tick hs⟩
      · simp only [hs, if_false]
        exact ⟨order, h⟩
  | run c late =>
      cases hpc : s.pc c with
      | acquiring =>
          simp only [State.next, hpc]
          cases hholder : s.holder with
          | none =>
              refine ⟨order, h.relock (by rw [hpc]; rfl) (fun _ _ => trivial) fun l hl => ?_⟩
              exact .inr (Option.some_inj.mp hl).symm
          | some _ =>
              dsimp only
              split_ifs
              · exact ⟨order, h.move (by rw [hpc]; rfl) fun _ _ _ => trivial⟩
              · exact ⟨order, h⟩
      | locked =>
          simp only [State.next, hpc]
          refine ⟨order, h.move (by rw [hpc]; rfl) fun l hl _ => ?_⟩
          exact ⟨h.lease l hl, le_rfl, h.le_clock⟩
      | timed now =>
          obtain ⟨l, hl, htoken, hlive⟩ := holder_eq_some (ha (by rw [hpc]; rfl))
          have hprogress := h.progress l hl
          rw [htoken, hpc] at hprogress
          obtain ⟨hlease, hclock, hlast⟩ := hprogress
          have hrespond : g.respond now (live s.tat s.clock) =
              g.respond now (g.tatAfter none (order.map (·.2.1))) := by
            refine h.follows.respond ?_
            have hhalf : lockTtl = 1 / 2 := by norm_num [lockTtl]
            linarith
          rcases hdec : g.respond now (g.tatAfter none (order.map (·.2.1))) with ⟨d, _ | newTat⟩
          · simp only [State.next, hpc, hrespond, hdec]
            exact ⟨_, h.commit hl htoken (by rw [hpc]; rfl) hclock hlast hdec⟩
          · simp only [State.next, hpc, hrespond, hdec]
            exact ⟨order, h.move (by rw [hpc]; rfl) fun _ _ _ => ⟨hclock, hlast, hdec⟩⟩
      | writing now newTat d =>
          obtain ⟨l, hl, htoken, -⟩ := holder_eq_some (ha (by rw [hpc]; rfl))
          have hprogress := h.progress l hl
          rw [htoken, hpc] at hprogress
          obtain ⟨hclock, hlast, hdec⟩ := hprogress
          simp only [State.next, hpc]
          exact ⟨_, h.commit hl htoken (by rw [hpc]; rfl) hclock hlast hdec⟩
      | releasing now d =>
          simp only [State.next, hpc]
          refine ⟨order, h.relock (by rw [hpc]; rfl) (fun _ _ => trivial) fun l hl => ?_⟩
          split_ifs at hl
          exact .inl hl
      | returned now d =>
          simp only [State.next, hpc]
          exact ⟨order, h⟩
      | contended =>
          simp only [State.next, hpc]
          exact ⟨order, h⟩

lemma next_release {l : Lock τ} (hl : s.lock = some l) (hne : l.token ≠ c) {now : ℚ}
    {d : Decision} (hpc : s.pc c = .releasing now d) (late : Bool) :
    (s.next g (.run c late)).lock = some l := by
  have hholder : s.holder ≠ some c := by
    intro h
    obtain ⟨l', hl', htoken, -⟩ := holder_eq_some h
    rw [hl, Option.some_inj] at hl'
    exact hne (hl' ▸ htoken)
  simp only [State.next, hpc, hholder, if_false]
  exact hl

end

/-- The decisions of an order are those of its checks, one after the other. -/
lemma Serializes.serialized (h : Serializes g order s) : s.Serialized g := by
  refine ⟨order, h.nodup, h.answers, h.sorted, ?_⟩
  rw [h.decisions, Limiter.serial_eq_serialForever (show Limiter.Follows none none from trivial)]

/-- At one instant, serialized checks on a cold key admit no more than the burst. -/
lemma Serialized.admitted_le (h : s.Serialized g) {n : ℚ}
    (hinstant : ∀ c now d, (s.pc c).answer = some (now, d) → now = n) {admitted : List τ}
    (hnodup : admitted.Nodup)
    (hadmitted : ∀ c ∈ admitted, ∃ now d, (s.pc c).answer = some (now, d) ∧ d.allowed = true) :
    admitted.length ≤ g.burst := by
  obtain ⟨order, horder, hanswers, -, hdecisions⟩ := h
  have hsub : admitted ⊆ (order.filter (·.2.2.allowed)).map (·.1) := by
    intro c hc
    obtain ⟨now, d, hanswer, hallowed⟩ := hadmitted c hc
    refine List.mem_map.mpr ⟨(c, now, d), List.mem_filter.mpr ⟨?_, hallowed⟩, rfl⟩
    exact (hanswers c now d).mpr hanswer
  calc admitted.length ≤ ((order.filter (·.2.2.allowed)).map (·.1)).length :=
        (List.subperm_of_subset hnodup hsub).length_le
    _ = (order.map (·.2.2)).countP (·.allowed) := by
        rw [List.length_map, List.countP_map, List.countP_eq_length_filter]
        rfl
    _ = (g.serial none (order.map (·.2.1))).countP (·.allowed) := by rw [hdecisions]
    _ ≤ g.burst := Limiter.countP_serial_le fun m hm => by
        obtain ⟨⟨c, now, d⟩, hx, rfl⟩ := List.mem_map.mp hm
        exact hinstant c now d ((hanswers c now d).mp hx)

end State

/-- **The limiter serializes the checks that stay within their leases.**  In every run a release
leaves another caller's lock alone.  In every run in which no caller sends its `TIME`, `GET` or
`SET` of the TAT after its lease, the checks that got past the lock decide as if they had run one
after the other, each at the instant it read off the clock; so at one instant no more than the burst
is admitted, over exact rationals: a sum of many emission intervals that are rounded to floats can
let one more in. -/
theorem limiter_serializable {τ : Type} [DecidableEq τ] (g : Limiter) (clock : ℚ)
    (acts : List (Act τ)) :
    (∀ c l now d late, (acts.foldl (State.next g) (.init clock)).lock = some l → l.token ≠ c →
      (acts.foldl (State.next g) (.init clock)).pc c = .releasing now d →
      ((acts.foldl (State.next g) (.init clock)).next g (.run c late)).lock = some l) ∧
    (Guarded (State.next g) State.WithinLease (.init clock) acts →
      (acts.foldl (State.next g) (.init clock)).Serialized g ∧
      ∀ n, (∀ c now d, ((acts.foldl (State.next g) (.init clock)).pc c).answer = some (now, d) →
          now = n) →
        ∀ admitted : List τ, admitted.Nodup → (∀ c ∈ admitted, ∃ now d,
          ((acts.foldl (State.next g) (.init clock)).pc c).answer = some (now, d) ∧
            d.allowed = true) →
        admitted.length ≤ g.burst) := by
  refine ⟨fun c l now d late hl hne hpc => State.next_release hl hne hpc late, fun hacts => ?_⟩
  obtain ⟨order, horder⟩ := hacts.inv (fun s => ∃ order, State.Serializes g order s)
    (fun s a hs ha => by
      obtain ⟨order, h⟩ := hs
      exact h.next ha)
    ⟨[], State.Serializes.init g clock⟩
  refine ⟨horder.serialized, fun n hinstant admitted hnodup hadmitted => ?_⟩
  exact horder.serialized.admitted_le hinstant hnodup hadmitted

/-- One request a second, without a burst. -/
def oneASecond : Limiter := ⟨1, 1, 1, Nat.one_pos, tenASecond.period_pos, Nat.one_pos⟩

/-- Two callers at one instant, the second after the first: nobody is past a lease, and one of them
is admitted. -/
def inTurn : List (Act Bool) :=
  List.replicate 5 (.run false false) ++ List.replicate 4 (.run true false)

theorem limiter_serializable_in_turn :
    ((inTurn.foldl (State.next oneASecond) (.init 0)).pc false).answer =
        some (0, ⟨true, 1, 0, 0, ""⟩) ∧
      ((inTurn.foldl (State.next oneASecond) (.init 0)).pc true).answer =
        some (0, ⟨false, 1, 0, 1, "rate_limited"⟩) ∧
      (inTurn.foldl (State.next oneASecond) (.init 0)).Serialized oneASecond := by
  refine ⟨by decide +kernel, by decide +kernel, ?_⟩
  exact ((limiter_serializable oneASecond 0 inTurn).2 (by decide +kernel)).1

/-- The first caller is delayed after it took the lock, until its lease is over and the second one
has taken the lock; then both go on. -/
def pastLease : List (Act Bool) :=
  [.run false false, .tick (3 / 5), .run true false, .run false false, .run true false,
    .run false false, .run true false, .run false false, .run true false]

/-- Both are admitted, at one instant and without a burst. -/
theorem two_admitted_past_lease :
    (∀ c, ((pastLease.foldl (State.next oneASecond) (.init 0)).pc c).answer =
        some (3 / 5, ⟨true, 1, 0, 0, ""⟩)) ∧
      ¬(pastLease.foldl (State.next oneASecond) (.init 0)).Serialized oneASecond := by
  have hanswer : ∀ c, ((pastLease.foldl (State.next oneASecond) (.init 0)).pc c).answer =
      some (3 / 5, ⟨true, 1, 0, 0, ""⟩) := by decide +kernel
  refine ⟨hanswer, fun h => ?_⟩
  have htwo : [false, true].length ≤ oneASecond.burst := by
    refine h.admitted_le (n := 3 / 5) (fun c now d hc => ?_) (by decide) fun c _ =>
      ⟨_, _, hanswer c, rfl⟩
    rw [hanswer c] at hc
    exact (congrArg Prod.fst (Option.some_inj.mp hc)).symm
  exact absurd htwo (by decide)

end LedgerProof.Gcra
