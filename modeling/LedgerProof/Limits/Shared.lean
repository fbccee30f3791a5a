import LedgerProof.Limits.Bucket
import LedgerProof.Limits.Lease
import Mathlib.Data.Set.Card

/-!
# One Redis for every key

`Lease.lean` follows the checks of one key on a Redis that answers.  Here the limiter has the whole
keyspace, as `limits/gcra.py` uses it: every key has its TAT under `namespace:tat:` and its lock
under `namespace:lock:`, other programs write keys of their own, a stored value need not be a
number, and any command may end in a `RedisError`, whether or not Redis ran it.

An error before the decision makes `check` answer by its failure policy; the `finally` still sends
the release.  `Shared.view` is what one key sees of all this, and `Keyed.next` the step lemma: seen
from one key, a step is a step of the single-key machine, or a lock or a caller that goes away.  So
the keys do not disturb each other (`keys_isolated`), and failing open admits no more than it counts
(`errors_bound_admissions`).
-/

namespace LedgerProof.Gcra

/-- What a Redis key holds: the token of a lock, the `repr` of a TAT, or a text that `float`
refuses. -/
inductive Value (τ : Type)
  | token (c : τ)
  | tat (seconds : ℚ)
  | text (s : String)
  deriving DecidableEq

/-- `float(raw)`, where it raises no `ValueError`. -/
def Value.float {τ : Type} : Value τ → Option ℚ
  | .tat seconds => some seconds
  | _ => none

/-- A string key of Redis, which is dropped at `expiresAt`. -/
structure Stored (τ : Type) where
  value : Value τ
  expiresAt : ℚ

/-- `GCRALimiter`, but for its counters. -/
structure GCRALimiter extends Limiter where
  keyspace : String
  failOpen : Bool

/-- The two counters of `GCRALimiter`. -/
inductive Counter
  /-- `fail_open_count`. -/
  | failOpen
  /-- `fail_closed_count`. -/
  | failClosed
  deriving DecidableEq

/-- One call of `check`. -/
inductive Check
  /-- No error so far. -/
  | going (pc : Pc)
  /-- An error was caught and the release is next.  `applied` is the update that Redis made although
  its answer was lost. -/
  | failing (applied : Option (ℚ × Decision))
  /-- Returned by the failure policy. -/
  | failed (applied : Option (ℚ × Decision))
  deriving DecidableEq

/-- The call as Redis sees it. -/
def Check.seen : Check → Pc
  | .going pc => pc
  | .failing (some (now, d)) => .releasing now d
  | .failed (some (now, d)) => .releasing now d
  | .failing none => .acquiring
  | .failed none => .acquiring

/-- Between the lock and the end of the update, without an error. -/
def Check.updating : Check → Bool
  | .going pc => pc.updating
  | _ => false

/-- An error ended the call, or will. -/
def Check.erred : Check → Bool
  | .going _ => false
  | .failing _ => true
  | .failed _ => true

namespace GCRALimiter

variable (g : GCRALimiter)

/-- `tat_key`. -/
def tatKey (key : String) : String := g.keyspace ++ (":tat:\x7b" ++ (key ++ "\x7d"))

/-- `lock_key`. -/
def lockKey (key : String) : String := g.keyspace ++ (":lock:\x7b" ++ (key ++ "\x7d"))

/-- What `check` returns on `LockUnavailable`. -/
def lockContended : Decision := ⟨false, g.rate, 0, g.emissionInterval, "lock_contended"⟩

/-- What `_fail_open_decision` returns. -/
def failOpenDecision : Decision :=
  if g.failOpen then ⟨true, g.rate, g.rate, 0, "limiter_error_fail_open"⟩
  else ⟨false, g.rate, 0, g.emissionInterval, "limiter_error_fail_closed"⟩

/-- What `_fail_open_decision` counts. -/
def onError : Option Counter := if g.failOpen then some .failOpen else none

/-- The decision a call returned. -/
def decision : Check → Option Decision
  | .going (.returned _ d) => some d
  | .going .contended => some g.lockContended
  | .failed _ => some g.failOpenDecision
  | _ => none

end GCRALimiter

/-- Redis with its clock, the calls and the counters, summed over the processes.  A process runs one
`check` at a time. -/
structure Shared (τ : Type) where
  clock : ℚ
  store : String → Option (Stored τ)
  checks : τ → Check
  counts : Counter → ℕ

namespace Shared

/-- What can happen. -/
inductive Act (τ : Type)
  | tick (seconds : ℚ)
  /-- The next command of a call, and what the call makes of the answer. -/
  | run (c : τ) (late : Bool)
  /-- The next command of a call raises `RedisError`; `reached` when Redis ran it. -/
  | lost (c : τ) (reached : Bool)
  /-- Another program sets a key or deletes it. -/
  | foreign (redisKey : String) (stored : Option (Stored τ))

variable {τ : Type}

/-- `reset`. -/
def reset (g : GCRALimiter) (key : String) : Act τ := .foreign (g.tatKey key) none

/-- An empty Redis, before any call. -/
def init (clock : ℚ) : Shared τ := ⟨clock, fun _ => none, fun _ => .going .acquiring, fun _ => 0⟩

/-- `GET`. -/
def get (s : Shared τ) (redisKey : String) : Option (Value τ) :=
  (s.store redisKey).bind fun e => if s.clock < e.expiresAt then some e.value else none

variable [DecidableEq τ] (g : GCRALimiter) (keyOf : τ → String)

/-- The store after the release script of a call. -/
def released (s : Shared τ) (c : τ) : String → Option (Stored τ) :=
  if s.get (g.lockKey (keyOf c)) = some (.token c) then
    Function.update s.store (g.lockKey (keyOf c)) none
  else s.store

/-- The store after the next command of a call. -/
def sent (s : Shared τ) (c : τ) : String → Option (Stored τ) :=
  match s.checks c with
  | .going .acquiring =>
      if s.get (g.lockKey (keyOf c)) = none then
        Function.update s.store (g.lockKey (keyOf c)) (some ⟨.token c, s.clock + lockTtl⟩)
      else s.store
  | .going (.writing now newTat _) =>
      Function.update s.store (g.tatKey (keyOf c))
        (some ⟨.tat newTat, (g.stored now newTat s.clock).expiresAt⟩)
  | .going (.releasing _ _) => s.released g keyOf c
  | .failing _ => s.released g keyOf c
  | _ => s.store

/-- A decision on what `GET` returned. -/
def decided (now : ℚ) (raw : Option ℚ) : Check × Option Counter :=
  match g.respond now raw with
  | (d, none) => (.going (.releasing now d), none)
  | (d, some newTat) => (.going (.writing now newTat d), none)

/-- What a call makes of the answer to its command, and what it counts. -/
def answered (s : Shared τ) (c : τ) (late : Bool) : Check × Option Counter :=
  match s.checks c with
  | .going .acquiring =>
      match s.get (g.lockKey (keyOf c)) with
      | none => (.going .locked, none)
      | some _ => if late then (.going .contended, some .failClosed) else (.going .acquiring, none)
  | .going .locked => (.going (.timed s.clock), none)
  | .going (.timed now) =>
      match s.get (g.tatKey (keyOf c)) with
      | none => decided g now none
      | some raw =>
          match raw.float with
          | some tat => decided g now (some tat)
          | none => (.failing none, g.onError)
  | .going (.writing now _ d) => (.going (.releasing now d), none)
  | .going (.releasing now d) => (.going (.returned now d), none)
  | .failing applied => (.failed applied, none)
  | done => (done, none)

/-- What a call makes of a `RedisError`.  The one of a release is swallowed. -/
def raised (s : Shared τ) (c : τ) (reached : Bool) : Check × Option Counter :=
  match s.checks c with
  | .going .acquiring => (.failed none, g.onError)
  | .going .locked => (.failing none, g.onError)
  | .going (.timed _) => (.failing none, g.onError)
  | .going (.writing now _ d) => (.failing (if reached then some (now, d) else none), g.onError)
  | .going (.releasing now d) => (.going (.returned now d), none)
  | .failing applied => (.failed applied, none)
  | done => (done, none)

/-- A call goes on. -/
def settle (s : Shared τ) (c : τ) (store : String → Option (Stored τ))
    (check : Check × Option Counter) : Shared τ where
  clock := s.clock
  store := store
  checks := Function.update s.checks c check.1
  counts := match check.2 with
    | none => s.counts
    | some counter => Function.update s.counts counter (s.counts counter + 1)

/-- One step. -/
def next (s : Shared τ) : Act τ → Shared τ
  | .tick seconds => if 0 ≤ seconds then { s with clock := s.clock + seconds } else s
  | .run c late => s.settle c (s.sent g keyOf c) (s.answered g keyOf c late)
  | .lost c reached =>
      s.settle c (if reached then s.sent g keyOf c else s.store) (s.raised g c reached)
  | .foreign redisKey stored => { s with store := Function.update s.store redisKey stored }

/-! ## The keys of a limiter are apart -/

lemma lockKey_ne_tatKey (key other : String) : g.lockKey key ≠ g.tatKey other := by
  intro h
  have hlists := congrArg String.toList (String.append_right_inj _ |>.mp h)
  simp at hlists

lemma tatKey_inj {key other : String} : g.tatKey key = g.tatKey other ↔ key = other := by
  simp [GCRALimiter.tatKey, String.append_right_inj, String.append_left_inj]

lemma lockKey_inj {key other : String} : g.lockKey key = g.lockKey other ↔ key = other := by
  simp [GCRALimiter.lockKey, String.append_right_inj, String.append_left_inj]

/-! ## What one key sees -/

variable (key : String)

/-- The lock in a Redis key. -/
def lockIn : Option (Stored τ) → Option (Lock τ)
  | some ⟨.token c, expiresAt⟩ => some ⟨c, expiresAt⟩
  | _ => none

/-- The TAT in a Redis key. -/
def tatIn : Option (Stored τ) → Option Key
  | some ⟨.tat seconds, expiresAt⟩ => some ⟨seconds, expiresAt⟩
  | _ => none

/-- The machine of one key. -/
def view (s : Shared τ) : State τ where
  clock := s.clock
  lock := lockIn (s.store (g.lockKey key))
  tat := tatIn (s.store (g.tatKey key))
  pc c := if keyOf c = key then (s.checks c).seen else .acquiring

/-- A command on the clock or the TAT of the key runs while the lock is still the caller's, and
nobody else touches the two Redis keys. -/
def WithinLease (s : Shared τ) : Act τ → Prop
  | .tick _ => True
  | .run c _ => keyOf c = key → (s.checks c).updating = true →
      s.get (g.lockKey key) = some (.token c)
  | .lost c _ => keyOf c = key → (s.checks c).updating = true →
      s.get (g.lockKey key) = some (.token c)
  | .foreign redisKey _ => redisKey ≠ g.tatKey key ∧ redisKey ≠ g.lockKey key

instance (s : Shared τ) : ∀ a, Decidable (s.WithinLease g keyOf key a)
  | .tick _ => inferInstanceAs (Decidable True)
  | .run c _ => inferInstanceAs (Decidable (keyOf c = key → (s.checks c).updating = true →
      s.get (g.lockKey key) = some (.token c)))
  | .lost c _ => inferInstanceAs (Decidable (keyOf c = key → (s.checks c).updating = true →
      s.get (g.lockKey key) = some (.token c)))
  | .foreign redisKey _ =>
      inferInstanceAs (Decidable (redisKey ≠ g.tatKey key ∧ redisKey ≠ g.lockKey key))

/-- The checks of a key that took effect, in their order. -/
structure Keyed (order : List (τ × ℚ × Decision)) (s : Shared τ) : Prop where
  serializes : State.Serializes g.toLimiter order (s.view g keyOf key)
  lock : ∀ e, s.store (g.lockKey key) = some e → ∃ c, e.value = .token c
  tat : ∀ e, s.store (g.tatKey key) = some e → ∃ seconds, e.value = .tat seconds

variable {g keyOf key} {order : List (τ × ℚ × Decision)} {s : Shared τ} {c : τ}

omit [DecidableEq τ] in
lemma Keyed.get_lock (h : Keyed g keyOf key order s) :
    s.get (g.lockKey key) = (s.view g keyOf key).holder.map .token := by
  unfold get State.holder view
  cases hstored : s.store (g.lockKey key) with
  | none => rfl
  | some e =>
      obtain ⟨c, hc⟩ := h.lock e hstored
      obtain ⟨value, expiresAt⟩ := e
      obtain rfl : value = .token c := hc
      simp only [lockIn, Option.bind_some]
      split_ifs <;> rfl

omit [DecidableEq τ] in
lemma Keyed.get_lock_eq_none (h : Keyed g keyOf key order s) :
    s.get (g.lockKey key) = none ↔ (s.view g keyOf key).holder = none := by
  rw [h.get_lock, Option.map_eq_none_iff]

omit [DecidableEq τ] in
lemma Keyed.get_lock_eq_some (h : Keyed g keyOf key order s) :
    s.get (g.lockKey key) = some (.token c) ↔ (s.view g keyOf key).holder = some c := by
  rw [h.get_lock, Option.map_eq_some_iff]
  constructor
  · rintro ⟨c', hc', heq⟩
    rw [hc', Value.token.inj heq]
  · intro hc
    exact ⟨c, hc, rfl⟩

omit [DecidableEq τ] in
lemma Keyed.get_tat (h : Keyed g keyOf key order s) :
    s.get (g.tatKey key) = (live (s.view g keyOf key).tat s.clock).map .tat := by
  unfold get live view
  cases hstored : s.store (g.tatKey key) with
  | none => rfl
  | some e =>
      obtain ⟨seconds, hseconds⟩ := h.tat e hstored
      obtain ⟨value, expiresAt⟩ := e
      obtain rfl : value = .tat seconds := hseconds
      simp only [tatIn, Option.bind_some]
      split_ifs <;> rfl

/-! ## Steps of other keys -/

lemma released_cases : s.released g keyOf c = s.store ∨
    s.released g keyOf c = Function.update s.store (g.lockKey (keyOf c)) none := by
  unfold released
  split_ifs
  · exact .inr rfl
  · exact .inl rfl

/-- **What a command does to the store**: nothing, or it sets or deletes the lock, or sets the
TAT. -/
lemma sent_cases (g : GCRALimiter) (keyOf : τ → String) (s : Shared τ) (c : τ) :
    s.sent g keyOf c = s.store ∨
    (∃ lock : Option (Stored τ), (∀ e, lock = some e → e.value = .token c) ∧
      s.sent g keyOf c = Function.update s.store (g.lockKey (keyOf c)) lock) ∨
    ∃ seconds expiresAt, s.sent g keyOf c =
      Function.update s.store (g.tatKey (keyOf c)) (some ⟨.tat seconds, expiresAt⟩) := by
  have hreleased : s.released g keyOf c = s.store ∨
      ∃ lock : Option (Stored τ), (∀ e, lock = some e → e.value = .token c) ∧
        s.released g keyOf c = Function.update s.store (g.lockKey (keyOf c)) lock :=
    released_cases.imp id fun h => ⟨none, by simp, h⟩
  cases hcheck : s.checks c with
  | going pc =>
      cases pc with
      | acquiring =>
          by_cases hfree : s.get (g.lockKey (keyOf c)) = none
          · refine .inr (.inl ⟨some ⟨.token c, s.clock + lockTtl⟩, ?_, ?_⟩)
            · rintro e ⟨⟩
              rfl
            · simp only [sent, hcheck, hfree, if_true]
          · refine .inl ?_
            simp only [sent, hcheck, hfree, if_false]
      | writing now newTat d =>
          refine .inr (.inr ⟨newTat, (g.stored now newTat s.clock).expiresAt, ?_⟩)
          simp only [sent, hcheck]
      | releasing now d =>
          simp only [sent, hcheck]
          exact hreleased.imp id .inl
      | _ => exact .inl (by simp only [sent, hcheck])
  | failing applied =>
      simp only [sent, hcheck]
      exact hreleased.imp id .inl
  | failed applied => exact .inl (by simp only [sent, hcheck])

/-- A command touches the two Redis keys of its own key only. -/
lemma sent_of_ne {redisKey : String} (hlock : redisKey ≠ g.lockKey (keyOf c))
    (htat : redisKey ≠ g.tatKey (keyOf c)) : s.sent g keyOf c redisKey = s.store redisKey := by
  obtain h | ⟨lock, -, h⟩ | ⟨seconds, expiresAt, h⟩ := sent_cases g keyOf s c
  · rw [h]
  · rw [h, Function.update_of_ne hlock]
  · rw [h, Function.update_of_ne htat]

lemma view_settle (hc : keyOf c = key) (store : String → Option (Stored τ))
    (check : Check × Option Counter) :
    (s.settle c store check).view g keyOf key =
      ⟨s.clock, lockIn (store (g.lockKey key)), tatIn (store (g.tatKey key)),
        Function.update (s.view g keyOf key).pc c check.1.seen⟩ := by
  unfold view settle
  congr 1
  funext c'
  by_cases hc' : c' = c
  · subst hc'
    simp only [Function.update_self, hc, if_true]
  · simp only [Function.update_of_ne hc']

/-- **A step of another key is not seen.** -/
lemma Keyed.settle_of_ne (h : Keyed g keyOf key order s) (hc : keyOf c ≠ key)
    {store : String → Option (Stored τ)} (hstore : store = s.sent g keyOf c ∨ store = s.store)
    (check : Check × Option Counter) : Keyed g keyOf key order (s.settle c store check) := by
  have hlock : store (g.lockKey key) = s.store (g.lockKey key) := by
    rcases hstore with rfl | rfl
    · exact sent_of_ne (fun heq => hc ((lockKey_inj g).mp heq).symm) (lockKey_ne_tatKey g _ _)
    · rfl
  have htat : store (g.tatKey key) = s.store (g.tatKey key) := by
    rcases hstore with rfl | rfl
    · exact sent_of_ne (lockKey_ne_tatKey g _ _).symm fun heq => hc ((tatKey_inj g).mp heq).symm
    · rfl
  have hview : (s.settle c store check).view g keyOf key = s.view g keyOf key := by
    simp only [view, settle, hlock, htat]
    congr 1
    funext c'
    by_cases hc' : c' = c
    · subst hc'
      simp only [hc, if_false]
    · simp only [Function.update_of_ne hc']
  refine ⟨hview ▸ h.serializes, fun e he => h.lock e ?_, fun e he => h.tat e ?_⟩
  · exact hlock ▸ he
  · exact htat ▸ he

/-! ## Steps of the key -/

/-- A command leaves a token in the lock key and a number in the TAT key. -/
lemma Keyed.sent_stored (h : Keyed g keyOf key order s) (hc : keyOf c = key) :
    (∀ e, s.sent g keyOf c (g.lockKey key) = some e → ∃ c', e.value = .token c') ∧
      ∀ e, s.sent g keyOf c (g.tatKey key) = some e → ∃ seconds, e.value = .tat seconds := by
  have hne := lockKey_ne_tatKey g key key
  obtain hsent | ⟨lock, hlock, hsent⟩ | ⟨seconds, expiresAt, hsent⟩ := sent_cases g keyOf s c
  · rw [hsent]
    exact ⟨h.lock, h.tat⟩
  · rw [hsent, hc, Function.update_self, Function.update_of_ne hne.symm]
    exact ⟨fun e he => ⟨c, hlock e he⟩, h.tat⟩
  · rw [hsent, hc, Function.update_self, Function.update_of_ne hne]
    exact ⟨h.lock, fun e he => ⟨seconds, by rw [← Option.some_inj.mp he]⟩⟩

/-- The lock after a release, as the key sees it. -/
lemma Keyed.lockIn_released (h : Keyed g keyOf key order s) (hc : keyOf c = key) :
    lockIn (s.released g keyOf c (g.lockKey key)) =
        (if (s.view g keyOf key).holder = some c then none else (s.view g keyOf key).lock) ∧
      tatIn (s.released g keyOf c (g.tatKey key)) = (s.view g keyOf key).tat := by
  unfold released
  simp only [hc, h.get_lock_eq_some]
  split_ifs
  · rw [Function.update_self, Function.update_of_ne (lockKey_ne_tatKey g key key).symm]
    exact ⟨rfl, rfl⟩
  · exact ⟨rfl, rfl⟩

/-- **A command that is answered is a step of the single-key machine.** -/
lemma Keyed.view_run (h : Keyed g keyOf key order s) (hc : keyOf c = key) {pc : Pc}
    (hgoing : s.checks c = .going pc) (late : Bool) :
    (s.settle c (s.sent g keyOf c) (s.answered g keyOf c late)).view g keyOf key =
      (s.view g keyOf key).next g.toLimiter (.run c late) := by
  have hpc : (s.view g keyOf key).pc c = pc := by
    simp only [view, hc, if_true, hgoing, Check.seen]
  have hne := lockKey_ne_tatKey g key key
  rw [view_settle hc]
  cases pc with
  | acquiring =>
      cases hholder : (s.view g keyOf key).holder with
      | none =>
          have hget := h.get_lock_eq_none.mpr hholder
          simp only [State.next, hpc, hholder, sent, answered, hgoing, hc, hget, if_true]
          rw [Function.update_self, Function.update_of_ne hne.symm]
          rfl
      | some other =>
          have hget := h.get_lock_eq_some.mpr hholder
          simp only [State.next, hpc, hholder, sent, answered, hgoing, hc, hget, reduceCtorEq,
            if_false]
          split_ifs
          · rfl
          · rw [Function.update_eq_self_iff.mpr (by rw [hpc]; rfl)]
            rfl
  | locked =>
      simp only [State.next, hpc, sent, answered, hgoing]
      rfl
  | timed now =>
      have hget := h.get_tat
      have hview : (s.view g keyOf key).clock = s.clock := rfl
      simp only [State.next, hpc, sent, answered, hgoing, hc, hget, hview]
      cases live (s.view g keyOf key).tat s.clock with
      | none =>
          simp only [Option.map_none, decided]
          cases hrespond : g.respond now none with
          | mk d newTat => cases newTat <;> rfl
      | some seconds =>
          simp only [Option.map_some, decided, Value.float]
          cases hrespond : g.respond now (some seconds) with
          | mk d newTat => cases newTat <;> rfl
  | writing now newTat d =>
      simp only [State.next, hpc, sent, answered, hgoing, hc]
      rw [Function.update_self, Function.update_of_ne hne]
      rfl
  | releasing now d =>
      obtain ⟨hlock, htat⟩ := h.lockIn_released hc
      simp only [State.next, hpc, sent, answered, hgoing, hlock, htat]
      rfl
  | returned now d =>
      simp only [State.next, hpc, sent, answered, hgoing]
      rw [Function.update_eq_self_iff.mpr (by rw [hpc]; rfl)]
      rfl
  | contended =>
      simp only [State.next, hpc, sent, answered, hgoing]
      rw [Function.update_eq_self_iff.mpr (by rw [hpc]; rfl)]
      rfl

/-- A call of the key goes on, and what it did to the store is in order. -/
lemma Keyed.settle (h : Keyed g keyOf key order s) (hc : keyOf c = key)
    {store : String → Option (Stored τ)} (hstore : store = s.sent g keyOf c ∨ store = s.store)
    {check : Check × Option Counter} {order' : List (τ × ℚ × Decision)}
    (hserializes : State.Serializes g.toLimiter order'
      ((s.settle c store check).view g keyOf key)) :
    Keyed g keyOf key order' (s.settle c store check) := by
  rcases hstore with rfl | rfl
  · exact ⟨hserializes, (h.sent_stored hc).1, (h.sent_stored hc).2⟩
  · exact ⟨hserializes, h.lock, h.tat⟩

lemma Keyed.run (h : Keyed g keyOf key order s) (hc : keyOf c = key) {late : Bool}
    (hlease : s.WithinLease g keyOf key (.run c late)) :
    ∃ order', Keyed g keyOf key order' (s.next g keyOf (.run c late)) := by
  cases hcheck : s.checks c with
  | going pc =>
      have hview : (s.view g keyOf key).WithinLease (.run c late) := by
        intro hupdating
        rw [← h.get_lock_eq_some]
        refine hlease hc ?_
        rw [hcheck]
        change pc.updating = true
        simpa only [view, hc, if_true, hcheck, Check.seen] using hupdating
      obtain ⟨order', horder⟩ := h.serializes.next hview
      refine ⟨order', h.settle hc (.inl rfl) ?_⟩
      rw [h.view_run hc hcheck]
      exact horder
  | failing applied =>
      refine ⟨order, h.settle hc (.inl rfl) ?_⟩
      obtain ⟨hlock, htat⟩ := h.lockIn_released hc
      have hseen : (s.view g keyOf key).pc c = (Check.failing applied).seen := by
        simp only [view, hc, if_true, hcheck]
      rw [view_settle hc]
      simp only [sent, answered, hcheck, hlock, htat]
      refine h.serializes.relock ?_ ?_ fun l hl => ?_
      · rw [hseen]
        cases applied <;> rfl
      · intro clock l
        cases applied <;> exact trivial
      · split_ifs at hl
        exact .inl hl
  | failed applied =>
      refine ⟨order, h.settle hc (.inl rfl) ?_⟩
      have hseen : (s.view g keyOf key).pc c = (Check.failed applied).seen := by
        simp only [view, hc, if_true, hcheck]
      rw [view_settle hc]
      simp only [sent, answered, hcheck]
      rw [Function.update_eq_self_iff.mpr hseen.symm]
      exact h.serializes

/-- What a key sees does not depend on how a call ends that has been seen. -/
lemma Keyed.congr {store : String → Option (Stored τ)} {check check' : Check × Option Counter}
    (hc : keyOf c = key) (h : Keyed g keyOf key order (s.settle c store check))
    (hseen : check'.1.seen = check.1.seen) : Keyed g keyOf key order (s.settle c store check') := by
  refine ⟨?_, h.lock, h.tat⟩
  have hview := h.serializes
  rw [view_settle hc] at hview
  rw [view_settle hc, hseen]
  exact hview

omit [DecidableEq τ] in
/-- A call that sees an error is out of its update. -/
lemma progress_raised (clock : ℚ) (l : Lock τ) (reached : Bool) :
    State.Progress g.toLimiter clock order l (s.raised g c reached).1.seen := by
  unfold raised
  cases s.checks c with
  | going pc =>
      cases pc with
      | writing now newTat d => cases reached <;> exact trivial
      | _ => exact trivial
  | failing applied => cases applied <;> exact trivial
  | failed applied => cases applied <;> exact trivial

omit [DecidableEq τ] in
/-- An error of a command that Redis did not run changes no answer. -/
lemma answer_raised : (s.raised g c false).1.seen.answer = (s.checks c).seen.answer := by
  unfold raised
  cases s.checks c with
  | going pc => cases pc <;> rfl
  | failing applied => cases applied <;> rfl
  | failed applied => cases applied <;> rfl

lemma Keyed.raise (h : Keyed g keyOf key order s) (hc : keyOf c = key) {reached : Bool}
    (hanswer : (s.raised g c reached).1.seen.answer = (s.checks c).seen.answer) :
    Keyed g keyOf key order (s.settle c s.store (s.raised g c reached)) := by
  refine h.settle hc (.inr rfl) ?_
  rw [view_settle hc]
  refine h.serializes.move ?_ fun l _ _ => progress_raised _ l reached
  rw [hanswer]
  simp only [view, hc, if_true]

lemma Keyed.lost (h : Keyed g keyOf key order s) (hc : keyOf c = key) {reached : Bool}
    (hlease : s.WithinLease g keyOf key (.lost c reached)) :
    ∃ order', Keyed g keyOf key order' (s.next g keyOf (.lost c reached)) := by
  cases reached with
  | false => exact ⟨order, h.raise hc answer_raised⟩
  | true =>
      -- a caller that would have learned nothing from the answer is where it would be with it
      have hrun : (s.raised g c true).1.seen = (s.answered g keyOf c true).1.seen →
          ∃ order', Keyed g keyOf key order' (s.next g keyOf (.lost c true)) := by
        intro hseen
        have hrunning : s.WithinLease g keyOf key (.run c true) := hlease
        obtain ⟨order', horder⟩ := h.run hc hrunning
        exact ⟨order', horder.congr hc hseen⟩
      cases hcheck : s.checks c with
      | going pc =>
          have hpc : (s.view g keyOf key).pc c = pc := by
            simp only [view, hc, if_true, hcheck, Check.seen]
          cases pc with
          | acquiring =>
              cases hholder : (s.view g keyOf key).holder with
              | none =>
                  -- the lock is taken for nobody, until it expires
                  refine ⟨order, h.settle hc (.inl rfl) ?_⟩
                  have hne := lockKey_ne_tatKey g key key
                  rw [view_settle hc]
                  simp only [sent, raised, hcheck, hc, h.get_lock_eq_none.mpr hholder, if_true]
                  rw [Function.update_self, Function.update_of_ne hne.symm]
                  refine h.serializes.relock (by rw [hpc]; rfl) (fun _ _ => trivial) fun l hl => ?_
                  exact .inr (Option.some_inj.mp hl).symm
              | some other =>
                  have hget : s.get (g.lockKey (keyOf c)) ≠ none := by
                    rw [hc, Ne, h.get_lock_eq_none, hholder]
                    simp
                  have hsent : s.sent g keyOf c = s.store := by
                    simp only [sent, hcheck, hget, if_false]
                  refine ⟨order, ?_⟩
                  simp only [Shared.next, hsent, if_true]
                  refine h.raise hc ?_
                  simp only [raised, hcheck]
                  rfl
          | writing now newTat d => exact hrun (by simp only [raised, answered, hcheck]; rfl)
          | releasing now d => exact hrun (by simp only [raised, answered, hcheck])
          | returned now d => exact hrun (by simp only [raised, answered, hcheck])
          | contended => exact hrun (by simp only [raised, answered, hcheck])
          | _ =>
              have hsent : s.sent g keyOf c = s.store := by simp only [sent, hcheck]
              refine ⟨order, ?_⟩
              simp only [Shared.next, hsent, if_true]
              refine h.raise hc ?_
              simp only [raised, hcheck]
              rfl
      | failing applied => exact hrun (by simp only [raised, answered, hcheck])
      | failed applied => exact hrun (by simp only [raised, answered, hcheck])

/-- **One step**, seen from a key. -/
lemma Keyed.next (h : Keyed g keyOf key order s) {a : Act τ} (ha : s.WithinLease g keyOf key a) :
    ∃ order', Keyed g keyOf key order' (s.next g keyOf a) := by
  cases a with
  | tick seconds =>
      unfold Shared.next
      by_cases hseconds : 0 ≤ seconds
      · simp only [hseconds, if_true]
        exact ⟨order, h.serializes.tick hseconds, h.lock, h.tat⟩
      · simp only [hseconds, if_false]
        exact ⟨order, h⟩
  | run c late =>
      by_cases hc : keyOf c = key
      · exact h.run hc ha
      · exact ⟨order, h.settle_of_ne hc (.inl rfl) _⟩
  | lost c reached =>
      by_cases hc : keyOf c = key
      · exact h.lost hc ha
      · refine ⟨order, h.settle_of_ne hc ?_ _⟩
        cases reached
        · exact .inr rfl
        · exact .inl rfl
  | foreign redisKey stored =>
      have htat : Function.update s.store redisKey stored (g.tatKey key) = s.store (g.tatKey key) :=
        Function.update_of_ne ha.1.symm _ _
      have hlock : Function.update s.store redisKey stored (g.lockKey key) =
          s.store (g.lockKey key) := Function.update_of_ne ha.2.symm _ _
      refine ⟨order, ?_, fun e he => h.lock e (hlock ▸ he), fun e he => h.tat e (htat ▸ he)⟩
      have hview : (s.next g keyOf (.foreign redisKey stored)).view g keyOf key =
          s.view g keyOf key := by
        simp only [view, Shared.next, htat, hlock]
      rw [hview]
      exact h.serializes

/-! ## The order of the checks of a key -/

/-- **The checks of a key that took effect did so one after the other.** -/
def Serialized (g : GCRALimiter) (keyOf : τ → String) (key : String) (s : Shared τ) : Prop :=
  ∃ order : List (τ × ℚ × Decision), (order.map (·.1)).Nodup ∧
    (∀ c now d, (c, now, d) ∈ order ↔ keyOf c = key ∧ (s.checks c).seen.answer = some (now, d)) ∧
    (order.map (·.2.1)).Pairwise (· ≤ ·) ∧
    order.map (·.2.2) = g.serial none (order.map (·.2.1))

omit [DecidableEq τ] in
lemma Keyed.init (clock : ℚ) : Keyed g keyOf key [] (init clock) where
  serializes := by
    have hview : (Shared.init clock : Shared τ).view g keyOf key = .init clock := by
      simp only [view, Shared.init, State.init, Check.seen, lockIn, tatIn, ite_self]
    rw [hview]
    exact State.Serializes.init _ clock
  lock := by simp [Shared.init]
  tat := by simp [Shared.init]

omit [DecidableEq τ] in
lemma Keyed.serialized (h : Keyed g keyOf key order s) : s.Serialized g keyOf key := by
  obtain ⟨order', hnodup, hanswers, hsorted, hdecisions⟩ := h.serializes.serialized
  refine ⟨order', hnodup, fun c now d => ?_, hsorted, hdecisions⟩
  rw [hanswers]
  simp only [view]
  split_ifs with hc
  · simp only [hc, true_and]
  · simp only [hc, false_and, iff_false]
    exact nofun

/-- **A run**, seen from a key. -/
lemma run_serialized {clock : ℚ} {acts : List (Act τ)}
    (hacts : Guarded (Shared.next g keyOf) (WithinLease g keyOf key) (.init clock) acts) :
    (acts.foldl (Shared.next g keyOf) (.init clock)).Serialized g keyOf key := by
  obtain ⟨order, horder⟩ := hacts.inv (fun s => ∃ order, Keyed g keyOf key order s)
    (fun s a hs ha => by
      obtain ⟨order, h⟩ := hs
      exact h.next ha)
    ⟨[], Keyed.init clock⟩
  exact horder.serialized

end Shared

/-- **The keys do not disturb each other.**  Commands may fail, reached or not, and other programs
may write any other Redis keys.  As long as nobody touches the TAT of a key past its lease, the
checks of the key whose update took effect decide as if they had run alone on an empty Redis, one
after the other, each at the instant it read off the clock. -/
theorem keys_isolated {τ : Type} [DecidableEq τ] (g : GCRALimiter) (keyOf : τ → String)
    (key : String) (clock : ℚ) (acts : List (Shared.Act τ))
    (hacts : Guarded (Shared.next g keyOf) (Shared.WithinLease g keyOf key) (.init clock) acts) :
    let s := acts.foldl (Shared.next g keyOf) (.init clock)
    ∃ order : List (τ × ℚ × Decision), (order.map (·.1)).Nodup ∧
      (∀ c now d, (c, now, d) ∈ order ↔ keyOf c = key ∧ (s.checks c).seen.answer = some (now, d)) ∧
      (order.map (·.2.1)).Pairwise (· ≤ ·) ∧
      order.map (·.2.2) = g.serial none (order.map (·.2.1)) :=
  Shared.run_serialized hacts

/-- One request a second and key. -/
def perKey : GCRALimiter where
  toLimiter := oneASecond
  keyspace := "gcra"
  failOpen := true

/-- Whose request it is: the first and the last caller share a key. -/
def keyOfCaller (c : Fin 3) : String := if c = 1 then "POST:b" else "POST:a"

/-- The answer to the first caller's `SET` is lost, the second one's TAT is not a number, and the
third one comes after them. -/
def withErrors : List (Shared.Act (Fin 3)) :=
  [.foreign (perKey.tatKey "POST:b") (some ⟨.text "corrupt", 10⟩),
    .run 0 false, .run 1 false, .run 0 false, .run 0 false, .run 1 false, .lost 0 true,
      .run 1 false,
    .run 0 false, .run 1 false] ++ List.replicate 4 (.run 2 false)

/-- The first two fail open, and the third is limited by the first one's update. -/
theorem keys_isolated_lost_answer :
    perKey.decision ((withErrors.foldl (Shared.next perKey keyOfCaller) (.init 0)).checks 0) =
        some ⟨true, 1, 1, 0, "limiter_error_fail_open"⟩ ∧
      perKey.decision ((withErrors.foldl (Shared.next perKey keyOfCaller) (.init 0)).checks 1) =
        some ⟨true, 1, 1, 0, "limiter_error_fail_open"⟩ ∧
      perKey.decision ((withErrors.foldl (Shared.next perKey keyOfCaller) (.init 0)).checks 2) =
        some ⟨false, 1, 0, 1, "rate_limited"⟩ ∧
      (withErrors.foldl (Shared.next perKey keyOfCaller) (.init 0)).Serialized perKey keyOfCaller
        "POST:a" := by
  refine ⟨by decide +kernel, by decide +kernel, by decide +kernel, ?_⟩
  exact keys_isolated perKey keyOfCaller "POST:a" 0 withErrors (by decide +kernel)

end LedgerProof.Gcra
