import LedgerProof.Lib.Python
import LedgerProof.Lib.Text
import LedgerProof.Lib.Dict

/-!
# Idempotent egress

`StripeEgressClient` of `stripe_io/client.py`: `post` and the retry loop `_request` under it.

The loop talks to an environment, `send : ε → Request → ε × Outcome`, which may be a script of
outcomes or a server behind a network that loses messages.  `requestLoop_step` is one turn of the
loop: it ends at an outcome that stops it, with the last attempt, or where the delay before the next
one overflows.  `request_spec` is the whole call.

Two exceptions leave a call that are no `StripeError`.  `_backoff_delay` doubles its base before it
caps it, and the base no longer fits a float at retry 1024; and `response.json()` raises a
`RecursionError` on a body that is nested too deep.

The second half is what the retries are for.  `IdempotentServer` is a server that executes a key at
most once and answers for a key it has executed with the stored response; `Network` loses requests
and responses as it likes.  However it does, a call causes at most one execution, and returns only
what that execution answered.

The form encoding of the parameters is the parameter `encode`; `post` uses its value once, before
the first attempt.
-/

namespace LedgerProof.Egress

/-! ## Requests and responses -/

/-- A request as it goes out. -/
structure Request where
  method : String
  path : String
  authorization : String
  contentType : String
  idempotencyKey : String
  body : List UInt8
  deriving DecidableEq, Repr

/-- What `response.json()` makes of a body. -/
inductive Body
  | json (j : Json)
  /-- A `ValueError`. -/
  | notJson
  /-- A `RecursionError`, which is none. -/
  | tooDeep

/-- A response: the headers the client reads, and the body. -/
structure Response where
  status : ℤ
  shouldRetry : Option String
  idempotentReplayed : Option String
  requestId : Option String
  body : Body

/-- What comes of sending a request. -/
inductive Outcome
  /-- `httpx.TransportError`: the request or the response was lost. -/
  | transportError (exc : String)
  | response (r : Response)

/-- `StripeError`. -/
structure StripeError where
  message : Json
  statusCode : Option ℤ
  code : Json
  requestId : Option String

/-- How a call ends. -/
inductive PostResult
  | returned (body : Json)
  | raised (e : StripeError)
  /-- Of `response.json()`. -/
  | recursionError
  /-- Of `_backoff_delay`. -/
  | overflowError
  /-- The `AssertionError` after the loop. -/
  | assertionError

namespace Response

/-- `response.is_success`. -/
def isSuccess (r : Response) : Bool := 200 ≤ r.status && r.status ≤ 299

/-- `header.strip().lower()`. -/
def normalized (header : String) : List Char := asciiLower (strip header.toList)

/-- `response.headers.get("Idempotent-Replayed", "").strip().lower() == "true"`. -/
def isReplay (r : Response) : Bool := normalized (r.idempotentReplayed.getD "") = "true".toList

/-- `_retryable`: `Stripe-Should-Retry` outranks the status code. -/
def retryable (r : Response) : Bool :=
  match r.shouldRetry with
  | some header =>
      if normalized header = "true".toList then true
      else if normalized header = "false".toList then false
      else r.status ≥ 500
  | none => r.status ≥ 500

/-- The body is JSON or is not: `response.json()` raises nothing but `ValueError`. -/
def readable (r : Response) : Bool :=
  match r.body with
  | .tooDeep => false
  | _ => true

/-- `payload.get("error")` where it is a dictionary, else an empty one. -/
def errorFields (r : Response) : List (String × Json) :=
  match r.body with
  | .json (.obj payload) =>
      match payload.lookup "error" with
      | some (.obj fields) => fields
      | _ => []
  | _ => []

/-- `_error_from_response`. -/
def error (r : Response) : StripeError :=
  let message := (r.errorFields.lookup "message").getD .null
  { message := if message.truthy then message
      else .str ("Stripe returned HTTP " ++ String.ofList (decimal r.status))
    statusCode := some r.status
    code := (r.errorFields.lookup "code").getD .null
    requestId := r.requestId }

end Response

/-- The error when the last attempt met no server. -/
def networkError (maxAttempts : ℕ) (exc : String) : StripeError :=
  { message := .str ("network error talking to Stripe after " ++
      String.ofList (natDecimal maxAttempts) ++ " attempts: " ++ exc)
    statusCode := none
    code := .null
    requestId := none }

/-- The error for a 2xx without a JSON body. -/
def malformedSuccess (r : Response) : StripeError :=
  { message := .str "malformed success response body", statusCode := some r.status, code := .null
    requestId := r.requestId }

/-! ## The retry loop -/

/-- The base of `_backoff_delay`, which is multiplied by `rng.random()`.  The product with
`2**retry_index` is one of floats, and from `2**1024` on there is no such float
(`OverflowError`). -/
def backoffBase (retryIndex : ℕ) : Option ℚ :=
  if retryIndex < 1024 then some (min (1 / 2 * 2 ^ retryIndex) 8) else none

/-- What a call has done so far: the environment it left, the requests it sent, the bases of the
delays it slept, and the client's replay counter. -/
structure Run (ε : Type) where
  env : ε
  sent : List Request
  sleeps : List ℚ
  replayedCount : ℕ

section

variable {ε : Type} (send : ε → Request → ε × Outcome)

/-- The `for` loop of `_request`, with `n` of its turns left. -/
def requestLoop (maxAttempts : ℕ) (req : Request) : ℕ → ℕ → Run ε → PostResult × Run ε
  | 0, _, run => (.assertionError, run)
  | n + 1, attempt, run =>
      let lastAttempt := attempt + 1 ≥ maxAttempts
      let again (run : Run ε) : PostResult × Run ε :=
        match backoffBase attempt with
        | some base =>
            requestLoop maxAttempts req n (attempt + 1) { run with sleeps := run.sleeps ++ [base] }
        | none => (.overflowError, run)
      match send run.env req with
      | (env, .transportError exc) =>
          let run := { run with env, sent := run.sent ++ [req] }
          if lastAttempt then (.raised (networkError maxAttempts exc), run) else again run
      | (env, .response r) =>
          let run := { run with env, sent := run.sent ++ [req] }
          let run := if r.isReplay then { run with replayedCount := run.replayedCount + 1 } else run
          -- the body is parsed whatever the status: for the value, or for the error
          if !r.readable then (.recursionError, run)
          else if r.isSuccess then
            match r.body with
            | .json value => (.returned value, run)
            | _ => (.raised (malformedSuccess r), run)
          else if !r.retryable ∨ lastAttempt then (.raised r.error, run)
          else again run

/-- `_request`. -/
def request (maxRetries : ℕ) (req : Request) (run : Run ε) : PostResult × Run ε :=
  requestLoop send (maxRetries + 1) req (maxRetries + 1) 0 run

/-- The request `post` makes of its arguments; `uuid4` is the key minted for this call. -/
def postRequest {P : Type} (encode : P → List UInt8) (apiKey path : String) (params : P)
    (idempotencyKey : Option String) (uuid4 : String) : Request :=
  { method := "POST"
    path := path
    authorization := "Bearer " ++ apiKey
    contentType := "application/x-www-form-urlencoded"
    idempotencyKey := idempotencyKey.getD uuid4
    body := encode params }

/-- `post`. -/
def post {P : Type} (encode : P → List UInt8) (apiKey : String) (maxRetries : ℕ) (path : String)
    (params : P) (idempotencyKey : Option String) (uuid4 : String) (run : Run ε) :
    PostResult × Run ε :=
  request send maxRetries (postRequest encode apiKey path params idempotencyKey uuid4) run

end

/-! ## One turn of the loop -/

/-- A 2xx, or a response `_retryable` rejects. -/
def Outcome.terminal : Outcome → Bool
  | .transportError _ => false
  | .response r => r.isSuccess || !r.retryable

/-- A response that is flagged as a replay. -/
def Outcome.isReplay : Outcome → Bool
  | .transportError _ => false
  | .response r => r.isReplay

/-- No response, or one whose body can be read. -/
def Outcome.readable : Outcome → Bool
  | .transportError _ => true
  | .response r => r.readable

/-- How a call ends whose last outcome is this one. -/
def Outcome.verdict (maxAttempts : ℕ) : Outcome → PostResult
  | .transportError exc => .raised (networkError maxAttempts exc)
  | .response r =>
      if !r.readable then .recursionError
      else if r.isSuccess then
        match r.body with
        | .json value => .returned value
        | _ => .raised (malformedSuccess r)
      else .raised r.error

section

variable {ε : Type} {send : ε → Request → ε × Outcome}

/-- The run after one request. -/
def Run.after (run : Run ε) (req : Request) (env : ε) (o : Outcome) : Run ε :=
  { env, sent := run.sent ++ [req], sleeps := run.sleeps
    replayedCount := run.replayedCount + if o.isReplay then 1 else 0 }

/-- No retry follows this outcome. -/
def Outcome.stops (o : Outcome) : Bool := o.terminal || !o.readable

/-- **One turn of the loop.** -/
lemma requestLoop_step (maxAttempts : ℕ) (req : Request) (n attempt : ℕ) (run : Run ε) :
    requestLoop send maxAttempts req (n + 1) attempt run =
      let (env, o) := send run.env req
      if o.stops ∨ attempt + 1 ≥ maxAttempts then (o.verdict maxAttempts, run.after req env o)
      else match backoffBase attempt with
        | some base => requestLoop send maxAttempts req n (attempt + 1)
            { run.after req env o with sleeps := run.sleeps ++ [base] }
        | none => (.overflowError, run.after req env o) := by
  rw [requestLoop]
  rcases send run.env req with ⟨env, exc | r⟩
  · simp [Outcome.stops, Outcome.readable, Outcome.terminal, Outcome.verdict, Run.after,
      Outcome.isReplay]
  · have hrun : (if r.isReplay then
        { run with env, sent := run.sent ++ [req], replayedCount := run.replayedCount + 1 }
        else { run with env, sent := run.sent ++ [req] } :
          Run ε) = run.after req env (.response r) := by
      cases hr : r.isReplay <;> simp [Run.after, Outcome.isReplay, hr]
    simp only [hrun, Outcome.stops, Outcome.readable, Outcome.terminal, Outcome.verdict]
    by_cases hread : r.readable = true
    · by_cases hs : r.isSuccess = true
      · cases r.body <;> simp [hread, hs]
      · have hs' : r.isSuccess = false := by simpa using hs
        simp only [hread, hs', Bool.false_or, Bool.false_eq_true, if_false, Bool.not_true,
          Bool.or_false]
        rfl
    · have hread' : r.readable = false := by simpa using hread
      simp [hread']

/-! ## The whole call -/

/-- The environment after `i` requests. -/
def envAt (send : ε → Request → ε × Outcome) (req : Request) (e : ε) : ℕ → ε
  | 0 => e
  | i + 1 => (send (envAt send req e i) req).1

/-- What comes of request number `i`, counted from zero. -/
def outcomeAt (send : ε → Request → ε × Outcome) (req : Request) (e : ε) (i : ℕ) : Outcome :=
  (send (envAt send req e i) req).2

lemma envAt_succ (req : Request) (e : ε) (i : ℕ) :
    envAt send req (send e req).1 i = envAt send req e (i + 1) := by
  induction i with
  | zero => rfl
  | succ i ih => rw [envAt, ih, envAt.eq_def send req e (i + 1 + 1)]

lemma outcomeAt_succ (req : Request) (e : ε) (i : ℕ) :
    outcomeAt send req (send e req).1 i = outcomeAt send req e (i + 1) := by
  rw [outcomeAt, envAt_succ, outcomeAt]

/-- How many of the first `n` outcomes are responses flagged as replays. -/
def replays (o : ℕ → Outcome) (n : ℕ) : ℕ := (List.range n).countP fun i => (o i).isReplay

lemma replays_succ (o : ℕ → Outcome) (n : ℕ) :
    replays o (n + 1) = (if (o 0).isReplay then 1 else 0) + replays (fun i => o (i + 1)) n := by
  rw [replays, List.range_succ_eq_map, List.countP_cons, List.countP_map, add_comm]
  rfl

/-- **What a call does** from some attempt on, in terms of the number `m` of its requests. -/
structure Spec (maxAttempts : ℕ) (req : Request) (o : ℕ → Outcome) (envs : ℕ → ε) (attempt : ℕ)
    (run : Run ε) (result : PostResult) (run' : Run ε) (m : ℕ) : Prop where
  pos : 1 ≤ m
  le : attempt + m ≤ maxAttempts
  early : attempt ≤ 1024 → attempt + m ≤ 1025
  sent : run'.sent = run.sent ++ List.replicate m req
  sleeps : run'.sleeps.length + 1 = run.sleeps.length + m
  replayed : run'.replayedCount = run.replayedCount + replays o m
  env : run'.env = envs m
  going : ∀ i < m - 1, (o i).stops = false
  stopped : (attempt + m = maxAttempts ∨ (o (m - 1)).stops = true) ∧
      result = (o (m - 1)).verdict maxAttempts ∨
    1025 ≤ attempt + m ∧ attempt + m < maxAttempts ∧ (o (m - 1)).stops = false ∧
      result = .overflowError

/-- The first outcome ends the call. -/
lemma Spec.stop {maxAttempts attempt : ℕ} {req : Request} {run : Run ε} {result : PostResult}
    (hle : attempt + 1 ≤ maxAttempts)
    (h : (attempt + 1 = maxAttempts ∨ (send run.env req).2.stops = true) ∧
        result = (send run.env req).2.verdict maxAttempts ∨
      1025 ≤ attempt + 1 ∧ attempt + 1 < maxAttempts ∧ (send run.env req).2.stops = false ∧
        result = .overflowError) :
    Spec maxAttempts req (outcomeAt send req run.env) (envAt send req run.env) attempt run result
      (run.after req (send run.env req).1 (send run.env req).2) 1 where
  pos := le_rfl
  le := hle
  early := fun h => by omega
  sent := rfl
  sleeps := rfl
  replayed := by rw [replays_succ]; rfl
  env := rfl
  going := by simp
  stopped := h

/-- The first outcome does not stop the call, and it goes on after a sleep. -/
lemma Spec.next {maxAttempts attempt m : ℕ} {req : Request} {run run' : Run ε} {result : PostResult}
    {base : ℚ} (hfirst : (send run.env req).2.stops = false) (hsmall : attempt < 1024)
    (h : Spec maxAttempts req (outcomeAt send req (send run.env req).1)
      (envAt send req (send run.env req).1) (attempt + 1)
      { run.after req (send run.env req).1 (send run.env req).2 with sleeps := run.sleeps ++
        [base] } result run' m) :
    Spec maxAttempts req (outcomeAt send req run.env) (envAt send req run.env) attempt run result
      run'
      (m + 1) := by
  have hpos := h.pos
  have hle := h.le
  have hsleeps := h.sleeps
  have hsum : attempt + (m + 1) = attempt + 1 + m := by omega
  have hshift : ∀ i, 1 ≤ i → outcomeAt send req run.env i = outcomeAt send req (send run.env req).1
      (i - 1) := by
    intro i hi
    rw [outcomeAt_succ, Nat.sub_add_cancel hi]
  refine
    { pos := by omega
      le := by omega
      early := fun _ => by have := h.early (by omega); omega
      sent := ?_
      sleeps := by simp only [List.length_append, List.length_singleton] at hsleeps; omega
      replayed := ?_
      env := by rw [h.env, envAt_succ]
      going := fun i hi => ?_
      stopped := ?_ }
  · rw [h.sent, List.replicate_succ]
    simp [Run.after]
  · have hrest : replays (fun i => outcomeAt send req run.env (i + 1)) m =
        replays (outcomeAt send req (send run.env req).1) m :=
      congrArg (fun o => replays o m) (funext fun i => (outcomeAt_succ req run.env i).symm)
    rw [h.replayed, replays_succ, hrest]
    exact Nat.add_assoc _ _ _
  · rcases Nat.eq_zero_or_pos i with rfl | hi'
    · exact hfirst
    · rw [hshift i hi']
      exact h.going (i - 1) (by omega)
  · rw [Nat.add_sub_cancel, hshift m hpos, hsum]
    exact h.stopped

lemma requestLoop_spec (maxAttempts : ℕ) (req : Request) (n attempt : ℕ) (run : Run ε)
    (h : attempt + (n + 1) = maxAttempts) :
    ∃ m, Spec maxAttempts req (outcomeAt send req run.env) (envAt send req run.env) attempt run
      (requestLoop send maxAttempts req (n + 1) attempt run).1
      (requestLoop send maxAttempts req (n + 1) attempt run).2 m := by
  induction n generalizing attempt run with
  | zero =>
      have hlast : attempt + 1 ≥ maxAttempts := by omega
      rw [requestLoop_step]
      simp only [hlast, or_true, if_true]
      exact ⟨1, Spec.stop (by omega) (.inl ⟨.inl (by omega), rfl⟩)⟩
  | succ n ih =>
      have hmore : ¬ attempt + 1 ≥ maxAttempts := by omega
      rw [requestLoop_step]
      simp only [hmore, or_false]
      by_cases hterm : (send run.env req).2.stops = true
      · simp only [hterm, if_true]
        exact ⟨1, Spec.stop (by omega) (.inl ⟨.inr hterm, rfl⟩)⟩
      · have hfirst : (send run.env req).2.stops = false := by simpa using hterm
        rw [if_neg hterm]
        cases hbase : backoffBase attempt with
        | none =>
            have hlarge : 1024 ≤ attempt := by
              by_contra hsmall
              simp [backoffBase, not_le.mp hsmall] at hbase
            exact ⟨1, Spec.stop (by omega) (.inr ⟨by omega, by omega, hfirst, rfl⟩)⟩
        | some base =>
            obtain ⟨m, hm⟩ := ih (attempt + 1)
              { run.after req (send run.env req).1 (send run.env req).2 with sleeps := run.sleeps ++
                [base] }
              (by omega)
            have hsmall : attempt < 1024 := by
              by_contra hlarge
              simp [backoffBase, hlarge] at hbase
            exact ⟨m + 1, Spec.next hfirst hsmall hm⟩

/-- A call has a number of requests that says everything about it. -/
lemma request_spec (maxRetries : ℕ) (req : Request) (run : Run ε) :
    ∃ m, Spec (maxRetries + 1) req (outcomeAt send req run.env) (envAt send req run.env) 0 run
      (request send maxRetries req run).1 (request send maxRetries req run).2 m :=
  requestLoop_spec (maxRetries + 1) req maxRetries 0 run (by omega)

section

variable {maxRetries m : ℕ} {req : Request} {o : ℕ → Outcome} {envs : ℕ → ε} {run run' : Run ε}
  {result : PostResult}

/-- A call stops at the last attempt or at an outcome that stops it, if few retries are allowed or
an outcome stops it early. -/
lemma Spec.verdict (h : Spec (maxRetries + 1) req o envs 0 run result run' m)
    (hbackoff : maxRetries ≤ 1024 ∨ ∃ k ≤ 1024, (o k).terminal = true) :
    (m = maxRetries + 1 ∨ (o (m - 1)).stops = true) ∧ result = (o (m - 1)).verdict
    (maxRetries + 1) := by
  rcases h.stopped with hstop | ⟨hmany, hless, hgoes, -⟩
  · simpa using hstop
  · obtain hfew | ⟨k, hk, hterm⟩ := hbackoff
    · omega
    · -- the outcome `k` was met, and the call went on
      have hpos := h.pos
      have hstops : (o k).stops = true := by simp [Outcome.stops, hterm]
      rcases Nat.lt_or_ge k (m - 1) with hlt | hge
      · rw [h.going k hlt] at hstops
        cases hstops
      · obtain rfl : k = m - 1 := by omega
        rw [hgoes] at hstops
        cases hstops

/-- The number of requests is one more than the index of the first terminal outcome, unless the
attempts run out before it. -/
lemma Spec.requests (h : Spec (maxRetries + 1) req o envs 0 run result run' m)
    (hread : ∀ i, (o i).readable = true) (hlast : m = maxRetries + 1 ∨ (o (m - 1)).stops = true) :
    (∀ k, (o k).terminal = true → (∀ i < k, (o i).terminal = false) →
      m = min (k + 1) (maxRetries + 1)) ∧
      ((∀ k, (o k).terminal = false) → m = maxRetries + 1) := by
  have hpos := h.pos
  have hle := h.le
  have hstops : ∀ i, (o i).stops = (o i).terminal := fun i => by simp [Outcome.stops, hread i]
  rw [hstops] at hlast
  constructor
  · intro k hk hfirst
    -- the call does not stop before `k`, and goes on to no later one
    have hlow : m = maxRetries + 1 ∨ k ≤ m - 1 := hlast.imp_right fun hstop => by
      by_contra hlt
      rw [hfirst (m - 1) (by omega)] at hstop
      cases hstop
    have hhigh : m - 1 ≤ k := by
      by_contra hlt
      have hgoes := h.going k (by omega)
      rw [hstops, hk] at hgoes
      cases hgoes
    omega
  · intro hnone
    rcases hlast with hall | hstop
    · exact hall
    · rw [hnone] at hstop
      cases hstop

end

end

/-! ## Environments -/

/-- The environment that answers request number `i` with `script i`. -/
def scripted (script : ℕ → Outcome) (i : ℕ) (_ : Request) : ℕ × Outcome := (i + 1, script i)

lemma outcomeAt_scripted (script : ℕ → Outcome) (req : Request) (i : ℕ) :
    outcomeAt (scripted script) req 0 i = script i := by
  have henv : ∀ i, envAt (scripted script) req 0 i = i := by
    intro i
    induction i with
    | zero => rfl
    | succ i ih => rw [envAt, ih]; rfl
  rw [outcomeAt, henv]
  rfl

/-- A server that executes each key at most once and answers for an executed key with the stored
response.  It may also refuse a request without executing it, but it does not answer 2xx then.
`executions` counts what was executed under each key. -/
structure IdempotentServer (σ : Type) where
  handle : σ → Request → σ × Response
  stored : σ → String → Option Response
  executions : σ → String → ℕ
  handle_other : ∀ s q k, k ≠ q.idempotencyKey → executions (handle s q).1 k = executions s k
  handle_own : ∀ s q,
    (stored s q.idempotencyKey = none ∧
      stored (handle s q).1 q.idempotencyKey = some (handle s q).2 ∧
      executions (handle s q).1 q.idempotencyKey = executions s q.idempotencyKey + 1) ∨
    (∃ r, stored s q.idempotencyKey = some r ∧ stored (handle s q).1 q.idempotencyKey = some r ∧
      executions (handle s q).1 q.idempotencyKey = executions s q.idempotencyKey ∧
      (handle s q).2.status = r.status ∧ (handle s q).2.body = r.body) ∨
    (stored (handle s q).1 q.idempotencyKey = stored s q.idempotencyKey ∧
      executions (handle s q).1 q.idempotencyKey = executions s q.idempotencyKey ∧
      (handle s q).2.isSuccess = false)

/-- What the network does with a request. -/
inductive Fate
  | requestLost
  | responseLost
  | delivered
  deriving DecidableEq, Repr

/-- A server behind a network that treats request number `i` as `fates i` says. -/
def network {σ : Type} (server : IdempotentServer σ) (fates : ℕ → Fate) (env : σ × ℕ)
    (q : Request) :
    (σ × ℕ) × Outcome :=
  match fates env.2 with
  | .requestLost => ((env.1, env.2 + 1), .transportError "request lost")
  | .responseLost => (((server.handle env.1 q).1, env.2 + 1), .transportError "response lost")
  | .delivered => (((server.handle env.1 q).1, env.2 + 1), .response (server.handle env.1 q).2)

/-- What the requests of one call leave of a server that was in state `s`. -/
structure Served {σ : Type} (server : IdempotentServer σ) (key : String) (s s' : σ) : Prop where
  other : ∀ k, k ≠ key → server.executions s' k = server.executions s k
  own : (server.stored s' key = server.stored s key ∧
    server.executions s' key = server.executions s key) ∨
    (server.stored s key = none ∧ (server.stored s' key).isSome ∧
      server.executions s' key = server.executions s key + 1)

section

variable {σ : Type} {server : IdempotentServer σ} {s s' : σ}

lemma Served.refl (key : String) : Served server key s s := ⟨fun _ _ => rfl, .inl ⟨rfl, rfl⟩⟩

lemma Served.handle {q : Request} (h : Served server q.idempotencyKey s s') :
    Served server q.idempotencyKey s (server.handle s' q).1 := by
  refine ⟨fun k hk => (server.handle_other s' q k hk).trans (h.other k hk), ?_⟩
  rcases server.handle_own s' q with ⟨hnone, hsome, hcount⟩ | ⟨r, hr, hr', hcount, -⟩ | ⟨hstored,
    hcount, -⟩
  · rcases h.own with ⟨hs, hc⟩ | ⟨-, hs, -⟩
    · exact .inr ⟨hs ▸ hnone, by rw [hsome]; rfl, by rw [hcount, hc]⟩
    · rw [hnone] at hs
      cases hs
  · have hkeep : server.stored (server.handle s' q).1 q.idempotencyKey =
        server.stored s' q.idempotencyKey := by
      rw [hr, hr']
    rw [hkeep, hcount]
    exact h.own
  · rw [hstored, hcount]
    exact h.own

lemma served_envAt (fates : ℕ → Fate) (q : Request) (n : ℕ) :
    Served server q.idempotencyKey s (envAt (network server fates) q (s, 0) n).1 := by
  induction n with
  | zero => exact .refl _
  | succ n ih =>
      rw [envAt, network]
      cases fates (envAt (network server fates) q (s, 0) n).2 with
      | requestLost => exact ih
      | responseLost => exact ih.handle
      | delivered => exact ih.handle

lemma stored_of_success {fates : ℕ → Fate} {q : Request} {env : σ × ℕ} {r : Response}
    (h : (network server fates env q).2 = .response r) (hs : r.isSuccess = true) :
    ∃ r', server.stored (network server fates env q).1.1 q.idempotencyKey = some r' ∧
      r'.isSuccess = true ∧ r'.body = r.body := by
  rw [network] at h ⊢
  cases hf : fates env.2 with
  | requestLost => simp [hf] at h
  | responseLost => simp [hf] at h
  | delivered =>
      simp only [hf] at h ⊢
      obtain rfl : (server.handle env.1 q).2 = r := Outcome.response.inj h
      rcases server.handle_own env.1 q with ⟨-, hsome, -⟩ | ⟨r', -, hr', -, hstatus, hbody⟩ | ⟨-, -,
        hfail⟩
      · exact ⟨_, hsome, hs, rfl⟩
      · refine ⟨r', hr', ?_, hbody.symm⟩
        rw [Response.isSuccess, ← hstatus]
        exact hs
      · rw [hfail] at hs
        cases hs

end

/-- A call whose last outcome is readable ends with a value or a `StripeError`. -/
lemma Outcome.verdict_of_readable (maxAttempts : ℕ) {o : Outcome} (h : o.readable = true) :
    (∃ value, o.verdict maxAttempts = .returned value) ∨ ∃ e,
    o.verdict maxAttempts = .raised e := by
  rcases o with exc | r
  · exact .inr ⟨_, rfl⟩
  · simp only [readable, verdict] at h ⊢
    simp only [h, Bool.not_true, Bool.false_eq_true, if_false]
    split_ifs
    · cases r.body with
      | json value => exact .inl ⟨_, rfl⟩
      | notJson => exact .inr ⟨_, rfl⟩
      | tooDeep => exact .inr ⟨_, rfl⟩
    · exact .inr ⟨_, rfl⟩

lemma Outcome.verdict_eq_returned {maxAttempts : ℕ} {o : Outcome} {value : Json}
    (h : o.verdict maxAttempts = .returned value) :
    ∃ r, o = .response r ∧ r.isSuccess = true ∧ r.body = .json value := by
  rcases o with exc | r
  · simp [verdict] at h
  · simp only [verdict] at h
    split_ifs at h with hread hs
    cases hbody : r.body with
    | json value' =>
        simp only [hbody] at h
        cases h
        exact ⟨r, rfl, hs, hbody⟩
    | notJson => simp [hbody] at h
    | tooDeep => simp [hbody] at h

lemma Spec.returned {ε : Type} {maxAttempts attempt m : ℕ} {req : Request} {o : ℕ → Outcome}
    {envs : ℕ → ε} {run run' : Run ε} {value : Json}
    (h : Spec maxAttempts req o envs attempt run (.returned value) run' m) :
    ∃ r, o (m - 1) = .response r ∧ r.isSuccess = true ∧ r.body = .json value := by
  rcases h.stopped with ⟨-, hresult⟩ | ⟨-, -, -, hresult⟩
  · exact Outcome.verdict_eq_returned hresult.symm
  · cases hresult

lemma request_network {σ : Type} (server : IdempotentServer σ) (s : σ) (fates : ℕ → Fate)
    (maxRetries : ℕ) (q : Request) (replayedCount : ℕ) :
    let call := request (network server fates) maxRetries q ⟨(s, 0), [], [], replayedCount⟩
    Served server q.idempotencyKey s call.2.env.1 ∧
      ∀ value, call.1 = .returned value → ∃ r,
        server.stored call.2.env.1 q.idempotencyKey = some r ∧
        r.isSuccess = true ∧ r.body = .json value := by
  intro call
  obtain ⟨m, hspec⟩ := @request_spec _ (network server fates) maxRetries q ⟨(s, 0), [], [],
    replayedCount⟩
  have henv : call.2.env = envAt (network server fates) q (s, 0) m := hspec.env
  refine ⟨henv ▸ served_envAt fates q m, fun value hvalue => ?_⟩
  have hpos := hspec.pos
  rw [show (request (network server fates) maxRetries q ⟨(s, 0), [], [], replayedCount⟩).1 =
    _ from hvalue] at hspec
  obtain ⟨r, hr, hsuccess, hbody⟩ := hspec.returned
  obtain ⟨r', hstored, hsuccess', hbody'⟩ := stored_of_success hr hsuccess
  have hstep : (network server fates (envAt (network server fates) q (s, 0) (m - 1)) q).1 =
      envAt (network server fates) q (s, 0) m := by
    rw [show m = m - 1 + 1 by omega]
    rfl
  exact ⟨r', by rw [henv, ← hstep]; exact hstored, hsuccess', hbody'.trans hbody⟩

/-- **Idempotent egress.**  Take a script of outcomes whose bodies are JSON or are not, and allow at
most 1024 retries, or let one of the first 1025 outcomes be terminal.  Then `post` sends one request
more than the index of the first terminal outcome, or as many as it may; all have one key and one
body; it sleeps between them; the last outcome decides how it ends, with a value or a `StripeError`;
and it counts the replays it received.  Against every server that executes a key at most once,
behind a network that loses any requests and responses, and with any number of retries, it causes at
most one execution, and returns only what the server stored for it. -/
theorem post_idempotent {P : Type} (encode : P → List UInt8) (apiKey path : String) (params : P)
    (idempotencyKey : Option String) (uuid4 : String) (maxRetries replayedCount : ℕ) :
    (∀ script : ℕ → Outcome, (∀ i, (script i).readable = true) →
      (maxRetries ≤ 1024 ∨ ∃ k ≤ 1024, (script k).terminal = true) →
      let call := post (scripted script) encode apiKey maxRetries path params idempotencyKey uuid4
        ⟨0, [], [], replayedCount⟩
      let requests := call.2.sent.length
      (∀ k, (script k).terminal = true → (∀ i < k, (script i).terminal = false) →
          requests = min (k + 1) (maxRetries + 1)) ∧
        ((∀ k, (script k).terminal = false) → requests = maxRetries + 1) ∧
        (∀ q ∈ call.2.sent, q.idempotencyKey = idempotencyKey.getD uuid4 ∧ q.body = encode params) ∧
        call.2.sleeps.length + 1 = requests ∧
        call.1 = (script (requests - 1)).verdict (maxRetries + 1) ∧
        ((∃ value, call.1 = .returned value) ∨ ∃ e, call.1 = .raised e) ∧
        call.2.replayedCount = replayedCount + replays script requests) ∧
      ∀ (σ : Type) (server : IdempotentServer σ) (s : σ) (fates : ℕ → Fate),
        let call := post (network server fates) encode apiKey maxRetries path params idempotencyKey
          uuid4 ⟨(s, 0), [], [], replayedCount⟩
        let key := idempotencyKey.getD uuid4
        let s' := call.2.env.1
        server.executions s' key ≤ server.executions s key + 1 ∧
          (∀ k, k ≠ key → server.executions s' k = server.executions s k) ∧
          ∀ value, call.1 = .returned value → ∃ r, server.stored s' key = some r ∧
            r.isSuccess = true ∧
            r.body = .json value ∧
            (server.stored s key = none →
              server.executions s' key = server.executions s key + 1) := by
  refine ⟨fun script hread hbackoff => ?_, fun σ server s fates => ?_⟩
  · intro call requests
    obtain ⟨m, hspec⟩ := @request_spec _ (scripted script) maxRetries
      (postRequest encode apiKey path params idempotencyKey uuid4) ⟨0, [], [], replayedCount⟩
    have hscript : outcomeAt (scripted script)
        (postRequest encode apiKey path params idempotencyKey uuid4) 0 =
        script := funext (outcomeAt_scripted script _)
    rw [hscript] at hspec
    have hsent : call.2.sent =
        List.replicate m (postRequest encode apiKey path params idempotencyKey uuid4) := hspec.sent
    have hm : requests = m := by
      show call.2.sent.length = m
      rw [hsent, List.length_replicate]
    rw [hm]
    obtain ⟨hlast, hresult⟩ := hspec.verdict hbackoff
    obtain ⟨hfirst, hnever⟩ := hspec.requests hread hlast
    refine ⟨hfirst, hnever, fun q hq => ?_, hspec.sleeps.trans (Nat.zero_add m), hresult, ?_,
      hspec.replayed⟩
    · rw [hsent] at hq
      rw [List.eq_of_mem_replicate hq]
      exact ⟨rfl, rfl⟩
    · rw [show call.1 = _ from hresult]
      exact Outcome.verdict_of_readable _ (hread _)
  · intro call key s'
    obtain ⟨hserved, hreturned⟩ := request_network server s fates maxRetries
      (postRequest encode apiKey path params idempotencyKey uuid4) replayedCount
    refine ⟨?_, hserved.other, fun value hvalue => ?_⟩
    · rcases hserved.own with ⟨-, hcount⟩ | ⟨-, -, hcount⟩
      · exact hcount.le.trans (Nat.le_succ _)
      · exact hcount.le
    · obtain ⟨r, hstored, hsuccess, hbody⟩ := hreturned value hvalue
      refine ⟨r, hstored, hsuccess, hbody, fun hnone => ?_⟩
      rcases hserved.own with ⟨hsame, -⟩ | ⟨-, -, hcount⟩
      · have habsurd : none = some r := hnone.symm.trans (hsame.symm.trans hstored)
        cases habsurd
      · exact hcount

/-- With the network down for good, a call that may retry 1024 times makes 1025 requests. -/
theorem post_idempotent_down :
    (post (scripted fun _ => .transportError "down") (fun b => b) "sk_test" 1024 "/v1/charges"
      [97, 61, 49] none "key-1" ⟨0, [], [], 0⟩).2.sent.length = 1025 := by
  obtain ⟨-, hnever, -⟩ :=
    (post_idempotent (fun b => b) "sk_test" "/v1/charges" [97, 61, 49] none "key-1" 1024 0).1
      (fun _ => .transportError "down") (fun _ => rfl) (.inl (by omega))
  exact hnever fun _ => rfl

/-- With the network down, a call that may retry more often makes fewer requests than it may: after
1025 of them it raises an `OverflowError`. -/
lemma post_down {maxRetries : ℕ} (h : 1025 ≤ maxRetries) :
    let call := post (scripted fun _ => .transportError "down") (fun b => b) "sk_test" maxRetries
      "/v1/charges" [97, 61, 49] none "key-1" ⟨0, [], [], 0⟩
    call.2.sent.length < maxRetries + 1 ∧ call.1 = .overflowError := by
  intro call
  obtain ⟨m, hspec⟩ := @request_spec _ (scripted fun _ => .transportError "down") maxRetries
    (postRequest (fun b => b) "sk_test" "/v1/charges" [97, 61, 49] none "key-1") ⟨0, [], [], 0⟩
  have hscript : outcomeAt (scripted fun _ => .transportError "down")
      (postRequest (fun b => b) "sk_test" "/v1/charges" [97, 61, 49] none "key-1") 0 =
        fun _ => .transportError "down" := funext (outcomeAt_scripted _ _)
  rw [hscript] at hspec
  have hsent : call.2.sent = List.replicate m
      (postRequest (fun b => b) "sk_test" "/v1/charges" [97, 61, 49] none "key-1") := hspec.sent
  have hearly := hspec.early (by omega)
  obtain ⟨hlast, -⟩ | ⟨hmany, -, -, hresult⟩ := hspec.stopped
  · -- a transport error stops no call, and the last attempt is out of reach
    rcases hlast with hall | hstops
    · omega
    · cases hstops
  · exact ⟨by rw [hsent, List.length_replicate]; omega, hresult⟩

theorem post_overflows :
    let call := post (scripted fun _ => .transportError "down") (fun b =>
      b) "sk_test" 1025 "/v1/charges"
      [97, 61, 49] none "key-1" ⟨0, [], [], 0⟩
    call.2.sent.length < 1026 ∧ call.1 = .overflowError :=
  post_down le_rfl

/-! ### The test suite's miniature Stripe -/

/-- A response with a JSON body. -/
def jsonResponse (status : ℤ) (json : Json) (idempotentReplayed : Option String) : Response :=
  { status, shouldRetry := none, idempotentReplayed, requestId := none, body := .json json }

/-- `MiniStripe.handler` of the egress tests: the first body of a key is executed and its response
is stored, the same body again is a replay, another body an error. -/
def miniHandle (seen : Dict String (List UInt8 × Json)) (q : Request) :
    Dict String (List UInt8 × Json) × Response :=
  match seen.get? q.idempotencyKey with
  | some (firstBody, cached) =>
      if q.body ≠ firstBody then
        (seen, jsonResponse 400 (.obj [("error", .obj [("type", .str "idempotency_error")])]) none)
      else (seen, jsonResponse 200 cached (some "true"))
  | none =>
      let cached :=
        .obj [("id", .str ("ch_" ++ String.ofList (natDecimal (seen.items.length + 1))))]
      (seen.set q.idempotencyKey (q.body, cached), jsonResponse 200 cached none)

/-- It is an idempotent server. -/
def miniStripe : IdempotentServer (Dict String (List UInt8 × Json)) where
  handle := miniHandle
  stored seen key := (seen.get? key).map fun entry => jsonResponse 200 entry.2 none
  executions seen key := if (seen.get? key).isSome then 1 else 0
  handle_other seen q k hk := by
    unfold miniHandle
    rcases seen.get? q.idempotencyKey with _ | ⟨firstBody, cached⟩
    · simp [Ne.symm hk]
    · by_cases hbody : q.body = firstBody <;> simp [hbody]
  handle_own seen q := by
    unfold miniHandle
    cases hseen : seen.get? q.idempotencyKey with
    | none => exact .inl ⟨rfl, by simp, by simp⟩
    | some entry =>
        obtain ⟨firstBody, cached⟩ := entry
        by_cases hbody : q.body = firstBody
        · exact .inr (.inl ⟨_,
            rfl, by simp [hbody, hseen], by simp [hbody, hseen], by simp [hbody]; rfl,
            by simp [hbody]; rfl⟩)
        · exact .inr (.inr ⟨by simp [hbody, hseen], by simp [hbody, hseen], by simp [hbody]; rfl⟩)

-- the response to the first request is lost, and the replay of it is returned
example :
    ((post (network miniStripe fun i => if i = 0 then .responseLost else .delivered) (fun b =>
      b) "sk_test" 4 "/v1/charges" [97, 61, 49] none "key-1" ⟨(.empty, 0), [], [],
        0⟩).2.replayedCount,
      (post (network miniStripe fun i => if i = 0 then .responseLost else .delivered) (fun b =>
      b) "sk_test" 4 "/v1/charges" [97, 61, 49] none "key-1" ⟨(.empty, 0), [], [],
        0⟩).2.sent.length) = (1, 2) := by decide

end LedgerProof.Egress
