import LedgerProof.Ingest.FailClosed
import LedgerProof.Limits.Hysteresis
import LedgerProof.Limits.RetryAfter

/-!
# Backpressure in front of the endpoint

The middleware of `create_app` in `ingest/app.py`: shed first, then limit, and hand on what is left.
The shedder is the one of `Limits/Shed.lean`; the limiter is whatever answers a key with a decision;
what the middleware hands on goes to `callNext`, which for the webhook is `Backend.webhook`.

A request that is refused is answered by the middleware alone.  So whatever is shed or limited, and
however the rest of the requests come in between, the application behind does what it would have
done on the requests it was handed (`backpressure_filters`).  That a request is shed for a reason,
which can be found in the pressure samples, is shown in `Ingest/ShedLast.lean`.
-/

namespace LedgerProof.Ingress

open Limits (Tier LoadShedder)

/-- What the middleware and the handlers read of a request. -/
structure Request where
  /-- The `X-LedgerProof-Synthetic` header. -/
  synthetic : Option String
  method : String
  path : String
  /-- `request.client.host`. -/
  client : Option String
  /-- The `Stripe-Signature` header, or nothing. -/
  sigHeader : String
  raw : List UInt8

/-- `classify`. -/
def classify (r : Request) : Tier :=
  if r.synthetic.getD "" ≠ "" then .testMode
  else if r.method = "GET" then .get
  else if r.path = "/webhook" then .critical
  else .post

/-- A request, and what `pressure()` returns when it comes in, if the application has a signal. -/
structure Arrival (π : Type) where
  request : Request
  pressure : Option π

/-- A response with its headers. -/
structure Answer extends Reply where
  headers : Dict String String

/-- What the application is made of: `limiter.check`, if there is a limiter, and what lies behind
the middleware. -/
structure App (κ σ : Type) where
  check : Option (String → κ → Gcra.Decision × κ)
  callNext : Request → σ → Except Escaped Reply × σ

/-- The state of the application and its metrics. -/
structure State (π κ σ : Type) where
  shedder : Option (LoadShedder π)
  limiter : κ
  backend : σ
  /-- `SHED`, by tier and whether it was enforced. -/
  shed : Tier × Bool → ℕ
  /-- `RATE_LIMITED`, by reason. -/
  rateLimited : String → ℕ
  /-- `EVENTS`, by outcome. -/
  events : String → ℕ

/-- One more. -/
def increment {α : Type} [DecidableEq α] (counter : α → ℕ) (label : α) : α → ℕ :=
  Function.update counter label (counter label + 1)

/-- `_OUTCOMES.get(status, str(status))`. -/
def outcomeName (status : ℕ) : String :=
  if status = 200 then "accepted"
  else if status = 400 then "rejected"
  else if status = 429 then "rate_limited"
  else if status = 503 then "shed"
  else if status = 500 then "error"
  else toString status

/-- What a shed request is told. -/
def sheddingLoad (tier : Tier) : Answer where
  status := 503
  body := String.ofList (Json.obj [("error", .str "shedding load"), ("tier", .str tier.name)]).dumps
  headers := Dict.empty.set "Retry-After" "5"

/-- What a limited request is told. -/
def limited (verdict : Gcra.Decision) : Answer where
  status := 429
  body := String.ofList
    (Json.obj [("error", .str "rate limited"), ("reason", .str verdict.reason)]).dumps
  headers := verdict.headers

/-- What the middleware does with a request. -/
inductive Verdict
  | shed (tier : Tier)
  | limited (verdict : Gcra.Decision)
  /-- An exception leaves it. -/
  | raised (e : Escaped)
  | passed
  deriving DecidableEq

/-- The middleware handed the request on. -/
def Verdict.isPassed : Verdict → Bool
  | .passed => true
  | _ => false

/-- The middleware shed the request, as one of this tier. -/
def Verdict.isShed (tier : Tier) : Verdict → Bool
  | .shed t => t = tier
  | _ => false

/-- A response, and how it came about. -/
structure Served where
  verdict : Verdict
  answer : Except Escaped Answer

section Serve

variable {π κ σ : Type} [LE π] [DecidableLE π]

namespace State

/-- `shedder.observe(pressure())`, if there is a signal. -/
def observed (sh : LoadShedder π) : Option π → Except PyError ℤ × LoadShedder π
  | none => (.ok sh.level, sh)
  | some pressure => sh.observe pressure

/-- The first half of the middleware. -/
def shedFirst (s : State π κ σ) (a : Arrival π) : Verdict × State π κ σ :=
  match s.shedder with
  | none => (.passed, s)
  | some sh =>
      match observed sh a.pressure with
      | (.error e, sh) => (.raised (.builtin e), { s with shedder := some sh })
      | (.ok _, sh) =>
          let tier := classify a.request
          let decision := (sh.shouldShed tier).1
          let counted := decision.shed || (!decision.enforced && decision.reason = "shed_by_tier")
          (if decision.shed then .shed tier else .passed, { s with
            shedder := some (sh.shouldShed tier).2
            shed := if counted then increment s.shed (tier, decision.enforced) else s.shed })

/-- The limiter's key of a request. -/
def limiterKey (r : Request) : String := (classify r).name ++ ":" ++ r.client.getD "-"

/-- The second half. -/
def limitNext (app : App κ σ) (s : State π κ σ) (a : Arrival π) : Verdict × State π κ σ :=
  match app.check with
  | none => (.passed, s)
  | some check =>
      let verdict := (check (limiterKey a.request) s.limiter).1
      (if verdict.allowed then .passed else .limited verdict, { s with
        limiter := (check (limiterKey a.request) s.limiter).2
        rateLimited := if verdict.reason ≠ "" then increment s.rateLimited verdict.reason
          else s.rateLimited })

/-- The middleware up to `call_next`. -/
def judge (app : App κ σ) (s : State π κ σ) (a : Arrival π) : Verdict × State π κ σ :=
  match s.shedFirst a with
  | (.passed, s) => s.limitNext app a
  | refused => refused

/-- `call_next` and what is counted of its response. -/
def handOn (app : App κ σ) (s : State π κ σ) (r : Request) : Except Escaped Reply × State π κ σ :=
  match app.callNext r s.backend with
  | (.ok reply, backend) =>
      (.ok reply, { s with
        backend := backend
        events := if r.path = "/webhook" then increment s.events (outcomeName reply.status)
          else s.events })
  | (.error e, backend) => (.error e, { s with backend := backend })

/-- `backpressure`. -/
def backpressure (app : App κ σ) (s : State π κ σ) (a : Arrival π) : Served × State π κ σ :=
  match s.judge app a with
  | (.shed tier, s) => (⟨.shed tier, .ok (sheddingLoad tier)⟩, s)
  | (.limited verdict, s) => (⟨.limited verdict, .ok (limited verdict)⟩, s)
  | (.raised e, s) => (⟨.raised e, .error e⟩, s)
  | (.passed, s) =>
      (⟨.passed, (s.handOn app a.request).1.map fun reply => ⟨reply, .empty⟩⟩,
        (s.handOn app a.request).2)

/-- Requests one after the other. -/
def run (app : App κ σ) (s : State π κ σ) : List (Arrival π) → List Served × State π κ σ
  | [] => ([], s)
  | a :: as =>
      ((s.backpressure app a).1 :: (run app (s.backpressure app a).2 as).1,
        (run app (s.backpressure app a).2 as).2)

end State

/-- The application behind the middleware: the webhook, `healthz`, and what the framework answers
elsewhere, `/metrics` among it. -/
def routes {σ : Type} (b : Backend σ) (hmacHex : List UInt8 → List UInt8 → String)
    (jsonLoads : List UInt8 → Except LoadsFailure PyValue) (webhookSecret : String) (now : ℤ)
    (elsewhere : Request → Reply) (r : Request) (s : σ) : Except Escaped Reply × σ :=
  if r.path = "/webhook" ∧ r.method = "POST" then
    b.webhook hmacHex jsonLoads webhookSecret now r.raw r.sigHeader s
  else if r.path = "/healthz" ∧ r.method = "GET" then (.ok (jsonResponse "status" "ok" 200), s)
  else (.ok (elsewhere r), s)

/-! ## What is handed on -/

/-- The application without backpressure. -/
def App.bare (app : App κ σ) : App κ σ := { app with check := none }

namespace State

/-- The state without backpressure. -/
def bare (s : State π κ σ) : State π κ σ := { s with shedder := none }

/-- The requests that were handed on, with their responses. -/
def handedOn (arrivals : List (Arrival π)) (served : List Served) : List (Arrival π × Served) :=
  (arrivals.zip served).filter (·.2.verdict.isPassed)

/-- Two states in front of one application. -/
structure Alike (s t : State π κ σ) : Prop where
  backend : t.backend = s.backend
  events : t.events = s.events
  bare : t.shedder = none

variable {app : App κ σ} {s t : State π κ σ} {a : Arrival π}

/-- The shedder when it is asked. -/
def sampled (sh : LoadShedder π) (a : Arrival π) : LoadShedder π := (observed sh a.pressure).2

/-- **What the first half can do.** -/
lemma shedFirst_cases (s : State π κ σ) (a : Arrival π) :
    (s.shedder = none ∧ s.shedFirst a = (.passed, s)) ∨
    (∃ sh e, s.shedder = some sh ∧ (observed sh a.pressure).1 = .error e ∧
      s.shedFirst a = (.raised (.builtin e), { s with shedder := some (sampled sh a) })) ∨
    ∃ sh, s.shedder = some sh ∧
      (((sampled sh a).shouldShed (classify a.request)).1.shed = true ∧
        s.shedFirst a = (.shed (classify a.request), { s with
          shedder := some ((sampled sh a).shouldShed (classify a.request)).2
          shed := increment s.shed (classify a.request, true) }) ∨
      ((sampled sh a).shouldShed (classify a.request)).1.shed = false ∧
        ∃ shed : Tier × Bool → ℕ, (∀ tier, shed (tier, true) = s.shed (tier, true)) ∧
          s.shedFirst a = (.passed, { s with
            shedder := some ((sampled sh a).shouldShed (classify a.request)).2
            shed := shed })) := by
  unfold shedFirst
  cases hshedder : s.shedder with
  | none => exact .inl ⟨rfl, rfl⟩
  | some sh =>
      refine .inr ?_
      rcases hobserved : observed sh a.pressure with ⟨e | level, sh'⟩
      · refine .inl ⟨sh, e, rfl, by rw [hobserved], ?_⟩
        simp only [sampled, hobserved]
      · refine .inr ⟨sh, rfl, ?_⟩
        have hsampled : sampled sh a = sh' := by rw [sampled, hobserved]
        simp only [hsampled]
        cases hshed : (sh'.shouldShed (classify a.request)).1.shed with
        | true =>
            have henforced : (sh'.shouldShed (classify a.request)).1.enforced = true := by
              rw [LoadShedder.shouldShed_fst] at hshed ⊢
              exact (Bool.and_eq_true_iff.mp hshed).1
            refine .inl ⟨rfl, ?_⟩
            simp only [hobserved, hshed, henforced, Bool.true_or, if_true]
        | false =>
            simp only [hobserved, hshed, Bool.false_eq_true, if_false]
            refine .inr ⟨trivial, _, fun tier => ?_, rfl⟩
            -- what is counted without being shed is not enforced
            split_ifs with hcounted
            · rw [Bool.false_or, Bool.and_eq_true, Bool.not_eq_true'] at hcounted
              rw [increment, hcounted.1, Function.update_of_ne (by simp)]
            · rfl

omit [LE π] [DecidableLE π] in
/-- **What the second half can do.** -/
lemma limitNext_cases (app : App κ σ) (s : State π κ σ) (a : Arrival π) :
    (∃ limiter rateLimited,
      (s.limitNext app a).2 = { s with limiter := limiter, rateLimited := rateLimited }) ∧
      ((s.limitNext app a).1 = .passed ∨
        ∃ verdict : Gcra.Decision, verdict.allowed = false ∧
          (s.limitNext app a).1 = .limited verdict ∧ app.check.isSome) := by
  unfold limitNext
  cases hcheck : app.check with
  | none => exact ⟨⟨s.limiter, s.rateLimited, rfl⟩, .inl rfl⟩
  | some check =>
      refine ⟨⟨_, _, rfl⟩, ?_⟩
      dsimp only
      split_ifs with hallowed
      · exact .inl rfl
      · exact .inr ⟨_, Bool.not_eq_true _ ▸ hallowed, rfl, rfl⟩

/-- **What the middleware can do.** -/
lemma judge_cases (app : App κ σ) (s : State π κ σ) (a : Arrival π) :
    ((s.judge app a).2.backend = s.backend ∧ (s.judge app a).2.events = s.events) ∧
    ((s.judge app a).1 = .passed ∨
      (∃ verdict : Gcra.Decision, verdict.allowed = false ∧
        (s.judge app a).1 = .limited verdict ∧ app.check.isSome) ∨
      (∃ e, (s.judge app a).1 = .raised (.builtin e)) ∨ ∃ tier,
        (s.judge app a).1 = .shed tier) := by
  have hlimit : ∀ s : State π κ σ, _ := fun s => limitNext_cases app s a
  unfold judge
  obtain ⟨-, h⟩ | ⟨sh, e, -, -, h⟩ | ⟨sh, -, ⟨-, h⟩ | ⟨-, shed, -, h⟩⟩ := s.shedFirst_cases a
  · obtain ⟨⟨limiter, rateLimited, hstate⟩, hverdict⟩ := hlimit s
    rw [h]
    dsimp only
    rw [hstate]
    exact ⟨⟨rfl, rfl⟩, hverdict.imp id .inl⟩
  · rw [h]
    exact ⟨⟨rfl, rfl⟩, .inr (.inr (.inl ⟨e, rfl⟩))⟩
  · rw [h]
    exact ⟨⟨rfl, rfl⟩, .inr (.inr (.inr ⟨_, rfl⟩))⟩
  · rw [h]
    dsimp only
    obtain ⟨⟨limiter, rateLimited, hstate⟩, hverdict⟩ := hlimit { s with
      shedder := some ((sampled sh a).shouldShed (classify a.request)).2
      shed := shed }
    rw [hstate]
    exact ⟨⟨rfl, rfl⟩, hverdict.imp id .inl⟩

lemma judge_bare (app : App κ σ) (a : Arrival π) (ht : t.shedder = none) :
    t.judge app.bare a = (.passed, t) := by
  simp only [judge, shedFirst, ht, limitNext, App.bare]

lemma backpressure_of_passed (h : (s.judge app a).1 = .passed) :
    s.backpressure app a =
      (⟨.passed, ((s.judge app a).2.handOn app a.request).1.map fun reply => ⟨reply, .empty⟩⟩,
        ((s.judge app a).2.handOn app a.request).2) := by
  have hjudge : s.judge app a = (.passed, (s.judge app a).2) := Prod.ext h rfl
  unfold backpressure
  rw [hjudge]

lemma backpressure_of_limited {verdict : Gcra.Decision} (h : (s.judge app a).1 = .limited verdict) :
    s.backpressure app a = (⟨.limited verdict, .ok (limited verdict)⟩, (s.judge app a).2) := by
  have hjudge : s.judge app a = (.limited verdict, (s.judge app a).2) := Prod.ext h rfl
  unfold backpressure
  rw [hjudge]

lemma backpressure_of_raised {e : Escaped} (h : (s.judge app a).1 = .raised e) :
    s.backpressure app a = (⟨.raised e, .error e⟩, (s.judge app a).2) := by
  have hjudge : s.judge app a = (.raised e, (s.judge app a).2) := Prod.ext h rfl
  unfold backpressure
  rw [hjudge]

lemma backpressure_of_shed {tier : Tier} (h : (s.judge app a).1 = .shed tier) :
    s.backpressure app a = (⟨.shed tier, .ok (sheddingLoad tier)⟩, (s.judge app a).2) := by
  have hjudge : s.judge app a = (.shed tier, (s.judge app a).2) := Prod.ext h rfl
  unfold backpressure
  rw [hjudge]

/-- **What the middleware does with a request**: it hands it on, or it answers it, and says when to
come back unless the shedder raised. -/
lemma backpressure_cases (app : App κ σ) (s : State π κ σ) (a : Arrival π) :
    ((s.backpressure app a).1.verdict = .passed ∧ (s.judge app a).1 = .passed) ∨
    ((s.backpressure app a).1.verdict.isPassed = false ∧
      (s.backpressure app a).2 = (s.judge app a).2 ∧
      ((∃ answer, (s.backpressure app a).1.answer = .ok answer ∧
          (answer.status = 503 ∨ answer.status = 429) ∧
          (answer.headers.get? "Retry-After").isSome) ∨
        ∃ e, (s.backpressure app a).1.answer = .error (.builtin e))) := by
  obtain ⟨-, h | ⟨verdict, hdenied, h, -⟩ | ⟨e, h⟩ | ⟨tier, h⟩⟩ := judge_cases app s a
  · rw [backpressure_of_passed h]
    exact .inl ⟨rfl, h⟩
  · rw [backpressure_of_limited h]
    refine .inr ⟨rfl, rfl, .inl ⟨limited verdict, rfl, .inr rfl, ?_⟩⟩
    rw [limited, Gcra.Decision.headers_retryAfter, hdenied]
    rfl
  · rw [backpressure_of_raised h]
    exact .inr ⟨rfl, rfl, .inr ⟨e, rfl⟩⟩
  · rw [backpressure_of_shed h]
    refine .inr ⟨rfl, rfl, .inl ⟨sheddingLoad tier, rfl, .inl rfl, ?_⟩⟩
    rw [sheddingLoad, Dict.get?_set]
    rfl

/-- **One request** that is refused. -/
lemma Alike.refused (h : Alike s t) (hnext : (s.backpressure app a).2 = (s.judge app a).2) :
    Alike (s.backpressure app a).2 t := by
  obtain ⟨⟨hbackend, hevents⟩, -⟩ := judge_cases app s a
  rw [hnext]
  exact ⟨h.backend.trans hbackend.symm, h.events.trans hevents.symm, h.bare⟩

/-- **One request** that is handed on. -/
lemma Alike.passed (h : Alike s t) (hpassed : (s.judge app a).1 = .passed) :
    (t.backpressure app.bare a).1 = (s.backpressure app a).1 ∧
      Alike (s.backpressure app a).2 (t.backpressure app.bare a).2 := by
  obtain ⟨⟨hbackend, hevents⟩, -⟩ := judge_cases app s a
  have hbare := judge_bare app a h.bare
  rw [backpressure_of_passed hpassed, backpressure_of_passed (congrArg Prod.fst hbare), hbare]
  unfold handOn
  rw [h.backend, h.events, hbackend, hevents]
  have hnext : app.bare.callNext = app.callNext := rfl
  rw [hnext]
  cases app.callNext a.request s.backend with
  | mk reply backend =>
      cases reply with
      | ok reply => exact ⟨rfl, rfl, rfl, h.bare⟩
      | error e => exact ⟨rfl, rfl, rfl, h.bare⟩

lemma handedOn_cons (app : App κ σ) (s : State π κ σ) (a : Arrival π) (as : List (Arrival π)) :
    handedOn (a :: as) (s.run app (a :: as)).1 =
      (if (s.backpressure app a).1.verdict.isPassed then [(a, (s.backpressure app a).1)] else []) ++
        handedOn as ((s.backpressure app a).2.run app as).1 := by
  simp only [handedOn, State.run, List.zip_cons_cons, List.filter_cons]
  split_ifs <;> rfl

/-- **Any requests.** -/
lemma Alike.run (h : Alike s t) (app : App κ σ) (arrivals : List (Arrival π)) :
    (t.run app.bare ((handedOn arrivals (s.run app arrivals).1).map (·.1))).1 =
        (handedOn arrivals (s.run app arrivals).1).map (·.2) ∧
      Alike (s.run app arrivals).2
        (t.run app.bare ((handedOn arrivals (s.run app arrivals).1).map (·.1))).2 := by
  induction arrivals generalizing s t with
  | nil => exact ⟨rfl, h⟩
  | cons a as ih =>
      rw [handedOn_cons]
      obtain ⟨hverdict, hpassed⟩ | ⟨hverdict, hnext, -⟩ := backpressure_cases app s a
      · obtain ⟨hanswer, hnext⟩ := h.passed hpassed
        obtain ⟨hanswers, hlast⟩ := ih hnext
        rw [hverdict]
        refine ⟨?_, hlast⟩
        simp only [Verdict.isPassed, if_true, List.singleton_append, List.map_cons, State.run,
          hanswer, hanswers]
      · rw [hverdict]
        exact ih (h.refused hnext)

/-- Every request that is refused is told so. -/
lemma run_refused (app : App κ σ) (s : State π κ σ) (arrivals : List (Arrival π)) :
    ∀ served ∈ (s.run app arrivals).1, served.verdict.isPassed = false →
      (∃ answer, served.answer = .ok answer ∧ (answer.status = 503 ∨ answer.status = 429) ∧
        (answer.headers.get? "Retry-After").isSome) ∨
      ∃ e, served.answer = .error (.builtin e) := by
  induction arrivals generalizing s with
  | nil => exact fun served h => absurd h (List.not_mem_nil)
  | cons a as ih =>
      intro served hserved hrefused
      rcases List.mem_cons.mp hserved with rfl | hserved
      · obtain ⟨hverdict, -⟩ | ⟨-, -, htold⟩ := backpressure_cases app s a
        · rw [hverdict] at hrefused
          exact absurd hrefused (by simp [Verdict.isPassed])
        · exact htold
      · exact ih _ served hserved hrefused

/-! ## The shedder in front -/

/-- What can become of the shedder. -/
lemma judge_shedder (app : App κ σ) (s : State π κ σ) (a : Arrival π) :
    (s.shedder = none ∧ (s.judge app a).2.shedder = none) ∨
    ∃ sh, s.shedder = some sh ∧ ((s.judge app a).2.shedder = some (sampled sh a) ∨
      (s.judge app a).2.shedder = some ((sampled sh a).shouldShed (classify a.request)).2) := by
  have hlimit : ∀ s : State π κ σ, (s.limitNext app a).2.shedder = s.shedder := by
    intro s
    obtain ⟨⟨limiter, rateLimited, hstate⟩, -⟩ := limitNext_cases app s a
    rw [hstate]
  unfold judge
  obtain ⟨hnone, h⟩ | ⟨sh, e, hsome, -, h⟩ | ⟨sh, hsome, ⟨-, h⟩ | ⟨-, shed, -, h⟩⟩ :=
    s.shedFirst_cases a
  · rw [h]
    exact .inl ⟨hnone, (hlimit s).trans hnone⟩
  · rw [h]
    exact .inr ⟨sh, hsome, .inl rfl⟩
  · rw [h]
    exact .inr ⟨sh, hsome, .inr rfl⟩
  · rw [h]
    exact .inr ⟨sh, hsome, .inr (hlimit _)⟩

/-- What `call_next` leaves alone. -/
lemma backpressure_frame (app : App κ σ) (s : State π κ σ) (a : Arrival π) :
    (s.backpressure app a).1.verdict = (s.judge app a).1 ∧
      (s.backpressure app a).2.shedder = (s.judge app a).2.shedder ∧
      (s.backpressure app a).2.shed = (s.judge app a).2.shed := by
  obtain ⟨-, h | ⟨verdict, -, h, -⟩ | ⟨e, h⟩ | ⟨tier, h⟩⟩ := judge_cases app s a
  · rw [backpressure_of_passed h, h]
    unfold handOn
    split <;> exact ⟨rfl, rfl, rfl⟩
  · rw [backpressure_of_limited h, h]
    exact ⟨rfl, rfl, rfl⟩
  · rw [backpressure_of_raised h, h]
    exact ⟨rfl, rfl, rfl⟩
  · rw [backpressure_of_shed h, h]
    exact ⟨rfl, rfl, rfl⟩

lemma judge_shed (app : App κ σ) (s : State π κ σ) (a : Arrival π) :
    (∀ tier, (s.judge app a).1 = .shed tier → tier = classify a.request ∧
      ∃ sh, s.shedder = some sh ∧ ((sampled sh a).shouldShed tier).1.shed = true) ∧
    ∀ tier, (s.judge app a).2.shed (tier, true) =
      s.shed (tier, true) + if (s.judge app a).1.isShed tier then 1 else 0 := by
  have hlimit : ∀ s : State π κ σ, (s.limitNext app a).2.shed = s.shed ∧
      ∀ tier, (s.limitNext app a).1 ≠ .shed tier ∧ (s.limitNext app a).1.isShed tier = false := by
    intro s
    obtain ⟨⟨limiter, rateLimited, hstate⟩, h | ⟨verdict, -, h, -⟩⟩ := limitNext_cases app s a
    all_goals
      rw [hstate, h]
      exact ⟨rfl, fun tier => ⟨by simp, rfl⟩⟩
  unfold judge
  obtain ⟨-, h⟩ | ⟨sh, e, -, -, h⟩ | ⟨sh, hsome, ⟨hshed, h⟩ | ⟨-, shed, hcount, h⟩⟩ :=
    s.shedFirst_cases a
  · rw [h]
    obtain ⟨hframe, hverdict⟩ := hlimit s
    refine ⟨fun tier hshed => absurd hshed (hverdict tier).1, fun tier => ?_⟩
    dsimp only
    rw [hframe, (hverdict tier).2]
    rfl
  · rw [h]
    exact ⟨by simp, fun tier => rfl⟩
  · rw [h]
    refine ⟨?_, fun tier => ?_⟩
    · rintro tier ⟨⟩
      exact ⟨rfl, sh, hsome, hshed⟩
    · dsimp only [increment, Verdict.isShed]
      rw [Function.update_apply]
      by_cases htier : classify a.request = tier
      · simp [htier]
      · simp [htier, Ne.symm htier]
  · rw [h]
    obtain ⟨hframe, hverdict⟩ := hlimit { s with
      shedder := some ((sampled sh a).shouldShed (classify a.request)).2
      shed := shed }
    refine ⟨fun tier hshed => absurd hshed (hverdict tier).1, fun tier => ?_⟩
    dsimp only
    rw [hframe, (hverdict tier).2]
    exact hcount tier

lemma run_shed (app : App κ σ) (s : State π κ σ) (arrivals : List (Arrival π)) (tier : Tier) :
    (s.run app arrivals).2.shed (tier, true) =
      s.shed (tier, true) + (s.run app arrivals).1.countP (·.verdict.isShed tier) := by
  induction arrivals generalizing s with
  | nil => rfl
  | cons a as ih =>
      have hone : (s.backpressure app a).2.shed (tier, true) =
          s.shed (tier, true) + if (s.backpressure app a).1.verdict.isShed tier then 1 else 0 := by
        obtain ⟨hverdict, -, hshed⟩ := backpressure_frame app s a
        rw [hverdict, hshed, (judge_shed app s a).2 tier]
      rw [State.run, ih, hone, List.countP_cons]
      omega

/-! ### A dark launch -/

/-- A shedder that drops nothing and has a threshold for every tier. -/
structure Dark (sh : LoadShedder π) : Prop where
  launch : sh.enforce = false
  complete : sh.Complete

omit [LE π] [DecidableLE π] in
lemma Dark.shouldShed {sh : LoadShedder π} (h : Dark sh) (tier : Tier) :
    (sh.shouldShed tier).1.shed = false ∧ Dark (sh.shouldShed tier).2 := by
  rw [LoadShedder.shouldShed_fst, LoadShedder.shouldShed_snd, LoadShedder.foldl_bump_eq]
  exact ⟨by simp [h.launch], h.launch, h.complete⟩

lemma observe_settings (sh : LoadShedder π) (pressure : π) :
    (sh.observe pressure).2.thresholds = sh.thresholds ∧
      (sh.observe pressure).2.escalateAfter = sh.escalateAfter := by
  by_cases hdemand : sh.enabled = true ∧ sh.Complete
  · obtain ⟨t, ht, -⟩ := LoadShedder.targetLevel_of_complete hdemand.2 pressure
    obtain ⟨hthresholds, hescalate, -⟩ :=
      LoadShedder.follow_frame ({ sh with pressure := pressure } : LoadShedder π) t
    rw [LoadShedder.observe_of_target hdemand.1 ht]
    exact ⟨hthresholds, hescalate⟩
  · rw [LoadShedder.observe_of_idle pressure hdemand]
    exact ⟨rfl, rfl⟩

lemma Dark.sampled {sh : LoadShedder π} (h : Dark sh) (a : Arrival π) :
    (∃ level, (observed sh a.pressure).1 = .ok level) ∧ Dark (State.sampled sh a) := by
  unfold State.sampled
  cases a.pressure with
  | none => exact ⟨⟨_, rfl⟩, h⟩
  | some pressure =>
      refine ⟨?_, (sh.observe_frame pressure).1.trans h.launch, fun tier => ?_⟩
      · obtain ⟨t, ht, -⟩ := LoadShedder.targetLevel_of_complete h.complete pressure
        have htarget :
            LoadShedder.targetLevel { sh with pressure := pressure } pressure = .ok t := ht
        simp only [observed, LoadShedder.observe]
        split_ifs
        · exact ⟨_, rfl⟩
        · rw [htarget]
          exact ⟨_, rfl⟩
      · change ((sh.observe pressure).2.thresholds.get? tier).isSome
        rw [(observe_settings sh pressure).1]
        exact h.complete tier

/-- Behind a dark shedder and without a limiter, a request is handed on. -/
lemma Dark.judge (hcheck : app.check = none) (hdark : ∀ sh, s.shedder = some sh → Dark sh)
    (a : Arrival π) : (s.judge app a).1 = .passed ∧
      ∀ sh, (s.judge app a).2.shedder = some sh → Dark sh := by
  refine ⟨?_, fun sh hsh => ?_⟩
  · unfold State.judge
    have hlimit : ∀ s : State π κ σ, (s.limitNext app a).1 = .passed := by
      intro s
      simp only [limitNext, hcheck]
    obtain ⟨-, h⟩ | ⟨sh, e, hsome, hraised, -⟩ | ⟨sh, hsome, ⟨hshed, -⟩ | ⟨-, shed, -, h⟩⟩ :=
      s.shedFirst_cases a
    · rw [h]
      exact hlimit s
    · obtain ⟨level, hlevel⟩ := ((hdark sh hsome).sampled a).1
      rw [hlevel] at hraised
      exact absurd hraised (by simp)
    · rw [(((hdark sh hsome).sampled a).2.shouldShed _).1] at hshed
      exact absurd hshed (by simp)
    · rw [h]
      exact hlimit _
  · obtain ⟨-, hnone⟩ | ⟨old, hsome, h | h⟩ := judge_shedder app s a
    · rw [hnone] at hsh
      exact absurd hsh (by simp)
    · rw [h] at hsh
      exact Option.some_inj.mp hsh ▸ ((hdark old hsome).sampled a).2
    · rw [h] at hsh
      exact Option.some_inj.mp hsh ▸ (((hdark old hsome).sampled a).2.shouldShed _).2

/-- **A dark launch and no limiter hand everything on.** -/
lemma run_dark (hcheck : app.check = none) (hdark : ∀ sh, s.shedder = some sh → Dark sh)
    (arrivals : List (Arrival π)) :
    (handedOn arrivals (s.run app arrivals).1).map (·.1) = arrivals := by
  induction arrivals generalizing s with
  | nil => rfl
  | cons a as ih =>
      obtain ⟨hpassed, hnext⟩ := Dark.judge hcheck hdark a
      obtain ⟨hverdict, hshedder, -⟩ := backpressure_frame app s a
      have hrest := ih (s := (s.backpressure app a).2) (by rw [hshedder]; exact hnext)
      have hhanded : (s.backpressure app a).1.verdict.isPassed = true := by
        rw [hverdict, hpassed]
        rfl
      rw [handedOn_cons, if_pos hhanded, List.singleton_append, List.map_cons, hrest]

end State

end Serve

/-- **Backpressure only filters.**  Whatever the shedder, the limiter and the requests: what the
requests do to the application, and the responses it gives, are those of the application without
backpressure on the requests that were handed on.  Every other request is answered 503 or 429 with a
time to come back, unless the shedder raised; and `SHED` counts the ones that were shed.  A dark
launch without a limiter, whose shedder has all its thresholds, hands everything on. -/
theorem backpressure_filters {π κ σ : Type} [LE π] [DecidableLE π] (app : App κ σ) (s : State π κ σ)
    (arrivals : List (Arrival π)) :
    let served := (s.run app arrivals).1
    let handed := State.handedOn arrivals served
    (s.bare.run app.bare (handed.map (·.1))).1 = handed.map (·.2) ∧
    (s.bare.run app.bare (handed.map (·.1))).2.backend = (s.run app arrivals).2.backend ∧
    (s.bare.run app.bare (handed.map (·.1))).2.events = (s.run app arrivals).2.events ∧
    (∀ x ∈ served, x.verdict.isPassed = false →
      (∃ answer, x.answer = .ok answer ∧ (answer.status = 503 ∨ answer.status = 429) ∧
        (answer.headers.get? "Retry-After").isSome) ∨ ∃ e, x.answer = .error (.builtin e)) ∧
    (∀ tier, (s.run app arrivals).2.shed (tier, true) =
      s.shed (tier, true) + served.countP (·.verdict.isShed tier)) ∧
    (app.check = none → (∀ sh, s.shedder = some sh → sh.enforce = false ∧ sh.Complete) →
      handed.map (·.1) = arrivals) := by
  intro served handed
  have halike : State.Alike s s.bare := ⟨rfl, rfl, rfl⟩
  obtain ⟨hanswers, hlast⟩ := halike.run app arrivals
  refine ⟨hanswers, hlast.backend, hlast.events, State.run_refused app s arrivals,
    State.run_shed app s arrivals, fun hcheck hdark => ?_⟩
  refine State.run_dark hcheck (fun sh hsh => ?_) arrivals
  obtain ⟨hlaunch, hcomplete⟩ := hdark sh hsh
  exact ⟨hlaunch, hcomplete⟩

/-- The endpoint over its table, without a limiter. -/
def darkApp : App Unit (List StoredRow × List PyValue) where
  check := none
  callNext := routes tableBackend nullDataHmacHex bodyLoads sampleSecret 1754300100
    fun _ => jsonResponse "detail" "Not Found" 404

/-- A shedder in a dark launch that is at its highest level. -/
def darkState : State ℚ Unit (List StoredRow × List PyValue) where
  shedder := some { LoadShedder.fresh Limits.defaultThresholds false 2 5 with level := 4 }
  limiter := ()
  backend := ([], [])
  shed _ := 0
  rateLimited _ := 0
  events _ := 0

/-- A health check under full pressure, then a delivery with a bad signature. -/
def underPressure : List (Arrival ℚ) :=
  [⟨⟨none, "GET", "/healthz", none, "", []⟩, some 1⟩,
    ⟨⟨none, "POST", "/webhook", some "10.0.0.1", "t=1,v1=00", []⟩, some 1⟩]

/-- Nothing is refused in the dark. -/
theorem backpressure_filters_dark :
    (State.handedOn underPressure (darkState.run darkApp underPressure).1).map (·.1) =
      underPressure := by
  refine (backpressure_filters darkApp darkState underPressure).2.2.2.2.2 rfl fun sh hsh => ?_
  obtain rfl := Option.some_inj.mp hsh
  exact ⟨rfl, fun tier => by cases tier <;> decide⟩

end LedgerProof.Ingress
