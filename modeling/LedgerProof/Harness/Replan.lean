import LedgerProof.Harness.Silence

/-!
# Planning again

A scenario keeps the parameters that its plan ran with, the defaults, the caller's and what the plan
found out while it was made (`derive`), and the runner plans from these.  `plan_again` says that it
makes the same plan of them but for the signatures: the expectation, which is the label of the
scenario, and the parameters depend on neither the secret nor the clock.
-/

namespace LedgerProof.Harness

/-- What `plan` writes into the parameters. -/
def derive (fault : Fault) (fixtures : List EventFixture) (effective : Params) : Params :=
  match fault, fixtures with
  | .duplicateObject, target :: _ => { effective with twinEventId := some (twin target).eventId }
  | .drop, fixtures => { effective with droppedEventIds := some (fixtures.map (·.eventId)) }
  | .tamperBody, target :: _ =>
      match flipOneByte (serialize target.event) with
      | .ok (_, index) => { effective with byteIndex := some index }
      | .error _ => effective
  | .truncateBody, target :: _ =>
      { effective with keptBytes := some ((serialize target.event).length / 2) }
  | _, _ => effective

/-- A body that can be flipped, and one that cannot. -/
lemma derive_tamperBody (target : EventFixture) (rest : List EventFixture) (effective : Params) :
    (∀ flipped, flipOneByte (serialize target.event) = .ok flipped →
      derive .tamperBody (target :: rest) effective =
        { effective with byteIndex := some flipped.2 }) ∧
    ∀ err, flipOneByte (serialize target.event) = .error err →
      derive .tamperBody (target :: rest) effective = effective := by
  -- The cases are told apart with the body as a variable, or the check would search in it.
  unfold derive
  split
  · contradiction
  · contradiction
  · next heq =>
      obtain ⟨rfl, -⟩ := List.cons.inj heq
      generalize flipOneByte (serialize target.event) = found
      constructor
      · rintro flipped rfl
        rfl
      · rintro err rfl
        rfl
  · contradiction
  · next hnot _ => exact (hnot _ _ rfl rfl).elim

section

variable {hmacHex hmacHex' : List UInt8 → List UInt8 → String} {fault : Fault}
  {fixtures : List EventFixture}
  {secret secret' : String} {params effective : Params} {now now' : ℤ} {fp : FaultPlan}

/-- **The parameters of a plan.** -/
lemma plan_params (h : plan hmacHex fault fixtures secret params now = .ok fp) :
    fp.params = derive fault fixtures ((defaultParams fault).merge params) := by
  unfold plan at h
  cases fixtures with
  | nil => cases h
  | cons target rest =>
  cases fault with
  | none | duplicateObject | drop | respond500 | truncateBody | downgradeScheme =>
      cases h
      rfl
  | duplicate | concurrentDuplicate | staleTimestamp =>
      obtain ⟨n, -, h⟩ := except_bind_eq_ok.mp h
      obtain ⟨-, h⟩ := except_guard_eq_ok.mp h
      cases h
      rfl
  | reorder =>
      obtain ⟨-, h⟩ := except_guard_eq_ok.mp h
      obtain ⟨order, -, h⟩ := except_bind_eq_ok.mp h
      obtain ⟨-, h⟩ := except_guard_eq_ok.mp h
      cases h
      rfl
  | delay =>
      obtain ⟨seconds, -, h⟩ := except_bind_eq_ok.mp h
      obtain ⟨past, -, h⟩ := except_bind_eq_ok.mp h
      cases h
      rfl
  | tamperBody =>
      obtain ⟨⟨tampered, index⟩, hflip, h⟩ := except_bind_eq_ok.mp h
      rw [(derive_tamperBody target rest _).1 _ hflip]
      cases h
      rfl
  | partialWrite | slowLoris =>
      obtain ⟨value, -, h⟩ := except_bind_eq_ok.mp h
      cases h
      rfl

/-- What of a plan is a label: its parameters and its expectation. -/
def FaultPlan.label (fp : FaultPlan) : Params × Expectation := (fp.params, fp.expectation)

lemma label_of (fp : FaultPlan) : fp.label = (fp.params, fp.expectation) := rfl

lemma params_acceptedPlan {deliveries : List Delivery} {posted : Finset String}
    {delta : Dict String ℤ} {notes : Notes} :
    (acceptedPlan fault params deliveries posted delta notes).params = params := rfl

lemma expectation_acceptedPlan {deliveries : List Delivery} {posted : Finset String}
    {delta : Dict String ℤ} {notes : Notes} :
    (acceptedPlan fault params deliveries posted delta notes).expectation =
    ⟨posted, ∅, delta, true, false, notes⟩ :=
  rfl

lemma params_rejectedPlan {fx : EventFixture} {body : List UInt8} {sigHeader : String}
    {notes : Notes} :
    (rejectedPlan fault fx params body sigHeader notes).params = params := rfl

lemma expectation_rejectedPlan {fx : EventFixture} {body : List UInt8} {sigHeader : String}
    {notes : Notes} :
    (rejectedPlan fault fx params body sigHeader notes).expectation =
      ⟨∅, {fx.eventId}, .empty, true, false, notes⟩ := rfl

variable (hmacHex hmacHex' secret secret' now now') in
/-- **Labels depend on neither the secret nor the clock.** -/
lemma label_plan_congr :
    (plan hmacHex fault fixtures secret params now).map FaultPlan.label =
      (plan hmacHex' fault fixtures secret' params now').map FaultPlan.label := by
  unfold plan
  cases fixtures with
  | nil => rfl
  | cons target rest =>
  -- What is signed is gone once the label is taken of each plan: the two sides are then the same
  -- term.
  cases fault <;>
    simp only [except_map_bind, apply_ite (Except.map _), except_map_pure, label_of,
      params_acceptedPlan, expectation_acceptedPlan, params_rejectedPlan, expectation_rejectedPlan]

lemma merge_derive (fault : Fault) (fixtures : List EventFixture) (params : Params) :
    (defaultParams fault).merge (derive fault fixtures ((defaultParams fault).merge params)) =
      derive fault fixtures ((defaultParams fault).merge params) := by
  have hmerge : ∀ d p : Params, d.merge (d.merge p) = d.merge p := fun d p => by
    simp [Params.merge, Option.or_assoc]
  unfold derive
  split
  · simp [Params.merge, defaultParams, Params.empty]
  · simp [Params.merge, defaultParams, Params.empty]
  · split
    · simp [Params.merge, defaultParams, Params.empty]
    · exact hmerge _ _
  · simp [Params.merge, defaultParams, Params.empty]
  · exact hmerge _ _

lemma label_plan_derive {params' : Params}
    (h : (defaultParams fault).merge params' =
      derive fault fixtures ((defaultParams fault).merge params)) :
    (plan hmacHex fault fixtures secret params' now).map FaultPlan.label =
      (plan hmacHex fault fixtures secret params now).map FaultPlan.label := by
  unfold plan
  cases fixtures with
  | nil => rfl
  | cons target rest =>
  rw [h]
  cases fault with
  | duplicateObject | drop | truncateBody => rfl
  | tamperBody =>
      cases hflip : flipOneByte (serialize target.event) with
      | error err =>
          rw [(derive_tamperBody target rest _).2 _ hflip]
      | ok flipped =>
          rw [(derive_tamperBody target rest _).1 _ hflip]
  | _ => rfl

lemma exists_of_label {planned : Except PlanError FaultPlan}
    (h : planned.map FaultPlan.label = .ok fp.label) :
    ∃ again, planned = .ok again ∧ again.params = fp.params ∧
      again.expectation = fp.expectation := by
  cases planned with
  | error err => cases h
  | ok again =>
      obtain ⟨hparams, hexp⟩ := Prod.mk.inj (Except.ok.inj h)
      exact ⟨again, rfl, hparams, hexp⟩

/-- **The same plan, but for the signatures, is made with another secret and at another time.** -/
lemma plan_elsewhere (h : plan hmacHex fault fixtures secret params now = .ok fp) (secret' : String)
    (now' : ℤ) :
    ∃ again, plan hmacHex fault fixtures secret' params now' = .ok again ∧
      again.params = fp.params ∧
      again.expectation = fp.expectation := by
  refine exists_of_label ?_
  rw [label_plan_congr hmacHex hmacHex secret' secret now' now, h]
  rfl

/-- **A plan can be made again of its own parameters**, with another secret and at another time. -/
lemma replan (h : plan hmacHex fault fixtures secret params now = .ok fp) (secret' : String)
    (now' : ℤ) :
    ∃ fp', plan hmacHex fault fixtures secret' fp.params now' = .ok fp' ∧ fp'.params = fp.params ∧
      fp'.expectation = fp.expectation := by
  have hderive : (defaultParams fault).merge fp.params =
      derive fault fixtures ((defaultParams fault).merge params) := by
    rw [plan_params h]
    exact merge_derive fault fixtures params
  refine exists_of_label ?_
  rw [label_plan_congr hmacHex hmacHex secret' secret now' now, label_plan_derive hderive, h]
  rfl

end

end LedgerProof.Harness
