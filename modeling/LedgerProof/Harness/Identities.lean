import LedgerProof.Harness.GroundTruth
import LedgerProof.Harness.Replan

/-!
# The identities of generated scenarios

`generate` numbers its fixtures with one counter, whatever the fault and the kind, and everything
that must be unique is made from the number: the event id, the id of the object, the id of the twin.
`Numbered` is that fixture number `n` has the ids of the sequence number `start + n`, and since no
two numbers have the same text (`seqTag_injective`), no two fixtures have an identity in common,
also across two runs whose numbers do not overlap.

The scenarios of a combination and the skip that stands in their place are read off the loops as
lists (`generateCombo_eq_ok`, `generate_eq_ok`).
-/

namespace LedgerProof.Harness

/-! ## The identities of a set -/

/-- The dedupe key of a fixture: the type of its event and the id of the object that moved. -/
def EventFixture.key (fx : EventFixture) : String × Except PyError (Option String) :=
  (fx.asEvent.type, moneyMovementObjectId fx.asEvent)

namespace ScenarioSet

/-- All fixtures, in the order in which they were drawn. -/
def fixtures (set : ScenarioSet) : List EventFixture := set.scenarios.flatMap (·.fixtures)

/-- The ids of the twins. -/
def twinIds (set : ScenarioSet) : List String := set.scenarios.filterMap (·.params.twinEventId)

/-- All event ids, the twins' among them. -/
def eventIds (set : ScenarioSet) : List String := set.fixtures.map (·.eventId) ++ set.twinIds

/-- No identity is used twice. -/
structure Distinct (set : ScenarioSet) : Prop where
  eventIds : set.eventIds.Nodup
  keys : (set.fixtures.map (·.key)).Nodup
  scenarioIds : (set.scenarios.map (·.scenarioId)).Nodup

/-- How many scenarios there are of a fault and a kind. -/
def scenariosOf (set : ScenarioSet) (fault : Fault) (kind : EventKind) : ℕ :=
  set.scenarios.countP fun sc => sc.fault = fault ∧ sc.fixtures.head?.map (·.kind) = some kind

/-- How often the pair was skipped. -/
def skipsOf (set : ScenarioSet) (fault : Fault) (kind : EventKind) : ℕ :=
  set.skipped.countP fun skip => skip.fault = fault ∧ skip.kind = kind

end ScenarioSet

/-! ## Numbered fixtures -/

/-- The fixture has the ids of this sequence number. -/
def EventFixture.Has (fx : EventFixture) (seq : ℤ) : Prop :=
  ∃ tag, seqTag seq = .ok tag ∧ fx.eventId = "evt_" ++ tag ∧
    fx.key = (fx.kind.eventType, .ok (some (fx.kind.objectTag ++ tag)))

/-- The fixtures have the ids of the sequence numbers from `start` on. -/
def Numbered (start : ℤ) (fxs : List EventFixture) : Prop :=
  ∀ (i : ℕ) (fx : EventFixture), fxs[i]? = some fx → fx.Has (start + i)

section

variable {fx fx' : EventFixture} {fxs fxs' : List EventFixture} {seq seq' start start' created : ℤ}

/-- **A made fixture has the ids of its number**, whatever its amounts. -/
lemma make_has {kind : EventKind} {amount fee refunded : ℤ}
    (h : make kind seq created amount fee refunded = .ok fx) : fx.Has seq ∧ fx.kind = kind := by
  obtain ⟨tag, htag, hfx⟩ := except_bind_eq_ok.mp h
  cases kind <;> cases hfx
  all_goals exact ⟨⟨tag, htag, rfl, Prod.ext rfl (objectId_envelope rfl rfl _)⟩, rfl⟩

/-- The sequence number can be read off the event id. -/
lemma EventFixture.Has.seq_of_eventId (h : fx.Has seq) (h' : fx'.Has seq')
    (heq : fx.eventId = fx'.eventId) :
    seq = seq' := by
  obtain ⟨tag, htag, hid, -⟩ := h
  obtain ⟨tag', htag', hid', -⟩ := h'
  rw [hid, hid'] at heq
  obtain rfl := (String.append_right_inj _).mp heq
  exact seqTag_injective htag htag'

lemma eventType_injective : Function.Injective EventKind.eventType := by
  intro kind kind' h
  cases kind <;> cases kind' <;> first | rfl | exact absurd h (by decide)

lemma EventFixture.Has.seq_of_key (h : fx.Has seq) (h' : fx'.Has seq') (heq : fx.key = fx'.key) :
    seq = seq' := by
  obtain ⟨tag, htag, -, hkey⟩ := h
  obtain ⟨tag', htag', -, hkey'⟩ := h'
  rw [hkey, hkey'] at heq
  obtain ⟨htype, hobj⟩ := Prod.mk.inj heq
  rw [eventType_injective htype] at hobj
  obtain rfl := (String.append_right_inj _).mp (Option.some.inj (Except.ok.inj hobj))
  exact seqTag_injective htag htag'

lemma underscore_notMem_seqTag {tag : String} (h : seqTag seq = .ok tag) : '_' ∉ tag.toList := by
  rw [(seqTag_eq_ok h).2, String.toList_ofList, List.mem_cons, not_or]
  refine ⟨by decide, fun hmem => ?_⟩
  rcases mem_padded hmem with hminus | ⟨-, hhigh⟩
  · exact absurd hminus (by decide)
  · exact absurd hhigh (by decide)

lemma EventFixture.Has.eventId_ne_twin (h : fx.Has seq) (h' : fx'.Has seq') :
    fx.eventId ≠ fx'.eventId ++ "_dup" := by
  obtain ⟨tag, htag, hid, -⟩ := h
  obtain ⟨tag', -, hid', -⟩ := h'
  intro heq
  rw [hid, hid', String.append_assoc] at heq
  have htwin : tag = tag' ++ "_dup" := (String.append_right_inj _).mp heq
  apply underscore_notMem_seqTag htag
  rw [htwin, String.toList_append]
  exact List.mem_append_right _ (by decide)

lemma Numbered.append (h : Numbered start fxs) (h' : Numbered (start + fxs.length) fxs') :
    Numbered start (fxs ++ fxs') := by
  intro i fx hget
  by_cases hi : i < fxs.length
  · rw [List.getElem?_append_left hi] at hget
    exact h i fx hget
  · rw [List.getElem?_append_right (not_lt.mp hi)] at hget
    have hfx := h' _ fx hget
    rwa [add_assoc, ← Nat.cast_add, Nat.add_sub_cancel' (not_lt.mp hi)] at hfx

lemma Numbered.has (h : Numbered start fxs) (hfx : fx ∈ fxs) : ∃ seq, fx.Has seq := by
  obtain ⟨i, hi⟩ := List.mem_iff_getElem?.mp hfx
  exact ⟨_, h i fx hi⟩

/-- What tells the number tells the fixtures apart. -/
lemma Numbered.nodup {β : Type} {f : EventFixture → β} (h : Numbered start fxs)
    (hf : ∀ {fx fx' seq seq'}, EventFixture.Has fx seq → EventFixture.Has fx' seq' → f fx = f fx' →
      seq = seq') :
    (fxs.map f).Nodup := by
  rw [List.Nodup, List.pairwise_map, List.pairwise_iff_getElem]
  intro i j hi hj hij heq
  have hseq := hf (h i _ (List.getElem?_eq_getElem hi)) (h j _ (List.getElem?_eq_getElem hj)) heq
  omega

lemma Numbered.apart {β : Type} {f : EventFixture → β} (h : Numbered start fxs)
    (h' : Numbered start' fxs') (hle : start + fxs.length ≤ start')
    (hf : ∀ {fx fx' seq seq'}, EventFixture.Has fx seq → EventFixture.Has fx' seq' → f fx = f fx' →
      seq = seq') :
    ∀ fx ∈ fxs, ∀ fx' ∈ fxs', f fx ≠ f fx' := by
  intro fx hfx fx' hfx' heq
  obtain ⟨i, hi, rfl⟩ := List.mem_iff_getElem.mp hfx
  obtain ⟨j, hj, rfl⟩ := List.mem_iff_getElem.mp hfx'
  have hseq := hf (h i _ (List.getElem?_eq_getElem hi)) (h' j _ (List.getElem?_eq_getElem hj)) heq
  omega

end

/-! ## The loops -/

section

variable {R : Random} {hmacHex : List UInt8 → List UInt8 → String} {clock : ℕ → ℤ}

lemma fixture_make {kind : EventKind} {seq created : ℤ} {rng rng' : R.State} {fx : EventFixture}
    (h : fixture R kind seq created rng = .ok (fx, rng')) :
    ∃ amount fee refunded, make kind seq created amount fee refunded = .ok fx := by
  have hmap : ∀ {x : Except PyError EventFixture} {rng₁ : R.State},
      x.map (·, rng₁) = .ok (fx, rng') → x = .ok fx := by
    intro x rng₁ hx
    cases x with
    | error err => cases hx
    | ok y =>
        obtain ⟨rfl, -⟩ := Prod.mk.inj (Except.ok.inj hx)
        rfl
  cases kind <;> exact ⟨_, _, _, hmap h⟩

/-- The fixtures of one scenario have the next numbers. -/
lemma drawFixtures_numbered {kind : EventKind} {count : ℕ} {seq : ℤ} {rng rng' : R.State}
    {ticks ticks' : ℕ} {fxs : List EventFixture}
    (h : drawFixtures R clock kind count seq rng ticks = .ok (fxs, rng', ticks')) :
    fxs.length = count ∧ Numbered seq fxs ∧ ∀ fx ∈ fxs, fx.kind = kind := by
  induction count generalizing seq rng rng' ticks ticks' fxs with
  | zero =>
      cases h
      exact ⟨rfl, fun i fx hget => by simp at hget, by simp⟩
  | succ count ih =>
      obtain ⟨⟨fx, rng₁⟩, hfx, h⟩ := except_bind_eq_ok.mp h
      obtain ⟨⟨rest, rng₂, ticks₂⟩, hrest, h⟩ := except_bind_eq_ok.mp h
      obtain ⟨rfl, -⟩ := Prod.mk.inj (Except.ok.inj h)
      obtain ⟨amount, fee, refunded, hmake⟩ := fixture_make hfx
      obtain ⟨hhas, hkind⟩ := make_has hmake
      obtain ⟨hlength, hnumbered, hkinds⟩ := ih hrest
      have hone : Numbered seq [fx] := by
        intro i fx' hget
        cases i with
        | zero =>
            obtain rfl : fx = fx' := by simpa using hget
            simpa using hhas
        | succ i => simp at hget
      refine ⟨by simp [hlength], Numbered.append hone (by simpa using hnumbered), ?_⟩
      exact List.forall_mem_cons.mpr ⟨hkind, hkinds⟩

/-- The id of a twin is that of the first fixture with a suffix. -/
def Scenario.Twinned (sc : Scenario) : Prop :=
  sc.params.twinEventId = none ∨ ∃ fx ∈ sc.fixtures.head?,
    sc.params.twinEventId = some (fx.eventId ++ "_dup")

/-- `f"{fault.value.lower()}-{kind}-{index:04d}"`. -/
def scenarioId (fault : Fault) (kind : EventKind) (index : ℕ) : String :=
  fault.lower ++ "-" ++ kind.name ++ "-" ++ String.ofList (padded 4 index)

/-- The id, the fault and the kind of a scenario. -/
def Scenario.stamp (sc : Scenario) : String × Fault × Option EventKind :=
  (sc.scenarioId, sc.fault, sc.fixtures.head?.map (·.kind))

lemma twinEventId_derive (fault : Fault) (fixtures : List EventFixture) (index : ℕ) :
    (derive fault fixtures ((defaultParams fault).merge (paramsFor fault index))).twinEventId =
      none ∨
      ∃ fx ∈ fixtures.head?,
        (derive fault fixtures ((defaultParams fault).merge (paramsFor fault index))).twinEventId =
        some (fx.eventId ++ "_dup") := by
  cases fault with
  | duplicateObject =>
      cases fixtures with
      | nil => exact .inl rfl
      | cons target rest => exact .inr ⟨target, rfl, rfl⟩
  | tamperBody =>
      cases fixtures with
      | nil => exact .inl rfl
      | cons target rest =>
          left
          cases hflip : flipOneByte (serialize target.event) with
          | ok flipped =>
              rw [(derive_tamperBody target rest _).1 _ hflip]
              rfl
          | error err =>
              rw [(derive_tamperBody target rest _).2 _ hflip]
              rfl
  | truncateBody => cases fixtures <;> exact .inl rfl
  | _ => exact .inl rfl

/-- **One turn of the innermost loop** adds a scenario with the next fixtures. -/
lemma generateOne_eq_ok {fault : Fault} {kind : EventKind} {g g' : Generation R} {index : ℕ}
    (h : generateOne R hmacHex clock fault kind g index = .ok g') :
    ∃ sc : Scenario, g'.scenarios = g.scenarios ++ [sc] ∧ g'.skipped = g.skipped ∧
      g'.seq = g.seq + sc.fixtures.length ∧ sc.stamp = (scenarioId fault kind index, fault,
        some kind) ∧
      Numbered g.seq sc.fixtures ∧ sc.Twinned := by
  unfold generateOne at h
  obtain ⟨⟨fxs, rng, ticks⟩, hdraw, h⟩ := except_bind_eq_ok.mp h
  obtain ⟨built, hbuilt, h⟩ := except_bind_eq_ok.mp h
  obtain ⟨hlength, hnumbered, hkinds⟩ := drawFixtures_numbered (except_mapError_eq_ok.mp hdraw)
  have hparams := plan_params (except_mapError_eq_ok.mp hbuilt)
  cases h
  refine ⟨_, rfl, rfl, by rw [hlength], ?_, hnumbered, ?_⟩
  · have hne : fxs ≠ [] := by
      rw [← List.length_pos_iff, hlength]
      cases fault <;> decide
    obtain ⟨fx, rest, rfl⟩ := List.exists_cons_of_ne_nil hne
    show (_, fault, some fx.kind) = _
    rw [hkinds fx (by simp)]
    rfl
  · rw [Scenario.Twinned, hparams]
    exact twinEventId_derive fault fxs index

/-- The fixtures that were drawn have the numbers that were counted. -/
structure Generation.Counted (start : ℤ) (g : Generation R) : Prop where
  seq : g.seq = start + (g.scenarios.flatMap (·.fixtures)).length
  numbered : Numbered start (g.scenarios.flatMap (·.fixtures))
  twinned : ∀ sc ∈ g.scenarios, sc.Twinned

lemma Generation.Counted.generateOne {start : ℤ} {fault : Fault} {kind : EventKind}
    {g g' : Generation R} {index : ℕ} (hg : g.Counted start)
    (h : generateOne R hmacHex clock fault kind g index = .ok g') : g'.Counted start := by
  obtain ⟨sc, hscenarios, -, hseq, -, hnumbered, htwinned⟩ := generateOne_eq_ok h
  have hfixtures : g'.scenarios.flatMap (·.fixtures) = g.scenarios.flatMap (·.fixtures) ++
      sc.fixtures := by
    rw [hscenarios, List.flatMap_append, List.flatMap_singleton]
  refine ⟨?_, ?_, ?_⟩
  · rw [hfixtures, hseq, hg.seq, List.length_append]
    push_cast
    ring
  · rw [hfixtures]
    exact hg.numbered.append (hg.seq ▸ hnumbered)
  · rw [hscenarios]
    intro sc' hmem
    rcases List.mem_append.mp hmem with hmem | hmem
    · exact hg.twinned sc' hmem
    · rwa [List.mem_singleton.mp hmem]

lemma Generation.Counted.generateCombo {start perCombo : ℤ} {g g' : Generation R}
    {combo : Fault × EventKind} (hg : g.Counted start)
    (h : generateCombo R hmacHex clock perCombo g combo = .ok g') : g'.Counted start := by
  unfold Harness.generateCombo at h
  split at h
  · cases h
    exact ⟨hg.seq, hg.numbered, hg.twinned⟩
  · exact except_foldlM_inv (Generation.Counted start) (fun g₁ index g₂ _ hg₁ hone =>
      hg₁.generateOne hone) hg h

/-- The scenarios of a combination: none if it is skipped, else one for each repeat. -/
def stamps (perCombo : ℤ) (combo : Fault × EventKind) : List (String × Fault × Option EventKind) :=
  match skipReason combo.1 combo.2 with
  | some _ => []
  | none => (List.range perCombo.toNat).map fun index =>
      (scenarioId combo.1 combo.2 index, combo.1, some combo.2)

/-- The skip of a combination, if it is skipped. -/
def skips (combo : Fault × EventKind) : List Skip :=
  match skipReason combo.1 combo.2 with
  | some reason => [⟨combo.1, combo.2, reason⟩]
  | none => []

/-- **One turn of the loop over faults and kinds** adds the scenarios of the combination, or its
skip. -/
lemma generateCombo_eq_ok {perCombo : ℤ} {g g' : Generation R} {combo : Fault × EventKind}
    (h : generateCombo R hmacHex clock perCombo g combo = .ok g') :
    g'.scenarios.map Scenario.stamp = g.scenarios.map Scenario.stamp ++ stamps perCombo combo ∧
      g'.skipped = g.skipped ++ skips combo := by
  unfold generateCombo at h
  unfold stamps skips
  cases hskip : skipReason combo.1 combo.2 with
  | some reason =>
      rw [hskip] at h
      cases h
      exact ⟨(List.append_nil _).symm, rfl⟩
  | none =>
      rw [hskip] at h
      constructor
      · have hone : ∀ g₁ index g₂, generateOne R hmacHex clock combo.1 combo.2 g₁ index = .ok g₂ →
            g₂.scenarios.map Scenario.stamp =
              g₁.scenarios.map Scenario.stamp ++
                [(scenarioId combo.1 combo.2 index, combo.1, some combo.2)] := by
          intro g₁ index g₂ hone
          obtain ⟨sc, hscenarios, -, -, hstamp, -⟩ := generateOne_eq_ok hone
          rw [hscenarios, List.map_append, List.map_singleton, hstamp]
        rw [except_foldlM_out (fun g : Generation R => g.scenarios.map Scenario.stamp) hone h,
          ← List.map_eq_flatMap]
      · rw [List.append_nil]
        refine except_foldlM_inv (fun g₁ : Generation R => g₁.skipped = g.skipped) ?_ rfl h
        rintro g₁ index g₂ - heq hone
        obtain ⟨sc, -, hskipped, -⟩ := generateOne_eq_ok hone
        exact hskipped.trans heq

/-- The pairs that `generate` goes through. -/
def chosenCombos (faults : Option (List Fault)) (kinds : Option (List String)) :
    List (Fault × EventKind) :=
  (faults.getD defaultFaults).product
    ((kinds.getD (allKinds.map EventKind.name)).filterMap fun k => allKinds.find? (·.name = k))

variable {seed perCombo startSeq : ℤ} {faults : Option (List Fault)} {kinds : Option (List String)}
  {set : ScenarioSet}

/-- **A generated set**: the scenarios and skips of the pairs in their order, with counted
fixtures. -/
lemma generate_eq_ok (h : generate R hmacHex clock seed faults kinds perCombo startSeq = .ok set) :
    1 ≤ perCombo ∧ set.scenarios.map Scenario.stamp = (chosenCombos faults kinds).flatMap
      (stamps perCombo) ∧
      set.skipped = (chosenCombos faults kinds).flatMap skips ∧ Numbered startSeq set.fixtures ∧
      ∀ sc ∈ set.scenarios, sc.Twinned := by
  unfold generate at h
  dsimp only at h
  have hper : ¬perCombo < 1 := fun hlt => by simp [hlt] at h
  rw [if_neg hper] at h
  split at h
  · cases h
  obtain ⟨g, hg, h⟩ := except_bind_eq_ok.mp h
  cases h
  have hcounted : g.Counted startSeq := by
    refine except_foldlM_inv (Generation.Counted startSeq) (fun g₁ combo g₂ _ hg₁ hcombo =>
      hg₁.generateCombo hcombo) ⟨by simp, ?_, by simp⟩ hg
    intro i fx hget
    simp at hget
  have hcombo : ∀ g₁ combo g₂, generateCombo R hmacHex clock perCombo g₁ combo = .ok g₂ →
      g₂.scenarios.map Scenario.stamp = g₁.scenarios.map Scenario.stamp ++ stamps perCombo combo ∧
        g₂.skipped = g₁.skipped ++ skips combo := fun g₁ combo g₂ h => generateCombo_eq_ok h
  have hstamps := except_foldlM_out (fun g : Generation R => g.scenarios.map Scenario.stamp)
    (fun g₁ combo g₂ h => (hcombo g₁ combo g₂ h).1) hg
  have hskips := except_foldlM_out (fun g : Generation R => g.skipped)
    (fun g₁ combo g₂ h => (hcombo g₁ combo g₂ h).2) hg
  exact ⟨not_lt.mp hper, hstamps, hskips, hcounted.numbered, hcounted.twinned⟩

end

/-! ## Generation returns -/

section

variable {R : Random} {hmacHex : List UInt8 → List UInt8 → String} {clock : ℕ → ℤ}

/-- The number has a text. -/
def HasText (seq : ℤ) : Prop := (natDecimal seq.natAbs).length ≤ maxStrDigits

lemma hasText_of_lt {seq : ℤ} (hpos : 0 ≤ seq) (h : seq < 10 ^ maxStrDigits) : HasText seq := by
  refine length_natDecimal_le (by decide) ?_
  zify
  rwa [abs_of_nonneg hpos]

lemma dumpsFields_append (fs : List (String × Json)) (f : String × Json)
    (gs : List (String × Json)) :
    ∃ before, Json.dumpsFields (fs ++ f :: gs) = before ++ Json.dumpsFields (f :: gs) := by
  induction fs with
  | nil => exact ⟨[], rfl⟩
  | cons f' fs ih =>
      obtain ⟨before, hbefore⟩ := ih
      obtain ⟨f'', fs', hcons⟩ := List.exists_cons_of_ne_nil (show fs ++ f :: gs ≠ [] by simp)
      refine ⟨Json.dumpsField f' ++ ',' :: before, ?_⟩
      rw [List.cons_append, hcons, Json.dumpsFields_cons_cons, ← hcons, hbefore, List.append_assoc,
        List.cons_append]

/-- **The body of a fixture can be tampered with**: a number follows the data field. -/
lemma flipOneByte_envelope (fx : EventFixture) {eventType : String} {obj : List (String × Json)}
    {created : ℤ} (h : fx.fields = envelope eventType obj created) :
    ∃ flipped, flipOneByte (serialize fx.event) = .ok flipped := by
  obtain ⟨before, rest, hdumps, hone⟩ : ∃ before rest : List Char,
      fx.event.dumps = before ++ "\"data\":".toList ++ rest ∧ '1' ∈ rest := by
    obtain ⟨before, hbefore⟩ := dumpsFields_append
      (("id", .str fx.eventId) :: (envelope eventType obj created).take 3) ("data",
        .obj [("object", .obj obj)])
      ((envelope eventType obj created).drop 4)
    obtain ⟨between, hbetween⟩ := dumpsFields_append [("livemode", .bool false)]
      ("pending_webhooks", .int 1)
      ((envelope eventType obj created).drop 6)
    refine ⟨'{' :: before, (Json.obj [("object", .obj obj)]).dumps ++
      ',' :: (Json.dumpsFields ((envelope eventType obj created).drop 4) ++ ['}']), ?_, ?_⟩
    · have hfields : fx.event.dumps = '{' :: (Json.dumpsFields ((("id", .str fx.eventId) ::
          (envelope eventType obj created).take 3) ++ ("data", .obj [("object", .obj obj)]) ::
            (envelope eventType obj created).drop 4) ++ ['}']) := by
        rw [EventFixture.event, h]
        rfl
      have hdata : Json.dumpsFields (("data", .obj [("object", .obj obj)]) ::
          (envelope eventType obj created).drop 4) =
          "\"data\":".toList ++ ((Json.obj [("object", .obj obj)]).dumps ++
            ',' :: Json.dumpsFields ((envelope eventType obj created).drop 4)) := rfl
      rw [hfields, hbefore, hdata]
      simp only [List.append_assoc, List.cons_append]
    · have hpending : '1' ∈ Json.dumpsFields ((envelope eventType obj created).drop 4) := by
        have hfields : Json.dumpsFields ((envelope eventType obj created).drop 4) = between ++
            Json.dumpsFields (("pending_webhooks", .int 1) :: (envelope eventType obj created).drop
              6) := hbetween
        rw [hfields]
        apply List.mem_append_right
        exact List.mem_append_left _ (by decide : '1' ∈ Json.dumpsField ("pending_webhooks",
          .int 1))
      exact List.mem_append_right _ (List.mem_cons_of_mem _ (List.mem_append_left _ hpending))
  rw [serialize, hdumps, utf8_append, utf8_append]
  exact flipOneByte_total _ ⟨49, List.mem_flatMap.mpr ⟨'1', hone, by decide⟩, by decide⟩

/-- A fixture can be made of a number that has a text, and can be tampered with. -/
lemma fixture_total (kind : EventKind) {seq : ℤ} (hseq : HasText seq) (created : ℤ)
    (rng : R.State) :
    ∃ fx rng', fixture R kind seq created rng = .ok (fx, rng') ∧
      ∃ flipped, flipOneByte (serialize fx.event) = .ok flipped := by
  have htag : seqTag seq = .ok (String.ofList ('h' :: padded 6 seq)) := if_pos hseq
  have hmake : ∀ amount fee refunded, ∃ fx, make kind seq created amount fee refunded = .ok fx ∧
      ∃ eventType obj, fx.fields = envelope eventType obj created := by
    intro amount fee refunded
    unfold make
    rw [htag]
    cases kind <;> exact ⟨_, rfl, _, _, rfl⟩
  have hfixture : ∃ amount fee refunded rng', fixture R kind seq created rng =
      (make kind seq created amount fee refunded).map (·, rng') := by
    cases kind <;> exact ⟨_, _, _, _, rfl⟩
  obtain ⟨amount, fee, refunded, rng', hfixture⟩ := hfixture
  obtain ⟨fx, hfx, eventType, obj, hfields⟩ := hmake amount fee refunded
  refine ⟨fx, rng', ?_, flipOneByte_envelope fx hfields⟩
  rw [hfixture, hfx]
  rfl

lemma drawFixtures_total (kind : EventKind) (count : ℕ) {seq : ℤ}
    (hseq : ∀ i : ℕ, i < count → HasText (seq + i)) (rng : R.State) (ticks : ℕ) :
    ∃ drawn, drawFixtures R clock kind count seq rng ticks = .ok drawn ∧ drawn.1.length = count ∧
      ∀ fx ∈ drawn.1, ∃ flipped, flipOneByte (serialize fx.event) = .ok flipped := by
  induction count generalizing seq rng ticks with
  | zero => exact ⟨_, rfl, rfl, by simp⟩
  | succ count ih =>
      obtain ⟨fx, rng₁, hfx, hflip⟩ := fixture_total kind (by simpa using hseq 0 (Nat.succ_pos _))
        (clock ticks) rng
      have hrest : ∀ i : ℕ, i < count → HasText (seq + 1 + i) := fun i hi => by
        have hnext := hseq (i + 1) (Nat.succ_lt_succ hi)
        rwa [Nat.cast_succ, add_comm (i : ℤ) 1, ← add_assoc] at hnext
      obtain ⟨⟨fxs, rng₂, ticks₂⟩, hdraw, hlength, hflips⟩ := ih hrest rng₁ (ticks + 1)
      refine ⟨(fx :: fxs, rng₂, ticks₂), ?_, congrArg Nat.succ hlength,
        List.forall_mem_cons.mpr ⟨hflip, hflips⟩⟩
      rw [drawFixtures, hfx, except_ok_bind]
      dsimp only
      rw [hdraw]
      rfl

/-- **The parameters of a scenario fit its fault.** -/
lemma plan_total (fault : Fault) {fixtures : List EventFixture}
    (hcount : fixtures.length = fixtureCount fault)
    (hflip : ∀ fx ∈ fixtures, ∃ flipped, flipOneByte (serialize fx.event) = .ok flipped)
    (secret : String) (index : ℕ) (now : ℤ) :
    ∃ fp, plan hmacHex fault fixtures secret (paramsFor fault index) now = .ok fp := by
  cases fixtures with
  | nil => cases fault <;> simp [fixtureCount] at hcount
  | cons target rest =>
  unfold plan
  cases fault with
  | tamperBody =>
      obtain ⟨⟨tampered, byteIndex⟩, htamper⟩ := hflip target List.mem_cons_self
      dsimp only
      rw [htamper]
      exact ⟨_, rfl⟩
  | duplicate =>
      have hn : ¬2 + (index : ℤ) % 3 < 2 := by omega
      simp only [defaultParams, paramsFor, Params.merge, Option.some_or, Params.fetch,
        except_ok_bind, if_neg hn]
      exact ⟨_, rfl⟩
  | concurrentDuplicate =>
      have hn : ¬(if index % 2 = 0 then (8 : ℤ) else 4) < 2 := by split_ifs <;> decide
      simp only [defaultParams, paramsFor, Params.merge, Option.some_or, Params.fetch,
        except_ok_bind, if_neg hn]
      exact ⟨_, rfl⟩
  | staleTimestamp =>
      have hage : ¬600 + 300 * ((index : ℤ) % 2) ≤ defaultToleranceSeconds := by
        rw [defaultToleranceSeconds]
        omega
      simp only [defaultParams, paramsFor, Params.merge, Option.some_or, Params.fetch,
        except_ok_bind, if_neg hage]
      exact ⟨_, rfl⟩
  | reorder =>
      have hrest : rest ≠ [] := by
        rintro rfl
        cases hcount
      simp only [if_neg hrest]
      exact ⟨_, rfl⟩
  | _ => exact ⟨_, rfl⟩

/-- The numbers that are left are enough for the repeats that are left. -/
def Generation.Room (limit : ℤ) (repeats : ℕ) (g : Generation R) :
    Prop := 0 ≤ g.seq ∧ g.seq + 2 * repeats ≤ limit

lemma fixtureCount_le (fault : Fault) : fixtureCount fault ≤ 2 := by cases fault <;> decide

lemma generateOne_total {limit : ℤ} (hlimit : limit ≤ 10 ^ maxStrDigits) (fault : Fault)
    (kind : EventKind) {g : Generation R} {repeats : ℕ} (hg : g.Room limit (repeats + 1))
    (index : ℕ) :
    ∃ g', generateOne R hmacHex clock fault kind g index = .ok g' ∧ g'.Room limit repeats := by
  obtain ⟨hpos, hroom⟩ := hg
  have hcount := fixtureCount_le fault
  have hseq : ∀ i : ℕ, i < fixtureCount fault → HasText (g.seq + i) := fun i hi =>
    hasText_of_lt (by omega) (by push_cast at hroom; omega)
  obtain ⟨⟨fxs, rng, ticks⟩, hdraw, hlength, hflip⟩ := @drawFixtures_total R clock kind
    (fixtureCount fault) _ hseq g.rng g.ticks
  obtain ⟨built, hbuilt⟩ := @plan_total hmacHex fault _ hlength hflip labelSecret index
    (clock ticks)
  unfold generateOne
  dsimp only
  rw [hdraw, except_mapError_eq_ok.mpr rfl, except_ok_bind]
  dsimp only
  rw [hbuilt, except_mapError_eq_ok.mpr rfl, except_ok_bind]
  refine ⟨_, rfl, ?_, ?_⟩
  · show 0 ≤ g.seq + (fixtureCount fault : ℤ)
    omega
  · show g.seq + (fixtureCount fault : ℤ) + 2 * repeats ≤ limit
    push_cast at hroom
    omega

lemma generateCombo_total {limit perCombo : ℤ} (hlimit : limit ≤ 10 ^ maxStrDigits)
    (combo : Fault × EventKind) {g : Generation R} {repeats : ℕ}
    (hg : g.Room limit (perCombo.toNat + repeats)) :
    ∃ g', generateCombo R hmacHex clock perCombo g combo = .ok g' ∧ g'.Room limit repeats := by
  unfold generateCombo
  split
  · refine ⟨_, rfl, hg.1, ?_⟩
    have hroom := hg.2
    push_cast at hroom
    show g.seq + 2 * (repeats : ℤ) ≤ limit
    omega
  · obtain ⟨g', hg', hroom⟩ := except_foldlM_total
      (fun (indices : List ℕ) (g : Generation R) => g.Room limit (indices.length + repeats))
      (fun index indices g hg => generateOne_total hlimit combo.1 combo.2
        (by rwa [List.length_cons, Nat.succ_add] at hg) index)
      (l := List.range perCombo.toNat) (s := g) (by rwa [List.length_range])
    exact ⟨g', hg', by simpa using hroom⟩

/-- **Generation returns**, as long as all numbers have a text. -/
lemma generate_total (seed : ℤ) {faults : Option (List Fault)} {kinds : Option (List String)}
    {perCombo startSeq : ℤ} (hper : 1 ≤ perCombo) (hstart : 0 ≤ startSeq)
    (hknown : ∀ k ∈ kinds.getD (allKinds.map EventKind.name), k ∈ allKinds.map EventKind.name)
    (hlimit : startSeq + 2 * (perCombo * (chosenCombos faults kinds).length) ≤ 10 ^ maxStrDigits) :
    ∃ set, generate R hmacHex clock seed faults kinds perCombo startSeq = .ok set := by
  have hunknown : (kinds.getD (allKinds.map EventKind.name)).filter
      (· ∉ allKinds.map EventKind.name) = [] :=
    List.filter_eq_nil_iff.mpr fun k hk => by simpa using hknown k hk
  unfold generate
  dsimp only
  rw [if_neg (not_lt.mpr hper), if_neg (not_not.mpr hunknown)]
  have hroom : Generation.Room (R := R)
      (startSeq + 2 * (perCombo * (chosenCombos faults kinds).length))
      ((chosenCombos faults kinds).length * perCombo.toNat) ⟨R.ofSeed seed, startSeq, 0, [],
        []⟩ := by
    refine ⟨hstart, ?_⟩
    push_cast
    rw [Int.toNat_of_nonneg (by omega), mul_comm perCombo]
  obtain ⟨g, hg, -⟩ := except_foldlM_total (f := generateCombo R hmacHex clock perCombo)
    (fun (combos : List (Fault × EventKind)) (g : Generation R) =>
      g.Room (startSeq + 2 * (perCombo * (chosenCombos faults kinds).length))
        (combos.length * perCombo.toNat))
    (fun combo combos g hg => generateCombo_total hlimit combo
      (by rwa [List.length_cons, Nat.succ_mul, Nat.add_comm] at hg)) hroom
  refine ⟨⟨g.scenarios, g.skipped⟩, ?_⟩
  show (_ >>= _) = _
  unfold chosenCombos at hg
  rw [hg]
  rfl

end

/-! ## Scenario ids and counts -/

section

lemma lower_injective : Function.Injective Fault.lower := by
  intro fault fault' h
  cases fault <;> cases fault' <;> first | rfl | exact absurd h (by decide)

lemma name_injective : Function.Injective EventKind.name := by
  intro kind kind' h
  cases kind <;> cases kind' <;> first | rfl | exact absurd h (by decide)

/-- **A scenario id determines the combination and the repeat.** -/
lemma scenarioId_injective {fault fault' : Fault} {kind kind' : EventKind} {index index' : ℕ}
    (h : scenarioId fault kind index = scenarioId fault' kind' index') :
    fault = fault' ∧ kind = kind' ∧ index = index' := by
  have hlower : ∀ fault : Fault, '-' ∉ fault.lower.toList := fun fault => by cases fault <;> decide
  have hname : ∀ kind : EventKind, '-' ∉ kind.name.toList := fun kind => by cases kind <;> decide
  have hlist := congrArg String.toList h
  simp only [scenarioId, String.toList_append, String.toList_ofList, List.append_assoc] at hlist
  obtain ⟨hfault, hrest⟩ := append_cons_inj_left (hlower fault) (hlower fault') hlist
  obtain ⟨hkind, hindex⟩ := append_cons_inj_left (hname kind) (hname kind') hrest
  refine ⟨lower_injective (String.toList_inj.mp hfault),
    name_injective (String.toList_inj.mp hkind), ?_⟩
  exact_mod_cast padded_injective 4 hindex

variable {faults : Option (List Fault)} {kinds : Option (List String)} {perCombo : ℤ}

lemma mem_stamps {combo : Fault × EventKind} {stamp : String × Fault × Option EventKind}
    (h : stamp ∈ stamps perCombo combo) :
    ∃ index, stamp = (scenarioId combo.1 combo.2 index, combo.1, some combo.2) := by
  unfold stamps at h
  split at h
  · cases h
  · obtain ⟨index, -, rfl⟩ := List.mem_map.mp h
    exact ⟨index, rfl⟩

lemma nodup_chosenCombos (hfaults : (faults.getD defaultFaults).Nodup)
    (hkinds : (kinds.getD (allKinds.map EventKind.name)).Nodup) :
    (chosenCombos faults kinds).Nodup := by
  refine hfaults.product (hkinds.filterMap fun k k' kind hk hk' => ?_)
  have hk : allKinds.find? (·.name = k) = some kind := hk
  have hk' : allKinds.find? (·.name = k') = some kind := hk'
  have hname : kind.name = k := by simpa using List.find?_some hk
  have hname' : kind.name = k' := by simpa using List.find?_some hk'
  exact hname.symm.trans hname'

lemma mem_chosenCombos {fault : Fault} {kind : EventKind}
    (hfault : fault ∈ faults.getD defaultFaults)
    (hkind : kind.name ∈ kinds.getD (allKinds.map EventKind.name)) :
    (fault, kind) ∈ chosenCombos faults kinds := by
  refine List.mem_product.mpr ⟨hfault, List.mem_filterMap.mpr ⟨kind.name, hkind, ?_⟩⟩
  cases kind <;> decide

variable (perCombo) in
/-- The scenario ids of distinct combinations are distinct. -/
lemma nodup_stamps {combos : List (Fault × EventKind)} (h : combos.Nodup) :
    ((combos.flatMap (stamps perCombo)).map Prod.fst).Nodup := by
  rw [List.map_flatMap, List.nodup_flatMap]
  constructor
  · intro combo _
    unfold stamps
    split
    · exact List.nodup_nil
    · rw [List.map_map]
      exact List.nodup_range.map fun index index' heq => (scenarioId_injective heq).2.2
  · refine h.imp fun {combo combo'} hne => ?_
    rw [Function.onFun, List.disjoint_left]
    intro id hid hid'
    obtain ⟨stamp, hstamp, rfl⟩ := List.mem_map.mp hid
    obtain ⟨stamp', hstamp', heq⟩ := List.mem_map.mp hid'
    obtain ⟨index, rfl⟩ := mem_stamps hstamp
    obtain ⟨index', rfl⟩ := mem_stamps hstamp'
    obtain ⟨hfault, hkind, -⟩ := scenarioId_injective heq
    exact hne (Prod.ext hfault.symm hkind.symm)

/-- Of lists that are made of different pairs, only that of the pair itself counts. -/
lemma countP_flatMap_of_nodup {α β : Type} [DecidableEq α] {l : List α} (hl : l.Nodup) {a : α}
    (ha : a ∈ l) {f : α → List β} {p : β → Bool} (hself : ∀ x ∈ f a, p x = true)
    (hother : ∀ b ∈ l, b ≠ a → ∀ x ∈ f b, p x = false) : (l.flatMap f).countP p = (f a).length := by
  have hzero : ∀ b ∈ l, b ≠ a → (f b).countP p = 0 := fun b hb hne =>
    List.countP_eq_zero.mpr fun x hx => by simp [hother b hb hne x hx]
  rw [List.countP_flatMap]
  exact (total_single hl ha hzero).trans (List.countP_eq_length.mpr hself)

variable {R : Random} {hmacHex : List UInt8 → List UInt8 → String} {clock : ℕ → ℤ}
  {seed startSeq : ℤ}
  {set : ScenarioSet}

/-- **Every chosen pair is generated or skipped.** -/
lemma covered (hfaults : (faults.getD defaultFaults).Nodup)
    (hkinds : (kinds.getD (allKinds.map EventKind.name)).Nodup)
    (h : generate R hmacHex clock seed faults kinds perCombo startSeq = .ok set) {fault : Fault}
    {kind : EventKind} (hcombo : (fault, kind) ∈ chosenCombos faults kinds) :
    (set.scenariosOf fault kind = perCombo.toNat ∧ set.skipsOf fault kind = 0) ∨
      (set.scenariosOf fault kind = 0 ∧ set.skipsOf fault kind = 1) := by
  obtain ⟨-, hstamps, hskips, -⟩ := generate_eq_ok h
  have hnodup := nodup_chosenCombos hfaults hkinds
  have hscenarios : set.scenariosOf fault kind = (stamps perCombo (fault, kind)).length := by
    have hcount : set.scenariosOf fault kind =
        (set.scenarios.map Scenario.stamp).countP fun stamp => stamp.2 = (fault, some kind) := by
      rw [List.countP_map]
      exact List.countP_congr fun sc _ => by simp [Scenario.stamp]
    rw [hcount, hstamps]
    refine countP_flatMap_of_nodup hnodup hcombo (fun stamp hstamp => ?_) fun combo _ hne stamp
      hstamp => ?_
    · obtain ⟨index, rfl⟩ := mem_stamps hstamp
      simp
    · obtain ⟨index, rfl⟩ := mem_stamps hstamp
      simpa [Prod.ext_iff] using hne
  have hskipped : set.skipsOf fault kind = (skips (fault, kind)).length := by
    rw [ScenarioSet.skipsOf, hskips]
    refine countP_flatMap_of_nodup hnodup hcombo (fun skip hskip =>
      ?_) fun combo _ hne skip hskip => ?_
    · unfold skips at hskip
      split at hskip
      · rw [List.mem_singleton.mp hskip]
        simp
      · cases hskip
    · unfold skips at hskip
      split at hskip
      · rw [List.mem_singleton.mp hskip]
        simpa [Prod.ext_iff] using hne
      · cases hskip
  rw [hscenarios, hskipped]
  unfold stamps skips
  cases skipReason fault kind with
  | some reason => exact .inr ⟨rfl, rfl⟩
  | none => exact .inl ⟨by simp, rfl⟩

/-- The twins are made of different fixtures. -/
lemma twinIds_sublist {scenarios : List Scenario} (h : ∀ sc ∈ scenarios, sc.Twinned) :
    ∃ fxs : List EventFixture, fxs.Sublist (scenarios.flatMap (·.fixtures)) ∧
      scenarios.filterMap (·.params.twinEventId) = fxs.map fun fx => fx.eventId ++ "_dup" := by
  induction scenarios with
  | nil => exact ⟨[], .slnil, rfl⟩
  | cons sc scenarios ih =>
      obtain ⟨fxs, hsub, htwins⟩ := ih fun sc' hmem => h sc' (List.mem_cons_of_mem _ hmem)
      rw [List.flatMap_cons, List.filterMap_cons]
      rcases h sc List.mem_cons_self with hnone | ⟨fx, hhead, hsome⟩
      · refine ⟨fxs, hsub.trans (List.sublist_append_right _ _), ?_⟩
        rw [hnone]
        exact htwins
      · refine ⟨fx :: fxs, ?_, ?_⟩
        · exact (List.singleton_sublist.mpr (List.mem_of_mem_head? hhead)).append hsub
        · rw [hsome, List.map_cons, htwins]

/-- **No event id is used twice**, twins included. -/
lemma nodup_eventIds (hnumbered : Numbered startSeq set.fixtures)
    (htwinned : ∀ sc ∈ set.scenarios, sc.Twinned) :
    set.eventIds.Nodup := by
  obtain ⟨fxs, hsub, htwins⟩ := twinIds_sublist htwinned
  have hids : (set.fixtures.map (·.eventId)).Nodup :=
    hnumbered.nodup fun h h' heq => h.seq_of_eventId h' heq
  have htwinIds : (fxs.map fun fx => fx.eventId ++ "_dup").Nodup := by
    have hinj : Function.Injective fun id : String => id ++ "_dup" := fun id id' heq =>
      (String.append_left_inj _).mp heq
    have hmap := (hids.sublist (hsub.map (·.eventId))).map hinj
    rwa [List.map_map] at hmap
  rw [ScenarioSet.eventIds, ScenarioSet.twinIds, htwins, List.nodup_append]
  refine ⟨hids, htwinIds, ?_⟩
  rintro id hid id' hid' rfl
  obtain ⟨fx, hfx, rfl⟩ := List.mem_map.mp hid
  obtain ⟨fx', hfx', heq⟩ := List.mem_map.mp hid'
  obtain ⟨seq, hhas⟩ := hnumbered.has hfx
  obtain ⟨seq', hhas'⟩ := hnumbered.has (hsub.subset hfx')
  exact hhas.eventId_ne_twin hhas' heq.symm

lemma mem_eventIds (htwinned : ∀ sc ∈ set.scenarios, sc.Twinned) {id : String}
    (hid : id ∈ set.eventIds) :
    ∃ fx ∈ set.fixtures, id = fx.eventId ∨ id = fx.eventId ++ "_dup" := by
  obtain ⟨fxs, hsub, htwins⟩ := twinIds_sublist htwinned
  rcases List.mem_append.mp hid with hid | hid
  · obtain ⟨fx, hfx, rfl⟩ := List.mem_map.mp hid
    exact ⟨fx, hfx, .inl rfl⟩
  · rw [ScenarioSet.twinIds, htwins] at hid
    obtain ⟨fx, hfx, rfl⟩ := List.mem_map.mp hid
    exact ⟨fx, hsub.subset hfx, .inr rfl⟩

/-- **Two runs whose numbers do not overlap share no event id.** -/
lemma eventIds_apart {set' : ScenarioSet} {startSeq' : ℤ}
    (hnumbered : Numbered startSeq set.fixtures) (htwinned : ∀ sc ∈ set.scenarios, sc.Twinned)
    (hnumbered' : Numbered startSeq' set'.fixtures) (htwinned' : ∀ sc ∈ set'.scenarios, sc.Twinned)
    (hle : startSeq + set.fixtures.length ≤ startSeq') :
    ∀ id ∈ set.eventIds, id ∉ set'.eventIds := by
  intro id hid hid'
  obtain ⟨fx, hfx, hfrom⟩ := mem_eventIds htwinned hid
  obtain ⟨fx', hfx', hfrom'⟩ := mem_eventIds htwinned' hid'
  obtain ⟨seq, hhas⟩ := hnumbered.has hfx
  obtain ⟨seq', hhas'⟩ := hnumbered'.has hfx'
  have hne : fx.eventId ≠ fx'.eventId :=
    hnumbered.apart hnumbered' hle (fun h h' heq => h.seq_of_eventId h' heq) fx hfx fx' hfx'
  rcases hfrom with rfl | rfl
  · rcases hfrom' with heq | heq
    · exact hne heq
    · exact hhas.eventId_ne_twin hhas' heq
  · rcases hfrom' with heq | heq
    · exact hhas'.eventId_ne_twin hhas heq.symm
    · exact hne ((String.append_left_inj _).mp heq)

end

/-- **Generation never reuses an identity and never drops a combination silently.**  For distinct
faults and distinct known kinds `generate` returns a set as long as all numbers have a text.  In a
set that it returns no event id, dedupe key or scenario id is used twice; every chosen pair has as
many scenarios as there are repeats, or was skipped once instead; and a run that starts counting
where this one stopped, or later, has no event id and no key of this one. -/
theorem generate_identities (R : Random) (hmacHex : List UInt8 → List UInt8 → String)
    (clock : ℕ → ℤ) (seed : ℤ) (faults : Option (List Fault)) (kinds : Option (List String))
    (perCombo startSeq : ℤ) (hper : 1 ≤ perCombo) (hstart : 0 ≤ startSeq)
    (hfaults : (faults.getD defaultFaults).Nodup)
    (hkinds : (kinds.getD (allKinds.map EventKind.name)).Nodup)
    (hknown : ∀ k ∈ kinds.getD (allKinds.map EventKind.name), k ∈ allKinds.map EventKind.name) :
    (startSeq + 2 * (perCombo * (chosenCombos faults kinds).length) ≤ 10 ^ maxStrDigits →
      ∃ set, generate R hmacHex clock seed faults kinds perCombo startSeq = .ok set) ∧
    ∀ set, generate R hmacHex clock seed faults kinds perCombo startSeq = .ok set →
      set.Distinct ∧
      (∀ fault ∈ faults.getD defaultFaults, ∀ kind : EventKind,
        kind.name ∈ kinds.getD (allKinds.map EventKind.name) →
          (set.scenariosOf fault kind = perCombo.toNat ∧ set.skipsOf fault kind = 0) ∨
            (set.scenariosOf fault kind = 0 ∧ set.skipsOf fault kind = 1)) ∧
      ∀ (clock' : ℕ → ℤ) (seed' : ℤ) (faults' : Option (List Fault)) (kinds' : Option (List String))
        (perCombo' startSeq' : ℤ) (set' : ScenarioSet),
        generate R hmacHex clock' seed' faults' kinds' perCombo' startSeq' = .ok set' →
        startSeq + set.fixtures.length ≤ startSeq' →
          (∀ id ∈ set.eventIds, id ∉ set'.eventIds) ∧
            ∀ fx ∈ set.fixtures, ∀ fx' ∈ set'.fixtures, fx.key ≠ fx'.key := by
  refine ⟨generate_total seed hper hstart hknown, fun set h => ?_⟩
  obtain ⟨-, hstamps, -, hnumbered, htwinned⟩ := generate_eq_ok h
  refine ⟨⟨nodup_eventIds hnumbered htwinned, hnumbered.nodup fun h h' heq => h.seq_of_key h' heq,
    ?_⟩,
    fun fault hfault kind hkind => covered hfaults hkinds h (mem_chosenCombos hfault hkind), ?_⟩
  · have hids := nodup_stamps perCombo (nodup_chosenCombos hfaults hkinds)
    rwa [← hstamps, List.map_map] at hids
  · intro clock' seed' faults' kinds' perCombo' startSeq' set' h' hle
    obtain ⟨-, -, -, hnumbered', htwinned'⟩ := generate_eq_ok h'
    exact ⟨eventIds_apart hnumbered htwinned hnumbered' htwinned' hle,
      hnumbered.apart hnumbered' hle fun h h' heq => h.seq_of_key h' heq⟩

/-- Of the faults DROP and PARTIAL_WRITE an invoice has neither, and a payout both. -/
theorem generate_identities_payout :
    ∃ set, generate steadyRandom payoutHmacHex (fun _ => 1754300000) 0 (some [.drop, .partialWrite])
        (some ["invoice_payment_failed", "payout_paid"]) 2 1 = .ok set ∧
      set.Distinct ∧ set.scenarios.length = 4 ∧
      set.scenariosOf .drop .payoutPaid = 2 ∧ set.skipsOf .drop .invoicePaymentFailed = 1 := by
  have hall := generate_identities steadyRandom payoutHmacHex (fun _ => 1754300000) 0
    (some [.drop, .partialWrite]) (some ["invoice_payment_failed", "payout_paid"]) 2 1 (by norm_num)
    (by norm_num) (by decide) (by decide) (by decide)
  exact ⟨_, rfl, (hall.2 _ rfl).1, rfl, rfl, rfl⟩

end LedgerProof.Harness
