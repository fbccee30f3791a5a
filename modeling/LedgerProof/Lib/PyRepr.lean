import LedgerProof.Lib.PyFloat
import Mathlib.Data.List.DropRight

/-!
# Doubles as text

`repr(x)`: the fewest digits that are read as the double, the nearest of those that have so many,
with an exponent from `1e16` on and below `1e-4`.  The search for them ends, as a double has a
decimal form that is exact (`shortestDecimal_spec`), so every finite double is read back
(`spells_reprFloat`).
-/

namespace LedgerProof

namespace PyJson

/-! ## The digits -/

/-- A number of units that is read as the double, the nearest if it is one. -/
def candidate (n : ℕ) (unit : ℚ) : Option ℕ :=
  let q := floatMagnitude n / unit
  [roundHalfEven q, ⌊q⌋₊, ⌊q⌋₊ + 1].find? fun c => nearest (c * unit) = n

/-- The first power of ten, from `p` down, at which there is a number. -/
def searchDown (f : ℤ → Option ℕ) : ℕ → ℤ → ℕ × ℤ
  | 0, p => (0, p)
  | fuel + 1, p =>
      match f p with
      | some c => (c, p)
      | none => searchDown f fuel (p - 1)

/-- The shortest decimal form of the `n`-th double: a number and a power of ten. -/
def shortestDecimal (n : ℕ) : ℕ × ℤ :=
  searchDown (fun p => candidate n (10 ^ p)) 1400 (Int.log 10 (floatMagnitude n))

lemma searchDown_of_some {f : ℤ → Option ℕ} {p : ℤ} {c : ℕ} (h : f p = some c) (fuel : ℕ) :
    searchDown f (fuel + 1) p = (c, p) := by
  rw [searchDown, h]

lemma searchDown_spec {f : ℤ → Option ℕ} {q : ℤ} (hq : (f q).isSome) : ∀ {fuel : ℕ} {p : ℤ}, q ≤ p →
    p < q + fuel → f (searchDown f fuel p).2 = some (searchDown f fuel p).1
  | 0, p, hle, hlt => absurd hlt (by simpa using hle)
  | fuel + 1, p, hle, hlt => by
      rw [searchDown]
      cases hp : f p with
      | some c => exact hp
      | none =>
          have hne : q ≠ p := by
            rintro rfl
            rw [hp] at hq
            cases hq
          push_cast at hlt
          exact searchDown_spec hq (by omega) (by omega)

lemma nearest_of_candidate {n c : ℕ} {unit : ℚ} (h : candidate n unit = some c) :
    nearest (c * unit) = n := by
  simpa using List.find?_some h

lemma floatMagnitude_eq {n : ℕ} (hn : n < infinityBits) :
    ∃ m k : ℕ, m < 2 ^ 53 ∧ k ≤ 2045 ∧ floatMagnitude n = m * unitOf k := by
  have hinfinity : infinityBits = 2047 * 2 ^ 52 := rfl
  unfold floatMagnitude
  split_ifs with hsub
  · exact ⟨n, 0, by omega, by omega, rfl⟩
  · exact ⟨2 ^ 52 + n % 2 ^ 52, n / 2 ^ 52 - 1, by omega, by omega, rfl⟩

lemma floatMagnitude_pos {n : ℕ} (hn : n ≠ 0) : unitOf 0 ≤ floatMagnitude n := by
  have hunit := unitOf_pos 0
  unfold floatMagnitude
  split_ifs with hsub
  · have hone : (1 : ℚ) ≤ n := by exact_mod_cast Nat.one_le_iff_ne_zero.mpr hn
    exact le_mul_of_one_le_left hunit.le hone
  · have hmono : unitOf 0 ≤ unitOf (n / 2 ^ 52 - 1) := zpow_le_zpow_right₀ (by norm_num) (by omega)
    have hone : (1 : ℚ) ≤ (2 ^ 52 + n % 2 ^ 52 : ℕ) := by
      have hone : 1 ≤ 2 ^ 52 + n % 2 ^ 52 := by omega
      exact_mod_cast hone
    exact hmono.trans (le_mul_of_one_le_left (unitOf_pos _).le hone)

/-- With enough decimals every double is written exactly. -/
lemma candidate_exact {n : ℕ} (hn : n < infinityBits) :
    (candidate n (10 ^ (-1074 : ℤ))).isSome := by
  obtain ⟨m, k, -, -, heq⟩ := floatMagnitude_eq hn
  have hexact : floatMagnitude n / 10 ^ (-1074 : ℤ) = (m * 2 ^ k * 5 ^ 1074 : ℕ) := by
    have hten : (10 : ℚ) ^ (-1074 : ℤ) = (2 ^ 1074 * 5 ^ 1074)⁻¹ := by
      have hmul : (2 : ℚ) * 5 = 10 := by norm_num
      rw [← mul_pow, hmul, zpow_neg]
      rfl
    have hunit : unitOf k = 2 ^ k * (2 ^ 1074)⁻¹ := by
      rw [unitOf, zpow_sub₀ (by norm_num), zpow_natCast, div_eq_mul_inv]
      rfl
    have htwo : (2 : ℚ) ^ 1074 ≠ 0 := pow_ne_zero _ (by norm_num)
    rw [heq, hten, hunit]
    simp only [Nat.cast_mul, Nat.cast_pow, Nat.cast_ofNat]
    generalize (2 : ℚ) ^ 1074 = a at htwo ⊢
    field_simp
  have hpow : (10 : ℚ) ^ (-1074 : ℤ) ≠ 0 := zpow_ne_zero _ (by norm_num)
  have hread : nearest ((m * 2 ^ k * 5 ^ 1074 : ℕ) * 10 ^ (-1074 : ℤ)) = n := by
    rw [← hexact, div_mul_cancel₀ _ hpow, nearest_floatMagnitude hn]
  rw [candidate, List.find?_isSome]
  refine ⟨_, List.mem_cons_self, ?_⟩
  rw [hexact, roundHalfEven_natCast, hread]
  exact decide_eq_true rfl

/-- **The shortest decimal form is read as the double.** -/
lemma shortestDecimal_spec {n : ℕ} (hn : n ≠ 0) (hfinite : n < infinityBits) :
    nearest ((shortestDecimal n).1 * 10 ^ (shortestDecimal n).2) = n := by
  have hpos : 0 < floatMagnitude n := lt_of_lt_of_le (unitOf_pos 0) (floatMagnitude_pos hn)
  have hexact := candidate_exact hfinite
  refine nearest_of_candidate (searchDown_spec (f := fun p => candidate n (10 ^ p)) hexact ?_ ?_)
  · refine (Int.zpow_le_iff_le_log (b := 10) (by norm_num) hpos).mp ?_
    refine le_trans ?_ (floatMagnitude_pos hn)
    have hpow : (2 : ℚ) ^ 1074 ≤ 10 ^ 1074 := pow_le_pow_left₀ (by norm_num) (by norm_num) _
    rw [unitOf_zero, zpow_neg]
    exact inv_anti₀ (by positivity) hpow
  · obtain ⟨m, k, hm, hk, heq⟩ := floatMagnitude_eq hfinite
    have hbound : floatMagnitude n < (10 : ℚ) ^ (309 : ℤ) := by
      have hlt : (m : ℚ) < 2 ^ (53 : ℤ) := by exact_mod_cast hm
      calc floatMagnitude n < 2 ^ (53 : ℤ) * unitOf k := by
            rw [heq]
            exact mul_lt_mul_of_pos_right hlt (unitOf_pos k)
        _ = 2 ^ ((k : ℤ) - 1021) := by
            rw [two_pow_mul_unitOf]
            congr 1
            ring
        _ ≤ 2 ^ (1024 : ℤ) := zpow_le_zpow_right₀ (by norm_num) (by omega)
        _ < 10 ^ (309 : ℤ) := by
            exact_mod_cast (show 2 ^ 1024 < 10 ^ 309 by decide +kernel)
    have hlog := (Int.lt_zpow_iff_log_lt (b := 10) (by norm_num) hpos).mp hbound
    push_cast
    omega

/-! ## The text -/

/-- The digits of a number but for zeros at its end. -/
def significant (c : ℕ) : List Char := (natDecimal c).rdropWhile (· = '0')

/-- An exponent, of two digits at least. -/
def exponentDigits (e : ℕ) : List Char := if e < 10 then '0' :: natDecimal e else natDecimal e

/-- The mark and the sign of an exponent. -/
def exponentMark (e : ℤ) : List Char := if e < 0 then ['e', '-'] else ['e', '+']

/-- Digits with the point after as many of them as `point` says. -/
def spell (neg : Bool) (digits : List Char) (point : ℤ) : Number :=
  if point ≤ -4 ∨ 16 < point then
    ⟨neg, digits.take 1, digits.drop 1, exponentMark (point - 1), exponentDigits (point - 1).natAbs⟩
  else if point ≤ 0 then ⟨neg, ['0'], List.replicate point.natAbs '0' ++ digits, [], []⟩
  else if digits.length ≤ point.toNat then
    ⟨neg, digits ++ List.replicate (point.toNat - digits.length) '0', ['0'], [], []⟩
  else ⟨neg, digits.take point.toNat, digits.drop point.toNat, [], []⟩

/-- `repr(x)` of a finite double. -/
def reprFloat (bits : BitVec 64) : Number :=
  let n := unsignedBits bits
  if n = 0 then ⟨bits.msb, ['0'], ['0'], [], []⟩
  else
    let decimal := shortestDecimal n
    spell bits.msb (significant decimal.1) ((natDecimal decimal.1).length + decimal.2)

lemma decimalValueOf_replicate (j : ℕ) : decimalValueOf (List.replicate j '0') = 0 := by
  rw [decimalValueOf, List.reverse_replicate, List.map_replicate]
  exact Nat.ofDigits_replicate_zero

lemma exponentDigits_spec (e : ℕ) :
    exponentDigits e ≠ [] ∧ (∀ c ∈ exponentDigits e, isDigit c = true) ∧
      decimalValueOf (exponentDigits e) = e := by
  have hdigits : ∀ c ∈ natDecimal e, isDigit c = true :=
    fun c hc => isDigit_iff.mpr (natDecimal_isDecimal e hc)
  unfold exponentDigits
  split_ifs
  · refine ⟨by simp, List.forall_mem_cons.mpr ⟨rfl, hdigits⟩, ?_⟩
    have hzero : decimalValueOf ['0'] = 0 := rfl
    rw [← List.singleton_append, decimalValueOf_append, hzero, decimalValueOf_natDecimal]
    omega
  · exact ⟨natDecimal_ne_nil e, hdigits, decimalValueOf_natDecimal e⟩

/-- The digits of a number that is not zero. -/
structure Digits (ds : List Char) : Prop where
  digit : ∀ c ∈ ds, isDigit c = true
  head : ∃ c cs, ds = c :: cs ∧ c ≠ '0'

lemma significant_digits {c : ℕ} (hc : c ≠ 0) :
    Digits (significant c) ∧ ∃ j, natDecimal c = significant c ++ List.replicate j '0' := by
  have happend : significant c ++ (natDecimal c).rtakeWhile (· = '0') = natDecimal c :=
    List.rdropWhile_append_rtakeWhile
  have hzeros : (natDecimal c).rtakeWhile (· = '0') =
      List.replicate ((natDecimal c).rtakeWhile (· = '0')).length '0' := by
    refine List.eq_replicate_of_mem fun d hd => ?_
    simpa using List.mem_rtakeWhile_imp hd
  have hbegins : significant c <+: natDecimal c := ⟨_, happend⟩
  refine ⟨⟨fun d hd => isDigit_iff.mpr (natDecimal_isDecimal c (hbegins.subset hd)), ?_⟩,
    _, by rw [← hzeros, happend]⟩
  rcases natDecimal_head c with hzero | ⟨d, ds, hcons, -, hd⟩
  · have hvalue := decimalValueOf_natDecimal c
    rw [hzero] at hvalue
    exact absurd hvalue.symm hc
  · have hne : significant c ≠ [] := by
      intro hnil
      have hall := List.rdropWhile_eq_nil_iff.mp hnil d (by simp [hcons])
      exact hd (by simpa using hall)
    obtain ⟨d', cs, hsignificant⟩ := List.exists_cons_of_ne_nil hne
    rw [hsignificant, hcons] at hbegins
    obtain ⟨rest, hrest⟩ := hbegins
    obtain ⟨rfl, -⟩ := List.cons.inj hrest
    exact ⟨d', cs, hsignificant, hd⟩

section

variable {neg : Bool} {ds : List Char} {point : ℤ}

lemma isDigit_replicate {j : ℕ} : ∀ c ∈ List.replicate j '0', isDigit c = true := by
  intro c hc
  rw [List.eq_of_mem_replicate hc]
  rfl

lemma spell_shaped (h : Digits ds) : (spell neg ds point).Shaped := by
  obtain ⟨c, cs, rfl, -⟩ := h.head
  obtain ⟨hne, hexponent, -⟩ := exponentDigits_spec (point - 1).natAbs
  unfold spell
  split_ifs with hmark hzero hwhole
  · refine ⟨by simp, ?_, ?_, hexponent, .inr ⟨?_, hne⟩⟩
    · exact fun d hd => h.digit d (List.mem_of_mem_take hd)
    · exact fun d hd => h.digit d (List.mem_of_mem_drop hd)
    · show exponentMark (point - 1) ∈ Number.marks
      unfold exponentMark
      split_ifs <;> decide
  · refine ⟨by simp, by simp [isDigit], ?_, by simp, .inl ⟨rfl, rfl⟩⟩
    exact List.forall_mem_append.mpr ⟨isDigit_replicate, h.digit⟩
  · refine ⟨by simp, ?_, by simp [isDigit], by simp, .inl ⟨rfl, rfl⟩⟩
    exact List.forall_mem_append.mpr ⟨h.digit, isDigit_replicate⟩
  · refine ⟨?_, ?_, ?_, by simp, .inl ⟨rfl, rfl⟩⟩
    · obtain ⟨j, hj⟩ : ∃ j, point.toNat = j + 1 := ⟨point.toNat - 1, by omega⟩
      simp [hj]
    · exact fun d hd => h.digit d (List.mem_of_mem_take hd)
    · exact fun d hd => h.digit d (List.mem_of_mem_drop hd)

lemma spell_unpadded (h : Digits ds) : (spell neg ds point).Unpadded := by
  obtain ⟨c, cs, rfl, hc⟩ := h.head
  unfold spell
  split_ifs with hmark hzero hwhole
  · intro hhead
    exact absurd (Option.some.inj hhead) hc
  · exact fun _ => rfl
  · intro hhead
    exact absurd (Option.some.inj hhead) hc
  · obtain ⟨j, hj⟩ : ∃ j, point.toNat = j + 1 := ⟨point.toNat - 1, by omega⟩
    intro hhead
    rw [hj] at hhead
    exact absurd (Option.some.inj hhead) hc

lemma spell_isFloat (h : Digits ds) : (spell neg ds point).isFloat = true := by
  obtain ⟨hne, -, -⟩ := exponentDigits_spec (point - 1).natAbs
  obtain ⟨c, cs, rfl, -⟩ := h.head
  unfold spell
  split_ifs with hmark hzero hwhole
  · simp [Number.isFloat, hne]
  · simp [Number.isFloat]
  · simp [Number.isFloat]
  · have hlong : point.toNat < (c :: cs).length := not_le.mp hwhole
    simp only [Number.isFloat, Bool.or_eq_true, decide_eq_true_eq, ne_eq, List.drop_eq_nil_iff]
    exact .inl (not_le.mpr hlong)

lemma magnitude_fixed (int frac : List Char) :
    (⟨neg, int, frac, [], []⟩ : Number).magnitude = decimalValueOf (int ++ frac) *
    10 ^ (-(frac.length : ℤ)) := by
  have hnil : decimalValueOf [] = 0 := rfl
  rw [Number.magnitude, Number.power]
  simp [hnil]

lemma spell_magnitude (h : Digits ds) :
    (spell neg ds point).magnitude = decimalValueOf ds * 10 ^ (point - ds.length) := by
  obtain ⟨c, cs, rfl, -⟩ := h.head
  obtain ⟨-, -, hexponent⟩ := exponentDigits_spec (point - 1).natAbs
  unfold spell
  split_ifs with hmark hzero hwhole
  · have hexponent :
        (if '-' ∈ exponentMark (point - 1) then
        -(decimalValueOf (exponentDigits (point - 1).natAbs) : ℤ)
        else decimalValueOf (exponentDigits (point - 1).natAbs)) = point - 1 := by
      rw [hexponent]
      unfold exponentMark
      split_ifs with hneg hminus hminus
      · omega
      · exact absurd hminus (by decide)
      · exact absurd hminus (by decide)
      · omega
    rw [Number.magnitude, Number.power]
    dsimp only
    rw [hexponent, List.take_append_drop, List.length_drop, List.length_cons]
    congr 2
    push_cast
    omega
  · have hvalue :
        decimalValueOf (['0'] ++ (List.replicate point.natAbs '0' ++ c :: cs)) =
          decimalValueOf (c :: cs) := by
      rw [← List.append_assoc, ← List.replicate_one, List.replicate_append_replicate,
        decimalValueOf_append, decimalValueOf_replicate, Nat.zero_mul, Nat.zero_add]
    rw [magnitude_fixed, hvalue, List.length_append, List.length_replicate, Nat.cast_add]
    congr 2
    omega
  · have hvalue : decimalValueOf (c :: cs ++ List.replicate (point.toNat - (c :: cs).length) '0' ++
        ['0']) =
        decimalValueOf (c :: cs) * 10 ^ (point.toNat - (c :: cs).length + 1) := by
      rw [List.append_assoc, ← List.replicate_one, List.replicate_append_replicate,
        decimalValueOf_append, decimalValueOf_replicate, List.length_replicate, Nat.add_zero]
    have hpoint : point - (c :: cs).length = ((point.toNat - (c :: cs).length + 1 : ℕ) : ℤ) +
        -(1 : ℕ) := by omega
    rw [magnitude_fixed, hvalue, hpoint, zpow_add₀ (by norm_num), zpow_natCast,
      List.length_singleton, ← mul_assoc]
    push_cast
    rfl
  · rw [magnitude_fixed, List.take_append_drop, List.length_drop]
    congr 2
    omega

end

lemma neg_spell (neg : Bool) (ds : List Char) (point : ℤ) : (spell neg ds point).neg = neg := by
  unfold spell
  split_ifs <;> rfl

lemma nearest_zero : nearest 0 = 0 := by
  have hzero : floatMagnitude 0 = 0 := by simp [floatMagnitude]
  have hself := nearest_floatMagnitude (show 0 < infinityBits by decide)
  rwa [hzero] at hself

/-- The text of a double that is not zero has the digits of its shortest decimal form. -/
lemma reprFloat_of_ne_zero {bits : BitVec 64} {c : ℕ} {p : ℤ} (hn : unsignedBits bits ≠ 0)
    (hshortest : shortestDecimal (unsignedBits bits) = (c, p)) :
    reprFloat bits = spell bits.msb (significant c) ((natDecimal c).length + p) := by
  unfold reprFloat
  dsimp only
  rw [if_neg hn, hshortest]

/-- **A finite double is read from its text.** -/
theorem spells_reprFloat {bits : BitVec 64} (h : isFinite bits = true) :
    Spells readFloat reprFloat bits := by
  have hbits := signed_unsignedBits bits
  by_cases hn : unsignedBits bits = 0
  · have hzero : reprFloat bits = ⟨bits.msb, ['0'], ['0'], [], []⟩ := if_pos hn
    have hmagnitude : (⟨bits.msb, ['0'], ['0'], [], []⟩ : Number).magnitude = 0 := by
      rw [magnitude_fixed]
      exact zero_mul _
    rw [hn] at hbits
    refine ⟨?_, ?_, ?_, ?_⟩ <;> rw [hzero]
    · exact ⟨by simp, by simp [isDigit], by simp [isDigit], by simp, .inl ⟨rfl, rfl⟩⟩
    · exact fun _ => rfl
    · rfl
    · rw [readFloat, hmagnitude, nearest_zero, hbits]
  · obtain ⟨⟨c, p⟩, hshortest⟩ : ∃ r, shortestDecimal (unsignedBits bits) = r := ⟨_, rfl⟩
    have hread := shortestDecimal_spec hn ((isFinite_iff bits).mp h)
    rw [hshortest] at hread
    dsimp only at hread
    have hc : c ≠ 0 := by
      rintro rfl
      rw [Nat.cast_zero, zero_mul, nearest_zero] at hread
      exact hn hread.symm
    obtain ⟨hdigits, j, hzeros⟩ := significant_digits hc
    have hmagnitude : (spell bits.msb (significant c) ((natDecimal c).length + p)).magnitude =
        c * 10 ^ p := by
      have hvalue : c = decimalValueOf (significant c) * 10 ^ j := by
        have hvalue := decimalValueOf_natDecimal c
        rw [hzeros, decimalValueOf_append, decimalValueOf_replicate, List.length_replicate,
          Nat.add_zero] at hvalue
        exact hvalue.symm
      have hpoint : ((natDecimal c).length : ℤ) + p - (significant c).length = j + p := by
        rw [hzeros, List.length_append, List.length_replicate]
        push_cast
        ring
      rw [spell_magnitude hdigits, hpoint, zpow_add₀ (by norm_num), zpow_natCast, ← mul_assoc]
      congr 1
      exact_mod_cast hvalue.symm
    have hspell := reprFloat_of_ne_zero hn hshortest
    refine ⟨?_, ?_, ?_, ?_⟩ <;> rw [hspell]
    · exact spell_shaped hdigits
    · exact spell_unpadded hdigits
    · exact spell_isFloat hdigits
    · rw [readFloat, neg_spell, hmagnitude, hread, hbits]

/-- A float that `json.loads` can return. -/
def IsFloat (bits : BitVec 64) : Prop :=
  isFinite bits = true ∨ bits ∈ [0x7ff8000000000000#64, 0x7ff0000000000000#64,
    0xfff0000000000000#64]

lemma IsFloat.floats {bits : BitVec 64} (h : IsFloat bits) : Floats readFloat reprFloat bits := by
  unfold Floats
  split_ifs with hfinite
  · exact spells_reprFloat hfinite
  · exact h.resolve_left hfinite

/-! ## The smallest doubles -/

lemma roundHalfEven_eq {q : ℚ} {n : ℕ} (hlow : (n : ℚ) - 1 / 2 < q) (hhigh : q < n + 1 / 2)
    (hq : 0 ≤ q) :
    roundHalfEven q = n := by
  have hnear := abs_le.mp (abs_roundHalfEven_sub_le hq)
  have hle : (roundHalfEven q : ℚ) < n + 1 := by linarith [hnear.2]
  have hge : (n : ℚ) < roundHalfEven q + 1 := by linarith [hnear.1]
  have hle : roundHalfEven q < n + 1 := by exact_mod_cast hle
  have hge : n < roundHalfEven q + 1 := by exact_mod_cast hge
  omega

/-- The smallest double is between 4.9 and 5 of `10 ^ (-324)`. -/
lemma unitOf_zero_bounds :
    (49 / 10 : ℚ) * 10 ^ (-324 : ℤ) < unitOf 0 ∧ unitOf 0 < 5 * (10 : ℚ) ^ (-324 : ℤ) := by
  have hlow : (49 : ℚ) * 2 ^ 1074 < 10 * 10 ^ 324 := by
    exact_mod_cast (show 49 * 2 ^ 1074 < 10 * 10 ^ 324 by decide +kernel)
  have hhigh : (10 : ℚ) ^ 324 < 5 * 2 ^ 1074 := by
    exact_mod_cast (show 10 ^ 324 < 5 * 2 ^ 1074 by decide +kernel)
  have htwo : (0 : ℚ) < 2 ^ 1074 := by positivity
  have hten : (0 : ℚ) < 10 ^ 324 := by positivity
  rw [unitOf_zero, zpow_neg, show (324 : ℤ) = (324 : ℕ) from rfl, zpow_natCast]
  generalize (2 : ℚ) ^ 1074 = a at *
  generalize (10 : ℚ) ^ 324 = b at *
  rw [← div_eq_mul_inv, ← div_eq_mul_inv, inv_eq_one_div, div_lt_div_iff₀ hten htwo,
    div_lt_div_iff₀ htwo hten]
  constructor <;> linarith

lemma nearest_small {n : ℕ} {q : ℚ} (hn : n < 2 ^ 51) (hlow : ((n : ℚ) - 1 / 2) * unitOf 0 < q)
    (hhigh : q < (n + 1 / 2) * unitOf 0) (hq : 0 ≤ q) : nearest q = n := by
  have hunit := unitOf_pos 0
  have hsmall : q < 2 ^ (-1022 : ℤ) := by
    have hle : (n : ℚ) + 1 / 2 ≤ 2 ^ (52 : ℤ) := by
      have hle : (n : ℚ) ≤ 2 ^ 51 := by exact_mod_cast hn.le
      calc (n : ℚ) + 1 / 2
        _ ≤ 2 ^ 51 + 2 ^ 51 := by linarith [one_le_pow₀ (n := 51) (one_le_two (α := ℚ))]
        _ = 2 ^ (52 : ℤ) := by norm_num
    calc q < (n + 1 / 2) * unitOf 0 := hhigh
      _ ≤ 2 ^ (52 : ℤ) * unitOf 0 := mul_le_mul_of_nonneg_right hle hunit.le
      _ = 2 ^ (-1022 : ℤ) := two_pow_mul_unitOf 0 52
  rw [nearest_of_lt hq hsmall]
  exact roundHalfEven_eq ((lt_div_iff₀ hunit).mpr hlow) ((div_lt_iff₀ hunit).mpr hhigh)
    (div_nonneg hq hunit.le)

/-- The two smallest doubles are `5e-324` and `1e-323`. -/
lemma shortestDecimal_small {n : ℕ} (hn : n = 1 ∨ n = 2) : shortestDecimal n = (5 * n, -324) := by
  have hunit := unitOf_pos 0
  have hten : (0 : ℚ) < 10 ^ (-324 : ℤ) := zpow_pos (by norm_num) _
  obtain ⟨hlow, hhigh⟩ := unitOf_zero_bounds
  have hone : (1 : ℚ) ≤ n ∧ (n : ℚ) ≤ 2 := by rcases hn with rfl | rfl <;> norm_num
  have hmagnitude : floatMagnitude n = n * unitOf 0 := by
    rw [floatMagnitude, if_pos (by omega)]
  have hpos : 0 < floatMagnitude n := lt_of_lt_of_le hunit (floatMagnitude_pos (by omega))
  have hlog : Int.log 10 (floatMagnitude n) = -324 := by
    have hle : (10 : ℚ) ^ (-324 : ℤ) ≤ floatMagnitude n := by
      rw [hmagnitude]
      nlinarith [hone.1]
    have hlt : floatMagnitude n < (10 : ℚ) ^ (-323 : ℤ) := by
      have hstep : (10 : ℚ) ^ (-323 : ℤ) = 10 * 10 ^ (-324 : ℤ) := by
        rw [← zpow_one_add₀ (by norm_num)]
        norm_num
      rw [hmagnitude, hstep]
      nlinarith [hone.2]
    have hlow := (Int.zpow_le_iff_le_log (b := 10) (by norm_num) hpos).mp hle
    have hhigh := (Int.lt_zpow_iff_log_lt (b := 10) (by norm_num) hpos).mp hlt
    omega
  have hround : roundHalfEven (floatMagnitude n / 10 ^ (-324 : ℤ)) = 5 * n := by
    refine roundHalfEven_eq ?_ ?_ (div_pos hpos hten).le
    · rw [hmagnitude, lt_div_iff₀ hten, Nat.cast_mul, Nat.cast_ofNat]
      nlinarith [hone.1, hone.2]
    · rw [hmagnitude, div_lt_iff₀ hten, Nat.cast_mul, Nat.cast_ofNat]
      nlinarith [hone.1, hone.2]
  have hread : nearest ((5 * n : ℕ) * 10 ^ (-324 : ℤ)) = n := by
    refine nearest_small (by omega) ?_ ?_ (mul_nonneg (Nat.cast_nonneg _) hten.le)
    · rw [Nat.cast_mul, Nat.cast_ofNat]
      nlinarith [hone.1, hone.2]
    · rw [Nat.cast_mul, Nat.cast_ofNat]
      nlinarith [hone.1, hone.2]
  have hcandidate : candidate n (10 ^ (-324 : ℤ)) = some (5 * n) := by
    rw [candidate, hround]
    exact List.find?_cons_of_pos (decide_eq_true hread)
  rw [shortestDecimal, hlog]
  exact searchDown_of_some hcandidate 1399

/-- `5e-324`, with a sign or without. -/
def leastFloat (neg : Bool) : Number := ⟨neg, ['5'], [], ['e', '-'], ['3', '2', '4']⟩

/-- **Only the smallest double is written with so small a first digit.** -/
lemma reprFloat_eq_leastFloat {bits : BitVec 64} (hn : unsignedBits bits ≤ 2)
    (hplace : (reprFloat bits).place ≤ -324) :
    reprFloat bits = leastFloat bits.msb := by
  by_cases hzero : unsignedBits bits = 0
  · have hspell : reprFloat bits = ⟨bits.msb, ['0'], ['0'], [], []⟩ := if_pos hzero
    rw [hspell] at hplace
    generalize bits.msb = neg at hplace
    cases neg <;> exact absurd hplace (by decide)
  · have hsmall : unsignedBits bits = 1 ∨ unsignedBits bits = 2 := by omega
    have hspell := reprFloat_of_ne_zero hzero (shortestDecimal_small hsmall)
    rcases hsmall with hone | htwo
    · rw [hone] at hspell
      rw [hspell]
      rfl
    · rw [htwo] at hspell
      rw [hspell] at hplace
      generalize bits.msb = neg at hplace
      cases neg <;> exact absurd hplace (by decide)

lemma nearest_tiny {q : ℚ} (hlow : 5 ≤ q) (hhigh : q ≤ 6) : nearest (q * 10 ^ (-324 : ℤ)) = 1 := by
  obtain ⟨hunit, hunit'⟩ := unitOf_zero_bounds
  have hten : (0 : ℚ) < 10 ^ (-324 : ℤ) := zpow_pos (by norm_num) _
  refine nearest_small (by norm_num) ?_ ?_ (mul_nonneg (by linarith) hten.le)
  · rw [Nat.cast_one]
    nlinarith
  · rw [Nat.cast_one]
    nlinarith

lemma magnitude_tiny (neg : Bool) (c : Char) :
    (⟨neg, [c], [], ['e', '-'], ['3', '2', '4']⟩ : Number).magnitude = (c.toNat - 48 : ℕ) *
    10 ^ (-324 : ℤ) := by
  have hexp : decimalValueOf ['3', '2', '4'] = 324 := rfl
  rw [Number.magnitude, Number.power, hexp]
  simp [decimalValueOf]

/-- **The text next to that of the smallest double is read as it too.** -/
lemma readFloat_next_least (neg : Bool) :
    readFloat { leastFloat neg with int := ['6'] } = readFloat (leastFloat neg) := by
  have hfive : nearest (leastFloat neg).magnitude = 1 := by
    rw [leastFloat, magnitude_tiny, show '5'.toNat - 48 = 5 from rfl]
    exact nearest_tiny (by norm_num) (by norm_num)
  have hsix : nearest ({ leastFloat neg with int := ['6'] } : Number).magnitude = 1 := by
    rw [leastFloat, magnitude_tiny, show '6'.toNat - 48 = 6 from rfl]
    exact nearest_tiny (by norm_num) (by norm_num)
  rw [readFloat, readFloat, hfive, hsix]

end PyJson

end LedgerProof
