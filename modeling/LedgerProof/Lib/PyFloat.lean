import LedgerProof.Lib.PyJsonEdit
import Mathlib.Data.Int.Log

/-!
# Doubles

`float(text)` is the double nearest to the number, the even one of two that are as near, and an
infinity from half a unit past the largest double on.  A double is its bits: below the sign bit they
are a number `n` that counts the doubles from zero up, `floatMagnitude n` is the `n`-th of them, and
`nearest` counts the doubles up to a number.

A double is not further from the numbers that are read as it than half a unit of its last place
(`abs_sub_nearest_le`).
-/

namespace LedgerProof

namespace PyJson

/-- The nearest natural number, or the even one of two. -/
def roundHalfEven (q : ℚ) : ℕ :=
  let n := ⌊q⌋₊
  if q - n < 1 / 2 then n else if 1 / 2 < q - n then n + 1 else n + n % 2

lemma abs_roundHalfEven_sub_le {q : ℚ} (hq : 0 ≤ q) : |(roundHalfEven q : ℚ) - q| ≤ 1 / 2 := by
  have hlow := Nat.floor_le hq
  have hhigh := Nat.lt_floor_add_one q
  have hmod : ((⌊q⌋₊ % 2 : ℕ) : ℚ) ≤ 1 := by
    have hle : ⌊q⌋₊ % 2 ≤ 1 := by omega
    exact_mod_cast hle
  have hpos : (0 : ℚ) ≤ ((⌊q⌋₊ % 2 : ℕ) : ℚ) := Nat.cast_nonneg _
  unfold roundHalfEven
  dsimp only
  rw [abs_le]
  split_ifs with hdown hup
  · constructor <;> linarith
  · push_cast
    constructor <;> linarith
  · rw [Nat.cast_add]
    constructor <;> linarith

lemma roundHalfEven_natCast (n : ℕ) : roundHalfEven n = n := by simp [roundHalfEven]

/-- Rounding does not pass a natural number. -/
lemma le_roundHalfEven {q : ℚ} {n : ℕ} (h : (n : ℚ) ≤ q) : n ≤ roundHalfEven q := by
  have hfloor := Nat.le_floor h
  unfold roundHalfEven
  dsimp only
  split_ifs <;> omega

lemma roundHalfEven_le {q : ℚ} {n : ℕ} (hq : 0 ≤ q) (h : q ≤ n) : roundHalfEven q ≤ n := by
  have hnear := (abs_le.mp (abs_roundHalfEven_sub_le hq)).2
  have hlt : (roundHalfEven q : ℚ) < n + 1 := by linarith
  have hlt : roundHalfEven q < n + 1 := by exact_mod_cast hlt
  omega

/-! ## Doubles from zero up -/

/-- The distance between doubles in a binade, the subnormal ones with the first. -/
def unitOf (k : ℕ) : ℚ := 2 ^ ((k : ℤ) - 1074)

lemma unitOf_pos (k : ℕ) : 0 < unitOf k := zpow_pos (by norm_num) _

lemma unitOf_succ (k : ℕ) : unitOf (k + 1) = 2 * unitOf k := by
  rw [unitOf, unitOf, ← zpow_one_add₀ (by norm_num)]
  congr 1
  push_cast
  ring

/-- The `n`-th double. -/
def floatMagnitude (n : ℕ) : ℚ :=
  if n < 2 ^ 52 then n * unitOf 0 else (2 ^ 52 + n % 2 ^ 52 : ℕ) * unitOf (n / 2 ^ 52 - 1)

/-- The infinity, as a number of doubles. -/
def infinityBits : ℕ := 2047 * 2 ^ 52

/-- The binade of a number. -/
def binade (q : ℚ) : ℕ := if q < 2 ^ (-1022 : ℤ) then 0 else (Int.log 2 q + 1022).toNat

/-- The double nearest to a number. -/
def nearest (q : ℚ) :
    ℕ := min (binade q * 2 ^ 52 + roundHalfEven (q / unitOf (binade q))) infinityBits

/-- In its binade a double is a number of units. -/
lemma floatMagnitude_binade {k m : ℕ} (hm : m ≤ 2 ^ 53) (hlow : k = 0 ∨ 2 ^ 52 ≤ m) :
    floatMagnitude (k * 2 ^ 52 + m) = m * unitOf k := by
  unfold floatMagnitude
  rcases lt_or_ge m (2 ^ 52) with hsub | hnormal
  · obtain rfl : k = 0 := hlow.resolve_right (by omega)
    rw [if_pos (by omega), Nat.zero_mul, Nat.zero_add]
  · rw [if_neg (by omega)]
    rcases eq_or_lt_of_le hm with rfl | hlt
    · have hmod : (k * 2 ^ 52 + 2 ^ 53) % 2 ^ 52 = 0 := by omega
      have hdiv : (k * 2 ^ 52 + 2 ^ 53) / 2 ^ 52 - 1 = k + 1 := by omega
      rw [hmod, hdiv, unitOf_succ]
      push_cast
      ring
    · have hmod : 2 ^ 52 + (k * 2 ^ 52 + m) % 2 ^ 52 = m := by omega
      have hdiv : (k * 2 ^ 52 + m) / 2 ^ 52 - 1 = k := by omega
      rw [hmod, hdiv]

/-- A number is less than `2 ^ 53` units of its binade, and from the second binade on at least
`2 ^ 52`. -/
lemma binade_spec (q : ℚ) :
    q / unitOf (binade q) ≤ 2 ^ 53 ∧ (binade q = 0 ∨ 2 ^ 52 ≤ q / unitOf (binade q)) := by
  rw [div_le_iff₀ (unitOf_pos _), le_div_iff₀ (unitOf_pos _)]
  unfold binade
  split_ifs with hsmall
  · refine ⟨?_, .inl rfl⟩
    have hunit : (2 : ℚ) ^ 53 * unitOf 0 = 2 ^ (-1021 : ℤ) := by
      rw [unitOf, ← zpow_natCast, ← zpow_add₀ (by norm_num)]
      norm_num
    have hle : (2 : ℚ) ^ (-1022 : ℤ) ≤ 2 ^ (-1021 : ℤ) :=
      zpow_le_zpow_right₀ (by norm_num) (by norm_num)
    rw [hunit]
    linarith
  · have hpos : 0 < q := lt_of_lt_of_le (zpow_pos (by norm_num) _) (not_lt.mp hsmall)
    have hlow := Int.zpow_log_le_self (b := 2) (by norm_num) hpos
    have hhigh := Int.lt_zpow_succ_log_self (b := 2) (by norm_num) q
    have hlog : -1022 ≤ Int.log 2 q := by
      have hlt := (zpow_lt_zpow_iff_right₀ (by norm_num : (1 : ℚ) < 2)).mp
        (lt_of_le_of_lt (not_lt.mp hsmall) hhigh)
      omega
    have hunit : ∀ j : ℤ,
        (2 : ℚ) ^ j * unitOf (Int.log 2 q + 1022).toNat = 2 ^ (Int.log 2 q + (j - 52)) := by
      intro j
      rw [unitOf, ← zpow_add₀ (by norm_num), Int.toNat_of_nonneg (by omega)]
      congr 1
      ring
    have hupper := hunit 53
    have hlower := hunit 52
    norm_num at hupper hlower hlow hhigh
    norm_num
    rw [hupper, hlower]
    exact ⟨hhigh.le, .inr hlow⟩

/-- **A double is within half a unit of what is read as it.** -/
lemma abs_sub_nearest_le {q : ℚ} (hq : 0 ≤ q) (hfinite : nearest q < infinityBits) :
    |q - floatMagnitude (nearest q)| ≤
        max (unitOf 0 / 2) (floatMagnitude (nearest q) / 2 ^ 53) := by
  obtain ⟨hhigh, hlow⟩ := binade_spec q
  have hunit := unitOf_pos (binade q)
  have hnonneg : 0 ≤ q / unitOf (binade q) := div_nonneg hq hunit.le
  have hround := abs_roundHalfEven_sub_le hnonneg
  have hbinade : binade q = 0 ∨ 2 ^ 52 ≤ roundHalfEven (q / unitOf (binade q)) :=
    hlow.imp_right fun h => le_roundHalfEven (by exact_mod_cast h)
  have hnearest : nearest q = binade q * 2 ^ 52 + roundHalfEven (q / unitOf (binade q)) := by
    unfold nearest at hfinite ⊢
    omega
  rw [hnearest, floatMagnitude_binade (roundHalfEven_le hnonneg (by exact_mod_cast hhigh)) hbinade]
  have hdist : |q - roundHalfEven (q / unitOf (binade q)) * unitOf (binade q)| ≤ unitOf (binade q) /
      2 := by
    have hq : q = q / unitOf (binade q) * unitOf (binade q) := (div_mul_cancel₀ _ hunit.ne').symm
    have hfactor : q - roundHalfEven (q / unitOf (binade q)) * unitOf (binade q) =
        -((roundHalfEven (q / unitOf (binade q)) : ℚ) - q / unitOf (binade q)) *
          unitOf (binade q) := by
      rw [neg_mul, sub_mul, ← hq]
      ring
    rw [hfactor, abs_mul, abs_neg, abs_of_pos hunit]
    calc |(roundHalfEven (q / unitOf (binade q)) : ℚ) - q / unitOf (binade q)| * unitOf (binade q)
        ≤ 1 / 2 * unitOf (binade q) := mul_le_mul_of_nonneg_right hround hunit.le
      _ = unitOf (binade q) / 2 := by ring
  rcases hbinade with hzero | hnormal
  · refine hdist.trans (le_max_of_le_left ?_)
    rw [hzero]
  · refine hdist.trans (le_max_of_le_right ?_)
    have hnormal : (2 : ℚ) ^ 52 ≤ roundHalfEven (q / unitOf (binade q)) := by exact_mod_cast hnormal
    rw [le_div_iff₀ (by norm_num)]
    calc unitOf (binade q) / 2 * 2 ^ 53 = 2 ^ 52 * unitOf (binade q) := by ring
      _ ≤ roundHalfEven (q / unitOf (binade q)) * unitOf (binade q) :=
        mul_le_mul_of_nonneg_right hnormal hunit.le

lemma two_pow_mul_unitOf (k : ℕ) (j : ℤ) : (2 : ℚ) ^ j * unitOf k = 2 ^ (j + k - 1074) := by
  rw [unitOf, ← zpow_add₀ (by norm_num)]
  congr 1
  ring

lemma nearest_of_lt {q : ℚ} (hq : 0 ≤ q) (hsmall : q < 2 ^ (-1022 : ℤ)) :
    nearest q = roundHalfEven (q / unitOf 0) := by
  have hbinade : binade q = 0 := if_pos hsmall
  have hle := (binade_spec q).1
  rw [hbinade] at hle
  have hround : roundHalfEven (q / unitOf 0) ≤ 2 ^ 53 :=
    roundHalfEven_le (div_nonneg hq (unitOf_pos 0).le) (by exact_mod_cast hle)
  have hinfinity : infinityBits = 2047 * 2 ^ 52 := rfl
  unfold nearest
  rw [hbinade]
  omega

/-- **A double is read as itself.** -/
lemma nearest_floatMagnitude {n : ℕ} (hn : n < infinityBits) : nearest (floatMagnitude n) = n := by
  have hinfinity : infinityBits = 2047 * 2 ^ 52 := rfl
  unfold floatMagnitude
  split_ifs with hsub
  · have hunit := unitOf_pos 0
    have hsmall : (n : ℚ) * unitOf 0 < 2 ^ (-1022 : ℤ) := by
      have hlt : (n : ℚ) < 2 ^ (52 : ℤ) := by exact_mod_cast hsub
      calc (n : ℚ) * unitOf 0 < 2 ^ (52 : ℤ) * unitOf 0 := mul_lt_mul_of_pos_right hlt hunit
        _ = 2 ^ (-1022 : ℤ) := two_pow_mul_unitOf 0 52
    rw [nearest_of_lt (by positivity) hsmall, mul_div_cancel_right₀ _ hunit.ne',
      roundHalfEven_natCast]
  · obtain ⟨k, m, hm, hm', rfl⟩ : ∃ k m, 2 ^ 52 ≤ m ∧ m < 2 ^ 53 ∧ n = k * 2 ^ 52 + m :=
      ⟨n / 2 ^ 52 - 1, 2 ^ 52 + n % 2 ^ 52, by omega, by omega, by omega⟩
    have hmod : 2 ^ 52 + (k * 2 ^ 52 + m) % 2 ^ 52 = m := by omega
    have hdiv : (k * 2 ^ 52 + m) / 2 ^ 52 - 1 = k := by omega
    rw [hmod, hdiv]
    have hunit := unitOf_pos k
    have hlow : (2 : ℚ) ^ ((k : ℤ) - 1022) ≤ m * unitOf k := by
      have hle : (2 : ℚ) ^ (52 : ℤ) ≤ m := by exact_mod_cast hm
      calc (2 : ℚ) ^ ((k : ℤ) - 1022) = 2 ^ (52 : ℤ) * unitOf k := by
            rw [two_pow_mul_unitOf]
            congr 1
            ring
        _ ≤ m * unitOf k := mul_le_mul_of_nonneg_right hle hunit.le
    have hhigh : (m : ℚ) * unitOf k < 2 ^ ((k : ℤ) - 1021) := by
      have hlt : (m : ℚ) < 2 ^ (53 : ℤ) := by exact_mod_cast hm'
      calc (m : ℚ) * unitOf k < 2 ^ (53 : ℤ) * unitOf k := mul_lt_mul_of_pos_right hlt hunit
        _ = 2 ^ ((k : ℤ) - 1021) := by
            rw [two_pow_mul_unitOf]
            congr 1
            ring
    have hpos : 0 < (m : ℚ) * unitOf k := lt_of_lt_of_le (zpow_pos (by norm_num) _) hlow
    have hlog : Int.log 2 ((m : ℚ) * unitOf k) = (k : ℤ) - 1022 := by
      have hle := (Int.zpow_le_iff_le_log (b := 2) (by norm_num) hpos).mp hlow
      have hlt := (Int.lt_zpow_iff_log_lt (b := 2) (by norm_num) hpos).mp hhigh
      omega
    have hbinade : binade ((m : ℚ) * unitOf k) = k := by
      have hle : (2 : ℚ) ^ (-1022 : ℤ) ≤ 2 ^ ((k : ℤ) - 1022) :=
        zpow_le_zpow_right₀ (by norm_num) (by omega)
      rw [binade, if_neg (not_lt.mpr (hle.trans hlow)), hlog]
      omega
    rw [nearest, hbinade, mul_div_cancel_right₀ _ hunit.ne', roundHalfEven_natCast]
    omega

/-! ## Numbers as doubles -/

namespace Number

/-- The power of ten that the digits are taken with. -/
def power (t : Number) : ℤ :=
  (if '-' ∈ t.mark then -(decimalValueOf t.exp : ℤ) else decimalValueOf t.exp) - t.frac.length

/-- A number without its sign. -/
def magnitude (t : Number) : ℚ := decimalValueOf (t.int ++ t.frac) * 10 ^ t.power

end Number

/-- The bits of a double. -/
def signed (neg : Bool) (n : ℕ) : BitVec 64 := BitVec.ofNat 64 ((if neg then 2 ^ 63 else 0) + n)

/-- The bits below the sign. -/
def unsignedBits (bits : BitVec 64) : ℕ := bits.toNat % 2 ^ 63

/-- `float(text)`. -/
def readFloat (t : Number) : BitVec 64 := signed t.neg (nearest t.magnitude)

lemma signed_unsignedBits (bits : BitVec 64) : signed bits.msb (unsignedBits bits) = bits := by
  apply BitVec.eq_of_toNat_eq
  have hlt := bits.isLt
  rw [signed, unsignedBits, BitVec.toNat_ofNat, BitVec.msb_eq_decide]
  by_cases hneg : 2 ^ 63 ≤ bits.toNat
  · simp only [hneg, decide_true, if_true]
    omega
  · simp only [hneg, decide_false]
    simp
    omega

lemma unsignedBits_signed (neg : Bool) {n : ℕ} (hn : n < 2 ^ 63) :
    unsignedBits (signed neg n) = n := by
  rw [unsignedBits, signed, BitVec.toNat_ofNat]
  cases neg <;> simp <;> omega

lemma isFinite_iff (bits : BitVec 64) :
    isFinite bits = true ↔ unsignedBits bits < infinityBits := by
  have hinfinity : infinityBits = 2047 * 2 ^ 52 := rfl
  have hexponent : (bits.extractLsb' 52 11).toNat = unsignedBits bits / 2 ^ 52 := by
    rw [BitVec.extractLsb'_toNat, Nat.shiftRight_eq_div_pow, unsignedBits]
    omega
  have hlt : unsignedBits bits < 2 ^ 63 := Nat.mod_lt _ (by norm_num)
  rw [isFinite, decide_eq_true_iff, ne_eq, ← BitVec.toNat_inj, hexponent]
  have htop : (0x7ff#11).toNat = 2047 := rfl
  rw [htop]
  omega

lemma nearest_le (q : ℚ) : nearest q ≤ infinityBits := min_le_right _ _

lemma unsignedBits_readFloat (t : Number) : unsignedBits (readFloat t) = nearest t.magnitude := by
  have hle := nearest_le t.magnitude
  have hinfinity : infinityBits = 2047 * 2 ^ 52 := rfl
  exact unsignedBits_signed _ (by omega)

/-! ## The first digit -/

namespace Number

variable {t : Number} {c c' : Char} {cs : List Char}

/-- The power of ten that the first digit stands for. -/
def place (t : Number) : ℤ := ((t.int ++ t.frac).length : ℤ) - 1 + t.power

lemma magnitude_cons (hint : t.int = c :: cs) :
    t.magnitude = (c.toNat - 48 : ℕ) * 10 ^ t.place + decimalValueOf (cs ++ t.frac) *
      10 ^ t.power := by
  have hone : decimalValueOf [c] = c.toNat - 48 := by simp [decimalValueOf]
  have hplace : t.place = ((cs ++ t.frac).length : ℤ) + t.power := by
    rw [place, hint, List.cons_append, List.length_cons]
    push_cast
    ring
  rw [magnitude, hint, List.cons_append, ← List.singleton_append, decimalValueOf_append, hone,
    hplace, zpow_add₀ (by norm_num), zpow_natCast]
  push_cast
  ring

lemma rest_lt (hs : t.Shaped) (hint : t.int = c :: cs) :
    (decimalValueOf (cs ++ t.frac) : ℚ) * 10 ^ t.power < 10 ^ t.place := by
  have hdigits : ∀ d ∈ cs ++ t.frac, IsDecimal d := by
    intro d hd
    rcases List.mem_append.mp hd with hd | hd
    · exact isDigit_iff.mp (hs.int d (by simp [hint, hd]))
    · exact isDigit_iff.mp (hs.frac d hd)
  have hlt : (decimalValueOf (cs ++ t.frac) : ℚ) < 10 ^ (cs ++ t.frac).length := by
    exact_mod_cast decimalValueOf_lt hdigits
  have hplace : t.place = ((cs ++ t.frac).length : ℤ) + t.power := by
    rw [place, hint, List.cons_append, List.length_cons]
    push_cast
    ring
  rw [hplace, zpow_add₀ (by norm_num), zpow_natCast]
  exact mul_lt_mul_of_pos_right hlt (zpow_pos (by norm_num) _)

/-- A number is less than ten of the place of its first digit. -/
lemma magnitude_lt (hs : t.Shaped) : t.magnitude < 10 * 10 ^ t.place := by
  obtain ⟨c, cs, hint, hc⟩ := hs.head
  have hrest := rest_lt hs hint
  have hdigit : ((c.toNat - 48 : ℕ) : ℚ) ≤ 9 := by
    have hle : c.toNat - 48 ≤ 9 := by
      obtain ⟨-, hhigh⟩ := isDigit_iff.mp hc
      omega
    exact_mod_cast hle
  have hpos : (0 : ℚ) < 10 ^ t.place := zpow_pos (by norm_num) _
  have hmul := mul_le_mul_of_nonneg_right hdigit hpos.le
  rw [magnitude_cons hint]
  linarith

/-- Another first digit is a distance of at least its place. -/
lemma place_le_abs_sub (hint : t.int = c :: cs) (hc : IsDecimal c) (hc' : IsDecimal c')
    (hne : c' ≠ c) :
    (10 : ℚ) ^ t.place ≤ |({ t with int := c' :: cs } : Number).magnitude - t.magnitude| := by
  have hpos : (0 : ℚ) < 10 ^ t.place := zpow_pos (by norm_num) _
  have hplace : ({ t with int := c' :: cs } : Number).place = t.place := by
    simp [place, power, hint]
  have hpower : ({ t with int := c' :: cs } : Number).power = t.power := rfl
  have hdigits : (c'.toNat - 48 : ℕ) ≠ c.toNat - 48 := by
    obtain ⟨hlow, -⟩ := hc
    obtain ⟨hlow', -⟩ := hc'
    intro heq
    exact hne (Char.toNat_inj.mp (by omega))
  have hone : (1 : ℚ) ≤ |((c'.toNat - 48 : ℕ) : ℚ) - (c.toNat - 48 : ℕ)| := by
    have hint : (1 : ℤ) ≤ |((c'.toNat - 48 : ℕ) : ℤ) - (c.toNat - 48 : ℕ)| :=
      Int.one_le_abs (sub_ne_zero.mpr (by exact_mod_cast hdigits))
    exact_mod_cast hint
  rw [magnitude_cons hint, magnitude_cons (t := { t with int := c' :: cs }) rfl, hplace, hpower,
    add_sub_add_right_eq_sub, ← sub_mul, abs_mul, abs_of_pos hpos]
  exact le_mul_of_one_le_left hpos.le hone

end Number

/-- Up to the second double, doubles are few units. -/
lemma le_two_of_floatMagnitude_lt {n : ℕ} (h : floatMagnitude n < 3 * unitOf 0) : n ≤ 2 := by
  have hunit := unitOf_pos 0
  unfold floatMagnitude at h
  split_ifs at h with hsub
  · have hlt : (n : ℚ) < 3 := lt_of_mul_lt_mul_right h hunit.le
    have hlt : n < 3 := by exact_mod_cast hlt
    omega
  · have hmono : unitOf 0 ≤ unitOf (n / 2 ^ 52 - 1) := zpow_le_zpow_right₀ (by norm_num) (by omega)
    have hle : (3 : ℚ) ≤ (2 ^ 52 + n % 2 ^ 52 : ℕ) := by
      have hle : 3 ≤ 2 ^ 52 + n % 2 ^ 52 := by omega
      exact_mod_cast hle
    exact absurd h (not_lt.mpr (mul_le_mul hle hmono hunit.le (Nat.cast_nonneg _)))

lemma unitOf_zero : unitOf 0 = (2 ^ 1074)⁻¹ := by
  rw [unitOf, ← zpow_natCast, ← zpow_neg]
  rfl

/-- Below the smallest double there is no power of ten but from `10 ^ (-324)` down. -/
lemma lt_of_ten_zpow_le {p : ℤ} (h : (10 : ℚ) ^ p ≤ unitOf 0) : p ≤ -324 := by
  by_contra hlt
  have hmono : (10 : ℚ) ^ (-323 : ℤ) ≤ 10 ^ p := zpow_le_zpow_right₀ (by norm_num) (by omega)
  have hunit : unitOf 0 < (10 : ℚ) ^ (-323 : ℤ) := by
    have hpow : (10 : ℚ) ^ 323 < 2 ^ 1074 := by
      exact_mod_cast (show 10 ^ 323 < 2 ^ 1074 by decide +kernel)
    rw [unitOf_zero, zpow_neg, show (323 : ℤ) = (323 : ℕ) from rfl, zpow_natCast]
    exact inv_strictAnti₀ (by positivity) hpow
  linarith

/-- **A number with another first digit is another double, but for the smallest ones.** -/
theorem tiny_of_nearest_eq {t : Number} {c c' : Char} {cs : List Char} (hs : t.Shaped)
    (hint : t.int = c :: cs) (hc' : IsDecimal c') (hne : c' ≠ c)
    (hfinite : nearest t.magnitude < infinityBits)
    (hsame : nearest ({ t with int := c' :: cs } : Number).magnitude = nearest t.magnitude) :
    t.place ≤ -324 ∧ nearest t.magnitude ≤ 2 := by
  have hc : IsDecimal c := isDigit_iff.mp (hs.int c (by simp [hint]))
  have hunit := unitOf_pos 0
  have hnonneg : ∀ t : Number, 0 ≤ t.magnitude := fun t =>
    mul_nonneg (Nat.cast_nonneg _) (zpow_nonneg (by norm_num) _)
  have hplace := Number.place_le_abs_sub hint hc hc' hne
  have hlt := Number.magnitude_lt hs
  have hnear := abs_sub_nearest_le (hnonneg t) hfinite
  have hnear' := abs_sub_nearest_le (hnonneg { t with int := c' :: cs }) (by rwa [hsame])
  rw [hsame] at hnear'
  set x := floatMagnitude (nearest t.magnitude) with hx
  set r := max (unitOf 0 / 2) (x / 2 ^ 53) with hr
  have hpow : (0 : ℚ) < 10 ^ t.place := zpow_pos (by norm_num) _
  have hdist : (10 : ℚ) ^ t.place ≤ 2 * r := by
    have htriangle := abs_sub_le ({ t with int := c' :: cs } : Number).magnitude x t.magnitude
    rw [abs_sub_comm x] at htriangle
    linarith
  have hhigh := (abs_le.mp hnear).1
  rcases max_cases (unitOf 0 / 2) (x / 2 ^ 53) with ⟨hmax, -⟩ | ⟨hmax, -⟩
  · have hunits : (10 : ℚ) ^ t.place ≤ unitOf 0 := by
      rw [hr, hmax] at hdist
      linarith
    have hsmall := lt_of_ten_zpow_le hunits
    refine ⟨hsmall, le_two_of_floatMagnitude_lt ?_⟩
    have hmono : (10 : ℚ) ^ t.place ≤ 10 ^ (-324 : ℤ) := zpow_le_zpow_right₀ (by norm_num) hsmall
    have hten : 10 * (10 : ℚ) ^ (-324 : ℤ) < 5 / 2 * unitOf 0 := by
      have hpow : (20 : ℚ) * 2 ^ 1074 < 5 * 10 ^ 324 := by
        exact_mod_cast (show 20 * 2 ^ 1074 < 5 * 10 ^ 324 by decide +kernel)
      rw [unitOf_zero, zpow_neg, show (324 : ℤ) = (324 : ℕ) from rfl, zpow_natCast,
        ← div_eq_mul_inv, ← div_eq_mul_inv, div_lt_div_iff₀ (by positivity) (by positivity)]
      generalize (2 : ℚ) ^ 1074 = a at hpow ⊢
      generalize (10 : ℚ) ^ 324 = b at hpow ⊢
      linarith
    rw [hr, hmax] at hhigh
    linarith
  · -- A double is more than a few of its own half units.
    rw [hr, hmax] at hhigh hdist
    have hxpos : 0 < x := by
      by_contra hneg
      linarith
    linarith

end PyJson

end LedgerProof
