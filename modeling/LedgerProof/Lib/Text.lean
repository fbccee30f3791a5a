import Mathlib.Data.Nat.Digits.Defs
import Mathlib.Tactic

/-!
# Text and bytes

What Python's `str(n)`, `s.encode()`, `s.strip()`, `s.lower()`, `s.partition(sep)` and
`s.split(sep)` do, on characters and bytes as lists, for separators of one character.

`decimal` is the canonical decimal form of an integer, so distinct integers have distinct texts
(`decimal_injective`) and no text has anything but a sign and digits in it (`decimal_ascii`).  The
frame `utf8 (decimal n) ++ '.' :: payload` is read back by cutting at the first separator
(`append_cons_inj_left`).
-/

namespace LedgerProof

/-- What is said of the characters of a text is decided on them, not on the finite type of all
characters. -/
instance (priority := high) decidableForallMem {α : Type*} {p : α → Prop} [DecidablePred p]
    (l : List α) : Decidable (∀ x ∈ l, p x) :=
  List.decidableBAll p l

/-! ## Cutting at a separator -/

section Cut

variable {α : Type} {a a' b b' : List α} {sep : α}

/-- The part before the first separator and the part after it are determined by the whole. -/
lemma append_cons_inj_left (ha : sep ∉ a) (ha' : sep ∉ a') (h : a ++ sep :: b = a' ++ sep :: b') :
    a = a' ∧ b = b' := by
  induction a generalizing a' with
  | nil =>
      cases a' with
      | nil => exact ⟨rfl, (List.cons.inj h).2⟩
      | cons x a' =>
          have hx : sep = x := (List.cons.inj h).1
          exact absurd (by simp [hx]) ha'
  | cons x a ih =>
      cases a' with
      | nil =>
          have hx : x = sep := (List.cons.inj h).1
          exact absurd (by simp [hx]) ha
      | cons y a' =>
          obtain ⟨rfl, htail⟩ := List.cons.inj h
          obtain ⟨rfl, rfl⟩ := ih (fun hm => ha (by simp [hm])) (fun hm => ha' (by simp [hm])) htail
          exact ⟨rfl, rfl⟩

end Cut

/-- `s.split(sep)`. -/
def split (sep : Char) (s : List Char) : List (List Char) := s.splitOn sep

/-- `s.partition(sep)`: what comes before the first separator, and what comes after it if there is
one. -/
def partition (sep : Char) (s : List Char) : List Char × Option (List Char) :=
  (s.takeWhile (· ≠ sep), (s.dropWhile (· ≠ sep)).tail?)

lemma partition_append {sep : Char} {key value : List Char} (h : sep ∉ key) :
    partition sep (key ++ sep :: value) = (key, some value) := by
  have hkey : ∀ c ∈ key, decide (c ≠ sep) = true := fun c hc => by
    simp only [ne_eq, decide_eq_true_eq]
    rintro rfl
    exact h hc
  rw [partition, List.takeWhile_append_of_pos hkey, List.dropWhile_append_of_pos hkey]
  simp

/-- `c.isspace()`. -/
def isSpace (c : Char) : Bool :=
  (9 ≤ c.toNat && c.toNat ≤ 13) || (0x1c ≤ c.toNat && c.toNat ≤ 0x20) ||
    (0x2000 ≤ c.toNat && c.toNat ≤ 0x200a) ||
    c.toNat ∈ [0x85, 0xa0, 0x1680, 0x2028, 0x2029, 0x202f, 0x205f, 0x3000]

/-- `s.strip()`. -/
def strip (s : List Char) : List Char :=
  ((s.dropWhile isSpace).reverse.dropWhile isSpace).reverse

/-- `s.lower()` on the ASCII letters.  Of the others only two have a lower case with an ASCII letter
in it, a `k` and an `i`. -/
def asciiLower (s : List Char) : List Char :=
  s.map fun c => if 'A' ≤ c ∧ c ≤ 'Z' then Char.ofNat (c.toNat + 32) else c

/-! ## Encoding -/

/-- `s.encode()`. -/
def utf8 (s : List Char) : List UInt8 := s.flatMap String.utf8EncodeChar

lemma utf8_injective : Function.Injective utf8 := by
  intro s t h
  have hdecode : ∀ u : List Char, (utf8 u).toByteArray.utf8Decode? = some u.toArray := fun u =>
    List.utf8Decode?_utf8Encode
  have hsame := hdecode s
  rw [h, hdecode t] at hsame
  simpa using hsame.symm

@[simp] lemma utf8_append (s t : List Char) : utf8 (s ++ t) = utf8 s ++ utf8 t := by
  simp [utf8]

lemma utf8EncodeChar_ascii {c : Char} (h : c.toNat < 128) :
    String.utf8EncodeChar c = [UInt8.ofNat c.toNat] := by
  have hsize : c.utf8Size = 1 := by
    rw [Char.utf8Size_eq_one_iff]
    have : c.val.toNat < 128 := h
    show c.val.toNat ≤ 127
    omega
  rw [String.utf8EncodeChar_eq_singleton hsize]
  rfl

lemma utf8_ascii {s : List Char} (h : ∀ c ∈ s, c.toNat < 128) :
    utf8 s = s.map fun c => UInt8.ofNat c.toNat := by
  induction s with
  | nil => rfl
  | cons c s ih =>
      obtain ⟨hc, hs⟩ := List.forall_mem_cons.mp h
      have hcons : utf8 (c :: s) = String.utf8EncodeChar c ++ utf8 s := rfl
      rw [hcons, utf8EncodeChar_ascii hc, ih hs]
      rfl

lemma toNat_ofNat {n : ℕ} (h : n < 0xd800) : (Char.ofNat n).toNat = n := by
  rw [Char.ofNat, dif_pos (.inl h)]
  rfl

lemma ofNat_toNat_inj {c d : Char} (hc : c.toNat < 128) (hd : d.toNat < 128)
    (h : UInt8.ofNat c.toNat = UInt8.ofNat d.toNat) : c = d := by
  have hnat := congrArg UInt8.toNat h
  rw [UInt8.toNat_ofNat', UInt8.toNat_ofNat', Nat.mod_eq_of_lt (by omega),
    Nat.mod_eq_of_lt (by omega)] at hnat
  exact Char.toNat_inj.mp hnat

/-- ASCII texts with the same bytes are the same. -/
lemma map_ofNat_toNat_inj {s t : List Char} (hs : ∀ c ∈ s, c.toNat < 128)
    (ht : ∀ c ∈ t, c.toNat < 128) (h : s.map (fun c => UInt8.ofNat c.toNat) = t.map fun c =>
      UInt8.ofNat c.toNat) : s = t := by
  induction s generalizing t with
  | nil => exact (List.map_eq_nil_iff.mp h.symm).symm
  | cons c s ih =>
      cases t with
      | nil => simp at h
      | cons d t =>
          obtain ⟨hhead, htail⟩ := List.cons.inj h
          obtain ⟨hc, hs⟩ := List.forall_mem_cons.mp hs
          obtain ⟨hd, ht⟩ := List.forall_mem_cons.mp ht
          rw [ofNat_toNat_inj hc hd hhead, ih hs ht htail]

/-! ## Decimal numbers -/

/-- The digits of a number, most significant first. -/
def natDecimal (n : ℕ) : List Char :=
  if n = 0 then ['0'] else (Nat.digits 10 n).reverse.map Nat.digitChar

/-- `str(n)`. -/
def decimal (n : ℤ) : List Char :=
  if n < 0 then '-' :: natDecimal n.natAbs else natDecimal n.natAbs

example : decimal (-1059) = "-1059".toList ∧ decimal 0 = ['0'] := by decide

/-- A decimal digit as a character. -/
def IsDecimal (c : Char) : Prop := 48 ≤ c.toNat ∧ c.toNat < 58

lemma digitChar_isDecimal {d : ℕ} (h : d < 10) : IsDecimal (Nat.digitChar d) := by
  rw [IsDecimal, Nat.toNat_digitChar_of_lt_ten h]
  omega

lemma natDecimal_isDecimal (n : ℕ) {c : Char} (h : c ∈ natDecimal n) : IsDecimal c := by
  unfold natDecimal at h
  split_ifs at h with hn
  · rw [List.mem_singleton.mp h]
    exact ⟨by decide, by decide⟩
  · obtain ⟨d, hd, rfl⟩ := List.mem_map.mp h
    exact digitChar_isDecimal (Nat.digits_lt_base (by norm_num) (List.mem_reverse.mp hd))

lemma natDecimal_ne_nil (n : ℕ) : natDecimal n ≠ [] := by
  unfold natDecimal
  split_ifs with hn
  · simp
  · simpa [Nat.digits_eq_nil_iff_eq_zero] using hn

lemma length_natDecimal_le {n k : ℕ} (hk : 0 < k) (h : n < 10 ^ k) : (natDecimal n).length ≤ k := by
  unfold natDecimal
  split_ifs with hn
  · exact hk
  · rw [List.length_map, List.length_reverse, Nat.digits_length_le_iff (by norm_num)]
    exact h

/-- The number a text of digits stands for. -/
def decimalValueOf (s : List Char) : ℕ := Nat.ofDigits 10 (s.reverse.map fun c => c.toNat - 48)

lemma decimalValueOf_natDecimal (n : ℕ) : decimalValueOf (natDecimal n) = n := by
  unfold decimalValueOf natDecimal
  split_ifs with hn
  · rw [hn]
    decide
  · have hdigits : ((Nat.digits 10 n).reverse.map Nat.digitChar).reverse.map (fun c =>
        c.toNat - 48) =
        Nat.digits 10 n := by
      rw [← List.map_reverse, List.reverse_reverse, List.map_map]
      refine List.map_congr_left (fun d hd => ?_) |>.trans (List.map_id _)
      have hlt : d < 10 := Nat.digits_lt_base (by norm_num) hd
      simp [Nat.toNat_digitChar_of_lt_ten hlt]
    rw [hdigits, Nat.ofDigits_digits]

lemma decimalValueOf_append (s t : List Char) :
    decimalValueOf (s ++ t) = decimalValueOf s * 10 ^ t.length + decimalValueOf t := by
  rw [decimalValueOf, List.reverse_append, List.map_append, Nat.ofDigits_append, List.length_map,
    List.length_reverse, decimalValueOf, decimalValueOf]
  ring

lemma decimalValueOf_lt {s : List Char} (h : ∀ c ∈ s, IsDecimal c) :
    decimalValueOf s < 10 ^ s.length := by
  have hlength : (s.reverse.map fun c => c.toNat - 48).length = s.length := by simp
  rw [← hlength]
  refine Nat.ofDigits_lt_base_pow_length (by norm_num) fun d hd => ?_
  obtain ⟨c, hc, rfl⟩ := List.mem_map.mp hd
  obtain ⟨-, hhigh⟩ := h c (List.mem_reverse.mp hc)
  omega

lemma natDecimal_injective : Function.Injective natDecimal :=
  Function.LeftInverse.injective decimalValueOf_natDecimal

/-- A decimal number is a sign or a digit at every place. -/
lemma decimal_ascii {n : ℤ} {c : Char} (h : c ∈ decimal n) : c = '-' ∨ IsDecimal c := by
  unfold decimal at h
  split_ifs at h with hn
  · rcases List.mem_cons.mp h with rfl | h
    · exact .inl rfl
    · exact .inr (natDecimal_isDecimal _ h)
  · exact .inr (natDecimal_isDecimal _ h)

lemma minus_not_mem_natDecimal (n : ℕ) : '-' ∉ natDecimal n := fun h =>
  absurd (natDecimal_isDecimal n h).1 (by decide)

lemma decimal_injective : Function.Injective decimal := by
  intro m n h
  unfold decimal at h
  split_ifs at h with hm hn hn
  · have habs := natDecimal_injective (List.cons.inj h).2
    omega
  · exact absurd (h ▸ List.mem_cons_self) (minus_not_mem_natDecimal n.natAbs)
  · exact absurd (h ▸ List.mem_cons_self) (minus_not_mem_natDecimal m.natAbs)
  · have habs := natDecimal_injective h
    omega

end LedgerProof
