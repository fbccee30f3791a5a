import LedgerProof.Lib.Dict
import Mathlib.Data.List.Sort
import Mathlib.Data.Rat.Floor
import Mathlib.Algebra.Order.Floor.Ring

/-!
# Sorting and rounding

`sorted(xs, key=f)`, `dict(sorted(d.items()))` and `round(x, digits)` of Python, over linear orders
and exact rationals.

A list is sorted to one list whatever its order, when its keys are distinct (`sortOn_eq_of_perm`),
and a dictionary to the one that has its values (`sortedItems_congr`).  Rounding to a number of
digits keeps the order (`roundTo_mono`).
-/

namespace LedgerProof

/-! ## Sorting -/

section

variable {α κ : Type} [LinearOrder κ] {key : α → κ} {xs ys : List α}

/-- `sorted(xs, key=key)`, which is stable. -/
def sortOn (key : α → κ) (xs : List α) : List α := xs.insertionSort fun a b => key a ≤ key b

lemma sortOn_perm (key : α → κ) (xs : List α) :
    (sortOn key xs).Perm xs := List.perm_insertionSort _ xs

lemma mem_sortOn {x : α} : x ∈ sortOn key xs ↔ x ∈ xs := (sortOn_perm key xs).mem_iff

lemma sortOn_pairwise (key : α → κ) (xs : List α) :
    (sortOn key xs).Pairwise fun a b => key a ≤ key b := by
  have : IsTrans α fun a b => key a ≤ key b := ⟨fun _ _ _ => le_trans⟩
  have : Std.Total fun a b : α => key a ≤ key b := ⟨fun a b => LinearOrder.le_total (key a) (key b)⟩
  exact List.pairwise_insertionSort _ xs

/-- **The order of the list does not matter** when no two items have the same key. -/
lemma sortOn_eq_of_perm (hkeys : (xs.map key).Nodup) (h : xs.Perm ys) :
    sortOn key xs = sortOn key ys := by
  refine List.Perm.eq_of_pairwise (fun a b ha hb hab hba => ?_) (sortOn_pairwise key xs)
    (sortOn_pairwise key ys)
    ((sortOn_perm key xs).trans (h.trans (sortOn_perm key ys).symm))
  have hb : b ∈ xs := h.mem_iff.mpr (mem_sortOn.mp hb)
  exact List.inj_on_of_nodup_map hkeys (mem_sortOn.mp ha) hb (le_antisymm hab hba)

lemma sortOn_id_eq_of_perm {xs ys : List κ} (h : xs.Perm ys) : sortOn id xs = sortOn id ys :=
  List.Perm.eq_of_pairwise (fun _ _ _ _ hab hba => le_antisymm hab hba) (sortOn_pairwise id xs)
    (sortOn_pairwise id ys) ((sortOn_perm id xs).trans (h.trans (sortOn_perm id ys).symm))

end

/-! ## Sorted dictionaries -/

section

variable {κ ν : Type} [LinearOrder κ] {d d' : Dict κ ν} {k : κ} {v : ν}

/-- `sorted(d.items())`: no two items have the same key, so the values are not compared. -/
def sortedItems (d : Dict κ ν) : List (κ × ν) := sortOn Prod.fst d.items

lemma mem_sortedItems :
    (k, v) ∈ sortedItems d ↔ d.get? k = some v := mem_sortOn.trans d.mem_items_iff

lemma lookup_sortedItems (d : Dict κ ν) (k : κ) : (sortedItems d).lookup k = d.get? k := by
  have hnodup : ((sortedItems d).map Prod.fst).Nodup :=
    ((sortOn_perm _ _).map _).nodup_iff.mpr d.nodup
  refine Option.ext fun v => ?_
  rw [Dict.lookup_eq_some_iff hnodup]
  exact mem_sortedItems

lemma sortedItems_keys (d : Dict κ ν) : (sortedItems d).map Prod.fst = sortOn id d.keys :=
  List.map_insertionSort _ _ _ _ fun _ _ _ _ => Iff.rfl

lemma sortedItems_map {β : Type} (d : Dict κ ν) (f : ν → β) (default : ν) :
    ((sortedItems d).map fun i => (i.1, f i.2)) = (sortOn id d.keys).map fun k =>
    (k, f (d.getD k default)) := by
  rw [← sortedItems_keys, List.map_map]
  refine List.map_congr_left fun i hi => ?_
  have hvalue : d.get? i.1 = some i.2 := mem_sortedItems.mp hi
  rw [Function.comp_apply, Dict.getD, hvalue, Option.getD_some]

/-- **Dictionaries with the same values are sorted to the same list.** -/
lemma sortedItems_congr (h : ∀ k, d.get? k = d'.get? k) : sortedItems d = sortedItems d' := by
  refine sortOn_eq_of_perm d.nodup ?_
  refine (List.perm_ext_iff_of_nodup d.nodup.of_map d'.nodup.of_map).mpr fun i => ?_
  rw [d.mem_items_iff, d'.mem_items_iff, h]

end

/-! ## Rounding -/

/-- `round(x)`: halves go to the even neighbour. -/
def roundHalfEven (x : ℚ) : ℤ :=
  if Int.fract x < 1 / 2 then ⌊x⌋ else if 1 / 2 < Int.fract x then ⌊x⌋ + 1 else if Even ⌊x⌋ then ⌊x⌋
    else ⌊x⌋ + 1

/-- `round(x, digits)`, of a number that is not rounded to a float before. -/
def roundTo (digits : ℕ) (x : ℚ) : ℚ := roundHalfEven (x * 10 ^ digits) / 10 ^ digits

example : roundHalfEven (5 / 2) = 2 ∧ roundHalfEven (7 / 2) = 4 ∧
  roundTo 4 (2 / 3) = 6667 / 10000 := by decide +kernel

lemma floor_le_roundHalfEven (x : ℚ) : ⌊x⌋ ≤ roundHalfEven x := by
  unfold roundHalfEven
  split_ifs <;> omega

lemma roundHalfEven_le_floor_add_one (x : ℚ) : roundHalfEven x ≤ ⌊x⌋ + 1 := by
  unfold roundHalfEven
  split_ifs <;> omega

/-- **Rounding keeps the order.** -/
lemma roundHalfEven_mono {x y : ℚ} (h : x ≤ y) : roundHalfEven x ≤ roundHalfEven y := by
  rcases (Int.floor_le_floor h).lt_or_eq with hlt | heq
  · have hx := roundHalfEven_le_floor_add_one x
    have hy := floor_le_roundHalfEven y
    omega
  · -- with one floor, the fractions are in order
    have hfract : Int.fract x ≤ Int.fract y := by
      rw [Int.fract, Int.fract, heq]
      linarith
    unfold roundHalfEven
    rw [heq]
    split_ifs <;> first | omega | (exfalso; linarith)

lemma roundTo_mono (digits : ℕ) {x y : ℚ} (h : x ≤ y) : roundTo digits x ≤ roundTo digits y := by
  have hpow : (0 : ℚ) < 10 ^ digits := by positivity
  have hscaled : roundHalfEven (x * 10 ^ digits) ≤ roundHalfEven (y * 10 ^ digits) :=
    roundHalfEven_mono (mul_le_mul_of_nonneg_right h hpow.le)
  unfold roundTo
  gcongr

end LedgerProof
