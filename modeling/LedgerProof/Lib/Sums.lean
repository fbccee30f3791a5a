import Mathlib.Algebra.BigOperators.Group.List.Basic
import Mathlib.Data.List.Dedup
import Mathlib.Data.List.Nodup
import Mathlib.Tactic

/-!
# Grouped sums over lists

`SELECT key, SUM(f) … GROUP BY key` reads one bag of rows several times over.  The lemmas
here say what the groups add up to: a sum over the keys of the sums of the groups is the sum
over the rows (`sum_groups`), and a row whose key is not listed contributes nothing
(`sum_groups_filter`).  `total` is the sum of a column over a bag of rows, the spelling every
other module uses.
-/

namespace LedgerProof

variable {α β M : Type*} [AddCommMonoid M]

/-- The sum of a column over a bag of rows. -/
def total (f : α → M) (rows : List α) : M := (rows.map f).sum

@[simp] lemma total_nil (f : α → M) : total f [] = 0 := rfl

@[simp] lemma total_cons (f : α → M) (x : α) (rows : List α) :
    total f (x :: rows) = f x + total f rows := by
  simp [total]

@[simp] lemma total_singleton (f : α → M) (x : α) : total f [x] = f x := by
  simp [total]

@[simp] lemma total_append (f : α → M) (xs ys : List α) :
    total f (xs ++ ys) = total f xs + total f ys := by
  simp [total]

lemma total_congr {f g : α → M} {rows : List α} (h : ∀ x ∈ rows, f x = g x) :
    total f rows = total g rows := by
  rw [total, total, List.map_congr_left h]

lemma total_map (f : β → M) (g : α → β) (rows : List α) :
    total f (rows.map g) = total (fun x => f (g x)) rows := by
  simp [total, Function.comp_def]

lemma total_perm {f : α → M} {xs ys : List α} (h : xs.Perm ys) : total f xs = total f ys :=
  (h.map f).sum_eq

lemma total_eraseIdx {f : α → M} {xs : List α} {i : ℕ} {x : α} (h : xs[i]? = some x) :
    f x + total f (xs.eraseIdx i) = total f xs := by
  obtain ⟨hi, rfl⟩ := List.getElem?_eq_some_iff.mp h
  rw [← total_cons, total_perm (List.getElem_cons_eraseIdx_perm hi)]

lemma total_set {f : α → M} {xs : List α} {i : ℕ} {x : α} (h : xs[i]? = some x) (y : α) :
    f x + total f (xs.set i y) = f y + total f xs := by
  obtain ⟨hi, -⟩ := List.getElem?_eq_some_iff.mp h
  rw [total_perm (List.set_perm_cons_eraseIdx hi y), total_cons, ← total_eraseIdx h, add_left_comm]

lemma total_eq_zero {f : α → M} {rows : List α} (h : ∀ x ∈ rows, f x = 0) :
    total f rows = 0 := by
  induction rows with
  | nil => rfl
  | cons x rows ih =>
      rw [total_cons, h x (by simp), ih (fun y hy => h y (by simp [hy])), zero_add]

lemma total_add (f g : α → M) (rows : List α) :
    total (fun x => f x + g x) rows = total f rows + total g rows := by
  induction rows with
  | nil => simp
  | cons x rows ih => simp only [total_cons, ih, add_add_add_comm]

/-- A filter is a column that is zero on the rows left out. -/
lemma total_filter (f : α → M) (p : α → Bool) (rows : List α) :
    total f (rows.filter p) = total (fun x => if p x then f x else 0) rows := by
  induction rows with
  | nil => rfl
  | cons x rows ih =>
      by_cases hp : p x = true
      · simp [hp, ih]
      · simp [hp, ih]

/-- The rows a filter keeps and the rows it drops are all the rows. -/
lemma total_filter_add_not (f : α → M) (p : α → Bool) (rows : List α) :
    total f (rows.filter p) + total f (rows.filter fun x => !p x) = total f rows := by
  rw [total_filter, total_filter, ← total_add]
  refine total_congr fun x _ => ?_
  cases p x <;> simp

lemma total_sub {f g : α → ℤ} (rows : List α) :
    total (fun x => f x - g x) rows = total f rows - total g rows := by
  induction rows with
  | nil => simp
  | cons x rows ih => simp only [total_cons, ih]; ring

lemma total_neg {f : α → ℤ} (rows : List α) :
    total (fun x => -f x) rows = -total f rows := by
  induction rows with
  | nil => simp
  | cons x rows ih => simp only [total_cons, ih]; ring

lemma total_nonneg {f : α → ℤ} {rows : List α} (h : ∀ x ∈ rows, 0 ≤ f x) :
    0 ≤ total f rows := by
  induction rows with
  | nil => simp
  | cons x rows ih =>
      have hx := h x (by simp)
      have ht := ih (fun y hy => h y (by simp [hy]))
      rw [total_cons]
      omega

lemma le_total {f : α → ℤ} {rows : List α} (h : ∀ x ∈ rows, 0 ≤ f x) {x : α} (hx : x ∈ rows) :
    f x ≤ total f rows := by
  induction rows with
  | nil => simp at hx
  | cons y rows ih =>
      have hy := h y (by simp)
      have ht : 0 ≤ total f rows := total_nonneg fun z hz => h z (by simp [hz])
      rw [total_cons]
      rcases List.mem_cons.mp hx with rfl | hx
      · omega
      · have := ih (fun z hz => h z (by simp [hz])) hx
        omega

/-- The absolute differences of two columns are what is left of both without the part they share. -/
lemma total_abs_sub (f g : α → ℤ) (rows : List α) :
    total (fun x => |f x - g x|) rows + 2 * total (fun x => min (f x) (g x)) rows = total f rows +
      total g rows := by
  induction rows with
  | nil => rfl
  | cons x rows ih =>
      have hx : |f x - g x| + 2 * min (f x) (g x) = f x + g x := by
        rcases Int.le_total (f x) (g x) with h | h
        · rw [abs_of_nonpos (by omega), min_eq_left h]
          ring
        · rw [abs_of_nonneg (by omega), min_eq_right h]
          ring
      rw [total_cons, total_cons, total_cons, total_cons]
      linarith

lemma total_eq_zero_iff {f : α → ℤ} {rows : List α} (h : ∀ x ∈ rows, 0 ≤ f x) :
    total f rows = 0 ↔ ∀ x ∈ rows, f x = 0 := by
  constructor
  · intro hzero x hx
    have hle := le_total h hx
    have hpos := h x hx
    omega
  · exact total_eq_zero

lemma total_pos {f : α → ℤ} {rows : List α} (h : ∀ x ∈ rows, 0 ≤ f x) {x : α} (hx : x ∈ rows)
    (hpos : 0 < f x) : 0 < total f rows :=
  hpos.trans_le (le_total h hx)

/-- Two rows of a nonnegative column add up to no more than the column. -/
lemma add_le_total {f : α → ℤ} {rows : List α} (h : ∀ x ∈ rows, 0 ≤ f x) {x y : α}
    (hx : x ∈ rows) (hy : y ∈ rows) (hne : x ≠ y) : f x + f y ≤ total f rows := by
  induction rows with
  | nil => simp at hx
  | cons z rows ih =>
      have hz := h z (by simp)
      have hrest : ∀ w ∈ rows, 0 ≤ f w := fun w hw => h w (by simp [hw])
      rw [total_cons]
      rcases List.mem_cons.mp hx with rfl | hx'
      · have := le_total hrest ((List.mem_cons.mp hy).resolve_left hne.symm)
        omega
      · rcases List.mem_cons.mp hy with rfl | hy'
        · have := le_total hrest hx'
          omega
        · have := ih hrest hx' hy'
          omega

/-! ## Groups -/

lemma filter_eq_singleton {p : α → Bool} {rows : List α} (hnd : rows.Nodup) {x : α} (hx : x ∈ rows)
    (hp : ∀ y ∈ rows, p y = true ↔ y = x) : rows.filter p = [x] := by
  refine List.perm_singleton.mp
    ((List.perm_ext_iff_of_nodup (hnd.filter _) (by simp)).mpr fun y => ?_)
  rw [List.mem_filter, List.mem_singleton]
  constructor
  · rintro ⟨hy, hpy⟩
    exact (hp y hy).mp hpy
  · rintro rfl
    exact ⟨hx, (hp y hx).mpr rfl⟩

/-- The group of a key that no two rows share. -/
lemma filter_key_eq_singleton [DecidableEq β] {key : α → β} {rows : List α}
    (hnd : (rows.map key).Nodup) {x : α} (hx : x ∈ rows) : (rows.filter (key · = key x)) = [x] :=
  filter_eq_singleton (List.Nodup.of_map _ hnd) hx fun y hy => by
    rw [decide_eq_true_eq]
    exact ⟨fun h => List.inj_on_of_nodup_map hnd hy hx h, fun h => by rw [h]⟩

/-- A sum over distinct keys of a column that only one of them has. -/
lemma total_single {keys : List β} (hnd : keys.Nodup) {k : β} (hk : k ∈ keys) {f : β → M}
    (hf : ∀ k' ∈ keys, k' ≠ k → f k' = 0) : total f keys = f k := by
  induction keys with
  | nil => simp at hk
  | cons k' keys ih =>
      obtain ⟨hnotin, hnd⟩ := List.nodup_cons.mp hnd
      rcases List.mem_cons.mp hk with rfl | hk
      · have hrest : total f keys = 0 := total_eq_zero fun x hx =>
          hf x (by simp [hx]) (fun h => hnotin (h ▸ hx))
        rw [total_cons, hrest, add_zero]
      · have hne : k' ≠ k := fun h => hnotin (h ▸ hk)
        rw [total_cons, hf k' (by simp) hne, zero_add,
          ih hnd hk (fun x hx => hf x (by simp [hx]))]

/-- **Groups add up.** Over distinct keys, the sums of the groups add up to the sum over the
rows whose key is listed. -/
lemma sum_groups_filter [DecidableEq β] {keys : List β} (hnd : keys.Nodup) (key : α → β) (f : α → M)
    (rows : List α) :
    total (fun k => total f (rows.filter fun x => key x = k)) keys =
      total f (rows.filter fun x => key x ∈ keys) := by
  induction rows with
  | nil => exact total_eq_zero fun _ _ => rfl
  | cons x rows ih =>
      -- one more row adds its column to exactly the group of its own key
      have hsplit : ∀ k, total f ((x :: rows).filter fun y => key y = k) =
          (if key x = k then f x else 0) + total f (rows.filter fun y => key y = k) := by
        intro k
        by_cases hk : key x = k
        · simp [hk]
        · simp [hk]
      rw [total_congr fun k _ => hsplit k, total_add, ih]
      by_cases hx : key x ∈ keys
      · rw [total_single hnd hx fun k _ hne => if_neg (Ne.symm hne), if_pos rfl]
        simp [hx]
      · have hnone : total (fun k => if key x = k then f x else 0) keys = 0 :=
          total_eq_zero fun k hk => if_neg fun (h : key x = k) => hx (h ▸ hk)
        rw [hnone, zero_add]
        simp [hx]

/-- When every row's key is listed, the groups add up to the whole bag. -/
lemma sum_groups [DecidableEq β] {keys : List β} (hnd : keys.Nodup) (key : α → β) (f : α → M)
    (rows : List α) (hall : ∀ x ∈ rows, key x ∈ keys) :
    total (fun k => total f (rows.filter fun x => key x = k)) keys = total f rows := by
  rw [sum_groups_filter hnd, List.filter_eq_self.mpr (fun x hx => by simpa using hall x hx)]

/-- **The groups of all keys are the bag**, whatever the order of the keys. -/
lemma flatMap_filter_perm [DecidableEq β] {keys : List β} (hnd : keys.Nodup) (key : α → β)
    (rows : List α) (hall : ∀ x ∈ rows, key x ∈ keys) :
    (keys.flatMap fun k => rows.filter fun x => key x = k).Perm rows := by
  have hbag : ∀ xs : List α, total (fun x => ({x} : Multiset α)) xs = (xs : Multiset α) :=
    fun xs => by
    induction xs with
    | nil => rfl
    | cons x xs ih => rw [total_cons, ih, Multiset.singleton_add, Multiset.cons_coe]
  have hflat : ∀ ks : List β,
      ((ks.flatMap fun k => rows.filter fun x => key x = k : List α) : Multiset α) =
      total (fun k => total (fun x => ({x} : Multiset α)) (rows.filter fun x => key x = k)) ks :=
        fun ks => by
    induction ks with
    | nil => rfl
    | cons k ks ih => rw [List.flatMap_cons, ← Multiset.coe_add, ih, total_cons, hbag]
  rw [← Multiset.coe_eq_coe, hflat, sum_groups hnd key _ rows hall, hbag]

end LedgerProof
