import Mathlib.Algebra.Order.Group.Multiset
import Mathlib.Data.List.Count
import Mathlib.Data.List.Perm.Basic
import Mathlib.Tactic

/-!
# Sums that depend on positions

A loop that numbers the rows it reads, separately for each key, and adds up what each row
contributes at its number: `placed key g n l`, where `g a k` is what the row `a` contributes when
`k` rows with its key came before it.

`placed_perm_iff` says when such a sum is the same for every order of the rows: whenever two rows
of one key may be exchanged at any two neighbouring numbers that are in use.  Neighbouring numbers
are enough because every order is reached by exchanging neighbours.
-/

namespace LedgerProof

variable {α κ M : Type*} [DecidableEq κ]

section

variable (key : α → κ)

/-- The numbers in use after the rows `l`, when `n k` rows with the key `k` came before. -/
def advance (n : κ → ℕ) (l : List α) : κ → ℕ := fun k => n k + l.countP (key · = k)

/-- What the rows contribute, each at its own number. -/
def placed [AddCommMonoid M] (g : α → ℕ → M) : (κ → ℕ) → List α → M
  | _, [] => 0
  | n, a :: l => g a (n (key a)) + placed g (advance key n [a]) l

/-- Two rows contribute the same at the numbers `k` and `k + 1`, whichever comes first. -/
def Exchange [AddCommMonoid M] (g : α → ℕ → M) (a b : α) (k : ℕ) : Prop :=
  g a k + g b (k + 1) = g b k + g a (k + 1)

end

section

variable {key : α → κ} {n : κ → ℕ} {a b : α} {l l' : List α}

lemma advance_nil (n : κ → ℕ) : advance key n [] = n := rfl

lemma advance_cons (n : κ → ℕ) (a : α) (l : List α) :
    advance key n (a :: l) = advance key (advance key n [a]) l := by
  funext k
  simp only [advance, List.countP_cons, List.countP_nil]
  omega

lemma advance_singleton_self (n : κ → ℕ) (a : α) : advance key n [a] (key a) = n (key a) + 1 := by
  simp [advance]

lemma advance_singleton_of_ne (n : κ → ℕ) (h : key a ≠ key b) :
    advance key n [a] (key b) = n (key b) := by
  simp [advance, h]

lemma advance_perm (n : κ → ℕ) (h : l.Perm l') : advance key n l = advance key n l' := by
  funext k
  rw [advance, advance, h.countP_eq]

lemma advance_comm (n : κ → ℕ) (a b : α) :
    advance key (advance key n [a]) [b] = advance key (advance key n [b]) [a] := by
  funext k
  simp only [advance]
  omega

variable [AddCancelCommMonoid M] {g : α → ℕ → M}

lemma Exchange.refl (g : α → ℕ → M) (a : α) (k : ℕ) : Exchange g a a k := rfl

lemma placed_append (n : κ → ℕ) (l l' : List α) :
    placed key g n (l ++ l') = placed key g n l + placed key g (advance key n l) l' := by
  induction l generalizing n with
  | nil => rw [List.nil_append, placed, advance_nil, zero_add]
  | cons a l ih => rw [List.cons_append, placed, placed, ih, ← advance_cons, add_assoc]

lemma placed_eq_zero {l : List α} (h : ∀ a ∈ l, ∀ k, g a k = 0) (n : κ → ℕ) :
    placed key g n l = 0 := by
  induction l generalizing n with
  | nil => rfl
  | cons a l ih => rw [placed, h a (by simp), ih fun b hb => h b (by simp [hb]), add_zero]

/-- Two neighbours that are exchanged: nothing changes when their keys differ. -/
lemma placed_swap_of_ne (h : key a ≠ key b) :
    placed key g n (a :: b :: l) = placed key g n (b :: a :: l) := by
  simp only [placed]
  rw [advance_singleton_of_ne n h, advance_singleton_of_ne n (Ne.symm h), advance_comm,
    add_left_comm]

/-- Two neighbours that are exchanged: with one key, the rest of the rows does not matter. -/
lemma placed_swap_iff (h : key a = key b) :
    placed key g n (a :: b :: l) = placed key g n (b :: a :: l) ↔ Exchange g a b (n (key a)) := by
  have hb : advance key n [a] (key b) = n (key a) + 1 := by rw [← h, advance_singleton_self]
  have ha : advance key n [b] (key a) = n (key a) + 1 := by rw [h, advance_singleton_self]
  simp only [placed]
  rw [hb, ha, ← h, advance_comm, ← add_assoc, ← add_assoc, add_left_inj]
  rfl

/-- Exchanges at the numbers in use are enough. -/
lemma placed_of_perm (hperm : l.Perm l')
    (h : ∀ a ∈ l, ∀ b ∈ l, key a = key b → ∀ k, n (key a) ≤ k →
      k + 1 < advance key n l (key a) → Exchange g a b k) :
    placed key g n l = placed key g n l' := by
  induction hperm generalizing n with
  | nil => rfl
  | cons a _ ih =>
      rw [placed, placed, ih]
      intro b hb c hc hkey k hle hlt
      rw [← advance_cons] at hlt
      have hgrow : n (key b) ≤ advance key n [a] (key b) := Nat.le_add_right _ _
      exact h b (by simp [hb]) c (by simp [hc]) hkey k (by omega) hlt
  | swap a b l =>
      by_cases hkey : key b = key a
      · rw [placed_swap_iff hkey]
        refine h b (by simp) a (by simp) hkey _ le_rfl ?_
        simp only [advance, List.countP_cons, hkey]
        simp
      · exact placed_swap_of_ne hkey
  | trans hperm₁ hperm₂ ih₁ ih₂ =>
      rw [ih₁ h, ih₂]
      intro a ha b hb hkey k hle hlt
      rw [← advance_perm n hperm₁] at hlt
      exact h a (hperm₁.mem_iff.mpr ha) b (hperm₁.mem_iff.mpr hb) hkey k hle hlt

/-- Two rows with one key can be put at any two neighbouring numbers in use. -/
lemma exists_perm_neighbours (ha : a ∈ l) (hb : b ∈ l) (hab : a ≠ b) (hkey : key a = key b) {k : ℕ}
    (hk : k + 1 < l.countP (key · = key a)) :
    ∃ pre post, (pre ++ a :: b :: post).Perm l ∧ advance key 0 pre (key a) = k := by
  classical
  obtain ⟨rest, hrest⟩ : ∃ rest, l.Perm (a :: b :: rest) := by
    refine ⟨(l.erase a).erase b, (List.perm_cons_erase ha).trans (List.Perm.cons a ?_)⟩
    exact List.perm_cons_erase ((List.mem_erase_of_ne (Ne.symm hab)).mpr hb)
  -- of the other rows with the key, `k` go before the two
  let on := rest.filter (key · = key a)
  let off := rest.filter fun x => !decide (key x = key a)
  have hlen : k ≤ on.length := by
    rw [hrest.countP_eq, List.countP_cons, List.countP_cons, List.countP_eq_length_filter] at hk
    simp only [← hkey] at hk
    change k + 1 < on.length + _ + _ at hk
    simp at hk
    omega
  refine ⟨on.take k, on.drop k ++ off, ?_, ?_⟩
  · have hsplit : (on.take k ++ (on.drop k ++ off)).Perm rest := by
      rw [← List.append_assoc, List.take_append_drop]
      exact List.filter_append_perm _ rest
    refine List.Perm.trans ?_ (((hsplit.cons b).cons a).trans hrest.symm)
    exact List.perm_middle.trans (List.Perm.cons a List.perm_middle)
  · have hall : (on.take k).countP (key · = key a) = (on.take k).length := by
      refine List.countP_eq_length.mpr fun x hx => ?_
      exact (List.mem_filter.mp (List.mem_of_mem_take hx)).2
    rw [advance, hall, List.length_take, min_eq_left hlen]
    simp

/-- **When a sum does not depend on the order of the rows.** -/
theorem placed_perm_iff (g : α → ℕ → M) (l : List α) :
    (∀ l', l'.Perm l → placed key g 0 l' = placed key g 0 l) ↔
      ∀ a ∈ l, ∀ b ∈ l, key a = key b → ∀ k, k + 1 < l.countP (key · = key a) →
        Exchange g a b k := by
  constructor
  · intro h a ha b hb hkey k hk
    by_cases hab : a = b
    · rw [hab]
      exact Exchange.refl g b k
    · obtain ⟨pre, post, hperm, hpre⟩ := exists_perm_neighbours ha hb hab hkey hk
      have hswap : (pre ++ b :: a :: post).Perm l :=
        ((List.Perm.swap a b post).append_left pre).trans hperm
      have heq := (h _ hperm).trans (h _ hswap).symm
      rw [placed_append, placed_append, add_right_inj, placed_swap_iff hkey, hpre] at heq
      exact heq
  · intro h l' hperm
    refine (placed_of_perm hperm.symm fun a ha b hb hkey k _ hk => ?_).symm
    refine h a ha b hb hkey k ?_
    simpa [advance] using hk

end

end LedgerProof
