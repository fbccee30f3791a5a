import Mathlib.Tactic

/-!
# Runs of a transition function

A system is a total transition function `next : σ → α → σ`: in state `s` the environment picks
an action, and an action that is not possible there changes nothing.  A run is a list of actions,
and its final state is the left fold.

`Guarded` restricts the environment: every action of the run meets a condition in the state it
is taken in.  `foldl_inv` and `Guarded.inv` are the two invariant rules, and `Guarded.rel` is the
rule for a relation between an earlier and a later state of one run.
-/

namespace LedgerProof

variable {σ α : Type*} {next : σ → α → σ} {G : σ → α → Prop}

/-- Every action of the run meets `G` in the state it is taken in. -/
def Guarded (next : σ → α → σ) (G : σ → α → Prop) : σ → List α → Prop
  | _, [] => True
  | s, a :: as => G s a ∧ Guarded next G (next s a) as

instance [∀ s a, Decidable (G s a)] : ∀ s as, Decidable (Guarded next G s as)
  | _, [] => .isTrue trivial
  | s, a :: as =>
      have := instDecidableGuarded (next s a) as
      inferInstanceAs (Decidable (G s a ∧ Guarded next G (next s a) as))

/-- What holds initially and is preserved by every action holds after every run. -/
lemma foldl_inv (Inv : σ → Prop) (hstep : ∀ s a, Inv s → Inv (next s a)) {s : σ} (hs : Inv s)
    (as : List α) :
    Inv (as.foldl next s) := by
  induction as generalizing s with
  | nil => exact hs
  | cons a as ih => exact ih (hstep s a hs)

namespace Guarded

lemma of_forall {s : σ} {as : List α} (h : ∀ a ∈ as, ∀ s, G s a) : Guarded next G s as := by
  induction as generalizing s with
  | nil => trivial
  | cons a as ih => exact ⟨h a (by simp) s, ih fun b hb => h b (by simp [hb])⟩

/-- The invariant rule for restricted runs. -/
lemma inv (Inv : σ → Prop) (hstep : ∀ s a, Inv s → G s a → Inv (next s a)) {s : σ} (hs : Inv s)
    {as : List α} (h : Guarded next G s as) : Inv (as.foldl next s) := by
  induction as generalizing s with
  | nil => exact hs
  | cons a as ih =>
      obtain ⟨ha, has⟩ := h
      exact ih (hstep s a hs ha) has

lemma append_iff {s : σ} {as bs : List α} :
    Guarded next G s (as ++ bs) ↔
      Guarded next G s as ∧ Guarded next G (as.foldl next s) bs := by
  induction as generalizing s with
  | nil => simp [Guarded]
  | cons a as ih => simp [Guarded, ih, and_assoc]

/-- The rule for a reflexive and transitive relation along a restricted run. -/
lemma rel (Inv : σ → Prop) {R : σ → σ → Prop} (hrefl : ∀ s, R s s)
    (htrans : ∀ s t u, R s t → R t u → R s u) (hinv : ∀ s a, Inv s → G s a → Inv (next s a))
    (hstep : ∀ s a, Inv s → G s a → R s (next s a)) {s : σ} (hs : Inv s) {as : List α}
    (h : Guarded next G s as) : R s (as.foldl next s) := by
  induction as generalizing s with
  | nil => exact hrefl s
  | cons a as ih =>
      obtain ⟨ha, has⟩ := h
      exact htrans _ _ _ (hstep s a hs ha) (ih (hinv s a hs ha) has)

/-- The rule for the length of a restricted run: it is bounded by what every action adds to. -/
lemma length_le (measure : σ → ℕ) (Inv : σ → Prop) (hinv : ∀ s a, Inv s → G s a → Inv (next s a))
    (hstep : ∀ s a, Inv s → G s a → measure s < measure (next s a)) {s : σ} (hs : Inv s)
    {as : List α} (h : Guarded next G s as) :
    measure s + as.length ≤ measure (as.foldl next s) := by
  induction as generalizing s with
  | nil => exact le_rfl
  | cons a as ih =>
      obtain ⟨ha, has⟩ := h
      have hrest := ih (hinv s a hs ha) has
      have hone := hstep s a hs ha
      rw [List.length_cons, List.foldl_cons]
      omega

/-- The rule for a measure that every action of a restricted run uses up. -/
lemma add_length_le (measure : σ → ℕ) (Inv : σ → Prop)
    (hinv : ∀ s a, Inv s → G s a → Inv (next s a))
    (hstep : ∀ s a, Inv s → G s a → measure (next s a) < measure s) {s : σ} (hs : Inv s)
    {as : List α} (h : Guarded next G s as) :
    measure (as.foldl next s) + as.length ≤ measure s := by
  induction as generalizing s with
  | nil => exact le_rfl
  | cons a as ih =>
      obtain ⟨ha, has⟩ := h
      have hrest := ih (hinv s a hs ha) has
      have hone := hstep s a hs ha
      rw [List.length_cons, List.foldl_cons]
      omega

/-- A restricted run can be continued until nothing is left to do, if something uses up a measure
whenever there is something left. -/
lemma exists_run (measure : σ → ℕ) (Inv Done : σ → Prop)
    (hinv : ∀ s a, Inv s → G s a → Inv (next s a))
    (hstep : ∀ s a, Inv s → G s a → measure (next s a) < measure s)
    (hgo : ∀ s, Inv s → Done s ∨ ∃ a, G s a) {s : σ} (hs : Inv s) :
    ∃ as, Guarded next G s as ∧ Done (as.foldl next s) := by
  induction hn : measure s using Nat.strong_induction_on generalizing s with
  | h n ih =>
      rcases hgo s hs with hdone | ⟨a, ha⟩
      · exact ⟨[], trivial, hdone⟩
      · obtain ⟨as, has, hdone⟩ := ih _ (hn ▸ hstep s a hs ha) (hinv s a hs ha) rfl
        exact ⟨a :: as, ⟨ha, has⟩, hdone⟩

end Guarded

end LedgerProof
