import LedgerProof.Lib.Sums
import Mathlib.Data.List.Perm.Basic

/-!
# First arrival wins

A store that takes an item when nothing with the same key got there first, and drops it
otherwise.  What it holds in the end depends on the order of arrival, since of two items with
one key the first is kept; what it holds *is worth* the same in every order, as long as items
with one key are worth the same.

`FirstWins` is the interface: `fresh` says whether an item would be taken, `value` is what the state
is worth, and the three laws say what one arrival does to both.  `FirstWins.foldl` is the resulting
closed form for a whole list of arrivals: the initial worth plus the worth of each distinct key that
was fresh at the beginning, once.  `FirstWins.foldl_congr` draws the conclusion that the order and
the number of arrivals do not matter.
-/

namespace LedgerProof

variable {σ α κ M : Type*} [AddCommMonoid M] [DecidableEq κ]

/-! ## Distinct keys -/

lemma dedup_cons_perm (k : κ) (l : List κ) :
    (k :: l).dedup.Perm (k :: (l.filter (· ≠ k)).dedup) := by
  refine (List.perm_ext_iff_of_nodup (List.nodup_dedup _) ?_).mpr fun x => ?_
  · exact List.nodup_cons.mpr ⟨by simp, List.nodup_dedup _⟩
  · by_cases hx : x = k <;> simp [hx]

lemma total_dedup_congr {l l' : List κ} (h : ∀ k, k ∈ l ↔ k ∈ l') (v : κ → M) :
    total v l.dedup = total v l'.dedup := by
  apply total_perm
  refine (List.perm_ext_iff_of_nodup (List.nodup_dedup _) (List.nodup_dedup _)).mpr fun k => ?_
  rw [List.mem_dedup, List.mem_dedup]
  exact h k

/-! ## First occurrences -/

/-- The items whose key is neither among `seen` nor that of an earlier item. -/
def firsts (key : α → κ) : List κ → List α → List α
  | _, [] => []
  | seen, x :: xs =>
      if key x ∈ seen then firsts key seen xs else x :: firsts key (key x :: seen) xs

/-- An item is a first occurrence when nothing before it has its key. -/
lemma mem_firsts {key : α → κ} {seen : List κ} {xs : List α} {x : α} :
    x ∈ firsts key seen xs ↔ ∃ pre post, xs = pre ++ x :: post ∧ key x ∉ seen ∧
      key x ∉ pre.map key := by
  induction xs generalizing seen with
  | nil => simp [firsts]
  | cons y xs ih =>
      unfold firsts
      split_ifs with hy
      · rw [ih]
        constructor
        · rintro ⟨pre, post, rfl, hseen, hpre⟩
          refine ⟨y :: pre, post, rfl, hseen, ?_⟩
          rw [List.map_cons, List.mem_cons, not_or]
          exact ⟨fun heq => hseen (heq ▸ hy), hpre⟩
        · rintro ⟨pre, post, heq, hseen, hpre⟩
          rcases List.cons_eq_append_iff.mp heq with ⟨-, h⟩ | ⟨pre', rfl, h⟩
          · cases h
            exact absurd hy hseen
          · exact ⟨pre', post, h, hseen, fun hm => hpre (List.mem_cons_of_mem _ hm)⟩
      · rw [List.mem_cons, ih]
        constructor
        · rintro (rfl | ⟨pre, post, rfl, hseen, hpre⟩)
          · exact ⟨[], xs, rfl, hy, by simp⟩
          · rw [List.mem_cons, not_or] at hseen
            refine ⟨y :: pre, post, rfl, hseen.2, ?_⟩
            rw [List.map_cons, List.mem_cons, not_or]
            exact ⟨hseen.1, hpre⟩
        · rintro ⟨pre, post, heq, hseen, hpre⟩
          rcases List.cons_eq_append_iff.mp heq with ⟨-, h⟩ | ⟨pre', rfl, h⟩
          · cases h
            exact .inl rfl
          · rw [List.map_cons, List.mem_cons, not_or] at hpre
            refine .inr ⟨pre', post, h, ?_, hpre.2⟩
            rw [List.mem_cons, not_or]
            exact ⟨hpre.1, hseen⟩

lemma nodup_firsts (key : α → κ) (seen : List κ) (xs : List α) :
    ((firsts key seen xs).map key).Nodup := by
  induction xs generalizing seen with
  | nil => simp [firsts]
  | cons x xs ih =>
      unfold firsts
      split_ifs with hx
      · exact ih seen
      · rw [List.map_cons, List.nodup_cons]
        refine ⟨fun hm => ?_, ih _⟩
        obtain ⟨y, hy, heq⟩ := List.mem_map.mp hm
        obtain ⟨pre, post, -, hseen, -⟩ := mem_firsts.mp hy
        exact hseen (by simp [heq])

lemma mem_map_firsts {key : α → κ} {xs : List α} {k : κ} :
    k ∈ (firsts key [] xs).map key ↔ k ∈ xs.map key := by
  have hgen : ∀ seen, k ∈ (firsts key seen xs).map key ↔ k ∈ xs.map key ∧ k ∉ seen := by
    induction xs with
    | nil => simp [firsts]
    | cons x xs ih =>
        intro seen
        unfold firsts
        split_ifs with hx
        · rw [ih, List.map_cons, List.mem_cons]
          constructor
          · rintro ⟨hm, hseen⟩
            exact ⟨.inr hm, hseen⟩
          · rintro ⟨rfl | hm, hseen⟩
            · exact absurd hx hseen
            · exact ⟨hm, hseen⟩
        · rw [List.map_cons, List.map_cons, List.mem_cons, List.mem_cons, ih, List.mem_cons, not_or]
          by_cases hk : k = key x
          · simp [hk, hx]
          · simp [hk]
  simpa using hgen []

/-! ## The store -/

/-- A transition that keeps the first item of each key.  `Inv` and `Ok` delimit the states and
the items the laws are claimed for. -/
structure FirstWins (Inv : σ → Prop) (Ok : α → Prop) (step : σ → α → σ) (fresh : σ → α → Bool)
    (key : α → κ) (value : σ → M) (worth : κ → M) : Prop where
  inv : ∀ {s x}, Inv s → Ok x → Inv (step s x)
  value_step : ∀ {s x}, Inv s → Ok x →
    value (step s x) = if fresh s x then value s + worth (key x) else value s
  fresh_step : ∀ {s x y}, Inv s → Ok x → Ok y →
    (fresh (step s x) y = true ↔ fresh s y = true ∧ ¬(fresh s x = true ∧ key x = key y))

namespace FirstWins

variable {Inv : σ → Prop} {Ok : α → Prop} {step : σ → α → σ} {fresh : σ → α → Bool} {key : α → κ}
  {value : σ → M} {worth : κ → M}

/-- The distinct keys of the items that are fresh in `s`. -/
def freshKeys (fresh : σ → α → Bool) (key : α → κ) (s : σ) (xs : List α) : List κ :=
  ((xs.filter (fresh s)).map key).dedup

/-- After one arrival the fresh keys are the others. -/
lemma freshKeys_step (h : FirstWins Inv Ok step fresh key value worth) {s : σ} (hs : Inv s) {x : α}
    {xs : List α} (hok : ∀ y ∈ x :: xs, Ok y) (hx : fresh s x = true) :
    (freshKeys fresh key s (x :: xs)).Perm (key x :: freshKeys fresh key (step s x) xs) := by
  have hfilter : (xs.filter (fresh (step s x))).map key =
      ((xs.filter (fresh s)).map key).filter (· ≠ key x) := by
    rw [List.filter_map, List.filter_filter]
    congr 1
    refine List.filter_congr fun y hy => ?_
    have hiff := h.fresh_step hs (hok x (by simp)) (hok y (by simp [hy]))
    rw [Bool.eq_iff_iff, hiff, Bool.and_eq_true, Function.comp_apply, decide_eq_true_iff]
    constructor
    · rintro ⟨hy, hne⟩
      exact ⟨fun heq => hne ⟨hx, heq.symm⟩, hy⟩
    · rintro ⟨hne, hy⟩
      exact ⟨hy, fun hboth => hne hboth.2.symm⟩
  rw [freshKeys, freshKeys, hfilter, List.filter_cons_of_pos hx, List.map_cons]
  exact dedup_cons_perm _ _

/-- **The worth after any arrivals.** -/
lemma foldl (h : FirstWins Inv Ok step fresh key value worth) {s : σ} (hs : Inv s) {xs : List α}
    (hok : ∀ x ∈ xs, Ok x) :
    value (xs.foldl step s) = value s + total worth (freshKeys fresh key s xs) := by
  induction xs generalizing s with
  | nil => simp [freshKeys]
  | cons x xs ih =>
      have hx : Ok x := hok x (by simp)
      rw [List.foldl_cons, ih (h.inv hs hx) (fun y hy => hok y (by simp [hy])),
        h.value_step hs hx]
      by_cases hf : fresh s x = true
      · rw [if_pos hf, total_perm (h.freshKeys_step hs hok hf), total_cons, add_assoc]
      · have hsame : ∀ y ∈ xs, fresh (step s x) y = fresh s y := by
          intro y hy
          have hiff := h.fresh_step hs hx (hok y (by simp [hy]))
          rw [Bool.eq_iff_iff, hiff]
          simp [hf]
        rw [if_neg hf, freshKeys, freshKeys, List.filter_congr hsame, List.filter_cons_of_neg hf]

/-- **Order and repetition do not matter.** -/
lemma foldl_congr (h : FirstWins Inv Ok step fresh key value worth) {s : σ} (hs : Inv s)
    {xs ys : List α} (hok : ∀ x ∈ xs, Ok x) (hmem : ∀ x, x ∈ ys ↔ x ∈ xs) :
    value (ys.foldl step s) = value s + total worth (freshKeys fresh key s xs) := by
  rw [h.foldl hs fun y hy => hok y ((hmem y).mp hy)]
  congr 1
  refine total_dedup_congr (fun k => ?_) worth
  simp only [List.mem_map, List.mem_filter, hmem]

end FirstWins

end LedgerProof
