import LedgerProof.Lib.Sums

/-!
# Dictionaries

Python's `dict`: each key once, in the order of insertion; writing to a key that is there keeps its
place.  That keys are distinct is a field, so `get?` is the only way to read a key and an item is in
the dictionary exactly when `get?` finds it (`mem_items_iff`).

`index` and `group` are the two ways a list is put into a dictionary, `{key(x): x for x in xs}` and
`setdefault(key(x), []).append(x)`; items without a key are left out.  `tally` adds numbers up by
key, and `same` is `==`.
-/

namespace LedgerProof

/-- A dictionary, as the list of its items. -/
@[ext] structure Dict (κ ν : Type) where
  items : List (κ × ν)
  nodup : (items.map Prod.fst).Nodup

namespace Dict

variable {κ ν α : Type}

/-- The empty dictionary. -/
def empty : Dict κ ν := ⟨[], by simp⟩

/-- `d.keys()`. -/
def keys (d : Dict κ ν) : List κ := d.items.map Prod.fst

lemma keys_nodup (d : Dict κ ν) : d.keys.Nodup := d.nodup

/-- `{k: v for k, v in d.items() if p(v)}`. -/
def filter (p : ν → Bool) (d : Dict κ ν) : Dict κ ν :=
  ⟨d.items.filter fun i => p i.2, d.nodup.sublist (List.filter_sublist.map _)⟩

variable [DecidableEq κ] {d : Dict κ ν} {k k' : κ} {v : ν}

/-- `d.get(k)`. -/
def get? (d : Dict κ ν) (k : κ) : Option ν := d.items.lookup k

/-- `d.get(k, default)`. -/
def getD (d : Dict κ ν) (k : κ) (default : ν) : ν := (d.get? k).getD default

/-- `d[k] = v`. -/
def set (d : Dict κ ν) (k : κ) (v : ν) : Dict κ ν :=
  if h : k ∈ d.keys then
    ⟨d.items.map fun i => if i.1 = k then (k, v) else i, by
      have hkeys : (d.items.map fun i => if i.1 = k then (k, v) else i).map Prod.fst = d.keys := by
        rw [List.map_map]
        refine List.map_congr_left fun i _ => ?_
        by_cases hi : i.1 = k <;> simp [hi]
      rw [hkeys]
      exact d.nodup⟩
  else
    ⟨d.items ++ [(k, v)], by
      rw [List.map_append]
      refine List.Nodup.append d.nodup (by simp) ?_
      simpa [keys] using h⟩

/-! ## Reading -/

lemma lookup_eq_some_iff {items : List (κ × ν)} (h : (items.map Prod.fst).Nodup) :
    items.lookup k = some v ↔ (k, v) ∈ items := by
  induction items with
  | nil => simp
  | cons i items ih =>
      obtain ⟨hnot, hnd⟩ := List.nodup_cons.mp h
      by_cases hk : k = i.1
      · subst hk
        have hmem : (i.1, v) ∉ items := fun hm => hnot (List.mem_map.mpr ⟨_, hm, rfl⟩)
        rw [List.lookup_cons, beq_self_eq_true, List.mem_cons]
        simp only [hmem, or_false]
        exact ⟨fun h => by rw [← Option.some_inj.mp h], fun h => by rw [← h]⟩
      · have hbeq : (k == i.1) = false := by simpa using hk
        rw [List.lookup_cons, hbeq, List.mem_cons]
        have hne : (k, v) ≠ i := fun h => hk (by rw [← h])
        simp only [hne, false_or]
        exact ih hnd

/-- **An item is in the dictionary exactly when reading its key finds it.** -/
lemma mem_items_iff : (k, v) ∈ d.items ↔ d.get? k = some v :=
  (lookup_eq_some_iff d.nodup).symm

lemma mem_keys_iff : k ∈ d.keys ↔ ∃ v, d.get? k = some v := by
  simp only [keys, List.mem_map, ← mem_items_iff]
  constructor
  · rintro ⟨⟨k', v⟩, hm, rfl⟩
    exact ⟨v, hm⟩
  · rintro ⟨v, hm⟩
    exact ⟨_, hm, rfl⟩

@[simp] lemma get?_empty : (empty : Dict κ ν).get? k = none := rfl

@[simp] lemma getD_empty : (empty : Dict κ ν).getD k v = v := rfl

lemma get?_filter (p : ν → Bool) : (d.filter p).get? k = (d.get? k).filter p := by
  refine Option.ext fun v => ?_
  rw [← mem_items_iff, Option.filter_eq_some_iff, ← mem_items_iff]
  simp [filter]

lemma get?_eq_none_iff : d.get? k = none ↔ k ∉ d.keys := by
  rw [mem_keys_iff]
  cases d.get? k <;> simp

lemma getD_eq_of_not_mem (h : k ∉ d.keys) : d.getD k v = v := by
  rw [getD, get?_eq_none_iff.mpr h, Option.getD_none]

/-! ## Writing -/

lemma set_items_of_not_mem (h : k ∉ d.keys) : (d.set k v).items = d.items ++ [(k, v)] := by
  rw [set, dif_neg h]

lemma mem_set_items {i : κ × ν} :
    i ∈ (d.set k v).items ↔ i = (k, v) ∨ (i ∈ d.items ∧ i.1 ≠ k) := by
  unfold set
  split_ifs with h
  · simp only [List.mem_map]
    constructor
    · rintro ⟨j, hj, rfl⟩
      by_cases hk : j.1 = k
      · exact .inl (if_pos hk)
      · rw [if_neg hk]
        exact .inr ⟨hj, hk⟩
    · rintro (rfl | ⟨hi, hk⟩)
      · obtain ⟨j, hj, rfl⟩ := List.mem_map.mp h
        exact ⟨j, hj, if_pos rfl⟩
      · exact ⟨i, hi, if_neg hk⟩
  · rw [List.mem_append, List.mem_singleton]
    constructor
    · rintro (hi | rfl)
      · exact .inr ⟨hi, fun hk => h (hk ▸ List.mem_map_of_mem hi)⟩
      · exact .inl rfl
    · rintro (rfl | ⟨hi, -⟩)
      · exact .inr rfl
      · exact .inl hi

@[simp] lemma get?_set : (d.set k v).get? k' = if k = k' then some v else d.get? k' := by
  refine Option.ext fun w => ?_
  rw [← mem_items_iff, mem_set_items]
  by_cases hk : k = k'
  · subst hk
    simp [eq_comm]
  · rw [if_neg hk, ← mem_items_iff]
    simp [Ne.symm hk]

lemma mem_keys_set : k' ∈ (d.set k v).keys ↔ k' = k ∨ k' ∈ d.keys := by
  rw [mem_keys_iff, mem_keys_iff, get?_set]
  by_cases hk : k = k'
  · simp [hk]
  · simp [hk, Ne.symm hk]

lemma set_items_of_last {pre : List (κ × ν)} {x : ν} (h : d.items = pre ++ [(k, x)]) :
    (d.set k v).items = pre ++ [(k, v)] := by
  have hmem : k ∈ d.keys := by simp [keys, h]
  have hpre : ∀ i ∈ pre, i.1 ≠ k := by
    intro i hi heq
    have hnd := d.nodup
    rw [h, List.map_append, List.nodup_append] at hnd
    exact hnd.2.2 i.1 (List.mem_map_of_mem hi) k (by simp) heq
  rw [set, dif_pos hmem]
  simp only [h, List.map_append, List.map_cons, List.map_nil, if_true]
  congr 1
  exact List.map_congr_left (fun i hi => if_neg (hpre i hi)) |>.trans (List.map_id _)

/-! ## Lists as dictionaries -/

/-- `{key(x): x for x in xs}`. -/
def index (key : α → Option κ) (xs : List α) : Dict κ α :=
  xs.foldl (fun d x => match key x with
    | some k => d.set k x
    | none => d) empty

/-- `for x in xs: d.setdefault(key(x), []).append(x)`. -/
def group (key : α → Option κ) (xs : List α) : Dict κ (List α) :=
  xs.foldl (fun d x => match key x with
    | some k => d.set k (d.getD k [] ++ [x])
    | none => d) empty

/-- A key has the last item of the list that has it. -/
lemma get?_index (key : α → Option κ) (xs : List α) (k : κ) :
    (index key xs).get? k = (xs.filter fun x => key x = some k).getLast? := by
  induction xs using List.reverseRecOn with
  | nil => rfl
  | append_singleton xs x ih =>
      rw [index, List.foldl_append, ← index, List.filter_append]
      simp only [List.foldl_cons, List.foldl_nil]
      cases hx : key x with
      | none => simp [hx, ih]
      | some k' =>
          rw [get?_set]
          by_cases hk : k' = k
          · simp [hx, hk]
          · simp [hx, hk, ih]

/-- A key has the items of the list that have it, in order. -/
lemma getD_group (key : α → Option κ) (xs : List α) (k : κ) :
    (group key xs).getD k [] = xs.filter fun x => key x = some k := by
  induction xs using List.reverseRecOn with
  | nil => rfl
  | append_singleton xs x ih =>
      rw [group, List.foldl_append, ← group, List.filter_append]
      simp only [List.foldl_cons, List.foldl_nil]
      cases hx : key x with
      | none => simp [hx, ih]
      | some k' =>
          rw [getD, get?_set]
          by_cases hk : k' = k
          · subst hk
            simp [hx, ih]
          · simp only [hk, if_false]
            rw [← getD, ih]
            simp [hx, hk]

lemma mem_keys_group (key : α → Option κ) (xs : List α) (k : κ) :
    k ∈ (group key xs).keys ↔ ∃ x ∈ xs, key x = some k := by
  induction xs using List.reverseRecOn with
  | nil => simp [group, keys, empty]
  | append_singleton xs x ih =>
      rw [group, List.foldl_append, ← group]
      simp only [List.foldl_cons, List.foldl_nil, List.mem_append, List.mem_singleton, or_and_right,
        exists_or, exists_eq_left]
      cases hx : key x with
      | none => simp [ih]
      | some k' =>
          rw [mem_keys_set, ih, Option.some_inj, eq_comm (a := k)]
          exact or_comm

/-! ## Dictionaries of numbers -/

/-- `for x in xs: d[key(x)] = d.get(key(x), 0) + val(x)`. -/
def tally (key : α → κ) (val : α → ℤ) (d : Dict κ ℤ) (xs : List α) : Dict κ ℤ :=
  xs.foldl (fun d x => d.set (key x) (d.getD (key x) 0 + val x)) d

/-- A key has what it had and the values of the items that have it. -/
lemma getD_tally (key : α → κ) (val : α → ℤ) (d : Dict κ ℤ) (xs : List α) (k : κ) :
    (tally key val d xs).getD k 0 = d.getD k 0 + total val (xs.filter fun x => key x = k) := by
  induction xs generalizing d with
  | nil => simp [tally]
  | cons x xs ih =>
      have hcons : tally key val d (x :: xs) =
          tally key val (d.set (key x) (d.getD (key x) 0 + val x)) xs := rfl
      rw [hcons, ih, getD, get?_set]
      by_cases hk : key x = k
      · subst hk
        simp [add_assoc]
      · simp [hk, getD]

lemma mem_keys_tally (key : α → κ) (val : α → ℤ) (d : Dict κ ℤ) (xs : List α) (k : κ) :
    k ∈ (tally key val d xs).keys ↔ k ∈ d.keys ∨ ∃ x ∈ xs, key x = k := by
  induction xs generalizing d with
  | nil => simp [tally]
  | cons x xs ih =>
      have hcons : tally key val d (x :: xs) =
          tally key val (d.set (key x) (d.getD (key x) 0 + val x)) xs := rfl
      rw [hcons, ih, mem_keys_set]
      simp only [List.mem_cons, exists_eq_or_imp]
      tauto

/-- Pairs with keys of their own are written one after the other. -/
lemma foldl_set_items {fs : List (κ × ν)} (h : (fs.map Prod.fst).Nodup) :
    (fs.foldl (fun d p => d.set p.1 p.2) (empty : Dict κ ν)).items = fs := by
  suffices hgen : ∀ (fs : List (κ × ν)) (d : Dict κ ν), ((d.items ++ fs).map Prod.fst).Nodup →
      (fs.foldl (fun d p => d.set p.1 p.2) d).items = d.items ++ fs by
    simpa [empty] using hgen fs .empty (by simpa [empty] using h)
  intro fs
  induction fs with
  | nil => simp
  | cons f fs ih =>
      intro d hnd
      have hfresh : f.1 ∉ d.keys := by
        rw [List.map_append, List.nodup_append] at hnd
        exact fun hmem => hnd.2.2 _ hmem _ (by simp) rfl
      have hitems : (d.set f.1 f.2).items = d.items ++ [f] := set_items_of_not_mem hfresh
      rw [List.foldl_cons, ih _ (by rw [hitems]; simpa using hnd), hitems]
      simp

lemma mem_keys_foldl_set (fs : List (κ × ν)) (d : Dict κ ν) (k : κ) :
    k ∈ (fs.foldl (fun d p => d.set p.1 p.2) d).keys ↔ k ∈ d.keys ∨ k ∈ fs.map Prod.fst := by
  induction fs generalizing d with
  | nil => simp
  | cons f fs ih =>
      rw [List.foldl_cons, ih, mem_keys_set, List.map_cons, List.mem_cons]
      tauto

/-- Dropping the zeros of a dictionary leaves each number as it was. -/
lemma get?_filter_ne_zero (d : Dict κ ℤ) (k : κ) :
    (d.filter (· ≠ 0)).get? k = if d.getD k 0 = 0 then none else some (d.getD k 0) := by
  rw [get?_filter, getD]
  cases d.get? k with
  | none => rfl
  | some n => by_cases hn : n = 0 <;> simp [hn]

lemma forall_items_eq_zero_iff (d : Dict κ ℤ) : (∀ i ∈ d.items, i.2 = 0) ↔ ∀ k, d.getD k 0 = 0 := by
  constructor
  · intro h k
    rw [getD]
    cases hk : d.get? k with
    | none => rfl
    | some n => exact h (k, n) (mem_items_iff.mpr hk)
  · rintro h ⟨k, n⟩ hi
    simpa [getD, mem_items_iff.mp hi] using h k

/-- `d == d'`: the same items, in any order. -/
def same [DecidableEq ν] (d d' : Dict κ ν) : Bool :=
  d.items.all (fun i => d'.get? i.1 = some i.2) && d'.items.all (fun i => d.get? i.1 = some i.2)

lemma same_iff [DecidableEq ν] (d d' : Dict κ ν) :
    d.same d' = true ↔ ∀ k, d.get? k = d'.get? k := by
  simp only [same, Bool.and_eq_true, List.all_eq_true, decide_eq_true_iff]
  constructor
  · rintro ⟨hd, hd'⟩ k
    refine Option.ext fun v => ⟨fun h => hd (k, v) (mem_items_iff.mpr h), fun h => ?_⟩
    exact hd' (k, v) (mem_items_iff.mpr h)
  · intro h
    refine ⟨fun i hi => ?_, fun i hi => ?_⟩
    · rw [← h, mem_items_iff.mp hi]
    · rw [h, mem_items_iff.mp hi]

end Dict

/-! ## Lists of items

A dictionary inside an inductive type is a list of items, read by `lookup`. -/

section

variable {κ ν : Type} [DecidableEq κ]

/-- `fields[key] = v`. -/
def setItem (fields : List (κ × ν)) (key : κ) (v : ν) : List (κ × ν) :=
  if key ∈ fields.map Prod.fst then fields.map fun f => if f.1 = key then (key, v) else f
  else fields ++ [(key, v)]

variable {fields : List (κ × ν)} {key key' : κ} {v : ν} {f : κ × ν}

lemma mem_setItem (h : f ∈ setItem fields key v) : f = (key, v) ∨ (f ∈ fields ∧ f.1 ≠ key) := by
  unfold setItem at h
  split_ifs at h with hkey
  · obtain ⟨g, hg, rfl⟩ := List.mem_map.mp h
    by_cases hgk : g.1 = key
    · exact .inl (if_pos hgk)
    · rw [if_neg hgk]
      exact .inr ⟨hg, hgk⟩
  · rcases List.mem_append.mp h with hf | hf
    · exact .inr ⟨hf, fun heq => hkey (heq ▸ List.mem_map_of_mem hf)⟩
    · exact .inl (List.mem_singleton.mp hf)

lemma keys_setItem :
    key' ∈ (setItem fields key v).map Prod.fst ↔ key' = key ∨ key' ∈ fields.map Prod.fst := by
  have hkeys : (fields.map fun f => if f.1 = key then (key, v) else f).map Prod.fst =
      fields.map Prod.fst := by
    rw [List.map_map]
    refine List.map_congr_left fun f _ => ?_
    by_cases hf : f.1 = key <;> simp [hf]
  unfold setItem
  split_ifs with h
  · rw [hkeys]
    constructor
    · exact .inr
    · rintro (rfl | hkey')
      · exact h
      · exact hkey'
  · rw [List.map_append, List.mem_append, List.map_singleton, List.mem_singleton]
    exact or_comm

lemma lookup_map_replace [BEq κ] [LawfulBEq κ] (fields : List (κ × ν)) (h : key' ≠ key) :
    (fields.map fun f => if f.1 = key then (key, v) else f).lookup key' = fields.lookup key' := by
  induction fields with
  | nil => rfl
  | cons f fields ih =>
      obtain ⟨k, u⟩ := f
      rw [List.map_cons]
      by_cases hk : k = key
      · subst hk
        have hne : (key' == k) = false := beq_false_of_ne h
        rw [if_pos rfl, List.lookup_cons, List.lookup_cons, hne, ih]
      · rw [if_neg hk, List.lookup_cons, List.lookup_cons, ih]

lemma lookup_setItem_of_ne [BEq κ] [LawfulBEq κ] (h : key' ≠ key) :
    (setItem fields key v).lookup key' = fields.lookup key' := by
  unfold setItem
  split_ifs with hkey
  · exact lookup_map_replace fields h
  · have hne : (key' == key) = false := beq_false_of_ne h
    rw [List.lookup_append, List.lookup_cons, hne, List.lookup_nil, Option.or_none]

lemma lookup_setItem [BEq κ] [LawfulBEq κ] : (setItem fields key v).lookup key = some v := by
  cases hlookup : (setItem fields key v).lookup key with
  | none =>
      have hmem : key ∈ (setItem fields key v).map Prod.fst := keys_setItem.mpr (.inl rfl)
      obtain ⟨f, hf, hkey⟩ := List.mem_map.mp hmem
      have hne := List.lookup_eq_none_iff.mp hlookup f hf
      exact absurd hkey.symm (by simpa using hne)
  | some u =>
      obtain ⟨l, r, heq, -⟩ := List.lookup_eq_some_iff.mp hlookup
      have hmem : (key, u) ∈ setItem fields key v := by
        rw [heq]
        exact List.mem_append_right l List.mem_cons_self
      rcases mem_setItem hmem with h | h
      · rw [(Prod.mk.inj h).2]
      · exact absurd rfl h.2

lemma filter_setItem {p : κ × ν → Bool} (hp : ∀ f, p f = true → f.1 ≠ key) :
    (setItem fields key v).filter p = fields.filter p := by
  have hnew : p (key, v) = false := Bool.eq_false_iff.mpr fun h => hp _ h rfl
  unfold setItem
  split_ifs
  · have hsame : ∀ f, (p ∘ fun f => if f.1 = key then (key, v) else f) f = p f := by
      intro f
      rw [Function.comp_apply]
      split_ifs with hf
      · rw [hnew]
        exact (Bool.eq_false_iff.mpr fun h => hp f h hf).symm
      · rfl
    rw [List.filter_map, List.filter_congr fun f _ => hsame f]
    refine (List.map_congr_left fun f hf => ?_).trans (List.map_id _)
    exact if_neg (hp f (List.mem_filter.mp hf).2)
  · rw [List.filter_append, List.filter_cons_of_neg (by simp [hnew]), List.filter_nil,
      List.append_nil]

lemma setItem_eq_self (hkey : key ∈ fields.map Prod.fst) (h : ∀ f ∈ fields, f.1 = key → f.2 = v) :
    setItem fields key v = fields := by
  rw [setItem, if_pos hkey]
  refine (List.map_congr_left fun f hf => ?_).trans (List.map_id fields)
  by_cases hfk : f.1 = key
  · rw [if_pos hfk, ← hfk, ← h f hf hfk]
    rfl
  · rw [if_neg hfk]
    rfl

lemma setItem_of_not_mem (h : key ∉ fields.map Prod.fst) :
    setItem fields key v = fields ++ [(key, v)] := if_neg h

lemma setItem_append_singleton {u : ν} (h : key ∉ fields.map Prod.fst) :
    setItem (fields ++ [(key, u)]) key v = fields ++ [(key, v)] := by
  have hmem : key ∈ (fields ++ [(key, u)]).map Prod.fst := by simp
  have hold : (fields.map fun f => if f.1 = key then (key, v) else f) = fields :=
    (List.map_congr_left fun f hf => if_neg fun heq : f.1 = key =>
      h (heq ▸ List.mem_map_of_mem hf)).trans
      (List.map_id _)
  rw [setItem, if_pos hmem, List.map_append, hold, List.map_singleton, if_pos rfl]

end

end LedgerProof
